import BackendFoundation.Lib.IsoDate
import BackendFoundation.Maintenance.Batches
import BackendFoundation.Outbox.Model
import BackendFoundation.Uploads.Model

/-! # Retention

`runRetentionCleanup` of `retention.ts`. It deletes the rows of nine tables that are older than a
cutoff, through a client that adds `deletedAt: null` to each condition. Dates are in milliseconds;
`none` is an invalid date.

The policy also names rows that have been deleted softly, and uploads reach the status `DELETED` only
with their `deletedAt`. Such rows stay (`Visible`).

Main result: `retention_exact`. -/

namespace BackendFoundation.Maintenance.Retention

open Errors Lib.IsoDate Lib.Json Lib.Tasks Maintenance.Batches
open Outbox.Model (OutboxStatus StripeEventStatus)
open Uploads.Model (UploadStatus)

/-! ### Rows -/

structure IdempotencyRecord where
  id : ℕ
  statusCode : Option ℤ := none
  /-- `some .null` is the JSON value. -/
  response : Option JsValue := none
  expiresAt : ℤ
  deletedAt : Option ℤ := none

structure Invitation where
  id : ℕ
  expiresAt : ℤ
  acceptedAt : Option ℤ := none
  revokedAt : Option ℤ := none
  deletedAt : Option ℤ := none

structure UploadBandwidthUsage where
  id : ℕ
  periodStart : ℤ

structure OtpChallenge where
  id : ℕ
  expiresAt : ℤ
  deletedAt : Option ℤ := none

structure Session where
  id : ℕ
  expiresAt : ℤ
  revokedAt : Option ℤ := none
  deletedAt : Option ℤ := none

structure OutboxEvent where
  id : ℕ
  status : OutboxStatus := .pending
  updatedAt : ℤ
  deletedAt : Option ℤ := none

structure StripeWebhookEvent where
  id : ℕ
  status : StripeEventStatus := .received
  createdAt : ℤ
  deletedAt : Option ℤ := none

structure Upload where
  id : ℕ
  status : UploadStatus := .pending
  updatedAt : ℤ
  deletedAt : Option ℤ := none

structure AuditEvent where
  id : ℕ
  createdAt : ℤ
  deletedAt : Option ℤ := none

/-- The tables, in the order of the database. -/
structure Database where
  idempotencyRecords : List IdempotencyRecord := []
  invitations : List Invitation := []
  uploadBandwidthUsage : List UploadBandwidthUsage := []
  otpChallenges : List OtpChallenge := []
  sessions : List Session := []
  outboxEvents : List OutboxEvent := []
  stripeWebhookEvents : List StripeWebhookEvent := []
  uploads : List Upload := []
  auditEvents : List AuditEvent := []

/-! ### The client -/

/-- A model of the client; `deletedAt` is the column, if the model has one. -/
structure Delegate (R : Type) where
  rows : Database → List R
  put : Database → List R → Database
  id : R → ℕ
  deletedAt : Option (R → Option ℤ)

def idempotencyRecord : Delegate IdempotencyRecord where
  rows := (·.idempotencyRecords)
  put db rows := { db with idempotencyRecords := rows }
  id := (·.id)
  deletedAt := some (·.deletedAt)

def invitation : Delegate Invitation where
  rows := (·.invitations)
  put db rows := { db with invitations := rows }
  id := (·.id)
  deletedAt := some (·.deletedAt)

def uploadBandwidthUsage : Delegate UploadBandwidthUsage where
  rows := (·.uploadBandwidthUsage)
  put db rows := { db with uploadBandwidthUsage := rows }
  id := (·.id)
  deletedAt := none

def otpChallenge : Delegate OtpChallenge where
  rows := (·.otpChallenges)
  put db rows := { db with otpChallenges := rows }
  id := (·.id)
  deletedAt := some (·.deletedAt)

def session : Delegate Session where
  rows := (·.sessions)
  put db rows := { db with sessions := rows }
  id := (·.id)
  deletedAt := some (·.deletedAt)

def outboxEvent : Delegate OutboxEvent where
  rows := (·.outboxEvents)
  put db rows := { db with outboxEvents := rows }
  id := (·.id)
  deletedAt := some (·.deletedAt)

def stripeWebhookEvent : Delegate StripeWebhookEvent where
  rows := (·.stripeWebhookEvents)
  put db rows := { db with stripeWebhookEvents := rows }
  id := (·.id)
  deletedAt := some (·.deletedAt)

def upload : Delegate Upload where
  rows := (·.uploads)
  put db rows := { db with uploads := rows }
  id := (·.id)
  deletedAt := some (·.deletedAt)

def auditEvent : Delegate AuditEvent where
  rows := (·.auditEvents)
  put db rows := { db with auditEvents := rows }
  id := (·.id)
  deletedAt := some (·.deletedAt)

variable {R : Type}

/-- The condition of a statement, with `deletedAt: null` if the model has the column. -/
def Delegate.activeWhere (delegate : Delegate R) (cond : R → Bool) (row : R) : Bool :=
  cond row && delegate.deletedAt.all fun deletedAt => (deletedAt row).isNone

/-- Which dates the client and the database take in a query, and the errors of the others. -/
structure DateSupport where
  invalid : Thrown
  error : ℤ → Option Thrown := fun _ => none

def DateSupport.take (dates : DateSupport) : Option ℤ → Except Thrown ℤ
  | none => .error dates.invalid
  | some ms =>
    match dates.error ms with
    | some e => .error e
    | none => .ok ms

/-- What the statements of a cleanup share. -/
structure Client where
  dates : DateSupport
  signal : AbortSignal
  fuel : ℕ

/-- `deleteInBatches` with `findMany` and `deleteMany` of one model; both have the condition. -/
def deleteOld (client : Client) (batchSize : ℕ) (delegate : Delegate R) (cutoff : Option ℤ)
    (cond : ℤ → R → Bool) (orderBy : R → ℤ) : CleanupTask Database ℕ :=
  on (fun c => ⟨delegate.rows c.data, c.checks⟩)
    (fun c t => ⟨delegate.put c.data t.data, t.checks⟩)
    (deleteRows client.signal client.fuel batchSize delegate.id
      ((client.dates.take cutoff).map fun ms => delegate.activeWhere (cond ms)) orderBy)

/-! ### The conditions -/

/-- `lt`, of a column that can be null. -/
def lt (column : Option ℤ) (ms : ℤ) : Bool := column.any (· < ms)

/-- `{ not: Prisma.AnyNull }`: neither the null of the database nor that of JSON. -/
def notAnyNull : Option JsValue → Bool
  | none => false
  | some .null => false
  | some _ => true

def idempotencyRecordWhere (now : ℤ) (row : IdempotencyRecord) : Bool :=
  row.expiresAt < now && row.statusCode.isSome && notAnyNull row.response

def invitationWhere (dataCutoff : ℤ) (row : Invitation) : Bool :=
  row.expiresAt < dataCutoff || lt row.acceptedAt dataCutoff || lt row.revokedAt dataCutoff

def uploadBandwidthUsageWhere (bandwidthCutoff : ℤ) (row : UploadBandwidthUsage) : Bool :=
  row.periodStart < bandwidthCutoff

def otpChallengeWhere (dataCutoff : ℤ) (row : OtpChallenge) : Bool := row.expiresAt < dataCutoff

def sessionWhere (dataCutoff : ℤ) (row : Session) : Bool :=
  row.expiresAt < dataCutoff || lt row.revokedAt dataCutoff

def outboxTerminalStatuses : List OutboxStatus := [.delivered, .deadLetter]

def outboxEventWhere (dataCutoff : ℤ) (row : OutboxEvent) : Bool :=
  row.status ∈ outboxTerminalStatuses && row.updatedAt < dataCutoff

def stripeWebhookEventWhere (dataCutoff : ℤ) (row : StripeWebhookEvent) : Bool :=
  row.status = .processed && row.createdAt < dataCutoff

def uploadWhere (dataCutoff : ℤ) (row : Upload) : Bool :=
  row.status ∈ [UploadStatus.failed, UploadStatus.deleted] && row.updatedAt < dataCutoff

def auditEventWhere (auditCutoff : ℤ) (row : AuditEvent) : Bool := row.createdAt < auditCutoff

/-! ### The cleanup -/

def dayMs : ℤ := 86400000

/-- A number, `none` for one that is not an integer. -/
abbrev Number := Option ℤ

structure RetentionEnv where
  DATA_RETENTION_DAYS : Number := some 30
  AUDIT_RETENTION_DAYS : Number := some 365
  RETENTION_BATCH_SIZE : Number := some 500

structure RetentionCleanupOptions where
  dataRetentionDays : Option Number := none
  auditRetentionDays : Option Number := none
  batchSize : Option Number := none
  /-- `some none` is an invalid date. -/
  now : Option (Option ℤ) := none

structure Parameters where
  dataRetentionDays : ℕ+
  auditRetentionDays : ℕ
  batchSize : ℕ+
  now : ℤ

def positiveInteger : Number → Option ℕ+
  | some n => if h : 0 < n.toNat then some ⟨n.toNat, h⟩ else none
  | none => none

def nonNegativeInteger : Number → Option ℕ
  | some n => if n < 0 then none else some n.toNat
  | none => none

def typeError (name rule : String) : Thrown := .error (name ++ " must be " ++ rule)

def parameters (env : RetentionEnv) (clock : ℤ) (options : RetentionCleanupOptions) :
    Except Thrown Parameters :=
  match positiveInteger (options.dataRetentionDays.getD env.DATA_RETENTION_DAYS) with
  | none => .error (typeError "dataRetentionDays" "a positive integer")
  | some dataRetentionDays =>
    match nonNegativeInteger (options.auditRetentionDays.getD env.AUDIT_RETENTION_DAYS) with
    | none => .error (typeError "auditRetentionDays" "a non-negative integer")
    | some auditRetentionDays =>
      match positiveInteger (options.batchSize.getD env.RETENTION_BATCH_SIZE) with
      | none => .error (typeError "batchSize" "a positive integer")
      | some batchSize =>
        match options.now.getD (some clock) with
        | none => .error (typeError "now" "a valid date")
        | some now => .ok ⟨dataRetentionDays, auditRetentionDays, batchSize, now⟩

/-- `new Date(ms)`. -/
def newDate (ms : ℤ) : Option ℤ := if ValidDate ms then some ms else none

def Parameters.dataCutoff (p : Parameters) : ℤ := p.now - p.dataRetentionDays * dayMs

def Parameters.auditCutoff (p : Parameters) : Option ℤ :=
  if p.auditRetentionDays = 0 then none else some (p.now - p.auditRetentionDays * dayMs)

/-- The start of a month in UTC; the month of an invalid date is none. -/
def bandwidthCutoff (dataCutoff : Option ℤ) : Option ℤ :=
  dataCutoff.bind fun ms => newDate (startOfUtcMonth ms)

structure RetentionCounts where
  auditEvents : ℕ
  idempotencyRecords : ℕ
  invitations : ℕ
  otpChallenges : ℕ
  outboxEvents : ℕ
  sessions : ℕ
  stripeWebhookEvents : ℕ
  uploads : ℕ
  uploadBandwidthRows : ℕ
deriving DecidableEq

structure RetentionCleanupResult where
  auditDeletionEnabled : Bool
  dataCutoff : Option ℤ
  auditCutoff : Option (Option ℤ)
  deleted : RetentionCounts
deriving DecidableEq

/-- `auditCutoff ? await deleteInBatches(…) : 0`. -/
def deleteAuditEvents (client : Client) (p : Parameters) : CleanupTask Database ℕ :=
  match p.auditCutoff with
  | some ms => deleteOld client p.batchSize auditEvent (newDate ms) auditEventWhere (·.createdAt)
  | none => pure 0

def cleanup (client : Client) (p : Parameters) : CleanupTask Database RetentionCleanupResult := do
  let dataCutoff := newDate p.dataCutoff
  let idempotencyRecords ← deleteOld client p.batchSize idempotencyRecord (some p.now)
    idempotencyRecordWhere (·.expiresAt)
  let invitations ← deleteOld client p.batchSize invitation dataCutoff invitationWhere (·.id)
  let uploadBandwidthRows ← deleteOld client p.batchSize uploadBandwidthUsage
    (bandwidthCutoff dataCutoff) uploadBandwidthUsageWhere (·.periodStart)
  let otpChallenges ← deleteOld client p.batchSize otpChallenge dataCutoff otpChallengeWhere
    (·.expiresAt)
  let sessions ← deleteOld client p.batchSize session dataCutoff sessionWhere (·.id)
  let outboxEvents ← deleteOld client p.batchSize outboxEvent dataCutoff outboxEventWhere (·.id)
  let stripeWebhookEvents ← deleteOld client p.batchSize stripeWebhookEvent dataCutoff
    stripeWebhookEventWhere (·.createdAt)
  let uploads ← deleteOld client p.batchSize upload dataCutoff uploadWhere (·.id)
  let auditEvents ← deleteAuditEvents client p
  return {
    auditDeletionEnabled := p.auditCutoff.isSome
    dataCutoff := dataCutoff
    auditCutoff := p.auditCutoff.map newDate
    deleted := {
      auditEvents, idempotencyRecords, invitations, otpChallenges, outboxEvents, sessions
      stripeWebhookEvents, uploads, uploadBandwidthRows } }

/-- **The retention cleanup.** -/
def runRetentionCleanup (client : Client) (env : RetentionEnv) (clock : ℤ)
    (options : RetentionCleanupOptions) : CleanupTask Database RetentionCleanupResult := do
  let p ← ofExcept (parameters env clock options)
  cleanup client p

/-! ### The policy -/

/-- The first instant of the month of a date: as many days before its day as have passed. -/
def startOfMonth (ms : ℤ) : ℤ :=
  (ms / dayMs - ((civilFromDays (ms / dayMs)).day - 1)) * dayMs

section Named

variable (p : Parameters)

def IdempotencyRecord.Named (row : IdempotencyRecord) : Prop :=
  row.expiresAt < p.now ∧ row.statusCode ≠ none ∧ notAnyNull row.response = true

def Invitation.Named (row : Invitation) : Prop :=
  row.expiresAt < p.dataCutoff ∨ (∃ ms ∈ row.acceptedAt, ms < p.dataCutoff) ∨
    ∃ ms ∈ row.revokedAt, ms < p.dataCutoff

/-- Of a month before that of the cutoff. -/
def UploadBandwidthUsage.Named (row : UploadBandwidthUsage) : Prop :=
  row.periodStart < startOfMonth p.dataCutoff

def OtpChallenge.Named (row : OtpChallenge) : Prop := row.expiresAt < p.dataCutoff

def Session.Named (row : Session) : Prop :=
  row.expiresAt < p.dataCutoff ∨ ∃ ms ∈ row.revokedAt, ms < p.dataCutoff

def OutboxEvent.Named (row : OutboxEvent) : Prop :=
  (row.status = .delivered ∨ row.status = .deadLetter) ∧ row.updatedAt < p.dataCutoff

def StripeWebhookEvent.Named (row : StripeWebhookEvent) : Prop :=
  row.status = .processed ∧ row.createdAt < p.dataCutoff

def Upload.Named (row : Upload) : Prop :=
  (row.status = .failed ∨ row.status = .deleted) ∧ row.updatedAt < p.dataCutoff

/-- None, if audit events are retained indefinitely. -/
def AuditEvent.Named (row : AuditEvent) : Prop := ∃ ms ∈ p.auditCutoff, row.createdAt < ms

instance : DecidablePred (IdempotencyRecord.Named p) := fun _ => inferInstanceAs (Decidable (_ ∧ _))

instance : DecidablePred (Invitation.Named p) := fun _ => inferInstanceAs (Decidable (_ ∨ _))

instance : DecidablePred (UploadBandwidthUsage.Named p) := fun _ => Int.decLt _ _

instance : DecidablePred (OtpChallenge.Named p) := fun _ => Int.decLt _ _

instance : DecidablePred (Session.Named p) := fun _ => inferInstanceAs (Decidable (_ ∨ _))

instance : DecidablePred (OutboxEvent.Named p) := fun _ => inferInstanceAs (Decidable (_ ∧ _))

instance : DecidablePred (StripeWebhookEvent.Named p) := fun _ => inferInstanceAs (Decidable (_ ∧ _))

instance : DecidablePred (Upload.Named p) := fun _ => inferInstanceAs (Decidable (_ ∧ _))

instance : DecidablePred (AuditEvent.Named p) := fun _ => inferInstanceAs (Decidable (∃ _ ∈ _, _))

/-- **The database without the rows that the policy names.** -/
def afterPolicy (db : Database) : Database where
  idempotencyRecords := db.idempotencyRecords.filter (¬ ·.Named p)
  invitations := db.invitations.filter (¬ ·.Named p)
  uploadBandwidthUsage := db.uploadBandwidthUsage.filter (¬ ·.Named p)
  otpChallenges := db.otpChallenges.filter (¬ ·.Named p)
  sessions := db.sessions.filter (¬ ·.Named p)
  outboxEvents := db.outboxEvents.filter (¬ ·.Named p)
  stripeWebhookEvents := db.stripeWebhookEvents.filter (¬ ·.Named p)
  uploads := db.uploads.filter (¬ ·.Named p)
  auditEvents := db.auditEvents.filter (¬ ·.Named p)

/-- No row that the policy names has been deleted softly. -/
structure Visible (db : Database) : Prop where
  idempotencyRecords : ∀ row ∈ db.idempotencyRecords, row.Named p → row.deletedAt = none
  invitations : ∀ row ∈ db.invitations, row.Named p → row.deletedAt = none
  otpChallenges : ∀ row ∈ db.otpChallenges, row.Named p → row.deletedAt = none
  sessions : ∀ row ∈ db.sessions, row.Named p → row.deletedAt = none
  outboxEvents : ∀ row ∈ db.outboxEvents, row.Named p → row.deletedAt = none
  stripeWebhookEvents : ∀ row ∈ db.stripeWebhookEvents, row.Named p → row.deletedAt = none
  uploads : ∀ row ∈ db.uploads, row.Named p → row.deletedAt = none
  auditEvents : ∀ row ∈ db.auditEvents, row.Named p → row.deletedAt = none

end Named

/-! ### What one table loses -/

variable {client : Client} {p : Parameters} {delegate : Delegate R} {cutoff : Option ℤ}
  {cond : ℤ → R → Bool} {orderBy : R → ℤ} {batchSize k : ℕ} {c d : Cleanup Database} {ms : ℤ}
  {dates : DateSupport} {db : Database}

theorem deleteOld_ok (h : deleteOld client batchSize delegate cutoff cond orderBy c = .ok k d) :
    ∃ ms, client.dates.take cutoff = .ok ms ∧ d.data = delegate.put c.data
      ((delegate.rows c.data).filter fun row => !delegate.activeWhere (cond ms) row) := by
  obtain ⟨t, ht, rfl⟩ := on_eq_ok.mp h
  obtain ⟨active, hactive, hdata, -⟩ := deleteRows_ok ht
  cases hcutoff : client.dates.take cutoff with
  | error e =>
    rw [hcutoff] at hactive
    cases hactive
  | ok ms =>
    rw [hcutoff] at hactive
    cases hactive
    exact ⟨ms, rfl, congrArg (delegate.put c.data) hdata⟩

theorem deleteOld_returns (hsignal : ∀ n, client.signal n = none) (hbatch : 0 < batchSize)
    (hcutoff : client.dates.take cutoff = .ok ms)
    (hfuel : (delegate.rows c.data).length < client.fuel) :
    Returns (deleteOld client batchSize delegate cutoff cond orderBy) c := by
  refine Returns.on ?_
  rw [hcutoff]
  exact deleteRows_returns hsignal hbatch hfuel

theorem deleteOld_keeps {J : Database → Prop}
    (hput : ∀ db rows, J db → (∀ row ∈ delegate.rows db, (∀ ms, client.dates.take cutoff = .ok ms →
      cond ms row = false) → row ∈ rows) → J (delegate.put db rows)) :
    Keeps (deleteOld client batchSize delegate cutoff cond orderBy) (J ·.data) := by
  refine keeps_on fun c hc => hput _ _ hc fun row hrow hcond => ?_
  refine deleteRows_keeps (fun active hactive => ?_) ⟨delegate.rows c.data, c.checks⟩ hrow
  cases hcutoff : client.dates.take cutoff with
  | error e =>
    rw [hcutoff] at hactive
    cases hactive
  | ok ms =>
    rw [hcutoff] at hactive
    cases hactive
    show (cond ms row && _) = false
    rw [hcond ms hcutoff, Bool.false_and]

/-! ### Dates -/

/-- The client and the database take the date. -/
def DateSupport.Takes (dates : DateSupport) (ms : ℤ) : Prop :=
  ValidDate ms ∧ dates.error ms = none

theorem take_some {ms' : ℤ} :
    dates.take (some ms) = .ok ms' ↔ dates.error ms = none ∧ ms = ms' := by
  unfold DateSupport.take
  cases h : dates.error ms <;> simp [h]

theorem take_newDate {ms' : ℤ} :
    dates.take (newDate ms) = .ok ms' ↔ dates.Takes ms ∧ ms = ms' := by
  unfold newDate DateSupport.Takes
  split_ifs with h
  · rw [take_some]
    simp [h]
  · simp [h, DateSupport.take]

theorem take_bandwidthCutoff {ms' : ℤ} :
    dates.take (bandwidthCutoff (newDate ms)) = .ok ms' ↔
      ValidDate ms ∧ dates.Takes (startOfUtcMonth ms) ∧ startOfUtcMonth ms = ms' := by
  unfold bandwidthCutoff
  by_cases h : ValidDate ms
  · have hdate : newDate ms = some ms := if_pos h
    rw [hdate, Option.bind_some, take_newDate]
    simp [h]
  · have hdate : newDate ms = none := if_neg h
    rw [hdate]
    simp [h, DateSupport.take]

def yearOf (ms : ℤ) : ℤ := (civilFromDays (ms / dayMs)).year

theorem startOfUtcMonth_eq (h : ¬ (0 ≤ yearOf ms ∧ yearOf ms ≤ 99)) :
    startOfUtcMonth ms = startOfMonth ms := by
  unfold yearOf dayMs at h
  unfold startOfUtcMonth startOfMonth dateUTC dayMs
  dsimp only
  rw [if_neg h, daysFromCivil_first]

theorem startOfMonth_le (ms : ℤ) : startOfMonth ms ≤ startOfUtcMonth ms := by
  by_cases h : 0 ≤ yearOf ms ∧ yearOf ms ≤ 99
  · unfold yearOf dayMs at h
    unfold startOfUtcMonth startOfMonth dateUTC dayMs
    dsimp only
    rw [if_pos h, ← daysFromCivil_first]
    have hcentury := @daysFromCivil_century _ (civilFromDays (ms / 86400000)).month h
    omega
  · exact (startOfUtcMonth_eq h).ge

/-! ### What a cleanup has done when it returns -/

/-- The client and the database take every date of the cleanup. -/
structure Usable (dates : DateSupport) (p : Parameters) : Prop where
  now : dates.error p.now = none
  data : dates.Takes p.dataCutoff
  bandwidth : dates.Takes (startOfUtcMonth p.dataCutoff)
  audit : ∀ ms ∈ p.auditCutoff, dates.Takes ms

/-- The rows of a model that do not meet a condition or have been deleted softly. -/
def Delegate.left (delegate : Delegate R) (cond : R → Bool) (db : Database) : List R :=
  (delegate.rows db).filter fun row => !delegate.activeWhere cond row

def cleaned (p : Parameters) (db : Database) : Database where
  idempotencyRecords := idempotencyRecord.left (idempotencyRecordWhere p.now) db
  invitations := invitation.left (invitationWhere p.dataCutoff) db
  uploadBandwidthUsage :=
    uploadBandwidthUsage.left (uploadBandwidthUsageWhere (startOfUtcMonth p.dataCutoff)) db
  otpChallenges := otpChallenge.left (otpChallengeWhere p.dataCutoff) db
  sessions := session.left (sessionWhere p.dataCutoff) db
  outboxEvents := outboxEvent.left (outboxEventWhere p.dataCutoff) db
  stripeWebhookEvents := stripeWebhookEvent.left (stripeWebhookEventWhere p.dataCutoff) db
  uploads := upload.left (uploadWhere p.dataCutoff) db
  auditEvents :=
    match p.auditCutoff with
    | some ms => auditEvent.left (auditEventWhere ms) db
    | none => db.auditEvents

theorem cleanup_ok {r : RetentionCleanupResult} (h : cleanup client p c = .ok r d) :
    Usable client.dates p ∧ d.data = cleaned p c.data := by
  unfold cleanup at h
  obtain ⟨_, c₁, h₁, h⟩ := bind_eq_ok.mp h
  obtain ⟨_, c₂, h₂, h⟩ := bind_eq_ok.mp h
  obtain ⟨_, c₃, h₃, h⟩ := bind_eq_ok.mp h
  obtain ⟨_, c₄, h₄, h⟩ := bind_eq_ok.mp h
  obtain ⟨_, c₅, h₅, h⟩ := bind_eq_ok.mp h
  obtain ⟨_, c₆, h₆, h⟩ := bind_eq_ok.mp h
  obtain ⟨_, c₇, h₇, h⟩ := bind_eq_ok.mp h
  obtain ⟨_, c₈, h₈, h⟩ := bind_eq_ok.mp h
  obtain ⟨_, c₉, h₉, h⟩ := bind_eq_ok.mp h
  obtain ⟨-, rfl⟩ := pure_eq_ok.mp h
  obtain ⟨_, ht₁, hd₁⟩ := deleteOld_ok h₁
  obtain ⟨_, ht₂, hd₂⟩ := deleteOld_ok h₂
  obtain ⟨_, ht₃, hd₃⟩ := deleteOld_ok h₃
  obtain ⟨_, ht₄, hd₄⟩ := deleteOld_ok h₄
  obtain ⟨_, ht₅, hd₅⟩ := deleteOld_ok h₅
  obtain ⟨_, ht₆, hd₆⟩ := deleteOld_ok h₆
  obtain ⟨_, ht₇, hd₇⟩ := deleteOld_ok h₇
  obtain ⟨_, ht₈, hd₈⟩ := deleteOld_ok h₈
  obtain ⟨hnow, rfl⟩ := take_some.mp ht₁
  obtain ⟨hdata, rfl⟩ := take_newDate.mp ht₂
  obtain ⟨-, hbandwidth, rfl⟩ := take_bandwidthCutoff.mp ht₃
  obtain ⟨-, rfl⟩ := take_newDate.mp ht₄
  obtain ⟨-, rfl⟩ := take_newDate.mp ht₅
  obtain ⟨-, rfl⟩ := take_newDate.mp ht₆
  obtain ⟨-, rfl⟩ := take_newDate.mp ht₇
  obtain ⟨-, rfl⟩ := take_newDate.mp ht₈
  rw [hd₇, hd₆, hd₅, hd₄, hd₃, hd₂, hd₁] at hd₈
  cases haudit : p.auditCutoff with
  | none =>
    rw [deleteAuditEvents, haudit] at h₉
    obtain ⟨-, rfl⟩ := pure_eq_ok.mp h₉
    refine ⟨⟨hnow, hdata, hbandwidth, by simp [haudit]⟩, ?_⟩
    rw [hd₈, cleaned, haudit]
    rfl
  | some ms =>
    rw [deleteAuditEvents, haudit] at h₉
    obtain ⟨_, ht₉, hd₉⟩ := deleteOld_ok h₉
    obtain ⟨htakes, rfl⟩ := take_newDate.mp ht₉
    refine ⟨⟨hnow, hdata, hbandwidth, by simpa [haudit] using htakes⟩, ?_⟩
    rw [hd₉, hd₈, cleaned, haudit]
    rfl

/-! ### A cleanup returns -/

/-- The fuel suffices for every table. -/
structure Fueled (fuel : ℕ) (db : Database) : Prop where
  idempotencyRecords : db.idempotencyRecords.length < fuel
  invitations : db.invitations.length < fuel
  uploadBandwidthUsage : db.uploadBandwidthUsage.length < fuel
  otpChallenges : db.otpChallenges.length < fuel
  sessions : db.sessions.length < fuel
  outboxEvents : db.outboxEvents.length < fuel
  stripeWebhookEvents : db.stripeWebhookEvents.length < fuel
  uploads : db.uploads.length < fuel
  auditEvents : db.auditEvents.length < fuel

theorem Returns.deleteOld {α : Type} {f : ℕ → CleanupTask Database α}
    (hsignal : ∀ n, client.signal n = none) (hbatch : 0 < batchSize)
    (hcutoff : client.dates.take cutoff = .ok ms) (hfueled : Fueled client.fuel c.data)
    (hrows : ∀ db, Fueled client.fuel db → (delegate.rows db).length < client.fuel)
    (hput : ∀ db rows, Fueled client.fuel db → rows.length < client.fuel →
      Fueled client.fuel (delegate.put db rows))
    (hf : ∀ k d, Fueled client.fuel d.data → Returns (f k) d) :
    Returns (deleteOld client batchSize delegate cutoff cond orderBy >>= f) c := by
  refine (deleteOld_returns hsignal hbatch hcutoff (hrows _ hfueled)).bind fun k d hd => hf k d ?_
  obtain ⟨_, -, hdata⟩ := deleteOld_ok hd
  rw [hdata]
  exact hput _ _ hfueled (Nat.lt_of_le_of_lt (List.length_filter_le _ _) (hrows _ hfueled))

theorem cleanup_returns (hsignal : ∀ n, client.signal n = none) (husable : Usable client.dates p)
    (hfueled : Fueled client.fuel c.data) : Returns (cleanup client p) c := by
  have hbatch : 0 < (p.batchSize : ℕ) := p.batchSize.pos
  have hdata : client.dates.take (newDate p.dataCutoff) = .ok p.dataCutoff :=
    take_newDate.mpr ⟨husable.data, rfl⟩
  unfold cleanup
  refine Returns.deleteOld hsignal hbatch (take_some.mpr ⟨husable.now, rfl⟩) hfueled
    (fun _ h => h.idempotencyRecords) (fun _ _ h hle => { h with idempotencyRecords := hle })
    fun _ c₁ h₁ => ?_
  refine Returns.deleteOld hsignal hbatch hdata h₁ (fun _ h => h.invitations)
    (fun _ _ h hle => { h with invitations := hle }) fun _ c₂ h₂ => ?_
  refine Returns.deleteOld hsignal hbatch
    (take_bandwidthCutoff.mpr ⟨husable.data.1, husable.bandwidth, rfl⟩) h₂
    (fun _ h => h.uploadBandwidthUsage) (fun _ _ h hle => { h with uploadBandwidthUsage := hle })
    fun _ c₃ h₃ => ?_
  refine Returns.deleteOld hsignal hbatch hdata h₃ (fun _ h => h.otpChallenges)
    (fun _ _ h hle => { h with otpChallenges := hle }) fun _ c₄ h₄ => ?_
  refine Returns.deleteOld hsignal hbatch hdata h₄ (fun _ h => h.sessions)
    (fun _ _ h hle => { h with sessions := hle }) fun _ c₅ h₅ => ?_
  refine Returns.deleteOld hsignal hbatch hdata h₅ (fun _ h => h.outboxEvents)
    (fun _ _ h hle => { h with outboxEvents := hle }) fun _ c₆ h₆ => ?_
  refine Returns.deleteOld hsignal hbatch hdata h₆ (fun _ h => h.stripeWebhookEvents)
    (fun _ _ h hle => { h with stripeWebhookEvents := hle }) fun _ c₇ h₇ => ?_
  refine Returns.deleteOld hsignal hbatch hdata h₇ (fun _ h => h.uploads)
    (fun _ _ h hle => { h with uploads := hle }) fun _ c₈ h₈ => ?_
  refine Returns.bind ?_ fun _ _ _ => ⟨_, _, rfl⟩
  unfold deleteAuditEvents
  cases haudit : p.auditCutoff with
  | none => exact ⟨_, _, rfl⟩
  | some ms =>
    exact deleteOld_returns hsignal hbatch (take_newDate.mpr ⟨husable.audit ms haudit, rfl⟩)
      h₈.auditEvents

/-! ### What is never deleted -/

/-- Pending outbox work, unprocessed webhooks, active sessions and unfinished idempotency records are
there as before. -/
structure Protects (now : ℤ) (db db' : Database) : Prop where
  outboxEvents : ∀ row ∈ db.outboxEvents, row.status ∉ outboxTerminalStatuses →
    row ∈ db'.outboxEvents
  stripeWebhookEvents : ∀ row ∈ db.stripeWebhookEvents, row.status ≠ .processed →
    row ∈ db'.stripeWebhookEvents
  sessions : ∀ row ∈ db.sessions, now ≤ row.expiresAt → row.revokedAt = none →
    row ∈ db'.sessions
  idempotencyRecords : ∀ row ∈ db.idempotencyRecords,
    row.statusCode = none ∨ notAnyNull row.response = false → row ∈ db'.idempotencyRecords

theorem deleteOld_protects {now : ℤ} {db : Database}
    (hput : ∀ db' rows, Protects now db db' → (∀ row ∈ delegate.rows db', (∀ ms,
      client.dates.take cutoff = .ok ms → cond ms row = false) → row ∈ rows) →
        Protects now db (delegate.put db' rows)) :
    Keeps (deleteOld client batchSize delegate cutoff cond orderBy) (Protects now db ·.data) :=
  deleteOld_keeps hput

theorem cleanup_protects (db : Database) :
    Keeps (cleanup client p) (Protects p.now db ·.data) := by
  have hcutoff : p.dataCutoff < p.now := by
    have hdays : (0 : ℤ) < (p.dataRetentionDays : ℕ) := by exact_mod_cast p.dataRetentionDays.pos
    show p.now - (p.dataRetentionDays : ℕ) * 86400000 < p.now
    omega
  unfold cleanup
  refine (deleteOld_protects fun db' rows h hrows => ?_).bind fun _ => ?_
  · refine { h with
      idempotencyRecords := fun row hrow hopen => hrows row
        (h.idempotencyRecords row hrow hopen) fun ms _ => ?_ }
    rcases hopen with hstatus | hresponse
    · simp [idempotencyRecordWhere, hstatus]
    · simp [idempotencyRecordWhere, hresponse]
  refine (deleteOld_protects fun _ _ h _ => { h with }).bind fun _ => ?_
  refine (deleteOld_protects fun _ _ h _ => { h with }).bind fun _ => ?_
  refine (deleteOld_protects fun _ _ h _ => { h with }).bind fun _ => ?_
  refine (deleteOld_protects fun db' rows h hrows => ?_).bind fun _ => ?_
  · refine { h with
      sessions := fun row hrow hexpires hrevoked => hrows row
        (h.sessions row hrow hexpires hrevoked) fun ms hms => ?_ }
    obtain ⟨-, rfl⟩ := take_newDate.mp hms
    have hlive : ¬ row.expiresAt < p.dataCutoff := by omega
    simp [sessionWhere, lt, hlive, hrevoked]
  refine (deleteOld_protects fun db' rows h hrows => ?_).bind fun _ => ?_
  · refine { h with
      outboxEvents := fun row hrow hpending => hrows row
        (h.outboxEvents row hrow hpending) fun ms _ => ?_ }
    simp [outboxEventWhere, hpending]
  refine (deleteOld_protects fun db' rows h hrows => ?_).bind fun _ => ?_
  · refine { h with
      stripeWebhookEvents := fun row hrow hstatus => hrows row
        (h.stripeWebhookEvents row hrow hstatus) fun ms _ => ?_ }
    simp [stripeWebhookEventWhere, hstatus]
  refine (deleteOld_protects fun _ _ h _ => { h with }).bind fun _ => ?_
  refine Keeps.bind ?_ fun _ => keeps_pure
  unfold deleteAuditEvents
  split
  · exact deleteOld_protects fun _ _ h _ => { h with }
  · exact keeps_pure

/-! ### The policy and the conditions -/

theorem filter_eq_filter {rows : List R} {f g : R → Bool} :
    rows.filter f = rows.filter g ↔ ∀ row ∈ rows, f row = g row := by
  refine ⟨fun h row hrow => ?_, List.filter_congr⟩
  have hmem : row ∈ rows.filter f ↔ row ∈ rows.filter g := by rw [h]
  rw [List.mem_filter, List.mem_filter] at hmem
  exact Bool.eq_iff_iff.mpr ⟨fun hf => (hmem.mp ⟨hrow, hf⟩).2, fun hg => (hmem.mpr ⟨hrow, hg⟩).2⟩

/-- A model with the column loses what the policy names if none of it has been deleted softly. -/
theorem left_eq_iff {deletedAt : R → Option ℤ} (hmodel : delegate.deletedAt = some deletedAt)
    {cond : R → Bool} {named : R → Prop} [DecidablePred named]
    (hnamed : ∀ row, cond row = true ↔ named row) :
    delegate.left cond db = (delegate.rows db).filter (fun row => ¬ named row) ↔
      ∀ row ∈ delegate.rows db, named row → deletedAt row = none := by
  unfold Delegate.left
  rw [filter_eq_filter]
  refine forall₂_congr fun row _ => ?_
  unfold Delegate.activeWhere
  rw [hmodel, Option.all_some]
  by_cases h : named row
  · simp [(hnamed row).mpr h, h]
  · have hcond : cond row = false := Bool.eq_false_iff.mpr fun hc => h ((hnamed row).mp hc)
    simp [hcond, h]

theorem idempotencyRecordWhere_iff (row : IdempotencyRecord) :
    idempotencyRecordWhere p.now row = true ↔ row.Named p := by
  simp [idempotencyRecordWhere, IdempotencyRecord.Named, Option.isSome_iff_ne_none, and_assoc]

theorem lt_iff {column : Option ℤ} : lt column ms = true ↔ ∃ time ∈ column, time < ms := by
  simp [lt, Option.any_eq_true]

theorem invitationWhere_iff (row : Invitation) :
    invitationWhere p.dataCutoff row = true ↔ row.Named p := by
  simp [invitationWhere, Invitation.Named, lt_iff, or_assoc]

theorem otpChallengeWhere_iff (row : OtpChallenge) :
    otpChallengeWhere p.dataCutoff row = true ↔ row.Named p := by
  simp [otpChallengeWhere, OtpChallenge.Named]

theorem sessionWhere_iff (row : Session) :
    sessionWhere p.dataCutoff row = true ↔ row.Named p := by
  simp [sessionWhere, Session.Named, lt_iff]

theorem outboxEventWhere_iff (row : OutboxEvent) :
    outboxEventWhere p.dataCutoff row = true ↔ row.Named p := by
  simp [outboxEventWhere, OutboxEvent.Named, outboxTerminalStatuses]

theorem stripeWebhookEventWhere_iff (row : StripeWebhookEvent) :
    stripeWebhookEventWhere p.dataCutoff row = true ↔ row.Named p := by
  simp [stripeWebhookEventWhere, StripeWebhookEvent.Named]

theorem uploadWhere_iff (row : Upload) : uploadWhere p.dataCutoff row = true ↔ row.Named p := by
  simp [uploadWhere, Upload.Named]

theorem auditEventWhere_iff (hms : p.auditCutoff = some ms) (row : AuditEvent) :
    auditEventWhere ms row = true ↔ row.Named p := by
  simp [auditEventWhere, AuditEvent.Named, hms]

/-- A year of the cutoff that `Date.UTC` misreads does no harm if there are no rows between the two
months. -/
def NoneBetween (p : Parameters) (db : Database) : Prop :=
  0 ≤ yearOf p.dataCutoff ∧ yearOf p.dataCutoff ≤ 99 → ∀ row ∈ db.uploadBandwidthUsage,
    startOfMonth p.dataCutoff ≤ row.periodStart → startOfUtcMonth p.dataCutoff ≤ row.periodStart

theorem bandwidth_left_eq_iff :
    uploadBandwidthUsage.left (uploadBandwidthUsageWhere (startOfUtcMonth p.dataCutoff)) db =
      db.uploadBandwidthUsage.filter (fun row => ¬ row.Named p) ↔ NoneBetween p db := by
  have hle := startOfMonth_le p.dataCutoff
  have hrow (row : UploadBandwidthUsage) :
      ((!uploadBandwidthUsage.activeWhere
        (uploadBandwidthUsageWhere (startOfUtcMonth p.dataCutoff)) row) =
          decide (¬ row.Named p)) ↔ (startOfMonth p.dataCutoff ≤ row.periodStart →
            startOfUtcMonth p.dataCutoff ≤ row.periodStart) := by
    simp only [Delegate.activeWhere, uploadBandwidthUsage, uploadBandwidthUsageWhere,
      UploadBandwidthUsage.Named, Option.all_none, Bool.and_true]
    by_cases h : row.periodStart < startOfUtcMonth p.dataCutoff <;>
      by_cases h' : row.periodStart < startOfMonth p.dataCutoff <;> simp [h, h'] <;> omega
  show (db.uploadBandwidthUsage.filter _ = db.uploadBandwidthUsage.filter _) ↔ _
  rw [filter_eq_filter, forall₂_congr fun row _ => hrow row]
  by_cases hyear : 0 ≤ yearOf p.dataCutoff ∧ yearOf p.dataCutoff ≤ 99
  · exact ⟨fun h _ => h, fun h => h hyear⟩
  · refine ⟨fun _ hyear' => absurd hyear' hyear, fun _ row _ h => ?_⟩
    rw [startOfUtcMonth_eq hyear]
    exact h

theorem auditEvents_left_iff :
    (match p.auditCutoff with
      | some ms => auditEvent.left (auditEventWhere ms) db
      | none => db.auditEvents) = db.auditEvents.filter (¬ ·.Named p) ↔
      ∀ row ∈ db.auditEvents, row.Named p → row.deletedAt = none := by
  cases haudit : p.auditCutoff with
  | some ms =>
    have hmodel : auditEvent.deletedAt = some AuditEvent.deletedAt := rfl
    exact left_eq_iff hmodel (auditEventWhere_iff haudit)
  | none =>
    have hnone (row : AuditEvent) : ¬ row.Named p := by simp [AuditEvent.Named, haudit]
    simp [hnone]

theorem cleaned_eq_iff : cleaned p db = afterPolicy p db ↔ Visible p db ∧ NoneBetween p db := by
  have hidempotency : idempotencyRecord.left (idempotencyRecordWhere p.now) db =
      db.idempotencyRecords.filter (¬ ·.Named p) ↔ _ := left_eq_iff rfl idempotencyRecordWhere_iff
  have hinvitations : invitation.left (invitationWhere p.dataCutoff) db =
      db.invitations.filter (¬ ·.Named p) ↔ _ := left_eq_iff rfl invitationWhere_iff
  have hotp : otpChallenge.left (otpChallengeWhere p.dataCutoff) db =
      db.otpChallenges.filter (¬ ·.Named p) ↔ _ := left_eq_iff rfl otpChallengeWhere_iff
  have hsessions : session.left (sessionWhere p.dataCutoff) db =
      db.sessions.filter (¬ ·.Named p) ↔ _ := left_eq_iff rfl sessionWhere_iff
  have houtbox : outboxEvent.left (outboxEventWhere p.dataCutoff) db =
      db.outboxEvents.filter (¬ ·.Named p) ↔ _ := left_eq_iff rfl outboxEventWhere_iff
  have hstripe : stripeWebhookEvent.left (stripeWebhookEventWhere p.dataCutoff) db =
      db.stripeWebhookEvents.filter (¬ ·.Named p) ↔ _ := left_eq_iff rfl stripeWebhookEventWhere_iff
  have huploads : upload.left (uploadWhere p.dataCutoff) db =
      db.uploads.filter (¬ ·.Named p) ↔ _ := left_eq_iff rfl uploadWhere_iff
  unfold cleaned afterPolicy
  rw [Database.mk.injEq, hidempotency, hinvitations, bandwidth_left_eq_iff, hotp, hsessions,
    houtbox, hstripe, huploads, auditEvents_left_iff]
  constructor
  · rintro ⟨h₁, h₂, h₃, h₄, h₅, h₆, h₇, h₈, h₉⟩
    exact ⟨⟨h₁, h₂, h₄, h₅, h₆, h₇, h₈, h₉⟩, h₃⟩
  · rintro ⟨⟨h₁, h₂, h₄, h₅, h₆, h₇, h₈, h₉⟩, h₃⟩
    exact ⟨h₁, h₂, h₃, h₄, h₅, h₆, h₇, h₈, h₉⟩

/-! ### The claim -/

variable {env : RetentionEnv} {clock : ℤ} {options : RetentionCleanupOptions} {signal : AbortSignal}

/-- The cleanup returns and leaves the database without exactly the rows that the policy names. -/
def Exact (dates : DateSupport) (signal : AbortSignal) (env : RetentionEnv) (clock : ℤ)
    (options : RetentionCleanupOptions) (p : Parameters) (db : Database) : Prop :=
  ∃ n, ∀ fuel ≥ n, ∃ result checks, runRetentionCleanup ⟨dates, signal, fuel⟩ env clock options
    ⟨db, 0⟩ = .ok result ⟨afterPolicy p db, checks⟩

theorem run_eq_cleanup (hp : parameters env clock options = .ok p) :
    runRetentionCleanup client env clock options = cleanup client p := by
  unfold runRetentionCleanup
  rw [hp]
  rfl

theorem exists_fueled (db : Database) : ∃ n, ∀ fuel ≥ n, Fueled fuel db := by
  refine ⟨db.idempotencyRecords.length + db.invitations.length + db.uploadBandwidthUsage.length +
    db.otpChallenges.length + db.sessions.length + db.outboxEvents.length +
    db.stripeWebhookEvents.length + db.uploads.length + db.auditEvents.length + 1,
    fun fuel hfuel => ?_⟩
  constructor <;> omega

/-- **Retention is exact** if the dates can be sent and no row that the policy names has been deleted
softly; and however it ends, it does not delete what is pending, active or unfinished. -/
theorem retention_exact (hp : parameters env clock options = .ok p)
    (hsignal : ∀ n, signal n = none) :
    (∀ client, Protects p.now db (after (runRetentionCleanup client env clock options) ⟨db, 0⟩).data) ∧
      (Exact dates signal env clock options p db ↔
        Usable dates p ∧ Visible p db ∧ NoneBetween p db) := by
  refine ⟨fun client => ?_, ⟨?_, ?_⟩⟩
  · rw [run_eq_cleanup hp]
    exact cleanup_protects db ⟨db, 0⟩ ⟨fun _ h _ => h, fun _ h _ => h, fun _ h _ _ => h, fun _ h _ => h⟩
  · rintro ⟨n, hrun⟩
    obtain ⟨result, checks, hresult⟩ := hrun n le_rfl
    rw [run_eq_cleanup hp] at hresult
    obtain ⟨husable, hdata⟩ := cleanup_ok hresult
    exact ⟨husable, cleaned_eq_iff.mp hdata.symm⟩
  · rintro ⟨husable, hcleaned⟩
    obtain ⟨n, hn⟩ := exists_fueled db
    refine ⟨n, fun fuel hfuel => ?_⟩
    rw [run_eq_cleanup hp]
    obtain ⟨result, d, hd⟩ := @cleanup_returns ⟨dates, signal, fuel⟩ _ ⟨db, 0⟩
      hsignal husable (hn fuel hfuel)
    obtain ⟨-, hdata⟩ := cleanup_ok hd
    refine ⟨result, d.checks, ?_⟩
    rw [hd, ← cleaned_eq_iff.mpr hcleaned, ← hdata]

/-- A failed upload and an audit event, both too young and too old. -/
def nightlyDatabase : Database where
  uploads := [⟨1, .failed, 1780000000000, none⟩, ⟨2, .failed, 1785000000000, none⟩]
  auditEvents := [⟨1, 1750000000000, none⟩, ⟨2, 1760000000000, none⟩]

def nightly : Parameters := ⟨30, 365, 500, 1785672000000⟩

theorem retention_exact_nightly : (afterPolicy nightly nightlyDatabase).uploads.length = 1 ∧
    (∀ client, Protects nightly.now nightlyDatabase
      (after (runRetentionCleanup client {} 1785672000000 {}) ⟨nightlyDatabase, 0⟩).data) ∧
      (Exact ⟨.value, fun _ => none⟩ (fun _ => none) {} 1785672000000 {} nightly nightlyDatabase ↔
        Usable ⟨.value, fun _ => none⟩ nightly ∧ Visible nightly nightlyDatabase ∧
          NoneBetween nightly nightlyDatabase) :=
  ⟨by decide, retention_exact rfl fun _ => rfl⟩

/-- An upload that its owner has deleted. -/
def deletedUpload : Database where
  uploads := [⟨1, .deleted, 1780000000000, some 1780000000000⟩]

/-- Two months later the upload stays. -/
theorem deleted_upload_stays : ¬ Exact ⟨.value, fun _ => none⟩ (fun _ => none) {} 1785672000000 {}
    nightly deletedUpload := by
  rintro ⟨n, hrun⟩
  obtain ⟨result, checks, hresult⟩ := hrun n le_rfl
  have hp : parameters {} 1785672000000 {} = .ok nightly := rfl
  rw [run_eq_cleanup hp] at hresult
  have hlength : (afterPolicy nightly deletedUpload).uploads.length =
      (cleaned nightly deletedUpload).uploads.length :=
    congrArg (·.uploads.length) (cleanup_ok hresult).2
  exact absurd hlength (by decide)

end BackendFoundation.Maintenance.Retention
