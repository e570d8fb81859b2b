import BackendFoundation.Audit.Integrity
import BackendFoundation.Chat.DirectKeys
import BackendFoundation.Errors
import BackendFoundation.Lib.Rows

/-! # The tenancy backfill

`scripts/tenancy-backfill.ts`: rows without an owner get an organization, the keys made of the owner
are rewritten, and audit rows are signed again. `updateEach` is an update of rows under a unique
index, which is checked row by row. -/

namespace BackendFoundation.Tenancy.Backfill

open Errors Lib.Json Lib.Rows Lib.UuidText Audit.Integrity Chat.DirectKeys

/-! ### Rows -/

inductive TenancyMode
  | disabled | single | multi
deriving DecidableEq

structure Organization where
  id : Uuid
  slug : String
  name : String
deriving DecidableEq

structure Role where
  id : Uuid
  name : String
  organizationId : Option Uuid
  deleted : Bool := false
deriving DecidableEq

structure User where
  id : Uuid
  deleted : Bool := false
deriving DecidableEq

inductive MembershipStatus
  | invited | active | suspended
deriving DecidableEq

structure Membership where
  organizationId : Uuid
  userId : Uuid
  roleId : Uuid
  status : MembershipStatus := .active
  deleted : Bool := false
deriving DecidableEq

structure Session where
  id : Uuid
  activeOrganizationId : Option Uuid
  deleted : Bool := false
deriving DecidableEq

/-- A row of a tenant-owned table of which the backfill only writes the owner. -/
structure OwnedRow where
  id : Uuid
  organizationId : Option Uuid
deriving DecidableEq

structure BandwidthRow where
  organizationId : Option Uuid
  userId : Uuid
  scopeKey : Text
  periodStart : ℤ
  bytes : ℕ
deriving DecidableEq

structure Conversation where
  id : Uuid
  type : ConversationType
  organizationId : Option Uuid
  directKey : Option Text
deriving DecidableEq

structure Database where
  organizations : List Organization := []
  roles : List Role := []
  users : List User := []
  memberships : List Membership := []
  sessions : List Session := []
  uploads : List OwnedRow := []
  bandwidth : List BandwidthRow := []
  chargeableItems : List OwnedRow := []
  conversations : List Conversation := []
  conversationParticipants : List OwnedRow := []
  messages : List OwnedRow := []
  notificationDeliveries : List OwnedRow := []
  auditEvents : List AuditRecord := []

/-! ### The runtime keys -/

/-- `uploadQuotaScopeKey`, in the context of an organization or of none. -/
def uploadQuotaScopeKey (organizationId : Option Uuid) (userId : Uuid) : Text :=
  match organizationId with
  | some organizationId =>
    "organization:".toList ++ organizationId.text ++ ":user:".toList ++ userId.text
  | none => "user:".toList ++ userId.text

/-! ### The script -/

/-- The arguments of the command line. -/
structure Arguments where
  apply : Bool
  organizationId : Option Text := none
  slug : String := "default"
  name : String := "Default"

def uniqueViolation (fields : String) : Thrown :=
  .prisma "P2002" ("Unique constraint failed on the fields: " ++ fields)

/-- An update of rows, each checked against the unique keys of the others as they are by then. -/
def updateEach {α κ : Type} [DecidableEq κ] (key : α → Option κ) (data : α → α)
    (violation : Thrown) : List α → List α → Except Thrown (List α)
  | done, [] => .ok done
  | done, row :: rest =>
    if (key (data row)).isSome ∧ key (data row) ∈ (done ++ rest).map key then .error violation
    else updateEach key data violation (done ++ [data row]) rest

/-- The organization of the arguments, if there is one. -/
def existingOrganization (args : Arguments) (db : Database) :
    Except Thrown (Option Organization) :=
  match args.organizationId.filter (· ≠ []) with
  | some text =>
    match Uuid.ofText text with
    | some id => .ok (db.organizations.find? (·.id = id))
    | none => .error (.prisma "P2023" "Inconsistent column data")
  | none => .ok (db.organizations.find? (·.slug = args.slug))

/-- The organization of the backfill; `newId` is the id that the database draws. -/
def targetOrganization (args : Arguments) (newId : Uuid) (db : Database) :
    Except Thrown (Organization × Database) :=
  match existingOrganization args db with
  | .error e => .error e
  | .ok (some organization) => .ok (organization, db)
  | .ok none =>
    let organization : Organization :=
      ⟨((args.organizationId.filter (· ≠ [])).bind Uuid.ofText).getD newId, args.slug, args.name⟩
    if db.organizations.any fun other => other.slug = args.slug ∨ other.id = organization.id then
      .error (uniqueViolation "slug")
    else .ok (organization, { db with organizations := db.organizations ++ [organization] })

def memberRole (db : Database) : Option Role :=
  db.roles.find? fun role =>
    role.name = "member" ∧ role.organizationId = none ∧ role.deleted = false

def joinMembers (organizationId roleId : Uuid) (db : Database) : List Membership :=
  let members := (db.users.filter fun user => user.deleted = false).map (·.id)
  let known := (db.memberships.filter fun membership =>
    membership.organizationId = organizationId).map (·.userId)
  updateWhere db.memberships
      (fun membership => membership.organizationId = organizationId ∧ membership.userId ∈ members)
      (fun membership => { membership with status := .active, deleted := false }) ++
    (members.filter (· ∉ known)).map fun userId => ⟨organizationId, userId, roleId, .active, false⟩

def OwnedRow.claim (organizationId : Uuid) (row : OwnedRow) : OwnedRow :=
  { row with organizationId := row.organizationId.or (some organizationId) }

def Session.claim (organizationId : Uuid) (session : Session) : Session :=
  if session.deleted then session
  else
    { session with activeOrganizationId := session.activeOrganizationId.or (some organizationId) }

def BandwidthRow.claim (organizationId : Uuid) (row : BandwidthRow) : BandwidthRow :=
  { row with organizationId := row.organizationId.or (some organizationId) }

def Conversation.claim (organizationId : Uuid) (row : Conversation) : Conversation :=
  { row with organizationId := row.organizationId.or (some organizationId) }

/-- The new `scopeKey` of a row of the organization. -/
def BandwidthRow.rekey (organizationId : Uuid) (row : BandwidthRow) : BandwidthRow :=
  if row.organizationId = some organizationId then
    { row with
      scopeKey := "organization:".toList ++ organizationId.text ++ ":user:".toList ++
        row.userId.text }
  else row

/-- The new `directKey` of a direct conversation of the organization whose key is a global one. -/
def Conversation.rekey (organizationId : Uuid) (row : Conversation) : Conversation :=
  match row.directKey with
  | none => row
  | some key =>
    if row.type = .direct ∧ row.organizationId = some organizationId ∧
        "global:".toList.isPrefixOf key then
      { row with directKey := some (organizationId.text ++ key.drop 6) }
    else row

/-- The unique index of the bandwidth rows. -/
def BandwidthRow.key (row : BandwidthRow) : Option (Text × ℤ) := some (row.scopeKey, row.periodStart)

variable (H : Hmac) (cfg : AuditConfig)

def jsId (id : Uuid) : JsString := utf16 (String.ofList id.text)

/-- A row without an organization gets one and is signed again; the other fields are kept. -/
def resign (organizationId : Uuid) (event : AuditRecord) : AuditRecord :=
  if event.organizationId = none then
    let event : AuditRecord := { event with organizationId := some (jsId organizationId) }
    { event with integrityHash := some (signAuditEvent H cfg event cfg.auditIntegritySecret) }
  else event

def assign (organizationId roleId : Uuid) (db : Database) : Except Thrown Database := do
  let bandwidth ← updateEach BandwidthRow.key (BandwidthRow.rekey organizationId)
    (uniqueViolation "scopeKey,periodStart") [] (db.bandwidth.map (·.claim organizationId))
  let conversations ← updateEach Conversation.directKey (Conversation.rekey organizationId)
    (uniqueViolation "directKey") [] (db.conversations.map (·.claim organizationId))
  return {
    db with
    memberships := joinMembers organizationId roleId db
    sessions := db.sessions.map (·.claim organizationId)
    uploads := db.uploads.map (·.claim organizationId)
    bandwidth := bandwidth
    chargeableItems := db.chargeableItems.map (·.claim organizationId)
    conversations := conversations
    conversationParticipants := db.conversationParticipants.map (·.claim organizationId)
    messages := db.messages.map (·.claim organizationId)
    notificationDeliveries := db.notificationDeliveries.map (·.claim organizationId)
    auditEvents := db.auditEvents.map (resign H cfg organizationId) }

/-- **`main`**; a dry run leaves the database as it is. -/
def backfill (mode : TenancyMode) (args : Arguments) (newId : Uuid) (db : Database) :
    Except Thrown Database :=
  if mode ≠ .disabled then
    .error (.error
      "Run the backfill while TENANCY_MODE=disabled and application writers are stopped")
  else if args.apply = false then (existingOrganization args db).map fun _ => db
  else
    match targetOrganization args newId db with
    | .error e => .error e
    | .ok (organization, db) =>
      match memberRole db with
      | none => .error (.error "Global member role is missing; run npm run db:seed first")
      | some role => assign H cfg organization.id role.id db

/-! ### What a backfill does -/

variable {H cfg}

variable {db db' : Database}

theorem targetOrganization_ok {args : Arguments} {newId : Uuid} {organization : Organization}
    (h : targetOrganization args newId db = .ok (organization, db')) :
    db' = { db with organizations := db'.organizations } := by
  unfold targetOrganization at h
  split at h
  · cases h
  · cases h
    rfl
  · dsimp only at h
    split_ifs at h
    cases h
    rfl

theorem assign_ok {organizationId roleId : Uuid}
    (h : assign H cfg organizationId roleId db = .ok db') : ∃ bandwidth conversations,
      updateEach BandwidthRow.key (BandwidthRow.rekey organizationId)
        (uniqueViolation "scopeKey,periodStart") [] (db.bandwidth.map (·.claim organizationId)) =
          .ok bandwidth ∧
      updateEach Conversation.directKey (Conversation.rekey organizationId)
        (uniqueViolation "directKey") [] (db.conversations.map (·.claim organizationId)) =
          .ok conversations ∧
      db' = {
        db with
        memberships := joinMembers organizationId roleId db
        sessions := db.sessions.map (·.claim organizationId)
        uploads := db.uploads.map (·.claim organizationId)
        bandwidth := bandwidth
        chargeableItems := db.chargeableItems.map (·.claim organizationId)
        conversations := conversations
        conversationParticipants := db.conversationParticipants.map (·.claim organizationId)
        messages := db.messages.map (·.claim organizationId)
        notificationDeliveries := db.notificationDeliveries.map (·.claim organizationId)
        auditEvents := db.auditEvents.map (resign H cfg organizationId) } := by
  unfold assign at h
  rcases hbandwidth : updateEach BandwidthRow.key (BandwidthRow.rekey organizationId)
    (uniqueViolation "scopeKey,periodStart") [] (db.bandwidth.map (·.claim organizationId))
    with e | bandwidth
  · rw [hbandwidth] at h
    cases h
  rcases hconversations : updateEach Conversation.directKey (Conversation.rekey organizationId)
    (uniqueViolation "directKey") [] (db.conversations.map (·.claim organizationId))
    with e | conversations
  · rw [hbandwidth, hconversations] at h
    cases h
  · rw [hbandwidth, hconversations] at h
    exact ⟨bandwidth, conversations, hbandwidth, hconversations, (Except.ok.inj h).symm⟩

/-- An applied backfill assigns the rows to its organization; a dry run keeps the database. -/
theorem backfill_ok {mode : TenancyMode} {args : Arguments} {newId : Uuid}
    (h : backfill H cfg mode args newId db = .ok db') : (args.apply = false ∧ db' = db) ∨
      (args.apply = true ∧ ∃ organization dbO role,
        targetOrganization args newId db = .ok (organization, dbO) ∧ memberRole dbO = some role ∧
        assign H cfg organization.id role.id dbO = .ok db') := by
  unfold backfill at h
  split_ifs at h with hmode hdry
  · left
    refine ⟨hdry, ?_⟩
    rcases hexisting : existingOrganization args db with e | organization
    · rw [hexisting] at h
      cases h
    · rw [hexisting] at h
      exact (Except.ok.inj h).symm
  · right
    refine ⟨eq_true_of_ne_false hdry, ?_⟩
    rcases htarget : targetOrganization args newId db with e | ⟨organization, dbO⟩
    · rw [htarget] at h
      cases h
    rw [htarget] at h
    rcases hrole : memberRole dbO with _ | role
    · simp only [hrole, reduceCtorEq] at h
    · simp only [hrole] at h
      exact ⟨organization, dbO, role, rfl, hrole, h⟩

end BackendFoundation.Tenancy.Backfill
