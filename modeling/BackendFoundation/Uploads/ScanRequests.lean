import BackendFoundation.Outbox.Model
import BackendFoundation.Uploads.Verdicts

/-! # Scan requests

The completions of one upload beside its scans, with the outbox event that requests a scan. The
event has a deduplication key of the upload and its checksum, and no two events have the same key,
whatever has become of the first. The events are kept under their deduplication keys. The statements
of the relay, the worker and the redrive come at any time; a scan starts while the worker processes
an event of the upload. Of the requests, only those of the scans fail.

A completion that meets no earlier request of the upload returns and leaves a request
(`completions_return`). One that does throws, also if the request is in the dead letter
(`completion_throws`). -/

namespace BackendFoundation.Uploads.ScanRequests

open Errors Lib Lib.Interleave Lib.Runs Uploads.Model Uploads.Verdicts
open Outbox.Model (OutboxState OutboxInput OutboxStatus payloadString
  DeliveryFailureDisposition)
open Option (some.inj)

/-! ### The system -/

structure ScanState where
  uploads : UploadState
  /-- The id of an event stands for its deduplication key. -/
  outbox : OutboxState

/-- A call of `completeUpload`, and what is noted of it. -/
structure Completion where
  call : CompleteUpload
  pc : CompletePc := .findUpload
  /-- The upload that it has read. -/
  read : Option Upload := none
  /-- The status of the scan request when the call returned. -/
  left : Option OutboxStatus := none

inductive ScanCall
  | completeUpload (completion : Completion)
  | processUploadScan (pc : ScanPc)

inductive ScanCallRequest
  | completeUpload (userId : String) (scope : Option String)
  | processUploadScan (eventId : String)

/-- A statement of the relay, the worker or the redrive on the events. -/
inductive OutboxMove
  | claim (claimToken : ℕ) (ids : List String)
  | markEnqueued (id : String) (claimToken : Option ℕ)
  | release (id : String) (claimToken : Option ℕ) (error : Thrown)
  | expire (id : String) (generation : ℕ)
  | start (id : String) (generation : ℕ)
  | deliver (id : String) (generation : ℕ)
  | fail (id : String) (generation : ℕ) (message : String)
      (disposition : DeliveryFailureDisposition)
  | redrive (id : String) (generation : ℕ)

inductive ScanEvent
  | tick (ms : ℕ)
  | outbox (move : OutboxMove)

def OutboxMove.apply (s : OutboxState) : OutboxMove → OutboxState
  | .claim claimToken ids => s.claimRows s.now claimToken ids
  | .markEnqueued id claimToken => s.markEnqueued id claimToken
  | .release id claimToken error => s.releaseClaimAfterEnqueueFailure id claimToken error
  | .expire id generation => (s.expireEvent id generation).1
  | .start id generation => (s.startEvent id generation).1
  | .deliver id generation => (s.deliverEvent id generation).1
  | .fail id generation message disposition => (s.failEvent id generation message disposition).1
  | .redrive id generation => (s.resetDeadLetter id generation).1

def scanRequest (uploadId now : ℕ) : OutboxInput where
  eventType := "upload.scan.requested"
  channel := .internal
  payload := [("uploadId", .string (toString uploadId))]
  expiresAt := some (now + 24 * 60 * 60 * 1000)

/-- The transaction that requests the scan: the update, and then the event. -/
def requestScan (call : CompleteUpload) (stored : StoredObjectMetadata) (s : ScanState) :
    Except Thrown ScanState :=
  match s.uploads.update call.scope call.uploadId Upload.scanning with
  | .error e => .error e
  | .ok uploads =>
    match s.outbox.addOutboxEvent (scanDedupeKey call.uploadId stored)
        (scanRequest call.uploadId s.outbox.now) with
    | none => .error uniqueViolation
    | some outbox => .ok ⟨uploads, outbox⟩

/-- The outbox takes the request exactly where the key is free in the model of the uploads alone, and
what it does to the uploads is the same. -/
theorem requestScan_uploads {call : CompleteUpload} {stored : StoredObjectMetadata} {s : ScanState}
    (hkeys : scanDedupeKey call.uploadId stored ∈ s.uploads.dedupeKeys ↔
      s.outbox.events (scanDedupeKey call.uploadId stored) ≠ none) :
    (requestScan call stored s).map (fun t => { t.uploads with
      dedupeKeys := scanDedupeKey call.uploadId stored :: s.uploads.dedupeKeys }) =
      requestUploadScan call stored s.uploads := by
  unfold requestScan requestUploadScan OutboxState.addOutboxEvent
  cases s.uploads.update call.scope call.uploadId Upload.scanning with
  | error e => rfl
  | ok uploads =>
    dsimp only
    cases hevent : s.outbox.events (scanDedupeKey call.uploadId stored) with
    | none =>
      rw [if_neg fun hmem => hkeys.mp hmem hevent]
      rfl
    | some row =>
      rw [if_pos (hkeys.mpr (by rw [hevent]; exact Option.some_ne_none row))]
      rfl

/-- What a completion has read after a statement. -/
def Completion.reads (s : ScanState) (c : Completion) : Option Upload :=
  match c.pc with
  | .findUpload =>
    s.uploads.find c.call.scope c.call.uploadId fun upload => upload.userId = c.call.userId
  | _ => c.read

/-- The next statement or request of a completion, which is answered. -/
def completionStep (cfg : UploadConfig) (provider : UploadProvider) (s : ScanState)
    (c : Completion) : Option (ScanState × Completion) :=
  match c.pc with
  | .requestScan stored =>
    match requestScan c.call stored s with
    | .error e => some (s, { c with pc := .thrown e })
    | .ok t =>
      some (t, { c with
        pc := .returned
        left := (t.outbox.findEvent (scanDedupeKey c.call.uploadId stored)).map (·.status) })
  | pc =>
    (completeStep cfg provider s.uploads c.call pc ok).map fun r =>
      (⟨r.1, s.outbox⟩, { c with pc := r.2, read := c.reads s })

/-- An upload that can be completed, and whose stored object matches. -/
structure Uploaded where
  cfg : UploadConfig
  provider : UploadProvider
  uploads : UploadState
  uploadId : ℕ
  upload : Upload
  object : StoredObject
  scanning : cfg.scanMode = .webhook
  row : uploads.uploads[uploadId]? = some upload
  kept : upload.deletedAt = none
  provided : upload.provider = provider
  pending : completable upload = true
  stored : uploads.objects provider upload.objectKey = some object
  declared : matchesDeclared upload (object.inspect provider) = true
  signature : detectContentType (object.bytes.take signaturePrefixBytes) = some upload.contentType

/-- The deduplication key of its scan requests. -/
def Uploaded.key (p : Uploaded) : String := scanDedupeKey p.uploadId (p.object.inspect p.provider)

/-- The worker processes an event that requests a scan of the upload. -/
def scanDue (s : OutboxState) (uploadId : ℕ) (eventId : String) : Bool :=
  (s.findEvent eventId).any fun event =>
    event.status = .processing ∧ payloadString event.payload "uploadId" = some (toString uploadId)

def scansSpawn (p : Uploaded) (s : ScanState) : ScanCallRequest → Option (ScanState × ScanCall)
  | .completeUpload userId scope =>
    some (s, .completeUpload { call := ⟨userId, scope, p.uploadId⟩ })
  | .processUploadScan eventId =>
    if scanDue s.outbox p.uploadId eventId then some (s, .processUploadScan .findUpload) else none

def scansStep (p : Uploaded) (s : ScanState) : ScanCall → Answer → Option (ScanState × ScanCall)
  | .completeUpload c, .call .ok =>
    (completionStep p.cfg p.provider s c).map fun r => (r.1, .completeUpload r.2)
  | .completeUpload _, _ => none
  | .processUploadScan pc, answer =>
    (scanStep p.cfg p.provider s.uploads p.uploadId pc answer).map fun r =>
      (⟨r.1, s.outbox⟩, .processUploadScan r.2)

def scansEnv (s : ScanState) : ScanEvent → Option ScanState
  | .tick ms => some
    { uploads := { s.uploads with now := s.uploads.now + ms }
      outbox := { s.outbox with now := s.outbox.now + ms } }
  | .outbox move => some { s with outbox := move.apply s.outbox }

/-- **The completions and scans of an upload**, with no request at the start. -/
def scans (p : Uploaded) : Program ScanState ScanCall ScanCallRequest Answer ScanEvent where
  init := { uploads := p.uploads, outbox := { now := p.uploads.now.toNat } }
  spawn s _ := scansSpawn p s
  step s _ := scansStep p s
  env := scansEnv

abbrev ScanWorld := World ScanState ScanCall

abbrev ScanLabel := Label ScanCallRequest Answer ScanEvent

/-! ### Completions that return -/

/-- The steps that a completion has still to take. -/
def remaining : CompletePc → Option ℕ
  | .inspectObject _ => some 4
  | .readObjectPrefix _ _ => some 3
  | .quarantine _ _ _ => some 2
  | .requestScan _ => some 1
  | .returned => some 0
  | _ => none

/-- The request is pending or in flight. -/
def InFlight : OutboxStatus → Prop
  | .pending | .claimed | .enqueued | .processing => True
  | _ => False

/-- The upload is `PENDING` or `QUARANTINED`, and stored with the provider. -/
def isOpen (provider : UploadProvider) (upload : Upload) : Bool :=
  upload.provider = provider ∧ (upload.status = .pending ∨ upload.status = .quarantined)

/-- The completion has read that the upload is open. -/
def Completion.accepted (provider : UploadProvider) (c : Completion) : Bool :=
  c.read.any (isOpen provider)

def Completion.acts (provider : UploadProvider) (s : ScanState) (c : Completion) : Bool :=
  (c.reads s).any (isOpen provider)

/-- No request of the upload is there when a completion that acts on it takes a step. -/
def noRequestLeft (p : Uploaded) (w : ScanWorld) : ScanLabel → Bool
  | .step i _ =>
    match w.proc? i with
    | some (.completeUpload c) =>
      !c.acts p.provider w.shared || (w.shared.outbox.events p.key).isNone
    | _ => true
  | _ => true

def NoRequestLeft (p : Uploaded) (w : ScanWorld) (l : ScanLabel) : Prop :=
  noRequestLeft p w l = true

instance (p : Uploaded) (w : ScanWorld) (l : ScanLabel) : Decidable (NoRequestLeft p w l) :=
  inferInstanceAs (Decidable (_ = true))

/-- Each completion that has read that the upload is `PENDING` or `QUARANTINED` has returned and left a
request in flight, or is on its way: its next step brings it nearer. -/
def CompletionsReturn (p : Uploaded) (w : ScanWorld) : Prop :=
  ∀ i c, w.proc? i = some (.completeUpload c) → c.accepted p.provider = true →
    (c.pc = .returned ∧ ∃ status, c.left = some status ∧ InFlight status) ∨
    ∃ n, remaining c.pc = some (n + 1) ∧
      (w.shared.outbox.events p.key = none → ∃ w' c', (scans p).next w (.step i ok) = some w' ∧
        w'.proc? i = some (.completeUpload c') ∧ c'.accepted p.provider = true ∧
          remaining c'.pc = some n)

/-! ### The events -/

variable {p : Uploaded} {s t : ScanState} {k : String} {c c' : Completion} {u : Upload}

variable {o : OutboxState}

theorem updateEvent_eq_none {id : String} {cond : Outbox.Model.OutboxEvent → Prop}
    [DecidablePred cond] {data : Outbox.Model.OutboxEvent → Outbox.Model.OutboxEvent} :
    (o.updateEvent id cond data).1.events k = none ↔ o.events k = none := by
  unfold OutboxState.updateEvent
  dsimp only
  rw [Table.updateWhere_apply]
  split_ifs
  · exact Option.map_eq_none_iff
  · exact Iff.rfl

theorem addOutboxEvent_ok (h : o.events k = none) (input : OutboxInput) :
    ∃ o', o.addOutboxEvent k input = some o' ∧ (o'.findEvent k).map (·.status) = some .pending := by
  unfold OutboxState.addOutboxEvent
  rw [h]
  refine ⟨_, rfl, ?_⟩
  unfold OutboxState.findEvent
  dsimp only
  rw [Table.set_self]
  rfl

theorem OutboxMove.apply_eq_none (move : OutboxMove) :
    (move.apply o).events k = none ↔ o.events k = none := by
  cases move with
  | claim claimToken ids => exact Option.map_eq_none_iff
  | _ => exact updateEvent_eq_none

/-! ### Before the first request -/

/-- A row that is still the upload at the start, as far as a completion looks at it. -/
structure Alike (p : Uploaded) (u : Upload) : Prop where
  organizationId : u.organizationId = p.upload.organizationId
  deletedAt : u.deletedAt = none
  provider : u.provider = p.provider
  objectKey : u.objectKey = p.upload.objectKey
  contentType : u.contentType = p.upload.contentType
  expectedSize : u.expectedSize = p.upload.expectedSize
  completable : completable u = true

theorem Alike.visible (h : Alike p u) (scope : Option String) :
    visible scope u = visible scope p.upload := by
  unfold Model.visible
  rw [h.organizationId, h.deletedAt, p.kept]

theorem Alike.matchesDeclared (h : Alike p u) :
    matchesDeclared u (p.object.inspect p.provider) = true := by
  have hdeclared := p.declared
  unfold Model.matchesDeclared at hdeclared ⊢
  rwa [h.expectedSize, h.contentType]

theorem Alike.quarantined (h : Alike p u) (stored : StoredObjectMetadata)
    (detected : Option String) : Alike p (u.quarantined stored detected) :=
  { h with completable := by simp [Model.completable, Upload.quarantined] }

/-- Nothing has happened to the upload but completions. -/
structure Untouched (p : Uploaded) (s : ScanState) : Prop where
  row : ∃ u, s.uploads.uploads[p.uploadId]? = some u ∧ Alike p u
  object : s.uploads.objects p.provider p.upload.objectKey = some p.object
  events : ∀ k, s.outbox.events k = none

theorem Untouched.find (h : Untouched p s) {scope : Option String}
    (hscope : visible scope p.upload = true) :
    (s.uploads.find scope p.uploadId anyUpload).isSome = true := by
  obtain ⟨u, hu, hlike⟩ := h.row
  unfold UploadState.find
  rw [hu, Option.filter_some, hlike.visible, hscope]
  rfl

theorem Untouched.updateMany (h : Untouched p s) (scope : Option String) (uploadId : ℕ)
    (cond : Upload → Bool) {data : Upload → Upload} (hdata : ∀ u, Alike p u → Alike p (data u)) :
    Untouched p ⟨s.uploads.updateMany scope uploadId cond data, s.outbox⟩ where
  row := by
    obtain ⟨u, hu, hlike⟩ := h.row
    show ∃ v, (s.uploads.uploads.modify uploadId _)[p.uploadId]? = some v ∧ Alike p v
    rw [List.getElem?_modify, hu]
    refine ⟨_, rfl, ?_⟩
    dsimp only
    split_ifs
    · exact hdata u hlike
    · exact hlike
    · exact hlike
  object := h.object
  events := h.events

theorem untouched_start (p : Uploaded) : Untouched p (scans p).init where
  row := ⟨p.upload, p.row, rfl, p.kept, p.provided, rfl, rfl, rfl, p.pending⟩
  object := p.stored
  events _ := rfl

/-! ### One completion -/

/-- What a completion that has found the upload knows of it. -/
def OnItsWay (p : Uploaded) : CompletePc → Prop
  | .inspectObject u => Alike p u
  | .readObjectPrefix u stored | .quarantine u stored _ =>
    Alike p u ∧ stored = p.object.inspect p.provider
  | .requestScan stored => stored = p.object.inspect p.provider
  | .returned => True
  | _ => False

structure Sound (p : Uploaded) (c : Completion) : Prop where
  uploadId : c.call.uploadId = p.uploadId
  accepted : c.accepted p.provider = true → visible c.call.scope p.upload = true ∧ OnItsWay p c.pc ∧
    (c.pc = .returned → c.left = some .pending)
  other : c.accepted p.provider = false → c.pc = .findUpload ∨ c.pc = .returned ∨ ∃ e, c.pc = .thrown e

theorem Sound.start (p : Uploaded) (userId : String) (scope : Option String) :
    Sound p { call := ⟨userId, scope, p.uploadId⟩ } :=
  ⟨rfl, nofun, fun _ => .inl rfl⟩

theorem completeInspected_ok (h : Untouched p s) (hlike : Alike p u) :
    completeInspected p.provider u (s.uploads.objects p.provider u.objectKey) =
      .readObjectPrefix u (p.object.inspect p.provider) := by
  rw [hlike.objectKey, h.object]
  unfold completeInspected
  dsimp only
  rw [if_pos hlike.matchesDeclared]

theorem completePrefix_ok (h : Untouched p s) (hlike : Alike p u)
    (stored : StoredObjectMetadata) :
    completePrefix u stored (s.uploads.objects p.provider u.objectKey) =
      .quarantine u stored (some u.contentType) := by
  rw [hlike.objectKey, h.object]
  unfold completePrefix
  dsimp only
  rw [p.signature, hlike.contentType, if_pos rfl]

theorem quarantineUpload_ok {call : CompleteUpload} (hid : call.uploadId = p.uploadId)
    (hscope : visible call.scope p.upload = true) (h : Untouched p s)
    (stored : StoredObjectMetadata) (detected : Option String) :
    ∃ uploads, quarantineUpload call stored detected s.uploads = .ok uploads ∧
      Untouched p ⟨uploads, s.outbox⟩ := by
  unfold quarantineUpload
  rw [hid, if_pos (h.find hscope)]
  exact ⟨_, rfl, h.updateMany _ _ _ fun u hlike => hlike.quarantined stored detected⟩

/-- **The request**, if there was none. -/
theorem requestScan_ok {call : CompleteUpload} (hid : call.uploadId = p.uploadId)
    (hscope : visible call.scope p.upload = true) (h : Untouched p s) :
    ∃ t, requestScan call (p.object.inspect p.provider) s = .ok t ∧
      (t.outbox.findEvent p.key).map (·.status) = some .pending := by
  have hupdate : s.uploads.update call.scope call.uploadId Upload.scanning =
      .ok (s.uploads.updateMany call.scope call.uploadId anyUpload Upload.scanning) := by
    unfold UploadState.update
    rw [hid, if_pos (h.find hscope)]
  obtain ⟨outbox, hadd, hstatus⟩ :=
    addOutboxEvent_ok (h.events p.key) (scanRequest call.uploadId s.outbox.now)
  have hkey : scanDedupeKey call.uploadId (p.object.inspect p.provider) = p.key := by
    rw [hid, Uploaded.key]
  unfold requestScan
  rw [hupdate, hkey]
  dsimp only
  rw [hadd]
  exact ⟨_, rfl, hstatus⟩

theorem completionStep_find (hpc : c.pc = .findUpload) (cfg : UploadConfig)
    (provider : UploadProvider) :
    completionStep cfg provider s c =
      some (s, { c with pc := completeFound provider (c.reads s), read := c.reads s }) := by
  unfold completionStep Completion.reads
  rw [hpc]
  rfl

theorem completeFound_open {found : Option Upload} (h : found.any (isOpen p.provider) = true) :
    ∃ u, found = some u ∧ completeFound p.provider found = .inspectObject u := by
  obtain ⟨u, rfl, hopen⟩ := (Option.any_eq_true _ _).mp h
  obtain ⟨hprovider, hstatus⟩ := of_decide_eq_true hopen
  refine ⟨u, rfl, ?_⟩
  unfold completeFound completable
  dsimp only
  rw [if_neg (not_not.mpr hprovider)]
  rcases hstatus with hstatus | hstatus <;> simp [hstatus]

theorem completeFound_refuses {found : Option Upload}
    (h : found.any (isOpen p.provider) = false) :
    completeFound p.provider found = .returned ∨
      ∃ e, completeFound p.provider found = .thrown e := by
  cases found with
  | none => exact .inr ⟨_, rfl⟩
  | some u =>
    unfold completeFound completable
    dsimp only
    split_ifs with hprovider hready hstatus
    · exact .inr ⟨_, rfl⟩
    · exact .inl rfl
    · exact .inr ⟨_, rfl⟩
    · have hopen : ¬ (u.provider = p.provider ∧
          (u.status = .pending ∨ u.status = .quarantined)) := of_decide_eq_false h
      refine absurd ⟨not_not.mp hprovider, not_not.mp fun hnot => hstatus ?_⟩ hopen
      rw [decide_eq_false hnot]
      rfl

/-- **A completion that has found the upload goes on**, and what it leaves. -/
theorem Sound.goesOn (hc : Sound p c) (haccepted : c.accepted p.provider = true)
    (h : Untouched p s) (hpc : c.pc ≠ .returned) :
    ∃ n t c', remaining c.pc = some (n + 1) ∧ completionStep p.cfg p.provider s c = some (t, c') ∧
      remaining c'.pc = some n ∧ c'.accepted p.provider = true ∧ Sound p c' ∧
      (t.outbox.events p.key = none → Untouched p t) := by
  obtain ⟨hscope, hway, -⟩ := hc.accepted haccepted
  have hsound {c' : Completion} (hcall : c'.call = c.call) (hread : c'.read = c.read)
      (hway' : OnItsWay p c'.pc) (hleft : c'.pc = .returned → c'.left = some .pending) :
      Sound p c' := by
    have ha : c'.accepted p.provider = true := by
      unfold Completion.accepted
      rw [hread]
      exact haccepted
    exact ⟨hcall ▸ hc.uploadId, fun _ => ⟨hcall ▸ hscope, hway', hleft⟩,
      fun h => absurd (ha.symm.trans h) Bool.true_eq_false.mp⟩
  obtain ⟨call, pc, read, left⟩ := c
  cases pc with
  | inspectObject u =>
    have hstep : completionStep p.cfg p.provider s ⟨call, .inspectObject u, read, left⟩ = some (s,
        ⟨call, completeInspected p.provider u (s.uploads.objects p.provider u.objectKey), read,
          left⟩) := rfl
    rw [completeInspected_ok h hway] at hstep
    exact ⟨3, s, _, rfl, hstep, rfl, haccepted, hsound rfl rfl ⟨hway, rfl⟩ nofun, fun _ => h⟩
  | readObjectPrefix u stored =>
    have hstep : completionStep p.cfg p.provider s ⟨call, .readObjectPrefix u stored, read, left⟩ =
        some (s, ⟨call, completePrefix u stored (s.uploads.objects p.provider u.objectKey), read,
          left⟩) := rfl
    rw [completePrefix_ok h hway.1] at hstep
    exact ⟨2, s, _, rfl, hstep, rfl, haccepted, hsound rfl rfl hway nofun, fun _ => h⟩
  | quarantine u stored detected =>
    obtain ⟨uploads, hwrite, huntouched⟩ := quarantineUpload_ok hc.uploadId hscope h stored detected
    have hnext : completeQuarantined p.cfg u stored = .requestScan stored := by
      unfold completeQuarantined
      rw [p.scanning]
    have hstep : completionStep p.cfg p.provider s
        ⟨call, .quarantine u stored detected, read, left⟩ =
        (some (attempt .ok s.uploads (quarantineUpload call stored detected s.uploads)
          (completeQuarantined p.cfg u stored) .thrown)).map fun r =>
            (⟨r.1, s.outbox⟩, ⟨call, r.2, read, left⟩) := rfl
    rw [hwrite, hnext] at hstep
    exact ⟨1, _, _, rfl, hstep, rfl, haccepted, hsound rfl rfl hway.2 nofun, fun _ => huntouched⟩
  | requestScan stored =>
    obtain rfl : stored = p.object.inspect p.provider := hway
    obtain ⟨t, hrequest, hleft⟩ := requestScan_ok hc.uploadId hscope h
    have hid : call.uploadId = p.uploadId := hc.uploadId
    have hstep : completionStep p.cfg p.provider s
        ⟨call, .requestScan (p.object.inspect p.provider), read, left⟩ =
        some (t, ⟨call, .returned, read, (t.outbox.findEvent p.key).map (·.status)⟩) := by
      unfold completionStep
      dsimp only
      rw [hrequest, hid]
      rfl
    refine ⟨0, t, _, rfl, hstep, rfl, haccepted, hsound rfl rfl trivial fun _ => hleft,
      fun hnone => ?_⟩
    unfold OutboxState.findEvent at hleft
    rw [hnone] at hleft
    cases hleft
  | returned => exact absurd rfl hpc
  | _ => exact hway.elim

theorem completionStep_ended (h : c.pc = .returned ∨ ∃ e, c.pc = .thrown e) (cfg : UploadConfig)
    (provider : UploadProvider) : completionStep cfg provider s c = none := by
  unfold completionStep
  rcases h with hpc | ⟨e, hpc⟩
  · rw [hpc]
    rfl
  · rw [hpc]
    rfl

/-- **One step of a completion**, which has met no request if it acts on the upload. -/
theorem Sound.step (hc : Sound p c) (hfresh : s.outbox.events p.key = none → Untouched p s)
    (hgood : c.acts p.provider s = true → s.outbox.events p.key = none)
    (hstep : completionStep p.cfg p.provider s c = some (t, c')) :
    Sound p c' ∧ (t.outbox.events p.key = none → Untouched p t) := by
  by_cases hpc : c.pc = .findUpload
  · rw [completionStep_find hpc] at hstep
    obtain ⟨rfl, rfl⟩ := pair_inj hstep
    refine ⟨?_, hfresh⟩
    cases hfound : (c.reads s).any (isOpen p.provider) with
    | true =>
      obtain ⟨u, hu, hinspect⟩ := completeFound_open hfound
      obtain ⟨v, hv, hlike⟩ := (hfresh (hgood hfound)).row
      have hsame : visible c.call.scope v = true ∧ u = v := by
        unfold Completion.reads UploadState.find at hu
        rw [hpc] at hu
        dsimp only at hu
        rw [hc.uploadId, hv, Option.filter_some] at hu
        split_ifs at hu with hcond
        rw [Bool.and_eq_true] at hcond
        exact ⟨hcond.1, (some.inj hu).symm⟩
      rw [hinspect, hsame.2]
      refine ⟨hc.uploadId, fun _ => ⟨?_, hlike, nofun⟩, fun h => ?_⟩
      · rw [← hlike.visible]
        exact hsame.1
      · exact absurd (hfound.symm.trans h) Bool.true_eq_false.mp
    | false =>
      refine ⟨hc.uploadId, fun h => ?_, fun _ => .inr (completeFound_refuses hfound)⟩
      exact absurd (hfound.symm.trans h) Bool.false_eq_true.mp
  · have hreads : c.reads s = c.read := by
      unfold Completion.reads
      split
      · next h => exact absurd h hpc
      · rfl
    cases haccepted : c.accepted p.provider with
    | true =>
      have hreturned : c.pc ≠ .returned := fun h => by
        rw [completionStep_ended (.inl h)] at hstep
        cases hstep
      have hacts : c.acts p.provider s = true := by
        unfold Completion.acts
        rw [hreads]
        exact haccepted
      obtain ⟨n, t', c'', -, hstep', -, -, hsound, huntouched⟩ :=
        hc.goesOn haccepted (hfresh (hgood hacts)) hreturned
      obtain ⟨rfl, rfl⟩ := Prod.mk.inj (some.inj (hstep.symm.trans hstep'))
      exact ⟨hsound, huntouched⟩
    | false =>
      have hended := (hc.other haccepted).resolve_left hpc
      rw [completionStep_ended hended] at hstep
      cases hstep

theorem completionStep_events {cfg : UploadConfig} {provider : UploadProvider}
    (hstep : completionStep cfg provider s c = some (t, c')) (h : s.outbox.events k ≠ none) :
    t.outbox.events k ≠ none := by
  unfold completionStep at hstep
  split at hstep
  · next stored _ =>
    split at hstep
    · obtain ⟨rfl, -⟩ := pair_inj hstep
      exact h
    · next t' hrequest =>
      obtain ⟨rfl, -⟩ := pair_inj hstep
      unfold requestScan at hrequest
      split at hrequest
      · cases hrequest
      · split at hrequest
        · cases hrequest
        · next outbox hadd =>
          obtain rfl := Except.ok.inj hrequest
          unfold OutboxState.addOutboxEvent at hadd
          split at hadd
          · cases hadd
          · next hnone =>
            obtain rfl := some.inj hadd
            have hne : k ≠ scanDedupeKey c.call.uploadId stored := fun hk => h (hk ▸ hnone)
            dsimp only
            rw [Table.set_of_ne hne]
            exact h
  · obtain ⟨r, -, hr⟩ := Option.map_eq_some_iff.mp hstep
    obtain ⟨rfl, -⟩ := Prod.mk.inj hr
    exact h

/-! ### Runs -/

def assertions (p : Uploaded) : Assertions ScanState ScanCall where
  shared s := s.outbox.events p.key = none → Untouched p s
  proc _ call s :=
    match call with
    | .completeUpload c => Sound p c
    | .processUploadScan _ => s.outbox.events p.key ≠ none

theorem scansEnv_events {e : ScanEvent} (h : scansEnv s e = some t) :
    (t.outbox.events k = none ↔ s.outbox.events k = none) ∧
      (Untouched p s → Untouched p t) := by
  cases e with
  | tick ms =>
    obtain rfl := some.inj h
    exact ⟨Iff.rfl, fun hs => ⟨hs.row, hs.object, hs.events⟩⟩
  | outbox move =>
    obtain rfl := some.inj h
    refine ⟨move.apply_eq_none, fun hs => ⟨hs.row, hs.object, fun k => ?_⟩⟩
    exact move.apply_eq_none.mpr (hs.events k)

theorem scansStep_scan {pc : ScanPc} {answer : Answer} {call : ScanCall}
    (h : scansStep p s (.processUploadScan pc) answer = some (t, call)) :
    t.outbox = s.outbox ∧ ∃ pc', call = .processUploadScan pc' := by
  obtain ⟨r, -, hr⟩ := Option.map_eq_some_iff.mp h
  obtain ⟨rfl, rfl⟩ := Prod.mk.inj hr
  exact ⟨rfl, r.2, rfl⟩

theorem scansStep_completion {answer : Answer} {call : ScanCall}
    (h : scansStep p s (.completeUpload c) answer = some (t, call)) :
    ∃ c', call = .completeUpload c' ∧ completionStep p.cfg p.provider s c = some (t, c') := by
  unfold scansStep at h
  split at h
  · next c₀ heq =>
    obtain rfl := ScanCall.completeUpload.inj heq
    obtain ⟨r, hr, hcall⟩ := Option.map_eq_some_iff.mp h
    obtain ⟨rfl, rfl⟩ := Prod.mk.inj hcall
    exact ⟨r.2, rfl, hr⟩
  · cases h
  · next heq => cases heq

theorem outline (p : Uploaded) : Outline (scans p) (NoRequestLeft p) (assertions p) where
  init _ := untouched_start p
  env w e s h _ hs := by
    obtain ⟨hevents, huntouched⟩ := scansEnv_events (p := p) (k := p.key) hs
    refine ⟨fun hnone => huntouched (h.shared (hevents.mp hnone)), fun j call hj => ?_⟩
    have hproc := h.proc j call hj
    cases call with
    | completeUpload c => exact hproc
    | processUploadScan pc => exact fun hnone => hproc (hevents.mp hnone)
  spawn w x s call h _ hs := by
    cases x with
    | completeUpload userId scope =>
      obtain ⟨rfl, rfl⟩ := pair_inj hs
      refine ⟨h.shared, .start p userId scope, fun j other hj => ?_⟩
      exact ⟨h.proc j other hj, trivial, trivial⟩
    | processUploadScan eventId =>
      have hs' : (if scanDue w.shared.outbox p.uploadId eventId then
          some (w.shared, ScanCall.processUploadScan .findUpload) else none) = some (s, call) := hs
      split_ifs at hs' with hdue
      obtain ⟨rfl, rfl⟩ := pair_inj hs'
      refine ⟨h.shared, fun hnone => ?_, fun j other hj => ⟨h.proc j other hj, trivial, trivial⟩⟩
      -- A scan is due only for an event.
      have hevent := (h.shared hnone).events eventId
      unfold scanDue OutboxState.findEvent at hdue
      rw [hevent] at hdue
      cases hdue
  step w i call answer s call' h hi hgood hs := by
    have hproc := h.proc i call hi
    cases call with
    | completeUpload c =>
      obtain ⟨c', rfl, hstep⟩ := scansStep_completion hs
      have hfresh : c.acts p.provider w.shared = true → w.shared.outbox.events p.key = none := by
        intro hacts
        unfold NoRequestLeft noRequestLeft at hgood
        simp only [hi, hacts, Bool.not_true, Bool.false_or] at hgood
        exact Option.isNone_iff_eq_none.mp hgood
      obtain ⟨hsound, huntouched⟩ := Sound.step hproc h.shared hfresh hstep
      exact ⟨huntouched, hsound⟩
    | processUploadScan pc =>
      obtain ⟨houtbox, pc', rfl⟩ := scansStep_scan hs
      have hevent : s.outbox.events p.key ≠ none := by
        rw [houtbox]
        exact hproc
      exact ⟨fun hnone => absurd hnone hevent, hevent⟩
  frame w i call answer s call' h hi _ hs j other _ hj := by
    have hother := h.proc j other hj
    refine ⟨?_, trivial, trivial⟩
    cases other with
    | completeUpload c => exact hother
    | processUploadScan pc =>
      show s.outbox.events p.key ≠ none
      cases call with
      | completeUpload c =>
        obtain ⟨c', -, hstep⟩ := scansStep_completion hs
        exact completionStep_events hstep hother
      | processUploadScan pc =>
        obtain ⟨houtbox, -⟩ := scansStep_scan hs
        rw [houtbox]
        exact hother

/-- **Completions that meet no request return.** -/
theorem completions_return (p : Uploaded) {w : ScanWorld}
    (h : ReachableBy (scans p).system (NoRequestLeft p) w) : CompletionsReturn p w := by
  have hholds := (outline p).holds h
  intro i c hi haccepted
  have hsound : Sound p c := hholds.proc i _ hi
  by_cases hpc : c.pc = .returned
  · exact .inl ⟨hpc, .pending, (hsound.accepted haccepted).2.2 hpc, trivial⟩
  · refine .inr ?_
    have hremaining : ∃ n, remaining c.pc = some (n + 1) := by
      have hway := (hsound.accepted haccepted).2.1
      cases hc : c.pc with
      | inspectObject u => exact ⟨3, rfl⟩
      | readObjectPrefix u stored => exact ⟨2, rfl⟩
      | quarantine u stored detected => exact ⟨1, rfl⟩
      | requestScan stored => exact ⟨0, rfl⟩
      | returned => exact absurd hc hpc
      | _ =>
        rw [hc] at hway
        exact hway.elim
    obtain ⟨n, hn⟩ := hremaining
    refine ⟨n, hn, fun hnone => ?_⟩
    obtain ⟨m, t, c', hm, hstep, hless, hstill, -, -⟩ :=
      hsound.goesOn haccepted (hholds.shared hnone) hpc
    obtain rfl : m = n := by
      have heq := some.inj (hm.symm.trans hn)
      omega
    refine ⟨w.put i t (.completeUpload c'), c', ?_, World.proc?_put_self hi, hstill, hless⟩
    have hcall : scansStep p w.shared (.completeUpload c) ok = some (t, .completeUpload c') := by
      show (completionStep p.cfg p.provider w.shared c).map _ = _
      rw [hstep]
      rfl
    simp only [Program.next, hi]
    show (scansStep p w.shared (.completeUpload c) ok).map _ = _
    rw [hcall]
    rfl

/-! ### A request that is left -/

def exampleUploaded : Uploaded where
  cfg := webhookConfig
  provider := .s3
  uploads := {
    uploads := [{
      userId := "user", provider := .s3, objectKey := "key", originalName := "a.jpg"
      contentType := "image/jpeg", expectedSize := 3, uploadExpiresAt := 900000 }]
    objects := fun _ key => if key = "key" then some jpeg else none }
  uploadId := 0
  upload := {
    userId := "user", provider := .s3, objectKey := "key", originalName := "a.jpg"
    contentType := "image/jpeg", expectedSize := 3, uploadExpiresAt := 900000 }
  object := jpeg
  scanning := rfl
  row := rfl
  kept := rfl
  provided := rfl
  pending := rfl
  stored := rfl
  declared := by decide
  signature := by decide

def completed (i : ℕ) : List ScanLabel :=
  [.spawn (.completeUpload "user" none), .step i ok, .step i ok, .step i ok, .step i ok, .step i ok]

/-- The worker takes the event, the scan fails, and the event reaches the dead letter. -/
def scanFailed : List ScanLabel :=
  [.env (.outbox (.claim 1 [exampleUploaded.key])),
    .env (.outbox (.markEnqueued exampleUploaded.key (some 1))),
    .env (.outbox (.start exampleUploaded.key 0)),
    .spawn (.processUploadScan exampleUploaded.key), .step 1 ok, .step 1 ok, .step 1 ok,
    .step 1 (.call (.failed .value)), .step 1 ok,
    .env (.outbox (.fail exampleUploaded.key 0 "Unknown worker error" .deadLetter))]

def Completion.threw (c : Completion) (error : Thrown) : Bool :=
  match c.pc with
  | .thrown e => c.accepted exampleUploaded.provider && e = error
  | _ => false

def completionThrew (w : ScanWorld) (i : ℕ) (error : Thrown) : Bool :=
  match w.proc? i with
  | some (.completeUpload c) => c.threw error
  | _ => false

theorem completions_return_example : ∃ w, CompletionsReturn exampleUploaded w ∧
    w.shared.uploads.uploads.map (·.status) = [.quarantined] := by
  obtain ⟨w, hw, hstatus⟩ := (scans exampleUploaded).exists_reached (NoRequestLeft exampleUploaded)
    (completed 0 ++ scanFailed) (fun w => w.shared.uploads.uploads.map (·.status) = [.quarantined])
    (by decide)
  exact ⟨w, completions_return exampleUploaded hw, hstatus⟩

/-- **A completion that throws.** The first request is in the dead letter, and the upload is
quarantined again. -/
theorem completion_throws : ∃ w, Reachable (scans exampleUploaded).system w ∧
    completionThrew w 2 uniqueViolation = true ∧ ¬ CompletionsReturn exampleUploaded w := by
  obtain ⟨w, hw, hthrew⟩ := (scans exampleUploaded).exists_reached anyStep
    (completed 0 ++ scanFailed ++ completed 2)
    (fun w => completionThrew w 2 uniqueViolation = true) (by decide)
  refine ⟨w, hw, hthrew, fun hreturn => ?_⟩
  unfold completionThrew at hthrew
  split at hthrew
  · next c hc =>
    unfold Completion.threw at hthrew
    split at hthrew
    · next e hpc =>
      rw [Bool.and_eq_true] at hthrew
      rcases hreturn 2 c hc hthrew.1 with ⟨hreturned, -⟩ | ⟨n, hn, -⟩
      · rw [hpc] at hreturned
        cases hreturned
      · rw [hpc] at hn
        cases hn
    · cases hthrew
  · cases hthrew

end BackendFoundation.Uploads.ScanRequests
