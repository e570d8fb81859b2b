import BackendFoundation.Chat.Sequence
import BackendFoundation.Uploads.Downloads
import BackendFoundation.Uploads.Verdicts
import BackendFoundation.Uploads.Writes

/-! # Attachments

The calls of chat and those of the uploads beside each other. A send looks its attachment up among
the uploads, as far as the client narrows the query to the active organization.
`createUploadDownload` lets a user have an upload that is not theirs if a message in one of their
conversations carries it.

What carries the check is where the messages come from: each message that carries an upload was sent
by the owner of the upload (`Carried` and `Attached`), whatever is sent again, deleted or moved
between.

Main result: `attachment_access`. -/

namespace BackendFoundation.Chat.Attachments

open Errors Lib Lib.Runs Lib.Interleave Tenancy.TenantScope Chat.Model Chat.Sequence
open Uploads.Model (UploadState UploadCall UploadConfig UploadRequest UploadEvent
  Answer visible uploadStep uploadSpawn client)
open Uploads.Downloads (DownloadCall uploadNotFound)
open Uploads.Verdicts (webhookConfig jpeg ok)
open Uploads.Writes (Continues continues_uploadStep)
open Option (some.inj map_eq_some_iff)

/-! ### The system -/

/-- The ids of the rows of the uploads. -/
structure UploadIds where
  uuid : ℕ → Uuid
  row : Uuid → Option ℕ
  row_eq_some : ∀ {id n}, row id = some n ↔ id = uuid n

structure ShareState where
  chat : ChatState := {}
  uploads : UploadState := {}

inductive ShareCall
  | chat (call : Proc)
  | upload (call : UploadCall)

inductive ShareStart
  | chat (start : Start)
  | upload (request : UploadRequest)

inductive ShareAnswer
  | chat (choice : Choice)
  | upload (answer : Answer)

inductive ShareEvent
  | chat (event : Event)
  | upload (event : UploadEvent)

/-- The active organization of a call. -/
def organizationOf : Proc → Option Uuid
  | .send call _ => call.organizationId
  | .catchUp client _ => client.organizationId
  | .delete call _ => call.organizationId
  | .read call _ => call.organizationId

/-- The uploads that a call with this organization sees. -/
def view (ids : UploadIds) (s : UploadState) (scope : Option Uuid) : Table Uuid Upload := fun id =>
  (ids.row id).bind fun n => (s.uploads[n]?.filter (visible scope)).map fun upload =>
    { userId := upload.userId, ready := upload.status = .ready }

/-- A step of chat that sees these uploads. -/
def chatStep (models : DataModel) (uploads : Table Uuid Upload) (s : ChatState) (pid : ℕ) (p : Proc)
    (c : Choice) : Option (ChatState × Proc) :=
  (step models { s with uploads } pid p c).map fun r => ({ r.1 with uploads := s.uploads }, r.2)

def shareSpawn (cfg : UploadConfig) (s : ShareState) (pid : ℕ) :
    ShareStart → Option (ShareState × ShareCall)
  | .chat x => (start s.chat pid x).map fun r => ({ s with chat := r.1 }, .chat r.2)
  | .upload request => some (s, .upload (uploadSpawn cfg s.uploads request))

def shareStep (models : DataModel) (cfg : UploadConfig) (ids : UploadIds) (s : ShareState)
    (pid : ℕ) : ShareCall → ShareAnswer → Option (ShareState × ShareCall)
  | .chat p, .chat c =>
    (chatStep models (view ids s.uploads (organizationOf p)) s.chat pid p c).map fun r =>
      ({ s with chat := r.1 }, .chat r.2)
  | .upload call, .upload answer =>
    (uploadStep cfg s.uploads call answer).map fun r => ({ s with uploads := r.1 }, .upload r.2)
  | _, _ => none

/-- The uploads change by their own calls only. -/
def shareEvent (s : ShareState) : ShareEvent → Option ShareState
  | .chat (.setUpload _ _) => none
  | .chat e => (event s.chat e).map fun chat => { s with chat }
  | .upload e => (client s.uploads e).map fun uploads => { s with uploads }

/-- **Chat and the uploads**, any calls of any users beside each other. -/
def sharing (models : DataModel) (cfg : UploadConfig) (ids : UploadIds) :
    Program ShareState ShareCall ShareStart ShareAnswer ShareEvent where
  init := {}
  spawn := shareSpawn cfg
  step := shareStep models cfg ids
  env := shareEvent

abbrev ShareWorld := World ShareState ShareCall

abbrev ShareLabel := Label ShareStart ShareAnswer ShareEvent

/-! ### Downloads -/

/-- The query for a message that carries the upload. -/
def sharedThroughChat (ids : UploadIds) (s : ChatState) (call : DownloadCall) : Bool :=
  s.messages.any fun message =>
    OrganizationFilter call.scope message.organizationId ∧
      message.uploadId = some (ids.uuid call.uploadId) ∧ message.deletedAt = none ∧
      (s.conversations message.conversationId).any (fun conversation =>
        conversation.deletedAt = none) ∧
      (s.participants (message.conversationId, call.userId)).any fun participant =>
        participant.leftAt = none ∧ participant.deletedAt = none

/-- `createUploadDownload`, up to the upload that it goes on with. -/
def authorizeDownload (ids : UploadIds) (s : ShareState) (call : DownloadCall) :
    Except Thrown Uploads.Model.Upload :=
  match s.uploads.find call.scope call.uploadId (·.status = .ready) with
  | none => .error uploadNotFound
  | some upload =>
    if upload.userId ≠ call.userId ∧ sharedThroughChat ids s.chat call = false then
      .error uploadNotFound
    else .ok upload

/-- The user is an active participant of a live conversation of the active organization, if there is
one, and a message of it that is not deleted carries the upload. -/
def HoldsAttachment (ids : UploadIds) (s : ChatState) (scope : Option Uuid) (uploadId : ℕ)
    (userId : Uuid) (message : Message) : Prop :=
  message ∈ s.messages ∧ message.uploadId = some (ids.uuid uploadId) ∧ message.deletedAt = none ∧
    (∃ conversation, s.conversations message.conversationId = some conversation ∧
      conversation.deletedAt = none ∧ OrganizationFilter scope conversation.organizationId) ∧
    ∃ participant, s.participants (message.conversationId, userId) = some participant ∧
      participant.leftAt = none ∧ participant.deletedAt = none

/-! ### Where the messages come from -/

/-- A message that carries an upload was sent with it. -/
def Carried (s : ChatState) : Prop :=
  ∀ m ∈ s.messages, ∀ id ∈ m.uploadId, ∃ call phase,
    s.statements m.id = some ⟨call, phase⟩ ∧ call.input.uploadId = some id

/-- What is sent with an upload is sent by its owner. -/
def Attached (ids : UploadIds) (s : UploadState) (call : SendCall) : Prop :=
  ∀ id ∈ call.input.uploadId, ∃ n upload,
    id = ids.uuid n ∧ s.uploads[n]? = some upload ∧ upload.userId = call.userId

variable {ids : UploadIds} {models : DataModel} {cfg : UploadConfig} {s s' : ChatState}
  {u u' : UploadState} {l : ChatLabel} {call : SendCall} {pid i : ℕ} {p p' : Proc} {c : Choice}
  {t t' : ShareState} {uploads : Table Uuid Upload}

theorem Attached.mono (h : Attached ids u call) (hcontinues : Continues u u') :
    Attached ids u' call := by
  intro id hid
  obtain ⟨n, upload, hn, hrow, howner⟩ := h id hid
  obtain ⟨upload', hrow', hsame⟩ := hcontinues.kept n upload hrow
  exact ⟨n, upload', hn, hrow', hsame.userId.trans howner⟩

theorem attached_of_view {id : Uuid} {upload : Upload} (hid : call.input.uploadId = some id)
    (hview : view ids u call.organizationId id = some upload)
    (howner : upload.userId = call.userId) : Attached ids u call := by
  intro id' hid'
  obtain rfl := some.inj (hid.symm.trans hid')
  obtain ⟨n, hn, hrow⟩ := Option.bind_eq_some_iff.mp hview
  obtain ⟨row, hfilter, rfl⟩ := map_eq_some_iff.mp hrow
  exact ⟨n, row, ids.row_eq_some.mp hn, (Option.filter_eq_some_iff.mp hfilter).1, howner⟩

theorem Carried.step (h : Carried s) (ht : Tables s) (hstep : TableStep s l s') : Carried s' := by
  have hkept {m : Message} (hm : m ∈ s.messages) {id : Uuid} (hid : id ∈ m.uploadId) :
      ∃ call phase, s'.statements m.id = some ⟨call, phase⟩ ∧ call.input.uploadId = some id := by
    obtain ⟨call, phase, hstatement, hinput⟩ := h m hm id hid
    obtain ⟨phase', hstatement', -⟩ := hstep.statement hstatement
    exact ⟨call, phase', hstatement', hinput⟩
  intro m hm id hid
  cases hstep with
  | same _ _ hmessages _ _ | conversation _ _ _ _ _ hmessages _ _ =>
    exact hkept (hmessages ▸ hm) hid
  | submitted _ _ _ _ hs | refused _ _ _ _ _ hs | locked _ _ _ _ _ _ _ _ hs
    | aborted _ _ _ _ _ hs =>
    subst hs
    exact hkept hm hid
  | committed pid call m₁ c _ hold _ hs =>
    subst hs
    rcases List.mem_append.mp hm with hm | hm
    · exact hkept hm hid
    · -- The new message is the one of the call.
      obtain ⟨-, -, c', -, rfl⟩ := ht.locked pid call m₁ hold
      obtain rfl := List.mem_singleton.mp hm
      exact ⟨call, _, Table.set_self, hid⟩
  | tombstoned id' organizationId hs =>
    subst hs
    obtain ⟨m₀, hm₀, rfl⟩ := List.mem_map.mp hm
    split_ifs at hid ⊢
    · cases hid
    · exact hkept hm₀ hid

theorem statement_before (hstep : TableStep s l s') (hl : ∀ c, l ≠ .step i c) {st : Statement}
    (hi : s'.statements i = some st) : ∃ phase, s.statements i = some ⟨st.call, phase⟩ := by
  cases hold : s.statements i with
  | none =>
    rw [hstep.statement_none hold hl] at hi
    cases hi
  | some st₀ =>
    obtain ⟨phase', hi', -⟩ := hstep.statement hold
    obtain rfl := some.inj (hi.symm.trans hi')
    exact ⟨st₀.phase, rfl⟩

/-! ### A step of chat that sees the uploads -/

theorem TableStep.withUploads (h : TableStep { s with uploads } l s') :
    TableStep s l { s' with uploads := s.uploads } := by
  cases h with
  | same hjoined hconversations hmessages hlocks hstatements =>
    exact .same hjoined hconversations hmessages hlocks hstatements
  | conversation id c' hc hjoined hconversations hmessages hlocks hstatements =>
    exact .conversation id c' hc hjoined hconversations hmessages hlocks hstatements
  | submitted pid call hl hnew hs =>
    subst hs
    exact .submitted pid call hl hnew rfl
  | refused pid call phase hold hphase hs =>
    subst hs
    refine .refused pid call phase hold ?_ rfl
    cases hphase with
    | noRow => exact .noRow
    | violation hl hc hviolates => exact .violation hl hc hviolates
    | failed => exact .failed
  | locked pid call c hold hc howner hfree hviolates hs =>
    subst hs
    exact .locked pid call c hold hc howner hfree hviolates rfl
  | committed pid call m c hl hold hc hs =>
    subst hs
    exact .committed pid call m c hl hold hc rfl
  | aborted pid call m e hold hs =>
    subst hs
    exact .aborted pid call m e hold rfl
  | tombstoned id organizationId hs =>
    subst hs
    exact .tombstoned id organizationId rfl

theorem chatStep_eq_some (h : chatStep models uploads s pid p c = some (s', p')) :
    ∃ t, step models { s with uploads } pid p c = some (t, p') ∧
      s' = { t with uploads := s.uploads } := by
  obtain ⟨⟨t, q⟩, hstep, he⟩ := map_eq_some_iff.mp h
  obtain ⟨rfl, rfl⟩ := Prod.mk.inj he
  exact ⟨t, hstep, rfl⟩

theorem tableStep_chatStep (h : chatStep models uploads s pid p c = some (s', p'))
    (hnew : ∀ call, p = .send call .submit → s.statements pid = none) :
    TableStep s (.step pid c) s' := by
  obtain ⟨t, hstep, rfl⟩ := chatStep_eq_some h
  exact TableStep.withUploads (tableStep_step hstep hnew)

theorem procOk_chatStep (h : chatStep models uploads s pid p c = some (s', p'))
    (hp : ProcOk pid p s) : ProcOk pid p' s' := by
  obtain ⟨t, hstep, rfl⟩ := chatStep_eq_some h
  have hp' : ProcOk pid p { s with uploads } := hp
  have hok : ProcOk pid p' t := hp'.step hstep
  exact hok

theorem statements_step (h : step models s pid p c = some (s', p')) :
    s'.statements = s.statements ∨
      ∃ call, p = .send call .submit ∧ s'.statements = s.statements.set pid ⟨call, .waiting⟩ := by
  cases p with
  | send call pc =>
    obtain ⟨pc', hstep, rfl⟩ := map_pair_inj h
    cases sendMove_of_step hstep with
    | submitted _ => exact .inr ⟨call, rfl, rfl⟩
    | authorized _ _ | inserted _ | violated _ | existing _ | thrown => exact .inl rfl
  | catchUp client pc =>
    obtain ⟨r, -, he⟩ := map_eq_some_iff.mp h
    cases he
    exact .inl rfl
  | delete call pc =>
    obtain ⟨pc', hstep, rfl⟩ := map_pair_inj h
    rcases deleteStep_state hstep with rfl | ⟨id, rfl⟩
    · exact .inl rfl
    · exact .inl rfl
  | read call pc =>
    obtain ⟨pc', hstep, rfl⟩ := map_pair_inj h
    rcases readStep_state hstep with rfl | rfl
    · exact .inl rfl
    · exact .inl rfl

theorem statement_chatStep (h : chatStep models uploads s pid p c = some (s', p')) {st : Statement}
    (hi : s'.statements i = some st) :
    (∃ phase, s.statements i = some ⟨st.call, phase⟩) ∨ p = .send st.call .submit := by
  obtain ⟨t, hstep, rfl⟩ := chatStep_eq_some h
  rcases statements_step hstep with hsame | ⟨call, hp, hset⟩
  · have hi' : t.statements i = some st := hi
    rw [hsame] at hi'
    exact .inl ⟨st.phase, hi'⟩
  · have hi' : t.statements i = some st := hi
    rw [hset] at hi'
    rcases Table.set_eq_some.mp hi' with ⟨-, rfl⟩ | ⟨-, hold⟩
    · exact .inr hp
    · exact .inl ⟨st.phase, hold⟩

theorem attached_chatStep (h : chatStep models (view ids u (organizationOf p)) s pid p c =
      some (s', .send call .submit)) : Attached ids u call := by
  obtain ⟨t, hstep, -⟩ := chatStep_eq_some h
  cases p with
  | send call' pc =>
    obtain ⟨⟨t', pc'⟩, hsend, he⟩ := map_eq_some_iff.mp hstep
    obtain ⟨-, hcall⟩ := Prod.mk.inj he
    obtain ⟨rfl, rfl⟩ := Proc.send.inj hcall
    cases pc with
    | requireParticipant =>
      obtain ⟨-, ⟨-, hnext⟩ | ⟨e, -, hnext⟩⟩ := Outcome.read_cases (some.inj hsend)
      · split at hnext
        · cases hnext
        · split_ifs at hnext with hupload
          -- Nothing is attached.
          intro id hid
          rw [Option.mem_def.mp hid] at hupload
          exact absurd rfl hupload
      · cases hnext
    | findUpload =>
      obtain ⟨-, ⟨-, hnext⟩ | ⟨e, -, hnext⟩⟩ := Outcome.read_cases (some.inj hsend)
      · split_ifs at hnext with havailable
        obtain ⟨id, hid, upload, hview, howner, -⟩ := havailable
        exact attached_of_view hid hview howner
      · cases hnext
    | submit =>
      cases sendMove_of_step hsend with
      | authorized hpc _ => rcases hpc with hpc | hpc <;> cases hpc
      | submitted hpc' => rcases hpc' with hpc' | ⟨e, hpc'⟩ <;> cases hpc'
    | await =>
      cases sendMove_of_step hsend with
      | authorized hpc _ => rcases hpc with hpc | hpc <;> cases hpc
    | findExisting =>
      cases sendMove_of_step hsend with
      | authorized hpc _ => rcases hpc with hpc | hpc <;> cases hpc
    | returned _ _ | thrown _ => cases hsend
  | catchUp client pc =>
    obtain ⟨r, -, he⟩ := map_eq_some_iff.mp hstep
    cases he
  | delete call' pc =>
    obtain ⟨r, -, he⟩ := map_eq_some_iff.mp hstep
    cases he
  | read call' pc =>
    obtain ⟨r, -, he⟩ := map_eq_some_iff.mp hstep
    cases he

/-! ### What holds in every run -/

structure Sound (ids : UploadIds) (t : ShareState) : Prop where
  tables : Tables t.chat
  carried : Carried t.chat
  attached : ∀ i st, t.chat.statements i = some st → Attached ids t.uploads st.call

def CallOk (ids : UploadIds) (i : ℕ) : ShareCall → ShareState → Prop
  | .chat p, t => ProcOk i p t.chat ∧
      ∀ call, p = .send call .submit → Attached ids t.uploads call
  | .upload _, _ => True

def assertions (ids : UploadIds) : Assertions ShareState ShareCall where
  shared := Sound ids
  proc := CallOk ids

/-- Only a call that has started has an insert. -/
def Started (w : ShareWorld) : Prop := ∀ i, w.shared.chat.statements i ≠ none → i < w.fresh

theorem Sound.start (ids : UploadIds) : Sound ids {} where
  tables := Tables.init
  carried m hm := absurd hm List.not_mem_nil
  attached i st hi := by
    have hnone : (none : Option Statement) = some st := hi
    cases hnone

theorem Sound.continues (h : Sound ids t) (hcontinues : Continues t.uploads u) :
    Sound ids { t with uploads := u } :=
  ⟨h.tables, h.carried, fun i st hi => (h.attached i st hi).mono hcontinues⟩

theorem CallOk.continues {call : ShareCall} (h : CallOk ids i call t)
    (hcontinues : Continues t.uploads u) : CallOk ids i call { t with uploads := u } := by
  cases call with
  | chat p => exact ⟨h.1, fun call hp => (h.2 call hp).mono hcontinues⟩
  | upload _ => trivial

theorem CallOk.kept {call : ShareCall} (h : CallOk ids i call t) (hstep : TableStep t.chat l s')
    (hl : ∀ c, l ≠ .step i c) : CallOk ids i call { t with chat := s' } := by
  cases call with
  | chat p => exact ⟨h.1.kept hstep hl, h.2⟩
  | upload _ => trivial

theorem CallOk.submits (h : CallOk ids i (.chat p) t) (call : SendCall)
    (hp : p = .send call .submit) : t.chat.statements i = none := by
  subst hp
  exact h.1

theorem continues_client {e : UploadEvent} (h : client u e = some u') : Continues u u' := by
  cases e <;> obtain rfl := some.inj h <;> exact .of_eq rfl

theorem tableStep_shareEvent {e : Event} (h : shareEvent t (.chat e) = some t') :
    TableStep t.chat (.env e) t'.chat ∧ t' = { t with chat := t'.chat } := by
  have hevent : (event t.chat e).map (fun chat => { t with chat }) = some t' := by
    cases e with
    | setUpload id upload => cases h
    | _ => exact h
  obtain ⟨chat, he, rfl⟩ := map_eq_some_iff.mp hevent
  exact ⟨tableStep_event he, rfl⟩

theorem shareStep_cases {call call' : ShareCall} {answer : ShareAnswer}
    (h : shareStep models cfg ids t i call answer = some (t', call')) :
    (∃ p c p' s', call = .chat p ∧ call' = .chat p' ∧ t' = { t with chat := s' } ∧
      chatStep models (view ids t.uploads (organizationOf p)) t.chat i p c = some (s', p')) ∨
    ∃ call₀ call₁ u, call = .upload call₀ ∧ call' = .upload call₁ ∧ t' = { t with uploads := u } ∧
      Continues t.uploads u := by
  unfold shareStep at h
  split at h
  · next p c =>
    obtain ⟨⟨s', p'⟩, hstep, he⟩ := map_eq_some_iff.mp h
    obtain ⟨rfl, rfl⟩ := Prod.mk.inj he
    exact .inl ⟨p, c, p', s', rfl, rfl, rfl, hstep⟩
  · next call₀ answer₀ =>
    obtain ⟨⟨u, call₁⟩, hstep, he⟩ := map_eq_some_iff.mp h
    obtain ⟨rfl, rfl⟩ := Prod.mk.inj he
    exact .inr ⟨call₀, call₁, u, rfl, rfl, rfl, continues_uploadStep hstep⟩
  · cases h

theorem outline (models : DataModel) (cfg : UploadConfig) (ids : UploadIds) :
    Outline (sharing models cfg ids) (fun w _ => Started w) (assertions ids) where
  init := Sound.start ids
  env w e t h _ he := by
    cases e with
    | chat e =>
      obtain ⟨hstep, ht⟩ := tableStep_shareEvent he
      have hl (j : ℕ) (c : Choice) : (.env e : ChatLabel) ≠ .step j c := nofun
      rw [ht]
      refine ⟨⟨h.shared.tables.step hstep, h.shared.carried.step h.shared.tables hstep,
        fun i st hi => ?_⟩, fun j call hj => CallOk.kept (h.proc j call hj) hstep (hl j)⟩
      obtain ⟨phase, hold⟩ := statement_before hstep (hl i) hi
      exact h.shared.attached i ⟨st.call, phase⟩ hold
    | upload e =>
      obtain ⟨u, hu, rfl⟩ := map_eq_some_iff.mp he
      exact ⟨h.shared.continues (continues_client hu),
        fun j call hj => CallOk.continues (h.proc j call hj) (continues_client hu)⟩
  spawn w x t call h hstarted hs := by
    have hnone : w.shared.chat.statements w.fresh = none := by
      by_contra hne
      exact (hstarted w.fresh hne).ne rfl
    have hspawn : t = w.shared ∧ CallOk ids w.fresh call w.shared := by
      cases x with
      | chat x =>
        obtain ⟨r, hr, he⟩ := map_eq_some_iff.mp hs
        cases x <;> obtain rfl := some.inj hr <;> obtain ⟨rfl, rfl⟩ := Prod.mk.inj he
        · exact ⟨rfl, hnone, nofun⟩
        · exact ⟨rfl, trivial, nofun⟩
        · exact ⟨rfl, trivial, nofun⟩
        · exact ⟨rfl, trivial, nofun⟩
      | upload request =>
        obtain ⟨rfl, rfl⟩ := pair_inj hs
        exact ⟨rfl, trivial⟩
    obtain ⟨rfl, hcall⟩ := hspawn
    exact ⟨h.shared, hcall, fun j q hq => ⟨h.proc j q hq, trivial, trivial⟩⟩
  step w i call answer t call' h hi _ hs := by
    have hok := h.proc i call hi
    rcases shareStep_cases hs with ⟨p, c, p', s', rfl, rfl, rfl, hstep⟩ |
      ⟨call₀, call₁, u, rfl, rfl, rfl, hcontinues⟩
    · have hnew := hok.submits
      have htable := tableStep_chatStep hstep hnew
      refine ⟨⟨h.shared.tables.step htable, h.shared.carried.step h.shared.tables htable,
        fun j st hj => ?_⟩, procOk_chatStep hstep hok.1, fun call hp => ?_⟩
      · rcases statement_chatStep hstep hj with ⟨phase, hold⟩ | hp
        · exact h.shared.attached j ⟨st.call, phase⟩ hold
        · exact hok.2 st.call hp
      · rw [hp] at hstep
        exact attached_chatStep hstep
    · exact ⟨h.shared.continues hcontinues, trivial⟩
  frame w i call answer t call' h hi _ hs j other hj hother := by
    have hok := h.proc i call hi
    refine ⟨?_, trivial, trivial⟩
    rcases shareStep_cases hs with ⟨p, c, p', s', rfl, rfl, rfl, hstep⟩ |
      ⟨call₀, call₁, u, rfl, rfl, rfl, hcontinues⟩
    · refine CallOk.kept (h.proc j other hother) (tableStep_chatStep hstep hok.submits) ?_
      rintro c' hl
      cases hl
      exact hj rfl
    · exact CallOk.continues (h.proc j other hother) hcontinues

variable {w w' : ShareWorld}

theorem Started.next (h : Started w) (hholds : (assertions ids).Holds w) {l : ShareLabel}
    (hn : (sharing models cfg ids).next w l = some w') : Started w' := by
  cases Program.move_of_next hn with
  | @spawn x t call hs =>
    have hsame : t.chat = w.shared.chat := by
      cases x with
      | chat x =>
        obtain ⟨r, hr, he⟩ := map_eq_some_iff.mp hs
        obtain ⟨rfl, -⟩ := Prod.mk.inj he
        cases x <;> obtain rfl := some.inj hr <;> rfl
      | upload request =>
        obtain ⟨rfl, -⟩ := pair_inj hs
        rfl
    intro i hi
    rw [World.add_shared, hsame] at hi
    have hlt := h i hi
    rw [World.fresh_add]
    omega
  | @step j answer call call' t hcall hs =>
    intro i hi
    rw [World.fresh_put]
    by_cases hij : i = j
    · rw [hij]
      exact World.lt_fresh hcall
    · refine h i fun hnone => hi ?_
      rcases shareStep_cases hs with ⟨p, c, p', s', rfl, rfl, rfl, hstep⟩ |
        ⟨call₀, call₁, u, rfl, rfl, rfl, -⟩
      · have hok := hholds.proc j _ hcall
        refine (tableStep_chatStep hstep (CallOk.submits hok)).statement_none hnone ?_
        rintro c' hl
        cases hl
        exact hij rfl
      · exact hnone
  | crash _ =>
    intro i hi
    rw [World.fresh_kill]
    exact h i hi
  | @env e t he =>
    intro i hi
    rw [World.fresh_withShared]
    refine h i fun hnone => hi ?_
    cases e with
    | chat e => exact (tableStep_shareEvent he).1.statement_none hnone nofun
    | upload e =>
      obtain ⟨u, -, rfl⟩ := map_eq_some_iff.mp he
      exact hnone

/-- **What holds in every run.** -/
theorem holds (h : Reachable (sharing models cfg ids).system w) :
    (assertions ids).Holds w ∧ Started w := by
  refine h.invariant (I := fun w => (assertions ids).Holds w ∧ Started w) (fun w hw => ?_)
    (fun w w' l hw _ hn => ?_)
  · obtain rfl : w = ⟨{}, []⟩ := hw
    exact ⟨⟨Sound.start ids, by simp [World.proc?], by simp [World.proc?]⟩,
      fun i hi => absurd rfl hi⟩
  · obtain ⟨hholds, hstarted⟩ := hw
    exact ⟨(outline models cfg ids).step_holds hholds hstarted hn, hstarted.next hholds hn⟩

/-! ### Access -/

/-- **A message that carries an upload** was sent by a call of the owner, to its conversation. -/
theorem Sound.sent (h : Sound ids t) {m : Message} (hm : m ∈ t.chat.messages) {id : Uuid}
    (hid : id ∈ m.uploadId) :
    ∃ send phase n upload, t.chat.statements m.id = some ⟨send, phase⟩ ∧
      send.input.uploadId = some id ∧ send.conversationId = m.conversationId ∧
      m.senderUserId = some send.userId ∧ id = ids.uuid n ∧ t.uploads.uploads[n]? = some upload ∧
      upload.userId = send.userId := by
  obtain ⟨send, phase, hstatement, hinput⟩ := h.carried m hm id hid
  obtain ⟨n, upload, hn, hrow, howner⟩ := h.attached m.id _ hstatement id hinput
  obtain ⟨call, m₀, hcommitted, hsame⟩ := h.tables.sent m hm
  obtain ⟨rfl, -⟩ := Statement.mk.inj (some.inj (hcommitted.symm.trans hstatement))
  obtain ⟨⟨c, rfl⟩, -⟩ := h.tables.inserted m.id call m₀ hcommitted
  exact ⟨call, phase, n, upload, hstatement, hinput, hsame.conversationId.symm, hsame.senderUserId,
    hn, hrow, howner⟩

/-- What the query for a message finds. The organization of a message is that of its
conversation. -/
theorem sharedThroughChat_iff (h : Tables s) {call : DownloadCall} :
    sharedThroughChat ids s call = true ↔
      ∃ m, HoldsAttachment ids s call.scope call.uploadId call.userId m := by
  unfold sharedThroughChat HoldsAttachment
  rw [List.any_eq_true]
  refine exists_congr fun m => and_congr_right fun hm => ?_
  obtain ⟨c, hc, howner⟩ := h.owner m hm
  rw [decide_eq_true_eq, howner, hc]
  constructor
  · rintro ⟨horganization, hupload, hdeleted, hlive, hparticipant⟩
    obtain ⟨participant, hget, hactive⟩ := (Option.any_eq_true _ _).mp hparticipant
    obtain ⟨hleft, hkept⟩ := of_decide_eq_true hactive
    exact ⟨hupload, hdeleted, ⟨c, rfl, of_decide_eq_true hlive, horganization⟩,
      participant, hget, hleft, hkept⟩
  · rintro ⟨hupload, hdeleted, ⟨c', hc', hlive, horganization⟩, participant, hget, hleft, hkept⟩
    obtain rfl := some.inj hc'
    refine ⟨horganization, hupload, hdeleted, decide_eq_true hlive, ?_⟩
    exact (Option.any_eq_true _ _).mpr ⟨participant, hget, decide_eq_true ⟨hleft, hkept⟩⟩

theorem authorizeDownload_iff (h : Tables t.chat) {call : DownloadCall}
    {upload : Uploads.Model.Upload} :
    authorizeDownload ids t call = .ok upload ↔
      t.uploads.find call.scope call.uploadId (·.status = .ready) = some upload ∧
        (upload.userId = call.userId ∨
          ∃ m, HoldsAttachment ids t.chat call.scope call.uploadId call.userId m) := by
  rw [← sharedThroughChat_iff h]
  unfold authorizeDownload
  cases hfound : t.uploads.find call.scope call.uploadId (·.status = .ready) with
  | none => simp
  | some found =>
    dsimp only
    split_ifs with hrefused
    · refine iff_of_false nofun ?_
      rintro ⟨hupload, howner | hshared⟩
      · obtain rfl := some.inj hupload
        exact hrefused.1 howner
      · rw [hrefused.2] at hshared
        cases hshared
    · rw [not_and_or, not_not, Bool.not_eq_false] at hrefused
      constructor
      · intro hok
        obtain rfl := Except.ok.inj hok
        exact ⟨rfl, hrefused⟩
      · rintro ⟨hupload, -⟩
        obtain rfl := some.inj hupload
        rfl

/-- **Access to an attachment is what its owner shared.** -/
theorem attachment_access (h : Reachable (sharing models cfg ids).system w) :
    (∀ call upload, authorizeDownload ids w.shared call = .ok upload ↔
      w.shared.uploads.find call.scope call.uploadId (·.status = .ready) = some upload ∧
        (upload.userId = call.userId ∨
          ∃ m, HoldsAttachment ids w.shared.chat call.scope call.uploadId call.userId m)) ∧
    (∀ m ∈ w.shared.chat.messages, ∀ id ∈ m.uploadId, ∃ n upload, id = ids.uuid n ∧
      w.shared.uploads.uploads[n]? = some upload ∧ m.senderUserId = some upload.userId) ∧
    ∀ call upload, authorizeDownload ids w.shared call = .ok upload →
      upload.userId ≠ call.userId → ∃ m send phase,
        HoldsAttachment ids w.shared.chat call.scope call.uploadId call.userId m ∧
        w.shared.chat.statements m.id = some ⟨send, phase⟩ ∧
        send.conversationId = m.conversationId ∧
        send.input.uploadId = some (ids.uuid call.uploadId) ∧ send.userId = upload.userId := by
  have hsound : Sound ids w.shared := (holds h).1.shared
  refine ⟨fun call upload => authorizeDownload_iff hsound.tables, fun m hm id hid => ?_,
    fun call upload hok hother => ?_⟩
  · obtain ⟨send, phase, n, upload, -, -, -, hsender, hn, hrow, howner⟩ := hsound.sent hm hid
    exact ⟨n, upload, hn, hrow, by rw [hsender, howner]⟩
  · obtain ⟨hfind, howner | ⟨m, hholds⟩⟩ := (authorizeDownload_iff hsound.tables).mp hok
    · exact absurd howner hother
    · obtain ⟨send, phase, n, row, hstatement, hinput, hconversation, -, hn, hrow, howner⟩ :=
        hsound.sent hholds.1 hholds.2.1
      have hid : n = call.uploadId := by
        have hget := ids.row_eq_some.mpr hn
        rw [ids.row_eq_some.mpr rfl] at hget
        exact (some.inj hget).symm
      have hsame : row = upload := by
        unfold UploadState.find at hfind
        rw [← hid, hrow] at hfind
        exact some.inj ((Option.filter_eq_some_iff.mp hfind).1)
      exact ⟨m, send, phase, hholds, hstatement, hconversation, hinput, by rw [← howner, hsame]⟩

/-! ### An attachment that is shared -/

def exampleUuid (n : ℕ) : Uuid := String.ofList (List.replicate (n + 1) 'a')

def exampleIds : UploadIds where
  uuid := exampleUuid
  row id :=
    if id = exampleUuid (id.toList.length - 1) then some (id.toList.length - 1) else none
  row_eq_some := by
    intro id n
    constructor
    · intro h
      split_ifs at h with hid
      rw [← some.inj h]
      exact hid
    · rintro rfl
      simp [exampleUuid]

def exampleConfig : UploadConfig := { webhookConfig with scanMode := .disabled }

/-- An image is uploaded and completed, and sent to a conversation. -/
def shared : List ShareLabel :=
  [.spawn (.upload (.initiateUpload ⟨"owner", none, "a.jpg", "image/jpeg", 3, "key"⟩)),
    .step 0 (.upload ok), .step 0 (.upload (.directive 900000)),
    .env (.upload (.store .s3 "key" jpeg)),
    .spawn (.upload (.completeUpload ⟨"owner", none, 0⟩)), .step 1 (.upload ok),
    .step 1 (.upload ok), .step 1 (.upload ok), .step 1 (.upload ok), .step 1 (.upload ok),
    .env (.chat (.createConversation "c" none ["owner", "other"])),
    .spawn (.chat (.send {
      conversationId := "c"
      userId := "owner"
      input := { clientMessageId := "message1", uploadId := some (exampleIds.uuid 0) } })),
    .step 2 (.chat {}), .step 2 (.chat {}), .step 2 (.chat {}), .env (.chat (.acquire 2)),
    .env (.chat (.commit 2))]

theorem attachment_access_shared : ∃ w : ShareWorld,
    (authorizeDownload exampleIds w.shared ⟨"other", none, 0⟩).isOk = true ∧
      ∀ m ∈ w.shared.chat.messages, ∀ id ∈ m.uploadId, ∃ n upload, id = exampleIds.uuid n ∧
        w.shared.uploads.uploads[n]? = some upload ∧ m.senderUserId = some upload.userId := by
  obtain ⟨w, hw, hok⟩ := (sharing [] exampleConfig exampleIds).exists_reached anyStep shared
    (fun w => (authorizeDownload exampleIds w.shared ⟨"other", none, 0⟩).isOk = true) (by decide)
  exact ⟨w, hok, (attachment_access hw).2.1⟩

end BackendFoundation.Chat.Attachments
