import BackendFoundation.Chat.Sequence

/-! # Duplicates

A send whose insert violates a unique index returns the message of the conversation with its
`clientMessageId`. Neither the index nor the query has the sender: so this is a retry of the same
send only if the message stored under the id is the sender's own.

Main results: `foreign_duplicate`, and `duplicate_sound` for the runs in which no insert is executed
while a message of another sender is stored under its id. -/

namespace BackendFoundation.Chat.Duplicates

open Lib Lib.Runs Lib.Interleave Tenancy.TenantScope Chat.Model Chat.Sequence

/-- The message is stored under the id that the client gives. -/
def Names (call : SendCall) (m : Message) : Prop :=
  m.conversationId = call.conversationId ∧ m.clientMessageId = call.input.clientMessageId

instance (call : SendCall) : DecidablePred (Names call) :=
  fun _ => inferInstanceAs (Decidable (_ ∧ _))

/-- Two calls of one sender for one message. -/
structure SameSend (call call' : SendCall) : Prop where
  conversationId : call'.conversationId = call.conversationId
  userId : call'.userId = call.userId
  clientMessageId : call'.input.clientMessageId = call.input.clientMessageId

/-- **Sound duplicates.** A send that returned has a message of its own sender stored, which it has
inserted itself, or a duplicate: another call of the same sender has inserted it. -/
def DuplicateSound (w : ChatWorld) : Prop :=
  ∀ i call m duplicate, w.proc? i = some (.send call (.returned m duplicate)) →
    m.senderUserId = some call.userId ∧ (∃ m' ∈ w.shared.messages, Same m m') ∧
      (duplicate = true ↔ m.id ≠ i) ∧
      ∃ call' m₀, w.shared.statements m.id = some ⟨call', .committed (some m₀)⟩ ∧
        SameSend call call'

/-- The step does not execute an insert while a message of another sender is stored under its id. -/
def OwnIds (w : ChatWorld) : ChatLabel → Prop
  | .env (.acquire pid) => ∀ statement ∈ w.shared.statements pid, ∀ m ∈ w.shared.messages,
      Names statement.call m → m.senderUserId = some statement.call.userId
  | _ => True

instance (w : ChatWorld) : DecidablePred (OwnIds w)
  | .env (.acquire pid) => inferInstanceAs (Decidable (∀ statement ∈ w.shared.statements pid, _))
  | .env (.tick _) | .env (.createConversation _ _ _) | .env (.deleteConversation _)
  | .env (.setParticipant _ _ _ _) | .env (.setUpload _ _) | .env (.commit _) | .env (.abort _ _)
  | .spawn _ | .step _ _ | .crash _ => instDecidableTrue

variable {models : DataModel} {s s' : ChatState} {l : ChatLabel} {w w' : ChatWorld}

/-! ### The message that an insert clashes with -/

/-- An insert that violated an index clashes with a message of its own sender. -/
def OwnClashes (s : ChatState) : Prop :=
  ∀ pid call, s.statements pid = some ⟨call, .uniqueViolation⟩ →
    ∃ m ∈ s.messages, Names call m ∧ m.senderUserId = some call.userId

variable {call : SendCall}

theorem names_of_violates (h : Tables s) {pid : ℕ} {c : Conversation}
    (hc : s.conversations call.conversationId = some c)
    (hviolates : Violates s (call.message pid c)) : ∃ m ∈ s.messages, Names call m := by
  obtain ⟨m, hm, hconversation, hseq | hclient⟩ := hviolates
  · have hlog : m ∈ log s call.conversationId :=
      List.mem_filter.mpr ⟨hm, decide_eq_true hconversation⟩
    have hle := (h.dense _ c hc).number_le hlog
    have hnext : m.seq = c.lastSeq + 1 := hseq
    omega
  · exact ⟨m, hm, hconversation, hclient⟩

theorem uniqueViolation_of_set {pid pid' : ℕ} {call call' : SendCall} {phase : StatementPhase}
    (hphase : phase ≠ .uniqueViolation)
    (h : s.statements.set pid ⟨call, phase⟩ pid' = some ⟨call', .uniqueViolation⟩) :
    s.statements pid' = some ⟨call', .uniqueViolation⟩ := by
  rcases Table.set_eq_some.mp h with ⟨-, he⟩ | ⟨-, h⟩
  · exact absurd (Statement.mk.inj he).2.symm hphase
  · exact h

theorem uniqueViolation_cases (h : TableStep s l s') (ht : Tables s) {pid : ℕ}
    (hpid : s'.statements pid = some ⟨call, .uniqueViolation⟩) :
    s.statements pid = some ⟨call, .uniqueViolation⟩ ∨
      l = .env (.acquire pid) ∧ s.statements pid = some ⟨call, .waiting⟩ ∧
        ∃ m ∈ s.messages, Names call m := by
  cases h with
  | same _ _ _ _ hstatements | conversation _ _ _ _ _ _ _ hstatements =>
    exact .inl (hstatements ▸ hpid)
  | submitted _ _ _ _ hs =>
    subst hs
    exact .inl (uniqueViolation_of_set (by simp) hpid)
  | refused pid' call' phase hold hphase hs =>
    subst hs
    cases hphase with
    | noRow | failed => exact .inl (uniqueViolation_of_set (by simp) hpid)
    | violation hl hc hviolates =>
      rcases Table.set_eq_some.mp hpid with ⟨rfl, he⟩ | ⟨-, hpid⟩
      · cases he
        exact .inr ⟨hl, hold, names_of_violates ht hc hviolates⟩
      · exact .inl hpid
  | locked _ _ _ _ _ _ _ _ hs | committed _ _ _ _ _ _ _ hs | aborted _ _ _ _ _ hs =>
    subst hs
    exact .inl (uniqueViolation_of_set (by simp) hpid)
  | tombstoned _ _ hs =>
    subst hs
    exact .inl hpid

theorem OwnClashes.step (h : OwnClashes w.shared) (ht : Tables w.shared) (hown : OwnIds w l)
    (hstep : TableStep w.shared l w'.shared) : OwnClashes w'.shared := by
  intro pid call hpid
  have hclash : ∃ m ∈ w.shared.messages, Names call m ∧ m.senderUserId = some call.userId := by
    rcases uniqueViolation_cases hstep ht hpid with hold | ⟨rfl, hold, m, hm, hnames⟩
    · exact h pid call hold
    · exact ⟨m, hm, hnames, hown _ hold m hm hnames⟩
  obtain ⟨m, hm, hnames, hsender⟩ := hclash
  obtain ⟨m', hm', hsame⟩ := hstep.message hm
  refine ⟨m', hm', ⟨?_, ?_⟩, hsame.senderUserId.trans hsender⟩
  · exact hsame.conversationId.trans hnames.1
  · exact hsame.clientMessageId.trans hnames.2

theorem ownClashes (h : ReachableBy (chat models).system OwnIds w) : OwnClashes w.shared := by
  refine h.invariant' (I := fun w => OwnClashes w.shared) (fun w hw => ?_)
    (fun w w' l hr hown hg hn => ?_)
  · obtain rfl : w = ⟨{}, []⟩ := hw
    intro _ _ he
    cases he
  · exact hown.step (holds hr.reachable).1.shared hg (tableStep hr.reachable hn)

/-! ### The messages that sends return -/

theorem sender_eq_of_id_eq (h : Tables s) {m m' : Message} (hm : m ∈ s.messages) (hm' : m' ∈ s.messages)
    (hid : m.id = m'.id) : m.senderUserId = m'.senderUserId := by
  obtain ⟨call, m₀, hsent, hsame⟩ := h.sent m hm
  obtain ⟨call', m₀', hsent', hsame'⟩ := h.sent m' hm'
  rw [hid, hsent'] at hsent
  cases hsent
  rw [hsame.senderUserId, hsame'.senderUserId]

theorem sameSend_of_sent (h : Tables s) {m : Message} (hm : m ∈ s.messages)
    (hnames : Names call m) (hsender : m.senderUserId = some call.userId) :
    ∃ call' m₀, s.statements m.id = some ⟨call', .committed (some m₀)⟩ ∧ SameSend call call' := by
  obtain ⟨call', m₀, hsent, hsame⟩ := h.sent m hm
  obtain ⟨⟨c, rfl⟩, -⟩ := h.inserted _ _ _ hsent
  refine ⟨call', _, hsent, ?_, ?_, ?_⟩
  · exact hsame.conversationId.symm.trans hnames.1
  · exact Option.some.inj (hsame.senderUserId.symm.trans hsender)
  · exact hsame.clientMessageId.symm.trans hnames.2

/-- **A duplicate is the message of an earlier call of the same sender**, in every run in which no
insert is executed while a message of another sender is stored under its id. -/
theorem duplicate_sound (h : ReachableBy (chat models).system OwnIds w) : DuplicateSound w := by
  intro i call m duplicate hp
  have hok := (holds h.reachable).1
  have ht := hok.shared
  have hsend : SendOk w.shared i call (.returned m duplicate) := hok.proc i _ hp
  cases duplicate with
  | false =>
    obtain ⟨⟨c, rfl⟩, hstored⟩ := ht.inserted i call m hsend
    exact ⟨rfl, hstored, by simp [SendCall.message], call, _, hsend, rfl, rfl, rfl⟩
  | true =>
    obtain ⟨hviolation, hconversation, hclient, m', hm', hsame⟩ := hsend
    obtain ⟨m₁, hm₁, hnames, hsender₁⟩ := ownClashes h i call hviolation
    -- the id names one message of the conversation
    have hid : m'.id = m₁.id := by
      refine ht.unique m' hm' m₁ hm₁ ?_ ?_
      · rw [hsame.conversationId, hconversation, hnames.1]
      · rw [hsame.clientMessageId, hclient, hnames.2]
    have hsender : m'.senderUserId = some call.userId := (sender_eq_of_id_eq ht hm' hm₁ hid).trans hsender₁
    have hnames' : Names call m' :=
      ⟨hsame.conversationId.trans hconversation, hsame.clientMessageId.trans hclient⟩
    refine ⟨hsame.senderUserId.symm.trans hsender, ⟨m', hm', hsame⟩, ?_, ?_⟩
    · refine iff_of_true rfl ?_
      rw [← hsame.id]
      exact ht.not_stored ⟨call, _, hviolation, .inl rfl⟩ m' hm'
    · rw [← hsame.id]
      exact sameSend_of_sent ht hm' hnames' hsender

theorem duplicate_sound_retry : ∃ w : ChatWorld,
    w.proc? 1 = some (.send exampleSend (.returned (exampleSend.message 0 ⟨none, 0, none⟩) true)) ∧
      DuplicateSound w := by
  obtain ⟨w, hw, hp⟩ := (chat []).exists_reached OwnIds exampleRetry
    (fun w => w.proc? 1 =
      some (.send exampleSend (.returned (exampleSend.message 0 ⟨none, 0, none⟩) true))) (by decide)
  exact ⟨w, hp, duplicate_sound hw⟩

/-- **A send is swallowed.** Another participant has used its `clientMessageId`: it returns the
message of that participant, and its own is not stored. -/
theorem foreign_duplicate : ∃ w : ChatWorld, Reachable (chat []).system w ∧
    (∀ m ∈ w.shared.messages, m.senderUserId = some "u") ∧ ¬ DuplicateSound w := by
  obtain ⟨w, hw, hp, hmessages⟩ := (chat []).exists_reached anyStep
    [.env (.createConversation "c" none ["u", "v"]), .spawn (.send exampleSend), .step 0 {},
      .step 0 {}, .env (.acquire 0), .env (.commit 0), .step 0 {},
      .spawn (.send { exampleSend with userId := "v" }), .step 1 {}, .step 1 {},
      .env (.acquire 1), .step 1 {}, .step 1 {}]
    (fun w => w.proc? 1 = some (.send { exampleSend with userId := "v" }
        (.returned (exampleSend.message 0 ⟨none, 0, none⟩) true)) ∧
      ∀ m ∈ w.shared.messages, m.senderUserId = some "u") (by decide)
  refine ⟨w, hw, hmessages, fun hsound => ?_⟩
  have hsender := (hsound 1 _ _ _ hp).1
  exact absurd hsender (by decide)

end BackendFoundation.Chat.Duplicates
