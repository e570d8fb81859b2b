import BackendFoundation.Chat.Model

/-! # The sequence of a conversation

What a step does to the tables (`TableStep`), and what holds of them in every run (`Tables`): the
messages of a conversation are numbered without gaps up to its counter. The lock of its row is what
carries this through a statement, from the number it has taken to its commit: no other statement
commits a message of the conversation meanwhile.

Main result: `sequence_dense`. -/

namespace BackendFoundation.Chat.Sequence

open Errors Lib Lib.Runs Lib.DenseLog Lib.Interleave Tenancy.TenantScope Chat.Model
open Option (some.inj map_eq_some_iff)

/-! ### What a call does -/

inductive SendMove (s : ChatState) (pid : ℕ) (call : SendCall) : SendPc → ChatState → SendPc → Prop
  | authorized {pc pc' : SendPc} (hpc : pc = .requireParticipant ∨ pc = .findUpload)
    (hpc' : pc' = .findUpload ∨ pc' = .submit) : SendMove s pid call pc s pc'
  | submitted {pc' : SendPc} (hpc' : pc' = .await ∨ ∃ e, pc' = .thrown e) :
    SendMove s pid call .submit
      { s with statements := s.statements.set pid ⟨call, .waiting⟩ } pc'
  | inserted {call' : SendCall} {m : Message}
    (h : s.statements pid = some ⟨call', .committed (some m)⟩) :
    SendMove s pid call .await s (.returned m false)
  | violated {call' : SendCall} (h : s.statements pid = some ⟨call', .uniqueViolation⟩) :
    SendMove s pid call .await s .findExisting
  | existing {m : Message} (h : findExisting s call = some m) :
    SendMove s pid call .findExisting s (.returned m true)
  | thrown {pc : SendPc} {e : Thrown} : SendMove s pid call pc s (.thrown e)

variable {pid : ℕ} {call : SendCall} {o : Outcome Thrown}

theorem sendMove_of_step {s s' : ChatState} {pc pc' : SendPc}
    (h : sendStep s pid call pc o = some (s', pc')) : SendMove s pid call pc s' pc' := by
  cases pc with
  | requireParticipant =>
    obtain ⟨rfl, ⟨-, rfl⟩ | ⟨e, -, rfl⟩⟩ := Outcome.read_cases (some.inj h)
    · split
      · exact .thrown
      · refine .authorized (.inl rfl) ?_
        split_ifs
        · exact .inl rfl
        · exact .inr rfl
    · exact .thrown
  | findUpload =>
    obtain ⟨rfl, ⟨-, rfl⟩ | ⟨e, -, rfl⟩⟩ := Outcome.read_cases (some.inj h)
    · split_ifs
      · exact .authorized (.inr rfl) (.inr rfl)
      · exact .thrown
    · exact .thrown
  | submit =>
    cases o <;> cases h
    · exact .submitted (.inl rfl)
    · exact .thrown
    · exact .submitted (.inr ⟨_, rfl⟩)
  | await =>
    cases o with
    | ok =>
      simp only [sendStep] at h
      split at h
      · cases h
        exact .inserted ‹_›
      · cases h
        exact .thrown
      · cases h
        exact .violated ‹_›
      · cases h
        exact .thrown
      · cases h
    | failed e | lost e =>
      cases h
      exact .thrown
  | findExisting =>
    obtain ⟨rfl, ⟨-, rfl⟩ | ⟨e, -, rfl⟩⟩ := Outcome.read_cases (some.inj h)
    · split
      · exact .existing ‹_›
      · exact .thrown
    · exact .thrown
  | returned _ _ | thrown _ => cases h

theorem deleteStep_state {s s' : ChatState} {call : DeleteCall} {pc pc' : DeletePc}
    (h : deleteStep s call pc o = some (s', pc')) :
    s' = s ∨ ∃ id, s' = s.tombstone id call.organizationId := by
  cases pc with
  | findMessage => exact .inl (Outcome.read_cases (some.inj h)).1
  | requireParticipant _ => exact .inl (Outcome.read_cases (some.inj h)).1
  | update message =>
    rcases Outcome.run_effect (some.inj h) with rfl | ⟨-, rfl⟩
    · exact .inl rfl
    · exact .inr ⟨_, rfl⟩
  | returned | thrown _ => cases h

theorem readStep_state {s s' : ChatState} {call : ReadCall} {pc pc' : ReadPc}
    (h : readStep s call pc o = some (s', pc')) : s' = s ∨ s' = (s.setLastRead call).1 := by
  cases pc with
  | requireParticipant => exact .inl (Outcome.read_cases (some.inj h)).1
  | update =>
    rcases Outcome.run_effect (some.inj h) with rfl | ⟨-, rfl⟩
    · exact .inl rfl
    · exact .inr rfl
  | returned _ | thrown _ => cases h

/-! ### What a step does to the tables -/

structure Same (m m' : Message) : Prop where
  id : m'.id = m.id
  organizationId : m'.organizationId = m.organizationId
  conversationId : m'.conversationId = m.conversationId
  senderUserId : m'.senderUserId = m.senderUserId
  seq : m'.seq = m.seq
  clientMessageId : m'.clientMessageId = m.clientMessageId

theorem Same.refl (m : Message) : Same m m := ⟨rfl, rfl, rfl, rfl, rfl, rfl⟩

theorem Same.trans {m m' m'' : Message} (h : Same m m') (h' : Same m' m'') : Same m m'' :=
  ⟨h'.id.trans h.id, h'.organizationId.trans h.organizationId,
    h'.conversationId.trans h.conversationId, h'.senderUserId.trans h.senderUserId,
    h'.seq.trans h.seq, h'.clientMessageId.trans h.clientMessageId⟩

/-- The insert of the call `pid` is refused. -/
inductive Refused (s : ChatState) (pid : ℕ) (call : SendCall) (l : ChatLabel) :
    StatementPhase → Prop
  | noRow : Refused s pid call l (.committed none)
  | violation {c : Conversation} (hl : l = .env (.acquire pid))
    (hc : s.conversations call.conversationId = some c)
    (hviolates : Violates s (call.message pid c)) : Refused s pid call l .uniqueViolation
  | failed {e : Thrown} : Refused s pid call l (.failed e)

/-- A participant has the organization that they had, or that of the conversation. -/
def Joined (s s' : ChatState) : Prop :=
  ∀ k p', s'.participants k = some p' →
    (∃ p, s.participants k = some p ∧ p'.organizationId = p.organizationId) ∨
      ∃ c, s'.conversations k.1 = some c ∧ p'.organizationId = c.organizationId

/-- **What a step does to the conversations, the messages and the inserts.** -/
inductive TableStep (s : ChatState) (l : ChatLabel) (s' : ChatState) : Prop
  | same (hjoined : Joined s s') (hconversations : s'.conversations = s.conversations)
    (hmessages : s'.messages = s.messages) (hlocks : s'.rowLocks = s.rowLocks)
    (hstatements : s'.statements = s.statements)
  | conversation (id : Uuid) (c' : Conversation)
    (hc : (s.conversations id = none ∧ c'.lastSeq = 0) ∨ ∃ c, s.conversations id = some c ∧
      c'.lastSeq = c.lastSeq ∧ c'.organizationId = c.organizationId) (hjoined : Joined s s')
    (hconversations : s'.conversations = s.conversations.set id c')
    (hmessages : s'.messages = s.messages) (hlocks : s'.rowLocks = s.rowLocks)
    (hstatements : s'.statements = s.statements)
  | submitted (pid : ℕ) (call : SendCall) (hl : ∃ c, l = .step pid c)
    (hnew : s.statements pid = none)
    (hs : s' = { s with statements := s.statements.set pid ⟨call, .waiting⟩ })
  | refused (pid : ℕ) (call : SendCall) (phase : StatementPhase)
    (hold : s.statements pid = some ⟨call, .waiting⟩) (hphase : Refused s pid call l phase)
    (hs : s' = s.setPhase pid ⟨call, .waiting⟩ phase)
  | locked (pid : ℕ) (call : SendCall) (c : Conversation)
    (hold : s.statements pid = some ⟨call, .waiting⟩)
    (hc : s.conversations call.conversationId = some c)
    (howner : c.organizationId = call.organizationId)
    (hfree : s.rowLocks call.conversationId = none) (hviolates : ¬ Violates s (call.message pid c))
    (hs : s' = { s.setPhase pid ⟨call, .waiting⟩ (.locked (call.message pid c)) with
      rowLocks := s.rowLocks.set call.conversationId pid })
  | committed (pid : ℕ) (call : SendCall) (m : Message) (c : Conversation)
    (hl : l = .env (.commit pid)) (hold : s.statements pid = some ⟨call, .locked m⟩)
    (hc : s.conversations call.conversationId = some c)
    (hs : s' = { s.setPhase pid ⟨call, .locked m⟩ (.committed (some m)) with
      conversations := s.conversations.set call.conversationId { c with lastSeq := m.seq }
      messages := s.messages ++ [m]
      rowLocks := s.rowLocks.erase call.conversationId })
  | aborted (pid : ℕ) (call : SendCall) (m : Message) (e : Thrown)
    (hold : s.statements pid = some ⟨call, .locked m⟩)
    (hs : s' = { s.setPhase pid ⟨call, .locked m⟩ (.failed e) with
      rowLocks := s.rowLocks.erase call.conversationId })
  | tombstoned (id : ℕ) (organizationId : Option Uuid) (hs : s' = s.tombstone id organizationId)

theorem Joined.of_eq {s s' : ChatState} (h : s'.participants = s.participants) : Joined s s' :=
  fun _ p' hp' => .inl ⟨p', h ▸ hp', rfl⟩

theorem participants_addParticipants {id : Uuid} {organizationId : Option Uuid}
    {k : Uuid × Uuid} {p : Participant} : ∀ {userIds : List Uuid} {s : ChatState},
    (s.addParticipants id organizationId userIds).participants k = some p →
      s.participants k = some p ∨ (k.1 = id ∧ p = { organizationId })
  | [], _, h => .inl h
  | u :: userIds, s, h => by
    have hrest := participants_addParticipants
      (s := { s with participants := s.participants.set (id, u) { organizationId } }) h
    rcases hrest with hp | hp
    · rcases Table.set_eq_some.mp hp with ⟨hk, rfl⟩ | ⟨-, hp⟩
      · exact .inr ⟨congrArg Prod.fst hk, rfl⟩
      · exact .inl hp
    · exact .inr hp

theorem participants_addParticipants_of_ne {id : Uuid} {organizationId : Option Uuid}
    {k : Uuid × Uuid} (hk : k.1 ≠ id) : ∀ {userIds : List Uuid} {s : ChatState},
    (s.addParticipants id organizationId userIds).participants k = s.participants k
  | [], _ => rfl
  | u :: userIds, s => by
    refine (participants_addParticipants_of_ne hk (s :=
      { s with participants := s.participants.set (id, u) { organizationId } })).trans
      (Table.set_of_ne ?_)
    rintro rfl
    exact hk rfl

theorem joined_setLastRead {s : ChatState} {call : ReadCall} :
    Joined s (s.setLastRead call).1 := by
  intro k p' hp'
  unfold ChatState.setLastRead at hp'
  dsimp only at hp'
  rcases s.participants.updateWhere_cases call.key call.Marks
    (fun p => { p with lastReadSeq := call.seq }) with ⟨p, hp, -, he⟩ | ⟨-, he⟩
  · rw [he] at hp'
    rcases Table.set_eq_some.mp hp' with ⟨rfl, rfl⟩ | ⟨-, hp'⟩
    · exact .inl ⟨p, hp, rfl⟩
    · exact .inl ⟨p', hp', rfl⟩
  · rw [he] at hp'
    exact .inl ⟨p', hp', rfl⟩

theorem tableStep_acquire {s s' : ChatState} (h : s.acquire pid = some s') :
    TableStep s (.env (.acquire pid)) s' := by
  unfold ChatState.acquire at h
  split at h
  · rename_i call hold
    split at h
    · cases h
      exact .refused pid call _ hold .noRow rfl
    · rename_i c hc
      split at h
      · cases h
        exact .refused pid call _ hold .noRow rfl
      · rename_i hrow
        split at h
        · cases h
        · rename_i hfree
          dsimp only at h
          split at h
          · cases h
            exact .refused pid call _ hold (.violation rfl hc ‹_›) rfl
          · cases h
            obtain ⟨-, howner⟩ := not_or.mp hrow
            exact .locked pid call c hold hc (not_not.mp howner) (not_not.mp hfree) ‹_› rfl
  · cases h

theorem tableStep_commit {s s' : ChatState} (h : s.commit pid = some s') :
    TableStep s (.env (.commit pid)) s' := by
  unfold ChatState.commit at h
  split at h
  · rename_i call m hold
    split at h
    · cases h
    · rename_i c hc
      cases h
      exact .committed pid call m c rfl hold hc rfl
  · cases h

theorem tableStep_abort {s s' : ChatState} {l : ChatLabel} {e : Thrown}
    (h : s.abort pid e = some s') : TableStep s l s' := by
  unfold ChatState.abort at h
  split at h
  · cases h
    exact .refused pid _ _ ‹_› .failed rfl
  · cases h
    exact .aborted pid _ _ e ‹_› rfl
  · cases h

theorem tableStep_event {s s' : ChatState} {e : Event} (h : event s e = some s') :
    TableStep s (.env e) s' := by
  cases e with
  | tick _ =>
    cases h
    exact .same (.of_eq rfl) rfl rfl rfl rfl
  | createConversation id organizationId _ =>
    simp only [event] at h
    split at h
    · cases h
    · cases h
      refine .conversation id _ (.inl ⟨‹_›, rfl⟩) (fun k p hp => ?_) rfl rfl rfl rfl
      rcases participants_addParticipants hp with hp | ⟨rfl, rfl⟩
      · exact .inl ⟨p, hp, rfl⟩
      · exact .inr ⟨_, Table.set_self, rfl⟩
  | deleteConversation id =>
    simp only [event] at h
    split at h
    · rename_i c hc
      cases h
      exact .conversation id { c with deletedAt := some s.now } (.inr ⟨c, hc, rfl, rfl⟩)
        (.of_eq rfl) rfl rfl rfl rfl
    · cases h
  | setParticipant id _ _ _ =>
    simp only [event] at h
    split at h
    · rename_i c hc
      cases h
      refine .same (fun k p hp => ?_) rfl rfl rfl rfl
      rcases Table.set_eq_some.mp hp with ⟨rfl, rfl⟩ | ⟨-, hp⟩
      · exact .inr ⟨c, hc, rfl⟩
      · exact .inl ⟨p, hp, rfl⟩
    · cases h
  | setUpload _ _ =>
    cases h
    exact .same (.of_eq rfl) rfl rfl rfl rfl
  | acquire pid => exact tableStep_acquire h
  | commit pid => exact tableStep_commit h
  | abort pid e => exact tableStep_abort h

theorem tableStep_step {models : DataModel} {s s' : ChatState} {p p' : Proc} {c : Choice}
    (h : step models s pid p c = some (s', p'))
    (hnew : ∀ call, p = .send call .submit → s.statements pid = none) :
    TableStep s (.step pid c) s' := by
  cases p with
  | send call pc =>
    obtain ⟨pc', hstep, rfl⟩ := map_pair_inj h
    cases sendMove_of_step hstep with
    | submitted _ => exact .submitted pid call ⟨c, rfl⟩ (hnew call rfl) rfl
    | authorized _ _ | inserted _ | violated _ | existing _ | thrown =>
      exact .same (.of_eq rfl) rfl rfl rfl rfl
  | catchUp client pc =>
    obtain ⟨r, -, he⟩ := map_eq_some_iff.mp h
    cases he
    exact .same (.of_eq rfl) rfl rfl rfl rfl
  | delete call pc =>
    obtain ⟨pc', hstep, rfl⟩ := map_pair_inj h
    rcases deleteStep_state hstep with rfl | ⟨id, rfl⟩
    · exact .same (.of_eq rfl) rfl rfl rfl rfl
    · exact .tombstoned id _ rfl
  | read call pc =>
    obtain ⟨pc', hstep, rfl⟩ := map_pair_inj h
    rcases readStep_state hstep with rfl | rfl
    · exact .same (.of_eq rfl) rfl rfl rfl rfl
    · exact .same joined_setLastRead rfl rfl rfl rfl

theorem tableStep_next {models : DataModel} {w w' : ChatWorld} {l : ChatLabel}
    (h : (chat models).next w l = some w')
    (hnew : ∀ pid call, w.proc? pid = some (.send call .submit) → w.shared.statements pid = none) :
    TableStep w.shared l w'.shared := by
  cases Program.move_of_next h with
  | @spawn a s p hs =>
    have hsame : s = w.shared := by
      cases a <;> exact (congrArg Prod.fst (some.inj hs)).symm
    rw [hsame]
    exact .same (.of_eq rfl) rfl rfl rfl rfl
  | step hp hs => exact tableStep_step hs fun call he => hnew _ call (he ▸ hp)
  | crash _ => exact .same (.of_eq rfl) rfl rfl rfl rfl
  | env hs => exact tableStep_event hs

/-! ### The tables -/

/-- The messages of a conversation. -/
def log (s : ChatState) (id : Uuid) : List Message := s.messages.filter (·.conversationId = id)

/-- **What holds of the tables.** -/
structure Tables (s : ChatState) : Prop where
  dense : ∀ id c, s.conversations id = some c → Dense Message.seq (log s id) c.lastSeq
  owner : ∀ m ∈ s.messages, ∃ c, s.conversations m.conversationId = some c ∧
    m.organizationId = c.organizationId
  /-- A statement that has the lock of a conversation will insert its next message. -/
  locked : ∀ pid call m, s.statements pid = some ⟨call, .locked m⟩ →
    s.rowLocks call.conversationId = some pid ∧ ¬ Violates s m ∧
      ∃ c, s.conversations call.conversationId = some c ∧ m = call.message pid c
  /-- A committed message is stored. -/
  inserted : ∀ pid call m, s.statements pid = some ⟨call, .committed (some m)⟩ →
    (∃ c, m = call.message pid c) ∧ ∃ m' ∈ s.messages, Same m m'
  sent : ∀ m ∈ s.messages, ∃ call m₀,
    s.statements m.id = some ⟨call, .committed (some m₀)⟩ ∧ Same m₀ m
  /-- A client's id names one message of a conversation. -/
  unique : ∀ m ∈ s.messages, ∀ m' ∈ s.messages, m.conversationId = m'.conversationId →
    m.clientMessageId = m'.clientMessageId → m.id = m'.id

theorem Tables.init : Tables {} := by
  refine ⟨fun _ _ h => ?_, fun _ h => ?_, fun _ _ _ h => ?_, fun _ _ _ h => ?_, fun _ h => ?_,
    fun _ h => ?_⟩ <;> cases h

variable {s s' : ChatState} {l : ChatLabel}

theorem Tables.same (h : Tables s) (hconversations : s'.conversations = s.conversations)
    (hmessages : s'.messages = s.messages) (hlocks : s'.rowLocks = s.rowLocks)
    (hstatements : s'.statements = s.statements) : Tables s' := by
  obtain ⟨hdense, howner, hlocked, hinserted, hsent, hunique⟩ := h
  refine ⟨?_, ?_, ?_, ?_, ?_, ?_⟩ <;>
    simp only [log, Violates, hconversations, hmessages, hlocks, hstatements]
  all_goals assumption

theorem Tables.conversation (h : Tables s) (id : Uuid) (c' : Conversation)
    (hc : (s.conversations id = none ∧ c'.lastSeq = 0) ∨ ∃ c, s.conversations id = some c ∧
      c'.lastSeq = c.lastSeq ∧ c'.organizationId = c.organizationId)
    (hconversations : s'.conversations = s.conversations.set id c')
    (hmessages : s'.messages = s.messages) (hlocks : s'.rowLocks = s.rowLocks)
    (hstatements : s'.statements = s.statements) : Tables s' := by
  have hkept {id' : Uuid} {c₁ : Conversation} (hget : s.conversations id' = some c₁) :
      ∃ c₂, s'.conversations id' = some c₂ ∧ c₂.lastSeq = c₁.lastSeq ∧
        c₂.organizationId = c₁.organizationId := by
    rw [hconversations]
    by_cases hid : id' = id
    · rw [hid] at hget ⊢
      rcases hc with ⟨hnone, -⟩ | ⟨c₀, hsome, hlast, horganization⟩
      · rw [hnone] at hget
        cases hget
      · obtain rfl := some.inj (hsome.symm.trans hget)
        exact ⟨c', Table.set_self, hlast, horganization⟩
    · exact ⟨c₁, (Table.set_of_ne hid).trans hget, rfl, rfl⟩
  refine ⟨fun id' c hget => ?_, fun m hm => ?_, fun pid call m hlocked => ?_, ?_, ?_, ?_⟩
  · rw [hconversations] at hget
    simp only [log, hmessages]
    rcases Table.set_eq_some.mp hget with ⟨rfl, rfl⟩ | ⟨-, hget⟩
    · rcases hc with ⟨hnone, hzero⟩ | ⟨c₀, hsome, hlast, -⟩
      · -- no message can be of a conversation that does not exist
        have hempty : s.messages.filter (·.conversationId = id') = [] := by
          rw [List.filter_eq_nil_iff]
          intro m hm hid
          obtain ⟨c₁, hc₁, -⟩ := h.owner m hm
          rw [of_decide_eq_true hid, hnone] at hc₁
          cases hc₁
        rw [hempty, hzero]
        rfl
      · rw [hlast]
        exact h.dense id' c₀ hsome
    · exact h.dense id' c hget
  · rw [hmessages] at hm
    obtain ⟨c₁, hc₁, howner⟩ := h.owner m hm
    obtain ⟨c₂, hc₂, -, horganization⟩ := hkept hc₁
    exact ⟨c₂, hc₂, howner.trans horganization.symm⟩
  · rw [hstatements] at hlocked
    obtain ⟨hrow, hviolates, c₁, hc₁, hm⟩ := h.locked pid call m hlocked
    obtain ⟨c₂, hc₂, hlast, horganization⟩ := hkept hc₁
    refine ⟨hlocks ▸ hrow, by simpa only [Violates, hmessages] using hviolates, c₂, hc₂, ?_⟩
    rw [hm, SendCall.message, SendCall.message, hlast, horganization]
  · simpa only [hmessages, hstatements] using h.inserted
  · simpa only [hmessages, hstatements] using h.sent
  · simpa only [hmessages] using h.unique

/-- A phase in which a statement neither has a lock nor has inserted a message. -/
def Idle : StatementPhase → Prop
  | .locked _ | .committed (some _) => False
  | _ => True

theorem Tables.idle (h : Tables s) {statement : Statement}
    (hold : ∀ st, s.statements pid = some st → Idle st.phase) (hnew : Idle statement.phase) :
    Tables { s with statements := s.statements.set pid statement } := by
  have hkept {pid' : ℕ} {st : Statement} (hphase : ¬ Idle st.phase) :
      s.statements.set pid statement pid' = some st ↔ s.statements pid' = some st := by
    rw [Table.set_eq_some]
    constructor
    · rintro (⟨-, rfl⟩ | ⟨-, hget⟩)
      · exact absurd hnew hphase
      · exact hget
    · intro hget
      refine .inr ⟨?_, hget⟩
      rintro rfl
      exact hphase (hold st hget)
  refine ⟨h.dense, h.owner, fun pid' call m hlocked => ?_, fun pid' call m hcommitted => ?_,
    fun m hm => ?_, h.unique⟩
  · exact h.locked pid' call m ((hkept id).mp hlocked)
  · exact h.inserted pid' call m ((hkept id).mp hcommitted)
  · obtain ⟨call, m₀, hcommitted, hsame⟩ := h.sent m hm
    exact ⟨call, m₀, (hkept id).mpr hcommitted, hsame⟩

variable {m : Message}

/-- A stored message was committed by another statement than one that has not committed. -/
theorem Tables.sent_set (h : Tables s) {old new : Statement} (hold : s.statements pid = some old)
    (hphase : ∀ m₀, old.phase ≠ .committed (some m₀)) (hm : m ∈ s.messages) : ∃ call m₀,
      s.statements.set pid new m.id = some ⟨call, .committed (some m₀)⟩ ∧ Same m₀ m := by
  obtain ⟨call, m₀, hcommitted, hsame⟩ := h.sent m hm
  have hne : m.id ≠ pid := by
    intro he
    rw [he, hold] at hcommitted
    exact hphase m₀ (congrArg Statement.phase (some.inj hcommitted))
  exact ⟨call, m₀, (Table.set_of_ne hne).trans hcommitted, hsame⟩

variable {c : Conversation}

theorem Tables.lock (h : Tables s) (hold : s.statements pid = some ⟨call, .waiting⟩)
    (hc : s.conversations call.conversationId = some c)
    (hfree : s.rowLocks call.conversationId = none)
    (hviolates : ¬ Violates s (call.message pid c)) : Tables { s with
      statements := s.statements.set pid ⟨call, .locked (call.message pid c)⟩
      rowLocks := s.rowLocks.set call.conversationId pid } := by
  refine ⟨h.dense, h.owner, fun pid' call' m hlocked => ?_, fun pid' call' m hcommitted => ?_,
    fun m hm => ?_, h.unique⟩
  · rcases Table.set_eq_some.mp hlocked with ⟨rfl, he⟩ | ⟨-, hlocked⟩
    · cases he
      exact ⟨Table.set_self, hviolates, c, hc, rfl⟩
    · obtain ⟨hrow, hrest⟩ := h.locked pid' call' m hlocked
      have hne : call'.conversationId ≠ call.conversationId := by
        intro he
        rw [he, hfree] at hrow
        cases hrow
      exact ⟨(Table.set_of_ne hne).trans hrow, hrest⟩
  · rcases Table.set_eq_some.mp hcommitted with ⟨rfl, he⟩ | ⟨-, hcommitted⟩
    · cases he
    · exact h.inserted pid' call' m hcommitted
  · exact h.sent_set hold nofun hm

theorem Tables.abort (h : Tables s) {m₁ : Message} {e : Thrown}
    (hold : s.statements pid = some ⟨call, .locked m₁⟩) : Tables { s with
      statements := s.statements.set pid ⟨call, .failed e⟩
      rowLocks := s.rowLocks.erase call.conversationId } := by
  have hrow₁ := (h.locked pid call m₁ hold).1
  refine ⟨h.dense, h.owner, fun pid' call' m hlocked => ?_, fun pid' call' m hcommitted => ?_,
    fun m hm => ?_, h.unique⟩
  · rcases Table.set_eq_some.mp hlocked with ⟨-, he⟩ | ⟨hpid, hlocked⟩
    · cases he
    · obtain ⟨hrow, hrest⟩ := h.locked pid' call' m hlocked
      have hne : call'.conversationId ≠ call.conversationId := by
        intro he
        rw [he, hrow₁] at hrow
        exact hpid (some.inj hrow).symm
      exact ⟨(Table.erase_of_ne hne).trans hrow, hrest⟩
  · rcases Table.set_eq_some.mp hcommitted with ⟨-, he⟩ | ⟨-, hcommitted⟩
    · cases he
    · exact h.inserted pid' call' m hcommitted
  · exact h.sent_set hold nofun hm

/-- **A statement commits its message**: the next one of its conversation. -/
theorem Tables.commit (h : Tables s) {m₁ : Message}
    (hold : s.statements pid = some ⟨call, .locked m₁⟩)
    (hc : s.conversations call.conversationId = some c) : Tables { s with
      statements := s.statements.set pid ⟨call, .committed (some m₁)⟩
      conversations := s.conversations.set call.conversationId { c with lastSeq := m₁.seq }
      messages := s.messages ++ [m₁]
      rowLocks := s.rowLocks.erase call.conversationId } := by
  obtain ⟨hrow₁, hviolates₁, c₁, hc₁, rfl⟩ := h.locked pid call m₁ hold
  obtain rfl := some.inj (hc.symm.trans hc₁)
  have hnew {m : Message} (hm : m ∈ s.messages ++ [call.message pid c]) :
      m ∈ s.messages ∨ m = call.message pid c := by simpa using hm
  refine ⟨fun id c' hget => ?_, fun m hm => ?_, fun pid' call' m hlocked => ?_,
    fun pid' call' m hcommitted => ?_, fun m hm => ?_, fun m hm m' hm' hconversation hclient => ?_⟩
  · rw [log, List.filter_append]
    rcases Table.set_eq_some.mp hget with ⟨rfl, rfl⟩ | ⟨hne, hget⟩
    · have hlast : [call.message pid c].filter (·.conversationId = call.conversationId) =
          [call.message pid c] := by simp [SendCall.message]
      rw [hlast]
      exact (h.dense _ c hc).append rfl
    · have hlast : [call.message pid c].filter (·.conversationId = id) = [] := by
        simp [SendCall.message, Ne.symm hne]
      rw [hlast, List.append_nil]
      exact h.dense id c' hget
  · rcases hnew hm with hm | rfl
    · obtain ⟨c', hc', howner⟩ := h.owner m hm
      by_cases he : m.conversationId = call.conversationId
      · rw [he] at hc' ⊢
        obtain rfl := some.inj (hc.symm.trans hc')
        exact ⟨_, Table.set_self, howner⟩
      · exact ⟨c', (Table.set_of_ne he).trans hc', howner⟩
    · exact ⟨_, Table.set_self, rfl⟩
  · rcases Table.set_eq_some.mp hlocked with ⟨-, he⟩ | ⟨hpid, hlocked⟩
    · cases he
    · obtain ⟨hrow, hviolates, c', hc', rfl⟩ := h.locked pid' call' m hlocked
      have hne : call'.conversationId ≠ call.conversationId := by
        intro he
        rw [he, hrow₁] at hrow
        exact hpid (some.inj hrow).symm
      refine ⟨(Table.erase_of_ne hne).trans hrow, ?_, c', (Table.set_of_ne hne).trans hc', rfl⟩
      rintro ⟨m, hm, hconversation, hclash⟩
      rcases hnew hm with hm | rfl
      · exact hviolates ⟨m, hm, hconversation, hclash⟩
      · exact hne hconversation.symm
  · rcases Table.set_eq_some.mp hcommitted with ⟨rfl, he⟩ | ⟨-, hcommitted⟩
    · cases he
      exact ⟨⟨c, rfl⟩, _, List.mem_append_right _ List.mem_cons_self, Same.refl _⟩
    · obtain ⟨hmessage, m', hm', hsame⟩ := h.inserted pid' call' m hcommitted
      exact ⟨hmessage, m', List.mem_append_left _ hm', hsame⟩
  · rcases hnew hm with hm | rfl
    · exact h.sent_set hold nofun hm
    · exact ⟨call, _, Table.set_self, Same.refl _⟩
  · rcases hnew hm with hm | rfl <;> rcases hnew hm' with hm' | rfl
    · exact h.unique m hm m' hm' hconversation hclient
    · exact absurd ⟨m, hm, hconversation, .inr hclient⟩ hviolates₁
    · exact absurd ⟨m', hm', hconversation.symm, .inr hclient.symm⟩ hviolates₁
    · rfl

theorem same_tombstone (id : ℕ) (organizationId : Option Uuid) (m : Message) :
    Same m (if m.id = id ∧ OrganizationFilter organizationId m.organizationId then
      { m with deletedAt := some s.now, body := none, uploadId := none } else m) := by
  split_ifs
  · exact ⟨rfl, rfl, rfl, rfl, rfl, rfl⟩
  · exact Same.refl m

theorem Tables.map (h : Tables s) {f : Message → Message} (hf : ∀ m, Same m (f m)) :
    Tables { s with messages := s.messages.map f } := by
  have hviolates {m : Message} :
      Violates { s with messages := s.messages.map f } m ↔ Violates s m := by
    simp only [Violates, List.mem_map, exists_exists_and_eq_and, (hf _).conversationId,
      (hf _).seq, (hf _).clientMessageId]
  refine ⟨fun id c hget => ?_, fun m hm => ?_, fun pid call m hlocked => ?_,
    fun pid call m hcommitted => ?_, fun m hm => ?_, fun m hm m' hm' hconversation hclient => ?_⟩
  · have hlog : (s.messages.map f).filter (·.conversationId = id) = (log s id).map f := by
      rw [log, List.filter_map]
      congr 1
      exact List.filter_congr fun m _ => by simp [(hf m).conversationId]
    rw [log, hlog]
    exact (h.dense id c hget).map fun m _ => (hf m).seq
  · obtain ⟨m₀, hm₀, rfl⟩ := List.mem_map.mp hm
    rw [(hf m₀).conversationId, (hf m₀).organizationId]
    exact h.owner m₀ hm₀
  · rw [hviolates]
    exact h.locked pid call m hlocked
  · obtain ⟨hmessage, m', hm', hsame⟩ := h.inserted pid call m hcommitted
    exact ⟨hmessage, f m', List.mem_map_of_mem hm', hsame.trans (hf m')⟩
  · obtain ⟨m₀, hm₀, rfl⟩ := List.mem_map.mp hm
    rw [(hf m₀).id]
    obtain ⟨call, m₁, hcommitted, hsame⟩ := h.sent m₀ hm₀
    exact ⟨call, m₁, hcommitted, hsame.trans (hf m₀)⟩
  · obtain ⟨m₀, hm₀, rfl⟩ := List.mem_map.mp hm
    obtain ⟨m₁, hm₁, rfl⟩ := List.mem_map.mp hm'
    rw [(hf m₀).conversationId, (hf m₁).conversationId] at hconversation
    rw [(hf m₀).clientMessageId, (hf m₁).clientMessageId] at hclient
    rw [(hf m₀).id, (hf m₁).id]
    exact h.unique m₀ hm₀ m₁ hm₁ hconversation hclient

/-- **A step keeps the tables.** -/
theorem Tables.step (h : Tables s) (hstep : TableStep s l s') : Tables s' := by
  cases hstep with
  | same _ hconversations hmessages hlocks hstatements =>
    exact h.same hconversations hmessages hlocks hstatements
  | conversation id c' hc _ hconversations hmessages hlocks hstatements =>
    exact h.conversation id c' hc hconversations hmessages hlocks hstatements
  | submitted pid call hl hnew hs =>
    subst hs
    refine h.idle (fun st hst => ?_) trivial
    rw [hnew] at hst
    cases hst
  | refused pid call phase hold hphase hs =>
    subst hs
    refine h.idle (fun st hst => ?_) ?_
    · obtain rfl := some.inj (hold.symm.trans hst)
      trivial
    · cases hphase <;> trivial
  | locked pid call c hold hc howner hfree hviolates hs =>
    subst hs
    exact h.lock hold hc hfree hviolates
  | committed pid call m c hl hold hc hs =>
    subst hs
    exact h.commit hold hc
  | aborted pid call m e hold hs =>
    subst hs
    exact h.abort hold
  | tombstoned id organizationId hs =>
    subst hs
    exact h.map (same_tombstone id organizationId)

/-! ### What a step keeps -/

def Final : StatementPhase → Prop
  | .waiting | .locked _ => False
  | _ => True

theorem statements_setPhase {pid i : ℕ} {call call' : SendCall} {phase phase' phase₁ : StatementPhase}
    (hold : s.statements pid = some ⟨call, phase⟩) (hphase : ¬ Final phase)
    (h : s.statements i = some ⟨call', phase₁⟩) :
    ∃ phase₂, s.statements.set pid ⟨call, phase'⟩ i = some ⟨call', phase₂⟩ ∧
      (Final phase₁ → phase₂ = phase₁) := by
  by_cases hi : i = pid
  · rw [hi, hold] at h
    cases h
    exact ⟨phase', by rw [hi, Table.set_self], fun hfinal => absurd hfinal hphase⟩
  · exact ⟨phase₁, (Table.set_of_ne hi).trans h, fun _ => rfl⟩

variable {i : ℕ}

theorem TableStep.statement (h : TableStep s l s') {phase : StatementPhase}
    (hi : s.statements i = some ⟨call, phase⟩) :
    ∃ phase', s'.statements i = some ⟨call, phase'⟩ ∧ (Final phase → phase' = phase) := by
  cases h with
  | same _ _ _ _ hstatements | conversation _ _ _ _ _ _ _ hstatements =>
    exact ⟨phase, hstatements ▸ hi, fun _ => rfl⟩
  | submitted pid call' _ hnew hs =>
    subst hs
    have hne : i ≠ pid := by
      rintro rfl
      rw [hnew] at hi
      cases hi
    exact ⟨phase, (Table.set_of_ne hne).trans hi, fun _ => rfl⟩
  | refused pid call' phase' hold _ hs =>
    subst hs
    exact statements_setPhase hold id hi
  | locked pid call' c hold _ _ _ _ hs =>
    subst hs
    exact statements_setPhase hold id hi
  | committed pid call' m c _ hold _ hs =>
    subst hs
    exact statements_setPhase hold id hi
  | aborted pid call' m e hold hs =>
    subst hs
    exact statements_setPhase hold id hi
  | tombstoned _ _ hs =>
    subst hs
    exact ⟨phase, hi, fun _ => rfl⟩

theorem statements_set_none {pid i : ℕ} {st st' : Statement} (hold : s.statements pid = some st)
    (h : s.statements i = none) : s.statements.set pid st' i = none := by
  refine (Table.set_of_ne ?_).trans h
  rintro rfl
  rw [hold] at h
  cases h

theorem TableStep.statement_none (h : TableStep s l s') (hi : s.statements i = none)
    (hl : ∀ c, l ≠ .step i c) : s'.statements i = none := by
  cases h with
  | same _ _ _ _ hstatements | conversation _ _ _ _ _ _ _ hstatements => exact hstatements ▸ hi
  | submitted pid call hpid hnew hs =>
    subst hs
    obtain ⟨c, rfl⟩ := hpid
    refine (Table.set_of_ne ?_).trans hi
    rintro rfl
    exact hl c rfl
  | refused pid call phase hold _ hs =>
    subst hs
    exact statements_set_none hold hi
  | locked pid call c hold _ _ _ _ hs =>
    subst hs
    exact statements_set_none hold hi
  | committed pid call m c _ hold _ hs =>
    subst hs
    exact statements_set_none hold hi
  | aborted pid call m e hold hs =>
    subst hs
    exact statements_set_none hold hi
  | tombstoned _ _ hs =>
    subst hs
    exact hi

theorem TableStep.message (h : TableStep s l s') (hm : m ∈ s.messages) :
    ∃ m' ∈ s'.messages, Same m m' := by
  cases h with
  | same _ _ hmessages _ _ | conversation _ _ _ _ _ hmessages _ _ =>
    exact ⟨m, hmessages ▸ hm, Same.refl m⟩
  | submitted _ _ _ _ hs | refused _ _ _ _ _ hs | locked _ _ _ _ _ _ _ _ hs | aborted _ _ _ _ _ hs =>
    subst hs
    exact ⟨m, hm, Same.refl m⟩
  | committed pid call m₁ c _ _ _ hs =>
    subst hs
    exact ⟨m, List.mem_append_left _ hm, Same.refl m⟩
  | tombstoned id organizationId hs =>
    subst hs
    exact ⟨_, List.mem_map_of_mem hm, same_tombstone id organizationId m⟩

theorem TableStep.joined (h : TableStep s l s') : Joined s s' := by
  cases h with
  | same hjoined _ _ _ _ | conversation _ _ _ hjoined _ _ _ _ => exact hjoined
  | submitted _ _ _ _ hs | refused _ _ _ _ _ hs | locked _ _ _ _ _ _ _ _ hs
    | committed _ _ _ _ _ _ _ hs | aborted _ _ _ _ _ hs | tombstoned _ _ hs =>
    subst hs
    exact .of_eq rfl

theorem TableStep.messages (h : TableStep s l s') (ht : Tables s) {m' : Message}
    (hm' : m' ∈ s'.messages) :
    m' ∈ s.messages ∨ m'.deletedAt = none ∨ (m'.body = none ∧ m'.uploadId = none) := by
  cases h with
  | same _ _ hmessages _ _ | conversation _ _ _ _ _ hmessages _ _ => exact .inl (hmessages ▸ hm')
  | submitted _ _ _ _ hs | refused _ _ _ _ _ hs | locked _ _ _ _ _ _ _ _ hs
    | aborted _ _ _ _ _ hs =>
    subst hs
    exact .inl hm'
  | committed pid call m c _ hold _ hs =>
    subst hs
    rcases List.mem_append.mp hm' with hm' | hm'
    · exact .inl hm'
    · obtain ⟨-, -, c', -, rfl⟩ := ht.locked pid call m hold
      rw [List.mem_singleton.mp hm']
      exact .inr (.inl rfl)
  | tombstoned id organizationId hs =>
    subst hs
    obtain ⟨m, hm, rfl⟩ := List.mem_map.mp hm'
    split_ifs
    · exact .inr (.inr ⟨rfl, rfl⟩)
    · exact .inl hm

/-- **The counter of a conversation** changes at the commit of its next message only. -/
theorem TableStep.counter (h : TableStep s l s') (ht : Tables s) {id : Uuid}
    (hc : s.conversations id = some c) :
    ∃ c', s'.conversations id = some c' ∧ c'.organizationId = c.organizationId ∧
      (c'.lastSeq = c.lastSeq ∨ ∃ pid m, l = .env (.commit pid) ∧ m.id = pid ∧
        m.conversationId = id ∧ c'.lastSeq = c.lastSeq + 1 ∧ m.seq = c'.lastSeq ∧
        s'.messages = s.messages ++ [m]) := by
  cases h with
  | same _ hconversations _ _ _ => exact ⟨c, hconversations ▸ hc, rfl, .inl rfl⟩
  | conversation id' c' hc' _ hconversations _ _ _ =>
    by_cases hid : id = id'
    · subst hid
      rcases hc' with ⟨hnone, -⟩ | ⟨c₁, hc₁, hlast, horganization⟩
      · rw [hnone] at hc
        cases hc
      · obtain rfl := some.inj (hc₁.symm.trans hc)
        exact ⟨c', by rw [hconversations, Table.set_self], horganization, .inl hlast⟩
    · exact ⟨c, by rw [hconversations, Table.set_of_ne hid, hc], rfl, .inl rfl⟩
  | submitted _ _ _ _ hs | refused _ _ _ _ _ hs | locked _ _ _ _ _ _ _ _ hs | aborted _ _ _ _ _ hs
    | tombstoned _ _ hs =>
    subst hs
    exact ⟨c, hc, rfl, .inl rfl⟩
  | committed pid call m c₁ hl hold hc₁ hs =>
    subst hs
    by_cases hid : id = call.conversationId
    · subst hid
      obtain rfl := some.inj (hc₁.symm.trans hc)
      obtain ⟨-, -, c₂, hc₂, rfl⟩ := ht.locked pid call m hold
      obtain rfl := some.inj (hc₂.symm.trans hc)
      exact ⟨_, Table.set_self, rfl, .inr ⟨pid, _, hl, rfl, rfl, rfl, rfl, rfl⟩⟩
    · exact ⟨c, (Table.set_of_ne hid).trans hc, rfl, .inl rfl⟩

/-! ### The sends -/

/-- What holds of a send: how far its insert has come, and what it may return. -/
def SendOk (s : ChatState) (i : ℕ) (call : SendCall) : SendPc → Prop
  | .requireParticipant | .findUpload | .submit => s.statements i = none
  | .await => ∃ phase, s.statements i = some ⟨call, phase⟩
  | .findExisting => s.statements i = some ⟨call, .uniqueViolation⟩
  | .returned m false => s.statements i = some ⟨call, .committed (some m)⟩
  | .returned m true => s.statements i = some ⟨call, .uniqueViolation⟩ ∧
      m.conversationId = call.conversationId ∧ m.clientMessageId = call.input.clientMessageId ∧
      ∃ m' ∈ s.messages, Same m m'
  | .thrown _ => True

theorem TableStep.final (h : TableStep s l s') {phase : StatementPhase}
    (hi : s.statements i = some ⟨call, phase⟩) (hfinal : Final phase) :
    s'.statements i = some ⟨call, phase⟩ := by
  obtain ⟨phase', hi', hphase⟩ := h.statement hi
  rw [hi', hphase hfinal]

theorem SendOk.kept {pc : SendPc} (h : SendOk s i call pc) (hstep : TableStep s l s')
    (hl : ∀ c, l ≠ .step i c) : SendOk s' i call pc := by
  cases pc with
  | requireParticipant | findUpload | submit => exact hstep.statement_none h hl
  | await =>
    obtain ⟨phase, hi⟩ := h
    obtain ⟨phase', hi', -⟩ := hstep.statement hi
    exact ⟨phase', hi'⟩
  | findExisting => exact hstep.final h trivial
  | returned m duplicate =>
    cases duplicate with
    | false => exact hstep.final h trivial
    | true =>
      obtain ⟨hi, hconversation, hclient, m', hm', hsame⟩ := h
      obtain ⟨m'', hm'', hsame'⟩ := hstep.message hm'
      exact ⟨hstep.final hi trivial, hconversation, hclient, m'', hm'', hsame.trans hsame'⟩
  | thrown e => trivial

theorem of_findExisting (h : findExisting s call = some m) :
    m ∈ s.messages ∧ m.conversationId = call.conversationId ∧
      m.clientMessageId = call.input.clientMessageId := by
  have hm := List.find?_some h
  exact ⟨List.mem_of_find?_eq_some h, (of_decide_eq_true hm).2⟩

/-- **A step of a send.** -/
theorem SendOk.move {pc pc' : SendPc} (h : SendOk s i call pc)
    (hmove : SendMove s i call pc s' pc') : SendOk s' i call pc' := by
  have known {call' : SendCall} {phase : StatementPhase} (hawait : SendOk s i call .await)
      (hi : s.statements i = some ⟨call', phase⟩) : s.statements i = some ⟨call, phase⟩ := by
    obtain ⟨phase', hi'⟩ := hawait
    rw [hi] at hi'
    cases hi'
    exact hi
  cases hmove with
  | authorized hpc hpc' =>
    have hnone : s.statements i = none := by rcases hpc with rfl | rfl <;> exact h
    rcases hpc' with rfl | rfl <;> exact hnone
  | submitted hpc' =>
    rcases hpc' with rfl | ⟨e, rfl⟩
    · exact ⟨_, Table.set_self⟩
    · trivial
  | inserted hi => exact known h hi
  | violated hi => exact known h hi
  | existing hfound =>
    obtain ⟨hm, hconversation, hclient⟩ := of_findExisting hfound
    exact ⟨h, hconversation, hclient, _, hm, Same.refl _⟩
  | thrown => trivial

def ProcOk (i : ℕ) (p : Proc) (s : ChatState) : Prop :=
  match p with
  | .send call pc => SendOk s i call pc
  | _ => True

def assertions : Assertions ChatState Proc where
  shared := Tables
  proc := ProcOk

/-- Only a call that has started has an insert. -/
def Started (w : ChatWorld) : Prop := ∀ i, w.shared.statements i ≠ none → i < w.fresh

variable {models : DataModel} {w w' : ChatWorld}

theorem ProcOk.kept {p : Proc} (h : ProcOk i p s) (hstep : TableStep s l s')
    (hl : ∀ c, l ≠ .step i c) : ProcOk i p s' := by
  cases p with
  | send call pc => exact SendOk.kept h hstep hl
  | catchUp _ _ | delete _ _ | read _ _ => trivial

theorem ProcOk.step {p p' : Proc} {c : Choice} (h : ProcOk i p s)
    (hs : step models s i p c = some (s', p')) : ProcOk i p' s' := by
  cases p with
  | send call pc =>
    obtain ⟨pc', hstep, rfl⟩ := map_pair_inj hs
    exact SendOk.move h (sendMove_of_step hstep)
  | catchUp _ _ | delete _ _ | read _ _ =>
    obtain ⟨r, -, he⟩ := map_eq_some_iff.mp hs
    cases he
    trivial

theorem new_of_holds (h : assertions.Holds w) {p : Proc} (hp : w.proc? i = some p) :
    ∀ call, p = .send call .submit → w.shared.statements i = none := by
  rintro call rfl
  exact h.proc i _ hp

theorem outline : Outline (chat models) (fun w _ => Started w) assertions where
  init := Tables.init
  env w e s h _ he := by
    have hstep := tableStep_event he
    exact ⟨h.shared.step hstep, fun j q hq => (h.proc j q hq).kept hstep fun _ he => nomatch he⟩
  spawn w a s p h hstarted hs := by
    have hnone : w.shared.statements w.fresh = none := by
      by_contra hne
      exact (hstarted w.fresh hne).ne rfl
    have hspawn : s = w.shared ∧ ProcOk w.fresh p w.shared := by
      cases a with
      | send call =>
        cases some.inj hs
        exact ⟨rfl, hnone⟩
      | catchUp _ _ _ _ | delete _ | read _ =>
        cases some.inj hs
        exact ⟨rfl, trivial⟩
    obtain ⟨rfl, hproc⟩ := hspawn
    exact ⟨h.shared, hproc, fun j q hq => ⟨h.proc j q hq, trivial, trivial⟩⟩
  step w i p c s p' h hp _ hs :=
    ⟨h.shared.step (tableStep_step hs (new_of_holds h hp)), (h.proc i p hp).step hs⟩
  frame w i p c s p' h hp _ hs j q hj hq := by
    have hstep := tableStep_step hs (new_of_holds h hp)
    refine ⟨(h.proc j q hq).kept hstep ?_, trivial, trivial⟩
    rintro c' hl
    cases hl
    exact hj rfl

theorem Started.next (h : Started w) (hstep : TableStep w.shared l w'.shared)
    (hn : (chat models).next w l = some w') : Started w' := by
  intro i hi
  by_cases hold : w.shared.statements i = none
  · -- the insert is submitted in this step, by the call itself
    by_cases hl : ∃ c, l = .step i c
    · obtain ⟨c, rfl⟩ := hl
      cases Program.move_of_next hn with
      | step hp hs =>
        rw [World.fresh_put]
        exact World.lt_fresh hp
    · exact absurd (hstep.statement_none hold (not_exists.mp hl)) hi
  · have hlt := h i hold
    cases Program.move_of_next hn with
    | spawn hs =>
      rw [World.fresh_add]
      omega
    | step hp hs => rwa [World.fresh_put]
    | crash hp => rwa [World.fresh_kill]
    | env hs => exact hlt

/-- **What holds in every run.** -/
theorem holds (h : Reachable (chat models).system w) : assertions.Holds w ∧ Started w := by
  refine h.invariant (I := fun w => assertions.Holds w ∧ Started w) (fun w hw => ?_)
    (fun w w' l hw _ hn => ?_)
  · obtain rfl : w = ⟨{}, []⟩ := hw
    exact ⟨⟨Tables.init, by simp [World.proc?], by simp [World.proc?]⟩, fun i hi => absurd rfl hi⟩
  · obtain ⟨hholds, hstarted⟩ := hw
    have hstep := tableStep_next hn fun i call hp => hholds.proc i _ hp
    exact ⟨outline.step_holds hholds hstarted hn, hstarted.next hstep hn⟩

theorem tableStep (h : Reachable (chat models).system w) (hn : (chat models).next w l = some w') :
    TableStep w.shared l w'.shared :=
  tableStep_next hn fun i _ hp => (holds h).1.proc i _ hp

/-! ### The sequence -/

/-- The insert of the call has not been committed, and will not be. -/
def Refuted (s : ChatState) (i : ℕ) : Prop :=
  ∃ call phase, s.statements i = some ⟨call, phase⟩ ∧
    (phase = .uniqueViolation ∨ phase = .committed none ∨ ∃ e, phase = .failed e)

/-- A call that is a duplicate, or whose insert has failed, has taken no number. -/
theorem Tables.not_stored (h : Tables s) (hi : Refuted s i) : ∀ m ∈ s.messages, m.id ≠ i := by
  rintro m hm rfl
  obtain ⟨call, phase, hphase, hrefuted⟩ := hi
  obtain ⟨call', m₀, hsent, -⟩ := h.sent m hm
  rw [hphase] at hsent
  cases hsent
  rcases hrefuted with hrefuted | hrefuted | ⟨e, hrefuted⟩ <;> cases hrefuted

theorem refuted_of_duplicate (h : SendOk s i call (.returned m true)) : Refuted s i :=
  ⟨call, .uniqueViolation, h.1, .inl rfl⟩

/-- **The sequence of a conversation is dense.** In every state reached the messages of a
conversation have the numbers `1, …, lastSeq`, each once; a call that returned a duplicate, or whose
insert failed, has inserted no message; and a step changes the counter only if it commits the insert
of a message, by one, to the number of that message. A stored message stays. -/
theorem sequence_dense (h : Reachable (chat models).system w) :
    (∀ id c, w.shared.conversations id = some c →
      (log w.shared id).map (·.seq) = List.range' 1 c.lastSeq) ∧
    (∀ i, (Refuted w.shared i ∨ ∃ call m, w.proc? i = some (.send call (.returned m true))) →
      ∀ m ∈ w.shared.messages, m.id ≠ i) ∧
    ∀ l w', (chat models).next w l = some w' → ∀ id c, w.shared.conversations id = some c →
      (∃ c', w'.shared.conversations id = some c' ∧
        (c'.lastSeq = c.lastSeq ∨ ∃ i m, l = .env (.commit i) ∧ m.id = i ∧
          m.conversationId = id ∧ c'.lastSeq = c.lastSeq + 1 ∧ m.seq = c'.lastSeq ∧
          w'.shared.messages = w.shared.messages ++ [m])) ∧
      ∀ m ∈ w.shared.messages, ∃ m' ∈ w'.shared.messages, Same m m' := by
  have hok := (holds h).1
  refine ⟨hok.shared.dense, fun i hi => ?_, fun l w' hn id c hc => ?_⟩
  · refine hok.shared.not_stored ?_
    rcases hi with hi | ⟨call, m, hp⟩
    · exact hi
    · exact refuted_of_duplicate (hok.proc i _ hp)
  · have hstep := tableStep h hn
    obtain ⟨c', hc', -, hcounter⟩ := hstep.counter hok.shared hc
    exact ⟨⟨c', hc', hcounter⟩, fun m hm => hstep.message hm⟩

def exampleSend : SendCall where
  conversationId := "c"
  userId := "u"
  input := { clientMessageId := "message1", body := some "hi" }

/-- A send and its retry, and the deletion of the message. -/
def exampleRetry : List ChatLabel :=
  [.env (.createConversation "c" none ["u"]), .spawn (.send exampleSend), .step 0 {}, .step 0 {},
    .env (.acquire 0), .env (.commit 0), .step 0 {}, .spawn (.send exampleSend), .step 1 {},
    .step 1 {}, .env (.acquire 1), .step 1 {}, .step 1 {},
    .spawn (.delete { messageId := 0, userId := "u" }), .step 2 {}, .step 2 {}, .step 2 {}]

theorem sequence_dense_retry : ∃ w : ChatWorld,
    (w.proc? 1 = some (.send exampleSend (.returned (exampleSend.message 0 ⟨none, 0, none⟩) true)) ∧
      w.shared.messages.map (·.deletedAt) = [some 0]) ∧
    (∀ m ∈ w.shared.messages, m.id ≠ 1) ∧
    ∀ c, w.shared.conversations "c" = some c →
      (log w.shared "c").map (·.seq) = List.range' 1 c.lastSeq := by
  obtain ⟨w, hw, hretry⟩ := (chat []).exists_reached anyStep exampleRetry
    (fun w => w.proc? 1 =
        some (.send exampleSend (.returned (exampleSend.message 0 ⟨none, 0, none⟩) true)) ∧
      w.shared.messages.map (·.deletedAt) = [some 0]) (by decide)
  obtain ⟨hdense, hduplicate, -⟩ := sequence_dense hw
  exact ⟨w, hretry, hduplicate 1 (.inr ⟨_, _, hretry.1⟩), hdense "c"⟩

end BackendFoundation.Chat.Sequence
