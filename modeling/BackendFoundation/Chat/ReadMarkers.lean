import BackendFoundation.Chat.Sequence

/-! # Read markers

`markRead` compares the number it is given with the marker that it has read, and writes it in a later
statement. A marker is never above the counter of its conversation, and a call returns at least the
number that it acknowledged; but two calls that have both passed the comparison may write their
numbers in either order. A marker goes back exactly if a call finds, at its update, a marker that is
above its number (`InOrder`).

Main result: `read_markers`. -/

namespace BackendFoundation.Chat.ReadMarkers

open Errors Lib Lib.Runs Lib.Interleave Tenancy.TenantScope Chat.Model Chat.Sequence
open Option (some.inj map_eq_some_iff)

/-! ### What a step does to the markers -/

/-- No marker is above the counter of its conversation. -/
def Bounded (s : ChatState) : Prop :=
  ∀ k p, s.participants k = some p →
    ∃ c, s.conversations k.1 = some c ∧ p.lastReadSeq ≤ c.lastSeq

/-- The markers stay as they are, and a new participant has read nothing. -/
structure Kept (s s' : ChatState) : Prop where
  old : ∀ k p, s.participants k = some p →
    ∃ p', s'.participants k = some p' ∧ p'.lastReadSeq = p.lastReadSeq
  new : ∀ k p', s'.participants k = some p' →
    (∃ p, s.participants k = some p ∧ p'.lastReadSeq = p.lastReadSeq) ∨
      (p'.lastReadSeq = 0 ∧ ∃ c, s'.conversations k.1 = some c)

def NeverBack (s s' : ChatState) : Prop :=
  ∀ k p, s.participants k = some p →
    ∃ p', s'.participants k = some p' ∧ p.lastReadSeq ≤ p'.lastReadSeq

def Grows (s s' : ChatState) : Prop :=
  ∀ id c, s.conversations id = some c →
    ∃ c', s'.conversations id = some c' ∧ c.lastSeq ≤ c'.lastSeq

variable {models : DataModel} {s s' s'' : ChatState} {w w' : ChatWorld} {l : ChatLabel}

theorem Kept.of_eq (h : s'.participants = s.participants) : Kept s s' :=
  ⟨fun _ p hp => ⟨p, h ▸ hp, rfl⟩, fun _ p' hp' => .inl ⟨p', h ▸ hp', rfl⟩⟩

theorem Kept.neverBack (h : Kept s s') : NeverBack s s' := by
  intro k p hp
  obtain ⟨p', hp', he⟩ := h.old k p hp
  exact ⟨p', hp', by omega⟩

theorem NeverBack.refl (s : ChatState) : NeverBack s s := fun _ p hp => ⟨p, hp, Nat.le_refl _⟩

theorem NeverBack.trans (h : NeverBack s s') (h' : NeverBack s' s'') : NeverBack s s'' := by
  intro k p hp
  obtain ⟨p', hp', hle⟩ := h k p hp
  obtain ⟨p'', hp'', hle'⟩ := h' k p' hp'
  exact ⟨p'', hp'', by omega⟩

/-- What the update of `markRead` does. -/
theorem setLastRead_cases (s : ChatState) (call : ReadCall) :
    (∃ p, s.participants call.key = some p ∧ call.Marks p ∧ s.setLastRead call =
      ({ s with participants := s.participants.set call.key { p with lastReadSeq := call.seq } }, 1)) ∨
      (∀ p, s.participants call.key = some p → ¬ call.Marks p) ∧ s.setLastRead call = (s, 0) := by
  unfold ChatState.setLastRead
  rcases s.participants.updateWhere_cases call.key call.Marks
    (fun p => { p with lastReadSeq := call.seq }) with ⟨p, hp, hmarks, he⟩ | ⟨hno, he⟩
  · exact .inl ⟨p, hp, hmarks, by rw [he]⟩
  · exact .inr ⟨hno, by rw [he]⟩

/-- The step `l` writes the marker `p` of the participant of a call. -/
structure Marked (w : ChatWorld) (l : ChatLabel) (i : ℕ) (c : Choice) (call : ReadCall)
    (p : Participant) : Prop where
  label : l = .step i c
  proc : w.proc? i = some (.read call .update)
  effect : c.outcome.TakesEffect
  row : w.shared.participants call.key = some p
  marks : call.Marks p

/-- A step leaves the markers, or one call writes its number. -/
inductive MarkerStep (w : ChatWorld) (l : ChatLabel) (s' : ChatState) : Prop
  | kept (h : Kept w.shared s')
  | marked (i : ℕ) (c : Choice) (call : ReadCall) (p : Participant) (h : Marked w l i c call p)
    (hs : s' = { w.shared with
      participants := w.shared.participants.set call.key { p with lastReadSeq := call.seq } })

variable {i : ℕ}

theorem acquire_participants (h : s.acquire i = some s') : s'.participants = s.participants := by
  unfold ChatState.acquire ChatState.setPhase at h
  grind

theorem commit_participants (h : s.commit i = some s') : s'.participants = s.participants := by
  unfold ChatState.commit ChatState.setPhase at h
  grind

theorem abort_participants {e : Thrown} (h : s.abort i e = some s') :
    s'.participants = s.participants := by
  unfold ChatState.abort ChatState.setPhase at h
  grind

theorem kept_event {e : Event} (hbounded : Bounded s) (h : event s e = some s') : Kept s s' := by
  cases e with
  | tick _ | setUpload _ _ =>
    cases h
    exact .of_eq rfl
  | createConversation id organizationId userIds =>
    simp only [event] at h
    split at h
    · cases h
    · rename_i hnone
      cases h
      refine ⟨fun k p hp => ?_, fun k p' hp' => ?_⟩
      · -- the new conversation has no participant yet
        have hk : k.1 ≠ id := by
          rintro rfl
          obtain ⟨c, hc, -⟩ := hbounded k p hp
          rw [hnone] at hc
          cases hc
        exact ⟨p, (participants_addParticipants_of_ne hk).trans hp, rfl⟩
      · rcases participants_addParticipants hp' with hp | ⟨rfl, rfl⟩
        · exact .inl ⟨p', hp, rfl⟩
        · exact .inr ⟨rfl, _, Table.set_self⟩
  | deleteConversation id =>
    simp only [event] at h
    split at h
    · cases h
      exact .of_eq rfl
    · cases h
  | setParticipant id userId leftAt deletedAt =>
    simp only [event] at h
    split at h
    · rename_i conversation hconversation
      cases h
      refine ⟨fun k p hp => ?_, fun k p' hp' => ?_⟩
      · by_cases hk : k = (id, userId)
        · subst hk
          exact ⟨_, Table.set_self, by simp [hp]⟩
        · exact ⟨p, (Table.set_of_ne hk).trans hp, rfl⟩
      · rcases Table.set_eq_some.mp hp' with ⟨rfl, rfl⟩ | ⟨-, hp'⟩
        · cases hp : s.participants (id, userId) with
          | none => exact .inr ⟨rfl, conversation, hconversation⟩
          | some p => exact .inl ⟨p, rfl, rfl⟩
        · exact .inl ⟨p', hp', rfl⟩
    · cases h
  | acquire i => exact .of_eq (acquire_participants h)
  | commit i => exact .of_eq (commit_participants h)
  | abort i e => exact .of_eq (abort_participants h)

variable {call : ReadCall}

/-- A step of `markRead`. -/
theorem readStep_cases {pc pc' : ReadPc} {o : Outcome Thrown}
    (h : readStep s call pc o = some (s', pc')) :
    s' = s ∨ pc = .update ∧ o.TakesEffect ∧ ∃ p, s.participants call.key = some p ∧ call.Marks p ∧
      s' = { s with participants := s.participants.set call.key { p with lastReadSeq := call.seq } } := by
  cases pc with
  | requireParticipant => exact .inl (Outcome.read_cases (some.inj h)).1
  | update =>
    rcases Outcome.run_effect (some.inj h) with rfl | ⟨ho, rfl⟩
    · exact .inl rfl
    · rcases setLastRead_cases s call with ⟨p, hp, hmarks, he⟩ | ⟨-, he⟩
      · exact .inr ⟨rfl, ho, p, hp, hmarks, by rw [he]⟩
      · exact .inl (by rw [he])
  | returned _ | thrown _ => cases h

/-- What a step of a call does to the participants, and where a call of `markRead` goes on. -/
theorem step_participants {p p' : Proc} {c : Choice} (h : step models s i p c = some (s', p')) :
    s'.participants = s.participants ∨ ∃ call, p = .read call .update ∧ c.outcome.TakesEffect ∧
      ∃ row, s.participants call.key = some row ∧ call.Marks row ∧
        s' = { s with
          participants := s.participants.set call.key { row with lastReadSeq := call.seq } } := by
  cases p with
  | send call pc =>
    obtain ⟨pc', hstep, rfl⟩ := map_pair_inj h
    cases sendMove_of_step hstep <;> exact .inl rfl
  | catchUp client pc =>
    obtain ⟨r, -, he⟩ := map_eq_some_iff.mp h
    cases he
    exact .inl rfl
  | delete call pc =>
    obtain ⟨pc', hstep, rfl⟩ := map_pair_inj h
    rcases deleteStep_state hstep with rfl | ⟨id, rfl⟩ <;> exact .inl rfl
  | read call pc =>
    obtain ⟨pc', hstep, rfl⟩ := map_pair_inj h
    rcases readStep_cases hstep with rfl | ⟨rfl, ho, row, hrow, hmarks, hs⟩
    · exact .inl rfl
    · exact .inr ⟨call, rfl, ho, row, hrow, hmarks, hs⟩

/-- **What a step does to the markers.** -/
theorem markerStep_next (hbounded : Bounded w.shared) (h : (chat models).next w l = some w') :
    MarkerStep w l w'.shared := by
  cases Program.move_of_next h with
  | @spawn a s p hs =>
    have hsame : s = w.shared := by
      cases a <;> exact (congrArg Prod.fst (some.inj hs)).symm
    rw [hsame]
    exact .kept (.of_eq rfl)
  | step hp hs =>
    rcases step_participants hs with he | ⟨call, rfl, ho, p, hrow, hmarks, he⟩
    · exact .kept (.of_eq he)
    · exact .marked _ _ call p ⟨rfl, hp, ho, hrow, hmarks⟩ he
  | crash _ => exact .kept (.of_eq rfl)
  | env hs => exact .kept (kept_event hbounded hs)

/-! ### The markers in every run -/

/-- What holds of a call of `markRead`. -/
def ReadOk (s : ChatState) (call : ReadCall) : ReadPc → Prop
  | .update => ∃ c, s.conversations call.conversationId = some c ∧ call.seq ≤ c.lastSeq
  | .returned lastReadSeq => call.seq ≤ lastReadSeq
  | .requireParticipant | .thrown _ => True

theorem ReadOk.grows {pc : ReadPc} (h : ReadOk s call pc) (hs : Grows s s') :
    ReadOk s' call pc := by
  cases pc with
  | update =>
    obtain ⟨c, hc, hle⟩ := h
    obtain ⟨c', hc', hle'⟩ := hs _ c hc
    exact ⟨c', hc', by omega⟩
  | requireParticipant | returned _ | thrown _ => exact h

theorem readOk_step {pc pc' : ReadPc} {o : Outcome Thrown}
    (h : readStep s call pc o = some (s', pc')) : ReadOk s call pc' := by
  cases pc with
  | requireParticipant =>
    obtain ⟨-, ⟨-, rfl⟩ | ⟨e, -, rfl⟩⟩ := Outcome.read_cases (some.inj h)
    · split
      · trivial
      · rename_i participant conversation hfound
        split_ifs with hahead hbehind
        · trivial
        · exact hbehind
        · refine ⟨conversation, ?_, by omega⟩
          unfold requireParticipant at hfound
          split at hfound
          · rename_i hconversation
            split_ifs at hfound
            cases hfound
            exact hconversation
          · cases hfound
    · trivial
  | update =>
    rcases Outcome.run_pc (some.inj h) with rfl | ⟨e, rfl⟩
    · split_ifs
      · trivial
      · exact Nat.le_refl _
    · trivial
  | returned _ | thrown _ => cases h

theorem grows_next (h : Reachable (chat models).system w) (hn : (chat models).next w l = some w') :
    Grows w.shared w'.shared := by
  intro id c hc
  obtain ⟨c', hc', -, hcounter⟩ := (tableStep h hn).counter (holds h).1.shared hc
  refine ⟨c', hc', ?_⟩
  rcases hcounter with he | ⟨i, m, -, -, -, he, -⟩ <;> omega

/-- **A step keeps the bound**: a call writes a number that it has compared with the counter. -/
theorem Bounded.step (h : Bounded w.shared)
    (hread : ∀ i call, w.proc? i = some (.read call .update) → ReadOk w.shared call .update)
    (hgrows : Grows w.shared w'.shared) (hstep : MarkerStep w l w'.shared) : Bounded w'.shared := by
  intro k p' hp'
  cases hstep with
  | kept hkept =>
    rcases hkept.new k p' hp' with ⟨p, hp, he⟩ | ⟨hzero, c, hc⟩
    · obtain ⟨c, hc, hle⟩ := h k p hp
      obtain ⟨c', hc', hle'⟩ := hgrows _ c hc
      exact ⟨c', hc', by omega⟩
    · exact ⟨c, hc, by omega⟩
  | marked i c call p hmarked hs =>
    rw [hs] at hp' hgrows ⊢
    rcases Table.set_eq_some.mp hp' with ⟨rfl, rfl⟩ | ⟨-, hp⟩
    · exact hread i call hmarked.proc
    · exact h k p' hp

/-- **What holds of the markers in every run.** -/
theorem markers (h : Reachable (chat models).system w) :
    Bounded w.shared ∧ ∀ i call pc, w.proc? i = some (.read call pc) → ReadOk w.shared call pc := by
  refine h.invariant' (I := fun w => Bounded w.shared ∧
    ∀ i call pc, w.proc? i = some (.read call pc) → ReadOk w.shared call pc) (fun w hw => ?_)
    (fun w w' l hr hw _ hn => ?_)
  · obtain rfl : w = ⟨{}, []⟩ := hw
    exact ⟨fun _ _ hp => (by cases hp), by simp [World.proc?]⟩
  · obtain ⟨hbounded, hread⟩ := hw
    have hgrows := grows_next hr hn
    have hstep := markerStep_next hbounded hn
    refine ⟨hbounded.step (fun i call hi => hread i call _ hi) hgrows hstep, fun i call pc hi => ?_⟩
    cases Program.move_of_next hn with
    | @spawn a s p hs =>
      rcases World.proc?_add_cases hi with ⟨-, rfl⟩ | ⟨-, hi⟩
      · cases a <;> cases some.inj hs
        trivial
      · exact (hread i call pc hi).grows hgrows
    | @step j c p p' s hp hs =>
      rcases World.proc?_put_cases hp hi with ⟨rfl, rfl⟩ | ⟨-, hi⟩
      · cases p with
        | read call' pc₀ =>
          obtain ⟨⟨t, pc'⟩, hread', he⟩ := map_eq_some_iff.mp hs
          cases he
          exact (readOk_step hread').grows hgrows
        | send _ _ | catchUp _ _ | delete _ _ =>
          obtain ⟨r, -, he⟩ := map_eq_some_iff.mp hs
          cases he
      · exact (hread i call pc hi).grows hgrows
    | crash _ => exact hread i call pc (World.proc?_kill_cases hi).2
    | env _ => exact (hread i call pc hi).grows hgrows

/-! ### Going back -/

/-- A call that writes its number finds no marker above it. -/
def InOrder (w : ChatWorld) (l : ChatLabel) : Prop :=
  ∀ i c call p, Marked w l i c call p → p.lastReadSeq ≤ call.seq

theorem step_marked {c : Choice} {p : Participant} {p' : Proc}
    (h : step models s i (.read call .update) c = some (s', p')) (heffect : c.outcome.TakesEffect)
    (hrow : s.participants call.key = some p) (hmarks : call.Marks p) :
    s'.participants = s.participants.set call.key { p with lastReadSeq := call.seq } := by
  have hset : s.setLastRead call = ({ s with
      participants := s.participants.set call.key { p with lastReadSeq := call.seq } }, 1) := by
    rcases setLastRead_cases s call with ⟨p₀, hp₀, -, he⟩ | ⟨hno, -⟩
    · obtain rfl := some.inj (hrow.symm.trans hp₀)
      exact he
    · exact absurd hmarks (hno p hrow)
  have hmap : (readStep s call .update c.outcome).map (fun r => (r.1, Proc.read call r.2)) =
      some (s', p') := h
  obtain ⟨pc', hstep, rfl⟩ := map_pair_inj hmap
  rcases Outcome.run_cases (some.inj hstep) with ⟨-, ht, -⟩ | ⟨e, ho, -⟩ | ⟨e, -, ht, -⟩
  · rw [ht, hset]
  · rw [ho] at heffect
    cases heffect
  · rw [ht, hset]

theorem Marked.shared {c : Choice} {p : Participant} (h : Marked w l i c call p)
    (hn : (chat models).next w l = some w') :
    w'.shared.participants = w.shared.participants.set call.key
      { p with lastReadSeq := call.seq } := by
  obtain ⟨rfl, hproc, heffect, hrow, hmarks⟩ := h
  cases Program.move_of_next hn with
  | step hp hs =>
    obtain rfl := some.inj (hproc.symm.trans hp)
    exact @step_marked models _ _ i _ _ _ _ hs heffect hrow hmarks

/-- **A marker goes back exactly if a call writes a number below it.** -/
theorem neverBack_iff (hbounded : Bounded w.shared) (hn : (chat models).next w l = some w') :
    NeverBack w.shared w'.shared ↔ InOrder w l := by
  constructor
  · intro hback i c call p hmarked
    obtain ⟨p', hp', hle⟩ := hback _ p hmarked.row
    rw [hmarked.shared hn, Table.set_self] at hp'
    obtain rfl := some.inj hp'
    exact hle
  · intro horder
    cases markerStep_next hbounded hn with
    | kept hkept => exact hkept.neverBack
    | marked i c call p hmarked hs =>
      intro k p₀ hp₀
      rw [hs]
      by_cases hk : k = call.key
      · subst hk
        obtain rfl := some.inj (hmarked.row.symm.trans hp₀)
        exact ⟨_, Table.set_self, horder i c call p hmarked⟩
      · exact ⟨p₀, (Table.set_of_ne hk).trans hp₀, Nat.le_refl _⟩

theorem neverBack_path (h : Reachable (chat models).system w)
    (p : Path (chat models).system InOrder w w') : NeverBack w.shared w'.shared := by
  induction p with
  | refl => exact .refl _
  | step p hg hn ih =>
    have hreach := h.path (p.mono fun _ _ _ => trivial)
    exact ih.trans ((neverBack_iff (markers hreach).1 hn).mpr hg)

/-- **Read markers.** In every state reached no marker is above the counter of its conversation, and
a call of `markRead` that has returned has returned at least its number. A step moves no marker back
if and only if each call that writes in it finds a marker that is not above its number; so a run of
such steps, from any state reached, moves none back. -/
theorem read_markers (h : Reachable (chat models).system w) :
    (∀ k p, w.shared.participants k = some p →
      ∃ c, w.shared.conversations k.1 = some c ∧ p.lastReadSeq ≤ c.lastSeq) ∧
    (∀ i call lastReadSeq, w.proc? i = some (.read call (.returned lastReadSeq)) →
      call.seq ≤ lastReadSeq) ∧
    (∀ l w', (chat models).next w l = some w' → (NeverBack w.shared w'.shared ↔ InOrder w l)) ∧
    ∀ w', Path (chat models).system InOrder w w' → NeverBack w.shared w'.shared :=
  ⟨(markers h).1, fun i call _ hi => (markers h).2 i call _ hi,
    fun _ _ hn => neverBack_iff (markers h).1 hn, fun _ p => neverBack_path h p⟩

def exampleRead (seq : ℕ) : ReadCall := { conversationId := "c", userId := "u", seq }

/-- Two messages of another participant, and two devices that have passed the comparison. -/
def exampleDevices : List ChatLabel :=
  let send (n : String) : SendCall :=
    { conversationId := "c", userId := "v", input := { clientMessageId := n } }
  [.env (.createConversation "c" none ["u", "v"]),
    .spawn (.send (send "m1")), .step 0 {}, .step 0 {}, .env (.acquire 0), .env (.commit 0),
    .spawn (.send (send "m2")), .step 1 {}, .step 1 {}, .env (.acquire 1), .env (.commit 1),
    .spawn (.read (exampleRead 2)), .spawn (.read (exampleRead 1)), .step 2 {}, .step 3 {},
    .step 2 {}]

def lastRead (w : ChatWorld) : Option ℕ := (w.shared.participants ("c", "u")).map (·.lastReadSeq)

/-- The device that acknowledged the first message writes first. -/
theorem read_markers_devices : ∃ w w' : ChatWorld,
    (lastRead w = some 1 ∧ w.proc? 3 = some (.read (exampleRead 1) (.returned 1))) ∧
    lastRead w' = some 2 ∧ (exampleRead 1).seq ≤ 1 ∧
    (∀ p, w.shared.participants ("c", "u") = some p →
      ∃ c, w.shared.conversations "c" = some c ∧ p.lastReadSeq ≤ c.lastSeq) ∧
    NeverBack w.shared w'.shared := by
  obtain ⟨w, hw, ⟨hread, hproc, hsecond⟩, hstep⟩ := (chat []).exists_reached anyStep
    (exampleDevices.dropLast ++ [.step 3 {}])
    (fun w => (lastRead w = some 1 ∧ w.proc? 3 = some (.read (exampleRead 1) (.returned 1)) ∧
        w.proc? 2 = some (.read (exampleRead 2) .update)) ∧
      ((chat []).next w (.step 2 {})).any (fun w' => lastRead w' = some 2) = true)
    (by decide)
  obtain ⟨w', hn, hlast⟩ := (Option.any_eq_true _ _).mp hstep
  have hinOrder : InOrder w (.step 2 {}) := by
    intro i c call p hmarked
    obtain ⟨rfl, rfl⟩ := Label.step.inj hmarked.label
    obtain ⟨rfl, -⟩ := Proc.read.inj (some.inj (hmarked.proc.symm.trans hsecond))
    have hrow : lastRead w = some p.lastReadSeq := congrArg (Option.map _) hmarked.row
    rw [← some.inj (hread.symm.trans hrow)]
    decide
  obtain ⟨hbounded, hreturned, -, hpath⟩ := read_markers hw
  exact ⟨w, w', ⟨hread, hproc⟩, of_decide_eq_true hlast, hreturned 3 _ _ hproc,
    hbounded ("c", "u"), hpath w' (.step .refl hinOrder hn)⟩

/-- The device that acknowledged the first message writes last. -/
theorem read_marker_back : ∃ w w' : ChatWorld, Reachable (chat []).system w ∧
    Path (chat []).system anyStep w w' ∧ lastRead w = some 2 ∧ lastRead w' = some 1 ∧
    w'.proc? 3 = some (.read (exampleRead 1) (.returned 1)) ∧
    ¬ NeverBack w.shared w'.shared := by
  obtain ⟨w, w', hw, p, hbefore, hafter, hreturned⟩ := (chat []).exists_path anyStep exampleDevices
    [.step 3 {}] (fun w w' => lastRead w = some 2 ∧ lastRead w' = some 1 ∧
      w'.proc? 3 = some (.read (exampleRead 1) (.returned 1))) (by decide)
  refine ⟨w, w', hw, p, hbefore, hafter, hreturned, fun hback => ?_⟩
  obtain ⟨row, hrow, hseq⟩ := map_eq_some_iff.mp hbefore
  obtain ⟨row', hrow', hle⟩ := hback _ row hrow
  have hseq' : row'.lastReadSeq = 1 := by
    unfold lastRead at hafter
    rw [hrow'] at hafter
    exact some.inj hafter
  omega

end BackendFoundation.Chat.ReadMarkers
