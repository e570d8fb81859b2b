import BackendFoundation.Lib.Runs
import Mathlib.Data.Nat.Notation

/-! # Interleaved processes over a shared store

A `Program` says how processes start (`spawn`), what one of them does in one atomic step (`step`)
and what happens outside them (`env`). A `World` is the shared store and the processes by number;
a process that crashed is gone and its number is not used again. The labels of `Program.next` are
the interleavings: any process may take the next step, a new one may start, one may crash.

`Outline` is a proof outline for such a program: an assertion about the store, one about each
process and one about each two processes, with the obligations that every step keeps them,
including those of the processes that do not move. `Outline.holds` concludes that they hold in
every world reached. -/

namespace BackendFoundation.Lib.Interleave

open Lib.Runs

/-- The programs of a system. `spawn` and `step` are given the number of the process. -/
structure Program (S P A C E : Type*) where
  init : S
  spawn : S → ℕ → A → Option (S × P)
  step : S → ℕ → P → C → Option (S × P)
  env : S → E → Option S

/-- The shared store and the processes by number, `none` for one that crashed. -/
structure World (S P : Type*) where
  shared : S
  procs : List (Option P) := []

inductive Label (A C E : Type*)
  /-- A new process starts. -/
  | spawn (a : A)
  /-- A process takes its next step; `c` is what its surroundings choose for it. -/
  | step (pid : ℕ) (c : C)
  | crash (pid : ℕ)
  /-- Something outside the processes happens. -/
  | env (e : E)

variable {S P A C E : Type*}

namespace World

/-- The state of a process that has started and has not crashed. -/
def proc? (w : World S P) (i : ℕ) : Option P := w.procs[i]?.join

/-- The number of the next process to start. -/
def fresh (w : World S P) : ℕ := w.procs.length

def add (w : World S P) (s : S) (p : P) : World S P := ⟨s, w.procs ++ [some p]⟩

def put (w : World S P) (i : ℕ) (s : S) (p : P) : World S P := ⟨s, w.procs.set i (some p)⟩

def kill (w : World S P) (i : ℕ) : World S P := ⟨w.shared, w.procs.set i none⟩

def withShared (w : World S P) (s : S) : World S P := ⟨s, w.procs⟩

variable {w : World S P} {i j : ℕ} {s : S} {p q : P}

@[simp] theorem add_shared : (w.add s p).shared = s := rfl

@[simp] theorem put_shared : (w.put i s p).shared = s := rfl

@[simp] theorem withShared_shared : (w.withShared s).shared = s := rfl

theorem lt_fresh (h : w.proc? i = some p) : i < w.fresh := by
  unfold proc? at h
  by_contra hi
  rw [List.getElem?_eq_none (Nat.not_lt.mp hi)] at h
  exact absurd h (by simp)

theorem ne_fresh (h : w.proc? i = some p) : i ≠ w.fresh := Nat.ne_of_lt (lt_fresh h)

theorem proc?_add_self : (w.add s p).proc? w.fresh = some p := by
  simp [proc?, add, fresh]

theorem proc?_add_of_ne (h : j ≠ w.fresh) : (w.add s p).proc? j = w.proc? j := by
  unfold proc? add fresh at *
  rcases Nat.lt_or_ge j w.procs.length with hj | hj
  · rw [List.getElem?_append_left hj]
  · rw [List.getElem?_eq_none hj, List.getElem?_eq_none]
    simp only [List.length_append, List.length_cons, List.length_nil]
    omega

theorem proc?_empty : (⟨s, []⟩ : World S P).proc? i = none := rfl

theorem proc?_add_cases (h : (w.add s p).proc? j = some q) :
    (j = w.fresh ∧ q = p) ∨ (j ≠ w.fresh ∧ w.proc? j = some q) := by
  by_cases hj : j = w.fresh
  · rw [hj, proc?_add_self] at h
    exact .inl ⟨hj, (Option.some.inj h).symm⟩
  · exact .inr ⟨hj, proc?_add_of_ne hj ▸ h⟩

theorem proc?_put_self (h : w.proc? i = some q) : (w.put i s p).proc? i = some p := by
  have hi := lt_fresh h
  unfold fresh at hi
  simp [proc?, put, hi]

theorem proc?_put_of_ne (h : j ≠ i) : (w.put i s p).proc? j = w.proc? j := by
  simp [proc?, put, h.symm]

theorem proc?_put_cases {r : P} (hi : w.proc? i = some r) (h : (w.put i s p).proc? j = some q) :
    (j = i ∧ q = p) ∨ (j ≠ i ∧ w.proc? j = some q) := by
  by_cases hj : j = i
  · rw [hj, proc?_put_self hi] at h
    exact .inl ⟨hj, (Option.some.inj h).symm⟩
  · exact .inr ⟨hj, proc?_put_of_ne hj ▸ h⟩

@[simp] theorem proc?_kill_self : (w.kill i).proc? i = none := by
  unfold proc? kill
  rw [List.getElem?_set_self']
  cases w.procs[i]? <;> rfl

theorem proc?_kill_of_ne (h : j ≠ i) : (w.kill i).proc? j = w.proc? j := by
  simp [proc?, kill, h.symm]

theorem proc?_kill_cases (h : (w.kill i).proc? j = some q) : j ≠ i ∧ w.proc? j = some q := by
  by_cases hj : j = i
  · rw [hj, proc?_kill_self] at h
    exact absurd h (by simp)
  · exact ⟨hj, proc?_kill_of_ne hj ▸ h⟩

@[simp] theorem fresh_add : (w.add s p).fresh = w.fresh + 1 := by simp [fresh, add]

@[simp] theorem fresh_put : (w.put i s p).fresh = w.fresh := by simp [fresh, put]

@[simp] theorem fresh_kill : (w.kill i).fresh = w.fresh := by simp [fresh, kill]

@[simp] theorem fresh_withShared : (w.withShared s).fresh = w.fresh := rfl

/-! ### Some process -/

/-- Some process is as `φ` says. -/
def Any (w : World S P) (φ : P → Prop) : Prop := ∃ i p, w.proc? i = some p ∧ φ p

variable {φ : P → Prop}

theorem any_iff_mem : w.Any φ ↔ ∃ o ∈ w.procs, ∃ p ∈ o, φ p := by
  constructor
  · rintro ⟨i, p, hp, hφ⟩
    have hp' := Option.join_eq_some_iff.mp hp
    exact ⟨_, List.mem_of_getElem? hp', p, rfl, hφ⟩
  · rintro ⟨o, ho, p, hp, hφ⟩
    obtain ⟨i, hi⟩ := List.mem_iff_getElem?.mp ho
    exact ⟨i, p, by rw [proc?, hi]; exact hp, hφ⟩

instance [DecidablePred φ] : Decidable (w.Any φ) := decidable_of_iff _ any_iff_mem.symm

theorem Any.add (h : w.Any φ) : (w.add s p).Any φ := by
  obtain ⟨i, q, hq, hφ⟩ := h
  exact ⟨i, q, by rw [proc?_add_of_ne (ne_fresh hq), hq], hφ⟩

theorem any_add_self (h : φ p) : (w.add s p).Any φ := ⟨_, p, proc?_add_self, h⟩

theorem any_put_self (hi : w.proc? i = some q) (h : φ p) : (w.put i s p).Any φ :=
  ⟨i, p, proc?_put_self hi, h⟩

/-- A step of a process that is not the one in question, or stays as `φ` says. -/
theorem Any.put (h : w.Any φ) (hi : w.proc? i = some q) (hp : φ q → φ p) :
    (w.put i s p).Any φ := by
  obtain ⟨j, r, hr, hφ⟩ := h
  by_cases hj : j = i
  · subst hj
    obtain rfl := Option.some.inj (hi.symm.trans hr)
    exact any_put_self hi (hp hφ)
  · exact ⟨j, r, by rw [proc?_put_of_ne hj, hr], hφ⟩

theorem Any.kill (h : w.Any φ) (hi : w.proc? i = some q) (hq : ¬ φ q) : (w.kill i).Any φ := by
  obtain ⟨j, r, hr, hφ⟩ := h
  have hj : j ≠ i := by
    rintro rfl
    exact hq (Option.some.inj (hi.symm.trans hr) ▸ hφ)
  exact ⟨j, r, by rw [proc?_kill_of_ne hj, hr], hφ⟩

end World

namespace Program

/-- One step of the whole system. -/
def next (T : Program S P A C E) (w : World S P) : Label A C E → Option (World S P)
  | .spawn a => (T.spawn w.shared w.fresh a).map fun r => w.add r.1 r.2
  | .step i c =>
    match w.proc? i with
    | none => none
    | some p => (T.step w.shared i p c).map fun r => w.put i r.1 r.2
  | .crash i =>
    match w.proc? i with
    | none => none
    | some _ => some (w.kill i)
  | .env e => (T.env w.shared e).map fun s => w.withShared s

/-- The system as a transition system: it starts with the initial store and no process. -/
def system (T : Program S P A C E) : TransitionSystem (World S P) (Label A C E) where
  init w := w = ⟨T.init, []⟩
  next := T.next

/-- A list of labels that executes reaches a world; `Q` is evaluated there. -/
theorem exists_reached (T : Program S P A C E) (good : World S P → Label A C E → Prop)
    [∀ w l, Decidable (good w l)] (ls : List (Label A C E)) (Q : World S P → Prop)
    [DecidablePred Q]
    (h : (exec T.system good ⟨T.init, []⟩ ls).any (fun w => decide (Q w)) = true) :
    ∃ w, ReachableBy T.system good w ∧ Q w :=
  reachableBy_of_exec rfl h

/-- Two lists of labels that execute one after the other, each under its condition; `Q` is evaluated on
the worlds they reach. -/
theorem exists_run (T : Program S P A C E) (good good' : World S P → Label A C E → Prop)
    [∀ w l, Decidable (good w l)] [∀ w l, Decidable (good' w l)] (ls ls' : List (Label A C E))
    (Q : World S P → World S P → Prop) [∀ w w', Decidable (Q w w')]
    (h : (exec T.system good ⟨T.init, []⟩ ls).any
      (fun w => (exec T.system good' w ls').any fun w' => decide (Q w w')) = true) :
    ∃ w w', ReachableBy T.system good w ∧ Path T.system good' w w' ∧ Q w w' :=
  path_of_execs rfl h

theorem exists_path (T : Program S P A C E) (good : World S P → Label A C E → Prop)
    [∀ w l, Decidable (good w l)] (ls ls' : List (Label A C E))
    (Q : World S P → World S P → Prop) [∀ w w', Decidable (Q w w')]
    (h : (exec T.system good ⟨T.init, []⟩ ls).any
      (fun w => (exec T.system good w ls').any fun w' => decide (Q w w')) = true) :
    ∃ w w', ReachableBy T.system good w ∧ Path T.system good w w' ∧ Q w w' :=
  T.exists_run good good ls ls' Q h

/-- What a label can do to a world. -/
inductive Move (T : Program S P A C E) (w : World S P) : Label A C E → World S P → Prop
  | spawn {a : A} {s : S} {p : P} : T.spawn w.shared w.fresh a = some (s, p) →
      Move T w (.spawn a) (w.add s p)
  | step {i : ℕ} {c : C} {p p' : P} {s : S} : w.proc? i = some p →
      T.step w.shared i p c = some (s, p') → Move T w (.step i c) (w.put i s p')
  | crash {i : ℕ} {p : P} : w.proc? i = some p → Move T w (.crash i) (w.kill i)
  | env {e : E} {s : S} : T.env w.shared e = some s → Move T w (.env e) (w.withShared s)

theorem move_of_next {T : Program S P A C E} {w w' : World S P} {l : Label A C E}
    (h : T.next w l = some w') : T.Move w l w' := by
  cases l with
  | spawn a =>
    obtain ⟨⟨s, p⟩, hs, rfl⟩ := Option.map_eq_some_iff.mp h
    exact .spawn hs
  | step i c =>
    simp only [next] at h
    split at h
    · exact absurd h (by simp)
    · next p hp =>
      obtain ⟨⟨s, p'⟩, hs, rfl⟩ := Option.map_eq_some_iff.mp h
      exact .step hp hs
  | crash i =>
    simp only [next] at h
    split at h
    · exact absurd h (by simp)
    · next p hp =>
      obtain rfl := Option.some.inj h
      exact .crash hp
  | env e =>
    obtain ⟨s, hs, rfl⟩ := Option.map_eq_some_iff.mp h
    exact .env hs

theorem next_of_move {T : Program S P A C E} {w w' : World S P} {l : Label A C E}
    (h : T.Move w l w') : T.next w l = some w' := by
  cases h with
  | spawn hs | env hs =>
    simp only [next, hs]
    rfl
  | step hp hs =>
    simp only [next, hp, hs]
    rfl
  | crash hp => simp only [next, hp]

end Program

/-! ### Proof outlines -/

/-- An assertion about the store, one about each process and one about each two processes. -/
structure Assertions (S P : Type*) where
  shared : S → Prop
  proc : ℕ → P → S → Prop
  pair : ℕ → P → ℕ → P → Prop := fun _ _ _ _ => True

/-- The assertions hold in a world. -/
structure Assertions.Holds (a : Assertions S P) (w : World S P) : Prop where
  shared : a.shared w.shared
  proc : ∀ i p, w.proc? i = some p → a.proc i p w.shared
  pair : ∀ i j p q, i ≠ j → w.proc? i = some p → w.proc? j = some q → a.pair i p j q

/-- The steps keep the assertions. In each obligation the assertions hold in the world before the
step and the step meets `good`. -/
structure Keeps (T : Program S P A C E) (good : World S P → Label A C E → Prop)
    (a : Assertions S P) : Prop where
  env : ∀ w e s, a.Holds w → good w (.env e) → T.env w.shared e = some s →
    a.shared s ∧ ∀ j q, w.proc? j = some q → a.proc j q s
  spawn : ∀ w x s p, a.Holds w → good w (.spawn x) → T.spawn w.shared w.fresh x = some (s, p) →
    a.shared s ∧ a.proc w.fresh p s ∧
      ∀ j q, w.proc? j = some q → a.proc j q s ∧ a.pair j q w.fresh p ∧ a.pair w.fresh p j q
  step : ∀ w i p c s p', a.Holds w → w.proc? i = some p → good w (.step i c) →
    T.step w.shared i p c = some (s, p') → a.shared s ∧ a.proc i p' s
  /-- The step of `i` does not disturb the assertions of another process `j`. -/
  frame : ∀ w i p c s p', a.Holds w → w.proc? i = some p → good w (.step i c) →
    T.step w.shared i p c = some (s, p') → ∀ j q, j ≠ i → w.proc? j = some q →
      a.proc j q s ∧ a.pair j q i p' ∧ a.pair i p' j q

/-- The obligations of a proof outline. -/
structure Outline (T : Program S P A C E) (good : World S P → Label A C E → Prop)
    (a : Assertions S P) : Prop extends Keeps T good a where
  init : a.shared T.init

variable {T : Program S P A C E} {good : World S P → Label A C E → Prop} {a : Assertions S P}

/-- **Soundness of proof outlines.** One step keeps the assertions. -/
theorem Keeps.step_holds (o : Keeps T good a) {w w' : World S P} {l : Label A C E} (h : a.Holds w)
    (hg : good w l) (hn : T.next w l = some w') : a.Holds w' := by
  cases Program.move_of_next hn with
  | @spawn x s p hs =>
    obtain ⟨hsh, hnew, hold⟩ := o.spawn w x s p h hg hs
    refine ⟨hsh, fun j q hq => ?_, fun j k q r hjk hq hr => ?_⟩
    · rcases World.proc?_add_cases hq with ⟨rfl, rfl⟩ | ⟨-, hq⟩
      · exact hnew
      · exact (hold j q hq).1
    · rcases World.proc?_add_cases hq with ⟨rfl, rfl⟩ | ⟨-, hq'⟩ <;>
        rcases World.proc?_add_cases hr with ⟨rfl, rfl⟩ | ⟨-, hr'⟩
      · exact absurd rfl hjk
      · exact (hold k r hr').2.2
      · exact (hold j q hq').2.1
      · exact h.pair j k q r hjk hq' hr'
  | @step i c p p' s hp hs =>
    obtain ⟨hsh, hown⟩ := o.step w i p c s p' h hp hg hs
    have hframe := o.frame w i p c s p' h hp hg hs
    refine ⟨hsh, fun j q hq => ?_, fun j k q r hjk hq hr => ?_⟩
    · rcases World.proc?_put_cases hp hq with ⟨rfl, rfl⟩ | ⟨hj, hq⟩
      · exact hown
      · exact (hframe j q hj hq).1
    · rcases World.proc?_put_cases hp hq with ⟨rfl, rfl⟩ | ⟨hj, hq'⟩ <;>
        rcases World.proc?_put_cases hp hr with ⟨rfl, rfl⟩ | ⟨hk, hr'⟩
      · exact absurd rfl hjk
      · exact (hframe k r hk hr').2.2
      · exact (hframe j q hj hq').2.1
      · exact h.pair j k q r hjk hq' hr'
  | crash hp =>
    refine ⟨h.shared, fun j q hq => ?_, fun j k q r hjk hq hr => ?_⟩
    · exact h.proc j q (World.proc?_kill_cases hq).2
    · exact h.pair j k q r hjk (World.proc?_kill_cases hq).2 (World.proc?_kill_cases hr).2
  | @env e s hs =>
    obtain ⟨hsh, hold⟩ := o.env w e s h hg hs
    exact ⟨hsh, hold, h.pair⟩

/-- The assertions of a proof outline hold in every world reached. -/
theorem Outline.holds (o : Outline T good a) {w : World S P} (h : ReachableBy T.system good w) :
    a.Holds w := by
  refine h.invariant (fun w hw => ?_) (fun w w' l hw hg hn => o.step_holds hw hg hn)
  obtain rfl : w = ⟨T.init, []⟩ := hw
  exact ⟨o.init, by simp [World.proc?], by simp [World.proc?]⟩

theorem Keeps.path (o : Keeps T good a) {w w' : World S P} (h : a.Holds w)
    (p : Path T.system good w w') : a.Holds w' := by
  induction p with
  | refl => exact h
  | step _ hg hn ih => exact o.step_holds ih hg hn

theorem fresh_le_of_next {w w' : World S P} {l : Label A C E} (h : T.next w l = some w') :
    w.fresh ≤ w'.fresh := by
  cases Program.move_of_next h with
  | spawn _ => rw [World.fresh_add]; exact Nat.le_succ _
  | step _ _ => exact Nat.le_of_eq World.fresh_put.symm
  | crash _ => exact Nat.le_of_eq World.fresh_kill.symm
  | env _ => exact Nat.le_of_eq World.fresh_withShared.symm

theorem path_fresh {w w' : World S P} (p : Path T.system good w w') :
    w.fresh ≤ w'.fresh ∧ Path T.system (fun v l => good v l ∧ w.fresh ≤ v.fresh) w w' := by
  induction p with
  | refl => exact ⟨Nat.le_refl _, .refl⟩
  | step _ hg hn ih => exact ⟨Nat.le_trans ih.1 (fresh_le_of_next hn), ih.2.step ⟨hg, ih.1⟩ hn⟩

end BackendFoundation.Lib.Interleave
