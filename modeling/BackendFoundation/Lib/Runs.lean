import Mathlib.Tactic.Common

/-! # Transition systems and their runs

A system has initial states and a partial step function `next`, which takes one action. `good`
restricts the actions a run may take: a state is in `ReachableBy good` if some run from an initial
state leads to it and every step of that run meets `good`. `Path good` is the same notion between
two states.

Rules: `ReachableBy.invariant` (one step preserves it, so every run does), `Path.relation` (a
reflexive and transitive relation that every step respects holds between the ends of a run), and
`reachableBy_of_exec` (a list of actions that executes is a run). -/

namespace BackendFoundation.Lib.Runs

universe u v

/-- A transition system: its initial states and what one action does, if it is enabled. -/
structure TransitionSystem (σ : Type u) (α : Type v) where
  init : σ → Prop
  next : σ → α → Option σ

theorem pair_inj {α β : Type*} {a c : α} {b d : β} (h : some (a, b) = some (c, d)) : a = c ∧ b = d :=
  Prod.mk.inj (Option.some.inj h)

/-- The step of a part, as a step of the whole. -/
theorem map_pair_inj {α β γ : Type*} {o : Option (α × β)} {f : β → γ} {a : α} {c : γ}
    (h : (o.map fun r => (r.1, f r.2)) = some (a, c)) : ∃ b, o = some (a, b) ∧ c = f b := by
  obtain ⟨r, ho, hr⟩ := Option.map_eq_some_iff.mp h
  obtain ⟨rfl, rfl⟩ := Prod.mk.inj hr
  exact ⟨r.2, ho, rfl⟩

variable {σ : Type u} {α : Type v}

/-- The states reached by a run whose every step meets `good`. -/
inductive ReachableBy (T : TransitionSystem σ α) (good : σ → α → Prop) : σ → Prop
  | init {s : σ} : T.init s → ReachableBy T good s
  | step {s t : σ} {a : α} : ReachableBy T good s → good s a → T.next s a = some t →
      ReachableBy T good t

/-- No restriction on the steps. -/
def anyStep (_ : σ) (_ : α) : Prop := True

instance (s : σ) (a : α) : Decidable (anyStep s a) := isTrue trivial

/-- The states reached by any run. -/
abbrev Reachable (T : TransitionSystem σ α) : σ → Prop := ReachableBy T anyStep

/-- A run from one state to another whose every step meets `good`. -/
inductive Path (T : TransitionSystem σ α) (good : σ → α → Prop) (s : σ) : σ → Prop
  | refl : Path T good s s
  | step {t u : σ} {a : α} : Path T good s t → good t a → T.next t a = some u → Path T good s u

variable {T : TransitionSystem σ α} {good : σ → α → Prop}

/-! ### The invariant rule -/

variable {I : σ → Prop} {s : σ}

/-- **Invariants.** What holds initially and is kept by every step of a reachable state holds in
every reachable state. -/
theorem ReachableBy.invariant (hinit : ∀ s, T.init s → I s)
    (hstep : ∀ s t a, I s → good s a → T.next s a = some t → I t) (h : ReachableBy T good s) :
    I s := by
  induction h with
  | init h => exact hinit _ h
  | step _ hg hn ih => exact hstep _ _ _ ih hg hn

/-- The same rule with the reachability of the state before the step at hand, so that one
invariant can rest on another. -/
theorem ReachableBy.invariant' (hinit : ∀ s, T.init s → I s)
    (hstep : ∀ s t a, ReachableBy T good s → I s → good s a → T.next s a = some t → I t)
    (h : ReachableBy T good s) : I s := by
  induction h with
  | init h => exact hinit _ h
  | step hr hg hn ih => exact hstep _ _ _ hr ih hg hn

variable {good' : σ → α → Prop}

theorem ReachableBy.mono (hg : ∀ s a, good s a → good' s a) (h : ReachableBy T good s) :
    ReachableBy T good' s := by
  induction h with
  | init h => exact .init h
  | step _ hs hn ih => exact .step ih (hg _ _ hs) hn

theorem ReachableBy.reachable (h : ReachableBy T good s) : Reachable T s :=
  h.mono fun _ _ _ => trivial

/-- What holds of every state reached may be assumed of the states a run goes through. -/
theorem ReachableBy.strengthen (hI : ∀ s, ReachableBy T good s → I s) (h : ReachableBy T good s) :
    ReachableBy T (fun s a => good s a ∧ I s) s := by
  induction h with
  | init h => exact .init h
  | step hr hs hn ih => exact .step ih ⟨hs, hI _ hr⟩ hn

/-! ### Runs between two states -/

variable {s t : σ}

theorem ReachableBy.path (h : ReachableBy T good s) (p : Path T good s t) :
    ReachableBy T good t := by
  induction p with
  | refl => exact h
  | step _ hg hn ih => exact .step ih hg hn

theorem Path.trans {s t u : σ} (p : Path T good s t) (q : Path T good t u) : Path T good s u := by
  induction q with
  | refl => exact p
  | step _ hg hn ih => exact ih.step hg hn

/-- **Relations over runs.** A reflexive and transitive relation that every step of a reachable
state respects relates the two ends of every run. -/
theorem Path.relation {R : σ → σ → Prop} (hrefl : ∀ s, R s s)
    (htrans : ∀ s t u, R s t → R t u → R s u)
    (hstep : ∀ s t a, ReachableBy T good s → good s a → T.next s a = some t → R s t)
    (hs : ReachableBy T good s) (p : Path T good s t) : R s t := by
  induction p with
  | refl => exact hrefl _
  | step p hg hn ih => exact htrans _ _ _ ih (hstep _ _ _ (hs.path p) hg hn)

theorem Path.mono (hg : ∀ s a, good s a → good' s a) (p : Path T good s t) : Path T good' s t := by
  induction p with
  | refl => exact .refl
  | step _ hs hn ih => exact .step ih (hg _ _ hs) hn

theorem Path.first (p : Path T good s t) : t = s ∨ ∃ a, good s a := by
  induction p with
  | refl => exact .inl rfl
  | step _ hg _ ih =>
    rcases ih with rfl | h
    · exact .inr ⟨_, hg⟩
    · exact .inr h

/-- What holds of every state reached may be assumed of the states a run goes through. -/
theorem Path.strengthen (hgood : ∀ s a, good s a → good' s a)
    (hI : ∀ s, ReachableBy T good' s → I s) (hs : ReachableBy T good' s) (p : Path T good s t) :
    Path T (fun s a => good s a ∧ I s) s t := by
  induction p with
  | refl => exact .refl
  | step p hg hn ih => exact ih.step ⟨hg, hI _ (hs.path (p.mono hgood))⟩ hn

theorem Path.stable {Q : σ → Prop}
    (hstep : ∀ s t a, ReachableBy T good s → Q s → good s a → T.next s a = some t → Q t)
    (hs : ReachableBy T good s) (p : Path T good s t) (hq : Q s) : Q t := by
  refine p.relation (R := fun s t => Q s → Q t) (fun _ h => h) (fun _ _ _ h₁ h₂ h => h₂ (h₁ h))
    (fun s t a hr hg hn h => hstep s t a hr h hg hn) hs hq

/-! ### Earlier states -/

/-- A state on the way to this one was as `P` says. -/
def Earlier (T : TransitionSystem σ α) (P : σ → Prop) (s : σ) : Prop :=
  ∃ s₀, Reachable T s₀ ∧ P s₀ ∧ Path T anyStep s₀ s

variable {P : σ → Prop}

theorem Earlier.now (h : Reachable T s) (hp : P s) : Earlier T P s :=
  ⟨s, h, hp, .refl⟩

variable {a : α}

theorem Earlier.next (h : Earlier T P s) (hn : T.next s a = some t) : Earlier T P t := by
  obtain ⟨s₀, hs₀, hp, hpath⟩ := h
  exact ⟨s₀, hs₀, hp, hpath.step trivial hn⟩

/-- A step on the way to this state was as `Q` says. -/
def Happened (T : TransitionSystem σ α) (Q : σ → α → Prop) (s : σ) : Prop :=
  ∃ s₀ a s₁, Reachable T s₀ ∧ Q s₀ a ∧ T.next s₀ a = some s₁ ∧ Path T anyStep s₁ s

variable {Q : σ → α → Prop}

theorem Happened.now (h : Reachable T s) (hq : Q s a) (hn : T.next s a = some t) : Happened T Q t :=
  ⟨s, a, t, h, hq, hn, .refl⟩

theorem Happened.next (h : Happened T Q s) (hn : T.next s a = some t) : Happened T Q t := by
  obtain ⟨s₀, b, s₁, hs₀, hq, hn₀, hpath⟩ := h
  exact ⟨s₀, b, s₁, hs₀, hq, hn₀, hpath.step trivial hn⟩

theorem Happened.earlier (hp : ∀ s a, Q s a → P s) (h : Happened T Q s) : Earlier T P s := by
  obtain ⟨s₀, a, s₁, hs₀, hq, hn, hpath⟩ := h
  exact ⟨s₀, hs₀, hp s₀ a hq, Path.trans (.step .refl trivial hn) hpath⟩

/-- A step on the way to this state was as `Q` says, and `P` has held since. -/
def Since (T : TransitionSystem σ α) (Q : σ → α → Prop) (P : σ → Prop) (s : σ) : Prop :=
  P s ∧ ∃ s₀ a s₁, Reachable T s₀ ∧ Q s₀ a ∧ T.next s₀ a = some s₁ ∧ Path T (fun t _ => P t) s₁ s

theorem Since.now (h : Reachable T s) (hq : Q s a) (hn : T.next s a = some t) (hp : P t) :
    Since T Q P t :=
  ⟨hp, s, a, t, h, hq, hn, .refl⟩

theorem Since.next (h : Since T Q P s) (hn : T.next s a = some t) (hp : P t) : Since T Q P t := by
  obtain ⟨hps, s₀, b, s₁, hs₀, hq, hn₀, hpath⟩ := h
  exact ⟨hp, s₀, b, s₁, hs₀, hq, hn₀, hpath.step hps hn⟩

/-! ### Executing a list of actions -/

/-- Takes the actions in turn, as far as they are enabled and meet `good`. -/
def exec (T : TransitionSystem σ α) (good : σ → α → Prop) [∀ s a, Decidable (good s a)] :
    σ → List α → Option σ
  | s, [] => some s
  | s, a :: as => if good s a then (T.next s a).bind fun t => exec T good t as else none

theorem path_of_exec [∀ s a, Decidable (good s a)] {s₀ : σ} :
    ∀ {as : List α} {s t : σ}, Path T good s₀ s → exec T good s as = some t → Path T good s₀ t
  | [], s, t, p, h => by
    rw [exec] at h
    exact Option.some.inj h ▸ p
  | a :: as, s, t, p, h => by
    rw [exec] at h
    split_ifs at h with hg
    obtain ⟨u, hu, h⟩ := Option.bind_eq_some_iff.mp h
    exact path_of_exec (p.step hg hu) h

/-- A list of actions that executes from an initial state reaches a state; `Q` is evaluated
there. -/
theorem reachableBy_of_exec [∀ s a, Decidable (good s a)] {s₀ : σ} (h₀ : T.init s₀)
    {as : List α} {Q : σ → Prop} [DecidablePred Q]
    (h : (exec T good s₀ as).any (fun s => decide (Q s)) = true) :
    ∃ s, ReachableBy T good s ∧ Q s := by
  obtain ⟨s, hs, hq⟩ := (Option.any_eq_true _ _).mp h
  exact ⟨s, (ReachableBy.init h₀).path (path_of_exec .refl hs), of_decide_eq_true hq⟩

/-- Two lists of actions that execute one after the other; `Q` is evaluated on the states they
reach. -/
theorem path_of_execs [∀ s a, Decidable (good s a)] [∀ s a, Decidable (good' s a)] {s₀ : σ}
    (h₀ : T.init s₀) {as bs : List α} {Q : σ → σ → Prop} [∀ s t, Decidable (Q s t)]
    (h : (exec T good s₀ as).any (fun s => (exec T good' s bs).any fun t => decide (Q s t)) = true) :
    ∃ s t, ReachableBy T good s ∧ Path T good' s t ∧ Q s t := by
  obtain ⟨s, hs, h⟩ := (Option.any_eq_true _ _).mp h
  obtain ⟨t, ht, hq⟩ := (Option.any_eq_true _ _).mp h
  have hreach : ReachableBy T good s := (ReachableBy.init h₀).path (path_of_exec .refl hs)
  exact ⟨s, t, hreach, path_of_exec .refl ht, of_decide_eq_true hq⟩

end BackendFoundation.Lib.Runs
