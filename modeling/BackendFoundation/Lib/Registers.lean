import Mathlib.Data.List.Induction
import Mathlib.Tactic.Common

/-! # Registers

A register is written by some of the events of a log: `assign e` is the value that `e` writes, if it
writes one. `replay` is the value after a log. A register does not depend on the order of the log,
nor on how often an event occurs in it, exactly if any two events that write it write the same value
(`replay_eq_iff`). -/

namespace BackendFoundation.Lib.Registers

variable {Event V : Type*} {assign : Event → Option V} {initial : V} {E o : List Event} {e : Event}

/-- The value of the register after the log. -/
def replay (assign : Event → Option V) (initial : V) (log : List Event) : V :=
  log.foldl (fun value e => (assign e).getD value) initial

/-- `o` is made of the events of `E`, in some order, each any number of times. -/
def Orders (E o : List Event) : Prop := ∀ e, e ∈ o ↔ e ∈ E

/-- Two events that write the register write the same value. -/
def Agree (assign : Event → Option V) (E : List Event) : Prop :=
  ∀ e ∈ E, ∀ e' ∈ E, ∀ x ∈ assign e, ∀ y ∈ assign e', x = y

@[simp] theorem replay_append_singleton :
    replay assign initial (o ++ [e]) = (assign e).getD (replay assign initial o) := by
  simp [replay]

/-- The value is the one before the log, and then nothing wrote it, or that of an event. -/
theorem replay_cases (o : List Event) :
    (replay assign initial o = initial ∧ ∀ e ∈ o, assign e = none) ∨
      ∃ e ∈ o, assign e = some (replay assign initial o) := by
  induction o using List.reverseRecOn with
  | nil => exact .inl ⟨rfl, by simp⟩
  | append_singleton o e ih =>
    rw [replay_append_singleton]
    cases he : assign e with
    | some x => exact .inr ⟨e, by simp, by simpa using he⟩
    | none =>
      rw [Option.getD_none]
      rcases ih with ⟨hv, hn⟩ | ⟨e', hm, hv⟩
      · refine .inl ⟨hv, fun e' he' => ?_⟩
        rcases List.mem_append.mp he' with h | h
        · exact hn e' h
        · rw [List.mem_singleton.mp h, he]
      · exact .inr ⟨e', by simp [hm], hv⟩

theorem orders_concat (he : e ∈ E) : Orders E (E ++ [e]) := by
  intro x
  constructor
  · intro hx
    rcases List.mem_append.mp hx with h | h
    · exact h
    · rwa [List.mem_singleton.mp h]
  · intro hx
    exact List.mem_append_left _ hx

theorem replay_congr (ha : Agree assign E) {o₁ o₂ : List Event} (h₁ : Orders E o₁)
    (h₂ : Orders E o₂) : replay assign initial o₁ = replay assign initial o₂ := by
  rcases @replay_cases _ _ assign initial o₁ with ⟨hv₁, hn₁⟩ | ⟨e₁, hm₁, hv₁⟩ <;>
    rcases @replay_cases _ _ assign initial o₂ with ⟨hv₂, hn₂⟩ | ⟨e₂, hm₂, hv₂⟩
  · rw [hv₁, hv₂]
  · have h := hn₁ e₂ ((h₁ e₂).mpr ((h₂ e₂).mp hm₂))
    rw [h] at hv₂
    cases hv₂
  · have h := hn₂ e₁ ((h₂ e₁).mpr ((h₁ e₁).mp hm₁))
    rw [h] at hv₁
    cases hv₁
  · exact ha e₁ ((h₁ e₁).mp hm₁) e₂ ((h₂ e₂).mp hm₂) _ hv₁ _ hv₂

/-- Agreement on a value that an event writes through an input of its own. -/
theorem agree_bind_iff {Input : Type*} {written : Event → Option Input} {column : Input → Option V} :
    Agree (fun e => (written e).bind column) E ↔
      ∀ e ∈ E, ∀ e' ∈ E, ∀ i ∈ written e, ∀ i' ∈ written e',
        ∀ x ∈ column i, ∀ y ∈ column i', x = y := by
  constructor
  · intro h e he e' he' i hi i' hi' x hx y hy
    exact h e he e' he' x (Option.mem_bind_iff.mpr ⟨i, hi, hx⟩) y
      (Option.mem_bind_iff.mpr ⟨i', hi', hy⟩)
  · intro h e he e' he' x hx y hy
    obtain ⟨i, hi, hx⟩ := Option.mem_bind_iff.mp hx
    obtain ⟨i', hi', hy⟩ := Option.mem_bind_iff.mp hy
    exact h e he e' he' i hi i' hi' x hx y hy

theorem agree_map_iff {Input : Type*} {written : Event → Option Input} {column : Input → V} :
    Agree (fun e => (written e).map column) E ↔
      ∀ e ∈ E, ∀ e' ∈ E, ∀ i ∈ written e, ∀ i' ∈ written e', column i = column i' := by
  simp only [Option.map_eq_bind, agree_bind_iff]
  simp [Option.mem_def]

/-- The same for a register whose values may be absent, but not by an event. -/
theorem agree_bind_map_some_iff {Input : Type*} {written : Event → Option Input}
    {column : Input → Option V} :
    Agree (fun e => (written e).bind fun i => (column i).map some) E ↔
      ∀ e ∈ E, ∀ e' ∈ E, ∀ i ∈ written e, ∀ i' ∈ written e',
        ∀ x ∈ column i, ∀ y ∈ column i', x = y := by
  rw [agree_bind_iff]
  simp [Option.mem_def]

/-- **Order.** All orders of the events leave the same value exactly if the events agree on it. -/
theorem replay_eq_iff :
    (∀ o₁ o₂, Orders E o₁ → Orders E o₂ → replay assign initial o₁ = replay assign initial o₂) ↔
      Agree assign E := by
  constructor
  · intro h e he e' he' x hx y hy
    have hv := h _ _ (orders_concat he) (orders_concat he')
    rw [replay_append_singleton, replay_append_singleton, Option.mem_def.mp hx,
      Option.mem_def.mp hy] at hv
    exact hv
  · intro ha o₁ o₂ h₁ h₂
    exact replay_congr ha h₁ h₂

end BackendFoundation.Lib.Registers
