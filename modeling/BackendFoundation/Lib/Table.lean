import Mathlib.Data.Nat.Notation
import Mathlib.Tactic.Common

/-! # Keyed tables

A table maps each key to its row, if there is one. The writes are the ones a relational store
offers to a program that runs one statement at a time:

* `set` and `erase` write and remove one row;
* `updateWhere` is the conditional update of one row: it applies its data to the row of the key if
  that row meets the condition, and returns the number of rows it changed;
* `eraseWhere` removes one row if it meets the condition;
* `updateAll` applies its data to every row that meets the condition.

`updateWhere_cases` says what a conditional update can do. The other lemmas read a table back
after a write, at the key written and at every other key. -/

namespace BackendFoundation.Lib

/-- The row of each key, if there is one. -/
abbrev Table (K V : Type*) := K → Option V

namespace Table

variable {K V : Type*} [DecidableEq K]

def empty : Table K V := fun _ => none

def set (t : Table K V) (k : K) (v : V) : Table K V := fun k' => if k' = k then some v else t k'

def erase (t : Table K V) (k : K) : Table K V := fun k' => if k' = k then none else t k'

/-- Updates the row of `k` if it meets `cond`, and returns how many rows were changed. -/
def updateWhere (t : Table K V) (k : K) (cond : V → Prop) [DecidablePred cond] (data : V → V) :
    Table K V × ℕ :=
  match t k with
  | some v => if cond v then (t.set k (data v), 1) else (t, 0)
  | none => (t, 0)

/-- Removes the row of `k` if it meets `cond`. -/
def eraseWhere (t : Table K V) (k : K) (cond : V → Prop) [DecidablePred cond] : Table K V :=
  if (t k).any (fun v => decide (cond v)) then t.erase k else t

/-- Updates every row that meets `cond`. -/
def updateAll (t : Table K V) (cond : K → V → Prop)
    [∀ k v, Decidable (cond k v)] (data : K → V → V) : Table K V :=
  fun k => (t k).map fun v => if cond k v then data k v else v

variable {t : Table K V} {k k' : K} {v : V}

omit [DecidableEq K] in
@[simp] theorem empty_apply : (empty : Table K V) k = none := rfl

@[simp] theorem set_self : t.set k v k = some v := by simp [set]

theorem set_of_ne (h : k' ≠ k) : t.set k v k' = t k' := by simp [set, h]

theorem set_eq_some {v' : V} :
    t.set k v k' = some v' ↔ (k' = k ∧ v' = v) ∨ (k' ≠ k ∧ t k' = some v') := by
  unfold set
  split_ifs with h <;> simp [h, eq_comm]

@[simp] theorem set_set {v' : V} : (t.set k v).set k v' = t.set k v' := by
  funext k'
  unfold set
  split_ifs <;> rfl

@[simp] theorem set_erase : (t.erase k).set k v = t.set k v := by
  funext k'
  unfold set erase
  split_ifs <;> rfl

@[simp] theorem erase_self : t.erase k k = none := by simp [erase]

theorem erase_of_ne (h : k' ≠ k) : t.erase k k' = t k' := by simp [erase, h]

theorem erase_eq_some {v' : V} : t.erase k k' = some v' ↔ k' ≠ k ∧ t k' = some v' := by
  unfold erase
  split_ifs with h <;> simp [h]

/-- **What a conditional update does.** Either the row meets the condition and is replaced, or the
table stays as it was. -/
theorem updateWhere_cases (t : Table K V) (k : K) (cond : V → Prop) [DecidablePred cond]
    (data : V → V) :
    (∃ v, t k = some v ∧ cond v ∧ t.updateWhere k cond data = (t.set k (data v), 1)) ∨
      ((∀ v, t k = some v → ¬ cond v) ∧ t.updateWhere k cond data = (t, 0)) := by
  unfold updateWhere
  cases hk : t k with
  | none => exact .inr ⟨by simp, rfl⟩
  | some v =>
    by_cases hc : cond v
    · exact .inl ⟨v, rfl, hc, by simp [hc]⟩
    · exact .inr ⟨by rintro _ ⟨⟩; exact hc, by simp [hc]⟩

variable {cond : V → Prop}

theorem updateWhere_of_ne [DecidablePred cond] {data : V → V} (h : k' ≠ k) :
    (t.updateWhere k cond data).1 k' = t k' := by
  obtain ⟨v, -, -, he⟩ | ⟨-, he⟩ := t.updateWhere_cases k cond data
  · rw [he]
    exact set_of_ne h
  · rw [he]

theorem updateWhere_of_none [DecidablePred cond] {data : V → V} (h : t k' = none) :
    (t.updateWhere k cond data).1 k' = none := by
  obtain ⟨v, hv, -, he⟩ | ⟨-, he⟩ := t.updateWhere_cases k cond data
  · rw [he]
    refine (set_of_ne ?_).trans h
    rintro rfl
    rw [h] at hv
    cases hv
  · rw [he]
    exact h

theorem updateWhere_apply [DecidablePred cond] {data : V → V} : (t.updateWhere k cond data).1 k' =
      if k = k' then (t k').map fun v => if cond v then data v else v else t k' := by
  split_ifs with h
  · subst h
    obtain ⟨v, hv, hc, he⟩ | ⟨hc, he⟩ := t.updateWhere_cases k cond data
    · simp [he, hv, hc]
    · rw [he]
      cases hv : t k with
      | none => simpa using hv
      | some v => simpa [hc v hv] using hv
  · exact updateWhere_of_ne (Ne.symm h)

/-- A table of images is updated as the table is, if the conditions and the data agree. -/
theorem updateWhere_map {W : Type*} {f : V → W} {u : Table K W} {cond' : W → Prop}
    [DecidablePred cond] [DecidablePred cond'] {data : V → V} {data' : W → W}
    (h : ∀ k, u k = (t k).map f) (hcond : ∀ v, cond' (f v) ↔ cond v)
    (hdata : ∀ v, data' (f v) = f (data v)) (k k' : K) :
    (u.updateWhere k cond' data').1 k' = ((t.updateWhere k cond data).1 k').map f := by
  rw [updateWhere_apply, updateWhere_apply, h]
  split_ifs
  · cases t k' with
    | none => rfl
    | some v =>
      simp only [Option.map_some, hcond]
      split_ifs
      · rw [hdata]
      · rfl
  · rfl

/-- **What a conditional removal does.** -/
theorem eraseWhere_cases (t : Table K V) (k : K) (cond : V → Prop) [DecidablePred cond] :
    (∃ v, t k = some v ∧ cond v ∧ t.eraseWhere k cond = t.erase k) ∨
      t.eraseWhere k cond = t := by
  unfold eraseWhere
  split_ifs with h
  · obtain ⟨v, hv, hc⟩ := (Option.any_eq_true _ _).mp h
    exact .inl ⟨v, hv, of_decide_eq_true hc, rfl⟩
  · exact .inr rfl

end Table

end BackendFoundation.Lib
