import Mathlib.Data.List.Pairwise
import Mathlib.Data.Nat.Notation
import Mathlib.Tactic.Common

/-! # Unique indexes

A unique index over a table whose rows have a key or none: no two rows have the same key. -/

namespace BackendFoundation.Lib.UniqueIndex

variable {α κ : Type}

/-- Two entries of a unique index; it does not compare missing ones. -/
def Apart (a b : Option κ) : Prop := ∀ k, a = some k → b ≠ some k

theorem apart_some {x y : κ} : Apart (some x) (some y) ↔ x ≠ y := by
  simp [Apart, eq_comm]

def UniqueKeys (key : α → Option κ) (rows : List α) : Prop :=
  rows.Pairwise fun a b => Apart (key a) (key b)

variable {key : α → Option κ} {rows : List α}

theorem UniqueKeys.append_singleton {row : α} (h : UniqueKeys key rows)
    (hfree : (key row).isSome → key row ∉ rows.map key) : UniqueKeys key (rows ++ [row]) := by
  refine List.pairwise_append.mpr ⟨h, List.pairwise_singleton _ _, ?_⟩
  intro other hother last hlast k hk hkey
  rw [List.mem_singleton] at hlast
  rw [hlast] at hkey
  exact hfree (by rw [hkey]; rfl) (List.mem_map.mpr ⟨other, hother, hk.trans hkey.symm⟩)

theorem UniqueKeys.map {f : α → α} (h : UniqueKeys key rows)
    (hkey : ∀ row, key (f row) = key row) : UniqueKeys key (rows.map f) := by
  rw [UniqueKeys, List.pairwise_map]
  refine h.imp ?_
  intro a b hab
  rw [hkey, hkey]
  exact hab

theorem UniqueKeys.length_filter_le_one {cond : α → Bool} {k : κ} (h : UniqueKeys key rows)
    (hkey : ∀ row ∈ rows, cond row = true → key row = some k) :
    (rows.filter cond).length ≤ 1 := by
  have hpairwise := h.sublist (List.filter_sublist (p := cond) (l := rows))
  have hsame : ∀ row ∈ rows.filter cond, key row = some k := by
    intro row hrow
    obtain ⟨hmem, hcond⟩ := List.mem_filter.mp hrow
    exact hkey row hmem hcond
  rcases hfiltered : rows.filter cond with _ | ⟨a, _ | ⟨b, rest⟩⟩
  · exact Nat.zero_le _
  · exact Nat.le_refl _
  · rw [hfiltered] at hpairwise hsame
    have hab := (List.pairwise_cons.mp hpairwise).1 b List.mem_cons_self
    exact absurd (hsame b (by simp)) (hab k (hsame a (by simp)))

end BackendFoundation.Lib.UniqueIndex
