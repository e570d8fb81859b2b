import Mathlib.Data.List.Nodup
import Mathlib.Tactic.Common

/-! # Pages of a list that grows in front

A list is read in pages from its front, each behind the last row of the page before it. Rows may be added
in front, and rows may be rewritten that keep their keys, but none goes. What is behind a row then has the
same keys (`behind_cons`, `behind_map`), and the page behind a row begins where the page
that ends with it has stopped (`behind_last`). -/

namespace BackendFoundation.Lib.GrowingList

variable {α κ : Type*} [DecidableEq κ] {key : α → κ} {cursor : κ} {rows rest front : List α} {row : α}
  {n : ℕ}

/-- The rows behind the one with a key. -/
def behind (key : α → κ) (cursor : κ) (rows : List α) : List α :=
  (rows.dropWhile fun row => key row ≠ cursor).tail

/-- What is left to read, from the front or behind a row. -/
def left (key : α → κ) (cursor : Option κ) (rows : List α) : List α :=
  match cursor with
  | none => rows
  | some cursor => behind key cursor rows

theorem behind_append (h : ∀ row ∈ front, key row ≠ cursor) (hrow : key row = cursor) :
    behind key cursor (front ++ row :: rest) = rest := by
  rw [behind, List.dropWhile_append_of_pos fun a ha => decide_eq_true (h a ha),
    List.dropWhile_cons_of_neg (by rw [hrow]; simp)]
  rfl

theorem behind_cons (h : key row ≠ cursor) : behind key cursor (row :: rows) = behind key cursor rows :=
  congrArg List.tail (List.dropWhile_cons_of_pos (decide_eq_true h))

theorem behind_map {f : α → α} (hf : ∀ row, key (f row) = key row) :
    behind key cursor (rows.map f) = (behind key cursor rows).map f := by
  induction rows with
  | nil => rfl
  | cons row rows ih =>
    by_cases h : key row = cursor
    · have hdrop (row : α) (rows : List α) (hrow : key row = cursor) :
          behind key cursor ([] ++ row :: rows) = rows :=
        behind_append (fun _ hmem => absurd hmem List.not_mem_nil) hrow
      have hmapped := hdrop (f row) (rows.map f) ((hf row).trans h)
      rw [List.nil_append] at hmapped
      have hplain := hdrop row rows h
      rw [List.nil_append] at hplain
      rw [List.map_cons, hmapped, hplain]
    · rw [List.map_cons, behind_cons ((hf row).symm ▸ h), behind_cons h, ih]

theorem left_suffix (cursor : Option κ) (rows : List α) : left key cursor rows <:+ rows := by
  cases cursor with
  | none => exact List.suffix_refl rows
  | some cursor => exact (List.tail_suffix _).trans (List.dropWhile_suffix _)

/-- **The next page begins where the last one has stopped.** -/
theorem behind_last (hnodup : (rows.map key).Nodup) {cursor : Option κ}
    (hlast : ((left key cursor rows).take n).getLast? = some row) :
    behind key (key row) rows = (left key cursor rows).drop n := by
  have hsuffix : left key cursor rows <:+ rows := left_suffix cursor rows
  obtain ⟨front, hfront⟩ := hsuffix
  obtain ⟨page, hpage⟩ := List.getLast?_eq_some_iff.mp hlast
  have hrows : rows = front ++ page ++ row :: (left key cursor rows).drop n := by
    have hsplit := List.take_append_drop n (left key cursor rows)
    rw [hpage] at hsplit
    rw [List.append_assoc, ← List.singleton_append (l := (left key cursor rows).drop n),
      ← List.append_assoc page, hsplit]
    exact hfront.symm
  have hne : ∀ other ∈ front ++ page, key other ≠ key row := by
    rw [hrows, List.map_append, List.map_cons, List.nodup_append] at hnodup
    intro other hother
    exact hnodup.2.2 (key other) (List.mem_map_of_mem hother) (key row) List.mem_cons_self
  rw [congrArg (behind key (key row)) hrows, behind_append hne rfl]

end BackendFoundation.Lib.GrowingList
