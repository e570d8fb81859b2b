import Mathlib.Data.List.Sort
import Mathlib.Data.Nat.Notation
import Mathlib.Tactic.Common

/-! # Logs numbered without gaps

A log is the list of its entries, in the order in which they were appended; it is dense if their
numbers are `1, …, n` in this order. A reader that has the entries up to a number asks for a `page`
of the entries after it. Of a dense log a page is the next run of numbers (`Dense.map_page`), and it
is empty only at the end (`Dense.page_eq_nil`): so a reader that goes on from the largest number it
has received has at any time received a run of numbers (`Caught`), and all of them once a page is
empty. -/

namespace BackendFoundation.Lib.DenseLog

variable {α : Type*} {number : α → ℕ} {log received : List α} {a : α} {n s after take : ℕ}

/-- The numbers of the entries are `1, …, n`, in this order. -/
def Dense (number : α → ℕ) (log : List α) (n : ℕ) : Prop := log.map number = List.range' 1 n

theorem Dense.append (h : Dense number log n) (ha : number a = n + 1) :
    Dense number (log ++ [a]) (n + 1) := by
  rw [Dense, List.map_append, h, List.range'_1_concat, List.map_singleton, ha, Nat.add_comm n 1]

theorem Dense.map {f : α → α} (hf : ∀ a ∈ log, number (f a) = number a)
    (h : Dense number log n) : Dense number (log.map f) n := by
  rw [Dense, List.map_map, ← h]
  exact List.map_congr_left hf

theorem Dense.exists_iff (h : Dense number log n) {k : ℕ} :
    (∃ a ∈ log, number a = k) ↔ 1 ≤ k ∧ k ≤ n := by
  rw [← List.mem_map, h, List.mem_range'_1]
  omega

theorem Dense.number_le (h : Dense number log n) (ha : a ∈ log) : number a ≤ n :=
  (h.exists_iff.mp ⟨a, ha, rfl⟩).2

theorem Dense.nodup (h : Dense number log n) : (log.map number).Nodup := by
  rw [h]
  exact List.nodup_range'

/-! ### Pages -/

/-- The entries after a number, in the order of their numbers, at most `take` of them. -/
def page (number : α → ℕ) (after take : ℕ) (log : List α) : List α :=
  ((log.filter (after < number ·)).insertionSort (number · ≤ number ·)).take take

theorem mem_of_mem_page (h : a ∈ page number after take log) : a ∈ log :=
  (List.mem_filter.mp ((List.perm_insertionSort _ _).mem_iff.mp (List.mem_of_mem_take h))).1

theorem filter_range' (after n : ℕ) :
    (List.range' 1 n).filter (after < ·) = List.range' (after + 1) (n - after) := by
  induction n with
  | zero => simp
  | succ n ih =>
    rw [List.range'_1_concat, List.filter_append, ih]
    by_cases h : after < 1 + n
    · have hlast : after + 1 + (n - after) = 1 + n := by omega
      have hsucc : n + 1 - after = n - after + 1 := by omega
      rw [List.filter_singleton, decide_eq_true h, cond_true, hsucc, List.range'_1_concat, hlast]
    · have hzero : n - after = 0 := by omega
      have hsucc : n + 1 - after = 0 := by omega
      rw [List.filter_singleton, decide_eq_false h, cond_false, hzero, hsucc, List.append_nil]

/-- **A page of a dense log is the next run of numbers.** -/
theorem Dense.map_page (h : Dense number log n) (after take : ℕ) :
    (page number after take log).map number =
      List.range' (after + 1) (min take (n - after)) := by
  have hmap : (log.filter (after < number ·)).map number =
      List.range' (after + 1) (n - after) := by
    rw [← filter_range', ← h, List.filter_map]
    rfl
  have hsorted : (log.filter (after < number ·)).Pairwise (number · ≤ number ·) := by
    rw [← List.pairwise_map (R := (· ≤ ·)), hmap]
    exact List.pairwise_le_range' 1
  rw [page, List.Pairwise.insertionSort_eq hsorted, List.map_take, hmap]
  rcases Nat.le_total take (n - after) with hle | hle
  · rw [List.take_range'_of_length_ge hle, Nat.min_eq_left hle]
  · rw [List.take_range'_of_length_le hle, Nat.min_eq_right hle]

theorem Dense.page_eq_nil (h : Dense number log n) (htake : 1 ≤ take)
    (hnil : page number after take log = []) : n ≤ after := by
  have hmap := h.map_page after take
  rw [hnil, List.map_nil, eq_comm, List.range'_eq_nil_iff] at hmap
  omega

/-! ### Readers -/

/-- The largest number received, `s` if none is. -/
def largest (number : α → ℕ) (s : ℕ) (received : List α) : ℕ :=
  received.foldl (fun m a => max m (number a)) s

/-- The reader has received the run of numbers that begins after `s`. -/
def Caught (number : α → ℕ) (s : ℕ) (received : List α) : Prop :=
  received.map number = List.range' (s + 1) received.length

theorem Caught.nil : Caught number s [] := rfl

theorem Caught.largest : ∀ {received : List α} {s : ℕ}, Caught number s received →
    largest number s received = s + received.length
  | [], _, _ => rfl
  | a :: rest, s, h => by
    obtain ⟨ha, hrest⟩ : number a = s + 1 ∧ rest.map number = List.range' (s + 2) rest.length := by
      simpa [Caught, List.range'_succ] using h
    have hlargest := Caught.largest (s := s + 1) hrest
    rw [DenseLog.largest, List.foldl_cons, ha, Nat.max_eq_right (Nat.le_add_right s 1), List.length_cons]
    rw [DenseLog.largest] at hlargest
    omega

/-- **The reader goes on with the next run of numbers.** -/
theorem Caught.append (hcaught : Caught number s received) (h : Dense number log n) :
    Caught number s (received ++ page number (DenseLog.largest number s received) take log) := by
  have hpage := h.map_page (DenseLog.largest number s received) take
  have hlength := congrArg List.length hpage
  rw [List.length_map, List.length_range'] at hlength
  rw [Caught, List.map_append, hcaught, hpage, List.length_append, hlength, hcaught.largest,
    show s + received.length + 1 = s + 1 + received.length by omega, List.range'_append_1]

theorem Caught.le (hcaught : Caught number s received) (h : Dense number log n)
    (hle : received = [] ∨ s + received.length ≤ n) :
    let received' := received ++ page number (DenseLog.largest number s received) take log
    received' = [] ∨ s + received'.length ≤ n := by
  intro received'
  have hlength : (page number (DenseLog.largest number s received) take log).length =
      min take (n - (s + received.length)) := by
    rw [← List.length_map number, h.map_page, List.length_range', hcaught.largest]
  rw [or_iff_not_imp_left]
  intro hne
  rw [List.length_append, hlength]
  by_cases hnil : received = []
  · have : min take (n - (s + received.length)) ≠ 0 := by
      intro hzero
      rw [hzero, List.length_eq_zero_iff] at hlength
      exact hne (List.append_eq_nil_iff.mpr ⟨hnil, hlength⟩)
    omega
  · have := hle.resolve_left hnil
    omega

/-- **At an empty page the reader has received every number after `s`.** -/
theorem Caught.complete (hcaught : Caught number s received) (h : Dense number log n)
    (hle : received = [] ∨ s + received.length ≤ n) (htake : 1 ≤ take)
    (hnil : page number (DenseLog.largest number s received) take log = []) :
    received.map number = List.range' (s + 1) (n - s) := by
  have hn := h.page_eq_nil htake hnil
  rw [hcaught.largest] at hn
  rw [hcaught]
  rcases hle with rfl | hle
  · rw [List.length_nil] at hn ⊢
    rw [show n - s = 0 by omega]
  · rw [show n - s = received.length by omega]

end BackendFoundation.Lib.DenseLog
