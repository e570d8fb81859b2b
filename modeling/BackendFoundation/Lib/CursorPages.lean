import Mathlib.Data.List.Sort
import Mathlib.Order.Defs.LinearOrder
import Mathlib.Tactic.Common

/-! # Pages behind a cursor

Rows that are ordered by a key are read in pages: the first `take` rows, then the `take` rows behind
the last one, the cursor row. The latter are those at or after the position of the cursor row
without the first of them. A row may drop out between two pages, and if the cursor row has, then the
first of them is a row that no page had.

`visited` is what the pages have together if a row drops out unless it `stays`. Where the pages have
limits of their own, `PageEnds` is what holds of the last row of each page but the last one.

Main results: `atOrAfter_ordered` and `after_ordered` (what is left behind the cursor row),
`pageEnds_append_iff` (the first page and the others) and `visited_eq_iff` (the pages have every row
exactly if the cursor rows stay). -/

namespace BackendFoundation.Lib.CursorPages

variable {α κ : Type*} [LinearOrder κ] {key : α → κ} {rows done front rest : List α}
  {cursor row : α} {p left stays : α → Bool} {q : α → Prop} {limit : ℕ → ℕ} {take fuel : ℕ}

def ordered (key : α → κ) (rows : List α) : List α := rows.insertionSort (key · ≤ key ·)

/-- The rows at or after a position. -/
def atOrAfter (key : α → κ) (position : κ) (rows : List α) : List α :=
  rows.filter (position ≤ key ·)

/-- The rows behind a position. -/
def after (key : α → κ) (position : κ) (rows : List α) : List α := rows.filter (position < key ·)

/-- A page of some rows, from the start or behind a position. -/
def page (key : α → κ) (take : ℕ) (rows : List α) : Option κ → List α
  | none => (ordered key rows).take take
  | some position => ((atOrAfter key position (ordered key rows)).drop 1).take take

/-! ### The order -/

theorem perm_ordered (key : α → κ) (rows : List α) : (ordered key rows).Perm rows :=
  List.perm_insertionSort _ rows

theorem mem_ordered {row : α} : row ∈ ordered key rows ↔ row ∈ rows :=
  (perm_ordered key rows).mem_iff

theorem ordered_le (key : α → κ) (rows : List α) :
    (ordered key rows).Pairwise (key · ≤ key ·) := by
  have : Std.Total fun a b : α => key a ≤ key b := ⟨fun a b => le_total _ _⟩
  have : IsTrans α fun a b => key a ≤ key b := ⟨fun a b c => le_trans⟩
  exact List.pairwise_insertionSort _ rows

theorem ordered_lt (hkeys : (rows.map key).Nodup) :
    (ordered key rows).Pairwise (key · < key ·) := by
  have hnodup : ((ordered key rows).map key).Nodup :=
    ((perm_ordered key rows).map key).nodup_iff.mpr hkeys
  have hne : (ordered key rows).Pairwise (key · ≠ key ·) := List.pairwise_map.mp hnodup
  exact ((ordered_le key rows).and hne).imp fun h => lt_of_le_of_ne h.1 h.2

theorem ordered_filter (hkeys : (rows.map key).Nodup) (p : α → Bool) :
    ordered key (rows.filter p) = (ordered key rows).filter p := by
  have hperm : (ordered key (rows.filter p)).Perm ((ordered key rows).filter p) :=
    (perm_ordered key _).trans ((perm_ordered key rows).filter p).symm
  have hfilter : ((rows.filter p).map key).Nodup :=
    hkeys.sublist (List.filter_sublist.map key)
  refine hperm.eq_of_pairwise ?_ (ordered_lt hfilter) ((ordered_lt hkeys).filter p)
  intro a b _ _ hab hba
  exact absurd hab (lt_asymm hba)

/-! ### Behind the cursor row -/

/-- **What is left behind the cursor row**, with the cursor row if it is left itself. -/
theorem atOrAfter_ordered (hlt : (done ++ cursor :: rest).Pairwise (key · < key ·))
    (hleft : ∀ row ∈ rest, left row = true) :
    atOrAfter key (key cursor) ((done ++ cursor :: rest).filter left) =
      if left cursor then cursor :: rest else rest := by
  obtain ⟨-, htail, hdone⟩ := List.pairwise_append.mp hlt
  obtain ⟨hcursor, -⟩ := List.pairwise_cons.mp htail
  have hbefore : (done.filter left).filter (key cursor ≤ key ·) = [] := by
    refine List.filter_eq_nil_iff.mpr fun row hrow => ?_
    have hrow' := hdone row (List.mem_of_mem_filter hrow) cursor List.mem_cons_self
    rw [decide_eq_true_eq]
    exact not_le.mpr hrow'
  have hrest : (rest.filter left).filter (key cursor ≤ key ·) = rest := by
    rw [List.filter_eq_self.mpr hleft]
    refine List.filter_eq_self.mpr fun row hrow => ?_
    rw [decide_eq_true_eq]
    exact le_of_lt (hcursor row hrow)
  unfold atOrAfter
  rw [List.filter_append, List.filter_append, hbefore, List.nil_append, List.filter_cons]
  split_ifs with hc
  · rw [List.filter_cons, hrest, decide_eq_true le_rfl, if_pos rfl]
  · exact hrest

theorem after_ordered (hlt : (done ++ cursor :: rest).Pairwise (key · < key ·)) :
    after key (key cursor) (done ++ cursor :: rest) = rest := by
  obtain ⟨-, htail, hdone⟩ := List.pairwise_append.mp hlt
  obtain ⟨hcursor, -⟩ := List.pairwise_cons.mp htail
  have hbefore : done.filter (key cursor < key ·) = [] := by
    refine List.filter_eq_nil_iff.mpr fun row hrow => ?_
    have hrow' := hdone row hrow cursor List.mem_cons_self
    rw [decide_eq_true_eq]
    exact lt_asymm hrow'
  have hrest : rest.filter (key cursor < key ·) = rest :=
    List.filter_eq_self.mpr fun row hrow => decide_eq_true (hcursor row hrow)
  have hself : ¬ decide (key cursor < key cursor) = true := by
    rw [decide_eq_true_eq]
    exact lt_irrefl _
  rw [after, List.filter_append, hbefore, List.nil_append, List.filter_cons, if_neg hself, hrest]

/-! ### Pages of any lengths -/

/-- How many rows the first `n + 1` pages have, if they are full. -/
def pageEnd (limit : ℕ → ℕ) : ℕ → ℕ
  | 0 => limit 0
  | n + 1 => pageEnd limit n + limit (n + 1)

/-- Each page that another one follows ends with a row that meets `q`. -/
def PageEnds (q : α → Prop) (limit : ℕ → ℕ) (rows : List α) : Prop :=
  ∀ n row, pageEnd limit n < rows.length → rows[pageEnd limit n - 1]? = some row → q row

theorem pageEnd_succ (limit : ℕ → ℕ) (n : ℕ) :
    pageEnd limit (n + 1) = limit 0 + pageEnd (fun i => limit (i + 1)) n := by
  induction n with
  | zero => rfl
  | succ n ih => rw [pageEnd, ih, pageEnd, Nat.add_assoc]

theorem le_pageEnd (limit : ℕ → ℕ) (n : ℕ) : limit 0 ≤ pageEnd limit n := by
  cases n with
  | zero => exact le_rfl
  | succ n =>
    rw [pageEnd_succ]
    exact Nat.le_add_right _ _

theorem PageEnds.of_short (hshort : rest.length ≤ limit 0) : PageEnds q limit rest := by
  intro n row hlt _
  have hle := le_pageEnd limit n
  omega

theorem PageEnds.of_forall (h : ∀ row ∈ rows, q row) : PageEnds q limit rows :=
  fun _ row _ hrow => h row (List.mem_of_getElem? hrow)

/-- The first page ends with such a row, and so do the others. -/
theorem pageEnds_append_iff (hpage : front.length + 1 = limit 0) (hrest : rest ≠ [])
    (hlimit : ∀ n, 1 ≤ limit n) :
    PageEnds q limit (front ++ row :: rest) ↔ q row ∧ PageEnds q (fun n => limit (n + 1)) rest := by
  have hlength : (front ++ row :: rest).length = limit 0 + rest.length := by
    rw [List.length_append, List.length_cons]
    omega
  have hfirst : (front ++ row :: rest)[limit 0 - 1]? = some row := by
    rw [← hpage, Nat.add_sub_cancel, List.getElem?_append_right le_rfl, Nat.sub_self]
    rfl
  have hlater (n : ℕ) : (front ++ row :: rest)[pageEnd limit (n + 1) - 1]? =
      rest[pageEnd (fun i => limit (i + 1)) n - 1]? := by
    have hle := le_pageEnd (fun i => limit (i + 1)) n
    have hpos := hlimit (0 + 1)
    have hindex : pageEnd limit (n + 1) - 1 - front.length =
        pageEnd (fun i => limit (i + 1)) n - 1 + 1 := by
      rw [pageEnd_succ]
      omega
    rw [List.getElem?_append_right (by rw [pageEnd_succ]; omega), hindex, List.getElem?_cons_succ]
  have hpos := List.length_pos_of_ne_nil hrest
  constructor
  · intro h
    refine ⟨h 0 row (by rw [pageEnd]; omega) (by rw [pageEnd, hfirst]), ?_⟩
    intro n next hlt hnext
    refine h (n + 1) next ?_ ((hlater n).trans hnext)
    rw [pageEnd_succ]
    omega
  · rintro ⟨hrow, h⟩ n next hlt hnext
    cases n with
    | zero =>
      rw [pageEnd, hfirst] at hnext
      rwa [← Option.some.inj hnext]
    | succ n =>
      rw [hlater] at hnext
      rw [pageEnd_succ] at hlt
      exact h n next (by omega) hnext

/-! ### All pages -/

/-- What the page behind this one starts with: the last row of this page is its cursor row. -/
def behind (stays : α → Bool) (take : ℕ) (rest : List α) : List α :=
  if rest[take - 1]?.any stays then rest.drop take else rest.drop (take + 1)

/-- The rows of all pages. A page that is not full is the last one. -/
def visited (stays : α → Bool) (take : ℕ) : ℕ → List α → List α
  | 0, _ => []
  | fuel + 1, rest =>
    if rest.length < take then rest
    else rest.take take ++ visited stays take fuel (behind stays take rest)

theorem behind_suffix (stays : α → Bool) (take : ℕ) (rest : List α) :
    behind stays take rest <:+ rest.drop take := by
  unfold behind
  split_ifs
  · exact List.suffix_rfl
  · rw [← List.drop_drop]
    exact List.drop_suffix _ _

theorem visited_sublist (stays : α → Bool) (take fuel : ℕ) (rest : List α) :
    (visited stays take fuel rest).Sublist rest := by
  induction fuel generalizing rest with
  | zero => exact List.nil_sublist _
  | succ fuel ih =>
    unfold visited
    split_ifs
    · exact List.Sublist.refl _
    · have hbehind := (ih (behind stays take rest)).trans (behind_suffix stays take rest).sublist
      have happend := (List.Sublist.refl (rest.take take)).append hbehind
      rwa [List.take_append_drop] at happend

/-- Each page but the last one ends with a row that stays. -/
def CursorsStay (stays : α → Bool) (take : ℕ) (rows : List α) : Prop :=
  ∀ k row, 1 ≤ k → k * take < rows.length → rows[k * take - 1]? = some row → stays row = true

theorem CursorsStay.of_short (hshort : rest.length ≤ take) : CursorsStay stays take rest := by
  intro k row hk hlt _
  have hle : take ≤ k * take := Nat.le_mul_of_pos_left take hk
  omega

theorem cursorsStay_iff_drop {row : α} (htake : 1 ≤ take) (hlast : rest[take - 1]? = some row)
    (hstays : stays row = true) :
    CursorsStay stays take rest ↔ CursorsStay stays take (rest.drop take) := by
  have hget (k : ℕ) (hk : 1 ≤ k) :
      (rest.drop take)[k * take - 1]? = rest[(k + 1) * take - 1]? := by
    have hle : take ≤ k * take := Nat.le_mul_of_pos_left take hk
    have hsucc : (k + 1) * take = k * take + take := Nat.succ_mul k take
    rw [List.getElem?_drop, show take + (k * take - 1) = (k + 1) * take - 1 by omega]
  have hlength : (rest.drop take).length = rest.length - take := List.length_drop
  constructor
  · intro h k next hk hlt hnext
    have hsucc : (k + 1) * take = k * take + take := Nat.succ_mul k take
    exact h (k + 1) next (by omega) (by omega) (by rw [← hget k hk]; exact hnext)
  · intro h k next hk hlt hnext
    obtain rfl | hk' := Nat.eq_or_lt_of_le hk
    · rw [Nat.one_mul, hlast] at hnext
      rw [← Option.some.inj hnext]
      exact hstays
    · obtain ⟨j, rfl⟩ : ∃ j, k = j + 1 := ⟨k - 1, by omega⟩
      have hsucc : (j + 1) * take = j * take + take := Nat.succ_mul j take
      exact h j next (by omega) (by omega) (by rw [hget j (by omega)]; exact hnext)

/-- **The pages have every row** exactly if their last rows stay. -/
theorem visited_eq_iff (htake : 1 ≤ take) (hfuel : rest.length < fuel) :
    visited stays take fuel rest = rest ↔ CursorsStay stays take rest := by
  induction fuel generalizing rest with
  | zero => omega
  | succ fuel ih =>
    rw [visited]
    split_ifs with hshort
    · exact iff_of_true rfl (.of_short (Nat.le_of_lt hshort))
    · have hlt : take - 1 < rest.length := by omega
      have hlast : rest[take - 1]? = some rest[take - 1] := List.getElem?_eq_getElem hlt
      unfold behind
      rw [hlast, Option.any_some]
      cases hstays : stays rest[take - 1] with
      | true =>
        have hdrop : (rest.drop take).length < fuel := by
          rw [List.length_drop]
          omega
        rw [if_pos rfl, cursorsStay_iff_drop htake hlast hstays, ← ih hdrop]
        constructor
        · intro h
          nth_rewrite 3 [← List.take_append_drop take rest] at h
          exact List.append_cancel_left h
        · intro h
          rw [h, List.take_append_drop]
      | false =>
        rw [if_neg Bool.false_ne_true]
        by_cases hend : rest.length = take
        · -- The page is full, but no row is behind it.
          have hnone : visited stays take fuel (rest.drop (take + 1)) = [] := by
            have hsub := visited_sublist stays take fuel (rest.drop (take + 1))
            rw [List.drop_eq_nil_of_le (by omega)] at hsub ⊢
            exact List.sublist_nil.mp hsub
          rw [hnone, List.append_nil, List.take_of_length_le (Nat.le_of_eq hend)]
          exact iff_of_true rfl (.of_short (Nat.le_of_eq hend))
        · refine iff_of_false (fun h => ?_) fun h => ?_
          · have hlength := (visited_sublist stays take fuel (rest.drop (take + 1))).length_le
            have hsum := congrArg List.length h
            rw [List.length_append, List.length_take] at hsum
            rw [List.length_drop] at hlength
            omega
          · have hfirst := h 1 rest[take - 1] le_rfl (by omega) (by rw [Nat.one_mul, hlast])
            rw [hstays] at hfirst
            cases hfirst

end BackendFoundation.Lib.CursorPages
