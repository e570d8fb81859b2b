import Mathlib.Data.Int.Notation
import Mathlib.Tactic.Common

/-! # Tables as lists of rows

A table is the list of its rows. `updateWhere` is the update of every row that meets a condition,
`countWhere` the number of these rows. `pickFirst` picks one of the rows that a query may return
first, and `firstBy` the first one in the order of a key. -/

namespace BackendFoundation.Lib.Rows

variable {α : Type*}

def updateWhere (rows : List α) (cond : α → Bool) (data : α → α) : List α :=
  rows.map fun row => if cond row then data row else row

/-- The number of rows that `updateWhere` changes. -/
def countWhere (rows : List α) (cond : α → Bool) : ℕ := rows.countP cond

/-- The first row of a query that does not say which; `pick` says which of them the store returns.
`none` if there is no such choice, and `some none` if there is no row. -/
def pickFirst (rows : List α) (pick : ℕ) : Option (Option α) :=
  match rows with
  | [] => some none
  | rows => (rows[pick]?).map some

/-- The first row in the ascending order of a key; of rows with one key, the one that stands first. -/
def firstBy (key : α → ℤ) : List α → Option α
  | [] => none
  | row :: rest =>
    match firstBy key rest with
    | none => some row
    | some best => if key row ≤ key best then some row else some best

/-- The row comes before every other in the ascending order of a key. -/
def IsFirstBy (key : α → ℤ) (rows : List α) (row : α) : Prop :=
  ∃ before after, rows = before ++ row :: after ∧ (∀ other ∈ before, key row < key other) ∧
    ∀ other ∈ after, key row ≤ key other

variable {rows : List α} {cond : α → Bool} {data : α → α} {row : α} {pick : ℕ}

theorem mem_updateWhere :
    row ∈ updateWhere rows cond data ↔ ∃ old ∈ rows, row = if cond old then data old else old := by
  rw [updateWhere, List.mem_map]
  exact exists_congr fun old => and_congr_right fun _ => eq_comm

theorem updateWhere_cases (h : row ∈ updateWhere rows cond data) :
    row ∈ rows ∨ ∃ old ∈ rows, cond old = true ∧ row = data old := by
  obtain ⟨old, hold, rfl⟩ := mem_updateWhere.mp h
  split_ifs with hc
  · exact .inr ⟨old, hold, hc, rfl⟩
  · exact .inl hold

theorem mem_of_pickFirst (h : pickFirst rows pick = some (some row)) : row ∈ rows := by
  unfold pickFirst at h
  split at h
  · cases h
  · obtain ⟨found, hfound, he⟩ := Option.map_eq_some_iff.mp h
    obtain rfl := Option.some.inj he
    exact List.mem_of_getElem? hfound

theorem firstBy_eq_none_iff (key : α → ℤ) : firstBy key rows = none ↔ rows = [] := by
  cases rows with
  | nil => simp [firstBy]
  | cons first rest =>
    rw [firstBy]
    rcases firstBy key rest with _ | best
    · simp
    · dsimp only
      split_ifs <;> simp

variable {key : α → ℤ}

/-- The first row is the one that comes before every other. -/
theorem isFirstBy_of_firstBy (h : firstBy key rows = some row) : IsFirstBy key rows row := by
  induction rows generalizing row with
  | nil => cases h
  | cons first rest ih =>
    rw [firstBy] at h
    rcases hrest : firstBy key rest with _ | best
    · rw [hrest, Option.some.injEq] at h
      rw [(firstBy_eq_none_iff key).mp hrest, h]
      exact ⟨[], [], rfl, by simp, by simp⟩
    · obtain ⟨before, after, hsplit, hbefore, hafter⟩ := ih hrest
      rw [hrest] at h
      dsimp only at h
      split_ifs at h with hle
      · obtain rfl := Option.some.inj h
        refine ⟨[], rest, rfl, by simp, fun other hother => ?_⟩
        rw [hsplit] at hother
        rcases List.mem_append.mp hother with hin | hin
        · have := hbefore other hin
          omega
        rcases List.mem_cons.mp hin with rfl | hin
        · exact hle
        · have := hafter other hin
          omega
      · obtain rfl := Option.some.inj h
        refine ⟨first :: before, after, by rw [hsplit]; rfl, fun other hother => ?_, hafter⟩
        rcases List.mem_cons.mp hother with rfl | hin
        · omega
        · exact hbefore other hin

theorem IsFirstBy.mem (h : IsFirstBy key rows row) : row ∈ rows := by
  obtain ⟨before, after, rfl, -⟩ := h
  exact List.mem_append_right before List.mem_cons_self

theorem IsFirstBy.unique {a b : α} (ha : IsFirstBy key rows a) (hb : IsFirstBy key rows b) :
    a = b := by
  obtain ⟨before, after, hsplit, hbefore, hafter⟩ := ha
  obtain ⟨before', after', hsplit', hbefore', hafter'⟩ := hb
  rw [hsplit, List.append_eq_append_iff] at hsplit'
  rcases hsplit' with ⟨middle, hleft, hright⟩ | ⟨middle, hleft, hright⟩
  · cases middle with
    | nil => exact (List.cons.inj hright).1
    | cons c middle =>
      obtain ⟨rfl, hafter₀⟩ := List.cons.inj hright
      have hlt := hbefore' a (by rw [hleft]; simp)
      have hle := hafter b (by rw [hafter₀]; simp)
      omega
  · cases middle with
    | nil => exact (List.cons.inj hright).1.symm
    | cons c middle =>
      obtain ⟨rfl, hafter₀⟩ := List.cons.inj hright
      have hlt := hbefore b (by rw [hleft]; simp)
      have hle := hafter' a (by rw [hafter₀]; simp)
      omega

theorem firstBy_eq_some_iff : firstBy key rows = some row ↔ IsFirstBy key rows row := by
  refine ⟨isFirstBy_of_firstBy, fun h => ?_⟩
  rcases hfirst : firstBy key rows with _ | found
  · obtain ⟨before, after, hsplit, -⟩ := h
    rw [(firstBy_eq_none_iff key).mp hfirst] at hsplit
    simp at hsplit
  · rw [(isFirstBy_of_firstBy hfirst).unique h]

end BackendFoundation.Lib.Rows
