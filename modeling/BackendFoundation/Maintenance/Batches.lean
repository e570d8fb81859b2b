import BackendFoundation.Errors
import BackendFoundation.Lib.Tasks
import Mathlib.Data.List.Sort
import Mathlib.Order.Defs.LinearOrder
import Mathlib.Data.Int.Order.Basic

/-! # Deletion in batches

`deleteInBatches` of `retention.ts`, and the two statements it is given: `findMany` selects the ids of
some rows that meet a condition, and `deleteMany` deletes the rows of these ids that still do.

Main results: `deleteRows_ok` (what has been deleted when it returns), `deleteRows_returns` (it
returns) and `deleteRows_keeps` (what it keeps however it ends). -/

namespace BackendFoundation.Maintenance.Batches

open Errors Lib.Tasks

structure Cleanup (D : Type) where
  data : D
  /-- How often the signal has been looked at. -/
  checks : ℕ := 0
deriving DecidableEq

abbrev CleanupTask (D α : Type) := Task Thrown (Cleanup D) α

/-- The reason of the signal at each look at it, once it is aborted. -/
abbrev AbortSignal := ℕ → Option Thrown

/-- `signal?.throwIfAborted()`. -/
def throwIfAborted {D : Type} (signal : AbortSignal) : CleanupTask D Unit := fun s =>
  match signal s.checks with
  | some reason => .error (.threw reason) { s with checks := s.checks + 1 }
  | none => .ok () { s with checks := s.checks + 1 }

def batchLoop {D : Type} (signal : AbortSignal) (batchSize : ℕ)
    (selectBatch : ℕ → CleanupTask D (List ℕ)) (deleteBatch : List ℕ → CleanupTask D ℕ) :
    ℕ → ℕ → CleanupTask D ℕ
  | 0, _ => stillRunning
  | fuel + 1, deleted => do
    throwIfAborted signal
    let rows ← selectBatch batchSize
    if rows.length = 0 then
      return deleted
    throwIfAborted signal
    let count ← deleteBatch rows
    if rows.length < batchSize then
      return deleted + count
    batchLoop signal batchSize selectBatch deleteBatch fuel (deleted + count)

def deleteInBatches {D : Type} (fuel : ℕ) (batchSize : ℕ)
    (selectBatch : ℕ → CleanupTask D (List ℕ)) (deleteBatch : List ℕ → CleanupTask D ℕ)
    (signal : AbortSignal) : CleanupTask D ℕ :=
  if batchSize < 1 then throwing (.error "batchSize must be a positive integer")
  else batchLoop signal batchSize selectBatch deleteBatch fuel 0

/-! ### The statements -/

variable {R : Type}

/-- A condition as the client takes it, or the error of the client. -/
abbrev Where (R : Type) := Except Thrown (R → Bool)

/-- At most `take` rows that meet the condition, in the order of a column. -/
def selected (p : R → Bool) (orderBy : R → ℤ) (take : ℕ) (rows : List R) : List R :=
  ((rows.filter p).insertionSort (orderBy · ≤ orderBy ·)).take take

/-- The row meets the condition and its id is one of the list. -/
def deletable (id : R → ℕ) (p : R → Bool) (ids : List ℕ) (row : R) : Bool :=
  ids.contains (id row) && p row

def findMany (id : R → ℕ) (cond : Where R) (orderBy : R → ℤ) (take : ℕ) :
    CleanupTask (List R) (List ℕ) := fun s =>
  match cond with
  | .error e => .error (.threw e) s
  | .ok p => .ok ((selected p orderBy take s.data).map id) s

def deleteMany (id : R → ℕ) (cond : Where R) (ids : List ℕ) : CleanupTask (List R) ℕ := fun s =>
  match cond with
  | .error e => .error (.threw e) s
  | .ok p =>
    .ok (s.data.countP (deletable id p ids))
      { s with data := s.data.filter fun row => !deletable id p ids row }

/-- Both statements have the same condition. -/
def deleteRows (signal : AbortSignal) (fuel batchSize : ℕ) (id : R → ℕ) (cond : Where R)
    (orderBy : R → ℤ) : CleanupTask (List R) ℕ :=
  deleteInBatches fuel batchSize (findMany id cond orderBy) (deleteMany id cond) signal

/-! ### One batch -/

variable {id : R → ℕ} {p q : R → Bool} {cond : Where R} {orderBy : R → ℤ} {take batchSize fuel : ℕ}
  {ids : List ℕ} {rows : List R} {row : R} {signal : AbortSignal} {deleted k : ℕ}
  {s t : Cleanup (List R)}

theorem mem_selected (h : row ∈ selected p orderBy take rows) : row ∈ rows ∧ p row = true := by
  have hsorted := List.mem_of_mem_take h
  rw [List.mem_insertionSort] at hsorted
  exact List.mem_filter.mp hsorted

theorem length_selected :
    (selected p orderBy take rows).length = min take (rows.countP p) := by
  rw [selected, List.length_take, List.length_insertionSort, List.countP_eq_length_filter]

theorem mem_selected_of_lt (orderBy : R → ℤ) (hlt : rows.countP p < take) (hrow : row ∈ rows)
    (hp : p row = true) : row ∈ selected p orderBy take rows := by
  have hlength : ((rows.filter p).insertionSort (orderBy · ≤ orderBy ·)).length ≤ take := by
    rw [List.length_insertionSort, ← List.countP_eq_length_filter]
    exact Nat.le_of_lt hlt
  rw [selected, List.take_of_length_le hlength, List.mem_insertionSort]
  exact List.mem_filter.mpr ⟨hrow, hp⟩

theorem filter_deleted (hdel : ∀ row ∈ rows, deletable id p ids row = p row) :
    (rows.filter fun row => !deletable id p ids row) = rows.filter fun row => !p row :=
  List.filter_congr fun row hrow => by rw [hdel row hrow]

theorem perm_filter_split (hq : ∀ row, q row = true → p row = true) (rows : List R) :
    (rows.filter q ++ (rows.filter (!q ·)).filter p).Perm (rows.filter p) := by
  have hsplit := List.filter_append_perm q (rows.filter p)
  have hout : (rows.filter p).filter q = rows.filter q := by
    rw [List.filter_filter]
    refine List.filter_congr fun row _ => ?_
    cases h : q row with
    | false => rfl
    | true => rw [hq row h, Bool.and_self]
  have hleft : (rows.filter p).filter (!q ·) = (rows.filter (!q ·)).filter p :=
    List.filter_comm _ _ _
  rwa [hout, hleft] at hsplit

theorem filter_not_split (hq : ∀ row, q row = true → p row = true) (rows : List R) :
    (rows.filter (!q ·)).filter (!p ·) = rows.filter (!p ·) := by
  rw [List.filter_filter]
  refine List.filter_congr fun row _ => ?_
  cases h : q row with
  | false => rw [Bool.not_false, Bool.and_true]
  | true => rw [hq row h, Bool.not_true, Bool.and_self]

theorem of_deletable (h : deletable id p ids row = true) : p row = true :=
  (Bool.and_eq_true_iff.mp h).2

theorem filter_not_deleted : (rows.filter fun row => !deletable id p ids row).filter (!p ·) =
    rows.filter (!p ·) := filter_not_split (fun _ => of_deletable) rows

theorem countP_split (id : R → ℕ) (p : R → Bool) (ids : List ℕ) (rows : List R) :
    rows.countP p = rows.countP (deletable id p ids) +
      (rows.filter fun row => !deletable id p ids row).countP p := by
  have hq : ∀ row, deletable id p ids row = true → p row = true := fun _ => of_deletable
  have hlength := (perm_filter_split hq rows).length_eq
  rw [List.length_append] at hlength
  simp only [List.countP_eq_length_filter]
  exact hlength.symm

theorem countP_deletable_pos (id : R → ℕ) (h : (selected p orderBy take rows).length ≠ 0) :
    0 < rows.countP (deletable id p ((selected p orderBy take rows).map id)) := by
  obtain ⟨row, hrow⟩ := List.exists_mem_of_length_pos (Nat.pos_of_ne_zero h)
  obtain ⟨hmem, hp⟩ := mem_selected hrow
  refine List.countP_pos_iff.mpr ⟨row, hmem, ?_⟩
  have hid : ((selected p orderBy take rows).map id).contains (id row) = true :=
    List.contains_iff_mem.mpr (List.mem_map_of_mem hrow)
  rw [deletable, hid, hp, Bool.and_self]

/-! ### All batches -/

theorem throwIfAborted_eq_ok {D : Type} {c d : Cleanup D} {u : Unit}
    (h : throwIfAborted signal c = .ok u d) : d.data = c.data := by
  unfold throwIfAborted at h
  split at h
  · cases h
  · cases h
    rfl

theorem throwIfAborted_never {D : Type} (hsignal : ∀ n, signal n = none) (c : Cleanup D) :
    throwIfAborted signal c = .ok () ⟨c.data, c.checks + 1⟩ := by
  simp only [throwIfAborted, hsignal]

theorem findMany_eq_ok {result : List ℕ} (h : findMany id cond orderBy take s = .ok result t) :
    ∃ p, cond = .ok p ∧ result = (selected p orderBy take s.data).map id ∧ t = s := by
  cases cond with
  | error e => cases h
  | ok p =>
    cases h
    exact ⟨p, rfl, rfl, rfl⟩

theorem deleteMany_eq_ok (h : deleteMany id (.ok p) ids s = .ok k t) :
    k = s.data.countP (deletable id p ids) ∧
      t.data = s.data.filter fun row => !deletable id p ids row := by
  cases h
  exact ⟨rfl, rfl⟩

/-- **What the loop has done when it returns.** -/
theorem batchLoop_ok (hbatch : 0 < batchSize) (fuel : ℕ) {deleted : ℕ} {s : Cleanup (List R)}
    (h : batchLoop signal batchSize (findMany id cond orderBy) (deleteMany id cond) fuel deleted s =
      .ok k t) :
    ∃ p, cond = .ok p ∧ t.data = s.data.filter (!p ·) ∧ k = deleted + s.data.countP p := by
  induction fuel generalizing deleted s with
  | zero => cases h
  | succ fuel ih =>
    rw [batchLoop] at h
    obtain ⟨_, s₁, hcheck, h⟩ := bind_eq_ok.mp h
    obtain ⟨found, s₂, hfind, h⟩ := bind_eq_ok.mp h
    obtain ⟨p, rfl, rfl, rfl⟩ := findMany_eq_ok hfind
    rw [← throwIfAborted_eq_ok hcheck]
    refine ⟨p, rfl, ?_⟩
    have hlength : ((selected p orderBy batchSize s₂.data).map id).length =
        min batchSize (s₂.data.countP p) := by
      rw [List.length_map, length_selected]
    by_cases hempty : ((selected p orderBy batchSize s₂.data).map id).length = 0
    · -- No row is left.
      rw [if_pos hempty] at h
      obtain ⟨rfl, rfl⟩ := pure_eq_ok.mp h
      have hnone : s₂.data.countP p = 0 := by omega
      have hfalse : ∀ row ∈ s₂.data, p row = false := fun row hrow =>
        Bool.eq_false_iff.mpr (List.countP_eq_zero.mp hnone row hrow)
      have hkept : (s₂.data.filter (!p ·)) = s₂.data :=
        List.filter_eq_self.mpr fun row hrow => by rw [hfalse row hrow, Bool.not_false]
      exact ⟨hkept.symm, by omega⟩
    · rw [if_neg hempty] at h
      obtain ⟨_, s₃, hcheck', h⟩ := bind_eq_ok.mp h
      obtain ⟨count, s₄, hdelete, h⟩ := bind_eq_ok.mp h
      obtain ⟨rfl, hdata⟩ := deleteMany_eq_ok hdelete
      rw [throwIfAborted_eq_ok hcheck'] at h hdata
      split_ifs at h with hlast
      · -- The batch is not full, and was the last one.
        obtain ⟨rfl, rfl⟩ := pure_eq_ok.mp h
        have hlt : s₂.data.countP p < batchSize := by omega
        have hall : ∀ row ∈ s₂.data, deletable id p
            ((selected p orderBy batchSize s₂.data).map id) row = p row := by
          intro row hrow
          cases hp : p row with
          | false => rw [deletable, hp, Bool.and_false]
          | true =>
            have hid := List.mem_map_of_mem (f := id)
              (mem_selected_of_lt orderBy hlt hrow hp)
            rw [deletable, List.contains_iff_mem.mpr hid, hp, Bool.and_self]
        rw [hdata, filter_deleted hall, List.countP_congr fun row hrow => by rw [hall row hrow]]
        exact ⟨rfl, rfl⟩
      · obtain ⟨p', hp', hrest, hk⟩ := ih h
        obtain rfl := Except.ok.inj hp'
        rw [hrest, hdata, filter_not_deleted]
        have hsplit := countP_split id p ((selected p orderBy batchSize s₂.data).map id) s₂.data
        rw [hdata] at hk
        exact ⟨rfl, by omega⟩

theorem deleteRows_ok (h : deleteRows signal fuel batchSize id cond orderBy s = .ok k t) :
    ∃ p, cond = .ok p ∧ t.data = s.data.filter (!p ·) ∧ k = s.data.countP p := by
  unfold deleteRows deleteInBatches at h
  split_ifs at h with hbatch
  · cases h
  · have hloop := batchLoop_ok (Nat.not_lt.mp hbatch) fuel h
    simpa using hloop

/-- **The loop returns**, with fuel for a batch for each row to delete. -/
theorem batchLoop_returns (hsignal : ∀ n, signal n = none) (fuel : ℕ)
    {deleted : ℕ} {s : Cleanup (List R)} (hfuel : s.data.countP p < fuel) :
    Returns (batchLoop signal batchSize (findMany id (.ok p) orderBy) (deleteMany id (.ok p)) fuel
      deleted) s := by
  induction fuel generalizing deleted s with
  | zero => exact absurd hfuel (Nat.not_lt_zero _)
  | succ fuel ih =>
    rw [batchLoop]
    refine Returns.bind ⟨_, _, throwIfAborted_never hsignal s⟩ fun _ s₁ hs₁ => ?_
    rw [throwIfAborted_never hsignal] at hs₁
    cases hs₁
    refine Returns.bind ⟨_, _, rfl⟩ fun found s₂ hfound => ?_
    cases hfound
    by_cases hempty : ((selected p orderBy batchSize s.data).map id).length = 0
    · rw [if_pos hempty]
      exact ⟨_, _, rfl⟩
    · rw [if_neg hempty]
      refine Returns.bind ⟨_, _, throwIfAborted_never hsignal _⟩ fun _ s₃ hs₃ => ?_
      rw [throwIfAborted_never hsignal] at hs₃
      cases hs₃
      refine Returns.bind ⟨_, _, rfl⟩ fun count s₄ hs₄ => ?_
      cases hs₄
      split_ifs with hlast
      · exact ⟨_, _, rfl⟩
      · refine ih ?_
        rw [List.length_map] at hempty
        have hpos := countP_deletable_pos id hempty
        have hsplit := countP_split id p ((selected p orderBy batchSize s.data).map id) s.data
        have hleft : (s.data.filter fun row => !deletable id p
            ((selected p orderBy batchSize s.data).map id) row).countP p < fuel := by
          omega
        exact hleft

theorem deleteRows_returns (hsignal : ∀ n, signal n = none) (hbatch : 0 < batchSize)
    (hfuel : s.data.length < fuel) :
    Returns (deleteRows signal fuel batchSize id (.ok p) orderBy) s := by
  unfold deleteRows deleteInBatches
  rw [if_neg (Nat.not_lt.mpr hbatch)]
  exact batchLoop_returns hsignal fuel (Nat.lt_of_le_of_lt List.countP_le_length hfuel)

/-- **What the loop keeps, however it ends:** the rows that do not meet the condition. -/
theorem deleteRows_keeps (hrow : ∀ p, cond = .ok p → p row = false) :
    Keeps (deleteRows signal fuel batchSize id cond orderBy) (row ∈ ·.data) := by
  have hcheck : Keeps (throwIfAborted signal) fun c : Cleanup (List R) => row ∈ c.data := by
    intro c hc
    unfold after throwIfAborted
    cases signal c.checks <;> exact hc
  have hfind (take : ℕ) : Keeps (findMany id cond orderBy take) (row ∈ ·.data) := by
    intro c hc
    cases cond <;> exact hc
  have hdelete (ids : List ℕ) : Keeps (deleteMany id cond ids) (row ∈ ·.data) := by
    intro c hc
    cases cond with
    | error e => exact hc
    | ok p => exact List.mem_filter.mpr ⟨hc, by rw [deletable, hrow p rfl, Bool.and_false]; rfl⟩
  unfold deleteRows deleteInBatches
  split_ifs
  · exact keeps_throwing
  · suffices hloop : ∀ fuel deleted, Keeps (batchLoop signal batchSize (findMany id cond orderBy)
        (deleteMany id cond) fuel deleted) (row ∈ ·.data) from hloop fuel 0
    intro fuel
    induction fuel with
    | zero => exact fun _ => keeps_stillRunning
    | succ fuel ih =>
      intro deleted
      rw [batchLoop]
      refine hcheck.bind fun _ => (hfind _).bind fun found => ?_
      split
      · exact keeps_pure
      · refine hcheck.bind fun _ => (hdelete _).bind fun count => ?_
        split_ifs
        · exact keeps_pure
        · exact ih _

end BackendFoundation.Maintenance.Batches
