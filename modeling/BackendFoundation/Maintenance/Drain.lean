import BackendFoundation.Maintenance.Batches
import Mathlib.Data.List.Perm.Subperm

/-! # Batches beside another process

`deleteInBatches` on a table from which another process deletes rows that meet the same condition.
It may do so before each statement, so also between the selection of a batch and its deletion. Which
rows a selection gives, when there are more than it may give, is left open.

`Accounts` says where the rows have gone that meet the condition. The rows of a batch are gone when
its deletion is done, whoever has deleted them, which is why the loop ends (`countP_remove_lt`). A
batch that is not full has all rows that are left (`filter_remove_of_lt`).

Main result: `deleteInBatches_drains`. -/

namespace BackendFoundation.Maintenance.Drain

open Errors Lib.Tasks Maintenance.Batches

variable {R : Type}

/-- Which of some rows a statement gives that asks for up to `take` of them. -/
structure Selection (R : Type) where
  pick : ℕ → ℕ → List R → List R
  subperm (statement take : ℕ) (rows : List R) : (pick statement take rows).Subperm rows
  length_pick (statement take : ℕ) (rows : List R) :
    (pick statement take rows).length = min take rows.length

/-- The selection of `findMany`: the first rows in the order of a column. -/
def inOrder (orderBy : R → ℤ) : Selection R where
  pick _ take rows := (rows.insertionSort (orderBy · ≤ orderBy ·)).take take
  subperm _ _ _ := ((List.take_sublist _ _).subperm).trans (List.perm_insertionSort _ _).subperm
  length_pick _ _ _ := by rw [List.length_take, List.length_insertionSort]

/-- A table that two processes delete from. -/
structure Shared (R : Type) where
  rows : List R
  /-- How many statements this process has made. -/
  statements : ℕ := 0
  /-- What this process has deleted. -/
  removed : List R := []
  /-- What the other process has deleted. -/
  taken : List R := []
deriving DecidableEq

/-- The other process deletes some of the rows that meet the condition. -/
def interfere (p : R → Bool) (other : ℕ → R → Bool) (d : Shared R) : Shared R where
  rows := d.rows.filter fun row => !(p row && other d.statements row)
  statements := d.statements + 1
  removed := d.removed
  taken := d.taken ++ d.rows.filter fun row => p row && other d.statements row

/-- This process deletes the rows of some ids that meet the condition. -/
def remove (id : R → ℕ) (p : R → Bool) (ids : List ℕ) (d : Shared R) : Shared R :=
  { d with
    rows := d.rows.filter fun row => !deletable id p ids row
    removed := d.removed ++ d.rows.filter (deletable id p ids) }

def picked (selection : Selection R) (p : R → Bool) (take : ℕ) (d : Shared R) : List R :=
  selection.pick d.statements take (d.rows.filter p)

def selectBatch (id : R → ℕ) (p : R → Bool) (other : ℕ → R → Bool) (selection : Selection R)
    (take : ℕ) : CleanupTask (Shared R) (List ℕ) := fun s =>
  let d := interfere p other s.data
  .ok ((picked selection p take d).map id) { s with data := d }

def deleteBatch (id : R → ℕ) (p : R → Bool) (other : ℕ → R → Bool) (ids : List ℕ) :
    CleanupTask (Shared R) ℕ := fun s =>
  let d := interfere p other s.data
  .ok (d.rows.countP (deletable id p ids)) { s with data := remove id p ids d }

variable {id : R → ℕ} {p : R → Bool} {other : ℕ → R → Bool} {selection : Selection R}
  {take batchSize fuel : ℕ} {ids : List ℕ} {rows : List R} {row : R} {signal : AbortSignal}
  {d : Shared R} {s : Cleanup (Shared R)}

/-! ### Where the rows go -/

/-- What has become of the rows of a table. -/
structure Accounts (p : R → Bool) (other : ℕ → R → Bool) (rows : List R) (d : Shared R) : Prop where
  kept : d.rows.filter (!p ·) = rows.filter (!p ·)
  perm : (d.removed ++ d.taken ++ d.rows.filter p).Perm (rows.filter p)
  taken_other : ∀ row ∈ d.taken, ∃ n, other n row = true

theorem accounts_start : Accounts p other rows { rows := rows } where
  kept := rfl
  perm := List.Perm.refl _
  taken_other := fun _ h => absurd h List.not_mem_nil

theorem Accounts.interfere (h : Accounts p other rows d) :
    Accounts p other rows (interfere p other d) := by
  have hq : ∀ row, (p row && other d.statements row) = true → p row = true :=
    fun _ hrow => (Bool.and_eq_true_iff.mp hrow).1
  refine ⟨(filter_not_split hq d.rows).trans h.kept, ?_, ?_⟩
  · refine List.Perm.trans ?_ h.perm
    have hsplit := perm_filter_split hq d.rows
    have happend := hsplit.append_left (d.removed ++ d.taken)
    simpa only [Drain.interfere, List.append_assoc] using happend
  · intro row hrow
    rcases List.mem_append.mp hrow with htaken | hnow
    · exact h.taken_other row htaken
    · have hboth := (List.mem_filter.mp hnow).2
      exact ⟨d.statements, (Bool.and_eq_true_iff.mp hboth).2⟩

theorem Accounts.remove (h : Accounts p other rows d) (id : R → ℕ) (ids : List ℕ) :
    Accounts p other rows (remove id p ids d) := by
  have hq : ∀ row, deletable id p ids row = true → p row = true := fun _ => of_deletable
  refine ⟨(filter_not_split hq d.rows).trans h.kept, ?_, h.taken_other⟩
  refine List.Perm.trans ?_ h.perm
  have hsplit := (perm_filter_split hq d.rows).append_left (d.removed ++ d.taken)
  refine List.Perm.trans ?_ hsplit
  -- The rows deleted now stand before those of the other process.
  have hswap : (d.removed ++ d.rows.filter (deletable id p ids) ++ d.taken).Perm
      (d.removed ++ d.taken ++ d.rows.filter (deletable id p ids)) := by
    rw [List.append_assoc, List.append_assoc]
    exact List.perm_append_comm.append_left _
  have happend := hswap.append_right
    ((d.rows.filter fun row => !deletable id p ids row).filter p)
  simpa only [Drain.remove, List.append_assoc] using happend

theorem rows_interfere_sublist : (interfere p other d).rows.Sublist d.rows := List.filter_sublist

theorem rows_remove_sublist (id : R → ℕ) (p : R → Bool) (ids : List ℕ) (d : Shared R) :
    (remove id p ids d).rows.Sublist d.rows :=
  List.filter_sublist

/-! ### One batch -/

theorem length_picked (selection : Selection R) (p : R → Bool) (take : ℕ) (d : Shared R) :
    (picked selection p take d).length = min take (d.rows.countP p) := by
  rw [picked, selection.length_pick, List.countP_eq_length_filter]

theorem mem_picked (h : row ∈ picked selection p take d) : row ∈ d.rows ∧ p row = true :=
  List.mem_filter.mp ((selection.subperm _ _ _).subset h)

theorem mem_picked_of_lt (hlt : (picked selection p take d).length < take) (hrow : row ∈ d.rows)
    (hp : p row = true) : row ∈ picked selection p take d := by
  have hlength := length_picked selection p take d
  have hle : (d.rows.filter p).length ≤ (picked selection p take d).length := by
    rw [← List.countP_eq_length_filter]
    omega
  have hperm := (selection.subperm d.statements take (d.rows.filter p)).perm_of_length_le hle
  exact hperm.mem_iff.mpr (List.mem_filter.mpr ⟨hrow, hp⟩)

/-- A row of the batch is gone when the batch has been deleted, whoever has deleted it. -/
theorem not_mem_remove (hid : id row ∈ ids) (hp : p row = true) :
    row ∉ (remove id p ids d).rows := by
  intro hrow
  have hleft := (List.mem_filter.mp hrow).2
  rw [deletable, List.contains_iff_mem.mpr hid, hp] at hleft
  cases hleft

theorem countP_remove_lt {e : Shared R} (hsub : e.rows.Sublist d.rows) (hrow : row ∈ d.rows)
    (hid : id row ∈ ids) (hp : p row = true) :
    (remove id p ids e).rows.countP p < d.rows.countP p := by
  have hfilter := ((rows_remove_sublist id p ids e).trans hsub).filter p
  rw [List.countP_eq_length_filter, List.countP_eq_length_filter]
  refine lt_of_le_of_ne hfilter.length_le fun heq => ?_
  have hmem : row ∈ d.rows.filter p := List.mem_filter.mpr ⟨hrow, hp⟩
  rw [← hfilter.eq_of_length heq] at hmem
  exact not_mem_remove hid hp (List.mem_of_mem_filter hmem)

theorem filter_remove_of_lt {e : Shared R} (hsub : e.rows.Sublist d.rows)
    (hlt : (picked selection p take d).length < take) :
    (remove id p ((picked selection p take d).map id) e).rows.filter p = [] := by
  refine List.filter_eq_nil_iff.mpr fun row hrow hp => ?_
  have hmem : row ∈ d.rows := hsub.subset ((rows_remove_sublist _ _ _ e).subset hrow)
  have hid : id row ∈ (picked selection p take d).map id :=
    List.mem_map_of_mem (mem_picked_of_lt hlt hmem hp)
  exact not_mem_remove hid hp hrow

/-! ### All batches -/

/-- What the loop leaves of a table when it returns `k`. -/
structure Drained (p : R → Bool) (other : ℕ → R → Bool) (rows : List R) (k : ℕ) (d : Shared R) :
    Prop where
  accounts : Accounts p other rows d
  nothing_left : d.rows.filter p = []
  count : k = d.removed.length

theorem Drained.rows_eq {k : ℕ} (h : Drained p other rows k d) : d.rows = rows.filter (!p ·) := by
  rw [← h.accounts.kept]
  refine (List.filter_eq_self.mpr fun row hrow => ?_).symm
  have hnot := List.filter_eq_nil_iff.mp h.nothing_left row hrow
  rw [Bool.eq_false_iff.mpr hnot, Bool.not_false]

theorem Drained.perm {k : ℕ} (h : Drained p other rows k d) :
    (d.removed ++ d.taken).Perm (rows.filter p) := by
  have hperm := h.accounts.perm
  rwa [h.nothing_left, List.append_nil] at hperm

theorem length_removed (id : R → ℕ) (p : R → Bool) (ids : List ℕ) (d : Shared R) :
    (remove id p ids d).removed.length = d.removed.length + d.rows.countP (deletable id p ids) := by
  rw [remove, List.length_append, List.countP_eq_length_filter]

theorem selectBatch_apply (s : Cleanup (Shared R)) : selectBatch id p other selection take s =
    .ok ((picked selection p take (interfere p other s.data)).map id)
      ⟨interfere p other s.data, s.checks⟩ := rfl

theorem deleteBatch_apply (s : Cleanup (Shared R)) : deleteBatch id p other ids s =
    .ok ((interfere p other s.data).rows.countP (deletable id p ids))
      ⟨remove id p ids (interfere p other s.data), s.checks⟩ := rfl

/-- One round of the loop: the table when the batch is selected, and when it is deleted. -/
theorem batchLoop_round (hsignal : ∀ n, signal n = none) {deleted : ℕ} {d e : Shared R}
    {batch : List R} (hd : interfere p other s.data = d) (he : interfere p other d = e)
    (hpicked : picked selection p batchSize d = batch) :
    batchLoop signal batchSize (selectBatch id p other selection) (deleteBatch id p other)
        (fuel + 1) deleted s =
      if batch.length = 0 then .ok deleted ⟨d, s.checks + 1⟩
      else if batch.length < batchSize then
        .ok (deleted + e.rows.countP (deletable id p (batch.map id)))
          ⟨remove id p (batch.map id) e, s.checks + 2⟩
      else
        batchLoop signal batchSize (selectBatch id p other selection) (deleteBatch id p other) fuel
          (deleted + e.rows.countP (deletable id p (batch.map id)))
          ⟨remove id p (batch.map id) e, s.checks + 2⟩ := by
  subst hd he hpicked
  have hcheck := throwIfAborted_never (D := Shared R) hsignal
  rw [batchLoop, bind_apply (hcheck s), bind_apply (selectBatch_apply _), List.length_map]
  split_ifs with hempty hlast
  · rfl
  · rw [bind_apply (hcheck _), bind_apply (deleteBatch_apply _)]
    rfl
  · rw [bind_apply (hcheck _), bind_apply (deleteBatch_apply _)]

theorem batchLoop_drains (hbatch : 1 ≤ batchSize) (hsignal : ∀ n, signal n = none) (id : R → ℕ)
    (selection : Selection R) (fuel : ℕ) {deleted : ℕ} {s : Cleanup (Shared R)}
    (h : Accounts p other rows s.data) (hdeleted : deleted = s.data.removed.length)
    (hfuel : s.data.rows.countP p < fuel) :
    ∃ k t, batchLoop signal batchSize (selectBatch id p other selection) (deleteBatch id p other)
      fuel deleted s = .ok k t ∧ Drained p other rows k t.data := by
  induction fuel generalizing deleted s with
  | zero => exact absurd hfuel (Nat.not_lt_zero _)
  | succ fuel ih =>
    -- The table when the batch is selected, and when it is deleted.
    obtain ⟨d, hd⟩ : ∃ d, interfere p other s.data = d := ⟨_, rfl⟩
    obtain ⟨e, he⟩ : ∃ e, interfere p other d = e := ⟨_, rfl⟩
    obtain ⟨batch, hpicked⟩ : ∃ batch, picked selection p batchSize d = batch := ⟨_, rfl⟩
    have hfirst : Accounts p other rows d := by
      rw [← hd]
      exact h.interfere
    have hsecond : Accounts p other rows e := by
      rw [← he]
      exact hfirst.interfere
    have hsub : e.rows.Sublist d.rows := by
      rw [← he]
      exact rows_interfere_sublist
    have hcount : deleted = d.removed.length := by
      rw [hdeleted, ← hd]
      rfl
    have hnext : deleted + e.rows.countP (deletable id p (batch.map id)) =
        (remove id p (batch.map id) e).removed.length := by
      rw [length_removed, hcount, ← he]
      rfl
    rw [batchLoop_round hsignal hd he hpicked]
    split_ifs with hempty hlast
    · -- No row is left.
      refine ⟨_, _, rfl, hfirst, ?_, hcount⟩
      refine List.filter_eq_nil_iff.mpr fun row hrow hp => ?_
      have hlt : (picked selection p batchSize d).length < batchSize := by
        rw [hpicked]
        omega
      have hmem := mem_picked_of_lt hlt hrow hp
      rw [hpicked, List.eq_nil_of_length_eq_zero hempty] at hmem
      exact List.not_mem_nil hmem
    · -- The batch had every row that was left.
      refine ⟨_, _, rfl, hsecond.remove id _, ?_, hnext⟩
      subst hpicked
      exact filter_remove_of_lt hsub hlast
    · -- The batch was full, and its rows are gone.
      obtain ⟨row, hrow⟩ := List.exists_mem_of_length_pos (Nat.pos_of_ne_zero hempty)
      have hmem : row ∈ picked selection p batchSize d := by
        rw [hpicked]
        exact hrow
      have hless : (remove id p (batch.map id) e).rows.countP p < d.rows.countP p :=
        countP_remove_lt hsub (mem_picked hmem).1 (List.mem_map_of_mem hrow) (mem_picked hmem).2
      have hle : d.rows.countP p ≤ s.data.rows.countP p := by
        rw [← hd]
        exact rows_interfere_sublist.countP_le
      refine ih (hsecond.remove id _) hnext ?_
      show (remove id p (batch.map id) e).rows.countP p < fuel
      omega

/-- **The loop ends and has drained the table**, with fuel for a round for each row to delete: the
rows that meet the condition are gone, each by this process or by the other, and it returns how many
it has deleted itself. -/
theorem deleteInBatches_drains (fuel batchSize : ℕ) (signal : AbortSignal) (id : R → ℕ)
    (p : R → Bool) (other : ℕ → R → Bool) (selection : Selection R) (rows : List R)
    (hbatch : 1 ≤ batchSize)
    (hsignal : ∀ n, signal n = none) (hfuel : rows.countP p < fuel) :
    ∃ k t, deleteInBatches fuel batchSize (selectBatch id p other selection)
        (deleteBatch id p other) signal ⟨{ rows := rows }, 0⟩ = .ok k t ∧
      t.data.rows = rows.filter (!p ·) ∧
      (t.data.removed ++ t.data.taken).Perm (rows.filter p) ∧
      (∀ row ∈ t.data.taken, ∃ n, other n row = true) ∧
      k = t.data.removed.length ∧
      ((∀ n, ∀ row ∈ rows, other n row = false) → k = rows.countP p) := by
  have hstart : Accounts p other rows { rows := rows } := accounts_start
  obtain ⟨k, t, hloop, hdrained⟩ :=
    batchLoop_drains (s := ⟨{ rows := rows }, 0⟩) hbatch hsignal id selection fuel hstart rfl hfuel
  have hreturns : deleteInBatches fuel batchSize (selectBatch id p other selection)
      (deleteBatch id p other) signal ⟨{ rows := rows }, 0⟩ = .ok k t := by
    rw [deleteInBatches, if_neg (Nat.not_lt.mpr hbatch)]
    exact hloop
  have hperm := hdrained.perm
  have htaken := hdrained.accounts.taken_other
  refine ⟨k, t, hreturns, hdrained.rows_eq, hperm, htaken, hdrained.count, fun hnever => ?_⟩
  have hnone : t.data.taken = [] := by
    refine List.eq_nil_iff_forall_not_mem.mpr fun row hrow => ?_
    obtain ⟨n, hn⟩ := htaken row hrow
    have hmem : row ∈ rows.filter p := hperm.subset (List.mem_append_right _ hrow)
    rw [hnever n row (List.mem_of_mem_filter hmem)] at hn
    cases hn
  rw [hnone, List.append_nil] at hperm
  rw [hdrained.count, hperm.length_eq, List.countP_eq_length_filter]

/-- The other process deletes row 1 between the selection of the first batch and its deletion. -/
theorem deleteInBatches_drains_beside :
    ∃ k t, deleteInBatches 5 2
        (selectBatch (fun row => row) (fun row => row < 4) (fun n row => n == 1 && row == 1)
          (inOrder Int.ofNat))
        (deleteBatch (fun row => row) (fun row => row < 4) fun n row => n == 1 && row == 1)
        (fun _ => none) ⟨{ rows := [5, 0, 1, 2, 3] }, 0⟩ = .ok k t ∧
      t.data.rows = [5] ∧ (t.data.removed ++ t.data.taken).Perm [0, 1, 2, 3] ∧
      k = t.data.removed.length := by
  obtain ⟨k, t, hok, hrows, hperm, -, hk, -⟩ := deleteInBatches_drains 5 2 (fun _ => none)
    (fun row => row) (fun row => row < 4) (fun n row => n == 1 && row == 1) (inOrder Int.ofNat)
    [5, 0, 1, 2, 3] (by decide) (fun _ => rfl) (by decide)
  exact ⟨k, t, hok, hrows, hperm, hk⟩

end BackendFoundation.Maintenance.Drain
