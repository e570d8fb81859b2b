import BackendFoundation.Lib.CursorPages
import BackendFoundation.Maintenance.Batches
import BackendFoundation.Uploads.Model
import Mathlib.Data.Prod.Lex

/-! # The sweep over the pending uploads

`expirePendingUploads` of `upload-cleanup.ts`, beside no other writer. It reads the pending uploads
that have expired in pages behind a cursor, has the provider delete the object of each, and marks
the upload as failed if that succeeded. A marked upload no longer meets the condition of the query,
and so `skip: 1` drops the upload behind a marked cursor row.

`expirePendingUploads_ok` says what it has done when it returns, and that it returns;
`expirePendingUploads_misses_nothing_iff` when that is every upload it looked for. -/

namespace BackendFoundation.Uploads.PendingSweep

open Errors Lib.CursorPages Lib.Tasks Maintenance.Batches Uploads.Model

/-- A row of the table, with the id that it is ordered by. -/
structure UploadRow (ι : Type) where
  id : ι
  upload : Upload
deriving DecidableEq

/-- The columns that the sweep selects. -/
structure PendingUpload (ι : Type) where
  id : ι
  objectKey : String
  contentType : String
deriving DecidableEq

structure UploadProviderAdapter (ι : Type) where
  kind : UploadProvider
  /-- What `deleteObject` throws, if it does, for the object of an upload. -/
  deleteObject : PendingUpload ι → Option Thrown

structure SweepData (ι : Type) where
  uploads : List (UploadRow ι)
  /-- The uploads whose objects the provider was asked to delete. -/
  attempts : List (PendingUpload ι) := []
deriving DecidableEq

structure Expired where
  expired : ℕ := 0
  failures : ℕ := 0
deriving DecidableEq

variable {ι : Type} [LinearOrder ι]

/-! ### The statements -/

def UploadRow.select (row : UploadRow ι) : PendingUpload ι :=
  ⟨row.id, row.upload.objectKey, row.upload.contentType⟩

/-- `orderBy: [{ uploadExpiresAt: 'asc' }, { id: 'asc' }]`. -/
def UploadRow.position (row : UploadRow ι) : ℤ ×ₗ ι := toLex (row.upload.uploadExpiresAt, row.id)

def matching (kind : UploadProvider) (now : ℤ) (row : UploadRow ι) : Bool :=
  visible none row.upload && Model.expired kind now row.upload

/-- The page of the rows that meet the condition. There is none behind a row that is not there. -/
def findMany (cond : UploadRow ι → Bool) (cursor : Option ι) (take : ℕ)
    (uploads : List (UploadRow ι)) : List (UploadRow ι) :=
  match cursor with
  | none => page UploadRow.position take (uploads.filter cond) none
  | some id =>
    match uploads.find? (·.id = id) with
    | none => []
    | some row => page UploadRow.position take (uploads.filter cond) (some row.position)

/-- `where: { id: upload.id, status: 'PENDING' }`, of the uploads that are not deleted. -/
def stillPending (id : ι) (row : UploadRow ι) : Bool :=
  row.id = id && (visible none row.upload && row.upload.status = .pending)

def UploadRow.fail (row : UploadRow ι) : UploadRow ι := { row with upload := row.upload.failed }

/-! ### The sweep -/

def findUploads (cond : UploadRow ι → Bool) (cursor : Option ι) (take : ℕ) :
    CleanupTask (SweepData ι) (List (PendingUpload ι)) := fun s =>
  .ok ((findMany cond cursor take s.data.uploads).map UploadRow.select) s

/-- The request to the provider, and what it throws. -/
def deleteObject (provider : UploadProviderAdapter ι) (upload : PendingUpload ι) :
    CleanupTask (SweepData ι) (Option Thrown) := fun s =>
  .ok (provider.deleteObject upload)
    { s with data := { s.data with attempts := s.data.attempts ++ [upload] } }

def markFailed (id : ι) : CleanupTask (SweepData ι) ℕ := fun s =>
  .ok (s.data.uploads.countP (stillPending id))
    { s with
      data := { s.data with
        uploads := s.data.uploads.map fun row =>
          if stillPending id row then row.fail else row } }

def expireUpload (signal : AbortSignal) (provider : UploadProviderAdapter ι) (totals : Expired)
    (upload : PendingUpload ι) : CleanupTask (SweepData ι) Expired := do
  throwIfAborted signal
  match ← deleteObject provider upload with
  | some _ => return { totals with failures := totals.failures + 1 }
  | none =>
    let count ← markFailed upload.id
    return { totals with expired := totals.expired + count }

def expireLoop (signal : AbortSignal) (provider : UploadProviderAdapter ι) (now : ℤ)
    (batchSize : ℕ) : ℕ → Option ι → Expired → CleanupTask (SweepData ι) Expired
  | 0, _, _ => stillRunning
  | fuel + 1, cursor, totals => do
    throwIfAborted signal
    let uploads ← findUploads (matching provider.kind now) cursor batchSize
    let totals ← uploads.foldlM (expireUpload signal provider) totals
    if uploads.length < batchSize then
      return totals
    expireLoop signal provider now batchSize fuel (uploads.getLast?.map (·.id)) totals

def expirePendingUploads (fuel : ℕ) (provider : Option (UploadProviderAdapter ι)) (now : ℤ)
    (batchSize : ℕ) (signal : AbortSignal) : CleanupTask (SweepData ι) Expired :=
  match provider with
  | none => pure {}
  | some provider => expireLoop signal provider now batchSize fuel none {}

/-! ### Rows that have been marked -/

/-- The provider deletes the object of the upload. -/
def succeeds (provider : UploadProviderAdapter ι) (row : UploadRow ι) : Bool :=
  (provider.deleteObject row.select).isNone

/-- The row stays one that the sweep looks for: its object was not deleted. -/
def stays (provider : UploadProviderAdapter ι) (row : UploadRow ι) : Bool :=
  !succeeds provider row

/-- The uploads that the sweep looks for, in its order. -/
def queue (kind : UploadProvider) (now : ℤ) (rows : List (UploadRow ι)) : List (UploadRow ι) :=
  ordered UploadRow.position (rows.filter (matching kind now))

/-- A row after deletions were attempted for some rows. -/
def mark (provider : UploadProviderAdapter ι) (attempted : List (UploadRow ι))
    (row : UploadRow ι) : UploadRow ι :=
  if row ∈ attempted.filter (succeeds provider) then row.fail else row

variable {provider : UploadProviderAdapter ι} {attempted page rest rows : List (UploadRow ι)}
  {row other : UploadRow ι} {now : ℤ} {kind : UploadProvider} {signal : AbortSignal}
  {batchSize fuel take : ℕ} {totals : Expired} {s : Cleanup (SweepData ι)} {cursor : Option ι}
  {data : SweepData ι} {uploads : List (UploadRow ι)}

@[simp] theorem mark_id : (mark provider attempted row).id = row.id := by
  unfold mark
  split_ifs <;> rfl

@[simp] theorem mark_position : (mark provider attempted row).position = row.position := by
  unfold mark
  split_ifs <;> rfl

omit [LinearOrder ι] in
theorem matching_fail : matching kind now row.fail = false := by
  simp [matching, Model.expired, UploadRow.fail, Upload.failed]

theorem matching_mark : matching kind now (mark provider attempted row) =
    (matching kind now row && decide (row ∉ attempted.filter (succeeds provider))) := by
  unfold mark
  split_ifs with hmarked
  · rw [matching_fail, decide_eq_false (not_not.mpr hmarked), Bool.and_false]
  · rw [decide_eq_true hmarked, Bool.and_true]

theorem filter_mark : (rows.map (mark provider attempted)).filter (matching kind now) =
    (rows.filter (matching kind now)).filter
      fun row => decide (row ∉ attempted.filter (succeeds provider)) := by
  induction rows with
  | nil => rfl
  | cons row rows ih =>
    rw [List.map_cons, List.filter_cons, List.filter_cons, matching_mark, ih]
    cases hmatch : matching kind now row with
    | false => simp only [Bool.false_and, Bool.false_eq_true, if_false]
    | true =>
      rw [Bool.true_and, if_pos rfl, List.filter_cons]
      split_ifs with hmarked
      · rw [decide_eq_true_eq] at hmarked
        rw [mark, if_neg hmarked]
      · rfl

/-! ### The pages -/

theorem find?_id (hids : (rows.map (·.id)).Nodup) (hrow : row ∈ rows) :
    rows.find? (·.id = row.id) = some row := by
  induction rows with
  | nil => cases hrow
  | cons head rows ih =>
    rw [List.map_cons, List.nodup_cons] at hids
    rcases List.mem_cons.mp hrow with rfl | htail
    · rw [List.find?_cons_of_pos (by simp)]
    · have hne : head.id ≠ row.id := fun h => hids.1 (h ▸ List.mem_map_of_mem htail)
      rw [List.find?_cons_of_neg (by simpa using hne), ih hids.2 htail]

omit [LinearOrder ι] in
theorem position_inj (h : row.position = other.position) : row.id = other.id :=
  (Prod.mk.inj (toLex_inj.mp h)).2

omit [LinearOrder ι] in
theorem positions_nodup (hids : (rows.map (·.id)).Nodup) :
    (rows.map UploadRow.position).Nodup := by
  rw [List.nodup_iff_pairwise_ne, List.pairwise_map] at hids ⊢
  exact hids.imp fun hne h => hne (position_inj h)

theorem mem_queue : row ∈ queue kind now rows ↔ row ∈ rows ∧ matching kind now row = true := by
  rw [queue, mem_ordered, List.mem_filter]

theorem queue_lt (hids : (rows.map (·.id)).Nodup) :
    (queue kind now rows).Pairwise (·.position < ·.position) :=
  ordered_lt ((positions_nodup hids).sublist (List.filter_sublist.map _))

/-- The rows that are looked for after some attempts, in the order of the sweep. -/
theorem ordered_marked (hids : (rows.map (·.id)).Nodup) :
    ordered UploadRow.position
        ((rows.map (mark provider attempted)).filter (matching kind now)) =
      (queue kind now rows).filter
        fun row => decide (row ∉ attempted.filter (succeeds provider)) := by
  have hkeys : ((rows.filter (matching kind now)).map UploadRow.position).Nodup :=
    (positions_nodup hids).sublist (List.filter_sublist.map _)
  rw [filter_mark, ordered_filter hkeys]
  rfl

/-- Where the sweep is: `rest` are the rows it has still to read, and it has attempted no others. -/
inductive At (provider : UploadProviderAdapter ι) (queue attempted : List (UploadRow ι)) :
    List (UploadRow ι) → Option ι → Prop
  | start (h : attempted = []) : At provider queue attempted queue none
  | after (done : List (UploadRow ι)) (last : UploadRow ι) (rest : List (UploadRow ι))
      (hqueue : queue = done ++ last :: rest) (hlast : last ∈ attempted)
      (hattempted : ∀ row ∈ attempted, row ∈ done ++ [last]) :
      At provider queue attempted (if stays provider last then rest else rest.drop 1)
        (some last.id)

/-- **The next page** has the first rows of the rest. -/
theorem findMany_marked (hids : (rows.map (·.id)).Nodup)
    (hat : At provider (queue kind now rows) attempted rest cursor) (take : ℕ) :
    findMany (matching kind now) cursor take (rows.map (mark provider attempted)) =
      rest.take take := by
  cases hat with
  | start h =>
    unfold findMany
    dsimp only
    rw [page, ordered_marked hids, h]
    simp
  | after done last rest hqueue hlast hattempted =>
    have hmem : last ∈ queue kind now rows := by
      rw [hqueue]
      exact List.mem_append_right _ List.mem_cons_self
    have hfind : (rows.map (mark provider attempted)).find? (·.id = last.id) =
        some (mark provider attempted last) := by
      have hcomp : ((fun row : UploadRow ι => decide (row.id = last.id)) ∘
          mark provider attempted) = fun row => decide (row.id = last.id) := by
        funext row
        rw [Function.comp, mark_id]
      rw [List.find?_map, hcomp, find?_id hids (mem_queue.mp hmem).1]
      rfl
    have hsorted : (queue kind now rows).Pairwise (·.position < ·.position) := queue_lt hids
    rw [hqueue] at hsorted
    have hrest : ∀ row ∈ rest,
        decide (row ∉ attempted.filter (succeeds provider)) = true := by
      intro row hrow
      have hnodup : (done ++ last :: rest).Nodup := by
        refine hsorted.imp fun h heq => ?_
        rw [heq] at h
        exact lt_irrefl _ h
      rw [List.append_cons, List.nodup_append] at hnodup
      rw [decide_eq_true_eq, List.mem_filter]
      exact fun h => hnodup.2.2 row (hattempted row h.1) row hrow rfl
    have hstays : decide (last ∉ attempted.filter (succeeds provider)) = stays provider last := by
      simp [List.mem_filter, hlast, stays]
    unfold findMany
    dsimp only
    rw [hfind]
    dsimp only
    rw [page, mark_position, ordered_marked hids, hqueue, atOrAfter_ordered hsorted hrest, hstays]
    split_ifs <;> rfl

omit [LinearOrder ι] in
theorem At.exists_append {queue : List (UploadRow ι)}
    (hat : At provider queue attempted rest cursor) :
    ∃ done, queue = done ++ rest ∧ ∀ row ∈ attempted, row ∈ done := by
  cases hat with
  | start h => exact ⟨[], rfl, by simp [h]⟩
  | after done last rest hqueue hlast hattempted =>
    split_ifs
    · exact ⟨done ++ [last], by rw [hqueue, List.append_cons], hattempted⟩
    · refine ⟨done ++ [last] ++ rest.take 1, ?_, fun row hrow => ?_⟩
      · rw [hqueue, List.append_cons, List.append_assoc _ (rest.take 1), List.take_append_drop]
      · exact List.mem_append_left _ (hattempted row hrow)

omit [LinearOrder ι] in
theorem At.next {queue : List (UploadRow ι)} (hat : At provider queue attempted rest cursor)
    (htake : 1 ≤ take) (hfull : ¬ rest.length < take) :
    At provider queue (attempted ++ rest.take take) (behind (stays provider) take rest)
      (((rest.take take).map UploadRow.select).getLast?.map (·.id)) := by
  obtain ⟨done, hqueue, hattempted⟩ := hat.exists_append
  have hlt : take - 1 < rest.length := by omega
  have hpage : rest.take take = rest.take (take - 1) ++ [rest[take - 1]] := by
    rw [List.take_append_getElem hlt, Nat.sub_add_cancel htake]
  have hrest : rest = rest.take (take - 1) ++ rest[take - 1] :: rest.drop take := by
    rw [List.append_cons, ← hpage, List.take_append_drop]
  have hcursor : ((rest.take take).map UploadRow.select).getLast?.map (·.id) =
      some rest[take - 1].id := by
    rw [hpage, List.map_append, List.map_singleton, List.getLast?_concat]
    rfl
  have hbehind : behind (stays provider) take rest =
      if stays provider rest[take - 1] then rest.drop take else (rest.drop take).drop 1 := by
    unfold behind
    rw [List.getElem?_eq_getElem hlt, Option.any_some, List.drop_drop]
  rw [hcursor, hbehind]
  refine .after (done ++ rest.take (take - 1)) _ _ ?_ ?_ fun row hrow => ?_
  · rw [List.append_assoc, ← hrest]
    exact hqueue
  · rw [hpage]
    exact List.mem_append_right _ (List.mem_append_right _ List.mem_cons_self)
  · rw [List.append_assoc, ← hpage]
    rcases List.mem_append.mp hrow with h | h
    · exact List.mem_append_left _ (hattempted row h)
    · exact List.mem_append_right _ h

/-! ### One upload -/

/-- What the sweep has done and counted. -/
structure Swept (provider : UploadProviderAdapter ι) (rows attempted : List (UploadRow ι))
    (totals : Expired) (data : SweepData ι) : Prop where
  uploads : data.uploads = rows.map (mark provider attempted)
  attempts : data.attempts = attempted.map UploadRow.select
  expired : totals.expired = attempted.countP (succeeds provider)
  failures : totals.failures = attempted.countP (stays provider)

theorem stillPending_mark (hids : (rows.map (·.id)).Nodup) (hrow : row ∈ queue kind now rows)
    (hnew : row ∉ attempted) (hother : other ∈ rows) :
    stillPending row.id (mark provider attempted other) = decide (other = row) := by
  obtain ⟨hmem, hmatch⟩ := mem_queue.mp hrow
  by_cases heq : other = row
  · subst heq
    have hmark : mark provider attempted other = other :=
      if_neg fun h => hnew (List.mem_of_mem_filter h)
    simp only [matching, Model.expired, Bool.and_eq_true, decide_eq_true_eq] at hmatch
    rw [hmark, decide_eq_true rfl]
    simp [stillPending, hmatch]
  · have hid : other.id ≠ row.id := fun h => heq (List.inj_on_of_nodup_map hids hother hmem h)
    rw [decide_eq_false heq]
    simp [stillPending, hid]

theorem mark_append (hsucceeds : succeeds provider row = true) :
    mark provider (attempted ++ [row]) other =
      if other = row then row.fail else mark provider attempted other := by
  unfold mark
  rw [List.filter_append, List.filter_singleton, hsucceeds]
  by_cases heq : other = row
  · simp [heq]
  · simp [heq]

theorem mark_append_of_stays (hstays : stays provider row = true) :
    mark provider (attempted ++ [row]) = mark provider attempted := by
  have hfails : succeeds provider row = false := by simpa [stays] using hstays
  funext other
  unfold mark
  rw [List.filter_append, List.filter_singleton, hfails]
  simp

theorem count_stillPending (hids : (rows.map (·.id)).Nodup) (hrow : row ∈ queue kind now rows)
    (hnew : row ∉ attempted) :
    (rows.map (mark provider attempted)).countP (stillPending row.id) = 1 := by
  have hcongr : rows.countP (stillPending row.id ∘ mark provider attempted) =
      rows.countP (· == row) :=
    List.countP_congr fun other hother => by
      rw [Function.comp, stillPending_mark hids hrow hnew hother]
      simp
  rw [List.countP_map, hcongr]
  exact List.count_eq_one_of_mem (List.Nodup.of_map _ hids) (mem_queue.mp hrow).1

/-- **One upload.** -/
theorem expireUpload_ok (hsignal : ∀ n, signal n = none) (hids : (rows.map (·.id)).Nodup)
    (hrow : row ∈ queue kind now rows) (hnew : row ∉ attempted)
    (h : Swept provider rows attempted totals s.data) :
    ∃ totals' s', expireUpload signal provider totals row.select s = .ok totals' s' ∧
      Swept provider rows (attempted ++ [row]) totals' s'.data := by
  have hattempts : s.data.attempts ++ [row.select] = (attempted ++ [row]).map UploadRow.select := by
    rw [h.attempts, List.map_append, List.map_singleton]
  cases hdelete : provider.deleteObject row.select with
  | some e =>
    have hstays : stays provider row = true := by simp [stays, succeeds, hdelete]
    have hfails : succeeds provider row = false := by simp [succeeds, hdelete]
    refine ⟨_, _, bind_eq_ok.mpr ⟨(), _, throwIfAborted_never hsignal s,
      bind_eq_ok.mpr ⟨some e, _, congrArg (EStateM.Result.ok · _) hdelete, rfl⟩⟩, ?_⟩
    refine ⟨?_, hattempts, ?_, ?_⟩
    · rw [mark_append_of_stays hstays]
      exact h.uploads
    · rw [List.countP_append, List.countP_singleton, hfails]
      exact h.expired
    · rw [List.countP_append, List.countP_singleton, hstays, ← h.failures]
      rfl
  | none =>
    have hsucceeds : succeeds provider row = true := by simp [succeeds, hdelete]
    have hleaves : stays provider row = false := by simp [stays, hsucceeds]
    have hcount : (rows.map (mark provider attempted)).countP (stillPending row.id) = 1 :=
      count_stillPending hids hrow hnew
    refine ⟨_, _, bind_eq_ok.mpr ⟨(), _, throwIfAborted_never hsignal s,
      bind_eq_ok.mpr ⟨none, _, congrArg (EStateM.Result.ok · _) hdelete,
        bind_eq_ok.mpr ⟨_, _, rfl, rfl⟩⟩⟩, ?_⟩
    refine ⟨?_, hattempts, ?_, ?_⟩
    · show s.data.uploads.map _ = _
      rw [h.uploads, List.map_map]
      refine List.map_congr_left fun other hother => ?_
      show (if stillPending row.id (mark provider attempted other) then _ else _) = _
      rw [stillPending_mark hids hrow hnew hother, mark_append hsucceeds]
      by_cases heq : other = row
      · have hmark : mark provider attempted row = row :=
          if_neg fun h => hnew (List.mem_of_mem_filter h)
        rw [heq, hmark, if_pos rfl, if_pos (decide_eq_true rfl)]
      · rw [if_neg heq, decide_eq_false heq, if_neg Bool.false_ne_true]
    · show totals.expired + s.data.uploads.countP (stillPending row.id) = _
      rw [h.uploads, hcount, h.expired, List.countP_append, List.countP_singleton, hsucceeds]
      rfl
    · rw [List.countP_append, List.countP_singleton, hleaves]
      exact h.failures

/-! ### All uploads -/

theorem expirePage_ok (hsignal : ∀ n, signal n = none) (hids : (rows.map (·.id)).Nodup)
    (page : List (UploadRow ι)) {attempted : List (UploadRow ι)} {totals : Expired}
    {s : Cleanup (SweepData ι)} (hpage : ∀ row ∈ page, row ∈ queue kind now rows)
    (hnodup : (attempted ++ page).Nodup) (h : Swept provider rows attempted totals s.data) :
    ∃ totals' s', (page.map UploadRow.select).foldlM (expireUpload signal provider) totals s =
        .ok totals' s' ∧
      Swept provider rows (attempted ++ page) totals' s'.data := by
  induction page generalizing attempted totals s with
  | nil => exact ⟨totals, s, rfl, by rwa [List.append_nil]⟩
  | cons row page ih =>
    have hnew : row ∉ attempted := by
      rw [List.nodup_append] at hnodup
      exact fun hmem => hnodup.2.2 row hmem row List.mem_cons_self rfl
    rw [List.append_cons] at hnodup ⊢
    obtain ⟨totals₁, s₁, hone, h₁⟩ :=
      expireUpload_ok hsignal hids (hpage row List.mem_cons_self) hnew h
    obtain ⟨totals₂, s₂, hrest, h₂⟩ :=
      ih (fun other hother => hpage other (List.mem_cons_of_mem _ hother)) hnodup h₁
    refine ⟨totals₂, s₂, ?_, h₂⟩
    rw [List.map_cons, List.foldlM_cons]
    exact bind_eq_ok.mpr ⟨totals₁, s₁, hone, hrest⟩

omit [LinearOrder ι] in
theorem At.nodup_append {queue : List (UploadRow ι)}
    (hat : At provider queue attempted rest cursor) (hqueue : queue.Nodup)
    (hattempted : attempted.Nodup) (take : ℕ) : (attempted ++ rest.take take).Nodup := by
  obtain ⟨done, rfl, hdone⟩ := hat.exists_append
  rw [List.nodup_append] at hqueue ⊢
  refine ⟨hattempted, hqueue.2.1.sublist (List.take_sublist _ _), fun row hrow next hnext => ?_⟩
  exact hqueue.2.2 row (hdone row hrow) next (List.mem_of_mem_take hnext)

/-- **The loop** attempts what its pages have together. -/
theorem expireLoop_ok (hsignal : ∀ n, signal n = none) (hbatch : 1 ≤ batchSize)
    (hids : (rows.map (·.id)).Nodup) (fuel : ℕ) {attempted rest : List (UploadRow ι)}
    {cursor : Option ι} {totals : Expired} {s : Cleanup (SweepData ι)}
    (hat : At provider (queue provider.kind now rows) attempted rest cursor)
    (hnodup : attempted.Nodup) (hfuel : rest.length < fuel)
    (h : Swept provider rows attempted totals s.data) :
    ∃ totals' s', expireLoop signal provider now batchSize fuel cursor totals s =
        .ok totals' s' ∧
      Swept provider rows (attempted ++ visited (stays provider) batchSize fuel rest) totals'
        s'.data := by
  induction fuel generalizing attempted rest cursor totals s with
  | zero => omega
  | succ fuel ih =>
    have hqueue : (queue provider.kind now rows).Nodup :=
      (List.Nodup.of_map _ hids).filter _ |> (perm_ordered _ _).nodup_iff.mpr
    have hfind : findUploads (matching provider.kind now) cursor batchSize
        ⟨s.data, s.checks + 1⟩ =
        .ok ((rest.take batchSize).map UploadRow.select) ⟨s.data, s.checks + 1⟩ := by
      unfold findUploads
      rw [h.uploads, findMany_marked hids hat]
    have hpage : ∀ row ∈ rest.take batchSize, row ∈ queue provider.kind now rows := by
      obtain ⟨done, hdone, -⟩ := hat.exists_append
      intro row hrow
      rw [hdone]
      exact List.mem_append_right _ (List.mem_of_mem_take hrow)
    have hnext := hat.nodup_append hqueue hnodup batchSize
    obtain ⟨totals₁, s₁, hfold, h₁⟩ :=
      expirePage_ok (s := ⟨s.data, s.checks + 1⟩) hsignal hids _ hpage hnext h
    have hlength : ((rest.take batchSize).map UploadRow.select).length =
        min batchSize rest.length := by
      rw [List.length_map, List.length_take]
    rw [visited]
    by_cases hshort : rest.length < batchSize
    · -- The page is not full, and is the last one.
      rw [if_pos hshort]
      rw [List.take_of_length_le (Nat.le_of_lt hshort)] at h₁ hfold hfind hlength
      refine ⟨totals₁, s₁, ?_, h₁⟩
      refine bind_eq_ok.mpr ⟨(), _, throwIfAborted_never hsignal s,
        bind_eq_ok.mpr ⟨_, _, hfind, bind_eq_ok.mpr ⟨totals₁, s₁, hfold, ?_⟩⟩⟩
      rw [if_pos (by omega)]
      rfl
    · rw [if_neg hshort, ← List.append_assoc]
      have hbehind : (behind (stays provider) batchSize rest).length < fuel := by
        have hle := (behind_suffix (stays provider) batchSize rest).length_le
        rw [List.length_drop] at hle
        omega
      obtain ⟨totals₂, s₂, hloop, h₂⟩ := ih (hat.next hbatch hshort) hnext hbehind h₁
      refine ⟨totals₂, s₂, ?_, h₂⟩
      refine bind_eq_ok.mpr ⟨(), _, throwIfAborted_never hsignal s,
        bind_eq_ok.mpr ⟨_, _, hfind, bind_eq_ok.mpr ⟨totals₁, s₁, hfold, ?_⟩⟩⟩
      rw [if_neg (by omega)]
      exact hloop

theorem expirePendingUploads_ok (provider : UploadProviderAdapter ι) (now : ℤ)
    (hsignal : ∀ n, signal n = none) (hbatch : 1 ≤ batchSize) (hids : (rows.map (·.id)).Nodup)
    (hfuel : rows.length < fuel) :
    ∃ totals s, expirePendingUploads fuel (some provider) now batchSize signal ⟨⟨rows, []⟩, 0⟩ =
        .ok totals s ∧
      Swept provider rows
        (visited (stays provider) batchSize fuel (queue provider.kind now rows)) totals s.data := by
  have hlength : (queue provider.kind now rows).length < fuel := by
    unfold queue
    rw [(perm_ordered _ _).length_eq]
    exact Nat.lt_of_le_of_lt (List.length_filter_le _ _) hfuel
  have hstart : Swept provider rows [] {} (⟨rows, []⟩ : SweepData ι) :=
    ⟨(List.map_id rows).symm, rfl, rfl, rfl⟩
  exact expireLoop_ok (s := ⟨⟨rows, []⟩, 0⟩) hsignal hbatch hids fuel (.start rfl) List.nodup_nil
    hlength hstart

/-! ### What the sweep misses -/

/-- Every upload that was looked for was attempted once, exactly those whose objects were deleted
are failed, and both kinds are counted. -/
structure MissesNothing (provider : UploadProviderAdapter ι) (now : ℤ) (rows : List (UploadRow ι))
    (totals : Expired) (data : SweepData ι) : Prop where
  attempts : data.attempts.Perm ((rows.filter (matching provider.kind now)).map UploadRow.select)
  uploads : data.uploads = rows.map fun row =>
    if matching provider.kind now row && succeeds provider row then row.fail else row
  expired : totals.expired =
    rows.countP fun row => matching provider.kind now row && succeeds provider row
  failures : totals.failures =
    rows.countP fun row => matching provider.kind now row && !succeeds provider row

theorem countP_queue (p : UploadRow ι → Bool) :
    (queue kind now rows).countP p = rows.countP fun row => matching kind now row && p row := by
  rw [queue, (perm_ordered _ _).countP_eq, List.countP_filter]
  exact List.countP_congr fun row _ => by rw [Bool.and_comm]

theorem mark_queue (hrow : row ∈ rows) :
    mark provider (queue provider.kind now rows) row =
      if matching provider.kind now row && succeeds provider row then row.fail else row := by
  have hiff : row ∈ (queue provider.kind now rows).filter (succeeds provider) ↔
      (matching provider.kind now row && succeeds provider row) = true := by
    rw [List.mem_filter, mem_queue, Bool.and_eq_true]
    exact ⟨fun h => ⟨h.1.2, h.2⟩, fun h => ⟨⟨hrow, h.1⟩, h.2⟩⟩
  unfold mark
  simp only [hiff]

theorem Swept.missesNothing {data : SweepData ι}
    (h : Swept provider rows (queue provider.kind now rows) totals data) :
    MissesNothing provider now rows totals data where
  attempts := by
    rw [h.attempts]
    exact (perm_ordered _ _).map _
  uploads := by
    rw [h.uploads]
    exact List.map_congr_left fun row hrow => mark_queue hrow
  expired := by rw [h.expired, countP_queue]
  failures := by
    rw [h.failures, countP_queue]
    rfl

/-- **The sweep misses nothing** exactly if no page but the last one ends with an upload whose
object is deleted. -/
theorem expirePendingUploads_misses_nothing_iff (hsignal : ∀ n, signal n = none)
    (hbatch : 1 ≤ batchSize) (hids : (rows.map (·.id)).Nodup) (hfuel : rows.length < fuel) :
    (∃ totals s, expirePendingUploads fuel (some provider) now batchSize signal ⟨⟨rows, []⟩, 0⟩ =
        .ok totals s ∧ MissesNothing provider now rows totals s.data) ↔
      CursorsStay (stays provider) batchSize (queue provider.kind now rows) := by
  have hlength : (queue provider.kind now rows).length =
      (rows.filter (matching provider.kind now)).length := (perm_ordered _ _).length_eq
  have hqueue : (queue provider.kind now rows).length < fuel := by
    rw [hlength]
    exact Nat.lt_of_le_of_lt (List.length_filter_le _ _) hfuel
  obtain ⟨totals, s, hrun, hswept⟩ :=
    expirePendingUploads_ok provider now hsignal hbatch hids hfuel
  rw [← visited_eq_iff hbatch hqueue]
  constructor
  · rintro ⟨totals', s', hrun', hmisses⟩
    rw [hrun] at hrun'
    injection hrun' with htotals hs
    have hsame := hmisses.attempts.length_eq
    rw [← hs, hswept.attempts, List.length_map, List.length_map, ← hlength] at hsame
    exact (visited_sublist _ _ _ _).eq_of_length hsame
  · intro hall
    rw [hall] at hswept
    exact ⟨totals, s, hrun, hswept.missesNothing⟩

def exampleRow (id : ℕ) (objectKey : String) : UploadRow ℕ where
  id := id
  upload := {
    userId := "user", provider := .s3, objectKey := objectKey, originalName := "photo.jpg"
    contentType := "image/jpeg", expectedSize := 16, uploadExpiresAt := 5 }

def exampleRows : List (UploadRow ℕ) := [exampleRow 0 "first", exampleRow 1 "second"]

/-- A provider that deletes the objects, but for those with this key. -/
def exampleProvider (failing : String) : UploadProviderAdapter ℕ where
  kind := .s3
  deleteObject upload := if upload.objectKey = failing then some .value else none

theorem expirePendingUploads_misses_nothing_example :
    (∃ totals s, expirePendingUploads 3 (some (exampleProvider "first")) 10 1 (fun _ => none)
        ⟨⟨exampleRows, []⟩, 0⟩ = .ok totals s ∧
          MissesNothing (exampleProvider "first") 10 exampleRows totals s.data) ↔
      CursorsStay (stays (exampleProvider "first")) 1 (queue .s3 10 exampleRows) :=
  expirePendingUploads_misses_nothing_iff (fun _ => rfl) le_rfl (by decide) (by decide)

/-- With pages of one upload, the second of two is never attempted once the first is marked. -/
theorem misses_second : ¬ ∃ totals s,
    expirePendingUploads 3 (some (exampleProvider "none")) 10 1 (fun _ => none)
        ⟨⟨exampleRows, []⟩, 0⟩ = .ok totals s ∧
      MissesNothing (exampleProvider "none") 10 exampleRows totals s.data := by
  rintro ⟨totals, s, hrun, hmisses⟩
  have hlength := hmisses.attempts.length_eq
  cases hrun
  revert hlength
  decide

end BackendFoundation.Uploads.PendingSweep
