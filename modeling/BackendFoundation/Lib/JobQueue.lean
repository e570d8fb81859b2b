import BackendFoundation.Lib.Table

/-! # A job queue with retries and stalled jobs

Jobs have an id. `add` with the id of a job that is still kept does nothing. A worker `take`s a
waiting job and holds its lock, named by a token; only the holder of the lock completes or fails
the job. A job that fails waits again until its attempts are exhausted. A job whose lock lapsed
(`stall`) waits again, until it has stalled more often than the queue allows. Finished jobs may be
removed.

The lemmas say what each operation makes of the job it is about; every other job is kept. -/

namespace BackendFoundation.Lib

inductive JobState
  | waiting
  /-- A worker runs the job under the lock named by `token`. -/
  | active (token : ℕ)
  | completed
  | failed
deriving DecidableEq

structure Job (D : Type*) where
  data : D
  /-- How many attempts were configured, if that was done. -/
  attempts : Option ℕ := none
  /-- Attempts that have failed so far. -/
  attemptsMade : ℕ := 0
  stalledCounter : ℕ := 0
  state : JobState := .waiting
deriving DecidableEq

namespace Job

variable {D : Type*}

/-- A failure now leaves no attempt. -/
def LastAttempt (j : Job D) : Prop := max 1 (j.attempts.getD 1) ≤ j.attemptsMade + 1

instance (j : Job D) : Decidable j.LastAttempt := inferInstanceAs (Decidable (_ ≤ _))

def afterFailure (j : Job D) : Job D :=
  { j with
    attemptsMade := j.attemptsMade + 1
    state := if j.LastAttempt then .failed else .waiting }

/-- One more stall is more than the queue allows. -/
def StallLimit (maxStalledCount : ℕ) (j : Job D) : Prop := maxStalledCount ≤ j.stalledCounter

instance (n : ℕ) (j : Job D) : Decidable (j.StallLimit n) := inferInstanceAs (Decidable (_ ≤ _))

end Job

/-- The jobs a queue keeps, by id. -/
abbrev JobQueue (K D : Type*) := Table K (Job D)

namespace JobQueue

variable {K D : Type*} [DecidableEq K]

def add (q : JobQueue K D) (id : K) (data : D) (attempts : Option ℕ) : JobQueue K D :=
  match q id with
  | some _ => q
  | none => q.set id { data := data, attempts := attempts }

/-- The job of `id` is run under the lock `token`. -/
def Holds (q : JobQueue K D) (id : K) (token : ℕ) : Prop :=
  ∃ j, q id = some j ∧ j.state = .active token

instance (q : JobQueue K D) (id : K) (token : ℕ) : Decidable (q.Holds id token) :=
  decidable_of_iff ((q id).any fun j => decide (j.state = .active token)) (by
    simp [Holds, Option.any_eq_true])

/-- A worker takes a waiting job. -/
def take (q : JobQueue K D) (id : K) (token : ℕ) : Option (JobQueue K D × Job D) :=
  match q id with
  | some j =>
    if j.state = .waiting then
      some (q.set id { j with state := .active token }, { j with state := .active token })
    else none
  | none => none

/-- The processor of the job returned. Without the lock nothing happens. -/
def complete (q : JobQueue K D) (id : K) (token : ℕ) : JobQueue K D :=
  (q.updateWhere id (fun j => j.state = .active token) fun j => { j with state := .completed }).1

/-- The processor of the job threw. Without the lock nothing happens; with it the queue reports
the job as it is afterwards. -/
def fail (q : JobQueue K D) (id : K) (token : ℕ) : JobQueue K D × Option (Job D) :=
  match q id with
  | some j =>
    if j.state = .active token then (q.set id j.afterFailure, some j.afterFailure) else (q, none)
  | none => (q, none)

/-- The lock of a job lapsed and the job waits again. -/
def stall (q : JobQueue K D) (maxStalledCount : ℕ) (id : K) : Option (JobQueue K D) :=
  match q id with
  | some j =>
    match j.state with
    | .active _ =>
      if j.StallLimit maxStalledCount then none
      else some (q.set id { j with state := .waiting, stalledCounter := j.stalledCounter + 1 })
    | _ => none
  | none => none

/-- The lock of a job lapsed once more than allowed, and the queue fails the job. -/
def stallOut (q : JobQueue K D) (maxStalledCount : ℕ) (id : K) :
    Option (JobQueue K D × Job D) :=
  match q id with
  | some j =>
    match j.state with
    | .active _ =>
      if j.StallLimit maxStalledCount then
        some (q.set id { j with state := .failed }, { j with state := .failed })
      else none
    | _ => none
  | none => none

/-- A finished job is no longer kept. -/
def remove (q : JobQueue K D) (id : K) : Option (JobQueue K D) :=
  match q id with
  | some j => if j.state = .completed ∨ j.state = .failed then some (q.erase id) else none
  | none => none

variable {q q' : JobQueue K D} {id id' : K} {token : ℕ} {data : D} {attempts : Option ℕ} {j : Job D}

/-! ### What the operations do -/

theorem add_of_ne (h : id' ≠ id) : q.add id data attempts id' = q id' := by
  unfold add
  cases q id with
  | none => exact Table.set_of_ne h
  | some _ => rfl

theorem add_of_some (h : q id = some j) : q.add id data attempts = q := by
  simp [add, h]

theorem add_self_of_none (h : q id = none) :
    q.add id data attempts id = some { data := data, attempts := attempts } := by
  simp [add, h]

theorem exists_add_self : ∃ j, q.add id data attempts id = some j := by
  cases h : q id with
  | none => exact ⟨_, add_self_of_none h⟩
  | some j => exact ⟨j, by rw [add_of_some h, h]⟩

theorem add_eq_some (h : q.add id data attempts id' = some j) :
    q id' = some j ∨ (id' = id ∧ q id = none ∧ j = { data := data, attempts := attempts }) := by
  by_cases hid : id' = id
  · subst hid
    cases hq : q id' with
    | none =>
      rw [add_self_of_none hq] at h
      exact .inr ⟨rfl, rfl, (Option.some.inj h).symm⟩
    | some j' =>
      rw [add_of_some hq, hq] at h
      exact .inl h
  · rw [add_of_ne hid] at h
    exact .inl h

theorem take_eq_some {j' : Job D} (h : q.take id token = some (q', j')) :
    ∃ j, q id = some j ∧ j.state = .waiting ∧ j' = { j with state := .active token } ∧
      q' = q.set id j' := by
  unfold take at h
  split at h
  · next j hj =>
    split_ifs at h with hw
    cases h
    exact ⟨j, hj, hw, rfl, rfl⟩
  · cases h

theorem complete_of_ne (h : id' ≠ id) : q.complete id token id' = q id' :=
  Table.updateWhere_of_ne h

theorem complete_cases (q : JobQueue K D) (id : K) (token : ℕ) :
    (∃ j, q id = some j ∧ j.state = .active token ∧
        q.complete id token = q.set id { j with state := .completed }) ∨
      (¬ q.Holds id token ∧ q.complete id token = q) := by
  unfold complete
  rcases Table.updateWhere_cases q id (fun j => j.state = .active token)
    (fun j => { j with state := .completed }) with ⟨j, hj, hs, he⟩ | ⟨hn, he⟩
  · exact .inl ⟨j, hj, hs, by rw [he]⟩
  · exact .inr ⟨fun ⟨j, hj, hs⟩ => hn j hj hs, by rw [he]⟩

theorem fail_cases (q : JobQueue K D) (id : K) (token : ℕ) :
    (∃ j, q id = some j ∧ j.state = .active token ∧
        q.fail id token = (q.set id j.afterFailure, some j.afterFailure)) ∨
      (¬ q.Holds id token ∧ q.fail id token = (q, none)) := by
  unfold fail
  cases hq : q id with
  | none => exact .inr ⟨by simp [Holds, hq], rfl⟩
  | some j =>
    by_cases hs : j.state = .active token
    · exact .inl ⟨j, rfl, hs, by simp [hs]⟩
    · exact .inr ⟨by simp [Holds, hq, hs], by simp [hs]⟩

theorem stall_eq_some {n : ℕ} (h : q.stall n id = some q') :
    ∃ j t, q id = some j ∧ j.state = .active t ∧ ¬ j.StallLimit n ∧
      q' = q.set id { j with state := .waiting, stalledCounter := j.stalledCounter + 1 } := by
  unfold stall at h
  split at h
  · next j hj =>
    split at h
    · next t ht =>
      split_ifs at h with hl
      cases h
      exact ⟨j, t, hj, ht, hl, rfl⟩
    · cases h
  · cases h

theorem stallOut_eq_some {n : ℕ} {j' : Job D} (h : q.stallOut n id = some (q', j')) :
    ∃ j t, q id = some j ∧ j.state = .active t ∧ j.StallLimit n ∧
      j' = { j with state := .failed } ∧ q' = q.set id j' := by
  unfold stallOut at h
  split at h
  · next j hj =>
    split at h
    · next t ht =>
      split_ifs at h with hl
      cases h
      exact ⟨j, t, hj, ht, hl, rfl, rfl⟩
    · cases h
  · cases h

theorem remove_eq_some (h : q.remove id = some q') :
    ∃ j, q id = some j ∧ (j.state = .completed ∨ j.state = .failed) ∧ q' = q.erase id := by
  unfold remove at h
  split at h
  · next j hj =>
    split_ifs at h with hs
    cases h
    exact ⟨j, hj, hs, rfl⟩
  · cases h

end JobQueue

end BackendFoundation.Lib
