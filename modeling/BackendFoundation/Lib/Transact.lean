import BackendFoundation.Lib.Database

/-! # Callers of a database

A caller runs a transaction: it executes a statement, and goes on by the reply or throws. A throw in
the transaction rolls it back. The surroundings may let a statement fail, or lose its reply: the
caller then throws, while the database keeps the transaction until it aborts it. -/

set_option linter.unusedSectionVars false

namespace BackendFoundation.Lib.Transact

open Lib.Database Lib.Runs
open Option (some.inj)

variable {K : Type*} [DecidableEq K] {V : K → Type*} [∀ k, DecidableEq (V k)] {P ε : Type*}

/-- A program point, and the transaction. -/
structure Caller (V : K → Type*) (P : Type*) where
  pc : P
  tx : Tx V := {}

/-- What the surroundings do to a statement. -/
inductive Fate (ε : Type*)
  | executed
  | fails (e : ε)
  | lost (e : ε)
deriving DecidableEq

/-- The errors of a database. -/
structure Errors (P : Type*) where
  /-- A unique constraint is violated. -/
  taken : P
  failed : P

/-- A caller executes a statement. `next` is where it goes on after the reply, or what it throws in the
transaction. -/
def Caller.step (db : Db V) (i : ℕ) (call : Caller V P) (stmt : Stmt V)
    (next : Reply V → Option (Except ε P)) (thrown : ε → P) (errors : Errors ε) (fate : Fate ε) :
    Option (Db V × Caller V P) :=
  match fate with
  | .fails e => some (db.release i, ⟨thrown e, {}⟩)
  | _ =>
    match exec db i call.tx stmt with
    | none => none
    | some (db, .running tx) => some (db, ⟨call.pc, tx⟩)
    | some (db, .replied tx reply) =>
      match fate with
      | .lost e => some (db, ⟨thrown e, tx⟩)
      | _ =>
        match next reply with
        | none => none
        | some (.error e) => some (db.release i, ⟨thrown e, {}⟩)
        | some (.ok pc) => some (db, ⟨pc, tx⟩)
    | some (db, .taken) => some (db, ⟨thrown errors.taken, {}⟩)
    | some (db, .failed) => some (db, ⟨thrown errors.failed, {}⟩)

variable {db db' : Db V} {i j : ℕ} {call call' : Caller V P} {stmt : Stmt V}
  {next : Reply V → Option (Except ε P)} {thrown : ε → P} {errors : Errors ε} {fate : Fate ε}

/-- What a step of a caller does. -/
inductive CallerStep (db : Db V) (i : ℕ) (call : Caller V P) (stmt : Stmt V)
    (next : Reply V → Option (Except ε P)) (thrown : ε → P) : Db V → Caller V P → Prop
  | refused {e : ε} : CallerStep db i call stmt next thrown (db.release i) ⟨thrown e, {}⟩
  | running {db' : Db V} {tx : Tx V} : exec db i call.tx stmt = some (db', .running tx) →
      CallerStep db i call stmt next thrown db' ⟨call.pc, tx⟩
  | lost {db' : Db V} {tx : Tx V} {reply : Reply V} {e : ε} :
      exec db i call.tx stmt = some (db', .replied tx reply) →
      CallerStep db i call stmt next thrown db' ⟨thrown e, tx⟩
  | threw {db' : Db V} {tx : Tx V} {reply : Reply V} {e : ε} :
      exec db i call.tx stmt = some (db', .replied tx reply) → next reply = some (.error e) →
      CallerStep db i call stmt next thrown (db'.release i) ⟨thrown e, {}⟩
  | replied {db' : Db V} {tx : Tx V} {reply : Reply V} {pc : P} :
      exec db i call.tx stmt = some (db', .replied tx reply) → next reply = some (.ok pc) →
      CallerStep db i call stmt next thrown db' ⟨pc, tx⟩
  | ended {db' : Db V} {p : Progress V} {e : ε} : exec db i call.tx stmt = some (db', p) →
      p = .taken ∨ p = .failed → CallerStep db i call stmt next thrown db' ⟨thrown e, {}⟩

theorem Caller.step_cases
    (h : call.step db i stmt next thrown errors fate = some (db', call')) :
    CallerStep db i call stmt next thrown db' call' := by
  unfold Caller.step at h
  split at h
  · obtain ⟨rfl, rfl⟩ := pair_inj h
    exact .refused
  split at h
  · cases h
  · obtain ⟨rfl, rfl⟩ := pair_inj h
    exact .running ‹_›
  · split at h
    · obtain ⟨rfl, rfl⟩ := pair_inj h
      exact .lost ‹_›
    · split at h
      · cases h
      · obtain ⟨rfl, rfl⟩ := pair_inj h
        exact .threw ‹_› ‹_›
      · obtain ⟨rfl, rfl⟩ := pair_inj h
        exact .replied ‹_› ‹_›
  · obtain ⟨rfl, rfl⟩ := pair_inj h
    exact .ended ‹_› (.inl rfl)
  · obtain ⟨rfl, rfl⟩ := pair_inj h
    exact .ended ‹_› (.inr rfl)

theorem Caller.executed_of_step
    (h : call.step db i stmt next thrown errors fate = some (db', call')) (hpc : call'.pc ≠ call.pc)
    (hno : ∀ e, call'.pc ≠ thrown e) : fate = .executed := by
  cases fate with
  | executed => rfl
  | fails e =>
    obtain ⟨-, rfl⟩ := pair_inj h
    exact absurd rfl (hno e)
  | lost e =>
    unfold Caller.step at h
    dsimp only at h
    split at h
    · cases h
    · obtain ⟨-, rfl⟩ := pair_inj h
      exact absurd rfl hpc
    · obtain ⟨-, rfl⟩ := pair_inj h
      exact absurd rfl (hno e)
    · obtain ⟨-, rfl⟩ := pair_inj h
      exact absurd rfl (hno _)
    · obtain ⟨-, rfl⟩ := pair_inj h
      exact absurd rfl (hno _)

/-- **A step of a caller** disturbs no other transaction, and leaves its own in order. -/
theorem CallerStep.txOk (h : CallerStep db i call stmt next thrown db' call')
    (htx : TxOk db i call.tx) (hdb : db.Listed) :
    Moves db i db' ∧ db'.Listed ∧ TxOk db' i call'.tx := by
  cases h with
  | refused => exact ⟨.release _ _, hdb, txOk_fresh _ _ _⟩
  | running hs | lost hs | replied hs _ =>
    obtain ⟨hmoves, htx'⟩ := exec_txOk htx hdb hs
    exact ⟨hmoves, exec_listed htx hdb hs, htx'⟩
  | threw hs _ =>
    have hlisted := exec_listed htx hdb hs
    exact ⟨(exec_txOk htx hdb hs).1.trans (.release _ _), hlisted, txOk_fresh _ _ _⟩
  | ended hs _ =>
    exact ⟨(exec_txOk htx hdb hs).1, exec_listed htx hdb hs, txOk_fresh _ _ _⟩

/-- The statement is executed by a transaction that the database has not rolled back. -/
theorem exec_live {tx tx' : Tx V} {p : Progress V} (hs : exec db i tx stmt = some (db', p))
    (hp : p = .running tx' ∨ ∃ reply, p = .replied tx' reply) : db.aborted i = false := by
  rcases exec_cases hs with ⟨-, -, rfl⟩ | ⟨hlive, -⟩
  · cases Progress.tx?_eq hp
  · exact hlive

/-- The advisory locks that a transaction has after a statement. -/
theorem exec_advisory {tx tx' : Tx V} {p : Progress V} (hs : exec db i tx stmt = some (db', p))
    (hp : p = .running tx' ∨ ∃ reply, p = .replied tx' reply) :
    match stmt with
    | .read | .insert _ _ | .update _ _ => tx'.advisory = tx.advisory
    | .lock k => tx'.advisory = k :: tx.advisory
    | .commit => tx'.advisory = [] := by
  have htx := Progress.tx?_eq hp
  rcases exec_cases hs with ⟨-, -, rfl⟩ | ⟨-, hs⟩
  · cases htx
  cases hs with
  | taken | changed => cases htx
  | read | inserted | scanned | updated | passed | took =>
    obtain rfl := some.inj htx
    exact begin_advisory
  | locked =>
    obtain rfl := some.inj htx
    simp only [begin_advisory]
  | commit =>
    obtain rfl := some.inj htx
    rfl

end BackendFoundation.Lib.Transact
