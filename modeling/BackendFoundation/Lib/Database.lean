import BackendFoundation.Lib.Runs
import Mathlib.Data.List.Dedup
import Mathlib.Data.Nat.Notation
import Mathlib.Logic.Function.Basic
import Mathlib.Tactic.Common

/-! # A database with transactions

A database has committed rows by key, the owner of each row lock, and the transactions that it has
rolled back. The writes of a transaction are invisible to the others until it commits; a row is
written under its lock, which is kept until the end of the transaction. A lock need not have a row:
it then is an advisory lock, or the entry of a unique index.

A transaction executes statements, `exec`. An update first looks up the rows that meet its condition
and then takes them one by one. It waits for a row that another transaction has locked. A
read-committed transaction then decides by the row as it is now; a serializable one reads its
snapshot, and fails at a row that was changed since.

`TxOk` says that the rows a transaction is about to replace are as it has found them. It is kept by
the statements of the transaction (`exec_txOk`) and by those of every other one (`TxOk.moves`), so a
commit changes each row from what the transaction has seen to what it has written
(`exec_rows`). -/

set_option linter.unusedSectionVars false

namespace BackendFoundation.Lib.Database

open Lib.Runs
open Option (some.inj)

variable {K : Type*} [DecidableEq K] {V : K → Type*} [∀ k, DecidableEq (V k)]

/-- The rows by key. -/
abbrev Rows (V : K → Type*) := ∀ k, Option (V k)

/-- The row that a transaction has found and the row that it leaves. -/
structure Change (V : K → Type*) (k : K) where
  before : Option (V k)
  after : Option (V k)

/-- The rows that a transaction has written. -/
abbrev Writes (V : K → Type*) := ∀ k, Option (Change V k)

namespace Writes

def empty : Writes V := fun _ => none

/-- The rows as a transaction sees them that has written `ws`. -/
def read (ws : Writes V) (rows : Rows V) : Rows V := fun k =>
  match ws k with
  | some change => change.after
  | none => rows k

/-- Writes `v` to the row `k`; `before` is the row if it has not been written yet. -/
def set (ws : Writes V) (k : K) (before v : Option (V k)) : Writes V :=
  Function.update ws k (some ⟨((ws k).map (·.before)).getD before, v⟩)

variable {ws : Writes V} {rows : Rows V} {k k' : K} {before v : Option (V k)} {c : Change V k}

@[simp] theorem read_empty : (empty : Writes V).read rows = rows := rfl

theorem read_of_some (h : ws k = some c) : ws.read rows k = c.after := by
  simp [read, h]

theorem read_of_none (h : ws k = none) : ws.read rows k = rows k := by
  simp [read, h]

theorem set_self :
    ws.set k before v k = some ⟨((ws k).map (·.before)).getD before, v⟩ := Function.update_self ..

theorem set_of_ne (h : k' ≠ k) : ws.set k before v k' = ws k' := Function.update_of_ne h ..

end Writes

structure Db (V : K → Type*) where
  rows : Rows V := fun _ => none
  /-- The keys under which rows have been inserted. -/
  keys : List K := []
  locks : K → Option ℕ := fun _ => none
  /-- The transactions that the database has rolled back. -/
  aborted : ℕ → Bool := fun _ => false

namespace Db

variable (db : Db V) (i : ℕ)

/-- Takes the lock `k` for the transaction `i`, unless another one has it. -/
def lock (k : K) : Option (Db V) :=
  match db.locks k with
  | none => some { db with locks := Function.update db.locks k (some i) }
  | some owner => if owner = i then some db else none

def release : Db V := { db with locks := fun k => if db.locks k = some i then none else db.locks k }

def commit (ws : Writes V) : Db V := { db.release i with rows := ws.read db.rows }

/-- The database rolls the transaction back: a deadlock, or a lost connection. -/
def abort : Db V :=
  { db.release i with aborted := Function.update db.aborted i true }

end Db

/-! ### Statements -/

structure Tx (V : K → Type*) where
  serializable : Bool := false
  /-- The rows that a serializable transaction reads, from its first statement on. -/
  snapshot : Option (Rows V) := none
  writes : Writes V := Writes.empty
  /-- The rows that an update has still to take, and the number of those it has changed. -/
  pending : Option (List K × ℕ) := none
  /-- The advisory locks. -/
  advisory : List K := []

inductive Stmt (V : K → Type*)
  | read
  | insert (k : K) (v : V k)
  /-- `updateMany`; a row becomes `data k v`, and is deleted if that is none. -/
  | update (cond : ∀ k, V k → Bool) (data : ∀ k, V k → Option (V k))
  /-- `pg_advisory_xact_lock`. -/
  | lock (k : K)
  | commit

inductive Reply (V : K → Type*)
  | rows (rows : Rows V)
  | count (n : ℕ)
  | done

inductive Progress (V : K → Type*)
  /-- The statement has more rows to take. -/
  | running (tx : Tx V)
  | replied (tx : Tx V) (reply : Reply V)
  /-- A unique constraint is violated; the transaction is rolled back. -/
  | taken
  /-- The transaction is rolled back. -/
  | failed

/-- The rows that a transaction reads. -/
def Tx.view (tx : Tx V) (db : Db V) : Rows V := tx.writes.read (tx.snapshot.getD db.rows)

/-- The first statement of a serializable transaction takes its snapshot. -/
def Tx.begin (tx : Tx V) (db : Db V) : Tx V :=
  if tx.serializable ∧ tx.snapshot.isNone then { tx with snapshot := some db.rows } else tx

/-- The rows an update takes. -/
def Tx.matching (tx : Tx V) (db : Db V) (cond : ∀ k, V k → Bool) : List K :=
  (db.keys.filter fun k => (tx.view db k).any (cond k)).dedup

/-- An update takes the row `k`. -/
def takeRow (db : Db V) (i : ℕ) (tx : Tx V) (cond : ∀ k, V k → Bool)
    (data : ∀ k, V k → Option (V k)) (k : K) (rest : List K) (n : ℕ) :
    Option (Db V × Progress V) :=
  match db.lock i k with
  | none => none
  | some locked =>
    if tx.snapshot.any (fun rows => decide (rows k ≠ db.rows k)) then some (db.release i, .failed)
    else
      match (tx.writes.read db.rows k).filter (cond k) with
      | none => some (db, .running { tx with pending := some (rest, n) })
      | some v =>
        some (locked, .running
          { tx with
            writes := tx.writes.set k (db.rows k) (data k v)
            pending := some (rest, n + 1) })

/-- A statement of a transaction that has begun, none while it waits. -/
def execBegun (db : Db V) (i : ℕ) (tx : Tx V) : Stmt V → Option (Db V × Progress V)
  | .read => some (db, .replied tx (.rows (tx.view db)))
  | .insert k v =>
    match db.lock i k with
    | none => none
    | some locked =>
      match tx.writes.read db.rows k with
      | some _ => some (db.release i, .taken)
      | none =>
        some ({ locked with keys := k :: db.keys },
          .replied { tx with writes := tx.writes.set k (db.rows k) (some v) } .done)
  | .update cond data =>
    match tx.pending with
    | none => some (db, .running { tx with pending := some (tx.matching db cond, 0) })
    | some ([], n) => some (db, .replied { tx with pending := none } (.count n))
    | some (k :: rest, n) => takeRow db i tx cond data k rest n
  | .lock k =>
    match db.lock i k with
    | none => none
    | some locked => some (locked, .replied { tx with advisory := k :: tx.advisory } .done)
  | .commit => some (db.commit i tx.writes, .replied { serializable := tx.serializable } .done)

/-- A statement of the transaction `i`, which fails if the database has rolled it back. -/
def exec (db : Db V) (i : ℕ) (tx : Tx V) (stmt : Stmt V) : Option (Db V × Progress V) :=
  if db.aborted i then some (db.release i, .failed) else execBegun db i (tx.begin db) stmt

/-! ### What a transaction has -/

/-- A live transaction has the locks of the rows that it has written, and these rows are as it has
found them. -/
structure TxOk (db : Db V) (i : ℕ) (tx : Tx V) : Prop where
  rows : db.aborted i = false → ∀ k c, tx.writes k = some c →
    db.locks k = some i ∧ db.rows k = c.before
  advisory : db.aborted i = false → ∀ k ∈ tx.advisory, db.locks k = some i
  /-- What a serializable transaction has found is what its snapshot says. -/
  snapshot : ∀ snap, tx.snapshot = some snap → ∀ k c, tx.writes k = some c →
    c.before = snap k ∨ c.before = none
  /-- It has a snapshot if it is serializable and has written. -/
  begun : ∀ k c, tx.writes k = some c → tx.serializable = true → tx.snapshot ≠ none
  /-- The keys that it has seen or written are known. -/
  listed : ∀ k, tx.writes k ≠ none → k ∈ db.keys
  seen : ∀ snap, tx.snapshot = some snap → ∀ k, snap k ≠ none → k ∈ db.keys

/-- The keys of the rows are known. -/
def Db.Listed (db : Db V) : Prop := ∀ k, db.rows k ≠ none → k ∈ db.keys

/-- What the step of a transaction may do to the database. -/
structure Moves (db : Db V) (i : ℕ) (db' : Db V) : Prop where
  aborted : db'.aborted = db.aborted
  locks : ∀ j k, j ≠ i → db.locks k = some j → db'.locks k = some j
  rows : ∀ j k, j ≠ i → db.locks k = some j → db'.rows k = db.rows k
  keys : ∀ k ∈ db.keys, k ∈ db'.keys

variable {db db' : Db V} {i j : ℕ} {tx tx' : Tx V} {k : K} {stmt : Stmt V}

theorem lock_cases (h : db.lock i k = some db') :
    (db.locks k = none ∧ db' = { db with locks := Function.update db.locks k (some i) }) ∨
      (db.locks k = some i ∧ db' = db) := by
  unfold Db.lock at h
  split at h
  · next hnone => exact .inl ⟨hnone, (some.inj h).symm⟩
  · next owner howner =>
    split_ifs at h with hi
    subst hi
    exact .inr ⟨howner, (some.inj h).symm⟩

theorem lock_self (h : db.lock i k = some db') : db'.locks k = some i := by
  rcases lock_cases h with ⟨-, rfl⟩ | ⟨hself, rfl⟩
  · exact Function.update_self ..
  · exact hself

theorem lock_keeps (h : db.lock i k = some db') {k' : K} (hlock : db.locks k' = some j) :
    db'.locks k' = some j := by
  rcases lock_cases h with ⟨hnone, rfl⟩ | ⟨-, rfl⟩
  · have hne : k' ≠ k := by
      rintro rfl
      rw [hnone] at hlock
      cases hlock
    exact (Function.update_of_ne hne ..).trans hlock
  · exact hlock

theorem lock_rest (h : db.lock i k = some db') :
    db'.rows = db.rows ∧ db'.keys = db.keys ∧ db'.aborted = db.aborted := by
  rcases lock_cases h with ⟨-, rfl⟩ | ⟨-, rfl⟩ <;> exact ⟨rfl, rfl, rfl⟩

theorem release_locks (hij : j ≠ i) (hlock : db.locks k = some j) :
    (db.release i).locks k = some j := by
  refine (if_neg ?_).trans hlock
  rw [hlock]
  exact fun he => hij (some.inj he)

theorem Moves.refl (db : Db V) (i : ℕ) : Moves db i db :=
  ⟨rfl, fun _ _ _ h => h, fun _ _ _ _ => rfl, fun _ h => h⟩

theorem Moves.release (db : Db V) (i : ℕ) : Moves db i (db.release i) :=
  ⟨rfl, fun _ _ hj h => release_locks hj h, fun _ _ _ _ => rfl, fun _ h => h⟩

theorem Moves.trans {db'' : Db V} (h : Moves db i db') (h' : Moves db' i db'') :
    Moves db i db'' := by
  refine ⟨h'.aborted.trans h.aborted, fun j k hj hl => h'.locks j k hj (h.locks j k hj hl),
    fun j k hj hl => ?_, fun k hk => h'.keys k (h.keys k hk)⟩
  exact (h'.rows j k hj (h.locks j k hj hl)).trans (h.rows j k hj hl)

theorem Moves.of_lock (h : db.lock i k = some db') : Moves db i db' := by
  obtain ⟨hrows, hkeys, haborted⟩ := lock_rest h
  exact ⟨haborted, fun _ _ _ hl => lock_keeps h hl, fun _ _ _ _ => by rw [hrows],
    fun _ hk => by rwa [hkeys]⟩

theorem Moves.commit (hlive : db.aborted i = false) (h : TxOk db i tx) :
    Moves db i (db.commit i tx.writes) := by
  refine ⟨rfl, fun _ _ hj hl => release_locks hj hl, fun j k hj hl => ?_, fun _ hk => hk⟩
  change tx.writes.read db.rows k = db.rows k
  cases hw : tx.writes k with
  | none => exact Writes.read_of_none hw
  | some c =>
    have howner := (h.rows hlive k c hw).1
    rw [hl] at howner
    exact absurd (some.inj howner) hj

/-! ### Other transactions -/

/-- The steps of one transaction leave another one what it has. -/
theorem TxOk.moves (h : TxOk db i tx) (hm : Moves db j db') (hij : i ≠ j) : TxOk db' i tx := by
  refine ⟨fun hlive k c hw => ?_, fun hlive k hk => ?_, h.snapshot, h.begun,
    fun k hk => hm.keys k (h.listed k hk), fun snap hs k hk => hm.keys k (h.seen snap hs k hk)⟩
  · rw [hm.aborted] at hlive
    obtain ⟨hlock, hrow⟩ := h.rows hlive k c hw
    exact ⟨hm.locks i k hij hlock, (hm.rows i k hij hlock).trans hrow⟩
  · rw [hm.aborted] at hlive
    exact hm.locks i k hij (h.advisory hlive k hk)

theorem abort_live (hlive : (db.abort j).aborted i = false) : i ≠ j ∧ db.aborted i = false := by
  have hij : i ≠ j := by
    rintro rfl
    simp [Db.abort] at hlive
  exact ⟨hij, (Function.update_of_ne hij ..).symm.trans hlive⟩

theorem TxOk.abort (h : TxOk db i tx) : TxOk (db.abort j) i tx := by
  refine ⟨fun hlive k c hw => ?_, fun hlive k hk => ?_, h.snapshot, h.begun, h.listed, h.seen⟩
  · obtain ⟨hij, hlive⟩ := abort_live hlive
    obtain ⟨hlock, hrow⟩ := h.rows hlive k c hw
    exact ⟨release_locks hij hlock, hrow⟩
  · obtain ⟨hij, hlive⟩ := abort_live hlive
    exact release_locks hij (h.advisory hlive k hk)

/-! ### The statements of a transaction -/

theorem txOk_fresh (db : Db V) (i : ℕ) (b : Bool) : TxOk db i { serializable := b } := by
  refine ⟨fun _ k c h => ?_, fun _ k h => ?_, fun _ _ k c h => ?_, fun k c h => ?_,
    fun k h => absurd rfl h, fun snap h => ?_⟩
  all_goals cases h

theorem begin_cases (tx : Tx V) (db : Db V) :
    tx.begin db = tx ∨ (tx.serializable = true ∧ tx.snapshot = none ∧
      tx.begin db = { tx with snapshot := some db.rows }) := by
  unfold Tx.begin
  split_ifs with h
  · exact .inr ⟨h.1, Option.isNone_iff_eq_none.mp h.2, rfl⟩
  · exact .inl rfl

@[simp] theorem begin_writes : (tx.begin db).writes = tx.writes := by
  rcases begin_cases tx db with h | ⟨-, -, h⟩ <;> rw [h]

@[simp] theorem begin_advisory : (tx.begin db).advisory = tx.advisory := by
  rcases begin_cases tx db with h | ⟨-, -, h⟩ <;> rw [h]

theorem begin_snapshot (h : tx.serializable = true) : (tx.begin db).snapshot ≠ none := by
  unfold Tx.begin
  split_ifs with hs
  · exact Option.some_ne_none _
  · intro hnone
    exact hs ⟨h, by rw [hnone]; rfl⟩

theorem TxOk.begin (h : TxOk db i tx) (hdb : db.Listed) : TxOk db i (tx.begin db) := by
  rcases begin_cases tx db with he | ⟨hser, hnone, he⟩
  · rwa [he]
  · rw [he]
    refine ⟨h.rows, h.advisory, fun snap _ k c hw => ?_, fun k c hw _ => Option.some_ne_none _,
      h.listed, fun snap hs k hk => ?_⟩
    · exact absurd hnone (h.begun k c hw hser)
    · obtain rfl := some.inj hs
      exact hdb k hk

theorem TxOk.withPending (h : TxOk db i tx) (pending : Option (List K × ℕ)) :
    TxOk db i { tx with pending := pending } :=
  ⟨h.rows, h.advisory, h.snapshot, h.begun, h.listed, h.seen⟩

theorem TxOk.set (h : TxOk db i tx) (hlock : db.lock i k = some db') {v : Option (V k)}
    (hsnap : ∀ snap, tx.snapshot = some snap → db.rows k = snap k ∨ db.rows k = none)
    (hbegun : tx.serializable = true → tx.snapshot ≠ none) (pending : Option (List K × ℕ))
    (keys : List K) (hkeys : ∀ k' ∈ db.keys, k' ∈ keys) (hk : k ∈ keys) :
    TxOk { db' with keys := keys } i
      { tx with writes := tx.writes.set k (db.rows k) v, pending := pending } := by
  obtain ⟨hrows, -, haborted⟩ := lock_rest hlock
  refine ⟨fun hlive k' c hw => ?_, fun hlive k' hk' => ?_, fun snap hs k' c hw => ?_,
    fun _ _ _ => hbegun, fun k' hw => ?_, fun snap hs k' hk' => hkeys k' (h.seen snap hs k' hk')⟩
  · have hlive : db.aborted i = false := haborted ▸ hlive
    have hw : tx.writes.set k (db.rows k) v k' = some c := hw
    change db'.locks k' = some i ∧ db'.rows k' = c.before
    rw [hrows]
    by_cases hk : k' = k
    · subst hk
      obtain rfl := some.inj (Writes.set_self.symm.trans hw)
      refine ⟨lock_self hlock, ?_⟩
      cases hold : tx.writes k' with
      | none => rfl
      | some c => exact (h.rows hlive k' c hold).2
    · rw [Writes.set_of_ne hk] at hw
      obtain ⟨hl, hrow⟩ := h.rows hlive k' c hw
      exact ⟨lock_keeps hlock hl, hrow⟩
  · have hlive : db.aborted i = false := haborted ▸ hlive
    exact lock_keeps hlock (h.advisory hlive k' hk')
  · have hw : tx.writes.set k (db.rows k) v k' = some c := hw
    by_cases hk : k' = k
    · subst hk
      obtain rfl := some.inj (Writes.set_self.symm.trans hw)
      cases hold : tx.writes k' with
      | none => exact hsnap snap hs
      | some c => exact h.snapshot snap hs k' c hold
    · rw [Writes.set_of_ne hk] at hw
      exact h.snapshot snap hs k' c hw
  · have hw : tx.writes.set k (db.rows k) v k' ≠ none := hw
    by_cases hk' : k' = k
    · subst hk'
      exact hk
    · rw [Writes.set_of_ne hk'] at hw
      exact hkeys k' (h.listed k' hw)

/-- What the step of a transaction leaves it. -/
def ProgressOk (db : Db V) (i : ℕ) : Progress V → Prop
  | .running tx | .replied tx _ => TxOk db i tx
  | .taken | .failed => True

variable {cond : ∀ k, V k → Bool} {data : ∀ k, V k → Option (V k)} {p : Progress V}

theorem takeRow_cases {rest : List K} {n : ℕ}
    (h : takeRow db i tx cond data k rest n = some (db', p)) : (db' = db.release i ∧ p = .failed) ∨
      ((∀ snap, tx.snapshot = some snap → db.rows k = snap k) ∧
        ((db' = db ∧ (tx.writes.read db.rows k).filter (cond k) = none ∧
          p = .running { tx with pending := some (rest, n) }) ∨
        ∃ v, db.lock i k = some db' ∧ tx.writes.read db.rows k = some v ∧ cond k v = true ∧
          p = .running
            { tx with
              writes := tx.writes.set k (db.rows k) (data k v)
              pending := some (rest, n + 1) })) := by
  unfold takeRow at h
  split at h
  · cases h
  · next locked hlock =>
    split_ifs at h with hchanged
    · obtain ⟨rfl, rfl⟩ := pair_inj h
      exact .inl ⟨rfl, rfl⟩
    · refine .inr ⟨fun snap hsnap => ?_, ?_⟩
      · rw [hsnap] at hchanged
        by_contra hne
        exact hchanged (decide_eq_true fun he => hne he.symm)
      · split at h
        · next hnone =>
          obtain ⟨rfl, rfl⟩ := pair_inj h
          exact .inl ⟨rfl, hnone, rfl⟩
        · next v hv =>
          obtain ⟨rfl, rfl⟩ := pair_inj h
          obtain ⟨hrow, hcond⟩ := Option.filter_eq_some_iff.mp hv
          exact .inr ⟨v, hlock, hrow, hcond, rfl⟩

/-- The transaction that goes on. -/
def Progress.tx? : Progress V → Option (Tx V)
  | .running tx | .replied tx _ => some tx
  | .taken | .failed => none

theorem Progress.tx?_eq (h : p = .running tx ∨ ∃ reply, p = .replied tx reply) :
    p.tx? = some tx := by
  rcases h with rfl | ⟨reply, rfl⟩ <;> rfl

/-- What a statement of a transaction that has begun does. -/
inductive Executes (db : Db V) (i : ℕ) (tx : Tx V) : Stmt V → Db V → Progress V → Prop
  | read : Executes db i tx .read db (.replied tx (.rows (tx.view db)))
  | taken {k : K} {v : V k} : Executes db i tx (.insert k v) (db.release i) .taken
  | inserted {k : K} {v : V k} {locked : Db V} : db.lock i k = some locked →
      tx.writes.read db.rows k = none →
      Executes db i tx (.insert k v) { locked with keys := k :: db.keys }
        (.replied { tx with writes := tx.writes.set k (db.rows k) (some v) } .done)
  | scanned {cond : ∀ k, V k → Bool} {data : ∀ k, V k → Option (V k)} : tx.pending = none →
      Executes db i tx (.update cond data) db
        (.running { tx with pending := some (tx.matching db cond, 0) })
  | updated {cond : ∀ k, V k → Bool} {data : ∀ k, V k → Option (V k)} {n : ℕ} :
      tx.pending = some ([], n) →
      Executes db i tx (.update cond data) db (.replied { tx with pending := none } (.count n))
  | changed {cond : ∀ k, V k → Bool} {data : ∀ k, V k → Option (V k)} :
      Executes db i tx (.update cond data) (db.release i) .failed
  | passed {cond : ∀ k, V k → Bool} {data : ∀ k, V k → Option (V k)} {k : K} {rest : List K}
      {n : ℕ} : tx.pending = some (k :: rest, n) →
      (∀ snap, tx.snapshot = some snap → db.rows k = snap k) →
      (tx.writes.read db.rows k).filter (cond k) = none →
      Executes db i tx (.update cond data) db (.running { tx with pending := some (rest, n) })
  | took {cond : ∀ k, V k → Bool} {data : ∀ k, V k → Option (V k)} {k : K} {rest : List K}
      {n : ℕ} {v : V k} {locked : Db V} : tx.pending = some (k :: rest, n) →
      db.lock i k = some locked → (∀ snap, tx.snapshot = some snap → db.rows k = snap k) →
      tx.writes.read db.rows k = some v → cond k v = true →
      Executes db i tx (.update cond data) locked (.running
        { tx with
          writes := tx.writes.set k (db.rows k) (data k v)
          pending := some (rest, n + 1) })
  | locked {k : K} {locked : Db V} : db.lock i k = some locked →
      Executes db i tx (.lock k) locked (.replied { tx with advisory := k :: tx.advisory } .done)
  | commit : Executes db i tx .commit (db.commit i tx.writes)
      (.replied { serializable := tx.serializable } .done)

theorem executes_of_execBegun (hs : execBegun db i tx stmt = some (db', p)) :
    Executes db i tx stmt db' p := by
  cases stmt with
  | read =>
    obtain ⟨rfl, rfl⟩ := pair_inj hs
    exact .read
  | insert k v =>
    simp only [execBegun] at hs
    split at hs
    · cases hs
    · next locked hlock =>
      split at hs
      · obtain ⟨rfl, rfl⟩ := pair_inj hs
        exact .taken
      · next hnone =>
        obtain ⟨rfl, rfl⟩ := pair_inj hs
        exact .inserted hlock hnone
  | update cond data =>
    simp only [execBegun] at hs
    split at hs
    · next hpend =>
      obtain ⟨rfl, rfl⟩ := pair_inj hs
      exact .scanned hpend
    · next hpend =>
      obtain ⟨rfl, rfl⟩ := pair_inj hs
      exact .updated hpend
    · next hpend =>
      rcases takeRow_cases hs with
        ⟨rfl, rfl⟩ | ⟨hrow, ⟨rfl, hno, rfl⟩ | ⟨v, hlock, hv, hcond, rfl⟩⟩
      · exact .changed
      · exact .passed hpend hrow hno
      · exact .took hpend hlock hrow hv hcond
  | lock k =>
    simp only [execBegun] at hs
    split at hs
    · cases hs
    · next locked hlock =>
      obtain ⟨rfl, rfl⟩ := pair_inj hs
      exact .locked hlock
  | commit =>
    obtain ⟨rfl, rfl⟩ := pair_inj hs
    exact .commit

/-- A statement fails if the transaction has been rolled back, and is executed otherwise. -/
theorem exec_cases (hs : exec db i tx stmt = some (db', p)) :
    (db.aborted i = true ∧ db' = db.release i ∧ p = .failed) ∨
      (db.aborted i = false ∧ Executes db i (tx.begin db) stmt db' p) := by
  unfold exec at hs
  split_ifs at hs with hdead
  · obtain ⟨rfl, rfl⟩ := pair_inj hs
    exact .inl ⟨hdead, rfl, rfl⟩
  · exact .inr ⟨Bool.eq_false_iff.mpr hdead, executes_of_execBegun hs⟩

theorem TxOk.mem_keys (h : TxOk db i tx) (hdb : db.Listed) {v : V k}
    (hv : tx.writes.read db.rows k = some v) : k ∈ db.keys := by
  cases hw : tx.writes k with
  | none =>
    rw [Writes.read_of_none hw] at hv
    exact hdb k (by rw [hv]; exact Option.some_ne_none v)
  | some c => exact h.listed k (by rw [hw]; exact Option.some_ne_none c)

theorem Executes.txOk (hs : Executes db i tx stmt db' p) (h : TxOk db i tx) (hdb : db.Listed)
    (hlive : db.aborted i = false) (hbegun : tx.serializable = true → tx.snapshot ≠ none) :
    Moves db i db' ∧ ProgressOk db' i p := by
  cases hs with
  | read => exact ⟨.refl _ _, h⟩
  | taken => exact ⟨.release _ _, trivial⟩
  | @inserted k v locked hlock hnone =>
    have hm := Moves.of_lock hlock
    refine ⟨⟨hm.aborted, hm.locks, hm.rows, fun k' hk' => List.mem_cons_of_mem _ hk'⟩, ?_⟩
    refine h.set hlock (fun snap hs => ?_) hbegun tx.pending _
      (fun k' hk' => List.mem_cons_of_mem _ hk') (List.mem_cons.mpr (.inl rfl))
    cases hw : tx.writes k with
    | none =>
      rw [Writes.read_of_none hw] at hnone
      exact .inr hnone
    | some c =>
      rcases h.snapshot snap hs k c hw with he | he
      · exact .inl ((h.rows hlive k c hw).2.trans he)
      · exact .inr ((h.rows hlive k c hw).2.trans he)
  | scanned | updated | passed => exact ⟨.refl _ _, h.withPending _⟩
  | changed => exact ⟨.release _ _, trivial⟩
  | @took cond data k rest n v locked _ hlock hsnap hv _ =>
    have hkeys := (lock_rest hlock).2.1
    refine ⟨.of_lock hlock, ?_⟩
    have hset := h.set hlock (v := data k v) (fun snap hs => .inl (hsnap snap hs)) hbegun
      (some (rest, n + 1)) db'.keys (by rw [hkeys]; exact fun _ hk => hk)
      (by rw [hkeys]; exact h.mem_keys hdb hv)
    exact hset
  | locked hlock =>
    obtain ⟨hrows, hkeys, haborted⟩ := lock_rest hlock
    refine ⟨.of_lock hlock, ⟨fun hlive k' c hw => ?_, fun hlive k' hk' => ?_, h.snapshot,
      h.begun, fun k' hk' => ?_, fun snap hs k' hk' => ?_⟩⟩
    · rw [haborted] at hlive
      obtain ⟨hl, hrow⟩ := h.rows hlive k' c hw
      exact ⟨lock_keeps hlock hl, by rw [hrows, hrow]⟩
    · rw [haborted] at hlive
      rcases List.mem_cons.mp hk' with rfl | hk'
      · exact lock_self hlock
      · exact lock_keeps hlock (h.advisory hlive k' hk')
    · rw [hkeys]
      exact h.listed k' hk'
    · rw [hkeys]
      exact h.seen snap hs k' hk'
  | commit => exact ⟨.commit hlive h, txOk_fresh _ _ _⟩

theorem begin_serializable (tx : Tx V) (db : Db V) :
    (tx.begin db).serializable = tx.serializable := by
  rcases begin_cases tx db with h | ⟨-, -, h⟩ <;> rw [h]

/-- **A statement of a transaction** disturbs no other transaction and leaves its own in order. -/
theorem exec_txOk (h : TxOk db i tx) (hdb : db.Listed) (hs : exec db i tx stmt = some (db', p)) :
    Moves db i db' ∧ ProgressOk db' i p := by
  rcases exec_cases hs with ⟨-, rfl, rfl⟩ | ⟨hlive, hs⟩
  · exact ⟨.release _ _, trivial⟩
  · refine hs.txOk (h.begin hdb) hdb hlive fun hser => ?_
    rw [begin_serializable] at hser
    exact begin_snapshot hser

/-- **Only a commit changes rows**, each from what its transaction has found to what it has
written. -/
theorem exec_rows (h : TxOk db i tx) (hs : exec db i tx stmt = some (db', p)) :
    db'.rows = db.rows ∨ (stmt = .commit ∧ db'.rows = tx.writes.read db.rows ∧
      p = .replied { serializable := tx.serializable } .done ∧
      ∀ k c, tx.writes k = some c → db.rows k = c.before) := by
  rcases exec_cases hs with ⟨-, rfl, rfl⟩ | ⟨hlive, hs⟩
  · exact .inl rfl
  cases hs with
  | read | taken | scanned | updated | changed | passed => exact .inl rfl
  | inserted hlock => exact .inl (lock_rest hlock).1
  | took _ hlock => exact .inl (lock_rest hlock).1
  | locked hlock => exact .inl (lock_rest hlock).1
  | commit =>
    refine .inr ⟨rfl, ?_, ?_, fun k c hw => (h.rows hlive k c hw).2⟩
    · change (tx.begin db).writes.read db.rows = _
      rw [begin_writes]
    · rw [begin_serializable]

theorem exec_listed (h : TxOk db i tx) (hdb : db.Listed) (hs : exec db i tx stmt = some (db', p)) :
    db'.Listed := by
  have hkeys := (exec_txOk h hdb hs).1.keys
  intro k hk
  rcases exec_rows h hs with he | ⟨-, he, -⟩
  · rw [he] at hk
    exact hkeys k (hdb k hk)
  · rw [he] at hk
    obtain ⟨v, hv⟩ := Option.ne_none_iff_exists'.mp hk
    exact hkeys k (h.mem_keys hdb hv)

/-! ### Updates -/

/-- What an update has made of a row: nothing, or its data, of a row that met its condition. -/
def Updated (tx tx' : Tx V) (db : Db V) (cond : ∀ k, V k → Bool)
    (data : ∀ k, V k → Option (V k)) : Prop :=
  ∀ k, tx'.writes k = tx.writes k ∨ ∃ v, tx.writes.read db.rows k = some v ∧ cond k v = true ∧
    tx'.writes k = some ⟨((tx.writes k).map (·.before)).getD (db.rows k), data k v⟩

theorem exec_writes (hs : exec db i tx stmt = some (db', p)) {tx' : Tx V}
    (hp : p = .running tx' ∨ ∃ reply, p = .replied tx' reply) : match stmt with
    | .read | .lock _ => tx'.writes = tx.writes
    | .insert k v => tx.writes.read db.rows k = none ∧
        tx'.writes = tx.writes.set k (db.rows k) (some v)
    | .update cond data => Updated tx tx' db cond data
    | .commit => tx'.writes = Writes.empty := by
  have htx := Progress.tx?_eq hp
  rcases exec_cases hs with ⟨-, -, rfl⟩ | ⟨-, hs⟩
  · cases htx
  cases hs with
  | read =>
    obtain rfl := some.inj htx
    exact begin_writes
  | taken => cases htx
  | inserted _ hnone =>
    obtain rfl := some.inj htx
    rw [begin_writes] at hnone
    exact ⟨hnone, by simp only [begin_writes]⟩
  | scanned | updated | passed =>
    obtain rfl := some.inj htx
    exact fun k => .inl (by simp only [begin_writes])
  | changed => cases htx
  | @took cond data k rest n v locked _ _ _ hv hcond =>
    obtain rfl := some.inj htx
    rw [begin_writes] at hv
    intro k'
    simp only [begin_writes]
    by_cases hk : k' = k
    · subst hk
      exact .inr ⟨v, hv, hcond, Writes.set_self⟩
    · exact .inl (Writes.set_of_ne hk)
  | locked =>
    obtain rfl := some.inj htx
    exact begin_writes
  | commit =>
    obtain rfl := some.inj htx
    rfl

/-- The transaction keeps its isolation level, and its snapshot once it has one. -/
theorem exec_snapshot (hs : exec db i tx stmt = some (db', p)) {tx' : Tx V}
    (hp : p = .running tx' ∨ ∃ reply, p = .replied tx' reply) (hstmt : stmt ≠ .commit) :
    tx'.serializable = tx.serializable ∧ tx'.snapshot = (tx.begin db).snapshot := by
  have htx := Progress.tx?_eq hp
  rcases exec_cases hs with ⟨-, -, rfl⟩ | ⟨-, hs⟩
  · cases htx
  rw [← begin_serializable tx db]
  cases hs with
  | taken | changed => cases htx
  | commit => exact absurd rfl hstmt
  | read | inserted | scanned | updated | passed | took | locked =>
    obtain rfl := some.inj htx
    exact ⟨rfl, rfl⟩

theorem begin_of_snapshot {snap : Rows V} (h : tx.snapshot = some snap) : tx.begin db = tx := by
  unfold Tx.begin
  rw [if_neg]
  rintro ⟨-, hnone⟩
  rw [h] at hnone
  cases hnone

/-- What an update does: it looks up its rows, is done, or goes past a row, which it may take. -/
inductive UpdateStep (db : Db V) (tx : Tx V) (cond : ∀ k, V k → Bool)
    (data : ∀ k, V k → Option (V k)) : Progress V → Prop
  | failed : UpdateStep db tx cond data .failed
  | scanned : tx.pending = none →
      UpdateStep db tx cond data (.running { tx with pending := some (tx.matching db cond, 0) })
  | done {n : ℕ} : tx.pending = some ([], n) →
      UpdateStep db tx cond data (.replied { tx with pending := none } (.count n))
  | passed {k : K} {rest : List K} {n : ℕ} : tx.pending = some (k :: rest, n) →
      (∀ snap, tx.snapshot = some snap → db.rows k = snap k) →
      (tx.writes.read db.rows k).filter (cond k) = none →
      UpdateStep db tx cond data (.running { tx with pending := some (rest, n) })
  | took {k : K} {rest : List K} {n : ℕ} {v : V k} : tx.pending = some (k :: rest, n) →
      (∀ snap, tx.snapshot = some snap → db.rows k = snap k) →
      tx.writes.read db.rows k = some v → cond k v = true →
      UpdateStep db tx cond data (.running
        { tx with
          writes := tx.writes.set k (db.rows k) (data k v)
          pending := some (rest, n + 1) })

theorem exec_update_cases (hs : exec db i tx (.update cond data) = some (db', p)) :
    UpdateStep db (tx.begin db) cond data p := by
  rcases exec_cases hs with ⟨-, -, rfl⟩ | ⟨-, hs⟩
  · exact .failed
  cases hs with
  | scanned hpend => exact .scanned hpend
  | updated hpend => exact .done hpend
  | changed => exact .failed
  | passed hpend hrow hno => exact .passed hpend hrow hno
  | took hpend _ hrow hv hcond => exact .took hpend hrow hv hcond

theorem exec_read (hs : exec db i tx .read = some (db', p)) :
    (∀ tx', p ≠ .running tx') ∧ ∀ tx' reply, p = .replied tx' reply →
      tx' = tx.begin db ∧ reply = .rows ((tx.begin db).view db) := by
  rcases exec_cases hs with ⟨-, -, rfl⟩ | ⟨-, hs⟩
  · exact ⟨nofun, nofun⟩
  cases hs with
  | read =>
    refine ⟨nofun, fun tx' reply h => ?_⟩
    obtain ⟨rfl, rfl⟩ := Progress.replied.inj h
    exact ⟨rfl, rfl⟩

theorem exec_insert {v : V k} (hs : exec db i tx (.insert k v) = some (db', p)) :
    (∀ tx', p ≠ .running tx') ∧ ∀ tx' reply, p = .replied tx' reply →
      tx.writes.read db.rows k = none ∧
        tx' = { tx.begin db with writes := tx.writes.set k (db.rows k) (some v) } := by
  rcases exec_cases hs with ⟨-, -, rfl⟩ | ⟨-, hs⟩
  · exact ⟨nofun, nofun⟩
  cases hs with
  | taken => exact ⟨nofun, nofun⟩
  | inserted _ hnone =>
    refine ⟨nofun, fun tx' reply h => ?_⟩
    obtain ⟨rfl, -⟩ := Progress.replied.inj h
    rw [begin_writes] at hnone ⊢
    exact ⟨hnone, rfl⟩

theorem exec_commit_cases (hs : exec db i tx .commit = some (db', p)) :
    (db.aborted i = true ∧ p = .failed) ∨ (db.aborted i = false ∧ db' = db.commit i tx.writes ∧
      p = .replied { serializable := tx.serializable } .done) := by
  rcases exec_cases hs with ⟨hdead, -, rfl⟩ | ⟨hlive, hs⟩
  · exact .inl ⟨hdead, rfl⟩
  cases hs with
  | commit => exact .inr ⟨hlive, by rw [begin_writes], by rw [begin_serializable]⟩

/-- An update of a transaction with the snapshot `snap` has still to take the rows that it sees and
that meet the condition. -/
def Covered (tx : Tx V) (snap : Rows V) (cond : ∀ k, V k → Bool) : Prop :=
  ∀ rest n, tx.pending = some (rest, n) →
    ∀ k v, tx.writes.read snap k = some v → cond k v = true → k ∈ rest

/-- **An update of a serializable transaction is complete**: if it makes its condition false, no row
that the transaction sees meets the condition when it is done. -/
theorem exec_covered {snap : Rows V} (h : TxOk db i tx) (hsnap : tx.snapshot = some snap)
    (hdata : ∀ k v w, data k v = some w → cond k w = false) (hc : Covered tx snap cond)
    (hs : exec db i tx (.update cond data) = some (db', p)) :
    (∀ tx', p = .running tx' → Covered tx' snap cond) ∧
      ∀ tx' reply, p = .replied tx' reply →
        ∀ k v, tx'.writes.read snap k = some v → cond k v = false := by
  have hstep := exec_update_cases hs
  rw [begin_of_snapshot hsnap] at hstep
  cases hstep with
  | failed => exact ⟨nofun, nofun⟩
  | scanned =>
    refine ⟨fun tx' hp => ?_, nofun⟩
    obtain rfl := Progress.running.inj hp
    intro rest n hpend k v hv hcond
    obtain ⟨rfl, -⟩ := pair_inj hpend
    refine List.mem_dedup.mpr (List.mem_filter.mpr ⟨?_, ?_⟩)
    · -- the row is written, or in the snapshot
      cases hw : tx.writes k with
      | none =>
        refine h.seen snap hsnap k ?_
        rw [Writes.read_of_none hw] at hv
        rw [hv]
        exact Option.some_ne_none v
      | some c => exact h.listed k (by rw [hw]; exact Option.some_ne_none c)
    · have hview : tx.view db k = some v := by
        unfold Tx.view
        rw [hsnap]
        exact hv
      rw [hview]
      exact hcond
  | @done n hpend =>
    refine ⟨nofun, fun tx' reply hp => ?_⟩
    obtain ⟨rfl, -⟩ := Progress.replied.inj hp
    intro k v hv
    by_contra hcond
    have hmem := hc [] n hpend k v hv (Bool.of_not_eq_false hcond)
    cases hmem
  | @passed k rest n hpend hrow hno =>
    refine ⟨fun tx' hp => ?_, nofun⟩
    obtain rfl := Progress.running.inj hp
    intro rest' n' hpend' k' v' hv' hcond'
    obtain ⟨rfl, -⟩ := pair_inj hpend'
    rcases List.mem_cons.mp (hc (k :: rest) n hpend k' v' hv' hcond') with rfl | hmem
    · have hsame : tx.writes.read db.rows k' = some v' := by
        rw [← hv']
        unfold Writes.read
        rw [hrow snap hsnap]
      rw [hsame, Option.filter_some_pos hcond'] at hno
      cases hno
    · exact hmem
  | @took k rest n v hpend hrow hv hcond =>
    refine ⟨fun tx' hp => ?_, nofun⟩
    obtain rfl := Progress.running.inj hp
    intro rest' n' hpend' k' v' hv' hcond'
    obtain ⟨rfl, -⟩ := pair_inj hpend'
    by_cases hk : k' = k
    · subst hk
      have hafter : data k' v = some v' := (Writes.read_of_some Writes.set_self).symm.trans hv'
      rw [hdata k' v v' hafter] at hcond'
      cases hcond'
    · have hold : tx.writes.read snap k' = some v' := by
        rw [← hv']
        unfold Writes.read
        simp only [Writes.set_of_ne hk]
      rcases List.mem_cons.mp (hc (k :: rest) n hpend k' v' hold hcond') with rfl | hmem
      · exact absurd rfl hk
      · exact hmem

end BackendFoundation.Lib.Database
