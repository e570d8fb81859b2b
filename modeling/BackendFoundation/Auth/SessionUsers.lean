import BackendFoundation.Auth.SessionPoints

/-! # The users of tokens

`findMany` includes the session and the user of a token. They are always there: a user is never
deleted from the table (`Stay`), and the transaction that creates a session fails if its user is not
there, so each token has its user (`Owned`). What a call has found of users until it commits is
`UsersOk`. -/

namespace BackendFoundation.Auth.SessionUsers

open Lib.Database Errors Crypto Auth.SessionModel Auth.SessionFamily Auth.SessionPoints
open Option (some.inj)

variable {cfg : AuthConfig} {R : Runtime} {K : Keyring} {rows rows' rows'' : Rows Row}
  {ws : Writes Row} {current : CurrentToken} {db db' : Db Row} {i : ℕ} {tx tx' : Tx Row} {p : Progress Row}

def Stay (rows rows' : Rows Row) : Prop := ∀ id, rows (.user id) ≠ none → rows' (.user id) ≠ none

def Owned (rows : Rows Row) : Prop :=
  ∀ id (token : RefreshToken), rows (.token id) = some token → rows (.user token.userId) ≠ none

theorem Stay.refl (rows : Rows Row) : Stay rows rows := fun _ h => h

theorem Stay.trans (h : Stay rows rows') (h' : Stay rows' rows'') : Stay rows rows'' :=
  fun id hid => h' id (h id hid)

theorem Owned.of_eq (h : Owned rows) (ht : ∀ id, rows' (.token id) = rows (.token id))
    (hs : Stay rows rows') : Owned rows' := by
  intro id token hid
  rw [ht] at hid
  exact hs _ (h id token hid)

/-! ### What a transaction writes -/

/-- The users that are written were there, and stay. -/
def WritesUsers (ws : Writes Row) : Prop :=
  ∀ id c, ws (.user id) = some c → c.before ≠ none ∧ c.after ≠ none

theorem WritesUsers.update (h : WritesUsers tx.writes) {cond : ∀ k, Row k → Bool}
    {data : ∀ k, Row k → Option (Row k)} (hdata : ∀ id (v : User), data (.user id) v ≠ none)
    (hu : Updated tx tx' db cond data) : WritesUsers tx'.writes := by
  intro id c hc
  rcases hu (.user id) with hsame | ⟨v, hv, -, hnew⟩
  · exact h id c (hsame ▸ hc)
  · rw [hnew] at hc
    obtain rfl := some.inj hc
    refine ⟨?_, hdata id v⟩
    cases hw : tx.writes (.user id) with
    | none =>
      rw [Writes.read_of_none hw] at hv
      rw [Option.map_none, Option.getD_none, hv]
      exact Option.some_ne_none v
    | some c => exact (h id c hw).1

variable {call : AuthCall} {stmt : Stmt Row}

/-- Until its commit a call that creates a session has found its user: it has not counted a row, or
the user is there. -/
def Touched (rows : Rows Row) (call : AuthCall) : Prop :=
  match call.request, call.pc with
  | .createSession .., .insertSession | .createSession .., .insertToken => call.tx.pending = none
  | .createSession userId .., .touchUser =>
    (∀ rest n, call.tx.pending = some (rest, n) → n = 0) ∨ rows (.user userId) ≠ none
  | .createSession userId .., .commitCreate => rows (.user userId) ≠ none
  | _, _ => True

/-- A rotation that goes on to commit without a token has found none in its snapshot. -/
def Refused (R : Runtime) (K : Keyring) (call : AuthCall) : Prop :=
  ∀ raw nextId nextRaw, call.request = .rotateRefreshToken raw nextId nextRaw →
    call.pc = .commitRotate .invalid → ∃ snap, call.tx.snapshot = some snap ∧
      ∀ id (token : RefreshToken), snap (.token id) = some token →
        token.tokenHash ∉ candidateOpaqueTokenHashes R K raw

/-- What holds of a call and the users. -/
structure UsersOk (R : Runtime) (K : Keyring) (rows : Rows Row) (call : AuthCall) : Prop where
  snapshot : ∀ snap, call.tx.snapshot = some snap → Stay snap rows
  users : WritesUsers call.tx.writes
  touched : Touched rows call
  refused : Refused R K call

theorem Touched.mono (h : Touched rows call) (hs : Stay rows rows') : Touched rows' call := by
  unfold Touched at h ⊢
  split at h
  · exact h
  · exact h
  · exact h.imp_right (hs _)
  · exact hs _ h
  · trivial

theorem UsersOk.mono (h : UsersOk R K rows call) (hs : Stay rows rows') : UsersOk R K rows' call :=
  ⟨fun snap hsnap => (h.snapshot snap hsnap).trans hs, h.users, h.touched.mono hs, h.refused⟩

theorem UsersOk.thrown (h : UsersOk R K rows call) (e : Thrown) :
    UsersOk R K rows { call with pc := .thrown e } := by
  refine ⟨h.snapshot, h.users, ?_, nofun⟩
  obtain ⟨request, startedAt, pc, tx⟩ := call
  cases request <;> exact trivial

theorem begin_pending (tx : Tx Row) (db : Db Row) : (tx.begin db).pending = tx.pending := by
  rcases begin_cases tx db with h | ⟨-, -, h⟩ <;> rw [h]

/-- The snapshot that a statement leaves is the one before it, or the committed rows. -/
theorem exec_snapshot_cases {tx tx' : Tx Row} (hs : exec db i tx stmt = some (db', p))
    (hp : p = .running tx' ∨ ∃ reply, p = .replied tx' reply) {snap : Rows Row}
    (hsnap : tx'.snapshot = some snap) : tx.snapshot = some snap ∨ snap = db.rows := by
  by_cases hcommit : stmt = .commit
  · subst hcommit
    rcases exec_commit_cases hs with ⟨-, rfl⟩ | ⟨-, -, rfl⟩
    · cases Progress.tx?_eq hp
    · obtain rfl := some.inj (Progress.tx?_eq hp)
      cases hsnap
  · rw [(exec_snapshot hs hp hcommit).2] at hsnap
    rcases begin_cases tx db with he | ⟨-, -, he⟩ <;> rw [he] at hsnap
    · exact .inl hsnap
    · exact .inr (some.inj hsnap).symm

/-! ### A rotation that finds no token -/

end BackendFoundation.Auth.SessionUsers
