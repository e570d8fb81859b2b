import BackendFoundation.Auth.SessionUsers

/-! # Refresh-token families in every run

`CallOk` is the assertion about a call in the proof outline, and `step_ok` says that its steps keep
it, the families and `Later`. `families_safe` collects what follows for every world reached. -/

namespace BackendFoundation.Auth.SessionSafety

open Lib.Database Lib.Interleave Lib.Runs Errors Crypto Auth.SessionModel Auth.SessionFamily
open Auth.SessionPoints Auth.SessionUsers
open Option (some.inj)

variable {cfg : AuthConfig} {R : Runtime} {K : Keyring} {rows : Rows Row} {ws : Writes Row}
  {current : CurrentToken} {db db' : Db Row} {i : ℕ} {tx tx' : Tx Row} {snap : Rows Row}
  {p : Progress Row}

/-! ### Steps of a call -/

/-- What holds of a call: its transaction is in order, it is at a program point, and the committed
rows are later than its snapshot. -/
structure CallOk (R : Runtime) (K : Keyring) (s : AuthState) (i : ℕ) (call : AuthCall) : Prop where
  tx : TxOk s.db i call.tx
  point : Point R K call.request call.startedAt call.pc call.tx
  later : ∀ snap, call.tx.snapshot = some snap → Later snap s.db.rows

variable {s s' : AuthState} {call call' : AuthCall} {c : AuthChoice}

theorem callOk_fail (e : Thrown) : CallOk R K s i (call.fail e) :=
  ⟨txOk_fresh _ _ _, point_thrown e, nofun⟩

inductive CallStep (cfg : AuthConfig) (R : Runtime) (K : Keyring) (s : AuthState) (i : ℕ)
    (call : AuthCall) (c : AuthChoice) : AuthState → AuthCall → Prop
  | refused {e : Thrown} : c.fails = true →
      CallStep cfg R K s i call c { s with db := s.db.release i } (call.fail e)
  | running {stmt : Stmt Row} {db : Db Row} {tx : Tx Row} : call.stmt cfg R K = some stmt →
      exec s.db i call.tx stmt = some (db, .running tx) →
      CallStep cfg R K s i call c { s with db := db } { call with tx := tx }
  | missing {stmt : Stmt Row} {db : Db Row} {tx : Tx Row} {reply : Reply Row} {e : Thrown} :
      call.stmt cfg R K = some stmt → exec s.db i call.tx stmt = some (db, .replied tx reply) →
      Missing call.pc reply = true →
      CallStep cfg R K s i call c { s with db := db.release i } (call.fail e)
  | replied {stmt : Stmt Row} {db : Db Row} {tx : Tx Row} {reply : Reply Row} {pc : AuthPc} :
      call.stmt cfg R K = some stmt → exec s.db i call.tx stmt = some (db, .replied tx reply) →
      Missing call.pc reply = false → call.next R K s.now s.db.keys reply c.pick = some pc →
      CallStep cfg R K s i call c { s with db := db }
        { call with pc := if c.lost then .thrown databaseFailure else pc, tx := tx }
  | rolledBack {stmt : Stmt Row} {db : Db Row} {p : Progress Row} {e : Thrown} :
      call.stmt cfg R K = some stmt → exec s.db i call.tx stmt = some (db, p) →
      p = .taken ∨ p = .failed → CallStep cfg R K s i call c { s with db := db } (call.fail e)

theorem step_cases (h : call.step cfg R K s i c = some (s', call')) :
    CallStep cfg R K s i call c s' call' := by
  unfold AuthCall.step at h
  split at h
  · cases h
  next stmt hstmt =>
  split at h
  · next hfails =>
    obtain ⟨rfl, rfl⟩ := pair_inj h
    exact .refused hfails
  split at h
  · cases h
  · next db tx hs =>
    obtain ⟨rfl, rfl⟩ := pair_inj h
    exact .running hstmt hs
  · next db tx reply hs =>
    split at h
    · next hm =>
      obtain ⟨rfl, rfl⟩ := pair_inj h
      exact .missing hstmt hs hm
    · next hm =>
      obtain ⟨pc, hn, h⟩ := Option.map_eq_some_iff.mp h
      obtain ⟨rfl, rfl⟩ := Prod.mk.inj h
      exact .replied hstmt hs (Bool.eq_false_iff.mpr hm) hn
  · next db hs =>
    obtain ⟨rfl, rfl⟩ := pair_inj h
    exact .rolledBack hstmt hs (.inl rfl)
  · next db hs =>
    obtain ⟨rfl, rfl⟩ := pair_inj h
    exact .rolledBack hstmt hs (.inr rfl)

structure StepOk (R : Runtime) (K : Keyring) (s : AuthState) (i : ℕ) (s' : AuthState)
    (call' : AuthCall) : Prop where
  now : s'.now = s.now
  moves : Moves s.db i s'.db
  listed : s'.db.Listed
  family : Family s'.db.rows
  later : Later s.db.rows s'.db.rows
  call : CallOk R K s' i call'

theorem stmt_rows {stmt : Stmt Row} (hc : CallOk R K s i call) (hr : Family s.db.rows)
    (hstmt : call.stmt cfg R K = some stmt) (hs : exec s.db i call.tx stmt = some (db', p)) :
    Family db'.rows ∧ Later s.db.rows db'.rows := by
  rcases exec_rows hc.tx hs with he | ⟨rfl, he, -, hfits⟩
  · rw [he]
    exact ⟨hr, .refl _⟩
  · rw [he]
    exact commit_rows hc.point hstmt hfits hr

theorem stmt_later {stmt : Stmt Row} (hc : CallOk R K s i call)
    (hs : exec s.db i call.tx stmt = some (db', p)) {tx' : Tx Row}
    (hp : p = .running tx' ∨ ∃ reply, p = .replied tx' reply)
    (hl : Later s.db.rows db'.rows) (snap : Rows Row) (hsnap : tx'.snapshot = some snap) :
    Later snap db'.rows := by
  rcases exec_snapshot_cases hs hp hsnap with hold | rfl
  · exact (hc.later snap hold).trans hl
  · exact hl

theorem listed_release (h : db.Listed) : (db.release i).Listed := h

/-- **A step of a call** keeps the token families and what holds of the call. -/
theorem step_ok (hc : CallOk R K s i call) (hdb : s.db.Listed) (hr : Family s.db.rows)
    (h : call.step cfg R K s i c = some (s', call')) : StepOk R K s i s' call' := by
  cases step_cases h with
  | refused => exact ⟨rfl, .release _ _, hdb, hr, .refl _, callOk_fail _⟩
  | running hstmt hs =>
    obtain ⟨hmoves, htx⟩ := exec_txOk hc.tx hdb hs
    obtain ⟨hfamily, hlater⟩ := stmt_rows hc hr hstmt hs
    have hleads := leads_stmt hc.point hc.tx hc.later hstmt hs
    exact ⟨rfl, hmoves, exec_listed hc.tx hdb hs, hfamily, hlater, htx, hleads.1 _ rfl,
      stmt_later hc hs (.inl rfl) hlater⟩
  | missing hstmt hs hm =>
    obtain ⟨hmoves, -⟩ := exec_txOk hc.tx hdb hs
    obtain ⟨hfamily, hlater⟩ := stmt_rows hc hr hstmt hs
    exact ⟨rfl, hmoves.trans (.release _ _), listed_release (exec_listed hc.tx hdb hs), hfamily,
      hlater, callOk_fail _⟩
  | replied hstmt hs hm hn =>
    obtain ⟨hmoves, htx⟩ := exec_txOk hc.tx hdb hs
    obtain ⟨hfamily, hlater⟩ := stmt_rows hc hr hstmt hs
    have hleads := leads_stmt hc.point hc.tx hc.later hstmt hs
    refine ⟨rfl, hmoves, exec_listed hc.tx hdb hs, hfamily, hlater, htx, ?_,
      stmt_later hc hs (.inr ⟨_, rfl⟩) hlater⟩
    simp only []
    split_ifs
    · exact point_thrown _
    · exact hleads.2 _ _ rfl hm _ _ _ _ hn
  | rolledBack hstmt hs hp =>
    obtain ⟨hmoves, -⟩ := exec_txOk hc.tx hdb hs
    obtain ⟨hfamily, hlater⟩ := stmt_rows hc hr hstmt hs
    exact ⟨rfl, hmoves, exec_listed hc.tx hdb hs, hfamily, hlater, callOk_fail _⟩

/-! ### All calls -/

/-- The assertions of the proof outline. -/
def assertions (R : Runtime) (K : Keyring) : Assertions AuthState AuthCall where
  shared s := s.db.Listed ∧ Family s.db.rows
  proc i call s := CallOk R K s i call

theorem user_moves {id : ℕ} {row : User} (h : s.db.locks (.user id) = none) (j : ℕ) :
    Moves s.db j
      { s.db with
        rows := Function.update s.db.rows (.user id) (some row)
        keys := .user id :: s.db.keys } := by
  refine ⟨rfl, fun _ _ _ hl => hl, fun j k _ hl => ?_, fun k hk => List.mem_cons_of_mem _ hk⟩
  refine Function.update_of_ne ?_ ..
  rintro rfl
  rw [h] at hl
  cases hl

theorem event_ok {e : AuthEvent} (hdb : s.db.Listed) (hr : Family s.db.rows)
    (h : event s e = some s') : s.now ≤ s'.now ∧ s'.db.Listed ∧ Family s'.db.rows ∧
      Later s.db.rows s'.db.rows ∧ ∀ j call, CallOk R K s j call → CallOk R K s' j call := by
  cases e with
  | tick ms =>
    obtain rfl := some.inj h
    exact ⟨Nat.le_add_right _ _, hdb, hr, .refl _, fun j call hc => ⟨hc.tx, hc.point, hc.later⟩⟩
  | user id row =>
    simp only [event] at h
    split_ifs at h with hlock
    obtain rfl := some.inj h
    have hs : ∀ id', Function.update s.db.rows (.user id) (some row) (.session id') =
        s.db.rows (.session id') := fun _ => Function.update_of_ne (by nofun) ..
    have ht : ∀ id', Function.update s.db.rows (.user id) (some row) (.token id') =
        s.db.rows (.token id') := fun _ => Function.update_of_ne (by nofun) ..
    have hl := Later.of_eq hs ht
    refine ⟨le_refl _, fun k hk => ?_, hr.of_eq hs ht, hl, fun j call hc => ?_⟩
    · by_cases hk' : k = .user id
      · exact hk' ▸ List.mem_cons_self ..
      · simp only [Function.update_of_ne hk'] at hk
        exact List.mem_cons_of_mem _ (hdb k hk)
    · exact ⟨hc.tx.moves (user_moves hlock (j + 1)) (Nat.ne_of_lt (Nat.lt_succ_self j)), hc.point,
        fun snap hsnap => (hc.later snap hsnap).trans hl⟩
  | abort pid =>
    obtain rfl := some.inj h
    exact ⟨le_refl _, hdb, hr, .refl _, fun j call hc => ⟨hc.tx.abort, hc.point, hc.later⟩⟩

theorem outline (cfg : AuthConfig) (R : Runtime) (K : Keyring) :
    Outline (sessions cfg R K) anyStep (assertions R K) where
  init := ⟨fun _ hk => absurd rfl hk, family_empty⟩
  env w e s hw _ he := by
    obtain ⟨-, hdb, hr, -, hcalls⟩ := event_ok hw.shared.1 hw.shared.2 he
    exact ⟨⟨hdb, hr⟩, fun j q hq => hcalls j q (hw.proc j q hq)⟩
  spawn w x s p hw _ hs := by
    obtain ⟨rfl, rfl⟩ := pair_inj hs
    refine ⟨hw.shared, ⟨?_, point_startCall _ _, ?_⟩, fun j q hq => ⟨hw.proc j q hq, trivial,
      trivial⟩⟩
    · cases x <;> exact txOk_fresh _ _ _
    · cases x <;> exact nofun
  step w i p c s p' hw hp _ hs := by
    have hok := step_ok (hw.proc i p hp) hw.shared.1 hw.shared.2 hs
    exact ⟨⟨hok.listed, hok.family⟩, hok.call⟩
  frame w i p c s p' hw hp _ hs j q hj hq := by
    have hok := step_ok (hw.proc i p hp) hw.shared.1 hw.shared.2 hs
    have hc := hw.proc j q hq
    exact ⟨⟨hc.tx.moves hok.moves hj, hc.point, fun snap hsnap =>
      (hc.later snap hsnap).trans hok.later⟩, trivial, trivial⟩

theorem holds {w : AuthWorld} (hr : Reachable (sessions cfg R K).system w) :
    (assertions R K).Holds w :=
  (outline cfg R K).holds hr

/-! ### The users -/

variable {raw nextRaw : String} {nextId : ℕ} {status : RotateStatus} {result : AuthResult}

variable {sessionId : ℕ} {w w' : AuthWorld}

/-- Call `i` is a rotation that commits: the rows of its token and its session are as it has found
them. -/
def Commits (w : AuthWorld) (i sessionId : ℕ) : Prop :=
  ∃ (call : AuthCall) (current : CurrentToken) (snap : Rows Row), w.proc? i = some call ∧
    call.tx.snapshot = some snap ∧ snap (.user current.token.userId) = some current.user ∧
    ¬ current.unusable call.startedAt ∧ sessionId = current.token.sessionId ∧
    w.shared.db.rows (.token current.id) = some current.token ∧
    w.shared.db.rows (.session sessionId) = some current.session

variable {session : Session} {good : AuthWorld → AuthLabel → Prop}

end BackendFoundation.Auth.SessionSafety
