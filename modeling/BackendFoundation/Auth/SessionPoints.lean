import BackendFoundation.Auth.SessionFamily

/-! # Program points of the calls on sessions

`Point` says what a call has written when it is at a program point. `leads_stmt` says that the
statement executed there leads to what holds at the next one. A rotation is serializable: an update
of it fails where a row has changed since its snapshot, and otherwise takes every row it sees that
meets the condition, so the update that consumes the current token changes exactly one row, and the
revocation of a session misses no token. -/

namespace BackendFoundation.Auth.SessionPoints

open Lib.Database Errors Crypto Auth.SessionModel Auth.SessionFamily Lib.Runs
open Option (some.inj)

variable {cfg : AuthConfig} {R : Runtime} {K : Keyring} {rows : Rows Row} {ws : Writes Row}
  {current : CurrentToken} {userId sessionId tokenId : ℕ}

/-! ### The statements of a transaction -/

/-- A token that a rotation has found, with its session and user, and is presented as `rawToken`. -/
structure FoundIn (R : Runtime) (K : Keyring) (snap : Rows Row) (rawToken : String)
    (current : CurrentToken) : Prop where
  token : snap (.token current.id) = some current.token
  hash : current.token.tokenHash ∈ candidateOpaqueTokenHashes R K rawToken
  session : snap (.session current.token.sessionId) = some current.session
  user : snap (.user current.token.userId) = some current.user

variable {rawToken : String}

theorem foundIn_of_mem {keys : List Key}
    (h : current ∈ findTokens rows keys (candidateOpaqueTokenHashes R K rawToken)) :
    FoundIn R K rows rawToken current := by
  obtain ⟨k, -, hk⟩ := List.mem_filterMap.mp h
  cases k with
  | user id => cases hk
  | session id => cases hk
  | token id =>
    simp only [] at hk
    split at hk
    · cases hk
    · next token htoken =>
      split at hk
      · next hhash =>
        split at hk
        · next session user hsession huser =>
          obtain rfl := some.inj hk
          exact ⟨htoken, hhash, hsession, huser⟩
        · cases hk
      · cases hk

/-- The session of the token, unless it is revoked. -/
def itsSession (current : CurrentToken) : ∀ k, Row k → Bool :=
  whereSession fun id row => id = current.token.sessionId ∧ row.revokedAt = none

/-- The tokens of the session that are not revoked. -/
def itsTokens (current : CurrentToken) : ∀ k, Row k → Bool :=
  whereToken fun _ row => row.sessionId = current.token.sessionId ∧ row.revokedAt = none

def stillCurrent (current : CurrentToken) : ∀ k, Row k → Bool :=
  whereToken fun id row => id = current.id ∧ row.consumedAt = none ∧ row.revokedAt = none ∧
    row.replacedByTokenId = none

variable {db db' : Db Row} {i : ℕ} {tx tx' : Tx Row} {snap : Rows Row} {p : Progress Row}

/-- A rotation that consumes its token: it has not yet, or has once. -/
structure Consuming (tx : Tx Row) (current : CurrentToken) (nextId : ℕ) : Prop where
  ne : nextId ≠ current.id
  next : InsertsToken tx.writes nextId current.token.sessionId current.token.userId
  only : Only tx.writes [] [nextId, current.id]
  count : (tx.writes (.token current.id) = none ∧ ∀ rest n, tx.pending = some (rest, n) → n = 0) ∨
    (Consumes tx.writes current nextId ∧ ∃ rest, tx.pending = some (rest, 1))

theorem stillCurrent_eq {k : Key} {v : Row k} (h : stillCurrent current k v = true) :
    k = .token current.id := by
  cases k with
  | user id => cases h
  | session id => cases h
  | token id => rw [(of_decide_eq_true h).1]

theorem consume_step {now nextId consumedAt : ℕ} (hsnap : tx.snapshot = some snap)
    (hfound : FoundIn R K snap rawToken current) (hlive : ¬ current.unusable now)
    (hc : Consuming tx current nextId) (hcov : Covered tx snap (stillCurrent current))
    (htx : TxOk db i tx)
    (hs : exec db i tx (.update (stillCurrent current) (setToken (·.consumed consumedAt nextId))) =
      some (db', p)) :
    (∀ tx', p = .running tx' → tx'.snapshot = some snap ∧ Consuming tx' current nextId ∧
      Covered tx' snap (stillCurrent current)) ∧
    ∀ tx' reply, p = .replied tx' reply → reply = .count 1 ∧ tx'.snapshot = some snap ∧
      tx'.pending = none ∧
        InsertsToken tx'.writes nextId current.token.sessionId current.token.userId ∧
        Consumes tx'.writes current nextId ∧ Only tx'.writes [] [nextId, current.id] := by
  have hdata : ∀ k (v w : Row k), setToken (·.consumed consumedAt nextId) k v = some w →
      stillCurrent current k w = false := by
    intro k v w hw
    cases k with
    | user id => rfl
    | session id => rfl
    | token id =>
      obtain rfl := some.inj hw
      exact decide_eq_false fun h => absurd h.2.1 (Option.some_ne_none _)
  obtain ⟨hrun, hdone⟩ := exec_covered htx hsnap hdata hcov hs
  have hcases := exec_update_cases hs
  rw [begin_of_snapshot hsnap] at hcases
  refine ⟨fun tx' hp => ?_, fun tx' reply hp => ?_⟩
  · have hcov' := hrun tx' hp
    cases hcases with
    | failed => cases hp
    | done => cases hp
    | scanned hpend =>
      obtain rfl := Progress.running.inj hp
      refine ⟨hsnap, ⟨hc.ne, hc.next, hc.only, .inl ?_⟩, hcov'⟩
      rcases hc.count with ⟨hnone, -⟩ | ⟨-, rest, hone⟩
      · exact ⟨hnone, fun rest n he => (pair_inj he).2.symm⟩
      · rw [hpend] at hone
        cases hone
    | passed hpend hrow hno =>
      obtain rfl := Progress.running.inj hp
      refine ⟨hsnap, ⟨hc.ne, hc.next, hc.only, ?_⟩, hcov'⟩
      rcases hc.count with ⟨hnone, hzero⟩ | ⟨hcon, rest', hone⟩
      · refine .inl ⟨hnone, fun rest' n' he => ?_⟩
        obtain ⟨rfl, rfl⟩ := pair_inj he
        exact hzero _ _ hpend
      · obtain ⟨rfl, rfl⟩ := Prod.mk.inj (some.inj (hpend.symm.trans hone))
        exact .inr ⟨hcon, _, rfl⟩
    | @took k rest n v hpend hrow hv hcond =>
      obtain rfl := Progress.running.inj hp
      obtain rfl := stillCurrent_eq hcond
      have hcond' := of_decide_eq_true hcond
      have hmem : current.id ∈ [nextId, current.id] := by simp
      refine ⟨hsnap, ⟨hc.ne, hc.next.set (fun he => hc.ne (Key.token.inj he).symm),
        hc.only.set_token hmem, .inr ?_⟩, hcov'⟩
      rcases hc.count with ⟨hnone, hzero⟩ | ⟨⟨consumedAt', hw⟩, -⟩
      · rw [Writes.read_of_none hnone, hrow snap hsnap] at hv
        obtain rfl := some.inj (hfound.token.symm.trans hv)
        refine ⟨⟨consumedAt, ?_⟩, rest, by rw [hzero _ _ hpend]⟩
        refine Writes.set_self.trans ?_
        rw [hnone, hrow snap hsnap, hfound.token]
        rfl
      · -- a token that it has consumed does not meet the condition
        rw [Writes.read_of_some hw] at hv
        obtain rfl := some.inj hv
        exact absurd hcond'.2.1 (Option.some_ne_none _)
  · have hnot := hdone tx' reply hp
    cases hcases with
    | failed => cases hp
    | scanned => cases hp
    | passed => cases hp
    | took => cases hp
    | done hpend =>
      obtain ⟨rfl, rfl⟩ := Progress.replied.inj hp
      rcases hc.count with ⟨hnone, -⟩ | ⟨hcon, rest, hone⟩
      · -- the current token meets the condition, so it would have been taken
        have hcurrent := hnot (.token current.id) current.token
          ((Writes.read_of_none hnone).trans hfound.token)
        unfold CurrentToken.unusable at hlive
        push Not at hlive
        obtain ⟨hconsumed, hreplaced, hrevoked, -⟩ := hlive
        exact absurd ⟨rfl, hconsumed, hrevoked, hreplaced⟩ (of_decide_eq_false hcurrent)
      · obtain ⟨-, rfl⟩ := Prod.mk.inj (some.inj (hpend.symm.trans hone))
        exact ⟨rfl, hsnap, rfl, hc.next, hcon, hc.only⟩

theorem not_unusable {now : ℕ} (h : ¬ current.unusable now) :
    Unspent current.token ∧ current.token.replacedByTokenId = none ∧
      now < current.token.expiresAt ∧ current.session.revokedAt = none ∧
      now < current.session.expiresAt ∧ current.user.status = .active ∧
      current.user.deletedAt = none := by
  unfold CurrentToken.unusable at h
  push Not at h
  obtain ⟨hconsumed, hreplaced, hrevoked, hexpires, hsession, hend, hstatus, hdeleted⟩ := h
  exact ⟨⟨hconsumed, hrevoked⟩, hreplaced, hexpires, hsession, hend, hstatus, hdeleted⟩

/-- A rotation that touches its session. -/
structure Touching (tx : Tx Row) (current : CurrentToken) (nextId : ℕ) : Prop where
  ne : nextId ≠ current.id
  next : InsertsToken tx.writes nextId current.token.sessionId current.token.userId
  consumes : Consumes tx.writes current nextId
  only : Only tx.writes [current.token.sessionId] [nextId, current.id]
  count : (tx.writes (.session current.token.sessionId) = none ∧
    ∀ rest n, tx.pending = some (rest, n) → n = 0) ∨ Touches tx.writes current

theorem touch_step {now nextId seenAt : ℕ} (hsnap : tx.snapshot = some snap)
    (hfound : FoundIn R K snap rawToken current) (hlive : ¬ current.unusable now)
    (hc : Touching tx current nextId)
    (hs : exec db i tx (.update (whereSession fun id _ => id = current.token.sessionId)
      (setSession (·.seen seenAt))) = some (db', p)) :
    (∀ tx', p = .running tx' → tx'.snapshot = some snap ∧ Touching tx' current nextId) ∧
    ∀ tx' n, p = .replied tx' (.count n) → n ≠ 0 →
      tx'.snapshot = some snap ∧ Rotates tx'.writes current nextId := by
  obtain ⟨hunspent, -, -, hopen, -⟩ := not_unusable hlive
  have hcases := exec_update_cases hs
  rw [begin_of_snapshot hsnap] at hcases
  refine ⟨fun tx' hp => ?_, fun tx' n hp hn => ?_⟩
  · cases hcases with
    | failed => cases hp
    | done => cases hp
    | scanned hpend =>
      obtain rfl := Progress.running.inj hp
      refine ⟨hsnap, hc.ne, hc.next, hc.consumes, hc.only, ?_⟩
      rcases hc.count with ⟨hnone, -⟩ | htouches
      · exact .inl ⟨hnone, fun rest n he => (pair_inj he).2.symm⟩
      · exact .inr htouches
    | passed hpend hrow hno =>
      obtain rfl := Progress.running.inj hp
      refine ⟨hsnap, hc.ne, hc.next, hc.consumes, hc.only, ?_⟩
      rcases hc.count with ⟨hnone, hzero⟩ | htouches
      · refine .inl ⟨hnone, fun rest' n' he => ?_⟩
        obtain ⟨rfl, rfl⟩ := pair_inj he
        exact hzero _ _ hpend
      · exact .inr htouches
    | @took k rest n v hpend hrow hv hcond =>
      obtain rfl := Progress.running.inj hp
      cases k with
      | user id => cases hcond
      | token id => cases hcond
      | session id =>
        obtain rfl : id = current.token.sessionId := of_decide_eq_true hcond
        refine ⟨hsnap, hc.ne, hc.next.set (by nofun), hc.consumes.set (by nofun),
          hc.only.set_session (List.mem_singleton.mpr rfl), .inr ?_⟩
        refine ⟨Session.seen seenAt v, ?_⟩
        rcases hc.count with ⟨hnone, -⟩ | ⟨session, hw, hl, hrevoked, hlt⟩
        · rw [Writes.read_of_none hnone, hrow snap hsnap] at hv
          obtain rfl := some.inj (hfound.session.symm.trans hv)
          refine ⟨Writes.set_self.trans ?_, ⟨rfl, rfl, Nat.le_succ _, fun h => h⟩, hopen,
            Nat.lt_succ_self _⟩
          rw [hnone, hrow snap hsnap, hfound.session]
          rfl
        · rw [Writes.read_of_some hw] at hv
          obtain rfl := some.inj hv
          refine ⟨Writes.set_self.trans ?_, ⟨hl.userId, hl.expiresAt, hl.version.trans
            (Nat.le_succ _), hl.revoked⟩, hrevoked, hlt.trans (Nat.lt_succ_self _)⟩
          rw [hw]
          rfl
  · cases hcases with
    | failed => cases hp
    | scanned => cases hp
    | passed => cases hp
    | took => cases hp
    | done hpend =>
      obtain ⟨rfl, hcount⟩ := Progress.replied.inj hp
      obtain rfl := Reply.count.inj hcount
      rcases hc.count with ⟨-, hzero⟩ | htouches
      · exact absurd (hzero _ _ hpend) hn
      · exact ⟨hsnap, hc.ne, hc.next, hc.consumes, htouches, hc.only, hunspent, hopen⟩

/-! ### Program points -/

/-- The session of the current token is revoked, as the transaction sees it. -/
def SessionDone (tx : Tx Row) (snap : Rows Row) (current : CurrentToken) : Prop :=
  ∀ k (v : Row k), tx.writes.read snap k = some v → itsSession current k v = false

def TokensDone (tx : Tx Row) (snap : Rows Row) (current : CurrentToken) : Prop :=
  ∀ k (v : Row k), tx.writes.read snap k = some v → itsTokens current k v = false

/-- A rotation has found `current` in its snapshot `snap`. -/
structure Presents (R : Runtime) (K : Keyring) (tx : Tx Row) (snap : Rows Row) (rawToken : String)
    (current : CurrentToken) : Prop where
  snapshot : tx.snapshot = some snap
  found : FoundIn R K snap rawToken current

/-- What a call has written when it is at a program point. -/
inductive Point (R : Runtime) (K : Keyring) : AuthRequest → ℕ → AuthPc → Tx Row → Prop
  | insertSession {userId sessionId tokenId now : ℕ} {raw : String} {tx : Tx Row} :
      tx.writes = Writes.empty →
      Point R K (.createSession userId sessionId tokenId raw) now .insertSession tx
  | insertToken {userId sessionId tokenId now : ℕ} {raw : String} {tx : Tx Row} :
      InsertsSession tx.writes sessionId userId → Only tx.writes [sessionId] [] →
      Point R K (.createSession userId sessionId tokenId raw) now .insertToken tx
  | created {userId sessionId tokenId now : ℕ} {raw : String} {pc : AuthPc} {tx : Tx Row} :
      Creates tx.writes userId sessionId tokenId → pc = .touchUser ∨ pc = .commitCreate →
      Point R K (.createSession userId sessionId tokenId raw) now pc tx
  | findToken {nextId now : ℕ} {raw nextRaw : String} :
      Point R K (.rotateRefreshToken raw nextId nextRaw) now .findToken { serializable := true }
  | invalid {nextId now : ℕ} {raw nextRaw : String} {tx : Tx Row} : tx.writes = Writes.empty →
      Point R K (.rotateRefreshToken raw nextId nextRaw) now (.commitRotate .invalid) tx
  | reuseSession {nextId now : ℕ} {raw nextRaw : String} {tx : Tx Row} {snap : Rows Row}
      {current : CurrentToken} : Presents R K tx snap raw current → current.unusable now →
      Revokes tx.writes → Covered tx snap (itsSession current) →
      Point R K (.rotateRefreshToken raw nextId nextRaw) now (.reuseSession current) tx
  | reuseTokens {nextId now : ℕ} {raw nextRaw : String} {tx : Tx Row} {snap : Rows Row}
      {current : CurrentToken} : Presents R K tx snap raw current → current.unusable now →
      Revokes tx.writes → SessionDone tx snap current → Covered tx snap (itsTokens current) →
      Point R K (.rotateRefreshToken raw nextId nextRaw) now (.reuseTokens current) tx
  | reused {nextId now : ℕ} {raw nextRaw : String} {tx : Tx Row} {snap : Rows Row}
      {current : CurrentToken} : Presents R K tx snap raw current → current.unusable now →
      Revokes tx.writes → SessionDone tx snap current → TokensDone tx snap current →
      Point R K (.rotateRefreshToken raw nextId nextRaw) now (.commitRotate (.reuse current)) tx
  | insertNext {nextId now : ℕ} {raw nextRaw : String} {tx : Tx Row} {snap : Rows Row}
      {current : CurrentToken} : Presents R K tx snap raw current → ¬ current.unusable now →
      tx.writes = Writes.empty → tx.pending = none →
      Point R K (.rotateRefreshToken raw nextId nextRaw) now (.insertNext current) tx
  | consume {nextId now : ℕ} {raw nextRaw : String} {tx : Tx Row} {snap : Rows Row}
      {current : CurrentToken} : Presents R K tx snap raw current → ¬ current.unusable now →
      Consuming tx current nextId → Covered tx snap (stillCurrent current) →
      Point R K (.rotateRefreshToken raw nextId nextRaw) now (.consume current) tx
  | touchSession {nextId now : ℕ} {raw nextRaw : String} {tx : Tx Row} {snap : Rows Row}
      {current : CurrentToken} : Presents R K tx snap raw current → ¬ current.unusable now →
      Touching tx current nextId →
      Point R K (.rotateRefreshToken raw nextId nextRaw) now (.touchSession current) tx
  | rotated {nextId now : ℕ} {raw nextRaw : String} {tx : Tx Row} {snap : Rows Row}
      {current : CurrentToken} : Presents R K tx snap raw current → ¬ current.unusable now →
      Rotates tx.writes current nextId →
      Point R K (.rotateRefreshToken raw nextId nextRaw) now (.commitRotate (.rotated current)) tx
  | revoking {request : AuthRequest} {now : ℕ} {pc : AuthPc} {tx : Tx Row} :
      (∃ sessionId userId, request = .revokeSession sessionId userId) ∨
        (∃ userId, request = .revokeAllSessions userId) →
      (∃ revokedAt, pc = .revokeSessions revokedAt ∨ pc = .revokeTokens revokedAt) ∨
        pc = .commitRevoke → Revokes tx.writes → Point R K request now pc tx
  | ended {request : AuthRequest} {now : ℕ} {pc : AuthPc} {tx : Tx Row} :
      (∃ result, pc = .returned result) ∨ (∃ e, pc = .thrown e) → Point R K request now pc tx

theorem point_thrown {request : AuthRequest} {now : ℕ} (e : Thrown) :
    Point R K request now (.thrown e) tx := .ended (.inr ⟨e, rfl⟩)

theorem point_startCall (now : ℕ) (request : AuthRequest) :
    Point R K request now (startCall now request).pc (startCall now request).tx := by
  cases request with
  | createSession userId sessionId tokenId raw => exact .insertSession rfl
  | rotateRefreshToken raw nextId nextRaw => exact .findToken
  | revokeSession sessionId userId =>
    exact .revoking (.inl ⟨_, _, rfl⟩) (.inl ⟨_, .inl rfl⟩) revokes_empty
  | revokeAllSessions userId =>
    exact .revoking (.inr ⟨_, rfl⟩) (.inl ⟨_, .inl rfl⟩) revokes_empty

/-- What a statement leaves at its program point and at the next one. -/
def Leads (R : Runtime) (K : Keyring) (call : AuthCall) (p : Progress Row) : Prop :=
  (∀ tx', p = .running tx' → Point R K call.request call.startedAt call.pc tx') ∧
    ∀ tx' reply, p = .replied tx' reply → Missing call.pc reply = false →
      ∀ now keys pick pc', call.next R K now keys reply pick = some pc' →
        Point R K call.request call.startedAt pc' tx'

variable {nextId startedAt : ℕ} {raw nextRaw : String} {pc : AuthPc}

theorem stmt_of_ended (h : (∃ result, pc = .returned result) ∨ ∃ e, pc = .thrown e)
    {request : AuthRequest} : AuthCall.stmt cfg R K ⟨request, startedAt, pc, tx⟩ = none := by
  rcases h with ⟨result, rfl⟩ | ⟨e, rfl⟩ <;> cases request <;> rfl

theorem leads_insertSession {row : Session} (hw : tx.writes = Writes.empty)
    (huser : row.userId = userId)
    (hs : exec db i tx (.insert (.session sessionId) row) = some (db', p)) :
    Leads R K ⟨.createSession userId sessionId tokenId raw, startedAt, .insertSession, tx⟩ p := by
  obtain ⟨hrun, hdone⟩ := exec_insert hs
  refine ⟨fun tx' hp => absurd hp (hrun tx'), fun tx' reply hp _ now keys pick pc' hn => ?_⟩
  obtain ⟨hnone, rfl⟩ := hdone tx' reply hp
  obtain rfl := some.inj hn
  have honly : Only (tx.writes.set (.session sessionId) (db.rows (.session sessionId)) (some row))
      [sessionId] [] := by
    rw [hw]
    exact (only_empty.mono (by simp) (by simp)).set_session (List.mem_singleton.mpr rfl)
  rw [hw, Writes.read_empty] at hnone
  refine .insertToken ⟨row, Writes.set_self.trans ?_, huser⟩ honly
  rw [hw, hnone]
  rfl

theorem leads_insertToken {row : RefreshToken}
    (hsession : InsertsSession tx.writes sessionId userId) (honly : Only tx.writes [sessionId] [])
    (hsid : row.sessionId = sessionId) (huser : row.userId = userId) (hu : Unspent row)
    (hs : exec db i tx (.insert (.token tokenId) row) = some (db', p)) :
    Leads R K ⟨.createSession userId sessionId tokenId raw, startedAt, .insertToken, tx⟩ p := by
  obtain ⟨hrun, hdone⟩ := exec_insert hs
  refine ⟨fun tx' hp => absurd hp (hrun tx'), fun tx' reply hp _ now keys pick pc' hn => ?_⟩
  obtain ⟨hnone, rfl⟩ := hdone tx' reply hp
  obtain rfl := some.inj hn
  have hwt : tx.writes (.token tokenId) = none := only_token honly (by simp)
  rw [Writes.read_of_none hwt] at hnone
  refine .created ⟨hsession.set (by nofun), ⟨row, Writes.set_self.trans ?_, hsid, huser, hu⟩, ?_⟩ (.inl rfl)
  · rw [hwt, hnone]
    rfl
  · exact (honly.mono (fun _ h => h) (by simp)).set_token (List.mem_singleton.mpr rfl)

theorem leads_touchUser (hc : Creates tx.writes userId sessionId tokenId)
    {data : ∀ k, Row k → Option (Row k)}
    (hs : exec db i tx (.update (whereUser userId) data) = some (db', p)) :
    Leads R K ⟨.createSession userId sessionId tokenId raw, startedAt, .touchUser, tx⟩ p := by
  have hkeep : ∀ tx', p = .running tx' ∨ (∃ reply, p = .replied tx' reply) →
      Creates tx'.writes userId sessionId tokenId := by
    intro tx' hp
    have hu : Updated tx tx' db (whereUser userId) data := exec_writes hs hp
    refine hc.congr (fun id => ?_) fun id => ?_
    · rcases hu (.session id) with hsame | ⟨v, -, hcond, -⟩
      · exact hsame
      · cases hcond
    · rcases hu (.token id) with hsame | ⟨v, -, hcond, -⟩
      · exact hsame
      · cases hcond
  refine ⟨fun tx' hp => .created (hkeep tx' (.inl hp)) (.inl rfl),
    fun tx' reply hp _ now keys pick pc' hn => ?_⟩
  obtain rfl := some.inj hn
  exact .created (hkeep tx' (.inr ⟨reply, hp⟩)) (.inr rfl)

theorem leads_findToken
    (hs : exec db i { serializable := true } .read = some (db', p)) :
    Leads R K ⟨.rotateRefreshToken raw nextId nextRaw, startedAt, .findToken,
      { serializable := true }⟩ p := by
  obtain ⟨hrun, hdone⟩ := exec_read hs
  refine ⟨fun tx' hp => absurd hp (hrun tx'), fun tx' reply hp _ now keys pick pc' hn => ?_⟩
  obtain ⟨rfl, rfl⟩ := hdone tx' reply hp
  have hn : afterFind (findTokens db.rows keys (candidateOpaqueTokenHashes R K raw)) startedAt pick =
      some pc' := hn
  unfold afterFind at hn
  split at hn
  · obtain rfl := some.inj hn
    exact .invalid rfl
  · obtain ⟨current, hpick, hn⟩ := Option.map_eq_some_iff.mp hn
    have hfound := foundIn_of_mem (List.mem_of_getElem? hpick)
    have hpresents : Presents R K ({ serializable := true, snapshot := some db.rows } : Tx Row)
        db.rows raw current := ⟨rfl, hfound⟩
    split_ifs at hn with hunusable
    · obtain rfl := hn
      exact .reuseSession hpresents hunusable revokes_empty nofun
    · obtain rfl := hn
      exact .insertNext hpresents hunusable rfl rfl

theorem Presents.update (h : Presents R K tx snap raw current)
    {cond : ∀ k, Row k → Bool} {data : ∀ k, Row k → Option (Row k)}
    (hs : exec db i tx (.update cond data) = some (db', p))
    (hp : p = .running tx' ∨ ∃ reply, p = .replied tx' reply) :
    Presents R K tx' snap raw current := by
  have hsnap := (exec_snapshot hs hp (by nofun)).2
  rw [begin_of_snapshot h.snapshot] at hsnap
  exact ⟨hsnap.trans h.snapshot, h.found⟩

theorem leads_reuseSession {revokedAt : ℕ} {reason : String}
    (hpres : Presents R K tx snap raw current) (hunusable : current.unusable startedAt)
    (hrev : Revokes tx.writes) (hcov : Covered tx snap (itsSession current)) (htx : TxOk db i tx)
    (hs : exec db i tx (.update (itsSession current) (setSession (·.revoked revokedAt reason))) =
      some (db', p)) :
    Leads R K ⟨.rotateRefreshToken raw nextId nextRaw, startedAt, .reuseSession current, tx⟩ p := by
  have hdata : ∀ k (v w : Row k), setSession (·.revoked revokedAt reason) k v = some w →
      itsSession current k w = false := by
    intro k v w hw
    cases k with
    | user id => rfl
    | token id => rfl
    | session id =>
      obtain rfl := some.inj hw
      exact decide_eq_false fun h => absurd h.2 (Option.some_ne_none _)
  obtain ⟨hrun, hdone⟩ := exec_covered htx hpres.snapshot hdata hcov hs
  refine ⟨fun tx' hp => ?_, fun tx' reply hp _ now keys pick pc' hn => ?_⟩
  · have hu : Updated tx tx' db _ _ := exec_writes hs (.inl hp)
    exact .reuseSession (hpres.update hs (.inl hp)) hunusable (hrev.update_sessions hu)
      (hrun tx' hp)
  · obtain rfl := some.inj hn
    have hu : Updated tx tx' db _ _ := exec_writes hs (.inr ⟨reply, hp⟩)
    refine .reuseTokens (hpres.update hs (.inr ⟨reply, hp⟩)) hunusable (hrev.update_sessions hu)
      (hdone tx' reply hp) fun rest n hpend => ?_
    cases exec_update_cases hs with
    | done =>
      obtain ⟨rfl, -⟩ := Progress.replied.inj hp
      cases hpend
    | _ => cases hp

theorem leads_reuseTokens {revokedAt : ℕ}
    (hpres : Presents R K tx snap raw current) (hunusable : current.unusable startedAt)
    (hrev : Revokes tx.writes) (hsession : SessionDone tx snap current)
    (hcov : Covered tx snap (itsTokens current)) (htx : TxOk db i tx)
    (hs : exec db i tx (.update (itsTokens current) (setToken (·.revoked revokedAt))) =
      some (db', p)) :
    Leads R K ⟨.rotateRefreshToken raw nextId nextRaw, startedAt, .reuseTokens current, tx⟩ p := by
  have hdata : ∀ k (v w : Row k), setToken (·.revoked revokedAt) k v = some w →
      itsTokens current k w = false := by
    intro k v w hw
    cases k with
    | user id => rfl
    | session id => rfl
    | token id =>
      obtain rfl := some.inj hw
      exact decide_eq_false fun h => absurd h.2 (Option.some_ne_none _)
  obtain ⟨hrun, hdone⟩ := exec_covered htx hpres.snapshot hdata hcov hs
  have hq : ∀ (id : ℕ) (row : RefreshToken),
      decide (row.sessionId = current.token.sessionId ∧ row.revokedAt = none) = true →
      row.revokedAt = none := fun _ _ h => (of_decide_eq_true h).2
  -- the sessions are as they were
  have hkeep : ∀ tx', Updated tx tx' db (itsTokens current) (setToken (·.revoked revokedAt)) →
      SessionDone tx' snap current := by
    intro tx' hu k v hv
    cases k with
    | user id => rfl
    | token id => rfl
    | session id =>
      rcases hu (.session id) with hsame | ⟨v', -, hcond, -⟩
      · refine hsession (.session id) v ?_
        unfold Writes.read at hv ⊢
        rwa [hsame] at hv
      · cases hcond
  refine ⟨fun tx' hp => ?_, fun tx' reply hp _ now keys pick pc' hn => ?_⟩
  · have hu : Updated tx tx' db _ _ := exec_writes hs (.inl hp)
    exact .reuseTokens (hpres.update hs (.inl hp)) hunusable (hrev.update_tokens hq hu)
      (hkeep tx' hu) (hrun tx' hp)
  · obtain rfl := some.inj hn
    have hu : Updated tx tx' db _ _ := exec_writes hs (.inr ⟨reply, hp⟩)
    exact .reused (hpres.update hs (.inr ⟨reply, hp⟩)) hunusable (hrev.update_tokens hq hu)
      (hkeep tx' hu) (hdone tx' reply hp)

theorem leads_insertNext {row : RefreshToken} (hpres : Presents R K tx snap raw current)
    (hlive : ¬ current.unusable startedAt) (hw : tx.writes = Writes.empty)
    (hpend : tx.pending = none) (hlater : Later snap db.rows)
    (hsid : row.sessionId = current.token.sessionId)
    (huser : row.userId = current.token.userId) (hu : Unspent row)
    (hs : exec db i tx (.insert (.token nextId) row) = some (db', p)) :
    Leads R K ⟨.rotateRefreshToken raw nextId nextRaw, startedAt, .insertNext current, tx⟩ p := by
  obtain ⟨hrun, hdone⟩ := exec_insert hs
  refine ⟨fun tx' hp => absurd hp (hrun tx'), fun tx' reply hp _ now keys pick pc' hn => ?_⟩
  obtain ⟨hnone, rfl⟩ := hdone tx' reply hp
  obtain rfl := some.inj hn
  rw [begin_of_snapshot hpres.snapshot]
  rw [hw, Writes.read_empty] at hnone
  have hne : nextId ≠ current.id := by
    rintro rfl
    obtain ⟨token, htoken, -⟩ := hlater.token _ _ hpres.found.token
    rw [hnone] at htoken
    cases htoken
  have hself : tx.writes.set (.token nextId) (db.rows (.token nextId)) (some row) (.token nextId) =
      some ⟨none, some row⟩ := by
    refine Writes.set_self.trans ?_
    rw [hw, hnone]
    rfl
  have hother : tx.writes.set (.token nextId) (db.rows (.token nextId)) (some row)
      (.token current.id) = none := by
    rw [Writes.set_of_ne (fun he => hne (Key.token.inj he).symm), hw]
    rfl
  have honly : Only (tx.writes.set (.token nextId) (db.rows (.token nextId)) (some row)) []
      [nextId, current.id] := by
    rw [hw]
    exact (only_empty.mono (by simp) (by simp)).set_token (by simp)
  refine .consume ⟨hpres.snapshot, hpres.found⟩ hlive ⟨hne, ⟨row, hself, hsid, huser, hu⟩, honly,
    .inl ⟨hother, fun rest n he => ?_⟩⟩ fun rest n he => ?_
  all_goals exact absurd (hpend.symm.trans he) (by nofun)

theorem leads_consume {consumedAt : ℕ} (hpres : Presents R K tx snap raw current)
    (hlive : ¬ current.unusable startedAt) (hc : Consuming tx current nextId)
    (hcov : Covered tx snap (stillCurrent current)) (htx : TxOk db i tx)
    (hs : exec db i tx (.update (stillCurrent current) (setToken (·.consumed consumedAt nextId))) =
      some (db', p)) :
    Leads R K ⟨.rotateRefreshToken raw nextId nextRaw, startedAt, .consume current, tx⟩ p := by
  obtain ⟨hrun, hdone⟩ := consume_step hpres.snapshot hpres.found hlive hc hcov htx hs
  refine ⟨fun tx' hp => ?_, fun tx' reply hp _ now keys pick pc' hn => ?_⟩
  · obtain ⟨hsnap, hc', hcov'⟩ := hrun tx' hp
    exact .consume ⟨hsnap, hpres.found⟩ hlive hc' hcov'
  · obtain ⟨rfl, hsnap, hpend, hnext, hcon, honly⟩ := hdone tx' reply hp
    -- one row has been changed, so there is no race
    obtain rfl := some.inj hn
    have hnone : tx'.writes (.session current.token.sessionId) = none :=
      only_session honly (by simp)
    refine .touchSession ⟨hsnap, hpres.found⟩ hlive ⟨hc.ne, hnext, hcon,
      honly.mono (by simp) (fun _ h => h), .inl ⟨hnone, fun rest n he => ?_⟩⟩
    rw [hpend] at he
    cases he

theorem leads_touchSession {seenAt : ℕ} (hpres : Presents R K tx snap raw current)
    (hlive : ¬ current.unusable startedAt) (hc : Touching tx current nextId)
    (hs : exec db i tx (.update (whereSession fun id _ => id = current.token.sessionId)
      (setSession (·.seen seenAt))) = some (db', p)) :
    Leads R K ⟨.rotateRefreshToken raw nextId nextRaw, startedAt, .touchSession current, tx⟩ p := by
  obtain ⟨hrun, hdone⟩ := touch_step hpres.snapshot hpres.found hlive hc hs
  refine ⟨fun tx' hp => ?_, fun tx' reply hp hm now keys pick pc' hn => ?_⟩
  · obtain ⟨hsnap, hc'⟩ := hrun tx' hp
    exact .touchSession ⟨hsnap, hpres.found⟩ hlive hc'
  · obtain rfl := some.inj hn
    have hcount : ∃ n, reply = .count n := by
      cases exec_update_cases hs with
      | done =>
        obtain ⟨-, rfl⟩ := Progress.replied.inj hp
        exact ⟨_, rfl⟩
      | _ => cases hp
    obtain ⟨n, rfl⟩ := hcount
    have hn : n ≠ 0 := by
      rintro rfl
      cases hm
    obtain ⟨hsnap, hrot⟩ := hdone tx' n hp hn
    exact .rotated ⟨hsnap, hpres.found⟩ hlive hrot

variable {call : AuthCall}

theorem leads_commit (hs : exec db i tx .commit = some (db', p))
    (hend : ∀ now keys reply pick pc', call.next R K now keys reply pick = some pc' →
      ∃ result, pc' = .returned result) : Leads R K call p := by
  rcases exec_commit_cases hs with ⟨-, rfl⟩ | ⟨-, -, rfl⟩
  · refine ⟨fun tx' hp => ?_, fun tx' reply hp => ?_⟩ <;> cases hp
  · refine ⟨fun tx' hp => (by cases hp), fun tx' reply _ _ now keys pick pc' hn => ?_⟩
    exact .ended (.inl (hend now keys reply pick pc' hn))

theorem leads_revokes {request : AuthRequest}
    (hreq : (∃ sessionId userId, request = .revokeSession sessionId userId) ∨
      ∃ userId, request = .revokeAllSessions userId)
    (hpc : (∃ revokedAt, pc = .revokeSessions revokedAt ∨ pc = .revokeTokens revokedAt) ∨
      pc = .commitRevoke)
    (hrev : Revokes tx.writes) {stmt : Stmt Row}
    (hstmt : (⟨request, startedAt, pc, tx⟩ : AuthCall).stmt cfg R K = some stmt)
    (hs : exec db i tx stmt = some (db', p)) :
    Leads R K ⟨request, startedAt, pc, tx⟩ p := by
  rcases hpc with ⟨revokedAt, rfl | rfl⟩ | rfl
  · have hkeep : ∀ tx', p = .running tx' ∨ (∃ reply, p = .replied tx' reply) →
        Revokes tx'.writes := by
      intro tx' hp
      rcases hreq with ⟨sessionId, userId, rfl⟩ | ⟨userId, rfl⟩ <;>
        obtain rfl := some.inj hstmt
      all_goals exact hrev.update_sessions (exec_writes hs hp)
    refine ⟨fun tx' hp => .revoking hreq (.inl ⟨_, .inl rfl⟩) (hkeep tx' (.inl hp)),
      fun tx' reply hp _ now keys pick pc' hn => ?_⟩
    rcases hreq with ⟨sessionId, userId, rfl⟩ | ⟨userId, rfl⟩ <;> obtain rfl := some.inj hn
    · exact .revoking (.inl ⟨_, _, rfl⟩) (.inl ⟨_, .inr rfl⟩) (hkeep tx' (.inr ⟨reply, hp⟩))
    · exact .revoking (.inr ⟨_, rfl⟩) (.inl ⟨_, .inr rfl⟩) (hkeep tx' (.inr ⟨reply, hp⟩))
  · have hkeep : ∀ tx', p = .running tx' ∨ (∃ reply, p = .replied tx' reply) →
        Revokes tx'.writes := by
      intro tx' hp
      rcases hreq with ⟨sessionId, userId, rfl⟩ | ⟨userId, rfl⟩ <;>
        obtain rfl := some.inj hstmt
      · exact hrev.update_tokens (fun _ _ h => (of_decide_eq_true h).2.2) (exec_writes hs hp)
      · exact hrev.update_tokens (fun _ _ h => (of_decide_eq_true h).2) (exec_writes hs hp)
    refine ⟨fun tx' hp => .revoking hreq (.inl ⟨_, .inr rfl⟩) (hkeep tx' (.inl hp)),
      fun tx' reply hp _ now keys pick pc' hn => ?_⟩
    rcases hreq with ⟨sessionId, userId, rfl⟩ | ⟨userId, rfl⟩ <;> obtain rfl := some.inj hn
    · exact .revoking (.inl ⟨_, _, rfl⟩) (.inr rfl) (hkeep tx' (.inr ⟨reply, hp⟩))
    · exact .revoking (.inr ⟨_, rfl⟩) (.inr rfl) (hkeep tx' (.inr ⟨reply, hp⟩))
  · rcases hreq with ⟨sessionId, userId, rfl⟩ | ⟨userId, rfl⟩ <;>
      obtain rfl := some.inj hstmt
    all_goals exact leads_commit hs fun _ _ _ _ _ hn => ⟨_, (some.inj hn).symm⟩

/-- **The statement at a program point** leads to what holds there and at the next one. -/
theorem leads_stmt {stmt : Stmt Row} (hp : Point R K call.request call.startedAt call.pc call.tx)
    (htx : TxOk db i call.tx) (hlater : ∀ snap, call.tx.snapshot = some snap → Later snap db.rows)
    (hstmt : call.stmt cfg R K = some stmt) (hs : exec db i call.tx stmt = some (db', p)) :
    Leads R K call p := by
  obtain ⟨request, startedAt, pc, tx⟩ := call
  simp only [] at hp htx hlater hs
  cases hp with
  | insertSession hw =>
    obtain rfl := some.inj hstmt
    exact leads_insertSession hw rfl hs
  | insertToken hsession honly =>
    obtain rfl := some.inj hstmt
    exact leads_insertToken hsession honly rfl rfl ⟨rfl, rfl⟩ hs
  | created hc hpc =>
    rcases hpc with rfl | rfl <;> obtain rfl := some.inj hstmt
    · exact leads_touchUser hc hs
    · exact leads_commit hs fun _ _ _ _ _ hn => ⟨_, (some.inj hn).symm⟩
  | findToken =>
    obtain rfl := some.inj hstmt
    exact leads_findToken hs
  | invalid =>
    obtain rfl := some.inj hstmt
    exact leads_commit hs fun _ _ _ _ _ hn => ⟨_, (some.inj hn).symm⟩
  | reuseSession hpres hunusable hrev hcov =>
    obtain rfl := some.inj hstmt
    exact leads_reuseSession hpres hunusable hrev hcov htx hs
  | reuseTokens hpres hunusable hrev hsession hcov =>
    obtain rfl := some.inj hstmt
    exact leads_reuseTokens hpres hunusable hrev hsession hcov htx hs
  | reused =>
    obtain rfl := some.inj hstmt
    exact leads_commit hs fun _ _ _ _ _ hn => ⟨_, (some.inj hn).symm⟩
  | insertNext hpres hlive hw hpend =>
    obtain rfl := some.inj hstmt
    refine leads_insertNext hpres hlive hw hpend (hlater _ hpres.snapshot) ?_ ?_ ?_ hs
    · rfl
    · rfl
    · exact ⟨rfl, rfl⟩
  | consume hpres hlive hc hcov =>
    obtain rfl := some.inj hstmt
    exact leads_consume hpres hlive hc hcov htx hs
  | touchSession hpres hlive hc =>
    obtain rfl := some.inj hstmt
    exact leads_touchSession hpres hlive hc hs
  | rotated =>
    obtain rfl := some.inj hstmt
    exact leads_commit hs fun _ _ _ _ _ hn => ⟨_, (some.inj hn).symm⟩
  | revoking hreq hpc hrev => exact leads_revokes hreq hpc hrev hstmt hs
  | ended hend => cases (stmt_of_ended hend).symm.trans hstmt

theorem commit_rows (hp : Point R K call.request call.startedAt call.pc call.tx)
    (hstmt : call.stmt cfg R K = some .commit) (hf : Fits call.tx.writes rows) (hr : Family rows) :
    Family (call.tx.writes.read rows) ∧ Later rows (call.tx.writes.read rows) := by
  obtain ⟨request, startedAt, pc, tx⟩ := call
  simp only [] at hp hf ⊢
  have hrevokes : ∀ {ws : Writes Row}, Revokes ws → Fits ws rows →
      Family (ws.read rows) ∧ Later rows (ws.read rows) :=
    fun h hf => ⟨h.family hf hr, h.later hf⟩
  cases hp with
  | created hc => exact ⟨hc.family hf hr, hc.later hf⟩
  | invalid hw =>
    rw [hw] at hf ⊢
    exact hrevokes revokes_empty hf
  | reused _ _ hrev => exact hrevokes hrev hf
  | rotated _ _ hrot => exact ⟨hrot.family hf hr, hrot.later hf⟩
  | revoking _ _ hrev => exact hrevokes hrev hf
  | ended hend => cases (stmt_of_ended hend).symm.trans hstmt
  | _ => cases hstmt

end BackendFoundation.Auth.SessionPoints
