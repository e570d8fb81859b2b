import BackendFoundation.Auth.CredentialLog

/-! # Sessions of an old password

`loginWithPassword` compares the password and creates the session in different transactions, and
`changePassword` and `confirmPasswordReset` revoke the sessions that they find. They find all of
them: they take the row of the user first, and a login takes that row before it commits. A login that
commits after a change of the password, having compared the old one, leaves a session that nobody
revokes (`stale_session`). If every login commits under the password that it has compared, no such
session is live (`passwords_current`). -/

namespace BackendFoundation.Auth.StaleSessions

open Lib.Runs Lib.Interleave Lib.Database Lib.Transact Lib.WriteLog Lib.Schema Lib.Services Errors
open Crypto Auth.CredentialModel Auth.CredentialLog
open Option (some.inj)

variable {cfg : CredentialConfig}

/-- A live session that a login has created is of the present password, or has set it itself. -/
def PasswordsCurrent (rows : CredentialRows) : Prop :=
  ∀ (id : ℕ) (session : Session), rows ⟨.session, id⟩ = some session → session.live = true →
    ∀ version ∈ session.passwordVersion, ∃ user : User, rows ⟨.user, session.userId⟩ = some user ∧
      (user.passwordVersion = version ∨ user.changedBy = some id)

def committedSession : CredentialPc → Option NewSession
  | .createSession _ input (.commit _) => some input
  | _ => none

/-- A login commits its session under the password that it has compared. -/
def commitsCurrent (s : CredentialStore) (i : ℕ) (call : CredentialCall) (c : Choice Thrown) :
    Prop :=
  commits s.db i .commit c.fate = true → ∀ input ∈ committedSession call.pc,
    ∀ version ∈ input.passwordVersion, ∀ user ∈ s.db.rows ⟨.user, input.userId⟩,
      User.passwordVersion user = version

instance {s : CredentialStore} {i : ℕ} {call : CredentialCall} {c : Choice Thrown} :
    Decidable (commitsCurrent s i call c) :=
  inferInstanceAs (Decidable (_ = true → ∀ input ∈ committedSession call.pc,
    ∀ version ∈ input.passwordVersion, ∀ user ∈ s.db.rows ⟨.user, input.userId⟩,
      User.passwordVersion user = version))

/-! ### The sessions of a user are revoked -/

/-- The transaction revokes the sessions of the user, or has done so. -/
inductive Revokes : CredentialPc → Bool → ℕ → CredentialUpdate .session → Prop
  | changing {change : PasswordChange} {revokedAt : ℕ} :
      Revokes (.changePassword change (.revokeSessions revokedAt)) false change.userId
        (change.revokeSessions revokedAt)
  | changedSessions {change : PasswordChange} {revokedAt : ℕ} :
      Revokes (.changePassword change (.revokeTokens revokedAt)) true change.userId
        (change.revokeSessions revokedAt)
  | changed {change : PasswordChange} {revokedAt : ℕ} :
      Revokes (.changePassword change (.commit revokedAt)) true change.userId
        (change.revokeSessions revokedAt)
  | resetting {reset : Reset} :
      Revokes (.confirmReset reset .revokeSessions) false reset.token.userId reset.revokeSessions
  | resetSessions {reset : Reset} :
      Revokes (.confirmReset reset .revokeTokens) true reset.token.userId reset.revokeSessions
  | resetTokens {reset : Reset} :
      Revokes (.confirmReset reset .supersede) true reset.token.userId reset.revokeSessions
  | reset {reset : Reset} :
      Revokes (.confirmReset reset (.commit true)) true reset.token.userId reset.revokeSessions

variable {pc pc' : CredentialPc} {done : Bool} {userId : ℕ} {u : CredentialUpdate .session}
  {site : Site CredentialKey} {reply : Reply CredentialRow}

theorem Revokes.cond (h : Revokes pc done userId u) {id : ℕ} {session : Session}
    (hcond : u.cond id session = true) : session.userId = userId ∧ session.live = true := by
  cases h with
  | changing | changedSessions | changed =>
    obtain ⟨huser, -, hlive⟩ := of_decide_eq_true hcond
    exact ⟨huser, hlive⟩
  | resetting | resetSessions | resetTokens | reset => exact of_decide_eq_true hcond

theorem Revokes.falsifies (h : Revokes pc done userId u) (id : ℕ) (session : Session) :
    u.cond id (u.data session) = false := by
  have hdata : Session.live (u.data session) = false := by
    cases h <;> rfl
  by_contra hcond
  rw [(h.cond (by simpa using hcond)).2] at hdata
  cases hdata

theorem Revokes.wrote (h : Revokes pc done userId u) (after : Option User) :
    ¬ (notes cfg).wrote pc ⟨.user, userId⟩ none after := by
  intro hw
  change Entry.inTurn (written cfg pc) ⟨.user, userId⟩ none after at hw
  cases h <;> simp [written, changeWrote, resetWrote] at hw <;>
    rcases Update.must_cases hw with ⟨hne, -⟩ | ⟨-, row, he, -⟩ <;>
    first
      | exact hne rfl
      | cases he

theorem Revokes.stmt (h : Revokes pc false userId u) : credentialStmt cfg pc = some u.stmt := by
  cases h <;> rfl

theorem Revokes.leaves (h : Revokes pc true userId u) {stmt : CredentialStmt}
    (hstmt : credentialStmt cfg pc = some stmt) : Leaves stmt u.found := by
  cases h with
  | changed | reset =>
    obtain rfl := some.inj hstmt
    trivial
  | changedSessions | resetSessions | resetTokens =>
    obtain rfl := some.inj hstmt
    exact Update.leaves_of_ne (by decide)

/-- A transaction that revokes sessions starts to do so, or has found them all. -/
theorem Revokes.of_next (h : Revokes pc' done userId u)
    (hnext : credentialNext cfg site pc reply = some (.ok pc')) :
    done = false ∨ ∃ done', Revokes pc done' userId u := by
  cases goes_of_next hnext with
  | queried _ _ hq => cases hq <;> cases h
  | createSession hn => rcases session_stays hn with ⟨_, rfl⟩ | ⟨_, rfl⟩ <;> cases h
  | verifyOtp hn => rcases otp_stays hn with ⟨_, rfl⟩ | ⟨_, -, rfl⟩ | ⟨_, rfl⟩ <;> cases h
  | issueReset hn => rcases issue_stays hn with ⟨_, rfl⟩ | ⟨_, rfl⟩ <;> cases h
  | changeEmail hn => rcases email_stays hn with ⟨_, rfl⟩ | ⟨_, rfl⟩ <;> cases h
  | setPending | insertChallenge | commitChallenge | recordInvalid | commitInvalid => cases h
  | changePassword hn =>
    unfold changeNext at hn
    split at hn
    · obtain ⟨-, rfl⟩ := ok_of_required hn
      cases h
      exact .inl rfl
    · obtain rfl := point_inj hn
      cases h
      exact .inr ⟨_, .changing⟩
    · obtain rfl := point_inj hn
      cases h
      exact .inr ⟨_, .changedSessions⟩
    · obtain rfl := point_inj hn
      cases h
    · cases hn
  | confirmReset hn =>
    unfold resetNext at hn
    split at hn
    · obtain rfl := point_inj hn
      split_ifs at h <;> cases h
    · split_ifs at hn with hc
      · cases hn
      · obtain rfl := point_inj hn
        cases h
    · split_ifs at hn with hc
      · cases hn
      · obtain rfl := point_inj hn
        cases h
        exact .inl rfl
    · obtain rfl := point_inj hn
      cases h
      exact .inr ⟨_, .resetting⟩
    · obtain rfl := point_inj hn
      cases h
      exact .inr ⟨_, .resetSessions⟩
    · obtain rfl := point_inj hn
      cases h
      exact .inr ⟨_, .resetTokens⟩
    · obtain rfl := point_inj hn
      cases h
    · cases hn

/-! ### The invariant -/

/-- No session of the user is left but those that the transaction has still to look at. -/
structure Revoking (rows : CredentialRows) (tx : Tx CredentialRow) (done : Bool)
    (u : CredentialUpdate .session) : Prop where
  seen : done = false → tx.pending ≠ none → Seen rows tx u.found
  cleared : done = true → Cleared rows tx u.found

def claims : Claims CredentialRow CredentialPc Ledger where
  shared v := PasswordsCurrent v.rows
  call _ aborted call v := aborted = false → ∀ done userId u,
    Revokes call.pc done userId u → Revoking v.rows call.tx done u

abbrev At (cfg : CredentialConfig) :=
  claims.At (credentials cfg) (notes cfg)

variable {s : CredentialStore} {i j : ℕ} {call callj : CredentialCall} {c : Choice Thrown}

theorem Revoking.mono {rows rows' : CredentialRows} {tx : Tx CredentialRow}
    (h : Revoking rows tx done u) (hrows : Brings rows rows' tx u.found) :
    Revoking rows' tx done u :=
  ⟨fun hdone hpend => (h.seen hdone hpend).mono hrows, fun hdone => (h.cleared hdone).mono hrows⟩

theorem Revoking.step (hat : At cfg s i call) (hlive : s.db.aborted i = false)
    (hrev : Revokes call.pc done userId u) {stmt : CredentialStmt}
    (hstmt : credentialStmt cfg call.pc = some stmt) (hcommit : stmt ≠ .commit) {db : Db CredentialRow}
    {p : Progress CredentialRow} (hs : exec s.db i call.tx stmt = some (db, p)) :
    (∀ tx, p = .running tx → Revoking s.db.rows tx done u) ∧
      ∀ tx reply, p = .replied tx reply → Cleared s.db.rows tx u.found := by
  have hold := hat.call hlive done userId u hrev
  cases done with
  | false =>
    obtain rfl := some.inj (hrev.stmt.symm.trans hstmt)
    have hfalse := setIn_falsifies (u := u) hrev.falsifies
    obtain ⟨hrun, hreply⟩ := exec_seen hat.tx hat.listed hat.point.serializable hat.point.snapshot
      (fun _ _ h => h) hfalse (hold.seen rfl) hs
    exact ⟨fun tx hp => ⟨fun _ _ => hrun tx hp, fun hd => (by cases hd)⟩, hreply⟩
  | true =>
    have hclear {tx : Tx CredentialRow} (hp : p = .running tx ∨ ∃ reply, p = .replied tx reply) :
        Cleared s.db.rows tx u.found :=
      exec_cleared (hold.cleared rfl) hcommit (hrev.leaves hstmt) hs hp
    exact ⟨fun tx hp => ⟨fun hd => (by cases hd), fun _ => hclear (.inl hp)⟩,
      fun tx reply hp => hclear (.inr ⟨reply, hp⟩)⟩

theorem Revokes.pointOk (hrev : Revokes callj.pc done userId u)
    (hj : CallOk (credentials cfg) (notes cfg) j callj s) :
    PointOk (credentials cfg) (notes cfg) callj := by
  refine hj.point.resolve_left ?_
  rintro ⟨e, he⟩
  rw [he] at hrev
  cases hrev

/-- The commit of another call brings no session to revoke: a login would have to take the row of the
user, which the transaction has. -/
theorem Revokes.brings (hat : At cfg s i call) (hj : CallOk (credentials cfg) (notes cfg) j callj s)
    (hij : j ≠ i) (hlive : s.db.aborted i = false) (hlivej : s.db.aborted j = false)
    (hrev : Revokes callj.pc done userId u) {rows : CredentialRows} (hc : Commit call.pc)
    (hwrote : ∀ k, (notes cfg).wrote call.pc k (s.db.rows k) (rows k)) :
    Brings s.db.rows rows callj.tx u.found := by
  intro k v _ hv hcond
  obtain ⟨id, session, rfl, hrow, hcond⟩ := whereIn_eq_true hcond
  obtain rfl := eq_of_heq hrow
  obtain ⟨huser, hsession⟩ := hrev.cond hcond
  have hw := commit_session hc (hwrote ⟨.session, id⟩)
  rw [hv] at hw
  generalize hbefore : s.db.rows ⟨.session, id⟩ = before at hw
  generalize hafter : some v = after at hw
  cases hw with
  | same => exact ⟨v, hafter.symm, whereIn_self.trans hcond⟩
  | revoked _ =>
    obtain rfl := some.inj hafter
    cases hsession
  | @created draws input lastLoginAt hpc hid =>
    obtain rfl := some.inj hafter
    have hi : call.tx.writes ⟨.user, userId⟩ ≠ none := by
      refine hat.point.wrote.writes_ne_none fun after hafter => ?_
      rw [hpc] at hafter
      simp [notes, Lib.Logs.notesOf, written, sessionWrote] at hafter
      rcases Update.must_cases hafter with ⟨hne, -⟩ | ⟨-, row, he, -⟩
      · exact hne huser.symm
      · cases he
    have hj' : callj.tx.writes ⟨.user, userId⟩ ≠ none :=
      (hrev.pointOk hj).wrote.writes_ne_none hrev.wrote
    exact absurd (hat.ok.disjoint hj hij hlive hlivej hi) hj'

theorem passwordsCurrent_commit (hat : At cfg s i call) (hm : commitsCurrent s i call c)
    (hstmt : credentialStmt cfg call.pc = some .commit)
    (hcommits : commits s.db i .commit c.fate = true) {rows : CredentialRows}
    (hrows : rows = call.tx.writes.read s.db.rows)
    (hwrote : ∀ k, (notes cfg).wrote call.pc k (s.db.rows k) (rows k)) : PasswordsCurrent rows := by
  have hc := commit_of_stmt hstmt
  have hlive := (thrown_of_commits hcommits).2
  intro id session hsession hopen version hversion
  have hw := commit_session hc (hwrote ⟨.session, id⟩)
  rw [hsession] at hw
  generalize hbefore : s.db.rows ⟨.session, id⟩ = before at hw
  generalize hafter : some session = after at hw
  have huser (userId : ℕ) := commit_user hc (hwrote ⟨.user, userId⟩)
  cases hw with
  | revoked _ =>
    obtain rfl := some.inj hafter
    cases hopen
  | same =>
    subst hafter
    obtain ⟨user, hfound, hold⟩ := hat.shared id session hbefore hopen version hversion
    have hw := huser session.userId
    change s.db.rows ⟨.user, session.userId⟩ = some user at hfound
    rw [hfound] at hw
    generalize hnew : rows ⟨.user, session.userId⟩ = new at hw
    have hrevoked {done : Bool} {userId : ℕ} {u : CredentialUpdate .session}
        (hrev : Revokes call.pc done userId u) (hdone : done = true) :
        u.cond id session = false := by
      have hclear := (hat.call hlive done userId u hrev).cleared hdone ⟨.session, id⟩ session
      exact whereIn_self.symm.trans (hclear ((congrFun hrows _).symm.trans hsession))
    cases hw with
    | same => exact ⟨user, rfl, hold⟩
    | kept _ hsame hby => exact ⟨_, rfl, by rwa [hsame, hby]⟩
    | @changed change revokedAt _ hpc hid =>
      refine ⟨_, rfl, .inr (congrArg some ?_)⟩
      by_contra hother
      have hcond : (change.revokeSessions revokedAt).cond id session = true :=
        decide_eq_true ⟨hid, Ne.symm hother, hopen⟩
      rw [hrevoked (hpc ▸ Revokes.changed) rfl] at hcond
      cases hcond
    | @reset reset _ hpc hid _ =>
      have hcond : reset.revokeSessions.cond id session = true := decide_eq_true ⟨hid, hopen⟩
      rw [hrevoked (hpc ▸ Revokes.reset) rfl] at hcond
      cases hcond
  | @created draws input lastLoginAt hpc hid =>
    obtain rfl := some.inj hafter
    have huser := hwrote ⟨.user, input.userId⟩
    rw [hpc] at huser
    simp [notes, Lib.Logs.notesOf, written, sessionWrote] at huser
    rcases Update.must_cases huser with ⟨hne, -⟩ | ⟨-, user, hfound, -, hnew⟩
    · exact absurd rfl hne
    · have hversion' := hm hcommits input (by rw [hpc]; rfl) version hversion user hfound
      exact ⟨_, hnew, .inl hversion'⟩

theorem invariant : Invariant (credentials cfg) (notes cfg) commitsCurrent claims where
  init id session h := by cases h
  tick v ms := ⟨fun h => h, fun i b call h => h⟩
  abort i call v _ h := by cases h
  event _ e := e.elim
  start i b v x _ _ _ done userId u hrev := by
    have hstart : ∀ request : CredentialRequest,
        ¬ Revokes (startPc cfg.R v.now x.draws request) done userId u := by
      intro request h
      cases request <;> cases h
    exact absurd hrev (hstart x.request)
  thrown _ _ _ _ _ _ _ _ _ hrev := by cases hrev
  running s i call c cond data db tx hat _ hstmt hs hlive _ done userId u hrev :=
    (Revoking.step hat hlive hrev hstmt (by simp) hs).1 tx rfl
  replied s i call c stmt db tx reply pc hat _ hstmt hcommit hs hlive hnext _ done userId u hrev := by
    have hpend := ((exec_logged (hstmt ▸ hat.point.wrote) hs).logged hcommit).1
    refine ⟨fun _ hno => absurd hpend hno, fun hdone => ?_⟩
    rcases hrev.of_next hnext with hstart | ⟨done', hbefore⟩
    · rw [hdone] at hstart
      cases hstart
    · exact (Revoking.step hat hlive hbefore hstmt hcommit hs).2 tx reply rfl
  outside s i call c m pc hat _ _ hout := by
    refine ⟨hat.shared, fun _ done userId u hrev => ?_, fun j callj _ _ h => h⟩
    have hwritten := (written_of_outside hout).2
    refine absurd ?_ (@Revokes.wrote cfg _ _ _ _ hrev none)
    change Entry.inTurn (written cfg pc) _ _ _
    rw [hwritten]
    rfl
  commit s i call c rows hat hm hstmt hcommits hrows hwrote := by
    have hc := commit_of_stmt hstmt
    have hlive := (thrown_of_commits hcommits).2
    refine ⟨passwordsCurrent_commit hat hm hstmt hcommits hrows hwrote,
      fun pc hnext _ done userId u hrev => ?_, fun j callj hij hj hcall hlivej done userId u hrev => ?_⟩
    · refine absurd ?_ (@Revokes.wrote cfg _ _ _ _ hrev none)
      change Entry.inTurn (written cfg pc) _ _ _
      rw [written_of_commit hc hnext]
      rfl
    · exact (hcall hlivej done userId u hrev).mono
        (hrev.brings hat hj hij hlive hlivej hc hwrote)

/-- **If every login commits under the password that it has compared**, no session of an old password
is live, but that of the call that has changed it. -/
theorem passwords_current {w : CredentialWorld}
    (h : ReachableBy (credentials cfg).program.system (StepsMeet commitsCurrent) w) :
    PasswordsCurrent w.shared.db.rows :=
  (invariant.holds follows h).1

/-! ### Runs -/

def login : CredentialLabel := .spawn ⟨.loginWithPassword "user@example.com" "old", {}⟩

def change : CredentialLabel := .spawn ⟨.changePassword 0 1 "old" "new", {}⟩

/-- The login has left a live session. -/
def loggedIn (rows : CredentialRows) : Bool :=
  Option.any (fun session => session.live && decide (session.userId = 0) &&
    decide (Session.passwordVersion session = some 0)) (rows ⟨.session, 0⟩)

def changed (rows : CredentialRows) : Bool :=
  Option.any (fun user => decide (User.passwordVersion user = 1 ∧ user.changedBy = some 1))
    (rows ⟨.user, 0⟩)

/-- A login, and then a change of the password. -/
theorem passwords_current_login : ∃ w : CredentialWorld, changed w.shared.db.rows = true ∧
    loggedIn w.shared.db.rows = false ∧ PasswordsCurrent w.shared.db.rows := by
  obtain ⟨w, hw, hchanged, hlogin⟩ := (credentials exampleConfig).program.exists_reached
    (StepsMeet commitsCurrent) ([login] ++ steps 0 8 ++ [change] ++ steps 1 11)
    (fun w => changed w.shared.db.rows = true ∧ loggedIn w.shared.db.rows = false) (by decide)
  exact ⟨w, hchanged, hlogin, passwords_current hw⟩

/-- **A session of an old password.** The login compares the password, the password is changed, and
the login then creates its session. -/
theorem stale_session : ∃ w : CredentialWorld,
    Reachable (credentials exampleConfig).program.system w ∧
      ¬ PasswordsCurrent w.shared.db.rows := by
  obtain ⟨w, hw, hchanged, hlogin⟩ := (credentials exampleConfig).program.exists_reached
    anyStep ([login] ++ steps 0 2 ++ [change] ++ steps 1 9 ++ steps 0 6)
    (fun w => changed w.shared.db.rows = true ∧ loggedIn w.shared.db.rows = true) (by decide)
  refine ⟨w, hw, fun hcurrent => ?_⟩
  obtain ⟨user, huser, hset⟩ := (Option.any_eq_true _ _).mp hchanged
  obtain ⟨session, hsession, hlive⟩ := (Option.any_eq_true _ _).mp hlogin
  simp only [Bool.and_eq_true, decide_eq_true_eq] at hlive hset
  obtain ⟨⟨hlive, huserId⟩, hversion⟩ := hlive
  obtain ⟨found, hfound, hok⟩ := hcurrent 0 session hsession hlive 0 hversion
  rw [huserId, huser] at hfound
  obtain rfl := some.inj hfound
  rw [hset.1, hset.2] at hok
  rcases hok with hok | hok <;> cases hok

end BackendFoundation.Auth.StaleSessions
