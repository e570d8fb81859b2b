import BackendFoundation.Auth.Challenges
import BackendFoundation.Lib.Sweep

/-! # The chain of a password reset

`requestPasswordReset` sends a code, `verifyPasswordResetOtp` issues a reset token for it, and
`confirmPasswordReset` changes the password with the token. `Chain` says what holds of the three
in every state, and of every step from it: a challenge has one token, a token changes one password,
and the commit that changes it uses the token and its challenge, and leaves no session, no refresh
token and no older reset token of the user (`reset_chain`).

A call whose commit is executed and whose reply is lost throws, and the password is changed; and the
token is looked at when the transaction begins, which may be long before its commit (`late_commit`). -/

namespace BackendFoundation.Auth.ResetChain

open Lib.Runs Lib.Interleave Lib.Database Lib.Transact Lib.WriteLog Lib.Schema Lib.Services
open Lib.Sweep Errors Crypto Auth.CredentialModel Auth.CredentialLog Auth.Challenges
open Option (some.inj)

variable {cfg : CredentialConfig}

/-! ### The chain -/

/-- The call `i` commits the change of a password, and the database executes it. -/
structure Resets (cfg : CredentialConfig) (w w' : CredentialWorld) (i : ℕ) (c : Choice Thrown)
    (reset : Reset) : Prop where
  proc : ∃ tx, w.proc? i = some ⟨.confirmReset reset (.commit true), tx⟩
  executed : commits w.shared.db i .commit c.fate = true
  next : (credentials cfg).program.next w (.step i c) = some w'

/-- What the commit that changes a password does. The token is unexpired when the transaction begins,
at `usedAt`, and may be over at the commit. -/
structure ResetCommit (rows rows' : CredentialRows) (reset : Reset) : Prop where
  token : ∃ token : PasswordResetToken, rows ⟨.resetToken, reset.id⟩ = some token ∧
    token.userId = reset.token.userId ∧ token.otpChallengeId = reset.token.otpChallengeId ∧
    token.live = true ∧ reset.usedAt < token.expiresAt ∧
    rows' ⟨.resetToken, reset.id⟩ = some (token.used reset.usedAt)
  challenge : ∃ challenge : OtpChallenge,
    rows ⟨.challenge, reset.token.otpChallengeId⟩ = some challenge ∧
    challenge.unconsumed = true ∧
    rows' ⟨.challenge, reset.token.otpChallengeId⟩ = some (challenge.consumed reset.usedAt)
  user : ∃ user : User, rows ⟨.user, reset.token.userId⟩ = some user ∧ user.active = true ∧
    rows' ⟨.user, reset.token.userId⟩ = some (user.withPassword reset.passwordHash none)
  sessions : ∀ (id : ℕ) (session : Session), rows' ⟨.session, id⟩ = some session →
    session.userId = reset.token.userId → session.live = false
  refreshTokens : ∀ (id : ℕ) (token : RefreshToken), rows' ⟨.refreshToken, id⟩ = some token →
    token.userId = reset.token.userId → token.live = false

def passwordOf (w : CredentialWorld) (userId : ℕ) : Option SecretHash :=
  Option.bind (w.shared.db.rows ⟨.user, userId⟩) User.passwordHash

/-- The process `i` is a call of `confirmPasswordReset`. -/
def Confirms (cfg : CredentialConfig) (w : CredentialWorld) (i : ℕ) : Prop :=
  ∃ w₀ w₁ resetToken newPassword draws, Reachable (credentials cfg).program.system w₀ ∧
    (credentials cfg).program.next w₀
      (.spawn ⟨.confirmPasswordReset resetToken newPassword, draws⟩) = some w₁ ∧
    w₀.fresh = i ∧ Path (credentials cfg).program.system anyStep w₁ w

/-- The call has returned `false` or thrown. -/
def Unsuccessful (pc : CredentialPc) : Prop :=
  pc = .returned (.changed false) ∨ ∃ e, pc = .thrown e

/-- What holds in a state, and of the steps from it. -/
structure Chain (cfg : CredentialConfig) (w : CredentialWorld) : Prop where
  attempts : ∀ (id : ℕ) (challenge : OtpChallenge),
    w.shared.db.rows ⟨.challenge, id⟩ = some challenge →
      challenge.attempts ≤ challenge.maxAttempts ∧
        (challenge.lockedAt ≠ none → challenge.verifiedAt = none ∧ challenge.consumedAt = none)
  single : ∀ (id id' : ℕ) (token token' : PasswordResetToken),
    w.shared.db.rows ⟨.resetToken, id⟩ = some token →
      w.shared.db.rows ⟨.resetToken, id'⟩ = some token' →
        token.otpChallengeId = token'.otpChallengeId → id = id'
  /-- A password changes by a reset, or by `changePassword`. -/
  passwords : ∀ l w' userId, (credentials cfg).program.next w l = some w' →
    passwordOf w' userId ≠ passwordOf w userId →
      (∃ i c reset, l = .step i c ∧ Resets cfg w w' i c reset ∧ reset.token.userId = userId) ∨
      ∃ i c change revokedAt tx, l = .step i c ∧ change.userId = userId ∧
        w.proc? i = some ⟨.changePassword change (.commit revokedAt), tx⟩
  committed : ∀ w' i c reset, Resets cfg w w' i c reset →
    ResetCommit w.shared.db.rows w'.shared.db.rows reset
  /-- The tokens that are live when the call starts to supersede them. -/
  superseded : ∀ w' i c reset, Resets cfg w w' i c reset →
    ∀ w₀ tx, Reachable (credentials cfg).program.system w₀ →
      Path (credentials cfg).program.system anyStep w₀ w →
      w₀.proc? i = some ⟨.confirmReset reset .supersede, tx⟩ → tx.pending = none →
      ∀ (id : ℕ) (token : PasswordResetToken), w₀.shared.db.rows ⟨.resetToken, id⟩ = some token →
        token.userId = reset.token.userId → id ≠ reset.id → ∃ token' : PasswordResetToken,
          w'.shared.db.rows ⟨.resetToken, id⟩ = some token' ∧ token'.live = false
  once : ∀ w' i c reset, Resets cfg w w' i c reset → ∀ w₁ w₂ i₁ c₁ reset₁,
    Path (credentials cfg).program.system anyStep w' w₁ → Resets cfg w₁ w₂ i₁ c₁ reset₁ →
      reset₁.id ≠ reset.id
  /-- No step of a call that returns `false` or throws changes anything, but a commit whose reply is
  lost. -/
  unchanged : ∀ w' i c, Confirms cfg w i →
    (credentials cfg).program.next w (.step i c) = some w' → (∀ e, c.fate ≠ .lost e) →
    ∀ w₁ call, Path (credentials cfg).program.system anyStep w' w₁ → w₁.proc? i = some call →
      Unsuccessful call.pc → w'.shared.db.rows = w.shared.db.rows

variable {pc pc' : CredentialPc} {done : Bool} {cond : ∀ k, CredentialRow k → Bool}
  {site : Site CredentialKey} {reply : Reply CredentialRow} {reset : Reset} {i j : ℕ}
  {c : Choice Thrown} {w w' : CredentialWorld} {rows rows' : CredentialRows}

/-! ### What a reset clears -/

/-- The statements of a reset after the user has been updated. -/
inductive Clears : CredentialPc → Bool → (∀ k, CredentialRow k → Bool) → Prop
  | sessions {reset : Reset} :
      Clears (.confirmReset reset .revokeSessions) false reset.revokeSessions.found
  | sessionsBefore {reset : Reset} {pc : ResetPc} :
      pc = .revokeTokens ∨ pc = .supersede ∨ pc = .commit true →
      Clears (.confirmReset reset pc) true reset.revokeSessions.found
  | tokens {reset : Reset} :
      Clears (.confirmReset reset .revokeTokens) false reset.revokeTokens.found
  | tokensBefore {reset : Reset} {pc : ResetPc} : pc = .supersede ∨ pc = .commit true →
      Clears (.confirmReset reset pc) true reset.revokeTokens.found

/-- A statement of the reset leaves the rows that an earlier one has cleared. -/
theorem Clears.leaves {stmt : CredentialStmt} (h : Clears pc true cond)
    (hstmt : credentialStmt cfg pc = some stmt) : Leaves stmt cond := by
  cases h with
  | sessionsBefore hpc =>
    rcases hpc with rfl | rfl | rfl
    · obtain rfl := some.inj hstmt
      exact Update.leaves_of_ne (by decide)
    · obtain rfl := some.inj hstmt
      exact Update.leaves_of_ne (by decide)
    · obtain rfl := some.inj hstmt
      trivial
  | tokensBefore hpc =>
    rcases hpc with rfl | rfl
    · obtain rfl := some.inj hstmt
      exact Update.leaves_of_ne (by decide)
    · obtain rfl := some.inj hstmt
      trivial

theorem Clears.updates (h : Clears pc false cond) : ∃ cond' data,
    credentialStmt cfg pc = some (.update cond' data) ∧
      (∀ k v, cond k v = true → cond' k v = true) ∧
      ∀ k v w, data k v = some w → cond k w = false := by
  cases h with
  | sessions =>
    refine ⟨_, _, rfl, fun _ _ h => h, setIn_falsifies fun id session => ?_⟩
    simp [Reset.revokeSessions, Session.revoked, Session.live]
  | tokens =>
    refine ⟨_, _, rfl, fun _ _ h => h, setIn_falsifies fun id token => ?_⟩
    simp [Reset.revokeTokens, RefreshToken.revoked, RefreshToken.live]

/-- The statement of a reset that comes before another one. -/
inductive Precedes : ResetPc → ResetPc → Prop
  | unused : Precedes .useToken (.commit false)
  | used : Precedes .useToken .consumeChallenge
  | consumed : Precedes .consumeChallenge .updateUser
  | updated : Precedes .updateUser .revokeSessions
  | revokedSessions : Precedes .revokeSessions .revokeTokens
  | revokedTokens : Precedes .revokeTokens .supersede
  | superseded : Precedes .supersede (.commit true)

theorem precedes_of_next {pc pc' : ResetPc}
    (h : resetNext reset pc reply = some (.ok (.confirmReset reset pc'))) : Precedes pc pc' := by
  generalize hafter : CredentialPc.confirmReset reset pc' = after at h
  unfold resetNext at h
  split at h
  · obtain rfl := point_inj h
    obtain ⟨-, rfl⟩ := CredentialPc.confirmReset.inj hafter
    split_ifs
    · exact .unused
    · exact .used
  · split_ifs at h with hn
    · cases h
    · obtain rfl := point_inj h
      obtain ⟨-, rfl⟩ := CredentialPc.confirmReset.inj hafter
      exact .consumed
  · split_ifs at h with hn
    · cases h
    · obtain rfl := point_inj h
      obtain ⟨-, rfl⟩ := CredentialPc.confirmReset.inj hafter
      exact .updated
  · obtain rfl := point_inj h
    obtain ⟨-, rfl⟩ := CredentialPc.confirmReset.inj hafter
    exact .revokedSessions
  · obtain rfl := point_inj h
    obtain ⟨-, rfl⟩ := CredentialPc.confirmReset.inj hafter
    exact .revokedTokens
  · obtain rfl := point_inj h
    obtain ⟨-, rfl⟩ := CredentialPc.confirmReset.inj hafter
    exact .superseded
  · obtain rfl := point_inj h
    cases hafter
  · cases h

/-- A call goes on inside the transaction of a reset only from the statement before. -/
theorem reset_of_next {pc' : ResetPc}
    (h : credentialNext cfg site pc reply = some (.ok (.confirmReset reset pc'))) :
    ∃ pc₁, pc = .confirmReset reset pc₁ ∧ Precedes pc₁ pc' := by
  generalize hafter : CredentialPc.confirmReset reset pc' = after at h
  cases goes_of_next h with
  | queried _ _ hq => cases hq <;> cases hafter
  | createSession hn => rcases session_stays hn with ⟨_, rfl⟩ | ⟨_, rfl⟩ <;> cases hafter
  | changePassword hn => rcases change_stays hn with ⟨_, rfl⟩ | ⟨_, rfl⟩ <;> cases hafter
  | verifyOtp hn => rcases otp_stays hn with ⟨_, rfl⟩ | ⟨_, -, rfl⟩ | ⟨_, rfl⟩ <;> cases hafter
  | issueReset hn => rcases issue_stays hn with ⟨_, rfl⟩ | ⟨_, rfl⟩ <;> cases hafter
  | changeEmail hn => rcases email_stays hn with ⟨_, rfl⟩ | ⟨_, rfl⟩ <;> cases hafter
  | setPending | insertChallenge | commitChallenge | recordInvalid | commitInvalid => cases hafter
  | confirmReset hn =>
    rcases reset_stays hn with ⟨_, rfl⟩ | ⟨_, rfl⟩
    · obtain ⟨rfl, rfl⟩ := CredentialPc.confirmReset.inj hafter
      exact ⟨_, rfl, precedes_of_next hn⟩
    · cases hafter

theorem Clears.of_next (h : Clears pc' done cond)
    (hnext : credentialNext cfg site pc reply = some (.ok pc')) :
    done = false ∨ ∃ done', Clears pc done' cond := by
  cases h with
  | sessions | tokens => exact .inl rfl
  | sessionsBefore hpc =>
    obtain ⟨pc₁, rfl, hn⟩ := reset_of_next hnext
    rcases hpc with rfl | rfl | rfl
    · cases hn
      exact .inr ⟨_, .sessions⟩
    · cases hn
      exact .inr ⟨_, .sessionsBefore (.inl rfl)⟩
    · cases hn
      exact .inr ⟨_, .sessionsBefore (.inr (.inl rfl))⟩
  | tokensBefore hpc =>
    obtain ⟨pc₁, rfl, hn⟩ := reset_of_next hnext
    rcases hpc with rfl | rfl
    · cases hn
      exact .inr ⟨_, .tokens⟩
    · cases hn
      exact .inr ⟨_, .tokensBefore (.inl rfl)⟩

theorem Clears.written_ne_nil (h : Clears pc done cond) : written cfg pc ≠ [] := by
  cases h with
  | sessions | tokens => simp [written, resetWrote]
  | sessionsBefore hpc => rcases hpc with rfl | rfl | rfl <;> simp [written, resetWrote]
  | tokensBefore hpc => rcases hpc with rfl | rfl <;> simp [written, resetWrote]

theorem clearing : Clearing (credentials cfg) fun _ => Clears where
  start i now spawn done cond h := by
    obtain ⟨request, draws⟩ := spawn
    change Clears (startPc cfg.R now draws request) done cond at h
    cases request <;> cases h
  thrown _ _ _ _ h := by cases h
  outside _ _ _ _ _ _ _ _ hout h := h.written_ne_nil (written_of_outside hout).2
  commit _ _ _ _ _ _ _ hstmt hnext h :=
    h.written_ne_nil (written_of_commit (commit_of_stmt hstmt) hnext)
  updates _ _ _ h := h.updates
  leaves _ _ _ _ h hstmt := h.leaves hstmt
  next _ _ _ _ _ _ _ hnext h := h.of_next hnext

/-! ### What others commit meanwhile -/

theorem Clears.of_reset (h : Clears pc done cond) : ∃ reset : Reset,
    (cond = reset.revokeSessions.found ∨ cond = reset.revokeTokens.found) ∧
      (∃ rpc, pc = .confirmReset reset rpc) ∧
      ∀ after, ¬ (notes cfg).wrote pc ⟨.user, reset.token.userId⟩ none after := by
  have hwrote {reset : Reset} {rpc : ResetPc}
      (hpc : rpc = .revokeSessions ∨ rpc = .revokeTokens ∨ rpc = .supersede ∨ rpc = .commit true)
      (after : Option User) :
      ¬ (notes cfg).wrote (.confirmReset reset rpc) ⟨.user, reset.token.userId⟩ none after := by
    intro hw
    rcases hpc with rfl | rfl | rfl | rfl <;> simp [notes, Lib.Logs.notesOf, written, resetWrote] at hw <;>
      rcases Update.must_cases hw with ⟨hne, -⟩ | ⟨-, row, he, -⟩ <;>
      first
        | exact hne rfl
        | cases he
  cases h with
  | sessions => exact ⟨_, .inl rfl, ⟨_, rfl⟩, hwrote (.inl rfl)⟩
  | sessionsBefore hpc => exact ⟨_, .inl rfl, ⟨_, rfl⟩, hwrote (.inr hpc)⟩
  | tokens => exact ⟨_, .inr rfl, ⟨_, rfl⟩, hwrote (.inr (.inl rfl))⟩
  | tokensBefore hpc => exact ⟨_, .inr rfl, ⟨_, rfl⟩, hwrote (.inr (.inr hpc))⟩

section Others

variable {s : CredentialStore} {call callj : CredentialCall}

/-- The commit of another call brings nothing to revoke: a login would have to take the row of the
user, which the reset has. -/
theorem Clears.brings (hpoint : PointOk (credentials cfg) (notes cfg) call)
    (hi : CallOk (credentials cfg) (notes cfg) i call s)
    (hj : CallOk (credentials cfg) (notes cfg) j callj s) (hij : j ≠ i)
    (hlive : s.db.aborted i = false) (hlivej : s.db.aborted j = false)
    (h : Clears callj.pc done cond) (hc : Committed cfg call.pc s.db.rows rows) :
    Brings s.db.rows rows callj.tx cond := by
  obtain ⟨reset, hcond, ⟨rpc, hrpc⟩, hwrote⟩ := @Clears.of_reset cfg _ _ _ h
  have hpointj : PointOk (credentials cfg) (notes cfg) callj := by
    refine hj.point.resolve_left ?_
    rintro ⟨e, he⟩
    rw [hrpc] at he
    cases he
  have hlogin {draws : Draws} {input : NewSession} {lastLoginAt : ℕ}
      (hpc : call.pc = .createSession draws input (.commit lastLoginAt))
      (huser : input.userId = reset.token.userId) : False := by
    have htaken : call.tx.writes ⟨.user, reset.token.userId⟩ ≠ none := by
      refine hpoint.wrote.writes_ne_none fun after hafter => ?_
      rw [hpc] at hafter
      simp [notes, Lib.Logs.notesOf, written, sessionWrote] at hafter
      rcases Update.must_cases hafter with ⟨hne, -⟩ | ⟨-, row, he, -⟩
      · exact hne huser.symm
      · cases he
    exact hpointj.wrote.writes_ne_none hwrote (hi.disjoint hj hij hlive hlivej htaken)
  intro k v _ hv hcondv
  rcases hcond with rfl | rfl
  · obtain ⟨id, session, rfl, hrow, hcondv⟩ := whereIn_eq_true hcondv
    obtain rfl := eq_of_heq hrow
    obtain ⟨huser, hsession⟩ := of_decide_eq_true hcondv
    have hw := commit_session hc.commit (hc.wrote ⟨.session, id⟩)
    rw [hv] at hw
    generalize hbefore : s.db.rows ⟨.session, id⟩ = before at hw
    generalize hafter : some v = after at hw
    cases hw with
    | same => exact ⟨v, hafter.symm, whereIn_self.trans hcondv⟩
    | revoked _ =>
      obtain rfl := some.inj hafter
      simp [Session.revoked, Session.live] at hsession
    | created hpc _ =>
      obtain rfl := some.inj hafter
      exact (hlogin hpc huser).elim
  · obtain ⟨id, token, rfl, hrow, hcondv⟩ := whereIn_eq_true hcondv
    obtain rfl := eq_of_heq hrow
    obtain ⟨huser, htoken⟩ := of_decide_eq_true hcondv
    have hw := commit_refreshToken hc.commit (hc.wrote ⟨.refreshToken, id⟩)
    rw [hv] at hw
    generalize hbefore : s.db.rows ⟨.refreshToken, id⟩ = before at hw
    generalize hafter : some v = after at hw
    cases hw with
    | same => exact ⟨v, hafter.symm, whereIn_self.trans hcondv⟩
    | revoked =>
      obtain rfl := some.inj hafter
      simp [RefreshToken.revoked, RefreshToken.live] at htoken
    | created hpc hsame =>
      obtain rfl := some.inj hafter
      exact (hlogin hpc (hsame.symm.trans huser)).elim

end Others

/-! ### The invariant -/

def claims : Claims CredentialRow CredentialPc Ledger where
  shared v := RowsOk v.rows
  call i aborted call v := PcOk call.pc v.rows ∧ ClearedAt (fun _ => Clears) i aborted call v.rows

theorem invariant : Invariant (credentials cfg) (notes cfg) (fun _ _ _ _ => True) claims where
  init := rowsOk_init
  tick _ _ := ⟨fun h => h, fun _ _ _ h => h⟩
  abort _ _ _ h := ⟨h.1, .aborted⟩
  event _ e := e.elim
  start i b v x _ _ :=
    ⟨pcOk_start, clearedAt_of_not fun done cond => clearing.start i v.now x done cond⟩
  thrown _ _ _ _ _ := ⟨trivial, clearedAt_of_not nofun⟩
  running _ _ _ _ _ _ _ _ hat _ hstmt hs hlive :=
    ⟨hat.call.1, clearing.running hat hat.call.2 hlive hstmt (by simp) hs⟩
  replied _ _ _ _ _ _ _ _ _ hat _ hstmt hcommit hs hlive hnext :=
    ⟨hat.call.1.replied hat hlive hstmt hs hnext,
      clearing.replied hat hat.call.2 hlive hstmt hcommit hs hnext⟩
  outside s i call c m pc hat _ _ hout :=
    ⟨hat.shared, ⟨hat.call.1.of_outside hout, clearedAt_of_not fun done cond =>
      clearing.outside i _ _ _ _ _ done cond hout⟩, fun _ _ _ _ h => h⟩
  commit s i call c rows hat _ hstmt hcommits _ hwrote := by
    have hc : Committed cfg call.pc s.db.rows rows := ⟨commit_of_stmt hstmt, hwrote⟩
    have hlive := (thrown_of_commits hcommits).2
    refine ⟨hat.shared.commit hat.call.1 hc, fun pc hnext => ⟨hat.call.1.returned hc hstmt hnext,
      clearedAt_of_not fun done cond => clearing.commit i _ _ _ _ done cond hstmt hnext⟩,
      fun j callj hij hj h => ⟨h.1.commit hc, h.2.mono fun hlivej done cond hclears => ?_⟩⟩
    exact hclears.brings hat.point hat.ok hj hij hlive hlivej hc

theorem holds (h : Reachable (credentials cfg).program.system w) : claims.Holds w :=
  invariant.holds follows (h.mono fun _ _ _ => stepsMeet_true)

/-! ### The commit of a reset -/

theorem token_of_wrote (h : ∀ k, (notes cfg).wrote (.confirmReset reset (.commit true)) k (rows k)
    (rows' k)) : ∃ token : PasswordResetToken, rows ⟨.resetToken, reset.id⟩ = some token ∧
      token.live = true ∧ reset.usedAt < token.expiresAt ∧
      rows' ⟨.resetToken, reset.id⟩ = some (token.used reset.usedAt) := by
  have hw := h ⟨.resetToken, reset.id⟩
  simp [notes, Lib.Logs.notesOf, written, resetWrote] at hw
  obtain ⟨between, hmust, hmay⟩ := hw
  rcases Update.must_cases hmust with ⟨hne, -⟩ | ⟨-, token, hbefore, hcond, rfl⟩
  · exact absurd rfl hne
  · obtain ⟨-, -, hlive, hdate⟩ := of_decide_eq_true hcond
    rcases Update.may_cases hmay with hafter | ⟨token', -, hother, -⟩
    · exact ⟨token, hbefore, hlive, hdate, hafter⟩
    · exact absurd rfl (of_decide_eq_true hother).2.1

theorem challenge_of_wrote (h : ∀ k, (notes cfg).wrote (.confirmReset reset (.commit true)) k
    (rows k) (rows' k)) : ∃ challenge : OtpChallenge,
      rows ⟨.challenge, reset.token.otpChallengeId⟩ = some challenge ∧
      challenge.unconsumed = true ∧
      rows' ⟨.challenge, reset.token.otpChallengeId⟩ = some (challenge.consumed reset.usedAt) := by
  have hw := h ⟨.challenge, reset.token.otpChallengeId⟩
  simp [notes, Lib.Logs.notesOf, written, resetWrote] at hw
  rcases Update.must_cases hw with ⟨hne, -⟩ | ⟨-, challenge, hbefore, hcond, hafter⟩
  · exact absurd rfl hne
  · exact ⟨challenge, hbefore, (of_decide_eq_true hcond).2, hafter⟩

theorem user_of_wrote (h : ∀ k, (notes cfg).wrote (.confirmReset reset (.commit true)) k (rows k)
    (rows' k)) : ∃ user : User, rows ⟨.user, reset.token.userId⟩ = some user ∧ user.active = true ∧
      rows' ⟨.user, reset.token.userId⟩ = some (user.withPassword reset.passwordHash none) := by
  have hw := h ⟨.user, reset.token.userId⟩
  simp [notes, Lib.Logs.notesOf, written, resetWrote] at hw
  rcases Update.must_cases hw with ⟨hne, -⟩ | ⟨-, user, hbefore, hcond, hafter⟩
  · exact absurd rfl hne
  · exact ⟨user, hbefore, (of_decide_eq_true hcond).2, hafter⟩

/-- **The commit that changes the password** uses the token and its challenge, and leaves no session
and no refresh token of the user. -/
theorem Resets.resetCommit (h : Reachable (credentials cfg).program.system w)
    (hr : Resets cfg w w' i c reset) :
    ResetCommit w.shared.db.rows w'.shared.db.rows reset := by
  obtain ⟨tx, hproc⟩ := hr.proc
  have hcommit := follows.commits h hproc rfl hr.executed hr.next
  have hlive := (thrown_of_commits hr.executed).2
  obtain ⟨⟨row, hrow, huser, hchallenge⟩, hcleared⟩ := (holds h).2 i _ hproc
  have hclear {cond : ∀ k, CredentialRow k → Bool}
      (hc : Clears (.confirmReset reset (.commit true)) true cond) (k : CredentialKey)
      (v : CredentialRow k) (hv : w'.shared.db.rows k = some v) : cond k v = false :=
    (hcleared hlive true cond hc).2 rfl k v ((congrFun hcommit.rows k).symm.trans hv)
  refine ⟨?_, challenge_of_wrote hcommit.wrote, user_of_wrote hcommit.wrote, ?_, ?_⟩
  · obtain ⟨token, hbefore, htoken, hdate, hafter⟩ := token_of_wrote hcommit.wrote
    obtain rfl := some.inj (hrow.symm.trans hbefore)
    exact ⟨row, hrow, huser, hchallenge, htoken, hdate, hafter⟩
  · intro id session hsession husers
    have hno := hclear (.sessionsBefore (.inr (.inr rfl))) ⟨.session, id⟩ session hsession
    have hno : reset.revokeSessions.cond id session = false := whereIn_self.symm.trans hno
    simpa [Reset.revokeSessions, husers] using hno
  · intro id token htoken husers
    have hno := hclear (.tokensBefore (.inr rfl)) ⟨.refreshToken, id⟩ token htoken
    have hno : reset.revokeTokens.cond id token = false := whereIn_self.symm.trans hno
    simpa [Reset.revokeTokens, husers] using hno

/-- A password changes by a reset, or by `changePassword`. -/
theorem password_changes (h : Reachable (credentials cfg).program.system w) {l : CredentialLabel}
    {userId : ℕ} (hn : (credentials cfg).program.next w l = some w')
    (hne : passwordOf w' userId ≠ passwordOf w userId) :
    (∃ i c reset, l = .step i c ∧ Resets cfg w w' i c reset ∧ reset.token.userId = userId) ∨
      ∃ i c change revokedAt tx, l = .step i c ∧ change.userId = userId ∧
        w.proc? i = some ⟨.changePassword change (.commit revokedAt), tx⟩ := by
  rcases follows.rows_of_next h hn with hrows | ⟨i, c, ⟨pc, tx⟩, rfl, hcommit⟩
  · refine absurd ?_ hne
    unfold passwordOf
    rw [hrows]
  · have hw := commit_user (commit_of_stmt hcommit.stmt) (hcommit.wrote ⟨.user, userId⟩)
    unfold passwordOf at hne
    generalize w.shared.db.rows ⟨.user, userId⟩ = before at hw hne
    generalize w'.shared.db.rows ⟨.user, userId⟩ = after at hw hne
    cases hw with
    | same => exact absurd rfl hne
    | kept hsame _ _ => exact absurd hsame hne
    | @changed change revokedAt user hpc hid =>
      subst hpc
      exact .inr ⟨i, c, change, revokedAt, tx, rfl, hid.symm, hcommit.proc⟩
    | @reset reset user hpc hid _ =>
      subst hpc
      exact .inl ⟨i, c, reset, rfl, ⟨⟨tx, hcommit.proc⟩, hcommit.executed, hn⟩, hid.symm⟩

/-! ### A token is used once -/

/-- A token that has been used or superseded. -/
def Spent (id : ℕ) (rows : CredentialRows) : Prop :=
  ∃ token : PasswordResetToken, rows ⟨.resetToken, id⟩ = some token ∧ token.live = false

theorem Spent.commit {id : ℕ} (h : Spent id rows) (hc : Committed cfg pc rows rows') :
    Spent id rows' := by
  obtain ⟨token, htoken, hspent⟩ := h
  have hw := hc.resetToken id
  rw [htoken] at hw
  generalize hafter : rows' ⟨.resetToken, id⟩ = after at hw
  cases hw with
  | same => exact ⟨token, hafter, hspent⟩
  | superseded hlive | used _ _ _ hlive _ =>
    rw [hspent] at hlive
    cases hlive

theorem spent_path {id : ℕ} (h : Reachable (credentials cfg).program.system w)
    (hspent : Spent id w.shared.db.rows)
    (p : Path (credentials cfg).program.system anyStep w w') : Spent id w'.shared.db.rows := by
  have inv : Preserved (credentials cfg) (notes cfg) (fun _ _ _ _ => True)
      ⟨fun v => Spent id v.rows, fun _ _ _ _ => True⟩ w.fresh :=
    Preserved.of_rows fun pc rows rows' hstmt hwrote hold =>
      @Spent.commit cfg _ _ _ _ hold ⟨commit_of_stmt hstmt, hwrote⟩
  exact (inv.path follows h ⟨hspent, fun _ _ _ => trivial⟩
    (p.mono fun _ _ _ => stepsMeet_true)).1

/-! ### Older tokens are superseded -/

/-- The token `id` is one that the reset has to supersede. -/
def older (reset : Reset) (id : ℕ) : ∀ k, CredentialRow k → Bool :=
  whereIn .resetToken fun id' token => id' = id ∧ reset.supersede.cond id' token

/-- The call `i` supersedes the token, or has done so. -/
inductive Supersedes (i : ℕ) (reset : Reset) (id : ℕ) :
    ℕ → CredentialPc → Bool → (∀ k, CredentialRow k → Bool) → Prop
  | superseding : Supersedes i reset id i (.confirmReset reset .supersede) false (older reset id)
  | superseded : Supersedes i reset id i (.confirmReset reset (.commit true)) true (older reset id)

theorem older_found {id : ℕ} {k : CredentialKey} {v : CredentialRow k}
    (h : older reset id k v = true) : reset.supersede.found k v = true := by
  obtain ⟨id', token, rfl, hrow, hcond⟩ := whereIn_eq_true h
  obtain rfl := eq_of_heq hrow
  exact whereIn_self.trans (of_decide_eq_true hcond).2

theorem Supersedes.cond_eq {id : ℕ} (h : Supersedes i reset id j pc done cond) :
    cond = older reset id := by
  cases h <;> rfl

theorem Supersedes.written_ne_nil {id : ℕ} (h : Supersedes i reset id j pc done cond) :
    written cfg pc ≠ [] := by
  cases h <;> simp [written, resetWrote]

theorem superseding {id : ℕ} : Clearing (credentials cfg) (Supersedes i reset id) where
  start j now spawn done cond h := by
    obtain ⟨request, draws⟩ := spawn
    change Supersedes i reset id j (startPc cfg.R now draws request) done cond at h
    cases request <;> cases h
  thrown _ _ _ _ h := by cases h
  outside _ _ _ _ _ _ _ _ hout h := h.written_ne_nil (written_of_outside hout).2
  commit _ _ _ _ _ _ _ hstmt hnext h :=
    h.written_ne_nil (written_of_commit (commit_of_stmt hstmt) hnext)
  updates _ _ _ h := by
    cases h
    refine ⟨_, _, rfl, fun _ _ => older_found, setIn_falsifies fun id' token => ?_⟩
    simp [Reset.supersede, PasswordResetToken.superseded, PasswordResetToken.live]
  leaves _ _ _ _ h hstmt := by
    cases h
    obtain rfl := some.inj hstmt
    trivial
  next _ _ _ _ _ _ _ hnext h := by
    cases h with
    | superseding => exact .inl rfl
    | superseded =>
      obtain ⟨pc₁, rfl, hn⟩ := reset_of_next hnext
      cases hn
      exact .inr ⟨_, .superseding⟩

variable {token : PasswordResetToken}

theorem older_brings {id : ℕ} {tx : Tx CredentialRow} (h : Known rows id token)
    (hc : Committed cfg pc rows rows') : Brings rows rows' tx (older reset id) := by
  intro k v _ hv hcond
  obtain ⟨id', token', rfl, hrow, hcond'⟩ := whereIn_eq_true hcond
  obtain rfl := eq_of_heq hrow
  obtain ⟨rfl, hsupersede⟩ := of_decide_eq_true hcond'
  obtain ⟨-, -, hlive⟩ := of_decide_eq_true hsupersede
  obtain ⟨row, hfound, -, -⟩ := h
  have hw := hc.resetToken id'
  rw [hfound, hv] at hw
  generalize hbefore : some row = before at hw
  generalize hafter : some v = after at hw
  cases hw with
  | same => exact ⟨v, hfound.trans (hbefore.trans hafter.symm), hcond⟩
  | superseded _ | used _ _ _ _ _ =>
    obtain rfl := some.inj hafter
    simp [PasswordResetToken.superseded, PasswordResetToken.used, PasswordResetToken.live] at hlive
  | issued _ _ => cases hbefore

def olderClaims (i : ℕ) (reset : Reset) (id : ℕ) (token : PasswordResetToken) :
    Claims CredentialRow CredentialPc Ledger where
  shared v := Known v.rows id token
  call j aborted call v := ClearedAt (Supersedes i reset id) j aborted call v.rows

theorem olderClaims_preserved {id first : ℕ} :
    Preserved (credentials cfg) (notes cfg) (fun _ _ _ _ => True) (olderClaims i reset id token)
      first where
  tick _ _ := ⟨fun h => h, fun _ _ _ h => h⟩
  abort _ _ _ _ := .aborted
  event _ e := e.elim
  start j b v x _ _ := clearedAt_of_not fun done cond => superseding.start j v.now x done cond
  thrown _ _ _ _ _ := clearedAt_of_not nofun
  running _ _ _ _ _ _ _ _ hat _ hstmt hs hlive :=
    superseding.running hat hat.call hlive hstmt (by simp) hs
  replied _ _ _ _ _ _ _ _ _ hat _ hstmt hcommit hs hlive hnext :=
    superseding.replied hat hat.call hlive hstmt hcommit hs hnext
  outside s j call c m pc hat _ _ hout :=
    ⟨hat.shared, clearedAt_of_not fun done cond => superseding.outside j _ _ _ _ _ done cond hout,
      fun _ _ _ _ h => h⟩
  commit s j call c rows hat _ hstmt hcommits _ hwrote := by
    have hc : Committed cfg call.pc s.db.rows rows := ⟨commit_of_stmt hstmt, hwrote⟩
    have hknown : Known s.db.rows id token := hat.shared
    refine ⟨hknown.commit hc, fun pc hnext => clearedAt_of_not fun done cond =>
      superseding.commit j _ _ _ _ done cond hstmt hnext,
      fun j' callj _ _ h => h.mono fun _ done cond hclears => ?_⟩
    rw [hclears.cond_eq]
    exact older_brings hknown hc

/-- **The commit that changes the password** leaves no token live that was there when the call started
to supersede the tokens of the user. -/
theorem Resets.superseded (h : Reachable (credentials cfg).program.system w)
    (hr : Resets cfg w w' i c reset) {w₀ : CredentialWorld} {tx : Tx CredentialRow}
    (h₀ : Reachable (credentials cfg).program.system w₀)
    (p : Path (credentials cfg).program.system anyStep w₀ w)
    (hproc₀ : w₀.proc? i = some ⟨.confirmReset reset .supersede, tx⟩)
    (hpending : tx.pending = none) {id : ℕ}
    (htoken : w₀.shared.db.rows ⟨.resetToken, id⟩ = some token)
    (huser : token.userId = reset.token.userId) (hid : id ≠ reset.id) :
    Spent id w'.shared.db.rows := by
  have hstart : (olderClaims i reset id token).Holds w₀ := by
    refine ⟨⟨token, htoken, rfl, rfl⟩, fun j call hp _ done cond hclears => ?_⟩
    generalize hpc : call.pc = pc at hclears
    cases hclears with
    | superseding =>
      obtain rfl := some.inj (hproc₀.symm.trans hp)
      exact ⟨fun _ hno => absurd hpending hno, nofun⟩
    | superseded =>
      obtain rfl := some.inj (hproc₀.symm.trans hp)
      cases hpc
  have hend := olderClaims_preserved.path follows h₀ hstart (p.mono fun _ _ _ => stepsMeet_true)
  obtain ⟨tx', hproc⟩ := hr.proc
  have hcommit := follows.commits h hproc rfl hr.executed hr.next
  have hknown : Known w.shared.db.rows id token := hend.1
  have hc : Committed cfg (.confirmReset reset (.commit true)) w.shared.db.rows w'.shared.db.rows :=
    ⟨.confirmReset, hcommit.wrote⟩
  obtain ⟨token', htoken', huser', -⟩ := hknown.commit hc
  refine ⟨token', htoken', ?_⟩
  have hclear := (hend.2 i _ hproc (thrown_of_commits hr.executed).2 true _ .superseded).2 rfl
    ⟨.resetToken, id⟩ token' ((congrFun hcommit.rows _).symm.trans htoken')
  have hno : decide (id = id ∧ reset.supersede.cond id token') = false :=
    whereIn_self.symm.trans hclear
  simpa [Reset.supersede, huser'.trans huser, hid] using hno

/-! ### A call without success -/

/-- The program points of `confirmPasswordReset`. -/
def ConfirmPc : CredentialPc → Prop
  | .findResetToken .. | .hashPassword .. | .confirmReset .. | .returned _ | .thrown _ => True
  | _ => False

theorem ConfirmPc.of_next (hnext : credentialNext cfg site pc reply = some (.ok pc'))
    (h : ConfirmPc pc) : ConfirmPc pc' := by
  cases pc with
  | findResetToken draws resetToken newPassword now =>
    cases reply with
    | rows rows =>
      obtain ⟨pc₁, hfound, he⟩ := Option.map_eq_some_iff.mp hnext
      obtain rfl := Except.ok.inj he
      obtain ⟨token, -, rfl⟩ := Option.map_eq_some_iff.mp hfound
      cases token with
      | none => trivial
      | some token =>
        dsimp only
        split_ifs <;> trivial
    | count _ | done => cases hnext
  | confirmReset reset rpc => rcases reset_stays hnext with ⟨_, rfl⟩ | ⟨_, rfl⟩ <;> trivial
  | hashPassword | returned | thrown => cases hnext
  | _ => exact h.elim

theorem ConfirmPc.of_outside {ledger ledger' : Ledger}
    (hout : credentialOutside cfg site ledger pc = some (ledger', pc')) (h : ConfirmPc pc) :
    ConfirmPc pc' := by
  cases pc with
  | hashPassword draws token newPassword =>
    obtain ⟨-, rfl⟩ := pair_inj hout
    trivial
  | findResetToken | confirmReset | returned | thrown => cases hout
  | _ => exact h.elim

theorem Confirms.confirmPc (h : Confirms cfg w i) {call : CredentialCall}
    (hp : w.proc? i = some call) : ConfirmPc call.pc := by
  obtain ⟨w₀, w₁, resetToken, newPassword, draws, h₀, hspawn, rfl, p⟩ := h
  have h₁ : Reachable (credentials cfg).program.system w₁ :=
    @ReachableBy.step _ _ _ _ _ _ (.spawn _) h₀ trivial hspawn
  obtain rfl := some.inj hspawn
  refine ((Preserved.of_points (Q := fun j pc => j = w₀.fresh → ConfirmPc pc) ?_ ?_ ?_ ?_).path
    follows h₁ ⟨trivial, fun j call hj hfresh => ?_⟩ (p.mono fun _ _ _ => stepsMeet_true)).2
    w₀.fresh call hp rfl
  · intro j now x hj hfresh
    rw [World.fresh_add] at hj
    omega
  · exact fun _ _ _ => trivial
  · exact fun _ _ _ _ _ hnext h hj => (h hj).of_next hnext
  · exact fun _ _ _ _ _ _ hout h hj => (h hj).of_outside hout
  · rcases World.proc?_add_cases hj with ⟨-, rfl⟩ | ⟨hne, -⟩
    · trivial
    · exact absurd hfresh hne

/-- **A call without success** has changed nothing, but by a commit whose reply is lost. -/
theorem unchanged (h : Reachable (credentials cfg).program.system w) (hi : Confirms cfg w i)
    (hn : (credentials cfg).program.next w (.step i c) = some w') (hlost : ∀ e, c.fate ≠ .lost e)
    {w₁ : CredentialWorld} {call : CredentialCall}
    (p : Path (credentials cfg).program.system anyStep w' w₁) (hp : w₁.proc? i = some call)
    (hcall : Unsuccessful call.pc) : w'.shared.db.rows = w.shared.db.rows := by
  rcases follows.rows_of_next h hn with hrows | ⟨j, c', before, he, hcommit⟩
  · exact hrows
  obtain ⟨rfl, rfl⟩ := Label.step.inj he
  have hpc := hi.confirmPc hcommit.proc
  have hwrote := hcommit.wrote
  obtain ⟨pc, tx⟩ := before
  cases commit_of_stmt hcommit.stmt with
  | notReset => exact funext fun k => hwrote k
  | confirmReset =>
    obtain ⟨after, hafter, hreturned⟩ := hcommit.replied hlost hn rfl
    have hstop : (credentials cfg).stmt after.pc = none ∧
        ∀ site m, (credentials cfg).outside site m after.pc = none := by
      rw [hreturned]
      exact ⟨rfl, fun _ _ => rfl⟩
    obtain rfl := Service.stays hafter hstop.1 hstop.2 p call hp
    rw [hreturned] at hcall
    rcases hcall with he | ⟨e, he⟩ <;> cases he
  | _ => exact hpc.elim

/-- **The chain of a password reset**, in every interleaving. -/
theorem reset_chain (h : Reachable (credentials cfg).program.system w) : Chain cfg w where
  attempts id challenge hfound := by
    have hok := (holds h).1.challenges id challenge hfound
    exact ⟨hok.attempts, hok.locked⟩
  single := (holds h).1.single
  passwords _ _ _ hn hne := password_changes h hn hne
  committed _ _ _ _ hr := hr.resetCommit h
  superseded _ _ _ _ hr _ _ h₀ p hproc hpending _ _ htoken huser hid :=
    hr.superseded h h₀ p hproc hpending htoken huser hid
  once w' i c reset hr w₁ w₂ i₁ c₁ reset₁ p hr₁ he := by
    have h' : Reachable (credentials cfg).program.system w' :=
      @ReachableBy.step _ _ _ _ _ _ (.step i c) h trivial hr.next
    obtain ⟨token, -, -, -, -, -, hused⟩ := (hr.resetCommit h).token
    obtain ⟨token₁, hfound, hspent⟩ := spent_path h' ⟨_, hused, by simp [PasswordResetToken.used,
      PasswordResetToken.live]⟩ p
    obtain ⟨token₂, hfound₂, -, -, hlive, -⟩ := (hr₁.resetCommit (h'.path p)).token
    rw [he, hfound] at hfound₂
    obtain rfl := some.inj hfound₂
    rw [hspent] at hlive
    cases hlive
  unchanged _ _ _ hi hn hlost _ _ p hp hcall := unchanged h hi hn hlost p hp hcall

/-! ### Runs -/

def request : CredentialLabel := .spawn ⟨.requestPasswordReset "user@example.com", { code := "1" }⟩

def verify : CredentialLabel :=
  .spawn ⟨.verifyPasswordResetOtp "user@example.com" "1", { resetToken := "token" }⟩

def confirm : CredentialLabel := .spawn ⟨.confirmPasswordReset "token" "new", {}⟩

/-- The three calls, up to the commit of the last one. -/
def chain : List CredentialLabel :=
  [request] ++ steps 0 4 ++ [verify] ++ steps 1 10 ++ [confirm] ++ steps 2 17

/-- The reset that a call is about to commit. -/
def committing : CredentialPc → Option Reset
  | .confirmReset reset (.commit true) => some reset
  | _ => none

theorem committing_eq {reset : Reset} (h : committing pc = some reset) :
    pc = .confirmReset reset (.commit true) := by
  unfold committing at h
  split at h
  · rw [some.inj h]
  · cases h

/-- The call is about to commit a reset of the first user, and the step with this choice changes the
password. -/
def changes (c : Choice Thrown) (w : CredentialWorld) : Bool :=
  (w.proc? 2).any (fun call => (committing call.pc).isSome) &&
    commits w.shared.db 2 .commit c.fate &&
    ((credentials exampleConfig).program.next w (.step 2 c)).any fun w' =>
      decide (passwordOf w' 0 ≠ passwordOf w 0)

theorem resets_of_changes {w : CredentialWorld} (h : changes c w = true) :
    ∃ w' reset, Resets exampleConfig w w' 2 c reset ∧ passwordOf w' 0 ≠ passwordOf w 0 := by
  unfold changes at h
  simp only [Bool.and_eq_true] at h
  obtain ⟨⟨hcall, hexecuted⟩, hnext⟩ := h
  obtain ⟨call, hproc, hpc⟩ := (Option.any_eq_true _ _).mp hcall
  obtain ⟨reset, hreset⟩ := Option.isSome_iff_exists.mp hpc
  obtain ⟨w', hstep, hpassword⟩ := (Option.any_eq_true _ _).mp hnext
  obtain ⟨pc, tx⟩ := call
  obtain rfl := committing_eq hreset
  exact ⟨w', reset, ⟨⟨tx, hproc⟩, hexecuted, hstep⟩, of_decide_eq_true hpassword⟩

/-- The chain up to the commit that changes the password. -/
theorem reset_chain_changes : ∃ w w' : CredentialWorld, ∃ reset,
    Resets exampleConfig w w' 2 {} reset ∧ passwordOf w' 0 ≠ passwordOf w 0 ∧
      Chain exampleConfig w := by
  obtain ⟨w, hw, hchanges⟩ := (credentials exampleConfig).program.exists_reached anyStep chain
    (fun w => changes {} w = true) (by decide)
  obtain ⟨w', reset, hr, hpassword⟩ := resets_of_changes hchanges
  exact ⟨w, w', reset, hr, hpassword, reset_chain hw⟩

/-- The token of the reset has expired, and the step with this choice lets the call throw. -/
def throwsLate (c : Choice Thrown) (w : CredentialWorld) : Bool :=
  (w.proc? 2).any (fun call => (committing call.pc).any fun reset =>
    Option.any (fun token => decide (PasswordResetToken.expiresAt token ≤ w.shared.now))
      (w.shared.db.rows ⟨.resetToken, reset.id⟩)) &&
    ((credentials exampleConfig).program.next w (.step 2 c)).any fun w' =>
      (w'.proc? 2).any fun call => decide (call.pc = .thrown (.error "connection lost"))

def lost : Choice Thrown := { fate := .lost (.error "connection lost") }

/-- **A late commit with a lost reply.** The token has expired when the commit is executed, the call
throws, and the password is changed. -/
theorem late_commit : ∃ w w' : CredentialWorld, ∃ reset token call,
    Reachable (credentials exampleConfig).program.system w ∧
      Resets exampleConfig w w' 2 lost reset ∧
      w.shared.db.rows ⟨.resetToken, reset.id⟩ = some token ∧
      PasswordResetToken.expiresAt token ≤ w.shared.now ∧
      w'.proc? 2 = some call ∧ Unsuccessful call.pc ∧ passwordOf w' 0 ≠ passwordOf w 0 := by
  obtain ⟨w, hw, hchanges, hlate⟩ := (credentials exampleConfig).program.exists_reached anyStep
    (chain ++ [.env (.tick 900000)]) (fun w => changes lost w = true ∧ throwsLate lost w = true)
    (by decide)
  obtain ⟨w', reset, hr, hpassword⟩ := resets_of_changes hchanges
  unfold throwsLate at hlate
  simp only [Bool.and_eq_true] at hlate
  obtain ⟨hexpired, hthrows⟩ := hlate
  obtain ⟨tx, hproc⟩ := hr.proc
  rw [hproc] at hexpired
  change Option.any _ (w.shared.db.rows ⟨.resetToken, reset.id⟩) = true at hexpired
  obtain ⟨token, htoken, hdate⟩ := (Option.any_eq_true _ _).mp hexpired
  rw [show (credentials exampleConfig).program.next w (.step 2 lost) = some w' from hr.next]
    at hthrows
  change Option.any _ (w'.proc? 2) = true at hthrows
  obtain ⟨call, hcall, hpc⟩ := (Option.any_eq_true _ _).mp hthrows
  exact ⟨w, w', reset, token, call, hw, hr, htoken, of_decide_eq_true hdate, hcall,
    .inr ⟨_, of_decide_eq_true hpc⟩, hpassword⟩

end BackendFoundation.Auth.ResetChain
