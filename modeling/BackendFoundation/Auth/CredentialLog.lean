import BackendFoundation.Auth.CredentialModel
import BackendFoundation.Lib.Logs

/-! # What the calls on credentials write

`written` says, for each program point, what the transaction of the call has written; `follows` is
that the statements lead from one to the next. What a commit does is then said table by table:
`commit_user`, `commit_session`, `commit_refreshToken`, `commit_challenge` and
`commit_resetToken`. -/

namespace BackendFoundation.Auth.CredentialLog

open Lib.Database Lib.Transact Lib.WriteLog Lib.Schema Lib.Services Lib.Logs Lib.Rows Errors Crypto
open Lib.Runs
open Auth.CredentialModel
open Auth.SessionModel (UserStatus)
open Auth.AccountModel (OtpChannel)
open Option (some.inj map_eq_some_iff)

/-! ### The notes -/

abbrev CredentialEntry := Entry CredentialRow

section Notes

variable (cfg : CredentialConfig)

def sessionWrote (draws : Draws) (input : NewSession) : SessionPc → List CredentialEntry
  | .insertSession => []
  | .insertToken => [New .session draws.sessionId input.session]
  | .touchUser _ =>
    [New .session draws.sessionId input.session,
      New .refreshToken draws.refreshTokenId (input.refreshToken cfg draws)]
  | .commit lastLoginAt =>
    [New .session draws.sessionId input.session,
      New .refreshToken draws.refreshTokenId (input.refreshToken cfg draws),
      (input.touchUser lastLoginAt).must input.userId]

def changeWrote (change : PasswordChange) : ChangePc → List CredentialEntry
  | .updateUser => []
  | .revokeSessions _ => [change.updateUser.must change.userId]
  | .revokeTokens revokedAt =>
    [change.updateUser.must change.userId, (change.revokeSessions revokedAt).may]
  | .commit revokedAt =>
    [change.updateUser.must change.userId, (change.revokeSessions revokedAt).may,
      (change.revokeTokens revokedAt).may]

def otpWrote (accepted : Accepted) (consumedAt : ℕ) (purpose : OtpPurpose) :
    OtpPc → List CredentialEntry
  | .consume => []
  | .readUser | .updateUser _ _ => [(accepted.consumeOtp consumedAt).must accepted.challengeId]
  | .commit none _ => [(accepted.consumeOtp consumedAt).must accepted.challengeId]
  | .commit (some (status, verifiedAt)) _ =>
    [(accepted.consumeOtp consumedAt).must accepted.challengeId,
      (accepted.verifyUser purpose status verifiedAt).may]

def issueWrote (draws : Draws) (accepted : Accepted) (verifiedAt : ℕ) :
    IssuePc → List CredentialEntry
  | .verify | .commit false => []
  | .supersede => [(accepted.verify verifiedAt).must accepted.challengeId]
  | .insertToken =>
    [(accepted.verify verifiedAt).must accepted.challengeId, (accepted.supersede verifiedAt).may]
  | .commit true =>
    [(accepted.verify verifiedAt).must accepted.challengeId, (accepted.supersede verifiedAt).may,
      New .resetToken draws.resetTokenId (accepted.resetToken cfg draws)]

def emailWrote (accepted : Accepted) (consumedAt : ℕ) (newEmail : String) :
    EmailPc → List CredentialEntry
  | .consume | .commitUnchanged => []
  | .updateUser _ | .commitBlocked =>
    [(accepted.consumeChange consumedAt).must accepted.challengeId]
  | .revokeSessions emailVerifiedAt _ =>
    [(accepted.consumeChange consumedAt).must accepted.challengeId,
      (accepted.changeEmail newEmail emailVerifiedAt).must accepted.challenge.userId]
  | .revokeTokens emailVerifiedAt revokedAt _ =>
    [(accepted.consumeChange consumedAt).must accepted.challengeId,
      (accepted.changeEmail newEmail emailVerifiedAt).must accepted.challenge.userId,
      (accepted.revokeSessions revokedAt).may]
  | .commit emailVerifiedAt revokedAt tokensAt =>
    [(accepted.consumeChange consumedAt).must accepted.challengeId,
      (accepted.changeEmail newEmail emailVerifiedAt).must accepted.challenge.userId,
      (accepted.revokeSessions revokedAt).may, (accepted.revokeTokens tokensAt).may]

def resetWrote (reset : Reset) : ResetPc → List CredentialEntry
  | .useToken | .commit false => []
  | .consumeChallenge => [reset.useToken.must reset.id]
  | .updateUser =>
    [reset.useToken.must reset.id, reset.consumeChallenge.must reset.token.otpChallengeId]
  | .revokeSessions =>
    [reset.useToken.must reset.id, reset.consumeChallenge.must reset.token.otpChallengeId,
      reset.updateUser.must reset.token.userId]
  | .revokeTokens =>
    [reset.useToken.must reset.id, reset.consumeChallenge.must reset.token.otpChallengeId,
      reset.updateUser.must reset.token.userId, reset.revokeSessions.may]
  | .supersede =>
    [reset.useToken.must reset.id, reset.consumeChallenge.must reset.token.otpChallengeId,
      reset.updateUser.must reset.token.userId, reset.revokeSessions.may, reset.revokeTokens.may]
  | .commit true =>
    [reset.useToken.must reset.id, reset.consumeChallenge.must reset.token.otpChallengeId,
      reset.updateUser.must reset.token.userId, reset.revokeSessions.may, reset.revokeTokens.may,
      reset.supersede.may]

/-- What the statements of the transaction have written so far. -/
def written : CredentialPc → List CredentialEntry
  | .createSession draws input pc => sessionWrote cfg draws input pc
  | .changePassword change pc => changeWrote change pc
  | .insertChallenge _ challenge =>
    [(setPending challenge.userId challenge.normalizedDestination).may]
  | .commitChallenge challengeId challenge =>
    [(setPending challenge.userId challenge.normalizedDestination).may,
      New .challenge challengeId challenge]
  | .verifyOtp _ accepted consumedAt purpose pc => otpWrote accepted consumedAt purpose pc
  | .issueReset draws accepted verifiedAt pc => issueWrote cfg draws accepted verifiedAt pc
  | .changeEmail accepted consumedAt newEmail pc => emailWrote accepted consumedAt newEmail pc
  | .commitInvalid challengeId _ now => [(countAttempt challengeId now).may]
  | .confirmReset reset pc => resetWrote reset pc
  | _ => []

def notes : Notes CredentialRow CredentialPc := notesOf (written cfg) fun _ => []

end Notes

/-! ### The statements lead from one note to the next -/

variable {cfg : CredentialConfig} {site : Site CredentialKey} {reply : Reply CredentialRow}
  {pc' : CredentialPc} {k : CredentialKey} {before between after : Option (CredentialRow k)}

theorem ok_of_required {n : ℕ} {pc : CredentialPc} (h : required n pc = some (.ok pc')) :
    n ≠ 0 ∧ pc' = pc := by
  unfold required at h
  split_ifs at h with hn
  · cases h
  · exact ⟨hn, (point_inj h).symm⟩

theorem session_leads {draws : Draws} {input : NewSession} {pc : SessionPc}
    (h : sessionNext site draws input pc reply = some (.ok pc')) :
    Leads (sessionWrote cfg draws input pc) (sessionStmt cfg draws input pc) reply (written cfg pc') := by
  unfold sessionNext at h
  split at h
  · obtain rfl := point_inj h
    exact .write fun _ _ _ => effect_new
  · obtain rfl := point_inj h
    exact .write fun _ _ _ => effect_new
  · obtain ⟨hn, rfl⟩ := ok_of_required h
    exact .must hn fun _ _ hu => (of_decide_eq_true hu).1
  · exact .commit
  · cases h

theorem change_leads {change : PasswordChange} {pc : ChangePc}
    (h : changeNext site change pc reply = some (.ok pc')) :
    Leads (changeWrote change pc) (changeStmt change pc) reply (written cfg pc') := by
  unfold changeNext at h
  split at h
  · obtain ⟨hn, rfl⟩ := ok_of_required h
    exact .must hn fun _ _ hu => (of_decide_eq_true hu).1
  · obtain rfl := point_inj h
    exact .may
  · obtain rfl := point_inj h
    exact .may
  · exact .commit
  · cases h

theorem otp_leads {draws : Draws} {accepted : Accepted} {consumedAt : ℕ} {purpose : OtpPurpose}
    {pc : OtpPc}
    (h : otpNext cfg site draws accepted consumedAt purpose pc reply = some (.ok pc')) :
    Leads (otpWrote accepted consumedAt purpose pc) (otpStmt accepted consumedAt purpose pc)
      reply (written cfg pc') := by
  unfold otpNext at h
  split at h
  · split_ifs at h with hn
    · cases h
    obtain rfl := point_inj h
    exact .must (by omega) fun _ _ hu => (of_decide_eq_true hu).1
  · obtain rfl := point_inj h
    have hw (rows : CredentialRows) : otpWrote accepted consumedAt purpose
        (otpUser site accepted purpose rows) = otpWrote accepted consumedAt purpose .readUser := by
      unfold otpUser
      split
      · rfl
      · split_ifs <;> rfl
    rw [written, hw]
    exact .read
  · obtain rfl := point_inj h
    exact .may
  · exact .commit
  · cases h

theorem issue_leads {draws : Draws} {accepted : Accepted} {verifiedAt : ℕ} {pc : IssuePc}
    (h : issueNext cfg draws accepted verifiedAt pc reply = some (.ok pc')) :
    Leads (issueWrote cfg draws accepted verifiedAt pc)
      (issueStmt cfg draws accepted verifiedAt pc) reply (written cfg pc') := by
  unfold issueNext at h
  split at h
  · obtain rfl := point_inj h
    split_ifs with hn
    · exact .missed hn fun _ _ hu => (of_decide_eq_true hu).1
    · exact .must (by omega) fun _ _ hu => (of_decide_eq_true hu).1
  · obtain rfl := point_inj h
    exact .may
  · obtain rfl := point_inj h
    exact .write fun _ _ _ => effect_new
  · exact .commit
  · cases h

theorem email_leads {accepted : Accepted} {consumedAt : ℕ} {newEmail : String} {pc : EmailPc}
    (h : emailNext site accepted consumedAt newEmail pc reply = some (.ok pc')) :
    Leads (emailWrote accepted consumedAt newEmail pc)
      (emailStmt accepted consumedAt newEmail pc) reply (written cfg pc') := by
  unfold emailNext at h
  split at h
  · obtain rfl := point_inj h
    split_ifs with hn
    · exact .missed hn fun _ _ hu => (of_decide_eq_true hu).1
    · exact .must (by omega) fun _ _ hu => (of_decide_eq_true hu).1
  · obtain rfl := point_inj h
    split_ifs with hn
    · exact .missed hn fun _ _ hu => (of_decide_eq_true hu).1
    · exact .must (by omega) fun _ _ hu => (of_decide_eq_true hu).1
  · obtain rfl := point_inj h
    exact .may
  · obtain rfl := point_inj h
    exact .may
  · exact .commit
  · exact .commit
  · exact .commit
  · cases h

theorem reset_leads {reset : Reset} {pc : ResetPc}
    (h : resetNext reset pc reply = some (.ok pc')) :
    Leads (resetWrote reset pc) (resetStmt reset pc) reply (written cfg pc') := by
  unfold resetNext at h
  split at h
  · obtain rfl := point_inj h
    split_ifs with hn
    · exact .missed hn fun _ _ hu => (of_decide_eq_true hu).1
    · exact .must (by omega) fun _ _ hu => (of_decide_eq_true hu).1
  · split_ifs at h with hn
    · cases h
    obtain rfl := point_inj h
    exact .must (by omega) fun _ _ hu => (of_decide_eq_true hu).1
  · split_ifs at h with hn
    · cases h
    obtain rfl := point_inj h
    exact .must (by omega) fun _ _ hu => (of_decide_eq_true hu).1
  · obtain rfl := point_inj h
    exact .may
  · obtain rfl := point_inj h
    exact .may
  · obtain rfl := point_inj h
    exact .may
  · exact .commit
  · cases h

/-! ### Where a call goes on -/

/-- What a query leads to that has found `rows`; the call has written nothing before. -/
inductive Queried (rows : CredentialRows) : CredentialPc → Prop
  | returned {result : CredentialResult} : Queried rows (.returned result)
  | verifyLogin {draws : Draws} {user : Option (ℕ × User)} {password : String} :
      Queried rows (.verifyLogin draws user password)
  | changePassword {change : PasswordChange} : Queried rows (.changePassword change .updateUser)
  | findRecent {draws : Draws} {userId now : ℕ} {destination : String} {channel : OtpChannel}
      {purpose : OtpPurpose} :
      Queried rows (.findRecent draws userId destination channel purpose now)
  | insertChallenge {draws : Draws} {userId : ℕ} {destination : String} {channel : OtpChannel}
      {purpose : OtpPurpose} {site : Site CredentialKey} :
      Queried rows (.insertChallenge draws.challengeId
        (newChallenge site draws userId destination channel purpose))
  | findConflict {draws : Draws} {userId : ℕ} {newEmail : String} :
      Queried rows (.findConflict draws userId newEmail)
  | setPending {draws : Draws} {userId : ℕ} {newEmail : String} :
      Queried rows (.setPending draws userId newEmail)
  | compare {draws : Draws} {guess : Guess} :
      rows ⟨.challenge, guess.challengeId⟩ = some guess.challenge →
      Queried rows (.compare draws guess)
  | hashPassword {draws : Draws} {id : ℕ} {token : PasswordResetToken} {newPassword : String} :
      rows ⟨.resetToken, id⟩ = some token → Queried rows (.hashPassword draws (id, token) newPassword)

section Queries

variable {draws : Draws} {userId now : ℕ} {destination email code : String} {channel : OtpChannel}
  {purpose : OtpPurpose} {rows : CredentialRows}

theorem row_of_findFirst {t : Relation} {cond : ℕ → Row t → Bool} {id : ℕ} {row : Row t}
    (h : findFirst site rows t cond = some (some (id, row))) : rows ⟨t, id⟩ = some row :=
  (mem_findMany.mp (mem_of_pickFirst h)).2.1

theorem row_of_findNewest {cond : ℕ → OtpChallenge → Bool} {id : ℕ} {challenge : OtpChallenge}
    (h : findNewest site rows cond = some (some (id, challenge))) :
    rows ⟨.challenge, id⟩ = some challenge := by
  unfold findNewest at h
  have hmem := List.mem_of_mem_filter (mem_of_pickFirst h)
  exact (mem_findMany.mp hmem).2.1

theorem queried_findPassword {sessionId : ℕ} {currentPassword newPassword : String} :
    Queried rows (findPassword cfg draws userId sessionId currentPassword newPassword rows) := by
  unfold findPassword
  dsimp only
  split_ifs
  · exact .returned
  · exact .changePassword

theorem queried_findRecipient
    (h : findRecipient site draws destination channel purpose rows = some pc') :
    Queried rows pc' := by
  obtain ⟨user, -, rfl⟩ := map_eq_some_iff.mp h
  cases user with
  | none => exact .returned
  | some user => exact .findRecent

theorem queried_findRecent :
    Queried rows (findRecent site draws userId destination channel purpose now rows) := by
  unfold findRecent
  split_ifs
  · exact .returned
  · exact .insertChallenge

theorem queried_confirm {password : Option String} {socialReauth : Bool} :
    Queried rows (confirmRecentCredential draws userId email password socialReauth rows) := by
  unfold confirmRecentCredential
  split
  · exact .returned
  · dsimp only
    split_ifs
    · exact .findConflict
    · exact .returned

theorem queried_findConflict : Queried rows (findConflict site draws userId email rows) := by
  unfold findConflict
  split_ifs
  · exact .returned
  · exact .setPending

theorem queried_findOtp
    (h : findOtp site draws destination channel purpose code rows = some pc') :
    Queried rows pc' := by
  obtain ⟨found, hfound, rfl⟩ := map_eq_some_iff.mp h
  cases found with
  | none => exact .returned
  | some found =>
    dsimp only
    split_ifs
    · exact .returned
    · exact .compare (row_of_findNewest hfound)

theorem queried_findReset (h : findReset site draws email code rows = some pc') :
    Queried rows pc' := by
  obtain ⟨found, hfound, rfl⟩ := map_eq_some_iff.mp h
  cases found with
  | none => exact .returned
  | some found =>
    dsimp only
    split_ifs
    · exact .returned
    · exact .compare (row_of_findNewest hfound)

theorem queried_findChange (h : findChange site draws userId email code now rows = some pc') :
    Queried rows pc' := by
  obtain ⟨found, hfound, rfl⟩ := map_eq_some_iff.mp h
  cases found with
  | none => exact .returned
  | some found => exact .compare (row_of_findNewest hfound)

theorem queried_findResetToken {resetToken newPassword : String}
    (h : findResetToken cfg site draws resetToken newPassword now rows = some pc') :
    Queried rows pc' := by
  obtain ⟨found, hfound, rfl⟩ := map_eq_some_iff.mp h
  cases found with
  | none => exact .returned
  | some found =>
    dsimp only
    split_ifs
    · exact .returned
    · exact .hashPassword (row_of_findFirst hfound)

end Queries

/-- Where a call goes on after a reply. -/
inductive Goes (cfg : CredentialConfig) (site : Site CredentialKey) :
    CredentialPc → Reply CredentialRow → CredentialPc → Prop
  | queried {pc pc' : CredentialPc} {rows : CredentialRows} : credentialStmt cfg pc = some .read →
      written cfg pc = [] → Queried rows pc' → Goes cfg site pc (.rows rows) pc'
  | createSession {draws : Draws} {input : NewSession} {pc : SessionPc}
      {reply : Reply CredentialRow} {pc' : CredentialPc} :
      sessionNext site draws input pc reply = some (.ok pc') →
      Goes cfg site (.createSession draws input pc) reply pc'
  | changePassword {change : PasswordChange} {pc : ChangePc} {reply : Reply CredentialRow}
      {pc' : CredentialPc} : changeNext site change pc reply = some (.ok pc') →
      Goes cfg site (.changePassword change pc) reply pc'
  | setPending {draws : Draws} {userId n : ℕ} {newEmail : String} :
      Goes cfg site (.setPending draws userId newEmail) (.count n)
        (.insertChallenge draws.challengeId
          (newChallenge site draws userId newEmail .email .emailChange))
  | insertChallenge {challengeId : ℕ} {challenge : OtpChallenge} :
      Goes cfg site (.insertChallenge challengeId challenge) .done
        (.commitChallenge challengeId challenge)
  | commitChallenge {challengeId : ℕ} {challenge : OtpChallenge} {result : CredentialResult} :
      Goes cfg site (.commitChallenge challengeId challenge) .done (.returned result)
  | verifyOtp {draws : Draws} {accepted : Accepted} {consumedAt : ℕ} {purpose : OtpPurpose}
      {pc : OtpPc} {reply : Reply CredentialRow} {pc' : CredentialPc} :
      otpNext cfg site draws accepted consumedAt purpose pc reply = some (.ok pc') →
      Goes cfg site (.verifyOtp draws accepted consumedAt purpose pc) reply pc'
  | issueReset {draws : Draws} {accepted : Accepted} {verifiedAt : ℕ} {pc : IssuePc}
      {reply : Reply CredentialRow} {pc' : CredentialPc} :
      issueNext cfg draws accepted verifiedAt pc reply = some (.ok pc') →
      Goes cfg site (.issueReset draws accepted verifiedAt pc) reply pc'
  | changeEmail {accepted : Accepted} {consumedAt : ℕ} {newEmail : String} {pc : EmailPc}
      {reply : Reply CredentialRow} {pc' : CredentialPc} :
      emailNext site accepted consumedAt newEmail pc reply = some (.ok pc') →
      Goes cfg site (.changeEmail accepted consumedAt newEmail pc) reply pc'
  | recordInvalid {challengeId now n : ℕ} {verification : Verification} :
      Goes cfg site (.recordInvalid challengeId verification now) (.count n)
        (.commitInvalid challengeId verification now)
  | commitInvalid {challengeId now : ℕ} {verification : Verification} :
      Goes cfg site (.commitInvalid challengeId verification now) .done
        (.returned verification.refused)
  | confirmReset {reset : Reset} {pc : ResetPc} {reply : Reply CredentialRow}
      {pc' : CredentialPc} : resetNext reset pc reply = some (.ok pc') →
      Goes cfg site (.confirmReset reset pc) reply pc'

/-- **Where a call goes on.** -/
theorem goes_of_next {pc : CredentialPc}
    (h : credentialNext cfg site pc reply = some (.ok pc')) : Goes cfg site pc reply pc' := by
  unfold credentialNext at h
  split at h
  · obtain ⟨user, -, he⟩ := map_eq_some_iff.mp h
    obtain rfl := Except.ok.inj he
    exact .queried rfl rfl .verifyLogin
  · exact .createSession h
  · obtain rfl := point_inj h
    exact .queried rfl rfl queried_findPassword
  · exact .changePassword h
  · obtain ⟨pc₁, hfound, he⟩ := map_eq_some_iff.mp h
    obtain rfl := Except.ok.inj he
    exact .queried rfl rfl (queried_findRecipient hfound)
  · obtain rfl := point_inj h
    exact .queried rfl rfl queried_findRecent
  · obtain rfl := point_inj h
    exact .queried rfl rfl queried_confirm
  · obtain rfl := point_inj h
    exact .queried rfl rfl queried_findConflict
  · obtain ⟨-, rfl⟩ := ok_of_required h
    exact .setPending
  · obtain rfl := point_inj h
    exact .insertChallenge
  · obtain rfl := point_inj h
    exact .commitChallenge
  · obtain ⟨pc₁, hfound, he⟩ := map_eq_some_iff.mp h
    obtain rfl := Except.ok.inj he
    exact .queried rfl rfl (queried_findOtp hfound)
  · obtain ⟨pc₁, hfound, he⟩ := map_eq_some_iff.mp h
    obtain rfl := Except.ok.inj he
    exact .queried rfl rfl (queried_findReset hfound)
  · obtain ⟨pc₁, hfound, he⟩ := map_eq_some_iff.mp h
    obtain rfl := Except.ok.inj he
    exact .queried rfl rfl (queried_findChange hfound)
  · exact .verifyOtp h
  · exact .issueReset h
  · exact .changeEmail h
  · obtain rfl := point_inj h
    exact .recordInvalid
  · obtain rfl := point_inj h
    exact .commitInvalid
  · obtain ⟨pc₁, hfound, he⟩ := map_eq_some_iff.mp h
    obtain rfl := Except.ok.inj he
    exact .queried rfl rfl (queried_findResetToken hfound)
  · exact .confirmReset h
  · cases h

theorem Queried.leads {rows : CredentialRows} (h : Queried rows pc') :
    Leads [] .read (.rows rows) (written cfg pc') := by
  cases h with
  | insertChallenge => exact .opens .read fun _ _ => .same
  | returned | verifyLogin | changePassword | findRecent | findConflict | setPending | compare
  | hashPassword => exact .read

/-- **Every statement** leads from what has been written before it to what has been written after
it. -/
theorem leads {pc : CredentialPc} {stmt : CredentialStmt}
    (hstmt : credentialStmt cfg pc = some stmt)
    (h : credentialNext cfg site pc reply = some (.ok pc')) :
    Leads (written cfg pc) stmt reply (written cfg pc') := by
  cases goes_of_next h with
  | queried hread hwritten hq =>
    obtain rfl := some.inj (hread.symm.trans hstmt)
    exact hwritten ▸ hq.leads
  | createSession h => exact some.inj hstmt ▸ session_leads h
  | changePassword h => exact some.inj hstmt ▸ change_leads h
  | verifyOtp h => exact some.inj hstmt ▸ otp_leads h
  | issueReset h => exact some.inj hstmt ▸ issue_leads h
  | changeEmail h => exact some.inj hstmt ▸ email_leads h
  | confirmReset h => exact some.inj hstmt ▸ reset_leads h
  | setPending | recordInvalid =>
    obtain rfl := some.inj hstmt
    exact .may
  | insertChallenge =>
    obtain rfl := some.inj hstmt
    exact .write fun _ _ _ => effect_new
  | commitChallenge | commitInvalid =>
    obtain rfl := some.inj hstmt
    exact .commit

/-! ### A transaction goes on until it returns -/

section Stays

variable {draws : Draws} {input : NewSession} {change : PasswordChange} {accepted : Accepted}
  {consumedAt : ℕ} {purpose : OtpPurpose} {newEmail : String} {reset : Reset}

theorem session_stays {pc : SessionPc}
    (h : sessionNext site draws input pc reply = some (.ok pc')) :
    (∃ pc₁, pc' = .createSession draws input pc₁) ∨ ∃ result, pc' = .returned result := by
  unfold sessionNext at h
  split at h
  · exact .inl ⟨_, (point_inj h).symm⟩
  · exact .inl ⟨_, (point_inj h).symm⟩
  · exact .inl ⟨_, (ok_of_required h).2⟩
  · exact .inr ⟨_, (point_inj h).symm⟩
  · cases h

theorem otp_stays {pc : OtpPc}
    (h : otpNext cfg site draws accepted consumedAt purpose pc reply = some (.ok pc')) :
    (∃ pc₁, pc' = .verifyOtp draws accepted consumedAt purpose pc₁) ∨
      (∃ input, input.passwordVersion = none ∧ pc' = .createSession draws input .insertSession) ∨
      ∃ result, pc' = .returned result := by
  unfold otpNext at h
  split at h
  · split_ifs at h with hn
    · cases h
    · exact .inl ⟨_, (point_inj h).symm⟩
  · exact .inl ⟨_, (point_inj h).symm⟩
  · exact .inl ⟨_, (point_inj h).symm⟩
  · obtain rfl := point_inj h
    split_ifs
    · exact .inr (.inr ⟨_, rfl⟩)
    · exact .inr (.inl ⟨_, rfl, rfl⟩)
    · exact .inr (.inr ⟨_, rfl⟩)
  · cases h

theorem issue_stays {pc : IssuePc}
    (h : issueNext cfg draws accepted consumedAt pc reply = some (.ok pc')) :
    (∃ pc₁, pc' = .issueReset draws accepted consumedAt pc₁) ∨ ∃ result, pc' = .returned result := by
  unfold issueNext at h
  split at h
  · exact .inl ⟨_, (point_inj h).symm⟩
  · exact .inl ⟨_, (point_inj h).symm⟩
  · exact .inl ⟨_, (point_inj h).symm⟩
  · exact .inr ⟨_, (point_inj h).symm⟩
  · cases h

theorem email_stays {pc : EmailPc}
    (h : emailNext site accepted consumedAt newEmail pc reply = some (.ok pc')) :
    (∃ pc₁, pc' = .changeEmail accepted consumedAt newEmail pc₁) ∨
      ∃ result, pc' = .returned result := by
  unfold emailNext at h
  split at h
  · exact .inl ⟨_, (point_inj h).symm⟩
  · exact .inl ⟨_, (point_inj h).symm⟩
  · exact .inl ⟨_, (point_inj h).symm⟩
  · exact .inl ⟨_, (point_inj h).symm⟩
  · exact .inr ⟨_, (point_inj h).symm⟩
  · exact .inr ⟨_, (point_inj h).symm⟩
  · exact .inr ⟨_, (point_inj h).symm⟩
  · cases h

theorem change_stays {pc : ChangePc}
    (h : changeNext site change pc reply = some (.ok pc')) :
    (∃ pc₁, pc' = .changePassword change pc₁) ∨ ∃ result, pc' = .returned result := by
  unfold changeNext at h
  split at h
  · exact .inl ⟨_, (ok_of_required h).2⟩
  · exact .inl ⟨_, (point_inj h).symm⟩
  · exact .inl ⟨_, (point_inj h).symm⟩
  · exact .inr ⟨_, (point_inj h).symm⟩
  · cases h

theorem reset_stays {pc : ResetPc} (h : resetNext reset pc reply = some (.ok pc')) :
    (∃ pc₁, pc' = .confirmReset reset pc₁) ∨ ∃ result, pc' = .returned result := by
  unfold resetNext at h
  split at h
  · exact .inl ⟨_, (point_inj h).symm⟩
  · split_ifs at h with hn
    · cases h
    · exact .inl ⟨_, (point_inj h).symm⟩
  · split_ifs at h with hn
    · cases h
    · exact .inl ⟨_, (point_inj h).symm⟩
  · exact .inl ⟨_, (point_inj h).symm⟩
  · exact .inl ⟨_, (point_inj h).symm⟩
  · exact .inl ⟨_, (point_inj h).symm⟩
  · exact .inr ⟨_, (point_inj h).symm⟩
  · cases h

end Stays

/-- The program points of the commits. -/
inductive Commit : CredentialPc → Prop
  | createSession {draws : Draws} {input : NewSession} {lastLoginAt : ℕ} :
      Commit (.createSession draws input (.commit lastLoginAt))
  | changePassword {change : PasswordChange} {revokedAt : ℕ} :
      Commit (.changePassword change (.commit revokedAt))
  | challenge {challengeId : ℕ} {challenge : OtpChallenge} :
      Commit (.commitChallenge challengeId challenge)
  | consumeOtp {draws : Draws} {accepted : Accepted} {consumedAt : ℕ} {purpose : OtpPurpose}
      {allowed : Bool} :
      Commit (.verifyOtp draws accepted consumedAt purpose (.commit none allowed))
  | verifyUser {draws : Draws} {accepted : Accepted} {consumedAt verifiedAt : ℕ}
      {purpose : OtpPurpose} {status : UserStatus} {allowed : Bool} :
      Commit (.verifyOtp draws accepted consumedAt purpose
        (.commit (some (status, verifiedAt)) allowed))
  | issueReset {draws : Draws} {accepted : Accepted} {verifiedAt : ℕ} :
      Commit (.issueReset draws accepted verifiedAt (.commit true))
  | notIssued {draws : Draws} {accepted : Accepted} {verifiedAt : ℕ} :
      Commit (.issueReset draws accepted verifiedAt (.commit false))
  | changeEmail {accepted : Accepted} {consumedAt emailVerifiedAt revokedAt tokensAt : ℕ}
      {newEmail : String} :
      Commit (.changeEmail accepted consumedAt newEmail
        (.commit emailVerifiedAt revokedAt tokensAt))
  | blocked {accepted : Accepted} {consumedAt : ℕ} {newEmail : String} :
      Commit (.changeEmail accepted consumedAt newEmail .commitBlocked)
  | unchanged {accepted : Accepted} {consumedAt : ℕ} {newEmail : String} :
      Commit (.changeEmail accepted consumedAt newEmail .commitUnchanged)
  | invalid {challengeId now : ℕ} {verification : Verification} :
      Commit (.commitInvalid challengeId verification now)
  | confirmReset {reset : Reset} : Commit (.confirmReset reset (.commit true))
  | notReset {reset : Reset} : Commit (.confirmReset reset (.commit false))

theorem commit_of_stmt {pc : CredentialPc} (h : credentialStmt cfg pc = some .commit) :
    Commit pc := by
  cases pc with
  | createSession draws input pc =>
    cases pc with
    | commit => exact .createSession
    | insertSession | insertToken => cases h
    | touchUser => exact absurd (some.inj h) Update.stmt_ne_commit
  | changePassword change pc =>
    cases pc with
    | commit => exact .changePassword
    | updateUser | revokeSessions | revokeTokens =>
      exact absurd (some.inj h) Update.stmt_ne_commit
  | verifyOtp draws accepted consumedAt purpose pc =>
    cases pc with
    | commit user allowed =>
      cases user with
      | none => exact .consumeOtp
      | some user => exact .verifyUser
    | readUser => cases h
    | consume | updateUser => exact absurd (some.inj h) Update.stmt_ne_commit
  | issueReset draws accepted verifiedAt pc =>
    cases pc with
    | commit issued =>
      cases issued with
      | true => exact .issueReset
      | false => exact .notIssued
    | insertToken => cases h
    | verify | supersede => exact absurd (some.inj h) Update.stmt_ne_commit
  | changeEmail accepted consumedAt newEmail pc =>
    cases pc with
    | commit => exact .changeEmail
    | commitBlocked => exact .blocked
    | commitUnchanged => exact .unchanged
    | consume | updateUser | revokeSessions | revokeTokens =>
      exact absurd (some.inj h) Update.stmt_ne_commit
  | confirmReset reset pc =>
    cases pc with
    | commit changed =>
      cases changed with
      | true => exact .confirmReset
      | false => exact .notReset
    | useToken | consumeChallenge | updateUser | revokeSessions | revokeTokens | supersede =>
      exact absurd (some.inj h) Update.stmt_ne_commit
  | commitChallenge => exact .challenge
  | commitInvalid => exact .invalid
  | setPending | recordInvalid => exact absurd (some.inj h) Update.stmt_ne_commit
  | _ => cases h

theorem written_of_commit {pc : CredentialPc} (hc : Commit pc)
    (h : credentialNext cfg site pc reply = some (.ok pc')) : written cfg pc' = [] := by
  cases hc with
  | consumeOtp | verifyUser =>
    cases reply with
    | rows _ | count _ => cases h
    | done =>
      obtain rfl := point_inj h
      split_ifs <;> rfl
  | createSession | changePassword | challenge | issueReset | notIssued | changeEmail | blocked
  | unchanged | invalid | confirmReset | notReset =>
    cases reply with
    | rows _ | count _ => cases h
    | done =>
      obtain rfl := point_inj h
      rfl

theorem written_of_outside {ledger ledger' : Ledger} {pc : CredentialPc}
    (h : credentialOutside cfg site ledger pc = some (ledger', pc')) :
    written cfg pc = [] ∧ written cfg pc' = [] := by
  unfold credentialOutside at h
  split at h
  · obtain ⟨rfl, rfl⟩ := pair_inj h
    refine ⟨rfl, ?_⟩
    unfold verifyLogin
    dsimp only
    split
    · rfl
    · split_ifs <;> rfl
  · obtain ⟨rfl, rfl⟩ := pair_inj h
    refine ⟨rfl, ?_⟩
    split_ifs <;> rfl
  · next verification =>
    obtain ⟨rfl, rfl⟩ := pair_inj h
    cases verification <;> exact ⟨rfl, rfl⟩
  · obtain ⟨rfl, rfl⟩ := pair_inj h
    exact ⟨rfl, rfl⟩
  · obtain ⟨rfl, rfl⟩ := pair_inj h
    exact ⟨rfl, rfl⟩
  · cases h

theorem lists : Lists (credentials cfg) (written cfg) fun _ => [] where
  listed k h := by
    obtain ⟨t, id⟩ := k
    cases t with
    | user =>
      have hid : id < cfg.users.length := by
        by_contra hno
        exact h (List.getElem?_eq_none (Nat.not_lt.mp hno))
      exact List.mem_map.mpr ⟨id, List.mem_range.mpr hid, rfl⟩
    | session | refreshToken | challenge | resetToken => exact absurd rfl h
  start now spawn := by
    obtain ⟨request, draws⟩ := spawn
    cases request <;> exact ⟨rfl, rfl⟩
  leads site pc stmt reply pc' hstmt hnext := leads hstmt hnext
  held _ _ _ _ _ _ _ _ hk := nomatch hk
  commit site pc reply pc' hstmt hnext := ⟨written_of_commit (commit_of_stmt hstmt) hnext, rfl⟩
  outside site m pc m' pc' hout := by
    obtain ⟨hpc, hpc'⟩ := written_of_outside hout
    exact ⟨hpc'.trans hpc.symm, rfl⟩
  thrown e := ⟨rfl, fun _ _ => rfl⟩

/-- **The calls have written what their program points say.** -/
theorem follows : (credentials cfg).Follows (notes cfg) := lists.follows

/-! ### What a commit does to a row -/

inductive UserWrite (pc : CredentialPc) (id : ℕ) : Option User → Option User → Prop
  | same {user : Option User} : UserWrite pc id user user
  /-- The password stays. -/
  | kept {user user' : User} : user'.passwordHash = user.passwordHash →
      user'.passwordVersion = user.passwordVersion → user'.changedBy = user.changedBy →
      UserWrite pc id (some user) (some user')
  | changed {change : PasswordChange} {revokedAt : ℕ} {user : User} :
      pc = .changePassword change (.commit revokedAt) → id = change.userId →
      UserWrite pc id (some user)
        (some (user.withPassword change.passwordHash (some change.sessionId)))
  | reset {reset : Reset} {user : User} : pc = .confirmReset reset (.commit true) →
      id = reset.token.userId → user.active = true →
      UserWrite pc id (some user) (some (user.withPassword reset.passwordHash none))

variable {pc : CredentialPc} {id : ℕ}

theorem UserWrite.of_may {u : CredentialUpdate .user} {before after : Option User}
    (hu : ∀ user, (u.data user).passwordHash = user.passwordHash ∧
      (u.data user).passwordVersion = user.passwordVersion ∧
      (u.data user).changedBy = user.changedBy)
    (h : u.may ⟨.user, id⟩ before after) : UserWrite pc id before after := by
  rcases Update.may_cases h with rfl | ⟨user, rfl, -, rfl⟩
  · exact .same
  · obtain ⟨hhash, hversion, hby⟩ := hu user
    exact .kept hhash hversion hby

theorem UserWrite.of_must {u : CredentialUpdate .user} {id' : ℕ} {before after : Option User}
    (hu : ∀ user, (u.data user).passwordHash = user.passwordHash ∧
      (u.data user).passwordVersion = user.passwordVersion ∧
      (u.data user).changedBy = user.changedBy)
    (h : u.must id' ⟨.user, id⟩ before after) : UserWrite pc id before after := by
  rcases Update.must_cases h with ⟨-, rfl⟩ | ⟨-, user, rfl, -, rfl⟩
  · exact .same
  · obtain ⟨hhash, hversion, hby⟩ := hu user
    exact .kept hhash hversion hby

theorem commit_user {before after : Option User} (hc : Commit pc)
    (h : Entry.inTurn (written cfg pc) ⟨.user, id⟩ before after) :
    UserWrite pc id before after := by
  cases hc with
  | createSession =>
    simp [written, sessionWrote] at h
    exact .of_must (fun _ => ⟨rfl, rfl, rfl⟩) h
  | changePassword =>
    simp [written, changeWrote] at h
    rcases Update.must_cases h with ⟨-, rfl⟩ | ⟨hid, user, rfl, -, rfl⟩
    · exact .same
    · exact .changed rfl hid
  | challenge =>
    simp [written] at h
    exact .of_may (fun _ => ⟨rfl, rfl, rfl⟩) h
  | verifyUser =>
    simp [written, otpWrote] at h
    exact .of_may (fun _ => ⟨rfl, rfl, rfl⟩) h
  | changeEmail =>
    simp [written, emailWrote] at h
    exact .of_must (fun _ => ⟨rfl, rfl, rfl⟩) h
  | confirmReset =>
    simp [written, resetWrote] at h
    rcases Update.must_cases h with ⟨-, rfl⟩ | ⟨hid, user, rfl, hcond, rfl⟩
    · exact .same
    · exact .reset rfl hid (of_decide_eq_true hcond).2
  | consumeOtp | issueReset | notIssued | blocked | unchanged | invalid | notReset =>
    simp [written, otpWrote, issueWrote, emailWrote, resetWrote] at h
    exact h ▸ .same

/-- What a commit does to a session. -/
inductive SessionWrite (pc : CredentialPc) (id : ℕ) : Option Session → Option Session → Prop
  | same {session : Option Session} : SessionWrite pc id session session
  | revoked {session : Session} {revokedAt : ℕ} {revokeReason : String} : session.live = true →
      SessionWrite pc id (some session) (some (session.revoked revokedAt revokeReason))
  | created {draws : Draws} {input : NewSession} {lastLoginAt : ℕ} :
      pc = .createSession draws input (.commit lastLoginAt) → id = draws.sessionId →
      SessionWrite pc id none (some input.session)

theorem commit_session {before after : Option Session} (hc : Commit pc)
    (h : Entry.inTurn (written cfg pc) ⟨.session, id⟩ before after) :
    SessionWrite pc id before after := by
  cases hc with
  | createSession =>
    simp [written, sessionWrote] at h
    rcases new_cases h with ⟨-, rfl⟩ | ⟨hid, rfl, rfl⟩
    · exact .same
    · exact .created rfl hid
  | changePassword =>
    simp [written, changeWrote] at h
    rcases Update.may_cases h with rfl | ⟨session, rfl, hcond, rfl⟩
    · exact .same
    · exact .revoked (of_decide_eq_true hcond).2.2
  | changeEmail =>
    simp [written, emailWrote] at h
    rcases Update.may_cases h with rfl | ⟨session, rfl, hcond, rfl⟩
    · exact .same
    · exact .revoked (of_decide_eq_true hcond).2
  | confirmReset =>
    simp [written, resetWrote] at h
    rcases Update.may_cases h with rfl | ⟨session, rfl, hcond, rfl⟩
    · exact .same
    · exact .revoked (of_decide_eq_true hcond).2
  | challenge | consumeOtp | verifyUser | issueReset | notIssued | blocked | unchanged | invalid
  | notReset =>
    simp [written, otpWrote, issueWrote, emailWrote, resetWrote] at h
    exact h ▸ .same

/-- What a commit does to a refresh token. -/
inductive RefreshTokenWrite (pc : CredentialPc) (id : ℕ) :
    Option RefreshToken → Option RefreshToken → Prop
  | same {token : Option RefreshToken} : RefreshTokenWrite pc id token token
  | revoked {token : RefreshToken} {revokedAt : ℕ} :
      RefreshTokenWrite pc id (some token) (some (token.revoked revokedAt))
  | created {draws : Draws} {input : NewSession} {lastLoginAt : ℕ} {token : RefreshToken} :
      pc = .createSession draws input (.commit lastLoginAt) → token.userId = input.userId →
      RefreshTokenWrite pc id none (some token)

theorem commit_refreshToken {before after : Option RefreshToken} (hc : Commit pc)
    (h : Entry.inTurn (written cfg pc) ⟨.refreshToken, id⟩ before after) :
    RefreshTokenWrite pc id before after := by
  cases hc with
  | createSession =>
    simp [written, sessionWrote] at h
    rcases new_cases h with ⟨-, rfl⟩ | ⟨-, rfl, rfl⟩
    · exact .same
    · exact .created rfl rfl
  | changePassword =>
    simp [written, changeWrote] at h
    rcases Update.may_cases h with rfl | ⟨token, rfl, -, rfl⟩
    · exact .same
    · exact .revoked
  | changeEmail =>
    simp [written, emailWrote] at h
    rcases Update.may_cases h with rfl | ⟨token, rfl, -, rfl⟩
    · exact .same
    · exact .revoked
  | confirmReset =>
    simp [written, resetWrote] at h
    rcases Update.may_cases h with rfl | ⟨token, rfl, -, rfl⟩
    · exact .same
    · exact .revoked
  | challenge | consumeOtp | verifyUser | issueReset | notIssued | blocked | unchanged | invalid
  | notReset =>
    simp [written, otpWrote, issueWrote, emailWrote, resetWrote] at h
    exact h ▸ .same

/-- The challenge whose code a call has accepted. -/
def accepts : CredentialPc → Option Accepted
  | .begin _ accepted _ | .verifyOtp _ accepted .. | .issueReset _ accepted ..
  | .changeEmail accepted .. => some accepted
  | _ => none

/-- The challenge that a commit verifies or consumes after its code was right. -/
def acceptsBy : CredentialPc → Option Accepted
  | .verifyOtp _ accepted _ _ (.commit ..) | .issueReset _ accepted _ (.commit true)
  | .changeEmail accepted _ _ (.commit ..) | .changeEmail accepted _ _ .commitBlocked =>
    some accepted
  | _ => none

theorem accepts_of_acceptsBy {accepted : Accepted} (h : acceptsBy pc = some accepted) :
    accepts pc = some accepted := by
  unfold acceptsBy at h
  split at h
  · exact h
  · exact h
  · exact h
  · exact h
  · cases h

/-- What a commit does to a challenge. -/
inductive ChallengeWrite (pc : CredentialPc) (id : ℕ) :
    Option OtpChallenge → Option OtpChallenge → Prop
  | same {challenge : Option OtpChallenge} : ChallengeWrite pc id challenge challenge
  | sent {challenge : OtpChallenge} : pc = .commitChallenge id challenge →
      ChallengeWrite pc id none (some challenge)
  | accepted {accepted : Accepted} {challenge : OtpChallenge} {consumedAt : ℕ} :
      acceptsBy pc = some accepted → id = accepted.challengeId → challenge.unconsumed = true →
      ChallengeWrite pc id (some challenge)
        (some (challenge.accepted consumedAt accepted.wrongBefore))
  | verified {draws : Draws} {accepted : Accepted} {challenge : OtpChallenge} {verifiedAt : ℕ} :
      pc = .issueReset draws accepted verifiedAt (.commit true) → id = accepted.challengeId →
      challenge.unverified verifiedAt = true →
      ChallengeWrite pc id (some challenge)
        (some (challenge.verified verifiedAt accepted.wrongBefore))
  | attempt {challenge : OtpChallenge} {now : ℕ} : challenge.attempts < challenge.maxAttempts →
      challenge.unverified now = true →
      ChallengeWrite pc id (some challenge) (some (challenge.withAttempt now))
  | consumed {reset : Reset} {challenge : OtpChallenge} : pc = .confirmReset reset (.commit true) →
      id = reset.token.otpChallengeId → challenge.unconsumed = true →
      ChallengeWrite pc id (some challenge) (some (challenge.consumed reset.usedAt))

theorem commit_challenge {before after : Option OtpChallenge} (hc : Commit pc)
    (h : Entry.inTurn (written cfg pc) ⟨.challenge, id⟩ before after) :
    ChallengeWrite pc id before after := by
  cases hc with
  | challenge =>
    simp [written] at h
    rcases new_cases h with ⟨-, rfl⟩ | ⟨rfl, rfl, rfl⟩
    · exact .same
    · exact .sent rfl
  | consumeOtp | verifyUser =>
    simp [written, otpWrote] at h
    rcases Update.must_cases h with ⟨-, rfl⟩ | ⟨hid, challenge, rfl, hcond, rfl⟩
    · exact .same
    · exact .accepted rfl hid (of_decide_eq_true hcond).2
  | issueReset =>
    simp [written, issueWrote] at h
    rcases Update.must_cases h with ⟨-, rfl⟩ | ⟨hid, challenge, rfl, hcond, rfl⟩
    · exact .same
    · exact .verified rfl hid (of_decide_eq_true hcond).2
  | changeEmail | blocked =>
    simp [written, emailWrote] at h
    rcases Update.must_cases h with ⟨-, rfl⟩ | ⟨hid, challenge, rfl, hcond, rfl⟩
    · exact .same
    · exact .accepted rfl hid (of_decide_eq_true hcond).2.1
  | invalid =>
    simp [written] at h
    rcases Update.may_cases h with rfl | ⟨challenge, rfl, hcond, rfl⟩
    · exact .same
    · obtain ⟨-, hattempts, hopen⟩ := of_decide_eq_true hcond
      exact .attempt hattempts hopen
  | confirmReset =>
    simp [written, resetWrote] at h
    rcases Update.must_cases h with ⟨-, rfl⟩ | ⟨hid, challenge, rfl, hcond, rfl⟩
    · exact .same
    · exact .consumed rfl hid (of_decide_eq_true hcond).2
  | createSession | changePassword | notIssued | unchanged | notReset =>
    simp [written, sessionWrote, changeWrote, issueWrote, emailWrote, resetWrote] at h
    exact h ▸ .same

/-- What a commit does to a reset token. -/
inductive ResetTokenWrite (cfg : CredentialConfig) (pc : CredentialPc) (id : ℕ) :
    Option PasswordResetToken → Option PasswordResetToken → Prop
  | same {token : Option PasswordResetToken} : ResetTokenWrite cfg pc id token token
  | superseded {token : PasswordResetToken} {deletedAt : ℕ} : token.live = true →
      ResetTokenWrite cfg pc id (some token) (some (token.superseded deletedAt))
  | issued {draws : Draws} {accepted : Accepted} {verifiedAt : ℕ} :
      pc = .issueReset draws accepted verifiedAt (.commit true) → id = draws.resetTokenId →
      ResetTokenWrite cfg pc id none (some (accepted.resetToken cfg draws))
  | used {reset : Reset} {token : PasswordResetToken} : pc = .confirmReset reset (.commit true) →
      id = reset.id → token.tokenHash = reset.token.tokenHash → token.live = true →
      reset.usedAt < token.expiresAt →
      ResetTokenWrite cfg pc id (some token) (some (token.used reset.usedAt))

theorem commit_resetToken {before after : Option PasswordResetToken} (hc : Commit pc)
    (h : Entry.inTurn (written cfg pc) ⟨.resetToken, id⟩ before after) :
    ResetTokenWrite cfg pc id before after := by
  cases hc with
  | issueReset =>
    simp [written, issueWrote] at h
    obtain ⟨between, hmay, hnew⟩ := h
    rcases new_cases hnew with ⟨-, rfl⟩ | ⟨hid, rfl, rfl⟩
    · rcases Update.may_cases hmay with rfl | ⟨token, rfl, hcond, rfl⟩
      · exact .same
      · exact .superseded (of_decide_eq_true hcond).2
    · rcases Update.may_cases hmay with rfl | ⟨token, -, -, he⟩
      · exact .issued rfl hid
      · cases he
  | confirmReset =>
    simp [written, resetWrote] at h
    obtain ⟨between, hmust, hmay⟩ := h
    rcases Update.must_cases hmust with ⟨-, rfl⟩ | ⟨hid, token, rfl, hcond, rfl⟩
    · rcases Update.may_cases hmay with rfl | ⟨token, rfl, hcond, rfl⟩
      · exact .same
      · exact .superseded (of_decide_eq_true hcond).2.2
    · obtain ⟨-, hhash, hlive, hdate⟩ := of_decide_eq_true hcond
      rcases Update.may_cases hmay with rfl | ⟨token', -, hother, -⟩
      · exact .used rfl hid hhash hlive hdate
      · exact absurd hid (of_decide_eq_true hother).2.1
  | createSession | changePassword | challenge | consumeOtp | verifyUser | notIssued | changeEmail
  | blocked | unchanged | invalid | notReset =>
    simp [written, sessionWrote, changeWrote, otpWrote, issueWrote, emailWrote, resetWrote] at h
    exact h ▸ .same

end BackendFoundation.Auth.CredentialLog
