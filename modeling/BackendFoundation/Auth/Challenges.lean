import BackendFoundation.Auth.CredentialLog

/-! # Challenges and reset tokens

What the calls on credentials keep in every run: a challenge has no more attempts than it allows, it
is locked at the last of them, and is then neither verified nor consumed. A reset token is one of a
verified challenge, and no other token is. A call that has read a reset token knows what does not
change of it. -/

namespace BackendFoundation.Auth.Challenges

open Lib.Runs Lib.Interleave Lib.Database Lib.Transact Lib.WriteLog Lib.Schema Lib.Services Errors
open Crypto Auth.CredentialModel Auth.CredentialLog
open Option (some.inj)

variable {cfg : CredentialConfig} {pc pc' : CredentialPc} {id : ℕ} {site : Site CredentialKey}
  {reply : Reply CredentialRow} {rows rows' : CredentialRows}

/-! ### Challenges -/

/-- The attempts and the lock of a challenge. -/
structure ChallengeOk (challenge : OtpChallenge) : Prop where
  attempts : challenge.attempts ≤ challenge.maxAttempts
  unlocked : challenge.lockedAt = none → challenge.attempts < challenge.maxAttempts
  locked : challenge.lockedAt ≠ none → challenge.verifiedAt = none ∧ challenge.consumedAt = none

def Sent (challenge : OtpChallenge) : Prop :=
  ∃ site draws userId destination channel purpose,
    challenge = newChallenge site draws userId destination channel purpose

theorem Sent.ok {challenge : OtpChallenge} (h : Sent challenge) : ChallengeOk challenge := by
  obtain ⟨site, draws, userId, destination, channel, purpose, rfl⟩ := h
  exact ⟨Nat.zero_le _, fun _ => Nat.succ_pos 4, fun hlocked => absurd rfl hlocked⟩

/-- A challenge with a reset token. -/
def Verified (rows : CredentialRows) (challengeId : ℕ) : Prop :=
  ∃ challenge : OtpChallenge, rows ⟨.challenge, challengeId⟩ = some challenge ∧
    challenge.verifiedAt ≠ none

/-! ### Reset tokens -/

/-- The row of a reset token has what the call has read of it. -/
def Known (rows : CredentialRows) (id : ℕ) (token : PasswordResetToken) : Prop :=
  ∃ row : PasswordResetToken, rows ⟨.resetToken, id⟩ = some row ∧ row.userId = token.userId ∧
    row.otpChallengeId = token.otpChallengeId

structure RowsOk (rows : CredentialRows) : Prop where
  challenges : ∀ (id : ℕ) (challenge : OtpChallenge),
    rows ⟨.challenge, id⟩ = some challenge → ChallengeOk challenge
  verified : ∀ (id : ℕ) (token : PasswordResetToken), rows ⟨.resetToken, id⟩ = some token →
    Verified rows token.otpChallengeId
  single : ∀ (id id' : ℕ) (token token' : PasswordResetToken),
    rows ⟨.resetToken, id⟩ = some token → rows ⟨.resetToken, id'⟩ = some token' →
      token.otpChallengeId = token'.otpChallengeId → id = id'

/-- What a call knows at its program point. -/
def PcOk (pc : CredentialPc) (rows : CredentialRows) : Prop :=
  match pc with
  | .insertChallenge _ challenge | .commitChallenge _ challenge => Sent challenge
  | .hashPassword _ (id, token) _ => Known rows id token
  | .confirmReset reset _ => Known rows reset.id reset.token
  | _ => True

/-! ### What a commit leaves -/

theorem challengeOk_of_write {before : Option OtpChallenge} {after : OtpChallenge}
    (h : ChallengeWrite pc id before (some after)) (hpc : PcOk pc rows)
    (hold : ∀ challenge, before = some challenge → ChallengeOk challenge) : ChallengeOk after := by
  generalize hafter : some after = row at h
  cases h with
  | same => exact hold after hafter.symm
  | @sent challenge he =>
    obtain rfl := some.inj hafter
    subst he
    exact Sent.ok hpc
  | @accepted accepted challenge consumedAt _ _ hopen =>
    obtain rfl := some.inj hafter
    have hok := hold challenge rfl
    obtain ⟨-, hunlocked, -⟩ := of_decide_eq_true hopen
    exact ⟨hok.attempts, hok.unlocked, fun hlocked => absurd hunlocked hlocked⟩
  | @verified draws accepted challenge verifiedAt _ _ hopen =>
    obtain rfl := some.inj hafter
    have hok := hold challenge rfl
    obtain ⟨hopen, -, -⟩ := of_decide_eq_true hopen
    obtain ⟨-, hunlocked, -⟩ := of_decide_eq_true hopen
    exact ⟨hok.attempts, hok.unlocked, fun hlocked => absurd hunlocked hlocked⟩
  | @attempt challenge now hattempts hopen =>
    obtain rfl := some.inj hafter
    obtain ⟨hopen, hunverified, -⟩ := of_decide_eq_true hopen
    obtain ⟨hunconsumed, hunlocked, -⟩ := of_decide_eq_true hopen
    refine ⟨hattempts, fun hlocked => ?_, fun _ => ⟨hunverified, hunconsumed⟩⟩
    change challenge.attempts + 1 < challenge.maxAttempts
    by_contra hlast
    have hlast : challenge.maxAttempts ≤ challenge.attempts + 1 := by omega
    simp [OtpChallenge.withAttempt, hlast] at hlocked
  | @consumed reset challenge _ _ hopen =>
    obtain rfl := some.inj hafter
    have hok := hold challenge rfl
    obtain ⟨-, hunlocked, -⟩ := of_decide_eq_true hopen
    exact ⟨hok.attempts, hok.unlocked, fun hlocked => absurd hunlocked hlocked⟩

structure Committed (cfg : CredentialConfig) (pc : CredentialPc) (rows rows' : CredentialRows) :
    Prop where
  commit : Commit pc
  wrote : ∀ k, (notes cfg).wrote pc k (rows k) (rows' k)

theorem Committed.challenge (h : Committed cfg pc rows rows') (id : ℕ) :
    ChallengeWrite pc id (rows ⟨.challenge, id⟩) (rows' ⟨.challenge, id⟩) :=
  commit_challenge h.commit (h.wrote ⟨.challenge, id⟩)

theorem Committed.resetToken (h : Committed cfg pc rows rows') (id : ℕ) :
    ResetTokenWrite cfg pc id (rows ⟨.resetToken, id⟩) (rows' ⟨.resetToken, id⟩) :=
  commit_resetToken h.commit (h.wrote ⟨.resetToken, id⟩)

theorem Verified.commit {challengeId : ℕ} (h : Verified rows challengeId)
    (hc : Committed cfg pc rows rows') : Verified rows' challengeId := by
  obtain ⟨challenge, hfound, hverified⟩ := h
  have hw := hc.challenge challengeId
  rw [hfound] at hw
  generalize hafter : rows' ⟨.challenge, challengeId⟩ = after at hw
  cases hw with
  | same | accepted _ _ _ | attempt _ _ | consumed _ _ _ => exact ⟨_, hafter, hverified⟩
  | verified _ _ _ => exact ⟨_, hafter, Option.some_ne_none _⟩

theorem Known.commit {token : PasswordResetToken} (h : Known rows id token)
    (hc : Committed cfg pc rows rows') : Known rows' id token := by
  obtain ⟨row, hfound, huser, hchallenge⟩ := h
  have hw := hc.resetToken id
  rw [hfound] at hw
  generalize hafter : rows' ⟨.resetToken, id⟩ = after at hw
  cases hw with
  | same | superseded _ | used _ _ _ _ _ => exact ⟨_, hafter, huser, hchallenge⟩

/-- A reset token is as it was, or is of a challenge that has just been verified. -/
theorem Committed.resetToken_cases (h : Committed cfg pc rows rows') {token : PasswordResetToken}
    (htoken : rows' ⟨.resetToken, id⟩ = some token) :
    (∃ old : PasswordResetToken, rows ⟨.resetToken, id⟩ = some old ∧
      old.otpChallengeId = token.otpChallengeId) ∨
    ∃ draws accepted verifiedAt, pc = .issueReset draws accepted verifiedAt (.commit true) ∧
      id = draws.resetTokenId ∧ token = accepted.resetToken cfg draws := by
  have hw := h.resetToken id
  rw [htoken] at hw
  generalize hbefore : rows ⟨.resetToken, id⟩ = before at hw
  generalize hafter : some token = after at hw
  cases hw with
  | same => exact .inl ⟨token, hafter.symm, rfl⟩
  | superseded _ | used _ _ _ _ _ =>
    obtain rfl := some.inj hafter
    exact .inl ⟨_, rfl, rfl⟩
  | issued hpc hid => exact .inr ⟨_, _, _, hpc, hid, some.inj hafter⟩

theorem Committed.verifies {draws : Draws} {accepted : Accepted} {verifiedAt : ℕ}
    (h : Committed cfg (.issueReset draws accepted verifiedAt (.commit true)) rows rows') :
    ∃ challenge : OtpChallenge, rows ⟨.challenge, accepted.challengeId⟩ = some challenge ∧
      challenge.unverified verifiedAt = true ∧ rows' ⟨.challenge, accepted.challengeId⟩ =
        some (challenge.verified verifiedAt accepted.wrongBefore) := by
  have hw := h.wrote ⟨.challenge, accepted.challengeId⟩
  simp [notes, Lib.Logs.notesOf, written, issueWrote] at hw
  rcases Update.must_cases hw with ⟨hne, -⟩ | ⟨-, challenge, hbefore, hcond, hafter⟩
  · exact absurd rfl hne
  · exact ⟨challenge, hbefore, (of_decide_eq_true hcond).2, hafter⟩

theorem RowsOk.commit (h : RowsOk rows) (hpc : PcOk pc rows) (hc : Committed cfg pc rows rows') :
    RowsOk rows' where
  challenges id challenge hfound := by
    have hw := hc.challenge id
    rw [hfound] at hw
    exact challengeOk_of_write hw hpc (h.challenges id)
  verified id token hfound := by
    rcases hc.resetToken_cases hfound with ⟨old, hold, he⟩ | ⟨draws, accepted, at', rfl, -, rfl⟩
    · exact he ▸ (h.verified id old hold).commit hc
    · obtain ⟨challenge, -, -, hafter⟩ := hc.verifies
      exact ⟨_, hafter, Option.some_ne_none _⟩
  single id id' token token' hfound hfound' he := by
    have hnew {draws : Draws} {accepted : Accepted} {verifiedAt id : ℕ} {old : PasswordResetToken}
        (hpc : pc = .issueReset draws accepted verifiedAt (.commit true))
        (hold : rows ⟨.resetToken, id⟩ = some old) : old.otpChallengeId ≠ accepted.challengeId := by
      intro hsame
      subst hpc
      obtain ⟨challenge, hbefore, hopen, -⟩ := hc.verifies
      obtain ⟨challenge', hbefore', hverified⟩ := h.verified id old hold
      rw [hsame, hbefore] at hbefore'
      obtain rfl := some.inj hbefore'
      exact hverified (of_decide_eq_true hopen).2.1
    rcases hc.resetToken_cases hfound with ⟨old, hold, hsame⟩ | ⟨draws, accepted, at', hpc, hid, rfl⟩
    · rcases hc.resetToken_cases hfound' with
        ⟨old', hold', hsame'⟩ | ⟨draws, accepted, at', hpc, -, rfl⟩
      · exact h.single id id' old old' hold hold' (hsame.trans (he.trans hsame'.symm))
      · exact absurd (hsame.trans he) (hnew hpc hold)
    · rcases hc.resetToken_cases hfound' with
        ⟨old', hold', hsame'⟩ | ⟨draws', accepted', at'', hpc', hid', -⟩
      · exact absurd (hsame'.trans he.symm) (hnew hpc hold')
      · rw [hpc] at hpc'
        obtain ⟨rfl, -, -, -⟩ := CredentialPc.issueReset.inj hpc'
        exact hid.trans hid'.symm

theorem PcOk.commit (h : PcOk pc' rows) (hc : Committed cfg pc rows rows') : PcOk pc' rows' := by
  unfold PcOk at *
  split at h
  · exact h
  · exact h
  · exact h.commit hc
  · exact h.commit hc
  · trivial

theorem PcOk.of_next (h : PcOk pc rows)
    (hread : credentialStmt cfg pc = some .read → written cfg pc = [] →
      ∀ found, reply = .rows found → found = rows)
    (hnext : credentialNext cfg site pc reply = some (.ok pc')) : PcOk pc' rows := by
  cases goes_of_next hnext with
  | queried hr hw hq =>
    obtain rfl := hread hr hw _ rfl
    cases hq with
    | insertChallenge => exact ⟨_, _, _, _, _, _, rfl⟩
    | hashPassword hfound => exact ⟨_, hfound, rfl, rfl⟩
    | returned | verifyLogin | changePassword | findRecent | findConflict | setPending
    | compare _ => trivial
  | createSession hn => rcases session_stays hn with ⟨_, rfl⟩ | ⟨_, rfl⟩ <;> trivial
  | changePassword hn => rcases change_stays hn with ⟨_, rfl⟩ | ⟨_, rfl⟩ <;> trivial
  | setPending => exact ⟨_, _, _, _, _, _, rfl⟩
  | insertChallenge => exact h
  | verifyOtp hn => rcases otp_stays hn with ⟨_, rfl⟩ | ⟨_, -, rfl⟩ | ⟨_, rfl⟩ <;> trivial
  | issueReset hn => rcases issue_stays hn with ⟨_, rfl⟩ | ⟨_, rfl⟩ <;> trivial
  | changeEmail hn => rcases email_stays hn with ⟨_, rfl⟩ | ⟨_, rfl⟩ <;> trivial
  | commitChallenge | recordInvalid | commitInvalid => trivial
  | confirmReset hn =>
    rcases reset_stays hn with ⟨_, rfl⟩ | ⟨_, rfl⟩
    · exact h
    · trivial

theorem PcOk.of_outside {ledger ledger' : Ledger} (h : PcOk pc rows)
    (hout : credentialOutside cfg site ledger pc = some (ledger', pc')) : PcOk pc' rows := by
  unfold credentialOutside at hout
  split at hout
  · obtain ⟨-, rfl⟩ := pair_inj hout
    unfold verifyLogin
    dsimp only
    split
    · trivial
    · split_ifs <;> trivial
  · obtain ⟨-, rfl⟩ := pair_inj hout
    split_ifs <;> trivial
  · next verification =>
    obtain ⟨-, rfl⟩ := pair_inj hout
    cases verification <;> trivial
  · obtain ⟨-, rfl⟩ := pair_inj hout
    trivial
  · obtain ⟨-, rfl⟩ := pair_inj hout
    exact h
  · cases hout

/-! ### The invariant -/

theorem rowsOk_init : RowsOk cfg.rows :=
  ⟨fun _ _ h => (by cases h), fun _ _ h => (by cases h), fun _ _ _ _ h => (by cases h)⟩

theorem pcOk_start {now : ℕ} {spawn : CredentialSpawn} :
    PcOk ((credentials cfg).start now spawn) rows := by
  obtain ⟨request, draws⟩ := spawn
  cases request <;> trivial

section At

variable {a : Claims CredentialRow CredentialPc Ledger} {s : CredentialStore} {i : ℕ}
  {call : CredentialCall}

theorem PcOk.replied (h : PcOk call.pc s.db.rows)
    (hat : a.At (credentials cfg) (notes cfg) s i call) (hlive : s.db.aborted i = false)
    {stmt : CredentialStmt} (hstmt : credentialStmt cfg call.pc = some stmt)
    {db : Db CredentialRow} {tx : Tx CredentialRow}
    (hs : exec s.db i call.tx stmt = some (db, .replied tx reply))
    (hnext : credentialNext cfg site call.pc reply = some (.ok pc')) : PcOk pc' s.db.rows := by
  refine h.of_next (fun hread hwritten found hfound => ?_) hnext
  obtain rfl := some.inj (hread.symm.trans hstmt)
  subst hfound
  refine hat.found hlive hread (fun k before after hw => ?_) hs
  change Entry.inTurn (written cfg call.pc) k before after at hw
  rw [hwritten] at hw
  exact hw

theorem PcOk.returned (h : PcOk pc rows) (hc : Committed cfg pc rows rows')
    (hstmt : credentialStmt cfg pc = some .commit)
    (hnext : credentialNext cfg site pc reply = some (.ok pc')) : PcOk pc' rows' := by
  refine (h.commit hc).of_next (fun hread => ?_) hnext
  rw [hstmt] at hread
  cases hread

end At

end BackendFoundation.Auth.Challenges
