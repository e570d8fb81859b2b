import BackendFoundation.Auth.Challenges

/-! # Guesses of a code

A code is compared outside any transaction, with a challenge that has been read before, and a wrong
one is counted after that. The lock is looked at when the challenge is read and when it is consumed,
so that guesses which are under way at once are all compared (`unbounded_guesses`). If every wrong
code has been counted when a right one is accepted, the bound holds (`guesses_bounded`). -/

namespace BackendFoundation.Auth.GuessBound

open Lib.Runs Lib.Interleave Lib.Database Lib.Transact Lib.WriteLog Lib.Schema Lib.Services Errors
open Crypto Auth.CredentialModel Auth.CredentialLog Auth.Challenges
open Option (some.inj)

variable {cfg : CredentialConfig} {pc pc' : CredentialPc} {site : Site CredentialKey}
  {reply : Reply CredentialRow} {ledger : Ledger}

/-- A right code has been compared with the challenge after `n` wrong ones. -/
def Decided (ledger : Ledger) (challengeId n : ℕ) : Prop :=
  ∃ later earlier, ledger.comparisons = later ++ ⟨challengeId, true⟩ :: earlier ∧
    earlier.count ⟨challengeId, false⟩ = n

/-- A challenge is verified or consumed by a right code that came after fewer wrong ones than the
challenge allows. -/
def GuessesBounded (rows : CredentialRows) (ledger : Ledger) : Prop :=
  ∀ (id : ℕ) (challenge : OtpChallenge), rows ⟨.challenge, id⟩ = some challenge →
    (challenge.consumedAt ≠ none ∨ challenge.verifiedAt ≠ none) →
      ∃ n, challenge.wrongBefore = some n ∧ Decided ledger id n ∧ n < challenge.maxAttempts

/-- A right code is accepted after all wrong ones before it have been counted. -/
def countsWrong (s : CredentialStore) (i : ℕ) (call : CredentialCall) (c : Choice Thrown) : Prop :=
  commits s.db i .commit c.fate = true → ∀ accepted ∈ acceptsBy call.pc,
    ∀ challenge ∈ s.db.rows ⟨.challenge, accepted.challengeId⟩,
      accepted.wrongBefore ≤ OtpChallenge.attempts challenge

instance {s : CredentialStore} {i : ℕ} {call : CredentialCall} {c : Choice Thrown} :
    Decidable (countsWrong s i call c) :=
  inferInstanceAs (Decidable (_ = true → ∀ accepted ∈ acceptsBy call.pc,
    ∀ challenge ∈ s.db.rows ⟨.challenge, accepted.challengeId⟩,
      accepted.wrongBefore ≤ OtpChallenge.attempts challenge))

/-! ### The comparison of a call -/

/-- The call has compared the code that it accepts. -/
def Compared (ledger : Ledger) (pc : CredentialPc) : Prop :=
  ∀ accepted ∈ accepts pc, Decided ledger accepted.challengeId accepted.wrongBefore

theorem Decided.compared {challengeId n : ℕ} (h : Decided ledger challengeId n)
    (comparison : Comparison) :
    Decided { ledger with comparisons := comparison :: ledger.comparisons } challengeId n := by
  obtain ⟨later, earlier, he, hn⟩ := h
  exact ⟨comparison :: later, earlier, congrArg (comparison :: ·) he, hn⟩

theorem compared_of_none (h : accepts pc = none) : Compared ledger pc := by
  intro accepted ha
  rw [h] at ha
  cases ha

theorem Compared.of_next (h : Compared ledger pc)
    (hnext : credentialNext cfg site pc reply = some (.ok pc')) : Compared ledger pc' := by
  cases goes_of_next hnext with
  | queried _ _ hq => cases hq <;> exact compared_of_none rfl
  | createSession hn =>
    rcases session_stays hn with ⟨_, rfl⟩ | ⟨_, rfl⟩ <;> exact compared_of_none rfl
  | changePassword hn =>
    rcases change_stays hn with ⟨_, rfl⟩ | ⟨_, rfl⟩ <;> exact compared_of_none rfl
  | confirmReset hn =>
    rcases reset_stays hn with ⟨_, rfl⟩ | ⟨_, rfl⟩ <;> exact compared_of_none rfl
  | verifyOtp hn =>
    rcases otp_stays hn with ⟨_, rfl⟩ | ⟨_, -, rfl⟩ | ⟨_, rfl⟩
    · exact h
    · exact compared_of_none rfl
    · exact compared_of_none rfl
  | issueReset hn =>
    rcases issue_stays hn with ⟨_, rfl⟩ | ⟨_, rfl⟩
    · exact h
    · exact compared_of_none rfl
  | changeEmail hn =>
    rcases email_stays hn with ⟨_, rfl⟩ | ⟨_, rfl⟩
    · exact h
    · exact compared_of_none rfl
  | setPending | insertChallenge | commitChallenge | recordInvalid | commitInvalid =>
    exact compared_of_none rfl

theorem Compared.of_outside {ledger' : Ledger} (h : Compared ledger pc)
    (hout : credentialOutside cfg site ledger pc = some (ledger', pc')) : Compared ledger' pc' := by
  unfold credentialOutside at hout
  split at hout
  · obtain ⟨rfl, rfl⟩ := pair_inj hout
    unfold verifyLogin
    dsimp only
    split
    · exact compared_of_none rfl
    · split_ifs <;> exact compared_of_none rfl
  · next draws guess =>
    obtain ⟨rfl, rfl⟩ := pair_inj hout
    split_ifs with hright
    · intro accepted ha
      obtain rfl := some.inj ha
      exact ⟨[], ledger.comparisons, by rw [hright]; rfl, rfl⟩
    · exact compared_of_none rfl
  · next verification =>
    obtain ⟨rfl, rfl⟩ := pair_inj hout
    cases verification <;> exact h
  · obtain ⟨rfl, rfl⟩ := pair_inj hout
    exact compared_of_none rfl
  · obtain ⟨rfl, rfl⟩ := pair_inj hout
    exact compared_of_none rfl
  · cases hout

theorem ledger_of_outside {ledger' : Ledger}
    (hout : credentialOutside cfg site ledger pc = some (ledger', pc')) : ledger' = ledger ∨
      ∃ comparison, ledger' = { ledger with comparisons := comparison :: ledger.comparisons } := by
  unfold credentialOutside at hout
  split at hout
  · exact .inl (pair_inj hout).1.symm
  · exact .inr ⟨_, (pair_inj hout).1.symm⟩
  · exact .inl (pair_inj hout).1.symm
  · exact .inl (pair_inj hout).1.symm
  · exact .inl (pair_inj hout).1.symm
  · cases hout

/-! ### The invariant -/

theorem GuessesBounded.compared {rows : CredentialRows} (h : GuessesBounded rows ledger)
    (comparison : Comparison) :
    GuessesBounded rows { ledger with comparisons := comparison :: ledger.comparisons } := by
  intro id challenge hfound hdone
  obtain ⟨n, hn, hdecided, hlt⟩ := h id challenge hfound hdone
  exact ⟨n, hn, hdecided.compared comparison, hlt⟩

theorem guessesBounded_commit {rows rows' : CredentialRows} (hok : RowsOk rows)
    (hold : GuessesBounded rows ledger) (hpc : PcOk pc rows) (hcompared : Compared ledger pc)
    (hm : ∀ accepted ∈ acceptsBy pc, ∀ challenge ∈ rows ⟨.challenge, accepted.challengeId⟩,
      accepted.wrongBefore ≤ OtpChallenge.attempts challenge)
    (hc : Committed cfg pc rows rows') : GuessesBounded rows' ledger := by
  intro id challenge hfound hdone
  have hw := hc.challenge id
  rw [hfound] at hw
  generalize hbefore : rows ⟨.challenge, id⟩ = before at hw
  generalize hafter : some challenge = after at hw
  have haccepts {accepted : Accepted} {old : OtpChallenge} (ha : acceptsBy pc = some accepted)
      (hid : id = accepted.challengeId) (hrow : rows ⟨.challenge, id⟩ = some old)
      (hopen : old.unconsumed = true) :
      Decided ledger id accepted.wrongBefore ∧ accepted.wrongBefore < old.maxAttempts := by
    obtain ⟨-, hunlocked, -⟩ := of_decide_eq_true hopen
    have hattempts := (hok.challenges id old hrow).unlocked hunlocked
    have hcounted := hm accepted ha old (hid ▸ hrow)
    exact ⟨hid ▸ hcompared accepted (accepts_of_acceptsBy ha), by omega⟩
  cases hw with
  | same =>
    subst hafter
    exact hold id challenge hbefore hdone
  | sent he =>
    obtain rfl := some.inj hafter
    subst he
    obtain ⟨site, draws, userId, destination, channel, purpose, rfl⟩ := hpc
    rcases hdone with hdone | hdone <;> exact absurd rfl hdone
  | @accepted accepted old consumedAt ha hid hopen =>
    obtain rfl := some.inj hafter
    obtain ⟨hdecided, hlt⟩ := haccepts ha hid hbefore hopen
    exact ⟨accepted.wrongBefore, rfl, hdecided, hlt⟩
  | @verified draws accepted old verifiedAt he hid hopen =>
    obtain rfl := some.inj hafter
    obtain ⟨hopen, -, -⟩ := of_decide_eq_true hopen
    obtain ⟨hdecided, hlt⟩ := haccepts (by rw [he]; rfl) hid hbefore hopen
    exact ⟨accepted.wrongBefore, rfl, hdecided, hlt⟩
  | @attempt old now _ hopen =>
    obtain rfl := some.inj hafter
    obtain ⟨hopen, hunverified, -⟩ := of_decide_eq_true hopen
    obtain ⟨hunconsumed, -, -⟩ := of_decide_eq_true hopen
    rcases hdone with hdone | hdone
    · exact absurd hunconsumed hdone
    · exact absurd hunverified hdone
  | @consumed reset old he hid _ =>
    obtain rfl := some.inj hafter
    -- the challenge of a reset token is verified
    subst he
    obtain ⟨token, htoken, -, hsame⟩ := hpc
    obtain ⟨challenge, hchallenge, hverified⟩ := hok.verified reset.id token htoken
    rw [hsame, ← hid, hbefore] at hchallenge
    obtain rfl := some.inj hchallenge
    exact hold id old hbefore (.inr hverified)

def claims : Claims CredentialRow CredentialPc Ledger where
  shared v := RowsOk v.rows ∧ GuessesBounded v.rows v.memory
  call _ _ call v := PcOk call.pc v.rows ∧ Compared v.memory call.pc

theorem invariant : Invariant (credentials cfg) (notes cfg) countsWrong claims where
  init := ⟨rowsOk_init, nofun⟩
  tick v ms := ⟨fun h => h, fun i b call h => h⟩
  abort i call v h := h
  event _ e := e.elim
  start i b v x _ _ := by
    obtain ⟨request, draws⟩ := x
    refine ⟨pcOk_start, ?_⟩
    cases request <;> exact compared_of_none rfl
  thrown _ _ _ _ _ := ⟨trivial, compared_of_none rfl⟩
  running s i call c cond data db tx hat _ _ _ _ := hat.call
  replied s i call c stmt db tx reply pc hat _ hstmt _ hs hlive hnext :=
    ⟨hat.call.1.replied hat hlive hstmt hs hnext, hat.call.2.of_next hnext⟩
  outside s i call c m pc hat _ _ hout := by
    have hcall := And.intro (hat.call.1.of_outside hout) (hat.call.2.of_outside hout)
    rcases ledger_of_outside hout with rfl | ⟨comparison, rfl⟩
    · exact ⟨hat.shared, hcall, fun j callj _ _ h => h⟩
    · refine ⟨⟨hat.shared.1, hat.shared.2.compared comparison⟩, hcall, fun j callj _ _ h => ?_⟩
      exact ⟨h.1, fun accepted ha => (h.2 accepted ha).compared comparison⟩
  commit s i call c rows hat hm hstmt hcommits _ hwrote := by
    have hc : Committed cfg call.pc s.db.rows rows := ⟨commit_of_stmt hstmt, hwrote⟩
    obtain ⟨hok, hbounded⟩ := hat.shared
    obtain ⟨hpc, hcompared⟩ := hat.call
    refine ⟨⟨hok.commit hpc hc, guessesBounded_commit hok hbounded hpc hcompared (hm hcommits) hc⟩,
      fun pc hnext => ?_, fun j callj _ _ h => ⟨h.1.commit hc, h.2⟩⟩
    exact ⟨hpc.returned hc hstmt hnext, hcompared.of_next hnext⟩

/-- **If every wrong code has been counted** when a right one is accepted, a challenge is verified or
consumed only by a code that came after fewer wrong ones than the challenge allows. -/
theorem guesses_bounded {w : CredentialWorld}
    (h : ReachableBy (credentials cfg).program.system (StepsMeet countsWrong) w) :
    GuessesBounded w.shared.db.rows w.shared.memory :=
  (invariant.holds follows h).1.2

/-! ### Runs -/

def sendCode : CredentialLabel := .spawn ⟨.sendOtp "user@example.com" .email .login, { code := "1" }⟩

def guess (code : String) : CredentialLabel :=
  .spawn ⟨.verifyOtp "user@example.com" .email .login code, { sessionId := 7, refreshTokenId := 7 }⟩

/-- The challenge is consumed after `n` wrong codes. -/
def consumedAfter (n : ℕ) (rows : CredentialRows) : Bool :=
  Option.any (fun challenge => decide (OtpChallenge.consumedAt challenge ≠ none ∧
    challenge.wrongBefore = some n ∧ challenge.maxAttempts = 5)) (rows ⟨.challenge, 0⟩)

/-- A wrong code that is counted, and then the right one. -/
theorem guesses_bounded_counted : ∃ w : CredentialWorld,
    consumedAfter 1 w.shared.db.rows = true ∧ GuessesBounded w.shared.db.rows w.shared.memory := by
  obtain ⟨w, hw, hconsumed⟩ := (credentials exampleConfig).program.exists_reached
    (StepsMeet countsWrong)
    ([sendCode] ++ steps 0 4 ++ [guess "2"] ++ steps 1 7 ++ [guess "1"] ++ steps 2 8)
    (fun w => consumedAfter 1 w.shared.db.rows = true) (by decide)
  exact ⟨w, hconsumed, guesses_bounded hw⟩

/-- **Guesses beyond the bound.** Five wrong codes are compared, none of which has been counted yet,
and then the right one. -/
theorem unbounded_guesses : ∃ w : CredentialWorld,
    Reachable (credentials exampleConfig).program.system w ∧
      ¬ GuessesBounded w.shared.db.rows w.shared.memory := by
  obtain ⟨w, hw, hconsumed⟩ := (credentials exampleConfig).program.exists_reached anyStep
    ([sendCode] ++ steps 0 4 ++ List.replicate 5 (guess "2") ++ steps 1 2 ++ steps 2 2 ++
      steps 3 2 ++ steps 4 2 ++ steps 5 2 ++ [guess "1"] ++ steps 6 8)
    (fun w => consumedAfter 5 w.shared.db.rows = true) (by decide)
  refine ⟨w, hw, fun hbounded => ?_⟩
  obtain ⟨challenge, hfound, hdone⟩ := (Option.any_eq_true _ _).mp hconsumed
  obtain ⟨hconsumedAt, hwrong, hmax⟩ := of_decide_eq_true hdone
  obtain ⟨n, hn, -, hlt⟩ := hbounded 0 challenge hfound (.inl hconsumedAt)
  obtain rfl := some.inj (hwrong.symm.trans hn)
  omega

end BackendFoundation.Auth.GuessBound
