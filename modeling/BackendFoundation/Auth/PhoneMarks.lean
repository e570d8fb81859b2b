import BackendFoundation.Auth.CredentialModel
import BackendFoundation.Lib.Logs

/-! # Verified phones

The calls that write the phone of a user or its mark `phoneVerifiedAt`: `updateOwnProfile` of
`users.service.ts`, `sendPhoneVerification` and `verifyOtp` of `auth.otp.service.ts`, and
`deleteAccount` of `auth.account.service.ts`. A call executes a statement, or a row of one, a step.
The rows of other tables are left out, and so is the session that a code for a login opens; a
statement may fail for any reason.

An id is never used twice, so the id of a challenge has the columns that never change.

`updateOwnProfile` keeps the mark if it is given the phone that it has read; by then the user may
have verified another one (`Restores`).

Main result: `phone_marks`. -/

namespace BackendFoundation.Auth.PhoneMarks

open Lib.Runs Lib.Interleave Lib.Database Lib.Transact Lib.WriteLog Lib.Schema Lib.Services Lib.Logs
open Lib.Rows Errors Crypto
open Auth.SessionModel (UserStatus)
open Auth.AccountModel (OtpChannel verificationTransition)
open Auth.CredentialModel (PublicPurpose p2025)
open Option (some.inj)

/-! ### Rows -/

structure User where
  email : Option String := none
  phone : Option String := none
  displayName : Option String := none
  locale : String := "en"
  pendingEmail : Option String := none
  passwordHash : Option SecretHash := none
  stripeCustomerId : Option String := none
  status : UserStatus := .active
  emailVerifiedAt : Option ℕ := none
  phoneVerifiedAt : Option ℕ := none
  lastLoginAt : Option ℕ := none
  deletedAt : Option ℕ := none
deriving DecidableEq

/-- The id of a challenge, with its constant columns. -/
structure ChallengeId where
  id : ℕ
  userId : ℕ
  normalizedDestination : String
  channel : OtpChannel
  purpose : PublicPurpose
  codeHash : SecretHash
  maxAttempts : ℕ := 5
  sentAt : ℕ
  expiresAt : ℕ
  createdAt : ℕ
deriving DecidableEq

structure OtpChallenge where
  attempts : ℕ := 0
  verifiedAt : Option ℕ := none
  consumedAt : Option ℕ := none
  lockedAt : Option ℕ := none
  deletedAt : Option ℕ := none
deriving DecidableEq

inductive Relation
  | user | challenge
deriving DecidableEq

abbrev Id : Relation → Type
  | .user => ℕ
  | .challenge => ChallengeId

abbrev Row : Relation → Type
  | .user => User
  | .challenge => OtpChallenge

instance : ∀ t, DecidableEq (Id t)
  | .user => inferInstanceAs (DecidableEq ℕ)
  | .challenge => inferInstanceAs (DecidableEq ChallengeId)

instance : ∀ t, DecidableEq (Row t)
  | .user => inferInstanceAs (DecidableEq User)
  | .challenge => inferInstanceAs (DecidableEq OtpChallenge)

abbrev PhoneKey := Key Id

abbrev PhoneRow := RowOf Id Row

abbrev PhoneRows := Rows PhoneRow

abbrev PhoneStmt := Stmt PhoneRow

abbrev PhoneUpdate (t : Relation) := Update Id Row t

def User.live (user : User) : Bool := user.deletedAt = none

def User.active (user : User) : Bool := user.status = .active ∧ user.live

def OtpChallenge.unconsumed (challenge : OtpChallenge) : Bool :=
  challenge.consumedAt = none ∧ challenge.lockedAt = none ∧ challenge.deletedAt = none

/-! ### Calls -/

/-- The fields of a profile; `none` is a field that is not given. -/
structure ProfileInput where
  displayName : Option (Option String) := none
  phone : Option (Option String) := none
  locale : Option String := none
deriving DecidableEq

/-- What `sendPhoneVerification` draws, and the id that the database gives to the challenge. -/
structure Draws where
  code : String := ""
  salt : String := ""
  id : ℕ := 0
deriving DecidableEq

inductive PhoneRequest
  | updateOwnProfile (userId : ℕ) (input : ProfileInput)
  | sendPhoneVerification (userId : ℕ) (destination : String) (draws : Draws)
  | verifyOtp (destination : String) (channel : OtpChannel) (purpose : PublicPurpose)
      (code : String)
  /-- `socialReauth` says that a social identity is given, and is one of the user. -/
  | deleteAccount (userId : ℕ) (password : Option String) (socialReauth : Bool)
deriving DecidableEq

inductive PhoneResult
  | void
  | null
  | verified
  | tokenPair
  | updated
  | deleted (deleted : Bool)
deriving DecidableEq

inductive PhonePc
  /-- `updateOwnProfile`; `current` is the phone that it has read. -/
  | findProfile (userId : ℕ) (input : ProfileInput)
  | updateProfile (userId : ℕ) (input : ProfileInput) (current : Option String)
  | commitProfile (userId : ℕ) (input : ProfileInput) (current : Option String)
  /-- `sendPhoneVerification`. -/
  | findEligible (userId : ℕ) (destination : String) (draws : Draws)
  | findRecent (userId : ℕ) (destination : String) (draws : Draws) (now : ℕ)
  | insertChallenge (id : ChallengeId)
  | commitChallenge (id : ChallengeId)
  /-- `verifyOtp`. -/
  | findOtp (destination : String) (channel : OtpChannel) (purpose : PublicPurpose) (code : String)
  | compare (id : ChallengeId) (code : String)
  | consume (id : ChallengeId) (consumedAt : ℕ)
  | readUser (id : ChallengeId) (consumedAt : ℕ)
  | verifyUser (id : ChallengeId) (consumedAt : ℕ) (status : UserStatus) (verifiedAt : ℕ)
  /-- With the values of `verifyUser`, if it was executed. -/
  | commitOtp (id : ChallengeId) (consumedAt : ℕ) (user : Option (UserStatus × ℕ)) (allowed : Bool)
  | recordInvalid (id : ChallengeId) (now : ℕ)
  | commitInvalid (id : ChallengeId) (now : ℕ)
  /-- `deleteAccount`. -/
  | confirmAccount (userId : ℕ) (password : Option String) (socialReauth : Bool)
  | eraseUser (userId deletedAt : ℕ)
  | eraseChallenges (userId deletedAt : ℕ)
  | commitErase (userId deletedAt : ℕ)
  | returned (result : PhoneResult)
  | thrown (error : Thrown)
deriving DecidableEq

/-! ### Statements -/

/-- The data of `updateOwnProfile`. -/
def ProfileInput.data (input : ProfileInput) (current : Option String) (user : User) : User :=
  { user with
    displayName := input.displayName.getD user.displayName
    locale := input.locale.getD user.locale
    phone := input.phone.getD user.phone
    phoneVerifiedAt :=
      match input.phone with
      | some phone => if phone ≠ current then none else user.phoneVerifiedAt
      | none => user.phoneVerifiedAt }

def updateProfile (userId : ℕ) (input : ProfileInput) (current : Option String) :
    PhoneUpdate .user where
  cond id user := id = userId ∧ user.live
  data := input.data current

def consume (id : ChallengeId) (consumedAt : ℕ) : PhoneUpdate .challenge where
  cond id' challenge := id' = id ∧ challenge.unconsumed
  data challenge := { challenge with consumedAt := some consumedAt }

/-- The address of a challenge is verified. -/
def User.verified (id : ChallengeId) (status : UserStatus) (verifiedAt : ℕ) (user : User) : User :=
  { user with
    emailVerifiedAt := if id.purpose = .verifyEmail then some verifiedAt else user.emailVerifiedAt
    phone := if id.purpose = .verifyEmail then user.phone else some id.normalizedDestination
    phoneVerifiedAt := if id.purpose = .verifyEmail then user.phoneVerifiedAt else some verifiedAt
    status := if verificationTransition status = .activate then .active else user.status }

def verifyUser (id : ChallengeId) (status : UserStatus) (verifiedAt : ℕ) : PhoneUpdate .user where
  cond userId user := userId = id.userId ∧ user.status = status ∧ user.live
  data := User.verified id status verifiedAt

def countAttempt (id : ChallengeId) (now : ℕ) : PhoneUpdate .challenge where
  cond id' challenge := id' = id ∧ challenge.attempts < id.maxAttempts ∧ challenge.unconsumed ∧
    challenge.verifiedAt = none ∧ now < id.expiresAt
  data challenge :=
    { challenge with
      attempts := challenge.attempts + 1
      lockedAt := if id.maxAttempts ≤ challenge.attempts + 1 then some now else challenge.lockedAt }

def User.erased (deletedAt : ℕ) (_ : User) : User where
  status := .disabled
  deletedAt := some deletedAt

def eraseUser (userId deletedAt : ℕ) : PhoneUpdate .user where
  cond id user := id = userId ∧ user.live
  data := User.erased deletedAt

def eraseChallenges (userId : ℕ) : Removal Id Row .challenge where
  cond id challenge := id.userId = userId ∧ challenge.deletedAt = none

def phoneStmt : PhonePc → Option PhoneStmt
  | .findProfile .. | .findEligible .. | .findRecent .. | .findOtp .. | .readUser ..
  | .confirmAccount .. => some .read
  | .updateProfile userId input current => some (updateProfile userId input current).stmt
  | .insertChallenge id => some (.insert ⟨.challenge, id⟩ {})
  | .consume id consumedAt => some (consume id consumedAt).stmt
  | .verifyUser id _ status verifiedAt => some (verifyUser id status verifiedAt).stmt
  | .recordInvalid id now => some (countAttempt id now).stmt
  | .eraseUser userId deletedAt => some (eraseUser userId deletedAt).stmt
  | .eraseChallenges userId _ => some (eraseChallenges userId).stmt
  | .commitProfile .. | .commitChallenge .. | .commitOtp .. | .commitInvalid .. | .commitErase .. =>
    some .commit
  | .compare .. | .returned _ | .thrown _ => none

/-! ### Where a call goes on -/

section Next

variable (site : Site PhoneKey)

def findEligible (userId : ℕ) (destination : String) (draws : Draws) (rows : PhoneRows) : PhonePc :=
  if (rows ⟨.user, userId⟩).any User.active then .findRecent userId destination draws site.now
  else .returned .void

def newChallenge (userId : ℕ) (destination : String) (draws : Draws) : ChallengeId where
  id := draws.id
  userId := userId
  normalizedDestination := destination
  channel := .sms
  purpose := .verifyPhone
  codeHash := hashSecret draws.salt draws.code
  sentAt := site.now
  expiresAt := site.now + 5 * 60000
  createdAt := site.now

/-- A challenge that has been sent to the user in the last minute. -/
def recentlySent (now userId : ℕ) (destination : String) (id : ChallengeId)
    (challenge : OtpChallenge) : Bool :=
  id.userId = userId ∧ id.normalizedDestination = destination ∧ id.channel = .sms ∧
    id.purpose = .verifyPhone ∧ now ≤ id.sentAt + 60000 ∧ challenge.unconsumed

def findRecent (userId : ℕ) (destination : String) (draws : Draws) (now : ℕ) (rows : PhoneRows) :
    PhonePc :=
  if findMany rows site.keys .challenge (recentlySent now userId destination) ≠ [] then
    .returned .void
  else .insertChallenge (newChallenge site userId destination draws)

/-- `findFirst` with `orderBy: { createdAt: 'desc' }`. -/
def findNewest (rows : PhoneRows) (cond : ChallengeId → OtpChallenge → Bool) :
    Option (Option ChallengeId) :=
  let found := (findMany rows site.keys .challenge cond).map Prod.fst
  pickFirst (found.filter fun id => found.all fun other => other.createdAt ≤ id.createdAt) site.pick

def findOtp (destination : String) (channel : OtpChannel) (purpose : PublicPurpose) (code : String)
    (rows : PhoneRows) : Option PhonePc :=
  (findNewest site rows fun id challenge => id.normalizedDestination = destination ∧
      id.channel = channel ∧ id.purpose = purpose ∧ challenge.unconsumed).map
    fun
    | none => .returned .null
    | some id =>
      if id.expiresAt ≤ site.now ∨ rows ⟨.user, id.userId⟩ = none then .returned .null
      else .compare id code

/-- What `verifyOtp` does with the user that it reads in its transaction. -/
def otpUser (id : ChallengeId) (consumedAt : ℕ) (rows : PhoneRows) : PhonePc :=
  match (rows ⟨.user, id.userId⟩).filter User.live with
  | none => .commitOtp id consumedAt none false
  | some user =>
    if id.purpose = .login then .commitOtp id consumedAt none (user.status = .active)
    else if verificationTransition user.status = .blocked then .commitOtp id consumedAt none false
    else .verifyUser id consumedAt user.status site.now

def confirmAccount (userId : ℕ) (password : Option String) (socialReauth : Bool)
    (rows : PhoneRows) : PhonePc :=
  match (rows ⟨.user, userId⟩).filter User.active with
  | none => .returned (.deleted false)
  | some user =>
    let confirmed :=
      match user.passwordHash with
      | some passwordHash => password.any (verifySecret passwordHash)
      | none => socialReauth
    if confirmed then .eraseUser userId site.now else .returned (.deleted false)

/-- The reply to an `update` of one row, which has to be there. -/
def required (n : ℕ) (pc : PhonePc) : Except Thrown PhonePc :=
  if n = 0 then .error p2025 else .ok pc

def phoneNext : PhonePc → Reply PhoneRow → Option (Except Thrown PhonePc)
  | .findProfile userId input, .rows rows =>
    some (.ok (
      match (rows ⟨.user, userId⟩).filter User.live with
      | none => .returned .null
      | some user => .updateProfile userId input user.phone))
  | .updateProfile userId input current, .count n =>
    some (required n (.commitProfile userId input current))
  | .commitProfile .., .done => some (.ok (.returned .updated))
  | .findEligible userId destination draws, .rows rows =>
    some (.ok (findEligible site userId destination draws rows))
  | .findRecent userId destination draws now, .rows rows =>
    some (.ok (findRecent site userId destination draws now rows))
  | .insertChallenge id, .done => some (.ok (.commitChallenge id))
  | .commitChallenge _, .done => some (.ok (.returned .void))
  | .findOtp destination channel purpose code, .rows rows =>
    (findOtp site destination channel purpose code rows).map .ok
  | .consume id consumedAt, .count n =>
    some (
      if n ≠ 1 then .error (.error "OTP was already consumed") else .ok (.readUser id consumedAt))
  | .readUser id consumedAt, .rows rows => some (.ok (otpUser site id consumedAt rows))
  | .verifyUser id consumedAt status verifiedAt, .count n =>
    some (.ok (.commitOtp id consumedAt (some (status, verifiedAt)) (n = 1)))
  | .commitOtp id _ _ allowed, .done =>
    some (.ok (.returned (
      if !allowed then .null else if id.purpose = .login then .tokenPair else .verified)))
  | .recordInvalid id now, .count _ => some (.ok (.commitInvalid id now))
  | .commitInvalid .., .done => some (.ok (.returned .null))
  | .confirmAccount userId password socialReauth, .rows rows =>
    some (.ok (confirmAccount site userId password socialReauth rows))
  | .eraseUser userId deletedAt, .count n =>
    some (required n (.eraseChallenges userId deletedAt))
  | .eraseChallenges userId deletedAt, .count _ => some (.ok (.commitErase userId deletedAt))
  | .commitErase .., .done => some (.ok (.returned (.deleted true)))
  | _, _ => none

/-- The code is compared; the transaction that follows builds its first statement at once. -/
def phoneOutside (memory : Unit) : PhonePc → Option (Unit × PhonePc)
  | .compare id code =>
    some (memory,
      if verifySecret id.codeHash code then .consume id site.now else .recordInvalid id site.now)
  | _ => none

end Next

/-! ### The service -/

def startPc : PhoneRequest → PhonePc
  | .updateOwnProfile userId input => .findProfile userId input
  | .sendPhoneVerification userId destination draws => .findEligible userId destination draws
  | .verifyOtp destination channel purpose code => .findOtp destination channel purpose code
  | .deleteAccount userId password socialReauth => .confirmAccount userId password socialReauth

/-- A user with a mark has a phone that a consumed challenge of the user has verified. -/
def Marked (rows : PhoneRows) (userId : ℕ) (phone : Option String) : Prop :=
  ∃ (id : ChallengeId) (challenge : OtpChallenge), rows ⟨.challenge, id⟩ = some challenge ∧
    id.userId = userId ∧ id.purpose = .verifyPhone ∧ challenge.consumedAt ≠ none ∧
    phone = some id.normalizedDestination

/-- **`phoneVerifiedAt` is sound.** -/
def Sound (rows : PhoneRows) : Prop := ∀ (userId : ℕ) (user : User),
  rows ⟨.user, userId⟩ = some user → user.phoneVerifiedAt ≠ none → Marked rows userId user.phone

/-- What there is before the calls. -/
structure PhoneConfig where
  rows : PhoneRows
  keys : List PhoneKey
  listed : ∀ k, rows k ≠ none → k ∈ keys
  sound : Sound rows

/-- **The calls that write a phone or its mark.** -/
def phones (cfg : PhoneConfig) : Service PhoneRow PhonePc PhoneRequest Unit Empty Thrown where
  rows := cfg.rows
  keys := cfg.keys
  memory := ()
  start _ request := startPc request
  stmt := phoneStmt
  next := phoneNext
  outside := phoneOutside
  record _ _ memory := memory
  thrown := .thrown
  errors := ⟨.prisma "P2002" "Unique constraint failed", .prisma "P2034" "Write conflict"⟩
  event _ e := e.elim

/-! ### What the calls write -/

abbrev PhoneWorld := ServiceWorld PhoneRow PhonePc Unit

abbrev PhoneLabel := ServiceLabel PhoneRequest Empty Thrown

/-- What the statements of the transaction have written so far. -/
def written : PhonePc → List (Entry PhoneRow)
  | .commitProfile userId input current => [(updateProfile userId input current).must userId]
  | .commitChallenge id => [New .challenge id {}]
  | .readUser id consumedAt | .verifyUser id consumedAt _ _ | .commitOtp id consumedAt none _ =>
    [(consume id consumedAt).must id]
  | .commitOtp id consumedAt (some (status, verifiedAt)) _ =>
    [(consume id consumedAt).must id, (verifyUser id status verifiedAt).may]
  | .commitInvalid id now => [(countAttempt id now).may]
  | .eraseChallenges userId deletedAt => [(eraseUser userId deletedAt).must userId]
  | .commitErase userId deletedAt =>
    [(eraseUser userId deletedAt).must userId, (eraseChallenges userId).may]
  | _ => []

variable {cfg : PhoneConfig} {site : Site PhoneKey} {reply : Reply PhoneRow} {pc pc' : PhonePc}
  {stmt : PhoneStmt}

theorem ok_of_required {n : ℕ} (h : required n pc = .ok pc') : n ≠ 0 ∧ pc' = pc := by
  unfold required at h
  split_ifs at h with hn
  exact ⟨hn, (Except.ok.inj h).symm⟩

theorem written_findEligible {userId : ℕ} {destination : String} {draws : Draws}
    {rows : PhoneRows} : written (findEligible site userId destination draws rows) = [] := by
  unfold findEligible
  split_ifs <;> rfl

theorem written_findRecent {userId now : ℕ} {destination : String} {draws : Draws}
    {rows : PhoneRows} : written (findRecent site userId destination draws now rows) = [] := by
  unfold findRecent
  split_ifs <;> rfl

theorem written_findOtp {destination code : String} {channel : OtpChannel}
    {purpose : PublicPurpose} {rows : PhoneRows}
    (h : findOtp site destination channel purpose code rows = some pc) : written pc = [] := by
  obtain ⟨found, -, rfl⟩ := Option.map_eq_some_iff.mp h
  cases found with
  | none => rfl
  | some id =>
    dsimp only
    split_ifs <;> rfl

variable {consumedAt : ℕ}

theorem written_otpUser {id : ChallengeId} {rows : PhoneRows} :
    written (otpUser site id consumedAt rows) = [(consume id consumedAt).must id] := by
  unfold otpUser
  split
  · rfl
  · split_ifs <;> rfl

theorem written_confirmAccount {userId : ℕ} {password : Option String} {socialReauth : Bool}
    {rows : PhoneRows} :
    written (confirmAccount site userId password socialReauth rows) = [] := by
  unfold confirmAccount
  split
  · rfl
  · dsimp only
    split_ifs <;> rfl

theorem phone_leads (hstmt : phoneStmt pc = some stmt)
    (h : phoneNext site pc reply = some (.ok pc')) :
    Leads (written pc) stmt reply (written pc') := by
  unfold phoneNext at h
  split at h <;> try cases hstmt
  · obtain rfl := point_inj h
    split <;> exact .read
  · obtain ⟨hn, rfl⟩ := ok_of_required (some.inj h)
    exact .write fun _ _ _ he =>
      Update.effect_must he hn fun _ _ hu => (of_decide_eq_true hu).1
  · exact .commit
  · obtain rfl := point_inj h
    rw [written_findEligible]
    exact .read
  · obtain rfl := point_inj h
    rw [written_findRecent]
    exact .read
  · obtain rfl := point_inj h
    exact .write fun _ _ _ => effect_new
  · exact .commit
  · obtain ⟨pc, hpc, he⟩ := Option.map_eq_some_iff.mp h
    obtain rfl := Except.ok.inj he
    rw [written_findOtp hpc]
    exact .read
  · split_ifs at h with hn
    · cases h
    obtain rfl := point_inj h
    exact .write fun _ _ _ he =>
      Update.effect_must he (by omega) fun _ _ hu => (of_decide_eq_true hu).1
  · obtain rfl := point_inj h
    rw [written_otpUser]
    exact .read
  · obtain rfl := point_inj h
    exact .write fun _ _ _ => Update.effect_may
  · exact .commit
  · obtain rfl := point_inj h
    exact .write fun _ _ _ => Update.effect_may
  · exact .commit
  · obtain rfl := point_inj h
    rw [written_confirmAccount]
    exact .read
  · obtain ⟨hn, rfl⟩ := ok_of_required (some.inj h)
    exact .write fun _ _ _ he =>
      Update.effect_must he hn fun _ _ hu => (of_decide_eq_true hu).1
  · obtain rfl := point_inj h
    exact .write fun _ _ _ => Removal.effect_may
  · exact .commit
  · cases h

inductive Commit : PhonePc → Prop
  | profile {userId : ℕ} {input : ProfileInput} {current : Option String} :
      Commit (.commitProfile userId input current)
  | challenge {id : ChallengeId} : Commit (.commitChallenge id)
  | otp {id : ChallengeId} {consumedAt : ℕ} {user : Option (UserStatus × ℕ)} {allowed : Bool} :
      Commit (.commitOtp id consumedAt user allowed)
  | invalid {id : ChallengeId} {now : ℕ} : Commit (.commitInvalid id now)
  | erase {userId deletedAt : ℕ} : Commit (.commitErase userId deletedAt)

theorem commit_of_stmt (h : phoneStmt pc = some .commit) : Commit pc := by
  cases pc with
  | commitProfile => exact .profile
  | commitChallenge => exact .challenge
  | commitOtp => exact .otp
  | commitInvalid => exact .invalid
  | commitErase => exact .erase
  | updateProfile | consume | verifyUser | recordInvalid | eraseUser =>
    exact absurd (some.inj h) Update.stmt_ne_commit
  | eraseChallenges => exact absurd (some.inj h) Removal.stmt_ne_commit
  | _ => cases h

theorem returned_of_commit (hc : Commit pc) (h : phoneNext site pc reply = some (.ok pc')) :
    ∃ result, pc' = .returned result := by
  cases hc <;> cases reply <;> cases h <;> exact ⟨_, rfl⟩

theorem outside_cases {m m' : Unit} (h : phoneOutside site m pc = some (m', pc')) :
    written pc = [] ∧ written pc' = [] := by
  unfold phoneOutside at h
  split at h
  · obtain ⟨-, rfl⟩ := pair_inj h
    split_ifs <;> exact ⟨rfl, rfl⟩
  · cases h

theorem lists : Lists (phones cfg) written fun _ => [] where
  listed := cfg.listed
  start now request := by cases request <;> exact ⟨rfl, rfl⟩
  leads site pc stmt reply pc' hstmt hnext := phone_leads hstmt hnext
  held _ _ _ _ _ _ _ _ hk := nomatch hk
  commit site pc reply pc' hstmt hnext := by
    obtain ⟨result, rfl⟩ := returned_of_commit (commit_of_stmt hstmt) hnext
    exact ⟨rfl, rfl⟩
  outside site m pc m' pc' hout := by
    obtain ⟨hpc, hpc'⟩ := outside_cases hout
    exact ⟨hpc'.trans hpc.symm, rfl⟩
  thrown e := ⟨rfl, fun _ _ => rfl⟩

/-! ### What a commit does to a row -/

inductive UserWrite (pc : PhonePc) (userId : ℕ) : Option User → Option User → Prop
  | same {user : Option User} : UserWrite pc userId user user
  | profile {input : ProfileInput} {current : Option String} {user : User} :
      pc = .commitProfile userId input current →
      UserWrite pc userId (some user) (some (input.data current user))
  | verified {id : ChallengeId} {consumedAt verifiedAt : ℕ} {status : UserStatus} {allowed : Bool}
      {user : User} : pc = .commitOtp id consumedAt (some (status, verifiedAt)) allowed →
      userId = id.userId →
      UserWrite pc userId (some user) (some (user.verified id status verifiedAt))
  | erased {deletedAt : ℕ} {user : User} : pc = .commitErase userId deletedAt →
      UserWrite pc userId (some user) (some (user.erased deletedAt))

variable {userId : ℕ} {before after : Option User}

theorem commit_user (hc : Commit pc)
    (h : Entry.inTurn (written pc) ⟨.user, userId⟩ before after) :
    UserWrite pc userId before after := by
  cases hc with
  | @profile owner input current =>
    simp [written] at h
    rcases Update.must_cases h with ⟨-, rfl⟩ | ⟨rfl, user, rfl, -, rfl⟩
    · exact .same
    · exact .profile rfl
  | challenge =>
    simp [written] at h
    exact h ▸ .same
  | @otp id consumedAt user allowed =>
    cases user with
    | none =>
      simp [written] at h
      exact h ▸ .same
    | some verified =>
      obtain ⟨status, verifiedAt⟩ := verified
      simp [written] at h
      rcases Update.may_cases h with rfl | ⟨user, rfl, hcond, rfl⟩
      · exact .same
      · exact .verified rfl (of_decide_eq_true hcond).1
  | invalid =>
    simp [written] at h
    exact h ▸ .same
  | @erase owner deletedAt =>
    simp [written] at h
    rcases Update.must_cases h with ⟨-, rfl⟩ | ⟨rfl, user, rfl, -, rfl⟩
    · exact .same
    · exact .erased rfl

/-- A challenge that is consumed stays consumed, unless the account of its user is erased. -/
theorem commit_challenge {id : ChallengeId} {challenge : OtpChallenge}
    {after : Option OtpChallenge} (hc : Commit pc) (hconsumed : challenge.consumedAt ≠ none)
    (h : Entry.inTurn (written pc) ⟨.challenge, id⟩ (some challenge) after) :
    (∃ challenge' : OtpChallenge, after = some challenge' ∧ challenge'.consumedAt ≠ none) ∨
      ∃ deletedAt, pc = .commitErase id.userId deletedAt := by
  cases hc with
  | profile =>
    simp [written] at h
    exact .inl ⟨challenge, h, hconsumed⟩
  | challenge =>
    simp [written] at h
    rcases new_cases h with ⟨-, hafter⟩ | ⟨-, hnone, -⟩
    · exact .inl ⟨challenge, hafter, hconsumed⟩
    · cases hnone
  | @otp id' consumedAt user allowed =>
    have hconsume : (consume id' consumedAt).must id' ⟨.challenge, id⟩ (some challenge) after := by
      cases user with
      | none => simpa [written] using h
      | some verified => simpa [written] using h
    rcases Update.must_cases hconsume with ⟨-, hafter⟩ | ⟨-, row, -, -, hafter⟩
    · exact .inl ⟨challenge, hafter, hconsumed⟩
    · exact .inl ⟨_, hafter, nofun⟩
  | invalid =>
    simp [written] at h
    rcases Update.may_cases h with hafter | ⟨row, hrow, -, hafter⟩
    · exact .inl ⟨challenge, hafter, hconsumed⟩
    · obtain rfl := some.inj hrow
      exact .inl ⟨_, hafter, hconsumed⟩
  | @erase userId deletedAt =>
    simp [written] at h
    rcases Removal.may_cases h with hafter | ⟨row, -, hcond, -⟩
    · exact .inl ⟨challenge, hafter, hconsumed⟩
    · exact .inr ⟨deletedAt, by rw [(of_decide_eq_true hcond).1]⟩

/-! ### One commit -/

/-- A call verifies an address only for a challenge that is not for a login. -/
def Verifies : PhonePc → Prop
  | .verifyUser id .. | .commitOtp id _ (some _) _ => id.purpose ≠ .login
  | _ => True

theorem verifies_of_written (h : written pc = []) : Verifies pc := by
  cases pc with
  | verifyUser => cases h
  | commitOtp id consumedAt user allowed => cases user <;> cases h
  | _ => trivial

theorem verifies_otpUser {id : ChallengeId} {rows : PhoneRows} :
    Verifies (otpUser site id consumedAt rows) := by
  unfold otpUser
  split
  · trivial
  · split_ifs with hlogin
    · trivial
    · trivial
    · exact hlogin

theorem Verifies.next (h : Verifies pc) (hnext : phoneNext site pc reply = some (.ok pc')) :
    Verifies pc' := by
  unfold phoneNext at hnext
  split at hnext
  · obtain rfl := point_inj hnext
    split <;> trivial
  · obtain ⟨-, rfl⟩ := ok_of_required (some.inj hnext)
    trivial
  · cases hnext
    trivial
  · obtain rfl := point_inj hnext
    exact verifies_of_written written_findEligible
  · obtain rfl := point_inj hnext
    exact verifies_of_written written_findRecent
  · cases hnext
    trivial
  · cases hnext
    trivial
  · obtain ⟨pc, hpc, he⟩ := Option.map_eq_some_iff.mp hnext
    obtain rfl := Except.ok.inj he
    exact verifies_of_written (written_findOtp hpc)
  · split_ifs at hnext
    · cases hnext
    · cases hnext
      trivial
  · obtain rfl := point_inj hnext
    exact verifies_otpUser
  · obtain rfl := point_inj hnext
    exact h
  · obtain rfl := point_inj hnext
    trivial
  · cases hnext
    trivial
  · cases hnext
    trivial
  · obtain rfl := point_inj hnext
    exact verifies_of_written written_confirmAccount
  · obtain ⟨-, rfl⟩ := ok_of_required (some.inj hnext)
    trivial
  · cases hnext
    trivial
  · cases hnext
    trivial
  · cases hnext

variable {w : PhoneWorld}

theorem verifies {i : ℕ} {call : Caller PhoneRow PhonePc}
    (h : Reachable (phones cfg).program.system w) (hp : w.proc? i = some call) :
    Verifies call.pc := by
  have hinv : Invariant (phones cfg) (notesOf written fun _ => []) (fun _ _ _ _ => True)
      ⟨fun _ => True, fun _ _ call _ => Verifies call.pc⟩ := by
    refine ⟨.of_points (Q := fun _ => Verifies) (fun i now request _ => ?_)
      (fun i e => trivial) (fun i site pc reply pc' hnext hpc => Verifies.next hpc hnext)
      (fun i site m pc m' pc' hout hpc => ?_), trivial⟩
    · exact verifies_of_written (lists.start now request).1
    · exact verifies_of_written (outside_cases hout).2
  exact (hinv.holds lists.follows (h.mono fun _ _ _ => stepsMeet_true)).2 i call hp

/-- The commit of a profile with the phone that the call has read: the user still has a mark, and
has never verified this phone. -/
def RestoresAt (rows : PhoneRows) (pc : PhonePc) : Prop :=
  ∃ userId input phone user, pc = .commitProfile userId input phone ∧ input.phone = some phone ∧
    rows ⟨.user, userId⟩ = some user ∧ user.phoneVerifiedAt ≠ none ∧ ¬ Marked rows userId phone

variable {rows rows' : PhoneRows} {phone : Option String}

theorem Marked.congr (h : Marked rows userId phone)
    (hsame : ∀ id, rows' ⟨.challenge, id⟩ = rows ⟨.challenge, id⟩) :
    Marked rows' userId phone := by
  obtain ⟨id, challenge, hfound, hmarked⟩ := h
  exact ⟨id, challenge, (hsame id).trans hfound, hmarked⟩

theorem Marked.commit (h : Marked rows userId phone) (hc : Commit pc)
    (hwrote : ∀ k, Entry.inTurn (written pc) k (rows k) (rows' k)) :
    Marked rows' userId phone ∨ ∃ deletedAt, pc = .commitErase userId deletedAt := by
  obtain ⟨id, challenge, hfound, rfl, hpurpose, hconsumed, hphone⟩ := h
  have hw := hwrote ⟨.challenge, id⟩
  rw [hfound] at hw
  rcases commit_challenge hc hconsumed hw with ⟨challenge', hfound', hconsumed'⟩ | herase
  · exact .inl ⟨id, challenge', hfound', rfl, hpurpose, hconsumed', hphone⟩
  · exact .inr herase

theorem marked_of_verified {id : ChallengeId} {verified : UserStatus × ℕ} {allowed : Bool}
    (hpurpose : id.purpose = .verifyPhone)
    (hwrote : ∀ k, Entry.inTurn (written (.commitOtp id consumedAt (some verified) allowed)) k
      (rows k) (rows' k)) : Marked rows' id.userId (some id.normalizedDestination) := by
  have hw := hwrote ⟨.challenge, id⟩
  simp [written] at hw
  rcases Update.must_cases hw with ⟨hne, -⟩ | ⟨-, challenge, -, -, hfound⟩
  · exact absurd rfl hne
  · exact ⟨id, _, hfound, rfl, hpurpose, nofun, rfl⟩

theorem data_of_current {input : ProfileInput} (h : input.phone = some phone) (user : User) :
    (input.data phone user).phone = phone ∧
      (input.data phone user).phoneVerifiedAt = user.phoneVerifiedAt := by
  simp [ProfileInput.data, h]

theorem mark_of_profile {input : ProfileInput} {current : Option String} {user : User}
    (h : (input.data current user).phoneVerifiedAt ≠ none) : user.phoneVerifiedAt ≠ none ∧
      ((input.data current user).phone = user.phone ∨
        input.phone = some current ∧ (input.data current user).phone = current) := by
  unfold ProfileInput.data at h ⊢
  cases hinput : input.phone with
  | none => exact ⟨by simpa [hinput] using h, .inl rfl⟩
  | some phone =>
    simp only [hinput, ne_eq, ite_not] at h
    split_ifs at h with hsame
    · subst hsame
      exact ⟨h, .inr ⟨rfl, rfl⟩⟩
    · exact absurd rfl h

/-- **A commit keeps the marks sound** exactly if it restores no phone. -/
theorem sound_commit (hsound : Sound rows) (hverifies : Verifies pc) (hc : Commit pc)
    (hwrote : ∀ k, Entry.inTurn (written pc) k (rows k) (rows' k)) :
    Sound rows' ↔ ¬ RestoresAt rows pc := by
  constructor
  · rintro hsound' ⟨userId, input, phone, user, rfl, hinput, hfound, hmark, hunmarked⟩
    have hw := hwrote ⟨.user, userId⟩
    simp [written] at hw
    rcases Update.must_cases hw with ⟨hne, -⟩ | ⟨-, row, hrow, -, hafter⟩
    · exact hne rfl
    obtain rfl := some.inj (hfound.symm.trans hrow)
    obtain ⟨hphone, hkept⟩ := data_of_current hinput user
    have hmarked := hsound' userId _ hafter (hkept.trans_ne hmark)
    change Marked rows' userId (input.data phone user).phone at hmarked
    rw [hphone] at hmarked
    refine hunmarked (hmarked.congr fun id => ?_)
    have hchallenge := hwrote ⟨.challenge, id⟩
    simp [written] at hchallenge
    exact hchallenge.symm
  · intro hno userId user' hfound' hmark'
    have hw := commit_user hc (hwrote ⟨.user, userId⟩)
    rw [hfound'] at hw
    generalize hbefore : rows ⟨.user, userId⟩ = before at hw
    generalize hafter : some user' = after at hw
    -- an account that is erased loses its challenges, and its mark with them
    have hkept {user : User} (hfound : rows ⟨.user, userId⟩ = some user)
        (hmark : user.phoneVerifiedAt ≠ none) : Marked rows' userId user.phone := by
      rcases (hsound userId user hfound hmark).commit hc hwrote with hmarked | ⟨deletedAt, rfl⟩
      · exact hmarked
      · have hw := hwrote ⟨.user, userId⟩
        simp [written] at hw
        rcases Update.must_cases hw with ⟨hne, -⟩ | ⟨-, row, -, -, herased⟩
        · exact absurd rfl hne
        · obtain rfl := some.inj (hfound'.symm.trans herased)
          exact absurd rfl hmark'
    cases hw with
    | same =>
      subst hafter
      exact hkept hbefore hmark'
    | @profile input current user hpc =>
      obtain rfl := some.inj hafter
      obtain ⟨hmark, hphone | ⟨hinput, hphone⟩⟩ := mark_of_profile hmark'
      · rw [hphone]
        exact hkept hbefore hmark
      · rw [hphone]
        by_contra hunmarked
        refine hno ⟨userId, input, current, user, hpc, hinput, hbefore, hmark, fun hmarked => ?_⟩
        rcases hmarked.commit hc hwrote with hmarked | ⟨deletedAt, herase⟩
        · exact hunmarked hmarked
        · rw [hpc] at herase
          cases herase
    | @verified id consumedAt verifiedAt status allowed user hpc hid =>
      obtain rfl := some.inj hafter
      subst hpc hid
      cases hpurpose : id.purpose with
      | login => exact absurd hpurpose hverifies
      | verifyEmail =>
        have hphone : (user.verified id status verifiedAt).phone = user.phone ∧
            (user.verified id status verifiedAt).phoneVerifiedAt = user.phoneVerifiedAt := by
          simp [User.verified, hpurpose]
        rw [hphone.1]
        exact hkept hbefore (hphone.2 ▸ hmark')
      | verifyPhone =>
        have hphone : (user.verified id status verifiedAt).phone =
            some id.normalizedDestination := by
          simp [User.verified, hpurpose]
        rw [hphone]
        exact marked_of_verified hpurpose hwrote
    | erased hpc =>
      obtain rfl := some.inj hafter
      exact absurd rfl hmark'

/-! ### The main result -/

/-- The step of `RestoresAt`. -/
def Restores (w : PhoneWorld) : PhoneLabel → Prop
  | .step i c => commits w.shared.db i .commit c.fate = true ∧
    ∃ call, w.proc? i = some call ∧ RestoresAt w.shared.db.rows call.pc
  | _ => False

theorem restores_iff {l : PhoneLabel} :
    Restores w l ↔ CommitsAt (fun s call => RestoresAt s.db.rows call.pc) w l := by
  cases l <;> exact Iff.rfl

theorem sound_of_commits {w w' : PhoneWorld} {i : ℕ} {c : Choice Thrown}
    {call : Caller PhoneRow PhonePc} (h : Reachable (phones cfg).program.system w)
    (hsound : Sound w.shared.db.rows)
    (hcommits : (phones cfg).Commits (notesOf written fun _ => []) w w' i c call) :
    Sound w'.shared.db.rows ↔ ¬ RestoresAt w.shared.db.rows call.pc :=
  sound_commit hsound (verifies h hcommits.proc) (commit_of_stmt hcommits.stmt) hcommits.wrote

/-- **Each step keeps the marks sound** exactly if it restores no phone. -/
theorem sound_step {w w' : PhoneWorld} {l : PhoneLabel}
    (h : Reachable (phones cfg).program.system w) (hsound : Sound w.shared.db.rows)
    (hn : (phones cfg).program.next w l = some w') :
    Sound w'.shared.db.rows ↔ ¬ Restores w l := by
  rw [restores_iff]
  refine lists.follows.kept_iff (Q := fun w => Sound w.shared.db.rows) _ h hn (fun call hcall => ?_)
    ?_ fun i c call _ hcommits => ?_
  · obtain ⟨userId, input, phone, user, hpc, -⟩ := hcall
    rw [hpc]
    rfl
  · refine (lists.follows.rows_of_next h hn).imp_left fun hrows => ?_
    rw [hrows]
    exact hsound
  · exact sound_of_commits h hsound hcommits

theorem sound_init (h : (phones cfg).program.system.init w) : Sound w.shared.db.rows := by
  obtain rfl : w = ⟨(phones cfg).program.init, []⟩ := h
  exact cfg.sound

/-- **A mark is sound**, in every run in which no profile is written with a phone that the call has
read, that the user has never verified, and that another one with a mark has replaced since. -/
theorem phone_marks (cfg : PhoneConfig) :
    (∀ w w' l, Reachable (phones cfg).program.system w → Sound w.shared.db.rows →
      (phones cfg).program.next w l = some w' →
      (Sound w'.shared.db.rows ↔ ¬ Restores w l)) ∧
    ∀ w, ReachableBy (phones cfg).program.system (fun w l => ¬ Restores w l) w →
      Sound w.shared.db.rows := by
  refine ⟨fun w w' l h hsound hn => sound_step h hsound hn, fun w h => ?_⟩
  refine h.invariant' (I := fun w => Sound w.shared.db.rows) (fun w hinit => sound_init hinit) ?_
  exact fun w w' l h hsound hno hn => (sound_step h.reachable hsound hn).mpr hno

/-! ### Runs -/

/-- An account with a phone that has not been verified. -/
def exampleRows : PhoneRows
  | ⟨.user, 0⟩ => some { phone := some "+15550000001" }
  | _ => none

theorem example_cases {k : PhoneKey} (h : exampleRows k ≠ none) : k = ⟨.user, 0⟩ := by
  unfold exampleRows at h
  split at h
  · rfl
  · exact absurd rfl h

def exampleConfig : PhoneConfig where
  rows := exampleRows
  keys := [⟨.user, 0⟩]
  listed k hk := List.mem_singleton.mpr (example_cases hk)
  sound userId user hfound hmark := by
    have hkey := example_cases (k := ⟨.user, userId⟩) (hfound ▸ Option.some_ne_none user)
    obtain rfl : userId = 0 := eq_of_heq (Sigma.mk.inj hkey).2
    obtain rfl := some.inj hfound
    exact absurd rfl hmark

def updateOwnProfile (phone : String) : PhoneLabel :=
  .spawn (.updateOwnProfile 0 { phone := some (some phone) })

def sendPhoneVerification : PhoneLabel :=
  .spawn (.sendPhoneVerification 0 "+15550000002" { code := "123456" })

def verifyOtp : PhoneLabel := .spawn (.verifyOtp "+15550000002" .sms .verifyPhone "123456")

/-- The user has a mark and this phone. -/
def hasMark (phone : String) (rows : PhoneRows) : Bool :=
  Option.any (fun user => decide (User.phone user = some phone ∧ User.phoneVerifiedAt user ≠ none))
    (rows ⟨.user, 0⟩)

def challenges (phone : String) : PhoneKey → Bool
  | ⟨.challenge, id⟩ => id.normalizedDestination = phone
  | ⟨.user, _⟩ => true

/-- Each profile that is committed has another phone than the one that the call has read. -/
def changesPhone (_ : Store PhoneRow Unit) (_ : ℕ) (call : Caller PhoneRow PhonePc)
    (_ : Choice Thrown) : Bool :=
  match call.pc with
  | .commitProfile _ input current => input.phone ≠ some current
  | _ => true

theorem not_restores_of_changesPhone {l : PhoneLabel}
    (h : StepsMeet (fun s i call c => changesPhone s i call c = true) w l) : ¬ Restores w l := by
  cases l with
  | step i c =>
    rintro ⟨-, call, hp, userId, input, phone, user, hpc, hinput, -⟩
    have hchanges : changesPhone w.shared i call c = true := h call hp
    unfold changesPhone at hchanges
    rw [hpc] at hchanges
    exact of_decide_eq_true hchanges hinput
  | _ => exact id

/-- The phone is changed in the profile, and another one is then verified. -/
theorem phone_marks_verified : ∃ w : PhoneWorld,
    hasMark "+15550000002" w.shared.db.rows = true ∧ Sound w.shared.db.rows := by
  obtain ⟨w, hw, hmark⟩ := (phones exampleConfig).program.exists_reached
    (StepsMeet fun s i call c => changesPhone s i call c = true)
    ([updateOwnProfile "+15550000003"] ++ steps 0 5 ++ [sendPhoneVerification] ++ steps 1 4 ++
      [verifyOtp] ++ steps 2 10)
    (fun w => hasMark "+15550000002" w.shared.db.rows = true) (by decide)
  exact ⟨w, hmark, (phone_marks exampleConfig).2 w
    (hw.mono fun _ _ => not_restores_of_changesPhone)⟩

/-- **A mark on a phone that has never been verified.** The profile is read, another phone is
verified, and the profile is then written with the old one. -/
theorem mark_restored : ∃ w : PhoneWorld,
    Reachable (phones exampleConfig).program.system w ∧ ¬ Sound w.shared.db.rows := by
  obtain ⟨w, hw, hmark, hkeys⟩ := (phones exampleConfig).program.exists_reached anyStep
    ([updateOwnProfile "+15550000001"] ++ steps 0 1 ++ [sendPhoneVerification] ++ steps 1 4 ++
      [verifyOtp] ++ steps 2 10 ++ steps 0 4)
    (fun w => hasMark "+15550000001" w.shared.db.rows = true ∧
      ∀ k ∈ w.shared.db.keys, challenges "+15550000002" k = true) (by decide)
  refine ⟨w, hw, fun hsound => ?_⟩
  obtain ⟨user, hfound, hmarked⟩ := (Option.any_eq_true _ _).mp hmark
  obtain ⟨hphone, hverified⟩ := of_decide_eq_true hmarked
  obtain ⟨id, challenge, hchallenge, -, -, -, hdestination⟩ := hsound 0 user hfound hverified
  have hlisted := ((lists.follows.outline anyStep).holds hw).shared
  have hother := of_decide_eq_true
    (hkeys ⟨.challenge, id⟩ (hlisted _ (hchallenge ▸ Option.some_ne_none challenge)))
  rw [hphone, hother] at hdestination
  exact absurd hdestination (by decide)

end BackendFoundation.Auth.PhoneMarks
