import BackendFoundation.Auth.AccountModel
import BackendFoundation.Lib.Schema
import BackendFoundation.Lib.Services

/-! # Passwords and one-time codes

The calls that compare a password or a code, and what follows: `loginWithPassword` and
`changePassword` of `auth.passwords.service.ts`, the calls of `auth.password-reset.service.ts`,
`sendOtp` and `verifyOtp` of `auth.otp.service.ts`, `requestEmailChange` and `verifyEmailChange` of
`auth.account.service.ts`, with `recordInvalidOtpAttempt` and `createSession`. A call executes a
statement, or a row of one, a step; it reads the clock where the source does, when it builds a
statement. A code is compared in a step of its own.

Audit events, outbox events and unique indexes besides the ids are left out: a statement may fail
for any reason. So is the revocation that is published for chats, which never fails. -/

namespace BackendFoundation.Auth.CredentialModel

open Lib.Database Lib.Interleave Lib.Transact Lib.Schema Lib.Services Lib.Rows Errors Crypto
open Auth.SessionModel (UserStatus expiresIn)
open Auth.AccountModel (OtpChannel VerificationTransition verificationTransition)

/-! ### Rows -/

structure User where
  email : Option String
  phone : Option String := none
  pendingEmail : Option String := none
  passwordHash : Option SecretHash := none
  status : UserStatus := .active
  emailVerifiedAt : Option ℕ := none
  phoneVerifiedAt : Option ℕ := none
  lastLoginAt : Option ℕ := none
  deletedAt : Option ℕ := none
  /-- Counts the passwords of the user; no program reads it. -/
  passwordVersion : ℕ := 0
  /-- The session that set the password; no program reads it. -/
  changedBy : Option ℕ := none
deriving DecidableEq

structure Session where
  userId : ℕ
  expiresAt : ℕ
  revokedAt : Option ℕ := none
  revokeReason : Option String := none
  deletedAt : Option ℕ := none
  /-- The password that the login compared, if it did; no program reads it. -/
  passwordVersion : Option ℕ := none
deriving DecidableEq

structure RefreshToken where
  userId : ℕ
  sessionId : ℕ
  tokenHash : MetadataHash
  expiresAt : ℕ
  revokedAt : Option ℕ := none
  deletedAt : Option ℕ := none
deriving DecidableEq

inductive OtpPurpose
  | login | verifyEmail | verifyPhone | passwordReset | emailChange
deriving DecidableEq

structure OtpChallenge where
  userId : ℕ
  normalizedDestination : String
  channel : OtpChannel
  purpose : OtpPurpose
  codeHash : SecretHash
  attempts : ℕ := 0
  maxAttempts : ℕ := 5
  sentAt : ℕ
  expiresAt : ℕ
  verifiedAt : Option ℕ := none
  consumedAt : Option ℕ := none
  lockedAt : Option ℕ := none
  createdAt : ℕ
  deletedAt : Option ℕ := none
  /-- The wrong codes compared before the one that verified or consumed the challenge; no program
  reads it. -/
  wrongBefore : Option ℕ := none
deriving DecidableEq

structure PasswordResetToken where
  userId : ℕ
  otpChallengeId : ℕ
  tokenHash : MetadataHash
  expiresAt : ℕ
  usedAt : Option ℕ := none
  deletedAt : Option ℕ := none
deriving DecidableEq

inductive Relation
  | user | session | refreshToken | challenge | resetToken
deriving DecidableEq

abbrev Id : Relation → Type := fun _ => ℕ

abbrev Row : Relation → Type
  | .user => User
  | .session => Session
  | .refreshToken => RefreshToken
  | .challenge => OtpChallenge
  | .resetToken => PasswordResetToken

instance : ∀ t, DecidableEq (Row t)
  | .user => inferInstanceAs (DecidableEq User)
  | .session => inferInstanceAs (DecidableEq Session)
  | .refreshToken => inferInstanceAs (DecidableEq RefreshToken)
  | .challenge => inferInstanceAs (DecidableEq OtpChallenge)
  | .resetToken => inferInstanceAs (DecidableEq PasswordResetToken)

abbrev CredentialKey := Key Id

abbrev CredentialRow := RowOf Id Row

abbrev CredentialRows := Rows CredentialRow

abbrev CredentialStmt := Stmt CredentialRow

/-! ### Policy -/

/-- Public OTP requests may only target users eligible for the requested purpose. -/
def requiredOtpUserStatus : OtpPurpose → UserStatus
  | .login | .passwordReset => .active
  | .verifyEmail | .verifyPhone | .emailChange => .pending

structure CredentialConfig where
  R : Runtime
  K : Keyring
  refreshTokenTtlDays : ℕ
  passwordResetTokenTtlMinutes : ℕ
  /-- The random text behind `dummyPasswordHash`. -/
  dummyPassword : String
  users : List User

/-! ### What the statements look for and set

Every query of the client skips rows that are soft-deleted. -/

def User.live (user : User) : Bool := user.deletedAt = none

def User.active (user : User) : Bool := user.status = .active ∧ user.live

def User.hasAddress (destination : String) (channel : OtpChannel) (user : User) : Bool :=
  match channel with
  | .email => user.email = some destination
  | .sms => user.phone = some destination

def Session.live (session : Session) : Bool :=
  session.revokedAt = none ∧ session.deletedAt = none

def RefreshToken.live (token : RefreshToken) : Bool :=
  token.revokedAt = none ∧ token.deletedAt = none

/-- The challenge is neither consumed nor locked. -/
def OtpChallenge.unconsumed (challenge : OtpChallenge) : Bool :=
  challenge.consumedAt = none ∧ challenge.lockedAt = none ∧ challenge.deletedAt = none

def OtpChallenge.unverified (at' : ℕ) (challenge : OtpChallenge) : Bool :=
  challenge.unconsumed ∧ challenge.verifiedAt = none ∧ at' < challenge.expiresAt

def PasswordResetToken.live (token : PasswordResetToken) : Bool :=
  token.usedAt = none ∧ token.deletedAt = none

def User.touched (lastLoginAt : ℕ) (user : User) : User :=
  { user with lastLoginAt := some lastLoginAt }

def User.withPending (newEmail : String) (user : User) : User :=
  { user with pendingEmail := some newEmail }

def User.withPassword (passwordHash : SecretHash) (changedBy : Option ℕ) (user : User) : User :=
  { user with
    passwordHash := some passwordHash
    passwordVersion := user.passwordVersion + 1
    changedBy := changedBy }

/-- The address of a challenge is verified. -/
def User.verified (purpose : OtpPurpose) (destination : String) (status : UserStatus)
    (verifiedAt : ℕ) (user : User) : User :=
  { user with
    emailVerifiedAt := if purpose = .verifyEmail then some verifiedAt else user.emailVerifiedAt
    phone := if purpose = .verifyEmail then user.phone else some destination
    phoneVerifiedAt := if purpose = .verifyEmail then user.phoneVerifiedAt else some verifiedAt
    status := if verificationTransition status = .activate then .active else user.status }

def User.withEmail (newEmail : String) (emailVerifiedAt : ℕ) (user : User) : User :=
  { user with
    email := some newEmail
    pendingEmail := none
    emailVerifiedAt := some emailVerifiedAt }

def Session.revoked (revokedAt : ℕ) (revokeReason : String) (session : Session) : Session :=
  { session with revokedAt := some revokedAt, revokeReason := some revokeReason }

def RefreshToken.revoked (revokedAt : ℕ) (token : RefreshToken) : RefreshToken :=
  { token with revokedAt := some revokedAt }

def OtpChallenge.verified (verifiedAt wrongBefore : ℕ) (challenge : OtpChallenge) : OtpChallenge :=
  { challenge with verifiedAt := some verifiedAt, wrongBefore := some wrongBefore }

def OtpChallenge.consumed (consumedAt : ℕ) (challenge : OtpChallenge) : OtpChallenge :=
  { challenge with consumedAt := some consumedAt }

/-- The challenge is consumed by the call that has compared its code. -/
def OtpChallenge.accepted (consumedAt wrongBefore : ℕ) (challenge : OtpChallenge) :
    OtpChallenge :=
  { challenge with consumedAt := some consumedAt, wrongBefore := some wrongBefore }

def OtpChallenge.withAttempt (now : ℕ) (challenge : OtpChallenge) : OtpChallenge :=
  { challenge with
    attempts := challenge.attempts + 1
    lockedAt :=
      if challenge.maxAttempts ≤ challenge.attempts + 1 then some now else challenge.lockedAt }

def PasswordResetToken.used (usedAt : ℕ) (token : PasswordResetToken) : PasswordResetToken :=
  { token with usedAt := some usedAt }

def PasswordResetToken.superseded (deletedAt : ℕ) (token : PasswordResetToken) :
    PasswordResetToken :=
  { token with deletedAt := some deletedAt }

/-! ### Calls -/

/-- What a call draws at random, and the ids that the database gives to its rows. -/
structure Draws where
  code : String := ""
  salt : String := ""
  resetToken : String := ""
  refreshToken : String := ""
  sessionId : ℕ := 0
  refreshTokenId : ℕ := 0
  challengeId : ℕ := 0
  resetTokenId : ℕ := 0
deriving DecidableEq

/-- The purposes that a request may name. -/
inductive PublicPurpose
  | login | verifyEmail | verifyPhone
deriving DecidableEq

def PublicPurpose.purpose : PublicPurpose → OtpPurpose
  | .login => .login
  | .verifyEmail => .verifyEmail
  | .verifyPhone => .verifyPhone

inductive CredentialRequest
  | loginWithPassword (email password : String)
  | changePassword (userId sessionId : ℕ) (currentPassword newPassword : String)
  | sendOtp (destination : String) (channel : OtpChannel) (purpose : PublicPurpose)
  | verifyOtp (destination : String) (channel : OtpChannel) (purpose : PublicPurpose)
      (code : String)
  | requestPasswordReset (email : String)
  | verifyPasswordResetOtp (email otp : String)
  | confirmPasswordReset (resetToken newPassword : String)
  /-- `socialReauth` says that a social identity is given, and is one of the user. -/
  | requestEmailChange (userId : ℕ) (newEmail : String) (password : Option String)
      (socialReauth : Bool)
  | verifyEmailChange (userId : ℕ) (newEmail code : String)
deriving DecidableEq

inductive CredentialResult
  | void
  | null
  | verified
  | tokenPair (userId sessionId : ℕ) (refreshToken : String)
  | resetToken (resetToken : String) (expiresAt : ℕ)
  | changed (changed : Bool)
deriving DecidableEq

/-- The arguments of `createSession`, and the password that has been compared. -/
structure NewSession where
  userId : ℕ
  passwordVersion : Option ℕ
  expiresAt : ℕ
deriving DecidableEq

inductive SessionPc
  | insertSession
  | insertToken
  | touchUser (lastLoginAt : ℕ)
  | commit (lastLoginAt : ℕ)
deriving DecidableEq

structure PasswordChange where
  userId : ℕ
  sessionId : ℕ
  passwordHash : SecretHash
deriving DecidableEq

inductive ChangePc
  | updateUser
  | revokeSessions (revokedAt : ℕ)
  | revokeTokens (revokedAt : ℕ)
  | commit (revokedAt : ℕ)
deriving DecidableEq

inductive Verification
  | otp (purpose : OtpPurpose)
  | passwordReset
  | emailChange (newEmail : String)
deriving DecidableEq

/-- A challenge that has been read, and the code that is compared with it. -/
structure Guess where
  challengeId : ℕ
  challenge : OtpChallenge
  code : String
  verification : Verification
deriving DecidableEq

/-- A challenge whose code was right. -/
structure Accepted where
  challengeId : ℕ
  challenge : OtpChallenge
  /-- The wrong codes that were compared with the challenge before. -/
  wrongBefore : ℕ
  comparedAt : ℕ
deriving DecidableEq

inductive OtpPc
  | consume
  | readUser
  | updateUser (status : UserStatus) (verifiedAt : ℕ)
  /-- With the values of `updateUser`, if it was executed. -/
  | commit (user : Option (UserStatus × ℕ)) (allowed : Bool)
deriving DecidableEq

inductive IssuePc
  | verify
  | supersede
  | insertToken
  | commit (issued : Bool)
deriving DecidableEq

inductive EmailPc
  | consume
  | updateUser (emailVerifiedAt : ℕ)
  | revokeSessions (emailVerifiedAt revokedAt : ℕ)
  | revokeTokens (emailVerifiedAt revokedAt tokensAt : ℕ)
  | commit (emailVerifiedAt revokedAt tokensAt : ℕ)
  /-- The commit of a transaction that has found no such user. -/
  | commitBlocked
  /-- The commit of a transaction that has found no such challenge. -/
  | commitUnchanged
deriving DecidableEq

/-- A reset token that has been read, and the new password. `usedAt` is the clock when the transaction
begins (`credentialOutside`), and so it is the date that the commit writes. -/
structure Reset where
  id : ℕ
  token : PasswordResetToken
  usedAt : ℕ
  passwordHash : SecretHash
deriving DecidableEq

inductive ResetPc
  | useToken
  | consumeChallenge
  | updateUser
  | revokeSessions
  | revokeTokens
  | supersede
  | commit (changed : Bool)
deriving DecidableEq

inductive CredentialPc
  /-- `loginWithPassword`. -/
  | findLogin (draws : Draws) (email password : String)
  | verifyLogin (draws : Draws) (user : Option (ℕ × User)) (password : String)
  | createSession (draws : Draws) (input : NewSession) (pc : SessionPc)
  /-- `changePassword`. -/
  | findPassword (draws : Draws) (userId sessionId : ℕ) (currentPassword newPassword : String)
  | changePassword (change : PasswordChange) (pc : ChangePc)
  /-- `sendOtp` and `requestPasswordReset`. -/
  | findRecipient (draws : Draws) (destination : String) (channel : OtpChannel)
      (purpose : OtpPurpose)
  | findRecent (draws : Draws) (userId : ℕ) (destination : String) (channel : OtpChannel)
      (purpose : OtpPurpose) (now : ℕ)
  /-- `requestEmailChange`. -/
  | confirmCredential (draws : Draws) (userId : ℕ) (newEmail : String) (password : Option String)
      (socialReauth : Bool)
  | findConflict (draws : Draws) (userId : ℕ) (newEmail : String)
  | setPending (draws : Draws) (userId : ℕ) (newEmail : String)
  /-- The three calls that send a code. -/
  | insertChallenge (challengeId : ℕ) (challenge : OtpChallenge)
  | commitChallenge (challengeId : ℕ) (challenge : OtpChallenge)
  /-- The three calls that compare a code. -/
  | findOtp (draws : Draws) (destination : String) (channel : OtpChannel) (purpose : OtpPurpose)
      (code : String)
  | findReset (draws : Draws) (email otp : String)
  | findChange (draws : Draws) (userId : ℕ) (newEmail code : String) (now : ℕ)
  | compare (draws : Draws) (guess : Guess)
  | begin (draws : Draws) (accepted : Accepted) (verification : Verification)
  | verifyOtp (draws : Draws) (accepted : Accepted) (consumedAt : ℕ) (purpose : OtpPurpose)
      (pc : OtpPc)
  | issueReset (draws : Draws) (accepted : Accepted) (verifiedAt : ℕ) (pc : IssuePc)
  | changeEmail (accepted : Accepted) (consumedAt : ℕ) (newEmail : String) (pc : EmailPc)
  /-- `recordInvalidOtpAttempt`. -/
  | wrongCode (challengeId : ℕ) (verification : Verification)
  | recordInvalid (challengeId : ℕ) (verification : Verification) (now : ℕ)
  | commitInvalid (challengeId : ℕ) (verification : Verification) (now : ℕ)
  /-- `confirmPasswordReset`. -/
  | findResetToken (draws : Draws) (resetToken newPassword : String) (now : ℕ)
  | hashPassword (draws : Draws) (token : ℕ × PasswordResetToken) (newPassword : String)
  | confirmReset (reset : Reset) (pc : ResetPc)
  | returned (result : CredentialResult)
  | thrown (error : Thrown)
deriving DecidableEq

/-- A code has been compared with a challenge. -/
structure Comparison where
  challengeId : ℕ
  correct : Bool
deriving DecidableEq

/-- What no program reads: the comparisons so far, the latest one first. -/
structure Ledger where
  comparisons : List Comparison := []
deriving DecidableEq

/-- The wrong codes that have been compared with the challenge. -/
def Ledger.wrong (ledger : Ledger) (challengeId : ℕ) : ℕ :=
  ledger.comparisons.count ⟨challengeId, false⟩

/-! ### Statements -/

abbrev CredentialUpdate (t : Relation) := Update Id Row t

section Statements

variable (cfg : CredentialConfig)

def NewSession.session (input : NewSession) : Session where
  userId := input.userId
  expiresAt := input.expiresAt
  passwordVersion := input.passwordVersion

def NewSession.refreshToken (input : NewSession) (draws : Draws) : RefreshToken where
  userId := input.userId
  sessionId := draws.sessionId
  tokenHash := hashOpaqueToken cfg.R cfg.K draws.refreshToken
  expiresAt := input.expiresAt

def NewSession.touchUser (input : NewSession) (lastLoginAt : ℕ) : CredentialUpdate .user where
  cond id user := id = input.userId ∧ user.live
  data := User.touched lastLoginAt

def sessionStmt (draws : Draws) (input : NewSession) : SessionPc → CredentialStmt
  | .insertSession => .insert ⟨.session, draws.sessionId⟩ input.session
  | .insertToken => .insert ⟨.refreshToken, draws.refreshTokenId⟩ (input.refreshToken cfg draws)
  | .touchUser lastLoginAt => (input.touchUser lastLoginAt).stmt
  | .commit _ => .commit

def PasswordChange.updateUser (change : PasswordChange) : CredentialUpdate .user where
  cond id user := id = change.userId ∧ user.live
  data := User.withPassword change.passwordHash (some change.sessionId)

def PasswordChange.revokeSessions (change : PasswordChange) (revokedAt : ℕ) :
    CredentialUpdate .session where
  cond id session := session.userId = change.userId ∧ id ≠ change.sessionId ∧ session.live
  data := Session.revoked revokedAt "password_changed"

def PasswordChange.revokeTokens (change : PasswordChange) (revokedAt : ℕ) :
    CredentialUpdate .refreshToken where
  cond _ token := token.userId = change.userId ∧ token.sessionId ≠ change.sessionId ∧ token.live
  data := RefreshToken.revoked revokedAt

def changeStmt (change : PasswordChange) : ChangePc → CredentialStmt
  | .updateUser => change.updateUser.stmt
  | .revokeSessions revokedAt => (change.revokeSessions revokedAt).stmt
  | .revokeTokens revokedAt => (change.revokeTokens revokedAt).stmt
  | .commit _ => .commit

def setPending (userId : ℕ) (newEmail : String) : CredentialUpdate .user where
  cond id user := id = userId ∧ user.live
  data := User.withPending newEmail

def Accepted.consumeOtp (accepted : Accepted) (consumedAt : ℕ) : CredentialUpdate .challenge where
  cond id challenge := id = accepted.challengeId ∧ challenge.unconsumed
  data := OtpChallenge.accepted consumedAt accepted.wrongBefore

def Accepted.verifyUser (accepted : Accepted) (purpose : OtpPurpose) (status : UserStatus)
    (verifiedAt : ℕ) : CredentialUpdate .user where
  cond id user := id = accepted.challenge.userId ∧ user.status = status ∧ user.live
  data := User.verified purpose accepted.challenge.normalizedDestination status verifiedAt

def otpStmt (accepted : Accepted) (consumedAt : ℕ) (purpose : OtpPurpose) : OtpPc → CredentialStmt
  | .consume => (accepted.consumeOtp consumedAt).stmt
  | .readUser => .read
  | .updateUser status verifiedAt => (accepted.verifyUser purpose status verifiedAt).stmt
  | .commit .. => .commit

/-- `expiresIn(env.PASSWORD_RESET_TOKEN_TTL_MINUTES, 60_000)`. -/
def Accepted.tokenExpiresAt (accepted : Accepted) : ℕ :=
  accepted.comparedAt + cfg.passwordResetTokenTtlMinutes * 60000

def Accepted.verify (accepted : Accepted) (verifiedAt : ℕ) : CredentialUpdate .challenge where
  cond id challenge := id = accepted.challengeId ∧ challenge.unverified verifiedAt
  data := OtpChallenge.verified verifiedAt accepted.wrongBefore

def Accepted.supersede (accepted : Accepted) (verifiedAt : ℕ) : CredentialUpdate .resetToken where
  cond _ token := token.userId = accepted.challenge.userId ∧ token.live
  data := PasswordResetToken.superseded verifiedAt

def Accepted.resetToken (accepted : Accepted) (draws : Draws) : PasswordResetToken where
  userId := accepted.challenge.userId
  otpChallengeId := accepted.challengeId
  tokenHash := hashOpaqueToken cfg.R cfg.K draws.resetToken
  expiresAt := accepted.tokenExpiresAt cfg

def issueStmt (draws : Draws) (accepted : Accepted) (verifiedAt : ℕ) : IssuePc → CredentialStmt
  | .verify => (accepted.verify verifiedAt).stmt
  | .supersede => (accepted.supersede verifiedAt).stmt
  | .insertToken => .insert ⟨.resetToken, draws.resetTokenId⟩ (accepted.resetToken cfg draws)
  | .commit _ => .commit

def Accepted.consumeChange (accepted : Accepted) (consumedAt : ℕ) :
    CredentialUpdate .challenge where
  cond id challenge := id = accepted.challengeId ∧ challenge.unconsumed ∧
    consumedAt < challenge.expiresAt
  data := OtpChallenge.accepted consumedAt accepted.wrongBefore

def Accepted.changeEmail (accepted : Accepted) (newEmail : String) (emailVerifiedAt : ℕ) :
    CredentialUpdate .user where
  cond id user := id = accepted.challenge.userId ∧ user.pendingEmail = some newEmail ∧ user.active
  data := User.withEmail newEmail emailVerifiedAt

def Accepted.revokeSessions (accepted : Accepted) (revokedAt : ℕ) : CredentialUpdate .session where
  cond _ session := session.userId = accepted.challenge.userId ∧ session.live
  data := Session.revoked revokedAt "email_changed"

def Accepted.revokeTokens (accepted : Accepted) (revokedAt : ℕ) :
    CredentialUpdate .refreshToken where
  cond _ token := token.userId = accepted.challenge.userId ∧ token.live
  data := RefreshToken.revoked revokedAt

def emailStmt (accepted : Accepted) (consumedAt : ℕ) (newEmail : String) :
    EmailPc → CredentialStmt
  | .consume => (accepted.consumeChange consumedAt).stmt
  | .updateUser emailVerifiedAt => (accepted.changeEmail newEmail emailVerifiedAt).stmt
  | .revokeSessions _ revokedAt => (accepted.revokeSessions revokedAt).stmt
  | .revokeTokens _ _ tokensAt => (accepted.revokeTokens tokensAt).stmt
  | .commit .. | .commitBlocked | .commitUnchanged => .commit

def Reset.useToken (reset : Reset) : CredentialUpdate .resetToken where
  cond id token := id = reset.id ∧ token.tokenHash = reset.token.tokenHash ∧ token.live ∧
    reset.usedAt < token.expiresAt
  data := PasswordResetToken.used reset.usedAt

def Reset.consumeChallenge (reset : Reset) : CredentialUpdate .challenge where
  cond id challenge := id = reset.token.otpChallengeId ∧ challenge.unconsumed
  data := OtpChallenge.consumed reset.usedAt

def Reset.updateUser (reset : Reset) : CredentialUpdate .user where
  cond id user := id = reset.token.userId ∧ user.active
  data := User.withPassword reset.passwordHash none

def Reset.revokeSessions (reset : Reset) : CredentialUpdate .session where
  cond _ session := session.userId = reset.token.userId ∧ session.live
  data := Session.revoked reset.usedAt "password_reset"

def Reset.revokeTokens (reset : Reset) : CredentialUpdate .refreshToken where
  cond _ token := token.userId = reset.token.userId ∧ token.live
  data := RefreshToken.revoked reset.usedAt

def Reset.supersede (reset : Reset) : CredentialUpdate .resetToken where
  cond id token := token.userId = reset.token.userId ∧ id ≠ reset.id ∧ token.live
  data := PasswordResetToken.superseded reset.usedAt

def resetStmt (reset : Reset) : ResetPc → CredentialStmt
  | .useToken => reset.useToken.stmt
  | .consumeChallenge => reset.consumeChallenge.stmt
  | .updateUser => reset.updateUser.stmt
  | .revokeSessions => reset.revokeSessions.stmt
  | .revokeTokens => reset.revokeTokens.stmt
  | .supersede => reset.supersede.stmt
  | .commit _ => .commit

def countAttempt (challengeId now : ℕ) : CredentialUpdate .challenge where
  cond id challenge := id = challengeId ∧ challenge.attempts < challenge.maxAttempts ∧
    challenge.unverified now
  data := OtpChallenge.withAttempt now

def credentialStmt : CredentialPc → Option CredentialStmt
  | .findLogin .. | .findPassword .. | .findRecipient .. | .findRecent .. | .confirmCredential ..
  | .findConflict .. | .findOtp .. | .findReset .. | .findChange .. | .findResetToken .. =>
    some .read
  | .createSession draws input pc => some (sessionStmt cfg draws input pc)
  | .changePassword change pc => some (changeStmt change pc)
  | .setPending _ userId newEmail => some (setPending userId newEmail).stmt
  | .insertChallenge challengeId challenge => some (.insert ⟨.challenge, challengeId⟩ challenge)
  | .verifyOtp _ accepted consumedAt purpose pc => some (otpStmt accepted consumedAt purpose pc)
  | .issueReset draws accepted verifiedAt pc => some (issueStmt cfg draws accepted verifiedAt pc)
  | .changeEmail accepted consumedAt newEmail pc => some (emailStmt accepted consumedAt newEmail pc)
  | .recordInvalid challengeId _ now => some (countAttempt challengeId now).stmt
  | .confirmReset reset pc => some (resetStmt reset pc)
  | .commitChallenge .. | .commitInvalid .. => some .commit
  | .verifyLogin .. | .compare .. | .begin .. | .wrongCode .. | .hashPassword .. | .returned _
  | .thrown _ => none

end Statements

/-! ### Where a call goes on -/

def p2025 : Thrown := .prisma "P2025" "No record was found for an update."

section Next

variable (cfg : CredentialConfig) (site : Site CredentialKey)

/-- `findFirst`. -/
def findFirst (rows : CredentialRows) (t : Relation) (cond : ℕ → Row t → Bool) :
    Option (Option (ℕ × Row t)) :=
  pickFirst (findMany rows site.keys t cond) site.pick

/-- `findFirst` with `orderBy: { createdAt: 'desc' }`. -/
def findNewest (rows : CredentialRows) (cond : ℕ → OtpChallenge → Bool) :
    Option (Option (ℕ × OtpChallenge)) :=
  let found := findMany rows site.keys .challenge cond
  pickFirst (found.filter fun row => found.all fun other => other.2.createdAt ≤ row.2.createdAt)
    site.pick

def newSession (userId : ℕ) (passwordVersion : Option ℕ) : NewSession where
  userId := userId
  passwordVersion := passwordVersion
  expiresAt := expiresIn cfg.refreshTokenTtlDays site.now

/-- The reply to an `update` of one row, which has to be there. -/
def required (n : ℕ) (pc : CredentialPc) : Option (Except Thrown CredentialPc) :=
  if n = 0 then some (.error p2025) else some (.ok pc)

def sessionNext (draws : Draws) (input : NewSession) :
    SessionPc → Reply CredentialRow → Option (Except Thrown CredentialPc)
  | .insertSession, .done => some (.ok (.createSession draws input .insertToken))
  | .insertToken, .done => some (.ok (.createSession draws input (.touchUser site.now)))
  | .touchUser lastLoginAt, .count n =>
    required n (.createSession draws input (.commit lastLoginAt))
  | .commit _, .done =>
    some (.ok (.returned (.tokenPair input.userId draws.sessionId draws.refreshToken)))
  | _, _ => none

def findPassword (draws : Draws) (userId sessionId : ℕ) (currentPassword newPassword : String)
    (rows : CredentialRows) : CredentialPc :=
  let user := (rows ⟨.user, userId⟩).filter User.active
  let passwordHash := (user.bind (·.passwordHash)).getD (hashSecret "" cfg.dummyPassword)
  if !verifySecret passwordHash currentPassword ∨ user.bind (·.passwordHash) = none then
    .returned (.changed false)
  else .changePassword ⟨userId, sessionId, hashSecret draws.salt newPassword⟩ .updateUser

def changeNext (change : PasswordChange) :
    ChangePc → Reply CredentialRow → Option (Except Thrown CredentialPc)
  | .updateUser, .count n => required n (.changePassword change (.revokeSessions site.now))
  | .revokeSessions revokedAt, .count _ =>
    some (.ok (.changePassword change (.revokeTokens revokedAt)))
  | .revokeTokens revokedAt, .count _ => some (.ok (.changePassword change (.commit revokedAt)))
  | .commit _, .done => some (.ok (.returned (.changed true)))
  | _, _ => none

/-- The new challenge of the calls that send a code. -/
def newChallenge (draws : Draws) (userId : ℕ) (destination : String) (channel : OtpChannel)
    (purpose : OtpPurpose) : OtpChallenge where
  userId := userId
  normalizedDestination := destination
  channel := channel
  purpose := purpose
  codeHash := hashSecret draws.salt draws.code
  sentAt := site.now
  expiresAt := site.now + 5 * 60000
  createdAt := site.now

def findRecipient (draws : Draws) (destination : String) (channel : OtpChannel)
    (purpose : OtpPurpose) (rows : CredentialRows) : Option CredentialPc :=
  (findFirst site rows .user fun _ user => user.hasAddress destination channel ∧
      user.status = requiredOtpUserStatus purpose ∧ user.live).map
    fun
    | none => .returned .void
    | some (userId, _) => .findRecent draws userId destination channel purpose site.now

/-- A challenge that has been sent in the last minute. -/
def OtpChallenge.recent (now userId : ℕ) (destination : String) (channel : OtpChannel)
    (purpose : OtpPurpose) (challenge : OtpChallenge) : Bool :=
  challenge.normalizedDestination = destination ∧ challenge.channel = channel ∧
    challenge.purpose = purpose ∧ now ≤ challenge.sentAt + 60000 ∧ challenge.unconsumed ∧
    (purpose = .passwordReset → challenge.userId = userId ∧ challenge.verifiedAt = none)

def findRecent (draws : Draws) (userId : ℕ) (destination : String) (channel : OtpChannel)
    (purpose : OtpPurpose) (now : ℕ) (rows : CredentialRows) : CredentialPc :=
  if findMany rows site.keys .challenge
      (fun _ challenge => challenge.recent now userId destination channel purpose) ≠ [] then
    .returned .void
  else
    .insertChallenge draws.challengeId (newChallenge site draws userId destination channel purpose)

def confirmRecentCredential (draws : Draws) (userId : ℕ) (newEmail : String)
    (password : Option String) (socialReauth : Bool) (rows : CredentialRows) : CredentialPc :=
  match (rows ⟨.user, userId⟩).filter User.active with
  | none => .returned (.changed false)
  | some user =>
    let confirmed :=
      match user.passwordHash with
      | some passwordHash => password.any (verifySecret passwordHash)
      | none => socialReauth
    if confirmed then .findConflict draws userId newEmail else .returned (.changed false)

def findConflict (draws : Draws) (userId : ℕ) (newEmail : String) (rows : CredentialRows) :
    CredentialPc :=
  if findMany rows site.keys .user (fun _ user => (user.email = some newEmail ∨
      user.pendingEmail = some newEmail) ∧ user.live) ≠ [] then
    .returned (.changed false)
  else .setPending draws userId newEmail

def findOtp (draws : Draws) (destination : String) (channel : OtpChannel) (purpose : OtpPurpose)
    (code : String) (rows : CredentialRows) : Option CredentialPc :=
  (findNewest site rows fun _ challenge => challenge.normalizedDestination = destination ∧
      challenge.channel = channel ∧ challenge.purpose = purpose ∧ challenge.unconsumed).map
    fun
    | none => .returned .null
    | some (challengeId, challenge) =>
      if challenge.expiresAt ≤ site.now ∨ rows ⟨.user, challenge.userId⟩ = none then .returned .null
      else .compare draws ⟨challengeId, challenge, code, .otp purpose⟩

def findReset (draws : Draws) (email otp : String) (rows : CredentialRows) :
    Option CredentialPc :=
  (findNewest site rows fun _ challenge => challenge.normalizedDestination = email ∧
      challenge.channel = .email ∧ challenge.purpose = .passwordReset ∧ challenge.unconsumed ∧
      challenge.verifiedAt = none).map
    fun
    | none => .returned .null
    | some (challengeId, challenge) =>
      if challenge.expiresAt ≤ site.now ∨
          (rows ⟨.user, challenge.userId⟩).filter User.active = none then
        .returned .null
      else .compare draws ⟨challengeId, challenge, otp, .passwordReset⟩

def findChange (draws : Draws) (userId : ℕ) (newEmail code : String) (now : ℕ)
    (rows : CredentialRows) : Option CredentialPc :=
  (findNewest site rows fun _ challenge => challenge.userId = userId ∧
      challenge.normalizedDestination = newEmail ∧ challenge.purpose = .emailChange ∧
      challenge.unconsumed ∧ now < challenge.expiresAt).map
    fun
    | none => .returned (.changed false)
    | some (challengeId, challenge) =>
      .compare draws ⟨challengeId, challenge, code, .emailChange newEmail⟩

/-- What `verifyOtp` does with the user that it reads in its transaction. -/
def otpUser (accepted : Accepted) (purpose : OtpPurpose) (rows : CredentialRows) : OtpPc :=
  match (rows ⟨.user, accepted.challenge.userId⟩).filter User.live with
  | none => .commit none false
  | some user =>
    if purpose = .login then .commit none (user.status = .active)
    else if verificationTransition user.status = .blocked then .commit none false
    else .updateUser user.status site.now

def otpNext (draws : Draws) (accepted : Accepted) (consumedAt : ℕ) (purpose : OtpPurpose) :
    OtpPc → Reply CredentialRow → Option (Except Thrown CredentialPc)
  | .consume, .count n =>
    if n ≠ 1 then some (.error (.error "OTP was already consumed"))
    else some (.ok (.verifyOtp draws accepted consumedAt purpose .readUser))
  | .readUser, .rows rows =>
    some (.ok (.verifyOtp draws accepted consumedAt purpose (otpUser site accepted purpose rows)))
  | .updateUser status verifiedAt, .count n =>
    some (.ok (.verifyOtp draws accepted consumedAt purpose
      (.commit (some (status, verifiedAt)) (n = 1))))
  | .commit _ allowed, .done =>
    some (.ok (
      if !allowed then .returned .null
      else if purpose = .login then
        .createSession draws (newSession cfg site accepted.challenge.userId none) .insertSession
      else .returned .verified))
  | _, _ => none

def issueNext (draws : Draws) (accepted : Accepted) (verifiedAt : ℕ) :
    IssuePc → Reply CredentialRow → Option (Except Thrown CredentialPc)
  | .verify, .count n =>
    some (.ok (.issueReset draws accepted verifiedAt (if n ≠ 1 then .commit false else .supersede)))
  | .supersede, .count _ => some (.ok (.issueReset draws accepted verifiedAt .insertToken))
  | .insertToken, .done => some (.ok (.issueReset draws accepted verifiedAt (.commit true)))
  | .commit issued, .done =>
    some (.ok (.returned
      (if issued then .resetToken draws.resetToken (accepted.tokenExpiresAt cfg) else .null)))
  | _, _ => none

def emailNext (accepted : Accepted) (consumedAt : ℕ) (newEmail : String) :
    EmailPc → Reply CredentialRow → Option (Except Thrown CredentialPc)
  | .consume, .count n =>
    some (.ok (.changeEmail accepted consumedAt newEmail
      (if n ≠ 1 then .commitUnchanged else .updateUser site.now)))
  | .updateUser emailVerifiedAt, .count n =>
    some (.ok (.changeEmail accepted consumedAt newEmail
      (if n ≠ 1 then .commitBlocked else .revokeSessions emailVerifiedAt site.now)))
  | .revokeSessions emailVerifiedAt revokedAt, .count _ =>
    some (.ok (.changeEmail accepted consumedAt newEmail
      (.revokeTokens emailVerifiedAt revokedAt site.now)))
  | .revokeTokens emailVerifiedAt revokedAt tokensAt, .count _ =>
    some (.ok (.changeEmail accepted consumedAt newEmail
      (.commit emailVerifiedAt revokedAt tokensAt)))
  | .commit .., .done => some (.ok (.returned (.changed true)))
  | .commitBlocked, .done | .commitUnchanged, .done => some (.ok (.returned (.changed false)))
  | _, _ => none

/-- What the three calls return after a wrong code. -/
def Verification.refused : Verification → CredentialResult
  | .otp _ | .passwordReset => .null
  | .emailChange _ => .changed false

def findResetToken (draws : Draws) (resetToken newPassword : String) (now : ℕ)
    (rows : CredentialRows) : Option CredentialPc :=
  (findFirst site rows .resetToken fun _ token =>
      token.tokenHash ∈ candidateOpaqueTokenHashes cfg.R cfg.K resetToken ∧ token.live ∧
        now < token.expiresAt).map
    fun
    | none => .returned (.changed false)
    | some (id, token) =>
      if (rows ⟨.user, token.userId⟩).filter User.active = none then .returned (.changed false)
      else .hashPassword draws (id, token) newPassword

def resetNext (reset : Reset) :
    ResetPc → Reply CredentialRow → Option (Except Thrown CredentialPc)
  | .useToken, .count n =>
    some (.ok (.confirmReset reset (if n ≠ 1 then .commit false else .consumeChallenge)))
  | .consumeChallenge, .count n =>
    if n ≠ 1 then some (.error (.error "Password reset OTP was already consumed"))
    else some (.ok (.confirmReset reset .updateUser))
  | .updateUser, .count n =>
    if n ≠ 1 then some (.error (.error "Password reset user is no longer eligible"))
    else some (.ok (.confirmReset reset .revokeSessions))
  | .revokeSessions, .count _ => some (.ok (.confirmReset reset .revokeTokens))
  | .revokeTokens, .count _ => some (.ok (.confirmReset reset .supersede))
  | .supersede, .count _ => some (.ok (.confirmReset reset (.commit true)))
  | .commit changed, .done => some (.ok (.returned (.changed changed)))
  | _, _ => none

def credentialNext :
    CredentialPc → Reply CredentialRow → Option (Except Thrown CredentialPc)
  | .findLogin draws email password, .rows rows =>
    (findFirst site rows .user fun _ user => user.email = some email ∧ user.live).map fun user =>
      .ok (.verifyLogin draws user password)
  | .createSession draws input pc, reply => sessionNext site draws input pc reply
  | .findPassword draws userId sessionId currentPassword newPassword, .rows rows =>
    some (.ok (findPassword cfg draws userId sessionId currentPassword newPassword rows))
  | .changePassword change pc, reply => changeNext site change pc reply
  | .findRecipient draws destination channel purpose, .rows rows =>
    (findRecipient site draws destination channel purpose rows).map .ok
  | .findRecent draws userId destination channel purpose now, .rows rows =>
    some (.ok (findRecent site draws userId destination channel purpose now rows))
  | .confirmCredential draws userId newEmail password socialReauth, .rows rows =>
    some (.ok (confirmRecentCredential draws userId newEmail password socialReauth rows))
  | .findConflict draws userId newEmail, .rows rows =>
    some (.ok (findConflict site draws userId newEmail rows))
  | .setPending draws userId newEmail, .count n =>
    required n (.insertChallenge draws.challengeId
      (newChallenge site draws userId newEmail .email .emailChange))
  | .insertChallenge challengeId challenge, .done =>
    some (.ok (.commitChallenge challengeId challenge))
  | .commitChallenge _ challenge, .done =>
    some (.ok (.returned (if challenge.purpose = .emailChange then .changed true else .void)))
  | .findOtp draws destination channel purpose code, .rows rows =>
    (findOtp site draws destination channel purpose code rows).map .ok
  | .findReset draws email otp, .rows rows => (findReset site draws email otp rows).map .ok
  | .findChange draws userId newEmail code now, .rows rows =>
    (findChange site draws userId newEmail code now rows).map .ok
  | .verifyOtp draws accepted consumedAt purpose pc, reply =>
    otpNext cfg site draws accepted consumedAt purpose pc reply
  | .issueReset draws accepted verifiedAt pc, reply =>
    issueNext cfg draws accepted verifiedAt pc reply
  | .changeEmail accepted consumedAt newEmail pc, reply =>
    emailNext site accepted consumedAt newEmail pc reply
  | .recordInvalid challengeId verification now, .count _ =>
    some (.ok (.commitInvalid challengeId verification now))
  | .commitInvalid _ verification _, .done => some (.ok (.returned verification.refused))
  | .findResetToken draws resetToken newPassword now, .rows rows =>
    (findResetToken cfg site draws resetToken newPassword now rows).map .ok
  | .confirmReset reset pc, reply => resetNext reset pc reply
  | _, _ => none

/-- What `loginWithPassword` does with the user of the email. -/
def verifyLogin (draws : Draws) (user : Option (ℕ × User)) (password : String) : CredentialPc :=
  let passwordHash := (user.bind (·.2.passwordHash)).getD (hashSecret "" cfg.dummyPassword)
  match user with
  | none => .returned .null
  | some (userId, user) =>
    if verifySecret passwordHash password ∧ user.active then
      .createSession draws (newSession cfg site userId (some user.passwordVersion)) .insertSession
    else .returned .null

/-- A code is compared with a challenge. -/
def compare (ledger : Ledger) (draws : Draws) (guess : Guess) : Ledger × CredentialPc :=
  let correct := verifySecret guess.challenge.codeHash guess.code
  ({ ledger with comparisons := ⟨guess.challengeId, correct⟩ :: ledger.comparisons },
    if correct then
      .begin draws
        ⟨guess.challengeId, guess.challenge, ledger.wrong guess.challengeId, site.now⟩
        guess.verification
    else .wrongCode guess.challengeId guess.verification)

/-- The transaction that a right code leads to. -/
def beginVerification (draws : Draws) (accepted : Accepted) : Verification → CredentialPc
  | .otp purpose => .verifyOtp draws accepted site.now purpose .consume
  | .passwordReset => .issueReset draws accepted site.now .verify
  | .emailChange newEmail => .changeEmail accepted site.now newEmail .consume

def credentialOutside (ledger : Ledger) : CredentialPc → Option (Ledger × CredentialPc)
  | .verifyLogin draws user password => some (ledger, verifyLogin cfg site draws user password)
  | .compare draws guess => some (compare site ledger draws guess)
  | .begin draws accepted verification =>
    some (ledger, beginVerification site draws accepted verification)
  | .wrongCode challengeId verification =>
    some (ledger, .recordInvalid challengeId verification site.now)
  | .hashPassword draws token newPassword =>
    some (ledger,
      .confirmReset ⟨token.1, token.2, site.now, hashSecret draws.salt newPassword⟩ .useToken)
  | _ => none

end Next

/-! ### The service -/

def startPc (R : Runtime) (now : ℕ) (draws : Draws) : CredentialRequest → CredentialPc
  | .loginWithPassword email password => .findLogin draws (normalizeEmail R email) password
  | .changePassword userId sessionId currentPassword newPassword =>
    .findPassword draws userId sessionId currentPassword newPassword
  | .sendOtp destination channel purpose =>
    .findRecipient draws (if channel = .email then normalizeEmail R destination else destination)
      channel purpose.purpose
  | .verifyOtp destination channel purpose code =>
    .findOtp draws (if channel = .email then normalizeEmail R destination else destination) channel
      purpose.purpose code
  | .requestPasswordReset email =>
    .findRecipient draws (normalizeEmail R email) .email .passwordReset
  | .verifyPasswordResetOtp email otp => .findReset draws (normalizeEmail R email) otp
  | .confirmPasswordReset resetToken newPassword => .findResetToken draws resetToken newPassword now
  | .requestEmailChange userId newEmail password socialReauth =>
    .confirmCredential draws userId (normalizeEmail R newEmail) password socialReauth
  | .verifyEmailChange userId newEmail code =>
    .findChange draws userId (normalizeEmail R newEmail) code now

structure CredentialSpawn where
  request : CredentialRequest
  draws : Draws := {}
deriving DecidableEq

/-- The users are numbered by their position. -/
def CredentialConfig.rows (cfg : CredentialConfig) : CredentialRows
  | ⟨.user, id⟩ => cfg.users[id]?
  | _ => none

def CredentialConfig.keys (cfg : CredentialConfig) : List CredentialKey :=
  (List.range cfg.users.length).map fun id => ⟨.user, id⟩

/-- **The calls that compare a password or a code.** -/
def credentials (cfg : CredentialConfig) :
    Service CredentialRow CredentialPc CredentialSpawn Ledger Empty Thrown where
  rows := cfg.rows
  keys := cfg.keys
  memory := {}
  start now spawn := startPc cfg.R now spawn.draws spawn.request
  stmt := credentialStmt cfg
  next := credentialNext cfg
  outside := credentialOutside cfg
  record _ _ ledger := ledger
  thrown := .thrown
  errors := ⟨.prisma "P2002" "Unique constraint failed", .prisma "P2034" "Write conflict"⟩
  event _ e := e.elim

abbrev CredentialStore := Store CredentialRow Ledger

abbrev CredentialCall := Caller CredentialRow CredentialPc

abbrev CredentialWorld := ServiceWorld CredentialRow CredentialPc Ledger

abbrev CredentialLabel := ServiceLabel CredentialSpawn Empty Thrown

/-! ### A concrete deployment -/

/-- One user, with the password `old`. -/
def exampleConfig : CredentialConfig where
  R := exampleRuntime
  K := exampleKeyring
  refreshTokenTtlDays := 30
  passwordResetTokenTtlMinutes := 15
  dummyPassword := "dummy"
  users := [{ email := some "user@example.com", passwordHash := some (hashSecret "" "old") }]

end BackendFoundation.Auth.CredentialModel
