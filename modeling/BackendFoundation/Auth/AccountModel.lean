import BackendFoundation.Auth.SessionModel
import BackendFoundation.Lib.Calls
import BackendFoundation.Lib.Rows

/-! # Accounts

The calls that create, activate and authenticate accounts: `signupWithPassword` and
`loginWithPassword`, `sendOtp` and `verifyOtp`, `loginWithSocial`, and the three calls of a password
reset. Each is a program of one read or one transaction a step; a transaction that reads before it
writes has its reads in steps of their own, and `commit…` steps check again what they write under.
Rows of audit events and outbox events are left out.

A call is made by a principal, and draws its random code, tokens and salts when it starts. -/

namespace BackendFoundation.Auth.AccountModel

open Lib Lib.Rows Lib.Interleave Errors Crypto
open Auth.SessionModel (UserStatus Session RefreshToken expiresIn)

/-! ### Rows -/

structure User where
  id : ℕ
  email : Option String
  phone : Option String := none
  passwordHash : Option SecretHash := none
  displayName : Option String := none
  status : UserStatus
  emailVerifiedAt : Option ℕ := none
  phoneVerifiedAt : Option ℕ := none
  lastLoginAt : Option ℕ := none
  deletedAt : Option ℕ := none
deriving DecidableEq

inductive OtpChannel
  | email | sms
deriving DecidableEq

inductive OtpPurpose
  | login | verifyEmail | verifyPhone | passwordReset
deriving DecidableEq

structure OtpChallenge where
  id : ℕ
  userId : ℕ
  normalizedDestination : String
  channel : OtpChannel
  purpose : OtpPurpose
  codeHash : SecretHash
  attempts : ℕ := 0
  maxAttempts : ℕ := 5
  sentAt : ℕ
  expiresAt : ℕ
  verifiedAt : Option ℕ := none
  consumedAt : Option ℕ := none
  lockedAt : Option ℕ := none
  createdAt : ℕ
  deletedAt : Option ℕ := none
deriving DecidableEq

inductive SocialProvider
  | google | apple
deriving DecidableEq

structure SocialAccount where
  userId : ℕ
  provider : SocialProvider
  providerAccountId : String
  email : Option String
  deletedAt : Option ℕ := none
deriving DecidableEq

structure PasswordResetToken where
  id : ℕ
  userId : ℕ
  otpChallengeId : ℕ
  tokenHash : MetadataHash
  expiresAt : ℕ
  usedAt : Option ℕ := none
  deletedAt : Option ℕ := none
deriving DecidableEq

/-! ### Social identities -/

/-- The value of a claim of a verified token. -/
inductive Claim
  | absent
  | text (value : String)
  | bool (value : Bool)
  | other
deriving DecidableEq

abbrev JwtPayload := String → Claim

structure SocialIdentity where
  provider : SocialProvider
  providerAccountId : String
  email : Option String
  emailVerified : Bool
  displayName : Option String
deriving DecidableEq

structure AccountConfig where
  R : Runtime
  K : Keyring
  /-- `GOOGLE_CLIENT_ID` and `APPLE_CLIENT_ID`. -/
  clientId : SocialProvider → Option String
  /-- The payload of a token that the provider has signed for the audience. -/
  jwtVerify : SocialProvider → String → String → Option JwtPayload
  refreshTokenTtlDays : ℕ
  passwordResetTokenTtlMinutes : ℕ
  /-- The random text behind `dummyPasswordHash`. -/
  dummyPassword : String

def claimString (payload : JwtPayload) (key : String) : Option String :=
  match payload key with
  | .text value => if value.length > 0 then some value else none
  | .absent | .bool _ | .other => none

def verifiedEmail (payload : JwtPayload) : Bool :=
  payload "email_verified" = .bool true ∨ payload "email_verified" = .text "true"

def SocialProvider.text : SocialProvider → String
  | .google => "GOOGLE"
  | .apple => "APPLE"

def verifySocialIdentity (cfg : AccountConfig) (provider : SocialProvider) (idToken : String) :
    Except Thrown SocialIdentity :=
  match cfg.clientId provider with
  | none => .error (.error (provider.text ++ " social login is not configured"))
  | some audience =>
    match cfg.jwtVerify provider audience idToken with
    | none => .error (.app (unauthenticated "Invalid social identity token"))
    | some payload =>
      match claimString payload "sub" with
      | none => .error (.app (unauthenticated "Invalid social identity token"))
      | some providerAccountId =>
        let email := ((claimString payload "email").map (normalizeEmail cfg.R)).filter (· ≠ "")
        let emailVerified := verifiedEmail payload
        if email.isSome ∧ !emailVerified then
          .error (.app (unauthenticated "Social email is not verified"))
        else
          .ok
            { provider := provider
              providerAccountId := providerAccountId
              email := email
              emailVerified := emailVerified
              displayName := claimString payload "name" }

/-! ### Policy -/

/-- Public OTP requests may only target users eligible for the requested purpose. -/
def requiredOtpUserStatus : OtpPurpose → UserStatus
  | .login | .passwordReset => .active
  | .verifyEmail | .verifyPhone => .pending

inductive VerificationTransition
  | activate | verifyOnly | blocked
deriving DecidableEq

/-- Verification must never alter suspended or disabled accounts. -/
def verificationTransition : UserStatus → VerificationTransition
  | .pending => .activate
  | .active => .verifyOnly
  | .suspended | .disabled => .blocked

/-! ### Calls -/

inductive Principal
  | first | second
deriving DecidableEq

structure Draws where
  code : String := ""
  salt : String := ""
  resetToken : String := ""
  refreshToken : String := ""
deriving DecidableEq

inductive AccountRequest
  | signupWithPassword (email password : String) (displayName : Option String)
  | loginWithPassword (email password : String)
  | loginWithSocial (provider : SocialProvider) (idToken : String) (displayName : Option String)
  | sendOtp (destination : String) (channel : OtpChannel) (purpose : OtpPurpose)
  | verifyOtp (destination : String) (channel : OtpChannel) (purpose : OtpPurpose) (code : String)
  | requestPasswordReset (email : String)
  | verifyPasswordResetOtp (email otp : String)
  | confirmPasswordReset (resetToken newPassword : String)
deriving DecidableEq

inductive AccountResult
  | void
  | null
  | verified
  | tokenPair (userId : ℕ) (refreshToken : String)
  | resetToken (resetToken : String)
  | changed (changed : Bool)
deriving DecidableEq

inductive AccountPc
  /-- `signupWithPassword`. -/
  | findSignup (email password : String) (displayName : Option String)
  | createUser (email password : String) (displayName : Option String)
  /-- `loginWithPassword`. -/
  | findLogin (email password : String)
  /-- `loginWithSocial`. -/
  | verifyToken (provider : SocialProvider) (idToken : String) (displayName : Option String)
  | findLinked (identity : SocialIdentity) (displayName : Option String)
  | touchLinked (identity : SocialIdentity) (userId : ℕ)
  | findByEmail (identity : SocialIdentity) (displayName : Option String)
  | activateExisting (identity : SocialIdentity) (displayName : Option String) (userId : ℕ)
  | createLinked (identity : SocialIdentity) (displayName : Option String)
  /-- `sendOtp`. -/
  | findRecipient (destination : String) (channel : OtpChannel) (purpose : OtpPurpose)
  | findRecentOtp (destination : String) (channel : OtpChannel) (purpose : OtpPurpose) (userId : ℕ)
  | createOtp (destination : String) (channel : OtpChannel) (purpose : OtpPurpose) (userId : ℕ)
  /-- `verifyOtp`. -/
  | findOtp (destination : String) (channel : OtpChannel) (purpose : OtpPurpose) (code : String)
  | readOtpUser (challenge : OtpChallenge)
  | commitOtp (challenge : OtpChallenge) (status : Option UserStatus)
  /-- `recordInvalidOtpAttempt`. -/
  | recordInvalid (challengeId : ℕ)
  /-- `requestPasswordReset`. -/
  | findResetUser (email : String)
  | findRecentReset (email : String) (userId : ℕ)
  | createReset (email : String) (userId : ℕ)
  /-- `verifyPasswordResetOtp`. -/
  | findReset (email otp : String)
  | issueReset (challenge : OtpChallenge)
  /-- `confirmPasswordReset`. -/
  | findResetToken (resetToken newPassword : String)
  | commitReset (reset : PasswordResetToken) (newPassword : String)
  | createSession (userId : ℕ)
  | returned (result : AccountResult)
  | thrown (error : Thrown)
deriving DecidableEq

structure AccountCall where
  caller : Principal
  draws : Draws
  pc : AccountPc
deriving DecidableEq

structure AccountState where
  now : ℕ := 0
  nextId : ℕ := 0
  users : List User := []
  challenges : List OtpChallenge := []
  socialAccounts : List SocialAccount := []
  resetTokens : List PasswordResetToken := []
  sessions : List (ℕ × Session) := []
  refreshTokens : List RefreshToken := []

structure AccountChoice where
  /-- The row that a query returns first. -/
  pick : ℕ := 0
  outcome : Outcome Thrown := .ok
deriving DecidableEq

def p2002 : Thrown := .prisma "P2002" "Unique constraint failed"

def p2025 : Thrown := .prisma "P2025" "No record was found for an update."

/-- Rows that are not soft-deleted. -/
def User.live (user : User) : Bool := user.deletedAt = none

/-- The user has the address of the channel. -/
def User.hasAddress (destination : String) (channel : OtpChannel) (user : User) : Bool :=
  match channel with
  | .email => user.email = some destination
  | .sms => user.phone = some destination

def AccountState.addChallenge (s : AccountState) (draws : Draws) (userId : ℕ)
    (normalizedDestination : String) (channel : OtpChannel) (purpose : OtpPurpose) :
    AccountState :=
  { s with
    challenges :=
      { id := s.nextId
        userId := userId
        normalizedDestination := normalizedDestination
        channel := channel
        purpose := purpose
        codeHash := hashSecret draws.salt draws.code
        sentAt := s.now
        expiresAt := s.now + 5 * 60000
        createdAt := s.now } :: s.challenges
    nextId := s.nextId + 1 }

def AccountState.addUser (s : AccountState) (user : User) : AccountState :=
  { s with users := user :: s.users, nextId := s.nextId + 1 }

/-- A challenge that has been sent in the last minute. -/
def OtpChallenge.recent (now : ℕ) (destination : String) (channel : OtpChannel)
    (purpose : OtpPurpose) (challenge : OtpChallenge) : Bool :=
  challenge.normalizedDestination = destination ∧ challenge.purpose = purpose ∧
    challenge.channel = channel ∧ now ≤ challenge.sentAt + 60000 ∧
    challenge.consumedAt = none ∧ challenge.lockedAt = none ∧ challenge.deletedAt = none

/-- `findFirst` with `orderBy: { createdAt: 'desc' }`. -/
def findNewest (challenges : List OtpChallenge) (cond : OtpChallenge → Bool) (pick : ℕ) :
    Option (Option OtpChallenge) :=
  let found := challenges.filter cond
  pickFirst (found.filter fun challenge => found.all fun c => c.createdAt ≤ challenge.createdAt)
    pick

/-! ### Steps -/

section Steps

variable (cfg : AccountConfig) (s : AccountState) (draws : Draws) (pick : ℕ)

/-- `prisma.user.findUnique({ where: { email } })`, which skips deleted users. -/
def AccountState.userByEmail (email : String) : Option User :=
  s.users.find? fun user => user.email = some email ∧ user.live

def AccountState.userById (userId : ℕ) : Option User := s.users.find? fun user => user.id = userId

def createUser (email password : String) (displayName : Option String) :
    AccountState × AccountPc :=
  if s.users.any fun user => user.email = some email then (s, .thrown p2002)
  else
    ((s.addUser
        { id := s.nextId
          email := some email
          passwordHash := some (hashSecret draws.salt password)
          displayName := displayName
          status := .pending }).addChallenge draws s.nextId email .email .verifyEmail,
      .returned .void)

/-- What `loginWithPassword` does with the user of the email. -/
def checkPassword (user : Option User) (password : String) : AccountPc :=
  let passwordHash := (user.bind (·.passwordHash)).getD (hashSecret "" cfg.dummyPassword)
  match user with
  | none => .returned .null
  | some user =>
    if !verifySecret passwordHash password ∨ user.status ≠ .active ∨ user.deletedAt ≠ none then
      .returned .null
    else .createSession user.id

def findLinked (identity : SocialIdentity) (displayName : Option String) : Option AccountPc :=
  (pickFirst (s.socialAccounts.filter fun account => account.provider = identity.provider ∧
      account.providerAccountId = identity.providerAccountId ∧ account.deletedAt = none) pick).map
    fun
    | none => .findByEmail identity displayName
    | some linked =>
      match s.userById linked.userId with
      | none => .returned .null
      | some user =>
        if user.deletedAt ≠ none ∨ user.status ≠ .active then .returned .null
        else .touchLinked identity linked.userId

/-- An identity without an email leaves the email of the account as it is. -/
def touchLinked (identity : SocialIdentity) (userId : ℕ) : AccountState :=
  { s with
    socialAccounts :=
      updateWhere s.socialAccounts
        (fun account => account.userId = userId ∧ account.provider = identity.provider ∧
          account.deletedAt = none)
        fun account => { account with email := identity.email <|> account.email } }

def findByEmail (identity : SocialIdentity) (displayName : Option String) : AccountPc :=
  match identity.email.bind s.userByEmail with
  | none => .createLinked identity displayName
  | some existing =>
    if existing.deletedAt ≠ none ∨ existing.status = .suspended ∨ existing.status = .disabled then
      .returned .null
    else .activateExisting identity displayName existing.id

/-- The provider account is linked already. -/
def AccountState.linkTaken (identity : SocialIdentity) : Bool :=
  s.socialAccounts.any fun account => account.provider = identity.provider ∧
    account.providerAccountId = identity.providerAccountId

def SocialIdentity.account (identity : SocialIdentity) (userId : ℕ) : SocialAccount where
  userId := userId
  provider := identity.provider
  providerAccountId := identity.providerAccountId
  email := identity.email

def User.activated (now : ℕ) (identity : SocialIdentity) (displayName : Option String)
    (user : User) : User :=
  { user with
    status := .active
    emailVerifiedAt := if identity.emailVerified then some now else user.emailVerifiedAt
    displayName := displayName <|> identity.displayName <|> user.displayName }

def activateExisting (identity : SocialIdentity) (displayName : Option String) (userId : ℕ) :
    AccountState × AccountPc :=
  if !(s.users.any fun user => user.id = userId ∧ user.live) then (s, .thrown p2025)
  else if s.linkTaken identity then (s, .thrown p2002)
  else
    ({ s with
        users :=
          updateWhere s.users (fun user => user.id = userId ∧ user.live)
            (User.activated s.now identity displayName)
        socialAccounts := identity.account userId :: s.socialAccounts },
      .createSession userId)

def createLinked (identity : SocialIdentity) (displayName : Option String) :
    AccountState × AccountPc :=
  if identity.email.isSome ∧ s.users.any fun user => user.email = identity.email then
    (s, .thrown p2002)
  else if s.linkTaken identity then (s, .thrown p2002)
  else
    ({ s.addUser
        { id := s.nextId
          email := identity.email
          displayName := displayName <|> identity.displayName
          status := .active
          emailVerifiedAt := if identity.emailVerified then some s.now else none } with
        socialAccounts := identity.account s.nextId :: s.socialAccounts },
      .createSession s.nextId)

def findRecipient (destination : String) (channel : OtpChannel) (purpose : OtpPurpose) :
    Option AccountPc :=
  (pickFirst (s.users.filter fun user => user.hasAddress destination channel ∧
      user.status = requiredOtpUserStatus purpose ∧ user.live) pick).map
    fun
    | none => .returned .void
    | some user => .findRecentOtp destination channel purpose user.id

/-- The secret that a challenge asks for, and where an unusable challenge or a wrong secret
leads. -/
def checkCode (challenge : OtpChallenge) (code : String) (next : AccountPc) : AccountPc :=
  if challenge.expiresAt ≤ s.now then .returned .null
  else if verifySecret challenge.codeHash code then next
  else .recordInvalid challenge.id

def findOtp (destination : String) (channel : OtpChannel) (purpose : OtpPurpose)
    (code : String) : Option AccountPc :=
  (findNewest s.challenges (fun challenge => challenge.normalizedDestination = destination ∧
      challenge.channel = channel ∧ challenge.purpose = purpose ∧ challenge.consumedAt = none ∧
      challenge.lockedAt = none ∧ challenge.deletedAt = none) pick).map
    fun
    | none => .returned .null
    | some challenge =>
      match s.userById challenge.userId with
      | none => .returned .null
      | some _ => checkCode s challenge code (.readOtpUser challenge)

def recordInvalid (challengeId : ℕ) : AccountState :=
  { s with
    challenges :=
      updateWhere s.challenges
        (fun challenge => challenge.id = challengeId ∧ challenge.attempts < challenge.maxAttempts ∧
          challenge.consumedAt = none ∧ challenge.verifiedAt = none ∧ challenge.lockedAt = none ∧
          challenge.deletedAt = none ∧ s.now < challenge.expiresAt)
        fun challenge =>
          { challenge with
            attempts := challenge.attempts + 1
            lockedAt :=
              if challenge.maxAttempts ≤ challenge.attempts + 1 then some s.now
              else challenge.lockedAt } }

/-- The status of the user that a verification reads in its transaction. -/
def readOtpUser (challenge : OtpChallenge) : Option UserStatus :=
  (s.users.find? fun user => user.id = challenge.userId ∧ user.live ∧
    (challenge.purpose = .login → user.status = .active)).map (·.status)

def consumeOtp (challengeId : ℕ) : AccountState :=
  { s with
    challenges :=
      updateWhere s.challenges (fun challenge => challenge.id = challengeId)
        fun challenge => { challenge with consumedAt := some s.now } }

def User.verified (now : ℕ) (challenge : OtpChallenge) (transition : VerificationTransition)
    (user : User) : User :=
  { user with
    emailVerifiedAt := if challenge.purpose = .verifyEmail then some now else user.emailVerifiedAt
    phone :=
      if challenge.purpose = .verifyEmail then user.phone
      else some challenge.normalizedDestination
    phoneVerifiedAt := if challenge.purpose = .verifyEmail then user.phoneVerifiedAt else some now
    status := if transition = .activate then .active else user.status }

/-- The transaction of `verifyOtp` from the update of the user on; it still has the challenge that
it has consumed. -/
def commitOtp (challenge : OtpChallenge) (status : Option UserStatus) : AccountState × AccountPc :=
  if !(s.challenges.any fun c => c.id = challenge.id ∧ c.consumedAt = none ∧ c.lockedAt = none ∧
      c.deletedAt = none) then
    (s, .thrown (.error "OTP was already consumed"))
  else
    match status with
    | none => (consumeOtp s challenge.id, .returned .null)
    | some status =>
      if challenge.purpose = .login then
        (consumeOtp s challenge.id, .createSession challenge.userId)
      else if verificationTransition status = .blocked then
        (consumeOtp s challenge.id, .returned .null)
      else
        let cond : User → Bool := fun user => user.id = challenge.userId ∧ user.status = status ∧
          user.live
        if challenge.purpose ≠ .verifyEmail ∧ s.users.any cond ∧ s.users.any fun user =>
            user.id ≠ challenge.userId ∧ user.phone = some challenge.normalizedDestination then
          (s, .thrown p2002)
        else
          ({ consumeOtp s challenge.id with
              users :=
                updateWhere s.users cond
                  (User.verified s.now challenge (verificationTransition status)) },
            if countWhere s.users cond = 1 then .returned .verified else .returned .null)

def findReset (email otp : String) : Option AccountPc :=
  (findNewest s.challenges (fun challenge => challenge.normalizedDestination = email ∧
      challenge.channel = .email ∧ challenge.purpose = .passwordReset ∧
      challenge.consumedAt = none ∧ challenge.verifiedAt = none ∧ challenge.lockedAt = none ∧
      challenge.deletedAt = none) pick).map
    fun
    | none => .returned .null
    | some challenge =>
      match s.userById challenge.userId with
      | none => .returned .null
      | some user =>
        if user.status ≠ .active ∨ user.deletedAt ≠ none then .returned .null
        else checkCode s challenge otp (.issueReset challenge)

def issueReset (challenge : OtpChallenge) : AccountState × AccountPc :=
  let cond : OtpChallenge → Bool := fun c => c.id = challenge.id ∧ c.consumedAt = none ∧
    c.verifiedAt = none ∧ c.lockedAt = none ∧ c.deletedAt = none ∧ s.now < c.expiresAt
  let tokenHash := hashOpaqueToken cfg.R cfg.K draws.resetToken
  if countWhere s.challenges cond ≠ 1 then (s, .returned .null)
  else if s.resetTokens.any fun token =>
      token.otpChallengeId = challenge.id ∨ token.tokenHash = tokenHash then
    (s, .thrown p2002)
  else
    ({ s with
        challenges := updateWhere s.challenges cond fun c => { c with verifiedAt := some s.now }
        resetTokens :=
          { id := s.nextId
            userId := challenge.userId
            otpChallengeId := challenge.id
            tokenHash := tokenHash
            expiresAt := s.now + cfg.passwordResetTokenTtlMinutes * 60000 } ::
          updateWhere s.resetTokens
            (fun token => token.userId = challenge.userId ∧ token.usedAt = none ∧
              token.deletedAt = none)
            fun token => { token with deletedAt := some s.now }
        nextId := s.nextId + 1 },
      .returned (.resetToken draws.resetToken))

def findResetToken (resetToken newPassword : String) : Option AccountPc :=
  (pickFirst (s.resetTokens.filter fun token =>
      token.tokenHash ∈ candidateOpaqueTokenHashes cfg.R cfg.K resetToken ∧ token.usedAt = none ∧
        token.deletedAt = none ∧ s.now < token.expiresAt) pick).map
    fun
    | none => .returned (.changed false)
    | some reset =>
      match s.userById reset.userId with
      | none => .returned (.changed false)
      | some user =>
        if user.status ≠ .active ∨ user.deletedAt ≠ none then .returned (.changed false)
        else .commitReset reset newPassword

def commitReset (reset : PasswordResetToken) (newPassword : String) : AccountState × AccountPc :=
  let user : User → Bool := fun user => user.id = reset.userId ∧ user.status = .active ∧ user.live
  if countWhere s.resetTokens (fun token => token.id = reset.id ∧
      token.tokenHash = reset.tokenHash ∧ token.usedAt = none ∧ token.deletedAt = none ∧
      s.now < token.expiresAt) ≠ 1 then
    (s, .returned (.changed false))
  else if countWhere s.challenges (fun challenge => challenge.id = reset.otpChallengeId ∧
      challenge.consumedAt = none ∧ challenge.lockedAt = none ∧ challenge.deletedAt = none) ≠ 1 then
    (s, .thrown (.error "Password reset OTP was already consumed"))
  else if countWhere s.users user ≠ 1 then
    (s, .thrown (.error "Password reset user is no longer eligible"))
  else
    ({ s with
        users :=
          updateWhere s.users user fun user =>
            { user with passwordHash := some (hashSecret draws.salt newPassword) }
        challenges :=
          updateWhere s.challenges (fun challenge => challenge.id = reset.otpChallengeId)
            fun challenge => { challenge with consumedAt := some s.now }
        resetTokens :=
          updateWhere s.resetTokens
            (fun token => token.userId = reset.userId ∧ token.usedAt = none ∧
              token.deletedAt = none)
            fun token =>
              if token.id = reset.id then { token with usedAt := some s.now }
              else { token with deletedAt := some s.now }
        sessions :=
          updateWhere s.sessions
            (fun row => row.2.userId = reset.userId ∧ row.2.revokedAt = none)
            fun row => (row.1, row.2.revoked s.now "password_reset")
        refreshTokens :=
          updateWhere s.refreshTokens
            (fun token => token.userId = reset.userId ∧ token.revokedAt = none)
            (·.revoked s.now) },
      .returned (.changed true))

def createSession (userId : ℕ) : AccountState × AccountPc :=
  let user : User → Bool := fun user => user.id = userId ∧ user.live
  let expiresAt := expiresIn cfg.refreshTokenTtlDays s.now
  if !(s.users.any user) then (s, .thrown p2025)
  else
    ({ s with
        sessions :=
          (s.nextId, { userId := userId, expiresAt := expiresAt, lastSeenAt := s.now }) ::
            s.sessions
        refreshTokens :=
          { userId := userId
            sessionId := s.nextId
            tokenHash := hashOpaqueToken cfg.R cfg.K draws.refreshToken
            expiresAt := expiresAt } :: s.refreshTokens
        users := updateWhere s.users user fun user => { user with lastLoginAt := some s.now }
        nextId := s.nextId + 1 },
      .returned (.tokenPair userId draws.refreshToken))

/-- The effect of a step of a call, and where the call goes on. -/
def effect (draws : Draws) : AccountPc → Option (AccountState × AccountPc)
  | .findSignup email password displayName =>
    match s.userByEmail email with
    | some _ => some (s, .returned .void)
    | none => some (s, .createUser email password displayName)
  | .createUser email password displayName => some (createUser s draws email password displayName)
  | .findLogin email password => some (s, checkPassword cfg (s.userByEmail email) password)
  | .verifyToken provider idToken displayName =>
    match verifySocialIdentity cfg provider idToken with
    | .error e => some (s, .thrown e)
    | .ok identity => some (s, .findLinked identity displayName)
  | .findLinked identity displayName =>
    (findLinked s pick identity displayName).map fun pc => (s, pc)
  | .touchLinked identity userId => some (touchLinked s identity userId, .createSession userId)
  | .findByEmail identity displayName => some (s, findByEmail s identity displayName)
  | .activateExisting identity displayName userId =>
    some (activateExisting s identity displayName userId)
  | .createLinked identity displayName => some (createLinked s identity displayName)
  | .findRecipient destination channel purpose =>
    (findRecipient s pick destination channel purpose).map fun pc => (s, pc)
  | .findRecentOtp destination channel purpose userId =>
    if s.challenges.any (OtpChallenge.recent s.now destination channel purpose) then
      some (s, .returned .void)
    else some (s, .createOtp destination channel purpose userId)
  | .createOtp destination channel purpose userId =>
    some (s.addChallenge draws userId destination channel purpose, .returned .void)
  | .findOtp destination channel purpose code =>
    (findOtp s pick destination channel purpose code).map fun pc => (s, pc)
  | .readOtpUser challenge => some (s, .commitOtp challenge (readOtpUser s challenge))
  | .commitOtp challenge status => some (commitOtp s challenge status)
  | .recordInvalid challengeId => some (recordInvalid s challengeId, .returned .null)
  | .findResetUser email =>
    match s.users.find? fun user => user.email = some email ∧ user.status = .active ∧ user.live with
    | none => some (s, .returned .void)
    | some user => some (s, .findRecentReset email user.id)
  | .findRecentReset email userId =>
    if s.challenges.any fun challenge => challenge.userId = userId ∧
        challenge.recent s.now email .email .passwordReset ∧ challenge.verifiedAt = none then
      some (s, .returned .void)
    else some (s, .createReset email userId)
  | .createReset email userId =>
    some (s.addChallenge draws userId email .email .passwordReset, .returned .void)
  | .findReset email otp => (findReset s pick email otp).map fun pc => (s, pc)
  | .issueReset challenge => some (issueReset cfg s draws challenge)
  | .findResetToken resetToken newPassword =>
    (findResetToken cfg s pick resetToken newPassword).map fun pc => (s, pc)
  | .commitReset reset newPassword => some (commitReset s draws reset newPassword)
  | .createSession userId => some (createSession cfg s draws userId)
  | .returned _ | .thrown _ => none

end Steps

def AccountCall.step (cfg : AccountConfig) (s : AccountState) (call : AccountCall)
    (c : AccountChoice) : Option (AccountState × AccountCall) :=
  (effect cfg s c.pick call.draws call.pc).map fun (s', pc) =>
    let (s'', pc') := c.outcome.run s s' pc .thrown
    (s'', { call with pc := pc' })

def startPc (R : Runtime) : AccountRequest → AccountPc
  | .signupWithPassword email password displayName =>
    .findSignup (normalizeEmail R email) password displayName
  | .loginWithPassword email password => .findLogin (normalizeEmail R email) password
  | .loginWithSocial provider idToken displayName => .verifyToken provider idToken displayName
  | .sendOtp destination channel purpose =>
    .findRecipient (if channel = .email then normalizeEmail R destination else destination) channel
      purpose
  | .verifyOtp destination channel purpose code =>
    .findOtp (if channel = .email then normalizeEmail R destination else destination) channel
      purpose code
  | .requestPasswordReset email => .findResetUser (normalizeEmail R email)
  | .verifyPasswordResetOtp email otp => .findReset (normalizeEmail R email) otp
  | .confirmPasswordReset resetToken newPassword => .findResetToken resetToken newPassword

/-- `otpSendSchema` and `otpVerifySchema`: the purposes of each channel. -/
def otpPurposes : OtpChannel → List OtpPurpose
  | .email => [.login, .verifyEmail]
  | .sms => [.login, .verifyPhone]

def AccountRequest.valid : AccountRequest → Bool
  | .sendOtp _ channel purpose | .verifyOtp _ channel purpose _ => purpose ∈ otpPurposes channel
  | _ => true

inductive AccountEvent
  | tick (ms : ℕ)
deriving DecidableEq

structure AccountSpawn where
  caller : Principal
  request : AccountRequest
  draws : Draws := {}
deriving DecidableEq

/-- **Calls on accounts** by two principals. -/
def accounts (cfg : AccountConfig) :
    Program AccountState AccountCall AccountSpawn AccountChoice AccountEvent where
  init := {}
  spawn s _ a :=
    if a.request.valid then some (s, ⟨a.caller, a.draws, startPc cfg.R a.request⟩) else none
  step s _ call c := call.step cfg s c
  env s
    | .tick ms => some { s with now := s.now + ms }

abbrev AccountWorld := World AccountState AccountCall

abbrev AccountLabel := Label AccountSpawn AccountChoice AccountEvent

end BackendFoundation.Auth.AccountModel
