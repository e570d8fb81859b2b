import BackendFoundation.Lib.Calls
import BackendFoundation.Lib.Interleave
import BackendFoundation.Notifications.Templates
import BackendFoundation.Notifications.UnsubscribeTokens
import BackendFoundation.Outbox.Model

/-! # Emails

`sendEmail` of `providers.ts`, a statement or a request a step, with any calls beside each other, each
with the key ring of the process that it runs in. Beside them the reports of the email provider add to
the suppressions, users change their preferences and use the links of their emails, and accounts are
deleted; whatever else happens to challenges, users and deliveries is open.

What the transports do with a message is left out, and so are its sender and the texts of the URLs. -/

namespace BackendFoundation.Notifications.Emails

open Crypto Errors Lib Lib.Interleave Lib.UuidText Notifications.Interpolate Notifications.Templates
open Notifications.Unsubscribe Notifications.UnsubscribeTokens
open Outbox.Model (EmailEvent NotificationDelivery OutboxState ProviderDeliveryResult)
open Tenancy.TenantScope

/-! ### Requests -/

inductive OtpPurpose
  | signup | login | verifyEmail | verifyPhone | passwordReset | emailChange
deriving DecidableEq

/-- `destinationSchema` -/
structure Destination where
  destination : String
  userId : Option String := none
  organizationId : Option String := none
  locale : Option Text := none
deriving DecidableEq

/-- A type of events with what its schema makes of the payload, or one of the two that is refused. -/
inductive EmailRequest
  /-- `auth.otp` -/
  | otp (target : Destination) (challengeId : String) (encryptedCode : Ciphertext)
    (purpose : Option OtpPurpose)
  /-- `auth.signup_existing` -/
  | signupExisting (target : Destination)
  /-- `organization.invitation` -/
  | invitation (target : Destination) (encryptedToken : Ciphertext)
    (organizationName expiresInDays : Text)
  /-- `product.announcement`, where the user is not optional. -/
  | announcement (target : Destination) (userId : String) (topic : NotificationTopic)
    (headline message actionUrl : Text)
  | malformed
  | unsupported (eventType : String)
deriving DecidableEq

structure EmailMessage where
  recipient : String
  subject : Text
  text : Text
  html : Text
  headers : Option (List (String × Text)) := none
  deliveryId : Option String := none
deriving DecidableEq

/-- What a process is configured with. -/
structure EmailConfig where
  strings : Crypto.Runtime
  platform : Platform
  /-- What `z.string().url()` makes of a text, if it accepts it. -/
  parseUrl : Text → Option Text
  /-- The URL of `/invitations/accept` with a token. -/
  acceptUrl : Text → Text
  emailFrom : Text
  /-- `EMAIL_UNSUBSCRIBE_URL` with a token. -/
  unsubscribeUrl : Option (Text → Text) := none
  smtp : Bool := true

/-- A call of `sendEmail`. -/
structure EmailCall where
  keyring : Keyring
  request : EmailRequest
  deliveryId : Option String := none

/-! ### Messages -/

def OTP_EXPIRY_MINUTES : Text := "5".toList

def valuesOf (entries : List (String × Text)) : Text → Option Text := fun name =>
  (entries.find? (·.1.toList = name)).map (·.2)

def otpTemplateKey (purpose : Option OtpPurpose) : EmailTemplateKey :=
  if purpose = some .passwordReset then .authPasswordResetOtp else .authVerificationOtp

def templateName : EmailTemplateKey → String
  | .authVerificationOtp => "auth-verification-otp"
  | .authPasswordResetOtp => "auth-password-reset-otp"
  | .authSignupExisting => "auth-signup-existing"
  | .organizationInvitation => "organization-invitation"
  | .productAnnouncement => "product-announcement"

variable (config : EmailConfig)

def unsubscribeHeaders (now : ℕ) (transactional : Bool)
    (subscription : Option (String × NotificationTopic)) : Option (List (String × Text)) :=
  if transactional then none
  else
    let mailto := "mailto:".toList ++ config.emailFrom ++ "?subject=unsubscribe".toList
    match config.unsubscribeUrl, subscription with
    | some url, some (userId, topic) =>
      let unsubscribeUrl := url (createUnsubscribeToken config.platform now userId topic 30)
      some [("List-Unsubscribe", '<' :: unsubscribeUrl ++ ">, <".toList ++ mailto ++ ">".toList),
        ("List-Unsubscribe-Post", "List-Unsubscribe=One-Click".toList)]
    | _, _ => some [("List-Unsubscribe", '<' :: mailto ++ ">".toList)]

def EmailRequest.target? : EmailRequest → Option Destination
  | .otp target _ _ _ | .signupExisting target | .invitation target _ _ _
  | .announcement target _ _ _ _ _ => some target
  | .malformed | .unsupported _ => none

def zodError : Thrown := .error "ZodError"

/-- The template of a request and the values that it is filled with. -/
def EmailRequest.draft (K : Keyring) :
    EmailRequest → Except Thrown (EmailTemplateKey × (Text → Option Text))
  | .otp _ _ encryptedCode purpose => do
    let code ← decryptSecret K encryptedCode
    return (otpTemplateKey purpose,
      valuesOf [("code", code.toList), ("expiresInMinutes", OTP_EXPIRY_MINUTES)])
  | .signupExisting _ => .ok (.authSignupExisting, valuesOf [])
  | .invitation _ encryptedToken organizationName expiresInDays => do
    let token ← decryptSecret K encryptedToken
    return (.organizationInvitation,
      valuesOf [("organizationName", organizationName), ("actionUrl", config.acceptUrl token.toList),
        ("expiresInDays", expiresInDays)])
  | .announcement _ _ _ headline message actionUrl =>
    .ok (.productAnnouncement,
      valuesOf [("headline", headline), ("message", message), ("actionUrl", actionUrl)])
  | .malformed => .error zodError
  | .unsupported eventType => .error (.error ("Unsupported email event: " ++ eventType))

/-- The headers of a message. An invitation is sent without any. -/
def EmailRequest.headers (now : ℕ) (transactional : Bool) :
    EmailRequest → Option (List (String × Text))
  | .otp _ _ _ _ | .signupExisting _ => unsubscribeHeaders config now transactional none
  | .announcement _ userId topic _ _ _ =>
    unsubscribeHeaders config now transactional (some (userId, topic))
  | .invitation _ _ _ _ | .malformed | .unsupported _ => none

/-- The message of a call, in a locale and at a time. -/
def EmailCall.message (call : EmailCall) (now : ℕ) (locale : Option Text) :
    Except Thrown EmailMessage := do
  let (key, values) ← call.request.draft config call.keyring
  let rendered ← renderEmailTemplate config.parseUrl key values locale
  return {
    recipient := (call.request.target?.map (·.destination)).getD ""
    subject := rendered.subject
    text := rendered.text
    html := rendered.html
    headers := call.request.headers config now rendered.transactional
    deliveryId := call.deliveryId }

/-! ### The state -/

/-- What the condition of a challenge reads, and the locale of its user if it has one. -/
structure OtpChallenge where
  consumedAt : Option ℕ := none
  lockedAt : Option ℕ := none
  deletedAt : Option ℕ := none
  expiresAt : ℕ
  userLocale : Option Text := none
deriving DecidableEq

/-- A message that a transport was given, with the call and the request that it is for. -/
structure SentEmail where
  sender : ℕ
  request : EmailRequest
  message : EmailMessage
deriving DecidableEq

structure EmailState where
  outbox : OutboxState := {}
  challenges : Table String OtpChallenge := Table.empty
  /-- The locales of the users that are not deleted. -/
  locales : Table String Text := Table.empty
  preferences : Preferences := Table.empty
  mailbox : List SentEmail := []

namespace EmailState
variable (s : EmailState)

def now : ℕ := s.outbox.now

/-- `otpChallenge.findFirst`, of a challenge that can still be used. -/
def liveChallenge (challengeId : String) : Option OtpChallenge :=
  (s.challenges challengeId).filter fun row =>
    row.consumedAt = none ∧ row.lockedAt = none ∧ row.deletedAt = none ∧ s.now < row.expiresAt

def isSuppressed (R : Crypto.Runtime) (K : Keyring) (destination : String) : Bool :=
  (candidateMetadataHashes R K (normalizeEmail R destination)).any fun hash =>
    (s.outbox.suppressions hash).any (·.deletedAt = none)

def send (m : SentEmail) : EmailState := { s with mailbox := s.mailbox ++ [m] }

end EmailState

/-! ### Calls -/

inductive EmailPc
  | challenge
  /-- Before `isSuppressed`, with the locale of the user of the challenge. -/
  | suppression (userLocale : Option Text)
  | preference
  | locale
  | send (message : EmailMessage)
  | returned (result : ProviderDeliveryResult)
  | thrown (e : Thrown)
deriving DecidableEq

/-- What the surroundings choose: the fate of a statement or request, and the id that the mail server
gives a message. -/
structure EmailChoice where
  outcome : Outcome Thrown := .ok
  messageId : Option String := none

def refused (provider : String) : EmailPc := .returned { status := .suppressed, provider }

/-- The message of a call, or the error in making it. -/
def build (now : ℕ) (call : EmailCall) (locale : Option Text) : EmailPc :=
  match call.message config now locale with
  | .ok message => .send message
  | .error e => .thrown e

/-- `resolvedLocale`, which reads the user only if no locale is asked for. -/
def resolvedLocale (now : ℕ) (call : EmailCall) (userId : Option String) (requested : Option Text) :
    EmailPc :=
  match call.request.draft config call.keyring with
  | .error e => .thrown e
  | .ok _ =>
    if requested.any (· ≠ []) ∨ userId = none then build config now call requested else .locale

def start : EmailRequest → EmailPc
  | .otp _ _ _ _ => .challenge
  | .signupExisting _ | .invitation _ _ _ _ | .announcement _ _ _ _ _ _ => .suppression none
  | .malformed => .thrown zodError
  | .unsupported eventType => .thrown (.error ("Unsupported email event: " ++ eventType))

/-- What `send` resolves to: the id of the message, if there is one. -/
def sentMessageId (c : EmailChoice) (message : EmailMessage) : Option String :=
  if config.smtp then c.messageId else message.deliveryId.map ("log:" ++ ·)

def sentResult (call : EmailCall) (c : EmailChoice) (message : EmailMessage) : ProviderDeliveryResult :=
  { status := .sent
    provider := if config.smtp then "smtp" else "log"
    messageId := sentMessageId config c message
    templateKey := (call.request.draft config call.keyring).toOption.map (templateName ·.1) }

def emailStep (s : EmailState) (pid : ℕ) (call : EmailCall) (pc : EmailPc) (c : EmailChoice) :
    Option (EmailState × EmailPc) :=
  match call.request, pc with
  | .otp _ challengeId _ _, .challenge =>
    let next : EmailPc :=
      match s.liveChallenge challengeId with
      | none => refused "policy"
      | some row => .suppression row.userLocale
    some (c.outcome.read s next .thrown)
  | .otp target _ _ _, .suppression userLocale =>
    let next : EmailPc :=
      if s.isSuppressed config.strings call.keyring target.destination then refused "suppression-list"
      else build config s.now call (target.locale.or userLocale)
    some (c.outcome.read s next .thrown)
  | .signupExisting target, .suppression _ | .invitation target _ _ _, .suppression _ =>
    let next : EmailPc :=
      if s.isSuppressed config.strings call.keyring target.destination then refused "suppression-list"
      else resolvedLocale config s.now call target.userId target.locale
    some (c.outcome.read s next .thrown)
  | .announcement target _ _ _ _ _, .suppression _ =>
    let next : EmailPc :=
      if s.isSuppressed config.strings call.keyring target.destination then refused "preference-policy"
      else .preference
    some (c.outcome.read s next .thrown)
  | .announcement target userId topic _ _ _, .preference =>
    let next : EmailPc :=
      if notificationAllowed s.preferences userId .email topic target.organizationId then
        resolvedLocale config s.now call (some userId) target.locale
      else refused "preference-policy"
    some (c.outcome.read s next .thrown)
  | .signupExisting target, .locale | .invitation target _ _ _, .locale =>
    some (c.outcome.read s (build config s.now call (target.userId.bind s.locales)) .thrown)
  | .announcement _ userId _ _ _ _, .locale =>
    some (c.outcome.read s (build config s.now call (s.locales userId)) .thrown)
  | request, .send message =>
    some (c.outcome.run s (s.send ⟨pid, request, message⟩)
      (.returned (sentResult config call c message)) .thrown)
  | _, _ => none

/-! ### The system -/

inductive EmailEnv
  | tick (ms : ℕ)
  /-- `processEmailProviderEvent`, in a process with this key ring. -/
  | providerEvent (K : Keyring) (event : EmailEvent)
  | setPreference (context : Option RequestContext) (userId : String) (input : PreferenceInput)
  | unsubscribe (context : Option RequestContext) (token : Text)
  /-- What `deleteAccount` does to the preferences. -/
  | deletePreferences (userId : String)
  | setChallenge (challengeId : String) (row : OtpChallenge)
  | setLocale (userId : String) (locale : Option Text)
  | setDelivery (outboxId : String) (row : NotificationDelivery)

def contextOf : Change → Option RequestContext
  | .set context _ _ | .unsubscribe context _ _ => context

/-- A change of the preferences; the id of an organization is a uuid. -/
def EmailState.change (s : EmailState) (change : Change) : Option EmailState :=
  if (contextOf change).bind (·.activeOrganization) = some "global" then none
  else some { s with preferences := change.apply config.platform.runtime s.preferences }

def emailEnv (s : EmailState) : EmailEnv → Option EmailState
  | .tick ms => some { s with outbox := { s.outbox with now := s.outbox.now + ms } }
  | .providerEvent K event =>
    some { s with outbox := s.outbox.processEmailProviderEvent config.strings K event }
  | .setPreference context userId input => s.change config (.set context userId input)
  | .unsubscribe context token => s.change config (.unsubscribe context s.now token)
  | .deletePreferences userId =>
    some { s with preferences := fun key =>
      if key.userId = userId then (s.preferences key).filter (·.deletedAt ≠ none)
      else s.preferences key }
  | .setChallenge challengeId row => some { s with challenges := s.challenges.set challengeId row }
  | .setLocale userId locale =>
    some { s with locales := fun id => if id = userId then locale else s.locales id }
  | .setDelivery outboxId row =>
    some { s with outbox := { s.outbox with deliveries := s.outbox.deliveries.set outboxId row } }

structure EmailProc where
  call : EmailCall
  pc : EmailPc

/-- **The emails**, with any calls beside each other. -/
def system : Program EmailState EmailProc EmailCall EmailChoice EmailEnv where
  init := {}
  spawn s _ call := some (s, ⟨call, start call.request⟩)
  step s pid p c := (emailStep config s pid p.call p.pc c).map fun r => (r.1, ⟨p.call, r.2⟩)
  env := emailEnv config

abbrev EmailWorld := World EmailState EmailProc

end BackendFoundation.Notifications.Emails
