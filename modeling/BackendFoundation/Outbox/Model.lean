import BackendFoundation.Crypto
import BackendFoundation.Errors
import BackendFoundation.Lib.Calls
import BackendFoundation.Lib.JobQueue

/-! # The transactional outbox: rows, queue and statements

The tables the outbox touches, the job queue, and one definition for each database statement that
the relay, the worker, the failure reconciliation, the redrive and the email webhook send. The
clock `now` is the time of the deployment; `new Date()` reads it. Claim tokens are random UUIDs in
the source; here the token of a claim is the number of the relay run that made it, which no other
run has.

Every statement that changes an outbox row is `updateEvent` with its own condition and data, as
`updateMany` is in the source. The mandatory soft-delete filter adds `deletedAt: null` to each of
them. -/

namespace BackendFoundation.Outbox.Model

open Lib Errors Crypto

abbrev Uuid := String

/-! ### Rows -/

inductive NotificationChannel
  | email | sms | push | internal
deriving DecidableEq

inductive OutboxStatus
  | pending | claimed | enqueued | processing | delivered | failed | deadLetter
deriving DecidableEq

inductive NotificationDeliveryStatus
  | processing | sent | delivered | suppressed | bounced | complained | failed
deriving DecidableEq

/-- A member of a JSON payload: a string, or anything else. -/
inductive PayloadValue
  | string (s : String)
  | other
deriving DecidableEq

abbrev Payload := List (String × PayloadValue)

def payloadString (payload : Payload) (key : String) : Option String :=
  match payload.lookup key with
  | some (.string s) => if s = "" then none else some s
  | _ => none

/-- A row of `outbox_events`, keyed by its id. -/
structure OutboxEvent where
  eventType : String
  channel : NotificationChannel
  payload : Payload := []
  status : OutboxStatus := .pending
  attempts : ℕ := 0
  deliveryGeneration : ℕ := 0
  availableAt : ℕ
  expiresAt : Option ℕ := none
  claimedAt : Option ℕ := none
  claimExpiresAt : Option ℕ := none
  claimToken : Option ℕ := none
  enqueuedAt : Option ℕ := none
  deliveredAt : Option ℕ := none
  failedAt : Option ℕ := none
  deadLetteredAt : Option ℕ := none
  lastError : Option String := none
  createdAt : ℕ
  deletedAt : Option ℕ := none
deriving DecidableEq

/-- A row of `notification_deliveries`, keyed by the id of its outbox event. -/
structure NotificationDelivery where
  channel : NotificationChannel
  userId : Option String
  organizationId : Option String
  destinationHash : Option MetadataHash
  templateKey : Option String := none
  provider : Option String := none
  providerMessageId : Option String := none
  status : NotificationDeliveryStatus := .processing
  attempts : ℕ := 0
  lastError : Option String := none
  sentAt : Option ℕ := none
  deliveredAt : Option ℕ := none
  deletedAt : Option ℕ := none
deriving DecidableEq

inductive StripeEventStatus
  | received | processing | processed | failed
deriving DecidableEq

structure StripeWebhookEvent where
  status : StripeEventStatus := .received
  lastError : Option String := none
  deletedAt : Option ℕ := none
deriving DecidableEq

inductive EmailSuppressionReason
  | bounce | complaint
deriving DecidableEq

/-- A row of `email_suppressions`, keyed by its destination hash. -/
structure EmailSuppression where
  reason : EmailSuppressionReason
  provider : String
  providerEventId : String
  deletedAt : Option ℕ := none
deriving DecidableEq

structure AuditEvent where
  actorUserId : String
  action : String
  entityType : String
  entityId : Uuid
  previousGeneration : ℕ
deriving DecidableEq

/-! ### Jobs and providers -/

structure NotificationJobData where
  outboxId : Uuid
  /-- Absent on jobs that predate generations. -/
  generation : Option ℕ
deriving DecidableEq

/-- `Number.isInteger(job.data.generation) ? job.data.generation : 0`. -/
def NotificationJobData.deliveryGeneration (d : NotificationJobData) : ℕ := d.generation.getD 0

/-- The parts of the job id `outboxJobId` writes. -/
structure JobId where
  outboxId : Uuid
  deliveryGeneration : ℕ
deriving DecidableEq

/-- The job id as the text BullMQ is given. -/
def outboxJobId (id : JobId) : String :=
  "outbox-" ++ id.outboxId ++ "-" ++ toString id.deliveryGeneration

abbrev Queue := JobQueue JobId NotificationJobData

def OUTBOX_MAX_DELIVERY_ATTEMPTS : ℕ := 5

inductive DeliveryFailureDisposition
  | retry | deadLetter
deriving DecidableEq

def deliveryFailureDisposition (attemptsMadeBeforeCurrentAttempt : ℕ)
    (configuredAttempts : Option ℕ) : DeliveryFailureDisposition :=
  if max 1 (configuredAttempts.getD 1) ≤ attemptsMadeBeforeCurrentAttempt + 1 then .deadLetter
  else .retry

inductive DeliveryOutcome
  | sent | suppressed
deriving DecidableEq

structure ProviderDeliveryResult where
  status : DeliveryOutcome
  provider : String
  messageId : Option String := none
  templateKey : Option String := none
deriving DecidableEq

/-- A call of `sendEmail`, `sendSms`, `sendPush` or `processInternal`, with what it returned if it
did not throw. -/
structure ProviderCall where
  outboxId : Uuid
  channel : NotificationChannel
  returned : Option DeliveryOutcome
deriving DecidableEq

structure WorkerRuntimeDependencies where
  /-- An upload provider is configured. -/
  uploadProvider : Bool
deriving DecidableEq

/-! ### The state -/

structure OutboxState where
  now : ℕ := 0
  events : Table Uuid OutboxEvent := Table.empty
  deliveries : Table Uuid NotificationDelivery := Table.empty
  stripeWebhookEvents : Table Uuid StripeWebhookEvent := Table.empty
  suppressions : Table MetadataHash EmailSuppression := Table.empty
  auditEvents : List AuditEvent := []
  /-- The queues of all channels. The id of a job names its event, and the event its channel. -/
  queue : Queue := Table.empty
  /-- The calls of providers and internal handlers so far. -/
  calls : List ProviderCall := []

/-- `updateMany` on outbox rows with `id` in its condition. -/
def OutboxState.updateEvent (s : OutboxState) (id : Uuid) (cond : OutboxEvent → Prop)
    [DecidablePred cond] (data : OutboxEvent → OutboxEvent) : OutboxState × ℕ :=
  let r := s.events.updateWhere id (fun row => row.deletedAt = none ∧ cond row) data
  ({ s with events := r.1 }, r.2)

/-- `findUnique` on outbox rows. -/
def OutboxState.findEvent (s : OutboxState) (id : Uuid) : Option OutboxEvent :=
  (s.events id).filter fun row => row.deletedAt = none

/-- `event.expiresAt && event.expiresAt <= new Date()`. -/
def OutboxEvent.Expired (event : OutboxEvent) (now : ℕ) : Prop := ∃ t ∈ event.expiresAt, t ≤ now

instance (event : OutboxEvent) (now : ℕ) : Decidable (event.Expired now) :=
  inferInstanceAs (Decidable (∃ t ∈ event.expiresAt, t ≤ now))

/-! ### The relay: `outbox.relay.ts` -/

def OUTBOX_BATCH_SIZE : ℕ := 100

def OUTBOX_CLAIM_LEASE_MS : ℕ := 30000

def OUTBOX_ENQUEUE_RETRY_DELAY_MS : ℕ := 5000

/-- The rows `claimOutboxBatch` selects. -/
def OutboxEvent.Claimable (row : OutboxEvent) (now : ℕ) : Prop :=
  row.deletedAt = none ∧ row.availableAt ≤ now ∧ ¬ row.Expired now ∧
    (row.status = .pending ∨ (row.status = .claimed ∧ ∃ t ∈ row.claimExpiresAt, t ≤ now))

instance (row : OutboxEvent) (now : ℕ) : Decidable (row.Claimable now) :=
  inferInstanceAs (Decidable (_ ∧ _ ∧ _ ∧ (_ ∨ (_ ∧ ∃ t ∈ row.claimExpiresAt, t ≤ now))))

def OutboxEvent.claim (now claimToken : ℕ) (row : OutboxEvent) : OutboxEvent :=
  { row with
    status := .claimed
    claimedAt := some now
    claimExpiresAt := some (now + OUTBOX_CLAIM_LEASE_MS)
    claimToken := some claimToken }

/-- The locked candidates `ids` are claimed. Which of the claimable rows they are depends on the
order of creation and on the rows that other transactions have locked. -/
def OutboxState.claimRows (s : OutboxState) (now claimToken : ℕ) (ids : List Uuid) : OutboxState :=
  { s with
    events := s.events.updateAll (fun id row => id ∈ ids ∧ row.Claimable now)
      fun _ => OutboxEvent.claim now claimToken }

def OutboxState.markEnqueued (s : OutboxState) (id : Uuid) (claimToken : Option ℕ) : OutboxState :=
  (s.updateEvent id (fun row => row.status = .claimed ∧ row.claimToken = claimToken) fun row =>
    { row with
      status := .enqueued
      enqueuedAt := some s.now
      claimedAt := none
      claimExpiresAt := none
      claimToken := none
      lastError := none }).1

def OutboxState.releaseClaimAfterEnqueueFailure (s : OutboxState) (id : Uuid)
    (claimToken : Option ℕ) (error : Thrown) : OutboxState :=
  (s.updateEvent id (fun row => row.status = .claimed ∧ row.claimToken = claimToken) fun row =>
    { row with
      status := .pending
      availableAt := s.now + OUTBOX_ENQUEUE_RETRY_DELAY_MS
      claimedAt := none
      claimExpiresAt := none
      claimToken := none
      lastError := some (error.messageOr "Unknown enqueue error") }).1

/-! ### The worker: `notification.worker.ts` -/

def OutboxState.expireEvent (s : OutboxState) (id : Uuid) (generation : ℕ) : OutboxState × ℕ :=
  s.updateEvent id (fun row => row.deliveryGeneration = generation ∧ row.status ≠ .delivered)
    fun row =>
      { row with
        status := .deadLetter
        failedAt := some s.now
        deadLetteredAt := some s.now
        lastError := some "Business expiry elapsed before delivery" }

def OutboxState.startEvent (s : OutboxState) (id : Uuid) (generation : ℕ) : OutboxState × ℕ :=
  s.updateEvent id
    (fun row => row.deliveryGeneration = generation ∧
      (row.status = .enqueued ∨ row.status = .failed))
    fun row =>
      { row with
        status := .processing
        attempts := row.attempts + 1
        claimedAt := none
        claimExpiresAt := none
        claimToken := none }

def OutboxState.deliverEvent (s : OutboxState) (id : Uuid) (generation : ℕ) : OutboxState × ℕ :=
  s.updateEvent id (fun row => row.deliveryGeneration = generation ∧ row.status = .processing)
    fun row =>
      { row with
        status := .delivered
        deliveredAt := some s.now
        failedAt := none
        deadLetteredAt := none
        lastError := none }

/-- `if (['SENT', 'DELIVERED', 'SUPPRESSED', 'BOUNCED', 'COMPLAINED'].includes(existing.status))`. -/
def NotificationDeliveryStatus.Recorded : NotificationDeliveryStatus → Prop
  | sent | delivered | suppressed | bounced | complained => True
  | processing | failed => False

instance : DecidablePred NotificationDeliveryStatus.Recorded := fun status => by
  cases status <;> unfold NotificationDeliveryStatus.Recorded <;> infer_instance

def OutboxState.findDelivery (s : OutboxState) (id : Uuid) : Option NotificationDelivery :=
  (s.deliveries id).filter fun row => row.deletedAt = none

/-- The upsert of `recordDeliveryStarted`. Upserts are outside the soft-delete filter. -/
def OutboxState.upsertDelivery (R : Runtime) (K : Keyring) (s : OutboxState) (id : Uuid)
    (event : OutboxEvent) : OutboxState :=
  match s.deliveries id with
  | none =>
    { s with
      deliveries := s.deliveries.set id
        { channel := event.channel
          userId := payloadString event.payload "userId"
          organizationId := payloadString event.payload "organizationId"
          destinationHash := (payloadString event.payload "destination").map fun destination =>
            hashMetadata R K (normalizeEmail R destination)
          status := .processing
          attempts := 1 } }
  | some row =>
    { s with
      deliveries := s.deliveries.set id
        { row with status := .processing, attempts := row.attempts + 1, lastError := none } }

/-- The update of `recordDeliveryResult`, with the number of rows it found; the source's `update`
throws when there is none. A message id another row has is refused by the unique index, which is
one of the ways the statement can fail. -/
def OutboxState.recordDeliveryResult (s : OutboxState) (id : Uuid)
    (result : ProviderDeliveryResult) : OutboxState × ℕ :=
  let r := s.deliveries.updateWhere id (fun row => row.deletedAt = none) fun row =>
    { row with
      status := if result.status = .suppressed then .suppressed else .sent
      provider := some result.provider
      providerMessageId := result.messageId.or row.providerMessageId
      templateKey := result.templateKey.or row.templateKey
      sentAt := if result.status = .sent then some s.now else none
      lastError := none }
  ({ s with deliveries := r.1 }, r.2)

def OutboxState.recordDeliveryError (s : OutboxState) (id : Uuid) (error : Thrown) : OutboxState :=
  { s with
    deliveries := (s.deliveries.updateWhere id (fun row => row.deletedAt = none) fun row =>
      { row with
        status := .failed
        lastError := some (error.messageOr "Unknown worker error") }).1 }

def stripeWebhookEventId (event : OutboxEvent) : Option String :=
  if event.channel ≠ .internal ∨ event.eventType ≠ "stripe.event_received" then none
  else
    match event.payload.lookup "stripeWebhookEventId" with
    | some (.string s) => some s
    | _ => none

def OutboxState.updateStripeWebhookEvent (s : OutboxState) (id : Uuid)
    (data : StripeWebhookEvent → StripeWebhookEvent) : OutboxState :=
  { s with
    stripeWebhookEvents :=
      (s.stripeWebhookEvents.updateWhere id (fun row => row.deletedAt = none) data).1 }

/-- The update of the outbox row in `recordDeliveryFailure`. -/
def OutboxState.failEvent (s : OutboxState) (id : Uuid) (generation : ℕ) (message : String)
    (disposition : DeliveryFailureDisposition) : OutboxState × ℕ :=
  s.updateEvent id
    (fun row => row.deliveryGeneration = generation ∧
      row.status ≠ .delivered ∧ row.status ≠ .deadLetter)
    fun row =>
      { row with
        status := if disposition = .deadLetter then .deadLetter else .enqueued
        failedAt := if disposition = .deadLetter then some s.now else none
        deadLetteredAt := if disposition = .deadLetter then some s.now else none
        lastError := some message }

/-- The update of the stored Stripe event in `recordDeliveryFailure`. -/
def OutboxState.failStripeWebhookEvent (s : OutboxState) (event : OutboxEvent) (message : String) :
    OutboxState :=
  match stripeWebhookEventId event with
  | some webhookEventId =>
    if webhookEventId = "" then s
    else s.updateStripeWebhookEvent webhookEventId fun row =>
      { row with status := .failed, lastError := some message }
  | none => s

/-- The transaction of `recordDeliveryFailure`. -/
def OutboxState.recordDeliveryFailure (s : OutboxState) (id : Uuid) (event : OutboxEvent)
    (generation : ℕ) (error : Thrown) (disposition : DeliveryFailureDisposition) :
    OutboxState :=
  let message := error.messageOr "Unknown worker error"
  let updated := s.failEvent id generation message disposition
  if updated.2 = 1 then updated.1.failStripeWebhookEvent event message else s

/-- What `processInternal` checks before a handler runs; the result is the webhook event the
handler is run for, if it is the Stripe handler. -/
def internalHandler (dependencies : Option WorkerRuntimeDependencies) (event : OutboxEvent) :
    Except Thrown (Option Uuid) :=
  if event.eventType = "account.erasure.requested" then
    if dependencies.isNone then
      .error (.error "Account-erasure worker dependencies are unavailable")
    else .ok none
  else if event.eventType = "upload.scan.requested" then
    if ¬ dependencies.any (·.uploadProvider) then
      .error (.error "Upload-scanning worker dependencies are unavailable")
    else if (payloadString event.payload "uploadId").isNone then .error (.error "Missing upload id")
    else .ok none
  else if event.eventType ≠ "stripe.event_received" then
    .error (.error ("Unsupported internal event: " ++ event.eventType))
  else
    match stripeWebhookEventId event with
    | some webhookEventId =>
      if webhookEventId = "" then .error (.error "Missing Stripe event id")
      else .ok (some webhookEventId)
    | none => .error (.error "Missing Stripe event id")

def OutboxState.logCall (s : OutboxState) (id : Uuid) (channel : NotificationChannel)
    (returned : Option DeliveryOutcome) : OutboxState :=
  { s with calls := s.calls ++ [⟨id, channel, returned⟩] }

/-! ### The redrive: `outbox.service.ts` -/

def OutboxState.resetDeadLetter (s : OutboxState) (id : Uuid) (generation : ℕ) : OutboxState × ℕ :=
  s.updateEvent id (fun row => row.status = .deadLetter ∧ row.deliveryGeneration = generation)
    fun row =>
      { row with
        status := .pending
        attempts := 0
        deliveryGeneration := row.deliveryGeneration + 1
        availableAt := s.now
        claimedAt := none
        claimExpiresAt := none
        claimToken := none
        enqueuedAt := none
        deliveredAt := none
        failedAt := none
        deadLetteredAt := none
        lastError := none }

/-! ### New events and email feedback -/

structure OutboxInput where
  eventType : String
  channel : NotificationChannel
  payload : Payload := []
  availableAt : Option ℕ := none
  expiresAt : Option ℕ := none
deriving DecidableEq

/-- The row `addOutboxEvent` creates under a new id. -/
def OutboxState.addOutboxEvent (s : OutboxState) (id : Uuid) (input : OutboxInput) :
    Option OutboxState :=
  match s.events id with
  | some _ => none
  | none => some
    { s with
      events := s.events.set id
        { eventType := input.eventType
          channel := input.channel
          payload := input.payload
          availableAt := input.availableAt.getD s.now
          expiresAt := input.expiresAt
          createdAt := s.now } }

/-- The transaction of `verifyAndStoreStripeEvent` for an event that is not a duplicate: the stored
event and its outbox event. -/
def OutboxState.storeStripeEvent (s : OutboxState) (id stored : Uuid) (type : String) :
    Option OutboxState :=
  match s.stripeWebhookEvents stored with
  | some _ => none
  | none =>
    { s with stripeWebhookEvents := s.stripeWebhookEvents.set stored {} }.addOutboxEvent id
      { eventType := "stripe.event_received"
        channel := .internal
        payload := [("stripeWebhookEventId", .string stored), ("type", .string type)] }

inductive EmailEventType
  | delivered | bounce | complaint
deriving DecidableEq

/-- An email event whose signature and schema were accepted. -/
structure EmailEvent where
  id : String
  type : EmailEventType
  destination : String
  provider : String
  messageId : Option String := none
deriving DecidableEq

def EmailEventType.status : EmailEventType → NotificationDeliveryStatus
  | delivered => .delivered
  | bounce => .bounced
  | complaint => .complained

/-- The delivery rows an email event selects: by message id, if it carries one, or by the hash of
its destination. -/
def EmailEvent.Matches (R : Runtime) (K : Keyring) (event : EmailEvent)
    (row : NotificationDelivery) : Prop :=
  row.deletedAt = none ∧
    ((event.messageId.isSome ∧ row.providerMessageId = event.messageId) ∨
      ∃ h ∈ row.destinationHash,
        h ∈ candidateMetadataHashes R K (normalizeEmail R event.destination))

instance (R : Runtime) (K : Keyring) (event : EmailEvent) (row : NotificationDelivery) :
    Decidable (event.Matches R K row) :=
  inferInstanceAs (Decidable (_ ∧ ((_ ∧ _) ∨ ∃ h ∈ row.destinationHash, _)))

/-- The transaction of `processEmailProviderEvent`. -/
def OutboxState.processEmailProviderEvent (R : Runtime) (K : Keyring) (s : OutboxState)
    (event : EmailEvent) : OutboxState :=
  let destinationHash := hashMetadata R K (normalizeEmail R event.destination)
  let deliveries := s.deliveries.updateAll (fun _ row => event.Matches R K row) fun _ row =>
    { row with
      status := event.type.status
      provider := some event.provider
      deliveredAt := if event.type = .delivered then some s.now else none }
  let suppression (reason : EmailSuppressionReason) : Table MetadataHash EmailSuppression :=
    s.suppressions.set destinationHash
      { reason := reason, provider := event.provider, providerEventId := event.id }
  { s with
    deliveries := deliveries
    suppressions :=
      match event.type with
      | .delivered => s.suppressions
      | .bounce => suppression .bounce
      | .complaint => suppression .complaint }

end BackendFoundation.Outbox.Model
