import BackendFoundation.Lib.Interleave
import BackendFoundation.Outbox.Model
import Mathlib.Data.List.Infix

/-! # The outbox programs, one atomic step at a time

Each asynchronous function of the relay, the worker and the redrive is a set of program points, one
for each `await`, and a step function that takes the program from one point to the next. A step
sends one statement, so the points are where other processes and crashes come in between. The
choice of a step says how its statement is answered, which rows a claim locks, which of the
concurrent tasks of a relay goes on and what a provider answers.

A worker run is one run of a job: it reports to the queue when its processor returns or throws.
Where the queue then reports a failed job, the run goes on as the failed handler
`reconcileExhaustedJob`. -/

namespace BackendFoundation.Outbox.Programs

open Lib Lib.Interleave Errors Crypto Outbox.Model

/-- What a deployment of the worker is configured with. -/
structure Config where
  runtime : Runtime
  keyring : Keyring
  dependencies : Option WorkerRuntimeDependencies := some ⟨true⟩
  /-- `maxStalledCount` of the queue's workers, which the source leaves at its default. -/
  maxStalledCount : ℕ := 1

/-- What the surroundings of a process choose for its next step. -/
structure Choice where
  outcome : Outcome Thrown := .ok
  /-- The rows a claim locks. -/
  ids : List Uuid := []
  /-- The task of a relay that goes on. -/
  task : ℕ := 0
  provider : Except Thrown ProviderDeliveryResult := .ok ⟨.sent, "smtp", none, none⟩

/-! ### The relay -/

inductive EnqueuePc
  | addJob
  | markEnqueued
  | releaseClaim (error : Thrown)
  | enqueued
  | rejected (error : Thrown)

/-- One `enqueueClaimedEvent` of a relay run. -/
structure EnqueueTask where
  id : Uuid
  event : OutboxEvent
  pc : EnqueuePc

inductive RelayPc
  /-- `claimOutboxBatch` has read the clock. -/
  | claim (now batchSize : ℕ)
  | enqueue (tasks : List EnqueueTask)
  | failed (error : Thrown)

def EnqueueTask.jobId (t : EnqueueTask) : JobId := ⟨t.id, t.event.deliveryGeneration⟩

/-- `enqueueClaimedEvent`. -/
def enqueueClaimedEvent (s : OutboxState) (t : EnqueueTask) (c : Choice) :
    Option (OutboxState × EnqueueTask) :=
  match t.pc with
  | .addJob =>
    if t.event.claimToken.isNone then
      some (s, { t with
        pc := .rejected (.error ("Outbox event " ++ t.id ++ " is missing its claim token")) })
    else
      some (c.outcome.run s
        { s with
          queue := s.queue.add t.jobId ⟨t.id, some t.event.deliveryGeneration⟩
            (some OUTBOX_MAX_DELIVERY_ATTEMPTS) }
        { t with pc := .markEnqueued } fun e => { t with pc := .releaseClaim e })
  | .markEnqueued =>
    some (c.outcome.run s (s.markEnqueued t.id t.event.claimToken)
      { t with pc := .enqueued } fun e => { t with pc := .releaseClaim e })
  | .releaseClaim error =>
    some (c.outcome.run s (s.releaseClaimAfterEnqueueFailure t.id t.event.claimToken error)
      { t with pc := .rejected error } fun e => { t with pc := .rejected e })
  | .enqueued => none
  | .rejected _ => none

/-- The rows the claim of `ids` returns. -/
def claimedTasks (s : OutboxState) (now claimToken : ℕ) (ids : List Uuid) : List EnqueueTask :=
  ids.filterMap fun id => (s.events id).map fun row => ⟨id, row.claim now claimToken, .addJob⟩

/-- `claimOutboxBatch`, then `relayOutboxBatch` with all its tasks under way at once. -/
def relayStep (s : OutboxState) (pid : ℕ) (pc : RelayPc) (c : Choice) :
    Option (OutboxState × RelayPc) :=
  match pc with
  | .claim now batchSize =>
    if c.ids.Nodup ∧ c.ids.length ≤ batchSize ∧
        ∀ id ∈ c.ids, (s.events id).any (fun row => row.Claimable now) = true then
      some (c.outcome.run s (s.claimRows now pid c.ids)
        (.enqueue (claimedTasks s now pid c.ids)) .failed)
    else none
  | .enqueue tasks =>
    match tasks[c.task]? with
    | some t => (enqueueClaimedEvent s t c).map fun r => (r.1, .enqueue (tasks.set c.task r.2))
    | none => none
  | .failed _ => none

/-! ### The worker -/

inductive WorkerPc
  | findEvent
  | expire (event : OutboxEvent)
  | start (event : OutboxEvent)
  | findDelivery (event : OutboxEvent)
  | upsertDelivery (event : OutboxEvent)
  | finishRecorded (event : OutboxEvent)
  | rateLimit (event : OutboxEvent)
  | callProvider (event : OutboxEvent)
  | recordResult (event : OutboxEvent) (delivery : ProviderDeliveryResult)
  | deliver (event : OutboxEvent)
  | recordError (event : OutboxEvent) (error : Thrown)
  | recordFailure (event : OutboxEvent) (error : Thrown)
  | returned
  | thrown (error : Thrown)

/-- The early returns of `processNotification` and `reconcileExhaustedJob`. -/
def OutboxEvent.Settled (event : OutboxEvent) (generation : ℕ) : Prop :=
  event.deletedAt ≠ none ∨ event.status = .delivered ∨ event.status = .deadLetter ∨
    event.deliveryGeneration ≠ generation

instance (event : OutboxEvent) (generation : ℕ) : Decidable (OutboxEvent.Settled event generation) :=
  inferInstanceAs (Decidable (_ ∨ _ ∨ _ ∨ _))

/-- The branch of `processNotification` on the channel. -/
def sendPc (event : OutboxEvent) : WorkerPc :=
  match event.channel with
  | .email => .rateLimit event
  | .sms => .rateLimit event
  | .push => .callProvider event
  | .internal => .callProvider event

/-- The call of the provider or of the internal handler. -/
def callProvider (cfg : Config) (s : OutboxState) (id : Uuid) (event : OutboxEvent) (c : Choice) :
    OutboxState × WorkerPc :=
  match event.channel with
  | .internal =>
    match internalHandler cfg.dependencies event with
    | .error e => (s.logCall id .internal none, .recordError event e)
    | .ok none =>
      match c.outcome with
      | .ok => (s.logCall id .internal (some .sent), .recordResult event ⟨.sent, "internal", none, none⟩)
      | .failed e => (s.logCall id .internal none, .recordError event e)
      | .lost e => (s.logCall id .internal none, .recordError event e)
    | .ok (some webhookEventId) =>
      let started := s.updateStripeWebhookEvent webhookEventId fun row =>
        { row with status := .processing, lastError := none }
      match c.outcome with
      | .ok =>
        if (s.stripeWebhookEvents webhookEventId).any (fun row => row.deletedAt = none) then
          (started.logCall id .internal (some .sent),
            .recordResult event ⟨.sent, "internal", none, none⟩)
        else
          (s.logCall id .internal none, .recordError event (.error "Record to update not found"))
      | .failed e => (s.logCall id .internal none, .recordError event e)
      | .lost e => (started.logCall id .internal none, .recordError event e)
  | channel =>
    match c.provider with
    | .ok delivery => (s.logCall id channel (some delivery.status), .recordResult event delivery)
    | .error e => (s.logCall id channel none, .recordError event e)

/-- `processNotification` on the job `job`. -/
def processNotification (cfg : Config) (s : OutboxState) (job : Job NotificationJobData)
    (pc : WorkerPc) (c : Choice) : Option (OutboxState × WorkerPc) :=
  let id := job.data.outboxId
  let generation := job.data.deliveryGeneration
  match pc with
  | .findEvent =>
    some (c.outcome.read s
      (match s.findEvent id with
        | none => .returned
        | some event =>
          if OutboxEvent.Settled event generation then .returned
          else if event.Expired s.now then .expire event
          else .start event)
      .thrown)
  | .expire _ => some (c.outcome.run s (s.expireEvent id generation).1 .returned .thrown)
  | .start event =>
    let started := s.startEvent id generation
    some (c.outcome.run s started.1
      (if started.2 ≠ 1 then .returned else .findDelivery event) .thrown)
  | .findDelivery event =>
    some (c.outcome.read s
      (if (s.findDelivery id).any (fun row => row.status.Recorded) then .finishRecorded event
        else .upsertDelivery event)
      .thrown)
  | .upsertDelivery event =>
    some (c.outcome.run s (s.upsertDelivery cfg.runtime cfg.keyring id event) (sendPc event) .thrown)
  | .finishRecorded _ =>
    some (c.outcome.run s (s.deliverEvent id generation).1 .returned .thrown)
  | .rateLimit event => some (c.outcome.read s (.callProvider event) (.recordError event))
  | .callProvider event => some (callProvider cfg s id event c)
  | .recordResult event delivery =>
    let recorded := s.recordDeliveryResult id delivery
    some (c.outcome.run s recorded.1
      (if recorded.2 ≠ 1 then .recordError event (.error "Record to update not found")
        else .deliver event)
      (.recordError event))
  | .deliver event =>
    let delivered := s.deliverEvent id generation
    some (c.outcome.run s delivered.1
      (if delivered.2 ≠ 1 then
        .recordError event (.error "Outbox delivery state changed unexpectedly")
        else .returned)
      (.recordError event))
  | .recordError event error =>
    some (c.outcome.run s (s.recordDeliveryError id error) (.recordFailure event error) .thrown)
  | .recordFailure event error =>
    some (c.outcome.run s
      (s.recordDeliveryFailure id event generation error
        (deliveryFailureDisposition job.attemptsMade job.attempts))
      (.thrown error) .thrown)
  | .returned => none
  | .thrown _ => none

/-! ### The failed handler -/

inductive ReconcilePc
  | findEvent
  | recordFailure (event : OutboxEvent)
  | done

/-- `/stalled more than/i.test(message)`. -/
def stalledMoreThan (message : String) : Prop :=
  "stalled more than".toList <:+: message.toList.map Char.toLower

instance (message : String) : Decidable (stalledMoreThan message) :=
  inferInstanceAs (Decidable (_ <:+: _))

/-- `reconcileExhaustedJob` on a job that failed with `error`. -/
structure Reconcile where
  job : Job NotificationJobData
  error : Thrown
  pc : ReconcilePc := .findEvent

def Reconcile.exhaustedStalls (r : Reconcile) : Prop :=
  match r.error with
  | .app e => stalledMoreThan e.message
  | .prisma _ message => stalledMoreThan message
  | .error message => stalledMoreThan message
  | .value => False

instance (r : Reconcile) : Decidable r.exhaustedStalls := by
  unfold Reconcile.exhaustedStalls
  split <;> infer_instance

/-- The handler goes past its first check. -/
def Reconcile.Exhausted (r : Reconcile) : Prop :=
  max 1 (r.job.attempts.getD 1) ≤ r.job.attemptsMade ∨ r.exhaustedStalls

instance (r : Reconcile) : Decidable r.Exhausted := inferInstanceAs (Decidable (_ ∨ _))

def reconcileExhaustedJob (s : OutboxState) (r : Reconcile) (c : Choice) :
    Option (OutboxState × Reconcile) :=
  let id := r.job.data.outboxId
  let generation := r.job.data.deliveryGeneration
  match r.pc with
  | .findEvent =>
    if r.Exhausted then
      some (c.outcome.read s
        { r with
          pc := match s.findEvent id with
            | none => .done
            | some event =>
              if OutboxEvent.Settled event generation then .done else .recordFailure event }
        fun _ => { r with pc := .done })
    else some (s, { r with pc := .done })
  | .recordFailure event =>
    some (c.outcome.run s (s.recordDeliveryFailure id event generation r.error .deadLetter)
      { r with pc := .done } fun _ => { r with pc := .done })
  | .done => none

/-! ### The redrive -/

/-- What `redriveDeadLetterEvent` selects of the row. -/
structure DeadLetterSelect where
  status : OutboxStatus
  deliveryGeneration : ℕ
  expiresAt : Option ℕ

inductive RedrivePc
  | find (id : Uuid) (actorUserId : String)
  /-- The checks passed on the row that was read, at `checkedAt`, the clock of that statement. -/
  | reset (id : Uuid) (actorUserId : String) (existing : DeadLetterSelect) (checkedAt : ℕ)
  /-- The call returned; `previousGeneration` is what its audit event says. -/
  | succeeded (id : Uuid) (previousGeneration : ℕ)
  | failed (error : Thrown)

/-- The reset of `redriveDeadLetterEvent` with its audit event. -/
def redriveReset (s : OutboxState) (id : Uuid) (actorUserId : String) (generation : ℕ) :
    OutboxState :=
  { (s.resetDeadLetter id generation).1 with
    auditEvents := s.auditEvents ++
      [⟨actorUserId, "outbox.dead_letter.redriven", "outbox_event", id, generation⟩] }

/-- `redriveDeadLetterEvent`, one transaction under read committed: the row is read and checked,
then reset under a condition; an error rolls the transaction back. -/
def redriveStep (s : OutboxState) (pc : RedrivePc) (c : Choice) : Option (OutboxState × RedrivePc) :=
  match pc with
  | .find id actorUserId =>
    some (c.outcome.read s
      (match s.findEvent id with
        | none => .failed (.app (notFound "Outbox event not found"))
        | some row =>
          if row.status ≠ .deadLetter then
            .failed (.app (conflict "Only dead-lettered outbox events can be redriven"))
          else if row.Expired s.now then
            .failed (.app (conflict "Expired outbox events cannot be redriven"))
          else .reset id actorUserId ⟨row.status, row.deliveryGeneration, row.expiresAt⟩ s.now)
      .failed)
  | .reset id actorUserId existing _ =>
    if (s.resetDeadLetter id existing.deliveryGeneration).2 ≠ 1 then
      some (s, .failed (.app (conflict "Outbox event state changed; retry the request")))
    else
      some (c.outcome.run s (redriveReset s id actorUserId existing.deliveryGeneration)
        (.succeeded id existing.deliveryGeneration) .failed)
  | .succeeded _ _ => none
  | .failed _ => none

/-! ### The system -/

inductive Proc
  | relay (pc : RelayPc)
  | worker (jobId : JobId) (job : Job NotificationJobData) (pc : WorkerPc)
  | reconcile (jobId : JobId) (r : Reconcile)
  | redrive (pc : RedrivePc)
  /-- The run of a job is over. -/
  | finished

inductive Start
  | relay (batchSize : ℕ)
  /-- A worker takes a waiting job. -/
  | work (jobId : JobId)
  /-- The queue fails a job that stalled once more than allowed and runs the failed handler. -/
  | stallOut (jobId : JobId)
  | redrive (id : Uuid) (actorUserId : String)

inductive Event
  | tick (ms : ℕ)
  | addOutboxEvent (id : Uuid) (input : OutboxInput)
  | storeStripeEvent (id stored : Uuid) (type : String)
  | emailProviderEvent (event : EmailEvent)
  /-- The lock of an active job lapsed, because its worker died or is slow. -/
  | stall (jobId : JobId)
  /-- The queue no longer keeps a finished job. -/
  | removeJob (jobId : JobId)

/-- The processor of a worker run answered, and the queue records it. -/
def settleJob (s : OutboxState) (pid : ℕ) (jobId : JobId) (pc : WorkerPc) :
    Option (OutboxState × Proc) :=
  match pc with
  | .returned => some ({ s with queue := s.queue.complete jobId pid }, .finished)
  | .thrown error =>
    let failed := s.queue.fail jobId pid
    some ({ s with queue := failed.1 },
      match failed.2 with
      | some job => .reconcile jobId ⟨job, error, .findEvent⟩
      | none => .finished)
  | _ => none

def step (cfg : Config) (s : OutboxState) (pid : ℕ) (p : Proc) (c : Choice) :
    Option (OutboxState × Proc) :=
  match p with
  | .relay pc => (relayStep s pid pc c).map fun r => (r.1, .relay r.2)
  | .worker jobId job pc =>
    match processNotification cfg s job pc c with
    | some r => some (r.1, .worker jobId job r.2)
    | none => settleJob s pid jobId pc
  | .reconcile jobId r => (reconcileExhaustedJob s r c).map fun r => (r.1, .reconcile jobId r.2)
  | .redrive pc => (redriveStep s pc c).map fun r => (r.1, .redrive r.2)
  | .finished => none

def start (cfg : Config) (s : OutboxState) (pid : ℕ) : Start → Option (OutboxState × Proc)
  | .relay batchSize => some (s, .relay (.claim s.now batchSize))
  | .work jobId =>
    (s.queue.take jobId pid).map fun r => ({ s with queue := r.1 }, .worker jobId r.2 .findEvent)
  | .stallOut jobId =>
    (s.queue.stallOut cfg.maxStalledCount jobId).map fun r =>
      ({ s with queue := r.1 },
        .reconcile jobId ⟨r.2, .error "job stalled more than allowable limit", .findEvent⟩)
  | .redrive id actorUserId => some (s, .redrive (.find id actorUserId))

def event (cfg : Config) (s : OutboxState) : Event → Option OutboxState
  | .tick ms => some { s with now := s.now + ms }
  | .addOutboxEvent id input => s.addOutboxEvent id input
  | .storeStripeEvent id stored type => s.storeStripeEvent id stored type
  | .emailProviderEvent e =>
    some (s.processEmailProviderEvent cfg.runtime cfg.keyring e)
  | .stall jobId =>
    (s.queue.stall cfg.maxStalledCount jobId).map fun q => { s with queue := q }
  | .removeJob jobId => (s.queue.remove jobId).map fun q => { s with queue := q }

/-- **The outbox system.** -/
def outbox (cfg : Config) : Program OutboxState Proc Start Choice Event where
  init := {}
  spawn := start cfg
  step := step cfg
  env := event cfg

abbrev OutboxWorld := World OutboxState Proc

abbrev OutboxLabel := Label Start Choice Event

/-! ### A concrete deployment -/

def exampleConfig : Config where
  runtime := ⟨fun keyId value => keyId ++ ":" ++ value, fun value => value, id, id⟩
  keyring := exampleKeyring

/-- The event `e1` is added, claimed and enqueued by the relay run 0, and the worker run 1 takes
its job and reads the row. -/
def enqueueAndTake : List OutboxLabel :=
  [.env (.addOutboxEvent "e1" { eventType := "auth.otp", channel := .email }),
    .spawn (.relay OUTBOX_BATCH_SIZE), .step 0 { ids := ["e1"] }, .step 0 {}, .step 0 {},
    .spawn (.work ⟨"e1", 0⟩), .step 1 {}]

end BackendFoundation.Outbox.Programs
