import BackendFoundation.Errors
import BackendFoundation.Lib.Calls
import BackendFoundation.Lib.Interleave
import BackendFoundation.Stripe.WebhookModel

/-! # Workers that process stored events

The objects of Stripe change, and each change is reported by events, which are stored. Workers
process stored events beside each other, any event any number of times: a worker reads the event,
retrieves the current object, and then projects it in one transaction. A transaction takes the
advisory lock of its object and locks each row that it writes, so it is one step.

Each object is numbered by its changes. The numbers that an event and a worker carry, and the list
of the objects projected so far, are for the proofs; no program reads them. -/

namespace BackendFoundation.Stripe.WebhookWorkers

open Lib Lib.Interleave Errors Stripe.Objects Stripe.WebhookModel

variable {EventId : Type*}

/-- An object of Stripe, after some number of changes. -/
structure StripeObject where
  version : ℕ
  value : StripeValue

/-- The kind and the id of an object. -/
abbrev Subject := Resource × String

/-- The object that is retrieved for an event. -/
def subject (stored : StripeWebhookEvent EventId) : Option Subject :=
  match stored.type.resource, stringValue (stored.object.get "id") with
  | some resource, some id => some (resource, id)
  | _, _ => none

/-- A row of `stripe_webhook_events`. -/
structure StoredEvent (EventId : Type*) where
  event : StripeWebhookEvent EventId
  /-- The change that the event reports. -/
  version : ℕ
  processed : Bool := false

structure Projection where
  subject : Subject
  type : EventType
  object : StripeValue

structure WebhookState (EventId : Type*) where
  objects : Table Subject StripeObject := Table.empty
  events : List (StoredEvent EventId) := []
  rows : BillingRows EventId := {}
  projections : List Projection := []
  now : ℤ := 0

/-- Stripe, for a call of the client. -/
def WebhookState.client (s : WebhookState EventId) : StripeClient := fun resource id =>
  ((s.objects (resource, id)).map (·.value)).getD .null

/-- What a worker has retrieved: the object, whether it is the current one, and its number. -/
structure Retrieved where
  object : StripeValue
  authoritative : Bool
  version : ℕ

inductive WorkerPc (EventId : Type*)
  | findUnique
  | retrieve (stored : StripeWebhookEvent EventId)
  | retrieveSaved (stored : StripeWebhookEvent EventId) (current : Retrieved)
      (savedPaymentMethodId : String)
  | transaction (stored : StripeWebhookEvent EventId) (current : Retrieved)
      (savedPaymentMethod : Option StripeValue) (attempt : ℕ)
  | processed
  | thrown (e : Thrown)

/-- A call of `processStoredStripeEvent`. -/
structure Worker (EventId : Type*) where
  webhookEventId : ℕ
  pc : WorkerPc EventId

/-- The error with which the client answers for an object that does not exist. -/
def resourceMissing : Thrown := .error "resource_missing"

/-- The loop makes two attempts, the second one after a violated unique index. -/
def retried (stored : StripeWebhookEvent EventId) (current : Retrieved)
    (savedPaymentMethod : Option StripeValue) (attempt : ℕ) : Thrown → WorkerPc EventId
  | .prisma "P2002" message =>
    if attempt = 1 then .thrown (.prisma "P2002" message)
    else .transaction stored current savedPaymentMethod (attempt + 1)
  | e => .thrown e

section Program

variable [LinearOrder EventId]

/-- The state after the transaction of a worker has been committed. -/
def WebhookState.project (s : WebhookState EventId) (directory : Directory) (webhookEventId : ℕ)
    (stored : StripeWebhookEvent EventId) (current : Retrieved)
    (savedPaymentMethod : Option StripeValue) : WebhookState EventId :=
  { s with
    rows := projectObject directory s.now s.rows stored.type current.object savedPaymentMethod
      (stored.cursor current.authoritative)
    events := s.events.modify webhookEventId fun e => { e with processed := true }
    projections :=
      ((subject stored).map fun x => ⟨x, stored.type, current.object⟩).toList ++ s.projections }

def workerStep (directory : Directory) (s : WebhookState EventId) (webhookEventId : ℕ)
    (pc : WorkerPc EventId) (o : Outcome Thrown) :
    Option (WebhookState EventId × WorkerPc EventId) :=
  match pc with
  | .findUnique =>
    let next : WorkerPc EventId :=
      match s.events[webhookEventId]? with
      | some e => .retrieve e.event
      | none => .thrown (.error "Stripe webhook event not found")
    some (o.read s next .thrown)
  | .retrieve stored =>
    let next : WorkerPc EventId :=
      match subject stored, (subject stored).bind s.objects with
      | some _, none => .thrown resourceMissing
      | _, object =>
        let current := retrieveCurrentStripeObject stored.type stored.object (some s.client)
        let retrieved : Retrieved :=
          ⟨current.1, current.2, (object.map (·.version)).getD 0⟩
        match savedPaymentMethodId stored.type current.1 with
        | some id => .retrieveSaved stored retrieved id
        | none => .transaction stored retrieved none 0
    some (o.read s next .thrown)
  | .retrieveSaved stored current id =>
    let next : WorkerPc EventId :=
      match s.objects (.paymentMethod, id) with
      | none => .thrown resourceMissing
      | some object => .transaction stored current (some object.value) 0
    some (o.read s next .thrown)
  | .transaction stored current savedPaymentMethod attempt =>
    some (o.run s (s.project directory webhookEventId stored current savedPaymentMethod) .processed
      (retried stored current savedPaymentMethod attempt))
  | .processed | .thrown _ => none

inductive StripeEvent (EventId : Type*)
  | tick (ms : ℕ)
  /-- An object is created or changes. -/
  | change (x : Subject) (value : StripeValue)
  /-- `verifyAndStoreStripeEvent` stores an event about a change that has happened. -/
  | store (event : StripeWebhookEvent EventId) (version : ℕ)

/-- The event names its object, which has changed this often. -/
def Reports (s : WebhookState EventId) (event : StripeWebhookEvent EventId) (version : ℕ) : Prop :=
  (stringValue (event.object.get "id")).isSome = true ∧
    ∀ x ∈ subject event, ∃ object ∈ s.objects x, version ≤ object.version

instance (s : WebhookState EventId) (event : StripeWebhookEvent EventId) (version : ℕ) :
    Decidable (Reports s event version) :=
  inferInstanceAs (Decidable (_ ∧ _))

def stripe (s : WebhookState EventId) : StripeEvent EventId → Option (WebhookState EventId)
  | .tick ms => some { s with now := s.now + ms }
  | .change x value =>
    if stringValue (value.get "id") = some x.2 then
      let version := ((s.objects x).map (·.version + 1)).getD 1
      some { s with objects := s.objects.set x ⟨version, value⟩ }
    else none
  | .store event version =>
    if Reports s event version then some { s with events := s.events ++ [⟨event, version, false⟩] }
    else none

/-- **The workers**, any number of calls for any events beside each other, with the chargeable items
that there are. -/
def workers (directory : Directory) (chargeableItems : Table String ChargeableItem) :
    Program (WebhookState EventId) (Worker EventId) ℕ (Outcome Thrown) (StripeEvent EventId) where
  init := { rows := { chargeableItems } }
  spawn s _ webhookEventId := some (s, ⟨webhookEventId, .findUnique⟩)
  step s _ worker o :=
    (workerStep directory s worker.webhookEventId worker.pc o).map fun r =>
      (r.1, ⟨worker.webhookEventId, r.2⟩)
  env := stripe

abbrev WorkersWorld (EventId : Type*) := World (WebhookState EventId) (Worker EventId)

abbrev WorkersLabel (EventId : Type*) := Label ℕ (Outcome Thrown) (StripeEvent EventId)

end Program

end BackendFoundation.Stripe.WebhookWorkers
