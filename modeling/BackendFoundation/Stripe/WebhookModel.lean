import BackendFoundation.Lib.Table
import BackendFoundation.Stripe.ChargeModel
import BackendFoundation.Stripe.Objects
import Mathlib.Logic.Embedding.Basic
import Mathlib.Order.Defs.LinearOrder
import Mathlib.Order.Lattice

/-! # Webhook projections

`processStoredStripeEvent` of `stripe.webhooks.service.ts`: a stored event is processed by retrieving
the current object from Stripe and projecting it onto the local rows in one transaction, under the
advisory lock of the object. `upsertPayment`, `projectChargeableItem`, `projectSubscription` and
`projectAttachedPaymentMethod` are the projections; `updateMany` of the client sees only rows that are
not soft-deleted, `upsert` sees them all.

The type of an event is split after its known prefix: `payment_intent.succeeded` is
`.paymentIntent "succeeded"`. The ids of events are ordered as the database orders their texts.
`currentPeriodStart` and the other dates are in milliseconds. -/

namespace BackendFoundation.Stripe.WebhookModel

open Lib Stripe.Objects
open Stripe.ChargeModel (ChargeableStatus)

/-! ### Rows -/

structure StripePayment (EventId : Type*) where
  userId : String
  organizationId : Option String
  checkoutSessionId : Option String := none
  chargeId : Option String := none
  status : String
  amount : Option ℤ := none
  amountRefunded : ℤ := 0
  currency : Option String := none
  lastStripeEventId : Option EventId := none
  lastStripeEventCreatedAt : Option ℤ := none
  deletedAt : Option ℤ := none
deriving DecidableEq

structure StripeSubscription (EventId : Type*) where
  userId : String
  organizationId : Option String
  status : String
  priceId : Option String := none
  currency : Option String := none
  currentPeriodStart : Option ℤ := none
  currentPeriodEnd : Option ℤ := none
  cancelAtPeriodEnd : Bool := false
  canceledAt : Option ℤ := none
  lastStripeEventId : Option EventId := none
  lastStripeEventCreatedAt : Option ℤ := none
  deletedAt : Option ℤ := none
deriving DecidableEq

structure PaymentMethod where
  userId : String
  organizationId : Option String
  type : String
  brand : Option String := none
  last4 : Option String := none
  expMonth : Option ℤ := none
  expYear : Option ℤ := none
  fingerprint : Option String := none
  isDefault : Bool := false
  detachedAt : Option ℤ := none
  deletedAt : Option ℤ := none
deriving DecidableEq

structure ChargeableItem where
  status : ChargeableStatus
  reservationKeyHash : Option String := none
  reservedAt : Option ℤ := none
  consumedAt : Option ℤ := none
  paymentIntentId : Option String := none
  deletedAt : Option ℤ := none
deriving DecidableEq

/-- The rows that the projections write, by their ids at Stripe, and the chargeable items. -/
structure BillingRows (EventId : Type*) where
  payments : Table String (StripePayment EventId) := Table.empty
  subscriptions : Table String (StripeSubscription EventId) := Table.empty
  paymentMethods : Table String PaymentMethod := Table.empty
  chargeableItems : Table String ChargeableItem := Table.empty

/-! ### Events -/

inductive EventType
  | paymentIntent (name : String)
  | checkoutSession (name : String)
  | charge (name : String)
  /-- `customer.subscription.…`. -/
  | subscription (name : String)
  | setupIntent (name : String)
  | paymentMethod (name : String)
  /-- Another event of a customer. -/
  | customer (name : String)
  | other (text : String)
deriving DecidableEq

structure StripeProjectionCursor (EventId : Type*) where
  eventId : EventId
  createdAt : ℤ
  authoritative : Bool := false
deriving DecidableEq

structure StripeWebhookEvent (EventId : Type*) where
  stripeEventId : EventId
  stripeCreatedAt : ℤ
  type : EventType
  /-- The object of the payload. -/
  object : StripeValue

/-- The kinds of objects that are retrieved. -/
inductive Resource
  | subscription | paymentIntent | charge | checkoutSession | setupIntent | paymentMethod | customer
deriving DecidableEq

/-- What Stripe returns for the id of an object. -/
abbrev StripeClient := Resource → String → StripeValue

def EventType.resource : EventType → Option Resource
  | .subscription _ => some .subscription
  | .paymentIntent _ => some .paymentIntent
  | .charge "refunded" => some .charge
  | .checkoutSession "completed" => some .checkoutSession
  | .setupIntent _ => some .setupIntent
  | .paymentMethod _ => some .paymentMethod
  | .customer "updated" => some .customer
  | _ => none

/-- The object, and whether it is Stripe's current one. -/
def retrieveCurrentStripeObject (type : EventType) (object : StripeValue)
    (stripeClient : Option StripeClient) : StripeValue × Bool :=
  match stripeClient, stringValue (object.get "id"), type.resource with
  | some client, some id, some resource => (client resource id, true)
  | _, _, _ => (object, false)

def isOffSession (object : StripeValue) : Bool :=
  match object.get "setup_future_usage" with
  | some (.string "off_session") => true
  | _ => false

def savedPaymentMethodId (type : EventType) (object : StripeValue) : Option String :=
  if type = .setupIntent "succeeded" ∨
      (type = .paymentIntent "succeeded" ∧ isOffSession object = true) then
    referenceId (object.get "payment_method")
  else none

/-- `savedPaymentMethod`, as Stripe has it. -/
def retrieveSavedPaymentMethod (savedPaymentMethodId : Option String)
    (stripeClient : Option StripeClient) : Option StripeValue :=
  match savedPaymentMethodId, stripeClient with
  | some id, some client => some (client .paymentMethod id)
  | _, _ => none

/-! ### Projections -/

section Projections

variable {EventId : Type*} [LinearOrder EventId]

/-- The condition on `lastStripeEventCreatedAt` and `lastStripeEventId` under which a projection that
is not authoritative writes. -/
def older (lastStripeEventCreatedAt : Option ℤ) (lastStripeEventId : Option EventId)
    (cursor : StripeProjectionCursor EventId) : Bool :=
  match lastStripeEventCreatedAt with
  | none => true
  | some createdAt =>
    createdAt < cursor.createdAt ∨
      (createdAt = cursor.createdAt ∧ lastStripeEventId.any (· < cursor.eventId))

structure PaymentInput where
  paymentIntentId : String
  checkoutSessionId : Option String := none
  chargeId : Option String := none
  status : String
  amount : Option ℤ := none
  amountRefunded : Option ℤ := none
  currency : Option String := none
deriving DecidableEq

/-- The `create` of `upsertPayment`. -/
def PaymentInput.created (input : PaymentInput) (attribution : StripeAttribution)
    (cursor : StripeProjectionCursor EventId) : StripePayment EventId where
  userId := attribution.userId
  organizationId := attribution.organizationId
  checkoutSessionId := input.checkoutSessionId
  chargeId := input.chargeId
  status := input.status
  amount := input.amount
  amountRefunded := input.amountRefunded.getD 0
  currency := input.currency
  lastStripeEventId := some cursor.eventId
  lastStripeEventCreatedAt := some cursor.createdAt

/-- The row that `upsert` leaves. -/
def upsertPaymentRow (attribution : StripeAttribution) (input : PaymentInput)
    (cursor : StripeProjectionCursor EventId) :
    Option (StripePayment EventId) → StripePayment EventId
  | none => input.created attribution cursor
  | some payment =>
    { payment with
      checkoutSessionId := input.checkoutSessionId <|> payment.checkoutSessionId
      userId := attribution.userId
      organizationId := attribution.organizationId }

/-- The `updateMany` of `upsertPayment`; a value that the input lacks is left as it is. -/
def updatePaymentRow (input : PaymentInput) (cursor : StripeProjectionCursor EventId)
    (payment : StripePayment EventId) : StripePayment EventId :=
  if payment.deletedAt = none ∧ (cursor.authoritative = true ∨
      older payment.lastStripeEventCreatedAt payment.lastStripeEventId cursor = true) then
    { payment with
      chargeId := input.chargeId <|> payment.chargeId
      status := input.status
      amount := input.amount <|> payment.amount
      amountRefunded := input.amountRefunded.getD payment.amountRefunded
      currency := input.currency <|> payment.currency
      lastStripeEventId := some cursor.eventId
      lastStripeEventCreatedAt := some cursor.createdAt }
  else payment

def upsertPayment (payments : Table String (StripePayment EventId))
    (attribution : StripeAttribution) (input : PaymentInput)
    (cursor : StripeProjectionCursor EventId) : Table String (StripePayment EventId) :=
  payments.set input.paymentIntentId
    (updatePaymentRow input cursor
      (upsertPaymentRow attribution input cursor (payments input.paymentIntentId)))

/-- The input of `upsertPayment` for an event, if it projects a payment. -/
def paymentInput (type : EventType) (object : StripeValue) : Option PaymentInput :=
  match type with
  | .paymentIntent _ | .checkoutSession "completed" =>
    let isSession := type = .checkoutSession "completed"
    (if isSession then referenceId (object.get "payment_intent")
      else stringValue (object.get "id")).map fun paymentIntentId =>
      { paymentIntentId
        checkoutSessionId := if isSession then stringValue (object.get "id") else none
        chargeId := referenceId (object.get "latest_charge")
        status :=
          (stringValue (object.get "payment_status") <|> stringValue (object.get "status")).getD
            "unknown"
        amount :=
          numberValue (object.get "amount_received") <|> numberValue (object.get "amount_total") <|>
            numberValue (object.get "amount")
        currency := stringValue (object.get "currency") }
  | .charge "refunded" =>
    (referenceId (object.get "payment_intent")).map fun paymentIntentId =>
      { paymentIntentId
        chargeId := stringValue (object.get "id")
        status := "refunded"
        amountRefunded := numberValue (object.get "amount_refunded")
        amount := numberValue (object.get "amount")
        currency := stringValue (object.get "currency") }
  | _ => none

/-- The condition under which a projection of the intent may write the reserved item. -/
def ChargeableItem.HeldFor (reservationKeyHash paymentIntentId : String)
    (statuses : List ChargeableStatus) (item : ChargeableItem) : Prop :=
  item.deletedAt = none ∧ item.reservationKeyHash = some reservationKeyHash ∧
    item.status ∈ statuses ∧
    (item.paymentIntentId = none ∨ item.paymentIntentId = some paymentIntentId)

instance (reservationKeyHash paymentIntentId : String) (statuses : List ChargeableStatus) :
    DecidablePred (ChargeableItem.HeldFor reservationKeyHash paymentIntentId statuses) :=
  fun _ => inferInstanceAs (Decidable (_ ∧ _ ∧ _ ∧ _))

def projectChargeableItem (items : Table String ChargeableItem) (object : StripeValue) (now : ℤ) :
    Table String ChargeableItem :=
  let metadata := object.get "metadata"
  match stringValue (object.get "id"), nestedString metadata "chargeableItemId",
      nestedString metadata "chargeableReservationKeyHash", stringValue (object.get "status") with
  | some paymentIntentId, some chargeableItemId, some reservationKeyHash, some status =>
    if status = "succeeded" then
      (items.updateWhere chargeableItemId
        (ChargeableItem.HeldFor reservationKeyHash paymentIntentId [.reserved, .consumed])
        fun item =>
          { item with
            paymentIntentId := some paymentIntentId
            status := .consumed
            consumedAt := some now }).1
    else if status = "canceled" then
      (items.updateWhere chargeableItemId
        (ChargeableItem.HeldFor reservationKeyHash paymentIntentId [.reserved])
        fun item =>
          { item with
            status := .opened
            reservationKeyHash := none
            reservedAt := none
            paymentIntentId := none }).1
    else
      (items.updateWhere chargeableItemId
        (ChargeableItem.HeldFor reservationKeyHash paymentIntentId [.reserved])
        fun item => { item with paymentIntentId := some paymentIntentId }).1
  | _, _, _, _ => items

/-- How the database and Stripe spell the hashes and the intents of the charges. -/
structure Spelling where
  hash : Crypto.MetadataHash ↪ String
  intent : ℕ ↪ String

namespace Spelling
variable (spelling : Spelling)

def row (item : ChargeModel.ChargeableItem) : ChargeableItem where
  status := item.status
  reservationKeyHash := item.reservationKeyHash.map spelling.hash
  reservedAt := item.reservedAt.map Int.ofNat
  consumedAt := item.consumedAt.map Int.ofNat
  paymentIntentId := item.paymentIntentId.map spelling.intent
  deletedAt := item.deletedAt.map Int.ofNat

/-- An object with what the projection reads of an intent. -/
structure Shows (object : StripeValue) (intent : ChargeModel.IntentObject) (text : String) :
    Prop where
  id : stringValue (object.get "id") = some (spelling.intent intent.id)
  item : nestedString (object.get "metadata") "chargeableItemId" =
    some intent.metadata.chargeableItemId
  hash : nestedString (object.get "metadata") "chargeableReservationKeyHash" =
    some (spelling.hash intent.metadata.chargeableReservationKeyHash)
  status : stringValue (object.get "status") = some text
  succeeded : text = "succeeded" ↔ intent.status = .succeeded
  canceled : text = "canceled" ↔ intent.status = .canceled

theorem heldFor_iff {hash : Crypto.MetadataHash} {id : ℕ} {statuses : List ChargeableStatus}
    {item : ChargeModel.ChargeableItem} :
    (spelling.row item).HeldFor (spelling.hash hash) (spelling.intent id) statuses ↔
      item.deletedAt = none ∧ item.reservationKeyHash = some hash ∧ item.status ∈ statuses ∧
        (item.paymentIntentId = none ∨ item.paymentIntentId = some id) := by
  have hmap {α : Type} (f : α ↪ String) (o : Option α) (a : α) :
      o.map f = some (f a) ↔ o = some a := (Option.map_injective f.injective).eq_iff' rfl
  simp only [ChargeableItem.HeldFor, row, Option.map_eq_none_iff, hmap]

/-- **The projection** of an intent does to the rows what it does to the items of the charges. -/
theorem projectChargeableItem_row {s : ChargeModel.ChargeState} {items : Table String ChargeableItem}
    {object : StripeValue} {intent : ChargeModel.IntentObject} {text : String}
    (hitems : ∀ id, items id = (s.items id).map spelling.row)
    (hshows : spelling.Shows object intent text) (id : String) :
    projectChargeableItem items object s.now id =
      ((ChargeModel.projectChargeableItem s intent).items id).map spelling.row := by
  have hreserved (item : ChargeModel.ChargeableItem) :
      (spelling.row item).HeldFor (spelling.hash intent.metadata.chargeableReservationKeyHash)
        (spelling.intent intent.id) [.reserved] ↔ item.deletedAt = none ∧
          item.Records intent.metadata.chargeableReservationKeyHash intent.id := by
    rw [heldFor_iff, ChargeModel.ChargeableItem.Records, List.mem_singleton]
    tauto
  unfold projectChargeableItem ChargeModel.projectChargeableItem
  simp only [hshows.id, hshows.item, hshows.hash, hshows.status, hshows.succeeded, hshows.canceled]
  cases intent.status with
  | succeeded =>
    exact Table.updateWhere_map hitems (fun item => by rw [heldFor_iff, List.mem_pair])
      (fun _ => rfl) _ _
  | _ => exact Table.updateWhere_map hitems hreserved (fun _ => rfl) _ _

end Spelling

/-- The `data` of `projectSubscription`, read from the object. -/
structure SubscriptionData where
  status : String
  priceId : Option String
  currency : Option String
  currentPeriodStart : Option ℤ
  currentPeriodEnd : Option ℤ
  cancelAtPeriodEnd : Bool
  canceledAt : Option ℤ
  deletedAt : Option ℤ
deriving DecidableEq

def subscriptionData (object : StripeValue) (createdAt : ℤ) : SubscriptionData where
  status := (stringValue (object.get "status")).getD "unknown"
  priceId := nestedString (property (firstItem object) "price") "id"
  currency := nestedString (property (firstItem object) "price") "currency"
  currentPeriodStart := dateFromUnix (object.get "current_period_start")
  currentPeriodEnd := dateFromUnix (object.get "current_period_end")
  cancelAtPeriodEnd :=
    match object.get "cancel_at_period_end" with
    | some (.bool value) => value
    | _ => false
  canceledAt := dateFromUnix (object.get "canceled_at")
  deletedAt :=
    match object.get "status" with
    | some (.string "canceled") => some createdAt
    | _ => none

/-- The row that `upsert` leaves. -/
def upsertSubscriptionRow (attribution : StripeAttribution) (data : SubscriptionData)
    (cursor : StripeProjectionCursor EventId) :
    Option (StripeSubscription EventId) → StripeSubscription EventId
  | none =>
    { userId := attribution.userId
      organizationId := attribution.organizationId
      status := data.status
      priceId := data.priceId
      currency := data.currency
      currentPeriodStart := data.currentPeriodStart
      currentPeriodEnd := data.currentPeriodEnd
      cancelAtPeriodEnd := data.cancelAtPeriodEnd
      canceledAt := data.canceledAt
      deletedAt := data.deletedAt
      lastStripeEventId := some cursor.eventId
      lastStripeEventCreatedAt := some cursor.createdAt }
  | some subscription =>
    { subscription with
      userId := attribution.userId
      organizationId := attribution.organizationId }

theorem orElse_of_none {α : Type*} {x y : Option α} (h : x = none → y = none) : (x <|> y) = x := by
  cases x with
  | none => simpa using h rfl
  | some x => rfl

/-- The `updateMany` of `projectSubscription`. The client leaves a column untouched whose value is
`undefined`; `deletedAt` is never `undefined`. -/
def updateSubscriptionRow (data : SubscriptionData) (cursor : StripeProjectionCursor EventId)
    (subscription : StripeSubscription EventId) : StripeSubscription EventId :=
  if subscription.deletedAt = none ∧ (cursor.authoritative = true ∨
      older subscription.lastStripeEventCreatedAt subscription.lastStripeEventId cursor = true) then
    { subscription with
      status := data.status
      priceId := data.priceId <|> subscription.priceId
      currency := data.currency <|> subscription.currency
      currentPeriodStart := data.currentPeriodStart <|> subscription.currentPeriodStart
      currentPeriodEnd := data.currentPeriodEnd <|> subscription.currentPeriodEnd
      cancelAtPeriodEnd := data.cancelAtPeriodEnd
      canceledAt := data.canceledAt <|> subscription.canceledAt
      deletedAt := data.deletedAt
      lastStripeEventId := some cursor.eventId
      lastStripeEventCreatedAt := some cursor.createdAt }
  else subscription

def projectSubscription (subscriptions : Table String (StripeSubscription EventId))
    (attribution : StripeAttribution) (object : StripeValue)
    (cursor : StripeProjectionCursor EventId) : Table String (StripeSubscription EventId) :=
  match stringValue (object.get "id") with
  | none => subscriptions
  | some subscriptionId =>
    let data := subscriptionData object cursor.createdAt
    subscriptions.set subscriptionId
      (updateSubscriptionRow data cursor
        (upsertSubscriptionRow attribution data cursor (subscriptions subscriptionId)))

/-- `details` of a card. -/
structure CardDetails where
  type : String
  brand : Option String
  last4 : Option String
  expMonth : Option ℤ
  expYear : Option ℤ
  fingerprint : Option String
deriving DecidableEq

def cardDetails (paymentMethod : StripeValue) : CardDetails :=
  let card := paymentMethod.get "card"
  { type := (stringValue (paymentMethod.get "type")).getD "card"
    brand := nestedString card "brand"
    last4 := nestedString card "last4"
    expMonth := numberValue (property card "exp_month")
    expYear := numberValue (property card "exp_year")
    fingerprint := nestedString card "fingerprint" }

/-- The row that the upsert of `projectAttachedPaymentMethod` leaves. -/
def attachedRow (attribution : StripeAttribution) (details : CardDetails)
    (row : Option PaymentMethod) : PaymentMethod where
  userId := attribution.userId
  organizationId := attribution.organizationId
  type := details.type
  brand := details.brand
  last4 := details.last4
  expMonth := details.expMonth
  expYear := details.expYear
  fingerprint := details.fingerprint
  isDefault := (row.map (·.isDefault)).getD false

def projectAttachedPaymentMethod (methods : Table String PaymentMethod)
    (attribution : StripeAttribution) (paymentMethod : StripeValue) : Table String PaymentMethod :=
  match stringValue (paymentMethod.get "id") with
  | none => methods
  | some id => methods.set id (attachedRow attribution (cardDetails paymentMethod) (methods id))

/-- The branch of `payment_method.detached`. -/
def projectDetached (methods : Table String PaymentMethod) (object : StripeValue) (now : ℤ) :
    Table String PaymentMethod :=
  match stringValue (object.get "id") with
  | none => methods
  | some id =>
    (methods.updateWhere id (fun row => row.detachedAt = none ∧ row.deletedAt = none)
      fun row =>
        { row with detachedAt := some now, deletedAt := some now, isDefault := false }).1

/-- The branch of `payment_method.updated` and `payment_method.automatically_updated`. -/
def projectUpdated (methods : Table String PaymentMethod) (object : StripeValue) :
    Table String PaymentMethod :=
  match stringValue (object.get "id") with
  | none => methods
  | some id =>
    let details := cardDetails object
    (methods.updateWhere id (fun row => row.deletedAt = none)
      fun row =>
        { row with
          brand := details.brand
          last4 := details.last4
          expMonth := details.expMonth
          expYear := details.expYear }).1

/-- `ownerWhere`. -/
def OwnedBy (attribution : StripeAttribution) (row : PaymentMethod) : Prop :=
  match attribution.organizationId with
  | some organizationId => row.organizationId = some organizationId
  | none => row.userId = attribution.userId ∧ row.organizationId = none

instance (attribution : StripeAttribution) : DecidablePred (OwnedBy attribution) := fun row => by
  unfold OwnedBy
  split <;> infer_instance

/-- `defaultPaymentMethodId` of a customer. -/
def defaultPaymentMethodId (object : StripeValue) : Option String :=
  referenceId (property (object.get "invoice_settings") "default_payment_method")

/-- The branch of `customer.updated`. -/
def projectCustomer (methods : Table String PaymentMethod) (attribution : StripeAttribution)
    (object : StripeValue) : Table String PaymentMethod :=
  let cleared :=
    methods.updateAll
      (fun _ row => OwnedBy attribution row ∧ row.isDefault = true ∧ row.deletedAt = none)
      fun _ row => { row with isDefault := false }
  match defaultPaymentMethodId object with
  | none => cleared
  | some id =>
    (cleared.updateWhere id
      (fun row => OwnedBy attribution row ∧ row.detachedAt = none ∧ row.deletedAt = none)
      fun row => { row with isDefault := true }).1

/-- The card that a successful intent has saved. -/
def projectSavedPaymentMethod (methods : Table String PaymentMethod) :
    Option StripeAttribution → Option StripeValue → Table String PaymentMethod
  | some attribution, some saved => projectAttachedPaymentMethod methods attribution saved
  | _, _ => methods

/-- The branches of the events of cards and of customers. -/
def projectCardEvent (methods : Table String PaymentMethod) (attribution : Option StripeAttribution)
    (type : EventType) (object : StripeValue) (now : ℤ) : Table String PaymentMethod :=
  match type with
  | .paymentMethod "detached" => projectDetached methods object now
  | .paymentMethod "updated" | .paymentMethod "automatically_updated" =>
    projectUpdated methods object
  | .customer "updated" =>
    match attribution with
    | some attribution => projectCustomer methods attribution object
    | none => methods
  | _ => methods

/-- The writes of one event to the saved cards. -/
def projectCards (methods : Table String PaymentMethod) (attribution : Option StripeAttribution)
    (type : EventType) (object : StripeValue) (savedPaymentMethod : Option StripeValue) (now : ℤ) :
    Table String PaymentMethod :=
  projectCardEvent (projectSavedPaymentMethod methods attribution savedPaymentMethod) attribution
    type object now

/-- The transaction of `processStoredStripeEvent`. -/
def projectObject (directory : Directory) (now : ℤ) (rows : BillingRows EventId) (type : EventType)
    (object : StripeValue) (savedPaymentMethod : Option StripeValue)
    (cursor : StripeProjectionCursor EventId) : BillingRows EventId :=
  let attribution := attributionForStripeObject directory object
  { chargeableItems :=
      match type with
      | .paymentIntent _ => projectChargeableItem rows.chargeableItems object now
      | _ => rows.chargeableItems
    payments :=
      match attribution, paymentInput type object with
      | some attribution, some input => upsertPayment rows.payments attribution input cursor
      | _, _ => rows.payments
    paymentMethods :=
      projectCards rows.paymentMethods attribution type object savedPaymentMethod now
    subscriptions :=
      match type, attribution with
      | .subscription _, some attribution =>
        projectSubscription rows.subscriptions attribution object cursor
      | _, _ => rows.subscriptions }

def StripeWebhookEvent.cursor (stored : StripeWebhookEvent EventId) (authoritative : Bool) :
    StripeProjectionCursor EventId :=
  ⟨stored.stripeEventId, stored.stripeCreatedAt, authoritative⟩

/-- **One event**, processed at a time when Stripe answers as `stripeClient` says. -/
def processStoredStripeEvent (directory : Directory) (stripeClient : Option StripeClient) (now : ℤ)
    (rows : BillingRows EventId) (stored : StripeWebhookEvent EventId) : BillingRows EventId :=
  let current := retrieveCurrentStripeObject stored.type stored.object stripeClient
  projectObject directory now rows stored.type current.1
    (retrieveSavedPaymentMethod (savedPaymentMethodId stored.type current.1) stripeClient)
    (stored.cursor current.2)

/-- Stored events processed one after the other, each at its time, while Stripe's objects stay as
`stripeClient` says. -/
def processStoredStripeEvents (directory : Directory) (stripeClient : Option StripeClient)
    (rows : BillingRows EventId) (processed : List (ℤ × StripeWebhookEvent EventId)) :
    BillingRows EventId :=
  processed.foldl
    (fun rows run => processStoredStripeEvent directory stripeClient run.1 rows run.2) rows

end Projections

end BackendFoundation.Stripe.WebhookModel
