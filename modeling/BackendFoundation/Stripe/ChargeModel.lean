import BackendFoundation.Crypto
import BackendFoundation.Lib.Calls
import BackendFoundation.Lib.Interleave
import BackendFoundation.Lib.Table
import BackendFoundation.Stripe.Owner
import Mathlib.Data.Int.Notation

/-! # Charges for chargeable items

`createCharge` with the table-backed resolver `chargeableItemResolver`, and the projection of a
payment intent onto its item. A call of `createCharge` is a program of one statement or one Stripe
request a step; it is given its owner and its customer, which it has looked up. The reads of the
webhook worker and its write are one event, of any status that the intent had at some time.

Stripe answers a known idempotency key with the intent it created for it, refuses it for other
parameters, and creates an intent under an unknown key. It may forget a key. Payment intents are
numbered in the order of their creation. -/

namespace BackendFoundation.Stripe.ChargeModel

open Lib Lib.Interleave Errors Crypto Stripe.Owner

abbrev Uuid := String

/-! ### Chargeable items -/

inductive ChargeableStatus
  | opened | reserved | consumed | expired | canceled
deriving DecidableEq

def ChargeableStatus.text : ChargeableStatus → String
  | .opened => "open"
  | .reserved => "reserved"
  | .consumed => "consumed"
  | .expired => "expired"
  | .canceled => "canceled"

structure ChargeableItem where
  reference : String
  userId : Option String := none
  amount : ℤ
  currency : String
  description : String
  status : ChargeableStatus := .opened
  reservationKeyHash : Option MetadataHash := none
  reservedAt : Option ℕ := none
  expiresAt : Option ℕ := none
  consumedAt : Option ℕ := none
  paymentIntentId : Option ℕ := none
  deletedAt : Option ℕ := none
deriving DecidableEq

/-- The part of the environment that charges read. -/
structure ChargeConfig where
  dynamicPricingEnabled : Bool
  allowedCurrencies : List String
  maxAmountByCurrency : List (String × ℤ)
  minAmountByCurrency : List (String × ℤ)
  /-- `safeRedirectUrl` under `APP_ORIGIN`: the URL, or the message of a bad request. -/
  safeRedirectUrl : String → Except String String

structure ReservedChargeable where
  amount : ℤ
  currency : String
  description : String
  /-- The `metadata` of the amount. -/
  reference : String
  chargeableItemId : Uuid
  reservationId : Uuid
  reservationKeyHash : MetadataHash
deriving DecidableEq

/-! ### Payment intents -/

inductive IntentStatus
  | requiresPaymentMethod | requiresConfirmation | requiresAction | processing | requiresCapture
  | canceled | succeeded
deriving DecidableEq

/-- The statuses that Stripe never changes. -/
def IntentStatus.Final : IntentStatus → Prop
  | .canceled | .succeeded => True
  | _ => False

instance : DecidablePred IntentStatus.Final := fun status => by
  cases status <;> unfold IntentStatus.Final <;> infer_instance

structure IntentMetadata where
  reference : String
  chargeableItemId : Uuid
  owner : BillingMetadata
  chargeableReservationKeyHash : MetadataHash
deriving DecidableEq

structure PaymentIntentCreateParams where
  amount : ℤ
  currency : String
  customer : String
  description : String
  metadata : IntentMetadata
  paymentMethod : Option String := none
  confirm : Bool := false
  offSession : Bool := false
  automaticPaymentMethods : Bool := false
  returnUrl : Option String := none
  setupFutureUsage : Option String := none
deriving DecidableEq

structure PaymentIntent where
  params : PaymentIntentCreateParams
  idempotencyKey : String
  status : IntentStatus
  clientSecret : Option String
deriving DecidableEq

/-- An intent as a reply of Stripe or an event shows it. -/
structure IntentObject where
  id : ℕ
  status : IntentStatus
  amount : ℤ
  currency : String
  clientSecret : Option String
  metadata : IntentMetadata
deriving DecidableEq

/-- The intent `id`, as of a time when its status was `status`. -/
def PaymentIntent.shown (intent : PaymentIntent) (id : ℕ) (status : IntentStatus) :
    IntentObject where
  id := id
  status := status
  amount := intent.params.amount
  currency := intent.params.currency
  clientSecret := intent.clientSecret
  metadata := intent.params.metadata

/-- A final status is shown only if it is the status of the intent. -/
def PaymentIntent.MayShow (intent : PaymentIntent) (status : IntentStatus) : Prop :=
  status = intent.status ∨ ¬ status.Final

instance (intent : PaymentIntent) (status : IntentStatus) : Decidable (intent.MayShow status) := by
  unfold PaymentIntent.MayShow
  infer_instance

/-! ### The state and its statements -/

structure ChargeState where
  now : ℕ := 0
  itemIds : List Uuid := []
  items : Table Uuid ChargeableItem := Table.empty
  /-- Stripe's payment intents. -/
  intents : Table ℕ PaymentIntent := Table.empty
  nextIntent : ℕ := 0
  /-- The intents that Stripe knows by their idempotency key. -/
  remembered : Table String ℕ := Table.empty

namespace ChargeState

def liveItems (s : ChargeState) (reference : String) : List (Uuid × ChargeableItem) :=
  s.itemIds.filterMap fun id =>
    ((s.items id).filter fun item => item.reference = reference ∧ item.deletedAt = none).map
      fun item => (id, item)

/-- `findFirst` on the items of a reference: none if there is none, and otherwise the one the
database picks. -/
def findFirst (s : ChargeState) (reference : String) (pick : ℕ) :
    Option (Option (Uuid × ChargeableItem)) :=
  match s.liveItems reference with
  | [] => some none
  | found => (found[pick]?).map some

/-- `updateMany` on the item `id`, with the number of rows. -/
def updateItem (s : ChargeState) (id : Uuid) (cond : ChargeableItem → Prop) [DecidablePred cond]
    (data : ChargeableItem → ChargeableItem) : ChargeState × ℕ :=
  let r := s.items.updateWhere id (fun item => item.deletedAt = none ∧ cond item) data
  ({ s with items := r.1 }, r.2)

/-- `paymentIntents.create` at Stripe: the intent of the key, none if it is refused. -/
def createPaymentIntent (s : ChargeState) (params : PaymentIntentCreateParams)
    (idempotencyKey : String) (status : IntentStatus) (clientSecret : Option String) :
    ChargeState × Option ℕ :=
  match s.remembered idempotencyKey with
  | some id =>
    if (s.intents id).any (fun intent => intent.params = params) then (s, some id) else (s, none)
  | none =>
    ({ s with
        intents := s.intents.set s.nextIntent ⟨params, idempotencyKey, status, clientSecret⟩
        nextIntent := s.nextIntent + 1
        remembered := s.remembered.set idempotencyKey s.nextIntent },
      some s.nextIntent)

end ChargeState

/-! ### `createCharge` -/

structure CreateChargeInput where
  reference : String
  savePaymentMethod : Bool := false
  paymentMethodId : Option Uuid := none
  returnUrl : Option String := none
deriving DecidableEq

/-- A request to charge, with what its call has looked up before it reserves the item. -/
structure ChargeRequest where
  owner : BillingOwner
  customerId : String
  savedPaymentMethod : Option String := none
  input : CreateChargeInput
  businessIdempotencyKey : String
deriving DecidableEq

structure ChargeResult where
  id : ℕ
  status : IntentStatus
  amount : ℤ
  currency : String
  requiresAction : Bool
  clientSecret : Option String
deriving DecidableEq

def toChargeResult (intent : IntentObject) : ChargeResult where
  id := intent.id
  status := intent.status
  amount := intent.amount
  currency := intent.currency
  requiresAction := intent.status = .requiresAction ∨ intent.status = .requiresConfirmation
  clientSecret := intent.clientSecret

inductive ChargePc
  | find (attempt : ℕ)
  /-- The call has read the item. -/
  | check (attempt : ℕ) (id : Uuid) (item : ChargeableItem)
  | reserve (attempt : ℕ) (id : Uuid) (item : ChargeableItem)
  | create (reservation : ReservedChargeable)
  /-- `recordPaymentIntent`, and what the call does after it. -/
  | record (reservation : ReservedChargeable) (intent : IntentObject)
      (after : Except Thrown ChargeResult)
  | returned (result : ChargeResult)
  | thrown (error : Thrown)
deriving DecidableEq

structure ChargeCall where
  request : ChargeRequest
  pc : ChargePc
deriving DecidableEq

/-- How Stripe answers a request to create an intent. -/
inductive StripeReply
  /-- It does nothing. -/
  | refused (message : String)
  | replied (shown : IntentStatus)
  /-- An error that carries the intent. -/
  | declined (code message : String) (shown : IntentStatus)
  /-- The intent is there, and the caller sees an error without it. -/
  | unanswered (message : String)
deriving DecidableEq

/-- What the surroundings of a call choose for its next step. -/
structure ChargeChoice where
  outcome : Outcome DatabaseError := .ok
  pick : ℕ := 0
  reply : StripeReply := .replied .requiresPaymentMethod
  /-- The status and the secret of a new intent. -/
  status : IntentStatus := .requiresPaymentMethod
  clientSecret : Option String := none

section CreateCharge

variable (cfg : ChargeConfig) (R : Runtime) (K : Keyring)

def reservationKeyHash (owner : BillingOwner) (businessIdempotencyKey : String) : MetadataHash :=
  hashMetadata R K
    ("chargeable-reservation:" ++ (billingOwnerKey owner ++ ":" ++ businessIdempotencyKey))

def downstreamIdempotencyKey (owner : BillingOwner) (businessIdempotencyKey : String) : String :=
  "charge:" ++ billingOwnerKey owner ++ ":" ++ (hashMetadata R K businessIdempotencyKey).text

def ChargeRequest.reservationKeyHash (request : ChargeRequest) : MetadataHash :=
  ChargeModel.reservationKeyHash R K request.owner request.businessIdempotencyKey

def ChargeRequest.downstreamIdempotencyKey (request : ChargeRequest) : String :=
  ChargeModel.downstreamIdempotencyKey R K request.owner request.businessIdempotencyKey

def assertItemOwnerAndExpiry (now : ℕ) (item : ChargeableItem) (userId : String) :
    Except Thrown Unit :=
  if item.expiresAt.any (· ≤ now) then
    .error (.app (conflict "That chargeable item has expired"))
  else if item.userId.any (· ≠ userId) then
    .error (.app (notFound "No chargeable item for that reference"))
  else .ok ()

def assertChargeableWithinBounds (chargeable : ReservedChargeable) : Except Thrown Unit :=
  let currency := R.toLowerCase chargeable.currency
  if chargeable.amount < 1 then
    .error (.app (badRequest "Chargeable amount must be a positive integer in minor units"))
  else if currency ∉ cfg.allowedCurrencies then
    .error (.app (badRequest ("Currency " ++ currency ++ " is not enabled for charges")))
  else
    match cfg.maxAmountByCurrency.lookup currency with
    | none =>
      .error (.app (badRequest ("No maximum charge amount is configured for " ++ currency)))
    | some maximum =>
      if maximum < chargeable.amount then
        .error (.app (badRequest
          ("Charge amount exceeds the configured maximum for " ++ currency)))
      else if (cfg.minAmountByCurrency.lookup currency).any (chargeable.amount < ·) then
        .error (.app (badRequest
          ("Charge amount is below the configured minimum for " ++ currency)))
      else .ok ()

/-- What `reserve` returns for the item `id`. -/
def ChargeableItem.reservation (item : ChargeableItem) (reference : String) (id : Uuid)
    (hash : MetadataHash) : ReservedChargeable where
  amount := item.amount
  currency := R.toLowerCase item.currency
  description := item.description
  reference := reference
  chargeableItemId := id
  reservationId := id
  reservationKeyHash := hash

/-- The end of `reserveChargeable`. -/
def afterReserve (reservation : ReservedChargeable) : ChargePc :=
  let normalised := { reservation with currency := R.toLowerCase reservation.currency }
  match assertChargeableWithinBounds cfg R normalised with
  | .error e => .thrown e
  | .ok _ => .create normalised

/-- What `reserve` makes of the item it has read, up to its next statement. -/
def checkItem (now : ℕ) (request : ChargeRequest) (attempt : ℕ) (id : Uuid)
    (item : ChargeableItem) : ChargePc :=
  match assertItemOwnerAndExpiry now item request.owner.userId.text with
  | .error e => .thrown e
  | .ok _ =>
    match item.status with
    | .reserved =>
      if item.reservationKeyHash ≠ some (request.reservationKeyHash R K) then
        .thrown (.app (conflict
          "That chargeable item is already reserved for another payment"))
      else
        afterReserve cfg R
          (item.reservation R request.input.reference id (request.reservationKeyHash R K))
    | .opened => .reserve attempt id item
    | status => .thrown (.app (conflict ("That chargeable item is " ++ status.text)))

def ChargeableItem.reserved (hash : MetadataHash) (now : ℕ) (item : ChargeableItem) :
    ChargeableItem :=
  { item with status := .reserved, reservationKeyHash := some hash, reservedAt := some now }

/-- The request to Stripe, or the message of a bad request. -/
def chargeParams (request : ChargeRequest) (chargeable : ReservedChargeable) :
    Except String PaymentIntentCreateParams :=
  let params : PaymentIntentCreateParams :=
    { amount := chargeable.amount
      currency := chargeable.currency
      customer := request.customerId
      description := chargeable.description
      metadata :=
        { reference := request.input.reference
          chargeableItemId := chargeable.chargeableItemId
          owner := billingOwnerMetadata request.owner
          chargeableReservationKeyHash := chargeable.reservationKeyHash }
      setupFutureUsage := if request.input.savePaymentMethod then some "off_session" else none }
  match request.input.paymentMethodId with
  | some _ =>
    .ok { params with
      paymentMethod := request.savedPaymentMethod, confirm := true, offSession := true }
  | none =>
    match request.input.returnUrl with
    | none => .ok { params with automaticPaymentMethods := true }
    | some returnUrl =>
      (cfg.safeRedirectUrl returnUrl).map fun url =>
        { params with automaticPaymentMethods := true, returnUrl := some url }

/-- What the call goes on to do with the answer of Stripe about the intent `id`: `persistIntent`
and its result, or the error. -/
def afterCreate (reservation : ReservedChargeable) (intent : PaymentIntent) (id : ℕ) :
    StripeReply → Option ChargePc
  | .refused message => some (.thrown (.error message))
  | .replied shown =>
    if intent.MayShow shown then
      some (.record reservation (intent.shown id shown)
        (.ok (toChargeResult (intent.shown id shown))))
    else none
  | .declined code message shown =>
    if intent.MayShow shown then
      some (.record reservation (intent.shown id shown)
        (if code = "authentication_required" then
          .ok { toChargeResult (intent.shown id shown) with requiresAction := true }
        else .error (.error message)))
    else none
  | .unanswered message => some (.thrown (.error message))

/-- The request of a call to Stripe. -/
def requestIntent (s : ChargeState) (request : ChargeRequest) (reservation : ReservedChargeable)
    (params : PaymentIntentCreateParams) (c : ChargeChoice) : Option (ChargeState × ChargePc) :=
  match c.reply with
  | .refused message => some (s, .thrown (.error message))
  | reply =>
    let created := s.createPaymentIntent params (request.downstreamIdempotencyKey R K) c.status
      c.clientSecret
    match created.2 with
    | none =>
      some (s, .thrown (.error
        "Keys for idempotent requests can only be used with the same parameters"))
    | some id =>
      match created.1.intents id with
      | none => none
      | some intent => (afterCreate reservation intent id reply).map fun pc => (created.1, pc)

/-- The guard of `recordPaymentIntent`. -/
def ChargeableItem.Records (hash : MetadataHash) (intent : ℕ) (item : ChargeableItem) : Prop :=
  item.status = .reserved ∧ item.reservationKeyHash = some hash ∧
    (item.paymentIntentId = none ∨ item.paymentIntentId = some intent)

instance (hash : MetadataHash) (intent : ℕ) :
    DecidablePred (ChargeableItem.Records hash intent) := fun item => by
  unfold ChargeableItem.Records
  infer_instance

def ChargeableItem.recorded (intent : ℕ) (succeeded : Bool) (now : ℕ) (item : ChargeableItem) :
    ChargeableItem :=
  if succeeded then
    { item with paymentIntentId := some intent, status := .consumed, consumedAt := some now }
  else { item with paymentIntentId := some intent }

/-- `createCharge`, from `reserveChargeable` on. -/
def createCharge (s : ChargeState) (request : ChargeRequest) (pc : ChargePc) (c : ChargeChoice) :
    Option (ChargeState × ChargePc) :=
  match pc with
  | .find attempt =>
    match s.findFirst request.input.reference c.pick with
    | none => none
    | some found =>
      some (c.outcome.read s
        (match found with
          | none => .thrown (.app (notFound "No chargeable item for that reference"))
          | some (id, item) => .check attempt id item)
        fun e => .thrown e.thrown)
  | .check attempt id item => some (s, checkItem cfg R K s.now request attempt id item)
  | .reserve attempt id item =>
    let reserved := s.updateItem id (fun item => item.status = .opened)
      (ChargeableItem.reserved (request.reservationKeyHash R K) s.now)
    some (c.outcome.run s reserved.1
      (if reserved.2 ≠ 1 then
        if attempt + 1 < 2 then .find (attempt + 1)
        else .thrown (.app (conflict "That chargeable item changed while it was being reserved"))
      else
        afterReserve cfg R
          (item.reservation R request.input.reference id (request.reservationKeyHash R K)))
      fun e => .thrown e.thrown)
  | .create reservation =>
    match chargeParams cfg request reservation with
    | .error message => some (s, .thrown (.app (badRequest message)))
    | .ok params => requestIntent R K s request reservation params c
  | .record reservation intent after =>
    let updated := s.updateItem reservation.reservationId
      (ChargeableItem.Records reservation.reservationKeyHash intent.id)
      (ChargeableItem.recorded intent.id (intent.status = .succeeded) s.now)
    some (c.outcome.run s updated.1
      (if updated.2 ≠ 1 then
        .thrown (.app (conflict
          "Chargeable item reservation no longer belongs to this payment"))
      else
        match after with
        | .ok result => .returned result
        | .error e => .thrown e)
      fun e => .thrown e.thrown)
  | .returned _ => none
  | .thrown _ => none

/-- Where a call starts: `requireDynamicPricing`. -/
def startCharge (request : ChargeRequest) : ChargeCall where
  request := request
  pc :=
    if cfg.dynamicPricingEnabled then .find 0
    else .thrown (.app (conflict
      "Dynamic pricing is disabled; set DYNAMIC_PRICING_ENABLED=true"))

end CreateCharge

/-! ### The projection of payment intents -/

def ChargeableItem.consumed (intent now : ℕ) (item : ChargeableItem) : ChargeableItem :=
  { item with paymentIntentId := some intent, status := .consumed, consumedAt := some now }

def ChargeableItem.released (item : ChargeableItem) : ChargeableItem :=
  { item with
    status := .opened, reservationKeyHash := none, reservedAt := none, paymentIntentId := none }

/-- `projectChargeableItem`, of an intent that carries an item and a reservation. -/
def projectChargeableItem (s : ChargeState) (object : IntentObject) : ChargeState :=
  let hash := object.metadata.chargeableReservationKeyHash
  match object.status with
  | .succeeded =>
    (s.updateItem object.metadata.chargeableItemId
      (fun item => item.reservationKeyHash = some hash ∧
        (item.status = .reserved ∨ item.status = .consumed) ∧
        (item.paymentIntentId = none ∨ item.paymentIntentId = some object.id))
      (ChargeableItem.consumed object.id s.now)).1
  | .canceled =>
    (s.updateItem object.metadata.chargeableItemId (ChargeableItem.Records hash object.id)
      ChargeableItem.released).1
  | _ =>
    (s.updateItem object.metadata.chargeableItemId (ChargeableItem.Records hash object.id)
      fun item => { item with paymentIntentId := some object.id }).1

inductive ChargeEvent
  | tick (ms : ℕ)
  /-- The server records what a reference costs. -/
  | addItem (id : Uuid) (reference : String) (userId : Option String) (amount : ℤ)
      (currency description : String) (expiresAt : Option ℕ)
  /-- Stripe moves an intent on. -/
  | intentStatus (intent : ℕ) (status : IntentStatus)
  /-- A webhook worker projects an intent that it has retrieved in this status. -/
  | projection (intent : ℕ) (status : IntentStatus)
  /-- Stripe forgets an idempotency key. -/
  | forget (idempotencyKey : String)
deriving DecidableEq

def event (s : ChargeState) : ChargeEvent → Option ChargeState
  | .tick ms => some { s with now := s.now + ms }
  | .addItem id reference userId amount currency description expiresAt =>
    match s.items id with
    | some _ => none
    | none => some
      { s with
        itemIds := s.itemIds ++ [id]
        items := s.items.set id { reference, userId, amount, currency, description, expiresAt } }
  | .intentStatus id status =>
    match s.intents id with
    | none => none
    | some intent =>
      if intent.status.Final then none
      else some { s with intents := s.intents.set id { intent with status := status } }
  | .projection id status =>
    match s.intents id with
    | none => none
    | some intent =>
      if intent.MayShow status then some (projectChargeableItem s (intent.shown id status))
      else none
  | .forget idempotencyKey =>
    some { s with remembered := s.remembered.erase idempotencyKey }

/-- **Calls of `createCharge`** by any owners under any keys, with the webhook projections. -/
def charges (cfg : ChargeConfig) (R : Runtime) (K : Keyring) :
    Program ChargeState ChargeCall ChargeRequest ChargeChoice ChargeEvent where
  init := {}
  spawn s _ request := some (s, startCharge cfg request)
  step s _ call c :=
    (createCharge cfg R K s call.request call.pc c).map fun r => (r.1, { call with pc := r.2 })
  env := event

abbrev ChargeWorld := World ChargeState ChargeCall

abbrev ChargeLabel := Label ChargeRequest ChargeChoice ChargeEvent

/-! ### A concrete deployment -/

def exampleCharges : ChargeConfig where
  dynamicPricingEnabled := true
  allowedCurrencies := ["usd"]
  maxAmountByCurrency := [("usd", 500000)]
  minAmountByCurrency := []
  safeRedirectUrl := .ok

def exampleUser : OwnerId := ⟨"u1", exampleUser_noColon⟩

/-- A charge of the user for the reference `ref-1`. -/
def exampleRequest (businessIdempotencyKey : String) : ChargeRequest where
  owner := .user exampleUser
  customerId := "cus_1"
  input := { reference := "ref-1" }
  businessIdempotencyKey := businessIdempotencyKey

def addExampleItem : ChargeLabel :=
  .env (.addItem "item-1" "ref-1" none 2500 "usd" "Booking #12" none)

end BackendFoundation.Stripe.ChargeModel
