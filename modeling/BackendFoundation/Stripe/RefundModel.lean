import BackendFoundation.Crypto
import BackendFoundation.Lib.Calls
import BackendFoundation.Lib.Interleave
import BackendFoundation.Lib.Table
import BackendFoundation.Stripe.Owner
import Mathlib.Data.Int.Notation
import Mathlib.Order.Defs.LinearOrder

/-! # Refunds

`createRefund` of `stripe.refunds.service.ts`. A call is a program of one statement or one Stripe
request a step. It runs under the keyring of the process that it started in; a rotation gives a new
keyring to the calls that start later and keeps the older keys in it. `ensureCustomer` is one step.

Stripe answers a known idempotency key with the refund it created for it, refuses it for other
parameters, and creates at most one refund under a key. It never refunds more than was charged. The
metadata and the customer of a payment do not change. -/

namespace BackendFoundation.Stripe.RefundModel

open Lib Lib.Interleave Errors Crypto Stripe.Owner

/-! ### Targets -/

structure StripeCharge where
  created : ℕ
  currency : String
  amount : ℤ
  amountRefunded : ℤ
  paid : Bool
  captured : Bool
  customer : Option String
  metadata : BillingMetadata
deriving DecidableEq

structure StripeIntent where
  created : ℕ
  currency : String
  amountReceived : ℤ
  /-- The id of the latest charge. -/
  latestCharge : Option String
  succeeded : Bool
  customer : Option String
  metadata : BillingMetadata
deriving DecidableEq

inductive TargetId
  | paymentIntent (id : String)
  | charge (id : String)
deriving DecidableEq

def TargetId.paymentIntentId : TargetId → Option String
  | .paymentIntent id => some id
  | .charge _ => none

def TargetId.chargeId : TargetId → Option String
  | .paymentIntent _ => none
  | .charge id => some id

/-- What a call retrieves; a payment intent with its latest charge. -/
inductive RefundTarget
  | paymentIntent (intent : StripeIntent) (latestCharge : Option StripeCharge)
  | charge (charge : StripeCharge)
deriving DecidableEq

def RefundTarget.metadata : RefundTarget → BillingMetadata
  | .paymentIntent intent _ => intent.metadata
  | .charge object => object.metadata

def RefundTarget.customer : RefundTarget → Option String
  | .paymentIntent intent _ => intent.customer
  | .charge object => object.customer

structure RefundTargetDetails where
  created : ℕ
  currency : String
  refundableAmount : ℤ
  refundable : Bool
deriving DecidableEq

structure RefundConfig where
  billingOwner : BillingOwnerMode
  selfServiceEnabled : Bool
  windowDays : ℕ
  maxAmountByCurrency : List (String × ℤ)

def refundTargetDetails (R : Runtime) : RefundTarget → RefundTargetDetails
  | .paymentIntent intent charge =>
    { created := intent.created
      currency := R.toLowerCase intent.currency
      refundableAmount := max 0 (intent.amountReceived - (charge.map (·.amountRefunded)).getD 0)
      refundable := intent.succeeded }
  | .charge charge =>
    { created := charge.created
      currency := R.toLowerCase charge.currency
      refundableAmount := max 0 (charge.amount - charge.amountRefunded)
      refundable := charge.paid && charge.captured }

/-- `now` is in milliseconds. -/
def enforceSelfServiceRefundPolicy (cfg : RefundConfig) (R : Runtime) (now : ℕ)
    (target : RefundTarget) (requestedAmount : Option ℤ) : Except Thrown ℤ :=
  let details := refundTargetDetails R target
  let policyLimit := (cfg.maxAmountByCurrency.lookup details.currency).getD 0
  let amount := requestedAmount.getD details.refundableAmount
  if !cfg.selfServiceEnabled then
    .error (.app (forbidden "Self-service refunds are disabled"))
  else if !details.refundable ∨ details.refundableAmount < 1 then
    .error (.app (conflict "The payment has no refundable balance"))
  else if (cfg.windowDays : ℤ) * 24 * 60 * 60 * 1000 < (now : ℤ) - details.created * 1000 then
    .error (.app (forbidden "The self-service refund window has expired"))
  else if policyLimit = 0 then
    .error (.app (forbidden ("Self-service refunds are unavailable for " ++ details.currency)))
  else if details.refundableAmount < amount then
    .error (.app (badRequest "Refund amount exceeds the remaining refundable balance"))
  else if policyLimit < amount then
    .error (.app (forbidden "Refund amount requires administrative approval"))
  else .ok amount

/-! ### Operations and refunds -/

structure RefundOperation where
  id : ℕ
  organizationId : Option OwnerId
  userId : OwnerId
  ownerKey : String
  idempotencyKeyHash : MetadataHash
  requestHash : MetadataHash
  target : TargetId
  requestedAmount : Option ℤ
  stripeRefundId : Option ℕ := none
  status : String := "PENDING"
  amount : Option ℤ := none
  currency : Option String := none
  lastError : Option String := none
  completedAt : Option ℕ := none
deriving DecidableEq

/-- `billingOwnerWhere`. -/
def RefundOperation.VisibleTo (owner : BillingOwner) (operation : RefundOperation) : Prop :=
  match owner with
  | .organization organizationId _ => operation.organizationId = some organizationId
  | .user userId => operation.userId = userId ∧ operation.organizationId = none

instance (owner : BillingOwner) : DecidablePred (RefundOperation.VisibleTo owner) := fun _ => by
  unfold RefundOperation.VisibleTo
  split <;> infer_instance

structure RefundCreateParams where
  target : TargetId
  amount : ℤ
  metadata : BillingMetadata
  refundOperationId : ℕ
deriving DecidableEq

/-- The call that a refund was created for. -/
structure RefundOrigin where
  owner : BillingOwner
  businessIdempotencyKey : String
  /-- The active key of its process. -/
  keyId : String
deriving DecidableEq

structure Refund where
  id : ℕ
  params : RefundCreateParams
  idempotencyKey : String
  status : Option String
  currency : String
  origin : RefundOrigin
deriving DecidableEq

structure RefundAudit where
  actorUserId : OwnerId
  entityId : ℕ
  refundOperationId : ℕ
  target : TargetId
  amount : ℤ
  currency : String
deriving DecidableEq

structure RefundState where
  now : ℕ := 0
  keyring : Keyring
  /-- The Stripe customer of each billing owner. -/
  customers : Table String String := Table.empty
  operations : Table ℕ RefundOperation := Table.empty
  nextOperation : ℕ := 0
  audits : List RefundAudit := []
  charges : Table String StripeCharge := Table.empty
  intents : Table String StripeIntent := Table.empty
  /-- Stripe's refunds. -/
  refunds : Table ℕ Refund := Table.empty
  nextRefund : ℕ := 0
  /-- The refunds by their idempotency key. -/
  remembered : Table String ℕ := Table.empty

namespace RefundState

variable (s : RefundState)

/-- `paymentIntents.retrieve` and `charges.retrieve`. -/
def retrieve : TargetId → Option RefundTarget
  | .paymentIntent id =>
    (s.intents id).map fun intent => .paymentIntent intent (intent.latestCharge.bind s.charges)
  | .charge id => (s.charges id).map .charge

def findOperations (cond : RefundOperation → Prop) [DecidablePred cond] : List RefundOperation :=
  (List.range s.nextOperation).filterMap fun id => (s.operations id).filter cond

/-- `findFirst`: none if no row meets the condition, and otherwise the one the database picks. -/
def findFirst (cond : RefundOperation → Prop) [DecidablePred cond] (pick : ℕ) :
    Option (Option RefundOperation) :=
  match s.findOperations cond with
  | [] => some none
  | found => (found[pick]?).map some

/-- `create`, none if the pair of the owner key and the hash is taken. -/
def insertOperation (data : RefundOperation) : Option RefundState :=
  if (s.findOperations fun row => row.ownerKey = data.ownerKey ∧
      row.idempotencyKeyHash = data.idempotencyKeyHash) = [] then
    some
      { s with
        operations := s.operations.set s.nextOperation data
        nextOperation := s.nextOperation + 1 }
  else none

def updateOperation (id : ℕ) (cond : RefundOperation → Prop) [DecidablePred cond]
    (data : RefundOperation → RefundOperation) : RefundState × ℕ :=
  let r := s.operations.updateWhere id cond data
  ({ s with operations := r.1 }, r.2)

/-- The charge that a refund of the target refunds. -/
def refundedCharge : TargetId → Option String
  | .paymentIntent id => (s.intents id).bind (·.latestCharge)
  | .charge id => some id

/-- `refunds.create` at Stripe: the refund of the key, or the message of an error. -/
def createStripeRefund (params : RefundCreateParams) (idempotencyKey : String)
    (origin : RefundOrigin) (status : Option String) : Except String (RefundState × Refund) :=
  match (s.remembered idempotencyKey).bind s.refunds with
  | some refund =>
    if refund.params = params then .ok (s, refund)
    else .error "Keys for idempotent requests can only be used with the same parameters"
  | none =>
    match s.refundedCharge params.target with
    | none => .error "This PaymentIntent does not have a successful charge to refund"
    | some chargeId =>
      match s.charges chargeId with
      | none => .error ("No such charge: " ++ chargeId)
      | some charge =>
        if charge.amount - charge.amountRefunded < params.amount then
          .error "Refund amount is greater than unrefunded amount on charge"
        else
          let refund : Refund :=
            ⟨s.nextRefund, params, idempotencyKey, status, charge.currency, origin⟩
          .ok
            ({ s with
                charges := s.charges.set chargeId
                  { charge with amountRefunded := charge.amountRefunded + params.amount }
                refunds := s.refunds.set s.nextRefund refund
                nextRefund := s.nextRefund + 1
                remembered := s.remembered.set idempotencyKey s.nextRefund }, refund)

end RefundState

/-! ### `createRefund` -/

structure RefundInput where
  target : TargetId
  amount : Option ℤ := none
deriving DecidableEq

structure RefundRequest where
  userId : OwnerId
  /-- The active organization of the request context. -/
  organizationId : Option OwnerId := none
  input : RefundInput
  businessIdempotencyKey : String
deriving DecidableEq

structure RefundResult where
  id : ℕ
  status : Option String
  amount : Option ℤ
  currency : Option String
deriving DecidableEq

inductive RefundPc
  | find
  /-- `ensureCustomer`. -/
  | customer (operation : Option RefundOperation)
  | retrieve (operation : Option RefundOperation) (customerId : String)
  /-- The call has retrieved the target. -/
  | check (operation : Option RefundOperation) (customerId : String) (target : RefundTarget)
  | create (amount : ℤ)
  | reread (amount : ℤ)
  /-- The request to Stripe. -/
  | request (operation : RefundOperation) (amount : ℤ)
  /-- Stripe has reported an error. -/
  | fail (operation : RefundOperation) (error : Thrown)
  | complete (operation : RefundOperation) (refund : Refund)
  | returned (result : RefundResult)
  | thrown (error : Thrown)
deriving DecidableEq

structure RefundCall where
  request : RefundRequest
  owner : BillingOwner
  keyring : Keyring
  pc : RefundPc

/-- What the surroundings of a call choose for its next step. -/
structure RefundChoice where
  outcome : Outcome DatabaseError := .ok
  pick : ℕ := 0
  /-- The id of a new customer, or the error of `ensureCustomer`. -/
  customer : Except Thrown String := .ok "cus_new"
  /-- The message of a Stripe error, if the request ends with one. -/
  stripe : Outcome String := .ok
  /-- The status of a new refund. -/
  status : Option String := some "succeeded"

section CreateRefund

variable (cfg : RefundConfig) (R : Runtime) (K : Keyring)

def RefundRequest.idempotencyInput (request : RefundRequest) : String :=
  "refund-operation:" ++ request.businessIdempotencyKey

def RefundRequest.requestInput (request : RefundRequest) : String :=
  "refund-request:" ++ request.input.target.paymentIntentId.getD "" ++ ":" ++
    request.input.target.chargeId.getD "" ++ ":" ++
    (request.input.amount.map toString).getD "full"

def RefundRequest.idempotencyKeyHash (request : RefundRequest) : MetadataHash :=
  hashMetadata R K request.idempotencyInput

/-- The idempotency key of the request to Stripe. -/
def refundIdempotencyKey (owner : BillingOwner) (idempotencyKeyHash : MetadataHash) : String :=
  "refund:" ++ billingOwnerKey owner ++ ":" ++ idempotencyKeyHash.text

def RefundOperation.result (operation : RefundOperation) (id : ℕ) : RefundResult where
  id := id
  status := some operation.status
  amount := operation.amount
  currency := operation.currency

/-- The two checks of an operation that the call has found: it is of the same request, and it is
not completed. -/
def withOperation (request : RefundRequest) (operation : RefundOperation) (next : RefundPc) :
    RefundPc :=
  if operation.requestHash ∉ candidateMetadataHashes R K request.requestInput then
    .thrown (.app (conflict "Idempotency-Key was already used for a different refund request"))
  else
    match operation.stripeRefundId with
    | some id => .returned (operation.result id)
    | none => next

def afterFind (request : RefundRequest) : Option RefundOperation → RefundPc
  | none => .customer none
  | some operation => withOperation R K request operation (.customer (some operation))

/-- The ownership check and the policy. -/
def checkTarget (now : ℕ) (request : RefundRequest) (operation : Option RefundOperation)
    (customerId : String) (target : RefundTarget) : RefundPc :=
  if target.metadata.userId ≠ some request.userId.text ∧ target.customer ≠ some customerId then
    .thrown (.app (notFound "Payment not found"))
  else
    let amount : Except Thrown ℤ :=
      match operation.bind (·.requestedAmount) with
      | some amount => .ok amount
      | none => enforceSelfServiceRefundPolicy cfg R now target request.input.amount
    match amount, operation with
    | .error e, _ => .thrown e
    | .ok amount, none => .create amount
    | .ok amount, some operation => withOperation R K request operation (.request operation amount)

def newOperation (request : RefundRequest) (owner : BillingOwner) (id : ℕ) (amount : ℤ) :
    RefundOperation where
  id := id
  organizationId :=
    match owner with
    | .organization organizationId _ => some organizationId
    | .user _ => none
  userId := owner.userId
  ownerKey := billingOwnerKey owner
  idempotencyKeyHash := request.idempotencyKeyHash R K
  requestHash := hashMetadata R K request.requestInput
  target := request.input.target
  requestedAmount := some amount

def refundParams (request : RefundRequest) (owner : BillingOwner) (operation : RefundOperation)
    (amount : ℤ) : RefundCreateParams where
  target := request.input.target
  amount := amount
  metadata := billingOwnerMetadata owner
  refundOperationId := operation.id

/-- A row without a refund, with the data of the refund that was created for it. -/
def RefundOperation.completed (refund : Refund) (now : ℕ) (operation : RefundOperation) :
    RefundOperation :=
  { operation with
    stripeRefundId := some refund.id
    status := refund.status.getD "pending"
    amount := some refund.params.amount
    currency := some refund.currency
    completedAt := some now
    lastError := none }

/-- The audited transaction, none if the refund is recorded in another row. -/
def completeOperation (s : RefundState) (request : RefundRequest) (owner : BillingOwner)
    (operation : RefundOperation) (refund : Refund) : Option RefundState :=
  let completed := s.updateOperation operation.id
    (fun row => row.VisibleTo owner ∧ row.stripeRefundId = none) (·.completed refund s.now)
  if completed.2 = 1 then
    if (s.findOperations fun row => row.stripeRefundId = some refund.id) = [] then
      some
        { completed.1 with
          audits := s.audits ++
            [⟨request.userId, refund.id, operation.id, request.input.target,
              refund.params.amount, refund.currency⟩] }
    else none
  else some completed.1

/-- `createRefund`, for the billing owner that it has resolved. -/
def createRefund (s : RefundState) (request : RefundRequest) (owner : BillingOwner)
    (pc : RefundPc) (c : RefundChoice) : Option (RefundState × RefundPc) :=
  match pc with
  | .find =>
    match s.findFirst (fun row => row.ownerKey = billingOwnerKey owner ∧ row.VisibleTo owner ∧
        row.idempotencyKeyHash ∈ candidateMetadataHashes R K request.idempotencyInput) c.pick with
    | none => none
    | some found => some (c.outcome.read s (afterFind R K request found) fun e => .thrown e.thrown)
  | .customer operation =>
    match c.customer, s.customers (billingOwnerKey owner) with
    | .error e, _ => some (s, .thrown e)
    | .ok _, some customerId => some (s, .retrieve operation customerId)
    | .ok customerId, none =>
      some ({ s with customers := s.customers.set (billingOwnerKey owner) customerId },
        .retrieve operation customerId)
  | .retrieve operation customerId =>
    match s.retrieve request.input.target with
    | none => some (s, .thrown (.error "No such payment"))
    | some target =>
      some (c.stripe.read s (.check operation customerId target) fun message =>
        .thrown (.error message))
  | .check operation customerId target =>
    some (s, checkTarget cfg R K s.now request operation customerId target)
  | .create amount =>
    let operation := newOperation R K request owner s.nextOperation amount
    let onError (e : DatabaseError) : RefundPc :=
      if e.code = "P2002" then .reread amount else .thrown e.thrown
    match s.insertOperation operation with
    | none => some (c.outcome.read s (.reread amount) onError)
    | some s' =>
      some (c.outcome.run s s' (withOperation R K request operation (.request operation amount))
        onError)
  | .reread amount =>
    match s.findFirst (fun row => row.ownerKey = billingOwnerKey owner ∧
        row.idempotencyKeyHash = request.idempotencyKeyHash R K ∧ row.VisibleTo owner) c.pick with
    | none => none
    | some found =>
      some (c.outcome.read s
        (match found with
          | none => .thrown (.prisma "P2025" "No record was found for a query.")
          | some operation => withOperation R K request operation (.request operation amount))
        fun e => .thrown e.thrown)
  | .request operation amount =>
    match s.createStripeRefund (refundParams request owner operation amount)
        (refundIdempotencyKey owner (request.idempotencyKeyHash R K))
        ⟨owner, request.businessIdempotencyKey, K.activeKeyId⟩ c.status with
    | .error message => some (s, .fail operation (.error message))
    | .ok (s', refund) =>
      some (c.stripe.run s s' (.complete operation refund) fun message =>
        .fail operation (.error message))
  | .fail operation error =>
    let failed := s.updateOperation operation.id (·.VisibleTo owner) fun row =>
      { row with status := "FAILED", lastError := some (error.messageOr "Stripe refund failed") }
    some (c.outcome.run s failed.1
      (if failed.2 = 1 then .thrown error
        else .thrown (.prisma "P2025" "No record was found for an update."))
      fun e => .thrown e.thrown)
  | .complete operation refund =>
    match completeOperation s request owner operation refund with
    | none => some (s, .thrown (.prisma "P2002" "Unique constraint failed"))
    | some s' =>
      some (c.outcome.run s s'
        (.returned ⟨refund.id, refund.status, some refund.params.amount, some refund.currency⟩)
        fun e => .thrown e.thrown)
  | .returned _ => none
  | .thrown _ => none

end CreateRefund

inductive RefundEvent
  | tick (ms : ℕ)
  /-- The active key changes, and the older keys stay in the keyring. -/
  | rotate (keyring : Keyring)
  /-- Stripe has a charge, new or in a new state. -/
  | charge (id : String) (charge : StripeCharge)
  | intent (id : String) (intent : StripeIntent)

def event (s : RefundState) : RefundEvent → Option RefundState
  | .tick ms => some { s with now := s.now + ms }
  | .rotate keyring =>
    if ∀ keyId ∈ s.keyring.keyIds, keyId ∈ keyring.keyIds then some { s with keyring := keyring }
    else none
  | .charge id charge =>
    if ∀ old ∈ s.charges id, old.metadata = charge.metadata ∧ old.customer = charge.customer then
      some { s with charges := s.charges.set id charge }
    else none
  | .intent id intent =>
    if ∀ old ∈ s.intents id, old.metadata = intent.metadata ∧ old.customer = intent.customer then
      some { s with intents := s.intents.set id intent }
    else none

/-- **Calls of `createRefund`** by any users under any keys, from a deployment with the keyring `K`.
A call without a billing owner ends before it does anything. -/
def refunds (cfg : RefundConfig) (R : Runtime) (K : Keyring) :
    Program RefundState RefundCall RefundRequest RefundChoice RefundEvent where
  init := { keyring := K }
  spawn s _ request :=
    match resolveBillingOwner cfg.billingOwner request.organizationId request.userId with
    | .error _ => none
    | .ok owner => some (s, ⟨request, owner, s.keyring, .find⟩)
  step s _ call c :=
    (createRefund cfg R call.keyring s call.request call.owner call.pc c).map fun r =>
      (r.1, { call with pc := r.2 })
  env := event

abbrev RefundWorld := World RefundState RefundCall

abbrev RefundLabel := Label RefundRequest RefundChoice RefundEvent

/-! ### A concrete deployment -/

def exampleRefundConfig (mode : BillingOwnerMode) : RefundConfig where
  billingOwner := mode
  selfServiceEnabled := true
  windowDays := 30
  maxAmountByCurrency := [("usd", 5000)]

def exampleUser : OwnerId := ⟨"u1", exampleUser_noColon⟩

/-- A captured charge of 10.00, for an owner. -/
def exampleCharge (owner : BillingOwner) (customer : Option String) : StripeCharge where
  created := 0
  currency := "usd"
  amount := 1000
  amountRefunded := 0
  paid := true
  captured := true
  customer := customer
  metadata := billingOwnerMetadata owner

end BackendFoundation.Stripe.RefundModel
