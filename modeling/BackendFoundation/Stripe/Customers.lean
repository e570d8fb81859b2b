import BackendFoundation.Lib.Calls
import BackendFoundation.Lib.Interleave
import BackendFoundation.Lib.Table
import BackendFoundation.Stripe.Owner

/-! # Stripe customers

`ensureCustomer` of `stripe.shared.ts`, and what `stripe.subscriptions.service.ts` does with the customer
of a billing owner: `cancelSubscription`, `resumeSubscription` and `changeSubscriptionPrice`. A call takes
one statement or one Stripe request a step, beside any others.

Stripe answers a known idempotency key with what it did for it, and refuses it for other parameters. It
may forget a key. The hash of a business key and the price catalog are parameters. Left out are a
deployment without Stripe and the metadata of a subscription that the application does not write. -/

namespace BackendFoundation.Stripe.Customers

open Errors Lib Lib.Interleave Stripe.Owner

/-! ### Accounts -/

/-- A row that holds a Stripe customer. -/
inductive Account
  | user (id : OwnerId)
  | organization (id : OwnerId)
deriving DecidableEq

def Account.table : Account → BillingOwnerMode
  | .user _ => .user
  | .organization _ => .organization

def account : BillingOwner → Account
  | .user userId => .user userId
  | .organization organizationId _ => .organization organizationId

/-- The idempotency key of `customers.create`. -/
def customerKey : Account → String
  | .user id => "customer:" ++ id.text
  | .organization id => "customer:org:" ++ id.text

/-- A user, or an organization, which has no email. -/
structure AccountRow where
  email : Option String := none
  name : Option String := none
  active : Bool := true
  stripeCustomerId : Option ℕ := none
  deletedAt : Option ℕ := none
deriving DecidableEq

/-- What `deleteAccount` leaves of the row. -/
def AccountRow.erased (row : AccountRow) (now : ℕ) : AccountRow :=
  { row with
    email := none
    name := none
    active := false
    stripeCustomerId := none
    deletedAt := some now }

/-! ### Stripe -/

structure CustomerCreateParams where
  email : Option String := none
  name : Option String := none
  metadata : BillingMetadata
deriving DecidableEq

/-- A customer, with the key under which it was created. -/
structure Customer where
  params : CustomerCreateParams
  idempotencyKey : String
deriving DecidableEq

/-- `user.displayName ? {..} : {}`, which takes no empty text. -/
def present (text : Option String) : Option String := text.filter (· ≠ "")

def customerCreateParams (owner : BillingOwner) (row : AccountRow) : CustomerCreateParams :=
  match owner with
  | .user _ => ⟨present row.email, present row.name, billingOwnerMetadata owner⟩
  | .organization _ _ => ⟨none, row.name, billingOwnerMetadata owner⟩

/-- The first item of a subscription and its price. -/
structure SubscriptionItem where
  id : String
  priceId : String
deriving DecidableEq

structure Subscription where
  customer : ℕ
  status : String
  cancelAtPeriodEnd : Bool := false
  item : Option SubscriptionItem := none
  metadata : BillingMetadata := {}
  priceKey : Option String := none
deriving DecidableEq

inductive ProrationBehavior
  | alwaysInvoice | createProrations | none
deriving DecidableEq

/-- The parameters of `subscriptions.update`. -/
inductive SubscriptionChange
  | cancelAtPeriodEnd (value : Bool)
  | price (item : SubscriptionItem) (prorationBehavior : ProrationBehavior)
    (metadata : BillingMetadata) (priceKey : String)
deriving DecidableEq

/-- The entries of the first, and those of the second that it has none for. -/
def mergeMetadata (metadata old : BillingMetadata) : BillingMetadata where
  userId := metadata.userId.or old.userId
  actorUserId := metadata.actorUserId.or old.actorUserId
  organizationId := metadata.organizationId.or old.organizationId

def SubscriptionChange.apply (change : SubscriptionChange) (subscription : Subscription) :
    Subscription :=
  match change with
  | .cancelAtPeriodEnd value => { subscription with cancelAtPeriodEnd := value }
  | .price item _ metadata priceKey =>
    { subscription with
      cancelAtPeriodEnd := false
      item := some item
      metadata := mergeMetadata metadata subscription.metadata
      priceKey := some priceKey }

/-- An answer that Stripe remembers: what it was asked for, and the subscription that it returned. -/
structure Remembered where
  subscriptionId : String
  change : SubscriptionChange
  answer : Subscription
deriving DecidableEq

structure BillingState where
  now : ℕ := 0
  /-- The accounts that have a row. -/
  accounts : List Account := []
  rows : Table Account AccountRow := Table.empty
  customers : Table ℕ Customer := Table.empty
  nextCustomer : ℕ := 0
  /-- The customers that Stripe knows by their idempotency keys. -/
  remembered : Table String ℕ := Table.empty
  subscriptions : Table String Subscription := Table.empty
  updates : Table String Remembered := Table.empty

namespace BillingState
variable (s : BillingState)

/-- `customers.create` at Stripe: the customer of the key, none if it is refused. -/
def createCustomer (params : CustomerCreateParams) (idempotencyKey : String) :
    BillingState × Option ℕ :=
  match s.remembered idempotencyKey with
  | some id =>
    if (s.customers id).any (fun customer => customer.params = params) then (s, some id) else (s, none)
  | none =>
    ({ s with
        customers := s.customers.set s.nextCustomer ⟨params, idempotencyKey⟩
        nextCustomer := s.nextCustomer + 1
        remembered := s.remembered.set idempotencyKey s.nextCustomer },
      some s.nextCustomer)

/-- `subscriptions.update` at Stripe. -/
def updateSubscription (id : String) (change : SubscriptionChange) (idempotencyKey : String) :
    BillingState × Option Subscription :=
  match s.updates idempotencyKey, s.subscriptions id with
  | some remembered, _ =>
    (s, if remembered.subscriptionId = id ∧ remembered.change = change then some remembered.answer
      else none)
  | none, none => (s, none)
  | none, some subscription =>
    let answer := change.apply subscription
    ({ s with
        subscriptions := s.subscriptions.set id answer
        updates := s.updates.set idempotencyKey ⟨id, change, answer⟩ },
      some answer)

/-- Another row of the table has the customer, which violates its unique index. -/
def Taken (a : Account) (customer : ℕ) : Prop :=
  ∃ other ∈ s.accounts, other ≠ a ∧ other.table = a.table ∧
    (s.rows other).bind (·.stripeCustomerId) = some customer

instance (a : Account) (customer : ℕ) : Decidable (s.Taken a customer) :=
  inferInstanceAs (Decidable (∃ other ∈ s.accounts, _))

/-- The row of an account, as `getBillingUser` and `getBillingOrganization` find it. -/
def billingRow (a : Account) : Except Thrown AccountRow :=
  match (s.rows a).filter fun row => row.active ∧ row.deletedAt = none with
  | some row => .ok row
  | none =>
    .error (.app (notFound
      (match a with | .user _ => "User not found" | .organization _ => "Organization not found")))

/-- The update of the row with its customer. -/
def storeCustomer (a : Account) (customer : ℕ) : Except Thrown BillingState :=
  match (s.rows a).filter fun row => row.deletedAt = none with
  | none => .error (.prisma "P2025" "No record was found for an update.")
  | some row =>
    if s.Taken a customer then
      .error (.prisma "P2002" "Unique constraint failed on the fields: (`stripeCustomerId`)")
    else .ok { s with rows := s.rows.set a { row with stripeCustomerId := some customer } }

end BillingState

/-! ### Calls -/

inductive BillingAction
  /-- `ensureCustomer` alone. -/
  | ensureCustomer
  | cancelSubscription (subscriptionId : String)
  | resumeSubscription (subscriptionId : String)
  | changeSubscriptionPrice (subscriptionId priceKey : String) (prorationBehavior : ProrationBehavior)
deriving DecidableEq

def BillingAction.subscriptionId : BillingAction → Option String
  | .ensureCustomer => none
  | .cancelSubscription id | .resumeSubscription id | .changeSubscriptionPrice id _ _ => some id

structure BillingCall where
  owner : BillingOwner
  action : BillingAction
  businessIdempotencyKey : String
deriving DecidableEq

variable (hashMetadata : String → String) (catalog : String → Option String)

/-- The idempotency key of the update of a subscription. -/
def BillingCall.updateKey (call : BillingCall) : String :=
  (match call.action with
    | .ensureCustomer | .cancelSubscription _ => "subscription-cancel:"
    | .resumeSubscription _ => "subscription-resume:"
    | .changeSubscriptionPrice _ _ _ => "subscription-change:") ++
    (billingOwnerKey call.owner ++ ":" ++ hashMetadata call.businessIdempotencyKey)

def resolvePrice (priceKey : String) : Except Thrown (String × String) :=
  match catalog priceKey with
  | none => .error (.app (badRequest "The requested Stripe price is not available"))
  | some priceId => .ok (priceId, priceKey)

/-- The change that a call asks for, of a subscription that it has read. -/
def BillingCall.change (call : BillingCall) (subscription : Subscription) :
    Except Thrown SubscriptionChange :=
  match call.action with
  | .ensureCustomer | .cancelSubscription _ => .ok (.cancelAtPeriodEnd true)
  | .resumeSubscription _ => .ok (.cancelAtPeriodEnd false)
  | .changeSubscriptionPrice _ priceKey prorationBehavior =>
    match subscription.item with
    | none => .error (.app (conflict "Subscription has no changeable item"))
    | some item =>
      (resolvePrice catalog priceKey).map fun price =>
        .price { item with priceId := price.1 } prorationBehavior
          (mergeMetadata (billingOwnerMetadata call.owner) subscription.metadata) price.2

inductive BillingPc
  | getBilling
  | createCustomer (params : CustomerCreateParams)
  | storeCustomer (customer : ℕ)
  /-- The update was refused for the customer; the row is read again. -/
  | refresh (error : Thrown)
  /-- `ensureCustomer` has returned. -/
  | ensured (customer : ℕ)
  | updateSubscription (customer : ℕ) (change : SubscriptionChange)
  | returned (customer : ℕ) (subscription : Option Subscription)
  | thrown (error : Thrown)
deriving DecidableEq

def refused : Thrown := .error "StripeIdempotencyError"

def billingStep (s : BillingState) (call : BillingCall) (pc : BillingPc) (o : Outcome Thrown) :
    Option (BillingState × BillingPc) :=
  let a := account call.owner
  match pc with
  | .getBilling =>
    let next : BillingPc :=
      match s.billingRow a with
      | .error e => .thrown e
      | .ok row =>
        match row.stripeCustomerId with
        | some customer => .ensured customer
        | none => .createCustomer (customerCreateParams call.owner row)
    some (o.read s next .thrown)
  | .createCustomer params =>
    let created := s.createCustomer params (customerKey a)
    let next : BillingPc :=
      match created.2 with
      | some customer => .storeCustomer customer
      | none => .thrown refused
    some (o.run s created.1 next .thrown)
  | .storeCustomer customer =>
    match s.storeCustomer a customer with
    | .ok t => some (o.run s t (.ensured customer) .thrown)
    | .error e =>
      some (o.read s (match e with | .prisma "P2002" _ => .refresh e | _ => .thrown e) .thrown)
  | .refresh error =>
    let next : BillingPc :=
      match s.billingRow a with
      | .error e => .thrown e
      | .ok row =>
        match row.stripeCustomerId with
        | some customer => .ensured customer
        | none => .thrown error
    some (o.read s next .thrown)
  | .ensured customer =>
    match call.action.subscriptionId with
    | none => some (s, .returned customer none)
    | some id =>
      let next : BillingPc :=
        match s.subscriptions id with
        | none => .thrown (.error "StripeInvalidRequestError")
        | some subscription =>
          if subscription.customer ≠ customer then .thrown (.app (notFound "Subscription not found"))
          else
            match call.change catalog subscription with
            | .ok change => .updateSubscription customer change
            | .error e => .thrown e
      some (o.read s next .thrown)
  | .updateSubscription customer change =>
    match call.action.subscriptionId with
    | none => none
    | some id =>
      let updated := s.updateSubscription id change (call.updateKey hashMetadata)
      let next : BillingPc :=
        match updated.2 with
        | some subscription => .returned customer (some subscription)
        | none => .thrown refused
      some (o.run s updated.1 next .thrown)
  | .returned _ _ | .thrown _ => none

/-! ### The system -/

inductive BillingEvent
  | tick (ms : ℕ)
  | createAccount (a : Account) (email name : Option String)
  /-- The profile or the status of the account changes. -/
  | setProfile (a : Account) (email name : Option String) (active : Bool)
  /-- `deleteAccount`. -/
  | erase (a : Account)
  /-- A customer subscribes at Stripe. -/
  | subscribe (id : String) (subscription : Subscription)
  /-- Stripe changes the status of a subscription. -/
  | setStatus (id status : String)
  /-- Stripe forgets an idempotency key. -/
  | forgetCustomer (idempotencyKey : String)
  | forgetUpdate (idempotencyKey : String)

def billingEvent (s : BillingState) : BillingEvent → Option BillingState
  | .tick ms => some { s with now := s.now + ms }
  | .createAccount a email name =>
    match s.rows a with
    | some _ => none
    | none => some { s with accounts := s.accounts ++ [a], rows := s.rows.set a { email, name } }
  | .setProfile a email name active =>
    (s.rows a).map fun row => { s with rows := s.rows.set a { row with email, name, active } }
  | .erase a =>
    (s.rows a).map fun row => { s with rows := s.rows.set a (row.erased s.now) }
  | .subscribe id subscription =>
    match s.subscriptions id with
    | some _ => none
    | none => some { s with subscriptions := s.subscriptions.set id subscription }
  | .setStatus id status =>
    (s.subscriptions id).map fun subscription =>
      { s with subscriptions := s.subscriptions.set id { subscription with status } }
  | .forgetCustomer idempotencyKey => some { s with remembered := s.remembered.erase idempotencyKey }
  | .forgetUpdate idempotencyKey => some { s with updates := s.updates.erase idempotencyKey }

structure BillingProc where
  call : BillingCall
  pc : BillingPc
deriving DecidableEq

/-- **Billing**, any calls of any owners beside each other. -/
def billing : Program BillingState BillingProc BillingCall (Outcome Thrown) BillingEvent where
  init := {}
  spawn s _ call := some (s, ⟨call, .getBilling⟩)
  step s _ p o := (billingStep hashMetadata catalog s p.call p.pc o).map fun r => (r.1, ⟨p.call, r.2⟩)
  env := billingEvent

abbrev BillingWorld := World BillingState BillingProc

abbrev BillingLabel := Label BillingCall (Outcome Thrown) BillingEvent

end BackendFoundation.Stripe.Customers
