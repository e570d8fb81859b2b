import BackendFoundation.Lib.Logs
import BackendFoundation.Lib.Schema
import BackendFoundation.Stripe.WebhookModel

/-! # The calls on saved cards

`setDefaultPaymentMethod` and `detachPaymentMethod` of `stripe.payment-methods.service.ts`, and the
transactions of `processStoredStripeEvent` for an updated customer, a saved card and a detached one.
A call executes a statement, or a row of one, a step; a statement may fail for any reason, and a call
that Stripe refuses ends there, as if it had crashed. A transaction that is tried again is a call of
its own. The rows of other tables are left out; nothing changes a subscription.

A card is named by its Stripe id, which is unique. The owner of a call is the one that it resolves, or
the one that the object of the event is attributed to. -/

namespace BackendFoundation.Stripe.PaymentMethods

open Lib.Database Lib.Interleave Lib.Transact Lib.Schema Lib.Services Errors Stripe.Objects
open Stripe.WebhookModel (PaymentMethod CardDetails OwnedBy attachedRow)

/-! ### Rows -/

structure Subscription where
  userId : String
  organizationId : Option String := none
  status : String
  deletedAt : Option ℤ := none
deriving DecidableEq

inductive Relation
  | card | subscription
  /-- The advisory locks of the objects of events. -/
  | object
deriving DecidableEq

abbrev Id : Relation → Type := fun _ => String

abbrev Row : Relation → Type
  | .card => PaymentMethod
  | .subscription => Subscription
  | .object => Empty

instance : ∀ t, DecidableEq (Id t) := fun _ => inferInstanceAs (DecidableEq String)

instance : ∀ t, DecidableEq (Row t)
  | .card => inferInstanceAs (DecidableEq PaymentMethod)
  | .subscription => inferInstanceAs (DecidableEq Subscription)
  | .object => inferInstanceAs (DecidableEq Empty)

abbrev CardKey := Key Id

abbrev CardRow := RowOf Id Row

abbrev CardRows := Rows CardRow

abbrev CardStmt := Stmt CardRow

abbrev CardUpdate (t : Relation) := Update Id Row t

/-- The entity that is billed; the records carry the user who acted all the same. -/
inductive BilledTo
  | organization (id : String)
  | user (id : String)
deriving DecidableEq

def billedTo (userId : String) : Option String → BilledTo
  | some organizationId => .organization organizationId
  | none => .user userId

/-- The owner that a row is billed to. -/
def owner (row : PaymentMethod) : BilledTo := billedTo row.userId row.organizationId

def ownerOf (attribution : StripeAttribution) : BilledTo :=
  billedTo attribution.userId attribution.organizationId

theorem ownedBy_iff {attribution : StripeAttribution} {row : PaymentMethod} :
    OwnedBy attribution row ↔ owner row = ownerOf attribution := by
  obtain ⟨userId, organizationId⟩ := attribution
  unfold OwnedBy owner ownerOf billedTo
  cases organizationId <;> cases row.organizationId <;> simp

def Attached (row : PaymentMethod) : Prop := row.detachedAt = none ∧ row.deletedAt = none

instance : DecidablePred Attached := fun _ => inferInstanceAs (Decidable (_ ∧ _))

def Subscription.active (owner : BilledTo) (subscription : Subscription) : Bool :=
  billedTo subscription.userId subscription.organizationId = owner ∧
    subscription.deletedAt = none ∧ subscription.status ∈ ["active", "trialing", "past_due"]

/-- The number of active subscriptions of the owner. -/
def countSubscriptions (rows : CardRows) (keys : List CardKey) (attribution : StripeAttribution) : ℕ :=
  (findMany rows keys .subscription fun _ => Subscription.active (ownerOf attribution)).length

/-- The number of attached cards of the owner. -/
def countMethods (rows : CardRows) (keys : List CardKey) (attribution : StripeAttribution) : ℕ :=
  (findMany rows keys .card fun _ row => OwnedBy attribution row ∧ Attached row).length

/-! ### Calls -/

inductive CardRequest
  | setDefaultPaymentMethod (attribution : StripeAttribution) (id : String)
  | detachPaymentMethod (attribution : StripeAttribution) (id : String)
  /-- `customer.updated`, with the default card of the customer. -/
  | customerUpdated (attribution : StripeAttribution) (customerId : String) (defaultId : Option String)
  /-- An intent has succeeded that saves the card. -/
  | intentSucceeded (attribution : StripeAttribution) (intentId id : String) (details : CardDetails)
  /-- `payment_method.detached`. -/
  | paymentMethodDetached (id : String)
deriving DecidableEq

inductive SetPc
  | findOwned
  | updateCustomer
  | clear
  | set
  | findDefault
  | commit
deriving DecidableEq

inductive DetachPc
  | findOwned
  | countSubscriptions
  | countMethods (activeSubscriptions : ℕ)
  | detach
  | update (now : ℤ)
  | commit (now : ℤ)
deriving DecidableEq

inductive CustomerPc
  | lock (defaultId : Option String)
  | clear (defaultId : Option String)
  | set (id : String)
  /-- `found` says that the second update has found the card. -/
  | commit (defaultId : Option String) (found : Bool)
deriving DecidableEq

inductive SavePc
  | lock
  | update
  | insert
  | commit
deriving DecidableEq

inductive DetachedPc
  | lock
  | update (now : ℤ)
  | commit (now : ℤ)
deriving DecidableEq

inductive CardPc
  | setDefault (attribution : StripeAttribution) (id : String) (pc : SetPc)
  | detach (attribution : StripeAttribution) (id : String) (pc : DetachPc)
  | customer (attribution : StripeAttribution) (customerId : String) (pc : CustomerPc)
  | save (attribution : StripeAttribution) (intentId id : String) (details : CardDetails)
      (pc : SavePc)
  | detached (id : String) (pc : DetachedPc)
  | returned
  | thrown (error : Thrown)
deriving DecidableEq

/-- Where a call goes on, or what it throws. -/
abbrev Next := Option (Except Thrown CardPc)

/-- `update` or `findFirstOrThrow` finds no row. -/
def missing : Thrown := .prisma "P2025" "No record was found for an update."

/-- After an `update` of one row. -/
def required (n : ℕ) (pc : CardPc) : Except Thrown CardPc := if n = 0 then .error missing else .ok pc

/-- `findOwnedPaymentMethod`. -/
def findOwned (rows : CardRows) (attribution : StripeAttribution) (id : String) (pc : CardPc) :
    Except Thrown CardPc :=
  if (rows ⟨.card, id⟩).any fun row => OwnedBy attribution row ∧ Attached row then .ok pc
  else .error (.app (notFound "Payment method not found"))

/-! ### The default card -/

/-- The default of the owner is cleared. -/
def clearDefault (attribution : StripeAttribution) : CardUpdate .card where
  cond _ row := OwnedBy attribution row ∧ row.isDefault = true ∧ row.deletedAt = none
  data row := { row with isDefault := false }

/-- The update of `setDefaultPaymentMethod`. -/
def setDefault (attribution : StripeAttribution) (id : String) : CardUpdate .card where
  cond id' row := id' = id ∧ OwnedBy attribution row ∧ row.deletedAt = none
  data row := { row with isDefault := true }

/-- The update of `customer.updated`. -/
def projectDefault (attribution : StripeAttribution) (id : String) : CardUpdate .card where
  cond id' row := id' = id ∧ OwnedBy attribution row ∧ Attached row
  data row := { row with isDefault := true }

def setStmt (attribution : StripeAttribution) (id : String) : SetPc → Option CardStmt
  | .findOwned | .findDefault => some .read
  | .updateCustomer => none
  | .clear => some (clearDefault attribution).stmt
  | .set => some (setDefault attribution id).stmt
  | .commit => some .commit

def setNext (attribution : StripeAttribution) (id : String) : SetPc → Reply CardRow → Next
  | .findOwned, .rows rows =>
    some (findOwned rows attribution id (.setDefault attribution id .updateCustomer))
  | .clear, .count _ => some (.ok (.setDefault attribution id .set))
  | .set, .count n => some (required n (.setDefault attribution id .findDefault))
  | .findDefault, .rows rows =>
    some (
      if (rows ⟨.card, id⟩).any fun row => OwnedBy attribution row ∧ row.deletedAt = none then
        .ok (.setDefault attribution id .commit)
      else .error missing)
  | .commit, .done => some (.ok .returned)
  | _, _ => none

def customerStmt (attribution : StripeAttribution) (customerId : String) :
    CustomerPc → Option CardStmt
  | .lock _ => some (.lock ⟨.object, customerId⟩)
  | .clear _ => some (clearDefault attribution).stmt
  | .set id => some (projectDefault attribution id).stmt
  | .commit .. => some .commit

def customerNext (attribution : StripeAttribution) (customerId : String) :
    CustomerPc → Reply CardRow → Next
  | .lock defaultId, .done => some (.ok (.customer attribution customerId (.clear defaultId)))
  | .clear defaultId, .count _ =>
    some (.ok (.customer attribution customerId (
      match defaultId with
      | some id => .set id
      | none => .commit none false)))
  | .set id, .count n =>
    some (.ok (.customer attribution customerId (.commit (some id) (n ≠ 0))))
  | .commit .., .done => some (.ok .returned)
  | _, _ => none

/-! ### Attached and detached cards -/

/-- The update of `detachPaymentMethod`. -/
def detachOwned (attribution : StripeAttribution) (id : String) (now : ℤ) : CardUpdate .card where
  cond id' row := id' = id ∧ OwnedBy attribution row ∧ row.deletedAt = none
  data row := { row with detachedAt := some now, deletedAt := some now, isDefault := false }

/-- The update of `payment_method.detached`. -/
def projectDetached (id : String) (now : ℤ) : CardUpdate .card where
  cond id' row := id' = id ∧ Attached row
  data row := { row with detachedAt := some now, deletedAt := some now, isDefault := false }

/-- The upsert of `projectAttachedPaymentMethod`. -/
def projectAttached (attribution : StripeAttribution) (id : String) (details : CardDetails) :
    Upsert Id Row .card where
  id := id
  row := attachedRow attribution details none
  data row := attachedRow attribution details (some row)

def lastMethod : Thrown :=
  .app (conflict
    "Add another payment method before removing the last one while a subscription is active")

def detachStmt (attribution : StripeAttribution) (id : String) : DetachPc → Option CardStmt
  | .findOwned | .countSubscriptions | .countMethods _ => some .read
  | .detach => none
  | .update now => some (detachOwned attribution id now).stmt
  | .commit _ => some .commit

def detachNext (site : Site CardKey) (attribution : StripeAttribution) (id : String) :
    DetachPc → Reply CardRow → Next
  | .findOwned, .rows rows =>
    some (findOwned rows attribution id (.detach attribution id .countSubscriptions))
  | .countSubscriptions, .rows rows =>
    some (.ok (.detach attribution id
      (.countMethods (countSubscriptions rows site.keys attribution))))
  | .countMethods activeSubscriptions, .rows rows =>
    some (
      if 0 < activeSubscriptions ∧ countMethods rows site.keys attribution ≤ 1 then
        .error lastMethod
      else .ok (.detach attribution id .detach))
  | .update now, .count n => some (required n (.detach attribution id (.commit now)))
  | .commit _, .done => some (.ok .returned)
  | _, _ => none

def saveStmt (attribution : StripeAttribution) (intentId id : String) (details : CardDetails) :
    SavePc → Option CardStmt
  | .lock => some (.lock ⟨.object, intentId⟩)
  | .update => some (projectAttached attribution id details).update.stmt
  | .insert => some (.insert ⟨.card, id⟩ (attachedRow attribution details none))
  | .commit => some .commit

/-- The upsert is an update, and an insert if there is no row. -/
def saveNext (attribution : StripeAttribution) (intentId id : String) (details : CardDetails) :
    SavePc → Reply CardRow → Next
  | .lock, .done => some (.ok (.save attribution intentId id details .update))
  | .update, .count n =>
    some (.ok (.save attribution intentId id details (if n = 0 then .insert else .commit)))
  | .insert, .done => some (.ok (.save attribution intentId id details .commit))
  | .commit, .done => some (.ok .returned)
  | _, _ => none

def detachedStmt (id : String) : DetachedPc → Option CardStmt
  | .lock => some (.lock ⟨.object, id⟩)
  | .update now => some (projectDetached id now).stmt
  | .commit _ => some .commit

def detachedNext (site : Site CardKey) (id : String) : DetachedPc → Reply CardRow → Next
  | .lock, .done => some (.ok (.detached id (.update site.now)))
  | .update now, .count _ => some (.ok (.detached id (.commit now)))
  | .commit _, .done => some (.ok .returned)
  | _, _ => none

/-! ### The service -/

def cardStmt : CardPc → Option CardStmt
  | .setDefault attribution id pc => setStmt attribution id pc
  | .detach attribution id pc => detachStmt attribution id pc
  | .customer attribution customerId pc => customerStmt attribution customerId pc
  | .save attribution intentId id details pc => saveStmt attribution intentId id details pc
  | .detached id pc => detachedStmt id pc
  | .returned | .thrown _ => none

def cardNext (site : Site CardKey) : CardPc → Reply CardRow → Next
  | .setDefault attribution id pc, reply => setNext attribution id pc reply
  | .detach attribution id pc, reply => detachNext site attribution id pc reply
  | .customer attribution customerId pc, reply => customerNext attribution customerId pc reply
  | .save attribution intentId id details pc, reply => saveNext attribution intentId id details pc reply
  | .detached id pc, reply => detachedNext site id pc reply
  | .returned, _ | .thrown _, _ => none

def cardOutside (site : Site CardKey) (memory : Unit) : CardPc → Option (Unit × CardPc)
  | .setDefault attribution id .updateCustomer => some (memory, .setDefault attribution id .clear)
  | .detach attribution id .detach => some (memory, .detach attribution id (.update site.now))
  | _ => none

def startPc : CardRequest → CardPc
  | .setDefaultPaymentMethod attribution id => .setDefault attribution id .findOwned
  | .detachPaymentMethod attribution id => .detach attribution id .findOwned
  | .customerUpdated attribution customerId defaultId =>
    .customer attribution customerId (.lock defaultId)
  | .intentSucceeded attribution intentId id details => .save attribution intentId id details .lock
  | .paymentMethodDetached id => .detached id .lock

/-- What there is before the calls. -/
structure CardConfig where
  rows : CardRows
  keys : List CardKey
  listed : ∀ k, rows k ≠ none → k ∈ keys

/-- **The calls on saved cards.** -/
def cards (cfg : CardConfig) : Service CardRow CardPc CardRequest Unit Empty Thrown where
  rows := cfg.rows
  keys := cfg.keys
  memory := ()
  start _ request := startPc request
  stmt := cardStmt
  next := cardNext
  outside := cardOutside
  record _ _ memory := memory
  thrown := .thrown
  errors := ⟨.prisma "P2002" "Unique constraint failed", .prisma "P2034" "Write conflict"⟩
  event _ e := e.elim

abbrev CardWorld := ServiceWorld CardRow CardPc Unit

abbrev CardLabel := ServiceLabel CardRequest Empty Thrown

/-! ### An example -/

def exampleOwner : StripeAttribution := ⟨"user", none⟩

def exampleCard : PaymentMethod := { userId := "user", organizationId := none, type := "card" }

end BackendFoundation.Stripe.PaymentMethods
