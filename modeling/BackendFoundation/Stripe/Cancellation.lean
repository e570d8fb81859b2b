import BackendFoundation.Errors
import BackendFoundation.Lib.Calls
import BackendFoundation.Lib.GrowingList
import BackendFoundation.Lib.Interleave

/-! # Cancelling the subscriptions of an erased account

`cancelCustomerSubscriptions` of `stripe.subscriptions.service.ts`, the part of `processAccountErasure`
that calls Stripe: it lists the subscriptions of a customer in pages of 100 and cancels those that are not
at an end, a request a step, beside other calls of it and beside what else happens at Stripe.

Stripe lists the newest subscription first, ends a subscription for good, and refuses to cancel one that
is at its end. -/

namespace BackendFoundation.Stripe.Cancellation

open Errors Lib Lib.GrowingList Lib.Interleave

structure Subscription where
  id : String
  customer : String
  status : String
deriving DecidableEq

/-- `['canceled', 'incomplete_expired'].includes(status)` -/
def Subscription.Ended (subscription : Subscription) : Prop :=
  subscription.status = "canceled" ∨ subscription.status = "incomplete_expired"

instance : DecidablePred Subscription.Ended := fun subscription =>
  inferInstanceAs (Decidable (subscription.status = "canceled" ∨ _))

/-- The subscriptions at Stripe, the newest one first. -/
abbrev Subscriptions := List Subscription

/-- Stripe gives the subscription a status, unless it is at its end. -/
def setStatus (id status : String) (subscription : Subscription) : Subscription :=
  if subscription.id = id ∧ ¬ subscription.Ended then { subscription with status } else subscription

/-- A page of `subscriptions.list`. -/
structure SubscriptionPage where
  data : List Subscription
  hasMore : Bool
deriving DecidableEq

def ofCustomer (customer : String) (s : Subscriptions) : List Subscription :=
  s.filter (·.customer = customer)

/-- What the page behind a subscription, or the first one, and those behind it have. -/
def listed (customer : String) (startingAfter : Option String) (s : Subscriptions) : List Subscription :=
  left Subscription.id startingAfter (ofCustomer customer s)

def listSubscriptions (customer : String) (limit : ℕ) (startingAfter : Option String)
    (s : Subscriptions) : SubscriptionPage where
  data := (listed customer startingAfter s).take limit
  hasMore := limit < (listed customer startingAfter s).length

/-- `subscriptions.cancel` -/
def cancel (id : String) (s : Subscriptions) : Except Thrown Subscriptions :=
  if s.any fun subscription => subscription.id = id ∧ ¬ subscription.Ended then
    .ok (s.map (setStatus id "canceled"))
  else .error (.error "StripeInvalidRequestError")

/-! ### Calls -/

inductive CancelPc
  | list (startingAfter : Option String) (canceled : ℕ)
  /-- The rest of a page, and the subscription behind which the next one is, if there is one. -/
  | page (rest : List Subscription) (startingAfter : Option String) (canceled : ℕ)
  | returned (canceled : ℕ)
  | thrown (e : Thrown)
deriving DecidableEq

/-- `startingAfter = page.has_more ? page.data.at(-1)?.id : undefined` -/
def SubscriptionPage.last? (page : SubscriptionPage) : Option String :=
  if page.hasMore then page.data.getLast?.map (·.id) else none

def cancelStep (s : Subscriptions) (stripeCustomerId : String) (pc : CancelPc) (o : Outcome Thrown) :
    Option (Subscriptions × CancelPc) :=
  match pc with
  | .list startingAfter canceled =>
    let page := listSubscriptions stripeCustomerId 100 startingAfter s
    some (o.read s (.page page.data page.last? canceled) .thrown)
  | .page [] (some startingAfter) canceled => some (s, .list (some startingAfter) canceled)
  | .page [] none canceled => some (s, .returned canceled)
  | .page (subscription :: rest) startingAfter canceled =>
    if subscription.Ended then some (s, .page rest startingAfter canceled)
    else
      match cancel subscription.id s with
      | .ok t => some (o.run s t (.page rest startingAfter (canceled + 1)) .thrown)
      | .error e => some (o.read s (.thrown e) .thrown)
  | .returned _ | .thrown _ => none

/-! ### The system -/

inductive SubscriptionEvent
  /-- A customer subscribes. -/
  | subscribe (subscription : Subscription)
  | setStatus (id status : String)

def subscriptionEvent (s : Subscriptions) : SubscriptionEvent → Option Subscriptions
  | .subscribe subscription =>
    if subscription.id ∈ s.map (·.id) then none else some (subscription :: s)
  | .setStatus id status => some (s.map (Cancellation.setStatus id status))

structure CancelProc where
  stripeCustomerId : String
  pc : CancelPc
deriving DecidableEq

/-- **The cancellations**, of any customers and any number of times. -/
def cancellations : Program Subscriptions CancelProc String (Outcome Thrown) SubscriptionEvent where
  init := []
  spawn s _ stripeCustomerId := some (s, ⟨stripeCustomerId, .list none 0⟩)
  step s _ p o := (cancelStep s p.stripeCustomerId p.pc o).map fun r => (r.1, ⟨p.stripeCustomerId, r.2⟩)
  env := subscriptionEvent

abbrev CancelWorld := World Subscriptions CancelProc

end BackendFoundation.Stripe.Cancellation
