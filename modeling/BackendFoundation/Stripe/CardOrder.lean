import BackendFoundation.Stripe.CardActions
import Mathlib.Data.Nat.Basic

/-! # Saved cards and the order of the events

The events of a customer are processed while Stripe's objects stay as they are. Each event takes one
action on the row of each card (`actionOf`), and `card_order_iff` says when all orders leave the rows
that agree with Stripe: for each card of the customer, by its row before and by its actions
(`Sound`).

Nothing looks at whether the card that an intent has saved is still attached, and the reconciliation
of the default skips a card without a row. So a late event of an intent brings a detached card back
(`late_intent`). -/

namespace BackendFoundation.Stripe.CardOrder

open Lib Stripe.Objects Stripe.WebhookModel Stripe.CardActions

variable {EventId : Type*} {directory : Directory} {client : StripeClient}
  {customerId cardId : String} {e : StripeWebhookEvent EventId} {rows : BillingRows EventId}
  {E : List (StripeWebhookEvent EventId)} {now : ℤ}

/-! ### Stripe -/

/-- The customer to which a card is attached. -/
def cardCustomer (client : StripeClient) (cardId : String) : Option String :=
  referenceId ((client .paymentMethod cardId).get "customer")

/-- The card belongs to the customer, or is detached. -/
def OfCustomer (client : StripeClient) (customerId cardId : String) : Prop :=
  cardCustomer client cardId = none ∨ cardCustomer client cardId = some customerId

def Attached (client : StripeClient) (customerId cardId : String) : Prop :=
  cardCustomer client cardId = some customerId

/-- The customer names the card as the default of its invoices. -/
def named (client : StripeClient) (customerId cardId : String) : Bool :=
  defaultPaymentMethodId (client .customer customerId) = some cardId

/-- The attached card that the customer names as the default of its invoices. -/
def isInvoiceDefault (client : StripeClient) (customerId cardId : String) : Bool :=
  cardCustomer client cardId = some customerId ∧ named client customerId cardId

def currentDetails (client : StripeClient) (cardId : String) : CardDetails :=
  cardDetails (client .paymentMethod cardId)

/-- Stripe answers an id, which is not empty, with the object that has this id. -/
def AnswersIds (client : StripeClient) : Prop :=
  ∀ resource id, id.length > 0 → stringValue ((client resource id).get "id") = some id

/-! ### Events -/

def currentObject (client : StripeClient) (e : StripeWebhookEvent EventId) : StripeValue :=
  (retrieveCurrentStripeObject e.type e.object (some client)).1

def cardTypes : List EventType :=
  [.setupIntent "succeeded", .paymentIntent "succeeded", .paymentMethod "updated",
    .paymentMethod "automatically_updated", .paymentMethod "detached", .customer "updated"]

/-- An event of the customer about saved cards, which names its object. -/
def About (customerId : String) (e : StripeWebhookEvent EventId) : Prop :=
  e.type ∈ cardTypes ∧ (stringValue (e.object.get "id")).isSome = true ∧
    (e.type = .customer "updated" → stringValue (e.object.get "id") = some customerId)

/-- What an intent does to the row of the card. -/
def savedAction (cardId : String) : Option StripeAttribution → Option String → CardAction
  | some attribution, some id => if id = cardId then .save attribution else .nothing
  | _, _ => .nothing

/-- What the event does to the row of the card. -/
def actionOf (directory : Directory) (client : StripeClient) (cardId : String)
    (e : StripeWebhookEvent EventId) : CardAction :=
  let object := currentObject client e
  match e.type with
  | .setupIntent "succeeded" | .paymentIntent "succeeded" =>
    savedAction cardId (attributionForStripeObject directory object)
      (savedPaymentMethodId e.type object)
  | .paymentMethod "detached" =>
    if stringValue (e.object.get "id") = some cardId then .detach else .nothing
  | .paymentMethod "updated" | .paymentMethod "automatically_updated" =>
    if stringValue (e.object.get "id") = some cardId then .refresh else .nothing
  | .customer "updated" =>
    match attributionForStripeObject directory object with
    | some attribution =>
      .reconcile attribution (defaultPaymentMethodId object = some cardId)
    | none => .nothing
  | _ => .nothing

/-! ### The rows -/

section Rows

variable {methods : Table String PaymentMethod} {attribution : StripeAttribution}
  {object : StripeValue} {id : String}

theorem projectAttached_apply (hid : stringValue (object.get "id") = some id) :
    projectAttachedPaymentMethod methods attribution object cardId =
      if id = cardId then
        act (cardDetails object) now (methods cardId) (.save attribution)
      else methods cardId := by
  simp only [projectAttachedPaymentMethod, hid]
  split_ifs with h
  · rw [h, Table.set_self]
    rfl
  · exact Table.set_of_ne (Ne.symm h)

theorem projectDetached_apply (hid : stringValue (object.get "id") = some id)
    {details : CardDetails} :
    projectDetached methods object now cardId =
      if id = cardId then act details now (methods cardId) .detach else methods cardId := by
  simp only [projectDetached, hid, Table.updateWhere_apply]
  rfl

theorem projectUpdated_apply (hid : stringValue (object.get "id") = some id) :
    projectUpdated methods object cardId =
      if id = cardId then act (cardDetails object) now (methods cardId) .refresh
      else methods cardId := by
  simp only [projectUpdated, hid, Table.updateWhere_apply]
  rfl

theorem projectCustomer_apply {details : CardDetails} :
    projectCustomer methods attribution object cardId =
      act details now (methods cardId)
        (.reconcile attribution (defaultPaymentMethodId object = some cardId)) := by
  have hcleared : ∀ id, methods.updateAll
      (fun _ row => OwnedBy attribution row ∧ row.isDefault = true ∧ row.deletedAt = none)
      (fun _ row => { row with isDefault := false }) id =
        (methods id).map fun row =>
          if OwnedBy attribution row ∧ row.isDefault = true ∧ row.deletedAt = none then
            flagged false row
          else row := fun _ => rfl
  unfold projectCustomer
  cases hd : defaultPaymentMethodId object with
  | none =>
    refine (hcleared cardId).trans ?_
    simp [act, Function.comp_def]
  | some id =>
    simp only [Table.updateWhere_apply, hcleared, act]
    split_ifs with hid
    · subst hid
      simp only [decide_true, true_and]
      rfl
    · simp [hid, Function.comp_def]

/-! A card whose rows are well-formed keeps them so. -/

theorem wellFormed_projectDetached
    (hw : ∀ id, ∀ row ∈ methods id, WellFormed row) (cardId : String) :
    ∀ row ∈ projectDetached methods object now cardId, WellFormed row := by
  cases hid : stringValue (object.get "id") with
  | none =>
    rw [projectDetached, hid]
    exact hw cardId
  | some id =>
    rw [@projectDetached_apply _ _ _ _ _ hid (cardDetails object)]
    split_ifs
    · exact wellFormed_act (hw cardId)
    · exact hw cardId

theorem wellFormed_projectUpdated
    (hw : ∀ id, ∀ row ∈ methods id, WellFormed row) (cardId : String) :
    ∀ row ∈ projectUpdated methods object cardId, WellFormed row := by
  cases hid : stringValue (object.get "id") with
  | none =>
    rw [projectUpdated, hid]
    exact hw cardId
  | some id =>
    rw [@projectUpdated_apply _ 0 _ _ _ hid]
    split_ifs
    · exact wellFormed_act (hw cardId)
    · exact hw cardId

theorem wellFormed_projectSaved {attribution : Option StripeAttribution}
    {saved : Option StripeValue} (hw : ∀ id, ∀ row ∈ methods id, WellFormed row)
    (cardId : String) :
    ∀ row ∈ projectSavedPaymentMethod methods attribution saved cardId, WellFormed row := by
  cases attribution with
  | none => exact hw cardId
  | some attribution =>
    cases saved with
    | none => exact hw cardId
    | some saved =>
      simp only [projectSavedPaymentMethod]
      cases hid : stringValue (saved.get "id") with
      | none =>
        rw [projectAttachedPaymentMethod, hid]
        exact hw cardId
      | some id =>
        rw [@projectAttached_apply _ 0 _ _ _ _ hid]
        split_ifs
        · exact wellFormed_act (hw cardId)
        · exact hw cardId

theorem wellFormed_projectCardEvent {attribution : Option StripeAttribution} {type : EventType}
    (hw : ∀ id, ∀ row ∈ methods id, WellFormed row) (cardId : String) :
    ∀ row ∈ projectCardEvent methods attribution type object now cardId, WellFormed row := by
  have hcustomer : ∀ attribution : StripeAttribution,
      ∀ row ∈ projectCustomer methods attribution object cardId, WellFormed row := by
    intro attribution
    rw [@projectCustomer_apply _ 0 _ _ _ (cardDetails object)]
    exact wellFormed_act (hw cardId)
  cases attribution <;> simp only [projectCardEvent] <;> split
  all_goals first
    | exact wellFormed_projectDetached hw cardId
    | exact wellFormed_projectUpdated hw cardId
    | exact hcustomer _
    | exact hw cardId

end Rows

variable {type : EventType} {resource : Resource}

theorem retrieve_eq {object : StripeValue} {id : String}
    (hid : stringValue (object.get "id") = some id) (hr : type.resource = some resource) :
    retrieveCurrentStripeObject type object (some client) = (client resource id, true) := by
  simp [retrieveCurrentStripeObject, hid, hr]

theorem currentObject_eq {eventId : EventId} {createdAt : ℤ} {object : StripeValue} {id : String}
    (hid : stringValue (object.get "id") = some id) (hr : type.resource = some resource) :
    currentObject client ⟨eventId, createdAt, type, object⟩ = client resource id :=
  congrArg Prod.fst (retrieve_eq hid hr)

theorem savedPaymentMethodId_length {object : StripeValue} {id : String}
    (h : savedPaymentMethodId type object = some id) : id.length > 0 := by
  unfold savedPaymentMethodId at h
  split_ifs at h
  exact referenceId_length h

theorem projectSaved_apply (hclient : AnswersIds client) {methods : Table String PaymentMethod}
    {attribution : Option StripeAttribution} {saved : Option String}
    (hsaved : ∀ id, saved = some id → id.length > 0) :
    projectSavedPaymentMethod methods attribution
        (retrieveSavedPaymentMethod saved (some client)) cardId =
      act (currentDetails client cardId) now (methods cardId)
        (savedAction cardId attribution saved) := by
  cases attribution with
  | none => rfl
  | some attribution =>
    cases saved with
    | none => rfl
    | some id =>
      simp only [projectSavedPaymentMethod, retrieveSavedPaymentMethod, savedAction]
      rw [@projectAttached_apply _ now _ _ _ _ (hclient _ _ (hsaved id rfl))]
      split_ifs with h
      · subst h
        rfl
      · rfl

theorem projectSaved_of_not_intent {methods : Table String PaymentMethod}
    {attribution : Option StripeAttribution} {object : StripeValue}
    (hs : type ≠ .setupIntent "succeeded") (hp : type ≠ .paymentIntent "succeeded") :
    projectSavedPaymentMethod methods attribution
        (retrieveSavedPaymentMethod (savedPaymentMethodId type object) (some client)) =
      methods := by
  have hnone : savedPaymentMethodId type object = none := by simp [savedPaymentMethodId, hs, hp]
  rw [hnone]
  cases attribution <;> rfl

theorem act_ite {details : CardDetails} {r : Option PaymentMethod} {id : String}
    {action : CardAction} :
    act details now r (if some id = some cardId then action else .nothing) =
      if id = cardId then act details now r action else r := by
  simp only [Option.some.injEq]
  split_ifs <;> rfl

variable [LinearOrder EventId]

theorem paymentMethods_of_retrieved {eventId : EventId} {createdAt : ℤ} {object : StripeValue}
    {id : String} (hid : stringValue (object.get "id") = some id)
    (hr : type.resource = some resource) :
    (processStoredStripeEvent directory (some client) now rows
        ⟨eventId, createdAt, type, object⟩).paymentMethods =
      projectCards rows.paymentMethods (attributionForStripeObject directory (client resource id))
        type (client resource id)
        (retrieveSavedPaymentMethod (savedPaymentMethodId type (client resource id)) (some client))
        now := by
  simp only [processStoredStripeEvent, projectObject, retrieve_eq hid hr]

/-- **One event and one card.** -/
theorem paymentMethods_processStoredStripeEvent (hclient : AnswersIds client)
    (h : About customerId e) :
    (processStoredStripeEvent directory (some client) now rows e).paymentMethods cardId =
      act (currentDetails client cardId) now (rows.paymentMethods cardId)
        (actionOf directory client cardId e) := by
  obtain ⟨eventId, createdAt, type, object⟩ := e
  obtain ⟨ht, hsome, -⟩ := h
  obtain ⟨id, hid⟩ : ∃ id, stringValue (object.get "id") = some id :=
    Option.isSome_iff_exists.mp hsome
  simp only [cardTypes, List.mem_cons, List.not_mem_nil, or_false] at ht
  rcases ht with rfl | rfl | rfl | rfl | rfl | rfl <;>
    rw [paymentMethods_of_retrieved hid rfl] <;>
    simp only [projectCards, projectCardEvent, actionOf]
  · rw [currentObject_eq hid rfl]
    exact projectSaved_apply hclient fun _ => savedPaymentMethodId_length
  · rw [currentObject_eq hid rfl]
    exact projectSaved_apply hclient fun _ => savedPaymentMethodId_length
  · rw [projectSaved_of_not_intent (by simp) (by simp),
      @projectUpdated_apply _ now _ _ _ (hclient _ _ (stringValue_length hid)), hid, act_ite]
    split_ifs with h
    · subst h
      rfl
    · rfl
  · rw [projectSaved_of_not_intent (by simp) (by simp),
      @projectUpdated_apply _ now _ _ _ (hclient _ _ (stringValue_length hid)), hid, act_ite]
    split_ifs with h
    · subst h
      rfl
    · rfl
  · rw [projectSaved_of_not_intent (by simp) (by simp),
      projectDetached_apply (hclient _ _ (stringValue_length hid)), hid, act_ite]
  · rw [projectSaved_of_not_intent (by simp) (by simp), currentObject_eq hid rfl]
    cases attributionForStripeObject directory (client .customer id) with
    | none => rfl
    | some attribution => exact projectCustomer_apply

theorem paymentMethods_processStoredStripeEvents (hclient : AnswersIds client)
    {processed : List (ℤ × StripeWebhookEvent EventId)}
    (h : ∀ run ∈ processed, About customerId run.2) :
    (processStoredStripeEvents directory (some client) rows processed).paymentMethods cardId =
      after (currentDetails client cardId) (rows.paymentMethods cardId)
        (processed.map (Prod.map id (actionOf directory client cardId))) := by
  induction processed generalizing rows with
  | nil => rfl
  | cons run processed ih =>
    have hrest := @ih (processStoredStripeEvent directory (some client) run.1 rows run.2)
      fun run' hr => h run' (List.mem_cons_of_mem run hr)
    rw [paymentMethods_processStoredStripeEvent hclient (h run List.mem_cons_self)] at hrest
    exact hrest

theorem wellFormed_processStoredStripeEvent {stripeClient : Option StripeClient}
    (hw : ∀ id, ∀ row ∈ rows.paymentMethods id, WellFormed row) (id : String) :
    ∀ row ∈ (processStoredStripeEvent directory stripeClient now rows e).paymentMethods id,
      WellFormed row :=
  wellFormed_projectCardEvent (wellFormed_projectSaved hw) id

omit [LinearOrder EventId] in
theorem saves_ne {attribution : Option StripeAttribution} {saved : Option String}
    {action : CardAction} (hs : ∀ a, action ≠ .save a) (hn : action ≠ .nothing) :
    savedAction cardId attribution saved ≠ action := by
  unfold savedAction
  split
  · split_ifs
    · exact (hs _).symm
    · exact hn.symm
  · exact hn.symm

omit [LinearOrder EventId] in
theorem consistent (hE : ∀ e ∈ E, About customerId e)
    (hdetached : ∀ e ∈ E, e.type = .paymentMethod "detached" →
      ∀ id ∈ stringValue (e.object.get "id"), cardCustomer client id = none) :
    Consistent (Attached client customerId cardId) (isInvoiceDefault client customerId cardId)
      (E.map (actionOf directory client cardId)) := by
  have hreconcile : ∀ c d, .reconcile c d ∈ E.map (actionOf directory client cardId) →
      attributionForStripeObject directory (client .customer customerId) = some c ∧
        d = named client customerId cardId := by
    intro c d hm
    obtain ⟨⟨eventId, createdAt, type, object⟩, he, ha⟩ := List.mem_map.mp hm
    obtain ⟨ht, -, hid⟩ := hE _ he
    simp only [cardTypes, List.mem_cons, List.not_mem_nil, or_false] at ht hid
    rcases ht with rfl | rfl | rfl | rfl | rfl | rfl <;> simp only [actionOf] at ha
    · exact absurd ha (saves_ne (by simp) (by simp))
    · exact absurd ha (saves_ne (by simp) (by simp))
    · split_ifs at ha
    · split_ifs at ha
    · split_ifs at ha
    · rw [currentObject_eq (hid rfl) rfl] at ha
      split at ha
      · cases ha
        exact ⟨‹_›, rfl⟩
      · cases ha
  exact
    { reconciled := by
        intro c d c' d' h h'
        obtain ⟨hc, hd⟩ := hreconcile c d h
        obtain ⟨hc', hd'⟩ := hreconcile c' d' h'
        exact ⟨Option.some.inj (hc.symm.trans hc'), hd.trans hd'.symm⟩
      named := by
        intro ha c d h
        have hd := (hreconcile c d h).2
        unfold Attached at ha
        simp [hd, isInvoiceDefault, ha]
      stays := by
        intro h ha
        obtain ⟨⟨eventId, createdAt, type, object⟩, he, hd⟩ := List.mem_map.mp h
        obtain ⟨ht, -⟩ := hE _ he
        simp only [cardTypes, List.mem_cons, List.not_mem_nil, or_false] at ht
        rcases ht with rfl | rfl | rfl | rfl | rfl | rfl <;> simp only [actionOf] at hd
        · exact absurd hd (saves_ne (by simp) (by simp))
        · exact absurd hd (saves_ne (by simp) (by simp))
        · split_ifs at hd
        · split_ifs at hd
        · split_ifs at hd with hid
          have hn := hdetached _ he rfl cardId hid
          unfold Attached at ha
          rw [hn] at ha
          cases ha
        · split at hd <;> cases hd
      attached_of_default := by
        intro h
        exact (of_decide_eq_true h).1 }

/-- **Saved cards and the order of the events.** Events about the saved cards of a customer are
processed while Stripe's objects stay as they are; a card with a `payment_method.detached` event is
detached at Stripe. All orders leave the same rows, which agree with Stripe, exactly if the actions
of the events on each card of the customer are sound. -/
theorem card_order_iff (hclient : AnswersIds client) (hE : ∀ e ∈ E, About customerId e)
    (hdetached : ∀ e ∈ E, e.type = .paymentMethod "detached" →
      ∀ id ∈ stringValue (e.object.get "id"), cardCustomer client id = none)
    (hw : ∀ id, ∀ row ∈ rows.paymentMethods id, WellFormed row) :
    (∀ o₁ o₂ : List (ℤ × StripeWebhookEvent EventId),
        (o₁.map Prod.snd).Perm E → (o₂.map Prod.snd).Perm E →
        ∀ cardId, OfCustomer client customerId cardId →
          (((processStoredStripeEvents directory (some client) rows o₁).paymentMethods
              cardId).map undated =
            ((processStoredStripeEvents directory (some client) rows o₂).paymentMethods
              cardId).map undated) ∧
          Settled (Attached client customerId cardId) (isInvoiceDefault client customerId cardId)
            ((processStoredStripeEvents directory (some client) rows o₁).paymentMethods cardId)) ↔
      ∀ cardId, OfCustomer client customerId cardId →
        Sound (currentDetails client cardId) (rows.paymentMethods cardId)
          (Attached client customerId cardId) (isInvoiceDefault client customerId cardId)
          (E.map (actionOf directory client cardId)) := by
  have hrows : ∀ o : List (ℤ × StripeWebhookEvent EventId), (o.map Prod.snd).Perm E →
      ∀ cardId, (processStoredStripeEvents directory (some client) rows o).paymentMethods cardId =
        after (currentDetails client cardId) (rows.paymentMethods cardId)
          (o.map (Prod.map id (actionOf directory client cardId))) := by
    intro o ho cardId
    exact paymentMethods_processStoredStripeEvents hclient fun run hr =>
      hE _ (ho.subset (List.mem_map_of_mem hr))
  constructor
  · intro h cardId hcard
    refine (settled_iff (hw cardId) (consistent hE hdetached)).mp fun o₁ o₂ h₁ h₂ => ?_
    rw [← hrows o₁ h₁, ← hrows o₂ h₂]
    exact h o₁ o₂ h₁ h₂ cardId hcard
  · intro h o₁ o₂ h₁ h₂ cardId hcard
    rw [hrows o₁ h₁, hrows o₂ h₂]
    exact (settled_iff (hw cardId) (consistent hE hdetached)).mpr (h cardId hcard) o₁ o₂ h₁ h₂

/-- Stripe with cards of the customer `cus_1`, or of none, and intents of `user_1` that save
`pm_1`. -/
def exampleClient (customer : StripeValue) : StripeClient
  | .paymentMethod, id =>
    .object [("id", .string id), ("type", .string "card"), ("customer", customer)]
  | .setupIntent, id =>
    .object [("id", .string id), ("payment_method", .string "pm_1"),
      ("metadata", .object [("userId", .string "user_1")])]
  | .customer, id =>
    .object [("id", .string id), ("metadata", .object [("userId", .string "user_1")])]
  | _, id => .object [("id", .string id)]

def setupEvent : StripeWebhookEvent ℕ :=
  ⟨1, 100, .setupIntent "succeeded", .object [("id", .string "seti_1")]⟩

def customerEvent : StripeWebhookEvent ℕ :=
  ⟨2, 200, .customer "updated", .object [("id", .string "cus_1")]⟩

def detachedEvent : StripeWebhookEvent ℕ :=
  ⟨3, 300, .paymentMethod "detached", .object [("id", .string "pm_1")]⟩

theorem exampleClient_answersIds (customer : StripeValue) : AnswersIds (exampleClient customer) := by
  intro resource id hid
  have hs : stringValue (some (.string id)) = some id := by
    simp only [stringValue, hid, if_true]
  cases resource <;> exact hs

/-- A card that is saved while it is attached and not the default agrees with Stripe, whether it is
saved before or after the customer is updated. -/
theorem card_order_attached :
    (((processStoredStripeEvents Directory.empty (some (exampleClient (.string "cus_1"))) {}
        [(100, setupEvent), (200, customerEvent)]).paymentMethods "pm_1").map undated =
      ((processStoredStripeEvents Directory.empty (some (exampleClient (.string "cus_1"))) {}
        [(200, customerEvent), (201, setupEvent)]).paymentMethods "pm_1").map undated) ∧
    Settled (Attached (exampleClient (.string "cus_1")) "cus_1" "pm_1")
      (isInvoiceDefault (exampleClient (.string "cus_1")) "cus_1" "pm_1")
      ((processStoredStripeEvents Directory.empty (some (exampleClient (.string "cus_1"))) {}
        [(100, setupEvent), (200, customerEvent)]).paymentMethods "pm_1") := by
  refine (@card_order_iff ℕ Directory.empty (exampleClient (.string "cus_1")) "cus_1" {}
    [setupEvent, customerEvent] _ (exampleClient_answersIds _) ?_ ?_ ?_).mpr (fun cardId _ => ?_)
    [(100, setupEvent), (200, customerEvent)] [(200, customerEvent), (201, setupEvent)]
    (List.Perm.refl _) (List.Perm.swap _ _ _) "pm_1" (.inr rfl)
  · intro e he
    simp only [List.mem_cons, List.not_mem_nil, or_false] at he
    rcases he with rfl | rfl
    · exact ⟨by decide, by decide, by decide⟩
    · exact ⟨by decide, by decide, by decide⟩
  · intro e he ht
    simp only [List.mem_cons, List.not_mem_nil, or_false] at he
    rcases he with rfl | rfl <;> cases ht
  · simp
  · have hactions : [setupEvent, customerEvent].map
        (actionOf Directory.empty (exampleClient (.string "cus_1")) cardId) =
          [if "pm_1" = cardId then .save ⟨"user_1", none⟩ else .nothing,
            .reconcile ⟨"user_1", none⟩ false] := rfl
    have hattached : Attached (exampleClient (.string "cus_1")) "cus_1" cardId := rfl
    rw [hactions]
    exact
      { saved := by
          intro a ha
          refine ⟨hattached, fun a' ha' => ?_⟩
          simp only [List.mem_cons, List.not_mem_nil, or_false, reduceCtorEq] at ha ha'
          split_ifs at ha ha'
          cases ha
          cases ha'
          rfl
        detached := fun h => absurd hattached h
        isDefault := fun _ _ => .inl rfl }

/-- The card was saved and then detached. The event of the intent is processed last, and its card is
not detached in the row. -/
theorem late_intent :
    ¬ ∀ o₁ o₂ : List (ℤ × StripeWebhookEvent ℕ),
      (o₁.map Prod.snd).Perm [setupEvent, detachedEvent] →
      (o₂.map Prod.snd).Perm [setupEvent, detachedEvent] →
      ∀ cardId, OfCustomer (exampleClient .null) "cus_1" cardId →
        (((processStoredStripeEvents Directory.empty (some (exampleClient .null)) {}
            o₁).paymentMethods cardId).map undated =
          ((processStoredStripeEvents Directory.empty (some (exampleClient .null)) {}
            o₂).paymentMethods cardId).map undated) ∧
        Settled (Attached (exampleClient .null) "cus_1" cardId)
          (isInvoiceDefault (exampleClient .null) "cus_1" cardId)
          ((processStoredStripeEvents Directory.empty (some (exampleClient .null)) {}
            o₁).paymentMethods cardId) := by
  intro h
  have hperm : ([((0 : ℤ), detachedEvent), (0, setupEvent)].map Prod.snd).Perm
      [setupEvent, detachedEvent] := .swap _ _ _
  have hsettled := (h _ _ hperm hperm "pm_1" (.inl rfl)).2 _ rfl
  exact (hsettled.1 nofun).1 rfl

end BackendFoundation.Stripe.CardOrder
