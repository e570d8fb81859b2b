import BackendFoundation.Stripe.WebhookWorkers

/-! # Rows that show an object

When the rows show an object of Stripe, and what the projections of this and of other objects do to
rows that show it:

* a subscription has a row of its own (`ShowsSubscription`);
* a payment row is written for an intent, for its checkout session and for its charges; it shows one
  of them if it has the values that this one gives, and beside them only values that others have
  given (`ShowsPayment`);
* the chargeable items show an intent if projecting it again changes no more than the date of the
  consumption (`ShowsItem`). -/

namespace BackendFoundation.Stripe.ProjectedRows

open Lib Stripe.Objects Stripe.WebhookModel Stripe.WebhookWorkers
open Stripe.ChargeModel (ChargeableStatus)

variable {EventId : Type*} {directory : Directory} {now : ℤ}
  {rows : BillingRows EventId} {type : EventType} {object : StripeValue}
  {saved : Option StripeValue} {cursor : StripeProjectionCursor EventId} {a : StripeAttribution}
  {resource : Resource}

/-! ### Which tables an event writes -/

/-- The events whose objects are retrieved and projected onto the rows at hand. -/
inductive Kind : EventType → Resource → Prop
  | subscription {name : String} : Kind (.subscription name) .subscription
  | paymentIntent {name : String} : Kind (.paymentIntent name) .paymentIntent
  | charge : Kind (.charge "refunded") .charge
  | checkoutSession : Kind (.checkoutSession "completed") .checkoutSession
  | setupIntent {name : String} : Kind (.setupIntent name) .setupIntent
  | paymentMethod {name : String} : Kind (.paymentMethod name) .paymentMethod
  | customer : Kind (.customer "updated") .customer

theorem kind_of_resource (h : type.resource = some resource) : Kind type resource := by
  unfold EventType.resource at h
  split at h <;> cases h <;> constructor

/-- What an event writes for a payment depends on the kind of its object, not on its own type. -/
theorem paymentInput_congr {type' : EventType} (h : type.resource = some resource)
    (h' : type'.resource = some resource) : paymentInput type object = paymentInput type' object := by
  cases kind_of_resource h <;> cases kind_of_resource h' <;> simp [paymentInput]

theorem paymentInput_of_no_resource (h : type.resource = none) : paymentInput type object = none := by
  unfold paymentInput
  split <;> simp_all [EventType.resource]

section Writes

variable [LinearOrder EventId]

theorem subscriptions_of_ne (h : ∀ name, type ≠ .subscription name) :
    (projectObject directory now rows type object saved cursor).subscriptions =
      rows.subscriptions := by
  unfold projectObject
  cases type <;> first | exact absurd rfl (h _) | rfl

theorem chargeableItems_of_ne (h : ∀ name, type ≠ .paymentIntent name) :
    (projectObject directory now rows type object saved cursor).chargeableItems =
      rows.chargeableItems := by
  unfold projectObject
  cases type <;> first | exact absurd rfl (h _) | rfl

theorem payments_of_none
    (h : attributionForStripeObject directory object = none ∨ paymentInput type object = none) :
    (projectObject directory now rows type object saved cursor).payments = rows.payments := by
  simp only [projectObject]
  rcases h with h | h
  · rw [h]
  · rw [h]
    cases attributionForStripeObject directory object <;> rfl

theorem payments_of_some {input : PaymentInput}
    (ha : attributionForStripeObject directory object = some a)
    (hi : paymentInput type object = some input) :
    (projectObject directory now rows type object saved cursor).payments =
      upsertPayment rows.payments a input cursor := by
  simp only [projectObject, ha, hi]

end Writes

/-! ### Subscriptions -/

/-- The columns of the row are those of the object; only the date of the deletion is that of an
event. -/
structure ShowsColumns (row : StripeSubscription EventId) (data : SubscriptionData) : Prop where
  status : row.status = data.status
  priceId : row.priceId = data.priceId
  currency : row.currency = data.currency
  currentPeriodStart : row.currentPeriodStart = data.currentPeriodStart
  currentPeriodEnd : row.currentPeriodEnd = data.currentPeriodEnd
  cancelAtPeriodEnd : row.cancelAtPeriodEnd = data.cancelAtPeriodEnd
  canceledAt : row.canceledAt = data.canceledAt
  deletedAt : row.deletedAt.isSome = data.deletedAt.isSome

/-- **The row of the subscription is the projection of the object.** -/
def ShowsSubscription (rows : BillingRows EventId) (subscriptionId : String) (a : StripeAttribution)
    (object : StripeValue) : Prop :=
  ∃ row, rows.subscriptions subscriptionId = some row ∧ row.userId = a.userId ∧
    row.organizationId = a.organizationId ∧ ShowsColumns row (subscriptionData object 0)

/-- The row is live, and has no value in a column for which the object gives none. -/
structure Covered (row : StripeSubscription EventId) (data : SubscriptionData) : Prop where
  live : row.deletedAt = none
  priceId : data.priceId = none → row.priceId = none
  currency : data.currency = none → row.currency = none
  currentPeriodStart : data.currentPeriodStart = none → row.currentPeriodStart = none
  currentPeriodEnd : data.currentPeriodEnd = none → row.currentPeriodEnd = none
  canceledAt : data.canceledAt = none → row.canceledAt = none

/-- The row can take the object: it is covered by it, or shows it already. -/
def SubscriptionReady (rows : BillingRows EventId) (subscriptionId : String)
    (object : StripeValue) : Prop :=
  ∀ row ∈ rows.subscriptions subscriptionId,
    ShowsColumns row (subscriptionData object 0) ∨ Covered row (subscriptionData object 0)

theorem orElse_self {α : Type*} {x y : Option α} (h : y = x) : (x <|> y) = x := by
  rw [h]
  cases x <;> rfl

theorem isSome_deletedAt {t : ℤ} :
    (subscriptionData object t).deletedAt.isSome = (subscriptionData object 0).deletedAt.isSome := by
  simp only [subscriptionData]
  split <;> rfl

section Subscriptions

variable [LinearOrder EventId] {row : StripeSubscription EventId} {subscriptionId : String}

theorem showsColumns_update (hc : cursor.authoritative = true)
    (h : ShowsColumns row (subscriptionData object 0) ∨
      Covered row (subscriptionData object 0)) :
    ShowsColumns (updateSubscriptionRow (subscriptionData object cursor.createdAt) cursor row)
      (subscriptionData object 0) := by
  unfold updateSubscriptionRow
  split_ifs with hw
  · rcases h with h | h
    · exact ⟨rfl, orElse_self h.priceId, orElse_self h.currency, orElse_self h.currentPeriodStart,
        orElse_self h.currentPeriodEnd, rfl, orElse_self h.canceledAt, isSome_deletedAt⟩
    · exact ⟨rfl, orElse_of_none h.priceId, orElse_of_none h.currency,
        orElse_of_none h.currentPeriodStart, orElse_of_none h.currentPeriodEnd, rfl,
        orElse_of_none h.canceledAt, isSome_deletedAt⟩
  · rcases h with h | h
    · exact h
    · exact absurd ⟨h.live, .inl hc⟩ hw

omit [LinearOrder EventId] in
theorem showsColumns_created {c : StripeProjectionCursor EventId} :
    ShowsColumns (upsertSubscriptionRow a (subscriptionData object c.createdAt) c none)
      (subscriptionData object 0) :=
  ⟨rfl, rfl, rfl, rfl, rfl, rfl, rfl, isSome_deletedAt⟩

theorem updateSubscriptionRow_owner {data : SubscriptionData} :
    (updateSubscriptionRow data cursor row).userId = row.userId ∧
      (updateSubscriptionRow data cursor row).organizationId = row.organizationId := by
  unfold updateSubscriptionRow
  split_ifs <;> exact ⟨rfl, rfl⟩

/-- **The projection of a subscription** shows it, if the row could take it. -/
theorem shows_projectSubscription {name : String}
    (hid : stringValue (object.get "id") = some subscriptionId)
    (ha : attributionForStripeObject directory object = some a) (hc : cursor.authoritative = true)
    (hr : SubscriptionReady rows subscriptionId object) :
    ShowsSubscription (projectObject directory now rows (.subscription name) object saved cursor)
      subscriptionId a object := by
  have hrow : (projectObject directory now rows (.subscription name) object saved
      cursor).subscriptions subscriptionId =
        some (updateSubscriptionRow (subscriptionData object cursor.createdAt) cursor
          (upsertSubscriptionRow a (subscriptionData object cursor.createdAt) cursor
            (rows.subscriptions subscriptionId))) := by
    simp only [projectObject, ha, projectSubscription, hid, Table.set_self]
  refine ⟨_, hrow, ?_, ?_, ?_⟩
  · rw [updateSubscriptionRow_owner.1]
    cases rows.subscriptions subscriptionId <;> rfl
  · rw [updateSubscriptionRow_owner.2]
    cases rows.subscriptions subscriptionId <;> rfl
  · refine showsColumns_update hc ?_
    cases hrow : rows.subscriptions subscriptionId with
    | none => exact .inl showsColumns_created
    | some row =>
      rcases hr row hrow with h | h
      · exact .inl ⟨h.status, h.priceId, h.currency, h.currentPeriodStart, h.currentPeriodEnd,
          h.cancelAtPeriodEnd, h.canceledAt, h.deletedAt⟩
      · exact .inr ⟨h.live, h.priceId, h.currency, h.currentPeriodStart, h.currentPeriodEnd,
          h.canceledAt⟩

theorem subscriptions_of_other {id : String} {name : String}
    (hid : stringValue (object.get "id") = some id) (hne : subscriptionId ≠ id) :
    (projectObject directory now rows (.subscription name) object saved cursor).subscriptions
        subscriptionId = rows.subscriptions subscriptionId := by
  simp only [projectObject]
  cases attributionForStripeObject directory object with
  | none => rfl
  | some a =>
    simp only [projectSubscription, hid]
    exact Table.set_of_ne hne

end Subscriptions

/-! ### Payments -/

inductive PaymentColumn
  | owner | status | amount | amountRefunded | chargeId | checkoutSessionId | currency
deriving DecidableEq

def paymentColumns : List PaymentColumn :=
  [.owner, .status, .amount, .amountRefunded, .chargeId, .checkoutSessionId, .currency]

instance {p : PaymentColumn → Prop} [DecidablePred p] : Decidable (∀ c, p c) :=
  decidable_of_iff (∀ c ∈ paymentColumns, p c)
    ⟨fun h c => h c (by cases c <;> decide), fun h c _ => h c⟩

inductive ColumnValue
  | owner (a : StripeAttribution)
  | text (s : String)
  | number (n : ℤ)
deriving DecidableEq

/-- The value that a projection gives for a column, if it gives one. -/
def given (a : StripeAttribution) (input : PaymentInput) : PaymentColumn → Option ColumnValue
  | .owner => some (.owner a)
  | .status => some (.text input.status)
  | .amount => input.amount.map .number
  | .amountRefunded => input.amountRefunded.map .number
  | .chargeId => input.chargeId.map .text
  | .checkoutSessionId => input.checkoutSessionId.map .text
  | .currency => input.currency.map .text

def column (row : StripePayment EventId) : PaymentColumn → Option ColumnValue
  | .owner => some (.owner ⟨row.userId, row.organizationId⟩)
  | .status => some (.text row.status)
  | .amount => row.amount.map .number
  | .amountRefunded => some (.number row.amountRefunded)
  | .chargeId => row.chargeId.map .text
  | .checkoutSessionId => row.checkoutSessionId.map .text
  | .currency => row.currency.map .text

/-- The value of a column that nothing has given. -/
def unset : PaymentColumn → Option ColumnValue
  | .amountRefunded => some (.number 0)
  | _ => none

/-- The object of another event has given the value to the payment row. -/
def GivenBy (directory : Directory) (projections : List Projection) (x : Subject)
    (paymentIntentId : String) (c : PaymentColumn) (v : Option ColumnValue) : Prop :=
  ∃ q ∈ projections, q.subject ≠ x ∧ ∃ a ∈ attributionForStripeObject directory q.object,
    ∃ input ∈ paymentInput q.type q.object, input.paymentIntentId = paymentIntentId ∧
      given a input c = v ∧ v ≠ none

/-- **The payment row shows the object `x`.** It has the values that the object gives; where it gives
none, the column is unset or another object has given the value. -/
def ShowsPayment (directory : Directory) (projections : List Projection)
    (rows : BillingRows EventId) (x : Subject) (a : StripeAttribution) (input : PaymentInput) :
    Prop :=
  ∃ row, rows.payments input.paymentIntentId = some row ∧
    ∀ c, (given a input c ≠ none → column row c = given a input c) ∧
      (given a input c = none → column row c = unset c ∨
        GivenBy directory projections x input.paymentIntentId c (column row c))

/-- The row can take the object: a column for which it gives nothing is unset, or another object has
given the value. -/
def PaymentReady (directory : Directory) (projections : List Projection)
    (rows : BillingRows EventId) (x : Subject) (a : StripeAttribution) (input : PaymentInput) :
    Prop :=
  ∀ row ∈ rows.payments input.paymentIntentId, ∀ c, given a input c = none →
    column row c = unset c ∨
      GivenBy directory projections x input.paymentIntentId c (column row c)

section Payments

variable [LinearOrder EventId] {input : PaymentInput} {projections projections' : List Projection}
  {x : Subject}

omit [LinearOrder EventId] in
theorem GivenBy.mono {paymentIntentId : String} {c : PaymentColumn} {v : Option ColumnValue}
    (h : GivenBy directory projections x paymentIntentId c v)
    (hs : ∀ q ∈ projections, q ∈ projections') :
    GivenBy directory projections' x paymentIntentId c v := by
  obtain ⟨q, hq, h⟩ := h
  exact ⟨q, hs q hq, h⟩

/-- An authoritative projection writes the values that its object gives and no other. -/
theorem column_upsert (hc : cursor.authoritative = true)
    {payment : Option (StripePayment EventId)} (hl : ∀ row ∈ payment, row.deletedAt = none)
    (c : PaymentColumn) :
    column (updatePaymentRow input cursor (upsertPaymentRow a input cursor payment)) c =
      (given a input c).orElse fun _ => payment.elim (unset c) (column · c) := by
  cases payment with
  | none =>
    rw [updatePaymentRow, if_pos ⟨rfl, .inl hc⟩]
    cases c with
    | owner => rfl
    | status => rfl
    | amount =>
      simp only [column, given, upsertPaymentRow, PaymentInput.created]
      cases input.amount <;> rfl
    | amountRefunded =>
      simp only [column, given, upsertPaymentRow, PaymentInput.created]
      cases input.amountRefunded <;> rfl
    | chargeId =>
      simp only [column, given, upsertPaymentRow, PaymentInput.created]
      cases input.chargeId <;> rfl
    | checkoutSessionId =>
      simp only [column, given, upsertPaymentRow, PaymentInput.created]
      cases input.checkoutSessionId <;> rfl
    | currency =>
      simp only [column, given, upsertPaymentRow, PaymentInput.created]
      cases input.currency <;> rfl
  | some row =>
    rw [updatePaymentRow, if_pos ⟨hl row rfl, .inl hc⟩]
    cases c with
    | owner => rfl
    | status => rfl
    | amount =>
      simp only [column, given, upsertPaymentRow]
      cases input.amount <;> rfl
    | amountRefunded =>
      simp only [column, given, upsertPaymentRow]
      cases input.amountRefunded <;> rfl
    | chargeId =>
      simp only [column, given, upsertPaymentRow]
      cases input.chargeId <;> rfl
    | checkoutSessionId =>
      simp only [column, given, upsertPaymentRow]
      cases input.checkoutSessionId <;> rfl
    | currency =>
      simp only [column, given, upsertPaymentRow]
      cases input.currency <;> rfl

theorem payments_live (hl : ∀ id, ∀ row ∈ rows.payments id, row.deletedAt = none) (id : String) :
    ∀ row ∈ (projectObject directory now rows type object saved cursor).payments id,
      row.deletedAt = none := by
  rcases Option.eq_none_or_eq_some (attributionForStripeObject directory object) with
    ha | ⟨a, ha⟩
  · rw [payments_of_none (.inl ha)]
    exact hl id
  rcases Option.eq_none_or_eq_some (paymentInput type object) with hi | ⟨input, hi⟩
  · rw [payments_of_none (.inr hi)]
    exact hl id
  rw [payments_of_some ha hi]
  intro row hrow
  rcases Table.set_eq_some.mp hrow with ⟨-, rfl⟩ | ⟨-, hrow⟩
  · have hkeep : ∀ row : StripePayment EventId,
        (updatePaymentRow input cursor row).deletedAt = row.deletedAt := by
      intro row
      unfold updatePaymentRow
      split_ifs <;> rfl
    rw [hkeep]
    cases hp : rows.payments input.paymentIntentId with
    | none => rfl
    | some payment => exact hl _ payment hp
  · exact hl id row hrow

/-- **The projection of a payment** shows its object, if the row could take it. -/
theorem shows_upsertPayment (ha : attributionForStripeObject directory object = some a)
    (hi : paymentInput type object = some input) (hc : cursor.authoritative = true)
    (hl : ∀ row ∈ rows.payments input.paymentIntentId, row.deletedAt = none)
    (hr : PaymentReady directory projections rows x a input) :
    ShowsPayment directory projections (projectObject directory now rows type object saved cursor)
      x a input := by
  refine ⟨_, by rw [payments_of_some ha hi]; exact Table.set_self, fun c => ⟨fun hg => ?_, fun hg => ?_⟩⟩
  · rw [column_upsert hc hl]
    obtain ⟨v, hv⟩ := Option.ne_none_iff_exists'.mp hg
    rw [hv]
    rfl
  · rw [column_upsert hc hl, hg]
    cases hrow : rows.payments input.paymentIntentId with
    | none => exact .inl rfl
    | some row => exact hr row hrow c hg

/-- The projection of another object that agrees on what both give keeps the row showing `x`. -/
theorem ShowsPayment.project {a' : StripeAttribution} {input' : PaymentInput}
    (h : ShowsPayment directory projections rows x a input)
    (ha : attributionForStripeObject directory object = some a')
    (hi : paymentInput type object = some input') (hc : cursor.authoritative = true)
    (hl : ∀ row ∈ rows.payments input'.paymentIntentId, row.deletedAt = none)
    (hs : ∀ q ∈ projections, q ∈ projections')
    (hq : ∃ q ∈ projections', q.subject ≠ x ∧ q.type = type ∧ q.object = object)
    (hagree : input'.paymentIntentId = input.paymentIntentId → ∀ c, ∀ u ∈ given a input c,
      ∀ v ∈ given a' input' c, u = v) :
    ShowsPayment directory projections' (projectObject directory now rows type object saved cursor)
      x a input := by
  obtain ⟨row, hrow, h⟩ := h
  rw [ShowsPayment, payments_of_some ha hi]
  by_cases hp : input'.paymentIntentId = input.paymentIntentId
  · refine ⟨_, by rw [← hp]; exact Table.set_self, fun c => ?_⟩
    have hcol := @column_upsert _ _ a' _ input' hc _ hl c
    rw [hp, hrow] at hcol
    rw [hp, hrow]
    simp only [Option.elim_some] at hcol
    rw [hcol]
    refine ⟨fun hg => ?_, fun hg => ?_⟩
    · obtain ⟨u, hu⟩ := Option.ne_none_iff_exists'.mp hg
      cases hv : given a' input' c with
      | none => exact (h c).1 hg
      | some v => exact congrArg some (hagree hp c u hu v hv).symm |>.trans hu.symm
    · cases hv : given a' input' c with
      | none => exact ((h c).2 hg).imp_right (·.mono hs)
      | some v =>
        obtain ⟨q, hq, hne, ht, ho⟩ := hq
        exact .inr ⟨q, hq, hne, a', by rw [ho]; exact ha, input', by rw [ht, ho]; exact hi, hp, hv,
          by simp⟩
  · refine ⟨row, by rw [upsertPayment, Table.set_of_ne (Ne.symm hp), hrow], fun c => ?_⟩
    exact ⟨(h c).1, fun hg => ((h c).2 hg).imp_right (·.mono hs)⟩

omit [LinearOrder EventId] in
theorem ShowsPayment.of_eq {rows' : BillingRows EventId}
    (h : ShowsPayment directory projections rows x a input)
    (he : rows'.payments = rows.payments) (hs : ∀ q ∈ projections, q ∈ projections') :
    ShowsPayment directory projections' rows' x a input := by
  obtain ⟨row, hrow, h⟩ := h
  exact ⟨row, by rw [he, hrow], fun c => ⟨(h c).1, fun hg => ((h c).2 hg).imp_right (·.mono hs)⟩⟩

end Payments

/-! ### Chargeable items -/

/-- The item after a projection of the intent with this status, if the item is reserved for it. -/
def itemAfter (paymentIntentId reservationKeyHash status : String) (now : ℤ)
    (item : ChargeableItem) : ChargeableItem :=
  if status = "succeeded" then
    if ChargeableItem.HeldFor reservationKeyHash paymentIntentId [.reserved, .consumed] item then
      { item with
        paymentIntentId := some paymentIntentId
        status := .consumed
        consumedAt := some now }
    else item
  else if status = "canceled" then
    if ChargeableItem.HeldFor reservationKeyHash paymentIntentId [.reserved] item then
      { item with
        status := .opened
        reservationKeyHash := none
        reservedAt := none
        paymentIntentId := none }
    else item
  else
    if ChargeableItem.HeldFor reservationKeyHash paymentIntentId [.reserved] item then
      { item with paymentIntentId := some paymentIntentId }
    else item

/-- The reservation that an intent refers to. -/
structure Reservation where
  paymentIntentId : String
  chargeableItemId : String
  reservationKeyHash : String
  status : String

def reservation (object : StripeValue) : Option Reservation :=
  let metadata := object.get "metadata"
  match stringValue (object.get "id"), nestedString metadata "chargeableItemId",
      nestedString metadata "chargeableReservationKeyHash", stringValue (object.get "status") with
  | some paymentIntentId, some chargeableItemId, some reservationKeyHash, some status =>
    some { paymentIntentId, chargeableItemId, reservationKeyHash, status }
  | _, _, _, _ => none

def Reservation.after (r : Reservation) (now : ℤ) (item : ChargeableItem) : ChargeableItem :=
  itemAfter r.paymentIntentId r.reservationKeyHash r.status now item

/-- The item without the date of its consumption. -/
def undatedItem (item : ChargeableItem) : ChargeableItem := { item with consumedAt := none }

/-- **The chargeable items show the intent.** Projecting it again changes nothing but a date. -/
def ShowsItem (items : Table String ChargeableItem) (object : StripeValue) : Prop :=
  ∀ now id, (projectChargeableItem items object now id).map undatedItem =
    (items id).map undatedItem

section Items

variable {items : Table String ChargeableItem} {item : ChargeableItem}
  {paymentIntentId reservationKeyHash status : String}

theorem HeldFor_mono (h : ChargeableItem.HeldFor reservationKeyHash paymentIntentId [.reserved] item) :
    ChargeableItem.HeldFor reservationKeyHash paymentIntentId [.reserved, .consumed] item := by
  obtain ⟨hd, hh, hs, hp⟩ := h
  exact ⟨hd, hh, by simp_all, hp⟩

theorem itemAfter_of_not_held
    (h : ¬ ChargeableItem.HeldFor reservationKeyHash paymentIntentId [.reserved, .consumed] item) :
    itemAfter paymentIntentId reservationKeyHash status now item = item := by
  have h' : ¬ ChargeableItem.HeldFor reservationKeyHash paymentIntentId [.reserved] item :=
    fun hh => h (HeldFor_mono hh)
  unfold itemAfter
  split_ifs <;> rfl

theorem itemAfter_twice {now' : ℤ} :
    undatedItem (itemAfter paymentIntentId reservationKeyHash status now'
        (itemAfter paymentIntentId reservationKeyHash status now item)) =
      undatedItem (itemAfter paymentIntentId reservationKeyHash status now item) := by
  by_cases hs : status = "succeeded"
  · simp only [itemAfter, hs, if_true]
    split_ifs <;> rfl
  · by_cases hc : status = "canceled"
    · subst hc
      simp only [itemAfter, hs, if_false, if_true]
      split_ifs with h h'
      · obtain ⟨-, hh, -⟩ := h'
        cases hh
      · rfl
      · rfl
    · simp only [itemAfter, hs, hc, if_false]
      split_ifs <;> rfl

theorem itemAfter_cases :
    itemAfter paymentIntentId reservationKeyHash status now item = item ∨
      ∀ hash id, id ≠ paymentIntentId → ¬ ChargeableItem.HeldFor hash id [.reserved, .consumed]
        (itemAfter paymentIntentId reservationKeyHash status now item) := by
  have hother : ∀ {it : ChargeableItem}, it.paymentIntentId = some paymentIntentId →
      ∀ hash id, id ≠ paymentIntentId →
        ¬ ChargeableItem.HeldFor hash id [.reserved, .consumed] it := by
    rintro it hp hash id hne ⟨-, -, -, h | h⟩
    · rw [hp] at h
      cases h
    · rw [hp] at h
      exact hne (Option.some.inj h).symm
  unfold itemAfter
  split_ifs
  · exact .inr (hother rfl)
  · exact .inl rfl
  · refine .inr fun hash id _ => ?_
    rintro ⟨-, hh, -⟩
    cases hh
  · exact .inl rfl
  · exact .inr (hother rfl)
  · exact .inl rfl

theorem projectChargeableItem_apply {id : String} :
    projectChargeableItem items object now id =
      match reservation object with
      | none => items id
      | some r => if r.chargeableItemId = id then (items id).map (r.after now) else items id := by
  simp only [projectChargeableItem, reservation]
  generalize stringValue (object.get "id") = paymentIntentId
  generalize nestedString (object.get "metadata") "chargeableItemId" = chargeableItemId
  generalize nestedString (object.get "metadata") "chargeableReservationKeyHash" = hash
  generalize stringValue (object.get "status") = status
  rcases paymentIntentId with _ | paymentIntentId
  · rfl
  rcases chargeableItemId with _ | chargeableItemId
  · rfl
  rcases hash with _ | hash
  · rfl
  rcases status with _ | status
  · rfl
  simp only
  by_cases hs : status = "succeeded"
  · simp only [hs, if_true, Table.updateWhere_apply]
    rfl
  · by_cases hc : status = "canceled"
    · subst hc
      simp only [hs, if_false, if_true, Table.updateWhere_apply]
      rfl
    · have hafter : Reservation.after ⟨paymentIntentId, chargeableItemId, hash, status⟩ now =
          fun item =>
            if ChargeableItem.HeldFor hash paymentIntentId [.reserved] item then
              { item with paymentIntentId := some paymentIntentId }
            else item := by
        funext item
        simp only [Reservation.after, itemAfter, hs, hc, if_false]
      simp only [hs, hc, if_false, Table.updateWhere_apply, hafter]

theorem reservation_id {r : Reservation} (h : reservation object = some r) :
    stringValue (object.get "id") = some r.paymentIntentId := by
  simp only [reservation] at h
  split at h
  · rename_i hid _ _ _
    cases h
    exact hid
  · cases h

/-- **The projection of an intent** shows it. -/
theorem shows_projectChargeableItem : ShowsItem (projectChargeableItem items object now) object := by
  intro now' id
  rw [projectChargeableItem_apply, projectChargeableItem_apply]
  cases reservation object with
  | none => rfl
  | some r =>
    simp only
    split_ifs
    · cases items id with
      | none => rfl
      | some item => exact congrArg some itemAfter_twice
    · rfl

theorem ShowsItem.project {object' : StripeValue} (h : ShowsItem items object)
    (hne : stringValue (object'.get "id") ≠ stringValue (object.get "id")) :
    ShowsItem (projectChargeableItem items object' now) object := by
  intro now' id
  have hold := h now' id
  rw [projectChargeableItem_apply] at hold ⊢
  cases hr : reservation object with
  | none => rfl
  | some r =>
    rw [hr] at hold
    simp only at hold ⊢
    split_ifs with hid
    · rw [if_pos hid] at hold
      rw [projectChargeableItem_apply]
      cases hr' : reservation object' with
      | none => exact hold
      | some r' =>
        simp only
        split_ifs with hid'
        · cases hitem : items id with
          | none => rfl
          | some item =>
            rw [hitem] at hold
            rcases @itemAfter_cases now item r'.paymentIntentId r'.reservationKeyHash r'.status with
              he | hheld
            · simp only [Option.map_some, Reservation.after, he] at hold ⊢
              exact hold
            · refine congrArg some (congrArg undatedItem (itemAfter_of_not_held (hheld _ _ ?_)))
              intro he
              exact hne ((reservation_id hr').trans (he ▸ (reservation_id hr).symm))
        · exact hold
    · rfl

end Items

end BackendFoundation.Stripe.ProjectedRows
