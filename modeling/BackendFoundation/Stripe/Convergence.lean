import BackendFoundation.Stripe.ProjectedRows
import Mathlib.Data.Nat.Basic

/-! # Convergence of the projections

A worker retrieves the current object before it takes the lock, and an authoritative projection
writes whatever the row has. So the worker that retrieved first may write last, and the rows go back
to an object that Stripe has no longer (`stale_projection`).

`converged` says what holds in the runs in which this does not happen, and in which no value is left
in a row beside those of the object (`InOrder`): once the events of the last change of an object have
been processed, the rows show it. -/

namespace BackendFoundation.Stripe.Convergence

open Lib Lib.Runs Lib.Interleave Errors Stripe.Objects Stripe.WebhookModel Stripe.WebhookWorkers
open Stripe.ProjectedRows
open Option (some.inj)

variable {EventId : Type*} {directory : Directory} {items : Table String ChargeableItem}
  {s s' : WebhookState EventId} {x : Subject} {object : StripeObject}
  {stored : StripeWebhookEvent EventId} {current : Retrieved} {id version : ℕ}

/-- The events of the last change of the object are stored and have all been processed. -/
def LastChangeProcessed (s : WebhookState EventId) (x : Subject) : Prop :=
  ∃ object ∈ s.objects x,
    (∃ e ∈ s.events, subject e.event = some x ∧ e.version = object.version) ∧
      ∀ e ∈ s.events, subject e.event = some x → e.version = object.version → e.processed = true

/-- The rows are the projection of the object. -/
structure Shown (directory : Directory) (s : WebhookState EventId) (x : Subject)
    (object : StripeValue) : Prop where
  subscription : x.1 = .subscription → ∀ a ∈ attributionForStripeObject directory object,
    ShowsSubscription s.rows x.2 a object
  payment : ∀ type : EventType, type.resource = some x.1 →
    ∀ a ∈ attributionForStripeObject directory object, ∀ input ∈ paymentInput type object,
      ShowsPayment directory s.projections s.rows x a input
  item : x.1 = .paymentIntent → ShowsItem s.rows.chargeableItems object

/-- **Convergence.** Once the events of the last change of an object have been processed, the rows
are the projection of Stripe's current object. -/
def Converged (directory : Directory) (s : WebhookState EventId) : Prop :=
  ∀ x, LastChangeProcessed s x → ∀ object ∈ s.objects x, Shown directory s x object.value

/-! ### Projections in order -/

/-- The projection of what a worker has retrieved for the object `x` keeps the rows right.

* If the events of the last change have all been processed, it is the current object that is
  projected.
* A current object is projected onto rows that can take it.
* It agrees with the other objects whose last change has been processed, where it is projected onto
  the same payment row. -/
def InOrder (directory : Directory) (s : WebhookState EventId) (x : Subject) (type : EventType)
    (current : Retrieved) : Prop :=
  (LastChangeProcessed s x → ∀ object ∈ s.objects x, current.version = object.version) ∧
  (∀ object ∈ s.objects x, current.version = object.version →
    (x.1 = .subscription → SubscriptionReady s.rows x.2 current.object) ∧
    ∀ a ∈ attributionForStripeObject directory current.object,
      ∀ input ∈ paymentInput type current.object,
        PaymentReady directory s.projections s.rows x a input) ∧
  ∀ e ∈ s.events, ∀ x' ∈ subject e.event, x' ≠ x → LastChangeProcessed s x' →
    ∀ object ∈ s.objects x', ∀ a' ∈ attributionForStripeObject directory object.value,
      ∀ input' ∈ paymentInput e.event.type object.value,
        ∀ a ∈ attributionForStripeObject directory current.object,
          ∀ input ∈ paymentInput type current.object,
            input.paymentIntentId = input'.paymentIntentId →
              ∀ c, ∀ u ∈ given a' input' c, ∀ v ∈ given a input c, u = v

/-- The transaction of the worker, if it commits, projects in order. -/
def CommitsInOrder (directory : Directory) (s : WebhookState EventId) : WorkerPc EventId → Prop
  | .transaction stored current _ _ =>
    ∀ x ∈ subject stored, InOrder directory s x stored.type current
  | _ => True

/-- Every transaction that is committed projects in order. -/
def ProjectsInOrder (directory : Directory) (w : WorkersWorld EventId) :
    WorkersLabel EventId → Prop
  | .step i o => o.TakesEffect → ∀ worker ∈ w.proc? i, CommitsInOrder directory w.shared worker.pc
  | _ => True

section Instances

instance : DecidablePred (LastChangeProcessed s) := fun x =>
  inferInstanceAs (Decidable (∃ object ∈ s.objects x, _ ∧ _))

instance {row : StripeSubscription EventId} {data : SubscriptionData} :
    Decidable (ShowsColumns row data) :=
  decidable_of_iff
    (row.status = data.status ∧ row.priceId = data.priceId ∧ row.currency = data.currency ∧
      row.currentPeriodStart = data.currentPeriodStart ∧
      row.currentPeriodEnd = data.currentPeriodEnd ∧
      row.cancelAtPeriodEnd = data.cancelAtPeriodEnd ∧ row.canceledAt = data.canceledAt ∧
      row.deletedAt.isSome = data.deletedAt.isSome)
    ⟨fun ⟨h₁, h₂, h₃, h₄, h₅, h₆, h₇, h₈⟩ => ⟨h₁, h₂, h₃, h₄, h₅, h₆, h₇, h₈⟩,
      fun ⟨h₁, h₂, h₃, h₄, h₅, h₆, h₇, h₈⟩ => ⟨h₁, h₂, h₃, h₄, h₅, h₆, h₇, h₈⟩⟩

instance {row : StripeSubscription EventId} {data : SubscriptionData} :
    Decidable (Covered row data) :=
  decidable_of_iff
    (row.deletedAt = none ∧ (data.priceId = none → row.priceId = none) ∧
      (data.currency = none → row.currency = none) ∧
      (data.currentPeriodStart = none → row.currentPeriodStart = none) ∧
      (data.currentPeriodEnd = none → row.currentPeriodEnd = none) ∧
      (data.canceledAt = none → row.canceledAt = none))
    ⟨fun ⟨h₁, h₂, h₃, h₄, h₅, h₆⟩ => ⟨h₁, h₂, h₃, h₄, h₅, h₆⟩,
      fun ⟨h₁, h₂, h₃, h₄, h₅, h₆⟩ => ⟨h₁, h₂, h₃, h₄, h₅, h₆⟩⟩

instance {rows : BillingRows EventId} {subscriptionId : String} {object : StripeValue} :
    Decidable (SubscriptionReady rows subscriptionId object) :=
  inferInstanceAs (Decidable (∀ row ∈ rows.subscriptions subscriptionId, _))

instance {projections : List Projection} {paymentIntentId : String} {c : PaymentColumn}
    {v : Option ColumnValue} :
    Decidable (GivenBy directory projections x paymentIntentId c v) :=
  inferInstanceAs (Decidable (∃ q ∈ projections, _ ∧ _))

instance {projections : List Projection} {rows : BillingRows EventId} {a : StripeAttribution}
    {input : PaymentInput} : Decidable (PaymentReady directory projections rows x a input) :=
  inferInstanceAs (Decidable (∀ row ∈ rows.payments input.paymentIntentId, ∀ _, _))

instance {type : EventType} : Decidable (InOrder directory s x type current) :=
  inferInstanceAs (Decidable (_ ∧ _ ∧ _))

instance : DecidablePred (CommitsInOrder directory s)
  | .transaction stored _ _ _ => inferInstanceAs (Decidable (∀ x ∈ subject stored, _))
  | .findUnique | .retrieve _ | .retrieveSaved _ _ _ | .processed | .thrown _ => instDecidableTrue

instance (w : WorkersWorld EventId) : DecidablePred (ProjectsInOrder directory w)
  | .step i o => inferInstanceAs (Decidable (o.TakesEffect → ∀ worker ∈ w.proc? i, _))
  | .spawn _ | .crash _ | .env _ => instDecidableTrue

end Instances

/-! ### The invariant -/

/-- The worker has the event of its number. -/
def StoredAs (s : WebhookState EventId) (id : ℕ) (stored : StripeWebhookEvent EventId)
    (version : ℕ) : Prop :=
  ∃ e, s.events[id]? = some e ∧ e.event = stored ∧ e.version = version

/-- What a worker has retrieved is not older than the change that its event reports. -/
def CurrentOf (s : WebhookState EventId) (stored : StripeWebhookEvent EventId) (version : ℕ)
    (current : Retrieved) : Prop :=
  ∀ x ∈ subject stored, current.authoritative = true ∧
    stringValue (current.object.get "id") = some x.2 ∧
    ∃ object ∈ s.objects x, version ≤ current.version ∧ current.version ≤ object.version ∧
      (current.version = object.version → current.object = object.value)

structure StateOk (directory : Directory) (s : WebhookState EventId) : Prop where
  named : ∀ x, ∀ object ∈ s.objects x, stringValue (object.value.get "id") = some x.2
  reports : ∀ e ∈ s.events, Reports s e.event e.version
  live : ∀ id, ∀ row ∈ s.rows.payments id, row.deletedAt = none
  converged : Converged directory s

def WorkerOk (worker : Worker EventId) (s : WebhookState EventId) : Prop :=
  match worker.pc with
  | .retrieve stored => ∃ version, StoredAs s worker.webhookEventId stored version
  | .retrieveSaved stored current _ | .transaction stored current _ _ =>
    ∃ version, StoredAs s worker.webhookEventId stored version ∧ CurrentOf s stored version current
  | .findUnique | .processed | .thrown _ => True

def assertions (directory : Directory) : Assertions (WebhookState EventId) (Worker EventId) where
  shared := StateOk directory
  proc _ := WorkerOk

theorem WorkerOk.mono {worker : Worker EventId} (h : WorkerOk worker s)
    (hstored : ∀ id stored version, StoredAs s id stored version → StoredAs s' id stored version)
    (hcurrent : ∀ stored version current, CurrentOf s stored version current →
      CurrentOf s' stored version current) : WorkerOk worker s' := by
  obtain ⟨webhookEventId, pc⟩ := worker
  cases pc with
  | retrieve stored =>
    obtain ⟨version, h⟩ := h
    exact ⟨version, hstored _ _ _ h⟩
  | retrieveSaved stored current _ | transaction stored current _ _ =>
    obtain ⟨version, hs, hc⟩ := h
    exact ⟨version, hstored _ _ _ hs, hcurrent _ _ _ hc⟩
  | findUnique | processed | thrown _ => trivial

/-! ### Stripe changes, and events are stored -/

variable {event : StripeWebhookEvent EventId}

theorem reports_mono (h : Reports s event version)
    (ho : ∀ x, ∀ object ∈ s.objects x, ∃ object' ∈ s'.objects x, object.version ≤ object'.version) :
    Reports s' event version := by
  refine ⟨h.1, fun x hx => ?_⟩
  obtain ⟨object, hobject, hv⟩ := h.2 x hx
  obtain ⟨object', hobject', hle⟩ := ho x object hobject
  exact ⟨object', hobject', Nat.le_trans hv hle⟩

theorem Shown.congr {object : StripeValue} (h : Shown directory s x object)
    (hr : s'.rows = s.rows) (hp : s'.projections = s.projections) :
    Shown directory s' x object := by
  refine ⟨fun hx => ?_, fun type ht => ?_, fun hx => ?_⟩
  · rw [hr]
    exact h.subscription hx
  · rw [hr, hp]
    exact h.payment type ht
  · rw [hr]
    exact h.item hx

variable {value : StripeValue}

/-- A change leaves the objects that there are, except for the one that changes. -/
theorem objects_change (y : Subject) : ∀ object ∈ s.objects y,
      (s.objects.set x ⟨((s.objects x).map (·.version + 1)).getD 1, value⟩ y = some object ∧
          y ≠ x) ∨
        y = x ∧ s.objects.set x ⟨((s.objects x).map (·.version + 1)).getD 1, value⟩ y =
          some ⟨object.version + 1, value⟩ := by
  intro object hobject
  by_cases hy : y = x
  · subst hy
    refine .inr ⟨rfl, ?_⟩
    rw [Table.set_self, Option.mem_def.mp hobject]
    rfl
  · exact .inl ⟨by rw [Table.set_of_ne hy, Option.mem_def.mp hobject], hy⟩

theorem stateOk_change (h : StateOk directory s) (hid : stringValue (value.get "id") = some x.2) :
    StateOk directory
      { s with
        objects := s.objects.set x ⟨((s.objects x).map (·.version + 1)).getD 1, value⟩ } where
  named y object hobject := by
    rcases Table.set_eq_some.mp hobject with ⟨rfl, rfl⟩ | ⟨-, hobject⟩
    · exact hid
    · exact h.named y object hobject
  reports e he := by
    refine reports_mono (h.reports e he) fun y object hobject => ?_
    rcases @objects_change _ _ x value y object hobject with ⟨ho, -⟩ | ⟨-, ho⟩
    · exact ⟨object, ho, le_rfl⟩
    · exact ⟨_, ho, Nat.le_succ _⟩
  live := h.live
  converged := by
    rintro y ⟨object, hobject, ⟨e, he, hsub, hv⟩, hall⟩ object' hobject'
    obtain rfl : object = object' := some.inj (hobject.symm.trans hobject')
    rcases Table.set_eq_some.mp hobject with ⟨rfl, rfl⟩ | ⟨-, hold⟩
    · -- no event reports the new change yet
      obtain ⟨object, ho, hle⟩ := (h.reports e he).2 y hsub
      rw [hv, Option.mem_def.mp ho] at hle
      simp only [Option.map_some, Option.getD_some] at hle
      omega
    · exact (h.converged y ⟨object, hold, ⟨e, he, hsub, hv⟩, hall⟩ object hold).congr rfl rfl

theorem currentOf_change (h : CurrentOf s stored version current) : CurrentOf
      { s with
        objects := s.objects.set x ⟨((s.objects x).map (·.version + 1)).getD 1, value⟩ }
      stored version current := by
  intro y hy
  obtain ⟨ha, hid, object, hobject, hle, hle', heq⟩ := h y hy
  refine ⟨ha, hid, ?_⟩
  rcases @objects_change _ _ x value y object hobject with ⟨ho, -⟩ | ⟨-, ho⟩
  · exact ⟨object, ho, hle, hle', heq⟩
  · refine ⟨_, ho, hle, by simp only; omega, fun hv => ?_⟩
    simp only at hv
    omega

theorem stateOk_store (h : StateOk directory s) (hr : Reports s event version) :
    StateOk directory { s with events := s.events ++ [⟨event, version, false⟩] } where
  named := h.named
  reports e he := by
    rcases List.mem_append.mp he with he | he
    · exact h.reports e he
    · rw [List.mem_singleton.mp he]
      exact hr
  live := h.live
  converged := by
    rintro y ⟨object, hobject, ⟨e, he, hsub, hv⟩, hall⟩ object' hobject'
    have hold : e ∈ s.events := by
      rcases List.mem_append.mp he with he' | he'
      · exact he'
      · have hp := hall e he hsub hv
        rw [List.mem_singleton.mp he'] at hp
        cases hp
    refine (h.converged y ⟨object, hobject, ⟨e, hold, hsub, hv⟩, fun e' he' => ?_⟩ object'
      hobject').congr rfl rfl
    exact hall e' (List.mem_append_left _ he')

theorem storedAs_store {v : ℕ} (h : StoredAs s id stored version) :
    StoredAs { s with events := s.events ++ [⟨event, v, false⟩] } id stored version := by
  obtain ⟨e, he, hs⟩ := h
  refine ⟨e, ?_, hs⟩
  rw [List.getElem?_append_left (List.getElem?_eq_some_iff.mp he).1]
  exact he

/-! ### The transaction -/

section Transaction

variable [LinearOrder EventId] {saved : Option StripeValue}

theorem storedAs_project {id' : ℕ} {stored' : StripeWebhookEvent EventId}
    (h : StoredAs s id stored version) :
    StoredAs (s.project directory id' stored' current saved) id stored version := by
  obtain ⟨e, he, hs, hv⟩ := h
  simp only [StoredAs, WebhookState.project, List.getElem?_modify, he, Option.map_eq_map,
    Option.map_some, Option.some.injEq, exists_eq_left']
  split_ifs
  · exact ⟨hs, hv⟩
  · exact ⟨hs, hv⟩

/-- An event of the state after the transaction is one of the state before, perhaps processed. -/
theorem mem_events_project {e : StoredEvent EventId}
    (h : e ∈ (s.project directory id stored current saved).events) :
    ∃ e' ∈ s.events, e'.event = e.event ∧ e'.version = e.version := by
  obtain ⟨j, hj⟩ := List.mem_iff_getElem?.mp h
  simp only [WebhookState.project, List.getElem?_modify, Option.map_eq_map,
    Option.map_eq_some_iff] at hj
  obtain ⟨e', he', rfl⟩ := hj
  refine ⟨e', List.mem_of_getElem? he', ?_⟩
  split_ifs
  · exact ⟨rfl, rfl⟩
  · exact ⟨rfl, rfl⟩

/-- **The last change was processed before**, or it is the one that the event of the transaction
reports. -/
theorem lastChangeProcessed_cases (hs : StoredAs s id stored version)
    (h : LastChangeProcessed (s.project directory id stored current saved) x) :
    LastChangeProcessed s x ∨
      (subject stored = some x ∧ ∃ object ∈ s.objects x, version = object.version) := by
  obtain ⟨object, hobject, ⟨e, he, hsub, hv⟩, hall⟩ := h
  by_cases hp : ∀ e ∈ s.events, subject e.event = some x → e.version = object.version →
      e.processed = true
  · obtain ⟨e', he', hevent, hversion⟩ := mem_events_project he
    exact .inl ⟨object, hobject, ⟨e', he', hevent ▸ hsub, hversion.trans hv⟩, hp⟩
  · push Not at hp
    obtain ⟨e₀, he₀, hsub₀, hv₀, hp₀⟩ := hp
    obtain ⟨j, hj⟩ := List.mem_iff_getElem?.mp he₀
    by_cases hji : id = j
    · subst hji
      obtain ⟨e₁, he₁, rfl, rfl⟩ := hs
      rw [hj] at he₁
      cases he₁
      exact .inr ⟨hsub₀, object, hobject, hv₀⟩
    · -- the event of another number is not processed by this transaction
      refine absurd (hall e₀ ?_ hsub₀ hv₀) hp₀
      refine List.mem_of_getElem? (i := j) ?_
      simp [WebhookState.project, hji, hj]

omit [LinearOrder EventId] in
theorem resource_of_subject (h : subject stored = some x) : stored.type.resource = some x.1 := by
  unfold subject at h
  split at h
  · rename_i hr _
    cases h
    exact hr
  · cases h

omit [LinearOrder EventId] in
theorem no_resource (h : subject stored = none)
    (hid : (stringValue (stored.object.get "id")).isSome = true) : stored.type.resource = none := by
  unfold subject at h
  split at h
  · cases h
  · rename_i hno
    obtain ⟨id, hid⟩ := Option.isSome_iff_exists.mp hid
    cases hr : stored.type.resource with
    | none => rfl
    | some resource => exact absurd hid (hno resource id hr)

theorem mem_projections_project {q : Projection} (h : q ∈ s.projections) :
    q ∈ (s.project directory id stored current saved).projections :=
  List.mem_append_right _ h

theorem Shown.of_no_subject {object : StripeValue} (h : Shown directory s x object)
    (hid : (stringValue (stored.object.get "id")).isSome = true) (hn : subject stored = none) :
    Shown directory (s.project directory id stored current saved) x object := by
  have hr := no_resource hn hid
  have hsubscription : ∀ name, stored.type ≠ .subscription name := by
    intro name he
    rw [he] at hr
    cases hr
  have hintent : ∀ name, stored.type ≠ .paymentIntent name := by
    intro name he
    rw [he] at hr
    cases hr
  refine ⟨fun hx a ha => ?_, fun type ht a ha input hi => ?_, fun hx => ?_⟩
  · rw [ShowsSubscription, WebhookState.project, subscriptions_of_ne hsubscription]
    exact h.subscription hx a ha
  · refine (h.payment type ht a ha input hi).of_eq ?_ fun q => mem_projections_project
    exact payments_of_none (.inr (paymentInput_of_no_resource hr))
  · rw [WebhookState.project, chargeableItems_of_ne hintent]
    exact h.item hx

/-- **The current object is projected.** -/
theorem shown_project (hl : ∀ id, ∀ row ∈ s.rows.payments id, row.deletedAt = none)
    (hx : subject stored = some x) (hauth : current.authoritative = true)
    (hid : stringValue (current.object.get "id") = some x.2)
    (hsubscription : x.1 = .subscription → SubscriptionReady s.rows x.2 current.object)
    (hpayment : ∀ a ∈ attributionForStripeObject directory current.object,
      ∀ input ∈ paymentInput stored.type current.object,
        PaymentReady directory s.projections s.rows x a input) :
    Shown directory (s.project directory id stored current saved) x current.object := by
  have hr := resource_of_subject hx
  refine ⟨fun hres a ha => ?_, fun type ht a ha input hi => ?_, fun hres => ?_⟩
  · obtain ⟨name, ht⟩ : ∃ name, stored.type = .subscription name := by
      rw [hres] at hr
      cases hk : stored.type <;> rw [hk] at hr <;> cases kind_of_resource hr
      exact ⟨_, rfl⟩
    simp only [WebhookState.project, ht]
    exact shows_projectSubscription hid ha hauth (hsubscription hres)
  · rw [paymentInput_congr ht hr] at hi
    have hshows := @shows_upsertPayment _ directory s.now _ _ _ saved
      (stored.cursor current.authoritative) _ _ _ _ _ ha hi (by exact hauth) (hl _)
      (hpayment a ha input hi)
    exact hshows.of_eq rfl fun q => mem_projections_project
  · obtain ⟨name, ht⟩ : ∃ name, stored.type = .paymentIntent name := by
      rw [hres] at hr
      cases hk : stored.type <;> rw [hk] at hr <;> cases kind_of_resource hr
      exact ⟨_, rfl⟩
    simp only [WebhookState.project, ht]
    exact shows_projectChargeableItem

/-- **Another object is projected.** -/
theorem Shown.project {object : StripeValue} {y : Subject} (h : Shown directory s x object)
    (hl : ∀ id, ∀ row ∈ s.rows.payments id, row.deletedAt = none)
    (hobject : stringValue (object.get "id") = some x.2) (hy : subject stored = some y)
    (hne : x ≠ y) (hauth : current.authoritative = true)
    (hid : stringValue (current.object.get "id") = some y.2)
    (hagree : ∀ type : EventType, type.resource = some x.1 →
      ∀ a' ∈ attributionForStripeObject directory object, ∀ input' ∈ paymentInput type object,
        ∀ a ∈ attributionForStripeObject directory current.object,
          ∀ input ∈ paymentInput stored.type current.object,
            input.paymentIntentId = input'.paymentIntentId →
              ∀ c, ∀ u ∈ given a' input' c, ∀ v ∈ given a input c, u = v) :
    Shown directory (s.project directory id stored current saved) x object := by
  have hr := resource_of_subject hy
  refine ⟨fun hres a ha => ?_, fun type ht a ha input hi => ?_, fun hres => ?_⟩
  · by_cases hs : ∃ name, stored.type = .subscription name
    · obtain ⟨name, ht⟩ := hs
      have hids : x.2 ≠ y.2 := by
        intro he
        rw [ht] at hr
        exact hne (Prod.ext (hres.trans (some.inj hr)) he)
      simp only [ShowsSubscription, WebhookState.project, ht, subscriptions_of_other hid hids]
      exact h.subscription hres a ha
    · push Not at hs
      rw [ShowsSubscription, WebhookState.project, subscriptions_of_ne hs]
      exact h.subscription hres a ha
  · have hshows := h.payment type ht a ha input hi
    rcases Option.eq_none_or_eq_some (attributionForStripeObject directory current.object) with
      ha' | ⟨a', ha'⟩
    · exact hshows.of_eq (payments_of_none (.inl ha')) fun q => mem_projections_project
    rcases Option.eq_none_or_eq_some (paymentInput stored.type current.object) with
      hi' | ⟨input', hi'⟩
    · exact hshows.of_eq (payments_of_none (.inr hi')) fun q => mem_projections_project
    refine hshows.project ha' hi' (by exact hauth) (hl _) (fun q => mem_projections_project) ?_ ?_
    · refine ⟨⟨y, stored.type, current.object⟩, ?_, Ne.symm hne, rfl, rfl⟩
      simp [WebhookState.project, hy]
    · exact hagree type ht a ha input hi a' ha' input' hi'
  · by_cases hs : ∃ name, stored.type = .paymentIntent name
    · obtain ⟨name, ht⟩ := hs
      have hids : y.2 ≠ x.2 := by
        intro he
        rw [ht] at hr
        exact hne (Prod.ext (hres.trans (some.inj hr)) he.symm)
      simp only [WebhookState.project, ht]
      refine (h.item hres).project ?_
      rw [hid, hobject]
      exact fun he => hids (some.inj he)
    · push Not at hs
      rw [WebhookState.project, chargeableItems_of_ne hs]
      exact h.item hres

/-- **A transaction in order** keeps the rows right. -/
theorem stateOk_project (h : StateOk directory s) (hs : StoredAs s id stored version)
    (hc : CurrentOf s stored version current)
    (hgood : ∀ x ∈ subject stored, InOrder directory s x stored.type current) :
    StateOk directory (s.project directory id stored current saved) where
  named := h.named
  reports e he := by
    obtain ⟨e', he', hevent, hversion⟩ := mem_events_project he
    have hr := h.reports e' he'
    rwa [hevent, hversion] at hr
  live := payments_live h.live
  converged := by
    intro x hx object hobject
    have hnamed := h.named x object hobject
    cases hsub : subject stored with
    | none =>
      obtain ⟨e, he, rfl, rfl⟩ := hs
      have hid := (h.reports e (List.mem_of_getElem? he)).1
      rcases lastChangeProcessed_cases ⟨e, he, rfl, rfl⟩ hx with hold | ⟨hx', -⟩
      · exact (h.converged x hold object hobject).of_no_subject hid hsub
      · rw [hsub] at hx'
        cases hx'
    | some y =>
      obtain ⟨hauth, hid, object', hobject', hle, hle', heq⟩ := hc y hsub
      obtain ⟨hlatest, hready, hagree⟩ := hgood y hsub
      by_cases hxy : x = y
      · subst hxy
        obtain rfl : object = object' := some.inj (hobject.symm.trans hobject')
        have hv : current.version = object.version := by
          rcases lastChangeProcessed_cases hs hx with hold | ⟨-, object', ho', hv⟩
          · exact hlatest hold object hobject
          · obtain rfl : object = object' := some.inj (hobject.symm.trans ho')
            omega
        rw [← heq hv]
        obtain ⟨hsubscription, hpayment⟩ := hready object hobject hv
        exact shown_project h.live hsub hauth hid hsubscription hpayment
      · rcases lastChangeProcessed_cases hs hx with hold | ⟨hx', -⟩
        · refine (h.converged x hold object hobject).project h.live hnamed hsub hxy hauth hid ?_
          intro type ht a' ha' input' hi'
          have ⟨object₁, hobject₁, ⟨e, he, hsubject, _⟩, _⟩ := hold
          obtain rfl : object = object₁ := some.inj (hobject.symm.trans hobject₁)
          refine hagree e he x hsubject hxy hold object hobject a' ha' input' ?_
          rw [← paymentInput_congr ht (resource_of_subject hsubject)]
          exact hi'
        · rw [hsub] at hx'
          exact absurd (some.inj hx').symm hxy

end Transaction

/-! ### The steps of a worker -/

section Steps

variable [LinearOrder EventId]

omit [LinearOrder EventId] in
theorem currentOf_retrieve (h : StateOk directory s) (hs : StoredAs s id stored version)
    (hobject : (subject stored).bind s.objects = some object) :
    CurrentOf s stored version
      ⟨(retrieveCurrentStripeObject stored.type stored.object (some s.client)).1,
        (retrieveCurrentStripeObject stored.type stored.object (some s.client)).2,
        object.version⟩ := by
  intro x hx
  rw [hx, Option.bind_some] at hobject
  have hret : retrieveCurrentStripeObject stored.type stored.object (some s.client) =
      (object.value, true) := by
    unfold subject at hx
    split at hx
    · rename_i resource id hr hid
      cases hx
      simp only [retrieveCurrentStripeObject, hr, hid, WebhookState.client]
      rw [hobject]
      rfl
    · cases hx
  obtain ⟨e, he, rfl, rfl⟩ := hs
  obtain ⟨object', ho', hle⟩ := (h.reports e (List.mem_of_getElem? he)).2 x hx
  obtain rfl : object = object' := some.inj (hobject.symm.trans ho')
  rw [hret]
  exact ⟨rfl, h.named x object hobject, object, hobject, hle, le_rfl, fun _ => rfl⟩

omit [LinearOrder EventId] in
theorem currentOf_no_subject (h : subject stored = none) : CurrentOf s stored version current := by
  intro x hx
  rw [h] at hx
  cases hx

/-- **One step of a worker** keeps the assertions. -/
theorem step_ok {pc pc' : WorkerPc EventId} {o : Outcome Thrown}
    (h : StateOk directory s) (hw : WorkerOk ⟨id, pc⟩ s)
    (hgood : o.TakesEffect → CommitsInOrder directory s pc)
    (hstep : workerStep directory s id pc o = some (s', pc')) :
    StateOk directory s' ∧ WorkerOk ⟨id, pc'⟩ s' ∧
      (∀ id stored version, StoredAs s id stored version → StoredAs s' id stored version) ∧
      ∀ stored version current, CurrentOf s stored version current →
        CurrentOf s' stored version current := by
  cases pc with
  | findUnique =>
    obtain ⟨rfl, hpc⟩ := Outcome.read_cases (some.inj hstep)
    refine ⟨h, ?_, fun _ _ _ hs => hs, fun _ _ _ hc => hc⟩
    rcases hpc with ⟨-, rfl⟩ | ⟨e, -, rfl⟩
    · cases he : s'.events[id]? with
      | none => trivial
      | some e => exact ⟨e.version, e, he, rfl, rfl⟩
    · trivial
  | retrieve stored =>
    obtain ⟨rfl, hpc⟩ := Outcome.read_cases (some.inj hstep)
    refine ⟨h, ?_, fun _ _ _ hs => hs, fun _ _ _ hc => hc⟩
    obtain ⟨version, hs⟩ := hw
    rcases hpc with ⟨-, rfl⟩ | ⟨e, -, rfl⟩
    · split
      · trivial
      · rename_i hno
        have hcurrent : CurrentOf s' stored version
            ⟨(retrieveCurrentStripeObject stored.type stored.object (some s'.client)).1,
              (retrieveCurrentStripeObject stored.type stored.object (some s'.client)).2,
              (((subject stored).bind s'.objects).map (·.version)).getD 0⟩ := by
          cases hsub : subject stored with
          | none => exact currentOf_no_subject hsub
          | some x =>
            cases hobject : (subject stored).bind s'.objects with
            | none => exact absurd hobject (hno x hsub)
            | some object =>
              have hc := currentOf_retrieve h hs hobject
              rw [hsub] at hobject
              rw [hobject]
              exact hc
        simp only
        split
        · exact ⟨version, hs, hcurrent⟩
        · exact ⟨version, hs, hcurrent⟩
    · trivial
  | retrieveSaved stored current savedId =>
    obtain ⟨rfl, hpc⟩ := Outcome.read_cases (some.inj hstep)
    refine ⟨h, ?_, fun _ _ _ hs => hs, fun _ _ _ hc => hc⟩
    rcases hpc with ⟨-, rfl⟩ | ⟨e, -, rfl⟩
    · split
      · trivial
      · exact hw
    · trivial
  | transaction stored current saved attempt =>
    obtain ⟨version, hs, hc⟩ := hw
    have hretried : ∀ e, WorkerOk ⟨id, retried stored current saved attempt e⟩ s := by
      intro e
      unfold retried
      split
      · split_ifs
        · trivial
        · exact ⟨version, hs, hc⟩
      · trivial
    rcases Outcome.run_cases (some.inj hstep) with
      ⟨rfl, rfl, rfl⟩ | ⟨e, rfl, rfl, rfl⟩ | ⟨e, rfl, rfl, rfl⟩
    · exact ⟨stateOk_project h hs hc (hgood trivial), trivial, fun _ _ _ => storedAs_project,
        fun _ _ _ hc => hc⟩
    · exact ⟨h, hretried e, fun _ _ _ hs => hs, fun _ _ _ hc => hc⟩
    · refine ⟨stateOk_project h hs hc (hgood trivial), ?_, fun _ _ _ => storedAs_project,
        fun _ _ _ hc => hc⟩
      exact (hretried e).mono (fun _ _ _ => storedAs_project) fun _ _ _ hc => hc
  | processed => cases hstep
  | thrown e => cases hstep

omit [LinearOrder EventId] in
theorem env_ok {e : StripeEvent EventId} (h : StateOk directory s) (hstep : stripe s e = some s') :
    StateOk directory s' ∧
      (∀ id stored version, StoredAs s id stored version → StoredAs s' id stored version) ∧
      ∀ stored version current, CurrentOf s stored version current →
        CurrentOf s' stored version current := by
  cases e with
  | tick ms =>
    cases hstep
    refine ⟨⟨h.named, h.reports, h.live, fun x hx object ho => ?_⟩, fun _ _ _ hs => hs,
      fun _ _ _ hc => hc⟩
    exact (h.converged x hx object ho).congr rfl rfl
  | change x value =>
    simp only [stripe] at hstep
    split_ifs at hstep with hid
    cases hstep
    exact ⟨stateOk_change h hid, fun _ _ _ hs => hs, fun _ _ _ => currentOf_change⟩
  | store event version =>
    simp only [stripe] at hstep
    split_ifs at hstep with hr
    cases hstep
    exact ⟨stateOk_store h hr, fun _ _ _ => storedAs_store, fun _ _ _ hc => hc⟩

theorem outline :
    Outline (@workers EventId _ directory items) (ProjectsInOrder directory)
      (assertions directory) where
  init :=
    { named := by
        rintro x object ⟨⟩
      reports := by simp [workers]
      live := by
        rintro id row ⟨⟩
      converged := by
        rintro x ⟨object, ⟨⟩, -⟩ }
  env w e s h _ hstep := by
    obtain ⟨hok, hstored, hcurrent⟩ := env_ok h.shared hstep
    exact ⟨hok, fun j worker hj => (h.proc j worker hj).mono hstored hcurrent⟩
  spawn w x s p h _ hstep := by
    cases hstep
    exact ⟨h.shared, trivial, fun j worker hj => ⟨h.proc j worker hj, trivial, trivial⟩⟩
  step w i worker o s worker' h hi hgood hstep := by
    obtain ⟨pc', hs, rfl⟩ := map_pair_inj hstep
    obtain ⟨hok, hw, -⟩ := step_ok h.shared (h.proc i worker hi)
      (fun ho => hgood ho worker hi) hs
    exact ⟨hok, hw⟩
  frame w i worker o s worker' h hi hgood hstep := by
    obtain ⟨pc', hs, rfl⟩ := map_pair_inj hstep
    obtain ⟨-, -, hstored, hcurrent⟩ := step_ok h.shared (h.proc i worker hi)
      (fun ho => hgood ho worker hi) hs
    exact fun j worker hne hj => ⟨(h.proc j worker hj).mono hstored hcurrent, trivial, trivial⟩

/-- **The projections converge**, in every run in which they are committed in order. -/
theorem converged {w : WorkersWorld EventId}
    (h : ReachableBy (workers directory items).system (ProjectsInOrder directory) w) :
    Converged directory w.shared :=
  (outline.holds h).shared.converged

end Steps

/-! ### Runs -/

def subscriptionObject (status : String) : StripeValue :=
  .object [("id", .string "sub_1"), ("status", .string status),
    ("metadata", .object [("userId", .string "user_1")])]

/-- Its payment is past due, and then made; both changes are reported. -/
def updatedEvent (id : ℕ) (status : String) : StripeWebhookEvent ℕ :=
  ⟨id, 100 * id, .subscription "updated", subscriptionObject status⟩

/-- A worker for each of the two events. The first one retrieves the object before it changes. -/
def twoWorkers : List (WorkersLabel ℕ) :=
  [.env (.change (.subscription, "sub_1") (subscriptionObject "past_due")),
    .env (.store (updatedEvent 1 "past_due") 1), .spawn 0, .step 0 .ok, .step 0 .ok,
    .env (.change (.subscription, "sub_1") (subscriptionObject "active")),
    .env (.store (updatedEvent 2 "active") 2), .spawn 1, .step 1 .ok, .step 1 .ok]

/-- The workers write in the order in which they have retrieved. -/
theorem converged_two : ∃ w : WorkersWorld ℕ,
    LastChangeProcessed w.shared (.subscription, "sub_1") ∧ Converged Directory.empty w.shared := by
  obtain ⟨w, hw, hp⟩ := (workers Directory.empty Table.empty).exists_reached
    (ProjectsInOrder Directory.empty) (twoWorkers ++ [.step 0 .ok, .step 1 .ok])
    (fun w => LastChangeProcessed w.shared (.subscription, "sub_1")) (by decide)
  exact ⟨w, hp, converged hw⟩

/-- **A stale projection.** The worker that has retrieved the subscription first writes last: the
event of the last change has been processed, and the row is past due. -/
theorem stale_projection : ∃ w : WorkersWorld ℕ,
    Reachable (workers Directory.empty Table.empty).system w ∧
      ¬ Converged Directory.empty w.shared := by
  obtain ⟨w, hw, hp, hobject, hrow⟩ := (workers Directory.empty Table.empty).exists_reached anyStep
    (twoWorkers ++ [.step 1 .ok, .step 0 .ok])
    (fun w => LastChangeProcessed w.shared (.subscription, "sub_1") ∧
      (w.shared.objects (.subscription, "sub_1")).any
          (fun o => stringValue (o.value.get "status") = some "active" ∧
            attributionForStripeObject Directory.empty o.value = some ⟨"user_1", none⟩) = true ∧
      (w.shared.rows.subscriptions "sub_1").map (·.status) = some "past_due") (by decide)
  refine ⟨w, hw, fun hconverged => ?_⟩
  obtain ⟨object, hobject, h⟩ := (Option.any_eq_true _ _).mp hobject
  obtain ⟨hstatus, ha⟩ := of_decide_eq_true h
  obtain ⟨row, hr, -, -, hshows⟩ := (hconverged _ hp object hobject).subscription rfl _ ha
  have hs := hshows.status
  rw [hr] at hrow
  simp only [subscriptionData, hstatus, Option.getD_some] at hs
  rw [Option.map_some, hs] at hrow
  exact absurd (some.inj hrow) (by decide)

end BackendFoundation.Stripe.Convergence
