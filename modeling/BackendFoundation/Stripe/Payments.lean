import BackendFoundation.Stripe.ChargeSteps
import Mathlib.Order.Nat

/-! # At most one payment for an item

The state machine of a chargeable item, over every interleaving of charges by any owners under any
keys, crashes, and projections of payment intents in any status (`PaymentsSafe`). Stripe is assumed
not to forget an idempotency key, so a key names one intent for good, and hashes to have no
collisions.

The invariant ties the row to Stripe: an intent that is not canceled belongs to an item that is
reserved or consumed under its own reservation (`PaymentsOk.holder`). A call may create an intent
long after it has reserved the item, when the item has been released and reserved again; but then
the intent of its key exists, since nothing else releases an item (`Backed`). -/

namespace BackendFoundation.Stripe.Payments

open Lib Lib.Runs Lib.Interleave Errors Crypto Stripe.Owner Stripe.ChargeModel Stripe.ChargeSteps
open Option (some.inj map_eq_some_iff)

variable {cfg : ChargeConfig} {R : Runtime} {K : Keyring} {s s' : ChargeState}
  {w w' : ChargeWorld} {request : ChargeRequest} {pc pc' : ChargePc} {id : Uuid}
  {hash : MetadataHash} {own : Option MetadataHash}

/-! ### Keys and reservations -/

theorem downstream_of_hash (hfree : CollisionFree R K) {o o' : BillingOwner} {k k' : String}
    (h : reservationKeyHash R K o k = reservationKeyHash R K o' k') :
    downstreamIdempotencyKey R K o k = downstreamIdempotencyKey R K o' k' := by
  have htext := (String.append_right_inj _).mp (hashMetadata_inj R K hfree h)
  obtain ⟨howner, rfl⟩ := billingOwnerKey_append_inj htext
  unfold downstreamIdempotencyKey
  rw [howner]

/-- The reservation that an intent carries is that of the call that created it. -/
def Keyed (R : Runtime) (K : Keyring) (intent : PaymentIntent) : Prop :=
  ∃ owner key,
    intent.params.metadata.chargeableReservationKeyHash = reservationKeyHash R K owner key ∧
      intent.idempotencyKey = downstreamIdempotencyKey R K owner key

/-! ### The assertions -/

structure PaymentsOk (R : Runtime) (K : Keyring) (s : ChargeState) : Prop where
  ids : ∀ p intent, s.intents p = some intent → p < s.nextIntent
  keyed : ∀ p intent, s.intents p = some intent → Keyed R K intent
  remembered : ∀ p intent, s.intents p = some intent →
    s.remembered intent.idempotencyKey = some p
  holder : ∀ p intent, s.intents p = some intent → intent.status ≠ .canceled →
    ∃ item, s.items intent.params.metadata.chargeableItemId = some item ∧
      Holds intent.params.metadata.chargeableReservationKeyHash item

/-- The item is held under the reservation, or the intent of the reservation exists. -/
def Backed (s : ChargeState) (id : Uuid) (hash : MetadataHash) : Prop :=
  (∃ item, s.items id = some item ∧ Holds hash item) ∨
    ∃ p intent, s.intents p = some intent ∧ intent.params.metadata.chargeableItemId = id ∧
      intent.params.metadata.chargeableReservationKeyHash = hash

/-- What holds of a call that is about to create its intent, or has seen that it may. -/
def ChargeOk (R : Runtime) (K : Keyring) (request : ChargeRequest) (s : ChargeState) :
    ChargePc → Prop
  | .check _ id item => item.status = .reserved →
    item.reservationKeyHash = some (request.reservationKeyHash R K) →
    Backed s id (request.reservationKeyHash R K)
  | .create reservation =>
    ReservesFor R K request reservation.reservationId reservation ∧
      Backed s reservation.reservationId (request.reservationKeyHash R K)
  | _ => True

def paymentsOk (R : Runtime) (K : Keyring) : Assertions ChargeState ChargeCall where
  shared := PaymentsOk R K
  proc _ call s := ChargeOk R K call.request s call.pc

/-- Stripe does not forget an idempotency key. -/
def Remembers (_ : ChargeWorld) : ChargeLabel → Prop
  | .env (.forget _) => False
  | _ => True

instance (w : ChargeWorld) (l : ChargeLabel) : Decidable (Remembers w l) := by
  unfold Remembers
  split <;> infer_instance

/-! ### One item -/

variable {item : ChargeableItem}

theorem holds_change {o : Option ChargeableItem} (h : ItemChange s own id (some item) o)
    (hh : Holds hash item) : (∃ item', o = some item' ∧ Holds hash item') ∨
      ∃ p intent, s.intents p = some intent ∧ intent.status = .canceled ∧
        intent.params.metadata.chargeableItemId = id ∧
        intent.params.metadata.chargeableReservationKeyHash = hash := by
  obtain ⟨hst, hhash⟩ := hh
  cases h with
  | same => exact .inl ⟨item, rfl, hst, hhash⟩
  | reserve _ hopen =>
    rw [hopen] at hst
    rcases hst with hst | hst <;> cases hst
  | @record _ _ p succeeded hrec =>
    refine .inl ⟨_, rfl, ?_, ?_⟩
    · unfold ChargeableItem.recorded
      split_ifs
      · exact .inr rfl
      · exact hst
    · unfold ChargeableItem.recorded
      split_ifs <;> exact hhash
  | consume => exact .inl ⟨_, rfl, .inr rfl, hhash⟩
  | release hp hcanceled hid hrec =>
    exact .inr ⟨_, _, hp, hcanceled, hid, some.inj (hrec.2.1.symm.trans hhash)⟩

theorem Backed.step (h : Backed s id hash) (hgrows : Grows s s')
    (hitem : ItemChange s own id (s.items id) (s'.items id)) : Backed s' id hash := by
  have hintent : ∀ p intent, s.intents p = some intent →
      intent.params.metadata.chargeableItemId = id →
      intent.params.metadata.chargeableReservationKeyHash = hash → Backed s' id hash := by
    intro p intent hp hid hhash
    obtain ⟨intent', hp', hparams, -⟩ := hgrows p intent hp
    exact .inr ⟨p, intent', hp', by rw [hparams, hid], by rw [hparams, hhash]⟩
  rcases h with ⟨item, hi, hh⟩ | ⟨p, intent, hp, hid, hhash⟩
  · rw [hi] at hitem
    rcases holds_change hitem hh with hkeep | ⟨p, intent, hp, -, hid, hhash⟩
    · exact .inl hkeep
    · exact hintent p intent hp hid hhash
  · exact hintent p intent hp hid hhash

theorem chargeOk_frame (h : ChargeOk R K request s pc) (hgrows : Grows s s')
    (hitem : ∀ id, ItemChange s own id (s.items id) (s'.items id)) : ChargeOk R K request s' pc := by
  cases pc with
  | check attempt id item => exact fun hst hhash => (h hst hhash).step hgrows (hitem id)
  | create reservation => exact ⟨h.1, h.2.step hgrows (hitem _)⟩
  | find | reserve | record | returned | thrown => trivial

/-! ### Steps of the calls -/

/-- The intent of a call that may create one for the item is that of its key. -/
theorem PaymentsOk.key_taken (h : PaymentsOk R K s) (hfree : CollisionFree R K) {p : ℕ}
    {intent : PaymentIntent} (hp : s.intents p = some intent)
    (hhash : intent.params.metadata.chargeableReservationKeyHash =
      request.reservationKeyHash R K) :
    s.remembered (request.downstreamIdempotencyKey R K) = some p := by
  obtain ⟨owner, key, hih, hik⟩ := h.keyed p intent hp
  have hkey := downstream_of_hash hfree (hih.symm.trans hhash)
  rw [← h.remembered p intent hp, hik, hkey]
  rfl

theorem PaymentsOk.intent_inj (h : PaymentsOk R K s) (hfree : CollisionFree R K) {p q : ℕ}
    {intent intent' : PaymentIntent} (hp : s.intents p = some intent)
    (hq : s.intents q = some intent')
    (hhash : intent.params.metadata.chargeableReservationKeyHash =
      intent'.params.metadata.chargeableReservationKeyHash) : p = q := by
  obtain ⟨owner, key, hih, hik⟩ := h.keyed p intent hp
  obtain ⟨owner', key', hih', hik'⟩ := h.keyed q intent' hq
  have hkey := downstream_of_hash hfree (hih.symm.trans (hhash.trans hih'))
  have hrem := h.remembered p intent hp
  rw [hik, hkey, ← hik', h.remembered q intent' hq] at hrem
  exact (some.inj hrem).symm

/-- The holder of an intent that stays, when no canceled intent but it could have released it. -/
theorem holder_change (h : PaymentsOk R K s) (hfree : CollisionFree R K) {p : ℕ}
    {intent : PaymentIntent} (hp : s.intents p = some intent) (hst : intent.status ≠ .canceled)
    (hitem : ItemChange s own intent.params.metadata.chargeableItemId
      (s.items intent.params.metadata.chargeableItemId)
      (s'.items intent.params.metadata.chargeableItemId)) :
    ∃ item, s'.items intent.params.metadata.chargeableItemId = some item ∧
      Holds intent.params.metadata.chargeableReservationKeyHash item := by
  obtain ⟨item, hi, hh⟩ := h.holder p intent hp hst
  rw [hi] at hitem
  rcases holds_change hitem hh with hkeep | ⟨q, intent', hq, hcanceled, -, hhash⟩
  · exact hkeep
  · obtain rfl := h.intent_inj hfree hp hq hhash.symm
    obtain rfl := some.inj (hp.symm.trans hq)
    exact absurd hcanceled hst

theorem paymentsOk_steps (h : PaymentsOk R K s) (hfree : CollisionFree R K)
    (hc : ChargeOk R K request s pc) (hs : Steps cfg R K s request pc s' pc') :
    PaymentsOk R K s' := by
  have hitem := hs.itemChange
  cases hs with
  | throws | found | held | free | missed | resumes => exact h
  | reserves | records =>
    exact ⟨h.ids, h.keyed, h.remembered,
      fun p intent hp hst => holder_change h hfree hp hst (hitem _)⟩
  | @creates reservation params status secret _ hparams hnone =>
    obtain ⟨hres, hbacked⟩ := hc
    obtain ⟨hmid, hmhash⟩ := chargeParams_metadata hparams
    have hid : params.metadata.chargeableItemId = reservation.reservationId :=
      hmid.trans hres.chargeableItemId
    have hhash : params.metadata.chargeableReservationKeyHash =
        request.reservationKeyHash R K := hmhash.trans hres.hash
    refine ⟨fun p intent hp => ?_, fun p intent hp => ?_, fun p intent hp => ?_,
      fun p intent hp hst => ?_⟩
    · rcases Table.set_eq_some.mp hp with ⟨rfl, -⟩ | ⟨-, hp⟩
      · exact Nat.lt_succ_self _
      · exact Nat.lt_succ_of_lt (h.ids p intent hp)
    · rcases Table.set_eq_some.mp hp with ⟨-, rfl⟩ | ⟨-, hp⟩
      · exact ⟨_, _, hhash, rfl⟩
      · exact h.keyed p intent hp
    · rcases Table.set_eq_some.mp hp with ⟨rfl, rfl⟩ | ⟨-, hp⟩
      · exact Table.set_self
      · have hrem := h.remembered p intent hp
        have hne : intent.idempotencyKey ≠ request.downstreamIdempotencyKey R K := by
          intro he
          rw [he, hnone] at hrem
          cases hrem
        exact (Table.set_of_ne hne).trans hrem
    · rcases Table.set_eq_some.mp hp with ⟨rfl, rfl⟩ | ⟨-, hp⟩
      · simp only [hid, hhash]
        rcases hbacked with hheld | ⟨q, intent', hq, -, hqhash⟩
        · exact hheld
        · -- the intent of the key would be there already
          rw [h.key_taken hfree hq hqhash] at hnone
          cases hnone
      · exact h.holder p intent hp hst

theorem chargeOk_steps (hc : ChargeOk R K request s pc)
    (hs : Steps cfg R K s request pc s' pc') : ChargeOk R K request s' pc' := by
  have hreserved : ∀ {s' : ChargeState} {id : Uuid} {pc' : ChargePc},
      Reserved R K request id pc' → Backed s' id (request.reservationKeyHash R K) →
      ChargeOk R K request s' pc' := by
    rintro s' id pc' (⟨reservation, hres, rfl⟩ | ⟨e, -, rfl⟩) hbacked
    · obtain rfl := hres.reservationId
      exact ⟨hres, hbacked⟩
    · trivial
  have hcreated : ∀ {s' : ChargeState} {reservation : ReservedChargeable} {intent : PaymentIntent}
      {p : ℕ} {pc' : ChargePc}, Created reservation intent p pc' →
      ChargeOk R K request s' pc' := by
    rintro s' reservation intent p pc' (⟨shown, after, rfl, -⟩ | ⟨e, -, rfl⟩)
    · trivial
    · trivial
  cases hs with
  | throws => trivial
  | found hitem =>
    intro hst hhash
    exact .inl ⟨_, hitem, .inl hst, hhash⟩
  | held hst hhash hres => exact hreserved hres (hc hst hhash)
  | free => trivial
  | reserves hrow hopen hres =>
    exact hreserved hres (.inl ⟨_, Table.set_self, .inl rfl, rfl⟩)
  | missed => trivial
  | creates _ _ hcre => exact hcreated hcre
  | resumes _ _ _ hcre => exact hcreated hcre
  | records _ _ hafter =>
    rcases hafter with ⟨result, -, rfl⟩ | ⟨e, -, rfl⟩
    · trivial
    · trivial

theorem paymentsOk_event {e : ChargeEvent} (h : PaymentsOk R K s) (hfree : CollisionFree R K)
    (he : ∀ key, e ≠ .forget key) (hs : event s e = some s') : PaymentsOk R K s' := by
  obtain ⟨hnext, hintents, hrem⟩ := event_intents hs
  have hrem : s'.remembered = s.remembered := by
    rcases hrem with hrem | ⟨key, hforget⟩
    · exact hrem
    · exact absurd hforget (he key)
  -- an intent of the later state, in the earlier one
  have hold : ∀ p intent', s'.intents p = some intent' → ∃ intent, s.intents p = some intent ∧
      intent'.params = intent.params ∧ intent'.idempotencyKey = intent.idempotencyKey ∧
      (intent.status = .canceled → intent'.status = .canceled) := by
    intro p intent' hp'
    rcases hintents p with hsame | ⟨intent, status, hp, hfinal, hset⟩
    · exact ⟨intent', hsame.symm.trans hp', rfl, rfl, id⟩
    · obtain rfl := some.inj (hset.symm.trans hp')
      refine ⟨intent, hp, rfl, rfl, fun hst => ?_⟩
      rw [hst] at hfinal
      exact absurd trivial hfinal
  refine ⟨fun p intent' hp' => ?_, fun p intent' hp' => ?_, fun p intent' hp' => ?_,
    fun p intent' hp' hst => ?_⟩
  · obtain ⟨intent, hp, -⟩ := hold p intent' hp'
    rw [hnext]
    exact h.ids p intent hp
  · obtain ⟨intent, hp, hparams, hkey, -⟩ := hold p intent' hp'
    obtain ⟨owner, key, hhash, hdown⟩ := h.keyed p intent hp
    exact ⟨owner, key, by rw [hparams, hhash], by rw [hkey, hdown]⟩
  · obtain ⟨intent, hp, -, hkey, -⟩ := hold p intent' hp'
    rw [hkey, hrem]
    exact h.remembered p intent hp
  · obtain ⟨intent, hp, hparams, -, hcanceled⟩ := hold p intent' hp'
    rw [hparams]
    exact holder_change h hfree hp (fun hc => hst (hcanceled hc)) (event_itemChange hs _)

/-- **The invariant of the payments.** -/
theorem paymentsOutline (hfree : CollisionFree R K) :
    Outline (charges cfg R K) Remembers (paymentsOk R K) where
  init := by
    refine PaymentsOk.mk (fun p intent hp => ?_) (fun p intent hp => ?_) (fun p intent hp => ?_)
      fun p intent hp => ?_
    all_goals cases hp
  env w e s h hg hs := by
    have he : ∀ key, e ≠ .forget key := by
      rintro key rfl
      exact hg
    refine ⟨paymentsOk_event h.shared hfree he hs, fun j q hq => ?_⟩
    exact chargeOk_frame (h.proc j q hq) (event_grows hs) (event_itemChange hs)
  spawn w request s p h _ hs := by
    obtain ⟨rfl, rfl⟩ := pair_inj hs
    refine ⟨h.shared, ?_, fun j q hq => ⟨h.proc j q hq, trivial, trivial⟩⟩
    change ChargeOk R K request w.shared (startCharge cfg request).pc
    unfold startCharge
    split_ifs <;> trivial
  step w i p c s p' h hi _ hs := by
    obtain ⟨pc', hrun, rfl⟩ := map_pair_inj hs
    have hsteps := createCharge_steps hrun
    exact ⟨paymentsOk_steps h.shared hfree (h.proc i p hi) hsteps,
      chargeOk_steps (h.proc i p hi) hsteps⟩
  frame w i p c s p' h hi _ hs j q hj hq := by
    obtain ⟨pc', hrun, rfl⟩ := map_pair_inj hs
    have hsteps := createCharge_steps hrun
    exact ⟨chargeOk_frame (h.proc j q hq) (hsteps.grows h.shared.ids) hsteps.itemChange, trivial,
      trivial⟩

/-! ### The result -/

/-- What a step may make of an item. -/
structure ItemSafe (s : ChargeState) (id : Uuid) (item item' : ChargeableItem) : Prop where
  consumed : item.status = .consumed → item'.status = .consumed
  reservation : item.reservationKeyHash ≠ item'.reservationKeyHash →
    (item.status = .opened ∧ item'.status = .reserved) ∨
      (item.status = .reserved ∧ item'.status = .opened)
  intent : item.status = .reserved ∨ item.status = .consumed →
    item'.status = .reserved ∨ item'.status = .consumed →
    ∀ p, item.paymentIntentId = some p → item'.paymentIntentId = some p
  released : item.status = .reserved → item'.status = .opened → ∃ p intent,
    s.intents p = some intent ∧ intent.status = .canceled ∧
      intent.params.metadata.chargeableItemId = id ∧
      item.reservationKeyHash = some intent.params.metadata.chargeableReservationKeyHash

theorem records_intent {p q : ℕ} (h : item.paymentIntentId = none ∨ item.paymentIntentId = some p)
    (hq : item.paymentIntentId = some q) : some p = some q := by
  rcases h with h | h
  · rw [h] at hq
    cases hq
  · exact h.symm.trans hq

theorem itemSafe_of_change {o : Option ChargeableItem} (h : ItemChange s own id (some item) o) :
    ∃ item', o = some item' ∧ ItemSafe s id item item' := by
  cases h with
  | same =>
    refine ⟨item, rfl, ⟨fun hst => hst, fun hne => absurd rfl hne, fun _ _ p hp => hp,
      fun hres hopen => ?_⟩⟩
    rw [hres] at hopen
    cases hopen
  | reserve _ hopen =>
    refine ⟨_, rfl, ⟨fun hst => ?_, fun _ => .inl ⟨hopen, rfl⟩, fun hst => ?_, fun hst => ?_⟩⟩
    · rw [hopen] at hst
      cases hst
    · rw [hopen] at hst
      rcases hst with hst | hst <;> cases hst
    · rw [hopen] at hst
      cases hst
  | @record _ hash p succeeded hrec =>
    obtain ⟨hres, -, hpi⟩ := hrec
    unfold ChargeableItem.recorded
    refine ⟨_, rfl, ⟨fun hst => ?_, fun hne => ?_, fun _ _ q hq => ?_, fun _ hopen => ?_⟩⟩
    · rw [hres] at hst
      cases hst
    · split_ifs at hne <;> exact absurd rfl hne
    · have hpq := records_intent hpi hq
      split_ifs <;> exact hpq
    · split_ifs at hopen
      rw [show item.status = .opened from hopen] at hres
      cases hres
  | consume hp hst hholds hpi =>
    refine ⟨_, rfl, ⟨fun _ => rfl, fun hne => absurd rfl hne,
      fun _ _ q hq => records_intent hpi hq, fun _ hopen => ?_⟩⟩
    cases hopen
  | release hp hcanceled hid hrec =>
    refine ⟨_, rfl, ⟨fun hst => ?_, fun _ => .inr ⟨hrec.1, rfl⟩, fun _ hst => ?_,
      fun _ _ => ⟨_, _, hp, hcanceled, hid, hrec.2.1⟩⟩⟩
    · rw [hrec.1] at hst
      cases hst
    · rcases hst with hst | hst <;> cases hst

theorem next_itemChange {l : ChargeLabel} (hn : (charges cfg R K).next w l = some w')
    (id : Uuid) : ∃ own, ItemChange w.shared own id (w.shared.items id) (w'.shared.items id) := by
  cases Program.move_of_next hn with
  | @spawn request s p hs =>
    obtain ⟨rfl, rfl⟩ := pair_inj hs
    exact ⟨none, .same⟩
  | @step i c p p' s hi hs =>
    obtain ⟨pc', hrun, rfl⟩ := map_pair_inj hs
    exact ⟨_, (createCharge_steps hrun).itemChange id⟩
  | crash hi => exact ⟨none, .same⟩
  | @env e s hs => exact ⟨none, event_itemChange hs id⟩

theorem next_grows {l : ChargeLabel} (h : PaymentsOk R K w.shared)
    (hn : (charges cfg R K).next w l = some w') : Grows w.shared w'.shared := by
  have hsame : Grows w.shared w.shared := fun p intent hp => ⟨intent, hp, rfl, rfl, fun _ => rfl⟩
  cases Program.move_of_next hn with
  | @spawn request s p hs =>
    obtain ⟨rfl, rfl⟩ := pair_inj hs
    exact hsame
  | @step i c p p' s hi hs =>
    obtain ⟨pc', hrun, rfl⟩ := map_pair_inj hs
    exact (createCharge_steps hrun).grows h.ids
  | crash hi => exact hsame
  | @env e s hs => exact event_grows hs

structure PaymentsSafe (cfg : ChargeConfig) (R : Runtime) (K : Keyring) (w : ChargeWorld) :
    Prop where
  /-- An item stays, and changes as the state machine says. -/
  items : ∀ l w' id item, (charges cfg R K).next w l = some w' → w.shared.items id = some item →
    ∃ item', w'.shared.items id = some item' ∧ ItemSafe w.shared id item item'
  /-- At most one intent of an item has succeeded. -/
  once : ∀ p q intent intent', w.shared.intents p = some intent →
    w.shared.intents q = some intent' → intent.status = .succeeded →
    intent'.status = .succeeded → intent.params.metadata.chargeableItemId =
      intent'.params.metadata.chargeableItemId → p = q
  /-- An intent that has succeeded stays so, for the same item. -/
  forever : ∀ l w' p intent, (charges cfg R K).next w l = some w' →
    w.shared.intents p = some intent → intent.status = .succeeded →
    ∃ intent', w'.shared.intents p = some intent' ∧ intent'.status = .succeeded ∧
      intent'.params = intent.params

/-- **At most one payment.** -/
theorem payments_safe (cfg : ChargeConfig) (R : Runtime) (K : Keyring) (hfree : CollisionFree R K)
    (w : ChargeWorld) (h : ReachableBy (charges cfg R K).system Remembers w) :
    PaymentsSafe cfg R K w := by
  have hw := (paymentsOutline hfree).holds h
  refine ⟨fun l w' id item hn hitem => ?_, fun p q intent intent' hp hq hst hst' hid => ?_,
    fun l w' p intent hn hp hst => ?_⟩
  · obtain ⟨own, hchange⟩ := next_itemChange hn id
    rw [hitem] at hchange
    exact itemSafe_of_change hchange
  · have hne : ∀ intent : PaymentIntent, intent.status = .succeeded →
        intent.status ≠ .canceled := by
      intro intent hst hc
      rw [hst] at hc
      cases hc
    obtain ⟨item, hi, -, hhash⟩ := hw.shared.holder p intent hp (hne intent hst)
    obtain ⟨item', hi', -, hhash'⟩ := hw.shared.holder q intent' hq (hne intent' hst')
    rw [hid, hi'] at hi
    obtain rfl := some.inj hi
    exact hw.shared.intent_inj hfree hp hq (some.inj (hhash.symm.trans hhash'))
  · obtain ⟨intent', hp', hparams, -, hfinal⟩ := next_grows hw.shared hn p intent hp
    refine ⟨intent', hp', ?_, hparams⟩
    rw [hfinal (by rw [hst]; trivial), hst]

/-- The intent of the key `a` is canceled, and the key `b` pays for the item. -/
theorem payments_safe_paid :
    ∃ w, (∃ item ∈ w.shared.items "item-1", item.status = .consumed) ∧
      PaymentsSafe exampleCharges exampleRuntime exampleKeyring w := by
  obtain ⟨w, hw, hitem⟩ := (charges exampleCharges exampleRuntime exampleKeyring).exists_reached
    Remembers
    [addExampleItem, .spawn (exampleRequest "a"), .step 0 {}, .step 0 {}, .step 0 {}, .step 0 {},
      .env (.intentStatus 0 .canceled), .env (.projection 0 .canceled),
      .spawn (exampleRequest "b"), .step 1 {}, .step 1 {}, .step 1 {}, .step 1 {},
      .env (.intentStatus 1 .succeeded), .env (.projection 1 .succeeded)]
    (fun w => ∃ item ∈ w.shared.items "item-1", item.status = .consumed) (by decide)
  exact ⟨w, hitem, payments_safe exampleCharges exampleRuntime exampleKeyring
    exampleRuntime_collisionFree w hw⟩

end BackendFoundation.Stripe.Payments
