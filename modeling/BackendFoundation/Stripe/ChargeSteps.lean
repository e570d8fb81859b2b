import BackendFoundation.Stripe.ChargeModel

/-! # What a step of a charge does

`Steps` lists what a step of `createCharge` can do, with the guard of each case and where the
call goes on; `createCharge_steps` says that these are all. A conflict is reported only if the call
was `Refused`. `EventStep` lists what happens outside the calls (`event_step`). -/

namespace BackendFoundation.Stripe.ChargeSteps

open Lib Errors Crypto Stripe.Owner Stripe.ChargeModel
open Option (some.inj map_eq_some_iff)

variable {cfg : ChargeConfig} {R : Runtime} {K : Keyring} {s s' : ChargeState}
  {request : ChargeRequest} {pc pc' : ChargePc}

/-! ### The statements -/

theorem updateItem_cases (s : ChargeState) (id : Uuid) (cond : ChargeableItem → Prop)
    [DecidablePred cond] (data : ChargeableItem → ChargeableItem) :
    (∃ item, s.items id = some item ∧ item.deletedAt = none ∧ cond item ∧
        s.updateItem id cond data = ({ s with items := s.items.set id (data item) }, 1)) ∨
      ((∀ item, s.items id = some item → item.deletedAt = none → ¬ cond item) ∧
        s.updateItem id cond data = (s, 0)) := by
  unfold ChargeState.updateItem
  rcases s.items.updateWhere_cases id (fun item => item.deletedAt = none ∧ cond item) data with
    ⟨item, hitem, ⟨hlive, hc⟩, he⟩ | ⟨hno, he⟩
  · exact .inl ⟨item, hitem, hlive, hc, by rw [he]⟩
  · exact .inr ⟨fun item hitem hlive hc => hno item hitem ⟨hlive, hc⟩, by rw [he]⟩

variable {item : ChargeableItem}

theorem findFirst_eq_some {reference : String} {pick : ℕ} {id : Uuid}
    (h : s.findFirst reference pick = some (some (id, item))) :
    s.items id = some item ∧ item.reference = reference ∧ item.deletedAt = none := by
  have hmem : (id, item) ∈ s.liveItems reference := by
    unfold ChargeState.findFirst at h
    split at h
    · cases h
    · obtain ⟨found, hfound, he⟩ := map_eq_some_iff.mp h
      rw [← some.inj he]
      exact List.mem_of_getElem? hfound
  obtain ⟨k, -, hrow⟩ := List.mem_filterMap.mp hmem
  obtain ⟨r, hr, he⟩ := map_eq_some_iff.mp hrow
  obtain ⟨rfl, rfl⟩ := Prod.mk.inj he
  obtain ⟨hr, hlive⟩ := Option.filter_eq_some_iff.mp hr
  exact ⟨hr, of_decide_eq_true hlive⟩

/-! ### Conflicts -/

theorem not_conflict_badRequest (message : String) :
    ¬ (Thrown.app (badRequest message)).IsConflict := by
  rintro ⟨m, he⟩
  exact absurd (congrArg AppError.statusCode (Thrown.app.inj he))
    (by decide : ¬ (400 : ℕ) = 409)

theorem not_conflict_notFound (message : String) :
    ¬ (Thrown.app (notFound message)).IsConflict := by
  rintro ⟨m, he⟩
  exact absurd (congrArg AppError.statusCode (Thrown.app.inj he))
    (by decide : ¬ (404 : ℕ) = 409)

theorem not_conflict_error (message : String) : ¬ (Thrown.error message).IsConflict := by
  rintro ⟨m, he⟩
  cases he

theorem not_conflict_database (e : DatabaseError) : ¬ e.thrown.IsConflict := by
  rintro ⟨m, he⟩
  cases he

/-- When a call reports a conflict. -/
def Refused (R : Runtime) (K : Keyring) (s : ChargeState) (request : ChargeRequest) :
    ChargePc → Prop
  | .check _ _ item => item.expiresAt.any (· ≤ s.now) ∨
    (item.status = .reserved ∧
      item.reservationKeyHash ≠ some (request.reservationKeyHash R K)) ∨
    (item.status ≠ .reserved ∧ item.status ≠ .opened)
  | .reserve attempt id _ => 1 ≤ attempt ∧
    ∀ item, s.items id = some item → item.deletedAt = none → item.status ≠ .opened
  | .record reservation intent _ => ∀ item, s.items reservation.reservationId = some item →
    item.deletedAt = none → ¬ item.Records reservation.reservationKeyHash intent.id
  | _ => False

theorem assertItemOwnerAndExpiry_error {now : ℕ} {userId : String} {e : Thrown}
    (h : assertItemOwnerAndExpiry now item userId = .error e) (he : e.IsConflict) :
    item.expiresAt.any (· ≤ now) := by
  unfold assertItemOwnerAndExpiry at h
  split_ifs at h with hexpired howner
  · exact hexpired
  · cases h
    exact absurd he (not_conflict_notFound _)

theorem assertChargeableWithinBounds_error {chargeable : ReservedChargeable} {e : Thrown}
    (h : assertChargeableWithinBounds cfg R chargeable = .error e) : ¬ e.IsConflict := by
  unfold assertChargeableWithinBounds at h
  simp only [] at h
  split at h
  · cases h
    exact not_conflict_badRequest _
  split at h
  · cases h
    exact not_conflict_badRequest _
  split at h
  · cases h
    exact not_conflict_badRequest _
  split_ifs at h
  · cases h
    exact not_conflict_badRequest _
  · cases h
    exact not_conflict_badRequest _

/-! ### The steps of a call -/

/-- The reservation is one of the call, of the item `id`. -/
structure ReservesFor (R : Runtime) (K : Keyring) (request : ChargeRequest) (id : Uuid)
    (reservation : ReservedChargeable) : Prop where
  chargeableItemId : reservation.chargeableItemId = id
  reservationId : reservation.reservationId = id
  hash : reservation.reservationKeyHash = request.reservationKeyHash R K

/-- Where a call goes on from an item that it holds. -/
def Reserved (R : Runtime) (K : Keyring) (request : ChargeRequest) (id : Uuid) (pc' : ChargePc) :
    Prop :=
  (∃ reservation, ReservesFor R K request id reservation ∧ pc' = .create reservation) ∨
    ∃ e, ¬ e.IsConflict ∧ pc' = .thrown e

/-- Where a call goes on from the intent of its key. -/
def Created (reservation : ReservedChargeable) (intent : PaymentIntent) (id : ℕ)
    (pc' : ChargePc) : Prop :=
  (∃ shown after, pc' = .record reservation (intent.shown id shown) after ∧
      intent.MayShow shown ∧ (∀ result, after = .ok result → result.id = id) ∧
      ∀ e, after = .error e → ¬ e.IsConflict) ∨
    ∃ e, ¬ e.IsConflict ∧ pc' = .thrown e

/-- The effects of a step, with the state and the program point it leaves. -/
inductive Steps (cfg : ChargeConfig) (R : Runtime) (K : Keyring) (s : ChargeState)
    (request : ChargeRequest) : ChargePc → ChargeState → ChargePc → Prop
  | throws {pc : ChargePc} {e : Thrown} : (e.IsConflict → Refused R K s request pc) →
      Steps cfg R K s request pc s (.thrown e)
  | found {attempt : ℕ} {id : Uuid} {item : ChargeableItem} : s.items id = some item →
      item.reference = request.input.reference →
      Steps cfg R K s request (.find attempt) s (.check attempt id item)
  | held {attempt : ℕ} {id : Uuid} {item : ChargeableItem} {pc' : ChargePc} :
      item.status = .reserved → item.reservationKeyHash = some (request.reservationKeyHash R K) →
      Reserved R K request id pc' →
      Steps cfg R K s request (.check attempt id item) s pc'
  | free {attempt : ℕ} {id : Uuid} {item : ChargeableItem} : item.status = .opened →
      Steps cfg R K s request (.check attempt id item) s (.reserve attempt id item)
  | reserves {attempt : ℕ} {id : Uuid} {item row : ChargeableItem} {pc' : ChargePc} :
      s.items id = some row → row.status = .opened → Reserved R K request id pc' →
      Steps cfg R K s request (.reserve attempt id item)
        { s with items := s.items.set id (row.reserved (request.reservationKeyHash R K) s.now) }
        pc'
  | missed {attempt : ℕ} {id : Uuid} {item : ChargeableItem} :
      (∀ row, s.items id = some row → row.deletedAt = none → row.status ≠ .opened) →
      Steps cfg R K s request (.reserve attempt id item) s (.find (attempt + 1))
  | creates {reservation : ReservedChargeable} {params : PaymentIntentCreateParams}
      {status : IntentStatus} {secret : Option String} {pc' : ChargePc} :
      chargeParams cfg request reservation = .ok params →
      s.remembered (request.downstreamIdempotencyKey R K) = none →
      Created reservation ⟨params, request.downstreamIdempotencyKey R K, status, secret⟩
        s.nextIntent pc' →
      Steps cfg R K s request (.create reservation)
        { s with
          intents := s.intents.set s.nextIntent
            ⟨params, request.downstreamIdempotencyKey R K, status, secret⟩
          nextIntent := s.nextIntent + 1
          remembered := s.remembered.set (request.downstreamIdempotencyKey R K) s.nextIntent }
        pc'
  | resumes {reservation : ReservedChargeable} {id : ℕ} {intent : PaymentIntent}
      {pc' : ChargePc} : chargeParams cfg request reservation = .ok intent.params →
      s.remembered (request.downstreamIdempotencyKey R K) = some id →
      s.intents id = some intent → Created reservation intent id pc' →
      Steps cfg R K s request (.create reservation) s pc'
  | records {reservation : ReservedChargeable} {intent : IntentObject}
      {after : Except Thrown ChargeResult} {item : ChargeableItem} {pc' : ChargePc} :
      s.items reservation.reservationId = some item →
      item.Records reservation.reservationKeyHash intent.id →
      ((∃ result, after = .ok result ∧ pc' = .returned result) ∨
        ∃ e, (after = .error e ∨ ¬ e.IsConflict) ∧ pc' = .thrown e) →
      Steps cfg R K s request (.record reservation intent after)
        { s with
          items := s.items.set reservation.reservationId
            (item.recorded intent.id (intent.status = .succeeded) s.now) } pc'

theorem afterReserve_reserved {reference : String} {id : Uuid} :
    Reserved R K request id (afterReserve cfg R
      (item.reservation R reference id (request.reservationKeyHash R K))) := by
  unfold afterReserve
  simp only []
  split
  · next e he => exact .inr ⟨e, assertChargeableWithinBounds_error he, rfl⟩
  · exact .inl ⟨_, ⟨rfl, rfl, rfl⟩, rfl⟩

theorem checkItem_steps (cfg : ChargeConfig) (R : Runtime) (K : Keyring) (s : ChargeState)
    (request : ChargeRequest) (attempt : ℕ) (id : Uuid) (item : ChargeableItem) :
    Steps cfg R K s request (.check attempt id item) s
      (checkItem cfg R K s.now request attempt id item) := by
  unfold checkItem
  split
  · next e he => exact .throws fun hc => .inl (assertItemOwnerAndExpiry_error he hc)
  · split
    · next hst =>
      split_ifs with hhash
      · exact .throws fun _ => .inr (.inl ⟨hst, hhash⟩)
      · exact .held hst (not_not.mp hhash) afterReserve_reserved
    · next hst => exact .free hst
    · next hres hopen => exact .throws fun _ => .inr (.inr ⟨hres, hopen⟩)

variable {reservation : ReservedChargeable}

theorem afterCreate_created {intent : PaymentIntent} {id : ℕ} {reply : StripeReply}
    (h : afterCreate reservation intent id reply = some pc') :
    Created reservation intent id pc' := by
  unfold afterCreate at h
  split at h
  · obtain rfl := some.inj h
    exact .inr ⟨_, not_conflict_error _, rfl⟩
  · next shown =>
    split_ifs at h with hshown
    obtain rfl := some.inj h
    refine .inl ⟨shown, _, rfl, hshown, fun result he => ?_, fun e he => ?_⟩
    · cases he
      rfl
    · cases he
  · next code message shown =>
    split_ifs at h with hshown hcode
    · obtain rfl := some.inj h
      refine .inl ⟨shown, _, rfl, hshown, fun result he => ?_, fun e he => ?_⟩
      · cases he
        rfl
      · cases he
    · obtain rfl := some.inj h
      refine .inl ⟨shown, _, rfl, hshown, fun result he => ?_, fun e he => ?_⟩
      · cases he
      · cases he
        exact not_conflict_error _
  · obtain rfl := some.inj h
    exact .inr ⟨_, not_conflict_error _, rfl⟩

theorem requestIntent_steps {params : PaymentIntentCreateParams} {c : ChargeChoice}
    (hparams : chargeParams cfg request reservation = .ok params)
    (h : requestIntent R K s request reservation params c = some (s', pc')) :
    Steps cfg R K s request (.create reservation) s' pc' := by
  unfold requestIntent at h
  split at h
  · cases h
    exact .throws fun hc => absurd hc (not_conflict_error _)
  · simp only [ChargeState.createPaymentIntent] at h
    cases hkey : s.remembered (request.downstreamIdempotencyKey R K) with
    | some id =>
      simp only [hkey] at h
      split_ifs at h with hsame
      · obtain ⟨intent, hintent, hp⟩ := (Option.any_eq_true _ _).mp hsame
        obtain rfl := of_decide_eq_true hp
        simp only [hintent] at h
        obtain ⟨pc₁, hafter, he⟩ := map_eq_some_iff.mp h
        obtain ⟨rfl, rfl⟩ := Prod.mk.inj he
        exact .resumes hparams hkey hintent (afterCreate_created hafter)
      · cases h
        exact .throws fun hc => absurd hc (not_conflict_error _)
    | none =>
      simp only [hkey, Table.set_self] at h
      obtain ⟨pc₁, hafter, he⟩ := map_eq_some_iff.mp h
      obtain ⟨rfl, rfl⟩ := Prod.mk.inj he
      exact .creates hparams hkey (afterCreate_created hafter)

theorem steps_database (e : DatabaseError) : Steps cfg R K s request pc s (.thrown e.thrown) :=
  .throws fun hc => absurd hc (not_conflict_database e)

/-- **What a step of a call can do.** -/
theorem createCharge_steps {c : ChargeChoice}
    (h : createCharge cfg R K s request pc c = some (s', pc')) :
    Steps cfg R K s request pc s' pc' := by
  unfold createCharge at h
  split at h
  · next attempt =>
    split at h
    · cases h
    · next found hfound =>
      obtain ⟨rfl, ⟨-, rfl⟩ | ⟨e, -, rfl⟩⟩ := Outcome.read_cases (some.inj h)
      · split
        · exact .throws fun hc => absurd hc (not_conflict_notFound _)
        · next id item =>
          obtain ⟨hitem, href, -⟩ := findFirst_eq_some hfound
          exact .found hitem href
      · exact steps_database _
  · next attempt id item =>
    cases h
    exact checkItem_steps cfg R K s request attempt id item
  · next attempt id item =>
    have hrun := some.inj h
    rcases updateItem_cases s id (fun item => item.status = .opened)
      (ChargeableItem.reserved (request.reservationKeyHash R K) s.now) with
      ⟨row, hrow, hlive, hopen, he⟩ | ⟨hno, he⟩
    · rw [he] at hrun
      exact Outcome.run_elim hrun (.reserves hrow hopen afterReserve_reserved) steps_database
        fun e => .reserves hrow hopen (.inr ⟨_, not_conflict_database e, rfl⟩)
    · rw [he] at hrun
      refine Outcome.run_elim hrun ?_ steps_database steps_database
      rw [if_pos Nat.zero_ne_one]
      split_ifs with hattempt
      · exact .missed hno
      · exact .throws fun _ => ⟨by omega, hno⟩
  · next reservation =>
    split at h
    · cases h
      exact .throws fun hc => absurd hc (not_conflict_badRequest _)
    · next params hparams => exact requestIntent_steps hparams h
  · next reservation intent after =>
    have hrun := some.inj h
    rcases updateItem_cases s reservation.reservationId
      (ChargeableItem.Records reservation.reservationKeyHash intent.id)
      (ChargeableItem.recorded intent.id (intent.status = .succeeded) s.now) with
      ⟨item, hitem, hlive, hrec, he⟩ | ⟨hno, he⟩
    · rw [he] at hrun
      refine Outcome.run_elim hrun ?_ steps_database
        fun e => .records hitem hrec (.inr ⟨_, .inr (not_conflict_database e), rfl⟩)
      rw [if_neg (not_not.mpr rfl)]
      cases after with
      | ok result => exact .records hitem hrec (.inl ⟨result, rfl, rfl⟩)
      | error e => exact .records hitem hrec (.inr ⟨e, .inl rfl, rfl⟩)
    · rw [he] at hrun
      refine Outcome.run_elim hrun ?_ steps_database steps_database
      rw [if_pos Nat.zero_ne_one]
      exact .throws fun _ => hno
  · cases h
  · cases h

theorem chargeParams_metadata {params : PaymentIntentCreateParams}
    (h : chargeParams cfg request reservation = .ok params) :
    params.metadata.chargeableItemId = reservation.chargeableItemId ∧
      params.metadata.chargeableReservationKeyHash = reservation.reservationKeyHash := by
  unfold chargeParams at h
  simp only [] at h
  split at h
  · cases h
    exact ⟨rfl, rfl⟩
  · split at h
    · cases h
      exact ⟨rfl, rfl⟩
    · next returnUrl _ =>
      cases hurl : cfg.safeRedirectUrl returnUrl with
      | error message =>
        rw [hurl] at h
        cases h
      | ok url =>
        rw [hurl] at h
        cases h
        exact ⟨rfl, rfl⟩

/-! ### One item -/

/-- The item is reserved or consumed, under this reservation. -/
def Holds (hash : MetadataHash) (item : ChargeableItem) : Prop :=
  (item.status = .reserved ∨ item.status = .consumed) ∧ item.reservationKeyHash = some hash

/-- What a step comes to for the item `id`. `own` is the reservation of the call that takes it, none
for an event. -/
inductive ItemChange (s : ChargeState) (own : Option MetadataHash) (id : Uuid) :
    Option ChargeableItem → Option ChargeableItem → Prop
  | same {o : Option ChargeableItem} : ItemChange s own id o o
  | add {item : ChargeableItem} : item.status = .opened → item.paymentIntentId = none →
      ItemChange s own id none (some item)
  | reserve {item : ChargeableItem} {hash : MetadataHash} : own = some hash →
      item.status = .opened →
      ItemChange s own id (some item) (some (item.reserved hash s.now))
  | record {item : ChargeableItem} {hash : MetadataHash} {p : ℕ} {succeeded : Bool} :
      item.Records hash p → ItemChange s own id (some item) (some (item.recorded p succeeded s.now))
  | consume {item : ChargeableItem} {p : ℕ} {intent : PaymentIntent} :
      s.intents p = some intent → intent.status = .succeeded →
      Holds intent.params.metadata.chargeableReservationKeyHash item →
      (item.paymentIntentId = none ∨ item.paymentIntentId = some p) →
      ItemChange s own id (some item) (some (item.consumed p s.now))
  | release {item : ChargeableItem} {p : ℕ} {intent : PaymentIntent} :
      s.intents p = some intent → intent.status = .canceled →
      intent.params.metadata.chargeableItemId = id →
      item.Records intent.params.metadata.chargeableReservationKeyHash p →
      ItemChange s own id (some item) (some item.released)

variable {own : Option MetadataHash}

theorem ItemChange.of_set {k id : Uuid} (h : ItemChange s own k (s.items k) (some item)) :
    ItemChange s own id (s.items id) (s.items.set k item id) := by
  by_cases hk : id = k
  · subst hk
    rwa [Table.set_self]
  · rw [Table.set_of_ne hk]
    exact .same

theorem Steps.itemChange (h : Steps cfg R K s request pc s' pc') (id : Uuid) :
    ItemChange s (some (request.reservationKeyHash R K)) id (s.items id) (s'.items id) := by
  cases h with
  | throws | found | held | free | missed | creates | resumes => exact .same
  | reserves hrow hopen => exact .of_set (hrow ▸ .reserve rfl hopen)
  | records hitem hrec => exact .of_set (hitem ▸ .record hrec)

theorem projectChargeableItem_change {p : ℕ} {intent : PaymentIntent} {status : IntentStatus}
    (hp : s.intents p = some intent) (hshow : intent.MayShow status) (id : Uuid) :
    ItemChange s none id (s.items id) ((projectChargeableItem s (intent.shown p status)).items id) := by
  have hfinal (hf : status.Final) : intent.status = status := by
    rcases hshow with hst | hno
    · exact hst.symm
    · exact absurd hf hno
  unfold projectChargeableItem
  simp only []
  split
  · next hst =>
    obtain rfl : status = .succeeded := hst
    rcases updateItem_cases s intent.params.metadata.chargeableItemId
      (fun item => item.reservationKeyHash =
          some intent.params.metadata.chargeableReservationKeyHash ∧
        (item.status = .reserved ∨ item.status = .consumed) ∧
        (item.paymentIntentId = none ∨ item.paymentIntentId = some p))
      (ChargeableItem.consumed p s.now) with ⟨item, hitem, -, ⟨hhash, hst, hpi⟩, he⟩ | ⟨-, he⟩
    · refine he ▸ .of_set (hitem ▸ .consume hp (hfinal trivial) ⟨hst, hhash⟩ hpi)
    · exact he ▸ .same
  · next hst =>
    obtain rfl : status = .canceled := hst
    rcases updateItem_cases s intent.params.metadata.chargeableItemId
      (ChargeableItem.Records intent.params.metadata.chargeableReservationKeyHash p)
      ChargeableItem.released with ⟨item, hitem, -, hrec, he⟩ | ⟨-, he⟩
    · exact he ▸ .of_set (hitem ▸ .release hp (hfinal trivial) rfl hrec)
    · exact he ▸ .same
  · rcases updateItem_cases s intent.params.metadata.chargeableItemId
      (ChargeableItem.Records intent.params.metadata.chargeableReservationKeyHash p)
      (fun item => { item with paymentIntentId := some p }) with ⟨item, hitem, -, hrec, he⟩ | ⟨-, he⟩
    · refine he ▸ .of_set (hitem ▸ ?_)
      have hchange : ItemChange s none intent.params.metadata.chargeableItemId (some item)
          (some (item.recorded p false s.now)) := .record hrec
      exact hchange
    · exact he ▸ .same

/-- What happens outside the calls. -/
inductive EventStep (s : ChargeState) : ChargeEvent → ChargeState → Prop
  | tick (ms : ℕ) : EventStep s (.tick ms) { s with now := s.now + ms }
  | addItem {id : Uuid} {reference : String} {userId : Option String} {amount : ℤ}
      {currency description : String} {expiresAt : Option ℕ} (hnone : s.items id = none) :
      EventStep s (.addItem id reference userId amount currency description expiresAt)
        { s with
          itemIds := s.itemIds ++ [id]
          items := s.items.set id { reference, userId, amount, currency, description, expiresAt } }
  | intentStatus {id : ℕ} {status : IntentStatus} {intent : PaymentIntent}
      (hintent : s.intents id = some intent) (hfinal : ¬ intent.status.Final) :
      EventStep s (.intentStatus id status)
        { s with intents := s.intents.set id { intent with status := status } }
  | projection {id : ℕ} {status : IntentStatus} {intent : PaymentIntent}
      (hintent : s.intents id = some intent) (hshow : intent.MayShow status) :
      EventStep s (.projection id status) (projectChargeableItem s (intent.shown id status))
  | forget (idempotencyKey : String) : EventStep s (.forget idempotencyKey)
      { s with remembered := s.remembered.erase idempotencyKey }

variable {e : ChargeEvent}

theorem event_step (h : event s e = some s') : EventStep s e s' := by
  cases e with
  | tick ms =>
    obtain rfl := some.inj h
    exact .tick ms
  | addItem id reference userId amount currency description expiresAt =>
    simp only [event] at h
    split at h
    · cases h
    · next hnone =>
      obtain rfl := some.inj h
      exact .addItem hnone
  | intentStatus id status =>
    simp only [event] at h
    split at h
    · cases h
    · next intent hintent =>
      split_ifs at h with hfinal
      obtain rfl := some.inj h
      exact .intentStatus hintent hfinal
  | projection id status =>
    simp only [event] at h
    split at h
    · cases h
    · next intent hintent =>
      split_ifs at h with hshow
      obtain rfl := some.inj h
      exact .projection hintent hshow
  | forget key =>
    obtain rfl := some.inj h
    exact .forget key

theorem event_itemChange (h : event s e = some s') (id : Uuid) :
    ItemChange s none id (s.items id) (s'.items id) := by
  cases event_step h with
  | tick | intentStatus | forget => exact .same
  | addItem hnone => exact .of_set (hnone ▸ .add rfl rfl)
  | projection hintent hshow => exact projectChargeableItem_change hintent hshow id

theorem ItemChange.keeps {id : Uuid} {item item' : ChargeableItem}
    (h : ItemChange s own id (some item) (some item')) :
    item'.reference = item.reference ∧ item'.deletedAt = item.deletedAt := by
  cases h with
  | same => exact ⟨rfl, rfl⟩
  | reserve => exact ⟨rfl, rfl⟩
  | record =>
    unfold ChargeableItem.recorded
    split_ifs <;> exact ⟨rfl, rfl⟩
  | consume => exact ⟨rfl, rfl⟩
  | release => exact ⟨rfl, rfl⟩

theorem ItemChange.isSome {id : Uuid} {o : Option ChargeableItem}
    (h : ItemChange s own id (some item) o) : ∃ item', o = some item' := by
  cases h <;> exact ⟨_, rfl⟩

theorem Steps.no_new_item (h : Steps cfg R K s request pc s' pc') {id : Uuid}
    (hnone : s.items id = none) : s'.items id = none := by
  have hset : ∀ {k : Uuid} {row item : ChargeableItem}, s.items k = some row →
      s.items.set k item id = none := by
    intro k row item hk
    refine (Table.set_of_ne ?_).trans hnone
    rintro rfl
    rw [hnone] at hk
    cases hk
  cases h with
  | throws | found | held | free | missed | creates | resumes => exact hnone
  | reserves hrow => exact hset hrow
  | records hitem => exact hset hitem

theorem projectChargeableItem_none {object : IntentObject} {id : Uuid}
    (hnone : s.items id = none) : (projectChargeableItem s object).items id = none := by
  unfold projectChargeableItem
  simp only []
  split <;> exact Table.updateWhere_of_none hnone

theorem event_new_item (h : event s e = some s') {id : Uuid} (hnone : s.items id = none)
    (hitem : s'.items id = some item) : (∃ userId amount currency description expiresAt,
        e = .addItem id item.reference userId amount currency description expiresAt) ∧
      item.deletedAt = none := by
  have hsame : s'.items id ≠ s.items id := by
    rw [hnone, hitem]
    exact Option.some_ne_none _
  cases event_step h with
  | tick | intentStatus | forget => exact absurd rfl hsame
  | addItem =>
    rcases Table.set_eq_some.mp hitem with ⟨rfl, rfl⟩ | ⟨-, hitem⟩
    · exact ⟨⟨_, _, _, _, _, rfl⟩, rfl⟩
    · rw [hnone] at hitem
      cases hitem
  | projection =>
    rw [projectChargeableItem_none hnone] at hitem
    cases hitem

theorem Steps.recorded (h : Steps cfg R K s request pc s' pc') {id : Uuid} {p : ℕ}
    (hitem : s'.items id = some item) (hp : item.paymentIntentId = some p) :
    (∃ reservation intent after, pc = .record reservation intent after ∧ p = intent.id) ∨
      ∃ item, s.items id = some item ∧ item.paymentIntentId = some p := by
  cases h with
  | throws | found | held | free | missed | creates | resumes => exact .inr ⟨item, hitem, hp⟩
  | reserves hrow =>
    rcases Table.set_eq_some.mp hitem with ⟨rfl, rfl⟩ | ⟨-, hitem⟩
    · exact .inr ⟨_, hrow, hp⟩
    · exact .inr ⟨item, hitem, hp⟩
  | @records reservation intent after row _ hrow hrec hafter =>
    rcases Table.set_eq_some.mp hitem with ⟨rfl, rfl⟩ | ⟨-, hitem⟩
    · refine .inl ⟨reservation, intent, after, rfl, ?_⟩
      unfold ChargeableItem.recorded at hp
      split_ifs at hp <;> exact (some.inj hp).symm
    · exact .inr ⟨item, hitem, hp⟩

theorem projectChargeableItem_recorded {object : IntentObject} {id : Uuid} {p : ℕ}
    (hitem : (projectChargeableItem s object).items id = some item)
    (hp : item.paymentIntentId = some p) :
    p = object.id ∨ ∃ item, s.items id = some item ∧ item.paymentIntentId = some p := by
  have hcases : ∀ (cond : ChargeableItem → Prop) [DecidablePred cond]
      (data : ChargeableItem → ChargeableItem),
      (∀ row q, (data row).paymentIntentId = some q → q = object.id) →
      (s.updateItem object.metadata.chargeableItemId cond data).1.items id = some item →
      p = object.id ∨ ∃ item, s.items id = some item ∧ item.paymentIntentId = some p := by
    intro cond _ data hdata hset
    rcases updateItem_cases s object.metadata.chargeableItemId cond data with
      ⟨row, hrow, -, -, he⟩ | ⟨-, he⟩
    · rw [he] at hset
      rcases Table.set_eq_some.mp hset with ⟨-, rfl⟩ | ⟨-, hset⟩
      · exact .inl (hdata row p hp)
      · exact .inr ⟨item, hset, hp⟩
    · rw [he] at hset
      exact .inr ⟨item, hset, hp⟩
  unfold projectChargeableItem at hitem
  simp only [] at hitem
  split at hitem
  · exact hcases _ _ (fun row q hq => (some.inj hq).symm) hitem
  · exact hcases _ _ (fun row q hq => by cases hq) hitem
  · exact hcases _ _ (fun row q hq => (some.inj hq).symm) hitem

theorem event_recorded (h : event s e = some s') {id : Uuid} {p : ℕ}
    (hitem : s'.items id = some item) (hp : item.paymentIntentId = some p) :
    (∃ intent, s.intents p = some intent) ∨
      ∃ item, s.items id = some item ∧ item.paymentIntentId = some p := by
  cases event_step h with
  | tick | intentStatus | forget => exact .inr ⟨item, hitem, hp⟩
  | addItem =>
    rcases Table.set_eq_some.mp hitem with ⟨rfl, rfl⟩ | ⟨-, hitem⟩
    · cases hp
    · exact .inr ⟨item, hitem, hp⟩
  | projection hintent =>
    rcases projectChargeableItem_recorded hitem hp with rfl | hold
    · exact .inl ⟨_, hintent⟩
    · exact .inr hold

/-! ### The intents -/

theorem projectChargeableItem_intents (s : ChargeState) (object : IntentObject) :
    (projectChargeableItem s object).intents = s.intents ∧
      (projectChargeableItem s object).nextIntent = s.nextIntent ∧
      (projectChargeableItem s object).remembered = s.remembered := by
  unfold projectChargeableItem
  simp only []
  split <;> exact ⟨rfl, rfl, rfl⟩

theorem event_intents (h : event s e = some s') : s'.nextIntent = s.nextIntent ∧
      (∀ p, s'.intents p = s.intents p ∨ ∃ intent status, s.intents p = some intent ∧
        ¬ intent.status.Final ∧ s'.intents p = some { intent with status := status }) ∧
      (s'.remembered = s.remembered ∨ ∃ key, e = .forget key) := by
  cases event_step h with
  | tick | addItem => exact ⟨rfl, fun p => .inl rfl, .inl rfl⟩
  | @intentStatus p status intent hintent hfinal =>
    refine ⟨rfl, fun q => ?_, .inl rfl⟩
    by_cases hq : q = p
    · subst hq
      exact .inr ⟨intent, status, hintent, hfinal, Table.set_self⟩
    · exact .inl (Table.set_of_ne hq)
  | projection =>
    obtain ⟨hintents, hnext, hrem⟩ := projectChargeableItem_intents s (_ : IntentObject)
    exact ⟨hnext, fun p => .inl (congrFun hintents p), .inl hrem⟩
  | forget key => exact ⟨rfl, fun p => .inl rfl, .inr ⟨key, rfl⟩⟩

/-- The intents of a state are there in a later one, with the parameters they were created with, and
a final status stays. -/
def Grows (s s' : ChargeState) : Prop :=
  ∀ p intent, s.intents p = some intent → ∃ intent', s'.intents p = some intent' ∧
    intent'.params = intent.params ∧ intent'.idempotencyKey = intent.idempotencyKey ∧
    (intent.status.Final → intent'.status = intent.status)

theorem event_grows (h : event s e = some s') : Grows s s' := by
  intro p intent hp
  rcases (event_intents h).2.1 p with hsame | ⟨i, status, hi, hfinal, hp'⟩
  · exact ⟨intent, hsame.trans hp, rfl, rfl, fun _ => rfl⟩
  · obtain rfl := some.inj (hi.symm.trans hp)
    exact ⟨_, hp', rfl, rfl, fun hf => absurd hf hfinal⟩

theorem Steps.grows (h : Steps cfg R K s request pc s' pc')
    (hids : ∀ p intent, s.intents p = some intent → p < s.nextIntent) : Grows s s' := by
  intro p intent hp
  cases h with
  | creates =>
    have hne : p ≠ s.nextIntent := Nat.ne_of_lt (hids p intent hp)
    exact ⟨intent, (Table.set_of_ne hne).trans hp, rfl, rfl, fun _ => rfl⟩
  | throws | found | held | free | reserves | missed | resumes | records =>
    exact ⟨intent, hp, rfl, rfl, fun _ => rfl⟩

end BackendFoundation.Stripe.ChargeSteps
