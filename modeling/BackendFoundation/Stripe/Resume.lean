import BackendFoundation.Stripe.Payments

/-! # Retrying a charge

All calls charge one request, for one item, under one key. They create every payment intent, so the
intent of the key is the first one. `ResumesPayment` is what the retries should do once it exists
and is not canceled: no call ends in a conflict, a call that returns returns that intent, and no
second intent is created.

The calls do not do it in every run. The webhook may consume the item first, and then neither the
call that is about to record its intent nor a retry finds the item reserved (`conflict_after_webhook`);
the item may expire; and Stripe may forget the key. `NotOvertaken` excludes just these, and in the
runs that meet it the payment is resumed (`retry_resumes`). -/

namespace BackendFoundation.Stripe.Resume

open Lib Lib.Runs Lib.Interleave Errors Crypto Stripe.ChargeModel Stripe.ChargeSteps Stripe.Payments
open Option (some.inj)

variable {cfg : ChargeConfig} {R : Runtime} {K : Keyring} {s s' : ChargeState}
  {w w' : ChargeWorld} {request : ChargeRequest} {pc pc' : ChargePc} {item₀ : Uuid}

/-! ### The runs and what they should do -/

/-- Every call is for the request, and its reference names the item. -/
def OnlyRequest (request : ChargeRequest) (item₀ : Uuid) (_ : ChargeWorld) : ChargeLabel → Prop
  | .spawn request' => request' = request
  | .env (.addItem id reference _ _ _ _ _) => reference = request.input.reference → id = item₀
  | _ => True

instance (w : ChargeWorld) (l : ChargeLabel) : Decidable (OnlyRequest request item₀ w l) := by
  unfold OnlyRequest
  split <;> infer_instance

/-- The payment intent exists and is not canceled. -/
def Pending (s : ChargeState) : Prop := ∃ intent ∈ s.intents 0, intent.status ≠ .canceled

instance (s : ChargeState) : Decidable (Pending s) := by
  unfold Pending
  infer_instance

/-- What a step of the call `i` should do. -/
structure Resumed (item₀ : Uuid) (w w' : ChargeWorld) (i : ℕ) : Prop where
  noConflict : ∀ call e, w'.proc? i = some call → call.pc = .thrown e → ¬ e.IsConflict
  same : ∀ call result, w'.proc? i = some call → call.pc = .returned result → result.id = 0
  noSecond : (∃ item ∈ w.shared.items item₀, item.paymentIntentId = some 0) →
    ∀ p, w'.shared.intents p ≠ none → p = 0

/-- Once the payment intent exists and is not canceled, the steps `good` resume it. -/
structure ResumesPayment (cfg : ChargeConfig) (R : Runtime) (K : Keyring) (item₀ : Uuid)
    (good : ChargeWorld → ChargeLabel → Prop) (w : ChargeWorld) : Prop where
  steps : Pending w.shared → ∀ i c w', good w (.step i c) →
    (charges cfg R K).next w (.step i c) = some w' → Resumed item₀ w w' i
  /-- A new call is not refused at its start. -/
  starts : Pending w.shared → ∀ request w', good w (.spawn request) →
    (charges cfg R K).next w (.spawn request) = some w' →
    ∀ call e, w'.proc? w.fresh = some call → call.pc ≠ .thrown e

/-- While the payment intent is pending: a call does not go on with an item that has expired or is
consumed, does not create an intent when Stripe has forgotten the key, and does not record its
intent on a consumed item. -/
def NotOvertaken (R : Runtime) (K : Keyring) (request : ChargeRequest) (w : ChargeWorld) :
    ChargeLabel → Prop
  | .step i _ => Pending w.shared → ∀ call ∈ w.proc? i,
    match call.pc with
    | .check _ _ item => item.expiresAt.any (· ≤ w.shared.now) = false ∧
      (item.status = .opened ∨ item.status = .reserved)
    | .create _ => w.shared.remembered (request.downstreamIdempotencyKey R K) ≠ none
    | .record reservation _ _ => ∀ item ∈ w.shared.items reservation.reservationId,
      item.status ≠ .consumed
    | _ => True
  | _ => True

instance (w : ChargeWorld) (l : ChargeLabel) : Decidable (NotOvertaken R K request w l) := by
  unfold NotOvertaken
  split
  · refine @instDecidableForall _ _ _ (@Option.decidableForallMem _ _ ?_ _)
    intro call
    simp only []
    split <;> infer_instance
  · infer_instance

/-- The steps of the runs in which the payment is resumed. -/
def Resumable (R : Runtime) (K : Keyring) (request : ChargeRequest) (item₀ : Uuid)
    (w : ChargeWorld) (l : ChargeLabel) : Prop :=
  OnlyRequest request item₀ w l ∧ NotOvertaken R K request w l

instance (w : ChargeWorld) (l : ChargeLabel) : Decidable (Resumable R K request item₀ w l) := by
  unfold Resumable
  infer_instance

/-! ### The assertions -/

def AnyCanceled (s : ChargeState) : Prop :=
  ∃ p intent, s.intents p = some intent ∧ intent.status = .canceled

structure ResumeOk (cfg : ChargeConfig) (R : Runtime) (K : Keyring) (request : ChargeRequest)
    (item₀ : Uuid) (s : ChargeState) : Prop where
  live : ∀ id item, s.items id = some item → item.deletedAt = none
  named : ∀ id item, s.items id = some item → item.reference = request.input.reference →
    id = item₀
  status : ∀ item, s.items item₀ = some item →
    item.status = .opened ∨ Holds (request.reservationKeyHash R K) item
  recorded : ∀ item p, s.items item₀ = some item → item.paymentIntentId = some p →
    ∃ intent, s.intents p = some intent
  ids : ∀ p intent, s.intents p = some intent → p < s.nextIntent
  first : s.nextIntent ≠ 0 → ∃ intent, s.intents 0 = some intent
  enabled : s.nextIntent ≠ 0 → cfg.dynamicPricingEnabled = true
  /-- While the first intent is pending, it is the only one. -/
  single : Pending s → s.nextIntent = 1
  holder : Pending s → ∃ item, s.items item₀ = some item ∧
    Holds (request.reservationKeyHash R K) item

/-- The item is held under the key, or an intent was canceled. -/
def Held (R : Runtime) (K : Keyring) (request : ChargeRequest) (item₀ : Uuid) (s : ChargeState) :
    Prop :=
  (∃ item, s.items item₀ = some item ∧ Holds (request.reservationKeyHash R K) item) ∨
    AnyCanceled s

/-- What holds of a call at its program point. The second attempt to reserve the item is made only
after an intent was canceled. -/
def RetryOk (R : Runtime) (K : Keyring) (request : ChargeRequest) (item₀ : Uuid)
    (s : ChargeState) : ChargePc → Prop
  | .find attempt => attempt ≠ 0 → Held R K request item₀ s
  | .check attempt id item => id = item₀ ∧ (∃ row, s.items item₀ = some row) ∧
    ((item.status = .opened ∧ (attempt ≠ 0 → AnyCanceled s)) ∨
      (Holds (request.reservationKeyHash R K) item ∧ Held R K request item₀ s))
  | .reserve attempt id _ => id = item₀ ∧ (∃ row, s.items item₀ = some row) ∧
    (attempt ≠ 0 → AnyCanceled s)
  | .create reservation => ReservesFor R K request item₀ reservation ∧ Held R K request item₀ s
  | .record reservation intent after => ReservesFor R K request item₀ reservation ∧
    (∃ created, s.intents intent.id = some created) ∧
    (∀ result, after = .ok result → result.id = intent.id) ∧
    ∀ e, after = .error e → ¬ e.IsConflict
  | .returned result => ∃ intent, s.intents result.id = some intent
  | .thrown _ => True

structure RetryCall (cfg : ChargeConfig) (R : Runtime) (K : Keyring) (request : ChargeRequest)
    (item₀ : Uuid) (call : ChargeCall) (s : ChargeState) : Prop where
  request_eq : call.request = request
  enabled : (∀ e, call.pc ≠ .thrown e) → cfg.dynamicPricingEnabled = true
  ok : RetryOk R K request item₀ s call.pc

def resumeOk (cfg : ChargeConfig) (R : Runtime) (K : Keyring) (request : ChargeRequest)
    (item₀ : Uuid) : Assertions ChargeState ChargeCall where
  shared := ResumeOk cfg R K request item₀
  proc _ := RetryCall cfg R K request item₀

/-! ### What stays -/

theorem AnyCanceled.grows (h : AnyCanceled s) (hgrows : Grows s s') : AnyCanceled s' := by
  obtain ⟨p, intent, hp, hst⟩ := h
  obtain ⟨intent', hp', -, -, hfinal⟩ := hgrows p intent hp
  refine ⟨p, intent', hp', ?_⟩
  rw [hfinal (by rw [hst]; trivial), hst]

theorem exists_of_grows {p : ℕ} (hgrows : Grows s s') (h : ∃ intent, s.intents p = some intent) :
    ∃ intent, s'.intents p = some intent := by
  obtain ⟨intent, hp⟩ := h
  obtain ⟨intent', hp', -⟩ := hgrows p intent hp
  exact ⟨intent', hp'⟩

variable {own : Option MetadataHash}

theorem Held.step (h : Held R K request item₀ s) (hgrows : Grows s s')
    (hitem : ItemChange s own item₀ (s.items item₀) (s'.items item₀)) :
    Held R K request item₀ s' := by
  rcases h with ⟨item, hi, hh⟩ | hcanceled
  · rw [hi] at hitem
    rcases holds_change hitem hh with hkeep | ⟨p, intent, hp, hst, -⟩
    · exact .inl hkeep
    · exact .inr (AnyCanceled.grows ⟨p, intent, hp, hst⟩ hgrows)
  · exact .inr (hcanceled.grows hgrows)

theorem retryOk_frame (h : RetryOk R K request item₀ s pc) (hgrows : Grows s s')
    (hitem : ItemChange s own item₀ (s.items item₀) (s'.items item₀)) :
    RetryOk R K request item₀ s' pc := by
  have hrow : (∃ row, s.items item₀ = some row) → ∃ row, s'.items item₀ = some row := by
    rintro ⟨row, hrow⟩
    rw [hrow] at hitem
    exact hitem.isSome
  cases pc with
  | find attempt => exact fun hattempt => (h hattempt).step hgrows hitem
  | check attempt id item =>
    obtain ⟨hid, hexists, ⟨hst, hcanceled⟩ | ⟨hh, hheld⟩⟩ := h
    · exact ⟨hid, hrow hexists, .inl ⟨hst, fun hattempt => (hcanceled hattempt).grows hgrows⟩⟩
    · exact ⟨hid, hrow hexists, .inr ⟨hh, hheld.step hgrows hitem⟩⟩
  | reserve attempt id item =>
    obtain ⟨hid, hexists, hcanceled⟩ := h
    exact ⟨hid, hrow hexists, fun hattempt => (hcanceled hattempt).grows hgrows⟩
  | create reservation => exact ⟨h.1, h.2.step hgrows hitem⟩
  | record reservation intent after =>
    obtain ⟨hres, hcreated, hafter⟩ := h
    exact ⟨hres, exists_of_grows hgrows hcreated, hafter⟩
  | returned result => exact exists_of_grows hgrows h
  | thrown e => trivial

theorem ResumeOk.not_canceled (h : ResumeOk cfg R K request item₀ s) (hp : Pending s) :
    ¬ AnyCanceled s := by
  rintro ⟨p, intent, hi, hst⟩
  have hlt := h.ids p intent hi
  have hone := h.single hp
  obtain rfl : p = 0 := by omega
  obtain ⟨intent', hi', hne⟩ := hp
  obtain rfl := some.inj (hi.symm.trans hi')
  exact hne hst

theorem status_change {hash : MetadataHash} {o : Option ChargeableItem} {item' : ChargeableItem}
    (h : ItemChange s own item₀ o (some item')) (hown : ∀ hash', own = some hash' → hash' = hash)
    (ho : ∀ item, o = some item → item.status = .opened ∨ Holds hash item) :
    item'.status = .opened ∨ Holds hash item' := by
  have hreserved : ∀ {item : ChargeableItem}, o = some item → item.status ≠ .opened →
      Holds hash item := fun hitem hne => (ho _ hitem).resolve_left hne
  cases h with
  | same => exact ho item' rfl
  | add hopen => exact .inl hopen
  | reserve heq =>
    obtain rfl := hown _ heq
    exact .inr ⟨.inl rfl, rfl⟩
  | record hrec =>
    have hh := hreserved rfl (by rw [hrec.1]; exact ChargeableStatus.noConfusion)
    unfold ChargeableItem.recorded
    split_ifs
    · exact .inr ⟨.inr rfl, hh.2⟩
    · exact .inr hh
  | @consume item p intent hp hst hholds =>
    have hne : item.status ≠ .opened := by
      rcases hholds.1 with hst | hst <;> rw [hst] <;> exact ChargeableStatus.noConfusion
    exact .inr ⟨.inr rfl, (hreserved rfl hne).2⟩
  | release => exact .inl rfl

/-! ### Steps -/

theorem resumeOk_keep (h : ResumeOk cfg R K request item₀ s)
    (hitem : ∀ id, ItemChange s own id (s.items id) (s'.items id))
    (hown : ∀ hash, own = some hash → hash = request.reservationKeyHash R K)
    (hnew : ∀ id item, s.items id = none → s'.items id = some item → item.deletedAt = none ∧
      (item.reference = request.input.reference → id = item₀))
    (hrecorded : ∀ item p, s'.items item₀ = some item → item.paymentIntentId = some p →
      ∃ intent, s.intents p = some intent) (hgrows : Grows s s')
    (hnext : s'.nextIntent = s.nextIntent)
    (hold : ∀ p intent', s'.intents p = some intent' → ∃ intent, s.intents p = some intent ∧
      (intent.status = .canceled → intent'.status = .canceled)) :
    ResumeOk cfg R K request item₀ s' := by
  have hkeep : ∀ id item', s'.items id = some item' → item'.deletedAt = none ∧
      (item'.reference = request.input.reference → id = item₀) := by
    intro id item' hi'
    cases hi : s.items id with
    | none => exact hnew id item' hi hi'
    | some item =>
      have hchange := hitem id
      rw [hi, hi'] at hchange
      obtain ⟨href, hdel⟩ := hchange.keeps
      rw [href, hdel]
      exact ⟨h.live id item hi, h.named id item hi⟩
  have hpending : Pending s' → Pending s := by
    rintro ⟨intent', hp', hst'⟩
    obtain ⟨intent, hp, hcanceled⟩ := hold 0 intent' hp'
    exact ⟨intent, hp, fun hst => hst' (hcanceled hst)⟩
  refine ⟨fun id item hi => (hkeep id item hi).1, fun id item hi => (hkeep id item hi).2,
    fun item hi => ?_, fun item p hi hp => exists_of_grows hgrows (hrecorded item p hi hp),
    fun p intent' hp' => ?_, fun hne => ?_, fun hne => ?_, fun hp => ?_, fun hp => ?_⟩
  · have hchange := hitem item₀
    rw [hi] at hchange
    exact status_change hchange hown h.status
  · obtain ⟨intent, hp, -⟩ := hold p intent' hp'
    rw [hnext]
    exact h.ids p intent hp
  · rw [hnext] at hne
    exact exists_of_grows hgrows (h.first hne)
  · rw [hnext] at hne
    exact h.enabled hne
  · rw [hnext]
    exact h.single (hpending hp)
  · obtain ⟨item, hi, hh⟩ := h.holder (hpending hp)
    have hchange := hitem item₀
    rw [hi] at hchange
    rcases holds_change hchange hh with hkeep | ⟨p, intent, hi, hst, -⟩
    · exact hkeep
    · exact absurd ⟨p, intent, hi, hst⟩ (h.not_canceled (hpending hp))

theorem resumeOk_event {e : ChargeEvent} (h : ResumeOk cfg R K request item₀ s)
    (hg : OnlyRequest request item₀ w (.env e)) (hs : event s e = some s') :
    ResumeOk cfg R K request item₀ s' := by
  obtain ⟨hnext, hintents, -⟩ := event_intents hs
  refine resumeOk_keep h (event_itemChange hs) nofun
    (fun id item hnone hitem => ?_) (fun item p hitem hp => ?_) (event_grows hs) hnext
    fun p intent' hp' => ?_
  · obtain ⟨⟨userId, amount, currency, description, expiresAt, rfl⟩, hdel⟩ :=
      event_new_item hs hnone hitem
    exact ⟨hdel, hg⟩
  · rcases event_recorded hs hitem hp with hintent | ⟨item', hitem', hp'⟩
    · exact hintent
    · exact h.recorded item' p hitem' hp'
  · rcases hintents p with hsame | ⟨intent, status, hp, hfinal, hset⟩
    · exact ⟨intent', hsame.symm.trans hp', id⟩
    · refine ⟨intent, hp, fun hst => ?_⟩
      rw [hst] at hfinal
      exact absurd trivial hfinal

theorem resumeOk_steps (h : ResumeOk cfg R K request item₀ s)
    (henabled : cfg.dynamicPricingEnabled = true) (hok : RetryOk R K request item₀ s pc)
    (hkey : ∀ reservation, pc = .create reservation → Pending s →
      s.remembered (request.downstreamIdempotencyKey R K) ≠ none)
    (hs : Steps cfg R K s request pc s' pc') : ResumeOk cfg R K request item₀ s' := by
  have hrecorded : ∀ item p, s'.items item₀ = some item → item.paymentIntentId = some p →
      ∃ intent, s.intents p = some intent := by
    intro item p hitem hp
    rcases hs.recorded hitem hp with ⟨reservation, intent, after, rfl, rfl⟩ | ⟨item', hi', hp'⟩
    · exact hok.2.1
    · exact h.recorded item' p hi' hp'
  have hgrows := hs.grows h.ids
  have hnew : ∀ id item, s.items id = none → s'.items id = some item → item.deletedAt = none ∧
      (item.reference = request.input.reference → id = item₀) := by
    intro id item hnone hitem
    rw [hs.no_new_item hnone] at hitem
    cases hitem
  have hkeep := fun hnext hold => resumeOk_keep h hs.itemChange
    (fun hash he => (some.inj he).symm) hnew hrecorded hgrows hnext hold
  cases hs with
  | throws | found | held | free | missed | resumes => exact h
  | reserves | records => exact hkeep rfl fun p intent hp => ⟨intent, hp, fun hst => hst⟩
  | @creates reservation params status secret _ hparams hnone =>
    have hnot : ¬ Pending s := fun hp => hkey reservation rfl hp hnone
    obtain ⟨-, hheld⟩ := hok
    have hpending : ∀ intent, s.intents.set s.nextIntent
        ⟨params, request.downstreamIdempotencyKey R K, status, secret⟩ 0 = some intent →
        intent.status ≠ .canceled → s.nextIntent = 0 := by
      intro intent hi hst
      rcases Table.set_eq_some.mp hi with ⟨hzero, -⟩ | ⟨-, hi⟩
      · exact hzero.symm
      · exact absurd ⟨intent, hi, hst⟩ hnot
    refine ⟨h.live, h.named, h.status, fun item p hi hp => ?_, fun p intent hp => ?_, fun _ => ?_,
      fun _ => henabled, fun hp => ?_, fun hp => ?_⟩
    · exact exists_of_grows hgrows (h.recorded item p hi hp)
    · rcases Table.set_eq_some.mp hp with ⟨rfl, -⟩ | ⟨-, hp⟩
      · exact Nat.lt_succ_self _
      · exact Nat.lt_succ_of_lt (h.ids p intent hp)
    · by_cases hzero : s.nextIntent = 0
      · refine ⟨⟨params, request.downstreamIdempotencyKey R K, status, secret⟩, ?_⟩
        simp only [hzero, Table.set_self]
      · exact exists_of_grows hgrows (h.first hzero)
    · obtain ⟨intent, hi, hst⟩ := hp
      exact congrArg (· + 1) (hpending intent hi hst)
    · obtain ⟨intent, hi, hst⟩ := hp
      have hzero := hpending intent hi hst
      rcases hheld with hheld | ⟨p, intent', hp, -⟩
      · exact hheld
      · have hlt := h.ids p intent' hp
        omega

theorem retryOk_steps (h : ResumeOk cfg R K request item₀ s)
    (hok : RetryOk R K request item₀ s pc) (hs : Steps cfg R K s request pc s' pc') :
    RetryOk R K request item₀ s' pc' := by
  have hreserved : ∀ {s' : ChargeState} {pc' : ChargePc}, Reserved R K request item₀ pc' →
      Held R K request item₀ s' → RetryOk R K request item₀ s' pc' := by
    rintro s' pc' (⟨reservation, hres, rfl⟩ | ⟨e, -, rfl⟩) hheld
    · exact ⟨hres, hheld⟩
    · trivial
  have hcreated : ∀ {s' : ChargeState} {reservation : ReservedChargeable} {p : ℕ}
      {intent : PaymentIntent} {pc' : ChargePc}, Created reservation intent p pc' →
      ReservesFor R K request item₀ reservation → s'.intents p = some intent →
      RetryOk R K request item₀ s' pc' := by
    rintro s' reservation p intent pc' (⟨shown, after, rfl, -, hid, herr⟩ | ⟨e, -, rfl⟩) hres hp
    · exact ⟨hres, ⟨intent, hp⟩, hid, herr⟩
    · trivial
  cases hs with
  | throws => trivial
  | @found attempt id item hitem href =>
    obtain rfl := h.named id item hitem href
    refine ⟨rfl, ⟨item, hitem⟩, ?_⟩
    rcases h.status item hitem with hopen | hh
    · refine .inl ⟨hopen, fun hattempt => ?_⟩
      rcases hok hattempt with ⟨item', hitem', hh⟩ | hcanceled
      · obtain rfl := some.inj (hitem.symm.trans hitem')
        rw [Holds, hopen] at hh
        rcases hh.1 with hst | hst <;> cases hst
      · exact hcanceled
    · exact .inr ⟨hh, .inl ⟨item, hitem, hh⟩⟩
  | held hst hhash hres =>
    obtain ⟨rfl, -, ⟨hopen, -⟩ | ⟨-, hheld⟩⟩ := hok
    · rw [hopen] at hst
      cases hst
    · exact hreserved hres hheld
  | free hopen =>
    obtain ⟨rfl, hrow, ⟨-, hcanceled⟩ | ⟨hh, -⟩⟩ := hok
    · exact ⟨rfl, hrow, hcanceled⟩
    · rw [Holds, hopen] at hh
      rcases hh.1 with hst | hst <;> cases hst
  | reserves hrow hopen hres =>
    obtain ⟨rfl, -⟩ := hok
    exact hreserved hres (.inl ⟨_, Table.set_self, .inl rfl, rfl⟩)
  | missed hno =>
    obtain ⟨rfl, ⟨row, hrow⟩, -⟩ := hok
    intro _
    have hne := hno row hrow (h.live _ row hrow)
    exact .inl ⟨row, hrow, (h.status row hrow).resolve_left hne⟩
  | creates _ _ hcre => exact hcreated hcre hok.1 Table.set_self
  | resumes _ _ hp hcre => exact hcreated hcre hok.1 hp
  | records _ _ hafter =>
    obtain ⟨-, hcre, hid, -⟩ := hok
    rcases hafter with ⟨result, rfl, rfl⟩ | ⟨e, -, rfl⟩
    · change ∃ intent, s.intents result.id = some intent
      rw [hid result rfl]
      exact hcre
    · trivial

theorem not_thrown_of_run {c : ChargeChoice} {r : ChargeState × ChargePc}
    (h : createCharge cfg R K s request pc c = some r) : ∀ e, pc ≠ .thrown e := by
  rintro e rfl
  cases h

/-- **The invariant of the retries.** -/
theorem resumeOutline : Outline (charges cfg R K) (Resumable R K request item₀)
    (resumeOk cfg R K request item₀) where
  init := by
    refine ResumeOk.mk (fun id item hi => ?_) (fun id item hi => ?_) (fun item hi => ?_)
      (fun item p hi => ?_) (fun p intent hp => ?_) (fun hne => absurd rfl hne)
      (fun hne => absurd rfl hne) (fun hp => ?_) fun hp => ?_
    · cases hi
    · cases hi
    · cases hi
    · cases hi
    · cases hp
    · obtain ⟨intent, hi, -⟩ := hp
      cases hi
    · obtain ⟨intent, hi, -⟩ := hp
      cases hi
  env w e s h hg hs := by
    refine ⟨resumeOk_event h.shared hg.1 hs, fun j q hq => ?_⟩
    obtain ⟨hreq, henabled, hok⟩ := h.proc j q hq
    exact ⟨hreq, henabled, retryOk_frame hok (event_grows hs) (event_itemChange hs item₀)⟩
  spawn w request' s p h hg hs := by
    obtain ⟨rfl, rfl⟩ := pair_inj hs
    obtain rfl : request' = request := hg.1
    refine ⟨h.shared, ⟨rfl, fun hne => ?_, ?_⟩, fun j q hq => ⟨h.proc j q hq, trivial, trivial⟩⟩
    · by_contra hdisabled
      refine hne (.app (conflict
        "Dynamic pricing is disabled; set DYNAMIC_PRICING_ENABLED=true")) ?_
      simp only [startCharge, hdisabled, if_false]
    · simp only [startCharge]
      split_ifs
      · exact fun hattempt => absurd rfl hattempt
      · trivial
  step w i p c s p' h hi hg hs := by
    obtain ⟨pc', hrun, rfl⟩ := map_pair_inj hs
    obtain ⟨rfl, henabled, hok⟩ := h.proc i p hi
    have hsteps := createCharge_steps hrun
    have hpricing := henabled (not_thrown_of_run hrun)
    refine ⟨resumeOk_steps h.shared hpricing hok (fun reservation hpc hp => ?_) hsteps, rfl,
      fun _ => hpricing, retryOk_steps h.shared hok hsteps⟩
    have hcond := hg.2 hp p hi
    rw [hpc] at hcond
    exact hcond
  frame w i p c s p' h hi hg hs j q hj hq := by
    obtain ⟨pc', hrun, rfl⟩ := map_pair_inj hs
    have hsteps := createCharge_steps hrun
    obtain ⟨hreq, henabled, hok⟩ := h.proc j q hq
    exact ⟨⟨hreq, henabled, retryOk_frame hok (hsteps.grows h.shared.ids)
      (hsteps.itemChange item₀)⟩, trivial, trivial⟩

/-! ### The result -/

theorem ResumeOk.only_first (h : ResumeOk cfg R K request item₀ s) (hp : Pending s) {p : ℕ}
    (hi : ∃ intent, s.intents p = some intent) : p = 0 := by
  obtain ⟨intent, hi⟩ := hi
  have hlt := h.ids p intent hi
  have hone := h.single hp
  omega

theorem not_refused (h : ResumeOk cfg R K request item₀ s) (hp : Pending s)
    (hok : RetryOk R K request item₀ s pc)
    (hcheck : ∀ attempt id item, pc = .check attempt id item →
      item.expiresAt.any (· ≤ s.now) = false ∧ (item.status = .opened ∨ item.status = .reserved))
    (hrecord : ∀ reservation intent after, pc = .record reservation intent after →
      ∀ item ∈ s.items reservation.reservationId, item.status ≠ .consumed) :
    ¬ Refused R K s request pc := by
  intro hrefused
  cases pc with
  | check attempt id item =>
    obtain ⟨hnow, hst⟩ := hcheck attempt id item rfl
    rcases hrefused with hexpired | ⟨hres, hhash⟩ | ⟨hres, hopen⟩
    · rw [hnow] at hexpired
      cases hexpired
    · obtain ⟨-, -, ⟨hopen, -⟩ | ⟨hh, -⟩⟩ := hok
      · rw [hopen] at hres
        cases hres
      · exact hhash hh.2
    · exact hst.elim hopen hres
  | reserve attempt id item =>
    obtain ⟨hattempt, -⟩ := hrefused
    obtain ⟨-, -, hcanceled⟩ := hok
    exact h.not_canceled hp (hcanceled (Nat.ne_of_gt hattempt))
  | record reservation intent after =>
    obtain ⟨hres, hcre, -⟩ := hok
    obtain ⟨item, hitem, hst, hhash⟩ := h.holder hp
    have hitem' : s.items reservation.reservationId = some item := by
      rw [hres.reservationId]
      exact hitem
    have hreserved := hst.resolve_right (hrecord reservation intent after rfl item hitem')
    refine hrefused item hitem' (h.live _ item hitem) ⟨hreserved, ?_, ?_⟩
    · rw [hhash, hres.hash]
    · cases hpi : item.paymentIntentId with
      | none => exact .inl rfl
      | some q =>
        right
        rw [h.only_first hp (h.recorded item q hitem hpi), h.only_first hp hcre]
  | find | create | returned | thrown => exact hrefused

theorem steps_thrown {e : Thrown} (hok : RetryOk R K request item₀ s pc)
    (hs : Steps cfg R K s request pc s' (.thrown e)) (he : e.IsConflict) :
    Refused R K s request pc := by
  cases hs with
  | throws hrefused => exact hrefused he
  | held _ _ hres | reserves _ _ hres =>
    rcases hres with ⟨reservation, -, hpc⟩ | ⟨e', hno, hpc⟩
    · cases hpc
    · cases hpc
      exact absurd he hno
  | creates _ _ hcre | resumes _ _ _ hcre =>
    rcases hcre with ⟨shown, after, hpc, -⟩ | ⟨e', hno, hpc⟩
    · cases hpc
    · cases hpc
      exact absurd he hno
  | records _ _ hafter =>
    rcases hafter with ⟨result, -, hpc⟩ | ⟨e', hafter | hno, hpc⟩
    · cases hpc
    · cases hpc
      exact absurd he (hok.2.2.2 _ hafter)
    · cases hpc
      exact absurd he hno

theorem steps_returned {result : ChargeResult} (hok : RetryOk R K request item₀ s pc)
    (hs : Steps cfg R K s request pc s' (.returned result)) :
    ∃ intent, s.intents result.id = some intent := by
  cases hs with
  | held _ _ hres | reserves _ _ hres =>
    rcases hres with ⟨reservation, -, hpc⟩ | ⟨e, -, hpc⟩ <;> cases hpc
  | creates _ _ hcre | resumes _ _ _ hcre =>
    rcases hcre with ⟨shown, after, hpc, -⟩ | ⟨e, -, hpc⟩ <;> cases hpc
  | records _ _ hafter =>
    rcases hafter with ⟨result', hafter, hpc⟩ | ⟨e, -, hpc⟩
    · cases hpc
      rw [hok.2.2.1 _ hafter]
      exact hok.2.1
    · cases hpc

theorem steps_no_new_intent (hkey : ∀ reservation, pc = .create reservation →
      s.remembered (request.downstreamIdempotencyKey R K) ≠ none)
    (hs : Steps cfg R K s request pc s' pc') : s'.intents = s.intents := by
  cases hs with
  | creates _ hnone => exact absurd hnone (hkey _ rfl)
  | throws | found | held | free | reserves | missed | resumes | records => rfl

theorem resumed_step {i : ℕ} {c : ChargeChoice}
    (hw : (resumeOk cfg R K request item₀).Holds w) (hp : Pending w.shared)
    (hg : Resumable R K request item₀ w (.step i c))
    (hn : (charges cfg R K).next w (.step i c) = some w') : Resumed item₀ w w' i := by
  cases Program.move_of_next hn with
  | @step _ _ p p' s hi hs =>
    obtain ⟨⟨s₁, pc'⟩, hrun, he⟩ := Option.map_eq_some_iff.mp hs
    obtain ⟨rfl, rfl⟩ := Prod.mk.inj he
    obtain ⟨rfl, -, hok⟩ := hw.proc i p hi
    have hsteps := createCharge_steps hrun
    have hcond := hg.2 hp p hi
    have hself := World.proc?_put_self (s := s₁) (p := { p with pc := pc' }) hi
    refine ⟨fun call e hi' hpc hconflict => ?_, fun call result hi' hpc => ?_, fun _ q hq => ?_⟩
    · obtain rfl := some.inj (hself.symm.trans hi')
      obtain rfl : pc' = .thrown e := hpc
      refine not_refused hw.shared hp hok (fun attempt id item hpc => ?_)
        (fun reservation intent after hpc => ?_) (steps_thrown hok hsteps hconflict)
      · rw [hpc] at hcond
        exact hcond
      · rw [hpc] at hcond
        exact hcond
    · obtain rfl := some.inj (hself.symm.trans hi')
      obtain rfl : pc' = .returned result := hpc
      exact hw.shared.only_first hp (steps_returned hok hsteps)
    · have hsame := steps_no_new_intent (fun reservation hpc => by rw [hpc] at hcond; exact hcond)
        hsteps
      rw [World.put_shared, hsame] at hq
      exact hw.shared.only_first hp (Option.ne_none_iff_exists'.mp hq)

/-- **A retry resumes the payment**, in every run in which no call is overtaken. -/
theorem retry_resumes (cfg : ChargeConfig) (R : Runtime) (K : Keyring) (request : ChargeRequest)
    (item₀ : Uuid) (w : ChargeWorld)
    (h : ReachableBy (charges cfg R K).system (Resumable R K request item₀) w) :
    ResumesPayment cfg R K item₀ (Resumable R K request item₀) w := by
  have hw := resumeOutline.holds h
  refine ⟨fun hp i c w' hg hn => resumed_step hw hp hg hn,
    fun hp request' w' hg hn call e hi hpc => ?_⟩
  have hne : w.shared.nextIntent ≠ 0 := by
    rw [hw.shared.single hp]
    exact Nat.one_ne_zero
  cases Program.move_of_next hn with
  | @spawn _ s p hs =>
    obtain ⟨rfl, rfl⟩ := pair_inj hs
    obtain rfl := some.inj (World.proc?_add_self.symm.trans hi)
    simp only [startCharge, hw.shared.enabled hne, if_true] at hpc
    cases hpc

/-- A call creates the intent and crashes; a retry has it in its hands. -/
def runRetry : List ChargeLabel :=
  [addExampleItem, .spawn (exampleRequest "a"), .step 0 {}, .step 0 {}, .step 0 {}, .step 0 {},
    .crash 0, .spawn (exampleRequest "a"), .step 1 {}, .step 1 {}, .step 1 {}]

theorem retry_resumes_after_crash :
    ∃ w, Pending w.shared ∧ w.proc? 0 = none ∧ (w.proc? 1).isSome ∧
      ResumesPayment exampleCharges exampleRuntime exampleKeyring "item-1"
        (Resumable exampleRuntime exampleKeyring (exampleRequest "a") "item-1") w := by
  obtain ⟨w, hw, hp, hcrashed, hretry⟩ :=
    (charges exampleCharges exampleRuntime exampleKeyring).exists_reached
      (Resumable exampleRuntime exampleKeyring (exampleRequest "a") "item-1") runRetry
      (fun w => Pending w.shared ∧ w.proc? 0 = none ∧ (w.proc? 1).isSome) (by decide)
  exact ⟨w, hp, hcrashed, hretry, retry_resumes exampleCharges exampleRuntime exampleKeyring
    (exampleRequest "a") "item-1" w hw⟩

/-- The call has created the intent, the intent succeeds and the webhook consumes the item. -/
def runOvertaken : List ChargeLabel :=
  [addExampleItem, .spawn (exampleRequest "a"), .step 0 {}, .step 0 {}, .step 0 {}, .step 0 {},
    .env (.intentStatus 0 .succeeded), .env (.projection 0 .succeeded)]

/-- The call then ends in a conflict. -/
theorem conflict_after_webhook : ∃ w,
    ReachableBy (charges exampleCharges exampleRuntime exampleKeyring).system
      (OnlyRequest (exampleRequest "a") "item-1") w ∧
    ¬ ResumesPayment exampleCharges exampleRuntime exampleKeyring "item-1"
      (OnlyRequest (exampleRequest "a") "item-1") w := by
  obtain ⟨w, hw, hp, w', hn, call, hi, hpc⟩ :=
    (charges exampleCharges exampleRuntime exampleKeyring).exists_reached
      (OnlyRequest (exampleRequest "a") "item-1") runOvertaken
      (fun w => Pending w.shared ∧
        ∃ w' ∈ (charges exampleCharges exampleRuntime exampleKeyring).next w (.step 0 {}),
          ∃ call ∈ w'.proc? 0, call.pc = .thrown (.app (conflict
            "Chargeable item reservation no longer belongs to this payment"))) (by decide)
  refine ⟨w, hw, fun h => ?_⟩
  exact (h.steps hp 0 {} w' trivial hn).noConflict call _ hi hpc ⟨_, rfl⟩

end BackendFoundation.Stripe.Resume
