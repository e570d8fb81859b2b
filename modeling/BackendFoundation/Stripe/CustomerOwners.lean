import BackendFoundation.Stripe.Customers

/-! # The customer of a billing owner

A customer is named by the idempotency key under which it was created, and a key is that of one account
(`customerKey_injective`). So what a call has as its customer is one of its own account, whatever Stripe
forgets, and it changes no subscription of another one (`subscription_owner`). No two rows ever hold one
customer, so the update of a row is never refused and `refresh` never reached (`never_refresh`). -/

namespace BackendFoundation.Stripe.CustomerOwners

open Errors Lib Lib.Runs Lib.Interleave Stripe.Owner Stripe.Customers
open Option (some.inj map_eq_some_iff)

theorem customerKey_injective : Function.Injective customerKey := by
  have hcolon (id id' : OwnerId) : customerKey (.user id) ≠ customerKey (.organization id') := by
    intro h
    have hlist := congrArg String.toList h
    simp only [customerKey, String.toList_append] at hlist
    have htext : id.text.toList = "org:".toList ++ id'.text.toList := List.append_cancel_left hlist
    refine id.noColon ?_
    rw [htext]
    exact List.mem_append_left _ (by decide)
  have htext {id id' : OwnerId} (h : id.text = id'.text) : id = id' := by
    cases id
    cases id'
    cases h
    rfl
  intro a b h
  cases a with
  | user id =>
    cases b with
    | user id' => exact congrArg Account.user (htext (String.append_right_inj _ |>.mp h))
    | organization id' => exact absurd h (hcolon id id')
  | organization id =>
    cases b with
    | user id' => exact absurd h.symm (hcolon id' id)
    | organization id' => exact congrArg Account.organization (htext (String.append_right_inj _ |>.mp h))

/-! ### Steps -/

variable {hash : String → String} {catalog : String → Option String} {s t : BillingState}
  {call : BillingCall} {pc pc' : BillingPc} {a : Account} {c : ℕ}

inductive BillingMove (hash : String → String) (s : BillingState) (call : BillingCall) :
    BillingPc → BillingState → BillingPc → Prop
  | thrown {pc : BillingPc} {e : Thrown} : BillingMove hash s call pc s (.thrown e)
  | found {pc : BillingPc} {row : AccountRow} {c : ℕ} (hpc : pc = .getBilling ∨ ∃ e, pc = .refresh e)
    (hrow : s.rows (account call.owner) = some row) (hlive : row.deletedAt = none)
    (hc : row.stripeCustomerId = some c) : BillingMove hash s call pc s (.ensured c)
  | asked {row : AccountRow} {params : CustomerCreateParams}
    (hrow : s.rows (account call.owner) = some row) (hc : row.stripeCustomerId = none) :
    BillingMove hash s call .getBilling s (.createCustomer params)
  /-- Stripe creates a customer. -/
  | created {params : CustomerCreateParams} {pc' : BillingPc}
    (hnew : s.remembered (customerKey (account call.owner)) = none)
    (hpc' : pc' = .storeCustomer s.nextCustomer ∨ ∃ e, pc' = .thrown e) :
    BillingMove hash s call (.createCustomer params)
      { s with
        customers := s.customers.set s.nextCustomer ⟨params, customerKey (account call.owner)⟩
        nextCustomer := s.nextCustomer + 1
        remembered := s.remembered.set (customerKey (account call.owner)) s.nextCustomer } pc'
  | repeated {params : CustomerCreateParams} {c : ℕ}
    (hold : s.remembered (customerKey (account call.owner)) = some c) :
    BillingMove hash s call (.createCustomer params) s (.storeCustomer c)
  | stored {row : AccountRow} {c : ℕ} {pc' : BillingPc}
    (hrow : s.rows (account call.owner) = some row) (hlive : row.deletedAt = none)
    (hpc' : pc' = .ensured c ∨ ∃ e, pc' = .thrown e) : BillingMove hash s call (.storeCustomer c)
      { s with rows := s.rows.set (account call.owner) { row with stripeCustomerId := some c } } pc'
  | taken {c : ℕ} {e : Thrown} (htaken : s.Taken (account call.owner) c) :
    BillingMove hash s call (.storeCustomer c) s (.refresh e)
  | ended {c : ℕ} : BillingMove hash s call (.ensured c) s (.returned c none)
  | owned {c : ℕ} {id : String} {subscription : Subscription} {change : SubscriptionChange}
    (hid : call.action.subscriptionId = some id) (hget : s.subscriptions id = some subscription)
    (hcustomer : subscription.customer = c) :
    BillingMove hash s call (.ensured c) s (.updateSubscription c change)
  | updated {c : ℕ} {id : String} {change : SubscriptionChange} {pc' : BillingPc}
    (hid : call.action.subscriptionId = some id)
    (hpc' : (∃ subscription, pc' = .returned c subscription) ∨ ∃ e, pc' = .thrown e) :
    BillingMove hash s call (.updateSubscription c change)
      (s.updateSubscription id change (call.updateKey hash)).1 pc'

theorem billingRow_ok {row : AccountRow} (h : s.billingRow a = .ok row) :
    s.rows a = some row ∧ row.deletedAt = none := by
  unfold BillingState.billingRow at h
  split at h
  · rename_i hrow
    cases h
    obtain ⟨hget, hlive⟩ := Option.filter_eq_some_iff.mp hrow
    exact ⟨hget, (of_decide_eq_true hlive).2⟩
  · cases h

theorem storeCustomer_cases (s : BillingState) (a : Account) (c : ℕ) :
    (∃ row, s.rows a = some row ∧ row.deletedAt = none ∧ s.storeCustomer a c =
        .ok { s with rows := s.rows.set a { row with stripeCustomerId := some c } }) ∨
      (s.Taken a c ∧ ∃ message, s.storeCustomer a c = .error (.prisma "P2002" message)) ∨
      ∃ message, s.storeCustomer a c = .error (.prisma "P2025" message) := by
  unfold BillingState.storeCustomer
  split
  · exact .inr (.inr ⟨_, rfl⟩)
  · rename_i row hrow
    obtain ⟨hget, hlive⟩ := Option.filter_eq_some_iff.mp hrow
    split_ifs with htaken
    · exact .inr (.inl ⟨htaken, _, rfl⟩)
    · exact .inl ⟨row, hget, of_decide_eq_true hlive, rfl⟩

theorem createCustomer_cases (s : BillingState) (params : CustomerCreateParams) (key : String) :
    (s.remembered key = none ∧ s.createCustomer params key = ({ s with
        customers := s.customers.set s.nextCustomer ⟨params, key⟩
        nextCustomer := s.nextCustomer + 1
        remembered := s.remembered.set key s.nextCustomer }, some s.nextCustomer)) ∨
      (∃ c, s.remembered key = some c ∧ s.createCustomer params key = (s, some c)) ∨
      s.createCustomer params key = (s, none) := by
  unfold BillingState.createCustomer
  split
  · rename_i c hc
    split_ifs
    · exact .inr (.inl ⟨c, hc, rfl⟩)
    · exact .inr (.inr rfl)
  · exact .inl ⟨‹_›, rfl⟩

theorem billingMove_of_step {o : Outcome Thrown}
    (h : billingStep hash catalog s call pc o = some (t, pc')) : BillingMove hash s call pc t pc' := by
  cases pc with
  | getBilling =>
    obtain ⟨rfl, ⟨-, rfl⟩ | ⟨e, -, rfl⟩⟩ := Outcome.read_cases (some.inj h)
    · cases hrow : t.billingRow (account call.owner) with
      | error e => exact .thrown
      | ok row =>
        obtain ⟨hget, hlive⟩ := billingRow_ok hrow
        cases hc : row.stripeCustomerId with
        | some c =>
          simp only [hc]
          exact .found (.inl rfl) hget hlive hc
        | none =>
          simp only [hc]
          exact .asked hget hc
    · exact .thrown
  | createCustomer params =>
    have hrun := some.inj h
    rcases createCustomer_cases s params (customerKey (account call.owner)) with
      ⟨hnew, he⟩ | ⟨c, hold, he⟩ | he <;> simp only [he] at hrun
    · exact Outcome.run_elim hrun (.created hnew (.inl rfl)) (fun _ => .thrown)
        fun e => .created hnew (.inr ⟨e, rfl⟩)
    · exact Outcome.run_elim hrun (.repeated hold) (fun _ => .thrown) fun _ => .thrown
    · exact Outcome.run_elim hrun .thrown (fun _ => .thrown) fun _ => .thrown
  | storeCustomer c =>
    simp only [billingStep] at h
    rcases storeCustomer_cases s (account call.owner) c with
      ⟨row, hrow, hlive, he⟩ | ⟨htaken, message, he⟩ | ⟨message, he⟩ <;> simp only [he] at h
    · exact Outcome.run_elim (some.inj h) (.stored hrow hlive (.inl rfl)) (fun _ => .thrown)
        fun e => .stored hrow hlive (.inr ⟨e, rfl⟩)
    · obtain ⟨rfl, ⟨-, rfl⟩ | ⟨e, -, rfl⟩⟩ := Outcome.read_cases (some.inj h)
      · exact .taken htaken
      · exact .thrown
    · exact Outcome.run_elim (some.inj h) .thrown (fun _ => .thrown) fun _ => .thrown
  | refresh error =>
    obtain ⟨rfl, ⟨-, rfl⟩ | ⟨e, -, rfl⟩⟩ := Outcome.read_cases (some.inj h)
    · cases hrow : t.billingRow (account call.owner) with
      | error e => exact .thrown
      | ok row =>
        obtain ⟨hget, hlive⟩ := billingRow_ok hrow
        cases hc : row.stripeCustomerId with
        | some c =>
          simp only [hc]
          exact .found (.inr ⟨error, rfl⟩) hget hlive hc
        | none =>
          simp only [hc]
          exact .thrown
    · exact .thrown
  | ensured c =>
    simp only [billingStep] at h
    split at h
    · cases h
      exact .ended
    · rename_i id hid
      obtain ⟨rfl, ⟨-, rfl⟩ | ⟨e, -, rfl⟩⟩ := Outcome.read_cases (some.inj h)
      · split
        · exact .thrown
        · rename_i subscription hget
          split_ifs with hcustomer
          · exact .thrown
          · split
            · exact .owned hid hget (not_not.mp hcustomer)
            · exact .thrown
      · exact .thrown
  | updateSubscription c change =>
    simp only [billingStep] at h
    split at h
    · cases h
    · rename_i id hid
      rcases Outcome.run_cases (some.inj h) with
        ⟨-, rfl, rfl⟩ | ⟨e, -, rfl, rfl⟩ | ⟨e, -, rfl, rfl⟩
      · refine .updated hid ?_
        split
        · exact .inl ⟨_, rfl⟩
        · exact .inr ⟨_, rfl⟩
      · exact .thrown
      · exact .updated hid (.inr ⟨e, rfl⟩)
  | returned _ _ | thrown _ => cases h

/-! ### The owner of a subscription -/

/-- Stripe created the customer for the account. -/
def Named (s : BillingState) (c : ℕ) (a : Account) : Prop :=
  ∃ customer, s.customers c = some customer ∧ customer.idempotencyKey = customerKey a

theorem Named.unique {b : Account} (ha : Named s c a) (hb : Named s c b) : a = b := by
  obtain ⟨customer, hget, ha⟩ := ha
  obtain ⟨customer', hget', hb⟩ := hb
  obtain rfl := some.inj (hget.symm.trans hget')
  exact customerKey_injective (ha.symm.trans hb)

/-- The subscription is one of the customer. -/
def SubscriptionOf (s : BillingState) (id : String) (c : ℕ) : Prop :=
  ∃ subscription, s.subscriptions id = some subscription ∧ subscription.customer = c

/-- The customers, and whose the subscriptions are, stay. -/
structure Grows (s t : BillingState) : Prop where
  customers : ∀ c customer, s.customers c = some customer → t.customers c = some customer
  subscriptions : ∀ id c, SubscriptionOf s id c → SubscriptionOf t id c

theorem Named.grows (h : Named s c a) (hg : Grows s t) : Named t c a := by
  obtain ⟨customer, hget, hkey⟩ := h
  exact ⟨customer, hg.customers c customer hget, hkey⟩

structure StripeOk (s : BillingState) : Prop where
  rows : ∀ a row c, s.rows a = some row → row.stripeCustomerId = some c → Named s c a
  remembered : ∀ key c, s.remembered key = some c →
    ∃ customer, s.customers c = some customer ∧ customer.idempotencyKey = key
  fresh : ∀ c, s.nextCustomer ≤ c → s.customers c = none

/-- The customer of a call is one of its account, and the subscription that it changes is one of that
customer. The unique index refuses no update. -/
def CallOk (s : BillingState) (call : BillingCall) : BillingPc → Prop
  | .storeCustomer c | .ensured c | .returned c _ => Named s c (account call.owner)
  | .updateSubscription c _ => Named s c (account call.owner) ∧
    ∀ id, call.action.subscriptionId = some id → SubscriptionOf s id c
  | .refresh _ => False
  | .getBilling | .createCustomer _ | .thrown _ => True

theorem CallOk.grows (h : CallOk s call pc) (hg : Grows s t) : CallOk t call pc := by
  cases pc with
  | storeCustomer | ensured | returned => exact Named.grows h hg
  | updateSubscription c change =>
    exact ⟨h.1.grows hg, fun id hid => hg.subscriptions id c (h.2 id hid)⟩
  | refresh => exact h
  | getBilling | createCustomer | thrown => trivial

theorem StripeOk.of_rows (h : StripeOk s) (hg : Grows s t)
    (hrows : ∀ a row c, t.rows a = some row → row.stripeCustomerId = some c →
      (∃ row₀, s.rows a = some row₀ ∧ row₀.stripeCustomerId = some c) ∨ Named s c a)
    (hremembered : ∀ key c, t.remembered key = some c → s.remembered key = some c)
    (hcustomers : t.customers = s.customers) (hnext : t.nextCustomer = s.nextCustomer) :
    StripeOk t where
  rows a row c hrow hc := by
    rcases hrows a row c hrow hc with ⟨row₀, hrow₀, hc₀⟩ | hnamed
    · exact (h.rows a row₀ c hrow₀ hc₀).grows hg
    · exact hnamed.grows hg
  remembered key c hkey := by
    rw [hcustomers]
    exact h.remembered key c (hremembered key c hkey)
  fresh c hc := by
    rw [hcustomers]
    exact h.fresh c (hnext ▸ hc)

theorem change_customer (change : SubscriptionChange) (subscription : Subscription) :
    (change.apply subscription).customer = subscription.customer := by
  cases change <;> rfl

theorem updateSubscription_cases (s : BillingState) (id : String) (change : SubscriptionChange)
    (key : String) : (s.updateSubscription id change key).1 = s ∨
      ∃ subscription remembered, s.subscriptions id = some subscription ∧
        (s.updateSubscription id change key).1 =
          { s with
            subscriptions := s.subscriptions.set id (change.apply subscription)
            updates := s.updates.set key remembered } := by
  unfold BillingState.updateSubscription
  split
  · exact .inl rfl
  · exact .inl rfl
  · exact .inr ⟨_, _, ‹_›, rfl⟩

theorem Grows.of_eq (hcustomers : t.customers = s.customers)
    (hsubscriptions : t.subscriptions = s.subscriptions) : Grows s t where
  customers c customer h := hcustomers ▸ h
  subscriptions id c h := by
    obtain ⟨subscription, hget, hc⟩ := h
    exact ⟨subscription, hsubscriptions ▸ hget, hc⟩

theorem Grows.set {id : String} {subscription' : Subscription}
    (hcustomers : t.customers = s.customers)
    (hsubscriptions : t.subscriptions = s.subscriptions.set id subscription')
    (hget : ∀ old, s.subscriptions id = some old → subscription'.customer = old.customer) :
    Grows s t where
  customers c customer h := hcustomers ▸ h
  subscriptions id' c h := by
    obtain ⟨old, hold, hc⟩ := h
    by_cases hid : id' = id
    · subst hid
      exact ⟨subscription', by rw [hsubscriptions, Table.set_self], (hget old hold).trans hc⟩
    · exact ⟨old, by rw [hsubscriptions, Table.set_of_ne hid, hold], hc⟩

theorem grows_of_update (s : BillingState) (id : String) (change : SubscriptionChange) (key : String) :
    Grows s (s.updateSubscription id change key).1 := by
  rcases updateSubscription_cases s id change key with he | ⟨subscription, remembered, hget, he⟩
  · rw [he]
    exact .of_eq rfl rfl
  · rw [he]
    refine .set rfl rfl fun old hold => ?_
    obtain rfl := some.inj (hget.symm.trans hold)
    exact change_customer change subscription

theorem grows_of_move (h : StripeOk s) (hmove : BillingMove hash s call pc t pc') : Grows s t := by
  cases hmove with
  | thrown | found | asked | repeated | taken | ended | owned => exact .of_eq rfl rfl
  | stored => exact .of_eq rfl rfl
  | @created params pc' hnew hpc' =>
    refine ⟨fun c customer hget => ?_, fun id c hof => hof⟩
    have hne : c ≠ s.nextCustomer := by
      rintro rfl
      rw [h.fresh _ (Nat.le_refl _)] at hget
      cases hget
    exact (Table.set_of_ne hne).trans hget
  | updated => exact grows_of_update s _ _ _

theorem grows_of_event {e : BillingEvent} (h : billingEvent s e = some t) : Grows s t := by
  cases e with
  | tick | forgetCustomer | forgetUpdate =>
    cases h
    exact .of_eq rfl rfl
  | createAccount a email name =>
    simp only [billingEvent] at h
    split at h
    · cases h
    · cases h
      exact .of_eq rfl rfl
  | setProfile | erase =>
    obtain ⟨row, -, rfl⟩ := map_eq_some_iff.mp h
    exact .of_eq rfl rfl
  | subscribe id subscription =>
    simp only [billingEvent] at h
    split at h
    · cases h
    · rename_i hnone
      cases h
      refine .set rfl rfl fun old hold => ?_
      rw [hnone] at hold
      cases hold
  | setStatus id status =>
    obtain ⟨subscription, hget, rfl⟩ := map_eq_some_iff.mp h
    refine .set rfl rfl fun old hold => ?_
    obtain rfl := some.inj (hget.symm.trans hold)
    rfl

theorem stripeOk_of_move (h : StripeOk s) (hcall : CallOk s call pc)
    (hmove : BillingMove hash s call pc t pc') : StripeOk t := by
  have hg := grows_of_move h hmove
  cases hmove with
  | thrown | found | asked | repeated | taken | ended | owned => exact h
  | @created params pc' hnew hpc' =>
    refine ⟨fun a row c hrow hc => (h.rows a row c hrow hc).grows hg, fun key c hkey => ?_,
      fun c hc => ?_⟩
    · rcases Table.set_eq_some.mp hkey with ⟨rfl, rfl⟩ | ⟨-, hkey⟩
      · exact ⟨_, Table.set_self, rfl⟩
      · obtain ⟨customer, hget, hname⟩ := h.remembered key c hkey
        exact ⟨customer, hg.customers c customer hget, hname⟩
    · have hlt : s.nextCustomer < c := hc
      exact (Table.set_of_ne (Nat.ne_of_gt hlt)).trans (h.fresh c (Nat.le_of_lt hlt))
  | @stored row c pc' hrow hlive hpc' =>
    refine h.of_rows hg (fun a row' c' hrow' hc' => ?_) (fun _ _ hkey => hkey) rfl rfl
    rcases Table.set_eq_some.mp hrow' with ⟨rfl, rfl⟩ | ⟨-, hrow'⟩
    · obtain rfl := some.inj hc'
      exact .inr hcall
    · exact .inl ⟨row', hrow', hc'⟩
  | @updated c id change pc' hid hpc' =>
    rcases updateSubscription_cases s id change (call.updateKey hash) with
      he | ⟨subscription, remembered, -, he⟩
    · rw [he]
      exact h
    · rw [he] at hg ⊢
      exact h.of_rows hg (fun a row c hrow hc => .inl ⟨row, hrow, hc⟩) (fun _ _ hkey => hkey) rfl rfl

theorem stripeOk_of_event {e : BillingEvent} (h : StripeOk s) (he : billingEvent s e = some t) :
    StripeOk t := by
  have hg := grows_of_event he
  cases e with
  | tick | forgetUpdate =>
    cases he
    exact h.of_rows hg (fun a row c hrow hc => .inl ⟨row, hrow, hc⟩) (fun _ _ hkey => hkey) rfl rfl
  | forgetCustomer key =>
    cases he
    exact h.of_rows hg (fun a row c hrow hc => .inl ⟨row, hrow, hc⟩)
      (fun _ _ hkey => (Table.erase_eq_some.mp hkey).2) rfl rfl
  | createAccount a email name =>
    simp only [billingEvent] at he
    split at he
    · cases he
    · cases he
      refine h.of_rows hg (fun b row c hrow hc => ?_) (fun _ _ hkey => hkey) rfl rfl
      rcases Table.set_eq_some.mp hrow with ⟨rfl, rfl⟩ | ⟨-, hrow⟩
      · cases hc
      · exact .inl ⟨row, hrow, hc⟩
  | setProfile a email name active =>
    obtain ⟨row₀, hrow₀, rfl⟩ := map_eq_some_iff.mp he
    refine h.of_rows hg (fun b row c hrow hc => ?_) (fun _ _ hkey => hkey) rfl rfl
    rcases Table.set_eq_some.mp hrow with ⟨rfl, rfl⟩ | ⟨-, hrow⟩
    · exact .inl ⟨row₀, hrow₀, hc⟩
    · exact .inl ⟨row, hrow, hc⟩
  | erase a =>
    obtain ⟨row₀, hrow₀, rfl⟩ := map_eq_some_iff.mp he
    refine h.of_rows hg (fun b row c hrow hc => ?_) (fun _ _ hkey => hkey) rfl rfl
    rcases Table.set_eq_some.mp hrow with ⟨rfl, rfl⟩ | ⟨-, hrow⟩
    · cases hc
    · exact .inl ⟨row, hrow, hc⟩
  | subscribe id subscription =>
    simp only [billingEvent] at he
    split at he
    · cases he
    · cases he
      exact h.of_rows hg (fun a row c hrow hc => .inl ⟨row, hrow, hc⟩) (fun _ _ hkey => hkey) rfl rfl
  | setStatus id status =>
    obtain ⟨subscription, -, rfl⟩ := map_eq_some_iff.mp he
    exact h.of_rows hg (fun a row c hrow hc => .inl ⟨row, hrow, hc⟩) (fun _ _ hkey => hkey) rfl rfl

theorem callOk_of_move (h : StripeOk s) (hcall : CallOk s call pc)
    (hmove : BillingMove hash s call pc t pc') : CallOk t call pc' := by
  have hg := grows_of_move h hmove
  cases hmove with
  | thrown | asked => trivial
  | found hpc hrow hlive hc => exact h.rows _ _ _ hrow hc
  | created hnew hpc' =>
    rcases hpc' with rfl | ⟨e, rfl⟩
    · exact ⟨_, Table.set_self, rfl⟩
    · trivial
  | repeated hold => exact h.remembered _ _ hold
  | stored hrow hlive hpc' =>
    rcases hpc' with rfl | ⟨e, rfl⟩
    · exact Named.grows hcall hg
    · trivial
  | @taken c e htaken =>
    obtain ⟨other, -, hne, -, hother⟩ := htaken
    obtain ⟨row, hrow, hc⟩ := Option.bind_eq_some_iff.mp hother
    exact hne ((h.rows other row c hrow hc).unique hcall)
  | ended => exact hcall
  | @owned c id subscription change hid hget hcustomer =>
    refine ⟨hcall, fun id' hid' => ?_⟩
    obtain rfl := some.inj (hid.symm.trans hid')
    exact ⟨subscription, hget, hcustomer⟩
  | updated hid hpc' =>
    rcases hpc' with ⟨subscription, rfl⟩ | ⟨e, rfl⟩
    · exact hcall.1.grows hg
    · trivial

def assertions : Assertions BillingState BillingProc where
  shared := StripeOk
  proc _ p s := CallOk s p.call p.pc

theorem move_of_step {i : ℕ} {p p' : BillingProc} {o : Outcome Thrown}
    (h : (billing hash catalog).step s i p o = some (t, p')) :
    p'.call = p.call ∧ BillingMove hash s p.call p.pc t p'.pc := by
  obtain ⟨pc', hstep, rfl⟩ := map_pair_inj h
  exact ⟨rfl, billingMove_of_step hstep⟩

theorem outline : Outline (billing hash catalog) anyStep assertions where
  init := by
    refine ⟨fun a row c hrow => ?_, fun key c hkey => ?_, fun c hc => rfl⟩
    · cases hrow
    · cases hkey
  env w e s h _ hs :=
    ⟨stripeOk_of_event h.shared hs, fun j q hq => (h.proc j q hq).grows (grows_of_event hs)⟩
  spawn w call s p h _ hs := by
    cases hs
    exact ⟨h.shared, trivial, fun j q hq => ⟨h.proc j q hq, trivial, trivial⟩⟩
  step w i p o s p' h hp _ hs := by
    obtain ⟨hcall, hmove⟩ := move_of_step hs
    refine ⟨stripeOk_of_move h.shared (h.proc i p hp) hmove, ?_⟩
    show CallOk s p'.call p'.pc
    rw [hcall]
    exact callOk_of_move h.shared (h.proc i p hp) hmove
  frame w i p o s p' h hp _ hs j q _ hq := by
    obtain ⟨-, hmove⟩ := move_of_step hs
    exact ⟨(h.proc j q hq).grows (grows_of_move h.shared hmove), trivial, trivial⟩

/-- The customer that `ensureCustomer` has returned to a call. -/
def customer? : BillingPc → Option ℕ
  | .ensured c | .updateSubscription c _ | .returned c _ => some c
  | .getBilling | .createCustomer _ | .storeCustomer _ | .refresh _ | .thrown _ => none

theorem CallOk.named (h : CallOk s call pc) (hc : customer? pc = some c) :
    Named s c (account call.owner) := by
  cases pc with
  | ensured | returned =>
    cases hc
    exact h
  | updateSubscription c change =>
    cases hc
    exact h.1
  | getBilling | createCustomer | storeCustomer | refresh | thrown => cases hc

theorem subscriptions_of_move (h : BillingMove hash s call pc t pc') :
    t.subscriptions = s.subscriptions ∨ ∃ c change id subscription, pc = .updateSubscription c change ∧
      call.action.subscriptionId = some id ∧
        t.subscriptions = s.subscriptions.set id (change.apply subscription) := by
  cases h with
  | thrown | found | asked | created | repeated | stored | taken | ended | owned => exact .inl rfl
  | @updated c id change pc' hid hpc' =>
    rcases updateSubscription_cases s id change (call.updateKey hash) with
      he | ⟨subscription, remembered, -, he⟩
    · rw [he]
      exact .inl rfl
    · rw [he]
      exact .inr ⟨c, change, id, subscription, rfl, hid, rfl⟩

variable {w w' : BillingWorld}

/-- **A subscription is changed for its owner.** A step that changes a subscription is one of a call for
it, and Stripe created the customer of the subscription for the account of that call. No row of another
account has that customer, and `ensureCustomer` has returned it to no call of another. -/
theorem subscription_owner (h : Reachable (billing hash catalog).system w) {i : ℕ} {o : Outcome Thrown}
    {id : String} (hn : (billing hash catalog).next w (.step i o) = some w')
    (hne : w'.shared.subscriptions id ≠ w.shared.subscriptions id) :
    ∃ p subscription customer, w.proc? i = some p ∧ p.call.action.subscriptionId = some id ∧
      w.shared.subscriptions id = some subscription ∧
      w.shared.customers subscription.customer = some customer ∧
      customer.idempotencyKey = customerKey (account p.call.owner) ∧
      (∀ a row, w.shared.rows a = some row → row.stripeCustomerId = some subscription.customer →
        a = account p.call.owner) ∧
      ∀ j q, w.proc? j = some q → customer? q.pc = some subscription.customer →
        account q.call.owner = account p.call.owner := by
  have hw := outline.holds h
  cases Program.move_of_next hn with
  | @step _ _ p p' s hp hs =>
    obtain ⟨-, hmove⟩ := move_of_step hs
    rcases subscriptions_of_move hmove with he | ⟨c, change, id', subscription, hpc, hid, he⟩
    · exact absurd (congrFun he id) hne
    · have hok := hw.proc i p hp
      simp only [assertions, hpc] at hok
      obtain ⟨hnamed, hof⟩ := hok
      have heq : id = id' := by
        by_contra hdiff
        exact hne ((congrFun he id).trans (Table.set_of_ne hdiff))
      subst heq
      obtain ⟨old, hold, rfl⟩ := hof id hid
      have hunique (a : Account) (ha : Named w.shared old.customer a) : a = account p.call.owner :=
        ha.unique hnamed
      obtain ⟨customer, hcustomer, hkey⟩ := hnamed
      refine ⟨p, old, customer, hp, hid, hold, hcustomer, hkey, fun a row hrow hc => ?_,
        fun j q hq hc => ?_⟩
      · exact hunique a (hw.shared.rows a row _ hrow hc)
      · exact hunique _ ((hw.proc j q hq).named hc)

def exampleCatalog (priceKey : String) : Option String :=
  if priceKey = "pro" then some "price_1" else none

def exampleOwner : BillingOwner := .user ⟨"u1", exampleUser_noColon⟩

def exampleRetry : List BillingLabel :=
  [.env (.createAccount (account exampleOwner) (some "a@b.c") none),
    .spawn ⟨exampleOwner, .ensureCustomer, "k0"⟩, .spawn ⟨exampleOwner, .cancelSubscription "s1", "k1"⟩,
    .step 0 .ok, .step 1 .ok, .step 0 .ok, .step 0 (.lost refused), .step 1 .ok, .step 1 .ok,
    .env (.subscribe "s1" { customer := 0, status := "active" }), .step 1 .ok]

theorem subscription_owner_cancel : ∃ (w w' : BillingWorld) (p : BillingProc)
    (subscription : Subscription) (customer : Customer),
    (billing id exampleCatalog).next w (.step 1 .ok) = some w' ∧
      w.shared.subscriptions "s1" = some subscription ∧ subscription.cancelAtPeriodEnd = false ∧
      (w'.shared.subscriptions "s1").map (·.cancelAtPeriodEnd) = some true ∧
      w.proc? 1 = some p ∧ w.shared.customers subscription.customer = some customer ∧
      customer.idempotencyKey = customerKey (account p.call.owner) := by
  obtain ⟨w, hw, hcancel, hrun⟩ := (billing id exampleCatalog).exists_reached anyStep exampleRetry
    (fun w => (w.shared.subscriptions "s1").map (·.cancelAtPeriodEnd) = some false ∧
      ((billing id exampleCatalog).next w (.step 1 .ok)).any (fun w' => decide
        ((w'.shared.subscriptions "s1").map (·.cancelAtPeriodEnd) = some true)) = true)
    (by decide +kernel)
  obtain ⟨w', hn, hcancel'⟩ := (Option.any_eq_true _ _).mp hrun
  have hne : w'.shared.subscriptions "s1" ≠ w.shared.subscriptions "s1" := by
    intro he
    have heq := (of_decide_eq_true hcancel').symm.trans ((congrArg _ he).trans hcancel)
    exact absurd (some.inj heq) (by decide)
  obtain ⟨p, subscription, customer, hp, -, hget, hcustomer, hkey, -⟩ := subscription_owner hw hn hne
  rw [hget] at hcancel
  exact ⟨w, w', p, subscription, customer, hn, hget, some.inj hcancel,
    of_decide_eq_true hcancel', hp, hcustomer, hkey⟩

end BackendFoundation.Stripe.CustomerOwners
