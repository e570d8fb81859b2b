import BackendFoundation.Stripe.CustomerOwners

/-! # One customer for an account

Calls of one account that all find no customer in its row all ask Stripe to create one under the same
key, and Stripe answers them with the same customer. That an account so has one customer until it is
deleted (`one_customer`) rests on Stripe not forgetting the key while a call is on its way between the
reading of the row and its update (`Kept`). -/

namespace BackendFoundation.Stripe.OneCustomer

open Errors Lib Lib.Runs Lib.Interleave Stripe.Owner Stripe.Customers Stripe.CustomerOwners
open Option (some.inj map_eq_some_iff)

variable {hash : String → String} {catalog : String → Option String} {s t : BillingState}
  {call : BillingCall} {pc pc' : BillingPc} {a : Account} {c : ℕ} {w w' : BillingWorld}

/-- The call is between the reading of its row and its update. -/
def OnWay (key : String) (p : BillingProc) : Prop :=
  match p.pc with
  | .createCustomer _ | .storeCustomer _ => customerKey (account p.call.owner) = key
  | .getBilling | .refresh _ | .ensured _ | .updateSubscription _ _ | .returned _ _ | .thrown _ => False

instance (key : String) : DecidablePred (OnWay key) := fun p => by
  unfold OnWay
  split <;> infer_instance

/-- Stripe does not forget the key of an account that a call is on its way with. -/
def Kept (w : BillingWorld) : BillingLabel → Prop
  | .env (.forgetCustomer key) => ¬ w.Any (OnWay key)
  | _ => True

instance (w : BillingWorld) (l : BillingLabel) : Decidable (Kept w l) := by
  unfold Kept
  split <;> infer_instance

/-- The row of the account exists, and Stripe knows its customer by the key of the account. -/
def Backed (s : BillingState) (a : Account) : Prop :=
  ∃ row, s.rows a = some row ∧
    ∀ c, row.stripeCustomerId = some c → s.remembered (customerKey a) = some c

/-- The customer of the account, unless it is deleted. -/
def Settled (s : BillingState) (a : Account) (c : ℕ) : Prop :=
  ∃ row, s.rows a = some row ∧ (row.deletedAt = none → row.stripeCustomerId = some c)

def CallSettled (s : BillingState) (call : BillingCall) : BillingPc → Prop
  | .createCustomer _ => Backed s (account call.owner)
  | .storeCustomer c => Backed s (account call.owner) ∧
    s.remembered (customerKey (account call.owner)) = some c
  | .ensured c | .updateSubscription c _ | .returned c _ => Settled s (account call.owner) c
  | .getBilling | .refresh _ | .thrown _ => True

theorem remembered_of_move {key : String} (h : s.remembered key = some c)
    (hmove : BillingMove hash s call pc t pc') : t.remembered key = some c := by
  cases hmove with
  | thrown | found | asked | repeated | stored | taken | ended | owned => exact h
  | created hnew =>
    refine (Table.set_of_ne ?_).trans h
    rintro rfl
    rw [hnew] at h
    cases h
  | updated =>
    rcases updateSubscription_cases s _ _ _ with he | ⟨subscription, remembered, -, he⟩
    · rw [he]
      exact h
    · rw [he]
      exact h

/-- A move writes no row but that of its account, and gives that one the customer of the call. -/
theorem rows_of_move (hmove : BillingMove hash s call pc t pc') : t.rows = s.rows ∨
    ∃ row c, pc = .storeCustomer c ∧ s.rows (account call.owner) = some row ∧ row.deletedAt = none ∧
      t.rows = s.rows.set (account call.owner) { row with stripeCustomerId := some c } := by
  cases hmove with
  | thrown | found | asked | created | repeated | taken | ended | owned => exact .inl rfl
  | @stored row c pc' hrow hlive hpc' => exact .inr ⟨row, c, rfl, hrow, hlive, rfl⟩
  | updated =>
    rcases updateSubscription_cases s _ _ _ with he | ⟨subscription, remembered, -, he⟩
    · rw [he]
      exact .inl rfl
    · rw [he]
      exact .inl rfl

theorem backed_of_move (h : Backed s a) (hcall : CallSettled s call pc)
    (hmove : BillingMove hash s call pc t pc') : Backed t a := by
  have hremembered {c : ℕ} (hc : s.remembered (customerKey a) = some c) := remembered_of_move hc hmove
  obtain ⟨row, hrow, hback⟩ := h
  rcases rows_of_move hmove with he | ⟨row₀, c, rfl, -, -, he⟩
  · exact ⟨row, he ▸ hrow, fun c hc => hremembered (hback c hc)⟩
  · by_cases ha : a = account call.owner
    · subst ha
      refine ⟨_, by rw [he, Table.set_self], fun c' hc' => ?_⟩
      obtain rfl := some.inj hc'
      exact hremembered hcall.2
    · exact ⟨row, by rw [he, Table.set_of_ne ha, hrow], fun c hc => hremembered (hback c hc)⟩

/-- **An account keeps its customer**: a call that gives it one has the same. -/
theorem settled_of_move (h : Settled s a c) (hcall : CallSettled s call pc)
    (hmove : BillingMove hash s call pc t pc') : Settled t a c := by
  obtain ⟨row, hrow, hsettled⟩ := h
  rcases rows_of_move hmove with he | ⟨row₀, c', rfl, hrow₀, hlive, he⟩
  · exact ⟨row, he ▸ hrow, hsettled⟩
  · by_cases ha : a = account call.owner
    · subst ha
      obtain rfl := some.inj (hrow.symm.trans hrow₀)
      obtain ⟨⟨row', hrow', hback⟩, hc'⟩ := hcall
      obtain rfl := some.inj (hrow.symm.trans hrow')
      have hc := hback c (hsettled hlive)
      refine ⟨_, by rw [he, Table.set_self], fun _ => ?_⟩
      exact hc'.symm.trans hc
    · exact ⟨row, by rw [he, Table.set_of_ne ha, hrow], hsettled⟩

theorem callSettled_frame {call' : BillingCall} {pc₀ : BillingPc} (h : CallSettled s call' pc₀)
    (hcall : CallSettled s call pc) (hmove : BillingMove hash s call pc t pc') :
    CallSettled t call' pc₀ := by
  cases pc₀ with
  | createCustomer params => exact backed_of_move h hcall hmove
  | storeCustomer c => exact ⟨backed_of_move h.1 hcall hmove, remembered_of_move h.2 hmove⟩
  | ensured | updateSubscription | returned => exact settled_of_move h hcall hmove
  | getBilling | refresh | thrown => trivial

theorem callSettled_of_move (h : CallSettled s call pc) (hmove : BillingMove hash s call pc t pc') :
    CallSettled t call pc' := by
  cases hmove with
  | thrown | taken => trivial
  | found hpc hrow hlive hc => exact ⟨_, hrow, fun _ => hc⟩
  | asked hrow hc => exact ⟨_, hrow, fun c hc' => absurd (hc'.symm.trans hc) (Option.some_ne_none c)⟩
  | @created params pc' hnew hpc' =>
    rcases hpc' with rfl | ⟨e, rfl⟩
    · obtain ⟨row, hrow, hback⟩ := h
      refine ⟨⟨row, hrow, fun c hc => ?_⟩, Table.set_self⟩
      rw [hback c hc] at hnew
      cases hnew
    · trivial
  | repeated hold => exact ⟨h, hold⟩
  | @stored row c pc' hrow hlive hpc' =>
    rcases hpc' with rfl | ⟨e, rfl⟩
    · exact ⟨_, Table.set_self, fun _ => rfl⟩
    · trivial
  | ended => exact h
  | owned => exact h
  | @updated c id change pc' hid hpc' =>
    have hsettled : Settled (s.updateSubscription id change (call.updateKey hash)).1
        (account call.owner) c :=
      settled_of_move h h (.updated hid (.inr ⟨refused, rfl⟩))
    rcases hpc' with ⟨subscription, rfl⟩ | ⟨e, rfl⟩
    · exact hsettled
    · trivial

variable {e : BillingEvent}

theorem row_of_event {row : AccountRow} (h : billingEvent s e = some t)
    (hrow : s.rows a = some row) : ∃ row', t.rows a = some row' ∧
      (row'.stripeCustomerId = row.stripeCustomerId ∧ row'.deletedAt = row.deletedAt ∨
        row'.stripeCustomerId = none ∧ row'.deletedAt ≠ none) := by
  cases e with
  | tick | forgetCustomer | forgetUpdate =>
    cases h
    exact ⟨row, hrow, .inl ⟨rfl, rfl⟩⟩
  | createAccount b email name =>
    simp only [billingEvent] at h
    split at h
    · cases h
    · rename_i hnone
      cases h
      refine ⟨row, (Table.set_of_ne ?_).trans hrow, .inl ⟨rfl, rfl⟩⟩
      rintro rfl
      rw [hrow] at hnone
      cases hnone
  | setProfile b email name active =>
    obtain ⟨row₀, hrow₀, rfl⟩ := map_eq_some_iff.mp h
    by_cases ha : a = b
    · subst ha
      obtain rfl := some.inj (hrow.symm.trans hrow₀)
      exact ⟨_, Table.set_self, .inl ⟨rfl, rfl⟩⟩
    · exact ⟨row, (Table.set_of_ne ha).trans hrow, .inl ⟨rfl, rfl⟩⟩
  | erase b =>
    obtain ⟨row₀, hrow₀, rfl⟩ := map_eq_some_iff.mp h
    by_cases ha : a = b
    · subst ha
      exact ⟨_, Table.set_self, .inr ⟨rfl, Option.some_ne_none _⟩⟩
    · exact ⟨row, (Table.set_of_ne ha).trans hrow, .inl ⟨rfl, rfl⟩⟩
  | subscribe id subscription =>
    simp only [billingEvent] at h
    split at h
    · cases h
    · cases h
      exact ⟨row, hrow, .inl ⟨rfl, rfl⟩⟩
  | setStatus id status =>
    obtain ⟨subscription, -, rfl⟩ := map_eq_some_iff.mp h
    exact ⟨row, hrow, .inl ⟨rfl, rfl⟩⟩

theorem settled_of_event (h : Settled s a c) (he : billingEvent s e = some t) : Settled t a c := by
  obtain ⟨row, hrow, hsettled⟩ := h
  obtain ⟨row', hrow', ⟨hc, hlive⟩ | ⟨-, hdeleted⟩⟩ := row_of_event he hrow
  · exact ⟨row', hrow', fun h => hc.trans (hsettled (hlive.symm.trans h))⟩
  · exact ⟨row', hrow', fun h => absurd h hdeleted⟩

theorem remembered_of_event {key : String} (h : s.remembered key = some c)
    (hkept : e ≠ .forgetCustomer key) (he : billingEvent s e = some t) :
    t.remembered key = some c := by
  cases e with
  | tick | forgetUpdate =>
    cases he
    exact h
  | forgetCustomer key' =>
    cases he
    refine (Table.erase_of_ne ?_).trans h
    rintro rfl
    exact hkept rfl
  | createAccount | subscribe =>
    simp only [billingEvent] at he
    split at he
    · cases he
    · cases he
      exact h
  | setProfile | erase | setStatus =>
    obtain ⟨row, -, rfl⟩ := map_eq_some_iff.mp he
    exact h

theorem backed_of_event (h : Backed s a) (hkept : e ≠ .forgetCustomer (customerKey a))
    (he : billingEvent s e = some t) : Backed t a := by
  obtain ⟨row, hrow, hback⟩ := h
  obtain ⟨row', hrow', ⟨hc, -⟩ | ⟨hc, -⟩⟩ := row_of_event he hrow
  · exact ⟨row', hrow', fun c h => remembered_of_event (hback c (hc.symm.trans h)) hkept he⟩
  · exact ⟨row', hrow', fun c h => absurd (h.symm.trans hc) (Option.some_ne_none c)⟩

def settling : Assertions BillingState BillingProc where
  shared _ := True
  proc _ p s := CallSettled s p.call p.pc

theorem callSettled_of_event {w : BillingWorld} {j : ℕ} {q : BillingProc}
    (hq : w.proc? j = some q) (h : CallSettled s q.call q.pc) (hkept : Kept w (.env e))
    (he : billingEvent s e = some t) : CallSettled t q.call q.pc := by
  have hway (hpc : OnWay (customerKey (account q.call.owner)) q) :
      e ≠ .forgetCustomer (customerKey (account q.call.owner)) := by
    rintro rfl
    exact hkept ⟨j, q, hq, hpc⟩
  obtain ⟨call, pc⟩ := q
  cases pc with
  | createCustomer params => exact backed_of_event h (hway rfl) he
  | storeCustomer c =>
    exact ⟨backed_of_event h.1 (hway rfl) he, remembered_of_event h.2 (hway rfl) he⟩
  | ensured | updateSubscription | returned => exact settled_of_event h he
  | getBilling | refresh | thrown => trivial

theorem settlingOutline : Outline (billing hash catalog) Kept settling where
  init := trivial
  env w e s h hkept hs :=
    ⟨trivial, fun j q hq => callSettled_of_event hq (h.proc j q hq) hkept hs⟩
  spawn w call s p h _ hs := by
    cases hs
    exact ⟨trivial, trivial, fun j q hq => ⟨h.proc j q hq, trivial, trivial⟩⟩
  step w i p o s p' h hp _ hs := by
    obtain ⟨hcall, hmove⟩ := move_of_step hs
    refine ⟨trivial, ?_⟩
    show CallSettled s p'.call p'.pc
    rw [hcall]
    exact callSettled_of_move (h.proc i p hp) hmove
  frame w i p o s p' h hp _ hs j q _ hq := by
    obtain ⟨-, hmove⟩ := move_of_step hs
    exact ⟨callSettled_frame (h.proc j q hq) (h.proc i p hp) hmove, trivial, trivial⟩

theorem settled_path (h : ReachableBy (billing hash catalog).system Kept w)
    (hpath : Path (billing hash catalog).system Kept w w') (hs : Settled w.shared a c) :
    Settled w'.shared a c := by
  refine hpath.stable (Q := fun w => Settled w.shared a c) (fun w w' l hw hq hg hn => ?_) h hs
  cases Program.move_of_next hn with
  | spawn hs =>
    cases hs
    exact hq
  | step hp hs =>
    obtain ⟨-, hmove⟩ := move_of_step hs
    exact settled_of_move hq ((settlingOutline.holds hw).proc _ _ hp) hmove
  | crash => exact hq
  | env hs => exact settled_of_event hq hs

theorem CallSettled.settled (h : CallSettled s call pc) (hc : customer? pc = some c) :
    Settled s (account call.owner) c := by
  cases pc with
  | ensured | updateSubscription | returned =>
    cases hc
    exact h
  | getBilling | createCustomer | storeCustomer | refresh | thrown => cases hc

/-- **One customer.** Once `ensureCustomer` has returned a customer to a call, it is that of the account
until the account is deleted, and the one that any later call of the account has, however their steps
interleave and fail, if Stripe forgets no key that a call is on its way with. -/
theorem one_customer (h : ReachableBy (billing hash catalog).system Kept w)
    (hpath : Path (billing hash catalog).system Kept w w') {i : ℕ} {p : BillingProc} {row : AccountRow}
    (hp : w.proc? i = some p) (hc : customer? p.pc = some c)
    (hrow : w'.shared.rows (account p.call.owner) = some row) (hlive : row.deletedAt = none) :
    row.stripeCustomerId = some c ∧
      ∀ j q c', w'.proc? j = some q → account q.call.owner = account p.call.owner →
        customer? q.pc = some c' → c' = c := by
  have hsettled : Settled w'.shared (account p.call.owner) c :=
    settled_path h hpath (((settlingOutline.holds h).proc i p hp).settled hc)
  have hstored {c : ℕ} (hs : Settled w'.shared (account p.call.owner) c) :
      row.stripeCustomerId = some c := by
    obtain ⟨row', hrow', hc⟩ := hs
    obtain rfl := some.inj (hrow.symm.trans hrow')
    exact hc hlive
  refine ⟨hstored hsettled, fun j q c' hq ha hc' => ?_⟩
  have hcall := ((settlingOutline.holds (h.path hpath)).proc j q hq).settled hc'
  rw [ha] at hcall
  exact some.inj ((hstored hcall).symm.trans (hstored hsettled))

theorem one_customer_retry : ∃ (w w' : BillingWorld) (p q : BillingProc) (row : AccountRow),
    w.proc? 1 = some p ∧ customer? p.pc = some 0 ∧
      w'.shared.rows (account p.call.owner) = some row ∧ row.stripeCustomerId = some 0 ∧
      w'.shared.remembered (customerKey (account p.call.owner)) = none ∧
      w'.proc? 2 = some q ∧ customer? q.pc = some 0 := by
  obtain ⟨w, w', hw, hpath, ⟨hp, hc⟩, hrow, hnone, hq, hc'⟩ :=
    (billing id exampleCatalog).exists_path Kept exampleRetry
      [.env (.forgetCustomer (customerKey (account exampleOwner))),
        .spawn ⟨exampleOwner, .ensureCustomer, "k2"⟩, .step 2 .ok, .step 2 .ok]
      (fun w w' => ((w.proc? 1).map (·.call.owner) = some exampleOwner ∧
          (w.proc? 1).bind (fun p => customer? p.pc) = some 0) ∧
        (w'.shared.rows (account exampleOwner)).any (fun row => row.deletedAt = none) = true ∧
        w'.shared.remembered (customerKey (account exampleOwner)) = none ∧
        (w'.proc? 2).map (·.call.owner) = some exampleOwner ∧
        ((w'.proc? 2).bind fun q => customer? q.pc).isSome = true)
      (by decide +kernel)
  obtain ⟨p, hp, howner⟩ := map_eq_some_iff.mp hp
  obtain ⟨row, hrow, hlive⟩ := (Option.any_eq_true _ _).mp hrow
  obtain ⟨q, hq, howner'⟩ := map_eq_some_iff.mp hq
  rw [hp] at hc
  rw [hq] at hc'
  obtain ⟨c', hc'⟩ := Option.isSome_iff_exists.mp hc'
  rw [← howner] at hrow hnone howner'
  obtain ⟨hstored, hsame⟩ := one_customer hw hpath hp hc hrow (of_decide_eq_true hlive)
  obtain rfl := hsame 2 q c' hq (congrArg account howner') hc'
  exact ⟨w, w', p, q, row, hp, hc, hrow, hstored, hnone, hq, hc'⟩

end BackendFoundation.Stripe.OneCustomer
