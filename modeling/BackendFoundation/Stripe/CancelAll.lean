import BackendFoundation.Stripe.Cancellation

/-! # Every subscription is cancelled

While a call goes through the pages of a customer, subscriptions may be added in front of them, may end
and may be cancelled by other calls. It misses none that was there when it began: each is at an end, or
still to come in the page at hand or behind it (`Covered`). So when the call returns they are all at an
end (`cancels_all`), and it cancels none of another customer (`cancels_own`). -/

namespace BackendFoundation.Stripe.CancelAll

open Errors Lib Lib.Runs Lib.GrowingList Lib.Interleave Stripe.Cancellation

variable {s t : Subscriptions} {customer id status : String} {pc pc' : CancelPc}
  {subscription row : Subscription} {startingAfter : Option String}

/-! ### What happens to the subscriptions -/

/-- One step of the subscriptions at Stripe. -/
inductive Change (s : Subscriptions) : Subscriptions → Prop
  | same : Change s s
  | subscribed {subscription : Subscription} (hnew : subscription.id ∉ s.map (·.id)) :
    Change s (subscription :: s)
  | rewritten (id status : String) : Change s (s.map (setStatus id status))

@[simp] theorem setStatus_id : (setStatus id status row).id = row.id := by
  unfold setStatus
  split_ifs <;> rfl

@[simp] theorem setStatus_customer : (setStatus id status row).customer = row.customer := by
  unfold setStatus
  split_ifs <;> rfl

theorem setStatus_of_ended (h : row.Ended) : setStatus id status row = row :=
  if_neg fun hmatch => hmatch.2 h

theorem setStatus_canceled (h : row.id = id) : (setStatus id "canceled" row).Ended := by
  by_cases hended : row.Ended
  · rw [setStatus_of_ended hended]
    exact hended
  · rw [setStatus, if_pos ⟨h, hended⟩]
    exact .inl rfl

theorem map_id_setStatus (s : Subscriptions) :
    (s.map (setStatus id status)).map (·.id) = s.map (·.id) := by
  rw [List.map_map]
  exact List.map_congr_left fun row _ => setStatus_id

theorem Change.kept (h : Change s t) (hrow : row ∈ s) :
    ∃ row' ∈ t, row'.id = row.id ∧ row'.customer = row.customer ∧ (row.Ended → row'.Ended) := by
  cases h with
  | same => exact ⟨row, hrow, rfl, rfl, fun h => h⟩
  | subscribed hnew => exact ⟨row, List.mem_cons_of_mem _ hrow, rfl, rfl, fun h => h⟩
  | rewritten id status =>
    refine ⟨_, List.mem_map_of_mem hrow, setStatus_id, setStatus_customer, fun hended => ?_⟩
    rw [setStatus_of_ended hended]
    exact hended

theorem Change.nodup (h : Change s t) (hs : (s.map (·.id)).Nodup) : (t.map (·.id)).Nodup := by
  cases h with
  | same => exact hs
  | subscribed hnew => exact List.nodup_cons.mpr ⟨hnew, hs⟩
  | rewritten id status =>
    rw [map_id_setStatus]
    exact hs

theorem Change.ids (h : Change s t) (hid : id ∈ s.map (·.id)) : id ∈ t.map (·.id) := by
  obtain ⟨row, hrow, rfl⟩ := List.mem_map.mp hid
  obtain ⟨row', hrow', hid', -⟩ := h.kept hrow
  exact List.mem_map.mpr ⟨row', hrow', hid'⟩

theorem ofCustomer_map (s : Subscriptions) :
    ofCustomer customer (s.map (setStatus id status)) =
      (ofCustomer customer s).map (setStatus id status) := by
  rw [ofCustomer, ofCustomer, List.filter_map]
  refine congrArg _ (List.filter_congr fun row _ => ?_)
  simp

/-- What is behind a subscription stays behind it, and what is not listed yet stays so. -/
theorem Change.listed (h : Change s t)
    (hcursor : ∀ cursor, startingAfter = some cursor → cursor ∈ s.map (·.id))
    (hid : id ∈ (listed customer startingAfter s).map (·.id)) :
    id ∈ (listed customer startingAfter t).map (·.id) := by
  cases h with
  | same => exact hid
  | @subscribed subscription hnew =>
    unfold Cancellation.listed ofCustomer at hid ⊢
    rw [List.filter_cons]
    split_ifs
    · cases startingAfter with
      | none => exact List.mem_cons_of_mem _ hid
      | some cursor =>
        have hne : subscription.id ≠ cursor := by
          rintro rfl
          exact hnew (hcursor _ rfl)
        show id ∈ (behind _ cursor (subscription :: _)).map (·.id)
        rw [behind_cons hne]
        exact hid
    · exact hid
  | rewritten id' status =>
    unfold Cancellation.listed at hid ⊢
    rw [ofCustomer_map]
    cases startingAfter with
    | none =>
      show id ∈ ((ofCustomer customer s).map (setStatus id' status)).map (·.id)
      rw [map_id_setStatus]
      exact hid
    | some cursor =>
      show id ∈ (behind _ cursor ((ofCustomer customer s).map (setStatus id' status))).map (·.id)
      rw [behind_map fun row => setStatus_id, map_id_setStatus]
      exact hid

theorem change_event {e : SubscriptionEvent} (h : subscriptionEvent s e = some t) : Change s t := by
  cases e with
  | subscribe subscription =>
    simp only [subscriptionEvent] at h
    split_ifs at h with hnew
    cases h
    exact .subscribed hnew
  | setStatus id status =>
    cases h
    exact .rewritten id status

/-! ### Steps of a call -/

inductive CancelMove (s : Subscriptions) (customer : String) : CancelPc → Subscriptions → CancelPc → Prop
  | thrown {pc : CancelPc} {e : Thrown} : CancelMove s customer pc s (.thrown e)
  | listed {startingAfter : Option String} {canceled : ℕ} :
    CancelMove s customer (.list startingAfter canceled) s
      (.page (listSubscriptions customer 100 startingAfter s).data
        (listSubscriptions customer 100 startingAfter s).last? canceled)
  | next {startingAfter : String} {canceled : ℕ} : CancelMove s customer
      (.page [] (some startingAfter) canceled) s (.list (some startingAfter) canceled)
  | returned {canceled : ℕ} : CancelMove s customer (.page [] none canceled) s (.returned canceled)
  | skipped {subscription : Subscription} {rest : List Subscription} {startingAfter : Option String}
    {canceled : ℕ} (hended : subscription.Ended) :
    CancelMove s customer (.page (subscription :: rest) startingAfter canceled) s
      (.page rest startingAfter canceled)
  | canceled {subscription : Subscription} {rest : List Subscription} {startingAfter : Option String}
    {canceled : ℕ} {pc' : CancelPc} (hlive : ∃ row ∈ s, row.id = subscription.id)
    (hpc' : pc' = .page rest startingAfter (canceled + 1) ∨ ∃ e, pc' = .thrown e) :
    CancelMove s customer (.page (subscription :: rest) startingAfter canceled)
      (s.map (setStatus subscription.id "canceled")) pc'

theorem cancelMove_of_step {o : Outcome Thrown} (h : cancelStep s customer pc o = some (t, pc')) :
    CancelMove s customer pc t pc' := by
  unfold cancelStep at h
  split at h
  · obtain ⟨rfl, ⟨-, rfl⟩ | ⟨e, -, rfl⟩⟩ := Outcome.read_cases (Option.some.inj h)
    · exact .listed
    · exact .thrown
  · cases h
    exact .next
  · cases h
    exact .returned
  · next subscription rest startingAfter canceled =>
    split_ifs at h with hended
    · cases h
      exact .skipped hended
    · unfold cancel at h
      split_ifs at h with hany
      · obtain ⟨row, hrow, hmatch⟩ := List.any_eq_true.mp hany
        have hlive : ∃ row ∈ s, row.id = subscription.id := ⟨row, hrow, (of_decide_eq_true hmatch).1⟩
        rcases Outcome.run_cases (Option.some.inj h) with
          ⟨-, rfl, rfl⟩ | ⟨e, -, rfl, rfl⟩ | ⟨e, -, rfl, rfl⟩
        · exact .canceled hlive (.inl rfl)
        · exact .thrown
        · exact .canceled hlive (.inr ⟨e, rfl⟩)
      · obtain ⟨rfl, ⟨-, rfl⟩ | ⟨e, -, rfl⟩⟩ := Outcome.read_cases (Option.some.inj h)
        · exact .thrown
        · exact .thrown
  · cases h
  · cases h

theorem CancelMove.change (h : CancelMove s customer pc t pc') : Change s t := by
  cases h with
  | thrown | listed | next | returned | skipped => exact .same
  | canceled => exact .rewritten _ _

/-! ### The pages of a call -/

/-- The subscription behind which the next page is. -/
def cursor? : CancelPc → Option String
  | .list startingAfter _ | .page _ startingAfter _ => startingAfter
  | .returned _ | .thrown _ => none

def rest : CancelPc → List Subscription
  | .page rest _ _ => rest
  | .list _ _ | .returned _ | .thrown _ => []

/-- The cursor of a call is there, and the subscriptions of its page are subscriptions of its customer,
which have not come back from their end. -/
structure CallOk (s : Subscriptions) (customer : String) (pc : CancelPc) : Prop where
  cursor : ∀ cursor, cursor? pc = some cursor → cursor ∈ s.map (·.id)
  rest : ∀ subscription ∈ rest pc, ∃ row ∈ s, row.id = subscription.id ∧ row.customer = customer ∧
    (subscription.Ended → row.Ended)

theorem callOk_idle (hcursor : cursor? pc = none) (hrest : rest pc = []) : CallOk s customer pc where
  cursor cursor h := by
    rw [hcursor] at h
    cases h
  rest subscription h := by
    rw [hrest] at h
    cases h

theorem CallOk.change (h : CallOk s customer pc) (hchange : Change s t) : CallOk t customer pc where
  cursor cursor hcursor := hchange.ids (h.cursor cursor hcursor)
  rest subscription hrest := by
    obtain ⟨row, hrow, hid, hcustomer, hended⟩ := h.rest subscription hrest
    obtain ⟨row', hrow', hid', hcustomer', hended'⟩ := hchange.kept hrow
    exact ⟨row', hrow', hid'.trans hid, hcustomer'.trans hcustomer, fun he => hended' (hended he)⟩

theorem mem_ofCustomer : row ∈ ofCustomer customer s ↔ row ∈ s ∧ row.customer = customer := by
  rw [ofCustomer, List.mem_filter, decide_eq_true_eq]

theorem mem_data (h : row ∈ (listSubscriptions customer 100 startingAfter s).data) :
    row ∈ s ∧ row.customer = customer :=
  mem_ofCustomer.mp ((left_suffix _ _).mem (List.mem_of_mem_take h))

theorem last?_eq_some {cursor : String}
    (h : (listSubscriptions customer 100 startingAfter s).last? = some cursor) :
    ∃ row, ((listed customer startingAfter s).take 100).getLast? = some row ∧ row.id = cursor := by
  unfold SubscriptionPage.last? at h
  split_ifs at h
  obtain ⟨row, hrow, hid⟩ := Option.map_eq_some_iff.mp h
  exact ⟨row, hrow, hid⟩

theorem callOk_of_move (h : CallOk s customer pc) (hmove : CancelMove s customer pc t pc') :
    CallOk t customer pc' := by
  have hchange := h.change hmove.change
  cases hmove with
  | thrown | returned => exact callOk_idle rfl rfl
  | @listed startingAfter canceled =>
    refine ⟨fun cursor hcursor => ?_, fun row hrow => ?_⟩
    · obtain ⟨row, hlast, rfl⟩ := last?_eq_some hcursor
      exact List.mem_map_of_mem (mem_data (List.mem_of_getLast? hlast)).1
    · obtain ⟨hmem, hcustomer⟩ := mem_data hrow
      exact ⟨row, hmem, rfl, hcustomer, fun he => he⟩
  | next => exact ⟨h.cursor, nofun⟩
  | skipped => exact ⟨h.cursor, fun row hrow => h.rest row (List.mem_cons_of_mem _ hrow)⟩
  | canceled hlive hpc' =>
    rcases hpc' with rfl | ⟨e, rfl⟩
    · exact ⟨hchange.cursor, fun row hrow => hchange.rest row (List.mem_cons_of_mem _ hrow)⟩
    · exact callOk_idle rfl rfl

def assertions : Assertions Subscriptions CancelProc where
  shared s := (s.map (·.id)).Nodup
  proc _ p s := CallOk s p.stripeCustomerId p.pc

theorem move_of_step {i : ℕ} {p p' : CancelProc} {o : Outcome Thrown}
    (h : cancellations.step s i p o = some (t, p')) :
    p'.stripeCustomerId = p.stripeCustomerId ∧ CancelMove s p.stripeCustomerId p.pc t p'.pc := by
  obtain ⟨pc', hstep, rfl⟩ := map_pair_inj h
  exact ⟨rfl, cancelMove_of_step hstep⟩

theorem outline : Outline cancellations anyStep assertions where
  init := List.nodup_nil
  env w e s h _ hs :=
    ⟨(change_event hs).nodup h.shared, fun j q hq => (h.proc j q hq).change (change_event hs)⟩
  spawn w customer s p h _ hs := by
    cases hs
    exact ⟨h.shared, callOk_idle rfl rfl, fun j q hq => ⟨h.proc j q hq, trivial, trivial⟩⟩
  step w i p o s p' h hp _ hs := by
    obtain ⟨hcustomer, hmove⟩ := move_of_step hs
    refine ⟨hmove.change.nodup h.shared, ?_⟩
    show CallOk s p'.stripeCustomerId p'.pc
    rw [hcustomer]
    exact callOk_of_move (h.proc i p hp) hmove
  frame w i p o s p' h hp _ hs j q _ hq := by
    obtain ⟨-, hmove⟩ := move_of_step hs
    exact ⟨(h.proc j q hq).change hmove.change, trivial, trivial⟩

/-! ### No subscription is missed -/

/-- The subscription is at its end. -/
def HasEnded (id : String) (s : Subscriptions) : Prop := ∃ row ∈ s, row.id = id ∧ row.Ended

theorem HasEnded.change (h : HasEnded id s) (hchange : Change s t) : HasEnded id t := by
  obtain ⟨row, hrow, hid, hended⟩ := h
  obtain ⟨row', hrow', hid', -, hended'⟩ := hchange.kept hrow
  exact ⟨row', hrow', hid'.trans hid, hended' hended⟩

/-- The subscription is at its end, or the call has still to come to it. -/
inductive Covered (id : String) (customer : String) (s : Subscriptions) : CancelPc → Prop
  | ended {pc : CancelPc} (h : HasEnded id s) : Covered id customer s pc
  | listed {startingAfter : Option String} {canceled : ℕ}
    (h : id ∈ (listed customer startingAfter s).map (·.id)) :
    Covered id customer s (.list startingAfter canceled)
  | page {rest : List Subscription} {startingAfter : Option String} {canceled : ℕ}
    (h : id ∈ rest.map (·.id)) : Covered id customer s (.page rest startingAfter canceled)
  | behind {rest : List Subscription} {startingAfter : String} {canceled : ℕ}
    (h : id ∈ (Cancellation.listed customer (some startingAfter) s).map (·.id)) :
    Covered id customer s (.page rest (some startingAfter) canceled)
  | thrown {e : Thrown} : Covered id customer s (.thrown e)

theorem Covered.change (h : Covered id customer s pc) (hok : CallOk s customer pc) (hchange : Change s t) :
    Covered id customer t pc := by
  cases h with
  | ended h => exact .ended (h.change hchange)
  | listed h => exact .listed (hchange.listed hok.cursor h)
  | page h => exact .page h
  | behind h => exact .behind (hchange.listed hok.cursor h)
  | thrown => exact .thrown

theorem covered_page (hnodup : (s.map (·.id)).Nodup) {canceled : ℕ}
    (h : id ∈ (listed customer startingAfter s).map (·.id)) :
    Covered id customer s (.page (listSubscriptions customer 100 startingAfter s).data
      (listSubscriptions customer 100 startingAfter s).last? canceled) := by
  have hcustomer : ((ofCustomer customer s).map Subscription.id).Nodup :=
    hnodup.sublist (List.filter_sublist.map _)
  have hsplit := List.take_append_drop 100 (listed customer startingAfter s)
  rw [← hsplit, List.map_append] at h
  rcases List.mem_append.mp h with h | h
  · exact .page h
  · have hlength : 100 < (listed customer startingAfter s).length := by
      by_contra hle
      rw [List.drop_eq_nil_of_le (Nat.not_lt.mp hle)] at h
      cases h
    have hne : (listed customer startingAfter s).take 100 ≠ [] := by
      intro hnil
      have hzero := congrArg List.length hnil
      rw [List.length_take, List.length_nil] at hzero
      omega
    have hlast := List.getLast?_eq_some_getLast hne
    have hcursor : (listSubscriptions customer 100 startingAfter s).last? =
        some (((listed customer startingAfter s).take 100).getLast hne).id := by
      unfold SubscriptionPage.last? listSubscriptions
      rw [if_pos (decide_eq_true hlength), hlast]
      rfl
    rw [hcursor]
    refine .behind ?_
    have hbehind := behind_last hcustomer hlast
    show id ∈ (behind Subscription.id _ (ofCustomer customer s)).map (·.id)
    rw [hbehind]
    exact h

theorem Covered.move (h : Covered id customer s pc) (hnodup : (s.map (·.id)).Nodup)
    (hok : CallOk s customer pc) (hmove : CancelMove s customer pc t pc') : Covered id customer t pc' := by
  cases hmove with
  | thrown => exact .thrown
  | listed =>
    cases h with
    | ended h => exact .ended h
    | listed h => exact covered_page hnodup h
  | next =>
    cases h with
    | ended h => exact .ended h
    | page h => cases h
    | behind h => exact .listed h
  | returned =>
    cases h with
    | ended h => exact .ended h
    | page h => cases h
  | @skipped subscription rest startingAfter canceled hended =>
    cases h with
    | ended h => exact .ended h
    | page h =>
      rcases List.mem_cons.mp h with rfl | h
      · obtain ⟨row, hrow, hid, -, hended'⟩ := hok.rest subscription List.mem_cons_self
        exact .ended ⟨row, hrow, hid, hended' hended⟩
      · exact .page h
    | behind h => exact .behind h
  | @canceled subscription rest startingAfter canceled pc' hlive hpc' =>
    rcases hpc' with rfl | ⟨e, rfl⟩
    · have hnext := h.change hok (.rewritten subscription.id "canceled")
      cases hnext with
      | ended hended => exact .ended hended
      | page hpage =>
        rcases List.mem_cons.mp hpage with rfl | hpage
        · obtain ⟨row, hrow, hid⟩ := hlive
          exact .ended ⟨_, List.mem_map_of_mem hrow, setStatus_id.trans hid, setStatus_canceled hid⟩
        · exact .page hpage
      | behind hbehind => exact .behind hbehind
    · exact .thrown

variable {w w' w₁ : CancelWorld}

/-- The call has not missed a subscription that was there when it began. -/
def Complete (w₀ : CancelWorld) (customer : String) (w : CancelWorld) : Prop :=
  w₀.fresh < w.fresh ∧ ∀ p, w.proc? w₀.fresh = some p → p.stripeCustomerId = customer ∧
    ∀ row ∈ w₀.shared, row.customer = customer → Covered row.id customer w.shared p.pc

theorem complete_next {w₀ : CancelWorld} {l : Label String (Outcome Thrown) SubscriptionEvent}
    (hw : Reachable cancellations.system w) (h : Complete w₀ customer w)
    (hn : cancellations.next w l = some w') : Complete w₀ customer w' := by
  obtain ⟨hfresh, hcall⟩ := h
  have hok := outline.holds hw
  refine ⟨Nat.lt_of_lt_of_le hfresh (fresh_le_of_next hn), fun q hq => ?_⟩
  have hchange {s : Subscriptions} (hchange : Change w.shared s) (hq : w.proc? w₀.fresh = some q) :
      q.stripeCustomerId = customer ∧ ∀ row ∈ w₀.shared, row.customer = customer →
        Covered row.id customer s q.pc := by
    obtain ⟨hcustomer, hcovered⟩ := hcall q hq
    refine ⟨hcustomer, fun row hrow hc => (hcovered row hrow hc).change ?_ hchange⟩
    exact hcustomer ▸ hok.proc _ q hq
  cases Program.move_of_next hn with
  | spawn hs =>
    cases hs
    rcases World.proc?_add_cases hq with ⟨he, -⟩ | ⟨-, hq⟩
    · exact absurd he (Nat.ne_of_lt hfresh)
    · exact hcall q hq
  | @step i o p p' s hp hs =>
    obtain ⟨hcustomer', hmove⟩ := move_of_step hs
    rcases World.proc?_put_cases hp hq with ⟨hi, rfl⟩ | ⟨-, hq⟩
    · rw [hi] at hcall
      obtain ⟨hcustomer, hcovered⟩ := hcall p hp
      rw [hcustomer] at hmove
      refine ⟨hcustomer'.trans hcustomer, fun row hrow hc => ?_⟩
      exact (hcovered row hrow hc).move hok.shared (hcustomer ▸ hok.proc i p hp) hmove
    · exact hchange hmove.change hq
  | crash hp => exact hcall q (World.proc?_kill_cases hq).2
  | env hs => exact hchange (change_event hs) hq

/-- **Every subscription is cancelled.** When a call returns, each subscription of its customer that was
there when it began is at an end, whatever was added, ended or cancelled meanwhile. -/
theorem cancels_all (h : Reachable cancellations.system w)
    (hn : cancellations.next w (.spawn customer) = some w₁)
    (hpath : Path cancellations.system anyStep w₁ w') {canceled : ℕ}
    (hreturned : w'.proc? w.fresh = some ⟨customer, .returned canceled⟩) (hrow : row ∈ w.shared)
    (hcustomer : row.customer = customer) : ∃ row' ∈ w'.shared, row'.id = row.id ∧ row'.Ended := by
  have hw₁ : w₁ = w.add w.shared ⟨customer, .list none 0⟩ := (Option.some.inj hn).symm
  have hstart : Complete w customer w₁ := by
    rw [hw₁]
    refine ⟨by rw [World.fresh_add]; exact Nat.lt_succ_self _, fun p hp => ?_⟩
    rw [World.proc?_add_self] at hp
    cases hp
    refine ⟨rfl, fun row hrow hc => .listed ?_⟩
    exact List.mem_map_of_mem (mem_ofCustomer.mpr ⟨hrow, hc⟩)
  have hreach : Reachable cancellations.system w₁ := .step (a := .spawn customer) h trivial hn
  have hend : Complete w customer w' := hpath.stable (Q := Complete w customer)
    (fun _ _ _ hw hq _ hn => complete_next hw hq hn) hreach hstart
  obtain ⟨-, hcovered⟩ := hend.2 _ hreturned
  have hcov := hcovered row hrow hcustomer
  cases hcov with
  | ended h => exact h

def exampleSubscription : Subscription := ⟨"s1", "c1", "active"⟩

def exampleSubscribed : List (Label String (Outcome Thrown) SubscriptionEvent) :=
  [.env (.subscribe exampleSubscription), .env (.subscribe ⟨"s2", "c2", "active"⟩)]

/-- A subscription is added while the call has its page. -/
theorem cancels_all_added : ∃ w' : CancelWorld,
    (∃ row ∈ w'.shared, row.id = "s3" ∧ row.status = "active") ∧
      ∃ row ∈ w'.shared, row.id = "s1" ∧ row.Ended := by
  obtain ⟨w, hw, ⟨hfresh, hmem⟩, hrun⟩ := cancellations.exists_reached anyStep exampleSubscribed
    (fun w => (w.fresh = 0 ∧ exampleSubscription ∈ w.shared) ∧
      ((cancellations.next w (.spawn "c1")).bind fun w₁ => exec cancellations.system anyStep w₁
        [.step 0 .ok, .env (.subscribe ⟨"s3", "c1", "active"⟩), .step 0 .ok, .step 0 .ok]).any
          (fun w' => decide (w'.proc? 0 = some ⟨"c1", .returned 1⟩ ∧
            ∃ row ∈ w'.shared, row.id = "s3" ∧ row.status = "active")) = true)
    (by decide +kernel)
  obtain ⟨w', hexec, hend⟩ := (Option.any_eq_true _ _).mp hrun
  obtain ⟨w₁, hn, hexec⟩ := Option.bind_eq_some_iff.mp hexec
  obtain ⟨hreturned, hadded⟩ := of_decide_eq_true hend
  rw [← hfresh] at hreturned
  exact ⟨w', hadded, cancels_all hw hn (path_of_exec .refl hexec) hreturned hmem rfl⟩

/-! ### The loop ends -/

/-- The steps that a call still takes, once it has a page, unless it throws. -/
def work (s : Subscriptions) (customer : String) : CancelPc → ℕ
  | .list startingAfter _ => 3 * (listed customer startingAfter s).length + 2
  | .page rest (some startingAfter) _ =>
    rest.length + 3 * (listed customer (some startingAfter) s).length + 3
  | .page rest none _ => rest.length + 1
  | .returned _ | .thrown _ => 0

def Begun (pc : CancelPc) : Prop := ∀ canceled, pc ≠ .list none canceled

theorem length_listed (h : Change s t) {cursor : String} (hcursor : cursor ∈ s.map (·.id)) :
    (listed customer (some cursor) t).length = (listed customer (some cursor) s).length := by
  unfold listed
  cases h with
  | same => rfl
  | @subscribed subscription hnew =>
    have hne : subscription.id ≠ cursor := by
      rintro rfl
      exact hnew hcursor
    unfold ofCustomer
    rw [List.filter_cons]
    split_ifs
    · show (behind _ cursor (subscription :: _)).length = _
      rw [behind_cons hne]
      rfl
    · rfl
  | rewritten id status =>
    rw [ofCustomer_map]
    show (behind _ cursor ((ofCustomer customer s).map (setStatus id status))).length = _
    rw [behind_map fun row => setStatus_id, List.length_map]
    rfl

theorem work_change (h : Change s t) (hok : CallOk s customer pc) (hbegun : Begun pc) :
    work t customer pc = work s customer pc := by
  cases pc with
  | list startingAfter canceled =>
    cases startingAfter with
    | none => exact absurd rfl (hbegun canceled)
    | some cursor => rw [work, work, length_listed h (hok.cursor cursor rfl)]
  | page rest startingAfter canceled =>
    cases startingAfter with
    | none => rfl
    | some cursor => rw [work, work, length_listed h (hok.cursor cursor rfl)]
  | returned | thrown => rfl

theorem work_page (hnodup : (s.map (·.id)).Nodup) {canceled : ℕ} :
    work s customer (.page (listSubscriptions customer 100 startingAfter s).data
      (listSubscriptions customer 100 startingAfter s).last? canceled) <
        work s customer (.list startingAfter canceled) := by
  have hcustomer : ((ofCustomer customer s).map Subscription.id).Nodup :=
    hnodup.sublist (List.filter_sublist.map _)
  have hdata : (listSubscriptions customer 100 startingAfter s).data.length =
      min 100 (listed customer startingAfter s).length := List.length_take
  cases hlast : (listSubscriptions customer 100 startingAfter s).last? with
  | none =>
    show (listSubscriptions customer 100 startingAfter s).data.length + 1 < 3 * _ + 2
    omega
  | some cursor =>
    obtain ⟨row, hrow, rfl⟩ := last?_eq_some hlast
    have hbehind : listed customer (some row.id) s = (listed customer startingAfter s).drop 100 :=
      behind_last hcustomer hrow
    have hlength : 100 < (listed customer startingAfter s).length := by
      by_contra hle
      unfold SubscriptionPage.last? listSubscriptions at hlast
      rw [if_neg (by simpa using hle)] at hlast
      cases hlast
    show (listSubscriptions customer 100 startingAfter s).data.length +
      3 * (listed customer (some row.id) s).length + 3 < 3 * (listed customer startingAfter s).length + 2
    rw [hbehind, List.length_drop]
    omega

theorem work_move (hmove : CancelMove s customer pc t pc') (hnodup : (s.map (·.id)).Nodup)
    (hok : CallOk s customer pc) (hlive : 0 < work s customer pc) :
    work t customer pc' < work s customer pc := by
  have hchange (hbegun : Begun pc) : work t customer pc = work s customer pc :=
    work_change hmove.change hok hbegun
  cases hmove with
  | thrown => exact hlive
  | listed => exact work_page hnodup
  | next => exact Nat.lt_of_lt_of_eq (Nat.lt_succ_self _) (by simp only [work, List.length_nil]; omega)
  | returned => exact Nat.zero_lt_succ _
  | @skipped subscription rest startingAfter canceled hended =>
    cases startingAfter <;> simp only [work, List.length_cons] <;> omega
  | @canceled subscription rest startingAfter canceled pc' hrow hpc' =>
    rcases hpc' with rfl | ⟨e, rfl⟩
    · have hsame := hchange nofun
      cases startingAfter <;> simp only [work, List.length_cons] at hsame ⊢ <;> omega
    · exact hlive

theorem begun_of_move (h : CancelMove s customer pc t pc') : Begun pc' := by
  intro canceled he
  cases h with
  | thrown | listed | next | returned | skipped => cases he
  | canceled _ hpc' => rcases hpc' with rfl | ⟨e, rfl⟩ <;> cases he

theorem isSome_cancelStep (s : Subscriptions) (customer : String) (pc : CancelPc) (o : Outcome Thrown) :
    (cancelStep s customer pc o).isSome = true ↔ 0 < work s customer pc := by
  unfold cancelStep
  split
  · exact ⟨fun _ => Nat.zero_lt_succ _, fun _ => rfl⟩
  · exact ⟨fun _ => Nat.zero_lt_succ _, fun _ => rfl⟩
  · exact ⟨fun _ => Nat.zero_lt_succ _, fun _ => rfl⟩
  · next subscription rest startingAfter canceled =>
    have hwork : 0 < work s customer (.page (subscription :: rest) startingAfter canceled) := by
      cases startingAfter <;> exact Nat.zero_lt_succ _
    refine ⟨fun _ => hwork, fun _ => ?_⟩
    split_ifs
    · rfl
    · split <;> rfl
  · exact ⟨fun h => (by cases h), fun h => absurd h (Nat.lt_irrefl 0)⟩
  · exact ⟨fun h => (by cases h), fun h => absurd h (Nat.lt_irrefl 0)⟩

def takes (i : ℕ) : Label String (Outcome Thrown) SubscriptionEvent → Bool
  | .step j _ => j = i
  | .spawn _ | .crash _ | .env _ => false

/-- The work of a call, which is done when it is gone. -/
def workOf (i : ℕ) (w : CancelWorld) : ℕ :=
  match w.proc? i with
  | none => 0
  | some p => work w.shared p.stripeCustomerId p.pc

def BegunAt (i : ℕ) (w : CancelWorld) : Prop := i < w.fresh ∧ ∀ p, w.proc? i = some p → Begun p.pc

theorem workOf_some {i : ℕ} {p : CancelProc} (h : w.proc? i = some p) :
    workOf i w = work w.shared p.stripeCustomerId p.pc := by
  rw [workOf, h]

theorem workOf_none {i : ℕ} (h : w.proc? i = none) : workOf i w = 0 := by
  rw [workOf, h]

theorem workOf_next {i : ℕ} {l : Label String (Outcome Thrown) SubscriptionEvent}
    (hw : Reachable cancellations.system w) (hbegun : BegunAt i w)
    (hn : cancellations.next w l = some w') :
    BegunAt i w' ∧ workOf i w' + (if takes i l then 1 else 0) ≤ workOf i w := by
  have hok := outline.holds hw
  obtain ⟨hfresh, hcall⟩ := hbegun
  have hle := Nat.lt_of_lt_of_le hfresh (fresh_le_of_next hn)
  -- the call does not move, and the subscriptions change
  have hother {s : Subscriptions} (hchange : Change w.shared s) (hshared : w'.shared = s)
      (hsame : w'.proc? i = w.proc? i) : BegunAt i w' ∧ workOf i w' ≤ workOf i w := by
    refine ⟨⟨hle, fun p hp => hcall p (hsame ▸ hp)⟩, ?_⟩
    refine Nat.le_of_eq ?_
    cases hp : w.proc? i with
    | none => rw [workOf_none (hsame.trans hp), workOf_none hp]
    | some p =>
      rw [workOf_some (hsame.trans hp), workOf_some hp, hshared,
        work_change hchange (hok.proc i p hp) (hcall p hp)]
  cases Program.move_of_next hn with
  | spawn hs =>
    cases hs
    exact hother .same rfl (World.proc?_add_of_ne (Nat.ne_of_lt hfresh))
  | @step j o p p' s hp hs =>
    obtain ⟨hcustomer, hmove⟩ := move_of_step hs
    by_cases hij : j = i
    · subst hij
      have hput : (w.put j s p').proc? j = some p' := World.proc?_put_self hp
      have hpos : 0 < work w.shared p.stripeCustomerId p.pc := by
        obtain ⟨r, hr, -⟩ := Option.map_eq_some_iff.mp hs
        exact (isSome_cancelStep _ _ _ o).mp (Option.isSome_of_eq_some hr)
      refine ⟨⟨hle, fun q hq => ?_⟩, ?_⟩
      · obtain rfl := Option.some.inj (hput.symm.trans hq)
        exact begun_of_move hmove
      · have hless := work_move hmove hok.shared (hok.proc j p hp) hpos
        rw [workOf_some hput, workOf_some hp, World.put_shared, hcustomer]
        have hone : (if takes j (.step j o) then 1 else 0) = 1 := if_pos (decide_eq_true rfl)
        rw [hone]
        exact hless
    · have htakes : takes i (.step j o) = false := decide_eq_false hij
      rw [htakes]
      exact hother hmove.change rfl (World.proc?_put_of_ne (Ne.symm hij))
  | @crash j p hp =>
    by_cases hij : j = i
    · subst hij
      refine ⟨⟨hle, fun q hq => ?_⟩, ?_⟩
      · rw [World.proc?_kill_self] at hq
        cases hq
      · rw [workOf_none World.proc?_kill_self]
        exact Nat.zero_le _
    · exact hother .same rfl (World.proc?_kill_of_ne (Ne.symm hij))
  | env hs => exact hother (change_event hs) rfl rfl

/-- **The loop ends**, though subscriptions may be added all the time. In any run a call that has its
first page takes at most as many steps as its page and what is behind it ask for, and it can take its next
one at any time until then. -/
theorem cancel_ends {f : ℕ → CancelWorld} {l : ℕ → Label String (Outcome Thrown) SubscriptionEvent}
    (h : Reachable cancellations.system (f 0))
    (hrun : ∀ k, cancellations.next (f k) (l k) = some (f (k + 1)))
    {i : ℕ} {p : CancelProc} (hp : (f 0).proc? i = some p) (hbegun : Begun p.pc) (n : ℕ) :
    ((List.range n).filter fun k => takes i (l k)).length ≤
        work (f 0).shared p.stripeCustomerId p.pc ∧
      ∀ q, (f n).proc? i = some q → 0 < work (f n).shared q.stripeCustomerId q.pc → ∀ o,
        (cancellations.next (f n) (.step i o)).isSome = true := by
  have hreach : ∀ k, Reachable cancellations.system (f k) := by
    intro k
    induction k with
    | zero => exact h
    | succ k ih => exact .step (a := l k) ih trivial (hrun k)
  have hstart : BegunAt i (f 0) := by
    refine ⟨World.lt_fresh hp, fun q hq => ?_⟩
    obtain rfl := Option.some.inj (hp.symm.trans hq)
    exact hbegun
  have hcount : BegunAt i (f n) ∧
      ((List.range n).filter fun k => takes i (l k)).length + workOf i (f n) ≤ workOf i (f 0) := by
    induction n with
    | zero => exact ⟨hstart, Nat.le_of_eq (Nat.zero_add _)⟩
    | succ n ih =>
      obtain ⟨hat, hle⟩ := ih
      obtain ⟨hat', hnext⟩ := workOf_next (hreach n) hat (hrun n)
      refine ⟨hat', ?_⟩
      rw [List.range_succ, List.filter_append, List.length_append, List.filter_singleton]
      cases htakes : takes i (l n) with
      | true =>
        rw [htakes] at hnext
        have hnext' : workOf i (f (n + 1)) + 1 ≤ workOf i (f n) := hnext
        show _ + 1 + _ ≤ _
        omega
      | false =>
        rw [htakes] at hnext
        have hnext' : workOf i (f (n + 1)) + 0 ≤ workOf i (f n) := hnext
        show _ + 0 + _ ≤ _
        omega
  refine ⟨?_, fun q hq hpos o => ?_⟩
  · rw [← workOf_some hp]
    omega
  · have hsome : (cancellations.step (f n).shared i q o).isSome = true := by
      show ((cancelStep _ _ _ o).map _).isSome = true
      rw [Option.isSome_map]
      exact (isSome_cancelStep _ _ _ o).mpr hpos
    unfold Program.next
    simp only [hq, Option.isSome_map, hsome]

/-- A subscription with the `n`th id. -/
def numbered (n : ℕ) : Subscription := ⟨String.ofList (List.replicate n 's'), "c1", "active"⟩

/-- The subscriptions that were there, and `n` new ones. -/
def withAdded (s : Subscriptions) : ℕ → Subscriptions
  | 0 => s
  | n + 1 => numbered (n + 3) :: withAdded s n

theorem length_of_withAdded {s : Subscriptions} (hs : ∀ row ∈ s, row.id.length < 3) :
    ∀ {n : ℕ}, ∀ row ∈ withAdded s n, row.id.length < n + 3
  | 0, row, hrow => hs row hrow
  | n + 1, row, hrow => by
    rcases List.mem_cons.mp hrow with rfl | hrow
    · rw [numbered, String.length_ofList, List.length_replicate]
      omega
    · exact Nat.lt_succ_of_lt (length_of_withAdded hs row hrow)

theorem numbered_notMem {s : Subscriptions} (hs : ∀ row ∈ s, row.id.length < 3) (n : ℕ) :
    (numbered (n + 3)).id ∉ (withAdded s n).map (·.id) := by
  intro hmem
  obtain ⟨row, hrow, hid⟩ := List.mem_map.mp hmem
  have hlt := length_of_withAdded hs row hrow
  rw [show row.id = (numbered (n + 3)).id from hid, numbered, String.length_ofList,
    List.length_replicate] at hlt
  exact Nat.lt_irrefl _ hlt

/-- Two subscriptions, of which the first `canceled` have been cancelled. -/
def exampleSubscriptions (canceled : ℕ) : Subscriptions :=
  [{ numbered 2 with status := if 1 ≤ canceled then "canceled" else "active" },
    { numbered 1 with status := if 2 ≤ canceled then "canceled" else "active" }]

/-- A call that cancels the two subscriptions of its page. Another one is added between any two of its
steps, and after the last one. -/
def exampleRun : ℕ → CancelWorld
  | 0 => ⟨withAdded (exampleSubscriptions 0) 0, [some ⟨"c1", .page (exampleSubscriptions 0) none 0⟩]⟩
  | 1 => ⟨withAdded (exampleSubscriptions 0) 1, [some ⟨"c1", .page (exampleSubscriptions 0) none 0⟩]⟩
  | 2 => ⟨withAdded (exampleSubscriptions 1) 1, [some ⟨"c1", .page [numbered 1] none 1⟩]⟩
  | 3 => ⟨withAdded (exampleSubscriptions 1) 2, [some ⟨"c1", .page [numbered 1] none 1⟩]⟩
  | 4 => ⟨withAdded (exampleSubscriptions 2) 2, [some ⟨"c1", .page [] none 2⟩]⟩
  | n + 5 => ⟨withAdded (exampleSubscriptions 2) (n + 2), [some ⟨"c1", .returned 2⟩]⟩

def exampleLabels : ℕ → Label String (Outcome Thrown) SubscriptionEvent
  | 0 => .env (.subscribe (numbered 3))
  | 2 => .env (.subscribe (numbered 4))
  | 1 | 3 | 4 => .step 0 .ok
  | n + 5 => .env (.subscribe (numbered (n + 5)))

theorem exampleRun_next (k : ℕ) :
    cancellations.next (exampleRun k) (exampleLabels k) = some (exampleRun (k + 1)) := by
  match k with
  | 0 | 1 | 2 | 3 | 4 => rfl
  | n + 5 =>
    have hnew : (numbered (n + 5)).id ∉ (withAdded (exampleSubscriptions 2) (n + 2)).map (·.id) :=
      numbered_notMem (by decide) (n + 2)
    have hadded : subscriptionEvent (withAdded (exampleSubscriptions 2) (n + 2))
        (.subscribe (numbered (n + 5))) = some (withAdded (exampleSubscriptions 2) (n + 3)) :=
      if_neg hnew
    show (subscriptionEvent (withAdded (exampleSubscriptions 2) (n + 2))
      (.subscribe (numbered (n + 5)))).map _ = _
    rw [hadded]
    rfl

theorem cancel_ends_example :
    (∀ n, ((List.range n).filter fun k => takes 0 (exampleLabels k)).length ≤ 3) ∧
      ∀ o, (cancellations.next (exampleRun 3) (.step 0 o)).isSome = true := by
  obtain ⟨⟨s, procs⟩, hw, rfl, rfl⟩ := cancellations.exists_reached anyStep
    [.env (.subscribe (numbered 1)), .env (.subscribe (numbered 2)), .spawn "c1", .step 0 .ok]
    (fun w => w.shared = (exampleRun 0).shared ∧ w.procs = (exampleRun 0).procs) (by decide)
  have hends (n : ℕ) := cancel_ends hw exampleRun_next
    (i := 0) (p := ⟨"c1", .page (exampleSubscriptions 0) none 0⟩) rfl nofun n
  exact ⟨fun n => (hends n).1, (hends 3).2 ⟨"c1", .page [numbered 1] none 1⟩ rfl (by decide)⟩

end BackendFoundation.Stripe.CancelAll
