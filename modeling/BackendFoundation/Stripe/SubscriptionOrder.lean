import BackendFoundation.Stripe.WebhookModel
import Mathlib.Data.List.Nodup
import Mathlib.Data.Nat.Basic

/-! # The subscription row and the greatest event

Without a client of Stripe the events of a subscription are projected from their payloads, and an
event writes the row only if it is later than the one that wrote it last. `subscription_order_iff`
says when the row is that of the greatest event in all orders. Three things keep an older event
alive in the row (`Absorbed`):

* the attribution of an event is written before its date is looked at;
* a value that the later event does not give is left as the older one wrote it;
* a row that an older event has soft-deleted is hidden from the update of the later one.

A cancellation that was scheduled and then undone is such a case (`undone_cancellation`). -/

namespace BackendFoundation.Stripe.SubscriptionOrder

open Lib Stripe.Objects Stripe.WebhookModel

variable {EventId : Type*} [LinearOrder EventId] {directory : Directory} {subscriptionId : String}
  {E o : List (StripeWebhookEvent EventId)} {e m : StripeWebhookEvent EventId}
  {rows : BillingRows EventId} {row : StripeSubscription EventId}
  {r : Option (StripeSubscription EventId)} {a : StripeAttribution} {now : ℤ}

/-! ### Events -/

/-- A `customer.subscription.…` event of the subscription. -/
def About (subscriptionId : String) (e : StripeWebhookEvent EventId) : Prop :=
  (∃ name, e.type = .subscription name) ∧ stringValue (e.object.get "id") = some subscriptionId

/-- The order of events: by their dates, then by their ids. -/
def Earlier (e m : StripeWebhookEvent EventId) : Prop :=
  e.stripeCreatedAt < m.stripeCreatedAt ∨
    (e.stripeCreatedAt = m.stripeCreatedAt ∧ e.stripeEventId < m.stripeEventId)

def data (e : StripeWebhookEvent EventId) : SubscriptionData :=
  subscriptionData e.object e.stripeCreatedAt

/-- Nothing of the event `e`, which belongs to `a`, is left in a row that `m` writes later. -/
structure Absorbed (directory : Directory) (e m : StripeWebhookEvent EventId)
    (a : StripeAttribution) : Prop where
  attribution : attributionForStripeObject directory m.object = some a
  live : (data e).deletedAt = none
  priceId : (data m).priceId = none → (data e).priceId = none
  currency : (data m).currency = none → (data e).currency = none
  currentPeriodStart : (data m).currentPeriodStart = none → (data e).currentPeriodStart = none
  currentPeriodEnd : (data m).currentPeriodEnd = none → (data e).currentPeriodEnd = none
  canceledAt : (data m).canceledAt = none → (data e).canceledAt = none

/-! ### The row of one event after the other -/

/-- The row that the first event creates. -/
def created (a : StripeAttribution) (e : StripeWebhookEvent EventId) : StripeSubscription EventId :=
  upsertSubscriptionRow a (data e) (e.cursor false) none

/-- The event may write the row: it can see it, and is later. -/
def Open (row : StripeSubscription EventId) (e : StripeWebhookEvent EventId) : Prop :=
  row.deletedAt = none ∧
    older row.lastStripeEventCreatedAt row.lastStripeEventId (e.cursor false) = true

def owned (a : StripeAttribution) (row : StripeSubscription EventId) : StripeSubscription EventId :=
  { row with userId := a.userId, organizationId := a.organizationId }

/-- The row that the event writes; a column that it does not give stays as it is. -/
def overwritten (row : StripeSubscription EventId) (e : StripeWebhookEvent EventId) :
    StripeSubscription EventId :=
  { row with
    status := (data e).status
    priceId := (data e).priceId <|> row.priceId
    currency := (data e).currency <|> row.currency
    currentPeriodStart := (data e).currentPeriodStart <|> row.currentPeriodStart
    currentPeriodEnd := (data e).currentPeriodEnd <|> row.currentPeriodEnd
    cancelAtPeriodEnd := (data e).cancelAtPeriodEnd
    canceledAt := (data e).canceledAt <|> row.canceledAt
    deletedAt := (data e).deletedAt
    lastStripeEventId := some e.stripeEventId
    lastStripeEventCreatedAt := some e.stripeCreatedAt }

def next (directory : Directory) (r : Option (StripeSubscription EventId))
    (e : StripeWebhookEvent EventId) : Option (StripeSubscription EventId) :=
  match attributionForStripeObject directory e.object with
  | none => r
  | some a =>
    some (updateSubscriptionRow (data e) (e.cursor false)
      (upsertSubscriptionRow a (data e) (e.cursor false) r))

def after (directory : Directory) (r : Option (StripeSubscription EventId))
    (o : List (StripeWebhookEvent EventId)) : Option (StripeSubscription EventId) :=
  o.foldl (next directory) r

theorem after_append (o o' : List (StripeWebhookEvent EventId)) :
    after directory r (o ++ o') = after directory (after directory r o) o' :=
  List.foldl_append

theorem after_cons : after directory r (e :: o) = after directory (next directory r e) o := rfl

def unowned (row : StripeSubscription EventId) : StripeSubscription EventId :=
  { row with userId := "", organizationId := none }

theorem older_cursor :
    older (some e.stripeCreatedAt) (some e.stripeEventId) (m.cursor false) = true ↔ Earlier e m := by
  refine decide_eq_true_iff.trans (or_congr_right (and_congr_right fun _ => ?_))
  exact decide_eq_true_iff

theorem not_earlier_self : ¬ Earlier e e := by
  simp [Earlier]

theorem Earlier.asymm (h : Earlier e m) : ¬ Earlier m e := by
  intro h'
  rcases h with h | ⟨h, hi⟩ <;> rcases h' with h' | ⟨h', hi'⟩
  · omega
  · omega
  · omega
  · exact lt_asymm hi hi'

theorem not_open_of_earlier {row : StripeSubscription EventId} (he : Earlier e m)
    (hc : row.lastStripeEventCreatedAt = some m.stripeCreatedAt)
    (hi : row.lastStripeEventId = some m.stripeEventId) : ¬ Open row e := by
  rintro ⟨-, ho⟩
  rw [hc, hi, older_cursor] at ho
  exact he.asymm ho

theorem updateSubscriptionRow_eq :
    updateSubscriptionRow (data e) (e.cursor false) row = row ∧ ¬ Open row e ∨
      updateSubscriptionRow (data e) (e.cursor false) row = overwritten row e ∧ Open row e := by
  by_cases h : Open row e
  · exact .inr ⟨if_pos ⟨h.1, .inr h.2⟩, h⟩
  · refine .inl ⟨if_neg ?_, h⟩
    rintro ⟨hd, ha | ho⟩
    · cases ha
    · exact h ⟨hd, ho⟩

theorem next_none (ha : attributionForStripeObject directory e.object = some a) :
    next directory none e = some (created a e) := by
  simp only [next, ha]
  rcases @updateSubscriptionRow_eq _ _ e (created a e) with ⟨h, -⟩ | ⟨-, -, ho⟩
  · exact congrArg some h
  · exact absurd (older_cursor.mp ho) not_earlier_self

/-- **What an event does to a row.** It takes the row over for its owner; it writes the other columns
only if it may. -/
theorem next_some (ha : attributionForStripeObject directory e.object = some a) :
    next directory (some row) e = some (owned a row) ∧ ¬ Open row e ∨
      next directory (some row) e = some (overwritten (owned a row) e) ∧ Open row e := by
  simp only [next, ha]
  rcases @updateSubscriptionRow_eq _ _ e (owned a row) with ⟨h, ho⟩ | ⟨h, ho⟩
  · exact .inl ⟨congrArg some h, ho⟩
  · exact .inr ⟨congrArg some h, ho⟩

theorem next_of_unattributed (ha : attributionForStripeObject directory e.object = none) :
    next directory r e = r := by
  simp [next, ha]

theorem next_of_not_open (hf : ¬ Open row e) :
    ∃ row', next directory (some row) e = some row' ∧ unowned row' = unowned row := by
  cases ha : attributionForStripeObject directory e.object with
  | none => exact ⟨row, next_of_unattributed ha, rfl⟩
  | some a =>
    rcases @next_some _ _ _ _ row _ ha with ⟨h, -⟩ | ⟨-, ho⟩
    · exact ⟨owned a row, h, rfl⟩
    · exact absurd ho hf

theorem open_congr {row' : StripeSubscription EventId} (hu : unowned row' = unowned row) :
    Open row' e ↔ Open row e := by
  have hd : row'.deletedAt = row.deletedAt := congrArg (·.deletedAt) hu
  have hi : row'.lastStripeEventId = row.lastStripeEventId := congrArg (·.lastStripeEventId) hu
  have hc : row'.lastStripeEventCreatedAt = row.lastStripeEventCreatedAt :=
    congrArg (·.lastStripeEventCreatedAt) hu
  rw [Open, Open, hd, hi, hc]

theorem after_of_not_open (hf : ∀ e ∈ o, ¬ Open row e) :
    ∃ row', after directory (some row) o = some row' ∧ unowned row' = unowned row := by
  induction o generalizing row with
  | nil => exact ⟨row, rfl, rfl⟩
  | cons e o ih =>
    obtain ⟨row₁, h₁, hu₁⟩ := @next_of_not_open _ _ directory _ _ (hf e List.mem_cons_self)
    obtain ⟨row₂, h₂, hu₂⟩ := ih fun e' he' ho =>
      hf e' (List.mem_cons_of_mem e he') ((open_congr hu₁).mp ho)
    exact ⟨row₂, by rw [after_cons, h₁, h₂], hu₂.trans hu₁⟩

/-! ### Before and after the greatest event -/

/-- The row before the greatest event: that event may write it, and gives a value for every column
that has one. -/
structure Behind (m : StripeWebhookEvent EventId) (row : StripeSubscription EventId) : Prop where
  isOpen : Open row m
  priceId : (data m).priceId = none → row.priceId = none
  currency : (data m).currency = none → row.currency = none
  currentPeriodStart : (data m).currentPeriodStart = none → row.currentPeriodStart = none
  currentPeriodEnd : (data m).currentPeriodEnd = none → row.currentPeriodEnd = none
  canceledAt : (data m).canceledAt = none → row.canceledAt = none

theorem orElse_eq_none {α : Type*} {x y : Option α} (hx : x = none) (hy : y = none) :
    (x <|> y) = none := by
  rw [hx, hy]
  rfl

theorem Absorbed.behind_created (h : Absorbed directory e m a) (he : Earlier e m) :
    Behind m (created a e) where
  isOpen := ⟨h.live, older_cursor.mpr he⟩
  priceId := h.priceId
  currency := h.currency
  currentPeriodStart := h.currentPeriodStart
  currentPeriodEnd := h.currentPeriodEnd
  canceledAt := h.canceledAt

theorem Absorbed.behind_overwritten (h : Absorbed directory e m a) (he : Earlier e m)
    (hb : Behind m row) : Behind m (overwritten row e) where
  isOpen := ⟨h.live, older_cursor.mpr he⟩
  priceId hm := orElse_eq_none (h.priceId hm) (hb.priceId hm)
  currency hm := orElse_eq_none (h.currency hm) (hb.currency hm)
  currentPeriodStart hm := orElse_eq_none (h.currentPeriodStart hm) (hb.currentPeriodStart hm)
  currentPeriodEnd hm := orElse_eq_none (h.currentPeriodEnd hm) (hb.currentPeriodEnd hm)
  canceledAt hm := orElse_eq_none (h.canceledAt hm) (hb.canceledAt hm)

theorem Behind.owned (hb : Behind m row) : Behind m (owned a row) :=
  ⟨hb.isOpen, hb.priceId, hb.currency, hb.currentPeriodStart, hb.currentPeriodEnd, hb.canceledAt⟩

theorem Absorbed.behind_next (h : Absorbed directory e m a) (he : Earlier e m)
    (ha : attributionForStripeObject directory e.object = some a) (hr : ∀ row ∈ r, Behind m row) :
    ∀ row ∈ next directory r e, Behind m row := by
  cases r with
  | none =>
    rw [next_none ha]
    rintro _ ⟨⟩
    exact h.behind_created he
  | some row =>
    have hb : Behind m row := hr row rfl
    rcases @next_some _ _ _ _ row _ ha with ⟨hn, -⟩ | ⟨hn, -⟩ <;> rw [hn] <;> rintro _ ⟨⟩
    · exact hb.owned
    · exact h.behind_overwritten he hb.owned

theorem Behind.overwritten_eq (hb : Behind m row) :
    overwritten (SubscriptionOrder.owned a row) m = created a m := by
  simp only [overwritten, SubscriptionOrder.owned, created, upsertSubscriptionRow,
    orElse_of_none hb.priceId, orElse_of_none hb.currency, orElse_of_none hb.currentPeriodStart,
    orElse_of_none hb.currentPeriodEnd, orElse_of_none hb.canceledAt]
  rfl

theorem next_of_behind (ha : attributionForStripeObject directory m.object = some a)
    (hr : ∀ row ∈ r, Behind m row) : next directory r m = some (created a m) := by
  cases r with
  | none => exact next_none ha
  | some row =>
    have hb : Behind m row := hr row rfl
    rcases @next_some _ _ _ _ row _ ha with ⟨-, ho⟩ | ⟨hn, -⟩
    · exact absurd hb.isOpen ho
    · rw [hn, hb.overwritten_eq]

theorem next_created (he : Earlier e m)
    (ha : ∀ a', attributionForStripeObject directory e.object = some a' → a' = a) :
    next directory (some (created a m)) e = some (created a m) := by
  cases ha' : attributionForStripeObject directory e.object with
  | none => exact next_of_unattributed ha'
  | some a' =>
    cases ha a' ha'
    rcases @next_some _ _ _ _ (created a m) _ ha' with ⟨hn, -⟩ | ⟨-, ho⟩
    · rw [hn]
      rfl
    · exact absurd ho (not_open_of_earlier he rfl rfl)

/-! ### Orders -/

theorem after_of_absorbed (hm : ∀ e ∈ o, Earlier e m)
    (h : ∀ e ∈ o, ∀ a, attributionForStripeObject directory e.object = some a →
      Absorbed directory e m a) (hr : ∀ row ∈ r, Behind m row) :
    ∀ row ∈ after directory r o, Behind m row := by
  induction o generalizing r with
  | nil => exact hr
  | cons e o ih =>
    rw [after_cons]
    refine ih (fun e' he' => hm e' (List.mem_cons_of_mem e he'))
      (fun e' he' => h e' (List.mem_cons_of_mem e he')) ?_
    cases ha : attributionForStripeObject directory e.object with
    | none => rwa [next_of_unattributed ha]
    | some a =>
      exact (h e List.mem_cons_self a ha).behind_next (hm e List.mem_cons_self) ha hr

theorem after_created (hm : ∀ e ∈ o, Earlier e m)
    (h : ∀ e ∈ o, ∀ a', attributionForStripeObject directory e.object = some a' → a' = a) :
    after directory (some (created a m)) o = some (created a m) := by
  induction o with
  | nil => rfl
  | cons e o ih =>
    rw [after_cons, next_created (hm e List.mem_cons_self) (h e List.mem_cons_self)]
    exact ih (fun e' he' => hm e' (List.mem_cons_of_mem e he'))
      fun e' he' => h e' (List.mem_cons_of_mem e he')

theorem after_of_unattributed
    (h : ∀ e ∈ o, attributionForStripeObject directory e.object = none) :
    after directory r o = r := by
  induction o with
  | nil => rfl
  | cons e o ih =>
    rw [after_cons, next_of_unattributed (h e List.mem_cons_self)]
    exact ih fun e' he' => h e' (List.mem_cons_of_mem e he')

/-- The row is that of the greatest event, if nothing of the others is left in it. -/
theorem after_eq_of_absorbed (hmE : m ∈ o) (hnd : o.Nodup) (hm : ∀ e ∈ o, e ≠ m → Earlier e m)
    (h : ∀ e ∈ o, e ≠ m → ∀ a, attributionForStripeObject directory e.object = some a →
      Absorbed directory e m a) : after directory none o = after directory none [m] := by
  obtain ⟨s, t, rfl⟩ := List.append_of_mem hmE
  have hne : ∀ e, e ∈ s ∨ e ∈ t → e ≠ m := by
    rintro e he rfl
    simp only [List.nodup_append, List.nodup_cons] at hnd
    rcases he with he | he
    · exact hnd.2.2 e he e List.mem_cons_self rfl
    · exact hnd.2.1.1 he
  have hs : ∀ e ∈ s, e ∈ s ++ m :: t ∧ e ≠ m := fun e he => ⟨by simp [he], hne e (.inl he)⟩
  have ht : ∀ e ∈ t, e ∈ s ++ m :: t ∧ e ≠ m := fun e he => ⟨by simp [he], hne e (.inr he)⟩
  rw [after_append, after_cons, after_cons]
  cases ha : attributionForStripeObject directory m.object with
  | none =>
    have hn : ∀ e ∈ s ++ m :: t, attributionForStripeObject directory e.object = none := by
      intro e he
      by_cases hem : e = m
      · rw [hem, ha]
      · cases hae : attributionForStripeObject directory e.object with
        | none => rfl
        | some a =>
          have hma := (h e he hem a hae).attribution
          rw [ha] at hma
          cases hma
    rw [after_of_unattributed fun e he => hn e (hs e he).1, next_of_unattributed ha,
      after_of_unattributed fun e he => hn e (ht e he).1]
    rfl
  | some a =>
    have hb := @after_of_absorbed _ _ directory _ _ none
      (fun e he => hm e (hs e he).1 (hs e he).2) (fun e he => h e (hs e he).1 (hs e he).2) (by simp)
    rw [next_of_behind ha hb, next_of_behind ha (by simp),
      after_created (fun e he => hm e (ht e he).1 (ht e he).2)]
    · rfl
    · intro e he a' ha'
      have hma := (h e (ht e he).1 (ht e he).2 a' ha').attribution
      rw [ha] at hma
      exact (Option.some.inj hma).symm

theorem next_owner (ha : attributionForStripeObject directory e.object = some a) :
    ∃ row, next directory r e = some row ∧ row.userId = a.userId ∧
      row.organizationId = a.organizationId := by
  cases r with
  | none => exact ⟨_, next_none ha, rfl, rfl⟩
  | some row =>
    rcases @next_some _ _ _ _ row _ ha with ⟨hn, -⟩ | ⟨hn, -⟩
    · exact ⟨_, hn, rfl, rfl⟩
    · exact ⟨_, hn, rfl, rfl⟩

theorem attribution_of_last (h : after directory none (o ++ [e]) = after directory none [m])
    (ha : attributionForStripeObject directory e.object = some a) :
    attributionForStripeObject directory m.object = some a := by
  obtain ⟨row, hn, hu, hg⟩ := next_owner (r := after directory none o) ha
  have hrow : some row = next directory none m := by
    rw [← hn]
    exact (after_append o [e]).symm.trans h
  cases hma : attributionForStripeObject directory m.object with
  | none =>
    rw [next_of_unattributed hma] at hrow
    cases hrow
  | some a' =>
    rw [next_none hma] at hrow
    cases Option.some.inj hrow
    exact congrArg some (congrArg₂ StripeAttribution.mk hu hg)

theorem live_of_first (h : after directory none (e :: o) = some (created a m))
    (ha : attributionForStripeObject directory e.object = some a)
    (hid : e.stripeEventId ≠ m.stripeEventId) : (data e).deletedAt = none := by
  by_contra hd
  obtain ⟨row, hr, hu⟩ := @after_of_not_open _ _ directory o (created a e)
    fun _ _ ho => hd ho.1
  rw [after_cons, next_none ha, hr] at h
  rw [Option.some.inj h] at hu
  exact hid (Option.some.inj (congrArg (·.lastStripeEventId) hu)).symm

theorem absorbed_of_first (h : after directory none (e :: m :: o) = some (created a m))
    (ha : attributionForStripeObject directory e.object = some a)
    (ham : attributionForStripeObject directory m.object = some a)
    (hlive : (data e).deletedAt = none) (he : Earlier e m) (ho : ∀ x ∈ o, Earlier x m) :
    Absorbed directory e m a := by
  have hm : next directory (some (created a e)) m =
      some (overwritten (owned a (created a e)) m) := by
    rcases @next_some _ _ _ _ (created a e) _ ham with ⟨-, hn⟩ | ⟨hn, -⟩
    · exact absurd ⟨hlive, older_cursor.mpr he⟩ hn
    · exact hn
  obtain ⟨row, hr, hu⟩ := @after_of_not_open _ _ directory o (overwritten (owned a (created a e)) m)
    fun x hx => not_open_of_earlier (ho x hx) rfl rfl
  rw [after_cons, next_none ha, after_cons, hm, hr] at h
  rw [Option.some.inj h] at hu
  have hcol : ∀ {α : Type} {x y : Option α}, x = (x <|> y) → x = none → y = none := by
    rintro α x y h rfl
    simpa using h.symm
  exact
    { attribution := ham
      live := hlive
      priceId := hcol (congrArg (·.priceId) hu)
      currency := hcol (congrArg (·.currency) hu)
      currentPeriodStart := hcol (congrArg (·.currentPeriodStart) hu)
      currentPeriodEnd := hcol (congrArg (·.currentPeriodEnd) hu)
      canceledAt := hcol (congrArg (·.canceledAt) hu) }

/-- If the row is that of the greatest event in all orders, nothing of the others is left in it. -/
theorem absorbed_of_after_eq (hmE : m ∈ E) (hid : (E.map (·.stripeEventId)).Nodup)
    (hm : ∀ e ∈ E, e ≠ m → Earlier e m)
    (h : ∀ o, o.Perm E → after directory none o = after directory none [m]) (he : e ∈ E)
    (hem : e ≠ m) (ha : attributionForStripeObject directory e.object = some a) :
    Absorbed directory e m a := by
  obtain ⟨s, t, rfl⟩ := List.append_of_mem he
  have hlast : after directory none (s ++ t ++ [e]) = after directory none [m] :=
    h _ ((List.perm_append_singleton e (s ++ t)).trans List.perm_middle.symm)
  have ham := attribution_of_last hlast ha
  have hone : after directory none [m] = some (created a m) := next_none ham
  rw [hone] at h
  have hlive : (data e).deletedAt = none := by
    refine live_of_first (h _ List.perm_middle.symm) ha fun hi => hem ?_
    exact List.inj_on_of_nodup_map hid (by simp) hmE hi
  have hmst : m ∈ s ++ t := by
    have hme := List.perm_middle.subset hmE
    exact (List.mem_cons.mp hme).resolve_left (Ne.symm hem)
  obtain ⟨s', t', hst⟩ := List.append_of_mem hmst
  have hperm : (e :: m :: (s' ++ t')).Perm (s ++ e :: t) := by
    refine .trans (.cons e ?_) List.perm_middle.symm
    rw [hst]
    exact List.perm_middle.symm
  have hnd : (e :: m :: (s' ++ t')).Nodup := hperm.nodup_iff.mpr (List.Nodup.of_map _ hid)
  refine absorbed_of_first (h _ hperm) ha ham hlive (hm e he hem) fun x hx => ?_
  refine hm x (hperm.subset (by simp [List.mem_append.mp hx])) ?_
  rintro rfl
  exact (List.nodup_cons.mp (List.nodup_cons.mp hnd).2).1 hx

/-! ### The table -/

theorem subscriptions_processStoredStripeEvent (h : About subscriptionId e) :
    (processStoredStripeEvent directory none now rows e).subscriptions subscriptionId =
      next directory (rows.subscriptions subscriptionId) e := by
  obtain ⟨⟨name, ht⟩, hid⟩ := h
  simp only [processStoredStripeEvent, projectObject, retrieveCurrentStripeObject, ht, next]
  cases attributionForStripeObject directory e.object with
  | none => rfl
  | some a =>
    simp only [projectSubscription, hid, Table.set_self]
    rfl

theorem subscriptions_processStoredStripeEvents
    {processed : List (ℤ × StripeWebhookEvent EventId)}
    (h : ∀ run ∈ processed, About subscriptionId run.2) :
    (processStoredStripeEvents directory none rows processed).subscriptions subscriptionId =
      after directory (rows.subscriptions subscriptionId) (processed.map Prod.snd) := by
  induction processed generalizing rows with
  | nil => rfl
  | cons run processed ih =>
    rw [List.map_cons, after_cons,
      ← @subscriptions_processStoredStripeEvent _ _ _ _ _ _ run.1 (h run List.mem_cons_self)]
    exact ih fun run' hr => h run' (List.mem_cons_of_mem run hr)

/-- **The subscription row and the order of the events.** The events of a subscription are projected
from their payloads, each once, onto a table that has no row for it. The row is the one of the
greatest event in all orders exactly if that event absorbs every other one. -/
theorem subscription_order_iff (hE : ∀ e ∈ E, About subscriptionId e)
    (hid : (E.map (·.stripeEventId)).Nodup) (hmE : m ∈ E) (hm : ∀ e ∈ E, e ≠ m → Earlier e m) :
    (∀ o : List (ℤ × StripeWebhookEvent EventId), (o.map Prod.snd).Perm E →
        (processStoredStripeEvents directory none {} o).subscriptions subscriptionId =
          (processStoredStripeEvent directory none now {} m).subscriptions subscriptionId) ↔
      ∀ e ∈ E, e ≠ m → ∀ a, attributionForStripeObject directory e.object = some a →
        Absorbed directory e m a := by
  have hrow : (processStoredStripeEvent directory none now {} m).subscriptions subscriptionId =
      after directory none [m] := subscriptions_processStoredStripeEvent (hE m hmE)
  have hrows : ∀ o : List (ℤ × StripeWebhookEvent EventId), (o.map Prod.snd).Perm E →
      (processStoredStripeEvents directory none {} o).subscriptions subscriptionId =
        after directory none (o.map Prod.snd) := by
    intro o ho
    exact subscriptions_processStoredStripeEvents fun run hr =>
      hE _ (ho.subset (List.mem_map_of_mem hr))
  rw [hrow]
  constructor
  · intro h e he hem a ha
    refine absorbed_of_after_eq hmE hid hm (fun o ho => ?_) he hem ha
    have hmap : (o.map (Prod.mk (0 : ℤ))).map Prod.snd = o := by simp [Function.comp_def]
    have ht := h (o.map (Prod.mk 0)) (by rwa [hmap])
    rwa [hrows _ (by rwa [hmap]), hmap] at ht
  · intro h o ho
    rw [hrows o ho]
    exact after_eq_of_absorbed (ho.mem_iff.mpr hmE) (ho.nodup_iff.mpr (List.Nodup.of_map _ hid))
      (fun e he => hm e (ho.subset he)) fun e he => h e (ho.subset he)

/-- A payload of `sub_1`. -/
def payload (fields : List (String × StripeValue)) : StripeValue :=
  .object ([("id", .string "sub_1"), ("metadata", .object [("userId", .string "user_1")])] ++ fields)

/-- The cancellation at the end of the period is scheduled. -/
def scheduledEvent : StripeWebhookEvent ℕ :=
  ⟨1, 100, .subscription "updated",
    payload [("status", .string "active"), ("cancel_at_period_end", .bool true),
      ("canceled_at", .number 90)]⟩

def undoneEvent : StripeWebhookEvent ℕ :=
  ⟨2, 200, .subscription "updated",
    payload [("status", .string "active"), ("cancel_at_period_end", .bool false),
      ("canceled_at", .null)]⟩

def createdEvent : StripeWebhookEvent ℕ :=
  ⟨0, 50, .subscription "created", payload [("status", .string "incomplete")]⟩

/-- A creation that is processed after a scheduled cancellation leaves the row of the latter. -/
theorem subscription_order_scheduled :
    (processStoredStripeEvents Directory.empty none {}
        [(100, scheduledEvent), (101, createdEvent)]).subscriptions "sub_1" =
      (processStoredStripeEvent Directory.empty none 0 {} scheduledEvent).subscriptions
        "sub_1" := by
  refine (@subscription_order_iff ℕ _ Directory.empty "sub_1" [createdEvent, scheduledEvent]
    scheduledEvent 0 ?_ (by decide) (by simp) ?_).mpr ?_ _ (List.Perm.swap _ _ _)
  · intro e he
    simp only [List.mem_cons, List.not_mem_nil, or_false] at he
    rcases he with rfl | rfl <;> exact ⟨⟨_, rfl⟩, by decide⟩
  · intro e he hne
    simp only [List.mem_cons, List.not_mem_nil, or_false] at he
    rcases he with rfl | rfl
    · exact .inl (by decide)
    · exact absurd rfl hne
  · intro e he hne a ha
    simp only [List.mem_cons, List.not_mem_nil, or_false] at he
    rcases he with rfl | rfl
    · cases ha
      exact ⟨rfl, by decide, fun _ => by decide, fun _ => by decide, fun _ => by decide,
        fun _ => by decide, fun _ => by decide⟩
    · exact absurd rfl hne

/-- The events in the order in which they happened: the cancellation that was undone is still in the
row. -/
theorem undone_cancellation :
    ¬ ∀ o : List (ℤ × StripeWebhookEvent ℕ), (o.map Prod.snd).Perm [scheduledEvent, undoneEvent] →
      (processStoredStripeEvents Directory.empty none {} o).subscriptions "sub_1" =
        (processStoredStripeEvent Directory.empty none 0 {} undoneEvent).subscriptions "sub_1" := by
  intro h
  have hrow := h [(0, scheduledEvent), (0, undoneEvent)] (.refl _)
  revert hrow
  decide

end BackendFoundation.Stripe.SubscriptionOrder
