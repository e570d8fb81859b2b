import BackendFoundation.Lib.Registers
import BackendFoundation.Stripe.WebhookModel
import Mathlib.Data.Nat.Basic

/-! # The payment row and the order of its events

Events of an intent, of its checkout session and of its charges are projected onto the one row of
the intent. Each column of the row is a register: an event writes the values that its object gives,
and `payment_order_iff` says that the order of the events does not matter exactly if any two of them
agree on every column that both write.

An intent and its session do not agree on the status: the one has `succeeded`, the other `paid`
(`session_status`). -/

namespace BackendFoundation.Stripe.PaymentOrder

open Lib Lib.Registers Stripe.Objects Stripe.WebhookModel

variable {EventId : Type*}

/-! ### What an event writes -/

@[ext]
structure PaymentColumns where
  status : String
  amount : Option ℤ
  amountRefunded : ℤ
  chargeId : Option String
  checkoutSessionId : Option String
deriving DecidableEq

def columns (payment : StripePayment EventId) : PaymentColumns where
  status := payment.status
  amount := payment.amount
  amountRefunded := payment.amountRefunded
  chargeId := payment.chargeId
  checkoutSessionId := payment.checkoutSessionId

/-- The object that is retrieved for an event. -/
def currentObject (client : StripeClient) (e : StripeWebhookEvent EventId) : StripeValue :=
  (retrieveCurrentStripeObject e.type e.object (some client)).1

/-- A `payment_intent.…`, `checkout.session.completed` or `charge.refunded` event, which names its
object, whose object is, or refers to, the intent. -/
def About (client : StripeClient) (paymentIntentId : String) (e : StripeWebhookEvent EventId) :
    Prop :=
  (stringValue (e.object.get "id")).isSome = true ∧
    ∃ input, paymentInput e.type (currentObject client e) = some input ∧
      input.paymentIntentId = paymentIntentId

/-- What an event writes to the row; nothing if its object belongs to nobody. -/
def written (directory : Directory) (client : StripeClient) (e : StripeWebhookEvent EventId) :
    Option PaymentInput :=
  (attributionForStripeObject directory (currentObject client e)).bind fun _ =>
    paymentInput e.type (currentObject client e)

/-- Two events write the same values, where both write one. -/
structure AgreeOn (input input' : PaymentInput) : Prop where
  status : input.status = input'.status
  amount : ∀ x ∈ input.amount, ∀ y ∈ input'.amount, x = y
  amountRefunded : ∀ x ∈ input.amountRefunded, ∀ y ∈ input'.amountRefunded, x = y
  chargeId : ∀ x ∈ input.chargeId, ∀ y ∈ input'.chargeId, x = y
  checkoutSessionId : ∀ x ∈ input.checkoutSessionId, ∀ y ∈ input'.checkoutSessionId, x = y

/-! ### The columns as registers -/

def blank : PaymentColumns := ⟨"", none, 0, none, none⟩

def PaymentInput.project (input : PaymentInput) (c : PaymentColumns) : PaymentColumns where
  status := input.status
  amount := input.amount <|> c.amount
  amountRefunded := input.amountRefunded.getD c.amountRefunded
  chargeId := input.chargeId <|> c.chargeId
  checkoutSessionId := input.checkoutSessionId <|> c.checkoutSessionId

/-- The columns after one more event. -/
def next (input : Option PaymentInput) (c : Option PaymentColumns) : Option PaymentColumns :=
  input.elim c fun input => some (PaymentInput.project input (c.getD blank))

def after (directory : Directory) (client : StripeClient) (c : Option PaymentColumns)
    (o : List (StripeWebhookEvent EventId)) : Option PaymentColumns :=
  o.foldl (fun c e => next (written directory client e) c) c

variable {directory : Directory} {client : StripeClient} {paymentIntentId : String}
  {E o : List (StripeWebhookEvent EventId)} {e : StripeWebhookEvent EventId}
  {rows : BillingRows EventId} {c : Option PaymentColumns} {now : ℤ}

theorem orElse_eq_getD {α : Type*} (a b : Option α) : (a <|> b) = (a.map some).getD b := by
  cases a <;> rfl

theorem eq_of_isSome_getD {α : Type*} {a b : Option α} (d : α) (hs : a.isSome = b.isSome)
    (hg : a.getD d = b.getD d) : a = b := by
  cases a <;> cases b <;> simp_all

theorem next_isSome (input : Option PaymentInput) :
    (next input c).isSome = (input.isSome || c.isSome) := by
  cases input <;> simp [next]

theorem next_getD (input : Option PaymentInput) :
    (next input c).getD blank =
      { status := (input.map (·.status)).getD (c.getD blank).status
        amount := (input.bind fun i => i.amount.map some).getD (c.getD blank).amount
        amountRefunded := (input.bind (·.amountRefunded)).getD (c.getD blank).amountRefunded
        chargeId := (input.bind fun i => i.chargeId.map some).getD (c.getD blank).chargeId
        checkoutSessionId :=
          (input.bind fun i => i.checkoutSessionId.map some).getD
            (c.getD blank).checkoutSessionId } := by
  cases input with
  | none => rfl
  | some input => simp [next, PaymentInput.project, orElse_eq_getD]

theorem after_isSome (o : List (StripeWebhookEvent EventId)) :
    (after directory client c o).isSome =
      (c.isSome || o.any fun e => (written directory client e).isSome) := by
  induction o using List.reverseRecOn with
  | nil => simp [after]
  | append_singleton o e ih =>
    simp only [after, List.foldl_append, List.foldl_cons, List.foldl_nil, List.any_append,
      List.any_cons, List.any_nil, Bool.or_false] at ih ⊢
    rw [next_isSome, ih, Bool.or_comm, Bool.or_assoc]

/-- Each column after the events is the register of what the events write to it. -/
theorem after_getD (o : List (StripeWebhookEvent EventId)) :
    (after directory client c o).getD blank =
      { status :=
          replay (fun e => (written directory client e).map (·.status)) (c.getD blank).status o
        amount :=
          replay (fun e => (written directory client e).bind fun i => i.amount.map some)
            (c.getD blank).amount o
        amountRefunded :=
          replay (fun e => (written directory client e).bind (·.amountRefunded))
            (c.getD blank).amountRefunded o
        chargeId :=
          replay (fun e => (written directory client e).bind fun i => i.chargeId.map some)
            (c.getD blank).chargeId o
        checkoutSessionId :=
          replay (fun e => (written directory client e).bind fun i => i.checkoutSessionId.map some)
            (c.getD blank).checkoutSessionId o } := by
  induction o using List.reverseRecOn with
  | nil => rfl
  | append_singleton o e ih =>
    have hs : after directory client c (o ++ [e]) =
        next (written directory client e) (after directory client c o) := by
      simp [after]
    simp only [hs, next_getD, ih, replay_append_singleton]

theorem columns_agree_iff :
    (∀ e ∈ E, ∀ e' ∈ E, ∀ i ∈ written directory client e, ∀ i' ∈ written directory client e',
        AgreeOn i i') ↔
      Agree (fun e => (written directory client e).map (·.status)) E ∧
      Agree (fun e => (written directory client e).bind fun i => i.amount.map some) E ∧
      Agree (fun e => (written directory client e).bind (·.amountRefunded)) E ∧
      Agree (fun e => (written directory client e).bind fun i => i.chargeId.map some) E ∧
      Agree (fun e => (written directory client e).bind fun i => i.checkoutSessionId.map some) E := by
  constructor
  · intro h
    refine ⟨agree_map_iff.mpr ?_, agree_bind_map_some_iff.mpr ?_, agree_bind_iff.mpr ?_,
      agree_bind_map_some_iff.mpr ?_, agree_bind_map_some_iff.mpr ?_⟩ <;>
      intro e he e' he' i hi i' hi'
    · exact (h e he e' he' i hi i' hi').status
    · exact (h e he e' he' i hi i' hi').amount
    · exact (h e he e' he' i hi i' hi').amountRefunded
    · exact (h e he e' he' i hi i' hi').chargeId
    · exact (h e he e' he' i hi i' hi').checkoutSessionId
  · rintro ⟨hs, ha, hr, hc, hk⟩ e he e' he' i hi i' hi'
    exact
      { status := agree_map_iff.mp hs e he e' he' i hi i' hi'
        amount := agree_bind_map_some_iff.mp ha e he e' he' i hi i' hi'
        amountRefunded := agree_bind_iff.mp hr e he e' he' i hi i' hi'
        chargeId := agree_bind_map_some_iff.mp hc e he e' he' i hi i' hi'
        checkoutSessionId := agree_bind_map_some_iff.mp hk e he e' he' i hi i' hi' }

theorem after_eq_iff :
    (∀ o₁ o₂, Orders E o₁ → Orders E o₂ →
        after directory client c o₁ = after directory client c o₂) ↔
      ∀ e ∈ E, ∀ e' ∈ E, ∀ i ∈ written directory client e, ∀ i' ∈ written directory client e',
        AgreeOn i i' := by
  rw [columns_agree_iff]
  constructor
  · intro h
    have hg : ∀ o₁ o₂, Orders E o₁ → Orders E o₂ →
        (after directory client c o₁).getD blank = (after directory client c o₂).getD blank :=
      fun o₁ o₂ h₁ h₂ => congrArg (·.getD blank) (h o₁ o₂ h₁ h₂)
    simp only [after_getD, PaymentColumns.mk.injEq] at hg
    refine ⟨?_, ?_, ?_, ?_, ?_⟩
    · exact replay_eq_iff.mp fun o₁ o₂ h₁ h₂ => (hg o₁ o₂ h₁ h₂).1
    · exact replay_eq_iff.mp fun o₁ o₂ h₁ h₂ => (hg o₁ o₂ h₁ h₂).2.1
    · exact replay_eq_iff.mp fun o₁ o₂ h₁ h₂ => (hg o₁ o₂ h₁ h₂).2.2.1
    · exact replay_eq_iff.mp fun o₁ o₂ h₁ h₂ => (hg o₁ o₂ h₁ h₂).2.2.2.1
    · exact replay_eq_iff.mp fun o₁ o₂ h₁ h₂ => (hg o₁ o₂ h₁ h₂).2.2.2.2
  · rintro ⟨hs, ha, hr, hc, hk⟩ o₁ o₂ h₁ h₂
    refine eq_of_isSome_getD blank ?_ ?_
    · rw [after_isSome, after_isSome]
      congr 1
      rw [Bool.eq_iff_iff, List.any_eq_true, List.any_eq_true]
      constructor
      · rintro ⟨e, he, hw⟩
        exact ⟨e, (h₂ e).mpr ((h₁ e).mp he), hw⟩
      · rintro ⟨e, he, hw⟩
        exact ⟨e, (h₁ e).mpr ((h₂ e).mp he), hw⟩
    · rw [after_getD, after_getD, replay_congr hs h₁ h₂, replay_congr ha h₁ h₂,
        replay_congr hr h₁ h₂, replay_congr hc h₁ h₂, replay_congr hk h₁ h₂]

/-! ### The row -/

variable [LinearOrder EventId]

/-- The row that an authoritative projection leaves on a live row, or on none. -/
theorem columns_upsert {attribution : StripeAttribution} {input : PaymentInput}
    {cursor : StripeProjectionCursor EventId} (ha : cursor.authoritative = true)
    {payment : Option (StripePayment EventId)} (hl : ∀ row ∈ payment, row.deletedAt = none) :
    let row := updatePaymentRow input cursor (upsertPaymentRow attribution input cursor payment)
    columns row = PaymentInput.project input ((payment.map columns).getD blank) ∧
      row.deletedAt = none := by
  cases payment with
  | none =>
    constructor
    · simp [updatePaymentRow, upsertPaymentRow, PaymentInput.created, columns,
        PaymentInput.project, blank, ha]
      cases input.amountRefunded <;> rfl
    · simp [updatePaymentRow, upsertPaymentRow, PaymentInput.created, ha]
  | some row =>
    have hd : row.deletedAt = none := hl row rfl
    constructor
    · simp [updatePaymentRow, upsertPaymentRow, columns, PaymentInput.project, ha, hd]
    · simp [updatePaymentRow, upsertPaymentRow, ha, hd]

omit [LinearOrder EventId] in
/-- An event about an intent is projected from the object that Stripe has now. -/
theorem About.authoritative (h : About client paymentIntentId e) :
    (retrieveCurrentStripeObject e.type e.object (some client)).2 = true := by
  obtain ⟨hid, input, hi, -⟩ := h
  obtain ⟨id, hid⟩ := Option.isSome_iff_exists.mp hid
  have hr : e.type.resource ≠ none := by
    intro hr
    unfold paymentInput at hi
    unfold EventType.resource at hr
    split at hi <;> simp_all
  obtain ⟨resource, hr⟩ := Option.ne_none_iff_exists'.mp hr
  simp [retrieveCurrentStripeObject, hid, hr]

theorem payments_processStoredStripeEvent (h : About client paymentIntentId e)
    (hl : ∀ row ∈ rows.payments paymentIntentId, row.deletedAt = none) :
    let rows' := processStoredStripeEvent directory (some client) now rows e
    (rows'.payments paymentIntentId).map columns =
        next (written directory client e) ((rows.payments paymentIntentId).map columns) ∧
      ∀ row ∈ rows'.payments paymentIntentId, row.deletedAt = none := by
  have ha := h.authoritative
  obtain ⟨-, input, hi, rfl⟩ := h
  simp only [processStoredStripeEvent, projectObject, written, currentObject] at hi ⊢
  rw [hi]
  cases attributionForStripeObject directory
      (retrieveCurrentStripeObject e.type e.object (some client)).1 with
  | none => exact ⟨rfl, hl⟩
  | some attribution =>
    have hc := @columns_upsert _ _ attribution input
      (e.cursor (retrieveCurrentStripeObject e.type e.object (some client)).2)
      (by simpa [StripeWebhookEvent.cursor] using ha) _ hl
    constructor
    · simp only [upsertPayment, Table.set_self, Option.map_some, Option.bind_some, next,
        Option.elim_some]
      rw [hc.1]
    · simp only [upsertPayment, Table.set_self, Option.mem_def, Option.some.injEq, forall_eq']
      exact hc.2

theorem payments_processStoredStripeEvents {processed : List (ℤ × StripeWebhookEvent EventId)}
    (h : ∀ run ∈ processed, About client paymentIntentId run.2)
    (hl : ∀ row ∈ rows.payments paymentIntentId, row.deletedAt = none) :
    let rows' := processStoredStripeEvents directory (some client) rows processed
    (rows'.payments paymentIntentId).map columns =
        after directory client ((rows.payments paymentIntentId).map columns)
          (processed.map Prod.snd) ∧
      ∀ row ∈ rows'.payments paymentIntentId, row.deletedAt = none := by
  induction processed using List.reverseRecOn with
  | nil => exact ⟨rfl, hl⟩
  | append_singleton processed run ih =>
    obtain ⟨hc, hd⟩ := ih fun run' hr => h run' (List.mem_append_left _ hr)
    have hs := @payments_processStoredStripeEvent _ directory _ _ _ _ run.1 _ (h run (by simp)) hd
    have ha : ∀ c, after directory client c ((processed ++ [run]).map Prod.snd) =
        next (written directory client run.2) (after directory client c (processed.map Prod.snd)) := by
      intro c
      simp [after]
    simp only [processStoredStripeEvents, List.foldl_append, List.foldl_cons, List.foldl_nil]
      at hc hd hs ⊢
    rw [ha, ← hc]
    exact hs

/-- **The payment row and the order of the events.** Stripe's objects stay as they are while events
about one intent are processed, in any order and each any number of times. The row comes out the
same in all orders exactly if any two of the events agree on every column that both write. The row
that is there before is live, as `payments_live` keeps it. -/
theorem payment_order_iff (hE : ∀ e ∈ E, About client paymentIntentId e)
    (hl : ∀ row ∈ rows.payments paymentIntentId, row.deletedAt = none) :
    (∀ o₁ o₂ : List (ℤ × StripeWebhookEvent EventId),
        Orders E (o₁.map Prod.snd) → Orders E (o₂.map Prod.snd) →
        ((processStoredStripeEvents directory (some client) rows o₁).payments
            paymentIntentId).map columns =
          ((processStoredStripeEvents directory (some client) rows o₂).payments
            paymentIntentId).map columns) ↔
      ∀ e ∈ E, ∀ e' ∈ E, ∀ i ∈ written directory client e, ∀ i' ∈ written directory client e',
        AgreeOn i i' := by
  have hrows : ∀ o : List (ℤ × StripeWebhookEvent EventId), Orders E (o.map Prod.snd) →
      ((processStoredStripeEvents directory (some client) rows o).payments
          paymentIntentId).map columns =
        after directory client ((rows.payments paymentIntentId).map columns) (o.map Prod.snd) := by
    intro o ho
    refine (payments_processStoredStripeEvents (fun run hr => hE _ ?_) hl).1
    exact (ho run.2).mp (List.mem_map_of_mem hr)
  rw [← after_eq_iff (c := (rows.payments paymentIntentId).map columns)]
  constructor
  · intro h o₁ o₂ h₁ h₂
    have hm : ∀ o : List (StripeWebhookEvent EventId), (o.map (Prod.mk (0 : ℤ))).map Prod.snd = o := by
      intro o
      simp [Function.comp_def]
    have ht := h (o₁.map (Prod.mk 0)) (o₂.map (Prod.mk 0)) (by rwa [hm]) (by rwa [hm])
    rwa [hrows _ (by rwa [hm]), hrows _ (by rwa [hm]), hm, hm] at ht
  · intro h o₁ o₂ h₁ h₂
    rw [hrows o₁ h₁, hrows o₂ h₂]
    exact h _ _ h₁ h₂

/-- Stripe with intents that have succeeded and sessions that are paid, of `user_1`. -/
def exampleClient : StripeClient
  | .paymentIntent, id => .object [("id", .string id), ("status", .string "succeeded"),
      ("amount", .number 1000), ("amount_received", .number 1000), ("currency", .string "usd"),
      ("latest_charge", .object [("id", .string "ch_1")]),
      ("metadata", .object [("userId", .string "user_1")])]
  | .checkoutSession, id => .object [("id", .string id), ("status", .string "complete"),
      ("payment_status", .string "paid"), ("amount_total", .number 1000),
      ("currency", .string "usd"), ("payment_intent", .object [("id", .string "pi_1")]),
      ("metadata", .object [("userId", .string "user_1")])]
  | _, id => .object [("id", .string id)]

def createdEvent : StripeWebhookEvent ℕ :=
  ⟨1, 100, .paymentIntent "created", .object [("id", .string "pi_1")]⟩

def succeededEvent : StripeWebhookEvent ℕ :=
  ⟨2, 101, .paymentIntent "succeeded", .object [("id", .string "pi_1")]⟩

def completedEvent : StripeWebhookEvent ℕ :=
  ⟨3, 102, .checkoutSession "completed", .object [("id", .string "cs_1")]⟩

/-- Two events of the intent alone, one of them processed twice, leave the row of the order in which
they happened. -/
theorem payment_order_intent :
    ((processStoredStripeEvents Directory.empty (some exampleClient) {}
        [(101, succeededEvent), (102, createdEvent), (103, succeededEvent)]).payments
          "pi_1").map columns =
      ((processStoredStripeEvents Directory.empty (some exampleClient) {}
        [(100, createdEvent), (101, succeededEvent)]).payments "pi_1").map columns := by
  refine (@payment_order_iff ℕ Directory.empty exampleClient "pi_1" [createdEvent, succeededEvent]
    {} _ ?_ ?_).mpr ?_ _ _ ?_ ?_
  · intro e he
    simp only [List.mem_cons, List.not_mem_nil, or_false] at he
    rcases he with rfl | rfl
    · exact ⟨by decide, _, rfl, by decide⟩
    · exact ⟨by decide, _, rfl, by decide⟩
  · simp
  · intro e he e' he' i hi i' hi'
    have hw : ∀ e ∈ [createdEvent, succeededEvent],
        written Directory.empty exampleClient e =
          written Directory.empty exampleClient createdEvent := by
      intro e he
      simp only [List.mem_cons, List.not_mem_nil, or_false] at he
      rcases he with rfl | rfl <;> rfl
    rw [hw e he] at hi
    rw [hw e' he', hi] at hi'
    cases hi'
    exact ⟨rfl, fun _ hx _ hy => Option.some.inj (hx.symm.trans hy),
      fun _ hx _ hy => Option.some.inj (hx.symm.trans hy),
      fun _ hx _ hy => Option.some.inj (hx.symm.trans hy),
      fun _ hx _ hy => Option.some.inj (hx.symm.trans hy)⟩
  · intro e
    simp only [List.map_cons, List.map_nil, List.mem_cons, List.not_mem_nil, or_false]
    tauto
  · intro e
    simp

/-- The intent has `succeeded`, its session is `paid`, and the row has the status of the event that
was processed last. -/
theorem session_status :
    ¬ ∀ o₁ o₂ : List (ℤ × StripeWebhookEvent ℕ),
      Orders [succeededEvent, completedEvent] (o₁.map Prod.snd) →
      Orders [succeededEvent, completedEvent] (o₂.map Prod.snd) →
      ((processStoredStripeEvents Directory.empty (some exampleClient) {} o₁).payments
          "pi_1").map columns =
        ((processStoredStripeEvents Directory.empty (some exampleClient) {} o₂).payments
          "pi_1").map columns := by
  intro h
  have hc := h [(0, succeededEvent), (0, completedEvent)] [(0, completedEvent), (0, succeededEvent)]
    (by intro e; simp) (by intro e; simp [or_comm])
  revert hc
  decide

end BackendFoundation.Stripe.PaymentOrder
