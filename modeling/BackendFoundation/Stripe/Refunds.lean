import BackendFoundation.Stripe.RefundModel

/-! # Refunds once, and inside the billing owner

`Steps` lists what a step of `createRefund` can do; `createRefund_steps` says that these are all.

Stripe's idempotency key carries a hash under the active key of the calling process. A retry under
another active key is therefore a new request to Stripe, even where the call has found the operation
under the older hash. `refund_once` excludes this (`SameKey`).

The ownership check accepts a payment of the calling user, whichever owner it was billed to.
`refund_owned` excludes a payment that the user made for another owner (`ForOwner`). -/

namespace BackendFoundation.Stripe.Refunds

open Lib Lib.Runs Lib.Interleave Errors Crypto Stripe.Owner Stripe.RefundModel
open Option (some.inj map_eq_some_iff)

variable {cfg : RefundConfig} {R : Runtime} {K K₀ : Keyring} {s s' : RefundState}
  {w : RefundWorld} {request : RefundRequest} {owner : BillingOwner} {pc pc' : RefundPc}

/-! ### The steps of a call -/

def Ended (pc : RefundPc) : Prop := (∃ result, pc = .returned result) ∨ ∃ e, pc = .thrown e

theorem ended_thrown (e : Thrown) : Ended (.thrown e) := .inr ⟨e, rfl⟩

theorem ended_returned (result : RefundResult) : Ended (.returned result) := .inl ⟨result, rfl⟩

/-- The request of a call to Stripe. -/
def stripeRequest (R : Runtime) (K : Keyring) (s : RefundState) (request : RefundRequest)
    (owner : BillingOwner) (operation : RefundOperation) (amount : ℤ) (status : Option String) :
    Except String (RefundState × Refund) :=
  s.createStripeRefund (refundParams request owner operation amount)
    (refundIdempotencyKey owner (request.idempotencyKeyHash R K))
    ⟨owner, request.businessIdempotencyKey, K.activeKeyId⟩ status

/-- The effects of a step, with the state and the program point it leaves. -/
inductive Steps (R : Runtime) (K : Keyring) (s : RefundState) (request : RefundRequest)
    (owner : BillingOwner) : RefundPc → RefundState → RefundPc → Prop
  | ends {pc pc' : RefundPc} {operations : Table ℕ RefundOperation} {nextOperation : ℕ}
      {audits : List RefundAudit} : Ended pc' →
      Steps R K s request owner pc { s with operations, nextOperation, audits } pc'
  | found {operation : Option RefundOperation} :
      Steps R K s request owner .find s (.customer operation)
  | customer {operation : Option RefundOperation} {customers : Table String String}
      {customerId : String} : customers (billingOwnerKey owner) = some customerId →
      (∀ key id, s.customers key = some id → customers key = some id) →
      Steps R K s request owner (.customer operation) { s with customers }
        (.retrieve operation customerId)
  | retrieved {operation : Option RefundOperation} {customerId : String} {target : RefundTarget} :
      s.retrieve request.input.target = some target →
      Steps R K s request owner (.retrieve operation customerId) s
        (.check operation customerId target)
  | accepted {operation : Option RefundOperation} {customerId : String} {target : RefundTarget}
      {amount : ℤ} {pc' : RefundPc} :
      target.metadata.userId = some request.userId.text ∨ target.customer = some customerId →
      (pc' = .create amount ∨ ∃ operation, pc' = .request operation amount) →
      Steps R K s request owner (.check operation customerId target) s pc'
  | stored {amount : ℤ} {operations : Table ℕ RefundOperation} {nextOperation : ℕ}
      {pc' : RefundPc} :
      (pc' = .reread amount ∨ ∃ operation, pc' = .request operation amount) →
      Steps R K s request owner (.create amount) { s with operations, nextOperation } pc'
  | reread {amount : ℤ} {operation : RefundOperation} :
      Steps R K s request owner (.reread amount) s (.request operation amount)
  | refused {operation : RefundOperation} {amount : ℤ} {e : Thrown} :
      Steps R K s request owner (.request operation amount) s (.fail operation e)
  | requested {operation : RefundOperation} {amount : ℤ} {status : Option String}
      {s' : RefundState} {refund : Refund} {pc' : RefundPc} :
      stripeRequest R K s request owner operation amount status = .ok (s', refund) →
      (pc' = .complete operation refund ∨ ∃ e, pc' = .fail operation e) →
      Steps R K s request owner (.request operation amount) s' pc'

theorem withOperation_cases (R : Runtime) (K : Keyring) (request : RefundRequest)
    (operation : RefundOperation) (next : RefundPc) :
    withOperation R K request operation next = next ∨
      Ended (withOperation R K request operation next) := by
  unfold withOperation
  split
  · exact .inr (ended_thrown _)
  · split
    · exact .inr (ended_returned _)
    · exact .inl rfl

theorem afterFind_steps (found : Option RefundOperation) :
    Steps R K s request owner .find s (afterFind R K request found) := by
  unfold afterFind
  split
  · exact .found
  · next operation =>
    rcases withOperation_cases R K request operation
      (.customer (some operation)) with hnext | hend
    · rw [hnext]
      exact .found
    · exact .ends hend

theorem checkTarget_steps (now : ℕ) (operation : Option RefundOperation) (customerId : String)
    (target : RefundTarget) :
    Steps R K s request owner (.check operation customerId target) s
      (checkTarget cfg R K now request operation customerId target) := by
  unfold checkTarget
  split
  · exact .ends (ended_thrown _)
  · next hgate =>
    have howns : target.metadata.userId = some request.userId.text ∨
        target.customer = some customerId := by
      by_contra hno
      exact hgate (not_or.mp hno)
    simp only []
    split
    · exact .ends (ended_thrown _)
    · exact .accepted howns (.inl rfl)
    · next amount operation _ =>
      rcases withOperation_cases R K request operation
        (.request operation amount) with hnext | hend
      · rw [hnext]
        exact .accepted howns (.inr ⟨operation, rfl⟩)
      · exact .ends hend

theorem insertOperation_eq_some {data : RefundOperation} (h : s.insertOperation data = some s') :
    s' = { s with
      operations := s.operations.set s.nextOperation data
      nextOperation := s.nextOperation + 1 } := by
  unfold RefundState.insertOperation at h
  split_ifs at h
  exact (some.inj h).symm

variable {operation : RefundOperation} {refund : Refund}

theorem completeOperation_eq_some
    (h : completeOperation s request owner operation refund = some s') :
    ∃ operations audits, s' = { s with operations, audits } := by
  unfold completeOperation at h
  simp only [] at h
  split_ifs at h <;> exact ⟨_, _, (some.inj h).symm⟩

/-- A call creates the operation, or reads it again after a conflict. -/
theorem create_steps {amount : ℤ} {c : RefundChoice}
    (h : createRefund cfg R K s request owner (.create amount) c = some (s', pc')) :
    Steps R K s request owner (.create amount) s' pc' := by
  have herror : ∀ (e : DatabaseError) (operations : Table ℕ RefundOperation) (n : ℕ),
      Steps R K s request owner (.create amount)
        { s with operations := operations, nextOperation := n }
        (if e.code = "P2002" then .reread amount else .thrown e.thrown) := by
    intro e operations n
    split_ifs
    · exact .stored (.inl rfl)
    · exact .ends (ended_thrown _)
  simp only [createRefund] at h
  split at h
  · obtain ⟨rfl, ⟨-, rfl⟩ | ⟨e, -, rfl⟩⟩ := Outcome.read_cases (some.inj h)
    · exact .stored (.inl rfl)
    · exact herror e _ _
  · next s₁ hinsert =>
    obtain rfl := insertOperation_eq_some hinsert
    refine Outcome.run_elim (some.inj h) ?_ (fun e => herror e _ _) fun e => herror e _ _
    rcases withOperation_cases R K request
      (newOperation R K request owner s.nextOperation amount)
      (.request (newOperation R K request owner s.nextOperation amount) amount) with hnext | hend
    · rw [hnext]
      exact .stored (.inr ⟨_, rfl⟩)
    · exact .ends hend

/-- **What a step of a refund does.** -/
theorem createRefund_steps {c : RefundChoice}
    (h : createRefund cfg R K s request owner pc c = some (s', pc')) :
    Steps R K s request owner pc s' pc' := by
  -- a statement that only reads, and what its error leads to
  have hread : ∀ {pc₁ : RefundPc}, Steps R K s request owner pc s pc₁ →
      c.outcome.read s pc₁ (fun e => .thrown e.thrown) = (s', pc') →
      Steps R K s request owner pc s' pc' := by
    intro pc₁ hsteps hrun
    obtain ⟨rfl, ⟨-, rfl⟩ | ⟨e, -, rfl⟩⟩ := Outcome.read_cases hrun
    · exact hsteps
    · exact .ends (ended_thrown _)
  cases pc with
  | find =>
    simp only [createRefund] at h
    split at h
    · cases h
    · exact hread (afterFind_steps _) (some.inj h)
  | customer operation =>
    simp only [createRefund] at h
    split at h
    · obtain ⟨rfl, rfl⟩ := pair_inj h
      exact .ends (ended_thrown _)
    · next hid =>
      obtain ⟨rfl, rfl⟩ := pair_inj h
      exact .customer hid fun _ _ hk => hk
    · next hnone =>
      obtain ⟨rfl, rfl⟩ := pair_inj h
      refine .customer Table.set_self fun key id hk => ?_
      rw [Table.set_of_ne, hk]
      rintro rfl
      rw [hnone] at hk
      cases hk
  | retrieve operation customerId =>
    simp only [createRefund] at h
    split at h
    · obtain ⟨rfl, rfl⟩ := pair_inj h
      exact .ends (ended_thrown _)
    · next target htarget =>
      obtain ⟨rfl, ⟨-, rfl⟩ | ⟨e, -, rfl⟩⟩ := Outcome.read_cases (some.inj h)
      · exact .retrieved htarget
      · exact .ends (ended_thrown _)
  | check operation customerId target =>
    obtain ⟨rfl, rfl⟩ := pair_inj h
    exact checkTarget_steps _ _ _ _
  | create amount => exact create_steps h
  | reread amount =>
    simp only [createRefund] at h
    split at h
    · cases h
    · refine hread ?_ (some.inj h)
      split
      · exact .ends (ended_thrown _)
      · next operation _ =>
        rcases withOperation_cases R K request operation
          (.request operation amount) with hnext | hend
        · rw [hnext]
          exact .reread
        · exact .ends hend
  | request operation amount =>
    simp only [createRefund] at h
    split at h
    · obtain ⟨rfl, rfl⟩ := pair_inj h
      exact .refused
    · next s₁ refund hstripe =>
      exact Outcome.run_elim (some.inj h) (.requested hstripe (.inl rfl)) (fun _ => .refused)
        fun e => .requested hstripe (.inr ⟨_, rfl⟩)
  | fail operation error =>
    simp only [createRefund] at h
    refine Outcome.run_elim (some.inj h) (.ends ?_) (fun _ => .ends (ended_thrown _))
      fun _ => .ends (ended_thrown _)
    split_ifs <;> exact ended_thrown _
  | complete operation refund =>
    simp only [createRefund] at h
    split at h
    · obtain ⟨rfl, rfl⟩ := pair_inj h
      exact .ends (ended_thrown _)
    · next s₁ hcomplete =>
      obtain ⟨operations, audits, rfl⟩ := completeOperation_eq_some hcomplete
      exact Outcome.run_elim (some.inj h) (.ends (ended_returned _))
        (fun _ => .ends (ended_thrown _)) fun _ => .ends (ended_thrown _)
  | returned result => cases h
  | thrown e => cases h

/-! ### Requests to Stripe -/

variable {status : Option String}

theorem createStripeRefund_cases {params : RefundCreateParams} {key : String}
    {origin : RefundOrigin} (h : s.createStripeRefund params key origin status = .ok (s', refund)) :
    (s' = s ∧ (s.remembered key).bind s.refunds = some refund) ∨
      ((s.remembered key).bind s.refunds = none ∧ refund.origin = origin ∧
        refund.params = params ∧ refund.idempotencyKey = key ∧
        ∃ chargeId charge, s.charges chargeId = some charge ∧
        s' = { s with
          charges := s.charges.set chargeId
            { charge with amountRefunded := charge.amountRefunded + params.amount }
          refunds := s.refunds.set s.nextRefund refund
          nextRefund := s.nextRefund + 1
          remembered := s.remembered.set key s.nextRefund }) := by
  unfold RefundState.createStripeRefund at h
  split at h
  · next hknown =>
    split_ifs at h
    obtain ⟨rfl, rfl⟩ := Prod.mk.inj (Except.ok.inj h)
    exact .inl ⟨rfl, hknown⟩
  · next hnone =>
    split at h
    · cases h
    · next chargeId _ =>
      split at h
      · cases h
      · next charge hcharge =>
        split_ifs at h
        obtain ⟨rfl, rfl⟩ := Prod.mk.inj (Except.ok.inj h)
        exact .inr ⟨hnone, rfl, rfl, rfl, chargeId, charge, hcharge, rfl⟩

/-! ### At most once -/

def SameOperation (a b : RefundOrigin) : Prop :=
  billingOwnerKey a.owner = billingOwnerKey b.owner ∧
    a.businessIdempotencyKey = b.businessIdempotencyKey

instance (a b : RefundOrigin) : Decidable (SameOperation a b) := by
  unfold SameOperation
  infer_instance

/-- At most one refund for each owner key and business key. -/
def RefundedOnce (s : RefundState) : Prop :=
  ∀ p q refund refund', s.refunds p = some refund → s.refunds q = some refund' →
    SameOperation refund.origin refund'.origin → p = q

/-- The call that the request comes from, as Stripe's books name it. -/
def RefundCall.origin (call : RefundCall) : RefundOrigin :=
  ⟨call.owner, call.request.businessIdempotencyKey, call.keyring.activeKeyId⟩

/-- The refunds of the operation of a call were created under the active key of the call. -/
def UnderKeyOf (s : RefundState) (call : RefundCall) : Prop :=
  ∀ p < s.nextRefund, ∀ refund ∈ s.refunds p,
    SameOperation refund.origin (RefundCall.origin call) →
      refund.origin.keyId = call.keyring.activeKeyId

instance (s : RefundState) (call : RefundCall) : Decidable (UnderKeyOf s call) := by
  unfold UnderKeyOf
  infer_instance

def RefundPc.IsRequest : RefundPc → Prop
  | .request _ _ => True
  | _ => False

instance : DecidablePred RefundPc.IsRequest := fun pc => by
  unfold RefundPc.IsRequest
  split <;> infer_instance

/-- A call that sends its request to Stripe sends it under the active key under which its operation
has been refunded before, if it has. -/
def SameKey (w : RefundWorld) : RefundLabel → Prop
  | .step i _ => ∀ call ∈ w.proc? i, RefundPc.IsRequest call.pc → UnderKeyOf w.shared call
  | _ => True

instance (w : RefundWorld) (l : RefundLabel) : Decidable (SameKey w l) := by
  unfold SameKey
  split <;> infer_instance

/-- The idempotency key of the requests of an origin. -/
def RefundOrigin.idempotencyKey (R : Runtime) (origin : RefundOrigin) : String :=
  refundIdempotencyKey origin.owner (.v1 origin.keyId
    (R.hmac origin.keyId ("refund-operation:" ++ origin.businessIdempotencyKey)))

theorem idempotencyKey_congr {a b : RefundOrigin} (h : SameOperation a b)
    (hkey : a.keyId = b.keyId) :
    RefundOrigin.idempotencyKey R a = RefundOrigin.idempotencyKey R b := by
  obtain ⟨howner, hbusiness⟩ := h
  unfold RefundOrigin.idempotencyKey refundIdempotencyKey
  rw [howner, hbusiness, hkey]

structure BooksOk (R : Runtime) (s : RefundState) : Prop where
  ids : ∀ p refund, s.refunds p = some refund → p < s.nextRefund
  remembered : ∀ p refund, s.refunds p = some refund →
    s.remembered (RefundOrigin.idempotencyKey R refund.origin) = some p
  once : RefundedOnce s

theorem booksOk_congr (h : BooksOk R s) (hrefunds : s'.refunds = s.refunds)
    (hnext : s'.nextRefund = s.nextRefund) (hrem : s'.remembered = s.remembered) :
    BooksOk R s' := by
  obtain ⟨hids, hremembered, honce⟩ := h
  unfold RefundedOnce at honce
  refine ⟨?_, ?_, ?_⟩
  · rwa [hrefunds, hnext]
  · rwa [hrefunds, hrem]
  · unfold RefundedOnce
    rwa [hrefunds]

theorem booksOk_request (h : BooksOk R s) {amount : ℤ}
    (hkey : UnderKeyOf s ⟨request, owner, K, pc⟩)
    (hs : stripeRequest R K s request owner operation amount status = .ok (s', refund)) :
    BooksOk R s' := by
  rcases createStripeRefund_cases hs with ⟨rfl, -⟩ | ⟨hnone, horigin, -, -, _, _, -, rfl⟩
  · exact h
  have hrequest : RefundOrigin.idempotencyKey R refund.origin =
      refundIdempotencyKey owner (request.idempotencyKeyHash R K) := by
    rw [horigin]
    rfl
  -- a refund under the key would be known
  have hfresh : ∀ p old, s.refunds p = some old →
      RefundOrigin.idempotencyKey R old.origin ≠ RefundOrigin.idempotencyKey R refund.origin := by
    intro p old hold he
    rw [← hrequest, ← he, h.remembered p old hold, Option.bind_some, hold] at hnone
    cases hnone
  have hother : ∀ p old, s.refunds p = some old → ¬ SameOperation old.origin refund.origin := by
    intro p old hold hsame
    refine hfresh p old hold (idempotencyKey_congr hsame ?_)
    rw [horigin] at hsame ⊢
    exact hkey p (h.ids p old hold) old hold hsame
  refine ⟨fun p old hold => ?_, fun p old hold => ?_, fun p q a b ha hb hsame => ?_⟩
  · rcases Table.set_eq_some.mp hold with ⟨rfl, -⟩ | ⟨-, hold⟩
    · exact Nat.lt_succ_self _
    · exact Nat.lt_succ_of_lt (h.ids p old hold)
  · rcases Table.set_eq_some.mp hold with ⟨rfl, rfl⟩ | ⟨-, hold⟩
    · rw [hrequest]
      exact Table.set_self
    · rw [← hrequest]
      exact (Table.set_of_ne (hfresh p old hold)).trans (h.remembered p old hold)
  · rcases Table.set_eq_some.mp ha with ⟨rfl, rfl⟩ | ⟨-, ha'⟩ <;>
      rcases Table.set_eq_some.mp hb with ⟨rfl, rfl⟩ | ⟨-, hb'⟩
    · rfl
    · exact absurd ⟨hsame.1.symm, hsame.2.symm⟩ (hother q b hb')
    · exact absurd hsame (hother p a ha')
    · exact h.once p q a b ha' hb' hsame

theorem booksOk_steps (h : BooksOk R s)
    (hkey : RefundPc.IsRequest pc → UnderKeyOf s ⟨request, owner, K, pc⟩)
    (hs : Steps R K s request owner pc s' pc') : BooksOk R s' := by
  cases hs with
  | found | retrieved | accepted | reread | refused => exact h
  | ends | customer | stored => exact booksOk_congr h rfl rfl rfl
  | requested hstripe => exact booksOk_request h (hkey trivial) hstripe

/-- What happens outside the calls. -/
inductive EventStep (s : RefundState) : RefundEvent → RefundState → Prop
  | tick (ms : ℕ) : EventStep s (.tick ms) { s with now := s.now + ms }
  | rotate {keyring : Keyring} (hkeys : ∀ keyId ∈ s.keyring.keyIds, keyId ∈ keyring.keyIds) :
      EventStep s (.rotate keyring) { s with keyring := keyring }
  | charge {id : String} {object : StripeCharge}
      (hsame : ∀ old ∈ s.charges id,
        old.metadata = object.metadata ∧ old.customer = object.customer) :
      EventStep s (.charge id object) { s with charges := s.charges.set id object }
  | intent {id : String} {object : StripeIntent}
      (hsame : ∀ old ∈ s.intents id,
        old.metadata = object.metadata ∧ old.customer = object.customer) :
      EventStep s (.intent id object) { s with intents := s.intents.set id object }

variable {e : RefundEvent}

theorem event_step (hs : event s e = some s') : EventStep s e s' := by
  cases e with
  | tick ms =>
    obtain rfl := some.inj hs
    exact .tick ms
  | rotate keyring =>
    simp only [event] at hs
    split_ifs at hs with hkeys
    obtain rfl := some.inj hs
    exact .rotate hkeys
  | charge id object =>
    simp only [event] at hs
    split_ifs at hs with hsame
    obtain rfl := some.inj hs
    exact .charge hsame
  | intent id object =>
    simp only [event] at hs
    split_ifs at hs with hsame
    obtain rfl := some.inj hs
    exact .intent hsame

theorem event_books (hs : event s e = some s') :
    s'.refunds = s.refunds ∧ s'.nextRefund = s.nextRefund ∧ s'.remembered = s.remembered := by
  cases event_step hs with
  | tick | rotate | charge | intent => exact ⟨rfl, rfl, rfl⟩

def booksOk (R : Runtime) : Assertions RefundState RefundCall where
  shared := BooksOk R
  proc _ _ _ := True

theorem booksOutline : Outline (refunds cfg R K₀) SameKey (booksOk R) where
  init := by
    refine BooksOk.mk (fun p refund hp => ?_) (fun p refund hp => ?_) fun p q a b hp => ?_
    all_goals cases hp
  env w e s h _ hs := by
    obtain ⟨hrefunds, hnext, hrem⟩ := event_books hs
    exact ⟨booksOk_congr h.shared hrefunds hnext hrem, fun _ _ _ => trivial⟩
  spawn w request s p h _ hs := by
    simp only [refunds] at hs
    split at hs
    · cases hs
    · obtain ⟨rfl, rfl⟩ := pair_inj hs
      exact ⟨h.shared, trivial, fun _ _ _ => ⟨trivial, trivial, trivial⟩⟩
  step w i call c s p' h hi hg hs := by
    obtain ⟨pc', hrun, rfl⟩ := map_pair_inj hs
    exact ⟨booksOk_steps h.shared (hg call hi) (createRefund_steps hrun), trivial⟩
  frame _ _ _ _ _ _ _ _ _ _ _ _ _ _ := ⟨trivial, trivial, trivial⟩

/-- A request that creates a refund while its operation has been refunded under another key. -/
theorem request_again (h : BooksOk R s) {call : RefundCall} {amount : ℤ}
    (hkey : ¬ UnderKeyOf s call)
    (hs : stripeRequest R call.keyring s call.request call.owner operation amount status =
      .ok (s', refund)) (hnew : s'.nextRefund ≠ s.nextRefund) : ¬ RefundedOnce s' := by
  rcases createStripeRefund_cases hs with ⟨rfl, -⟩ | ⟨-, horigin, -, -, _, _, -, rfl⟩
  · exact absurd rfl hnew
  intro honce
  refine hkey fun p hp old hold hsame => ?_
  have hne : p ≠ s.nextRefund := Nat.ne_of_lt hp
  have heq := honce p s.nextRefund old refund ((Table.set_of_ne hne).trans hold) Table.set_self
    (horigin ▸ hsame)
  exact absurd heq hne

/-- **At most one refund** for an owner and a business key, in every run in which no call asks
Stripe for a refund of an operation that was refunded under another key; a call that does, and gets
a new refund, refunds twice. -/
theorem refund_once (cfg : RefundConfig) (R : Runtime) (K₀ : Keyring) (w : RefundWorld)
    (h : ReachableBy (refunds cfg R K₀).system SameKey w) :
    RefundedOnce w.shared ∧ ∀ l w', (refunds cfg R K₀).next w l = some w' → ¬ SameKey w l →
      w'.shared.nextRefund ≠ w.shared.nextRefund → ¬ RefundedOnce w'.shared := by
  have hw := booksOutline.holds h
  refine ⟨hw.shared.once, fun l w' hn hkey hnew => ?_⟩
  cases Program.move_of_next hn with
  | spawn | crash => exact absurd trivial hkey
  | env => exact absurd trivial hkey
  | @step i c call call' s hi hs =>
    obtain ⟨pc', hrun, rfl⟩ := map_pair_inj hs
    have hunder : RefundPc.IsRequest call.pc ∧ ¬ UnderKeyOf w.shared call := by
      by_contra hno
      refine hkey fun other hother hreq => ?_
      obtain rfl := some.inj (hi.symm.trans hother)
      by_contra hnot
      exact hno ⟨hreq, hnot⟩
    have hsteps := createRefund_steps hrun
    revert hunder
    generalize call.pc = pc at hsteps
    rintro ⟨hreq, hnot⟩
    cases hsteps with
    | requested hstripe => exact request_again hw.shared hnot hstripe hnew
    | refused | found | retrieved | accepted | reread => exact absurd rfl hnew
    | ends | customer | stored => exact absurd rfl hnew

/-- The refund of a payment of the user. -/
def exampleRefund : RefundRequest where
  userId := exampleUser
  input := { target := .charge "ch_1", amount := some 400 }
  businessIdempotencyKey := "refund-1"

/-- The call loses the answer of Stripe, and a second call finds its operation. -/
theorem refund_once_retried : ∃ w, (∃ refund ∈ w.shared.refunds 0,
    ∃ row ∈ w.shared.operations 0, row.stripeRefundId = some refund.id) ∧
      RefundedOnce w.shared ∧
      ∀ l w', (refunds (exampleRefundConfig .user) exampleRuntime exampleKeyring).next w l =
        some w' → ¬ SameKey w l → w'.shared.nextRefund ≠ w.shared.nextRefund →
          ¬ RefundedOnce w'.shared := by
  obtain ⟨w, hw, hrow⟩ :=
    (refunds (exampleRefundConfig .user) exampleRuntime exampleKeyring).exists_reached SameKey
      [.env (.charge "ch_1" (exampleCharge (.user exampleUser) none)), .spawn exampleRefund,
        .step 0 {}, .step 0 {}, .step 0 {}, .step 0 {}, .step 0 {},
        .step 0 { stripe := .lost "Connection reset" }, .crash 0, .spawn exampleRefund,
        .step 1 {}, .step 1 {}, .step 1 {}, .step 1 {}, .step 1 {}, .step 1 {}]
      (fun w => ∃ refund ∈ w.shared.refunds 0, ∃ row ∈ w.shared.operations 0,
        row.stripeRefundId = some refund.id) (by decide)
  exact ⟨w, hrow, refund_once (exampleRefundConfig .user) exampleRuntime exampleKeyring w hw⟩

/-- The process stops between the call to Stripe and its write; the keyring is rotated before the
retry. -/
theorem refunded_twice_after_rotation : ∃ w,
    Reachable (refunds (exampleRefundConfig .user) exampleRuntime exampleKeyring).system w ∧
      ¬ RefundedOnce w.shared := by
  obtain ⟨w, hw, refund, hp, refund', hq, hsame⟩ :=
    (refunds (exampleRefundConfig .user) exampleRuntime exampleKeyring).exists_reached anyStep
      [.env (.charge "ch_1" (exampleCharge (.user exampleUser) none)), .spawn exampleRefund,
        .step 0 {}, .step 0 {}, .step 0 {}, .step 0 {}, .step 0 {}, .step 0 {}, .crash 0,
        .env (.rotate ⟨["k1", "k2"], "k2", by decide⟩), .spawn exampleRefund,
        .step 1 {}, .step 1 {}, .step 1 {}, .step 1 {}, .step 1 {}, .step 1 {}]
      (fun w => ∃ refund ∈ w.shared.refunds 0, ∃ refund' ∈ w.shared.refunds 1,
        SameOperation refund.origin refund'.origin) (by decide)
  refine ⟨w, hw, fun honce => ?_⟩
  exact absurd (honce 0 1 refund refund' hp hq hsame) (by decide)

/-! ### Inside the billing owner -/

/-- The check of `getCharge`: the metadata of a payment names the owner. -/
def MetadataMatches (owner : BillingOwner) (metadata : BillingMetadata) : Prop :=
  match owner with
  | .organization organizationId _ => metadata.organizationId = some organizationId.text
  | .user userId => metadata.userId = some userId.text ∧ metadata.organizationId = none

instance (owner : BillingOwner) : DecidablePred (MetadataMatches owner) := fun _ =>
  match owner with
  | .organization _ _ => inferInstanceAs (Decidable (_ = _))
  | .user _ => inferInstanceAs (Decidable (_ ∧ _))

/-- The billing owner of the target: its metadata names the owner, or its customer is the owner's. -/
def OwnedBy (s : RefundState) (owner : BillingOwner) (target : RefundTarget) : Prop :=
  MetadataMatches owner target.metadata ∨
    ∃ customerId ∈ target.customer, s.customers (billingOwnerKey owner) = some customerId

instance (s : RefundState) (owner : BillingOwner) : DecidablePred (OwnedBy s owner) := fun _ => by
  unfold OwnedBy
  infer_instance

/-- A payment of the calling user that the call is about to check is one of its billing owner. -/
def ChecksOwn (s : RefundState) (call : RefundCall) : Prop :=
  match call.pc with
  | .check _ _ target =>
    target.metadata.userId = some call.request.userId.text → OwnedBy s call.owner target
  | _ => True

instance (s : RefundState) (call : RefundCall) : Decidable (ChecksOwn s call) := by
  unfold ChecksOwn
  split <;> infer_instance

/-- No call checks a payment that its user made for another owner. -/
def ForOwner (w : RefundWorld) : RefundLabel → Prop
  | .step i _ => ∀ call ∈ w.proc? i, ChecksOwn w.shared call
  | _ => True

instance (w : RefundWorld) (l : RefundLabel) : Decidable (ForOwner w l) := by
  unfold ForOwner
  split <;> infer_instance

/-- The target is there, and it is the owner's. -/
def Owned (s : RefundState) (owner : BillingOwner) (id : TargetId) : Prop :=
  ∃ target, s.retrieve id = some target ∧ OwnedBy s owner target

/-- A call knows its customer, has retrieved its target, and goes on with a target of its owner. -/
def OwnerOk (s : RefundState) (request : RefundRequest) (owner : BillingOwner) :
    RefundPc → Prop
  | .retrieve _ customerId => s.customers (billingOwnerKey owner) = some customerId
  | .check _ customerId target => s.customers (billingOwnerKey owner) = some customerId ∧
    ∃ target', s.retrieve request.input.target = some target' ∧
      target'.metadata = target.metadata ∧ target'.customer = target.customer
  | .create _ | .reread _ | .request _ _ => Owned s owner request.input.target
  | _ => True

/-- Customers and payments stay, with their metadata. -/
structure Keeps (s s' : RefundState) : Prop where
  customers : ∀ key id, s.customers key = some id → s'.customers key = some id
  targets : ∀ id target, s.retrieve id = some target → ∃ target', s'.retrieve id = some target' ∧
    target'.metadata = target.metadata ∧ target'.customer = target.customer

theorem Keeps.refl (s : RefundState) : Keeps s s :=
  ⟨fun _ _ h => h, fun _ target h => ⟨target, h, rfl, rfl⟩⟩

theorem keeps_of_stripe (hcustomers : ∀ key id, s.customers key = some id →
      s'.customers key = some id)
    (hcharges : ∀ id charge, s.charges id = some charge → ∃ charge', s'.charges id = some charge' ∧
      charge'.metadata = charge.metadata ∧ charge'.customer = charge.customer)
    (hintents : ∀ id intent, s.intents id = some intent → ∃ intent', s'.intents id = some intent' ∧
      intent'.metadata = intent.metadata ∧ intent'.customer = intent.customer) : Keeps s s' := by
  refine ⟨hcustomers, fun id target h => ?_⟩
  cases id with
  | paymentIntent id =>
    obtain ⟨intent, hintent, rfl⟩ := map_eq_some_iff.mp h
    obtain ⟨intent', hintent', hmeta, hcust⟩ := hintents id intent hintent
    exact ⟨_, congrArg (Option.map _) hintent', hmeta, hcust⟩
  | charge id =>
    obtain ⟨charge, hcharge, rfl⟩ := map_eq_some_iff.mp h
    obtain ⟨charge', hcharge', hmeta, hcust⟩ := hcharges id charge hcharge
    exact ⟨_, congrArg (Option.map _) hcharge', hmeta, hcust⟩

theorem Owned.keeps {id : TargetId} (h : Owned s owner id) (hk : Keeps s s') :
    Owned s' owner id := by
  obtain ⟨target, htarget, howned⟩ := h
  obtain ⟨target', htarget', hmeta, hcust⟩ := hk.targets id target htarget
  refine ⟨target', htarget', ?_⟩
  unfold OwnedBy
  rw [hmeta, hcust]
  rcases howned with hmatch | ⟨customerId, hid, hcustomer⟩
  · exact .inl hmatch
  · exact .inr ⟨customerId, hid, hk.customers _ _ hcustomer⟩

theorem ownerOk_frame (h : OwnerOk s request owner pc) (hk : Keeps s s') :
    OwnerOk s' request owner pc := by
  cases pc with
  | retrieve operation customerId => exact hk.customers _ _ h
  | check operation customerId target =>
    obtain ⟨hcustomer, target₁, htarget₁, hmeta₁, hcust₁⟩ := h
    obtain ⟨target₂, htarget₂, hmeta₂, hcust₂⟩ := hk.targets _ _ htarget₁
    exact ⟨hk.customers _ _ hcustomer, target₂, htarget₂, hmeta₂.trans hmeta₁,
      hcust₂.trans hcust₁⟩
  | create | reread | request => exact Owned.keeps h hk
  | find | customer | fail | complete | returned | thrown => trivial

theorem createStripeRefund_keeps {params : RefundCreateParams} {key : String}
    {origin : RefundOrigin} (h : s.createStripeRefund params key origin status = .ok (s', refund)) :
    Keeps s s' := by
  rcases createStripeRefund_cases h with ⟨rfl, -⟩ | ⟨-, -, -, -, chargeId, charge, hcharge, rfl⟩
  · exact .refl _
  refine keeps_of_stripe (fun _ _ hk => hk) (fun id old hold => ?_)
    fun _ intent hintent => ⟨intent, hintent, rfl, rfl⟩
  by_cases hid : id = chargeId
  · subst hid
    obtain rfl := some.inj (hcharge.symm.trans hold)
    exact ⟨_, Table.set_self, rfl, rfl⟩
  · exact ⟨old, (Table.set_of_ne hid).trans hold, rfl, rfl⟩

theorem Steps.keeps (h : Steps R K s request owner pc s' pc') : Keeps s s' := by
  cases h with
  | found | retrieved | accepted | reread | refused => exact .refl _
  | ends | stored =>
    exact keeps_of_stripe (fun _ _ h => h) (fun _ charge h => ⟨charge, h, rfl, rfl⟩)
      fun _ intent h => ⟨intent, h, rfl, rfl⟩
  | customer _ hkeep =>
    exact keeps_of_stripe hkeep (fun _ charge h => ⟨charge, h, rfl, rfl⟩)
      fun _ intent h => ⟨intent, h, rfl, rfl⟩
  | requested hstripe => exact createStripeRefund_keeps hstripe

theorem event_keeps (hs : event s e = some s') : Keeps s s' := by
  cases event_step hs with
  | tick | rotate =>
    exact keeps_of_stripe (fun _ _ h => h) (fun _ charge h => ⟨charge, h, rfl, rfl⟩)
      fun _ intent h => ⟨intent, h, rfl, rfl⟩
  | @charge id object hsame =>
    refine keeps_of_stripe (fun _ _ h => h) (fun id' old hold => ?_)
      fun _ intent h => ⟨intent, h, rfl, rfl⟩
    by_cases hid : id' = id
    · subst hid
      obtain ⟨hmeta, hcust⟩ := hsame old hold
      exact ⟨object, Table.set_self, hmeta.symm, hcust.symm⟩
    · exact ⟨old, (Table.set_of_ne hid).trans hold, rfl, rfl⟩
  | @intent id object hsame =>
    refine keeps_of_stripe (fun _ _ h => h) (fun _ charge h => ⟨charge, h, rfl, rfl⟩)
      fun id' old hold => ?_
    by_cases hid : id' = id
    · subst hid
      obtain ⟨hmeta, hcust⟩ := hsame old hold
      exact ⟨object, Table.set_self, hmeta.symm, hcust.symm⟩
    · exact ⟨old, (Table.set_of_ne hid).trans hold, rfl, rfl⟩

/-- What the ownership check lets through, for a payment that is not another owner's. -/
theorem ownerOk_steps (h : OwnerOk s request owner pc)
    (hfor : ∀ operation customerId target, pc = .check operation customerId target →
      target.metadata.userId = some request.userId.text → OwnedBy s owner target)
    (hs : Steps R K s request owner pc s' pc') : OwnerOk s' request owner pc' := by
  have hkeeps := hs.keeps
  cases hs with
  | ends hend =>
    rcases hend with ⟨result, rfl⟩ | ⟨e, rfl⟩
    · trivial
    · trivial
  | found | refused => trivial
  | customer hcustomer => exact hcustomer
  | retrieved htarget => exact ⟨h, _, htarget, rfl, rfl⟩
  | @accepted operation customerId target amount _ hgate hpc =>
    obtain ⟨hcustomer, target', htarget', hmeta, hcust⟩ := h
    have howned : OwnedBy s owner target := by
      rcases hgate with huser | hid
      · exact hfor _ _ _ rfl huser
      · exact .inr ⟨customerId, hid, hcustomer⟩
    have hok : Owned s owner request.input.target := by
      refine ⟨target', htarget', ?_⟩
      unfold OwnedBy
      rwa [hmeta, hcust]
    rcases hpc with rfl | ⟨operation, rfl⟩
    · exact hok
    · exact hok
  | stored hpc =>
    have hok := Owned.keeps h hkeeps
    rcases hpc with rfl | ⟨operation, rfl⟩
    · exact hok
    · exact hok
  | reread => exact h
  | requested _ hpc =>
    rcases hpc with rfl | ⟨e, rfl⟩
    · trivial
    · trivial

/-- The owner of a call is the one that it has resolved. -/
def Resolved (cfg : RefundConfig) (owner : BillingOwner) : Prop :=
  ∃ organizationId userId,
    resolveBillingOwner cfg.billingOwner organizationId userId = .ok owner

/-- Every refund is for a target of the owner that its call has resolved. -/
structure RefundsOwned (cfg : RefundConfig) (s : RefundState) : Prop where
  owned : ∀ p refund, s.refunds p = some refund →
    Owned s refund.origin.owner refund.params.target
  resolved : ∀ p refund, s.refunds p = some refund → Resolved cfg refund.origin.owner

theorem refundsOwned_keeps (h : RefundsOwned cfg s) (hk : Keeps s s')
    (hrefunds : s'.refunds = s.refunds) : RefundsOwned cfg s' := by
  refine ⟨fun p refund hp => ?_, fun p refund hp => ?_⟩
  · exact (h.owned p refund (hrefunds ▸ hp)).keeps hk
  · exact h.resolved p refund (hrefunds ▸ hp)

theorem refundsOwned_steps (h : RefundsOwned cfg s) (hc : OwnerOk s request owner pc)
    (howner : Resolved cfg owner) (hs : Steps R K s request owner pc s' pc') :
    RefundsOwned cfg s' := by
  have hkeeps := hs.keeps
  cases hs with
  | found | retrieved | accepted | reread | refused => exact h
  | ends | customer | stored => exact refundsOwned_keeps h hkeeps rfl
  | requested hstripe =>
    rcases createStripeRefund_cases hstripe with ⟨rfl, -⟩ |
      ⟨-, horigin, hparams, -, _, _, -, rfl⟩
    · exact h
    refine ⟨fun p old hold => ?_, fun p old hold => ?_⟩
    · rcases Table.set_eq_some.mp hold with ⟨rfl, rfl⟩ | ⟨-, hold⟩
      · rw [horigin, hparams]
        exact Owned.keeps hc hkeeps
      · exact (h.owned p old hold).keeps hkeeps
    · rcases Table.set_eq_some.mp hold with ⟨rfl, rfl⟩ | ⟨-, hold⟩
      · rw [horigin]
        exact howner
      · exact h.resolved p old hold

def ownedAssertions (cfg : RefundConfig) : Assertions RefundState RefundCall where
  shared := RefundsOwned cfg
  proc _ call s := OwnerOk s call.request call.owner call.pc ∧ Resolved cfg call.owner

theorem ownedOutline : Outline (refunds cfg R K₀) ForOwner (ownedAssertions cfg) where
  init := by
    refine RefundsOwned.mk (fun p refund hp => ?_) fun p refund hp => ?_
    all_goals cases hp
  env w e s h _ hs := by
    have hkeeps := event_keeps hs
    refine ⟨refundsOwned_keeps h.shared hkeeps (event_books hs).1, fun j q hq => ?_⟩
    obtain ⟨hok, hresolved⟩ := h.proc j q hq
    exact ⟨ownerOk_frame hok hkeeps, hresolved⟩
  spawn w request s p h _ hs := by
    simp only [refunds] at hs
    split at hs
    · cases hs
    · next owner howner =>
      obtain ⟨rfl, rfl⟩ := pair_inj hs
      exact ⟨h.shared, ⟨trivial, _, _, howner⟩, fun j q hq => ⟨h.proc j q hq, trivial, trivial⟩⟩
  step w i call c s p' h hi hg hs := by
    obtain ⟨pc', hrun, rfl⟩ := map_pair_inj hs
    have hsteps := createRefund_steps hrun
    obtain ⟨hok, hresolved⟩ := h.proc i call hi
    refine ⟨refundsOwned_steps h.shared hok hresolved hsteps,
      ownerOk_steps hok (fun operation customerId target hpc => ?_) hsteps, hresolved⟩
    have hcall := hg call hi
    unfold ChecksOwn at hcall
    rw [hpc] at hcall
    exact hcall
  frame w i call c s p' h hi _ hs j q hj hq := by
    obtain ⟨pc', hrun, rfl⟩ := map_pair_inj hs
    obtain ⟨hok, hresolved⟩ := h.proc j q hq
    exact ⟨⟨ownerOk_frame hok (createRefund_steps hrun).keeps, hresolved⟩, trivial, trivial⟩

/-- **Refunds stay inside the billing owner**, in every run in which no call checks a payment that
its user made for another owner. -/
theorem refund_owned (cfg : RefundConfig) (R : Runtime) (K₀ : Keyring)
    (hmode : cfg.billingOwner = .organization) (w : RefundWorld)
    (h : ReachableBy (refunds cfg R K₀).system ForOwner w) (p : ℕ) (refund : Refund)
    (hp : w.shared.refunds p = some refund) : ∃ organizationId userId,
      refund.origin.owner = .organization organizationId userId ∧
      ∃ target, w.shared.retrieve refund.params.target = some target ∧
        (target.metadata.organizationId = some organizationId.text ∨
          ∃ customerId ∈ target.customer,
            w.shared.customers (billingOwnerKey refund.origin.owner) = some customerId) := by
  have hw := (ownedOutline.holds h).shared
  obtain ⟨organizationId, userId, hresolved⟩ := hw.resolved p refund hp
  obtain ⟨target, htarget, howned⟩ := hw.owned p refund hp
  rw [hmode] at hresolved
  cases organizationId with
  | none => cases hresolved
  | some organizationId =>
    have howner := (Except.ok.inj hresolved).symm
    refine ⟨organizationId, userId, howner, target, htarget, ?_⟩
    rcases howned with hmatch | hcustomer
    · rw [howner] at hmatch
      exact .inl hmatch
    · exact .inr hcustomer

def exampleOrganization : OwnerId := ⟨"org-a", by decide⟩

def otherOrganization : OwnerId := ⟨"org-b", by decide⟩

/-- The steps of a call of the user in an organization, for a payment made for `organization-a`. -/
def exampleRefundRun (organizationId : OwnerId) : List RefundLabel :=
  [.env (.charge "ch_1"
      (exampleCharge (.organization exampleOrganization exampleUser) (some "cus_a"))),
    .spawn { exampleRefund with organizationId := some organizationId },
    .step 0 {}, .step 0 {}, .step 0 {}, .step 0 {}, .step 0 {}, .step 0 {}, .step 0 {}]

theorem refund_owned_paid : ∃ (w : RefundWorld) (refund : Refund), w.shared.refunds 0 = some refund ∧
    ∃ organizationId userId, refund.origin.owner = .organization organizationId userId ∧
      ∃ target, w.shared.retrieve refund.params.target = some target ∧
        (target.metadata.organizationId = some organizationId.text ∨
          ∃ customerId ∈ target.customer,
            w.shared.customers (billingOwnerKey refund.origin.owner) = some customerId) := by
  obtain ⟨w, hw, hsome⟩ :=
    (refunds (exampleRefundConfig .organization) exampleRuntime exampleKeyring).exists_reached
      ForOwner (exampleRefundRun exampleOrganization)
      (fun w => (w.shared.refunds 0).isSome) (by decide)
  obtain ⟨refund, hp⟩ := Option.isSome_iff_exists.mp hsome
  exact ⟨w, refund, hp, refund_owned (exampleRefundConfig .organization) exampleRuntime
    exampleKeyring rfl w hw 0 refund hp⟩

/-- The user paid for one organization, and is refunded as a member of another. -/
theorem refunded_for_another_organization : ∃ w,
    Reachable (refunds (exampleRefundConfig .organization) exampleRuntime exampleKeyring).system w ∧
      ∃ refund ∈ w.shared.refunds 0,
        refund.origin.owner = .organization otherOrganization exampleUser ∧
        ∃ target ∈ w.shared.retrieve refund.params.target,
          target.metadata = billingOwnerMetadata (.organization exampleOrganization exampleUser) ∧
          target.metadata.organizationId ≠ some otherOrganization.text ∧
          ∀ customerId ∈ target.customer,
            w.shared.customers (billingOwnerKey refund.origin.owner) ≠ some customerId :=
  (refunds (exampleRefundConfig .organization) exampleRuntime exampleKeyring).exists_reached anyStep
    (exampleRefundRun otherOrganization) _ (by decide)

end BackendFoundation.Stripe.Refunds
