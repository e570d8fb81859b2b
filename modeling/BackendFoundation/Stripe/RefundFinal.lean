import BackendFoundation.Stripe.Refunds

/-! # Completed refunds

A refund is recorded in an operation that has none yet. A Stripe error is recorded without such a
guard, so that a call that fails late writes `FAILED` over the status of an operation that another
call has completed (`Overwrites`).

Main result: `completed_final`. -/

namespace BackendFoundation.Stripe.RefundFinal

open Lib Lib.Runs Lib.Interleave Errors Crypto Stripe.Owner Stripe.RefundModel Stripe.Refunds
open Option (some.inj map_eq_some_iff)

variable {cfg : RefundConfig} {R : Runtime} {K K₀ : Keyring} {s s' : RefundState}
  {w w' : RefundWorld} {l : RefundLabel} {request : RefundRequest} {owner : BillingOwner}
  {pc pc' : RefundPc} {c : RefundChoice}

/-! ### What a step does to the operations -/

/-- A row with the record of a Stripe error. -/
def failedRow (error : Thrown) (row : RefundOperation) : RefundOperation :=
  { row with status := "FAILED", lastError := some (error.messageOr "Stripe refund failed") }

/-- What a step of a call does to the table of operations. -/
inductive OperationStep (R : Runtime) (K : Keyring) (s : RefundState) (request : RefundRequest)
    (owner : BillingOwner) (pc : RefundPc) (o : Outcome DatabaseError) (s' : RefundState) : Prop
  | same (hoperations : s'.operations = s.operations) (hnext : s'.nextOperation = s.nextOperation)
  | inserted (amount : ℤ)
    (hfree : s.findOperations (fun row => row.ownerKey = billingOwnerKey owner ∧
      row.idempotencyKeyHash = request.idempotencyKeyHash R K) = [])
    (hoperations : s'.operations =
      s.operations.set s.nextOperation (newOperation R K request owner s.nextOperation amount))
    (hnext : s'.nextOperation = s.nextOperation + 1)
  | failed (operation row : RefundOperation) (error : Thrown) (hpc : pc = .fail operation error)
    (ho : o.TakesEffect) (hrow : s.operations operation.id = some row)
    (hvisible : row.VisibleTo owner)
    (hoperations : s'.operations = s.operations.set operation.id (failedRow error row))
    (hnext : s'.nextOperation = s.nextOperation)
  | completed (operation row : RefundOperation) (refund : Refund)
    (hrow : s.operations operation.id = some row) (hnone : row.stripeRefundId = none)
    (hoperations : s'.operations = s.operations.set operation.id (row.completed refund s.now))
    (hnext : s'.nextOperation = s.nextOperation)

theorem insertOperation_cases {data : RefundOperation} (h : s.insertOperation data = some s') :
    s.findOperations (fun row => row.ownerKey = data.ownerKey ∧
      row.idempotencyKeyHash = data.idempotencyKeyHash) = [] := by
  unfold RefundState.insertOperation at h
  split_ifs at h with hfree
  exact hfree

theorem updateOperation_cases (s : RefundState) (id : ℕ) (cond : RefundOperation → Prop)
    [DecidablePred cond] (data : RefundOperation → RefundOperation) :
    (∃ row, s.operations id = some row ∧ cond row ∧ s.updateOperation id cond data =
      ({ s with operations := s.operations.set id (data row) }, 1)) ∨
      s.updateOperation id cond data = (s, 0) := by
  unfold RefundState.updateOperation
  rcases s.operations.updateWhere_cases id cond data with ⟨row, hrow, hcond, he⟩ | ⟨-, he⟩
  · exact .inl ⟨row, hrow, hcond, by rw [he]⟩
  · exact .inr (by rw [he])

variable {o : Outcome DatabaseError}

theorem operationStep_complete {operation : RefundOperation} {refund : Refund}
    (h : completeOperation s request owner operation refund = some s') :
    OperationStep R K s request owner pc o s' := by
  unfold completeOperation at h
  dsimp only at h
  rcases updateOperation_cases s operation.id
    (fun row => row.VisibleTo owner ∧ row.stripeRefundId = none) (·.completed refund s.now) with
    ⟨row, hrow, ⟨-, hnone⟩, he⟩ | he
  · rw [he, if_pos rfl] at h
    split_ifs at h
    cases h
    exact .completed operation row refund hrow hnone rfl rfl
  · rw [he, if_neg Nat.zero_ne_one] at h
    cases h
    exact .same rfl rfl

/-- **What a step of a call does to the operations.** -/
theorem operationStep_of_createRefund
    (h : createRefund cfg R K s request owner pc c = some (s', pc')) :
    OperationStep R K s request owner pc c.outcome s' := by
  cases pc with
  | find | reread amount =>
    simp only [createRefund] at h
    split at h
    · cases h
    · obtain ⟨rfl, -⟩ := Outcome.read_cases (some.inj h)
      exact .same rfl rfl
  | customer operation =>
    simp only [createRefund] at h
    split at h <;> obtain ⟨rfl, -⟩ := pair_inj h <;> exact .same rfl rfl
  | retrieve operation customerId =>
    simp only [createRefund] at h
    split at h
    · obtain ⟨rfl, -⟩ := pair_inj h
      exact .same rfl rfl
    · obtain ⟨rfl, -⟩ := Outcome.read_cases (some.inj h)
      exact .same rfl rfl
  | check operation customerId target =>
    obtain ⟨rfl, -⟩ := pair_inj h
    exact .same rfl rfl
  | create amount =>
    simp only [createRefund] at h
    split at h
    · obtain ⟨rfl, -⟩ := Outcome.read_cases (some.inj h)
      exact .same rfl rfl
    · next s₁ hinsert =>
      have hfree := insertOperation_cases hinsert
      obtain rfl := insertOperation_eq_some hinsert
      rcases Outcome.run_effect (some.inj h) with rfl | ⟨-, rfl⟩
      · exact .same rfl rfl
      · exact .inserted amount hfree rfl rfl
  | request operation amount =>
    simp only [createRefund] at h
    split at h
    · obtain ⟨rfl, -⟩ := pair_inj h
      exact .same rfl rfl
    · next s₁ refund hstripe =>
      have hsame : s₁.operations = s.operations ∧ s₁.nextOperation = s.nextOperation := by
        rcases createStripeRefund_cases hstripe with ⟨rfl, -⟩ | ⟨-, -, -, -, _, _, -, rfl⟩ <;>
          exact ⟨rfl, rfl⟩
      rcases Outcome.run_effect (some.inj h) with rfl | ⟨-, rfl⟩
      · exact .same rfl rfl
      · exact .same hsame.1 hsame.2
  | fail operation error =>
    simp only [createRefund] at h
    rcases Outcome.run_effect (some.inj h) with rfl | ⟨ho, rfl⟩
    · exact .same rfl rfl
    · rcases updateOperation_cases s operation.id (·.VisibleTo owner) (failedRow error) with
        ⟨row, hrow, hvisible, he⟩ | he
      · unfold failedRow at he
        rw [he]
        exact .failed operation row error rfl ho hrow hvisible rfl rfl
      · unfold failedRow at he
        rw [he]
        exact .same rfl rfl
  | complete operation refund =>
    simp only [createRefund] at h
    split at h
    · obtain ⟨rfl, -⟩ := pair_inj h
      exact .same rfl rfl
    · next s₁ hcomplete =>
      rcases Outcome.run_effect (some.inj h) with rfl | ⟨-, rfl⟩
      · exact .same rfl rfl
      · exact operationStep_complete hcomplete
  | returned result => cases h
  | thrown e => cases h

/-! ### Completed operations stay as they are -/

/-- A failure record that is written to an operation that has been completed, with another status. -/
structure Overwrites (w : RefundWorld) (l : RefundLabel) (i : ℕ) (c : RefundChoice)
    (call : RefundCall) (operation row : RefundOperation) (error : Thrown) : Prop where
  label : l = .step i c
  proc : w.proc? i = some call
  pc : call.pc = .fail operation error
  effect : c.outcome.TakesEffect
  found : w.shared.operations operation.id = some row
  visible : row.VisibleTo call.owner
  completed : row.stripeRefundId ≠ none
  status : row.status ≠ "FAILED"

/-- No call that fails finds, at its record of the failure, that the operation has been completed. -/
def Guarded (w : RefundWorld) (l : RefundLabel) : Prop :=
  ∀ i c call operation row error, ¬ Overwrites w l i c call operation row error

/-- What a call returns of an operation. -/
def recorded (row : RefundOperation) : Option ℕ × String × Option ℤ × Option String :=
  (row.stripeRefundId, row.status, row.amount, row.currency)

/-- The owner, the key and the request of an operation. -/
def identity (row : RefundOperation) :
    Option OwnerId × OwnerId × String × MetadataHash × MetadataHash :=
  (row.organizationId, row.userId, row.ownerKey, row.idempotencyKeyHash, row.requestHash)

/-- No completed operation changes. -/
def Final (s s' : RefundState) : Prop :=
  ∀ id row, s.operations id = some row → row.stripeRefundId ≠ none →
    ∃ row', s'.operations id = some row' ∧ recorded row' = recorded row ∧ identity row' = identity row

theorem Final.refl (s : RefundState) : Final s s := fun _ row hrow _ => ⟨row, hrow, rfl, rfl⟩

theorem Final.of_eq (h : s'.operations = s.operations) : Final s s' :=
  fun _ row hrow _ => ⟨row, h ▸ hrow, rfl, rfl⟩

theorem Final.trans {s'' : RefundState} (h : Final s s') (h' : Final s' s'') : Final s s'' := by
  intro id row hrow hdone
  obtain ⟨row', hrow', hrecorded, hidentity⟩ := h id row hrow hdone
  have hdone' : row'.stripeRefundId ≠ none := by
    rw [show row'.stripeRefundId = row.stripeRefundId from congrArg Prod.fst hrecorded]
    exact hdone
  obtain ⟨row'', hrow'', hrecorded', hidentity'⟩ := h' id row' hrow' hdone'
  exact ⟨row'', hrow'', hrecorded'.trans hrecorded, hidentity'.trans hidentity⟩

/-- The rows of the table are numbered below the next number, and no two have one owner and key. -/
structure Keyed (s : RefundState) : Prop where
  lt : ∀ id row, s.operations id = some row → id < s.nextOperation
  unique : ∀ id id' row row', s.operations id = some row → s.operations id' = some row' →
    row.ownerKey = row'.ownerKey → row.idempotencyKeyHash = row'.idempotencyKeyHash → id = id'

theorem mem_findOperations (h : Keyed s) {cond : RefundOperation → Prop} [DecidablePred cond]
    {row : RefundOperation} : row ∈ s.findOperations cond ↔
      ∃ id, s.operations id = some row ∧ cond row := by
  unfold RefundState.findOperations
  rw [List.mem_filterMap]
  constructor
  · rintro ⟨id, -, hrow⟩
    obtain ⟨hget, hcond⟩ := Option.filter_eq_some_iff.mp hrow
    exact ⟨id, hget, of_decide_eq_true hcond⟩
  · rintro ⟨id, hget, hcond⟩
    refine ⟨id, List.mem_range.mpr (h.lt id row hget), ?_⟩
    exact Option.filter_eq_some_iff.mpr ⟨hget, decide_eq_true hcond⟩

theorem Keyed.set (h : Keyed s) {id : ℕ} {row row' : RefundOperation}
    (hrow : s.operations id = some row) (hidentity : identity row' = identity row)
    (hoperations : s'.operations = s.operations.set id row')
    (hnext : s'.nextOperation = s.nextOperation) : Keyed s' := by
  obtain ⟨howner, hhash⟩ : row'.ownerKey = row.ownerKey ∧
      row'.idempotencyKeyHash = row.idempotencyKeyHash := by
    obtain ⟨-, hrest⟩ := Prod.mk.inj hidentity
    obtain ⟨-, hrest⟩ := Prod.mk.inj hrest
    obtain ⟨howner, hrest⟩ := Prod.mk.inj hrest
    exact ⟨howner, (Prod.mk.inj hrest).1⟩
  have hold {id' : ℕ} {row₁ : RefundOperation} (hget : s'.operations id' = some row₁) :
      ∃ row₀, s.operations id' = some row₀ ∧ row₁.ownerKey = row₀.ownerKey ∧
        row₁.idempotencyKeyHash = row₀.idempotencyKeyHash := by
    rw [hoperations] at hget
    rcases Table.set_eq_some.mp hget with ⟨rfl, rfl⟩ | ⟨-, hget⟩
    · exact ⟨row, hrow, howner, hhash⟩
    · exact ⟨row₁, hget, rfl, rfl⟩
  refine ⟨fun id' row₁ hget => ?_, fun id₁ id₂ row₁ row₂ hget₁ hget₂ hkey₁ hhash₁ => ?_⟩
  · obtain ⟨row₀, hget₀, -⟩ := hold hget
    rw [hnext]
    exact h.lt id' row₀ hget₀
  · obtain ⟨a, ha, hakey, hahash⟩ := hold hget₁
    obtain ⟨b, hb, hbkey, hbhash⟩ := hold hget₂
    exact h.unique id₁ id₂ a b ha hb (by rw [← hakey, ← hbkey, hkey₁])
      (by rw [← hahash, ← hbhash, hhash₁])

theorem Keyed.same (h : Keyed s) (hoperations : s'.operations = s.operations)
    (hnext : s'.nextOperation = s.nextOperation) : Keyed s' := by
  refine ⟨fun id row hrow => ?_, fun id id' row row' hrow hrow' => ?_⟩
  · rw [hnext]
    exact h.lt id row (hoperations ▸ hrow)
  · exact h.unique id id' row row' (hoperations ▸ hrow) (hoperations ▸ hrow')

theorem Keyed.step (h : Keyed s) (hstep : OperationStep R K s request owner pc o s') :
    Keyed s' := by
  cases hstep with
  | same hoperations hnext => exact h.same hoperations hnext
  | inserted amount hfree hoperations hnext =>
    have hnew {id : ℕ} {row : RefundOperation} (hrow : s.operations id = some row)
        (hkey : row.ownerKey = billingOwnerKey owner)
        (hhash : row.idempotencyKeyHash = request.idempotencyKeyHash R K) : False := by
      have hmem : row ∈ s.findOperations (fun row => row.ownerKey = billingOwnerKey owner ∧
          row.idempotencyKeyHash = request.idempotencyKeyHash R K) :=
        (mem_findOperations h).mpr ⟨id, hrow, hkey, hhash⟩
      rw [hfree] at hmem
      cases hmem
    refine ⟨fun id row hrow => ?_, fun id id' row row' hrow hrow' hkey hhash => ?_⟩
    · rw [hoperations] at hrow
      rw [hnext]
      rcases Table.set_eq_some.mp hrow with ⟨rfl, -⟩ | ⟨-, hrow⟩
      · omega
      · have hlt := h.lt id row hrow
        omega
    · rw [hoperations] at hrow hrow'
      rcases Table.set_eq_some.mp hrow with ⟨rfl, rfl⟩ | ⟨-, hrow⟩ <;>
        rcases Table.set_eq_some.mp hrow' with ⟨rfl, rfl⟩ | ⟨-, hrow'⟩
      · rfl
      · exact (hnew hrow' hkey.symm hhash.symm).elim
      · exact (hnew hrow hkey hhash).elim
      · exact h.unique id id' row row' hrow hrow' hkey hhash
  | failed operation row error _ _ hrow _ hoperations hnext =>
    have hidentity : identity (failedRow error row) = identity row := rfl
    exact h.set hrow hidentity hoperations hnext
  | completed operation row refund hrow _ hoperations hnext =>
    have hidentity : identity (row.completed refund s.now) = identity row := rfl
    exact h.set hrow hidentity hoperations hnext

theorem event_operations {e : RefundEvent} (h : event s e = some s') :
    s'.operations = s.operations ∧ s'.nextOperation = s.nextOperation := by
  cases event_step h with
  | tick | rotate | charge | intent => exact ⟨rfl, rfl⟩

theorem operation_next (h : (refunds cfg R K₀).next w l = some w') :
    (w'.shared.operations = w.shared.operations ∧
      w'.shared.nextOperation = w.shared.nextOperation) ∨
    ∃ i c call, l = .step i c ∧ w.proc? i = some call ∧
      OperationStep R call.keyring w.shared call.request call.owner call.pc c.outcome w'.shared := by
  cases Program.move_of_next h with
  | spawn hs =>
    simp only [refunds] at hs
    split at hs
    · cases hs
    · obtain ⟨rfl, -⟩ := pair_inj hs
      exact .inl ⟨rfl, rfl⟩
  | @step i c call call' s hi hs =>
    obtain ⟨pc', hrun, rfl⟩ := map_pair_inj hs
    exact .inr ⟨i, c, call, rfl, hi, operationStep_of_createRefund hrun⟩
  | crash _ => exact .inl ⟨rfl, rfl⟩
  | env hs => exact .inl (event_operations hs)

theorem Keyed.init : Keyed { keyring := K₀ } := by
  refine ⟨fun id row hrow => ?_, fun id id' row row' hrow => ?_⟩ <;> cases hrow

theorem keyed (h : Reachable (refunds cfg R K₀).system w) : Keyed w.shared := by
  refine h.invariant (I := fun w => Keyed w.shared) (fun w hw => ?_) fun w w' l hw _ hn => ?_
  · obtain rfl : w = ⟨{ keyring := K₀ }, []⟩ := hw
    exact .init
  · rcases operation_next hn with ⟨hoperations, hnext⟩ | ⟨i, c, call, -, -, hstep⟩
    · exact hw.same hoperations hnext
    · exact hw.step hstep

/-- A row is written that keeps what a call returns, if it has been completed. -/
theorem Final.set {id : ℕ} {row row' : RefundOperation} (hrow : s.operations id = some row)
    (hoperations : s'.operations = s.operations.set id row')
    (hkeeps : row.stripeRefundId ≠ none → recorded row' = recorded row)
    (hidentity : identity row' = identity row) : Final s s' := by
  intro id' row₀ hrow₀ hdone
  rw [hoperations]
  by_cases hid : id' = id
  · subst hid
    obtain rfl := some.inj (hrow.symm.trans hrow₀)
    exact ⟨row', Table.set_self, hkeeps hdone, hidentity⟩
  · exact ⟨row₀, (Table.set_of_ne hid).trans hrow₀, rfl, rfl⟩

theorem fail_effect {operation row : RefundOperation} {error : Thrown}
    (h : createRefund cfg R K s request owner (.fail operation error) c = some (s', pc'))
    (heffect : c.outcome.TakesEffect) (hrow : s.operations operation.id = some row)
    (hvisible : row.VisibleTo owner) :
    s'.operations = s.operations.set operation.id (failedRow error row) := by
  simp only [createRefund] at h
  have hfailed : (s.updateOperation operation.id (·.VisibleTo owner) (failedRow error)).1.operations =
      s.operations.set operation.id (failedRow error row) := by
    unfold RefundState.updateOperation Table.updateWhere
    rw [hrow]
    simp only [hvisible, if_true]
  rcases Outcome.run_cases (some.inj h) with ⟨-, rfl, -⟩ | ⟨e, ho, -, -⟩ | ⟨e, -, rfl, -⟩
  · exact hfailed
  · rw [ho] at heffect
    cases heffect
  · exact hfailed

/-- **A step changes a completed operation exactly if it overwrites one.** -/
theorem final_iff (hkeyed : Keyed w.shared) (hn : (refunds cfg R K₀).next w l = some w') :
    Final w.shared w'.shared ↔ Guarded w l := by
  constructor
  · rintro hfinal i c call operation row error
      ⟨rfl, hproc, hpc, heffect, hrow, hvisible, hdone, hstatus⟩
    cases Program.move_of_next hn with
    | @step _ _ call' call'' s hi hs =>
      obtain rfl := some.inj (hproc.symm.trans hi)
      obtain ⟨pc', hrun, rfl⟩ := map_pair_inj hs
      rw [hpc] at hrun
      obtain ⟨row', hrow', hrecorded, -⟩ := hfinal _ row hrow hdone
      rw [World.put_shared, fail_effect hrun heffect hrow hvisible, Table.set_self] at hrow'
      obtain rfl := some.inj hrow'
      exact hstatus (Prod.mk.inj (Prod.mk.inj hrecorded).2).1.symm
  · intro hguarded
    rcases operation_next hn with ⟨hoperations, -⟩ | ⟨i, c, call, hl, hproc, hstep⟩
    · exact .of_eq hoperations
    cases hstep with
    | same hoperations _ => exact .of_eq hoperations
    | inserted amount _ hoperations _ =>
      intro id row hrow _
      have hlt := hkeyed.lt id row hrow
      rw [hoperations]
      exact ⟨row, (Table.set_of_ne (by omega)).trans hrow, rfl, rfl⟩
    | failed operation row error hpc ho hrow hvisible hoperations _ =>
      refine .set hrow hoperations (fun hdone => ?_) rfl
      by_contra hchanged
      refine hguarded i c call operation row error ⟨hl, hproc, hpc, ho, hrow, hvisible, hdone, ?_⟩
      intro hstatus
      refine hchanged ?_
      unfold recorded failedRow
      rw [hstatus]
    | completed operation row refund hrow hnone hoperations _ =>
      exact .set hrow hoperations (fun hdone => absurd hnone hdone) rfl

theorem final_path (h : Reachable (refunds cfg R K₀).system w)
    (p : Path (refunds cfg R K₀).system Guarded w w') : Final w.shared w'.shared := by
  induction p with
  | refl => exact .refl _
  | step p hg hn ih =>
    have hreach := h.path (p.mono fun _ _ _ => trivial)
    exact ih.trans ((final_iff (keyed hreach) hn).mpr hg)

/-! ### Later calls -/

/-- The deployment keeps its keyring. -/
def NotRotated (_ : RefundWorld) (l : RefundLabel) : Prop := ∀ keyring, l ≠ .env (.rotate keyring)

/-- The row is one that a call under the keyring `K` has created. -/
structure RowOf (K : Keyring) (row : RefundOperation) : Prop where
  hash : ∃ digest, row.idempotencyKeyHash = .v1 K.activeKeyId digest
  owner : ∀ owner, billingOwnerKey owner = row.ownerKey → row.VisibleTo owner

theorem parts_of_key {a b : BillingOwner} (h : billingOwnerKey a = billingOwnerKey b) :
    a.parts = b.parts := by
  have hlist := congrArg String.toList h
  rw [billingOwnerKey_toList, billingOwnerKey_toList] at hlist
  obtain ⟨hkind, hid⟩ := append_colon_inj a.kind_noColon b.kind_noColon hlist
  have htext : a.parts.2.text = b.parts.2.text := String.toList_injective hid
  refine Prod.ext (String.toList_injective hkind) ?_
  cases ha : a.parts.2
  cases hb : b.parts.2
  rw [ha, hb] at htext
  cases htext
  rfl

theorem rowOf_new {amount : ℤ} {id : ℕ} : RowOf K (newOperation R K request owner id amount) := by
  refine ⟨⟨_, rfl⟩, fun owner' hkey => ?_⟩
  have hparts := parts_of_key hkey
  unfold RefundOperation.VisibleTo newOperation
  cases owner' with
  | organization organizationId userId =>
    cases owner with
    | organization organizationId' userId' =>
      rw [(Prod.mk.inj hparts).2]
    | user userId' => exact absurd (Prod.mk.inj hparts).1 (by decide)
  | user userId =>
    cases owner with
    | organization organizationId' userId' => exact absurd (Prod.mk.inj hparts).1 (by decide)
    | user userId' => exact ⟨(Prod.mk.inj hparts).2.symm, rfl⟩

theorem RowOf.identity {row row' : RefundOperation} (h : RowOf K row)
    (hidentity : identity row' = identity row) : RowOf K row' := by
  obtain ⟨horganization, hrest⟩ := Prod.mk.inj hidentity
  obtain ⟨huser, hrest⟩ := Prod.mk.inj hrest
  obtain ⟨hkey, hrest⟩ := Prod.mk.inj hrest
  refine ⟨(Prod.mk.inj hrest).1 ▸ h.hash, fun owner howner => ?_⟩
  have hvisible := h.owner owner (howner.trans hkey)
  unfold RefundOperation.VisibleTo at *
  rwa [horganization, huser]

/-- The keyring of the deployment, of its calls and of its rows is `K`. -/
structure Under (K : Keyring) (w : RefundWorld) : Prop where
  keyring : w.shared.keyring = K
  calls : ∀ i call, w.proc? i = some call → call.keyring = K
  rows : ∀ id row, w.shared.operations id = some row → RowOf K row

theorem steps_keyring (h : Steps R K s request owner pc s' pc') : s'.keyring = s.keyring := by
  cases h with
  | requested hstripe _ =>
    rcases createStripeRefund_cases hstripe with ⟨rfl, -⟩ | ⟨-, -, -, -, _, _, -, rfl⟩ <;> rfl
  | ends | found | customer | retrieved | accepted | stored | reread | refused => rfl

theorem rows_step (h : ∀ id row, s.operations id = some row → RowOf K row)
    (hstep : OperationStep R K s request owner pc o s') :
    ∀ id row, s'.operations id = some row → RowOf K row := by
  intro id row hrow
  cases hstep with
  | same hoperations _ => exact h id row (hoperations ▸ hrow)
  | inserted amount _ hoperations _ =>
    rw [hoperations] at hrow
    rcases Table.set_eq_some.mp hrow with ⟨-, rfl⟩ | ⟨-, hrow⟩
    · exact rowOf_new
    · exact h id row hrow
  | failed operation row₀ error _ _ hrow₀ _ hoperations _ =>
    rw [hoperations] at hrow
    rcases Table.set_eq_some.mp hrow with ⟨-, rfl⟩ | ⟨-, hrow⟩
    · exact (h _ row₀ hrow₀).identity rfl
    · exact h id row hrow
  | completed operation row₀ refund hrow₀ _ hoperations _ =>
    rw [hoperations] at hrow
    rcases Table.set_eq_some.mp hrow with ⟨-, rfl⟩ | ⟨-, hrow⟩
    · exact (h _ row₀ hrow₀).identity rfl
    · exact h id row hrow

theorem Under.next (h : Under K₀ w) (hl : NotRotated w l)
    (hn : (refunds cfg R K₀).next w l = some w') : Under K₀ w' := by
  have hrows : ∀ id row, w'.shared.operations id = some row → RowOf K₀ row := by
    rcases operation_next hn with ⟨hoperations, -⟩ | ⟨i, c, call, -, hproc, hstep⟩
    · intro id row hrow
      exact h.rows id row (hoperations ▸ hrow)
    · rw [h.calls i call hproc] at hstep
      exact rows_step h.rows hstep
  cases Program.move_of_next hn with
  | spawn hs =>
    simp only [refunds] at hs
    split at hs
    · cases hs
    · obtain ⟨rfl, rfl⟩ := pair_inj hs
      refine ⟨h.keyring, fun i call hi => ?_, hrows⟩
      rcases World.proc?_add_cases hi with ⟨-, rfl⟩ | ⟨-, hi⟩
      · exact h.keyring
      · exact h.calls i call hi
  | @step i c call call' s hi hs =>
    obtain ⟨pc', hrun, rfl⟩ := map_pair_inj hs
    refine ⟨(steps_keyring (createRefund_steps hrun)).trans h.keyring, fun j call' hj => ?_, hrows⟩
    rcases World.proc?_put_cases hi hj with ⟨rfl, rfl⟩ | ⟨-, hj⟩
    · exact h.calls _ call hi
    · exact h.calls j call' hj
  | crash hi =>
    exact ⟨h.keyring, fun j call hj => h.calls j call (World.proc?_kill_cases hj).2, hrows⟩
  | @env e s hs =>
    refine ⟨?_, h.calls, hrows⟩
    cases event_step hs with
    | tick | charge | intent => exact h.keyring
    | @rotate keyring => exact absurd rfl (hl keyring)

theorem under (h : ReachableBy (refunds cfg R K₀).system NotRotated w) : Under K₀ w := by
  refine h.invariant (fun w hw => ?_) fun w w' l hw hl hn => hw.next hl hn
  obtain rfl : w = ⟨{ keyring := K₀ }, []⟩ := hw
  refine ⟨rfl, fun i call hi => ?_, fun id row hrow => ?_⟩
  · simp [World.proc?] at hi
  · cases hrow

/-- A call for the owner, the key and the request of an operation. -/
structure Matches (R : Runtime) (K : Keyring) (call : RefundCall) (row : RefundOperation) : Prop where
  owner : billingOwnerKey call.owner = row.ownerKey
  key : call.request.idempotencyKeyHash R K = row.idempotencyKeyHash
  request : hashMetadata R K call.request.requestInput = row.requestHash

variable {call : RefundCall}

theorem Matches.identity {row row' : RefundOperation} (h : Matches R K call row)
    (hidentity : identity row' = identity row) : Matches R K call row' := by
  obtain ⟨-, hidentity⟩ := Prod.mk.inj hidentity
  obtain ⟨-, hidentity⟩ := Prod.mk.inj hidentity
  obtain ⟨hkey, hidentity⟩ := Prod.mk.inj hidentity
  obtain ⟨hhash, hrequest⟩ := Prod.mk.inj hidentity
  exact ⟨h.owner.trans hkey.symm, h.key.trans hhash.symm, h.request.trans hrequest.symm⟩

/-- Where the read of a completed operation leads: to what is recorded, if it is answered. -/
def replayed (row : RefundOperation) (refundId : ℕ) : Outcome DatabaseError → RefundPc
  | .ok => .returned (row.result refundId)
  | .failed e | .lost e => .thrown e.thrown

/-- Call `j` replays the operation: it reads once, if it has not yet, and the answer alone decides
between what is recorded and the error of the read. -/
structure Replays (cfg : RefundConfig) (R : Runtime) (K : Keyring) (row : RefundOperation)
    (refundId : ℕ) (w : RefundWorld) (j : ℕ) (call : RefundCall) : Prop where
  pc : call.pc = .find ∨ ∃ o, call.pc = replayed row refundId o
  returns : call.pc = .find → ∃ w' call', (refunds cfg R K).next w (.step j {}) = some w' ∧
    w'.proc? j = some call' ∧ call'.pc = .returned (row.result refundId)
  read : ∀ c w', (refunds cfg R K).next w (.step j c) = some w' →
    call.pc = .find ∧ w'.proc? j = some { call with pc := replayed row refundId c.outcome }

theorem find_completed {id : ℕ} {row : RefundOperation} {pick : ℕ}
    {found : Option RefundOperation} (hunder : Under K₀ w) (hkeyed : Keyed w.shared)
    (hrow : w.shared.operations id = some row) (hmatches : Matches R K₀ call row)
    (h : w.shared.findFirst (fun op => op.ownerKey = billingOwnerKey call.owner ∧
      op.VisibleTo call.owner ∧
      op.idempotencyKeyHash ∈ candidateMetadataHashes R K₀ call.request.idempotencyInput) pick =
      some found) : found = some row := by
  have hmem : row ∈ w.shared.findOperations (fun op => op.ownerKey = billingOwnerKey call.owner ∧
      op.VisibleTo call.owner ∧
      op.idempotencyKeyHash ∈ candidateMetadataHashes R K₀ call.request.idempotencyInput) := by
    refine (mem_findOperations hkeyed).mpr ⟨id, hrow, hmatches.owner.symm,
      (hunder.rows id row hrow).owner _ hmatches.owner, ?_⟩
    rw [← hmatches.key]
    exact hashMetadata_mem_candidates R K₀ K₀.active_mem _
  unfold RefundState.findFirst at h
  split at h
  · next hnil =>
    rw [hnil] at hmem
    cases hmem
  · obtain ⟨op, hop, rfl⟩ := map_eq_some_iff.mp h
    obtain ⟨id', hop', hkey, -, hhash⟩ := (mem_findOperations hkeyed).mp (List.mem_of_getElem? hop)
    obtain ⟨digest, hdigest⟩ := (hunder.rows id' op hop').hash
    -- the row has the hash of the call, for the active key is the only one that rows carry
    have hsame : op.idempotencyKeyHash = row.idempotencyKeyHash := by
      rw [hdigest] at hhash ⊢
      rw [← hmatches.key]
      rcases (mem_candidateMetadataHashes R K₀).mp hhash with ⟨keyId, -, he⟩ | he
      · obtain ⟨rfl, rfl⟩ := MetadataHash.v1.inj he
        rfl
      · cases he
    obtain rfl := hkeyed.unique id' id op row hop' hrow (hkey.trans hmatches.owner) hsame
    exact congrArg some (some.inj (hop'.symm.trans hrow))

/-- The operation is recorded as it was, and the calls from `start` on replay it. -/
structure Later (R : Runtime) (K : Keyring) (start id : ℕ) (row : RefundOperation) (refundId : ℕ)
    (w : RefundWorld) : Prop where
  fresh : start ≤ w.fresh
  current : ∃ row', w.shared.operations id = some row' ∧ recorded row' = recorded row ∧
    identity row' = identity row
  calls : ∀ j call, start ≤ j → w.proc? j = some call → Matches R K call row →
    call.pc = .find ∨ ∃ o, call.pc = replayed row refundId o

variable {start id refundId : ℕ} {row : RefundOperation}

/-- What a call finds once the operation has been completed, and what it makes of it. -/
theorem afterFind_completed {pick : ℕ} {found : Option RefundOperation} (hunder : Under K₀ w)
    (hkeyed : Keyed w.shared) (hlater : Later R K₀ start id row refundId w)
    (hdone : row.stripeRefundId = some refundId) (hmatches : Matches R K₀ call row)
    (h : w.shared.findFirst (fun op => op.ownerKey = billingOwnerKey call.owner ∧
      op.VisibleTo call.owner ∧
      op.idempotencyKeyHash ∈ candidateMetadataHashes R K₀ call.request.idempotencyInput) pick =
      some found) : afterFind R K₀ call.request found = .returned (row.result refundId) := by
  obtain ⟨row', hrow', hrecorded, hidentity⟩ := hlater.current
  obtain ⟨hrefund, hrest⟩ := Prod.mk.inj hrecorded
  obtain ⟨hstatus, hrest⟩ := Prod.mk.inj hrest
  obtain ⟨hamount, hcurrency⟩ := Prod.mk.inj hrest
  have hmatches' := hmatches.identity hidentity
  obtain rfl := find_completed hunder hkeyed hrow' hmatches' h
  have hrequest : row'.requestHash ∈ candidateMetadataHashes R K₀ call.request.requestInput := by
    rw [← hmatches'.request]
    exact hashMetadata_mem_candidates R K₀ K₀.active_mem _
  show withOperation R K₀ call.request row' (.customer (some row')) = _
  unfold withOperation
  rw [if_neg (not_not.mpr hrequest), hrefund, hdone]
  unfold RefundOperation.result
  rw [hstatus, hamount, hcurrency]

theorem replayed_find (hunder : Under K₀ w) (hkeyed : Keyed w.shared)
    (hlater : Later R K₀ start id row refundId w) (hdone : row.stripeRefundId = some refundId)
    (hmatches : Matches R K₀ call row)
    (h : createRefund cfg R K₀ w.shared call.request call.owner .find c = some (s', pc')) :
    pc' = replayed row refundId c.outcome := by
  simp only [createRefund] at h
  split at h
  · cases h
  · next found hfound =>
    have hreturned := afterFind_completed hunder hkeyed hlater hdone hmatches hfound
    rcases Outcome.run_cases (some.inj h) with ⟨ho, -, rfl⟩ | ⟨e, ho, -, rfl⟩ | ⟨e, ho, -, rfl⟩
    · rw [ho, hreturned, replayed]
    · rw [ho, replayed]
    · rw [ho, replayed]

theorem find_answered (s : RefundState) (request : RefundRequest) (owner : BillingOwner) :
    ∃ pc', createRefund cfg R K s request owner .find {} = some (s, pc') := by
  have hfirst (cond : RefundOperation → Prop) [DecidablePred cond] :
      ∃ found, s.findFirst cond 0 = some found := by
    unfold RefundState.findFirst
    split
    · exact ⟨none, rfl⟩
    · next hne =>
      obtain ⟨op, rest, hcons⟩ := List.exists_cons_of_ne_nil hne
      exact ⟨some op, by rw [hcons]; rfl⟩
  obtain ⟨found, hfound⟩ := hfirst (fun row => row.ownerKey = billingOwnerKey owner ∧
    row.VisibleTo owner ∧
    row.idempotencyKeyHash ∈ candidateMetadataHashes R K request.idempotencyInput)
  refine ⟨afterFind R K request found, ?_⟩
  simp only [createRefund, hfound]
  rfl

/-- **A later call replays the operation.** -/
theorem Later.replays {j : ℕ} (h : Later R K₀ start id row refundId w) (hunder : Under K₀ w)
    (hkeyed : Keyed w.shared) (hdone : row.stripeRefundId = some refundId) (hj : start ≤ j)
    (hproc : w.proc? j = some call) (hmatches : Matches R K₀ call row) :
    Replays cfg R K₀ row refundId w j call := by
  have hpc := h.calls j call hj hproc hmatches
  have hkeyring := hunder.calls j call hproc
  have hread : ∀ c w', (refunds cfg R K₀).next w (.step j c) = some w' →
      call.pc = .find ∧ w'.proc? j = some { call with pc := replayed row refundId c.outcome } := by
    intro c w' hn
    cases Program.move_of_next hn with
    | @step _ _ call₀ call' s hi hs =>
      obtain rfl := some.inj (hproc.symm.trans hi)
      obtain ⟨pc', hrun, rfl⟩ := map_pair_inj hs
      rw [hkeyring] at hrun
      rcases hpc with hfind | ⟨o, hended⟩
      · rw [hfind] at hrun
        rw [World.proc?_put_self hi, replayed_find hunder hkeyed h hdone hmatches hrun]
        exact ⟨hfind, rfl⟩
      · rw [hended] at hrun
        cases o <;> cases hrun
  refine ⟨hpc, fun hfind => ?_, hread⟩
  obtain ⟨pc', hanswered⟩ := @find_answered cfg R K₀ w.shared call.request call.owner
  have hn : (refunds cfg R K₀).next w (.step j {}) =
      some (w.put j w.shared { call with pc := pc' }) := by
    simp only [Program.next, hproc, refunds, hkeyring, hfind, hanswered, Option.map_some]
  exact ⟨_, _, hn, (hread _ _ hn).2, rfl⟩

theorem Later.next (h : Later R K₀ start id row refundId w) (hunder : Under K₀ w)
    (hkeyed : Keyed w.shared) (hdone : row.stripeRefundId = some refundId) (hg : Guarded w l)
    (hn : (refunds cfg R K₀).next w l = some w') : Later R K₀ start id row refundId w' := by
  refine ⟨Nat.le_trans h.fresh (fresh_le_of_next hn), ?_, fun j call hj hproc hmatches => ?_⟩
  · obtain ⟨row', hrow', hrecorded, hidentity⟩ := h.current
    have hdone' : row'.stripeRefundId ≠ none := by
      rw [show row'.stripeRefundId = row.stripeRefundId from congrArg Prod.fst hrecorded, hdone]
      simp
    obtain ⟨row'', hrow'', hrecorded', hidentity'⟩ :=
      (final_iff hkeyed hn).mpr hg id row' hrow' hdone'
    exact ⟨row'', hrow'', hrecorded'.trans hrecorded, hidentity'.trans hidentity⟩
  · cases Program.move_of_next hn with
    | spawn hs =>
      simp only [refunds] at hs
      split at hs
      · cases hs
      · obtain ⟨rfl, rfl⟩ := pair_inj hs
        rcases World.proc?_add_cases hproc with ⟨-, rfl⟩ | ⟨-, hproc⟩
        · exact .inl rfl
        · exact h.calls j call hj hproc hmatches
    | @step i c call₀ call' s hi hs =>
      obtain ⟨pc', hrun, rfl⟩ := map_pair_inj hs
      rcases World.proc?_put_cases hi hproc with ⟨rfl, rfl⟩ | ⟨-, hproc⟩
      · have hmatches₀ : Matches R K₀ call₀ row := ⟨hmatches.owner, hmatches.key, hmatches.request⟩
        have hreplays : Replays cfg R K₀ row refundId w _ call₀ :=
          h.replays hunder hkeyed hdone hj hi hmatches₀
        rw [(hreplays.read c _ hn).2] at hproc
        exact .inr ⟨c.outcome, (congrArg RefundCall.pc (some.inj hproc)).symm⟩
      · exact h.calls j call hj hproc hmatches
    | crash _ => exact h.calls j call hj (World.proc?_kill_cases hproc).2 hmatches
    | env _ => exact h.calls j call hj hproc hmatches

/-- The keyring stays, and no failure is recorded in a completed operation. -/
def Steady (w : RefundWorld) (l : RefundLabel) : Prop := NotRotated w l ∧ Guarded w l

theorem later_path (h : ReachableBy (refunds cfg R K₀).system NotRotated w)
    (hrow : w.shared.operations id = some row) (hdone : row.stripeRefundId = some refundId)
    (p : Path (refunds cfg R K₀).system Steady w w') :
    Later R K₀ w.fresh id row refundId w' := by
  induction p with
  | refl =>
    refine ⟨Nat.le_refl _, ⟨row, hrow, rfl, rfl⟩, fun j call hj hproc => ?_⟩
    exact absurd (World.lt_fresh hproc) (Nat.not_lt.mpr hj)
  | step p hg hn ih =>
    have hreach := h.path (p.mono fun _ _ hg => hg.1)
    exact ih.next (under hreach) (keyed hreach.reachable) hdone hg.2 hn

/-- **Completed refunds are final.** A step keeps the refund, the status, the amount and the currency of
every completed operation if and only if no call records a failure, in that step, in one that has been
completed; so do runs of such steps. A call that starts after the completion, for the owner, the key and
the request of the operation, then reads once and returns what is recorded (or throws the error of that
read); this is under one keyring. -/
theorem completed_final (cfg : RefundConfig) (R : Runtime) (K : Keyring) (w : RefundWorld)
    (h : Reachable (refunds cfg R K).system w) :
    (∀ l w', (refunds cfg R K).next w l = some w' → (Final w.shared w'.shared ↔ Guarded w l)) ∧
    (∀ w', Path (refunds cfg R K).system Guarded w w' → Final w.shared w'.shared) ∧
    ∀ w', ReachableBy (refunds cfg R K).system NotRotated w →
      Path (refunds cfg R K).system Steady w w' →
      ∀ id row refundId, w.shared.operations id = some row → row.stripeRefundId = some refundId →
        ∀ j call, w.fresh ≤ j → w'.proc? j = some call → Matches R K call row →
          Replays cfg R K row refundId w' j call := by
  refine ⟨fun _ _ hn => final_iff (keyed h) hn, fun _ p => final_path h p, ?_⟩
  intro w' hsteady p id row refundId hrow hdone j call hj hproc hmatches
  have hreach := hsteady.path (p.mono fun _ _ hg => hg.1)
  exact (later_path hsteady hrow hdone p).replays (under hreach) (keyed hreach.reachable) hdone hj hproc
    hmatches

/-- What a call returns of the first operation, once it has been completed. -/
def firstResult (w : RefundWorld) : Option RefundResult :=
  (w.shared.operations 0).bind fun row => row.stripeRefundId.map row.result

/-- What is recorded of the refund of the examples, with a status. -/
def exampleResult (status : String) : RefundResult := ⟨0, some status, some 400, some "usd"⟩

/-- Where the third call has got to. -/
def thirdCall (w : RefundWorld) : Option RefundPc := (w.proc? 2).map (·.pc)

/-- Two calls under one key. The request of the first one fails late. -/
def exampleOverlap : List RefundLabel :=
  [.env (.charge "ch_1" (exampleCharge (.user exampleUser) none)), .spawn exampleRefund,
    .step 0 {}, .step 0 {}, .step 0 {}, .step 0 {}, .step 0 {}, .spawn exampleRefund, .step 1 {},
    .step 1 {}, .step 1 {}, .step 1 {}, .step 0 { stripe := .failed "Request timed out" },
    .step 1 {}, .step 1 {}]

instance (w : RefundWorld) (l : RefundLabel) : Decidable (NotRotated w l) :=
  match l with
  | .env (.rotate keyring) => isFalse fun h => h keyring rfl
  | .env (.tick _) | .env (.charge _ _) | .env (.intent _ _) => isTrue nofun
  | .spawn _ | .step _ _ | .crash _ => isTrue nofun

/-- Calls that start, and calls that do not record a failure. -/
def noFailure (w : RefundWorld) : RefundLabel → Bool
  | .spawn _ => true
  | .step i _ =>
    match w.proc? i with
    | some ⟨_, _, _, .fail _ _⟩ => false
    | _ => true
  | _ => false

theorem steady_of_noFailure (w : RefundWorld) (l : RefundLabel) (h : noFailure w l = true) :
    Steady w l := by
  refine ⟨fun keyring hl => ?_, ?_⟩
  · rw [hl] at h
    cases h
  · rintro i c ⟨_, _, _, pc⟩ operation row error hoverwrites
    obtain rfl : pc = .fail operation error := hoverwrites.pc
    rw [hoverwrites.label, noFailure, hoverwrites.proc] at h
    cases h

/-- The calls are for the first operation of `w`, which has been completed. -/
def forFirst (w w' : RefundWorld) (calls : List ℕ) : Bool :=
  calls.all fun j => (w'.proc? j).any fun call => (w.shared.operations 0).any fun row =>
    row.stripeRefundId = some 0 ∧ billingOwnerKey call.owner = row.ownerKey ∧
      call.request.idempotencyKeyHash exampleRuntime exampleKeyring = row.idempotencyKeyHash ∧
      hashMetadata exampleRuntime exampleKeyring call.request.requestInput = row.requestHash

theorem forFirst_spec {calls : List ℕ} (h : forFirst w w' calls = true) (j : ℕ) (hj : j ∈ calls) :
    ∃ call row, w'.proc? j = some call ∧ w.shared.operations 0 = some row ∧
      row.stripeRefundId = some 0 ∧ Matches exampleRuntime exampleKeyring call row := by
  have hcall := List.all_eq_true.mp h j hj
  rw [Option.any_eq_true] at hcall
  obtain ⟨call, hproc, hrow⟩ := hcall
  rw [Option.any_eq_true] at hrow
  obtain ⟨row, hrow, hfor⟩ := hrow
  obtain ⟨hdone, howner, hkey, hrequest⟩ := of_decide_eq_true hfor
  exact ⟨call, row, hproc, hrow, hdone, ⟨howner, hkey, hrequest⟩⟩

/-- **Two more calls under the key.** The third one has returned what the second one recorded, the
fourth is about to read; the first one has still to record its failure. -/
theorem completed_final_overlap : ∃ w w',
    firstResult w = some (exampleResult "succeeded") ∧ Final w.shared w'.shared ∧
    thirdCall w' = some (.returned (exampleResult "succeeded")) ∧
    ∀ j ∈ [2, 3], ∃ call row, w'.proc? j = some call ∧ w.shared.operations 0 = some row ∧
      Replays (exampleRefundConfig .user) exampleRuntime exampleKeyring row 0 w' j call := by
  obtain ⟨w, w', hw, hpath, hresult, hfresh, hthird, hcalls⟩ :=
    (refunds (exampleRefundConfig .user) exampleRuntime exampleKeyring).exists_run NotRotated
      (noFailure · · = true) exampleOverlap
      [.spawn exampleRefund, .step 2 {}, .spawn exampleRefund]
      (fun w w' => firstResult w = some (exampleResult "succeeded") ∧ w.fresh = 2 ∧
        thirdCall w' = some (.returned (exampleResult "succeeded")) ∧
        forFirst w w' [2, 3] = true) (by decide)
  have hsteady := hpath.mono steady_of_noFailure
  obtain ⟨-, hfinal, hreplays⟩ := completed_final (exampleRefundConfig .user) exampleRuntime
    exampleKeyring w hw.reachable
  refine ⟨w, w', hresult, hfinal w' (hsteady.mono fun _ _ h => h.2), hthird, fun j hj => ?_⟩
  obtain ⟨call, row, hproc, hrow, hdone, hmatches⟩ := forFirst_spec hcalls j hj
  refine ⟨call, row, hproc, hrow, hreplays w' hw hsteady 0 row 0 hrow hdone j call ?_ hproc hmatches⟩
  rw [hfresh]
  simp only [List.mem_cons, List.not_mem_nil, or_false] at hj
  omega

/-- The first call records its failure in the operation that the second one has completed, and a third
call returns it. -/
theorem completed_then_failed : ∃ w w',
    Reachable (refunds (exampleRefundConfig .user) exampleRuntime exampleKeyring).system w ∧
    Path (refunds (exampleRefundConfig .user) exampleRuntime exampleKeyring).system anyStep w w' ∧
    firstResult w = some (exampleResult "succeeded") ∧
    firstResult w' = some (exampleResult "FAILED") ∧
    thirdCall w' = some (.returned (exampleResult "FAILED")) :=
  (refunds (exampleRefundConfig .user) exampleRuntime exampleKeyring).exists_path anyStep
    exampleOverlap [.step 0 {}, .spawn exampleRefund, .step 2 {}]
    (fun w w' => firstResult w = some (exampleResult "succeeded") ∧
      firstResult w' = some (exampleResult "FAILED") ∧
      thirdCall w' = some (.returned (exampleResult "FAILED"))) (by decide)

end BackendFoundation.Stripe.RefundFinal
