import BackendFoundation.Outbox.Programs

/-! # The life cycle of an outbox event

Whatever the programs do to an outbox row is one of nine writes. `RowWrite` lists them with the
guard each has on the row and the status it leaves, and `Does` is the whole effect that the safety
arguments need. `mayWrite` says which writes a process can make from its program point.

`step_rows` is the refinement: a step of any process leaves each row as it was or makes one of the
writes its program point allows. The invariants of the outbox are proved from it, over nine writes
instead of over the program points. -/

namespace BackendFoundation.Outbox.Lifecycle

open Lib Lib.Runs Errors Crypto Outbox.Model Outbox.Programs
open Option (some.inj map_eq_some_iff)

/-! ### The writes -/

inductive RowWrite
  | claim (now token : ℕ)
  | enqueue (token : Option ℕ)
  | release (token : Option ℕ)
  | expire (generation : ℕ)
  | start (generation : ℕ)
  | deliver (generation : ℕ)
  | retry (generation : ℕ)
  | deadLetter (generation : ℕ)
  | redrive (generation : ℕ)

namespace RowWrite

def Guard : RowWrite → OutboxEvent → Prop
  | claim now _, row => row.Claimable now
  | enqueue token, row => row.status = .claimed ∧ row.claimToken = token
  | release token, row => row.status = .claimed ∧ row.claimToken = token
  | expire g, row => row.deliveryGeneration = g ∧ row.status ≠ .delivered
  | start g, row => row.deliveryGeneration = g ∧ (row.status = .enqueued ∨ row.status = .failed)
  | deliver g, row => row.deliveryGeneration = g ∧ row.status = .processing
  | retry g, row =>
    row.deliveryGeneration = g ∧ row.status ≠ .delivered ∧ row.status ≠ .deadLetter
  | deadLetter g, row =>
    row.deliveryGeneration = g ∧ row.status ≠ .delivered ∧ row.status ≠ .deadLetter
  | redrive g, row => row.status = .deadLetter ∧ row.deliveryGeneration = g

def target : RowWrite → OutboxStatus
  | claim _ _ => .claimed
  | enqueue _ => .enqueued
  | release _ => .pending
  | expire _ => .deadLetter
  | start _ => .processing
  | deliver _ => .delivered
  | retry _ => .enqueued
  | deadLetter _ => .deadLetter
  | redrive _ => .pending

/-- By how much a write raises the generation. -/
def bump : RowWrite → ℕ
  | redrive _ => 1
  | _ => 0

/-- The generation a write of a worker, a failed handler or a redrive is made for. -/
def generation? : RowWrite → Option ℕ
  | claim _ _ | enqueue _ | release _ => none
  | expire g | start g | deliver g | retry g | deadLetter g | redrive g => some g

/-- A write changes a live row that meets its guard. -/
structure Does (wr : RowWrite) (row row' : OutboxEvent) : Prop where
  guard : wr.Guard row
  live : row.deletedAt = none
  status : row'.status = wr.target
  generation : row'.deliveryGeneration = row.deliveryGeneration + wr.bump
  expiresAt : row'.expiresAt = row.expiresAt
  deletedAt : row'.deletedAt = none
  claimed : ∀ now token, wr = .claim now token →
    row'.claimToken = some token ∧ row'.claimExpiresAt = some (now + OUTBOX_CLAIM_LEASE_MS)

variable {wr : RowWrite} {row row' : OutboxEvent}

theorem Does.generation_eq {g : ℕ} (h : wr.Does row row') (hg : wr.generation? = some g) :
    row.deliveryGeneration = g := by
  have hguard := h.guard
  cases wr <;> simp only [generation?, Option.some.injEq, reduceCtorEq] at hg <;> subst hg
  case redrive => exact hguard.2
  all_goals exact hguard.1

theorem Does.generation_cases (h : wr.Does row row') :
    row'.deliveryGeneration = row.deliveryGeneration ∨
      (wr = .redrive row.deliveryGeneration ∧ row.status = .deadLetter ∧
        row'.deliveryGeneration = row.deliveryGeneration + 1) := by
  have hgen := h.generation
  cases wr
  case redrive g =>
    obtain ⟨hs, hg⟩ := h.guard
    exact .inr ⟨by rw [hg], hs, hgen⟩
  all_goals exact .inl hgen

theorem Does.generation_le (h : wr.Does row row') :
    row.deliveryGeneration ≤ row'.deliveryGeneration := by
  rw [h.generation]
  exact Nat.le_add_right _ _

theorem Does.not_delivered (h : wr.Does row row') : row.status ≠ .delivered := by
  have hguard := h.guard
  intro hd
  cases wr <;> simp only [Guard, OutboxEvent.Claimable, hd] at hguard <;> simp at hguard

end RowWrite

/-! ### Rows between two states -/

/-- Each row stays as it was or is changed by one of the writes `may` allows on it; the clock
stands still, and an audit event is written only together with a redrive. -/
structure RowsStep (may : Uuid → RowWrite → Prop) (s s' : OutboxState) : Prop where
  rows : ∀ id, s'.events id = s.events id ∨
    ∃ row row' wr, s.events id = some row ∧ s'.events id = some row' ∧ may id wr ∧ wr.Does row row'
  now : s'.now = s.now
  audit : s'.auditEvents = s.auditEvents ∨
    ∃ id g row row' actor, may id (.redrive g) ∧ s.events id = some row ∧
      s'.events id = some row' ∧ (RowWrite.redrive g).Does row row' ∧
      s'.auditEvents = s.auditEvents ++
        [⟨actor, "outbox.dead_letter.redriven", "outbox_event", id, g⟩]

variable {may may' : Uuid → RowWrite → Prop} {s s' : OutboxState}

theorem RowsStep.of_eq (h : s'.events = s.events) (hn : s'.now = s.now)
    (ha : s'.auditEvents = s.auditEvents) : RowsStep may s s' :=
  ⟨fun id => .inl (by rw [h]), hn, .inl ha⟩

theorem RowsStep.refl : RowsStep may s s := .of_eq rfl rfl rfl

theorem RowsStep.mono (hm : ∀ id wr, may id wr → may' id wr) (h : RowsStep may s s') :
    RowsStep may' s s' where
  rows id := (h.rows id).imp_right
    fun ⟨row, row', wr, h₁, h₂, h₃, h₄⟩ => ⟨row, row', wr, h₁, h₂, hm id wr h₃, h₄⟩
  now := h.now
  audit := h.audit.imp_right
    fun ⟨id, g, row, row', actor, h₁, h₂⟩ => ⟨id, g, row, row', actor, hm id _ h₁, h₂⟩

theorem RowsStep.row (h : RowsStep may s s') {id : Uuid} {row : OutboxEvent}
    (hr : s.events id = some row) :
    ∃ row', s'.events id = some row' ∧ (row' = row ∨ ∃ wr, may id wr ∧ wr.Does row row') := by
  rcases h.rows id with he | ⟨r, row', wr, h₁, h₂, h₃, h₄⟩
  · exact ⟨row, he.trans hr, .inl rfl⟩
  · obtain rfl := some.inj (hr.symm.trans h₁)
    exact ⟨row', h₂, .inr ⟨wr, h₃, h₄⟩⟩

theorem RowsStep.row_of (h : RowsStep may s s') {id : Uuid} {row' : OutboxEvent}
    (hr : s'.events id = some row') :
    ∃ row, s.events id = some row ∧ (row' = row ∨ ∃ wr, may id wr ∧ wr.Does row row') := by
  rcases h.rows id with he | ⟨row, r, wr, h₁, h₂, h₃, h₄⟩
  · exact ⟨row', he.symm.trans hr, .inl rfl⟩
  · obtain rfl := some.inj (hr.symm.trans h₂)
    exact ⟨row, h₁, .inr ⟨wr, h₃, h₄⟩⟩

/-! ### The statements as writes -/

section Statements

variable {id : Uuid} {cond : OutboxEvent → Prop} [DecidablePred cond]
  {data : OutboxEvent → OutboxEvent}

/-- What an `updateMany` on one outbox row does. -/
theorem updateEvent_cases (s : OutboxState) (id : Uuid) (cond : OutboxEvent → Prop)
    [DecidablePred cond] (data : OutboxEvent → OutboxEvent) :
    (∃ row, s.events id = some row ∧ row.deletedAt = none ∧ cond row ∧
        s.updateEvent id cond data = ({ s with events := s.events.set id (data row) }, 1)) ∨
      ((∀ row, s.events id = some row → row.deletedAt = none → ¬ cond row) ∧
        s.updateEvent id cond data = (s, 0)) := by
  unfold OutboxState.updateEvent
  rcases s.events.updateWhere_cases id (fun row => row.deletedAt = none ∧ cond row) data with
    ⟨row, hr, ⟨hd, hc⟩, he⟩ | ⟨hn, he⟩
  · exact .inl ⟨row, hr, hd, hc, by rw [he]⟩
  · exact .inr ⟨fun row hr hd hc => hn row hr ⟨hd, hc⟩, by rw [he]⟩

/-- An `updateMany` that does not count one row changes nothing. -/
theorem updateEvent_count :
    (s.updateEvent id cond data).2 = 1 ∨ s.updateEvent id cond data = (s, 0) := by
  rcases updateEvent_cases s id cond data with ⟨row, -, -, -, he⟩ | ⟨-, he⟩
  · exact .inl (by rw [he])
  · exact .inr he

/-- An `updateMany` whose condition is the guard of a write makes that write and counts one row, or
its guard fails and nothing changes. -/
theorem updateEvent_does {wr : RowWrite} (hguard : ∀ row, cond row ↔ wr.Guard row)
    (hdoes : ∀ row : OutboxEvent, row.deletedAt = none → wr.Guard row → wr.Does row (data row)) :
    (∃ row row', s.events id = some row ∧ wr.Does row row' ∧
        s.updateEvent id cond data = ({ s with events := s.events.set id row' }, 1)) ∨
      ((∀ row, s.events id = some row → row.deletedAt = none → ¬ wr.Guard row) ∧
        s.updateEvent id cond data = (s, 0)) := by
  rcases updateEvent_cases s id cond data with ⟨row, hr, hd, hc, he⟩ | ⟨hn, he⟩
  · exact .inl ⟨row, data row, hr, hdoes row hd ((hguard row).mp hc), he⟩
  · exact .inr ⟨fun row hr hd hg => hn row hr hd ((hguard row).mpr hg), he⟩

/-- An `updateMany` whose condition and data make up a write is that write. -/
theorem updateEvent_rows {wr : RowWrite}
    (h : ∀ row : OutboxEvent, row.deletedAt = none → cond row → wr.Does row (data row)) :
    RowsStep (fun id' wr' => id' = id ∧ wr' = wr) s (s.updateEvent id cond data).1 := by
  refine ⟨fun id' => ?_, rfl, .inl rfl⟩
  rcases updateEvent_cases s id cond data with ⟨row, hr, hd, hc, he⟩ | ⟨-, he⟩
  · rw [he]
    by_cases hid : id' = id
    · subst hid
      exact .inr ⟨row, data row, wr, hr, Table.set_self, ⟨rfl, rfl⟩, h row hd hc⟩
    · exact .inl (Table.set_of_ne hid)
  · rw [he]
    exact .inl rfl

variable {now token generation : ℕ} {ids : List Uuid} {error : Thrown}

theorem claimRows_rows : RowsStep (fun _ wr => wr = .claim now token) s (s.claimRows now token ids) := by
  refine ⟨fun id => ?_, rfl, .inl rfl⟩
  cases hr : s.events id with
  | none => exact .inl (by simp [OutboxState.claimRows, Table.updateAll, hr])
  | some row =>
    by_cases hc : id ∈ ids ∧ row.Claimable now
    · refine .inr ⟨row, row.claim now token, _, rfl, ?_, rfl, ⟨hc.2, hc.2.1, rfl, rfl, rfl, hc.2.1, ?_⟩⟩
      · simp [OutboxState.claimRows, Table.updateAll, hr, hc]
      · rintro _ _ ⟨⟩
        exact ⟨rfl, rfl⟩
    · exact .inl (by simp [OutboxState.claimRows, Table.updateAll, hr, hc])

theorem markEnqueued_rows {claimToken : Option ℕ} :
    RowsStep (fun id' wr => id' = id ∧ wr = .enqueue claimToken) s
      (s.markEnqueued id claimToken) :=
  updateEvent_rows fun _ hd hc => ⟨hc, hd, rfl, rfl, rfl, hd, nofun⟩

theorem releaseClaim_rows {claimToken : Option ℕ} :
    RowsStep (fun id' wr => id' = id ∧ wr = .release claimToken) s
      (s.releaseClaimAfterEnqueueFailure id claimToken error) :=
  updateEvent_rows fun _ hd hc => ⟨hc, hd, rfl, rfl, rfl, hd, nofun⟩

theorem expireEvent_rows :
    RowsStep (fun id' wr => id' = id ∧ wr = .expire generation) s
      (s.expireEvent id generation).1 :=
  updateEvent_rows fun _ hd hc => ⟨hc, hd, rfl, rfl, rfl, hd, nofun⟩

theorem startEvent_rows :
    RowsStep (fun id' wr => id' = id ∧ wr = .start generation) s (s.startEvent id generation).1 :=
  updateEvent_rows fun _ hd hc => ⟨hc, hd, rfl, rfl, rfl, hd, nofun⟩

theorem deliverEvent_rows :
    RowsStep (fun id' wr => id' = id ∧ wr = .deliver generation) s
      (s.deliverEvent id generation).1 :=
  updateEvent_rows fun _ hd hc => ⟨hc, hd, rfl, rfl, rfl, hd, nofun⟩

theorem expireEvent_cases (s : OutboxState) (id : Uuid) (generation : ℕ) :
    (∃ row row', s.events id = some row ∧ (RowWrite.expire generation).Does row row' ∧
        s.expireEvent id generation = ({ s with events := s.events.set id row' }, 1)) ∨
      ((∀ row, s.events id = some row → row.deletedAt = none →
          ¬ (RowWrite.expire generation).Guard row) ∧
        s.expireEvent id generation = (s, 0)) :=
  updateEvent_does (fun _ => Iff.rfl) fun _ hd hc => ⟨hc, hd, rfl, rfl, rfl, hd, nofun⟩

theorem startEvent_cases (s : OutboxState) (id : Uuid) (generation : ℕ) :
    (∃ row row', s.events id = some row ∧ (RowWrite.start generation).Does row row' ∧
        s.startEvent id generation = ({ s with events := s.events.set id row' }, 1)) ∨
      ((∀ row, s.events id = some row → row.deletedAt = none →
          ¬ (RowWrite.start generation).Guard row) ∧
        s.startEvent id generation = (s, 0)) :=
  updateEvent_does (fun _ => Iff.rfl) fun _ hd hc => ⟨hc, hd, rfl, rfl, rfl, hd, nofun⟩

theorem deliverEvent_cases (s : OutboxState) (id : Uuid) (generation : ℕ) :
    (∃ row row', s.events id = some row ∧ (RowWrite.deliver generation).Does row row' ∧
        s.deliverEvent id generation = ({ s with events := s.events.set id row' }, 1)) ∨
      ((∀ row, s.events id = some row → row.deletedAt = none →
          ¬ (RowWrite.deliver generation).Guard row) ∧
        s.deliverEvent id generation = (s, 0)) :=
  updateEvent_does (fun _ => Iff.rfl) fun _ hd hc => ⟨hc, hd, rfl, rfl, rfl, hd, nofun⟩

theorem resetDeadLetter_cases (s : OutboxState) (id : Uuid) (generation : ℕ) :
    (∃ row row', s.events id = some row ∧ (RowWrite.redrive generation).Does row row' ∧
        s.resetDeadLetter id generation = ({ s with events := s.events.set id row' }, 1)) ∨
      ((∀ row, s.events id = some row → row.deletedAt = none →
          ¬ (RowWrite.redrive generation).Guard row) ∧
        s.resetDeadLetter id generation = (s, 0)) :=
  updateEvent_does (fun _ => Iff.rfl) fun _ hd hc => ⟨hc, hd, rfl, rfl, rfl, hd, nofun⟩

/-- The write of `recordDeliveryFailure`. -/
def failureWrite (generation : ℕ) : DeliveryFailureDisposition → RowWrite
  | .retry => .retry generation
  | .deadLetter => .deadLetter generation

variable {disposition : DeliveryFailureDisposition}

theorem failEvent_rows {message : String} :
    RowsStep (fun id' wr => id' = id ∧ wr = failureWrite generation disposition) s
      (s.failEvent id generation message disposition).1 := by
  refine updateEvent_rows fun row hd hc => ?_
  cases disposition with
  | retry => exact ⟨hc, hd, rfl, rfl, rfl, hd, nofun⟩
  | deadLetter => exact ⟨hc, hd, rfl, rfl, rfl, hd, nofun⟩

theorem failEvent_cases (s : OutboxState) (id : Uuid) (generation : ℕ) (message : String)
    (disposition : DeliveryFailureDisposition) :
    (∃ row row', s.events id = some row ∧ (failureWrite generation disposition).Does row row' ∧
        s.failEvent id generation message disposition =
          ({ s with events := s.events.set id row' }, 1)) ∨
      ((∀ row, s.events id = some row → row.deletedAt = none →
          ¬ (failureWrite generation disposition).Guard row) ∧
        s.failEvent id generation message disposition = (s, 0)) := by
  cases disposition with
  | retry =>
    exact updateEvent_does (fun _ => Iff.rfl) fun _ hd hc => ⟨hc, hd, rfl, rfl, rfl, hd, nofun⟩
  | deadLetter =>
    exact updateEvent_does (fun _ => Iff.rfl) fun _ hd hc => ⟨hc, hd, rfl, rfl, rfl, hd, nofun⟩

theorem failEvent_count {message : String} : (s.failEvent id generation message disposition).2 = 1 ∨
      s.failEvent id generation message disposition = (s, 0) := updateEvent_count

theorem failStripeWebhookEvent_eq (s : OutboxState) (event : OutboxEvent) (message : String) :
    ∃ stripeWebhookEvents, s.failStripeWebhookEvent event message =
      { s with stripeWebhookEvents := stripeWebhookEvents } := by
  unfold OutboxState.failStripeWebhookEvent
  split
  · split_ifs
    · exact ⟨_, rfl⟩
    · exact ⟨_, rfl⟩
  · exact ⟨_, rfl⟩

/-- `recordDeliveryFailure` changes the row it is about, and besides it only the stored Stripe
event. -/
theorem recordDeliveryFailure_eq (s : OutboxState) (id : Uuid) (event : OutboxEvent)
    (generation : ℕ) (error : Thrown) (disposition : DeliveryFailureDisposition) :
    ∃ message stripeWebhookEvents,
      s.recordDeliveryFailure id event generation error disposition =
        { (s.failEvent id generation message disposition).1 with
          stripeWebhookEvents := stripeWebhookEvents } := by
  refine ⟨error.messageOr "Unknown worker error", ?_⟩
  unfold OutboxState.recordDeliveryFailure
  simp only []
  split_ifs with hcount
  · exact failStripeWebhookEvent_eq _ _ _
  · have h := failEvent_count.resolve_left hcount
    exact ⟨s.stripeWebhookEvents, (congrArg Prod.fst h).symm⟩

/-- A row that `recordDeliveryFailure` may write is written. -/
theorem recordDeliveryFailure_row (error : Thrown) (event : OutboxEvent) {row : OutboxEvent}
    (hr : s.events id = some row) (hd : row.deletedAt = none)
    (hguard : (failureWrite generation disposition).Guard row) :
    ∃ row', (s.recordDeliveryFailure id event generation error disposition).events id = some row' ∧
      (failureWrite generation disposition).Does row row' := by
  obtain ⟨message, t, he⟩ := recordDeliveryFailure_eq s id event generation error disposition
  rw [he]
  rcases failEvent_cases s id generation message disposition with ⟨r, row', hr₂, hdoes, he⟩ |
    ⟨hn, -⟩
  · obtain rfl := some.inj (hr.symm.trans hr₂)
    exact ⟨row', by rw [he]; exact Table.set_self, hdoes⟩
  · exact absurd hguard (hn row hr hd)

theorem recordDeliveryFailure_rows {event : OutboxEvent} :
    RowsStep (fun id' wr => id' = id ∧ wr = failureWrite generation disposition) s
      (s.recordDeliveryFailure id event generation error disposition) := by
  obtain ⟨message, t, he⟩ := recordDeliveryFailure_eq s id event generation error disposition
  have h : RowsStep _ s (s.failEvent id generation message disposition).1 := failEvent_rows
  rw [he]
  exact ⟨h.rows, h.now, h.audit⟩

end Statements

/-! ### The programs as writes -/

/-- The writes of a worker at a program point. -/
def workerWrites (job : Job NotificationJobData) : WorkerPc → RowWrite → Prop
  | .expire _, wr => wr = .expire job.data.deliveryGeneration
  | .start _, wr => wr = .start job.data.deliveryGeneration
  | .finishRecorded _, wr => wr = .deliver job.data.deliveryGeneration
  | .deliver _, wr => wr = .deliver job.data.deliveryGeneration
  | .recordFailure _ _, wr =>
    wr = failureWrite job.data.deliveryGeneration
      (deliveryFailureDisposition job.attemptsMade job.attempts)
  | _, _ => False

/-- The writes of one `enqueueClaimedEvent`. -/
def taskWrites (t : EnqueueTask) (wr : RowWrite) : Prop :=
  match t.pc with
  | .markEnqueued => wr = .enqueue t.event.claimToken
  | .releaseClaim _ => wr = .release t.event.claimToken
  | _ => False

/-- The writes a process can make from its program point. -/
def mayWrite (pid : ℕ) : Proc → Uuid → RowWrite → Prop
  | .relay (.claim now _), _, wr => wr = .claim now pid
  | .relay (.enqueue tasks), id, wr =>
    ∃ t ∈ tasks, id = t.id ∧ taskWrites t wr
  | .relay (.failed _), _, _ => False
  | .worker _ job pc, id, wr => id = job.data.outboxId ∧ workerWrites job pc wr
  | .reconcile _ r, id, wr =>
    id = r.job.data.outboxId ∧ wr = .deadLetter r.job.data.deliveryGeneration
  | .redrive (.reset id' _ existing _), id, wr =>
    id = id' ∧ wr = .redrive existing.deliveryGeneration
  | .redrive _, _, _ => False
  | .finished, _, _ => False

theorem RowsStep.of_run {s t t' : OutboxState} {ε P : Type*} {o : Outcome ε} {p q : P} {f : ε → P}
    (h : RowsStep may s t) (hr : o.run s t p f = (t', q)) : RowsStep may s t' := by
  rcases Outcome.run_cases hr with ⟨-, rfl, -⟩ | ⟨e, -, rfl, -⟩ | ⟨e, -, rfl, -⟩
  · exact h
  · exact .refl
  · exact h

theorem RowsStep.of_read {s t' : OutboxState} {ε P : Type*} {o : Outcome ε} {p q : P} {f : ε → P}
    (hr : o.read s p f = (t', q)) : RowsStep may s t' := by
  obtain ⟨rfl, -⟩ := Outcome.read_cases hr
  exact .refl

variable {c : Choice}

theorem enqueueClaimedEvent_rows {t t' : EnqueueTask}
    (h : enqueueClaimedEvent s t c = some (s', t')) :
    RowsStep (fun id wr => id = t.id ∧ taskWrites t wr) s s' := by
  unfold enqueueClaimedEvent at h
  split at h
  · split_ifs at h
    · cases h
      exact .of_eq rfl rfl rfl
    · refine RowsStep.of_run ?_ (some.inj h)
      exact .of_eq rfl rfl rfl
  · next hpc =>
    refine (RowsStep.of_run markEnqueued_rows (some.inj h)).mono fun id wr hw => ⟨hw.1, ?_⟩
    simp only [taskWrites, hpc]
    exact hw.2
  · next hpc =>
    refine (RowsStep.of_run releaseClaim_rows (some.inj h)).mono fun id wr hw => ⟨hw.1, ?_⟩
    simp only [taskWrites, hpc]
    exact hw.2
  · cases h
  · cases h

variable {pid : ℕ}

theorem relayStep_rows {pc pc' : RelayPc} (h : relayStep s pid pc c = some (s', pc')) :
    RowsStep (mayWrite pid (.relay pc)) s s' := by
  unfold relayStep at h
  split at h
  · split_ifs at h
    exact RowsStep.of_run claimRows_rows (some.inj h)
  · next tasks =>
    split at h
    · next t ht =>
      obtain ⟨⟨s₁, t'⟩, hs, he⟩ := map_eq_some_iff.mp h
      cases he
      exact (enqueueClaimedEvent_rows hs).mono
        fun id wr hw => ⟨t, List.mem_of_getElem? ht, hw.1, hw.2⟩
    · cases h
  · cases h

variable {cfg : Config}

theorem callProvider_rows {id : Uuid} {event : OutboxEvent} :
    RowsStep may s (callProvider cfg s id event c).1 := by
  unfold callProvider
  repeat' split
  all_goals exact .of_eq rfl rfl rfl

theorem upsertDelivery_rows {R : Runtime} {K : Keyring} {id : Uuid} {event : OutboxEvent} :
    RowsStep may s (s.upsertDelivery R K id event) := by
  unfold OutboxState.upsertDelivery
  split
  · exact .of_eq rfl rfl rfl
  · exact .of_eq rfl rfl rfl

theorem processNotification_rows {job : Job NotificationJobData} {pc pc' : WorkerPc}
    (h : processNotification cfg s job pc c = some (s', pc')) :
    RowsStep (fun id wr => id = job.data.outboxId ∧ workerWrites job pc wr) s s' := by
  unfold processNotification at h
  split at h
  case h_1 => exact .of_read (some.inj h)
  case h_2 => exact RowsStep.of_run expireEvent_rows (some.inj h)
  case h_3 => exact RowsStep.of_run startEvent_rows (some.inj h)
  case h_4 => exact .of_read (some.inj h)
  case h_5 => exact RowsStep.of_run upsertDelivery_rows (some.inj h)
  case h_6 => exact RowsStep.of_run deliverEvent_rows (some.inj h)
  case h_7 => exact .of_read (some.inj h)
  case h_8 =>
    have he : (callProvider cfg s job.data.outboxId _ c).1 = s' :=
      congrArg Prod.fst (some.inj h)
    exact he ▸ callProvider_rows
  case h_9 =>
    refine RowsStep.of_run ?_ (some.inj h)
    exact .of_eq rfl rfl rfl
  case h_10 => exact RowsStep.of_run deliverEvent_rows (some.inj h)
  case h_11 =>
    refine RowsStep.of_run ?_ (some.inj h)
    exact .of_eq rfl rfl rfl
  case h_12 => exact RowsStep.of_run recordDeliveryFailure_rows (some.inj h)
  case h_13 => cases h
  case h_14 => cases h

theorem reconcileExhaustedJob_rows {r r' : Reconcile}
    (h : reconcileExhaustedJob s r c = some (s', r')) :
    RowsStep (fun id wr => id = r.job.data.outboxId ∧
      wr = .deadLetter r.job.data.deliveryGeneration) s s' := by
  unfold reconcileExhaustedJob at h
  simp only [] at h
  split at h
  · split_ifs at h
    · exact .of_read (some.inj h)
    · cases h
      exact .refl
  · refine RowsStep.of_run ?_ (some.inj h)
    exact (recordDeliveryFailure_rows :
      RowsStep _ s (s.recordDeliveryFailure _ _ _ _ .deadLetter))
  · cases h

theorem redriveReset_eq {id : Uuid} (actorUserId : String) {generation : ℕ}
    (h : ¬ (s.resetDeadLetter id generation).2 ≠ 1) :
    ∃ row row', s.events id = some row ∧ (RowWrite.redrive generation).Does row row' ∧
      redriveReset s id actorUserId generation =
        { s with
          events := s.events.set id row'
          auditEvents := s.auditEvents ++
            [⟨actorUserId, "outbox.dead_letter.redriven", "outbox_event", id, generation⟩] } := by
  rcases resetDeadLetter_cases s id generation with ⟨row, row', hr, hdoes, he⟩ | ⟨-, he⟩
  · exact ⟨row, row', hr, hdoes, by rw [redriveReset, he]⟩
  · rw [he] at h
    exact absurd Nat.zero_ne_one h

theorem redriveReset_rows {id : Uuid} {actorUserId : String} {generation : ℕ}
    (h : ¬ (s.resetDeadLetter id generation).2 ≠ 1) :
    RowsStep (fun id' wr => id' = id ∧ wr = .redrive generation) s
      (redriveReset s id actorUserId generation) := by
  obtain ⟨row, row', hr, hdoes, he⟩ := redriveReset_eq actorUserId h
  rw [he]
  refine ⟨fun id' => ?_, rfl, .inr
    ⟨id, generation, row, row', actorUserId, ⟨rfl, rfl⟩, hr, Table.set_self, hdoes, rfl⟩⟩
  by_cases hid : id' = id
  · subst hid
    exact .inr ⟨row, row', _, hr, Table.set_self, ⟨rfl, rfl⟩, hdoes⟩
  · exact .inl (Table.set_of_ne hid)

theorem redriveStep_rows {pc pc' : RedrivePc} (h : redriveStep s pc c = some (s', pc')) :
    RowsStep (mayWrite pid (.redrive pc)) s s' := by
  unfold redriveStep at h
  split at h
  · exact .of_read (some.inj h)
  · split_ifs at h with hcount
    · cases h
      exact .refl
    · refine RowsStep.of_run ?_ (some.inj h)
      exact redriveReset_rows hcount
  · cases h
  · cases h

theorem settleJob_rows {jobId : JobId} {pc : WorkerPc} {p' : Proc}
    (h : settleJob s pid jobId pc = some (s', p')) : RowsStep may s s' := by
  unfold settleJob at h
  split at h <;> cases h <;> exact .of_eq rfl rfl rfl

/-- **The programs refine the life cycle.** A step of a process leaves each row as it was or makes
a write its program point allows. -/
theorem step_rows {p p' : Proc} (h : step cfg s pid p c = some (s', p')) :
    RowsStep (mayWrite pid p) s s' := by
  unfold step at h
  split at h
  case h_1 =>
    obtain ⟨pc', hs, rfl⟩ := map_pair_inj h
    exact relayStep_rows hs
  case h_2 =>
    split at h
    · next r hr =>
      cases h
      exact processNotification_rows hr
    · exact settleJob_rows h
  case h_3 =>
    obtain ⟨r', hs, rfl⟩ := map_pair_inj h
    exact reconcileExhaustedJob_rows hs
  case h_4 =>
    obtain ⟨pc', hs, rfl⟩ := map_pair_inj h
    exact redriveStep_rows hs
  case h_5 => cases h

theorem start_rows {x : Start} {p : Proc} (h : start cfg s pid x = some (s', p)) :
    RowsStep (fun _ _ => False) s s' := by
  unfold start at h
  split at h
  · cases h
    exact .refl
  · obtain ⟨r, -, he⟩ := map_eq_some_iff.mp h
    cases he
    exact .of_eq rfl rfl rfl
  · obtain ⟨r, -, he⟩ := map_eq_some_iff.mp h
    cases he
    exact .of_eq rfl rfl rfl
  · cases h
    exact .refl

/-- The row `addOutboxEvent` creates. -/
def newRow (now : ℕ) (input : OutboxInput) : OutboxEvent where
  eventType := input.eventType
  channel := input.channel
  payload := input.payload
  availableAt := input.availableAt.getD now
  expiresAt := input.expiresAt
  createdAt := now

theorem addOutboxEvent_eq_some {id : Uuid} {input : OutboxInput}
    (h : s.addOutboxEvent id input = some s') :
    s.events id = none ∧ s' = { s with events := s.events.set id (newRow s.now input) } := by
  unfold OutboxState.addOutboxEvent at h
  split at h
  · cases h
  · next hnone => exact ⟨hnone, (some.inj h).symm⟩

/-- What happens outside the programs. -/
inductive EventStep (cfg : Config) (s : OutboxState) : Event → OutboxState → Prop
  | tick (ms : ℕ) : EventStep cfg s (.tick ms) { s with now := s.now + ms }
  | addOutboxEvent {id : Uuid} {input : OutboxInput} (hnone : s.events id = none) :
      EventStep cfg s (.addOutboxEvent id input)
        { s with events := s.events.set id (newRow s.now input) }
  | storeStripeEvent {id stored : Uuid} {type : String} (input : OutboxInput)
      (hnew : s.stripeWebhookEvents stored = none) (hnone : s.events id = none) :
      EventStep cfg s (.storeStripeEvent id stored type)
        { s with
          stripeWebhookEvents := s.stripeWebhookEvents.set stored {}
          events := s.events.set id (newRow s.now input) }
  | emailProviderEvent (ev : EmailEvent) : EventStep cfg s (.emailProviderEvent ev)
      (s.processEmailProviderEvent cfg.runtime cfg.keyring ev)
  | stall {jid : JobId} {j : Job NotificationJobData} {token : ℕ} (hj : s.queue jid = some j)
      (hactive : j.state = .active token) (hlimit : ¬ j.StallLimit cfg.maxStalledCount) :
      EventStep cfg s (.stall jid)
        { s with
          queue := s.queue.set jid
            { j with state := .waiting, stalledCounter := j.stalledCounter + 1 } }
  | removeJob {jid : JobId} {j : Job NotificationJobData} (hj : s.queue jid = some j)
      (hdone : j.state = .completed ∨ j.state = .failed) :
      EventStep cfg s (.removeJob jid) { s with queue := s.queue.erase jid }

theorem event_step {e : Event} (h : event cfg s e = some s') : EventStep cfg s e s' := by
  cases e with
  | tick ms =>
    obtain rfl := some.inj h
    exact .tick ms
  | addOutboxEvent id input =>
    obtain ⟨hnone, rfl⟩ := addOutboxEvent_eq_some h
    exact .addOutboxEvent hnone
  | storeStripeEvent id stored type =>
    simp only [event, OutboxState.storeStripeEvent] at h
    split at h
    · cases h
    · next hnew =>
      obtain ⟨hnone, rfl⟩ := addOutboxEvent_eq_some h
      exact .storeStripeEvent _ hnew hnone
  | emailProviderEvent ev =>
    obtain rfl := some.inj h
    exact .emailProviderEvent ev
  | stall jid =>
    obtain ⟨q, hq, rfl⟩ := map_eq_some_iff.mp h
    obtain ⟨j, token, hj, hactive, hlimit, rfl⟩ := JobQueue.stall_eq_some hq
    exact .stall hj hactive hlimit
  | removeJob jid =>
    obtain ⟨q, hq, rfl⟩ := map_eq_some_iff.mp h
    obtain ⟨j, hj, hdone, rfl⟩ := JobQueue.remove_eq_some hq
    exact .removeJob hj hdone

theorem newRow_rows {id' : Uuid} (hnone : s.events id' = none) (now : ℕ) (input : OutboxInput)
    (id : Uuid) :
    s.events.set id' (newRow now input) id = s.events id ∨
      (s.events id = none ∧ ∃ row, s.events.set id' (newRow now input) id = some row ∧
        row.status = .pending ∧ row.deliveryGeneration = 0) := by
  by_cases hid : id = id'
  · subst hid
    exact .inr ⟨hnone, _, Table.set_self, rfl, rfl⟩
  · exact .inl (Table.set_of_ne hid)

/-- What happens outside the programs keeps every row; a new row is pending in generation 0. -/
theorem event_rows {e : Event} (h : event cfg s e = some s') (id : Uuid) :
    s'.events id = s.events id ∨
      (s.events id = none ∧ ∃ row, s'.events id = some row ∧ row.status = .pending ∧
        row.deliveryGeneration = 0) := by
  cases event_step h with
  | addOutboxEvent hnone => exact newRow_rows hnone _ _ id
  | storeStripeEvent input _ hnone => exact newRow_rows hnone _ input id
  | tick | emailProviderEvent | stall | removeJob => exact .inl rfl

/-- What happens outside the programs takes the clock forward and writes no audit event. -/
theorem event_frame {e : Event} (h : event cfg s e = some s') :
    s.now ≤ s'.now ∧ s'.auditEvents = s.auditEvents := by
  cases event_step h with
  | tick ms => exact ⟨Nat.le_add_right _ _, rfl⟩
  | addOutboxEvent | storeStripeEvent | emailProviderEvent | stall | removeJob =>
    exact ⟨le_rfl, rfl⟩

end BackendFoundation.Outbox.Lifecycle
