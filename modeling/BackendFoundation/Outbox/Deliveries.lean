import BackendFoundation.Outbox.Safety

/-! # Delivery rows and provider calls

The delivery row of an event is written by the workers of the event and by the email webhook.
`DeliveryWrite` lists the three writes of a worker; `step_deliveries` and `event_deliveries` say
which rows a step can write, and `step_calls` says which step calls a provider. The results about
recorded deliveries are proved from these three lemmas. -/

namespace BackendFoundation.Outbox.Deliveries

open Lib Lib.Runs Errors Outbox.Model Outbox.Programs Outbox.Lifecycle Outbox.Safety
open Option (some.inj map_eq_some_iff)

variable {cfg : Config} {s s' : OutboxState}

/-! ### Recorded and handled events -/

/-- The delivery row of the event counts as recorded: `recordDeliveryStarted` would answer
`ALREADY_RECORDED`. -/
def Recorded (s : OutboxState) (id : Uuid) : Prop := ∃ d ∈ s.findDelivery id, d.status.Recorded

instance (s : OutboxState) (id : Uuid) : Decidable (Recorded s id) :=
  inferInstanceAs (Decidable (∃ d ∈ s.findDelivery id, _))

theorem recorded_iff {id : Uuid} :
    Recorded s id ↔ ∃ d, s.deliveries id = some d ∧ d.deletedAt = none ∧ d.status.Recorded := by
  unfold Recorded OutboxState.findDelivery
  constructor
  · rintro ⟨d, hd, hrec⟩
    obtain ⟨hd, hlive⟩ := Option.filter_eq_some_iff.mp hd
    exact ⟨d, hd, of_decide_eq_true hlive, hrec⟩
  · rintro ⟨d, hd, hlive, hrec⟩
    exact ⟨d, Option.filter_eq_some_iff.mpr ⟨hd, decide_eq_true hlive⟩, hrec⟩

theorem recorded_congr {id : Uuid} (h : s'.deliveries id = s.deliveries id) :
    Recorded s' id ↔ Recorded s id := by
  rw [recorded_iff, recorded_iff, h]

/-- The provider or the internal handler was called for this very event and returned `sent` or
`suppressed`. -/
def Handled (s : OutboxState) (id : Uuid) : Prop :=
  ∃ call ∈ s.calls, call.outboxId = id ∧ call.returned ≠ none

instance (s : OutboxState) (id : Uuid) : Decidable (Handled s id) :=
  inferInstanceAs (Decidable (∃ call ∈ s.calls, _))

/-- How often a provider or the internal handler was called for the event. -/
def providerCalls (s : OutboxState) (id : Uuid) : ℕ := s.calls.countP fun c => c.outboxId = id

/-! ### The writes of a worker -/

inductive DeliveryWrite
  | started
  | result
  | error

/-- What a write makes of the delivery row, if there is one. -/
def DeliveryWrite.Does : DeliveryWrite → Option NotificationDelivery → NotificationDelivery → Prop
  | started, old, d' =>
    d'.status = .processing ∧ d'.providerMessageId = old.bind (·.providerMessageId)
  | result, old, d' => (∃ d, old = some d) ∧ d'.deletedAt = none ∧ d'.status.Recorded
  | error, old, d' =>
    ∃ d, old = some d ∧ d'.status = .failed ∧ d'.providerMessageId = d.providerMessageId

/-- The write of a worker at a program point. -/
def workerDelivery : WorkerPc → Option DeliveryWrite
  | .upsertDelivery _ => some .started
  | .recordResult _ _ => some .result
  | .recordError _ _ => some .error
  | _ => none

/-- The delivery rows stay as they were, or a worker makes the write of its program point on the
row of its event. -/
def DeliveriesStep (job : Job NotificationJobData) (pc : WorkerPc) (o : Outcome Thrown)
    (s s' : OutboxState) : Prop :=
  s'.deliveries = s.deliveries ∨ ∃ wr d', workerDelivery pc = some wr ∧ o.TakesEffect ∧
    wr.Does (s.deliveries job.data.outboxId) d' ∧
    s'.deliveries = s.deliveries.set job.data.outboxId d'

theorem upsertDelivery_deliveries {R : Crypto.Runtime} {K : Crypto.Keyring} {id : Uuid}
    {event : OutboxEvent} : ∃ d', DeliveryWrite.started.Does (s.deliveries id) d' ∧
      (s.upsertDelivery R K id event).deliveries = s.deliveries.set id d' := by
  unfold OutboxState.upsertDelivery
  split
  · next hnone => exact ⟨_, ⟨rfl, by rw [hnone]; rfl⟩, rfl⟩
  · next d hd => exact ⟨_, ⟨rfl, by rw [hd]; rfl⟩, rfl⟩

theorem recordDeliveryResult_deliveries {id : Uuid} {result : ProviderDeliveryResult} :
    (s.recordDeliveryResult id result).1.deliveries = s.deliveries ∨
      ∃ d', DeliveryWrite.result.Does (s.deliveries id) d' ∧
        (s.recordDeliveryResult id result).1.deliveries = s.deliveries.set id d' := by
  unfold OutboxState.recordDeliveryResult
  rcases s.deliveries.updateWhere_cases id (fun row => row.deletedAt = none) (fun row =>
    { row with
      status := if result.status = .suppressed then .suppressed else .sent
      provider := some result.provider
      providerMessageId := result.messageId.or row.providerMessageId
      templateKey := result.templateKey.or row.templateKey
      sentAt := if result.status = .sent then some s.now else none
      lastError := none }) with ⟨d, hd, hlive, he⟩ | ⟨-, he⟩
  · refine .inr ⟨_, ⟨⟨d, hd⟩, ?_, ?_⟩, congrArg Prod.fst he⟩
    · exact hlive
    · simp only []
      split_ifs <;> trivial
  · exact .inl (congrArg Prod.fst he)

theorem recordDeliveryError_deliveries {id : Uuid} {error : Thrown} :
    (s.recordDeliveryError id error).deliveries = s.deliveries ∨
      ∃ d', DeliveryWrite.error.Does (s.deliveries id) d' ∧
        (s.recordDeliveryError id error).deliveries = s.deliveries.set id d' := by
  unfold OutboxState.recordDeliveryError
  rcases s.deliveries.updateWhere_cases id (fun row => row.deletedAt = none) (fun row =>
    { row with
      status := .failed
      lastError := some (error.messageOr "Unknown worker error") }) with ⟨d, hd, -, he⟩ | ⟨-, he⟩
  · refine .inr ⟨_, ⟨d, hd, ?_, ?_⟩, congrArg Prod.fst he⟩
    · rfl
    · rfl
  · exact .inl (congrArg Prod.fst he)

theorem recordDeliveryFailure_deliveries {id : Uuid} {event : OutboxEvent} {generation : ℕ}
    {error : Thrown} {disposition : DeliveryFailureDisposition} :
    (s.recordDeliveryFailure id event generation error disposition).deliveries = s.deliveries ∧
      (s.recordDeliveryFailure id event generation error disposition).calls = s.calls := by
  obtain ⟨message, t, he⟩ := recordDeliveryFailure_eq s id event generation error disposition
  rw [he]
  exact ⟨rfl, rfl⟩

variable {o : Outcome Thrown}

theorem deliveries_of_run {t t' : OutboxState} {P : Type} {p q : P} {f : Thrown → P}
    (ht : t.deliveries = s.deliveries ∧ t.calls = s.calls) (hr : o.run s t p f = (t', q)) :
    t'.deliveries = s.deliveries ∧ t'.calls = s.calls := by
  rcases Outcome.run_effect hr with rfl | ⟨-, rfl⟩
  · exact ⟨rfl, rfl⟩
  · exact ht

/-- A call of a provider: it keeps the delivery rows, it is logged, and the worker goes on with
what it returned. -/
def Called (s : OutboxState) (id : Uuid) (event : OutboxEvent) (r : OutboxState × WorkerPc) :
    Prop :=
  r.1.deliveries = s.deliveries ∧ ∃ call : ProviderCall, call.outboxId = id ∧
    r.1.calls = s.calls ++ [call] ∧
    ((∃ delivery, r.2 = .recordResult event delivery ∧ call.returned = some delivery.status) ∨
      ∃ error, r.2 = .recordError event error)

variable {t : OutboxState}

theorem called_returned (id : Uuid) (event : OutboxEvent) (channel : NotificationChannel)
    (delivery : ProviderDeliveryResult) (ht : t.deliveries = s.deliveries ∧ t.calls = s.calls) :
    Called s id event
      (t.logCall id channel (some delivery.status), .recordResult event delivery) := by
  refine ⟨ht.1, ⟨id, channel, some delivery.status⟩, rfl, ?_, .inl ⟨delivery, rfl, rfl⟩⟩
  simp only [OutboxState.logCall, ht.2]

theorem called_threw (id : Uuid) (event : OutboxEvent) (channel : NotificationChannel)
    (error : Thrown) (ht : t.deliveries = s.deliveries ∧ t.calls = s.calls) :
    Called s id event (t.logCall id channel none, .recordError event error) := by
  refine ⟨ht.1, ⟨id, channel, none⟩, rfl, ?_, .inr ⟨error, rfl⟩⟩
  simp only [OutboxState.logCall, ht.2]

theorem callProvider_called (cfg : Config) (s : OutboxState) (id : Uuid) (event : OutboxEvent)
    (c : Choice) : Called s id event (callProvider cfg s id event c) := by
  unfold callProvider
  split
  · split
    · exact called_threw id event _ _ ⟨rfl, rfl⟩
    · split
      · exact called_returned id event _ ⟨.sent, "internal", none, none⟩ ⟨rfl, rfl⟩
      · exact called_threw id event _ _ ⟨rfl, rfl⟩
      · exact called_threw id event _ _ ⟨rfl, rfl⟩
    · simp only []
      split
      · split_ifs
        · exact called_returned id event _ ⟨.sent, "internal", none, none⟩ ⟨rfl, rfl⟩
        · exact called_threw id event _ _ ⟨rfl, rfl⟩
      · exact called_threw id event _ _ ⟨rfl, rfl⟩
      · exact called_threw id event _ _ ⟨rfl, rfl⟩
  · split
    · exact called_returned id event _ _ ⟨rfl, rfl⟩
    · exact called_threw id event _ _ ⟨rfl, rfl⟩

/-- What one step of a worker does to the delivery rows and to the log of calls. -/
structure WorkerStep (job : Job NotificationJobData) (pc : WorkerPc) (o : Outcome Thrown)
    (s s' : OutboxState) : Prop where
  deliveries : DeliveriesStep job pc o s s'
  calls : s'.calls = s.calls ∨ ∃ event call, pc = .callProvider event ∧
    call.outboxId = job.data.outboxId ∧ s'.calls = s.calls ++ [call]

variable {job : Job NotificationJobData}

theorem WorkerStep.of_keeps {pc : WorkerPc}
    (h : s'.deliveries = s.deliveries ∧ s'.calls = s.calls) : WorkerStep job pc o s s' :=
  ⟨.inl h.1, .inl h.2⟩

theorem WorkerStep.of_write {pc pc' p : WorkerPc} {f : Thrown → WorkerPc} {wr : DeliveryWrite}
    (hpc : workerDelivery pc = some wr)
    (ht : t.deliveries = s.deliveries ∨ ∃ d', wr.Does (s.deliveries job.data.outboxId) d' ∧
      t.deliveries = s.deliveries.set job.data.outboxId d') (hc : t.calls = s.calls)
    (hr : o.run s t p f = (s', pc')) : WorkerStep job pc o s s' := by
  rcases Outcome.run_effect hr with rfl | ⟨ho, rfl⟩
  · exact .of_keeps ⟨rfl, rfl⟩
  · refine ⟨?_, .inl hc⟩
    rcases ht with ht | ⟨d', hd, ht⟩
    · exact .inl ht
    · exact .inr ⟨wr, d', hpc, ho, hd, ht⟩

variable {c : Choice}

theorem processNotification_deliveries {pc pc' : WorkerPc}
    (h : processNotification cfg s job pc c = some (s', pc')) :
    WorkerStep job pc c.outcome s s' := by
  unfold processNotification at h
  cases pc with
  | upsertDelivery event =>
    obtain ⟨d', hd, he⟩ := upsertDelivery_deliveries (s := s) (R := cfg.runtime) (K := cfg.keyring)
    refine WorkerStep.of_write rfl (.inr ⟨d', hd, he⟩) ?_ (some.inj h)
    unfold OutboxState.upsertDelivery
    split <;> rfl
  | recordResult event delivery =>
    exact WorkerStep.of_write rfl recordDeliveryResult_deliveries rfl (some.inj h)
  | recordError event error =>
    exact WorkerStep.of_write rfl recordDeliveryError_deliveries rfl (some.inj h)
  | callProvider event =>
    have hcalled := callProvider_called cfg s job.data.outboxId event c
    rw [some.inj h] at hcalled
    obtain ⟨hd, call, hid, hcalls, -⟩ := hcalled
    exact ⟨.inl hd, .inr ⟨event, call, rfl, hid, hcalls⟩⟩
  | recordFailure event error =>
    refine WorkerStep.of_keeps (deliveries_of_run ?_ (some.inj h))
    exact recordDeliveryFailure_deliveries
  | returned => cases h
  | thrown error => cases h
  | _ =>
    refine WorkerStep.of_keeps (deliveries_of_run ?_ (some.inj h))
    exact ⟨rfl, rfl⟩

/-! ### The way of a worker through its message -/

/-- The worker has read a delivery row that records no success, and has yet to call the provider. -/
def Sends : WorkerPc → Prop
  | .upsertDelivery _ | .rateLimit _ | .callProvider _ => True
  | _ => False

instance : DecidablePred Sends := fun pc => by
  unfold Sends
  split <;> infer_instance

/-- The worker has read a record, or its call has returned, and it has yet to finish the event. -/
def Finishes : WorkerPc → Prop
  | .finishRecorded _ | .recordResult _ _ | .deliver _ => True
  | _ => False

instance : DecidablePred Finishes := fun pc => by
  unfold Finishes
  split <;> infer_instance

inductive Follows (s s' : OutboxState) (id : Uuid) : WorkerPc → WorkerPc → Prop
  | alreadyRecorded {event : OutboxEvent} : Recorded s id →
      Follows s s' id (.findDelivery event) (.finishRecorded event)
  | send {event : OutboxEvent} : ¬ Recorded s id →
      Follows s s' id (.findDelivery event) (.upsertDelivery event)
  | sends {pc pc' : WorkerPc} : Sends pc → ¬ Finishes pc' → Follows s s' id pc pc'
  | returned {event : OutboxEvent} {delivery : ProviderDeliveryResult} : Handled s' id →
      Follows s s' id (.callProvider event) (.recordResult event delivery)
  | resultRecorded {event : OutboxEvent} {delivery : ProviderDeliveryResult} :
      Follows s s' id (.recordResult event delivery) (.deliver event)
  | leaves {pc pc' : WorkerPc} : ¬ Sends pc' → ¬ Finishes pc' → Follows s s' id pc pc'

theorem processNotification_follows {pc pc' : WorkerPc}
    (h : processNotification cfg s job pc c = some (s', pc')) :
    Follows s s' job.data.outboxId pc pc' := by
  unfold processNotification at h
  cases pc with
  | findEvent =>
    obtain ⟨-, ⟨-, rfl⟩ | ⟨e, -, rfl⟩⟩ := Outcome.read_cases (some.inj h)
    · split
      · exact .leaves id id
      · split_ifs <;> exact .leaves id id
    · exact .leaves id id
  | findDelivery event =>
    obtain ⟨-, ⟨-, rfl⟩ | ⟨e, -, rfl⟩⟩ := Outcome.read_cases (some.inj h)
    · split_ifs with hread
      · obtain ⟨d, hd, hrec⟩ := (Option.any_eq_true _ _).mp hread
        exact .alreadyRecorded ⟨d, hd, of_decide_eq_true hrec⟩
      · refine .send fun ⟨d, hd, hrec⟩ => hread ?_
        rw [Option.mem_def.mp hd, Option.any_some]
        exact decide_eq_true hrec
    · exact .leaves id id
  | upsertDelivery event =>
    rcases Outcome.run_cases (some.inj h) with ⟨-, -, rfl⟩ | ⟨e, -, -, rfl⟩ | ⟨e, -, -, rfl⟩
    · unfold sendPc
      split <;> exact .sends trivial id
    · exact .leaves id id
    · exact .leaves id id
  | rateLimit event =>
    obtain ⟨-, ⟨-, rfl⟩ | ⟨e, -, rfl⟩⟩ := Outcome.read_cases (some.inj h)
    · exact .sends trivial id
    · exact .leaves id id
  | callProvider event =>
    have hcalled := callProvider_called cfg s job.data.outboxId event c
    rw [some.inj h] at hcalled
    obtain ⟨-, call, hid, hcalls, ⟨delivery, hpc, hret⟩ | ⟨error, hpc⟩⟩ := hcalled
    · rw [show pc' = .recordResult event delivery from hpc]
      refine .returned ⟨call, ?_, hid, ?_⟩
      · rw [show s'.calls = s.calls ++ [call] from hcalls]
        exact List.mem_append_right _ (List.mem_singleton.mpr rfl)
      · rw [hret]
        exact Option.some_ne_none _
    · rw [show pc' = .recordError event error from hpc]
      exact .leaves id id
  | recordResult event delivery =>
    rcases Outcome.run_cases (some.inj h) with ⟨-, -, rfl⟩ | ⟨e, -, -, rfl⟩ | ⟨e, -, -, rfl⟩
    · split_ifs
      · exact .leaves id id
      · exact .resultRecorded
    · exact .leaves id id
    · exact .leaves id id
  | returned => cases h
  | thrown error => cases h
  | start event | deliver event =>
    rcases Outcome.run_cases (some.inj h) with ⟨-, -, rfl⟩ | ⟨e, -, -, rfl⟩ | ⟨e, -, -, rfl⟩
    · split_ifs <;> exact .leaves id id
    · exact .leaves id id
    · exact .leaves id id
  | expire event | finishRecorded event | recordError event error | recordFailure event error =>
    rcases Outcome.run_cases (some.inj h) with ⟨-, -, rfl⟩ | ⟨e, -, -, rfl⟩ |
      ⟨e, -, -, rfl⟩ <;> exact .leaves id id

/-! ### The other steps -/

theorem relayStep_deliveries {pid : ℕ} {pc pc' : RelayPc}
    (h : relayStep s pid pc c = some (s', pc')) :
    s'.deliveries = s.deliveries ∧ s'.calls = s.calls := by
  unfold relayStep at h
  split at h
  · split_ifs at h
    refine deliveries_of_run ?_ (some.inj h)
    exact ⟨rfl, rfl⟩
  · split at h
    · next t ht =>
      obtain ⟨⟨s₁, t'⟩, hs, he⟩ := map_eq_some_iff.mp h
      cases he
      unfold enqueueClaimedEvent at hs
      split at hs
      · split_ifs at hs
        · cases hs
          exact ⟨rfl, rfl⟩
        · refine deliveries_of_run ?_ (some.inj hs)
          exact ⟨rfl, rfl⟩
      · refine deliveries_of_run ?_ (some.inj hs)
        exact ⟨rfl, rfl⟩
      · refine deliveries_of_run ?_ (some.inj hs)
        exact ⟨rfl, rfl⟩
      · cases hs
      · cases hs
    · cases h
  · cases h

theorem reconcileExhaustedJob_deliveries {r r' : Reconcile}
    (h : reconcileExhaustedJob s r c = some (s', r')) :
    s'.deliveries = s.deliveries ∧ s'.calls = s.calls := by
  unfold reconcileExhaustedJob at h
  simp only [] at h
  split at h
  · split_ifs at h
    · refine deliveries_of_run ?_ (some.inj h)
      exact ⟨rfl, rfl⟩
    · cases h
      exact ⟨rfl, rfl⟩
  · exact deliveries_of_run recordDeliveryFailure_deliveries (some.inj h)
  · cases h

theorem redriveStep_deliveries {pc pc' : RedrivePc} (h : redriveStep s pc c = some (s', pc')) :
    s'.deliveries = s.deliveries ∧ s'.calls = s.calls := by
  unfold redriveStep at h
  split at h
  · refine deliveries_of_run ?_ (some.inj h)
    exact ⟨rfl, rfl⟩
  · split_ifs at h
    · cases h
      exact ⟨rfl, rfl⟩
    · refine deliveries_of_run ?_ (some.inj h)
      exact ⟨rfl, rfl⟩
  · cases h
  · cases h

/-- **Delivery rows and calls under a step.** Only a worker that goes on with its job touches
them. -/
theorem step_deliveries {pid : ℕ} {p p' : Proc} (h : step cfg s pid p c = some (s', p')) :
    (s'.deliveries = s.deliveries ∧ s'.calls = s.calls ∧
        ∀ jid job pc', p' ≠ .worker jid job pc') ∨
      ∃ jid job pc pc', p = .worker jid job pc ∧ p' = .worker jid job pc' ∧
        processNotification cfg s job pc c = some (s', pc') ∧
        WorkerStep job pc c.outcome s s' := by
  cases p with
  | relay pc =>
    obtain ⟨pc', hs, rfl⟩ := map_pair_inj h
    have hkeep := relayStep_deliveries hs
    exact .inl ⟨hkeep.1, hkeep.2, fun _ _ _ => Proc.noConfusion⟩
  | worker jid job pc =>
    rcases step_worker h with ⟨pc', rfl, hs⟩ | hs
    · exact .inr ⟨jid, job, pc, pc', rfl, rfl, hs, processNotification_deliveries hs⟩
    · left
      rcases settleJob_cases hs with ⟨-, rfl, rfl⟩ | ⟨e, -, ⟨j, -, -, rfl, rfl⟩ | ⟨-, rfl, rfl⟩⟩
      · exact ⟨rfl, rfl, fun _ _ _ => Proc.noConfusion⟩
      · exact ⟨rfl, rfl, fun _ _ _ => Proc.noConfusion⟩
      · exact ⟨rfl, rfl, fun _ _ _ => Proc.noConfusion⟩
  | reconcile jid r =>
    obtain ⟨r', hs, rfl⟩ := map_pair_inj h
    have hkeep := reconcileExhaustedJob_deliveries hs
    exact .inl ⟨hkeep.1, hkeep.2, fun _ _ _ => Proc.noConfusion⟩
  | redrive pc =>
    obtain ⟨pc', hs, rfl⟩ := map_pair_inj h
    have hkeep := redriveStep_deliveries hs
    exact .inl ⟨hkeep.1, hkeep.2, fun _ _ _ => Proc.noConfusion⟩
  | finished => cases h

theorem start_deliveries {pid : ℕ} {x : Start} {p : Proc}
    (h : start cfg s pid x = some (s', p)) :
    s'.deliveries = s.deliveries ∧ s'.calls = s.calls ∧
      ∀ jid job pc, p = .worker jid job pc → pc = .findEvent := by
  unfold start at h
  split at h
  · cases h
    exact ⟨rfl, rfl, fun _ _ _ => Proc.noConfusion⟩
  · obtain ⟨r, -, he⟩ := map_eq_some_iff.mp h
    cases he
    refine ⟨rfl, rfl, ?_⟩
    rintro jid job pc ⟨⟩
    rfl
  · obtain ⟨r, -, he⟩ := map_eq_some_iff.mp h
    cases he
    exact ⟨rfl, rfl, fun _ _ _ => Proc.noConfusion⟩
  · cases h
    exact ⟨rfl, rfl, fun _ _ _ => Proc.noConfusion⟩

theorem feedback_row {R : Crypto.Runtime} {K : Crypto.Keyring} {ev : EmailEvent} {id : Uuid}
    {d : NotificationDelivery} (hd : s.deliveries id = some d) (hm : ev.Matches R K d) :
    (s.processEmailProviderEvent R K ev).deliveries id = some
      { d with
        status := ev.type.status
        provider := some ev.provider
        deliveredAt := if ev.type = .delivered then some s.now else none } := by
  simp only [OutboxState.processEmailProviderEvent, Table.updateAll, hd, hm, if_true,
    Option.map_some]

/-- **Delivery rows under what happens outside the programs.** Only email feedback touches them. -/
theorem event_deliveries {e : Event} (h : event cfg s e = some s') :
    s'.calls = s.calls ∧ ∀ id, s'.deliveries id = s.deliveries id ∨
      ∃ ev d d', e = .emailProviderEvent ev ∧ s.deliveries id = some d ∧
        ev.Matches cfg.runtime cfg.keyring d ∧ s'.deliveries id = some d' ∧
        d'.deletedAt = none ∧ d'.status.Recorded ∧
        d'.providerMessageId = d.providerMessageId := by
  cases event_step h with
  | emailProviderEvent ev =>
    refine ⟨rfl, fun id => ?_⟩
    cases hd : s.deliveries id with
    | none =>
      left
      simp [OutboxState.processEmailProviderEvent, Table.updateAll, hd]
    | some d =>
      by_cases hm : ev.Matches cfg.runtime cfg.keyring d
      · refine .inr ⟨ev, d, _, rfl, rfl, hm, feedback_row hd hm, hm.1, ?_, rfl⟩
        simp only []
        cases ev.type <;> trivial
      · left
        simp [OutboxState.processEmailProviderEvent, Table.updateAll, hd, hm]
  | tick | addOutboxEvent | storeStripeEvent | stall | removeJob =>
    exact ⟨rfl, fun id => .inl rfl⟩

/-! ### Rows under a write of a worker -/

theorem not_recorded_of_does {id : Uuid} {wr : DeliveryWrite} {d' : NotificationDelivery}
    (hd : wr.Does (s.deliveries id) d') (hwr : wr ≠ .result)
    (he : s'.deliveries = s.deliveries.set id d') : ¬ Recorded s' id := by
  rw [recorded_iff]
  rintro ⟨d, hr, -, hrec⟩
  rw [he, Table.set_self] at hr
  obtain rfl := some.inj hr
  cases wr with
  | started =>
    rw [hd.1] at hrec
    exact hrec
  | error =>
    obtain ⟨-, -, hst, -⟩ := hd
    rw [hst] at hrec
    exact hrec
  | result => exact hwr rfl

theorem recorded_of_result {id : Uuid} {d' : NotificationDelivery}
    (hd : DeliveryWrite.result.Does (s.deliveries id) d')
    (he : s'.deliveries = s.deliveries.set id d') : Recorded s' id := by
  rw [recorded_iff]
  exact ⟨d', by rw [he, Table.set_self], hd.2⟩

end BackendFoundation.Outbox.Deliveries
