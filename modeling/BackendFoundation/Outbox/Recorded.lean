import BackendFoundation.Outbox.Deliveries

/-! # Recorded deliveries: no second call, no delivery without a call

A delivery row that records a success is meant to keep every later attempt from sending the message
again, and an event is meant to be `DELIVERED` only after its own message was handled. Neither holds
on the outbox as it stands.

* `second_call` is a run in which the update to `DELIVERED` fails after the success was recorded; the
  `catch` block overwrites the record with `FAILED`, and the retry calls the provider again.
  `KeepsRecord` excludes the steps that overwrite a record or set one behind the back of a worker that
  has read the row already; `no_second_call` holds in every run without them.
* `delivered_unhandled` is a run in which feedback about one message marks the row of another message
  to the same address, whose event is then `DELIVERED` without a call. `FeedbackByMessageId` asks that
  feedback selects a row that is not recorded yet only by message id; `delivered_means_handled` holds
  in every run of such feedback. -/

namespace BackendFoundation.Outbox.Recorded

open Lib Lib.Runs Lib.Interleave Errors Outbox.Model Outbox.Programs Outbox.Lifecycle
open Outbox.Deliveries

variable {cfg : Config} {s s' : OutboxState} {w w' : OutboxWorld} {id : Uuid}

/-! ### No second provider call -/

/-- The event whose message a worker is about to send. -/
def sendingId : Proc → Option Uuid
  | .worker _ job pc => if Sends pc then some job.data.outboxId else none
  | _ => none

/-- Some worker is about to send the message of the event. -/
def Sending (w : OutboxWorld) (id : Uuid) : Prop := w.Any fun p => sendingId p = some id

instance (w : OutboxWorld) (id : Uuid) : Decidable (Sending w id) :=
  inferInstanceAs (Decidable (w.Any _))

/-- **The steps that keep a record.** The `catch` block overwrites no record of a success, and a
success is recorded, by a worker or by feedback, only while no worker is about to send the message. -/
def KeepsRecord (cfg : Config) (w : OutboxWorld) : OutboxLabel → Prop
  | .step i c =>
    match w.proc? i with
    | some (.worker _ job (.recordResult _ _)) => c.outcome.TakesEffect →
      Recorded w.shared job.data.outboxId ∨ ¬ Sending w job.data.outboxId
    | some (.worker _ job (.recordError _ _)) => c.outcome.TakesEffect →
      ¬ Recorded w.shared job.data.outboxId
    | _ => True
  | .env (.emailProviderEvent e) =>
    ¬ w.Any fun p => ∃ id ∈ sendingId p, ∃ d ∈ w.shared.deliveries id,
      e.Matches cfg.runtime cfg.keyring d ∧ ¬ d.status.Recorded
  | _ => True

instance (p : Option Proc) (atResult atError : Job NotificationJobData → Prop)
    [DecidablePred atResult] [DecidablePred atError] :
    Decidable (match p with
      | some (.worker _ job (.recordResult _ _)) => atResult job
      | some (.worker _ job (.recordError _ _)) => atError job
      | _ => True) := by
  split <;> infer_instance

instance (cfg : Config) (w : OutboxWorld) (l : OutboxLabel) : Decidable (KeepsRecord cfg w l) :=
  match l with
  | .step i c =>
    inferInstanceAs (Decidable (match w.proc? i with
      | some (.worker _ job (.recordResult _ _)) => c.outcome.TakesEffect →
        Recorded w.shared job.data.outboxId ∨ ¬ Sending w job.data.outboxId
      | some (.worker _ job (.recordError _ _)) => c.outcome.TakesEffect →
        ¬ Recorded w.shared job.data.outboxId
      | _ => True))
  | .env (.emailProviderEvent _) => inferInstanceAs (Decidable (¬ _))
  | .env (.tick _) | .env (.addOutboxEvent _ _) | .env (.storeStripeEvent _ _ _)
  | .env (.stall _) | .env (.removeJob _) | .spawn _ | .crash _ => instDecidableTrue

variable {job : Job NotificationJobData}

theorem sendingId_worker {jid : JobId} {pc : WorkerPc} :
    sendingId (.worker jid job pc) = some id ↔ Sends pc ∧ job.data.outboxId = id := by
  simp only [sendingId, Option.ite_none_right_eq_some, Option.some.injEq]

/-- No worker is about to send a message whose success is recorded. -/
def sendsUnrecorded : Assertions OutboxState Proc where
  shared _ := True
  proc _ p s := ∀ id, sendingId p = some id → ¬ Recorded s id

variable {i : ℕ} {p p' : Proc} {c : Choice}

/-- A step that keeps records sets none behind the back of a worker that is about to send. -/
theorem not_recorded_step (hg : KeepsRecord cfg w (.step i c)) (hi : w.proc? i = some p)
    (hs : step cfg w.shared i p c = some (s', p')) (hsend : Sending w id)
    (hnot : ¬ Recorded w.shared id) : ¬ Recorded s' id := by
  rcases step_deliveries hs with ⟨hd, -, -⟩ | ⟨jid, job, pc, pc', rfl, rfl, -, hws⟩
  · rwa [recorded_congr (congrFun hd id)]
  rcases hws.deliveries with hd | ⟨wr, d', hpc, ho, hd, he⟩
  · rwa [recorded_congr (congrFun hd id)]
  by_cases hid : id = job.data.outboxId
  · subst hid
    by_cases hwr : wr = .result
    · subst hwr
      obtain ⟨event, delivery, rfl⟩ : ∃ event delivery, pc = .recordResult event delivery := by
        cases pc <;> simp [workerDelivery] at hpc ⊢
      simp only [KeepsRecord, hi] at hg
      rcases hg ho with hrec | hno
      · exact absurd hrec hnot
      · exact absurd hsend hno
    · exact not_recorded_of_does hd hwr he
  · have hrow : s'.deliveries id = w.shared.deliveries id := by rw [he, Table.set_of_ne hid]
    rwa [recorded_congr hrow]

theorem sendsUnrecordedOutline : Outline (outbox cfg) (KeepsRecord cfg) sendsUnrecorded where
  init := trivial
  env w e s h hg hs := by
    refine ⟨trivial, fun j q hq id hid => ?_⟩
    have hnot := h.proc j q hq id hid
    rcases (event_deliveries hs).2 id with hd | ⟨ev, d, d', rfl, hd, hm, -, -, -, -⟩
    · rwa [recorded_congr hd]
    · -- feedback that made this row recorded is what `KeepsRecord` excludes
      have hrec : d.status.Recorded := by
        by_contra hrec
        exact hg ⟨j, q, hq, id, hid, d, hd, hm, hrec⟩
      exact absurd (recorded_iff.mpr ⟨d, hd, hm.1, hrec⟩) hnot
  spawn w x s p h _ hs := by
    obtain ⟨hd, -, hp⟩ := start_deliveries hs
    refine ⟨trivial, fun id hid => ?_, fun j q hq => ⟨fun id hid => ?_, trivial, trivial⟩⟩
    · cases p with
      | worker jid job pc =>
        rw [hp jid job pc rfl] at hid
        exact absurd (sendingId_worker.mp hid).1 not_false
      | _ => cases hid
    · rw [recorded_congr (congrFun hd id)]
      exact h.proc j q hq id hid
  step w i p c s' p' h hi hg hs := by
    refine ⟨trivial, fun id hid => ?_⟩
    rcases step_deliveries hs with ⟨-, -, hno⟩ | ⟨jid, job, pc, pc', rfl, rfl, hproc, hws⟩
    · cases p' with
      | worker jid job pc => exact absurd rfl (hno jid job pc)
      | _ => cases hid
    obtain ⟨hsends, rfl⟩ := sendingId_worker.mp hid
    cases processNotification_follows hproc with
    | send hnot =>
      -- the read of the delivery row writes none
      rcases hws.deliveries with hd | ⟨wr, d', hpc, -⟩
      · rwa [recorded_congr (congrFun hd _)]
      · cases hpc
    | sends hbefore _ =>
      have hbefore : sendingId (.worker jid job pc) = some job.data.outboxId :=
        sendingId_worker.mpr ⟨hbefore, rfl⟩
      exact not_recorded_step hg hi hs ⟨i, _, hi, hbefore⟩ (h.proc i _ hi _ hbefore)
    | leaves hno _ => exact absurd hsends hno
    | _ => exact hsends.elim
  frame w i p c s' p' h hi hg hs j q _ hq :=
    ⟨fun id hid => not_recorded_step hg hi hs ⟨j, q, hq, hid⟩ (h.proc j q hq id hid), trivial, trivial⟩

theorem not_sending_of_recorded (h : sendsUnrecorded.Holds w) (hrec : Recorded w.shared id) :
    ¬ Sending w id := by
  rintro ⟨j, q, hq, hid⟩
  exact h.proc j q hq id hid hrec

/-- A step that keeps records keeps this record, and calls no provider for its event. -/
theorem recorded_step (h : sendsUnrecorded.Holds w) (hg : KeepsRecord cfg w (.step i c))
    (hi : w.proc? i = some p) (hs : step cfg w.shared i p c = some (s', p'))
    (hrec : Recorded w.shared id) :
    Recorded s' id ∧ providerCalls s' id = providerCalls w.shared id := by
  have hno := not_sending_of_recorded h hrec
  rcases step_deliveries hs with ⟨hd, hc, -⟩ | ⟨jid, job, pc, pc', rfl, rfl, -, hws⟩
  · refine ⟨(recorded_congr (congrFun hd id)).mpr hrec, ?_⟩
    rw [providerCalls, hc, providerCalls]
  constructor
  · rcases hws.deliveries with hd | ⟨wr, d', hpc, ho, hd, he⟩
    · exact (recorded_congr (congrFun hd id)).mpr hrec
    by_cases hid : id = job.data.outboxId
    · subst hid
      cases pc with
      | upsertDelivery event => exact absurd ⟨i, _, hi, sendingId_worker.mpr ⟨trivial, rfl⟩⟩ hno
      | recordResult event delivery =>
        obtain rfl := Option.some.inj hpc
        exact recorded_of_result hd he
      | recordError event error =>
        simp only [KeepsRecord, hi] at hg
        exact absurd hrec (hg ho)
      | _ => cases hpc
    · exact (recorded_congr (by rw [he, Table.set_of_ne hid])).mpr hrec
  · rcases hws.calls with hc | ⟨event, call, rfl, hcall, hc⟩
    · rw [providerCalls, hc, providerCalls]
    · have hid : call.outboxId ≠ id := by
        rintro rfl
        exact hno ⟨i, _, hi, sendingId_worker.mpr ⟨trivial, hcall.symm⟩⟩
      simp only [providerCalls, hc, List.countP_append, List.countP_singleton, hid, decide_false,
        Bool.false_eq_true, if_false, Nat.add_zero]

theorem recorded_event {e : Event} (hs : event cfg s e = some s') (hrec : Recorded s id) :
    Recorded s' id ∧ providerCalls s' id = providerCalls s id := by
  obtain ⟨hc, hd⟩ := event_deliveries hs
  constructor
  · rcases hd id with hd | ⟨ev, d, d', -, -, -, hd', hlive, hrec', -⟩
    · exact (recorded_congr hd).mpr hrec
    · exact recorded_iff.mpr ⟨d', hd', hlive, hrec'⟩
  · rw [providerCalls, hc, providerCalls]

theorem recorded_next {l : OutboxLabel} (h : sendsUnrecorded.Holds w) (hg : KeepsRecord cfg w l)
    (hn : (outbox cfg).next w l = some w') (hrec : Recorded w.shared id) :
    Recorded w'.shared id ∧ providerCalls w'.shared id = providerCalls w.shared id := by
  cases Program.move_of_next hn with
  | spawn hs =>
    obtain ⟨hd, hc, -⟩ := start_deliveries hs
    refine ⟨(recorded_congr (congrFun hd id)).mpr hrec, ?_⟩
    rw [World.add_shared, providerCalls, hc, providerCalls]
  | step hi hs => exact recorded_step h hg hi hs hrec
  | crash hi => exact ⟨hrec, rfl⟩
  | env hs => exact recorded_event hs hrec

/-- **No second provider call after a recorded success**, in every run of steps that keep
records. -/
theorem no_second_call (cfg : Config) (w w' : OutboxWorld) (id : Uuid)
    (h : ReachableBy (outbox cfg).system (KeepsRecord cfg) w) (hrec : Recorded w.shared id)
    (hp : Path (outbox cfg).system (KeepsRecord cfg) w w') :
    providerCalls w'.shared id = providerCalls w.shared id := by
  have hkeep : Recorded w'.shared id ∧
      providerCalls w'.shared id = providerCalls w.shared id := by
    refine hp.stable (Q := fun w₁ => Recorded w₁.shared id ∧
      providerCalls w₁.shared id = providerCalls w.shared id)
      (fun w₁ w₂ l hr hq hg hn => ?_) h ⟨hrec, rfl⟩
    obtain ⟨hrec₂, hcalls⟩ := recorded_next (sendsUnrecordedOutline.holds hr) hg hn hq.1
    exact ⟨hrec₂, hcalls.trans hq.2⟩
  exact hkeep.2

/-- The worker run 1 starts the event, calls the provider and records its success. -/
def runRecorded : List OutboxLabel :=
  enqueueAndTake ++ [.step 1 {}, .step 1 {}, .step 1 {}, .step 1 {}, .step 1 {}, .step 1 {}]

/-- The worker run 1 finishes the event. -/
theorem no_second_call_delivered : ∃ w w' : OutboxWorld,
    (Recorded w.shared "e1" ∧ providerCalls w.shared "e1" = 1 ∧
      ∃ row ∈ w'.shared.events "e1", row.status = .delivered) ∧
    providerCalls w'.shared "e1" = providerCalls w.shared "e1" := by
  obtain ⟨w, w', hw, hp, hrec, hcalls, hrow⟩ := (outbox exampleConfig).exists_path
    (KeepsRecord exampleConfig) runRecorded [.step 1 {}, .step 1 {}]
    (fun w w' => Recorded w.shared "e1" ∧ providerCalls w.shared "e1" = 1 ∧
      ∃ row ∈ w'.shared.events "e1", row.status = .delivered) (by decide)
  exact ⟨w, w', ⟨hrec, hcalls, hrow⟩, no_second_call exampleConfig w w' "e1" hw hrec hp⟩

/-- The update to `DELIVERED` fails, and the attempt is retried by the worker run 2. -/
def runRetry : List OutboxLabel :=
  [.step 1 { outcome := .failed (.error "Connection terminated") }, .step 1 {}, .step 1 {},
    .step 1 {}, .spawn (.work ⟨"e1", 0⟩), .step 2 {}, .step 2 {}, .step 2 {}, .step 2 {},
    .step 2 {}, .step 2 {}]

/-- The provider is called again after its success was recorded. -/
theorem second_call : ∃ w w', Reachable (outbox exampleConfig).system w ∧
    Path (outbox exampleConfig).system anyStep w w' ∧ Recorded w.shared "e1" ∧
      providerCalls w.shared "e1" = 1 ∧ providerCalls w'.shared "e1" = 2 :=
  (outbox exampleConfig).exists_path anyStep runRecorded runRetry
    (fun w w' => Recorded w.shared "e1" ∧ providerCalls w.shared "e1" = 1 ∧
      providerCalls w'.shared "e1" = 2) (by decide)

/-! ### A delivered event was handled -/

/-- **Delivered means handled.** A delivered event, and every event whose delivery counts as
recorded, had its own provider call or handler return `sent` or `suppressed`. -/
structure DeliveredMeansHandled (w : OutboxWorld) : Prop where
  delivered : ∀ id row, w.shared.events id = some row → row.status = .delivered →
    Handled w.shared id
  recorded : ∀ id, Recorded w.shared id → Handled w.shared id

/-- The feedback makes no message count as recorded but the one it is about. -/
def OnlyItsMessage (cfg : Config) (s : OutboxState) (e : EmailEvent) : Prop :=
  ∀ id, Recorded (s.processEmailProviderEvent cfg.runtime cfg.keyring e) id → Recorded s id ∨
    ∃ d, s.deliveries id = some d ∧ e.messageId.isSome ∧ d.providerMessageId = e.messageId

/-- **Feedback by message id.** Every row the feedback selects carries its message id or counts as
recorded already. -/
def FeedbackByMessageId (cfg : Config) (w : OutboxWorld) : OutboxLabel → Prop
  | .env (.emailProviderEvent e) => ∀ id d, w.shared.deliveries id = some d →
    e.Matches cfg.runtime cfg.keyring d →
      d.status.Recorded ∨ (e.messageId.isSome ∧ d.providerMessageId = e.messageId)
  | _ => True

def finishingId : Proc → Option Uuid
  | .worker _ job pc => if Finishes pc then some job.data.outboxId else none
  | _ => none

theorem finishingId_worker {jid : JobId} {pc : WorkerPc} :
    finishingId (.worker jid job pc) = some id ↔ Finishes pc ∧ job.data.outboxId = id := by
  simp only [finishingId, Option.ite_none_right_eq_some, Option.some.injEq]

/-- What the store says of handled events. A row gets a message id only from its own call. -/
structure HandledRows (s : OutboxState) : Prop where
  delivered : ∀ id row, s.events id = some row → row.status = .delivered → Handled s id
  recorded : ∀ id, Recorded s id → Handled s id
  messageId : ∀ id d, s.deliveries id = some d → d.providerMessageId ≠ none → Handled s id

def handled : Assertions OutboxState Proc where
  shared := HandledRows
  proc _ p s := ∀ id, finishingId p = some id → Handled s id

theorem handled_mono {calls : List ProviderCall} (h : Handled s id)
    (hc : s'.calls = s.calls ++ calls) : Handled s' id := by
  obtain ⟨call, hmem, hcall⟩ := h
  exact ⟨call, by rw [hc]; exact List.mem_append_left _ hmem, hcall⟩

theorem handled_step (hs : step cfg s i p c = some (s', p')) (h : Handled s id) :
    Handled s' id := by
  have hkeep (hc : s'.calls = s.calls) : Handled s' id := handled_mono h (by rw [hc, List.append_nil])
  rcases step_deliveries hs with ⟨-, hc, -⟩ | ⟨jid, job, pc, pc', rfl, rfl, -, hws⟩
  · exact hkeep hc
  · rcases hws.calls with hc | ⟨event, call, -, -, hc⟩
    · exact hkeep hc
    · exact handled_mono h hc

/-- Only a worker that may finish the event makes it `DELIVERED`. -/
theorem finishing_of_mayWrite {pid : ℕ} {p : Proc} {g : ℕ} (h : mayWrite pid p id (.deliver g)) :
    finishingId p = some id := by
  cases p with
  | relay pc =>
    cases pc with
    | claim now n => cases h
    | enqueue tasks =>
      obtain ⟨t, -, -, hw⟩ := h
      unfold taskWrites at hw
      split at hw
      · cases hw
      · cases hw
      · exact hw.elim
    | failed e => exact h.elim
  | worker jid job pc =>
    obtain ⟨rfl, hw⟩ := h
    cases pc with
    | finishRecorded event | deliver event => exact finishingId_worker.mpr ⟨trivial, rfl⟩
    | recordFailure event error =>
      simp only [workerWrites, failureWrite] at hw
      split at hw <;> cases hw
    | expire event => cases hw
    | start event => cases hw
    | _ => exact hw.elim
  | reconcile jid r => exact absurd h.2 RowWrite.noConfusion
  | redrive pc =>
    cases pc with
    | reset id' actor existing t => exact absurd h.2 RowWrite.noConfusion
    | _ => exact h.elim
  | finished => exact h.elim

/-- A worker that may finish its event has read a record, has just called the provider, or could
finish it before. -/
theorem finishing_step {jid : JobId} {pc pc' : WorkerPc} (hrows : HandledRows s)
    (hold : ∀ id, finishingId (.worker jid job pc) = some id → Handled s id)
    (hs : step cfg s i (.worker jid job pc) c = some (s', .worker jid job pc'))
    (hproc : processNotification cfg s job pc c = some (s', pc')) (hfin : Finishes pc') :
    Handled s' job.data.outboxId := by
  cases processNotification_follows hproc with
  | alreadyRecorded hrec => exact handled_step hs (hrows.recorded _ hrec)
  | returned h => exact h
  | resultRecorded => exact handled_step hs (hold _ (finishingId_worker.mpr ⟨trivial, rfl⟩))
  | leaves _ hno => exact absurd hfin hno
  | send => exact hfin.elim
  | sends _ hno => exact absurd hfin hno

theorem handled_of_calls (h : Handled s id) (hc : s'.calls = s.calls) : Handled s' id :=
  handled_mono h (by rw [hc, List.append_nil])

theorem handledRows_step (h : HandledRows s) (hp : ∀ id, finishingId p = some id → Handled s id)
    (hs : step cfg s i p c = some (s', p')) : HandledRows s' := by
  have hdelivered : ∀ id row, s'.events id = some row → row.status = .delivered →
      Handled s' id := by
    intro id row' hr' hst
    obtain ⟨row, hr, rfl | ⟨wr, hmay, hd⟩⟩ := (step_rows hs).row_of hr'
    · exact handled_step hs (h.delivered id _ hr hst)
    · have htarget := hd.status.symm.trans hst
      cases wr with
      | deliver g => exact handled_step hs (hp id (finishing_of_mayWrite hmay))
      | _ => cases htarget
  rcases step_deliveries hs with ⟨hd, hc, -⟩ | ⟨jid, job, pc, pc', rfl, rfl, -, hws⟩
  · refine ⟨hdelivered, fun id hrec => ?_, fun id d hd' hm => ?_⟩
    · exact handled_of_calls (h.recorded id ((recorded_congr (congrFun hd id)).mp hrec)) hc
    · exact handled_of_calls (h.messageId id d (hd ▸ hd') hm) hc
  rcases hws.deliveries with hd | ⟨wr, d', hpc, -, hdoes, he⟩
  · refine ⟨hdelivered, fun id hrec => ?_, fun id d hd' hm => ?_⟩
    · exact handled_step hs (h.recorded id ((recorded_congr (congrFun hd id)).mp hrec))
    · exact handled_step hs (h.messageId id d (hd ▸ hd') hm)
  have hresult : wr = .result → Handled s' job.data.outboxId := by
    rintro rfl
    refine handled_step hs (hp _ (finishingId_worker.mpr ⟨?_, rfl⟩))
    cases pc with
    | recordResult event delivery => trivial
    | _ => cases hpc
  have hother {id : Uuid} (hid : id ≠ job.data.outboxId) :
      s'.deliveries id = s.deliveries id := by rw [he, Table.set_of_ne hid]
  refine ⟨hdelivered, fun id hrec => ?_, fun id d hd' hm => ?_⟩
  · by_cases hid : id = job.data.outboxId
    · subst hid
      refine hresult ?_
      by_contra hwr
      exact not_recorded_of_does hdoes hwr he hrec
    · exact handled_step hs (h.recorded id ((recorded_congr (hother hid)).mp hrec))
  · by_cases hid : id = job.data.outboxId
    · subst hid
      rw [he, Table.set_self] at hd'
      obtain rfl := Option.some.inj hd'
      cases wr with
      | result => exact hresult rfl
      | started =>
        rw [hdoes.2] at hm
        cases hd : s.deliveries job.data.outboxId with
        | none =>
          rw [hd] at hm
          exact absurd rfl hm
        | some d =>
          rw [hd] at hm
          exact handled_step hs (h.messageId _ d hd hm)
      | error =>
        obtain ⟨d, hd, -, hmid⟩ := hdoes
        exact handled_step hs (h.messageId _ d hd (hmid ▸ hm))
    · exact handled_step hs (h.messageId id d (hother hid ▸ hd') hm)

theorem handledRows_event {e : Event} (h : HandledRows w.shared)
    (hg : FeedbackByMessageId cfg w (.env e)) (hs : event cfg w.shared e = some s') :
    HandledRows s' := by
  obtain ⟨hc, hrows⟩ := event_deliveries hs
  refine ⟨fun id row hr hst => ?_, fun id hrec => ?_, fun id d hd hm => ?_⟩
  · rcases event_rows hs id with he | ⟨-, row', hr', hp, -⟩
    · exact handled_of_calls (h.delivered id row (he ▸ hr) hst) hc
    · rw [Option.some.inj (hr.symm.trans hr'), hp] at hst
      cases hst
  · rcases hrows id with hd | ⟨ev, d, d', rfl, hd, hm, -⟩
    · exact handled_of_calls (h.recorded id ((recorded_congr hd).mp hrec)) hc
    · -- a row that feedback selects is recorded already, or has a message id of its own
      rcases hg id d hd hm with hst | ⟨hsome, hmid⟩
      · exact handled_of_calls (h.recorded id (recorded_iff.mpr ⟨d, hd, hm.1, hst⟩)) hc
      · refine handled_of_calls (h.messageId id d hd ?_) hc
        rw [hmid]
        exact Option.isSome_iff_ne_none.mp hsome
  · rcases hrows id with he | ⟨ev, d₀, d', -, hd₀, -, hd', -, -, hmid⟩
    · exact handled_of_calls (h.messageId id d (he ▸ hd) hm) hc
    · obtain rfl := Option.some.inj (hd.symm.trans hd')
      exact handled_of_calls (h.messageId id d₀ hd₀ (hmid ▸ hm)) hc

theorem handledOutline : Outline (outbox cfg) (FeedbackByMessageId cfg) handled where
  init := by
    refine HandledRows.mk (fun id row hr => ?_) (fun id hrec => ?_) fun id d hd => ?_
    · cases hr
    · obtain ⟨d, hd, -⟩ := recorded_iff.mp hrec
      cases hd
    · cases hd
  env w e s h hg hs :=
    ⟨handledRows_event h.shared hg hs, fun j q hq id hid =>
      handled_of_calls (h.proc j q hq id hid) (event_deliveries hs).1⟩
  spawn w x s p h _ hs := by
    obtain ⟨hd, hc, hp⟩ := start_deliveries hs
    refine ⟨⟨fun id row hr hst => ?_, fun id hrec => ?_, fun id d hd' hm => ?_⟩, fun id hid => ?_,
      fun j q hq => ⟨fun id hid => ?_, trivial, trivial⟩⟩
    · obtain ⟨row₀, hr₀, rfl | ⟨wr, hno, -⟩⟩ := (start_rows hs).row_of hr
      · exact handled_of_calls (h.shared.delivered id _ hr₀ hst) hc
      · exact hno.elim
    · exact handled_of_calls (h.shared.recorded id ((recorded_congr (congrFun hd id)).mp hrec)) hc
    · exact handled_of_calls (h.shared.messageId id d (hd ▸ hd') hm) hc
    · cases p with
      | worker jid job pc =>
        rw [hp jid job pc rfl] at hid
        exact (finishingId_worker.mp hid).1.elim
      | _ => cases hid
    · exact handled_of_calls (h.proc j q hq id hid) hc
  step w i p c s p' h hi _ hs := by
    refine ⟨handledRows_step h.shared (h.proc i p hi) hs, fun id hid => ?_⟩
    rcases step_deliveries hs with ⟨-, -, hno⟩ | ⟨jid, job, pc, pc', rfl, rfl, hproc, -⟩
    · cases p' with
      | worker jid job pc => exact absurd rfl (hno jid job pc)
      | _ => cases hid
    · obtain ⟨hfin, rfl⟩ := finishingId_worker.mp hid
      exact finishing_step h.shared (h.proc i _ hi) hs hproc hfin
  frame w i p c s p' h hi _ hs j q _ hq :=
    ⟨fun id hid => handled_step hs (h.proc j q hq id hid), trivial, trivial⟩

theorem onlyItsMessage {e : EmailEvent}
    (hg : FeedbackByMessageId cfg w (.env (.emailProviderEvent e))) :
    OnlyItsMessage cfg w.shared e := by
  intro id hrec
  have hs : event cfg w.shared (.emailProviderEvent e) = some _ := rfl
  rcases (event_deliveries hs).2 id with hd | ⟨ev, d, d', he, hd, hm, -⟩
  · exact .inl ((recorded_congr hd).mp hrec)
  · obtain rfl := Event.emailProviderEvent.inj he
    rcases hg id d hd hm with hst | hmid
    · exact .inl (recorded_iff.mpr ⟨d, hd, hm.1, hst⟩)
    · exact .inr ⟨d, hd, hmid⟩

/-- **Delivered means handled**, in every run whose feedback goes by message id; and none of that
feedback makes another message count as recorded. -/
theorem delivered_means_handled (cfg : Config) (w : OutboxWorld)
    (h : ReachableBy (outbox cfg).system (FeedbackByMessageId cfg) w) :
    DeliveredMeansHandled w ∧ ∀ e, FeedbackByMessageId cfg w (.env (.emailProviderEvent e)) →
      OnlyItsMessage cfg w.shared e := by
  have hrows := (handledOutline.holds h).shared
  exact ⟨⟨hrows.delivered, hrows.recorded⟩, fun e => onlyItsMessage⟩

def NoFeedback (_ : OutboxWorld) : OutboxLabel → Prop
  | .env (.emailProviderEvent _) => False
  | _ => True

instance (w : OutboxWorld) (l : OutboxLabel) : Decidable (NoFeedback w l) := by
  rcases l with _ | _ | _ | e
  case env => cases e <;>
    first | exact instDecidableTrue | exact instDecidableFalse
  all_goals exact instDecidableTrue

theorem NoFeedback.byMessageId {l : OutboxLabel} (h : NoFeedback w l) :
    FeedbackByMessageId cfg w l := by
  unfold NoFeedback at h
  unfold FeedbackByMessageId
  split
  · exact h.elim
  · trivial

def otpTo (destination : String) : OutboxInput where
  eventType := "auth.otp"
  channel := .email
  payload := [("destination", .string destination)]

/-- Two messages to one address are enqueued. -/
def enqueueTwo : List OutboxLabel :=
  [.env (.addOutboxEvent "e1" (otpTo "a@example.com")),
    .env (.addOutboxEvent "e2" (otpTo "a@example.com")),
    .spawn (.relay OUTBOX_BATCH_SIZE), .step 0 { ids := ["e1", "e2"] },
    .step 0 {}, .step 0 {}, .step 0 { task := 1 }, .step 0 { task := 1 }]

/-- The worker run `i` sends a message and records it. -/
def sends (i : ℕ) (id : Uuid) (messageId : String) : List OutboxLabel :=
  [.spawn (.work ⟨id, 0⟩), .step i {}, .step i {}, .step i {}, .step i {}, .step i {},
    .step i { provider := .ok ⟨.sent, "smtp", some messageId, none⟩ }, .step i {}]

/-- The provider reports the first message as delivered. -/
def report : EmailEvent := ⟨"f1", .delivered, "a@example.com", "smtp", some "m1"⟩

theorem runSent_executes : (exec (outbox exampleConfig).system NoFeedback
    ⟨(outbox exampleConfig).init, []⟩
      (enqueueTwo ++ sends 1 "e1" "m1" ++ sends 2 "e2" "m2")).isSome = true := by decide

/-- Both messages are sent. -/
def sentWorld : OutboxWorld := Option.get _ runSent_executes

theorem report_byMessageId :
    FeedbackByMessageId exampleConfig sentWorld (.env (.emailProviderEvent report)) := by
  have htable : ∃ d₁ d₂ d₃ d₄, sentWorld.shared.deliveries =
      (((Table.empty.set "e1" d₁).set "e1" d₂).set "e2" d₃).set "e2" d₄ := ⟨_, _, _, _, rfl⟩
  have hrecorded : ∀ id ∈ ["e1", "e2"], Recorded sentWorld.shared id := by decide
  intro id d hd _
  have hid : id ∈ ["e1", "e2"] := by
    obtain ⟨d₁, d₂, d₃, d₄, he⟩ := htable
    by_contra hno
    simp only [List.mem_cons, List.not_mem_nil, or_false, not_or] at hno
    simp only [he, Table.set_of_ne hno.1, Table.set_of_ne hno.2] at hd
    cases hd
  obtain ⟨d', hd', -, hst⟩ := recorded_iff.mp (hrecorded id hid)
  exact .inl (Option.some.inj (hd'.symm.trans hd) ▸ hst)

def reportedWorld : OutboxWorld :=
  ((outbox exampleConfig).next sentWorld (.env (.emailProviderEvent report))).get rfl

/-- After the report the worker run 1 finishes the first event. -/
theorem delivered_means_handled_sent :
    OnlyItsMessage exampleConfig sentWorld.shared report ∧ ∃ w : OutboxWorld,
      ((∃ row ∈ w.shared.events "e1", row.status = .delivered) ∧
        (∃ d ∈ w.shared.deliveries "e1", d.status = .delivered) ∧ Recorded w.shared "e2") ∧
      DeliveredMeansHandled w := by
  have hsent : ReachableBy (outbox exampleConfig).system (FeedbackByMessageId exampleConfig)
      sentWorld := by
    refine ReachableBy.mono (fun _ _ => NoFeedback.byMessageId) ((ReachableBy.init rfl).path ?_)
    exact path_of_exec .refl (Option.some_get runSent_executes).symm
  have hnext : (outbox exampleConfig).system.next sentWorld (.env (.emailProviderEvent report)) =
      some reportedWorld := rfl
  obtain ⟨w, hw, hq⟩ := (Option.any_eq_true _ _).mp (show
    (exec (outbox exampleConfig).system NoFeedback reportedWorld [.step 1 {}, .step 1 {}]).any
      (fun w => decide ((∃ row ∈ w.shared.events "e1", row.status = .delivered) ∧
        (∃ d ∈ w.shared.deliveries "e1", d.status = .delivered) ∧ Recorded w.shared "e2")) = true
    by decide)
  have hreached := (hsent.step report_byMessageId hnext).path
    ((path_of_exec .refl hw).mono fun _ _ => NoFeedback.byMessageId)
  exact ⟨(delivered_means_handled exampleConfig sentWorld hsent).2 report report_byMessageId, w,
    of_decide_eq_true hq, (delivered_means_handled exampleConfig w hreached).1⟩

/-- The second message fails in the worker run 2; then the first is reported as delivered, and the
worker run 3 retries the second. -/
def runFeedback : List OutboxLabel :=
  enqueueTwo ++ sends 1 "e1" "m1" ++ [.step 1 {},
    .spawn (.work ⟨"e2", 0⟩), .step 2 {}, .step 2 {}, .step 2 {}, .step 2 {}, .step 2 {},
    .step 2 { provider := .error (.error "Connection refused") }, .step 2 {}, .step 2 {},
    .step 2 {}, .env (.emailProviderEvent report),
    .spawn (.work ⟨"e2", 0⟩), .step 3 {}, .step 3 {}, .step 3 {}, .step 3 {}]

/-- The second message is `DELIVERED`, though its only call failed. -/
theorem delivered_unhandled : ∃ w, Reachable (outbox exampleConfig).system w ∧
    ¬ DeliveredMeansHandled w := by
  obtain ⟨w, hw, hst, hno⟩ := (outbox exampleConfig).exists_reached anyStep runFeedback
    (fun w => (∃ row ∈ w.shared.events "e2", row.status = .delivered) ∧
      ¬ Handled w.shared "e2") (by decide)
  obtain ⟨row, hr, hd⟩ := hst
  exact ⟨w, hw, fun h => hno (h.delivered "e2" row hr hd)⟩

end BackendFoundation.Outbox.Recorded
