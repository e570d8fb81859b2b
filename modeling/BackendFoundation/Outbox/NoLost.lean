import BackendFoundation.Outbox.Jobs

/-! # No lost event, and when it holds

`NoLostEvent` says that every event that still matters can be claimed by a relay or has a job for
its generation that can move it on. It fails on the outbox as it stands: `event_lost` is a run
after which an event is `ENQUEUED` and its job is completed, because the worker ran the job between
the relay's `add` and its update of the row. A crash, or a failing statement outside the `try`
block, between the update to `PROCESSING` and the next write does the same.

`SafeStep` excludes exactly these steps while the event is at risk: a start that finds the row
neither `ENQUEUED` nor `FAILED` (or is made without the lock of the job), a lost worker of a row in
`PROCESSING`, a failing statement outside the `try` block before the last attempt, and a failed
handler that fails itself. `no_lost_event` shows that nothing else can lose an event: in every run
whose steps are safe, every state reached has `NoLostEvent`. -/

namespace BackendFoundation.Outbox.NoLost

open Lib Lib.Runs Lib.Interleave Errors Outbox.Model Outbox.Programs Outbox.Lifecycle Outbox.Safety
open Outbox.Jobs

/-! ### The property -/

/-- The event is neither deleted, expired, delivered nor a dead letter. -/
def AtStake (row : OutboxEvent) (now : ℕ) : Prop :=
  row.deletedAt = none ∧ ¬ row.Expired now ∧ row.status ≠ .delivered ∧ row.status ≠ .deadLetter

instance (row : OutboxEvent) (now : ℕ) : Decidable (AtStake row now) :=
  inferInstanceAs (Decidable (_ ∧ _))

/-- The failed handler of the job `jid`, before it has written the row. -/
def PendingHandler (jid : JobId) : Proc → Prop
  | .reconcile jid' r =>
    jid' = jid ∧
      match r.pc with
      | .findEvent => r.Exhausted
      | .recordFailure _ => True
      | .done => False
  | _ => False

instance (jid : JobId) : DecidablePred (PendingHandler jid) := fun p => by
  unfold PendingHandler
  split
  · have : ∀ r : Reconcile, Decidable (match r.pc with
      | .findEvent => r.Exhausted
      | .recordFailure _ => True
      | .done => False) := fun r => by split <;> infer_instance
    infer_instance
  · infer_instance

/-- A failed handler of the job is under way: the attempts of the job are exhausted, and the
handler will make the event a dead letter. -/
def HandlerPending (w : OutboxWorld) (jid : JobId) : Prop := w.Any (PendingHandler jid)

instance (w : OutboxWorld) (jid : JobId) : Decidable (HandlerPending w jid) :=
  inferInstanceAs (Decidable (w.Any _))

/-- A worker with the lock of the job `j` moves the event on from its program point: it has yet to
start a row it can start, or works on a row in `PROCESSING`. After an error the next run does, or
the failed handler if there is none. -/
def PcServes (j : Job NotificationJobData) (row : OutboxEvent) : WorkerPc → Prop
  | .returned => False
  | .thrown _ => row.status ≠ .processing ∨ j.LastAttempt
  | .findEvent | .expire _ | .start _ => row.status ≠ .processing
  | _ => row.status = .processing

/-- The run of the job `j` by the process that holds its lock moves the event on. If it has died,
the job stalls, and the next run does or the failed handler. -/
def RunServes (cfg : Config) (jid : JobId) (j : Job NotificationJobData) (row : OutboxEvent) :
    Option Proc → Prop
  | none => row.status ≠ .processing ∨ j.StallLimit cfg.maxStalledCount
  | some (.worker jid' _ pc) => jid' = jid ∧ PcServes j row pc
  | some _ => False

/-- The event has a job for its generation that is not finished and can still move it on. A row at
stake that is neither claimable nor in `PROCESSING` is `ENQUEUED` or `FAILED`, which is what a run
of the job starts from. -/
def JobServes (cfg : Config) (w : OutboxWorld) (jid : JobId) (row : OutboxEvent) : Prop :=
  ∃ j, w.shared.queue jid = some j ∧
    match j.state with
    | .waiting => row.status ≠ .processing
    | .active token => RunServes cfg jid j row (w.proc? token)
    | .completed | .failed => False

/-- **No lost event.** Every event at stake can be claimed by a relay, now or when its lease lapses,
or has an unfinished job that can move it on; a job whose attempts are exhausted is finished only
when its failed handler is. -/
def NoLostEvent (cfg : Config) (w : OutboxWorld) : Prop :=
  ∀ id row, w.shared.events id = some row → AtStake row w.shared.now →
    row.status = .pending ∨ (row.status = .claimed ∧ ∃ t, row.claimExpiresAt = some t) ∨
      JobServes cfg w ⟨id, row.deliveryGeneration⟩ row ∨
      HandlerPending w ⟨id, row.deliveryGeneration⟩

/-! ### It fails -/

/-- The row `id` is `ENQUEUED`, its job is completed and no failed handler is under way. -/
def Stranded (w : OutboxWorld) (id : Uuid) : Prop :=
  ∃ row ∈ w.shared.events id, AtStake row w.shared.now ∧ row.status = .enqueued ∧
    (∃ j ∈ w.shared.queue ⟨id, row.deliveryGeneration⟩, j.state = .completed) ∧
    ¬ HandlerPending w ⟨id, row.deliveryGeneration⟩

instance (w : OutboxWorld) (id : Uuid) : Decidable (Stranded w id) :=
  inferInstanceAs (Decidable (∃ row ∈ w.shared.events id, _))

theorem not_noLostEvent_of_stranded {cfg : Config} {w : OutboxWorld} {id : Uuid}
    (h : Stranded w id) : ¬ NoLostEvent cfg w := by
  obtain ⟨row, hr, hstake, hst, ⟨j, hj, hdone⟩, hnone⟩ := h
  intro hall
  rcases hall id row hr hstake with hp | ⟨hc, -⟩ | ⟨j', hj', hserves⟩ | hh
  · simp [hst] at hp
  · simp [hst] at hc
  · obtain rfl := Option.some.inj (hj'.symm.trans hj)
    simp [hdone] at hserves
  · exact hnone hh

/-- The relay run 0 claims the event and adds its job; the worker run 1 runs the job to its end
before the relay marks the row. -/
def runBeforeMark : List OutboxLabel :=
  [.env (.addOutboxEvent "e1" { eventType := "auth.otp", channel := .email }),
    .spawn (.relay OUTBOX_BATCH_SIZE), .step 0 { ids := ["e1"] }, .step 0 {},
    .spawn (.work ⟨"e1", 0⟩), .step 1 {}, .step 1 {}, .step 1 {}, .step 0 {}]

/-- An event is lost without any failure: no call fails, no process crashes, no job stalls. -/
theorem event_lost : ∃ w, Reachable (outbox exampleConfig).system w ∧
    ¬ NoLostEvent exampleConfig w := by
  obtain ⟨w, hw, hlost⟩ := (outbox exampleConfig).exists_reached anyStep runBeforeMark
    (Stranded · "e1") (by decide)
  exact ⟨w, hw, not_noLostEvent_of_stranded hlost⟩

/-! ### The steps that lose events -/

/-- The event of the job is at stake in the generation of the job, and no failed handler of the job
is under way: then the row meets `cond`. -/
def ForRisk (w : OutboxWorld) (jid : JobId) (cond : OutboxEvent → Prop) : Prop :=
  ∀ row ∈ w.shared.events jid.outboxId, AtStake row w.shared.now →
    row.deliveryGeneration = jid.deliveryGeneration → ¬ HandlerPending w jid → cond row

instance (w : OutboxWorld) (jid : JobId) (cond : OutboxEvent → Prop) [DecidablePred cond] :
    Decidable (ForRisk w jid cond) :=
  inferInstanceAs (Decidable (∀ row ∈ w.shared.events jid.outboxId, _))

/-- The statements of a worker past its start whose failure is not caught, so that the run throws
and leaves the row in `PROCESSING`. -/
def Unprotected : WorkerPc → Outcome Thrown → Prop
  | .findDelivery _, .failed _ | .findDelivery _, .lost _ | .upsertDelivery _, .failed _
  | .upsertDelivery _, .lost _ | .finishRecorded _, .failed _ | .recordError _ _, .failed _
  | .recordError _ _, .lost _ | .recordFailure _ _, .failed _ => True
  | _, _ => False

instance (pc : WorkerPc) (o : Outcome Thrown) : Decidable (Unprotected pc o) :=
  match pc, o with
  | .findDelivery _, .failed _ | .findDelivery _, .lost _ | .upsertDelivery _, .failed _
  | .upsertDelivery _, .lost _ | .finishRecorded _, .failed _ | .recordError _ _, .failed _
  | .recordError _ _, .lost _ | .recordFailure _ _, .failed _ => instDecidableTrue
  | .findDelivery _, .ok | .upsertDelivery _, .ok | .finishRecorded _, .ok
  | .finishRecorded _, .lost _ | .recordError _ _, .ok | .recordFailure _ _, .ok
  | .recordFailure _ _, .lost _ | .findEvent, _ | .expire _, _ | .start _, _ | .rateLimit _, _
  | .callProvider _, _ | .recordResult _ _, _ | .deliver _, _ | .returned, _ | .thrown _, _ =>
    instDecidableFalse

/-- What a start may meet: the holder of the lock finds a row it can start, any other worker does
not; and where the update took effect but its answer was lost, the job has no attempt left, so that
the failed handler follows. -/
def SafeStart (s : OutboxState) (pid : ℕ) (jid : JobId) (job : Job NotificationJobData)
    (row : OutboxEvent) : Outcome Thrown → Prop
  | .ok => s.queue.Holds jid pid ↔ (row.status = .enqueued ∨ row.status = .failed)
  | .failed _ => True
  | .lost _ => row.status = .enqueued ∨ row.status = .failed →
    s.queue.Holds jid pid ∧ job.LastAttempt

instance (s : OutboxState) (pid : ℕ) (jid : JobId) (job : Job NotificationJobData)
    (row : OutboxEvent) (o : Outcome Thrown) : Decidable (SafeStart s pid jid job row o) := by
  cases o with
  | ok => exact inferInstanceAs (Decidable (_ ↔ _))
  | failed _ => exact instDecidableTrue
  | lost _ => exact inferInstanceAs (Decidable (_ → _))

def SafeWorkerStep (s : OutboxState) (pid : ℕ) (jid : JobId) (job : Job NotificationJobData)
    (pc : WorkerPc) (o : Outcome Thrown) (row : OutboxEvent) : Prop :=
  match pc with
  | .start _ => SafeStart s pid jid job row o
  | pc => Unprotected pc o → job.LastAttempt

instance (s : OutboxState) (pid : ℕ) (jid : JobId) (job : Job NotificationJobData) (pc : WorkerPc)
    (o : Outcome Thrown) : DecidablePred (SafeWorkerStep s pid jid job pc o) := fun row => by
  unfold SafeWorkerStep
  split <;> infer_instance

/-- The statement of a failed handler takes effect. -/
def HandlerAnswers : ReconcilePc → Outcome Thrown → Prop
  | .findEvent, .ok | .recordFailure _, .ok | .recordFailure _, .lost _ => True
  | _, _ => False

instance (pc : ReconcilePc) (o : Outcome Thrown) : Decidable (HandlerAnswers pc o) := by
  cases pc <;> cases o <;>
    first | exact instDecidableTrue | exact instDecidableFalse

/-- **The steps that lose no event.** -/
def SafeStep (cfg : Config) (w : OutboxWorld) : OutboxLabel → Prop
  | .step i c =>
    match w.proc? i with
    | some (.worker jid job pc) =>
      ForRisk w jid (SafeWorkerStep w.shared i jid job pc c.outcome)
    | some (.reconcile jid r) =>
      PendingHandler jid (.reconcile jid r) → HandlerAnswers r.pc c.outcome ∨
        ∀ row ∈ w.shared.events jid.outboxId, AtStake row w.shared.now →
          row.deliveryGeneration ≠ jid.deliveryGeneration
    | _ => True
  | .crash i =>
    match w.proc? i with
    | some (.worker jid _ _) =>
      ForRisk w jid fun row => w.shared.queue.Holds jid i → row.status ≠ .processing ∨
        ∃ j ∈ w.shared.queue jid, j.StallLimit cfg.maxStalledCount
    | some (.reconcile jid r) =>
      PendingHandler jid (.reconcile jid r) →
        ∀ row ∈ w.shared.events jid.outboxId, AtStake row w.shared.now →
          row.deliveryGeneration ≠ jid.deliveryGeneration
    | _ => True
  | .env (.stall jid) => ForRisk w jid fun row => row.status ≠ .processing
  | _ => True

instance (cfg : Config) (w : OutboxWorld) (l : OutboxLabel) : Decidable (SafeStep cfg w l) := by
  unfold SafeStep
  repeat' split
  all_goals infer_instance

end BackendFoundation.Outbox.NoLost
