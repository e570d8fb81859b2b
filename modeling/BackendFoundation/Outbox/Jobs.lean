import BackendFoundation.Outbox.Safety

/-! # Outbox rows and their jobs

The rows live in the database and the jobs in the queue, and no transaction spans both. What always
holds between them (`booksOutline`): a job carries the data its id says and is of a generation its
event has reached; a worker that holds the lock of a job knows the attempts the job has made; a row
that is still claimed under the token of a relay run is of the generation that run has read.
`active_lt_fresh` adds that a lock is named by a process that has started. -/

namespace BackendFoundation.Outbox.Jobs

open Lib Lib.Runs Lib.Interleave Errors Outbox.Model Outbox.Programs Outbox.Lifecycle Outbox.Safety
open Option (some.inj map_eq_some_iff)

variable {cfg : Config} {s s' : OutboxState}

/-- The data of the job with an id. -/
def jobData (jid : JobId) : NotificationJobData := ⟨jid.outboxId, some jid.deliveryGeneration⟩

@[simp] theorem jobData_outboxId (jid : JobId) : (jobData jid).outboxId = jid.outboxId := rfl

@[simp] theorem jobData_deliveryGeneration (jid : JobId) :
    (jobData jid).deliveryGeneration = jid.deliveryGeneration := rfl

/-! ### What the programs do to the queue -/

theorem queue_of_run {t t' : OutboxState} {P : Type} {o : Outcome Thrown} {p q : P}
    {f : Thrown → P} (ht : t.queue = s.queue) (hr : o.run s t p f = (t', q)) :
    t'.queue = s.queue := by
  rcases Outcome.run_cases hr with ⟨-, rfl, -⟩ | ⟨e, -, rfl, -⟩ | ⟨e, -, rfl, -⟩
  · exact ht
  · rfl
  · exact ht

theorem recordDeliveryFailure_queue {id : Uuid} {event : OutboxEvent} {generation : ℕ}
    {error : Thrown} {disposition : DeliveryFailureDisposition} :
    (s.recordDeliveryFailure id event generation error disposition).queue = s.queue := by
  obtain ⟨message, t, he⟩ := recordDeliveryFailure_eq s id event generation error disposition
  rw [he]
  rfl

variable {c : Choice}

theorem processNotification_queue {job : Job NotificationJobData} {pc pc' : WorkerPc}
    (h : processNotification cfg s job pc c = some (s', pc')) : s'.queue = s.queue := by
  unfold processNotification at h
  split at h
  case h_5 =>
    refine queue_of_run ?_ (some.inj h)
    unfold OutboxState.upsertDelivery
    split <;> rfl
  case h_8 =>
    have he : (callProvider cfg s job.data.outboxId _ c).1 = s' :=
      congrArg Prod.fst (some.inj h)
    rw [← he]
    unfold callProvider
    repeat' split
    all_goals rfl
  case h_12 =>
    refine queue_of_run ?_ (some.inj h)
    exact recordDeliveryFailure_queue
  case h_13 => cases h
  case h_14 => cases h
  all_goals
    refine queue_of_run ?_ (some.inj h)
    rfl

theorem reconcileExhaustedJob_queue {r r' : Reconcile}
    (h : reconcileExhaustedJob s r c = some (s', r')) : s'.queue = s.queue := by
  unfold reconcileExhaustedJob at h
  simp only [] at h
  split at h
  · split_ifs at h
    · exact queue_of_run rfl (some.inj h)
    · cases h
      rfl
  · exact queue_of_run recordDeliveryFailure_queue (some.inj h)
  · cases h

theorem reconcileExhaustedJob_job {r r' : Reconcile}
    (h : reconcileExhaustedJob s r c = some (s', r')) : r'.job = r.job := by
  unfold reconcileExhaustedJob at h
  simp only [] at h
  split at h
  · split_ifs at h
    · obtain ⟨-, ⟨-, rfl⟩ | ⟨e, -, rfl⟩⟩ := Outcome.read_cases (some.inj h) <;> rfl
    · cases h
      rfl
  · obtain ⟨-, -, rfl⟩ | ⟨e, -, -, rfl⟩ | ⟨e, -, -, rfl⟩ :=
      Outcome.run_cases (some.inj h) <;> rfl
  · cases h

theorem redriveStep_queue {pc pc' : RedrivePc} (h : redriveStep s pc c = some (s', pc')) :
    s'.queue = s.queue := by
  unfold redriveStep at h
  split at h
  · exact queue_of_run rfl (some.inj h)
  · split_ifs at h
    · cases h
      rfl
    · refine queue_of_run ?_ (some.inj h)
      rfl
  · cases h
  · cases h

/-- What one `enqueueClaimedEvent` does to the queue. -/
theorem enqueueClaimedEvent_queue {t t' : EnqueueTask}
    (h : enqueueClaimedEvent s t c = some (s', t')) :
    (s'.queue = s.queue ∧ (t'.pc = .markEnqueued → False)) ∨
      (t.pc = .addJob ∧ s'.events = s.events ∧
        s'.queue = s.queue.add t.jobId (jobData t.jobId) (some OUTBOX_MAX_DELIVERY_ATTEMPTS)) := by
  unfold enqueueClaimedEvent at h
  split at h
  · next hpc =>
    split_ifs at h
    · cases h
      exact .inl ⟨rfl, EnqueuePc.noConfusion⟩
    · rcases Outcome.run_cases (some.inj h) with ⟨-, rfl, rfl⟩ | ⟨e, -, rfl, rfl⟩ |
        ⟨e, -, rfl, rfl⟩
      · exact .inr ⟨hpc, rfl, rfl⟩
      · exact .inl ⟨rfl, EnqueuePc.noConfusion⟩
      · exact .inr ⟨hpc, rfl, rfl⟩
  · rcases Outcome.run_cases (some.inj h) with ⟨-, rfl, rfl⟩ | ⟨e, -, rfl, rfl⟩ |
      ⟨e, -, rfl, rfl⟩ <;> exact .inl ⟨rfl, EnqueuePc.noConfusion⟩
  · rcases Outcome.run_cases (some.inj h) with ⟨-, rfl, rfl⟩ | ⟨e, -, rfl, rfl⟩ |
      ⟨e, -, rfl, rfl⟩ <;> exact .inl ⟨rfl, EnqueuePc.noConfusion⟩
  · cases h
  · cases h

variable {pid : ℕ}

theorem relayStep_cases {pc pc' : RelayPc} (h : relayStep s pid pc c = some (s', pc')) :
    (∃ now batchSize, pc = .claim now batchSize ∧ s'.queue = s.queue ∧
        ∀ tasks, pc' = .enqueue tasks → ∀ t ∈ tasks, t.pc = .addJob ∧
          ∃ row, s.events t.id = some row ∧ t.event = row.claim now pid) ∨
      ∃ tasks t t', pc = .enqueue tasks ∧ t ∈ tasks ∧ enqueueClaimedEvent s t c = some (s', t') ∧
        pc' = .enqueue (tasks.set c.task t') := by
  unfold relayStep at h
  split at h
  · next now batchSize =>
    left
    split_ifs at h
    refine ⟨now, batchSize, rfl, ?_, ?_⟩
    · rcases Outcome.run_cases (some.inj h) with ⟨-, rfl, -⟩ | ⟨e, -, rfl, -⟩ |
        ⟨e, -, rfl, -⟩ <;> rfl
    · rintro tasks rfl t ht
      rcases Outcome.run_cases (some.inj h) with ⟨-, -, htasks⟩ | ⟨e, -, -, htasks⟩ |
        ⟨e, -, -, htasks⟩
      · obtain rfl := RelayPc.enqueue.inj htasks
        obtain ⟨id, -, hid⟩ := List.mem_filterMap.mp ht
        obtain ⟨row, hr, rfl⟩ := map_eq_some_iff.mp hid
        exact ⟨rfl, row, hr, rfl⟩
      · cases htasks
      · cases htasks
  · next tasks =>
    right
    split at h
    · next t ht =>
      obtain ⟨⟨s₁, t'⟩, hs, he⟩ := map_eq_some_iff.mp h
      cases he
      exact ⟨tasks, t, t', rfl, List.mem_of_getElem? ht, hs, rfl⟩
    · cases h
  · cases h

variable {p p' : Proc}

theorem step_queue (h : step cfg s pid p c = some (s', p')) : s'.queue = s.queue ∨
      (∃ tasks t, p = .relay (.enqueue tasks) ∧ t ∈ tasks ∧ s'.events = s.events ∧
        s'.queue = s.queue.add t.jobId (jobData t.jobId) (some OUTBOX_MAX_DELIVERY_ATTEMPTS)) ∨
      (∃ jid job, p = .worker jid job .returned ∧ s'.events = s.events ∧
        s'.queue = s.queue.complete jid pid) ∨
      ∃ jid job e j, p = .worker jid job (.thrown e) ∧ s'.events = s.events ∧
        s.queue jid = some j ∧ j.state = .active pid ∧ s'.queue = s.queue.set jid j.afterFailure ∧
        p' = .reconcile jid ⟨j.afterFailure, e, .findEvent⟩ := by
  cases p with
  | relay pc =>
    obtain ⟨pc', hs, rfl⟩ := map_pair_inj h
    rcases relayStep_cases hs with ⟨now, n, -, hq, -⟩ | ⟨tasks, t, t', rfl, ht, hs, -⟩
    · exact .inl hq
    · rcases enqueueClaimedEvent_queue hs with ⟨hq, -⟩ | ⟨-, hev, hq⟩
      · exact .inl hq
      · exact .inr (.inl ⟨tasks, t, rfl, ht, hev, hq⟩)
  | worker jid job pc =>
    rcases step_worker h with ⟨pc', -, hs⟩ | hs
    · exact .inl (processNotification_queue hs)
    · rcases settleJob_cases hs with ⟨rfl, rfl, -⟩ | ⟨e, rfl, ⟨j, hj, ha, rfl, rfl⟩ | ⟨-, rfl, -⟩⟩
      · exact .inr (.inr (.inl ⟨jid, job, rfl, rfl, rfl⟩))
      · exact .inr (.inr (.inr ⟨jid, job, e, j, rfl, rfl, hj, ha, rfl, rfl⟩))
      · exact .inl rfl
  | reconcile jid r =>
    obtain ⟨r', hs, rfl⟩ := map_pair_inj h
    exact .inl (reconcileExhaustedJob_queue hs)
  | redrive pc =>
    obtain ⟨pc', hs, rfl⟩ := map_pair_inj h
    exact .inl (redriveStep_queue hs)
  | finished => cases h

/-! ### What always holds between rows and jobs -/

/-- The event of the job has reached the generation of the job. -/
def Reached (s : OutboxState) (jid : JobId) : Prop :=
  ∃ row, s.events jid.outboxId = some row ∧ jid.deliveryGeneration ≤ row.deliveryGeneration

variable {may : Uuid → RowWrite → Prop} {jid : JobId}

theorem Reached.mono (h : Reached s jid) (hs : RowsStep may s s') : Reached s' jid := by
  obtain ⟨row, hr, hg⟩ := h
  obtain ⟨row', hr', rfl | ⟨wr, -, hd⟩⟩ := hs.row hr
  · exact ⟨_, hr', hg⟩
  · exact ⟨row', hr', hg.trans hd.generation_le⟩

/-- What holds of the rows and jobs by themselves. -/
structure StoreBooks (s : OutboxState) : Prop where
  data : ∀ jid j, s.queue jid = some j → j.data = jobData jid
  reached : ∀ jid j, s.queue jid = some j → Reached s jid
  lease : ∀ id row, s.events id = some row → row.status = .claimed → ∃ t, row.claimExpiresAt = some t

/-- What a worker run knows of its job. -/
structure WorkerBooks (pid : ℕ) (jid : JobId) (job : Job NotificationJobData) (s : OutboxState) :
    Prop where
  data : job.data = jobData jid
  attempts : ∀ j, s.queue jid = some j → j.state = .active pid →
    j.attemptsMade = job.attemptsMade ∧ j.attempts = job.attempts

/-- What a task of a relay run knows of its row. -/
structure TaskBooks (pid : ℕ) (t : EnqueueTask) (s : OutboxState) : Prop where
  reached : Reached s t.jobId
  generation : ∀ row, s.events t.id = some row → row.status = .claimed →
    row.claimToken = some pid → row.deliveryGeneration = t.event.deliveryGeneration

def ProcBooks (pid : ℕ) (p : Proc) (s : OutboxState) : Prop :=
  match p with
  | .relay (.enqueue tasks) => ∀ t ∈ tasks, TaskBooks pid t s
  | .worker jid job _ => WorkerBooks pid jid job s
  | .reconcile jid r => r.job.data = jobData jid
  | _ => True

def books : Assertions OutboxState Proc where
  shared := StoreBooks
  proc := ProcBooks

/-- Locks that are held were held before. -/
def LocksKept (s s' : OutboxState) : Prop :=
  ∀ jid j token, s'.queue jid = some j → j.state = .active token → s.queue jid = some j

theorem LocksKept.of_eq (h : s'.queue = s.queue) : LocksKept s s' :=
  fun _ _ _ hj _ => h ▸ hj

theorem LocksKept.of_set {j : Job NotificationJobData} (h : s'.queue = s.queue.set jid j)
    (hj : ∀ token, j.state ≠ .active token) : LocksKept s s' := by
  intro jid' j' token hj' ht
  rw [h] at hj'
  rcases Table.set_eq_some.mp hj' with ⟨-, rfl⟩ | ⟨-, hj'⟩
  · exact absurd ht (hj token)
  · exact hj'

theorem afterFailure_state (j : Job NotificationJobData) (token : ℕ) :
    j.afterFailure.state ≠ .active token := by
  unfold Job.afterFailure
  simp only []
  split <;> nofun

theorem step_locksKept (h : step cfg s pid p c = some (s', p')) : LocksKept s s' := by
  rcases step_queue h with hq | ⟨tasks, t, -, -, -, hq⟩ | ⟨jid, job, -, -, hq⟩ |
    ⟨jid, job, e, j, -, -, -, -, hq, -⟩
  · exact .of_eq hq
  · intro jid' j' token hj' ht
    rw [hq] at hj'
    rcases JobQueue.add_eq_some hj' with hj' | ⟨-, -, rfl⟩
    · exact hj'
    · cases ht
  · rcases s.queue.complete_cases jid pid with ⟨j, -, -, he⟩ | ⟨-, he⟩
    · exact .of_set (hq.trans he) nofun
    · exact .of_eq (hq.trans he)
  · exact .of_set hq (afterFailure_state j)

variable {e : Event}

/-- What happens outside the programs leaves a job as it was, sends it back to wait, or forgets a
finished one. -/
theorem event_queue (h : event cfg s e = some s') : s'.queue = s.queue ∨
      (∃ jid j token, e = .stall jid ∧ s'.events = s.events ∧ s.queue jid = some j ∧
        j.state = .active token ∧ ¬ j.StallLimit cfg.maxStalledCount ∧ s'.queue = s.queue.set jid
          { j with state := .waiting, stalledCounter := j.stalledCounter + 1 }) ∨
      ∃ jid j, e = .removeJob jid ∧ s'.events = s.events ∧ s.queue jid = some j ∧
        (j.state = .completed ∨ j.state = .failed) ∧ s'.queue = s.queue.erase jid := by
  cases event_step h with
  | stall hj hactive hlimit => exact .inr (.inl ⟨_, _, _, rfl, rfl, hj, hactive, hlimit, rfl⟩)
  | removeJob hj hdone => exact .inr (.inr ⟨_, _, rfl, rfl, hj, hdone, rfl⟩)
  | tick | addOutboxEvent | storeStripeEvent | emailProviderEvent => exact .inl rfl

theorem event_locksKept (h : event cfg s e = some s') : LocksKept s s' := by
  rcases event_queue h with hq | ⟨jid, j, token, -, -, -, -, -, hq⟩ | ⟨jid, j, -, -, -, -, hq⟩
  · exact .of_eq hq
  · exact .of_set hq nofun
  · intro jid' j' token hj' _
    rw [hq] at hj'
    exact (Table.erase_eq_some.mp hj').2

/-- The ids of the jobs of a state are ids of jobs of `s`, but for new jobs of reached
generations. -/
def JobsFrom (s s' : OutboxState) : Prop :=
  ∀ jid j, s'.queue jid = some j → (∃ j₀, s.queue jid = some j₀ ∧ j.data = j₀.data) ∨
    (j.data = jobData jid ∧ Reached s jid)

theorem JobsFrom.of_eq (h : s'.queue = s.queue) : JobsFrom s s' :=
  fun _ j hj => .inl ⟨j, h ▸ hj, rfl⟩

theorem JobsFrom.of_set {j j₀ : Job NotificationJobData} (h : s'.queue = s.queue.set jid j)
    (hj₀ : s.queue jid = some j₀) (hd : j.data = j₀.data) : JobsFrom s s' := by
  intro jid' j' hj'
  rw [h] at hj'
  rcases Table.set_eq_some.mp hj' with ⟨rfl, rfl⟩ | ⟨-, hj'⟩
  · exact .inl ⟨j₀, hj₀, hd⟩
  · exact .inl ⟨j', hj', rfl⟩

theorem StoreBooks.mono (h : StoreBooks s) (hs : RowsStep may s s') (hq : JobsFrom s s') :
    StoreBooks s' where
  data jid j hj := by
    rcases hq jid j hj with ⟨j₀, hj₀, hd⟩ | ⟨hd, -⟩
    · exact hd.trans (h.data jid j₀ hj₀)
    · exact hd
  reached jid j hj := by
    rcases hq jid j hj with ⟨j₀, hj₀, -⟩ | ⟨-, hr⟩
    · exact (h.reached jid j₀ hj₀).mono hs
    · exact hr.mono hs
  lease id row' hr' hc := by
    obtain ⟨row, hr, rfl | ⟨wr, -, hd⟩⟩ := hs.row_of hr'
    · exact h.lease id _ hr hc
    · have hst := hd.status.symm.trans hc
      cases wr with
      | claim now token => exact ⟨_, (hd.claimed now token rfl).2⟩
      | _ => simp [RowWrite.target] at hst

theorem step_jobsFrom (hok : ProcBooks pid p s) (h : step cfg s pid p c = some (s', p')) :
    JobsFrom s s' := by
  rcases step_queue h with hq | ⟨tasks, t, rfl, ht, -, hq⟩ | ⟨jid, job, rfl, -, hq⟩ |
    ⟨jid, job, e, j, rfl, -, hj, -, hq, -⟩
  · exact .of_eq hq
  · intro jid' j' hj'
    rw [hq] at hj'
    rcases JobQueue.add_eq_some hj' with hj' | ⟨rfl, -, rfl⟩
    · exact .inl ⟨j', hj', rfl⟩
    · exact .inr ⟨rfl, (hok t ht).reached⟩
  · rcases s.queue.complete_cases jid pid with ⟨j, hj, -, he⟩ | ⟨-, he⟩
    · exact .of_set (hq.trans he) hj rfl
    · exact .of_eq (hq.trans he)
  · exact .of_set hq hj rfl

theorem WorkerBooks.mono {job : Job NotificationJobData} (h : WorkerBooks pid jid job s)
    (hl : LocksKept s s') : WorkerBooks pid jid job s' :=
  ⟨h.data, fun j hj ha => h.attempts j (hl jid j pid hj ha) ha⟩

theorem TaskBooks.mono {t : EnqueueTask} (h : TaskBooks pid t s) (hs : RowsStep may s s')
    (hclaim : ∀ now, ¬ may t.id (.claim now pid)) : TaskBooks pid t s' := by
  refine ⟨h.reached.mono hs, fun row' hr' hc htok => ?_⟩
  obtain ⟨row, hr, rfl | ⟨wr, hmay, hd⟩⟩ := hs.row_of hr'
  · exact h.generation _ hr hc htok
  · have hst := hd.status.symm.trans hc
    cases wr with
    | claim now token =>
      obtain rfl := some.inj ((hd.claimed now token rfl).1.symm.trans htok)
      exact absurd hmay (hclaim now)
    | _ => simp [RowWrite.target] at hst

/-- The assertions of a process survive what keeps the locks and makes no claim under its token. -/
theorem ProcBooks.mono {p : Proc} (h : ProcBooks pid p s) (hs : RowsStep may s s')
    (hl : LocksKept s s') (hclaim : ∀ id now, ¬ may id (.claim now pid)) : ProcBooks pid p s' := by
  unfold ProcBooks at h ⊢
  split at h
  · exact fun t ht => (h t ht).mono hs (hclaim t.id)
  · exact h.mono hl
  · exact h
  · trivial

theorem step_procBooks (hst : StoreBooks s) (hok : ProcBooks pid p s)
    (h : step cfg s pid p c = some (s', p')) : ProcBooks pid p' s' := by
  have hrows := step_rows h
  have hlocks := step_locksKept h
  cases p with
  | relay pc =>
    obtain ⟨⟨s₁, pc'⟩, hs, he⟩ := map_eq_some_iff.mp h
    cases he
    rcases relayStep_cases hs with ⟨now, n, rfl, -, htasks⟩ | ⟨tasks, t, t', rfl, ht, hts, rfl⟩
    · cases pc' with
      | enqueue tasks =>
        intro t ht
        obtain ⟨-, row, hr, hev⟩ := htasks tasks rfl t ht
        have hgen : ∀ row', s₁.events t.id = some row' →
            row'.deliveryGeneration = t.event.deliveryGeneration := by
          intro row' hr'
          obtain ⟨r, hr₂, he | ⟨wr, hmay, hd⟩⟩ := hrows.row_of hr'
          · rw [he, hev, some.inj (hr₂.symm.trans hr)]
            rfl
          · cases hmay
            rw [hd.generation, hev, some.inj (hr₂.symm.trans hr)]
            rfl
        obtain ⟨row', hr', -⟩ := hrows.row hr
        exact ⟨⟨row', hr', (hgen row' hr').ge⟩, fun row'' hr'' _ _ => hgen row'' hr''⟩
      | _ => trivial
    · have hold : ∀ u ∈ tasks, TaskBooks pid u s₁ := by
        refine fun u hu => (hok u hu).mono hrows fun now hmay => ?_
        obtain ⟨_, _, hp⟩ := writer_of_mayWrite hmay
        cases hp
      intro u hu
      rcases List.mem_or_eq_of_mem_set hu with hu | rfl
      · exact hold u hu
      · obtain ⟨hid, hev⟩ := enqueueClaimedEvent_event hts
        have hb := hold t ht
        refine ⟨?_, ?_⟩
        · rw [EnqueueTask.jobId, hid, hev]
          exact hb.reached
        · rw [hid, hev]
          exact hb.generation
  | worker jid job pc =>
    rcases step_worker h with ⟨pc', rfl, -⟩ | hs
    · exact WorkerBooks.mono hok hlocks
    · rcases settleJob_cases hs with ⟨-, -, rfl⟩ | ⟨e, -, ⟨j, hj, -, -, rfl⟩ | ⟨-, -, rfl⟩⟩
      · trivial
      · exact hst.data jid j hj
      · trivial
  | reconcile jid r =>
    obtain ⟨r', hs, rfl⟩ := map_pair_inj h
    exact (congrArg Job.data (reconcileExhaustedJob_job hs)).trans hok
  | redrive pc =>
    obtain ⟨r', -, he⟩ := map_eq_some_iff.mp h
    cases he
    trivial
  | finished => cases h

theorem start_books {x : Start} {p : Proc} (hst : StoreBooks s)
    (h : start cfg s pid x = some (s', p)) : JobsFrom s s' ∧ ProcBooks pid p s' ∧
      ∀ jid j token, s'.queue jid = some j → j.state = .active token →
        token = pid ∨ s.queue jid = some j := by
  unfold start at h
  split at h
  · cases h
    exact ⟨.of_eq rfl, trivial, fun _ _ _ hj _ => .inr hj⟩
  · obtain ⟨⟨q, j'⟩, hq, he⟩ := map_eq_some_iff.mp h
    obtain ⟨j, hj, -, rfl, rfl⟩ := JobQueue.take_eq_some hq
    cases he
    refine ⟨.of_set rfl hj rfl, ⟨hst.data _ j hj, ?_⟩, fun jid' j' token hj' ht => ?_⟩
    · intro j' hj' _
      obtain rfl := some.inj (Table.set_self.symm.trans hj')
      exact ⟨rfl, rfl⟩
    · rcases Table.set_eq_some.mp hj' with ⟨-, rfl⟩ | ⟨-, hj'⟩
      · exact .inl (JobState.active.inj ht).symm
      · exact .inr hj'
  · obtain ⟨⟨q, j'⟩, hq, he⟩ := map_eq_some_iff.mp h
    obtain ⟨j, token, hj, -, -, rfl, rfl⟩ := JobQueue.stallOut_eq_some hq
    cases he
    exact ⟨.of_set rfl hj rfl, hst.data _ j hj, fun jid' j' token hj' ht =>
      .inr (LocksKept.of_set rfl (fun _ => JobState.noConfusion) jid' j' token hj' ht)⟩
  · cases h
    exact ⟨.of_eq rfl, trivial, fun _ _ _ hj _ => .inr hj⟩

theorem event_reached (h : event cfg s e = some s') (hr : Reached s jid) : Reached s' jid := by
  obtain ⟨row, hr, hg⟩ := hr
  exact ⟨row, event_rowsMono h hr, hg⟩

theorem event_storeBooks (h : event cfg s e = some s') (hok : StoreBooks s) : StoreBooks s' := by
  have hjobs : JobsFrom s s' := by
    rcases event_queue h with hq | ⟨jid, j, token, -, -, hj, -, -, hq⟩ | ⟨jid, j, -, -, -, -, hq⟩
    · exact .of_eq hq
    · exact .of_set hq hj rfl
    · intro jid' j' hj'
      rw [hq] at hj'
      exact .inl ⟨j', (Table.erase_eq_some.mp hj').2, rfl⟩
  refine ⟨fun jid j hj => ?_, fun jid j hj => ?_, fun id row hr hc => ?_⟩
  · rcases hjobs jid j hj with ⟨j₀, hj₀, hd⟩ | ⟨hd, -⟩
    · exact hd.trans (hok.data jid j₀ hj₀)
    · exact hd
  · rcases hjobs jid j hj with ⟨j₀, hj₀, -⟩ | ⟨-, hr⟩
    · exact event_reached h (hok.reached jid j₀ hj₀)
    · exact event_reached h hr
  · rcases event_rows h id with he | ⟨-, row', hr', hp, -⟩
    · exact hok.lease id row (he ▸ hr) hc
    · rw [some.inj (hr.symm.trans hr'), hp] at hc
      cases hc

theorem event_procBooks (h : event cfg s e = some s') {p : Proc} (hok : ProcBooks pid p s) :
    ProcBooks pid p s' := by
  unfold ProcBooks at hok ⊢
  split at hok
  · refine fun t ht => ⟨event_reached h (hok t ht).reached, fun row hr hc htok => ?_⟩
    rcases event_rows h t.id with he | ⟨-, row', hr', hp, -⟩
    · exact (hok t ht).generation row (he ▸ hr) hc htok
    · rw [some.inj (hr.symm.trans hr'), hp] at hc
      cases hc
  · exact hok.mono (event_locksKept h)
  · exact hok
  · trivial

/-- **The books of rows and jobs.** -/
theorem booksOutline : Outline (outbox cfg) anyStep books where
  init := by
    refine StoreBooks.mk (fun jid j hj => ?_) (fun jid j hj => ?_) fun id row hr => ?_
    · cases hj
    · cases hj
    · cases hr
  env w e s h _ hs := ⟨event_storeBooks hs h.shared, fun j q hq => event_procBooks hs (h.proc j q hq)⟩
  spawn w x s p h _ hs := by
    obtain ⟨hjobs, hnew, hlocks⟩ := start_books h.shared hs
    have hrows := start_rows hs
    refine ⟨h.shared.mono hrows hjobs, hnew, fun j q hq => ⟨?_, trivial, trivial⟩⟩
    have hq' := h.proc j q hq
    unfold books ProcBooks at hq' ⊢
    simp only [] at hq' ⊢
    split at hq'
    · exact fun t ht => (hq' t ht).mono hrows fun _ => id
    · refine ⟨hq'.data, fun j' hj' ha => ?_⟩
      rcases hlocks _ j' j hj' ha with rfl | hj₀
      · exact absurd rfl (World.ne_fresh hq)
      · exact hq'.attempts j' hj₀ ha
    · exact hq'
    · trivial
  step w i p c s p' h hp _ hs :=
    ⟨h.shared.mono (step_rows hs) (step_jobsFrom (h.proc i p hp) hs),
      step_procBooks h.shared (h.proc i p hp) hs⟩
  frame w i p c s p' h hp _ hs j q hj hq := by
    refine ⟨(h.proc j q hq).mono (step_rows hs) (step_locksKept hs) fun id now hmay => ?_,
      trivial, trivial⟩
    exact hj (writer_of_mayWrite hmay).1

theorem active_lt_fresh {w : OutboxWorld} (h : Reachable (outbox cfg).system w) :
    ∀ jid j token, w.shared.queue jid = some j → j.state = .active token → token < w.fresh := by
  refine h.invariant' (I := fun w => ∀ jid j token, w.shared.queue jid = some j →
    j.state = .active token → token < w.fresh) (fun w hw => ?_) fun w w' l hr hinv _ hn => ?_
  · obtain rfl : w = ⟨{}, []⟩ := hw
    intro jid j token hj
    cases hj
  · cases Program.move_of_next hn with
    | spawn hs =>
      intro jid j token hj ht
      rw [World.fresh_add]
      rcases (start_books (booksOutline.holds hr).shared hs).2.2 jid j token hj ht with rfl | hj
      · exact Nat.lt_succ_self _
      · exact (hinv jid j token hj ht).trans (Nat.lt_succ_self _)
    | step hp hs =>
      intro jid j token hj ht
      rw [World.fresh_put]
      exact hinv jid j token (step_locksKept hs jid j token hj ht) ht
    | crash hp =>
      intro jid j token hj ht
      rw [World.fresh_kill]
      exact hinv jid j token hj ht
    | env hs =>
      intro jid j token hj ht
      exact hinv jid j token (event_locksKept hs jid j token hj ht) ht

end BackendFoundation.Outbox.Jobs
