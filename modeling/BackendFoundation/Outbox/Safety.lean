import BackendFoundation.Outbox.Lifecycle
import Mathlib.Data.List.Nodup

/-! # Claim and generation safety of the outbox

Five conditional updates in three modules guard an outbox row with different predicates. The proof
outline `safetyOutline` ties them together. A worker past its start holds the row in `PROCESSING`
until a write of its own, a delivery or a dead letter ends its generation; a claim held by a relay
run carries that run's token; what a redrive has reset has moved to a later generation.

`claim_and_generation_safety` is the result: what any step may do to a row, and which processes may
be under way at once. -/

namespace BackendFoundation.Outbox.Safety

open Lib Lib.Runs Lib.Interleave Outbox.Model Outbox.Programs Outbox.Lifecycle
open Option (some.inj map_eq_some_iff)

variable {cfg : Config} {s s' : OutboxState}

/-! ### Workers past their start -/

/-- The worker has made its update to `PROCESSING` and not yet the next outbox status write. -/
def PastStart : WorkerPc → Prop
  | .findEvent | .expire _ | .start _ | .returned | .thrown _ => False
  | .findDelivery _ | .upsertDelivery _ | .finishRecorded _ | .rateLimit _ | .callProvider _
  | .recordResult _ _ | .deliver _ | .recordError _ _ | .recordFailure _ _ => True

/-- The process is a worker past its start on the event `id` in the generation `g`. -/
def WorksOn (p : Proc) (id : Uuid) (g : ℕ) : Prop :=
  ∃ jobId job pc, p = .worker jobId job pc ∧ PastStart pc ∧
    job.data.outboxId = id ∧ job.data.deliveryGeneration = g

/-- The row of a worker past its start: the generation is over, or the row is in `PROCESSING` or in
a terminal status. -/
def Held (s : OutboxState) (id : Uuid) (g : ℕ) : Prop :=
  ∃ row, s.events id = some row ∧
    (g < row.deliveryGeneration ∨ (row.deliveryGeneration = g ∧
      (row.status = .processing ∨ row.status = .delivered ∨ row.status = .deadLetter)))

/-- The row of `id` has left the generation `g`. -/
def Passed (s : OutboxState) (id : Uuid) (g : ℕ) : Prop :=
  ∃ row, s.events id = some row ∧ g < row.deliveryGeneration

theorem sendPc_pastStart (event : OutboxEvent) : PastStart (sendPc event) := by
  unfold sendPc
  cases event.channel <;> trivial

variable {job : Job NotificationJobData} {c : Choice}

theorem processNotification_pastStart {pc pc' : WorkerPc}
    (h : processNotification cfg s job pc c = some (s', pc')) (hpast : PastStart pc') :
    PastStart pc ∨ ∃ row row', s.events job.data.outboxId = some row ∧
      s'.events job.data.outboxId = some row' ∧
      (RowWrite.start job.data.deliveryGeneration).Does row row' := by
  unfold processNotification at h
  split at h
  case h_1 =>
    exfalso
    obtain ⟨-, ⟨-, rfl⟩ | ⟨e, -, rfl⟩⟩ := Outcome.read_cases (some.inj h)
    · split at hpast
      · exact hpast
      · split_ifs at hpast <;> exact hpast
    · exact hpast
  case h_2 =>
    obtain ⟨-, -, rfl⟩ | ⟨e, -, -, rfl⟩ | ⟨e, -, -, rfl⟩ := Outcome.run_cases (some.inj h)
    all_goals exact hpast.elim
  case h_3 =>
    right
    obtain ⟨-, rfl, rfl⟩ | ⟨e, -, -, rfl⟩ | ⟨e, -, -, rfl⟩ :=
      Outcome.run_cases (some.inj h)
    · rcases startEvent_cases s job.data.outboxId job.data.deliveryGeneration with
        ⟨row, row', hr, hdoes, he⟩ | ⟨-, he⟩
      · exact ⟨row, row', hr, by rw [he]; exact Table.set_self, hdoes⟩
      · rw [he] at hpast
        exact hpast.elim
    · exact hpast.elim
    · exact hpast.elim
  case h_13 => cases h
  case h_14 => cases h
  all_goals exact .inl trivial

/-- After the write of `recordDeliveryFailure` a worker throws. -/
theorem processNotification_recordFailure {pc' : WorkerPc} {event : OutboxEvent}
    {error : Errors.Thrown}
    (h : processNotification cfg s job (.recordFailure event error) c = some (s', pc')) :
    ∃ e, pc' = .thrown e := by
  rcases Outcome.run_cases (some.inj h) with ⟨-, -, rfl⟩ | ⟨e, -, -, rfl⟩ | ⟨e, -, -, rfl⟩
  · exact ⟨_, rfl⟩
  · exact ⟨_, rfl⟩
  · exact ⟨_, rfl⟩

/-! ### What the writes do to held rows -/

variable {may : Uuid → RowWrite → Prop} {g : ℕ}

theorem Passed.mono {id : Uuid} (h : Passed s id g) (hs : RowsStep may s s') : Passed s' id g := by
  obtain ⟨row, hr, hg⟩ := h
  obtain ⟨row', hr', rfl | ⟨wr, -, hd⟩⟩ := hs.row hr
  · exact ⟨_, hr', hg⟩
  · exact ⟨row', hr', hg.trans_le hd.generation_le⟩

variable {row row' : OutboxEvent}

theorem passed_of_redrive {id : Uuid} (hr' : s'.events id = some row')
    (h : (RowWrite.redrive g).Does row row') : Passed s' id g :=
  ⟨row', hr', by rw [h.generation, h.generation_eq rfl]; exact Nat.lt_succ_self g⟩

/-- A held row stays held under every write but a retry in its own generation: the row is not in a
status that another start, a claim or its release could take it from. -/
theorem Held.mono {id : Uuid} (h : Held s id g) (hs : RowsStep may s s')
    (hretry : ¬ may id (.retry g)) : Held s' id g := by
  obtain ⟨row, hr, hrow⟩ := h
  obtain ⟨row', hr', rfl | ⟨wr, hmay, hd⟩⟩ := hs.row hr
  · exact ⟨_, hr', hrow⟩
  refine ⟨row', hr', ?_⟩
  rcases hrow with hg | ⟨hg, hstatus⟩
  · exact .inl (hg.trans_le hd.generation_le)
  have hguard := hd.guard
  have hst := hd.status
  have hgen := hd.generation
  cases wr with
  | claim now token =>
    rcases hguard.2.2.2 with hp | ⟨hc, -⟩
    · simp [hp] at hstatus
    · simp [hc] at hstatus
  | enqueue token => simp [hguard.1] at hstatus
  | release token => simp [hguard.1] at hstatus
  | expire g' => exact .inr ⟨hgen.trans hg, .inr (.inr hst)⟩
  | start g' => rcases hguard.2 with h | h <;> simp [h] at hstatus
  | deliver g' => exact .inr ⟨hgen.trans hg, .inr (.inl hst)⟩
  | retry g' =>
    obtain rfl : g' = g := hguard.1.symm.trans hg
    exact absurd hmay hretry
  | deadLetter g' => exact .inr ⟨hgen.trans hg, .inr (.inr hst)⟩
  | redrive g' => exact .inl (by rw [hgen, hg]; exact Nat.lt_succ_self g)

theorem Held.not_start {id : Uuid} (h : Held s id g) (hr : s.events id = some row) :
    ¬ (RowWrite.start g).Does row row' := by
  rintro ⟨⟨hg, hs⟩, -⟩
  obtain ⟨r, hr', hrow⟩ := h
  obtain rfl := some.inj (hr.symm.trans hr')
  rcases hrow with h' | ⟨-, h'⟩
  · omega
  · rcases hs with hs | hs <;> simp [hs] at h'

/-! ### The proof outline -/

/-- What holds of the audit trail: a redrive that was recorded has moved its event on, and no two
records are of the same dead letter. -/
structure AuditOk (s : OutboxState) : Prop where
  passed : ∀ a ∈ s.auditEvents, Passed s a.entityId a.previousGeneration
  nodup : (s.auditEvents.map fun a => (a.entityId, a.previousGeneration)).Nodup

def Checked (s : OutboxState) (id : Uuid) (existing : DeadLetterSelect) (checkedAt : ℕ) : Prop :=
  checkedAt ≤ s.now ∧ ∃ row, s.events id = some row ∧ row.expiresAt = existing.expiresAt ∧
    ∀ t ∈ existing.expiresAt, checkedAt < t

/-- What holds at the program points of a process. -/
def ProcOk (pid : ℕ) (p : Proc) (s : OutboxState) : Prop :=
  (∀ id g, WorksOn p id g → Held s id g) ∧
    match p with
    | .relay (.claim now _) => now ≤ s.now
    | .relay (.enqueue tasks) => ∀ t ∈ tasks, t.event.claimToken = some pid
    | .redrive (.reset id _ existing checkedAt) => Checked s id existing checkedAt
    | .redrive (.succeeded id g) => Passed s id g
    | _ => True

/-- What holds between two processes. -/
structure PairOk (p q : Proc) : Prop where
  works : ∀ id g, WorksOn p id g → ¬ WorksOn q id g
  redrive : ∀ id g, p = .redrive (.succeeded id g) → q ≠ .redrive (.succeeded id g)

theorem PairOk.symm {p q : Proc} (h : PairOk p q) : PairOk q p :=
  ⟨fun id g hq hp => h.works id g hp hq, fun id g hq hp => h.redrive id g hp hq⟩

def safety : Assertions OutboxState Proc where
  shared := AuditOk
  proc := ProcOk
  pair _ p _ q := PairOk p q

theorem AuditOk.mono (h : AuditOk s) (hs : RowsStep may s s') : AuditOk s' := by
  rcases hs.audit with ha | ⟨id, g, row, row', actor, -, hr, hr', hd, ha⟩
  · refine ⟨fun a hmem => ?_, ha ▸ h.nodup⟩
    rw [ha] at hmem
    exact (h.passed a hmem).mono hs
  · refine ⟨fun a hmem => ?_, ?_⟩
    · rw [ha] at hmem
      rcases List.mem_append.mp hmem with hmem | hmem
      · exact (h.passed a hmem).mono hs
      · obtain rfl := List.mem_singleton.mp hmem
        exact passed_of_redrive hr' hd
    · rw [ha, List.map_append, List.nodup_append]
      refine ⟨h.nodup, List.nodup_singleton _, ?_⟩
      -- an older record of the same dead letter would mean that the row has left the generation
      rintro _ hmem _ hnew rfl
      obtain ⟨a, hamem, hae⟩ := List.mem_map.mp hmem
      obtain ⟨r, hr₂, hlt⟩ := h.passed a hamem
      simp only [List.map_cons, List.map_nil, List.mem_singleton] at hnew
      obtain ⟨hid, hg⟩ := Prod.mk.inj (hae.trans hnew)
      rw [hid, hr] at hr₂
      obtain rfl := some.inj hr₂
      rw [hg, hd.generation_eq rfl] at hlt
      exact lt_irrefl _ hlt

theorem Checked.mono {id : Uuid} {existing : DeadLetterSelect} {t : ℕ}
    (h : Checked s id existing t) (hs : RowsStep may s s') : Checked s' id existing t := by
  obtain ⟨ht, row, hr, he, hx⟩ := h
  obtain ⟨row', hr', rfl | ⟨wr, -, hd⟩⟩ := hs.row hr
  · exact ⟨hs.now ▸ ht, _, hr', he, hx⟩
  · exact ⟨hs.now ▸ ht, row', hr', hd.expiresAt.trans he, hx⟩

/-- The process a write comes from. -/
def Writer (pid : ℕ) (p : Proc) (id : Uuid) : RowWrite → Prop
  | .claim now token => token = pid ∧ ∃ batchSize, p = .relay (.claim now batchSize)
  | .enqueue token => ∃ tasks, p = .relay (.enqueue tasks) ∧
    ∃ t ∈ tasks, t.id = id ∧ token = t.event.claimToken ∧ t.pc = .markEnqueued
  | .release token => ∃ tasks, p = .relay (.enqueue tasks) ∧
    ∃ t ∈ tasks, t.id = id ∧ token = t.event.claimToken
  | .start g => ∃ jobId job event, p = .worker jobId job (.start event) ∧
    job.data.outboxId = id ∧ job.data.deliveryGeneration = g
  | .retry g => WorksOn p id g
  | .redrive g => ∃ actorUserId existing checkedAt,
    p = .redrive (.reset id actorUserId existing checkedAt) ∧ existing.deliveryGeneration = g
  | .expire _ | .deliver _ | .deadLetter _ => True

variable {pid : ℕ} {p : Proc}

theorem writer_of_mayWrite {id : Uuid} {wr : RowWrite} (h : mayWrite pid p id wr) :
    Writer pid p id wr := by
  cases p with
  | relay pc =>
    cases pc with
    | claim now batchSize =>
      cases h
      exact ⟨rfl, batchSize, rfl⟩
    | enqueue tasks =>
      obtain ⟨t, ht, rfl, hw⟩ := h
      unfold taskWrites at hw
      split at hw
      · next hpc =>
        cases hw
        exact ⟨tasks, rfl, t, ht, rfl, rfl, hpc⟩
      · cases hw
        exact ⟨tasks, rfl, t, ht, rfl, rfl⟩
      · exact hw.elim
    | failed error => exact h.elim
  | worker jobId job pc =>
    obtain ⟨rfl, hw⟩ := h
    cases pc with
    | start event =>
      cases hw
      exact ⟨jobId, job, event, rfl, rfl, rfl⟩
    | recordFailure event error =>
      simp only [workerWrites, failureWrite] at hw
      split at hw <;> cases hw
      · exact ⟨jobId, job, _, rfl, trivial, rfl, rfl⟩
      · trivial
    | _ => cases hw <;> trivial
  | reconcile jobId r =>
    cases h.2
    trivial
  | redrive pc =>
    cases pc with
    | reset id' actorUserId existing checkedAt =>
      obtain ⟨rfl, rfl⟩ := h
      exact ⟨actorUserId, existing, checkedAt, rfl, rfl⟩
    | _ => exact h.elim
  | finished => exact h.elim

theorem retry_of_mayWrite {id : Uuid} (h : mayWrite pid p id (.retry g)) :
    WorksOn p id g := writer_of_mayWrite h

theorem ProcOk.mono (h : ProcOk pid p s) (hs : RowsStep may s s')
    (hretry : ∀ id g, WorksOn p id g → ¬ may id (.retry g)) : ProcOk pid p s' := by
  refine ⟨fun id g hw => (h.1 id g hw).mono hs (hretry id g hw), ?_⟩
  have h₂ := h.2
  split at h₂
  · exact hs.now ▸ h₂
  · exact h₂
  · exact Checked.mono h₂ hs
  · exact Passed.mono h₂ hs
  · trivial

/-! ### The step of a process -/

/-- A worker takes the next step of its processor, or its processor has answered. -/
theorem step_worker {jobId : JobId} {pc : WorkerPc} {p' : Proc}
    (h : step cfg s pid (.worker jobId job pc) c = some (s', p')) :
    (∃ pc', p' = .worker jobId job pc' ∧ processNotification cfg s job pc c = some (s', pc')) ∨
      settleJob s pid jobId pc = some (s', p') := by
  simp only [step] at h
  split at h
  · next r hr =>
    cases h
    exact .inl ⟨_, rfl, hr⟩
  · exact .inr h

theorem settleJob_cases {jobId : JobId} {pc : WorkerPc} {p' : Proc}
    (h : settleJob s pid jobId pc = some (s', p')) :
    (pc = .returned ∧ s' = { s with queue := s.queue.complete jobId pid } ∧ p' = .finished) ∨
      ∃ error, pc = .thrown error ∧
        ((∃ j, s.queue jobId = some j ∧ j.state = .active pid ∧
            s' = { s with queue := s.queue.set jobId j.afterFailure } ∧
            p' = .reconcile jobId ⟨j.afterFailure, error, .findEvent⟩) ∨
          (¬ s.queue.Holds jobId pid ∧ s' = s ∧ p' = .finished)) := by
  unfold settleJob at h
  split at h
  · cases h
    exact .inl ⟨rfl, rfl, rfl⟩
  · next error =>
    simp only [] at h
    refine .inr ⟨error, rfl, ?_⟩
    rcases s.queue.fail_cases jobId pid with ⟨j, hj, ha, he⟩ | ⟨hn, he⟩
    · rw [he] at h
      cases h
      exact .inl ⟨j, hj, ha, rfl, rfl⟩
    · rw [he] at h
      cases h
      exact .inr ⟨hn, rfl, rfl⟩
  · cases h

theorem not_worksOn_settled {jobId : JobId} {pc : WorkerPc} {p' : Proc} {id : Uuid}
    (h : settleJob s pid jobId pc = some (s', p')) : ¬ WorksOn p' id g := by
  rintro ⟨jobId', job', pc', rfl, -⟩
  rcases settleJob_cases h with ⟨-, -, hp⟩ | ⟨e, -, ⟨j, -, -, -, hp⟩ | ⟨-, -, hp⟩⟩ <;> cases hp

theorem step_worksOn {p p' : Proc} {id : Uuid} (h : step cfg s pid p c = some (s', p'))
    (hw : WorksOn p' id g) :
    WorksOn p id g ∨ ∃ row row', s.events id = some row ∧ s'.events id = some row' ∧
      (RowWrite.start g).Does row row' := by
  cases p with
  | relay pc =>
    obtain ⟨r, -, he⟩ := map_eq_some_iff.mp h
    cases he
    obtain ⟨_, _, _, hp, -⟩ := hw
    cases hp
  | worker jobId job pc =>
    rcases step_worker h with ⟨pc', rfl, hs⟩ | hs
    · obtain ⟨_, _, _, hp, hpast, rfl, rfl⟩ := hw
      cases hp
      rcases processNotification_pastStart hs hpast with hold | hstart
      · exact .inl ⟨jobId, job, pc, rfl, hold, rfl, rfl⟩
      · exact .inr hstart
    · exact absurd hw (not_worksOn_settled hs)
  | reconcile jobId r =>
    obtain ⟨r', -, he⟩ := map_eq_some_iff.mp h
    cases he
    obtain ⟨_, _, _, hp, -⟩ := hw
    cases hp
  | redrive pc =>
    obtain ⟨r, -, he⟩ := map_eq_some_iff.mp h
    cases he
    obtain ⟨_, _, _, hp, -⟩ := hw
    cases hp
  | finished => cases h

/-- A worker that still works on its event after a step has not made a retry. -/
theorem not_retry_of_step {p p' : Proc} {id : Uuid} (h : step cfg s pid p c = some (s', p'))
    (hw : WorksOn p' id g) : ¬ mayWrite pid p id (.retry g) := by
  intro hmay
  obtain ⟨jobId, job, pc, rfl, hpast, rfl, rfl⟩ := retry_of_mayWrite hmay
  obtain ⟨-, hwrite⟩ := hmay
  cases pc with
  | recordFailure event error =>
    rcases step_worker h with ⟨pc', rfl, hs⟩ | hs
    · obtain ⟨e, rfl⟩ := processNotification_recordFailure hs
      obtain ⟨_, _, _, hp, hpast', -⟩ := hw
      cases hp
      exact hpast'
    · exact not_worksOn_settled hs hw
  | _ => cases hwrite

theorem redriveStep_cases {pc pc' : RedrivePc} (h : redriveStep s pc c = some (s', pc')) :
    (∃ error, pc' = .failed error) ∨
      (∃ id actorUserId row, pc = .find id actorUserId ∧ s' = s ∧ s.events id = some row ∧
        ¬ row.Expired s.now ∧ row.status = .deadLetter ∧
        pc' = .reset id actorUserId ⟨row.status, row.deliveryGeneration, row.expiresAt⟩ s.now) ∨
      ∃ id actorUserId existing checkedAt row row', pc = .reset id actorUserId existing checkedAt ∧
        s.events id = some row ∧ s'.events id = some row' ∧
        (RowWrite.redrive existing.deliveryGeneration).Does row row' ∧
        pc' = .succeeded id existing.deliveryGeneration := by
  unfold redriveStep at h
  split at h
  · next id actorUserId =>
    obtain ⟨rfl, ⟨-, rfl⟩ | ⟨e, -, rfl⟩⟩ := Outcome.read_cases (some.inj h)
    · split
      · exact .inl ⟨_, rfl⟩
      · next row hfind =>
        obtain ⟨hrow, -⟩ := Option.filter_eq_some_iff.mp hfind
        split_ifs with hstatus hexpired
        · exact .inl ⟨_, rfl⟩
        · exact .inl ⟨_, rfl⟩
        · exact .inr (.inl ⟨id, actorUserId, row, rfl, rfl, hrow, hexpired,
            not_not.mp hstatus, rfl⟩)
    · exact .inl ⟨_, rfl⟩
  · next id actorUserId existing checkedAt =>
    split_ifs at h with hcount
    · cases h
      exact .inl ⟨_, rfl⟩
    · obtain ⟨row, row', hr, hdoes, he⟩ := redriveReset_eq actorUserId hcount
      rcases Outcome.run_cases (some.inj h) with ⟨-, rfl, rfl⟩ | ⟨e, -, -, rfl⟩ |
        ⟨e, -, -, rfl⟩
      · refine .inr (.inr ⟨id, actorUserId, existing, checkedAt, row, row', rfl, hr, ?_, hdoes, rfl⟩)
        rw [he]
        exact Table.set_self
      · exact .inl ⟨_, rfl⟩
      · exact .inl ⟨_, rfl⟩
  · cases h
  · cases h

theorem step_succeeded {id : Uuid}
    (h : step cfg s pid p c = some (s', .redrive (.succeeded id g))) :
    ∃ row row', s.events id = some row ∧ s'.events id = some row' ∧
      (RowWrite.redrive g).Does row row' := by
  cases p with
  | relay pc =>
    obtain ⟨r, -, he⟩ := map_eq_some_iff.mp h
    cases he
  | worker jobId job pc =>
    rcases step_worker h with ⟨pc', hp, -⟩ | hs
    · cases hp
    · rcases settleJob_cases hs with ⟨-, -, hp⟩ | ⟨e, -, ⟨j, -, -, -, hp⟩ | ⟨-, -, hp⟩⟩ <;> cases hp
  | reconcile jobId r =>
    obtain ⟨r', -, he⟩ := map_eq_some_iff.mp h
    cases he
  | redrive pc =>
    obtain ⟨⟨s₁, pc'⟩, hs, he⟩ := map_eq_some_iff.mp h
    cases he
    rcases redriveStep_cases hs with ⟨e, he⟩ | ⟨_, _, _, -, -, -, -, -, he⟩ |
      ⟨id', _, existing, _, row, row', -, hr, hr', hdoes, he⟩
    · cases he
    · cases he
    · cases he
      exact ⟨row, row', hr, hr', hdoes⟩
  | finished => cases h

theorem enqueueClaimedEvent_event {t t' : EnqueueTask}
    (h : enqueueClaimedEvent s t c = some (s', t')) : t'.id = t.id ∧ t'.event = t.event := by
  unfold enqueueClaimedEvent at h
  split at h
  · split_ifs at h
    · cases h
      exact ⟨rfl, rfl⟩
    · rcases Outcome.run_cases (some.inj h) with ⟨-, -, rfl⟩ | ⟨e, -, -, rfl⟩ |
        ⟨e, -, -, rfl⟩ <;> exact ⟨rfl, rfl⟩
  · rcases Outcome.run_cases (some.inj h) with ⟨-, -, rfl⟩ | ⟨e, -, -, rfl⟩ |
      ⟨e, -, -, rfl⟩ <;> exact ⟨rfl, rfl⟩
  · rcases Outcome.run_cases (some.inj h) with ⟨-, -, rfl⟩ | ⟨e, -, -, rfl⟩ |
      ⟨e, -, -, rfl⟩ <;> exact ⟨rfl, rfl⟩
  · cases h
  · cases h

theorem relayStep_tokens {pc : RelayPc} {tasks : List EnqueueTask}
    (h : relayStep s pid pc c = some (s', .enqueue tasks))
    (hold : ∀ old, pc = .enqueue old → ∀ t ∈ old, t.event.claimToken = some pid) :
    ∀ t ∈ tasks, t.event.claimToken = some pid := by
  unfold relayStep at h
  split at h
  · next now batchSize =>
    split_ifs at h
    rcases Outcome.run_cases (some.inj h) with ⟨-, -, htasks⟩ | ⟨e, -, -, htasks⟩ |
      ⟨e, -, -, htasks⟩
    · obtain rfl := RelayPc.enqueue.inj htasks
      intro t ht
      obtain ⟨id, -, hid⟩ := List.mem_filterMap.mp ht
      obtain ⟨row, -, rfl⟩ := map_eq_some_iff.mp hid
      rfl
    · cases htasks
    · cases htasks
  · next old =>
    split at h
    · next t₀ ht₀ =>
      obtain ⟨⟨s₁, t'⟩, hs, he⟩ := map_eq_some_iff.mp h
      cases he
      intro t ht
      rcases List.mem_or_eq_of_mem_set ht with ht | rfl
      · exact hold old rfl t ht
      · rw [(enqueueClaimedEvent_event hs).2]
        exact hold old rfl t₀ (List.mem_of_getElem? ht₀)
    · cases h
  · cases h

theorem relayStep_ne_claim {pc : RelayPc} {now batchSize : ℕ} :
    relayStep s pid pc c ≠ some (s', .claim now batchSize) := by
  intro h
  unfold relayStep at h
  split at h
  · split_ifs at h
    rcases Outcome.run_cases (some.inj h) with ⟨-, -, he⟩ | ⟨e, -, -, he⟩ |
      ⟨e, -, -, he⟩ <;> cases he
  · split at h
    · obtain ⟨r, -, he⟩ := map_eq_some_iff.mp h
      cases he
    · cases h
  · cases h

theorem step_procOk {p p' : Proc} (h : step cfg s pid p c = some (s', p')) (hok : ProcOk pid p s) :
    ProcOk pid p' s' := by
  refine ⟨fun id g hw => ?_, ?_⟩
  · rcases step_worksOn h hw with hold | ⟨row, row', hr, hr', hd⟩
    · exact (hok.1 id g hold).mono (step_rows h) (not_retry_of_step h hw)
    · refine ⟨row', hr', .inr ⟨?_, .inl hd.status⟩⟩
      rw [hd.generation, hd.generation_eq rfl]
      rfl
  have hsh := hok.2
  cases p with
  | relay pc =>
    obtain ⟨pc', hs, rfl⟩ := map_pair_inj h
    cases pc' with
    | claim now batchSize => exact absurd hs relayStep_ne_claim
    | enqueue tasks =>
      refine relayStep_tokens hs ?_
      rintro old rfl
      exact hsh
    | failed error => trivial
  | worker jobId job pc =>
    rcases step_worker h with ⟨pc', rfl, -⟩ | hs
    · trivial
    · rcases settleJob_cases hs with ⟨-, -, rfl⟩ | ⟨e, -, ⟨j, -, -, -, rfl⟩ | ⟨-, -, rfl⟩⟩ <;> trivial
  | reconcile jobId r =>
    obtain ⟨r', -, he⟩ := map_eq_some_iff.mp h
    cases he
    trivial
  | redrive pc =>
    obtain ⟨pc', hs, rfl⟩ := map_pair_inj h
    rcases redriveStep_cases hs with ⟨e, rfl⟩ | ⟨id, a, row, -, rfl, hr, hx, -, rfl⟩ |
      ⟨id, _, existing, _, row, row', -, hr, hr', hdoes, rfl⟩
    · trivial
    · refine ⟨le_rfl, row, hr, rfl, fun t ht => ?_⟩
      by_contra hle
      exact hx ⟨t, ht, not_lt.mp hle⟩
    · exact passed_of_redrive hr' hdoes
  | finished => cases h

theorem not_worksOn (h : ∀ jobId job pc, p = .worker jobId job pc → ¬ PastStart pc) (id : Uuid)
    (g : ℕ) : ¬ WorksOn p id g := by
  rintro ⟨jobId, job, pc, hp, hpast, -⟩
  exact h jobId job pc hp hpast

/-- A process that has just started works on nothing and has redriven nothing. -/
theorem start_fresh {x : Start} (h : start cfg s pid x = some (s', p)) :
    ProcOk pid p s' ∧ (∀ id g, ¬ WorksOn p id g) ∧ ∀ id g, p ≠ .redrive (.succeeded id g) := by
  have hworks : ∀ id g, ¬ WorksOn p id g := by
    refine not_worksOn fun jobId job pc hp => ?_
    unfold start at h
    split at h
    · cases h
      cases hp
    · obtain ⟨r, -, he⟩ := map_eq_some_iff.mp h
      cases he
      cases hp
      exact id
    · obtain ⟨r, -, he⟩ := map_eq_some_iff.mp h
      cases he
      cases hp
    · cases h
      cases hp
  refine ⟨⟨fun id g hw => absurd hw (hworks id g), ?_⟩, hworks, ?_⟩
  · unfold start at h
    split at h
    · cases h
      exact le_rfl
    · obtain ⟨r, -, he⟩ := map_eq_some_iff.mp h
      cases he
      trivial
    · obtain ⟨r, -, he⟩ := map_eq_some_iff.mp h
      cases he
      trivial
    · cases h
      trivial
  · rintro id g rfl
    unfold start at h
    split at h
    · cases h
    · obtain ⟨r, -, he⟩ := map_eq_some_iff.mp h
      cases he
    · obtain ⟨r, -, he⟩ := map_eq_some_iff.mp h
      cases he
    · cases h

theorem event_rowsMono {e : Event} (h : event cfg s e = some s') {id : Uuid} {row : OutboxEvent}
    (hr : s.events id = some row) : s'.events id = some row := by
  rcases event_rows h id with he | ⟨hn, -⟩
  · exact he.trans hr
  · rw [hn] at hr
    cases hr

theorem event_procOk {e : Event} (h : event cfg s e = some s') (hok : ProcOk pid p s) :
    ProcOk pid p s' := by
  refine ⟨fun id g hw => ?_, ?_⟩
  · obtain ⟨row, hr, hrow⟩ := hok.1 id g hw
    exact ⟨row, event_rowsMono h hr, hrow⟩
  have h₂ := hok.2
  split at h₂
  · exact h₂.trans (event_frame h).1
  · exact h₂
  · obtain ⟨ht, row, hr, hx⟩ := h₂
    exact ⟨ht.trans (event_frame h).1, row, event_rowsMono h hr, hx⟩
  · obtain ⟨row, hr, hg⟩ := h₂
    exact ⟨row, event_rowsMono h hr, hg⟩
  · trivial

theorem event_auditOk {e : Event} (h : event cfg s e = some s') (hok : AuditOk s) : AuditOk s' := by
  have ha := (event_frame h).2
  refine ⟨fun a hmem => ?_, ha ▸ hok.nodup⟩
  obtain ⟨row, hr, hg⟩ := hok.passed a (ha ▸ hmem)
  exact ⟨row, event_rowsMono h hr, hg⟩

/-- **The proof outline of the outbox.** -/
theorem safetyOutline : Outline (outbox cfg) anyStep safety where
  init := ⟨fun a ha => absurd ha List.not_mem_nil, List.nodup_nil⟩
  env w e s h _ hs := ⟨event_auditOk hs h.shared, fun j q hq => event_procOk hs (h.proc j q hq)⟩
  spawn w x s p h _ hs := by
    obtain ⟨hok, hworks, hredrive⟩ := start_fresh hs
    have hrows := start_rows hs
    refine ⟨h.shared.mono hrows, hok, fun j q hq => ⟨(h.proc j q hq).mono hrows fun _ _ _ => id,
      ⟨fun id g _ => hworks id g, fun id g _ => hredrive id g⟩,
      ⟨fun id g hw => absurd hw (hworks id g), fun id g hp => absurd hp (hredrive id g)⟩⟩⟩
  step w i p c s p' h hp _ hs := ⟨h.shared.mono (step_rows hs), step_procOk hs (h.proc i p hp)⟩
  frame w i p c s p' h hp _ hs j q hj hq := by
    have hpair : PairOk q p' := by
      refine ⟨fun id g hwq hw => ?_, fun id g he he' => ?_⟩
      · rcases step_worksOn hs hw with hold | ⟨row, row', hr, -, hd⟩
        · exact (h.pair j i q p hj hq hp).works id g hwq hold
        · exact ((h.proc j q hq).1 id g hwq).not_start hr hd
      · subst he he'
        obtain ⟨row, row', hr, -, hd⟩ := step_succeeded hs
        obtain ⟨r, hr₂, hlt⟩ : Passed w.shared id g := (h.proc j _ hq).2
        obtain rfl := some.inj (hr.symm.trans hr₂)
        rw [hd.generation_eq rfl] at hlt
        exact lt_irrefl _ hlt
    refine ⟨(h.proc j q hq).mono (step_rows hs) fun id g hw hmay => ?_, hpair, hpair.symm⟩
    exact (h.pair j i q p hj hq hp).works id g hw (retry_of_mayWrite hmay)

/-! ### What a step may do to a row -/

theorem next_row {w w' : OutboxWorld} {l : OutboxLabel} (hn : (outbox cfg).next w l = some w')
    {id : Uuid} {row : OutboxEvent} (hr : w.shared.events id = some row) :
    ∃ row', w'.shared.events id = some row' ∧ (row' = row ∨ ∃ i c p wr, l = .step i c ∧
      w.proc? i = some p ∧ mayWrite i p id wr ∧ wr.Does row row') := by
  cases Program.move_of_next hn with
  | spawn hs =>
    obtain ⟨row', hr', rfl | ⟨wr, hmay, -⟩⟩ := (start_rows hs).row hr
    · exact ⟨_, hr', .inl rfl⟩
    · exact hmay.elim
  | @step i c p p' s hp hs =>
    obtain ⟨row', hr', rfl | ⟨wr, hmay, hd⟩⟩ := (step_rows hs).row hr
    · exact ⟨_, hr', .inl rfl⟩
    · exact ⟨row', hr', .inr ⟨i, c, p, wr, rfl, hp, hmay, hd⟩⟩
  | crash hp => exact ⟨row, hr, .inl rfl⟩
  | env hs => exact ⟨row, event_rowsMono hs hr, .inl rfl⟩

/-- The process runs the job `job`: as a worker, or as the failed handler of the job. -/
def RunsJob (p : Proc) (job : Job NotificationJobData) : Prop :=
  (∃ jobId pc, p = .worker jobId job pc) ∨ ∃ jobId r, p = .reconcile jobId r ∧ r.job = job

/-- A worker and a failed handler write only for the generation of their job. -/
theorem generation_of_mayWrite {id : Uuid} {wr : RowWrite} (hp : RunsJob p job)
    (h : mayWrite pid p id wr) :
    id = job.data.outboxId ∧ wr.generation? = some job.data.deliveryGeneration := by
  rcases hp with ⟨jobId, pc, rfl⟩ | ⟨jobId, r, rfl, rfl⟩
  · obtain ⟨rfl, hw⟩ := h
    refine ⟨rfl, ?_⟩
    cases pc with
    | recordFailure event error =>
      simp only [workerWrites, failureWrite] at hw
      split at hw <;> cases hw <;> rfl
    | _ => cases hw <;> rfl
  · obtain ⟨rfl, rfl⟩ := h
    exact ⟨rfl, rfl⟩

/-- What the step `l` from `w` to `w'` may do to outbox rows. -/
structure StepSafe (w w' : OutboxWorld) (l : OutboxLabel) : Prop where
  /-- A claimed row is claimed again only when its lease has lapsed. -/
  claim_lapsed : ∀ id row row', w.shared.events id = some row → w'.shared.events id = some row' →
    row.status = .claimed → row'.status = .claimed → row' ≠ row →
      ∃ t ∈ row.claimExpiresAt, t ≤ w.shared.now
  /-- Only the relay run that holds the claim enqueues or releases a claimed row. -/
  claim_holder : ∀ id row row', w.shared.events id = some row → w'.shared.events id = some row' →
    row.status = .claimed → row'.status = .enqueued ∨ row'.status = .pending →
      ∃ i c tasks, l = .step i c ∧ w.proc? i = some (.relay (.enqueue tasks)) ∧
        (∃ t ∈ tasks, t.id = id) ∧ row.claimToken = some i
  /-- The generation of a row stays, or a redrive raises it by one: the row was a dead letter of
  the generation the redrive had read, and unexpired at `checkedAt`, when the redrive read it. -/
  generation : ∀ id row row', w.shared.events id = some row → w'.shared.events id = some row' →
    row'.deliveryGeneration = row.deliveryGeneration ∨
      (row'.deliveryGeneration = row.deliveryGeneration + 1 ∧ row.status = .deadLetter ∧
        ∃ i c actorUserId existing checkedAt, l = .step i c ∧
          w.proc? i = some (.redrive (.reset id actorUserId existing checkedAt)) ∧
          existing.deliveryGeneration = row.deliveryGeneration ∧ checkedAt ≤ w.shared.now ∧
          ∀ t ∈ row.expiresAt, checkedAt < t)
  /-- A job and a failed handler change only their event, and only in their generation. -/
  job_generation : ∀ i c p job, l = .step i c → w.proc? i = some p → RunsJob p job →
    ∀ id row row', w.shared.events id = some row → w'.shared.events id = some row' → row' ≠ row →
      id = job.data.outboxId ∧ row.deliveryGeneration = job.data.deliveryGeneration
  delivered : ∀ id row, w.shared.events id = some row → row.status = .delivered →
    w'.shared.events id = some row
  kept : ∀ id row, w.shared.events id = some row → ∃ row', w'.shared.events id = some row'

/-- A claimed row is taken to `ENQUEUED` or `PENDING` only by a relay run, with its token. -/
theorem holder_of_claimed {id : Uuid} {wr : RowWrite} (hok : ProcOk pid p s)
    (hr : s.events id = some row) (hmay : mayWrite pid p id wr) (hd : wr.Does row row')
    (hc : row.status = .claimed) (ht : row'.status = .enqueued ∨ row'.status = .pending) :
    ∃ tasks, p = .relay (.enqueue tasks) ∧
      ∃ t ∈ tasks, t.id = id ∧ row.claimToken = t.event.claimToken := by
  have hguard := hd.guard
  have hwriter := writer_of_mayWrite hmay
  rw [hd.status] at ht
  cases wr with
  | enqueue token =>
    obtain ⟨tasks, hp, t, ht, hid, htok, -⟩ := hwriter
    exact ⟨tasks, hp, t, ht, hid, hguard.2.trans htok⟩
  | release token =>
    obtain ⟨tasks, hp, t, ht, hid, htok⟩ := hwriter
    exact ⟨tasks, hp, t, ht, hid, hguard.2.trans htok⟩
  | retry g =>
    -- a worker that retries still holds the row, which is then not claimed
    obtain ⟨r, hr₂, hrow⟩ := hok.1 id g hwriter
    obtain rfl := some.inj (hr.symm.trans hr₂)
    rcases hrow with h | ⟨-, h⟩
    · exact absurd hguard.1 (by omega)
    · simp [hc] at h
  | redrive g => simp [RowWrite.Guard, hc] at hguard
  | _ => simp [RowWrite.target] at ht

theorem stepSafe {w w' : OutboxWorld} {l : OutboxLabel} (h : safety.Holds w)
    (hn : (outbox cfg).next w l = some w') : StepSafe w w' l where
  claim_lapsed id row row' hr hr' hc hc' hne := by
    obtain ⟨r, hr₂, he | ⟨i, c, p, wr, rfl, hp, hmay, hd⟩⟩ := next_row hn hr
    · exact absurd (some.inj (hr'.symm.trans hr₂) ▸ he) hne
    obtain rfl := some.inj (hr'.symm.trans hr₂)
    have hst := hd.status.symm.trans hc'
    cases wr with
    | claim now token =>
      obtain ⟨-, batchSize, rfl⟩ := writer_of_mayWrite hmay
      rcases hd.guard.2.2.2 with hp' | ⟨-, t, ht, hle⟩
      · simp [hc] at hp'
      · exact ⟨t, ht, hle.trans (h.proc i _ hp).2⟩
    | _ => simp [RowWrite.target] at hst
  claim_holder id row row' hr hr' hc hst := by
    obtain ⟨r, hr₂, he | ⟨i, c, p, wr, rfl, hp, hmay, hd⟩⟩ := next_row hn hr
    · rw [some.inj (hr'.symm.trans hr₂), he, hc] at hst
      simp at hst
    obtain rfl := some.inj (hr'.symm.trans hr₂)
    obtain ⟨tasks, rfl, t, ht, htid, htok⟩ :=
      holder_of_claimed (h.proc i p hp) hr hmay hd hc hst
    exact ⟨i, c, tasks, rfl, hp, ⟨t, ht, htid⟩, htok.trans ((h.proc i _ hp).2 t ht)⟩
  generation id row row' hr hr' := by
    obtain ⟨r, hr₂, he | ⟨i, c, p, wr, rfl, hp, hmay, hd⟩⟩ := next_row hn hr
    · rw [some.inj (hr'.symm.trans hr₂), he]
      exact .inl rfl
    obtain rfl := some.inj (hr'.symm.trans hr₂)
    rcases hd.generation_cases with hg | ⟨rfl, hdead, hg⟩
    · exact .inl hg
    obtain ⟨actorUserId, existing, checkedAt, rfl, hex⟩ := writer_of_mayWrite hmay
    obtain ⟨hle, r, hr₃, hx, hlt⟩ := (h.proc i _ hp).2
    obtain rfl := some.inj (hr.symm.trans hr₃)
    exact .inr ⟨hg, hdead, i, c, actorUserId, existing, checkedAt, rfl, hp, hex, hle,
      fun t ht => hlt t (hx ▸ ht)⟩
  job_generation i c p job hl hp hjob id row row' hr hr' hne := by
    obtain ⟨r, hr₂, he | ⟨j, c', q, wr, hl', hq, hmay, hd⟩⟩ := next_row hn hr
    · exact absurd (some.inj (hr'.symm.trans hr₂) ▸ he) hne
    obtain ⟨rfl, -⟩ := Label.step.inj (hl.symm.trans hl')
    obtain rfl := some.inj (hp.symm.trans hq)
    obtain ⟨hid, hg⟩ := generation_of_mayWrite hjob hmay
    exact ⟨hid, hd.generation_eq hg⟩
  delivered id row hr hdel := by
    obtain ⟨r, hr₂, rfl | ⟨i, c, p, wr, rfl, hp, hmay, hd⟩⟩ := next_row hn hr
    · exact hr₂
    · exact absurd hdel hd.not_delivered
  kept id row hr := by
    obtain ⟨row', hr', -⟩ := next_row hn hr
    exact ⟨row', hr'⟩

/-- What holds in a world: the next step treats every row as `StepSafe` says, no dead letter has
been redriven twice, and no event is worked on by two workers in one generation. -/
structure ClaimAndGenerationSafe (cfg : Config) (w : OutboxWorld) : Prop where
  steps : ∀ l w', (outbox cfg).next w l = some w' → StepSafe w w' l
  redriven_once : (w.shared.auditEvents.map fun a => (a.entityId, a.previousGeneration)).Nodup
  redrive_unique : ∀ i j id g, w.proc? i = some (.redrive (.succeeded id g)) →
    w.proc? j = some (.redrive (.succeeded id g)) → i = j
  worker_unique : ∀ i j p q id g, w.proc? i = some p → w.proc? j = some q →
    WorksOn p id g → WorksOn q id g → i = j

/-- **Claim and generation safety.** It holds in every state reached by relays, workers, failed
handlers and redrives in any order, with failing calls, crashes and stalled jobs at any step; that
two workers never work on one event in one generation does not even need the queue to run a job
once at a time. -/
theorem claim_and_generation_safety (cfg : Config) (w : OutboxWorld)
    (h : Reachable (outbox cfg).system w) : ClaimAndGenerationSafe cfg w := by
  have hw : safety.Holds w := safetyOutline.holds h
  refine ⟨fun l w' hn => stepSafe hw hn, hw.shared.nodup, fun i j id g hi hj => ?_,
    fun i j p q id g hi hj hpw hqw => ?_⟩
  · by_contra hij
    exact (hw.pair i j _ _ hij hi hj).redrive id g rfl rfl
  · by_contra hij
    exact (hw.pair i j p q hij hi hj).works id g hpw hqw

/-- It holds where the worker run 1 has just started the event. -/
theorem claim_and_generation_safety_started :
    ∃ w, Reachable (outbox exampleConfig).system w ∧
      (w.shared.events "e1").any (fun row => row.status = .processing) = true ∧
      ClaimAndGenerationSafe exampleConfig w := by
  obtain ⟨w, hw, hs⟩ := (outbox exampleConfig).exists_reached anyStep
    (enqueueAndTake ++ [.step 1 {}])
    (fun w => (w.shared.events "e1").any (fun row => row.status = .processing) = true) (by decide)
  exact ⟨w, hw, hs, claim_and_generation_safety exampleConfig w hw⟩

end BackendFoundation.Outbox.Safety
