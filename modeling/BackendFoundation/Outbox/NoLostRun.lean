import BackendFoundation.Outbox.NoLost

/-! # Runs of safe steps lose no event

The invariant is `Kept`: every event at stake is `Covered`, by a job that serves it or by a failed
handler under way, unless a relay can still claim it and no job for its generation was added yet;
and an event a relay run is about to mark `ENQUEUED` is covered already.

`covered_next` is the step lemma, one lemma for each kind of process; `no_lost_event` the result
over runs. -/

namespace BackendFoundation.Outbox.NoLost

open Lib Lib.Runs Lib.Interleave Errors Outbox.Model Outbox.Programs Outbox.Lifecycle Outbox.Safety
open Outbox.Jobs
open Option (some.inj map_eq_some_iff)

variable {cfg : Config} {s s' : OutboxState} {w w' : OutboxWorld} {jid : JobId}
  {row row' : OutboxEvent}

def Covered (cfg : Config) (w : OutboxWorld) (jid : JobId) (row : OutboxEvent) : Prop :=
  HandlerPending w jid ∨ JobServes cfg w jid row

/-! ### Rows at stake -/

theorem atStake_unexpired {now now' : ℕ} (h : AtStake row now') (hle : now ≤ now') :
    AtStake row now :=
  ⟨h.1, fun ⟨t, ht, hx⟩ => h.2.1 ⟨t, ht, hx.trans hle⟩, h.2.2⟩

variable {now : ℕ}

/-- A row at stake was at stake before a write that kept its generation, and the write was neither
a delivery nor a dead letter. -/
theorem atStake_back {wr : RowWrite} (h : AtStake row' now) (hd : wr.Does row row')
    (hg : row'.deliveryGeneration = row.deliveryGeneration) : AtStake row now := by
  obtain ⟨-, hx, hdel, hdead⟩ := h
  refine ⟨hd.live, fun ⟨t, ht, hle⟩ => hx ⟨t, hd.expiresAt ▸ ht, hle⟩, hd.not_delivered, ?_⟩
  have hguard := hd.guard
  have hgen := hd.generation
  rw [hd.status] at hdel hdead
  intro hst
  cases wr with
  | claim now token => simp [RowWrite.Guard, OutboxEvent.Claimable, hst] at hguard
  | enqueue token => simp [RowWrite.Guard, hst] at hguard
  | release token => simp [RowWrite.Guard, hst] at hguard
  | start g => simp [RowWrite.Guard, hst] at hguard
  | retry g => simp [RowWrite.Guard, hst] at hguard
  | redrive g => exact absurd (hgen.symm.trans hg) (by simp [RowWrite.bump])
  | expire g => exact hdead rfl
  | deliver g => exact hdel rfl
  | deadLetter g => exact hdead rfl

/-- A row stays as it was or was changed by a write. -/
def Changed (row row' : OutboxEvent) : Prop := row' = row ∨ ∃ wr : RowWrite, wr.Does row row'

theorem atStake_before {now now' : ℕ} (h : AtStake row' now') (hle : now ≤ now')
    (hc : Changed row row') (hg : row'.deliveryGeneration = row.deliveryGeneration) :
    AtStake row now := by
  rcases hc with rfl | ⟨wr, hd⟩
  · exact atStake_unexpired h hle
  · exact atStake_unexpired (atStake_back h hd hg) hle

/-! ### Frames -/

variable {p : Proc}

theorem pendingHandler_iff {jid : JobId} :
    PendingHandler jid p ↔ ∃ r, p = .reconcile jid r ∧ (r.pc = .findEvent ∧ r.Exhausted ∨
      ∃ event, r.pc = .recordFailure event) := by
  unfold PendingHandler
  constructor
  · intro h
    split at h
    · next jid' r =>
      obtain ⟨rfl, h⟩ := h
      refine ⟨r, rfl, ?_⟩
      split at h
      · next hpc => exact .inl ⟨hpc, h⟩
      · next event hpc => exact .inr ⟨event, hpc⟩
      · exact h.elim
    · exact h.elim
  · rintro ⟨r, rfl, ⟨hpc, hx⟩ | ⟨event, hpc⟩⟩
    · simp only [hpc]
      exact ⟨trivial, hx⟩
    · simp only [hpc]
      exact ⟨trivial, trivial⟩

/-- What a run of the job depends on of the row is whether it is in `PROCESSING`. -/
theorem runServes_congr {j j' : Job NotificationJobData} {o : Option Proc}
    (h : RunServes cfg jid j row o) (hst : row'.status = .processing ↔ row.status = .processing)
    (hl : j.StallLimit cfg.maxStalledCount → j'.StallLimit cfg.maxStalledCount)
    (ha : j.LastAttempt → j'.LastAttempt) : RunServes cfg jid j' row' o := by
  unfold RunServes at h ⊢
  split at h
  · exact h.imp (fun h => (not_congr hst).mpr h) hl
  · next jid' job pc =>
    refine ⟨h.1, ?_⟩
    have h₂ := h.2
    cases pc
    case returned => exact h₂
    case thrown e => exact h₂.imp (fun h => (not_congr hst).mpr h) ha
    case findEvent => exact (not_congr hst).mpr h₂
    case expire event => exact (not_congr hst).mpr h₂
    case start event => exact (not_congr hst).mpr h₂
    all_goals exact hst.mpr h₂
  · exact h.elim

/-- A job goes on serving its event if neither the job nor its run is touched. -/
theorem jobServes_frame (h : JobServes cfg w jid row)
    (hq : w'.shared.queue jid = w.shared.queue jid)
    (hp : ∀ j token, w.shared.queue jid = some j → j.state = .active token →
      RunServes cfg jid j row (w.proc? token) → w'.proc? token = w.proc? token)
    (hst : row'.status = .processing ↔ row.status = .processing) : JobServes cfg w' jid row' := by
  obtain ⟨j, hj, h⟩ := h
  refine ⟨j, hq.trans hj, ?_⟩
  split at h
  · exact (not_congr hst).mpr h
  · next token ht =>
    rw [hp j token hj ht h]
    exact runServes_congr h hst id id
  · exact h.elim
  · exact h.elim

variable {i : ℕ}

/-- The step of a process that is not a worker of the job does not touch its run. -/
theorem jobServes_put {p p' : Proc} (h : JobServes cfg w jid row) (hi : w.proc? i = some p)
    (hp : ∀ job pc, p ≠ .worker jid job pc) (hq : s'.queue jid = w.shared.queue jid)
    (hst : row'.status = .processing ↔ row.status = .processing) :
    JobServes cfg (w.put i s' p') jid row' := by
  refine jobServes_frame h hq (fun j token _ _ hrun => ?_) hst
  refine World.proc?_put_of_ne fun hti => ?_
  rw [hti, hi] at hrun
  unfold RunServes at hrun
  split at hrun
  · next hnone => cases hnone
  · next jid' job pc hsome =>
    obtain ⟨rfl, -⟩ := hrun
    exact hp job pc (some.inj hsome)
  · exact hrun

variable {p' : Proc}

/-- The step of a worker that does not hold the lock of the job does not touch its run. -/
theorem jobServes_put_of_ne (h : JobServes cfg w jid row) (hi : ¬ w.shared.queue.Holds jid i)
    (hq : s'.queue jid = w.shared.queue jid)
    (hst : row'.status = .processing ↔ row.status = .processing) :
    JobServes cfg (w.put i s' p') jid row' := by
  refine jobServes_frame h hq (fun j token hj ht _ => ?_) hst
  refine World.proc?_put_of_ne fun hti => hi ⟨j, hj, ?_⟩
  rw [ht, hti]

/-! ### Starts, events and crashes -/

/-- What is known of every reachable world. -/
structure Facts (w : OutboxWorld) : Prop where
  safety : safety.Holds w
  books : books.Holds w
  locks : ∀ jid j token, w.shared.queue jid = some j → j.state = .active token → token < w.fresh

theorem facts (h : Reachable (outbox cfg).system w) : Facts w :=
  ⟨safetyOutline.holds h, booksOutline.holds h, active_lt_fresh h⟩

theorem jobServes_add (hf : Facts w) (h : JobServes cfg w jid row)
    (hq : s'.queue jid = w.shared.queue jid) : JobServes cfg (w.add s' p) jid row :=
  jobServes_frame h hq
    (fun j token hj ht _ => World.proc?_add_of_ne (hf.locks jid j token hj ht).ne) Iff.rfl

theorem covered_spawn {x : Start} (hf : Facts w)
    (hs : start cfg w.shared w.fresh x = some (s', p)) (h : Covered cfg w jid row) :
    Covered cfg (w.add s' p) jid row := by
  rcases h with h | h
  · exact .inl h.add
  unfold start at hs
  split at hs
  · cases hs
    exact .inr (jobServes_add hf h rfl)
  · next jid' =>
    obtain ⟨⟨q, j'⟩, hq, he⟩ := map_eq_some_iff.mp hs
    obtain ⟨j, hj, hwait, rfl, rfl⟩ := JobQueue.take_eq_some hq
    cases he
    by_cases hid : jid = jid'
    · subst hid
      obtain ⟨j₀, hj₀, hserves⟩ := h
      obtain rfl := some.inj (hj.symm.trans hj₀)
      rw [hwait] at hserves
      refine .inr ⟨_, Table.set_self, ?_⟩
      simp only []
      rw [World.proc?_add_self]
      exact ⟨rfl, hserves⟩
    · exact .inr (jobServes_add hf h (Table.set_of_ne hid))
  · next jid' =>
    obtain ⟨⟨q, j'⟩, hq, he⟩ := map_eq_some_iff.mp hs
    obtain ⟨j, token, hj, -, -, rfl, rfl⟩ := JobQueue.stallOut_eq_some hq
    cases he
    by_cases hid : jid = jid'
    · subst hid
      refine .inl (World.any_add_self (pendingHandler_iff.mpr ⟨_, rfl, .inl ⟨rfl, .inr ?_⟩⟩))
      exact (by decide : stalledMoreThan "job stalled more than allowable limit")
    · exact .inr (jobServes_add hf h (Table.set_of_ne hid))
  · cases hs
    exact .inr (jobServes_add hf h rfl)

theorem covered_env {e : Event} (hg : SafeStep cfg w (.env e))
    (hs : event cfg w.shared e = some s') (hr : w.shared.events jid.outboxId = some row)
    (hstake : AtStake row w.shared.now) (hgen : row.deliveryGeneration = jid.deliveryGeneration)
    (h : Covered cfg w jid row) : Covered cfg (w.withShared s') jid row := by
  by_cases hh : HandlerPending w jid
  · exact .inl hh
  have hj := h.resolve_left hh
  have hkeep (hq : s'.queue jid = w.shared.queue jid) : JobServes cfg (w.withShared s') jid row :=
    jobServes_frame hj hq (fun _ _ _ _ _ => rfl) Iff.rfl
  rcases event_queue hs with hq | ⟨jid', j, token, rfl, -, hj', -, -, hq⟩ |
    ⟨jid', j, rfl, -, hj', hdone, hq⟩
  · exact .inr (hkeep (by rw [hq]))
  · by_cases hid : jid = jid'
    · subst hid
      refine .inr ⟨_, by rw [World.withShared_shared, hq]; exact Table.set_self, ?_⟩
      exact hg row hr hstake hgen hh
    · exact .inr (hkeep (by rw [hq]; exact Table.set_of_ne hid))
  · by_cases hid : jid = jid'
    · subst hid
      obtain ⟨j₀, hj₀, hserves⟩ := hj
      obtain rfl := some.inj (hj'.symm.trans hj₀)
      rcases hdone with hd | hd <;> simp [hd] at hserves
    · exact .inr (hkeep (by rw [hq]; exact Table.erase_of_ne hid))

theorem covered_crash (hg : SafeStep cfg w (.crash i)) (hi : w.proc? i = some p)
    (hr : w.shared.events jid.outboxId = some row) (hstake : AtStake row w.shared.now)
    (hgen : row.deliveryGeneration = jid.deliveryGeneration) (h : Covered cfg w jid row) :
    Covered cfg (w.kill i) jid row := by
  simp only [SafeStep, hi] at hg
  by_cases hh : HandlerPending w jid
  · refine .inl (hh.kill hi fun hp => ?_)
    obtain ⟨r, rfl, -⟩ := pendingHandler_iff.mp hp
    exact hg hp row hr hstake hgen
  obtain ⟨j, hj, hserves⟩ := h.resolve_left hh
  refine .inr ⟨j, hj, ?_⟩
  cases hst : j.state with
  | active token =>
    rw [hst] at hserves
    by_cases hti : token = i
    · subst hti
      simp only [hi, World.proc?_kill_self] at hserves ⊢
      -- the run of the job dies: what `SafeStep` says of a worker that holds the lock
      cases p with
      | worker jid' job pc =>
        obtain ⟨rfl, -⟩ := hserves
        rcases hg row hr hstake hgen hh ⟨j, hj, hst⟩ with hp | ⟨j', hj', hl⟩
        · exact .inl hp
        · exact .inr (some.inj (hj.symm.trans hj') ▸ hl)
      | _ => exact hserves.elim
    · simp only [World.proc?_kill_of_ne hti]
      exact hserves
  | _ =>
    rw [hst] at hserves
    exact hserves

/-! ### Steps of processes that do not run the job -/

/-- Only a worker of the job takes the row of the job to `PROCESSING` or back, as long as the event
is at stake. -/
theorem processing_iff {may : Uuid → RowWrite → Prop} (hs : RowsStep may s s')
    (hr : s.events jid.outboxId = some row) (hr' : s'.events jid.outboxId = some row')
    (hgen : row.deliveryGeneration = jid.deliveryGeneration)
    (hgen' : row'.deliveryGeneration = row.deliveryGeneration) (hstake : AtStake row' now)
    (hstart : ¬ may jid.outboxId (.start jid.deliveryGeneration))
    (hretry : ¬ may jid.outboxId (.retry jid.deliveryGeneration)) :
    row'.status = .processing ↔ row.status = .processing := by
  obtain ⟨r, hr₂, rfl | ⟨wr, hmay, hd⟩⟩ := hs.row hr
  · rw [some.inj (hr'.symm.trans hr₂)]
  obtain rfl := some.inj (hr'.symm.trans hr₂)
  have hguard := hd.guard
  have hst := hd.status
  cases wr with
  | claim now token =>
    rcases hguard.2.2.2 with h | ⟨h, -⟩ <;> simp [hst, h, RowWrite.target]
  | enqueue token => simp [hst, hguard.1, RowWrite.target]
  | release token => simp [hst, hguard.1, RowWrite.target]
  | start g => exact absurd (hgen ▸ hguard.1 ▸ hmay) hstart
  | retry g => exact absurd (hgen ▸ hguard.1 ▸ hmay) hretry
  | expire g => exact absurd hst hstake.2.2.2
  | deliver g => exact absurd hst hstake.2.2.1
  | deadLetter g => exact absurd hst hstake.2.2.2
  | redrive g => exact absurd (hd.generation.symm.trans hgen') (by simp [RowWrite.bump])

variable {c : Choice}

theorem covered_put_other {p p' : Proc} (hf : Facts w) (hi : w.proc? i = some p)
    (hs : step cfg w.shared i p c = some (s', p')) (hp : ∀ job pc, p ≠ .worker jid job pc)
    (hpend : PendingHandler jid p → PendingHandler jid p')
    (hr : w.shared.events jid.outboxId = some row) (hr' : s'.events jid.outboxId = some row')
    (hgen : row.deliveryGeneration = jid.deliveryGeneration)
    (hgen' : row'.deliveryGeneration = row.deliveryGeneration) (hstake : AtStake row' s'.now)
    (h : Covered cfg w jid row) : Covered cfg (w.put i s' p') jid row' := by
  rcases h with h | h
  · exact .inl (h.put hi hpend)
  right
  refine jobServes_put h hi hp ?_ ?_
  · obtain ⟨j, hj, -⟩ := h
    rcases step_queue hs with hq | ⟨tasks, t, -, -, -, hq⟩ | ⟨jid', job, rfl, -, hq⟩ |
      ⟨jid', job, e, j', rfl, -, -, -, hq, -⟩
    · rw [hq]
    · rw [hq]
      by_cases hid : jid = t.jobId
      · rw [JobQueue.add_of_some (hid ▸ hj)]
      · rw [JobQueue.add_of_ne hid]
    · have hid : jid ≠ jid' := by
        rintro rfl
        exact hp _ _ rfl
      rw [hq, JobQueue.complete_of_ne hid]
    · have hid : jid ≠ jid' := by
        rintro rfl
        exact hp _ _ rfl
      rw [hq, Table.set_of_ne hid]
  · -- a worker with this event and generation would be a worker of this job
    have hworker : ∀ jid' job pc, p = .worker jid' job pc → job.data.outboxId = jid.outboxId →
        job.data.deliveryGeneration = jid.deliveryGeneration → False := by
      rintro jid' job pc rfl hid hg
      rw [(hf.books.proc i _ hi).data] at hid hg
      exact hp job pc (by rw [← (show jid' = jid from congrArg₂ JobId.mk hid hg)])
    refine processing_iff (step_rows hs) hr hr' hgen hgen' hstake (fun hmay => ?_) fun hmay => ?_
    · obtain ⟨jid', job, event, hpe, hid, hg⟩ := writer_of_mayWrite hmay
      exact hworker jid' job _ hpe hid hg
    · obtain ⟨jid', job, pc, hpe, -, hid, hg⟩ := retry_of_mayWrite hmay
      exact hworker jid' job pc hpe hid hg

theorem atStake_guard {now g : ℕ} (h : AtStake row now) (hgen : row.deliveryGeneration = g)
    (d : DeliveryFailureDisposition) : (failureWrite g d).Guard row := by
  cases d with
  | retry => exact ⟨hgen, h.2.2⟩
  | deadLetter => exact ⟨hgen, h.2.2⟩

theorem findEvent_of_atStake (hr : s.events jid.outboxId = some row) (h : AtStake row now) :
    s.findEvent jid.outboxId = some row := by
  simp [OutboxState.findEvent, hr, h.1]

theorem not_settled_of_atStake (h : AtStake row now)
    (hgen : row.deliveryGeneration = jid.deliveryGeneration) :
    ¬ OutboxEvent.Settled row jid.deliveryGeneration := by
  rintro (hd | hd | hd | hd)
  · exact hd h.1
  · exact h.2.2.1 hd
  · exact h.2.2.2 hd
  · exact hd hgen

/-- A failed handler that is under way stays so until it has written the row. -/
theorem pendingHandler_step {r r' : Reconcile} (hdata : r.job.data = jobData jid)
    (hs : reconcileExhaustedJob s r c = some (s', r'))
    (hpend : PendingHandler jid (.reconcile jid r)) (hans : HandlerAnswers r.pc c.outcome)
    (hr : s.events jid.outboxId = some row) (hr' : s'.events jid.outboxId = some row')
    (hgen : row.deliveryGeneration = jid.deliveryGeneration) (hbefore : AtStake row s.now)
    (hstake : AtStake row' s'.now) : PendingHandler jid (.reconcile jid r') := by
  obtain ⟨r₀, hr₀, hpc⟩ := pendingHandler_iff.mp hpend
  obtain rfl := (Proc.reconcile.inj hr₀).2
  unfold reconcileExhaustedJob at hs
  rw [hdata] at hs
  simp only [jobData_outboxId, jobData_deliveryGeneration] at hs
  rcases hpc with ⟨hpc, hx⟩ | ⟨event, hpc⟩
  · rw [hpc] at hs hans
    simp only [hx, if_true] at hs
    have hok : c.outcome = .ok := by
      cases ho : c.outcome with
      | ok => rfl
      | failed e => exact (ho ▸ hans : HandlerAnswers .findEvent (.failed e)).elim
      | lost e => exact (ho ▸ hans : HandlerAnswers .findEvent (.lost e)).elim
    rw [hok, findEvent_of_atStake hr hbefore] at hs
    simp only [not_settled_of_atStake hbefore hgen, if_false] at hs
    obtain rfl := (pair_inj hs).2
    exact pendingHandler_iff.mpr ⟨_, rfl, .inr ⟨row, rfl⟩⟩
  · rw [hpc] at hs hans
    simp only [] at hs
    obtain ⟨r₁, hr₁, hd⟩ := recordDeliveryFailure_row r.error event hr hbefore.1
      (atStake_guard hbefore hgen .deadLetter)
    have hdead : s'.events jid.outboxId = some r₁ → False := fun h => by
      obtain rfl := some.inj (hr'.symm.trans h)
      exact hstake.2.2.2 hd.status
    rcases Outcome.run_cases (some.inj hs) with ⟨-, rfl, -⟩ | ⟨e, he, -, -⟩ |
      ⟨e, -, rfl, -⟩
    · exact (hdead hr₁).elim
    · rw [he] at hans
      exact hans.elim
    · exact (hdead hr₁).elim

/-! ### Steps of the workers of the job -/

variable {job : Job NotificationJobData} {pc : WorkerPc}

/-- A worker past its start on an event at stake has the row in `PROCESSING`. -/
theorem processing_of_pastStart (hf : Facts w) (hi : w.proc? i = some (.worker jid job pc))
    (hpast : PastStart pc) (hr : w.shared.events jid.outboxId = some row)
    (hgen : row.deliveryGeneration = jid.deliveryGeneration) (hstake : AtStake row now) :
    row.status = .processing := by
  have hdata := (hf.books.proc i _ hi).data
  obtain ⟨r, hr₂, hrow⟩ := (hf.safety.proc i _ hi).1 jid.outboxId jid.deliveryGeneration
    ⟨jid, job, pc, rfl, hpast, by rw [hdata]; rfl, by rw [hdata]; rfl⟩
  obtain rfl := some.inj (hr.symm.trans hr₂)
  rcases hrow with h | ⟨-, h | h | h⟩
  · omega
  · exact h
  · exact absurd h hstake.2.2.1
  · exact absurd h hstake.2.2.2

/-- While another process works on the event, the run of its job is over and serves the event only
through the failed handler that follows, whatever becomes of the row. -/
theorem jobServes_elsewhere (hf : Facts w) (hi : w.proc? i = some (.worker jid job pc))
    (hpast : PastStart pc) (hlock : ¬ w.shared.queue.Holds jid i)
    (hr : w.shared.events jid.outboxId = some row)
    (hgen : row.deliveryGeneration = jid.deliveryGeneration) (hstake : AtStake row now)
    (hq : s'.queue jid = w.shared.queue jid) (h : JobServes cfg w jid row) :
    JobServes cfg (w.put i s' p') jid row' := by
  have hproc := processing_of_pastStart hf hi hpast hr hgen hstake
  obtain ⟨j, hj, hserves⟩ := h
  refine ⟨j, hq.trans hj, ?_⟩
  cases hst : j.state with
  | active token =>
    rw [hst] at hserves
    have hti : token ≠ i := by
      rintro rfl
      exact hlock ⟨j, hj, hst⟩
    simp only [World.proc?_put_of_ne hti]
    cases hp : w.proc? token with
    | none =>
      simp only [hp, RunServes] at hserves ⊢
      exact .inr (hserves.resolve_left (not_not.mpr hproc))
    | some q =>
      cases q with
      | worker jid' job' pc' =>
        simp only [hp, RunServes] at hserves ⊢
        obtain ⟨rfl, hserves⟩ := hserves
        refine ⟨rfl, ?_⟩
        have hdata := (hf.books.proc i _ hi).data
        have hdata' := (hf.books.proc token _ hp).data
        have hone : ¬ PastStart pc' := fun hpast' =>
          (hf.safety.pair token i _ _ hti hp hi).works jid'.outboxId jid'.deliveryGeneration
            ⟨jid', job', pc', rfl, hpast', by rw [hdata']; rfl, by rw [hdata']; rfl⟩
            ⟨jid', job, pc, rfl, hpast, by rw [hdata]; rfl, by rw [hdata]; rfl⟩
        cases pc'
        case returned => exact hserves
        case thrown e => exact .inr (hserves.resolve_left (not_not.mpr hproc))
        case findEvent => exact absurd hproc hserves
        case expire event => exact absurd hproc hserves
        case start event => exact absurd hproc hserves
        all_goals exact absurd trivial hone
      | _ => simp only [hp, RunServes] at hserves
  | waiting =>
    rw [hst] at hserves
    exact absurd hproc hserves
  | completed =>
    rw [hst] at hserves
    exact hserves.elim
  | failed =>
    rw [hst] at hserves
    exact hserves.elim

theorem start_unlocked {event : OutboxEvent} {pc' : WorkerPc} (hdata : job.data = jobData jid)
    (hs : processNotification cfg s job (.start event) c = some (s', pc'))
    (hlock : ¬ s.queue.Holds jid i) (hsafe : SafeStart s i jid job row c.outcome)
    (hr : s.events jid.outboxId = some row) : s' = s := by
  have hno (hst : ¬ (row.status = .enqueued ∨ row.status = .failed)) :
      (s.startEvent jid.outboxId jid.deliveryGeneration).1 = s := by
    rcases startEvent_cases s jid.outboxId jid.deliveryGeneration with ⟨r, r', hr₂, hd, -⟩ | ⟨-, he⟩
    · obtain rfl := some.inj (hr.symm.trans hr₂)
      exact absurd hd.guard.2 hst
    · rw [he]
  simp only [processNotification, hdata, jobData_outboxId, jobData_deliveryGeneration] at hs
  rcases Outcome.run_cases (some.inj hs) with ⟨ho, rfl, -⟩ | ⟨e, -, rfl, -⟩ |
    ⟨e, ho, rfl, -⟩
  · rw [ho] at hsafe
    exact hno fun hst => hlock (hsafe.mpr hst)
  · rfl
  · rw [ho] at hsafe
    exact hno fun hst => hlock (hsafe hst).1

theorem covered_put_unlocked (hf : Facts w) (hi : w.proc? i = some (.worker jid job pc))
    (hs : step cfg w.shared i (.worker jid job pc) c = some (s', p'))
    (hlock : ¬ w.shared.queue.Holds jid i)
    (hsafe : SafeWorkerStep w.shared i jid job pc c.outcome row)
    (hr : w.shared.events jid.outboxId = some row) (hr' : s'.events jid.outboxId = some row')
    (hgen : row.deliveryGeneration = jid.deliveryGeneration)
    (hgen' : row'.deliveryGeneration = row.deliveryGeneration)
    (hbefore : AtStake row w.shared.now) (hstake : AtStake row' s'.now)
    (h : JobServes cfg w jid row) : JobServes cfg (w.put i s' p') jid row' := by
  have hdata := (hf.books.proc i _ hi).data
  have hq : s'.queue jid = w.shared.queue jid := by
    rcases step_queue hs with hq | ⟨tasks, t, hp, -⟩ | ⟨jid', job', hp, -, hq⟩ |
      ⟨jid', job', e, j', hp, -, hj', ha, -⟩
    · rw [hq]
    · cases hp
    · cases hp
      rcases w.shared.queue.complete_cases jid i with ⟨j', hj', ha, -⟩ | ⟨-, he⟩
      · exact absurd ⟨j', hj', ha⟩ hlock
      · rw [hq, he]
    · cases hp
      exact absurd ⟨j', hj', ha⟩ hlock
  by_cases hpast : PastStart pc
  · exact jobServes_elsewhere hf hi hpast hlock hr hgen hbefore hq h
  refine jobServes_put_of_ne h hlock hq ?_
  by_cases hstart : ∃ event, pc = .start event
  · obtain ⟨event, rfl⟩ := hstart
    rcases step_worker hs with ⟨pc', -, hs⟩ | hs
    · rw [start_unlocked hdata hs hlock hsafe hr, hr] at hr'
      rw [some.inj hr']
    · rcases settleJob_cases hs with ⟨hp, -⟩ | ⟨e, hp, -⟩ <;> cases hp
  · refine processing_iff (step_rows hs) hr hr' hgen hgen' hstake (fun hmay => ?_) fun hmay => ?_
    · obtain ⟨_, _, event, hp, -⟩ := writer_of_mayWrite hmay
      cases hp
      exact hstart ⟨event, rfl⟩
    · obtain ⟨_, _, _, hp, hpast', -⟩ := retry_of_mayWrite hmay
      cases hp
      exact hpast hpast'

theorem pcServes_of_past {j : Job NotificationJobData} (hp : PastStart pc)
    (h : row.status = .processing) : PcServes j row pc := by
  cases pc <;> first | exact h | exact hp.elim

theorem callProvider_past {id : Uuid} {event : OutboxEvent} {pc' : WorkerPc}
    (h : callProvider cfg s id event c = (s', pc')) : PastStart pc' ∧ s'.events = s.events := by
  unfold callProvider at h
  repeat' split at h
  all_goals
    cases h
    exact ⟨trivial, rfl⟩

theorem not_atStake_of_does {wr : RowWrite} (hd : wr.Does row row')
    (ht : wr.target = .delivered ∨ wr.target = .deadLetter) : ¬ AtStake row' now := by
  rintro ⟨-, -, h₁, h₂⟩
  rcases ht with ht | ht
  · exact h₁ (hd.status.trans ht)
  · exact h₂ (hd.status.trans ht)

/-- An event at stake before and after a step. -/
structure Staked (s s' : OutboxState) (jid : JobId) (row row' : OutboxEvent) : Prop where
  found : s.events jid.outboxId = some row
  found' : s'.events jid.outboxId = some row'
  generation : row.deliveryGeneration = jid.deliveryGeneration
  before : AtStake row s.now
  after : AtStake row' s'.now

variable {pc' q : WorkerPc} {f : Thrown → WorkerPc} {o : Outcome Thrown} {t : OutboxState}

theorem Staked.same (h : Staked s s' jid row row') (he : s'.events = s.events) : row' = row := by
  have hrow := h.found'
  rw [he, h.found] at hrow
  exact (some.inj hrow).symm

/-- A statement on other tables leaves the row. -/
theorem Staked.run_same (h : Staked s s' jid row row') (hrun : o.run s t q f = (s', pc'))
    (ht : t.events = s.events) :
    row' = row ∧ (o = .ok ∧ pc' = q ∨ ∃ e, (o = .failed e ∨ o = .lost e) ∧ pc' = f e) := by
  rcases Outcome.run_cases hrun with ⟨ho, rfl, hpc⟩ | ⟨e, ho, rfl, hpc⟩ | ⟨e, ho, rfl, hpc⟩
  · exact ⟨h.same ht, .inl ⟨ho, hpc⟩⟩
  · exact ⟨h.same rfl, .inr ⟨e, .inl ho, hpc⟩⟩
  · exact ⟨h.same ht, .inr ⟨e, .inr ho, hpc⟩⟩

/-- A write that delivers the event or gives it up was not committed. -/
theorem Staked.run_failed {wr : RowWrite} {r₀ r₁ : OutboxEvent}
    (h : Staked s s' jid row row') (hrun : o.run s t q f = (s', pc'))
    (ht : t = { s with events := s.events.set jid.outboxId r₁ }) (hd : wr.Does r₀ r₁)
    (hwr : wr.target = .delivered ∨ wr.target = .deadLetter) :
    row' = row ∧ ∃ e, o = .failed e ∧ pc' = f e := by
  have hends : s' ≠ t := by
    rintro rfl
    have hrow := h.found'
    rw [ht] at hrow
    obtain rfl := some.inj (Table.set_self.symm.trans hrow)
    exact not_atStake_of_does hd hwr h.after
  rcases Outcome.run_cases hrun with ⟨-, he, -⟩ | ⟨e, ho, rfl, hpc⟩ | ⟨e, -, he, -⟩
  · exact absurd he hends
  · exact ⟨h.same rfl, e, ho, hpc⟩
  · exact absurd he hends

theorem Staked.expire_failed (h : Staked s s' jid row row')
    (hrun : o.run s (s.expireEvent jid.outboxId jid.deliveryGeneration).1 q f = (s', pc')) :
    row' = row ∧ ∃ e, o = .failed e ∧ pc' = f e := by
  rcases expireEvent_cases s jid.outboxId jid.deliveryGeneration with ⟨r₀, r₁, -, hd, he⟩ | ⟨hn, -⟩
  · exact h.run_failed hrun (by rw [he]) hd (.inr rfl)
  · exact absurd ⟨h.generation, h.before.2.2.1⟩ (hn row h.found h.before.1)

theorem Staked.deliver_failed (h : Staked s s' jid row row')
    (hproc : row.status = .processing)
    (hrun : o.run s (s.deliverEvent jid.outboxId jid.deliveryGeneration).1 q f = (s', pc')) :
    row' = row ∧ ∃ e, o = .failed e ∧ pc' = f e := by
  rcases deliverEvent_cases s jid.outboxId jid.deliveryGeneration with ⟨r₀, r₁, -, hd, he⟩ |
    ⟨hn, -⟩
  · exact h.run_failed hrun (by rw [he]) hd (.inl rfl)
  · exact absurd ⟨h.generation, hproc⟩ (hn row h.found h.before.1)

variable {j : Job NotificationJobData}

/-- A start takes the row to `PROCESSING`, fails without an effect, or is lost in the last run. -/
theorem Staked.start_serves {event : OutboxEvent} (h : Staked s s' jid row row')
    (hrun : o.run s (s.startEvent jid.outboxId jid.deliveryGeneration).1
      (if (s.startEvent jid.outboxId jid.deliveryGeneration).2 ≠ 1 then .returned
        else .findDelivery event) .thrown = (s', pc'))
    (hlock : s.queue.Holds jid i) (hlast : job.LastAttempt → j.LastAttempt)
    (hsafe : SafeStart s i jid job row o) (hidle : row.status ≠ .processing) :
    PcServes j row' pc' := by
  rcases startEvent_cases s jid.outboxId jid.deliveryGeneration with ⟨r₀, r₁, hr₀, hd, he⟩ |
    ⟨hn, he⟩
  · obtain rfl := some.inj (h.found.symm.trans hr₀)
    rw [he] at hrun
    rcases Outcome.run_cases hrun with ⟨-, rfl, rfl⟩ | ⟨e, -, rfl, rfl⟩ | ⟨e, ho, rfl, rfl⟩
    · obtain rfl := some.inj (Table.set_self.symm.trans h.found')
      exact hd.status
    · obtain rfl := h.same rfl
      exact .inl hidle
    · rw [ho] at hsafe
      exact .inr (hlast (hsafe hd.guard.2).2)
  · rw [he] at hrun
    obtain ⟨rfl, ⟨ho, rfl⟩ | ⟨e, -, rfl⟩⟩ := h.run_same hrun rfl
    · rw [ho] at hsafe
      exact absurd ⟨h.generation, hsafe.mp hlock⟩ (hn row' h.found h.before.1)
    · exact .inl hidle

/-- A recorded failure takes the row out of `PROCESSING`, unless the last run could not record
it. -/
theorem Staked.failure_serves {event : OutboxEvent} {error : Thrown}
    (h : Staked s s' jid row row')
    (hrun : o.run s (s.recordDeliveryFailure jid.outboxId event jid.deliveryGeneration error
        (deliveryFailureDisposition job.attemptsMade job.attempts)) (.thrown error) .thrown =
      (s', pc'))
    (hlast : ∀ e, o = .failed e → j.LastAttempt) : PcServes j row' pc' := by
  obtain ⟨r₁, hr₁, hd⟩ := recordDeliveryFailure_row error event h.found h.before.1
    (atStake_guard h.before h.generation
      (deliveryFailureDisposition job.attemptsMade job.attempts))
  have hretry : s' = s.recordDeliveryFailure jid.outboxId event jid.deliveryGeneration error
      (deliveryFailureDisposition job.attemptsMade job.attempts) → row'.status ≠ .processing := by
    rintro rfl
    obtain rfl := some.inj (hr₁.symm.trans h.found')
    rw [hd.status]
    unfold failureWrite
    split <;> exact OutboxStatus.noConfusion
  rcases Outcome.run_cases hrun with ⟨-, ht, rfl⟩ | ⟨e, ho, rfl, rfl⟩ | ⟨e, -, ht, rfl⟩
  · exact .inl (hretry ht)
  · exact .inr (hlast e ho)
  · exact .inl (hretry ht)

theorem pcServes_step (h : Staked s s' jid row row') (hdata : job.data = jobData jid)
    (hs : processNotification cfg s job pc c = some (s', pc')) (hlock : s.queue.Holds jid i)
    (hlast : job.LastAttempt → j.LastAttempt)
    (hsafe : SafeWorkerStep s i jid job pc c.outcome row) (hserves : PcServes j row pc) :
    PcServes j row' pc' := by
  unfold processNotification at hs
  simp only [hdata, jobData_outboxId, jobData_deliveryGeneration] at hs
  cases pc with
  | findEvent =>
    obtain ⟨rfl, ⟨-, rfl⟩ | ⟨e, -, rfl⟩⟩ := h.run_same (some.inj hs) rfl
    · rw [findEvent_of_atStake h.found h.before]
      simp only [not_settled_of_atStake h.before h.generation, if_false]
      split_ifs
      · exact hserves
      · exact hserves
    · exact .inl hserves
  | expire event =>
    obtain ⟨rfl, e, -, rfl⟩ := h.expire_failed (some.inj hs)
    exact .inl hserves
  | start event => exact h.start_serves (some.inj hs) hlock hlast hsafe hserves
  | findDelivery event =>
    obtain ⟨rfl, ⟨-, rfl⟩ | ⟨e, ho, rfl⟩⟩ := h.run_same (some.inj hs) rfl
    · split_ifs
      · exact hserves
      · exact hserves
    · exact .inr (hlast (hsafe (by rcases ho with ho | ho <;> rw [ho] <;> trivial)))
  | upsertDelivery event =>
    have hev : (s.upsertDelivery cfg.runtime cfg.keyring jid.outboxId event).events = s.events := by
      unfold OutboxState.upsertDelivery
      split <;> rfl
    obtain ⟨rfl, ⟨-, rfl⟩ | ⟨e, ho, rfl⟩⟩ := h.run_same (some.inj hs) hev
    · exact pcServes_of_past (sendPc_pastStart event) hserves
    · exact .inr (hlast (hsafe (by rcases ho with ho | ho <;> rw [ho] <;> trivial)))
  | finishRecorded event =>
    obtain ⟨rfl, e, ho, rfl⟩ := h.deliver_failed hserves (some.inj hs)
    exact .inr (hlast (hsafe (by rw [ho]; trivial)))
  | rateLimit event =>
    obtain ⟨rfl, ⟨-, rfl⟩ | ⟨e, -, rfl⟩⟩ := h.run_same (some.inj hs) rfl
    · exact hserves
    · exact hserves
  | callProvider event =>
    obtain ⟨hp, hev⟩ := callProvider_past (some.inj hs)
    obtain rfl := h.same hev
    exact pcServes_of_past hp hserves
  | recordResult event delivery =>
    obtain ⟨rfl, ⟨-, rfl⟩ | ⟨e, -, rfl⟩⟩ := h.run_same (some.inj hs) rfl
    · split_ifs
      · exact hserves
      · exact hserves
    · exact hserves
  | deliver event =>
    obtain ⟨rfl, e, -, rfl⟩ := h.deliver_failed hserves (some.inj hs)
    exact hserves
  | recordError event error =>
    obtain ⟨rfl, ⟨-, rfl⟩ | ⟨e, ho, rfl⟩⟩ := h.run_same (some.inj hs) rfl
    · exact hserves
    · exact .inr (hlast (hsafe (by rcases ho with ho | ho <;> rw [ho] <;> trivial)))
  | recordFailure event error =>
    exact h.failure_serves (some.inj hs) fun e ho => hlast (hsafe (by rw [ho]; trivial))
  | returned => exact hserves.elim
  | thrown error => cases hs

theorem lastAttempt_congr {j job : Job NotificationJobData}
    (h : j.attemptsMade = job.attemptsMade ∧ j.attempts = job.attempts) :
    job.LastAttempt ↔ j.LastAttempt := by
  unfold Job.LastAttempt
  rw [h.1, h.2]

theorem covered_put_locked (hf : Facts w) (hi : w.proc? i = some (.worker jid job pc))
    (hs : step cfg w.shared i (.worker jid job pc) c = some (s', p'))
    (hlock : w.shared.queue.Holds jid i)
    (hsafe : SafeWorkerStep w.shared i jid job pc c.outcome row)
    (hr : w.shared.events jid.outboxId = some row) (hr' : s'.events jid.outboxId = some row')
    (hgen : row.deliveryGeneration = jid.deliveryGeneration) (hbefore : AtStake row w.shared.now)
    (hstake : AtStake row' s'.now) (h : JobServes cfg w jid row) :
    Covered cfg (w.put i s' p') jid row' := by
  have hbooks := hf.books.proc i _ hi
  obtain ⟨j, hj, hactive⟩ := hlock
  have hlast := lastAttempt_congr (hbooks.attempts j hj hactive)
  have hpc : PcServes j row pc := by
    obtain ⟨j₀, hj₀, hserves⟩ := h
    obtain rfl := some.inj (hj.symm.trans hj₀)
    simp only [hactive, hi, RunServes] at hserves
    exact hserves.2
  rcases step_worker hs with ⟨pc', rfl, hproc⟩ | hs
  · refine .inr ⟨j, ?_, ?_⟩
    · rw [World.put_shared, processNotification_queue hproc, hj]
    · simp only [hactive, World.proc?_put_self hi]
      exact ⟨rfl, pcServes_step ⟨hr, hr', hgen, hbefore, hstake⟩ hbooks.data hproc
        ⟨j, hj, hactive⟩ hlast.mp hsafe hpc⟩
  · rcases settleJob_cases hs with ⟨rfl, -, -⟩ | ⟨e, rfl, ⟨j₀, hj₀, -, rfl, rfl⟩ | ⟨hno, -, -⟩⟩
    · exact hpc.elim
    · obtain rfl := some.inj (hj.symm.trans hj₀)
      obtain rfl := some.inj (hr.symm.trans hr')
      by_cases hl : j.LastAttempt
      · refine .inl (World.any_put_self hi (pendingHandler_iff.mpr ⟨_, rfl, .inl ⟨rfl, .inl ?_⟩⟩))
        exact hl
      · refine .inr ⟨_, Table.set_self, ?_⟩
        simp only [Job.afterFailure, hl, if_false]
        exact hpc.resolve_right hl
    · exact absurd ⟨j, hj, hactive⟩ hno

/-! ### The step lemma -/

variable {l : OutboxLabel}

/-- What the two worlds of a step have to do with a row at stake that keeps its generation. -/
theorem row_next (hn : (outbox cfg).next w l = some w') {id : Uuid}
    (hr : w.shared.events id = some row) (hr' : w'.shared.events id = some row') :
    Changed row row' ∧ w.shared.now ≤ w'.shared.now := by
  constructor
  · obtain ⟨r, hr₂, h | ⟨i, c, p, wr, -, -, -, hd⟩⟩ := next_row hn hr
    · exact .inl (some.inj (hr'.symm.trans hr₂) ▸ h)
    · exact .inr ⟨wr, some.inj (hr'.symm.trans hr₂) ▸ hd⟩
  · cases Program.move_of_next hn with
    | spawn hs => exact (start_rows hs).now.ge
    | step hp hs => exact (step_rows hs).now.ge
    | crash hp => exact le_rfl
    | env hs => exact (event_frame hs).1

theorem covered_next (hf : Facts w) (hg : SafeStep cfg w l) (hn : (outbox cfg).next w l = some w')
    (hr : w.shared.events jid.outboxId = some row)
    (hr' : w'.shared.events jid.outboxId = some row')
    (hgen : row.deliveryGeneration = jid.deliveryGeneration)
    (hgen' : row'.deliveryGeneration = row.deliveryGeneration)
    (hstake : AtStake row' w'.shared.now) (h : Covered cfg w jid row) :
    Covered cfg w' jid row' := by
  obtain ⟨hchanged, hnow⟩ := row_next hn hr hr'
  have hbefore : AtStake row w.shared.now := atStake_before hstake hnow hchanged hgen'
  cases Program.move_of_next hn with
  | spawn hs =>
    obtain ⟨r, hr₂, rfl | ⟨wr, hno, -⟩⟩ := (start_rows hs).row hr
    · obtain rfl := some.inj (hr'.symm.trans hr₂)
      exact covered_spawn hf hs h
    · exact hno.elim
  | env hs =>
    obtain rfl := some.inj (hr'.symm.trans (event_rowsMono hs hr))
    exact covered_env hg hs hr hbefore hgen h
  | crash hi =>
    obtain rfl := some.inj (hr'.symm.trans hr)
    exact covered_crash hg hi hr hbefore hgen h
  | @step i c p p' s' hi hs =>
    have hother (hp : ∀ job pc, p ≠ .worker jid job pc)
        (hpend : PendingHandler jid p → PendingHandler jid p') :
        Covered cfg (w.put i s' p') jid row' :=
      covered_put_other hf hi hs hp hpend hr hr' hgen hgen' hstake h
    simp only [SafeStep, hi] at hg
    cases p with
    | relay pc => exact hother (fun _ _ => Proc.noConfusion) (fun hp => False.elim hp)
    | redrive pc => exact hother (fun _ _ => Proc.noConfusion) (fun hp => False.elim hp)
    | finished => cases hs
    | reconcile jid' r =>
      obtain ⟨r', hrec, rfl⟩ := map_pair_inj hs
      refine hother (fun _ _ => Proc.noConfusion) fun hp => ?_
      obtain ⟨r₀, hr₀, -⟩ := pendingHandler_iff.mp hp
      obtain ⟨rfl, rfl⟩ := Proc.reconcile.inj hr₀
      rcases hg hp with hans | hnone
      · exact pendingHandler_step (hf.books.proc i _ hi) hrec hp hans hr hr' hgen hbefore hstake
      · exact absurd hgen (hnone row hr hbefore)
    | worker jid' job pc =>
      by_cases hid : jid' = jid
      · subst hid
        rcases h with hh | hj
        · exact .inl (hh.put hi fun hp => hp.elim)
        by_cases hh : HandlerPending w jid'
        · exact .inl (hh.put hi fun hp => hp.elim)
        have hsafe := hg row hr hbefore hgen hh
        by_cases hlock : w.shared.queue.Holds jid' i
        · exact covered_put_locked hf hi hs hlock hsafe hr hr' hgen hbefore hstake hj
        · exact .inr (covered_put_unlocked hf hi hs hlock hsafe hr hr' hgen hgen' hbefore hstake hj)
      · exact hother (fun job' pc' hp => hid (Proc.worker.inj hp).1) fun hp => hp.elim

/-! ### The invariant -/

/-- A relay can claim the event, and no job for its generation has been added. -/
def Unqueued (w : OutboxWorld) (jid : JobId) (row : OutboxEvent) : Prop :=
  (row.status = .pending ∨ row.status = .claimed) ∧ w.shared.queue jid = none

structure Kept (cfg : Config) (w : OutboxWorld) : Prop where
  served : ∀ id row, w.shared.events id = some row → AtStake row w.shared.now →
    Covered cfg w ⟨id, row.deliveryGeneration⟩ row ∨ Unqueued w ⟨id, row.deliveryGeneration⟩ row
  /-- What a relay run is about to mark `ENQUEUED` is covered. -/
  marking : ∀ i tasks t row, w.proc? i = some (.relay (.enqueue tasks)) → t ∈ tasks →
    t.pc = .markEnqueued → w.shared.events t.id = some row → AtStake row w.shared.now →
    row.status = .claimed → row.claimToken = some i →
      Covered cfg w ⟨t.id, row.deliveryGeneration⟩ row

theorem start_queue_none {pid : ℕ} {x : Start} (h : start cfg s pid x = some (s', p))
    (hn : s.queue jid = none) : s'.queue jid = none := by
  unfold start at h
  split at h
  · cases h
    exact hn
  · obtain ⟨⟨q, j'⟩, hq, he⟩ := map_eq_some_iff.mp h
    obtain ⟨j, hj, -, -, rfl⟩ := JobQueue.take_eq_some hq
    cases he
    refine (Table.set_of_ne ?_).trans hn
    rintro rfl
    exact absurd (hj.symm.trans hn) nofun
  · obtain ⟨⟨q, j'⟩, hq, he⟩ := map_eq_some_iff.mp h
    obtain ⟨j, token, hj, -, -, -, rfl⟩ := JobQueue.stallOut_eq_some hq
    cases he
    refine (Table.set_of_ne ?_).trans hn
    rintro rfl
    exact absurd (hj.symm.trans hn) nofun
  · cases h
    exact hn

theorem event_queue_none {e : Event} (h : event cfg s e = some s') (hn : s.queue jid = none) :
    s'.queue jid = none := by
  rcases event_queue h with hq | ⟨jid', j, token, -, -, hj, -, -, hq⟩ | ⟨jid', j, -, -, hj, -, hq⟩
  · rw [hq, hn]
  · rw [hq, Table.set_of_ne, hn]
    rintro rfl
    exact absurd (hj.symm.trans hn) nofun
  · rw [hq, Table.erase_of_ne, hn]
    rintro rfl
    exact absurd (hj.symm.trans hn) nofun

theorem step_queue_none {pid : ℕ} {p p' : Proc} (h : step cfg s pid p c = some (s', p'))
    (hn : s.queue jid = none) :
    s'.queue jid = none ∨ (s'.events = s.events ∧ ∃ j, s'.queue jid = some j ∧ j.state = .waiting) := by
  rcases step_queue h with hq | ⟨tasks, t, -, -, hev, hq⟩ | ⟨jid', job, -, -, hq⟩ |
    ⟨jid', job, e, j, -, -, hj, -, hq, -⟩
  · exact .inl (by rw [hq, hn])
  · by_cases hid : jid = t.jobId
    · subst hid
      exact .inr ⟨hev, _, by rw [hq, JobQueue.add_self_of_none hn], rfl⟩
    · exact .inl (by rw [hq, JobQueue.add_of_ne hid, hn])
  · rcases s.queue.complete_cases jid' pid with ⟨j, hj, -, he⟩ | ⟨-, he⟩
    · rw [hq, he, Table.set_of_ne, hn]
      · exact .inl rfl
      · rintro rfl
        exact absurd (hj.symm.trans hn) nofun
    · exact .inl (by rw [hq, he, hn])
  · rw [hq, Table.set_of_ne, hn]
    · exact .inl rfl
    · rintro rfl
      exact absurd (hj.symm.trans hn) nofun

/-- A safe step of an event that is not covered: it stays claimable, and a job that is added for
it waits. -/
theorem unqueued_next (hf : Facts w) (hk : Kept cfg w) (hn : (outbox cfg).next w l = some w')
    {id : Uuid} (hr : w.shared.events id = some row) (hr' : w'.shared.events id = some row')
    (hgen' : row'.deliveryGeneration = row.deliveryGeneration)
    (hbefore : AtStake row w.shared.now) (hstake : AtStake row' w'.shared.now)
    (hun : Unqueued w ⟨id, row.deliveryGeneration⟩ row)
    (hno : ¬ Covered cfg w ⟨id, row.deliveryGeneration⟩ row) :
    Covered cfg w' ⟨id, row.deliveryGeneration⟩ row' ∨
      Unqueued w' ⟨id, row.deliveryGeneration⟩ row' := by
  obtain ⟨hst, hnone⟩ := hun
  have hstatus : row'.status = .pending ∨ row'.status = .claimed := by
    obtain ⟨r, hr₂, rfl | ⟨i, c, p, wr, -, hp, hmay, hd⟩⟩ := next_row hn hr
    · exact some.inj (hr₂.symm.trans hr') ▸ hst
    obtain rfl := some.inj (hr'.symm.trans hr₂)
    have hguard := hd.guard
    have hwriter := writer_of_mayWrite hmay
    cases wr with
    | claim now token => exact .inr hd.status
    | release token => exact .inl hd.status
    | enqueue token =>
      obtain ⟨tasks, rfl, t, ht, rfl, htok, hpc⟩ := hwriter
      refine absurd (hk.marking i tasks t row hp ht hpc hr hbefore hguard.1 ?_) hno
      rw [hguard.2, htok]
      exact (hf.safety.proc i _ hp).2 t ht
    | start g => rcases hguard.2 with h | h <;> simp [h] at hst
    | deliver g => simp [hguard.2] at hst
    | retry g =>
      obtain ⟨r, hr₃, hrow⟩ := (hf.safety.proc i p hp).1 id g hwriter
      obtain rfl := some.inj (hr.symm.trans hr₃)
      rcases hrow with h | ⟨-, h⟩
      · exact absurd hguard.1 (by omega)
      · rcases hst with hst | hst <;> simp [hst] at h
    | expire g => exact absurd hstake (not_atStake_of_does hd (.inr rfl))
    | deadLetter g => exact absurd hstake (not_atStake_of_does hd (.inr rfl))
    | redrive g => exact absurd (hd.generation.symm.trans hgen') (by simp [RowWrite.bump])
  cases Program.move_of_next hn with
  | spawn hs => exact .inr ⟨hstatus, start_queue_none hs hnone⟩
  | env hs => exact .inr ⟨hstatus, event_queue_none hs hnone⟩
  | crash hi => exact .inr ⟨hstatus, hnone⟩
  | step hi hs =>
    rcases step_queue_none hs hnone with hq | ⟨-, j, hj, hwait⟩
    · exact .inr ⟨hstatus, hq⟩
    · refine .inl (.inr ⟨j, hj, ?_⟩)
      rw [hwait]
      rcases hstatus with h | h <;> simp [h]

theorem kept_init : Kept cfg ⟨{}, []⟩ := by
  refine ⟨fun id row hr => ?_, fun i tasks t row hp => ?_⟩
  · cases hr
  · cases hp

theorem queue_none_of_event_none (hf : Facts w) {id : Uuid} {g : ℕ}
    (hr : w.shared.events id = none) : w.shared.queue ⟨id, g⟩ = none := by
  cases hq : w.shared.queue ⟨id, g⟩ with
  | none => rfl
  | some j =>
    obtain ⟨row, hr', -⟩ := hf.books.shared.reached _ j hq
    exact absurd (hr'.symm.trans hr) nofun

theorem unqueued_of_new (hf : Facts w) (hn : (outbox cfg).next w l = some w') {id : Uuid}
    (hr : w.shared.events id = none) (hr' : w'.shared.events id = some row') :
    Unqueued w' ⟨id, row'.deliveryGeneration⟩ row' := by
  have hnone := queue_none_of_event_none hf (g := row'.deliveryGeneration) hr
  have hold {may : Uuid → RowWrite → Prop} {s : OutboxState} (hs : RowsStep may w.shared s)
      (hs' : s.events id = some row') : False := by
    obtain ⟨row, hrow, -⟩ := hs.row_of hs'
    exact absurd (hrow.symm.trans hr) nofun
  cases Program.move_of_next hn with
  | spawn hs => exact (hold (start_rows hs) hr').elim
  | step hi hs => exact (hold (step_rows hs) hr').elim
  | crash hi => exact absurd (hr'.symm.trans hr) nofun
  | env hs =>
    rcases event_rows hs id with he | ⟨-, row, hrow, hp, -⟩
    · exact absurd (hr'.symm.trans (he.trans hr)) nofun
    · obtain rfl := some.inj (hr'.symm.trans hrow)
      exact ⟨.inl hp, event_queue_none hs hnone⟩

theorem unqueued_of_redrive (hf : Facts w) (hn : (outbox cfg).next w l = some w') {id : Uuid}
    (hr : w.shared.events id = some row) (hr' : w'.shared.events id = some row') {g : ℕ}
    (hd : (RowWrite.redrive g).Does row row') : Unqueued w' ⟨id, row'.deliveryGeneration⟩ row' := by
  have hgen : row'.deliveryGeneration = row.deliveryGeneration + 1 := hd.generation
  have hne : row' ≠ row := by
    rintro rfl
    omega
  have hnone : w.shared.queue ⟨id, row'.deliveryGeneration⟩ = none := by
    cases hq : w.shared.queue ⟨id, row'.deliveryGeneration⟩ with
    | none => rfl
    | some j =>
      -- a job of this generation would mean that the event has reached it already
      obtain ⟨r, hr₂, hle⟩ := hf.books.shared.reached _ j hq
      obtain rfl := some.inj (hr.symm.trans hr₂)
      simp only [] at hle
      omega
  refine ⟨.inl hd.status, ?_⟩
  have hkeep {s : OutboxState} (he : s.events = w.shared.events)
      (hs' : s.events id = some row') : False := by
    rw [he] at hs'
    exact hne (some.inj (hs'.symm.trans hr))
  cases Program.move_of_next hn with
  | spawn hs => exact start_queue_none hs hnone
  | env hs => exact event_queue_none hs hnone
  | crash hi => exact hnone
  | step hi hs =>
    rcases step_queue_none hs hnone with hq | ⟨he, -⟩
    · exact hq
    · exact (hkeep he hr').elim

theorem served_next (hf : Facts w) (hk : Kept cfg w) (hg : SafeStep cfg w l)
    (hn : (outbox cfg).next w l = some w') {id : Uuid} (hr' : w'.shared.events id = some row')
    (hstake : AtStake row' w'.shared.now) : Covered cfg w' ⟨id, row'.deliveryGeneration⟩ row' ∨
      Unqueued w' ⟨id, row'.deliveryGeneration⟩ row' := by
  cases hr : w.shared.events id with
  | none => exact .inr (unqueued_of_new hf hn hr hr')
  | some row =>
    obtain ⟨hchanged, hnow⟩ := row_next hn hr hr'
    have hsame (hgen : row'.deliveryGeneration = row.deliveryGeneration) :
        Covered cfg w' ⟨id, row'.deliveryGeneration⟩ row' ∨
          Unqueued w' ⟨id, row'.deliveryGeneration⟩ row' := by
      have hbefore := atStake_before hstake hnow hchanged hgen
      rw [hgen]
      by_cases hcov : Covered cfg w ⟨id, row.deliveryGeneration⟩ row
      · exact .inl (covered_next hf hg hn hr hr' rfl hgen hstake hcov)
      · exact unqueued_next hf hk hn hr hr' hgen hbefore hstake
          ((hk.served id row hr hbefore).resolve_left hcov) hcov
    rcases hchanged with rfl | ⟨wr, hd⟩
    · exact hsame rfl
    · rcases hd.generation_cases with hgen | ⟨rfl, -, -⟩
      · exact hsame hgen
      · exact .inr (unqueued_of_redrive hf hn hr hr' hd)

variable {tasks : List EnqueueTask}

/-- A row that is claimed under the token of a relay run past its claim was so before a step. -/
theorem claimed_before (hn : (outbox cfg).next w l = some w')
    (hi : w.proc? i = some (.relay (.enqueue tasks))) {id : Uuid}
    (hr' : w'.shared.events id = some row') (hc : row'.status = .claimed)
    (htok : row'.claimToken = some i) : w.shared.events id = some row' := by
  cases hr : w.shared.events id with
  | none =>
    cases Program.move_of_next hn with
    | spawn hs =>
      obtain ⟨row, hrow, -⟩ := (start_rows hs).row_of hr'
      exact absurd (hrow.symm.trans hr) nofun
    | step hp hs =>
      obtain ⟨row, hrow, -⟩ := (step_rows hs).row_of hr'
      exact absurd (hrow.symm.trans hr) nofun
    | crash hp => exact absurd (hr'.symm.trans hr) nofun
    | env hs =>
      rcases event_rows hs id with he | ⟨-, row, hrow, hp, -⟩
      · exact absurd (hr'.symm.trans (he.trans hr)) nofun
      · rw [some.inj (hr'.symm.trans hrow), hp] at hc
        cases hc
  | some row =>
    obtain ⟨r, hr₂, h⟩ := next_row hn hr
    obtain rfl := some.inj (hr'.symm.trans hr₂)
    rcases h with rfl | ⟨j, c, p, wr, -, hj, hmay, hd⟩
    · rfl
    · have hst := hd.status.symm.trans hc
      cases wr with
      | claim now token =>
        obtain rfl := some.inj ((hd.claimed now token rfl).1.symm.trans htok)
        obtain ⟨rfl, batchSize, rfl⟩ := writer_of_mayWrite hmay
        exact absurd (some.inj (hj.symm.trans hi)) nofun
      | _ => simp [RowWrite.target] at hst

/-- What a relay run can be about to mark after a step: what it was about to mark before, or what
it has just added the job of. -/
theorem marking_before {t : EnqueueTask} (hn : (outbox cfg).next w l = some w')
    (hi : w'.proc? i = some (.relay (.enqueue tasks))) (ht : t ∈ tasks)
    (hpc : t.pc = .markEnqueued) :
    ∃ tasks₀, w.proc? i = some (.relay (.enqueue tasks₀)) ∧ (t ∈ tasks₀ ∨
      ∃ t₀ ∈ tasks₀, t.id = t₀.id ∧ t.event = t₀.event ∧ w'.shared.events = w.shared.events ∧
        ∃ j, w'.shared.queue t₀.jobId = some j) := by
  cases Program.move_of_next hn with
  | @spawn x s p hs =>
    rcases World.proc?_add_cases hi with ⟨-, rfl⟩ | ⟨-, hi⟩
    · cases x with
      | relay batchSize => cases hs
      | redrive id actorUserId => cases hs
      | work jid | stallOut jid =>
        obtain ⟨_, -, he⟩ := map_eq_some_iff.mp hs
        cases he
    · exact ⟨tasks, hi, .inl ht⟩
  | crash hp => exact ⟨tasks, (World.proc?_kill_cases hi).2, .inl ht⟩
  | env hs => exact ⟨tasks, hi, .inl ht⟩
  | @step k c p p' s hp hs =>
    rcases World.proc?_put_cases hp hi with ⟨rfl, rfl⟩ | ⟨-, hi⟩
    · cases p with
      | relay pc =>
        obtain ⟨⟨s₁, pc'⟩, hrelay, he⟩ := map_eq_some_iff.mp hs
        cases he
        rcases relayStep_cases hrelay with ⟨now, n, rfl, -, htasks⟩ |
          ⟨tasks₀, t₀, t', rfl, ht₀, hts, he⟩
        · rw [(htasks tasks rfl t ht).1] at hpc
          cases hpc
        · obtain rfl := RelayPc.enqueue.inj he
          refine ⟨tasks₀, hp, ?_⟩
          rcases List.mem_or_eq_of_mem_set ht with ht | rfl
          · exact .inl ht
          · rcases enqueueClaimedEvent_queue hts with ⟨-, hno⟩ | ⟨-, hev, hq⟩
            · exact (hno hpc).elim
            · obtain ⟨hid, hev'⟩ := enqueueClaimedEvent_event hts
              refine .inr ⟨t₀, ht₀, hid, hev', hev, ?_⟩
              rw [World.put_shared, hq]
              exact JobQueue.exists_add_self
      | worker jid job pc =>
        rcases step_worker hs with ⟨pc', he, -⟩ | hs
        · cases he
        · rcases settleJob_cases hs with ⟨-, -, he⟩ | ⟨e, -, ⟨j, -, -, -, he⟩ | ⟨-, -, he⟩⟩ <;>
            cases he
      | reconcile jid r =>
        obtain ⟨_, -, he⟩ := map_eq_some_iff.mp hs
        cases he
      | redrive pc =>
        obtain ⟨_, -, he⟩ := map_eq_some_iff.mp hs
        cases he
      | finished => cases hs
    · exact ⟨tasks, hi, .inl ht⟩

theorem marking_next (hf : Facts w) (hk : Kept cfg w) (hg : SafeStep cfg w l)
    (hn : (outbox cfg).next w l = some w') {t : EnqueueTask}
    (hi : w'.proc? i = some (.relay (.enqueue tasks))) (ht : t ∈ tasks)
    (hpc : t.pc = .markEnqueued) (hr' : w'.shared.events t.id = some row')
    (hstake : AtStake row' w'.shared.now) (hc : row'.status = .claimed)
    (htok : row'.claimToken = some i) : Covered cfg w' ⟨t.id, row'.deliveryGeneration⟩ row' := by
  obtain ⟨tasks₀, hi₀, hold⟩ := marking_before hn hi ht hpc
  have hr := claimed_before hn hi₀ hr' hc htok
  have hnow := (row_next hn hr hr').2
  rcases hold with ht₀ | ⟨t₀, ht₀, hid, hev, hrows, j, hj⟩
  · refine covered_next hf hg hn hr hr' rfl rfl hstake ?_
    exact hk.marking i tasks₀ t row' hi₀ ht₀ hpc hr (atStake_unexpired hstake hnow) hc htok
  · refine (served_next hf hk hg hn hr' hstake).resolve_right fun ⟨_, hnone⟩ => ?_
    -- the job that was added is the one of the generation of the row
    have hgen := (hf.books.proc i _ hi₀ t₀ ht₀).generation row' (hid ▸ hr) hc htok
    rw [hgen, hid] at hnone
    exact absurd (hj.symm.trans hnone) nofun

/-- **The step lemma.** A safe step keeps the invariant. -/
theorem kept_next (hf : Facts w) (hk : Kept cfg w) (hg : SafeStep cfg w l)
    (hn : (outbox cfg).next w l = some w') : Kept cfg w' where
  served _ _ hr hstake := served_next hf hk hg hn hr hstake
  marking _ _ _ _ hi ht hpc hr hstake hc htok :=
    marking_next hf hk hg hn hi ht hpc hr hstake hc htok

theorem kept_reached (h : ReachableBy (outbox cfg).system (SafeStep cfg) w) : Kept cfg w := by
  refine h.invariant' (fun w hw => ?_) fun w w' l hr hk hg hn => ?_
  · obtain rfl : w = ⟨{}, []⟩ := hw
    exact kept_init
  · exact kept_next (facts hr.reachable) hk hg hn

/-- **No event is lost in a run of safe steps.** -/
theorem no_lost_event (cfg : Config) (w : OutboxWorld)
    (h : ReachableBy (outbox cfg).system (SafeStep cfg) w) : NoLostEvent cfg w := by
  intro id row hr hstake
  rcases (kept_reached h).served id row hr hstake with (hh | hj) | ⟨hp | hc, -⟩
  · exact .inr (.inr (.inr hh))
  · exact .inr (.inr (.inl hj))
  · exact .inl hp
  · exact .inr (.inl ⟨hc, (facts h.reachable).books.shared.lease id row hr hc⟩)

/-- A worker that has started an event, after safe steps only. -/
theorem no_lost_event_processing : ∃ w : OutboxWorld,
    (∃ row ∈ w.shared.events "e1", AtStake row w.shared.now ∧ row.status = .processing) ∧
      NoLostEvent exampleConfig w := by
  obtain ⟨w, hw, hrow⟩ := (outbox exampleConfig).exists_reached (SafeStep exampleConfig)
    (enqueueAndTake ++ [.step 1 {}]) (fun w => ∃ row ∈ w.shared.events "e1",
      AtStake row w.shared.now ∧ row.status = .processing) (by decide)
  exact ⟨w, hrow, no_lost_event exampleConfig w hw⟩

end BackendFoundation.Outbox.NoLost
