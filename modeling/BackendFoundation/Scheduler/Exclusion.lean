import BackendFoundation.Errors
import BackendFoundation.Lib.Calls
import BackendFoundation.Lib.Interleave
import BackendFoundation.Lib.Table

/-! # Scheduled jobs

`runScheduledJob` of `scheduler.ts`. A run takes a lease of the job in Redis and races the handler
against a timer. Whichever is first, it records the outcome and releases the lease; a handler that
has lost the race goes on until it ends, and looks at the abort signal when it likes.

Two handlers of a job are never active at once as long as no run releases its lease, and no lease
expires, while the handler is active (`Guarded`). Once one does, a second handler can start.

Main result: `jobs_exclusive`. -/

namespace BackendFoundation.Scheduler.Exclusion

open Errors Lib Lib.Runs Lib.Interleave
open Option (some.inj)

/-! ### The runs -/

structure ScheduledJob where
  name : String
  timeoutMs : ℕ
deriving DecidableEq

/-- The value of a lock key and its expiry. -/
structure Lease where
  /-- The run that has set it. -/
  token : ℕ
  expiresAt : ℕ
deriving DecidableEq

inductive RunStatus
  | success | failure
deriving DecidableEq

structure JobRunState where
  lastRunAt : ℕ
  lastDurationMs : ℕ
  lastStatus : RunStatus
  lastError : Option String := none
deriving DecidableEq

structure SchedulerState where
  now : ℕ := 0
  /-- By the name of the job, as the states. -/
  locks : Table String Lease := Table.empty
  states : Table String JobRunState := Table.empty

/-- What a handler resolves to, or throws. -/
abbrev RunResult := Except Thrown String

inductive Handler
  | idle
  | active (aborted : Bool)
  | ended
deriving DecidableEq

def Handler.isActive : Handler → Bool
  | .active _ => true
  | .idle | .ended => false

/-- `controller.abort`. -/
def Handler.abort : Handler → Handler
  | .active _ => .active true
  | handler => handler

inductive RunPc
  | acquire
  /-- The lease is taken, and the reply is on its way. -/
  | start
  /-- The race; the timer fires at the deadline or later. -/
  | racing (deadline : ℕ)
  | recordRun (result : RunResult)
  | releaseLock (result : RunResult)
  | done (result : RunResult)

structure Run where
  job : ScheduledJob
  startedAt : ℕ
  pc : RunPc
  handler : Handler := .idle

/-- The run has its lease and its handler has not ended. -/
def Run.isUnderway (run : Run) : Bool :=
  match run.pc with
  | .start => true
  | _ => run.handler.isActive

/-- What happens to a run: its request to Redis, the start and the end of its handler, its timer. -/
inductive RunChoice
  | request (o : Outcome Thrown)
  | handlerStarts
  | handlerEnds (result : RunResult)
  | timerFires

def scheduledJobs : List ScheduledJob :=
  [⟨"retention-cleanup", 600000⟩, ⟨"audit-integrity-verification", 1800000⟩]

def findScheduledJob (jobs : List ScheduledJob) (name : String) : Option ScheduledJob :=
  jobs.find? (·.name = name)

/-- `get`: a key that has expired is gone. Redis drops a key once the clock is past its expiry; here a
lease is over already at it, a millisecond sooner, so that other runs get it no later than they do. -/
def SchedulerState.lock (s : SchedulerState) (name : String) : Option Lease :=
  (s.locks name).filter (s.now < ·.expiresAt)

/-- The script that deletes the key if it has the token of the run. -/
def SchedulerState.releaseLock (s : SchedulerState) (name : String) (token : ℕ) : SchedulerState :=
  if ∃ lease ∈ s.lock name, lease.token = token then { s with locks := s.locks.erase name } else s

def Run.state (run : Run) (now : ℕ) (result : RunResult) : JobRunState where
  lastRunAt := now
  lastDurationMs := now - run.startedAt
  lastStatus :=
    match result with
    | .ok _ => .success
    | .error _ => .failure
  lastError :=
    match result with
    | .ok _ => none
    | .error e => some (String.ofList ((e.messageOr "Unknown error").toList.take 500))

def SchedulerState.recordRun (s : SchedulerState) (run : Run) (result : RunResult) :
    SchedulerState :=
  { s with states := s.states.set run.job.name (run.state s.now result) }

/-- A request to Redis. A failure to record the run or to release the lock is ignored. -/
def requestStep (s : SchedulerState) (i : ℕ) (run : Run) (o : Outcome Thrown) :
    Option (SchedulerState × Run) :=
  match run.pc with
  | .acquire =>
    let failed (e : Thrown) : Run := { run with pc := .done (.error e) }
    match s.lock run.job.name with
    | some _ =>
      some (o.read s
        (failed (.error ("Scheduled job " ++ run.job.name ++ " is already running"))) failed)
    | none =>
      let lease : Lease := ⟨i, s.now + (run.job.timeoutMs + 60000)⟩
      some (o.run s { s with locks := s.locks.set run.job.name lease }
        { run with pc := .start } failed)
  | .recordRun result =>
    let next : Run := { run with pc := .releaseLock result }
    some (o.run s (s.recordRun run result) next fun _ => next)
  | .releaseLock result =>
    let next : Run := { run with pc := .done result }
    some (o.run s (s.releaseLock run.job.name i) next fun _ => next)
  | .start | .racing _ | .done _ => none

def runStep (s : SchedulerState) (i : ℕ) (run : Run) : RunChoice → Option (SchedulerState × Run)
  | .request o => requestStep s i run o
  | .handlerStarts =>
    match run.pc with
    | .start =>
      some (s, { run with pc := .racing (s.now + run.job.timeoutMs), handler := .active false })
    | _ => none
  | .handlerEnds result =>
    if run.handler.isActive then
      match run.pc with
      | .racing _ => some (s, { run with pc := .recordRun result, handler := .ended })
      | _ => some (s, { run with handler := .ended })
    else none
  | .timerFires =>
    match run.pc with
    | .racing deadline =>
      if deadline ≤ s.now then
        let error : Thrown := .error ("Scheduled job " ++ run.job.name ++ " exceeded " ++
          toString run.job.timeoutMs ++ "ms")
        some (s, { run with pc := .recordRun (.error error), handler := run.handler.abort })
      else none
    | _ => none

/-- A run of a name that is not in the registry throws at once. -/
def newRun (jobs : List ScheduledJob) (now : ℕ) (name : String) : Run :=
  match findScheduledJob jobs name with
  | some job => ⟨job, now, .acquire, .idle⟩
  | none => ⟨⟨name, 0⟩, now, .done (.error (.error ("Unknown scheduled job: " ++ name))), .idle⟩

/-- **Runs of scheduled jobs**, on any replicas. A replica that stops takes its runs with it. -/
def runs (jobs : List ScheduledJob) : Program SchedulerState Run String RunChoice ℕ where
  init := {}
  spawn s _ name := some (s, newRun jobs s.now name)
  step := runStep
  env s ms := some { s with now := s.now + ms }

abbrev RunWorld := World SchedulerState Run

abbrev RunLabel := Label String RunChoice ℕ

/-! ### The property and its condition -/

/-- Two active handlers of one job are handlers of one run. -/
def Exclusive (w : RunWorld) : Prop :=
  ∀ i j run run', w.proc? i = some run → w.proc? j = some run' → run.handler.isActive = true →
    run'.handler.isActive = true → run.job.name = run'.job.name → i = j

def RunPc.isRelease : RunPc → Bool
  | .releaseLock _ => true
  | _ => false

/-- **No run gives its lease up early**: it does not release it while its handler is active, and
time does not go past the expiry before the handler has ended. -/
def Guarded (w : RunWorld) : RunLabel → Prop
  | .step i (.request o) =>
    ∀ run ∈ w.proc? i, run.pc.isRelease = true → o.TakesEffect → run.handler.isActive = false
  | .env ms =>
    ∀ i < w.fresh, ∀ run ∈ w.proc? i, run.isUnderway = true →
      ∀ lease ∈ w.shared.locks run.job.name, lease.token = i → w.shared.now + ms < lease.expiresAt
  | _ => True
instance (w : RunWorld) (l : RunLabel) : Decidable (Guarded w l) := by
  unfold Guarded
  cases l with
  | step i choice => cases choice <;> infer_instance
  | _ => infer_instance

/-! ### What a step of a run does -/

variable {jobs : List ScheduledJob} {s s' : SchedulerState} {i j : ℕ} {run run' : Run}
  {choice : RunChoice} {w w' : RunWorld} {l : RunLabel} {name : String} {lease : Lease} {e : ℕ}

theorem underway_of_active (h : run.handler.isActive = true) : run.isUnderway = true := by
  unfold Run.isUnderway
  split
  · rfl
  · exact h

theorem start_or_active (h : run.isUnderway = true) :
    run.pc = .start ∨ run.handler.isActive = true := by
  unfold Run.isUnderway at h
  split at h
  · next hpc => exact .inl hpc
  · exact .inr h

theorem lock_eq_some : s.lock name = some lease ↔
    s.locks name = some lease ∧ s.now < lease.expiresAt := by
  simp [SchedulerState.lock, Option.filter_eq_some_iff]

/-- What a step of a run does: it takes the lock of its job, releases it or leaves the locks. -/
inductive RunMove (s : SchedulerState) (i : ℕ) (run : Run) (choice : RunChoice)
    (s' : SchedulerState) (run' : Run) : Prop
  | went (hlocks : s'.locks = s.locks)
    (hunderway : run'.isUnderway = true → run.isUnderway = true)
  | acquired (hpc : run.pc = .acquire) (hfree : s.lock run.job.name = none)
    (hlocks : s'.locks =
      s.locks.set run.job.name ⟨i, s.now + (run.job.timeoutMs + 60000)⟩)
  | released (o : Outcome Thrown) (hchoice : choice = .request o) (ho : o.TakesEffect)
    (hpc : run.pc.isRelease = true) (hlocks : s' = s.releaseLock run.job.name i)
    (hunderway : run'.isUnderway = true → run.handler.isActive = true)

/-- What every step of a run keeps. -/
structure RunKept (s : SchedulerState) (run : Run) (s' : SchedulerState) (run' : Run) : Prop where
  now : s'.now = s.now
  job : run'.job = run.job
  acquire : run'.pc = .acquire → run.pc = .acquire

theorem releaseLock_now (s : SchedulerState) (name : String) (token : ℕ) :
    (s.releaseLock name token).now = s.now := by
  unfold SchedulerState.releaseLock
  split_ifs <;> rfl

variable {o : Outcome Thrown}

theorem runKept_of_request (h : requestStep s i run o = some (s', run')) :
    RunKept s run s' run' := by
  unfold requestStep at h
  dsimp only at h
  split at h
  · split at h
    · obtain ⟨rfl, ⟨-, rfl⟩ | ⟨e, -, rfl⟩⟩ := Outcome.read_cases (some.inj h) <;>
        exact ⟨rfl, rfl, nofun⟩
    · rcases Outcome.run_cases (some.inj h) with ⟨-, rfl, rfl⟩ | ⟨e, -, rfl, rfl⟩ |
        ⟨e, -, rfl, rfl⟩ <;> exact ⟨rfl, rfl, nofun⟩
  · rcases Outcome.run_cases (some.inj h) with ⟨-, rfl, rfl⟩ | ⟨e, -, rfl, rfl⟩ |
      ⟨e, -, rfl, rfl⟩ <;> exact ⟨rfl, rfl, nofun⟩
  · rcases Outcome.run_cases (some.inj h) with ⟨-, rfl, rfl⟩ | ⟨e, -, rfl, rfl⟩ |
      ⟨e, -, rfl, rfl⟩
    · exact ⟨releaseLock_now s _ i, rfl, nofun⟩
    · exact ⟨rfl, rfl, nofun⟩
    · exact ⟨releaseLock_now s _ i, rfl, nofun⟩
  · cases h
  · cases h
  · cases h

theorem runKept_of_step (h : runStep s i run choice = some (s', run')) :
    RunKept s run s' run' := by
  cases choice with
  | request o => exact runKept_of_request h
  | handlerStarts | timerFires =>
    simp only [runStep] at h
    split at h
    · try split_ifs at h
      obtain ⟨rfl, rfl⟩ := pair_inj h
      exact ⟨rfl, rfl, nofun⟩
    · cases h
  | handlerEnds result =>
    simp only [runStep] at h
    split_ifs at h
    split at h <;> obtain ⟨rfl, rfl⟩ := pair_inj h
    · exact ⟨rfl, rfl, nofun⟩
    · exact ⟨rfl, rfl, id⟩

theorem runMove_of_request (h : requestStep s i run o = some (s', run')) :
    RunMove s i run (.request o) s' run' := by
  unfold requestStep at h
  dsimp only at h
  split at h
  · next hpc =>
    split at h
    · obtain ⟨rfl, ⟨-, rfl⟩ | ⟨e, -, rfl⟩⟩ := Outcome.read_cases (some.inj h) <;>
        exact .went rfl fun h => @underway_of_active run h
    · next hfree =>
      exact Outcome.run_elim (some.inj h) (.acquired hpc hfree rfl)
        (fun _ => .went rfl fun h => @underway_of_active run h) fun _ => .acquired hpc hfree rfl
  · rcases Outcome.run_cases (some.inj h) with ⟨-, rfl, rfl⟩ | ⟨e, -, rfl, rfl⟩ |
      ⟨e, -, rfl, rfl⟩ <;> exact .went rfl fun h => @underway_of_active run h
  · next hpc =>
    rcases Outcome.run_cases (some.inj h) with ⟨rfl, rfl, rfl⟩ | ⟨e, -, rfl, rfl⟩ |
      ⟨e, rfl, rfl, rfl⟩
    · exact .released _ rfl trivial (by rw [hpc]; rfl) rfl id
    · exact .went rfl fun h => @underway_of_active run h
    · exact .released _ rfl trivial (by rw [hpc]; rfl) rfl id
  · cases h
  · cases h
  · cases h

theorem abort_isActive {handler : Handler} : handler.abort.isActive = handler.isActive := by
  cases handler <;> rfl

theorem runMove_of_step (h : runStep s i run choice = some (s', run')) :
    RunMove s i run choice s' run' := by
  cases choice with
  | request o => exact runMove_of_request h
  | handlerStarts =>
    simp only [runStep] at h
    split at h
    · next hpc =>
      obtain ⟨rfl, rfl⟩ := pair_inj h
      exact .went rfl fun _ => by rw [Run.isUnderway, hpc]
    · cases h
  | handlerEnds result =>
    simp only [runStep] at h
    split_ifs at h with hactive
    split at h <;> obtain ⟨rfl, rfl⟩ := pair_inj h <;>
      exact .went rfl fun _ => underway_of_active hactive
  | timerFires =>
    simp only [runStep] at h
    split at h
    · split_ifs at h
      obtain ⟨rfl, rfl⟩ := pair_inj h
      refine .went rfl fun hunderway => underway_of_active ?_
      exact abort_isActive ▸ hunderway
    · cases h

/-! ### The lease of a run -/

/-- A run whose handler has not ended has the lease of its job. -/
structure RunLeased (jobs : List ScheduledJob) (i : ℕ) (run : Run) (s : SchedulerState) : Prop where
  known : run.pc = .acquire ∨ run.isUnderway = true →
    findScheduledJob jobs run.job.name = some run.job
  held : run.isUnderway = true →
    ∃ expiresAt, s.lock run.job.name = some ⟨i, expiresAt⟩

def leased (jobs : List ScheduledJob) : Assertions SchedulerState Run where
  shared _ := True
  proc := RunLeased jobs

theorem runLeased_newRun : RunLeased jobs i (newRun jobs s.now name) s := by
  unfold newRun
  split
  · next job hjob =>
    have hname : job.name = name := by
      simpa using List.find?_some hjob
    exact ⟨fun _ => hname ▸ hjob, nofun⟩
  · exact ⟨nofun, nofun⟩

theorem releaseLock_cases (s : SchedulerState) (name : String) (token : ℕ) :
    (∃ expiresAt, s.lock name = some ⟨token, expiresAt⟩ ∧
      s.releaseLock name token = { s with locks := s.locks.erase name }) ∨
      s.releaseLock name token = s := by
  unfold SchedulerState.releaseLock
  split_ifs with h
  · obtain ⟨⟨t, e⟩, hlock, rfl⟩ := h
    exact .inl ⟨e, hlock, rfl⟩
  · exact .inr rfl

theorem lock_congr (hlocks : s'.locks name = s.locks name) (hnow : s'.now = s.now) :
    s'.lock name = s.lock name := by
  simp only [SchedulerState.lock, hlocks, hnow]

theorem lock_frame (hkept : RunKept s run s' run') (hmove : RunMove s i run choice s' run')
    (hij : j ≠ i) {expiresAt : ℕ} (h : s.lock name = some ⟨j, expiresAt⟩) :
    s'.lock name = some ⟨j, expiresAt⟩ := by
  cases hmove with
  | went hlocks _ => rw [lock_congr (by rw [hlocks]) hkept.now, h]
  | acquired hpc hfree hlocks =>
    have hname : name ≠ run.job.name := by
      rintro rfl
      exact absurd (hfree.symm.trans h) nofun
    rw [lock_congr (by rw [hlocks, Table.set_of_ne hname]) hkept.now, h]
  | released o _ _ _ hlocks _ =>
    rcases releaseLock_cases s run.job.name i with ⟨e, hown, he⟩ | he
    · have hname : name ≠ run.job.name := by
        rintro rfl
        exact hij (congrArg Lease.token (some.inj (h.symm.trans hown)))
      have hkeys : s'.locks name = s.locks name := by
        rw [hlocks, he]
        exact Table.erase_of_ne hname
      rw [lock_congr hkeys hkept.now, h]
    · rw [hlocks, he, h]

theorem leased_outline (jobs : List ScheduledJob) : Outline (runs jobs) Guarded (leased jobs) where
  init := trivial
  env w ms s hw hg hs := by
    obtain rfl := some.inj hs
    refine ⟨trivial, fun j q hq => ⟨(hw.proc j q hq).known, fun hunderway => ?_⟩⟩
    obtain ⟨e, he⟩ := (hw.proc j q hq).held hunderway
    have hlock := (lock_eq_some.mp he).1
    exact ⟨e, lock_eq_some.mpr ⟨hlock, hg j (World.lt_fresh hq) q hq hunderway _ hlock rfl⟩⟩
  spawn w name s p hw _ hs := by
    obtain ⟨rfl, rfl⟩ := pair_inj hs
    exact ⟨trivial, runLeased_newRun, fun j q hq => ⟨hw.proc j q hq, trivial, trivial⟩⟩
  step w i p c s p' hw hp hg hs := by
    have hrun := hw.proc i p hp
    have hkept := runKept_of_step hs
    refine ⟨trivial, ?_⟩
    cases runMove_of_step hs with
    | went hlocks hunderway =>
      refine ⟨fun h => ?_, fun h => ?_⟩
      · rw [hkept.job]
        exact hrun.known (h.imp hkept.acquire hunderway)
      · rw [hkept.job, lock_congr (by rw [hlocks]) hkept.now]
        exact hrun.held (hunderway h)
    | acquired hpc hfree hlocks =>
      refine ⟨fun _ => ?_, fun _ => ?_⟩
      · rw [hkept.job]
        exact hrun.known (.inl hpc)
      · refine ⟨w.shared.now + (p.job.timeoutMs + 60000), lock_eq_some.mpr ⟨?_, ?_⟩⟩
        · rw [hlocks, hkept.job, Table.set_self]
        · rw [hkept.now]
          show w.shared.now < w.shared.now + (p.job.timeoutMs + 60000)
          omega
    | released o hchoice ho hpc hlocks hunderway =>
      subst hchoice
      -- The handler has ended before the release.
      have hended : p.handler.isActive = false := hg p hp hpc ho
      refine ⟨fun h => ?_, fun h => absurd (hunderway h) (by simp [hended])⟩
      rw [hkept.job]
      refine hrun.known (h.imp hkept.acquire fun h => absurd (hunderway h) (by simp [hended]))
  frame w i p c s p' hw hp _ hs j q hij hq := by
    refine ⟨⟨(hw.proc j q hq).known, fun hunderway => ?_⟩, trivial, trivial⟩
    obtain ⟨e, he⟩ := (hw.proc j q hq).held hunderway
    exact ⟨e, lock_frame (runKept_of_step hs) (runMove_of_step hs) hij he⟩

theorem exclusive_of_leased (h : (leased jobs).Holds w) : Exclusive w := by
  intro i j run run' hi hj hactive hactive' hname
  obtain ⟨e, he⟩ := (h.proc i run hi).held (underway_of_active hactive)
  obtain ⟨e', he'⟩ := (h.proc j run' hj).held (underway_of_active hactive')
  rw [← hname] at he'
  exact congrArg Lease.token (some.inj (he.symm.trans he'))

/-! ### A second handler -/

def Timeless (_ : RunWorld) (l : RunLabel) : Prop := ∀ ms, l ≠ .env ms

theorem timeless_spawn {name : String} : Timeless w (.spawn name) := by
  intro ms h
  cases h

theorem timeless_call {c : RunChoice} : Timeless w (.step i c) := by
  intro ms h
  cases h

theorem timeless_step {w'' : RunWorld} (p : Path (runs jobs).system Timeless w w')
    (h : (runs jobs).next w' l = some w'') (hl : Timeless w' l) :
    Path (runs jobs).system Timeless w w'' := p.step hl h

/-- A handler is active and the lock of its job is free: another run takes it and starts its
handler. -/
theorem second_handler (hi : w.proc? i = some run) (hactive : run.handler.isActive = true)
    (hknown : findScheduledJob jobs run.job.name = some run.job)
    (hfree : w.shared.lock run.job.name = none) :
    ∃ w', Path (runs jobs).system Timeless w w' ∧ ¬ Exclusive w' := by
  let s : SchedulerState :=
    { w.shared with
      locks := w.shared.locks.set run.job.name
        ⟨w.fresh, w.shared.now + (run.job.timeoutMs + 60000)⟩ }
  let second (pc : RunPc) (handler : Handler) : Run := ⟨run.job, w.shared.now, pc, handler⟩
  let w₁ : RunWorld := w.add w.shared (second .acquire .idle)
  let w₂ : RunWorld := w₁.put w.fresh s (second .start .idle)
  let w₃ : RunWorld := w₂.put w.fresh s
    (second (.racing (w.shared.now + run.job.timeoutMs)) (.active false))
  have h₁ : w₁.proc? w.fresh = some (second .acquire .idle) := World.proc?_add_self
  have h₂ : w₂.proc? w.fresh = some (second .start .idle) := World.proc?_put_self h₁
  have hspawn : (runs jobs).next w (.spawn run.job.name) = some w₁ := by
    simp only [Program.next, runs, newRun, hknown]
    rfl
  have hacquire : (runs jobs).next w₁ (.step w.fresh (.request .ok)) = some w₂ := by
    simp only [Program.next, h₁]
    have hfree₁ : w₁.shared.lock (second .acquire .idle).job.name = none := hfree
    simp only [runs, runStep, requestStep, second] at hfree₁ ⊢
    rw [hfree₁]
    rfl
  have hstart : (runs jobs).next w₂ (.step w.fresh .handlerStarts) = some w₃ := by
    simp only [Program.next, h₂]
    rfl
  have hne : i ≠ w.fresh := World.ne_fresh hi
  have hpath : Path (runs jobs).system Timeless w w₃ :=
    timeless_step (timeless_step (timeless_step .refl hspawn timeless_spawn) hacquire
      timeless_call) hstart timeless_call
  refine ⟨w₃, hpath, ?_⟩
  intro hexclusive
  have hi₃ : w₃.proc? i = some run := by
    rw [World.proc?_put_of_ne hne, World.proc?_put_of_ne hne, World.proc?_add_of_ne hne, hi]
  exact hne (hexclusive i w.fresh run _ hi₃ (World.proc?_put_self h₂) hactive rfl rfl)

theorem second_handler_of_underway (hi : w.proc? i = some run) (hunderway : run.isUnderway = true)
    (hknown : findScheduledJob jobs run.job.name = some run.job)
    (hfree : w.shared.lock run.job.name = none) :
    ∃ w', Path (runs jobs).system Timeless w w' ∧ ¬ Exclusive w' := by
  rcases start_or_active hunderway with hpc | hactive
  · -- The run starts its handler first.
    obtain ⟨job, startedAt, pc, handler⟩ := run
    obtain rfl : pc = .start := hpc
    let run' : Run := ⟨job, startedAt, .racing (w.shared.now + job.timeoutMs), .active false⟩
    have hstart : (runs jobs).next w (.step i .handlerStarts) =
        some (w.put i w.shared run') := by
      simp only [Program.next, hi]
      rfl
    obtain ⟨w', hpath, hw'⟩ := second_handler (World.proc?_put_self hi) rfl hknown
      (w := w.put i w.shared run') hfree
    exact ⟨w', (timeless_step .refl hstart timeless_call).trans hpath, hw'⟩
  · exact second_handler hi hactive hknown hfree

theorem releaseLock_of_request (hpc : run.pc.isRelease = true) (ho : o.TakesEffect)
    (h : requestStep s i run o = some (s', run')) :
    s' = s.releaseLock run.job.name i ∧ run'.handler = run.handler := by
  unfold RunPc.isRelease at hpc
  split at hpc
  · next result hrelease =>
    simp only [requestStep, hrelease] at h
    rcases Outcome.run_cases (some.inj h) with ⟨-, rfl, rfl⟩ | ⟨e, rfl, -, -⟩ |
      ⟨e, -, rfl, rfl⟩
    · exact ⟨rfl, rfl⟩
    · exact ho.elim
    · exact ⟨rfl, rfl⟩
  · cases hpc

theorem releaseLock_frees (h : s.lock name = some ⟨i, e⟩) :
    (s.releaseLock name i).lock name = none := by
  have hown : ∃ lease ∈ s.lock name, lease.token = i := ⟨_, h, rfl⟩
  rw [SchedulerState.releaseLock, if_pos hown]
  simp [SchedulerState.lock]

theorem free_of_not_guarded (h : (leased jobs).Holds w) (hg : ¬ Guarded w l)
    (hn : (runs jobs).next w l = some w') : ∃ i run, w'.proc? i = some run ∧
      run.isUnderway = true ∧ findScheduledJob jobs run.job.name = some run.job ∧
        w'.shared.lock run.job.name = none := by
  cases Program.move_of_next hn with
  | spawn _ => exact absurd trivial hg
  | crash _ => exact absurd trivial hg
  | @env ms s hs =>
    obtain rfl := some.inj hs
    simp only [Guarded, not_forall, Nat.not_lt] at hg
    obtain ⟨i, -, run, hrun, hunderway, lease, hlease, rfl, hexpired⟩ := hg
    refine ⟨_, run, hrun, hunderway, (h.proc _ run hrun).known (.inr hunderway), ?_⟩
    refine Option.eq_none_iff_forall_ne_some.mpr fun lease' hlock => ?_
    obtain ⟨hlease', hlive⟩ := lock_eq_some.mp hlock
    obtain rfl := some.inj (Eq.trans (Eq.symm hlease) hlease')
    exact absurd hlive (Nat.not_lt.mpr hexpired)
  | @step i c run run' s hrun hs =>
    cases c with
    | handlerStarts => exact absurd trivial hg
    | handlerEnds _ => exact absurd trivial hg
    | timerFires => exact absurd trivial hg
    | request o =>
      simp only [Guarded, not_forall] at hg
      obtain ⟨r, hr, hpc, ho, hactive⟩ := hg
      obtain rfl := some.inj (Eq.trans (Eq.symm hr) hrun)
      have hactive' : r.handler.isActive = true := by simpa using hactive
      have hstep : runStep w.shared i r (.request o) = some (s, run') := hs
      have hkept := runKept_of_step hstep
      obtain ⟨rfl, hhandler⟩ := releaseLock_of_request hpc ho hs
      have hrunning := underway_of_active hactive'
      obtain ⟨e, he⟩ := (h.proc i r hrun).held hrunning
      refine ⟨i, run', World.proc?_put_self hrun, underway_of_active (hhandler ▸ hactive'), ?_, ?_⟩
      · rw [hkept.job]
        exact (h.proc i r hrun).known (.inr hrunning)
      · rw [hkept.job]
        exact releaseLock_frees he

/-! ### The claim -/

/-- **Two executions of a job's handler are never active at once** in a run in which no run gives its
lease up early; where one does, a second handler can start before any time passes. -/
theorem jobs_exclusive (h : ReachableBy (runs jobs).system Guarded w) :
    Exclusive w ∧ ∀ l w', (runs jobs).next w l = some w' → ¬ Guarded w l →
      ∃ w'', Path (runs jobs).system Timeless w' w'' ∧ ¬ Exclusive w'' := by
  have hleased := (leased_outline jobs).holds h
  refine ⟨exclusive_of_leased hleased, fun l w' hn hg => ?_⟩
  obtain ⟨i, run, hrun, hunderway, hknown, hfree⟩ := free_of_not_guarded hleased hg hn
  exact second_handler_of_underway hrun hunderway hknown hfree

/-- A run whose handler ends in time, and a second one. -/
theorem jobs_exclusive_nightly : ∃ w : RunWorld,
    (w.proc? 1).any (·.handler.isActive) = true ∧
      (Exclusive w ∧ ∀ l w', (runs scheduledJobs).next w l = some w' → ¬ Guarded w l →
        ∃ w'', Path (runs scheduledJobs).system Timeless w' w'' ∧ ¬ Exclusive w'') := by
  obtain ⟨w, hw, hq⟩ := (runs scheduledJobs).exists_reached Guarded
    [.spawn "retention-cleanup", .step 0 (.request .ok), .step 0 .handlerStarts, .env 1000,
      .step 0 (.handlerEnds (.ok "{}")), .step 0 (.request .ok), .step 0 (.request .ok),
      .spawn "retention-cleanup", .step 1 (.request .ok), .step 1 .handlerStarts]
    (fun w => (w.proc? 1).any (·.handler.isActive) = true) (by decide)
  exact ⟨w, hq, jobs_exclusive hw⟩

/-- The handler of run 0 outlives the timeout; the run releases its lease, and run 1 starts a second
handler of the same job. -/
theorem handler_outlives_lease : ¬ ∀ w, Reachable (runs scheduledJobs).system w → Exclusive w := by
  intro hall
  obtain ⟨w, hw, h₀, h₁⟩ := (runs scheduledJobs).exists_reached anyStep
    [.spawn "retention-cleanup", .step 0 (.request .ok), .step 0 .handlerStarts, .env 600000,
      .step 0 .timerFires, .step 0 (.request .ok), .step 0 (.request .ok),
      .spawn "retention-cleanup", .step 1 (.request .ok), .step 1 .handlerStarts]
    (fun w => (w.proc? 0).any (fun run => decide (run.handler.isActive = true ∧
        run.job.name = "retention-cleanup")) = true ∧
      (w.proc? 1).any (fun run => decide (run.handler.isActive = true ∧
        run.job.name = "retention-cleanup")) = true) (by decide)
  obtain ⟨run, hrun, hactive⟩ := (Option.any_eq_true _ _).mp h₀
  obtain ⟨run', hrun', hactive'⟩ := (Option.any_eq_true _ _).mp h₁
  obtain ⟨ha, hname⟩ := of_decide_eq_true hactive
  obtain ⟨ha', hname'⟩ := of_decide_eq_true hactive'
  exact absurd (hall w hw 0 1 run run' hrun hrun' ha ha' (hname.trans hname'.symm)) (by decide)

end BackendFoundation.Scheduler.Exclusion
