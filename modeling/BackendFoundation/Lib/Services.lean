import BackendFoundation.Lib.Interleave
import BackendFoundation.Lib.WriteLog

/-! # Services on a database

The calls of a service run beside each other. A program point of a call has a statement, which its
read-committed transaction executes, or a step outside the database, on the `memory` that the calls
share. `Service.program` has the calls of a service with everything that their surroundings do to
them: statements fail and replies get lost, calls crash, and the database rolls back transactions.

A service `Follows` the annotations `wrote` and `locks` of its program points if each statement leads
from what has been written to what is said to be written after it; `callOk` then says that this is
what the transactions have. `Invariant` is a proof rule on top: it asks for what a step of one call
keeps, and for what a commit leaves the other calls. -/

set_option linter.unusedSectionVars false

namespace BackendFoundation.Lib.Services

open Lib.Runs Lib.Interleave Lib.Database Lib.Transact Lib.WriteLog
open Option (some.inj map_eq_some_iff)

variable {K : Type*} [DecidableEq K] {V : K → Type*} [∀ k, DecidableEq (V k)] {P A M E ε : Type*}

/-- What a call may look at when it goes on. -/
structure Site (K : Type*) where
  now : ℕ
  /-- The keys under which there may be rows. -/
  keys : List K
  /-- The row that a query returns first. -/
  pick : ℕ

structure Store (V : K → Type*) (M : Type*) where
  db : Db V := {}
  now : ℕ := 0
  memory : M

/-- What the surroundings of a call choose for its next step. -/
structure Choice (ε : Type*) where
  fate : Fate ε := .executed
  pick : ℕ := 0
deriving DecidableEq

inductive Event (E : Type*)
  | tick (ms : ℕ)
  /-- The database rolls back the transaction of a call. -/
  | abort (pid : ℕ)
  | outside (e : E)
deriving DecidableEq

structure Service (V : K → Type*) (P A M E ε : Type*) where
  rows : Rows V
  keys : List K
  memory : M
  start : ℕ → A → P
  stmt : P → Option (Stmt V)
  /-- Where a call goes on after the reply, or what it throws. -/
  next : Site K → P → Reply V → Option (Except ε P)
  outside : Site K → M → P → Option (M × P)
  /-- What is remembered of a commit. -/
  record : P → Rows V → M → M
  thrown : ε → P
  errors : Errors ε
  event : M → E → Option M

/-- The statement is a commit that the database executes. -/
def commits (db : Db V) (i : ℕ) (stmt : Stmt V) (fate : Fate ε) : Bool :=
  match stmt, fate with
  | .commit, .executed | .commit, .lost _ => !db.aborted i
  | _, _ => false

def Store.site (s : Store V M) (c : Choice ε) : Site K := ⟨s.now, s.db.keys, c.pick⟩

variable (svc : Service V P A M E ε)

/-- A step of a call. -/
def Service.step (s : Store V M) (i : ℕ) (call : Caller V P) (c : Choice ε) :
    Option (Store V M × Caller V P) :=
  match svc.stmt call.pc with
  | some stmt =>
    (call.step s.db i stmt (svc.next (s.site c) call.pc) svc.thrown svc.errors c.fate).map fun r =>
      ({ s with
          db := r.1
          memory :=
            if commits s.db i stmt c.fate then svc.record call.pc r.1.rows s.memory else s.memory },
        r.2)
  | none =>
    (svc.outside (s.site c) s.memory call.pc).map fun r =>
      ({ s with memory := r.1 }, { call with pc := r.2 })

/-- **The calls of a service.** -/
def Service.program : Program (Store V M) (Caller V P) A (Choice ε) (Event E) where
  init := { db := { rows := svc.rows, keys := svc.keys }, memory := svc.memory }
  spawn s _ a := some (s, ⟨svc.start s.now a, {}⟩)
  step s i call c := svc.step s i call c
  env s
    | .tick ms => some { s with now := s.now + ms }
    | .abort i => some { s with db := s.db.abort i }
    | .outside e => (svc.event s.memory e).map fun m => { s with memory := m }

abbrev ServiceWorld (V : K → Type*) (P M : Type*) := World (Store V M) (Caller V P)

abbrev ServiceLabel (A E ε : Type*) := Label A (Choice ε) (Event E)

/-- The call `i` takes `n` steps. -/
def steps (i n : ℕ) : List (ServiceLabel A E ε) := List.replicate n (.step i {})

/-- A call has come to a program point. -/
def Stands (w : ServiceWorld V P M) (i : ℕ) (pc : P) : Prop := (w.proc? i).map Caller.pc = some pc

instance [DecidableEq P] (w : ServiceWorld V P M) (i : ℕ) (pc : P) : Decidable (Stands w i pc) :=
  inferInstanceAs (Decidable (_ = _))

theorem point_inj {p q : P} (h : (some (.ok p) : Option (Except ε P)) = some (.ok q)) : p = q :=
  Except.ok.inj (some.inj h)

/-! ### What a step does -/

variable {svc} {s s' : Store V M} {i j : ℕ} {call call' : Caller V P} {c : Choice ε}

/-- What a step of a call does. -/
inductive Advance (svc : Service V P A M E ε) (s : Store V M) (i : ℕ) (call : Caller V P)
    (c : Choice ε) : Store V M → Caller V P → Prop
  | threw {db : Db V} {e : ε} {tx : Tx V} : db.rows = s.db.rows →
      Advance svc s i call c { s with db := db } ⟨svc.thrown e, tx⟩
  | running {stmt : Stmt V} {db : Db V} {tx : Tx V} : svc.stmt call.pc = some stmt →
      exec s.db i call.tx stmt = some (db, .running tx) → db.rows = s.db.rows →
      Advance svc s i call c { s with db := db } ⟨call.pc, tx⟩
  | replied {stmt : Stmt V} {db : Db V} {tx : Tx V} {reply : Reply V} {pc : P} :
      svc.stmt call.pc = some stmt → stmt ≠ .commit →
      exec s.db i call.tx stmt = some (db, .replied tx reply) →
      svc.next (s.site c) call.pc reply = some (.ok pc) → db.rows = s.db.rows →
      Advance svc s i call c { s with db := db } ⟨pc, tx⟩
  | committed {db : Db V} {tx : Tx V} {pc : P} : svc.stmt call.pc = some .commit →
      s.db.aborted i = false → commits s.db i .commit c.fate = true →
      db.rows = call.tx.writes.read s.db.rows →
      (∀ k c, call.tx.writes k = some c → s.db.rows k = c.before) →
      ((∃ e, pc = svc.thrown e) ∨ svc.next (s.site c) call.pc .done = some (.ok pc) ∧
        tx = { serializable := call.tx.serializable }) →
      Advance svc s i call c
        { s with db := db, memory := svc.record call.pc db.rows s.memory } ⟨pc, tx⟩
  | outside {m : M} {pc : P} : svc.stmt call.pc = none →
      svc.outside (s.site c) s.memory call.pc = some (m, pc) →
      Advance svc s i call c { s with memory := m } { call with pc := pc }

variable {db : Db V} {stmt : Stmt V}

theorem thrown_of_commits {fate : Fate ε} (h : commits db i stmt fate = true) :
    stmt = .commit ∧ db.aborted i = false := by
  unfold commits at h
  split at h
  · exact ⟨rfl, by simpa using h⟩
  · exact ⟨rfl, by simpa using h⟩
  · cases h

variable {db db' : Db V}

/-- A commit that is executed: its transaction has what it has written, and is done. -/
theorem Caller.step_commits {next : Reply V → Option (Except ε P)} {thrown : ε → P}
    {errors : Errors ε} {fate : Fate ε} (htx : TxOk db i call.tx)
    (hc : commits db i .commit fate = true)
    (h : call.step db i .commit next thrown errors fate = some (db', call')) :
    db'.rows = call.tx.writes.read db.rows ∧
      (∀ k c, call.tx.writes k = some c → db.rows k = c.before) ∧
      ((∃ e, call'.pc = thrown e) ∨ next .done = some (.ok call'.pc) ∧
        call'.tx = { serializable := call.tx.serializable }) := by
  obtain ⟨-, hlive⟩ := thrown_of_commits hc
  have hfits := fun k c hw => (htx.rows hlive k c hw).2
  unfold Caller.step at h
  split at h
  · cases hc
  split at h
  · cases h
  · next hs => rcases exec_commit_cases hs with ⟨-, hp⟩ | ⟨-, -, hp⟩ <;> cases hp
  · next db₁ tx reply hs =>
    rcases exec_commit_cases hs with ⟨-, hp⟩ | ⟨-, rfl, hp⟩
    · cases hp
    obtain ⟨rfl, rfl⟩ := Progress.replied.inj hp
    split at h
    · obtain ⟨rfl, rfl⟩ := pair_inj h
      exact ⟨rfl, hfits, .inl ⟨_, rfl⟩⟩
    · split at h
      · cases h
      · obtain ⟨rfl, rfl⟩ := pair_inj h
        exact ⟨rfl, hfits, .inl ⟨_, rfl⟩⟩
      · next hnext =>
        obtain ⟨rfl, rfl⟩ := pair_inj h
        exact ⟨rfl, hfits, .inr ⟨hnext, rfl⟩⟩
  · next hs =>
    rcases exec_commit_cases hs with ⟨hdead, -⟩ | ⟨-, -, hp⟩
    · rw [hlive] at hdead
      cases hdead
    · cases hp
  · next hs =>
    rcases exec_commit_cases hs with ⟨hdead, -⟩ | ⟨-, -, hp⟩
    · rw [hlive] at hdead
      cases hdead
    · cases hp

variable {tx : Tx V}

/-- The rows after a statement that is no commit, or after a commit that is not executed. -/
theorem exec_rows_of_live {p : Progress V} (htx : TxOk db i tx)
    (hs : exec db i tx stmt = some (db', p)) (hno : stmt = .commit → db.aborted i = true) :
    db'.rows = db.rows := by
  rcases exec_rows htx hs with he | ⟨rfl, -, rfl, -⟩
  · exact he
  · have hlive := exec_live hs (.inr ⟨_, rfl⟩)
    rw [hno rfl] at hlive
    cases hlive

/-- **What a step of a call does.** -/
theorem Service.step_advance (htx : TxOk s.db i call.tx)
    (h : svc.step s i call c = some (s', call')) : Advance svc s i call c s' call' := by
  unfold Service.step at h
  split at h
  · next stmt hstmt =>
    obtain ⟨⟨db, call₁⟩, hcall, he⟩ := map_eq_some_iff.mp h
    obtain ⟨rfl, rfl⟩ := Prod.mk.inj he
    by_cases hc : commits s.db i stmt c.fate = true
    · obtain ⟨rfl, hlive⟩ := thrown_of_commits hc
      obtain ⟨hrows, hfits, hpc⟩ := Caller.step_commits htx hc hcall
      simp only [hc, if_true]
      exact .committed hstmt hlive hc hrows hfits hpc
    · simp only [hc, Bool.false_eq_true, if_false]
      by_cases hfails : ∃ e, c.fate = .fails e
      · obtain ⟨e, he⟩ := hfails
        rw [he] at hcall
        obtain ⟨rfl, rfl⟩ := pair_inj hcall
        exact .threw rfl
      have hno : stmt = .commit → s.db.aborted i = true := by
        rintro rfl
        cases hf : c.fate with
        | fails e => exact absurd ⟨e, hf⟩ hfails
        | executed | lost e => simpa [commits, hf] using hc
      cases Caller.step_cases hcall with
      | refused => exact .threw rfl
      | running hs => exact .running hstmt hs (exec_rows_of_live htx hs hno)
      | lost hs | ended hs _ => exact .threw (exec_rows_of_live htx hs hno)
      | threw hs _ =>
        have hrows := exec_rows_of_live htx hs hno
        exact .threw hrows
      | replied hs hnext =>
        refine .replied hstmt (fun he => ?_) hs hnext (exec_rows_of_live htx hs hno)
        have hlive := exec_live hs (.inr ⟨_, rfl⟩)
        rw [hno he] at hlive
        cases hlive
  · next hstmt =>
    obtain ⟨⟨m, pc⟩, hout, he⟩ := map_eq_some_iff.mp h
    obtain ⟨rfl, rfl⟩ := Prod.mk.inj he
    exact .outside hstmt hout

/-- A call that goes on from a statement has executed it. -/
theorem Service.executed_of_step (hstmt : svc.stmt call.pc = some stmt)
    (h : svc.step s i call c = some (s', call')) (hpc : call'.pc ≠ call.pc)
    (hno : ∀ e, call'.pc ≠ svc.thrown e) : c.fate = .executed := by
  unfold Service.step at h
  rw [hstmt] at h
  obtain ⟨⟨db, call₁⟩, hcall, he⟩ := map_eq_some_iff.mp h
  obtain ⟨-, rfl⟩ := Prod.mk.inj he
  exact Caller.executed_of_step hcall hpc hno

theorem Service.step_txOk (htx : TxOk s.db i call.tx) (hdb : s.db.Listed)
    (h : svc.step s i call c = some (s', call')) :
    Moves s.db i s'.db ∧ s'.db.Listed ∧ TxOk s'.db i call'.tx := by
  unfold Service.step at h
  split at h
  · obtain ⟨⟨db, call₁⟩, hcall, he⟩ := map_eq_some_iff.mp h
    obtain ⟨rfl, rfl⟩ := Prod.mk.inj he
    exact (Caller.step_cases hcall).txOk htx hdb
  · obtain ⟨⟨m, pc⟩, -, he⟩ := map_eq_some_iff.mp h
    obtain ⟨rfl, rfl⟩ := Prod.mk.inj he
    exact ⟨.refl _ _, hdb, htx⟩

/-! ### Annotations -/

/-- What the transaction of a call has written at a program point, and the advisory locks that it
has. -/
structure Notes (V : K → Type*) (P : Type*) where
  wrote : P → Entry V
  locks : P → List K

/-- The statements lead from one annotation to the next, and a call that has thrown stops. -/
structure Service.Follows (svc : Service V P A M E ε) (notes : Notes V P) : Prop where
  listed : ∀ k, svc.rows k ≠ none → k ∈ svc.keys
  start : ∀ now a, (∀ k row, notes.wrote (svc.start now a) k row row) ∧
    notes.locks (svc.start now a) = []
  wrote : ∀ site pc stmt reply pc', svc.stmt pc = some stmt → stmt ≠ .commit →
    svc.next site pc reply = some (.ok pc') → ∀ k before between after,
      notes.wrote pc k before between → effect stmt reply k between after →
        notes.wrote pc' k before after
  locks : ∀ site pc stmt reply pc', svc.stmt pc = some stmt → stmt ≠ .commit →
    svc.next site pc reply = some (.ok pc') → ∀ k ∈ notes.locks pc',
      k ∈ notes.locks pc ∨ stmt = .lock k
  commit : ∀ site pc reply pc', svc.stmt pc = some .commit →
    svc.next site pc reply = some (.ok pc') →
      (∀ k row, notes.wrote pc' k row row) ∧ notes.locks pc' = []
  outside : ∀ site m pc m' pc', svc.stmt pc = none → svc.outside site m pc = some (m', pc') →
    (∀ k before after, notes.wrote pc k before after → notes.wrote pc' k before after) ∧
      ∀ k ∈ notes.locks pc', k ∈ notes.locks pc
  thrown : ∀ e, svc.stmt (svc.thrown e) = none ∧ ∀ site m, svc.outside site m (svc.thrown e) = none

variable {notes : Notes V P}

/-- What a call has at its program point. -/
structure PointOk (svc : Service V P A M E ε) (notes : Notes V P) (call : Caller V P) : Prop where
  serializable : call.tx.serializable = false
  snapshot : call.tx.snapshot = none
  wrote : TxLogged call.tx (notes.wrote call.pc) (svc.stmt call.pc)
  locks : ∀ k ∈ notes.locks call.pc, k ∈ call.tx.advisory

structure CallOk (svc : Service V P A M E ε) (notes : Notes V P) (i : ℕ) (call : Caller V P)
    (s : Store V M) : Prop where
  tx : TxOk s.db i call.tx
  point : (∃ e, call.pc = svc.thrown e) ∨ PointOk svc notes call

theorem exec_level {tx tx' : Tx V} {p : Progress V} (hser : tx.serializable = false)
    (hsnap : tx.snapshot = none) (hs : exec db i tx stmt = some (db', p)) (hstmt : stmt ≠ .commit)
    (hp : p = .running tx' ∨ ∃ reply, p = .replied tx' reply) :
    tx'.serializable = false ∧ tx'.snapshot = none := by
  obtain ⟨h₁, h₂⟩ := exec_snapshot hs hp hstmt
  rw [begin_readCommitted hser] at h₂
  exact ⟨h₁.trans hser, h₂.trans hsnap⟩

theorem running_update {tx tx' : Tx V} (hs : exec db i tx stmt = some (db', .running tx')) :
    ∃ cond data, stmt = .update cond data := by
  by_contra hno
  exact (exec_pending hs fun cond data he => hno ⟨cond, data, he⟩).1 tx' rfl

theorem PointOk.running (h : PointOk svc notes call) (hstmt : svc.stmt call.pc = some stmt)
    (hs : exec s.db i call.tx stmt = some (db, .running tx)) : PointOk svc notes ⟨call.pc, tx⟩ := by
  obtain ⟨cond, data, rfl⟩ := running_update hs
  obtain ⟨hser, hsnap⟩ := exec_level h.serializable h.snapshot hs (by simp) (.inl rfl)
  have hwrote := exec_logged (hstmt ▸ h.wrote) hs
  have hadvisory : tx.advisory = call.tx.advisory := exec_advisory hs (.inl rfl)
  exact ⟨hser, hsnap, hstmt ▸ hwrote, fun k hk => hadvisory ▸ h.locks k hk⟩

theorem PointOk.replied (hsvc : svc.Follows notes) (h : PointOk svc notes call) {reply : Reply V}
    {pc : P} {site : Site K} (hstmt : svc.stmt call.pc = some stmt) (hcommit : stmt ≠ .commit)
    (hs : exec s.db i call.tx stmt = some (db, .replied tx reply))
    (hnext : svc.next site call.pc reply = some (.ok pc)) : PointOk svc notes ⟨pc, tx⟩ := by
  obtain ⟨hser, hsnap⟩ := exec_level h.serializable h.snapshot hs hcommit (.inr ⟨reply, rfl⟩)
  obtain ⟨hpend, hlogged⟩ := (exec_logged (hstmt ▸ h.wrote) hs).logged hcommit
  refine ⟨hser, hsnap, .of_none hpend fun k => ?_, fun k hk => ?_⟩
  · refine (hlogged k).mono fun before after ⟨between, hR, he⟩ => ?_
    exact hsvc.wrote site call.pc stmt reply pc hstmt hcommit hnext k before between after hR he
  · have hadvisory := exec_advisory hs (.inr ⟨reply, rfl⟩)
    rcases hsvc.locks site call.pc stmt reply pc hstmt hcommit hnext k hk with hold | rfl
    · have hold := h.locks k hold
      cases stmt with
      | read | insert | update => exact hadvisory ▸ hold
      | lock k' => exact hadvisory ▸ List.mem_cons_of_mem _ hold
      | commit => exact absurd rfl hcommit
    · exact hadvisory ▸ List.mem_cons_self

theorem Service.Follows.not_thrown (hsvc : svc.Follows notes)
    (hstep : svc.step s i call c = some (s', call')) (e : ε) : call.pc ≠ svc.thrown e := by
  intro he
  obtain ⟨hstmt, hout⟩ := hsvc.thrown e
  unfold Service.step at hstep
  rw [he, hstmt] at hstep
  simp only [hout, Option.map_none, reduceCtorEq] at hstep

theorem CallOk.pointOk (hsvc : svc.Follows notes) (h : CallOk svc notes i call s)
    (hstep : svc.step s i call c = some (s', call')) : PointOk svc notes call :=
  h.point.resolve_left fun ⟨e, he⟩ => hsvc.not_thrown hstep e he

/-- **A step of a call leads from one annotation to the next.** -/
theorem CallOk.step (hsvc : svc.Follows notes) (h : CallOk svc notes i call s)
    (hdb : s.db.Listed) (hstep : svc.step s i call c = some (s', call')) :
    CallOk svc notes i call' s' := by
  refine ⟨(Service.step_txOk h.tx hdb hstep).2.2, ?_⟩
  have hok := h.pointOk hsvc hstep
  cases Service.step_advance h.tx hstep with
  | threw _ => exact .inl ⟨_, rfl⟩
  | running hstmt hs _ => exact .inr (hok.running hstmt hs)
  | replied hstmt hcommit hs hnext _ => exact .inr (hok.replied hsvc hstmt hcommit hs hnext)
  | committed hstmt _ _ _ _ hpc =>
    rcases hpc with he | ⟨hnext, rfl⟩
    · exact .inl he
    · obtain ⟨hwrote, hlocks⟩ := hsvc.commit _ _ _ _ hstmt hnext
      refine .inr ⟨hok.serializable, rfl, .of_none rfl fun k row => hwrote k row, fun k hk => ?_⟩
      rw [hlocks] at hk
      cases hk
  | outside hstmt hout =>
    obtain ⟨hpend, hlogged⟩ := hok.wrote.logged fun _ _ => by simp [hstmt]
    obtain ⟨hwrote, hlocks⟩ := hsvc.outside _ _ _ _ _ hstmt hout
    exact .inr ⟨hok.serializable, hok.snapshot,
      .of_none hpend fun k => (hlogged k).mono fun _ _ => hwrote k _ _,
      fun k hk => hok.locks k (hlocks k hk)⟩

def assertions (svc : Service V P A M E ε) (notes : Notes V P) :
    Assertions (Store V M) (Caller V P) where
  shared s := s.db.Listed
  proc := CallOk svc notes

/-- **Every call has what its program point says**, in every run. -/
theorem Service.Follows.outline (hsvc : svc.Follows notes)
    (good : ServiceWorld V P M → ServiceLabel A E ε → Prop) :
    Outline svc.program good (assertions svc notes) where
  init := hsvc.listed
  env w e s h _ hs := by
    cases e with
    | tick ms =>
      obtain rfl := some.inj hs
      exact ⟨h.shared, fun j q hq => ⟨(h.proc j q hq).tx, (h.proc j q hq).point⟩⟩
    | abort k =>
      obtain rfl := some.inj hs
      exact ⟨h.shared, fun j q hq => ⟨(h.proc j q hq).tx.abort, (h.proc j q hq).point⟩⟩
    | outside e =>
      obtain ⟨m, -, rfl⟩ := map_eq_some_iff.mp hs
      exact ⟨h.shared, fun j q hq => ⟨(h.proc j q hq).tx, (h.proc j q hq).point⟩⟩
  spawn w a s p h _ hs := by
    obtain ⟨rfl, rfl⟩ := pair_inj hs
    obtain ⟨hwrote, hlocks⟩ := hsvc.start w.shared.now a
    refine ⟨h.shared, ⟨txOk_fresh _ _ _, .inr ⟨rfl, rfl, .of_none rfl hwrote, fun k hk => ?_⟩⟩,
      fun j q hq => ⟨h.proc j q hq, trivial, trivial⟩⟩
    rw [hlocks] at hk
    cases hk
  step w i p c s p' h hp _ hs := by
    have hok := h.proc i p hp
    exact ⟨(Service.step_txOk hok.tx h.shared hs).2.1, hok.step hsvc h.shared hs⟩
  frame w i p c s p' h hp _ hs j q hj hq := by
    obtain ⟨hmoves, -, -⟩ := Service.step_txOk (h.proc i p hp).tx h.shared hs
    exact ⟨⟨(h.proc j q hq).tx.moves hmoves hj, (h.proc j q hq).point⟩, trivial, trivial⟩

/-! ### A proof rule -/

/-- What the calls share, without the locks. -/
structure View (V : K → Type*) (M : Type*) where
  rows : Rows V
  now : ℕ
  memory : M

def Store.view (s : Store V M) : View V M := ⟨s.db.rows, s.now, s.memory⟩

/-- What is claimed of the rows and the memory, and of each call; the flag says that the database has
rolled its transaction back. -/
structure Claims (V : K → Type*) (P M : Type*) where
  shared : View V M → Prop
  call : ℕ → Bool → Caller V P → View V M → Prop

/-- Every step of a call meets a condition. -/
def StepsMeet (meets : Store V M → ℕ → Caller V P → Choice ε → Prop) (w : ServiceWorld V P M) :
    ServiceLabel A E ε → Prop
  | .step i c => ∀ call ∈ w.proc? i, meets w.shared i call c
  | _ => True

instance (meets : Store V M → ℕ → Caller V P → Choice ε → Prop)
    [∀ s i call c, Decidable (meets s i call c)] (w : ServiceWorld V P M) :
    DecidablePred (StepsMeet meets w : ServiceLabel A E ε → Prop)
  | .step i _ => inferInstanceAs (Decidable (∀ call ∈ w.proc? i, _))
  | .spawn _ | .crash _ | .env _ => instDecidableTrue

variable {l : ServiceLabel A E ε}

theorem stepsMeet_true {w : ServiceWorld V P M} : StepsMeet (fun _ _ _ _ => True) w l := by
  cases l with
  | step i c => exact fun _ _ => trivial
  | _ => trivial

/-- Two transactions that the database has not rolled back have written different rows. -/
theorem CallOk.disjoint {callj : Caller V P} (hi : CallOk svc notes i call s)
    (hj : CallOk svc notes j callj s) (hij : j ≠ i) (hlive : s.db.aborted i = false)
    (hlivej : s.db.aborted j = false) {k : K} (hw : call.tx.writes k ≠ none) :
    callj.tx.writes k = none := by
  obtain ⟨c, hc⟩ := Option.ne_none_iff_exists'.mp hw
  cases hw' : callj.tx.writes k with
  | none => rfl
  | some c' =>
    have hlock := (hi.tx.rows hlive k c hc).1
    rw [(hj.tx.rows hlivej k c' hw').1] at hlock
    exact absurd (some.inj hlock) hij

/-- Two transactions that the database has not rolled back have different locks. -/
theorem PointOk.excludes {callj : Caller V P} (hi : PointOk svc notes call)
    (hti : TxOk s.db i call.tx) (hj : PointOk svc notes callj) (htj : TxOk s.db j callj.tx)
    (hij : j ≠ i) (hlive : s.db.aborted i = false) (hlivej : s.db.aborted j = false) {k : K}
    (hk : k ∈ notes.locks call.pc) : k ∉ notes.locks callj.pc := by
  intro hk'
  have hlock := hti.advisory hlive k (hi.locks k hk)
  rw [htj.advisory hlivej k (hj.locks k hk')] at hlock
  exact hij (some.inj hlock)

/-- What holds when a call takes a step. -/
structure Claims.At (a : Claims V P M) (svc : Service V P A M E ε) (notes : Notes V P)
    (s : Store V M) (i : ℕ) (call : Caller V P) : Prop where
  listed : s.db.Listed
  shared : a.shared s.view
  tx : TxOk s.db i call.tx
  point : PointOk svc notes call
  call : a.call i (s.db.aborted i) call s.view

theorem Claims.At.ok {a : Claims V P M} (h : a.At svc notes s i call) : CallOk svc notes i call s :=
  ⟨h.tx, .inr h.point⟩

/-- A query finds the committed row, if the call has not written it. -/
theorem Claims.At.found_at {a : Claims V P M} (h : a.At svc notes s i call)
    (hlive : s.db.aborted i = false) (hstmt : svc.stmt call.pc = some .read) {k : K}
    (hw : ∀ before after, notes.wrote call.pc k before after → after = before) {rows : Rows V}
    (hs : exec s.db i call.tx .read = some (db, .replied tx (.rows rows))) :
    rows k = s.db.rows k := by
  have hlogged := (h.point.wrote.logged fun _ _ => by simp [hstmt]).2
  have hreply := exec_read h.point.serializable hs rfl
  rw [Reply.rows.inj hreply]
  exact hlogged.view_at h.tx hlive h.point.snapshot hw

/-- A query of a call that has written nothing finds the committed rows. -/
theorem Claims.At.found {a : Claims V P M} (h : a.At svc notes s i call)
    (hlive : s.db.aborted i = false) (hstmt : svc.stmt call.pc = some .read)
    (hw : ∀ k before after, notes.wrote call.pc k before after → after = before) {rows : Rows V}
    (hs : exec s.db i call.tx .read = some (db, .replied tx (.rows rows))) : rows = s.db.rows :=
  funext fun k => h.found_at hlive hstmt (hw k) hs

/-- What the surroundings, the steps of a call and its commits keep. New calls have the numbers from
`first` on. -/
structure Preserved (svc : Service V P A M E ε) (notes : Notes V P)
    (meets : Store V M → ℕ → Caller V P → Choice ε → Prop) (a : Claims V P M) (first : ℕ) :
    Prop where
  tick : ∀ (v : View V M) ms, (a.shared v → a.shared { v with now := v.now + ms }) ∧
    ∀ i b call, a.call i b call v → a.call i b call { v with now := v.now + ms }
  abort : ∀ i call (v : View V M), a.call i false call v → a.call i true call v
  event : ∀ (v : View V M) e m, svc.event v.memory e = some m →
    (a.shared v → a.shared { v with memory := m }) ∧
      ∀ i b call, a.call i b call v → a.call i b call { v with memory := m }
  start : ∀ i b (v : View V M) x, first ≤ i → a.shared v → a.call i b ⟨svc.start v.now x, {}⟩ v
  thrown : ∀ i b e tx (v : View V M), a.call i b ⟨svc.thrown e, tx⟩ v
  running : ∀ s i call c cond data db tx, a.At svc notes s i call → meets s i call c →
    svc.stmt call.pc = some (.update cond data) →
    exec s.db i call.tx (.update cond data) = some (db, .running tx) → s.db.aborted i = false →
    a.call i false ⟨call.pc, tx⟩ s.view
  replied : ∀ s i call c stmt db tx reply pc, a.At svc notes s i call → meets s i call c →
    svc.stmt call.pc = some stmt → stmt ≠ .commit →
    exec s.db i call.tx stmt = some (db, .replied tx reply) → s.db.aborted i = false →
    svc.next (s.site c) call.pc reply = some (.ok pc) → a.call i false ⟨pc, tx⟩ s.view
  outside : ∀ s i call c m pc, a.At svc notes s i call → meets s i call c →
    svc.stmt call.pc = none → svc.outside (s.site c) s.memory call.pc = some (m, pc) →
    a.shared { s.view with memory := m } ∧
      a.call i (s.db.aborted i) { call with pc := pc } { s.view with memory := m } ∧
      ∀ j callj, j ≠ i → CallOk svc notes j callj s → a.call j (s.db.aborted j) callj s.view →
        a.call j (s.db.aborted j) callj { s.view with memory := m }
  /-- A commit changes each row by the entry of its transaction. -/
  commit : ∀ s i call c (rows : Rows V), a.At svc notes s i call → meets s i call c →
    svc.stmt call.pc = some .commit → commits s.db i .commit c.fate = true →
    rows = call.tx.writes.read s.db.rows →
    (∀ k, notes.wrote call.pc k (s.db.rows k) (rows k)) →
    a.shared ⟨rows, s.now, svc.record call.pc rows s.memory⟩ ∧
      (∀ pc, svc.next (s.site c) call.pc .done = some (.ok pc) →
        a.call i false ⟨pc, {}⟩ ⟨rows, s.now, svc.record call.pc rows s.memory⟩) ∧
      ∀ j callj, j ≠ i → CallOk svc notes j callj s → a.call j (s.db.aborted j) callj s.view →
        a.call j (s.db.aborted j) callj ⟨rows, s.now, svc.record call.pc rows s.memory⟩

/-- The obligations of the rule. -/
structure Invariant (svc : Service V P A M E ε) (notes : Notes V P)
    (meets : Store V M → ℕ → Caller V P → Choice ε → Prop) (a : Claims V P M) : Prop
    extends Preserved svc notes meets a 0 where
  init : a.shared ⟨svc.rows, 0, svc.memory⟩

/-- The claims together with what every call has. -/
def Claims.assertions (a : Claims V P M) (svc : Service V P A M E ε) (notes : Notes V P) :
    Assertions (Store V M) (Caller V P) where
  shared s := s.db.Listed ∧ a.shared s.view
  proc i call s := CallOk svc notes i call s ∧ a.call i (s.db.aborted i) call s.view

section Rule

variable {meets : Store V M → ℕ → Caller V P → Choice ε → Prop} {a : Claims V P M} {first : ℕ}

theorem step_aborted (htx : TxOk s.db i call.tx) (hdb : s.db.Listed)
    (h : svc.step s i call c = some (s', call')) : s'.db.aborted = s.db.aborted :=
  (Service.step_txOk htx hdb h).1.aborted

theorem Preserved.advance (inv : Preserved svc notes meets a first) (hat : a.At svc notes s i call)
    (hm : meets s i call c) (hstep : svc.step s i call c = some (s', call')) :
    a.shared s'.view ∧ a.call i (s'.db.aborted i) call' s'.view ∧
      ∀ j callj, j ≠ i → CallOk svc notes j callj s → a.call j (s.db.aborted j) callj s.view →
        a.call j (s'.db.aborted j) callj s'.view := by
  have haborted := step_aborted hat.tx hat.listed hstep
  have hsame {db : Db V} (hrows : db.rows = s.db.rows) : ({ s with db := db } : Store V M).view =
      s.view := by
    unfold Store.view
    rw [hrows]
  rw [haborted]
  cases Service.step_advance hat.tx hstep with
  | threw hrows =>
    rw [hsame hrows]
    exact ⟨hat.shared, inv.thrown _ _ _ _ _, fun j callj _ _ h => h⟩
  | running hstmt hs hrows =>
    obtain ⟨cond, data, rfl⟩ := running_update hs
    have hlive := exec_live hs (.inl rfl)
    rw [hsame hrows, hlive]
    exact ⟨hat.shared, inv.running s i call c cond data _ _ hat hm hstmt hs hlive,
      fun j callj _ _ h => h⟩
  | replied hstmt hcommit hs hnext hrows =>
    have hlive := exec_live hs (.inr ⟨_, rfl⟩)
    rw [hsame hrows, hlive]
    exact ⟨hat.shared, inv.replied s i call c _ _ _ _ _ hat hm hstmt hcommit hs hlive hnext,
      fun j callj _ _ h => h⟩
  | @committed db tx pc hstmt hlive hc hrows hfits hpc =>
    obtain ⟨-, hlogged⟩ := hat.point.wrote.logged fun _ _ => by simp [hstmt]
    obtain ⟨hshared, hcall, hothers⟩ := inv.commit s i call c db.rows hat hm hstmt hc hrows
      (hlogged.rows hfits hrows)
    refine ⟨hshared, ?_, hothers⟩
    rcases hpc with ⟨e, rfl⟩ | ⟨hnext, rfl⟩
    · exact inv.thrown _ _ _ _ _
    · rw [hlive, hat.point.serializable]
      exact hcall pc hnext
  | outside hstmt hout =>
    obtain ⟨hshared, hcall, hothers⟩ := inv.outside s i call c _ _ hat hm hstmt hout
    exact ⟨hshared, hcall, hothers⟩

theorem Preserved.keeps (hsvc : svc.Follows notes) (inv : Preserved svc notes meets a first) :
    Keeps svc.program (fun w l => StepsMeet meets w l ∧ first ≤ w.fresh)
      (a.assertions svc notes) where
  env w e s h _ hs := by
    cases e with
    | tick ms =>
      obtain rfl := some.inj hs
      obtain ⟨hshared, hcall⟩ := inv.tick w.shared.view ms
      refine ⟨⟨h.shared.1, hshared h.shared.2⟩, fun j q hq => ?_⟩
      obtain ⟨hok, hc⟩ := h.proc j q hq
      exact ⟨⟨hok.tx, hok.point⟩, hcall j _ q hc⟩
    | abort k =>
      obtain rfl := some.inj hs
      refine ⟨h.shared, fun j q hq => ?_⟩
      obtain ⟨hok, hc⟩ := h.proc j q hq
      refine ⟨⟨hok.tx.abort, hok.point⟩, ?_⟩
      change a.call j (Function.update w.shared.db.aborted k true j) q w.shared.view
      by_cases hj : j = k
      · subst hj
        rw [Function.update_self]
        cases hb : w.shared.db.aborted j with
        | true => exact hb ▸ hc
        | false => exact inv.abort j q _ (hb ▸ hc)
      · rwa [Function.update_of_ne hj]
    | outside e =>
      obtain ⟨m, hm, rfl⟩ := map_eq_some_iff.mp hs
      obtain ⟨hshared, hcall⟩ := inv.event w.shared.view e m hm
      refine ⟨⟨h.shared.1, hshared h.shared.2⟩, fun j q hq => ?_⟩
      obtain ⟨hok, hc⟩ := h.proc j q hq
      exact ⟨⟨hok.tx, hok.point⟩, hcall j _ q hc⟩
  spawn w x s p h hg hs := by
    have hbase := (hsvc.outline (fun _ _ => True)).spawn w x s p
      ⟨h.shared.1, fun j q hq => (h.proc j q hq).1, fun _ _ _ _ _ _ _ => trivial⟩ trivial hs
    obtain ⟨rfl, rfl⟩ := pair_inj hs
    exact ⟨h.shared, ⟨hbase.2.1, inv.start _ _ w.shared.view x hg.2 h.shared.2⟩,
      fun j q hq => ⟨h.proc j q hq, trivial, trivial⟩⟩
  step w i p c s p' h hp hg hs := by
    obtain ⟨hok, hc⟩ := h.proc i p hp
    have hat : a.At svc notes w.shared i p :=
      ⟨h.shared.1, h.shared.2, hok.tx, hok.pointOk hsvc hs, hc⟩
    obtain ⟨hshared, hcall, -⟩ := inv.advance hat (hg.1 p hp) hs
    exact ⟨⟨(Service.step_txOk hok.tx h.shared.1 hs).2.1, hshared⟩,
      hok.step hsvc h.shared.1 hs, hcall⟩
  frame w i p c s p' h hp hg hs j q hj hq := by
    obtain ⟨hok, hc⟩ := h.proc i p hp
    have hat : a.At svc notes w.shared i p :=
      ⟨h.shared.1, h.shared.2, hok.tx, hok.pointOk hsvc hs, hc⟩
    obtain ⟨-, -, hothers⟩ := inv.advance hat (hg.1 p hp) hs
    obtain ⟨hmoves, -, -⟩ := Service.step_txOk hok.tx h.shared.1 hs
    obtain ⟨hokj, hcj⟩ := h.proc j q hq
    exact ⟨⟨⟨hokj.tx.moves hmoves hj, hokj.point⟩, hothers j q hj hokj hcj⟩, trivial, trivial⟩

/-- The claims hold in a world. -/
def Claims.Holds (a : Claims V P M) (w : ServiceWorld V P M) : Prop :=
  a.shared w.shared.view ∧
    ∀ i call, w.proc? i = some call → a.call i (w.shared.db.aborted i) call w.shared.view

theorem Claims.Holds.of_assertions {w : ServiceWorld V P M}
    (h : (a.assertions svc notes).Holds w) : a.Holds w :=
  ⟨h.shared.2, fun i call hp => (h.proc i call hp).2⟩

/-- **The proof rule**: the claims hold in every run whose steps meet the condition. -/
theorem Invariant.holds (hsvc : svc.Follows notes) (inv : Invariant svc notes meets a)
    {w : ServiceWorld V P M} (h : ReachableBy svc.program.system (StepsMeet meets) w) :
    a.Holds w := by
  have houtline : Outline svc.program (fun w l => StepsMeet meets w l ∧ 0 ≤ w.fresh)
      (a.assertions svc notes) :=
    ⟨inv.toPreserved.keeps hsvc, ⟨hsvc.listed, inv.init⟩⟩
  exact .of_assertions (houtline.holds (h.mono fun _ _ hg => ⟨hg, Nat.zero_le _⟩))

/-- **The proof rule**, for a run that goes on from a world in which the claims hold. -/
theorem Preserved.path (hsvc : svc.Follows notes) {w w' : ServiceWorld V P M}
    (inv : Preserved svc notes meets a w.fresh) (h : Reachable svc.program.system w)
    (hw : a.Holds w) (p : Path svc.program.system (StepsMeet meets) w w') : a.Holds w' := by
  have hbase := (hsvc.outline anyStep).holds h
  have hstart : (a.assertions svc notes).Holds w :=
    ⟨⟨hbase.shared, hw.1⟩, fun i call hp => ⟨hbase.proc i call hp, hw.2 i call hp⟩,
      fun _ _ _ _ _ _ _ => trivial⟩
  exact .of_assertions ((inv.keeps hsvc).path hstart (path_fresh p).2)

theorem Preserved.of_rows {Q : Rows V → Prop}
    (hcommit : ∀ pc rows rows', svc.stmt pc = some .commit →
      (∀ k, notes.wrote pc k (rows k) (rows' k)) → Q rows → Q rows') :
    Preserved svc notes meets ⟨fun v => Q v.rows, fun _ _ _ _ => True⟩ first where
  tick _ _ := ⟨fun h => h, fun _ _ _ _ => trivial⟩
  abort _ _ _ _ := trivial
  event _ _ _ _ := ⟨fun h => h, fun _ _ _ _ => trivial⟩
  start _ _ _ _ _ _ := trivial
  thrown _ _ _ _ _ := trivial
  running _ _ _ _ _ _ _ _ _ _ _ _ _ := trivial
  replied _ _ _ _ _ _ _ _ _ _ _ _ _ _ _ _ := trivial
  outside _ _ _ _ _ _ hat _ _ _ := ⟨hat.shared, trivial, fun _ _ _ _ _ => trivial⟩
  commit _ _ _ _ _ hat _ hstmt _ _ hwrote :=
    ⟨hcommit _ _ _ hstmt hwrote hat.shared, fun _ _ => trivial, fun _ _ _ _ _ => trivial⟩

theorem Preserved.of_points {Q : ℕ → P → Prop}
    (hstart : ∀ i now x, first ≤ i → Q i (svc.start now x)) (hthrown : ∀ i e, Q i (svc.thrown e))
    (hnext : ∀ i site pc reply pc', svc.next site pc reply = some (.ok pc') → Q i pc → Q i pc')
    (houtside : ∀ i site m pc m' pc', svc.outside site m pc = some (m', pc') → Q i pc → Q i pc') :
    Preserved svc notes meets ⟨fun _ => True, fun i _ call _ => Q i call.pc⟩ first where
  tick _ _ := ⟨fun h => h, fun _ _ _ h => h⟩
  abort _ _ _ h := h
  event _ _ _ _ := ⟨fun h => h, fun _ _ _ h => h⟩
  start i _ v x hi _ := hstart i v.now x hi
  thrown i _ e _ _ := hthrown i e
  running _ _ _ _ _ _ _ _ hat _ _ _ _ := hat.call
  replied _ _ _ _ _ _ _ _ _ hat _ _ _ _ _ hn := hnext _ _ _ _ _ hn hat.call
  outside _ _ _ _ _ _ hat _ _ hout :=
    ⟨trivial, houtside _ _ _ _ _ _ hout hat.call, fun _ _ _ _ h => h⟩
  commit _ _ _ _ _ hat _ _ _ _ _ :=
    ⟨trivial, fun _ hn => hnext _ _ _ _ _ hn hat.call, fun _ _ _ _ h => h⟩

end Rule

/-! ### Steps of a run -/

/-- The step of a call that changes the rows: the database executes its commit. -/
structure Service.Commits (svc : Service V P A M E ε) (notes : Notes V P) (w w' : ServiceWorld V P M)
    (i : ℕ) (c : Choice ε) (call : Caller V P) : Prop where
  proc : w.proc? i = some call
  stmt : svc.stmt call.pc = some .commit
  executed : commits w.shared.db i .commit c.fate = true
  rows : w'.shared.db.rows = call.tx.writes.read w.shared.db.rows
  wrote : ∀ k, notes.wrote call.pc k (w.shared.db.rows k) (w'.shared.db.rows k)

variable {w w' : ServiceWorld V P M}

/-- **Only a commit changes the rows.** -/
theorem Service.Follows.rows_of_next (hsvc : svc.Follows notes)
    (h : Reachable svc.program.system w) (hn : svc.program.next w l = some w') :
    w'.shared.db.rows = w.shared.db.rows ∨
      ∃ i c call, l = .step i c ∧ svc.Commits notes w w' i c call := by
  have hbase := (hsvc.outline anyStep).holds h
  cases Program.move_of_next hn with
  | spawn hs =>
    obtain ⟨rfl, -⟩ := pair_inj hs
    exact .inl rfl
  | crash _ => exact .inl rfl
  | @env e s hs =>
    cases e with
    | tick ms =>
      obtain rfl := some.inj hs
      exact .inl rfl
    | abort k =>
      obtain rfl := some.inj hs
      exact .inl rfl
    | outside e =>
      obtain ⟨m, -, rfl⟩ := map_eq_some_iff.mp hs
      exact .inl rfl
  | @step i c call call' s hp hs =>
    have hok := hbase.proc i call hp
    cases Service.step_advance hok.tx hs with
    | threw hrows => exact .inl hrows
    | running _ _ hrows => exact .inl hrows
    | replied _ _ _ _ hrows => exact .inl hrows
    | outside _ _ => exact .inl rfl
    | committed hstmt hlive hc hrows hfits hpc =>
      obtain ⟨-, hlogged⟩ := (hok.pointOk hsvc hs).wrote.logged fun _ _ => by simp [hstmt]
      exact .inr ⟨i, c, call, rfl, hp, hstmt, hc, hrows, hlogged.rows hfits hrows⟩

theorem Service.Follows.commits (hsvc : svc.Follows notes) (h : Reachable svc.program.system w)
    (hp : w.proc? i = some call) (hstmt : svc.stmt call.pc = some .commit)
    (hexecuted : commits w.shared.db i .commit c.fate = true)
    (hn : svc.program.next w (.step i c) = some w') : svc.Commits notes w w' i c call := by
  have hok := ((hsvc.outline anyStep).holds h).proc i call hp
  cases Program.move_of_next hn with
  | @step _ _ call₁ call' s hp' hs =>
    obtain rfl := some.inj (hp.symm.trans hp')
    obtain ⟨-, hlogged⟩ := (hok.pointOk hsvc hs).wrote.logged fun _ _ => by simp [hstmt]
    change svc.step w.shared i call c = some (s, call') at hs
    unfold Service.step at hs
    rw [hstmt] at hs
    obtain ⟨⟨db, call₁⟩, hcall, he⟩ := map_eq_some_iff.mp hs
    obtain ⟨rfl, rfl⟩ := Prod.mk.inj he
    obtain ⟨hrows, hfits, -⟩ := Caller.step_commits hok.tx hexecuted hcall
    exact ⟨hp, hstmt, hexecuted, hrows, hlogged.rows hfits hrows⟩

theorem Service.Commits.memory (h : svc.Commits notes w w' i c call)
    (hn : svc.program.next w (.step i c) = some w') :
    w'.shared.memory = svc.record call.pc w'.shared.db.rows w.shared.memory := by
  cases Program.move_of_next hn with
  | @step _ _ call₁ call' s hp hs =>
    obtain rfl := some.inj (h.proc.symm.trans hp)
    change svc.step w.shared i call c = some (s, call') at hs
    unfold Service.step at hs
    rw [h.stmt] at hs
    obtain ⟨⟨db, call₁⟩, -, he⟩ := map_eq_some_iff.mp hs
    obtain ⟨rfl, rfl⟩ := Prod.mk.inj he
    simp only [h.executed, if_true]
    rfl

/-- All calls change what they share by commits. -/
structure Service.Quiet (svc : Service V P A M E ε) : Prop where
  outside : ∀ site m pc, svc.outside site m pc = none
  event : ∀ m e, svc.event m e = none

/-- **Only a commit changes the rows or the memory.** -/
theorem Service.Follows.shared_of_next (hsvc : svc.Follows notes) (hquiet : svc.Quiet)
    (h : Reachable svc.program.system w) (hn : svc.program.next w l = some w') :
    (w'.shared.db.rows = w.shared.db.rows ∧ w'.shared.memory = w.shared.memory) ∨
      ∃ i c call, l = .step i c ∧ svc.Commits notes w w' i c call ∧
        w'.shared.memory = svc.record call.pc w'.shared.db.rows w.shared.memory := by
  have hbase := (hsvc.outline anyStep).holds h
  cases Program.move_of_next hn with
  | spawn hs =>
    obtain ⟨rfl, -⟩ := pair_inj hs
    exact .inl ⟨rfl, rfl⟩
  | crash _ => exact .inl ⟨rfl, rfl⟩
  | @env e s hs =>
    cases e with
    | tick ms =>
      obtain rfl := some.inj hs
      exact .inl ⟨rfl, rfl⟩
    | abort k =>
      obtain rfl := some.inj hs
      exact .inl ⟨rfl, rfl⟩
    | outside e =>
      obtain ⟨m, hm, -⟩ := map_eq_some_iff.mp hs
      rw [hquiet.event] at hm
      cases hm
  | @step i c call call' s hp hs =>
    have hok := hbase.proc i call hp
    cases Service.step_advance hok.tx hs with
    | threw hrows => exact .inl ⟨hrows, rfl⟩
    | running _ _ hrows => exact .inl ⟨hrows, rfl⟩
    | replied _ _ _ _ hrows => exact .inl ⟨hrows, rfl⟩
    | outside _ hout =>
      rw [hquiet.outside] at hout
      cases hout
    | committed hstmt hlive hc hrows hfits hpc =>
      obtain ⟨-, hlogged⟩ := (hok.pointOk hsvc hs).wrote.logged fun _ _ => by simp [hstmt]
      exact .inr ⟨i, c, call, rfl, ⟨hp, hstmt, hc, hrows, hlogged.rows hfits hrows⟩, rfl⟩

/-- The step is a commit that is executed, of such a call. -/
def CommitsAt (bad : Store V M → Caller V P → Prop) (w : ServiceWorld V P M) :
    ServiceLabel A E ε → Prop
  | .step i c => commits w.shared.db i .commit c.fate = true ∧
    ∃ call, w.proc? i = some call ∧ bad w.shared call
  | _ => False

instance (bad : Store V M → Caller V P → Prop) [∀ s call, Decidable (bad s call)]
    (w : ServiceWorld V P M) : (l : ServiceLabel A E ε) → Decidable (CommitsAt bad w l)
  | .step i c =>
    decidable_of_iff (commits w.shared.db i .commit c.fate = true ∧
        (w.proc? i).any (fun call => decide (bad w.shared call)) = true)
      (by simp only [CommitsAt, Option.any_eq_true, decide_eq_true_eq])
  | .spawn _ | .crash _ | .env _ => instDecidableFalse

/-- **What a step keeps**, if only commits can break it: a step breaks it exactly if it is a bad
commit. -/
theorem Service.Follows.kept_iff (hsvc : svc.Follows notes) {Q : ServiceWorld V P M → Prop}
    (bad : Store V M → Caller V P → Prop) (h : Reachable svc.program.system w)
    (hn : svc.program.next w l = some w')
    (hstmt : ∀ call, bad w.shared call → svc.stmt call.pc = some .commit)
    (hkept : Q w' ∨ ∃ i c call, l = .step i c ∧ svc.Commits notes w w' i c call)
    (hcommits : ∀ i c call, l = .step i c → svc.Commits notes w w' i c call →
      (Q w' ↔ ¬ bad w.shared call)) : Q w' ↔ ¬ CommitsAt bad w l := by
  constructor
  · intro hw' hbad
    cases l with
    | step i c =>
      obtain ⟨hexecuted, call, hp, hcall⟩ := hbad
      have hcommit := hsvc.commits h hp (hstmt call hcall) hexecuted hn
      exact (hcommits i c call rfl hcommit).mp hw' hcall
    | _ => cases hbad
  · intro hno
    rcases hkept with hw' | ⟨i, c, call, rfl, hcommit⟩
    · exact hw'
    · refine (hcommits i c call rfl hcommit).mpr fun hcall => ?_
      exact hno ⟨hcommit.executed, call, hcommit.proc, hcall⟩

/-- A commit that is executed, and whose reply is not lost, goes on where the program says. -/
theorem Service.Commits.replied {pc : P} (h : svc.Commits notes w w' i c call)
    (hlost : ∀ e, c.fate ≠ .lost e) (hn : svc.program.next w (.step i c) = some w')
    (hnext : svc.next (w.shared.site c) call.pc .done = some (.ok pc)) :
    ∃ call', w'.proc? i = some call' ∧ call'.pc = pc := by
  have hlive := (thrown_of_commits h.executed).2
  have hfate : c.fate = .executed := by
    cases hf : c.fate with
    | executed => rfl
    | fails e =>
      have hexecuted := h.executed
      rw [hf] at hexecuted
      cases hexecuted
    | lost e => exact absurd hf (hlost e)
  cases Program.move_of_next hn with
  | @step _ _ call₁ call' s hp hs =>
    obtain rfl := some.inj (h.proc.symm.trans hp)
    refine ⟨call', World.proc?_put_self hp, ?_⟩
    change svc.step w.shared i call c = some (s, call') at hs
    unfold Service.step at hs
    rw [h.stmt] at hs
    obtain ⟨⟨db, call₁⟩, hcall, he⟩ := map_eq_some_iff.mp hs
    obtain ⟨rfl, rfl⟩ := Prod.mk.inj he
    unfold Caller.step at hcall
    rw [hfate] at hcall
    dsimp only at hcall
    split at hcall
    · cases hcall
    · next hx => rcases exec_commit_cases hx with ⟨-, hp⟩ | ⟨-, -, hp⟩ <;> cases hp
    · next hx =>
      rcases exec_commit_cases hx with ⟨-, hp⟩ | ⟨-, -, hp⟩
      · cases hp
      obtain ⟨rfl, rfl⟩ := Progress.replied.inj hp
      rw [hnext] at hcall
      obtain ⟨-, rfl⟩ := pair_inj hcall
      rfl
    · next hx =>
      rcases exec_commit_cases hx with ⟨hdead, -⟩ | ⟨-, -, hp⟩
      · rw [hlive] at hdead
        cases hdead
      · cases hp
    · next hx =>
      rcases exec_commit_cases hx with ⟨hdead, -⟩ | ⟨-, -, hp⟩
      · rw [hlive] at hdead
        cases hdead
      · cases hp

/-- **A call that has stopped** stays as it is. -/
theorem Service.stays {good : ServiceWorld V P M → ServiceLabel A E ε → Prop}
    (hp : w.proc? i = some call) (hstmt : svc.stmt call.pc = none)
    (hout : ∀ site m, svc.outside site m call.pc = none) (p : Path svc.program.system good w w') :
    ∀ call', w'.proc? i = some call' → call' = call := by
  have hstay : i < w'.fresh ∧ ∀ call', w'.proc? i = some call' → call' = call := by
    induction p with
    | refl => exact ⟨World.lt_fresh hp, fun call' hp' => some.inj (hp'.symm.trans hp)⟩
    | step _ _ hn ih =>
      obtain ⟨hi, ih⟩ := ih
      refine ⟨Nat.lt_of_lt_of_le hi (fresh_le_of_next hn), fun call' hp' => ?_⟩
      cases Program.move_of_next hn with
      | spawn _ =>
        rcases World.proc?_add_cases hp' with ⟨he, -⟩ | ⟨-, hp'⟩
        · omega
        · exact ih call' hp'
      | crash _ => exact ih call' (World.proc?_kill_cases hp').2
      | env _ => exact ih call' hp'
      | @step j c call₁ call₂ s hj hs =>
        rcases World.proc?_put_cases hj hp' with ⟨rfl, rfl⟩ | ⟨-, hp'⟩
        · obtain rfl := ih call₁ hj
          change svc.step _ i call₁ c = some (s, call') at hs
          unfold Service.step at hs
          rw [hstmt] at hs
          simp only [hout, Option.map_none, reduceCtorEq] at hs
        · exact ih call' hp'
  exact hstay.2

end BackendFoundation.Lib.Services
