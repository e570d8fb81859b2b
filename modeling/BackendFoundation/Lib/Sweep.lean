import BackendFoundation.Lib.Services

/-! # Updates that take every row

A transaction may rest on an update that takes every row which meets a condition, and on no such row
coming back before its commit. `Clearing` has the program points at which a call clears a condition or
has cleared it, with what its statements have to do. `ClearedAt` is then a claim on the call: its own
steps keep it, and so does the commit of another one that brings no such row. -/

set_option linter.unusedSectionVars false

namespace BackendFoundation.Lib.Sweep

open Lib.Database Lib.Transact Lib.WriteLog Lib.Services

variable {K : Type*} [DecidableEq K] {V : K → Type*} [∀ k, DecidableEq (V k)] {P A M E ε : Type*}

/-- `clears i pc done cond`: at `pc` the call `i` clears the condition, or has done so. -/
structure Clearing (svc : Service V P A M E ε)
    (clears : ℕ → P → Bool → (∀ k, V k → Bool) → Prop) : Prop where
  start : ∀ i now x done cond, ¬ clears i (svc.start now x) done cond
  thrown : ∀ i e done cond, ¬ clears i (svc.thrown e) done cond
  outside : ∀ i site m pc m' pc' done cond, svc.outside site m pc = some (m', pc') →
    ¬ clears i pc' done cond
  commit : ∀ i site pc reply pc' done cond, svc.stmt pc = some .commit →
    svc.next site pc reply = some (.ok pc') → ¬ clears i pc' done cond
  updates : ∀ i pc cond, clears i pc false cond → ∃ cond' data,
    svc.stmt pc = some (.update cond' data) ∧ (∀ k v, cond k v = true → cond' k v = true) ∧
      ∀ k v w, data k v = some w → cond k w = false
  leaves : ∀ i pc cond stmt, clears i pc true cond → svc.stmt pc = some stmt → Leaves stmt cond
  next : ∀ i site pc reply pc' done cond, svc.next site pc reply = some (.ok pc') →
    clears i pc' done cond → done = false ∨ ∃ done', clears i pc done' cond

variable {svc : Service V P A M E ε} {notes : Notes V P}
  {clears : ℕ → P → Bool → (∀ k, V k → Bool) → Prop}

/-- What a call has cleared at its program point. -/
def ClearedAt (clears : ℕ → P → Bool → (∀ k, V k → Bool) → Prop) (i : ℕ) (aborted : Bool)
    (call : Caller V P) (rows : Rows V) : Prop :=
  aborted = false → ∀ done cond, clears i call.pc done cond →
    (done = false → call.tx.pending ≠ none → Seen rows call.tx cond) ∧
      (done = true → Cleared rows call.tx cond)

variable {s : Store V M} {i : ℕ} {b : Bool} {call : Caller V P} {stmt : Stmt V} {db : Db V}
  {tx : Tx V} {reply : Reply V} {pc : P} {site : Site K} {rows rows' : Rows V} {a : Claims V P M}

theorem clearedAt_of_not (h : ∀ done cond, ¬ clears i call.pc done cond) :
    ClearedAt clears i b call rows :=
  fun _ done cond hc => absurd hc (h done cond)

theorem ClearedAt.aborted : ClearedAt clears i true call rows := nofun

theorem ClearedAt.mono (h : ClearedAt clears i b call rows)
    (hbrings : b = false → ∀ done cond, clears i call.pc done cond →
      Brings rows rows' call.tx cond) : ClearedAt clears i b call rows' := by
  intro hb done cond hc
  obtain ⟨hseen, hcleared⟩ := h hb done cond hc
  have hrows := hbrings hb done cond hc
  exact ⟨fun hdone hpend => (hseen hdone hpend).mono hrows,
    fun hdone => (hcleared hdone).mono hrows⟩

theorem Clearing.step (h : Clearing svc clears) (hat : a.At svc notes s i call)
    (hcall : ClearedAt clears i (s.db.aborted i) call s.db.rows) (hlive : s.db.aborted i = false)
    {done : Bool} {cond : ∀ k, V k → Bool} (hc : clears i call.pc done cond)
    (hstmt : svc.stmt call.pc = some stmt) (hcommit : stmt ≠ .commit) {p : Progress V}
    (hs : exec s.db i call.tx stmt = some (db, p)) :
    (∀ tx, p = .running tx → (done = false → Seen s.db.rows tx cond) ∧
      (done = true → Cleared s.db.rows tx cond)) ∧
      ∀ tx reply, p = .replied tx reply → Cleared s.db.rows tx cond := by
  obtain ⟨hseen, hcleared⟩ := hcall hlive done cond hc
  cases done with
  | false =>
    obtain ⟨cond', data, hupdate, himp, hfalse⟩ := h.updates i call.pc cond hc
    obtain rfl := Option.some.inj (hupdate.symm.trans hstmt)
    obtain ⟨hrun, hreply⟩ := exec_seen hat.tx hat.listed hat.point.serializable
      hat.point.snapshot himp hfalse (hseen rfl) hs
    exact ⟨fun tx hp => ⟨fun _ => hrun tx hp, fun hd => (by cases hd)⟩, hreply⟩
  | true =>
    have hkeep {tx : Tx V} (hp : p = .running tx ∨ ∃ reply, p = .replied tx reply) :
        Cleared s.db.rows tx cond :=
      exec_cleared (hcleared rfl) hcommit (h.leaves i call.pc cond stmt hc hstmt) hs hp
    exact ⟨fun tx hp => ⟨fun hd => (by cases hd), fun _ => hkeep (.inl hp)⟩,
      fun tx reply hp => hkeep (.inr ⟨reply, hp⟩)⟩

theorem Clearing.running (h : Clearing svc clears) (hat : a.At svc notes s i call)
    (hcall : ClearedAt clears i (s.db.aborted i) call s.db.rows) (hlive : s.db.aborted i = false)
    (hstmt : svc.stmt call.pc = some stmt) (hcommit : stmt ≠ .commit)
    (hs : exec s.db i call.tx stmt = some (db, .running tx)) :
    ClearedAt clears i false ⟨call.pc, tx⟩ s.db.rows := by
  intro _ done cond hc
  obtain ⟨hseen, hcleared⟩ := (h.step hat hcall hlive hc hstmt hcommit hs).1 tx rfl
  exact ⟨fun hdone _ => hseen hdone, hcleared⟩

theorem Clearing.replied (h : Clearing svc clears) (hat : a.At svc notes s i call)
    (hcall : ClearedAt clears i (s.db.aborted i) call s.db.rows) (hlive : s.db.aborted i = false)
    (hstmt : svc.stmt call.pc = some stmt) (hcommit : stmt ≠ .commit)
    (hs : exec s.db i call.tx stmt = some (db, .replied tx reply))
    (hnext : svc.next site call.pc reply = some (.ok pc)) :
    ClearedAt clears i false ⟨pc, tx⟩ s.db.rows := by
  intro _ done cond hc
  have hpend := ((exec_logged (hstmt ▸ hat.point.wrote) hs).logged hcommit).1
  refine ⟨fun _ hno => absurd hpend hno, fun hdone => ?_⟩
  rcases h.next i site call.pc reply pc done cond hnext hc with hstart | ⟨done', hbefore⟩
  · rw [hdone] at hstart
    cases hstart
  · exact (h.step hat hcall hlive hbefore hstmt hcommit hs).2 tx reply rfl

end BackendFoundation.Lib.Sweep
