import BackendFoundation.Lib.Schema
import BackendFoundation.Lib.Services

/-! # Services that list what they have written

The annotation of a program point is often the list of the entries that the transaction has written
so far. `Leads` is that a statement leads from one list to the next, and `Lists.follows` that a
service all of whose statements do follows the annotation. -/

set_option linter.unusedSectionVars false

namespace BackendFoundation.Lib.Logs

open Lib.Database Lib.WriteLog Lib.Schema Lib.Services

variable {K : Type*} [DecidableEq K] {V : K → Type*} [∀ k, DecidableEq (V k)] {P A M E ε : Type*}

/-- What a statement leads to, if `entries` have been written before it. -/
def Leads (entries : List (Entry V)) (stmt : Stmt V) (reply : Reply V) (entries' : List (Entry V)) :
    Prop :=
  stmt ≠ .commit → ∀ k before between after, Entry.inTurn entries k before between →
    effect stmt reply k between after → Entry.inTurn entries' k before after

variable {entries : List (Entry V)} {e : Entry V} {stmt : Stmt V} {reply : Reply V}

theorem Leads.write (he : ∀ k between after, effect stmt reply k between after → e k between after) :
    Leads entries stmt reply (entries ++ [e]) :=
  fun _ k _ _ _ h heffect => Entry.inTurn_concat h (he k _ _ heffect)

theorem Leads.same (he : ∀ k between after, effect stmt reply k between after → after = between) :
    Leads entries stmt reply entries := by
  intro _ k before between after h heffect
  obtain rfl := he k between after heffect
  exact h

theorem Leads.read {entries : List (Entry V)} : Leads entries .read reply entries :=
  .same fun _ _ _ h => h

theorem Leads.lock {key : K} : Leads entries (.lock key) reply entries := .same fun _ _ _ h => h

theorem Leads.commit {entries' : List (Entry V)} : Leads entries .commit reply entries' :=
  fun h => absurd rfl h

/-- A statement whose effect is one that the last entry allows already. -/
theorem Leads.absorb (he : ∀ k before between after, e k before between →
    effect stmt reply k between after → e k before after) :
    Leads (entries ++ [e]) stmt reply (entries ++ [e]) := by
  intro _ k before between after h heffect
  obtain ⟨mid, hmid, hlast⟩ := Entry.inTurn_append.mp h
  have hlast := he k mid between after (Entry.inTurn_singleton.mp hlast) heffect
  exact Entry.inTurn_append.mpr ⟨mid, hmid, Entry.inTurn_singleton.mpr hlast⟩

/-- An entry that allows what has not been written. -/
theorem Leads.opens {entries' : List (Entry V)} (h : Leads entries stmt reply entries')
    (he : ∀ k row, e k row row) : Leads entries stmt reply (entries' ++ [e]) :=
  fun hcommit k before between after hw heffect =>
    Entry.inTurn_concat (h hcommit k before between after hw heffect) (he k after)

section Tables

variable {T : Type*} [DecidableEq T] {I R : T → Type*} [∀ t, DecidableEq (I t)]
  [∀ t, DecidableEq (R t)] {t : T} {id : I t} {u : Update I R t}
  {entries : List (Entry (RowOf I R))} {reply : Reply (RowOf I R)}

/-- An update of the row `id`, which has found it. -/
theorem Leads.must {n : ℕ} (hn : n ≠ 0) (hone : ∀ id' row, u.cond id' row = true → id' = id) :
    Leads entries u.stmt (.count n) (entries ++ [u.must id]) :=
  .write fun _ _ _ he => Update.effect_must he hn hone

/-- An update of the row `id`, which has not found it. -/
theorem Leads.missed {n : ℕ} (hn : n ≠ 1) (hone : ∀ id' row, u.cond id' row = true → id' = id) :
    Leads entries u.stmt (.count n) entries :=
  .same fun _ _ _ he => Update.effect_same he hn hone

theorem Leads.may : Leads entries u.stmt reply (entries ++ [u.may]) :=
  .write fun _ _ _ => Update.effect_may

end Tables

/-- The annotation with lists of entries and of advisory locks. -/
def notesOf (written : P → List (Entry V)) (locks : P → List K) : Notes V P where
  wrote pc := .inTurn (written pc)
  locks := locks

/-- A service whose statements lead from one list to the next, and whose calls have written nothing
and have no locks outside their transactions. -/
structure Lists (svc : Service V P A M E ε) (written : P → List (Entry V)) (locks : P → List K) :
    Prop where
  listed : ∀ k, svc.rows k ≠ none → k ∈ svc.keys
  start : ∀ now a, written (svc.start now a) = [] ∧ locks (svc.start now a) = []
  leads : ∀ site pc stmt reply pc', svc.stmt pc = some stmt →
    svc.next site pc reply = some (.ok pc') → Leads (written pc) stmt reply (written pc')
  held : ∀ site pc stmt reply pc', svc.stmt pc = some stmt →
    svc.next site pc reply = some (.ok pc') → ∀ k ∈ locks pc', k ∈ locks pc ∨ stmt = .lock k
  commit : ∀ site pc reply pc', svc.stmt pc = some .commit →
    svc.next site pc reply = some (.ok pc') → written pc' = [] ∧ locks pc' = []
  outside : ∀ site m pc m' pc', svc.outside site m pc = some (m', pc') →
    written pc' = written pc ∧ locks pc' = locks pc
  thrown : ∀ e, svc.stmt (svc.thrown e) = none ∧ ∀ site m, svc.outside site m (svc.thrown e) = none

variable {svc : Service V P A M E ε} {written : P → List (Entry V)} {locks : P → List K}

/-- **Such a service follows its lists.** -/
theorem Lists.follows (h : Lists svc written locks) : svc.Follows (notesOf written locks) where
  listed := h.listed
  start now a := by
    obtain ⟨hwritten, hlocks⟩ := h.start now a
    refine ⟨fun k row => ?_, hlocks⟩
    show Entry.inTurn (written _) k row row
    rw [hwritten]
    exact Entry.inTurn_nil.mpr rfl
  wrote site pc stmt reply pc' hstmt hcommit hnext k before between after hw he :=
    h.leads site pc stmt reply pc' hstmt hnext hcommit k before between after hw he
  locks site pc stmt reply pc' hstmt _ hnext := h.held site pc stmt reply pc' hstmt hnext
  commit site pc reply pc' hstmt hnext := by
    obtain ⟨hwritten, hlocks⟩ := h.commit site pc reply pc' hstmt hnext
    refine ⟨fun k row => ?_, hlocks⟩
    show Entry.inTurn (written _) k row row
    rw [hwritten]
    exact Entry.inTurn_nil.mpr rfl
  outside site m pc m' pc' _ hout := by
    obtain ⟨hwritten, hlocks⟩ := h.outside site m pc m' pc' hout
    refine ⟨fun k before after hw => ?_, fun k hk => ?_⟩
    · show Entry.inTurn (written _) k before after
      rw [hwritten]
      exact hw
    · change k ∈ locks pc' at hk
      rwa [hlocks] at hk
  thrown := h.thrown

end BackendFoundation.Lib.Logs
