import BackendFoundation.Idempotency.Leases
import Mathlib.Order.Nat

/-! # Safety of `runIdempotent`

`RunIdempotentSafe` is what holds in every world reached by calls of `runIdempotent`, lapsing leases,
crashes and the retention sweep under a fixed keyring: whose operation may start, what the calls of
one record answer, and what a lease is good for. The proof outline `callsOutline` keeps `RecordsOk`
of the records and answers, and `CallOk` of each call.

One thing does not hold. The operation of a call starts after the statement that took its lease, and
nothing is checked in between: `started_for_another` is a run in which the call is delayed until its
record was completed by another call, expired and was replaced by the record of another request. -/

namespace BackendFoundation.Idempotency.Safety

open Lib Lib.Runs Lib.Interleave Errors Crypto Idempotency.Model Idempotency.Leases
open Option (some.inj map_eq_some_iff)

variable {R : Runtime} {K : Keyring} {s s' : IdempotencyState} {w w' : ExternalWorld} {pid : ℕ}
  {call : Call} {pc' : CallPc} {key : RecordKey} {id : ℕ}

/-! ### Where a call stands with its record -/

/-- The call holds the lease it took on the record, as far as it knows. -/
def Holds (key : RecordKey) (id : ℕ) : CallPc → Prop
  | .operation k i | .running k i | .save k i _ => k = key ∧ i = id
  | _ => False

/-- The call has taken the lease on the record, and has yet to return or throw. -/
def Past (key : RecordKey) (id : ℕ) : CallPc → Prop
  | .operation k i | .running k i | .save k i _ | .release k i _ => k = key ∧ i = id
  | _ => False

/-- The call is about to take the lease on the record, or has taken it. -/
def About (key : RecordKey) (id : ℕ) : CallPc → Prop
  | .acquire k i | .operation k i | .running k i | .save k i _ | .release k i _ => k = key ∧ i = id
  | _ => False

theorem steps_about (h : Steps R K s pid call s' pc') (ha : About key id pc') :
    (call.pc = .find ∧ key ∈ call.input.candidateKeys R K ∧ ∃ r, s.records key = some r ∧
        r.id = id ∧ r.requestHash ∈ (call.input.hashes R K).requestHashCandidates) ∨
      (call.pc = .create ∧ key = call.input.recordKey R K ∧ id = s.nextId ∧
        s'.nextId = s.nextId + 1 ∧ s'.records key = some (call.newRecord R K pid s.nextId)) ∨
      About key id call.pc := by
  cases h with
  | throws | noRecord | expired | replays | saves | releases => exact ha.elim
  | @found k r hpc hkey hr hhash =>
    obtain ⟨rfl, rfl⟩ := ha
    exact .inl ⟨hpc, hkey, r, hr, rfl, hhash⟩
  | deletes hpc hr hst hpc' =>
    rcases hpc' with rfl | ⟨e, rfl⟩ <;> exact ha.elim
  | acquires hpc hr hst hfree hpc' =>
    rcases hpc' with rfl | ⟨e, rfl⟩
    · exact .inr (.inr (by rw [hpc]; exact ha))
    · exact ha.elim
  | creates hpc hnone hpc' =>
    rcases hpc' with rfl | ⟨e, rfl⟩
    · obtain ⟨rfl, rfl⟩ := ha
      exact .inr (.inl ⟨hpc, rfl, rfl, rfl, Table.set_self⟩)
    · exact ha.elim
  | starts hpc | ends hpc | savesUnseen hpc => exact .inr (.inr (by rw [hpc]; exact ha))
  | fails hpc =>
    rcases hpc with hpc | ⟨result, hpc⟩ <;> exact .inr (.inr (by rw [hpc]; exact ha))

theorem steps_holds (h : Steps R K s pid call s' pc') (hh : Holds key id pc') :
    (∃ r, s'.records key = some r ∧ r.id = id ∧ r.lockToken = some pid ∧
        r.lockedUntil = some call.lockedUntil) ∨
      (Holds key id call.pc ∧ s'.records = s.records) := by
  cases h with
  | throws | noRecord | expired | replays | found | saves | releases | savesUnseen => exact hh.elim
  | fails => exact hh.elim
  | deletes hpc hr hst hpc' =>
    rcases hpc' with rfl | ⟨e, rfl⟩ <;> exact hh.elim
  | acquires hpc hr hst hfree hpc' =>
    rcases hpc' with rfl | ⟨e, rfl⟩
    · obtain ⟨rfl, rfl⟩ := hh
      exact .inl ⟨_, Table.set_self, rfl, rfl, rfl⟩
    · exact hh.elim
  | creates hpc hnone hpc' =>
    rcases hpc' with rfl | ⟨e, rfl⟩
    · obtain ⟨rfl, rfl⟩ := hh
      exact .inl ⟨_, Table.set_self, rfl, rfl, rfl⟩
    · exact hh.elim
  | starts hpc | ends hpc => exact .inr ⟨by rw [hpc]; exact hh, rfl⟩

theorem steps_operation (h : Steps R K s pid call s' (.operation key id)) :
    ∃ r, s'.records key = some r ∧ r.id = id ∧ r.lockToken = some pid ∧
      r.lockedUntil = some call.lockedUntil := by
  cases h with
  | deletes _ _ _ hpc' => rcases hpc' with he | ⟨e, he⟩ <;> cases he
  | acquires hpc hr hst hfree hpc' =>
    rcases hpc' with he | ⟨e, he⟩
    · cases he
      exact ⟨_, Table.set_self, rfl, rfl, rfl⟩
    · cases he
  | creates hpc hnone hpc' =>
    rcases hpc' with he | ⟨e, he⟩
    · cases he
      exact ⟨_, Table.set_self, rfl, rfl, rfl⟩
    · cases he

/-! ### The assertions -/

/-- What holds of the records and of the answers given from them. -/
structure RecordsOk (K : Keyring) (s : IdempotencyState) : Prop where
  ids : ∀ key r, s.records key = some r → r.id < s.nextId
  inj : ∀ key key' r r', s.records key = some r → s.records key' = some r' → r.id = r'.id →
    key = key'
  hashes : ∀ key r, s.records key = some r → (∃ digest, key.keyHash = .v1 K.activeKeyId digest) ∧
    ∃ digest, r.requestHash = .v1 K.activeKeyId digest
  locked : ∀ key r, s.records key = some r → r.lockToken ≠ none → r.statusCode = none
  answered : ∀ a ∈ s.answers, a.recordId < s.nextId
  complete : ∀ a ∈ s.answers, ∀ key r, s.records key = some r → r.id = a.recordId →
    completedResult K r = .ok (some a.result)
  agree : ∀ a ∈ s.answers, ∀ b ∈ s.answers, a.recordId = b.recordId → a.result = b.result
  once : ∀ id, s.answers.countP (fun a => a.recordId = id ∧ a.replayed = false) ≤ 1

structure CallOk (R : Runtime) (K : Keyring) (pid : ℕ) (call : Call) (s : IdempotencyState) :
    Prop where
  clock : call.now ≤ s.now
  recordId : ∀ key id, About key id call.pc → id < s.nextId ∧ key = call.input.recordKey R K
  requestHash : ∀ key r, About key r.id call.pc → s.records key = some r →
    r.requestHash = (call.input.hashes R K).requestHash
  /-- While the lease has not lapsed, the record is there and is the call's. -/
  lease : ∀ key id, Holds key id call.pc → s.now < call.lockedUntil → ∃ r,
    s.records key = some r ∧ r.id = id ∧ r.lockToken = some pid ∧
      r.lockedUntil = some call.lockedUntil

def callsOk (R : Runtime) (K : Keyring) : Assertions IdempotencyState Call where
  shared := RecordsOk K
  proc := CallOk R K

/-! ### The records -/

/-- The records' part of `RecordsOk`, under a step. -/
theorem recordsOk_of_change (h : RecordsOk K s) (hanswers : s'.answers = s.answers)
    (hid : s.nextId ≤ s'.nextId)
    (hnew : ∀ key r, s.records key = none → s'.records key = some r →
      r.id = s.nextId ∧ s.nextId < s'.nextId ∧ r.statusCode = none ∧
        ((∃ digest, key.keyHash = .v1 K.activeKeyId digest) ∧
          ∃ digest, r.requestHash = .v1 K.activeKeyId digest) ∧
        ∀ key', s.records key' = none → s'.records key' ≠ none → key' = key)
    (hold : ∀ key r r', s.records key = some r → s'.records key = some r' →
      r'.id = r.id ∧ r'.requestHash = r.requestHash ∧ (r'.lockToken ≠ none → r'.statusCode = none) ∧
        (r.statusCode ≠ none → r' = r)) : RecordsOk K s' := by
  have hcases : ∀ key r', s'.records key = some r' →
      s.records key = none ∨ ∃ r, s.records key = some r := by
    intro key r' _
    cases s.records key with
    | none => exact .inl rfl
    | some r => exact .inr ⟨r, rfl⟩
  refine ⟨fun key r' hr' => ?_, fun key₁ key₂ r₁ r₂ h₁ h₂ he => ?_, fun key r' hr' => ?_,
    fun key r' hr' htok => ?_, fun a ha => ?_, fun a ha key r' hr' he => ?_, ?_, ?_⟩
  · rcases hcases key r' hr' with hr | ⟨r, hr⟩
    · have hn := hnew key r' hr hr'
      omega
    · have hlt := h.ids key r hr
      rw [(hold key r r' hr hr').1]
      omega
  · rcases hcases key₁ r₁ h₁ with hr₁ | ⟨p₁, hr₁⟩ <;> rcases hcases key₂ r₂ h₂ with hr₂ | ⟨p₂, hr₂⟩
    · refine (hnew key₂ r₂ hr₂ h₂).2.2.2.2 key₁ hr₁ ?_
      rw [h₁]
      exact Option.some_ne_none _
    · have hn := hnew key₁ r₁ hr₁ h₁
      have hlt := h.ids key₂ p₂ hr₂
      have hid₂ := (hold key₂ p₂ r₂ hr₂ h₂).1
      omega
    · have hn := hnew key₂ r₂ hr₂ h₂
      have hlt := h.ids key₁ p₁ hr₁
      have hid₁ := (hold key₁ p₁ r₁ hr₁ h₁).1
      omega
    · refine h.inj key₁ key₂ p₁ p₂ hr₁ hr₂ ?_
      rw [← (hold key₁ p₁ r₁ hr₁ h₁).1, ← (hold key₂ p₂ r₂ hr₂ h₂).1, he]
  · rcases hcases key r' hr' with hr | ⟨r, hr⟩
    · exact (hnew key r' hr hr').2.2.2.1
    · rw [(hold key r r' hr hr').2.1]
      exact h.hashes key r hr
  · rcases hcases key r' hr' with hr | ⟨r, hr⟩
    · exact (hnew key r' hr hr').2.2.1
    · exact (hold key r r' hr hr').2.2.1 htok
  · rw [hanswers] at ha
    have hlt := h.answered a ha
    omega
  · rw [hanswers] at ha
    rcases hcases key r' hr' with hr | ⟨r, hr⟩
    · have hn := hnew key r' hr hr'
      have hlt := h.answered a ha
      omega
    · have hkeep := hold key r r' hr hr'
      have hdone := h.complete a ha key r hr (hkeep.1.symm.trans he)
      rw [hkeep.2.2.2 (statusCode_of_completed hdone)]
      exact hdone
  · rw [hanswers]
    exact h.agree
  · rw [hanswers]
    exact h.once

theorem recordsOk_answer {r : IdempotencyRecord} {result : OperationResult} {replayed : Bool}
    (h : RecordsOk K s) (hr : s.records key = some r)
    (hdone : completedResult K r = .ok (some result))
    (hfirst : replayed = false → ∀ a ∈ s.answers, a.recordId ≠ r.id) :
    RecordsOk K (s.answer r.id result replayed) := by
  have hsame : ∀ a ∈ s.answers, a.recordId = r.id → a.result = result := by
    intro a ha he
    have hca := h.complete a ha key r hr he.symm
    exact some.inj (Except.ok.inj (hca.symm.trans hdone))
  refine ⟨h.ids, h.inj, h.hashes, h.locked, fun a ha => ?_, fun a ha key' r' hr' he => ?_,
    fun a ha b hb he => ?_, fun id => ?_⟩
  · rcases List.mem_append.mp ha with ha | ha
    · exact h.answered a ha
    · obtain rfl := List.mem_singleton.mp ha
      exact h.ids key r hr
  · rcases List.mem_append.mp ha with ha | ha
    · exact h.complete a ha key' r' hr' he
    · obtain rfl := List.mem_singleton.mp ha
      obtain rfl := h.inj key' key r' r hr' hr he
      obtain rfl := some.inj (hr'.symm.trans hr)
      exact hdone
  · rcases List.mem_append.mp ha with ha | ha <;> rcases List.mem_append.mp hb with hb | hb
    · exact h.agree a ha b hb he
    · obtain rfl := List.mem_singleton.mp hb
      exact hsame a ha he
    · obtain rfl := List.mem_singleton.mp ha
      exact (hsame b hb he.symm).symm
    · rw [List.mem_singleton.mp ha, List.mem_singleton.mp hb]
  · simp only [IdempotencyState.answer, List.countP_append, List.countP_singleton]
    have honce := h.once id
    split_ifs with hnew
    · obtain ⟨rfl, hrep⟩ := of_decide_eq_true hnew
      have hnone : s.answers.countP (fun a => a.recordId = r.id ∧ a.replayed = false) = 0 := by
        rw [List.countP_eq_zero]
        intro a ha hcond
        exact hfirst hrep a ha (of_decide_eq_true hcond).1
      omega
    · omega

theorem recordsOk_quiet (h : RecordsOk K s) (hs : Steps R K s pid call s' pc')
    (hanswers : s'.answers = s.answers) : RecordsOk K s' := by
  refine recordsOk_of_change h hanswers hs.nextId_le (fun key r hr hr' => ?_)
    fun key r r' hr hr' => ?_
  · obtain ⟨hkey, rfl, hid⟩ := hs.created hr hr'
    refine ⟨rfl, by omega, rfl, ⟨⟨_, by rw [hkey]; rfl⟩, _, rfl⟩, fun key' hn hsome => ?_⟩
    obtain ⟨r', hr'⟩ := Option.ne_none_iff_exists'.mp hsome
    exact (hs.created hn hr').1.trans hkey.symm
  · have hchange := hs.change key
    rw [hr, hr'] at hchange
    exact hchange.keeps (h.locked key r hr)

theorem recordsOk_steps (h : RecordsOk K s) (hs : Steps R K s pid call s' pc') :
    RecordsOk K s' := by
  by_cases hanswers : s'.answers = s.answers
  · exact recordsOk_quiet h hs hanswers
  cases hs with
  | replays hpc hr hdone => exact recordsOk_answer h hr hdone nofun
  | @saves key r result hpc hr htok hst =>
    have hquiet := recordsOk_quiet h (Steps.savesUnseen (R := R) (e := .value) hpc hr htok hst) rfl
    refine recordsOk_answer (r := r.saved K result) hquiet Table.set_self
      (completedResult_saved result r) ?_
    -- an older answer would mean that the record was complete
    intro _ a ha he
    exact statusCode_of_completed (h.complete a ha key r hr he.symm) hst
  | _ => exact absurd rfl hanswers

theorem recordsOk_event {e : Event} (h : RecordsOk K s) (hs : event s e = some s') :
    RecordsOk K s' := by
  obtain ⟨-, hid, hanswers, -, hrows⟩ := event_change hs
  refine recordsOk_of_change h hanswers hid.ge (fun key r hr hr' => ?_) fun key r r' hr hr' => ?_
  · rcases hrows key with hkeep | ⟨r₀, hr₀, -⟩
    · exact absurd ((hr'.symm.trans hkeep).trans hr) nofun
    · exact absurd (hr₀.symm.trans hr) nofun
  · rcases hrows key with hkeep | ⟨r₀, -, -, -, hnone⟩
    · obtain rfl := some.inj ((hkeep.trans hr).symm.trans hr')
      exact ⟨rfl, rfl, h.locked key _ hr, fun _ => rfl⟩
    · exact absurd (hr'.symm.trans hnone) nofun

/-! ### The calls -/

theorem callOk_step {c : Choice} (h : RecordsOk K s) (hc : CallOk R K pid call s)
    (hs : runIdempotent R K s pid call c = some (s', pc')) :
    CallOk R K pid { call with pc := pc' } s' := by
  have hsteps := runIdempotent_steps hs
  refine ⟨hsteps.now_eq ▸ hc.clock, fun key id ha => ?_, fun key r' ha hr' => ?_,
    fun key id hh hnow => ?_⟩
  · have hle := hsteps.nextId_le
    rcases steps_about hsteps ha with ⟨-, hkey, r, hr, rfl, -⟩ | ⟨-, hkey, rfl, hid, -⟩ | ha
    · have hlt := h.ids key r hr
      exact ⟨by omega, recordKey_of_candidate (h.hashes key r hr).1 hkey⟩
    · exact ⟨by omega, hkey⟩
    · obtain ⟨hlt, hkey⟩ := hc.recordId key id ha
      exact ⟨by omega, hkey⟩
  · have hchange := hsteps.change key
    rw [hr'] at hchange
    rcases steps_about hsteps ha with ⟨-, -, r, hr, hid, hhash⟩ | ⟨-, rfl, -, -, hnew⟩ | ha
    · rcases hchange.row_of with ⟨hnone, -, -⟩ | ⟨r₀, hr₀, -, hhash₀⟩
      · exact absurd (hr.symm.trans hnone) nofun
      · obtain rfl := some.inj (hr.symm.trans hr₀)
        rw [hhash₀]
        exact hash_of_candidate (h.hashes key _ hr).2 hhash
    · obtain rfl := some.inj (hr'.symm.trans hnew)
      rfl
    · rcases hchange.row_of with ⟨-, hpc, -⟩ | ⟨r, hr, hid, hhash⟩
      · rw [hpc] at ha
        exact ha.elim
      · rw [hhash]
        exact hc.requestHash key r (hid ▸ ha) hr
  · rcases steps_holds hsteps hh with hnew | ⟨hh, hsame⟩
    · exact hnew
    · rw [hsame]
      exact hc.lease key id hh (hsteps.now_eq ▸ hnow)

variable {i : ℕ}

theorem callOk_frame {other : Call} {c : Choice} (h : RecordsOk K s) (hc : CallOk R K pid call s)
    (hother : CallOk R K i other s) (hne : pid ≠ i)
    (hs : runIdempotent R K s i other c = some (s', pc')) : CallOk R K pid call s' := by
  have hsteps := runIdempotent_steps hs
  have hle := hsteps.nextId_le
  refine ⟨hsteps.now_eq ▸ hc.clock, fun key id ha => ?_, fun key r' ha hr' => ?_,
    fun key id hh hnow => ?_⟩
  · obtain ⟨hlt, hkey⟩ := hc.recordId key id ha
    exact ⟨by omega, hkey⟩
  · have hchange := hsteps.change key
    rw [hr'] at hchange
    rcases hchange.row_of with ⟨-, -, rfl⟩ | ⟨r, hr, hid, hhash⟩
    · -- the new record has an id that no call is about
      exact absurd (hc.recordId key _ ha).1 (Nat.lt_irrefl _)
    · rw [hhash]
      exact hc.requestHash key r (hid ▸ ha) hr
  · rw [hsteps.now_eq] at hnow
    obtain ⟨r, hr, hid, htok, huntil⟩ := hc.lease key id hh hnow
    have hst : r.statusCode = none := h.locked key r hr (by rw [htok]; exact Option.some_ne_none _)
    have hchange := hsteps.change key
    rw [hr] at hchange
    generalize he : s'.records key = o at hchange
    cases hchange with
    | same => exact ⟨r, rfl, hid, htok, huntil⟩
    | acquire hpc _ hfree =>
      -- the lease would have lapsed before the other call read the clock
      rcases hfree with hfree | ⟨t, ht, hle⟩
      · exact absurd (huntil.symm.trans hfree) nofun
      · obtain rfl := some.inj (huntil.symm.trans ht)
        have hclock := hother.clock
        omega
    | save hpc htok' => exact absurd (some.inj (htok.symm.trans htok')) hne
    | release hpc htok' => exact absurd (some.inj (htok.symm.trans htok')) hne
    | delete hne => exact absurd hst hne

theorem callOk_event {e : Event} (h : RecordsOk K s) (hc : CallOk R K pid call s)
    (hs : event s e = some s') : CallOk R K pid call s' := by
  obtain ⟨hnow, hid, -, -, hrows⟩ := event_change hs
  refine ⟨hc.clock.trans hnow, fun key id ha => ?_, fun key r ha hr => ?_, fun key id hh hlt => ?_⟩
  · rw [hid]
    exact hc.recordId key id ha
  · rcases hrows key with hkeep | ⟨r₀, -, -, -, hnone⟩
    · exact hc.requestHash key r ha (hkeep ▸ hr)
    · exact absurd (hr.symm.trans hnone) nofun
  · obtain ⟨r, hr, hrid, htok, huntil⟩ := hc.lease key id hh (hnow.trans_lt hlt)
    rcases hrows key with hkeep | ⟨r₀, hr₀, hst, -⟩
    · exact ⟨r, hkeep.trans hr, hrid, htok, huntil⟩
    · obtain rfl := some.inj (hr.symm.trans hr₀)
      exact absurd (h.locked key r hr (by rw [htok]; exact Option.some_ne_none _)) hst

/-- **The invariant of the calls and their records.** -/
theorem callsOutline : Outline (external R K) anyStep (callsOk R K) where
  init := by
    refine RecordsOk.mk (fun key r hr => ?_) (fun key key' r r' hr => ?_) (fun key r hr => ?_)
      (fun key r hr => ?_) (fun a ha => ?_) (fun a ha => ?_) (fun a ha => ?_) fun id => ?_
    · cases hr
    · cases hr
    · cases hr
    · cases hr
    · cases ha
    · cases ha
    · cases ha
    · exact Nat.zero_le _
  env w e s h _ hs :=
    ⟨recordsOk_event h.shared hs, fun j q hq => callOk_event h.shared (h.proc j q hq) hs⟩
  spawn w input s p h _ hs := by
    obtain ⟨rfl, rfl⟩ := pair_inj hs
    refine ⟨h.shared, ⟨le_rfl, ?_, ?_, ?_⟩, fun j q hq => ⟨h.proc j q hq, trivial, trivial⟩⟩
    · exact fun key id ha => ha.elim
    · exact fun key r ha => ha.elim
    · exact fun key id hh => hh.elim
  step w i p c s p' h hi _ hs := by
    obtain ⟨pc', hrun, rfl⟩ := map_pair_inj hs
    exact ⟨recordsOk_steps h.shared (runIdempotent_steps hrun),
      callOk_step h.shared (h.proc i p hi) hrun⟩
  frame w i p c s p' h hi _ hs j q hj hq := by
    obtain ⟨pc', hrun, rfl⟩ := map_pair_inj hs
    exact ⟨callOk_frame h.shared (h.proc j q hq) (h.proc i p hi) hj hrun, trivial, trivial⟩

/-! ### Leases that are lost -/

/-- The call holds a lease on the record that has not lapsed. -/
def HoldsLease (w : ExternalWorld) (i : ℕ) (key : RecordKey) (id : ℕ) : Prop :=
  ∃ call, w.proc? i = some call ∧ Holds key id call.pc ∧ w.shared.now < call.lockedUntil

/-- The record no longer carries the token of the call. -/
def TokenGone (s : IdempotencyState) (i : ℕ) (key : RecordKey) (id : ℕ) : Prop :=
  ∀ r, s.records key = some r → r.id = id → r.lockToken ≠ some i

/-- The call has taken a lease, and its record no longer carries its token. -/
def TakenOver (w : ExternalWorld) (i : ℕ) : Prop :=
  ∃ call key id, w.proc? i = some call ∧ Past key id call.pc ∧ TokenGone w.shared i key id

/-- What a call can do after its lease was taken over: throw, or go on without effect. -/
def Silenced (w : ExternalWorld) (i : ℕ) : Prop :=
  i < w.fresh ∧ ∀ call, w.proc? i = some call → (∃ e, call.pc = .thrown e) ∨
    ∃ key id, Past key id call.pc ∧ TokenGone w.shared i key id

theorem TakenOver.silenced (h : TakenOver w i) : Silenced w i := by
  obtain ⟨call, key, id, hi, hpast, hgone⟩ := h
  refine ⟨World.lt_fresh hi, fun call' hi' => ?_⟩
  obtain rfl := some.inj (hi.symm.trans hi')
  exact .inr ⟨key, id, hpast, hgone⟩

theorem steps_tokenGone (h : Steps R K s pid call s' pc') (hpast : Past key id call.pc)
    (hgone : TokenGone s pid key id) :
    s' = s ∧ ((∃ e, pc' = .thrown e) ∨ Past key id pc') := by
  cases h with
  | throws => exact ⟨rfl, .inl ⟨_, rfl⟩⟩
  | noRecord hpc =>
    rcases hpc with hpc | ⟨k, i, hpc⟩
    · rw [hpc] at hpast
      exact hpast.elim
    · rw [hpc] at hpast
      exact hpast.elim
  | expired hpc | replays hpc | found hpc | deletes hpc | acquires hpc | creates hpc =>
    rw [hpc] at hpast
    exact hpast.elim
  | starts hpc | ends hpc =>
    rw [hpc] at hpast
    exact ⟨rfl, .inr hpast⟩
  | fails hpc =>
    refine ⟨rfl, .inr ?_⟩
    rcases hpc with hpc | ⟨result, hpc⟩
    · rw [hpc] at hpast
      exact hpast
    · rw [hpc] at hpast
      exact hpast
  | saves hpc hr htok | savesUnseen hpc hr htok | releases hpc hr htok =>
    rw [hpc] at hpast
    obtain ⟨rfl, rfl⟩ := hpast
    exact absurd htok (hgone _ hr rfl)

theorem Change.token {o : Option IdempotencyRecord} {r' : IdempotencyRecord}
    (h : Change R K s pid call key o (some r')) :
    o = some r' ∨ r'.lockToken = some pid ∨ r'.lockToken = none := by
  cases h with
  | same => exact .inl rfl
  | create => exact .inr (.inl rfl)
  | acquire => exact .inr (.inl rfl)
  | save => exact .inr (.inr rfl)
  | release => exact .inr (.inr rfl)

theorem TokenGone.frame (h : TokenGone s i key id) (hne : i ≠ pid)
    (hs : Steps R K s pid call s' pc') : TokenGone s' i key id := by
  intro r' hr' hid
  have hchange := hs.change key
  rw [hr'] at hchange
  rcases Change.token hchange with hr | htok | htok
  · exact h r' hr hid
  · rw [htok]
    exact fun he => hne (some.inj he).symm
  · rw [htok]
    exact (Option.some_ne_none _).symm

theorem TokenGone.event {e : Event} (h : TokenGone s i key id) (hs : event s e = some s') :
    TokenGone s' i key id := by
  intro r hr hid
  obtain ⟨-, -, -, -, hrows⟩ := event_change hs
  rcases hrows key with hkeep | ⟨r₀, -, -, -, hnone⟩
  · exact h r (hkeep ▸ hr) hid
  · rw [hnone] at hr
    cases hr

theorem silenced_next {l : ExternalLabel} (h : Silenced w i)
    (hn : (external R K).next w l = some w') : Silenced w' i := by
  obtain ⟨hlt, hcall⟩ := h
  cases Program.move_of_next hn with
  | @spawn input s p hs =>
    obtain ⟨rfl, rfl⟩ := pair_inj hs
    have hne : i ≠ w.fresh := Nat.ne_of_lt hlt
    refine ⟨by rw [World.fresh_add]; omega, fun call hi => ?_⟩
    rw [World.proc?_add_of_ne hne] at hi
    exact hcall call hi
  | @step j c p p' s hj hs =>
    obtain ⟨pc', hrun, rfl⟩ := map_pair_inj hs
    have hsteps := runIdempotent_steps hrun
    refine ⟨by rwa [World.fresh_put], fun call hi => ?_⟩
    rcases World.proc?_put_cases hj hi with ⟨rfl, rfl⟩ | ⟨hne, hi⟩
    · rcases hcall p hj with ⟨e, hpc⟩ | ⟨key, id, hpast, hgone⟩
      · rw [runIdempotent, hpc] at hrun
        cases hrun
      · obtain ⟨rfl, hpc'⟩ := steps_tokenGone hsteps hpast hgone
        exact hpc'.imp_right fun hpast' => ⟨key, id, hpast', hgone⟩
    · rcases hcall call hi with hthrown | ⟨key, id, hpast, hgone⟩
      · exact .inl hthrown
      · exact .inr ⟨key, id, hpast, hgone.frame hne hsteps⟩
  | @crash j p hj =>
    refine ⟨by rwa [World.fresh_kill], fun call hi => ?_⟩
    exact hcall call (World.proc?_kill_cases hi).2
  | @env e s hs =>
    refine ⟨hlt, fun call hi => ?_⟩
    exact (hcall call hi).imp_right fun ⟨key, id, hpast, hgone⟩ =>
      ⟨key, id, hpast, hgone.event hs⟩

/-- The call does not report success, and what it still does changes no record. -/
structure Fenced (R : Runtime) (K : Keyring) (w : ExternalWorld) (i : ℕ) : Prop where
  silent : ∀ call, w.proc? i = some call → ∀ id result replayed,
    call.pc ≠ .returned id result replayed
  inert : ∀ c w', (external R K).next w (.step i c) = some w' → w'.shared = w.shared

theorem Silenced.fenced (h : Silenced w i) : Fenced R K w i := by
  obtain ⟨-, hcall⟩ := h
  refine ⟨fun call hi id result replayed hret => ?_, fun c w' hn => ?_⟩
  · rcases hcall call hi with ⟨e, hpc⟩ | ⟨key, id, hpast, -⟩
    · rw [hret] at hpc
      cases hpc
    · rw [hret] at hpast
      exact hpast.elim
  · cases Program.move_of_next hn with
    | @step _ _ p p' s hi hs =>
      obtain ⟨pc', hrun, rfl⟩ := map_pair_inj hs
      rcases hcall p hi with ⟨e, hpc⟩ | ⟨key, id, hpast, hgone⟩
      · rw [runIdempotent, hpc] at hrun
        cases hrun
      · exact (steps_tokenGone (runIdempotent_steps hrun) hpast hgone).1

/-- **Fencing.** A call whose lease was taken over is fenced from then on. -/
theorem fenced_of_takenOver (hw : Reachable (external R K).system w) (h : TakenOver w i)
    (p : Path (external R K).system anyStep w w') : Fenced R K w' i := by
  have hsilenced := p.stable (Q := fun w => Silenced w i)
    (fun _ _ _ _ hq _ hn => silenced_next hq hn) hw h.silenced
  exact hsilenced.fenced

/-! ### Records without a result -/

theorem incomplete_next {l : ExternalLabel} {r : IdempotencyRecord}
    (hr : w.shared.records key = some r) (hst : r.statusCode = none)
    (hn : (external R K).next w l = some w') :
    ∃ r', w'.shared.records key = some r' ∧ r'.id = r.id := by
  cases Program.move_of_next hn with
  | @spawn input s p hs =>
    obtain ⟨rfl, rfl⟩ := pair_inj hs
    exact ⟨r, hr, rfl⟩
  | @step j c p p' s hj hs =>
    obtain ⟨⟨s₁, pc'⟩, hrun, he⟩ := map_eq_some_iff.mp hs
    obtain ⟨rfl, rfl⟩ := Prod.mk.inj he
    have hchange := (runIdempotent_steps hrun).change key
    rw [hr] at hchange
    rw [World.put_shared]
    generalize s₁.records key = o at hchange
    cases hchange with
    | same => exact ⟨r, rfl, rfl⟩
    | acquire => exact ⟨_, rfl, rfl⟩
    | save => exact ⟨_, rfl, rfl⟩
    | release => exact ⟨_, rfl, rfl⟩
    | delete hne => exact absurd hst hne
  | crash hj => exact ⟨r, hr, rfl⟩
  | @env e s hs =>
    obtain ⟨-, -, -, -, hrows⟩ := event_change hs
    rcases hrows key with hkeep | ⟨r₀, hr₀, hne, -⟩
    · exact ⟨r, hkeep.trans hr, rfl⟩
    · obtain rfl := some.inj (hr.symm.trans hr₀)
      exact absurd hst hne

/-! ### Whose operation starts -/

/-- The next step of the call starts its operation, on the lease of the record `id`. -/
def Starting (w : ExternalWorld) (i : ℕ) (call : Call) (key : RecordKey) (id : ℕ) : Prop :=
  w.proc? i = some call ∧ call.pc = .operation key id

/-- A call comes to its operation by taking the lease of a record that carries its fingerprint. -/
theorem leased_next {c : Choice} (hw : (callsOk R K).Holds w)
    (hn : (external R K).next w (.step i c) = some w') (hstart : Starting w' i call key id) :
    key = call.input.recordKey R K ∧ ∃ r, w'.shared.records key = some r ∧ r.id = id ∧
      r.lockToken = some i ∧ r.lockedUntil = some call.lockedUntil ∧
      r.requestHash = (call.input.hashes R K).requestHash := by
  have hw' := callsOutline.step_holds hw trivial hn
  obtain ⟨hi', hpc⟩ := hstart
  have hcall := hw'.proc i call hi'
  have habout : About key id call.pc := by
    rw [hpc]
    exact ⟨rfl, rfl⟩
  refine ⟨(hcall.recordId key id habout).2, ?_⟩
  cases Program.move_of_next hn with
  | @step _ _ p p' s hi hs =>
    obtain ⟨pc', hrun, rfl⟩ := map_pair_inj hs
    obtain rfl := some.inj ((World.proc?_put_self hi).symm.trans hi')
    have hsteps := runIdempotent_steps hrun
    rw [show pc' = .operation key id from hpc] at hsteps
    obtain ⟨r, hr, rfl, htok, huntil⟩ := steps_operation hsteps
    exact ⟨r, hr, rfl, htok, huntil, hcall.requestHash key r habout hr⟩

/-! ### The result -/

structure RunIdempotentSafe (R : Runtime) (K : Keyring) (w : ExternalWorld) : Prop where
  /-- A call that comes to its operation has just taken the lease of a record under its key, and
  the record carries its fingerprint. -/
  leased : ∀ i c w' call key id, (external R K).next w (.step i c) = some w' →
    Starting w' i call key id →
    key = call.input.recordKey R K ∧ ∃ r, w'.shared.records key = some r ∧ r.id = id ∧
      r.lockToken = some i ∧ r.lockedUntil = some call.lockedUntil ∧
      r.requestHash = (call.input.hashes R K).requestHash
  /-- When the operation starts, that record carries it still, if it is there. -/
  started : ∀ i call key r, Starting w i call key r.id → w.shared.records key = some r →
    r.requestHash = (call.input.hashes R K).requestHash
  once : ∀ id, w.shared.answers.countP (fun a => a.recordId = id ∧ a.replayed = false) ≤ 1
  replays : ∀ a ∈ w.shared.answers, ∀ b ∈ w.shared.answers, a.recordId = b.recordId →
    a.result = b.result
  fenced : ∀ i, TakenOver w i → ∀ w', Path (external R K).system anyStep w w' → Fenced R K w' i
  exclusive : ∀ i j key id, HoldsLease w i key id → HoldsLease w j key id → i = j
  kept : ∀ l w' key r, w.shared.records key = some r → r.statusCode = none →
    (external R K).next w l = some w' → ∃ r', w'.shared.records key = some r' ∧ r'.id = r.id

/-- **Safety of `runIdempotent`** in every world reached. -/
theorem run_idempotent_safe (R : Runtime) (K : Keyring) (w : ExternalWorld)
    (h : Reachable (external R K).system w) : RunIdempotentSafe R K w := by
  have hw := callsOutline.holds h
  refine ⟨fun i c w' call key id hn hstart => leased_next hw hn hstart,
    fun i call key r hstart hr => ?_, hw.shared.once, hw.shared.agree,
    fun i htaken w' p => fenced_of_takenOver h htaken p, fun i j key id hi hj => ?_,
    fun l w' key r hr hst hn => incomplete_next hr hst hn⟩
  · obtain ⟨hi, hpc⟩ := hstart
    refine (hw.proc i call hi).requestHash key r ?_ hr
    rw [hpc]
    exact ⟨rfl, rfl⟩
  · obtain ⟨p, hp, hph, hpnow⟩ := hi
    obtain ⟨q, hq, hqh, hqnow⟩ := hj
    obtain ⟨r, hr, -, htok, -⟩ := (hw.proc i p hp).lease key id hph hpnow
    obtain ⟨r', hr', -, htok', -⟩ := (hw.proc j q hq).lease key id hqh hqnow
    obtain rfl := some.inj (hr.symm.trans hr')
    exact some.inj (htok.symm.trans htok')

def exampleInput (request : String) : IdempotencyInput where
  actorKey := "user:u1"
  scope := "charges"
  key := "key-1"
  request := request

/-- The call 0 creates the record and is about to start its operation; its lease lapses, and the
call 1 takes it over and completes the record. -/
def runTakenOver : List ExternalLabel :=
  [.spawn (exampleInput "r1"), .step 0 {}, .step 0 {}, .env (.tick 120000),
    .spawn (exampleInput "r1"), .step 1 {}, .step 1 {}, .step 1 {}, .step 1 {}, .step 1 {}]

/-- A world in which a lease was taken over. -/
theorem run_idempotent_safe_takenOver : ∃ w, TakenOver w 0 ∧
    RunIdempotentSafe exampleRuntime exampleKeyring w := by
  obtain ⟨w, hw, call, hi, hpc, hgone⟩ :=
    (external exampleRuntime exampleKeyring).exists_reached anyStep runTakenOver
      (fun w => ∃ call ∈ w.proc? 0,
        call.pc = .operation ((exampleInput "r1").recordKey exampleRuntime exampleKeyring) 0 ∧
        ∀ r ∈ w.shared.records ((exampleInput "r1").recordKey exampleRuntime exampleKeyring),
          r.lockToken ≠ some 0) (by decide)
  refine ⟨w, ⟨call, _, 0, hi, ?_, fun r hr _ => hgone r hr⟩,
    run_idempotent_safe exampleRuntime exampleKeyring w hw⟩
  rw [hpc]
  exact ⟨rfl, rfl⟩

/-- The record of the key carries the fingerprint of a call that starts its operation. -/
def StartsForKeysRecord (R : Runtime) (K : Keyring) (w : ExternalWorld) : Prop :=
  ∀ i call key id r, Starting w i call key id → w.shared.records key = some r →
    r.requestHash = (call.input.hashes R K).requestHash

/-- A day later the call 2 finds the record expired and creates its own, for another request; the
call 0 starts its operation only then. -/
theorem started_for_another : ∃ w, Reachable (external exampleRuntime exampleKeyring).system w ∧
    ¬ StartsForKeysRecord exampleRuntime exampleKeyring w := by
  obtain ⟨w, hw, call, hi, hpc, r, hr, hne⟩ :=
    (external exampleRuntime exampleKeyring).exists_reached anyStep
      (runTakenOver ++ [.env (.tick 86400000), .spawn (exampleInput "r2"), .step 2 {}, .step 2 {},
        .step 2 {}])
      (fun w => ∃ call ∈ w.proc? 0,
        call.pc = .operation ((exampleInput "r1").recordKey exampleRuntime exampleKeyring) 0 ∧
        ∃ r ∈ w.shared.records ((exampleInput "r1").recordKey exampleRuntime exampleKeyring),
          r.requestHash ≠ (call.input.hashes exampleRuntime exampleKeyring).requestHash)
      (by decide)
  exact ⟨w, hw, fun h => hne (h 0 call _ 0 r ⟨hi, hpc⟩ hr)⟩

end BackendFoundation.Idempotency.Safety
