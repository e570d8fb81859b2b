import BackendFoundation.Idempotency.Leases
import Mathlib.Order.Nat

/-! # Exactly once: `runIdempotentTransaction`

While the record of a key does not expire, `ExactlyOnce` holds of its calls in every world reached:
the effects of their operations are committed at most once, and every call that returns answers
from that commit. A call that throws has left no trace, and neither has a step that does not return.

`TransactionSteps` lists what a step of a call can do. A transaction reads the record and creates
its own on one state, so the record of a key can be there twice only if it was deleted in between,
and nothing deletes one that has not expired. -/

namespace BackendFoundation.Idempotency.Transaction

open Lib Lib.Runs Lib.Interleave Errors Crypto Idempotency.Model Idempotency.Leases

variable {R : Runtime} {K : Keyring} {s s' : IdempotencyState} {w w' : TransactionalWorld}
  {pid : ℕ} {call : TransactionCall} {pc' : TransactionPc} {k key : RecordKey}

/-! ### The steps of a call -/

theorem completedResult_completed (result : OperationResult) (r : IdempotencyRecord) :
    completedResult K (r.completed K result) = .ok (some result) := by
  simp [completedResult, IdempotencyRecord.completed, encryptResponse, decryptResponse, Except.map]

/-- The state a transaction commits, from the records `records` without one of its own. -/
def committed (R : Runtime) (K : Keyring) (s : IdempotencyState) (pid : ℕ) (call : TransactionCall)
    (records : Table RecordKey IdempotencyRecord) (result : OperationResult) : IdempotencyState :=
  { s with
    nextId := s.nextId + 1
    records := records.set (call.input.recordKey R K)
      ((call.newRecord R K s.nextId).completed K result)
    effects := s.effects ++ [⟨pid, s.nextId, call.input.recordKey R K,
      (call.input.hashes R K).requestHash, result⟩]
    answers := s.answers ++ [⟨s.nextId, result, false⟩] }

/-- The effects of a step of a call, with the program point they leave. -/
inductive TransactionSteps (R : Runtime) (K : Keyring) (s : IdempotencyState) (pid : ℕ)
    (call : TransactionCall) : IdempotencyState → TransactionPc → Prop
  | quiet {pc' : TransactionPc} : (∀ id result replayed, pc' ≠ .returned id result replayed) →
      TransactionSteps R K s pid call s pc'
  | replays {key : RecordKey} {r : IdempotencyRecord} {result : OperationResult} :
      key ∈ call.input.candidateKeys R K → s.records key = some r →
      r.requestHash ∈ (call.input.hashes R K).requestHashCandidates →
      completedResult K r = .ok (some result) →
      TransactionSteps R K s pid call (s.answer r.id result true) (.returned r.id result true)
  | commits {result : OperationResult} : s.records (call.input.recordKey R K) = none →
      TransactionSteps R K s pid call (committed R K s pid call s.records result)
        (.returned s.nextId result false)
  /-- The expired record was deleted in the same transaction. -/
  | recommits {key : RecordKey} {r : IdempotencyRecord} {result : OperationResult} :
      key ∈ call.input.candidateKeys R K → s.records key = some r → r.expiresAt ≤ call.now →
      s.records.erase key (call.input.recordKey R K) = none →
      TransactionSteps R K s pid call (committed R K s pid call (s.records.erase key) result)
        (.returned s.nextId result false)

theorem afterError_quiet (attempt : ℕ) (e : Thrown) (id : ℕ) (result : OperationResult)
    (replayed : Bool) : afterError attempt e ≠ .returned id result replayed := by
  unfold afterError
  split
  · split_ifs <;> exact TransactionPc.noConfusion
  · exact TransactionPc.noConfusion

theorem settle_error {onError : Thrown → TransactionPc} {e : Thrown}
    (herr : ∀ e id result replayed, onError e ≠ .returned id result replayed)
    (h : settle s onError (.error e) = (s', pc')) : TransactionSteps R K s pid call s' pc' := by
  cases h
  exact .quiet (herr e)

theorem replay_steps {onError : Thrown → TransactionPc} {r : IdempotencyRecord}
    (herr : ∀ e id result replayed, onError e ≠ .returned id result replayed)
    (hkey : key ∈ call.input.candidateKeys R K) (hr : s.records key = some r)
    (h : settle s onError (replay R K s call r) = (s', pc')) :
    TransactionSteps R K s pid call s' pc' := by
  unfold replay at h
  split_ifs at h with hhash
  · split at h
    · exact settle_error herr h
    · next result hdone =>
      cases h
      exact .replays hkey hr hhash hdone
    · exact settle_error herr h
  · exact settle_error herr h

theorem runOperation_cases (R : Runtime) (K : Keyring) (s : IdempotencyState) (pid : ℕ)
    (call : TransactionCall) (records : Table RecordKey IdempotencyRecord)
    (operation : Except Thrown OperationResult) :
    (∃ e, runOperation R K { s with records := records } pid call operation = .error e) ∨
      (records (call.input.recordKey R K) = none ∧ ∃ result,
        runOperation R K { s with records := records } pid call operation =
          .ok (committed R K s pid call records result, result, s.nextId, false)) := by
  unfold runOperation
  simp only []
  split
  · exact .inl ⟨_, rfl⟩
  · next created hcreated =>
    obtain ⟨hnone, rfl⟩ := createRecord_eq_some hcreated
    cases operation with
    | error e => exact .inl ⟨e, rfl⟩
    | ok result =>
      refine .inr ⟨hnone, result, ?_⟩
      simp [committed, IdempotencyState.answer, TransactionCall.newRecord]

theorem callback_steps {attempt : ℕ} {operation : Except Thrown OperationResult}
    {found : Option (RecordKey × IdempotencyRecord)}
    (hf : ∀ key r, found = some (key, r) →
      key ∈ call.input.candidateKeys R K ∧ s.records key = some r)
    (h : settle s (afterError attempt) (callback R K s pid call operation found) = (s', pc')) :
    TransactionSteps R K s pid call s' pc' := by
  have herr := afterError_quiet attempt
  unfold callback at h
  split at h
  · rcases runOperation_cases R K s pid call s.records operation with
      ⟨e, he⟩ | ⟨hnone, result, he⟩
    · rw [he] at h
      exact settle_error herr h
    · rw [he] at h
      cases h
      exact .commits hnone
  · next key r =>
    obtain ⟨hkey, hr⟩ := hf key r rfl
    split_ifs at h with hexpired
    · split at h
      · exact settle_error herr h
      · rcases runOperation_cases R K s pid call (s.records.erase key) operation with
          ⟨e, he⟩ | ⟨hnone, result, he⟩
        · rw [he] at h
          exact settle_error herr h
        · rw [he] at h
          cases h
          exact .recommits hkey hr hexpired hnone
      · exact replay_steps herr hkey hr h
    · exact replay_steps herr hkey hr h

variable {c : TransactionChoice}

/-- **What a step of a call can do.** -/
theorem runIdempotentTransaction_steps
    (h : runIdempotentTransaction R K s pid call c = some (s', pc')) :
    TransactionSteps R K s pid call s' pc' := by
  unfold runIdempotentTransaction at h
  split at h
  · next attempt hpc =>
    split at h
    · cases h
      exact .quiet (afterError_quiet _ _)
    · split_ifs at h
      cases h
      exact .quiet (afterError_quiet _ _)
    · obtain ⟨found, hfind, h⟩ := Option.map_eq_some_iff.mp h
      refine callback_steps (fun key r he => ?_) h
      obtain ⟨hkey, hr, -⟩ := findFirst_eq_some (he ▸ hfind)
      exact ⟨hkey, hr⟩
  · next error hpc =>
    split at h
    · cases h
      exact .quiet fun _ _ _ => TransactionPc.noConfusion
    · obtain ⟨found, hfind, h⟩ := Option.map_eq_some_iff.mp h
      split at h
      · cases h
        exact .quiet fun _ _ _ => TransactionPc.noConfusion
      · next key r =>
        obtain ⟨hkey, hr, -⟩ := findFirst_eq_some hfind
        exact replay_steps (fun _ _ _ _ => TransactionPc.noConfusion) hkey hr h
  · cases h
  · cases h

/-- What a step makes of the records and the effects: nothing, or one commit. -/
theorem TransactionSteps.commit_or_keep (h : TransactionSteps R K s pid call s' pc') :
    (s'.records = s.records ∧ s'.effects = s.effects ∧ s'.nextId = s.nextId ∧ s'.now = s.now ∧
        ∀ id result, pc' ≠ .returned id result false) ∨
      ∃ records result, s' = committed R K s pid call records result ∧
        pc' = .returned s.nextId result false ∧ records (call.input.recordKey R K) = none ∧
        ∀ key, records key = s.records key ∨
          ∃ r, s.records key = some r ∧ r.expiresAt ≤ call.now ∧
            key ∈ call.input.candidateKeys R K ∧ records key = none := by
  cases h with
  | quiet hpc => exact .inl ⟨rfl, rfl, rfl, rfl, fun id result => hpc id result false⟩
  | replays => exact .inl ⟨rfl, rfl, rfl, rfl, nofun⟩
  | commits hnone => exact .inr ⟨_, _, rfl, rfl, hnone, fun key => .inl rfl⟩
  | @recommits key r result hkey hr hexpired hnone =>
    refine .inr ⟨_, result, rfl, rfl, hnone, fun key' => ?_⟩
    by_cases hk : key' = key
    · subst hk
      exact .inr ⟨r, hr, hexpired, hkey, Table.erase_self⟩
    · exact .inl (Table.erase_of_ne hk)

/-! ### The assertions -/

/-- The record, if there is one, does not expire at this step. -/
def Unexpired (k : RecordKey) (w : TransactionalWorld) (_ : TransactionalLabel) : Prop :=
  ∀ r ∈ w.shared.records k, w.shared.now < r.expiresAt

instance (w : TransactionalWorld) (l : TransactionalLabel) : Decidable (Unexpired k w l) := by
  unfold Unexpired
  infer_instance

/-- Effects are of calls that have started. -/
def EffectsOfCalls (w : TransactionalWorld) : Prop := ∀ e ∈ w.shared.effects, e.call < w.fresh

/-- The record is the one committed with the effect. -/
structure CommittedWith (K : Keyring) (key : RecordKey) (r : IdempotencyRecord) (e : Effect) :
    Prop where
  recordId : e.recordId = r.id
  key : e.key = key
  requestHash : e.requestHash = r.requestHash
  result : completedResult K r = .ok (some e.result)

structure TransactionsOk (K : Keyring) (k : RecordKey) (s : IdempotencyState) : Prop where
  hashes : ∀ key r, s.records key = some r → (∃ digest, key.keyHash = .v1 K.activeKeyId digest) ∧
    ∃ digest, r.requestHash = .v1 K.activeKeyId digest
  recorded : ∀ key r, s.records key = some r → ∃ e ∈ s.effects, CommittedWith K key r e
  ids : ∀ e ∈ s.effects, e.recordId < s.nextId
  distinct : s.effects.Pairwise fun e e' => e.recordId ≠ e'.recordId
  once : s.effects.countP (fun e => e.key = k) ≤ 1
  kept : ∀ e ∈ s.effects, e.key = k → s.records k ≠ none

/-- What holds of a call: where its effects and its answer come from. -/
structure TransactionOk (R : Runtime) (K : Keyring) (pid : ℕ) (call : TransactionCall)
    (s : IdempotencyState) : Prop where
  clock : call.now ≤ s.now
  own : ∀ e ∈ s.effects, e.call = pid → (∃ id result, call.pc = .returned id result false) ∧
    e.key = call.input.recordKey R K ∧ e.requestHash = (call.input.hashes R K).requestHash
  returned : ∀ id result replayed, call.pc = .returned id result replayed →
    ∃ e ∈ s.effects, e.recordId = id ∧ e.key = call.input.recordKey R K ∧
      e.requestHash = (call.input.hashes R K).requestHash ∧ e.result = result

def transactionsOk (R : Runtime) (K : Keyring) (k : RecordKey) :
    Assertions IdempotencyState TransactionCall where
  shared := TransactionsOk K k
  proc := TransactionOk R K

theorem effectsOfCalls_next {l : TransactionalLabel} (h : EffectsOfCalls w)
    (hn : (transactional R K).next w l = some w') : EffectsOfCalls w' := by
  intro e he
  cases Program.move_of_next hn with
  | @spawn input s p hs =>
    obtain ⟨rfl, rfl⟩ := pair_inj hs
    have hlt := h e he
    rw [World.fresh_add]
    omega
  | @step i c p p' s hi hs =>
    obtain ⟨pc', hrun, rfl⟩ := map_pair_inj hs
    rw [World.fresh_put]
    rcases (runIdempotentTransaction_steps hrun).commit_or_keep with ⟨-, heffects, -⟩ |
      ⟨records, result, rfl, -⟩
    · exact h e (heffects ▸ he)
    · rcases List.mem_append.mp he with he | he
      · exact h e he
      · obtain rfl := List.mem_singleton.mp he
        exact World.lt_fresh hi
  | crash hi =>
    rw [World.fresh_kill]
    exact h e he
  | @env e' s hs =>
    obtain ⟨-, -, -, heffects, -⟩ := event_change hs
    exact h e (heffects ▸ he)

theorem effectsOfCalls (h : Reachable (transactional R K).system w) : EffectsOfCalls w := by
  refine h.invariant (I := EffectsOfCalls) (fun w hw => ?_)
    fun w w' l hw _ hn => effectsOfCalls_next hw hn
  obtain rfl : w = ⟨(transactional R K).init, []⟩ := hw
  intro e he
  cases he

theorem transactionsOk_event {e : Event} (h : TransactionsOk K k s)
    (hk : ∀ r ∈ s.records k, s.now < r.expiresAt) (hs : event s e = some s') :
    TransactionsOk K k s' := by
  obtain ⟨-, hid, -, heffects, hrows⟩ := event_change hs
  have hold : ∀ key r, s'.records key = some r → s.records key = some r := by
    intro key r hr
    rcases hrows key with hkeep | ⟨r₀, -, -, -, hnone⟩
    · exact hkeep ▸ hr
    · rw [hnone] at hr
      cases hr
  refine ⟨fun key r hr => h.hashes key r (hold key r hr), fun key r hr => ?_, ?_, ?_, ?_,
    fun e' he' hkey hnone => ?_⟩
  · rw [heffects]
    exact h.recorded key r (hold key r hr)
  · rw [heffects, hid]
    exact h.ids
  · rw [heffects]
    exact h.distinct
  · rw [heffects]
    exact h.once
  · rcases hrows k with hkeep | ⟨r, hr, -, hexpired, -⟩
    · exact h.kept e' (heffects ▸ he') hkey (hkeep ▸ hnone)
    · have hlt := hk r hr
      omega

/-- What a commit does, while the record of `k` has not expired. -/
theorem transactionsOk_commit {records : Table RecordKey IdempotencyRecord}
    {result : OperationResult} (h : TransactionsOk K k s)
    (hk : ∀ r ∈ s.records k, s.now < r.expiresAt) (hclock : call.now ≤ s.now)
    (hnone : records (call.input.recordKey R K) = none)
    (hrows : ∀ key, records key = s.records key ∨ ∃ r, s.records key = some r ∧
      r.expiresAt ≤ call.now ∧ key ∈ call.input.candidateKeys R K ∧ records key = none) :
    TransactionsOk K k (committed R K s pid call records result) := by
  have hold : ∀ key r, records key = some r → s.records key = some r := by
    intro key r hr
    rcases hrows key with hkeep | ⟨r₀, -, -, -, herased⟩
    · exact hkeep ▸ hr
    · rw [herased] at hr
      cases hr
  -- the record of `k` is not one that is deleted
  have hkept : records k = s.records k := by
    rcases hrows k with hkeep | ⟨r, hr, hexpired, -⟩
    · exact hkeep
    · have hlt := hk r hr
      omega
  refine ⟨fun key r hr => ?_, fun key r hr => ?_, fun e he => ?_, ?_, ?_, fun e he hkey => ?_⟩
  · rcases Table.set_eq_some.mp hr with ⟨rfl, rfl⟩ | ⟨-, hr⟩
    · exact ⟨⟨_, rfl⟩, _, rfl⟩
    · exact h.hashes key r (hold key r hr)
  · rcases Table.set_eq_some.mp hr with ⟨rfl, rfl⟩ | ⟨-, hr⟩
    · refine ⟨_, List.mem_append_right _ (List.mem_singleton.mpr rfl), rfl, rfl, rfl, ?_⟩
      exact completedResult_completed result _
    · obtain ⟨e, he, hwith⟩ := h.recorded key r (hold key r hr)
      exact ⟨e, List.mem_append_left _ he, hwith⟩
  · rcases List.mem_append.mp he with he | he
    · exact Nat.lt_succ_of_lt (h.ids e he)
    · obtain rfl := List.mem_singleton.mp he
      exact Nat.lt_succ_self _
  · refine List.pairwise_append.mpr ⟨h.distinct, List.pairwise_singleton _ _, fun e he e' he' => ?_⟩
    obtain rfl := List.mem_singleton.mp he'
    exact Nat.ne_of_lt (h.ids e he)
  · simp only [committed, List.countP_append, List.countP_singleton]
    have honce := h.once
    split_ifs with hnew
    · have hkey : call.input.recordKey R K = k := of_decide_eq_true hnew
      have hzero : s.effects.countP (fun e => e.key = k) = 0 := by
        rw [List.countP_eq_zero]
        intro e he hcond
        rw [hkey, hkept] at hnone
        exact h.kept e he (of_decide_eq_true hcond) hnone
      omega
    · omega
  · by_cases hkk : k = call.input.recordKey R K
    · simp [committed, hkk]
    · rcases List.mem_append.mp he with he | he
      · simp only [committed]
        rw [Table.set_of_ne hkk, hkept]
        exact h.kept e he hkey
      · obtain rfl := List.mem_singleton.mp he
        exact absurd hkey.symm hkk

theorem transactionsOk_step (h : TransactionsOk K k s)
    (hk : ∀ r ∈ s.records k, s.now < r.expiresAt) (hclock : call.now ≤ s.now)
    (hs : runIdempotentTransaction R K s pid call c = some (s', pc')) : TransactionsOk K k s' := by
  rcases (runIdempotentTransaction_steps hs).commit_or_keep with
    ⟨hrecords, heffects, hid, -⟩ | ⟨records, result, rfl, -, hnone, hrows⟩
  · obtain ⟨hhashes, hrecorded, hids, hdistinct, honce, hkept⟩ := h
    refine ⟨?_, ?_, ?_, ?_, ?_, ?_⟩
    · rwa [hrecords]
    · rwa [hrecords, heffects]
    · rwa [heffects, hid]
    · rwa [heffects]
    · rwa [heffects]
    · rwa [hrecords, heffects]
  · exact transactionsOk_commit h hk hclock hnone hrows

theorem transactionOk_step (h : TransactionsOk K k s) (hc : TransactionOk R K pid call s)
    (hs : runIdempotentTransaction R K s pid call c = some (s', pc')) :
    TransactionOk R K pid { call with pc := pc' } s' := by
  -- a call that has returned takes no step, so it had no effect before
  have hfirst : ∀ e ∈ s.effects, e.call ≠ pid := by
    intro e he hpid
    obtain ⟨⟨id, result, hpc⟩, -⟩ := hc.own e he hpid
    rw [runIdempotentTransaction, hpc] at hs
    cases hs
  cases runIdempotentTransaction_steps hs with
  | quiet hpc =>
    exact ⟨hc.clock, fun e he hpid => absurd hpid (hfirst e he),
      fun id result replayed hret => absurd hret (hpc id result replayed)⟩
  | @replays key r result hkey hr hhash hdone =>
    refine ⟨hc.clock, fun e he hpid => absurd hpid (hfirst e he), fun id res replayed hret => ?_⟩
    obtain ⟨rfl, rfl, -⟩ := TransactionPc.returned.inj hret
    obtain ⟨e, he, hwith⟩ := h.recorded key r hr
    refine ⟨e, he, hwith.recordId, ?_, ?_, ?_⟩
    · rw [hwith.key]
      exact recordKey_of_candidate (h.hashes key r hr).1 hkey
    · rw [hwith.requestHash]
      exact hash_of_candidate (h.hashes key r hr).2 hhash
    · exact Option.some.inj (Except.ok.inj (hwith.result.symm.trans hdone))
  | commits | recommits =>
    refine ⟨hc.clock, fun e he hpid => ?_, fun id res replayed hret => ?_⟩
    · rcases List.mem_append.mp he with he | he
      · exact absurd hpid (hfirst e he)
      · obtain rfl := List.mem_singleton.mp he
        exact ⟨⟨_, _, rfl⟩, rfl, rfl⟩
    · obtain ⟨rfl, rfl, -⟩ := TransactionPc.returned.inj hret
      exact ⟨_, List.mem_append_right _ (List.mem_singleton.mpr rfl), rfl, rfl, rfl, rfl⟩

theorem TransactionOk.frame (h : TransactionOk R K pid call s) (hnow : s.now ≤ s'.now)
    (hsub : ∀ e ∈ s.effects, e ∈ s'.effects)
    (hnew : ∀ e ∈ s'.effects, e.call = pid → e ∈ s.effects) : TransactionOk R K pid call s' := by
  refine ⟨h.clock.trans hnow, fun e he hpid => h.own e (hnew e he hpid) hpid,
    fun id result replayed hret => ?_⟩
  obtain ⟨e, he, hrest⟩ := h.returned id result replayed hret
  exact ⟨e, hsub e he, hrest⟩

/-- **The invariant of the transactions**, while the record of `k` does not expire. -/
theorem transactionsOutline : Outline (transactional R K)
    (fun w l => Unexpired k w l ∧ EffectsOfCalls w) (transactionsOk R K k) where
  init := by
    refine TransactionsOk.mk (fun key r hr => ?_) (fun key r hr => ?_) (fun e he => ?_)
      List.Pairwise.nil (Nat.zero_le _) fun e he => ?_
    · cases hr
    · cases hr
    · cases he
    · cases he
  env w e s h hg hs := by
    refine ⟨transactionsOk_event h.shared hg.1 hs, fun j q hq => ?_⟩
    obtain ⟨hnow, -, -, heffects, -⟩ := event_change hs
    refine (h.proc j q hq).frame hnow ?_ ?_
    · rw [heffects]
      exact fun e he => he
    · rw [heffects]
      exact fun e he _ => he
  spawn w input s p h hg hs := by
    obtain ⟨rfl, rfl⟩ := pair_inj hs
    refine ⟨h.shared, ⟨Nat.le_refl _, fun e he hpid => ?_, fun id result replayed hret => ?_⟩,
      fun j q hq => ⟨h.proc j q hq, trivial, trivial⟩⟩
    · have hlt := hg.2 e he
      omega
    · cases hret
  step w i p c s p' h hi hg hs := by
    obtain ⟨pc', hrun, rfl⟩ := map_pair_inj hs
    have hp := h.proc i p hi
    exact ⟨transactionsOk_step h.shared hg.1 hp.clock hrun, transactionOk_step h.shared hp hrun⟩
  frame w i p c s p' h hi hg hs j q hj hq := by
    obtain ⟨pc', hrun, rfl⟩ := map_pair_inj hs
    refine ⟨?_, trivial, trivial⟩
    rcases (runIdempotentTransaction_steps hrun).commit_or_keep with
      ⟨-, heffects, -, hnow, -⟩ | ⟨records, result, rfl, -⟩
    · refine (h.proc j q hq).frame hnow.ge ?_ ?_
      · rw [heffects]
        exact fun e he => he
      · rw [heffects]
        exact fun e he _ => he
    · refine (h.proc j q hq).frame (Nat.le_refl _) (fun e he => List.mem_append_left _ he)
        fun e he hpid => ?_
      rcases List.mem_append.mp he with he | he
      · exact he
      · obtain rfl := List.mem_singleton.mp he
        exact absurd hpid.symm hj

/-! ### The result -/

/-- What holds of the calls of one key. -/
structure ExactlyOnce (R : Runtime) (K : Keyring) (k : RecordKey) (w : TransactionalWorld) :
    Prop where
  once : w.shared.effects.countP (fun e => e.key = k) ≤ 1
  /-- A call that returns answers with the result that was committed for its own request. -/
  returned : ∀ i call id result replayed, w.proc? i = some call →
    call.input.recordKey R K = k → call.pc = .returned id result replayed →
    ∃ e ∈ w.shared.effects, e.key = k ∧ e.requestHash = (call.input.hashes R K).requestHash ∧
      e.result = result
  /-- A call with another request than the committed one has no effect, and does not return. -/
  different : ∀ i call e, w.proc? i = some call → call.input.recordKey R K = k →
    e ∈ w.shared.effects → e.key = k → e.requestHash ≠ (call.input.hashes R K).requestHash →
    (∀ e' ∈ w.shared.effects, e'.call ≠ i) ∧
      ∀ id result replayed, call.pc ≠ .returned id result replayed
  /-- A call that has thrown has no effect, and every record is that of another call's effect. -/
  thrown : ∀ i call error, w.proc? i = some call → call.pc = .thrown error →
    (∀ e ∈ w.shared.effects, e.call ≠ i) ∧ ∀ key r, w.shared.records key = some r →
      ∃ e ∈ w.shared.effects, e.recordId = r.id ∧ e.key = key ∧ e.call ≠ i
  distinct : w.shared.effects.Pairwise fun e e' => e.recordId ≠ e'.recordId
  /-- A step that does not return changes nothing. -/
  rolledBack : ∀ i c w' call, (transactional R K).next w (.step i c) = some w' →
    w'.proc? i = some call → (∀ id result replayed, call.pc ≠ .returned id result replayed) →
    w'.shared = w.shared

theorem eq_of_countP_le_one {α : Type*} {p : α → Bool} {l : List α} (h : l.countP p ≤ 1) {a b : α}
    (ha : a ∈ l) (hb : b ∈ l) (hpa : p a = true) (hpb : p b = true) : a = b := by
  rw [List.countP_eq_length_filter] at h
  have ha' : a ∈ l.filter p := List.mem_filter.mpr ⟨ha, hpa⟩
  have hb' : b ∈ l.filter p := List.mem_filter.mpr ⟨hb, hpb⟩
  generalize l.filter p = found at h ha' hb'
  match found, h with
  | [c], _ =>
    rw [List.mem_singleton.mp ha', List.mem_singleton.mp hb']

theorem rolledBack_next {i : ℕ} (hn : (transactional R K).next w (.step i c) = some w')
    (hi : w'.proc? i = some call)
    (hpc : ∀ id result replayed, call.pc ≠ .returned id result replayed) :
    w'.shared = w.shared := by
  cases Program.move_of_next hn with
  | @step _ _ p p' s hp hs =>
    obtain ⟨pc', hrun, rfl⟩ := map_pair_inj hs
    obtain rfl := Option.some.inj ((World.proc?_put_self hp).symm.trans hi)
    cases runIdempotentTransaction_steps hrun with
    | quiet => rfl
    | replays | commits | recommits => exact absurd rfl (hpc _ _ _)

/-- **Exactly once**, in every run in which the record of the key does not expire. -/
theorem exactly_once (R : Runtime) (K : Keyring) (k : RecordKey) (w : TransactionalWorld)
    (h : ReachableBy (transactional R K).system (Unexpired k) w) : ExactlyOnce R K k w := by
  have hw := transactionsOutline.holds
    (h.strengthen (I := EffectsOfCalls) fun w hw => effectsOfCalls hw.reachable)
  refine ⟨hw.shared.once, fun i call id result replayed hi hkey hpc => ?_,
    fun i call e hi hkey he hek hne => ?_, fun i call error hi hpc => ?_, hw.shared.distinct,
    fun i c w' call hn hi hpc => rolledBack_next hn hi hpc⟩
  · obtain ⟨e, he, -, hek, hhash, hres⟩ := (hw.proc i call hi).returned id result replayed hpc
    exact ⟨e, he, hek.trans hkey, hhash, hres⟩
  · have hsame : ∀ e' ∈ w.shared.effects, e'.key = call.input.recordKey R K →
        e'.requestHash ≠ (call.input.hashes R K).requestHash := by
      intro e' he' hek'
      have heq : e' = e := eq_of_countP_le_one hw.shared.once he' he
        (decide_eq_true (hek'.trans hkey)) (decide_eq_true hek)
      rwa [heq]
    refine ⟨fun e' he' hcall => ?_, fun id result replayed hpc => ?_⟩
    · obtain ⟨-, hek', hhash⟩ := (hw.proc i call hi).own e' he' hcall
      exact hsame e' he' hek' hhash
    · obtain ⟨e', he', -, hek', hhash, -⟩ :=
        (hw.proc i call hi).returned id result replayed hpc
      exact hsame e' he' hek' hhash
  · have hnone : ∀ e ∈ w.shared.effects, e.call ≠ i := by
      intro e he hcall
      obtain ⟨⟨id, result, hret⟩, -⟩ := (hw.proc i call hi).own e he hcall
      rw [hpc] at hret
      cases hret
    refine ⟨hnone, fun key r hr => ?_⟩
    obtain ⟨e, he, hwith⟩ := hw.shared.recorded key r hr
    exact ⟨e, he, hwith.recordId, hwith.key, hnone e he⟩

def exampleInput (request : String) : IdempotencyInput where
  actorKey := "user:u1"
  scope := "permission-epoch.increment"
  key := "same-logical-operation"
  request := request

/-- Two calls race: the first commits, the create of the second meets the unique index, and it
replays the winner. A third call has another request. -/
theorem exactly_once_race : ∃ w,
    (∃ result, (w.proc? 1).map (·.pc) = some (.returned 0 result true)) ∧
      (w.proc? 2).map (·.pc) = some (.thrown differentRequest) ∧
      ExactlyOnce exampleRuntime exampleKeyring
        ((exampleInput "r1").recordKey exampleRuntime exampleKeyring) w := by
  obtain ⟨w, hw, hreplayed, hthrown⟩ :=
    (transactional exampleRuntime exampleKeyring).exists_reached
      (Unexpired ((exampleInput "r1").recordKey exampleRuntime exampleKeyring))
      [.spawn (exampleInput "r1"), .spawn (exampleInput "r1"), .spawn (exampleInput "r2"),
        .step 0 {}, .step 1 { ending := .keyConflict }, .step 1 {}, .step 2 {}]
      (fun w => (w.proc? 1).map (·.pc) = some (.returned 0 ⟨200, "null"⟩ true) ∧
        (w.proc? 2).map (·.pc) = some (.thrown differentRequest)) (by decide)
  exact ⟨w, ⟨_, hreplayed⟩, hthrown, exactly_once exampleRuntime exampleKeyring _ w hw⟩

end BackendFoundation.Idempotency.Transaction
