import BackendFoundation.Idempotency.Model

/-! # What a call of `runIdempotent` does to the records

`Steps` lists the effects a step of a call can have, with the guard of each and where the call goes
on; `runIdempotent_steps` says that these are all. `Change` is what they come to for the record of
one index, together with what the retention sweep does (`retention_change`). -/

namespace BackendFoundation.Idempotency.Leases

open Lib Errors Crypto Idempotency.Model
open Option (some.inj)

variable {R : Runtime} {K : Keyring} {s s' : IdempotencyState} {pid : ℕ} {call : Call}

/-! ### The statements -/

theorem updateRecord_cases (s : IdempotencyState) (key : RecordKey) (id : ℕ)
    (cond : IdempotencyRecord → Prop) [DecidablePred cond]
    (data : IdempotencyRecord → IdempotencyRecord) :
    (∃ r, s.records key = some r ∧ r.id = id ∧ cond r ∧
        s.updateRecord key id cond data = ({ s with records := s.records.set key (data r) }, 1)) ∨
      s.updateRecord key id cond data = (s, 0) := by
  unfold IdempotencyState.updateRecord
  rcases s.records.updateWhere_cases key
    (fun record => record.deletedAt = none ∧ record.id = id ∧ cond record) data with
    ⟨r, hr, ⟨-, hid, hc⟩, he⟩ | ⟨-, he⟩
  · exact .inl ⟨r, hr, hid, hc, by rw [he]⟩
  · exact .inr (by rw [he])

theorem deleteExpired_cases (s : IdempotencyState) (key : RecordKey) (id now : ℕ) :
    (∃ r, s.records key = some r ∧ r.statusCode ≠ none ∧ r.expiresAt ≤ now ∧
        s.deleteExpired key id now = { s with records := s.records.erase key }) ∨
      s.deleteExpired key id now = s := by
  unfold IdempotencyState.deleteExpired
  rcases s.records.eraseWhere_cases key (fun record =>
    record.deletedAt = none ∧ record.id = id ∧ record.expiresAt ≤ now ∧ record.statusCode ≠ none)
    with ⟨r, hr, ⟨-, -, hx, hst⟩, he⟩ | he
  · exact .inl ⟨r, hr, hst, hx, by rw [he]⟩
  · exact .inr (by rw [he])

variable {key : RecordKey}

theorem createRecord_eq_some {record : IdempotencyRecord}
    (h : s.createRecord key record = some s') : s.records key = none ∧
      s' = { s with nextId := s.nextId + 1, records := s.records.set key record } := by
  unfold IdempotencyState.createRecord at h
  split at h
  · cases h
  · next hnone => exact ⟨hnone, (some.inj h).symm⟩

theorem findFirst_eq_some {keys : List RecordKey} {pick : ℕ} {record : IdempotencyRecord}
    (h : s.findFirst keys pick = some (some (key, record))) :
    key ∈ keys ∧ s.records key = some record ∧ record.deletedAt = none := by
  have hmem : (key, record) ∈ s.liveRecords keys := by
    unfold IdempotencyState.findFirst at h
    split at h
    · cases h
    · obtain ⟨found, hfound, he⟩ := Option.map_eq_some_iff.mp h
      rw [← some.inj he]
      exact List.mem_of_getElem? hfound
  obtain ⟨k, hk, hrow⟩ := List.mem_filterMap.mp hmem
  obtain ⟨r, hr, he⟩ := Option.map_eq_some_iff.mp hrow
  obtain ⟨rfl, rfl⟩ := Prod.mk.inj he
  obtain ⟨hr, hlive⟩ := Option.filter_eq_some_iff.mp hr
  exact ⟨hk, hr, of_decide_eq_true hlive⟩

theorem completedResult_saved (result : OperationResult) (r : IdempotencyRecord) :
    completedResult K (r.saved K result) = .ok (some result) := by
  simp [completedResult, IdempotencyRecord.saved, encryptResponse, decryptResponse, Except.map]

variable {r : IdempotencyRecord}

theorem statusCode_of_completed {result : OperationResult}
    (h : completedResult K r = .ok (some result)) : r.statusCode ≠ none := by
  intro hnone
  simp [completedResult, hnone] at h

/-! ### The hashes

Under a fixed keyring every stored hash is under the active key. -/

theorem hash_of_candidate {input : IdempotencyInput}
    (hr : ∃ digest, r.requestHash = .v1 K.activeKeyId digest)
    (h : r.requestHash ∈ (input.hashes R K).requestHashCandidates) :
    r.requestHash = (input.hashes R K).requestHash := by
  obtain ⟨digest, he⟩ := hr
  rw [he] at h ⊢
  exact eq_hashMetadata_of_mem R K h

theorem recordKey_of_candidate {input : IdempotencyInput}
    (hk : ∃ digest, key.keyHash = .v1 K.activeKeyId digest) (h : key ∈ input.candidateKeys R K) :
    key = input.recordKey R K := by
  obtain ⟨digest, he⟩ := hk
  obtain ⟨keyHash, hmem, rfl⟩ := List.mem_map.mp h
  rw [show keyHash = .v1 K.activeKeyId digest from he] at hmem ⊢
  exact congrArg _ (eq_hashMetadata_of_mem R K hmem)

/-! ### The steps of a call -/

/-- The effects of a step, from the program point of the call, with the state and the program point
they leave. -/
inductive Steps (R : Runtime) (K : Keyring) (s : IdempotencyState) (pid : ℕ) (call : Call) :
    IdempotencyState → CallPc → Prop
  | throws {e : Thrown} : Steps R K s pid call s (.thrown e)
  | noRecord : call.pc = .find ∨ (∃ key id, call.pc = .deleteExpired key id) →
      Steps R K s pid call s .create
  | expired {key : RecordKey} {id : ℕ} : call.pc = .find →
      Steps R K s pid call s (.deleteExpired key id)
  | replays {key : RecordKey} {r : IdempotencyRecord} {result : OperationResult} :
      call.pc = .find → s.records key = some r → completedResult K r = .ok (some result) →
      Steps R K s pid call (s.answer r.id result true) (.returned r.id result true)
  | found {key : RecordKey} {r : IdempotencyRecord} : call.pc = .find →
      key ∈ call.input.candidateKeys R K → s.records key = some r →
      r.requestHash ∈ (call.input.hashes R K).requestHashCandidates →
      Steps R K s pid call s (.acquire key r.id)
  | deletes {key : RecordKey} {id : ℕ} {r : IdempotencyRecord} {pc' : CallPc} :
      call.pc = .deleteExpired key id → s.records key = some r → r.statusCode ≠ none →
      (pc' = .create ∨ ∃ e, pc' = .thrown e) →
      Steps R K s pid call { s with records := s.records.erase key } pc'
  | acquires {key : RecordKey} {r : IdempotencyRecord} {pc' : CallPc} :
      call.pc = .acquire key r.id → s.records key = some r → r.statusCode = none → r.Free call.now →
      (pc' = .operation key r.id ∨ ∃ e, pc' = .thrown e) →
      Steps R K s pid call
        { s with
          records := s.records.set key (r.acquired pid call.lockedUntil call.expiresAt) } pc'
  | creates {pc' : CallPc} : call.pc = .create → s.records (call.input.recordKey R K) = none →
      (pc' = .operation (call.input.recordKey R K) s.nextId ∨ ∃ e, pc' = .thrown e) →
      Steps R K s pid call
        { s with
          nextId := s.nextId + 1
          records := s.records.set (call.input.recordKey R K)
            (call.newRecord R K pid s.nextId) } pc'
  | starts {key : RecordKey} {id : ℕ} : call.pc = .operation key id →
      Steps R K s pid call s (.running key id)
  | ends {key : RecordKey} {id : ℕ} {result : OperationResult} : call.pc = .running key id →
      Steps R K s pid call s (.save key id result)
  | fails {key : RecordKey} {id : ℕ} {e : Thrown} :
      (call.pc = .running key id ∨ ∃ result, call.pc = .save key id result) →
      Steps R K s pid call s (.release key id e)
  | saves {key : RecordKey} {r : IdempotencyRecord} {result : OperationResult} :
      call.pc = .save key r.id result → s.records key = some r → r.lockToken = some pid →
      r.statusCode = none →
      Steps R K s pid call
        (IdempotencyState.answer
          { s with records := s.records.set key (r.saved K result) } r.id result false)
        (.returned r.id result false)
  | savesUnseen {key : RecordKey} {r : IdempotencyRecord} {result : OperationResult} {e : Thrown} :
      call.pc = .save key r.id result → s.records key = some r → r.lockToken = some pid →
      r.statusCode = none →
      Steps R K s pid call { s with records := s.records.set key (r.saved K result) }
        (.release key r.id e)
  | releases {key : RecordKey} {r : IdempotencyRecord} {error e : Thrown} :
      call.pc = .release key r.id error → s.records key = some r → r.lockToken = some pid →
      r.statusCode = none →
      Steps R K s pid call { s with records := s.records.set key (r.released call.now) } (.thrown e)

variable {pc' : CallPc}

theorem useRecord_steps (hpc : call.pc = .find) (hkey : key ∈ call.input.candidateKeys R K)
    (hr : s.records key = some r) (h : useRecord R K s call key r = (s', pc')) :
    Steps R K s pid call s' pc' := by
  unfold useRecord at h
  split_ifs at h with hhash
  · split at h
    · cases h
      exact .throws
    · next result hresult =>
      cases h
      exact .replays hpc hr hresult
    · cases h
      exact .found hpc hkey hr hhash
  · cases h
    exact .throws

theorem afterFind_steps {found : Option (RecordKey × IdempotencyRecord)} (hpc : call.pc = .find)
    (hf : ∀ key r, found = some (key, r) →
      key ∈ call.input.candidateKeys R K ∧ s.records key = some r)
    (h : afterFind R K s call found = (s', pc')) : Steps R K s pid call s' pc' := by
  unfold afterFind at h
  split at h
  · cases h
    exact .noRecord (.inl hpc)
  · next key r =>
    obtain ⟨hkey, hr⟩ := hf key r rfl
    split_ifs at h
    · split at h
      · cases h
        exact .throws
      · cases h
        exact .expired hpc
      · exact useRecord_steps hpc hkey hr h
    · exact useRecord_steps hpc hkey hr h

/-- **What a step of a call can do.** -/
theorem runIdempotent_steps {c : Choice} (h : runIdempotent R K s pid call c = some (s', pc')) :
    Steps R K s pid call s' pc' := by
  unfold runIdempotent at h
  split at h
  case h_1 hpc =>
    split at h
    · cases h
    · next found hfind =>
      have hf : ∀ key r, found = some (key, r) →
          key ∈ call.input.candidateKeys R K ∧ s.records key = some r := by
        rintro key r rfl
        obtain ⟨hkey, hr, -⟩ := findFirst_eq_some hfind
        exact ⟨hkey, hr⟩
      split at h
      · exact afterFind_steps hpc hf (some.inj h)
      · cases h
        exact .throws
      · cases h
        exact .throws
  case h_2 key id hpc =>
    have hrun := some.inj h
    rcases deleteExpired_cases s key id call.now with ⟨r, hr, hst, -, he⟩ | he
    · rw [he] at hrun
      exact Outcome.run_elim hrun (.deletes hpc hr hst (.inl rfl)) (fun _ => .throws)
        fun e => .deletes hpc hr hst (.inr ⟨e, rfl⟩)
    · rw [he] at hrun
      exact Outcome.run_elim hrun (.noRecord (.inr ⟨key, id, hpc⟩)) (fun _ => .throws)
        fun _ => .throws
  case h_3 key id hpc =>
    have hrun := some.inj h
    rcases updateRecord_cases s key id
      (fun record => record.statusCode = none ∧ record.Free call.now)
      (IdempotencyRecord.acquired pid call.lockedUntil call.expiresAt) with
      ⟨r, hr, rfl, ⟨hst, hfree⟩, he⟩ | he
    · rw [he] at hrun
      exact Outcome.run_elim hrun (.acquires hpc hr hst hfree (.inl rfl)) (fun _ => .throws)
        fun e => .acquires hpc hr hst hfree (.inr ⟨e, rfl⟩)
    · rw [he] at hrun
      exact Outcome.run_elim hrun .throws (fun _ => .throws) fun _ => .throws
  case h_4 hpc =>
    split at h
    · cases h
      exact .throws
    · next created hcreated =>
      obtain ⟨hnone, rfl⟩ := createRecord_eq_some hcreated
      exact Outcome.run_elim (some.inj h) (.creates hpc hnone (.inl rfl)) (fun _ => .throws)
        fun e => .creates hpc hnone (.inr ⟨createError e, rfl⟩)
  case h_5 key id hpc =>
    cases h
    exact .starts hpc
  case h_6 key id hpc =>
    split at h
    · cases h
      exact .ends hpc
    · cases h
      exact .fails (.inl hpc)
  case h_7 key id result hpc =>
    simp only [] at h
    rcases updateRecord_cases s key id
      (fun record => record.lockToken = some pid ∧ record.statusCode = none)
      (IdempotencyRecord.saved K result) with ⟨r, hr, rfl, ⟨htok, hst⟩, he⟩ | he
    · rw [he] at h
      split at h
      · simp only [ne_eq, not_true_eq_false, if_false] at h
        cases h
        exact .saves hpc hr htok hst
      · cases h
        exact .fails (.inr ⟨result, hpc⟩)
      · cases h
        exact .savesUnseen hpc hr htok hst
    · rw [he] at h
      split at h
      · simp only [ne_eq, Nat.zero_ne_one, not_false_eq_true, if_true] at h
        cases h
        exact .fails (.inr ⟨result, hpc⟩)
      · cases h
        exact .fails (.inr ⟨result, hpc⟩)
      · cases h
        exact .fails (.inr ⟨result, hpc⟩)
  case h_8 key id error hpc =>
    have hrun := some.inj h
    rcases updateRecord_cases s key id
      (fun record => record.lockToken = some pid ∧ record.statusCode = none)
      (IdempotencyRecord.released call.now) with ⟨r, hr, rfl, ⟨htok, hst⟩, he⟩ | he
    · rw [he] at hrun
      exact Outcome.run_elim hrun (.releases hpc hr htok hst) (fun _ => .throws)
        fun _ => .releases hpc hr htok hst
    · rw [he] at hrun
      exact Outcome.run_elim hrun .throws (fun _ => .throws) fun _ => .throws
  case h_9 => cases h
  case h_10 => cases h

/-! ### The record of one index -/

/-- What a step of a call comes to for the record of an index. -/
inductive Change (R : Runtime) (K : Keyring) (s : IdempotencyState) (pid : ℕ) (call : Call)
    (key : RecordKey) : Option IdempotencyRecord → Option IdempotencyRecord → Prop
  | same {o : Option IdempotencyRecord} : Change R K s pid call key o o
  | create : call.pc = .create →
      Change R K s pid call key none (some (call.newRecord R K pid s.nextId))
  | acquire {r : IdempotencyRecord} : call.pc = .acquire key r.id → r.statusCode = none →
      r.Free call.now →
      Change R K s pid call key (some r)
        (some (r.acquired pid call.lockedUntil call.expiresAt))
  | save {r : IdempotencyRecord} {result : OperationResult} : call.pc = .save key r.id result →
      r.lockToken = some pid → r.statusCode = none →
      Change R K s pid call key (some r) (some (r.saved K result))
  | release {r : IdempotencyRecord} {error : Thrown} : call.pc = .release key r.id error →
      r.lockToken = some pid → r.statusCode = none →
      Change R K s pid call key (some r) (some (r.released call.now))
  | delete {r : IdempotencyRecord} : r.statusCode ≠ none → Change R K s pid call key (some r) none

variable {r' : IdempotencyRecord}

theorem Change.of_set {k key : RecordKey} (h : Change R K s pid call k (s.records k) (some r')) :
    Change R K s pid call key (s.records key) (s.records.set k r' key) := by
  by_cases hk : key = k
  · subst hk
    rwa [Table.set_self]
  · rw [Table.set_of_ne hk]
    exact .same

theorem Steps.change (h : Steps R K s pid call s' pc') (key : RecordKey) :
    Change R K s pid call key (s.records key) (s'.records key) := by
  cases h with
  | throws | noRecord | expired | replays | found | starts | ends | fails => exact .same
  | @deletes k id r _ hpc hr hst =>
    by_cases hk : key = k
    · subst hk
      simp only [hr, Table.erase_self]
      exact .delete hst
    · simp only [Table.erase_of_ne hk]
      exact .same
  | acquires hpc hr hst hfree => exact .of_set (hr ▸ .acquire hpc hst hfree)
  | creates hpc hnone => exact .of_set (hnone ▸ .create hpc)
  | saves hpc hr htok hst => exact .of_set (hr ▸ .save hpc htok hst)
  | savesUnseen hpc hr htok hst => exact .of_set (hr ▸ .save hpc htok hst)
  | releases hpc hr htok hst => exact .of_set (hr ▸ .release hpc htok hst)

theorem Steps.now_eq (h : Steps R K s pid call s' pc') : s'.now = s.now := by
  cases h <;> rfl

theorem Steps.nextId_le (h : Steps R K s pid call s' pc') : s.nextId ≤ s'.nextId := by
  cases h
  case creates => exact Nat.le_succ _
  all_goals exact Nat.le_refl _

theorem Steps.created (h : Steps R K s pid call s' pc') (hr : s.records key = none)
    (hr' : s'.records key = some r') :
    key = call.input.recordKey R K ∧ r' = call.newRecord R K pid s.nextId ∧
      s'.nextId = s.nextId + 1 := by
  have hsame (hkeep : s'.records key = s.records key) : False := by
    rw [hr', hr] at hkeep
    cases hkeep
  have hset {k : RecordKey} {r v : IdempotencyRecord} (hk : s.records k = some r)
      (he : s'.records = s.records.set k v) : False := by
    refine hsame ((congrFun he key).trans (Table.set_of_ne ?_))
    rintro rfl
    exact absurd (hk.symm.trans hr) nofun
  cases h with
  | throws | noRecord | expired | replays | found | starts | ends | fails =>
    exact (hsame rfl).elim
  | deletes hpc hk hst =>
    obtain ⟨-, hr'⟩ := Table.erase_eq_some.mp hr'
    exact absurd (hr'.symm.trans hr) nofun
  | acquires hpc hk => exact (hset hk rfl).elim
  | creates hpc hnone =>
    rcases Table.set_eq_some.mp hr' with ⟨rfl, rfl⟩ | ⟨-, hr'⟩
    · exact ⟨rfl, rfl, rfl⟩
    · exact absurd (hr'.symm.trans hr) nofun
  | saves hpc hk | savesUnseen hpc hk | releases hpc hk => exact (hset hk rfl).elim

theorem Change.keeps {r r' : IdempotencyRecord} (h : Change R K s pid call key (some r) (some r'))
    (hlocked : r.lockToken ≠ none → r.statusCode = none) :
    r'.id = r.id ∧ r'.requestHash = r.requestHash ∧
      (r'.lockToken ≠ none → r'.statusCode = none) ∧ (r.statusCode ≠ none → r' = r) := by
  cases h with
  | same => exact ⟨rfl, rfl, hlocked, fun _ => rfl⟩
  | acquire hpc hst => exact ⟨rfl, rfl, fun _ => hst, fun hne => absurd hst hne⟩
  | save hpc htok hst => exact ⟨rfl, rfl, fun hne => absurd rfl hne, fun hne => absurd hst hne⟩
  | release hpc htok hst => exact ⟨rfl, rfl, fun hne => absurd rfl hne, fun hne => absurd hst hne⟩

theorem Change.row_of {o : Option IdempotencyRecord} (h : Change R K s pid call key o (some r')) :
    (o = none ∧ call.pc = .create ∧ r' = call.newRecord R K pid s.nextId) ∨
      ∃ r, o = some r ∧ r'.id = r.id ∧ r'.requestHash = r.requestHash := by
  cases h with
  | same => exact .inr ⟨r', rfl, rfl, rfl⟩
  | create hpc => exact .inl ⟨rfl, hpc, rfl⟩
  | @acquire r => exact .inr ⟨r, rfl, rfl, rfl⟩
  | @save r => exact .inr ⟨r, rfl, rfl, rfl⟩
  | @release r => exact .inr ⟨r, rfl, rfl, rfl⟩

/-- **The retention sweep deletes complete expired records only.** -/
theorem retentionDelete_records (s : IdempotencyState) (now : ℕ) (ids : List RecordKey)
    (key : RecordKey) : (s.retentionDelete now ids).records key = s.records key ∨
      ∃ r, s.records key = some r ∧ r.statusCode ≠ none ∧ r.expiresAt < now ∧
        (s.retentionDelete now ids).records key = none := by
  unfold IdempotencyState.retentionDelete
  simp only []
  generalize s.records = records
  induction ids generalizing records with
  | nil => exact .inl rfl
  | cons id ids ih =>
    simp only [List.foldl_cons]
    rcases records.eraseWhere_cases id (fun record => record.deletedAt = none ∧
      record.expiresAt < now ∧ record.statusCode ≠ none ∧ record.response ≠ none) with
      ⟨r, hr, ⟨-, hx, hst, -⟩, he⟩ | he
    · rw [he]
      by_cases hk : key = id
      · subst hk
        -- the row is gone, and the rest of the batch brings none back
        rcases ih (records.erase key) with hkeep | ⟨r', hr', -⟩
        · exact .inr ⟨r, hr, hst, hx, hkeep.trans Table.erase_self⟩
        · exact absurd (hr'.symm.trans Table.erase_self) nofun
      · rcases ih (records.erase id) with hkeep | ⟨r', hr', h⟩
        · exact .inl (hkeep.trans (Table.erase_of_ne hk))
        · exact .inr ⟨r', (Table.erase_of_ne hk).symm.trans hr', h⟩
    · rw [he]
      exact ih records

theorem event_change {e : Event} (h : event s e = some s') :
    s.now ≤ s'.now ∧ s'.nextId = s.nextId ∧ s'.answers = s.answers ∧ s'.effects = s.effects ∧
      ∀ key, s'.records key = s.records key ∨
        ∃ r, s.records key = some r ∧ r.statusCode ≠ none ∧ r.expiresAt < s.now ∧
          s'.records key = none := by
  cases e with
  | tick ms =>
    obtain rfl := some.inj h
    exact ⟨Nat.le_add_right _ _, rfl, rfl, rfl, fun key => .inl rfl⟩
  | retention now ids =>
    simp only [event] at h
    split_ifs at h with hnow
    obtain rfl := some.inj h
    refine ⟨Nat.le_refl _, rfl, rfl, rfl, fun key => ?_⟩
    rcases retentionDelete_records s now ids key with hkeep | ⟨r, hr, hst, hx, he⟩
    · exact .inl hkeep
    · exact .inr ⟨r, hr, hst, Nat.lt_of_lt_of_le hx hnow, he⟩

end BackendFoundation.Idempotency.Leases
