import BackendFoundation.Uploads.Model

/-! # What a call does to an upload

`writeOf` is the write of a row that a call is about to send, and `deletionOf`
the object that it is about to delete. `step_effect` says that a step does nothing else to the
uploads and the objects, but for a reservation. -/

namespace BackendFoundation.Uploads.Writes

open Errors Lib Uploads.Model
open Option (some.inj map_eq_some_iff)

/-- A write of one row, which finds the row if it is visible and meets the condition. -/
structure RowWrite where
  scope : Option String
  uploadId : ℕ
  cond : Upload → Bool := anyUpload
  data : Upload → Upload

def RowWrite.apply (write : RowWrite) (s : UploadState) : UploadState :=
  s.updateMany write.scope write.uploadId write.cond write.data

def RowWrite.finds (write : RowWrite) (u : Upload) : Bool :=
  visible write.scope u && write.cond u

/-- The write that a call is about to send at this time. -/
def writeOf (now : ℤ) : UploadCall → Option RowWrite
  | .initiateUpload call (.updateExpiry uploadId expiresAt) =>
    some { scope := call.scope, uploadId, data := fun u => { u with uploadExpiresAt := expiresAt } }
  | .initiateUpload call (.markFailed uploadId _) =>
    some { scope := call.scope, uploadId, data := Upload.failed }
  | .completeUpload call .failMismatch =>
    some { scope := call.scope, uploadId := call.uploadId, data := Upload.failed }
  | .completeUpload call (.rejectSignature detected) =>
    some {
      scope := call.scope
      uploadId := call.uploadId
      data := Upload.signatureRejected detected }
  | .completeUpload call (.quarantine _ stored detected) =>
    some {
      scope := call.scope
      uploadId := call.uploadId
      cond := fun u => decide (u.userId = call.userId) && completable u
      data := Upload.quarantined stored detected }
  | .completeUpload call .finalize =>
    some {
      scope := call.scope
      uploadId := call.uploadId
      data := Upload.finalized signatureOnly now }
  | .completeUpload call (.requestScan _) =>
    some { scope := call.scope, uploadId := call.uploadId, data := Upload.scanning }
  | .processUploadScan uploadId .markRejected | .processUploadScan uploadId .markMalicious =>
    some {
      scope := none
      uploadId
      cond := fun u => u.status = .rejected ∧ u.storageDeletedAt = none
      data := Upload.storageDeleted now }
  | .processUploadScan uploadId (.markScanning _) =>
    some { scope := none, uploadId, cond := scannable, data := Upload.scanning }
  | .processUploadScan uploadId (.finalize upload scan) =>
    some { scope := upload.organizationId, uploadId, data := Upload.finalized scan now }
  | .processUploadScan uploadId (.markError _) =>
    some {
      scope := none
      uploadId
      cond := fun u => u.status = .scanning
      data := Upload.scanError }
  | .deleteUpload call .markDeleted =>
    some { scope := call.scope, uploadId := call.uploadId, data := Upload.erased now }
  | .expirePendingUploads _ (.markFailed _ uploadId _) =>
    some {
      scope := none
      uploadId
      cond := fun u => u.status = .pending
      data := Upload.failed }
  | _ => none

/-- The object that a call is about to delete, and its upload. -/
def deletionOf : UploadCall → Option (ℕ × String)
  | .completeUpload call (.deleteMismatch upload) => some (call.uploadId, upload.objectKey)
  | .completeUpload call (.deleteSignature upload _) => some (call.uploadId, upload.objectKey)
  | .processUploadScan uploadId (.deleteRejected upload) => some (uploadId, upload.objectKey)
  | .processUploadScan uploadId (.deleteMalicious upload) => some (uploadId, upload.objectKey)
  | .deleteUpload call (.deleteObject upload) => some (call.uploadId, upload.objectKey)
  | .expirePendingUploads _ (.deleteObject _ uploadId objectKey _) => some (uploadId, objectKey)
  | _ => none

/-- The scan that a call requests is a new one. -/
def RequestsNewScan (s : UploadState) : UploadCall → Prop
  | .completeUpload call (.requestScan stored) => scanDedupeKey call.uploadId stored ∉ s.dedupeKeys
  | _ => True

/-- What one step of a call does to the uploads and the objects. -/
inductive StepEffect (cfg : UploadConfig) (provider : UploadProvider) (s : UploadState)
    (call : UploadCall) (answer : Answer) : UploadState → Prop
  | keeps : StepEffect cfg provider s call answer s
  | writes {write : RowWrite} {t : UploadState} (hwrite : writeOf s.now call = some write)
      (hnew : RequestsNewScan s call) (hanswer : ∃ o, answer = .call o ∧ o.TakesEffect)
      (huploads : t.uploads = (write.apply s).uploads) (hobjects : t.objects = s.objects)
      (hnow : t.now = s.now) : StepEffect cfg provider s call answer t
  | deletes {uploadId : ℕ} {objectKey : String}
      (hdeletion : deletionOf call = some (uploadId, objectKey))
      (hanswer : ∃ o, answer = .call o ∧ o.TakesEffect) :
      StepEffect cfg provider s call answer (s.deleteObject provider objectKey)
  | reserves {init : InitiateUpload} {expiresAt : ℤ} {t : UploadState}
      (hcall : call = .initiateUpload init (.reserve expiresAt))
      (hanswer : ∃ o, answer = .call o ∧ o.TakesEffect)
      (h : reserveUpload cfg provider init expiresAt s = .ok t) :
      StepEffect cfg provider s call answer t

variable {cfg : UploadConfig} {provider : UploadProvider} {s t : UploadState}

variable {result : Except Thrown UploadState}

theorem attempt_cases {P : Type} {o : Outcome Thrown} {p q : P} {f : Thrown → P}
    (h : attempt o s result p f = (t, q)) : t = s ∨ o.TakesEffect ∧ result = .ok t := by
  unfold attempt at h
  split at h
  · rcases Outcome.run_effect h with rfl | ⟨ho, rfl⟩
    · exact .inl rfl
    · exact .inr ⟨ho, rfl⟩
  · exact .inl (Outcome.read_cases h).1

theorem attempt_pc {P : Type} {o : Outcome Thrown} {p q : P} {f : Thrown → P}
    (h : attempt o s result p f = (t, q)) : result = .ok t ∧ q = p ∨ ∃ e, q = f e := by
  unfold attempt at h
  split at h
  · rcases Outcome.run_cases h with ⟨-, ht, hq⟩ | ⟨e, -, -, hq⟩ | ⟨e, -, -, hq⟩
    · exact .inl ⟨congrArg Except.ok ht.symm, hq⟩
    · exact .inr ⟨e, hq⟩
    · exact .inr ⟨e, hq⟩
  · rcases (Outcome.read_cases h).2 with ⟨-, hq⟩ | ⟨e, -, hq⟩
    · exact .inr ⟨_, hq⟩
    · exact .inr ⟨e, hq⟩

theorem update_ok {scope : Option String} {uploadId : ℕ} {data : Upload → Upload}
    (h : s.update scope uploadId data = .ok t) : t = s.updateMany scope uploadId anyUpload data := by
  unfold UploadState.update at h
  split_ifs at h
  exact (Except.ok.inj h).symm

variable {call : UploadCall} {P : Type} {o : Outcome Thrown} {p q : P} {f : Thrown → P}

variable {write : RowWrite}

theorem effect_run (hwrite : writeOf s.now call = some write) (hnew : RequestsNewScan s call)
    (h : o.run s (write.apply s) p f = (t, q)) : StepEffect cfg provider s call (.call o) t := by
  rcases Outcome.run_effect h with rfl | ⟨ho, rfl⟩
  · exact .keeps
  · exact .writes hwrite hnew ⟨o, rfl, ho⟩ rfl rfl rfl

theorem effect_attempt (hwrite : writeOf s.now call = some write)
    (hresult : ∀ t, result = .ok t → RequestsNewScan s call ∧
      t.uploads = (write.apply s).uploads ∧ t.objects = s.objects ∧ t.now = s.now)
    (h : attempt o s result p f = (t, q)) : StepEffect cfg provider s call (.call o) t := by
  rcases attempt_cases h with rfl | ⟨ho, hok⟩
  · exact .keeps
  · obtain ⟨hnew, huploads, hobjects, hnow⟩ := hresult t hok
    exact .writes hwrite hnew ⟨o, rfl, ho⟩ huploads hobjects hnow

theorem effect_update (hwrite : writeOf s.now call = some write) (hcond : write.cond = anyUpload)
    (hnew : RequestsNewScan s call)
    (h : attempt o s (s.update write.scope write.uploadId write.data) p f = (t, q)) :
    StepEffect cfg provider s call (.call o) t := by
  refine effect_attempt hwrite (fun t ht => ?_) h
  rw [update_ok ht, RowWrite.apply, hcond]
  exact ⟨hnew, rfl, rfl, rfl⟩

theorem effect_delete {uploadId : ℕ} {objectKey : String}
    (hdeletion : deletionOf call = some (uploadId, objectKey))
    (h : o.run s (s.deleteObject provider objectKey) p f = (t, q)) :
    StepEffect cfg provider s call (.call o) t := by
  rcases Outcome.run_effect h with rfl | ⟨ho, rfl⟩
  · exact .keeps
  · exact .deletes hdeletion ⟨o, rfl, ho⟩

theorem effect_read (h : o.read s p f = (t, q)) : StepEffect cfg provider s call (.call o) t := by
  rw [(Outcome.read_cases h).1]
  exact .keeps

/-! ### The steps of the calls -/

variable {answer : Answer}

theorem initiate_effect {call : InitiateUpload} {pc pc' : InitiatePc}
    (h : initiateStep cfg provider s call pc answer = some (t, pc')) :
    StepEffect cfg provider s (.initiateUpload call pc) answer t := by
  unfold initiateStep at h
  split at h
  · rcases attempt_cases (some.inj h) with rfl | ⟨ho, hreserve⟩
    · exact .keeps
    · exact .reserves rfl ⟨_, rfl, ho⟩ hreserve
  · obtain rfl := congrArg Prod.fst (some.inj h)
    exact .keeps
  · obtain rfl := congrArg Prod.fst (some.inj h)
    exact .keeps
  · exact effect_update rfl rfl trivial (some.inj h)
  · exact effect_update rfl rfl trivial (some.inj h)
  · cases h

theorem complete_effect {call : CompleteUpload} {pc pc' : CompletePc}
    (h : completeStep cfg provider s call pc answer = some (t, pc')) :
    StepEffect cfg provider s (.completeUpload call pc) answer t := by
  unfold completeStep at h
  split at h
  · exact effect_read (some.inj h)
  · exact effect_read (some.inj h)
  · exact effect_delete rfl (some.inj h)
  · exact effect_update rfl rfl trivial (some.inj h)
  · exact effect_read (some.inj h)
  · exact effect_delete rfl (some.inj h)
  · exact effect_update rfl rfl trivial (some.inj h)
  · refine effect_attempt rfl (fun t ht => ?_) (some.inj h)
    unfold quarantineUpload at ht
    split_ifs at ht
    obtain rfl := Except.ok.inj ht
    exact ⟨trivial, rfl, rfl, rfl⟩
  · exact effect_update rfl rfl trivial (some.inj h)
  · refine effect_attempt rfl (fun t ht => ?_) (some.inj h)
    unfold requestUploadScan at ht
    split at ht
    · cases ht
    · next scanning hscanning =>
      split_ifs at ht with hkey
      obtain rfl := Except.ok.inj ht
      obtain rfl := update_ok hscanning
      exact ⟨hkey, rfl, rfl, rfl⟩
  · cases h

theorem scan_effect {uploadId : ℕ} {pc pc' : ScanPc}
    (h : scanStep cfg provider s uploadId pc answer = some (t, pc')) :
    StepEffect cfg provider s (.processUploadScan uploadId pc) answer t := by
  unfold scanStep at h
  split at h
  · exact effect_read (some.inj h)
  · exact effect_delete rfl (some.inj h)
  · exact effect_run rfl trivial (some.inj h)
  · exact effect_run rfl trivial (some.inj h)
  · exact effect_read (some.inj h)
  · obtain ⟨r, -, hr⟩ := map_eq_some_iff.mp h
    cases r with
    | ok scan =>
      obtain rfl := congrArg Prod.fst hr
      exact .keeps
    | error e =>
      obtain rfl := congrArg Prod.fst hr
      exact .keeps
  · exact effect_update rfl rfl trivial (some.inj h)
  · exact effect_delete rfl (some.inj h)
  · exact effect_run rfl trivial (some.inj h)
  · exact effect_run rfl trivial (some.inj h)
  · cases h

theorem delete_effect {call : DeleteUpload} {pc pc' : DeletePc}
    (h : deleteStep provider s call pc answer = some (t, pc')) :
    StepEffect cfg provider s (.deleteUpload call pc) answer t := by
  unfold deleteStep at h
  split at h
  · exact effect_read (some.inj h)
  · exact effect_delete rfl (some.inj h)
  · exact effect_update rfl rfl trivial (some.inj h)
  · cases h

theorem expire_effect {call : ExpirePendingUploads} {pc pc' : ExpirePc}
    (h : expireStep provider s call pc answer = some (t, pc')) :
    StepEffect cfg provider s (.expirePendingUploads call pc) answer t := by
  unfold expireStep at h
  split at h
  · split_ifs at h
    obtain ⟨page, -, hp⟩ := map_eq_some_iff.mp h
    obtain rfl := congrArg Prod.fst hp
    exact .keeps
  · obtain rfl := congrArg Prod.fst (some.inj h)
    exact .keeps
  · exact effect_delete rfl (some.inj h)
  · exact effect_run rfl trivial (some.inj h)
  · cases h

/-- **What a step of a call does.** -/
theorem step_effect {call' : UploadCall} (h : uploadStep cfg s call answer = some (t, call')) :
    ∃ provider, cfg.provider = some provider ∧ StepEffect cfg provider s call answer t := by
  unfold uploadStep at h
  split at h
  · cases h
  · next provider hprovider =>
    refine ⟨provider, hprovider, ?_⟩
    split at h
    all_goals
      obtain ⟨⟨t', pc'⟩, hstep, he⟩ := map_eq_some_iff.mp h
      obtain rfl : t' = t := congrArg Prod.fst he
    · exact initiate_effect hstep
    · exact complete_effect hstep
    · exact scan_effect hstep
    · exact delete_effect hstep
    · exact expire_effect hstep

/-! ### Rows before and after a step -/

/-- The two are one upload, at two times. -/
structure SameUpload (u v : Upload) : Prop where
  userId : v.userId = u.userId
  organizationId : v.organizationId = u.organizationId
  provider : v.provider = u.provider
  objectKey : v.objectKey = u.objectKey
  expectedSize : v.expectedSize = u.expectedSize

theorem SameUpload.refl (u : Upload) : SameUpload u u := ⟨rfl, rfl, rfl, rfl, rfl⟩

theorem sameUpload_of_write {now : ℤ} (hwrite : writeOf now call = some write) (u : Upload) :
    SameUpload u (write.data u) := by
  unfold writeOf at hwrite
  split at hwrite
  all_goals cases hwrite
  all_goals exact ⟨rfl, rfl, rfl, rfl, rfl⟩

theorem getElem?_apply (write : RowWrite) (s : UploadState) (id : ℕ) :
    (write.apply s).uploads[id]? = s.uploads[id]?.map fun u =>
      if write.uploadId = id ∧ write.finds u = true then write.data u else u := by
  rw [RowWrite.apply, UploadState.updateMany, List.getElem?_modify]
  cases s.uploads[id]? with
  | none => by_cases hid : write.uploadId = id <;> simp [hid]
  | some u => by_cases hid : write.uploadId = id <;> simp [hid, RowWrite.finds]

theorem reserveUpload_ok {init : InitiateUpload} {expiresAt : ℤ}
    (h : reserveUpload cfg provider init expiresAt s = .ok t) : ∃ upload : Upload,
      t.uploads = s.uploads ++ [upload] ∧ t.objects = s.objects ∧ upload.status = .pending ∧
        upload.deletedAt = none ∧ upload.userId = init.userId ∧
        ∀ u ∈ s.uploads, u.provider = upload.provider → u.objectKey ≠ upload.objectKey := by
  unfold reserveUpload at h
  split_ifs at h with _ hkey
  obtain rfl := Except.ok.inj h
  refine ⟨_, rfl, rfl, rfl, rfl, rfl, ?_⟩
  intro u hu hprovider hobject
  refine hkey (List.any_eq_true.mpr ⟨u, hu, ?_⟩)
  exact decide_eq_true ⟨hprovider, hobject⟩

/-- Every upload of the first state is in the second, and what is new is last. -/
structure Continues (s t : UploadState) : Prop where
  kept : ∀ id : ℕ, ∀ u ∈ s.uploads[id]?, ∃ v ∈ t.uploads[id]?, SameUpload u v
  added : ∀ id : ℕ, ∀ v ∈ t.uploads[id]?, (∃ u ∈ s.uploads[id]?, SameUpload u v) ∨
    id = s.uploads.length ∧ ∀ u ∈ s.uploads, u.provider = v.provider → u.objectKey ≠ v.objectKey

theorem Continues.of_eq (h : t.uploads = s.uploads) : Continues s t := by
  refine ⟨fun id u hu => ⟨u, ?_, .refl u⟩, fun id v hv => .inl ⟨v, ?_, .refl v⟩⟩
  · rw [h]
    exact hu
  · rw [← h]
    exact hv

theorem continues_uploadStep {call' : UploadCall}
    (h : uploadStep cfg s call answer = some (t, call')) : Continues s t := by
  obtain ⟨provider, -, heffect⟩ := step_effect h
  cases heffect with
  | keeps => exact .of_eq rfl
  | deletes _ _ => exact .of_eq rfl
  | @writes write _ hwrite _ _ huploads _ _ =>
    have hsame : ∀ (id : ℕ) (u : Upload), SameUpload u
        (if write.uploadId = id ∧ write.finds u = true then write.data u else u) := by
      intro id u
      split_ifs
      · exact sameUpload_of_write hwrite u
      · exact .refl u
    refine ⟨fun id u hu => ⟨_, ?_, hsame id u⟩, fun id v hv => .inl ?_⟩
    · rw [huploads, getElem?_apply]
      exact Option.mem_map_of_mem _ hu
    · rw [huploads, getElem?_apply] at hv
      obtain ⟨u, hu, rfl⟩ := map_eq_some_iff.mp hv
      exact ⟨u, hu, hsame id u⟩
  | reserves _ _ hreserve =>
    obtain ⟨upload, huploads, -, -, -, -, hkey⟩ := reserveUpload_ok hreserve
    refine ⟨fun id u hu => ⟨u, ?_, .refl u⟩, fun id v hv => ?_⟩
    · rw [huploads, List.getElem?_append_left (List.getElem?_eq_some_iff.mp hu).1]
      exact hu
    · rw [huploads, Option.mem_def, List.getElem?_append] at hv
      split_ifs at hv with hid
      · exact .inl ⟨v, hv, .refl v⟩
      · have hlast : id - s.uploads.length = 0 := by
          have := (List.getElem?_eq_some_iff.mp hv).1
          rw [List.length_singleton] at this
          omega
        obtain rfl := List.mem_singleton.mp (List.mem_of_getElem? hv)
        exact .inr ⟨by omega, hkey⟩

end BackendFoundation.Uploads.Writes
