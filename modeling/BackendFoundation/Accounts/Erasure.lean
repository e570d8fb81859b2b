import BackendFoundation.Accounts.Model
import BackendFoundation.Uploads.Verdicts

/-! # The erasure of an account

`erasure_complete` says that nothing is left of the uploads of a user once the account is deleted and
the worker has returned, in the runs in which the deletion has read every upload of the user, nothing
is reserved for the user after it and clients store objects only for uploads that are still to be
erased. An upload that has failed is never read, and keeps its name and its object
(`failed_upload_remains`). -/

namespace BackendFoundation.Accounts.Erasure

open Lib Lib.Runs Lib.Interleave Errors Uploads.Model Uploads.Writes Accounts.Model
open Uploads.Verdicts (live_of_visible find_eq_some webhookConfig jpeg)
open Option (some.inj map_eq_some_iff)

variable {cfg : UploadConfig} {initial s t : AccountState} {userId : String} {w w' : AccountWorld}
  {l : AccountLabel} {u v : Upload}

/-- Objects under this key have been stored for the user. -/
def StoredFor (initial : AccountState) (userId : String) (provider : UploadProvider)
    (objectKey : String) : Prop :=
  ownsKey userId objectKey = true ∨ ∃ u ∈ initial.uploads.uploads,
    u.userId = userId ∧ u.provider = provider ∧ u.objectKey = objectKey

/-- Nothing is left of the uploads of the user. -/
structure Erased (initial : AccountState) (userId : String) (s : UploadState) : Prop where
  rows : ∀ id : ℕ, ∀ u ∈ s.uploads[id]?, u.userId = userId →
    u.originalName = "erased" ∧ u.checksum = none ∧ u.objectKey = erasedKey id
  objects : ∀ provider objectKey, StoredFor initial userId provider objectKey →
    s.objects provider objectKey = none

/-- The worker for the user has returned. -/
def Returned (userId : String) : AccountCall → Prop
  | .processAccountErasure id .returned => id = userId
  | _ => False

/-! ### The condition -/

/-- Every upload of the user is one of these, and its object has not been marked as deleted. -/
def Covers (s : UploadState) (userId : String) (uploadIds : List ℕ) : Prop :=
  ∀ id ∈ List.range s.uploads.length, ∀ u ∈ s.uploads[id]?, u.userId = userId →
    id ∈ uploadIds ∧ u.storageDeletedAt = none

/-- The worker has deleted the object of the upload and is about to mark it. -/
def Marks (uploadId : ℕ) : AccountCall → Prop
  | .processAccountErasure _ (.markErased id _) => id = uploadId
  | _ => False

/-- The user has an upload with this key, which is still to be erased if the account is deleted. -/
def HasUpload (s : AccountState) (userId : String) (provider : UploadProvider)
    (objectKey : String) : Prop :=
  ∃ u ∈ s.uploads.uploads, u.userId = userId ∧ u.provider = provider ∧ u.objectKey = objectKey ∧
    (userId ∈ s.deleted → u.storageDeletedAt = none)

/-- The worker is not between the deletion of this object and the mark. -/
def NotMarking (w : AccountWorld) (userId : String) (provider : UploadProvider)
    (objectKey : String) : Prop :=
  ∀ id ∈ List.range w.shared.uploads.uploads.length, ∀ u ∈ w.shared.uploads.uploads[id]?,
    u.userId = userId → u.provider = provider → u.objectKey = objectKey → ¬ w.Any (Marks id)

/-- What the statement of a call needs: a deletion of the account has read every upload of the user,
and nothing is reserved for the user after it. -/
def SafeCall (userId : String) (s : AccountState) : AccountCall → Prop
  | .deleteAccount id (.commit uploadIds _) => id = userId → Covers s.uploads userId uploadIds
  | .upload (.initiateUpload call (.reserve _)) => call.userId = userId → userId ∉ s.deleted
  | _ => True

/-- A deletion of the account has read every upload of the user, nothing is reserved for the user
after it, and clients store objects only for uploads that are still to be erased. -/
def SafeStep (initial : AccountState) (userId : String) (w : AccountWorld) : AccountLabel → Prop
  | .step i (.call o) | .step i (.upload (.call o)) =>
    o.TakesEffect → ∀ call ∈ w.proc? i, SafeCall userId w.shared call
  | .env (.store provider objectKey _) =>
    (StoredFor initial userId provider objectKey → HasUpload w.shared userId provider objectKey) ∧
      NotMarking w userId provider objectKey
  | _ => True

instance (provider : UploadProvider) (objectKey : String) :
    Decidable (StoredFor initial userId provider objectKey) :=
  inferInstanceAs (Decidable (_ ∨ ∃ u ∈ initial.uploads.uploads, _))

instance (id : ℕ) : DecidablePred (Marks id) := fun call => by
  unfold Marks
  split <;> infer_instance

instance : DecidablePred (Returned userId) := fun call => by
  unfold Returned
  split <;> infer_instance

instance (s : UploadState) (uploadIds : List ℕ) : Decidable (Covers s userId uploadIds) :=
  inferInstanceAs (Decidable (∀ id ∈ List.range _, ∀ u ∈ s.uploads[id]?, _))

instance (provider : UploadProvider) (objectKey : String) :
    Decidable (HasUpload s userId provider objectKey) :=
  inferInstanceAs (Decidable (∃ u ∈ s.uploads.uploads, _))

instance (provider : UploadProvider) (objectKey : String) :
    Decidable (NotMarking w userId provider objectKey) :=
  inferInstanceAs (Decidable (∀ id ∈ List.range _, ∀ u ∈ w.shared.uploads.uploads[id]?, _))

instance : DecidablePred (SafeCall userId s) := fun call => by
  unfold SafeCall
  split <;> infer_instance

instance (w : AccountWorld) : DecidablePred (SafeStep initial userId w) := fun l => by
  unfold SafeStep
  split <;> infer_instance

/-! ### What a step does -/

/-- What one step of a call does to the accounts and the uploads. -/
inductive AccountEffect (cfg : UploadConfig) (s : AccountState) (call : AccountCall)
    (answer : AccountAnswer) : AccountState → Prop
  | keeps : AccountEffect cfg s call answer s
  | uploads {upload upload' : UploadCall} {uploadAnswer : Answer} {uploads : UploadState}
      (hcall : call = .upload upload) (hanswer : answer = .upload uploadAnswer)
      (hstep : uploadStep cfg s.uploads upload uploadAnswer = some (uploads, upload')) :
      AccountEffect cfg s call answer { s with uploads }
  | deletesAccount {id : String} {uploadIds : List ℕ} {deletedAt : ℤ} {t : AccountState}
      (hcall : call = .deleteAccount id (.commit uploadIds deletedAt))
      (hanswer : ∃ o, answer = .call o ∧ o.TakesEffect)
      (h : deleteUser id uploadIds deletedAt s = .ok t) : AccountEffect cfg s call answer t
  | deletesObject {id : String} {upload : ErasableUpload} {rest : List ErasableUpload}
      (hcall : call = .processAccountErasure id (.deleteObject upload rest)) :
      AccountEffect cfg s call answer
        { s with uploads := s.uploads.deleteObject upload.provider upload.objectKey }
  | erases {id : String} {uploadId : ℕ} {rest : List ErasableUpload} {uploads : UploadState}
      (hcall : call = .processAccountErasure id (.markErased uploadId rest))
      (h : markErased uploadId s.uploads = .ok uploads) :
      AccountEffect cfg s call answer { s with uploads }

theorem attemptAccount_cases {P : Type} {o : Outcome Thrown} {result : Except Thrown AccountState}
    {p q : P} {f : Thrown → P} (h : attemptAccount o s result p f = (t, q)) :
    t = s ∨ o.TakesEffect ∧ result = .ok t := by
  unfold attemptAccount at h
  split at h
  · rcases Outcome.run_effect h with rfl | ⟨ho, rfl⟩
    · exact .inl rfl
    · exact .inr ⟨ho, rfl⟩
  · exact .inl (Outcome.read_cases h).1

variable {answer : AccountAnswer}

theorem deleteAccount_effect {id : String} {pc pc' : DeleteAccountPc}
    (h : deleteAccountStep s id pc answer = some (t, pc')) :
    AccountEffect cfg s (.deleteAccount id pc) answer t := by
  unfold deleteAccountStep at h
  split at h
  · obtain rfl := (Outcome.read_cases (some.inj h)).1
    exact .keeps
  · obtain rfl := congrArg Prod.fst (some.inj h)
    exact .keeps
  · obtain rfl := congrArg Prod.fst (some.inj h)
    exact .keeps
  · obtain rfl := (Outcome.read_cases (some.inj h)).1
    exact .keeps
  · rcases attemptAccount_cases (some.inj h) with rfl | ⟨ho, hdelete⟩
    · exact .keeps
    · exact .deletesAccount rfl ⟨_, rfl, ho⟩ hdelete
  · cases h

theorem erasure_effect {id : String} {pc pc' : ErasurePc} {uploads : UploadState}
    (h : erasureStep cfg s.uploads id pc answer = some (uploads, pc')) :
    AccountEffect cfg s (.processAccountErasure id pc) answer { s with uploads } := by
  unfold erasureStep at h
  split at h
  · obtain rfl := (Outcome.read_cases (some.inj h)).1
    exact .keeps
  · split_ifs at h
    obtain ⟨page, -, hp⟩ := map_eq_some_iff.mp h
    obtain rfl := congrArg Prod.fst hp
    exact .keeps
  · obtain rfl := congrArg Prod.fst (some.inj h)
    exact .keeps
  · rcases Outcome.run_effect (some.inj h) with rfl | ⟨-, rfl⟩
    · exact .keeps
    · exact .deletesObject rfl
  · rcases attempt_cases (some.inj h) with rfl | ⟨-, herased⟩
    · exact .keeps
    · exact .erases rfl herased
  · cases h

theorem account_effect {call call' : AccountCall}
    (h : accountStep cfg s call answer = some (t, call')) : AccountEffect cfg s call answer t := by
  unfold accountStep at h
  split at h
  · obtain ⟨⟨uploads, upload'⟩, hstep, he⟩ := map_eq_some_iff.mp h
    obtain rfl := congrArg Prod.fst he
    exact .uploads rfl rfl hstep
  · cases h
  · obtain ⟨⟨t', pc'⟩, hstep, he⟩ := map_eq_some_iff.mp h
    obtain rfl := congrArg Prod.fst he
    exact deleteAccount_effect hstep
  · obtain ⟨⟨uploads, pc'⟩, hstep, he⟩ := map_eq_some_iff.mp h
    obtain rfl := congrArg Prod.fst he
    exact erasure_effect hstep

variable {deletedAt : ℤ} {uploadIds : List ℕ} {before after : UploadState}

theorem deleteUploads_ok (h : deleteUploads deletedAt uploadIds before = .ok after) :
    after.objects = before.objects ∧ ∀ id, after.uploads[id]? = before.uploads[id]?.map fun u =>
      if id ∈ uploadIds then accountDeleted deletedAt u else u := by
  induction uploadIds generalizing before with
  | nil =>
    obtain rfl := Except.ok.inj h
    exact ⟨rfl, fun id => by simp⟩
  | cons uploadId rest ih =>
    rw [deleteUploads] at h
    split at h
    · next middle hupdate =>
      obtain ⟨hobjects, hrows⟩ := ih h
      have hfound : (before.find none uploadId anyUpload).isSome = true := by
        unfold UploadState.update at hupdate
        split_ifs at hupdate with hfound
        exact hfound
      obtain ⟨x, hx⟩ := Option.isSome_iff_exists.mp hfound
      obtain ⟨hx, hvisible, -⟩ := find_eq_some.mp hx
      obtain rfl := update_ok hupdate
      refine ⟨hobjects, fun id => ?_⟩
      rw [hrows id]
      have hmiddle := getElem?_apply { scope := none, uploadId, data := accountDeleted deletedAt }
        before id
      dsimp only [RowWrite.apply] at hmiddle
      rw [hmiddle, Option.map_map]
      by_cases hid : uploadId = id
      · subst hid
        simp [hx, RowWrite.finds, hvisible, anyUpload, accountDeleted]
      · simp [hid, Ne.symm hid, Function.comp_def]
    · cases h

theorem deleteUser_ok {id : String} (h : deleteUser id uploadIds deletedAt s = .ok t) :
    id ∉ s.deleted ∧ t.deleted = id :: s.deleted ∧ t.uploads.objects = s.uploads.objects ∧
      ∀ uploadId, t.uploads.uploads[uploadId]? = s.uploads.uploads[uploadId]?.map fun u =>
        if uploadId ∈ uploadIds then accountDeleted deletedAt u else u := by
  unfold deleteUser at h
  split_ifs at h with hdeleted
  split at h
  · next uploads huploads =>
    obtain rfl := Except.ok.inj h
    exact ⟨hdeleted, rfl, deleteUploads_ok huploads⟩
  · cases h

theorem markErased_ok {uploadId : ℕ} (h : markErased uploadId before = .ok after) :
    after.objects = before.objects ∧ ∀ id, after.uploads[id]? = before.uploads[id]?.map fun u =>
      if uploadId = id then storageErased id before.now u else u := by
  unfold markErased at h
  split at h
  · cases h
  · split_ifs at h
    obtain rfl := Except.ok.inj h
    refine ⟨rfl, fun id => ?_⟩
    rw [List.getElem?_modify]
    by_cases hid : uploadId = id
    · subst hid
      simp
    · simp [hid]

/-! ### What the steps keep -/

/-- An upload that is not marked after a step was not marked before and has kept its key. -/
structure RowStep (u v : Upload) : Prop where
  userId : v.userId = u.userId
  provider : v.provider = u.provider
  unmarked : v.storageDeletedAt = none → u.storageDeletedAt = none ∧ v.objectKey = u.objectKey

theorem RowStep.refl (u : Upload) : RowStep u u := ⟨rfl, rfl, fun h => ⟨h, rfl⟩⟩

/-- What the calls rest on when another one has taken a step. -/
structure Follows (userId : String) (s t : AccountState) : Prop where
  deleted : ∀ id ∈ s.deleted, id ∈ t.deleted
  kept : ∀ id : ℕ, ∀ u ∈ s.uploads.uploads[id]?, ∃ v ∈ t.uploads.uploads[id]?, RowStep u v
  added : userId ∈ s.deleted → ∀ id : ℕ, ∀ v ∈ t.uploads.uploads[id]?, v.userId = userId →
    ∃ u ∈ s.uploads.uploads[id]?, RowStep u v
  objects : ∀ provider objectKey, (t.uploads.objects provider objectKey).isSome = true →
    (s.uploads.objects provider objectKey).isSome = true

theorem Follows.of_map {f : ℕ → Upload → Upload} (hdeleted : ∀ id ∈ s.deleted, id ∈ t.deleted)
    (hrows : ∀ id, t.uploads.uploads[id]? = s.uploads.uploads[id]?.map (f id))
    (hobjects : ∀ provider objectKey, (t.uploads.objects provider objectKey).isSome = true →
      (s.uploads.objects provider objectKey).isSome = true)
    (hf : ∀ (id : ℕ) (u : Upload), RowStep u (f id u)) : Follows userId s t := by
  refine ⟨hdeleted, fun id u hu => ⟨f id u, ?_, hf id u⟩, fun _ id v hv _ => ?_, hobjects⟩
  · rw [hrows]
    exact Option.mem_map_of_mem _ hu
  · rw [hrows] at hv
    obtain ⟨u, hu, rfl⟩ := map_eq_some_iff.mp hv
    exact ⟨u, hu, hf id u⟩

theorem Follows.of_eq (hdeleted : t.deleted = s.deleted) (hrows : t.uploads.uploads = s.uploads.uploads)
    (hobjects : ∀ provider objectKey, (t.uploads.objects provider objectKey).isSome = true →
      (s.uploads.objects provider objectKey).isSome = true) : Follows userId s t :=
  .of_map (f := fun _ u => u) (fun id hid => hdeleted ▸ hid) (fun id => by rw [hrows]; simp) hobjects
    fun _ u => .refl u

variable {provider : UploadProvider} {objectKey : String}

theorem isSome_deleteObject (s : UploadState) (p : UploadProvider) (key : String)
    (h : ((s.deleteObject provider objectKey).objects p key).isSome = true) :
    (s.objects p key).isSome = true := by
  rw [UploadState.deleteObject] at h
  dsimp only at h
  split_ifs at h
  · cases h
  · exact h

/-- What a call on an upload leaves as it is: a deleted row is not written, and nothing is stored. -/
structure UploadFrame (before after : UploadState) (call : UploadCall) (answer : Answer) : Prop where
  written : ∀ id : ℕ, ∀ u ∈ before.uploads[id]?, ∃ v ∈ after.uploads[id]?,
    RowStep u v ∧ v.objectKey = u.objectKey ∧ (u.deletedAt ≠ none → v = u)
  added : ∀ id : ℕ, ∀ v ∈ after.uploads[id]?, (∃ u ∈ before.uploads[id]?, RowStep u v) ∨
    ∃ init expiresAt o, call = .initiateUpload init (.reserve expiresAt) ∧ answer = .call o ∧
      o.TakesEffect ∧ v.userId = init.userId
  objects : ∀ provider objectKey, (after.objects provider objectKey).isSome = true →
    (before.objects provider objectKey).isSome = true

theorem rowStep_of_write {call : UploadCall} {write : RowWrite} {now : ℤ}
    (hwrite : writeOf now call = some write) (u : Upload) : RowStep u (write.data u) := by
  unfold writeOf at hwrite
  split at hwrite
  all_goals cases hwrite
  all_goals
    refine ⟨rfl, rfl, fun h => ⟨?_, rfl⟩⟩
    first
    | exact h
    | cases h

theorem uploadFrame {call call' : UploadCall} {answer : Answer}
    (h : uploadStep cfg before call answer = some (after, call')) :
    UploadFrame before after call answer := by
  obtain ⟨provider, -, heffect⟩ := step_effect h
  have hsame : ∀ {x : UploadState}, x.uploads = before.uploads →
      (∀ id : ℕ, ∀ u ∈ before.uploads[id]?, ∃ v ∈ x.uploads[id]?,
        RowStep u v ∧ v.objectKey = u.objectKey ∧ (u.deletedAt ≠ none → v = u)) ∧
      ∀ id : ℕ, ∀ v ∈ x.uploads[id]?, ∃ u ∈ before.uploads[id]?, RowStep u v := by
    intro x hx
    rw [hx]
    exact ⟨fun id u hu => ⟨u, hu, .refl u, rfl, fun _ => rfl⟩, fun id v hv => ⟨v, hv, .refl v⟩⟩
  cases heffect with
  | keeps =>
    obtain ⟨hwritten, hadded⟩ := hsame (x := before) rfl
    exact ⟨hwritten, fun id v hv => .inl (hadded id v hv), fun _ _ h => h⟩
  | deletes _ _ =>
    obtain ⟨hwritten, hadded⟩ := hsame (x := before.deleteObject provider _) rfl
    exact ⟨hwritten, fun id v hv => .inl (hadded id v hv), isSome_deleteObject before⟩
  | @writes write _ hwrite _ _ huploads hobjects _ =>
    have hrow : ∀ (id : ℕ) (u : Upload), RowStep u
        (if write.uploadId = id ∧ write.finds u = true then write.data u else u) := by
      intro id u
      split_ifs
      · exact rowStep_of_write hwrite u
      · exact .refl u
    refine ⟨fun id u hu => ⟨_, ?_, hrow id u, ?_, fun hdeleted => if_neg ?_⟩, fun id v hv => .inl ?_,
      fun provider key hkey => ?_⟩
    · rw [huploads, getElem?_apply]
      exact Option.mem_map_of_mem _ hu
    · split_ifs
      · exact (sameUpload_of_write hwrite u).objectKey
      · rfl
    · rintro ⟨-, hfinds⟩
      exact hdeleted (live_of_visible (Bool.and_eq_true_iff.mp hfinds).1)
    · rw [huploads, getElem?_apply] at hv
      obtain ⟨u, hu, rfl⟩ := map_eq_some_iff.mp hv
      exact ⟨u, hu, hrow id u⟩
    · rw [← hobjects]
      exact hkey
  | @reserves init expiresAt _ hcall hanswer hreserve =>
    obtain ⟨upload, huploads, hobjects, -, -, huser, -⟩ := reserveUpload_ok hreserve
    refine ⟨fun id u hu => ⟨u, ?_, .refl u, rfl, fun _ => rfl⟩, fun id v hv => ?_,
      fun provider key hkey => ?_⟩
    · rw [huploads, List.getElem?_append_left (List.getElem?_eq_some_iff.mp hu).1]
      exact hu
    · rw [huploads, Option.mem_def, List.getElem?_append] at hv
      split_ifs at hv
      · exact .inl ⟨v, hv, .refl v⟩
      · obtain rfl := List.mem_singleton.mp (List.mem_of_getElem? hv)
        obtain ⟨o, rfl, ho⟩ := hanswer
        exact .inr ⟨init, expiresAt, o, hcall, rfl, ho, huser⟩
    · rw [← hobjects]
      exact hkey

variable {call : AccountCall}

theorem follows_of_effect {i : ℕ} (hg : SafeStep initial userId w (.step i answer))
    (hcall : w.proc? i = some call) (h : AccountEffect cfg w.shared call answer t) :
    Follows userId w.shared t := by
  cases h with
  | keeps => exact .of_eq rfl rfl fun _ _ h => h
  | @uploads upload upload' uploadAnswer uploads hc hanswer hstep =>
    have hframe := uploadFrame hstep
    refine ⟨fun _ hid => hid, fun id u hu => ?_, fun hdeleted id v hv huser => ?_, hframe.objects⟩
    · obtain ⟨v, hv, hrow, -⟩ := hframe.written id u hu
      exact ⟨v, hv, hrow⟩
    · rcases hframe.added id v hv with hold | ⟨init, expiresAt, o, rfl, rfl, ho, hinit⟩
      · exact hold
      · subst hc hanswer
        exact absurd hdeleted (hg ho _ hcall (hinit.symm.trans huser))
  | deletesAccount _ _ hdelete =>
    obtain ⟨-, hdeleted, hobjects, hrows⟩ := deleteUser_ok hdelete
    refine .of_map (fun id hid => ?_) hrows (fun p key hkey => ?_) fun id u => ?_
    · rw [hdeleted]
      exact List.mem_cons_of_mem _ hid
    · rw [← hobjects]
      exact hkey
    · split_ifs
      · exact ⟨rfl, rfl, fun h => ⟨h, rfl⟩⟩
      · exact .refl u
  | deletesObject _ => exact .of_eq rfl rfl (isSome_deleteObject w.shared.uploads)
  | erases _ herased =>
    obtain ⟨hobjects, hrows⟩ := markErased_ok herased
    refine .of_map (fun _ hid => hid) hrows (fun p key hkey => ?_) fun id u => ?_
    · rw [← hobjects]
      exact hkey
    · split_ifs
      · exact ⟨rfl, rfl, nofun⟩
      · exact .refl u

/-! ### The invariant -/

/-- An upload of a deleted account, whose key is erased once its object is. -/
structure DeletedRow (id : ℕ) (u : Upload) : Prop where
  status : u.status = .deleted
  deletedAt : u.deletedAt ≠ none
  originalName : u.originalName = "erased"
  checksum : u.checksum = none
  objectKey : u.storageDeletedAt ≠ none → u.objectKey = erasedKey id

/-- Each object of the user is one of an upload, which is still to be erased if the account is
deleted. -/
structure AccountOk (initial : AccountState) (userId : String) (s : AccountState) : Prop where
  rows : userId ∈ s.deleted → ∀ id : ℕ, ∀ u ∈ s.uploads.uploads[id]?, u.userId = userId →
    DeletedRow id u
  objects : ∀ provider objectKey, (s.uploads.objects provider objectKey).isSome = true →
    StoredFor initial userId provider objectKey → ∃ id : ℕ, ∃ u ∈ s.uploads.uploads[id]?,
      u.userId = userId ∧ u.provider = provider ∧ u.objectKey = objectKey ∧
        (userId ∈ s.deleted → u.storageDeletedAt = none)

/-- The worker for the user `id` has read the upload. -/
def Listed (id : String) (s : AccountState) (upload : ErasableUpload) : Prop :=
  ∃ u ∈ s.uploads.uploads[upload.uploadId]?, u.userId = id ∧ u.provider = upload.provider ∧
    (u.storageDeletedAt = none → u.objectKey = upload.objectKey)

/-- The worker for the user `id` has deleted the object of the upload. -/
def Gone (userId id : String) (s : AccountState) (uploadId : ℕ) : Prop :=
  ∃ u ∈ s.uploads.uploads[uploadId]?, u.userId = id ∧ (id = userId → u.storageDeletedAt = none →
    s.uploads.objects u.provider u.objectKey = none)

def ErasureOk (userId id : String) (s : AccountState) : ErasurePc → Prop
  | .deleteObject upload rest => ∀ e ∈ upload :: rest, Listed id s e
  | .markErased uploadId rest => Gone userId id s uploadId ∧ ∀ e ∈ rest, Listed id s e
  | .returned => id = userId → ∀ uploadId : ℕ, ∀ u ∈ s.uploads.uploads[uploadId]?,
    u.userId = userId → u.storageDeletedAt ≠ none
  | _ => True

def CallOk (userId : String) (s : AccountState) : AccountCall → Prop
  | .deleteAccount id (.commit uploadIds _) =>
    ∀ uploadId ∈ uploadIds, ∃ u ∈ s.uploads.uploads[uploadId]?, u.userId = id
  | .processAccountErasure id pc => id ∈ s.deleted ∧ ErasureOk userId id s pc
  | _ => True

theorem Listed.follows {id : String} {upload : ErasableUpload} (h : Listed id s upload)
    (hst : Follows userId s t) : Listed id t upload := by
  obtain ⟨u, hu, huser, hprovider, hkey⟩ := h
  obtain ⟨v, hv, hrow⟩ := hst.kept _ u hu
  refine ⟨v, hv, hrow.userId.trans huser, hrow.provider.trans hprovider, fun hnone => ?_⟩
  obtain ⟨hunmarked, hsame⟩ := hrow.unmarked hnone
  exact hsame.trans (hkey hunmarked)

theorem Gone.follows {id : String} {uploadId : ℕ} (h : Gone userId id s uploadId)
    (hst : Follows userId s t) : Gone userId id t uploadId := by
  obtain ⟨u, hu, huser, hgone⟩ := h
  obtain ⟨v, hv, hrow⟩ := hst.kept _ u hu
  refine ⟨v, hv, hrow.userId.trans huser, fun hid hnone => ?_⟩
  obtain ⟨hunmarked, hsame⟩ := hrow.unmarked hnone
  rw [← Option.not_isSome_iff_eq_none, hrow.provider, hsame]
  intro hsome
  have hbefore := hst.objects _ _ hsome
  rw [hgone hid hunmarked] at hbefore
  cases hbefore

theorem CallOk.follows (h : CallOk userId s call) (hst : Follows userId s t) :
    CallOk userId t call := by
  unfold CallOk at *
  split at h
  · intro uploadId hmem
    obtain ⟨u, hu, huser⟩ := h uploadId hmem
    obtain ⟨v, hv, hrow⟩ := hst.kept uploadId u hu
    exact ⟨v, hv, hrow.userId.trans huser⟩
  · obtain ⟨hdeleted, herasure⟩ := h
    refine ⟨hst.deleted _ hdeleted, ?_⟩
    unfold ErasureOk at *
    split at herasure
    · exact fun e he => (herasure e he).follows hst
    · exact ⟨herasure.1.follows hst, fun e he => (herasure.2 e he).follows hst⟩
    · intro hid uploadId v hv huser hnone
      obtain ⟨u, hu, hrow⟩ := hst.added (hid ▸ hdeleted) uploadId v hv huser
      exact herasure hid uploadId u hu (hrow.userId.symm.trans huser) (hrow.unmarked hnone).1
    · trivial
  · trivial

theorem callOk_deleteAccount {id : String} {pc pc' : DeleteAccountPc} (hst : Follows userId s t)
    (h : deleteAccountStep s id pc answer = some (t, pc')) :
    CallOk userId t (.deleteAccount id pc') := by
  unfold deleteAccountStep at h
  split at h
  · rcases Outcome.run_pc (some.inj h) with rfl | ⟨e, rfl⟩
    · split_ifs <;> trivial
    · trivial
  · obtain ⟨-, rfl⟩ := pair_inj h
    split_ifs <;> trivial
  · obtain ⟨-, rfl⟩ := pair_inj h
    trivial
  · have hcommit : CallOk userId s
        (.deleteAccount id (.commit (uploadsOf s.uploads id) s.uploads.now)) := by
      intro uploadId hmem
      obtain ⟨u, hu⟩ := Option.isSome_iff_exists.mp (List.mem_filter.mp hmem).2
      obtain ⟨hu, -, hcond⟩ := find_eq_some.mp hu
      exact ⟨u, hu, of_decide_eq_true (Bool.and_eq_true_iff.mp hcond).1⟩
    rcases Outcome.run_pc (some.inj h) with rfl | ⟨e, rfl⟩
    · exact hcommit.follows hst
    · trivial
  · unfold attemptAccount at h
    split at h
    · rcases Outcome.run_pc (some.inj h) with rfl | ⟨e, rfl⟩ <;> trivial
    · rcases Outcome.run_pc (some.inj h) with rfl | ⟨e, rfl⟩ <;> trivial
  · cases h

theorem listed_of_page {id : String} {page : List ErasableUpload}
    (h : readErasable id s.uploads uploadIds = some page) :
    (page = [] → uploadIds = []) ∧ ∀ upload ∈ page, Listed id s upload := by
  induction uploadIds generalizing page with
  | nil =>
    obtain rfl : [] = page := some.inj h
    exact ⟨fun _ => rfl, fun _ hmem => absurd hmem List.not_mem_nil⟩
  | cons uploadId rest ih =>
    rw [readErasable, List.mapM_cons] at h
    obtain ⟨upload, hupload, h⟩ := Option.bind_eq_some_iff.mp h
    obtain ⟨tail, htail, h⟩ := Option.bind_eq_some_iff.mp h
    obtain rfl : upload :: tail = page := some.inj h
    obtain ⟨u, hu, rfl⟩ := map_eq_some_iff.mp hupload
    obtain ⟨hu, herasable⟩ := Option.filter_eq_some_iff.mp hu
    refine ⟨fun hnil => absurd hnil (List.cons_ne_nil _ _), fun e he => ?_⟩
    rcases List.mem_cons.mp he with rfl | he
    · exact ⟨u, hu, (of_decide_eq_true herasable).1, rfl, fun _ => rfl⟩
    · exact (ih htail).2 e he

theorem erasureOk_next {id : String} {rest : List ErasableUpload}
    (h : ∀ upload ∈ rest, Listed id s upload) : ErasureOk userId id s (eraseNext cfg rest) := by
  cases rest with
  | nil => trivial
  | cons upload rest =>
    rw [eraseNext]
    split_ifs
    · exact h
    · trivial

theorem erasureOk_page {id : String} {page : List ErasableUpload}
    (hok : AccountOk initial userId s) (hdeleted : id ∈ s.deleted)
    (hpage : readErasable id s.uploads uploadIds = some page)
    (hnone : uploadIds = [] → (!s.uploads.uploads.any (erasable id)) = true) :
    ErasureOk userId id s (erasePage cfg page) := by
  obtain ⟨hnil, hlisted⟩ := listed_of_page hpage
  unfold erasePage
  split_ifs with hempty
  · rintro rfl uploadId u hu huser hunmarked
    have hrow := hok.rows hdeleted uploadId u hu huser
    have hany : s.uploads.uploads.any (erasable id) = true :=
      List.any_eq_true.mpr ⟨u, List.mem_of_getElem? hu,
        decide_eq_true ⟨huser, hrow.status, hunmarked, hrow.deletedAt⟩⟩
    have hnot := hnone (hnil hempty)
    rw [hany] at hnot
    cases hnot
  · trivial
  · exact erasureOk_next hlisted

theorem erasureOk_step {id : String} {pc pc' : ErasurePc} {uploads : UploadState}
    (hok : AccountOk initial userId s) (hdeleted : id ∈ s.deleted)
    (hst : Follows userId s { s with uploads }) (hpc : ErasureOk userId id s pc)
    (h : erasureStep cfg s.uploads id pc answer = some (uploads, pc')) :
    ErasureOk userId id { s with uploads } pc' := by
  unfold erasureStep at h
  split at h
  · rcases Outcome.run_pc (some.inj h) with rfl | ⟨e, rfl⟩ <;> trivial
  · split_ifs at h with hpage
    obtain ⟨page, hread, he⟩ := map_eq_some_iff.mp h
    obtain ⟨rfl, rfl⟩ := Prod.mk.inj he
    exact erasureOk_page hok hdeleted hread hpage.2
  · obtain ⟨-, rfl⟩ := pair_inj h
    trivial
  · next upload rest o =>
    rcases Outcome.run_cases (some.inj h) with ⟨-, rfl, rfl⟩ | ⟨e, -, -, rfl⟩ | ⟨e, -, -, rfl⟩
    · refine ⟨?_, fun e he => (hpc e (List.mem_cons_of_mem _ he)).follows hst⟩
      obtain ⟨u, hu, huser, hprovider, hkey⟩ := hpc upload List.mem_cons_self
      refine ⟨u, hu, huser, fun _ hunmarked => ?_⟩
      exact if_pos ⟨hprovider, hkey hunmarked⟩
    · trivial
    · trivial
  · rcases attempt_pc (some.inj h) with ⟨-, rfl⟩ | ⟨e, rfl⟩
    · exact erasureOk_next fun e he => (hpc.2 e he).follows hst
    · trivial
  · cases h

theorem callOk_step {call call' : AccountCall} (hok : AccountOk initial userId s)
    (hcall : CallOk userId s call) (hst : Follows userId s t)
    (h : accountStep cfg s call answer = some (t, call')) : CallOk userId t call' := by
  unfold accountStep at h
  split at h
  · obtain ⟨r, -, he⟩ := map_eq_some_iff.mp h
    obtain ⟨-, rfl⟩ := Prod.mk.inj he
    trivial
  · cases h
  · obtain ⟨pc', hstep, rfl⟩ := map_pair_inj h
    exact callOk_deleteAccount hst hstep
  · obtain ⟨⟨uploads, pc'⟩, hstep, he⟩ := map_eq_some_iff.mp h
    obtain ⟨rfl, rfl⟩ := Prod.mk.inj he
    exact ⟨hst.deleted _ hcall.1, erasureOk_step hok hcall.1 hst hcall.2 hstep⟩

theorem accountOk_uploads {uploads : UploadState} {call : UploadCall} {answer : Answer}
    (hok : AccountOk initial userId s) (hframe : UploadFrame s.uploads uploads call answer)
    (hst : Follows userId s { s with uploads }) : AccountOk initial userId { s with uploads } := by
  refine ⟨fun hdeleted id v hv huser => ?_, fun provider objectKey hsome hstored => ?_⟩
  · obtain ⟨u, hu, hrow⟩ := hst.added hdeleted id v hv huser
    have hdeletedRow := hok.rows hdeleted id u hu (hrow.userId.symm.trans huser)
    obtain ⟨v', hv', -, -, hsame⟩ := hframe.written id u hu
    obtain rfl := some.inj (hv'.symm.trans hv)
    rw [hsame hdeletedRow.deletedAt]
    exact hdeletedRow
  · obtain ⟨id, u, hu, huser, hprovider, hkey, hunmarked⟩ :=
      hok.objects provider objectKey (hframe.objects _ _ hsome) hstored
    obtain ⟨v, hv, hrow, hsame, hkept⟩ := hframe.written id u hu
    refine ⟨id, v, hv, hrow.userId.trans huser, hrow.provider.trans hprovider, hsame.trans hkey,
      fun hdeleted => ?_⟩
    rw [hkept (hok.rows hdeleted id u hu huser).deletedAt]
    exact hunmarked hdeleted

theorem accountOk_deleteUser {id : String} (hok : AccountOk initial userId s)
    (howned : ∀ uploadId ∈ uploadIds, ∃ u ∈ s.uploads.uploads[uploadId]?, u.userId = id)
    (hcovers : id = userId → Covers s.uploads userId uploadIds)
    (h : deleteUser id uploadIds deletedAt s = .ok t) : AccountOk initial userId t := by
  obtain ⟨-, hdeleted, hobjects, hrows⟩ := deleteUser_ok h
  have hcovered : id = userId → ∀ uploadId : ℕ, ∀ u ∈ s.uploads.uploads[uploadId]?,
      u.userId = userId → uploadId ∈ uploadIds ∧ u.storageDeletedAt = none := by
    intro hid uploadId u hu huser
    have hlength := (List.getElem?_eq_some_iff.mp hu).1
    exact hcovers hid uploadId (List.mem_range.mpr hlength) u hu huser
  refine ⟨fun hdel uploadId v hv huser => ?_, fun provider objectKey hsome hstored => ?_⟩
  · rw [hrows] at hv
    obtain ⟨u, hu, rfl⟩ := map_eq_some_iff.mp hv
    have huser' : u.userId = userId := by
      split_ifs at huser
      · exact huser
      · exact huser
    by_cases hid : id = userId
    · obtain ⟨hmem, hunmarked⟩ := hcovered hid uploadId u hu huser'
      rw [if_pos hmem]
      exact ⟨rfl, by simp [accountDeleted], rfl, rfl, fun hmarked => absurd hunmarked hmarked⟩
    · have hbefore : userId ∈ s.deleted := by
        rw [hdeleted] at hdel
        exact (List.mem_cons.mp hdel).resolve_left (Ne.symm hid)
      have hother : uploadId ∉ uploadIds := by
        intro hmem
        obtain ⟨x, hx, hxid⟩ := howned uploadId hmem
        obtain rfl := some.inj (hx.symm.trans hu)
        exact hid (hxid.symm.trans huser')
      rw [if_neg hother]
      exact hok.rows hbefore uploadId u hu huser'
  · rw [hobjects] at hsome
    obtain ⟨uploadId, u, hu, huser, hprovider, hkey, hunmarked⟩ :=
      hok.objects provider objectKey hsome hstored
    have hrow : ∃ v ∈ t.uploads.uploads[uploadId]?, v.userId = u.userId ∧ v.provider = u.provider ∧
        v.objectKey = u.objectKey ∧ v.storageDeletedAt = u.storageDeletedAt := by
      refine ⟨_, by rw [hrows]; exact Option.mem_map_of_mem _ hu, ?_⟩
      split_ifs
      · exact ⟨rfl, rfl, rfl, rfl⟩
      · exact ⟨rfl, rfl, rfl, rfl⟩
    obtain ⟨v, hv, huv, hpv, hkv, hmv⟩ := hrow
    refine ⟨uploadId, v, hv, huv.trans huser, hpv.trans hprovider, hkv.trans hkey, fun hdel => ?_⟩
    rw [hmv]
    by_cases hid : id = userId
    · exact (hcovered hid uploadId u hu huser).2
    · rw [hdeleted] at hdel
      exact hunmarked ((List.mem_cons.mp hdel).resolve_left (Ne.symm hid))

theorem accountOk_markErased {id : String} {uploadId : ℕ} {uploads : UploadState}
    (hok : AccountOk initial userId s) (hid : id ∈ s.deleted) (hgone : Gone userId id s uploadId)
    (h : markErased uploadId s.uploads = .ok uploads) :
    AccountOk initial userId { s with uploads } := by
  obtain ⟨hobjects, hrows⟩ := markErased_ok h
  refine ⟨fun hdeleted other v hv huser => ?_, fun provider objectKey hsome hstored => ?_⟩
  · rw [hrows] at hv
    obtain ⟨u, hu, rfl⟩ := map_eq_some_iff.mp hv
    split_ifs at huser ⊢ with hother
    · have hrow := hok.rows hdeleted other u hu huser
      exact ⟨hrow.status, hrow.deletedAt, hrow.originalName, hrow.checksum, fun _ => rfl⟩
    · exact hok.rows hdeleted other u hu huser
  · have hbefore : (s.uploads.objects provider objectKey).isSome = true := by
      rw [← hobjects]
      exact hsome
    obtain ⟨other, u, hu, huser, hprovider, hkey, hunmarked⟩ :=
      hok.objects provider objectKey hbefore hstored
    have hother : uploadId ≠ other := by
      rintro rfl
      obtain ⟨x, hx, hxid, hnone⟩ := hgone
      obtain rfl := some.inj (hx.symm.trans hu)
      have hown : id = userId := hxid.symm.trans huser
      have hnothing := hnone hown (hunmarked (hown ▸ hid))
      rw [hprovider, hkey] at hnothing
      rw [hnothing] at hbefore
      cases hbefore
    refine ⟨other, u, ?_, huser, hprovider, hkey, hunmarked⟩
    rw [hrows, hu, Option.map_some, if_neg hother]
    rfl

theorem accountOk_effect {i : ℕ} (hok : AccountOk initial userId w.shared)
    (hcall : CallOk userId w.shared call) (hg : SafeStep initial userId w (.step i answer))
    (hproc : w.proc? i = some call) (h : AccountEffect cfg w.shared call answer t) :
    AccountOk initial userId t := by
  have hst := follows_of_effect hg hproc h
  cases h with
  | keeps => exact hok
  | uploads _ _ hstep => exact accountOk_uploads hok (uploadFrame hstep) hst
  | deletesAccount hc hanswer hdelete =>
    obtain ⟨o, rfl, ho⟩ := hanswer
    subst hc
    exact accountOk_deleteUser hok hcall (hg ho _ hproc) hdelete
  | deletesObject _ =>
    refine ⟨hok.rows, fun provider objectKey hsome hstored => ?_⟩
    exact hok.objects provider objectKey (hst.objects _ _ hsome) hstored
  | erases hc herased =>
    subst hc
    exact accountOk_markErased hok hcall.1 hcall.2.1 herased

/-! ### Runs -/

def erasing (initial : AccountState) (userId : String) : Assertions AccountState AccountCall where
  shared := AccountOk initial userId
  proc _ call s := CallOk userId s call

theorem CallOk.store {i : ℕ} {object : StoredObject} {uploads : UploadState}
    (h : CallOk userId w.shared call) (hcall : w.proc? i = some call)
    (hmarking : NotMarking w userId provider objectKey)
    (hstore : client w.shared.uploads (.store provider objectKey object) = some uploads) :
    CallOk userId { w.shared with uploads } call := by
  obtain rfl := some.inj hstore
  unfold CallOk at *
  split at h
  · exact h
  · obtain ⟨hdeleted, herasure⟩ := h
    refine ⟨hdeleted, ?_⟩
    unfold ErasureOk at *
    split at herasure
    · exact herasure
    · next id uploadId rest =>
      obtain ⟨⟨u, hu, huser, hgone⟩, hrest⟩ := herasure
      refine ⟨⟨u, hu, huser, fun hid hunmarked => ?_⟩, hrest⟩
      dsimp only
      rw [if_neg, hgone hid hunmarked]
      rintro ⟨hprovider, hkey⟩
      have hlength := (List.getElem?_eq_some_iff.mp hu).1
      exact hmarking uploadId (List.mem_range.mpr hlength) u hu (huser.trans hid) hprovider hkey
        ⟨i, _, hcall, rfl⟩
    · exact herasure
    · trivial
  · trivial

theorem accountOk_store {object : StoredObject} {uploads : UploadState}
    (hok : AccountOk initial userId s)
    (hstored : StoredFor initial userId provider objectKey → HasUpload s userId provider objectKey)
    (hstore : client s.uploads (.store provider objectKey object) = some uploads) :
    AccountOk initial userId { s with uploads } := by
  obtain rfl := some.inj hstore
  refine ⟨hok.rows, fun p key hsome hfor => ?_⟩
  by_cases hsame : p = provider ∧ key = objectKey
  · obtain ⟨rfl, rfl⟩ := hsame
    obtain ⟨u, hu, huser⟩ := hstored hfor
    obtain ⟨id, hid⟩ := List.mem_iff_getElem?.mp hu
    exact ⟨id, u, hid, huser⟩
  · dsimp only at hsome
    rw [if_neg hsame] at hsome
    exact hok.objects p key hsome hfor

theorem erasing_outline (hok : AccountOk initial userId initial) :
    Outline (accounts cfg initial) (SafeStep initial userId) (erasing initial userId) where
  init := hok
  env w event s h hg henv := by
    obtain ⟨uploads, hclient, rfl⟩ := map_eq_some_iff.mp henv
    cases event with
    | tick ms =>
      obtain rfl := some.inj hclient
      have hst : Follows userId w.shared
          { w.shared with uploads := { w.shared.uploads with now := w.shared.uploads.now + ms } } :=
        .of_eq rfl rfl fun _ _ h => h
      exact ⟨⟨h.shared.rows, h.shared.objects⟩, fun j call hcall => (h.proc j call hcall).follows hst⟩
    | store provider objectKey object =>
      exact ⟨accountOk_store h.shared hg.1 hclient,
        fun j call hcall => (h.proc j call hcall).store hcall hg.2 hclient⟩
  spawn w request s call h _ hspawn := by
    obtain ⟨call', hcall, he⟩ := map_eq_some_iff.mp hspawn
    obtain ⟨rfl, rfl⟩ := Prod.mk.inj he
    refine ⟨h.shared, ?_, fun j other hother => ⟨h.proc j other hother, trivial, trivial⟩⟩
    unfold accountSpawn at hcall
    split_ifs at hcall
    split at hcall
    · split_ifs at hcall
      obtain rfl := some.inj hcall
      trivial
    · obtain rfl := some.inj hcall
      trivial
    · split_ifs at hcall with hdeleted
      obtain rfl := some.inj hcall
      exact ⟨hdeleted, trivial⟩
  step w i call answer t call' h hcall hg hstep := by
    have heffect := account_effect hstep
    refine ⟨accountOk_effect h.shared (h.proc i call hcall) hg hcall heffect, ?_⟩
    exact callOk_step h.shared (h.proc i call hcall) (follows_of_effect hg hcall heffect) hstep
  frame w i call answer t call' h hcall hg hstep j other _ hother := by
    refine ⟨(h.proc j other hother).follows ?_, trivial, trivial⟩
    exact follows_of_effect hg hcall (account_effect hstep)

/-- **Nothing is left of the uploads of a user** once the account is deleted and the worker has
returned, in every run in which the deletion has read every upload of the user, nothing is reserved
for the user after it and clients store objects only for uploads that are still to be erased. -/
theorem erasure_complete (hactive : userId ∉ initial.deleted)
    (hobjects : ∀ provider objectKey, ownsKey userId objectKey = true →
      (initial.uploads.objects provider objectKey).isSome = true →
        HasUpload initial userId provider objectKey)
    (h : ReachableBy (accounts cfg initial).system (SafeStep initial userId) w)
    (hreturned : w.Any (Returned userId)) : Erased initial userId w.shared.uploads := by
  have hinitial : AccountOk initial userId initial := by
    refine ⟨fun hdeleted => absurd hdeleted hactive, fun provider objectKey hsome hstored => ?_⟩
    have hupload : ∃ u ∈ initial.uploads.uploads,
        u.userId = userId ∧ u.provider = provider ∧ u.objectKey = objectKey := by
      rcases hstored with hown | hrow
      · obtain ⟨u, hu, huser, hprovider, hkey, -⟩ := hobjects provider objectKey hown hsome
        exact ⟨u, hu, huser, hprovider, hkey⟩
      · exact hrow
    obtain ⟨u, hu, huser, hprovider, hkey⟩ := hupload
    obtain ⟨id, hid⟩ := List.mem_iff_getElem?.mp hu
    exact ⟨id, u, hid, huser, hprovider, hkey, fun hdeleted => absurd hdeleted hactive⟩
  have hholds := (erasing_outline hinitial).holds h
  obtain ⟨i, call, hcall, hreturn⟩ := hreturned
  have hok : AccountOk initial userId w.shared := hholds.shared
  have hend := hholds.proc i call hcall
  unfold Returned at hreturn
  split at hreturn
  · obtain rfl := hreturn
    obtain ⟨hdeleted, hmarked⟩ := hend
    refine ⟨fun id u hu huser => ?_, fun provider objectKey hstored => ?_⟩
    · have hrow := hok.rows hdeleted id u hu huser
      exact ⟨hrow.originalName, hrow.checksum, hrow.objectKey (hmarked rfl id u hu huser)⟩
    · rw [← Option.not_isSome_iff_eq_none]
      intro hsome
      obtain ⟨id, u, hu, huser, -, -, hunmarked⟩ := hok.objects provider objectKey hsome hstored
      exact hmarked rfl id u hu huser (hunmarked hdeleted)
  · exact hreturn.elim

/-! ### An upload that is erased, and one that is not -/

def initiation : AccountRequest :=
  .upload (.initiateUpload ⟨"u", none, "a.jpg", "image/jpeg", 3, "u/1"⟩)

def deletion : List AccountLabel :=
  [.spawn (.deleteAccount "u"), .step 1 (.call .ok), .step 1 (.confirmed true), .step 1 (.call .ok),
    .step 1 (.call .ok), .spawn (.processAccountErasure "u"), .step 2 (.call .ok)]

theorem erasure_complete_pending : ∃ w : AccountWorld,
    w.shared.uploads.uploads.map (·.status) = [.deleted] ∧ Erased {} "u" w.shared.uploads := by
  obtain ⟨w, hw, hstatus, hreturned⟩ := (accounts webhookConfig {}).exists_reached (SafeStep {} "u")
    ([.spawn initiation, .step 0 (.upload (.call .ok)), .step 0 (.upload (.directive 900000)),
      .env (.store .s3 "u/1" jpeg)] ++ deletion ++
      [.step 2 (.page [0]), .step 2 (.call .ok), .step 2 (.call .ok), .step 2 (.page [])])
    (fun w => w.shared.uploads.uploads.map (·.status) = [.deleted] ∧ w.Any (Returned "u"))
    (by decide)
  exact ⟨w, hstatus, erasure_complete (by decide) nofun hw hreturned⟩

/-- **An upload that has failed remains.** The provider gives no URL, and the upload keeps its name
and its key when the account is deleted. -/
theorem failed_upload_remains : ∃ w : AccountWorld,
    Reachable (accounts webhookConfig {}).system w ∧ w.Any (Returned "u") ∧
      ¬ Erased {} "u" w.shared.uploads := by
  obtain ⟨w, hw, hreturned, hrow⟩ := (accounts webhookConfig {}).exists_reached anyStep
    ([.spawn initiation, .step 0 (.upload (.call .ok)),
      .step 0 (.upload (.call (.failed (.error "timeout")))), .step 0 (.upload (.call .ok))] ++
      deletion ++ [.step 2 (.page [])])
    (fun w => w.Any (Returned "u") ∧ w.shared.uploads.uploads.map
      (fun u => (u.userId, u.originalName)) = [("u", "a.jpg")])
    (by decide)
  refine ⟨w, hw, hreturned, fun herased => ?_⟩
  obtain ⟨u, hu, hnames⟩ := List.map_eq_singleton_iff.mp hrow
  obtain ⟨huser, hname⟩ := Prod.mk.inj hnames
  have hrow := (herased.rows 0 u (by rw [hu]; rfl) huser).1
  rw [hname] at hrow
  revert hrow
  decide

end BackendFoundation.Accounts.Erasure
