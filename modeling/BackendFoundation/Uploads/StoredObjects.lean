import BackendFoundation.Uploads.Verdicts

/-! # The objects of ready uploads

The sweep and the completion delete an object first and write the status of its upload afterwards,
each by what it has read before. Between the two, and between the read and the deletion, another
call can take the upload on, up to `READY` (`ready_object_deleted`).

`deleted_object_not_ready` says that no upload whose object has been deleted by one of them, or by
the scan, is or becomes ready, in the runs in which the deletion finds the upload as it was read and
the write of the status follows it. -/

namespace BackendFoundation.Uploads.StoredObjects

open Lib Lib.Runs Lib.Interleave Errors Uploads.Model Uploads.Writes Uploads.Verdicts
open Option (some.inj map_eq_some_iff)

variable {cfg : UploadConfig} {provider : UploadProvider} {s t : UploadState} {u v : Upload}
  {w w' w'' : UploadWorld} {l : UploadLabel} {uploadId : ℕ}

def Ready (s : UploadState) (uploadId : ℕ) : Prop :=
  ∃ u ∈ s.uploads[uploadId]?, u.status = .ready

def isDeleteUpload : UploadCall → Bool
  | .deleteUpload _ _ => true
  | _ => false

/-- The step is one of the sweep or of a path that completes or scans an upload. -/
def RejectsOrSweeps (w : UploadWorld) : UploadLabel → Prop
  | .step i _ => ∃ call ∈ w.proc? i, isDeleteUpload call = false
  | _ => False

/-- Such a step, after which the object of the upload is gone. -/
def DeletesObject (w : UploadWorld) (l : UploadLabel) (w' : UploadWorld) (uploadId : ℕ) : Prop :=
  RejectsOrSweeps w l ∧ ∃ u ∈ w.shared.uploads[uploadId]?,
    (w.shared.objects u.provider u.objectKey).isSome = true ∧
      w'.shared.objects u.provider u.objectKey = none

/-! ### The condition -/

/-- The upload whose object the sweep has deleted and whose status it is about to write. -/
def sweeps : UploadCall → Option ℕ
  | .expirePendingUploads _ (.markFailed _ uploadId _) => some uploadId
  | _ => none

/-- The upload whose object the sweep or a completion has deleted and whose status it is about to
write. -/
def givesUp : UploadCall → Option ℕ
  | .completeUpload call .failMismatch | .completeUpload call (.rejectSignature _) =>
    some call.uploadId
  | call => sweeps call

/-- The object that the sweep or a completion is about to delete. -/
def discards : UploadCall → Option String
  | .completeUpload _ (.deleteMismatch upload) | .completeUpload _ (.deleteSignature upload _) =>
    some upload.objectKey
  | .expirePendingUploads _ (.deleteObject _ _ objectKey _) => some objectKey
  | _ => none

def stored (cfg : UploadConfig) (s : UploadState) (objectKey : String) : Bool :=
  cfg.provider.any fun provider => (s.objects provider objectKey).isSome

/-- A completion does not delete the object of a ready upload, and the sweep deletes the object of an
upload only as long as no completion has accepted it. -/
def FindsUnaccepted (s : UploadState) : UploadCall → Prop
  | .completeUpload call _ => ∀ u ∈ s.uploads[call.uploadId]?, u.status ≠ .ready
  | .expirePendingUploads _ (.deleteObject _ uploadId _ _) =>
    ∀ u ∈ s.uploads[uploadId]?,
      u.status ≠ .quarantined ∧ u.status ≠ .scanning ∧ u.status ≠ .ready
  | _ => True

/-- No clean verdict comes between a deletion and the write of the status that follows it, and
nothing that would keep the sweep from writing it. -/
def NotBetween (w : UploadWorld) : UploadCall → Prop
  | .completeUpload call .finalize => ¬ w.Any (givesUp · = some call.uploadId)
  | .completeUpload call (.quarantine _ _ _) | .completeUpload call (.requestScan _) =>
    ¬ w.Any (sweeps · = some call.uploadId)
  | .processUploadScan uploadId (.finalize _ scan) =>
    scan.clean = true → ¬ w.Any (givesUp · = some uploadId)
  | _ => True

/-- What the statement or the request of a call needs, given its outcome: a deletion is answered,
and the write of the status takes effect. -/
def SafeCall (cfg : UploadConfig) (w : UploadWorld) (call : UploadCall) (o : Outcome Thrown) : Prop :=
  (o.TakesEffect → KeepsVerdict w.shared call ∧ NotBetween w call) ∧
    (∀ objectKey ∈ discards call, stored cfg w.shared objectKey = true → o.TakesEffect →
      FindsUnaccepted w.shared call ∧ o = .ok) ∧
    ((givesUp call).isSome = true → o.TakesEffect)

/-- A deletion finds its upload as it was read, and the write of the status follows it with nothing
in between; and verdicts are kept. -/
def SafeStep (cfg : UploadConfig) (w : UploadWorld) : UploadLabel → Prop
  | .step i (.call o) => ∀ call ∈ w.proc? i, SafeCall cfg w call o
  | .crash i => ∀ call ∈ w.proc? i, givesUp call = none
  | _ => True

instance : Decidable (Ready s uploadId) :=
  inferInstanceAs (Decidable (∃ u ∈ s.uploads[uploadId]?, _))

instance : DecidablePred (RejectsOrSweeps w) := fun l => by
  unfold RejectsOrSweeps
  split <;> infer_instance

instance : Decidable (DeletesObject w l w' uploadId) :=
  inferInstanceAs (Decidable (_ ∧ ∃ u ∈ w.shared.uploads[uploadId]?, _))

instance : DecidablePred (FindsUnaccepted s) := fun call => by
  unfold FindsUnaccepted
  split <;> infer_instance

instance : DecidablePred (NotBetween w) := fun call => by
  cases call with
  | completeUpload call pc => cases pc <;> dsimp only [NotBetween] <;> infer_instance
  | processUploadScan uploadId pc => cases pc <;> dsimp only [NotBetween] <;> infer_instance
  | _ => dsimp only [NotBetween]; infer_instance

instance (call : UploadCall) (o : Outcome Thrown) : Decidable (SafeCall cfg w call o) :=
  inferInstanceAs (Decidable (_ ∧ (∀ objectKey ∈ discards call, _) ∧ _))

instance (w : UploadWorld) : DecidablePred (SafeStep cfg w) := fun l => by
  cases l with
  | step i answer => cases answer <;> dsimp only [SafeStep] <;> infer_instance
  | _ => dsimp only [SafeStep]; infer_instance

theorem keepsVerdicts (h : SafeStep cfg w l) : KeepsVerdicts w l := by
  unfold KeepsVerdicts
  split
  · intro heffect call hcall
    exact ((h call hcall).1 heffect).1
  · trivial

/-! ### What a call has read -/

/-- A call has read an upload with this key, which may have been closed. -/
structure UploadRead where
  scope : Option String
  uploadId : ℕ
  objectKey : String
  closed : Bool := false

def UploadRead.Holds (read : UploadRead) (provider : UploadProvider) (s : UploadState) : Prop :=
  ∃ u ∈ s.uploads[read.uploadId]?, u.provider = provider ∧ u.objectKey = read.objectKey ∧
    (∀ organizationId ∈ read.scope, u.organizationId = some organizationId) ∧
    (read.closed = true → Closed u)

def pageReads (page : List (ℕ × String)) : List UploadRead :=
  page.map fun entry => { scope := none, uploadId := entry.1, objectKey := entry.2 }

def readsOf : UploadCall → List UploadRead
  | .completeUpload call (.inspectObject upload) | .completeUpload call (.deleteMismatch upload)
  | .completeUpload call (.readObjectPrefix upload _)
  | .completeUpload call (.deleteSignature upload _) =>
    [{ scope := call.scope, uploadId := call.uploadId, objectKey := upload.objectKey }]
  | .processUploadScan uploadId (.markScanning upload)
  | .processUploadScan uploadId (.createDownloadUrl upload)
  | .processUploadScan uploadId (.scanUpload upload)
  | .processUploadScan uploadId (.finalize upload _) =>
    [{ scope := none, uploadId, objectKey := upload.objectKey }]
  | .processUploadScan uploadId (.deleteRejected upload)
  | .processUploadScan uploadId (.deleteMalicious upload) =>
    [{ scope := none, uploadId, objectKey := upload.objectKey, closed := true }]
  | .expirePendingUploads _ (.deleteObject _ uploadId objectKey rest) =>
    pageReads ((uploadId, objectKey) :: rest)
  | .expirePendingUploads _ (.markFailed _ _ rest) => pageReads rest
  | _ => []

/-- What the call has read still holds. -/
def Informed (provider : UploadProvider) (s : UploadState) (call : UploadCall) : Prop :=
  ∀ read ∈ readsOf call, read.Holds provider s

/-- Every upload is kept, and stays closed once it is. -/
def Kept (s t : UploadState) : Prop :=
  ∀ id : ℕ, ∀ u ∈ s.uploads[id]?, ∃ v ∈ t.uploads[id]?, SameUpload u v ∧ (Closed u → Closed v)

theorem Informed.kept {call : UploadCall} (h : Informed provider s call) (hkept : Kept s t) :
    Informed provider t call := by
  intro read hread
  obtain ⟨u, hu, hprovider, hkey, hscope, hclosed⟩ := h read hread
  obtain ⟨v, hv, hsame, hstays⟩ := hkept _ u hu
  refine ⟨v, hv, hsame.provider.trans hprovider, hsame.objectKey.trans hkey, ?_, ?_⟩
  · intro organizationId horganization
    rw [hsame.organizationId]
    exact hscope organizationId horganization
  · exact fun hc => hstays (hclosed hc)

theorem Informed.of_eq {call call' : UploadCall} (h : Informed provider s call)
    (hreads : readsOf call' = readsOf call) : Informed provider s call' := by
  unfold Informed
  rw [hreads]
  exact h

theorem informed_of_nil {call : UploadCall} (h : readsOf call = []) : Informed provider s call := by
  unfold Informed
  rw [h]
  exact fun _ hread => absurd hread List.not_mem_nil

/-- A statement of a call, if the call needs nothing that it has read wherever it goes on. -/
theorem informed_run {P : Type} {o : Outcome Thrown} {s₁ s₂ s₃ : UploadState} {p q : P}
    {f : Thrown → P} {w : P → UploadCall} (h : o.run s₁ s₂ p f = (s₃, q))
    (hp : readsOf (w p) = []) (hf : ∀ e, readsOf (w (f e)) = []) : Informed provider s (w q) := by
  rcases Outcome.run_pc h with rfl | ⟨e, rfl⟩
  · exact informed_of_nil hp
  · exact informed_of_nil (hf e)

theorem informed_attempt {P : Type} {o : Outcome Thrown} {s₁ s₂ : UploadState} {p q : P}
    {result : Except Thrown UploadState} {f : Thrown → P} {w : P → UploadCall}
    (h : attempt o s₁ result p f = (s₂, q)) (hp : readsOf (w p) = [])
    (hf : ∀ e, readsOf (w (f e)) = []) : Informed provider s (w q) := by
  rcases attempt_pc h with ⟨-, rfl⟩ | ⟨e, rfl⟩
  · exact informed_of_nil hp
  · exact informed_of_nil (hf e)

variable {scope : Option String} {cond : Upload → Bool}

theorem holds_of_find (h : s.find scope uploadId cond = some u)
    (hprovider : u.provider = provider) :
    UploadRead.Holds { scope, uploadId, objectKey := u.objectKey } provider s := by
  obtain ⟨hu, hvisible, -⟩ := find_eq_some.mp h
  exact ⟨u, hu, hprovider, rfl, (of_decide_eq_true hvisible).2, nofun⟩

theorem informed_completeFound (call : CompleteUpload) : Informed provider s
      (.completeUpload call (completeFound provider (s.find call.scope call.uploadId cond))) := by
  cases hfind : s.find call.scope call.uploadId cond with
  | none => exact informed_of_nil rfl
  | some u =>
    simp only [completeFound]
    split_ifs with hprovider
    · exact informed_of_nil rfl
    · exact informed_of_nil rfl
    · exact informed_of_nil rfl
    · intro read hread
      obtain rfl := List.mem_singleton.mp hread
      exact holds_of_find hfind (not_not.mp hprovider)

variable {answer : Answer}

theorem informed_complete {call : CompleteUpload} {pc pc' : CompletePc}
    (h : completeStep cfg provider s call pc answer = some (t, pc'))
    (hreads : Informed provider s (.completeUpload call pc)) :
    Informed provider s (.completeUpload call pc') := by
  unfold completeStep at h
  split at h
  · rcases Outcome.run_pc (some.inj h) with rfl | ⟨e, rfl⟩
    · exact informed_completeFound call
    · exact informed_of_nil rfl
  · next upload o =>
    rcases Outcome.run_pc (some.inj h) with rfl | ⟨e, rfl⟩
    · cases s.objects provider upload.objectKey with
      | none => exact informed_of_nil rfl
      | some object =>
        simp only [completeInspected]
        split_ifs
        · exact hreads.of_eq rfl
        · exact hreads.of_eq rfl
    · exact informed_of_nil rfl
  · exact informed_run (w := .completeUpload call) (some.inj h) rfl fun _ => rfl
  · exact informed_attempt (w := .completeUpload call) (some.inj h) rfl fun _ => rfl
  · next upload stored o =>
    rcases Outcome.run_pc (some.inj h) with rfl | ⟨e, rfl⟩
    · cases s.objects provider upload.objectKey with
      | none => exact informed_of_nil rfl
      | some object =>
        simp only [completePrefix]
        split_ifs
        · exact informed_of_nil rfl
        · exact hreads.of_eq rfl
    · exact informed_of_nil rfl
  · exact informed_run (w := .completeUpload call) (some.inj h) rfl fun _ => rfl
  · exact informed_attempt (w := .completeUpload call) (some.inj h) rfl fun _ => rfl
  · rcases attempt_pc (some.inj h) with ⟨-, rfl⟩ | ⟨e, rfl⟩
    · refine informed_of_nil ?_
      unfold completeQuarantined
      split
      · split_ifs <;> rfl
      · rfl
    · exact informed_of_nil rfl
  · exact informed_attempt (w := .completeUpload call) (some.inj h) rfl fun _ => rfl
  · exact informed_attempt (w := .completeUpload call) (some.inj h) rfl fun _ => rfl
  · cases h

theorem informed_scanFound : Informed provider s (.processUploadScan uploadId
      (scanFound provider uploadId (s.find none uploadId cond))) := by
  cases hfind : s.find none uploadId cond with
  | none => exact informed_of_nil rfl
  | some u =>
    simp only [scanFound]
    split_ifs with hprovider hrejected
    · exact informed_of_nil rfl
    · intro read hread
      obtain rfl := List.mem_singleton.mp hread
      obtain ⟨v, hv, hp, hkey, hscope, -⟩ := holds_of_find hfind (not_not.mp hprovider)
      have hvu : v = u := some.inj (hv.symm.trans (find_eq_some.mp hfind).1)
      exact ⟨v, hv, hp, hkey, hscope, fun _ => .inl (.inl (hvu ▸ hrejected))⟩
    · exact informed_of_nil rfl
    · intro read hread
      obtain rfl := List.mem_singleton.mp hread
      exact holds_of_find hfind (not_not.mp hprovider)

theorem informed_malicious {upload : Upload} {scan : Scan} (hclean : ¬ scan.clean = true)
    (hreads : Informed provider s (.processUploadScan uploadId (.finalize upload scan)))
    (h : s.update scope uploadId (Upload.finalized scan s.now) = .ok t) :
    Informed provider t (.processUploadScan uploadId (.deleteMalicious upload)) := by
  have hfound : (s.find scope uploadId anyUpload).isSome = true := by
    unfold UploadState.update at h
    split_ifs at h with hfound
    exact hfound
  obtain ⟨v, hfind⟩ := Option.isSome_iff_exists.mp hfound
  obtain ⟨hv, hvisible, -⟩ := find_eq_some.mp hfind
  obtain rfl := update_ok h
  intro read hread
  obtain rfl := List.mem_singleton.mp hread
  obtain ⟨u, hu, hprovider, hkey, hscope, -⟩ := hreads _ (List.mem_singleton.mpr rfl)
  obtain rfl := some.inj (hv.symm.trans hu)
  refine ⟨v.finalized scan s.now, ?_, hprovider, hkey, hscope, fun _ => .inl (.inl ?_)⟩
  · simp [UploadState.updateMany, List.getElem?_modify_eq, hv, hvisible, anyUpload]
  · simp [Upload.finalized, hclean]

theorem informed_scan {pc pc' : ScanPc} (hkept : Kept s t)
    (h : scanStep cfg provider s uploadId pc answer = some (t, pc'))
    (hreads : Informed provider s (.processUploadScan uploadId pc)) :
    Informed provider t (.processUploadScan uploadId pc') := by
  unfold scanStep at h
  split at h
  · have hstate := (Outcome.read_cases (some.inj h)).1
    subst hstate
    rcases Outcome.run_pc (some.inj h) with rfl | ⟨e, rfl⟩
    · exact informed_scanFound
    · exact informed_of_nil rfl
  · exact informed_run (w := .processUploadScan uploadId) (some.inj h) rfl fun _ => rfl
  · exact informed_run (w := .processUploadScan uploadId) (some.inj h) rfl fun _ => rfl
  · rcases Outcome.run_pc (some.inj h) with rfl | ⟨e, rfl⟩
    · exact (hreads.kept hkept).of_eq rfl
    · exact informed_of_nil rfl
  · rcases Outcome.run_pc (some.inj h) with rfl | ⟨e, rfl⟩
    · exact (hreads.kept hkept).of_eq rfl
    · exact informed_of_nil rfl
  · obtain ⟨r, -, hr⟩ := map_eq_some_iff.mp h
    cases r with
    | ok scan =>
      obtain rfl := congrArg Prod.snd hr
      exact (hreads.kept hkept).of_eq rfl
    | error e =>
      obtain rfl := congrArg Prod.snd hr
      exact informed_of_nil rfl
  · next upload scan o =>
    rcases attempt_pc (some.inj h) with ⟨hok, hpc⟩ | ⟨e, rfl⟩
    · split_ifs at hpc with hclean
      · subst hpc
        exact informed_of_nil rfl
      · subst hpc
        exact informed_malicious hclean hreads hok
    · exact informed_of_nil rfl
  · exact informed_run (w := .processUploadScan uploadId) (some.inj h) rfl fun _ => rfl
  · exact informed_run (w := .processUploadScan uploadId) (some.inj h) rfl fun _ => rfl
  · exact informed_run (w := .processUploadScan uploadId) (some.inj h) rfl fun _ => rfl
  · cases h

theorem informed_page {now : ℤ} {uploadIds : List ℕ} {page : List (ℕ × String)}
    (h : readPage provider s now uploadIds = some page) :
    ∀ read ∈ pageReads page, read.Holds provider s := by
  induction uploadIds generalizing page with
  | nil =>
    obtain rfl : [] = page := some.inj h
    exact fun _ hread => absurd hread List.not_mem_nil
  | cons id rest ih =>
    rw [readPage, List.mapM_cons] at h
    obtain ⟨entry, hentry, h⟩ := Option.bind_eq_some_iff.mp h
    obtain ⟨tail, htail, h⟩ := Option.bind_eq_some_iff.mp h
    obtain rfl : entry :: tail = page := some.inj h
    obtain ⟨u, hfind, rfl⟩ := map_eq_some_iff.mp hentry
    have hexpired := of_decide_eq_true (find_eq_some.mp hfind).2.2
    intro read hread
    rcases List.mem_cons.mp hread with rfl | hread
    · exact holds_of_find hfind hexpired.1
    · exact ih htail read hread

theorem readsOf_expireNext {call : ExpirePendingUploads} {last : Bool}
    {rest : List (ℕ × String)} :
    readsOf (.expirePendingUploads call (expireNext last rest)) = pageReads rest := by
  cases rest with
  | nil => cases last <;> rfl
  | cons entry rest => rfl

theorem informed_expire {call : ExpirePendingUploads} {pc pc' : ExpirePc} (hkept : Kept s t)
    (h : expireStep provider s call pc answer = some (t, pc'))
    (hreads : Informed provider s (.expirePendingUploads call pc)) :
    Informed provider t (.expirePendingUploads call pc') := by
  unfold expireStep at h
  split at h
  · split_ifs at h
    obtain ⟨page, hpage, hp⟩ := map_eq_some_iff.mp h
    obtain ⟨rfl, rfl⟩ := Prod.mk.inj hp
    intro read hread
    rw [readsOf_expireNext] at hread
    exact informed_page hpage read hread
  · obtain ⟨-, rfl⟩ := pair_inj h
    exact informed_of_nil rfl
  · next last id objectKey rest o =>
    have hrest : Informed provider t (.expirePendingUploads call (.markFailed last id rest)) :=
      fun read hread => hreads.kept hkept read (List.mem_cons_of_mem _ hread)
    rcases Outcome.run_pc (some.inj h) with rfl | ⟨e, rfl⟩
    · exact hrest
    · exact hrest.of_eq readsOf_expireNext
  · rcases Outcome.run_pc (some.inj h) with rfl | ⟨e, rfl⟩
    · exact (hreads.kept hkept).of_eq readsOf_expireNext
    · exact (hreads.kept hkept).of_eq readsOf_expireNext
  · cases h

theorem informed_uploadStep {call call' : UploadCall} (hprovider : cfg.provider = some provider)
    (hkept : Kept s t) (h : uploadStep cfg s call answer = some (t, call'))
    (hreads : Informed provider s call) : Informed provider t call' := by
  rw [uploadStep, hprovider] at h
  dsimp only at h
  split at h
  all_goals
    obtain ⟨pc', hstep, rfl⟩ := map_pair_inj h
  · exact informed_of_nil rfl
  · exact (informed_complete hstep hreads).kept hkept
  · exact informed_scan hkept hstep hreads
  · exact informed_of_nil rfl
  · exact informed_expire hkept hstep hreads

theorem informed_spawn (request : UploadRequest) :
    Informed provider s (uploadSpawn cfg s request) := by
  refine informed_of_nil ?_
  cases request with
  | initiateUpload call => rfl
  | deleteUpload call => rfl
  | completeUpload call | processUploadScan uploadId | expirePendingUploads batchSize =>
    unfold uploadSpawn
    dsimp only
    split_ifs <;> rfl

/-- No two uploads have one key with one provider. -/
def OneUploadPerKey (s : UploadState) : Prop :=
  ∀ (i j : ℕ) (u v : Upload), s.uploads[i]? = some u → s.uploads[j]? = some v →
    u.provider = v.provider → u.objectKey = v.objectKey → i = j

theorem OneUploadPerKey.step (h : OneUploadPerKey s) (hstep : Continues s t) :
    OneUploadPerKey t := by
  intro i j u v hu hv hprovider hkey
  rcases hstep.added i u hu with ⟨x, hx, hxu⟩ | ⟨rfl, hfree⟩
  · rcases hstep.added j v hv with ⟨y, hy, hyv⟩ | ⟨rfl, hfree⟩
    · refine h i j x y hx hy ?_ ?_
      · rw [← hxu.provider, ← hyv.provider, hprovider]
      · rw [← hxu.objectKey, ← hyv.objectKey, hkey]
    · exact absurd (hxu.objectKey.symm.trans hkey)
        (hfree x (List.mem_of_getElem? hx) (hxu.provider.symm.trans hprovider))
  · rcases hstep.added j v hv with ⟨y, hy, hyv⟩ | ⟨rfl, -⟩
    · exact absurd (hyv.objectKey.symm.trans hkey.symm)
        (hfree y (List.mem_of_getElem? hy) (hyv.provider.symm.trans hprovider.symm))
    · rfl

/-- The steps that keep verdicts, from the states that a run reaches. -/
def VerdictStep (w : UploadWorld) (l : UploadLabel) : Prop :=
  KeepsVerdicts w l ∧ ∀ uploadId : ℕ, ∀ u ∈ w.shared.uploads[uploadId]?, UploadOk u

theorem kept_of_step {i : ℕ} {call call' : UploadCall} (hgood : VerdictStep w (.step i answer))
    (hcall : w.proc? i = some call) (h : uploadStep cfg w.shared call answer = some (t, call')) :
    Kept w.shared t := by
  have hnext : (uploads cfg).next w (.step i answer) = some (w.put i t call') := by
    simp only [Program.next, hcall]
    exact map_eq_some_iff.mpr ⟨(t, call'), h, rfl⟩
  intro id u hu
  obtain ⟨v, hv, hstep⟩ := (evolves_next hnext).kept id u hu
  obtain ⟨v', hv', hsame⟩ := (continues_uploadStep h).kept id u hu
  obtain rfl := some.inj (hv.symm.trans hv')
  rw [eq_true hgood.1] at hstep
  exact ⟨v, hv, hsame, fun hclosed => hclosed.step (hgood.2 id u hu) hstep⟩

def informed (cfg : UploadConfig) : Assertions UploadState UploadCall where
  shared := OneUploadPerKey
  proc _ call s := ∀ provider, cfg.provider = some provider → Informed provider s call

theorem informed_outline : Outline (uploads cfg) VerdictStep (informed cfg) where
  init := by
    intro i j u v hu
    exact absurd hu (by simp [uploads])
  env w e s h _ henv := by
    have huploads : s.uploads = w.shared.uploads := by
      cases e <;> obtain rfl := some.inj henv <;> rfl
    have hsame : Kept w.shared s :=
      fun id u hu => ⟨u, by rw [huploads]; exact hu, .refl u, fun hc => hc⟩
    refine ⟨h.shared.step (.of_eq huploads), fun j call hcall provider hprovider => ?_⟩
    exact (h.proc j call hcall provider hprovider).kept hsame
  spawn w request s call h _ hspawn := by
    obtain ⟨rfl, rfl⟩ := pair_inj hspawn
    refine ⟨h.shared, fun _ _ => informed_spawn request, fun j other hother => ?_⟩
    exact ⟨h.proc j other hother, trivial, trivial⟩
  step w i call answer t call' h hcall hgood hstep := by
    refine ⟨h.shared.step (continues_uploadStep hstep), fun provider hprovider => ?_⟩
    exact informed_uploadStep hprovider (kept_of_step hgood hcall hstep) hstep
      (h.proc i call hcall provider hprovider)
  frame w i call answer t call' h hcall hgood hstep j other _ hother := by
    refine ⟨fun provider hprovider => ?_, trivial, trivial⟩
    exact (h.proc j other hother provider hprovider).kept (kept_of_step hgood hcall hstep)

theorem informed_holds (h : ReachableBy (uploads cfg).system KeepsVerdicts w) :
    (informed cfg).Holds w :=
  informed_outline.holds (h.strengthen fun _ hr => uploadOk hr)

/-! ### Uploads that are given up -/

/-- The call has deleted the object, and its write of the status will find the upload. -/
def Awaits (uploadId : ℕ) (u : Upload) : UploadCall → Prop
  | .completeUpload call .failMismatch | .completeUpload call (.rejectSignature _) =>
    call.uploadId = uploadId ∧ visible call.scope u = true ∧ u.status ≠ .ready
  | .expirePendingUploads _ (.markFailed _ id _) =>
    id = uploadId ∧ visible none u = true ∧ u.status = .pending
  | _ => False

/-- The upload is closed, or some call is about to close it. -/
def GivenUp (w : UploadWorld) (uploadId : ℕ) : Prop :=
  ∃ u ∈ w.shared.uploads[uploadId]?, Closed u ∨ w.Any (Awaits uploadId u)

theorem GivenUp.not_ready (h : GivenUp w uploadId) : ¬ Ready w.shared uploadId := by
  rintro ⟨v, hv, hready⟩
  obtain ⟨u, hu, hgiven⟩ := h
  obtain rfl := some.inj (hu.symm.trans hv)
  rcases hgiven with ((hs | hs) | hs) | ⟨i, call, -, hawaits⟩
  · rw [hready] at hs
    cases hs
  · rw [hready] at hs
    cases hs
  · rw [hready] at hs
    cases hs
  · unfold Awaits at hawaits
    split at hawaits
    · exact hawaits.2.2 hready
    · exact hawaits.2.2 hready
    · rw [hready] at hawaits
      cases hawaits.2.2
    · exact hawaits

theorem Awaits.givesUp {call : UploadCall} (h : Awaits uploadId u call) :
    givesUp call = some uploadId := by
  unfold Awaits at h
  split at h
  · exact congrArg some h.1
  · exact congrArg some h.1
  · exact congrArg some h.1
  · exact h.elim

theorem Awaits.same {call : UploadCall} (h : Awaits uploadId u call) (hstatus : v.status = u.status)
    (hdeleted : v.deletedAt = u.deletedAt) (howner : v.organizationId = u.organizationId) :
    Awaits uploadId v call := by
  unfold Awaits visible at *
  rw [hstatus, hdeleted, howner]
  exact h

/-- A completion closes an upload that is not ready, whatever its status; the sweep only one that is
pending. -/
theorem Awaits.moved {call : UploadCall} (h : Awaits uploadId u call)
    (hsweep : u.status = .pending → sweeps call ≠ some uploadId) (hstatus : v.status ≠ .ready)
    (hdeleted : v.deletedAt = u.deletedAt) (howner : v.organizationId = u.organizationId) :
    Awaits uploadId v call := by
  have hvisible : ∀ scope, visible scope v = visible scope u := by
    intro scope
    rw [visible, visible, hdeleted, howner]
  unfold Awaits at *
  split at h
  · exact ⟨h.1, (hvisible _).trans h.2.1, hstatus⟩
  · exact ⟨h.1, (hvisible _).trans h.2.1, hstatus⟩
  · exact absurd (congrArg some h.1) (hsweep h.2.2)
  · exact h.elim

theorem closed_of_run (write : RowWrite) {P : Type} {p q : P} {f : Thrown → P}
    {o : Outcome Thrown} (hu : s.uploads[write.uploadId]? = some u)
    (hfinds : write.finds u = true) (hclosed : Closed (write.data u)) (ho : o.TakesEffect)
    (h : o.run s (write.apply s) p f = (t, q)) : ∃ v ∈ t.uploads[write.uploadId]?, Closed v := by
  have ht : t = write.apply s := by
    rcases Outcome.run_cases h with ⟨-, ht, -⟩ | ⟨e, rfl, -, -⟩ | ⟨e, -, ht, -⟩
    · exact ht
    · exact ho.elim
    · exact ht
  refine ⟨write.data u, ?_, hclosed⟩
  rw [ht, getElem?_apply, hu]
  simp [hfinds]

theorem closed_of_update {data : Upload → Upload} {P : Type} {p q : P} {f : Thrown → P}
    {o : Outcome Thrown} (hu : s.uploads[uploadId]? = some u) (hvisible : visible scope u = true)
    (hclosed : Closed (data u)) (ho : o.TakesEffect)
    (h : attempt o s (s.update scope uploadId data) p f = (t, q)) :
    ∃ v ∈ t.uploads[uploadId]?, Closed v := by
  have hfind : s.find scope uploadId anyUpload = some u := find_eq_some.mpr ⟨hu, hvisible, rfl⟩
  have hupdate : s.update scope uploadId data =
      .ok (s.updateMany scope uploadId anyUpload data) := by
    rw [UploadState.update, hfind]
    rfl
  rw [hupdate] at h
  exact closed_of_run { scope, uploadId, data } hu (Bool.and_eq_true_iff.mpr ⟨hvisible, rfl⟩)
    hclosed ho h

theorem closed_of_own_step {call call' : UploadCall} {o : Outcome Thrown}
    (hawaits : Awaits uploadId u call) (hu : s.uploads[uploadId]? = some u) (ho : o.TakesEffect)
    (h : uploadStep cfg s call (.call o) = some (t, call')) :
    ∃ v ∈ t.uploads[uploadId]?, Closed v := by
  unfold uploadStep at h
  split at h
  · cases h
  · unfold Awaits at hawaits
    split at hawaits
    · obtain ⟨rfl, hvisible, -⟩ := hawaits
      obtain ⟨r, hstep, -, -⟩ := map_eq_some_iff.mp h
      exact closed_of_update hu hvisible (.inl (.inr rfl)) ho (some.inj hstep)
    · obtain ⟨rfl, hvisible, -⟩ := hawaits
      obtain ⟨r, hstep, -, -⟩ := map_eq_some_iff.mp h
      exact closed_of_update hu hvisible (.inl (.inl rfl)) ho (some.inj hstep)
    · obtain ⟨rfl, hvisible, hpending⟩ := hawaits
      obtain ⟨r, hstep, -, -⟩ := map_eq_some_iff.mp h
      refine closed_of_run {
        scope := none
        uploadId := _
        cond := fun u => u.status = .pending
        data := Upload.failed } hu ?_ (.inl (.inr rfl)) ho (some.inj hstep)
      exact Bool.and_eq_true_iff.mpr ⟨hvisible, decide_eq_true hpending⟩
    · exact hawaits.elim

/-- A write of another call closes the upload, or leaves it for the call that has given it up. -/
theorem awaits_of_write {i : ℕ} {call other : UploadCall} {write : RowWrite} {now : ℤ}
    (hwrite : writeOf now call = some write) (hfinds : write.finds u = true)
    (hawaits : Awaits write.uploadId u other) (hother : w.proc? i = some other)
    (hbetween : NotBetween w call) :
    Closed (write.data u) ∨ Awaits write.uploadId (write.data u) other := by
  have hcond := (Bool.and_eq_true_iff.mp hfinds).2
  have hgives : w.Any (givesUp · = some write.uploadId) := ⟨i, other, hother, hawaits.givesUp⟩
  have hsweep : ¬ w.Any (sweeps · = some write.uploadId) → sweeps other ≠ some write.uploadId :=
    fun hnone hsweeps => hnone ⟨i, other, hother, hsweeps⟩
  unfold writeOf at hwrite
  split at hwrite
  all_goals cases hwrite
  · exact .inr (hawaits.same rfl rfl rfl)
  · exact .inl (.inl (.inr rfl))
  · exact .inl (.inl (.inr rfl))
  · exact .inl (.inl (.inl rfl))
  · exact .inr (hawaits.moved (fun _ => hsweep hbetween) (by simp [Upload.quarantined]) rfl rfl)
  · exact absurd hgives hbetween
  · exact .inr (hawaits.moved (fun _ => hsweep hbetween) (by simp [Upload.scanning]) rfl rfl)
  · exact .inr (hawaits.same rfl rfl rfl)
  · exact .inr (hawaits.same rfl rfl rfl)
  · refine .inr (hawaits.moved (fun hpending => ?_) (by simp [Upload.scanning]) rfl rfl)
    simp [scannable, hpending] at hcond
  · next upload scan =>
    by_cases hclean : scan.clean = true
    · exact absurd hgives (hbetween hclean)
    · exact .inl (.inl (.inl (by simp [Upload.finalized, hclean])))
  · refine .inr (hawaits.moved (fun hpending => ?_) (by simp [Upload.scanError]) rfl rfl)
    simp [hpending] at hcond
  · exact .inl (.inr rfl)
  · exact .inl (.inl (.inr rfl))

theorem answer_of_awaits {call call' : UploadCall} (hawaits : Awaits uploadId u call)
    (h : uploadStep cfg s call answer = some (t, call')) : ∃ o, answer = .call o := by
  unfold uploadStep at h
  split at h
  · cases h
  · unfold Awaits at hawaits
    split at hawaits
    · cases answer with
      | call o => exact ⟨o, rfl⟩
      | directive _ | scanned _ _ | page _ => cases h
    · cases answer with
      | call o => exact ⟨o, rfl⟩
      | directive _ | scanned _ _ | page _ => cases h
    · cases answer with
      | call o => exact ⟨o, rfl⟩
      | directive _ | scanned _ _ | page _ => cases h
    · exact hawaits.elim

/-- **An upload that is given up stays so.** -/
theorem GivenUp.next (h : GivenUp w uploadId) (hr : ReachableBy (uploads cfg).system (SafeStep cfg) w)
    (hg : SafeStep cfg w l) (hn : (uploads cfg).next w l = some w') : GivenUp w' uploadId := by
  obtain ⟨u, hu, hclosed | ⟨k, other, hother, hawaits⟩⟩ := h
  · obtain ⟨v, hv, hstep⟩ := (evolves_next hn).kept uploadId u hu
    rw [eq_true (keepsVerdicts hg)] at hstep
    exact ⟨v, hv, .inl (hclosed.step (uploadOk hr uploadId u hu) hstep)⟩
  · cases Program.move_of_next hn with
    | spawn hs =>
      obtain rfl := congrArg Prod.fst (some.inj hs)
      exact ⟨u, hu, .inr (World.Any.add ⟨k, other, hother, hawaits⟩)⟩
    | @crash i call hcall =>
      refine ⟨u, hu, .inr (World.Any.kill ⟨k, other, hother, hawaits⟩ hcall fun hown => ?_)⟩
      have hnone : givesUp call = none := hg call hcall
      rw [hown.givesUp] at hnone
      cases hnone
    | @env e s hs =>
      have huploads : s.uploads = w.shared.uploads := by
        cases e <;> obtain rfl := some.inj hs <;> rfl
      exact ⟨u, by rw [World.withShared_shared, huploads]; exact hu,
        .inr ⟨k, other, hother, hawaits⟩⟩
    | @step i answer call call' t hcall hs =>
      by_cases hk : k = i
      · subst hk
        obtain rfl := some.inj (hother.symm.trans hcall)
        obtain ⟨o, rfl⟩ := answer_of_awaits hawaits hs
        have ho := (hg other hcall).2.2 (by rw [hawaits.givesUp]; rfl)
        obtain ⟨v, hv, hclosed⟩ := closed_of_own_step hawaits hu ho hs
        exact ⟨v, hv, .inl hclosed⟩
      · have hwaits : ∀ v, Awaits uploadId v other → (w.put i t call').Any (Awaits uploadId v) :=
          fun v hv => ⟨k, other, (World.proc?_put_of_ne hk).trans hother, hv⟩
        obtain ⟨provider, -, heffect⟩ := step_effect hs
        cases heffect with
        | keeps => exact ⟨u, hu, .inr (hwaits u hawaits)⟩
        | deletes _ _ => exact ⟨u, hu, .inr (hwaits u hawaits)⟩
        | reserves _ _ hreserve =>
          obtain ⟨upload, huploads, -⟩ := reserveUpload_ok hreserve
          refine ⟨u, ?_, .inr (hwaits u hawaits)⟩
          rw [World.put_shared, huploads,
            List.getElem?_append_left (List.getElem?_eq_some_iff.mp hu).1]
          exact hu
        | @writes write _ hwrite _ hanswer huploads _ _ =>
          obtain ⟨o, rfl, ho⟩ := hanswer
          have hrow : t.uploads[uploadId]? = some
              (if write.uploadId = uploadId ∧ write.finds u = true then write.data u else u) := by
            rw [huploads, getElem?_apply, hu]
            rfl
          refine ⟨_, hrow, ?_⟩
          split_ifs with hfinds
          · obtain ⟨rfl, hfinds⟩ := hfinds
            exact (awaits_of_write hwrite hfinds hawaits hother ((hg call hcall).1 ho).2).imp_right
              (hwaits _)
          · exact .inr (hwaits u hawaits)

/-! ### Deletions -/

theorem UploadRead.Holds.row {read : UploadRead} (h : read.Holds provider s)
    (hkeys : OneUploadPerKey s) (hu : s.uploads[uploadId]? = some u) (hprovider : u.provider = provider)
    (hkey : u.objectKey = read.objectKey) :
    read.uploadId = uploadId ∧
      (∀ organizationId ∈ read.scope, u.organizationId = some organizationId) ∧
      (read.closed = true → Closed u) := by
  obtain ⟨v, hv, hp, hk, hscope, hclosed⟩ := h
  have hid : read.uploadId = uploadId :=
    hkeys _ _ v u hv hu (hp.trans hprovider.symm) (hk.trans hkey.symm)
  rw [hid] at hv
  obtain rfl := some.inj (hv.symm.trans hu)
  exact ⟨hid, hscope, hclosed⟩

theorem closed_or_visible (hok : UploadOk u)
    (hscope : ∀ organizationId ∈ scope, u.organizationId = some organizationId) :
    Closed u ∨ visible scope u = true := by
  cases hd : u.deletedAt with
  | none => exact .inr (decide_eq_true ⟨hd, hscope⟩)
  | some _ => exact .inl (.inr (hok.deleted.mpr (by rw [hd]; rfl)))

theorem awaits_of_deletion {call call' : UploadCall} {objectKey : String}
    (hprovider : cfg.provider = some provider) (hok : UploadOk u)
    (hu : s.uploads[uploadId]? = some u) (hkeys : OneUploadPerKey s)
    (hreads : Informed provider s call) (hup : u.provider = provider)
    (hukey : u.objectKey = objectKey) (hdiscards : discards call = some objectKey)
    (hfinds : FindsUnaccepted s call)
    (h : uploadStep cfg s call (.call .ok) = some (t, call')) :
    Closed u ∨ Awaits uploadId u call' := by
  rw [uploadStep, hprovider] at h
  unfold discards at hdiscards
  split at hdiscards
  · obtain rfl := some.inj hdiscards
    obtain ⟨-, rfl⟩ := pair_inj h
    obtain ⟨rfl, hscope, -⟩ := (hreads _ List.mem_cons_self).row hkeys hu hup hukey
    exact (closed_or_visible hok hscope).imp_right fun hvisible => ⟨rfl, hvisible, hfinds u hu⟩
  · obtain rfl := some.inj hdiscards
    obtain ⟨-, rfl⟩ := pair_inj h
    obtain ⟨rfl, hscope, -⟩ := (hreads _ List.mem_cons_self).row hkeys hu hup hukey
    exact (closed_or_visible hok hscope).imp_right fun hvisible => ⟨rfl, hvisible, hfinds u hu⟩
  · obtain rfl := some.inj hdiscards
    obtain ⟨-, rfl⟩ := pair_inj h
    obtain ⟨rfl, hscope, -⟩ := (hreads _ List.mem_cons_self).row hkeys hu hup hukey
    obtain ⟨hq, hs, hr⟩ := hfinds u hu
    rcases hstatus : u.status
    · exact (closed_or_visible hok hscope).imp_right fun hvisible => ⟨rfl, hvisible, hstatus⟩
    · exact absurd hstatus hq
    · exact absurd hstatus hs
    · exact absurd hstatus hr
    · exact .inl (.inl (.inl hstatus))
    · exact .inl (.inl (.inr hstatus))
    · exact .inl (.inr hstatus)
  · cases hdiscards

theorem discards_or_closed {call : UploadCall} {objectKey : String}
    (h : deletionOf call = some (uploadId, objectKey)) :
    discards call = some objectKey ∨
      (∃ read ∈ readsOf call, read.objectKey = objectKey ∧ read.closed = true) ∨
      ∃ request pc, call = .deleteUpload request pc := by
  unfold deletionOf at h
  split at h
  all_goals cases h
  · exact .inl rfl
  · exact .inl rfl
  · exact .inr (.inl ⟨_, List.mem_cons_self, rfl, rfl⟩)
  · exact .inr (.inl ⟨_, List.mem_cons_self, rfl, rfl⟩)
  · exact .inr (.inr ⟨_, _, rfl⟩)
  · exact .inl rfl

theorem givenUp_of_deletes (hr : ReachableBy (uploads cfg).system (SafeStep cfg) w)
    (hg : SafeStep cfg w l) (hn : (uploads cfg).next w l = some w')
    (hdeletes : DeletesObject w l w' uploadId) :
    w'.shared.uploads = w.shared.uploads ∧ GivenUp w' uploadId := by
  obtain ⟨hrejects, u, hu, hstored, hgone⟩ := hdeletes
  have hverdicts := hr.mono fun _ _ => keepsVerdicts
  cases Program.move_of_next hn with
  | spawn _ | crash _ | env _ => exact hrejects.elim
  | @step i answer call call' t hcall hs =>
    obtain ⟨_, hcall', hother⟩ := hrejects
    obtain rfl := some.inj (hcall'.symm.trans hcall)
    have hsame : t.objects ≠ w.shared.objects := by
      intro hobjects
      rw [World.put_shared, hobjects] at hgone
      rw [hgone] at hstored
      cases hstored
    obtain ⟨provider, hprovider, heffect⟩ := step_effect hs
    have hreads := (informed_holds hverdicts).proc i _ hcall provider hprovider
    have hkeys : OneUploadPerKey w.shared := (informed_holds hverdicts).shared
    cases heffect with
    | keeps => exact absurd rfl hsame
    | writes _ _ _ _ hobjects _ => exact absurd hobjects hsame
    | reserves _ _ hreserve =>
      obtain ⟨_, -, hobjects, -⟩ := reserveUpload_ok hreserve
      exact absurd hobjects hsame
    | @deletes id objectKey hdeletion hanswer =>
      have hkey : u.provider = provider ∧ u.objectKey = objectKey := by
        by_contra hne
        rw [World.put_shared, UploadState.deleteObject] at hgone
        dsimp only at hgone
        rw [if_neg hne] at hgone
        rw [hgone] at hstored
        cases hstored
      obtain ⟨o, rfl, ho⟩ := hanswer
      refine ⟨rfl, u, hu, ?_⟩
      rcases discards_or_closed hdeletion with hdiscards | ⟨read, hread, rfl, hclosed⟩ | hdelete
      · have hany : stored cfg w.shared objectKey = true := by
          rw [stored, hprovider, ← hkey.1, ← hkey.2]
          exact hstored
        obtain ⟨hfinds, rfl⟩ := (hg _ hcall).2.1 objectKey hdiscards hany ho
        exact (awaits_of_deletion hprovider (uploadOk hr uploadId u hu) hu hkeys hreads hkey.1 hkey.2
          hdiscards hfinds hs).imp_right (World.any_put_self hcall)
      · exact .inl (((hreads read hread).row hkeys hu hkey.1 hkey.2).2.2 hclosed)
      · obtain ⟨request, pc, rfl⟩ := hdelete
        cases hother

/-- **The objects of ready uploads are kept**, in every run in which a deletion finds its upload
unaccepted, the write of the status follows it with nothing in between, and verdicts are kept: no
upload whose object is deleted is ready, or becomes it later in the run. -/
theorem deleted_object_not_ready (hr : ReachableBy (uploads cfg).system (SafeStep cfg) w)
    (hg : SafeStep cfg w l) (hn : (uploads cfg).next w l = some w')
    (hdeletes : DeletesObject w l w' uploadId)
    (p : Path (uploads cfg).system (SafeStep cfg) w' w'') :
    ¬ Ready w.shared uploadId ∧ ¬ Ready w''.shared uploadId := by
  obtain ⟨huploads, hgiven⟩ := givenUp_of_deletes hr hg hn hdeletes
  constructor
  · have hnot := hgiven.not_ready
    unfold Ready at hnot ⊢
    rwa [huploads] at hnot
  · have hstays : GivenUp w'' uploadId :=
      p.stable (Q := fun w => GivenUp w uploadId) (fun _ _ _ hr hq hg hn => hq.next hr hg hn)
        (hr.step hg hn) hgiven
    exact hstays.not_ready

theorem deletion_of_exec (cfg : UploadConfig) (good : UploadWorld → UploadLabel → Prop)
    [∀ w l, Decidable (good w l)] (uploadId : ℕ) (ls : List UploadLabel) (l : UploadLabel)
    (ls' : List UploadLabel)
    (Q : UploadWorld → UploadWorld → Prop) [∀ w w', Decidable (Q w w')]
    (h : (exec (uploads cfg).system good ⟨{}, []⟩ ls).any (fun w =>
      ((uploads cfg).next w l).any fun w' => good w l && (decide (DeletesObject w l w' uploadId) &&
        (exec (uploads cfg).system good w' ls').any fun w'' => decide (Q w w''))) = true) :
    ∃ w w' w'', ReachableBy (uploads cfg).system good w ∧ good w l ∧
      (uploads cfg).next w l = some w' ∧ DeletesObject w l w' uploadId ∧
      Path (uploads cfg).system good w' w'' ∧ Q w w'' := by
  obtain ⟨w, hw, h⟩ := (Option.any_eq_true _ _).mp h
  obtain ⟨w', hn, h⟩ := (Option.any_eq_true _ _).mp h
  obtain ⟨hg, h⟩ := Bool.and_eq_true_iff.mp h
  obtain ⟨hdeletes, h⟩ := Bool.and_eq_true_iff.mp h
  obtain ⟨w'', hw', hq⟩ := (Option.any_eq_true _ _).mp h
  have hreach : ReachableBy (uploads cfg).system good w :=
    ReachableBy.path (.init rfl) (path_of_exec .refl hw)
  exact ⟨w, w', w'', hreach, of_decide_eq_true hg, hn, of_decide_eq_true hdeletes,
    path_of_exec .refl hw', of_decide_eq_true hq⟩

/-- An image of three bytes is stored and has expired, and the sweep has read it. -/
def expiredAndRead : List UploadLabel :=
  [.spawn (.initiateUpload ⟨"user", none, "a.jpg", "image/jpeg", 3, "key"⟩), .step 0 ok,
    .step 0 (.directive 900000), .env (.store .s3 "key" jpeg), .env (.tick 900001),
    .spawn (.expirePendingUploads 500), .step 1 (.page [0])]

/-- The sweep deletes the object and fails the upload, and a completion is refused. -/
theorem swept_object_not_ready : ∃ (w : UploadWorld) (l : UploadLabel) (w' w'' : UploadWorld),
    DeletesObject w l w' 0 ∧ w''.shared.uploads.map (·.status) = [.failed] ∧
      ¬ Ready w.shared 0 ∧ ¬ Ready w''.shared 0 := by
  obtain ⟨w, w', w'', hw, hg, hn, hdeletes, p, hfailed⟩ :=
    deletion_of_exec webhookConfig (SafeStep webhookConfig) 0 expiredAndRead (.step 1 ok)
      [.step 1 ok, .spawn (.completeUpload ⟨"user", none, 0⟩), .step 2 ok]
      (fun _ w'' => w''.shared.uploads.map (·.status) = [.failed]) (by decide)
  exact ⟨w, _, w', w'', hdeletes, hfailed, deleted_object_not_ready hw hg hn hdeletes p⟩

def signatureConfig : UploadConfig := { webhookConfig with scanMode := .disabled }

/-- **The object of a ready upload is deleted.** The upload is completed between the read and the
deletion of the sweep. -/
theorem ready_object_deleted : ∃ w l w', Reachable (uploads signatureConfig).system w ∧
    (uploads signatureConfig).next w l = some w' ∧ DeletesObject w l w' 0 ∧ Ready w.shared 0 := by
  obtain ⟨w, w', -, hw, -, hn, hdeletes, -, hready⟩ :=
    deletion_of_exec signatureConfig anyStep 0
      (expiredAndRead ++ [.spawn (.completeUpload ⟨"user", none, 0⟩), .step 2 ok, .step 2 ok,
        .step 2 ok, .step 2 ok, .step 2 ok]) (.step 1 ok) [] (fun w _ => Ready w.shared 0)
      (by decide)
  exact ⟨w, _, w', hw, hn, hdeletes, hready⟩

end BackendFoundation.Uploads.StoredObjects
