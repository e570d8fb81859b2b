import BackendFoundation.Uploads.Writes

/-! # Verdicts on uploads

`StatusStep` says how one step of any call can change one upload: its status, the verdict of its
scan and its deletion. All the writes but three are guarded by the status that they find. The three
are the request of a scan, which makes an upload `SCANNING`, and the two writes of a clean verdict,
which make it `READY`: they were decided on an earlier read, and can find an upload that has been
rejected since (`verdict_overturned`).

`verdicts_final` says that verdicts are final in the runs in which these three never find an upload
that has been rejected or has failed. -/

namespace BackendFoundation.Uploads.Verdicts

open Lib Lib.Runs Lib.Interleave Errors Uploads.Model Uploads.Writes

variable {cfg : UploadConfig} {provider : UploadProvider} {s t : UploadState} {u v : Upload}
  {scope : Option String} {uploadId : ℕ} {keeps : Prop}

/-- An upload that has been rejected stays away from the scanner, and one that has been rejected,
has failed or is deleted does not become ready. -/
def VerdictsKept (s t : UploadState) : Prop :=
  ∀ uploadId : ℕ, ∀ u ∈ s.uploads[uploadId]?, ∃ v ∈ t.uploads[uploadId]?,
    (u.status = .rejected →
      v.status ≠ .quarantined ∧ v.status ≠ .scanning ∧ v.status ≠ .ready) ∧
    (u.status = .failed ∨ u.status = .deleted → v.status ≠ .ready)

def ReadyClean (s : UploadState) : Prop :=
  ∀ uploadId : ℕ, ∀ u ∈ s.uploads[uploadId]?, u.status = .ready → u.scanVerdict = some .clean

/-! ### The condition -/

/-- The upload has been rejected or has failed. -/
def Settled (u : Upload) : Prop := u.status = .rejected ∨ u.status = .failed

instance (u : Upload) : Decidable (Settled u) := inferInstanceAs (Decidable (_ ∨ _))

/-- The upload that an update finds has no verdict yet. -/
def FindsOpen (s : UploadState) (scope : Option String) (uploadId : ℕ) : Prop :=
  ∀ u ∈ s.find scope uploadId anyUpload, ¬ Settled u

instance : Decidable (FindsOpen s scope uploadId) :=
  inferInstanceAs (Decidable (∀ u ∈ s.find scope uploadId anyUpload, _))

def KeepsVerdict (s : UploadState) : UploadCall → Prop
  | .completeUpload call .finalize => FindsOpen s call.scope call.uploadId
  | .completeUpload call (.requestScan stored) =>
    scanDedupeKey call.uploadId stored ∉ s.dedupeKeys → FindsOpen s call.scope call.uploadId
  | .processUploadScan uploadId (.finalize upload scan) =>
    scan.clean = true → FindsOpen s upload.organizationId uploadId
  | _ => True

/-- Every request of a scan and every clean verdict that is committed finds the upload neither
rejected nor failed. -/
def KeepsVerdicts (w : UploadWorld) : UploadLabel → Prop
  | .step i (.call o) => o.TakesEffect → ∀ call ∈ w.proc? i, KeepsVerdict w.shared call
  | _ => True

instance : DecidablePred (KeepsVerdict s) := fun call => by
  unfold KeepsVerdict
  split <;> infer_instance

instance (w : UploadWorld) : DecidablePred (KeepsVerdicts w) := fun l => by
  unfold KeepsVerdicts
  split
  · exact inferInstanceAs (Decidable (_ → ∀ call ∈ w.proc? _, _))
  · infer_instance

/-! ### One step of one upload -/

/-- How a step changes an upload. A request of a scan and a clean verdict keep the verdict that the
upload has if `keeps` holds. -/
inductive StatusStep (keeps : Prop) (u v : Upload) : Prop
  | same : v.status = u.status → v.scanVerdict = u.scanVerdict → v.deletedAt = u.deletedAt →
      StatusStep keeps u v
  | failed : u.deletedAt = none → v.status = .failed → v.deletedAt = none → StatusStep keeps u v
  | rejected : u.deletedAt = none → v.status = .rejected → v.deletedAt = none → StatusStep keeps u v
  /-- The completion, the attempt to scan and the attempt that failed look at the status. -/
  | guarded : u.deletedAt = none → (completable u || scannable u) = true →
      (completable v || scannable v) = true →
      v.deletedAt = none → StatusStep keeps u v
  | requested : u.deletedAt = none → (keeps → ¬ Settled u) → v.status = .scanning →
      v.deletedAt = none → StatusStep keeps u v
  | ready : u.deletedAt = none → (keeps → ¬ Settled u) → v.status = .ready →
      v.scanVerdict = some .clean → v.deletedAt = none → StatusStep keeps u v
  | deleted : v.status = .deleted → v.deletedAt.isSome = true → StatusStep keeps u v

/-- Each upload of the first state has taken a step, and the others have just been created. -/
structure Evolves (keeps : Prop) (s t : UploadState) : Prop where
  kept : ∀ uploadId : ℕ, ∀ u ∈ s.uploads[uploadId]?, ∃ v ∈ t.uploads[uploadId]?, StatusStep keeps u v
  added : ∀ uploadId : ℕ, ∀ v ∈ t.uploads[uploadId]?, (∃ u ∈ s.uploads[uploadId]?, StatusStep keeps u v) ∨
    v.status = .pending ∧ v.deletedAt = none

theorem Evolves.of_eq (h : t.uploads = s.uploads) : Evolves keeps s t := by
  refine ⟨fun id u hu => ⟨u, by rw [h]; exact hu, .same rfl rfl rfl⟩, fun id v hv => .inl ?_⟩
  rw [h] at hv
  exact ⟨v, hv, .same rfl rfl rfl⟩

theorem find_eq_some {cond : Upload → Bool} :
    s.find scope uploadId cond = some u ↔
      s.uploads[uploadId]? = some u ∧ visible scope u = true ∧ cond u = true := by
  rw [UploadState.find, Option.filter_eq_some_iff, Bool.and_eq_true_iff]

theorem live_of_visible (h : visible scope u = true) : u.deletedAt = none :=
  (of_decide_eq_true h).1

theorem evolves_write {write : RowWrite} (huploads : t.uploads = (write.apply s).uploads)
    (h : ∀ u, s.uploads[write.uploadId]? = some u → write.finds u = true →
      StatusStep keeps u (write.data u)) : Evolves keeps s t := by
  have hstep : ∀ id : ℕ, ∀ u ∈ s.uploads[id]?, StatusStep keeps u
      (if write.uploadId = id ∧ write.finds u = true then write.data u else u) := by
    intro id u hu
    split_ifs with hfinds
    · obtain ⟨rfl, hfinds⟩ := hfinds
      exact h u hu hfinds
    · exact .same rfl rfl rfl
  refine ⟨fun id u hu => ?_, fun id v hv => .inl ?_⟩
  · refine ⟨_, ?_, hstep id u hu⟩
    rw [huploads, getElem?_apply]
    exact Option.mem_map_of_mem _ hu
  · rw [huploads, getElem?_apply] at hv
    obtain ⟨u, hu, rfl⟩ := Option.map_eq_some_iff.mp hv
    exact ⟨u, hu, hstep id u hu⟩

theorem evolves_reserve {call : InitiateUpload} {expiresAt : ℤ}
    (h : reserveUpload cfg provider call expiresAt s = .ok t) : Evolves keeps s t := by
  obtain ⟨upload, huploads, -, hstatus, hdeleted, -⟩ := reserveUpload_ok h
  refine ⟨fun id u hu => ⟨u, ?_, .same rfl rfl rfl⟩, fun id v hv => ?_⟩
  · rw [huploads, List.getElem?_append_left (List.getElem?_eq_some_iff.mp hu).1]
    exact hu
  · rw [huploads, Option.mem_def, List.getElem?_append] at hv
    split_ifs at hv
    · exact .inl ⟨v, hv, .same rfl rfl rfl⟩
    · obtain rfl := List.mem_singleton.mp (List.mem_of_getElem? hv)
      exact .inr ⟨hstatus, hdeleted⟩

theorem statusStep_of_write {call : UploadCall} {write : RowWrite} {now : ℤ}
    (hwrite : writeOf now call = some write) (hnew : RequestsNewScan s call)
    (hkeeps : keeps → KeepsVerdict s call) (hu : s.uploads[write.uploadId]? = some u)
    (hfinds : write.finds u = true) : StatusStep keeps u (write.data u) := by
  obtain ⟨hvisible, hcond⟩ := Bool.and_eq_true_iff.mp hfinds
  have hlive := live_of_visible hvisible
  have hfind : s.find write.scope write.uploadId anyUpload = some u :=
    find_eq_some.mpr ⟨hu, hvisible, rfl⟩
  unfold writeOf at hwrite
  split at hwrite
  all_goals cases hwrite
  · exact .same rfl rfl rfl
  · exact .failed hlive rfl hlive
  · exact .failed hlive rfl hlive
  · exact .rejected hlive rfl hlive
  · have hcompletable := (Bool.and_eq_true_iff.mp hcond).2
    exact .guarded hlive (by simp [hcompletable]) (by simp [completable, Upload.quarantined]) hlive
  · exact .ready hlive (fun hk => hkeeps hk u hfind) rfl rfl hlive
  · exact .requested hlive (fun hk => hkeeps hk hnew u hfind) rfl hlive
  · exact .same rfl rfl rfl
  · exact .same rfl rfl rfl
  · exact .guarded hlive (by simp [show scannable u = true from hcond])
      (by simp [scannable, Upload.scanning]) hlive
  · next upload scan =>
    by_cases hclean : scan.clean = true
    · exact .ready hlive (fun hk => hkeeps hk hclean u hfind) (by simp [Upload.finalized, hclean])
        (by simp [Upload.finalized, Scan.verdict, hclean]) hlive
    · exact .rejected hlive (by simp [Upload.finalized, hclean]) hlive
  · refine .guarded hlive ?_ (by simp [scannable, Upload.scanError]) hlive
    simp [scannable, of_decide_eq_true hcond]
  · exact .deleted rfl rfl
  · exact .failed hlive rfl hlive

theorem evolves_uploadStep {call call' : UploadCall} {answer : Answer}
    (hkeeps : ∀ o, answer = .call o → o.TakesEffect → keeps → KeepsVerdict s call)
    (h : uploadStep cfg s call answer = some (t, call')) : Evolves keeps s t := by
  obtain ⟨provider, -, heffect⟩ := step_effect h
  cases heffect with
  | keeps => exact .of_eq rfl
  | writes hwrite hnew hanswer huploads _ _ =>
    obtain ⟨o, ho, htakes⟩ := hanswer
    exact evolves_write huploads fun u hu hfinds =>
      statusStep_of_write hwrite hnew (hkeeps o ho htakes) hu hfinds
  | deletes _ _ => exact .of_eq rfl
  | reserves _ _ hreserve => exact evolves_reserve hreserve

/-- **What a step of the system can do to the uploads.** -/
theorem evolves_next {w w' : UploadWorld} {l : UploadLabel} (h : (uploads cfg).next w l = some w') :
    Evolves (KeepsVerdicts w l) w.shared w'.shared := by
  cases Program.move_of_next h with
  | spawn hs =>
    obtain rfl := congrArg Prod.fst (Option.some.inj hs)
    exact .of_eq rfl
  | @step i answer call call' t hcall hs =>
    refine evolves_uploadStep (fun o ho heffect hkeeps => ?_) hs
    subst ho
    exact hkeeps heffect call hcall
  | crash _ => exact .of_eq rfl
  | @env e t hs =>
    cases e <;> obtain rfl := Option.some.inj hs <;> exact .of_eq rfl

/-! ### Runs -/

/-- What holds of each upload in any run. -/
structure UploadOk (u : Upload) : Prop where
  ready : u.status = .ready → u.scanVerdict = some .clean
  deleted : u.status = .deleted ↔ u.deletedAt.isSome = true

theorem UploadOk.step (h : UploadOk u) (hstep : StatusStep keeps u v) : UploadOk v := by
  cases hstep with
  | same hs hv hd =>
    refine ⟨?_, ?_⟩
    · rw [hs, hv]
      exact h.ready
    · rw [hs, hd]
      exact h.deleted
  | failed _ hs hd | rejected _ hs hd | requested _ _ hs hd => exact ⟨by simp [hs], by simp [hs, hd]⟩
  | guarded _ _ hc hd =>
    simp only [completable, scannable, Bool.or_eq_true, decide_eq_true_eq] at hc
    exact ⟨fun hs => by simp [hs] at hc, by simp [hd]; rintro hs; simp [hs] at hc⟩
  | ready _ _ hs hv hd => exact ⟨fun _ => hv, by simp [hs, hd]⟩
  | deleted hs hd => exact ⟨by simp [hs], by simp [hs, hd]⟩

theorem uploadOk {good : UploadWorld → UploadLabel → Prop} {w : UploadWorld}
    (h : ReachableBy (uploads cfg).system good w) :
    ∀ uploadId : ℕ, ∀ u ∈ w.shared.uploads[uploadId]?, UploadOk u := by
  refine h.invariant (I := fun w => ∀ uploadId : ℕ, ∀ u ∈ w.shared.uploads[uploadId]?, UploadOk u)
    (fun w hw => ?_) fun w w' l hok _ hn => ?_
  · obtain rfl : w = ⟨{}, []⟩ := hw
    simp
  · intro id v hv
    rcases (evolves_next hn).added id v hv with ⟨u, hu, hstep⟩ | ⟨hs, hd⟩
    · exact (hok id u hu).step hstep
    · exact ⟨by simp [hs], by simp [hs, hd]⟩

/-- **Every upload that is ready was found clean**, in any run. -/
theorem readyClean {good : UploadWorld → UploadLabel → Prop} {w : UploadWorld}
    (h : ReachableBy (uploads cfg).system good w) : ReadyClean w.shared :=
  fun id u hu => (uploadOk h id u hu).ready

/-- A rejected, failed or deleted upload stays one of these. -/
def Closed (u : Upload) : Prop := Settled u ∨ u.status = .deleted

theorem Closed.step (h : Closed u) (hok : UploadOk u) (hstep : StatusStep True u v) : Closed v := by
  have hlive : u.deletedAt = none → Settled u := by
    intro hd
    refine h.resolve_right fun hs => ?_
    rw [hok.deleted, hd] at hs
    cases hs
  cases hstep with
  | same hs _ _ => rwa [Closed, Settled, hs]
  | failed _ hs _ => exact .inl (.inr hs)
  | rejected _ hs _ => exact .inl (.inl hs)
  | guarded hd hc _ _ =>
    simp only [completable, scannable, Bool.or_eq_true, decide_eq_true_eq] at hc
    rcases hlive hd with hs | hs <;> simp [hs] at hc
  | requested hd hopen _ _ => exact absurd (hlive hd) (hopen trivial)
  | ready hd hopen _ _ _ => exact absurd (hlive hd) (hopen trivial)
  | deleted hs _ => exact .inr hs

def ClosedKept (s t : UploadState) : Prop :=
  ∀ uploadId : ℕ, ∀ u ∈ s.uploads[uploadId]?, ∃ v ∈ t.uploads[uploadId]?, Closed u → Closed v

theorem closedKept {w w' : UploadWorld} (h : ReachableBy (uploads cfg).system KeepsVerdicts w)
    (p : Path (uploads cfg).system KeepsVerdicts w w') : ClosedKept w.shared w'.shared := by
  refine p.relation (R := fun w w' => ClosedKept w.shared w'.shared)
    (fun w id u hu => ⟨u, hu, fun hc => hc⟩) (fun w₁ w₂ w₃ h₁ h₂ id u hu => ?_)
    (fun w₁ w₂ l hr hg hn id u hu => ?_) h
  · obtain ⟨v, hv, huv⟩ := h₁ id u hu
    obtain ⟨x, hx, hvx⟩ := h₂ id v hv
    exact ⟨x, hx, fun hc => hvx (huv hc)⟩
  · obtain ⟨v, hv, hstep⟩ := (evolves_next hn).kept id u hu
    rw [eq_true hg] at hstep
    exact ⟨v, hv, fun hc => hc.step (uploadOk hr id u hu) hstep⟩

/-- **Verdicts are final**, and only clean uploads are ready, where every request of a scan and
every clean verdict that is committed finds the upload neither rejected nor failed. -/
theorem verdicts_final {w w' : UploadWorld} (h : ReachableBy (uploads cfg).system KeepsVerdicts w)
    (p : Path (uploads cfg).system KeepsVerdicts w w') :
    VerdictsKept w.shared w'.shared ∧ ReadyClean w'.shared := by
  refine ⟨fun id u hu => ?_, readyClean (h.path p)⟩
  obtain ⟨v, hv, hclosed⟩ := closedKept h p id u hu
  refine ⟨v, hv, fun hs => ?_, fun hs => ?_⟩
  · rcases hclosed (.inl (.inl hs)) with (hv | hv) | hv <;> simp [hv]
  · have hc : Closed u := hs.elim (fun hs => .inl (.inr hs)) .inr
    rcases hclosed hc with (hv | hv) | hv <;> simp [hv]

/-! ### A verdict that is overturned -/

def webhookConfig : UploadConfig where
  provider := some .s3
  scanMode := .webhook
  allowedMimeTypes := ["image/jpeg"]
  maxBytes := 1000
  urlTtlSeconds := 900
  userStorageQuotaBytes := 10000

def jpeg : StoredObject := ⟨[0xff, 0xd8, 0xff], some "image/jpeg", some "etag"⟩

def ok : Answer := .call .ok

/-- An image of three bytes is uploaded and completed, and the scan is requested. -/
def uploaded : List UploadLabel :=
  [.spawn (.initiateUpload ⟨"user", none, "a.jpg", "image/jpeg", 3, "key"⟩), .step 0 ok,
    .step 0 (.directive 900000), .env (.store .s3 "key" jpeg),
    .spawn (.completeUpload ⟨"user", none, 0⟩), .step 1 ok, .step 1 ok, .step 1 ok, .step 1 ok,
    .step 1 ok]

/-- A run of the scan, up to the answer of the scanner. -/
def scanned (i : ℕ) (clean : Bool) : List UploadLabel :=
  [.spawn (.processUploadScan 0), .step i ok, .step i ok, .step i ok, .step i (.scanned clean none)]

/-- The upload is rejected, and is scanned no more. -/
theorem verdicts_final_rejected : ∃ w w' : UploadWorld,
    w.shared.uploads.map (·.status) = [.rejected] ∧
      VerdictsKept w.shared w'.shared ∧ ReadyClean w'.shared := by
  obtain ⟨w, w', hw, p, hs⟩ := (uploads webhookConfig).exists_path KeepsVerdicts
    (uploaded ++ scanned 2 false ++ [.step 2 ok])
    [.step 2 ok, .step 2 ok, .spawn (.processUploadScan 0), .step 3 ok]
    (fun w _ => w.shared.uploads.map (·.status) = [.rejected]) (by decide)
  exact ⟨w, w', hs, verdicts_final hw p⟩

/-- **A verdict that is overturned.** Two runs of the scan are under way. The scanner finds the
object malicious in one and clean in the other, which writes last. -/
theorem verdict_overturned : ∃ w w' : UploadWorld,
    Reachable (uploads webhookConfig).system w ∧
      Path (uploads webhookConfig).system anyStep w w' ∧ ¬ VerdictsKept w.shared w'.shared := by
  obtain ⟨w, w', hw, p, hs, hs'⟩ := (uploads webhookConfig).exists_path anyStep
    (uploaded ++ scanned 2 false ++ scanned 3 true ++ [.step 2 ok]) [.step 3 ok]
    (fun w w' => w.shared.uploads.map (·.status) = [.rejected] ∧
      w'.shared.uploads.map (·.status) = [.ready]) (by decide)
  refine ⟨w, w', hw, p, fun hkept => ?_⟩
  have hstatus : ∀ {l : List Upload} {x : UploadStatus}, l.map (·.status) = [x] →
      ∃ u, l[0]? = some u ∧ u.status = x := by
    intro l x h
    obtain ⟨u, rfl, hu⟩ := List.map_eq_singleton_iff.mp h
    exact ⟨u, rfl, hu⟩
  obtain ⟨u, hu, hrejected⟩ := hstatus hs
  obtain ⟨u', hu', hready⟩ := hstatus hs'
  obtain ⟨v, hv, hkept, -⟩ := hkept 0 u hu
  obtain rfl := Option.some.inj (hu'.symm.trans hv)
  exact (hkept hrejected).2.2 hready

end BackendFoundation.Uploads.Verdicts
