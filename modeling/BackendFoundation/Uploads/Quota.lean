import BackendFoundation.Uploads.Verdicts
import Mathlib.Algebra.Order.BigOperators.Group.List
import Mathlib.Algebra.Order.Group.Nat

/-! # The storage quota

The quota is checked when an upload is reserved. What a user holds grows at no other step, as long
as every request of a scan and every clean verdict finds the upload neither rejected nor failed
(`quota_kept`). Such a write makes an upload count again that had stopped to count, and others may
have taken its place (`quota_exceeded`). -/

namespace BackendFoundation.Uploads.Quota

open Errors Lib.Runs Lib.Interleave Uploads.Model Uploads.Writes Uploads.Verdicts

variable {cfg : UploadConfig} {provider : UploadProvider} {s t : UploadState} {u v : Upload}
  {owner : Option String} {userId : String}

/-! ### What a user holds -/

/-- The upload takes up storage of the user in the tenant scope. -/
def holds (owner : Option String) (userId : String) (u : Upload) : Bool :=
  u.organizationId = owner ∧ u.userId = userId ∧ u.deletedAt = none ∧ u.counted

def held (owner : Option String) (userId : String) (uploads : List Upload) : ℕ :=
  ((uploads.filter (holds owner userId)).map (·.expectedSize)).sum

/-- The part of the sum that an upload makes up. -/
def share (owner : Option String) (userId : String) (u : Upload) : ℕ :=
  if holds owner userId u then u.expectedSize else 0

theorem held_eq (uploads : List Upload) :
    held owner userId uploads = (uploads.map (share owner userId)).sum := by
  unfold held
  induction uploads with
  | nil => rfl
  | cons u rest ih =>
    rw [List.filter_cons, List.map_cons, List.sum_cons, ← ih, share]
    split_ifs
    · rfl
    · exact (Nat.zero_add _).symm

theorem held_append (uploads : List Upload) (u : Upload) :
    held owner userId (uploads ++ [u]) = held owner userId uploads + share owner userId u := by
  rw [held_eq, held_eq, List.map_append, List.sum_append]
  simp

theorem sum_modify_le {α : Type} {weight : α → ℕ} {f : α → α} (rows : List α) (place : ℕ)
    (h : ∀ row, rows[place]? = some row → weight (f row) ≤ weight row) :
    ((rows.modify place f).map weight).sum ≤ (rows.map weight).sum := by
  induction rows generalizing place with
  | nil => simp
  | cons row rest ih =>
    cases place with
    | zero =>
      have hrow := h row rfl
      simp only [List.modify_zero_cons, List.map_cons, List.sum_cons]
      omega
    | succ place =>
      have hrest := ih place h
      simp only [List.modify_succ_cons, List.map_cons, List.sum_cons]
      omega

theorem held_le_usage : held owner userId s.uploads ≤ s.usage owner userId := by
  have hsublist : (s.uploads.filter (holds owner userId)).Sublist (s.uploads.filter fun upload =>
      visible owner upload && (decide (upload.userId = userId) && upload.counted)) := by
    refine List.monotone_filter_right _ ?_
    intro u hu
    simp only [holds, decide_eq_true_eq] at hu
    obtain ⟨howner, huser, hlive, hcounted⟩ := hu
    simp [visible, howner, huser, hlive, hcounted]
  exact (hsublist.map _).sum_le_sum fun _ _ => Nat.zero_le _

/-! ### One step -/

theorem counted_of_statusStep (hok : UploadOk u) (h : StatusStep True u v)
    (hlive : v.deletedAt = none) (hcounted : v.counted = true) :
    u.deletedAt = none ∧ u.counted = true := by
  have hopen : u.deletedAt = none → ¬ Settled u → u.counted = true := by
    intro hu hsettled
    have hdeleted : u.status ≠ .deleted := by
      intro hstatus
      rw [hok.deleted, hu] at hstatus
      cases hstatus
    rcases hstatus : u.status <;> simp_all [Settled, Upload.counted]
  cases h with
  | same hs _ hd =>
    refine ⟨hd ▸ hlive, ?_⟩
    rw [Upload.counted, ← hs]
    exact hcounted
  | failed _ hs _ => simp [Upload.counted, hs] at hcounted
  | rejected _ hs _ => simp [Upload.counted, hs] at hcounted
  | guarded hu hc _ _ =>
    refine ⟨hu, ?_⟩
    simp only [completable, scannable, Bool.or_eq_true, decide_eq_true_eq] at hc
    rcases hc with (hc | hc) | hc | hc <;> simp [Upload.counted, hc]
  | requested hu hsettled _ _ => exact ⟨hu, hopen hu (hsettled trivial)⟩
  | ready hu hsettled _ _ _ => exact ⟨hu, hopen hu (hsettled trivial)⟩
  | deleted _ hd =>
    rw [hlive] at hd
    cases hd

theorem share_le_of_write {call : UploadCall} {write : RowWrite} {now : ℤ} (hok : UploadOk u)
    (hwrite : writeOf now call = some write) (hstep : StatusStep True u (write.data u)) :
    share owner userId (write.data u) ≤ share owner userId u := by
  have hsame := sameUpload_of_write hwrite u
  unfold share
  split_ifs with hafter hbefore
  · exact Nat.le_of_eq hsame.expectedSize
  · simp only [holds, decide_eq_true_eq] at hafter hbefore
    obtain ⟨hlive, hcounted⟩ := counted_of_statusStep hok hstep hafter.2.2.1 hafter.2.2.2
    have howner : u.organizationId = owner := hsame.organizationId ▸ hafter.1
    have huser : u.userId = userId := hsame.userId ▸ hafter.2.1
    exact absurd ⟨howner, huser, hlive, hcounted⟩ hbefore
  · exact Nat.zero_le _
  · exact Nat.zero_le _

theorem held_le_of_write {call : UploadCall} {write : RowWrite}
    (hok : ∀ uploadId : ℕ, ∀ u ∈ s.uploads[uploadId]?, UploadOk u)
    (hwrite : writeOf s.now call = some write) (hnew : RequestsNewScan s call)
    (hkeeps : KeepsVerdict s call) (huploads : t.uploads = (write.apply s).uploads) :
    held owner userId t.uploads ≤ held owner userId s.uploads := by
  rw [held_eq, held_eq, huploads, RowWrite.apply, UploadState.updateMany]
  refine sum_modify_le _ _ fun u hu => ?_
  split_ifs with hfinds
  · exact share_le_of_write (hok _ u hu) hwrite
      (statusStep_of_write hwrite hnew (fun _ => hkeeps) hu hfinds)
  · exact Nat.le_refl _

theorem held_of_reserve {init : InitiateUpload} {expiresAt : ℤ}
    (h : reserveUpload cfg provider init expiresAt s = .ok t)
    (hs : held owner userId s.uploads ≤ cfg.userStorageQuotaBytes) :
    held owner userId t.uploads ≤ cfg.userStorageQuotaBytes := by
  unfold reserveUpload at h
  split_ifs at h with hquota _
  obtain rfl := Except.ok.inj h
  dsimp only
  rw [held_append, share]
  split_ifs with hholds
  · simp only [holds, decide_eq_true_eq] at hholds
    obtain ⟨rfl, rfl, -⟩ := hholds
    have husage := @held_le_usage s init.scope init.userId
    dsimp only
    omega
  · omega

/-! ### Runs -/

/-- **The quota**: in every run in which every request of a scan and every clean verdict that is
committed finds the upload neither rejected nor failed, no user holds more than the quota. -/
theorem quota_kept {w : UploadWorld} (h : ReachableBy (uploads cfg).system KeepsVerdicts w)
    (owner : Option String) (userId : String) :
    held owner userId w.shared.uploads ≤ cfg.userStorageQuotaBytes := by
  refine h.invariant' (I := fun w =>
    held owner userId w.shared.uploads ≤ cfg.userStorageQuotaBytes) (fun w hw => ?_)
    fun w w' l hr hquota hgood hn => ?_
  · obtain rfl : w = ⟨{}, []⟩ := hw
    exact Nat.zero_le _
  · cases Program.move_of_next hn with
    | spawn hs =>
      obtain rfl := congrArg Prod.fst (Option.some.inj hs)
      exact hquota
    | crash _ => exact hquota
    | @env e t hs =>
      cases e <;> obtain rfl := Option.some.inj hs <;> exact hquota
    | @step i answer call call' t hcall hs =>
      obtain ⟨provider, -, heffect⟩ := step_effect hs
      cases heffect with
      | keeps => exact hquota
      | deletes _ _ => exact hquota
      | reserves _ _ hreserve => exact held_of_reserve hreserve hquota
      | writes hwrite hnew hanswer huploads _ _ =>
        obtain ⟨o, rfl, htakes⟩ := hanswer
        have hkeeps : KeepsVerdict w.shared call := hgood htakes call hcall
        exact (held_le_of_write (uploadOk hr) hwrite hnew hkeeps huploads).trans hquota

def exampleReservation : InitiateUpload := ⟨"user", none, "b.jpg", "image/jpeg", 3, "b"⟩

def quotaExceeded : UploadCall → Bool
  | .initiateUpload _ (.thrown e) => e = .app (forbidden "Per-user storage quota exceeded")
  | _ => false

/-- An image is uploaded, and a second one is refused: there is room for two bytes. -/
theorem quota_kept_uploaded : ∃ w : UploadWorld,
    w.shared.uploads.map (·.status) = [.scanning] ∧ (w.proc? 2).any quotaExceeded = true ∧
    held none "user" w.shared.uploads ≤ 5 := by
  obtain ⟨w, hw, hstatus, hrefused⟩ :=
    (uploads { webhookConfig with userStorageQuotaBytes := 5 }).exists_reached KeepsVerdicts
      (uploaded ++ [.spawn (.initiateUpload exampleReservation), .step 2 ok])
      (fun w => w.shared.uploads.map (·.status) = [.scanning] ∧
        (w.proc? 2).any quotaExceeded = true) (by decide)
  exact ⟨w, hstatus, hrefused, quota_kept hw none "user"⟩

/-! ### More than the quota -/

def smallConfig : UploadConfig where
  provider := some .s3
  scanMode := .disabled
  allowedMimeTypes := ["image/jpeg"]
  maxBytes := 1000
  urlTtlSeconds := 900
  userStorageQuotaBytes := 5

/-- An image of three bytes is uploaded, and its completion goes up to the quarantine after it has
expired. -/
def completing : List UploadLabel :=
  [.spawn (.initiateUpload ⟨"user", none, "a.jpg", "image/jpeg", 3, "a"⟩), .step 0 ok,
    .step 0 (.directive 900000), .env (.store .s3 "a" jpeg), .env (.tick 900001),
    .spawn (.completeUpload ⟨"user", none, 0⟩), .step 1 ok, .step 1 ok, .step 1 ok]

/-- The sweep fails it, and a second image is reserved. -/
def sweptAndReserved : List UploadLabel :=
  [.spawn (.expirePendingUploads 500), .step 2 (.page [0]), .step 2 ok, .step 2 ok,
    .spawn (.initiateUpload exampleReservation), .step 3 ok]

/-- **More than the quota.** The quarantine finds no row, and the completion makes the failed upload
ready all the same. -/
theorem quota_exceeded : ∃ w : UploadWorld, Reachable (uploads smallConfig).system w ∧
    smallConfig.userStorageQuotaBytes < held none "user" w.shared.uploads :=
  (uploads smallConfig).exists_reached anyStep
    (completing ++ sweptAndReserved ++ [.step 1 ok, .step 1 ok])
    (fun w => smallConfig.userStorageQuotaBytes < held none "user" w.shared.uploads) (by decide)

end BackendFoundation.Uploads.Quota
