import BackendFoundation.Errors
import BackendFoundation.Lib.Calls
import BackendFoundation.Lib.Interleave
import Mathlib.Algebra.GroupWithZero.Nat
import Mathlib.Data.Int.Notation
import Mathlib.Data.List.Infix

/-! # Uploads

`uploads.service.ts` and `expirePendingUploads` of `upload-cleanup.ts`. A call is a program of one
statement, one transaction or one request to a provider a step; a transaction writes one upload,
whose row it locks, and so is one step. Clients store objects when they like and over each other.

An upload has the number of its row. A call that is narrowed to an organization carries it. -/

namespace BackendFoundation.Uploads.Model

open Lib Lib.Interleave Errors

/-! ### Rows -/

inductive UploadProvider
  | s3 | cloudinary
deriving DecidableEq

inductive UploadStatus
  | pending | quarantined | scanning | ready | rejected | failed | deleted
deriving DecidableEq

inductive ScanVerdict
  | clean | malicious | signatureMismatch | error
deriving DecidableEq

structure Upload where
  userId : String
  organizationId : Option String := none
  provider : UploadProvider
  status : UploadStatus := .pending
  objectKey : String
  originalName : String
  contentType : String
  expectedSize : ℕ
  actualSize : Option ℕ := none
  checksum : Option String := none
  detectedContentType : Option String := none
  scanProvider : Option String := none
  scanReference : Option String := none
  scanVerdict : Option ScanVerdict := none
  scannedAt : Option ℤ := none
  uploadExpiresAt : ℤ
  readyAt : Option ℤ := none
  storageDeletedAt : Option ℤ := none
  deletedAt : Option ℤ := none
deriving DecidableEq

/-- An object as the provider stores it. -/
structure StoredObject where
  bytes : List UInt8
  contentType : Option String := none
  checksum : Option String := none
deriving DecidableEq

structure StoredObjectMetadata where
  size : ℕ
  contentType : Option String
  checksum : Option String
deriving DecidableEq

inductive ScanMode
  | disabled | webhook
deriving DecidableEq

structure UploadConfig where
  provider : Option UploadProvider
  scanMode : ScanMode
  allowedMimeTypes : List String
  maxBytes : ℕ
  urlTtlSeconds : ℕ
  userStorageQuotaBytes : ℕ

structure UploadState where
  uploads : List Upload := []
  objects : UploadProvider → String → Option StoredObject := fun _ _ => none
  /-- The deduplication keys of the outbox events. -/
  dedupeKeys : List String := []
  now : ℤ := 0

/-! ### The content of an object -/

def signaturePrefixBytes : ℕ := 16

/-- `toString('ascii')` drops the highest bit of each byte. -/
def ascii (bytes : List UInt8) : List UInt8 := bytes.map (· &&& 0x7f)

def detectContentType (bytes : List UInt8) : Option String :=
  if bytes.take 3 = [0xff, 0xd8, 0xff] then some "image/jpeg"
  else if bytes.take 8 = [0x89, 0x50, 0x4e, 0x47, 0x0d, 0x0a, 0x1a, 0x0a] then some "image/png"
  else if ascii (bytes.take 4) = [0x52, 0x49, 0x46, 0x46] ∧
      ascii ((bytes.drop 8).take 4) = [0x57, 0x45, 0x42, 0x50] then some "image/webp"
  else if ascii (bytes.take 5) = [0x25, 0x50, 0x44, 0x46, 0x2d] then some "application/pdf"
  else none

def includes (s part : String) : Bool := s.toList.tails.any fun rest => part.toList.isPrefixOf rest

def requiresDocumentCdr (contentType : String) : Bool :=
  contentType = "application/pdf" ∨ includes contentType "word" ∨
    includes contentType "officedocument"

/-- Cloudinary does not report a content type. -/
def StoredObject.inspect (object : StoredObject) : UploadProvider → StoredObjectMetadata
  | .s3 => ⟨object.bytes.length, object.contentType, object.checksum⟩
  | .cloudinary => ⟨object.bytes.length, none, object.checksum⟩

/-- The stored object has the declared size and content type. -/
def matchesDeclared (upload : Upload) (stored : StoredObjectMetadata) : Bool :=
  stored.size = upload.expectedSize ∧ ∀ type ∈ stored.contentType, type = upload.contentType

def scanDedupeKey (uploadId : ℕ) (stored : StoredObjectMetadata) : String :=
  "upload-scan:" ++ toString uploadId ++ ":" ++ stored.checksum.getD (toString stored.size)

/-! ### Statements -/

/-- The row is not deleted, and belongs to the organization that the call is narrowed to. -/
def visible (scope : Option String) (upload : Upload) : Bool :=
  upload.deletedAt = none ∧ ∀ organizationId ∈ scope, upload.organizationId = some organizationId

def UploadState.find (s : UploadState) (scope : Option String) (uploadId : ℕ)
    (cond : Upload → Bool) : Option Upload :=
  s.uploads[uploadId]?.filter fun upload => visible scope upload && cond upload

/-- `updateMany`, of the row with this id. -/
def UploadState.updateMany (s : UploadState) (scope : Option String) (uploadId : ℕ)
    (cond : Upload → Bool) (data : Upload → Upload) : UploadState :=
  { s with
    uploads := s.uploads.modify uploadId fun upload =>
      if visible scope upload && cond upload then data upload else upload }

def anyUpload (_ : Upload) : Bool := true

def recordNotFound : Thrown := .prisma "P2025" "Record to update not found"

def uniqueViolation : Thrown := .prisma "P2002" "Unique constraint failed"

/-- `update`, which throws if there is no such row. -/
def UploadState.update (s : UploadState) (scope : Option String) (uploadId : ℕ)
    (data : Upload → Upload) : Except Thrown UploadState :=
  if (s.find scope uploadId anyUpload).isSome then .ok (s.updateMany scope uploadId anyUpload data)
  else .error recordNotFound

def UploadState.deleteObject (s : UploadState) (provider : UploadProvider) (objectKey : String) :
    UploadState :=
  { s with
    objects := fun p key => if p = provider ∧ key = objectKey then none else s.objects p key }

/-- The statuses of the uploads that a completion accepts. -/
def completable (upload : Upload) : Bool :=
  upload.status = .pending ∨ upload.status = .quarantined

/-- The statuses of the uploads that are scanned. -/
def scannable (upload : Upload) : Bool :=
  upload.status = .quarantined ∨ upload.status = .scanning

/-- The statuses that take up storage. -/
def Upload.counted (upload : Upload) : Bool :=
  upload.status = .pending ∨ upload.status = .quarantined ∨ upload.status = .scanning ∨
    upload.status = .ready

def UploadState.usage (s : UploadState) (scope : Option String) (userId : String) : ℕ :=
  ((s.uploads.filter fun upload =>
    visible scope upload && (decide (upload.userId = userId) && upload.counted)).map
      (·.expectedSize)).sum

/-! ### Calls -/

structure Scan where
  /-- The verdict is `CLEAN`; otherwise it is `MALICIOUS`. -/
  clean : Bool
  provider : String
  reference : Option String
deriving DecidableEq

def Scan.verdict (scan : Scan) : ScanVerdict := if scan.clean then .clean else .malicious

/-- What the database, the provider or the scanner answers. -/
inductive Answer
  | call (o : Outcome Thrown)
  /-- The directive of the provider, with its expiry. -/
  | directive (expiresAt : ℤ)
  /-- The scanner, through its webhook. -/
  | scanned (clean : Bool) (reference : Option String)
  /-- The uploads that a page holds. -/
  | page (uploadIds : List ℕ)

structure InitiateUpload where
  userId : String
  scope : Option String
  filename : String
  contentType : String
  size : ℕ
  objectKey : String
deriving DecidableEq

inductive InitiatePc
  | reserve (expiresAt : ℤ)
  | createUpload (uploadId : ℕ) (expiresAt : ℤ)
  | updateExpiry (uploadId : ℕ) (expiresAt : ℤ)
  | markFailed (uploadId : ℕ) (e : Thrown)
  | returned (uploadId : ℕ)
  | thrown (e : Thrown)

structure CompleteUpload where
  userId : String
  scope : Option String
  uploadId : ℕ
deriving DecidableEq

inductive CompletePc
  | findUpload
  | inspectObject (upload : Upload)
  | deleteMismatch (upload : Upload)
  | failMismatch
  | readObjectPrefix (upload : Upload) (stored : StoredObjectMetadata)
  | deleteSignature (upload : Upload) (detected : Option String)
  | rejectSignature (detected : Option String)
  | quarantine (upload : Upload) (stored : StoredObjectMetadata) (detected : Option String)
  | finalize
  | requestScan (stored : StoredObjectMetadata)
  | returned
  | thrown (e : Thrown)

inductive ScanPc
  | findUpload
  | deleteRejected (upload : Upload)
  | markRejected
  | markScanning (upload : Upload)
  | createDownloadUrl (upload : Upload)
  | scanUpload (upload : Upload)
  | finalize (upload : Upload) (scan : Scan)
  | deleteMalicious (upload : Upload)
  | markMalicious
  | markError (e : Thrown)
  | returned
  | thrown (e : Thrown)

structure DeleteUpload where
  userId : String
  scope : Option String
  uploadId : ℕ
deriving DecidableEq

inductive DeletePc
  | findUpload
  | deleteObject (upload : Upload)
  | markDeleted
  | returned
  | thrown (e : Thrown)

structure ExpirePendingUploads where
  now : ℤ
  batchSize : ℕ
deriving DecidableEq

/-- `last` says that the page is not a full one; `rest` are its uploads still to come. -/
inductive ExpirePc
  | findPending
  | deleteObject (last : Bool) (uploadId : ℕ) (objectKey : String) (rest : List (ℕ × String))
  | markFailed (last : Bool) (uploadId : ℕ) (rest : List (ℕ × String))
  | returned
  | thrown (e : Thrown)

inductive UploadCall
  | initiateUpload (call : InitiateUpload) (pc : InitiatePc)
  | completeUpload (call : CompleteUpload) (pc : CompletePc)
  | processUploadScan (uploadId : ℕ) (pc : ScanPc)
  | deleteUpload (call : DeleteUpload) (pc : DeletePc)
  | expirePendingUploads (call : ExpirePendingUploads) (pc : ExpirePc)

inductive UploadRequest
  | initiateUpload (call : InitiateUpload)
  | completeUpload (call : CompleteUpload)
  | processUploadScan (uploadId : ℕ)
  | deleteUpload (call : DeleteUpload)
  | expirePendingUploads (batchSize : ℕ)

/-! ### The writes -/

def Upload.failed (upload : Upload) : Upload := { upload with status := .failed }

def Upload.signatureRejected (detected : Option String) (upload : Upload) : Upload :=
  { upload with
    status := .rejected
    detectedContentType := detected
    scanVerdict := some .signatureMismatch }

def Upload.quarantined (stored : StoredObjectMetadata) (detected : Option String)
    (upload : Upload) : Upload :=
  { upload with
    status := .quarantined
    actualSize := some stored.size
    checksum := stored.checksum <|> upload.checksum
    detectedContentType := detected }

def Upload.scanning (upload : Upload) : Upload :=
  { upload with status := .scanning, scanVerdict := none }

def Upload.finalized (scan : Scan) (now : ℤ) (upload : Upload) : Upload :=
  { upload with
    status := if scan.clean then .ready else .rejected
    scanProvider := some scan.provider
    scanReference := scan.reference <|> upload.scanReference
    scanVerdict := some scan.verdict
    scannedAt := some now
    readyAt := if scan.clean then some now else none }

def Upload.scanError (upload : Upload) : Upload :=
  { upload with status := .quarantined, scanVerdict := some .error }

def Upload.storageDeleted (now : ℤ) (upload : Upload) : Upload :=
  { upload with storageDeletedAt := some now }

def Upload.erased (now : ℤ) (upload : Upload) : Upload :=
  { upload with status := .deleted, deletedAt := some now }

/-! ### The steps -/

/-- A statement or a request that is refused with `.error`, or would lead to the state in `.ok`. -/
def attempt {P : Type} (o : Outcome Thrown) (s : UploadState) (result : Except Thrown UploadState)
    (onOk : P) (onError : Thrown → P) : UploadState × P :=
  match result with
  | .ok s' => o.run s s' onOk onError
  | .error e => o.read s (onError e) onError

def objectMissing : Thrown := .error "NotFound"

/-- The transaction that reserves the storage and creates the upload. -/
def reserveUpload (cfg : UploadConfig) (provider : UploadProvider) (call : InitiateUpload)
    (expiresAt : ℤ) (s : UploadState) : Except Thrown UploadState :=
  if cfg.userStorageQuotaBytes < s.usage call.scope call.userId + call.size then
    .error (.app (forbidden "Per-user storage quota exceeded"))
  else if s.uploads.any fun upload =>
      upload.provider = provider ∧ upload.objectKey = call.objectKey then .error uniqueViolation
  else
    .ok { s with
      uploads := s.uploads ++ [{
        userId := call.userId
        organizationId := call.scope
        provider := provider
        objectKey := call.objectKey
        originalName := call.filename
        contentType := call.contentType
        expectedSize := call.size
        uploadExpiresAt := expiresAt }] }

def initiateStart (cfg : UploadConfig) (s : UploadState) (call : InitiateUpload) : InitiatePc :=
  if cfg.provider = none then .thrown (.app (serviceUnavailable "File uploads are not configured"))
  else if call.contentType ∉ cfg.allowedMimeTypes then
    .thrown (.app (badRequest "This file type is not allowed"))
  else if cfg.maxBytes < call.size then
    .thrown (.app (badRequest
      ("File exceeds the " ++ toString cfg.maxBytes ++ "-byte upload limit")))
  else .reserve (s.now + cfg.urlTtlSeconds * 1000)

def initiateStep (cfg : UploadConfig) (provider : UploadProvider) (s : UploadState)
    (call : InitiateUpload) : InitiatePc → Answer → Option (UploadState × InitiatePc)
  | .reserve expiresAt, .call o =>
    some (attempt o s (reserveUpload cfg provider call expiresAt s)
      (.createUpload s.uploads.length expiresAt) .thrown)
  | .createUpload uploadId expiresAt, .directive directiveExpiresAt =>
    some (s, if directiveExpiresAt = expiresAt then .returned uploadId
      else .updateExpiry uploadId directiveExpiresAt)
  | .createUpload uploadId _, .call (.failed e) => some (s, .markFailed uploadId e)
  | .updateExpiry uploadId expiresAt, .call o =>
    some (attempt o s
      (s.update call.scope uploadId fun upload => { upload with uploadExpiresAt := expiresAt })
      (.returned uploadId) (.markFailed uploadId))
  | .markFailed uploadId e, .call o =>
    some (attempt o s (s.update call.scope uploadId Upload.failed) (.thrown e) .thrown)
  | _, _ => none

/-- What `completeUpload` does with the upload that it has found. -/
def completeFound (provider : UploadProvider) : Option Upload → CompletePc
  | none => .thrown (.app (notFound "Upload not found"))
  | some upload =>
    if upload.provider ≠ provider then
      .thrown (.app (serviceUnavailable "The configured upload provider has changed"))
    else if upload.status = .ready then .returned
    else if !completable upload then .thrown (.app (conflict "Upload cannot be completed"))
    else .inspectObject upload

def completeInspected (provider : UploadProvider) (upload : Upload) :
    Option StoredObject → CompletePc
  | none => .thrown objectMissing
  | some object =>
    if matchesDeclared upload (object.inspect provider) then
      .readObjectPrefix upload (object.inspect provider)
    else .deleteMismatch upload

def completePrefix (upload : Upload) (stored : StoredObjectMetadata) :
    Option StoredObject → CompletePc
  | none => .thrown objectMissing
  | some object =>
    let detected := detectContentType (object.bytes.take signaturePrefixBytes)
    if detected = some upload.contentType then .quarantine upload stored detected
    else .deleteSignature upload detected

/-- Where `completeUpload` goes on after the quarantine. -/
def completeQuarantined (cfg : UploadConfig) (upload : Upload) (stored : StoredObjectMetadata) :
    CompletePc :=
  match cfg.scanMode with
  | .disabled => if requiresDocumentCdr upload.contentType then .returned else .finalize
  | .webhook => .requestScan stored

def signatureOnly : Scan := ⟨true, "signature-only", none⟩

/-- `updateMany`, and then the read that throws if there is no such row. -/
def quarantineUpload (call : CompleteUpload) (stored : StoredObjectMetadata)
    (detected : Option String) (s : UploadState) : Except Thrown UploadState :=
  if (s.find call.scope call.uploadId anyUpload).isSome then
    .ok (s.updateMany call.scope call.uploadId
      (fun upload => decide (upload.userId = call.userId) && completable upload)
      (Upload.quarantined stored detected))
  else .error recordNotFound

/-- The update, and then the event of the outbox. -/
def requestUploadScan (call : CompleteUpload) (stored : StoredObjectMetadata) (s : UploadState) :
    Except Thrown UploadState :=
  match s.update call.scope call.uploadId Upload.scanning with
  | .error e => .error e
  | .ok scanning =>
    if scanDedupeKey call.uploadId stored ∈ s.dedupeKeys then .error uniqueViolation
    else .ok { scanning with dedupeKeys := scanDedupeKey call.uploadId stored :: s.dedupeKeys }

def completeStep (cfg : UploadConfig) (provider : UploadProvider) (s : UploadState)
    (call : CompleteUpload) : CompletePc → Answer → Option (UploadState × CompletePc)
  | .findUpload, .call o =>
    some (o.read s (completeFound provider
      (s.find call.scope call.uploadId fun upload => upload.userId = call.userId)) .thrown)
  | .inspectObject upload, .call o =>
    some (o.read s (completeInspected provider upload (s.objects provider upload.objectKey)) .thrown)
  | .deleteMismatch upload, .call o =>
    some (o.run s (s.deleteObject provider upload.objectKey) .failMismatch .thrown)
  | .failMismatch, .call o =>
    some (attempt o s (s.update call.scope call.uploadId Upload.failed)
      (.thrown (.app (badRequest
        "Uploaded file does not match the declared size or content type"))) .thrown)
  | .readObjectPrefix upload stored, .call o =>
    some (o.read s (completePrefix upload stored (s.objects provider upload.objectKey)) .thrown)
  | .deleteSignature upload detected, .call o =>
    some (o.run s (s.deleteObject provider upload.objectKey) (.rejectSignature detected) .thrown)
  | .rejectSignature detected, .call o =>
    some (attempt o s (s.update call.scope call.uploadId (Upload.signatureRejected detected))
      (.thrown (.app (badRequest
        "Uploaded file signature does not match the declared content type"))) .thrown)
  | .quarantine upload stored detected, .call o =>
    some (attempt o s (quarantineUpload call stored detected s)
      (completeQuarantined cfg upload stored) .thrown)
  | .finalize, .call o =>
    some (attempt o s (s.update call.scope call.uploadId (Upload.finalized signatureOnly s.now))
      .returned .thrown)
  | .requestScan stored, .call o =>
    some (attempt o s (requestUploadScan call stored s) .returned .thrown)
  | _, _ => none

/-- Without the scanner every object is clean. -/
def scanUpload (cfg : UploadConfig) (answer : Answer) : Option (Except Thrown Scan) :=
  match cfg.scanMode, answer with
  | .disabled, .call .ok => some (.ok signatureOnly)
  | .webhook, .scanned clean reference => some (.ok ⟨clean, "webhook", reference⟩)
  | .webhook, .call (.failed e) => some (.error e)
  | _, _ => none

/-- What `processUploadScan` does with the upload that it has found. -/
def scanFound (provider : UploadProvider) (uploadId : ℕ) : Option Upload → ScanPc
  | none => .returned
  | some upload =>
    if upload.provider ≠ provider then
      .thrown (.error ("Upload " ++ toString uploadId ++ " belongs to unavailable provider"))
    else if upload.status = .rejected then
      if upload.scanVerdict = some .malicious ∧ upload.storageDeletedAt = none then
        .deleteRejected upload
      else .returned
    else .markScanning upload

def scanStep (cfg : UploadConfig) (provider : UploadProvider) (s : UploadState) (uploadId : ℕ) :
    ScanPc → Answer → Option (UploadState × ScanPc)
  | .findUpload, .call o =>
    some (o.read s (scanFound provider uploadId
      (s.find none uploadId fun upload => scannable upload || upload.status = .rejected)) .thrown)
  | .deleteRejected upload, .call o =>
    some (o.run s (s.deleteObject provider upload.objectKey) .markRejected .thrown)
  | .markRejected, .call o =>
    some (o.run s
      (s.updateMany none uploadId
        (fun upload => upload.status = .rejected ∧ upload.storageDeletedAt = none)
        (Upload.storageDeleted s.now)) .returned .thrown)
  | .markScanning upload, .call o =>
    some (o.run s (s.updateMany none uploadId scannable Upload.scanning)
      (.createDownloadUrl upload) .thrown)
  | .createDownloadUrl upload, .call o => some (o.read s (.scanUpload upload) .markError)
  | .scanUpload upload, answer =>
    (scanUpload cfg answer).map fun
      | .ok scan => (s, .finalize upload scan)
      | .error e => (s, .markError e)
  | .finalize upload scan, .call o =>
    some (attempt o s (s.update upload.organizationId uploadId (Upload.finalized scan s.now))
      (if scan.clean then .returned else .deleteMalicious upload) .markError)
  | .deleteMalicious upload, .call o =>
    some (o.run s (s.deleteObject provider upload.objectKey) .markMalicious .markError)
  | .markMalicious, .call o =>
    some (o.run s
      (s.updateMany none uploadId
        (fun upload => upload.status = .rejected ∧ upload.storageDeletedAt = none)
        (Upload.storageDeleted s.now)) .returned .markError)
  | .markError e, .call o =>
    some (o.run s
      (s.updateMany none uploadId (fun upload => upload.status = .scanning) Upload.scanError)
      (.thrown e) .thrown)
  | _, _ => none

def deleteFound (provider : UploadProvider) : Option Upload → DeletePc
  | none => .thrown (.app (notFound "Upload not found"))
  | some upload =>
    if upload.provider ≠ provider then
      .thrown (.app (serviceUnavailable "The configured upload provider has changed"))
    else .deleteObject upload

def deleteStep (provider : UploadProvider) (s : UploadState) (call : DeleteUpload) :
    DeletePc → Answer → Option (UploadState × DeletePc)
  | .findUpload, .call o =>
    some (o.read s (deleteFound provider
      (s.find call.scope call.uploadId fun upload => upload.userId = call.userId)) .thrown)
  | .deleteObject upload, .call o =>
    some (o.run s (s.deleteObject provider upload.objectKey) .markDeleted .thrown)
  | .markDeleted, .call o =>
    some (attempt o s (s.update call.scope call.uploadId (Upload.erased s.now)) .returned .thrown)
  | _, _ => none

/-- The uploads that the sweep looks for. -/
def expired (provider : UploadProvider) (now : ℤ) (upload : Upload) : Bool :=
  upload.provider = provider ∧ upload.status = .pending ∧ upload.uploadExpiresAt < now

/-- The next upload of a page, or the next page. -/
def expireNext (last : Bool) : List (ℕ × String) → ExpirePc
  | [] => if last then .returned else .findPending
  | (uploadId, objectKey) :: rest => .deleteObject last uploadId objectKey rest

/-- The uploads of a page, if each of them is one that the sweep looks for. -/
def readPage (provider : UploadProvider) (s : UploadState) (now : ℤ) (uploadIds : List ℕ) :
    Option (List (ℕ × String)) :=
  uploadIds.mapM fun uploadId =>
    (s.find none uploadId (expired provider now)).map fun upload => (uploadId, upload.objectKey)

/-- Which of the uploads a page holds is left open. A request or an update that fails is counted,
and the sweep goes on. -/
def expireStep (provider : UploadProvider) (s : UploadState) (call : ExpirePendingUploads) :
    ExpirePc → Answer → Option (UploadState × ExpirePc)
  | .findPending, .page uploadIds =>
    if uploadIds.length ≤ call.batchSize then
      (readPage provider s call.now uploadIds).map fun page =>
        (s, expireNext (uploadIds.length < call.batchSize) page)
    else none
  | .findPending, .call (.failed e) => some (s, .thrown e)
  | .deleteObject last uploadId objectKey rest, .call o =>
    some (o.run s (s.deleteObject provider objectKey) (.markFailed last uploadId rest)
      fun _ => expireNext last rest)
  | .markFailed last uploadId rest, .call o =>
    some (o.run s
      (s.updateMany none uploadId (fun upload => upload.status = .pending) Upload.failed)
      (expireNext last rest) fun _ => expireNext last rest)
  | _, _ => none

/-! ### The system -/

def notConfigured : Thrown := .app (serviceUnavailable "File uploads are not configured")

def uploadSpawn (cfg : UploadConfig) (s : UploadState) : UploadRequest → UploadCall
  | .initiateUpload call => .initiateUpload call (initiateStart cfg s call)
  | .completeUpload call =>
    .completeUpload call (if cfg.provider = none then .thrown notConfigured else .findUpload)
  | .processUploadScan uploadId =>
    .processUploadScan uploadId
      (if cfg.provider = none then .thrown notConfigured else .findUpload)
  | .deleteUpload call =>
    .deleteUpload call (if cfg.provider = none then .thrown notConfigured else .findUpload)
  | .expirePendingUploads batchSize =>
    .expirePendingUploads ⟨s.now, batchSize⟩
      (if cfg.provider = none then .returned else .findPending)

def uploadStep (cfg : UploadConfig) (s : UploadState) (call : UploadCall) (answer : Answer) :
    Option (UploadState × UploadCall) :=
  match cfg.provider with
  | none => none
  | some provider =>
    match call with
    | .initiateUpload call pc =>
      (initiateStep cfg provider s call pc answer).map fun r => (r.1, .initiateUpload call r.2)
    | .completeUpload call pc =>
      (completeStep cfg provider s call pc answer).map fun r => (r.1, .completeUpload call r.2)
    | .processUploadScan uploadId pc =>
      (scanStep cfg provider s uploadId pc answer).map fun r => (r.1, .processUploadScan uploadId r.2)
    | .deleteUpload call pc =>
      (deleteStep provider s call pc answer).map fun r => (r.1, .deleteUpload call r.2)
    | .expirePendingUploads call pc =>
      (expireStep provider s call pc answer).map fun r => (r.1, .expirePendingUploads call r.2)

inductive UploadEvent
  | tick (ms : ℕ)
  /-- A client stores an object, also over another one. -/
  | store (provider : UploadProvider) (objectKey : String) (object : StoredObject)

def client (s : UploadState) : UploadEvent → Option UploadState
  | .tick ms => some { s with now := s.now + ms }
  | .store provider objectKey object =>
    some { s with
      objects := fun p key =>
        if p = provider ∧ key = objectKey then some object else s.objects p key }

/-- **The uploads**, with any number of calls beside each other. -/
def uploads (cfg : UploadConfig) :
    Program UploadState UploadCall UploadRequest Answer UploadEvent where
  init := {}
  spawn s _ request := some (s, uploadSpawn cfg s request)
  step s _ := uploadStep cfg s
  env := client

abbrev UploadWorld := World UploadState UploadCall

abbrev UploadLabel := Label UploadRequest Answer UploadEvent

end BackendFoundation.Uploads.Model
