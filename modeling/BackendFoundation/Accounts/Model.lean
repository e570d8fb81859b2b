import BackendFoundation.Uploads.Model

/-! # The deletion of an account

`deleteAccount` of `auth.account.service.ts` and the worker `processAccountErasure`, beside the
calls on uploads. Of what the deletion writes only the account and its uploads are modelled; the
check of its owner and the other tables are outcomes of its statements. The deletion requests the
erasure through the outbox, which may deliver the request any number of times.

The transaction locks the rows that it updates and is one step. -/

namespace BackendFoundation.Accounts.Model

open Lib Lib.Interleave Errors Uploads.Model

structure AccountState where
  uploads : UploadState := {}
  /-- The users whose account is deleted and whose erasure is requested. -/
  deleted : List String := []

/-! ### The deletion -/

inductive DeleteAccountPc
  | findUser
  | confirm
  | findUploads
  | commit (uploadIds : List ℕ) (deletedAt : ℤ)
  | returned (deleted : Bool)
  | thrown (e : Thrown)

/-- What the database, a provider or the check of the confirmation answers. -/
inductive AccountAnswer
  | upload (answer : Answer)
  | call (o : Outcome Thrown)
  | confirmed (valid : Bool)
  /-- The uploads that a page holds. -/
  | page (uploadIds : List ℕ)

def accountDeleted (deletedAt : ℤ) (upload : Upload) : Upload :=
  { upload with
    status := .deleted
    originalName := "erased"
    checksum := none
    scanReference := none
    deletedAt := some deletedAt }

/-- The uploads of the user that are neither rejected nor failed. -/
def uploadsOf (s : UploadState) (userId : String) : List ℕ :=
  (List.range s.uploads.length).filter fun uploadId =>
    (s.find none uploadId fun upload => decide (upload.userId = userId) && upload.counted).isSome

def deleteUploads (deletedAt : ℤ) : List ℕ → UploadState → Except Thrown UploadState
  | [], s => .ok s
  | uploadId :: rest, s =>
    match s.update none uploadId (accountDeleted deletedAt) with
    | .ok t => deleteUploads deletedAt rest t
    | .error e => .error e

/-- The transaction, for a user who is not the last owner of an organization. -/
def deleteUser (userId : String) (uploadIds : List ℕ) (deletedAt : ℤ) (s : AccountState) :
    Except Thrown AccountState :=
  if userId ∈ s.deleted then .error recordNotFound
  else
    match deleteUploads deletedAt uploadIds s.uploads with
    | .ok uploads => .ok ⟨uploads, userId :: s.deleted⟩
    | .error e => .error e

/-- A transaction that is refused with `.error`, or would lead to the state in `.ok`. -/
def attemptAccount {P : Type} (o : Outcome Thrown) (s : AccountState)
    (result : Except Thrown AccountState) (onOk : P) (onError : Thrown → P) : AccountState × P :=
  match result with
  | .ok s' => o.run s s' onOk onError
  | .error e => o.read s (onError e) onError

def deleteAccountStep (s : AccountState) (userId : String) :
    DeleteAccountPc → AccountAnswer → Option (AccountState × DeleteAccountPc)
  | .findUser, .call o =>
    some (o.read s (if userId ∈ s.deleted then .returned false else .confirm) .thrown)
  | .confirm, .confirmed valid => some (s, if valid then .findUploads else .returned false)
  | .confirm, .call (.failed e) => some (s, .thrown e)
  | .findUploads, .call o =>
    some (o.read s (.commit (uploadsOf s.uploads userId) s.uploads.now) .thrown)
  | .commit uploadIds deletedAt, .call o =>
    some (attemptAccount o s (deleteUser userId uploadIds deletedAt s) (.returned true) .thrown)
  | _, _ => none

/-! ### The erasure -/

/-- An upload as the worker reads it. -/
structure ErasableUpload where
  uploadId : ℕ
  provider : UploadProvider
  objectKey : String
deriving DecidableEq

inductive ErasurePc
  | cancelSubscriptions
  | findUploads
  | deleteObject (upload : ErasableUpload) (rest : List ErasableUpload)
  | markErased (uploadId : ℕ) (rest : List ErasableUpload)
  | returned
  | thrown (e : Thrown)

def erasureBatchSize : ℕ := 100

/-- The uploads that the worker looks for. -/
def erasable (userId : String) (upload : Upload) : Bool :=
  upload.userId = userId ∧ upload.status = .deleted ∧ upload.storageDeletedAt = none ∧
    upload.deletedAt ≠ none

/-- The uploads of a page, if each of them is one that the worker looks for. -/
def readErasable (userId : String) (s : UploadState) (uploadIds : List ℕ) :
    Option (List ErasableUpload) :=
  uploadIds.mapM fun uploadId =>
    (s.uploads[uploadId]?.filter (erasable userId)).map fun upload =>
      ⟨uploadId, upload.provider, upload.objectKey⟩

def providerName : UploadProvider → String
  | .s3 => "S3"
  | .cloudinary => "CLOUDINARY"

/-- The next upload of a page, or the next page. -/
def eraseNext (cfg : UploadConfig) : List ErasableUpload → ErasurePc
  | [] => .findUploads
  | upload :: rest =>
    if cfg.provider = some upload.provider then .deleteObject upload rest
    else .thrown (.error
      ("Upload provider " ++ providerName upload.provider ++ " is required for account erasure"))

def erasePage (cfg : UploadConfig) (uploads : List ErasableUpload) : ErasurePc :=
  if uploads = [] then .returned
  else if cfg.provider = none then
    .thrown (.error "Upload storage must be configured to finish account erasure")
  else eraseNext cfg uploads

def erasedKey (uploadId : ℕ) : String := "erased/" ++ toString uploadId

def storageErased (uploadId : ℕ) (now : ℤ) (upload : Upload) : Upload :=
  { upload with objectKey := erasedKey uploadId, storageDeletedAt := some now }

/-- The update of a deleted upload. -/
def markErased (uploadId : ℕ) (s : UploadState) : Except Thrown UploadState :=
  match s.uploads[uploadId]? with
  | none => .error recordNotFound
  | some upload =>
    if upload.deletedAt = none then .error recordNotFound
    else if (s.uploads.eraseIdx uploadId).any fun other =>
        other.provider = upload.provider ∧ other.objectKey = erasedKey uploadId then
      .error uniqueViolation
    else .ok { s with uploads := s.uploads.modify uploadId (storageErased uploadId s.now) }

/-- Which of the uploads a page holds is left open; it holds one if there is one. -/
def erasureStep (cfg : UploadConfig) (s : UploadState) (userId : String) :
    ErasurePc → AccountAnswer → Option (UploadState × ErasurePc)
  | .cancelSubscriptions, .call o => some (o.read s .findUploads .thrown)
  | .findUploads, .page uploadIds =>
    if uploadIds.length ≤ erasureBatchSize ∧ (uploadIds = [] → !s.uploads.any (erasable userId)) then
      (readErasable userId s uploadIds).map fun uploads => (s, erasePage cfg uploads)
    else none
  | .findUploads, .call (.failed e) => some (s, .thrown e)
  | .deleteObject upload rest, .call o =>
    some (o.run s (s.deleteObject upload.provider upload.objectKey)
      (.markErased upload.uploadId rest) .thrown)
  | .markErased uploadId rest, .call o =>
    some (attempt o s (markErased uploadId s) (eraseNext cfg rest) .thrown)
  | _, _ => none

/-! ### The system -/

inductive AccountCall
  | upload (call : UploadCall)
  | deleteAccount (userId : String) (pc : DeleteAccountPc)
  | processAccountErasure (userId : String) (pc : ErasurePc)

inductive AccountRequest
  | upload (request : UploadRequest)
  | deleteAccount (userId : String)
  | processAccountErasure (userId : String)

/-- The user who sends the request; scans and sweeps are started by the workers. -/
def requestingUser : AccountRequest → Option String
  | .upload (.initiateUpload call) => some call.userId
  | .upload (.completeUpload call) => some call.userId
  | .upload (.deleteUpload call) => some call.userId
  | .deleteAccount userId => some userId
  | _ => none

/-- `objectKey` begins each key with the id of the user. -/
def ownsKey (userId objectKey : String) : Bool :=
  (userId.toList ++ ['/']).isPrefixOf objectKey.toList

/-- An upload gets a key of the user. -/
def takesOwnKey : UploadRequest → Bool
  | .initiateUpload call => ownsKey call.userId call.objectKey
  | _ => true

/-- A user whose account is deleted has no session, and an erasure has to be requested. -/
def accountSpawn (cfg : UploadConfig) (s : AccountState) (request : AccountRequest) :
    Option AccountCall :=
  if ∃ userId ∈ requestingUser request, userId ∈ s.deleted then none
  else
    match request with
    | .upload request =>
      if takesOwnKey request then some (.upload (uploadSpawn cfg s.uploads request)) else none
    | .deleteAccount userId => some (.deleteAccount userId .findUser)
    | .processAccountErasure userId =>
      if userId ∈ s.deleted then some (.processAccountErasure userId .cancelSubscriptions) else none

def accountStep (cfg : UploadConfig) (s : AccountState) :
    AccountCall → AccountAnswer → Option (AccountState × AccountCall)
  | .upload call, .upload answer =>
    (uploadStep cfg s.uploads call answer).map fun r => ({ s with uploads := r.1 }, .upload r.2)
  | .upload _, _ => none
  | .deleteAccount userId pc, answer =>
    (deleteAccountStep s userId pc answer).map fun r => (r.1, .deleteAccount userId r.2)
  | .processAccountErasure userId pc, answer =>
    (erasureStep cfg s.uploads userId pc answer).map fun r =>
      ({ s with uploads := r.1 }, .processAccountErasure userId r.2)

/-- **The accounts and their uploads**, from any state on. -/
def accounts (cfg : UploadConfig) (initial : AccountState) :
    Program AccountState AccountCall AccountRequest AccountAnswer UploadEvent where
  init := initial
  spawn s _ request := (accountSpawn cfg s request).map fun call => (s, call)
  step s _ := accountStep cfg s
  env s event := (client s.uploads event).map fun uploads => { s with uploads }

abbrev AccountWorld := World AccountState AccountCall

abbrev AccountLabel := Label AccountRequest AccountAnswer UploadEvent

end BackendFoundation.Accounts.Model
