import BackendFoundation.Crypto
import BackendFoundation.Lib.Calls
import BackendFoundation.Lib.Interleave
import BackendFoundation.Lib.Table

/-! # Idempotent operations: records and calls

`lib/idempotency.ts`. A record is kept under its unique index, the actor, the scope and the hash of
the key. `runIdempotent` is a program of one statement a step around an operation with effects
elsewhere; `runIdempotentTransaction` is one whose step is a whole serializable transaction, with the
business effects of its operation inside.

A request is given by its canonical text, which is all the source hashes, and a response by its JSON
text. Record ids come from a sequence. A lock token is a random UUID in the source; here it is the
number of the call, which no other call has. -/

namespace BackendFoundation.Idempotency.Model

open Lib Lib.Interleave Errors Crypto

/-! ### Records -/

/-- The unique index of the records. -/
structure RecordKey where
  actorKey : String
  scope : String
  keyHash : MetadataHash
deriving DecidableEq

inductive StoredResponse
  | encrypted (ciphertext : Ciphertext)
  /-- A response, other than `null`, stored before responses were encrypted. -/
  | plain (json : String)
deriving DecidableEq

structure IdempotencyRecord where
  id : ℕ
  requestHash : MetadataHash
  statusCode : Option ℕ := none
  response : Option StoredResponse := none
  lockToken : Option ℕ := none
  lockedUntil : Option ℕ := none
  attempts : ℕ := 0
  expiresAt : ℕ
  deletedAt : Option ℕ := none
deriving DecidableEq

/-- What an operation returns, its response as JSON text. -/
structure OperationResult where
  statusCode : ℕ
  response : String
deriving DecidableEq

/-- A call that returned: the record it answered from, and what it returned. -/
structure Answer where
  recordId : ℕ
  result : OperationResult
  replayed : Bool
deriving DecidableEq

structure IdempotencyInput where
  actorKey : String
  scope : String
  key : String
  /-- `canonicalizeIdempotencyInput` of the request. -/
  request : String
  ttlHours : Option ℕ := none
deriving DecidableEq

structure IdempotencyHashes where
  keyHash : MetadataHash
  keyHashCandidates : List MetadataHash
  requestHash : MetadataHash
  requestHashCandidates : List MetadataHash

section Hashes

variable (R : Runtime) (K : Keyring)

def idempotencyHashes (key request : String) : IdempotencyHashes :=
  let keyHashInput := "idempotency-key:" ++ key
  let requestHashInput := "idempotency-request:" ++ request
  { keyHash := hashMetadata R K keyHashInput
    keyHashCandidates := candidateMetadataHashes R K keyHashInput
    requestHash := hashMetadata R K requestHashInput
    requestHashCandidates := candidateMetadataHashes R K requestHashInput }

def IdempotencyInput.hashes (input : IdempotencyInput) : IdempotencyHashes :=
  idempotencyHashes R K input.key input.request

/-- The index under which a call creates its record. -/
def IdempotencyInput.recordKey (input : IdempotencyInput) : RecordKey :=
  ⟨input.actorKey, input.scope, (input.hashes R K).keyHash⟩

/-- The indexes under which a call looks for its record. -/
def IdempotencyInput.candidateKeys (input : IdempotencyInput) : List RecordKey :=
  (input.hashes R K).keyHashCandidates.map fun keyHash => ⟨input.actorKey, input.scope, keyHash⟩

def encryptResponse (response : String) : StoredResponse := .encrypted (encryptSecret K response)

def decryptResponse : StoredResponse → Except Thrown String
  | .encrypted ciphertext => decryptSecret K ciphertext
  | .plain json => .ok json

def completedResult (record : IdempotencyRecord) : Except Thrown (Option OperationResult) :=
  match record.statusCode, record.response with
  | some statusCode, some response =>
    (decryptResponse K response).map fun response => some ⟨statusCode, response⟩
  | _, _ => .ok none

end Hashes

def differentRequest : Thrown :=
  .app (conflict "Idempotency-Key was already used for a different request")

def inProgress : Thrown :=
  .app (conflict "An operation with this Idempotency-Key is already in progress")

def EXTERNAL_OPERATION_LEASE_MS : ℕ := 2 * 60000

/-! ### The state and its statements -/

/-- A committed effect of the operation of a call, with the record it was committed with. -/
structure Effect where
  call : ℕ
  recordId : ℕ
  key : RecordKey
  requestHash : MetadataHash
  result : OperationResult
deriving DecidableEq

structure IdempotencyState where
  now : ℕ := 0
  nextId : ℕ := 0
  records : Table RecordKey IdempotencyRecord := Table.empty
  /-- The business effects that transactions have committed. -/
  effects : List Effect := []
  /-- The calls that have returned so far. -/
  answers : List Answer := []

namespace IdempotencyState

/-- The live records under some indexes. -/
def liveRecords (s : IdempotencyState) (keys : List RecordKey) :
    List (RecordKey × IdempotencyRecord) :=
  keys.filterMap fun key =>
    ((s.records key).filter fun record => record.deletedAt = none).map fun record => (key, record)

/-- `findFirst` on the records: none if there is none, and otherwise the one the database picks. -/
def findFirst (s : IdempotencyState) (keys : List RecordKey) (pick : ℕ) :
    Option (Option (RecordKey × IdempotencyRecord)) :=
  match s.liveRecords keys with
  | [] => some none
  | found => (found[pick]?).map some

/-- `updateMany` on the record `id`, with the number of rows. -/
def updateRecord (s : IdempotencyState) (key : RecordKey) (id : ℕ)
    (cond : IdempotencyRecord → Prop) [DecidablePred cond]
    (data : IdempotencyRecord → IdempotencyRecord) : IdempotencyState × ℕ :=
  let r := s.records.updateWhere key
    (fun record => record.deletedAt = none ∧ record.id = id ∧ cond record) data
  ({ s with records := r.1 }, r.2)

/-- `create` on the records, refused by the unique index if there is a record. -/
def createRecord (s : IdempotencyState) (key : RecordKey) (record : IdempotencyRecord) :
    Option IdempotencyState :=
  match s.records key with
  | some _ => none
  | none => some
    { s with
      nextId := s.nextId + 1
      records := s.records.set key record }

def deleteExpired (s : IdempotencyState) (key : RecordKey) (id now : ℕ) : IdempotencyState :=
  { s with
    records := s.records.eraseWhere key fun record =>
      record.deletedAt = none ∧ record.id = id ∧ record.expiresAt ≤ now ∧ record.statusCode ≠ none }

def answer (s : IdempotencyState) (recordId : ℕ) (result : OperationResult) (replayed : Bool) :
    IdempotencyState :=
  { s with answers := s.answers ++ [⟨recordId, result, replayed⟩] }

/-- The `deleteMany` of a retention batch: `ids` are the rows it has selected. -/
def retentionDelete (s : IdempotencyState) (now : ℕ) (ids : List RecordKey) : IdempotencyState :=
  { s with
    records := ids.foldl (fun records key => records.eraseWhere key fun record =>
      record.deletedAt = none ∧ record.expiresAt < now ∧ record.statusCode ≠ none ∧
        record.response ≠ none) s.records }

end IdempotencyState

/-! ### `runIdempotent` -/

inductive CallPc
  | find
  | deleteExpired (key : RecordKey) (id : ℕ)
  | acquire (key : RecordKey) (id : ℕ)
  | create
  /-- The call is about to start its operation on the lease of the record. -/
  | operation (key : RecordKey) (id : ℕ)
  /-- The operation is under way. -/
  | running (key : RecordKey) (id : ℕ)
  | save (key : RecordKey) (id : ℕ) (result : OperationResult)
  | release (key : RecordKey) (id : ℕ) (error : Thrown)
  | returned (id : ℕ) (result : OperationResult) (replayed : Bool)
  | thrown (error : Thrown)
deriving DecidableEq

/-- A call of `runIdempotent` that has read the clock at `now`. -/
structure Call where
  input : IdempotencyInput
  now : ℕ
  pc : CallPc := .find
deriving DecidableEq

def Call.lockedUntil (call : Call) : ℕ := call.now + EXTERNAL_OPERATION_LEASE_MS

def Call.expiresAt (call : Call) : ℕ := call.now + call.input.ttlHours.getD 24 * 60 * 60 * 1000

/-- What the surroundings of a call choose for its next step. -/
structure Choice where
  outcome : Outcome Thrown := .ok
  /-- The record `findFirst` picks. -/
  pick : ℕ := 0
  operation : Except Thrown OperationResult := .ok ⟨200, "null"⟩

/-- The lease can be taken: `lockedUntil` is null or not after `now`. -/
def IdempotencyRecord.Free (record : IdempotencyRecord) (now : ℕ) : Prop :=
  record.lockedUntil = none ∨ ∃ t ∈ record.lockedUntil, t ≤ now

instance (record : IdempotencyRecord) (now : ℕ) : Decidable (record.Free now) :=
  inferInstanceAs (Decidable (_ ∨ ∃ t ∈ record.lockedUntil, t ≤ now))

def IdempotencyRecord.acquired (lockToken lockedUntil expiresAt : ℕ) (record : IdempotencyRecord) :
    IdempotencyRecord :=
  { record with
    lockToken := some lockToken
    lockedUntil := some lockedUntil
    expiresAt := expiresAt
    attempts := record.attempts + 1 }

def IdempotencyRecord.saved (K : Keyring) (result : OperationResult) (record : IdempotencyRecord) :
    IdempotencyRecord :=
  { record with
    statusCode := some result.statusCode
    response := some (encryptResponse K result.response)
    lockToken := none
    lockedUntil := none }

def IdempotencyRecord.released (now : ℕ) (record : IdempotencyRecord) : IdempotencyRecord :=
  { record with lockToken := none, lockedUntil := some now }

section RunIdempotent

variable (R : Runtime) (K : Keyring)

/-- The record a call creates under the id `id`. -/
def Call.newRecord (pid id : ℕ) (call : Call) : IdempotencyRecord where
  id := id
  requestHash := (call.input.hashes R K).requestHash
  lockToken := some pid
  lockedUntil := some call.lockedUntil
  attempts := 1
  expiresAt := call.expiresAt

/-- What a call makes of a record that it keeps: `assertSameRequest`, then the replay. -/
def useRecord (s : IdempotencyState) (call : Call) (key : RecordKey) (record : IdempotencyRecord) :
    IdempotencyState × CallPc :=
  if record.requestHash ∈ (call.input.hashes R K).requestHashCandidates then
    match completedResult K record with
    | .error e => (s, .thrown e)
    | .ok (some result) => (s.answer record.id result true, .returned record.id result true)
    | .ok none => (s, .acquire key record.id)
  else (s, .thrown differentRequest)

/-- What a call makes of the record it has found, up to its next statement. -/
def afterFind (s : IdempotencyState) (call : Call) :
    Option (RecordKey × IdempotencyRecord) → IdempotencyState × CallPc
  | none => (s, .create)
  | some (key, record) =>
    if record.expiresAt ≤ call.now then
      match completedResult K record with
      | .error e => (s, .thrown e)
      | .ok (some _) => (s, .deleteExpired key record.id)
      | .ok none => useRecord R K s call key record
    else useRecord R K s call key record

/-- `error.code === 'P2002'` of a create is a conflict. -/
def createError : Thrown → Thrown
  | .prisma "P2002" _ => inProgress
  | e => e

/-- `runIdempotent`, called as the process `pid`. -/
def runIdempotent (s : IdempotencyState) (pid : ℕ) (call : Call) (c : Choice) :
    Option (IdempotencyState × CallPc) :=
  match call.pc with
  | .find =>
    match s.findFirst (call.input.candidateKeys R K) c.pick with
    | none => none
    | some found =>
      match c.outcome with
      | .ok => some (afterFind R K s call found)
      | .failed e => some (s, .thrown e)
      | .lost e => some (s, .thrown e)
  | .deleteExpired key id =>
    some (c.outcome.run s (s.deleteExpired key id call.now) .create .thrown)
  | .acquire key id =>
    let acquired := s.updateRecord key id
      (fun record => record.statusCode = none ∧ record.Free call.now)
      (IdempotencyRecord.acquired pid call.lockedUntil call.expiresAt)
    some (c.outcome.run s acquired.1
      (if acquired.2 ≠ 1 then .thrown inProgress else .operation key id) .thrown)
  | .create =>
    match s.createRecord (call.input.recordKey R K) (call.newRecord R K pid s.nextId) with
    | none => some (s, .thrown inProgress)
    | some created =>
      some (c.outcome.run s created (.operation (call.input.recordKey R K) s.nextId)
        fun e => .thrown (createError e))
  | .operation key id => some (s, .running key id)
  | .running key id =>
    match c.operation with
    | .ok result => some (s, .save key id result)
    | .error e => some (s, .release key id e)
  | .save key id result =>
    let saved := s.updateRecord key id
      (fun record => record.lockToken = some pid ∧ record.statusCode = none)
      (IdempotencyRecord.saved K result)
    match c.outcome with
    | .ok =>
      if saved.2 ≠ 1 then
        some (saved.1, .release key id (.error "Idempotency ownership lease was lost"))
      else some (saved.1.answer id result false, .returned id result false)
    | .failed e => some (s, .release key id e)
    | .lost e => some (saved.1, .release key id e)
  | .release key id error =>
    some (c.outcome.run s
      (s.updateRecord key id
        (fun record => record.lockToken = some pid ∧ record.statusCode = none)
        (IdempotencyRecord.released call.now)).1
      (.thrown error) .thrown)
  | .returned _ _ _ => none
  | .thrown _ => none

end RunIdempotent

inductive Event
  | tick (ms : ℕ)
  /-- A batch of the retention sweep that has read the clock at `now`. -/
  | retention (now : ℕ) (ids : List RecordKey)

def event (s : IdempotencyState) : Event → Option IdempotencyState
  | .tick ms => some { s with now := s.now + ms }
  | .retention now ids => if now ≤ s.now then some (s.retentionDelete now ids) else none

/-- **Calls of `runIdempotent` under a fixed keyring**, with the retention sweep. -/
def external (R : Runtime) (K : Keyring) :
    Program IdempotencyState Call IdempotencyInput Choice Event where
  init := {}
  spawn s _ input := some (s, { input := input, now := s.now })
  step s pid call c :=
    (runIdempotent R K s pid call c).map fun r => (r.1, { call with pc := r.2 })
  env := event

abbrev ExternalWorld := World IdempotencyState Call

abbrev ExternalLabel := Label IdempotencyInput Choice Event

/-! ### `runIdempotentTransaction` -/

inductive TransactionPc
  | execute (attempt : ℕ)
  | findWinner (error : Thrown)
  | returned (id : ℕ) (result : OperationResult) (replayed : Bool)
  | thrown (error : Thrown)
deriving DecidableEq

/-- A call of `runIdempotentTransaction` that has read the clock at `now`. -/
structure TransactionCall where
  input : IdempotencyInput
  now : ℕ
  pc : TransactionPc := .execute 0
deriving DecidableEq

def TransactionCall.expiresAt (call : TransactionCall) : ℕ :=
  call.now + call.input.ttlHours.getD 24 * 60 * 60 * 1000

/-- How the database ends a transaction. -/
inductive TransactionEnd
  /-- It ran its callback on the state at hand, and committed if the callback returned. -/
  | ran
  /-- The transaction was aborted for another reason: `P2034`, a broken connection. -/
  | aborted (error : Thrown)
  /-- The create met the unique index: another transaction had created the record. -/
  | keyConflict
deriving DecidableEq

structure TransactionChoice where
  ending : TransactionEnd := .ran
  pick : ℕ := 0
  operation : Except Thrown OperationResult := .ok ⟨200, "null"⟩
  /-- The read of the winner fails. -/
  readError : Option Thrown := none

section RunIdempotentTransaction

variable (R : Runtime) (K : Keyring)

/-- The record a transaction creates. -/
def TransactionCall.newRecord (id : ℕ) (call : TransactionCall) : IdempotencyRecord where
  id := id
  requestHash := (call.input.hashes R K).requestHash
  attempts := 1
  expiresAt := call.expiresAt

/-- The update with which it completes the record. -/
def IdempotencyRecord.completed (result : OperationResult) (record : IdempotencyRecord) :
    IdempotencyRecord :=
  { record with
    statusCode := some result.statusCode
    response := some (encryptResponse K result.response) }

/-- What the callback makes of a record it keeps, and the end of the replay of a winner. -/
def replay (s : IdempotencyState) (call : TransactionCall) (record : IdempotencyRecord) :
    Except Thrown (IdempotencyState × OperationResult × ℕ × Bool) :=
  if record.requestHash ∈ (call.input.hashes R K).requestHashCandidates then
    match completedResult K record with
    | .error e => .error e
    | .ok (some result) => .ok (s.answer record.id result true, result, record.id, true)
    | .ok none => .error inProgress
  else .error differentRequest

/-- The create, the operation and the update of the callback, on the state `s` in which the record
of the key is gone. -/
def runOperation (s : IdempotencyState) (pid : ℕ) (call : TransactionCall)
    (operation : Except Thrown OperationResult) :
    Except Thrown (IdempotencyState × OperationResult × ℕ × Bool) :=
  let key := call.input.recordKey R K
  let record := call.newRecord R K s.nextId
  match s.createRecord key record with
  | none => .error (.prisma "P2002" "Unique constraint failed")
  | some created =>
    match operation with
    | .error e => .error e
    | .ok result =>
      let committed : IdempotencyState :=
        { created with
          records := created.records.set key (record.completed K result)
          effects := created.effects ++ [⟨pid, record.id, key, record.requestHash, result⟩] }
      .ok (committed.answer record.id result false, result, record.id, false)

/-- The callback of the transaction: the state it leaves if it commits, and what it returns. -/
def callback (s : IdempotencyState) (pid : ℕ) (call : TransactionCall)
    (operation : Except Thrown OperationResult) :
    Option (RecordKey × IdempotencyRecord) →
      Except Thrown (IdempotencyState × OperationResult × ℕ × Bool)
  | none => runOperation R K s pid call operation
  | some (key, record) =>
    if record.expiresAt ≤ call.now then
      match completedResult K record with
      | .error e => .error e
      | .ok (some _) =>
        runOperation R K { s with records := s.records.erase key } pid call operation
      | .ok none => replay R K s call record
    else replay R K s call record

/-- The `catch` block of the retry loop. -/
def afterError (attempt : ℕ) : Thrown → TransactionPc
  | .prisma code message =>
    if code = "P2034" ∧ attempt < 2 then .execute (attempt + 1)
    else if code = "P2002" then .findWinner (.prisma code message)
    else .thrown (.prisma code message)
  | e => .thrown e

/-- What a call does with the end of a callback. -/
def settle (s : IdempotencyState) (onError : Thrown → TransactionPc) :
    Except Thrown (IdempotencyState × OperationResult × ℕ × Bool) →
      IdempotencyState × TransactionPc
  | .ok (s', result, id, replayed) => (s', .returned id result replayed)
  | .error e => (s, onError e)

/-- `runIdempotentTransaction`, called as the process `pid`. A step is a whole transaction. -/
def runIdempotentTransaction (s : IdempotencyState) (pid : ℕ) (call : TransactionCall)
    (c : TransactionChoice) : Option (IdempotencyState × TransactionPc) :=
  match call.pc with
  | .execute attempt =>
    match c.ending with
    | .aborted e => some (s, afterError attempt e)
    | .keyConflict =>
      if s.records (call.input.recordKey R K) = none then none
      else some (s, afterError attempt (.prisma "P2002" "Unique constraint failed"))
    | .ran =>
      (s.findFirst (call.input.candidateKeys R K) c.pick).map fun found =>
        settle s (afterError attempt) (callback R K s pid call c.operation found)
  | .findWinner error =>
    match c.readError with
    | some e => some (s, .thrown e)
    | none =>
      (s.findFirst (call.input.candidateKeys R K) c.pick).map fun found =>
        match found with
        | none => (s, .thrown error)
        | some (_, winner) => settle s .thrown (replay R K s call winner)
  | .returned _ _ _ => none
  | .thrown _ => none

end RunIdempotentTransaction

/-- **Calls of `runIdempotentTransaction` under a fixed keyring**, with the retention sweep. -/
def transactional (R : Runtime) (K : Keyring) :
    Program IdempotencyState TransactionCall IdempotencyInput TransactionChoice Event where
  init := {}
  spawn s _ input := some (s, { input := input, now := s.now })
  step s pid call c :=
    (runIdempotentTransaction R K s pid call c).map fun r => (r.1, { call with pc := r.2 })
  env := event

abbrev TransactionalWorld := World IdempotencyState TransactionCall

abbrev TransactionalLabel := Label IdempotencyInput TransactionChoice Event

end BackendFoundation.Idempotency.Model
