import BackendFoundation.Lib.Calls
import BackendFoundation.Lib.DenseLog
import BackendFoundation.Lib.Interleave
import BackendFoundation.Lib.Table
import BackendFoundation.Tenancy.TenantScope

/-! # Chat

The service of `chat.service.ts` over the tables of conversations, participants and messages.

A call is a process that takes one statement at a time. The insert of `sendMessage` is a statement
that the database executes on its own: the call submits it and awaits its result. The database locks
the row of the conversation (`acquire`), which gives the message its number, and later commits or
aborts; it goes on if the caller has lost its connection or is dead. A message is named by the call
whose statement inserted it. -/

namespace BackendFoundation.Chat.Model

open Errors Lib Lib.Interleave Tenancy.TenantScope

abbrev Uuid := String

/-- `softDeleteModels` of `lib/prisma.ts`: the extension adds `deletedAt: null` to the filters of
these models. -/
def softDeleteModels (models : DataModel) : List String :=
  (models.filter fun model => model.name ≠ "Message" ∧ "deletedAt" ∈ model.fields).map (·.name)

/-- `MESSAGE_PAGE_SIZE`. -/
def messagePageSize : ℕ := 50

/-- `Number.MAX_SAFE_INTEGER`. -/
def maxSafeInteger : ℕ := 9007199254740991

/-! ### The tables -/

structure Conversation where
  organizationId : Option Uuid
  lastSeq : ℕ := 0
  deletedAt : Option ℕ := none
deriving DecidableEq

structure Participant where
  organizationId : Option Uuid
  lastReadSeq : ℕ := 0
  leftAt : Option ℕ := none
  deletedAt : Option ℕ := none
deriving DecidableEq

inductive MessageType
  | text | system | attachment
deriving DecidableEq

structure Message where
  /-- The call that sent it. -/
  id : ℕ
  organizationId : Option Uuid
  conversationId : Uuid
  senderUserId : Option Uuid
  seq : ℕ
  clientMessageId : String
  type : MessageType
  body : Option String
  uploadId : Option Uuid
  deletedAt : Option ℕ := none
deriving DecidableEq

structure Upload where
  userId : Uuid
  /-- Its status is `READY`. -/
  ready : Bool
  deletedAt : Option ℕ := none
deriving DecidableEq

structure SendMessageInput where
  clientMessageId : String
  body : Option String := none
  uploadId : Option Uuid := none
  type : Option MessageType := none
deriving DecidableEq

/-- A call of `sendMessage`. -/
structure SendCall where
  conversationId : Uuid
  userId : Uuid
  /-- The active organization of the request context. -/
  organizationId : Option Uuid := none
  input : SendMessageInput
deriving DecidableEq

/-- The insert of a call, in the database. -/
inductive StatementPhase
  | waiting
  /-- It has the lock of the row of the conversation, and will insert the message. -/
  | locked (message : Message)
  /-- It is committed; no row was inserted if there is no such conversation. -/
  | committed (inserted : Option Message)
  | uniqueViolation
  | failed (error : Thrown)
deriving DecidableEq

structure Statement where
  call : SendCall
  phase : StatementPhase
deriving DecidableEq

structure ChatState where
  now : ℕ := 0
  conversations : Table Uuid Conversation := Table.empty
  /-- By conversation and user. -/
  participants : Table (Uuid × Uuid) Participant := Table.empty
  uploads : Table Uuid Upload := Table.empty
  /-- In the order in which they were committed. -/
  messages : List Message := []
  /-- The statement that has locked the row of a conversation. -/
  rowLocks : Table Uuid ℕ := Table.empty
  /-- The inserts, by the call. -/
  statements : Table ℕ Statement := Table.empty

/-! ### Queries -/

/-- `organizationFilter`: no condition if no organization is active. -/
def OrganizationFilter (organizationId owner : Option Uuid) : Prop :=
  organizationId = none ∨ owner = organizationId

instance (organizationId owner : Option Uuid) : Decidable (OrganizationFilter organizationId owner) :=
  inferInstanceAs (Decidable (_ ∨ _))

/-- `requireParticipant`: the participant and the conversation. -/
def requireParticipant (s : ChatState) (conversationId userId : Uuid)
    (organizationId : Option Uuid) : Except Thrown (Participant × Conversation) :=
  match s.participants (conversationId, userId), s.conversations conversationId with
  | some participant, some conversation =>
    if OrganizationFilter organizationId participant.organizationId ∧ participant.leftAt = none ∧
        participant.deletedAt = none ∧ conversation.deletedAt = none then
      .ok (participant, conversation)
    else .error (.app (notFound "Conversation not found"))
  | _, _ => .error (.app (notFound "Conversation not found"))

def serializeMessage (message : Message) : Except Thrown Message :=
  if maxSafeInteger < message.seq then
    .error (.error "Message sequence exceeds the JSON-safe integer range")
  else .ok message

/-- The condition on `seq` of `listMessages`. Both are spread into one object, so that a `beforeSeq`
replaces the condition of an `afterSeq`. -/
def SeqCondition (afterSeq beforeSeq : Option ℕ) (seq : ℕ) : Prop :=
  match afterSeq, beforeSeq with
  | _, some before => seq < before
  | some after, none => after < seq
  | none, none => True

instance (afterSeq beforeSeq : Option ℕ) : DecidablePred (SeqCondition afterSeq beforeSeq) :=
  fun _ =>
    match afterSeq, beforeSeq with
    | _, some _ => inferInstanceAs (Decidable (_ < _))
    | some _, none => inferInstanceAs (Decidable (_ < _))
    | none, none => instDecidableTrue

/-- The filter of `listMessages`, with what the extension adds to it. -/
def Listed (models : DataModel) (organizationId : Option Uuid) (conversationId : Uuid)
    (afterSeq beforeSeq : Option ℕ) (message : Message) : Prop :=
  OrganizationFilter organizationId message.organizationId ∧
    message.conversationId = conversationId ∧ SeqCondition afterSeq beforeSeq message.seq ∧
    ("Message" ∈ softDeleteModels models → message.deletedAt = none)

instance (models : DataModel) (organizationId : Option Uuid) (conversationId : Uuid)
    (afterSeq beforeSeq : Option ℕ) :
    DecidablePred (Listed models organizationId conversationId afterSeq beforeSeq) :=
  fun _ => inferInstanceAs (Decidable (_ ∧ _ ∧ _ ∧ (_ → _)))

/-- The query of `listMessages`. -/
def listMessages (models : DataModel) (s : ChatState) (organizationId : Option Uuid)
    (conversationId : Uuid) (afterSeq beforeSeq limit : Option ℕ) :
    Except Thrown (List Message) :=
  let take := min (limit.getD messagePageSize) messagePageSize
  let found := s.messages.filter (Listed models organizationId conversationId afterSeq beforeSeq)
  let sorted := if afterSeq = none then found.insertionSort (·.seq ≥ ·.seq)
    else found.insertionSort (·.seq ≤ ·.seq)
  (sorted.take take).mapM serializeMessage

/-- The retry of a send: the message of the conversation with the client's id. -/
def findExisting (s : ChatState) (call : SendCall) : Option Message :=
  s.messages.find? fun m =>
    OrganizationFilter call.organizationId m.organizationId ∧
      m.conversationId = call.conversationId ∧ m.clientMessageId = call.input.clientMessageId

/-! ### The insert -/

def SendMessageInput.messageType (input : SendMessageInput) : MessageType :=
  input.type.getD (if input.uploadId.isSome then .attachment else .text)

/-- The row that the insert of the call `pid` selects from the updated conversation. -/
def SendCall.message (call : SendCall) (pid : ℕ) (conversation : Conversation) : Message where
  id := pid
  organizationId := conversation.organizationId
  conversationId := call.conversationId
  senderUserId := some call.userId
  seq := conversation.lastSeq + 1
  clientMessageId := call.input.clientMessageId
  type := call.input.messageType
  body := call.input.body
  uploadId := call.input.uploadId

/-- The unique indexes of `messages` that the row violates. -/
def Violates (s : ChatState) (message : Message) : Prop :=
  ∃ m ∈ s.messages, m.conversationId = message.conversationId ∧
    (m.seq = message.seq ∨ m.clientMessageId = message.clientMessageId)

instance (s : ChatState) : DecidablePred (Violates s) :=
  fun _ => inferInstanceAs (Decidable (∃ m ∈ s.messages, _))

namespace ChatState
variable (s : ChatState)

def setPhase (pid : ℕ) (statement : Statement) (phase : StatementPhase) : ChatState :=
  { s with statements := s.statements.set pid { statement with phase } }

/-- The update of the conversation takes its row and the insert checks the unique indexes; none while
another statement has the row. -/
def acquire (pid : ℕ) : Option ChatState :=
  match s.statements pid with
  | some ⟨call, .waiting⟩ =>
    match s.conversations call.conversationId with
    | none => some (s.setPhase pid ⟨call, .waiting⟩ (.committed none))
    | some conversation =>
      if conversation.deletedAt ≠ none ∨ conversation.organizationId ≠ call.organizationId then
        some (s.setPhase pid ⟨call, .waiting⟩ (.committed none))
      else if s.rowLocks call.conversationId ≠ none then none
      else
        let message := call.message pid conversation
        if Violates s message then some (s.setPhase pid ⟨call, .waiting⟩ .uniqueViolation)
        else some
          { s.setPhase pid ⟨call, .waiting⟩ (.locked message) with
            rowLocks := s.rowLocks.set call.conversationId pid }
  | _ => none

/-- The statement is committed, and its row lock is released. -/
def commit (pid : ℕ) : Option ChatState :=
  match s.statements pid with
  | some ⟨call, .locked message⟩ =>
    match s.conversations call.conversationId with
    | none => none
    | some conversation => some
        { s.setPhase pid ⟨call, .locked message⟩ (.committed (some message)) with
          conversations := s.conversations.set call.conversationId
            { conversation with lastSeq := message.seq }
          messages := s.messages ++ [message]
          rowLocks := s.rowLocks.erase call.conversationId }
  | _ => none

/-- The database ends the statement without an effect. -/
def abort (pid : ℕ) (error : Thrown) : Option ChatState :=
  match s.statements pid with
  | some ⟨call, .waiting⟩ => some (s.setPhase pid ⟨call, .waiting⟩ (.failed error))
  | some ⟨call, .locked message⟩ => some
      { s.setPhase pid ⟨call, .locked message⟩ (.failed error) with
        rowLocks := s.rowLocks.erase call.conversationId }
  | _ => none

/-- The update of `deleteMessage`. -/
def tombstone (id : ℕ) (organizationId : Option Uuid) : ChatState :=
  { s with
    messages := s.messages.map fun m =>
      if m.id = id ∧ OrganizationFilter organizationId m.organizationId then
        { m with deletedAt := some s.now, body := none, uploadId := none }
      else m }

end ChatState

/-! ### The calls -/

inductive SendPc
  | requireParticipant
  | findUpload
  | submit
  | await
  | findExisting
  | returned (message : Message) (duplicate : Bool)
  | thrown (error : Thrown)
deriving DecidableEq

def sendStep (s : ChatState) (pid : ℕ) (call : SendCall) (pc : SendPc) (o : Outcome Thrown) :
    Option (ChatState × SendPc) :=
  match pc with
  | .requireParticipant =>
    let next : SendPc :=
      match requireParticipant s call.conversationId call.userId call.organizationId with
      | .error e => .thrown e
      | .ok _ => if call.input.uploadId.isSome then .findUpload else .submit
    some (o.read s next .thrown)
  | .findUpload =>
    let available := ∃ id ∈ call.input.uploadId, ∃ upload ∈ s.uploads id,
      upload.userId = call.userId ∧ upload.ready = true ∧ upload.deletedAt = none
    let next : SendPc :=
      if available then .submit else .thrown (.app (badRequest "Attachment is not available"))
    some (o.read s next .thrown)
  | .submit =>
    match o with
    | .ok => some ({ s with statements := s.statements.set pid ⟨call, .waiting⟩ }, .await)
    | .failed e => some (s, .thrown e)
    | .lost e => some ({ s with statements := s.statements.set pid ⟨call, .waiting⟩ }, .thrown e)
  | .await =>
    match o with
    | .ok =>
      match s.statements pid with
      | some ⟨_, .committed (some message)⟩ => some (s, .returned message false)
      | some ⟨_, .committed none⟩ => some (s, .thrown (.app (notFound "Conversation not found")))
      | some ⟨_, .uniqueViolation⟩ => some (s, .findExisting)
      | some ⟨_, .failed e⟩ => some (s, .thrown e)
      | _ => none
    | .failed e | .lost e => some (s, .thrown e)
  | .findExisting =>
    let next : SendPc :=
      match findExisting s call with
      | some existing => .returned existing true
      | none => .thrown (.prisma "P2010" "23505")
    some (o.read s next .thrown)
  | .returned _ _ | .thrown _ => none

/-- A client that calls `listMessages` with the largest number it has received until it gets an empty
page. A call that throws is made again. -/
structure CatchUp where
  conversationId : Uuid
  userId : Uuid
  organizationId : Option Uuid := none
  start : ℕ
  received : List Message := []
deriving DecidableEq

inductive CatchUpPc
  | requireParticipant
  | findMany
  /-- The last page was empty. -/
  | done
deriving DecidableEq

/-- A limit that the schema accepts. -/
abbrev Limit := { n : ℕ // 1 ≤ n }

def catchUpStep (models : DataModel) (s : ChatState) (client : CatchUp) (pc : CatchUpPc)
    (o : Outcome Thrown) (limit : Option Limit) : Option (CatchUp × CatchUpPc) :=
  match pc with
  | .requireParticipant =>
    match o, requireParticipant s client.conversationId client.userId client.organizationId with
    | .ok, .ok _ => some (client, .findMany)
    | _, _ => some (client, .requireParticipant)
  | .findMany =>
    let afterSeq := DenseLog.largest Message.seq client.start client.received
    match o, listMessages models s client.organizationId client.conversationId (some afterSeq) none
        (limit.map (·.val)) with
    | .ok, .ok [] => some (client, .done)
    | .ok, .ok page => some ({ client with received := client.received ++ page }, .requireParticipant)
    | _, _ => some (client, .requireParticipant)
  | .done => none

/-- A call of `deleteMessage`. -/
structure DeleteCall where
  messageId : ℕ
  userId : Uuid
  organizationId : Option Uuid := none
deriving DecidableEq

inductive DeletePc
  | findMessage
  | requireParticipant (message : Message)
  | update (message : Message)
  | returned
  | thrown (error : Thrown)
deriving DecidableEq

def deleteStep (s : ChatState) (call : DeleteCall) (pc : DeletePc) (o : Outcome Thrown) :
    Option (ChatState × DeletePc) :=
  match pc with
  | .findMessage =>
    let found := s.messages.find? fun m =>
      OrganizationFilter call.organizationId m.organizationId ∧ m.id = call.messageId ∧
        m.deletedAt = none
    let next : DeletePc :=
      match found with
      | some message => .requireParticipant message
      | none => .thrown (.app (notFound "Message not found"))
    some (o.read s next .thrown)
  | .requireParticipant message =>
    let next : DeletePc :=
      match requireParticipant s message.conversationId call.userId call.organizationId with
      | .error e => .thrown e
      | .ok _ =>
        if message.senderUserId ≠ some call.userId then
          .thrown (.app (forbidden "You can only delete your own messages"))
        else .update message
    some (o.read s next .thrown)
  | .update message =>
    some (o.run s (s.tombstone message.id call.organizationId) .returned .thrown)
  | .returned | .thrown _ => none

/-- A call of `markRead`. -/
structure ReadCall where
  conversationId : Uuid
  userId : Uuid
  organizationId : Option Uuid := none
  seq : ℕ
deriving DecidableEq

def ReadCall.key (call : ReadCall) : Uuid × Uuid := (call.conversationId, call.userId)

/-- The filter of the update, with what the extension adds to it. -/
def ReadCall.Marks (call : ReadCall) (participant : Participant) : Prop :=
  OrganizationFilter call.organizationId participant.organizationId ∧ participant.deletedAt = none

instance (call : ReadCall) : DecidablePred call.Marks := fun _ => inferInstanceAs (Decidable (_ ∧ _))

/-- The update of `markRead`, and the number of rows it has changed. -/
def ChatState.setLastRead (s : ChatState) (call : ReadCall) : ChatState × ℕ :=
  let updated := s.participants.updateWhere call.key call.Marks
    fun p => { p with lastReadSeq := call.seq }
  ({ s with participants := updated.1 }, updated.2)

inductive ReadPc
  | requireParticipant
  | update
  | returned (lastReadSeq : ℕ)
  | thrown (error : Thrown)
deriving DecidableEq

def readStep (s : ChatState) (call : ReadCall) (pc : ReadPc) (o : Outcome Thrown) :
    Option (ChatState × ReadPc) :=
  match pc with
  | .requireParticipant =>
    let next : ReadPc :=
      match requireParticipant s call.conversationId call.userId call.organizationId with
      | .error e => .thrown e
      | .ok (participant, conversation) =>
        if conversation.lastSeq < call.seq then
          .thrown (.app (badRequest "Read sequence cannot be ahead of the conversation"))
        else if call.seq ≤ participant.lastReadSeq then .returned participant.lastReadSeq
        else .update
    some (o.read s next .thrown)
  | .update =>
    let updated := s.setLastRead call
    let next : ReadPc :=
      if updated.2 = 0 then .thrown (.prisma "P2025" "No record was found for an update.")
      else .returned call.seq
    some (o.run s updated.1 next .thrown)
  | .returned _ | .thrown _ => none

/-! ### The system -/

inductive Proc
  | send (call : SendCall) (pc : SendPc)
  | catchUp (client : CatchUp) (pc : CatchUpPc)
  | delete (call : DeleteCall) (pc : DeletePc)
  | read (call : ReadCall) (pc : ReadPc)
deriving DecidableEq

inductive Start
  | send (call : SendCall)
  | catchUp (conversationId userId : Uuid) (organizationId : Option Uuid) (start : ℕ)
  | delete (call : DeleteCall)
  | read (call : ReadCall)

structure Choice where
  outcome : Outcome Thrown := .ok
  /-- The limit of a call of `listMessages`. -/
  limit : Option Limit := none

inductive Event
  | tick (ms : ℕ)
  /-- `createConversation`, with its participants. -/
  | createConversation (id : Uuid) (organizationId : Option Uuid) (participants : List Uuid)
  | deleteConversation (id : Uuid)
  /-- A participant joins, leaves or comes back. -/
  | setParticipant (conversationId userId : Uuid) (leftAt deletedAt : Option ℕ)
  | setUpload (id : Uuid) (upload : Upload)
  | acquire (pid : ℕ)
  | commit (pid : ℕ)
  | abort (pid : ℕ) (error : Thrown)

def start (s : ChatState) (_ : ℕ) : Start → Option (ChatState × Proc)
  | .send call => some (s, .send call .requireParticipant)
  | .catchUp conversationId userId organizationId start =>
    some (s, .catchUp { conversationId, userId, organizationId, start } .requireParticipant)
  | .delete call => some (s, .delete call .findMessage)
  | .read call => some (s, .read call .requireParticipant)

def step (models : DataModel) (s : ChatState) (pid : ℕ) (p : Proc) (c : Choice) :
    Option (ChatState × Proc) :=
  match p with
  | .send call pc => (sendStep s pid call pc c.outcome).map fun r => (r.1, .send call r.2)
  | .catchUp client pc =>
    (catchUpStep models s client pc c.outcome c.limit).map fun r => (s, .catchUp r.1 r.2)
  | .delete call pc => (deleteStep s call pc c.outcome).map fun r => (r.1, .delete call r.2)
  | .read call pc => (readStep s call pc c.outcome).map fun r => (r.1, .read call r.2)

/-- The rows of the participants of a new conversation. -/
def ChatState.addParticipants (s : ChatState) (conversationId : Uuid)
    (organizationId : Option Uuid) (userIds : List Uuid) : ChatState :=
  { s with
    participants := userIds.foldl
      (fun t userId => t.set (conversationId, userId) { organizationId }) s.participants }

def event (s : ChatState) : Event → Option ChatState
  | .tick ms => some { s with now := s.now + ms }
  | .createConversation id organizationId participants =>
    match s.conversations id with
    | some _ => none
    | none => some ({ s with conversations := s.conversations.set id { organizationId } }.addParticipants
        id organizationId participants)
  | .deleteConversation id =>
    match s.conversations id with
    | some conversation => some { s with
        conversations := s.conversations.set id { conversation with deletedAt := some s.now } }
    | none => none
  | .setParticipant conversationId userId leftAt deletedAt =>
    match s.conversations conversationId with
    | some conversation => some { s with
        participants := s.participants.set (conversationId, userId)
          { organizationId := conversation.organizationId, leftAt, deletedAt,
            lastReadSeq := ((s.participants (conversationId, userId)).map (·.lastReadSeq)).getD 0 } }
    | none => none
  | .setUpload id upload => some { s with uploads := s.uploads.set id upload }
  | .acquire pid => s.acquire pid
  | .commit pid => s.commit pid
  | .abort pid error => s.abort pid error

/-- **Chat**, any calls of any participants beside each other. -/
def chat (models : DataModel) : Program ChatState Proc Start Choice Event where
  init := {}
  spawn := start
  step := step models
  env := event

abbrev ChatWorld := World ChatState Proc

abbrev ChatLabel := Label Start Choice Event

end BackendFoundation.Chat.Model
