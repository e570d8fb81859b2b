import BackendFoundation.Chat.DirectKeys
import BackendFoundation.Lib.Calls
import BackendFoundation.Lib.Interleave
import BackendFoundation.Lib.Rows
import BackendFoundation.Tenancy.TenantScope

/-! # Conversations

`createConversation` of `chat.service.ts` as a process of one statement a step, and the migration
that gave the older direct conversations their keys. A participant is a text that the schema
accepts, and the row of the participant holds the id that the text stands for. -/

namespace BackendFoundation.Chat.Conversations

open Errors Lib Lib.Interleave Lib.UuidText Chat.DirectKeys
open Tenancy.TenantScope (tenantScopeError)

/-- `MAX_PARTICIPANTS`. -/
def maxParticipants : ℕ := 256

/-! ### Rows -/

structure User where
  id : Uuid
  /-- The status is `ACTIVE`. -/
  active : Bool := true
  deleted : Bool := false
deriving DecidableEq

structure Membership where
  organizationId : Uuid
  userId : Uuid
  active : Bool := true
  deleted : Bool := false
deriving DecidableEq

inductive ParticipantRole
  | owner | member
deriving DecidableEq

structure Participant where
  userId : Uuid
  role : ParticipantRole := .member
  left : Bool := false
  deleted : Bool := false
deriving DecidableEq

structure Conversation where
  id : Uuid
  organizationId : Option Uuid
  type : ConversationType
  title : Option String := none
  createdByUserId : Option Uuid := none
  lastSeq : ℕ := 0
  directKey : Option Text := none
  createdAt : ℤ := 0
  deleted : Bool := false
  participants : List Participant
deriving DecidableEq

/-- What a call returns of a conversation. -/
structure ConversationView where
  id : Uuid
  type : ConversationType
  title : Option String
  lastSeq : ℕ
  createdAt : ℤ
deriving DecidableEq

def Conversation.view (row : Conversation) : ConversationView :=
  ⟨row.id, row.type, row.title, row.lastSeq, row.createdAt⟩

structure Database where
  users : List User := []
  memberships : List Membership := []
  conversations : List Conversation := []

/-- The users who take part in a conversation. -/
def Conversation.members (row : Conversation) : List Uuid :=
  (row.participants.filter fun participant =>
    participant.left = false ∧ participant.deleted = false).map (·.userId)

/-! ### The migration -/

/-- The key of an older conversation, if it is direct and not deleted and has members. -/
def Conversation.pairKey (row : Conversation) : Option Text :=
  if row.type = .direct ∧ row.deleted = false ∧ row.members ≠ [] then
    some (directConversationKey (row.members.map Uuid.text) row.organizationId)
  else none

/-- The direct conversations of two members get their key, in a new column; no two conversations
may have the same members. -/
def backfillDirectKeys (rows : List Conversation) : Except Thrown (List Conversation) :=
  if (rows.filterMap (·.pairKey)).Nodup then
    .ok (rows.map fun row =>
      { row with directKey := if row.members.length = 2 then row.pairKey else none })
  else
    .error (.error "Duplicate active direct conversations must be resolved before this migration")

/-! ### Calls -/

/-- A call of `createConversation`, with the user and the organization of its request. -/
structure CreateConversation where
  userId : Uuid
  organizationId : Option Uuid := none
  type : ConversationType
  participantUserIds : List Text
  title : Option String := none
deriving DecidableEq

/-- What `createConversationSchema` asks of the participants. -/
def CreateConversation.accepted (call : CreateConversation) : Bool :=
  1 ≤ call.participantUserIds.length ∧ call.participantUserIds.length ≤ 255 ∧
    ∀ text ∈ call.participantUserIds, acceptsUuid text = true

/-- `[...new Set([userId, ...input.participantUserIds])]`. -/
def CreateConversation.participantIds (call : CreateConversation) : List Text :=
  (call.userId.text :: call.participantUserIds).eraseDups

/-- The ids that the texts stand for. -/
def CreateConversation.users (call : CreateConversation) : List Uuid :=
  call.participantIds.filterMap Uuid.ofText

def CreateConversation.directKey (call : CreateConversation) : Option Text :=
  if call.type = .direct then
    some (directConversationKey call.participantIds call.organizationId)
  else none

inductive CallPoint
  | count
  | find
  | create
  | findWinner (error : Thrown)
  | done (result : Except Thrown ConversationView)

structure CallState where
  call : CreateConversation
  point : CallPoint

/-- The checks before the first statement. -/
def CreateConversation.start (call : CreateConversation) : CallPoint :=
  if maxParticipants < call.participantIds.length then
    .done (.error (.app (badRequest "A conversation may have at most 256 participants")))
  else if call.type = .direct ∧ call.participantIds.length ≠ 2 then
    .done (.error (.app
      (badRequest "A direct conversation must have exactly two participants")))
  else .count

/-! ### Statements -/

/-- The number of the users that the caller can reach. -/
def Database.reachable (db : Database) (call : CreateConversation) : ℕ :=
  db.users.countP fun user =>
    user.id ∈ call.users ∧ user.active ∧ ¬ user.deleted ∧
      ∀ organizationId ∈ call.organizationId, db.memberships.any fun membership =>
        membership.organizationId = organizationId ∧ membership.userId = user.id ∧
          membership.active ∧ ¬ membership.deleted

/-- The conversations that the statements of a request see. -/
def tenantScope (tenancy : Bool) (organizationId : Option Uuid) (operation : String) :
    Except Thrown (Conversation → Bool) :=
  if tenancy = false then .ok fun _ => true
  else
    match organizationId with
    | some organizationId => .ok fun row => row.organizationId = some organizationId
    | none => .error (tenantScopeError ("Conversation." ++ operation ++
        " ran before an organization was resolved for the request"))

def findDirectConversation (tenancy : Bool) (organizationId : Option Uuid)
    (directKey : Option Text) (db : Database) : Except Thrown (Option Conversation) :=
  (tenantScope tenancy organizationId "findFirst").map fun visible =>
    db.conversations.find? fun row =>
      row.directKey = directKey ∧ row.type = .direct ∧ row.deleted = false ∧ visible row

def uniqueViolation (fields : String) : Thrown :=
  .prisma "P2002" ("Unique constraint failed on the fields: " ++ fields)

/-- The row that a call creates, with the id and the time that the database draws. -/
def CreateConversation.row (call : CreateConversation) (id : Uuid) (createdAt : ℤ) :
    Conversation where
  id := id
  organizationId := call.organizationId
  type := call.type
  title := call.title
  createdByUserId := some call.userId
  directKey := call.directKey
  createdAt := createdAt
  participants := call.participantIds.filterMap fun text => (Uuid.ofText text).map fun userId =>
    { userId := userId, role := if text = call.userId.text then .owner else .member }

local instance : LawfulBEq (Option Text) := inferInstance

/-- `prisma.conversation.create`. -/
def Database.create (db : Database) (tenancy : Bool) (call : CreateConversation) (id : Uuid)
    (createdAt : ℤ) : Except Thrown (Conversation × Database) :=
  match tenantScope tenancy call.organizationId "create" with
  | .error e => .error e
  | .ok _ =>
    let row := call.row id createdAt
    if id ∈ db.conversations.map (·.id) then .error (uniqueViolation "id")
    else if row.directKey.isSome ∧ row.directKey ∈ db.conversations.map (·.directKey) then
      .error (uniqueViolation "directKey")
    else if ¬ call.users.Nodup then .error (uniqueViolation "conversationId,userId")
    else if ∃ userId ∈ call.users, userId ∉ db.users.map (·.id) then
      .error (.prisma "P2003" "Foreign key constraint violated")
    else .ok (row, { db with conversations := db.conversations ++ [row] })

/-- The outcome of a statement, and what the database draws for it. -/
structure Reply where
  outcome : Outcome DatabaseError := .ok
  id : Uuid
  createdAt : ℤ := 0

def isUniqueViolation : Thrown → Bool
  | .prisma code _ => code = "P2002"
  | _ => false

/-- The `catch` of the insert. -/
def CreateConversation.rescue (call : CreateConversation) (error : Thrown) : CallPoint :=
  if call.directKey.isSome ∧ isUniqueViolation error then .findWinner error
  else .done (.error error)

variable (tenancy : Bool)

def CallState.statement (state : CallState) (db : Database) (reply : Reply) :
    Option (Database × CallPoint) :=
  let call := state.call
  let failed (e : DatabaseError) : CallPoint := .done (.error e.thrown)
  match state.point with
  | .count =>
    let next :=
      if db.reachable call ≠ call.participantIds.length then
        .done (.error (.app
          (badRequest "Every participant must be an active member of this organization")))
      else if call.type = .direct then .find
      else .create
    some (reply.outcome.read db next failed)
  | .find =>
    let next :=
      match findDirectConversation tenancy call.organizationId call.directKey db with
      | .error e => .done (.error e)
      | .ok (some row) => .done (.ok row.view)
      | .ok none => .create
    some (reply.outcome.read db next failed)
  | .create =>
    match db.create tenancy call reply.id reply.createdAt with
    | .error e => some (reply.outcome.read db (call.rescue e) fun e => call.rescue e.thrown)
    | .ok (row, db') =>
      some (reply.outcome.run db db' (.done (.ok row.view)) fun e => call.rescue e.thrown)
  | .findWinner error =>
    let next :=
      match findDirectConversation tenancy call.organizationId call.directKey db with
      | .error e => .done (.error e)
      | .ok (some row) => .done (.ok row.view)
      | .ok none => .done (.error error)
    some (reply.outcome.read db next failed)
  | .done _ => none

/-- What else happens: accounts and memberships change, and messages are numbered. -/
inductive Event
  | accounts (users : List User) (memberships : List Membership)
  | numbered (id : Uuid) (lastSeq : ℕ)

def Database.after (db : Database) : Event → Database
  | .accounts users memberships => { db with users := users, memberships := memberships }
  | .numbered id lastSeq =>
    { db with
      conversations := Rows.updateWhere db.conversations (·.id = id)
        fun row => { row with lastSeq := lastSeq } }

def program (db : Database) : Program Database CallState CreateConversation Reply Event where
  init := db
  spawn db _ call := if call.accepted then some (db, ⟨call, call.start⟩) else none
  step db _ state reply :=
    (state.statement tenancy db reply).map fun next => (next.1, ⟨state.call, next.2⟩)
  env db event := some (db.after event)

end BackendFoundation.Chat.Conversations
