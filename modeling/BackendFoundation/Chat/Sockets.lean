import BackendFoundation.Chat.Gateway
import BackendFoundation.Chat.Sequence
import BackendFoundation.Lib.Hosting
import Mathlib.Data.List.Infix

/-! # The sockets of the chat

The handlers of `createChatGateway` in `chat.gateway.ts`. A socket has an identity from its handshake
on, and the rooms that it has joined. A packet starts a handler, which goes on when its socket is
gone; its calls of `chat.service.ts` are those of `Chat.Model`, beside any other calls of the service.
A broadcast names a room. It may reach a socket at any later time, once or not at all, if the socket
is in the room then. So may what a node publishes to have the sockets of a room disconnected reach
another node.

Left out are the room of a socket's own id, to which nothing is sent, frames that the schemas refuse,
and `server:draining`, which goes to every socket before all are disconnected. A rate limit is a choice
of the surroundings. -/

namespace BackendFoundation.Chat.Sockets

open Errors Lib Lib.Interleave Lib.Hosting Tenancy.TenantScope Chat.Model
open Lib.UuidText (Text acceptsUuid HasForm isHex hasForm_toLower)
open Chat.Gateway (SocketIdentity)

abbrev Id := UuidText.Uuid

/-- The id as the tables of the chat have it. -/
def asKey (id : Id) : Model.Uuid := String.ofList id.text

/-- A text that `z.uuid()` accepts. -/
structure SchemaId where
  text : Text
  accepted : acceptsUuid text = true
deriving DecidableEq

theorem SchemaId.hasForm (id : SchemaId) : HasForm isHex id.text :=
  of_decide_eq_true (Bool.and_eq_true_iff.mp id.accepted).1

/-- The id that the database compares with. -/
def SchemaId.id (id : SchemaId) : Id := ⟨id.text.map Char.toLower, hasForm_toLower id.hasForm⟩

def SchemaId.key (id : SchemaId) : Model.Uuid := asKey id.id

/-! ### Rooms -/

def conversationRoom (organizationId : Option Id) (conversationId : Text) : Text :=
  (match organizationId with
    | some organizationId => organizationId.text
    | none => "global".toList) ++ ":conversation:".toList ++ conversationId

def userRoom (userId : Id) : Text := "user:".toList ++ userId.text

structure Socket where
  /-- The process that has accepted it. -/
  node : ℕ := 0
  identity : SocketIdentity
  rooms : List Text
  connected : Bool := true
deriving DecidableEq

local instance : LawfulBEq Text := inferInstance

def joinedConversationCount (socket : Socket) : ℕ :=
  (socket.rooms.filter fun room => ":conversation:".toList <:+: room).length

/-- `join`, which does nothing once the socket is disconnected. -/
def Socket.join (socket : Socket) (room : Text) : Socket :=
  if socket.connected = true ∧ room ∉ socket.rooms then { socket with rooms := socket.rooms ++ [room] }
  else socket

def Socket.leave (socket : Socket) (room : Text) : Socket :=
  { socket with rooms := socket.rooms.filter (· ≠ room) }

def Socket.disconnect (socket : Socket) : Socket := { socket with rooms := [], connected := false }

/-! ### Broadcasts -/

inductive Outgoing
  | message (message : Message)
  | read (conversationId : Text) (userId : Id) (lastReadSeq : ℕ)
  | typing (conversationId : Text) (userId : Id) (typing : Bool)
deriving DecidableEq

structure Broadcast where
  room : Text
  event : Outgoing
  /-- The socket that sends it, if it is not to get it. -/
  except : Option ℕ := none
deriving DecidableEq

def Broadcast.message? (broadcast : Broadcast) : Option Message :=
  match broadcast.event with
  | .message message => some message
  | .read .. | .typing .. => none

/-- `disconnectSockets` as a node publishes it to the others. -/
structure DisconnectRequest where
  node : ℕ
  userId : Id
deriving DecidableEq

structure GatewayState where
  chat : ChatState := {}
  /-- By their numbers, also those that are gone. -/
  sockets : List Socket := []
  broadcasts : List Broadcast := []
  /-- The number of a socket and that of the broadcast that has reached it. -/
  deliveries : List (ℕ × ℕ) := []
  disconnects : List DisconnectRequest := []
  /-- A node and the number of the request that has reached it. -/
  relayed : List (ℕ × ℕ) := []

namespace GatewayState
variable (s : GatewayState)

def setSocket (n : ℕ) (socket : Socket) : GatewayState := { s with sockets := s.sockets.set n socket }

def emit (broadcast : Broadcast) : GatewayState := { s with broadcasts := s.broadcasts ++ [broadcast] }

/-- The broadcast reaches the socket. -/
def arrive (n k : ℕ) : Option GatewayState :=
  match s.sockets[n]?, s.broadcasts[k]? with
  | some socket, some broadcast =>
    if broadcast.room ∈ socket.rooms ∧ broadcast.except ≠ some n ∧ (n, k) ∉ s.deliveries then
      some { s with deliveries := s.deliveries ++ [(n, k)] }
    else none
  | _, _ => none

/-- The sockets of a node that are in the room of the user are disconnected. -/
def disconnectSockets (node : ℕ) (userId : Id) : GatewayState :=
  { s with sockets := s.sockets.map fun socket =>
      if socket.node = node ∧ userRoom userId ∈ socket.rooms then socket.disconnect else socket }

/-- `server.in(userRoom(userId)).disconnectSockets(true)` at a node, which publishes it to the others. -/
def revoke (node : ℕ) (userId : Id) : GatewayState :=
  { s.disconnectSockets node userId with disconnects := s.disconnects ++ [⟨node, userId⟩] }

/-- The request reaches another node. -/
def relay (node k : ℕ) : Option GatewayState :=
  match s.disconnects[k]? with
  | some request =>
    if request.node ≠ node ∧ (node, k) ∉ s.relayed then
      some { s.disconnectSockets node request.userId with relayed := s.relayed ++ [(node, k)] }
    else none
  | none => none

/-- The messages that have reached a socket. -/
def received (n : ℕ) : List Message :=
  (s.deliveries.filter (·.1 = n)).filterMap fun d => s.broadcasts[d.2]?.bind Broadcast.message?

end GatewayState

/-! ### Handlers -/

/-- A packet of a socket that names a conversation. -/
structure Packet where
  socket : ℕ
  identity : SocketIdentity
  conversationId : SchemaId
deriving DecidableEq

def Packet.room (packet : Packet) : Text :=
  conversationRoom packet.identity.organizationId packet.conversationId.text

def Packet.userId (packet : Packet) : Model.Uuid := asKey packet.identity.userId

/-- The organization of the request context of `withIdentity`. -/
def Packet.organizationId (packet : Packet) : Option Model.Uuid :=
  packet.identity.organizationId.map asKey

def Packet.sendCall (packet : Packet) (input : SendMessageInput) : SendCall where
  conversationId := packet.conversationId.key
  userId := packet.userId
  organizationId := packet.organizationId
  input := input

def Packet.readCall (packet : Packet) (seq : ℕ) : ReadCall where
  conversationId := packet.conversationId.key
  userId := packet.userId
  organizationId := packet.organizationId
  seq := seq

inductive JoinPc
  | limit
  | requireParticipant
  | enter
  | acked
  | refused
deriving DecidableEq

inductive LeavePc
  | limit
  | leave
  | acked
  | refused
deriving DecidableEq

inductive SendEventPc
  | eventLimit
  | sendLimit
  | sending (pc : SendPc)
  | acked (message : Message) (duplicate : Bool)
  | refused
deriving DecidableEq

inductive ReadEventPc
  | limit
  | reading (pc : ReadPc)
  | acked (lastReadSeq : ℕ)
  | refused
deriving DecidableEq

inductive TypingPc
  | limit
  | relay
  | ended
deriving DecidableEq

inductive Handler
  | join (packet : Packet) (pc : JoinPc)
  | leave (packet : Packet) (pc : LeavePc)
  | send (packet : Packet) (input : SendMessageInput) (pc : SendEventPc)
  | markRead (packet : Packet) (seq : ℕ) (pc : ReadEventPc)
  | typing (packet : Packet) (typing : Bool) (pc : TypingPc)
  /-- A call of the service by a request. -/
  | rest (proc : Proc)
deriving DecidableEq

/-- The call of the service that a handler makes. -/
def Handler.call : Handler → Option Proc
  | .join .. | .leave .. | .typing .. => none
  | .send packet input pc =>
    match pc with
    | .eventLimit | .sendLimit => some (.send (packet.sendCall input) .requireParticipant)
    | .sending pc => some (.send (packet.sendCall input) pc)
    | .acked message duplicate => some (.send (packet.sendCall input) (.returned message duplicate))
    | .refused => none
  | .markRead packet seq pc =>
    match pc with
    | .limit => some (.read (packet.readCall seq) .requireParticipant)
    | .reading pc => some (.read (packet.readCall seq) pc)
    | .acked lastReadSeq => some (.read (packet.readCall seq) (.returned lastReadSeq))
    | .refused => none
  | .rest proc => some proc

structure HandlerChoice where
  /-- The rate limit admits the event. -/
  admitted : Bool := true
  call : Choice := {}

variable (maxRooms : ℕ) (models : DataModel) (s : GatewayState)

def joinStep (packet : Packet) (pc : JoinPc) (c : HandlerChoice) : Option (GatewayState × JoinPc) :=
  match pc with
  | .limit => some (s, if c.admitted then .requireParticipant else .refused)
  | .requireParticipant =>
    let next : JoinPc :=
      match requireParticipant s.chat packet.conversationId.key packet.userId packet.organizationId with
      | .ok _ => .enter
      | .error _ => .refused
    some (c.call.outcome.read s next fun _ => .refused)
  | .enter =>
    match s.sockets[packet.socket]? with
    | none => none
    | some socket =>
      if packet.room ∉ socket.rooms ∧ maxRooms ≤ joinedConversationCount socket then some (s, .refused)
      else some (s.setSocket packet.socket (socket.join packet.room), .acked)
  | .acked | .refused => none

def leaveStep (packet : Packet) (pc : LeavePc) (c : HandlerChoice) :
    Option (GatewayState × LeavePc) :=
  match pc with
  | .limit => some (s, if c.admitted then .leave else .refused)
  | .leave =>
    match s.sockets[packet.socket]? with
    | none => none
    | some socket => some (s.setSocket packet.socket (socket.leave packet.room), .acked)
  | .acked | .refused => none

def sendEventStep (pid : ℕ) (packet : Packet) (input : SendMessageInput) (pc : SendEventPc)
    (c : HandlerChoice) : Option (GatewayState × SendEventPc) :=
  match pc with
  | .eventLimit => some (s, if c.admitted then .sendLimit else .refused)
  | .sendLimit => some (s, if c.admitted then .sending .requireParticipant else .refused)
  | .sending (.returned message duplicate) =>
    match serializeMessage message with
    | .error _ => some (s, .refused)
    | .ok serialized => some
        (if duplicate then s else s.emit { room := packet.room, event := .message serialized },
          .acked serialized duplicate)
  | .sending (.thrown _) => some (s, .refused)
  | .sending pc =>
    (sendStep s.chat pid (packet.sendCall input) pc c.call.outcome).map fun r =>
      ({ s with chat := r.1 }, .sending r.2)
  | .acked .. | .refused => none

def readEventStep (packet : Packet) (seq : ℕ) (pc : ReadEventPc) (c : HandlerChoice) :
    Option (GatewayState × ReadEventPc) :=
  match pc with
  | .limit => some (s, if c.admitted then .reading .requireParticipant else .refused)
  | .reading (.returned lastReadSeq) =>
    let event : Outgoing := .read packet.conversationId.text packet.identity.userId lastReadSeq
    some (s.emit { room := packet.room, event, except := some packet.socket }, .acked lastReadSeq)
  | .reading (.thrown _) => some (s, .refused)
  | .reading pc =>
    (readStep s.chat (packet.readCall seq) pc c.call.outcome).map fun r =>
      ({ s with chat := r.1 }, .reading r.2)
  | .acked _ | .refused => none

def typingStep (packet : Packet) (typing : Bool) (pc : TypingPc) (c : HandlerChoice) :
    Option (GatewayState × TypingPc) :=
  match pc with
  | .limit => some (s, if c.admitted then .relay else .ended)
  | .relay =>
    let event : Outgoing := .typing packet.conversationId.text packet.identity.userId typing
    match s.sockets[packet.socket]? with
    | none => none
    | some socket =>
      if packet.room ∈ socket.rooms then
        some (s.emit { room := packet.room, event, except := some packet.socket }, .ended)
      else some (s, .ended)
  | .ended => none

def handlerStep (pid : ℕ) (handler : Handler) (c : HandlerChoice) : Option (GatewayState × Handler) :=
  match handler with
  | .join packet pc => (joinStep maxRooms s packet pc c).map fun r => (r.1, .join packet r.2)
  | .leave packet pc => (leaveStep s packet pc c).map fun r => (r.1, .leave packet r.2)
  | .send packet input pc =>
    (sendEventStep s pid packet input pc c).map fun r => (r.1, .send packet input r.2)
  | .markRead packet seq pc =>
    (readEventStep s packet seq pc c).map fun r => (r.1, .markRead packet seq r.2)
  | .typing packet typing pc =>
    (typingStep s packet typing pc c).map fun r => (r.1, .typing packet typing r.2)
  | .rest proc =>
    (Model.step models s.chat pid proc c.call).map fun r => ({ s with chat := r.1 }, .rest r.2)

/-! ### The system -/

/-- The event of a packet, by its name in `chatEvents`. -/
inductive SocketEvent
  | join
  | leave
  | send (input : SendMessageInput)
  | markRead (seq : ℕ)
  | typing (typing : Bool)
deriving DecidableEq

inductive GatewayStart
  | packet (socket : ℕ) (conversationId : SchemaId) (event : SocketEvent)
  | rest (start : Start)

inductive GatewayEvent
  | chat (event : Event)
  /-- A handshake has found an identity. -/
  | connect (node : ℕ) (identity : SocketIdentity)
  /-- A client or a sweep disconnects a socket. -/
  | disconnect (socket : ℕ)
  /-- A notice of a revocation has come to a node. -/
  | revoke (node : ℕ) (userId : Id)
  | relay (node request : ℕ)
  | arrive (socket broadcast : ℕ)

def handle (packet : Packet) : SocketEvent → Handler
  | .join => .join packet .limit
  | .leave => .leave packet .limit
  | .send input => .send packet input .eventLimit
  | .markRead seq => .markRead packet seq .limit
  | .typing typing => .typing packet typing .limit

/-- A socket that is disconnected sends no packets. -/
def startHandler (s : GatewayState) (pid : ℕ) : GatewayStart → Option (GatewayState × Handler)
  | .packet n conversationId event =>
    match s.sockets[n]? with
    | none => none
    | some socket =>
      if socket.connected then some (s, handle ⟨n, socket.identity, conversationId⟩ event) else none
  | .rest start => (Model.start s.chat pid start).map fun r => ({ s with chat := r.1 }, .rest r.2)

def gatewayEvent (s : GatewayState) : GatewayEvent → Option GatewayState
  | .chat event => (Model.event s.chat event).map fun chat => { s with chat }
  | .connect node identity => some
      { s with sockets := s.sockets ++ [{ node, identity, rooms := [userRoom identity.userId] }] }
  | .disconnect n =>
    match s.sockets[n]? with
    | none => none
    | some socket => some (s.setSocket n socket.disconnect)
  | .revoke node userId => some (s.revoke node userId)
  | .relay node k => s.relay node k
  | .arrive n k => s.arrive n k

/-- **The gateway**, with any packets of any sockets and any calls of the service beside each other. -/
def gateway : Program GatewayState Handler GatewayStart HandlerChoice GatewayEvent where
  init := {}
  spawn := startHandler
  step := handlerStep maxRooms models
  env := gatewayEvent

abbrev GatewayWorld := World GatewayState Handler

abbrev GatewayLabel := Label GatewayStart HandlerChoice GatewayEvent

end BackendFoundation.Chat.Sockets
