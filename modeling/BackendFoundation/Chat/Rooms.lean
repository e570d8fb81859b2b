import BackendFoundation.Chat.DirectKeys
import BackendFoundation.Chat.Sockets

/-! # The rooms of a socket

What a step of the gateway does to the sockets and the broadcasts (`GatewayStep`). The calls in the
handlers are those of a run of the chat (`chat_reachable`), so that what holds there holds here.

A socket is in a room of a conversation only since a join of it, whose handler has found its user to be
a participant in the organization of the socket (`LetIn`). The room names the organization and the
conversation (`conversationRoom_inj`), so a broadcast that reaches the socket is of that
conversation. -/

namespace BackendFoundation.Chat.Rooms

open Errors Lib Lib.Runs Lib.Interleave Lib.Hosting Tenancy.TenantScope Chat.Model Chat.Sequence
open Chat.Sockets
open Lib.UuidText (Text)
open Chat.DirectKeys (ownerText not_mem_ownerText ownerText_injective)
open Chat.Gateway (SocketIdentity)
open Option (some.inj map_eq_some_iff)

/-! ### The names of the rooms -/

theorem conversationRoom_eq (organizationId : Option Id) (conversationId : Text) :
    conversationRoom organizationId conversationId =
      ownerText organizationId ++ ':' :: ("conversation:".toList ++ conversationId) := by
  cases organizationId <;> exact List.append_assoc ..

theorem colon_not_mem_text (id : Id) : ':' ∉ id.text := id.not_mem_text (by decide) (by decide)

theorem userRoom_injective : Function.Injective userRoom := fun _ _ h =>
  UuidText.Uuid.text_injective (List.append_cancel_left h)

theorem userRoom_ne (userId : Id) (organizationId : Option Id) (conversationId : Text) :
    userRoom userId ≠ conversationRoom organizationId conversationId := by
  intro h
  have hcount := congrArg (List.count ':') h
  rw [conversationRoom_eq, userRoom, List.count_append, List.count_append, List.count_cons_self,
    List.count_append, List.count_eq_zero_of_not_mem (colon_not_mem_text userId)] at hcount
  have huser : List.count ':' "user:".toList = 1 := by decide
  have hconversation : List.count ':' "conversation:".toList = 1 := by decide
  omega

theorem not_infix_userRoom (userId : Id) : ¬ ":conversation:".toList <:+: userRoom userId := by
  intro h
  have hcount := h.sublist.count_le ':'
  rw [userRoom, List.count_append, List.count_eq_zero_of_not_mem (colon_not_mem_text userId)] at hcount
  exact absurd hcount (by decide)

def Handler.packet? : Handler → Option Packet
  | .join packet _ | .leave packet _ | .send packet _ _ | .markRead packet _ _
  | .typing packet _ _ => some packet
  | .rest _ => none

/-- A handler that may go on to join a room. -/
def Entering : Handler → Prop
  | .join _ .enter => True
  | _ => False

/-- A send that has been acknowledged. -/
def Acked : Handler → Prop
  | .send _ _ (.acked _ _) => True
  | _ => False

variable {maxRooms : ℕ} {models : DataModel}

/-- **A step of a handler.** -/
inductive HandlerMove (maxRooms : ℕ) (models : DataModel) (s : GatewayState) (i : ℕ) :
    Handler → GatewayState → Handler → Prop
  /-- It goes on, or ends, without an effect. -/
  | waited {p q : Handler} (hpacket : Handler.packet? q = Handler.packet? p)
    (hcall : q.call = p.call ∨ q.call = none) (henter : ¬ Entering q) (hacked : ¬ Acked q) :
    HandlerMove maxRooms models s i p s q
  | authorized {packet : Packet} {row : Participant × Conversation}
    (h : requireParticipant s.chat packet.conversationId.key packet.userId packet.organizationId =
      .ok row) :
    HandlerMove maxRooms models s i (.join packet .requireParticipant) s (.join packet .enter)
  | joined {packet : Packet} {socket : Socket} (hsocket : s.sockets[packet.socket]? = some socket)
    (hcount : packet.room ∈ socket.rooms ∨ joinedConversationCount socket < maxRooms) :
    HandlerMove maxRooms models s i (.join packet .enter)
      (s.setSocket packet.socket (socket.join packet.room)) (.join packet .acked)
  | left {packet : Packet} {socket : Socket} (hsocket : s.sockets[packet.socket]? = some socket) :
    HandlerMove maxRooms models s i (.leave packet .leave)
      (s.setSocket packet.socket (socket.leave packet.room)) (.leave packet .acked)
  /-- The call of the service takes a step. -/
  | called {p q : Handler} {call call' : Proc} {c : Choice} {chat' : ChatState}
    (hpacket : Handler.packet? q = Handler.packet? p) (hcall : p.call = some call)
    (hcall' : q.call = some call') (hstep : Model.step models s.chat i call c = some (chat', call'))
    (henter : ¬ Entering q) (hacked : ¬ Acked q) :
    HandlerMove maxRooms models s i p { s with chat := chat' } q
  | sent {packet : Packet} {input : SendMessageInput} {message : Message} :
    HandlerMove maxRooms models s i (.send packet input (.sending (.returned message false)))
      (s.emit { room := packet.room, event := .message message })
      (.send packet input (.acked message false))
  | repeated {packet : Packet} {input : SendMessageInput} {message : Message} :
    HandlerMove maxRooms models s i (.send packet input (.sending (.returned message true))) s
      (.send packet input (.acked message true))
  /-- Others are told what the user has read, or that they type. -/
  | told {p q : Handler} {packet : Packet} {broadcast : Broadcast}
    (hp : Handler.packet? p = some packet) (hq : Handler.packet? q = some packet)
    (hcall : q.call = p.call) (hroom : broadcast.room = packet.room)
    (hmessage : broadcast.message? = none) (henter : ¬ Entering q) (hacked : ¬ Acked q) :
    HandlerMove maxRooms models s i p (s.emit broadcast) q

variable {i : ℕ} {packet : Packet} {c : HandlerChoice}

theorem joinStep_move {s t : GatewayState} {pc pc' : JoinPc}
    (h : joinStep maxRooms s packet pc c = some (t, pc')) :
    HandlerMove maxRooms models s i (.join packet pc) t (.join packet pc') := by
  cases pc with
  | limit =>
    cases h
    split_ifs <;> exact .waited rfl (.inl rfl) id id
  | requireParticipant =>
    obtain ⟨rfl, ⟨-, rfl⟩ | ⟨e, -, rfl⟩⟩ := Outcome.read_cases (some.inj h)
    · split
      · exact .authorized ‹_›
      · exact .waited rfl (.inl rfl) id id
    · exact .waited rfl (.inl rfl) id id
  | enter =>
    simp only [joinStep] at h
    split at h
    · cases h
    · split_ifs at h with hfull
      · cases h
        exact .waited rfl (.inl rfl) id id
      · cases h
        rcases not_and_or.mp hfull with hroom | hcount
        · exact .joined ‹_› (.inl (not_not.mp hroom))
        · exact .joined ‹_› (.inr (Nat.not_le.mp hcount))
  | acked | refused => cases h

theorem leaveStep_move {s t : GatewayState} {pc pc' : LeavePc}
    (h : leaveStep s packet pc c = some (t, pc')) :
    HandlerMove maxRooms models s i (.leave packet pc) t (.leave packet pc') := by
  cases pc with
  | limit =>
    cases h
    split_ifs <;> exact .waited rfl (.inl rfl) id id
  | leave =>
    simp only [leaveStep] at h
    split at h
    · cases h
    · cases h
      exact .left ‹_›
  | acked | refused => cases h

theorem serializeMessage_ok {m m' : Message} (h : serializeMessage m = .ok m') : m' = m := by
  unfold serializeMessage at h
  split_ifs at h
  cases h
  rfl

theorem called_of_sendStep {s t : GatewayState} {input : SendMessageInput} {pc : SendPc}
    {pc' : SendEventPc}
    (h : (sendStep s.chat i (packet.sendCall input) pc c.call.outcome).map (fun r =>
      (({ s with chat := r.1 } : GatewayState), SendEventPc.sending r.2)) = some (t, pc')) :
    HandlerMove maxRooms models s i (.send packet input (.sending pc)) t (.send packet input pc') := by
  obtain ⟨⟨chat', pc₁⟩, hstep, he⟩ := map_eq_some_iff.mp h
  cases he
  refine .called (c := c.call) rfl rfl rfl ?_ id id
  simp only [Model.step, hstep]
  rfl

theorem sendEventStep_move {s t : GatewayState} {input : SendMessageInput} {pc pc' : SendEventPc}
    (h : sendEventStep s i packet input pc c = some (t, pc')) :
    HandlerMove maxRooms models s i (.send packet input pc) t (.send packet input pc') := by
  cases pc with
  | eventLimit =>
    cases h
    split_ifs
    · exact .waited rfl (.inl rfl) id id
    · exact .waited rfl (.inr rfl) id id
  | sendLimit =>
    cases h
    split_ifs
    · exact .waited rfl (.inl rfl) id id
    · exact .waited rfl (.inr rfl) id id
  | sending pc =>
    cases pc with
    | returned message duplicate =>
      simp only [sendEventStep] at h
      split at h
      · cases h
        exact .waited rfl (.inr rfl) id id
      · rename_i serialized hserialized
        obtain rfl := serializeMessage_ok hserialized
        cases h
        cases duplicate with
        | false => exact .sent
        | true => exact .repeated
    | thrown e =>
      cases h
      exact .waited rfl (.inr rfl) id id
    | requireParticipant | findUpload | submit | await | findExisting =>
      simp only [sendEventStep] at h
      exact called_of_sendStep h
  | acked _ _ | refused => cases h

theorem called_of_readStep {s t : GatewayState} {seq : ℕ} {pc : ReadPc} {pc' : ReadEventPc}
    (h : (readStep s.chat (packet.readCall seq) pc c.call.outcome).map (fun r =>
      (({ s with chat := r.1 } : GatewayState), ReadEventPc.reading r.2)) = some (t, pc')) :
    HandlerMove maxRooms models s i (.markRead packet seq (.reading pc)) t
      (.markRead packet seq pc') := by
  obtain ⟨⟨chat', pc₁⟩, hstep, he⟩ := map_eq_some_iff.mp h
  cases he
  refine .called (c := c.call) rfl rfl rfl ?_ id id
  simp only [Model.step, hstep]
  rfl

theorem readEventStep_move {s t : GatewayState} {seq : ℕ} {pc pc' : ReadEventPc}
    (h : readEventStep s packet seq pc c = some (t, pc')) :
    HandlerMove maxRooms models s i (.markRead packet seq pc) t (.markRead packet seq pc') := by
  cases pc with
  | limit =>
    cases h
    split_ifs
    · exact .waited rfl (.inl rfl) id id
    · exact .waited rfl (.inr rfl) id id
  | reading pc =>
    cases pc with
    | returned lastReadSeq =>
      cases h
      exact .told rfl rfl rfl rfl rfl id id
    | thrown e =>
      cases h
      exact .waited rfl (.inr rfl) id id
    | requireParticipant | update =>
      simp only [readEventStep] at h
      exact called_of_readStep h
  | acked _ | refused => cases h

theorem typingStep_move {s t : GatewayState} {typing : Bool} {pc pc' : TypingPc}
    (h : typingStep s packet typing pc c = some (t, pc')) :
    HandlerMove maxRooms models s i (.typing packet typing pc) t (.typing packet typing pc') := by
  cases pc with
  | limit =>
    cases h
    split_ifs <;> exact .waited rfl (.inl rfl) id id
  | relay =>
    simp only [typingStep] at h
    split at h
    · cases h
    · split_ifs at h
      · cases h
        exact .told rfl rfl rfl rfl rfl id id
      · cases h
        exact .waited rfl (.inl rfl) id id
  | ended => cases h

variable {p q : Handler}

theorem handlerMove_of_step {s t : GatewayState}
    (h : handlerStep maxRooms models s i p c = some (t, q)) :
    HandlerMove maxRooms models s i p t q := by
  cases p with
  | join packet pc =>
    obtain ⟨r, hstep, he⟩ := map_eq_some_iff.mp h
    cases he
    exact joinStep_move hstep
  | leave packet pc =>
    obtain ⟨r, hstep, he⟩ := map_eq_some_iff.mp h
    cases he
    exact leaveStep_move hstep
  | send packet input pc =>
    obtain ⟨r, hstep, he⟩ := map_eq_some_iff.mp h
    cases he
    exact sendEventStep_move hstep
  | markRead packet seq pc =>
    obtain ⟨r, hstep, he⟩ := map_eq_some_iff.mp h
    cases he
    exact readEventStep_move hstep
  | typing packet typing pc =>
    obtain ⟨r, hstep, he⟩ := map_eq_some_iff.mp h
    cases he
    exact typingStep_move hstep
  | rest proc =>
    obtain ⟨r, hstep, he⟩ := map_eq_some_iff.mp h
    cases he
    exact .called rfl rfl rfl hstep id id

/-! ### The calls in the handlers -/

theorem HandlerMove.part {s t : GatewayState} (h : HandlerMove maxRooms models s i p t q) :
    PartStep (chat models) s.chat i p.call t.chat q.call := by
  cases h with
  | waited _ hcall _ _ =>
    rcases hcall with hcall | hcall <;> rw [hcall]
    · exact .same
    · cases p.call with
      | none => exact .same
      | some _ => exact .dropped
  | authorized _ | joined _ _ | left _ | sent | repeated => exact .same
  | called _ hcall hcall' hstep _ _ =>
    rw [hcall, hcall']
    exact .step hstep
  | told _ _ hcall _ _ _ _ =>
    rw [hcall]
    exact .same

theorem relay_cases {s t : GatewayState} {node k : ℕ} (h : s.relay node k = some t) :
    ∃ request, s.disconnects[k]? = some request ∧ request.node ≠ node ∧ (node, k) ∉ s.relayed ∧
      t = { s.disconnectSockets node request.userId with relayed := s.relayed ++ [(node, k)] } := by
  unfold GatewayState.relay at h
  split at h
  · next request hrequest =>
    split_ifs at h with hnew
    exact ⟨request, hrequest, hnew.1, hnew.2, (some.inj h).symm⟩
  · cases h

theorem hosts : Hosts (chat models) (gateway maxRooms models) GatewayState.chat Handler.call where
  init := rfl
  idle s _ := ⟨.catchUp "" "" none 0, _, rfl⟩
  spawn s n a t p h := by
    cases a with
    | packet k conversationId event =>
      simp only [gateway, startHandler] at h
      split at h
      · cases h
      · split_ifs at h
        cases h
        cases event with
        | join | leave | typing _ => exact rfl
        | send input => exact ⟨.send _, rfl⟩
        | markRead seq => exact ⟨.read _, rfl⟩
    | rest start =>
      obtain ⟨⟨t', p'⟩, hstart, he⟩ := map_eq_some_iff.mp h
      cases he
      exact ⟨start, hstart⟩
  step _ _ _ _ _ _ h := (handlerMove_of_step h).part
  env s e t h := by
    cases e with
    | chat event =>
      obtain ⟨chat', hevent, rfl⟩ := map_eq_some_iff.mp h
      exact .inr ⟨event, hevent⟩
    | connect node identity =>
      cases h
      exact .inl rfl
    | disconnect n =>
      simp only [gateway, gatewayEvent] at h
      split at h <;> cases h
      exact .inl rfl
    | revoke node userId =>
      cases h
      exact .inl rfl
    | relay node k =>
      obtain ⟨request, -, -, -, rfl⟩ := relay_cases h
      exact .inl rfl
    | arrive n k =>
      simp only [gateway, gatewayEvent, GatewayState.arrive] at h
      split at h
      · split_ifs at h
        cases h
        exact .inl rfl
      · cases h

/-- **The calls in the handlers are a run of the chat.** -/
theorem chat_reachable {w : GatewayWorld} (h : Reachable (gateway maxRooms models).system w) :
    Reachable (chat models).system (inner GatewayState.chat Handler.call w) :=
  hosts.reachable h

/-! ### What a step of the gateway does -/

/-- **What a step does to the sockets, the broadcasts and what has arrived.** -/
inductive GatewayStep (maxRooms : ℕ) (w : GatewayWorld) : GatewayLabel → GatewayState → Prop
  | calls {l : GatewayLabel} {t : GatewayState} (hsockets : t.sockets = w.shared.sockets)
    (hbroadcasts : t.broadcasts = w.shared.broadcasts)
    (hdeliveries : t.deliveries = w.shared.deliveries) : GatewayStep maxRooms w l t
  | connected {l : GatewayLabel} {node : ℕ} {identity : SocketIdentity} : GatewayStep maxRooms w l
      { w.shared with
        sockets := w.shared.sockets ++ [{ node, identity, rooms := [userRoom identity.userId] }] }
  | joined {i : ℕ} {c : HandlerChoice} {packet : Packet} {socket : Socket}
    (hp : w.proc? i = some (.join packet .enter))
    (hsocket : w.shared.sockets[packet.socket]? = some socket)
    (hcount : packet.room ∈ socket.rooms ∨ joinedConversationCount socket < maxRooms) :
    GatewayStep maxRooms w (.step i c)
      (w.shared.setSocket packet.socket (socket.join packet.room))
  | left {l : GatewayLabel} {packet : Packet} {socket : Socket}
    (hsocket : w.shared.sockets[packet.socket]? = some socket) :
    GatewayStep maxRooms w l (w.shared.setSocket packet.socket (socket.leave packet.room))
  | disconnected {l : GatewayLabel} {n : ℕ} {socket : Socket}
    (hsocket : w.shared.sockets[n]? = some socket) :
    GatewayStep maxRooms w l (w.shared.setSocket n socket.disconnect)
  | revoked {l : GatewayLabel} {t : GatewayState} {node : ℕ} {userId : Id}
    (hsockets : t.sockets = (w.shared.disconnectSockets node userId).sockets)
    (hbroadcasts : t.broadcasts = w.shared.broadcasts)
    (hdeliveries : t.deliveries = w.shared.deliveries) : GatewayStep maxRooms w l t
  | emitted {l : GatewayLabel} {i : ℕ} {p : Handler} {packet : Packet} {broadcast : Broadcast}
    (hp : w.proc? i = some p) (hpacket : Handler.packet? p = some packet)
    (hroom : broadcast.room = packet.room)
    (hmessage : ∀ message, broadcast.message? = some message →
      ∃ input, p = .send packet input (.sending (.returned message false))) :
    GatewayStep maxRooms w l (w.shared.emit broadcast)
  | arrived {n k : ℕ} {socket : Socket} {broadcast : Broadcast}
    (hsocket : w.shared.sockets[n]? = some socket)
    (hbroadcast : w.shared.broadcasts[k]? = some broadcast) (hroom : broadcast.room ∈ socket.rooms)
    (hnew : (n, k) ∉ w.shared.deliveries) :
    GatewayStep maxRooms w (.env (.arrive n k))
      { w.shared with deliveries := w.shared.deliveries ++ [(n, k)] }

theorem HandlerMove.gatewayStep {w : GatewayWorld} {t : GatewayState}
    (h : HandlerMove maxRooms models w.shared i p t q) (hp : w.proc? i = some p)
    (c : HandlerChoice) : GatewayStep maxRooms w (.step i c) t := by
  cases h with
  | waited _ _ _ _ | authorized _ | repeated | called _ _ _ _ _ _ => exact .calls rfl rfl rfl
  | joined hsocket hcount => exact .joined hp hsocket hcount
  | left hsocket => exact .left hsocket
  | sent =>
    refine .emitted hp rfl rfl fun message hmessage => ?_
    cases hmessage
    exact ⟨_, rfl⟩
  | told hpacket _ _ hroom hmessage _ _ =>
    refine .emitted hp hpacket hroom fun message hsome => ?_
    rw [hmessage] at hsome
    cases hsome

theorem gatewayStep {w w' : GatewayWorld} {l : GatewayLabel}
    (hn : (gateway maxRooms models).next w l = some w') : GatewayStep maxRooms w l w'.shared := by
  cases Program.move_of_next hn with
  | @spawn a s p hs =>
    cases a with
    | packet n conversationId event =>
      simp only [gateway, startHandler] at hs
      split at hs
      · cases hs
      · split_ifs at hs
        cases hs
        exact .calls rfl rfl rfl
    | rest start =>
      obtain ⟨r, -, he⟩ := map_eq_some_iff.mp hs
      cases he
      exact .calls rfl rfl rfl
  | @step i c p p' s hp hs => exact (handlerMove_of_step hs).gatewayStep hp c
  | crash _ => exact .calls rfl rfl rfl
  | @env e s hs =>
    cases e with
    | chat event =>
      obtain ⟨chat', -, he⟩ := map_eq_some_iff.mp hs
      cases he
      exact .calls rfl rfl rfl
    | connect node identity =>
      cases hs
      exact .connected
    | disconnect n =>
      simp only [gateway, gatewayEvent] at hs
      split at hs <;> cases hs
      exact .disconnected ‹_›
    | revoke node userId =>
      cases hs
      exact .revoked rfl rfl rfl
    | relay node k =>
      obtain ⟨request, -, -, -, rfl⟩ := relay_cases hs
      exact .revoked rfl rfl rfl
    | arrive n k =>
      simp only [gateway, gatewayEvent, GatewayState.arrive] at hs
      split at hs
      · split_ifs at hs with hroom
        cases hs
        exact .arrived ‹_› ‹_› hroom.1 hroom.2.2
      · cases hs

inductive SocketMove (maxRooms : ℕ) (w : GatewayWorld) (n : ℕ) (socket : Socket) :
    GatewayLabel → Socket → Prop
  | same {l : GatewayLabel} : SocketMove maxRooms w n socket l socket
  | joined {i : ℕ} {c : HandlerChoice} {packet : Packet}
    (hp : w.proc? i = some (.join packet .enter)) (hn : packet.socket = n)
    (hcount : packet.room ∈ socket.rooms ∨ joinedConversationCount socket < maxRooms) :
    SocketMove maxRooms w n socket (.step i c) (socket.join packet.room)
  | left {l : GatewayLabel} {packet : Packet} :
    SocketMove maxRooms w n socket l (socket.leave packet.room)
  | disconnected {l : GatewayLabel} : SocketMove maxRooms w n socket l socket.disconnect

variable {w w' : GatewayWorld} {l : GatewayLabel} {t : GatewayState} {n k : ℕ}
  {socket socket' : Socket}

theorem getElem?_setSocket {s : GatewayState} {m : ℕ} {new : Socket}
    (hm : s.sockets[m]? = some socket) :
    (s.setSocket m new).sockets[n]? = if m = n then some new else s.sockets[n]? := by
  obtain ⟨hlt, -⟩ := List.getElem?_eq_some_iff.mp hm
  rw [GatewayState.setSocket, List.getElem?_set]
  split_ifs <;> rfl

/-- **A socket stays the socket of its identity.** -/
theorem GatewayStep.kept (h : GatewayStep maxRooms w l t)
    (hn : w.shared.sockets[n]? = some socket) :
    ∃ socket', t.sockets[n]? = some socket' ∧ SocketMove maxRooms w n socket l socket' := by
  cases h with
  | calls hsockets _ _ => exact ⟨socket, hsockets ▸ hn, .same⟩
  | connected =>
    obtain ⟨hlt, -⟩ := List.getElem?_eq_some_iff.mp hn
    exact ⟨socket, (List.getElem?_append_left hlt).trans hn, .same⟩
  | @joined i c packet socket₁ hp hsocket hcount =>
    rw [getElem?_setSocket hsocket]
    split_ifs with he
    · obtain rfl := some.inj (hsocket.symm.trans (he ▸ hn))
      exact ⟨_, rfl, .joined hp he hcount⟩
    · exact ⟨socket, hn, .same⟩
  | @left _ packet socket₁ hsocket =>
    rw [getElem?_setSocket hsocket]
    split_ifs with he
    · obtain rfl := some.inj (hsocket.symm.trans (he ▸ hn))
      exact ⟨_, rfl, .left⟩
    · exact ⟨socket, hn, .same⟩
  | @disconnected _ m socket₁ hsocket =>
    rw [getElem?_setSocket hsocket]
    split_ifs with he
    · obtain rfl := some.inj (hsocket.symm.trans (he ▸ hn))
      exact ⟨_, rfl, .disconnected⟩
    · exact ⟨socket, hn, .same⟩
  | revoked hsockets _ _ =>
    rw [hsockets, GatewayState.disconnectSockets, List.getElem?_map, hn, Option.map_some]
    refine ⟨_, rfl, ?_⟩
    split_ifs
    · exact .disconnected
    · exact .same
  | emitted _ _ _ _ | arrived _ _ _ _ => exact ⟨socket, hn, .same⟩

theorem GatewayStep.socket_cases (h : GatewayStep maxRooms w l t)
    (hn : t.sockets[n]? = some socket') :
    (∃ node identity, socket' = { node, identity, rooms := [userRoom identity.userId] }) ∨
      ∃ socket, w.shared.sockets[n]? = some socket ∧ SocketMove maxRooms w n socket l socket' := by
  cases hold : w.shared.sockets[n]? with
  | some socket =>
    obtain ⟨socket₁, hsocket₁, hmove⟩ := h.kept hold
    obtain rfl := some.inj (hsocket₁.symm.trans hn)
    exact .inr ⟨socket, rfl, hmove⟩
  | none =>
    refine .inl ?_
    have hnone {m : ℕ} {new : Socket} (hm : (w.shared.setSocket m new).sockets[n]? = some socket') :
        False := by
      have hlength : (w.shared.setSocket m new).sockets.length ≤ n :=
        (List.length_set).trans_le (List.getElem?_eq_none_iff.mp hold)
      rw [List.getElem?_eq_none_iff.mpr hlength] at hm
      cases hm
    cases h with
    | calls hsockets _ _ =>
      rw [hsockets, hold] at hn
      cases hn
    | connected =>
      rw [List.getElem?_append_right (List.getElem?_eq_none_iff.mp hold)] at hn
      have hmem := List.mem_singleton.mp (List.mem_of_getElem? hn)
      exact ⟨_, _, hmem⟩
    | joined _ _ _ | left _ | disconnected _ => exact (hnone hn).elim
    | revoked hsockets _ _ =>
      rw [hsockets, GatewayState.disconnectSockets, List.getElem?_map, hold] at hn
      cases hn
    | emitted _ _ _ _ | arrived _ _ _ _ =>
      have hsome : w.shared.sockets[n]? = some socket' := hn
      rw [hold] at hsome
      cases hsome

theorem GatewayStep.broadcasts (h : GatewayStep maxRooms w l t) :
    t.broadcasts = w.shared.broadcasts ∨ ∃ i p packet broadcast, w.proc? i = some p ∧
      Handler.packet? p = some packet ∧ broadcast.room = packet.room ∧
      t.broadcasts = w.shared.broadcasts ++ [broadcast] ∧
      ∀ message, broadcast.message? = some message →
        ∃ input, p = .send packet input (.sending (.returned message false)) := by
  cases h with
  | calls _ hbroadcasts _ | revoked _ hbroadcasts _ => exact .inl hbroadcasts
  | connected | joined _ _ _ | left _ | disconnected _ | arrived _ _ _ _ => exact .inl rfl
  | emitted hp hpacket hroom hmessage => exact .inr ⟨_, _, _, _, hp, hpacket, hroom, rfl, hmessage⟩

theorem GatewayStep.broadcast (h : GatewayStep maxRooms w l t) {broadcast : Broadcast}
    (hk : w.shared.broadcasts[k]? = some broadcast) : t.broadcasts[k]? = some broadcast := by
  rcases h.broadcasts with hsame | ⟨_, _, _, _, -, -, -, hnew, -⟩
  · rw [hsame, hk]
  · obtain ⟨hlt, -⟩ := List.getElem?_eq_some_iff.mp hk
    rw [hnew, List.getElem?_append_left hlt, hk]

theorem GatewayStep.deliveries (h : GatewayStep maxRooms w l t) :
    t.deliveries = w.shared.deliveries ∨ ∃ n k socket broadcast, l = .env (.arrive n k) ∧
      w.shared.sockets[n]? = some socket ∧ w.shared.broadcasts[k]? = some broadcast ∧
      broadcast.room ∈ socket.rooms ∧ (n, k) ∉ w.shared.deliveries ∧
      t.deliveries = w.shared.deliveries ++ [(n, k)] := by
  cases h with
  | calls _ _ hdeliveries | revoked _ _ hdeliveries => exact .inl hdeliveries
  | connected | joined _ _ _ | left _ | disconnected _ | emitted _ _ _ _ => exact .inl rfl
  | arrived hsocket hbroadcast hroom hnew =>
    exact .inr ⟨_, _, _, _, rfl, hsocket, hbroadcast, hroom, hnew, rfl⟩

@[simp] theorem SocketMove.identity (h : SocketMove maxRooms w n socket l socket') :
    socket'.identity = socket.identity := by
  cases h with
  | same | left | disconnected => rfl
  | joined _ _ _ =>
    unfold Socket.join
    split_ifs <;> rfl

theorem SocketMove.node (h : SocketMove maxRooms w n socket l socket') :
    socket'.node = socket.node := by
  cases h with
  | same | left | disconnected => rfl
  | joined _ _ _ =>
    unfold Socket.join
    split_ifs <;> rfl

/-! ### The rooms of a socket -/

/-- The user of the socket is found among the participants, in the organization of the socket. -/
def Participates (n : ℕ) (conversationId : SchemaId) (w : GatewayWorld) : Prop :=
  ∃ socket row, w.shared.sockets[n]? = some socket ∧
    requireParticipant w.shared.chat conversationId.key (asKey socket.identity.userId)
      (socket.identity.organizationId.map asKey) = .ok row

/-- In this step the handler `i` finds the user of the socket among the participants. -/
structure Admits (i n : ℕ) (conversationId : SchemaId) (w : GatewayWorld) (l : GatewayLabel) :
    Prop where
  label : ∃ c, l = .step i c
  proc : ∃ packet : Packet, w.proc? i = some (.join packet .requireParticipant) ∧
    packet.socket = n ∧ packet.conversationId = conversationId
  participates : Participates n conversationId w

/-- In this step the socket is let in, by a handler that has admitted it. -/
def Enters (maxRooms : ℕ) (models : DataModel) (n : ℕ) (conversationId : SchemaId)
    (w : GatewayWorld) (l : GatewayLabel) : Prop :=
  ∃ i c packet, l = .step i c ∧ w.proc? i = some (.join packet .enter) ∧ packet.socket = n ∧
    packet.conversationId = conversationId ∧
    Happened (gateway maxRooms models).system (Admits i n conversationId) w

/-- The socket is in the room of the conversation. -/
def InRoom (n : ℕ) (conversationId : SchemaId) (w : GatewayWorld) : Prop :=
  ∃ socket, w.shared.sockets[n]? = some socket ∧
    conversationRoom socket.identity.organizationId conversationId.text ∈ socket.rooms

/-- The socket has been let into the room of the conversation, and has been there since. -/
def LetIn (maxRooms : ℕ) (models : DataModel) (w : GatewayWorld) (n : ℕ)
    (conversationId : SchemaId) : Prop :=
  Since (gateway maxRooms models).system (Enters maxRooms models n conversationId)
    (InRoom n conversationId) w

/-- The broadcast reaches the socket in this step, which has been let in and is in the room. -/
structure Receives (maxRooms : ℕ) (models : DataModel) (n k : ℕ) (conversationId : SchemaId)
    (w : GatewayWorld) (l : GatewayLabel) : Prop where
  label : l = .env (.arrive n k)
  letIn : LetIn maxRooms models w n conversationId

structure SocketOk (maxRooms : ℕ) (authorized : SchemaId → Prop) (socket : Socket) : Prop where
  rooms : ∀ room ∈ socket.rooms, room = userRoom socket.identity.userId ∨
    ∃ conversationId, room = conversationRoom socket.identity.organizationId conversationId.text ∧
      authorized conversationId
  bounded : joinedConversationCount socket ≤ maxRooms
  own : socket.connected = true → userRoom socket.identity.userId ∈ socket.rooms
  gone : socket.connected = false → socket.rooms = []

variable {authorized authorized' : SchemaId → Prop}

theorem SocketOk.mono (h : SocketOk maxRooms authorized socket)
    (hmono : ∀ conversationId : SchemaId,
      conversationRoom socket.identity.organizationId conversationId.text ∈ socket.rooms →
      authorized conversationId → authorized' conversationId) :
    SocketOk maxRooms authorized' socket := by
  refine ⟨fun room hroom => ?_, h.bounded, h.own, h.gone⟩
  rcases h.rooms room hroom with hown | ⟨conversationId, rfl, hauthorized⟩
  · exact .inl hown
  · exact .inr ⟨conversationId, rfl, hmono _ hroom hauthorized⟩

theorem SocketOk.connected (node : ℕ) (identity : SocketIdentity) : SocketOk maxRooms authorized
    { node, identity, rooms := [userRoom identity.userId] } where
  rooms _ hroom := .inl (List.mem_singleton.mp hroom)
  bounded := by
    have hnil : [userRoom identity.userId].filter (":conversation:".toList <:+: ·) = [] := by
      refine List.filter_eq_nil_iff.mpr fun room hroom h => ?_
      rw [List.mem_singleton.mp hroom] at h
      exact not_infix_userRoom identity.userId (of_decide_eq_true h)
    exact (congrArg List.length hnil).le.trans (Nat.zero_le _)
  own _ := List.mem_singleton.mpr rfl
  gone h := by cases h

theorem SocketOk.disconnected : SocketOk maxRooms authorized socket.disconnect where
  rooms _ hroom := by cases hroom
  bounded := Nat.zero_le _
  own h := by cases h
  gone _ := rfl

theorem SocketOk.left (h : SocketOk maxRooms authorized socket) (organizationId : Option Id)
    (conversationId : Text) :
    SocketOk maxRooms authorized (socket.leave (conversationRoom organizationId conversationId)) where
  rooms room hroom := h.rooms room (List.mem_of_mem_filter hroom)
  bounded := (List.filter_sublist.filter _).length_le.trans h.bounded
  own hconnected := by
    refine List.mem_filter.mpr ⟨h.own hconnected, decide_eq_true ?_⟩
    exact userRoom_ne _ _ _
  gone hconnected := by
    show socket.rooms.filter _ = []
    rw [h.gone hconnected]
    rfl

theorem SocketOk.joined (h : SocketOk maxRooms authorized socket) {conversationId : SchemaId}
    (hauthorized : authorized conversationId)
    (hcount : conversationRoom socket.identity.organizationId conversationId.text ∈ socket.rooms ∨
      joinedConversationCount socket < maxRooms) :
    SocketOk maxRooms authorized
      (socket.join (conversationRoom socket.identity.organizationId conversationId.text)) := by
  unfold Socket.join
  split_ifs with hjoin
  · obtain ⟨hconnected, hnew⟩ := hjoin
    refine ⟨fun room hroom => ?_, ?_, fun _ => List.mem_append_left _ (h.own hconnected),
      fun hgone => ?_⟩
    · rcases List.mem_append.mp hroom with hroom | hroom
      · exact h.rooms room hroom
      · exact .inr ⟨conversationId, List.mem_singleton.mp hroom, hauthorized⟩
    · have hlt := hcount.resolve_left hnew
      unfold joinedConversationCount at hlt ⊢
      dsimp only
      rw [List.filter_append, List.length_append]
      refine (Nat.add_le_add_left (List.length_filter_le _ _) _).trans ?_
      exact hlt
    · rw [hconnected] at hgone
      cases hgone
  · exact h

/-! ### What holds of the rooms in every run -/

/-- **The rooms, the handlers and what has arrived.** -/
structure RoomsOk (maxRooms : ℕ) (models : DataModel) (w : GatewayWorld) : Prop where
  packets : ∀ i p packet, w.proc? i = some p → Handler.packet? p = some packet →
    ∃ socket, w.shared.sockets[packet.socket]? = some socket ∧ socket.identity = packet.identity
  entering : ∀ i packet, w.proc? i = some (.join packet .enter) →
    Happened (gateway maxRooms models).system (Admits i packet.socket packet.conversationId) w
  sockets : ∀ n socket, w.shared.sockets[n]? = some socket →
    SocketOk maxRooms (LetIn maxRooms models w n) socket
  broadcasts : ∀ broadcast ∈ w.shared.broadcasts, ∃ packet : Packet, broadcast.room = packet.room
  deliveries : ∀ n k, (n, k) ∈ w.shared.deliveries → ∃ socket broadcast conversationId,
    w.shared.sockets[n]? = some socket ∧ w.shared.broadcasts[k]? = some broadcast ∧
      broadcast.room = conversationRoom socket.identity.organizationId conversationId.text ∧
      Happened (gateway maxRooms models).system (Receives maxRooms models n k conversationId) w

theorem HandlerMove.packet? {s : GatewayState} (h : HandlerMove maxRooms models s i p t q) :
    Handler.packet? q = Handler.packet? p := by
  cases h with
  | waited hpacket _ _ _ => exact hpacket
  | authorized _ | joined _ _ | left _ | sent | repeated => rfl
  | called hpacket _ _ _ _ _ => exact hpacket
  | told hp hq _ _ _ _ _ => exact hq.trans hp.symm

theorem RoomsOk.packets_next {l : GatewayLabel} (h : RoomsOk maxRooms models w)
    (hn : (gateway maxRooms models).next w l = some w') {p : Handler} (hp : w'.proc? i = some p)
    (hpacket : Handler.packet? p = some packet) :
    ∃ socket, w'.shared.sockets[packet.socket]? = some socket ∧
      socket.identity = packet.identity := by
  have hkept {i : ℕ} {q : Handler} (hq : w.proc? i = some q)
      (hpacket : Handler.packet? q = some packet) : ∃ socket,
        w'.shared.sockets[packet.socket]? = some socket ∧ socket.identity = packet.identity := by
    obtain ⟨socket, hsocket, hidentity⟩ := h.packets i q packet hq hpacket
    obtain ⟨socket', hsocket', hmove⟩ := (gatewayStep hn).kept hsocket
    exact ⟨socket', hsocket', hmove.identity.trans hidentity⟩
  cases Program.move_of_next hn with
  | @spawn a s q hs =>
    rcases World.proc?_add_cases hp with ⟨-, rfl⟩ | ⟨-, hold⟩
    · cases a with
      | packet n conversationId event =>
        simp only [gateway, startHandler] at hs
        split at hs
        · cases hs
        · rename_i socket hsocket
          split_ifs at hs
          cases hs
          have hpacket' : packet = ⟨n, socket.identity, conversationId⟩ := by
            cases event <;> exact (some.inj hpacket).symm
          subst hpacket'
          exact ⟨socket, hsocket, rfl⟩
      | rest start =>
        obtain ⟨r, -, he⟩ := map_eq_some_iff.mp hs
        cases he
        cases hpacket
    · exact hkept hold hpacket
  | step hq hs =>
    rcases World.proc?_put_cases hq hp with ⟨-, rfl⟩ | ⟨-, hold⟩
    · exact hkept hq ((handlerMove_of_step hs).packet?.symm.trans hpacket)
    · exact hkept hold hpacket
  | crash _ => exact hkept (World.proc?_kill_cases hp).2 hpacket
  | env _ => exact hkept hp hpacket

/-- A handler that may join a room has found the user among the participants. -/
theorem RoomsOk.entering_next {l : GatewayLabel} (h : RoomsOk maxRooms models w)
    (hw : Reachable (gateway maxRooms models).system w)
    (hn : (gateway maxRooms models).next w l = some w')
    (hp : w'.proc? i = some (.join packet .enter)) :
    Happened (gateway maxRooms models).system (Admits i packet.socket packet.conversationId) w' := by
  have hold (hp : w.proc? i = some (.join packet .enter)) :
      Happened (gateway maxRooms models).system
        (Admits i packet.socket packet.conversationId) w' :=
    Happened.next (h.entering i packet hp) hn
  cases Program.move_of_next hn with
  | @spawn a s q hs =>
    rcases World.proc?_add_cases hp with ⟨-, rfl⟩ | ⟨-, hp⟩
    · cases a with
      | packet n conversationId event =>
        simp only [gateway, startHandler] at hs
        split at hs
        · cases hs
        · split_ifs at hs
          cases event <;> cases hs
      | rest start =>
        obtain ⟨r, -, he⟩ := map_eq_some_iff.mp hs
        cases he
    · exact hold hp
  | @step j c p p' s hq hs =>
    rcases World.proc?_put_cases hq hp with ⟨rfl, hp'⟩ | ⟨-, hp⟩
    · have hmove := handlerMove_of_step hs
      rw [← hp'] at hmove
      cases hmove with
      | waited _ _ henter _ => exact absurd trivial henter
      | called _ _ _ _ henter _ => exact absurd trivial henter
      | told _ _ _ _ _ henter _ => exact absurd trivial henter
      | @authorized _ row hrow =>
        obtain ⟨socket, hsocket, hidentity⟩ := h.packets _ _ packet hq rfl
        refine .now hw ⟨⟨c, rfl⟩, ⟨packet, hq, rfl, rfl⟩, socket, row, hsocket, ?_⟩ hn
        rw [hidentity]
        exact hrow
    · exact hold hp
  | crash _ => exact hold (World.proc?_kill_cases hp).2
  | env _ => exact hold hp

/-- **A step of the gateway keeps the rooms.** -/
theorem RoomsOk.sockets_next {l : GatewayLabel} (h : RoomsOk maxRooms models w)
    (hw : Reachable (gateway maxRooms models).system w)
    (hn : (gateway maxRooms models).next w l = some w')
    (hsocket : w'.shared.sockets[n]? = some socket') :
    SocketOk maxRooms (LetIn maxRooms models w' n) socket' := by
  -- The socket was let into its rooms before, or is in this step.
  suffices hok : SocketOk maxRooms (fun conversationId => LetIn maxRooms models w n conversationId ∨
      Enters maxRooms models n conversationId w l) socket' by
    refine hok.mono fun conversationId hroom hlet => ?_
    have hin : InRoom n conversationId w' := ⟨socket', hsocket, hroom⟩
    rcases hlet with hlet | henters
    · exact Since.next hlet hn hin
    · exact Since.now hw henters hn hin
  rcases (gatewayStep hn).socket_cases hsocket with ⟨node, identity, rfl⟩ | ⟨socket, hold, hmove⟩
  · exact .connected node identity
  · have hok : SocketOk maxRooms (fun conversationId => LetIn maxRooms models w n conversationId ∨
        Enters maxRooms models n conversationId w l) socket :=
      (h.sockets n socket hold).mono fun _ _ hlet => .inl hlet
    cases hmove with
    | same => exact hok
    | @joined i c packet hp hpn hcount =>
      subst hpn
      obtain ⟨socket₁, hsocket₁, hidentity⟩ := h.packets i _ packet hp rfl
      obtain rfl := some.inj (hsocket₁.symm.trans hold)
      have henters : Enters maxRooms models packet.socket packet.conversationId w (.step i c) :=
        ⟨i, c, packet, rfl, hp, rfl, rfl, h.entering i packet hp⟩
      have hroom : packet.room =
          conversationRoom socket₁.identity.organizationId packet.conversationId.text := by
        rw [hidentity]
        rfl
      rw [hroom] at hcount ⊢
      exact hok.joined (.inr henters) hcount
    | left => exact hok.left _ _
    | disconnected => exact .disconnected

theorem RoomsOk.arrived (h : RoomsOk maxRooms models w) {broadcast : Broadcast}
    (hsocket : w.shared.sockets[n]? = some socket)
    (hbroadcast : w.shared.broadcasts[k]? = some broadcast) (hroom : broadcast.room ∈ socket.rooms) :
    ∃ conversationId : SchemaId,
      broadcast.room = conversationRoom socket.identity.organizationId conversationId.text ∧
        LetIn maxRooms models w n conversationId := by
  obtain ⟨packet, hpacket⟩ := h.broadcasts broadcast (List.mem_of_getElem? hbroadcast)
  refine ((h.sockets n socket hsocket).rooms _ hroom).resolve_left fun hown => ?_
  exact userRoom_ne _ _ _ (hown.symm.trans hpacket)

theorem RoomsOk.next {l : GatewayLabel} (h : RoomsOk maxRooms models w)
    (hw : Reachable (gateway maxRooms models).system w)
    (hn : (gateway maxRooms models).next w l = some w') : RoomsOk maxRooms models w' := by
  have hstep := gatewayStep hn
  have hdelivered {n k : ℕ} {socket : Socket} {broadcast : Broadcast} {conversationId : SchemaId}
      (hsocket : w.shared.sockets[n]? = some socket)
      (hbroadcast : w.shared.broadcasts[k]? = some broadcast)
      (hroom : broadcast.room = conversationRoom socket.identity.organizationId conversationId.text)
      (hreceives : Happened (gateway maxRooms models).system
        (Receives maxRooms models n k conversationId) w') : ∃ socket broadcast conversationId,
      w'.shared.sockets[n]? = some socket ∧ w'.shared.broadcasts[k]? = some broadcast ∧
        broadcast.room = conversationRoom socket.identity.organizationId conversationId.text ∧
        Happened (gateway maxRooms models).system
          (Receives maxRooms models n k conversationId) w' := by
    obtain ⟨socket', hsocket', hmove⟩ := hstep.kept hsocket
    refine ⟨socket', broadcast, conversationId, hsocket', hstep.broadcast hbroadcast, ?_, hreceives⟩
    rw [hmove.identity]
    exact hroom
  refine ⟨fun i p packet hp => h.packets_next hn hp, fun i packet hp => h.entering_next hw hn hp,
    fun n socket hsocket => h.sockets_next hw hn hsocket, fun broadcast hb => ?_, fun n k hd => ?_⟩
  · rcases hstep.broadcasts with hsame | ⟨_, _, packet, new, -, -, hroom, hnew, -⟩
    · exact h.broadcasts broadcast (hsame ▸ hb)
    · rw [hnew] at hb
      rcases List.mem_append.mp hb with hb | hb
      · exact h.broadcasts broadcast hb
      · obtain rfl := List.mem_singleton.mp hb
        exact ⟨packet, hroom⟩
  · have hold (hd : (n, k) ∈ w.shared.deliveries) := h.deliveries n k hd
    rcases hstep.deliveries with hsame |
      ⟨m, j, socket, broadcast, hl, hsocket, hbroadcast, hroom, -, hnew⟩
    · obtain ⟨socket, broadcast, conversationId, hsocket, hbroadcast, hroom, hreceives⟩ :=
        hold (hsame ▸ hd)
      exact hdelivered hsocket hbroadcast hroom (Happened.next hreceives hn)
    · rw [hnew] at hd
      rcases List.mem_append.mp hd with hd | hd
      · obtain ⟨socket, broadcast, conversationId, hsocket, hbroadcast, hroom, hreceives⟩ := hold hd
        exact hdelivered hsocket hbroadcast hroom (Happened.next hreceives hn)
      · cases List.mem_singleton.mp hd
        obtain ⟨conversationId, hname, hlet⟩ := h.arrived hsocket hbroadcast hroom
        exact hdelivered hsocket hbroadcast hname (Happened.now hw ⟨hl, hlet⟩ hn)

/-- **What holds of the rooms in every run.** -/
theorem roomsOk (h : Reachable (gateway maxRooms models).system w) : RoomsOk maxRooms models w := by
  refine h.invariant' (I := RoomsOk maxRooms models) (fun w hw => ?_)
    (fun w w' l hw hok _ hn => hok.next hw hn)
  obtain rfl : w = ⟨{}, []⟩ := hw
  refine ⟨fun i p packet hp => ?_, fun i packet hp => ?_, fun n socket h => ?_, fun b hb => ?_,
    fun n k hd => ?_⟩
  · cases World.proc?_empty.symm.trans hp
  · cases World.proc?_empty.symm.trans hp
  · cases h
  · cases hb
  · cases hd

end BackendFoundation.Chat.Rooms
