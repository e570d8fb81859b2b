import BackendFoundation.Chat.Rooms

/-! # The broadcasts of the chat

A message is broadcast by the call that inserted it, after the commit, and by no other; a retry is
answered with the stored message and broadcasts nothing. So a socket receives a message once
(`received_once`), whatever its sender repeats, and only of conversations that it was let into
(`rooms_authorized`). After a notice of a revocation the sockets of the user receive nothing more, at
the node of the notice at once and at another one when the request of the first has reached it
(`revoked_silent`), also where a handler of theirs is still on its way. -/

namespace BackendFoundation.Chat.Broadcasts

open Errors Lib Lib.Runs Lib.Interleave Lib.Hosting Tenancy.TenantScope Chat.Model Chat.Sequence
open Chat.Sockets Chat.Rooms
open Chat.Gateway (SocketIdentity exampleClaims exampleOrganization)
open Option (some.inj map_eq_some_iff)

/-! ### The organization of a message -/

/-- The message of a statement is of the organization of its call. -/
def Owned (s : ChatState) : Prop :=
  ∀ i call message, s.statements i = some ⟨call, .locked message⟩ ∨
    s.statements i = some ⟨call, .committed (some message)⟩ →
    message.organizationId = call.organizationId

variable {s s' : ChatState}

variable {i : ℕ}

/-- A statement goes on to a phase whose message is of the organization of its call. -/
theorem Owned.set (h : Owned s) {call : SendCall} {phase : StatementPhase}
    (hphase : ∀ message, phase = .locked message ∨ phase = .committed (some message) →
      message.organizationId = call.organizationId)
    (hs : s'.statements = s.statements.set i ⟨call, phase⟩) : Owned s' := by
  intro j call' message hj
  rw [hs] at hj
  by_cases he : j = i
  · rw [he, Table.set_self] at hj
    refine hj.elim (fun hj => ?_) (fun hj => ?_)
    · cases hj
      exact hphase message (.inl rfl)
    · cases hj
      exact hphase message (.inr rfl)
  · rw [Table.set_of_ne he] at hj
    exact h j call' message hj

theorem Owned.step {l : ChatLabel} (h : Owned s) (hstep : TableStep s l s') : Owned s' := by
  cases hstep with
  | same _ _ _ _ hstatements | conversation _ _ _ _ _ _ _ hstatements =>
    intro i call message
    rw [hstatements]
    exact h i call message
  | submitted i call _ _ hs =>
    subst hs
    exact h.set (fun message hphase => by rcases hphase with hphase | hphase <;> cases hphase) rfl
  | refused i call phase _ hphase hs =>
    subst hs
    refine h.set (fun message he => ?_) rfl
    cases hphase <;> rcases he with he | he <;> cases he
  | locked i call c _ _ howner _ _ hs =>
    subst hs
    refine h.set (fun message hphase => ?_) rfl
    rcases hphase with hphase | hphase <;> cases hphase
    exact howner
  | committed i call message c _ hold _ hs =>
    subst hs
    refine h.set (fun message' hphase => ?_) rfl
    rcases hphase with hphase | hphase <;> cases hphase
    exact h i call message (.inl hold)
  | aborted i call message e _ hs =>
    subst hs
    exact h.set (fun message hphase => by rcases hphase with hphase | hphase <;> cases hphase) rfl
  | tombstoned _ _ hs =>
    subst hs
    exact h

variable {maxRooms : ℕ} {models : DataModel} {w w' : GatewayWorld}

theorem owned (h : Reachable (gateway maxRooms models).system w) : Owned w.shared.chat := by
  have hchat := chat_reachable h
  refine hchat.invariant' (I := fun w => Owned w.shared) (fun w hw => ?_)
    (fun w w' l hw hok _ hn => hok.step (tableStep hw hn))
  obtain rfl : w = ⟨{}, []⟩ := hw
  intro i call message hi
  rcases hi with hi | hi <;> cases hi

variable {packet : Packet} {input : SendMessageInput} {message : Message}

/-- **What a send returns** that is no duplicate: the message that it has inserted. -/
theorem returned_message (h : Reachable (gateway maxRooms models).system w)
    (hp : w.proc? i = some (.send packet input (.sending (.returned message false)))) :
    message.id = i ∧ message.conversationId = packet.conversationId.key ∧
      message.organizationId = packet.organizationId ∧
      ∃ stored ∈ w.shared.chat.messages, Same message stored := by
  have hok := (holds (chat_reachable h)).1
  have hsend : SendOk w.shared.chat i (packet.sendCall input) (.returned message false) :=
    hok.proc i _ (inner_proc?_of_some hp rfl)
  obtain ⟨⟨c, hc⟩, hstored⟩ := hok.shared.inserted i _ message hsend
  have howned := owned h i _ message (.inr hsend)
  subst hc
  exact ⟨rfl, rfl, howned, hstored⟩

/-! ### The broadcasts -/

def Announced (w : GatewayWorld) (k : ℕ) (message : Message) : Prop :=
  ∃ broadcast, w.shared.broadcasts[k]? = some broadcast ∧ broadcast.message? = some message

/-- **The broadcasts of the messages.** -/
structure BroadcastsOk (w : GatewayWorld) : Prop where
  /-- A message goes to the room of its conversation, and is stored. -/
  told : ∀ broadcast ∈ w.shared.broadcasts, ∃ packet : Packet, broadcast.room = packet.room ∧
    ∀ message, broadcast.message? = some message →
      message.conversationId = packet.conversationId.key ∧
      message.organizationId = packet.organizationId ∧
      ∃ stored ∈ w.shared.chat.messages, Same message stored
  /-- A handler that has not acknowledged a send has broadcast no message. -/
  unsent : ∀ i p k message, w.proc? i = some p → ¬ Acked p → Announced w k message → message.id ≠ i
  known : ∀ k message, Announced w k message → message.id < w.fresh
  unique : ∀ k k' message message', Announced w k message → Announced w k' message' →
    message.id = message'.id → k = k'
  acked : ∀ i packet input message, w.proc? i = some (.send packet input (.acked message false)) →
    { room := packet.room, event := .message message } ∈ w.shared.broadcasts
  deliveries : w.shared.deliveries.Nodup

theorem not_acked_of_step {s t : GatewayState} {p q : Handler} {c : HandlerChoice}
    (h : handlerStep maxRooms models s i p c = some (t, q)) : ¬ Acked p := by
  cases p with
  | send packet input pc =>
    cases pc with
    | acked _ _ => cases h
    | eventLimit | sendLimit | sending _ | refused => exact id
  | join _ _ | leave _ _ | markRead _ _ _ | typing _ _ _ | rest _ => exact id

variable {l : GatewayLabel}

theorem chat_message (h : Reachable (gateway maxRooms models).system w)
    (hn : (gateway maxRooms models).next w l = some w') (hm : message ∈ w.shared.chat.messages) :
    ∃ message' ∈ w'.shared.chat.messages, Same message message' := by
  refine (hosts.path_next hn).relation (R := fun v v' => ∀ message ∈ v.shared.messages,
    ∃ message' ∈ v'.shared.messages, Same message message') (fun v m hm => ⟨m, hm, .refl m⟩)
    (fun u v v' huv hvv m hm => ?_) (fun v v' a hv _ hn m hm => (tableStep hv hn).message hm)
    (chat_reachable h) message hm
  obtain ⟨m', hm', hsame⟩ := huv m hm
  obtain ⟨m'', hm'', hsame'⟩ := hvv m' hm'
  exact ⟨m'', hm'', hsame.trans hsame'⟩

theorem startHandler_broadcasts {s t : GatewayState} {a : GatewayStart} {p : Handler}
    (h : startHandler s i a = some (t, p)) : t.broadcasts = s.broadcasts ∧ ¬ Acked p := by
  cases a with
  | packet n conversationId event =>
    simp only [startHandler] at h
    split at h
    · cases h
    · split_ifs at h
      cases h
      cases event <;> exact ⟨rfl, id⟩
  | rest start =>
    obtain ⟨r, -, he⟩ := map_eq_some_iff.mp h
    cases he
    exact ⟨rfl, id⟩

theorem gatewayEvent_broadcasts {s t : GatewayState} {e : GatewayEvent}
    (h : gatewayEvent s e = some t) : t.broadcasts = s.broadcasts := by
  cases e with
  | chat event =>
    obtain ⟨chat', -, rfl⟩ := map_eq_some_iff.mp h
    rfl
  | connect _ _ | revoke _ _ =>
    cases h
    rfl
  | relay node k =>
    obtain ⟨request, -, -, -, rfl⟩ := relay_cases h
    rfl
  | disconnect n =>
    simp only [gatewayEvent] at h
    split at h <;> cases h
    rfl
  | arrive n k =>
    simp only [gatewayEvent, GatewayState.arrive] at h
    split at h
    · split_ifs at h
      cases h
      rfl
    · cases h

/-- A message that is broadcast was so before, or is that of the send that takes the step. -/
theorem announced_next (hn : (gateway maxRooms models).next w l = some w') {k : ℕ}
    (h : Announced w' k message) : Announced w k message ∨
      (k = w.shared.broadcasts.length ∧ ∃ i packet input,
        w.proc? i = some (.send packet input (.sending (.returned message false))) ∧
        w'.proc? i = some (.send packet input (.acked message false))) := by
  obtain ⟨broadcast, hk, hmessage⟩ := h
  cases Program.move_of_next hn with
  | spawn hs => exact .inl ⟨broadcast, (startHandler_broadcasts hs).1 ▸ hk, hmessage⟩
  | crash _ => exact .inl ⟨broadcast, hk, hmessage⟩
  | env hs => exact .inl ⟨broadcast, gatewayEvent_broadcasts hs ▸ hk, hmessage⟩
  | @step i c p p' t hp hs =>
    have hemit {new : Broadcast} (hk : (w.shared.broadcasts ++ [new])[k]? = some broadcast) :
        w.shared.broadcasts[k]? = some broadcast ∨
          (k = w.shared.broadcasts.length ∧ broadcast = new) := by
      rcases Nat.lt_trichotomy k w.shared.broadcasts.length with hlt | rfl | hgt
      · exact .inl ((List.getElem?_append_left hlt).symm.trans hk)
      · rw [List.getElem?_concat_length] at hk
        exact .inr ⟨rfl, (some.inj hk).symm⟩
      · rw [List.getElem?_eq_none (by rw [List.length_append]; exact hgt)] at hk
        cases hk
    cases handlerMove_of_step hs with
    | waited _ _ _ _ | authorized _ | joined _ _ | left _ | called _ _ _ _ _ _ | repeated =>
      exact .inl ⟨broadcast, hk, hmessage⟩
    | sent =>
      rcases hemit hk with hold | ⟨hlast, rfl⟩
      · exact .inl ⟨broadcast, hold, hmessage⟩
      · cases hmessage
        exact .inr ⟨hlast, i, _, _, hp, World.proc?_put_self hp⟩
    | told _ _ _ _ hnone _ _ =>
      rcases hemit hk with hold | ⟨-, rfl⟩
      · exact .inl ⟨broadcast, hold, hmessage⟩
      · rw [hnone] at hmessage
        cases hmessage

theorem BroadcastsOk.new (h : BroadcastsOk w) (hw : Reachable (gateway maxRooms models).system w)
    {i k : ℕ} {message message' : Message}
    (hp : w.proc? i = some (.send packet input (.sending (.returned message false))))
    (hk : Announced w k message') : message'.id ≠ message.id := by
  rw [(returned_message hw hp).1]
  exact h.unsent i _ k message' hp id hk

theorem BroadcastsOk.unique_next (h : BroadcastsOk w)
    (hw : Reachable (gateway maxRooms models).system w)
    (hn : (gateway maxRooms models).next w l = some w') {k k' : ℕ} {message message' : Message}
    (hk : Announced w' k message) (hk' : Announced w' k' message')
    (hid : message.id = message'.id) : k = k' := by
  rcases announced_next hn hk with hold | ⟨hlast, i, packet, input, hp, -⟩ <;>
    rcases announced_next hn hk' with hold' | ⟨hlast', i', packet', input', hp', -⟩
  · exact h.unique k k' message message' hold hold' hid
  · exact absurd hid (h.new hw hp' hold)
  · exact absurd hid.symm (h.new hw hp hold')
  · rw [hlast, hlast']

theorem BroadcastsOk.known_next (h : BroadcastsOk w)
    (hw : Reachable (gateway maxRooms models).system w)
    (hn : (gateway maxRooms models).next w l = some w') {k : ℕ} (hk : Announced w' k message) :
    message.id < w'.fresh := by
  refine Nat.lt_of_lt_of_le ?_ (fresh_le_of_next hn)
  rcases announced_next hn hk with hold | ⟨-, i, packet, input, hp, -⟩
  · exact h.known k message hold
  · rw [(returned_message hw hp).1]
    exact World.lt_fresh hp

theorem BroadcastsOk.unsent_next (h : BroadcastsOk w)
    (hw : Reachable (gateway maxRooms models).system w)
    (hn : (gateway maxRooms models).next w l = some w') {i k : ℕ} {p : Handler}
    (hp : w'.proc? i = some p) (hacked : ¬ Acked p) (hk : Announced w' k message) :
    message.id ≠ i := by
  rcases announced_next hn hk with hold | ⟨-, j, packet, input, hj, hj'⟩
  · cases Program.move_of_next hn with
    | spawn hs =>
      rcases World.proc?_add_cases hp with ⟨rfl, rfl⟩ | ⟨-, hp⟩
      · exact (h.known k message hold).ne
      · exact h.unsent i p k message hp hacked hold
    | step hq hs =>
      rcases World.proc?_put_cases hq hp with ⟨rfl, rfl⟩ | ⟨-, hp⟩
      · exact h.unsent i _ k message hq (not_acked_of_step hs) hold
      · exact h.unsent i p k message hp hacked hold
    | crash _ => exact h.unsent i p k message (World.proc?_kill_cases hp).2 hacked hold
    | env _ => exact h.unsent i p k message hp hacked hold
  · rintro rfl
    obtain ⟨hid, -⟩ := returned_message hw hj
    rw [hid] at hp
    obtain rfl := some.inj (hp.symm.trans hj')
    exact hacked trivial

theorem BroadcastsOk.acked_next (h : BroadcastsOk w)
    (hn : (gateway maxRooms models).next w l = some w')
    (hp : w'.proc? i = some (.send packet input (.acked message false))) :
    { room := packet.room, event := .message message } ∈ w'.shared.broadcasts := by
  have hkept {j : ℕ} (hq : w.proc? j = some (.send packet input (.acked message false))) :
      { room := packet.room, event := .message message } ∈ w'.shared.broadcasts := by
    obtain ⟨k, hk⟩ := List.mem_iff_getElem?.mp (h.acked j packet input message hq)
    exact List.mem_of_getElem? ((gatewayStep hn).broadcast hk)
  cases Program.move_of_next hn with
  | spawn hs =>
    rcases World.proc?_add_cases hp with ⟨-, rfl⟩ | ⟨-, hp⟩
    · exact absurd trivial (startHandler_broadcasts hs).2
    · exact hkept hp
  | step hq hs =>
    rcases World.proc?_put_cases hq hp with ⟨-, hp'⟩ | ⟨-, hp⟩
    · have hmove := handlerMove_of_step hs
      rw [← hp'] at hmove
      cases hmove with
      | waited _ _ _ hacked => exact absurd trivial hacked
      | called _ _ _ _ _ hacked => exact absurd trivial hacked
      | told _ _ _ _ _ _ hacked => exact absurd trivial hacked
      | sent => exact List.mem_append_right _ List.mem_cons_self
    · exact hkept hp
  | crash _ => exact hkept (World.proc?_kill_cases hp).2
  | env _ => exact hkept hp

theorem BroadcastsOk.told_next (h : BroadcastsOk w)
    (hw : Reachable (gateway maxRooms models).system w)
    (hn : (gateway maxRooms models).next w l = some w') {broadcast : Broadcast}
    (hb : broadcast ∈ w'.shared.broadcasts) : ∃ packet : Packet, broadcast.room = packet.room ∧
      ∀ message, broadcast.message? = some message →
        message.conversationId = packet.conversationId.key ∧
        message.organizationId = packet.organizationId ∧
        ∃ stored ∈ w'.shared.chat.messages, Same message stored := by
  have hstored {message : Message} (h : ∃ stored ∈ w.shared.chat.messages, Same message stored) :
      ∃ stored ∈ w'.shared.chat.messages, Same message stored := by
    obtain ⟨stored, hmem, hsame⟩ := h
    obtain ⟨stored', hmem', hsame'⟩ := chat_message hw hn hmem
    exact ⟨stored', hmem', hsame.trans hsame'⟩
  have hold (hb : broadcast ∈ w.shared.broadcasts) : ∃ packet : Packet,
      broadcast.room = packet.room ∧ ∀ message, broadcast.message? = some message →
        message.conversationId = packet.conversationId.key ∧
        message.organizationId = packet.organizationId ∧
        ∃ stored ∈ w'.shared.chat.messages, Same message stored := by
    obtain ⟨packet, hroom, htold⟩ := h.told broadcast hb
    refine ⟨packet, hroom, fun message hmessage => ?_⟩
    obtain ⟨hconversation, horganization, hsame⟩ := htold message hmessage
    exact ⟨hconversation, horganization, hstored hsame⟩
  rcases (gatewayStep hn).broadcasts with hsame | ⟨i, p, packet, new, hp, -, hroom, hnew, hsent⟩
  · exact hold (hsame ▸ hb)
  · rw [hnew] at hb
    rcases List.mem_append.mp hb with hb | hb
    · exact hold hb
    · obtain rfl := List.mem_singleton.mp hb
      refine ⟨packet, hroom, fun message hmessage => ?_⟩
      obtain ⟨input, rfl⟩ := hsent message hmessage
      obtain ⟨-, hconversation, horganization, hsame⟩ := returned_message hw hp
      exact ⟨hconversation, horganization, hstored hsame⟩

theorem BroadcastsOk.next (h : BroadcastsOk w) (hw : Reachable (gateway maxRooms models).system w)
    (hn : (gateway maxRooms models).next w l = some w') : BroadcastsOk w' where
  told _ hb := h.told_next hw hn hb
  unsent _ _ _ _ hp hacked hk := h.unsent_next hw hn hp hacked hk
  known _ _ hk := h.known_next hw hn hk
  unique _ _ _ _ hk hk' hid := h.unique_next hw hn hk hk' hid
  acked _ _ _ _ hp := h.acked_next hn hp
  deliveries := by
    rcases (gatewayStep hn).deliveries with hsame | ⟨n, k, _, _, -, -, -, -, hnot, hnew⟩
    · rw [hsame]
      exact h.deliveries
    · rw [hnew, List.nodup_append]
      refine ⟨h.deliveries, List.nodup_singleton _, fun d hd d' hd' => ?_⟩
      rw [List.mem_singleton.mp hd']
      rintro rfl
      exact hnot hd

/-- **What holds of the broadcasts in every run.** -/
theorem broadcastsOk (h : Reachable (gateway maxRooms models).system w) : BroadcastsOk w := by
  refine h.invariant' (I := BroadcastsOk) (fun w hw => ?_) (fun w w' l hw hok _ hn => hok.next hw hn)
  obtain rfl : w = ⟨{}, []⟩ := hw
  have hnone {k : ℕ} {message : Message} : ¬ Announced ⟨{}, []⟩ k message := by
    rintro ⟨broadcast, hk, -⟩
    cases hk
  refine ⟨fun b hb => ?_, fun i p k message hp => ?_, fun k message hk => (hnone hk).elim,
    fun k k' message message' hk => (hnone hk).elim, fun i packet input message hp => ?_,
    List.nodup_nil⟩
  · cases hb
  · cases World.proc?_empty.symm.trans hp
  · cases World.proc?_empty.symm.trans hp

/-! ### What a socket receives -/

def exampleIdentity : SocketIdentity :=
  ⟨exampleClaims.userId, exampleClaims.sessionId, some exampleOrganization⟩

def exampleConversation : SchemaId := ⟨"00000000-0000-7000-8000-000000000004".toList, by decide⟩

def exampleInput : SendMessageInput := { clientMessageId := "message1", body := some "hi" }

/-- A user joins the room of a conversation on two sockets, and sends a message twice on one. -/
def exampleChat : List GatewayLabel :=
  [.env (.connect 0 exampleIdentity), .env (.connect 1 exampleIdentity),
    .env (.chat (.createConversation exampleConversation.key (some (asKey exampleOrganization))
      [asKey exampleClaims.userId])),
    .spawn (.packet 0 exampleConversation .join), .step 0 {}, .step 0 {}, .step 0 {},
    .spawn (.packet 1 exampleConversation .join), .step 1 {}, .step 1 {}, .step 1 {},
    .spawn (.packet 0 exampleConversation (.send exampleInput)), .step 2 {}, .step 2 {}, .step 2 {},
    .step 2 {}, .env (.chat (.acquire 2)), .env (.chat (.commit 2)), .step 2 {}, .step 2 {},
    .spawn (.packet 0 exampleConversation (.send exampleInput)), .step 3 {}, .step 3 {}, .step 3 {},
    .step 3 {}, .env (.chat (.acquire 3)), .step 3 {}, .step 3 {}, .step 3 {}, .env (.arrive 1 0)]

/-- **Each message reaches a socket once.** No two broadcasts that a socket has received are of one
message, and no two messages that it has received in a conversation have one number or one client's id,
so that a sender may repeat a send. A send that is acknowledged, and not as a duplicate, is
broadcast. -/
theorem received_once (h : Reachable (gateway maxRooms models).system w) :
    (∀ n, (w.shared.received n).Pairwise fun message message' => message.id ≠ message'.id ∧
      (message.conversationId = message'.conversationId → message.seq ≠ message'.seq ∧
        message.clientMessageId ≠ message'.clientMessageId)) ∧
    ∀ i packet input message, w.proc? i = some (.send packet input (.acked message false)) →
      { room := packet.room, event := .message message } ∈ w.shared.broadcasts := by
  have hok := broadcastsOk h
  have htables := (holds (chat_reachable h)).1.shared
  have hstored {k : ℕ} {message : Message} (hk : Announced w k message) :
      ∃ stored ∈ w.shared.chat.messages, Same message stored := by
    obtain ⟨broadcast, hget, hmessage⟩ := hk
    obtain ⟨packet, -, htold⟩ := hok.told broadcast (List.mem_of_getElem? hget)
    exact (htold message hmessage).2.2
  refine ⟨fun n => ?_, hok.acked⟩
  rw [GatewayState.received, List.pairwise_filterMap]
  refine (hok.deliveries.filter _).imp_of_mem fun {d d'} hd hd' hne message hm message' hm' => ?_
  have hannounced {d : ℕ × ℕ} {message : Message}
      (hm : (w.shared.broadcasts[d.2]?.bind Broadcast.message?) = some message) :
      Announced w d.2 message := by
    obtain ⟨broadcast, hget, hmessage⟩ := Option.bind_eq_some_iff.mp hm
    exact ⟨broadcast, hget, hmessage⟩
  have hid : message.id ≠ message'.id := by
    intro hid
    have hk := hok.unique _ _ message message' (hannounced hm) (hannounced hm') hid
    have hn := of_decide_eq_true (List.mem_filter.mp hd).2
    have hn' := of_decide_eq_true (List.mem_filter.mp hd').2
    exact hne (Prod.ext (hn.trans hn'.symm) hk)
  refine ⟨hid, fun hconversation => ?_⟩
  obtain ⟨stored, hmem, hsame⟩ := hstored (hannounced hm)
  obtain ⟨stored', hmem', hsame'⟩ := hstored (hannounced hm')
  have hconversation' : stored.conversationId = stored'.conversationId := by
    rw [hsame.conversationId, hsame'.conversationId, hconversation]
  refine ⟨fun hseq => ?_, fun hclient => ?_⟩
  · obtain ⟨c, hc, -⟩ := htables.owner stored hmem
    have hlog : stored ∈ log w.shared.chat stored.conversationId :=
      List.mem_filter.mpr ⟨hmem, decide_eq_true rfl⟩
    have hlog' : stored' ∈ log w.shared.chat stored.conversationId :=
      List.mem_filter.mpr ⟨hmem', decide_eq_true hconversation'.symm⟩
    have hstored : stored = stored' := by
      refine List.inj_on_of_nodup_map (htables.dense _ c hc).nodup hlog hlog' ?_
      rw [hsame.seq, hsame'.seq, hseq]
    rw [← hsame.id, ← hsame'.id, hstored] at hid
    exact hid rfl
  · refine hid ?_
    rw [← hsame.id, ← hsame'.id]
    refine htables.unique stored hmem stored' hmem' hconversation' ?_
    rw [hsame.clientMessageId, hsame'.clientMessageId, hclient]

def examplePacket : Packet := ⟨0, exampleIdentity, exampleConversation⟩

def exampleMessage : Message :=
  (examplePacket.sendCall exampleInput).message 2 { organizationId := some (asKey exampleOrganization) }

/-- The second send is acknowledged as a duplicate, and the message has been received once. -/
theorem received_once_retry : ∃ w : GatewayWorld,
    w.proc? 3 = some (.send examplePacket exampleInput (.acked exampleMessage true)) ∧
    w.shared.received 1 = [exampleMessage] ∧
    (w.shared.received 1).Pairwise fun message message' => message.id ≠ message'.id := by
  obtain ⟨w, hw, hacked, hreceived⟩ := (gateway 5 []).exists_reached anyStep exampleChat
    (fun w => w.proc? 3 = some (.send examplePacket exampleInput (.acked exampleMessage true)) ∧
      w.shared.received 1 = [exampleMessage]) (by decide +kernel)
  exact ⟨w, hacked, hreceived, ((received_once hw).1 1).imp And.left⟩

/-! ### Revocations -/

def Gone (n : ℕ) (w : GatewayWorld) : Prop :=
  ∃ socket, w.shared.sockets[n]? = some socket ∧ socket.connected = false ∧ socket.rooms = []

theorem SocketMove.gone {n : ℕ} {socket socket' : Socket}
    (h : SocketMove maxRooms w n socket l socket')
    (hgone : socket.connected = false ∧ socket.rooms = []) :
    socket'.connected = false ∧ socket'.rooms = [] := by
  obtain ⟨hconnected, hrooms⟩ := hgone
  cases h with
  | same => exact ⟨hconnected, hrooms⟩
  | joined _ _ _ =>
    unfold Socket.join
    rw [if_neg (by rw [hconnected]; simp)]
    exact ⟨hconnected, hrooms⟩
  | left =>
    refine ⟨hconnected, ?_⟩
    rw [Socket.leave, hrooms]
    rfl
  | disconnected => exact ⟨rfl, rfl⟩

/-- The socket is disconnected for good: from here on it is in no room and nothing reaches it. -/
def Silent (maxRooms : ℕ) (models : DataModel) (n : ℕ) (w : GatewayWorld) : Prop :=
  ∀ w', Path (gateway maxRooms models).system anyStep w w' →
    Gone n w' ∧ ∀ k, (n, k) ∈ w'.shared.deliveries → (n, k) ∈ w.shared.deliveries

theorem Gone.next {n : ℕ} (h : Gone n w) (hn : (gateway maxRooms models).next w l = some w') :
    Gone n w' := by
  obtain ⟨socket, hsocket, hrooms⟩ := h
  obtain ⟨socket', hsocket', hmove⟩ := (gatewayStep hn).kept hsocket
  exact ⟨socket', hsocket', SocketMove.gone hmove hrooms⟩

/-- **A socket that is disconnected is in no room and receives nothing**, whatever handlers of it are
still on their way. -/
theorem Gone.silent {n : ℕ} (h : Gone n w) : Silent maxRooms models n w := by
  intro w' p
  induction p with
  | refl => exact ⟨h, fun _ hk => hk⟩
  | step p _ hn ih =>
    obtain ⟨hgone, hkept⟩ := ih
    refine ⟨hgone.next hn, fun k hk => hkept k ?_⟩
    rcases (gatewayStep hn).deliveries with hsame |
      ⟨m, j, socket, broadcast, -, hsocket, -, hroom, -, hnew⟩
    · exact hsame ▸ hk
    · rw [hnew] at hk
      refine (List.mem_append.mp hk).resolve_right fun hlast => ?_
      cases List.mem_singleton.mp hlast
      obtain ⟨socket₁, hsocket₁, -, hrooms⟩ := hgone
      obtain rfl := some.inj (hsocket₁.symm.trans hsocket)
      rw [hrooms] at hroom
      cases hroom

/-- What is published to the nodes, and what has reached them. -/
inductive RequestStep (s : GatewayState) : GatewayLabel → GatewayState → Prop
  | same {l : GatewayLabel} {t : GatewayState} (hdisconnects : t.disconnects = s.disconnects)
    (hrelayed : t.relayed = s.relayed) : RequestStep s l t
  | revoked {node : ℕ} {userId : Id} : RequestStep s (.env (.revoke node userId)) (s.revoke node userId)
  | relayed {node k : ℕ} {request : DisconnectRequest} (hrequest : s.disconnects[k]? = some request)
    (hnode : request.node ≠ node) (hnew : (node, k) ∉ s.relayed) :
    RequestStep s (.env (.relay node k))
      { s.disconnectSockets node request.userId with relayed := s.relayed ++ [(node, k)] }

theorem requestStep (hn : (gateway maxRooms models).next w l = some w') :
    RequestStep w.shared l w'.shared := by
  cases Program.move_of_next hn with
  | @spawn a s p hs =>
    cases a with
    | packet n conversationId event =>
      simp only [gateway, startHandler] at hs
      split at hs
      · cases hs
      · split_ifs at hs
        cases hs
        exact .same rfl rfl
    | rest start =>
      obtain ⟨r, -, he⟩ := map_eq_some_iff.mp hs
      cases he
      exact .same rfl rfl
  | step hp hs => cases handlerMove_of_step hs <;> exact .same rfl rfl
  | crash _ => exact .same rfl rfl
  | @env e s hs =>
    cases e with
    | chat event =>
      obtain ⟨chat', -, he⟩ := map_eq_some_iff.mp hs
      cases he
      exact .same rfl rfl
    | connect node identity =>
      cases hs
      exact .same rfl rfl
    | disconnect n =>
      simp only [gateway, gatewayEvent] at hs
      split at hs <;> cases hs
      exact .same rfl rfl
    | revoke node userId =>
      cases hs
      exact .revoked
    | relay node k =>
      obtain ⟨request, hrequest, hnode, hnew, rfl⟩ := relay_cases hs
      exact .relayed hrequest hnode hnew
    | arrive n k =>
      simp only [gateway, gatewayEvent, GatewayState.arrive] at hs
      split at hs
      · split_ifs at hs
        cases hs
        exact .same rfl rfl
      · cases hs

theorem lt_of_relayed (h : Reachable (gateway maxRooms models).system w) :
    ∀ node k, (node, k) ∈ w.shared.relayed → k < w.shared.disconnects.length := by
  refine h.invariant (I := fun w => ∀ node k, (node, k) ∈ w.shared.relayed →
    k < w.shared.disconnects.length) (fun w hw node k hk => ?_) fun w w' l ih _ hn node k hk => ?_
  · obtain rfl : w = ⟨{}, []⟩ := hw
    cases hk
  · have hstep := requestStep hn
    generalize w'.shared = t at hstep hk ⊢
    cases hstep with
    | same hdisconnects hrelayed =>
      rw [hdisconnects]
      exact ih node k (hrelayed ▸ hk)
    | revoked =>
      have hlt := ih node k hk
      show k < (w.shared.disconnects ++ [_]).length
      rw [List.length_append]
      exact Nat.lt_add_right _ hlt
    | relayed hrequest _ _ =>
      rcases List.mem_append.mp hk with hk | hk
      · exact ih node k hk
      · cases List.mem_singleton.mp hk
        exact (List.getElem?_eq_some_iff.mp hrequest).1

/-- **The sockets of a user at a node are disconnected.** -/
theorem disconnectSockets_socket (node : ℕ) (userId : Id) {n : ℕ} {socket : Socket}
    {s : GatewayState} {authorized : SchemaId → Prop} (hok : SocketOk maxRooms authorized socket)
    (hsocket : s.sockets[n]? = some socket) :
    ∃ socket', (s.disconnectSockets node userId).sockets[n]? = some socket' ∧
      if socket.node = node ∧ socket.identity.userId = userId then
        socket'.connected = false ∧ socket'.rooms = []
      else socket' = socket := by
  refine ⟨if socket.node = node ∧ userRoom userId ∈ socket.rooms then socket.disconnect else socket,
    ?_, ?_⟩
  · show (s.sockets.map _)[n]? = _
    rw [List.getElem?_map, hsocket]
    rfl
  · split_ifs with huser hroom hroom
    · exact ⟨rfl, rfl⟩
    · cases hconnected : socket.connected with
      | true => exact absurd ⟨huser.1, huser.2 ▸ hok.own hconnected⟩ hroom
      | false => exact ⟨rfl, hok.gone hconnected⟩
    · obtain ⟨hnode, hroom⟩ := hroom
      refine absurd ⟨hnode, ?_⟩ huser
      rcases hok.rooms _ hroom with hown | ⟨conversationId, hname, -⟩
      · exact (userRoom_injective hown).symm
      · exact absurd hname (userRoom_ne _ _ _)
    · rfl

variable {request : DisconnectRequest}

theorem published_next {k : ℕ} (h : w.shared.disconnects[k]? = some request)
    (hn : (gateway maxRooms models).next w l = some w') :
    w'.shared.disconnects[k]? = some request := by
  have hstep := requestStep hn
  generalize w'.shared = t at hstep ⊢
  cases hstep with
  | same hdisconnects _ => rw [hdisconnects, h]
  | revoked =>
    obtain ⟨hlt, -⟩ := List.getElem?_eq_some_iff.mp h
    exact (List.getElem?_append_left hlt).trans h
  | relayed _ _ _ => exact h

/-- A socket at a node that a published request is on its way to, or has reached. -/
structure Awaits (k n : ℕ) (request : DisconnectRequest) (node : ℕ) (w : GatewayWorld) : Prop where
  published : w.shared.disconnects[k]? = some request
  socket : ∃ socket, w.shared.sockets[n]? = some socket ∧ socket.node = node ∧
    socket.identity.userId = request.userId
  gone : (node, k) ∈ w.shared.relayed → Gone n w

theorem Awaits.next {k n node : ℕ} (h : Awaits k n request node w)
    (hw : Reachable (gateway maxRooms models).system w)
    (hn : (gateway maxRooms models).next w l = some w') : Awaits k n request node w' := by
  obtain ⟨socket, hsocket, hnode, huser⟩ := h.socket
  obtain ⟨socket', hsocket', hmove⟩ := (gatewayStep hn).kept hsocket
  refine ⟨published_next h.published hn,
    ⟨socket', hsocket', hmove.node.trans hnode, hmove.identity ▸ huser⟩, fun hrelayed => ?_⟩
  by_cases hold : (node, k) ∈ w.shared.relayed
  · exact (h.gone hold).next hn
  · -- The request reaches the node in this step.
    have hstep := requestStep hn
    have hgone : ∀ t, t = w'.shared → RequestStep w.shared l t → Gone n w' := by
      intro t ht hstep
      cases hstep with
      | same _ hsame => exact absurd (hsame ▸ ht ▸ hrelayed) hold
      | revoked =>
        rw [← ht] at hrelayed
        exact absurd hrelayed hold
      | @relayed node' k' request' hrequest _ _ =>
        have hmem : (node, k) ∈ w.shared.relayed ++ [(node', k')] := by
          rw [← ht] at hrelayed
          exact hrelayed
        cases List.mem_singleton.mp ((List.mem_append.mp hmem).resolve_left hold)
        obtain rfl := some.inj (hrequest.symm.trans h.published)
        obtain ⟨socket₁, hsocket₁, hrooms⟩ := disconnectSockets_socket node request'.userId
          ((roomsOk hw).sockets n socket hsocket) hsocket
        rw [if_pos ⟨hnode, huser⟩] at hrooms
        refine ⟨socket₁, ?_, hrooms⟩
        rw [← ht]
        exact hsocket₁
    exact hgone _ rfl hstep

/-- The request disconnects a socket of its user for good at another node, once it has reached the node,
and can reach it at any time until then. -/
def WillBeSilent (maxRooms : ℕ) (models : DataModel) (k n node : ℕ) (w : GatewayWorld) : Prop :=
  ∀ w', Path (gateway maxRooms models).system anyStep w w' →
    ((node, k) ∈ w'.shared.relayed → Silent maxRooms models n w') ∧
    ((node, k) ∉ w'.shared.relayed → ∃ w'', (gateway maxRooms models).next w' (.env (.relay node k)) =
      some w'' ∧ w''.shared.deliveries = w'.shared.deliveries ∧ Silent maxRooms models n w'')

theorem Awaits.willBeSilent {k n node : ℕ} (h : Awaits k n request node w)
    (hw : Reachable (gateway maxRooms models).system w) (hnode : request.node ≠ node) :
    WillBeSilent maxRooms models k n node w := by
  intro w' p
  have hreach := hw.path p
  have hawaits : Awaits k n request node w' :=
    p.stable (Q := Awaits k n request node) (fun _ _ _ hv ha _ hn => ha.next hv hn) hw h
  refine ⟨fun hrelayed => (hawaits.gone hrelayed).silent, fun hrelayed => ?_⟩
  have hrelay : w'.shared.relay node k = some { w'.shared.disconnectSockets node request.userId with
      relayed := w'.shared.relayed ++ [(node, k)] } := by
    unfold GatewayState.relay
    rw [hawaits.published]
    exact if_pos ⟨hnode, hrelayed⟩
  have hn : (gateway maxRooms models).next w' (.env (.relay node k)) = some (w'.withShared
      { w'.shared.disconnectSockets node request.userId with
        relayed := w'.shared.relayed ++ [(node, k)] }) := by
    show (w'.shared.relay node k).map _ = _
    rw [hrelay]
    rfl
  refine ⟨_, hn, rfl, Gone.silent ((hawaits.next hreach hn).gone ?_)⟩
  exact List.mem_append_right _ (List.mem_singleton.mpr rfl)

/-- A published request, and a socket of another user than its own. -/
structure Spares (k n : ℕ) (request : DisconnectRequest) (w : GatewayWorld) : Prop where
  published : w.shared.disconnects[k]? = some request
  socket : ∃ socket, w.shared.sockets[n]? = some socket ∧ socket.identity.userId ≠ request.userId

theorem Spares.next {k n : ℕ} (h : Spares k n request w)
    (hn : (gateway maxRooms models).next w l = some w') : Spares k n request w' := by
  obtain ⟨socket, hsocket, huser⟩ := h.socket
  obtain ⟨socket', hsocket', hmove⟩ := (gatewayStep hn).kept hsocket
  exact ⟨published_next h.published hn, socket', hsocket', hmove.identity ▸ huser⟩

theorem Spares.relayed {k n node : ℕ} (h : Spares k n request w)
    (hw : Reachable (gateway maxRooms models).system w)
    (hn : (gateway maxRooms models).next w (.env (.relay node k)) = some w') :
    w'.shared.sockets[n]? = w.shared.sockets[n]? := by
  obtain ⟨s, hs, rfl⟩ := map_eq_some_iff.mp hn
  obtain ⟨request', hrequest, -, -, rfl⟩ := relay_cases hs
  obtain rfl := some.inj (hrequest.symm.trans h.published)
  obtain ⟨socket, hsocket, huser⟩ := h.socket
  obtain ⟨socket', hsocket', hsame⟩ := disconnectSockets_socket node request'.userId
    ((roomsOk hw).sockets n socket hsocket) hsocket
  rw [if_neg fun hboth => huser hboth.2] at hsame
  rw [hsocket, ← hsame]
  exact hsocket'

/-- **After a notice of a revocation** the sockets of the user at that node are disconnected for good:
they are in no room, and nothing reaches them. So are those at another node as soon as the request which
the first one publishes has reached it, and that it can do at any time. Neither the notice nor the
request changes a socket of another user. -/
theorem revoked_silent {node : ℕ} {userId : Id} {w₁ : GatewayWorld}
    (h : Reachable (gateway maxRooms models).system w)
    (hn : (gateway maxRooms models).next w (.env (.revoke node userId)) = some w₁) {n : ℕ}
    {socket : Socket} (hsocket : w.shared.sockets[n]? = some socket) :
    w₁.shared.deliveries = w.shared.deliveries ∧
    if socket.identity.userId = userId then
      if socket.node = node then Silent maxRooms models n w₁
      else WillBeSilent maxRooms models w.shared.disconnects.length n socket.node w₁
    else w₁.shared.sockets[n]? = some socket ∧
      ∀ w' w'' node', Path (gateway maxRooms models).system anyStep w₁ w' →
        (gateway maxRooms models).next w' (.env (.relay node' w.shared.disconnects.length)) = some w'' →
        w''.shared.sockets[n]? = w'.shared.sockets[n]? := by
  have hw₁ : w₁ = w.withShared (w.shared.revoke node userId) := (some.inj hn).symm
  have hreach : Reachable (gateway maxRooms models).system w₁ :=
    .step (a := .env (.revoke node userId)) h trivial hn
  have hpublished : w₁.shared.disconnects[w.shared.disconnects.length]? = some ⟨node, userId⟩ := by
    rw [hw₁]
    exact List.getElem?_concat_length
  obtain ⟨socket', hsocket', hsilenced⟩ := disconnectSockets_socket node userId
    ((roomsOk h).sockets n socket hsocket) hsocket
  have hget : w₁.shared.sockets[n]? = some socket' := by
    rw [hw₁]
    exact hsocket'
  refine ⟨by rw [hw₁]; rfl, ?_⟩
  split_ifs with huser hnode
  · rw [if_pos ⟨hnode, huser⟩] at hsilenced
    exact Gone.silent ⟨socket', hget, hsilenced⟩
  · rw [if_neg fun hboth => hnode hboth.1] at hsilenced
    subst hsilenced
    have hawaits : Awaits w.shared.disconnects.length n ⟨node, userId⟩ socket'.node w₁ := by
      refine ⟨hpublished, ⟨socket', hget, rfl, huser⟩, fun hrelayed => ?_⟩
      rw [hw₁] at hrelayed
      exact absurd (lt_of_relayed h _ _ hrelayed) (Nat.lt_irrefl _)
    exact hawaits.willBeSilent hreach (Ne.symm hnode)
  · rw [if_neg fun hboth => huser hboth.2] at hsilenced
    subst hsilenced
    refine ⟨hget, fun w' w'' node' p hn' => ?_⟩
    have hspared : Spares w.shared.disconnects.length n ⟨node, userId⟩ w' :=
      p.stable (Q := Spares w.shared.disconnects.length n ⟨node, userId⟩)
        (fun _ _ _ _ hv _ hn => hv.next hn) hreach ⟨hpublished, socket', hget, huser⟩
    exact hspared.relayed (hreach.path p) hn'

/-- A user has a socket at each of two nodes, and joins a room on both. -/
def exampleJoins : List GatewayLabel :=
  [.env (.connect 0 exampleIdentity), .env (.connect 1 exampleIdentity),
    .env (.chat (.createConversation exampleConversation.key (some (asKey exampleOrganization))
      [asKey exampleClaims.userId])),
    .spawn (.packet 0 exampleConversation .join), .step 0 {}, .step 0 {},
    .spawn (.packet 1 exampleConversation .join), .step 1 {}, .step 1 {}]

/-- The joins are on their way when the notice comes to the first node. They go on, and its request
reaches the second node. -/
theorem revoked_silent_joining : ∃ w w' : GatewayWorld,
    w.proc? 0 = some (.join examplePacket .enter) ∧
    w'.proc? 0 = some (.join examplePacket .acked) ∧
    w'.proc? 1 = some (.join { examplePacket with socket := 1 } .acked) ∧
    Silent 5 [] 0 w' ∧ Silent 5 [] 1 w' := by
  let revoked (w : GatewayWorld) : GatewayWorld :=
    w.withShared (w.shared.revoke 0 exampleClaims.userId)
  obtain ⟨w, hw, hp, hdisconnects, hsocket, hsocket', hrun⟩ := (gateway 5 []).exists_reached anyStep
    exampleJoins
    (fun w => w.proc? 0 = some (.join examplePacket .enter) ∧ w.shared.disconnects.length = 0 ∧
      w.shared.sockets[0]? = some ⟨0, exampleIdentity, [userRoom exampleClaims.userId], true⟩ ∧
      w.shared.sockets[1]? = some ⟨1, exampleIdentity, [userRoom exampleClaims.userId], true⟩ ∧
      (exec (gateway 5 []).system anyStep (revoked w)
        [.step 0 {}, .step 1 {}, .env (.relay 1 0)]).any (fun w' => decide
          (w'.proc? 0 = some (.join examplePacket .acked) ∧
            w'.proc? 1 = some (.join { examplePacket with socket := 1 } .acked) ∧
            (1, 0) ∈ w'.shared.relayed)) = true)
    (by decide +kernel)
  obtain ⟨w', hexec, hacked⟩ := (Option.any_eq_true _ _).mp hrun
  obtain ⟨hfirst, hsecond, hrelayed⟩ := of_decide_eq_true hacked
  have hpath := path_of_exec .refl hexec
  have hn : (gateway 5 []).next w (.env (.revoke 0 exampleClaims.userId)) = some (revoked w) := rfl
  obtain ⟨-, hsilent⟩ := revoked_silent hw hn hsocket
  obtain ⟨-, hwill⟩ := revoked_silent hw hn hsocket'
  have huser : exampleIdentity.userId = exampleClaims.userId := rfl
  rw [if_pos huser, if_pos rfl] at hsilent
  rw [if_pos huser, if_neg Nat.one_ne_zero, hdisconnects] at hwill
  have hsecondSilent := (hwill w' hpath).1 hrelayed
  exact ⟨w, w', hp, hfirst, hsecond, (hsilent w' hpath).1.silent, hsecondSilent⟩

end BackendFoundation.Chat.Broadcasts
