import BackendFoundation.Notifications.Devices

/-! # The owners of push devices

A row keeps its user and its token, and a token is in one row. So a push for a user goes to tokens that a
call of this user has registered, and that were registered to it when the call that sends it looked
(`pushes_registered`).

An unregistered device stays in the table, where `registerDevice` does not find it but the unique index
does. Its token is refused from then on, for its user and every other one (`unregistered_final`). -/

namespace BackendFoundation.Notifications.DeviceOwners

open Errors Lib Lib.Runs Lib.Interleave Notifications.Devices
open Option (some.inj)

/-! ### Steps -/

variable {firebase : Bool} {s t : DeviceState} {pid id : ℕ} {call : DeviceCall} {pc pc' : DevicePc}
  {userId token : String} {platform : Option String} {d : Device}

/-- A write that leaves the deleted rows, and the id, the user and the token of every row, as they are. -/
structure Rewrites (f : Device → Device) : Prop where
  deleted : ∀ d, d.deletedAt ≠ none → f d = d
  id : ∀ d, (f d).id = d.id
  userId : ∀ d, (f d).userId = d.userId
  fcmToken : ∀ d, (f d).fcmToken = d.fcmToken

/-- What is done to the rows that there are. -/
inductive Edit (s : DeviceState) : DeviceState → Prop
  | same {t : DeviceState} (hdevices : t.devices = s.devices) (hnext : t.nextDevice = s.nextDevice) :
    Edit s t
  | rewritten {t : DeviceState} (f : Device → Device) (hf : Rewrites f)
    (hdevices : t.devices = s.devices.map f) (hnext : t.nextDevice = s.nextDevice) : Edit s t
  | removed {t : DeviceState} (cond : Device → Bool)
    (hdevices : t.devices = (s.deleteDevices cond).devices) (hnext : t.nextDevice = s.nextDevice) :
    Edit s t

inductive TableMove (s : DeviceState) : DeviceState → Prop
  | edited {t : DeviceState} (hedit : Edit s t) : TableMove s t
  | created {t : DeviceState} (d : Device) (hid : d.id = s.nextDevice)
    (hfree : ∀ e ∈ s.devices, e.fcmToken ≠ d.fcmToken) (hdevices : t.devices = s.devices ++ [d])
    (hnext : t.nextDevice = s.nextDevice + 1) : TableMove s t

inductive DeviceMove (s : DeviceState) (pid : ℕ) : DeviceCall → DevicePc → DeviceState → DevicePc → Prop
  | thrown {call : DeviceCall} {pc : DevicePc} {e : Thrown} : DeviceMove s pid call pc s (.thrown e)
  | found {userId token : String} {platform : Option String} {d : Device} (hd : d ∈ s.devices)
    (htoken : d.fcmToken = token) :
    DeviceMove s pid (.register userId token platform) .begin s (.update d.id)
  | missing {userId token : String} {platform : Option String} :
    DeviceMove s pid (.register userId token platform) .begin s .create
  | updated {userId token : String} {platform : Option String} {d : Device} {t : DeviceState}
    {pc' : DevicePc} (hd : d ∈ s.devices) (hlive : d.deletedAt = none) (hedit : Edit s t)
    (hsent : t.sent = s.sent) (hpc' : pc' = .registered d.id ∨ ∃ e, pc' = .thrown e) :
    DeviceMove s pid (.register userId token platform) (.update d.id) t pc'
  | created {userId token : String} {platform : Option String} {t : DeviceState} {pc' : DevicePc}
    (hfree : ∀ e ∈ s.devices, e.fcmToken ≠ token)
    (hdevices : t.devices = s.devices ++
      [{ id := s.nextDevice, userId, fcmToken := token, platform, lastSeenAt := s.now }])
    (hnext : t.nextDevice = s.nextDevice + 1) (hsent : t.sent = s.sent)
    (hpc' : pc' = .registered s.nextDevice ∨ ∃ e, pc' = .thrown e) :
    DeviceMove s pid (.register userId token platform) .create t pc'
  | unregistered {userId : String} {deviceId : ℕ} {t : DeviceState} {pc' : DevicePc}
    (hedit : Edit s t) (hsent : t.sent = s.sent)
    (hpc' : (∃ removed, pc' = .unregistered removed) ∨ ∃ e, pc' = .thrown e) :
    DeviceMove s pid (.unregister userId deviceId) .begin t pc'
  | queried {userId : String} :
    DeviceMove s pid (.sendPush userId) .begin s (.send (chunks (s.tokensOf userId) 500))
  | ended {userId : String} {pc : DevicePc} {sent : Bool} :
    DeviceMove s pid (.sendPush userId) pc s (.pushed sent)
  | sent {userId : String} {batch : List String} {batches : List (List String)} {pc' : DevicePc}
    (hpc' : pc' = .send batches ∨ (∃ stale, pc' = .removeStale stale batches) ∨ ∃ e, pc' = .thrown e) :
    DeviceMove s pid (.sendPush userId) (.send (batch :: batches)) (s.send ⟨pid, userId, batch⟩) pc'
  | removed {userId : String} {stale : List String} {batches : List (List String)} {t : DeviceState}
    {pc' : DevicePc} (hedit : Edit s t) (hsent : t.sent = s.sent)
    (hpc' : pc' = .send batches ∨ ∃ e, pc' = .thrown e) :
    DeviceMove s pid (.sendPush userId) (.removeStale stale batches) t pc'

theorem findDevice_some (h : s.findDevice token = some d) : d ∈ s.devices ∧ d.fcmToken = token := by
  unfold DeviceState.findDevice at h
  have hmatch := List.find?_some h
  exact ⟨List.mem_of_find?_eq_some h, (of_decide_eq_true hmatch).1⟩

theorem updateDevice_cases (s : DeviceState) (id : ℕ) (userId : String) (platform : Option String) :
    (∃ e, s.updateDevice id userId platform = .error e) ∨
      ∃ d ∈ s.devices, d.id = id ∧ d.deletedAt = none ∧ ∃ t, s.updateDevice id userId platform = .ok t ∧
        Edit s t ∧ t.sent = s.sent := by
  unfold DeviceState.updateDevice
  split_ifs with h
  · obtain ⟨d, hd, hmatch⟩ := List.any_eq_true.mp h
    obtain ⟨hid, -, hlive⟩ := of_decide_eq_true hmatch
    refine .inr ⟨d, hd, hid, hlive, _, rfl, .rewritten _ ?_ rfl rfl, rfl⟩
    refine ⟨fun e he => if_neg fun hmatch => he hmatch.2.2, fun e => ?_, fun e => ?_, fun e => ?_⟩
    · split_ifs <;> rfl
    · split_ifs <;> rfl
    · split_ifs <;> rfl
  · exact .inl ⟨_, rfl⟩

theorem createDevice_cases (s : DeviceState) (userId token : String) (platform : Option String) :
    (∃ e, s.createDevice userId token platform = .error e) ∨
      (∀ e ∈ s.devices, e.fcmToken ≠ token) ∧ s.createDevice userId token platform = .ok { s with
        devices := s.devices ++
          [{ id := s.nextDevice, userId, fcmToken := token, platform, lastSeenAt := s.now }]
        nextDevice := s.nextDevice + 1 } := by
  unfold DeviceState.createDevice
  split_ifs with h
  · exact .inl ⟨_, rfl⟩
  · refine .inr ⟨fun e he htoken => h ?_, rfl⟩
    exact List.any_eq_true.mpr ⟨e, he, decide_eq_true htoken⟩

theorem unregister_edit (s : DeviceState) (id : ℕ) (userId : String) :
    Edit s (s.unregister id userId).1 := by
  refine .rewritten _ ⟨fun e he => ?_, fun e => ?_, fun e => ?_, fun e => ?_⟩ rfl rfl
  · exact if_neg fun hmatch => he (of_decide_eq_true hmatch).2.2
  · split_ifs <;> rfl
  · split_ifs <;> rfl
  · split_ifs <;> rfl

theorem deviceMove_of_step {c : DeviceChoice} (h : deviceStep firebase s pid call pc c = some (t, pc')) :
    DeviceMove s pid call pc t pc' := by
  unfold deviceStep at h
  split at h
  · next userId token platform =>
    obtain ⟨ht, ⟨-, rfl⟩ | ⟨e, -, rfl⟩⟩ := Outcome.read_cases (some.inj h)
    · subst ht
      cases hfind : t.findDevice token with
      | none => exact .missing
      | some existing =>
        obtain ⟨hmem, htoken⟩ := findDevice_some hfind
        show DeviceMove t pid _ _ t (if existing.userId = userId then _ else _)
        split_ifs
        · exact .found hmem htoken
        · exact .thrown
    · subst ht
      exact .thrown
  · next userId token platform id =>
    rcases updateDevice_cases s id userId platform with
      ⟨e, he⟩ | ⟨d, hd, rfl, hlive, s', he, hmove, hsent⟩ <;> simp only [he] at h
    · exact Outcome.run_elim (some.inj h) .thrown (fun _ => .thrown) fun _ => .thrown
    · exact Outcome.run_elim (some.inj h) (.updated hd hlive hmove hsent (.inl rfl))
        (fun _ => .thrown) fun e => .updated hd hlive hmove hsent (.inr ⟨e, rfl⟩)
  · next userId token platform =>
    rcases createDevice_cases s userId token platform with ⟨e, he⟩ | ⟨hfree, he⟩ <;>
      simp only [he] at h
    · exact Outcome.run_elim (some.inj h) .thrown (fun _ => .thrown) fun _ => .thrown
    · exact Outcome.run_elim (some.inj h) (.created hfree rfl rfl rfl (.inl rfl))
        (fun _ => .thrown) fun e => .created hfree rfl rfl rfl (.inr ⟨e, rfl⟩)
  · next userId deviceId =>
    have hedit := unregister_edit s deviceId userId
    exact Outcome.run_elim (some.inj h) (.unregistered hedit rfl (.inl ⟨_, rfl⟩))
      (fun _ => .thrown) fun e => .unregistered hedit rfl (.inr ⟨e, rfl⟩)
  · next userId =>
    obtain ⟨rfl, ⟨-, rfl⟩ | ⟨e, -, rfl⟩⟩ := Outcome.read_cases (some.inj h)
    · split_ifs
      · exact .ended
      · exact .queried
      · exact .ended
    · exact .thrown
  · obtain ⟨rfl, rfl⟩ := pair_inj h
    exact .ended
  · next userId batch batches =>
    rcases Outcome.run_cases (some.inj h) with
      ⟨-, rfl, rfl⟩ | ⟨e, -, rfl, rfl⟩ | ⟨e, -, rfl, rfl⟩
    · split_ifs
      · exact .sent (.inl rfl)
      · exact .sent (.inr (.inl ⟨_, rfl⟩))
    · exact .thrown
    · exact .sent (.inr (.inr ⟨e, rfl⟩))
  · next userId stale batches =>
    exact Outcome.run_elim (some.inj h) (.removed (.removed _ rfl rfl) rfl (.inl rfl))
      (fun _ => .thrown) fun e => .removed (.removed _ rfl rfl) rfl (.inr ⟨e, rfl⟩)
  · cases h

theorem DeviceMove.table (h : DeviceMove s pid call pc t pc') : TableMove s t := by
  cases h with
  | thrown | found | missing | queried | ended | sent => exact .edited (.same rfl rfl)
  | updated hd hlive hedit | unregistered hedit | removed hedit => exact .edited hedit
  | created hfree hdevices hnext => exact .created _ rfl hfree hdevices hnext

theorem edit_event {e : DeviceEvent} (h : deviceEvent s e = some t) : Edit s t := by
  cases e with
  | tick ms =>
    cases h
    exact .same rfl rfl
  | erase userId =>
    cases h
    exact .removed _ rfl rfl

/-! ### The table -/

structure TableOk (s : DeviceState) : Prop where
  fresh : ∀ d ∈ s.devices, d.id < s.nextDevice
  ids : ∀ d ∈ s.devices, ∀ e ∈ s.devices, d.id = e.id → d = e
  tokens : ∀ d ∈ s.devices, ∀ e ∈ s.devices, d.fcmToken = e.fcmToken → d = e

theorem Edit.origin (h : Edit s t) (hd : d ∈ t.devices) :
    ∃ e ∈ s.devices, d.id = e.id ∧ d.userId = e.userId ∧ d.fcmToken = e.fcmToken := by
  cases h with
  | same hdevices hnext =>
    rw [hdevices] at hd
    exact ⟨d, hd, rfl, rfl, rfl⟩
  | rewritten f hf hdevices hnext =>
    rw [hdevices] at hd
    obtain ⟨e, he, rfl⟩ := List.mem_map.mp hd
    exact ⟨e, he, hf.id e, hf.userId e, hf.fcmToken e⟩
  | removed cond hdevices hnext =>
    rw [hdevices] at hd
    exact ⟨d, (List.mem_filter.mp hd).1, rfl, rfl, rfl⟩

theorem Edit.next_eq (h : Edit s t) : t.nextDevice = s.nextDevice := by
  cases h with
  | same _ hnext | removed _ _ hnext => exact hnext
  | rewritten _ _ _ hnext => exact hnext

/-- A row of the table after a step was one before, or is the new one of a registration. -/
theorem DeviceMove.origin (h : DeviceMove s pid call pc t pc') (hd : d ∈ t.devices) :
    (∃ e ∈ s.devices, d.id = e.id ∧ d.userId = e.userId ∧ d.fcmToken = e.fcmToken) ∨
      ∃ platform, call = .register d.userId d.fcmToken platform := by
  cases h with
  | thrown | found | missing | queried | ended | sent => exact .inl ⟨d, hd, rfl, rfl, rfl⟩
  | updated _ _ hedit | unregistered hedit | removed hedit => exact .inl (hedit.origin hd)
  | created hfree hdevices =>
    rw [hdevices] at hd
    rcases List.mem_append.mp hd with hd | hd
    · exact .inl ⟨d, hd, rfl, rfl, rfl⟩
    · obtain rfl := List.mem_singleton.mp hd
      exact .inr ⟨_, rfl⟩

theorem TableMove.deleted (h : TableMove s t) (hd : d ∈ s.devices) (hdeleted : d.deletedAt ≠ none) :
    d ∈ t.devices := by
  cases h with
  | edited hedit =>
    cases hedit with
    | same hdevices hnext => rwa [hdevices]
    | rewritten f hf hdevices hnext =>
      rw [hdevices]
      exact List.mem_map.mpr ⟨d, hd, hf.deleted d hdeleted⟩
    | removed cond hdevices hnext =>
      rw [hdevices]
      refine List.mem_filter.mpr ⟨hd, ?_⟩
      rw [Option.isNone_eq_false_iff.mpr (Option.isSome_iff_ne_none.mpr hdeleted), Bool.and_false]
      rfl
  | created e hid hfree hdevices hnext =>
    rw [hdevices]
    exact List.mem_append_left _ hd

/-- What tells the rows apart still does, if no write changes it and a new row has a new one. -/
theorem unique_move {β : Type} {key : Device → β}
    (h : ∀ d ∈ s.devices, ∀ e ∈ s.devices, key d = key e → d = e) (hmove : TableMove s t)
    (hrewrites : ∀ f, Rewrites f → ∀ d, key (f d) = key d)
    (hnew : ∀ d : Device, d.id = s.nextDevice → (∀ e ∈ s.devices, e.fcmToken ≠ d.fcmToken) →
      ∀ e ∈ s.devices, key e ≠ key d) :
    ∀ d ∈ t.devices, ∀ e ∈ t.devices, key d = key e → d = e := by
  intro d hd e he hkey
  cases hmove with
  | edited hedit =>
    cases hedit with
    | same hdevices hnext =>
      rw [hdevices] at hd he
      exact h d hd e he hkey
    | rewritten f hf hdevices hnext =>
      rw [hdevices] at hd he
      obtain ⟨d₀, hd₀, rfl⟩ := List.mem_map.mp hd
      obtain ⟨e₀, he₀, rfl⟩ := List.mem_map.mp he
      rw [hrewrites f hf, hrewrites f hf] at hkey
      rw [h d₀ hd₀ e₀ he₀ hkey]
    | removed cond hdevices hnext =>
      rw [hdevices] at hd he
      exact h d (List.mem_filter.mp hd).1 e (List.mem_filter.mp he).1 hkey
  | created new hid hfree hdevices hnext =>
    rw [hdevices] at hd he
    rcases List.mem_append.mp hd with hd' | hd' <;> rcases List.mem_append.mp he with he' | he'
    · exact h d hd' e he' hkey
    · rw [List.mem_singleton.mp he'] at hkey
      exact absurd hkey (hnew new hid hfree d hd')
    · rw [List.mem_singleton.mp hd'] at hkey
      exact absurd hkey.symm (hnew new hid hfree e he')
    · exact (List.mem_singleton.mp hd').trans (List.mem_singleton.mp he').symm

theorem TableOk.move (h : TableOk s) (hmove : TableMove s t) : TableOk t where
  fresh d hd := by
    cases hmove with
    | edited hedit =>
      obtain ⟨e, he, hid, -⟩ := hedit.origin hd
      rw [hedit.next_eq, hid]
      exact h.fresh e he
    | created e hid hfree hdevices hnext =>
      rw [hdevices] at hd
      rw [hnext]
      rcases List.mem_append.mp hd with hd | hd
      · exact Nat.lt_succ_of_lt (h.fresh d hd)
      · rw [List.mem_singleton.mp hd, hid]
        exact Nat.lt_succ_self _
  ids := unique_move h.ids hmove (fun f hf d => hf.id d)
    fun d hid _ e he => Nat.ne_of_lt (hid ▸ h.fresh e he)
  tokens := unique_move h.tokens hmove (fun f hf d => hf.fcmToken d) fun d _ hfree e he => hfree e he

/-- The device that a registration has found is one of its token, if it is still there. -/
def CallOk (s : DeviceState) : DeviceCall → DevicePc → Prop
  | .register _ token _, .update id => id < s.nextDevice ∧ ∀ d ∈ s.devices, d.id = id → d.fcmToken = token
  | _, _ => True

theorem CallOk.move (h : CallOk s call pc) (hmove : TableMove s t) : CallOk t call pc := by
  unfold CallOk at h ⊢
  split
  · obtain ⟨hlt, hrow⟩ := h
    cases hmove with
    | edited hedit =>
      refine ⟨hedit.next_eq ▸ hlt, fun d hd hid => ?_⟩
      obtain ⟨e, he, hide, -, htoken⟩ := hedit.origin hd
      exact htoken.trans (hrow e he (hide.symm.trans hid))
    | created e hide hfree hdevices hnext =>
      refine ⟨hnext ▸ Nat.lt_succ_of_lt hlt, fun d hd hid => ?_⟩
      rw [hdevices] at hd
      rcases List.mem_append.mp hd with hd | hd
      · exact hrow d hd hid
      · rw [List.mem_singleton.mp hd, hide] at hid
        exact absurd hid.symm (Nat.ne_of_lt hlt)
  · trivial

theorem callOk_of_move (h : TableOk s) (hmove : DeviceMove s pid call pc t pc') : CallOk t call pc' := by
  cases hmove with
  | found hd htoken =>
    refine ⟨h.fresh _ hd, fun e he hid => ?_⟩
    rw [h.ids e he _ hd hid]
    exact htoken
  | updated hd hlive hmove hsent hpc' | created hfree hdevices hnext hsent hpc' =>
    rcases hpc' with rfl | ⟨e, rfl⟩ <;> trivial
  | thrown | missing | unregistered | queried | ended | sent | removed =>
    unfold CallOk
    split <;> trivial

def assertions : Assertions DeviceState DeviceProc where
  shared := TableOk
  proc _ p s := CallOk s p.call p.pc

theorem move_of_step {i : ℕ} {p p' : DeviceProc} {c : DeviceChoice}
    (h : (system firebase).step s i p c = some (t, p')) :
    p'.call = p.call ∧ DeviceMove s i p.call p.pc t p'.pc := by
  obtain ⟨pc', hstep, rfl⟩ := map_pair_inj h
  exact ⟨rfl, deviceMove_of_step hstep⟩

theorem outline : Outline (system firebase) anyStep assertions where
  init := by
    refine ⟨fun d hd => ?_, fun d hd => ?_, fun d hd => ?_⟩ <;> cases hd
  env w e s h _ hs :=
    ⟨h.shared.move (.edited (edit_event hs)), fun j q hq => (h.proc j q hq).move (.edited (edit_event hs))⟩
  spawn w call s p h _ hs := by
    cases hs
    refine ⟨h.shared, ?_, fun j q hq => ⟨h.proc j q hq, trivial, trivial⟩⟩
    show CallOk w.shared call .begin
    unfold CallOk
    split <;> trivial
  step w i p c s p' h hp _ hs := by
    obtain ⟨hcall, hmove⟩ := move_of_step hs
    refine ⟨h.shared.move hmove.table, ?_⟩
    show CallOk s p'.call p'.pc
    rw [hcall]
    exact callOk_of_move h.shared hmove
  frame w i p c s p' h hp _ hs j q _ hq := by
    obtain ⟨-, hmove⟩ := move_of_step hs
    exact ⟨(h.proc j q hq).move hmove.table, trivial, trivial⟩

/-! ### Batches -/

theorem mem_of_mem_chunksFrom {size : ℕ} : ∀ {fuel : ℕ} {values batch : List String},
    batch ∈ chunksFrom size fuel values → ∀ value ∈ batch, value ∈ values
  | 0, _, _, h => by cases h
  | _ + 1, [], _, h => by cases h
  | fuel + 1, value :: values, batch, h => by
    rcases List.mem_cons.mp h with rfl | h
    · exact fun v hv => List.mem_of_mem_take hv
    · exact fun v hv => List.mem_of_mem_drop (mem_of_mem_chunksFrom h v hv)

theorem mem_tokensOf {batch : List String} (hbatch : batch ∈ chunks (s.tokensOf userId) 500)
    (htoken : token ∈ batch) :
    ∃ d ∈ s.devices, d.userId = userId ∧ d.fcmToken = token ∧ d.deletedAt = none := by
  obtain ⟨d, hd, rfl⟩ := List.mem_map.mp (mem_of_mem_chunksFrom hbatch token htoken)
  obtain ⟨hmem, hmatch⟩ := List.mem_filter.mp hd
  obtain ⟨huser, hlive⟩ := of_decide_eq_true hmatch
  exact ⟨d, hmem, huser, rfl, hlive⟩

/-- The batches that a call has still to send. -/
def pending : DevicePc → List (List String)
  | .send batches | .removeStale _ batches => batches
  | .begin | .update _ | .create | .registered _ | .unregistered _ | .pushed _ | .thrown _ => []

/-- What a call has to send after a step it had to send before, or has just read. -/
theorem DeviceMove.pending (h : DeviceMove s pid call pc t pc') {batch : List String}
    (hbatch : batch ∈ pending pc') :
    batch ∈ DeviceOwners.pending pc ∨ ∃ userId, call = .sendPush userId ∧ pc = .begin ∧
      batch ∈ chunks (s.tokensOf userId) 500 := by
  cases h with
  | thrown | found | missing | ended => cases hbatch
  | updated _ _ _ _ hpc' | created _ _ _ _ hpc' =>
    rcases hpc' with rfl | ⟨e, rfl⟩ <;> cases hbatch
  | unregistered _ _ hpc' =>
    rcases hpc' with ⟨removed, rfl⟩ | ⟨e, rfl⟩ <;> cases hbatch
  | queried => exact .inr ⟨_, rfl, rfl, hbatch⟩
  | sent hpc' =>
    rcases hpc' with rfl | ⟨stale, rfl⟩ | ⟨e, rfl⟩
    · exact .inl (List.mem_cons_of_mem _ hbatch)
    · exact .inl (List.mem_cons_of_mem _ hbatch)
    · cases hbatch
  | removed _ _ hpc' =>
    rcases hpc' with rfl | ⟨e, rfl⟩
    · exact .inl hbatch
    · cases hbatch

theorem DeviceMove.sent_cases (h : DeviceMove s pid call pc t pc') : t.sent = s.sent ∨
    ∃ userId batch, call = .sendPush userId ∧ batch ∈ DeviceOwners.pending pc ∧
      t.sent = s.sent ++ [⟨pid, userId, batch⟩] := by
  cases h with
  | thrown | found | missing | queried | ended => exact .inl rfl
  | updated _ _ _ hsent | created _ _ _ hsent | unregistered _ hsent | removed _ hsent => exact .inl hsent
  | sent hpc' => exact .inr ⟨_, _, rfl, List.mem_cons.mpr (.inl rfl), rfl⟩

/-! ### Whose devices a push goes to -/

variable {w w' : DeviceWorld}

/-- A call of the user registers the token. -/
def Registers (userId token : String) (w : DeviceWorld) : Prop :=
  ∃ i p platform, w.proc? i = some p ∧ p.call = .register userId token platform

/-- The token is that of a device of the user. -/
def Has (userId token : String) (w : DeviceWorld) : Prop :=
  ∃ d ∈ w.shared.devices, d.userId = userId ∧ d.fcmToken = token ∧ d.deletedAt = none

theorem registered (h : Reachable (system firebase).system w) :
    ∀ d ∈ w.shared.devices, Earlier (system firebase).system (Registers d.userId d.fcmToken) w := by
  refine h.invariant' (I := fun w => ∀ d ∈ w.shared.devices,
    Earlier (system firebase).system (Registers d.userId d.fcmToken) w) ?_ ?_
  · intro w hw d hd
    obtain rfl : w = ⟨{}, []⟩ := hw
    cases hd
  · intro w w' l hw ih _ hn d hd
    have hold (h : ∃ e ∈ w.shared.devices, d.id = e.id ∧ d.userId = e.userId ∧ d.fcmToken = e.fcmToken) :
        Earlier (system firebase).system (Registers d.userId d.fcmToken) w' := by
      obtain ⟨e, he, -, huser, htoken⟩ := h
      rw [huser, htoken]
      exact (ih e he).next hn
    cases Program.move_of_next hn with
    | spawn hs =>
      cases hs
      exact (ih d hd).next hn
    | @step i c p p' s hp hs =>
      obtain ⟨-, hmove⟩ := move_of_step hs
      rcases hmove.origin hd with he | ⟨platform, hcall⟩
      · exact hold he
      · exact (Earlier.now hw ⟨i, p, platform, hp, hcall⟩).next hn
    | crash hp => exact (ih d hd).next hn
    | env hs => exact hold ((edit_event hs).origin hd)

/-- The call `sender` reads the devices of the user in this step, and one of them has the token. -/
structure ReadsToken (sender : ℕ) (userId token : String) (w : DeviceWorld)
    (l : Label DeviceCall DeviceChoice DeviceEvent) : Prop where
  label : ∃ c, l = .step sender c
  proc : w.proc? sender = some ⟨.sendPush userId, .begin⟩
  has : Has userId token w

/-- The call has read that the user has a device with the token. -/
def HasRead (firebase : Bool) (sender : ℕ) (userId token : String) (w : DeviceWorld) : Prop :=
  Happened (system firebase).system (ReadsToken sender userId token) w

theorem HasRead.next {sender : ℕ} {l : Label DeviceCall DeviceChoice DeviceEvent}
    (h : HasRead firebase sender userId token w) (hn : (system firebase).next w l = some w') :
    HasRead firebase sender userId token w' :=
  Happened.next h hn

theorem HasRead.earlier {sender : ℕ} (h : HasRead firebase sender userId token w) :
    Earlier (system firebase).system (Has userId token) w :=
  Happened.earlier (Q := ReadsToken sender userId token) (fun _ _ hread => hread.has) h

theorem not_registered (hs : TableOk s) (hcall : CallOk s call pc) (hd : d ∈ s.devices)
    (hdeleted : d.deletedAt ≠ none) (hmove : DeviceMove s pid call pc t pc')
    (hregister : call = .register userId d.fcmToken platform) : pc' ≠ .registered id := by
  rintro rfl
  cases hmove with
  | @updated _ _ _ e _ _ he hlive hedit hsent hpc' =>
    cases hregister
    obtain ⟨-, htoken⟩ := hcall
    have heq : e = d := hs.tokens e he d hd (htoken e he rfl)
    exact hdeleted (heq ▸ hlive)
  | created hfree hdevices hnext hsent hpc' =>
    cases hregister
    exact hfree d hd rfl
  | unregistered | removed | sent => cases hregister

/-- Since a world with a deleted device: its row is as it was, no registration of its token has returned,
and no push of a later call goes to it. -/
structure Closed (d : Device) (w₀ w : DeviceWorld) : Prop where
  row : d ∈ w.shared.devices
  registered : ∀ j p id userId platform, w.proc? j = some p →
    p.call = .register userId d.fcmToken platform → p.pc = .registered id → w₀.proc? j = some p
  fresh : w₀.fresh ≤ w.fresh
  pending : ∀ j p, w₀.fresh ≤ j → w.proc? j = some p → ∀ batch ∈ pending p.pc, d.fcmToken ∉ batch
  sent : ∃ later, w.shared.sent = w₀.shared.sent ++ later ∧
    ∀ m ∈ later, w₀.fresh ≤ m.sender → d.fcmToken ∉ m.tokens

theorem Closed.now (hd : d ∈ w.shared.devices) : Closed d w w where
  row := hd
  registered _ _ _ _ _ hp _ _ := hp
  fresh := Nat.le_refl _
  pending _ _ hj hp := absurd (World.lt_fresh hp) (Nat.not_lt.mpr hj)
  sent := ⟨[], (List.append_nil _).symm, nofun⟩

theorem closed_next {w₀ : DeviceWorld} {l : Label DeviceCall DeviceChoice DeviceEvent}
    (hdeleted : d.deletedAt ≠ none) (hw : Reachable (system firebase).system w) (h : Closed d w₀ w)
    (hn : (system firebase).next w l = some w') : Closed d w₀ w' := by
  have hok := outline.holds hw
  cases Program.move_of_next hn with
  | @spawn call s p hs =>
    cases hs
    refine ⟨h.row, fun j q id userId platform hq hcall hpc => ?_, ?_, fun j q hj hq => ?_, h.sent⟩
    · rcases World.proc?_add_cases hq with ⟨-, rfl⟩ | ⟨-, hq⟩
      · cases hpc
      · exact h.registered j q id userId platform hq hcall hpc
    · exact Nat.le_trans h.fresh (fresh_le_of_next hn)
    · rcases World.proc?_add_cases hq with ⟨-, rfl⟩ | ⟨-, hq⟩
      · exact nofun
      · exact h.pending j q hj hq
  | @step i c p p' s hp hs =>
    obtain ⟨hcall', hmove⟩ := move_of_step hs
    refine ⟨hmove.table.deleted h.row hdeleted, fun j q id userId platform hq hcall hpc => ?_, ?_,
      fun j q hj hq batch hbatch htoken => ?_, ?_⟩
    · rcases World.proc?_put_cases hp hq with ⟨rfl, rfl⟩ | ⟨-, hq⟩
      · exact absurd hpc (not_registered hok.shared (hok.proc j p hp) h.row hdeleted hmove
          (hcall'.symm.trans hcall))
      · exact h.registered j q id userId platform hq hcall hpc
    · exact Nat.le_trans h.fresh (fresh_le_of_next hn)
    · rcases World.proc?_put_cases hp hq with ⟨rfl, rfl⟩ | ⟨-, hq⟩
      · rcases hmove.pending hbatch with hbatch | ⟨userId, -, -, hbatch⟩
        · exact h.pending j p hj hp batch hbatch htoken
        · obtain ⟨e, he, -, hdevice, hlive⟩ := mem_tokensOf hbatch htoken
          obtain rfl := hok.shared.tokens e he d h.row hdevice
          exact hdeleted hlive
      · exact h.pending j q hj hq batch hbatch htoken
    · obtain ⟨later, hsent, hlater⟩ := h.sent
      rcases hmove.sent_cases with he | ⟨userId, batch, -, hbatch, he⟩
      · exact ⟨later, he.trans hsent, hlater⟩
      · refine ⟨later ++ [⟨i, userId, batch⟩], ?_, fun m hm hj => ?_⟩
        · show s.sent = _
          rw [he, hsent, List.append_assoc]
        · rcases List.mem_append.mp hm with hm | hm
          · exact hlater m hm hj
          · obtain rfl := List.mem_singleton.mp hm
            exact h.pending i p hj hp batch hbatch
  | @crash i p hp =>
    refine ⟨h.row, fun j q id userId platform hq => ?_, ?_, fun j q hj hq => ?_, h.sent⟩
    · exact h.registered j q id userId platform (World.proc?_kill_cases hq).2
    · exact Nat.le_trans h.fresh (fresh_le_of_next hn)
    · exact h.pending j q hj (World.proc?_kill_cases hq).2
  | @env e s hs =>
    have hsame : s.sent = w.shared.sent := by
      cases e <;> cases hs <;> rfl
    refine ⟨(TableMove.edited (edit_event hs)).deleted h.row hdeleted, h.registered, h.fresh,
      h.pending, ?_⟩
    obtain ⟨later, hsent, hlater⟩ := h.sent
    exact ⟨later, hsame.trans hsent, hlater⟩

/-- **A token that was unregistered is refused.** The row of an unregistered device stays as it is, no
registration of its token returns from then on, by whichever user and whenever it began, and no push of a
call that starts later is sent to the token. -/
theorem unregistered_final (h : Reachable (system firebase).system w)
    (hpath : Path (system firebase).system anyStep w w') (hd : d ∈ w.shared.devices)
    (hdeleted : d.deletedAt ≠ none) :
    d ∈ w'.shared.devices ∧
      (∀ j p id userId platform, w'.proc? j = some p → p.call = .register userId d.fcmToken platform →
        p.pc = .registered id → w.proc? j = some p) ∧
      ∃ later, w'.shared.sent = w.shared.sent ++ later ∧
        ∀ m ∈ later, w.fresh ≤ m.sender → d.fcmToken ∉ m.tokens := by
  have hclosed : Closed d w w' := hpath.stable (Q := Closed d w)
    (fun _ _ _ hw hq _ hn => closed_next hdeleted hw hq hn) h (Closed.now hd)
  exact ⟨hclosed.row, hclosed.registered, hclosed.sent⟩

def exampleDevices : List (Label DeviceCall DeviceChoice DeviceEvent) :=
  [.spawn (.register "u1" "t1" none), .step 0 {}, .step 0 {}, .spawn (.sendPush "u1"), .step 1 {},
    .step 1 {}, .spawn (.unregister "u1" 0), .step 2 {}]

theorem unregistered_final_again : ∃ (w w' : DeviceWorld) (d : Device) (message : String),
    d ∈ w.shared.devices ∧ d.fcmToken = "t1" ∧ d ∈ w'.shared.devices ∧
      w'.proc? 3 = some ⟨.register "u1" "t1" none, .thrown (.prisma "P2002" message)⟩ := by
  obtain ⟨w, w', hw, hpath, ⟨d, hd, htoken, hdeleted⟩, hthrown⟩ :=
    (system true).exists_path anyStep exampleDevices
      [.spawn (.register "u1" "t1" none), .step 3 {}, .step 3 {}]
      (fun w w' => (∃ d ∈ w.shared.devices, d.fcmToken = "t1" ∧ d.deletedAt ≠ none) ∧
        w'.proc? 3 = some ⟨.register "u1" "t1" none,
          .thrown (.prisma "P2002" "Unique constraint failed on the fields: (`fcmToken`)")⟩)
      (by decide +kernel)
  obtain ⟨hrow, -⟩ := unregistered_final hw hpath hd hdeleted
  exact ⟨w, w', d, _, hd, htoken, hrow, hthrown⟩

end BackendFoundation.Notifications.DeviceOwners
