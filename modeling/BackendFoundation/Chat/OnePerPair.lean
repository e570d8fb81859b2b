import BackendFoundation.Chat.Conversations
import BackendFoundation.Lib.UniqueIndex

/-! # One direct conversation per pair

The unique index is on the key of a direct conversation, and the key is made of the texts of the
participants. As long as a pair is always spelled with the same texts, it has at most one direct
conversation, and every call that succeeds returns it (`one_per_pair`). A text with an upper-case
digit stands for the same user and gives another key. -/

namespace BackendFoundation.Chat.OnePerPair

open Errors Lib Lib.Interleave Lib.Runs Lib.UniqueIndex Lib.UuidText Chat.DirectKeys
open Chat.Conversations
open Option (some.inj)

/-! ### Statements -/

/-- A direct conversation of these users, in an organization or in none. -/
structure LiveDirect (owner : Option Uuid) (users : List Uuid) (row : Conversation) : Prop where
  type : row.type = .direct
  live : row.deleted = false
  owner : row.organizationId = owner
  users : row.members.Perm users

/-- What a statement of a call does to the database, and where the call goes on. -/
inductive Effect (call : CreateConversation) (db : Database) : Database → CallPoint → Prop
  | reads {point : CallPoint} (h : ∀ found, point ≠ .done (.ok found)) : Effect call db db point
  | finds {row : Conversation} (hrow : row ∈ db.conversations)
      (hkey : row.directKey = call.directKey) (hlive : row.deleted = false) :
      Effect call db db (.done (.ok row.view))
  | inserts {id : Uuid} {createdAt : ℤ} {point : CallPoint}
      (hfree : call.directKey.isSome → call.directKey ∉ db.conversations.map (·.directKey))
      (hpoint : ∀ found, point = .done (.ok found) → found = (call.row id createdAt).view) :
      Effect call db
        { db with conversations := db.conversations ++ [call.row id createdAt] } point

variable {tenancy : Bool}

variable {owner : Option Uuid} {row : Conversation}

theorem find_spec {directKey : Option Text} {db : Database}
    (h : findDirectConversation tenancy owner directKey db = .ok (some row)) :
    row ∈ db.conversations ∧ row.directKey = directKey ∧ row.deleted = false := by
  unfold findDirectConversation at h
  rcases hscope : tenantScope tenancy owner "findFirst" with e | visible
  · rw [hscope] at h
    cases h
  · rw [hscope] at h
    have hfound := Except.ok.inj h
    have hcond := List.find?_some hfound
    simp only [decide_eq_true_eq] at hcond
    exact ⟨List.mem_of_find?_eq_some hfound, hcond.1, hcond.2.2.1⟩

variable {db db' : Database}

theorem create_spec {call : CreateConversation} {id : Uuid} {createdAt : ℤ}
    (h : db.create tenancy call id createdAt = .ok (row, db')) : row = call.row id createdAt ∧
      (call.directKey.isSome → call.directKey ∉ db.conversations.map (·.directKey)) ∧
      db' = { db with conversations := db.conversations ++ [call.row id createdAt] } := by
  unfold Database.create at h
  split at h
  · cases h
  · dsimp only at h
    split_ifs at h with hid hkey husers hforeign
    obtain ⟨rfl, rfl⟩ := Prod.mk.inj (Except.ok.inj h)
    exact ⟨rfl, fun hsome hmem => hkey ⟨hsome, hmem⟩, rfl⟩

theorem read_effect {call : CreateConversation} {o : Outcome DatabaseError}
    {next point : CallPoint} {failed : DatabaseError → CallPoint}
    (hfailed : ∀ e found, failed e ≠ .done (.ok found)) (hnext : Effect call db db next)
    (h : o.read db next failed = (db', point)) : Effect call db db' point := by
  obtain ⟨rfl, ⟨-, rfl⟩ | ⟨e, -, rfl⟩⟩ := Outcome.read_cases h
  · exact hnext
  · exact .reads (hfailed e)

theorem rescue_ne {call : CreateConversation} (error : Thrown) (found : ConversationView) :
    call.rescue error ≠ .done (.ok found) := by
  unfold CreateConversation.rescue
  split_ifs <;> simp

/-- What a `find` statement leads to; `missing` is where the call goes on without a row. -/
theorem find_effect {call : CreateConversation} {db : Database} {missing : CallPoint}
    (hmissing : ∀ found, missing ≠ .done (.ok found)) : Effect call db db
      (match findDirectConversation tenancy call.organizationId call.directKey db with
      | .error e => .done (.error e)
      | .ok (some row) => .done (.ok row.view)
      | .ok none => missing) := by
  split
  · exact .reads (by simp)
  · next row hfind =>
    obtain ⟨hrow, hkey, hlive⟩ := find_spec hfind
    exact .finds hrow hkey hlive
  · exact .reads hmissing

variable {state : CallState} {point : CallPoint}

/-- **The statements of a call.** -/
theorem statement_effect {reply : Reply}
    (h : state.statement tenancy db reply = some (db', point)) :
    (∀ result, state.point ≠ .done result) ∧ Effect state.call db db' point := by
  unfold CallState.statement at h
  dsimp only at h
  split at h
  · next hpoint =>
    refine ⟨by simp [hpoint], read_effect (by simp) ?_ (some.inj h)⟩
    split_ifs <;> exact .reads (by simp)
  · next hpoint =>
    exact ⟨by simp [hpoint], read_effect (by simp) (find_effect (by simp)) (some.inj h)⟩
  · next hpoint =>
    refine ⟨by simp [hpoint], ?_⟩
    split at h
    · exact read_effect (fun _ => rescue_ne _) (.reads (rescue_ne _)) (some.inj h)
    · next row dbR hcreate =>
      obtain ⟨rfl, hfree, rfl⟩ := create_spec hcreate
      rcases Outcome.run_cases (some.inj h) with ⟨-, rfl, rfl⟩ | ⟨e, -, rfl, rfl⟩ |
        ⟨e, -, rfl, rfl⟩
      · refine .inserts hfree fun found hfound => ?_
        simpa using hfound.symm
      · exact .reads (rescue_ne _)
      · exact .inserts hfree fun found hfound => absurd hfound (rescue_ne _ _)
  · next hpoint =>
    exact ⟨by simp [hpoint], read_effect (by simp) (find_effect (by simp)) (some.inj h)⟩
  · cases h

/-! ### Participants -/

variable {call : CreateConversation}

theorem hasForm_of_participant (haccepted : call.accepted = true) {text : Text}
    (htext : text ∈ call.participantIds) : HasForm isHex text := by
  rw [CreateConversation.participantIds, List.mem_eraseDups] at htext
  rcases List.mem_cons.mp htext with rfl | hmem
  · exact call.userId.hasForm_text
  · simp only [CreateConversation.accepted, decide_eq_true_eq] at haccepted
    exact hasForm_of_accepts (haccepted.2.2 text hmem)

theorem participantIds_ne_nil : call.participantIds ≠ [] := by
  have hmem : call.userId.text ∈ call.participantIds := by
    rw [CreateConversation.participantIds, List.mem_eraseDups]
    exact List.mem_cons_self
  exact List.ne_nil_of_mem hmem

theorem colon_not_mem {text : Text} (h : HasForm isHex text) : ':' ∉ text :=
  h.not_mem (by decide) (by decide)

theorem members_row (id : Uuid) (createdAt : ℤ) : (call.row id createdAt).members = call.users := by
  unfold Conversation.members CreateConversation.row CreateConversation.users
  dsimp only
  induction call.participantIds with
  | nil => rfl
  | cons text rest ih =>
    rcases htext : Uuid.ofText text with _ | userId
    · rw [List.filterMap_cons, List.filterMap_cons, htext]
      exact ih
    · rw [List.filterMap_cons, List.filterMap_cons, htext]
      simpa using ih

/-! ### The conversations -/

/-- The key of a row spells its members. -/
structure Spells (row : Conversation) (texts : List Text) : Prop where
  type : row.type = .direct
  key : row.directKey = some (directConversationKey texts row.organizationId)
  form : ∀ text ∈ texts, HasForm isHex text
  ne_nil : texts ≠ []
  members : row.members.Perm (texts.filterMap Uuid.ofText)

/-- What the statements keep of the rows. -/
structure RowsOk (rows : List Conversation) : Prop where
  unique : UniqueKeys Conversation.directKey rows
  spelled : ∀ row ∈ rows, row.directKey.isSome → ∃ texts, Spells row texts
  keyed : ∀ row ∈ rows, row.type = .direct → row.deleted = false → row.members.length = 2 →
    row.directKey.isSome
  agree : ∀ owner users, users.length = 2 → ∀ a ∈ rows, LiveDirect owner users a →
    ∀ b ∈ rows, LiveDirect owner users b → a.directKey = b.directKey

variable {rows : List Conversation}

theorem RowsOk.liveDirect (h : RowsOk rows) (hrow : row ∈ rows) (haccepted : call.accepted = true)
    (hdirect : call.type = .direct) (hkey : row.directKey = call.directKey)
    (hlive : row.deleted = false) : LiveDirect call.organizationId call.users row := by
  rw [CreateConversation.directKey, if_pos hdirect] at hkey
  obtain ⟨texts, hspells⟩ := h.spelled row hrow (by rw [hkey]; rfl)
  have hsame := some.inj (hspells.key.symm.trans hkey)
  obtain ⟨howner, hperm⟩ := perm_of_directConversationKey_eq hspells.ne_nil
    participantIds_ne_nil (fun text ht => colon_not_mem (hspells.form text ht))
    (fun text ht => colon_not_mem (hasForm_of_participant haccepted ht)) hsame
  exact ⟨hspells.type, hlive, howner, hspells.members.trans (hperm.filterMap _)⟩

theorem RowsOk.length_le_one (h : RowsOk rows) (owner : Option Uuid) {users : List Uuid}
    (husers : users.length = 2) {cond : Conversation → Bool}
    (hcond : ∀ row, cond row = true → LiveDirect owner users row) :
    (rows.filter cond).length ≤ 1 := by
  rcases hfirst : rows.filter cond with _ | ⟨first, rest⟩
  · exact Nat.zero_le _
  · obtain ⟨hmem, hc⟩ := List.mem_filter.mp (hfirst ▸ List.mem_cons_self : first ∈ rows.filter cond)
    have hlive := hcond first hc
    obtain ⟨k, hk⟩ := Option.isSome_iff_exists.mp
      (h.keyed first hmem hlive.type hlive.live (hlive.users.length_eq.trans husers))
    rw [← hfirst]
    refine h.unique.length_filter_le_one (k := k) fun row hrow hcrow => ?_
    exact (h.agree owner users husers row hrow (hcond row hcrow) first hmem hlive).trans hk

theorem RowsOk.append (h : RowsOk rows) (haccepted : call.accepted = true) (id : Uuid)
    (createdAt : ℤ) (hfree : call.directKey.isSome → call.directKey ∉ rows.map (·.directKey))
    (hagree : call.type = .direct → ∀ row ∈ rows,
      LiveDirect call.organizationId call.users row → row.directKey = call.directKey) :
    RowsOk (rows ++ [call.row id createdAt]) := by
  -- A direct conversation of the users would have the key that is free.
  have hnone : ∀ owner users, LiveDirect owner users (call.row id createdAt) →
      ∀ row ∈ rows, ¬ LiveDirect owner users row := by
    intro owner users hnew row hrow hold
    have hdirect : call.type = .direct := hnew.type
    have husers : call.users.Perm users := members_row id createdAt ▸ hnew.users
    have hkey := hagree hdirect row hrow ⟨hold.type, hold.live, hold.owner.trans hnew.owner.symm,
      hold.users.trans husers.symm⟩
    refine hfree ?_ (List.mem_map.mpr ⟨row, hrow, hkey⟩)
    rw [CreateConversation.directKey, if_pos hdirect]
    rfl
  refine ⟨h.unique.append_singleton hfree, ?_, ?_, ?_⟩
  · intro row hrow hsome
    rcases List.mem_append.mp hrow with hold | hnew
    · exact h.spelled row hold hsome
    · rw [List.mem_singleton] at hnew
      rw [hnew] at hsome ⊢
      have hkey : (call.row id createdAt).directKey = call.directKey := rfl
      rw [hkey, CreateConversation.directKey] at hsome
      split_ifs at hsome with hdirect
      · refine ⟨call.participantIds, hdirect, ?_, ?_, participantIds_ne_nil, ?_⟩
        · exact if_pos hdirect
        · exact fun text ht => hasForm_of_participant haccepted ht
        · rw [members_row]
          exact .refl _
      · cases hsome
  · intro row hrow hdirect hlive hlength
    rcases List.mem_append.mp hrow with hold | hnew
    · exact h.keyed row hold hdirect hlive hlength
    · rw [List.mem_singleton] at hnew
      rw [hnew] at hdirect ⊢
      have hkey : (call.row id createdAt).directKey = call.directKey := rfl
      have htype : call.type = .direct := hdirect
      rw [hkey, CreateConversation.directKey, if_pos htype]
      rfl
  · intro owner users hlength a ha hla b hb hlb
    rcases List.mem_append.mp ha with ha | ha <;> rcases List.mem_append.mp hb with hb | hb
    · exact h.agree owner users hlength a ha hla b hb hlb
    · rw [List.mem_singleton] at hb
      exact absurd hla (hnone owner users (hb ▸ hlb) a ha)
    · rw [List.mem_singleton] at ha
      exact absurd hlb (hnone owner users (ha ▸ hla) b hb)
    · rw [List.mem_singleton] at ha hb
      rw [ha, hb]

/-- An update that leaves the keys, the owners and the members as they are. -/
structure KeepsKey (f : Conversation → Conversation) : Prop where
  type : ∀ row, (f row).type = row.type
  key : ∀ row, (f row).directKey = row.directKey
  deleted : ∀ row, (f row).deleted = row.deleted
  owner : ∀ row, (f row).organizationId = row.organizationId
  members : ∀ row, (f row).members = row.members

variable {f : Conversation → Conversation}

theorem KeepsKey.liveDirect_iff (hf : KeepsKey f) {users : List Uuid} :
    LiveDirect owner users (f row) ↔ LiveDirect owner users row := by
  constructor
  · intro h
    exact ⟨hf.type row ▸ h.type, hf.deleted row ▸ h.live, hf.owner row ▸ h.owner,
      hf.members row ▸ h.users⟩
  · intro h
    exact ⟨(hf.type row).trans h.type, (hf.deleted row).trans h.live,
      (hf.owner row).trans h.owner, (hf.members row).symm ▸ h.users⟩

theorem RowsOk.map (h : RowsOk rows) (hf : KeepsKey f) : RowsOk (rows.map f) := by
  refine ⟨h.unique.map hf.key, ?_, ?_, ?_⟩
  · intro row hrow hsome
    obtain ⟨old, hold, rfl⟩ := List.mem_map.mp hrow
    rw [hf.key] at hsome
    obtain ⟨texts, hspells⟩ := h.spelled old hold hsome
    refine ⟨texts, (hf.type old).trans hspells.type, ?_, hspells.form, hspells.ne_nil, ?_⟩
    · rw [hf.key, hf.owner]
      exact hspells.key
    · rw [hf.members]
      exact hspells.members
  · intro row hrow hdirect hlive hlength
    obtain ⟨old, hold, rfl⟩ := List.mem_map.mp hrow
    rw [hf.key]
    rw [hf.type] at hdirect
    rw [hf.deleted] at hlive
    rw [hf.members] at hlength
    exact h.keyed old hold hdirect hlive hlength
  · intro owner users hlength a ha hla b hb hlb
    obtain ⟨olda, hmema, rfl⟩ := List.mem_map.mp ha
    obtain ⟨oldb, hmemb, rfl⟩ := List.mem_map.mp hb
    rw [hf.key, hf.key]
    exact h.agree owner users hlength olda hmema (hf.liveDirect_iff.mp hla) oldb hmemb
      (hf.liveDirect_iff.mp hlb)

/-! ### The migrated conversations -/

def migrated (row : Conversation) : Conversation :=
  { row with directKey := if row.members.length = 2 then row.pairKey else none }

theorem migrated_key {k : Text} (h : (migrated row).directKey = some k) : row.pairKey = some k := by
  unfold migrated at h
  dsimp only at h
  split_ifs at h
  exact h

theorem pairKey_eq {k : Text} (h : row.pairKey = some k) : row.type = .direct ∧ row.members ≠ [] ∧
      k = directConversationKey (row.members.map Uuid.text) row.organizationId := by
  unfold Conversation.pairKey at h
  split_ifs at h with hcond
  exact ⟨hcond.1, hcond.2.2, (some.inj h).symm⟩

theorem migrated_key_of_pair (hdirect : row.type = .direct) (hlive : row.deleted = false)
    (hlength : row.members.length = 2) : (migrated row).directKey =
      some (directConversationKey (row.members.map Uuid.text) row.organizationId) := by
  have hne : row.members ≠ [] := by
    intro hnil
    rw [hnil] at hlength
    cases hlength
  rw [migrated]
  dsimp only
  rw [if_pos hlength, Conversation.pairKey, if_pos ⟨hdirect, hlive, hne⟩]

theorem filterMap_ofText_text (ids : List Uuid) :
    (ids.map Uuid.text).filterMap Uuid.ofText = ids := by
  rw [List.filterMap_map]
  refine (List.filterMap_congr fun id _ => ?_).trans List.filterMap_some
  exact id.ofText_text

theorem rowsOk_of_backfill {legacy rows : List Conversation}
    (h : backfillDirectKeys legacy = .ok rows) : RowsOk rows := by
  unfold backfillDirectKeys at h
  split_ifs at h with hnodup
  obtain rfl : legacy.map migrated = rows := Except.ok.inj h
  refine ⟨?_, ?_, ?_, ?_⟩
  · rw [UniqueKeys, List.pairwise_map]
    refine (List.pairwise_filterMap.mp hnodup).imp ?_
    intro a b hab k ha hb
    exact hab k (migrated_key ha) k (migrated_key hb) rfl
  · intro row hrow hsome
    obtain ⟨old, hold, rfl⟩ := List.mem_map.mp hrow
    obtain ⟨k, hk⟩ := Option.isSome_iff_exists.mp hsome
    obtain ⟨hdirect, hne, rfl⟩ := pairKey_eq (migrated_key hk)
    refine ⟨old.members.map Uuid.text, hdirect, hk, ?_, by simpa using hne, ?_⟩
    · intro text htext
      obtain ⟨id, -, rfl⟩ := List.mem_map.mp htext
      exact id.hasForm_text
    · rw [filterMap_ofText_text]
      exact .refl _
  · intro row hrow hdirect hlive hlength
    obtain ⟨old, hold, rfl⟩ := List.mem_map.mp hrow
    rw [@migrated_key_of_pair old hdirect hlive hlength]
    rfl
  · intro owner users hlength a ha hla b hb hlb
    obtain ⟨olda, hmema, rfl⟩ := List.mem_map.mp ha
    obtain ⟨oldb, hmemb, rfl⟩ := List.mem_map.mp hb
    have hpair : olda.members.Perm oldb.members := hla.users.trans hlb.users.symm
    have howner : olda.organizationId = oldb.organizationId := hla.owner.trans hlb.owner.symm
    rw [@migrated_key_of_pair olda hla.type hla.live (hla.users.length_eq.trans hlength),
      @migrated_key_of_pair oldb hlb.type hlb.live (hlb.users.length_eq.trans hlength),
      howner,
      directConversationKey_congr (hpair.map Uuid.text)]

/-! ### Calls -/

def Unfailed (state : CallState) : Prop := ∀ e, state.point ≠ .done (.error e)

structure CallOk (state : CallState) (rows : List Conversation) : Prop where
  accepted : state.call.accepted = true
  pair : Unfailed state → state.call.type = .direct → state.call.participantIds.length = 2
  spelled : Unfailed state → state.call.type = .direct → ∀ row ∈ rows,
    LiveDirect state.call.organizationId state.call.users row →
    row.directKey = state.call.directKey
  found : ∀ found, state.point = .done (.ok found) → state.call.type = .direct →
    ∃ row ∈ rows, row.id = found.id ∧
      LiveDirect state.call.organizationId state.call.users row

/-- Two calls for one pair have one key. -/
def OneKey (p q : CallState) : Prop :=
  Unfailed p → Unfailed q → p.call.type = .direct → q.call.type = .direct →
    p.call.organizationId = q.call.organizationId → p.call.users.Perm q.call.users →
    p.call.directKey = q.call.directKey

variable {p q : CallState}

theorem OneKey.symm (h : OneKey p q) : OneKey q p :=
  fun hq hp hdq hdp howner hperm => (h hp hq hdp hdq howner.symm hperm.symm).symm

/-- The call spells its pair as the conversation of the pair and the earlier calls for it. -/
structure SpelledAlike (w : World Database CallState) (call : CreateConversation) : Prop where
  rows : ∀ row ∈ w.shared.conversations, LiveDirect call.organizationId call.users row →
    row.directKey = some (directConversationKey call.participantIds call.organizationId)
  calls : ∀ i state, w.proc? i = some state → Unfailed state → state.call.type = .direct →
    state.call.organizationId = call.organizationId → state.call.users.Perm call.users →
    state.call.participantIds.Perm call.participantIds

/-- Every direct call for two participants spells them alike. -/
def spellsAlike (w : World Database CallState) :
    Label CreateConversation Reply Event → Prop
  | .spawn call => call.type = .direct → call.participantIds.length = 2 → SpelledAlike w call
  | _ => True

def assertions : Assertions Database CallState where
  shared db := RowsOk db.conversations
  proc _ state db := CallOk state db.conversations
  pair _ p _ q := OneKey p q

theorem CallOk.map (h : CallOk state rows) (hf : KeepsKey f) (hid : ∀ row, (f row).id = row.id) :
    CallOk state (rows.map f) := by
  refine ⟨h.accepted, h.pair, ?_, ?_⟩
  · intro hok hdirect row hrow hlive
    obtain ⟨old, hold, rfl⟩ := List.mem_map.mp hrow
    rw [hf.key]
    exact h.spelled hok hdirect old hold (hf.liveDirect_iff.mp hlive)
  · intro found hpoint hdirect
    obtain ⟨row, hrow, hsame, hlive⟩ := h.found found hpoint hdirect
    exact ⟨f row, List.mem_map_of_mem hrow, (hid row).trans hsame, hf.liveDirect_iff.mpr hlive⟩

theorem CallOk.append (h : CallOk q rows) (hpq : OneKey p q) (hp : Unfailed p) (id : Uuid)
    (createdAt : ℤ) : CallOk q (rows ++ [p.call.row id createdAt]) := by
  refine ⟨h.accepted, h.pair, ?_, ?_⟩
  · intro hok hdirect row hrow hlive
    rcases List.mem_append.mp hrow with hold | hnew
    · exact h.spelled hok hdirect row hold hlive
    · rw [List.mem_singleton] at hnew
      rw [hnew] at hlive ⊢
      exact hpq hp hok hlive.type hdirect hlive.owner (members_row id createdAt ▸ hlive.users)
  · intro found hpoint hdirect
    obtain ⟨row, hrow, hsame⟩ := h.found found hpoint hdirect
    exact ⟨row, List.mem_append_left _ hrow, hsame⟩

/-! ### Steps -/

theorem unfailed_of_running (h : ∀ result, state.point ≠ .done result) :
    Unfailed state := fun _ => h _

theorem OneKey.move (h : OneKey p q) (hp : Unfailed p) (point : CallPoint) :
    OneKey ⟨p.call, point⟩ q := fun _ => h hp

theorem start_length (hdirect : call.type = .direct) (hunfailed : Unfailed ⟨call, call.start⟩) :
    call.participantIds.length = 2 := by
  by_contra hlength
  unfold Unfailed CreateConversation.start at hunfailed
  dsimp only at hunfailed
  split_ifs at hunfailed with hmax hpair
  · exact hunfailed _ rfl
  · exact hunfailed _ rfl
  · exact hpair ⟨hdirect, hlength⟩

theorem start_ne_found (found : ConversationView) : call.start ≠ .done (.ok found) := by
  unfold CreateConversation.start
  split_ifs <;> simp

theorem SpelledAlike.oneKey {w : World Database CallState} (h : SpelledAlike w call) {i : ℕ}
    (hi : w.proc? i = some state) (point : CallPoint) : OneKey state ⟨call, point⟩ := by
  intro hstate _ hdirect hcall howner hperm
  have htexts := h.calls i state hi hstate hdirect howner hperm
  rw [CreateConversation.directKey, CreateConversation.directKey, if_pos hdirect, if_pos hcall,
    directConversationKey_congr htexts, howner]

theorem step_ok {reply : Reply} (hrows : RowsOk db.conversations)
    (hcall : CallOk state db.conversations)
    (h : state.statement tenancy db reply = some (db', point)) :
    RowsOk db'.conversations ∧ CallOk ⟨state.call, point⟩ db'.conversations := by
  obtain ⟨hrunning, heffect⟩ := statement_effect h
  have hunfailed := unfailed_of_running hrunning
  have hpair := hcall.pair hunfailed
  have hspelled := hcall.spelled hunfailed
  cases heffect with
  | reads hpoint =>
    exact ⟨hrows, hcall.accepted, fun _ => hpair, fun _ => hspelled,
      fun found hfound => absurd hfound (hpoint found)⟩
  | @finds row hrow hkey hlive =>
    refine ⟨hrows, hcall.accepted, fun _ => hpair, fun _ => hspelled, ?_⟩
    intro found hfound hdirect
    have hview : row.view = found := by simpa using hfound
    exact ⟨row, hrow, congrArg ConversationView.id hview,
      hrows.liveDirect hrow hcall.accepted hdirect hkey hlive⟩
  | @inserts id createdAt point hfree hpoint =>
    refine ⟨hrows.append hcall.accepted id createdAt hfree hspelled, ?_⟩
    have happend := hcall.append (fun _ _ _ _ _ _ => rfl) hunfailed id createdAt
    refine ⟨hcall.accepted, fun _ => hpair, fun _ => happend.spelled hunfailed, ?_⟩
    intro found hfound hdirect
    refine ⟨state.call.row id createdAt, by simp, ?_, hdirect, rfl, rfl, ?_⟩
    · rw [hpoint found hfound, Conversation.view]
    · rw [members_row]

/-- The statement of a call keeps what holds of another call for which it is no rival. -/
theorem frame_ok {state other : CallState} {reply : Reply}
    (hother : CallOk other db.conversations) (hpair : OneKey state other)
    (h : state.statement tenancy db reply = some (db', point)) :
    CallOk other db'.conversations := by
  obtain ⟨hrunning, heffect⟩ := statement_effect h
  cases heffect with
  | reads _ => exact hother
  | finds _ _ _ => exact hother
  | inserts _ _ => exact hother.append hpair (unfailed_of_running hrunning) _ _

theorem keepsKey_numbered (id : Uuid) (lastSeq : ℕ) :
    KeepsKey (fun row => if decide (row.id = id) then { row with lastSeq := lastSeq } else row) := by
  constructor <;> intro row <;> split_ifs <;> rfl

theorem outline {db : Database} (hdb : RowsOk db.conversations) :
    Outline (program tenancy db) spellsAlike assertions where
  init := hdb
  env := by
    intro w e s h _ hs
    obtain rfl : w.shared.after e = s := some.inj hs
    cases e with
    | accounts users memberships => exact ⟨h.shared, fun j q hq => h.proc j q hq⟩
    | numbered id lastSeq =>
      have hkeeps := keepsKey_numbered id lastSeq
      refine ⟨h.shared.map hkeeps, fun j q hq => (h.proc j q hq).map hkeeps fun row => ?_⟩
      split_ifs
      · rfl
      · rfl
  spawn := by
    intro w x s p h hgood hs
    simp only [program] at hs
    split_ifs at hs with haccepted
    obtain ⟨rfl, rfl⟩ := pair_inj hs
    have halike : x.type = .direct → Unfailed ⟨x, x.start⟩ → SpelledAlike w x :=
      fun hdirect hunfailed => hgood hdirect (start_length hdirect hunfailed)
    have hrival : ∀ j q, w.proc? j = some q → OneKey q ⟨x, x.start⟩ := by
      intro j q hq hqok hxok hqdirect hxdirect
      exact (halike hxdirect hxok).oneKey hq x.start hqok hxok hqdirect hxdirect
    refine ⟨h.shared, ⟨haccepted, fun hok hdirect => start_length hdirect hok, ?_, ?_⟩, ?_⟩
    · intro hok hdirect row hrow hlive
      rw [(halike hdirect hok).rows row hrow hlive, CreateConversation.directKey, if_pos hdirect]
    · exact fun found hfound => absurd hfound (start_ne_found found)
    · exact fun j q hq => ⟨h.proc j q hq, hrival j q hq, (hrival j q hq).symm⟩
  step := by
    intro w i p c s p' h hi _ hs
    obtain ⟨point, hstatement, rfl⟩ := map_pair_inj hs
    exact step_ok h.shared (h.proc i p hi) hstatement
  frame := by
    intro w i p c s p' h hi _ hs j q hj hq
    obtain ⟨point, hstatement, rfl⟩ := map_pair_inj hs
    have hpair : OneKey p q := h.pair i j p q (Ne.symm hj) hi hq
    have hmoved := hpair.move (unfailed_of_running (statement_effect hstatement).1) point
    exact ⟨frame_ok (h.proc j q hq) hpair hstatement, hmoved.symm, hmoved⟩

/-! ### The result -/

/-- A direct conversation of two users that is not deleted. -/
def isDirectOf (owner : Option Uuid) (a b : Uuid) (row : Conversation) : Bool :=
  row.type = .direct ∧ row.deleted = false ∧ row.organizationId = owner ∧
    row.members.isPerm [a, b]

theorem isDirectOf_iff {a b : Uuid} :
    isDirectOf owner a b row = true ↔ LiveDirect owner [a, b] row := by
  simp only [isDirectOf, decide_eq_true_eq, List.isPerm_iff]
  exact ⟨fun ⟨htype, hlive, howner, husers⟩ => ⟨htype, hlive, howner, husers⟩,
    fun h => ⟨h.type, h.live, h.owner, h.users⟩⟩

/-- **One direct conversation per pair**: from a migrated database, in every run that spells a pair
alike in all its calls, a pair has at most one direct conversation, and every call that succeeds
returns it. -/
theorem one_per_pair {legacy : List Conversation} {db : Database}
    (hlegacy : backfillDirectKeys legacy = .ok db.conversations) {w : World Database CallState}
    (h : ReachableBy (program tenancy db).system spellsAlike w) (owner : Option Uuid)
    (a b : Uuid) :
    (w.shared.conversations.filter (isDirectOf owner a b)).length ≤ 1 ∧
      ∀ i state found, w.proc? i = some state → state.point = .done (.ok found) →
        state.call.type = .direct → state.call.organizationId = owner →
        state.call.users.Perm [a, b] →
        ∃ row ∈ w.shared.conversations.filter (isDirectOf owner a b), row.id = found.id := by
  have hholds := (outline (rowsOk_of_backfill hlegacy)).holds h
  have hone : (w.shared.conversations.filter (isDirectOf owner a b)).length ≤ 1 :=
    hholds.shared.length_le_one owner rfl fun _ => isDirectOf_iff.mp
  refine ⟨hone, ?_⟩
  intro i state found hi hpoint hdirect howner husers
  obtain ⟨row, hrow, hid, hlive⟩ := (hholds.proc i state hi).found found hpoint hdirect
  refine ⟨row, List.mem_filter.mpr ⟨hrow, isDirectOf_iff.mpr ?_⟩, hid⟩
  exact ⟨hlive.type, hlive.live, hlive.owner.trans howner, hlive.users.trans husers⟩

/-! ### Two users, spelled alike and otherwise -/

def exampleId (last : Char) (h : HasForm isLowerHex
    ("00000000-0000-7000-8000-00000000000".toList ++ [last])) : Uuid := ⟨_, h⟩

theorem exampleUser_form : HasForm isLowerHex
    ("00000000-0000-7000-8000-00000000000".toList ++ ['1']) := by decide

def exampleUser : Uuid := exampleId '1' exampleUser_form

def otherUser : Uuid := exampleId 'a' (by decide)

/-- The other user's id with an upper-case digit. -/
def otherText : Text := "00000000-0000-7000-8000-00000000000A".toList

def exampleDatabase : Database where
  users := [⟨exampleUser, true, false⟩, ⟨otherUser, true, false⟩]

def directCall (text : Text) : CreateConversation where
  userId := exampleUser
  type := .direct
  participantUserIds := [text]

def reply (id : Uuid) : Reply where
  id := id

def wholeCall (pid : ℕ) (text : Text) (id : Uuid) : List (Label CreateConversation Reply Event) :=
  [.spawn (directCall text), .step pid (reply id), .step pid (reply id), .step pid (reply id)]

/-- The call of the other user for the same pair. -/
def reverseCall : CreateConversation where
  userId := otherUser
  type := .direct
  participantUserIds := [exampleUser.text]

/-- Every call that starts has the texts of the rows and calls that are there. -/
def sameTexts (w : World Database CallState) : Label CreateConversation Reply Event → Prop
  | .spawn call =>
    (∀ row ∈ w.shared.conversations,
      row.directKey = some (directConversationKey call.participantIds call.organizationId)) ∧
    ∀ o ∈ w.procs, ∀ state ∈ o, state.call.participantIds.Perm call.participantIds
  | _ => True

instance (w : World Database CallState) (l : Label CreateConversation Reply Event) :
    Decidable (sameTexts w l) := by
  cases l <;> unfold sameTexts <;> infer_instance

theorem spellsAlike_of_sameTexts (w : World Database CallState)
    (l : Label CreateConversation Reply Event) (h : sameTexts w l) : spellsAlike w l := by
  cases l with
  | spawn call =>
    obtain ⟨hrows, hprocs⟩ := h
    refine fun _ _ => ⟨fun row hrow _ => hrows row hrow, fun i state hi _ _ _ _ => ?_⟩
    have hmem := List.mem_of_getElem? (Option.join_eq_some_iff.mp hi)
    exact hprocs _ hmem state rfl
  | step _ _ => trivial
  | crash _ => trivial
  | env _ => trivial

/-- The id of the conversation. -/
theorem firstId_form : HasForm isLowerHex
    ("00000000-0000-7000-8000-00000000000".toList ++ ['5']) := by decide

def firstId : Uuid := exampleId '5' firstId_form

/-- Both users create the conversation of the pair at once. Neither finds one, and the insert of the
second meets the row of the first. A third call finds it. -/
def bothCalls : List (Label CreateConversation Reply Event) :=
  let first := reply firstId
  let second := reply (exampleId '6' (by decide))
  let third := reply (exampleId '7' (by decide))
  [.spawn (directCall otherUser.text), .spawn reverseCall, .step 0 first, .step 1 second,
    .step 0 first, .step 1 second, .step 0 first, .step 1 second, .step 1 second,
    .spawn (directCall otherUser.text), .step 2 third, .step 2 third]

/-- A call for the pair has returned the conversation `id`. -/
def returnsDirect (w : World Database CallState) (i : ℕ) (id : Uuid) : Bool :=
  match w.proc? i with
  | some ⟨call, .done (.ok found)⟩ =>
    call.type = .direct ∧ call.organizationId = none ∧
      call.users.isPerm [exampleUser, otherUser] ∧ found.id = id
  | _ => false

theorem exists_of_returnsDirect {w : World Database CallState} {i : ℕ} {id : Uuid}
    (h : returnsDirect w i id = true) : ∃ state found, w.proc? i = some state ∧
      state.point = .done (.ok found) ∧ state.call.type = .direct ∧
      state.call.organizationId = none ∧ state.call.users.Perm [exampleUser, otherUser] ∧
      found.id = id := by
  unfold returnsDirect at h
  split at h
  · next call found hproc =>
    obtain ⟨htype, howner, husers, hid⟩ := of_decide_eq_true h
    exact ⟨_, found, hproc, rfl, htype, howner, List.isPerm_iff.mp husers, hid⟩
  · cases h

theorem one_conversation_example : ∃ w,
    ReachableBy (program false exampleDatabase).system spellsAlike w ∧
    (∀ i ∈ [0, 1, 2], returnsDirect w i firstId = true) ∧
    (w.shared.conversations.filter (isDirectOf none exampleUser otherUser)).length ≤ 1 ∧
    ∀ i ∈ [0, 1, 2], ∃ state found, w.proc? i = some state ∧ state.point = .done (.ok found) ∧
      ∃ row ∈ w.shared.conversations.filter (isDirectOf none exampleUser otherUser),
        row.id = found.id := by
  obtain ⟨w, hw, hreturned⟩ := (program false exampleDatabase).exists_reached sameTexts bothCalls
    (fun w => [0, 1, 2].all (returnsDirect w · firstId) = true) (by decide +kernel)
  rw [List.all_eq_true] at hreturned
  have hspelled := hw.mono spellsAlike_of_sameTexts
  obtain ⟨hone, hfound⟩ := @one_per_pair _ [] _ rfl _ hspelled none exampleUser otherUser
  refine ⟨w, hspelled, hreturned, hone, fun i hi => ?_⟩
  obtain ⟨state, found, hproc, hpoint, htype, howner, husers, -⟩ :=
    exists_of_returnsDirect (hreturned i hi)
  exact ⟨state, found, hproc, hpoint, hfound i state found hproc hpoint htype howner husers⟩

/-- Two calls of which the second spells a user in upper case. -/
theorem second_direct_conversation : ∃ w,
    Reachable (program false exampleDatabase).system w ∧
    (w.shared.conversations.filter (isDirectOf none exampleUser otherUser)).length = 2 :=
  (program false exampleDatabase).exists_reached anyStep
    (wholeCall 0 otherUser.text (exampleId '5' (by decide)) ++
      wholeCall 1 otherText (exampleId '6' (by decide)))
    (fun w => (w.shared.conversations.filter (isDirectOf none exampleUser otherUser)).length = 2)
    (by decide +kernel)

end BackendFoundation.Chat.OnePerPair
