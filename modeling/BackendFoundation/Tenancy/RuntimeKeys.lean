import BackendFoundation.Lib.UniqueIndex
import BackendFoundation.Tenancy.Backfill

/-! # The keys after the backfill

The quota and conversation keys that the application wrote without an organization become the keys
that it would write in the organization of the backfill, and stay unique (`backfill_agrees`). A
second backfill changes no key and no owner. -/

namespace BackendFoundation.Tenancy.RuntimeKeys

open Errors Lib.Rows Lib.UniqueIndex Lib.UuidText Audit.Integrity Chat.DirectKeys Tenancy.Backfill

/-! ### Updates under a unique index -/

section Updates

variable {α κ : Type}

/-- No update meets the new key of an earlier row or the old key of a later one. -/
def KeysStayApart (key : α → Option κ) (data : α → α) (rows : List α) : Prop :=
  rows.Pairwise fun a b => Apart (key (data a)) (key (data b)) ∧ Apart (key (data a)) (key b)

variable {key : α → Option κ} {data : α → α}

/-- Keys that were unique are unique after an update that leaves every row as it is. -/
theorem keysStayApart_of_fixed {rows : List α} (hunique : UniqueKeys key rows)
    (hfixed : ∀ row ∈ rows, data row = row) : KeysStayApart key data rows := by
  refine hunique.imp_of_mem ?_
  intro a b ha hb hab
  rw [hfixed a ha, hfixed b hb]
  exact ⟨hab, hab⟩

theorem KeysStayApart.uniqueKeys {rows : List α} (h : KeysStayApart key data rows) :
    UniqueKeys key (rows.map data) := by
  rw [UniqueKeys, List.pairwise_map]
  exact h.imp And.left

variable [DecidableEq κ] {violation : Thrown}

theorem updateEach_ok {rows : List α} (hrows : KeysStayApart key data rows) (done : List α)
    (hdone : ∀ d ∈ done, ∀ row ∈ rows, Apart (key d) (key (data row))) :
    updateEach key data violation done rows = .ok (done ++ rows.map data) := by
  induction rows generalizing done with
  | nil => simp [updateEach]
  | cons row rest ih =>
    obtain ⟨hrow, hrest⟩ := List.pairwise_cons.mp hrows
    have hfree : ¬ ((key (data row)).isSome ∧ key (data row) ∈ (done ++ rest).map key) := by
      rintro ⟨hsome, hmem⟩
      obtain ⟨k, hk⟩ := Option.isSome_iff_exists.mp hsome
      obtain ⟨other, hother, hkey⟩ := List.mem_map.mp hmem
      rcases List.mem_append.mp hother with hbefore | hafter
      · exact hdone other hbefore row List.mem_cons_self k (hkey.trans hk) hk
      · exact (hrow other hafter).2 k hk (hkey.trans hk)
    rw [updateEach, if_neg hfree, ih hrest]
    · simp
    · intro d hd later hlater
      rcases List.mem_append.mp hd with hbefore | hself
      · exact hdone d hbefore later (List.mem_cons_of_mem _ hlater)
      · rw [List.mem_singleton] at hself
        rw [hself]
        exact (hrow later hlater).1

theorem eq_of_updateEach_ok {rows rows' : List α} (done : List α)
    (h : updateEach key data violation done rows = .ok rows') : rows' = done ++ rows.map data := by
  induction rows generalizing done with
  | nil =>
    rw [updateEach] at h
    simpa using (Except.ok.inj h).symm
  | cons row rest ih =>
    rw [updateEach] at h
    split_ifs at h
    simpa using ih _ h

end Updates

/-! ### The application without tenancy -/

/-- The `create` of `chargeQuota`. -/
def createUsage (organizationId : Option Uuid) (userId : Uuid) (periodStart : ℤ) (increment : ℕ)
    (db : Database) : Except Thrown Database :=
  let row : BandwidthRow :=
    ⟨organizationId, userId, uploadQuotaScopeKey organizationId userId, periodStart, increment⟩
  if row.key ∈ db.bandwidth.map BandwidthRow.key then
    .error (uniqueViolation "scopeKey,periodStart")
  else .ok { db with bandwidth := db.bandwidth ++ [row] }

/-- The conditional increment of `chargeQuota`. -/
def incrementUsage (organizationId : Option Uuid) (userId : Uuid) (periodStart : ℤ)
    (increment maximum : ℕ) (db : Database) : Database :=
  { db with
    bandwidth := updateWhere db.bandwidth
      (fun row => row.scopeKey = uploadQuotaScopeKey organizationId userId ∧
        row.periodStart = periodStart ∧ row.bytes + increment ≤ maximum)
      fun row => { row with bytes := row.bytes + increment } }

/-- The `create` of `createConversation`. -/
def createConversation (organizationId : Option Uuid) (id : Uuid) (type : ConversationType)
    (participantIds : List Text) (db : Database) : Except Thrown Database :=
  let directKey :=
    if type = .direct then some (directConversationKey participantIds organizationId) else none
  if directKey.isSome ∧ directKey ∈ db.conversations.map (·.directKey) then
    .error (uniqueViolation "directKey")
  else .ok { db with conversations := db.conversations ++ [⟨id, type, organizationId, directKey⟩] }

/-- A statement of the application in disabled mode. Every other statement leaves the two tables
as they are, but for rows that it deletes. -/
inductive Statement : Database → Database → Prop
  | createUsage {db db' : Database} (userId : Uuid) (periodStart : ℤ) (increment : ℕ)
      (h : createUsage none userId periodStart increment db = .ok db') : Statement db db'
  | incrementUsage {db : Database} (userId : Uuid) (periodStart : ℤ) (increment maximum : ℕ) :
      Statement db (incrementUsage none userId periodStart increment maximum db)
  | createConversation {db db' : Database} (id : Uuid) (type : ConversationType)
      (participantIds : List Text)
      (h : createConversation none id type participantIds db = .ok db') : Statement db db'
  | other {db db' : Database} (hbandwidth : db'.bandwidth.Sublist db.bandwidth)
      (hconversations : db'.conversations.Sublist db.conversations) : Statement db db'

/-- A database that the application has built in disabled mode. -/
inductive Built : Database → Prop
  | empty {db : Database} (hbandwidth : db.bandwidth = []) (hconversations : db.conversations = []) :
      Built db
  | statement {db db' : Database} (hbuilt : Built db) (h : Statement db db') : Built db'

/-- The row that the application writes for a user without an organization. -/
def BandwidthRow.IsGlobal (row : BandwidthRow) : Prop :=
  row.organizationId = none ∧ row.scopeKey = uploadQuotaScopeKey none row.userId

def Conversation.IsGlobal (row : Conversation) : Prop :=
  row.organizationId = none ∧ ∀ key ∈ row.directKey, row.type = .direct ∧
    ∃ participantIds, key = directConversationKey participantIds none

/-- What the application keeps of the two tables. -/
structure GlobalKeys (db : Database) : Prop where
  bandwidth : ∀ row ∈ db.bandwidth, BandwidthRow.IsGlobal row
  bandwidth_unique : UniqueKeys BandwidthRow.key db.bandwidth
  conversations : ∀ row ∈ db.conversations, Conversation.IsGlobal row
  conversations_unique : UniqueKeys Conversation.directKey db.conversations

variable {db db' : Database}

theorem createConversation_ok {organizationId : Option Uuid} {id : Uuid} {type : ConversationType}
    {participantIds : List Text}
    (h : createConversation organizationId id type participantIds db = .ok db') : ∃ directKey,
      directKey = (if type = .direct then
        some (directConversationKey participantIds organizationId) else none) ∧
      (directKey.isSome → directKey ∉ db.conversations.map (·.directKey)) ∧
      db' = { db with
        conversations := db.conversations ++ [⟨id, type, organizationId, directKey⟩] } := by
  unfold createConversation at h
  dsimp only at h
  generalize hkey : (if type = ConversationType.direct then
    some (directConversationKey participantIds organizationId) else none) = directKey at h
  split_ifs at h with htaken
  exact ⟨directKey, rfl, fun hsome hmem => htaken ⟨hsome, hmem⟩, (Except.ok.inj h).symm⟩

theorem GlobalKeys.statement (hdb : GlobalKeys db) (h : Statement db db') : GlobalKeys db' := by
  cases h with
  | createUsage userId periodStart increment h =>
    unfold createUsage at h
    dsimp only at h
    split_ifs at h with hfree
    obtain rfl := Except.ok.inj h
    refine ⟨?_, hdb.bandwidth_unique.append_singleton fun _ => hfree,
      hdb.conversations, hdb.conversations_unique⟩
    intro row hrow
    rcases List.mem_append.mp hrow with hold | hnew
    · exact hdb.bandwidth row hold
    · rw [List.mem_singleton] at hnew
      rw [hnew]
      exact ⟨rfl, rfl⟩
  | incrementUsage userId periodStart increment maximum =>
    refine ⟨?_, hdb.bandwidth_unique.map fun row => ?_, hdb.conversations,
      hdb.conversations_unique⟩
    · intro row hrow
      rcases updateWhere_cases hrow with hold | ⟨old, hold, -, rfl⟩
      · exact hdb.bandwidth row hold
      · exact hdb.bandwidth old hold
    · split_ifs <;> rfl
  | createConversation id type participantIds h =>
    obtain ⟨directKey, hkey, hfree, rfl⟩ := createConversation_ok h
    refine ⟨hdb.bandwidth, hdb.bandwidth_unique, ?_,
      hdb.conversations_unique.append_singleton hfree⟩
    intro row hrow
    rcases List.mem_append.mp hrow with hold | hnew
    · exact hdb.conversations row hold
    · rw [List.mem_singleton] at hnew
      rw [hnew]
      refine ⟨rfl, fun key hmem => ?_⟩
      dsimp only at hmem ⊢
      rw [hkey] at hmem
      split_ifs at hmem with hdirect
      · exact ⟨hdirect, participantIds, (Option.mem_some.mp hmem).symm⟩
      · cases hmem
  | other hbandwidth hconversations =>
    exact ⟨fun row hrow => hdb.bandwidth row (hbandwidth.subset hrow),
      hdb.bandwidth_unique.sublist hbandwidth,
      fun row hrow => hdb.conversations row (hconversations.subset hrow),
      hdb.conversations_unique.sublist hconversations⟩

theorem Built.globalKeys {db : Database} (h : Built db) : GlobalKeys db := by
  induction h with
  | empty hbandwidth hconversations =>
    refine ⟨?_, ?_, ?_, ?_⟩
    · simp [hbandwidth]
    · simp [hbandwidth, UniqueKeys]
    · simp [hconversations]
    · simp [hconversations, UniqueKeys]
  | statement hbuilt h ih => exact ih.statement h

/-! ### The keys in the organization -/

theorem uploadQuotaScopeKey_none (userId : Uuid) :
    uploadQuotaScopeKey none userId = "user:".toList ++ userId.text := rfl

theorem uploadQuotaScopeKey_some (organizationId userId : Uuid) :
    uploadQuotaScopeKey (some organizationId) userId =
      "organization:".toList ++ organizationId.text ++ ":user:".toList ++ userId.text := rfl

theorem uploadQuotaScopeKey_injective (organizationId : Option Uuid) :
    Function.Injective (uploadQuotaScopeKey organizationId) := by
  intro a b h
  refine Uuid.text_injective ?_
  cases organizationId with
  | none =>
    rw [uploadQuotaScopeKey_none, uploadQuotaScopeKey_none] at h
    exact List.append_cancel_left h
  | some organizationId =>
    rw [uploadQuotaScopeKey_some, uploadQuotaScopeKey_some] at h
    exact List.append_cancel_left h

theorem uploadQuotaScopeKey_some_ne (organizationId a b : Uuid) :
    uploadQuotaScopeKey (some organizationId) a ≠ uploadQuotaScopeKey none b := by
  intro h
  have hsome : "organization:".toList = 'o' :: "rganization:".toList := by decide
  have hnone : "user:".toList = 'u' :: "ser:".toList := by decide
  rw [uploadQuotaScopeKey_some, uploadQuotaScopeKey_none, hsome, hnone] at h
  exact absurd (List.cons.inj h).1 (by decide)

theorem rekey_bandwidth {row : BandwidthRow} (hrow : BandwidthRow.IsGlobal row)
    (organizationId : Uuid) : (row.claim organizationId).rekey organizationId =
      { row with
        organizationId := some organizationId
        scopeKey := uploadQuotaScopeKey (some organizationId) row.userId } := by
  obtain ⟨hnone, -⟩ := hrow
  rw [BandwidthRow.claim, hnone, Option.none_or, BandwidthRow.rekey, if_pos rfl,
    uploadQuotaScopeKey_some]

theorem bandwidth_keysStayApart {rows : List BandwidthRow}
    (hrows : ∀ row ∈ rows, BandwidthRow.IsGlobal row) (hunique : UniqueKeys BandwidthRow.key rows)
    (organizationId : Uuid) :
    KeysStayApart BandwidthRow.key (BandwidthRow.rekey organizationId)
      (rows.map (·.claim organizationId)) := by
  rw [KeysStayApart, List.pairwise_map]
  refine hunique.imp_of_mem ?_
  intro a b ha hb hab
  rw [rekey_bandwidth (hrows a ha), rekey_bandwidth (hrows b hb)]
  refine ⟨apart_some.mpr fun hkey => ?_, apart_some.mpr fun hkey => ?_⟩
  · obtain ⟨hscope, hperiod⟩ := Prod.mk.inj hkey
    have huser := uploadQuotaScopeKey_injective (some organizationId) hscope
    refine apart_some.mp hab (Prod.ext ?_ hperiod)
    rw [(hrows a ha).2, (hrows b hb).2, huser]
  · have hscope := (Prod.mk.inj hkey).1
    dsimp only [BandwidthRow.claim] at hscope
    rw [(hrows b hb).2] at hscope
    exact uploadQuotaScopeKey_some_ne _ _ _ hscope

theorem directConversationKey_some (participantIds : List Text) (organizationId : Uuid) :
    organizationId.text ++ (directConversationKey participantIds none).drop 6 =
      directConversationKey participantIds (some organizationId) := rfl

theorem rekey_conversation {row : Conversation} (hrow : Conversation.IsGlobal row)
    (organizationId : Uuid) : (row.claim organizationId).rekey organizationId =
      { row with
        organizationId := some organizationId
        directKey := row.directKey.map fun key => organizationId.text ++ key.drop 6 } := by
  obtain ⟨hnone, hkeys⟩ := hrow
  rcases hkey : row.directKey with _ | key
  · simp [Conversation.claim, Conversation.rekey, hnone, hkey]
  · obtain ⟨hdirect, participantIds, rfl⟩ := hkeys key hkey
    have hprefix : "global:".toList.isPrefixOf (directConversationKey participantIds none) := by
      simp [directConversationKey, ownerText]
    simp only [Conversation.claim, Conversation.rekey, hnone, hkey, Option.none_or, Option.map_some,
      hdirect, hprefix, and_self, if_true]

theorem conversations_keysStayApart {rows : List Conversation}
    (hrows : ∀ row ∈ rows, Conversation.IsGlobal row)
    (hunique : UniqueKeys Conversation.directKey rows) (organizationId : Uuid) :
    KeysStayApart Conversation.directKey (Conversation.rekey organizationId)
      (rows.map (·.claim organizationId)) := by
  rw [KeysStayApart, List.pairwise_map]
  refine hunique.imp_of_mem ?_
  intro a b ha hb hab
  rw [rekey_conversation (hrows a ha), rekey_conversation (hrows b hb)]
  refine ⟨?_, ?_⟩
  · intro k hka hkb
    obtain ⟨keya, ha', rfl⟩ := Option.map_eq_some_iff.mp hka
    obtain ⟨keyb, hb', hkey⟩ := Option.map_eq_some_iff.mp hkb
    obtain ⟨-, ids, rfl⟩ := (hrows a ha).2 keya ha'
    obtain ⟨-, ids', rfl⟩ := (hrows b hb).2 keyb hb'
    refine hab _ ha' (hb'.trans (congrArg some ?_))
    have htail := List.append_cancel_left hkey
    exact congrArg ("global".toList ++ ·) htail
  · intro k hka hkb
    obtain ⟨keya, ha', rfl⟩ := Option.map_eq_some_iff.mp hka
    dsimp only [Conversation.claim] at hkb
    obtain ⟨-, ids, hids⟩ := (hrows b hb).2 _ hkb
    have hmem : 'g' ∈ organizationId.text := by
      have hhead := congrArg List.head? hids
      have hne : organizationId.text ≠ [] := fun h => by
        have hlength := organizationId.length_text
        rw [h] at hlength
        cases hlength
      rw [List.head?_append_of_ne_nil _ hne] at hhead
      exact List.mem_of_mem_head? hhead
    exact organizationId.not_mem_text (by decide) (by decide) hmem

/-! ### The backfill -/

variable {H : Hmac} {cfg : AuditConfig}

/-- The rows of the two tables in the organization, row by row. -/
structure KeysMoved (organizationId : Uuid) (before after : Database) : Prop where
  bandwidth : List.Forall₂ (fun old new =>
      new = { old with
        organizationId := some organizationId
        scopeKey := uploadQuotaScopeKey (some organizationId) old.userId })
    before.bandwidth after.bandwidth
  bandwidth_unique : UniqueKeys BandwidthRow.key after.bandwidth
  conversations : List.Forall₂ (fun old new =>
      new.id = old.id ∧ new.type = old.type ∧ new.organizationId = some organizationId ∧
      ∀ participantIds, old.type = .direct →
        old.directKey = some (directConversationKey participantIds none) →
        new.directKey = some (directConversationKey participantIds (some organizationId)))
    before.conversations after.conversations
  conversations_unique : UniqueKeys Conversation.directKey after.conversations

/-- The tables of which the backfill writes only the owner. -/
def ownedTables (db : Database) : List (List OwnedRow) :=
  [db.uploads, db.chargeableItems, db.conversationParticipants, db.messages,
    db.notificationDeliveries]

/-- The two databases have the same keys and the same owners. -/
structure SameKeysAndOwners (before after : Database) : Prop where
  bandwidth : after.bandwidth = before.bandwidth
  conversations : after.conversations = before.conversations
  sessions : after.sessions = before.sessions
  owned : ownedTables after = ownedTables before
  auditEvents : after.auditEvents = before.auditEvents

theorem assign_of_globalKeys {db : Database} (hdb : GlobalKeys db) (organizationId roleId : Uuid) :
    ∃ db', assign H cfg organizationId roleId db = .ok db' ∧ KeysMoved organizationId db db' := by
  have hbandwidth := bandwidth_keysStayApart hdb.bandwidth hdb.bandwidth_unique organizationId
  have hconversations :=
    conversations_keysStayApart hdb.conversations hdb.conversations_unique organizationId
  have hupdate := @updateEach_ok _ _ _ _ _ (uniqueViolation "scopeKey,periodStart") _ hbandwidth []
    (by simp)
  have hupdate' := @updateEach_ok _ _ _ _ _ (uniqueViolation "directKey") _ hconversations []
    (by simp)
  rw [List.nil_append] at hupdate hupdate'
  unfold assign
  rw [hupdate, hupdate']
  refine ⟨_, rfl, ?_, hbandwidth.uniqueKeys, ?_, hconversations.uniqueKeys⟩
  · rw [List.forall₂_map_right_iff, List.forall₂_map_right_iff, List.forall₂_same]
    intro row hrow
    exact rekey_bandwidth (hdb.bandwidth row hrow) organizationId
  · rw [List.forall₂_map_right_iff, List.forall₂_map_right_iff, List.forall₂_same]
    intro row hrow
    rw [rekey_conversation (hdb.conversations row hrow)]
    refine ⟨rfl, rfl, rfl, fun participantIds _ hkey => ?_⟩
    dsimp only
    rw [hkey, Option.map_some, directConversationKey_some]

/-- Nothing is left for a backfill to assign. -/
structure Assigned (db : Database) : Prop where
  bandwidth : ∀ row ∈ db.bandwidth, ∃ organizationId, row.organizationId = some organizationId ∧
    row.scopeKey = uploadQuotaScopeKey (some organizationId) row.userId
  bandwidth_unique : UniqueKeys BandwidthRow.key db.bandwidth
  conversations : ∀ row ∈ db.conversations, row.organizationId ≠ none ∧
    ∀ key ∈ row.directKey, "global:".toList.isPrefixOf key = false
  conversations_unique : UniqueKeys Conversation.directKey db.conversations
  sessions : ∀ session ∈ db.sessions,
    session.deleted = true ∨ session.activeOrganizationId ≠ none
  owned : ∀ table ∈ ownedTables db, ∀ row ∈ table, row.organizationId ≠ none
  auditEvents : ∀ event ∈ db.auditEvents, event.organizationId ≠ none

theorem or_ne_none {α : Type} (o : Option α) (x : α) : o.or (some x) ≠ none := by
  cases o <;> simp

theorem or_of_ne_none {α : Type} {o : Option α} (h : o ≠ none) (x : α) : o.or (some x) = o := by
  cases o with
  | none => exact absurd rfl h
  | some y => rfl

theorem not_global_key (organizationId : Uuid) (rest : Text) :
    "global:".toList.isPrefixOf (organizationId.text ++ rest) = false := by
  refine Bool.eq_false_iff.mpr fun hprefix => ?_
  obtain ⟨tail, htail⟩ := List.isPrefixOf_iff_prefix.mp hprefix
  have hne : organizationId.text ≠ [] := by
    intro h
    have hlength := organizationId.length_text
    rw [h] at hlength
    cases hlength
  have hglobal : "global:".toList = 'g' :: "lobal:".toList := by decide
  have hhead := congrArg List.head? htail
  rw [List.head?_append_of_ne_nil _ hne, hglobal] at hhead
  exact organizationId.not_mem_text (by decide) (by decide) (List.mem_of_mem_head? hhead.symm)

theorem assigned_of_assign (hdb : GlobalKeys db) {organizationId roleId : Uuid}
    (h : assign H cfg organizationId roleId db = .ok db') : Assigned db' := by
  obtain ⟨moved, hmoved, hkeys⟩ := @assign_of_globalKeys H cfg _ hdb organizationId roleId
  obtain rfl : db' = moved := Except.ok.inj (h.symm.trans hmoved)
  obtain ⟨bandwidth, conversations, hbandwidth, hconversations, rfl⟩ := assign_ok h
  have hrows := eq_of_updateEach_ok [] hbandwidth
  have hrows' := eq_of_updateEach_ok [] hconversations
  rw [List.nil_append, List.map_map] at hrows hrows'
  refine ⟨?_, hkeys.bandwidth_unique, ?_, hkeys.conversations_unique, ?_, ?_, ?_⟩
  · intro row hrow
    rw [hrows] at hrow
    obtain ⟨old, hold, rfl⟩ := List.mem_map.mp hrow
    rw [Function.comp_apply, rekey_bandwidth (hdb.bandwidth old hold)]
    exact ⟨organizationId, rfl, rfl⟩
  · intro row hrow
    rw [hrows'] at hrow
    obtain ⟨old, hold, rfl⟩ := List.mem_map.mp hrow
    rw [Function.comp_apply, rekey_conversation (hdb.conversations old hold)]
    refine ⟨Option.some_ne_none _, fun key hkey => ?_⟩
    obtain ⟨oldKey, -, rfl⟩ := Option.map_eq_some_iff.mp hkey
    exact not_global_key _ _
  · intro session hsession
    obtain ⟨old, -, rfl⟩ := List.mem_map.mp hsession
    unfold Session.claim
    split_ifs with hdeleted
    · exact .inl hdeleted
    · exact .inr (or_ne_none _ _)
  · intro table htable row hrow
    simp only [ownedTables, List.mem_cons, List.not_mem_nil, or_false] at htable
    rcases htable with rfl | rfl | rfl | rfl | rfl <;>
    · obtain ⟨old, -, rfl⟩ := List.mem_map.mp hrow
      exact or_ne_none _ _
  · intro event hevent
    obtain ⟨old, -, rfl⟩ := List.mem_map.mp hevent
    unfold resign
    split_ifs with hnone
    · exact Option.some_ne_none _
    · exact hnone

theorem map_eq_self {α : Type} {rows : List α} {f : α → α} (h : ∀ row ∈ rows, f row = row) :
    rows.map f = rows := (List.map_congr_left h).trans (List.map_id _)

theorem Assigned.assign {db : Database} (hdb : Assigned db) (organizationId roleId : Uuid) :
    ∃ db', assign H cfg organizationId roleId db = .ok db' ∧ SameKeysAndOwners db db' := by
  have hbandwidth : ∀ row ∈ db.bandwidth,
      row.claim organizationId = row ∧ row.rekey organizationId = row := by
    intro row hrow
    obtain ⟨owner, howner, hscope⟩ := hdb.bandwidth row hrow
    refine ⟨?_, ?_⟩
    · rw [BandwidthRow.claim, howner, Option.some_or, ← howner]
    · unfold BandwidthRow.rekey
      split_ifs with hsame
      · obtain rfl := Option.some.inj (howner.symm.trans hsame)
        rw [← uploadQuotaScopeKey_some, ← hscope]
      · rfl
  have hconversations : ∀ row ∈ db.conversations,
      row.claim organizationId = row ∧ row.rekey organizationId = row := by
    intro row hrow
    obtain ⟨hsome, hkeys⟩ := hdb.conversations row hrow
    refine ⟨?_, ?_⟩
    · rw [Conversation.claim, or_of_ne_none hsome]
    · unfold Conversation.rekey
      split
      · rfl
      · next key hkey =>
        refine if_neg ?_
        rintro ⟨-, -, hprefix⟩
        rw [hkeys key hkey] at hprefix
        cases hprefix
  have hupdate := @updateEach_ok _ _ _ _ _
    (uniqueViolation "scopeKey,periodStart") _
    (keysStayApart_of_fixed hdb.bandwidth_unique fun row hrow => (hbandwidth row hrow).2) []
    (by simp)
  have hupdate' := @updateEach_ok _ _ _ _ _ (uniqueViolation "directKey") _
    (keysStayApart_of_fixed hdb.conversations_unique fun row hrow => (hconversations row hrow).2)
    [] (by simp)
  rw [List.nil_append, map_eq_self fun row hrow => (hbandwidth row hrow).2] at hupdate
  rw [List.nil_append, map_eq_self fun row hrow => (hconversations row hrow).2] at hupdate'
  have howned : ∀ table ∈ ownedTables db, table.map (·.claim organizationId) = table :=
    fun table htable => map_eq_self fun row hrow => by
      rw [OwnedRow.claim, or_of_ne_none (hdb.owned table htable row hrow)]
  unfold Backfill.assign
  rw [map_eq_self fun row hrow => (hbandwidth row hrow).1,
    map_eq_self fun row hrow => (hconversations row hrow).1, hupdate, hupdate']
  refine ⟨_, rfl, rfl, rfl, map_eq_self ?_, @map_eq_self _ (ownedTables db) _ howned,
    map_eq_self ?_⟩
  · intro session hsession
    unfold Session.claim
    split_ifs with hdeleted
    · rfl
    · have hsome := (hdb.sessions session hsession).resolve_left hdeleted
      rw [or_of_ne_none hsome]
  · intro event hevent
    rw [resign, if_neg (hdb.auditEvents event hevent)]

/-! ### A second backfill -/

theorem find?_append_of_none {α : Type} {rows : List α} {cond : α → Bool} {row : α}
    (h : rows.find? cond = none) (hrow : cond row = true) :
    (rows ++ [row]).find? cond = some row := by
  rw [List.find?_append, h, List.find?_cons_of_pos hrow]
  rfl

variable {args : Arguments}

theorem existingOrganization_congr {a b : Database} (h : a.organizations = b.organizations) :
    existingOrganization args a = existingOrganization args b := by
  unfold existingOrganization
  rw [h]

theorem existingOrganization_again {newId : Uuid} {db dbO : Database}
    {organization : Organization} (h : targetOrganization args newId db = .ok (organization, dbO)) :
    existingOrganization args dbO = .ok (some organization) := by
  unfold targetOrganization at h
  split at h
  · cases h
  · next found hfound =>
    obtain ⟨rfl, rfl⟩ := Prod.mk.inj (Except.ok.inj h)
    exact hfound
  · next hnone =>
    dsimp only at h
    split_ifs at h with htaken
    obtain ⟨rfl, rfl⟩ := Prod.mk.inj (Except.ok.inj h)
    unfold existingOrganization at hnone ⊢
    rcases hid : args.organizationId.filter (· ≠ []) with _ | text
    · rw [hid] at hnone
      exact congrArg Except.ok (find?_append_of_none (Except.ok.inj hnone) (by simp))
    · rw [hid] at hnone
      rcases huuid : Uuid.ofText text with _ | id
      · simp only [huuid, reduceCtorEq] at hnone
      · simp only [huuid] at hnone ⊢
        exact congrArg Except.ok (find?_append_of_none (Except.ok.inj hnone) (by simp [huuid]))

theorem backfill_of_assign {newId : Uuid} {db dbO : Database} {organization : Organization}
    {role : Role} (happly : args.apply = true)
    (htarget : targetOrganization args newId db = .ok (organization, dbO))
    (hrole : memberRole dbO = some role) :
    backfill H cfg .disabled args newId db = assign H cfg organization.id role.id dbO := by
  rw [backfill, if_neg (fun h => h rfl), if_neg (by rw [happly]; exact Bool.noConfusion), htarget]
  dsimp only
  rw [hrole]

theorem Assigned.backfill {mode : TenancyMode} {newId : Uuid} (hdb : Assigned db)
    (h : backfill H cfg mode args newId db = .ok db') : SameKeysAndOwners db db' := by
  rcases backfill_ok h with ⟨-, rfl⟩ | ⟨-, organization, dbO, role, htarget, -, hassign⟩
  · exact ⟨rfl, rfl, rfl, rfl, rfl⟩
  · have hkept := targetOrganization_ok htarget
    have hdbO : Assigned dbO := by
      rw [hkept]
      exact ⟨hdb.1, hdb.2, hdb.3, hdb.4, hdb.5, hdb.6, hdb.7⟩
    obtain ⟨same, hsame, hkeys⟩ := @Assigned.assign H cfg _ hdbO organization.id role.id
    obtain rfl : db' = same := Except.ok.inj (hassign.symm.trans hsame)
    rw [hkept] at hkeys
    exact ⟨hkeys.1, hkeys.2, hkeys.3, hkeys.4, hkeys.5⟩

/-- **The backfill agrees with the runtime keys**: from a database of the application in disabled
mode, an applied backfill commits, its keys are those of the application in the organization and
unique, and applied again it commits and changes no key and no owner; neither does a backfill of
any other arguments. -/
theorem backfill_agrees {args : Arguments} {newId : Uuid} {db dbO : Database}
    {organization : Organization} {role : Role} (hbuilt : Built db) (happly : args.apply = true)
    (htarget : targetOrganization args newId db = .ok (organization, dbO))
    (hrole : memberRole dbO = some role) :
    ∃ db', backfill H cfg .disabled args newId db = .ok db' ∧ KeysMoved organization.id db db' ∧
      (∀ newId', ∃ again, backfill H cfg .disabled args newId' db' = .ok again) ∧
      ∀ mode args' newId' again, backfill H cfg mode args' newId' db' = .ok again →
        SameKeysAndOwners db' again := by
  have hdb := hbuilt.globalKeys
  have hkept := targetOrganization_ok htarget
  have hdbO : GlobalKeys dbO := by
    rw [hkept]
    exact ⟨hdb.1, hdb.2, hdb.3, hdb.4⟩
  obtain ⟨db', hassign, hkeys⟩ :=
    @assign_of_globalKeys H cfg _ hdbO organization.id role.id
  have hassigned := assigned_of_assign hdbO hassign
  have hmoved : KeysMoved organization.id db db' := by
    rw [hkept] at hkeys
    exact ⟨hkeys.1, hkeys.2, hkeys.3, hkeys.4⟩
  refine ⟨db', (backfill_of_assign happly htarget hrole).trans hassign, hmoved, ?_,
    fun mode args' newId' again hagain => hassigned.backfill hagain⟩
  intro newId'
  -- The second run finds the organization and the role that the first one has left.
  have hsame : db'.organizations = dbO.organizations ∧ db'.roles = dbO.roles := by
    obtain ⟨bandwidth, conversations, -, -, rfl⟩ := assign_ok hassign
    exact ⟨rfl, rfl⟩
  have htarget' : targetOrganization args newId' db' = .ok (organization, db') := by
    rw [targetOrganization, existingOrganization_congr hsame.1, existingOrganization_again htarget]
  have hrole' : memberRole db' = some role := by
    rw [memberRole, hsame.2]
    exact hrole
  obtain ⟨again, hagain, -⟩ :=
    @Assigned.assign H cfg _ hassigned organization.id role.id
  exact ⟨again, (backfill_of_assign happly htarget' hrole').trans hagain⟩

/-! ### A direct conversation and a quota -/

def exampleId (digit : Char) (h : HasForm isLowerHex
    ("0000000".toList ++ digit :: "-0000-7000-8000-000000000000".toList)) : Uuid := ⟨_, h⟩

def exampleUser : Uuid := exampleId '1' (by decide)

def otherUser : Uuid := exampleId '2' (by decide)

def exampleOrganization : Organization := ⟨exampleId '3' (by decide), "default", "Default"⟩

def exampleRole : Role := ⟨exampleId '4' (by decide), "member", none, false⟩

def emptyDatabase : Database where
  organizations := [exampleOrganization]
  roles := [exampleRole]
  users := [⟨exampleUser, false⟩, ⟨otherUser, false⟩]

def chargedDatabase : Database :=
  { emptyDatabase with
    bandwidth := [⟨none, exampleUser, uploadQuotaScopeKey none exampleUser, 0, 10⟩] }

def chattingDatabase : Database :=
  { chargedDatabase with
    conversations := [⟨exampleId '5' (by decide), .direct, none,
      some (directConversationKey [otherUser.text, exampleUser.text] none)⟩] }

theorem built_chattingDatabase : Built chattingDatabase := by
  have hcharged : createUsage none exampleUser 0 10 emptyDatabase = .ok chargedDatabase := rfl
  have hchatting : createConversation none (exampleId '5' (by decide)) .direct
      [otherUser.text, exampleUser.text] chargedDatabase = .ok chattingDatabase := by
    simp [createConversation, chargedDatabase, chattingDatabase, emptyDatabase]
  exact ((Built.empty rfl rfl).statement (.createUsage _ _ _ hcharged)).statement
    (.createConversation _ _ _ hchatting)

theorem chatting_keys_moved : ∃ after,
    backfill exampleHmac exampleAuditConfig .disabled { apply := true } exampleUser
      chattingDatabase = .ok after ∧ KeysMoved exampleOrganization.id chattingDatabase after := by
  obtain ⟨after, hbackfill, hmoved, -⟩ := @backfill_agrees exampleHmac exampleAuditConfig
    { apply := true } exampleUser _ chattingDatabase exampleOrganization exampleRole
    built_chattingDatabase rfl rfl rfl
  exact ⟨after, hbackfill, hmoved⟩

end BackendFoundation.Tenancy.RuntimeKeys
