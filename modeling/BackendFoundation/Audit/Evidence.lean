import BackendFoundation.Audit.Integrity
import BackendFoundation.Lib.JsonText

/-! # The evidence of a signature

A row of the audit table holds JSON metadata and valid dates. A signature of version 2 covers every
field of a row but the signature itself: two rows that verify with the same one are alike, up to the
order of the keys in their metadata (`verifies_iff_alike`). Rows of version 1 leave the
organization out of the payload, but their payload names the version. -/

namespace BackendFoundation.Audit.Evidence

open Lib.Json Lib.IsoDate Audit.Integrity

/-- A row of the audit table, as the database client returns it. -/
structure AuditRow where
  record : AuditRecord
  metadata_isJson : IsJson record.metadata
  createdAt_valid : ValidDate record.createdAt
  updatedAt_valid : ∃ ms, record.updatedAt = some ms ∧ ValidDate ms
  deletedAt_valid : ∀ ms ∈ record.deletedAt, ValidDate ms
  version_some : ∃ version, record.integrityVersion = some version

/-- Two records agree on what a signature of version 2 covers. -/
structure SignedAlike (a b : AuditRecord) : Prop where
  organizationId : b.organizationId = a.organizationId
  id : b.id = a.id
  actorUserId : b.actorUserId = a.actorUserId
  action : b.action = a.action
  entityType : b.entityType = a.entityType
  entityId : b.entityId = a.entityId
  requestId : b.requestId = a.requestId
  ipHash : b.ipHash = a.ipHash
  userAgent : b.userAgent = a.userAgent
  metadata : sortKeys b.metadata = sortKeys a.metadata
  createdAt : b.createdAt = a.createdAt
  updatedAt : b.updatedAt = a.updatedAt
  deletedAt : b.deletedAt = a.deletedAt
  integrityVersion : b.integrityVersion = a.integrityVersion

/-! ### Payloads -/

def payloadEntries (record : AuditRecord) : List (JsString × JsValue) :=
  headEntries record ++ (utf16 "metadata", valueOrNull record.metadata) :: dateEntries record

theorem payload_eq (record : AuditRecord) : payload record = .object (payloadEntries record) := rfl

theorem isJson_textOrNull (text : Option JsString) : IsJson (textOrNull text) := by
  cases text <;> simp [textOrNull, IsJson]

theorem sortKeys_textOrNull (text : Option JsString) :
    sortKeys (textOrNull text) = textOrNull text := by
  cases text <;> simp [textOrNull, sortKeys]

theorem textOrNull_injective : Function.Injective textOrNull := by
  intro a b h
  cases a <;> cases b <;> simp [textOrNull] at h ⊢
  exact h

theorem valueOrNull_of_isJson {v : JsValue} (h : IsJson v) : valueOrNull v = v := by
  cases v with
  | undefined => cases h
  | null | bool | number | string | array | object => rfl

theorem isJson_ofInt (z : ℤ) : (JsNumber.ofInt z).IsJson := by
  unfold JsNumber.ofInt JsNumber.ofNat
  split_ifs <;> simp [JsNumber.IsJson]

theorem isJson_payload (row : AuditRow) : IsJson (payload row.record) := by
  rw [payload_eq, IsJson, entriesJson_iff]
  have hmetadata : IsJson (valueOrNull row.record.metadata) := by
    rw [valueOrNull_of_isJson row.metadata_isJson]
    exact row.metadata_isJson
  intro entry hentry
  rcases List.mem_append.mp hentry with hhead | htail
  · dsimp only [headEntries] at hhead
    split_ifs at hhead <;>
      simp only [List.cons_append, List.nil_append, List.mem_cons, List.not_mem_nil,
        or_false] at hhead <;>
      rcases hhead with rfl | rfl | rfl | rfl | rfl | rfl | rfl | rfl | rfl | rfl <;>
      first
        | exact isJson_ofInt _
        | exact isJson_textOrNull _
        | trivial
  · rcases List.mem_cons.mp htail with rfl | hdates
    · exact hmetadata
    · simp only [dateEntries, List.mem_cons, List.not_mem_nil, or_false] at hdates
      rcases hdates with rfl | rfl | rfl
      · trivial
      · trivial
      · exact isJson_textOrNull _

theorem payloadEntries_nodup (record : AuditRecord) :
    ((payloadEntries record).map Prod.fst).Nodup := by
  have hkeys : (payloadEntries record).map Prod.fst =
      (["version"] ++ (if 2 ≤ record.integrityVersion.getD 1 then ["organizationId"] else []) ++
        ["id", "actorUserId", "action", "entityType", "entityId", "requestId", "ipHash",
          "userAgent", "metadata", "createdAt", "updatedAt", "deletedAt"]).map utf16 := by
    dsimp only [payloadEntries, headEntries, dateEntries]
    split_ifs <;> rfl
  rw [hkeys]
  split_ifs <;> decide

variable {record : AuditRecord}

theorem mem_payloadEntries_head {entry : JsString × JsValue} (h : entry ∈ headEntries record) :
    entry ∈ payloadEntries record :=
  List.mem_append_left _ h

theorem mem_payloadEntries_date {entry : JsString × JsValue} (h : entry ∈ dateEntries record) :
    entry ∈ payloadEntries record :=
  List.mem_append_right _ (List.mem_cons_of_mem _ h)

variable {a b : AuditRow}

theorem payload_value_eq (h : canonicalJson (payload a.record) = canonicalJson (payload b.record))
    {k : JsString} {v w : JsValue} (hv : (k, v) ∈ payloadEntries a.record)
    (hw : (k, w) ∈ payloadEntries b.record) : sortKeys v = sortKeys w := by
  have hsorted := (canonicalText_eq_iff (isJson_payload a) (isJson_payload b)).mp h
  exact value_eq_of_sortKeys_eq hsorted (payloadEntries_nodup b.record) hv hw

theorem payload_text_eq (h : canonicalJson (payload a.record) = canonicalJson (payload b.record))
    {k : JsString} {v w : Option JsString} (hv : (k, textOrNull v) ∈ headEntries a.record)
    (hw : (k, textOrNull w) ∈ headEntries b.record) : w = v := by
  have hvalue := payload_value_eq h (mem_payloadEntries_head hv) (mem_payloadEntries_head hw)
  rw [sortKeys_textOrNull, sortKeys_textOrNull] at hvalue
  exact textOrNull_injective hvalue.symm

theorem payload_string_eq
    (h : canonicalJson (payload a.record) = canonicalJson (payload b.record)) {k s t : JsString}
    (hv : (k, .string s) ∈ payloadEntries a.record)
    (hw : (k, .string t) ∈ payloadEntries b.record) : t = s := by
  have hvalue := payload_value_eq h hv hw
  rw [sortKeys, sortKeys] at hvalue
  exact (JsValue.string.inj hvalue).symm

theorem payload_version_eq
    (h : canonicalJson (payload a.record) = canonicalJson (payload b.record)) :
    b.record.integrityVersion = a.record.integrityVersion := by
  have hmem : ∀ record : AuditRecord, (utf16 "version",
      JsValue.number (.ofInt (record.integrityVersion.getD 1))) ∈ payloadEntries record := by
    intro record
    exact mem_payloadEntries_head (by simp [headEntries])
  have hvalue := payload_value_eq h (hmem a.record) (hmem b.record)
  rw [sortKeys, sortKeys] at hvalue
  have hversion := ofInt_injective (JsValue.number.inj hvalue)
  obtain ⟨v, hv⟩ := a.version_some
  obtain ⟨w, hw⟩ := b.version_some
  rw [hv, hw] at hversion ⊢
  exact congrArg some hversion.symm

theorem payload_metadata_eq
    (h : canonicalJson (payload a.record) = canonicalJson (payload b.record)) :
    sortKeys b.record.metadata = sortKeys a.record.metadata := by
  have hmem : ∀ row : AuditRow,
      (utf16 "metadata", row.record.metadata) ∈ payloadEntries row.record := by
    intro row
    refine List.mem_append_right _ (List.mem_cons.mpr (.inl ?_))
    rw [valueOrNull_of_isJson row.metadata_isJson]
  exact (payload_value_eq h (hmem a) (hmem b)).symm

theorem deletedAt_eq {a b : Option ℤ} (ha : ∀ ms ∈ a, ValidDate ms) (hb : ∀ ms ∈ b, ValidDate ms)
    (h : a.map toISOString = b.map toISOString) : b = a := by
  cases a with
  | none =>
    cases b with
    | none => rfl
    | some db => simp only [Option.map_none, Option.map_some, reduceCtorEq] at h
  | some da =>
    cases b with
    | none => simp only [Option.map_none, Option.map_some, reduceCtorEq] at h
    | some db =>
      simp only [Option.map_some, Option.some.injEq] at h
      rw [toISOString_injective (ha da rfl) (hb db rfl) h]

theorem payload_dates_eq (h : canonicalJson (payload a.record) = canonicalJson (payload b.record)) :
    b.record.createdAt = a.record.createdAt ∧ b.record.updatedAt = a.record.updatedAt ∧
      b.record.deletedAt = a.record.deletedAt := by
  have hcreated : toISOString b.record.createdAt = toISOString a.record.createdAt :=
    payload_string_eq h (k := utf16 "createdAt")
      (mem_payloadEntries_date (by simp [dateEntries]))
      (mem_payloadEntries_date (by simp [dateEntries]))
  have hupdated : toISOString (b.record.updatedAt.getD b.record.createdAt) =
      toISOString (a.record.updatedAt.getD a.record.createdAt) :=
    payload_string_eq h (k := utf16 "updatedAt")
      (mem_payloadEntries_date (by simp [dateEntries]))
      (mem_payloadEntries_date (by simp [dateEntries]))
  have hdeleted : sortKeys (textOrNull (a.record.deletedAt.map toISOString)) =
      sortKeys (textOrNull (b.record.deletedAt.map toISOString)) :=
    payload_value_eq h (k := utf16 "deletedAt")
      (mem_payloadEntries_date (by simp [dateEntries]))
      (mem_payloadEntries_date (by simp [dateEntries]))
  obtain ⟨ua, hua, hvalida⟩ := a.updatedAt_valid
  obtain ⟨ub, hub, hvalidb⟩ := b.updatedAt_valid
  refine ⟨toISOString_injective b.createdAt_valid a.createdAt_valid hcreated, ?_, ?_⟩
  · rw [hua, hub] at hupdated ⊢
    exact congrArg some (toISOString_injective hvalidb hvalida hupdated)
  · rw [sortKeys_textOrNull, sortKeys_textOrNull] at hdeleted
    have htexts := textOrNull_injective hdeleted
    exact deletedAt_eq a.deletedAt_valid b.deletedAt_valid htexts

theorem alike_of_payload_eq (hversion : a.record.integrityVersion = some 2)
    (h : canonicalJson (payload a.record) = canonicalJson (payload b.record)) :
    SignedAlike a.record b.record := by
  have hversions := payload_version_eq h
  have hversionb : b.record.integrityVersion = some 2 := hversions.trans hversion
  obtain ⟨hcreated, hupdated, hdeleted⟩ := payload_dates_eq h
  have horganization : ∀ record : AuditRecord, record.integrityVersion = some 2 →
      (utf16 "organizationId", textOrNull record.organizationId) ∈ headEntries record := by
    intro record hrecord
    simp [headEntries, hrecord]
  refine
    { organizationId := payload_text_eq h (horganization _ hversion) (horganization _ hversionb)
      id := payload_string_eq h (k := utf16 "id") (mem_payloadEntries_head (by simp [headEntries]))
        (mem_payloadEntries_head (by simp [headEntries]))
      actorUserId := payload_text_eq h (k := utf16 "actorUserId") (by simp [headEntries])
        (by simp [headEntries])
      action := payload_string_eq h (k := utf16 "action")
        (mem_payloadEntries_head (by simp [headEntries]))
        (mem_payloadEntries_head (by simp [headEntries]))
      entityType := payload_string_eq h (k := utf16 "entityType")
        (mem_payloadEntries_head (by simp [headEntries]))
        (mem_payloadEntries_head (by simp [headEntries]))
      entityId := payload_text_eq h (k := utf16 "entityId") (by simp [headEntries])
        (by simp [headEntries])
      requestId := payload_text_eq h (k := utf16 "requestId") (by simp [headEntries])
        (by simp [headEntries])
      ipHash := payload_text_eq h (k := utf16 "ipHash") (by simp [headEntries])
        (by simp [headEntries])
      userAgent := payload_text_eq h (k := utf16 "userAgent") (by simp [headEntries])
        (by simp [headEntries])
      metadata := payload_metadata_eq h
      createdAt := hcreated
      updatedAt := hupdated
      deletedAt := hdeleted
      integrityVersion := hversions }

theorem payload_eq_of_alike (h : SignedAlike a.record b.record) :
    canonicalJson (payload b.record) = canonicalJson (payload a.record) := by
  have hhead : headEntries b.record = headEntries a.record := by
    simp only [headEntries, h.organizationId, h.id, h.actorUserId, h.action, h.entityType,
      h.entityId, h.requestId, h.ipHash, h.userAgent, h.integrityVersion]
  have hdates : dateEntries b.record = dateEntries a.record := by
    simp only [dateEntries, h.createdAt, h.updatedAt, h.deletedAt]
  refine (canonicalText_eq_iff (isJson_payload b) (isJson_payload a)).mpr ?_
  rw [payload_eq, payload_eq, sortKeys, sortKeys, sortEntryValues_eq, sortEntryValues_eq,
    payloadEntries, payloadEntries, List.map_append, List.map_append, List.map_cons,
    List.map_cons, hhead, hdates, valueOrNull_of_isJson a.metadata_isJson,
    valueOrNull_of_isJson b.metadata_isJson, h.metadata]

/-! ### Rows that verify -/

variable {H : Hmac} {cfg : AuditConfig}

theorem integrityHash_of_verifies {secret : String}
    (h : verifyAuditEvent H cfg record secret = true) :
    record.integrityHash = some (signAuditEvent H cfg record secret) := by
  rcases hhash : record.integrityHash with _ | hash
  · rw [verifyAuditEvent, hhash] at h
    cases h
  · have hne : hash ≠ [] := by
      rintro rfl
      rw [verifyAuditEvent, hhash] at h
      simp at h
    rw [(verifyAuditEvent_iff hhash hne).mp h]

/-- **Tamper evidence**: a row that carries the signature of a row of version 2 verifies if and
only if the two agree on every signed field, the version among them. -/
theorem verifies_iff_alike (secret : String)
    (hfree : ∀ secret p q, H.digest secret p = H.digest secret q → p = q) {a b : AuditRow}
    (hversion : a.record.integrityVersion = some 2)
    (ha : verifyAuditEvent H cfg a.record secret = true)
    (hhash : b.record.integrityHash = a.record.integrityHash) :
    verifyAuditEvent H cfg b.record secret = true ↔ SignedAlike a.record b.record := by
  have hsigned := integrityHash_of_verifies ha
  rw [hsigned] at hhash
  rw [verifyAuditEvent_iff hhash (H.digest_ne _ _), signAuditEvent, signAuditEvent]
  constructor
  · intro hdigest
    exact alike_of_payload_eq hversion (hfree _ _ _ hdigest)
  · intro halike
    rw [payload_eq_of_alike halike]

def exampleRecord (metadata : JsValue) (version : ℤ) (signature : JsString) : AuditRecord where
  id := utf16 "a1"
  action := utf16 "user.updated"
  entityType := utf16 "user"
  metadata := metadata
  createdAt := 1785672000000
  updatedAt := some 1785672000000
  integrityVersion := some version
  integrityHash := some signature

def exampleRow (entries : List (JsString × JsNumber)) (version : ℤ) (signature : JsString)
    (hentries : ∀ entry ∈ entries, entry.2.IsJson) : AuditRow where
  record := exampleRecord (.object (entries.map fun entry => (entry.1, .number entry.2))) version
    signature
  metadata_isJson := by
    rw [exampleRecord, IsJson, entriesJson_iff]
    intro entry hentry
    obtain ⟨entry, hmem, rfl⟩ := List.mem_map.mp hentry
    exact hentries entry hmem
  createdAt_valid := by simp [exampleRecord, ValidDate]
  updatedAt_valid := ⟨1785672000000, rfl, by simp [ValidDate]⟩
  deletedAt_valid := by simp [exampleRecord]
  version_some := ⟨version, rfl⟩

theorem evidence_of_order_and_version :
    let first := [(utf16 "b", JsNumber.ofInt 2), (utf16 "a", JsNumber.ofInt 1)]
    let second := [(utf16 "a", JsNumber.ofInt 1), (utf16 "b", JsNumber.ofInt 2)]
    let signature := signAuditEvent exampleHmac exampleAuditConfig (exampleRecord
      (.object (first.map fun entry => (entry.1, .number entry.2))) 2 []) "audit-secret"
    verifyAuditEvent exampleHmac exampleAuditConfig
        (exampleRecord (.object (second.map fun entry => (entry.1, .number entry.2))) 2 signature)
        "audit-secret" = true ∧
      verifyAuditEvent exampleHmac exampleAuditConfig
        (exampleRecord (.object (first.map fun entry => (entry.1, .number entry.2))) 1 signature)
        "audit-secret" = false := by
  intro first second signature
  have hfirst : ∀ entry ∈ first, entry.2.IsJson := by simp [first, isJson_ofInt]
  have hsecond : ∀ entry ∈ second, entry.2.IsJson := by simp [second, isJson_ofInt]
  have hverifies : verifyAuditEvent exampleHmac exampleAuditConfig
      (exampleRow first 2 signature hfirst).record "audit-secret" = true :=
    (@verifyAuditEvent_iff _ _ _ _ signature rfl (exampleHmac.digest_ne _ _)).mpr rfl
  have hrule := fun (row : AuditRow) hhash => verifies_iff_alike (b := row) "audit-secret"
    exampleHmac_collisionFree (a := exampleRow first 2 signature hfirst) rfl hverifies hhash
  refine ⟨(hrule (exampleRow second 2 signature hsecond) rfl).mpr ?_,
    Bool.eq_false_iff.mpr fun h => ?_⟩
  · refine ⟨rfl, rfl, rfl, rfl, rfl, rfl, rfl, rfl, rfl, ?_, rfl, rfl, rfl, rfl⟩
    have hle : utf16 "a" ≤ utf16 "b" := by decide
    have hnot : ¬ utf16 "b" ≤ utf16 "a" := by decide
    simp [exampleRow, exampleRecord, sortKeys, sortEntryValues_eq, sortValues, first, second,
      hle, hnot]
  · have halike := (hrule (exampleRow first 1 signature hfirst) rfl).mp h
    exact absurd (Option.some.inj halike.integrityVersion) (by decide)

end BackendFoundation.Audit.Evidence
