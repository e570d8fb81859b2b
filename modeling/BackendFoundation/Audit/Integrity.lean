import BackendFoundation.Crypto
import BackendFoundation.Lib.IsoDate

/-! # Signed audit rows

`audit.integrity.ts` and the write of `audit.service.ts`. The HMAC is a parameter. A row is read
back as it was written, its metadata as they are after `JSON.stringify` and `JSON.parse`.

The signature is computed over the metadata in memory and checked over the stored ones. The
canonical encoder writes a key whose value is `undefined`, and storage drops it, so a row verifies
exactly if no entry of its metadata is `undefined` (`row_verifies_iff`). -/

namespace BackendFoundation.Audit.Integrity

open Lib.Json Lib.IsoDate Crypto

/-! ### Signatures -/

/-- `createHmac('sha256', secret).update(payload).digest('base64url')`. -/
structure Hmac where
  digest : String → JsString → JsString
  digest_ne : ∀ secret payload, digest secret payload ≠ []

/-- The part of the environment that signatures read. -/
structure AuditConfig where
  auditIntegritySecret : String
  cookieSecret : String
  cookieSecret_ne : cookieSecret ≠ ""

/-- A row of the audit table; its dates are in milliseconds. -/
structure AuditRecord where
  id : JsString
  organizationId : Option JsString := none
  actorUserId : Option JsString := none
  action : JsString
  entityType : JsString
  entityId : Option JsString := none
  requestId : Option JsString := none
  ipHash : Option JsString := none
  userAgent : Option JsString := none
  metadata : JsValue := .undefined
  createdAt : ℤ
  updatedAt : Option ℤ := none
  deletedAt : Option ℤ := none
  integrityVersion : Option ℤ := none
  integrityHash : Option JsString := none

/-- The recursive encoder of the signed payload. -/
def canonicalJson (value : JsValue) : JsString := canonicalText value

/-- `text ?? null`. -/
def textOrNull : Option JsString → JsValue
  | some text => .string text
  | none => .null

/-- `value ?? null`. -/
def valueOrNull : JsValue → JsValue
  | .undefined => .null
  | value => value

/-- What is signed of a record, but for its metadata; the version decides whether the organization
is part of it. -/
def headEntries (record : AuditRecord) : List (JsString × JsValue) :=
  let version := record.integrityVersion.getD 1
  [(utf16 "version", .number (.ofInt version))] ++
    (if 2 ≤ version then [(utf16 "organizationId", textOrNull record.organizationId)] else []) ++
    [(utf16 "id", .string record.id),
      (utf16 "actorUserId", textOrNull record.actorUserId),
      (utf16 "action", .string record.action),
      (utf16 "entityType", .string record.entityType),
      (utf16 "entityId", textOrNull record.entityId),
      (utf16 "requestId", textOrNull record.requestId),
      (utf16 "ipHash", textOrNull record.ipHash),
      (utf16 "userAgent", textOrNull record.userAgent)]

def dateEntries (record : AuditRecord) : List (JsString × JsValue) :=
  [(utf16 "createdAt", .string (toISOString record.createdAt)),
    (utf16 "updatedAt", .string (toISOString (record.updatedAt.getD record.createdAt))),
    (utf16 "deletedAt", textOrNull (record.deletedAt.map toISOString))]

/-- The payload of `signAuditEvent`. -/
def payload (record : AuditRecord) : JsValue :=
  .object (headEntries record ++ (utf16 "metadata", valueOrNull record.metadata) ::
    dateEntries record)

/-- `secret || env.COOKIE_SECRET`. -/
def signingSecret (cfg : AuditConfig) (secret : String) : String :=
  if secret = "" then cfg.cookieSecret else secret

def signAuditEvent (H : Hmac) (cfg : AuditConfig) (record : AuditRecord) (secret : String) :
    JsString :=
  H.digest (signingSecret cfg secret) (canonicalJson (payload record))

def verifyAuditEvent (H : Hmac) (cfg : AuditConfig) (record : AuditRecord) (secret : String) :
    Bool :=
  match record.integrityHash with
  | none => false
  | some integrityHash =>
    if integrityHash = [] ∨ signingSecret cfg secret = "" then false
    else integrityHash = signAuditEvent H cfg record (signingSecret cfg secret)

/-! ### Writing a row -/

structure AuditInput where
  actorUserId : Option JsString := none
  action : JsString
  entityType : JsString
  entityId : Option JsString := none
  requestId : Option JsString := none
  ip : Option String := none
  userAgent : Option JsString := none
  metadata : JsValue := .undefined

/-- The data of `writeAuditEvent`, with the id and the time it has drawn and the organization of the
request context. -/
def writeAuditEvent (H : Hmac) (cfg : AuditConfig) (R : Runtime) (K : Keyring) (id : JsString)
    (createdAt : ℤ) (organizationId : Option JsString) (input : AuditInput) : AuditRecord :=
  let record : AuditRecord :=
    { id := id
      organizationId := organizationId
      actorUserId := input.actorUserId
      action := input.action
      entityType := input.entityType
      entityId := input.entityId
      requestId := input.requestId
      ipHash := (input.ip.filter (· ≠ "")).map fun ip => utf16 (hashMetadata R K ip).text
      userAgent := input.userAgent.map (·.take 500)
      metadata := input.metadata
      createdAt := createdAt
      updatedAt := some createdAt
      deletedAt := none
      integrityVersion := some 2 }
  { record with integrityHash := some (signAuditEvent H cfg record cfg.auditIntegritySecret) }

/-- A row as it is read from the database. -/
def AuditRecord.readBack (record : AuditRecord) : AuditRecord :=
  { record with metadata := roundTrip record.metadata }

/-- The audit metadata of `createRefund`. -/
def refundMetadata (refundOperationId : JsString) (paymentIntentId chargeId : Option JsString)
    (amount : ℕ) (currency : JsString) : JsValue :=
  let orUndefined : Option JsString → JsValue
    | some text => .string text
    | none => .undefined
  .object
    [(utf16 "refundOperationId", .string refundOperationId),
      (utf16 "paymentIntentId", orUndefined paymentIntentId),
      (utf16 "chargeId", orUndefined chargeId),
      (utf16 "amount", .number (.ofNat amount)),
      (utf16 "currency", .string currency)]

/-! ### Verifying it -/

variable {H : Hmac} {cfg : AuditConfig} {R : Runtime} {K : Keyring}

theorem canonicalText_valueOrNull (v : JsValue) :
    canonicalText (valueOrNull v) = canonicalText v := by
  cases v <;> simp [valueOrNull, canonicalText]

theorem signingSecret_signingSecret (secret : String) :
    signingSecret cfg (signingSecret cfg secret) = signingSecret cfg secret := by
  unfold signingSecret
  split_ifs <;> rfl

theorem signingSecret_ne (secret : String) : signingSecret cfg secret ≠ "" := by
  unfold signingSecret
  split_ifs with h
  · exact cfg.cookieSecret_ne
  · exact h

theorem verifyAuditEvent_iff {record : AuditRecord} {secret : String} {hash : JsString}
    (hhash : record.integrityHash = some hash) (hne : hash ≠ []) :
    verifyAuditEvent H cfg record secret = true ↔ hash = signAuditEvent H cfg record secret := by
  have hsign : signAuditEvent H cfg record (signingSecret cfg secret) =
      signAuditEvent H cfg record secret := by
    unfold signAuditEvent
    rw [signingSecret_signingSecret]
  unfold verifyAuditEvent
  rw [hhash]
  simp only [hne, signingSecret_ne, or_self, if_false, decide_eq_true_eq, hsign]

/-- Two records that are signed alike but for their metadata. -/
structure SameButMetadata (a b : AuditRecord) : Prop where
  head : headEntries a = headEntries b
  dates : dateEntries a = dateEntries b

theorem entriesWeight_append (a b : List (JsString × JsValue)) :
    entriesWeight (a ++ b) = entriesWeight a + entriesWeight b := by
  induction a with
  | nil => simp [entriesWeight, entryTexts, joinWeight]
  | cons entry rest ih =>
    obtain ⟨k, v⟩ := entry
    rw [List.cons_append, entriesWeight_cons, entriesWeight_cons, ih]
    omega

/-- The metadata of two payloads of the same text have texts of the same length. -/
theorem metadata_length_eq {a b : AuditRecord} (h : SameButMetadata a b)
    (htext : canonicalJson (payload a) = canonicalJson (payload b)) :
    (canonicalText a.metadata).length = (canonicalText b.metadata).length := by
  have hlength := congrArg List.length htext
  unfold canonicalJson payload at hlength
  rw [length_object, length_object, entriesWeight_append, entriesWeight_append,
    entriesWeight_cons, entriesWeight_cons, h.head, h.dates, canonicalText_valueOrNull,
    canonicalText_valueOrNull] at hlength
  omega

theorem payload_text_congr {a b : AuditRecord} (h : SameButMetadata a b)
    (hmeta : canonicalText a.metadata = canonicalText b.metadata) :
    canonicalJson (payload a) = canonicalJson (payload b) := by
  have happend : ∀ x y z : List (JsString × JsValue), entryTexts y = entryTexts z →
      entryTexts (x ++ y) = entryTexts (x ++ z) := by
    intro x y z hyz
    induction x with
    | nil => exact hyz
    | cons entry rest ih =>
      obtain ⟨k, v⟩ := entry
      rw [List.cons_append, List.cons_append, entryTexts, entryTexts, ih]
  have hentries : entryTexts (headEntries b ++ (utf16 "metadata", valueOrNull a.metadata) ::
      dateEntries b) = entryTexts (headEntries b ++ (utf16 "metadata", valueOrNull b.metadata) ::
      dateEntries b) := by
    refine happend _ _ _ ?_
    rw [entryTexts, entryTexts, canonicalText_valueOrNull, canonicalText_valueOrNull, hmeta]
  unfold canonicalJson payload
  rw [h.head, h.dates, canonicalText, canonicalText, hentries]

theorem entriesDefined_of_verifies (cfg : AuditConfig) (R : Runtime) (K : Keyring)
    (hfree : ∀ secret p q, H.digest secret p = H.digest secret q → p = q) {id : JsString}
    {createdAt : ℤ} {organizationId : Option JsString} {input : AuditInput}
    (h : verifyAuditEvent H cfg
      (writeAuditEvent H cfg R K id createdAt organizationId input).readBack
      cfg.auditIntegritySecret = true) : EntriesDefined input.metadata := by
  let row := writeAuditEvent H cfg R K id createdAt organizationId input
  have hsame : SameButMetadata row row.readBack := ⟨rfl, rfl⟩
  have hhash : row.readBack.integrityHash =
      some (signAuditEvent H cfg row cfg.auditIntegritySecret) := rfl
  have hsign := (verifyAuditEvent_iff hhash (H.digest_ne _ _)).mp h
  by_contra hundefined
  have hlength := metadata_length_eq hsame (hfree _ _ _ hsign)
  have hshorter := ((length_canonicalText_roundTrip input.metadata).2 hundefined).1
  exact absurd hlength.symm (Nat.ne_of_lt hshorter)

/-- **Audit rows verify when they are read back** exactly if no entry of their metadata is
`undefined`, at any depth. -/
theorem row_verifies_iff (H : Hmac) (cfg : AuditConfig) (R : Runtime) (K : Keyring)
    (hfree : ∀ secret p q, H.digest secret p = H.digest secret q → p = q) (id : JsString)
    (createdAt : ℤ) (organizationId : Option JsString) (input : AuditInput) :
    verifyAuditEvent H cfg
        (writeAuditEvent H cfg R K id createdAt organizationId input).readBack
        cfg.auditIntegritySecret = true ↔ EntriesDefined input.metadata := by
  refine ⟨entriesDefined_of_verifies cfg R K hfree, fun hdefined => ?_⟩
  let row := writeAuditEvent H cfg R K id createdAt organizationId input
  have hsame : SameButMetadata row row.readBack := ⟨rfl, rfl⟩
  have hhash : row.readBack.integrityHash =
      some (signAuditEvent H cfg row cfg.auditIntegritySecret) := rfl
  refine (verifyAuditEvent_iff hhash (H.digest_ne _ _)).mpr ?_
  unfold signAuditEvent
  rw [payload_text_congr hsame (canonicalText_roundTrip input.metadata hdefined).symm]

def exampleHmac : Hmac where
  digest _ payload := 35 :: payload
  digest_ne _ _ := List.cons_ne_nil _ _

def exampleAuditConfig : AuditConfig := ⟨"", "cookie-secret", by decide⟩

def exampleInput (metadata : JsValue) : AuditInput where
  action := utf16 "billing.refund_created"
  entityType := utf16 "stripe_refund"
  metadata := metadata

theorem exampleHmac_collisionFree (secret : String) (p q : JsString)
    (h : exampleHmac.digest secret p = exampleHmac.digest secret q) : p = q :=
  (List.cons.inj h).2

theorem row_verifies_nested : verifyAuditEvent exampleHmac exampleAuditConfig
    (writeAuditEvent exampleHmac exampleAuditConfig exampleRuntime exampleKeyring (utf16 "a1")
      1785672000000 none (exampleInput (.object [(utf16 "fields", .array [.undefined])]))).readBack
    "" = true := by
  refine (row_verifies_iff exampleHmac exampleAuditConfig exampleRuntime exampleKeyring
    exampleHmac_collisionFree _ _ _ _).mpr ?_
  simp [exampleInput, EntriesDefined, ValuesDefined, ElementsDefined, JsValue.isUndefined]

/-- The audit row of a refund of a payment intent, whose metadata have no charge id. -/
theorem refund_row_does_not_verify : verifyAuditEvent exampleHmac exampleAuditConfig
    (writeAuditEvent exampleHmac exampleAuditConfig exampleRuntime exampleKeyring (utf16 "a1")
      1785672000000 none (exampleInput
        (refundMetadata (utf16 "op-1") (some (utf16 "pi_1")) none 400 (utf16 "usd")))).readBack
    "" = false := by
  refine Bool.eq_false_iff.mpr fun h => ?_
  have hdefined := entriesDefined_of_verifies exampleAuditConfig exampleRuntime exampleKeyring
    exampleHmac_collisionFree h
  simp [exampleInput, refundMetadata, EntriesDefined, ValuesDefined, JsValue.isUndefined]
    at hdefined

end BackendFoundation.Audit.Integrity
