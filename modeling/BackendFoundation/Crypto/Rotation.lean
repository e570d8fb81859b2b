import BackendFoundation.Crypto
import BackendFoundation.Lib.Base64Url
import BackendFoundation.Lib.Utf8
import Mathlib.Data.List.Chain

/-! # Key rotation

`lib/crypto.ts` and the checks of `config/env.ts` on its keys, with the texts as they are stored. A
hash is `v1.<keyId>.<digest>` and a secret is `v1.<keyId>.<iv>.<tag>.<ciphertext>`; before there
were key ids, a hash was its digest and a secret had the last three parts. A string is hashed and
encrypted as its UTF-8 bytes.

The functions of `node:crypto` are parameters, and `Ideal` is what the texts rest on: a ciphertext
is read with its key, and two messages have different digests.

What was written under an environment is read under every later one, in either format
(`rotation_keeps_readable`). This is about strings without halves of surrogate pairs: such a half
has no bytes of its own (`lone_surrogate`). The ideal hashes and secrets that the other modules work
with have these texts (`represents`, `Keeps.decryptSecret_ideal`). -/

namespace BackendFoundation.Crypto.Rotation

open Lib.Base64Url Lib.Json Lib.Utf8

abbrev Bytes := List UInt8

/-- The functions of `node:crypto`: HKDF and HMAC with SHA-256, and AES-256-GCM with the ciphertext
and the tag. -/
structure Primitives where
  hkdfSync (master salt info : Bytes) : Bytes
  hmac (key message : Bytes) : Bytes
  sha256 (message : Bytes) : Bytes
  encrypt (key iv plaintext : Bytes) : Bytes × Bytes
  decrypt (key iv tag ciphertext : Bytes) : Option Bytes

/-- Authenticated encryption is read back, and the HMAC has no collision. -/
structure Ideal (P : Primitives) : Prop where
  decrypt_encrypt : ∀ key iv plaintext,
    P.decrypt key iv (P.encrypt key iv plaintext).2 (P.encrypt key iv plaintext).1 = some plaintext
  hmac_inj : ∀ key key' a b, P.hmac key a = P.hmac key' b → a = b

inductive CryptoError
  | unknownKeyId (keyId : JsString)
  /-- `Buffer.from` of a member of `Object.prototype`. -/
  | notText
  | invalidPayload
  | notAuthentic
deriving DecidableEq

/-! ### The environment -/

/-- A unit that `[a-zA-Z0-9_-]` matches. -/
def isKeyIdUnit (u : UInt16) : Bool :=
  (97 ≤ u && u ≤ 122) || (65 ≤ u && u ≤ 90) || (48 ≤ u && u ≤ 57) || u = 95 || u = 45

/-- `/^[a-zA-Z0-9_-]{1,32}$/`. -/
def safeKeyId (keyId : JsString) : Bool :=
  1 ≤ keyId.length && keyId.length ≤ 32 && keyId.all isKeyIdUnit

/-- What `JSON.parse` makes of the text of the keyring, if it is not blank. -/
inductive KeyringText
  | blank
  | malformed
  | parsed (value : JsValue)

def keyringEntry (entry : JsString × JsValue) : Option (JsString × JsString) :=
  match entry.2 with
  | .string secret =>
    if safeKeyId entry.1 = true ∧ 32 ≤ secret.length then some (entry.1, secret) else none
  | _ => none

/-- The assignments to the plain object. One to `__proto__` of a string has no effect. -/
def assigned (entries : List (JsString × JsString)) : List (JsString × JsString) :=
  entries.filter fun entry => entry.1 ≠ utf16 "__proto__"

/-- The transformation of `CRYPTO_KEYRING`; `none` if it adds an issue. -/
def parseKeyring : KeyringText → Option (List (JsString × JsString))
  | .blank => some []
  | .malformed => none
  | .parsed (.object entries) => (entries.mapM keyringEntry).map assigned
  | .parsed _ => none

/-- What a key ring of the environment has been checked for. -/
def SafeEntry (entry : JsString × JsString) : Prop :=
  safeKeyId entry.1 = true ∧ 32 ≤ entry.2.length

/-- An environment that has been accepted. -/
structure Environment where
  tokenHashSecret : JsString
  activeKeyId : JsString
  keyring : List (JsString × JsString)
  secret_length : 32 ≤ tokenHashSecret.length
  active_safe : safeKeyId activeKeyId = true
  entry_safe : ∀ entry ∈ keyring, SafeEntry entry
  active_mem : keyring ≠ [] → activeKeyId ∈ keyring.map Prod.fst

structure RawEnvironment where
  tokenHashSecret : Option JsString
  activeKeyId : Option JsString := none
  keyring : KeyringText := .blank

theorem keyringEntry_safe {entry : JsString × JsValue} {assignment : JsString × JsString}
    (h : keyringEntry entry = some assignment) : SafeEntry assignment := by
  unfold keyringEntry at h
  split at h
  · next secret hsecret =>
    obtain ⟨hsafe, hassignment⟩ := Option.ite_none_right_eq_some.mp h
    cases hassignment
    exact hsafe
  · exact absurd h nofun

theorem keyringEntries_safe {entries : List (JsString × JsValue)}
    {assignments : List (JsString × JsString)} (h : entries.mapM keyringEntry = some assignments) :
    ∀ entry ∈ assignments, SafeEntry entry := by
  induction entries generalizing assignments with
  | nil =>
    cases h
    exact List.forall_mem_nil _
  | cons entry entries ih =>
    rw [List.mapM_cons] at h
    obtain ⟨assignment, hfirst, h⟩ := Option.bind_eq_some_iff.mp h
    obtain ⟨rest, hrest, h⟩ := Option.bind_eq_some_iff.mp h
    cases h
    exact List.forall_mem_cons.mpr ⟨keyringEntry_safe hfirst, ih hrest⟩

theorem parseKeyring_safe {text : KeyringText} {keyring : List (JsString × JsString)}
    (h : parseKeyring text = some keyring) : ∀ entry ∈ keyring, SafeEntry entry := by
  unfold parseKeyring at h
  split at h
  · cases h
    exact List.forall_mem_nil _
  · exact absurd h nofun
  · obtain ⟨assignments, hassignments, rfl⟩ := Option.map_eq_some_iff.mp h
    exact fun entry hentry =>
      keyringEntries_safe hassignments entry (List.mem_of_mem_filter hentry)
  · exact absurd h nofun

/-- The schema, of these variables. -/
def parseEnvironment (raw : RawEnvironment) : Option Environment :=
  match raw.tokenHashSecret, hkeyring : parseKeyring raw.keyring with
  | some tokenHashSecret, some keyring =>
    let activeKeyId := raw.activeKeyId.getD (utf16 "legacy")
    if h : 32 ≤ tokenHashSecret.length ∧ safeKeyId activeKeyId = true ∧
        (keyring ≠ [] → activeKeyId ∈ keyring.map Prod.fst) then
      some {
        tokenHashSecret, activeKeyId, keyring
        secret_length := h.1
        active_safe := h.2.1
        entry_safe := parseKeyring_safe hkeyring
        active_mem := h.2.2 }
    else none
  | _, _ => none

/-- The keyring that is used: an empty one stands for the active id mapped to the secret. -/
def Environment.cryptoKeyring (e : Environment) : List (JsString × JsString) :=
  if e.keyring ≠ [] then e.keyring else [(e.activeKeyId, e.tokenHashSecret)]

/-! ### Keys and hashes -/

def keyDerivationSalt : Bytes := encodeUtf8 (utf16 "backend-foundation:crypto:v1")

inductive HashPurpose
  | opaqueToken | metadata
deriving DecidableEq

def HashPurpose.info : HashPurpose → Bytes
  | .opaqueToken => encodeUtf8 (utf16 "opaque-token")
  | .metadata => encodeUtf8 (utf16 "metadata")

def encryptionInfo : Bytes := encodeUtf8 (utf16 "encryption")

/-- What a plain object has besides its own keys. -/
def objectPrototype : List JsString :=
  ["constructor", "__defineGetter__", "__defineSetter__", "hasOwnProperty", "__lookupGetter__",
    "__lookupSetter__", "isPrototypeOf", "propertyIsEnumerable", "toString", "valueOf", "__proto__",
    "toLocaleString"].map utf16

variable (P : Primitives) (e : Environment)

def derivedKey (keyId : JsString) (info : Bytes) : Except CryptoError Bytes :=
  match e.cryptoKeyring.lookup keyId with
  | some master =>
    if master = [] then .error (.unknownKeyId keyId)
    else .ok (P.hkdfSync (encodeUtf8 master) keyDerivationSalt info)
  | none => if keyId ∈ objectPrototype then .error .notText else .error (.unknownKeyId keyId)

def versionedHmac (keyId : JsString) (purpose : HashPurpose) (value : JsString) :
    Except CryptoError JsString :=
  (derivedKey P e keyId purpose.info).map fun key =>
    utf16 "v1." ++ keyId ++ utf16 "." ++ encodeBase64Url (P.hmac key (encodeUtf8 value))

/-- The hash before there was a keyring. -/
def legacyHash (value : JsString) : JsString :=
  encodeBase64Url (P.hmac (encodeUtf8 e.tokenHashSecret) (encodeUtf8 value))

def versionedHash (purpose : HashPurpose) (value : JsString) : Except CryptoError JsString :=
  versionedHmac P e e.activeKeyId purpose value

def candidateHashes (purpose : HashPurpose) (value : JsString) :
    Except CryptoError (List JsString) := do
  let hashes ← (e.cryptoKeyring.map Prod.fst).mapM fun keyId =>
    versionedHmac P e keyId purpose value
  return hashes ++ [legacyHash P e value]

def hashOpaqueToken (token : JsString) : Except CryptoError JsString :=
  versionedHash P e .opaqueToken token

def candidateOpaqueTokenHashes (token : JsString) : Except CryptoError (List JsString) :=
  candidateHashes P e .opaqueToken token

def hashMetadata (value : JsString) : Except CryptoError JsString :=
  versionedHash P e .metadata value

def candidateMetadataHashes (value : JsString) : Except CryptoError (List JsString) :=
  candidateHashes P e .metadata value

/-! ### Secrets -/

def dot : UInt16 := 46

/-- `parts.join('.')`. -/
def joinParts (parts : List JsString) : JsString := [dot].intercalate parts

def encryptSecret (iv : Bytes) (value : JsString) : Except CryptoError JsString :=
  (derivedKey P e e.activeKeyId encryptionInfo).map fun key =>
    let (ciphertext, tag) := P.encrypt key iv (encodeUtf8 value)
    joinParts [utf16 "v1", e.activeKeyId, encodeBase64Url iv, encodeBase64Url tag,
      encodeBase64Url ciphertext]

def decipher (key : Bytes) (iv tag ciphertext : JsString) : Except CryptoError JsString :=
  match P.decrypt key (decodeBase64Url iv) (decodeBase64Url tag) (decodeBase64Url ciphertext) with
  | some plaintext => .ok (decodeUtf8 plaintext)
  | none => .error .notAuthentic

def decryptSecret (value : JsString) : Except CryptoError JsString :=
  match value.splitOn dot with
  | [version, keyId, iv, tag, ciphertext] =>
    if version = utf16 "v1" then
      (derivedKey P e keyId encryptionInfo).bind fun key => decipher P key iv tag ciphertext
    else .error .invalidPayload
  | [iv, tag, ciphertext] => decipher P (P.sha256 (encodeUtf8 e.tokenHashSecret)) iv tag ciphertext
  | _ => .error .invalidPayload

/-- A secret as it was written before there were key ids. -/
def legacySecret (iv : Bytes) (value : JsString) : JsString :=
  let (ciphertext, tag) :=
    P.encrypt (P.sha256 (encodeUtf8 e.tokenHashSecret)) iv (encodeUtf8 value)
  joinParts [encodeBase64Url iv, encodeBase64Url tag, encodeBase64Url ciphertext]

/-! ### Histories -/

/-- A later environment has the keys of an earlier one, and its secret. -/
structure Keeps (e e' : Environment) : Prop where
  keys : ∀ keyId master, e.cryptoKeyring.lookup keyId = some master →
    e'.cryptoKeyring.lookup keyId = some master
  secret : e'.tokenHashSecret = e.tokenHashSecret

variable {P e} {e' : Environment} {keyId : JsString}

theorem Keeps.refl (e : Environment) : Keeps e e := ⟨fun _ _ h => h, rfl⟩

theorem Keeps.trans {e'' : Environment} (h : Keeps e e') (h' : Keeps e' e'') : Keeps e e'' :=
  ⟨fun keyId master hmaster => h'.keys keyId master (h.keys keyId master hmaster),
    h'.secret.trans h.secret⟩

theorem keeps_of_isChain {history : List Environment} (hchain : history.IsChain Keeps) {i j : ℕ}
    (hij : i ≤ j) (hi : history[i]? = some e) (hj : history[j]? = some e') : Keeps e e' := by
  have : Trans Keeps Keeps Keeps := ⟨Keeps.trans⟩
  have hpairwise := List.isChain_iff_pairwise.mp hchain
  obtain ⟨hi', rfl⟩ := List.getElem?_eq_some_iff.mp hi
  obtain ⟨hj', rfl⟩ := List.getElem?_eq_some_iff.mp hj
  rcases Nat.eq_or_lt_of_le hij with rfl | hlt
  · exact Keeps.refl _
  · exact List.pairwise_iff_getElem.mp hpairwise i j hi' hj' hlt

/-! ### The keys there are -/

theorem cryptoKeyring_safe (e : Environment) : ∀ entry ∈ e.cryptoKeyring, SafeEntry entry := by
  intro entry hentry
  unfold Environment.cryptoKeyring at hentry
  split at hentry
  · exact e.entry_safe entry hentry
  · rw [List.mem_singleton] at hentry
    rw [hentry]
    exact ⟨e.active_safe, e.secret_length⟩

theorem active_mem_cryptoKeyring (e : Environment) :
    e.activeKeyId ∈ e.cryptoKeyring.map Prod.fst := by
  unfold Environment.cryptoKeyring
  split
  · next hkeyring => exact e.active_mem hkeyring
  · simp

theorem lookup_of_mem (h : keyId ∈ e.cryptoKeyring.map Prod.fst) :
    ∃ master, e.cryptoKeyring.lookup keyId = some master := by
  obtain ⟨entry, hentry, rfl⟩ := List.mem_map.mp h
  exact Option.isSome_iff_exists.mp (List.lookup_isSome_iff.mpr ⟨entry, hentry, beq_self_eq_true _⟩)

theorem safe_of_lookup {master : JsString} (h : e.cryptoKeyring.lookup keyId = some master) :
    SafeEntry (keyId, master) := by
  obtain ⟨before, after, heq, -⟩ := List.lookup_eq_some_iff.mp h
  have hmem : (keyId, master) ∈ e.cryptoKeyring := by simp [heq]
  exact cryptoKeyring_safe e _ hmem

theorem mem_of_lookup {master : JsString} (h : e.cryptoKeyring.lookup keyId = some master) :
    keyId ∈ e.cryptoKeyring.map Prod.fst := by
  obtain ⟨before, after, heq, -⟩ := List.lookup_eq_some_iff.mp h
  simp [heq]

theorem Keeps.exists_key (hkeeps : Keeps e e') (h : keyId ∈ e.cryptoKeyring.map Prod.fst)
    (info : Bytes) : ∃ key, derivedKey P e keyId info = .ok key ∧
      derivedKey P e' keyId info = .ok key := by
  obtain ⟨master, hmaster⟩ := lookup_of_mem h
  have hne : master ≠ [] := by
    have hlength := (safe_of_lookup hmaster).2
    rintro rfl
    simp at hlength
  refine ⟨P.hkdfSync (encodeUtf8 master) keyDerivationSalt info, ?_, ?_⟩
  · rw [derivedKey, hmaster]
    simp [hne]
  · rw [derivedKey, hkeeps.keys keyId master hmaster]
    simp [hne]

theorem Keeps.mem (hkeeps : Keeps e e') (h : keyId ∈ e.cryptoKeyring.map Prod.fst) :
    keyId ∈ e'.cryptoKeyring.map Prod.fst := by
  obtain ⟨master, hmaster⟩ := lookup_of_mem h
  exact mem_of_lookup (hkeeps.keys keyId master hmaster)

theorem dot_not_mem_keyId (h : keyId ∈ e.cryptoKeyring.map Prod.fst) : dot ∉ keyId := by
  obtain ⟨master, hmaster⟩ := lookup_of_mem h
  have hsafe := (safe_of_lookup hmaster).1
  simp only [safeKeyId, Bool.and_eq_true, List.all_eq_true] at hsafe
  intro hdot
  exact absurd (hsafe.2 dot hdot) (by decide)

/-! ### Hashes -/

def hashText (keyId : JsString) (digest : Bytes) : JsString :=
  joinParts [utf16 "v1", keyId, encodeBase64Url digest]

theorem splitOn_joinParts {parts : List JsString} (hne : parts ≠ [])
    (hparts : ∀ part ∈ parts, dot ∉ part) : (joinParts parts).splitOn dot = parts :=
  List.splitOn_intercalate dot hparts hne

theorem dot_not_mem_version : dot ∉ utf16 "v1" := by
  decide

theorem splitOn_hashText (h : dot ∉ keyId) (digest : Bytes) :
    (hashText keyId digest).splitOn dot = [utf16 "v1", keyId, encodeBase64Url digest] := by
  refine splitOn_joinParts (List.cons_ne_nil _ _) fun part hpart => ?_
  simp only [List.mem_cons, List.not_mem_nil, or_false] at hpart
  rcases hpart with rfl | rfl | rfl
  · exact dot_not_mem_version
  · exact h
  · exact dot_not_mem digest

variable {purpose : HashPurpose}

theorem versionedHmac_eq {key : Bytes} (h : derivedKey P e keyId purpose.info = .ok key)
    (value : JsString) : versionedHmac P e keyId purpose value =
      .ok (hashText keyId (P.hmac key (encodeUtf8 value))) := by
  rw [versionedHmac, h]
  simp [hashText, joinParts, Except.map, List.intercalate, dot, utf16]

theorem exists_mapM {ε α β : Type} {f : α → Except ε β} {xs : List α}
    (h : ∀ x ∈ xs, ∃ y, f x = .ok y) :
    ∃ ys, xs.mapM f = .ok ys ∧ ∀ y, y ∈ ys ↔ ∃ x ∈ xs, f x = .ok y := by
  induction xs with
  | nil => exact ⟨[], rfl, by simp⟩
  | cons x xs ih =>
    obtain ⟨y, hy⟩ := h x List.mem_cons_self
    obtain ⟨ys, hys, hmem⟩ := ih fun x' hx' => h x' (List.mem_cons_of_mem _ hx')
    refine ⟨y :: ys, ?_, fun z => ?_⟩
    · rw [List.mapM_cons, hy, hys]
      rfl
    · rw [List.mem_cons, hmem, List.exists_mem_cons_iff, hy, Except.ok.injEq, eq_comm]

/-- The candidates are the hashes under the keys there are, and the one of before. -/
theorem exists_candidates (P : Primitives) (e : Environment) (purpose : HashPurpose)
    (value : JsString) :
    ∃ candidates, candidateHashes P e purpose value = .ok candidates ∧
      ∀ hash, hash ∈ candidates ↔
        (∃ keyId ∈ e.cryptoKeyring.map Prod.fst, versionedHmac P e keyId purpose value = .ok hash) ∨
          hash = legacyHash P e value := by
  have hkeys (keyId) (hkeyId : keyId ∈ e.cryptoKeyring.map Prod.fst) :
      ∃ hash, versionedHmac P e keyId purpose value = .ok hash := by
    obtain ⟨key, hkey, -⟩ := (Keeps.refl e).exists_key (P := P) hkeyId purpose.info
    exact ⟨_, versionedHmac_eq hkey value⟩
  obtain ⟨hashes, hhashes, hmem⟩ := exists_mapM hkeys
  refine ⟨hashes ++ [legacyHash P e value], ?_, fun hash => ?_⟩
  · rw [candidateHashes, hhashes]
    rfl
  · rw [List.mem_append, List.mem_singleton, hmem]

/-- **What was hashed is looked up.** The hash of an earlier environment is a candidate, and so is
the one of before there were key ids. -/
theorem Keeps.candidates (hkeeps : Keeps e e') (purpose : HashPurpose) (value : JsString) :
    ∃ hash candidates, versionedHash P e purpose value = .ok hash ∧
      candidateHashes P e' purpose value = .ok candidates ∧
      hash ∈ candidates ∧ legacyHash P e value ∈ candidates := by
  obtain ⟨candidates, hcandidates, hmem⟩ := exists_candidates P e' purpose value
  have hactive := active_mem_cryptoKeyring e
  obtain ⟨key, hkey, hkey'⟩ := hkeeps.exists_key (P := P) hactive purpose.info
  refine ⟨_, candidates, versionedHmac_eq hkey value, hcandidates, ?_, ?_⟩
  · exact (hmem _).mpr (.inl ⟨e.activeKeyId, hkeeps.mem hactive, versionedHmac_eq hkey' value⟩)
  · exact (hmem _).mpr (.inr (by rw [legacyHash, legacyHash, hkeeps.secret]))

/-- A text with the digest of a message, in either format. -/
inductive DigestOf (P : Primitives) (message : Bytes) : JsString → Prop
  | versioned (keyId : JsString) (key : Bytes) (hdot : dot ∉ keyId) :
    DigestOf P message (hashText keyId (P.hmac key message))
  | legacy (key : Bytes) : DigestOf P message (encodeBase64Url (P.hmac key message))

theorem hashText_ne_encodeBase64Url (keyId : JsString) (digest digest' : Bytes) :
    hashText keyId digest ≠ encodeBase64Url digest' := by
  intro heq
  have hdot : dot ∈ hashText keyId digest := by
    simp [hashText, joinParts, List.intercalate]
  rw [heq] at hdot
  exact dot_not_mem _ hdot

theorem hashText_inj {keyId' : JsString} {digest digest' : Bytes} (h : dot ∉ keyId)
    (h' : dot ∉ keyId') (heq : hashText keyId digest = hashText keyId' digest') :
    digest = digest' := by
  have hsplit := congrArg (List.splitOn dot) heq
  rw [splitOn_hashText h, splitOn_hashText h'] at hsplit
  simp only [List.cons.injEq, true_and, and_true] at hsplit
  exact encodeBase64Url_inj hsplit.2

theorem DigestOf.eq (hideal : Ideal P) {a b : Bytes} {hash hash' : JsString}
    (ha : DigestOf P a hash) (hb : DigestOf P b hash') (heq : hash = hash') : a = b := by
  cases ha with
  | versioned keyId key hdot =>
    cases hb with
    | versioned keyId' key' hdot' => exact hideal.hmac_inj _ _ _ _ (hashText_inj hdot hdot' heq)
    | legacy key' => exact absurd heq (hashText_ne_encodeBase64Url _ _ _)
  | legacy key =>
    cases hb with
    | versioned keyId' key' hdot' => exact absurd heq.symm (hashText_ne_encodeBase64Url _ _ _)
    | legacy key' => exact hideal.hmac_inj _ _ _ _ (encodeBase64Url_inj heq)

theorem digestOf_versionedHmac {value hash : JsString}
    (hkeyId : keyId ∈ e.cryptoKeyring.map Prod.fst)
    (h : versionedHmac P e keyId purpose value = .ok hash) :
    DigestOf P (encodeUtf8 value) hash := by
  obtain ⟨key, hkey, -⟩ := (Keeps.refl e).exists_key (P := P) hkeyId purpose.info
  rw [versionedHmac_eq hkey] at h
  cases h
  exact .versioned keyId key (dot_not_mem_keyId hkeyId)

/-- A hash that is created for a value: under the active key, or as it was before there were key
ids. -/
def CreatedFor (P : Primitives) (e : Environment) (purpose : HashPurpose) (value hash : JsString) :
    Prop :=
  versionedHash P e purpose value = .ok hash ∨ hash = legacyHash P e value

theorem CreatedFor.digestOf {value hash : JsString} (h : CreatedFor P e purpose value hash) :
    DigestOf P (encodeUtf8 value) hash := by
  rcases h with h | rfl
  · exact digestOf_versionedHmac (active_mem_cryptoKeyring e) h
  · exact .legacy _

/-- **A hash is a candidate of what it was created for only**, as far as the bytes go. -/
theorem CreatedFor.bytes_eq (hideal : Ideal P) {purpose purpose' : HashPurpose}
    {a b hash : JsString} {candidates : List JsString} (hcreated : CreatedFor P e purpose b hash)
    (hcandidates : candidateHashes P e' purpose' a = .ok candidates) (hmem : hash ∈ candidates) :
    encodeUtf8 a = encodeUtf8 b := by
  obtain ⟨_, hcandidates', hiff⟩ := exists_candidates P e' purpose' a
  rw [hcandidates] at hcandidates'
  cases hcandidates'
  have ha : DigestOf P (encodeUtf8 a) hash := by
    rcases (hiff hash).mp hmem with ⟨keyId, hkeyId, hhash⟩ | rfl
    · exact digestOf_versionedHmac hkeyId hhash
    · exact .legacy _
  exact ha.eq hideal hcreated.digestOf rfl

/-! ### Secrets that are read -/

theorem decipher_encrypt (hideal : Ideal P) (key iv plaintext : Bytes) :
    decipher P key (encodeBase64Url iv) (encodeBase64Url (P.encrypt key iv plaintext).2)
      (encodeBase64Url (P.encrypt key iv plaintext).1) = .ok (decodeUtf8 plaintext) := by
  unfold decipher
  simp only [decodeBase64Url_encodeBase64Url, hideal.decrypt_encrypt]

/-- **What was encrypted is read**, up to what its bytes say. -/
theorem Keeps.decryptSecret_encryptSecret (hideal : Ideal P) (hkeeps : Keeps e e') (iv : Bytes)
    (value : JsString) :
    ∃ text, encryptSecret P e iv value = .ok text ∧
      decryptSecret P e' text = .ok (decodeUtf8 (encodeUtf8 value)) := by
  have hactive := active_mem_cryptoKeyring e
  obtain ⟨key, hkey, hkey'⟩ := hkeeps.exists_key (P := P) hactive encryptionInfo
  have hparts : ∀ part ∈ [utf16 "v1", e.activeKeyId, encodeBase64Url iv,
      encodeBase64Url (P.encrypt key iv (encodeUtf8 value)).2,
      encodeBase64Url (P.encrypt key iv (encodeUtf8 value)).1], dot ∉ part := by
    simp only [List.forall_mem_cons]
    exact ⟨dot_not_mem_version, dot_not_mem_keyId hactive, dot_not_mem _, dot_not_mem _,
      dot_not_mem _, List.forall_mem_nil _⟩
  refine ⟨_, by rw [encryptSecret, hkey]; rfl, ?_⟩
  rw [decryptSecret, splitOn_joinParts (List.cons_ne_nil _ _) hparts]
  simp only [↓reduceIte, hkey', Except.bind]
  exact decipher_encrypt hideal _ _ _

theorem Keeps.decryptSecret_legacySecret (hideal : Ideal P) (hkeeps : Keeps e e') (iv : Bytes)
    (value : JsString) :
    decryptSecret P e' (legacySecret P e iv value) = .ok (decodeUtf8 (encodeUtf8 value)) := by
  let key := P.sha256 (encodeUtf8 e.tokenHashSecret)
  have hparts : ∀ part ∈ [encodeBase64Url iv,
      encodeBase64Url (P.encrypt key iv (encodeUtf8 value)).2,
      encodeBase64Url (P.encrypt key iv (encodeUtf8 value)).1], dot ∉ part := by
    simp only [List.forall_mem_cons]
    exact ⟨dot_not_mem _, dot_not_mem _, dot_not_mem _,
      List.forall_mem_nil _⟩
  rw [decryptSecret, legacySecret, splitOn_joinParts (List.cons_ne_nil _ _) hparts]
  simp only [hkeeps.secret]
  exact decipher_encrypt hideal _ _ _

/-! ### The ideal keyring -/

theorem utf16_append (a b : String) : utf16 (a ++ b) = utf16 a ++ utf16 b := by
  unfold utf16
  rw [String.toList_append, List.flatMap_append]

/-- The hash functions and the key ids that the rest of the program is modelled with. -/
structure Represents (P : Primitives) (e : Environment) (R : Runtime) (K : Keyring) : Prop where
  keyIds : e.cryptoKeyring.map Prod.fst = K.keyIds.map utf16
  activeKeyId : e.activeKeyId = utf16 K.activeKeyId
  hmac : ∀ keyId ∈ K.keyIds, ∀ value, ∃ key,
    derivedKey P e (utf16 keyId) HashPurpose.metadata.info = .ok key ∧
      encodeBase64Url (P.hmac key (encodeUtf8 (utf16 value))) = utf16 (R.hmac keyId value)
  legacyHmac : ∀ value, legacyHash P e (utf16 value) = utf16 (R.legacyHmac value)

variable {R : Runtime} {K : Keyring} {value : String}

theorem Represents.versionedHmac (h : Represents P e R K) {id : String} (hid : id ∈ K.keyIds) :
    versionedHmac P e (utf16 id) .metadata (utf16 value) =
      .ok (utf16 (MetadataHash.v1 id (R.hmac id value)).text) := by
  obtain ⟨key, hkey, hdigest⟩ := h.hmac id hid value
  rw [versionedHmac_eq hkey, hashText, hdigest, MetadataHash.text, utf16_append, utf16_append,
    utf16_append]
  simp [joinParts, List.intercalate, dot, utf16]

theorem Represents.hashMetadata (h : Represents P e R K) :
    hashMetadata P e (utf16 value) = .ok (utf16 (Crypto.hashMetadata R K value).text) := by
  rw [Rotation.hashMetadata, versionedHash, h.activeKeyId]
  exact h.versionedHmac K.active_mem

theorem Represents.candidateMetadataHashes (h : Represents P e R K) {candidates : List JsString}
    (hcandidates : candidateMetadataHashes P e (utf16 value) = .ok candidates) (hash : JsString) :
    hash ∈ candidates ↔
      ∃ ideal ∈ Crypto.candidateMetadataHashes R K value, hash = utf16 ideal.text := by
  obtain ⟨_, hcandidates', hiff⟩ := exists_candidates P e .metadata (utf16 value)
  obtain rfl := Except.ok.inj (hcandidates.symm.trans hcandidates')
  rw [hiff, h.keyIds, h.legacyHmac]
  simp only [mem_candidateMetadataHashes]
  constructor
  · rintro (⟨keyId, hkeyId, hhash⟩ | rfl)
    · obtain ⟨id, hid, rfl⟩ := List.mem_map.mp hkeyId
      rw [h.versionedHmac hid] at hhash
      exact ⟨_, .inl ⟨id, hid, rfl⟩, (Except.ok.inj hhash).symm⟩
    · exact ⟨_, .inr rfl, rfl⟩
  · rintro ⟨ideal, ⟨id, hid, rfl⟩ | rfl, rfl⟩
    · exact .inl ⟨utf16 id, List.mem_map_of_mem hid, h.versionedHmac hid⟩
    · exact .inr rfl

/-- The text with these ASCII units. -/
def asciiText (text : JsString) : String := String.ofList (text.map fun u => Char.ofNat u.toNat)

theorem utf16_asciiText {text : JsString} (h : ∀ u ∈ text, u.toNat < 128) :
    utf16 (asciiText text) = text := by
  unfold utf16 asciiText
  rw [String.toList_ofList]
  induction text with
  | nil => rfl
  | cons u text ih =>
    have hlt := h u List.mem_cons_self
    have hvalid : u.toNat.isValidChar := .inl (by omega)
    have hchar : (Char.ofNat u.toNat).toNat = u.toNat := by
      rw [Char.ofNat, dif_pos hvalid]
      rfl
    have hunit : u.toNat.toUInt16 = u := UInt16.ofNat_toNat
    rw [List.map_cons, List.flatMap_cons, ih fun v hv => h v (List.mem_cons_of_mem _ hv), hchar,
      if_pos (by omega), hunit]
    rfl

theorem ascii_of_mem_keyId (h : keyId ∈ e.cryptoKeyring.map Prod.fst) :
    ∀ u ∈ keyId, u.toNat < 128 := by
  obtain ⟨master, hmaster⟩ := lookup_of_mem h
  have hsafe := (safe_of_lookup hmaster).1
  simp only [safeKeyId, Bool.and_eq_true, List.all_eq_true] at hsafe
  intro u hu
  have hunit := hsafe.2 u hu
  simp only [isKeyIdUnit, Bool.or_eq_true, Bool.and_eq_true, decide_eq_true_eq,
    UInt16.le_iff_toNat_le, ← UInt16.toNat_inj] at hunit
  simp at hunit
  omega

/-- The ids of an environment as texts. -/
def keyringOf (e : Environment) : Keyring where
  keyIds := (e.cryptoKeyring.map Prod.fst).map asciiText
  activeKeyId := asciiText e.activeKeyId
  active_mem := List.mem_map_of_mem (active_mem_cryptoKeyring e)

/-- The hashes of an environment as texts. -/
def runtimeOf (P : Primitives) (e : Environment) (strings : Runtime) : Runtime :=
  { strings with
    hmac := fun keyId value =>
      match derivedKey P e (utf16 keyId) HashPurpose.metadata.info with
      | .ok key => asciiText (encodeBase64Url (P.hmac key (encodeUtf8 (utf16 value))))
      | .error _ => ""
    legacyHmac := fun value => asciiText (legacyHash P e (utf16 value)) }

theorem represents (P : Primitives) (e : Environment) (strings : Runtime) :
    Represents P e (runtimeOf P e strings) (keyringOf e) where
  keyIds := by
    have htext : ∀ keyId ∈ e.cryptoKeyring.map Prod.fst, (utf16 ∘ asciiText) keyId = keyId :=
      fun keyId hkeyId => utf16_asciiText (ascii_of_mem_keyId hkeyId)
    rw [keyringOf, List.map_map, List.map_congr_left htext, List.map_id']
  activeKeyId := (utf16_asciiText (ascii_of_mem_keyId (active_mem_cryptoKeyring e))).symm
  hmac id hid value := by
    obtain ⟨keyId, hkeyId, rfl⟩ := List.mem_map.mp hid
    rw [utf16_asciiText (ascii_of_mem_keyId hkeyId)]
    obtain ⟨key, hkey, -⟩ := (Keeps.refl e).exists_key (P := P) hkeyId HashPurpose.metadata.info
    refine ⟨key, hkey, ?_⟩
    simp only [runtimeOf, utf16_asciiText (ascii_of_mem_keyId hkeyId), hkey]
    rw [utf16_asciiText fun u hu => ascii_of_mem hu]
  legacyHmac value := (utf16_asciiText fun u hu => ascii_of_mem hu).symm

theorem Keeps.decryptSecret_ideal (hideal : Ideal P) (hkeeps : Keeps e e') (iv : Bytes)
    (value : String) :
    ∃ text plaintext, encryptSecret P e iv (utf16 value) = .ok text ∧
      Crypto.decryptSecret (keyringOf e') (Crypto.encryptSecret (keyringOf e) value) =
        .ok plaintext ∧
      decryptSecret P e' text = .ok (utf16 plaintext) := by
  obtain ⟨text, hencrypt, hdecrypt⟩ :=
    hkeeps.decryptSecret_encryptSecret hideal iv (utf16 value)
  rw [decodeUtf8_encodeUtf8 (wellFormed_utf16 value)] at hdecrypt
  have hmem : asciiText e.activeKeyId ∈ (keyringOf e').keyIds :=
    List.mem_map_of_mem (hkeeps.mem (active_mem_cryptoKeyring e))
  exact ⟨text, value, hencrypt, if_pos hmem, hdecrypt⟩

/-! ### A rotation -/

/-- Functions that are ideal: a digest spells its message and its key, and a ciphertext is the plain
text with the key as its tag. -/
def transparent : Primitives where
  hkdfSync master salt info := info ++ salt ++ master
  hmac key message := message.flatMap (fun b => [1, b]) ++ 0 :: key
  sha256 message := message
  encrypt key iv plaintext := (plaintext, key ++ iv)
  decrypt key iv tag ciphertext := if tag = key ++ iv then some ciphertext else none

theorem transparent_ideal : Ideal transparent where
  decrypt_encrypt key iv plaintext := if_pos rfl
  hmac_inj key key' a b h := by
    change a.flatMap (fun b => [1, b]) ++ 0 :: key = b.flatMap (fun b => [1, b]) ++ 0 :: key' at h
    induction a generalizing b with
    | nil =>
      cases b with
      | nil => rfl
      | cons y b => simp at h
    | cons x a ih =>
      cases b with
      | nil => simp at h
      | cons y b =>
        simp only [List.flatMap_cons, List.cons_append, List.nil_append, List.cons.injEq,
          true_and] at h
        rw [h.1, ih b h.2]

/-- An environment without a keyring. -/
def plain : Environment where
  tokenHashSecret := List.replicate 32 97
  activeKeyId := utf16 "legacy"
  keyring := []
  secret_length := by decide
  active_safe := by decide
  entry_safe := by simp
  active_mem := by simp

/-- The same after a rotation: the keyring has the secret under its old id, and a new key. -/
def rotated : Environment where
  tokenHashSecret := List.replicate 32 97
  activeKeyId := utf16 "2026-08"
  keyring := [(utf16 "legacy", List.replicate 32 97), (utf16 "2026-08", List.replicate 40 98)]
  secret_length := by decide
  active_safe := by decide
  entry_safe := by
    simp only [List.forall_mem_cons, SafeEntry]
    exact ⟨by decide, by decide, List.forall_mem_nil _⟩
  active_mem _ := by decide

theorem plain_keeps_rotated : Keeps plain rotated where
  keys keyId master h := by
    change [(utf16 "legacy", List.replicate 32 97)].lookup keyId = some master at h
    rw [List.lookup_singleton] at h
    obtain ⟨hkeyId, hmaster⟩ := Option.ite_none_right_eq_some.mp h
    rw [beq_iff_eq] at hkeyId
    rw [hkeyId, ← hmaster]
    rfl
  secret := rfl

/-! ### Every history -/

/-- What was written under the first environment is read under the second. -/
structure ReadableUnder (P : Primitives) (e e' : Environment) : Prop where
  secrets : ∀ iv value, wellFormed value = true →
    ∃ text, encryptSecret P e iv value = .ok text ∧ decryptSecret P e' text = .ok value
  legacySecrets : ∀ iv value, wellFormed value = true →
    decryptSecret P e' (legacySecret P e iv value) = .ok value
  opaqueTokens : ∀ token, ∃ hash candidates, hashOpaqueToken P e token = .ok hash ∧
    candidateOpaqueTokenHashes P e' token = .ok candidates ∧
    hash ∈ candidates ∧ legacyHash P e token ∈ candidates
  metadata : ∀ value, ∃ hash candidates, hashMetadata P e value = .ok hash ∧
    candidateMetadataHashes P e' value = .ok candidates ∧
    hash ∈ candidates ∧ legacyHash P e value ∈ candidates

theorem Keeps.readableUnder (hideal : Ideal P) (hkeeps : Keeps e e') : ReadableUnder P e e' where
  secrets iv value hwell := by
    obtain ⟨text, hencrypt, hdecrypt⟩ := hkeeps.decryptSecret_encryptSecret hideal iv value
    rw [decodeUtf8_encodeUtf8 hwell] at hdecrypt
    exact ⟨text, hencrypt, hdecrypt⟩
  legacySecrets iv value hwell := by
    rw [hkeeps.decryptSecret_legacySecret hideal, decodeUtf8_encodeUtf8 hwell]
  opaqueTokens token := hkeeps.candidates .opaqueToken token
  metadata value := hkeeps.candidates .metadata value

/-- **Rotation keeps what was written readable.** Along a history in which each environment keeps
the keys and the secret of the one before, what was written under one is read under all that follow;
and a hash is a candidate of the value that it was created for, and of no other. -/
theorem rotation_keeps_readable (hideal : Ideal P) {history : List Environment}
    (hchain : history.IsChain Keeps) {i j : ℕ} (hij : i ≤ j) (hi : history[i]? = some e)
    (hj : history[j]? = some e') :
    ReadableUnder P e e' ∧
      ∀ (e₁ e₂ : Environment) (purpose purpose' : HashPurpose) (a b hash : JsString)
        (candidates : List JsString), wellFormed a = true → wellFormed b = true →
        CreatedFor P e₁ purpose b hash → candidateHashes P e₂ purpose' a = .ok candidates →
        hash ∈ candidates → a = b := by
  refine ⟨(keeps_of_isChain hchain hij hi hj).readableUnder hideal, ?_⟩
  intro e₁ e₂ purpose purpose' a b hash candidates ha hb hcreated hcandidates hmem
  exact encodeUtf8_inj ha hb (hcreated.bytes_eq hideal hcandidates hmem)

theorem rotation_keeps_readable_example :
    ReadableUnder transparent plain rotated ∧
      ¬ ∃ hash candidates, CreatedFor transparent plain .metadata (utf16 "curl") hash ∧
        candidateMetadataHashes transparent rotated (utf16 "wget") = .ok candidates ∧
        hash ∈ candidates := by
  have hchain : [plain, rotated].IsChain Keeps :=
    List.isChain_cons_cons.mpr ⟨plain_keeps_rotated, .singleton _⟩
  obtain ⟨hreadable, hunique⟩ :=
    rotation_keeps_readable transparent_ideal hchain (Nat.zero_le 1) rfl rfl
  refine ⟨hreadable, ?_⟩
  rintro ⟨hash, candidates, hcreated, hcandidates, hmem⟩
  have heq := hunique plain rotated .metadata .metadata (utf16 "wget") (utf16 "curl") hash
    candidates (by decide) (by decide) hcreated hcandidates hmem
  exact absurd heq (by decide)

/-- The half of a surrogate pair is written as the replacement character: this is what is read, and
the two have the same hashes. -/
theorem lone_surrogate :
    Ideal transparent ∧ Keeps plain rotated ∧
      (∃ text, encryptSecret transparent plain [7] [0xD800] = .ok text ∧
        decryptSecret transparent rotated text = .ok [0xFFFD]) ∧
      ∃ hash candidates, hashOpaqueToken transparent plain [0xFFFD] = .ok hash ∧
        candidateOpaqueTokenHashes transparent rotated [0xD800] = .ok candidates ∧
        hash ∈ candidates := by
  have hbytes : encodeUtf8 [0xD800] = encodeUtf8 [0xFFFD] := by decide
  refine ⟨transparent_ideal, plain_keeps_rotated, ?_, ?_⟩
  · obtain ⟨text, hencrypt, hdecrypt⟩ :=
      plain_keeps_rotated.decryptSecret_encryptSecret transparent_ideal [7] [0xD800]
    have hread : decodeUtf8 (encodeUtf8 [0xD800]) = [0xFFFD] := by decide
    rw [hread] at hdecrypt
    exact ⟨text, hencrypt, hdecrypt⟩
  · obtain ⟨hash, candidates, hhash, hcandidates, hmem, -⟩ :=
      plain_keeps_rotated.candidates (P := transparent) .opaqueToken [0xFFFD]
    refine ⟨hash, candidates, hhash, ?_, hmem⟩
    rw [← hcandidates]
    simp only [candidateOpaqueTokenHashes, candidateHashes, versionedHmac, legacyHash, hbytes]

end BackendFoundation.Crypto.Rotation
