import BackendFoundation.Errors
import Mathlib.Tactic.Common

/-! # Metadata hashes and secrets under a keyring

`hashMetadata` and `candidateMetadataHashes` of `lib/crypto.ts`. A hash is the text
`v1.<keyId>.<digest>` under a key of the keyring, or the bare digest of the format that preceded
the keyring; key ids are restricted to letters, digits, `_` and `-`, so the text determines its
parts. The HMAC itself is a parameter, as are the string functions of the runtime that
`normalizeEmail` calls.

`encryptSecret` and `decryptSecret` are authenticated encryption, taken as ideal: a ciphertext is
its key id and its plaintext, and it is read with that key or not at all. `hashSecret` and
`verifySecret` are argon2, also taken as ideal: a hash is its salt and its text, and verifies that
text only. -/

namespace BackendFoundation.Crypto

open Errors

/-- The keyed hash functions and the string functions of the runtime. -/
structure Runtime where
  /-- The digest under the metadata key derived from a key id. -/
  hmac : String → String → String
  /-- The digest under `TOKEN_HASH_SECRET`. -/
  legacyHmac : String → String
  trim : String → String
  toLowerCase : String → String

/-- The configured key ids. The environment check refuses an active key outside the keyring. -/
structure Keyring where
  keyIds : List String
  activeKeyId : String
  active_mem : activeKeyId ∈ keyIds

inductive MetadataHash
  | v1 (keyId digest : String)
  | legacy (digest : String)
deriving DecidableEq

def MetadataHash.text : MetadataHash → String
  | .v1 keyId digest => "v1." ++ keyId ++ "." ++ digest
  | .legacy digest => digest

variable (R : Runtime) (K : Keyring)

def hashMetadata (value : String) : MetadataHash := .v1 K.activeKeyId (R.hmac K.activeKeyId value)

/-- All metadata hashes accepted during rotation. -/
def candidateMetadataHashes (value : String) : List MetadataHash :=
  K.keyIds.map (fun keyId => .v1 keyId (R.hmac keyId value)) ++ [.legacy (R.legacyHmac value)]

/-- `hashOpaqueToken`, where `R` has the keys derived for opaque tokens. -/
def hashOpaqueToken (token : String) : MetadataHash := .v1 K.activeKeyId (R.hmac K.activeKeyId token)

/-- All lookup hashes accepted during rotation. -/
def candidateOpaqueTokenHashes (token : String) : List MetadataHash :=
  K.keyIds.map (fun keyId => .v1 keyId (R.hmac keyId token)) ++ [.legacy (R.legacyHmac token)]

def normalizeEmail (email : String) : String := R.toLowerCase (R.trim email)

theorem mem_candidateMetadataHashes {value : String} {h : MetadataHash} :
    h ∈ candidateMetadataHashes R K value ↔
      (∃ keyId ∈ K.keyIds, h = .v1 keyId (R.hmac keyId value)) ∨
        h = .legacy (R.legacyHmac value) := by
  simp only [candidateMetadataHashes, List.mem_append, List.mem_map, List.mem_singleton]
  exact or_congr (exists_congr fun _ => and_congr_right fun _ => eq_comm) Iff.rfl

/-- What is stored under the active key is found again, under any later active key of a keyring
that keeps the key. -/
theorem hashMetadata_mem_candidates {K' : Keyring} (h : K.activeKeyId ∈ K'.keyIds)
    (value : String) : hashMetadata R K value ∈ candidateMetadataHashes R K' value :=
  (mem_candidateMetadataHashes R K').mpr (.inl ⟨_, h, rfl⟩)

/-- Two texts have different hashes under the active key. -/
def CollisionFree : Prop :=
  ∀ a b, R.hmac K.activeKeyId a = R.hmac K.activeKeyId b → a = b

theorem hashMetadata_inj (h : CollisionFree R K) {a b : String}
    (he : hashMetadata R K a = hashMetadata R K b) : a = b :=
  h a b (MetadataHash.v1.inj he).2

/-- A stored hash under the active key is found for a value only if it is the hash of the value. -/
theorem eq_hashMetadata_of_mem {value digest : String}
    (h : MetadataHash.v1 K.activeKeyId digest ∈ candidateMetadataHashes R K value) :
    MetadataHash.v1 K.activeKeyId digest = hashMetadata R K value := by
  rcases (mem_candidateMetadataHashes R K).mp h with ⟨keyId, -, he⟩ | he
  · obtain ⟨rfl, rfl⟩ := MetadataHash.v1.inj he
    rfl
  · cases he

/-! ### Secrets -/

inductive Ciphertext
  | v1 (keyId plaintext : String)
  /-- The three-part format under `TOKEN_HASH_SECRET`. -/
  | legacy (plaintext : String)
deriving DecidableEq

def encryptSecret (value : String) : Ciphertext := .v1 K.activeKeyId value

def decryptSecret : Ciphertext → Except Thrown String
  | .v1 keyId plaintext =>
    if keyId ∈ K.keyIds then .ok plaintext
    else .error (.error ("Unknown cryptographic key id: " ++ keyId))
  | .legacy plaintext => .ok plaintext

@[simp] theorem decryptSecret_encryptSecret (value : String) :
    decryptSecret K (encryptSecret K value) = .ok value := by
  simp [encryptSecret, decryptSecret, K.active_mem]

structure SecretHash where
  salt : String
  value : String
deriving DecidableEq

def hashSecret (salt value : String) : SecretHash := ⟨salt, value⟩

def verifySecret (hash : SecretHash) (candidate : String) : Bool := hash.value = candidate

@[simp] theorem verifySecret_hashSecret {salt value candidate : String} :
    verifySecret (hashSecret salt value) candidate = true ↔ value = candidate :=
  decide_eq_true_iff

/-! ### A concrete deployment -/

/-- A hash function that keeps its input. -/
def exampleRuntime : Runtime where
  hmac keyId value := keyId ++ ":" ++ value
  legacyHmac value := value
  trim value := value
  toLowerCase value := value

def exampleKeyring : Keyring := ⟨["k1"], "k1", List.mem_singleton.mpr rfl⟩

theorem exampleRuntime_collisionFree : CollisionFree exampleRuntime exampleKeyring := by
  intro a b h
  exact (String.append_right_inj _).mp h

end BackendFoundation.Crypto
