import BackendFoundation.Crypto.Rotation
import BackendFoundation.Lib.JsonText
import BackendFoundation.Notifications.Unsubscribe

/-! # Unsubscribe tokens

`createUnsubscribeToken` and the reader of `verifyUnsubscribeToken`, with the texts that are signed and
sent: the JSON of the payload and its signature, in base64url. The HMAC and `JSON.parse` are parameters.

Main result: a token verifies until its days are over, and what it says is what it was created for
(`verify_create`). -/

namespace BackendFoundation.Notifications.UnsubscribeTokens

open Lib.Base64Url Lib.Json Lib.Utf8 Lib.UuidText Notifications.Unsubscribe
open Crypto.Rotation (asciiText utf16_asciiText)

/-- The functions of the platform. A digest of SHA-256 has 32 bytes. -/
structure Platform where
  /-- The HMAC under `TOKEN_HASH_SECRET`. -/
  hmac : List UInt8 → List UInt8
  jsonParse : JsString → Option JsValue
  length_hmac : ∀ message, (hmac message).length = 32

def units (text : Text) : JsString := utf16 (String.ofList text)

def base64url (bytes : List UInt8) : Text := (asciiText (encodeBase64Url bytes)).toList

def topicText : NotificationTopic → String
  | .productUpdates => "product_updates"

def payloadJson (payload : UnsubscribePayload) : JsValue :=
  .object [(utf16 "v", .number (.ofNat 1)), (utf16 "userId", .string (utf16 payload.userId)),
    (utf16 "topic", .string (utf16 (topicText payload.topic))),
    (utf16 "exp", .number (.ofNat payload.exp))]

/-! ### Reading a payload -/

/-- The natural number that a number is. -/
def natural? : JsNumber → Option ℕ
  | .nan | .infinity _ => none
  | .zero _ => some 0
  | .finite x =>
    if x.negative = false ∧ x.digits.length ≤ x.point then
      some (Nat.ofDigits 10
        (List.replicate (x.point.toNat - x.digits.length) 0 ++ x.digits.reverse.map Fin.val))
    else none

def maxSafeInteger : ℕ := 2 ^ 53 - 1

/-- `z.number().int().positive()` -/
def positiveInt? (value : JsValue) : Option ℕ :=
  match value with
  | .number n => (natural? n).filter fun k => 0 < k ∧ k ≤ maxSafeInteger
  | _ => none

/-- `z.uuid()` -/
def uuid? (value : JsValue) : Option String :=
  match value with
  | .string s =>
    if utf16 (asciiText s) = s ∧ acceptsUuid (asciiText s).toList then some (asciiText s) else none
  | _ => none

/-- `z.enum(notificationTopics)` -/
def topic? (value : JsValue) : Option NotificationTopic :=
  match value with
  | .string s => if s = utf16 (topicText .productUpdates) then some .productUpdates else none
  | _ => none

/-- `z.literal(1)` -/
def isOne (value : JsValue) : Bool :=
  match value with
  | .number n => n = .ofNat 1
  | _ => false

/-- `unsubscribePayload.parse` -/
def unsubscribePayload (value : JsValue) : Option UnsubscribePayload :=
  match value with
  | .object entries => do
    let v ← entries.lookup (utf16 "v")
    let userId ← (entries.lookup (utf16 "userId")).bind uuid?
    let topic ← (entries.lookup (utf16 "topic")).bind topic?
    let exp ← (entries.lookup (utf16 "exp")).bind positiveInt?
    if isOne v then some { userId, topic, exp } else none
  | _ => none

variable (P : Platform)

def Platform.runtime : Runtime where
  hmac text := P.hmac (encodeUtf8 (units text))
  fromBase64url text := decodeBase64Url (units text)
  parsePayload bytes := (P.jsonParse (decodeUtf8 bytes)).bind unsubscribePayload

@[simp] theorem runtime_fromBase64url (text : Text) :
    P.runtime.fromBase64url text = decodeBase64Url (units text) := rfl

@[simp] theorem runtime_parsePayload (bytes : List UInt8) :
    P.runtime.parsePayload bytes = (P.jsonParse (decodeUtf8 bytes)).bind unsubscribePayload := rfl

theorem length_signature (text : Text) : (signature P.runtime text).length = 32 := P.length_hmac _

def expiry (issued expiresInDays : ℕ) : ℕ := issued / 1000 + expiresInDays * 24 * 60 * 60

def createUnsubscribeToken (issued : ℕ) (userId : String) (topic : NotificationTopic)
    (expiresInDays : ℕ) : Text :=
  let json := plainText (payloadJson ⟨userId, topic, expiry issued expiresInDays⟩)
  let payload := base64url (encodeUtf8 json)
  payload ++ '.' :: base64url (signature P.runtime payload)

/-! ### What is read back -/

theorem map_val_digits (n : ℕ) :
    ((Nat.digits 10 n).map (Fin.ofNat 10)).map Fin.val = Nat.digits 10 n := by
  rw [List.map_map]
  refine (List.map_congr_left fun d hd => ?_).trans (List.map_id _)
  exact Nat.mod_eq_of_lt (Nat.digits_lt_base (by omega) hd)

theorem length_trimmedDigits_le (n : ℕ) :
    (trimmedDigits n).length ≤ (Nat.digits 10 n).length := by
  have h := congrArg List.length (digits_eq n)
  rw [List.length_map, List.length_append] at h
  omega

/-- The zeros that `trimmedDigits` leaves out in front. -/
theorem replicate_trimmedDigits (n : ℕ) :
    List.replicate ((Nat.digits 10 n).length - (trimmedDigits n).length) 0 ++
      (trimmedDigits n).map Fin.val = Nat.digits 10 n := by
  have h := map_val_digits n
  have hzero : (0 : Fin 10).val = 0 := rfl
  rwa [digits_eq n, List.map_append, List.map_replicate, hzero] at h

theorem natural?_ofNat (n : ℕ) : natural? (.ofNat n) = some n := by
  unfold JsNumber.ofNat
  split_ifs with hn
  · rw [hn]
    rfl
  · have hpoint : (trimmedDigits n).reverse.length ≤ ((Nat.digits 10 n).length : ℤ) := by
      rw [List.length_reverse]
      exact_mod_cast length_trimmedDigits_le n
    rw [natural?, if_pos ⟨rfl, hpoint⟩]
    simp only [List.length_reverse, List.reverse_reverse, Int.toNat_natCast]
    rw [replicate_trimmedDigits, Nat.ofDigits_digits]

theorem units_base64url (bytes : List UInt8) : units (base64url bytes) = encodeBase64Url bytes := by
  unfold units base64url
  rw [String.ofList_toList]
  exact utf16_asciiText fun u hu => ascii_of_mem hu

theorem dot_not_mem_base64url (bytes : List UInt8) : '.' ∉ base64url bytes := by
  intro hdot
  have hunit : (46 : UInt16) ∈ units (base64url bytes) :=
    List.mem_flatMap.mpr ⟨'.', by rwa [String.toList_ofList], by decide⟩
  rw [units_base64url] at hunit
  exact dot_not_mem bytes hunit

theorem base64url_ne_nil {bytes : List UInt8} (h : bytes ≠ []) : base64url bytes ≠ [] := by
  intro hnil
  have hunits := units_base64url bytes
  rw [hnil] at hunits
  exact h (encodeBase64Url_inj (hunits.symm.trans rfl))

theorem asciiText_utf16 {text : String} (h : ∀ c ∈ text.toList, c.toNat < 128) :
    asciiText (utf16 text) = text := by
  refine String.toList_inj.mp ?_
  unfold asciiText utf16
  rw [String.toList_ofList]
  generalize text.toList = chars at h
  induction chars with
  | nil => rfl
  | cons c chars ih =>
    have hc := h c List.mem_cons_self
    have hunit : c.toNat.toUInt16.toNat = c.toNat := toNat_toUInt16 (by omega)
    rw [List.flatMap_cons, if_pos (by omega), List.map_append,
      ih fun d hd => h d (List.mem_cons_of_mem _ hd), List.map_singleton, hunit, Char.ofNat_toNat]
    rfl

theorem ascii_of_accepts {userId : String} (h : acceptsUuid userId.toList = true) :
    ∀ c ∈ userId.toList, c.toNat < 128 := by
  intro c hc
  by_contra hlarge
  refine (hasForm_of_accepts h).not_mem (c := c) ?_ ?_ hc
  · rintro rfl
    exact hlarge (by decide)
  · have hle {d : Char} (hd : d.toNat < 128) : ¬ c ≤ d := fun hcd =>
      hlarge (Nat.lt_of_le_of_lt (UInt32.le_iff_toNat_le.mp hcd) hd)
    have hdigit : c.isDigit = false := by
      unfold Char.isDigit
      exact Bool.and_eq_false_iff.mpr (.inr (decide_eq_false (hle (d := '9') (by decide))))
    simp [isHex, isLowerHex, hdigit, hle (d := 'f') (by decide), hle (d := 'F') (by decide)]

theorem uuid?_string {userId : String} (h : acceptsUuid userId.toList = true) :
    uuid? (.string (utf16 userId)) = some userId := by
  have hback := asciiText_utf16 (ascii_of_accepts h)
  rw [uuid?, hback, if_pos ⟨rfl, h⟩]

variable {P} {userId : String} {topic : NotificationTopic} {exp : ℕ}

theorem unsubscribePayload_payloadJson (huser : acceptsUuid userId.toList = true)
    (hsafe : exp ≤ maxSafeInteger) :
    unsubscribePayload (payloadJson ⟨userId, topic, exp⟩) =
      if 0 < exp then some ⟨userId, topic, exp⟩ else none := by
  have hexp : positiveInt? (.number (.ofNat exp)) = if 0 < exp then some exp else none := by
    rw [positiveInt?, natural?_ofNat]
    simp [Option.filter, hsafe]
  have htopic : topic? (.string (utf16 (topicText topic))) = some topic := by
    cases topic
    rfl
  have hlookup : ∀ a b c d : JsValue,
      let entries := [(utf16 "v", a), (utf16 "userId", b), (utf16 "topic", c), (utf16 "exp", d)]
      entries.lookup (utf16 "v") = some a ∧ entries.lookup (utf16 "userId") = some b ∧
        entries.lookup (utf16 "topic") = some c ∧ entries.lookup (utf16 "exp") = some d :=
    fun a b c d => ⟨rfl, rfl, rfl, rfl⟩
  obtain ⟨hv, hu, ht, he⟩ := hlookup (.number (.ofNat 1)) (.string (utf16 userId))
    (.string (utf16 (topicText topic))) (.number (.ofNat exp))
  have hone : isOne (.number (.ofNat 1)) = true := decide_eq_true (p := JsNumber.ofNat 1 = .ofNat 1) rfl
  simp only [unsubscribePayload, payloadJson, hv, hu, ht, he, Option.bind_some, uuid?_string huser, htopic,
    hexp, hone, ↓reduceIte, bind]
  split_ifs
  · rfl
  · rfl

/-! ### The text of a payload -/

def Ascii (text : JsString) : Prop := ∀ u ∈ text, u.toNat < 128

instance (text : JsString) : Decidable (Ascii text) :=
  List.decidableBAll (fun u : UInt16 => u.toNat < 128) text

theorem Ascii.append {a b : JsString} (ha : Ascii a) (hb : Ascii b) : Ascii (a ++ b) := by
  intro u hu
  rcases List.mem_append.mp hu with hu | hu
  · exact ha u hu
  · exact hb u hu

theorem ascii_utf16 {text : String} (h : ∀ c ∈ text.toList, c.toNat < 128) : Ascii (utf16 text) := by
  intro u hu
  obtain ⟨c, hc, hu⟩ := List.mem_flatMap.mp hu
  have hlt := h c hc
  rw [if_pos (by omega), List.mem_singleton] at hu
  rw [hu, toNat_toUInt16 (by omega)]
  exact hlt

theorem isSurrogate_of_ascii {u : UInt16} (h : u.toNat < 128) : isSurrogate u = false := by
  have hlead : isLead u = false := Bool.eq_false_iff.mpr fun hlead => by
    have := (isLead_iff.mp hlead).1
    omega
  have htrail : isTrail u = false := Bool.eq_false_iff.mpr fun htrail => by
    have := (isTrail_iff.mp htrail).1
    omega
  rw [isSurrogate, hlead, htrail]
  rfl

variable {text : JsString}

theorem wellFormed_of_ascii (h : Ascii text) : wellFormed text = true := by
  induction text with
  | nil => rfl
  | cons u rest ih =>
    rw [wellFormed_cons (isSurrogate_of_ascii (h u List.mem_cons_self))]
    exact ih fun v hv => h v (List.mem_cons_of_mem _ hv)

theorem ascii_quoteUnit {u : UInt16} (h : u.toNat < 128) : Ascii (quoteUnit u) := by
  have hall : ∀ n : Fin 128, Ascii (quoteUnit n.val.toUInt16) := by decide +kernel
  have hu : u.toNat.toUInt16 = u := toUInt16_toNat u
  have := hall ⟨u.toNat, h⟩
  rwa [hu] at this

theorem ascii_quote (h : Ascii text) : Ascii (quote text) := by
  have hunits : Ascii (quoteUnits text) := by
    induction text with
    | nil => exact nofun
    | cons u rest ih =>
      have hu := h u List.mem_cons_self
      rcases quoteUnits_cons u rest with ⟨v, r, -, hlead, -⟩ | he
      · have hsurrogate := isSurrogate_of_ascii hu
        rw [isSurrogate, hlead] at hsurrogate
        cases hsurrogate
      · rw [he]
        exact (ascii_quoteUnit hu).append (ih fun v hv => h v (List.mem_cons_of_mem _ hv))
  have hbare : Ascii (utf16 "\"") := by decide
  exact (hbare.append hunits).append hbare

theorem ascii_numberText {n : JsNumber} (hn : n.IsJson) : Ascii (numberText n) := by
  intro u hu
  have hunit := isNumberUnit_numberText hn hu
  simp only [isNumberUnit, isDigitUnit, Bool.or_eq_true, Bool.and_eq_true, decide_eq_true_eq,
    UInt16.le_iff_toNat_le, ← UInt16.toNat_inj] at hunit
  simp at hunit
  omega

theorem isJson_ofNat (n : ℕ) : (JsNumber.ofNat n).IsJson := by
  unfold JsNumber.ofNat
  split_ifs
  · rfl
  · trivial

theorem ascii_payload (huser : acceptsUuid userId.toList = true) :
    Ascii (plainText (payloadJson ⟨userId, topic, exp⟩)) := by
  have huserId : Ascii (quote (utf16 userId)) := ascii_quote (ascii_utf16 (ascii_of_accepts huser))
  have htopic : Ascii (quote (utf16 (topicText topic))) := by
    cases topic
    decide +kernel
  have hentry (name : String) {text : JsString} (hname : Ascii (quote (utf16 name)))
      (htext : Ascii text) : Ascii (entryText (utf16 name, text)) := by
    have hcolon : Ascii (utf16 ":") := by decide
    exact (hname.append hcolon).append htext
  have hv := hentry "v" (by decide +kernel) (ascii_numberText (isJson_ofNat 1))
  have hu := hentry "userId" (by decide +kernel) huserId
  have ht := hentry "topic" (by decide +kernel) htopic
  have he := hentry "exp" (by decide +kernel) (ascii_numberText (isJson_ofNat exp))
  have hcomma : Ascii (utf16 ",") := by decide
  have hopen : Ascii (utf16 "\x7b") := by decide
  have hclose : Ascii (utf16 "\x7d") := by decide
  have hjoin : Ascii (join (plainEntries [(utf16 "v", .number (.ofNat 1)),
      (utf16 "userId", .string (utf16 userId)), (utf16 "topic", .string (utf16 (topicText topic))),
      (utf16 "exp", .number (.ofNat exp))])) := by
    simp only [plainEntries, plainText, join, List.intercalate, List.intersperse, List.flatten_cons,
      List.flatten_nil]
    have hnil : Ascii [] := fun u hu => absurd hu List.not_mem_nil
    exact hv.append (hcomma.append (hu.append (hcomma.append (ht.append (hcomma.append
      (he.append hnil))))))
  exact (hopen.append hjoin).append hclose

/-! ### Tokens -/

theorem splitOn_token (payload signature : List UInt8) :
    (base64url payload ++ '.' :: base64url signature).splitOn '.' =
      [base64url payload, base64url signature] := by
  have hparts : ∀ part ∈ [base64url payload, base64url signature], '.' ∉ part := by
    simp only [List.forall_mem_cons]
    exact ⟨dot_not_mem_base64url payload, dot_not_mem_base64url signature, List.forall_mem_nil _⟩
  have hsplit := List.splitOn_intercalate '.' hparts (List.cons_ne_nil _ _)
  rwa [show ['.'].intercalate [base64url payload, base64url signature] =
    base64url payload ++ '.' :: base64url signature by simp [List.intercalate]] at hsplit

theorem decode_base64url (P : Platform) (bytes : List UInt8) :
    P.runtime.fromBase64url (base64url bytes) = bytes := by
  rw [runtime_fromBase64url, units_base64url, decodeBase64Url_encodeBase64Url]

theorem encodeUtf8_ne_nil (h : wellFormed text = true) (hne : text ≠ []) :
    encodeUtf8 text ≠ [] := fun hnil => hne (encodeUtf8_inj h rfl hnil)

theorem plainText_payloadJson_ne_nil (payload : UnsubscribePayload) :
    plainText (payloadJson payload) ≠ [] := by
  rw [payloadJson, plainText]
  simp [utf16]

/-- **A token verifies until its days are over**, and says what it was created for. -/
theorem verify_create (P : Platform) (issued now : ℕ) (userId : String) (topic : NotificationTopic)
    (expiresInDays : ℕ) (huser : acceptsUuid userId.toList = true)
    (hsafe : expiry issued expiresInDays ≤ maxSafeInteger)
    (hparse : P.jsonParse (plainText (payloadJson ⟨userId, topic, expiry issued expiresInDays⟩)) =
      some (payloadJson ⟨userId, topic, expiry issued expiresInDays⟩)) :
    verifyUnsubscribeToken P.runtime now (createUnsubscribeToken P issued userId topic expiresInDays) =
      if now / 1000 < expiry issued expiresInDays then
        some ⟨userId, topic, expiry issued expiresInDays⟩
      else none := by
  have hwell : wellFormed (plainText (payloadJson ⟨userId, topic, expiry issued expiresInDays⟩)) = true :=
    wellFormed_of_ascii (ascii_payload huser)
  let json := encodeUtf8 (plainText (payloadJson ⟨userId, topic, expiry issued expiresInDays⟩))
  have hpayload : base64url json ≠ [] :=
    base64url_ne_nil (encodeUtf8_ne_nil hwell (plainText_payloadJson_ne_nil _))
  have hsignature : base64url (signature P.runtime (base64url json)) ≠ [] := by
    refine base64url_ne_nil fun hnil => ?_
    have hlength := length_signature P (base64url json)
    rw [hnil] at hlength
    cases hlength
  have hparsed : P.runtime.parsePayload json =
      unsubscribePayload (payloadJson ⟨userId, topic, expiry issued expiresInDays⟩) := by
    rw [runtime_parsePayload, decodeUtf8_encodeUtf8 hwell, hparse, Option.bind_some]
  have hverify : verifyUnsubscribeToken P.runtime now
      (createUnsubscribeToken P issued userId topic expiresInDays) =
        (P.runtime.parsePayload json).filter (now / 1000 < ·.exp) := by
    unfold verifyUnsubscribeToken createUnsubscribeToken
    rw [splitOn_token]
    simp only [decode_base64url]
    rw [if_neg (by simp [json, hpayload, hsignature] ), if_neg (not_not_intro rfl)]
  rw [hverify, hparsed, unsubscribePayload_payloadJson huser hsafe]
  by_cases hvalid : now / 1000 < expiry issued expiresInDays
  · rw [if_pos (Nat.zero_lt_of_lt hvalid), if_pos hvalid]
    exact Option.filter_some_pos (decide_eq_true hvalid)
  · rw [if_neg hvalid]
    split_ifs
    · exact Option.filter_some_neg (by simpa using hvalid)
    · rfl

end BackendFoundation.Notifications.UnsubscribeTokens
