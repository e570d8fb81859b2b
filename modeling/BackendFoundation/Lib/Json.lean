import Mathlib.Data.Int.Notation
import Mathlib.Data.List.Sort
import Mathlib.Data.List.TakeWhile
import Mathlib.Data.Nat.Digits.Lemmas
import Mathlib.Tactic.Common

/-! # Values of JavaScript and their canonical text

Plain data as a JavaScript program holds it: `undefined` beside the values of JSON, and objects as
lists of entries. A string is the list of its UTF-16 units. `canonicalText` writes a value with the
keys of every object sorted; it writes `undefined` as `null`, also as the value of a key.
`roundTrip` is the value that is left when a value is written as JSON and read again: an entry whose
value is `undefined` is dropped, an element of an array that is `undefined` becomes `null`.

The two agree on a value in which no entry is `undefined` (`canonicalText_roundTrip`), and on no
other: dropping an entry makes the text shorter (`length_canonicalText_roundTrip`). -/

namespace BackendFoundation.Lib.Json

/-! ### Strings -/

/-- A string, by its UTF-16 units. -/
abbrev JsString := List UInt16

def utf16 (text : String) : JsString :=
  text.toList.flatMap fun c =>
    if c.toNat < 0x10000 then [c.toNat.toUInt16]
    else
      [(0xD800 + (c.toNat - 0x10000) / 0x400).toUInt16,
        (0xDC00 + (c.toNat - 0x10000) % 0x400).toUInt16]

def isLead (u : UInt16) : Bool := 0xD800 ≤ u && u ≤ 0xDBFF

def isTrail (u : UInt16) : Bool := 0xDC00 ≤ u && u ≤ 0xDFFF

def hexDigit (d : UInt16) : UInt16 := if d < 10 then 48 + d else 87 + d

def unicodeEscape (u : UInt16) : JsString :=
  utf16 "\\u" ++ [hexDigit (u / 4096), hexDigit (u / 256 % 16), hexDigit (u / 16 % 16),
    hexDigit (u % 16)]

/-- A unit that is not half of a surrogate pair, in a JSON string. -/
def quoteUnit (u : UInt16) : JsString :=
  if u = 8 then utf16 "\\b"
  else if u = 9 then utf16 "\\t"
  else if u = 10 then utf16 "\\n"
  else if u = 12 then utf16 "\\f"
  else if u = 13 then utf16 "\\r"
  else if u = 34 then utf16 "\\\""
  else if u = 92 then utf16 "\\\\"
  else if u < 32 || isLead u || isTrail u then unicodeEscape u
  else [u]

def quoteUnits : JsString → JsString
  | [] => []
  | [u] => quoteUnit u
  | u :: v :: rest =>
    if isLead u && isTrail v then u :: v :: quoteUnits rest
    else quoteUnit u ++ quoteUnits (v :: rest)

/-- `JSON.stringify` of a string. -/
def quote (s : JsString) : JsString := utf16 "\"" ++ quoteUnits s ++ utf16 "\""

/-! ### Numbers -/

/-- A decimal `± 0.d₁d₂…dₖ · 10 ^ point`, with no zero at either end. -/
structure Decimal where
  negative : Bool
  digits : List (Fin 10)
  point : ℤ
  ne_nil : digits ≠ []
  head_ne : digits.head? ≠ some 0
  last_ne : digits.getLast? ≠ some 0
deriving DecidableEq

/-- A number; a finite one by the digits that the language prints for it. -/
inductive JsNumber
  | nan
  | infinity (negative : Bool)
  | zero (negative : Bool)
  | finite (x : Decimal)
deriving DecidableEq

def digitUnit (d : Fin 10) : UInt16 := 48 + d.val.toUInt16

def natText (n : ℕ) : JsString := utf16 (toString n)

/-- `Number::toString` of a finite number that is not zero. -/
def decimalText (x : Decimal) : JsString :=
  let sign := if x.negative then utf16 "-" else []
  let digits := x.digits.map digitUnit
  let k : ℤ := x.digits.length
  let n := x.point
  let exponent :=
    utf16 "e" ++ (if n - 1 < 0 then utf16 "-" else utf16 "+") ++ natText (n - 1).natAbs
  if k ≤ n ∧ n ≤ 21 then sign ++ digits ++ List.replicate (n - k).toNat 48
  else if 0 < n ∧ n ≤ 21 then sign ++ digits.take n.toNat ++ utf16 "." ++ digits.drop n.toNat
  else if -6 < n ∧ n ≤ 0 then sign ++ utf16 "0." ++ List.replicate (-n).toNat 48 ++ digits
  else if k = 1 then sign ++ digits ++ exponent
  else sign ++ digits.take 1 ++ utf16 "." ++ digits.drop 1 ++ exponent

/-- `JSON.stringify` of a number. -/
def numberText : JsNumber → JsString
  | .nan | .infinity _ => utf16 "null"
  | .zero _ => utf16 "0"
  | .finite x => decimalText x

/-- The digits of a number, the last one first, without the zeros at its end. -/
def trimmedDigits (n : ℕ) : List (Fin 10) :=
  ((Nat.digits 10 n).map (Fin.ofNat 10)).dropWhile (· = 0)

theorem digits_ofNat_ne {d n : ℕ} (hd : d ∈ Nat.digits 10 n) (h : d ≠ 0) :
    Fin.ofNat 10 d ≠ 0 := by
  have hlt : d < 10 := Nat.digits_lt_base (by omega) hd
  intro he
  have hval : d % 10 = 0 := congrArg Fin.val he
  omega

theorem trimmedDigits_ne_nil {n : ℕ} (h : n ≠ 0) : trimmedDigits n ≠ [] := by
  intro hnil
  have hzero := List.dropWhile_eq_nil_iff.mp hnil
  have hne : Nat.digits 10 n ≠ [] := Nat.digits_ne_nil_iff_ne_zero.mpr h
  have hmem := List.getLast_mem hne
  have hlast := hzero _ (List.mem_map_of_mem hmem)
  exact digits_ofNat_ne hmem (Nat.getLast_digit_ne_zero 10 h) (of_decide_eq_true hlast)

theorem trimmedDigits_getLast? {n : ℕ} (h : n ≠ 0) : (trimmedDigits n).getLast? ≠ some 0 := by
  have hne : Nat.digits 10 n ≠ [] := Nat.digits_ne_nil_iff_ne_zero.mpr h
  have hlast := (List.dropWhile_suffix (l := (Nat.digits 10 n).map (Fin.ofNat 10))
    (fun d => decide (d = 0))).getLast (trimmedDigits_ne_nil h)
  have htrim : (trimmedDigits n).getLast (trimmedDigits_ne_nil h) =
      Fin.ofNat 10 ((Nat.digits 10 n).getLast hne) :=
    hlast.trans (List.getLast_map _)
  rw [List.getLast?_eq_some_getLast (trimmedDigits_ne_nil h), htrim]
  intro he
  exact digits_ofNat_ne (List.getLast_mem hne) (Nat.getLast_digit_ne_zero 10 h)
    (Option.some.inj he)

theorem trimmedDigits_head? (n : ℕ) : (trimmedDigits n).head? ≠ some 0 := by
  intro he
  have hhead := List.head?_dropWhile_not (fun d : Fin 10 => decide (d = 0))
    ((Nat.digits 10 n).map (Fin.ofNat 10))
  rw [show ((Nat.digits 10 n).map (Fin.ofNat 10)).dropWhile (fun d => decide (d = 0)) =
    trimmedDigits n from rfl, he] at hhead
  exact absurd hhead (by decide)

def JsNumber.ofNat (n : ℕ) : JsNumber :=
  if h : n = 0 then .zero false
  else
    .finite
      { negative := false
        digits := (trimmedDigits n).reverse
        point := (Nat.digits 10 n).length
        ne_nil := fun he => trimmedDigits_ne_nil h (List.reverse_eq_nil_iff.mp he)
        head_ne := by
          rw [List.head?_reverse]
          exact trimmedDigits_getLast? h
        last_ne := by
          rw [List.getLast?_reverse]
          exact trimmedDigits_head? n }

def JsNumber.ofInt (z : ℤ) : JsNumber :=
  match JsNumber.ofNat z.natAbs with
  | .finite x => .finite { x with negative := z < 0 }
  | n => n

/-! ### Values -/

/-- Plain data. The keys of an object are distinct, in the order of its entries. -/
inductive JsValue
  | undefined
  | null
  | bool (b : Bool)
  | number (n : JsNumber)
  | string (s : JsString)
  | array (elements : List JsValue)
  | object (entries : List (JsString × JsValue))

/-- The value is `undefined`. -/
def JsValue.isUndefined : JsValue → Bool
  | .undefined => true
  | _ => false

/-- The texts of the entries of an object, sorted by their keys. -/
def sortEntries (entries : List (JsString × JsString)) : List (JsString × JsString) :=
  entries.insertionSort fun a b => a.1 ≤ b.1

def entryText (entry : JsString × JsString) : JsString := quote entry.1 ++ utf16 ":" ++ entry.2

/-- Texts with a comma between each two. -/
def join (texts : List JsString) : JsString := (utf16 ",").intercalate texts

mutual

def canonicalText : JsValue → JsString
  | .undefined => utf16 "null"
  | .null => utf16 "null"
  | .bool b => utf16 (if b then "true" else "false")
  | .number n => numberText n
  | .string s => quote s
  | .array elements => utf16 "[" ++ join (elementTexts elements) ++ utf16 "]"
  | .object entries =>
    utf16 "\x7b" ++ join ((sortEntries (entryTexts entries)).map entryText) ++ utf16 "\x7d"

def elementTexts : List JsValue → List JsString
  | [] => []
  | v :: rest => canonicalText v :: elementTexts rest

def entryTexts : List (JsString × JsValue) → List (JsString × JsString)
  | [] => []
  | (k, v) :: rest => (k, canonicalText v) :: entryTexts rest

end

/-- A number, written as JSON and read again. -/
def roundTripNumber : JsNumber → JsValue
  | .nan | .infinity _ => .null
  | .zero _ => .number (.zero false)
  | .finite x => .number (.finite x)

mutual

/-- A value, written as JSON and read again. -/
def roundTrip : JsValue → JsValue
  | .undefined => .null
  | .null => .null
  | .bool b => .bool b
  | .number n => roundTripNumber n
  | .string s => .string s
  | .array elements => .array (roundTripElements elements)
  | .object entries => .object (roundTripEntries entries)

def roundTripElements : List JsValue → List JsValue
  | [] => []
  | v :: rest => roundTrip v :: roundTripElements rest

def roundTripEntries : List (JsString × JsValue) → List (JsString × JsValue)
  | [] => []
  | (k, v) :: rest =>
    if v.isUndefined then roundTripEntries rest
    else (k, roundTrip v) :: roundTripEntries rest

end

mutual

/-- No entry of an object in the value is `undefined`. -/
def EntriesDefined : JsValue → Prop
  | .array elements => ElementsDefined elements
  | .object entries => ValuesDefined entries
  | _ => True

def ElementsDefined : List JsValue → Prop
  | [] => True
  | v :: rest => EntriesDefined v ∧ ElementsDefined rest

def ValuesDefined : List (JsString × JsValue) → Prop
  | [] => True
  | (_, v) :: rest => v.isUndefined = false ∧ EntriesDefined v ∧ ValuesDefined rest

end

example : canonicalText (.object [(utf16 "b", .undefined), (utf16 "a", .array [.undefined,
    .number (.ofNat 2050)])]) = utf16 "\x7b\"a\":[null,2050],\"b\":null\x7d" := by decide

/-! ### Values without an undefined entry -/

theorem canonicalText_roundTripNumber (n : JsNumber) :
    canonicalText (roundTripNumber n) = numberText n := by
  cases n with
  | nan | infinity => simp [roundTripNumber, canonicalText, numberText]
  | zero | finite => simp [roundTripNumber, canonicalText, numberText]

mutual

/-- **The text of a value in which no entry is undefined survives storage.** -/
theorem canonicalText_roundTrip : ∀ v : JsValue, EntriesDefined v →
    canonicalText (roundTrip v) = canonicalText v
  | .undefined, _ => by simp [roundTrip, canonicalText]
  | .null, _ => by simp [roundTrip]
  | .bool _, _ => by simp [roundTrip]
  | .number n, _ => by
    rw [roundTrip, canonicalText_roundTripNumber, canonicalText]
  | .string _, _ => by simp [roundTrip]
  | .array elements, h => by
    rw [EntriesDefined] at h
    rw [roundTrip, canonicalText, canonicalText, elementTexts_roundTrip elements h]
  | .object entries, h => by
    rw [EntriesDefined] at h
    rw [roundTrip, canonicalText, canonicalText, entryTexts_roundTrip entries h]

theorem elementTexts_roundTrip : ∀ elements : List JsValue, ElementsDefined elements →
    elementTexts (roundTripElements elements) = elementTexts elements
  | [], _ => by simp [roundTripElements]
  | v :: rest, h => by
    rw [ElementsDefined] at h
    rw [roundTripElements, elementTexts, elementTexts, canonicalText_roundTrip v h.1,
      elementTexts_roundTrip rest h.2]

theorem entryTexts_roundTrip : ∀ entries : List (JsString × JsValue), ValuesDefined entries →
    entryTexts (roundTripEntries entries) = entryTexts entries
  | [], _ => by simp [roundTripEntries]
  | (k, v) :: rest, h => by
    rw [ValuesDefined] at h
    obtain ⟨hdefined, hv, hrest⟩ := h
    rw [roundTripEntries, hdefined]
    simp only [Bool.false_eq_true, if_false]
    rw [entryTexts, entryTexts, canonicalText_roundTrip v hv, entryTexts_roundTrip rest hrest]

end

/-! ### Lengths -/

/-- What an element or an entry contributes to the text of its container. -/
def joinWeight (texts : List JsString) : ℕ := (texts.map fun t => t.length + 1).sum

theorem length_join : ∀ texts : List JsString, (join texts).length = joinWeight texts - 1
  | [] => rfl
  | [t] => by simp [join, joinWeight, List.intercalate]
  | t :: u :: rest => by
    have ih := length_join (u :: rest)
    have hpos : 1 ≤ joinWeight (u :: rest) := by simp [joinWeight]; omega
    have hcons : join (t :: u :: rest) = t ++ (utf16 "," ++ join (u :: rest)) := by
      simp [join, List.intercalate]
    have hcomma : (utf16 ",").length = 1 := by decide
    rw [hcons, List.length_append, List.length_append, ih, hcomma]
    have hweight : joinWeight (t :: u :: rest) = t.length + 1 + joinWeight (u :: rest) := by
      simp [joinWeight]
    omega

theorem joinWeight_sortEntries (entries : List (JsString × JsString)) :
    joinWeight ((sortEntries entries).map entryText) = joinWeight (entries.map entryText) := by
  have hperm := (List.perm_insertionSort (fun a b : JsString × JsString => a.1 ≤ b.1) entries)
  exact ((hperm.map entryText).map _).sum_nat

@[simp] theorem joinWeight_cons (t : JsString) (texts : List JsString) :
    joinWeight (t :: texts) = t.length + 1 + joinWeight texts := by
  simp [joinWeight]

theorem length_array (elements : List JsValue) :
    (canonicalText (.array elements)).length = 2 + (joinWeight (elementTexts elements) - 1) := by
  have hopen : (utf16 "[").length = 1 := by decide
  have hclose : (utf16 "]").length = 1 := by decide
  rw [canonicalText, List.length_append, List.length_append, length_join, hopen, hclose]
  omega

/-- What the entries of an object contribute to its text. -/
def entriesWeight (entries : List (JsString × JsValue)) : ℕ :=
  joinWeight ((entryTexts entries).map entryText)

theorem length_object (entries : List (JsString × JsValue)) :
    (canonicalText (.object entries)).length = 2 + (entriesWeight entries - 1) := by
  have hopen : (utf16 "\x7b").length = 1 := by decide
  have hclose : (utf16 "\x7d").length = 1 := by decide
  rw [canonicalText, List.length_append, List.length_append, length_join, joinWeight_sortEntries,
    hopen, hclose, entriesWeight]
  omega

theorem entriesWeight_cons (k : JsString) (v : JsValue) (rest : List (JsString × JsValue)) :
    entriesWeight ((k, v) :: rest) =
      (quote k).length + (canonicalText v).length + 2 + entriesWeight rest := by
  have hcolon : (utf16 ":").length = 1 := by decide
  simp only [entriesWeight, entryTexts, List.map_cons, joinWeight_cons, entryText,
    List.length_append, hcolon]
  omega

mutual

/-- **Storage never lengthens a text, and shortens that of a value with an undefined entry.** -/
theorem length_canonicalText_roundTrip : ∀ v : JsValue,
    (canonicalText (roundTrip v)).length ≤ (canonicalText v).length ∧
      (¬ EntriesDefined v → (canonicalText (roundTrip v)).length < (canonicalText v).length ∧
        2 ≤ (canonicalText v).length)
  | .undefined => ⟨by simp [roundTrip, canonicalText], by simp [EntriesDefined]⟩
  | .null => ⟨by simp [roundTrip], by simp [EntriesDefined]⟩
  | .bool _ => ⟨by simp [roundTrip], by simp [EntriesDefined]⟩
  | .number n => by
    refine ⟨?_, by simp [EntriesDefined]⟩
    rw [roundTrip, canonicalText_roundTripNumber, canonicalText]
  | .string _ => ⟨by simp [roundTrip], by simp [EntriesDefined]⟩
  | .array elements => by
    obtain ⟨hle, hlt⟩ := joinWeight_roundTrip elements
    rw [roundTrip, length_array, length_array, EntriesDefined]
    refine ⟨by omega, fun h => ?_⟩
    obtain ⟨hless, htwo⟩ := hlt h
    omega
  | .object entries => by
    obtain ⟨hle, hlt⟩ := entriesWeight_roundTrip entries
    rw [roundTrip, length_object, length_object, EntriesDefined]
    refine ⟨by omega, fun h => ?_⟩
    obtain ⟨hless, htwo⟩ := hlt h
    omega

theorem joinWeight_roundTrip : ∀ elements : List JsValue,
    joinWeight (elementTexts (roundTripElements elements)) ≤ joinWeight (elementTexts elements) ∧
      (¬ ElementsDefined elements →
        joinWeight (elementTexts (roundTripElements elements)) <
          joinWeight (elementTexts elements) ∧ 2 ≤ joinWeight (elementTexts elements))
  | [] => by
    rw [roundTripElements, ElementsDefined]
    exact ⟨Nat.le_refl _, fun h => absurd trivial h⟩
  | v :: rest => by
    obtain ⟨hle, hlt⟩ := length_canonicalText_roundTrip v
    obtain ⟨hles, hlts⟩ := joinWeight_roundTrip rest
    rw [roundTripElements, elementTexts, elementTexts, joinWeight_cons, joinWeight_cons,
      ElementsDefined]
    refine ⟨by omega, fun h => ?_⟩
    rcases not_and_or.mp h with hv | hrest
    · have := hlt hv
      omega
    · have := hlts hrest
      omega

theorem entriesWeight_roundTrip : ∀ entries : List (JsString × JsValue),
    entriesWeight (roundTripEntries entries) ≤ entriesWeight entries ∧
      (¬ ValuesDefined entries →
        entriesWeight (roundTripEntries entries) < entriesWeight entries ∧
          2 ≤ entriesWeight entries)
  | [] => by
    rw [roundTripEntries, ValuesDefined]
    exact ⟨Nat.le_refl _, fun h => absurd trivial h⟩
  | (k, v) :: rest => by
    obtain ⟨hle, hlt⟩ := length_canonicalText_roundTrip v
    obtain ⟨hles, hlts⟩ := entriesWeight_roundTrip rest
    rw [roundTripEntries, ValuesDefined]
    by_cases hv : v.isUndefined = true
    · -- the entry is dropped
      rw [if_pos hv, entriesWeight_cons]
      exact ⟨by omega, fun _ => by omega⟩
    · rw [if_neg hv, entriesWeight_cons, entriesWeight_cons]
      have hdefined : v.isUndefined = false := Bool.eq_false_iff.mpr hv
      refine ⟨by omega, fun h => ?_⟩
      by_cases hval : EntriesDefined v
      · have := hlts fun hrest => h ⟨hdefined, hval, hrest⟩
        omega
      · have := hlt hval
        omega

end

end BackendFoundation.Lib.Json
