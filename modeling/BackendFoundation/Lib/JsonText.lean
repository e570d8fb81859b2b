import BackendFoundation.Lib.JsonUnits

/-! # Texts determine their values

`canonicalText` is injective on the values of JSON, up to the order of the keys of an object. A
value whose keys are sorted is its own canonical form (`sortKeys`), and its text is written entry by
entry (`plainText`). A text is read from the left, where its first unit tells the kind of the
value. -/

namespace BackendFoundation.Lib.Json

/-! ### Values -/

/-- A number that JSON has. -/
def JsNumber.IsJson : JsNumber → Prop
  | .zero negative => negative = false
  | .finite _ => True
  | .nan | .infinity _ => False

mutual

/-- A value that is read from a JSON text. -/
def IsJson : JsValue → Prop
  | .undefined => False
  | .number n => n.IsJson
  | .array elements => ElementsJson elements
  | .object entries => EntriesJson entries
  | .null | .bool _ | .string _ => True

def ElementsJson : List JsValue → Prop
  | [] => True
  | v :: rest => IsJson v ∧ ElementsJson rest

def EntriesJson : List (JsString × JsValue) → Prop
  | [] => True
  | (_, v) :: rest => IsJson v ∧ EntriesJson rest

end

/-- The entries of an object, sorted by their keys. -/
def sortValues (entries : List (JsString × JsValue)) : List (JsString × JsValue) :=
  entries.insertionSort fun a b => a.1 ≤ b.1

theorem mem_sortValues {entries : List (JsString × JsValue)} {entry : JsString × JsValue} :
    entry ∈ sortValues entries ↔ entry ∈ entries := List.mem_insertionSort _

mutual

/-- The value with the keys of each of its objects in order. Two values have the same sorted form if
they are the same up to the order of keys. -/
def sortKeys : JsValue → JsValue
  | .array elements => .array (sortElements elements)
  | .object entries => .object (sortValues (sortEntryValues entries))
  | .undefined => .undefined
  | .null => .null
  | .bool b => .bool b
  | .number n => .number n
  | .string s => .string s

def sortElements : List JsValue → List JsValue
  | [] => []
  | v :: rest => sortKeys v :: sortElements rest

def sortEntryValues : List (JsString × JsValue) → List (JsString × JsValue)
  | [] => []
  | (k, v) :: rest => (k, sortKeys v) :: sortEntryValues rest

end

mutual

/-- The text of a value, entry by entry. -/
def plainText : JsValue → JsString
  | .undefined => utf16 "null"
  | .null => utf16 "null"
  | .bool b => utf16 (if b then "true" else "false")
  | .number n => numberText n
  | .string s => quote s
  | .array elements => utf16 "[" ++ join (plainElements elements) ++ utf16 "]"
  | .object entries => utf16 "\x7b" ++ join (plainEntries entries) ++ utf16 "\x7d"

def plainElements : List JsValue → List JsString
  | [] => []
  | v :: rest => plainText v :: plainElements rest

def plainEntries : List (JsString × JsValue) → List JsString
  | [] => []
  | (k, v) :: rest => entryText (k, plainText v) :: plainEntries rest

end

theorem plainEntries_eq (entries : List (JsString × JsValue)) :
    plainEntries entries = entries.map fun entry => entryText (entry.1, plainText entry.2) := by
  induction entries with
  | nil => rw [plainEntries, List.map_nil]
  | cons entry rest ih =>
    obtain ⟨k, v⟩ := entry
    rw [plainEntries, List.map_cons, ih]

mutual

/-- The canonical text of a value is the text of its sorted form. -/
theorem canonicalText_eq_plainText : ∀ v : JsValue, canonicalText v = plainText (sortKeys v)
  | .undefined => by rw [canonicalText, sortKeys, plainText]
  | .null => by rw [canonicalText, sortKeys, plainText]
  | .bool b => by rw [canonicalText, sortKeys, plainText]
  | .number n => by rw [canonicalText, sortKeys, plainText]
  | .string s => by rw [canonicalText, sortKeys, plainText]
  | .array elements => by
    rw [canonicalText, sortKeys, plainText, elementTexts_eq_plainElements elements]
  | .object entries => by
    have hsort : (sortValues (sortEntryValues entries)).map
        (fun entry => (entry.1, plainText entry.2)) = sortEntries (entryTexts entries) := by
      rw [entryTexts_eq_map entries]
      exact List.map_insertionSort _ _ _ _ fun _ _ _ _ => Iff.rfl
    rw [canonicalText, sortKeys, plainText, plainEntries_eq, ← hsort, List.map_map]
    rfl

theorem elementTexts_eq_plainElements : ∀ elements : List JsValue,
    elementTexts elements = plainElements (sortElements elements)
  | [] => by rw [elementTexts, sortElements, plainElements]
  | v :: rest => by
    rw [elementTexts, sortElements, plainElements, canonicalText_eq_plainText v,
      elementTexts_eq_plainElements rest]

theorem entryTexts_eq_map : ∀ entries : List (JsString × JsValue),
    entryTexts entries = (sortEntryValues entries).map fun entry => (entry.1, plainText entry.2)
  | [] => by rw [entryTexts, sortEntryValues, List.map_nil]
  | (k, v) :: rest => by
    rw [entryTexts, sortEntryValues, List.map_cons, canonicalText_eq_plainText v,
      entryTexts_eq_map rest]

end

theorem entriesJson_iff (entries : List (JsString × JsValue)) :
    EntriesJson entries ↔ ∀ entry ∈ entries, IsJson entry.2 := by
  induction entries with
  | nil => simp [EntriesJson]
  | cons entry rest ih =>
    obtain ⟨k, v⟩ := entry
    rw [EntriesJson, ih, List.forall_mem_cons]

mutual

theorem isJson_sortKeys : ∀ v : JsValue, IsJson v → IsJson (sortKeys v)
  | .undefined, h => by rw [sortKeys]; exact h
  | .null, h => by rw [sortKeys]; exact h
  | .bool _, h => by rw [sortKeys]; exact h
  | .number _, h => by rw [sortKeys]; exact h
  | .string _, h => by rw [sortKeys]; exact h
  | .array elements, h => by
    rw [IsJson] at h
    rw [sortKeys, IsJson]
    exact elementsJson_sortElements elements h
  | .object entries, h => by
    rw [IsJson] at h
    rw [sortKeys, IsJson, entriesJson_iff]
    have hsorted := (entriesJson_iff _).mp (entriesJson_sortEntryValues entries h)
    intro entry hentry
    exact hsorted entry (mem_sortValues.mp hentry)

theorem elementsJson_sortElements : ∀ elements : List JsValue, ElementsJson elements →
    ElementsJson (sortElements elements)
  | [], h => by rw [sortElements]; exact h
  | v :: rest, h => by
    rw [ElementsJson] at h
    rw [sortElements, ElementsJson]
    exact ⟨isJson_sortKeys v h.1, elementsJson_sortElements rest h.2⟩

theorem entriesJson_sortEntryValues : ∀ entries : List (JsString × JsValue),
    EntriesJson entries → EntriesJson (sortEntryValues entries)
  | [], h => by rw [sortEntryValues]; exact h
  | (k, v) :: rest, h => by
    rw [EntriesJson] at h
    rw [sortEntryValues, EntriesJson]
    exact ⟨isJson_sortKeys v h.1, entriesJson_sortEntryValues rest h.2⟩

end

/-! ### Reading a text -/

/-- What the first unit of a text tells about its value. -/
inductive TextKind
  | null | true | false | number | string | array | object | none
deriving DecidableEq

def textKind (u : UInt16) : TextKind :=
  if u = 110 then .null
  else if u = 116 then .true
  else if u = 102 then .false
  else if u = 34 then .string
  else if u = 91 then .array
  else if u = 123 then .object
  else if isNumberUnit u then .number
  else .none

def JsValue.textKind : JsValue → TextKind
  | .undefined => .null
  | .null => .null
  | .bool b => if b then .true else .false
  | .number _ => .number
  | .string _ => .string
  | .array _ => .array
  | .object _ => .object

theorem textKind_number {u : UInt16} (h : isNumberUnit u = true) : textKind u = .number := by
  have hne : ∀ v : UInt16, isNumberUnit v = false → u ≠ v := by
    rintro v hv rfl
    rw [h] at hv
    cases hv
  rw [textKind, if_neg (hne _ (by decide)), if_neg (hne _ (by decide)),
    if_neg (hne _ (by decide)), if_neg (hne _ (by decide)), if_neg (hne _ (by decide)),
    if_neg (hne _ (by decide)), if_pos h]

theorem numberText_ne_nil : ∀ n : JsNumber, numberText n ≠ []
  | .nan => by decide
  | .infinity _ => by rw [numberText]; decide
  | .zero _ => by rw [numberText]; decide
  | .finite x => by
    obtain ⟨whole, fraction, exponent, a, b, hx⟩ := exists_laidOut x
    rw [numberText, hx.text, layout]
    simp [hx.whole_ne]

theorem isNumberUnit_numberText {n : JsNumber} (hn : n.IsJson) {u : UInt16}
    (h : u ∈ numberText n) : isNumberUnit u = true := by
  cases n with
  | nan => cases hn
  | infinity => cases hn
  | zero =>
    have hzero : utf16 "0" = [48] := by decide
    rw [numberText, hzero, List.mem_singleton] at h
    rw [h]
    decide
  | finite x => exact isNumberUnit_decimalText h

/-- The first unit of a text tells the kind of its value. -/
theorem textKind_plainText {v : JsValue} (hv : IsJson v) (rest : JsString) :
    textKind ((plainText v ++ rest).headD 0) = v.textKind := by
  cases v with
  | undefined => cases hv
  | null => rw [plainText]; rfl
  | bool b => cases b <;> rw [plainText] <;> rfl
  | number n =>
    obtain ⟨u, text, htext⟩ := List.exists_cons_of_ne_nil (numberText_ne_nil n)
    have hu := isNumberUnit_numberText hv (u := u) (by rw [htext]; exact List.mem_cons_self)
    rw [plainText, htext]
    exact textKind_number hu
  | string s => rw [plainText, quote_eq]; rfl
  | array elements => rw [plainText, List.append_assoc, List.append_assoc]; rfl
  | object entries => rw [plainText, List.append_assoc, List.append_assoc]; rfl

theorem numberText_append_inj {m n : JsNumber} (hm : m.IsJson) (hn : n.IsJson) {x y : JsString}
    (hx : ∀ u ∈ x.head?, isNumberUnit u = false) (hy : ∀ u ∈ y.head?, isNumberUnit u = false)
    (h : numberText m ++ x = numberText n ++ y) : m = n ∧ x = y := by
  obtain ⟨htext, hrest⟩ := stretch_append_inj (fun u => isNumberUnit_numberText hm)
    (fun u => isNumberUnit_numberText hn) hx hy h
  refine ⟨?_, hrest⟩
  have hzero : utf16 "0" = [48] := by decide
  cases m with
  | nan => cases hm
  | infinity => cases hm
  | zero =>
    cases n with
    | nan => cases hn
    | infinity => cases hn
    | zero => rw [show _ = false from hm, show _ = false from hn]
    | finite y =>
      rw [numberText, numberText, hzero] at htext
      exact absurd htext.symm (decimalText_ne_zero y)
  | finite x =>
    cases n with
    | nan => cases hn
    | infinity => cases hn
    | zero =>
      rw [numberText, numberText, hzero] at htext
      exact absurd htext (decimalText_ne_zero x)
    | finite y => rw [decimalText_injective htext]

/-- What follows the first of some texts that are joined. -/
def joinTail (texts : List JsString) : JsString := if texts = [] then [] else 44 :: join texts

theorem join_cons (t : JsString) (texts : List JsString) :
    join (t :: texts) = t ++ joinTail texts := by
  have hcomma : utf16 "," = [44] := by decide
  cases texts with
  | nil => simp [join, joinTail, List.intercalate]
  | cons u rest => simp [join, joinTail, List.intercalate, hcomma]

/-- A unit that closes a container. -/
def IsClose (close : UInt16) : Prop := close = 93 ∨ close = 125

variable {close : UInt16}

theorem IsClose.isNumberUnit (h : IsClose close) : isNumberUnit close = false := by
  rcases h with rfl | rfl <;> decide

theorem IsClose.textKind (h : IsClose close) : textKind close = .none := by
  rcases h with rfl | rfl <;> decide

theorem IsClose.ne (h : IsClose close) : close ≠ 44 ∧ close ≠ 34 := by
  rcases h with rfl | rfl <;> decide

theorem joinTail_head (h : IsClose close) (texts : List JsString) (rest : JsString) :
    ∀ u ∈ (joinTail texts ++ close :: rest).head?, isNumberUnit u = false := by
  intro u hu
  unfold joinTail at hu
  split_ifs at hu
  · cases hu
    exact h.isNumberUnit
  · cases hu
    decide

/-- The rest of a container goes on with a comma, or it is closed. -/
theorem joinTail_append_inj (hclose : IsClose close) {ts us : List JsString} {x y : JsString}
    (h : joinTail ts ++ close :: x = joinTail us ++ close :: y) : (ts = [] ∧ us = [] ∧ x = y) ∨
      (ts ≠ [] ∧ us ≠ [] ∧ join ts ++ close :: x = join us ++ close :: y) := by
  unfold joinTail at h
  split_ifs at h with ht hu hu
  · exact .inl ⟨ht, hu, (List.cons.inj h).2⟩
  · exact absurd (List.cons.inj h).1 hclose.ne.1
  · exact absurd (List.cons.inj h).1.symm hclose.ne.1
  · exact .inr ⟨ht, hu, (List.cons.inj h).2⟩

theorem plainElements_eq_nil {elements : List JsValue} (h : plainElements elements = []) :
    elements = [] := by
  cases elements with
  | nil => rfl
  | cons v rest => rw [plainElements] at h; cases h

theorem plainEntries_eq_nil {entries : List (JsString × JsValue)} (h : plainEntries entries = []) :
    entries = [] := by
  rw [plainEntries_eq] at h
  exact List.map_eq_nil_iff.mp h

theorem JsValue.textKind_ne_none (v : JsValue) : v.textKind ≠ .none := by
  cases v with
  | bool b => cases b <;> simp [JsValue.textKind]
  | undefined | null | number | string | array | object => simp [JsValue.textKind]

theorem array_append (elements : List JsValue) (x : JsString) :
    plainText (.array elements) ++ x = 91 :: (join (plainElements elements) ++ 93 :: x) := by
  have hopen : utf16 "[" = [91] := by decide
  have hclose : utf16 "]" = [93] := by decide
  rw [plainText, hopen, hclose]
  simp

theorem object_append (entries : List (JsString × JsValue)) (x : JsString) :
    plainText (.object entries) ++ x = 123 :: (join (plainEntries entries) ++ 125 :: x) := by
  have hopen : utf16 "\x7b" = [123] := by decide
  have hclose : utf16 "\x7d" = [125] := by decide
  rw [plainText, hopen, hclose]
  simp

theorem entryText_append (k t x : JsString) :
    entryText (k, t) ++ x = quote k ++ (58 :: (t ++ x)) := by
  have hcolon : utf16 ":" = [58] := by decide
  rw [entryText, hcolon]
  simp

/-- A text that is not empty does not start with the unit that closes a container. -/
theorem plainText_ne_close {v : JsValue} (hv : IsJson v) (hclose : IsClose close) {x y : JsString}
    (h : close :: x = plainText v ++ y) : False := by
  have hkind := textKind_plainText hv y
  rw [← h] at hkind
  exact v.textKind_ne_none (hkind.symm.trans hclose.textKind)

mutual

/-- **The text of a value ends where it ends**: a text that starts with it determines the value and
the rest. -/
theorem plainText_append_inj : ∀ (a b : JsValue) (x y : JsString), IsJson a → IsJson b →
    (∀ u ∈ x.head?, isNumberUnit u = false) → (∀ u ∈ y.head?, isNumberUnit u = false) →
    plainText a ++ x = plainText b ++ y → a = b ∧ x = y
  | a, b, x, y, ha, hb, hx, hy, h => by
    have hkind : a.textKind = b.textKind := by
      rw [← textKind_plainText ha x, h, textKind_plainText hb y]
    match a, b with
    | .undefined, _ => exact ha.elim
    | _, .undefined => exact hb.elim
    | .null, .null => exact ⟨rfl, List.append_cancel_left h⟩
    | .bool true, .bool true => exact ⟨rfl, List.append_cancel_left h⟩
    | .bool false, .bool false => exact ⟨rfl, List.append_cancel_left h⟩
    | .number m, .number n =>
      rw [plainText, plainText] at h
      obtain ⟨rfl, rfl⟩ := numberText_append_inj ha hb hx hy h
      exact ⟨rfl, rfl⟩
    | .string s, .string t =>
      rw [plainText, plainText] at h
      obtain ⟨rfl, rfl⟩ := quote_append_inj h
      exact ⟨rfl, rfl⟩
    | .array es, .array fs =>
      rw [IsJson] at ha hb
      rw [array_append, array_append] at h
      obtain ⟨rfl, rfl⟩ := plainElements_append_inj es fs 93 x y (.inl rfl) ha hb
        (List.cons.inj h).2
      exact ⟨rfl, rfl⟩
    | .object es, .object fs =>
      rw [IsJson] at ha hb
      rw [object_append, object_append] at h
      obtain ⟨rfl, rfl⟩ := plainEntries_append_inj es fs 125 x y (.inr rfl) ha hb
        (List.cons.inj h).2
      exact ⟨rfl, rfl⟩

theorem plainElements_append_inj : ∀ (es fs : List JsValue) (close : UInt16) (x y : JsString),
    IsClose close → ElementsJson es → ElementsJson fs →
    join (plainElements es) ++ close :: x = join (plainElements fs) ++ close :: y →
    es = fs ∧ x = y
  | [], [], _, _, _, _, _, _, h => ⟨rfl, (List.cons.inj h).2⟩
  | [], f :: fs, close, x, y, hclose, _, hf, h => by
    rw [ElementsJson] at hf
    rw [plainElements, plainElements, join_cons, List.append_assoc] at h
    exact (plainText_ne_close hf.1 hclose h).elim
  | e :: es, [], close, x, y, hclose, he, _, h => by
    rw [ElementsJson] at he
    rw [plainElements, plainElements, join_cons, List.append_assoc] at h
    exact (plainText_ne_close he.1 hclose h.symm).elim
  | e :: es, f :: fs, close, x, y, hclose, he, hf, h => by
    rw [ElementsJson] at he hf
    rw [plainElements, plainElements, join_cons, join_cons, List.append_assoc,
      List.append_assoc] at h
    obtain ⟨rfl, htail⟩ := plainText_append_inj e f _ _ he.1 hf.1
      (joinTail_head hclose _ _) (joinTail_head hclose _ _) h
    rcases joinTail_append_inj hclose htail with ⟨hes, hfs, rfl⟩ | ⟨-, -, hrest⟩
    · rw [plainElements_eq_nil hes, plainElements_eq_nil hfs]
      exact ⟨rfl, rfl⟩
    · obtain ⟨rfl, rfl⟩ := plainElements_append_inj es fs close x y hclose he.2 hf.2 hrest
      exact ⟨rfl, rfl⟩

theorem plainEntries_append_inj : ∀ (es fs : List (JsString × JsValue)) (close : UInt16)
    (x y : JsString), IsClose close → EntriesJson es → EntriesJson fs →
    join (plainEntries es) ++ close :: x = join (plainEntries fs) ++ close :: y →
    es = fs ∧ x = y
  | [], [], _, _, _, _, _, _, h => ⟨rfl, (List.cons.inj h).2⟩
  | [], (k, v) :: fs, close, x, y, hclose, _, _, h => by
    rw [plainEntries, plainEntries, join_cons, List.append_assoc, entryText_append, quote_eq] at h
    exact absurd (List.cons.inj h).1 hclose.ne.2
  | (k, v) :: es, [], close, x, y, hclose, _, _, h => by
    rw [plainEntries, plainEntries, join_cons, List.append_assoc, entryText_append, quote_eq] at h
    exact absurd (List.cons.inj h).1.symm hclose.ne.2
  | (k, v) :: es, (l, w) :: fs, close, x, y, hclose, he, hf, h => by
    rw [EntriesJson] at he hf
    rw [plainEntries, plainEntries, join_cons, join_cons, List.append_assoc, List.append_assoc,
      entryText_append, entryText_append] at h
    obtain ⟨rfl, hvalue⟩ := quote_append_inj h
    obtain ⟨rfl, htail⟩ := plainText_append_inj v w _ _ he.1 hf.1
      (joinTail_head hclose _ _) (joinTail_head hclose _ _) (List.cons.inj hvalue).2
    rcases joinTail_append_inj hclose htail with ⟨hes, hfs, rfl⟩ | ⟨-, -, hrest⟩
    · rw [plainEntries_eq_nil hes, plainEntries_eq_nil hfs]
      exact ⟨rfl, rfl⟩
    · obtain ⟨rfl, rfl⟩ := plainEntries_append_inj es fs close x y hclose he.2 hf.2 hrest
      exact ⟨rfl, rfl⟩

end

/-- **Canonical texts are injective** on the values of JSON, up to the order of keys. -/
theorem canonicalText_eq_iff {a b : JsValue} (ha : IsJson a) (hb : IsJson b) :
    canonicalText a = canonicalText b ↔ sortKeys a = sortKeys b := by
  rw [canonicalText_eq_plainText, canonicalText_eq_plainText]
  refine ⟨fun h => ?_, fun h => by rw [h]⟩
  have hnil : ∀ u ∈ ([] : JsString).head?, isNumberUnit u = false := by simp
  exact (plainText_append_inj _ _ [] [] (isJson_sortKeys a ha) (isJson_sortKeys b hb) hnil hnil
    (by rw [h])).1

/-! ### Entries of equal objects -/

theorem sortEntryValues_eq (entries : List (JsString × JsValue)) :
    sortEntryValues entries = entries.map fun entry => (entry.1, sortKeys entry.2) := by
  induction entries with
  | nil => rw [sortEntryValues, List.map_nil]
  | cons entry rest ih =>
    obtain ⟨k, v⟩ := entry
    rw [sortEntryValues, List.map_cons, ih]

/-- Two objects of the same sorted form have the same value under each key. -/
theorem value_eq_of_sortKeys_eq {es fs : List (JsString × JsValue)}
    (h : sortKeys (.object es) = sortKeys (.object fs)) (hkeys : (fs.map Prod.fst).Nodup)
    {k : JsString} {v w : JsValue} (hv : (k, v) ∈ es) (hw : (k, w) ∈ fs) :
    sortKeys v = sortKeys w := by
  rw [sortKeys, sortKeys, sortEntryValues_eq, sortEntryValues_eq] at h
  have hsorted := JsValue.object.inj h
  have hmem : (k, sortKeys v) ∈ fs.map fun entry => (entry.1, sortKeys entry.2) := by
    have hes : (k, sortKeys v) ∈ es.map fun entry => (entry.1, sortKeys entry.2) :=
      List.mem_map.mpr ⟨(k, v), hv, rfl⟩
    have hin := mem_sortValues.mpr hes
    rw [hsorted] at hin
    exact mem_sortValues.mp hin
  obtain ⟨⟨l, u⟩, hu, he⟩ := List.mem_map.mp hmem
  obtain ⟨rfl, hvalue⟩ := Prod.mk.inj he
  have huw : (l, u) = (l, w) := List.inj_on_of_nodup_map hkeys hu hw rfl
  rw [← hvalue, (Prod.mk.inj huw).2]

end BackendFoundation.Lib.Json
