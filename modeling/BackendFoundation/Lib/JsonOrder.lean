import BackendFoundation.Lib.JsonText
import Mathlib.Data.List.Perm.Basic

/-! # Values that differ in the order of their keys

`JsonValue` is a value of JSON: no part of it is `undefined`, its numbers are finite and the keys of
each of its objects are distinct. `SameValue` relates two values that are equal up to the order of
the keys of their objects, at every depth; the two zeros are one number.

The canonical text of a value does not depend on that order (`SameValue.canonicalText_eq`), and on
nothing less than it: two values with one text are related (`same_of_sortKeys_eq`, through the
sorted form of a value that was stored and read again). -/

namespace BackendFoundation.Lib.Json

/-! ### Values of JSON -/

def JsNumber.IsFinite : JsNumber → Prop
  | .zero _ | .finite _ => True
  | .nan | .infinity _ => False

mutual

def IsJsonValue : JsValue → Prop
  | .undefined => False
  | .number n => n.IsFinite
  | .array elements => ElementsAreJson elements
  | .object entries => (entries.map Prod.fst).Nodup ∧ EntriesAreJson entries
  | .null | .bool _ | .string _ => True

def ElementsAreJson : List JsValue → Prop
  | [] => True
  | v :: rest => IsJsonValue v ∧ ElementsAreJson rest

def EntriesAreJson : List (JsString × JsValue) → Prop
  | [] => True
  | (_, v) :: rest => IsJsonValue v ∧ EntriesAreJson rest

end

/-- A value of JSON. -/
structure JsonValue where
  value : JsValue
  isJson : IsJsonValue value

mutual

/-- The values are equal, up to the order of the keys of objects. -/
inductive SameValue : JsValue → JsValue → Prop
  | null : SameValue .null .null
  | bool (b : Bool) : SameValue (.bool b) (.bool b)
  | zero (m n : Bool) : SameValue (.number (.zero m)) (.number (.zero n))
  | number (x : Decimal) : SameValue (.number (.finite x)) (.number (.finite x))
  | string (s : JsString) : SameValue (.string s) (.string s)
  | array {es fs : List JsValue} : SameElements es fs → SameValue (.array es) (.array fs)
  | object {es gs fs : List (JsString × JsValue)} :
    SameEntries es gs → gs.Perm fs → SameValue (.object es) (.object fs)

inductive SameElements : List JsValue → List JsValue → Prop
  | nil : SameElements [] []
  | cons {v w : JsValue} {es fs : List JsValue} :
    SameValue v w → SameElements es fs → SameElements (v :: es) (w :: fs)

inductive SameEntries : List (JsString × JsValue) → List (JsString × JsValue) → Prop
  | nil : SameEntries [] []
  | cons (k : JsString) {v w : JsValue} {es fs : List (JsString × JsValue)} :
    SameValue v w → SameEntries es fs → SameEntries ((k, v) :: es) ((k, w) :: fs)

end

/-! ### Stored values -/

mutual

theorem isJson_roundTrip : ∀ v : JsValue, IsJson (roundTrip v)
  | .undefined => by rw [roundTrip]; trivial
  | .null => by rw [roundTrip]; trivial
  | .bool _ => by rw [roundTrip]; trivial
  | .number n => by
    rw [roundTrip]
    cases n with
    | nan | infinity => trivial
    | zero => exact rfl
    | finite => trivial
  | .string _ => by rw [roundTrip]; trivial
  | .array elements => by
    rw [roundTrip, IsJson]
    exact elementsJson_roundTrip elements
  | .object entries => by
    rw [roundTrip, IsJson]
    exact entriesJson_roundTrip entries

theorem elementsJson_roundTrip : ∀ elements : List JsValue,
    ElementsJson (roundTripElements elements)
  | [] => by rw [roundTripElements]; trivial
  | v :: rest => by
    rw [roundTripElements, ElementsJson]
    exact ⟨isJson_roundTrip v, elementsJson_roundTrip rest⟩

theorem entriesJson_roundTrip : ∀ entries : List (JsString × JsValue),
    EntriesJson (roundTripEntries entries)
  | [] => by rw [roundTripEntries]; trivial
  | (k, v) :: rest => by
    rw [roundTripEntries]
    split_ifs
    · exact entriesJson_roundTrip rest
    · rw [EntriesJson]
      exact ⟨isJson_roundTrip v, entriesJson_roundTrip rest⟩

end

theorem IsJsonValue.isUndefined {v : JsValue} (h : IsJsonValue v) : v.isUndefined = false := by
  cases v with
  | undefined => rw [IsJsonValue] at h; exact h.elim
  | null | bool | number | string | array | object => rfl

mutual

theorem IsJsonValue.entriesDefined : ∀ {v : JsValue}, IsJsonValue v → EntriesDefined v
  | .undefined, _ => by simp [EntriesDefined]
  | .null, _ => by simp [EntriesDefined]
  | .bool _, _ => by simp [EntriesDefined]
  | .number _, _ => by simp [EntriesDefined]
  | .string _, _ => by simp [EntriesDefined]
  | .array elements, h => by
    rw [IsJsonValue] at h
    rw [EntriesDefined]
    exact ElementsAreJson.defined h
  | .object entries, h => by
    rw [IsJsonValue] at h
    rw [EntriesDefined]
    exact EntriesAreJson.defined h.2

theorem ElementsAreJson.defined : ∀ {elements : List JsValue}, ElementsAreJson elements →
    ElementsDefined elements
  | [], _ => by rw [ElementsDefined]; trivial
  | _ :: _, h => by
    rw [ElementsAreJson] at h
    rw [ElementsDefined]
    exact ⟨h.1.entriesDefined, ElementsAreJson.defined h.2⟩

theorem EntriesAreJson.defined : ∀ {entries : List (JsString × JsValue)},
    EntriesAreJson entries → ValuesDefined entries
  | [], _ => by rw [ValuesDefined]; trivial
  | (_, _) :: _, h => by
    rw [EntriesAreJson] at h
    rw [ValuesDefined]
    exact ⟨h.1.isUndefined, h.1.entriesDefined, EntriesAreJson.defined h.2⟩

end

/-- Storing the entries of an object of JSON stores each value under its key. -/
theorem roundTripEntries_eq {entries : List (JsString × JsValue)} (h : EntriesAreJson entries) :
    roundTripEntries entries = entries.map fun entry => (entry.1, roundTrip entry.2) := by
  induction entries with
  | nil => rw [roundTripEntries, List.map_nil]
  | cons entry rest ih =>
    obtain ⟨k, v⟩ := entry
    rw [EntriesAreJson] at h
    rw [roundTripEntries, h.1.isUndefined, List.map_cons, ih h.2]
    rfl

/-- Two values of JSON have one text if and only if they have one sorted form, once stored. -/
theorem canonicalText_eq_iff_stored {a b : JsValue} (ha : IsJsonValue a) (hb : IsJsonValue b) :
    canonicalText a = canonicalText b ↔ sortKeys (roundTrip a) = sortKeys (roundTrip b) := by
  rw [← canonicalText_roundTrip a ha.entriesDefined, ← canonicalText_roundTrip b hb.entriesDefined]
  exact canonicalText_eq_iff (isJson_roundTrip a) (isJson_roundTrip b)

/-! ### From the order of keys to the text -/

/-- The order of the entries is lost when they are sorted by distinct keys. -/
theorem sortEntries_eq_of_perm {es fs : List (JsString × JsString)} (h : es.Perm fs)
    (hkeys : (fs.map Prod.fst).Nodup) : sortEntries es = sortEntries fs := by
  have hperm : (sortEntries es).Perm (sortEntries fs) :=
    ((List.perm_insertionSort _ es).trans h).trans (List.perm_insertionSort _ fs).symm
  have hes : (sortEntries es).Pairwise fun a b => a.1 ≤ b.1 := List.pairwise_insertionSort _ es
  have hfs : (sortEntries fs).Pairwise fun a b => a.1 ≤ b.1 := List.pairwise_insertionSort _ fs
  refine hperm.eq_of_pairwise ?_ hes hfs
  intro x y hx hy hxy hyx
  have hfs : x ∈ fs := h.mem_iff.mp ((List.mem_insertionSort _).mp hx)
  exact List.inj_on_of_nodup_map hkeys hfs ((List.mem_insertionSort _).mp hy)
    (List.le_antisymm hxy hyx)

theorem entryTexts_map_fst (entries : List (JsString × JsValue)) :
    (entryTexts entries).map Prod.fst = entries.map Prod.fst := by
  induction entries with
  | nil => rw [entryTexts, List.map_nil, List.map_nil]
  | cons entry rest ih =>
    obtain ⟨k, v⟩ := entry
    rw [entryTexts, List.map_cons, List.map_cons, ih]

theorem entryTexts_eq (entries : List (JsString × JsValue)) :
    entryTexts entries = entries.map fun entry => (entry.1, canonicalText entry.2) := by
  induction entries with
  | nil => rw [entryTexts, List.map_nil]
  | cons entry rest ih =>
    obtain ⟨k, v⟩ := entry
    rw [entryTexts, List.map_cons, ih]

theorem entriesAreJson_iff (entries : List (JsString × JsValue)) :
    EntriesAreJson entries ↔ ∀ entry ∈ entries, IsJsonValue entry.2 := by
  induction entries with
  | nil => simp [EntriesAreJson]
  | cons entry rest ih =>
    obtain ⟨k, v⟩ := entry
    rw [EntriesAreJson, ih, List.forall_mem_cons]

mutual

/-- **The text of a value of JSON does not depend on the order of keys.** -/
theorem SameValue.canonicalText_eq : ∀ {a b : JsValue}, SameValue a b → IsJsonValue b →
    canonicalText a = canonicalText b
  | _, _, .null, _ => rfl
  | _, _, .bool _, _ => rfl
  | _, _, .zero _ _, _ => by rw [canonicalText, canonicalText, numberText, numberText]
  | _, _, .number _, _ => rfl
  | _, _, .string _, _ => rfl
  | _, _, .array h, hb => by
    rw [IsJsonValue] at hb
    rw [canonicalText, canonicalText, h.elementTexts_eq hb]
  | _, _, @SameValue.object _ gs fs h hperm, hb => by
    rw [IsJsonValue, entriesAreJson_iff] at hb
    have hgs : EntriesAreJson gs := (entriesAreJson_iff gs).mpr fun entry hentry =>
      hb.2 entry (hperm.mem_iff.mp hentry)
    have htexts : (entryTexts gs).Perm (entryTexts fs) := by
      rw [entryTexts_eq, entryTexts_eq]
      exact hperm.map _
    rw [canonicalText, canonicalText, h.entryTexts_eq hgs,
      sortEntries_eq_of_perm htexts (by rw [entryTexts_map_fst]; exact hb.1)]

theorem SameElements.elementTexts_eq : ∀ {es fs : List JsValue}, SameElements es fs →
    ElementsAreJson fs → elementTexts es = elementTexts fs
  | _, _, .nil, _ => rfl
  | _, _, .cons hv hrest, hf => by
    rw [ElementsAreJson] at hf
    rw [elementTexts, elementTexts, hv.canonicalText_eq hf.1, hrest.elementTexts_eq hf.2]

theorem SameEntries.entryTexts_eq : ∀ {es fs : List (JsString × JsValue)}, SameEntries es fs →
    EntriesAreJson fs → entryTexts es = entryTexts fs
  | _, _, .nil, _ => rfl
  | _, _, .cons k hv hrest, hf => by
    rw [EntriesAreJson] at hf
    rw [entryTexts, entryTexts, hv.canonicalText_eq hf.1, hrest.entryTexts_eq hf.2]

end

/-! ### From the text to the order of keys -/

/-- An entry, stored and in sorted form. -/
def storedEntry (entry : JsString × JsValue) : JsString × JsValue :=
  (entry.1, sortKeys (roundTrip entry.2))

theorem sortKeys_roundTrip_object {entries : List (JsString × JsValue)}
    (h : EntriesAreJson entries) :
    sortKeys (roundTrip (.object entries)) = .object (sortValues (entries.map storedEntry)) := by
  rw [roundTrip, sortKeys, sortEntryValues_eq, roundTripEntries_eq h, List.map_map]
  rfl

/-- Objects of one sorted form have the same entries in some order. -/
theorem exists_perm_of_sortKeys_eq {es fs : List (JsString × JsValue)} (he : EntriesAreJson es)
    (hf : EntriesAreJson fs)
    (h : sortKeys (roundTrip (.object es)) = sortKeys (roundTrip (.object fs))) :
    ∃ gs : List (JsString × JsValue), es.map storedEntry = gs.map storedEntry ∧ gs.Perm fs := by
  rw [sortKeys_roundTrip_object he, sortKeys_roundTrip_object hf] at h
  have hsorted := JsValue.object.inj h
  have hperm : (es.map storedEntry).Perm (fs.map storedEntry) := by
    have hes := List.perm_insertionSort (fun a b : JsString × JsValue => a.1 ≤ b.1)
      (es.map storedEntry)
    have hfs := List.perm_insertionSort (fun a b : JsString × JsValue => a.1 ≤ b.1)
      (fs.map storedEntry)
    rw [show List.insertionSort _ (es.map storedEntry) = _ from hsorted] at hes
    exact hes.symm.trans hfs
  have hcomp : Relation.Comp (· = List.map storedEntry ·) List.Perm (es.map storedEntry) fs := by
    rw [List.eq_map_comp_perm]
    exact hperm
  exact hcomp

mutual

/-- **Two values of JSON with one sorted form are equal up to the order of keys.** -/
theorem same_of_sortKeys_eq : ∀ {a b : JsValue}, IsJsonValue a → IsJsonValue b →
    sortKeys (roundTrip a) = sortKeys (roundTrip b) → SameValue a b
  | .undefined, _, ha, _, _ => by rw [IsJsonValue] at ha; exact ha.elim
  | _, .undefined, _, hb, _ => by rw [IsJsonValue] at hb; exact hb.elim
  | .null, .null, _, _, _ => .null
  | .bool b, .bool c, _, _, h => by
    simp only [roundTrip, sortKeys, JsValue.bool.injEq] at h
    rw [h]
    exact .bool c
  | .number (.zero m), .number (.zero n), _, _, _ => .zero m n
  | .number (.finite x), .number (.finite y), _, _, h => by
    simp only [roundTrip, roundTripNumber, sortKeys, JsValue.number.injEq,
      JsNumber.finite.injEq] at h
    rw [h]
    exact .number y
  | .string s, .string t, _, _, h => by
    simp only [roundTrip, sortKeys, JsValue.string.injEq] at h
    rw [h]
    exact .string t
  | .array es, .array fs, ha, hb, h => by
    rw [IsJsonValue] at ha hb
    rw [roundTrip, roundTrip, sortKeys, sortKeys] at h
    exact .array (sameElements_of_sortElements_eq ha hb (JsValue.array.inj h))
  | .object es, .object fs, ha, hb, h => by
    rw [IsJsonValue] at ha hb
    obtain ⟨gs, hmap, hperm⟩ := exists_perm_of_sortKeys_eq ha.2 hb.2 h
    have hgs : EntriesAreJson gs := (entriesAreJson_iff gs).mpr fun entry hentry =>
      (entriesAreJson_iff fs).mp hb.2 entry (hperm.mem_iff.mp hentry)
    exact .object (sameEntries_of_storedEntry_eq ha.2 hgs hmap) hperm

theorem sameElements_of_sortElements_eq : ∀ {es fs : List JsValue}, ElementsAreJson es →
    ElementsAreJson fs →
    sortElements (roundTripElements es) = sortElements (roundTripElements fs) →
    SameElements es fs
  | [], [], _, _, _ => .nil
  | [], _ :: _, _, _, h => by
    rw [roundTripElements, roundTripElements, sortElements, sortElements] at h
    cases h
  | _ :: _, [], _, _, h => by
    rw [roundTripElements, roundTripElements, sortElements, sortElements] at h
    cases h
  | e :: es, f :: fs, he, hf, h => by
    rw [ElementsAreJson] at he hf
    rw [roundTripElements, roundTripElements, sortElements, sortElements] at h
    obtain ⟨hhead, htail⟩ := List.cons.inj h
    exact .cons (same_of_sortKeys_eq he.1 hf.1 hhead)
      (sameElements_of_sortElements_eq he.2 hf.2 htail)

theorem sameEntries_of_storedEntry_eq : ∀ {es fs : List (JsString × JsValue)},
    EntriesAreJson es → EntriesAreJson fs → es.map storedEntry = fs.map storedEntry →
    SameEntries es fs
  | [], [], _, _, _ => .nil
  | [], _ :: _, _, _, h => by rw [List.map_cons] at h; cases h
  | _ :: _, [], _, _, h => by rw [List.map_cons] at h; cases h
  | (k, v) :: es, (l, w) :: fs, he, hf, h => by
    rw [EntriesAreJson] at he hf
    rw [List.map_cons, List.map_cons] at h
    obtain ⟨hhead, htail⟩ := List.cons.inj h
    obtain ⟨hkey, hvalue⟩ := Prod.mk.inj hhead
    have hkl : k = l := hkey
    subst hkl
    exact .cons k (same_of_sortKeys_eq he.1 hf.1 hvalue)
      (sameEntries_of_storedEntry_eq he.2 hf.2 htail)

end

/-- **Two values of JSON have one canonical text if and only if they are equal up to the order of
keys.** -/
theorem canonicalText_eq_iff_same {a b : JsValue} (ha : IsJsonValue a) (hb : IsJsonValue b) :
    canonicalText a = canonicalText b ↔ SameValue a b :=
  ⟨fun h => same_of_sortKeys_eq ha hb ((canonicalText_eq_iff_stored ha hb).mp h),
    fun h => h.canonicalText_eq hb⟩

end BackendFoundation.Lib.Json
