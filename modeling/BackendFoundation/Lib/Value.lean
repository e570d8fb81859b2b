import Mathlib.Data.Nat.Notation

/-! # Argument values

The values a JavaScript caller passes to a library: primitive values, arrays and objects. An object
has a class (`Object`, `Date`, …) and its own entries. A value is a tree, and an assignment to a
property makes a new value. -/

namespace BackendFoundation.Lib

inductive Value
  | undefined
  | null
  | string (text : String)
  /-- A boolean, a number, a bigint, a symbol or a function, by its text. -/
  | atom (text : String)
  | array (elements : List Value)
  | object (cls : String) (entries : List (String × Value))

namespace Value

/-- An object literal. -/
def record (entries : List (String × Value)) : Value := .object "Object" entries

def isUndefined : Value → Bool
  | .undefined => true
  | _ => false

def isNull : Value → Bool
  | .null => true
  | _ => false

variable {v : Value}

theorem eq_null_of_isNull (h : v.isNull = true) : v = .null := by
  cases v with
  | null => rfl
  | undefined | string _ | atom _ | array _ | object _ _ => exact absurd h Bool.false_ne_true

def entries : Value → List (String × Value)
  | .object _ es => es
  | _ => []

/-- The property of an object, `undefined` if it has none of the name. -/
def get (v : Value) (key : String) : Value :=
  ((v.entries.find? (·.1 = key)).map (·.2)).getD .undefined

/-- The object without some of its properties. -/
def without (keys : List String) : Value → Value
  | .object cls es => .object cls (es.filter (·.1 ∉ keys))
  | v => v

/-- The assignment of a property of an object. -/
def set (v : Value) (key : String) (x : Value) : Value :=
  match v with
  | .object cls es => .object cls (es.filter (·.1 ≠ key) ++ [(key, x)])
  | v => v

/-- The value, if it is an object and no array. -/
def asRecord : Value → Option Value
  | .object cls es => some (.object cls es)
  | _ => none

/-- The value as an object, the empty one if it is none. -/
def orEmpty (v : Value) : Value := v.asRecord.getD (record [])

inductive IsObject : Value → Prop
  | intro (cls : String) (es : List (String × Value)) : IsObject (.object cls es)

theorem isObject_orEmpty (v : Value) : v.orEmpty.IsObject := by
  cases v <;> exact .intro _ _

theorem asRecord_eq_some {v r : Value} (h : v.asRecord = some r) : v = r ∧ r.IsObject := by
  cases v with
  | object cls es => exact ⟨Option.some.inj h, Option.some.inj h ▸ .intro cls es⟩
  | undefined | null | string _ | atom _ | array _ => cases h

theorem IsObject.asRecord (h : v.IsObject) : v.asRecord = some v := by
  obtain ⟨cls, es⟩ := h
  rfl

theorem IsObject.set (h : v.IsObject) (key : String) (x : Value) : (v.set key x).IsObject := by
  obtain ⟨cls, es⟩ := h
  exact .intro _ _

theorem get_set (hv : v.IsObject) (key : String) (x : Value) : (v.set key x).get key = x := by
  obtain ⟨cls, es⟩ := hv
  have hnone : (es.filter (·.1 ≠ key)).find? (·.1 = key) = none := by
    rw [List.find?_eq_none]
    intro e he
    simpa using (List.mem_filter.mp he).2
  simp only [get, set, entries, List.find?_append, hnone, Option.none_or]
  simp

theorem get_set_of_ne {key other : String} (h : other ≠ key) (x : Value) :
    (v.set key x).get other = v.get other := by
  cases v with
  | object cls es =>
    have hkept : (es.filter (·.1 ≠ key)).find? (·.1 = other) = es.find? (·.1 = other) := by
      rw [List.find?_filter]
      congr 1
      funext e
      by_cases he : e.1 = other <;> simp [he, h]
    have hlast : [(key, x)].find? (·.1 = other) = none := by simp [h.symm]
    simp only [get, set, entries, List.find?_append, hkept, hlast, Option.or_none]
  | undefined | null | string _ | atom _ | array _ => rfl

theorem without_set {keys : List String} {key : String} (h : key ∈ keys) (v x : Value) :
    (v.set key x).without keys = v.without keys := by
  cases v with
  | object cls es =>
    simp only [set, without, List.filter_append, List.filter_filter]
    congr 1
    have hlast : [(key, x)].filter (·.1 ∉ keys) = [] := by simp [h]
    rw [hlast, List.append_nil]
    refine List.filter_congr fun e _ => ?_
    by_cases he : e.1 = key <;> simp [he, h]
  | undefined | null | string _ | atom _ | array _ => rfl

end Value

end BackendFoundation.Lib
