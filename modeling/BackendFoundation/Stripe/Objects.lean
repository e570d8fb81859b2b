import Mathlib.Data.Int.Notation
import Mathlib.Tactic.Common

/-! # Stripe objects

The values that the webhook projections read: objects of Stripe as plain JSON, whose numbers are
integers, and the readers `stringValue`, `numberValue`, `dateFromUnix`, `nestedString` and
`referenceId` of `stripe.webhooks.service.ts`. An absent property is `none`.

`attributionForStripeObject` says to whom an object belongs: by its metadata, or by the customer it
names. The local customers are a `Directory`. -/

namespace BackendFoundation.Stripe.Objects

inductive StripeValue
  | null
  | bool (value : Bool)
  | number (value : ℤ)
  | string (text : String)
  | array (elements : List StripeValue)
  | object (fields : List (String × StripeValue))

/-- A property of a value; only objects have any. -/
def property (value : Option StripeValue) (key : String) : Option StripeValue :=
  match value with
  | some (.object fields) => (fields.find? (·.1 = key)).map (·.2)
  | _ => none

def stringValue : Option StripeValue → Option String
  | some (.string text) => if text.length > 0 then some text else none
  | _ => none

def numberValue : Option StripeValue → Option ℤ
  | some (.number value) => some value
  | _ => none

/-- A date, in milliseconds, from a number of seconds. -/
def dateFromUnix (value : Option StripeValue) : Option ℤ := (numberValue value).map (· * 1000)

def nestedString (value : Option StripeValue) (key : String) : Option String :=
  stringValue (property value key)

def referenceId (value : Option StripeValue) : Option String :=
  stringValue value <|> nestedString value "id"

theorem stringValue_length {value : Option StripeValue} {text : String}
    (h : stringValue value = some text) : text.length > 0 := by
  unfold stringValue at h
  split at h
  · split_ifs at h with hl
    cases h
    exact hl
  · cases h

theorem referenceId_length {value : Option StripeValue} {id : String}
    (h : referenceId value = some id) : id.length > 0 := by
  unfold referenceId at h
  cases hs : stringValue value with
  | none =>
    rw [hs] at h
    exact stringValue_length h
  | some text =>
    rw [hs] at h
    cases h
    exact stringValue_length hs

/-- `object[key]`. -/
def StripeValue.get (object : StripeValue) (key : String) : Option StripeValue :=
  property (some object) key

/-- The first element of the array of `object.items.data`. -/
def firstItem (object : StripeValue) : Option StripeValue :=
  match property (object.get "items") "data" with
  | some (.array (first :: _)) => some first
  | _ => none

/-! ### Attribution -/

structure StripeAttribution where
  userId : String
  organizationId : Option String
deriving DecidableEq

structure Directory where
  /-- The organization of a customer id, with the first of its active members. -/
  organization : String → Option (String × Option String)
  /-- The user of a customer id. -/
  user : String → Option String

def Directory.empty : Directory := ⟨fun _ => none, fun _ => none⟩

def attributionForStripeObject (directory : Directory) (object : StripeValue) :
    Option StripeAttribution :=
  let metadata := object.get "metadata"
  match nestedString metadata "userId" <|> nestedString metadata "actorUserId" with
  | some userId => some ⟨userId, nestedString metadata "organizationId"⟩
  | none =>
    match referenceId (object.get "customer") with
    | none => none
    | some customerId =>
      match directory.organization customerId with
      | some (organizationId, some userId) => some ⟨userId, some organizationId⟩
      | _ => (directory.user customerId).map fun userId => ⟨userId, none⟩

end BackendFoundation.Stripe.Objects
