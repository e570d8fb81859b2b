import BackendFoundation.Lib.JsonOrder

/-! # The text of a request

`lib/idempotency.ts`: a request is hashed as its canonical text, so a key that was used for one
request is refused for another and not for the same one in another order of keys. -/

namespace BackendFoundation.Idempotency.Canonical

open Lib.Json

/-- What `JSON.stringify` makes of a value that is not an object; an array and an object by their
parts, an object in the order of its keys. -/
def canonicalizeIdempotencyInput (value : JsValue) : JsString := canonicalText value

/-- **Two requests have one text if and only if they are equal up to the order of keys.** -/
theorem canonicalizeIdempotencyInput_eq_iff (a b : JsonValue) :
    canonicalizeIdempotencyInput a.value = canonicalizeIdempotencyInput b.value ↔
      SameValue a.value b.value :=
  canonicalText_eq_iff_same a.isJson b.isJson

example : canonicalizeIdempotencyInput (.object [(utf16 "b", .number (.ofNat 2)),
      (utf16 "a", .object [(utf16 "d", .number (.ofNat 4)), (utf16 "c", .number (.ofNat 3))])]) =
    utf16 "\x7b\"a\":\x7b\"c\":3,\"d\":4\x7d,\"b\":2\x7d" := by decide

end BackendFoundation.Idempotency.Canonical
