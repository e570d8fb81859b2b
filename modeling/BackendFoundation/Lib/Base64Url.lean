import BackendFoundation.Lib.Json

/-! # base64url

Three bytes are written as four digits of six bits; one or two bytes at the end as two or three
digits, without padding. The reader takes the digits of either alphabet and skips what is none.

Main result: what was written is read back (`decodeBase64Url_encodeBase64Url`). It has no dot. -/

namespace BackendFoundation.Lib.Base64Url

open Lib.Json

/-- The unit of a digit: `A` to `Z`, `a` to `z`, `0` to `9`, `-` and `_`. -/
def digit (n : ℕ) : UInt16 :=
  if n < 26 then (65 + n).toUInt16
  else if n < 52 then (97 + (n - 26)).toUInt16
  else if n < 62 then (48 + (n - 52)).toUInt16
  else if n = 62 then 45
  else 95

/-- The digit that a unit is, if it is one; `+` and `/` are digits of the other alphabet. -/
def digitValue (u : UInt16) : Option ℕ :=
  let n := u.toNat
  if 65 ≤ n ∧ n ≤ 90 then some (n - 65)
  else if 97 ≤ n ∧ n ≤ 122 then some (n - 97 + 26)
  else if 48 ≤ n ∧ n ≤ 57 then some (n - 48 + 52)
  else if n = 45 ∨ n = 43 then some 62
  else if n = 95 ∨ n = 47 then some 63
  else none

/-- The digits of some bytes. -/
def digits : List UInt8 → List ℕ
  | [] => []
  | [a] => [a.toNat / 4, a.toNat % 4 * 16]
  | [a, b] => [a.toNat / 4, a.toNat % 4 * 16 + b.toNat / 16, b.toNat % 16 * 4]
  | a :: b :: c :: rest =>
    [a.toNat / 4, a.toNat % 4 * 16 + b.toNat / 16, b.toNat % 16 * 4 + c.toNat / 64,
      c.toNat % 64] ++ digits rest

/-- The bytes of some digits. A single digit at the end is no byte. -/
def bytes : List ℕ → List UInt8
  | w :: x :: y :: z :: rest =>
    [(w * 4 + x / 16).toUInt8, (x % 16 * 16 + y / 4).toUInt8, (y % 4 * 64 + z).toUInt8] ++
      bytes rest
  | [w, x, y] => [(w * 4 + x / 16).toUInt8, (x % 16 * 16 + y / 4).toUInt8]
  | [w, x] => [(w * 4 + x / 16).toUInt8]
  | _ => []

/-- `buffer.toString('base64url')`. -/
def encodeBase64Url (data : List UInt8) : JsString := (digits data).map digit

/-- `Buffer.from(text, 'base64url')`. -/
def decodeBase64Url (text : JsString) : List UInt8 := bytes (text.filterMap digitValue)

/-! ### Reading what was written -/

theorem digit_spec (n : Fin 64) : digitValue (digit n.val) = some n.val ∧ digit n.val ≠ 46 := by
  revert n
  decide

theorem digitValue_digit {n : ℕ} (h : n < 64) : digitValue (digit n) = some n :=
  (digit_spec ⟨n, h⟩).1

theorem digits_lt (data : List UInt8) : ∀ n ∈ digits data, n < 64 := by
  induction data using digits.induct with
  | case1 => simp [digits]
  | case2 a =>
    have ha := a.toNat_lt
    intro n hn
    simp only [digits, List.mem_cons, List.not_mem_nil, or_false] at hn
    omega
  | case3 a b =>
    have ha := a.toNat_lt
    have hb := b.toNat_lt
    intro n hn
    simp only [digits, List.mem_cons, List.not_mem_nil, or_false] at hn
    omega
  | case4 a b c rest ih =>
    have ha := a.toNat_lt
    have hb := b.toNat_lt
    have hc := c.toNat_lt
    intro n hn
    rw [digits, List.mem_append] at hn
    rcases hn with hn | hn
    · simp only [List.mem_cons, List.not_mem_nil, or_false] at hn
      omega
    · exact ih n hn

theorem toUInt8_eq {n : ℕ} {a : UInt8} (h : n = a.toNat) : n.toUInt8 = a := by
  rw [h]
  exact UInt8.ofNat_toNat

theorem bytes_digits (data : List UInt8) : bytes (digits data) = data := by
  induction data using digits.induct with
  | case1 => rfl
  | case2 a =>
    rw [digits, bytes, toUInt8_eq (a := a) (by omega)]
  | case3 a b =>
    have hb := b.toNat_lt
    rw [digits, bytes, toUInt8_eq (a := a) (by omega), toUInt8_eq (a := b) (by omega)]
  | case4 a b c rest ih =>
    have hb := b.toNat_lt
    have hc := c.toNat_lt
    simp only [digits, List.cons_append, List.nil_append, bytes]
    rw [toUInt8_eq (a := a) (by omega), toUInt8_eq (a := b) (by omega),
      toUInt8_eq (a := c) (by omega), ih]

/-- **What was written is read back.** -/
theorem decodeBase64Url_encodeBase64Url (data : List UInt8) :
    decodeBase64Url (encodeBase64Url data) = data := by
  have hread (ns : List ℕ) (h : ∀ n ∈ ns, n < 64) : (ns.map digit).filterMap digitValue = ns := by
    induction ns with
    | nil => rfl
    | cons n ns ih =>
      rw [List.map_cons, List.filterMap_cons_some (digitValue_digit (h n List.mem_cons_self)),
        ih fun m hm => h m (List.mem_cons_of_mem _ hm)]
  unfold decodeBase64Url encodeBase64Url
  rw [hread _ (digits_lt data), bytes_digits]

theorem encodeBase64Url_inj {a b : List UInt8} (h : encodeBase64Url a = encodeBase64Url b) :
    a = b := by
  rw [← decodeBase64Url_encodeBase64Url a, h, decodeBase64Url_encodeBase64Url]

theorem dot_not_mem (data : List UInt8) : 46 ∉ encodeBase64Url data := by
  unfold encodeBase64Url
  intro h
  obtain ⟨n, hn, hdot⟩ := List.mem_map.mp h
  exact (digit_spec ⟨n, digits_lt data n hn⟩).2 hdot

theorem ascii_of_mem {data : List UInt8} {u : UInt16} (h : u ∈ encodeBase64Url data) :
    u.toNat < 128 := by
  have hdigit : ∀ n : Fin 64, (digit n.val).toNat < 128 := by decide
  obtain ⟨n, hn, rfl⟩ := List.mem_map.mp h
  exact hdigit ⟨n, digits_lt data n hn⟩

end BackendFoundation.Lib.Base64Url
