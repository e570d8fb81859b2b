import BackendFoundation.Lib.Json

/-! # UTF-8

The bytes of a JavaScript string (`encodeUtf8`) and the string that is read from bytes
(`decodeUtf8`). Half of a surrogate pair has no bytes of its own and is written as the replacement
character. The decoder takes one byte at a time: `Sequence` is what it has read of a sequence that
is not complete, with the bounds of the next byte. A sequence that is cut short is read as one
replacement character, and the byte that cuts it is read again.

Main result: a string without halves of surrogate pairs is read back (`decodeUtf8_encodeUtf8`), so
its bytes are those of no other such string (`encodeUtf8_inj`). A text of scalars is such a string
(`wellFormed_utf16`). -/

namespace BackendFoundation.Lib.Utf8

open Lib.Json

/-- The replacement character. -/
def replacement : UInt16 := 0xFFFD

def isSurrogate (u : UInt16) : Bool := isLead u || isTrail u

/-! ### Writing -/

def byte (n : ℕ) : UInt8 := n.toUInt8

/-- The bytes of a code point. -/
def codePointBytes (n : ℕ) : List UInt8 :=
  if n < 0x80 then [byte n]
  else if n < 0x800 then [byte (0xC0 + n / 64), byte (0x80 + n % 64)]
  else if n < 0x10000 then
    [byte (0xE0 + n / 4096), byte (0x80 + n / 64 % 64), byte (0x80 + n % 64)]
  else
    [byte (0xF0 + n / 262144), byte (0x80 + n / 4096 % 64), byte (0x80 + n / 64 % 64),
      byte (0x80 + n % 64)]

/-- The code point of a surrogate pair. -/
def pairCodePoint (lead trail : UInt16) : ℕ :=
  0x10000 + (lead.toNat - 0xD800) * 0x400 + (trail.toNat - 0xDC00)

/-- A unit that is not in a surrogate pair. -/
def unitBytes (u : UInt16) : List UInt8 :=
  codePointBytes (if isSurrogate u then replacement else u).toNat

/-- `Buffer.from(s, 'utf8')`. -/
def encodeUtf8 : JsString → List UInt8
  | [] => []
  | [u] => unitBytes u
  | u :: v :: rest =>
    if isLead u && isTrail v then codePointBytes (pairCodePoint u v) ++ encodeUtf8 rest
    else unitBytes u ++ encodeUtf8 (v :: rest)

/-- `isWellFormed`: no half of a surrogate pair is alone. -/
def wellFormed : JsString → Bool
  | [] => true
  | [u] => !isSurrogate u
  | u :: v :: rest =>
    if isLead u && isTrail v then wellFormed rest else !isSurrogate u && wellFormed (v :: rest)

/-! ### Reading -/

/-- What has been read of a sequence, how many bytes are still to come, and the bounds of the next
one. -/
structure Sequence where
  codePoint : ℕ
  needed : ℕ
  lower : ℕ := 0x80
  upper : ℕ := 0xBF

/-- The units of a code point. -/
def codePointUnits (n : ℕ) : JsString :=
  if n < 0x10000 then [n.toUInt16]
  else [(0xD800 + (n - 0x10000) / 0x400).toUInt16, (0xDC00 + (n - 0x10000) % 0x400).toUInt16]

/-- The first byte of a sequence. -/
def leadByte (b : ℕ) : JsString × Option Sequence :=
  if b < 0x80 then ([b.toUInt16], none)
  else if b < 0xC2 then ([replacement], none)
  else if b < 0xE0 then ([], some { codePoint := b - 0xC0, needed := 1 })
  else if b < 0xF0 then
    ([], some {
      codePoint := b - 0xE0
      needed := 2
      lower := if b = 0xE0 then 0xA0 else 0x80
      upper := if b = 0xED then 0x9F else 0xBF })
  else if b < 0xF5 then
    ([], some {
      codePoint := b - 0xF0
      needed := 3
      lower := if b = 0xF0 then 0x90 else 0x80
      upper := if b = 0xF4 then 0x8F else 0xBF })
  else ([replacement], none)

/-- The next byte, and the units that are complete with it. -/
def nextByte (sequence : Option Sequence) (b : ℕ) : JsString × Option Sequence :=
  match sequence with
  | none => leadByte b
  | some s =>
    if s.lower ≤ b ∧ b ≤ s.upper then
      let codePoint := s.codePoint * 64 + (b - 0x80)
      if s.needed = 1 then (codePointUnits codePoint, none)
      else ([], some { codePoint, needed := s.needed - 1 })
    else (replacement :: (leadByte b).1, (leadByte b).2)

def decodeFrom (sequence : Option Sequence) : List UInt8 → JsString
  | [] => if sequence.isSome then [replacement] else []
  | b :: bytes =>
    (nextByte sequence b.toNat).1 ++ decodeFrom (nextByte sequence b.toNat).2 bytes

/-- `buffer.toString('utf8')`. -/
def decodeUtf8 (bytes : List UInt8) : JsString := decodeFrom none bytes

/-! ### Reading what was written -/

variable {n b : ℕ} {s : Sequence} {bytes : List UInt8} {u v : UInt16} {rest : JsString}

theorem byte_toNat (h : n < 256) : (byte n).toNat = n := by
  unfold byte
  rw [Nat.toUInt8_eq, UInt8.toNat_ofNat']
  exact Nat.mod_eq_of_lt h

theorem decodeFrom_cons (sequence : Option Sequence) (h : n < 256) :
    decodeFrom sequence (byte n :: bytes) =
      (nextByte sequence n).1 ++ decodeFrom (nextByte sequence n).2 bytes := by
  rw [decodeFrom, byte_toNat h]

theorem nextByte_middle (hlower : s.lower ≤ b) (hupper : b ≤ s.upper) (hneeded : s.needed ≠ 1) :
    nextByte (some s) b =
      ([], some { codePoint := s.codePoint * 64 + (b - 0x80), needed := s.needed - 1 }) := by
  unfold nextByte
  dsimp only
  rw [if_pos ⟨hlower, hupper⟩, if_neg hneeded]

theorem nextByte_last (hlower : s.lower ≤ b) (hupper : b ≤ s.upper) (hneeded : s.needed = 1) :
    nextByte (some s) b = (codePointUnits (s.codePoint * 64 + (b - 0x80)), none) := by
  unfold nextByte
  dsimp only
  rw [if_pos ⟨hlower, hupper⟩, if_pos hneeded]

/-- A code point that is not a surrogate. -/
def Scalar (n : ℕ) : Prop := n < 0xD800 ∨ 0xE000 ≤ n ∧ n < 0x110000

/-- **The bytes of a code point are read back.** -/
theorem decodeFrom_codePointBytes (h : Scalar n) (bytes : List UInt8) :
    decodeFrom none (codePointBytes n ++ bytes) = codePointUnits n ++ decodeFrom none bytes := by
  unfold Scalar at h
  unfold codePointBytes
  split_ifs with h1 h2 h3
  · rw [List.singleton_append, decodeFrom_cons none (by omega)]
    have hlead : nextByte none n = ([n.toUInt16], none) := if_pos h1
    have hunits : codePointUnits n = [n.toUInt16] := if_pos (by omega)
    rw [hlead, hunits]
  · have hlead : nextByte none (0xC0 + n / 64) =
        ([], some { codePoint := n / 64, needed := 1 }) := by
      unfold nextByte leadByte
      dsimp only
      rw [if_neg (by omega), if_neg (by omega), if_pos (by omega)]
      simp
    have hpoint : n / 64 * 64 + (0x80 + n % 64 - 0x80) = n := by omega
    rw [List.cons_append, decodeFrom_cons none (by omega), hlead, List.singleton_append,
      decodeFrom_cons _ (by omega), nextByte_last (by simp) (by simp; omega) rfl]
    dsimp only
    rw [hpoint, List.nil_append]
  · have hlead : nextByte none (0xE0 + n / 4096) = ([], some {
        codePoint := n / 4096
        needed := 2
        lower := if 0xE0 + n / 4096 = 0xE0 then 0xA0 else 0x80
        upper := if 0xE0 + n / 4096 = 0xED then 0x9F else 0xBF }) := by
      unfold nextByte leadByte
      dsimp only
      rw [if_neg (by omega), if_neg (by omega), if_neg (by omega), if_pos (by omega),
        Nat.add_sub_cancel_left]
    have hpoint : (n / 4096 * 64 + (0x80 + n / 64 % 64 - 0x80)) * 64 +
        (0x80 + n % 64 - 0x80) = n := by
      omega
    have hlower : (if 0xE0 + n / 4096 = 0xE0 then 0xA0 else 0x80) ≤ 0x80 + n / 64 % 64 := by
      split_ifs <;> omega
    have hupper : 0x80 + n / 64 % 64 ≤ if 0xE0 + n / 4096 = 0xED then 0x9F else 0xBF := by
      split_ifs <;> omega
    rw [List.cons_append, decodeFrom_cons none (by omega), hlead, List.cons_append,
      decodeFrom_cons _ (by omega), nextByte_middle hlower hupper (by simp), List.singleton_append,
      decodeFrom_cons _ (by omega), nextByte_last (by simp) (by simp; omega) rfl]
    dsimp only
    rw [hpoint, List.nil_append, List.nil_append]
  · have hlead : nextByte none (0xF0 + n / 262144) = ([], some {
        codePoint := n / 262144
        needed := 3
        lower := if 0xF0 + n / 262144 = 0xF0 then 0x90 else 0x80
        upper := if 0xF0 + n / 262144 = 0xF4 then 0x8F else 0xBF }) := by
      unfold nextByte leadByte
      dsimp only
      rw [if_neg (by omega), if_neg (by omega), if_neg (by omega), if_neg (by omega),
        if_pos (by omega), Nat.add_sub_cancel_left]
    have hpoint : ((n / 262144 * 64 + (0x80 + n / 4096 % 64 - 0x80)) * 64 +
        (0x80 + n / 64 % 64 - 0x80)) * 64 + (0x80 + n % 64 - 0x80) = n := by
      omega
    have hlower : (if 0xF0 + n / 262144 = 0xF0 then 0x90 else 0x80) ≤ 0x80 + n / 4096 % 64 := by
      split_ifs <;> omega
    have hupper : 0x80 + n / 4096 % 64 ≤ if 0xF0 + n / 262144 = 0xF4 then 0x8F else 0xBF := by
      split_ifs <;> omega
    rw [List.cons_append, decodeFrom_cons none (by omega), hlead, List.cons_append,
      decodeFrom_cons _ (by omega), nextByte_middle hlower hupper (by simp), List.cons_append,
      decodeFrom_cons _ (by omega), nextByte_middle (by simp) (by simp; omega) (by simp),
      List.singleton_append, decodeFrom_cons _ (by omega),
      nextByte_last (by simp) (by simp; omega) rfl]
    dsimp only
    rw [hpoint, List.nil_append, List.nil_append, List.nil_append]

/-! ### Strings -/

theorem isLead_iff : isLead u = true ↔ 0xD800 ≤ u.toNat ∧ u.toNat ≤ 0xDBFF := by
  unfold isLead
  rw [Bool.and_eq_true, decide_eq_true_eq, decide_eq_true_eq]
  exact Iff.rfl

theorem isTrail_iff : isTrail u = true ↔ 0xDC00 ≤ u.toNat ∧ u.toNat ≤ 0xDFFF := by
  unfold isTrail
  rw [Bool.and_eq_true, decide_eq_true_eq, decide_eq_true_eq]
  exact Iff.rfl

theorem toNat_toUInt16 (h : n < 0x10000) : n.toUInt16.toNat = n := UInt16.toNat_ofNat_of_lt h

theorem toUInt16_toNat (u : UInt16) : u.toNat.toUInt16 = u := UInt16.ofNat_toNat

theorem decodeFrom_unitBytes (h : isSurrogate u = false) (bytes : List UInt8) :
    decodeFrom none (unitBytes u ++ bytes) = u :: decodeFrom none bytes := by
  unfold isSurrogate at h
  rw [Bool.or_eq_false_iff] at h
  have hlead : ¬ (0xD800 ≤ u.toNat ∧ u.toNat ≤ 0xDBFF) := fun hu => by
    rw [isLead_iff.mpr hu] at h
    cases h.1
  have htrail : ¬ (0xDC00 ≤ u.toNat ∧ u.toNat ≤ 0xDFFF) := fun hu => by
    rw [isTrail_iff.mpr hu] at h
    cases h.2
  have hlt := u.toNat_lt
  have hscalar : Scalar u.toNat := by
    unfold Scalar
    omega
  have hunits : codePointUnits u.toNat = [u] := by
    unfold codePointUnits
    rw [if_pos hlt, toUInt16_toNat]
  have hunit : unitBytes u = codePointBytes u.toNat := by
    unfold unitBytes isSurrogate
    rw [h.1, h.2]
    rfl
  rw [hunit, decodeFrom_codePointBytes hscalar, hunits, List.singleton_append]

theorem decodeFrom_pairBytes (hu : isLead u = true) (hv : isTrail v = true) (bytes : List UInt8) :
    decodeFrom none (codePointBytes (pairCodePoint u v) ++ bytes) =
      u :: v :: decodeFrom none bytes := by
  rw [isLead_iff] at hu
  rw [isTrail_iff] at hv
  have hscalar : Scalar (pairCodePoint u v) := by
    unfold Scalar pairCodePoint
    omega
  have hunits : codePointUnits (pairCodePoint u v) = [u, v] := by
    have hhigh : 0xD800 + (pairCodePoint u v - 0x10000) / 0x400 = u.toNat := by
      unfold pairCodePoint
      omega
    have hlow : 0xDC00 + (pairCodePoint u v - 0x10000) % 0x400 = v.toNat := by
      unfold pairCodePoint
      omega
    have hlarge : ¬ pairCodePoint u v < 0x10000 := by
      unfold pairCodePoint
      omega
    unfold codePointUnits
    rw [if_neg hlarge, hhigh, hlow, toUInt16_toNat, toUInt16_toNat]
  rw [decodeFrom_codePointBytes hscalar, hunits]
  rfl

/-- **A string without halves of surrogate pairs is read back.** -/
theorem decodeUtf8_encodeUtf8 {text : JsString} (h : wellFormed text = true) :
    decodeUtf8 (encodeUtf8 text) = text := by
  unfold decodeUtf8
  induction text using encodeUtf8.induct with
  | case1 => rfl
  | case2 u =>
    have hu : isSurrogate u = false := by simpa [wellFormed] using h
    have hread := decodeFrom_unitBytes hu []
    rw [List.append_nil] at hread
    exact hread
  | case3 u v rest hpair ih =>
    rw [wellFormed, if_pos hpair] at h
    rw [encodeUtf8, if_pos hpair]
    rw [Bool.and_eq_true] at hpair
    rw [decodeFrom_pairBytes hpair.1 hpair.2, ih h]
  | case4 u v rest hpair ih =>
    rw [wellFormed, if_neg hpair, Bool.and_eq_true, Bool.not_eq_true'] at h
    rw [encodeUtf8, if_neg hpair, decodeFrom_unitBytes h.1, ih h.2]

/-- Strings without halves of surrogate pairs have different bytes. -/
theorem encodeUtf8_inj {a b : JsString} (ha : wellFormed a = true) (hb : wellFormed b = true)
    (h : encodeUtf8 a = encodeUtf8 b) : a = b := by
  rw [← decodeUtf8_encodeUtf8 ha, ← decodeUtf8_encodeUtf8 hb, h]

/-- Half of a surrogate pair is read back as the replacement character. -/
example : decodeUtf8 (encodeUtf8 [0xD800, 97]) = [replacement, 97] := by decide

/-! ### Texts -/

theorem wellFormed_cons (h : isSurrogate u = false) (rest : JsString) :
    wellFormed (u :: rest) = wellFormed rest := by
  have hlead : isLead u = false := by
    rw [isSurrogate, Bool.or_eq_false_iff] at h
    exact h.1
  cases rest with
  | nil => simp [wellFormed, h]
  | cons v rest => simp [wellFormed, hlead, h]

/-- The units of a scalar are well formed, whatever follows them. -/
theorem wellFormed_codePointUnits (h : Scalar n) (rest : JsString) :
    wellFormed (codePointUnits n ++ rest) = wellFormed rest := by
  unfold Scalar at h
  unfold codePointUnits
  split_ifs with hsmall
  · have hunit := toNat_toUInt16 hsmall
    have hsurrogate : isSurrogate n.toUInt16 = false := by
      rw [isSurrogate, Bool.or_eq_false_iff, Bool.eq_false_iff, Bool.eq_false_iff, ne_eq, ne_eq,
        isLead_iff, isTrail_iff, hunit]
      omega
    exact wellFormed_cons hsurrogate rest
  · have hlead : isLead (0xD800 + (n - 0x10000) / 0x400).toUInt16 = true := by
      have hunit := toNat_toUInt16 (n := 0xD800 + (n - 0x10000) / 0x400) (by omega)
      rw [isLead_iff, hunit]
      omega
    have htrail : isTrail (0xDC00 + (n - 0x10000) % 0x400).toUInt16 = true := by
      have hunit := toNat_toUInt16 (n := 0xDC00 + (n - 0x10000) % 0x400) (by omega)
      rw [isTrail_iff, hunit]
      omega
    rw [List.cons_append, List.singleton_append, wellFormed, hlead, htrail]
    rfl

/-- **A text of scalars has no half of a surrogate pair.** -/
theorem wellFormed_utf16 (text : String) : wellFormed (utf16 text) = true := by
  unfold utf16
  induction text.toList with
  | nil => rfl
  | cons c cs ih =>
    rw [List.flatMap_cons]
    have hvalid : c.toNat.isValidChar := c.valid
    have hscalar : Scalar c.toNat := by
      unfold Nat.isValidChar at hvalid
      unfold Scalar
      omega
    exact (wellFormed_codePointUnits hscalar _).trans ih

end BackendFoundation.Lib.Utf8
