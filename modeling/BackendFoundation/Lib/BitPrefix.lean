import Mathlib.Data.Int.Notation
import Mathlib.Data.Nat.Bitwise
import Mathlib.Tactic.Common

/-! # The first bits of bytes

The bits of a list of bytes are numbered from the most significant bit of its first byte. Two lists
have the same first `count` bits exactly if their whole bytes are equal and the byte after them is
equal under a mask (`samePrefix_iff`). -/

namespace BackendFoundation.Lib.BitPrefix

/-- The bit at a place. -/
def bitAt (bytes : List ℕ) (place : ℕ) : Bool := (bytes.getD (place / 8) 0).testBit (7 - place % 8)

/-- The first `count` bits are equal. -/
def SamePrefix (count : ℕ) (a b : List ℕ) : Prop := ∀ place < count, bitAt a place = bitAt b place

instance (count : ℕ) (a b : List ℕ) : Decidable (SamePrefix count a b) :=
  inferInstanceAs (Decidable (∀ place < count, bitAt a place = bitAt b place))

theorem SamePrefix.mono {m n : ℕ} {a b : List ℕ} (h : SamePrefix n a b) (hle : m ≤ n) :
    SamePrefix m a b := fun place hplace => h place (by omega)

theorem bitAt_append (start rest : List ℕ) (place : ℕ) :
    bitAt (start ++ rest) (8 * start.length + place) = bitAt rest place := by
  rw [bitAt, bitAt, show (8 * start.length + place) / 8 = start.length + place / 8 by omega,
    show (8 * start.length + place) % 8 = place % 8 by omega,
    List.getD_append_right _ _ _ _ (by omega), Nat.add_sub_cancel_left]

theorem bitAt_append_left {start : List ℕ} (rest : List ℕ) {place : ℕ}
    (h : place < 8 * start.length) : bitAt (start ++ rest) place = bitAt start place := by
  rw [bitAt, bitAt, List.getD_append _ _ _ _ (by omega)]

/-- Behind a common start, the bits are those of what follows it. -/
theorem samePrefix_append {start a b : List ℕ} (count : ℕ) :
    SamePrefix (8 * start.length + count) (start ++ a) (start ++ b) ↔ SamePrefix count a b := by
  constructor
  · intro h place hplace
    have hbit := h (8 * start.length + place) (by omega)
    rwa [bitAt_append, bitAt_append] at hbit
  · intro h place hplace
    by_cases hstart : place < 8 * start.length
    · rw [bitAt_append_left a hstart, bitAt_append_left b hstart]
    · obtain ⟨rest, rfl⟩ := Nat.exists_eq_add_of_le (Nat.not_lt.mp hstart)
      rw [bitAt_append, bitAt_append]
      exact h rest (by omega)

/-- The `count` most significant bits of a byte. -/
def highMask (count : ℕ) : ℕ := (0xff <<< (8 - count)) &&& 0xff

variable {count : ℕ}

theorem testBit_highMask (h : count ≤ 8) (i : ℕ) :
    (highMask count).testBit i = decide (8 - count ≤ i ∧ i < 8) := by
  have hff : ∀ j, (0xff : ℕ).testBit j = decide (j < 8) := fun j => by
    rw [show (0xff : ℕ) = 2 ^ 8 - 1 from rfl, Nat.testBit_two_pow_sub_one]
  rw [highMask, Nat.testBit_and, Nat.testBit_shiftLeft, hff, hff, Bool.eq_iff_iff]
  simp only [Bool.and_eq_true, decide_eq_true_eq]
  omega

/-- Two bytes are equal under the mask if their first bits are. -/
theorem and_highMask_eq_iff (h : count ≤ 8) (x y : ℕ) :
    x &&& highMask count = y &&& highMask count ↔
      ∀ i < count, x.testBit (7 - i) = y.testBit (7 - i) := by
  constructor
  · intro hmask i hi
    have hbit := congrArg (Nat.testBit · (7 - i)) hmask
    simp only [Nat.testBit_and, testBit_highMask h] at hbit
    have hin : decide (8 - count ≤ 7 - i ∧ 7 - i < 8) = true := by
      rw [decide_eq_true_eq]
      omega
    rwa [hin, Bool.and_true, Bool.and_true] at hbit
  · intro hbits
    apply Nat.eq_of_testBit_eq
    intro j
    rw [Nat.testBit_and, Nat.testBit_and, testBit_highMask h]
    by_cases hj : 8 - count ≤ j ∧ j < 8
    · have hbit := hbits (7 - j) (by omega)
      rw [show 7 - (7 - j) = j by omega] at hbit
      rw [hbit]
    · rw [decide_eq_false hj, Bool.and_false, Bool.and_false]

theorem byte_eq_iff {x y : ℕ} (hx : x < 256) (hy : y < 256) :
    x = y ↔ ∀ i < 8, x.testBit (7 - i) = y.testBit (7 - i) := by
  have hmask : highMask 8 = 2 ^ 8 - 1 := rfl
  rw [← and_highMask_eq_iff (Nat.le_refl 8), hmask, Nat.and_two_pow_sub_one_eq_mod,
    Nat.and_two_pow_sub_one_eq_mod, Nat.mod_eq_of_lt hx, Nat.mod_eq_of_lt hy]

theorem getD_lt {bytes : List ℕ} (h : ∀ b ∈ bytes, b < 256) (i : ℕ) : bytes.getD i 0 < 256 := by
  rw [List.getD_eq_getElem?_getD]
  rcases hget : bytes[i]? with _ | b
  · exact Nat.zero_lt_of_lt (Nat.lt_succ_self 255)
  · exact h b (List.mem_of_getElem? hget)

theorem take_eq_take_iff {a b : List ℕ} (hlen : a.length = b.length) :
    a.take count = b.take count ↔ ∀ i < count, a.getD i 0 = b.getD i 0 := by
  constructor
  · intro h i hi
    have hget := congrArg (·[i]?) h
    simp only [List.getElem?_take, if_pos hi] at hget
    rw [List.getD_eq_getElem?_getD, List.getD_eq_getElem?_getD, hget]
  · intro h
    refine List.ext_getElem (by rw [List.length_take, List.length_take, hlen]) fun i hi hi' => ?_
    rw [List.length_take] at hi hi'
    have hget := h i (by omega)
    rw [List.getD_eq_getElem _ _ (by omega), List.getD_eq_getElem _ _ (by omega)] at hget
    rwa [List.getElem_take, List.getElem_take]

/-- **Equal bits are equal whole bytes and an equal rest under a mask.** -/
theorem samePrefix_iff {a b : List ℕ} (ha : ∀ x ∈ a, x < 256) (hb : ∀ x ∈ b, x < 256)
    (hlen : a.length = b.length) : SamePrefix count a b ↔ a.take (count / 8) = b.take (count / 8) ∧
      (count % 8 = 0 ∨ a.getD (count / 8) 0 &&& highMask (count % 8) =
        b.getD (count / 8) 0 &&& highMask (count % 8)) := by
  rw [take_eq_take_iff hlen, and_highMask_eq_iff (by omega)]
  constructor
  · intro h
    refine ⟨fun i hi => ?_, ?_⟩
    · rw [byte_eq_iff (getD_lt ha i) (getD_lt hb i)]
      intro j hj
      have hbit := h (8 * i + j) (by omega)
      rwa [bitAt, bitAt, show (8 * i + j) / 8 = i by omega, show (8 * i + j) % 8 = j by omega]
        at hbit
    · refine .inr fun j hj => ?_
      have hbit := h (8 * (count / 8) + j) (by omega)
      rwa [bitAt, bitAt, show (8 * (count / 8) + j) / 8 = count / 8 by omega,
        show (8 * (count / 8) + j) % 8 = j by omega] at hbit
  · rintro ⟨hwhole, hrest⟩ place hplace
    rw [bitAt, bitAt]
    by_cases hbyte : place / 8 < count / 8
    · rw [hwhole _ hbyte]
    · have hlast : place / 8 = count / 8 := by omega
      rcases hrest with hzero | hrest
      · omega
      · rw [hlast]
        exact hrest (place % 8) (by omega)

end BackendFoundation.Lib.BitPrefix
