import Mathlib.Data.List.Sort
import Mathlib.Data.Nat.Notation
import Mathlib.Tactic.Common

/-! # Ids and their texts

A database writes a uuid with lower-case digits (`Uuid`); a text that a schema accepts may have
upper-case ones, and stands for the id of its lower-case text (`Uuid.ofText`). -/

namespace BackendFoundation.Lib.UuidText

abbrev Text := List Char

def isLowerHex (c : Char) : Bool := c.isDigit || ('a' ≤ c && c ≤ 'f')

def isHex (c : Char) : Bool := isLowerHex c || ('A' ≤ c && c ≤ 'F')

def isDashPlace (place : ℕ) : Bool := place = 8 || place = 13 || place = 18 || place = 23

/-- Thirty-two digits with dashes between the groups. -/
def HasForm (digit : Char → Bool) (text : Text) : Prop :=
  text.length = 36 ∧ ∀ entry ∈ text.zipIdx,
    if isDashPlace entry.2 then entry.1 = '-' else digit entry.1 = true

instance (digit : Char → Bool) (text : Text) : Decidable (HasForm digit text) :=
  inferInstanceAs (Decidable (_ ∧ _))

/-- An id, as the database writes it. -/
structure Uuid where
  text : Text
  form : HasForm isLowerHex text
deriving DecidableEq

/-- `z.uuid()`: a version of 1 to 8 and a variant, or one of the two constant ids. -/
def acceptsUuid (text : Text) : Bool :=
  HasForm isHex text &&
    ((text[14]?.any (fun c => '1' ≤ c && c ≤ '8') &&
        text[19]?.any (fun c => c ∈ ['8', '9', 'a', 'b', 'A', 'B'])) ||
      text = "00000000-0000-0000-0000-000000000000".toList ||
      text = "ffffffff-ffff-ffff-ffff-ffffffffffff".toList)

variable {c : Char}

theorem toLower_lowerHex (h : isHex c = true) : isLowerHex c.toLower = true := by
  simp only [isHex, isLowerHex, Bool.or_eq_true, Bool.and_eq_true, decide_eq_true_eq] at h
  have hbound : c.toNat < 128 := by
    rcases h with (h | ⟨-, h⟩) | ⟨-, h⟩
    · simp only [Char.isDigit, Bool.and_eq_true, decide_eq_true_eq] at h
      exact Nat.lt_of_le_of_lt (UInt32.le_iff_toNat_le.mp h.2) (by decide)
    · exact Nat.lt_of_le_of_lt (UInt32.le_iff_toNat_le.mp h) (by decide)
    · exact Nat.lt_of_le_of_lt (UInt32.le_iff_toNat_le.mp h) (by decide)
  have hall : ∀ n : Fin 128, isHex (Char.ofNat n.val) = true →
      isLowerHex (Char.ofNat n.val).toLower = true := by decide
  have hc : Char.ofNat c.toNat = c := Char.ofNat_toNat c
  have := hall ⟨c.toNat, hbound⟩
  simp only [hc] at this
  refine this ?_
  simpa only [isHex, isLowerHex, Bool.or_eq_true, Bool.and_eq_true, decide_eq_true_eq] using h

theorem hasForm_toLower {text : Text} (h : HasForm isHex text) :
    HasForm isLowerHex (text.map Char.toLower) := by
  refine ⟨by rw [List.length_map]; exact h.1, fun entry hentry => ?_⟩
  rw [List.zipIdx_map] at hentry
  obtain ⟨⟨c, place⟩, hmem, rfl⟩ := List.mem_map.mp hentry
  have hc := h.2 (c, place) hmem
  dsimp only [Prod.map_apply, id_eq] at hc ⊢
  split_ifs at hc ⊢ with hdash
  · rw [hc]
    decide
  · exact toLower_lowerHex hc

/-- The id that a text stands for. -/
def Uuid.ofText (text : Text) : Option Uuid :=
  if h : HasForm isHex text then some ⟨text.map Char.toLower, hasForm_toLower h⟩ else none

/-! ### Canonical texts -/

theorem Uuid.length_text (id : Uuid) : id.text.length = 36 := id.form.1

theorem HasForm.not_mem {digit : Char → Bool} {text : Text} (h : HasForm digit text)
    (hdash : c ≠ '-') (hdigit : digit c = false) : c ∉ text := by
  intro hc
  obtain ⟨place, hlt, hplace⟩ := List.getElem_of_mem hc
  have hentry : (c, place) ∈ text.zipIdx :=
    List.mem_zipIdx_iff_getElem?.mpr (by rw [List.getElem?_eq_getElem hlt, hplace])
  have hform := h.2 (c, place) hentry
  dsimp only at hform
  split_ifs at hform with h
  · exact hdash hform
  · rw [hdigit] at hform
    cases hform

theorem Uuid.not_mem_text (id : Uuid) (hdash : c ≠ '-') (hhex : isLowerHex c = false) :
    c ∉ id.text := id.form.not_mem hdash hhex

theorem Uuid.text_injective : Function.Injective Uuid.text := by
  rintro ⟨a, ha⟩ ⟨b, hb⟩ rfl
  rfl

theorem isHex_of_lowerHex (h : isLowerHex c = true) : isHex c = true := by
  rw [isHex, h]
  rfl

theorem toLower_of_lowerHex (h : isLowerHex c = true) : c.toLower = c := by
  have hrange : ¬ (65 ≤ c.toNat ∧ c.toNat ≤ 90) := by
    simp only [isLowerHex, Char.isDigit, Bool.or_eq_true, Bool.and_eq_true,
      decide_eq_true_eq] at h
    rcases h with ⟨-, h⟩ | ⟨h, -⟩
    · have hle : c.toNat ≤ 57 := UInt32.le_iff_toNat_le.mp h
      omega
    · have hle : 97 ≤ c.toNat := UInt32.le_iff_toNat_le.mp h
      omega
  unfold Char.toLower
  refine dif_neg fun hupper => hrange ?_
  exact ⟨UInt32.le_iff_toNat_le.mp hupper.1, UInt32.le_iff_toNat_le.mp hupper.2⟩

theorem Uuid.hasForm_text (id : Uuid) : HasForm isHex id.text := by
  refine ⟨id.form.1, fun entry hentry => ?_⟩
  have h := id.form.2 entry hentry
  split_ifs at h ⊢ with hdash
  · exact h
  · exact isHex_of_lowerHex h

theorem Uuid.ofText_text (id : Uuid) : Uuid.ofText id.text = some id := by
  have hlower : id.text.map Char.toLower = id.text := by
    refine (List.map_congr_left fun c hc => ?_).trans (List.map_id _)
    by_cases hdash : c = '-'
    · rw [hdash]; rfl
    · by_cases hhex : isLowerHex c = true
      · exact toLower_of_lowerHex hhex
      · exact absurd hc (id.not_mem_text hdash (Bool.eq_false_iff.mpr hhex))
  rw [Uuid.ofText, dif_pos id.hasForm_text]
  exact congrArg some (Uuid.text_injective hlower)

/-! ### Accepted texts -/

theorem hasForm_of_accepts {text : Text} (h : acceptsUuid text = true) : HasForm isHex text := by
  unfold acceptsUuid at h
  exact of_decide_eq_true (Bool.and_eq_true_iff.mp h).1

end BackendFoundation.Lib.UuidText
