import BackendFoundation.Lib.Json

/-! # Texts of strings and numbers

The text of a string determines it and ends at its first bare quote; the text of a number determines
it and ends at the first unit that no number has. A quoted unit is read back by `firstUnit`. A number
is laid out as a whole part, a fraction and an exponent, with zeros around its digits (`LaidOut`). -/

namespace BackendFoundation.Lib.Json

/-! ### Strings -/

def hexValue (u : UInt16) : UInt16 := if u < 58 then u - 48 else u - 87

/-- The unit that the first units of a quoted string stand for. -/
def firstUnit (text : JsString) : UInt16 :=
  let escape := text.getD 1 0
  if text.headD 0 ≠ 92 then text.headD 0
  else if escape = 98 then 8
  else if escape = 116 then 9
  else if escape = 110 then 10
  else if escape = 102 then 12
  else if escape = 114 then 13
  else if escape = 117 then
    hexValue (text.getD 2 0) * 4096 + hexValue (text.getD 3 0) * 256 +
      hexValue (text.getD 4 0) * 16 + hexValue (text.getD 5 0)
  else escape

theorem hexValue_hexDigit {d : UInt16} (h : d.toNat < 16) : hexValue (hexDigit d) = d := by
  have hall : ∀ n : Fin 16, hexValue (hexDigit n.val.toUInt16) = n.val.toUInt16 := by decide
  have hd : d.toNat.toUInt16 = d := UInt16.ofNat_toNat
  have := hall ⟨d.toNat, h⟩
  rwa [hd] at this

theorem hexDigits_value (u : UInt16) :
    hexValue (hexDigit (u / 4096)) * 4096 + hexValue (hexDigit (u / 256 % 16)) * 256 +
      hexValue (hexDigit (u / 16 % 16)) * 16 + hexValue (hexDigit (u % 16)) = u := by
  have hu := u.toNat_lt
  rw [hexValue_hexDigit (by simp; omega), hexValue_hexDigit (by simp; omega),
    hexValue_hexDigit (by simp; omega), hexValue_hexDigit (by simp; omega)]
  apply UInt16.toNat_inj.mp
  simp only [UInt16.toNat_add, UInt16.toNat_mul, UInt16.toNat_div, UInt16.toNat_mod,
    UInt16.toNat_ofNat, Nat.reducePow, Nat.reduceMod]
  omega

theorem unicodeEscape_eq (u : UInt16) : unicodeEscape u =
    [92, 117, hexDigit (u / 4096), hexDigit (u / 256 % 16), hexDigit (u / 16 % 16),
      hexDigit (u % 16)] := by
  have hprefix : utf16 "\\u" = [92, 117] := by decide
  rw [unicodeEscape, hprefix]
  rfl

theorem firstUnit_unicodeEscape (u : UInt16) (rest : JsString) :
    firstUnit (unicodeEscape u ++ rest) = u := by
  rw [unicodeEscape_eq]
  exact hexDigits_value u

theorem firstUnit_quoteUnit (u : UInt16) (rest : JsString) :
    firstUnit (quoteUnit u ++ rest) = u := by
  have hb : utf16 "\\b" = [92, 98] := by decide
  have ht : utf16 "\\t" = [92, 116] := by decide
  have hn : utf16 "\\n" = [92, 110] := by decide
  have hf : utf16 "\\f" = [92, 102] := by decide
  have hr : utf16 "\\r" = [92, 114] := by decide
  have hquote : utf16 "\\\"" = [92, 34] := by decide
  have hslash : utf16 "\\\\" = [92, 92] := by decide
  unfold quoteUnit
  split_ifs with h8 h9 h10 h12 h13 h34 h92 hescape
  · rw [hb, h8]; rfl
  · rw [ht, h9]; rfl
  · rw [hn, h10]; rfl
  · rw [hf, h12]; rfl
  · rw [hr, h13]; rfl
  · rw [hquote, h34]; rfl
  · rw [hslash, h92]; rfl
  · exact firstUnit_unicodeEscape u rest
  · simp [firstUnit, h92]

theorem quoteUnit_append_inj {u v : UInt16} {s t : JsString}
    (h : quoteUnit u ++ s = quoteUnit v ++ t) : u = v ∧ s = t := by
  have huv : u = v := by
    rw [← firstUnit_quoteUnit u s, h, firstUnit_quoteUnit]
  subst huv
  exact ⟨rfl, List.append_cancel_left h⟩

/-- A quoted unit starts with a backslash, or with itself. -/
theorem headD_quoteUnit (u : UInt16) (rest : JsString) :
    (quoteUnit u ++ rest).headD 0 = 92 ∨
      ((quoteUnit u ++ rest).headD 0 = u ∧ u ≠ 34 ∧ isLead u = false) := by
  unfold quoteUnit
  split_ifs with h8 h9 h10 h12 h13 h34 h92 hescape
  · left; rfl
  · left; rfl
  · left; rfl
  · left; rfl
  · left; rfl
  · left; rfl
  · left; rfl
  · left; rw [unicodeEscape_eq]; rfl
  · right
    simp only [Bool.or_eq_true, not_or, Bool.not_eq_true] at hescape
    exact ⟨rfl, h34, hescape.1.2⟩

/-- How a quoted text goes on: with half a surrogate pair as it is, or with a quoted unit. -/
theorem quoteUnits_cons (u : UInt16) (s : JsString) :
    (∃ v r, s = v :: r ∧ isLead u = true ∧ quoteUnits (u :: s) = u :: v :: quoteUnits r) ∨
      quoteUnits (u :: s) = quoteUnit u ++ quoteUnits s := by
  cases s with
  | nil =>
    right
    simp [quoteUnits]
  | cons v r =>
    rw [quoteUnits]
    split_ifs with hpair
    · left
      exact ⟨v, r, rfl, (Bool.and_eq_true_iff.mp hpair).1, rfl⟩
    · right
      rfl

variable {u : UInt16}

theorem isLead_range (h : isLead u = true) : u ≠ 34 ∧ u ≠ 92 := by
  constructor <;> rintro rfl <;> exact absurd h (by decide)

/-- A quoted text that is not empty does not start with a quote. -/
theorem headD_quoteUnits_ne (u : UInt16) (s rest : JsString) :
    (quoteUnits (u :: s) ++ rest).headD 0 ≠ 34 := by
  rcases quoteUnits_cons u s with ⟨v, r, -, hlead, he⟩ | he
  · rw [he]
    exact (isLead_range hlead).1
  · rw [he, List.append_assoc]
    rcases headD_quoteUnit u (quoteUnits s ++ rest) with h | ⟨h, h34, -⟩
    · rw [h]; decide
    · rw [h]; exact h34

/-- **A quoted text ends at its first bare quote**, and determines its string. -/
theorem quoteUnits_append_inj : ∀ (n : ℕ) (s t : JsString), s.length ≤ n → ∀ x y : JsString,
    quoteUnits s ++ 34 :: x = quoteUnits t ++ 34 :: y → s = t ∧ x = y := by
  intro n
  induction n with
  | zero =>
    intro s t hs x y h
    obtain rfl := List.length_eq_zero_iff.mp (Nat.le_zero.mp hs)
    cases t with
    | nil => exact ⟨rfl, (List.cons.inj h).2⟩
    | cons v t => exact absurd (by rw [← h]; rfl) (headD_quoteUnits_ne v t (34 :: y))
  | succ n ih =>
    intro s t hs x y h
    cases s with
    | nil =>
      cases t with
      | nil => exact ⟨rfl, (List.cons.inj h).2⟩
      | cons v t => exact absurd (by rw [← h]; rfl) (headD_quoteUnits_ne v t (34 :: y))
    | cons u s =>
      cases t with
      | nil => exact absurd (by rw [h]; rfl) (headD_quoteUnits_ne u s (34 :: x))
      | cons v t =>
        rw [List.length_cons] at hs
        rcases quoteUnits_cons u s with ⟨u', s', rfl, hu, hs'⟩ | hs' <;>
          rcases quoteUnits_cons v t with ⟨v', t', rfl, hv, ht'⟩ | ht' <;> rw [hs', ht'] at h
        · rw [List.length_cons] at hs
          simp only [List.cons_append, List.cons.injEq] at h
          obtain ⟨rfl, rfl, htail⟩ := h
          obtain ⟨rfl, rfl⟩ := ih s' t' (by omega) x y htail
          exact ⟨rfl, rfl⟩
        · -- half a pair is never written as a unit of its own
          rw [List.append_assoc] at h
          have hhead := congrArg (fun l => l.headD 0) h
          rcases headD_quoteUnit v (quoteUnits t ++ 34 :: y) with h' | ⟨h', -, h''⟩
          · exact absurd (hhead.trans h') (isLead_range hu).2
          · have huv : u = v := hhead.trans h'
            rw [← huv, hu] at h''
            cases h''
        · rw [List.append_assoc] at h
          have hhead := congrArg (fun l => l.headD 0) h
          rcases headD_quoteUnit u (quoteUnits s ++ 34 :: x) with h' | ⟨h', -, h''⟩
          · exact absurd (hhead.symm.trans h') (isLead_range hv).2
          · have huv : v = u := hhead.symm.trans h'
            rw [← huv, hv] at h''
            cases h''
        · rw [List.append_assoc, List.append_assoc] at h
          obtain ⟨rfl, htail⟩ := quoteUnit_append_inj h
          obtain ⟨rfl, rfl⟩ := ih s t (by omega) x y htail
          exact ⟨rfl, rfl⟩

theorem quote_eq (s : JsString) : quote s = 34 :: (quoteUnits s ++ [34]) := by
  have hquote : utf16 "\"" = [34] := by decide
  rw [quote, hquote]
  rfl

theorem quote_append_inj {s t x y : JsString} (h : quote s ++ x = quote t ++ y) :
    s = t ∧ x = y := by
  simp only [quote_eq, List.cons_append, List.append_assoc, List.nil_append, List.cons.injEq,
    true_and] at h
  exact quoteUnits_append_inj s.length s t (Nat.le_refl _) x y h

/-! ### Numbers -/

def isDigitUnit (u : UInt16) : Bool := 48 ≤ u && u ≤ 57

/-- The units that the text of a number is made of. -/
def isNumberUnit (u : UInt16) : Bool :=
  isDigitUnit u || u = 43 || u = 45 || u = 46 || u = 101

/-- Two texts that go on differently at the end of a stretch have the same stretch. -/
theorem stretch_append_inj {α : Type} {p : α → Bool} : ∀ {a b s t : List α},
    (∀ u ∈ a, p u = true) → (∀ u ∈ b, p u = true) → (∀ u ∈ s.head?, p u = false) →
    (∀ u ∈ t.head?, p u = false) → a ++ s = b ++ t → a = b ∧ s = t
  | [], [], _, _, _, _, _, _, h => ⟨rfl, h⟩
  | [], v :: b, s, t, _, hb, hs, _, h => by
    have hv : p v = false := hs v (by rw [List.nil_append] at h; rw [h]; rfl)
    rw [hb v List.mem_cons_self] at hv
    cases hv
  | u :: a, [], s, t, ha, _, _, ht, h => by
    have hu : p u = false := ht u (by rw [List.nil_append] at h; rw [← h]; rfl)
    rw [ha u List.mem_cons_self] at hu
    cases hu
  | u :: a, v :: b, s, t, ha, hb, hs, ht, h => by
    simp only [List.cons_append, List.cons.injEq] at h
    obtain ⟨rfl, h⟩ := h
    obtain ⟨rfl, rfl⟩ := stretch_append_inj (fun w hw => ha w (List.mem_cons_of_mem _ hw))
      (fun w hw => hb w (List.mem_cons_of_mem _ hw)) hs ht h
    exact ⟨rfl, rfl⟩

theorem digitUnit_injective : Function.Injective digitUnit := by
  have hall : ∀ a b : Fin 10, digitUnit a = digitUnit b → a = b := by decide
  exact hall

theorem isDigitUnit_digitUnit (d : Fin 10) : isDigitUnit (digitUnit d) = true := by
  have hall : ∀ a : Fin 10, isDigitUnit (digitUnit a) = true := by decide
  exact hall d

/-- The number that a text of digits stands for. -/
def readNat (text : JsString) : ℕ := text.foldl (fun n u => 10 * n + (u.toNat - 48)) 0

theorem natText_eq (n : ℕ) :
    natText n = (Nat.toDigits 10 n).map fun c => c.toNat.toUInt16 := by
  have hlist : (toString n).toList = Nat.toDigits 10 n := by simp
  have hmap : ∀ cs : List Char, (∀ c ∈ cs, c.isDigit = true) →
      (cs.flatMap fun c =>
        if c.toNat < 0x10000 then [c.toNat.toUInt16]
        else
          [(0xD800 + (c.toNat - 0x10000) / 0x400).toUInt16,
            (0xDC00 + (c.toNat - 0x10000) % 0x400).toUInt16]) =
        cs.map fun c => c.toNat.toUInt16 := by
    intro cs hdigits
    induction cs with
    | nil => rfl
    | cons c cs ih =>
      have hc := hdigits c List.mem_cons_self
      have hlt : c.toNat < 0x10000 := by
        simp only [Char.isDigit, Bool.and_eq_true, decide_eq_true_eq, UInt32.le_iff_toNat_le] at hc
        have := hc.2
        simp at this
        exact Nat.lt_of_le_of_lt this (by decide)
      rw [List.flatMap_cons, if_pos hlt, List.map_cons,
        ih fun d hd => hdigits d (List.mem_cons_of_mem _ hd)]
      rfl
  rw [natText, utf16, hlist]
  exact hmap _ fun c hc => Nat.isDigit_of_mem_toDigits (by decide) (by decide) hc

theorem isDigit_toNat {c : Char} (h : c.isDigit = true) : 48 ≤ c.toNat ∧ c.toNat ≤ 57 := by
  simp only [Char.isDigit, Bool.and_eq_true, decide_eq_true_eq, UInt32.le_iff_toNat_le] at h
  simpa using h

theorem isDigitUnit_natText {n : ℕ} (h : u ∈ natText n) : isDigitUnit u = true := by
  rw [natText_eq] at h
  obtain ⟨c, hc, rfl⟩ := List.mem_map.mp h
  obtain ⟨hlo, hhi⟩ := isDigit_toNat (Nat.isDigit_of_mem_toDigits (by decide) (by decide) hc)
  simp only [isDigitUnit, Bool.and_eq_true, decide_eq_true_eq, UInt16.le_iff_toNat_le]
  simp
  omega

theorem readNat_natText (n : ℕ) : readNat (natText n) = n := by
  have hfold : ∀ (cs : List Char) (init : ℕ), (∀ c ∈ cs, c.isDigit = true) →
      (cs.map fun c => c.toNat.toUInt16).foldl (fun n u => 10 * n + (u.toNat - 48)) init =
        Nat.ofDigitChars 10 cs init := by
    intro cs
    induction cs with
    | nil => intro init _; simp
    | cons c cs ih =>
      intro init hdigits
      obtain ⟨hlo, hhi⟩ := isDigit_toNat (hdigits c List.mem_cons_self)
      have hc : c.toNat.toUInt16.toNat = c.toNat := by simp; omega
      rw [List.map_cons, List.foldl_cons, Nat.ofDigitChars_cons, hc,
        ih _ fun d hd => hdigits d (List.mem_cons_of_mem _ hd)]
      rfl
  rw [readNat, natText_eq, hfold _ _ fun c hc =>
    Nat.isDigit_of_mem_toDigits (by decide) (by decide) hc]
  exact Nat.ofDigitChars_ten_toDigits

theorem natText_injective : Function.Injective natText := by
  intro m n h
  rw [← readNat_natText m, h, readNat_natText]

def fractionText (fraction : JsString) : JsString :=
  if fraction = [] then [] else 46 :: fraction

def exponentText : Option ℤ → JsString
  | none => []
  | some e => 101 :: (if e < 0 then 45 else 43) :: natText e.natAbs

/-- A text of digits with a sign, a fraction and an exponent. -/
def layout (negative : Bool) (whole fraction : JsString) (exponent : Option ℤ) : JsString :=
  (if negative then [45] else []) ++
    (whole ++ (fractionText fraction ++ exponentText exponent))

theorem exponentText_injective : Function.Injective exponentText := by
  intro a b h
  rcases a with _ | a <;> rcases b with _ | b
  · rfl
  · simp [exponentText] at h
  · simp [exponentText] at h
  · simp only [exponentText, List.cons.injEq, true_and] at h
    obtain ⟨hneg, htext⟩ := h
    have habs := natText_injective htext
    split_ifs at hneg with ha hb hb
    · exact congrArg some (by omega)
    · cases hneg
    · cases hneg
    · exact congrArg some (by omega)

theorem exponentText_head (e : Option ℤ) : ∀ u ∈ (exponentText e).head?, u = 101 := by
  intro u hu
  cases e with
  | none => cases hu
  | some e =>
    cases hu
    rfl

theorem fractionText_head (f : JsString) (e : Option ℤ) :
    ∀ u ∈ (fractionText f ++ exponentText e).head?, isDigitUnit u = false := by
  intro u hu
  unfold fractionText at hu
  split_ifs at hu with hf
  · rw [exponentText_head e u hu]
    decide
  · cases hu
    decide

theorem fractionText_append_inj {f g : JsString} {a b : Option ℤ}
    (hf : ∀ u ∈ f, isDigitUnit u = true) (hg : ∀ u ∈ g, isDigitUnit u = true)
    (h : fractionText f ++ exponentText a = fractionText g ++ exponentText b) : f = g ∧ a = b := by
  have hstop : ∀ (e : Option ℤ), ∀ u ∈ (exponentText e).head?, isDigitUnit u = false := by
    intro e u hu
    rw [exponentText_head e u hu]
    decide
  unfold fractionText at h
  split_ifs at h with hfnil hgnil hgnil
  · exact ⟨hfnil.trans hgnil.symm, exponentText_injective h⟩
  · cases a <;> simp [exponentText] at h
  · cases b <;> simp [exponentText] at h
  · simp only [List.cons_append, List.cons.injEq, true_and] at h
    obtain ⟨he, htail⟩ := stretch_append_inj hf hg (hstop a) (hstop b) h
    exact ⟨he, exponentText_injective htail⟩

theorem isDigitUnit_ne_minus (h : isDigitUnit u = true) : u ≠ 45 := by
  rintro rfl
  exact absurd h (by decide)

/-- The parts of a text are read off it, once the whole part is not empty. -/
theorem layout_inj {na nb : Bool} {wa wb fa fb : JsString} {ea eb : Option ℤ}
    (hwa : ∀ u ∈ wa, isDigitUnit u = true) (hwb : ∀ u ∈ wb, isDigitUnit u = true)
    (hfa : ∀ u ∈ fa, isDigitUnit u = true) (hfb : ∀ u ∈ fb, isDigitUnit u = true)
    (hnea : wa ≠ []) (hneb : wb ≠ []) (h : layout na wa fa ea = layout nb wb fb eb) :
    na = nb ∧ wa = wb ∧ fa = fb ∧ ea = eb := by
  have hsign : na = nb := by
    obtain ⟨u, wa', rfl⟩ := List.exists_cons_of_ne_nil hnea
    obtain ⟨v, wb', rfl⟩ := List.exists_cons_of_ne_nil hneb
    have hu := isDigitUnit_ne_minus (hwa u List.mem_cons_self)
    have hv := isDigitUnit_ne_minus (hwb v List.mem_cons_self)
    unfold layout at h
    cases na <;> cases nb <;> simp only [List.nil_append, List.cons_append, if_true, if_false,
      Bool.false_eq_true, List.cons.injEq] at h
    · rfl
    · exact absurd h.1 hu
    · exact absurd h.1.symm hv
    · rfl
  subst hsign
  have hbody := List.append_cancel_left h
  obtain ⟨hwhole, htail⟩ := stretch_append_inj hwa hwb (fractionText_head fa ea)
    (fractionText_head fb eb) hbody
  obtain ⟨hfraction, hexponent⟩ := fractionText_append_inj hfa hfb htail
  exact ⟨rfl, hwhole, hfraction, hexponent⟩

/-- The digits of a decimal, as they are printed. -/
def digitText (x : Decimal) : JsString := x.digits.map digitUnit

def zeros (n : ℕ) : JsString := List.replicate n 48

/-- A decimal is laid out with zeros around its digits, and its point is counted from the end of
the whole part. -/
structure LaidOut (x : Decimal) (whole fraction : JsString) (exponent : Option ℤ) (a b : ℕ) :
    Prop where
  text : decimalText x = layout x.negative whole fraction exponent
  whole_ne : whole ≠ []
  digits : whole ++ fraction = zeros a ++ digitText x ++ zeros b
  point : x.point = whole.length + exponent.getD 0 - a

theorem exists_laidOut (x : Decimal) :
    ∃ whole fraction exponent a b, LaidOut x whole fraction exponent a b := by
  have hdot : utf16 "." = [46] := by decide
  have hminus : utf16 "-" = [45] := by decide
  have hplus : utf16 "+" = [43] := by decide
  have he : utf16 "e" = [101] := by decide
  have hzero : utf16 "0." = [48, 46] := by decide
  have hlength : (digitText x).length = x.digits.length := List.length_map _
  have hpos : 0 < x.digits.length := List.length_pos_iff.mpr x.ne_nil
  have hne : digitText x ≠ [] := by
    intro hnil
    rw [hnil] at hlength
    simp at hlength
    omega
  by_cases h1 : (x.digits.length : ℤ) ≤ x.point ∧ x.point ≤ 21
  · -- an integer, with zeros up to the point
    refine ⟨digitText x ++ zeros (x.point - x.digits.length).toNat, [], none, 0,
      (x.point - x.digits.length).toNat, ⟨?_, by simp [hne], by simp [zeros], ?_⟩⟩
    · unfold decimalText
      dsimp only
      rw [if_pos h1]
      simp [layout, fractionText, exponentText, hminus, digitText, zeros]
    · simp only [List.length_append, hlength, zeros, List.length_replicate]
      push_cast
      simp
      omega
  by_cases h2 : 0 < x.point ∧ x.point ≤ 21
  · have hlt : x.point < x.digits.length := by omega
    refine ⟨(digitText x).take x.point.toNat, (digitText x).drop x.point.toNat, none, 0, 0,
      ⟨?_, ?_, by simp [zeros], ?_⟩⟩
    · have hdrop : (digitText x).drop x.point.toNat ≠ [] := by
        intro hnil
        have := List.drop_eq_nil_iff.mp hnil
        omega
      unfold decimalText
      dsimp only
      rw [if_neg h1, if_pos h2, layout, fractionText, if_neg hdrop]
      simp [exponentText, hminus, hdot, digitText]
    · rw [Ne, List.take_eq_nil_iff]
      rintro (h | h)
      · omega
      · exact hne h
    · simp [hlength]
      omega
  by_cases h3 : -6 < x.point ∧ x.point ≤ 0
  · refine ⟨[48], zeros (-x.point).toNat ++ digitText x, none, (-x.point).toNat + 1, 0,
      ⟨?_, by simp, ?_, ?_⟩⟩
    · have hfraction : zeros (-x.point).toNat ++ digitText x ≠ [] := by simp [hne]
      unfold decimalText
      dsimp only
      rw [if_neg h1, if_neg h2, if_pos h3, layout, fractionText, if_neg hfraction]
      simp [exponentText, hminus, hzero, digitText, zeros]
    · simp [zeros, List.replicate_succ]
    · simp
      omega
  by_cases h4 : (x.digits.length : ℤ) = 1
  · refine ⟨digitText x, [], some (x.point - 1), 0, 0, ⟨?_, hne, by simp [zeros], ?_⟩⟩
    · unfold decimalText
      dsimp only
      rw [if_neg h1, if_neg h2, if_neg h3, if_pos h4, layout, fractionText, if_pos rfl]
      split_ifs <;> simp_all [exponentText, digitText]
    · simp [hlength]
      omega
  · refine ⟨(digitText x).take 1, (digitText x).drop 1, some (x.point - 1), 0, 0,
      ⟨?_, ?_, by rw [List.take_append_drop]; simp [zeros], ?_⟩⟩
    · have hdrop : (digitText x).drop 1 ≠ [] := by
        intro hnil
        have := List.drop_eq_nil_iff.mp hnil
        omega
      unfold decimalText
      dsimp only
      rw [if_neg h1, if_neg h2, if_neg h3, if_neg h4, layout, fractionText, if_neg hdrop]
      split_ifs <;> simp_all [exponentText, digitText]
    · rw [Ne, List.take_eq_nil_iff]
      rintro (h | h)
      · omega
      · exact hne h
    · simp [hlength]
      omega

theorem isDigitUnit_zeros {n : ℕ} (h : u ∈ zeros n) : isDigitUnit u = true := by
  rw [List.eq_of_mem_replicate h]
  decide

theorem isDigitUnit_digitText {x : Decimal} (h : u ∈ digitText x) : isDigitUnit u = true := by
  obtain ⟨d, -, rfl⟩ := List.mem_map.mp h
  exact isDigitUnit_digitUnit d

/-- Digits with no zero at either end are read off a text with zeros around them. -/
theorem digitText_head (x : Decimal) (b : ℕ) :
    ∀ u ∈ (digitText x ++ zeros b).head?, (u == 48) = false := by
  intro u hu
  obtain ⟨d, ds, hd⟩ := List.exists_cons_of_ne_nil x.ne_nil
  have hne : d ≠ 0 := by
    rintro rfl
    exact x.head_ne (by rw [hd]; rfl)
  rw [digitText, hd] at hu
  cases hu
  have hall : ∀ a : Fin 10, a ≠ 0 → (digitUnit a == 48) = false := by decide
  exact hall d hne

theorem digitText_last (x : Decimal) : ∀ u ∈ (digitText x).reverse.head?, (u == 48) = false := by
  intro u hu
  rw [List.head?_reverse, digitText, List.getLast?_map] at hu
  obtain ⟨d, hd, rfl⟩ := Option.map_eq_some_iff.mp hu
  have hne : d ≠ 0 := by
    rintro rfl
    exact x.last_ne hd
  have hall : ∀ a : Fin 10, a ≠ 0 → (digitUnit a == 48) = false := by decide
  exact hall d hne

theorem zeros_digitText_inj {x y : Decimal} {a b c d : ℕ}
    (h : zeros a ++ digitText x ++ zeros b = zeros c ++ digitText y ++ zeros d) :
    a = c ∧ x.digits = y.digits := by
  have hzeros : ∀ n : ℕ, ∀ u ∈ zeros n, (u == (48 : UInt16)) = true := by
    intro n u hu
    rw [List.eq_of_mem_replicate hu]
    decide
  rw [List.append_assoc, List.append_assoc] at h
  obtain ⟨hlead, htail⟩ := stretch_append_inj (hzeros a) (hzeros c) (digitText_head x b)
    (digitText_head y d) h
  have hback := congrArg List.reverse htail
  rw [List.reverse_append, List.reverse_append] at hback
  have hzerosRev : ∀ n : ℕ, ∀ u ∈ (zeros n).reverse, (u == (48 : UInt16)) = true := by
    intro n u hu
    exact hzeros n u (List.mem_reverse.mp hu)
  obtain ⟨-, hdigits⟩ := stretch_append_inj (hzerosRev b) (hzerosRev d) (digitText_last x)
    (digitText_last y) hback
  refine ⟨?_, digitUnit_injective.list_map (List.reverse_injective hdigits)⟩
  simpa [zeros] using congrArg List.length hlead

theorem LaidOut.isDigitUnit {x : Decimal} {whole fraction : JsString} {exponent : Option ℤ}
    {a b : ℕ} (h : LaidOut x whole fraction exponent a b) :
    ∀ u ∈ whole ++ fraction, isDigitUnit u = true := by
  intro u hu
  rw [h.digits] at hu
  rcases List.mem_append.mp hu with hu | hu
  · rcases List.mem_append.mp hu with hu | hu
    · exact isDigitUnit_zeros hu
    · exact isDigitUnit_digitText hu
  · exact isDigitUnit_zeros hu

theorem decimalText_injective {x y : Decimal} (h : decimalText x = decimalText y) : x = y := by
  obtain ⟨wx, fx, ex, ax, bx, hx⟩ := exists_laidOut x
  obtain ⟨wy, fy, ey, ay, _, hy⟩ := exists_laidOut y
  rw [hx.text, hy.text] at h
  obtain ⟨hsign, rfl, rfl, rfl⟩ := layout_inj
    (fun u hu => hx.isDigitUnit u (List.mem_append_left _ hu))
    (fun u hu => hy.isDigitUnit u (List.mem_append_left _ hu))
    (fun u hu => hx.isDigitUnit u (List.mem_append_right _ hu))
    (fun u hu => hy.isDigitUnit u (List.mem_append_right _ hu)) hx.whole_ne hy.whole_ne h
  obtain ⟨rfl, hdigits⟩ := zeros_digitText_inj (hx.digits.symm.trans hy.digits)
  have hpoint : x.point = y.point := hx.point.trans hy.point.symm
  cases x
  cases y
  cases hsign
  cases hdigits
  cases hpoint
  rfl

theorem isNumberUnit_of_digit (h : isDigitUnit u = true) : isNumberUnit u = true := by
  rw [isNumberUnit, h]
  rfl

theorem isNumberUnit_exponentText {e : Option ℤ} (h : u ∈ exponentText e) :
    isNumberUnit u = true := by
  cases e with
  | none => cases h
  | some e =>
    rw [exponentText] at h
    rcases List.mem_cons.mp h with rfl | h
    · decide
    · rcases List.mem_cons.mp h with rfl | h
      · split_ifs <;> decide
      · exact isNumberUnit_of_digit (isDigitUnit_natText h)

theorem isNumberUnit_decimalText {x : Decimal} (h : u ∈ decimalText x) : isNumberUnit u = true := by
  obtain ⟨whole, fraction, exponent, a, b, hx⟩ := exists_laidOut x
  rw [hx.text, layout, fractionText] at h
  rcases List.mem_append.mp h with h | h
  · split_ifs at h
    · rw [List.mem_singleton.mp h]
      decide
    · cases h
  rcases List.mem_append.mp h with h | h
  · exact isNumberUnit_of_digit (hx.isDigitUnit u (List.mem_append_left _ h))
  rcases List.mem_append.mp h with h | h
  · split_ifs at h
    · cases h
    · rcases List.mem_cons.mp h with rfl | h
      · decide
      · exact isNumberUnit_of_digit (hx.isDigitUnit u (List.mem_append_right _ h))
  · exact isNumberUnit_exponentText h

theorem decimalText_ne_zero (x : Decimal) : decimalText x ≠ [48] := by
  intro h
  obtain ⟨whole, fraction, exponent, a, b, hx⟩ := exists_laidOut x
  have hzero : [48] = layout false [48] [] none := rfl
  rw [hx.text, hzero] at h
  obtain ⟨-, hwhole, hfraction, -⟩ := layout_inj
    (fun u hu => hx.isDigitUnit u (List.mem_append_left _ hu)) (by simp [isDigitUnit])
    (fun u hu => hx.isDigitUnit u (List.mem_append_right _ hu)) (by simp) hx.whole_ne
    (by decide) h
  have hdigits := hx.digits
  rw [hwhole, hfraction] at hdigits
  obtain ⟨d, ds, hd⟩ := List.exists_cons_of_ne_nil x.ne_nil
  have hmem : digitUnit d ∈ ([48] ++ [] : JsString) := by
    rw [hdigits]
    simp [digitText, hd]
  have hunit : digitUnit d = 48 := by simpa using hmem
  have hhead := digitText_head x 0 (digitUnit d) (by rw [digitText, hd]; rfl)
  rw [hunit] at hhead
  exact absurd hhead (by decide)

/-- The digits of a number are its printed digits with the zeros at its end. -/
theorem digits_eq (n : ℕ) : (Nat.digits 10 n).map (Fin.ofNat 10) =
    List.replicate ((Nat.digits 10 n).length - (trimmedDigits n).length) 0 ++ trimmedDigits n := by
  let units := (Nat.digits 10 n).map (Fin.ofNat 10)
  have hsplit : units.takeWhile (· = 0) ++ trimmedDigits n = units :=
    List.takeWhile_append_dropWhile
  have hlength := congrArg List.length hsplit
  rw [List.length_append] at hlength
  have hunits : units.length = (Nat.digits 10 n).length := List.length_map _
  have hzeros : units.takeWhile (· = 0) =
      List.replicate (units.takeWhile (· = 0)).length 0 := by
    refine List.eq_replicate_of_mem fun d hd => ?_
    have hd := List.mem_takeWhile_imp hd
    simpa using hd
  have hcount : (units.takeWhile (· = 0)).length =
      (Nat.digits 10 n).length - (trimmedDigits n).length := by omega
  rw [← hcount, ← hzeros]
  exact hsplit.symm

theorem ofNat_injective : Function.Injective JsNumber.ofNat := by
  intro m n h
  unfold JsNumber.ofNat at h
  split_ifs at h with hm hn hn
  · exact hm.trans hn.symm
  · have hdecimal := JsNumber.finite.inj h
    have hdigits : trimmedDigits m = trimmedDigits n :=
      List.reverse_injective (congrArg Decimal.digits hdecimal)
    have hlength : (Nat.digits 10 m).length = (Nat.digits 10 n).length :=
      Int.ofNat_inj.mp (congrArg Decimal.point hdecimal)
    have hunits : (Nat.digits 10 m).map (Fin.ofNat 10) = (Nat.digits 10 n).map (Fin.ofNat 10) := by
      rw [digits_eq m, digits_eq n, hlength, hdigits]
    have hback : ∀ k : ℕ, ((Nat.digits 10 k).map (Fin.ofNat 10)).map Fin.val =
        Nat.digits 10 k := by
      intro k
      rw [List.map_map]
      refine (List.map_congr_left fun d hd => ?_).trans (List.map_id _)
      exact Nat.mod_eq_of_lt (Nat.digits_lt_base (by omega) hd)
    have hequal := congrArg (List.map Fin.val) hunits
    rw [hback, hback] at hequal
    exact Nat.digits_inj_iff.mp hequal

theorem ofInt_injective : Function.Injective JsNumber.ofInt := by
  intro a b h
  have hzero : ∀ z : ℤ, z.natAbs = 0 → JsNumber.ofInt z = .zero false := by
    intro z hz
    simp [JsNumber.ofInt, JsNumber.ofNat, hz]
  have hfinite : ∀ z : ℤ, z.natAbs ≠ 0 → ∃ x, JsNumber.ofNat z.natAbs = .finite x ∧
      x.negative = false ∧ JsNumber.ofInt z = .finite { x with negative := z < 0 } := by
    intro z hz
    have hof : ∃ x, JsNumber.ofNat z.natAbs = .finite x ∧ x.negative = false := by
      unfold JsNumber.ofNat
      rw [dif_neg hz]
      exact ⟨_, rfl, rfl⟩
    obtain ⟨x, hx, hnegative⟩ := hof
    refine ⟨x, hx, hnegative, ?_⟩
    rw [JsNumber.ofInt, hx]
  by_cases ha : a.natAbs = 0 <;> by_cases hb : b.natAbs = 0
  · omega
  · obtain ⟨y, -, -, hy⟩ := hfinite b hb
    rw [hzero a ha, hy] at h
    cases h
  · obtain ⟨x, -, -, hx⟩ := hfinite a ha
    rw [hx, hzero b hb] at h
    cases h
  · obtain ⟨x, hxof, hxneg, hx⟩ := hfinite a ha
    obtain ⟨y, hyof, hyneg, hy⟩ := hfinite b hb
    rw [hx, hy] at h
    obtain ⟨hsign, hdigits, hpoint⟩ := Decimal.mk.inj (JsNumber.finite.inj h)
    have hxy : x = y := by
      cases x
      cases y
      cases hxneg
      cases hyneg
      cases hdigits
      cases hpoint
      rfl
    have habs : a.natAbs = b.natAbs := ofNat_injective (by rw [hxof, hyof, hxy])
    have hsigns : a < 0 ↔ b < 0 := by simpa using hsign
    omega

end BackendFoundation.Lib.Json
