import BackendFoundation.Http.ClientIp
import BackendFoundation.Lib.IpText

/-! # Addresses as the standard writes them

A text is read twice: by `isIPv6` of `node:net`, which accepts what the grammar of `Lib.IpText`
derives (`isIPv6_iff`), and by `parseIpv6Bytes`, which finds the groups that the grammar assigns
(`parseIpv6Bytes_of_addressText`). So `parseClientIp` reads every address that a text can write,
and nothing else (`parseClientIp_of_spells`, `parseClientIp_eq_none_iff`). -/

namespace BackendFoundation.Http.Addresses

open Lib
open Lib.IpText (Ipv4 Ipv6 Address HexDigitText OctetText GroupText QuadText
  GroupsText TailText OrNothing AddressText decDigit groupBytes quadGroups forall₂_iff_map
  intercalate_cons_cons intercalate_append intercalate_ne_nil mem_of_mem_intercalate)
open Http.ClientIp

/-! ### Digits -/

theorem toNat_ofNat {n : ℕ} (h : n < 128) : (Char.ofNat n).toNat = n := by
  have hvalid : n.isValidChar := .inl (by omega)
  rw [Char.ofNat, dif_pos hvalid]
  rfl

theorem isDigit_iff {c : Char} : c.isDigit = true ↔ 48 ≤ c.toNat ∧ c.toNat ≤ 57 := by
  simp only [Char.isDigit, Bool.and_eq_true, decide_eq_true_eq]
  exact Iff.rfl

theorem isHexDigit_iff {c : Char} : isHexDigit c = true ↔
    (48 ≤ c.toNat ∧ c.toNat ≤ 57) ∨ (97 ≤ c.toNat ∧ c.toNat ≤ 102) ∨
      (65 ≤ c.toNat ∧ c.toNat ≤ 70) := by
  simp only [isHexDigit, Bool.or_eq_true, Bool.and_eq_true, decide_eq_true_eq, isDigit_iff,
    or_assoc]
  exact Iff.rfl

theorem hexDigitValue_eq (c : Char) : hexDigitValue c =
    if 48 ≤ c.toNat ∧ c.toNat ≤ 57 then c.toNat - 48
    else if 97 ≤ c.toNat then c.toNat - 87 else c.toNat - 55 := by
  unfold hexDigitValue
  simp only [isDigit_iff]
  rfl

theorem hexDigitText_iff (c : Char) (d : ℕ) :
    HexDigitText c d ↔ isHexDigit c = true ∧ d = hexDigitValue c := by
  rw [isHexDigit_iff, hexDigitValue_eq]
  constructor
  · intro h
    cases h with
    | digit d hd =>
      rw [toNat_ofNat (by omega)]
      split_ifs <;> omega
    | lower d hle hlt =>
      rw [toNat_ofNat (by omega)]
      split_ifs <;> omega
    | upper d hle hlt =>
      rw [toNat_ofNat (by omega)]
      split_ifs <;> omega
  · rintro ⟨hc, rfl⟩
    have hchar : Char.ofNat c.toNat = c := Char.ofNat_toNat c
    rcases hc with hc | hc | hc
    · rw [if_pos hc]
      have := HexDigitText.digit (c.toNat - 48) (by omega)
      rwa [show 48 + (c.toNat - 48) = c.toNat by omega, hchar] at this
    · rw [if_neg (by omega), if_pos (by omega)]
      have := HexDigitText.lower (c.toNat - 87) (by omega) (by omega)
      rwa [show 87 + (c.toNat - 87) = c.toNat by omega, hchar] at this
    · rw [if_neg (by omega), if_neg (by omega)]
      have := HexDigitText.upper (c.toNat - 55) (by omega) (by omega)
      rwa [show 55 + (c.toNat - 55) = c.toNat by omega, hchar] at this

/-- A group is what the regular expression of a group accepts, and its number is read from it. -/
theorem groupText_iff (text : Text) (n : ℕ) :
    GroupText text n ↔ isGroup text = true ∧ n = parseHex text := by
  unfold GroupText isGroup
  simp only [forall₂_iff_map hexDigitText_iff, Bool.and_eq_true, decide_eq_true_eq]
  constructor
  · rintro ⟨digits, ⟨hall, rfl⟩, hne, hlen, rfl⟩
    exact ⟨⟨⟨hne, hlen⟩, hall⟩, by rw [parseHex, List.foldl_map]⟩
  · rintro ⟨⟨⟨hne, hlen⟩, hall⟩, rfl⟩
    exact ⟨text.map hexDigitValue, ⟨hall, rfl⟩, hne, hlen, by rw [parseHex, List.foldl_map]⟩

theorem isDigit_decDigit (d : Fin 10) : (decDigit d).isDigit = true ∧
    (decDigit d).toNat - 48 = d := by
  rw [isDigit_iff, decDigit, toNat_ofNat (by omega)]
  omega

theorem exists_decDigit {c : Char} (h : c.isDigit = true) : ∃ d, c = decDigit d := by
  rw [isDigit_iff] at h
  refine ⟨⟨c.toNat - 48, by omega⟩, ?_⟩
  rw [decDigit, show 48 + (c.toNat - 48) = c.toNat by omega, Char.ofNat_toNat]

theorem decDigit_eq_zero_iff (d : Fin 10) : decDigit d = '0' ↔ d = 0 := by
  revert d
  decide

/-- An octet is what `isIPv4` accepts between two dots, and its number is read from it. -/
theorem octetText_iff (text : Text) (n : ℕ) :
    OctetText text n ↔ isOctet text = true ∧ n = parseDecimal text := by
  have hvalue := fun d => (isDigit_decDigit d).2
  have hdigit := fun d => (isDigit_decDigit d).1
  unfold isOctet parseDecimal
  constructor
  · intro h
    cases h with
    | one a =>
      have ha := a.isLt
      simp [hdigit, hvalue]
      omega
    | two a b hne =>
      have hzero := mt (decDigit_eq_zero_iff a).mp hne
      simp [hdigit, hvalue, hzero]
      omega
    | three a b c hne hlt =>
      have hzero := mt (decDigit_eq_zero_iff a).mp hne
      simp [hdigit, hvalue, hzero]
      omega
  · simp only [Bool.and_eq_true, decide_eq_true_eq, Bool.or_eq_true]
    rintro ⟨⟨⟨⟨⟨hne, hall⟩, hlen⟩, hfirst⟩, hle⟩, rfl⟩
    match text, hne, hall, hlen, hfirst, hle with
    | [a], _, hall, _, _, _ =>
      obtain ⟨a, rfl⟩ := exists_decDigit (c := a) (by simpa using hall)
      simp only [List.foldl_cons, List.foldl_nil, hvalue, Nat.zero_mul, Nat.zero_add]
      exact .one a
    | [a, b], _, hall, _, hfirst, hle =>
      simp only [List.all_cons, List.all_nil, Bool.and_eq_true, Bool.and_true] at hall
      obtain ⟨a, rfl⟩ := exists_decDigit hall.1
      obtain ⟨b, rfl⟩ := exists_decDigit hall.2
      have hne : a ≠ 0 := by
        rintro rfl
        simp [decDigit_eq_zero_iff] at hfirst
      have := OctetText.two a b hne
      simp only [List.foldl_cons, List.foldl_nil, hvalue, Nat.zero_mul, Nat.zero_add]
      rwa [Nat.mul_comm] at this
    | [a, b, c], _, hall, _, hfirst, hle =>
      simp only [List.all_cons, List.all_nil, Bool.and_eq_true, Bool.and_true] at hall
      obtain ⟨a, rfl⟩ := exists_decDigit hall.1
      obtain ⟨b, rfl⟩ := exists_decDigit hall.2.1
      obtain ⟨c, rfl⟩ := exists_decDigit hall.2.2
      have hne : a ≠ 0 := by
        rintro rfl
        simp [decDigit_eq_zero_iff] at hfirst
      simp only [List.foldl_cons, List.foldl_nil, hvalue, Nat.zero_mul, Nat.zero_add] at hle ⊢
      have := OctetText.three a b c hne (by omega)
      rwa [show 100 * a.val + 10 * b.val + c.val = (a.val * 10 + b.val) * 10 + c.val by omega]
        at this
    | _ :: _ :: _ :: _ :: _, _, _, hlen, _, _ =>
      simp only [List.length_cons] at hlen
      omega

/-! ### Parts between separators -/

variable {text : Text}

theorem not_mem_of_isHexDigit {c : Char} (h : text.all isHexDigit = true)
    (hc : isHexDigit c = false) : c ∉ text := by
  intro hmem
  rw [List.all_eq_true.mp h c hmem] at hc
  cases hc

theorem isGroup_all (h : isGroup text = true) : text.all isHexDigit = true := by
  simp only [isGroup, Bool.and_eq_true] at h
  exact h.2

theorem isOctet_all (h : isOctet text = true) : text.all isHexDigit = true := by
  simp only [isOctet, Bool.and_eq_true] at h
  rw [List.all_eq_true] at h ⊢
  intro c hc
  simp [isHexDigit, h.1.1.1.2 c hc]

theorem isGroup_ne_nil (h : isGroup text = true) : text ≠ [] := by
  rintro rfl
  cases h

variable {ns : List ℕ}

/-- Parts that are joined are found again, and with them what each part says. -/
theorem joined_iff {R : Text → ℕ → Prop} {p : Text → Bool} {f : Text → ℕ} {sep : Char}
    (h : ∀ part n, R part n ↔ p part = true ∧ n = f part)
    (hsep : ∀ part, p part = true → sep ∉ part) :
    (∃ parts, parts ≠ [] ∧ text = [sep].intercalate parts ∧ List.Forall₂ R parts ns) ↔
      (text.splitOn sep).all p = true ∧ ns = (text.splitOn sep).map f := by
  constructor
  · rintro ⟨parts, hne, rfl, hparts⟩
    rw [forall₂_iff_map h] at hparts
    have hsplit : ([sep].intercalate parts).splitOn sep = parts :=
      List.splitOn_intercalate sep (fun part hpart =>
        hsep part (List.all_eq_true.mp hparts.1 part hpart)) hne
    rw [hsplit]
    exact hparts
  · intro hparts
    exact ⟨text.splitOn sep, List.splitOn_ne_nil sep text, (List.intercalate_splitOn sep).symm,
      (forall₂_iff_map h).mpr hparts⟩

theorem groupsText_iff (text : Text) (ns : List ℕ) : GroupsText text ns ↔
    (text.splitOn ':').all isGroup = true ∧ ns = (text.splitOn ':').map parseHex :=
  joined_iff groupText_iff fun _ h => not_mem_of_isHexDigit (isGroup_all h) (by decide)

/-- A dotted quad is what `parseIpv4Bytes` reads. -/
theorem quadText_iff (text : Text) (octets : List ℕ) :
    QuadText text octets ↔ parseIpv4Bytes text = some octets := by
  have hjoined := @joined_iff text octets OctetText isOctet parseDecimal '.' octetText_iff
    (fun _ h => not_mem_of_isHexDigit (isOctet_all h) (by decide))
  unfold parseIpv4Bytes isIPv4
  constructor
  · rintro ⟨parts, htext, hlen, hparts⟩
    have hne : parts ≠ [] := by
      rintro rfl
      cases hlen
    obtain ⟨hall, hoctets⟩ := hjoined.mp ⟨parts, hne, htext, hparts⟩
    have hcount : (text.splitOn '.').length = 4 := by
      rw [← hlen, hparts.length_eq, hoctets, List.length_map]
    simp [hall, hcount, hoctets]
  · intro h
    split_ifs at h with hquad
    rw [Bool.and_eq_true, decide_eq_true_eq] at hquad
    refine ⟨text.splitOn '.', (List.intercalate_splitOn '.').symm, hquad.1, ?_⟩
    exact (forall₂_iff_map octetText_iff).mpr ⟨hquad.2, (Option.some.inj h).symm⟩

theorem isIPv4_iff (text : Text) : isIPv4 text = true ↔ ∃ octets, QuadText text octets := by
  simp only [quadText_iff]
  unfold parseIpv4Bytes
  constructor
  · intro h
    rw [if_pos h]
    exact ⟨_, rfl⟩
  · rintro ⟨octets, h⟩
    by_contra hnot
    rw [if_neg hnot] at h
    cases h

variable {octets : List ℕ}

theorem quad_not_mem (h : QuadText text octets) {c : Char} (hc : isHexDigit c = false)
    (hdot : c ≠ '.') : c ∉ text := by
  obtain ⟨parts, rfl, -, hparts⟩ := h
  rw [forall₂_iff_map octetText_iff] at hparts
  intro hmem
  rcases mem_of_mem_intercalate hmem with hsep | ⟨part, hpart, hcpart⟩
  · exact hdot hsep
  · exact not_mem_of_isHexDigit (isOctet_all (List.all_eq_true.mp hparts.1 part hpart)) hc hcpart

/-! ### Two colons -/

theorem splitDoubleColon_ne_nil (text : Text) : splitDoubleColon text ≠ [] := by
  fun_induction splitDoubleColon text with
  | case1 => exact List.cons_ne_nil _ _
  | case2 => exact List.cons_ne_nil _ _
  | case3 c rest _ ih =>
    intro h
    exact ih (by simpa using congrArg List.length h)

theorem intercalate_splitDoubleColon (text : Text) :
    [':', ':'].intercalate (splitDoubleColon text) = text := by
  fun_induction splitDoubleColon text with
  | case1 => rfl
  | case2 rest ih =>
    obtain ⟨first, others, hsplit⟩ := List.exists_cons_of_ne_nil (splitDoubleColon_ne_nil rest)
    rw [hsplit] at ih ⊢
    rw [← ih]
    simp [List.intercalate]
  | case3 c rest _ ih =>
    obtain ⟨first, others, hsplit⟩ := List.exists_cons_of_ne_nil (splitDoubleColon_ne_nil rest)
    rw [hsplit] at ih ⊢
    rw [List.modifyHead_cons]
    cases others with
    | nil => simpa [List.intercalate] using ih
    | cons second others => simpa [List.intercalate] using ih

theorem splitDoubleColon_cons {c : Char} (hc : c ≠ ':') (rest : Text) :
    splitDoubleColon (c :: rest) = (splitDoubleColon rest).modifyHead (c :: ·) := by
  rw [splitDoubleColon]
  intro tail hcolon _
  exact hc hcolon

theorem splitDoubleColon_colon {c : Char} (hc : c ≠ ':') (rest : Text) :
    splitDoubleColon (':' :: c :: rest) = (splitDoubleColon (c :: rest)).modifyHead (':' :: ·) := by
  rw [splitDoubleColon]
  intro tail _ hcons
  exact hc (List.cons.inj hcons).1

theorem splitDoubleColon_append {part : Text} (h : ':' ∉ part) (rest : Text) :
    splitDoubleColon (part ++ rest) = (splitDoubleColon rest).modifyHead (part ++ ·) := by
  induction part with
  | nil =>
    obtain ⟨first, others, hsplit⟩ := List.exists_cons_of_ne_nil (splitDoubleColon_ne_nil rest)
    rw [List.nil_append, hsplit]
    rfl
  | cons c part ih =>
    rw [List.mem_cons, not_or] at h
    rw [List.cons_append, splitDoubleColon_cons (Ne.symm h.1), ih h.2, List.modifyHead_modifyHead]
    rfl

theorem splitDoubleColon_parts {parts : List Text} (hne : parts ≠ [])
    (h : ∀ part ∈ parts, part ≠ [] ∧ ':' ∉ part) (rest : Text) :
    splitDoubleColon ([':'].intercalate parts ++ rest) =
      (splitDoubleColon rest).modifyHead ([':'].intercalate parts ++ ·) := by
  induction parts with
  | nil => exact absurd rfl hne
  | cons a others ih =>
    cases others with
    | nil =>
      have hself : [':'].intercalate [a] = a := by simp [List.intercalate]
      rw [hself]
      exact splitDoubleColon_append (h a List.mem_cons_self).2 rest
    | cons b others =>
      obtain ⟨hb, hcolon⟩ := h b (List.mem_cons_of_mem _ List.mem_cons_self)
      have ih' := ih (List.cons_ne_nil b others) fun part hpart =>
        h part (List.mem_cons_of_mem _ hpart)
      obtain ⟨c, tail, htail⟩ : ∃ c tail, [':'].intercalate (b :: others) ++ rest = c :: tail ∧
          c ≠ ':' := by
        obtain ⟨c, b', rfl⟩ := List.exists_cons_of_ne_nil hb
        refine ⟨c, b' ++ (([':'].intercalate ((c :: b') :: others)).drop (b'.length + 1) ++ rest),
          ?_, fun hc => hcolon (by rw [hc]; exact List.mem_cons_self)⟩
        cases others with
        | nil => simp [List.intercalate]
        | cons d others => rw [intercalate_cons_cons]; simp
      rw [intercalate_cons_cons, List.append_assoc,
        splitDoubleColon_append (h a List.mem_cons_self).2, List.cons_append, htail.1,
        splitDoubleColon_colon htail.2, ← htail.1, ih', List.modifyHead_modifyHead,
        List.modifyHead_modifyHead]
      simp [Function.comp_def]

theorem GroupsText.exists_parts (h : GroupsText text ns) :
    ∃ parts, parts ≠ [] ∧ text = [':'].intercalate parts ∧
      ∀ part ∈ parts, part ≠ [] ∧ ':' ∉ part := by
  obtain ⟨parts, hne, rfl, hparts⟩ := h
  rw [forall₂_iff_map groupText_iff] at hparts
  refine ⟨parts, hne, rfl, fun part hpart => ?_⟩
  have hgroup := List.all_eq_true.mp hparts.1 part hpart
  exact ⟨isGroup_ne_nil hgroup, not_mem_of_isHexDigit (isGroup_all hgroup) (by decide)⟩

/-! ### Groups and a dotted quad after them -/

theorem quad_ne_nil (h : QuadText text octets) : text ≠ [] := by
  rintro rfl
  rw [quadText_iff] at h
  cases h

theorem quad_part (h : QuadText text octets) :
    text ≠ [] ∧ ':' ∉ text := ⟨quad_ne_nil h, quad_not_mem h (by decide) (by decide)⟩

theorem TailText.exists_parts (h : TailText text ns) :
    ∃ parts, parts ≠ [] ∧ text = [':'].intercalate parts ∧
      ∀ part ∈ parts, part ≠ [] ∧ ':' ∉ part := by
  cases h with
  | groups h => exact GroupsText.exists_parts h
  | quad h =>
    refine ⟨[text], List.cons_ne_nil _ _, by simp [List.intercalate], fun part hpart => ?_⟩
    rw [List.mem_singleton.mp hpart]
    exact quad_part h
  | @groupsQuad start quad ns octets hgroups hquad =>
    obtain ⟨parts, hne, rfl, hparts⟩ := GroupsText.exists_parts hgroups
    refine ⟨parts ++ [quad], by simp, ?_, fun part hpart => ?_⟩
    · rw [intercalate_append ':' hne (List.cons_ne_nil _ _)]
      simp [List.intercalate]
    · rcases List.mem_append.mp hpart with hpart | hpart
      · exact hparts part hpart
      · rw [List.mem_singleton.mp hpart]
        exact quad_part hquad

theorem TailText.ne_nil (h : TailText text ns) : text ≠ [] := by
  obtain ⟨parts, hne, rfl, hparts⟩ := TailText.exists_parts h
  exact intercalate_ne_nil ':' hne fun part hpart => (hparts part hpart).1

theorem quad_dot (h : QuadText text octets) : '.' ∈ text := by
  obtain ⟨parts, rfl, hlen, -⟩ := h
  match parts, hlen with
  | [a, b, c, d], _ =>
    rw [intercalate_cons_cons]
    simp

theorem not_isGroup_quad (h : QuadText text octets) : isGroup text = false := by
  rw [Bool.eq_false_iff]
  intro hgroup
  exact not_mem_of_isHexDigit (isGroup_all hgroup) (by decide) (quad_dot h)

theorem tailText_iff (text : Text) (ns : List ℕ) : TailText text ns ↔ GroupsText text ns ∨
    ∃ init quad octets, text.splitOn ':' = init ++ [quad] ∧ init.all isGroup = true ∧
      QuadText quad octets ∧ ns = init.map parseHex ++ quadGroups octets := by
  constructor
  · intro h
    cases h with
    | groups h => exact .inl h
    | @quad _ octets h =>
      have hsplit : text.splitOn ':' = [text] := List.splitOn_eq_singleton (quad_part h).2
      exact .inr ⟨[], text, octets, hsplit, rfl, h, rfl⟩
    | @groupsQuad start quad ns octets hgroups hquad =>
      have hsplit : quad.splitOn ':' = [quad] := List.splitOn_eq_singleton (quad_part hquad).2
      obtain ⟨hall, rfl⟩ := (groupsText_iff start ns).mp hgroups
      refine .inr ⟨start.splitOn ':', quad, octets, ?_, hall, hquad, rfl⟩
      rw [List.splitOn_append_cons_self, hsplit]
  · rintro (h | ⟨init, quad, octets, hsplit, hall, hquad, rfl⟩)
    · exact .groups h
    · have htext : text = [':'].intercalate (init ++ [quad]) := by
        rw [← hsplit, List.intercalate_splitOn]
      by_cases hinit : init = []
      · subst hinit
        have hself : text = quad := by rw [htext]; simp [List.intercalate]
        rw [hself]
        exact .quad hquad
      · rw [intercalate_append ':' hinit (List.cons_ne_nil _ _)] at htext
        have hself : [':'].intercalate [quad] = quad := by simp [List.intercalate]
        rw [htext, hself]
        exact .groupsQuad ⟨init, hinit, rfl, (forall₂_iff_map groupText_iff).mpr ⟨hall, rfl⟩⟩ hquad

theorem length_quadGroups (h : octets.length = 4) : (quadGroups octets).length = 2 := by
  match octets, h with
  | [a, b, c, d], _ => rfl

/-- `countGroups` counts the groups that a part of an address says. -/
theorem countGroups_false_iff (text : Text) (n : ℕ) : countGroups false text = some n ↔
    ∃ ns, OrNothing GroupsText text ns ∧ ns.length = n := by
  unfold countGroups
  by_cases hnil : text = []
  · subst hnil
    simp only [if_true, Option.some.injEq]
    constructor
    · rintro rfl
      exact ⟨[], .nothing, rfl⟩
    · rintro ⟨ns, h, rfl⟩
      cases h with
      | nothing => rfl
      | some h => exact absurd ((groupsText_iff [] ns).mp h).1 (by decide)
  · simp only [if_neg hnil]
    by_cases hall : (text.splitOn ':').all isGroup = true
    · rw [if_pos hall, Option.some.injEq]
      constructor
      · rintro rfl
        exact ⟨_, .some ((groupsText_iff text _).mpr ⟨hall, rfl⟩), by rw [List.length_map]⟩
      · rintro ⟨ns, h, rfl⟩
        cases h with
        | nothing => exact absurd rfl hnil
        | some h => rw [((groupsText_iff text ns).mp h).2, List.length_map]
    · rw [if_neg hall]
      simp only [Bool.false_and, Bool.false_eq_true, if_false, reduceCtorEq, false_iff]
      rintro ⟨ns, h, -⟩
      cases h with
      | nothing => exact absurd rfl hnil
      | some h => exact hall ((groupsText_iff text ns).mp h).1

theorem countGroups_true_iff (text : Text) (n : ℕ) : countGroups true text = some n ↔
    ∃ ns, OrNothing TailText text ns ∧ ns.length = n := by
  by_cases hnil : text = []
  · subst hnil
    have hcount : countGroups true [] = some 0 := rfl
    rw [hcount, Option.some.injEq]
    constructor
    · rintro rfl
      exact ⟨[], .nothing, rfl⟩
    · rintro ⟨ns, h, rfl⟩
      cases h with
      | nothing => rfl
      | some h => exact absurd rfl (TailText.ne_nil h)
  obtain ⟨init, last, hsplit⟩ : ∃ init last, text.splitOn ':' = init ++ [last] :=
    ⟨_, _, (List.dropLast_append_getLast (List.splitOn_ne_nil ':' text)).symm⟩
  unfold countGroups
  simp only [if_neg hnil, hsplit, List.dropLast_concat, List.getLast?_concat, Option.map_some,
    Option.getD_some, Bool.true_and]
  constructor
  · intro h
    split_ifs at h with hall hquad
    · rw [← hsplit] at hall
      refine ⟨_, .some (.groups ((groupsText_iff text _).mpr ⟨hall, rfl⟩)), ?_⟩
      rw [List.length_map, hsplit]
      exact Option.some.inj h
    · rw [Bool.and_eq_true] at hquad
      obtain ⟨octets, hoctets⟩ := (isIPv4_iff last).mp hquad.2
      refine ⟨_, .some ((tailText_iff text _).mpr
        (.inr ⟨init, last, octets, hsplit, hquad.1, hoctets, rfl⟩)), ?_⟩
      have hlen := Option.some.inj h
      rw [List.length_append, List.length_singleton] at hlen
      rw [List.length_append, List.length_map, length_quadGroups hoctets.length_eq]
      exact hlen
  · rintro ⟨ns, h, rfl⟩
    cases h with
    | nothing => exact absurd rfl hnil
    | some h =>
      rcases (tailText_iff text ns).mp h with
        hgroups | ⟨init', quad, octets, hsplit', hall, hquad, rfl⟩
      · rw [groupsText_iff, hsplit] at hgroups
        rw [if_pos hgroups.1, hgroups.2, List.length_map]
      · obtain ⟨rfl, hlast⟩ := List.append_inj' (hsplit.symm.trans hsplit') rfl
        obtain rfl := (List.cons.inj hlast).1
        have hnot : (init ++ [last]).all isGroup = false := by
          rw [List.all_append, List.all_cons, not_isGroup_quad hquad]
          simp
        have hlast : (init.all isGroup && isIPv4 last) = true := by
          rw [hall, (isIPv4_iff last).mpr ⟨octets, hquad⟩]
          rfl
        rw [hnot, if_neg Bool.false_ne_true, if_pos hlast, List.length_append, List.length_append,
          List.length_map, length_quadGroups hquad.length_eq]
        rfl

/-! ### Addresses that `node:net` accepts -/

theorem splitDoubleColon_full (h : TailText text ns) : splitDoubleColon text = [text] := by
  obtain ⟨parts, hne, rfl, hparts⟩ := TailText.exists_parts h
  have hsplit := splitDoubleColon_parts hne hparts []
  simpa [splitDoubleColon] using hsplit

/-- The halves of an address around `::`. -/
theorem splitDoubleColon_compressed {left right : Text} {ls rs : List ℕ}
    (hl : OrNothing GroupsText left ls) (hr : OrNothing TailText right rs) :
    splitDoubleColon (left ++ ':' :: ':' :: right) = [left, right] := by
  have hright : splitDoubleColon right = [right] := by
    cases hr with
    | nothing => rfl
    | some hr => exact splitDoubleColon_full hr
  have hcolons : splitDoubleColon (':' :: ':' :: right) = [[], right] := by
    rw [splitDoubleColon, hright]
  cases hl with
  | nothing => exact hcolons
  | some hl =>
    obtain ⟨parts, hne, rfl, hparts⟩ := GroupsText.exists_parts hl
    rw [splitDoubleColon_parts hne hparts, hcolons]
    simp

/-- **`isIPv6` accepts what the grammar derives.** -/
theorem isIPv6_iff (text : Text) : isIPv6 text = true ↔ ∃ ns, AddressText text ns := by
  unfold isIPv6
  constructor
  · intro h
    have hjoin := intercalate_splitDoubleColon text
    split at h
    · rename_i whole hsplit
      rw [hsplit] at hjoin
      obtain rfl : whole = text := by simpa [List.intercalate] using hjoin
      rw [decide_eq_true_eq, countGroups_true_iff] at h
      obtain ⟨ns, htail, hlen⟩ := h
      cases htail with
      | nothing => cases hlen
      | some htail => exact ⟨ns, .full htail hlen⟩
    · rename_i left right hsplit
      rw [hsplit] at hjoin
      obtain rfl : left ++ ':' :: ':' :: right = text := by simpa [List.intercalate] using hjoin
      split at h
      · rename_i l r hl hr
        rw [decide_eq_true_eq] at h
        obtain ⟨ls, hls, rfl⟩ := (countGroups_false_iff left l).mp hl
        obtain ⟨rs, hrs, rfl⟩ := (countGroups_true_iff right r).mp hr
        exact ⟨_, .compressed hls hrs h⟩
      · cases h
    · cases h
  · rintro ⟨ns, h⟩
    cases h with
    | full htail hlen =>
      rw [splitDoubleColon_full htail]
      exact decide_eq_true ((countGroups_true_iff text 8).mpr ⟨ns, .some htail, hlen⟩)
    | compressed hl hr hlen =>
      rw [splitDoubleColon_compressed hl hr]
      dsimp only
      rw [(countGroups_false_iff _ _).mpr ⟨_, hl, rfl⟩, (countGroups_true_iff _ _).mpr ⟨_, hr, rfl⟩]
      exact decide_eq_true hlen

/-! ### Numbers in hexadecimal digits -/

theorem parseHex_concat (text : Text) (c : Char) :
    parseHex (text ++ [c]) = parseHex text * 16 + hexDigitValue c := by
  rw [parseHex, List.foldl_append]
  rfl

theorem hexDigit_digitChar {d : ℕ} (h : d < 16) :
    isHexDigit d.digitChar = true ∧ hexDigitValue d.digitChar = d := by
  have hall : ∀ d : Fin 16,
      isHexDigit d.val.digitChar = true ∧ hexDigitValue d.val.digitChar = d := by
    decide
  exact hall ⟨d, h⟩

theorem toDigits_hex (n : ℕ) : (Nat.toDigits 16 n).all isHexDigit = true ∧
    parseHex (Nat.toDigits 16 n) = n := by
  induction n using Nat.strongRecOn with
  | ind n ih =>
    rw [Nat.toDigits_eq_if (by decide)]
    split_ifs with hlt
    · obtain ⟨hdigit, hvalue⟩ := hexDigit_digitChar hlt
      exact ⟨by simp [hdigit], by simp [parseHex, hvalue]⟩
    · obtain ⟨hall, hparse⟩ := ih (n / 16) (by omega)
      obtain ⟨hdigit, hvalue⟩ := hexDigit_digitChar (Nat.mod_lt n (by decide : 0 < 16))
      rw [List.all_append, hall, parseHex_concat, hparse, hvalue]
      exact ⟨by simp [hdigit], by omega⟩

theorem groupText_toDigits {n : ℕ} (h : n < 65536) : GroupText (Nat.toDigits 16 n) n := by
  obtain ⟨hall, hparse⟩ := toDigits_hex n
  rw [groupText_iff]
  refine ⟨?_, hparse.symm⟩
  have hlen : (Nat.toDigits 16 n).length ≤ 4 :=
    (Nat.length_toDigits_le_iff (by decide) (by decide)).mpr h
  simp only [isGroup, Bool.and_eq_true, decide_eq_true_eq]
  exact ⟨⟨Nat.toDigits_ne_nil, hlen⟩, hall⟩

/-! ### The dotted quad of an address -/

/-- The text is empty, or a colon is its last character. -/
def EndsPart (text : Text) : Prop := text = [] ∨ text.getLast? = some ':'

theorem endsPart_append {a b : Text} (ha : EndsPart a) (hb : EndsPart b) : EndsPart (a ++ b) := by
  rcases hb with rfl | hb
  · rw [List.append_nil]
    exact ha
  · exact .inr (by rw [List.getLast?_append, hb]; rfl)

theorem splitLastColon_append {start last : Text} (hstart : EndsPart start) (hlast : ':' ∉ last) :
    splitLastColon (start ++ last) = (start, last) := by
  have hall : ∀ c ∈ last.reverse, decide (c ≠ ':') = true := by
    intro c hc
    rw [decide_eq_true_eq]
    rintro rfl
    exact hlast (List.mem_reverse.mp hc)
  have hhead : start.reverse.dropWhile (fun c => decide (c ≠ ':')) = start.reverse ∧
      start.reverse.takeWhile (fun c => decide (c ≠ ':')) = [] := by
    rcases hstart with rfl | hstart
    · exact ⟨rfl, rfl⟩
    · rw [← List.head?_reverse] at hstart
      obtain ⟨rest, hrest⟩ := List.head?_eq_some_iff.mp hstart
      rw [hrest]
      simp
  rw [splitLastColon, List.rdropWhile, List.rtakeWhile, List.reverse_append,
    List.dropWhile_append_of_pos hall, List.takeWhile_append_of_pos hall, hhead.1, hhead.2]
  simp

theorem TailText.exists_last (h : TailText text ns) :
    ∃ start last, text = start ++ last ∧ EndsPart start ∧ ':' ∉ last ∧
      (('.' ∉ last ∧ GroupsText text ns) ∨ ∃ octets, QuadText last octets ∧
        ((start = [] ∧ ns = quadGroups octets) ∨ ∃ groups ms, start = groups ++ [':'] ∧
          GroupsText groups ms ∧ ns = ms ++ quadGroups octets)) := by
  cases h with
  | groups h =>
    obtain ⟨parts, hne, htext, hparts⟩ := id h
    rw [forall₂_iff_map groupText_iff] at hparts
    obtain ⟨init, last, rfl⟩ : ∃ init last, parts = init ++ [last] :=
      ⟨_, _, (List.dropLast_append_getLast hne).symm⟩
    have hlast := isGroup_all (List.all_eq_true.mp hparts.1 last (by simp))
    have hchars := And.intro (not_mem_of_isHexDigit hlast (c := ':') (by decide))
      (not_mem_of_isHexDigit hlast (c := '.') (by decide))
    by_cases hinit : init = []
    · subst hinit
      have hself : text = last := by rw [htext]; simp [List.intercalate]
      exact ⟨[], last, hself, .inl rfl, hchars.1, .inl ⟨hchars.2, h⟩⟩
    · rw [intercalate_append ':' hinit (List.cons_ne_nil _ _)] at htext
      refine ⟨[':'].intercalate init ++ [':'], last, ?_, .inr (by simp), hchars.1,
        .inl ⟨hchars.2, h⟩⟩
      rw [htext]
      simp [List.intercalate]
  | @quad _ octets h =>
    exact ⟨[], text, rfl, .inl rfl, (quad_part h).2, .inr ⟨octets, h, .inl ⟨rfl, rfl⟩⟩⟩
  | @groupsQuad groups quad ms octets hgroups hquad =>
    exact ⟨groups ++ [':'], quad, by simp, .inr (by simp), (quad_part hquad).2,
      .inr ⟨octets, hquad, .inr ⟨groups, ms, rfl, hgroups, rfl⟩⟩⟩

/-- A dotted quad is rewritten into two groups, and an address without one stays as it is. -/
theorem rewriteEmbedded_tail {start text : Text} (hstart : EndsPart start) (h : TailText text ns) :
    ∃ plain, rewriteEmbedded (start ++ text) = some (start ++ plain) ∧ GroupsText plain ns := by
  obtain ⟨before, last, rfl, hbefore, hlast, hcases⟩ := TailText.exists_last h
  unfold rewriteEmbedded
  rw [← List.append_assoc, splitLastColon_append (endsPart_append hstart hbefore) hlast]
  dsimp only
  rcases hcases with ⟨hdot, hgroups⟩ | ⟨octets, hquad, hns⟩
  · rw [if_neg hdot]
    exact ⟨before ++ last, by rw [List.append_assoc], hgroups⟩
  · obtain ⟨a, b, c, d, rfl⟩ : ∃ a b c d, octets = [a, b, c, d] := by
      match octets, hquad.length_eq with
      | [a, b, c, d], _ => exact ⟨a, b, c, d, rfl⟩
    have hlt := hquad.lt
    simp only [List.forall_mem_cons] at hlt
    have hpair : GroupsText (Nat.toDigits 16 (a * 256 + b) ++ ':' :: Nat.toDigits 16 (c * 256 + d))
        [a * 256 + b, c * 256 + d] :=
      (groupText_toDigits (by omega)).groupsText.append (groupText_toDigits (by omega)).groupsText
    rw [if_pos (quad_dot hquad), (quadText_iff _ _).mp hquad]
    refine ⟨before ++ (Nat.toDigits 16 (a * 256 + b) ++ ':' :: Nat.toDigits 16 (c * 256 + d)),
      by simp, ?_⟩
    rcases hns with ⟨rfl, rfl⟩ | ⟨groups, ms, rfl, hgroups, rfl⟩
    · exact hpair
    · have := hgroups.append hpair
      simpa [quadGroups] using this

/-! ### The bytes of an address -/

theorem lt_of_groupText {n : ℕ} (h : GroupText text n) : n < 65536 := by
  obtain ⟨digits, hdigits, -, hlen, rfl⟩ := h
  rw [hdigits.length_eq] at hlen
  have hlt : ∀ d ∈ digits, d < 16 := by
    intro d hd
    obtain ⟨i, hi, rfl⟩ := List.getElem_of_mem hd
    exact (hdigits.get (by rw [hdigits.length_eq]; exact hi) hi).lt
  match digits, hlen, hlt with
  | [], _, _ => simp
  | [a], _, hlt =>
    simp only [List.forall_mem_cons] at hlt
    simp only [List.foldl_cons, List.foldl_nil]
    omega
  | [a, b], _, hlt =>
    simp only [List.forall_mem_cons] at hlt
    simp only [List.foldl_cons, List.foldl_nil]
    omega
  | [a, b, c], _, hlt =>
    simp only [List.forall_mem_cons] at hlt
    simp only [List.foldl_cons, List.foldl_nil]
    omega
  | [a, b, c, d], _, hlt =>
    simp only [List.forall_mem_cons] at hlt
    simp only [List.foldl_cons, List.foldl_nil]
    omega
  | _ :: _ :: _ :: _ :: _ :: _, hlen, _ =>
    simp only [List.length_cons] at hlen
    omega

/-- `split(':')` of a half of an address, of which an empty one has no part. -/
def halfGroups (text : Text) : List Text := if text = [] then [] else text.splitOn ':'

theorem halfGroups_of_groups (h : OrNothing GroupsText text ns) :
    (halfGroups text).all isGroup = true ∧ (halfGroups text).map parseHex = ns := by
  unfold halfGroups
  cases h with
  | nothing => exact ⟨rfl, rfl⟩
  | some h =>
    rw [if_neg (TailText.ne_nil (.groups h))]
    obtain ⟨hall, hns⟩ := (groupsText_iff text ns).mp h
    exact ⟨hall, hns.symm⟩

/-- A text that `expandGroups` splits into these groups. -/
def Expands (text : Text) (ns : List ℕ) : Prop :=
  ∃ groups, expandGroups text = some groups ∧ groups.all isGroup = true ∧ groups.map parseHex = ns

theorem expands_full (h : GroupsText text ns) : Expands text ns := by
  obtain ⟨hall, hns⟩ := (groupsText_iff text ns).mp h
  refine ⟨text.splitOn ':', ?_, hall, hns.symm⟩
  rw [expandGroups, splitDoubleColon_full (.groups h)]

theorem orNothing_tail (h : OrNothing GroupsText text ns) : OrNothing TailText text ns := by
  cases h with
  | nothing => exact .nothing
  | some h => exact .some (.groups h)

theorem expands_compressed {left right : Text} {ls rs : List ℕ}
    (hl : OrNothing GroupsText left ls) (hr : OrNothing GroupsText right rs)
    (hlen : ls.length + rs.length ≤ 7) :
    Expands (left ++ ':' :: ':' :: right)
      (ls ++ List.replicate (8 - ls.length - rs.length) 0 ++ rs) := by
  obtain ⟨hlall, rfl⟩ := halfGroups_of_groups hl
  obtain ⟨hrall, rfl⟩ := halfGroups_of_groups hr
  rw [List.length_map, List.length_map] at hlen ⊢
  have hlength : (halfGroups left).length + (halfGroups right).length + 1 ≤ 8 := by omega
  refine ⟨halfGroups left ++
    List.replicate (8 - (halfGroups left).length - (halfGroups right).length) ['0'] ++
    halfGroups right, ?_, ?_, ?_⟩
  · rw [expandGroups, splitDoubleColon_compressed hl (orNothing_tail hr)]
    exact if_pos hlength
  · have hzero : isGroup ['0'] = true := by decide
    rw [List.all_append, List.all_append, hlall, hrall, List.all_eq_true.mpr]
    · rfl
    · intro group hgroup
      rw [List.eq_of_mem_replicate hgroup, hzero]
  · have hzero : parseHex ['0'] = 0 := by decide
    rw [List.map_append, List.map_append, List.map_replicate, hzero]

theorem AddressText.exists_plain (h : AddressText text ns) :
    ∃ plain, rewriteEmbedded text = some plain ∧ Expands plain ns := by
  cases h with
  | full htail hlen =>
    obtain ⟨plain, hrewrite, hgroups⟩ := rewriteEmbedded_tail (.inl rfl) htail
    exact ⟨plain, hrewrite, expands_full hgroups⟩
  | @compressed left right ls rs hl hr hlen =>
    have hstart : EndsPart (left ++ [':', ':']) := .inr (by simp)
    have hsplit : left ++ ':' :: ':' :: right = (left ++ [':', ':']) ++ right := by simp
    rw [hsplit]
    cases hr with
    | nothing =>
      refine ⟨left ++ ':' :: ':' :: [], ?_, expands_compressed hl .nothing hlen⟩
      unfold rewriteEmbedded
      rw [splitLastColon_append hstart List.not_mem_nil]
      simp
    | some htail =>
      obtain ⟨plain, hrewrite, hgroups⟩ := rewriteEmbedded_tail hstart htail
      refine ⟨left ++ ':' :: ':' :: plain, ?_, expands_compressed hl (.some hgroups) hlen⟩
      rw [hrewrite]
      simp

theorem AddressText.length_eq (h : AddressText text ns) : ns.length = 8 := by
  cases h with
  | full _ hlen => exact hlen
  | compressed _ _ hlen =>
    rw [List.length_append, List.length_append, List.length_replicate]
    omega

theorem AddressText.lt (h : AddressText text ns) : ∀ n ∈ ns, n < 65536 := by
  obtain ⟨plain, -, groups, -, hall, rfl⟩ := AddressText.exists_plain h
  intro n hn
  obtain ⟨group, hgroup, rfl⟩ := List.mem_map.mp hn
  exact lt_of_groupText
    ((groupText_iff group _).mpr ⟨List.all_eq_true.mp hall group hgroup, rfl⟩)

/-- **`parseIpv6Bytes` reads the groups that the grammar assigns**, before a zone. -/
theorem parseIpv6Bytes_of_addressText (h : AddressText text ns) {input : Text}
    (hinput : input.takeWhile (· ≠ '%') = text) :
    parseIpv6Bytes input = some (ns.flatMap groupBytes) := by
  obtain ⟨plain, hrewrite, groups, hexpand, hall, hns⟩ := AddressText.exists_plain h
  have hlen : groups.length = 8 := by
    rw [← AddressText.length_eq h, ← hns, List.length_map]
  have hbytes : groups.flatMap (fun group => [parseHex group / 256 % 256, parseHex group % 256]) =
      ns.flatMap groupBytes := by
    rw [← hns, List.flatMap_map]
    refine List.flatMap_congr fun group hgroup => ?_
    have hlt := AddressText.lt h (parseHex group) (by
      rw [← hns]
      exact List.mem_map_of_mem hgroup)
    rw [groupBytes, Nat.mod_eq_of_lt (by omega)]
  rw [parseIpv6Bytes, hinput, hrewrite]
  simp only [Option.bind_eq_bind, Option.bind_some, hexpand, hlen, hall, hbytes, ne_eq,
    not_true_eq_false, if_false, if_true]

/-! ### What `parseClientIp` reads -/

/-- `text.split('%')[0]`. -/
def zoneless (text : Text) : Text := text.takeWhile (· ≠ '%')

/-- The address that a text writes, whatever zone it names. -/
inductive Spells (text : Text) : Address → Prop
  | v4 (address : Ipv4) : QuadText text address.octets → Spells text (.v4 address)
  | v6 (address : Ipv6) : AddressText (zoneless text) address.groups → Spells text (.v6 address)

/-- The bytes of an address, with its family. -/
def parsedOf : Address → ParsedIp
  | .v4 address => ⟨.v4, address.octets⟩
  | .v6 address => ⟨.v6, address.bytes⟩

theorem exists_spells_v4_iff (text : Text) :
    (∃ address, Spells text (.v4 address)) ↔ isIPv4 text = true := by
  rw [isIPv4_iff]
  constructor
  · rintro ⟨address, h⟩
    cases h with
    | v4 _ h => exact ⟨_, h⟩
  · rintro ⟨octets, h⟩
    exact ⟨⟨octets, h.length_eq, h.lt⟩, .v4 _ h⟩

theorem exists_spells_v6_iff (text : Text) :
    (∃ address, Spells text (.v6 address)) ↔ isIPv6 (zoneless text) = true := by
  rw [isIPv6_iff]
  constructor
  · rintro ⟨address, h⟩
    cases h with
    | v6 _ h => exact ⟨_, h⟩
  · rintro ⟨ns, h⟩
    exact ⟨⟨ns, AddressText.length_eq h, AddressText.lt h⟩, .v6 _ h⟩

theorem AddressText.colon_mem (h : AddressText text ns) : ':' ∈ text := by
  cases h with
  | full htail hlen =>
    by_contra hcolon
    have hsplit : text.splitOn ':' = [text] := List.splitOn_eq_singleton hcolon
    rcases (tailText_iff text ns).mp htail with hgroups | ⟨init, quad, octets, hinit, -, hquad, rfl⟩
    · rw [groupsText_iff, hsplit] at hgroups
      rw [hgroups.2] at hlen
      cases hlen
    · rw [hsplit] at hinit
      have hnil := congrArg List.length hinit
      rw [List.length_append, List.length_singleton, List.length_singleton] at hnil
      rw [List.length_append, List.length_map, length_quadGroups hquad.length_eq] at hlen
      omega
  | compressed => simp

theorem parseIpv4Bytes_of_addressText (h : AddressText (zoneless text) ns) :
    parseIpv4Bytes text = none := by
  rcases hquad : parseIpv4Bytes text with _ | octets
  · rfl
  · have hcolon := (List.takeWhile_sublist _).subset (AddressText.colon_mem h)
    exact absurd hcolon (quad_part ((quadText_iff text octets).mpr hquad)).2

theorem Spells.ne_nil {address : Address} (h : Spells text address) : text ≠ [] := by
  rintro rfl
  cases h with
  | v4 _ h => exact quad_ne_nil h rfl
  | v6 _ h => exact absurd (AddressText.colon_mem h) List.not_mem_nil

theorem Spells.unique {a b : Address} (ha : Spells text a) (hb : Spells text b) : a = b := by
  cases ha with
  | v4 a ha =>
    rw [quadText_iff] at ha
    cases hb with
    | v4 b hb =>
      rw [quadText_iff, ha] at hb
      obtain ⟨octets, _, _⟩ := a
      obtain ⟨octets', _, _⟩ := b
      obtain rfl : octets = octets' := Option.some.inj hb
      rfl
    | v6 b hb =>
      rw [parseIpv4Bytes_of_addressText hb] at ha
      cases ha
  | v6 a ha =>
    cases hb with
    | v4 b hb =>
      rw [quadText_iff, parseIpv4Bytes_of_addressText ha] at hb
      cases hb
    | v6 b hb =>
      have hbytes := parseIpv6Bytes_of_addressText ha rfl
      rw [parseIpv6Bytes_of_addressText hb rfl] at hbytes
      obtain ⟨groups, _, _⟩ := a
      obtain ⟨groups', _, _⟩ := b
      obtain rfl := IpText.flatMap_groupBytes_injective (Option.some.inj hbytes)
      rfl

/-- The bytes of an address start as an embedded IPv4 address does if it embeds one. -/
theorem isIpv4Mapped_bytes (address : Ipv6) :
    isIpv4Mapped address.bytes = address.mapped.isSome := by
  obtain ⟨a, b, c, d, e, f, g, h, hgroups⟩ := address.exists_groups
  have hlt := address.group_lt
  rw [hgroups] at hlt
  simp only [List.forall_mem_cons] at hlt
  have hsome : address.mapped.isSome = true ↔
      [a, b, c, d, e, f] = [0, 0, 0, 0, 0, 65535] := by
    unfold Ipv6.mapped
    simp only [hgroups, List.take_succ_cons, List.take_zero]
    split_ifs with hsix
    · simp [hsix]
    · simp [hsix]
  rw [Bool.eq_iff_iff, hsome]
  simp only [isIpv4Mapped, Ipv6.bytes, hgroups]
  simp [groupBytes]
  omega

/-- **`parseClientIp` reads the address that the text writes**, and takes an IPv4 address out of its
embedding. -/
theorem parseClientIp_of_spells {value : Text} {address : Address}
    (h : Spells (stripBrackets value) address) :
    parseClientIp value = some (parsedOf address.unmap) := by
  unfold parseClientIp
  simp only [if_neg h.ne_nil]
  cases h with
  | v4 address h =>
    rw [(quadText_iff _ _).mp h]
    rfl
  | v6 address h =>
    have haccept : isIPv6 ((stripBrackets value).takeWhile (· ≠ '%')) = true :=
      (isIPv6_iff _).mpr ⟨_, h⟩
    rw [parseIpv4Bytes_of_addressText h]
    simp only [haccept, if_true, parseIpv6Bytes_of_addressText h rfl]
    have hmapped := isIpv4Mapped_bytes address
    rw [Ipv6.bytes] at hmapped
    rw [hmapped, Address.unmap]
    rcases hembedded : address.mapped with _ | embedded
    · rfl
    · have hoctets := Ipv6.mapped_octets hembedded
      rw [Ipv6.bytes] at hoctets
      simp only [Option.isSome_some, if_true, Option.map_some, Option.getD_some, parsedOf, hoctets]

theorem parseClientIp_eq_none_iff (value : Text) : parseClientIp value = none ↔
    isIPv4 (stripBrackets value) = false ∧ isIPv6 (zoneless (stripBrackets value)) = false := by
  constructor
  · intro h
    constructor
    · by_contra hv4
      obtain ⟨address, hspells⟩ := (exists_spells_v4_iff _).mpr (Bool.not_eq_false _ ▸ hv4)
      rw [parseClientIp_of_spells hspells] at h
      cases h
    · by_contra hv6
      obtain ⟨address, hspells⟩ := (exists_spells_v6_iff _).mpr (Bool.not_eq_false _ ▸ hv6)
      rw [parseClientIp_of_spells hspells] at h
      cases h
  · rintro ⟨hv4, hv6⟩
    unfold parseClientIp
    have hbytes : parseIpv4Bytes (stripBrackets value) = none := by
      rw [parseIpv4Bytes, hv4]
      rfl
    rw [zoneless] at hv6
    simp only [hbytes, hv6, Bool.false_eq_true, if_false, ite_self]

end BackendFoundation.Http.Addresses
