import BackendFoundation.Http.Addresses

/-! # Buckets of addresses

`clientIpKey` gives one bucket to one IPv4 address, embedded in IPv6 or not, and one to a /64 of
IPv6; what is no address goes to a bucket of its own (`clientIp_canonical`). -/

namespace BackendFoundation.Http.Buckets

open Lib.IpText (Ipv4 Ipv6 Address QuadText GroupsText TailText OrNothing
  AddressText groupBytes mem_of_mem_intercalate forall₂_iff_map)
open Http.ClientIp Http.Addresses

/-! ### Texts that `net.isIP` accepts -/

def isZoneChar (c : Char) : Bool := c.isAlphanum || c ∈ ['-', '.', ':']

/-- The text from its first `%` on is missing or a zone. -/
def hasZone (text : Text) : Bool :=
  match text.dropWhile (· ≠ '%') with
  | [] => true
  | _ :: zone => zone ≠ [] && zone.all isZoneChar

/-- `net.isIP` of `node:net`. -/
def netIsIP (text : Text) : ℕ :=
  if isIPv4 text then 4
  else if isIPv6 (zoneless text) && hasZone text then 6
  else 0

def bracketed (text : Text) : Text := '[' :: (text ++ [']'])

def isAddressChar (c : Char) : Bool := c.isAlphanum || c ∈ ['-', '.', ':', '%']

variable {c : Char}

theorem forall_ascii {p : Char → Prop} (h : ∀ n : Fin 128, p (Char.ofNat n)) (hc : c.toNat < 128) :
    p c := by
  have hchar := h ⟨c.toNat, hc⟩
  rwa [Char.ofNat_toNat] at hchar

theorem ascii_of_isAlphanum (h : c.isAlphanum = true) : c.toNat < 128 := by
  change (decide (65 ≤ c.val ∧ c.val ≤ 90) || decide (97 ≤ c.val) && decide (c.val ≤ 122) ||
    decide (48 ≤ c.val) && decide (c.val ≤ 57)) = true at h
  simp only [Bool.or_eq_true, Bool.and_eq_true, decide_eq_true_eq] at h
  have hle : c.val ≤ 122 := by
    rcases h with (⟨-, h⟩ | ⟨-, h⟩) | ⟨-, h⟩
    · exact UInt32.le_trans h (by decide)
    · exact h
    · exact UInt32.le_trans h (by decide)
  exact Nat.lt_of_le_of_lt (UInt32.le_iff_toNat_le.mp hle) (by decide)

theorem isAddressChar_plain (h : isAddressChar c = true) :
    isWhiteSpace c = false ∧ c ≠ '[' ∧ c ≠ ']' := by
  have hascii : c.toNat < 128 := by
    rw [isAddressChar, Bool.or_eq_true, decide_eq_true_eq] at h
    rcases h with h | h
    · exact ascii_of_isAlphanum h
    · simp only [List.mem_cons, List.not_mem_nil, or_false] at h
      rcases h with rfl | rfl | rfl | rfl <;> decide
  revert h
  exact forall_ascii (p := fun c => isAddressChar c = true →
    isWhiteSpace c = false ∧ c ≠ '[' ∧ c ≠ ']') (by decide) hascii

variable {text : Text}

theorem trim_eq_self (h : ∀ c ∈ text, isWhiteSpace c = false) : trim text = text := by
  have hdrop : text.dropWhile isWhiteSpace = text := by
    rw [List.dropWhile_eq_self_iff]
    intro hpos
    rw [h _ (List.getElem_mem hpos)]
    exact Bool.false_ne_true
  rw [trim, hdrop, List.rdropWhile_eq_self_iff]
  intro hne
  rw [h _ (List.getLast_mem hne)]
  exact Bool.false_ne_true

/-- Trimming and bracket removal leave the text of an address, and take it out of brackets. -/
theorem stripBrackets_of_chars (h : ∀ c ∈ text, isAddressChar c = true) :
    stripBrackets text = text ∧ stripBrackets (bracketed text) = text := by
  have hplain := fun c hc => isAddressChar_plain (h c hc)
  have hfirst : text.head? ≠ some '[' := fun hhead =>
    (hplain '[' (List.mem_of_mem_head? hhead)).2.1 rfl
  have hlast : text.getLast? ≠ some ']' := fun hlast =>
    (hplain ']' (List.mem_of_mem_getLast? hlast)).2.2 rfl
  have htrim : trim text = text := trim_eq_self fun c hc => (hplain c hc).1
  have hbracketed : trim (bracketed text) = bracketed text := by
    refine trim_eq_self fun c hc => ?_
    rw [bracketed, List.mem_cons, List.mem_append, List.mem_singleton] at hc
    rcases hc with rfl | hc | rfl
    · decide
    · exact (hplain c hc).1
    · decide
  constructor
  · rw [stripBrackets, htrim]
    simp only [if_neg hfirst, if_neg hlast]
  · rw [stripBrackets, hbracketed]
    simp [bracketed]

/-! ### The characters of an address -/

theorem isAddressChar_of_isHexDigit (h : isHexDigit c = true) : isAddressChar c = true := by
  have hascii : c.toNat < 128 := by
    rw [isHexDigit_iff] at h
    omega
  revert h
  exact forall_ascii (p := fun c => isHexDigit c = true → isAddressChar c = true) (by decide) hascii

theorem group_chars {ns : List ℕ} (h : GroupsText text ns) (hc : c ∈ text) :
    isHexDigit c = true ∨ c = ':' := by
  obtain ⟨parts, -, rfl, hparts⟩ := h
  rw [forall₂_iff_map groupText_iff] at hparts
  rcases mem_of_mem_intercalate hc with hsep | ⟨part, hpart, hcpart⟩
  · exact .inr hsep
  · have hgroup := isGroup_all (List.all_eq_true.mp hparts.1 part hpart)
    exact .inl (List.all_eq_true.mp hgroup c hcpart)

theorem quad_chars {octets : List ℕ} (h : QuadText text octets) (hc : c ∈ text) :
    isHexDigit c = true ∨ c = '.' := by
  by_contra hnot
  rw [not_or] at hnot
  exact quad_not_mem h (Bool.eq_false_iff.mpr hnot.1) hnot.2 hc

theorem tail_chars {ns : List ℕ} (h : TailText text ns) (hc : c ∈ text) :
    isHexDigit c = true ∨ c = ':' ∨ c = '.' := by
  cases h with
  | groups h =>
    rcases group_chars h hc with hhex | hcolon
    · exact .inl hhex
    · exact .inr (.inl hcolon)
  | quad h =>
    rcases quad_chars h hc with hhex | hdot
    · exact .inl hhex
    · exact .inr (.inr hdot)
  | groupsQuad hgroups hquad =>
    rcases List.mem_append.mp hc with hc | hc
    · rcases group_chars hgroups hc with hhex | hcolon
      · exact .inl hhex
      · exact .inr (.inl hcolon)
    · rcases List.mem_cons.mp hc with hcolon | hc
      · exact .inr (.inl hcolon)
      · rcases quad_chars hquad hc with hhex | hdot
        · exact .inl hhex
        · exact .inr (.inr hdot)

theorem address_chars {ns : List ℕ} (h : AddressText text ns) (hc : c ∈ text) :
    isHexDigit c = true ∨ c = ':' ∨ c = '.' := by
  cases h with
  | full h _ => exact tail_chars h hc
  | compressed hl hr _ =>
    rcases List.mem_append.mp hc with hc | hc
    · cases hl with
      | nothing => cases hc
      | some hl => exact tail_chars (.groups hl) hc
    · rcases List.mem_cons.mp hc with hcolon | hc
      · exact .inr (.inl hcolon)
      rcases List.mem_cons.mp hc with hcolon | hc
      · exact .inr (.inl hcolon)
      · cases hr with
        | nothing => cases hc
        | some hr => exact tail_chars hr hc

/-- A text that `net.isIP` accepts consists of characters of addresses. -/
theorem chars_of_netIsIP (h : netIsIP text ≠ 0) :
    (∀ c ∈ text, isAddressChar c = true) ∧ ∃ address, Spells text address := by
  unfold netIsIP at h
  split_ifs at h with hv4 hv6
  · obtain ⟨address, hspells⟩ := (exists_spells_v4_iff text).mpr hv4
    refine ⟨fun c hc => ?_, _, hspells⟩
    cases hspells with
    | v4 _ hquad =>
      rcases quad_chars hquad hc with hhex | rfl
      · exact isAddressChar_of_isHexDigit hhex
      · decide
  · rw [Bool.and_eq_true] at hv6
    obtain ⟨address, hspells⟩ := (exists_spells_v6_iff text).mpr hv6.1
    refine ⟨fun c hc => ?_, _, hspells⟩
    cases hspells with
    | v6 _ haddress =>
      have hsplit : text = zoneless text ++ text.dropWhile (· ≠ '%') :=
        (List.takeWhile_append_dropWhile).symm
      rw [hsplit, List.mem_append] at hc
      rcases hc with hc | hc
      · rcases address_chars haddress hc with hhex | rfl | rfl
        · exact isAddressChar_of_isHexDigit hhex
        · decide
        · decide
      · have hzone := hv6.2
        have hfirst := List.head?_dropWhile_not (fun c : Char => decide (c ≠ '%')) text
        unfold hasZone at hzone
        rcases hdrop : text.dropWhile (fun c => decide (c ≠ '%')) with _ | ⟨first, zone⟩
        · rw [hdrop] at hc
          cases hc
        · rw [hdrop] at hc hzone hfirst
          rcases List.mem_cons.mp hc with rfl | hc
          · rw [show c = '%' by simpa using hfirst]
            decide
          · rw [Bool.and_eq_true] at hzone
            have := List.all_eq_true.mp hzone.2 c hc
            simp only [isZoneChar, isAddressChar, Bool.or_eq_true, decide_eq_true_eq,
              List.mem_cons, List.not_mem_nil, or_false] at this ⊢
            tauto
  · exact absurd rfl h

/-! ### Keys -/

/-- Addresses of one bucket: one IPv4 address, or one /64. -/
def SameBucket (a b : Address) : Prop :=
  match a.unmap, b.unmap with
  | .v4 x, .v4 y => x = y
  | .v6 x, .v6 y => x.groups.take 4 = y.groups.take 4
  | _, _ => False

/-- The key of an address that is no embedding. -/
def keyOf : Address → Text
  | .v4 address => "ip4:".toList ++ ['.'].intercalate (address.octets.map (Nat.toDigits 10))
  | .v6 address =>
    "ip6:".toList ++ [':'].intercalate ((address.groups.take 4).map (Nat.toDigits 16))

theorem hextets_bytes (address : Ipv6) : hextets address.bytes (IPV6_BUCKET_BITS / 8) =
    [':'].intercalate ((address.groups.take 4).map (Nat.toDigits 16)) := by
  obtain ⟨a, b, c, d, e, f, g, h, hgroups⟩ := address.exists_groups
  have hindices : List.range' 0 ((IPV6_BUCKET_BITS / 8 + 1) / 2) 2 = [0, 2, 4, 6] := by decide
  rw [hextets, hindices, Ipv6.bytes, hgroups]
  have hword : ∀ n : ℕ, n / 256 * 256 + n % 256 = n := fun n => by omega
  simp [groupBytes, hword]

theorem clientIpKey_of_spells {value : Text} {address : Address}
    (h : Spells (stripBrackets value) address) :
    clientIpKey (some value) = keyOf address.unmap := by
  unfold clientIpKey
  rw [Option.bind_some, parseClientIp_of_spells h]
  rcases address.unmap with v4 | v6
  · rfl
  · exact congrArg ("ip6:".toList ++ ·) (hextets_bytes v6)

theorem toDigits_hex_injective : Function.Injective (Nat.toDigits 16) := by
  intro m n h
  rw [← (toDigits_hex m).2, h, (toDigits_hex n).2]

theorem toDigits_decimal_injective : Function.Injective (Nat.toDigits 10) := by
  intro m n h
  rw [← Nat.ofDigitChars_ten_toDigits (n := m), h, Nat.ofDigitChars_ten_toDigits]

theorem join_digits_injective {base : ℕ} {sep : Char}
    (hinj : Function.Injective (Nat.toDigits base)) (hsep : ∀ n, sep ∉ Nat.toDigits base n)
    {ms ns : List ℕ} (hm : ms ≠ []) (hn : ns ≠ [])
    (h : [sep].intercalate (ms.map (Nat.toDigits base)) =
      [sep].intercalate (ns.map (Nat.toDigits base))) : ms = ns := by
  have hsplit : ∀ {ks : List ℕ}, ks ≠ [] →
      ([sep].intercalate (ks.map (Nat.toDigits base))).splitOn sep =
        ks.map (Nat.toDigits base) := by
    intro ks hks
    refine List.splitOn_intercalate sep (fun text htext => ?_) (by simpa using hks)
    obtain ⟨n, -, rfl⟩ := List.mem_map.mp htext
    exact hsep n
  have hlists := hsplit hm
  rw [h, hsplit hn] at hlists
  exact (List.map_injective_iff.mpr hinj hlists).symm

theorem keyOf_injective_iff (a b : Address) :
    keyOf a.unmap = keyOf b.unmap ↔ SameBucket a b := by
  unfold SameBucket keyOf
  rcases a.unmap with x | x <;> rcases b.unmap with y | y
  · have hne : ∀ z : Ipv4, z.octets ≠ [] := fun z hz => by
      have := z.length_octets
      rw [hz] at this
      cases this
    dsimp only
    rw [List.append_cancel_left_eq]
    constructor
    · intro h
      have hoctets := join_digits_injective toDigits_decimal_injective (fun n hmem => by
        have := Nat.isDigit_of_mem_toDigits (by decide) (by decide) hmem
        cases this) (hne x) (hne y) h
      obtain ⟨octets, _, _⟩ := x
      obtain ⟨octets', _, _⟩ := y
      obtain rfl : octets = octets' := hoctets
      rfl
    · rintro rfl
      rfl
  · simp
  · simp
  · have hne : ∀ z : Ipv6, z.groups.take 4 ≠ [] := fun z hz => by
      have := congrArg List.length hz
      rw [List.length_take, z.length_groups] at this
      cases this
    dsimp only
    rw [List.append_cancel_left_eq]
    constructor
    · intro h
      exact join_digits_injective toDigits_hex_injective (fun n =>
        not_mem_of_isHexDigit (toDigits_hex n).1 (by decide)) (hne x) (hne y) h
    · intro h
      rw [h]

theorem keyOf_ne_unresolved (a : Address) : keyOf a ≠ UNRESOLVED_CLIENT_IP := by
  unfold keyOf UNRESOLVED_CLIENT_IP
  cases a with
  | v4 => simp
  | v6 => simp

/-- **Buckets are canonical.** A text that `net.isIP` accepts, in brackets or not, writes one
address; `parseClientIp` reads the bytes of the address that a text writes, and the keys of two
addresses are equal exactly for addresses of one bucket. Every other text has the key of an
unresolved client, which no address has. -/
theorem clientIp_canonical :
    (∀ text, netIsIP text ≠ 0 → stripBrackets text = text ∧ stripBrackets (bracketed text) = text ∧
      ∃! address, Spells text address) ∧
    (∀ value address, Spells (stripBrackets value) address →
      parseClientIp value = some (parsedOf address.unmap)) ∧
    (∀ value other a b, Spells (stripBrackets value) a → Spells (stripBrackets other) b →
      (clientIpKey (some value) = clientIpKey (some other) ↔ SameBucket a b)) ∧
    (∀ value, isIPv4 (stripBrackets value) = false →
      isIPv6 (zoneless (stripBrackets value)) = false →
      clientIpKey (some value) = UNRESOLVED_CLIENT_IP) ∧
    clientIpKey none = UNRESOLVED_CLIENT_IP ∧
    ∀ value address, Spells (stripBrackets value) address →
      clientIpKey (some value) ≠ UNRESOLVED_CLIENT_IP := by
  refine ⟨fun text htext => ?_, fun value address => parseClientIp_of_spells, ?_, ?_, rfl, ?_⟩
  · obtain ⟨hchars, address, hspells⟩ := chars_of_netIsIP htext
    obtain ⟨hself, hbracketed⟩ := stripBrackets_of_chars hchars
    exact ⟨hself, hbracketed, address, hspells, fun other hother => hother.unique hspells⟩
  · intro value other a b ha hb
    rw [clientIpKey_of_spells ha, clientIpKey_of_spells hb]
    exact keyOf_injective_iff a b
  · intro value hv4 hv6
    have hnone := (parseClientIp_eq_none_iff value).mpr ⟨hv4, hv6⟩
    rw [clientIpKey, Option.bind_some, hnone]
  · intro value address h
    rw [clientIpKey_of_spells h]
    exact keyOf_ne_unresolved _

example : clientIpKey (some "[2001:DB8::0001%eth0]".toList) = "ip6:2001:db8:0:0".toList ∧
    clientIpKey (some "::ffff:203.0.113.7".toList) = "ip4:203.0.113.7".toList := by decide

end BackendFoundation.Http.Buckets
