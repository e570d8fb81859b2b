import BackendFoundation.Http.Buckets
import BackendFoundation.Http.TrustProxy
import BackendFoundation.Lib.BitPrefix

/-! # Networks

An address is in a network exactly if it is of the network's family and has the same first bits
(`matchesAnyCidr_iff`). The networks come from the environment, whose schema accepts an entry by a
regular expression; `parseCidr` reads less, and an accepted entry that it does not read is dropped
without a word (`accepted_parses_iff`). -/

namespace BackendFoundation.Http.Networks

open Lib
open Lib.IpText (Address Ipv4 Ipv6 AddressText SameFamily mem_of_mem_intercalate)
open Lib.BitPrefix Http.ClientIp Http.Addresses Http.Buckets Http.TrustProxy

/-! ### What `parseCidr` reads -/

/-- The address and the number of bits that the text of a network names. An IPv4 address that is
embedded in IPv6 has the bits of IPv4. -/
inductive Names (text : Text) : Address → ℕ → Prop
  | host {part : Text} {address : Address} : (trim text).splitOn '/' = [part] →
    Spells (stripBrackets part) address → Names text address address.unmap.width
  | network {part bits : Text} {address : Address} : (trim text).splitOn '/' = [part, bits] →
    Spells (stripBrackets part) address → isDigits 3 bits = true →
    parseDecimal bits ≤ address.unmap.width → Names text address (parseDecimal bits)

theorem parsedOf_bytes (address : Address) : (parsedOf address).bytes = address.bytes := by
  cases address <;> rfl

theorem length_parsedOf (address : Address) :
    (parsedOf address).bytes.length * 8 = address.width := by
  rw [parsedOf_bytes, address.length_bytes]

theorem exists_spells_of_parse {value : Text} {parsed : ParsedIp}
    (h : parseClientIp value = some parsed) :
    ∃ address, Spells (stripBrackets value) address ∧ parsed = parsedOf address.unmap := by
  have hsome : ¬ parseClientIp value = none := by
    rw [h]
    exact Option.some_ne_none parsed
  rw [parseClientIp_eq_none_iff, not_and_or, Bool.not_eq_false, Bool.not_eq_false] at hsome
  rcases hsome with hv4 | hv6
  · obtain ⟨address, hspells⟩ := (exists_spells_v4_iff _).mpr hv4
    rw [parseClientIp_of_spells hspells] at h
    exact ⟨_, hspells, (Option.some.inj h).symm⟩
  · obtain ⟨address, hspells⟩ := (exists_spells_v6_iff _).mpr hv6
    rw [parseClientIp_of_spells hspells] at h
    exact ⟨_, hspells, (Option.some.inj h).symm⟩

/-- The network of an address, with the embedding of IPv4 taken off. -/
def networkOf (address : Address) (bits : ℕ) : ParsedCidr :=
  ⟨(parsedOf address.unmap).family, address.unmap.bytes, bits⟩

theorem parseCidr_iff (text : Text) (network : ParsedCidr) : parseCidr text = some network ↔
    ∃ address bits, Names text address bits ∧ network = networkOf address bits := by
  constructor
  · intro h
    unfold parseCidr at h
    split at h
    · rename_i part hsplit
      split_ifs at h with hnil
      obtain ⟨parsed, hparse, rfl⟩ := Option.map_eq_some_iff.mp h
      obtain ⟨address, hspells, rfl⟩ := exists_spells_of_parse hparse
      refine ⟨address, _, .host hsplit hspells, ?_⟩
      rw [networkOf, length_parsedOf, parsedOf_bytes]
    · rename_i part bits hsplit
      rcases hparse : parseClientIp part with _ | parsed
      · simp only [hparse, ite_self] at h
        cases h
      · simp only [hparse] at h
        obtain ⟨address, hspells, rfl⟩ := exists_spells_of_parse hparse
        split_ifs at h with hnil hdigits hle
        rw [length_parsedOf] at hle
        have hisDigits : isDigits 3 bits = true := by
          simp only [isDigits, Bool.and_eq_true, decide_eq_true_eq]
          exact ⟨⟨hdigits.1, hdigits.2.1⟩, hdigits.2.2⟩
        refine ⟨address, _, .network hsplit hspells hisDigits hle, ?_⟩
        rw [networkOf, ← parsedOf_bytes]
        exact (Option.some.inj h).symm
    · cases h
  · rintro ⟨address, bits, hnames, rfl⟩
    have hpart : ∀ {part : Text}, Spells (stripBrackets part) address → part ≠ [] := by
      rintro part hspells rfl
      exact hspells.ne_nil (by decide)
    unfold parseCidr
    cases hnames with
    | host hsplit hspells =>
      rw [hsplit]
      simp only [if_neg (hpart hspells), parseClientIp_of_spells hspells, Option.map_some,
        networkOf, parsedOf_bytes, Address.length_bytes]
    | network hsplit hspells hdigits hle =>
      simp only [isDigits, Bool.and_eq_true, decide_eq_true_eq] at hdigits
      rw [hsplit]
      simp only [if_neg (hpart hspells), parseClientIp_of_spells hspells, networkOf,
        parsedOf_bytes, Address.length_bytes]
      rw [if_pos ⟨hdigits.1.1, hdigits.1.2, hdigits.2⟩, if_pos hle]

theorem parseCidr_ne_none_iff (text : Text) :
    parseCidr text ≠ none ↔ ∃ address bits, Names text address bits := by
  rw [Option.ne_none_iff_exists']
  constructor
  · rintro ⟨network, h⟩
    obtain ⟨address, bits, hnames, -⟩ := (parseCidr_iff text network).mp h
    exact ⟨address, bits, hnames⟩
  · rintro ⟨address, bits, hnames⟩
    exact ⟨_, (parseCidr_iff text _).mpr ⟨address, bits, hnames, rfl⟩⟩

/-! ### What `matchesAnyCidr` tells -/

theorem withinPrefix_iff {a b : Address} (h : SameFamily a b) (bits : ℕ) :
    withinPrefix a.bytes b.bytes bits = true ↔ SamePrefix bits a.bytes b.bytes := by
  have hlen : a.bytes.length = b.bytes.length := by
    have ha := a.length_bytes
    have hb := b.length_bytes
    rw [h.width_eq] at ha
    omega
  rw [samePrefix_iff a.byte_lt b.byte_lt hlen]
  simp only [withinPrefix, highMask, Bool.and_eq_true, Bool.or_eq_true, decide_eq_true_eq]

theorem family_eq_iff (a b : Address) :
    (parsedOf a).family = (parsedOf b).family ↔ SameFamily a b := by
  cases a <;> cases b <;> simp [parsedOf, SameFamily]

/-- A client is in a network that `parseCidr` reads, once embeddings are taken off. -/
theorem matchesAnyCidr_unmap_iff {value : Text} {client : Address}
    (hclient : Spells (stripBrackets value) client) {texts : List Text} :
    matchesAnyCidr value (texts.filterMap parseCidr) = true ↔
      ∃ text ∈ texts, ∃ address bits, Names text address bits ∧
        SameFamily client.unmap address.unmap ∧
          SamePrefix bits client.unmap.bytes address.unmap.bytes := by
  unfold matchesAnyCidr
  rw [parseClientIp_of_spells hclient]
  simp only [List.any_eq_true, Bool.and_eq_true, decide_eq_true_eq, List.mem_filterMap,
    parsedOf_bytes]
  constructor
  · rintro ⟨network, ⟨text, htext, hparse⟩, hfamily, hwithin⟩
    obtain ⟨address, bits, hnames, rfl⟩ := (parseCidr_iff text network).mp hparse
    have hsame := (family_eq_iff client.unmap address.unmap).mp hfamily.symm
    exact ⟨text, htext, address, bits, hnames, hsame, (withinPrefix_iff hsame bits).mp hwithin⟩
  · rintro ⟨text, htext, address, bits, hnames, hsame, hbits⟩
    exact ⟨networkOf address bits, ⟨text, htext, (parseCidr_iff text _).mpr
      ⟨address, bits, hnames, rfl⟩⟩, ((family_eq_iff client.unmap address.unmap).mpr hsame).symm,
      (withinPrefix_iff hsame bits).mpr hbits⟩

/-- **A client is in one of the networks exactly if it has the first bits of one of its family.** -/
theorem matchesAnyCidr_iff {value : Text} {client : Address}
    (hclient : Spells (stripBrackets value) client) {texts : List Text}
    (hplain : ∀ text ∈ texts, ∀ address bits, Names text address bits → address.unmap = address) :
    matchesAnyCidr value (texts.filterMap parseCidr) = true ↔
      ∃ text ∈ texts, ∃ address bits, Names text address bits ∧
        SameFamily client.unmap address ∧ SamePrefix bits client.unmap.bytes address.bytes := by
  rw [matchesAnyCidr_unmap_iff hclient]
  constructor
  · rintro ⟨text, htext, address, bits, hnames, hin⟩
    rw [hplain text htext address bits hnames] at hin
    exact ⟨text, htext, address, bits, hnames, hin⟩
  · rintro ⟨text, htext, address, bits, hnames, hin⟩
    refine ⟨text, htext, address, bits, hnames, ?_⟩
    rw [hplain text htext address bits hnames]
    exact hin

/-- A network of IPv4 with host bits set, and a client in it. -/
theorem matchesAnyCidr_example :
    matchesAnyCidr "::ffff:192.168.7.255".toList
        (["192.168.5.1/22".toList].filterMap parseCidr) = true ↔
      ∃ text ∈ ["192.168.5.1/22".toList], ∃ address bits, Names text address bits ∧
        SameFamily (Address.v4 ⟨[192, 168, 7, 255], rfl, by decide⟩) address ∧
        SamePrefix bits [192, 168, 7, 255] address.bytes := by
  have haddress : AddressText (zoneless (stripBrackets "::ffff:192.168.7.255".toList))
      [0, 0, 0, 0, 0, 65535, 49320, 2047] := by
    obtain ⟨ns, hns⟩ := (isIPv6_iff (zoneless (stripBrackets "::ffff:192.168.7.255".toList))).mp
      (by decide)
    have hbytes := parseIpv6Bytes_of_addressText hns rfl
    have hparse : parseIpv6Bytes (stripBrackets "::ffff:192.168.7.255".toList) =
        some ([0, 0, 0, 0, 0, 65535, 49320, 2047].flatMap IpText.groupBytes) := by decide
    rw [hparse] at hbytes
    rw [IpText.flatMap_groupBytes_injective (Option.some.inj hbytes)]
    exact hns
  have hclient : Spells (stripBrackets "::ffff:192.168.7.255".toList)
      (.v6 ⟨[0, 0, 0, 0, 0, 65535, 49320, 2047], rfl, by decide⟩) := .v6 _ haddress
  refine matchesAnyCidr_iff hclient ?_
  intro text htext address bits hnames
  obtain rfl := List.mem_singleton.mp htext
  have hsplit : (trim "192.168.5.1/22".toList).splitOn '/' =
      ["192.168.5.1".toList, "22".toList] := by decide
  cases hnames with
  | host hpart =>
    rw [hsplit] at hpart
    cases hpart
  | network hpart hspells =>
    rw [hsplit] at hpart
    obtain ⟨rfl, -⟩ := List.cons.inj hpart
    cases hspells with
    | v4 => rfl
    | v6 _ h =>
      have hquad := parseIpv4Bytes_of_addressText h
      exact absurd hquad (by decide)

/-! ### Entries of the environment -/

/-- An entry that the schema of `RATE_LIMIT_ALLOWLIST_CIDRS` accepts. -/
def acceptsAllowlistEntry (value : Text) : Bool := looksLikeIPv4 value || looksLikeIPv6 value

/-- The allowlist that the environment schema accepts. -/
structure AllowlistSettings where
  entries : List Text
  entries_le : entries.length ≤ 50
  entries_nodup : entries.Nodup
  entries_accepted : ∀ entry ∈ entries, acceptsAllowlistEntry entry = true

theorem nodup_commaSeparatedList (value : Text) : (commaSeparatedList value).Nodup :=
  List.nodup_reverse.mpr (List.nodup_dedup _)

/-- What the schema makes of the variable. -/
def parseAllowlist (value : Text) : Option AllowlistSettings :=
  let entries := commaSeparatedList value
  if h : entries.length ≤ 50 ∧ ∀ entry ∈ entries, acceptsAllowlistEntry entry = true then
    some
      { entries := entries
        entries_le := h.1
        entries_nodup := nodup_commaSeparatedList value
        entries_accepted := h.2 }
  else none

/-- `allowlist` of the rate limiter. -/
def allowlist (settings : AllowlistSettings) : List ParsedCidr :=
  settings.entries.flatMap fun entry => (parseCidr entry).toList

def isRateLimitAllowlisted (settings : AllowlistSettings) (ip : Text) : Bool :=
  matchesAnyCidr ip (allowlist settings)

/-- The part before the slash is an address, and it has as many bits as the part after it asks. -/
inductive WellFormed (entry : Text) : Prop
  | host {part : Text} {address : Address} : entry.splitOn '/' = [part] → Spells part address →
    WellFormed entry
  | network {part bits : Text} {address : Address} : entry.splitOn '/' = [part, bits] →
    Spells part address → parseDecimal bits ≤ address.unmap.width → WellFormed entry

/-- The characters of addresses without a zone. -/
def isPlainChar (c : Char) : Bool := isHexDigit c || c = ':' || c = '.'

theorem isAddressChar_of_plain {c : Char} (h : isPlainChar c = true) : isAddressChar c = true := by
  simp only [isPlainChar, Bool.or_eq_true, decide_eq_true_eq] at h
  rcases h with (h | rfl) | rfl
  · exact isAddressChar_of_isHexDigit h
  · decide
  · decide

/-- What the regular expressions say about an entry. -/
structure Shaped (entry : Text) : Prop where
  chars : ∀ part ∈ entry.splitOn '/', ∀ c ∈ part, isPlainChar c = true
  bits : ∀ part bits, entry.splitOn '/' = [part, bits] → isDigits 3 bits = true

theorem isDigits_chars {max : ℕ} {text : Text} (h : isDigits max text = true) {c : Char}
    (hc : c ∈ text) : isPlainChar c = true := by
  simp only [isDigits, Bool.and_eq_true] at h
  simp [isPlainChar, isHexDigit, List.all_eq_true.mp h.2 c hc]

theorem isDigits_mono {a b : ℕ} (hab : a ≤ b) {text : Text} (h : isDigits a text = true) :
    isDigits b text = true := by
  simp only [isDigits, Bool.and_eq_true, decide_eq_true_eq] at h ⊢
  exact ⟨⟨h.1.1, h.1.2.trans hab⟩, h.2⟩

variable {entry : Text}

theorem shaped_of_parts {address : Text → Bool} {max : ℕ} (hmax : max ≤ 3)
    (hchars : ∀ part, address part = true → ∀ c ∈ part, isPlainChar c = true)
    (h : (match entry.splitOn '/' with
      | [part] => address part
      | [part, bits] => address part && isDigits max bits
      | _ => false) = true) : Shaped entry := by
  split at h
  · rename_i part hsplit
    refine ⟨fun piece hpiece => ?_, fun other bits hother => ?_⟩
    · rw [hsplit, List.mem_singleton] at hpiece
      rw [hpiece]
      exact hchars part h
    · rw [hsplit] at hother
      cases hother
  · rename_i part bits hsplit
    rw [Bool.and_eq_true] at h
    refine ⟨fun piece hpiece c hc => ?_, fun other digits hother => ?_⟩
    · rw [hsplit] at hpiece
      simp only [List.mem_cons, List.not_mem_nil, or_false] at hpiece
      rcases hpiece with rfl | rfl
      · exact hchars _ h.1 c hc
      · exact isDigits_chars h.2 hc
    · rw [hsplit] at hother
      obtain ⟨-, hbits⟩ := List.cons.inj hother
      rw [← (List.cons.inj hbits).1]
      exact isDigits_mono hmax h.2
  · cases h

theorem shaped_of_accepted (h : acceptsAllowlistEntry entry = true) : Shaped entry := by
  rw [acceptsAllowlistEntry, Bool.or_eq_true] at h
  rcases h with h | h
  · refine shaped_of_parts (by omega : 2 ≤ 3) (fun part hpart c hc => ?_) h
    rw [Bool.and_eq_true] at hpart
    have hjoin : ['.'].intercalate (part.splitOn '.') = part := List.intercalate_splitOn '.'
    rw [← hjoin] at hc
    rcases mem_of_mem_intercalate hc with rfl | ⟨piece, hpiece, hcpiece⟩
    · decide
    · exact isDigits_chars (List.all_eq_true.mp hpart.2 piece hpiece) hcpiece
  · refine shaped_of_parts (Nat.le_refl 3) (fun part hpart c hc => ?_) h
    rw [Bool.and_eq_true] at hpart
    rw [isPlainChar, List.all_eq_true.mp hpart.2 c hc]
    rfl

theorem Shaped.trim_eq (h : Shaped entry) : trim entry = entry := by
  refine trim_eq_self fun c hc => ?_
  have hjoin : ['/'].intercalate (entry.splitOn '/') = entry := List.intercalate_splitOn '/'
  rw [← hjoin] at hc
  rcases mem_of_mem_intercalate hc with rfl | ⟨part, hpart, hcpart⟩
  · decide
  · exact (isAddressChar_plain (isAddressChar_of_plain (h.chars part hpart c hcpart))).1

theorem Shaped.part {entry part : Text} {others : List Text} (h : Shaped entry)
    (hsplit : entry.splitOn '/' = part :: others) : stripBrackets part = part := by
  refine (stripBrackets_of_chars fun c hc => isAddressChar_of_plain (h.chars part ?_ c hc)).1
  rw [hsplit]
  exact List.mem_cons_self

theorem Shaped.parses_iff (h : Shaped entry) : parseCidr entry ≠ none ↔ WellFormed entry := by
  rw [parseCidr_ne_none_iff]
  constructor
  · rintro ⟨address, bits, hnames⟩
    cases hnames with
    | host hsplit hspells =>
      rw [h.trim_eq] at hsplit
      rw [h.part hsplit] at hspells
      exact .host hsplit hspells
    | network hsplit hspells _ hle =>
      rw [h.trim_eq] at hsplit
      rw [h.part hsplit] at hspells
      exact .network hsplit hspells hle
  · intro hformed
    cases hformed with
    | host hsplit hspells =>
      rw [← h.part hsplit] at hspells
      rw [← h.trim_eq] at hsplit
      exact ⟨_, _, .host hsplit hspells⟩
    | network hsplit hspells hle =>
      have hbits := h.bits _ _ hsplit
      rw [← h.part hsplit] at hspells
      rw [← h.trim_eq] at hsplit
      exact ⟨_, _, .network hsplit hspells hbits hle⟩

theorem shaped_of_acceptsEntry (h : acceptsEntry entry = true) (hname : entry ∉ rangeNames) :
    Shaped entry := by
  rw [acceptsEntry, Bool.or_assoc, Bool.or_eq_true, decide_eq_true_eq] at h
  exact shaped_of_accepted (h.resolve_left hname)

theorem networks_eq_filterMap (settings : ProxySettings) : configuredTrustedProxyCidrs settings =
    (settings.entries.filter (· ∉ rangeNames)).filterMap parseCidr := by
  have hnames : ∀ name ∈ rangeNames, parseCidr name = none := by decide
  rw [configuredTrustedProxyCidrs, List.filterMap_filter]
  refine List.filterMap_congr fun entry _ => ?_
  by_cases hname : entry ∈ rangeNames
  · simp [hname, hnames entry hname]
  · simp [hname]

/-- **An accepted entry takes effect exactly if it is well formed**: its first part is an address,
and its prefix is no longer than the address, or than the IPv4 address that is embedded in it. -/
theorem accepted_parses_iff (entry : Text) (limiter : AllowlistSettings) (proxies : ProxySettings) :
    (acceptsAllowlistEntry entry = true ∨ acceptsEntry entry = true ∧ entry ∉ rangeNames →
      (parseCidr entry ≠ none ↔ WellFormed entry)) ∧
    ((allowlist limiter).length = limiter.entries.length ↔
      ∀ entry ∈ limiter.entries, WellFormed entry) ∧
    ((configuredTrustedProxyCidrs proxies).length =
        (proxies.entries.filter (· ∉ rangeNames)).length ↔
      ∀ entry ∈ proxies.entries, entry ∉ rangeNames → WellFormed entry) := by
  refine ⟨?_, ?_, ?_⟩
  · rintro (hallow | ⟨hproxy, hname⟩)
    · exact (shaped_of_accepted hallow).parses_iff
    · exact (shaped_of_acceptsEntry hproxy hname).parses_iff
  · have hnetworks : allowlist limiter = limiter.entries.filterMap parseCidr :=
      (List.filterMap_eq_flatMap_toList parseCidr limiter.entries).symm
    rw [hnetworks, List.filterMap_length_eq_length]
    simp only [Option.isSome_iff_ne_none]
    exact forall₂_congr fun entry hentry =>
      (shaped_of_accepted (limiter.entries_accepted entry hentry)).parses_iff
  · rw [networks_eq_filterMap, List.filterMap_length_eq_length]
    simp only [Option.isSome_iff_ne_none, List.mem_filter, decide_eq_true_eq, and_imp]
    exact forall₃_congr fun entry hentry hname =>
      (shaped_of_acceptsEntry (proxies.entries_accepted entry hentry) hname).parses_iff

/-- Entries that the schemas accept and `parseCidr` does not read. -/
theorem exists_accepted_dropped :
    (acceptsAllowlistEntry "999.1.1.1".toList = true ∧ parseCidr "999.1.1.1".toList = none) ∧
      acceptsEntry "::ffff:102:304/120".toList = true ∧
      "::ffff:102:304/120".toList ∉ rangeNames ∧ parseCidr "::ffff:102:304/120".toList = none := by
  decide

end BackendFoundation.Http.Networks
