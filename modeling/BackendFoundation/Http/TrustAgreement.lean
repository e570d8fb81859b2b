import BackendFoundation.Http.Networks

/-! # The gateway and Express

The chat gateway and Express walk the same chain under the same settings, but they read the entries
with different parsers. What Express reads (`proxy-addr`, outside of the sources) is a parameter, with
what is documented of it (`Documented`): it takes every address as one of IPv6, and a network of IPv4
as the addresses that embed one of it. An entry that names a host, or a network without embedded
addresses, is read alike (`ReadAlike`). The two agree on every chain exactly if the networks that the
gateway reads cover what Express reads from the other entries (`agree_iff`); it reads none from a
range name. -/

namespace BackendFoundation.Http.TrustAgreement

open Lib
open Lib.IpText (Address Ipv4 Ipv6 SameFamily embeddedPrefix groupBytes GroupsText AddressText)
open Lib.BitPrefix Http.ClientIp Http.Addresses Http.Buckets Http.Forwarded Http.TrustProxy
open Http.Networks

/-! ### Addresses -/

/-- A text that `net.isIP` accepts; a zone consists of letters and digits. -/
structure IsAddress (value : Text) : Prop where
  accepted : netIsIP value ≠ 0
  zone : ∀ c ∈ value.dropWhile (· ≠ '%'), c = '%' ∨ c.isAlphanum = true

instance (value : Text) : Decidable (IsAddress value) :=
  -- Not the search through every character, which `Char` has an instance for.
  haveI : Decidable (∀ c ∈ value.dropWhile (· ≠ '%'), c = '%' ∨ c.isAlphanum = true) :=
    List.decidableBAll _ _
  decidable_of_iff (netIsIP value ≠ 0 ∧
      ∀ c ∈ value.dropWhile (· ≠ '%'), c = '%' ∨ c.isAlphanum = true)
    ⟨fun ⟨h, h'⟩ => ⟨h, h'⟩, fun h => ⟨h.accepted, h.zone⟩⟩

/-- A chain of forwarded addresses, the peer's neighbour first. -/
def IsChain (forwarded : List Text) : Prop := ∀ value ∈ forwarded, IsAddress value

instance (forwarded : List Text) : Decidable (IsChain forwarded) :=
  inferInstanceAs (Decidable (∀ value ∈ forwarded, IsAddress value))

variable {value : Text}

theorem IsAddress.exists_spells (h : IsAddress value) :
    ∃ address, Spells value address := (chars_of_netIsIP h.accepted).2

theorem IsAddress.stripped (h : IsAddress value) : stripBrackets value = value :=
  (stripBrackets_of_chars (chars_of_netIsIP h.accepted).1).1

theorem IsAddress.trimmed (h : IsAddress value) : trim value = value :=
  trim_eq_self fun c hc => (isAddressChar_plain ((chars_of_netIsIP h.accepted).1 c hc)).1

theorem IsAddress.comma (h : IsAddress value) : ',' ∉ value := fun hc =>
  absurd ((chars_of_netIsIP h.accepted).1 ',' hc) (by decide)

theorem IsAddress.parses (h : IsAddress value) : parseClientIp value ≠ none := by
  obtain ⟨address, hspells⟩ := h.exists_spells
  rw [← h.stripped] at hspells
  rw [parseClientIp_of_spells hspells]
  exact Option.some_ne_none _

theorem IsAddress.ne_nil (h : IsAddress value) : value ≠ [] := by
  rintro rfl
  exact h.accepted (by decide)

variable {address : Address}

theorem isAddress_of_spells {text : Text} (h : Spells text address) (hzone : '%' ∉ text) :
    IsAddress text := by
  have hdrop : text.dropWhile (· ≠ '%') = [] := by
    rw [List.dropWhile_eq_nil_iff]
    intro c hc
    exact decide_eq_true fun heq => hzone (heq ▸ hc)
  refine ⟨?_, fun c hc => ?_⟩
  · unfold netIsIP hasZone
    rw [hdrop]
    cases address with
    | v4 address =>
      rw [if_pos ((exists_spells_v4_iff text).mp ⟨address, h⟩)]
      decide
    | v6 address =>
      rw [(exists_spells_v6_iff text).mp ⟨address, h⟩]
      by_cases hv4 : isIPv4 text = true
      · rw [if_pos hv4]
        decide
      · rw [if_neg hv4]
        exact Nat.succ_ne_zero 5
  · rw [hdrop] at hc
    cases hc

/-- Every address has a text. -/
theorem exists_text (c : Ipv6) : ∃ text, Spells text (.v6 c) ∧ IsAddress text := by
  have hgroups : GroupsText ([':'].intercalate (c.groups.map (Nat.toDigits 16))) c.groups := by
    refine ⟨_, fun hnil => ?_, rfl, ?_⟩
    · have hlen := c.length_groups
      rw [List.map_eq_nil_iff.mp hnil] at hlen
      cases hlen
    · rw [List.forall₂_map_left_iff, List.forall₂_same]
      exact fun g hg => groupText_toDigits (c.group_lt g hg)
  have hzone : '%' ∉ [':'].intercalate (c.groups.map (Nat.toDigits 16)) := fun hmem =>
    (group_chars hgroups hmem).elim (fun h => absurd h (by decide)) fun h => absurd h (by decide)
  have hzoneless : zoneless ([':'].intercalate (c.groups.map (Nat.toDigits 16))) =
      [':'].intercalate (c.groups.map (Nat.toDigits 16)) :=
    List.takeWhile_eq_self_iff.mpr fun x hx => decide_eq_true fun heq => hzone (heq ▸ hx)
  have hspells : Spells ([':'].intercalate (c.groups.map (Nat.toDigits 16))) (.v6 c) := by
    refine .v6 c ?_
    rw [hzoneless]
    exact .full (.groups hgroups) c.length_groups
  exact ⟨_, hspells, isAddress_of_spells hspells hzone⟩

/-! ### Networks that embed networks -/

/-- An address is in a network, once embeddings are taken off. -/
def InNetwork (address : Address) (bits : ℕ) (c : Ipv6) : Prop :=
  SameFamily (Address.v6 c).unmap address.unmap ∧
    SamePrefix bits (Address.v6 c).unmap.bytes address.unmap.bytes

theorem unmap_of_mapped {c : Ipv6} {a : Ipv4} (h : c.mapped = some a) :
    (Address.v6 c).unmap = .v4 a := by
  rw [Address.unmap, h]
  rfl

theorem unmap_of_not_mapped {c : Ipv6} (h : c.mapped = none) : (Address.v6 c).unmap = .v6 c := by
  rw [Address.unmap, h]
  rfl

/-- An address that starts as an embedded one is an embedded one. -/
theorem exists_mapped {c d : Ipv6} {a : Ipv4} (hd : d.mapped = some a)
    (h : SamePrefix 96 c.bytes d.bytes) : ∃ b, c.mapped = some b := by
  have hlen : c.bytes.length = d.bytes.length := by rw [c.length_bytes, d.length_bytes]
  obtain ⟨htake, -⟩ :=
    (samePrefix_iff (Address.byte_lt (.v6 c)) (Address.byte_lt (.v6 d)) hlen).mp h
  change c.bytes.take 12 = d.bytes.take 12 at htake
  rw [Ipv6.bytes_of_mapped hd] at htake
  have hbytes : c.bytes = embeddedPrefix ++ c.bytes.drop 12 := by
    have happend := List.take_append_drop 12 c.bytes
    rw [htake] at happend
    exact happend.symm
  have hmapped := isIpv4Mapped_bytes c
  rw [hbytes] at hmapped
  exact Option.isSome_iff_exists.mp hmapped.symm

theorem inNetwork_v4_iff {a : Ipv4} (h : address.unmap = .v4 a) (bits : ℕ) (c : Ipv6) :
    SamePrefix (96 + bits) c.bytes a.embed.bytes ↔ InNetwork address bits c := by
  rw [InNetwork, h, a.bytes_embed]
  constructor
  · intro hstart
    obtain ⟨b, hb⟩ := exists_mapped (c := c) a.mapped_embed (by
      rw [a.bytes_embed]
      exact hstart.mono (by omega))
    rw [Ipv6.bytes_of_mapped hb] at hstart
    rw [unmap_of_mapped hb]
    exact ⟨trivial, (@samePrefix_append embeddedPrefix _ _ bits).mp hstart⟩
  · rintro ⟨hsame, hstart⟩
    rcases hc : c.mapped with _ | b
    · rw [unmap_of_not_mapped hc] at hsame
      exact hsame.elim
    · rw [unmap_of_mapped hc] at hstart
      rw [Ipv6.bytes_of_mapped hc]
      exact (@samePrefix_append embeddedPrefix _ _ bits).mpr hstart

theorem inNetwork_v6_iff {a : Ipv6} (h : a.mapped = none) (bits : ℕ) (c : Ipv6) :
    InNetwork (.v6 a) bits c ↔ c.mapped = none ∧ SamePrefix bits c.bytes a.bytes := by
  rw [InNetwork, unmap_of_not_mapped h]
  rcases hc : c.mapped with _ | b
  · rw [unmap_of_not_mapped hc]
    exact and_congr_left' ⟨fun _ => rfl, fun _ => trivial⟩
  · rw [unmap_of_mapped hc]
    exact ⟨fun h => h.1.elim, fun h => absurd h.1 (Option.some_ne_none b)⟩

theorem inNetwork_host_iff (address : Address) (c : Ipv6) :
    SamePrefix 128 c.bytes address.embed.bytes ↔ InNetwork address address.unmap.width c := by
  cases address with
  | v4 a => exact inNetwork_v4_iff rfl 32 c
  | v6 a =>
    rcases ha : a.mapped with _ | b
    · rw [unmap_of_not_mapped ha, Address.width, inNetwork_v6_iff ha]
      refine ⟨fun hstart => ⟨?_, hstart⟩, fun h => h.2⟩
      rcases hc : c.mapped with _ | e
      · rfl
      · obtain ⟨b, hb⟩ := exists_mapped hc
          (c := a) fun place hplace => (hstart place (by omega)).symm
        rw [hb] at ha
        cases ha
    · rw [unmap_of_mapped ha, Address.embed, Ipv6.bytes_of_mapped ha, ← b.bytes_embed]
      exact inNetwork_v4_iff (unmap_of_mapped ha) 32 c

/-- The network of an IPv6 address has an address in it that embeds one of IPv4. -/
def ReachesEmbedded : Address → ℕ → Prop
  | .v4 _, _ => False
  | .v6 address, bits => SamePrefix (min bits 96) address.bytes embeddedPrefix

theorem samePrefix_of_mapped {c : Ipv6} {a : Ipv4} (h : c.mapped = some a) {count : ℕ}
    (hle : count ≤ 96) : SamePrefix count c.bytes embeddedPrefix := by
  intro place hplace
  rw [Ipv6.bytes_of_mapped h]
  exact bitAt_append_left _ (by simpa [embeddedPrefix] using lt_of_lt_of_le hplace hle)

theorem not_mapped {a c : Ipv6} {bits : ℕ} (h : ¬ ReachesEmbedded (.v6 a) bits)
    (hstart : SamePrefix bits c.bytes a.bytes) : c.mapped = none := by
  rcases hc : c.mapped with _ | b
  · rfl
  · refine absurd (fun place hplace => ?_) h
    rw [← hstart place (by omega)]
    exact samePrefix_of_mapped hc (min_le_right bits 96) place hplace

/-! ### Express -/

/-- The addresses of IPv6 with the first bits of a base. -/
structure Network where
  base : List ℕ
  bits : ℕ

def Network.contains (network : Network) (bytes : List ℕ) : Bool :=
  decide (SamePrefix network.bits bytes network.base)

theorem contains_iff {network : Network} {bytes : List ℕ} :
    network.contains bytes = true ↔ SamePrefix network.bits bytes network.base := decide_eq_true_iff

/-- What Express reads: the bytes of an address, as one of IPv6, and the networks of an entry, or
nothing from an entry that it refuses. -/
structure Express where
  parse : Text → Option (List ℕ)
  reads : Text → Option (List Network)

/-- The networks of a range name. -/
def rangeNetworks (name : Text) : List Network :=
  let v4 (octets : List ℕ) (bits : ℕ) : Network := ⟨embeddedPrefix ++ octets, 96 + bits⟩
  let v6 (groups : List ℕ) (bits : ℕ) : Network := ⟨groups.flatMap groupBytes, bits⟩
  if name = "loopback".toList then [v4 [127, 0, 0, 1] 8, v6 [0, 0, 0, 0, 0, 0, 0, 1] 128]
  else if name = "linklocal".toList then
    [v4 [169, 254, 0, 0] 16, v6 [0xfe80, 0, 0, 0, 0, 0, 0, 0] 10]
  else if name = "uniquelocal".toList then
    [v4 [10, 0, 0, 0] 8, v4 [172, 16, 0, 0] 12, v4 [192, 168, 0, 0] 16,
      v6 [0xfc00, 0, 0, 0, 0, 0, 0, 0] 7]
  else []

/-- What is documented of Express. An entry that is no range name, address or network is left
open, as is a zone with other characters. -/
structure Documented (express : Express) : Prop where
  address : ∀ text address, IsAddress text → Spells text address →
    express.parse text = some address.embed.bytes
  range : ∀ name ∈ rangeNames, express.reads name = some (rangeNetworks name)
  host : ∀ entry part address, entry.splitOn '/' = [part] → IsAddress part →
    Spells part address → express.reads entry = some [⟨address.embed.bytes, 128⟩]
  network : ∀ entry part bits address, entry.splitOn '/' = [part, bits] → IsAddress part →
    Spells part address → isDigits 3 bits = true → express.reads entry =
      if 0 < parseDecimal bits ∧ parseDecimal bits ≤ address.width then
        some [⟨address.embed.bytes, 128 - address.width + parseDecimal bits⟩]
      else none

/-- The address is in a network of the entry. -/
def Express.Trusts (express : Express) (entry : Text) (bytes : List ℕ) : Prop :=
  ∃ network ∈ (express.reads entry).getD [], network.contains bytes = true

instance (express : Express) (entry : Text) (bytes : List ℕ) :
    Decidable (express.Trusts entry bytes) :=
  inferInstanceAs (Decidable (∃ network ∈ _, _))

def Express.trusts (express : Express) (entries : List Text) (address : Text) : Bool :=
  match express.parse address with
  | none => false
  | some bytes => entries.any fun entry => express.Trusts entry bytes

/-- The trust that `trust proxy` compiles to, of the address at a place of the chain. -/
def Express.trust (express : Express) (settings : ProxySettings) (place : ℕ) (address : Text) :
    Bool :=
  if 0 < settings.entries.length then express.trusts settings.entries address
  else place < settings.hops

/-- The first untrusted address of a chain, or its last one. -/
def expressWalk (trust : ℕ → Text → Bool) : ℕ → Text → List Text → Text
  | _, address, [] => address
  | place, address, candidate :: rest =>
    if trust place address then expressWalk trust (place + 1) candidate rest else address

def Express.clientAddress (express : Express) (settings : ProxySettings) (remote : Text)
    (forwarded : List Text) : Text :=
  expressWalk (express.trust settings) 0 remote forwarded

/-! ### Entries -/

/-- The address is in a network that the gateway reads. -/
def Covered (entries : List Text) (c : Ipv6) : Prop :=
  ∃ entry ∈ entries, ∃ address bits, Names entry address bits ∧ InNetwork address bits c

/-- The entry is an address, or a network that embeds no addresses of IPv4 in IPv6. -/
def ReadAlike (entry : Text) : Prop :=
  ∃ address bits, Names entry address bits ∧ ('/' ∈ entry → ¬ ReachesEmbedded address bits)

theorem not_names_range {name : Text} (h : name ∈ rangeNames) {bits : ℕ}
    (hnames : Names name address bits) : False := by
  have hnone : ∀ name ∈ rangeNames, parseCidr name = none := by decide
  exact (parseCidr_ne_none_iff name).mpr ⟨address, bits, hnames⟩ (hnone name h)

theorem isAddress_of_shaped {entry part : Text} (h : Shaped entry)
    (hpart : part ∈ entry.splitOn '/') (hspells : Spells part address) : IsAddress part :=
  isAddress_of_spells hspells fun hmem => absurd (h.chars part hpart '%' hmem) (by decide)

/-- **Express reads one network from what the gateway reads as one.** It has the addresses of the
gateway's in it, and only these if the entry is read alike. -/
theorem reads_of_names {express : Express} (hdoc : Documented express) {entry : Text}
    (hshaped : Shaped entry) {bits : ℕ} (hnames : Names entry address bits)
    (hreads : express.reads entry ≠ none) (c : Ipv6) :
    (InNetwork address bits c → express.Trusts entry c.bytes) ∧
      (('/' ∈ entry → ¬ ReachesEmbedded address bits) → express.Trusts entry c.bytes →
        InNetwork address bits c) := by
  cases hnames with
  | @host part _ hsplit hspells =>
    rw [hshaped.trim_eq] at hsplit
    rw [hshaped.part hsplit] at hspells
    have haddress := isAddress_of_shaped hshaped (by rw [hsplit]; exact List.mem_cons_self) hspells
    have htrusts : express.Trusts entry c.bytes ↔ InNetwork address address.unmap.width c := by
      rw [← inNetwork_host_iff, Express.Trusts, hdoc.host entry part address hsplit haddress hspells]
      simp [contains_iff]
    exact ⟨htrusts.mpr, fun _ => htrusts.mp⟩
  | @network part digits _ hsplit hspells hdigits hle =>
    rw [hshaped.trim_eq] at hsplit
    rw [hshaped.part hsplit] at hspells
    have haddress := isAddress_of_shaped hshaped (by rw [hsplit]; exact List.mem_cons_self) hspells
    have hread := hdoc.network entry part digits address hsplit haddress hspells hdigits
    have hslash : '/' ∈ entry := by
      have hjoin : ['/'].intercalate (entry.splitOn '/') = entry := List.intercalate_splitOn '/'
      rw [← hjoin, hsplit, IpText.intercalate_cons_cons]
      simp
    split_ifs at hread with hbits
    · have htrusts : express.Trusts entry c.bytes ↔ SamePrefix
          (128 - address.width + parseDecimal digits) c.bytes address.embed.bytes := by
        rw [Express.Trusts, hread]
        simp [contains_iff]
      rw [htrusts]
      cases address with
      | v4 a =>
        have hiff := @inNetwork_v4_iff (.v4 a) a rfl (parseDecimal digits) c
        exact ⟨hiff.mpr, fun _ => hiff.mp⟩
      | v6 a =>
        rw [Address.width, Nat.sub_self, Nat.zero_add, Address.embed]
        refine ⟨fun hin => ?_, fun hplain hstart => ?_⟩
        · rcases ha : a.mapped with _ | b
          · exact ((inNetwork_v6_iff ha _ c).mp hin).2
          · rw [unmap_of_mapped ha, Address.width] at hle
            have hc := (inNetwork_v4_iff (unmap_of_mapped ha) _ c).mpr hin
            rw [b.bytes_embed, ← Ipv6.bytes_of_mapped ha] at hc
            exact hc.mono (by omega)
        · have ha := not_mapped (hplain hslash) (c := a) fun _ _ => rfl
          exact (inNetwork_v6_iff ha _ c).mpr ⟨not_mapped (hplain hslash) hstart, hstart⟩
    · exact absurd hread hreads

/-! ### Chains -/

/-- The header of a chain. -/
def headerOf (forwarded : List Text) : HeaderValue := .one ([','].intercalate forwarded.reverse)

variable {forwarded : List Text}

theorem forwardedEntries_headerOf (h : IsChain forwarded) :
    forwardedEntries (headerOf forwarded).raw = forwarded := by
  by_cases hnil : forwarded = []
  · subst hnil
    decide
  have hreverse : IsChain forwarded.reverse := by
    intro value hvalue
    exact h value (List.mem_reverse.mp hvalue)
  have hsplit : (headerOf forwarded).raw.splitOn ',' = forwarded.reverse :=
    List.splitOn_intercalate ',' (fun value hvalue => (hreverse value hvalue).comma)
      (by simpa using hnil)
  have htrim : forwarded.reverse.map trim = forwarded.reverse := by
    rw [List.map_congr_left fun value hvalue => (hreverse value hvalue).trimmed, List.map_id']
  have hfilter : forwarded.reverse.filter (· ≠ []) = forwarded.reverse :=
    List.filter_eq_self.mpr fun value hvalue => decide_eq_true (hreverse value hvalue).ne_nil
  rw [forwardedEntries, hsplit, htrim, hfilter, List.reverse_reverse]

theorem allAddresses_headerOf (h : IsChain forwarded) : AllAddresses (headerOf forwarded).raw := by
  rw [AllAddresses, forwardedEntries_headerOf h]
  exact fun value hvalue => (h value hvalue).parses

theorem socketClientAddress_chain {settings : ProxySettings} {remote : Text}
    (hremote : IsAddress remote) (hchain : IsChain forwarded) :
    socketClientAddress settings remote (headerOf forwarded) =
      if 0 < settings.hops then
        (remote :: forwarded)[min settings.hops forwarded.length]?
      else if configuredTrustedProxyCidrs settings = [] then some remote
      else some (walk (configuredTrustedProxyCidrs settings) remote forwarded) := by
  have hpeer : parseClientIp (trim remote) ≠ none := by
    rw [hremote.trimmed]
    exact hremote.parses
  rw [socketClientAddress, trustedClientAddress_of_peer hpeer,
    if_pos (allAddresses_headerOf hchain), forwardedEntries_headerOf hchain, hremote.trimmed]
  rfl

/-! ### The walks -/

theorem expressWalk_hops (hops : ℕ) : ∀ (place : ℕ) (remote : Text) (forwarded : List Text),
    (remote :: forwarded)[min (hops - place) forwarded.length]? =
      some (expressWalk (fun place _ => place < hops) place remote forwarded)
  | place, remote, [] => by simp [expressWalk]
  | place, remote, candidate :: rest => by
    rw [expressWalk]
    by_cases hlt : place < hops
    · have hmin : min (hops - place) (candidate :: rest).length =
          min (hops - (place + 1)) rest.length + 1 := by
        rw [List.length_cons]
        omega
      rw [if_pos (decide_eq_true hlt), hmin, List.getElem?_cons_succ]
      exact expressWalk_hops hops (place + 1) candidate rest
    · have hmin : min (hops - place) (candidate :: rest).length = 0 := by
        rw [List.length_cons]
        omega
      rw [if_neg (by simpa using hlt), hmin, List.getElem?_cons_zero]

theorem walk_eq_expressWalk {networks : List ParsedCidr} {trusts : Text → Bool} :
    ∀ (place : ℕ) (remote : Text) (forwarded : List Text),
      (∀ address ∈ remote :: forwarded, matchesAnyCidr address networks = trusts address) →
      walk networks remote forwarded = expressWalk (fun _ => trusts) place remote forwarded
  | _, _, [], _ => rfl
  | place, remote, candidate :: rest, h => by
    rw [walk, expressWalk, h remote List.mem_cons_self,
      walk_eq_expressWalk (place + 1) candidate rest fun address ha =>
        h address (List.mem_cons_of_mem _ ha)]

theorem walk_nil (remote : Text) (forwarded : List Text) : walk [] remote forwarded = remote := by
  have hnone : matchesAnyCidr remote [] = false := by
    rw [matchesAnyCidr]
    cases parseClientIp remote <;> rfl
  cases forwarded with
  | nil => rfl
  | cons candidate rest => rw [walk, hnone]; rfl

/-- The gateway resolves every chain as Express does, unless Express refuses an entry. -/
def Agree (express : Express) (settings : ProxySettings) : Prop :=
  (∀ entry ∈ settings.entries, express.reads entry ≠ none) →
  ∀ remote forwarded, IsAddress remote → IsChain forwarded →
    socketClientAddress settings remote (headerOf forwarded) =
      some (express.clientAddress settings remote forwarded)

theorem agree_hops (express : Express) {settings : ProxySettings} (h : settings.entries = []) :
    Agree express settings := by
  intro _ remote forwarded hremote hchain
  have htrust : express.trust settings = fun place _ => decide (place < settings.hops) := by
    funext place address
    rw [Express.trust, h]
    rfl
  have hwalk := expressWalk_hops settings.hops 0 remote forwarded
  rw [socketClientAddress_chain hremote hchain, Express.clientAddress, htrust, ← hwalk,
    Nat.sub_zero]
  have hnetworks : configuredTrustedProxyCidrs settings = [] := by
    rw [configuredTrustedProxyCidrs, h]
    rfl
  split_ifs with hhops
  · rfl
  · rw [Nat.eq_zero_of_not_pos hhops, Nat.zero_min]
    rfl

theorem clients_entries (express : Express) {settings : ProxySettings} {remote : Text}
    (h : settings.entries ≠ []) (hremote : IsAddress remote) (hchain : IsChain forwarded) :
    socketClientAddress settings remote (headerOf forwarded) =
        some (walk (configuredTrustedProxyCidrs settings) remote forwarded) ∧
      express.clientAddress settings remote forwarded =
        expressWalk (fun _ => express.trusts settings.entries) 0 remote forwarded := by
  have hpos : 0 < settings.entries.length := List.length_pos_iff.mpr h
  have hhops : ¬ 0 < settings.hops := fun hhops => settings.exclusive ⟨hhops, hpos⟩
  have htrust : express.trust settings = fun _ => express.trusts settings.entries := by
    funext place address
    rw [Express.trust, if_pos hpos]
  rw [socketClientAddress_chain hremote hchain, Express.clientAddress, htrust, if_neg hhops]
  refine ⟨?_, rfl⟩
  split_ifs with hnetworks
  · rw [hnetworks, walk_nil]
  · rfl

/-! ### What the entries cover -/

theorem matches_iff {client : Address} (h : IsAddress value) (hspells : Spells value client)
    (settings : ProxySettings) :
    matchesAnyCidr value (configuredTrustedProxyCidrs settings) = true ↔
      Covered settings.entries client.embed := by
  have hclient : Spells (stripBrackets value) client := by rwa [h.stripped]
  rw [configuredTrustedProxyCidrs, matchesAnyCidr_unmap_iff hclient, Covered]
  simp only [InNetwork, Address.unmap_embed]

section Settings

variable {express : Express} {settings : ProxySettings}

theorem trusts_iff (hdoc : Documented express) {value : Text} {client : Address}
    (h : IsAddress value) (hspells : Spells value client) :
    express.trusts settings.entries value = true ↔
      ∃ entry ∈ settings.entries, express.Trusts entry client.embed.bytes := by
  rw [Express.trusts, hdoc.address value client h hspells]
  simp only [List.any_eq_true, decide_eq_true_eq]

/-- What the gateway trusts, Express trusts. -/
theorem trusts_of_covered (hdoc : Documented express)
    (hreads : ∀ entry ∈ settings.entries, express.reads entry ≠ none) {c : Ipv6}
    (h : Covered settings.entries c) :
    ∃ entry ∈ settings.entries, express.Trusts entry c.bytes := by
  obtain ⟨entry, hentry, address, bits, hnames, hin⟩ := h
  have hshaped := shaped_of_acceptsEntry (settings.entries_accepted entry hentry) fun hname =>
    not_names_range hname hnames
  exact ⟨entry, hentry, (reads_of_names hdoc hshaped hnames (hreads entry hentry) c).1 hin⟩

theorem covered_of_readAlike (hdoc : Documented express)
    (hreads : ∀ entry ∈ settings.entries, express.reads entry ≠ none) {entry : Text}
    (hentry : entry ∈ settings.entries) (halike : ReadAlike entry) {c : Ipv6}
    (h : express.Trusts entry c.bytes) : Covered settings.entries c := by
  obtain ⟨address, bits, hnames, hplain⟩ := halike
  have hshaped := shaped_of_acceptsEntry (settings.entries_accepted entry hentry) fun hname =>
    not_names_range hname hnames
  exact ⟨entry, hentry, address, bits, hnames,
    (reads_of_names hdoc hshaped hnames (hreads entry hentry) c).2 hplain h⟩

/-- A chain of one other address tells whether the peer is trusted. -/
theorem trusted_eq_of_agree (hagree : Agree express settings) (hentries : settings.entries ≠ [])
    (hreads : ∀ entry ∈ settings.entries, express.reads entry ≠ none) {address : Text}
    (haddress : IsAddress address) :
    matchesAnyCidr address (configuredTrustedProxyCidrs settings) =
      express.trusts settings.entries address := by
  obtain ⟨other, hother, hchain⟩ : ∃ other, other ≠ address ∧ IsChain [other] := by
    by_cases he : address = "192.0.2.1".toList
    · exact ⟨"192.0.2.2".toList, by rw [he]; decide, by decide⟩
    · exact ⟨"192.0.2.1".toList, fun h => he h.symm, by decide⟩
  obtain ⟨hgateway, hexpress⟩ := clients_entries express hentries haddress hchain
  have heq := hagree hreads address [other] haddress hchain
  rw [hgateway, hexpress, Option.some.injEq, walk, expressWalk, walk, expressWalk] at heq
  rcases hm : matchesAnyCidr address (configuredTrustedProxyCidrs settings) <;>
    rcases ht : express.trusts settings.entries address <;>
    simp only [hm, ht, if_true, if_false, Bool.false_eq_true] at heq
  · rfl
  · exact absurd heq.symm hother
  · exact absurd heq hother
  · rfl

/-- **The two agree on every chain** exactly if there are no entries, Express refuses one, or what it
reads from the entries that are not read alike is covered by the networks that the gateway reads. -/
theorem agree_iff (express : Express) (hdoc : Documented express) (settings : ProxySettings) :
    Agree express settings ↔ settings.entries = [] ∨
      (∃ entry ∈ settings.entries, express.reads entry = none) ∨
      ∀ entry ∈ settings.entries, ¬ ReadAlike entry → ∀ c : Ipv6, express.Trusts entry c.bytes →
        Covered settings.entries c := by
  constructor
  · intro hagree
    refine or_iff_not_imp_left.mpr fun hentries => or_iff_not_imp_left.mpr fun hnone => ?_
    have hreads : ∀ entry ∈ settings.entries, express.reads entry ≠ none :=
      fun entry hentry hread => hnone ⟨entry, hentry, hread⟩
    intro entry hentry _ c htrusts
    obtain ⟨text, hspells, htext⟩ := exists_text c
    have heq := trusted_eq_of_agree hagree hentries hreads htext
    exact (matches_iff htext hspells settings).mp
      (heq.trans ((trusts_iff hdoc htext hspells).mpr ⟨entry, hentry, htrusts⟩))
  · rintro (hentries | ⟨entry, hentry, hread⟩ | hcovered) hreads remote forwarded hremote hchain
    · exact agree_hops express hentries hreads remote forwarded hremote hchain
    · exact absurd hread (hreads entry hentry)
    · by_cases hentries : settings.entries = []
      · exact agree_hops express hentries hreads remote forwarded hremote hchain
      obtain ⟨hgateway, hexpress⟩ := clients_entries express hentries hremote hchain
      rw [hgateway, hexpress]
      refine congrArg some (walk_eq_expressWalk 0 remote forwarded ?_)
      intro address hmem
      have haddress : IsAddress address := by
        rcases List.mem_cons.mp hmem with rfl | hmem
        · exact hremote
        · exact hchain address hmem
      obtain ⟨client, hspells⟩ := haddress.exists_spells
      rw [Bool.eq_iff_iff, matches_iff haddress hspells, trusts_iff hdoc haddress hspells]
      refine ⟨trusts_of_covered hdoc hreads, ?_⟩
      rintro ⟨entry, hentry, htrusts⟩
      by_cases halike : ReadAlike entry
      · exact covered_of_readAlike hdoc hreads hentry halike htrusts
      · exact hcovered entry hentry halike _ htrusts

end Settings

/-! ### A range name -/

def exampleParse (text : Text) : Option (List ℕ) :=
  match parseIpv4Bytes text with
  | some octets => some (embeddedPrefix ++ octets)
  | none => parseIpv6Bytes text

def exampleReads (entry : Text) : Option (List Network) :=
  if (rangeNetworks entry).length ≠ 0 then some (rangeNetworks entry)
  else
    match entry.splitOn '/' with
    | [part] => (exampleParse part).map fun base => [⟨base, 128⟩]
    | [part, bits] =>
      let width := if isIPv4 part then 32 else 128
      if 0 < parseDecimal bits ∧ parseDecimal bits ≤ width then
        (exampleParse part).map fun base => [⟨base, 128 - width + parseDecimal bits⟩]
      else none
    | _ => none

/-- An Express that refuses what is no range name, address or network. -/
def exampleExpress : Express := ⟨exampleParse, exampleReads⟩

theorem exampleParse_of_spells {text : Text} (h : Spells text address) :
    exampleParse text = some address.embed.bytes ∧
      (if isIPv4 text then 32 else 128) = address.width := by
  unfold exampleParse
  cases h with
  | v4 a hquad =>
    rw [(quadText_iff _ _).mp hquad, Address.embed, a.bytes_embed,
      (isIPv4_iff text).mpr ⟨_, hquad⟩]
    exact ⟨rfl, rfl⟩
  | v6 a haddress =>
    have hnone := parseIpv4Bytes_of_addressText haddress
    have hv4 : isIPv4 text = false := by
      rw [parseIpv4Bytes] at hnone
      split_ifs at hnone with hv4
      exact Bool.eq_false_iff.mpr hv4
    rw [hnone, hv4]
    exact ⟨parseIpv6Bytes_of_addressText haddress rfl, rfl⟩

theorem range_unread : ∀ name ∈ rangeNames,
    name.splitOn '/' = [name] ∧ exampleParse name = none := by decide

theorem length_rangeNetworks (entry : Text) :
    (rangeNetworks entry).length ≠ 0 ↔ entry ∈ rangeNames := by
  constructor
  · intro h
    by_contra hname
    simp only [rangeNames, List.mem_cons, List.not_mem_nil, or_false, not_or] at hname
    rw [rangeNetworks, if_neg hname.1, if_neg hname.2.1, if_neg hname.2.2] at h
    exact h rfl
  · have hlength : ∀ name ∈ rangeNames, (rangeNetworks name).length ≠ 0 := by decide
    exact hlength entry

theorem exampleExpress_documented : Documented exampleExpress where
  address _ _ _ h := (exampleParse_of_spells h).1
  range name h := if_pos ((length_rangeNetworks name).mpr h)
  host entry part address hsplit _ hspells := by
    obtain ⟨hparse, -⟩ := exampleParse_of_spells hspells
    have hname : entry ∉ rangeNames := fun hname => by
      obtain ⟨hself, hnone⟩ := range_unread entry hname
      obtain rfl := List.singleton_injective (hself.symm.trans hsplit)
      rw [hnone] at hparse
      cases hparse
    show exampleReads entry = _
    unfold exampleReads
    rw [if_neg (mt (length_rangeNetworks entry).mp hname), hsplit]
    simp only [hparse, Option.map_some]
  network entry part bits address hsplit _ hspells _ := by
    obtain ⟨hparse, hwidth⟩ := exampleParse_of_spells hspells
    have hname : entry ∉ rangeNames := fun hname => by
      rw [(range_unread entry hname).1] at hsplit
      cases hsplit
    show exampleReads entry = _
    unfold exampleReads
    rw [if_neg (mt (length_rangeNetworks entry).mp hname), hsplit]
    simp only [hparse, hwidth, Option.map_some]

/-- The networks of a range name are listed beside it. -/
def coveredSettings : ProxySettings :=
  (parseSettings 0 "loopback, 127.0.0.1/8, ::1".toList).get (by decide)

def localAddress : Ipv4 := ⟨[127, 0, 0, 1], rfl, by decide⟩

def localAddress6 : Ipv6 := ⟨[0, 0, 0, 0, 0, 0, 0, 1], rfl, by decide⟩

theorem local_names : Names "127.0.0.1/8".toList (.v4 localAddress) 8 :=
  .network (by decide : _ = ["127.0.0.1".toList, "8".toList])
    (.v4 _ ((quadText_iff _ _).mpr (by decide))) (by decide) (by decide)

theorem local_names6 : Names "::1".toList (.v6 localAddress6) 128 := by
  have hgroups : GroupsText "1".toList [1] := (groupsText_iff _ _).mpr (by decide)
  have haddress : AddressText "::1".toList [0, 0, 0, 0, 0, 0, 0, 1] :=
    .compressed .nothing (.some (.groups hgroups)) (by decide)
  exact .host (by decide : _ = ["::1".toList]) (.v6 _ haddress)

theorem covered_agrees : Agree exampleExpress coveredSettings := by
  refine (agree_iff exampleExpress exampleExpress_documented coveredSettings).mpr
    (.inr (.inr fun entry hentry hunlike c htrusts => ?_))
  have hentries : coveredSettings.entries =
      ["loopback".toList, "127.0.0.1/8".toList, "::1".toList] := by decide
  rw [hentries] at hentry ⊢
  have hthree : entry = "loopback".toList ∨ entry = "127.0.0.1/8".toList ∨
      entry = "::1".toList := by
    simpa only [List.mem_cons, List.not_mem_nil, or_false] using hentry
  rcases hthree with rfl | rfl | rfl
  · obtain ⟨network, hnetwork, hcontains⟩ := htrusts
    have hrange : (exampleExpress.reads "loopback".toList).getD [] =
        [⟨embeddedPrefix ++ localAddress.octets, 96 + 8⟩, ⟨localAddress6.bytes, 128⟩] := rfl
    rw [hrange] at hnetwork
    rw [contains_iff] at hcontains
    rcases List.mem_pair.mp hnetwork with rfl | rfl
    · rw [← localAddress.bytes_embed] at hcontains
      exact ⟨_, List.mem_cons_of_mem _ List.mem_cons_self, _, _, local_names,
        (inNetwork_v4_iff rfl 8 c).mp hcontains⟩
    · exact ⟨_, List.mem_cons_of_mem _ (List.mem_cons_of_mem _ List.mem_cons_self), _, _,
        local_names6, (inNetwork_host_iff (.v6 localAddress6) c).mp hcontains⟩
  · exact absurd ⟨_, _, local_names, fun _ h => h⟩ hunlike
  · exact absurd ⟨_, _, local_names6, fun h => absurd h (by decide)⟩ hunlike

/-- A range name alone. -/
def exampleSettings : ProxySettings := (parseSettings 0 "loopback".toList).get (by decide)

theorem loopback_disagrees : Documented exampleExpress ∧
    socketClientAddress exampleSettings "127.0.0.1".toList (headerOf ["203.0.113.9".toList]) =
        some "127.0.0.1".toList ∧
      exampleExpress.clientAddress exampleSettings "127.0.0.1".toList ["203.0.113.9".toList] =
        "203.0.113.9".toList ∧
      ¬ Agree exampleExpress exampleSettings := by
  have hgateway : socketClientAddress exampleSettings "127.0.0.1".toList
      (headerOf ["203.0.113.9".toList]) = some "127.0.0.1".toList := by decide
  have hexpress : exampleExpress.clientAddress exampleSettings "127.0.0.1".toList
      ["203.0.113.9".toList] = "203.0.113.9".toList := by decide +kernel
  refine ⟨exampleExpress_documented, hgateway, hexpress, fun hagree => ?_⟩
  have hreads : ∀ entry ∈ exampleSettings.entries, exampleExpress.reads entry ≠ none := by
    intro entry hentry
    obtain rfl := List.mem_singleton.mp hentry
    exact Option.some_ne_none _
  have heq := hagree hreads "127.0.0.1".toList ["203.0.113.9".toList] (by decide) (by decide)
  rw [hgateway, hexpress] at heq
  exact absurd heq (by decide)

end BackendFoundation.Http.TrustAgreement
