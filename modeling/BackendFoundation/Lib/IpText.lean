import Mathlib.Data.Int.Notation
import Mathlib.Data.List.Forall2
import Mathlib.Data.Nat.Digits.Defs
import Mathlib.Tactic.Common

/-! # Internet addresses and how they are written

An IPv4 address is written as a dotted quad of decimal octets. An IPv6 address is written as groups
of hexadecimal digits between colons; its last two groups may be written as a dotted quad, and `::`
stands once for one or more groups of zeros. The relations between a text and what it says
(`QuadText`, `AddressText`) are the grammar of the standard, with every choice that it leaves: the
case of a digit, the zeros that a group starts with, the place of `::`.

An address of IPv6 may embed one of IPv4 (`Ipv6.mapped`). -/

namespace BackendFoundation.Lib.IpText

abbrev Text := List Char

/-! ### Addresses -/

structure Ipv4 where
  octets : List ℕ
  length_octets : octets.length = 4
  octet_lt : ∀ o ∈ octets, o < 256
deriving DecidableEq

structure Ipv6 where
  groups : List ℕ
  length_groups : groups.length = 8
  group_lt : ∀ g ∈ groups, g < 65536
deriving DecidableEq

inductive Address
  | v4 (address : Ipv4)
  | v6 (address : Ipv6)
deriving DecidableEq

/-- The two octets of a group. -/
def groupBytes (g : ℕ) : List ℕ := [g / 256, g % 256]

def Ipv6.bytes (address : Ipv6) : List ℕ := address.groups.flatMap groupBytes

theorem groupBytes_lt {g : ℕ} (h : g < 65536) : ∀ b ∈ groupBytes g, b < 256 := by
  intro b hb
  simp only [groupBytes, List.mem_cons, List.not_mem_nil, or_false] at hb
  omega

theorem flatMap_groupBytes_injective : Function.Injective (List.flatMap groupBytes) := by
  intro ms
  induction ms with
  | nil =>
    rintro (_ | ⟨n, ns⟩) h
    · rfl
    · simp [groupBytes] at h
  | cons m ms ih =>
    rintro (_ | ⟨n, ns⟩) h
    · simp [groupBytes] at h
    · simp only [List.flatMap_cons, groupBytes, List.cons_append, List.nil_append,
        List.cons.injEq] at h
      obtain ⟨hhigh, hlow, hrest⟩ := h
      rw [ih hrest, show m = n by omega]

/-- The address of IPv4 that `::ffff:a.b.c.d` embeds. -/
def Ipv6.mapped (address : Ipv6) : Option Ipv4 :=
  if h : address.groups.take 6 = [0, 0, 0, 0, 0, 65535] then
    some
      { octets := (address.groups.drop 6).flatMap groupBytes
        length_octets := by
          simp [groupBytes, List.length_flatMap, address.length_groups]
        octet_lt := by
          intro o ho
          obtain ⟨g, hg, hog⟩ := List.mem_flatMap.mp ho
          exact groupBytes_lt (address.group_lt g (List.mem_of_mem_drop hg)) o hog }
  else none

theorem Ipv6.exists_groups (address : Ipv6) :
    ∃ a b c d e f g h, address.groups = [a, b, c, d, e, f, g, h] := by
  obtain ⟨groups, hlen, -⟩ := address
  match groups, hlen with
  | [a, b, c, d, e, f, g, h], _ => exact ⟨a, b, c, d, e, f, g, h, rfl⟩

theorem Ipv6.mapped_octets {address : Ipv6} {embedded : Ipv4} (h : address.mapped = some embedded) :
    embedded.octets = address.bytes.drop 12 := by
  unfold Ipv6.mapped at h
  split_ifs at h
  obtain rfl := Option.some.inj h
  obtain ⟨a, b, c, d, e, f, g, k, hgroups⟩ := address.exists_groups
  simp [Ipv6.bytes, hgroups, groupBytes]

/-- The address, without the embedding of IPv4 in IPv6. -/
def Address.unmap : Address → Address
  | .v4 address => .v4 address
  | .v6 address => (address.mapped.map Address.v4).getD (.v6 address)

def Address.bytes : Address → List ℕ
  | .v4 address => address.octets
  | .v6 address => address.bytes

/-- The number of bits of an address. -/
def Address.width : Address → ℕ
  | .v4 _ => 32
  | .v6 _ => 128

theorem Ipv6.length_bytes (address : Ipv6) : address.bytes.length = 16 := by
  simp [Ipv6.bytes, groupBytes, List.length_flatMap, address.length_groups]

theorem Address.length_bytes (address : Address) : address.bytes.length * 8 = address.width := by
  cases address with
  | v4 address => rw [Address.bytes, address.length_octets]; rfl
  | v6 address => rw [Address.bytes, address.length_bytes]; rfl

theorem Address.byte_lt (address : Address) : ∀ b ∈ address.bytes, b < 256 := by
  cases address with
  | v4 address => exact address.octet_lt
  | v6 address =>
    intro b hb
    obtain ⟨g, hg, hbg⟩ := List.mem_flatMap.mp hb
    exact groupBytes_lt (address.group_lt g hg) b hbg

/-- Two addresses of IPv4, or two of IPv6. -/
def SameFamily : Address → Address → Prop
  | .v4 _, .v4 _ => True
  | .v6 _, .v6 _ => True
  | _, _ => False

theorem SameFamily.width_eq {a b : Address} (h : SameFamily a b) : a.width = b.width := by
  cases a <;> cases b <;> first | rfl | exact h.elim

/-! ### Numbers -/

def decDigit (d : Fin 10) : Char := Char.ofNat (48 + d)

/-- A decimal octet, without zeros before it. -/
inductive OctetText : Text → ℕ → Prop
  | one (a : Fin 10) : OctetText [decDigit a] a
  | two (a b : Fin 10) : a ≠ 0 → OctetText [decDigit a, decDigit b] (10 * a + b)
  | three (a b c : Fin 10) : a ≠ 0 → 100 * a.val + 10 * b.val + c.val < 256 →
    OctetText [decDigit a, decDigit b, decDigit c] (100 * a + 10 * b + c)

/-- A hexadecimal digit, of either case. -/
inductive HexDigitText : Char → ℕ → Prop
  | digit (d : ℕ) : d < 10 → HexDigitText (Char.ofNat (48 + d)) d
  | lower (d : ℕ) : 10 ≤ d → d < 16 → HexDigitText (Char.ofNat (87 + d)) d
  | upper (d : ℕ) : 10 ≤ d → d < 16 → HexDigitText (Char.ofNat (55 + d)) d

/-- A group: one to four hexadecimal digits. -/
def GroupText (text : Text) (n : ℕ) : Prop :=
  ∃ digits, List.Forall₂ HexDigitText text digits ∧ text ≠ [] ∧ text.length ≤ 4 ∧
    n = digits.foldl (fun m d => m * 16 + d) 0

/-! ### Texts of addresses -/

/-- Four octets between dots. -/
def QuadText (text : Text) (octets : List ℕ) : Prop :=
  ∃ parts, text = ['.'].intercalate parts ∧ parts.length = 4 ∧ List.Forall₂ OctetText parts octets

/-- One or more groups between colons. -/
def GroupsText (text : Text) (groups : List ℕ) : Prop :=
  ∃ parts, parts ≠ [] ∧ text = [':'].intercalate parts ∧ List.Forall₂ GroupText parts groups

/-- The two groups that a dotted quad is written for. -/
def quadGroups : List ℕ → List ℕ
  | [a, b, c, d] => [a * 256 + b, c * 256 + d]
  | _ => []

/-- Groups at the end of an address: the last two may be a dotted quad. -/
inductive TailText : Text → List ℕ → Prop
  | groups {text : Text} {ns : List ℕ} : GroupsText text ns → TailText text ns
  | quad {text : Text} {octets : List ℕ} : QuadText text octets → TailText text (quadGroups octets)
  | groupsQuad {text quad : Text} {ns octets : List ℕ} : GroupsText text ns →
    QuadText quad octets → TailText (text ++ ':' :: quad) (ns ++ quadGroups octets)

/-- A text that may be missing. -/
inductive OrNothing (P : Text → List ℕ → Prop) : Text → List ℕ → Prop
  | nothing : OrNothing P [] []
  | some {text : Text} {ns : List ℕ} : P text ns → OrNothing P text ns

/-- The groups that the text of an IPv6 address says. -/
inductive AddressText : Text → List ℕ → Prop
  | full {text : Text} {ns : List ℕ} : TailText text ns → ns.length = 8 → AddressText text ns
  | compressed {left right : Text} {ls rs : List ℕ} : OrNothing GroupsText left ls →
    OrNothing TailText right rs → ls.length + rs.length ≤ 7 →
    AddressText (left ++ ':' :: ':' :: right)
      (ls ++ List.replicate (8 - ls.length - rs.length) 0 ++ rs)

/-! ### Lists of parts -/

/-- A relation that a function decides and computes, on lists. -/
theorem forall₂_iff_map {α β : Type} {R : α → β → Prop} {p : α → Bool} {f : α → β}
    (h : ∀ a b, R a b ↔ p a = true ∧ b = f a) {as : List α} {bs : List β} :
    List.Forall₂ R as bs ↔ as.all p = true ∧ bs = as.map f := by
  induction as generalizing bs with
  | nil =>
    rw [List.forall₂_nil_left_iff]
    simp
  | cons a as ih =>
    cases bs with
    | nil => simp
    | cons b bs =>
      rw [List.forall₂_cons, h, ih]
      simp only [List.all_cons, Bool.and_eq_true, List.map_cons, List.cons.injEq]
      tauto

theorem intercalate_cons_cons (sep : Char) (a b : Text) (rest : List Text) :
    [sep].intercalate (a :: b :: rest) = a ++ sep :: [sep].intercalate (b :: rest) := by
  simp [List.intercalate]

theorem mem_of_mem_intercalate {sep c : Char} {parts : List Text}
    (h : c ∈ [sep].intercalate parts) : c = sep ∨ ∃ part ∈ parts, c ∈ part := by
  induction parts with
  | nil => cases h
  | cons a rest ih =>
    cases rest with
    | nil =>
      rw [List.intercalate, List.intersperse_singleton, List.flatten_singleton] at h
      exact .inr ⟨a, List.mem_cons_self, h⟩
    | cons b rest =>
      rw [intercalate_cons_cons, List.mem_append, List.mem_cons] at h
      rcases h with ha | hsep | hrest
      · exact .inr ⟨a, List.mem_cons_self, ha⟩
      · exact .inl hsep
      · rcases ih hrest with hsep | ⟨part, hpart, hc⟩
        · exact .inl hsep
        · exact .inr ⟨part, List.mem_cons_of_mem _ hpart, hc⟩

theorem intercalate_append (sep : Char) {as bs : List Text} (ha : as ≠ []) (hb : bs ≠ []) :
    [sep].intercalate (as ++ bs) = [sep].intercalate as ++ sep :: [sep].intercalate bs := by
  induction as with
  | nil => exact absurd rfl ha
  | cons a rest ih =>
    cases rest with
    | nil =>
      obtain ⟨b, bs, rfl⟩ := List.exists_cons_of_ne_nil hb
      rw [List.cons_append, List.nil_append, intercalate_cons_cons]
      simp [List.intercalate]
    | cons a' rest =>
      rw [List.cons_append, List.cons_append, intercalate_cons_cons, intercalate_cons_cons,
        ← List.cons_append, ih (List.cons_ne_nil a' rest), List.append_assoc]
      rfl

theorem intercalate_ne_nil (sep : Char) {parts : List Text} (hne : parts ≠ [])
    (h : ∀ part ∈ parts, part ≠ []) : [sep].intercalate parts ≠ [] := by
  obtain ⟨a, rest, rfl⟩ := List.exists_cons_of_ne_nil hne
  cases rest with
  | nil => simpa [List.intercalate] using h a List.mem_cons_self
  | cons b rest =>
    rw [intercalate_cons_cons]
    simp

theorem GroupsText.append {a b : Text} {ms ns : List ℕ} (ha : GroupsText a ms)
    (hb : GroupsText b ns) : GroupsText (a ++ ':' :: b) (ms ++ ns) := by
  obtain ⟨as, hane, rfl, has⟩ := ha
  obtain ⟨bs, hbne, rfl, hbs⟩ := hb
  exact ⟨as ++ bs, List.append_ne_nil_of_left_ne_nil hane _,
    (intercalate_append ':' hane hbne).symm, List.rel_append has hbs⟩

variable {text : Text}

theorem GroupText.groupsText {n : ℕ} (h : GroupText text n) : GroupsText text [n] :=
  ⟨[text], List.cons_ne_nil _ _, by simp [List.intercalate], .cons h .nil⟩

/-! ### Bounds -/

theorem OctetText.lt {n : ℕ} (h : OctetText text n) : n < 256 := by
  cases h with
  | one a => omega
  | two a b => omega
  | three a b c _ hlt => exact hlt

theorem QuadText.length_eq {octets : List ℕ} (h : QuadText text octets) : octets.length = 4 := by
  obtain ⟨parts, -, hlen, hoctets⟩ := h
  rw [← hoctets.length_eq, hlen]

theorem QuadText.lt {octets : List ℕ} (h : QuadText text octets) : ∀ o ∈ octets, o < 256 := by
  obtain ⟨parts, -, -, hoctets⟩ := h
  intro o ho
  obtain ⟨i, hi, rfl⟩ := List.getElem_of_mem ho
  exact (hoctets.get (by rw [hoctets.length_eq]; exact hi) hi).lt

theorem HexDigitText.lt {c : Char} {d : ℕ} (h : HexDigitText c d) : d < 16 := by
  cases h with
  | digit d hd => omega
  | lower d _ hd => exact hd
  | upper d _ hd => exact hd

/-! ### Embedding -/

/-- The bytes before the octets of an embedded IPv4 address. -/
def embeddedPrefix : List ℕ := [0, 0, 0, 0, 0, 0, 0, 0, 0, 0, 255, 255]

theorem Ipv4.exists_octets (address : Ipv4) : ∃ a b c d, address.octets = [a, b, c, d] := by
  obtain ⟨octets, hlen, -⟩ := address
  match octets, hlen with
  | [a, b, c, d], _ => exact ⟨a, b, c, d, rfl⟩

/-- The address of IPv6 that embeds an address of IPv4. -/
def Ipv4.embed (address : Ipv4) : Ipv6 where
  groups := [0, 0, 0, 0, 0, 65535] ++ quadGroups address.octets
  length_groups := by
    obtain ⟨a, b, c, d, hoctets⟩ := address.exists_octets
    rw [hoctets]
    rfl
  group_lt := by
    obtain ⟨a, b, c, d, hoctets⟩ := address.exists_octets
    have hlt := address.octet_lt
    rw [hoctets] at hlt ⊢
    simp only [List.forall_mem_cons] at hlt
    simp [quadGroups]
    omega

theorem Ipv4.bytes_embed (address : Ipv4) :
    address.embed.bytes = embeddedPrefix ++ address.octets := by
  obtain ⟨a, b, c, d, hoctets⟩ := address.exists_octets
  have hlt := address.octet_lt
  rw [hoctets] at hlt
  simp only [List.forall_mem_cons] at hlt
  simp [Ipv6.bytes, Ipv4.embed, quadGroups, groupBytes, hoctets, embeddedPrefix]
  omega

theorem Ipv6.bytes_of_mapped {address : Ipv6} {embedded : Ipv4}
    (h : address.mapped = some embedded) : address.bytes = embeddedPrefix ++ embedded.octets := by
  have htake : address.bytes.take 12 = embeddedPrefix := by
    obtain ⟨a, b, c, d, e, f, g, k, hgroups⟩ := address.exists_groups
    unfold Ipv6.mapped at h
    split_ifs at h with hsix
    simp only [hgroups, List.take_succ_cons, List.take_zero, List.cons.injEq, and_true] at hsix
    obtain ⟨rfl, rfl, rfl, rfl, rfl, rfl⟩ := hsix
    simp [Ipv6.bytes, hgroups, groupBytes, embeddedPrefix]
  rw [Ipv6.mapped_octets h, ← htake, List.take_append_drop]

theorem Ipv4.mapped_embed (address : Ipv4) : address.embed.mapped = some address := by
  obtain ⟨embedded, h⟩ : ∃ embedded, address.embed.mapped = some embedded := by
    unfold Ipv6.mapped
    split_ifs with hsix
    · exact ⟨_, rfl⟩
    · exact absurd rfl hsix
  have hbytes := Ipv6.bytes_of_mapped h
  rw [address.bytes_embed] at hbytes
  have hoctets := List.append_cancel_left hbytes
  rw [h]
  cases address
  cases embedded
  cases hoctets
  rfl

/-- The address as one of IPv6. -/
def Address.embed : Address → Ipv6
  | .v4 address => address.embed
  | .v6 address => address

theorem Address.unmap_embed (address : Address) :
    (Address.v6 address.embed).unmap = address.unmap := by
  cases address with
  | v4 address =>
    show (address.embed.mapped.map Address.v4).getD (.v6 address.embed) = .v4 address
    rw [address.mapped_embed]
    rfl
  | v6 address => rfl

end BackendFoundation.Lib.IpText
