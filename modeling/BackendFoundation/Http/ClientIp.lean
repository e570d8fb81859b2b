import Mathlib.Algebra.Group.Nat.Defs
import Mathlib.Data.Int.Notation
import Mathlib.Data.List.DropRight
import Mathlib.Tactic.Common

/-! # Client addresses

`lib/client-ip.ts`: parsing an address, matching it against networks, and resolving the client of a
chain of proxies. `isIPv4` and `isIPv6` are those of `node:net`, on texts without a zone. -/

namespace BackendFoundation.Http.ClientIp

abbrev Text := List Char

/-! ### Texts -/

def isWhiteSpace (c : Char) : Bool :=
  c.toNat ∈ [9, 10, 11, 12, 13, 32, 160, 5760, 8232, 8233, 8239, 8287, 12288, 65279] ||
    (8192 ≤ c.toNat && c.toNat ≤ 8202)

/-- `String.prototype.trim`. -/
def trim (text : Text) : Text := (text.dropWhile isWhiteSpace).rdropWhile isWhiteSpace

/-- `text.split('::')`. -/
def splitDoubleColon : Text → List Text
  | [] => [[]]
  | ':' :: ':' :: rest => [] :: splitDoubleColon rest
  | c :: rest => (splitDoubleColon rest).modifyHead (c :: ·)

def isHexDigit (c : Char) : Bool :=
  c.isDigit || ('a' ≤ c && c ≤ 'f') || ('A' ≤ c && c ≤ 'F')

def hexDigitValue (c : Char) : ℕ :=
  if c.isDigit then c.toNat - 48
  else if 'a' ≤ c then c.toNat - 87
  else c.toNat - 55

/-- `Number.parseInt(text, 16)`, of hexadecimal digits. -/
def parseHex (text : Text) : ℕ := text.foldl (fun n c => n * 16 + hexDigitValue c) 0

/-- `Number(text)`, of decimal digits. -/
def parseDecimal (text : Text) : ℕ := text.foldl (fun n c => n * 10 + (c.toNat - 48)) 0

/-! ### Addresses -/

def isOctet (text : Text) : Bool :=
  text ≠ [] && text.all Char.isDigit && text.length ≤ 3 &&
    (text.length = 1 || text.head? ≠ some '0') && parseDecimal text ≤ 255

def isIPv4 (value : Text) : Bool :=
  (value.splitOn '.').length = 4 && (value.splitOn '.').all isOctet

/-- `/^[0-9a-f]{1,4}$/i`. -/
def isGroup (text : Text) : Bool :=
  text ≠ [] && text.length ≤ 4 && text.all isHexDigit

/-- The number of groups between colons; a dotted quad at the end counts for two. -/
def countGroups (mayEmbed : Bool) (text : Text) : Option ℕ :=
  let groups := text.splitOn ':'
  if text = [] then some 0
  else if groups.all isGroup then some groups.length
  else if mayEmbed && groups.dropLast.all isGroup && (groups.getLast?.map isIPv4).getD false then
    some (groups.length + 1)
  else none

def isIPv6 (value : Text) : Bool :=
  match splitDoubleColon value with
  | [whole] => countGroups true whole = some 8
  | [left, right] =>
    match countGroups false left, countGroups true right with
    | some l, some r => l + r ≤ 7
    | _, _ => false
  | _ => false

inductive Family
  | v4 | v6
deriving DecidableEq

structure ParsedIp where
  family : Family
  bytes : List ℕ
deriving DecidableEq

def parseIpv4Bytes (value : Text) : Option (List ℕ) :=
  if isIPv4 value then some ((value.splitOn '.').map parseDecimal) else none

/-- The text up to and with its last colon, and what follows it. -/
def splitLastColon (value : Text) : Text × Text :=
  (value.rdropWhile (· ≠ ':'), value.rtakeWhile (· ≠ ':'))

/-- A dotted quad at the end, rewritten into two groups. -/
def rewriteEmbedded (value : Text) : Option Text :=
  let (start, tail) := splitLastColon value
  if '.' ∈ tail then
    match parseIpv4Bytes tail with
    | some [a, b, c, d] =>
      some (start ++ Nat.toDigits 16 (a * 256 + b) ++ ':' :: Nat.toDigits 16 (c * 256 + d))
    | _ => none
  else some value

/-- The groups of an address, with those that `::` stands for. -/
def expandGroups (value : Text) : Option (List Text) :=
  match splitDoubleColon value with
  | [whole] => some (whole.splitOn ':')
  | [left, right] =>
    let left := if left = [] then [] else left.splitOn ':'
    let right := if right = [] then [] else right.splitOn ':'
    if left.length + right.length + 1 ≤ 8 then
      some (left ++ List.replicate (8 - left.length - right.length) ['0'] ++ right)
    else none
  | _ => none

def parseIpv6Bytes (input : Text) : Option (List ℕ) := do
  let value ← rewriteEmbedded (input.takeWhile (· ≠ '%'))
  let groups ← expandGroups value
  if groups.length ≠ 8 then none
  else if groups.all isGroup then
    some (groups.flatMap fun group => [parseHex group / 256 % 256, parseHex group % 256])
  else none

def isIpv4Mapped (bytes : List ℕ) : Bool :=
  (bytes.take 10).all (· = 0) && bytes[10]? = some 255 && bytes[11]? = some 255

/-- `value.trim().replace(/^\[|\]$/g, '')`. -/
def stripBrackets (value : Text) : Text :=
  let text := trim value
  let text := if text.head? = some '[' then text.tail else text
  if text.getLast? = some ']' then text.dropLast else text

/-- **`parseClientIp`**: the bytes of an address; an IPv4-mapped one is unwrapped. -/
def parseClientIp (value : Text) : Option ParsedIp :=
  let trimmed := stripBrackets value
  if trimmed = [] then none
  else
    match parseIpv4Bytes trimmed with
    | some ipv4 => some ⟨.v4, ipv4⟩
    | none =>
      if isIPv6 (trimmed.takeWhile (· ≠ '%')) then
        match parseIpv6Bytes trimmed with
        | none => none
        | some ipv6 =>
          if isIpv4Mapped ipv6 then some ⟨.v4, ipv6.drop 12⟩ else some ⟨.v6, ipv6⟩
      else none

/-! ### Buckets -/

def UNRESOLVED_CLIENT_IP : Text := "ip:unresolved".toList

/-- Bits of an IPv6 address that identify the allocation rather than the host. -/
def IPV6_BUCKET_BITS : ℕ := 64

/-- The first `count` bytes, two by two in hexadecimal digits. -/
def hextets (bytes : List ℕ) (count : ℕ) : Text :=
  let groups := (List.range' 0 ((count + 1) / 2) 2).map fun index =>
    Nat.toDigits 16 (bytes.getD index 0 * 256 + bytes.getD (index + 1) 0)
  [':'].intercalate groups

/-- **`clientIpKey`**: the rate-limit bucket of a client address. -/
def clientIpKey (value : Option Text) : Text :=
  match value.bind parseClientIp with
  | none => UNRESOLVED_CLIENT_IP
  | some ⟨.v4, bytes⟩ => "ip4:".toList ++ ['.'].intercalate (bytes.map (Nat.toDigits 10))
  | some ⟨.v6, bytes⟩ => "ip6:".toList ++ hextets bytes (IPV6_BUCKET_BITS / 8)

/-! ### Networks -/

structure ParsedCidr where
  family : Family
  bytes : List ℕ
  bits : ℕ
deriving DecidableEq

/-- **`parseCidr`**: a network, or an address as a network of one host. -/
def parseCidr (input : Text) : Option ParsedCidr :=
  match (trim input).splitOn '/' with
  | [address] =>
    if address = [] then none
    else (parseClientIp address).map fun parsed =>
      ⟨parsed.family, parsed.bytes, parsed.bytes.length * 8⟩
  | [address, prefixText] =>
    if address = [] then none
    else
      match parseClientIp address with
      | none => none
      | some parsed =>
        if prefixText ≠ [] ∧ prefixText.length ≤ 3 ∧ prefixText.all Char.isDigit then
          if parseDecimal prefixText ≤ parsed.bytes.length * 8 then
            some ⟨parsed.family, parsed.bytes, parseDecimal prefixText⟩
          else none
        else none
  | _ => none

def withinPrefix (candidate network : List ℕ) (bits : ℕ) : Bool :=
  let wholeBytes := bits / 8
  let remainingBits := bits % 8
  let mask := (0xff <<< (8 - remainingBits)) &&& 0xff
  candidate.take wholeBytes = network.take wholeBytes &&
    (remainingBits = 0 ||
      candidate.getD wholeBytes 0 &&& mask = network.getD wholeBytes 0 &&& mask)

def matchesAnyCidr (value : Text) (networks : List ParsedCidr) : Bool :=
  match parseClientIp value with
  | none => false
  | some parsed =>
    networks.any fun network =>
      network.family = parsed.family && withinPrefix parsed.bytes network.bytes network.bits

/-! ### The chain of proxies -/

/-- The value of the header: absent, one text, or several. -/
inductive HeaderValue
  | absent
  | one (text : Text)
  | many (texts : List Text)

structure TrustedProxyInput where
  remoteAddress : Option Text
  forwardedFor : HeaderValue
  trustedHops : ℕ
  trustedCidrs : List ParsedCidr

/-- The text of the header; several values are joined. -/
def HeaderValue.raw : HeaderValue → Text
  | .absent => []
  | .one text => text
  | .many texts => [','].intercalate texts

/-- The entries of the header, the last one first. -/
def forwardedEntries (raw : Text) : List Text :=
  (((raw.splitOn ',').map trim).filter (· ≠ [])).reverse

/-- The walk over the entries: on to the next while the address is in a trusted network. -/
def walk (networks : List ParsedCidr) : Text → List Text → Text
  | address, [] => address
  | address, candidate :: rest =>
    if matchesAnyCidr address networks then walk networks candidate rest else address

/-- **`trustedClientAddress`**. -/
def trustedClientAddress (input : TrustedProxyInput) : Option Text :=
  match input.remoteAddress.map trim with
  | none => none
  | some remote =>
    if remote = [] ∨ parseClientIp remote = none then none
    else
      let forwarded := forwardedEntries input.forwardedFor.raw
      if forwarded.any fun value => parseClientIp value = none then some remote
      else if 0 < input.trustedHops then
        let chain := remote :: forwarded
        chain[min input.trustedHops (chain.length - 1)]?
      else if input.trustedCidrs = [] then some remote
      else some (walk input.trustedCidrs remote forwarded)

example : parseClientIp "::ffff:203.0.113.7".toList = some ⟨.v4, [203, 0, 113, 7]⟩ := by decide

example : (parseCidr "192.168.4.0/22".toList).map (fun network =>
    [matchesAnyCidr "192.168.7.255".toList [network],
      matchesAnyCidr "192.168.8.1".toList [network]]) = some [true, false] := by decide

end BackendFoundation.Http.ClientIp
