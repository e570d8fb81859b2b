import BackendFoundation.Http.Forwarded
import Mathlib.Data.List.Dedup

/-! # The proxy settings

`TRUST_PROXY_HOPS` and `TRUST_PROXY_CIDRS`, as the environment schema accepts them, and what the chat
gateway makes of them: it keeps the entries that `parseCidr` reads, and drops the others. -/

namespace BackendFoundation.Http.TrustProxy

open Http.ClientIp Http.Forwarded

/-! ### The settings -/

def rangeNames : List Text := ["loopback".toList, "linklocal".toList, "uniquelocal".toList]

/-- One to `max` decimal digits. -/
def isDigits (max : ℕ) (text : Text) : Bool :=
  text ≠ [] && text.length ≤ max && text.all Char.isDigit

/-- `/^(?:\d{1,3}\.){3}\d{1,3}(?:\/\d{1,2})?$/`. -/
def looksLikeIPv4 (value : Text) : Bool :=
  let quad (text : Text) : Bool :=
    (text.splitOn '.').length = 4 && (text.splitOn '.').all (isDigits 3)
  match value.splitOn '/' with
  | [address] => quad address
  | [address, bits] => quad address && isDigits 2 bits
  | _ => false

/-- `/^[0-9a-f:]+(?:\/\d{1,3})?$/i`. -/
def looksLikeIPv6 (value : Text) : Bool :=
  let groups (text : Text) : Bool := text ≠ [] && text.all fun c => isHexDigit c || c = ':'
  match value.splitOn '/' with
  | [address] => groups address
  | [address, bits] => groups address && isDigits 3 bits
  | _ => false

def acceptsEntry (value : Text) : Bool :=
  value ∈ rangeNames || looksLikeIPv4 value || looksLikeIPv6 value

/-- `commaSeparatedList`: the entries of a text, each once. -/
def commaSeparatedList (value : Text) : List Text :=
  (((value.splitOn ',').map trim).filter (· ≠ [])).reverse.dedup.reverse

/-- The settings that the environment schema accepts. -/
structure ProxySettings where
  hops : ℕ
  entries : List Text
  hops_le : hops ≤ 20
  entries_le : entries.length ≤ 50
  entries_nodup : entries.Nodup
  entries_accepted : ∀ entry ∈ entries, acceptsEntry entry = true
  exclusive : ¬ (0 < hops ∧ 0 < entries.length)

/-- What the schema makes of the two variables. -/
def parseSettings (hops : ℕ) (cidrs : Text) : Option ProxySettings :=
  let entries := commaSeparatedList cidrs
  if h : hops ≤ 20 ∧ entries.length ≤ 50 ∧ (∀ entry ∈ entries, acceptsEntry entry = true) ∧
      ¬ (0 < hops ∧ 0 < entries.length) then
    some
      { hops := hops
        entries := entries
        hops_le := h.1
        entries_le := h.2.1
        entries_nodup := List.nodup_reverse.mpr (List.nodup_dedup _)
        entries_accepted := h.2.2.1
        exclusive := h.2.2.2 }
  else none

/-! ### The gateway -/

/-- `configuredTrustedProxyCidrs`. -/
def configuredTrustedProxyCidrs (settings : ProxySettings) : List ParsedCidr :=
  settings.entries.filterMap parseCidr

/-- `socketClientAddress`, of a peer and the value of the header. -/
def socketClientAddress (settings : ProxySettings) (remote : Text) (header : HeaderValue) :
    Option Text :=
  trustedClientAddress
    { remoteAddress := some remote
      forwardedFor := header
      trustedHops := settings.hops
      trustedCidrs := configuredTrustedProxyCidrs settings }

end BackendFoundation.Http.TrustProxy
