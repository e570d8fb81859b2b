import BackendFoundation.Http.ClientIp

/-! # What a client can write into the header

A proxy appends the address it was called from to `X-Forwarded-For`; what stands before is the
client's. The entries that the trusted proxies have appended decide the client (`decidedBy`), but the
whole header is parsed first, and one entry that is no address makes the peer the client. So the part
that the client writes matters exactly by whether it parses (`same_client_iff`). -/

namespace BackendFoundation.Http.Forwarded

open Http.ClientIp

/-- A header that starts with what the client wrote and ends with what the proxies appended. -/
def prefixed (written appended : Text) : Text :=
  if written = [] then appended else written ++ ',' :: appended

/-- Every entry of a text is an address. -/
def AllAddresses (text : Text) : Prop := ∀ value ∈ forwardedEntries text, parseClientIp value ≠ none

instance (text : Text) : Decidable (AllAddresses text) :=
  inferInstanceAs (Decidable (∀ value ∈ forwardedEntries text, parseClientIp value ≠ none))

/-- The client that the peer and the appended entries decide, the last one first: the entry of the
hop count, or the first address that is in no trusted network. -/
def decidedBy (hops : ℕ) (networks : List ParsedCidr) (remote : Text) (entries : List Text) :
    Option Text :=
  if 0 < hops ∨ networks = [] then (remote :: entries)[hops]?
  else (remote :: entries).find? fun address => !matchesAnyCidr address networks

/-! ### Entries -/

theorem forwardedEntries_append (a b : Text) :
    forwardedEntries (a ++ ',' :: b) = forwardedEntries b ++ forwardedEntries a := by
  unfold forwardedEntries
  rw [List.splitOn_append_cons_of_beq _ _ (by decide), List.map_append, List.filter_append,
    List.reverse_append]

theorem forwardedEntries_nil : forwardedEntries [] = [] := by decide

theorem forwardedEntries_prefixed (written appended : Text) :
    forwardedEntries (prefixed written appended) =
      forwardedEntries appended ++ forwardedEntries written := by
  unfold prefixed
  split_ifs with h
  · rw [h, forwardedEntries_nil, List.append_nil]
  · exact forwardedEntries_append written appended

theorem allAddresses_prefixed {written appended : Text} :
    AllAddresses (prefixed written appended) ↔ AllAddresses appended ∧ AllAddresses written := by
  unfold AllAddresses
  rw [forwardedEntries_prefixed]
  exact List.forall_mem_append

/-! ### The walk -/

theorem walk_of_find? {networks : List ParsedCidr} {client : Text} (rest : List Text) :
    ∀ {remote : Text} {entries : List Text},
      (remote :: entries).find? (fun address => !matchesAnyCidr address networks) = some client →
      walk networks remote (entries ++ rest) = client
  | remote, [], h => by
    rw [List.find?_cons] at h
    rcases htrusted : matchesAnyCidr remote networks with _ | _
    · rw [htrusted] at h
      cases rest with
      | nil => exact Option.some.inj h
      | cons candidate rest =>
        rw [List.nil_append, walk, htrusted]
        exact Option.some.inj h
    · rw [htrusted] at h
      cases h
  | remote, candidate :: entries, h => by
    rw [List.find?_cons] at h
    rw [List.cons_append, walk]
    rcases htrusted : matchesAnyCidr remote networks with _ | _
    · rw [htrusted] at h
      exact Option.some.inj h
    · rw [htrusted] at h
      exact walk_of_find? rest h

variable {hops : ℕ} {networks : List ParsedCidr} {remote client : Text} {header : HeaderValue}

theorem trustedClientAddress_of_peer (hpeer : parseClientIp (trim remote) ≠ none) :
    trustedClientAddress ⟨some remote, header, hops, networks⟩ =
      if AllAddresses header.raw then
        if 0 < hops then
          (trim remote :: forwardedEntries header.raw)[min hops
            ((trim remote :: forwardedEntries header.raw).length - 1)]?
        else if networks = [] then some (trim remote)
        else some (walk networks (trim remote) (forwardedEntries header.raw))
      else some (trim remote) := by
  have hne : trim remote ≠ [] := by
    intro hnil
    rw [hnil] at hpeer
    exact hpeer (by decide)
  have hany : ((forwardedEntries header.raw).any fun value => parseClientIp value = none) = true ↔
      ¬ AllAddresses header.raw := by
    simp [AllAddresses]
  unfold trustedClientAddress
  simp only [Option.map_some, hne, hpeer, or_self, if_false]
  by_cases hall : AllAddresses header.raw
  · rw [if_pos hall, if_neg fun h => hany.mp h hall]
  · rw [if_neg hall, if_pos (hany.mpr hall)]

theorem client_of_allAddresses {written appended : Text}
    (hpeer : parseClientIp (trim remote) ≠ none) (hraw : header.raw = prefixed written appended)
    (hall : AllAddresses header.raw)
    (hdecided : decidedBy hops networks (trim remote) (forwardedEntries appended) = some client) :
    trustedClientAddress ⟨some remote, header, hops, networks⟩ = some client := by
  rw [trustedClientAddress_of_peer hpeer, if_pos hall, hraw, forwardedEntries_prefixed]
  unfold decidedBy at hdecided
  by_cases hhops : 0 < hops
  · rw [if_pos (.inl hhops)] at hdecided
    obtain ⟨hlt, -⟩ := List.getElem?_eq_some_iff.mp hdecided
    rw [List.length_cons] at hlt
    have hmin : min hops ((trim remote :: (forwardedEntries appended ++
        forwardedEntries written)).length - 1) = hops := by
      rw [List.length_cons, List.length_append]
      omega
    rw [if_pos hhops, hmin, ← List.cons_append, List.getElem?_append_left (by simpa using hlt),
      hdecided]
  · by_cases hnetworks : networks = []
    · rw [if_pos (.inr hnetworks), Nat.eq_zero_of_not_pos hhops] at hdecided
      rw [if_neg hhops, if_pos hnetworks]
      exact hdecided
    · rw [if_neg fun h => h.elim hhops hnetworks] at hdecided
      rw [if_neg hhops, if_neg hnetworks, walk_of_find? _ hdecided]

theorem client_of_not_allAddresses (hpeer : parseClientIp (trim remote) ≠ none)
    (hall : ¬ AllAddresses header.raw) :
    trustedClientAddress ⟨some remote, header, hops, networks⟩ = some (trim remote) := by
  rw [trustedClientAddress_of_peer hpeer, if_neg hall]

theorem client_of_no_peer {remoteAddress : Option Text}
    (hpeer : (remoteAddress.map trim).bind parseClientIp = none) :
    trustedClientAddress ⟨remoteAddress, header, hops, networks⟩ = none := by
  unfold trustedClientAddress
  cases remoteAddress with
  | none => rfl
  | some remote =>
    have hparse : parseClientIp (trim remote) = none := hpeer
    simp only [Option.map_some, hparse, or_true, if_true]

theorem guarded_eq_iff {α : Type} {p q r : Prop} [Decidable (p ∧ q)] [Decidable (p ∧ r)] {a b : α} :
    (if p ∧ q then some a else some b) = (if p ∧ r then some a else some b) ↔
      a = b ∨ ¬ p ∨ (q ↔ r) := by
  by_cases hp : p <;> by_cases hq : q <;> by_cases hr : r <;> simp [hp, hq, hr, eq_comm]

/-- **What the client writes matters by whether it parses.** The appended part decides the client.
Two headers with the same appended part then have the same client exactly if the peer is no address
or the decided client itself, an appended entry is no address, or what the clients wrote parses in
both or in neither. -/
theorem same_client_iff {remoteAddress : Option Text} {header₁ header₂ : HeaderValue}
    {written₁ written₂ appended : Text} (hraw₁ : header₁.raw = prefixed written₁ appended)
    (hraw₂ : header₂.raw = prefixed written₂ appended)
    (hdecided : decidedBy hops networks ((remoteAddress.map trim).getD [])
      (forwardedEntries appended) = some client) :
    trustedClientAddress ⟨remoteAddress, header₁, hops, networks⟩ =
        trustedClientAddress ⟨remoteAddress, header₂, hops, networks⟩ ↔
      (remoteAddress.map trim).bind parseClientIp = none ∨
        client = (remoteAddress.map trim).getD [] ∨ ¬ AllAddresses appended ∨
        (AllAddresses written₁ ↔ AllAddresses written₂) := by
  by_cases hpeer : (remoteAddress.map trim).bind parseClientIp = none
  · rw [client_of_no_peer hpeer, client_of_no_peer hpeer]
    simp [hpeer]
  obtain ⟨remote, rfl⟩ : ∃ remote, remoteAddress = some remote :=
    Option.ne_none_iff_exists'.mp fun h => hpeer (by rw [h]; rfl)
  have hparse : parseClientIp (trim remote) ≠ none := hpeer
  have hclient : ∀ (header : HeaderValue) (written : Text),
      header.raw = prefixed written appended →
      trustedClientAddress ⟨some remote, header, hops, networks⟩ =
        if AllAddresses appended ∧ AllAddresses written then some client
        else some (trim remote) := by
    intro header written hraw
    split_ifs with hall
    · exact client_of_allAddresses hparse hraw
        (by rw [hraw]; exact allAddresses_prefixed.mpr hall) hdecided
    · exact client_of_not_allAddresses hparse
        (by rw [hraw]; exact fun h => hall (allAddresses_prefixed.mp h))
  rw [hclient header₁ written₁ hraw₁, hclient header₂ written₂ hraw₂, or_iff_right hpeer]
  exact guarded_eq_iff

/-- A proxy at 10.0.0.5 forwards a request of 203.0.113.9. -/
def exampleInput (written : String) : TrustedProxyInput where
  remoteAddress := some "10.0.0.5".toList
  forwardedFor := .one (prefixed written.toList " 203.0.113.9".toList)
  trustedHops := 1
  trustedCidrs := []

theorem same_client_of_addresses : trustedClientAddress (exampleInput "198.51.100.1") =
    trustedClientAddress (exampleInput "") :=
  (@same_client_iff _ _ ("203.0.113.9".toList) _ _ _ _ _ _ rfl rfl (by decide)).mpr (by decide)

theorem other_client_of_garbage :
    decidedBy 1 [] "10.0.0.5".toList (forwardedEntries " 203.0.113.9".toList) =
        some "203.0.113.9".toList ∧
      trustedClientAddress (exampleInput "") = some "203.0.113.9".toList ∧
      trustedClientAddress (exampleInput "not-an-ip") = some "10.0.0.5".toList := by
  decide

end BackendFoundation.Http.Forwarded
