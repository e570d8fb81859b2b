import Mathlib.Data.List.Nodup
import Mathlib.Tactic.Common

/-! # Maps in the order of insertion

A map that lists its keys in the order in which they came in. A new value for a key that is there
leaves the key in its place, and a key that has been deleted comes in last again.

`get_eq_some_iff` reads the map through its entries; from it follow `get_set`, `get_delete` and
`get_filter`. `deleteOldest_entries` is about the key that came in first. -/

namespace BackendFoundation.Lib

/-- The entries in the order of insertion, at most one for a key. -/
@[ext] structure OrderedMap (K V : Type*) where
  entries : List (K × V)
  nodup_keys : (entries.map Prod.fst).Nodup

namespace OrderedMap

variable {K V : Type*}

theorem nodup_filter_keys {entries : List (K × V)} (h : (entries.map Prod.fst).Nodup)
    (p : K × V → Bool) : ((entries.filter p).map Prod.fst).Nodup :=
  h.sublist (List.filter_sublist.map Prod.fst)

theorem nodup_append_key {entries : List (K × V)} (h : (entries.map Prod.fst).Nodup) {k : K}
    (hk : k ∉ entries.map Prod.fst) (v : V) : ((entries ++ [(k, v)]).map Prod.fst).Nodup := by
  rw [List.map_append]
  refine List.nodup_append.mpr ⟨h, List.nodup_singleton k, ?_⟩
  intro a ha b hb hab
  rw [List.map_cons, List.map_nil, List.mem_singleton] at hb
  subst hab hb
  exact hk ha

def empty : OrderedMap K V := ⟨[], List.nodup_nil⟩

def keys (m : OrderedMap K V) : List K := m.entries.map Prod.fst

def size (m : OrderedMap K V) : ℕ := m.entries.length

/-- The key that came in first. -/
def oldestKey (m : OrderedMap K V) : Option K := m.keys.head?

def filter (p : K → V → Bool) (m : OrderedMap K V) : OrderedMap K V :=
  ⟨m.entries.filter fun e => p e.1 e.2, nodup_filter_keys m.nodup_keys _⟩

variable [DecidableEq K]

def replaceAt (k : K) (v : V) (e : K × V) : K × V := if e.1 = k then (k, v) else e

omit [DecidableEq K] in
theorem nodup_map_keys {entries : List (K × V)} (h : (entries.map Prod.fst).Nodup)
    {f : K × V → K × V} (hf : ∀ e, (f e).1 = e.1) : ((entries.map f).map Prod.fst).Nodup := by
  rw [List.map_map]
  have hkeys : Prod.fst ∘ f = Prod.fst := funext hf
  rwa [hkeys]

theorem replaceAt_fst (k : K) (v : V) (e : K × V) : (replaceAt k v e).1 = e.1 := by
  unfold replaceAt
  split_ifs with h
  · exact h.symm
  · rfl

def get (m : OrderedMap K V) (k : K) : Option V := (m.entries.find? (·.1 = k)).map Prod.snd

def delete (m : OrderedMap K V) (k : K) : OrderedMap K V := m.filter fun k' _ => k' ≠ k

/-- A key that is there stays in its place, and a new one comes in last. -/
def set (m : OrderedMap K V) (k : K) (v : V) : OrderedMap K V :=
  if h : k ∈ m.keys then
    ⟨m.entries.map (replaceAt k v), nodup_map_keys m.nodup_keys (replaceAt_fst k v)⟩
  else ⟨m.entries ++ [(k, v)], nodup_append_key m.nodup_keys h v⟩

variable {m : OrderedMap K V} {k k' : K} {v v' : V} {p : K → V → Bool}

/-! ### Reading -/

omit [DecidableEq K] in
theorem eq_of_mem (hv : (k, v) ∈ m.entries) (hv' : (k, v') ∈ m.entries) : v = v' := by
  have heq := List.inj_on_of_nodup_map m.nodup_keys hv hv' rfl
  exact congrArg Prod.snd heq

theorem get_eq_some_iff : m.get k = some v ↔ (k, v) ∈ m.entries := by
  unfold get
  rw [Option.map_eq_some_iff]
  constructor
  · rintro ⟨⟨k', v'⟩, hfind, rfl⟩
    have hkey : k' = k := by simpa using List.find?_some hfind
    rw [← hkey]
    exact List.mem_of_find?_eq_some hfind
  · intro hmem
    have hsome : (m.entries.find? (·.1 = k)).isSome = true :=
      List.find?_isSome.mpr ⟨(k, v), hmem, decide_eq_true rfl⟩
    obtain ⟨⟨k', v'⟩, hfind⟩ := Option.isSome_iff_exists.mp hsome
    have hkey : k' = k := by simpa using List.find?_some hfind
    subst hkey
    have hmem' := List.mem_of_find?_eq_some hfind
    exact ⟨_, hfind, eq_of_mem hmem' hmem⟩

omit [DecidableEq K] in
theorem mem_keys : k ∈ m.keys ↔ ∃ v, (k, v) ∈ m.entries := by
  unfold keys
  rw [List.mem_map]
  constructor
  · rintro ⟨⟨k', v⟩, hmem, rfl⟩
    exact ⟨v, hmem⟩
  · rintro ⟨v, hmem⟩
    exact ⟨(k, v), hmem, rfl⟩

theorem get_eq_none_iff : m.get k = none ↔ k ∉ m.keys := by
  rw [Option.eq_none_iff_forall_ne_some, mem_keys, not_exists]
  exact forall_congr' fun v => not_congr get_eq_some_iff

/-! ### Reading after a write -/

theorem get_filter : (m.filter p).get k = (m.get k).filter (p k) := by
  ext v
  rw [get_eq_some_iff, Option.filter_eq_some_iff, get_eq_some_iff]
  exact List.mem_filter

theorem get_delete : (m.delete k).get k' = if k' = k then none else m.get k' := by
  rw [delete, get_filter]
  split_ifs with h
  · simp [h]
  · cases m.get k' with
    | none => rfl
    | some v => simp [h]

theorem delete_of_get_eq_none (h : m.get k = none) : m.delete k = m := by
  refine OrderedMap.ext (List.filter_eq_self.mpr fun e he => decide_eq_true fun hkey => ?_)
  exact get_eq_none_iff.mp h (hkey ▸ List.mem_map_of_mem he)

theorem mem_set : (k', v') ∈ (m.set k v).entries ↔
    k' = k ∧ v' = v ∨ k' ≠ k ∧ (k', v') ∈ m.entries := by
  unfold set
  split_ifs with h
  · rw [List.mem_map]
    constructor
    · rintro ⟨⟨k'', v''⟩, hmem, heq⟩
      unfold replaceAt at heq
      split_ifs at heq with hkey
      · cases heq
        exact .inl ⟨rfl, rfl⟩
      · cases heq
        exact .inr ⟨hkey, hmem⟩
    · rintro (⟨rfl, rfl⟩ | ⟨hkey, hmem⟩)
      · obtain ⟨old, hold⟩ := mem_keys.mp h
        exact ⟨_, hold, if_pos rfl⟩
      · exact ⟨_, hmem, if_neg hkey⟩
  · rw [List.mem_append, List.mem_singleton, Prod.mk.injEq, or_comm]
    refine or_congr_right (iff_and_self.mpr fun hmem hkey => ?_)
    subst hkey
    exact h (List.mem_map_of_mem hmem)

theorem get_set : (m.set k v).get k' = if k' = k then some v else m.get k' := by
  ext v'
  rw [get_eq_some_iff, mem_set]
  split_ifs with h
  · simp [h, eq_comm]
  · simp [h, get_eq_some_iff]

omit [DecidableEq K] in
theorem keys_filter_subset : (m.filter p).keys ⊆ m.keys :=
  (List.filter_sublist.map Prod.fst).subset

/-! ### The number of entries -/

omit [DecidableEq K] in
theorem length_keys (m : OrderedMap K V) : m.keys.length = m.size := List.length_map _

omit [DecidableEq K] in
theorem size_filter_le : (m.filter p).size ≤ m.size := List.length_filter_le _ _

theorem size_delete_le : (m.delete k).size ≤ m.size := size_filter_le

theorem size_set_of_mem (h : k ∈ m.keys) : (m.set k v).size = m.size := by
  unfold set size
  rw [dif_pos h]
  exact List.length_map _

theorem size_set_of_not_mem (h : k ∉ m.keys) : (m.set k v).size = m.size + 1 := by
  unfold set size
  rw [dif_neg h]
  exact List.length_append

theorem size_set_le : (m.set k v).size ≤ m.size + 1 := by
  by_cases h : k ∈ m.keys
  · rw [size_set_of_mem h]
    exact Nat.le_succ _
  · exact Nat.le_of_eq (size_set_of_not_mem h)

/-! ### The key that came in first -/

omit [DecidableEq K] in
theorem oldestKey_mem (h : m.oldestKey = some k) : k ∈ m.keys := List.mem_of_head? h

omit [DecidableEq K] in
theorem size_of_oldestKey_eq_none (h : m.oldestKey = none) : m.size = 0 := by
  have hkeys : m.keys = [] := List.head?_eq_none_iff.mp h
  rw [size, List.eq_nil_of_map_eq_nil hkeys, List.length_nil]

theorem deleteOldest_entries (h : m.oldestKey = some k) :
    (m.delete k).entries = m.entries.tail := by
  obtain ⟨entries, hnodup⟩ := m
  cases entries with
  | nil => cases h
  | cons e rest =>
    cases h
    obtain ⟨hnot, -⟩ := List.nodup_cons.mp hnodup
    have hrest : (rest.filter fun e' => decide (e'.1 ≠ e.1)) = rest := by
      refine List.filter_eq_self.mpr fun e' he' => decide_eq_true fun hkey => ?_
      exact hnot (hkey ▸ List.mem_map_of_mem he')
    show ((e :: rest).filter fun e' => decide (e'.1 ≠ e.1)) = rest
    rw [List.filter_cons, if_neg (by simp), hrest]

end OrderedMap

end BackendFoundation.Lib
