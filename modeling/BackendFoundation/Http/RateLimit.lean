import BackendFoundation.Errors
import BackendFoundation.Lib.OrderedMap
import BackendFoundation.Lib.Table
import Mathlib.Data.Rat.Floor
import Mathlib.Data.Set.Card

/-! # The fallback of the rate limit

`BoundedRateLimitFallback` of `rate-limit.ts` counts the requests of a key in windows, for up to
`maxKeys` keys: a key whose window is over starts a new one, which drops the keys whose windows are
over, and then the oldest keys while there is no room.

Two lemmas say what an increment leaves: `get_increment_cases` where each entry comes from, and
`size_increment_le`. From them follows `Sound`, the invariant of every run. The unbounded counter
forgets no key; `Agree` relates the two by the windows that are not over, and an eviction cannot
touch one of these while they fit (`Agree.size_lt`).

Main result: `fallback_bounded`. -/

namespace BackendFoundation.Http.RateLimit

open Errors Lib

/-- The window of a key. Times are in milliseconds. -/
structure LocalCounter where
  count : ℕ
  resetAt : ℚ
deriving DecidableEq

/-- What `increment` returns. -/
structure Counted where
  count : ℕ
  retryAfterSeconds : ℚ
deriving DecidableEq

abbrev Entries := OrderedMap String LocalCounter

structure BoundedRateLimitFallback where
  maxKeys : ℕ
  entries : Entries
  maxKeys_pos : 1 ≤ maxKeys

def construct (maxKeys : ℕ) : Except Thrown BoundedRateLimitFallback :=
  if h : 1 ≤ maxKeys then .ok ⟨maxKeys, .empty, h⟩
  else .error (.error "maxKeys must be a positive integer")

def removeExpired (now : ℚ) (entries : Entries) : Entries :=
  entries.filter fun _ entry => !decide (entry.resetAt ≤ now)

/-- Deletes the oldest key while there are `maxKeys` or more. An empty key ends this. -/
def evictOldest (maxKeys : ℕ) : ℕ → Entries → Entries
  | 0, entries => entries
  | fuel + 1, entries =>
    if maxKeys ≤ entries.size then
      match entries.oldestKey with
      | none => entries
      | some oldestKey =>
        if oldestKey = "" then entries
        else evictOldest maxKeys fuel (entries.delete oldestKey)
    else entries

/-- Room for one key. Each eviction deletes a key, so there are at most as many as keys. -/
def makeRoom (maxKeys : ℕ) (now : ℚ) (entries : Entries) : Entries :=
  evictOldest maxKeys (removeExpired now entries).size (removeExpired now entries)

def retryAfter (resetAt now : ℚ) : ℚ := max 1 (⌈(resetAt - now) / 1000⌉ : ℤ)

def openWindow (key : String) (windowSeconds now : ℚ) (f : BoundedRateLimitFallback) :
    Counted × BoundedRateLimitFallback :=
  (⟨1, windowSeconds⟩, { f with
    entries := (makeRoom f.maxKeys now f.entries).set key ⟨1, now + windowSeconds * 1000⟩ })

def increment (key : String) (windowSeconds now : ℚ) (f : BoundedRateLimitFallback) :
    Counted × BoundedRateLimitFallback :=
  match f.entries.get key with
  | some existing =>
    if now < existing.resetAt then
      (⟨existing.count + 1, retryAfter existing.resetAt now⟩,
        { f with entries := f.entries.set key { existing with count := existing.count + 1 } })
    else openWindow key windowSeconds now { f with entries := f.entries.delete key }
  | none => openWindow key windowSeconds now f

def delete (key : String) (f : BoundedRateLimitFallback) : BoundedRateLimitFallback :=
  { f with entries := f.entries.delete key }

def size (f : BoundedRateLimitFallback) : ℕ := f.entries.size

/-! ### Sequences of calls -/

inductive Call
  | increment (key : String) (windowSeconds now : ℚ)
  | delete (key : String)
deriving DecidableEq

def Call.key : Call → String
  | increment key _ _ => key
  | delete key => key

def Call.time : Call → Option ℚ
  | increment _ _ now => some now
  | delete _ => none

/-- The state after a call, and what the call returns. -/
def perform (f : BoundedRateLimitFallback) : Call → Option Counted × BoundedRateLimitFallback
  | .increment key windowSeconds now => (increment key windowSeconds now f).map some id
  | .delete key => (none, delete key f)

section

variable {S : Type} (act : S → Call → Option Counted × S)

def run (s : S) (calls : List Call) : S := calls.foldl (fun s call => (act s call).2) s

def answers : S → List Call → List (Option Counted)
  | _, [] => []
  | s, call :: calls => (act s call).1 :: answers (act s call).2 calls

theorem run_concat (s : S) (calls : List Call) (call : Call) :
    run act s (calls ++ [call]) = (act (run act s calls) call).2 := by
  unfold run
  rw [List.foldl_concat]

theorem answers_concat (s : S) (calls : List Call) (call : Call) :
    answers act s (calls ++ [call]) = answers act s calls ++ [(act (run act s calls) call).1] := by
  induction calls generalizing s with
  | nil => rfl
  | cons first calls ih =>
    rw [List.cons_append, answers, answers, ih, List.cons_append]
    rfl

end

/-! ### An unbounded counter -/

/-- The window of a key, unless it is over. -/
def liveAt (now : ℚ) (counter : Option LocalCounter) : Option LocalCounter :=
  counter.filter (now < ·.resetAt)

/-- Counts in windows, and forgets no key. -/
def incrementUnbounded (key : String) (windowSeconds now : ℚ) (t : Table String LocalCounter) :
    Counted × Table String LocalCounter :=
  match liveAt now (t key) with
  | some counter =>
    (⟨counter.count + 1, retryAfter counter.resetAt now⟩,
      t.set key { counter with count := counter.count + 1 })
  | none => (⟨1, windowSeconds⟩, t.set key ⟨1, now + windowSeconds * 1000⟩)

def performUnbounded (t : Table String LocalCounter) :
    Call → Option Counted × Table String LocalCounter
  | .increment key windowSeconds now => (incrementUnbounded key windowSeconds now t).map some id
  | .delete key => (none, t.erase key)

variable {key k : String} {windowSeconds now last : ℚ} {f : BoundedRateLimitFallback}
  {entries : Entries} {counter c : LocalCounter} {maxKeys fuel : ℕ} {t : Table String LocalCounter}
  {window : String → ℚ} {calls : List Call} {call : Call}

theorem liveAt_eq_some : liveAt now (some counter) = some c ↔ now < c.resetAt ∧ counter = c := by
  rw [liveAt, Option.filter_eq_some_iff, decide_eq_true_eq, Option.some.injEq, and_comm]

theorem liveAt_liveAt (hle : last ≤ now) (o : Option LocalCounter) :
    liveAt now (liveAt last o) = liveAt now o := by
  unfold liveAt
  rw [Option.filter_filter]
  congr 1
  funext c
  by_cases h : now < c.resetAt
  · have hlast : last < c.resetAt := lt_of_le_of_lt hle h
    rw [decide_eq_true h, decide_eq_true hlast, Bool.and_self]
  · rw [decide_eq_false h, Bool.and_false]

/-! ### Evictions -/

theorem empty_not_mem_delete (hkeys : "" ∉ entries.keys) (key : String) :
    "" ∉ (entries.delete key).keys := fun h => hkeys (OrderedMap.keys_filter_subset h)

/-- **What the evictions leave:** the newest keys, up to one less than `maxKeys`. -/
theorem evictOldest_entries (hkeys : "" ∉ entries.keys) (hmax : 1 ≤ maxKeys)
    (hfuel : entries.size ≤ fuel) : (evictOldest maxKeys fuel entries).entries =
      entries.entries.drop (entries.size + 1 - maxKeys) := by
  induction fuel generalizing entries with
  | zero =>
    have hzero : entries.size + 1 - maxKeys = 0 := by omega
    rw [evictOldest, hzero, List.drop_zero]
  | succ fuel ih =>
    rw [evictOldest]
    split_ifs with hfull
    · cases hold : entries.oldestKey with
      | none =>
        have hempty := OrderedMap.size_of_oldestKey_eq_none hold
        omega
      | some oldestKey =>
        have hne : oldestKey ≠ "" := fun h => hkeys (h ▸ OrderedMap.oldestKey_mem hold)
        have htail := OrderedMap.deleteOldest_entries hold
        have hsize : (entries.delete oldestKey).size = entries.size - 1 := by
          rw [OrderedMap.size, htail, List.length_tail]
          rfl
        have hrest := empty_not_mem_delete hkeys oldestKey
        have hdrop : 1 + (entries.size - 1 + 1 - maxKeys) = entries.size + 1 - maxKeys := by
          omega
        show (if oldestKey = "" then entries
          else evictOldest maxKeys fuel (entries.delete oldestKey)).entries = _
        rw [if_neg hne, ih hrest (by omega), hsize, htail, ← List.drop_one, List.drop_drop, hdrop]
    · have hzero : entries.size + 1 - maxKeys = 0 := by omega
      rw [hzero, List.drop_zero]

theorem get_removeExpired : (removeExpired now entries).get k = liveAt now (entries.get k) := by
  rw [removeExpired, OrderedMap.get_filter, liveAt]
  congr 1
  funext counter
  by_cases h : now < counter.resetAt
  · rw [decide_eq_true h, decide_eq_false (not_le.mpr h), Bool.not_false]
  · rw [decide_eq_false h, decide_eq_true (not_lt.mp h), Bool.not_true]

theorem makeRoom_entries (now : ℚ) (hkeys : "" ∉ entries.keys) (hmax : 1 ≤ maxKeys) :
    (makeRoom maxKeys now entries).entries = (removeExpired now entries).entries.drop
      ((removeExpired now entries).size + 1 - maxKeys) :=
  evictOldest_entries (fun h => hkeys (OrderedMap.keys_filter_subset h)) hmax le_rfl

theorem size_makeRoom_lt (now : ℚ) (hkeys : "" ∉ entries.keys) (hmax : 1 ≤ maxKeys) :
    (makeRoom maxKeys now entries).size < maxKeys := by
  rw [OrderedMap.size, makeRoom_entries now hkeys hmax, List.length_drop]
  show (removeExpired now entries).size - _ < maxKeys
  omega

theorem live_of_makeRoom (hkeys : "" ∉ entries.keys) (hmax : 1 ≤ maxKeys)
    (h : (makeRoom maxKeys now entries).get k = some c) : liveAt now (entries.get k) = some c := by
  rw [OrderedMap.get_eq_some_iff, makeRoom_entries now hkeys hmax] at h
  rw [← get_removeExpired, OrderedMap.get_eq_some_iff]
  exact List.mem_of_mem_drop h

theorem makeRoom_of_lt (hkeys : "" ∉ entries.keys)
    (hsize : (removeExpired now entries).size < maxKeys) :
    makeRoom maxKeys now entries = removeExpired now entries := by
  have hzero : (removeExpired now entries).size + 1 - maxKeys = 0 := by omega
  have hentries := makeRoom_entries now hkeys (Nat.one_le_of_lt hsize)
  rw [hzero, List.drop_zero] at hentries
  exact OrderedMap.ext hentries

/-! ### One increment -/

theorem increment_of_live (hget : f.entries.get key = some counter)
    (hlive : now < counter.resetAt) :
    increment key windowSeconds now f = (⟨counter.count + 1, retryAfter counter.resetAt now⟩,
      { f with entries := f.entries.set key { counter with count := counter.count + 1 } }) := by
  rw [increment, hget]
  exact if_pos hlive

theorem increment_of_none (hnone : liveAt now (f.entries.get key) = none) :
    increment key windowSeconds now f =
      openWindow key windowSeconds now { f with entries := f.entries.delete key } := by
  unfold increment
  cases hget : f.entries.get key with
  | none => rw [OrderedMap.delete_of_get_eq_none hget]
  | some counter =>
    rw [hget] at hnone
    refine if_neg fun hlive => ?_
    rw [liveAt_eq_some.mpr ⟨hlive, rfl⟩] at hnone
    cases hnone

theorem live_or_none (now : ℚ) (key : String) (entries : Entries) :
    (∃ counter, entries.get key = some counter ∧ now < counter.resetAt) ∨
      liveAt now (entries.get key) = none := by
  cases hget : entries.get key with
  | none => exact .inr rfl
  | some counter =>
    by_cases hlive : now < counter.resetAt
    · exact .inl ⟨counter, rfl, hlive⟩
    · refine .inr ?_
      rw [liveAt, Option.filter_some, if_neg]
      rwa [decide_eq_true_eq]

theorem get_increment_cases (hkeys : "" ∉ f.entries.keys)
    (h : (increment key windowSeconds now f).2.entries.get k = some c) :
    (k = key ∧ ((∃ old, f.entries.get key = some old ∧ now < old.resetAt ∧
        c = { old with count := old.count + 1 }) ∨ c = ⟨1, now + windowSeconds * 1000⟩)) ∨
      (k ≠ key ∧ f.entries.get k = some c) := by
  rcases live_or_none now key f.entries with ⟨counter, hget, hlive⟩ | hnone
  · rw [increment_of_live hget hlive, OrderedMap.get_set] at h
    split_ifs at h with hk
    · exact .inl ⟨hk, .inl ⟨counter, hget, hlive, (Option.some.inj h).symm⟩⟩
    · exact .inr ⟨hk, h⟩
  · rw [increment_of_none hnone, openWindow, OrderedMap.get_set] at h
    split_ifs at h with hk
    · exact .inl ⟨hk, .inr (Option.some.inj h).symm⟩
    · have hroom := live_of_makeRoom (empty_not_mem_delete hkeys key) f.maxKeys_pos h
      rw [OrderedMap.get_delete, if_neg hk, liveAt, Option.filter_eq_some_iff] at hroom
      exact .inr ⟨hk, hroom.1⟩

theorem increment_counted (key : String) (now : ℚ) (f : BoundedRateLimitFallback)
    (hwindow : 0 < windowSeconds) :
    ∃ c, (increment key windowSeconds now f).2.entries.get key = some c ∧ now < c.resetAt ∧
      (increment key windowSeconds now f).1.count = c.count := by
  rcases live_or_none now key f.entries with ⟨counter, hget, hlive⟩ | hnone
  · rw [increment_of_live hget hlive]
    refine ⟨{ counter with count := counter.count + 1 }, ?_, hlive, rfl⟩
    rw [OrderedMap.get_set, if_pos rfl]
  · rw [increment_of_none hnone, openWindow]
    refine ⟨⟨1, now + windowSeconds * 1000⟩, ?_, ?_, rfl⟩
    · rw [OrderedMap.get_set, if_pos rfl]
    · show now < now + windowSeconds * 1000
      linarith

theorem maxKeys_increment (key : String) (windowSeconds now : ℚ) (f : BoundedRateLimitFallback) :
    (increment key windowSeconds now f).2.maxKeys = f.maxKeys := by
  rcases live_or_none now key f.entries with ⟨counter, hget, hlive⟩ | hnone
  · rw [increment_of_live hget hlive]
  · rw [increment_of_none hnone, openWindow]

theorem size_increment_le (hkeys : "" ∉ f.entries.keys) (hsize : f.entries.size ≤ f.maxKeys) :
    (increment key windowSeconds now f).2.entries.size ≤ f.maxKeys := by
  rcases live_or_none now key f.entries with ⟨counter, hget, hlive⟩ | hnone
  · have hmem : key ∈ f.entries.keys :=
      OrderedMap.mem_keys.mpr ⟨counter, OrderedMap.get_eq_some_iff.mp hget⟩
    rw [increment_of_live hget hlive]
    exact (OrderedMap.size_set_of_mem hmem).trans_le hsize
  · have hroom := size_makeRoom_lt now (empty_not_mem_delete hkeys key) f.maxKeys_pos
    rw [increment_of_none hnone]
    exact OrderedMap.size_set_le.trans hroom

/-- With room for two keys the third one evicts the first. -/
example : answers perform ⟨2, .empty, Nat.le_succ 1⟩ [.increment "first" 60 1000,
    .increment "second" 60 1000, .increment "third" 60 1000, .increment "second" 60 1000,
    .increment "first" 60 1000] =
    [some ⟨1, 60⟩, some ⟨1, 60⟩, some ⟨1, 60⟩, some ⟨2, 60⟩, some ⟨1, 60⟩] := by
  decide +kernel

/-! ### Any number of calls -/

/-- The increments of a key at some times. -/
def increments (key : String) (during : ℚ → Bool) (calls : List Call) : ℕ :=
  calls.countP fun call => decide (call.key = key) && call.time.any during

/-- What the callers keep to: no key is empty, each has one window, and the clock never goes
back. -/
structure Regular (window : String → ℚ) (calls : List Call) : Prop where
  window_pos : ∀ key, 0 < window key
  key_ne : ∀ call ∈ calls, call.key ≠ ""
  window_eq : ∀ key windowSeconds now, .increment key windowSeconds now ∈ calls →
    windowSeconds = window key
  times : (calls.filterMap Call.time).Pairwise (· ≤ ·)

variable {more : List Call} {during : ℚ → Bool} {time : ℚ}

theorem mem_times_append (h : time ∈ calls.filterMap Call.time) :
    time ∈ (calls ++ more).filterMap Call.time := by
  rw [List.filterMap_append]
  exact List.mem_append_left _ h

theorem now_mem_times (calls : List Call) (key : String) (windowSeconds now : ℚ) :
    now ∈ (calls ++ [Call.increment key windowSeconds now]).filterMap Call.time := by
  rw [List.filterMap_append]
  exact List.mem_append_right _ List.mem_cons_self

theorem Regular.of_append (h : Regular window (calls ++ more)) : Regular window calls where
  window_pos := h.window_pos
  key_ne call hcall := h.key_ne call (List.mem_append_left more hcall)
  window_eq key windowSeconds now hcall :=
    h.window_eq key windowSeconds now (List.mem_append_left more hcall)
  times := by
    have htimes := h.times
    rw [List.filterMap_append] at htimes
    exact (List.pairwise_append.mp htimes).1

theorem Regular.time_le (h : Regular window (calls ++ [.increment key windowSeconds now]))
    (hmem : time ∈ calls.filterMap Call.time) : time ≤ now := by
  have htimes := h.times
  rw [List.filterMap_append] at htimes
  exact (List.pairwise_append.mp htimes).2.2 time hmem now List.mem_cons_self

theorem Regular.window_last (h : Regular window (calls ++ [.increment key windowSeconds now])) :
    windowSeconds = window key :=
  h.window_eq key windowSeconds now (List.mem_append_right calls List.mem_cons_self)

theorem Regular.window_last_pos
    (h : Regular window (calls ++ [.increment key windowSeconds now])) : 0 < windowSeconds := by
  rw [h.window_last]
  exact h.window_pos key

theorem increments_le_append :
    increments key during calls ≤ increments key during (calls ++ more) := by
  unfold increments
  rw [List.countP_append]
  exact Nat.le_add_right _ _

theorem increments_concat (h : during now = true) :
    increments key during (calls ++ [.increment key windowSeconds now]) =
      increments key during calls + 1 := by
  unfold increments
  rw [List.countP_append, List.countP_singleton]
  simp [Call.key, Call.time, h]

/-- The increments from the first one of a window on are at most those of the last window. -/
theorem increments_le {during' : ℚ → Bool}
    (h : ∀ time ∈ calls.filterMap Call.time, during time = true → during' time = true) :
    increments key during calls ≤ increments key during' calls := by
  unfold increments
  refine List.countP_mono_left fun call hcall hboth => ?_
  obtain ⟨hkey, hany⟩ := Bool.and_eq_true_iff.mp hboth
  obtain ⟨time, htime, hduring⟩ := (Option.any_eq_true _ _).mp hany
  have hmem : time ∈ calls.filterMap Call.time := List.mem_filterMap.mpr ⟨call, hcall, htime⟩
  rw [hkey, htime, Option.any_some, h time hmem hduring, Bool.and_self]

/-- What holds of the fallback after some calls. -/
structure Sound (window : String → ℚ) (maxKeys : ℕ) (calls : List Call)
    (f : BoundedRateLimitFallback) : Prop where
  maxKeys_eq : f.maxKeys = maxKeys
  size_le : f.entries.size ≤ maxKeys
  keys_ne : "" ∉ f.entries.keys
  /-- Each entry counts increments since the first of its window. -/
  counts : ∀ key counter, f.entries.get key = some counter →
    ∃ first ∈ calls.filterMap Call.time, counter.resetAt = first + window key * 1000 ∧
      counter.count ≤ increments key (first ≤ ·) calls

theorem Sound.delete (h : Sound window maxKeys calls f) (key : String) :
    Sound window maxKeys (calls ++ [.delete key]) (delete key f) where
  maxKeys_eq := h.maxKeys_eq
  size_le := OrderedMap.size_delete_le.trans h.size_le
  keys_ne := empty_not_mem_delete h.keys_ne key
  counts k counter hget := by
    rw [RateLimit.delete, OrderedMap.get_delete] at hget
    split_ifs at hget
    obtain ⟨first, hfirst, hreset, hcount⟩ := h.counts k counter hget
    exact ⟨first, mem_times_append hfirst, hreset, hcount.trans increments_le_append⟩

theorem Sound.increment (h : Sound window maxKeys calls f)
    (hregular : Regular window (calls ++ [.increment key windowSeconds now])) :
    Sound window maxKeys (calls ++ [.increment key windowSeconds now])
      (increment key windowSeconds now f).2 where
  maxKeys_eq := (maxKeys_increment key windowSeconds now f).trans h.maxKeys_eq
  size_le := by
    have hsize := h.size_le
    rw [← h.maxKeys_eq] at hsize ⊢
    exact size_increment_le h.keys_ne hsize
  keys_ne hempty := by
    obtain ⟨counter, hmem⟩ := OrderedMap.mem_keys.mp hempty
    rcases get_increment_cases h.keys_ne (OrderedMap.get_eq_some_iff.mpr hmem) with
      ⟨hkey, -⟩ | ⟨-, hget⟩
    · exact hregular.key_ne _ (List.mem_append_right calls List.mem_cons_self) hkey.symm
    · exact h.keys_ne (OrderedMap.mem_keys.mpr ⟨counter, OrderedMap.get_eq_some_iff.mp hget⟩)
  counts k counter hget := by
    rcases get_increment_cases h.keys_ne hget with ⟨rfl, ⟨old, hold, -, rfl⟩ | rfl⟩ | ⟨-, hold⟩
    · obtain ⟨first, hfirst, hreset, hcount⟩ := h.counts _ old hold
      refine ⟨first, mem_times_append hfirst, hreset, ?_⟩
      rw [increments_concat (decide_eq_true (hregular.time_le hfirst))]
      exact Nat.succ_le_succ hcount
    · refine ⟨now, now_mem_times calls k windowSeconds now, ?_, ?_⟩
      · rw [hregular.window_last]
      · rw [increments_concat (decide_eq_true le_rfl)]
        exact Nat.le_add_left 1 _
    · obtain ⟨first, hfirst, hreset, hcount⟩ := h.counts k counter hold
      exact ⟨first, mem_times_append hfirst, hreset, hcount.trans increments_le_append⟩

theorem Sound.start (window : String → ℚ) (h : 1 ≤ maxKeys) :
    Sound window maxKeys [] ⟨maxKeys, .empty, h⟩ where
  maxKeys_eq := rfl
  size_le := Nat.zero_le _
  keys_ne := List.not_mem_nil
  counts _ _ hget := by cases hget

/-- **The invariant of every run.** -/
theorem Sound.run (h : 1 ≤ maxKeys) (hregular : Regular window calls) :
    Sound window maxKeys calls (run perform ⟨maxKeys, .empty, h⟩ calls) := by
  induction calls using List.reverseRecOn with
  | nil => exact Sound.start window h
  | append_singleton calls call ih =>
    have hbefore := ih hregular.of_append
    rw [run_concat]
    cases call with
    | increment key windowSeconds now => exact hbefore.increment hregular
    | delete key => exact hbefore.delete key

theorem Sound.count_le (h : Sound window maxKeys calls f)
    (hregular : Regular window (calls ++ [.increment key windowSeconds now])) :
    (RateLimit.increment key windowSeconds now f).1.count ≤
      increments key (fun time => now - window key * 1000 < time ∧ time ≤ now)
        (calls ++ [.increment key windowSeconds now]) := by
  obtain ⟨counter, hget, hlive, hcount⟩ := increment_counted key now f hregular.window_last_pos
  obtain ⟨first, -, hreset, hle⟩ := (h.increment hregular).counts key counter hget
  rw [hcount]
  refine hle.trans (increments_le fun time htime hfirst => decide_eq_true ⟨?_, ?_⟩)
  · have hfrom : first ≤ time := of_decide_eq_true hfirst
    rw [hreset] at hlive
    linarith
  · rw [List.filterMap_append] at htime
    rcases List.mem_append.mp htime with hbefore | hlast
    · exact hregular.time_le hbefore
    · exact le_of_eq (List.mem_singleton.mp hlast)

/-! ### Beside the unbounded counter -/

/-- The fallback and the unbounded counter have the same windows at a time, but for those that are
over. -/
def Agree (now : ℚ) (entries : Entries) (t : Table String LocalCounter) : Prop :=
  ∀ key, liveAt now (entries.get key) = liveAt now (t key)

theorem Agree.mono (h : Agree last entries t) (hle : last ≤ now) : Agree now entries t := by
  intro key
  rw [← liveAt_liveAt hle, h key, liveAt_liveAt hle]

theorem Agree.delete (h : Agree now entries t) (key : String) :
    Agree now (entries.delete key) (t.erase key) := by
  intro k
  rw [OrderedMap.get_delete, Table.erase]
  split_ifs
  · rfl
  · exact h k

theorem Agree.set (h : Agree now entries t) (key : String) (counter : LocalCounter) :
    Agree now (entries.set key counter) (t.set key counter) := by
  intro k
  rw [OrderedMap.get_set, Table.set]
  split_ifs
  · rfl
  · exact h k

theorem Agree.removeExpired (h : Agree now entries t) :
    Agree now (removeExpired now entries) t := by
  intro key
  rw [get_removeExpired, liveAt_liveAt le_rfl]
  exact h key

/-- The keys with a window that is not over. -/
def liveKeys (now : ℚ) (t : Table String LocalCounter) : Set String :=
  {key | (liveAt now (t key)).isSome}

theorem length_le_of_encard_le {α : Type} [DecidableEq α] {S : Set α} {l : List α} {n : ℕ}
    (hnodup : l.Nodup) (hmem : ∀ a ∈ l, a ∈ S) (h : S.encard ≤ n) : l.length ≤ n := by
  have hsub : (l.toFinset : Set α) ⊆ S := fun a ha => hmem a (List.mem_toFinset.mp ha)
  have hle := (Set.encard_le_encard hsub).trans h
  rw [Set.encard_coe_eq_coe_finsetCard, List.toFinset_card_of_nodup hnodup] at hle
  exact_mod_cast hle

theorem Agree.size_lt (h : Agree now entries t) (hcounter : now < counter.resetAt)
    (hfits : (liveKeys now (t.set key counter)).encard ≤ maxKeys) :
    (RateLimit.removeExpired now (entries.delete key)).size < maxKeys := by
  have hnodup := (RateLimit.removeExpired now (entries.delete key)).nodup_keys
  have hlive : ∀ k ∈ (RateLimit.removeExpired now (entries.delete key)).keys,
      k ≠ key ∧ k ∈ liveKeys now (t.set key counter) := by
    intro k hk
    obtain ⟨c, hmem⟩ := OrderedMap.mem_keys.mp hk
    have hget := OrderedMap.get_eq_some_iff.mpr hmem
    rw [get_removeExpired, OrderedMap.get_delete] at hget
    split_ifs at hget with hne
    · cases hget
    · refine ⟨hne, ?_⟩
      show (liveAt now (t.set key counter k)).isSome = true
      rw [Table.set_of_ne hne, ← h k, hget]
      rfl
  have hself : key ∈ liveKeys now (t.set key counter) := by
    show (liveAt now (t.set key counter key)).isSome = true
    rw [Table.set_self, liveAt_eq_some.mpr ⟨hcounter, rfl⟩]
    rfl
  have hlength := length_le_of_encard_le
    (List.nodup_cons.mpr ⟨fun hkey => (hlive key hkey).1 rfl, hnodup⟩)
    (List.forall_mem_cons.mpr ⟨hself, fun k hk => (hlive k hk).2⟩) hfits
  rw [List.length_cons] at hlength
  exact hlength.trans_eq' (congrArg _ (OrderedMap.length_keys _))

/-- **One increment**: the two answers are one, and the windows still agree. -/
theorem Agree.increment (h : Agree now f.entries t) (hkeys : "" ∉ f.entries.keys)
    (hwindow : 0 < windowSeconds)
    (hfits : (liveKeys now (incrementUnbounded key windowSeconds now t).2).encard ≤ f.maxKeys) :
    (increment key windowSeconds now f).1 = (incrementUnbounded key windowSeconds now t).1 ∧
      Agree now (increment key windowSeconds now f).2.entries
        (incrementUnbounded key windowSeconds now t).2 := by
  have hkey := h key
  rcases live_or_none now key f.entries with ⟨counter, hget, hlive⟩ | hnone
  · rw [hget, liveAt_eq_some.mpr ⟨hlive, rfl⟩] at hkey
    rw [increment_of_live hget hlive, incrementUnbounded, ← hkey]
    exact ⟨rfl, h.set key _⟩
  · rw [hnone] at hkey
    have hunbounded : incrementUnbounded key windowSeconds now t =
        (⟨1, windowSeconds⟩, t.set key ⟨1, now + windowSeconds * 1000⟩) := by
      rw [incrementUnbounded, ← hkey]
    have hstarts : now < now + windowSeconds * 1000 := by linarith
    rw [hunbounded] at hfits ⊢
    rw [increment_of_none hnone, openWindow,
      makeRoom_of_lt (empty_not_mem_delete hkeys key) (h.size_lt hstarts hfits)]
    refine ⟨rfl, ?_⟩
    have hset := (h.delete key).removeExpired.set key ⟨1, now + windowSeconds * 1000⟩
    rwa [Table.set_erase] at hset

/-- At each increment at most `maxKeys` keys have a window that is not over. -/
def Fits (maxKeys : ℕ) (calls : List Call) : Prop :=
  ∀ before key windowSeconds now, before ++ [.increment key windowSeconds now] <+: calls →
    (liveKeys now (run performUnbounded Table.empty
      (before ++ [.increment key windowSeconds now]))).encard ≤ maxKeys

theorem Fits.of_append (h : Fits maxKeys (calls ++ more)) : Fits maxKeys calls :=
  fun before key windowSeconds now hbefore =>
    h before key windowSeconds now (hbefore.trans (List.prefix_append calls more))

theorem performUnbounded_of_ne (hne : k ≠ call.key) : (performUnbounded t call).2 k = t k := by
  cases call with
  | increment key windowSeconds now =>
    show (incrementUnbounded key windowSeconds now t).2 k = t k
    unfold incrementUnbounded
    split
    · exact Table.set_of_ne hne
    · exact Table.set_of_ne hne
  | delete key => exact Table.erase_of_ne hne

theorem key_of_run (h : (run performUnbounded Table.empty calls k).isSome) :
    k ∈ calls.map Call.key := by
  induction calls using List.reverseRecOn with
  | nil => cases h
  | append_singleton calls call ih =>
    rw [List.map_append, List.mem_append]
    by_cases hne : k = call.key
    · exact .inr (List.mem_singleton.mpr hne)
    · rw [run_concat, performUnbounded_of_ne hne] at h
      exact .inl (ih h)

/-- The windows of `maxKeys` keys always fit. -/
theorem Fits.of_keys (h : (calls.map Call.key).dedup.length ≤ maxKeys) : Fits maxKeys calls := by
  intro before key windowSeconds now hbefore
  have hsub : liveKeys now (run performUnbounded Table.empty
      (before ++ [.increment key windowSeconds now])) ⊆ (calls.map Call.key).toFinset := by
    intro k hk
    have hsome := Option.isSome_of_isSome_filter _ _ hk
    have hmem := key_of_run hsome
    exact List.mem_toFinset.mpr ((hbefore.sublist.map Call.key).subset hmem)
  have hle := Set.encard_le_encard hsub
  rw [Set.encard_coe_eq_coe_finsetCard, List.card_toFinset] at hle
  exact hle.trans (by exact_mod_cast h)

/-- **The simulation**: as long as the windows fit, the answers are those of the unbounded
counter. -/
theorem answers_eq (h : 1 ≤ maxKeys) (hregular : Regular window calls)
    (hfits : Fits maxKeys calls) :
    answers perform ⟨maxKeys, .empty, h⟩ calls = answers performUnbounded Table.empty calls ∧
      ∀ now, (∀ time ∈ calls.filterMap Call.time, time ≤ now) →
        Agree now (run perform ⟨maxKeys, .empty, h⟩ calls).entries
          (run performUnbounded Table.empty calls) := by
  induction calls using List.reverseRecOn with
  | nil => exact ⟨rfl, fun _ _ _ => rfl⟩
  | append_singleton calls call ih =>
    obtain ⟨hanswers, hagree⟩ := ih hregular.of_append hfits.of_append
    have hsound := Sound.run h hregular.of_append
    rw [answers_concat, answers_concat, run_concat, run_concat, hanswers]
    cases call with
    | increment key windowSeconds now =>
      have hnow : Agree now (run perform ⟨maxKeys, .empty, h⟩ calls).entries
          (run performUnbounded Table.empty calls) := hagree now fun _ => hregular.time_le
      have hlast := hfits calls key windowSeconds now List.prefix_rfl
      rw [run_concat, ← hsound.maxKeys_eq] at hlast
      obtain ⟨hanswer, hnext⟩ := hnow.increment hsound.keys_ne hregular.window_last_pos hlast
      refine ⟨congrArg (fun counted => _ ++ [some counted]) hanswer, fun later hlater => ?_⟩
      exact hnext.mono (hlater now (now_mem_times calls key windowSeconds now))
    | delete key =>
      refine ⟨rfl, fun later hlater => ?_⟩
      have hbefore : Agree later (run perform ⟨maxKeys, .empty, h⟩ calls).entries
          (run performUnbounded Table.empty calls) :=
        hagree later fun time htime => hlater time (mem_times_append htime)
      exact hbefore.delete key

/-- **The fallback is bounded and faithful**: it never holds more than `maxKeys` keys, no count is
above the number of increments in the last window, and as long as the windows fit the answers are
those of the unbounded counter. -/
theorem fallback_bounded (maxKeys : ℕ) (window : String → ℚ) (calls : List Call)
    (hmax : 1 ≤ maxKeys) (hregular : Regular window calls) :
    ∃ start, construct maxKeys = .ok start ∧
      (∀ before, before <+: calls → size (run perform start before) ≤ maxKeys) ∧
      (∀ before key windowSeconds now, before ++ [.increment key windowSeconds now] <+: calls →
        (increment key windowSeconds now (run perform start before)).1.count ≤
          increments key (fun time => now - window key * 1000 < time ∧ time ≤ now)
            (before ++ [.increment key windowSeconds now])) ∧
      (Fits maxKeys calls →
        answers perform start calls = answers performUnbounded Table.empty calls) := by
  refine ⟨⟨maxKeys, .empty, hmax⟩, dif_pos hmax, ?_, ?_, ?_⟩
  · rintro before ⟨more, rfl⟩
    exact (Sound.run hmax hregular.of_append).size_le
  · rintro before key windowSeconds now ⟨more, rfl⟩
    have hlast := hregular.of_append
    exact (Sound.run hmax hlast.of_append).count_le hlast
  · exact fun hfits => (answers_eq hmax hregular hfits).1

/-- The window of `"a"` is over when it is counted again. -/
theorem fallback_bounded_expired : ∃ start, construct 2 = .ok start ∧
    size (run perform start [.increment "a" 1 0, .increment "b" 1 500, .increment "a" 1 1500]) ≤ 2 ∧
    answers perform start [.increment "a" 1 0, .increment "b" 1 500, .increment "a" 1 1500] =
      answers performUnbounded Table.empty
        [.increment "a" 1 0, .increment "b" 1 500, .increment "a" 1 1500] := by
  have hregular : Regular (fun _ => 1)
      [.increment "a" 1 0, .increment "b" 1 500, .increment "a" 1 1500] := by
    refine ⟨fun _ => one_pos, by simp [Call.key], ?_, ?_⟩
    · intro key windowSeconds now hmem
      simp only [List.mem_cons, Call.increment.injEq, List.not_mem_nil, or_false] at hmem
      rcases hmem with ⟨-, h, -⟩ | ⟨-, h, -⟩ | ⟨-, h, -⟩ <;> exact h
    · show ([0, 500, 1500] : List ℚ).Pairwise (· ≤ ·)
      norm_num
  obtain ⟨start, hstart, hsize, -, hanswers⟩ :=
    fallback_bounded 2 (fun _ => 1) _ (by decide) hregular
  exact ⟨start, hstart, hsize _ List.prefix_rfl, hanswers (Fits.of_keys (by decide))⟩

end BackendFoundation.Http.RateLimit
