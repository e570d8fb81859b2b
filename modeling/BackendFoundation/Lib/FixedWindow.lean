import Mathlib.Data.Finset.Card
import Mathlib.Data.Finset.Prod
import Mathlib.Data.Nat.Notation
import Mathlib.Order.Interval.Finset.Nat
import Mathlib.Tactic.Common

/-! # Counters of fixed windows

A counter counts up to its end, and the first call after it opens a window of a fixed length. Each call
takes a ticket: its time, the end of its window and its number there.

The windows of a counter do not overlap (`Kept`), so that an interval of the length of a window meets
two of them at most, and `2 * limit` tickets with a number up to `limit` (`Kept.length_le`). The
numbers of a window have no gaps (`Filled`), so that a number above the limit is only given once as
many have been taken. The first needs that the counter is never lost. -/

namespace BackendFoundation.Lib.FixedWindow

structure Counter where
  count : ℕ
  endsAt : ℕ
deriving DecidableEq

structure Ticket where
  time : ℕ
  endsAt : ℕ
  count : ℕ
deriving DecidableEq

/-- The counter after a call. A window ends once the clock is past `endsAt`, as a key of Redis does. -/
def take (window now : ℕ) (c : Option Counter) : Counter :=
  match c.filter (now ≤ ·.endsAt) with
  | some c => { c with count := c.count + 1 }
  | none => ⟨1, now + window⟩

def ticket (now : ℕ) (c : Counter) : Ticket := ⟨now, c.endsAt, c.count⟩

variable {window now now' t limit : ℕ} {c : Option Counter} {counter : Counter} {a b : Ticket}
  {tickets : List Ticket}

theorem take_cases (window now : ℕ) (c : Option Counter) :
    (∃ old, c = some old ∧ now ≤ old.endsAt ∧ take window now c = ⟨old.count + 1, old.endsAt⟩) ∨
      ((∀ old, c = some old → old.endsAt < now) ∧ take window now c = ⟨1, now + window⟩) := by
  cases c with
  | none => exact .inr ⟨fun _ h => (Option.some_ne_none _ h.symm).elim, rfl⟩
  | some old =>
    unfold take
    by_cases hlive : now ≤ old.endsAt
    · rw [Option.filter_some, if_pos (decide_eq_true hlive)]
      exact .inl ⟨old, rfl, hlive, rfl⟩
    · rw [Option.filter_some, if_neg (by simpa using hlive)]
      refine .inr ⟨fun old' h => ?_, rfl⟩
      cases h
      exact Nat.not_le.mp hlive

/-! ### The windows -/

/-- The first ticket is of an earlier window, or has a smaller number in the same. -/
def Before (window : ℕ) (a b : Ticket) : Prop :=
  (a.endsAt = b.endsAt ∧ a.count < b.count) ∨ a.endsAt + window < b.endsAt

/-- **The tickets of a counter that is never lost.** -/
structure Kept (window now : ℕ) (c : Option Counter) (tickets : List Ticket) : Prop where
  bounds : ∀ a ∈ tickets, 1 ≤ a.count ∧ a.time ≤ a.endsAt ∧ a.endsAt ≤ a.time + window ∧ a.time ≤ now
  apart : tickets.Pairwise (Before window)
  unused : c = none → tickets = []
  used : ∀ counter, c = some counter → counter.endsAt ≤ now + window ∧
    ∀ a ∈ tickets, (a.endsAt = counter.endsAt ∧ a.count ≤ counter.count) ∨
      a.endsAt + window < counter.endsAt

theorem Kept.new (window now : ℕ) : Kept window now none [] where
  bounds _ h := by cases h
  apart := .nil
  unused _ := rfl
  used _ h := by cases h

theorem Kept.later (h : Kept window now c tickets) (hle : now ≤ now') : Kept window now' c tickets := by
  refine ⟨fun a ha => ?_, h.apart, h.unused, fun counter hc => ?_⟩
  · obtain ⟨hcount, htime, hend, hnow⟩ := h.bounds a ha
    exact ⟨hcount, htime, hend, hnow.trans hle⟩
  · obtain ⟨hend, hused⟩ := h.used counter hc
    exact ⟨hend.trans (Nat.add_le_add_right hle window), hused⟩

/-- **A call** takes the next ticket. -/
theorem Kept.take (h : Kept window now c tickets) :
    Kept window now (some (take window now c)) (tickets ++ [ticket now (take window now c)]) := by
  -- every earlier ticket is before the new one
  have hnew : (∀ a ∈ tickets, Before window a (ticket now (FixedWindow.take window now c))) ∧
      1 ≤ (FixedWindow.take window now c).count ∧ now ≤ (FixedWindow.take window now c).endsAt ∧
      (FixedWindow.take window now c).endsAt ≤ now + window := by
    rcases take_cases window now c with ⟨old, rfl, hlive, he⟩ | ⟨hover, he⟩ <;> rw [he]
    · obtain ⟨hend, hused⟩ := h.used old rfl
      refine ⟨fun a ha => ?_, Nat.le_add_left _ _, hlive, hend⟩
      rcases hused a ha with ⟨hsame, hcount⟩ | hless
      · exact .inl ⟨hsame, Nat.lt_succ_of_le hcount⟩
      · exact .inr hless
    · refine ⟨fun a ha => .inr ?_, Nat.le_refl _, Nat.le_add_right _ _, Nat.le_refl _⟩
      cases c with
      | none =>
        rw [h.unused rfl] at ha
        cases ha
      | some old =>
        have hlt := hover old rfl
        have hend : a.endsAt ≤ old.endsAt := by
          rcases (h.used old rfl).2 a ha with ⟨hsame, -⟩ | hless <;> omega
        show a.endsAt + window < now + window
        omega
  obtain ⟨hbefore, hcount, hlive, hend⟩ := hnew
  generalize FixedWindow.take window now c = counter at hbefore hcount hlive hend
  refine ⟨fun a ha => ?_, ?_, fun hnone => ?_, fun counter' he => ?_⟩
  · rcases List.mem_append.mp ha with ha | ha
    · exact h.bounds a ha
    · rw [List.mem_singleton.mp ha]
      exact ⟨hcount, hlive, hend, Nat.le_refl _⟩
  · rw [List.pairwise_append]
    refine ⟨h.apart, List.pairwise_singleton _ _, fun a ha b hb => ?_⟩
    rw [List.mem_singleton.mp hb]
    exact hbefore a ha
  · cases hnone
  · obtain rfl := Option.some.inj he
    refine ⟨hend, fun a ha => ?_⟩
    rcases List.mem_append.mp ha with ha | ha
    · exact (hbefore a ha).imp_left fun hsame => ⟨hsame.1, hsame.2.le⟩
    · rw [List.mem_singleton.mp ha]
      exact .inl ⟨rfl, Nat.le_refl _⟩

/-- Two tickets with different ends are of windows that do not meet. -/
theorem Kept.ends (h : Kept window now c tickets) (ha : a ∈ tickets) (hb : b ∈ tickets)
    (hne : a.endsAt ≠ b.endsAt) : a.endsAt + window < b.endsAt ∨ b.endsAt + window < a.endsAt := by
  let Apart (a b : Ticket) : Prop := a.endsAt ≠ b.endsAt →
    a.endsAt + window < b.endsAt ∨ b.endsAt + window < a.endsAt
  have hsymm : Std.Symm Apart := ⟨fun a b hab hne => (hab hne.symm).symm⟩
  have hapart : tickets.Pairwise Apart :=
    h.apart.imp fun {a b} hbefore hne => .inl (hbefore.resolve_left fun hsame => hne hsame.1)
  exact hapart.forall_of_forall (fun a _ hne => absurd rfl hne) ha hb hne

/-- **In an interval of the length of a window** at most `2 * limit` tickets are taken with a number up
to `limit`. -/
theorem Kept.length_le (h : Kept window now c tickets) (t limit : ℕ) :
    (tickets.filter fun a => t ≤ a.time ∧ a.time ≤ t + window ∧ a.count ≤ limit).length ≤
      2 * limit := by
  set taken := tickets.filter fun a => t ≤ a.time ∧ a.time ≤ t + window ∧ a.count ≤ limit with htaken
  have hmem {a : Ticket} (ha : a ∈ taken) :
      a ∈ tickets ∧ t ≤ a.time ∧ a.time ≤ t + window ∧ a.count ≤ limit := by
    obtain ⟨ha, hfilter⟩ := List.mem_filter.mp ha
    exact ⟨ha, of_decide_eq_true hfilter⟩
  have hnodup : (taken.map fun a => (a.endsAt, a.count)).Nodup := by
    refine List.Pairwise.map _ (fun a b hbefore he => ?_) (h.apart.filter _)
    obtain ⟨hend, hcount⟩ := Prod.mk.inj he
    rcases hbefore with hless | hless <;> omega
  -- the interval meets two windows at most
  have hends : (taken.toFinset.image Ticket.endsAt).card ≤ 2 := by
    by_contra hcard
    obtain ⟨x, hx, y, hy, z, hz, hxy, hxz, hyz⟩ := Finset.two_lt_card.mp (Nat.not_le.mp hcard)
    have hget {x : ℕ} (hx : x ∈ taken.toFinset.image Ticket.endsAt) :
        ∃ a ∈ taken, a.endsAt = x := by simpa using hx
    obtain ⟨a, ha, rfl⟩ := hget hx
    obtain ⟨b, hb, rfl⟩ := hget hy
    obtain ⟨d, hd, rfl⟩ := hget hz
    obtain ⟨ha, ha₁, ha₂, -⟩ := hmem ha
    obtain ⟨hb, hb₁, hb₂, -⟩ := hmem hb
    obtain ⟨hd, hd₁, hd₂, -⟩ := hmem hd
    have hab := h.ends ha hb hxy
    have had := h.ends ha hd hxz
    have hbd := h.ends hb hd hyz
    obtain ⟨-, hat, haw, -⟩ := h.bounds a ha
    obtain ⟨-, hbt, hbw, -⟩ := h.bounds b hb
    obtain ⟨-, hdt, hdw, -⟩ := h.bounds d hd
    omega
  have hsubset : (taken.map fun a => (a.endsAt, a.count)).toFinset ⊆
      taken.toFinset.image Ticket.endsAt ×ˢ Finset.Icc 1 limit := by
    intro p hp
    obtain ⟨a, ha, rfl⟩ := List.mem_map.mp (List.mem_toFinset.mp hp)
    refine Finset.mem_product.mpr ⟨Finset.mem_image_of_mem _ (List.mem_toFinset.mpr ha), ?_⟩
    exact Finset.mem_Icc.mpr ⟨(h.bounds a (hmem ha).1).1, (hmem ha).2.2.2⟩
  calc taken.length = (taken.map fun a => (a.endsAt, a.count)).toFinset.card := by
        rw [List.toFinset_card_of_nodup hnodup, List.length_map]
    _ ≤ (taken.toFinset.image Ticket.endsAt).card * (Finset.Icc 1 limit).card := by
        rw [← Finset.card_product]
        exact Finset.card_le_card hsubset
    _ ≤ 2 * limit := by
        rw [Nat.card_Icc, Nat.add_sub_cancel]
        exact Nat.mul_le_mul_right _ hends

/-! ### The numbers of a window -/

/-- **The numbers of a window have no gaps**, also if the counter may be lost. -/
structure Filled (c : Option Counter) (tickets : List Ticket) : Prop where
  counter : ∀ counter, c = some counter → ∀ n, 1 ≤ n → n ≤ counter.count →
    ∃ b ∈ tickets, b.endsAt = counter.endsAt ∧ b.count = n
  tickets : ∀ a ∈ tickets, ∀ n, 1 ≤ n → n ≤ a.count → ∃ b ∈ tickets, b.endsAt = a.endsAt ∧ b.count = n

theorem Filled.new : Filled none [] where
  counter _ h := by cases h
  tickets _ h := by cases h

theorem Filled.lost (h : Filled c tickets) : Filled none tickets where
  counter _ h := by cases h
  tickets := h.tickets

theorem Filled.take (h : Filled c tickets) (window now : ℕ) :
    Filled (some (take window now c)) (tickets ++ [ticket now (take window now c)]) := by
  have hnew : ∀ n, 1 ≤ n → n ≤ (FixedWindow.take window now c).count →
      ∃ b ∈ tickets ++ [ticket now (FixedWindow.take window now c)],
        b.endsAt = (FixedWindow.take window now c).endsAt ∧ b.count = n := by
    intro n hpos hle
    rcases Nat.lt_or_eq_of_le hle with hlt | rfl
    · rcases take_cases window now c with ⟨old, hc, -, he⟩ | ⟨-, he⟩ <;> rw [he] at hlt ⊢
      · obtain ⟨b, hb, hend, hcount⟩ := h.counter old hc n hpos (Nat.le_of_lt_succ hlt)
        exact ⟨b, List.mem_append_left _ hb, hend, hcount⟩
      · exact absurd hlt (Nat.not_lt.mpr hpos)
    · exact ⟨_, List.mem_append_right _ List.mem_cons_self, rfl, rfl⟩
  refine ⟨fun counter he => ?_, fun a ha n hpos hle => ?_⟩
  · obtain rfl := Option.some.inj he
    exact hnew
  · rcases List.mem_append.mp ha with ha | ha
    · obtain ⟨b, hb, hsame⟩ := h.tickets a ha n hpos hle
      exact ⟨b, List.mem_append_left _ hb, hsame⟩
    · obtain rfl := List.mem_singleton.mp ha
      exact hnew n hpos hle

end BackendFoundation.Lib.FixedWindow
