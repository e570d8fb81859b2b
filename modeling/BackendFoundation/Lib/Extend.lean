import BackendFoundation.Lib.Logs
import BackendFoundation.Lib.Schema

/-! # A schema as a part of a larger one

`Both` has the tables of two schemas. A statement on the tables of the first one is a statement on all
of them (`liftStmt`) that leaves the tables of the second one, and of a reply it sees the part on its
own tables (`partReply`). So what a program has written on its own schema is what it has written on
the larger one: `leads_lift`. -/

set_option linter.unusedSectionVars false

namespace BackendFoundation.Lib.Extend

open Lib.Database Lib.WriteLog Lib.Schema Lib.Services Lib.Logs

universe u v

variable {T T' : Type u} [DecidableEq T] [DecidableEq T'] {I R : T → Type v} {I' R' : T' → Type v}
  [∀ t, DecidableEq (I t)] [∀ t, DecidableEq (R t)] [∀ t, DecidableEq (I' t)]
  [∀ t, DecidableEq (R' t)]

/-- The tables of two schemas, with their ids or with their rows. -/
abbrev Both (F : T → Type v) (G : T' → Type v) : T ⊕ T' → Type v
  | .inl t => F t
  | .inr t => G t

instance {F : T → Type v} {G : T' → Type v} [∀ t, DecidableEq (F t)] [∀ t, DecidableEq (G t)] :
    ∀ t, DecidableEq (Both F G t)
  | .inl t => inferInstanceAs (DecidableEq (F t))
  | .inr t => inferInstanceAs (DecidableEq (G t))

/-- The rows of both schemas. -/
abbrev BothRows (I R : T → Type v) (I' R' : T' → Type v) : Key (Both I I') → Type v :=
  RowOf (Both I I') (Both R R')

/-- A key of the first schema. -/
def first (k : Key I) : Key (Both I I') := ⟨.inl k.1, k.2⟩

/-- A condition on the rows of the first schema. -/
def liftCond (cond : ∀ k, RowOf I R k → Bool) : ∀ k, BothRows I R I' R' k → Bool
  | ⟨.inl t, id⟩, row => cond ⟨t, id⟩ row
  | ⟨.inr _, _⟩, _ => false

/-- Data for the rows of the first schema. -/
def liftData (data : ∀ k, RowOf I R k → Option (RowOf I R k)) :
    ∀ k, BothRows I R I' R' k → Option (BothRows I R I' R' k)
  | ⟨.inl t, id⟩, row => data ⟨t, id⟩ row
  | ⟨.inr _, _⟩, row => some row

/-- A statement on the first schema. -/
def liftStmt : Stmt (RowOf I R) → Stmt (BothRows I R I' R')
  | .read => .read
  | .insert k row => .insert (first k) row
  | .update cond data => .update (liftCond cond) (liftData data)
  | .lock k => .lock (first k)
  | .commit => .commit

/-- The rows of the first schema. -/
def partRows (rows : Rows (BothRows I R I' R')) : Rows (RowOf I R) := fun k => rows (first k)

/-- What a reply says of the first schema. -/
def partReply : Reply (BothRows I R I' R') → Reply (RowOf I R)
  | .rows rows => .rows (partRows rows)
  | .count n => .count n
  | .done => .done

/-- The keys of the first schema. -/
def partKeys (keys : List (Key (Both I I'))) : List (Key I) :=
  keys.filterMap fun
    | ⟨.inl t, id⟩ => some ⟨t, id⟩
    | ⟨.inr _, _⟩ => none

def partSite (site : Site (Key (Both I I'))) : Site (Key I) :=
  ⟨site.now, partKeys site.keys, site.pick⟩

/-- What has been written on the first schema. -/
def liftEntry (e : Entry (RowOf I R)) : Entry (BothRows I R I' R')
  | ⟨.inl t, id⟩, before, after => e ⟨t, id⟩ before after
  | ⟨.inr _, _⟩, before, after => after = before

section Keys

variable {k k' : Key I} {rows : Rows (BothRows I R I' R')} {keys : List (Key (Both I I'))}

@[simp] theorem first_inj : (first k : Key (Both I I')) = first k' ↔ k = k' := by
  constructor
  · intro h
    obtain ⟨t, id⟩ := k
    obtain ⟨t', id'⟩ := k'
    obtain ⟨ht, hid⟩ := Sigma.mk.inj h
    cases Sum.inl.inj ht
    cases hid
    rfl
  · rintro rfl
    rfl

theorem mem_partKeys : k ∈ partKeys keys ↔ (first k : Key (Both I I')) ∈ keys := by
  unfold partKeys
  rw [List.mem_filterMap]
  constructor
  · rintro ⟨⟨t | t, id⟩, hmem, h⟩
    · obtain rfl := Option.some.inj h
      exact hmem
    · cases h
  · exact fun h => ⟨first k, h, rfl⟩

end Keys

/-! ### What has been written -/

variable {t : T} {t' : T'} {id : I t} {id' : I' t'}

section Entries

variable {entries : List (Entry (RowOf I R))}

theorem inTurn_lift_first : ∀ {before after : Option (R t)},
    Entry.inTurn (entries.map liftEntry : List (Entry (BothRows I R I' R'))) ⟨.inl t, id⟩ before
      after ↔ Entry.inTurn entries ⟨t, id⟩ before after := by
  induction entries with
  | nil => exact Iff.rfl
  | cons e es ih =>
    intro before after
    rw [List.map_cons, Entry.inTurn_cons, Entry.inTurn_cons]
    exact exists_congr fun between => and_congr Iff.rfl ih

theorem inTurn_lift_second : ∀ {before after : Option (R' t')},
    Entry.inTurn (entries.map liftEntry : List (Entry (BothRows I R I' R'))) ⟨.inr t', id'⟩ before
      after ↔ after = before := by
  induction entries with
  | nil => exact Iff.rfl
  | cons e es ih =>
    intro before after
    rw [List.map_cons, Entry.inTurn_cons]
    constructor
    · rintro ⟨between, hbetween, h⟩
      exact (ih.mp h).trans hbetween
    · rintro rfl
      exact ⟨after, rfl, ih.mpr rfl⟩

theorem inTurn_first_of_same {extra : List (Entry (BothRows I R I' R'))}
    (h : ∀ e ∈ extra, ∀ before after : Option (R t), e ⟨.inl t, id⟩ before after ↔ after = before) :
    ∀ {before after : Option (R t)},
      Entry.inTurn extra ⟨.inl t, id⟩ before after ↔ after = before := by
  induction extra with
  | nil => exact Iff.rfl
  | cons e es ih =>
    intro before after
    have hrest := @ih fun e' he' => h e' (List.mem_cons_of_mem _ he')
    have he := h e List.mem_cons_self
    rw [Entry.inTurn_cons]
    constructor
    · rintro ⟨between, hbetween, h⟩
      exact (hrest.mp h).trans ((he _ _).mp hbetween)
    · rintro rfl
      exact ⟨after, (he _ _).mpr rfl, hrest.mpr rfl⟩

end Entries

section Statements

variable {stmt : Stmt (RowOf I R)} {reply : Reply (BothRows I R I' R')}
  {cond : ∀ k, RowOf I R k → Bool}

@[simp] theorem liftStmt_eq_commit :
    (liftStmt stmt : Stmt (BothRows I R I' R')) = .commit ↔ stmt = .commit := by
  cases stmt <;> simp [liftStmt]

theorem partReply_eq_count {n : ℕ} : partReply reply = .count n ↔ reply = .count n := by
  cases reply <;> simp [partReply]

theorem only_lift {k : Key I} (h : Only cond k) :
    Only (liftCond cond : ∀ k, BothRows I R I' R' k → Bool) (first k) := by
  rintro ⟨t | t, id⟩ row hrow
  · rw [← h ⟨t, id⟩ row hrow]
    rfl
  · cases hrow

/-- A statement does to the first schema what it says there. -/
theorem effect_lift_first {before after : Option (R t)}
    (h : effect (liftStmt stmt) reply ⟨.inl t, id⟩ before after) :
    effect stmt (partReply reply) ⟨t, id⟩ before after := by
  cases stmt with
  | read | lock k | commit => exact h
  | insert k row =>
    rcases h with ⟨hne, rfl⟩ | ⟨hk, rfl, rfl⟩
    · exact .inl ⟨fun hk => hne (hk ▸ rfl), rfl⟩
    · obtain rfl : k = ⟨t, id⟩ := first_inj.mp hk
      exact .inr ⟨rfl, rfl, rfl⟩
  | update cond data =>
    rcases h with ⟨rfl, hnone⟩ | ⟨row, rfl, hcond, rfl, hcount⟩
    · exact .inl ⟨rfl, fun hone n hn => hnone (only_lift hone) n (partReply_eq_count.mp hn)⟩
    · refine .inr ⟨row, rfl, hcond, rfl, fun n hn => ?_⟩
      obtain ⟨hn, hone⟩ := hcount n (partReply_eq_count.mp hn)
      exact ⟨hn, fun honly => hone (only_lift honly)⟩

/-- A statement on the first schema leaves the second one. -/
theorem effect_lift_second {before after : Option (R' t')}
    (h : effect (liftStmt stmt : Stmt (BothRows I R I' R')) reply ⟨.inr t', id'⟩ before after) :
    after = before := by
  cases stmt with
  | read | lock k | commit => exact h
  | insert k row =>
    rcases h with ⟨-, rfl⟩ | ⟨hk, -⟩
    · rfl
    · cases (Sigma.mk.inj hk).1
  | update cond data =>
    rcases h with ⟨rfl, -⟩ | ⟨row, -, hcond, -⟩
    · rfl
    · cases hcond

/-- **What a program writes on its own schema** it writes on the larger one, beside what has been
written on the second schema. -/
theorem leads_lift {entries entries' : List (Entry (RowOf I R))}
    {extra : List (Entry (BothRows I R I' R'))}
    (hextra : ∀ e ∈ extra, ∀ t id (before after : Option (R t)),
      e ⟨.inl t, id⟩ before after ↔ after = before)
    (h : Leads entries stmt (partReply reply) entries') :
    Leads (entries.map liftEntry ++ extra) (liftStmt stmt) reply
      (entries'.map liftEntry ++ extra) := by
  intro hcommit
  have h := h fun he => hcommit (liftStmt_eq_commit.mpr he)
  rintro ⟨t | t, id⟩ before between after hwritten heffect
  · have hsame {b a : Option (R t)} : Entry.inTurn extra ⟨.inl t, id⟩ b a ↔ a = b :=
      inTurn_first_of_same fun e he => hextra e he t id
    obtain ⟨mid, hmid, hlast⟩ := Entry.inTurn_append.mp hwritten
    obtain rfl := hsame.mp hlast
    refine Entry.inTurn_append.mpr ⟨after, ?_, hsame.mpr rfl⟩
    exact inTurn_lift_first.mpr
      (h _ _ _ _ (inTurn_lift_first.mp hmid) (effect_lift_first heffect))
  · obtain rfl := effect_lift_second heffect
    obtain ⟨mid, hmid, hlast⟩ := Entry.inTurn_append.mp hwritten
    obtain rfl := inTurn_lift_second.mp hmid
    exact Entry.inTurn_append.mpr ⟨mid, inTurn_lift_second.mpr rfl, hlast⟩

end Statements

end BackendFoundation.Lib.Extend
