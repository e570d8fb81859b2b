import BackendFoundation.Lib.WriteLog
import Mathlib.Data.Sigma.Basic

/-! # Databases with several tables

A schema has tables `T`, each with its ids and its rows; a key is a table with an id. An `Update` is
one of the rows of a table. What it does is `May` if it takes any number of rows, and `Must` if it has
to find its row; an insert is `New`. A `Removal` deletes rows, and an `Upsert` updates its row or
inserts it. The entries of several statements one after the other are read table by table. -/

set_option linter.unusedSectionVars false

namespace BackendFoundation.Lib.Schema

open Lib.Database Lib.WriteLog

variable {T : Type*} [DecidableEq T] {I R : T → Type*}

/-- A table with an id. -/
abbrev Key (I : T → Type*) := (t : T) × I t

abbrev RowOf (I R : T → Type*) : Key I → Type _ := fun k => R k.1

def castId {t t' : T} (h : t' = t) (id : I t') : I t := h ▸ id

def castRow {t t' : T} (h : t' = t) (row : R t') : R t := h ▸ row

@[simp] theorem castId_rfl {t : T} {id : I t} : castId rfl id = id := rfl

@[simp] theorem castRow_rfl {t : T} {row : R t} : castRow rfl row = row := rfl

/-- A condition on the rows of the table `t`. -/
def whereIn (t : T) (p : I t → R t → Bool) : ∀ k, RowOf I R k → Bool := fun k row =>
  if h : k.1 = t then p (castId h k.2) (castRow h row) else false

/-- Data for the rows of the table `t`. -/
def setIn (t : T) (f : R t → R t) : ∀ k, RowOf I R k → Option (RowOf I R k) := fun k row =>
  if h : k.1 = t then some (show R k.1 from castRow h.symm (f (castRow h row))) else some row

/-- Deletes the rows of the table `t`. -/
def dropIn (t : T) : ∀ k, RowOf I R k → Option (RowOf I R k) := fun k row =>
  if k.1 = t then none else some row

variable {t t' : T} {id id' : I t} {p : I t → R t → Bool} {q : R t → Bool} {f : R t → R t}
  {row : R t} {before after : Option (R t)}

/-- `updateMany` on the table `t`. -/
structure Update (I R : T → Type*) (t : T) where
  cond : I t → R t → Bool
  data : R t → R t

def Update.stmt (u : Update I R t) : Stmt (RowOf I R) :=
  .update (whereIn t u.cond) (setIn t u.data)

/-- `deleteMany` on the table `t`. -/
structure Removal (I R : T → Type*) (t : T) where
  cond : I t → R t → Bool

def Removal.stmt (r : Removal I R t) : Stmt (RowOf I R) := .update (whereIn t r.cond) (dropIn t)

/-- `upsert` on the table `t`: an update of the row `id`, and an insert if there is none. -/
structure Upsert (I R : T → Type*) (t : T) where
  id : I t
  row : R t
  data : R t → R t

/-- The update of an upsert. -/
def Upsert.update [∀ t, DecidableEq (I t)] (u : Upsert I R t) : Update I R t where
  cond id _ := id = u.id
  data := u.data

@[simp] theorem whereIn_self : whereIn t p ⟨t, id⟩ row = p id row := by
  simp [whereIn]

theorem whereIn_eq_true {k : Key I} {row : RowOf I R k} (h : whereIn t p k row = true) :
    ∃ id, ∃ row' : R t, k = ⟨t, id⟩ ∧ HEq row row' ∧ p id row' = true := by
  obtain ⟨t', id'⟩ := k
  unfold whereIn at h
  split_ifs at h with ht
  · have ht : t' = t := ht
    subst ht
    exact ⟨id', row, rfl, HEq.rfl, h⟩

@[simp] theorem setIn_self : setIn (I := I) t f ⟨t, id⟩ row = some (f row) := by
  simp [setIn]

@[simp] theorem dropIn_self : dropIn (I := I) (R := R) t ⟨t, id⟩ row = none := by
  simp [dropIn]

/-! ### Entries -/

/-- Any rows of the table that meet the condition have been updated. -/
inductive May (t : T) (p : I t → R t → Bool) (f : R t → R t) : Entry (RowOf I R)
  | same {k : Key I} {row : Option (RowOf I R k)} : May t p f k row row
  | changed {id : I t} {row : R t} : p id row = true → May t p f ⟨t, id⟩ (some row) (some (f row))

/-- The row of this id met the condition, and has been updated. -/
inductive Must (t : T) (id : I t) (q : R t → Bool) (f : R t → R t) : Entry (RowOf I R)
  | other {k : Key I} {row : Option (RowOf I R k)} : k ≠ ⟨t, id⟩ → Must t id q f k row row
  | changed {row : R t} : q row = true → Must t id q f ⟨t, id⟩ (some row) (some (f row))

/-- The row has been inserted. -/
inductive New (t : T) (id : I t) (row : R t) : Entry (RowOf I R)
  | other {k : Key I} {row' : Option (RowOf I R k)} : k ≠ ⟨t, id⟩ → New t id row k row' row'
  | inserted : New t id row ⟨t, id⟩ none (some row)

/-- Any rows of the table that meet the condition have been deleted. -/
inductive Dropped (t : T) (p : I t → R t → Bool) : Entry (RowOf I R)
  | same {k : Key I} {row : Option (RowOf I R k)} : Dropped t p k row row
  | dropped {id : I t} {row : R t} : p id row = true → Dropped t p ⟨t, id⟩ (some row) none

/-- The row of this id has been updated, or inserted if there was none. -/
inductive Put (t : T) (id : I t) (row : R t) (f : R t → R t) : Entry (RowOf I R)
  | other {k : Key I} {row' : Option (RowOf I R k)} : k ≠ ⟨t, id⟩ → Put t id row f k row' row'
  | inserted : Put t id row f ⟨t, id⟩ none (some row)
  | updated {old : R t} : Put t id row f ⟨t, id⟩ (some old) (some (f old))

def Removal.may (r : Removal I R t) : Entry (RowOf I R) := Dropped t r.cond

def Upsert.put (u : Upsert I R t) : Entry (RowOf I R) := Put t u.id u.row u.data

/-- Any rows that the update can take. -/
def Update.may (u : Update I R t) : Entry (RowOf I R) := May t u.cond u.data

/-- The row `id`, which the update has taken. -/
def Update.must (u : Update I R t) (id : I t) : Entry (RowOf I R) := Must t id (u.cond id) u.data

theorem may_iff : May (I := I) t p f ⟨t, id⟩ before after ↔
    after = before ∨ ∃ row, before = some row ∧ p id row = true ∧ after = some (f row) := by
  constructor
  · intro h
    cases h with
    | same => exact .inl rfl
    | changed hp => exact .inr ⟨_, rfl, hp, rfl⟩
  · rintro (rfl | ⟨row, rfl, hp, rfl⟩)
    · exact .same
    · exact .changed hp

theorem must_self_iff : Must (I := I) t id q f ⟨t, id⟩ before after ↔
    ∃ row, before = some row ∧ q row = true ∧ after = some (f row) := by
  constructor
  · intro h
    cases h with
    | other hne => exact absurd rfl hne
    | changed hq => exact ⟨_, rfl, hq, rfl⟩
  · rintro ⟨row, rfl, hq, rfl⟩
    exact .changed hq

theorem must_other_iff (h : id' ≠ id) : Must t id q f ⟨t, id'⟩ before after ↔ after = before := by
  have hne : (⟨t, id'⟩ : Key I) ≠ ⟨t, id⟩ := fun he => h (eq_of_heq (Sigma.mk.inj he).2)
  constructor
  · intro hm
    cases hm with
    | other _ => rfl
    | changed _ => exact absurd rfl h
  · rintro rfl
    exact .other hne

theorem new_self_iff : New t id row ⟨t, id⟩ before after ↔ before = none ∧ after = some row := by
  constructor
  · intro h
    cases h with
    | other hne => exact absurd rfl hne
    | inserted => exact ⟨rfl, rfl⟩
  · rintro ⟨rfl, rfl⟩
    exact .inserted

theorem new_other_iff (h : id' ≠ id) : New t id row ⟨t, id'⟩ before after ↔ after = before := by
  have hne : (⟨t, id'⟩ : Key I) ≠ ⟨t, id⟩ := fun he => h (eq_of_heq (Sigma.mk.inj he).2)
  constructor
  · intro hm
    cases hm with
    | other _ => rfl
    | inserted => exact absurd rfl h
  · rintro rfl
    exact .other hne

section OtherTable

variable {id' : I t'} {before after : Option (R t')}

theorem key_ne (h : t' ≠ t) : (⟨t', id'⟩ : Key I) ≠ ⟨t, id⟩ := fun he => h (Sigma.mk.inj he).1

theorem may_of_ne (h : t' ≠ t) : May t p f ⟨t', id'⟩ before after ↔ after = before := by
  constructor
  · intro hm
    cases hm with
    | same => rfl
    | changed _ => exact absurd rfl h
  · rintro rfl
    exact .same

theorem must_of_ne (h : t' ≠ t) : Must t id q f ⟨t', id'⟩ before after ↔ after = before := by
  constructor
  · intro hm
    cases hm with
    | other _ => rfl
    | changed _ => exact absurd rfl h
  · rintro rfl
    exact .other (key_ne h)

@[simp] theorem new_of_ne (h : t' ≠ t) : New t id row ⟨t', id'⟩ before after ↔ after = before := by
  constructor
  · intro hm
    cases hm with
    | other _ => rfl
    | inserted => exact absurd rfl h
  · rintro rfl
    exact .other (key_ne h)

@[simp] theorem Update.may_of_ne {u : Update I R t} (h : t' ≠ t) :
    u.may ⟨t', id'⟩ before after ↔ after = before :=
  Schema.may_of_ne h

@[simp] theorem Update.must_of_ne {u : Update I R t} (h : t' ≠ t) :
    u.must id ⟨t', id'⟩ before after ↔ after = before :=
  Schema.must_of_ne h

@[simp] theorem Removal.may_of_ne {r : Removal I R t} (h : t' ≠ t) :
    r.may ⟨t', id'⟩ before after ↔ after = before := by
  constructor
  · intro hm
    cases hm with
    | same => rfl
    | dropped _ => exact absurd rfl h
  · rintro rfl
    exact .same

@[simp] theorem Upsert.put_of_ne {u : Upsert I R t} (h : t' ≠ t) :
    u.put ⟨t', id'⟩ before after ↔ after = before := by
  constructor
  · intro hm
    cases hm with
    | other _ => rfl
    | inserted | updated => exact absurd rfl h
  · rintro rfl
    exact .other (key_ne h)

end OtherTable

theorem Update.may_cases {u : Update I R t} (h : u.may ⟨t, id⟩ before after) :
    after = before ∨ ∃ row, before = some row ∧ u.cond id row = true ∧ after = some (u.data row) :=
  may_iff.mp h

theorem Update.must_cases {u : Update I R t} (h : u.must id ⟨t, id'⟩ before after) :
    (id' ≠ id ∧ after = before) ∨ (id' = id ∧
      ∃ row, before = some row ∧ u.cond id row = true ∧ after = some (u.data row)) := by
  by_cases hid : id' = id
  · subst hid
    exact .inr ⟨rfl, must_self_iff.mp h⟩
  · exact .inl ⟨hid, (must_other_iff hid).mp h⟩

theorem new_cases (h : New t id row ⟨t, id'⟩ before after) :
    (id' ≠ id ∧ after = before) ∨ (id' = id ∧ before = none ∧ after = some row) := by
  by_cases hid : id' = id
  · subst hid
    exact .inr ⟨rfl, new_self_iff.mp h⟩
  · exact .inl ⟨hid, (new_other_iff hid).mp h⟩

variable {r : Removal I R t}

theorem Removal.may_cases (h : r.may ⟨t, id⟩ before after) :
    after = before ∨ ∃ row, before = some row ∧ r.cond id row = true ∧ after = none := by
  cases h with
  | same => exact .inl rfl
  | dropped hp => exact .inr ⟨_, rfl, hp, rfl⟩

theorem Upsert.put_cases {u : Upsert I R t} (h : u.put ⟨t, id⟩ before after) :
    (id ≠ u.id ∧ after = before) ∨ (id = u.id ∧ before = none ∧ after = some u.row) ∨
      id = u.id ∧ ∃ row, before = some row ∧ after = some (u.data row) := by
  obtain ⟨id', row, data⟩ := u
  cases h with
  | other hne => exact .inl ⟨fun he => hne (by rw [he]), rfl⟩
  | inserted => exact .inr (.inl ⟨rfl, rfl, rfl⟩)
  | updated => exact .inr (.inr ⟨rfl, _, rfl, rfl⟩)

/-! ### Statements -/

section Updates

variable {u : Update I R t} {reply : Reply (RowOf I R)} {k : Key I} {n : ℕ}
  {before after : Option (RowOf I R k)}

theorem Update.stmt_ne_commit : u.stmt ≠ .commit := by
  simp [Update.stmt]

theorem Update.effect_may (h : effect u.stmt reply k before after) : u.may k before after := by
  rcases h with ⟨rfl, -⟩ | ⟨row, rfl, hp, rfl, -⟩
  · exact .same
  · obtain ⟨id, row', rfl, hrow, hp'⟩ := whereIn_eq_true hp
    obtain rfl := eq_of_heq hrow
    rw [setIn_self]
    exact .changed hp'

/-- The condition of an update, as one on all rows. -/
def Update.found (u : Update I R t) : ∀ k, RowOf I R k → Bool := whereIn t u.cond

/-- What an update has changed does not meet a condition on its table. -/
theorem setIn_falsifies {p : I t → R t → Bool} (hdata : ∀ id row, p id (u.data row) = false)
    (k : Key I) (v w : RowOf I R k) (h : setIn t u.data k v = some w) : whereIn t p k w = false := by
  obtain ⟨t', id⟩ := k
  by_cases ht : t' = t
  · subst ht
    rw [setIn_self] at h
    obtain rfl := Option.some.inj h
    rw [whereIn_self]
    exact hdata id v
  · unfold whereIn
    exact dif_neg ht

/-- An update writes no row that meets a condition on its table. -/
theorem Update.leaves {p : I t → R t → Bool}
    (h : ∀ id row, u.cond id row = true → p id (u.data row) = false) :
    Leaves u.stmt (whereIn t p) := by
  intro k v w hcond hdata
  obtain ⟨id, row, rfl, hrow, hcond'⟩ := whereIn_eq_true hcond
  obtain rfl := eq_of_heq hrow
  rw [setIn_self] at hdata
  obtain rfl := Option.some.inj hdata
  rw [whereIn_self]
  exact h id v hcond'

/-- An update writes no row that meets a condition on another table. -/
theorem Update.leaves_of_ne {u' : Update I R t'} (ht : t' ≠ t) : Leaves u'.stmt u.found := by
  intro k v w hcond _
  obtain ⟨id, row, rfl, -, -⟩ := whereIn_eq_true hcond
  exact dif_neg ht

/-- An update that can find one row only, and has found one. -/
theorem Update.effect_must (h : effect u.stmt (.count n) k before after) (hn : n ≠ 0)
    (hone : ∀ id' row, u.cond id' row = true → id' = id) : u.must id k before after := by
  rcases h with ⟨rfl, honly⟩ | ⟨row, rfl, hp, rfl, -⟩
  · by_cases hk : k = ⟨t, id⟩
    · subst hk
      refine absurd (honly (fun k' v hv => ?_) n rfl) hn
      obtain ⟨id', row', rfl, -, hp⟩ := whereIn_eq_true hv
      rw [hone id' row' hp]
    · exact .other hk
  · obtain ⟨id', row', rfl, hrow, hp'⟩ := whereIn_eq_true hp
    obtain rfl := eq_of_heq hrow
    obtain rfl := hone id' row hp'
    rw [setIn_self]
    exact .changed hp'

/-- An update that can find one row only, and has not found one. -/
theorem Update.effect_same (h : effect u.stmt (.count n) k before after) (hn : n ≠ 1)
    (hone : ∀ id' row, u.cond id' row = true → id' = id) : after = before := by
  rcases h with ⟨rfl, -⟩ | ⟨row, rfl, hp, -, hcount⟩
  · rfl
  · obtain ⟨id', row', rfl, -, hp'⟩ := whereIn_eq_true hp
    refine absurd ((hcount n rfl).2 fun k' v hv => ?_) hn
    obtain ⟨id'', row'', rfl, -, hp''⟩ := whereIn_eq_true hv
    rw [hone id' row' hp', hone id'' row'' hp'']

end Updates

theorem effect_new {reply : Reply (RowOf I R)} {k : Key I} {before after : Option (RowOf I R k)}
    (h : effect (.insert ⟨t, id⟩ row) reply k before after) : New t id row k before after := by
  rcases h with ⟨hne, rfl⟩ | ⟨he, rfl, rfl⟩
  · exact .other (Ne.symm hne)
  · subst he
    exact .inserted

theorem Removal.stmt_ne_commit : r.stmt ≠ .commit := by
  simp [Removal.stmt]

theorem Removal.effect_may {reply : Reply (RowOf I R)} {k : Key I}
    {before after : Option (RowOf I R k)} (h : effect r.stmt reply k before after) :
    r.may k before after := by
  rcases h with ⟨rfl, -⟩ | ⟨row, rfl, hp, rfl, -⟩
  · exact .same
  · obtain ⟨id, row', rfl, hrow, hp'⟩ := whereIn_eq_true hp
    obtain rfl := eq_of_heq hrow
    rw [dropIn_self]
    exact .dropped hp'

section Upserts

variable [∀ t, DecidableEq (I t)] {u : Upsert I R t} {k : Key I}
  {before after : Option (RowOf I R k)}

theorem Upsert.effect_updated {n : ℕ} (h : effect u.update.stmt (.count n) k before after)
    (hn : n ≠ 0) : u.put k before after := by
  have hmust : u.update.must u.id k before after :=
    Update.effect_must h hn fun _ _ hu => of_decide_eq_true hu
  cases hmust with
  | other hne => exact .other hne
  | changed _ => exact .updated

theorem Upsert.effect_missing (h : effect u.update.stmt (.count 0) k before after) :
    after = before :=
  Update.effect_same h Nat.zero_ne_one fun _ _ hu => (of_decide_eq_true hu : _ = u.id)

theorem Upsert.effect_inserted {reply : Reply (RowOf I R)}
    (h : effect (.insert ⟨t, u.id⟩ u.row) reply k before after) : u.put k before after := by
  cases effect_new h with
  | other hne => exact .other hne
  | inserted => exact .inserted

end Upserts

/-! ### Rows of a table -/

/-- The rows of a table that meet a condition, with their ids. -/
def findMany [∀ t, DecidableEq (I t)] (rows : Rows (RowOf I R)) (keys : List (Key I)) (t : T)
    (p : I t → R t → Bool) : List (I t × R t) :=
  keys.dedup.filterMap fun k =>
    if h : k.1 = t then
      (rows ⟨t, castId h k.2⟩).bind fun row =>
        if p (castId h k.2) row then some (castId h k.2, row) else none
    else none

variable {rows : Rows (RowOf I R)}

theorem mem_findMany [∀ t, DecidableEq (I t)] {keys : List (Key I)} {id : I t} {row : R t} :
    (id, row) ∈ findMany rows keys t p ↔
      (⟨t, id⟩ : Key I) ∈ keys ∧ rows ⟨t, id⟩ = some row ∧ p id row = true := by
  unfold findMany
  rw [List.mem_filterMap]
  constructor
  · rintro ⟨⟨t', id'⟩, hk, h⟩
    split_ifs at h with ht
    have ht : t' = t := ht
    subst ht
    obtain ⟨row', hrow, h⟩ := Option.bind_eq_some_iff.mp h
    split_ifs at h with hp
    obtain ⟨rfl, rfl⟩ := Prod.mk.inj (Option.some.inj h)
    exact ⟨List.mem_dedup.mp hk, hrow, hp⟩
  · rintro ⟨hk, hrow, hp⟩
    refine ⟨⟨t, id⟩, List.mem_dedup.mpr hk, ?_⟩
    simp [hrow, hp]

theorem findMany_nodup [∀ t, DecidableEq (I t)] {keys : List (Key I)} :
    (findMany rows keys t p).Nodup := by
  unfold findMany
  refine (List.nodup_dedup keys).filterMap fun k k' found h h' => ?_
  have hkey : ∀ {k : Key I}, found ∈ (if h : k.1 = t then
      (rows ⟨t, castId h k.2⟩).bind fun row =>
        if p (castId h k.2) row then some (castId h k.2, row) else none
      else none) → k = ⟨t, found.1⟩ := by
    rintro ⟨t', id⟩ h
    split_ifs at h with ht
    · have ht : t' = t := ht
      subst ht
      obtain ⟨row, -, h⟩ := Option.bind_eq_some_iff.mp h
      split_ifs at h
      obtain rfl := Option.some.inj h
      rfl
    · cases h
  rw [hkey h, hkey h']

theorem findMany_ids [∀ t, DecidableEq (I t)] {keys : List (Key I)} :
    (findMany rows keys t p).Pairwise fun found other => found.1 ≠ other.1 := by
  have hnodup : (findMany rows keys t p).Nodup := findMany_nodup
  refine List.Pairwise.imp_of_mem (fun {found other} hfound hother hne hid => hne ?_) hnodup
  obtain ⟨id, row⟩ := found
  obtain ⟨id', row'⟩ := other
  obtain rfl : id = id' := hid
  obtain ⟨-, hrow, -⟩ := mem_findMany.mp hfound
  obtain ⟨-, hrow', -⟩ := mem_findMany.mp hother
  rw [Option.some.inj (hrow.symm.trans hrow')]

theorem exists_other_of_findMany [∀ t, DecidableEq (I t)] {keys : List (Key I)}
    (h : 2 ≤ (findMany rows keys t p).length) (id : I t) :
    ∃ other row, other ≠ id ∧ (other, row) ∈ findMany rows keys t p := by
  by_contra hno
  have hid : ∀ found ∈ findMany rows keys t p, found.1 = id := by
    intro found hfound
    by_contra hne
    exact hno ⟨found.1, found.2, hne, hfound⟩
  have hnodup : (findMany rows keys t p).Nodup := findMany_nodup
  obtain ⟨a, b, rest, hlist⟩ : ∃ a b rest, findMany rows keys t p = a :: b :: rest := by
    rcases hl : findMany rows keys t p with _ | ⟨a, _ | ⟨b, rest⟩⟩
    · rw [hl] at h
      exact absurd h (by simp)
    · rw [hl] at h
      exact absurd h (by simp)
    · exact ⟨a, b, rest, rfl⟩
  have ha : a ∈ findMany rows keys t p := hlist ▸ List.mem_cons_self
  have hb : b ∈ findMany rows keys t p := hlist ▸ List.mem_cons_of_mem _ List.mem_cons_self
  have hrow : a.2 = b.2 := by
    obtain ⟨-, hfound, -⟩ := mem_findMany.mp (show (a.1, a.2) ∈ _ from ha)
    obtain ⟨-, hfound', -⟩ := mem_findMany.mp (show (b.1, b.2) ∈ _ from hb)
    rw [hid a ha] at hfound
    rw [hid b hb] at hfound'
    exact Option.some.inj (hfound.symm.trans hfound')
  rw [hlist] at hnodup
  refine (List.nodup_cons.mp hnodup).1 ?_
  rw [show a = b from Prod.ext ((hid a ha).trans (hid b hb).symm) hrow]
  exact List.mem_cons_self

end BackendFoundation.Lib.Schema
