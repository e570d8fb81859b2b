import BackendFoundation.Errors
import BackendFoundation.Lib.Value

/-! # Queries of an object-relational client

A `where` object is the conjunction of its entries. The keys `AND`, `OR` and `NOT` combine other
`where` objects, every other key is a condition on the row, and the truth of a condition is
three-valued as in SQL: a row is matched when the whole is true.

`Engine` is what a client with its database does on the table of one model. Its parameters are the
parts that no argument shape decides: conditions, which of the matching rows an operation takes, the
row that it writes for some data. Its laws are about one nullable column, the owner of a row: an
operation takes rows that match, and a row that is written has the owner that the data names.
`Engine.execute` is then an operation by its name. -/

namespace BackendFoundation.Lib.Query

open Errors Lib

/-! ### Computations that can fail -/

variable {ε α β : Type} {f : α → Except ε β}

theorem bind_eq_ok {x : Except ε α} {b : β} (h : x >>= f = .ok b) :
    ∃ a, x = .ok a ∧ f a = .ok b := by
  cases x with
  | error e => cases h
  | ok a => exact ⟨a, rfl, h⟩

/-- What the results satisfy, by what it means for the elements. -/
theorem forall_mapM {P : β → Prop} {Q : α → Prop} (hf : ∀ {x y}, f x = .ok y → (P y ↔ Q x))
    {xs : List α} {ys : List β} (h : xs.mapM f = .ok ys) : (∀ y ∈ ys, P y) ↔ ∀ x ∈ xs, Q x := by
  induction xs generalizing ys with
  | nil =>
    cases h
    simp
  | cons x xs ih =>
    rw [List.mapM_cons] at h
    obtain ⟨y, hy, h⟩ := bind_eq_ok h
    obtain ⟨rest, hrest, h⟩ := bind_eq_ok h
    cases h
    rw [List.forall_mem_cons, List.forall_mem_cons, ih hrest, hf hy]

theorem exists_of_mapM {xs : List α} {ys : List β} (h : xs.mapM f = .ok ys) :
    ∀ x ∈ xs, ∃ y, f x = .ok y := by
  induction xs generalizing ys with
  | nil => exact fun x hx => absurd hx List.not_mem_nil
  | cons x xs ih =>
    rw [List.mapM_cons] at h
    obtain ⟨y, hy, h⟩ := bind_eq_ok h
    obtain ⟨rest, hrest, -⟩ := bind_eq_ok h
    exact List.forall_mem_cons.mpr ⟨⟨y, hy⟩, ih hrest⟩

/-! ### Three-valued logic -/

/-- A truth value of SQL; `none` is unknown. -/
abbrev Truth := Option Bool

def Truth.and : Truth → Truth → Truth
  | some false, _ => some false
  | some true, b => b
  | none, some false => some false
  | none, _ => none

def Truth.not (a : Truth) : Truth := a.map (!·)

def Truth.or (a b : Truth) : Truth := ((a.not).and b.not).not

theorem Truth.and_eq_true {a b : Truth} : a.and b = some true ↔ a = some true ∧ b = some true := by
  rcases a with _ | _ | _ <;> rcases b with _ | _ | _ <;> decide

/-! ### Where -/

section Where
variable (condition : String → Value → Truth)

mutual

/-- The truth of a `where` object for a row, from the truth of the conditions for it. A value that is
no object sets no condition. -/
def whereTruth : Value → Truth
  | .object _ es => entriesTruth es
  | _ => some true

def entriesTruth : List (String × Value) → Truth
  | [] => some true
  | (_, .undefined) :: rest => entriesTruth rest
  | (key, .array vs) :: rest =>
    Truth.and
      (if key = "AND" then allTruth vs
      else if key = "OR" then anyTruth vs
      else if key = "NOT" then noneTruth vs
      else condition key (.array vs)) (entriesTruth rest)
  | (key, .object cls es) :: rest =>
    Truth.and
      (if key = "AND" then entriesTruth es
      else if key = "OR" then entriesTruth es
      else if key = "NOT" then (entriesTruth es).not
      else condition key (.object cls es)) (entriesTruth rest)
  | (key, v) :: rest => Truth.and (condition key v) (entriesTruth rest)

def allTruth : List Value → Truth
  | [] => some true
  | v :: vs => (whereTruth v).and (allTruth vs)

def anyTruth : List Value → Truth
  | [] => some false
  | v :: vs => (whereTruth v).or (anyTruth vs)

def noneTruth : List Value → Truth
  | [] => some true
  | v :: vs => (whereTruth v).not.and (noneTruth vs)

end

variable {condition}

theorem entriesTruth_append (es es' : List (String × Value)) :
    entriesTruth condition (es ++ es') = some true ↔
      entriesTruth condition es = some true ∧ entriesTruth condition es' = some true := by
  induction es with
  | nil => simp [entriesTruth]
  | cons e rest ih =>
    obtain ⟨key, v⟩ := e
    cases v <;> simp [entriesTruth, Truth.and_eq_true, ih, and_assoc]

/-- A literal condition on a column is one of the conjuncts. -/
theorem entriesTruth_null {key : String} :
    entriesTruth condition [(key, .null)] = some true ↔ condition key .null = some true := by
  simp [entriesTruth, Truth.and_eq_true]

theorem entriesTruth_string {key text : String} :
    entriesTruth condition [(key, .string text)] = some true ↔
      condition key (.string text) = some true := by
  simp [entriesTruth, Truth.and_eq_true]

theorem entriesTruth_of_mem {es : List (String × Value)} (h : entriesTruth condition es = some true)
    {e : String × Value} (he : e ∈ es) : entriesTruth condition [e] = some true := by
  obtain ⟨before, after, rfl⟩ := List.append_of_mem he
  have hafter := ((entriesTruth_append before (e :: after)).mp h).2
  exact ((entriesTruth_append [e] after).mp hafter).1

/-- **Every literal entry of a `where` object is a condition on the rows that it matches.** -/
theorem whereTruth_get_null {w : Value} {key : String}
    (hw : whereTruth condition w = some true) (hget : w.get key = .null) :
    condition key .null = some true := by
  cases w with
  | object cls es =>
    simp only [Value.get, Value.entries] at hget
    rcases hfind : es.find? (·.1 = key) with _ | ⟨key', v⟩
    · rw [hfind] at hget
      cases hget
    · rw [hfind] at hget
      obtain rfl : v = .null := hget
      obtain rfl : key' = key := by simpa using List.find?_some hfind
      exact entriesTruth_null.mp (entriesTruth_of_mem hw (List.mem_of_find?_eq_some hfind))
  | undefined | null | string _ | atom _ | array _ => cases hget

/-- **A literal condition added to a `where` object narrows it to the rows that meet it.** -/
theorem whereTruth_set_string {w : Value} (hw : w.IsObject) {key text : String} :
    whereTruth condition (w.set key (.string text)) = some true ↔
      whereTruth condition (w.without [key]) = some true ∧
        condition key (.string text) = some true := by
  obtain ⟨cls, es⟩ := hw
  have hes : es.filter (·.1 ∉ [key]) = es.filter (·.1 ≠ key) :=
    List.filter_congr fun e _ => by simp
  simp only [Value.set, Value.without, whereTruth, entriesTruth_append, entriesTruth_string, hes]

end Where

/-! ### The engine -/

/-- The owner that the data leaves a row with, by its column or by the relation that the column
belongs to; `relation` says what a nested write of the relation does. -/
def ownerAfter (column relation : String) (relationOwner : Value → Option String → Option String)
    (data : Value) (owner : Option String) : Option String :=
  if (data.get relation).isUndefined then
    match data.get column with
    | .null => none
    | .string id => some id
    | .object cls es =>
      match (Value.object cls es).get "set" with
      | .null => none
      | .string id => some id
      | _ => owner
    | _ => owner
  else relationOwner (data.get relation) owner

/-- A write of one row of the table. -/
inductive RowWrite (Row : Type)
  | create (data : Value)
  | update (row : Row) (data : Value)

/-- A client and its database, on the table of a model. -/
structure Engine (Row : Type) (column relation : String) where
  /-- The value of the column. -/
  owner : Row → Option String
  /-- The truth of a condition other than a literal of the column: on another field, on a relation,
  by a unique selector, with an operator. -/
  condition : String → Value → Row → Truth
  /-- The check of the arguments. -/
  validate : String → Value → Except Thrown Unit
  /-- The rows that an operation takes of the matching ones, by its other arguments: the only one for
  a unique selector, the page for a cursor, as many as there may be. -/
  pick : String → Value → List Row → Except Thrown (List Row)
  /-- The owner that a nested write of the relation leaves. -/
  relationOwner : Value → Option String → Option String
  /-- The row as it is written. -/
  write : RowWrite Row → Except Thrown Row
  /-- The writes of rows of the same table that are nested in the data of a write, through relations;
  `none` for a created row. -/
  nested : Value → Option Row → List (RowWrite Row)
  pick_subset : ∀ {operation options rows found},
    pick operation options rows = .ok found → found ⊆ rows
  write_create : ∀ {data row}, write (.create data) = .ok row →
    data.IsObject ∧ owner row = ownerAfter column relation relationOwner data none
  write_update : ∀ {before data row}, write (.update before data) = .ok row →
    owner row = ownerAfter column relation relationOwner data (owner before)

/-- What an operation did to the rows of its table. -/
structure Effect (Row : Type) where
  /-- The rows that it returned, counted, updated or deleted, as it found them. -/
  selected : List Row
  /-- The rows that it created or modified, as it left them. -/
  written : List Row

namespace Engine
variable {Row : Type} {column relation : String} (E : Engine Row column relation)

/-- The owner that a write leaves. -/
def ownerOf : RowWrite Row → Option String
  | .create data => ownerAfter column relation E.relationOwner data none
  | .update row data => ownerAfter column relation E.relationOwner data (E.owner row)

/-- The truth of the condition of an entry of a `where`. -/
def entryTruth (row : Row) (key : String) (v : Value) : Truth :=
  if key = column then
    match v with
    | .null => some (E.owner row).isNone
    | .string id => (E.owner row).map (· = id)
    | v => E.condition key v row
  else E.condition key v row

/-- The row is matched by a `where`. -/
def Matches (w : Value) (row : Row) : Prop := whereTruth (E.entryTruth row) w = some true

instance (w : Value) : DecidablePred (E.Matches w) := fun row =>
  inferInstanceAs (Decidable (whereTruth (E.entryTruth row) w = some true))

/-- The arguments that neither select rows nor are data. -/
def options (args : Value) : Value := args.without ["where", "data", "create", "update"]

theorem options_set {args : Value} {key : String}
    (h : key ∈ ["where", "data", "create", "update"]) (v : Value) :
    options (args.set key v) = options args :=
  Value.without_set h args v

/-- The rows that an operation takes. -/
def find (operation : String) (args : Value) (table : List Row) : Except Thrown (List Row) :=
  E.pick operation (options args) (table.filter (E.Matches (args.get "where")))

/-- The writes of an update of a row. -/
def updateWrites (data : Value) (row : Row) : List (RowWrite Row) :=
  .update row data :: E.nested (data.without [column]) (some row)

/-- The writes of a creation. -/
def createWrites (data : Value) : List (RowWrite Row) :=
  .create data :: E.nested (data.without [column]) none

def dataRows : Value → List Value
  | .array rows => rows
  | data => [data]

def readOperations : List String :=
  ["findUnique", "findUniqueOrThrow", "findFirst", "findFirstOrThrow", "findMany", "count",
    "aggregate", "groupBy"]

/-- **An operation, by its name.** -/
def execute (operation : String) (args : Value) (table : List Row) : Except Thrown (Effect Row) := do
  E.validate operation args
  if operation ∈ readOperations ∨ operation ∈ ["delete", "deleteMany"] then
    let found ← E.find operation args table
    return ⟨found, []⟩
  else if operation ∈ ["update", "updateMany", "updateManyAndReturn"] then
    let found ← E.find operation args table
    let written ← (found.flatMap (E.updateWrites (args.get "data"))).mapM E.write
    return ⟨found, written⟩
  else if operation = "upsert" then
    match ← E.find operation args table with
    | [] =>
      let written ← (E.createWrites (args.get "create")).mapM E.write
      return ⟨[], written⟩
    | row :: _ =>
      let written ← (E.updateWrites (args.get "update") row).mapM E.write
      return ⟨[row], written⟩
  else if operation ∈ ["create", "createMany", "createManyAndReturn"] then
    let written ← ((dataRows (args.get "data")).flatMap E.createWrites).mapM E.write
    return ⟨[], written⟩
  else throw (.error "unknown operation")

/-- A run of an operation that succeeds. -/
inductive Executed (operation : String) (args : Value) (table : List Row) : Effect Row → Prop
  | read {found : List Row} (hop : operation ∈ readOperations ∨ operation ∈ ["delete", "deleteMany"])
    (hfind : E.find operation args table = .ok found) : Executed operation args table ⟨found, []⟩
  | updated {found written : List Row}
    (hop : operation ∈ ["update", "updateMany", "updateManyAndReturn"])
    (hfind : E.find operation args table = .ok found)
    (hwrite : (found.flatMap (E.updateWrites (args.get "data"))).mapM E.write = .ok written) :
    Executed operation args table ⟨found, written⟩
  | upsertCreated {written : List Row} (hop : operation = "upsert")
    (hfind : E.find operation args table = .ok [])
    (hwrite : (E.createWrites (args.get "create")).mapM E.write = .ok written) :
    Executed operation args table ⟨[], written⟩
  | upsertUpdated {row : Row} {rest written : List Row} (hop : operation = "upsert")
    (hfind : E.find operation args table = .ok (row :: rest))
    (hwrite : (E.updateWrites (args.get "update") row).mapM E.write = .ok written) :
    Executed operation args table ⟨[row], written⟩
  | created {written : List Row} (hop : operation ∈ ["create", "createMany", "createManyAndReturn"])
    (hwrite : ((dataRows (args.get "data")).flatMap E.createWrites).mapM E.write = .ok written) :
    Executed operation args table ⟨[], written⟩

variable {E} {operation : String} {args : Value} {table : List Row} {effect : Effect Row}

theorem execute_executed (h : E.execute operation args table = .ok effect) :
    E.Executed operation args table effect := by
  unfold execute at h
  obtain ⟨-, -, h⟩ := bind_eq_ok h
  split at h
  · obtain ⟨found, hfind, h⟩ := bind_eq_ok h
    cases h
    exact .read ‹_› hfind
  split at h
  · obtain ⟨found, hfind, h⟩ := bind_eq_ok h
    obtain ⟨written, hwrite, h⟩ := bind_eq_ok h
    cases h
    exact .updated ‹_› hfind hwrite
  split at h
  · obtain ⟨found, hfind, h⟩ := bind_eq_ok h
    cases found with
    | nil =>
      obtain ⟨written, hwrite, h⟩ := bind_eq_ok h
      cases h
      exact .upsertCreated ‹_› hfind hwrite
    | cons row rest =>
      obtain ⟨written, hwrite, h⟩ := bind_eq_ok h
      cases h
      exact .upsertUpdated ‹_› hfind hwrite
  split at h
  · obtain ⟨written, hwrite, h⟩ := bind_eq_ok h
    cases h
    exact .created ‹_› hwrite
  · cases h

/-- A row is written with the owner that its write leaves. -/
theorem write_owner {w : RowWrite Row} {row : Row} (h : E.write w = .ok row) :
    E.owner row = E.ownerOf w := by
  cases w with
  | create data => exact (E.write_create h).2
  | update before data => exact E.write_update h

theorem forall_written {P : Option String → Prop} {writes : List (RowWrite Row)}
    {written : List Row} (h : writes.mapM E.write = .ok written) :
    (∀ row ∈ written, P (E.owner row)) ↔ ∀ w ∈ writes, P (E.ownerOf w) := by
  refine forall_mapM (fun hrow => ?_) h
  rw [write_owner hrow]

end Engine

end BackendFoundation.Lib.Query
