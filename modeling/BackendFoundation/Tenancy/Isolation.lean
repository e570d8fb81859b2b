import BackendFoundation.Tenancy.TenantScope

/-! # Isolation of tenants

What the extension of `TenantScope` guarantees over any engine: an operation on a tenant-scoped model
selects rows of the active organization alone (`selections_isolated`). Its writes leave every row
with the organization if and only if the writes that no scope constrains do: the updates of rows,
and the writes nested in data (`writes_isolated_iff`). An update whose data names another
organization moves a row there (`updates_move_rows`). -/

namespace BackendFoundation.Tenancy.Isolation

open Errors Lib Lib.Query Lib.Query.Engine Tenancy.TenantScope

/-! ### The scoped arguments -/

/-- A `where` of the caller, narrowed to the organization. -/
inductive ScopedWhere (model organizationId : String) (filter : Value) : Value → Prop
  | global (h : globalOwner model filter = true) : ScopedWhere model organizationId filter filter
  | organization (h : globalOwner model filter = false) :
    ScopedWhere model organizationId filter
      (filter.set "organizationId" (.string organizationId))

theorem scopeWhere_ok {model organizationId location : String} {args args' : Value}
    (h : scopeWhere model args organizationId location = .ok args') :
    ∃ filter, ScopedWhere model organizationId (args.get "where").orEmpty filter ∧
      args' = args.set "where" filter := by
  unfold scopeWhere at h
  by_cases hglobal : globalOwner model (args.get "where").orEmpty = true
  · simp only [if_pos hglobal] at h
    cases h
    exact ⟨_, .global hglobal, rfl⟩
  · simp only [if_neg hglobal] at h
    obtain ⟨-, -, h⟩ := bind_eq_ok h
    cases h
    exact ⟨_, .organization (Bool.eq_false_iff.mpr hglobal), rfl⟩

/-- A row of the data of a creation, stamped with the organization. -/
inductive ScopedRow (model organizationId : String) : Value → Value → Prop
  | data {row : Value} (h : row.asRecord = none) : ScopedRow model organizationId row row
  | global {record : Value} (hrecord : record.IsObject)
    (hrelation : (record.get "organization").isUndefined = true)
    (h : globalOwner model record = true) : ScopedRow model organizationId record record
  | organization {record : Value} (hrecord : record.IsObject)
    (hrelation : (record.get "organization").isUndefined = true) :
    ScopedRow model organizationId record
      (record.set "organizationId" (.string organizationId))

theorem scopeCreateRow_ok {model organizationId location : String} {row row' : Value}
    (h : scopeCreateRow model organizationId location row = .ok row') :
    ScopedRow model organizationId row row' := by
  unfold scopeCreateRow at h
  rcases hrow : row.asRecord with _ | record
  · rw [hrow] at h
    cases h
    exact .data hrow
  · rw [hrow] at h
    obtain ⟨rfl, hrecord⟩ := Value.asRecord_eq_some hrow
    by_cases hrelation : (row.get "organization").isUndefined = true
    · by_cases hglobal : globalOwner model row = true
      · simp only [hrelation, Bool.not_true, if_pos hglobal] at h
        cases h
        exact .global hrecord hrelation hglobal
      · simp only [hrelation, Bool.not_true, if_neg hglobal] at h
        obtain ⟨-, -, h⟩ := bind_eq_ok h
        cases h
        exact .organization hrecord hrelation
    · rw [Bool.not_eq_true] at hrelation
      simp only [hrelation, Bool.not_false] at h
      cases h

theorem scopeCreateData_ok {model organizationId location : String} {data data' : Value}
    (h : scopeCreateData model data organizationId location = .ok data') :
    (∃ rows rows', data = .array rows ∧ data' = .array rows' ∧
      rows.mapM (scopeCreateRow model organizationId location) = .ok rows') ∨
    dataRows data = [data] ∧ dataRows data' = [data'] ∧
      scopeCreateRow model organizationId location data = .ok data' := by
  have hsingle {row : Value} (hrow : dataRows row = [row])
      (h : scopeCreateRow model organizationId location row = .ok data') :
      dataRows data' = [data'] := by
    cases scopeCreateRow_ok h with
    | data _ => exact hrow
    | global _ _ _ => exact hrow
    | organization hrecord _ =>
      obtain ⟨cls, es⟩ := hrecord
      rfl
  cases data with
  | array rows =>
    obtain ⟨rows', hrows, h⟩ := bind_eq_ok h
    cases h
    exact .inl ⟨rows, rows', rfl, rfl, hrows⟩
  | undefined | null | string _ | atom _ | object _ _ =>
    simp only [scopeCreateData] at h
    exact .inr ⟨rfl, hsingle rfl h, h⟩

/-- What the stamped rows satisfy, by what it means for the rows of the caller. -/
theorem forall_scopedRows {model organizationId location : String} {data data' : Value}
    (h : scopeCreateData model data organizationId location = .ok data')
    {P Q : Value → Prop}
    (hrow : ∀ {row row'}, ScopedRow model organizationId row row' → (P row' ↔ Q row)) :
    (∀ row' ∈ dataRows data', P row') ↔ ∀ row ∈ dataRows data, Q row := by
  rcases scopeCreateData_ok h with ⟨rows, rows', rfl, rfl, hrows⟩ | ⟨hdata, hdata', hsingle⟩
  · exact forall_mapM (fun hok => hrow (scopeCreateRow_ok hok)) hrows
  · rw [hdata, hdata', List.forall_mem_singleton, List.forall_mem_singleton]
    exact hrow (scopeCreateRow_ok hsingle)

/-- **The arguments of an operation, narrowed to the organization.** -/
inductive Narrowed (model operation organizationId : String) (record : Value) : Value → Prop
  | upsert {filter create : Value} (hop : operation = "upsert")
    (hwhere : ScopedWhere model organizationId (record.get "where").orEmpty filter)
    (hcreate : scopeCreateData model (record.get "create") organizationId
      (model ++ "." ++ operation) = .ok create) :
    Narrowed model operation organizationId record
      ((record.set "where" filter).set "create" create)
  | filter {filter : Value} (hop : operation ∈ filterOperations)
    (hwhere : ScopedWhere model organizationId (record.get "where").orEmpty filter) :
    Narrowed model operation organizationId record (record.set "where" filter)
  | create {data : Value} (hop : operation ∈ createOperations)
    (hdata : scopeCreateData model (record.get "data") organizationId
      (model ++ "." ++ operation) = .ok data) :
    Narrowed model operation organizationId record (record.set "data" data)

theorem applyTenantScope_narrowed {model operation organizationId : String} {args args' : Value}
    (h : applyTenantScope model operation args organizationId = .ok args') :
    Narrowed model operation organizationId args.orEmpty args' := by
  unfold applyTenantScope at h
  by_cases hupsert : operation = "upsert"
  · simp only [if_pos hupsert] at h
    obtain ⟨record, hwhere, h⟩ := bind_eq_ok h
    obtain ⟨create, hcreate, h⟩ := bind_eq_ok h
    cases h
    obtain ⟨filter, hfilter, rfl⟩ := scopeWhere_ok hwhere
    rw [Value.get_set_of_ne (by decide)] at hcreate
    exact .upsert hupsert hfilter hcreate
  simp only [if_neg hupsert] at h
  by_cases hfilter : operation ∈ filterOperations
  · simp only [if_pos hfilter] at h
    obtain ⟨filter, hscoped, rfl⟩ := scopeWhere_ok h
    exact .filter hfilter hscoped
  simp only [if_neg hfilter] at h
  by_cases hcreate : operation ∈ createOperations
  · simp only [if_pos hcreate] at h
    obtain ⟨data, hdata, h⟩ := bind_eq_ok h
    cases h
    exact .create hcreate hdata
  · simp only [if_neg hcreate] at h
    cases h

/-! ### The rows in scope -/

/-- The organization of a row is a nullable column, with its relation. -/
abbrev TenantEngine (Row : Type) := Engine Row "organizationId" "organization"

section Scope
variable {Row : Type} (E : TenantEngine Row)

/-- The `where` of the caller. -/
def callerWhere (args : Value) : Value := (args.orEmpty.get "where").orEmpty

theorem isObject_callerWhere (args : Value) : (callerWhere args).IsObject :=
  Value.isObject_orEmpty _

/-- The row is matched by the `where` of the caller, and is the organization's; it is a user-global
row where the caller names these. -/
def InScope (model organizationId : String) (args : Value) (row : Row) : Prop :=
  if globalOwner model (callerWhere args) then E.Matches (callerWhere args) row
  else E.Matches ((callerWhere args).without ["organizationId"]) row ∧
    E.owner row = some organizationId

instance (model organizationId : String) (args : Value) :
    DecidablePred (InScope E model organizationId args) := fun row =>
  inferInstanceAs (Decidable (if globalOwner model (callerWhere args) then
      E.Matches (callerWhere args) row
    else E.Matches ((callerWhere args).without ["organizationId"]) row ∧
      E.owner row = some organizationId))

variable {E} {model organizationId : String} {args filter : Value}

variable {row : Row}

theorem entryTruth_null :
    E.entryTruth row "organizationId" .null = some true ↔ E.owner row = none := by
  simp [Engine.entryTruth]

theorem entryTruth_string : E.entryTruth row "organizationId" (.string organizationId) = some true ↔
      E.owner row = some organizationId := by
  simp [Engine.entryTruth]

/-- **The narrowed `where` matches the rows in scope.** -/
theorem ScopedWhere.matches_iff (h : ScopedWhere model organizationId (callerWhere args) filter) :
    E.Matches filter row ↔ InScope E model organizationId args row := by
  cases h with
  | global hglobal => rw [InScope, if_pos hglobal]
  | organization hglobal =>
    rw [InScope, if_neg (Bool.eq_false_iff.mp hglobal), Engine.Matches,
      whereTruth_set_string (isObject_callerWhere args), entryTruth_string]
    rfl

/-- **A row in scope is the organization's, or a user-global row that the caller asks for.** -/
theorem InScope.owner (h : InScope E model organizationId args row) :
    E.owner row = some organizationId ∨
      E.owner row = none ∧ globalOwner model (callerWhere args) = true := by
  unfold InScope at h
  split at h
  · rename_i hglobal
    obtain ⟨hnull, -⟩ := Bool.and_eq_true_iff.mp hglobal
    exact .inr ⟨entryTruth_null.mp (whereTruth_get_null h (Value.eq_null_of_isNull hnull)), hglobal⟩
  · exact .inl h.2

end Scope

/-! ### Operations through the extension -/

section Operations
variable {Row : Type} (models : DataModel) (E : TenantEngine Row)

/-- An operation on a model, through the extension. -/
def scopedOperation (context : Option RequestContext) (model operation : String) (args : Value)
    (table : List Row) : Except Thrown (Effect Row) :=
  tenantScopeExtension models context (some model) operation args (E.execute operation · table)

/-- The rows in scope that an operation takes. -/
def taken (model organizationId operation : String) (args : Value) (table : List Row) :
    Except Thrown (List Row) :=
  E.pick operation (options args.orEmpty) (table.filter (InScope E model organizationId args))

variable {models} {E} {model operation organizationId : String} {args args' : Value}
  {context : RequestContext} {table : List Row} {effect : Effect Row}

theorem not_unscopedModel (hmodel : model ∈ tenantScopedModels models) :
    ¬ (model = "" ∨ model ∉ tenantScopedModels models) := by
  rintro (hempty | hnot)
  · exact ne_of_tenantScoped hmodel hempty
  · exact hnot hmodel

theorem resolve_active (hmodel : model ∈ tenantScopedModels models)
    (hactive : context.activeOrganization = some organizationId) :
    resolveScopeOrganization models (some context) (some model) operation args =
      .ok (some organizationId) := by
  cases context with
  | unscoped _ => cases hactive
  | request _ _ _ => simp only [resolveScopeOrganization, not_unscopedModel hmodel, if_false, hactive]

theorem resolve_none (hmodel : model ∈ tenantScopedModels models) (operation : String)
    (args : Value) : ∃ message,
    resolveScopeOrganization models none (some model) operation args =
      .error (tenantScopeError message) := by
  simp only [resolveScopeOrganization, not_unscopedModel hmodel, if_false]
  exact ⟨_, rfl⟩

theorem resolve_inactive (hmodel : model ∈ tenantScopedModels models)
    {requestId : String} {userId organization : Option String}
    (hinactive : (RequestContext.request requestId userId organization).activeOrganization = none)
    (hglobal : explicitlyGlobal model operation args = false) : ∃ message,
    resolveScopeOrganization models (some (.request requestId userId organization)) (some model)
      operation args = .error (tenantScopeError message) := by
  simp only [resolveScopeOrganization, not_unscopedModel hmodel, if_false, hinactive, hglobal]
  exact ⟨_, rfl⟩

theorem scopedOperation_error {context : Option RequestContext} {e : Thrown}
    (h : resolveScopeOrganization models context (some model) operation args = .error e) :
    scopedOperation models E context model operation args table = .error e := by
  unfold scopedOperation tenantScopeExtension
  rw [h]
  rfl

theorem scopedOperation_ok (hmodel : model ∈ tenantScopedModels models)
    (hactive : context.activeOrganization = some organizationId)
    (h : scopedOperation models E (some context) model operation args table = .ok effect) :
    ∃ args', Narrowed model operation organizationId args.orEmpty args' ∧
      E.Executed operation args' table effect := by
  unfold scopedOperation tenantScopeExtension at h
  obtain ⟨resolved, hresolve, h⟩ := bind_eq_ok h
  obtain rfl : some organizationId = resolved :=
    Except.ok.inj ((resolve_active hmodel hactive).symm.trans hresolve)
  obtain ⟨args', hnarrow, h⟩ := bind_eq_ok h
  exact ⟨args', applyTenantScope_narrowed hnarrow, execute_executed h⟩

/-- A narrowed `where` finds the rows in scope. -/
theorem ScopedWhere.find {filter : Value}
    (h : ScopedWhere model organizationId (callerWhere args) filter)
    (hget : args'.get "where" = filter) (hoptions : options args' = options args.orEmpty) :
    E.find operation args' table = taken E model organizationId operation args table := by
  have hrows : table.filter (E.Matches filter) =
      table.filter (InScope E model organizationId args) :=
    List.filter_congr fun row _ => decide_eq_decide.mpr h.matches_iff
  rw [Engine.find, taken, hget, hoptions, hrows]

theorem not_mem_of_mem {ops ops' : List String} (hop : operation ∈ ops)
    (hdisjoint : ∀ op ∈ ops, op ∉ ops') : operation ∉ ops' :=
  hdisjoint operation hop

theorem Narrowed.find (h : Narrowed model operation organizationId args.orEmpty args')
    (hop : operation ∉ createOperations) :
    E.find operation args' table = taken E model organizationId operation args table := by
  have hargs := Value.isObject_orEmpty args
  cases h with
  | upsert _ hwhere _ =>
    refine hwhere.find ?_ ?_
    · rw [Value.get_set_of_ne (by decide), Value.get_set hargs]
    · rw [options_set (by decide), options_set (by decide)]
  | filter _ hwhere =>
    exact hwhere.find (Value.get_set hargs _ _) (options_set (by decide) _)
  | create hcreate _ => exact absurd hcreate hop

theorem Narrowed.updates (h : Narrowed model operation organizationId args.orEmpty args')
    (hop : operation ∈ ["update", "updateMany", "updateManyAndReturn"]) :
    operation ∈ ["update", "updateMany"] ∧ args'.get "data" = args.orEmpty.get "data" := by
  cases h with
  | upsert hupsert _ _ => exact absurd (hupsert ▸ hop) (by decide)
  | filter hfilter _ =>
    refine ⟨?_, Value.get_set_of_ne (by decide) _⟩
    rcases List.mem_cons.mp hop with rfl | hop
    · decide
    rcases List.mem_cons.mp hop with rfl | hop
    · decide
    · exact absurd hfilter (not_mem_of_mem hop (by decide))
  | create hcreate _ => exact absurd hcreate (not_mem_of_mem hop (by decide))

theorem taken_inScope {found : List Row}
    (h : taken E model organizationId operation args table = .ok found) :
    ∀ row ∈ found, row ∈ table ∧ InScope E model organizationId args row := by
  intro row hrow
  have := E.pick_subset h hrow
  simpa using this

/-- **An operation selects rows in scope.** -/
theorem selected_inScope (hnarrow : Narrowed model operation organizationId args.orEmpty args')
    (h : E.Executed operation args' table effect) :
    ∀ row ∈ effect.selected, row ∈ table ∧ InScope E model organizationId args row := by
  cases h with
  | read hop hfind =>
    have hnot : operation ∉ createOperations :=
      hop.elim (not_mem_of_mem · (by decide)) (not_mem_of_mem · (by decide))
    rw [hnarrow.find hnot] at hfind
    exact taken_inScope hfind
  | updated hop hfind _ =>
    rw [hnarrow.find (not_mem_of_mem hop (by decide))] at hfind
    exact taken_inScope hfind
  | upsertUpdated hop hfind _ =>
    rw [hnarrow.find (hop ▸ by decide)] at hfind
    intro row hrow
    rw [List.mem_singleton.mp hrow]
    exact taken_inScope hfind _ List.mem_cons_self
  | upsertCreated _ _ _ | created _ _ => exact fun row hrow => absurd hrow List.not_mem_nil

end Operations

/-! ### A concrete engine -/

/-- A row of `Upload`. -/
structure UploadRow where
  id : String
  organizationId : Option String
  originalName : String
deriving DecidableEq

/-- The value of a property that is a string. -/
def textOr (v : Value) (default : String) : String :=
  match v with
  | .string text => text
  | _ => default

/-- A nested write of the relation that connects or disconnects it. -/
def exampleRelation (v : Value) (owner : Option String) : Option String :=
  match (v.get "connect").get "id" with
  | .string id => some id
  | _ => if (v.get "disconnect").isUndefined then owner else none

def exampleOwner : Value → Option String → Option String :=
  ownerAfter "organizationId" "organization" exampleRelation

/-- A table of uploads, with equality as its only condition. -/
def exampleEngine : TenantEngine UploadRow where
  owner := UploadRow.organizationId
  condition key v row :=
    match v with
    | .string text =>
      if key = "id" then some (row.id = text)
      else if key = "originalName" then some (row.originalName = text) else none
    | _ => none
  validate _ _ := .ok ()
  pick operation _ rows :=
    if operation ∈ ["findMany", "updateMany", "deleteMany", "count"] then .ok rows
    else if operation = "update" ∧ rows = [] then .error (.prisma "P2025" "No record was found")
    else .ok (rows.take 1)
  relationOwner := exampleRelation
  write
    | .create (.object cls es) =>
      let data := Value.object cls es
      .ok ⟨textOr (data.get "id") "", exampleOwner data none, textOr (data.get "originalName") ""⟩
    | .create _ => .error (.error "Argument data is missing.")
    | .update row data =>
      .ok ⟨row.id, exampleOwner data row.organizationId,
        textOr (data.get "originalName") row.originalName⟩
  nested _ _ := []
  pick_subset := by
    intro operation options rows found h
    split at h
    · exact Except.ok.inj h ▸ List.Subset.refl _
    split at h
    · cases h
    · exact Except.ok.inj h ▸ List.take_subset _ _
  write_create := by
    intro data row h
    cases data with
    | object cls es =>
      cases h
      exact ⟨.intro _ _, rfl⟩
    | undefined | null | string _ | atom _ | array _ => cases h
  write_update := by
    intro before data row h
    cases h
    rfl

def exampleModels : DataModel :=
  [⟨"Upload", ["id", "organizationId", "originalName"], by decide⟩,
    ⟨"User", ["id", "email"], by decide⟩]

def exampleTable : List UploadRow :=
  [⟨"up1", some "org-a", "a.pdf"⟩, ⟨"up2", some "org-b", "b.pdf"⟩]

/-- A request in the organization `org-a`. -/
def exampleContext : RequestContext := .request "r1" (some "u1") (some "org-a")

/-! ### Selections -/

/-- **Tenant read and selection isolation.** -/
theorem selections_isolated {Row : Type} (models : DataModel) (E : TenantEngine Row)
    {model : String} (hmodel : model ∈ tenantScopedModels models) (operation : String)
    (args : Value) (table : List Row) :
    (∀ (context : RequestContext) (organizationId : String) (effect : Effect Row),
      context.activeOrganization = some organizationId →
      scopedOperation models E (some context) model operation args table = .ok effect →
      ∀ row ∈ effect.selected, row ∈ table ∧ (E.owner row = some organizationId ∨
        E.owner row = none ∧ ((callerWhere args).get "organizationId") = .null ∧
          model ∈ nullableGlobalOwnerModels)) ∧
    (∃ message, scopedOperation models E none model operation args table =
      .error (tenantScopeError message)) ∧
    ∀ requestId userId organizationId, organizationId = none ∨ organizationId = some "" →
      explicitlyGlobal model operation args = false →
      ∃ message, scopedOperation models E (some (.request requestId userId organizationId)) model
        operation args table = .error (tenantScopeError message) := by
  refine ⟨?_, ?_, ?_⟩
  · intro context organizationId effect hactive hrun row hrow
    obtain ⟨args', hnarrow, hexecuted⟩ := scopedOperation_ok hmodel hactive hrun
    obtain ⟨htable, hscope⟩ := selected_inScope hnarrow hexecuted row hrow
    refine ⟨htable, hscope.owner.imp_right fun ⟨hnone, hglobal⟩ => ⟨hnone, ?_⟩⟩
    obtain ⟨hnull, hnullable⟩ := Bool.and_eq_true_iff.mp hglobal
    exact ⟨Value.eq_null_of_isNull hnull, of_decide_eq_true hnullable⟩
  · obtain ⟨message, hresolve⟩ := resolve_none hmodel operation args
    exact ⟨message, scopedOperation_error hresolve⟩
  · intro requestId userId organizationId hnone hglobal
    have hinactive : (RequestContext.request requestId userId organizationId).activeOrganization =
        none := by
      rcases hnone with rfl | rfl <;> rfl
    obtain ⟨message, hresolve⟩ := resolve_inactive hmodel hinactive hglobal
    exact ⟨message, scopedOperation_error hresolve⟩

/-- The page of both ids holds the organization's row alone. -/
theorem selections_isolated_uploads :
    let args := Value.record [("where", .record [("OR", .array
      [.record [("id", .string "up1")], .record [("id", .string "up2")]])])]
    (∀ row ∈ [(⟨"up1", some "org-a", "a.pdf"⟩ : UploadRow)], row ∈ exampleTable ∧
      (row.organizationId = some "org-a" ∨ row.organizationId = none ∧
        (callerWhere args).get "organizationId" = .null ∧
          "Upload" ∈ nullableGlobalOwnerModels)) ∧
    ∃ message, scopedOperation exampleModels exampleEngine none "Upload" "findMany" args
      exampleTable = .error (tenantScopeError message) := by
  intro args
  have hmodel : "Upload" ∈ tenantScopedModels exampleModels := by decide
  have h := selections_isolated exampleModels exampleEngine hmodel "findMany" args exampleTable
  exact ⟨h.1 exampleContext "org-a" ⟨_, []⟩ rfl rfl, h.2.1⟩

/-! ### Writes -/

section Writes
variable {Row : Type} (E : TenantEngine Row)

/-- The owner that a row of the model may have after a write in the organization. -/
def Permitted (model organizationId : String) (owner : Option String) : Prop :=
  owner = some organizationId ∨ owner = none ∧ model ∈ nullableGlobalOwnerModels

instance (model organizationId : String) : DecidablePred (Permitted model organizationId) :=
  fun owner => inferInstanceAs (Decidable (owner = some organizationId ∨ _ ∧ _))

/-- The writes of an operation that the extension does not constrain: the updates of the rows it
takes, and the writes of rows of the model that are nested in its data. -/
inductive FreeWrite (model organizationId operation : String) (args : Value) (table : List Row) :
    RowWrite Row → Prop
  | update {found : List Row} {row : Row} {w : RowWrite Row}
    (hop : operation ∈ ["update", "updateMany"])
    (hfound : taken E model organizationId operation args table = .ok found) (hrow : row ∈ found)
    (hw : w ∈ E.updateWrites (args.orEmpty.get "data") row) :
    FreeWrite model organizationId operation args table w
  | upsertUpdate {row : Row} {rest : List Row} {w : RowWrite Row} (hop : operation = "upsert")
    (hfound : taken E model organizationId operation args table = .ok (row :: rest))
    (hw : w ∈ E.updateWrites (args.orEmpty.get "update") row) :
    FreeWrite model organizationId operation args table w
  | upsertCreate {data : Value} {w : RowWrite Row} (hop : operation = "upsert")
    (hfound : taken E model organizationId operation args table = .ok [])
    (hdata : data ∈ dataRows (args.orEmpty.get "create")) (hobject : data.IsObject)
    (hw : w ∈ E.nested (data.without ["organizationId"]) none) :
    FreeWrite model organizationId operation args table w
  | create {data : Value} {w : RowWrite Row} (hop : operation ∈ createOperations)
    (hdata : data ∈ dataRows (args.orEmpty.get "data")) (hobject : data.IsObject)
    (hw : w ∈ E.nested (data.without ["organizationId"]) none) :
    FreeWrite model organizationId operation args table w

/-- Each of these writes leaves its row with a permitted owner. -/
def KeepsOwner (model organizationId operation : String) (args : Value) (table : List Row) : Prop :=
  ∀ w, FreeWrite E model organizationId operation args table w →
    Permitted model organizationId (E.ownerOf w)

variable {E} {model operation organizationId : String} {args args' : Value}
  {context : RequestContext} {table : List Row} {effect : Effect Row}

theorem ScopedRow.permitted {row row' : Value} (h : ScopedRow model organizationId row row')
    (hobject : row'.IsObject) : Permitted model organizationId (E.ownerOf (.create row')) := by
  cases h with
  | data hnone => exact absurd (hobject.asRecord.symm.trans hnone) (by simp)
  | global hrecord hrelation hglobal =>
    obtain ⟨hnull, hnullable⟩ := Bool.and_eq_true_iff.mp hglobal
    have hownership : row.get "organizationId" = .null := Value.eq_null_of_isNull hnull
    refine .inr ⟨?_, of_decide_eq_true hnullable⟩
    simp only [Engine.ownerOf, ownerAfter, if_pos hrelation, hownership]
  | organization hrecord hrelation =>
    left
    simp only [Engine.ownerOf, ownerAfter, Value.get_set_of_ne (show "organization" ≠
      "organizationId" by decide), if_pos hrelation, Value.get_set hrecord]

/-- The writes of a creation with stamped data leave permitted owners if the nested ones do. -/
theorem ScopedRow.createWrites {row row' : Value} (h : ScopedRow model organizationId row row') :
    (row'.IsObject → ∀ w ∈ E.createWrites row', Permitted model organizationId (E.ownerOf w)) ↔
      (row.IsObject → ∀ w ∈ E.nested (row.without ["organizationId"]) none,
        Permitted model organizationId (E.ownerOf w)) := by
  have hsame : (row'.IsObject ↔ row.IsObject) ∧
      row'.without ["organizationId"] = row.without ["organizationId"] := by
    cases h with
    | data _ => exact ⟨Iff.rfl, rfl⟩
    | global _ _ _ => exact ⟨Iff.rfl, rfl⟩
    | organization hrecord _ =>
      exact ⟨iff_of_true (hrecord.set _ _) hrecord, Value.without_set List.mem_cons_self _ _⟩
  rw [hsame.1]
  refine forall_congr' fun hobject => ?_
  rw [Engine.createWrites, List.forall_mem_cons, hsame.2]
  exact and_iff_right (h.permitted (hsame.1.mpr hobject))

theorem created_permitted {location : String} {data data' : Value} {written : List Row}
    (hscope : scopeCreateData model data organizationId location = .ok data')
    (hwrite : ((dataRows data').flatMap E.createWrites).mapM E.write = .ok written) :
    (∀ row ∈ written, Permitted model organizationId (E.owner row)) ↔
      ∀ row ∈ dataRows data, row.IsObject → ∀ w ∈ E.nested (row.without ["organizationId"]) none,
        Permitted model organizationId (E.ownerOf w) := by
  have hobjects : ∀ row' ∈ dataRows data', row'.IsObject := by
    intro row' hrow
    obtain ⟨row, hok⟩ := exists_of_mapM hwrite (.create row')
      (List.mem_flatMap.mpr ⟨row', hrow, List.mem_cons_self⟩)
    exact (E.write_create hok).1
  rw [forall_written hwrite, ← forall_scopedRows hscope fun h => h.createWrites]
  constructor
  · exact fun hall row' hrow _ w hw => hall w (List.mem_flatMap.mpr ⟨row', hrow, hw⟩)
  · intro hall w hw
    obtain ⟨row', hrow, hw⟩ := List.mem_flatMap.mp hw
    exact hall row' hrow (hobjects row' hrow) w hw

section Condition
variable {found : List Row}

theorem keepsOwner_update (hop : operation ∈ ["update", "updateMany"])
    (hfound : taken E model organizationId operation args table = .ok found) :
    KeepsOwner E model organizationId operation args table ↔
      ∀ w ∈ found.flatMap (E.updateWrites (args.orEmpty.get "data")),
        Permitted model organizationId (E.ownerOf w) := by
  constructor
  · intro h w hw
    obtain ⟨row, hrow, hw⟩ := List.mem_flatMap.mp hw
    exact h w (.update hop hfound hrow hw)
  · intro h w hfree
    cases hfree with
    | update _ hfound' hrow hw =>
      obtain rfl : found = _ := Except.ok.inj (hfound.symm.trans hfound')
      exact h w (List.mem_flatMap.mpr ⟨_, hrow, hw⟩)
    | upsertUpdate hupsert _ _ | upsertCreate hupsert _ _ _ _ =>
      exact absurd (hupsert ▸ hop) (by decide)
    | create hcreate _ _ _ => exact absurd hcreate (not_mem_of_mem hop (by decide))

theorem keepsOwner_upsertUpdate {row : Row} {rest : List Row} (hop : operation = "upsert")
    (hfound : taken E model organizationId operation args table = .ok (row :: rest)) :
    KeepsOwner E model organizationId operation args table ↔
      ∀ w ∈ E.updateWrites (args.orEmpty.get "update") row,
        Permitted model organizationId (E.ownerOf w) := by
  constructor
  · exact fun h w hw => h w (.upsertUpdate hop hfound hw)
  · intro h w hfree
    cases hfree with
    | update hupdate _ _ _ => exact absurd (hop ▸ hupdate) (by decide)
    | upsertUpdate _ hfound' hw =>
      cases Except.ok.inj (hfound.symm.trans hfound')
      exact h w hw
    | upsertCreate _ hfound' _ _ _ => cases Except.ok.inj (hfound.symm.trans hfound')
    | create hcreate _ _ _ => exact absurd (hop ▸ hcreate) (by decide)

theorem keepsOwner_upsertCreate (hop : operation = "upsert")
    (hfound : taken E model organizationId operation args table = .ok []) :
    KeepsOwner E model organizationId operation args table ↔
      ∀ row ∈ dataRows (args.orEmpty.get "create"), row.IsObject →
        ∀ w ∈ E.nested (row.without ["organizationId"]) none,
          Permitted model organizationId (E.ownerOf w) := by
  constructor
  · exact fun h row hrow hobject w hw => h w (.upsertCreate hop hfound hrow hobject hw)
  · intro h w hfree
    cases hfree with
    | update hupdate _ _ _ => exact absurd (hop ▸ hupdate) (by decide)
    | upsertUpdate _ hfound' _ => cases Except.ok.inj (hfound.symm.trans hfound')
    | upsertCreate _ _ hdata hobject hw => exact h _ hdata hobject w hw
    | create hcreate _ _ _ => exact absurd (hop ▸ hcreate) (by decide)

theorem keepsOwner_create (hop : operation ∈ createOperations) :
    KeepsOwner E model organizationId operation args table ↔
      ∀ row ∈ dataRows (args.orEmpty.get "data"), row.IsObject →
        ∀ w ∈ E.nested (row.without ["organizationId"]) none,
          Permitted model organizationId (E.ownerOf w) := by
  constructor
  · exact fun h row hrow hobject w hw => h w (.create hop hrow hobject hw)
  · intro h w hfree
    cases hfree with
    | update hupdate _ _ _ => exact absurd hupdate (not_mem_of_mem hop (by decide))
    | upsertUpdate hupsert _ _ | upsertCreate hupsert _ _ _ _ =>
      exact absurd (hupsert ▸ hop) (by decide)
    | create _ hdata hobject hw => exact h _ hdata hobject w hw

theorem keepsOwner_read
    (hop : operation ∈ readOperations ∨ operation ∈ ["delete", "deleteMany"]) :
    KeepsOwner E model organizationId operation args table := by
  have hnot {ops : List String} (hread : ∀ op ∈ readOperations, op ∉ ops)
      (hdelete : ∀ op ∈ ["delete", "deleteMany"], op ∉ ops) : operation ∉ ops :=
    hop.elim (hread operation) (hdelete operation)
  intro w hfree
  cases hfree with
  | update hupdate _ _ _ => exact absurd hupdate (hnot (by decide) (by decide))
  | upsertUpdate hupsert _ _ | upsertCreate hupsert _ _ _ _ =>
    exact absurd (List.mem_singleton.mpr hupsert) (hnot (by decide) (by decide))
  | create hcreate _ _ _ => exact absurd hcreate (hnot (by decide) (by decide))

end Condition

theorem object_dataRows {data : Value} (h : data.IsObject) : dataRows data = [data] := by
  obtain ⟨cls, es⟩ := h
  rfl

/-- **Tenant write isolation, and when it holds.** Every row that an operation creates or modifies
is left to the organization, if and only if the writes that are not constrained do so. -/
theorem writes_isolated_iff (models : DataModel) (E : TenantEngine Row)
    (hmodel : model ∈ tenantScopedModels models) (args : Value) (table : List Row)
    (hactive : context.activeOrganization = some organizationId)
    (hrun : scopedOperation models E (some context) model operation args table = .ok effect) :
    (∀ row ∈ effect.written, Permitted model organizationId (E.owner row)) ↔
      KeepsOwner E model organizationId operation args table := by
  obtain ⟨args', hnarrow, hexecuted⟩ := scopedOperation_ok hmodel hactive hrun
  have hargs := Value.isObject_orEmpty args
  cases hexecuted with
  | read hop hfind =>
    exact iff_of_true (fun row hrow => absurd hrow List.not_mem_nil) (keepsOwner_read hop)
  | updated hop hfind hwrite =>
    rw [hnarrow.find (not_mem_of_mem hop (by decide))] at hfind
    obtain ⟨hadmitted, hdata⟩ := hnarrow.updates hop
    rw [forall_written hwrite, keepsOwner_update hadmitted hfind, hdata]
  | upsertCreated hop hfind hwrite =>
    rw [hnarrow.find (hop ▸ by decide)] at hfind
    rw [keepsOwner_upsertCreate hop hfind]
    cases hnarrow with
    | upsert _ _ hcreate =>
      rw [Value.get_set (hargs.set _ _)] at hwrite
      obtain ⟨row, hok⟩ := exists_of_mapM hwrite _ List.mem_cons_self
      refine created_permitted hcreate ?_
      rw [object_dataRows (E.write_create hok).1, List.flatMap_singleton]
      exact hwrite
    | filter hfilter _ => exact absurd (hop ▸ hfilter) (by decide)
    | create hcreate _ => exact absurd (hop ▸ hcreate) (by decide)
  | upsertUpdated hop hfind hwrite =>
    rw [hnarrow.find (hop ▸ by decide)] at hfind
    rw [keepsOwner_upsertUpdate hop hfind, forall_written hwrite]
    cases hnarrow with
    | upsert _ _ _ => rw [Value.get_set_of_ne (by decide), Value.get_set_of_ne (by decide)]
    | filter hfilter _ => exact absurd (hop ▸ hfilter) (by decide)
    | create hcreate _ => exact absurd (hop ▸ hcreate) (by decide)
  | created hop hwrite =>
    rw [keepsOwner_create hop]
    cases hnarrow with
    | upsert hupsert _ _ => exact absurd (hupsert ▸ hop) (by decide)
    | filter hfilter _ => exact absurd hfilter (not_mem_of_mem hop (by decide))
    | create _ hdata =>
      rw [Value.get_set hargs] at hwrite
      exact created_permitted hdata hwrite

end Writes

/-- The arguments of an update of `up1`. -/
def updateOf (data : List (String × Value)) : Value :=
  .record [("where", .record [("id", .string "up1")]), ("data", .record data)]

/-- A new name leaves the upload to its organization. -/
theorem writes_isolated_rename :
    KeepsOwner exampleEngine "Upload" "org-a" "update"
      (updateOf [("originalName", .string "c.pdf")]) exampleTable := by
  have hrun : scopedOperation exampleModels exampleEngine (some exampleContext) "Upload" "update"
      (updateOf [("originalName", .string "c.pdf")]) exampleTable =
        .ok ⟨[⟨"up1", some "org-a", "a.pdf"⟩], [⟨"up1", some "org-a", "c.pdf"⟩]⟩ := rfl
  exact (writes_isolated_iff exampleModels exampleEngine (by decide) _ _ rfl hrun).mp (by decide)

/-- The operation writes a row outside the organization `org-a`. -/
def Escapes (operation : String) (args : Value) : Prop :=
  ∃ effect, scopedOperation exampleModels exampleEngine (some exampleContext) "Upload" operation
    args exampleTable = .ok effect ∧
      ∃ row ∈ effect.written, ¬ Permitted "Upload" "org-a" row.organizationId

/-- **An update can move a row to another organization**: by the column in its data, by the relation,
by the update branch of an upsert. -/
theorem updates_move_rows :
    Escapes "update" (updateOf [("organizationId", .string "org-b")]) ∧
    Escapes "update" (updateOf [("organization", .record [("connect",
      .record [("id", .string "org-b")])])]) ∧
    Escapes "upsert" (.record [("where", .record [("id", .string "up1")]),
      ("create", .record [("id", .string "up1")]),
      ("update", .record [("organizationId", .string "org-b")])]) :=
  ⟨⟨_, rfl, by decide⟩, ⟨_, rfl, by decide⟩, ⟨_, rfl, by decide⟩⟩

end BackendFoundation.Tenancy.Isolation
