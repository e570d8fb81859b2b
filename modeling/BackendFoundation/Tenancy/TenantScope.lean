import BackendFoundation.Lib.Query

/-! # The tenant scope

The query extension of `lib/tenant-scope.ts`, on the arguments of an operation and the context of the
request. What the client then does with the arguments is the parameter `query`. -/

namespace BackendFoundation.Tenancy.TenantScope

open Errors Lib

/-! ### The models -/

/-- A model of Prisma's generated data model. -/
structure Model where
  name : String
  fields : List String
  name_ne : name ≠ ""
deriving DecidableEq

/-- `Prisma.dmmf.datamodel.models`. -/
abbrev DataModel := List Model

/-- Models exempt from scoping despite carrying `organizationId`. -/
def tenantScopeExemptModels : List String := ["Membership", "Invitation", "Role"]

/-- Models with both tenant-owned rows and user-global rows. -/
def nullableGlobalOwnerModels : List String :=
  ["NotificationPreference", "PaymentMethod", "StripePayment", "StripeRefundOperation",
    "StripeSubscription"]

def tenantScopedModels (models : DataModel) : List String :=
  (models.filter fun model =>
    "organizationId" ∈ model.fields ∧ model.name ∉ tenantScopeExemptModels).map (·.name)

theorem ne_of_tenantScoped {models : DataModel} {model : String}
    (h : model ∈ tenantScopedModels models) : model ≠ "" := by
  obtain ⟨m, -, rfl⟩ := List.mem_map.mp h
  exact m.name_ne

/-! ### The request context -/

inductive RequestContext
  | request (requestId : String) (userId organizationId : Option String)
  | unscoped (reason : String)
deriving DecidableEq

/-- The active organization of a request; an empty id is none. -/
def RequestContext.activeOrganization : RequestContext → Option String
  | .request _ _ organizationId => organizationId.filter (· ≠ "")
  | .unscoped _ => none

/-! ### Scoping the arguments -/

/-- `TenantScopeError`. -/
def tenantScopeError (message : String) : Thrown := .error message

def filterOperations : List String :=
  ["findUnique", "findUniqueOrThrow", "findFirst", "findFirstOrThrow", "findMany", "count",
    "aggregate", "groupBy", "update", "updateMany", "delete", "deleteMany"]

def createOperations : List String := ["create", "createMany", "createManyAndReturn"]

def assertAgrees (existing : Value) (organizationId location : String) : Except Thrown Unit :=
  match existing with
  | .undefined | .null => .ok ()
  | .string existing =>
    if existing = organizationId then .ok ()
    else .error (tenantScopeError (location ++ " targets organization " ++ existing ++
      " while the request resolved " ++ organizationId))
  | _ => .error (tenantScopeError (location ++
      " sets organizationId to a non-literal filter, which cannot be proven single-tenant"))

/-- The caller's `where` names the owner `null`, of a model that has user-global rows. -/
def globalOwner (model : String) (record : Value) : Bool :=
  (record.get "organizationId").isNull && model ∈ nullableGlobalOwnerModels

def scopeWhere (model : String) (args : Value) (organizationId location : String) :
    Except Thrown Value := do
  let filter := (args.get "where").orEmpty
  if globalOwner model filter then return args.set "where" filter
  assertAgrees (filter.get "organizationId") organizationId location
  return args.set "where" (filter.set "organizationId" (.string organizationId))

/-- One row of `scopeCreateData`. -/
def scopeCreateRow (model : String) (organizationId location : String) (row : Value) :
    Except Thrown Value := do
  match row.asRecord with
  | none => return row
  | some record =>
    if !(record.get "organization").isUndefined then
      throw (tenantScopeError (location ++
        " connects the organization relation; set the scalar organizationId instead"))
    if globalOwner model record then return record
    assertAgrees (record.get "organizationId") organizationId location
    return record.set "organizationId" (.string organizationId)

def scopeCreateData (model : String) (data : Value) (organizationId location : String) :
    Except Thrown Value :=
  match data with
  | .array rows => do return .array (← rows.mapM (scopeCreateRow model organizationId location))
  | row => scopeCreateRow model organizationId location row

def applyTenantScope (model operation : String) (args : Value) (organizationId : String) :
    Except Thrown Value := do
  let location := model ++ "." ++ operation
  let record := args.orEmpty
  if operation = "upsert" then
    let record ← scopeWhere model record organizationId location
    let create ← scopeCreateData model (record.get "create") organizationId location
    return record.set "create" create
  if operation ∈ filterOperations then
    return ← scopeWhere model record organizationId location
  if operation ∈ createOperations then
    let data ← scopeCreateData model (record.get "data") organizationId location
    return record.set "data" data
  throw (tenantScopeError (location ++
    " is not a tenant-scopable operation; wrap it in withoutTenantScope() if it is trusted"))

/-- The owner that the arguments name is `null`. -/
def namesNull (v : Value) : Bool :=
  match v.asRecord with
  | some record => (record.get "organizationId").isNull
  | none => false

/-- The arguments are explicitly those of user-global rows. -/
def explicitlyGlobal (model operation : String) (args : Value) : Bool :=
  let record := args.orEmpty
  model ∈ nullableGlobalOwnerModels &&
    ((operation ∈ filterOperations && namesNull (record.get "where")) ||
      (operation ∈ createOperations &&
        match record.get "data" with
        | .array rows => rows.all namesNull
        | data => namesNull data) ||
      (operation = "upsert" && namesNull (record.get "where") && namesNull (record.get "create")))

/-- The organization to narrow an operation to; `none` if it runs as it is. -/
def resolveScopeOrganization (models : DataModel) (context : Option RequestContext)
    (model : Option String) (operation : String) (args : Value) : Except Thrown (Option String) :=
  match model with
  | none => .ok none
  | some model =>
    if model = "" ∨ model ∉ tenantScopedModels models then .ok none
    else
      match context with
      | some (.unscoped _) => .ok none
      | none => .error (tenantScopeError (model ++ "." ++ operation ++
          " ran outside a request context; wrap trusted background work in withoutTenantScope()"))
      | some context =>
        match context.activeOrganization with
        | some organizationId => .ok (some organizationId)
        | none =>
          if explicitlyGlobal model operation args then .ok none
          else .error (tenantScopeError (model ++ "." ++ operation ++
            " ran before an organization was resolved for the request"))

/-- **The extension**: `$allOperations`. -/
def tenantScopeExtension {α : Type} (models : DataModel) (context : Option RequestContext)
    (model : Option String) (operation : String) (args : Value)
    (query : Value → Except Thrown α) : Except Thrown α := do
  match ← resolveScopeOrganization models context model operation args with
  | none => query args
  | some organizationId =>
    query (← applyTenantScope (model.getD "") operation args organizationId)

end BackendFoundation.Tenancy.TenantScope
