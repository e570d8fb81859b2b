import BackendFoundation.Lib.Extend
import BackendFoundation.Organizations.Login
import BackendFoundation.Organizations.Model

/-! # Roles, permissions and the guards

`authenticate` and `permissionGuard` of `access-control.ts`, beside everything that writes the rows
they read: `roles.service.ts`, the calls on organizations, `createSession` with
`resolveInitialOrganizationId`, `switchOrganization`, `revokeSession`, and the memberships of
`tenancy-backfill.ts`. The tables are those of the organizations and four more (`Both`); a call on
organizations runs as it is modelled there, on its part of the rows, with the roles that its queries
find and with the statements on sessions and user roles that it has besides (`enter`).

A query of a request is a transaction of its own. The calls are read-committed transactions, a
statement or a row of a statement a step. A permission is known by its code, and no call changes the
permissions there are. Refresh tokens and audit events are left out: of these rows a refresh writes no
more than `revokeSession` does. -/

namespace BackendFoundation.Access.Model

open Lib.Database Lib.Interleave Lib.Schema Lib.Services Lib.Rows Lib.Extend Errors Crypto
open Organizations.Model
open Organizations.Login (TenancyMode DEFAULT_ORGANIZATION_SLUG RefreshTokenTtl)

/-! ### Rows -/

structure Session where
  userId : ℕ
  activeOrganizationId : Option ℕ := none
  expiresAt : ℕ
  revokedAt : Option ℕ := none
  deletedAt : Option ℕ := none
deriving DecidableEq

/-- A role that belongs to no organization is global. -/
structure RoleRow where
  organizationId : Option ℕ := none
  name : String
  deletedAt : Option ℕ := none
deriving DecidableEq

structure RolePermission where
  deletedAt : Option ℕ := none
deriving DecidableEq

structure UserRole where
  deletedAt : Option ℕ := none
deriving DecidableEq

inductive AccessRelation
  | session | role | rolePermission | userRole
deriving DecidableEq

/-- A role permission has a role and a code, a user role a user and a role. -/
abbrev AccessId : AccessRelation → Type
  | .session | .role => ℕ
  | .rolePermission => ℕ × String
  | .userRole => ℕ × ℕ

abbrev AccessRow : AccessRelation → Type
  | .session => Session
  | .role => RoleRow
  | .rolePermission => RolePermission
  | .userRole => UserRole

instance : ∀ t, DecidableEq (AccessId t)
  | .session | .role => inferInstanceAs (DecidableEq ℕ)
  | .rolePermission => inferInstanceAs (DecidableEq (ℕ × String))
  | .userRole => inferInstanceAs (DecidableEq (ℕ × ℕ))

instance : ∀ t, DecidableEq (AccessRow t)
  | .session => inferInstanceAs (DecidableEq Session)
  | .role => inferInstanceAs (DecidableEq RoleRow)
  | .rolePermission => inferInstanceAs (DecidableEq RolePermission)
  | .userRole => inferInstanceAs (DecidableEq UserRole)

abbrev Table := Relation ⊕ AccessRelation

abbrev TableId : Table → Type := Both Organizations.Model.Id AccessId

abbrev TableRow : Table → Type := Both Organizations.Model.Row AccessRow

abbrev AccessKey := Key TableId

abbrev AccessRowOf := RowOf TableId TableRow

abbrev AccessRows := Lib.Database.Rows AccessRowOf

abbrev AccessStmt := Stmt AccessRowOf

abbrev AccessUpdate (t : Table) := Update TableId TableRow t

abbrev organizationKey (id : ℕ) : AccessKey := ⟨.inl .organization, id⟩

abbrev userKey (id : ℕ) : AccessKey := ⟨.inl .user, id⟩

abbrev membershipKey (organizationId userId : ℕ) : AccessKey :=
  ⟨.inl .membership, (organizationId, userId)⟩

abbrev invitationKey (id : ℕ) : AccessKey := ⟨.inl .invitation, id⟩

abbrev sessionKey (id : ℕ) : AccessKey := ⟨.inr .session, id⟩

abbrev roleKey (id : ℕ) : AccessKey := ⟨.inr .role, id⟩

abbrev rolePermissionKey (roleId : ℕ) (code : String) : AccessKey :=
  ⟨.inr .rolePermission, (roleId, code)⟩

abbrev userRoleKey (userId roleId : ℕ) : AccessKey := ⟨.inr .userRole, (userId, roleId)⟩

def RoleRow.live (role : RoleRow) : Bool := role.deletedAt = none

def RolePermission.live (row : RolePermission) : Bool := row.deletedAt = none

def UserRole.live (row : UserRole) : Bool := row.deletedAt = none

def Session.live (session : Session) : Bool := session.deletedAt = none

/-! ### Grants -/

structure Permission where
  code : String
  deletedAt : Option ℕ := none
deriving DecidableEq

structure AccessConfig where
  R : Runtime
  K : Keyring
  mode : TenancyMode
  ttl : RefreshTokenTtl
  permissions : List Permission
  /-- What there is before the calls. -/
  rows : AccessRows
  keys : List AccessKey
  listed : ∀ k, rows k ≠ none → k ∈ keys

/-- `{ code, deletedAt: null }`. -/
def AccessConfig.liveCode (cfg : AccessConfig) (code : String) : Bool :=
  cfg.permissions.any fun permission => permission.code = code ∧ permission.deletedAt = none

/-- The role holds a permission with the code. -/
def holdsCode (cfg : AccessConfig) (rows : AccessRows) (roleId : ℕ) (code : String) : Bool :=
  cfg.liveCode code ∧ (rows (rolePermissionKey roleId code)).any RolePermission.live

/-- The condition of `hasGlobalGrant` on a role. -/
def globalRole (rows : AccessRows) (roleId : ℕ) : Bool :=
  (rows (roleKey roleId)).any fun role => role.organizationId = none ∧ role.live

def hasGlobalGrant (cfg : AccessConfig) (rows : AccessRows) (keys : List AccessKey) (userId : ℕ)
    (code : String) : Bool :=
  findMany rows keys (.inr .userRole) (fun (id : ℕ × ℕ) (row : UserRole) =>
    id.1 = userId ∧ row.live ∧ globalRole rows id.2 ∧ holdsCode cfg rows id.2 code) ≠ []

/-- `{ status: 'ACTIVE', deletedAt: null }`. -/
def activeMember (membership : Membership) : Bool :=
  membership.status = .active ∧ membership.live

def hasOrganizationGrant (cfg : AccessConfig) (rows : AccessRows) (userId organizationId : ℕ)
    (code : String) : Bool :=
  (rows (membershipKey organizationId userId)).any fun membership =>
    activeMember membership ∧ (rows (roleKey membership.roleId)).any RoleRow.live ∧
      holdsCode cfg rows membership.roleId code

/-! ### Requests -/

structure AccessClaims where
  userId : ℕ
  sessionId : ℕ
deriving DecidableEq

inductive Scope
  | global | organization | context
deriving DecidableEq

/-- A request with an access token that is verified, behind the guard of a scope. -/
structure GuardedRequest where
  claims : AccessClaims
  scope : Scope
  code : String
deriving DecidableEq

/-- What `authenticate` leaves in the request; an organization stands with its permission epoch. -/
structure Authenticated where
  userId : ℕ
  permissionEpoch : ℕ
  organization : Option (ℕ × ℕ)
deriving DecidableEq

/-- `permission:${scope}:${userId}:${userEpoch}:${organizationId}:${organizationEpoch}:${code}`, in
which no part but the last one has a colon. -/
structure CacheKey where
  scope : Scope
  auth : Authenticated
  code : String
deriving DecidableEq

def permissionCacheKey (input : GuardedRequest) (auth : Authenticated) : CacheKey :=
  ⟨input.scope, auth, input.code⟩

/-- The permission decisions that Redis has. -/
abbrev PermissionCache := CacheKey → Option Bool

inductive RequestPc
  | findSession
  | findUser (organizationId : Option ℕ)
  | findOrganization (permissionEpoch organizationId : ℕ)
  | findMembership (permissionEpoch organizationId organizationEpoch : ℕ)
  | readCache (auth : Authenticated)
  | findGlobalGrant (auth : Authenticated)
  | findOrganizationGrant (auth : Authenticated)
  | store (auth : Authenticated) (allowed : Bool)
  /-- The request goes on, or is answered by 403. -/
  | decided (auth : Authenticated) (allowed : Bool)
deriving DecidableEq

/-- The session that the claims name is in force. -/
def Session.accepts (rows : AccessRows) (now : ℕ) (claims : AccessClaims) (session : Session) :
    Bool :=
  session.userId = claims.userId ∧ session.revokedAt = none ∧ session.live ∧
    now < session.expiresAt ∧ (rows (userKey claims.userId)).any User.active

def unauthenticatedError : Thrown := .app (unauthenticated "Authentication required")

/-- The first check of `permissionGuard`. -/
def enterGuard (input : GuardedRequest) (auth : Authenticated) : Except Thrown RequestPc :=
  if input.scope = .organization ∧ auth.organization = none then
    .error (.app (forbidden "An active organization is required"))
  else .ok (.readCache auth)

/-- The first query of a guard that finds nothing in the cache. -/
def RequestPc.findGrant (input : GuardedRequest) (auth : Authenticated) : RequestPc :=
  if input.scope = .organization then .findOrganizationGrant auth else .findGlobalGrant auth

def authenticateNext (now : ℕ) (input : GuardedRequest) (rows : AccessRows) :
    RequestPc → Option (Except Thrown RequestPc)
  | .findSession =>
    some (
      match (rows (sessionKey input.claims.sessionId)).filter
          (Session.accepts rows now input.claims) with
      | none => .error unauthenticatedError
      | some session => .ok (.findUser session.activeOrganizationId))
  | .findUser organizationId =>
    some (
      match rows (userKey input.claims.userId) with
      | none => .error unauthenticatedError
      | some user =>
        match organizationId with
        | none => enterGuard input ⟨input.claims.userId, user.permissionEpoch, none⟩
        | some organizationId => .ok (.findOrganization user.permissionEpoch organizationId))
  | .findOrganization permissionEpoch organizationId =>
    some (
      match (rows (organizationKey organizationId)).filter Organization.active with
      | none => .error (.app (forbidden "Organization is not active"))
      | some organization =>
        .ok (.findMembership permissionEpoch organizationId organization.permissionEpoch))
  | .findMembership permissionEpoch organizationId organizationEpoch =>
    some (
      if (rows (membershipKey organizationId input.claims.userId)).any activeMember then
        enterGuard input
          ⟨input.claims.userId, permissionEpoch, some (organizationId, organizationEpoch)⟩
      else .error (.app (forbidden "Organization membership is not active")))
  | _ => none

/-- The queries of `permissionGuard`. -/
def guardNext (cfg : AccessConfig) (keys : List AccessKey) (input : GuardedRequest)
    (rows : AccessRows) : RequestPc → Option (Except Thrown RequestPc)
  | .findGlobalGrant auth =>
    some (.ok (
      if hasGlobalGrant cfg rows keys auth.userId input.code then .store auth true
      else if input.scope ≠ .global ∧ auth.organization.isSome then .findOrganizationGrant auth
      else .store auth false))
  | .findOrganizationGrant auth =>
    some (.ok (.store auth (auth.organization.any fun organization =>
      hasOrganizationGrant cfg rows auth.userId organization.1 input.code)))
  | _ => none

def requestStmt : RequestPc → Option AccessStmt
  | .findSession | .findUser _ | .findOrganization .. | .findMembership .. | .findGlobalGrant _
  | .findOrganizationGrant _ => some .read
  | .readCache _ | .store .. | .decided .. => none

def requestNext (cfg : AccessConfig) (site : Site AccessKey) (input : GuardedRequest)
    (pc : RequestPc) : Reply AccessRowOf → Option (Except Thrown RequestPc)
  | .rows rows =>
    match authenticateNext site.now input rows pc with
    | some result => some result
    | none => guardNext cfg site.keys input rows pc
  | _ => none

/-- What a request does to the cache; `pick` is 0 if Redis is available. -/
def requestOutside (pick : ℕ) (cache : PermissionCache) (input : GuardedRequest) :
    RequestPc → Option (PermissionCache × RequestPc)
  | .readCache auth =>
    some (cache,
      match (if pick = 0 then cache (permissionCacheKey input auth) else none) with
      | some allowed => .decided auth allowed
      | none => .findGrant input auth)
  | .store auth allowed =>
    some (
      if pick = 0 then Function.update cache (permissionCacheKey input auth) (some allowed) else cache,
      .decided auth allowed)
  | _ => none

/-! ### Calls -/

structure CreateSession where
  /-- The id that the database gives. -/
  id : ℕ
  /-- The id of the default organization, if it is created. -/
  organizationId : ℕ
  userId : ℕ
deriving DecidableEq

structure SwitchOrganization where
  userId : ℕ
  sessionId : ℕ
  organizationId : ℕ
deriving DecidableEq

structure RevokeSession where
  sessionId : ℕ
  userId : ℕ
deriving DecidableEq

/-- The arguments of `tenancy-backfill.ts`. -/
structure Backfill where
  organizationId : Option ℕ
  slug : String
  /-- The id that the database gives. -/
  newId : ℕ
deriving DecidableEq

structure CreateRole where
  /-- The id that the database gives. -/
  id : ℕ
  name : String
  permissions : List String
deriving DecidableEq

structure AssignRole where
  userId : ℕ
  roleId : ℕ
deriving DecidableEq

structure RevokeRole where
  userId : ℕ
  roleId : ℕ
deriving DecidableEq

structure UpdateRolePermissions where
  roleId : ℕ
  permissionCodes : List String
deriving DecidableEq

inductive AccessRequest
  | organization (request : OrganizationRequest)
  | createSession (input : CreateSession)
  | switchOrganization (input : SwitchOrganization)
  | revokeSession (input : RevokeSession)
  | backfill (input : Backfill)
  | createRole (input : CreateRole)
  | assignRole (input : AssignRole)
  | revokeRole (input : RevokeRole)
  | updateRolePermissions (input : UpdateRolePermissions)
  | guarded (input : GuardedRequest)
deriving DecidableEq

inductive AccessResult
  | organization (result : OrganizationResult)
  | session (id : ℕ)
  | switched (organizationId : ℕ)
  | void
  | role (id : ℕ)
  | assigned
  | revoked (revoked : Bool)
deriving DecidableEq

/-- A user who joins an organization by a login or by the backfill. -/
structure Joining where
  organizationId : ℕ
  roleId : ℕ
  userId : ℕ
  joinedAt : ℕ
deriving DecidableEq

/-- How the organization of a new session has been found. -/
inductive Initial
  | none
  | joined (joining : Joining)
  /-- The organization of an active membership. -/
  | member (organizationId : ℕ)
deriving DecidableEq

def Initial.organizationId : Initial → Option ℕ
  | .none => .none
  | .joined joining => some joining.organizationId
  | .member organizationId => some organizationId

inductive LoginPc
  | findOrganization
  | insertOrganization
  | findRole (organizationId : ℕ)
  | updateMembership (joining : Joining)
  | insertMembership (joining : Joining)
  | findMembership
  | insertSession (initial : Initial)
  | touchUser (initial : Initial)
  | commit (initial : Initial)
deriving DecidableEq

inductive SwitchPc
  | findMembership
  | updateSession
  | findOrganization
  | commit
deriving DecidableEq

inductive LogoutPc
  | updateSession (revokedAt : ℕ)
  | commit
deriving DecidableEq

inductive BackfillPc
  | findOrganization
  | insertOrganization
  | findRole (organizationId : ℕ)
  | findUsers (organizationId roleId : ℕ)
  | updateMembership (joining : Joining) (rest : List ℕ)
  | insertMembership (joining : Joining) (rest : List ℕ)
  | updateSessions (organizationId roleId : ℕ)
  | commit (organizationId roleId : ℕ)
deriving DecidableEq

inductive CreateRolePc
  | insertRole
  | insertPermission (code : String) (rest : List String)
  | commit
deriving DecidableEq

inductive AssignPc
  | findRole
  | updateUserRole
  | insertUserRole
  | touchUser
  | commit
deriving DecidableEq

inductive RevokeRolePc
  | update (deletedAt : ℕ)
  | touchUser
  | commit (revoked : Bool)
deriving DecidableEq

/-- The role that an update has found, and the codes that it takes from it. -/
structure RoleChange where
  role : RoleRow
  toRemove : List String
deriving DecidableEq

/-- Whose permission epoch an update has incremented. -/
inductive Bumped
  | organization (id : ℕ)
  | holders (userIds : List ℕ)
deriving DecidableEq

inductive UpdateRolePc
  | findRole
  | findCurrent (role : RoleRow)
  | remove (change : RoleChange) (deletedAt : ℕ) (toAdd : List String)
  | updatePermission (change : RoleChange) (code : String) (rest : List String)
  | insertPermission (change : RoleChange) (code : String) (rest : List String)
  | touchOrganization (change : RoleChange) (organizationId : ℕ)
  | findHolders (change : RoleChange)
  | touchHolders (change : RoleChange) (holders : List ℕ)
  | commit (change : RoleChange) (bumped : Bumped)
deriving DecidableEq

inductive AccessPc
  | organization (pc : OrganizationPc)
  /-- `removeMember` takes the organization from the sessions of the user. -/
  | unpin (input : RemoveMember) (deletedAt : ℕ)
  /-- `deleteAccount` revokes the sessions of the user. -/
  | revokeSessions (input : DeleteAccount) (deletedAt : ℕ) (locked : List ℕ)
  | deleteUserRoles (input : DeleteAccount) (deletedAt : ℕ) (locked : List ℕ)
  | createSession (input : CreateSession) (expiresAt : ℕ) (pc : LoginPc)
  | switchOrganization (input : SwitchOrganization) (pc : SwitchPc)
  | revokeSession (input : RevokeSession) (pc : LogoutPc)
  | backfill (input : Backfill) (pc : BackfillPc)
  | createRole (input : CreateRole) (pc : CreateRolePc)
  | assignRole (input : AssignRole) (pc : AssignPc)
  | revokeRole (input : RevokeRole) (pc : RevokeRolePc)
  | updateRole (input : UpdateRolePermissions) (pc : UpdateRolePc)
  | guarded (input : GuardedRequest) (pc : RequestPc)
  | returned (result : AccessResult)
  | thrown (error : Thrown)
deriving DecidableEq

/-- Where a call goes on, or what it throws. -/
abbrev AccessNext := Option (Except Thrown AccessPc)

/-- After an `update` of one row. -/
def requiredRow (n : ℕ) (pc : AccessPc) : Except Thrown AccessPc :=
  if n = 0 then .error missing else .ok pc

/-- The update of the user's `permissionEpoch`. -/
def touchPermissionEpoch (userId : ℕ) : AccessUpdate (.inl .user) where
  cond (id : ℕ) (user : User) := id = userId ∧ user.live
  data (user : User) := { user with permissionEpoch := user.permissionEpoch + 1 }

/-! ### The calls on organizations -/

/-- The roles as a query finds them. -/
def rolesIn (rows : AccessRows) (keys : List AccessKey) : Roles where
  rows := (findMany rows keys (.inr .role) fun _ _ => true).map fun found =>
    ⟨found.1, found.2.organizationId, found.2.name, found.2.deletedAt⟩
  ids := List.pairwise_map.mpr findMany_ids

def noRoles : Roles := ⟨[], .nil⟩

def rolesOf (keys : List AccessKey) : Reply AccessRowOf → Roles
  | .rows rows => rolesIn rows keys
  | _ => noRoles

def AccessConfig.organizations (cfg : AccessConfig) (roles : Roles) : OrganizationConfig where
  R := cfg.R
  K := cfg.K
  roles := roles
  multi := cfg.mode = .multi
  rows := partRows cfg.rows
  keys := partKeys cfg.keys
  listed k hk := mem_partKeys.mpr (cfg.listed (first k) hk)

/-- Where a call on organizations goes on: first with the statements that it has besides. -/
def enter : OrganizationPc → AccessPc
  | .remove input (.touchUser deletedAt) => .unpin input deletedAt
  | .delete input (.updateMemberships deletedAt locked) => .revokeSessions input deletedAt locked
  | .returned result => .returned (.organization result)
  | .thrown error => .thrown error
  | pc => .organization pc

def enterNext (cfg : AccessConfig) (site : Site AccessKey) (pc : OrganizationPc)
    (reply : Reply AccessRowOf) : AccessNext :=
  (organizationNext (cfg.organizations (rolesOf site.keys reply)) (partSite site) pc
    (partReply reply)).map fun next => next.map enter

def unpinSessions (input : RemoveMember) : AccessUpdate (.inr .session) where
  cond _ (session : Session) := session.userId = input.userId ∧
    session.activeOrganizationId = some input.organizationId ∧ session.live
  data (session : Session) := { session with activeOrganizationId := none }

def revokeSessions (userId revokedAt : ℕ) : AccessUpdate (.inr .session) where
  cond _ (session : Session) := session.userId = userId ∧ session.revokedAt = none ∧ session.live
  data (session : Session) := { session with revokedAt := some revokedAt }

def deleteUserRoles (userId : ℕ) : Removal TableId TableRow (.inr .userRole) where
  cond (id : ℕ × ℕ) (row : UserRole) := id.1 = userId ∧ row.live

/-! ### `createSession` -/

/-- A member who was removed becomes active again, with the role of the row. -/
def Joining.membership (joining : Joining) : Upsert TableId TableRow (.inl .membership) where
  id := (joining.organizationId, joining.userId)
  row := ({ roleId := joining.roleId, joinedAt := some joining.joinedAt } : Membership)
  data (membership : Membership) := { membership with status := .active, deletedAt := none }

def CreateSession.session (input : CreateSession) (expiresAt : ℕ) (organizationId : Option ℕ) :
    Session where
  userId := input.userId
  activeOrganizationId := organizationId
  expiresAt := expiresAt

/-- `lastLoginAt` is left out. -/
def touchLogin (userId : ℕ) : AccessUpdate (.inl .user) where
  cond (id : ℕ) (user : User) := id = userId ∧ user.live
  data (user : User) := user

def loginStmt (input : CreateSession) (expiresAt : ℕ) : LoginPc → AccessStmt
  | .findOrganization | .findRole _ | .findMembership => .read
  | .insertOrganization =>
    .insert (organizationKey input.organizationId)
      ({ slug := DEFAULT_ORGANIZATION_SLUG } : Organization)
  | .updateMembership joining => joining.membership.update.stmt
  | .insertMembership joining =>
    .insert ⟨.inl .membership, joining.membership.id⟩ joining.membership.row
  | .insertSession initial =>
    .insert (sessionKey input.id) (input.session expiresAt initial.organizationId)
  | .touchUser _ => (touchLogin input.userId).stmt
  | .commit _ => .commit

/-- The global role `member`, or the error without it; `pick` says which one the database returns, if
there are several. -/
def findMemberRole (site : Site AccessKey) (rows : AccessRows) (missing : String) :
    Option (Except Thrown ℕ) :=
  (pickFirst (findMany rows site.keys (.inr .role) fun _ (role : RoleRow) =>
      role.name = "member" ∧ role.organizationId = none ∧ role.live) site.pick).map fun
    | none => .error (.error missing)
    | some (id, _) => .ok id

/-- The error of `findGlobalRoleId`. -/
def systemRoleMissing (name : String) : String :=
  "System role \"" ++ name ++ "\" is missing. Run `npm run db:seed` before enabling TENANCY_MODE."

/-- The organization with the slug, whether it is deleted or not. -/
def findOrganization (site : Site AccessKey) (rows : AccessRows) (slug : String) :
    Option (ℕ × Organization) :=
  (findMany rows site.keys (.inl .organization) fun _ (organization : Organization) =>
    organization.slug = slug).head?

/-- In multi-tenant mode, `pick` says which membership is the earliest. -/
def loginNext (site : Site AccessKey) (input : CreateSession) (expiresAt : ℕ) :
    LoginPc → Reply AccessRowOf → AccessNext
  | .findOrganization, .rows rows =>
    some (.ok (.createSession input expiresAt (
      match findOrganization site rows DEFAULT_ORGANIZATION_SLUG with
      | some (id, _) => .findRole id
      | none => .insertOrganization)))
  | .insertOrganization, .done =>
    some (.ok (.createSession input expiresAt (.findRole input.organizationId)))
  | .findRole organizationId, .rows rows =>
    (findMemberRole site rows (systemRoleMissing "member")).map fun found => found.map fun roleId =>
      .createSession input expiresAt
        (.updateMembership ⟨organizationId, roleId, input.userId, site.now⟩)
  | .updateMembership joining, .count n =>
    some (.ok (.createSession input expiresAt (
      if n ≠ 0 then .insertSession (.joined joining)
      else if site.pick = 0 then .insertMembership joining
      else .updateMembership joining)))
  | .insertMembership joining, .done =>
    some (.ok (.createSession input expiresAt (.insertSession (.joined joining))))
  | .findMembership, .rows rows =>
    (pickFirst (findMany rows site.keys (.inl .membership) fun (id : ℕ × ℕ) (row : Membership) =>
        id.2 = input.userId ∧ activeMember row) site.pick).map fun found =>
      .ok (.createSession input expiresAt (.insertSession (
        match found with
        | none => .none
        | some (id, _) => .member id.1)))
  | .insertSession initial, .done =>
    some (.ok (.createSession input expiresAt (.touchUser initial)))
  | .touchUser initial, .count n =>
    some (requiredRow n (.createSession input expiresAt (.commit initial)))
  | .commit _, .done => some (.ok (.returned (.session input.id)))
  | _, _ => none

/-! ### `switchOrganization` and `revokeSession` -/

def SwitchOrganization.update (input : SwitchOrganization) : AccessUpdate (.inr .session) where
  cond (id : ℕ) (session : Session) := id = input.sessionId ∧ session.userId = input.userId ∧
    session.revokedAt = none ∧ session.live
  data (session : Session) := { session with activeOrganizationId := some input.organizationId }

def switchStmt (input : SwitchOrganization) : SwitchPc → AccessStmt
  | .findMembership | .findOrganization => .read
  | .updateSession => input.update.stmt
  | .commit => .commit

def switchNext (input : SwitchOrganization) : SwitchPc → Reply AccessRowOf → AccessNext
  | .findMembership, .rows rows =>
    some (
      if (rows (membershipKey input.organizationId input.userId)).any activeMember ∧
          (rows (organizationKey input.organizationId)).any Organization.active then
        .ok (.switchOrganization input .updateSession)
      else .error (.app (forbidden "You are not an active member of that organization")))
  | .updateSession, .count n =>
    some (if n = 0 then .error unauthenticatedError
      else .ok (.switchOrganization input .findOrganization))
  | .findOrganization, .rows rows =>
    some (
      if (rows (organizationKey input.organizationId)).any fun o => o.deletedAt = none then
        .ok (.switchOrganization input .commit)
      else .error missing)
  | .commit, .done => some (.ok (.returned (.switched input.organizationId)))
  | _, _ => none

def RevokeSession.update (input : RevokeSession) (revokedAt : ℕ) : AccessUpdate (.inr .session) where
  cond (id : ℕ) (session : Session) := id = input.sessionId ∧ session.userId = input.userId ∧
    session.revokedAt = none ∧ session.live
  data (session : Session) := { session with revokedAt := some revokedAt }

def logoutStmt (input : RevokeSession) : LogoutPc → AccessStmt
  | .updateSession revokedAt => (input.update revokedAt).stmt
  | .commit => .commit

def logoutNext (input : RevokeSession) : LogoutPc → Reply AccessRowOf → AccessNext
  | .updateSession _, .count _ => some (.ok (.revokeSession input .commit))
  | .commit, .done => some (.ok (.returned .void))
  | _, _ => none

/-! ### `tenancy-backfill.ts` -/

def Backfill.pinSessions (organizationId : ℕ) : AccessUpdate (.inr .session) where
  cond _ (session : Session) := session.activeOrganizationId = none ∧ session.live
  data (session : Session) := { session with activeOrganizationId := some organizationId }

def backfillStmt (input : Backfill) : BackfillPc → AccessStmt
  | .findOrganization | .findRole _ | .findUsers .. => .read
  | .insertOrganization =>
    .insert (organizationKey (input.organizationId.getD input.newId))
      ({ slug := input.slug } : Organization)
  | .updateMembership joining _ => joining.membership.update.stmt
  | .insertMembership joining _ =>
    .insert ⟨.inl .membership, joining.membership.id⟩ joining.membership.row
  | .updateSessions organizationId _ => (Backfill.pinSessions organizationId).stmt
  | .commit .. => .commit

def BackfillPc.joinNext (organizationId roleId now : ℕ) : List ℕ → BackfillPc
  | [] => .updateSessions organizationId roleId
  | userId :: rest => .updateMembership ⟨organizationId, roleId, userId, now⟩ rest

def backfillNext (site : Site AccessKey) (input : Backfill) :
    BackfillPc → Reply AccessRowOf → AccessNext
  | .findOrganization, .rows rows =>
    some (.ok (.backfill input (
      match input.organizationId with
      | some id => if (rows (organizationKey id)).isSome then .findRole id else .insertOrganization
      | none =>
        match findOrganization site rows input.slug with
        | some (id, _) => .findRole id
        | none => .insertOrganization)))
  | .insertOrganization, .done =>
    some (.ok (.backfill input (.findRole (input.organizationId.getD input.newId))))
  | .findRole organizationId, .rows rows =>
    (findMemberRole site rows "Global member role is missing; run npm run db:seed first").map
      fun found => found.map fun roleId =>
      .backfill input (.findUsers organizationId roleId)
  | .findUsers organizationId roleId, .rows rows =>
    some (.ok (.backfill input (.joinNext organizationId roleId site.now
      ((findMany rows site.keys (.inl .user) fun _ (user : User) => user.live).map (·.1)))))
  | .updateMembership joining rest, .count n =>
    some (.ok (.backfill input (
      if n ≠ 0 then .joinNext joining.organizationId joining.roleId site.now rest
      else if site.pick = 0 then .insertMembership joining rest
      else .updateMembership joining rest)))
  | .insertMembership joining rest, .done =>
    some (.ok (.backfill input (.joinNext joining.organizationId joining.roleId site.now rest)))
  | .updateSessions organizationId roleId, .count _ =>
    some (.ok (.backfill input (.commit organizationId roleId)))
  | .commit .., .done => some (.ok (.returned .void))
  | _, _ => none

/-! ### `createRole` -/

def createRoleStmt (input : CreateRole) : CreateRolePc → AccessStmt
  | .insertRole => .insert (roleKey input.id) ({ name := input.name } : RoleRow)
  | .insertPermission code _ => .insert (rolePermissionKey input.id code) ({} : RolePermission)
  | .commit => .commit

/-- `connect` finds the permission by its code. -/
def CreateRolePc.connectNext (cfg : AccessConfig) : List String → Except Thrown CreateRolePc
  | [] => .ok .commit
  | code :: rest =>
    if cfg.permissions.any (·.code = code) then .ok (.insertPermission code rest) else .error missing

def createRoleNext (cfg : AccessConfig) (input : CreateRole) :
    CreateRolePc → Reply AccessRowOf → AccessNext
  | .insertRole, .done =>
    some ((CreateRolePc.connectNext cfg input.permissions).map (.createRole input))
  | .insertPermission _ rest, .done =>
    some ((CreateRolePc.connectNext cfg rest).map (.createRole input))
  | .commit, .done => some (.ok (.returned (.role input.id)))
  | _, _ => none

/-! ### `assignRole` and `revokeRole` -/

def AssignRole.userRole (input : AssignRole) : Upsert TableId TableRow (.inr .userRole) where
  id := (input.userId, input.roleId)
  row := ({} : UserRole)
  data (row : UserRole) := { row with deletedAt := none }

def assignStmt (input : AssignRole) : AssignPc → AccessStmt
  | .findRole => .read
  | .updateUserRole => input.userRole.update.stmt
  | .insertUserRole => .insert ⟨.inr .userRole, input.userRole.id⟩ input.userRole.row
  | .touchUser => (touchPermissionEpoch input.userId).stmt
  | .commit => .commit

def assignNext (site : Site AccessKey) (input : AssignRole) : AssignPc → Reply AccessRowOf → AccessNext
  | .findRole, .rows rows =>
    some (
      if globalRole rows input.roleId then .ok (.assignRole input .updateUserRole)
      else .error (.app (badRequest
        "Platform role assignment requires a global role; organization roles belong on memberships")))
  | .updateUserRole, .count n =>
    some (.ok (.assignRole input (
      if n ≠ 0 then .touchUser
      else if site.pick = 0 then .insertUserRole
      else .updateUserRole)))
  | .insertUserRole, .done => some (.ok (.assignRole input .touchUser))
  | .touchUser, .count n => some (requiredRow n (.assignRole input .commit))
  | .commit, .done => some (.ok (.returned .assigned))
  | _, _ => none

def RevokeRole.update (input : RevokeRole) (deletedAt : ℕ) : AccessUpdate (.inr .userRole) where
  cond (id : ℕ × ℕ) (row : UserRole) := id = (input.userId, input.roleId) ∧ row.live
  data (row : UserRole) := { row with deletedAt := some deletedAt }

def revokeRoleStmt (input : RevokeRole) : RevokeRolePc → AccessStmt
  | .update deletedAt => (input.update deletedAt).stmt
  | .touchUser => (touchPermissionEpoch input.userId).stmt
  | .commit _ => .commit

def revokeRoleNext (input : RevokeRole) : RevokeRolePc → Reply AccessRowOf → AccessNext
  | .update _, .count n =>
    some (.ok (.revokeRole input (if n = 0 then .commit false else .touchUser)))
  | .touchUser, .count n => some (requiredRow n (.revokeRole input (.commit true)))
  | .commit revoked, .done => some (.ok (.returned (.revoked revoked)))
  | _, _ => none

/-! ### `updateRolePermissions` -/

def UpdateRolePermissions.remove (input : UpdateRolePermissions) (change : RoleChange)
    (deletedAt : ℕ) : AccessUpdate (.inr .rolePermission) where
  cond (id : ℕ × String) (row : RolePermission) :=
    id.1 = input.roleId ∧ id.2 ∈ change.toRemove ∧ row.live
  data (row : RolePermission) := { row with deletedAt := some deletedAt }

def UpdateRolePermissions.rolePermission (input : UpdateRolePermissions) (code : String) :
    Upsert TableId TableRow (.inr .rolePermission) where
  id := (input.roleId, code)
  row := ({} : RolePermission)
  data (row : RolePermission) := { row with deletedAt := none }

def touchOrganization (organizationId : ℕ) : AccessUpdate (.inl .organization) where
  cond (id : ℕ) (organization : Organization) :=
    id = organizationId ∧ organization.deletedAt = none
  data (organization : Organization) :=
    { organization with permissionEpoch := organization.permissionEpoch + 1 }

/-- The update of `bumpPermissionEpochForRoleHolders`. -/
def touchHolders (holders : List ℕ) : AccessUpdate (.inl .user) where
  cond (id : ℕ) (user : User) := id ∈ holders ∧ user.live
  data (user : User) := { user with permissionEpoch := user.permissionEpoch + 1 }

/-- The users of `bumpPermissionEpochForRoleHolders`. -/
def roleHolders (rows : AccessRows) (keys : List AccessKey) (roleId : ℕ) : List ℕ :=
  (findMany rows keys (.inr .userRole) fun (id : ℕ × ℕ) (row : UserRole) =>
    id.2 = roleId ∧ row.live).map fun found => found.1.1

def currentCodes (rows : AccessRows) (keys : List AccessKey) (roleId : ℕ) : List String :=
  (findMany rows keys (.inr .rolePermission) fun (id : ℕ × String) (row : RolePermission) =>
    id.1 = roleId ∧ row.live).map fun found => found.1.2

def updateRoleStmt (input : UpdateRolePermissions) : UpdateRolePc → AccessStmt
  | .findRole | .findCurrent _ | .findHolders _ => .read
  | .remove change deletedAt _ => (input.remove change deletedAt).stmt
  | .updatePermission _ code _ => (input.rolePermission code).update.stmt
  | .insertPermission _ code _ =>
    .insert ⟨.inr .rolePermission, (input.rolePermission code).id⟩ (input.rolePermission code).row
  | .touchOrganization _ organizationId => (touchOrganization organizationId).stmt
  | .touchHolders _ holders => (touchHolders holders).stmt
  | .commit .. => .commit

/-- The next code to add, and then the epochs. -/
def UpdateRolePc.addNext (change : RoleChange) : List String → UpdateRolePc
  | code :: rest => .updatePermission change code rest
  | [] =>
    match change.role.organizationId with
    | some organizationId => .touchOrganization change organizationId
    | none => .findHolders change

def unknownCodes (codes : List String) : Thrown :=
  .app (badRequest ("Unknown permission codes: " ++ String.intercalate ", " codes))

def updateRoleNext (cfg : AccessConfig) (site : Site AccessKey) (input : UpdateRolePermissions) :
    UpdateRolePc → Reply AccessRowOf → AccessNext
  | .findRole, .rows rows =>
    some (
      match (rows (roleKey input.roleId)).filter RoleRow.live with
      | none => .error (.app (notFound "Role not found"))
      | some role =>
        let missing := input.permissionCodes.eraseDups.filter fun code => !cfg.liveCode code
        if missing ≠ [] then .error (unknownCodes missing)
        else .ok (.updateRole input (.findCurrent role)))
  | .findCurrent role, .rows rows =>
    let current := currentCodes rows site.keys input.roleId
    let desired := input.permissionCodes.eraseDups
    let change : RoleChange := ⟨role, current.filter (· ∉ desired)⟩
    let toAdd := desired.filter (· ∉ current)
    some (.ok (.updateRole input (
      if change.toRemove ≠ [] then .remove change site.now toAdd else .addNext change toAdd)))
  | .remove change _ toAdd, .count _ => some (.ok (.updateRole input (.addNext change toAdd)))
  | .updatePermission change code rest, .count n =>
    some (.ok (.updateRole input (
      if n ≠ 0 then .addNext change rest
      else if site.pick = 0 then .insertPermission change code rest
      else .updatePermission change code rest)))
  | .insertPermission change _ rest, .done =>
    some (.ok (.updateRole input (.addNext change rest)))
  | .touchOrganization change organizationId, .count n =>
    some (requiredRow n (.updateRole input (.commit change (.organization organizationId))))
  | .findHolders change, .rows rows =>
    some (.ok (.updateRole input
      (.touchHolders change (roleHolders rows site.keys input.roleId))))
  | .touchHolders change holders, .count _ =>
    some (.ok (.updateRole input (.commit change (.holders holders))))
  | .commit .., .done => some (.ok (.returned (.role input.roleId)))
  | _, _ => none

/-! ### The service -/

def accessStmt (cfg : AccessConfig) : AccessPc → Option AccessStmt
  | .organization pc => (organizationStmt (cfg.organizations noRoles) pc).map liftStmt
  | .unpin input _ => some (unpinSessions input).stmt
  | .revokeSessions input deletedAt _ => some (revokeSessions input.userId deletedAt).stmt
  | .deleteUserRoles input _ _ => some (deleteUserRoles input.userId).stmt
  | .createSession input expiresAt pc => some (loginStmt input expiresAt pc)
  | .switchOrganization input pc => some (switchStmt input pc)
  | .revokeSession input pc => some (logoutStmt input pc)
  | .backfill input pc => some (backfillStmt input pc)
  | .createRole input pc => some (createRoleStmt input pc)
  | .assignRole input pc => some (assignStmt input pc)
  | .revokeRole input pc => some (revokeRoleStmt input pc)
  | .updateRole input pc => some (updateRoleStmt input pc)
  | .guarded _ pc => requestStmt pc
  | .returned _ | .thrown _ => none

def accessNext (cfg : AccessConfig) (site : Site AccessKey) : AccessPc → Reply AccessRowOf → AccessNext
  | .organization pc, reply => enterNext cfg site pc reply
  | .unpin input deletedAt, .count _ =>
    some (.ok (.organization (.remove input (.touchUser deletedAt))))
  | .revokeSessions input deletedAt locked, .count _ =>
    some (.ok (.deleteUserRoles input deletedAt locked))
  | .deleteUserRoles input deletedAt locked, .count _ =>
    some (.ok (.organization (.delete input (.updateMemberships deletedAt locked))))
  | .createSession input expiresAt pc, reply => loginNext site input expiresAt pc reply
  | .switchOrganization input pc, reply => switchNext input pc reply
  | .revokeSession input pc, reply => logoutNext input pc reply
  | .backfill input pc, reply => backfillNext site input pc reply
  | .createRole input pc, reply => createRoleNext cfg input pc reply
  | .assignRole input pc, reply => assignNext site input pc reply
  | .revokeRole input pc, reply => revokeRoleNext input pc reply
  | .updateRole input pc, reply => updateRoleNext cfg site input pc reply
  | .guarded input pc, reply =>
    (requestNext cfg site input pc reply).map fun next => next.map (.guarded input)
  | _, _ => none

def accessOutside (site : Site AccessKey) (cache : PermissionCache) :
    AccessPc → Option (PermissionCache × AccessPc)
  | .guarded input pc =>
    (requestOutside site.pick cache input pc).map fun r => (r.1, .guarded input r.2)
  | _ => none

/-- The start of `createSession` in each tenancy mode. -/
def LoginPc.start : TenancyMode → LoginPc
  | .disabled => .insertSession .none
  | .single => .findOrganization
  | .multi => .findMembership

def accessStart (cfg : AccessConfig) (now : ℕ) : AccessRequest → AccessPc
  | .organization request => enter (startPc (cfg.organizations noRoles) now request)
  | .createSession input =>
    .createSession input (now + cfg.ttl.days * (24 * 60 * 60 * 1000)) (.start cfg.mode)
  | .switchOrganization input => .switchOrganization input .findMembership
  | .revokeSession input => .revokeSession input (.updateSession now)
  | .backfill input =>
    if cfg.mode = .disabled then .backfill input .findOrganization
    else .thrown (.error
      "Run the backfill while TENANCY_MODE=disabled and application writers are stopped")
  | .createRole input => .createRole input .insertRole
  | .assignRole input => .assignRole input .findRole
  | .revokeRole input => .revokeRole input (.update now)
  | .updateRolePermissions input => .updateRole input .findRole
  | .guarded input => .guarded input .findSession

/-- **The requests and the calls.** An entry of the cache may go at any time. -/
def access (cfg : AccessConfig) :
    Service AccessRowOf AccessPc AccessRequest PermissionCache CacheKey Thrown where
  rows := cfg.rows
  keys := cfg.keys
  memory _ := none
  start now request := accessStart cfg now request
  stmt := accessStmt cfg
  next := accessNext cfg
  outside := accessOutside
  record _ _ cache := cache
  thrown := .thrown
  errors := ⟨.prisma "P2002" "Unique constraint failed", .prisma "P2034" "Write conflict"⟩
  event cache key := some (Function.update cache key none)

abbrev AccessWorld := ServiceWorld AccessRowOf AccessPc PermissionCache

abbrev AccessLabel := ServiceLabel AccessRequest CacheKey Thrown

end BackendFoundation.Access.Model
