import BackendFoundation.Auth.SessionModel
import BackendFoundation.Lib.Logs
import BackendFoundation.Lib.Rows
import BackendFoundation.Lib.Schema
import Mathlib.Data.List.Sort

/-! # Organizations and their members

`createOrganization`, `changeMemberRole`, `removeMember`, `createInvitation`, `acceptInvitation` and
`revokeInvitation` of `organizations.service.ts`, and `deleteAccount` of `auth.account.service.ts`.
Each is one read-committed transaction, a statement or a row of a statement a step, with the
statements on organizations, users, memberships and invitations; a statement may fail for any
reason. Nothing changes or deletes a role: the roles are a parameter. -/

namespace BackendFoundation.Organizations.Model

open Lib.Database Lib.Interleave Lib.Transact Lib.Schema Lib.Services Lib.Rows Errors Crypto
open Auth.SessionModel (UserStatus)

/-! ### Rows -/

structure Role where
  id : ℕ
  organizationId : Option ℕ
  name : String
  deletedAt : Option ℕ := none
deriving DecidableEq

structure Roles where
  rows : List Role
  ids : rows.Pairwise (·.id ≠ ·.id)

inductive OrganizationStatus
  | active | suspended
deriving DecidableEq

structure Organization where
  slug : String
  status : OrganizationStatus := .active
  permissionEpoch : ℕ := 0
  deletedAt : Option ℕ := none
deriving DecidableEq

structure User where
  email : Option String
  emailVerifiedAt : Option ℕ := none
  passwordHash : Option SecretHash := none
  status : UserStatus := .active
  permissionEpoch : ℕ := 0
  deletedAt : Option ℕ := none
deriving DecidableEq

inductive MembershipStatus
  | invited | active | suspended
deriving DecidableEq

structure Membership where
  roleId : ℕ
  status : MembershipStatus := .active
  joinedAt : Option ℕ := none
  deletedAt : Option ℕ := none
deriving DecidableEq

structure Invitation where
  organizationId : ℕ
  email : String
  roleId : ℕ
  tokenHash : MetadataHash
  expiresAt : ℕ
  acceptedAt : Option ℕ := none
  revokedAt : Option ℕ := none
  deletedAt : Option ℕ := none
deriving DecidableEq

inductive Relation
  | organization | user | membership | invitation
  /-- The advisory locks `organization-owners:`. -/
  | owners
deriving DecidableEq

/-- A membership has an organization and a user. -/
abbrev Id : Relation → Type
  | .membership => ℕ × ℕ
  | .organization | .user | .invitation | .owners => ℕ

abbrev Row : Relation → Type
  | .organization => Organization
  | .user => User
  | .membership => Membership
  | .invitation => Invitation
  | .owners => Empty

instance : ∀ t, DecidableEq (Id t)
  | .membership => inferInstanceAs (DecidableEq (ℕ × ℕ))
  | .organization | .user | .invitation | .owners => inferInstanceAs (DecidableEq ℕ)

instance : ∀ t, DecidableEq (Row t)
  | .organization => inferInstanceAs (DecidableEq Organization)
  | .user => inferInstanceAs (DecidableEq User)
  | .membership => inferInstanceAs (DecidableEq Membership)
  | .invitation => inferInstanceAs (DecidableEq Invitation)
  | .owners => inferInstanceAs (DecidableEq Empty)

abbrev OrganizationKey := Key Id

abbrev OrganizationRow := RowOf Id Row

abbrev OrganizationRows := Lib.Database.Rows OrganizationRow

abbrev OrganizationStmt := Stmt OrganizationRow

abbrev OrganizationUpdate (t : Relation) := Update Id Row t

def User.live (user : User) : Bool := user.deletedAt = none

def User.active (user : User) : Bool := user.status = .active ∧ user.live

def Organization.active (organization : Organization) : Bool :=
  organization.status = .active ∧ organization.deletedAt = none

def Membership.live (membership : Membership) : Bool := membership.deletedAt = none

/-! ### Roles and owners -/

def Roles.role (roles : Roles) (id : ℕ) : Option Role := roles.rows.find? (·.id = id)

def assertAssignableRole (roles : Roles) (roleId organizationId : ℕ) : Except Thrown Role :=
  match roles.rows.find? fun role => role.id = roleId ∧ role.deletedAt = none ∧
      (role.organizationId = none ∨ role.organizationId = some organizationId) with
  | some role => .ok role
  | none => .error (.app (badRequest "Role is not assignable in this organization"))

def findGlobalRoleId (roles : Roles) (name : String) : Except Thrown ℕ :=
  match roles.rows.find? fun role => role.name = name ∧ role.organizationId = none ∧
      role.deletedAt = none with
  | some role => .ok role.id
  | none => .error (.error ("System role \"" ++ name ++
      "\" is missing. Run `npm run db:seed` before enabling TENANCY_MODE."))

def ownerRole (roles : Roles) (roleId : ℕ) : Bool :=
  (roles.role roleId).any fun role => role.name = "owner"

/-- The condition of `countActiveOwners` on a membership. -/
def activeOwner (roles : Roles) (membership : Membership) : Bool :=
  membership.status = .active ∧ membership.live ∧
    (roles.role membership.roleId).any fun role => role.name = "owner" ∧ role.deletedAt = none

def countActiveOwners (roles : Roles) (rows : OrganizationRows) (keys : List OrganizationKey)
    (organizationId : ℕ) : ℕ :=
  (findMany rows keys .membership fun id membership =>
    id.1 = organizationId ∧ activeOwner roles membership).length

/-- `tx.membership.findFirst` of a member that is not deleted. -/
def findMembership (rows : OrganizationRows) (organizationId userId : ℕ) : Option Membership :=
  (rows ⟨.membership, (organizationId, userId)⟩).filter Membership.live

/-! ### Calls -/

structure OrganizationConfig where
  R : Runtime
  K : Keyring
  roles : Roles
  /-- `TENANCY_MODE` is `multi`. -/
  multi : Bool
  /-- What there is before the calls. -/
  rows : OrganizationRows
  keys : List OrganizationKey
  listed : ∀ k, rows k ≠ none → k ∈ keys

structure CreateOrganization where
  /-- The id that the database gives. -/
  id : ℕ
  /-- As given, or made from the name. -/
  slug : String
  actorUserId : ℕ
deriving DecidableEq

structure ChangeMemberRole where
  organizationId : ℕ
  userId : ℕ
  roleId : ℕ
deriving DecidableEq

structure RemoveMember where
  organizationId : ℕ
  userId : ℕ
deriving DecidableEq

structure CreateInvitation where
  /-- The id that the database gives. -/
  id : ℕ
  organizationId : ℕ
  email : String
  roleId : ℕ
  token : String
deriving DecidableEq

structure AcceptInvitation where
  rawToken : String
  userId : ℕ
deriving DecidableEq

structure RevokeInvitation where
  organizationId : ℕ
  invitationId : ℕ
deriving DecidableEq

structure DeleteAccount where
  userId : ℕ
  password : Option String := none
  /-- A social identity is given, and is one of the user. -/
  socialReauth : Bool := false
deriving DecidableEq

inductive OrganizationRequest
  | createOrganization (input : CreateOrganization)
  | changeMemberRole (input : ChangeMemberRole)
  | removeMember (input : RemoveMember)
  | createInvitation (input : CreateInvitation)
  | acceptInvitation (input : AcceptInvitation)
  | revokeInvitation (input : RevokeInvitation)
  | deleteAccount (input : DeleteAccount)
deriving DecidableEq

inductive OrganizationResult
  | organization (id : ℕ)
  | membership
  | void
  | invitation (id : ℕ) (token : String)
  | deleted (deleted : Bool)
deriving DecidableEq

inductive CreatePc
  | findSlug
  | insertOrganization
  | findOwnerRole
  | insertMembership (roleId joinedAt : ℕ)
  | touchUser (roleId joinedAt : ℕ)
  | commit (roleId joinedAt : ℕ)
deriving DecidableEq

inductive ChangePc
  | lock
  | findRole
  | findTarget (newRole : Role)
  | countOwners
  | update
  | touchUser
  | findChanged
  | commit
deriving DecidableEq

inductive RemovePc
  | lock
  | findTarget
  | countOwners
  | update (deletedAt : ℕ)
  | touchUser (deletedAt : ℕ)
  | commit (deletedAt : ℕ)
deriving DecidableEq

inductive InvitePc
  | findRole
  | findOrganization
  | insert (expiresAt : ℕ)
  | commit (expiresAt : ℕ)
deriving DecidableEq

/-- The membership that an invitation gives to the user who accepts it. -/
structure Accepting where
  invitationId : ℕ
  organizationId : ℕ
  roleId : ℕ
  userId : ℕ
  joinedAt : ℕ
deriving DecidableEq

inductive AcceptPc
  | findInvitation
  | findUser (id : ℕ) (invitation : Invitation)
  | updateMembership (accepting : Accepting)
  | insertMembership (accepting : Accepting)
  | markAccepted (accepting : Accepting) (acceptedAt : ℕ)
  | touchUser (accepting : Accepting) (acceptedAt : ℕ)
  | findOrganization (accepting : Accepting) (acceptedAt : ℕ)
  | commit (accepting : Accepting) (acceptedAt : ℕ)
deriving DecidableEq

inductive RevokePc
  | update (revokedAt : ℕ)
  | commit (revokedAt : ℕ)
deriving DecidableEq

/-- `deletedAt` is the date that the call takes before its transaction; `locked` are the organizations
whose owners it has counted. -/
inductive DeletePc
  | confirm
  | findOwnerMemberships (deletedAt : ℕ)
  | lockOwners (deletedAt : ℕ) (locked : List ℕ) (organizationId : ℕ) (rest : List ℕ)
  | countOwners (deletedAt : ℕ) (locked : List ℕ) (organizationId : ℕ) (rest : List ℕ)
  | updateUser (deletedAt : ℕ) (locked : List ℕ)
  | updateMemberships (deletedAt : ℕ) (locked : List ℕ)
  | commit (deletedAt : ℕ) (locked : List ℕ)
deriving DecidableEq

inductive OrganizationPc
  | create (input : CreateOrganization) (pc : CreatePc)
  | change (input : ChangeMemberRole) (pc : ChangePc)
  | remove (input : RemoveMember) (pc : RemovePc)
  | invite (input : CreateInvitation) (pc : InvitePc)
  | accept (input : AcceptInvitation) (pc : AcceptPc)
  | revoke (input : RevokeInvitation) (pc : RevokePc)
  | delete (input : DeleteAccount) (pc : DeletePc)
  | returned (result : OrganizationResult)
  | thrown (error : Thrown)
deriving DecidableEq

/-- `update` finds no row. -/
def missing : Thrown := .prisma "P2025" "No record was found for an update."

/-- Where a call goes on, or what it throws. -/
abbrev Next := Option (Except Thrown OrganizationPc)

/-- After an `update` of one row. -/
def required (n : ℕ) (pc : OrganizationPc) : Except Thrown OrganizationPc :=
  if n = 0 then .error missing else .ok pc

/-- The update of the user's `permissionEpoch`. -/
def touchUser (userId : ℕ) : OrganizationUpdate .user where
  cond id user := id = userId ∧ user.live
  data user := { user with permissionEpoch := user.permissionEpoch + 1 }

def ownerConflict : Thrown :=
  .app (conflict "An organization must keep at least one active owner")

/-! ### `createOrganization` -/

def CreateOrganization.organization (input : CreateOrganization) : Organization where
  slug := input.slug

def CreateOrganization.membership (_ : CreateOrganization) (roleId joinedAt : ℕ) :
    Membership where
  roleId := roleId
  joinedAt := some joinedAt

def createStmt (input : CreateOrganization) : CreatePc → OrganizationStmt
  | .findSlug | .findOwnerRole => .read
  | .insertOrganization => .insert ⟨.organization, input.id⟩ input.organization
  | .insertMembership roleId joinedAt =>
    .insert ⟨.membership, (input.id, input.actorUserId)⟩ (input.membership roleId joinedAt)
  | .touchUser _ _ => (touchUser input.actorUserId).stmt
  | .commit _ _ => .commit

def createNext (cfg : OrganizationConfig) (site : Site OrganizationKey) (input : CreateOrganization) :
    CreatePc → Reply OrganizationRow → Next
  | .findSlug, .rows rows =>
    some (
      if findMany rows site.keys .organization (fun _ organization =>
          organization.slug = input.slug ∧ organization.deletedAt = none) ≠ [] then
        .error (.app (conflict "Organization slug is already taken"))
      else .ok (.create input .insertOrganization))
  | .insertOrganization, .done => some (.ok (.create input .findOwnerRole))
  | .findOwnerRole, .rows _ =>
    some ((findGlobalRoleId cfg.roles "owner").map fun roleId =>
      .create input (.insertMembership roleId site.now))
  | .insertMembership roleId joinedAt, .done =>
    some (.ok (.create input (.touchUser roleId joinedAt)))
  | .touchUser roleId joinedAt, .count n => some (required n (.create input (.commit roleId joinedAt)))
  | .commit _ _, .done => some (.ok (.returned (.organization input.id)))
  | _, _ => none

/-! ### `changeMemberRole` -/

def ChangeMemberRole.update (input : ChangeMemberRole) : OrganizationUpdate .membership where
  cond id membership := id = (input.organizationId, input.userId) ∧ membership.live
  data membership := { membership with roleId := input.roleId }

def changeStmt (input : ChangeMemberRole) : ChangePc → OrganizationStmt
  | .lock => .lock ⟨.owners, input.organizationId⟩
  | .findRole | .findTarget _ | .countOwners | .findChanged => .read
  | .update => input.update.stmt
  | .touchUser => (touchUser input.userId).stmt
  | .commit => .commit

def changeNext (roles : Roles) (site : Site OrganizationKey) (input : ChangeMemberRole) :
    ChangePc → Reply OrganizationRow → Next
  | .lock, .done => some (.ok (.change input .findRole))
  | .findRole, .rows _ =>
    some ((assertAssignableRole roles input.roleId input.organizationId).map fun newRole =>
      .change input (.findTarget newRole))
  | .findTarget newRole, .rows rows =>
    some (
      match findMembership rows input.organizationId input.userId with
      | none => .error (.app (notFound "Membership not found"))
      | some target =>
        if target.status = .active ∧ ownerRole roles target.roleId ∧ newRole.name ≠ "owner" then
          .ok (.change input .countOwners)
        else .ok (.change input .update))
  | .countOwners, .rows rows =>
    some (
      if countActiveOwners roles rows site.keys input.organizationId ≤ 1 then .error ownerConflict
      else .ok (.change input .update))
  | .update, .count n =>
    some (if n = 0 then .error (.app (notFound "Membership not found"))
      else .ok (.change input .touchUser))
  | .touchUser, .count n => some (required n (.change input .findChanged))
  | .findChanged, .rows rows =>
    some (if findMembership rows input.organizationId input.userId = none then .error missing
      else .ok (.change input .commit))
  | .commit, .done => some (.ok (.returned .membership))
  | _, _ => none

/-! ### `removeMember` -/

def RemoveMember.update (input : RemoveMember) (deletedAt : ℕ) : OrganizationUpdate .membership where
  cond id membership := id = (input.organizationId, input.userId) ∧ membership.live
  data membership := { membership with deletedAt := some deletedAt, status := .suspended }

def removeStmt (input : RemoveMember) : RemovePc → OrganizationStmt
  | .lock => .lock ⟨.owners, input.organizationId⟩
  | .findTarget | .countOwners => .read
  | .update deletedAt => (input.update deletedAt).stmt
  | .touchUser _ => (touchUser input.userId).stmt
  | .commit _ => .commit

def removeNext (roles : Roles) (site : Site OrganizationKey) (input : RemoveMember) :
    RemovePc → Reply OrganizationRow → Next
  | .lock, .done => some (.ok (.remove input .findTarget))
  | .findTarget, .rows rows =>
    some (
      match findMembership rows input.organizationId input.userId with
      | none => .error (.app (notFound "Membership not found"))
      | some target =>
        if target.status = .active ∧ ownerRole roles target.roleId then
          .ok (.remove input .countOwners)
        else .ok (.remove input (.update site.now)))
  | .countOwners, .rows rows =>
    some (
      if countActiveOwners roles rows site.keys input.organizationId ≤ 1 then .error ownerConflict
      else .ok (.remove input (.update site.now)))
  | .update deletedAt, .count n => some (required n (.remove input (.touchUser deletedAt)))
  | .touchUser deletedAt, .count n => some (required n (.remove input (.commit deletedAt)))
  | .commit _, .done => some (.ok (.returned .void))
  | _, _ => none

/-! ### `createInvitation` -/

/-- `INVITATION_TTL_MS`. -/
def invitationTtlMs : ℕ := 7 * 24 * 60 * 60 * 1000

def CreateInvitation.invitation (cfg : OrganizationConfig) (input : CreateInvitation)
    (expiresAt : ℕ) : Invitation where
  organizationId := input.organizationId
  email := normalizeEmail cfg.R input.email
  roleId := input.roleId
  tokenHash := hashOpaqueToken cfg.R cfg.K input.token
  expiresAt := expiresAt

def inviteStmt (cfg : OrganizationConfig) (input : CreateInvitation) : InvitePc → OrganizationStmt
  | .findRole | .findOrganization => .read
  | .insert expiresAt => .insert ⟨.invitation, input.id⟩ (input.invitation cfg expiresAt)
  | .commit _ => .commit

def inviteNext (cfg : OrganizationConfig) (site : Site OrganizationKey) (input : CreateInvitation) :
    InvitePc → Reply OrganizationRow → Next
  | .findRole, .rows _ =>
    some ((assertAssignableRole cfg.roles input.roleId input.organizationId).map fun _ =>
      .invite input .findOrganization)
  | .findOrganization, .rows rows =>
    some (
      if (rows ⟨.organization, input.organizationId⟩).any fun o => o.deletedAt = none then
        .ok (.invite input (.insert (site.now + invitationTtlMs)))
      else .error missing)
  | .insert expiresAt, .done => some (.ok (.invite input (.commit expiresAt)))
  | .commit _, .done => some (.ok (.returned (.invitation input.id input.token)))
  | _, _ => none

/-! ### `acceptInvitation` -/

def Accepting.membership (accepting : Accepting) : Upsert Id Row .membership where
  id := (accepting.organizationId, accepting.userId)
  row := { roleId := accepting.roleId, joinedAt := some accepting.joinedAt }
  data membership :=
    { membership with
      roleId := accepting.roleId
      status := .active
      deletedAt := none
      joinedAt := some accepting.joinedAt }

def Accepting.markAccepted (accepting : Accepting) (acceptedAt : ℕ) :
    OrganizationUpdate .invitation where
  cond id invitation := id = accepting.invitationId ∧ invitation.deletedAt = none
  data invitation := { invitation with acceptedAt := some acceptedAt }

def acceptStmt (input : AcceptInvitation) : AcceptPc → OrganizationStmt
  | .findInvitation | .findUser .. | .findOrganization .. => .read
  | .updateMembership accepting => accepting.membership.update.stmt
  | .insertMembership accepting =>
    .insert ⟨.membership, accepting.membership.id⟩ accepting.membership.row
  | .markAccepted accepting acceptedAt => (accepting.markAccepted acceptedAt).stmt
  | .touchUser .. => (touchUser input.userId).stmt
  | .commit .. => .commit

/-- The invitation can be accepted with the token. -/
def Invitation.valid (cfg : OrganizationConfig) (now : ℕ) (rawToken : String)
    (rows : OrganizationRows) (invitation : Invitation) : Bool :=
  invitation.tokenHash ∈ candidateOpaqueTokenHashes cfg.R cfg.K rawToken ∧
    invitation.acceptedAt = none ∧ invitation.revokedAt = none ∧ invitation.deletedAt = none ∧
    now < invitation.expiresAt ∧
    (rows ⟨.organization, invitation.organizationId⟩).any Organization.active

/-- The invitation was issued to the verified address of the user. -/
def Invitation.isFor (cfg : OrganizationConfig) (invitation : Invitation) (user : User) : Bool :=
  user.live ∧ user.emailVerifiedAt ≠ none ∧ user.email.any fun email =>
    email ≠ "" ∧ cfg.R.toLowerCase email = cfg.R.toLowerCase invitation.email

/-- The upsert of the membership is an update, and an insert if there is no row; `pick` is 0 if the
database does not look again for a row that another call inserts meanwhile. -/
def acceptNext (cfg : OrganizationConfig) (site : Site OrganizationKey) (input : AcceptInvitation) :
    AcceptPc → Reply OrganizationRow → Next
  | .findInvitation, .rows rows =>
    (pickFirst (findMany rows site.keys .invitation fun _ invitation =>
        invitation.valid cfg site.now input.rawToken rows) site.pick).map fun
      | none => .error (.app (notFound "Invitation is invalid or has expired"))
      | some (id, invitation) => .ok (.accept input (.findUser id invitation))
  | .findUser id invitation, .rows rows =>
    some (
      if (rows ⟨.user, input.userId⟩).any (invitation.isFor cfg) then
        .ok (.accept input (.updateMembership
          ⟨id, invitation.organizationId, invitation.roleId, input.userId, site.now⟩))
      else .error (.app (forbidden
        "This invitation was issued to a different verified email address")))
  | .updateMembership accepting, .count n =>
    some (.ok (.accept input (
      if n ≠ 0 then .markAccepted accepting site.now
      else if site.pick = 0 then .insertMembership accepting
      else .updateMembership accepting)))
  | .insertMembership accepting, .done =>
    some (.ok (.accept input (.markAccepted accepting site.now)))
  | .markAccepted accepting acceptedAt, .count n =>
    some (required n (.accept input (.touchUser accepting acceptedAt)))
  | .touchUser accepting acceptedAt, .count n =>
    some (required n (.accept input (.findOrganization accepting acceptedAt)))
  | .findOrganization accepting acceptedAt, .rows rows =>
    some (
      if (rows ⟨.organization, accepting.organizationId⟩).any fun o => o.deletedAt = none then
        .ok (.accept input (.commit accepting acceptedAt))
      else .error missing)
  | .commit accepting _, .done => some (.ok (.returned (.organization accepting.organizationId)))
  | _, _ => none

/-! ### `revokeInvitation` -/

def RevokeInvitation.update (input : RevokeInvitation) (revokedAt : ℕ) :
    OrganizationUpdate .invitation where
  cond id invitation := id = input.invitationId ∧ invitation.organizationId = input.organizationId ∧
    invitation.acceptedAt = none ∧ invitation.revokedAt = none ∧ invitation.deletedAt = none
  data invitation := { invitation with revokedAt := some revokedAt }

def revokeStmt (input : RevokeInvitation) : RevokePc → OrganizationStmt
  | .update revokedAt => (input.update revokedAt).stmt
  | .commit _ => .commit

def revokeNext (input : RevokeInvitation) : RevokePc → Reply OrganizationRow → Next
  | .update revokedAt, .count n =>
    some (if n = 0 then .error (.app (notFound "Invitation not found"))
      else .ok (.revoke input (.commit revokedAt)))
  | .commit _, .done => some (.ok (.returned .void))
  | _, _ => none

/-! ### `deleteAccount` -/

def User.erased (deletedAt : ℕ) (user : User) : User :=
  { user with
    email := none
    emailVerifiedAt := none
    passwordHash := none
    status := .disabled
    deletedAt := some deletedAt }

def DeleteAccount.eraseUser (input : DeleteAccount) (deletedAt : ℕ) : OrganizationUpdate .user where
  cond id user := id = input.userId ∧ user.live
  data := User.erased deletedAt

def DeleteAccount.suspend (input : DeleteAccount) (deletedAt : ℕ) :
    OrganizationUpdate .membership where
  cond id membership := id.2 = input.userId ∧ membership.live
  data membership := { membership with status := .suspended, deletedAt := some deletedAt }

/-- A query outside the transaction is a transaction of its own. -/
def deleteStmt (input : DeleteAccount) : DeletePc → OrganizationStmt
  | .confirm | .findOwnerMemberships _ | .countOwners .. => .read
  | .lockOwners _ _ organizationId _ => .lock ⟨.owners, organizationId⟩
  | .updateUser deletedAt _ => (input.eraseUser deletedAt).stmt
  | .updateMemberships deletedAt _ => (input.suspend deletedAt).stmt
  | .commit .. => .commit

/-- The organizations that the user owns, in order. -/
def ownedBy (roles : Roles) (rows : OrganizationRows) (keys : List OrganizationKey) (userId : ℕ) :
    List ℕ :=
  ((findMany rows keys .membership fun id membership =>
    id.2 = userId ∧ activeOwner roles membership).map fun found => found.1.1).insertionSort (· ≤ ·)

def DeletePc.lockNext (deletedAt : ℕ) (locked : List ℕ) : List ℕ → DeletePc
  | [] => .updateUser deletedAt locked
  | organizationId :: rest => .lockOwners deletedAt locked organizationId rest

/-- The password or the social identity is that of the user. -/
def DeleteAccount.confirmed (input : DeleteAccount) (user : User) : Bool :=
  match user.passwordHash with
  | some passwordHash => input.password.any (verifySecret passwordHash)
  | none => input.socialReauth

def deleteNext (roles : Roles) (site : Site OrganizationKey) (input : DeleteAccount) :
    DeletePc → Reply OrganizationRow → Next
  | .confirm, .rows rows =>
    some (.ok (
      if (rows ⟨.user, input.userId⟩).any fun user => user.active ∧ input.confirmed user then
        .delete input (.findOwnerMemberships site.now)
      else .returned (.deleted false)))
  | .findOwnerMemberships deletedAt, .rows rows =>
    some (.ok (.delete input
      (.lockNext deletedAt [] (ownedBy roles rows site.keys input.userId))))
  | .lockOwners deletedAt locked organizationId rest, .done =>
    some (.ok (.delete input (.countOwners deletedAt locked organizationId rest)))
  | .countOwners deletedAt locked organizationId rest, .rows rows =>
    some (
      if countActiveOwners roles rows site.keys organizationId ≤ 1 then
        .error (.app (conflict
          "Transfer ownership or add another owner before deleting this account"))
      else .ok (.delete input (.lockNext deletedAt (organizationId :: locked) rest)))
  | .updateUser deletedAt locked, .count n =>
    some (required n (.delete input (.updateMemberships deletedAt locked)))
  | .updateMemberships deletedAt locked, .count _ =>
    some (.ok (.delete input (.commit deletedAt locked)))
  | .commit .., .done => some (.ok (.returned (.deleted true)))
  | _, _ => none

/-! ### The service -/

def organizationStmt (cfg : OrganizationConfig) : OrganizationPc → Option OrganizationStmt
  | .create input pc => some (createStmt input pc)
  | .change input pc => some (changeStmt input pc)
  | .remove input pc => some (removeStmt input pc)
  | .invite input pc => some (inviteStmt cfg input pc)
  | .accept input pc => some (acceptStmt input pc)
  | .revoke input pc => some (revokeStmt input pc)
  | .delete input pc => some (deleteStmt input pc)
  | .returned _ | .thrown _ => none

def organizationNext (cfg : OrganizationConfig) (site : Site OrganizationKey) :
    OrganizationPc → Reply OrganizationRow → Next
  | .create input pc, reply => createNext cfg site input pc reply
  | .change input pc, reply => changeNext cfg.roles site input pc reply
  | .remove input pc, reply => removeNext cfg.roles site input pc reply
  | .invite input pc, reply => inviteNext cfg site input pc reply
  | .accept input pc, reply => acceptNext cfg site input pc reply
  | .revoke input pc, reply => revokeNext input pc reply
  | .delete input pc, reply => deleteNext cfg.roles site input pc reply
  | .returned _, _ | .thrown _, _ => none

def startPc (cfg : OrganizationConfig) (now : ℕ) : OrganizationRequest → OrganizationPc
  | .createOrganization input =>
    if cfg.multi then .create input .findSlug
    else .thrown (.app (conflict "Organizations can only be created when TENANCY_MODE=multi"))
  | .changeMemberRole input => .change input .lock
  | .removeMember input => .remove input .lock
  | .createInvitation input => .invite input .findRole
  | .acceptInvitation input => .accept input .findInvitation
  | .revokeInvitation input => .revoke input (.update now)
  | .deleteAccount input => .delete input .confirm

/-- The invitations that have been accepted and revoked, one entry for each call. -/
structure Settled where
  accepted : List ℕ := []
  revoked : List ℕ := []
deriving DecidableEq

def Settled.record (settled : Settled) : OrganizationPc → Settled
  | .accept _ (.commit accepting _) =>
    { settled with accepted := accepting.invitationId :: settled.accepted }
  | .revoke input (.commit _) => { settled with revoked := input.invitationId :: settled.revoked }
  | _ => settled

/-- **The calls on organizations.** -/
def organizations (cfg : OrganizationConfig) :
    Service OrganizationRow OrganizationPc OrganizationRequest Settled Empty Thrown where
  rows := cfg.rows
  keys := cfg.keys
  memory := {}
  start now request := startPc cfg now request
  stmt := organizationStmt cfg
  next := organizationNext cfg
  outside _ _ _ := none
  record pc _ settled := settled.record pc
  thrown := .thrown
  errors := ⟨.prisma "P2002" "Unique constraint failed", .prisma "P2034" "Write conflict"⟩
  event _ e := e.elim

abbrev OrganizationWorld := ServiceWorld OrganizationRow OrganizationPc Settled

abbrev OrganizationLabel := ServiceLabel OrganizationRequest Empty Thrown

end BackendFoundation.Organizations.Model
