import BackendFoundation.Chat.Gateway
import BackendFoundation.Lib.Rows

/-! # The organization that a session starts in

`resolveInitialOrganizationId` of `organizations.tenancy.ts` and `createSession` of
`auth.sessions.service.ts`, against `authenticate`. In multi-tenant mode the session starts in the
organization of the user's earliest active membership, whatever the state of that organization;
`authenticate` refuses a session in an organization that is suspended or deleted. So the new session
is accepted exactly if that one organization is active (`login_accepted_iff`), although another
membership of the user may be in an active one (`stranded`).

The rows are those of `authenticate`, with what the choice reads besides. Refresh tokens and audit
events are left out; of the global roles, only whether the member role is there. -/

namespace BackendFoundation.Organizations.Login

open Errors Lib.UuidText Lib.Rows Chat.Gateway

/-! ### Rows -/

structure NamedOrganization where
  organization : Organization
  slug : String

structure DatedMembership where
  membership : Membership
  createdAt : ℤ

/-- The tables before a login, and the time. -/
structure LoginDatabase where
  users : List User := []
  organizations : List NamedOrganization := []
  memberships : List DatedMembership := []
  sessions : List Session := []
  now : ℤ := 0
  /-- The role `member` of no organization is there. -/
  memberRole : Bool := true
  sessions_nodup : (sessions.map (·.id)).Nodup

/-- What `authenticate` reads of the tables, at a time. -/
def LoginDatabase.tables (db : LoginDatabase) (now : ℤ) : Database where
  users := db.users
  organizations := db.organizations.map (·.organization)
  memberships := db.memberships.map (·.membership)
  sessions := db.sessions
  now := now
  sessions_nodup := db.sessions_nodup

/-! ### The choice -/

inductive TenancyMode
  | disabled | single | multi
deriving DecidableEq

def DEFAULT_ORGANIZATION_SLUG : String := "default"

def missingRole (name : String) : Thrown :=
  .error ("System role \"" ++ name ++
    "\" is missing. Run `npm run db:seed` before enabling TENANCY_MODE.")

/-- `{ userId, status: 'ACTIVE', deletedAt: null }`. -/
def DatedMembership.activeFor (userId : Uuid) (row : DatedMembership) : Bool :=
  row.membership.userId = userId ∧ row.membership.status = .active ∧ row.membership.deletedAt = none

/-- The organization that is chosen, and the tables that the choice leaves. -/
structure InitialOrganization where
  organizations : List NamedOrganization
  memberships : List DatedMembership
  organizationId : Option Uuid

/-- The default organization, which is created under a new id if it is not there. -/
def upsertOrganization (db : LoginDatabase) (newId : Uuid) : List NamedOrganization × Uuid :=
  match db.organizations.find? (·.slug = DEFAULT_ORGANIZATION_SLUG) with
  | some row => (db.organizations, row.organization.id)
  | none => (db.organizations ++ [⟨⟨newId, .active, 0, none⟩, DEFAULT_ORGANIZATION_SLUG⟩], newId)

def upsertMembership (db : LoginDatabase) (organizationId userId : Uuid) : List DatedMembership :=
  let isRow (row : DatedMembership) : Bool :=
    row.membership.organizationId = organizationId ∧ row.membership.userId = userId
  if db.memberships.any isRow then
    updateWhere db.memberships isRow fun row =>
      { row with membership := { row.membership with status := .active, deletedAt := none } }
  else db.memberships ++ [⟨⟨organizationId, userId, .active, none⟩, db.now⟩]

def resolveInitialOrganizationId (mode : TenancyMode) (db : LoginDatabase) (newId userId : Uuid) :
    Except Thrown InitialOrganization :=
  match mode with
  | .disabled => .ok ⟨db.organizations, db.memberships, none⟩
  | .single =>
    let (organizations, organizationId) := upsertOrganization db newId
    if db.memberRole then
      .ok ⟨organizations, upsertMembership db organizationId userId, some organizationId⟩
    else .error (missingRole "member")
  | .multi =>
    let membership := firstBy (·.createdAt) (db.memberships.filter (·.activeFor userId))
    .ok ⟨db.organizations, db.memberships, membership.map (·.membership.organizationId)⟩

/-! ### The session -/

/-- `REFRESH_TOKEN_TTL_DAYS`, as the environment schema accepts it. -/
structure RefreshTokenTtl where
  days : ℕ
  one_le : 1 ≤ days
  le : days ≤ 90

def RefreshTokenTtl.milliseconds (ttl : RefreshTokenTtl) : ℤ := ttl.days * (24 * 60 * 60 * 1000)

/-- The ids that the database gives to new rows. -/
structure NewIds (db : LoginDatabase) where
  session : Uuid
  organization : Uuid
  session_new : session ∉ db.sessions.map (·.id)

def newSession (ttl : RefreshTokenTtl) (db : LoginDatabase) (id userId : Uuid)
    (organizationId : Option Uuid) : Session where
  id := id
  userId := userId
  activeOrganizationId := organizationId
  expiresAt := db.now + ttl.milliseconds

/-- The tables after the transaction, and the claims of the access token. -/
def createSession (mode : TenancyMode) (ttl : RefreshTokenTtl) (db : LoginDatabase)
    (ids : NewIds db) (userId : Uuid) : Except Thrown (LoginDatabase × AccessClaims) :=
  (resolveInitialOrganizationId mode db ids.organization userId).map fun initial =>
    ({ db with
        organizations := initial.organizations
        memberships := initial.memberships
        sessions := newSession ttl db ids.session userId initial.organizationId :: db.sessions
        sessions_nodup := List.nodup_cons.mpr ⟨ids.session_new, db.sessions_nodup⟩ },
      ⟨userId, ids.session⟩)

/-! ### When the session is accepted -/

/-- The claims are those of a live session, in no organization or in an active one. -/
theorem authenticateClaims_ok_iff (db : Database) (claims : AccessClaims) :
    (∃ authenticated, authenticateClaims db claims = .ok authenticated) ↔
      ∃ session, findSession db claims = some session ∧
        ∀ organizationId ∈ session.activeOrganizationId,
          OrganizationActive db session claims.userId organizationId := by
  constructor
  · rintro ⟨authenticated, h⟩
    obtain ⟨session, hfind, -, hactive⟩ :=
      resolveClaims_eq_some_iff.mp (resolveClaims_iff.mpr ⟨authenticated, h, rfl⟩)
    exact ⟨session, hfind, hactive⟩
  · rintro ⟨session, hfind, hactive⟩
    obtain ⟨authenticated, h, -⟩ :=
      resolveClaims_iff.mp (resolveClaims_eq_some_iff.mpr ⟨session, hfind, rfl, hactive⟩)
    exact ⟨authenticated, h⟩

/-- The row of the user is there and active. -/
def LoginDatabase.ActiveUser (db : LoginDatabase) (userId : Uuid) : Prop :=
  ∃ user, db.users.find? (·.id = userId) = some user ∧ user.status = .active ∧
    user.deletedAt = none

/-- The row of the organization is there and active. -/
def LoginDatabase.ActiveOrganization (db : LoginDatabase) (organizationId : Uuid) : Prop :=
  ∃ organization, (db.organizations.map (·.organization)).find? (·.id = organizationId) =
      some organization ∧ organization.status = .active ∧ organization.deletedAt = none

/-- The membership that is the user's earliest active one. -/
def LoginDatabase.EarliestMembership (db : LoginDatabase) (userId : Uuid)
    (row : DatedMembership) : Prop :=
  IsFirstBy (·.createdAt) (db.memberships.filter (·.activeFor userId)) row

/-- The user has an active membership in an active organization, or none. -/
def LoginDatabase.CanStart (db : LoginDatabase) (userId : Uuid) : Prop :=
  (∃ row ∈ db.memberships, row.activeFor userId = true ∧
      db.ActiveOrganization row.membership.organizationId) ∨
    ∀ row ∈ db.memberships, row.activeFor userId = false

variable {mode : TenancyMode} {ttl : RefreshTokenTtl} {db : LoginDatabase} {ids : NewIds db}
  {userId : Uuid} {created : LoginDatabase × AccessClaims} {now : ℤ}

variable {initial : InitialOrganization}

theorem findSession_created
    (hinitial : resolveInitialOrganizationId mode db ids.organization userId = .ok initial)
    (hcreate : createSession mode ttl db ids userId = .ok created) (huser : db.ActiveUser userId)
    (hend : now < db.now + ttl.milliseconds) : findSession (created.1.tables now) created.2 =
      some (newSession ttl db ids.session userId initial.organizationId) := by
  rw [createSession, hinitial] at hcreate
  obtain rfl := Except.ok.inj hcreate
  rw [findSession_iff]
  refine ⟨List.mem_cons_self, rfl, rfl, ?_⟩
  obtain ⟨user, hfind, hstatus, hdeleted⟩ := huser
  have hany : (db.users.find? (·.id = userId)).any
      (fun user => user.status = .active ∧ user.deletedAt = none) = true := by
    rw [hfind, Option.any_some, hstatus, hdeleted]
    rfl
  exact decide_eq_true ⟨rfl, rfl, hend, hany⟩

/-- A session in an organization of which the user is an active member is in an active one exactly
if the row of the organization is. -/
theorem organizationActive_iff {session : Session} {organizationId : Uuid}
    (hsession : session.activeOrganizationId = some organizationId) {row : DatedMembership}
    (hrow : row ∈ db.memberships) (hmember : row.activeFor userId = true)
    (horganization : row.membership.organizationId = organizationId) :
    OrganizationActive (db.tables now) session userId organizationId ↔
      db.ActiveOrganization organizationId := by
  have hfind :
      ((db.tables now).memberships.find? (·.activeIn organizationId userId)).isSome = true := by
    rw [List.find?_isSome]
    refine ⟨row.membership, List.mem_map_of_mem hrow, ?_⟩
    simp only [DatedMembership.activeFor, decide_eq_true_eq] at hmember
    simp only [Membership.activeIn, decide_eq_true_eq]
    exact ⟨horganization, hmember⟩
  have hactive : (db.tables now).activeOrganization? session =
      (db.organizations.map (·.organization)).find? (·.id = organizationId) := by
    rw [Database.activeOrganization?, hsession]
    rfl
  unfold OrganizationActive LoginDatabase.ActiveOrganization
  rw [hfind, hactive]
  generalize (db.organizations.map (·.organization)).find? (·.id = organizationId) = found
  rcases found with _ | organization
  · simp
  · simp

theorem member_of_initial
    (h : resolveInitialOrganizationId mode db ids.organization userId = .ok initial)
    {organizationId : Uuid} (horganization : initial.organizationId = some organizationId) :
    ∃ row ∈ initial.memberships, row.activeFor userId = true ∧
      row.membership.organizationId = organizationId := by
  cases mode with
  | disabled =>
    obtain rfl := Except.ok.inj h
    cases horganization
  | single =>
    unfold resolveInitialOrganizationId at h
    dsimp only at h
    split_ifs at h with hrole
    obtain rfl := Except.ok.inj h
    obtain rfl := Option.some.inj horganization
    unfold upsertMembership
    dsimp only
    split_ifs with hany
    · obtain ⟨row, hrow, hcond⟩ := List.any_eq_true.mp hany
      refine ⟨_, mem_updateWhere.mpr ⟨row, hrow, (if_pos hcond).symm⟩, ?_⟩
      simp only [decide_eq_true_eq] at hcond
      simp [DatedMembership.activeFor, hcond]
    · exact ⟨_, List.mem_append_right _ (List.mem_singleton.mpr rfl),
        by simp [DatedMembership.activeFor], rfl⟩
  | multi =>
    obtain rfl := Except.ok.inj h
    obtain ⟨row, hfirst, hrow⟩ := Option.map_eq_some_iff.mp horganization
    obtain ⟨hmem, hactive⟩ := List.mem_filter.mp (firstBy_eq_some_iff.mp hfirst).mem
    exact ⟨row, hmem, hactive, hrow⟩

/-- In every mode a created session is accepted exactly if it starts in no organization or in an
active one. -/
theorem created_accepted_iff
    (hinitial : resolveInitialOrganizationId mode db ids.organization userId = .ok initial)
    (hcreate : createSession mode ttl db ids userId = .ok created) (huser : db.ActiveUser userId)
    (hend : now < db.now + ttl.milliseconds) :
    (∃ authenticated, authenticateClaims (created.1.tables now) created.2 = .ok authenticated) ↔
      ∀ organizationId ∈ initial.organizationId, created.1.ActiveOrganization organizationId := by
  rw [authenticateClaims_ok_iff, findSession_created hinitial hcreate huser hend]
  simp only [Option.some.injEq, exists_eq_left']
  have hclaims : created.2.userId = userId ∧ created.1.memberships = initial.memberships := by
    rw [createSession, hinitial] at hcreate
    obtain rfl := Except.ok.inj hcreate
    exact ⟨rfl, rfl⟩
  refine forall₂_congr fun organizationId horganization => ?_
  obtain ⟨row, hrow, hmember, hid⟩ := member_of_initial hinitial horganization
  rw [← hclaims.2] at hrow
  rw [hclaims.1]
  exact organizationActive_iff horganization hrow hmember hid

/-- **A session that a login in multi-tenant mode creates is accepted exactly if the organization of
the user's earliest active membership is active.** -/
theorem login_accepted_iff {verify : VerifyAccessToken} {request : Request} {token : Text}
    (hcreate : createSession .multi ttl db ids userId = .ok created)
    (huser : db.ActiveUser userId) (hbears : Bears request token)
    (hverify : verify token = .ok created.2) (hend : now < db.now + ttl.milliseconds) :
    (∃ authenticated, authenticate verify (created.1.tables now) request = .ok authenticated) ↔
      ∀ row, db.EarliestMembership userId row →
        db.ActiveOrganization row.membership.organizationId := by
  have horganizations : created.1.organizations = db.organizations := by
    obtain rfl := Except.ok.inj hcreate
    rfl
  rw [authenticate_of_bears hbears, hverify]
  dsimp only
  rw [created_accepted_iff rfl hcreate huser hend]
  unfold LoginDatabase.ActiveOrganization LoginDatabase.EarliestMembership
  rw [horganizations]
  constructor
  · intro h row hrow
    exact h _ (Option.map_eq_some_iff.mpr ⟨row, firstBy_eq_some_iff.mpr hrow, rfl⟩)
  · intro h organizationId horganization
    obtain ⟨row, hfirst, rfl⟩ := Option.map_eq_some_iff.mp horganization
    exact h row (firstBy_eq_some_iff.mp hfirst)

/-! ### Two memberships -/

def exampleTtl : RefreshTokenTtl := ⟨30, by decide, by decide⟩

def exampleUser : Uuid := exampleClaims.userId

def laterOrganization : Uuid := exampleId '4' (by decide)

/-- A user of an organization in the given state who has joined an active one later. -/
def twoMemberships (first : OrganizationStatus) : LoginDatabase where
  users := [{ id := exampleUser }]
  organizations := [⟨{ id := exampleOrganization, status := first }, "first"⟩,
    ⟨{ id := laterOrganization }, "second"⟩]
  memberships := [⟨{ organizationId := exampleOrganization, userId := exampleUser }, 1⟩,
    ⟨{ organizationId := laterOrganization, userId := exampleUser }, 2⟩]
  sessions := []
  sessions_nodup := List.nodup_nil

def exampleIds (first : OrganizationStatus) : NewIds (twoMemberships first) where
  session := exampleClaims.sessionId
  organization := exampleId '5' (by decide)
  session_new := List.not_mem_nil

def exampleRequest : Request := { accessCookie := some "jwt".toList }

/-- Verification of the token that the login has signed. -/
def exampleVerify : VerifyAccessToken := fun token =>
  if token = "jwt".toList then .ok exampleClaims else .error .value

/-- What the request after the login gets. -/
def afterLogin (first : OrganizationStatus) : Except Thrown (Except AppError Authenticated) :=
  (createSession .multi exampleTtl (twoMemberships first) (exampleIds first) exampleUser).map
    fun created => authenticate exampleVerify (created.1.tables 1) exampleRequest

/-- The login of a user whose first organization is active. -/
theorem login_accepted_example : ∃ created, createSession .multi exampleTtl (twoMemberships .active)
      (exampleIds .active) exampleUser = .ok created ∧
    ((∃ authenticated, authenticate exampleVerify (created.1.tables 1) exampleRequest =
        .ok authenticated) ↔
      ∀ row, (twoMemberships .active).EarliestMembership exampleUser row →
        (twoMemberships .active).ActiveOrganization row.membership.organizationId) := by
  have hcreate : createSession .multi exampleTtl (twoMemberships .active) (exampleIds .active)
      exampleUser = .ok _ := rfl
  exact ⟨_, hcreate, login_accepted_iff hcreate ⟨_, rfl, rfl, rfl⟩ ⟨rfl, by decide⟩ rfl
    (by decide)⟩

/-- A user with an active membership in an active organization whose new session is refused. -/
theorem stranded : (twoMemberships .suspended).CanStart exampleUser ∧
    (twoMemberships .suspended).ActiveUser exampleUser ∧
    afterLogin .suspended = .ok (.error (forbidden "Organization is not active")) := by
  refine ⟨.inl ⟨_, List.mem_cons_of_mem _ List.mem_cons_self, by decide, _, rfl, rfl, rfl⟩,
    ⟨_, rfl, rfl, rfl⟩, ?_⟩
  rfl

end BackendFoundation.Organizations.Login
