import BackendFoundation.Access.Roles

/-! # Platform grants and organization grants

What a guard decides in a state, if the cache says what the database says: behind `requirePermission`,
whether the user has a role that is global and holds the permission, and behind `requireOrgPermission`
whether the user is an active member of the active organization with such a role, global or of the
organization. `scopes_separate` is that, with its consequence for two runs: the first decision depends
on no membership and no organization, the second one on no user role and no other membership. -/

namespace BackendFoundation.Access.Scopes

open Lib.Database Lib.WriteLog Lib.Schema Lib.Services Lib.Logs Lib.Interleave Lib.Runs Lib.Transact
open Errors Organizations.Model Access.Model Access.Log
open Organizations.Login (TenancyMode)
open Access.Commits Access.Roles
open Option (some.inj)

/-! ### Grants -/

/-- The user has a user role on a global role that holds the code. -/
def PlatformGrant (cfg : AccessConfig) (rows : AccessRows) (userId : ℕ) (code : String) : Prop :=
  ∃ roleId, ∃ userRole : UserRole, rows (userRoleKey userId roleId) = some userRole ∧
    userRole.live = true ∧ globalRole rows roleId = true ∧ holdsCode cfg rows roleId code = true

/-- The user is an active member of the organization, with a role that holds the code and that is
global or one of the organization. -/
def MemberGrant (cfg : AccessConfig) (rows : AccessRows) (userId organizationId : ℕ)
    (code : String) : Prop :=
  ∃ membership : Membership, rows (membershipKey organizationId userId) = some membership ∧
    activeMember membership = true ∧ ∃ role : RoleRow, rows (roleKey membership.roleId) = some role ∧
      role.live = true ∧
      (role.organizationId = none ∨ role.organizationId = some organizationId) ∧
      holdsCode cfg rows membership.roleId code = true

variable {cfg : AccessConfig} {rows : AccessRows} {keys : List AccessKey} {userId organizationId : ℕ}
  {code : String}

theorem hasGlobalGrant_iff (hlisted : ∀ k, rows k ≠ none → k ∈ keys) :
    hasGlobalGrant cfg rows keys userId code = true ↔ PlatformGrant cfg rows userId code := by
  unfold hasGlobalGrant
  rw [decide_eq_true_eq]
  constructor
  · intro hne
    obtain ⟨⟨⟨user, roleId⟩, userRole⟩, hmem⟩ := List.exists_mem_of_ne_nil _ hne
    obtain ⟨-, hrow, hcond⟩ := mem_findMany.mp hmem
    obtain ⟨rfl, hlive, hglobal, hholds⟩ := of_decide_eq_true hcond
    exact ⟨roleId, userRole, hrow, hlive, hglobal, hholds⟩
  · rintro ⟨roleId, userRole, hrow, hlive, hglobal, hholds⟩
    refine List.ne_nil_of_mem (a := ((userId, roleId), userRole))
      (mem_findMany.mpr ⟨hlisted _ ?_, hrow, ?_⟩)
    · rw [hrow]
      exact Option.some_ne_none _
    · exact decide_eq_true ⟨rfl, hlive, hglobal, hholds⟩

theorem hasGlobalGrant_keys {keys' : List AccessKey} (hlisted : ∀ k, rows k ≠ none → k ∈ keys)
    (hlisted' : ∀ k, rows k ≠ none → k ∈ keys') :
    hasGlobalGrant cfg rows keys userId code = hasGlobalGrant cfg rows keys' userId code := by
  rw [Bool.eq_iff_iff, hasGlobalGrant_iff hlisted, hasGlobalGrant_iff hlisted']

/-- Where all roles fit, `hasOrganizationGrant` finds a role that does. -/
theorem hasOrganizationGrant_iff (hfits : Fits rows) :
    hasOrganizationGrant cfg rows userId organizationId code = true ↔
      MemberGrant cfg rows userId organizationId code := by
  unfold hasOrganizationGrant
  rw [Option.any_eq_true]
  constructor
  · rintro ⟨membership, hrow, hcond⟩
    obtain ⟨hactive, hlive, hholds⟩ := of_decide_eq_true hcond
    obtain ⟨role, hrole, hlive⟩ := (Option.any_eq_true _ _).mp hlive
    obtain ⟨role', hrole', horganization⟩ := hfits.membership _ _ _ hrow
    obtain rfl := some.inj (hrole.symm.trans hrole')
    exact ⟨membership, hrow, hactive, role, hrole, hlive, horganization, hholds⟩
  · rintro ⟨membership, hrow, hactive, role, hrole, hlive, -, hholds⟩
    refine ⟨membership, hrow, decide_eq_true ⟨hactive, ?_, hholds⟩⟩
    rw [hrole]
    exact hlive

/-- What the queries of `permissionGuard` find. -/
def granted (cfg : AccessConfig) (rows : AccessRows) (keys : List AccessKey) (scope : Scope)
    (auth : Authenticated) (code : String) : Bool :=
  (scope ≠ .organization ∧ hasGlobalGrant cfg rows keys auth.userId code) ∨
    (scope ≠ .global ∧ auth.organization.any fun organization =>
      hasOrganizationGrant cfg rows auth.userId organization.1 code)

/-- The permission epochs are those of the rows. -/
def Current (rows : AccessRows) (auth : Authenticated) : Prop :=
  (∃ user : User, rows (userKey auth.userId) = some user ∧
      auth.permissionEpoch = user.permissionEpoch) ∧
    ∀ organization ∈ auth.organization, ∃ row : Organization,
      rows (organizationKey organization.1) = some row ∧ organization.2 = row.permissionEpoch

/-- The cache says what the database says, under the keys of now. -/
def CacheSound (cfg : AccessConfig) (s : Store AccessRowOf PermissionCache) : Prop :=
  ∀ scope auth code allowed, s.memory ⟨scope, auth, code⟩ = some allowed →
    Current s.db.rows auth → allowed = granted cfg s.db.rows s.db.keys scope auth code

theorem cacheSound_of_empty {s : Store AccessRowOf PermissionCache} (h : ∀ key, s.memory key = none) :
    CacheSound cfg s := by
  intro scope auth code allowed hcached
  rw [h] at hcached
  cases hcached

/-! ### A request on its own -/

def Alone (i : ℕ) (_ : AccessWorld) : AccessLabel → Prop
  | .step j _ => j = i
  | _ => False

instance (i : ℕ) (w : AccessWorld) : DecidablePred (Alone i w)
  | .step j _ => inferInstanceAs (Decidable (j = i))
  | .spawn _ | .crash _ | .env _ => instDecidableFalse

/-- The call has come to a decision. -/
def Decided (w : AccessWorld) (i : ℕ) (input : GuardedRequest) (auth : Authenticated)
    (allowed : Bool) : Prop :=
  ∃ call, w.proc? i = some call ∧ call.pc = .guarded input (.decided auth allowed)

/-- Nothing else happens from the start of the request to its decision. -/
def Decides (cfg : AccessConfig) (w : AccessWorld) (input : GuardedRequest) (auth : Authenticated)
    (allowed : Bool) : Prop :=
  ∃ w₁ w₂, (access cfg).program.next w (.spawn (.guarded input)) = some w₁ ∧
    Path (access cfg).program.system (Alone w.fresh) w₁ w₂ ∧ Decided w₂ w.fresh input auth allowed

/-- The active organization of the session that the request names. -/
def ActiveIn (rows : AccessRows) (claims : AccessClaims) (organizationId : Option ℕ) : Prop :=
  ∃ session : Session, rows (sessionKey claims.sessionId) = some session ∧
    session.activeOrganizationId = organizationId

/-- What `authenticate` has found. -/
structure Authenticates (rows : AccessRows) (input : GuardedRequest) (auth : Authenticated) :
    Prop where
  userId : auth.userId = input.claims.userId
  active : ActiveIn rows input.claims (auth.organization.map (·.1))
  current : Current rows auth
  /-- The first check of the guard. -/
  organization : input.scope = .organization → auth.organization ≠ none

/-- What a request has found at a program point, in a state that does not change, with the cache that
there was before it. -/
def RequestAt (cfg : AccessConfig) (s : Store AccessRowOf PermissionCache) (input : GuardedRequest)
    (cache : PermissionCache) : RequestPc → Prop
  | .findSession => cache = s.memory
  | .findUser organizationId => cache = s.memory ∧ ActiveIn s.db.rows input.claims organizationId
  | .findOrganization permissionEpoch organizationId =>
    cache = s.memory ∧ ActiveIn s.db.rows input.claims (some organizationId) ∧
      Current s.db.rows ⟨input.claims.userId, permissionEpoch, none⟩
  | .findMembership permissionEpoch organizationId organizationEpoch =>
    cache = s.memory ∧ ActiveIn s.db.rows input.claims (some organizationId) ∧
      Current s.db.rows ⟨input.claims.userId, permissionEpoch,
        some (organizationId, organizationEpoch)⟩
  | .readCache auth => cache = s.memory ∧ Authenticates s.db.rows input auth
  | .findGlobalGrant auth =>
    cache = s.memory ∧ Authenticates s.db.rows input auth ∧ input.scope ≠ .organization
  | .findOrganizationGrant auth =>
    cache = s.memory ∧ Authenticates s.db.rows input auth ∧ input.scope ≠ .global ∧
      (input.scope ≠ .organization →
        hasGlobalGrant cfg s.db.rows s.db.keys auth.userId input.code = false)
  | .store auth allowed | .decided auth allowed =>
    Authenticates s.db.rows input auth ∧
      allowed = granted cfg s.db.rows s.db.keys input.scope auth input.code

variable {s : Store AccessRowOf PermissionCache} {input : GuardedRequest} {cache : PermissionCache}
  {pc pc' : RequestPc} {auth : Authenticated} {allowed : Bool}

theorem requestAt_enterGuard {next : RequestPc} (h : enterGuard input auth = .ok next)
    (hcache : cache = s.memory) (huser : auth.userId = input.claims.userId)
    (hactive : ActiveIn s.db.rows input.claims (auth.organization.map (·.1)))
    (hcurrent : Current s.db.rows auth) : RequestAt cfg s input cache next := by
  unfold enterGuard at h
  split_ifs at h with hscope
  obtain rfl := Except.ok.inj h
  exact ⟨hcache, huser, hactive, hcurrent, fun horganization hnone => hscope ⟨horganization, hnone⟩⟩

/-- A query of `authenticate`. -/
theorem requestAt_authenticate {now : ℕ} (h : RequestAt cfg s input cache pc)
    (hnext : authenticateNext now input s.db.rows pc = some (.ok pc')) :
    RequestAt cfg s input cache pc' := by
  unfold authenticateNext at hnext
  split at hnext
  · have hnext := some.inj hnext
    split at hnext
    · cases hnext
    · next session hsession =>
      obtain rfl := Except.ok.inj hnext
      obtain ⟨hrow, -⟩ := Option.filter_eq_some_iff.mp hsession
      exact ⟨h, session, hrow, rfl⟩
  · obtain ⟨hcache, hactive⟩ := h
    have hnext := some.inj hnext
    split at hnext
    · cases hnext
    · next user huser =>
      split at hnext
      · refine requestAt_enterGuard hnext hcache rfl hactive ⟨⟨user, huser, rfl⟩, ?_⟩
        exact nofun
      · obtain rfl := Except.ok.inj hnext
        exact ⟨hcache, hactive, ⟨user, huser, rfl⟩, nofun⟩
  · obtain ⟨hcache, hactive, huser, -⟩ := h
    have hnext := some.inj hnext
    split at hnext
    · cases hnext
    · next organization horganization =>
      obtain rfl := Except.ok.inj hnext
      obtain ⟨hrow, -⟩ := Option.filter_eq_some_iff.mp horganization
      refine ⟨hcache, hactive, huser, fun found hfound => ?_⟩
      obtain rfl := some.inj hfound
      exact ⟨organization, hrow, rfl⟩
  · obtain ⟨hcache, hactive, hcurrent⟩ := h
    split_ifs at hnext
    · exact requestAt_enterGuard (some.inj hnext) hcache rfl hactive hcurrent
    · cases hnext
  · cases hnext

/-- A query of `permissionGuard`. -/
theorem requestAt_guard (h : RequestAt cfg s input cache pc)
    (hnext : guardNext cfg s.db.keys input s.db.rows pc = some (.ok pc')) :
    RequestAt cfg s input cache pc' := by
  unfold guardNext at hnext
  split at hnext
  · next auth =>
    obtain ⟨hcache, hauth, hscope⟩ := h
    obtain rfl := point_inj hnext
    split_ifs with hglobal hnext
    · refine ⟨hauth, ?_⟩
      rw [granted, hglobal]
      simp [hscope]
    · exact ⟨hcache, hauth, hnext.1, fun _ => Bool.eq_false_iff.mpr hglobal⟩
    · refine ⟨hauth, ?_⟩
      have hnone : input.scope = .global ∨ auth.organization = none := by
        by_contra hno
        obtain ⟨hscope, hsome⟩ := not_or.mp hno
        exact hnext ⟨hscope, Option.isSome_iff_ne_none.mpr hsome⟩
      have hglobal := Bool.eq_false_iff.mpr hglobal
      rcases hnone with hscope | hnone
      · simp [granted, hglobal, hscope]
      · simp [granted, hglobal, hnone]
  · next auth =>
    obtain ⟨hcache, hauth, hscope, hglobal⟩ := h
    obtain rfl := point_inj hnext
    refine ⟨hauth, ?_⟩
    by_cases horganization : input.scope = .organization
    · simp [granted, horganization]
    · simp [granted, hscope, hglobal horganization]
  · cases hnext

theorem guardNext_keys {keys keys' : List AccessKey} (hlisted : ∀ k, rows k ≠ none → k ∈ keys)
    (hlisted' : ∀ k, rows k ≠ none → k ∈ keys') :
    guardNext cfg keys input rows pc = guardNext cfg keys' input rows pc := by
  unfold guardNext
  simp only [hasGlobalGrant_keys hlisted hlisted']

theorem requestAt_next {site : Site AccessKey} (hlisted : s.db.Listed)
    (hkeys : ∀ k, s.db.rows k ≠ none → k ∈ site.keys) (h : RequestAt cfg s input cache pc)
    (hnext : requestNext cfg site input pc (.rows s.db.rows) = some (.ok pc')) :
    RequestAt cfg s input cache pc' := by
  unfold requestNext at hnext
  dsimp only at hnext
  split at hnext
  · next result hresult =>
    obtain rfl := some.inj hnext
    exact requestAt_authenticate h hresult
  · rw [guardNext_keys hkeys hlisted] at hnext
    exact requestAt_guard h hnext

theorem requestAt_outside {pick : ℕ} {cache' : PermissionCache} (hsound : CacheSound cfg s)
    (h : RequestAt cfg s input cache pc)
    (hout : requestOutside pick cache input pc = some (cache', pc')) :
    RequestAt cfg s input cache' pc' := by
  unfold requestOutside at hout
  split at hout
  · next auth =>
    obtain ⟨rfl, hauth⟩ := h
    obtain ⟨rfl, rfl⟩ := pair_inj hout
    split
    · next allowed hcached =>
      refine ⟨hauth, ?_⟩
      split_ifs at hcached
      exact hsound _ _ _ _ hcached hauth.current
    · unfold RequestPc.findGrant
      split_ifs with hscope
      · exact ⟨rfl, hauth, by simp [hscope], fun hno => absurd hscope hno⟩
      · exact ⟨rfl, hauth, hscope⟩
  · obtain ⟨-, rfl⟩ := pair_inj hout
    exact h
  · cases hout

/-- The request stands where the state before it leads. -/
def StandsAt (cfg : AccessConfig) (w₀ : AccessWorld) (input : GuardedRequest) (w : AccessWorld) :
    Prop :=
  w.shared.db.rows = w₀.shared.db.rows ∧ ∀ call, w.proc? w₀.fresh = some call →
    (∃ e, call.pc = .thrown e) ∨
      ∃ pc, call.pc = .guarded input pc ∧ RequestAt cfg w₀.shared input w.shared.memory pc

variable {w : AccessWorld}

theorem request_found {i : ℕ} {call : Caller AccessRowOf AccessPc}
    (h : Reachable (access cfg).program.system w) (hp : w.proc? i = some call) {c : Choice Thrown}
    {s' : Store AccessRowOf PermissionCache} {call' : Caller AccessRowOf AccessPc}
    (hstep : (access cfg).step w.shared i call c = some (s', call')) {input : GuardedRequest}
    {pc : RequestPc} (hpc : call.pc = .guarded input pc) {db : Db AccessRowOf}
    {tx : Tx AccessRowOf} {rows : AccessRows}
    (hs : exec w.shared.db i call.tx .read = some (db, .replied tx (.rows rows)))
    (hstmt : (access cfg).stmt call.pc = some .read) : rows = w.shared.db.rows := by
  have hbase := (accessFollows.outline anyStep).holds h
  have hok := hbase.proc i call hp
  let trivialClaims : Claims AccessRowOf AccessPc PermissionCache :=
    ⟨fun _ => True, fun _ _ _ _ => True⟩
  have hat : trivialClaims.At (access cfg) (accessNotes cfg) w.shared i call :=
    ⟨hbase.shared, trivial, hok.tx, hok.pointOk accessFollows hstep, trivial⟩
  refine hat.found (exec_live hs (.inr ⟨_, rfl⟩)) hstmt (fun k before after hw => ?_) hs
  change Entry.inTurn (accessWritten cfg call.pc) k before after at hw
  rw [hpc] at hw
  exact hw

theorem standsAt_step {w₀ w w' : AccessWorld} {l : AccessLabel}
    (hsound : CacheSound cfg w₀.shared) (h₀ : Reachable (access cfg).program.system w₀)
    (h : Reachable (access cfg).program.system w) (hat : StandsAt cfg w₀ input w)
    (hl : Alone w₀.fresh w l) (hn : (access cfg).program.next w l = some w') :
    StandsAt cfg w₀ input w' := by
  obtain ⟨hrows, hat⟩ := hat
  have hbase := (accessFollows.outline anyStep).holds h
  have hlisted₀ := ((accessFollows.outline anyStep).holds h₀).shared
  cases Program.move_of_next hn with
  | spawn _ | crash _ | env _ => cases hl
  | @step i c call call' s hp hs =>
    obtain rfl : i = w₀.fresh := hl
    have hok := hbase.proc _ call hp
    have hlisted : ∀ k, w₀.shared.db.rows k ≠ none → k ∈ w.shared.db.keys := hrows ▸ hbase.shared
    have hself {r : Caller AccessRowOf AccessPc}
        (hr : (w.put w₀.fresh s call').proc? w₀.fresh = some r) : r = call' :=
      some.inj (hr.symm.trans (World.proc?_put_self hp))
    rcases hat call hp with ⟨e, hpc⟩ | ⟨pc, hpc, hat⟩
    · exact absurd hpc (accessFollows.not_thrown hs e)
    have hread {stmt : AccessStmt} (hstmt : (access cfg).stmt call.pc = some stmt) : stmt = .read := by
      rw [hpc] at hstmt
      exact read_of_requestStmt hstmt
    cases Service.step_advance hok.tx hs with
    | threw hsame => exact ⟨hsame.trans hrows, fun r hr => .inl ⟨_, congrArg Caller.pc (hself hr)⟩⟩
    | running hstmt hex _ =>
      obtain ⟨cond, data, he⟩ := running_update hex
      cases (hread hstmt).symm.trans he
    | replied hstmt _ hex hnext hsame =>
      obtain rfl := hread hstmt
      obtain ⟨-, hreply⟩ := (Lib.Database.exec_read hex).2 _ _ rfl
      subst hreply
      have hfound := request_found h hp hs hpc hex hstmt
      rw [hpc] at hnext
      obtain ⟨next, hrequest, rfl⟩ := ok_of_mapNext hnext
      rw [hfound, hrows] at hrequest
      refine ⟨hsame.trans hrows, fun r hr => .inr ⟨next, congrArg Caller.pc (hself hr), ?_⟩⟩
      exact requestAt_next hlisted₀ hlisted hat hrequest
    | committed hstmt _ _ _ _ _ => cases hread hstmt
    | outside _ hout =>
      rw [hpc] at hout
      obtain ⟨next, hrequest, rfl⟩ := map_pair_inj hout
      refine ⟨hrows, fun r hr => .inr ⟨next, congrArg Caller.pc (hself hr), ?_⟩⟩
      exact requestAt_outside hsound hat hrequest

/-- **What a request decides on its own** is what the database grants. -/
theorem decided_eq (h : Reachable (access cfg).program.system w)
    (hsound : CacheSound cfg w.shared) (hd : Decides cfg w input auth allowed) :
    Authenticates w.shared.db.rows input auth ∧
      allowed = granted cfg w.shared.db.rows w.shared.db.keys input.scope auth input.code := by
  obtain ⟨w₁, w₂, hspawn, hpath, call, hp, hpc⟩ := hd
  have hnext : (access cfg).program.system.next w (.spawn (.guarded input)) = some w₁ := hspawn
  have h₁ : Reachable (access cfg).program.system w₁ := .step h trivial hnext
  have hstart : StandsAt cfg w input w₁ := by
    cases Program.move_of_next hspawn with
    | spawn hs =>
      obtain ⟨rfl, rfl⟩ := pair_inj hs
      refine ⟨rfl, fun r hr => .inr ⟨.findSession, ?_, rfl⟩⟩
      obtain rfl := some.inj (hr.symm.trans World.proc?_add_self)
      rfl
  have hend : StandsAt cfg w input w₂ := by
    clear hp
    induction hpath with
    | refl => exact hstart
    | step hpath hl hn ih =>
      have hreach := h₁.path (hpath.mono fun _ _ _ => trivial)
      exact standsAt_step hsound h hreach ih hl hn
  rcases hend.2 call hp with ⟨e, he⟩ | ⟨pc, he, hat⟩
  · rw [hpc] at he
    cases he
  · obtain ⟨-, rfl⟩ := AccessPc.guarded.inj (hpc.symm.trans he)
    exact hat

/-! ### The main result -/

/-- The rows agree on everything that the platform grants of a user are made of. -/
structure SamePlatform (rows rows' : AccessRows) (userId : ℕ) (code : String) : Prop where
  userRole : ∀ roleId, rows' (userRoleKey userId roleId) = rows (userRoleKey userId roleId)
  role : ∀ roleId, rows' (roleKey roleId) = rows (roleKey roleId)
  rolePermission : ∀ roleId,
    rows' (rolePermissionKey roleId code) = rows (rolePermissionKey roleId code)

/-- The rows agree on the membership of a user in an organization, and on the roles. -/
structure SameMember (rows rows' : AccessRows) (userId organizationId : ℕ) (code : String) : Prop where
  membership : rows' (membershipKey organizationId userId) = rows (membershipKey organizationId userId)
  role : ∀ roleId, rows' (roleKey roleId) = rows (roleKey roleId)
  rolePermission : ∀ roleId,
    rows' (rolePermissionKey roleId code) = rows (rolePermissionKey roleId code)

variable {cfg' : AccessConfig} {rows' : AccessRows}

theorem holdsCode_congr (hcfg : cfg'.permissions = cfg.permissions) {roleId : ℕ}
    (h : rows' (rolePermissionKey roleId code) = rows (rolePermissionKey roleId code)) :
    holdsCode cfg' rows' roleId code = holdsCode cfg rows roleId code := by
  unfold holdsCode AccessConfig.liveCode
  rw [hcfg, h]

theorem SamePlatform.grant_iff (h : SamePlatform rows rows' userId code)
    (hcfg : cfg'.permissions = cfg.permissions) :
    PlatformGrant cfg' rows' userId code ↔ PlatformGrant cfg rows userId code := by
  unfold PlatformGrant globalRole
  refine exists_congr fun roleId => exists_congr fun userRole => ?_
  rw [h.userRole, h.role, holdsCode_congr hcfg (h.rolePermission roleId)]

theorem SameMember.grant_iff (h : SameMember rows rows' userId organizationId code)
    (hcfg : cfg'.permissions = cfg.permissions) :
    MemberGrant cfg' rows' userId organizationId code ↔
      MemberGrant cfg rows userId organizationId code := by
  unfold MemberGrant
  refine exists_congr fun membership => ?_
  rw [h.membership, h.role, holdsCode_congr hcfg (h.rolePermission _)]

/-- `requirePermission` allows a user by a platform grant only. -/
theorem allowed_platform_iff (h : Reachable (access cfg).program.system w)
    (hsound : CacheSound cfg w.shared) (hd : Decides cfg w input auth allowed)
    (hscope : input.scope = .global) :
    allowed = true ↔ PlatformGrant cfg w.shared.db.rows input.claims.userId input.code := by
  obtain ⟨hauth, rfl⟩ := decided_eq h hsound hd
  have hlisted := ((accessFollows.outline anyStep).holds h).shared
  rw [← hauth.userId, ← hasGlobalGrant_iff hlisted]
  simp [granted, hscope]

/-- `requireOrgPermission` allows a user by a grant in the active organization only. -/
theorem allowed_member_iff (hfits : Fits cfg.rows) (h : Reachable (access cfg).program.system w)
    (hsound : CacheSound cfg w.shared) (hd : Decides cfg w input auth allowed)
    (hscope : input.scope = .organization) :
    ∃ organizationId, ActiveIn w.shared.db.rows input.claims (some organizationId) ∧
      (allowed = true ↔
        MemberGrant cfg w.shared.db.rows input.claims.userId organizationId input.code) := by
  obtain ⟨hauth, rfl⟩ := decided_eq h hsound hd
  obtain ⟨⟨organizationId, epoch⟩, horganization⟩ :=
    Option.ne_none_iff_exists'.mp (hauth.organization hscope)
  have hactive := hauth.active
  rw [horganization] at hactive
  refine ⟨organizationId, hactive, ?_⟩
  rw [← hauth.userId, ← hasOrganizationGrant_iff (fits hfits h)]
  simp [granted, hscope, horganization]

/-- **Platform grants and organization grants are separate.** In a state of any run, with a cache that
is empty or says what the database says, a request behind `requirePermission` is allowed exactly if
the user has a platform grant, and one behind `requireOrgPermission` exactly if he has a grant in the
active organization. In a state of another run that agrees on these rows, the decision is the same. -/
theorem scopes_separate (hcfg : cfg'.permissions = cfg.permissions) (hfits : Fits cfg.rows)
    (hfits' : Fits cfg'.rows) {w w' : AccessWorld} (h : Reachable (access cfg).program.system w)
    (h' : Reachable (access cfg').program.system w')
    (hcache : (∀ key, w.shared.memory key = none) ∨ CacheSound cfg w.shared)
    (hcache' : (∀ key, w'.shared.memory key = none) ∨ CacheSound cfg' w'.shared)
    {input input' : GuardedRequest} {auth auth' : Authenticated} {allowed allowed' : Bool}
    (hd : Decides cfg w input auth allowed) (hd' : Decides cfg' w' input' auth' allowed')
    (huser : input'.claims.userId = input.claims.userId) (hcode : input'.code = input.code)
    (hscope : input'.scope = input.scope) :
    (input.scope = .global →
      (allowed = true ↔ PlatformGrant cfg w.shared.db.rows input.claims.userId input.code) ∧
      (SamePlatform w.shared.db.rows w'.shared.db.rows input.claims.userId input.code →
        allowed' = allowed)) ∧
    (input.scope = .organization → ∃ organizationId,
      ActiveIn w.shared.db.rows input.claims (some organizationId) ∧
      (allowed = true ↔
        MemberGrant cfg w.shared.db.rows input.claims.userId organizationId input.code) ∧
      (ActiveIn w'.shared.db.rows input'.claims (some organizationId) →
        SameMember w.shared.db.rows w'.shared.db.rows input.claims.userId organizationId input.code →
          allowed' = allowed)) := by
  have hsound : CacheSound cfg w.shared := hcache.elim cacheSound_of_empty id
  have hsound' : CacheSound cfg' w'.shared := hcache'.elim cacheSound_of_empty id
  constructor
  · intro hglobal
    have hiff := allowed_platform_iff h hsound hd hglobal
    refine ⟨hiff, fun hsame => ?_⟩
    have hiff' := allowed_platform_iff h' hsound' hd' (hscope.trans hglobal)
    rw [huser, hcode, hsame.grant_iff hcfg] at hiff'
    exact Bool.eq_iff_iff.mpr (hiff'.trans hiff.symm)
  · intro horganization
    obtain ⟨organizationId, hactive, hiff⟩ := allowed_member_iff hfits h hsound hd horganization
    refine ⟨organizationId, hactive, hiff, fun hactive' hsame => ?_⟩
    obtain ⟨other, hother, hiff'⟩ :=
      allowed_member_iff hfits' h' hsound' hd' (hscope.trans horganization)
    obtain rfl : other = organizationId := by
      obtain ⟨session, hsession, hid⟩ := hactive'
      obtain ⟨session', hsession', hid'⟩ := hother
      obtain rfl := some.inj (hsession.symm.trans hsession')
      exact some.inj (hid'.symm.trans hid)
    rw [huser, hcode, hsame.grant_iff hcfg] at hiff'
    exact Bool.eq_iff_iff.mpr (hiff'.trans hiff.symm)

/-! ### An example -/

instance (w : AccessWorld) (i : ℕ) (input : GuardedRequest) (auth : Authenticated) (allowed : Bool) :
    Decidable (Decided w i input auth allowed) :=
  decidable_of_iff ((w.proc? i).map Caller.pc = some (.guarded input (.decided auth allowed)))
    Option.map_eq_some_iff

theorem decides_of_exec {w w₁ : AccessWorld} (labels : List AccessLabel)
    (hspawn : (access cfg).program.next w (.spawn (.guarded input)) = some w₁)
    (h : (exec (access cfg).program.system (Alone w.fresh) w₁ labels).any
      (fun w₂ => decide (Decided w₂ w.fresh input auth allowed)) = true) :
    Decides cfg w input auth allowed := by
  obtain ⟨w₂, hexec, hdecided⟩ := (Option.any_eq_true _ _).mp h
  exact ⟨w₁, w₂, hspawn, path_of_exec .refl hexec, of_decide_eq_true hdecided⟩

def exampleWorld (mode : TenancyMode) : AccessWorld := ⟨(access (exampleConfig mode)).program.init, []⟩

/-- An owner updates the active organization of a session. -/
def exampleRequest (scope : Scope) : GuardedRequest := ⟨⟨0, 0⟩, scope, "organizations.update"⟩

def exampleAuth : Authenticated := ⟨0, 0, some (0, 0)⟩

/-- An owner may update the organization, in single mode as in multi-tenant mode. -/
theorem scopes_separate_owner : ∃ organizationId,
    ActiveIn exampleRows ⟨0, 0⟩ (some organizationId) ∧
      MemberGrant (exampleConfig .single) exampleRows 0 organizationId "organizations.update" := by
  have hd (mode : TenancyMode) :
      Decides (exampleConfig mode) (exampleWorld mode) (exampleRequest .organization) exampleAuth
        true :=
    decides_of_exec (steps 0 7) rfl (by cases mode <;> decide)
  have hinit (mode : TenancyMode) :
      Reachable (access (exampleConfig mode)).program.system (exampleWorld mode) := .init rfl
  have hpermissions : (exampleConfig .multi).permissions = (exampleConfig .single).permissions := rfl
  have hempty (mode : TenancyMode) (key : CacheKey) :
      (exampleWorld mode).shared.memory key = none := rfl
  obtain ⟨-, h⟩ := scopes_separate hpermissions (example_fits .single) (example_fits .multi)
    (hinit .single) (hinit .multi) (.inl (hempty .single)) (.inl (hempty .multi)) (hd .single)
    (hd .multi) rfl rfl rfl
  obtain ⟨organizationId, hactive, hiff, -⟩ := h rfl
  exact ⟨organizationId, hactive, hiff.mp rfl⟩

end BackendFoundation.Access.Scopes
