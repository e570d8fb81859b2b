import BackendFoundation.Access.Epochs

/-! # Decisions in the cache

A decision stands in the cache under the permission epochs that the request has read before its query
for the grants. So an allowance says what the grants say, as long as the epochs are those of the rows
(`Fact`), in every run in which no update of a global role misses a user who has the role (`misses`).
In such a run a request that begins after a commit is not allowed by what the grants were before it
(`allowed_granted`).

An update of a global role misses those who have it by a membership: `outlived`. -/

namespace BackendFoundation.Access.CachedGrants

open Lib.Database Lib.WriteLog Lib.Schema Lib.Services Lib.Logs Lib.Interleave Lib.Runs Lib.Transact
open Errors Organizations.Model Organizations.Log
open Organizations.Login (TenancyMode)
open Access.Model Access.Log Access.Commits Access.Roles Access.Holders Access.Scopes Access.Epochs
open Option (some.inj map_eq_some_iff)

/-- The users who have the role, on the platform or by an active membership. -/
def holdersOf (rows : AccessRows) (keys : List AccessKey) (roleId : ℕ) : List ℕ :=
  roleHolders rows keys roleId ++
    (findMany rows keys (.inl .membership) fun (_ : ℕ × ℕ) (membership : Membership) =>
      activeMember membership ∧ membership.roleId = roleId).map fun found => found.1.2

/-- The commit takes a permission from a role, and one of the users who have the role is not among
those whose epochs it increments. -/
def misses (cfg : AccessConfig) (s : Store AccessRowOf PermissionCache)
    (call : Caller AccessRowOf AccessPc) : Bool :=
  match call.pc with
  | .updateRole input (.commit change (.holders userIds)) =>
    change.toRemove.any (fun code => holdsCode cfg s.db.rows input.roleId code) ∧
      (holdersOf s.db.rows s.db.keys input.roleId).any fun userId =>
        userId ∉ userIds ∧ (s.db.rows (userKey userId)).any User.live
  | _ => false

/-- The step is the commit of an update of a role that misses a user. -/
abbrev Misses (cfg : AccessConfig) : AccessWorld → AccessLabel → Prop :=
  CommitsAt fun s call => misses cfg s call = true

/-- An allowance says what the grants say, as long as the epochs are those of the rows and the user is
not deleted. -/
structure Fact (cfg : AccessConfig) (rows : AccessRows) (scope : Scope) (auth : Authenticated)
    (code : String) : Prop where
  reached : Reached rows auth
  granted : Current rows auth → LiveUser rows auth.userId → Granted cfg rows scope auth code

/-- What a request has found at a program point. -/
def RequestFact (cfg : AccessConfig) (rows : AccessRows) (input : GuardedRequest) : RequestPc → Prop
  | .findSession | .findUser _ | .decided .. => True
  | .findOrganization permissionEpoch _ => Reached rows ⟨input.claims.userId, permissionEpoch, none⟩
  | .findMembership permissionEpoch organizationId organizationEpoch =>
    Reached rows ⟨input.claims.userId, permissionEpoch, some (organizationId, organizationEpoch)⟩
  | .readCache auth => Reached rows auth
  | .findGlobalGrant auth => Reached rows auth ∧ input.scope ≠ .organization
  | .findOrganizationGrant auth => Reached rows auth ∧ input.scope ≠ .global
  | .store auth allowed => allowed = true → Fact cfg rows input.scope auth input.code

def CallFact (cfg : AccessConfig) (rows : AccessRows) : AccessPc → Prop
  | .guarded input pc => RequestFact cfg rows input pc
  | _ => True

variable {cfg : AccessConfig} {pc pc' : AccessPc} {rows rows' : AccessRows} {scope : Scope}
  {auth : Authenticated} {code : String} {input : GuardedRequest} {site : Site AccessKey}
  {reply : Reply AccessRowOf}

/-! ### Commits -/

theorem mem_holdersOf {keys : List AccessKey} {roleId userId : ℕ}
    (hlisted : ∀ k, rows k ≠ none → k ∈ keys) (h : HoldsRole rows roleId userId) :
    userId ∈ holdersOf rows keys roleId := by
  have hmem {k : AccessKey} {row : AccessRowOf k} (hrow : rows k = some row) : k ∈ keys :=
    hlisted k (by rw [hrow]; exact Option.some_ne_none _)
  rcases h with ⟨userRole, hrow, hlive⟩ | ⟨organizationId, membership, hrow, hactive, hrole⟩
  · refine List.mem_append_left _ (List.mem_map.mpr ⟨((userId, roleId), userRole), ?_, rfl⟩)
    exact mem_findMany.mpr ⟨hmem hrow, hrow, decide_eq_true ⟨rfl, hlive⟩⟩
  · refine List.mem_append_right _ (List.mem_map.mpr ⟨((organizationId, userId), membership), ?_, rfl⟩)
    exact mem_findMany.mpr ⟨hmem hrow, hrow, decide_eq_true ⟨hactive, hrole⟩⟩

/-- A commit that misses nobody has found all users from whom it takes a permission. -/
theorem complete_of_not_misses {s : Store AccessRowOf PermissionCache}
    {call : Caller AccessRowOf AccessPc} (hlisted : s.db.Listed) (h : misses cfg s call ≠ true)
    {input : UpdateRolePermissions} {change : RoleChange} {holders : List ℕ}
    (hpc : call.pc = .updateRole input (.commit change (.holders holders))) {code : String}
    (hcode : code ∈ change.toRemove) (hholds : holdsCode cfg s.db.rows input.roleId code = true)
    {userId : ℕ} (hlive : LiveUser s.db.rows userId)
    (hrole : HoldsRole s.db.rows input.roleId userId) : userId ∈ holders := by
  by_contra hmissed
  refine h ?_
  unfold misses
  rw [hpc]
  refine decide_eq_true ⟨List.any_eq_true.mpr ⟨code, hcode, hholds⟩, List.any_eq_true.mpr ?_⟩
  obtain ⟨user, hrow, huser⟩ := hlive
  refine ⟨userId, mem_holdersOf hlisted hrole, decide_eq_true ⟨hmissed, ?_⟩⟩
  rw [hrow]
  exact huser

theorem Fact.commit (h : Fact cfg rows scope auth code) (hinf : Informed cfg pc rows rows') :
    Fact cfg rows' scope auth code where
  reached := h.reached.commit hinf.wrote
  granted hcurrent hlive := granted_kept hinf h.reached hcurrent hlive
    (h.granted (current_before h.reached hinf.wrote hcurrent) (hlive.before hinf.wrote))

theorem CallFact.commit (h : CallFact cfg rows pc') (hinf : Informed cfg pc rows rows') :
    CallFact cfg rows' pc' := by
  cases pc' with
  | guarded input pc =>
    cases pc with
    | findSession | findUser | decided => trivial
    | findOrganization | findMembership | readCache => exact Reached.commit h hinf.wrote
    | findGlobalGrant | findOrganizationGrant => exact ⟨h.1.commit hinf.wrote, h.2⟩
    | store auth allowed => exact fun hallowed => (h hallowed).commit hinf
  | _ => trivial

/-! ### Queries -/

theorem enterGuard_fact {next : RequestPc} (h : enterGuard input auth = .ok next)
    (hreached : Reached rows auth) : RequestFact cfg rows input next := by
  unfold enterGuard at h
  split_ifs at h
  obtain rfl := Except.ok.inj h
  exact hreached

theorem authenticate_fact {now : ℕ} {pc pc' : RequestPc} (h : RequestFact cfg rows input pc)
    (hnext : authenticateNext now input rows pc = some (.ok pc')) :
    RequestFact cfg rows input pc' := by
  unfold authenticateNext at hnext
  split at hnext
  · have hnext := some.inj hnext
    split at hnext
    · cases hnext
    · obtain rfl := Except.ok.inj hnext
      trivial
  · have hnext := some.inj hnext
    split at hnext
    · cases hnext
    · next user huser =>
      have hreached : Reached rows ⟨input.claims.userId, user.permissionEpoch, none⟩ :=
        ⟨⟨user, huser, Nat.le_refl _⟩, nofun⟩
      split at hnext
      · exact enterGuard_fact hnext hreached
      · obtain rfl := Except.ok.inj hnext
        exact hreached
  · have hnext := some.inj hnext
    split at hnext
    · cases hnext
    · next organization horganization =>
      obtain rfl := Except.ok.inj hnext
      obtain ⟨hrow, -⟩ := Option.filter_eq_some_iff.mp horganization
      refine ⟨h.user, fun found hfound => ?_⟩
      obtain rfl := some.inj hfound
      exact ⟨organization, hrow, Nat.le_refl _⟩
  · split_ifs at hnext
    · exact enterGuard_fact (some.inj hnext) h
    · cases hnext
  · cases hnext

/-- What `permissionGuard` stores is what the grants say then. -/
theorem guard_fact {keys : List AccessKey} {pc pc' : RequestPc}
    (hlisted : ∀ k, rows k ≠ none → k ∈ keys) (h : RequestFact cfg rows input pc)
    (hnext : guardNext cfg keys input rows pc = some (.ok pc')) :
    (∃ auth, pc = .findGlobalGrant auth ∧ pc' = .findOrganizationGrant auth ∧ Reached rows auth ∧
      input.scope ≠ .global) ∨ ∃ auth allowed, pc' = .store auth allowed ∧ Reached rows auth ∧
        (allowed = true → Granted cfg rows input.scope auth input.code) := by
  unfold guardNext at hnext
  split at hnext
  · next auth =>
    obtain ⟨hreached, hscope⟩ := h
    obtain rfl := point_inj hnext
    split_ifs with hglobal hnext
    · exact .inr ⟨auth, true, rfl, hreached,
        fun _ => .inl ⟨hscope, (hasGlobalGrant_iff hlisted).mp hglobal⟩⟩
    · exact .inl ⟨auth, rfl, rfl, hreached, hnext.1⟩
    · exact .inr ⟨auth, false, rfl, hreached, nofun⟩
  · next auth =>
    obtain ⟨hreached, hscope⟩ := h
    obtain rfl := point_inj hnext
    refine .inr ⟨auth, _, rfl, hreached, fun hallowed => .inr ⟨hscope, ?_⟩⟩
    exact (Option.any_eq_true _ _).mp hallowed
  · cases hnext

theorem request_fact {pc pc' : RequestPc} (hlisted : ∀ k, rows k ≠ none → k ∈ site.keys)
    (h : RequestFact cfg rows input pc)
    (hnext : requestNext cfg site input pc (.rows rows) = some (.ok pc')) :
    RequestFact cfg rows input pc' := by
  unfold requestNext at hnext
  dsimp only at hnext
  split at hnext
  · next result hresult =>
    obtain rfl := some.inj hnext
    exact authenticate_fact h hresult
  · rcases guard_fact hlisted h hnext with ⟨auth, rfl, rfl, hfact⟩ |
      ⟨auth, allowed, rfl, hreached, hgranted⟩
    · exact hfact
    · exact fun hallowed => ⟨hreached, fun _ _ => hgranted hallowed⟩

theorem requestNext_rows {pc pc' : RequestPc}
    (hnext : requestNext cfg site input pc reply = some (.ok pc')) : ∃ rows, reply = .rows rows := by
  cases reply with
  | rows rows => exact ⟨rows, rfl⟩
  | count | done => cases hnext

/-! ### The invariant -/

/-- Every allowance in the cache, and every one that a request is about to store, is a fact. -/
def claims (cfg : AccessConfig) : Claims AccessRowOf AccessPc PermissionCache where
  shared v := ∀ scope auth code, v.memory ⟨scope, auth, code⟩ = some true →
    Fact cfg v.rows scope auth code
  call _ _ call v := CallFact cfg v.rows call.pc

/-- What the call knows, and that its commit misses nobody. -/
structure Knows (cfg : AccessConfig) (s : Store AccessRowOf PermissionCache) (i : ℕ)
    (call : Caller AccessRowOf AccessPc) (c : Choice Thrown) : Prop where
  fits : Fits s.db.rows
  found : RoleFound s.db.rows call.pc
  holders : Holders.claims.call i (s.db.aborted i) call s.view
  complete : commits s.db i .commit c.fate = true → misses cfg s call ≠ true

theorem callFact_of_other (h : callOf pc ≠ some .guarded) : CallFact cfg rows pc := by
  cases pc with
  | guarded => exact absurd rfl h
  | _ => trivial

theorem start_fact {now : ℕ} {request : AccessRequest} :
    CallFact cfg rows (accessStart cfg now request) := by
  cases request with
  | organization request =>
    refine callFact_of_other ?_
    rcases @enter_goesOn (startPc (cfg.organizations noRoles) now request) with hended | hsame
    · simp [accessStart, hended]
    · simp [accessStart, hsame]
  | backfill input =>
    unfold accessStart
    dsimp only
    split_ifs <;> trivial
  | _ => trivial

section At

variable {s : Store AccessRowOf PermissionCache} {i : ℕ} {call : Caller AccessRowOf AccessPc}
  {a : Claims AccessRowOf AccessPc PermissionCache} {c : Choice Thrown}

theorem Knows.informed (h : Knows cfg s i call c) (hat : a.At (access cfg) (accessNotes cfg) s i call)
    (hstmt : accessStmt cfg call.pc = some .commit) (hcommits : commits s.db i .commit c.fate = true)
    (hrows : rows = call.tx.writes.read s.db.rows)
    (hwrote : ∀ k, (accessNotes cfg).wrote call.pc k (s.db.rows k) (rows k)) :
    Informed cfg call.pc s.db.rows rows where
  wrote := ⟨accessCommit_of_stmt hstmt, hwrote⟩
  fits := h.fits
  found := h.found
  own := h.holders.1
  taken input change holders hpc id hmem user hrow hlive := by
    rw [hrows]
    exact holders_incremented hat.point h.holders (thrown_of_commits hcommits).2 hpc hmem hrow hlive
  complete input change holders hpc code hcode hholds userId hlive hrole :=
    complete_of_not_misses hat.listed (h.complete hcommits) hpc hcode hholds hlive hrole

theorem query_found (hat : a.At (access cfg) (accessNotes cfg) s i call)
    (hlive : s.db.aborted i = false) {pc : RequestPc} (hpc : call.pc = .guarded input pc)
    {stmt : AccessStmt} (hstmt : accessStmt cfg call.pc = some stmt) {db : Db AccessRowOf}
    {tx : Tx AccessRowOf} (hs : exec s.db i call.tx stmt = some (db, .replied tx (.rows rows))) :
    rows = s.db.rows := by
  obtain rfl := read_of_rows hs
  refine hat.found hlive hstmt (fun k before after h => ?_) hs
  change Entry.inTurn (accessWritten cfg call.pc) k before after at h
  rw [hpc] at h
  exact h

theorem query_listed (hat : a.At (access cfg) (accessNotes cfg) s i call) :
    ∀ k, s.db.rows k ≠ none → k ∈ (s.site c).keys := hat.listed

theorem claims_replied (hat : (claims cfg).At (access cfg) (accessNotes cfg) s i call)
    (hlive : s.db.aborted i = false) {stmt : AccessStmt}
    (hstmt : accessStmt cfg call.pc = some stmt) {db : Db AccessRowOf} {tx : Tx AccessRowOf}
    (hs : exec s.db i call.tx stmt = some (db, .replied tx reply))
    (hnext : accessNext cfg (s.site c) call.pc reply = some (.ok pc')) :
    CallFact cfg s.db.rows pc' := by
  by_cases hcall : callOf call.pc = some .guarded
  · have hfact := hat.call
    cases hpc : call.pc with
    | guarded input pc =>
      rw [hpc] at hnext
      change CallFact cfg s.db.rows call.pc at hfact
      rw [hpc] at hfact
      obtain ⟨next, hrequest, rfl⟩ := ok_of_mapNext hnext
      obtain ⟨rows, rfl⟩ := requestNext_rows hrequest
      obtain rfl := query_found hat hlive hpc hstmt hs
      exact request_fact (query_listed hat) hfact hrequest
    | _ =>
      rw [hpc] at hcall
      cases hcall
  · rcases callOf_next hnext with hended | hsame
    · exact callFact_of_other (by simp [hended])
    · exact callFact_of_other (hsame ▸ hcall)

theorem outside_fact {pick : ℕ} {cache cache' : PermissionCache} {pc pc' : RequestPc}
    (hcache : ∀ scope auth code, cache ⟨scope, auth, code⟩ = some true → Fact cfg rows scope auth code)
    (h : RequestFact cfg rows input pc)
    (hout : requestOutside pick cache input pc = some (cache', pc')) :
    (∀ scope auth code, cache' ⟨scope, auth, code⟩ = some true → Fact cfg rows scope auth code) ∧
      RequestFact cfg rows input pc' := by
  unfold requestOutside at hout
  split at hout
  · next auth =>
    obtain ⟨rfl, rfl⟩ := pair_inj hout
    refine ⟨hcache, ?_⟩
    split
    · trivial
    · unfold RequestPc.findGrant
      split_ifs with hscope
      · exact ⟨h, by simp [hscope]⟩
      · exact ⟨h, hscope⟩
  · next auth allowed =>
    obtain ⟨rfl, rfl⟩ := pair_inj hout
    refine ⟨fun scope auth' code hcached => ?_, trivial⟩
    split_ifs at hcached
    · by_cases hkey : (⟨scope, auth', code⟩ : CacheKey) = permissionCacheKey input auth
      · rw [hkey, Function.update_self] at hcached
        obtain ⟨rfl, rfl, rfl⟩ := CacheKey.mk.inj hkey
        exact h (some.inj hcached)
      · rw [Function.update_of_ne hkey] at hcached
        exact hcache _ _ _ hcached
    · exact hcache _ _ _ hcached
  · cases hout

end At

theorem event_cached {cache cache' : PermissionCache} {key key' : CacheKey}
    (h : (access cfg).event cache key = some cache') (hcached : cache' key' = some true) :
    cache key' = some true := by
  obtain rfl := some.inj h
  by_cases he : key' = key
  · rw [he, Function.update_self] at hcached
    cases hcached
  · rwa [Function.update_of_ne he] at hcached

theorem invariant : Invariant (access cfg) (accessNotes cfg) (Knows cfg) (claims cfg) where
  init _ _ _ h := by cases h
  tick _ _ := ⟨fun h => h, fun _ _ _ h => h⟩
  abort _ _ _ h := h
  event v key m hm :=
    ⟨fun h scope auth code hcached => h scope auth code (event_cached hm hcached), fun _ _ _ h => h⟩
  start _ _ _ _ _ _ := start_fact
  thrown _ _ _ _ _ := trivial
  running _ _ _ _ _ _ _ _ hat _ _ _ _ := hat.call
  replied s i call c stmt db tx reply pc hat _ hstmt _ hs hlive hnext :=
    claims_replied hat hlive hstmt hs hnext
  outside s i call c m pc hat _ _ hout := by
    have hfact : CallFact cfg s.db.rows call.pc := hat.call
    cases hpc : call.pc with
    | guarded input pc =>
      rw [hpc] at hout hfact
      obtain ⟨next, hrequest, rfl⟩ := map_pair_inj hout
      obtain ⟨hcache, hnext⟩ := outside_fact hat.shared hfact hrequest
      exact ⟨hcache, hnext, fun _ _ _ _ h => h⟩
    | _ =>
      rw [hpc] at hout
      cases hout
  commit s i call c rows hat hm hstmt hcommits hrows hwrote := by
    have hinf := hm.informed hat hstmt hcommits hrows hwrote
    refine ⟨fun scope auth code hcached => (hat.shared scope auth code hcached).commit hinf,
      fun pc hnext => ?_, fun j callj _ _ h => CallFact.commit h hinf⟩
    obtain ⟨result, rfl⟩ := returned_of_accessCommit hinf.wrote.commit hnext
    trivial

variable {w : AccessWorld}

theorem stepsMeet_knows {l : AccessLabel} (hroles : Roles.claims.Holds w)
    (hholders : Holders.claims.Holds w) (hno : ¬ Misses cfg w l) : StepsMeet (Knows cfg) w l := by
  cases l with
  | step i c =>
    intro call hp
    exact ⟨hroles.1, (hroles.2 i call hp).2, hholders.2 i call hp,
      fun hcommits hmisses => hno ⟨hcommits, call, hp, hmisses⟩⟩
  | _ => trivial

/-- Every allowance is a fact, in every run in which no commit misses a user. -/
theorem facts_hold (hfits : Fits cfg.rows)
    (h : ReachableBy (access cfg).program.system (fun w l => ¬ Misses cfg w l) w) :
    (claims cfg).Holds w := by
  have hstrong := h.strengthen (I := fun w => Roles.claims.Holds w ∧ Holders.claims.Holds w)
    fun w hw => ⟨Roles.claims_hold hfits hw.reachable, Holders.claims_hold hw.reachable⟩
  have hknows : ReachableBy (access cfg).program.system (StepsMeet (Knows cfg)) w :=
    hstrong.mono fun w l hg => stepsMeet_knows hg.2.1 hg.2.2 hg.1
  exact invariant.holds accessFollows hknows

/-! ### From a state on -/

/-- The rows have come from those before: no epoch has gone back, and no user has come back. -/
structure Since (before rows : AccessRows) : Prop where
  user : ∀ id (user : User), before (userKey id) = some user → ∃ user' : User,
    rows (userKey id) = some user' ∧ user.permissionEpoch ≤ user'.permissionEpoch
  organization : ∀ id (organization : Organization), before (organizationKey id) = some organization →
    ∃ organization' : Organization, rows (organizationKey id) = some organization' ∧
      organization.permissionEpoch ≤ organization'.permissionEpoch
  live : ∀ id, LiveUser rows id → LiveUser before id

/-- The epochs were reached before, and are not the last ones. -/
structure Old (before : AccessRows) (auth : Authenticated) : Prop where
  reached : Reached before auth
  stale : LiveUser before auth.userId → ¬ Current before auth

/-- The epochs have been read since, of a user who was not deleted. -/
structure ReadSince (before : AccessRows) (auth : Authenticated) : Prop where
  live : LiveUser before auth.userId
  user : ∀ user : User, before (userKey auth.userId) = some user →
    user.permissionEpoch ≤ auth.permissionEpoch
  organization : ∀ organization ∈ auth.organization, ∀ row : Organization,
    before (organizationKey organization.1) = some row → row.permissionEpoch ≤ organization.2

variable {before : AccessRows} {auth' : Authenticated}

theorem Since.refl : Since before before :=
  ⟨fun _ user h => ⟨user, h, Nat.le_refl _⟩, fun _ row h => ⟨row, h, Nat.le_refl _⟩, fun _ h => h⟩

theorem Since.commit (h : Since before rows) (hw : Wrote cfg pc rows rows') : Since before rows' where
  user id user hrow := by
    obtain ⟨user', hrow', hle⟩ := h.user id user hrow
    obtain ⟨user'', hrow'', hle'⟩ := user_epoch_le hw hrow'
    exact ⟨user'', hrow'', hle.trans hle'⟩
  organization id organization hrow := by
    obtain ⟨organization', hrow', hle⟩ := h.organization id organization hrow
    obtain ⟨organization'', hrow'', hle'⟩ := organization_epoch_le hw hrow'
    exact ⟨organization'', hrow'', hle.trans hle'⟩
  live id hlive := h.live id (hlive.before hw)

theorem Old.not_readSince (h : Old before auth) (hread : ReadSince before auth) : False := by
  refine h.stale hread.live ⟨?_, fun organization hmem => ?_⟩
  · obtain ⟨user, hrow, hle⟩ := h.reached.user
    exact ⟨user, hrow, Nat.le_antisymm hle (hread.user user hrow)⟩
  · obtain ⟨row, hrow, hle⟩ := h.reached.organization organization hmem
    exact ⟨row, hrow, Nat.le_antisymm hle (hread.organization organization hmem row hrow)⟩

/-- The user and the active organization are the same. -/
structure SameUser (auth auth' : Authenticated) : Prop where
  userId : auth'.userId = auth.userId
  organization : auth'.organization.map (·.1) = auth.organization.map (·.1)

theorem granted_same (h : Granted cfg rows scope auth' code) (hsame : SameUser auth auth') :
    Granted cfg rows scope auth code := by
  rcases h with ⟨hscope, hplatform⟩ | ⟨hscope, organization, hmem, hgrant⟩
  · exact .inl ⟨hscope, hsame.userId ▸ hplatform⟩
  · have hid : auth.organization.map (·.1) = some organization.1 := by
      rw [← hsame.organization, Option.mem_def.mp hmem]
      rfl
    obtain ⟨organization', hmem', he⟩ := map_eq_some_iff.mp hid
    refine .inr ⟨hscope, organization', hmem', ?_⟩
    rw [he, ← hsame.userId]
    exact hgrant

/-- What the request has read since, and that it is not allowed. -/
def RequestSince (before : AccessRows) (input : GuardedRequest) (auth : Authenticated) :
    RequestPc → Prop
  | .findSession => True
  | .findUser _ => LiveUser before input.claims.userId
  | .findOrganization permissionEpoch _ => ReadSince before ⟨input.claims.userId, permissionEpoch, none⟩
  | .findMembership permissionEpoch organizationId organizationEpoch =>
    ReadSince before ⟨input.claims.userId, permissionEpoch, some (organizationId, organizationEpoch)⟩
  | .readCache auth' | .findGlobalGrant auth' | .findOrganizationGrant auth' => ReadSince before auth'
  | .store auth' allowed | .decided auth' allowed => SameUser auth auth' → allowed = false

/-- The allowances that there are in the cache, and those that are about to be stored, are old ones;
the call `first` is the request. -/
def claimsSince (before : AccessRows) (first : ℕ) (input : GuardedRequest) (auth : Authenticated) :
    Claims AccessRowOf AccessPc PermissionCache where
  shared v := Since before v.rows ∧ ∀ auth', SameUser auth auth' →
    v.memory ⟨input.scope, auth', input.code⟩ = some true → Old before auth'
  call i _ call _ :=
    (∀ other auth', call.pc = .guarded other (.store auth' true) → other.scope = input.scope →
      other.code = input.code → SameUser auth auth' → Old before auth') ∧
    (i = first → ∀ pc, call.pc = .guarded input pc → RequestSince before input auth pc)

section Queries

variable {pc pc' : RequestPc}

theorem enterGuard_since (h : enterGuard input auth' = .ok pc') (hread : ReadSince before auth') :
    RequestSince before input auth pc' := by
  unfold enterGuard at h
  split_ifs at h
  obtain rfl := Except.ok.inj h
  exact hread

theorem authenticate_since {now : ℕ} (hsince : Since before rows)
    (h : RequestSince before input auth pc)
    (hnext : authenticateNext now input rows pc = some (.ok pc')) :
    RequestSince before input auth pc' := by
  unfold authenticateNext at hnext
  split at hnext
  · have hnext := some.inj hnext
    split at hnext
    · cases hnext
    · next session hsession =>
      obtain rfl := Except.ok.inj hnext
      obtain ⟨-, haccepts⟩ := Option.filter_eq_some_iff.mp hsession
      obtain ⟨-, -, -, -, hactive⟩ := of_decide_eq_true haccepts
      obtain ⟨user, hrow, hactive⟩ := (Option.any_eq_true _ _).mp hactive
      exact hsince.live _ ⟨user, hrow, (of_decide_eq_true hactive).2⟩
  · have hnext := some.inj hnext
    split at hnext
    · cases hnext
    · next user huser =>
      have hread : ReadSince before ⟨input.claims.userId, user.permissionEpoch, none⟩ := by
        refine ⟨h, fun old hold => ?_, nofun⟩
        obtain ⟨user', hrow, hle⟩ := hsince.user _ old hold
        obtain rfl := some.inj (hrow.symm.trans huser)
        exact hle
      split at hnext
      · exact enterGuard_since hnext hread
      · obtain rfl := Except.ok.inj hnext
        exact hread
  · have hnext := some.inj hnext
    split at hnext
    · cases hnext
    · next organization horganization =>
      obtain rfl := Except.ok.inj hnext
      obtain ⟨hrow, -⟩ := Option.filter_eq_some_iff.mp horganization
      refine ⟨h.live, h.user, fun found hfound old hold => ?_⟩
      obtain rfl := some.inj hfound
      obtain ⟨organization', hrow', hle⟩ := hsince.organization _ old hold
      obtain rfl := some.inj (hrow'.symm.trans hrow)
      exact hle
  · split_ifs at hnext
    · exact enterGuard_since (some.inj hnext) h
    · cases hnext
  · cases hnext

theorem guard_since {keys : List AccessKey} (hlisted : ∀ k, rows k ≠ none → k ∈ keys)
    (hno : ¬ Granted cfg rows input.scope auth input.code) (hfact : RequestFact cfg rows input pc)
    (h : RequestSince before input auth pc)
    (hnext : guardNext cfg keys input rows pc = some (.ok pc')) :
    RequestSince before input auth pc' := by
  rcases guard_fact hlisted hfact hnext with ⟨auth', rfl, rfl, -⟩ | ⟨auth', allowed, rfl, -, hgranted⟩
  · exact h
  · intro hsame
    by_contra hallowed
    exact hno (granted_same (hgranted (by simpa using hallowed)) hsame)

theorem request_since (hlisted : ∀ k, rows k ≠ none → k ∈ site.keys) (hsince : Since before rows)
    (hno : ¬ Granted cfg rows input.scope auth input.code) (hfact : RequestFact cfg rows input pc)
    (h : RequestSince before input auth pc)
    (hnext : requestNext cfg site input pc (.rows rows) = some (.ok pc')) :
    RequestSince before input auth pc' := by
  unfold requestNext at hnext
  dsimp only at hnext
  split at hnext
  · next result hresult =>
    obtain rfl := some.inj hnext
    exact authenticate_since hsince h hresult
  · exact guard_since hlisted hno hfact h hnext

theorem stored_granted (hlisted : ∀ k, rows k ≠ none → k ∈ site.keys)
    (hfact : RequestFact cfg rows input pc)
    (hnext : requestNext cfg site input pc (.rows rows) = some (.ok (.store auth true))) :
    Granted cfg rows input.scope auth input.code := by
  have hguard {auth' : Authenticated} : enterGuard input auth' ≠ .ok (.store auth true) := by
    unfold enterGuard
    split_ifs <;> exact nofun
  unfold requestNext at hnext
  dsimp only at hnext
  split at hnext
  · next result hresult =>
    obtain rfl := some.inj hnext
    exfalso
    unfold authenticateNext at hresult
    split at hresult
    · have hresult := some.inj hresult
      split at hresult <;> cases hresult
    · have hresult := some.inj hresult
      split at hresult
      · cases hresult
      · split at hresult
        · exact hguard hresult
        · cases hresult
    · have hresult := some.inj hresult
      split at hresult <;> cases hresult
    · split_ifs at hresult
      · exact hguard (some.inj hresult)
      · cases hresult
    · cases hresult
  · rcases guard_fact hlisted hfact hnext with ⟨auth', -, he, -⟩ | ⟨auth', allowed, he, -, hgranted⟩
    · cases he
    · obtain ⟨rfl, rfl⟩ := RequestPc.store.inj he
      exact hgranted rfl

theorem outside_since {pick : ℕ} {cache cache' : PermissionCache}
    (hcache : ∀ auth', SameUser auth auth' →
      cache ⟨input.scope, auth', input.code⟩ = some true → Old before auth')
    (h : RequestSince before input auth pc)
    (hout : requestOutside pick cache input pc = some (cache', pc')) :
    RequestSince before input auth pc' := by
  unfold requestOutside at hout
  split at hout
  · next auth' =>
    obtain ⟨rfl, rfl⟩ := pair_inj hout
    split
    · next allowed hcached =>
      intro hsame
      by_contra hallowed
      split_ifs at hcached
      obtain rfl : allowed = true := by simpa using hallowed
      exact (hcache auth' hsame hcached).not_readSince h
    · unfold RequestPc.findGrant
      split_ifs <;> exact h
  · obtain ⟨-, rfl⟩ := pair_inj hout
    exact h
  · cases hout

theorem cache_since {pick : ℕ} {cache cache' : PermissionCache} {other : GuardedRequest}
    (hcache : ∀ auth', SameUser auth auth' →
      cache ⟨input.scope, auth', input.code⟩ = some true → Old before auth')
    (hstores : ∀ auth', pc = .store auth' true → other.scope = input.scope →
      other.code = input.code → SameUser auth auth' → Old before auth')
    (hout : requestOutside pick cache other pc = some (cache', pc')) :
    (∀ auth', SameUser auth auth' →
      cache' ⟨input.scope, auth', input.code⟩ = some true → Old before auth') ∧
      ∀ auth', pc' ≠ .store auth' true := by
  unfold requestOutside at hout
  split at hout
  · next auth' =>
    obtain ⟨rfl, rfl⟩ := pair_inj hout
    refine ⟨hcache, fun auth'' => ?_⟩
    split
    · exact nofun
    · unfold RequestPc.findGrant
      split_ifs <;> exact nofun
  · next stored allowed =>
    obtain ⟨rfl, rfl⟩ := pair_inj hout
    refine ⟨fun auth' hsame hcached => ?_, nofun⟩
    split_ifs at hcached
    · by_cases hkey : (⟨input.scope, auth', input.code⟩ : CacheKey) = permissionCacheKey other stored
      · rw [hkey, Function.update_self] at hcached
        obtain rfl := some.inj hcached
        obtain ⟨hscope, rfl, hcode⟩ := CacheKey.mk.inj hkey
        exact hstores _ rfl hscope.symm hcode.symm hsame
      · rw [Function.update_of_ne hkey] at hcached
        exact hcache _ hsame hcached
    · exact hcache _ hsame hcached
  · cases hout

end Queries

/-- What is known in a run in which the grants are not there. -/
structure Lacks (cfg : AccessConfig) (input : GuardedRequest) (auth : Authenticated)
    (s : Store AccessRowOf PermissionCache) (_ : ℕ) (call : Caller AccessRowOf AccessPc)
    (_ : Choice Thrown) : Prop where
  lacks : ¬ Granted cfg s.db.rows input.scope auth input.code
  fact : CallFact cfg s.db.rows call.pc

theorem start_guarded {now : ℕ} {request : AccessRequest} {pc : RequestPc}
    (h : accessStart cfg now request = .guarded input pc) : pc = .findSession := by
  cases request with
  | guarded input => exact (AccessPc.guarded.inj h).2.symm
  | organization request =>
    rcases @enter_goesOn (startPc (cfg.organizations noRoles) now request) with hended | hsame
    · rw [show enter _ = _ from h] at hended
      cases hended
    · rw [show enter _ = _ from h] at hsame
      cases hsame
  | backfill input =>
    unfold accessStart at h
    dsimp only at h
    split_ifs at h
  | _ => cases h

theorem guarded_next {pc' : RequestPc}
    (h : accessNext cfg site pc reply = some (.ok (.guarded input pc'))) :
    ∃ pc₀ rows, pc = .guarded input pc₀ ∧ reply = .rows rows ∧
      requestNext cfg site input pc₀ (.rows rows) = some (.ok pc') := by
  rcases callOf_next h with hended | hsame
  · cases hended
  · cases pc with
    | guarded other pc₀ =>
      obtain ⟨next, hrequest, he⟩ := ok_of_mapNext h
      obtain ⟨rfl, rfl⟩ := AccessPc.guarded.inj he
      obtain ⟨rows, rfl⟩ := requestNext_rows hrequest
      exact ⟨pc₀, rows, rfl, rfl, hrequest⟩
    | _ => cases hsame

/-- **From a state on**, allowances that are not granted are old ones. -/
theorem preserved {first : ℕ} {start : ℕ} (hstart : first < start) :
    Preserved (access cfg) (accessNotes cfg) (Lacks cfg input auth)
      (claimsSince before first input auth) start where
  tick _ _ := ⟨fun h => h, fun _ _ _ h => h⟩
  abort _ _ _ h := h
  event v key m hm :=
    ⟨fun h => ⟨h.1, fun auth' hsame hcached => h.2 auth' hsame (event_cached hm hcached)⟩,
      fun _ _ _ h => h⟩
  start i b v request hi _ := by
    refine ⟨fun other auth' hpc => ?_, fun he => ?_⟩
    · cases start_guarded hpc
    · omega
  thrown _ _ _ _ _ := ⟨nofun, fun _ _ => nofun⟩
  running _ _ _ _ _ _ _ _ hat _ _ _ _ := hat.call
  replied s i call c stmt db tx reply pc hat hm hstmt _ hs hlive hnext := by
    constructor
    · rintro other auth' rfl hscope hcode hsame
      obtain ⟨pc₀, rows, hpc, rfl, hrequest⟩ := guarded_next hnext
      obtain rfl := query_found hat hlive hpc hstmt hs
      have hfact := hm.fact
      rw [hpc] at hfact
      have hgranted := stored_granted (query_listed hat) hfact hrequest
      rw [hscope, hcode] at hgranted
      exact absurd (granted_same hgranted hsame) hm.lacks
    · rintro rfl pc rfl
      obtain ⟨pc₀, rows, hpc, rfl, hrequest⟩ := guarded_next hnext
      obtain rfl := query_found hat hlive hpc hstmt hs
      have hfact := hm.fact
      rw [hpc] at hfact
      have hold := hat.call.2 rfl pc₀ hpc
      exact request_since (query_listed hat) hat.shared.1 hm.lacks hfact hold hrequest
  outside s i call c m pc hat hm _ hout := by
    cases hpc : call.pc with
    | guarded other pc₀ =>
      rw [hpc] at hout
      obtain ⟨next, hrequest, rfl⟩ := map_pair_inj hout
      obtain ⟨hcache, hstores⟩ := cache_since hat.shared.2
        (fun auth' he => hat.call.1 other auth' (he ▸ hpc)) hrequest
      refine ⟨⟨hat.shared.1, hcache⟩, ⟨fun other' auth' he => ?_, fun hfirst pc he => ?_⟩,
        fun _ _ _ _ h => h⟩
      · exact absurd (AccessPc.guarded.inj he).2 (hstores auth')
      · obtain ⟨rfl, rfl⟩ := AccessPc.guarded.inj he
        exact outside_since hat.shared.2 (hat.call.2 hfirst pc₀ hpc) hrequest
    | _ =>
      rw [hpc] at hout
      cases hout
  commit s i call c rows hat _ hstmt _ _ hwrote := by
    have hw : Wrote cfg call.pc s.db.rows rows := ⟨accessCommit_of_stmt hstmt, hwrote⟩
    refine ⟨⟨hat.shared.1.commit hw, hat.shared.2⟩, fun pc hnext => ?_, fun _ _ _ _ h => h⟩
    obtain ⟨result, rfl⟩ := returned_of_accessCommit hw.commit hnext
    exact ⟨nofun, fun _ _ => nofun⟩

theorem claimsSince_of_lacks (hfacts : (claims cfg).Holds w)
    (hlacks : ¬ Granted cfg w.shared.db.rows input.scope auth input.code) {i : ℕ}
    {call : Caller AccessRowOf AccessPc} (hp : w.proc? i = some call)
    (hpc : call.pc = .guarded input .findSession) :
    (claimsSince w.shared.db.rows i input auth).Holds w := by
  have hold {auth' : Authenticated} (hsame : SameUser auth auth')
      (hfact : Fact cfg w.shared.db.rows input.scope auth' input.code) :
      Old w.shared.db.rows auth' :=
    ⟨hfact.reached, fun hlive hcurrent =>
      hlacks (granted_same (hfact.granted hcurrent hlive) hsame)⟩
  refine ⟨⟨.refl, fun auth' hsame hcached => hold hsame (hfacts.1 _ _ _ hcached)⟩,
    fun j callj hpj => ⟨fun other auth' he hscope hcode hsame => ?_, ?_⟩⟩
  · have hfact : CallFact cfg w.shared.db.rows callj.pc := hfacts.2 j callj hpj
    rw [he] at hfact
    have hfact : Fact cfg w.shared.db.rows other.scope auth' other.code := hfact rfl
    rw [hscope, hcode] at hfact
    exact hold hsame hfact
  · rintro rfl pc he
    obtain rfl := some.inj (hpj.symm.trans hp)
    obtain ⟨-, rfl⟩ := AccessPc.guarded.inj (hpc.symm.trans he)
    trivial

/-- **No allowance outlives the grants.** In a run in which no update of a role misses a user, a request
that begins in a state is not allowed if the grants do not allow it in that state or a later one. -/
theorem allowed_granted (hfits : Fits cfg.rows) {w₁ w₂ : AccessWorld}
    (h : ReachableBy (access cfg).program.system (fun w l => ¬ Misses cfg w l) w₁) {i : ℕ}
    {call : Caller AccessRowOf AccessPc} (hp : w₁.proc? i = some call)
    (hpc : call.pc = .guarded input .findSession)
    (hpath : Path (access cfg).program.system (fun w l => ¬ Misses cfg w l ∧
      granted cfg w.shared.db.rows w.shared.db.keys input.scope auth input.code = false) w₁ w₂) :
    ¬ Decided w₂ i input auth true := by
  rintro ⟨call₂, hp₂, hpc₂⟩
  have hlisted {w : AccessWorld} (hw : Reachable (access cfg).program.system w) : w.shared.db.Listed :=
    ((accessFollows.outline anyStep).holds hw).shared
  have hlacks {w : AccessWorld} (hw : Reachable (access cfg).program.system w)
      (hno : granted cfg w.shared.db.rows w.shared.db.keys input.scope auth input.code = false) :
      ¬ Granted cfg w.shared.db.rows input.scope auth input.code := by
    rw [← granted_iff (hlisted hw), hno]
    exact Bool.false_ne_true
  rcases hpath.first with rfl | ⟨l, -, hno⟩
  · obtain rfl := some.inj (hp.symm.trans hp₂)
    cases hpc.symm.trans hpc₂
  have hstart := claimsSince_of_lacks (facts_hold hfits h) (hlacks h.reachable hno) hp hpc
  have hstrong := hpath.strengthen (fun _ _ hg => hg.1)
    (I := fun w => (claims cfg).Holds w ∧ Reachable (access cfg).program.system w)
    (fun w hw => ⟨facts_hold hfits hw, hw.reachable⟩) h
  have hsince := (preserved (World.lt_fresh hp)).path accessFollows h.reachable hstart
    (hstrong.mono fun w l hg => by
      cases l with
      | step j c => exact fun callj hpj => ⟨hlacks hg.2.2 hg.1.2, hg.2.1.2 j callj hpj⟩
      | _ => trivial)
  have hdenied : SameUser auth auth → true = false := (hsince.2 i call₂ hp₂).2 rfl _ hpc₂
  cases hdenied ⟨rfl, rfl⟩

/-! ### Runs -/

/-- A request of the first owner to update the organization. -/
def exampleOwn : AccessLabel := .spawn (.guarded (exampleRequest .organization))

/-- A permission of the members is added and removed. After a change of his role to theirs an owner may
no longer update the organization. -/
theorem allowed_granted_changed : ∃ w : AccessWorld,
    Decided w 4 (exampleRequest .organization) ⟨0, 1, some (0, 0)⟩ false ∧
      ¬ Decided w 4 (exampleRequest .organization) ⟨0, 1, some (0, 0)⟩ true := by
  obtain ⟨w₁, w₂, h, hpath, hp, hd⟩ := (access (exampleConfig .multi)).program.exists_run
    (fun w l => ¬ Misses (exampleConfig .multi) w l)
    (fun w l => ¬ Misses (exampleConfig .multi) w l ∧
      granted (exampleConfig .multi) w.shared.db.rows w.shared.db.keys .organization ⟨0, 1, some (0, 0)⟩
        "organizations.update" = false)
    ([exampleOwn] ++ steps 0 7 ++
      [.spawn (.updateRolePermissions ⟨0, ["organizations.update"]⟩)] ++ steps 1 9 ++
      [.spawn (.updateRolePermissions ⟨0, []⟩)] ++ steps 2 9 ++
      [.spawn (.organization (.changeMemberRole ⟨0, 0, 0⟩))] ++ steps 3 12 ++ [exampleOwn])
    (steps 4 7)
    (fun w₁ w₂ => (w₁.proc? 4).map Caller.pc =
        some (.guarded (exampleRequest .organization) .findSession) ∧
      Decided w₂ 4 (exampleRequest .organization) ⟨0, 1, some (0, 0)⟩ false) (by decide)
  obtain ⟨call, hp, hpc⟩ := map_eq_some_iff.mp hp
  exact ⟨w₂, hd, allowed_granted (example_fits .multi) h hp hpc hpath⟩

/-- **Update of the role of an owner**: the epochs of those who have the role by a membership stay, so
that an owner is allowed from the cache what his role does not allow any more. -/
theorem outlived : ∃ w₁ w₂ : AccessWorld,
    Reachable (access (exampleConfig .multi)).program.system w₁ ∧
      (w₁.proc? 2).map Caller.pc = some (.guarded (exampleRequest .organization) .findSession) ∧
      Path (access (exampleConfig .multi)).program.system (fun w _ =>
        granted (exampleConfig .multi) w.shared.db.rows w.shared.db.keys .organization exampleAuth
          "organizations.update" = false) w₁ w₂ ∧
      Decided w₂ 2 (exampleRequest .organization) exampleAuth true ∧
      granted (exampleConfig .multi) w₂.shared.db.rows w₂.shared.db.keys .organization exampleAuth
        "organizations.update" = false := by
  obtain ⟨w₁, w₂, h, hpath, hpc, hallowed⟩ := (access (exampleConfig .multi)).program.exists_run
    anyStep
    (fun w _ =>
      granted (exampleConfig .multi) w.shared.db.rows w.shared.db.keys .organization exampleAuth
        "organizations.update" = false)
    ([exampleOwn] ++ steps 0 7 ++ [.spawn (.updateRolePermissions ⟨1, []⟩)] ++ steps 1 10 ++
      [exampleOwn]) (steps 2 5)
    (fun w₁ w₂ => (w₁.proc? 2).map Caller.pc =
        some (.guarded (exampleRequest .organization) .findSession) ∧
      Decided w₂ 2 (exampleRequest .organization) exampleAuth true ∧
      granted (exampleConfig .multi) w₂.shared.db.rows w₂.shared.db.keys .organization exampleAuth
        "organizations.update" = false) (by decide)
  exact ⟨w₁, w₂, h, hpc, hpath, hallowed⟩

end BackendFoundation.Access.CachedGrants
