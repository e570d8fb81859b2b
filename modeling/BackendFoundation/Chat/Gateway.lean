import BackendFoundation.Errors
import BackendFoundation.Http.ClientIp
import BackendFoundation.Lib.UuidText
import Mathlib.Data.Int.Notation

/-! # The identity of a socket

`authenticate` of `access-control.ts`, and `resolveIdentity` and `revalidateConnectedSockets` of
`chat.gateway.ts`. The rules for sessions, organizations and memberships are written three times;
the three agree on every state (`socket_identity_agrees`).

The claims of an access token are ids that the application has signed; verifying a token is a
parameter. A batch of the sweep reads the state that it finds. -/

namespace BackendFoundation.Chat.Gateway

open Errors Lib.UuidText
open Http.ClientIp (trim)

/-! ### Rows -/

inductive UserStatus
  | pending | active | suspended | disabled
deriving DecidableEq

inductive OrganizationStatus
  | active | suspended
deriving DecidableEq

inductive MembershipStatus
  | invited | active | suspended
deriving DecidableEq

structure User where
  id : Uuid
  status : UserStatus := .active
  permissionEpoch : ℕ := 0
  deletedAt : Option ℤ := none

structure Organization where
  id : Uuid
  status : OrganizationStatus := .active
  permissionEpoch : ℕ := 0
  deletedAt : Option ℤ := none

structure Membership where
  organizationId : Uuid
  userId : Uuid
  status : MembershipStatus := .active
  deletedAt : Option ℤ := none

structure Session where
  id : Uuid
  userId : Uuid
  activeOrganizationId : Option Uuid := none
  expiresAt : ℤ
  revokedAt : Option ℤ := none
  deletedAt : Option ℤ := none

structure Database where
  users : List User := []
  organizations : List Organization := []
  memberships : List Membership := []
  sessions : List Session := []
  now : ℤ := 0
  /-- The ids of the sessions are a primary key. -/
  sessions_nodup : (sessions.map (·.id)).Nodup

/-! ### Queries -/

def Database.user? (db : Database) (id : Uuid) : Option User := db.users.find? (·.id = id)

/-- `activeOrganization`. -/
def Database.activeOrganization? (db : Database) (session : Session) : Option Organization :=
  session.activeOrganizationId.bind fun id => db.organizations.find? (·.id = id)

/-- The conditions on a session that do not name it: it is live, and so is its user. -/
def Database.live (db : Database) (session : Session) : Bool :=
  session.revokedAt = none ∧ session.deletedAt = none ∧ db.now < session.expiresAt ∧
    (db.user? session.userId).any fun user => user.status = .active ∧ user.deletedAt = none

/-- The active membership of a user in an organization. -/
def Membership.activeIn (organizationId userId : Uuid) (membership : Membership) : Bool :=
  membership.organizationId = organizationId ∧ membership.userId = userId ∧
    membership.status = .active ∧ membership.deletedAt = none

/-! ### Requests -/

structure AccessClaims where
  userId : Uuid
  sessionId : Uuid
deriving DecidableEq

/-- The header and the cookie that may hold the token. -/
structure Request where
  authorization : Option Text := none
  accessCookie : Option Text := none

def getBearerToken (request : Request) : Option Text :=
  match request.authorization with
  | none => none
  | some header =>
    if "Bearer ".toList.isPrefixOf header then some (trim (header.drop 7)) |>.filter (· ≠ [])
    else none

/-- `resolveAccessToken`. -/
def resolveAccessToken (request : Request) : Option Text :=
  (getBearerToken request).or request.accessCookie

/-- What an authenticated request carries. -/
structure Authenticated where
  auth : AccessClaims
  permissionEpoch : ℕ
  organizationId : Option Uuid
  organizationPermissionEpoch : Option ℕ

/-- The verification of a token, which throws if it is not valid. -/
abbrev VerifyAccessToken := Text → Except Thrown AccessClaims

def authenticationRequired : AppError := unauthenticated "Authentication required"

variable (verify : VerifyAccessToken) (db : Database)

def findSession (claims : AccessClaims) : Option Session :=
  db.sessions.find? fun session =>
    session.id = claims.sessionId ∧ session.userId = claims.userId ∧ db.live session

/-- What a request with valid claims gets. -/
def authenticateClaims (claims : AccessClaims) : Except AppError Authenticated :=
  match findSession db claims with
  | none => .error authenticationRequired
  | some session =>
    let permissionEpoch := ((db.user? session.userId).map (·.permissionEpoch)).getD 0
    match session.activeOrganizationId with
    | none => .ok ⟨claims, permissionEpoch, none, none⟩
    | some organizationId =>
      match db.activeOrganization? session with
      | none => .error (forbidden "Organization is not active")
      | some organization =>
        if organization.deletedAt.isSome ∨ organization.status ≠ .active then
          .error (forbidden "Organization is not active")
        else if (db.memberships.find? (·.activeIn organizationId claims.userId)).isNone then
          .error (forbidden "Organization membership is not active")
        else
          .ok ⟨claims, permissionEpoch, some organizationId, some organization.permissionEpoch⟩

def authenticate (request : Request) : Except AppError Authenticated :=
  match (resolveAccessToken request).filter (· ≠ []) with
  | none => .error authenticationRequired
  | some token =>
    match verify token with
    | .error _ => .error authenticationRequired
    | .ok claims => authenticateClaims db claims

/-! ### Sockets -/

structure SocketIdentity where
  userId : Uuid
  sessionId : Uuid
  organizationId : Option Uuid
deriving DecidableEq

/-- The decision of `resolveIdentity` on the claims of a token. -/
def resolveClaims (claims : AccessClaims) : Option SocketIdentity :=
  match findSession db claims with
  | none => none
  | some session =>
    match session.activeOrganizationId with
    | none => some ⟨claims.userId, claims.sessionId, none⟩
    | some organizationId =>
      match db.activeOrganization? session with
      | none => none
      | some organization =>
        if organization.deletedAt.isSome ∨ organization.status ≠ .active then none
        else if (db.memberships.find? (·.activeIn organizationId claims.userId)).isNone then none
        else some ⟨claims.userId, claims.sessionId, some organizationId⟩

def resolveIdentity (token : Text) : Except Thrown (Option SocketIdentity) :=
  (verify token).map (resolveClaims db)

structure Socket where
  id : String
  /-- The entry of the socket in `identities`. -/
  identity : Option SocketIdentity

structure SocketEntry where
  socket : String
  identity : SocketIdentity
deriving DecidableEq

def socketEntries (sockets : List Socket) : List SocketEntry :=
  sockets.filterMap fun socket => socket.identity.map (⟨socket.id, ·⟩)

/-! ### The sweep -/

/-- `sessions` of a batch. -/
def batchSessions (batch : List SocketEntry) : List Session :=
  db.sessions.filter fun session =>
    session.id ∈ (batch.map (·.identity.sessionId)).eraseDups ∧ db.live session

/-- `new Map(sessions.map((session) => [session.id, session]))`, of which a later entry replaces an
earlier one. -/
def getSession (sessions : List Session) (id : Uuid) : Option Session :=
  sessions.reverse.find? (·.id = id)

/-- The text that names a user in an organization. -/
def membershipKey (organizationId userId : Uuid) : Text :=
  organizationId.text ++ ':' :: userId.text

/-- `activeMemberships` of a batch. -/
def activeMemberships (batch : List SocketEntry) : List Text :=
  let tenantIdentities := batch.filter (·.identity.organizationId.isSome)
  let memberships :=
    if tenantIdentities.length = 0 then []
    else
      db.memberships.filter fun membership =>
        tenantIdentities.any (fun entry =>
          entry.identity.organizationId = some membership.organizationId ∧
            entry.identity.userId = membership.userId) ∧
          membership.status = .active ∧ membership.deletedAt = none
  memberships.map fun membership => membershipKey membership.organizationId membership.userId

local instance : LawfulBEq Text := inferInstance

/-- The condition under which the sweep disconnects a socket of a batch. -/
def disconnects (batch : List SocketEntry) (entry : SocketEntry) : Bool :=
  let identity := entry.identity
  match getSession (batchSessions db batch) identity.sessionId with
  | none => true
  | some session =>
    let organizationValid : Bool :=
      match identity.organizationId with
      | none => true
      | some organizationId =>
        session.activeOrganizationId = some organizationId ∧
          (db.activeOrganization? session).any (fun organization =>
            organization.status = .active ∧ organization.deletedAt = none) ∧
          membershipKey organizationId identity.userId ∈ activeMemberships db batch
    session.userId ≠ identity.userId ∨ session.activeOrganizationId ≠ identity.organizationId ∨
      organizationValid = false

/-- The entries whose sockets the sweep disconnects, batch by batch; `states` says what each batch
finds. -/
def revalidateBatches (states : ℕ → Database) (number : ℕ) : List SocketEntry → List SocketEntry
  | [] => []
  | first :: rest =>
    let batch := (first :: rest).take 500
    batch.filter (disconnects (states number) batch) ++
      revalidateBatches states (number + 1) ((first :: rest).drop 500)
termination_by entries => entries.length
decreasing_by
  simp only [List.length_drop, List.length_cons]
  omega

/-- **`revalidateConnectedSockets`**. -/
def revalidateConnectedSockets (states : ℕ → Database) (sockets : List Socket) :
    List SocketEntry := revalidateBatches states 0 (socketEntries sockets)

/-! ### Requests and sockets -/

variable {verify : VerifyAccessToken} {db : Database}

def Bears (request : Request) (token : Text) : Prop :=
  resolveAccessToken request = some token ∧ token ≠ []

/-- The identity of an authenticated request. -/
def Authenticated.identity (request : Authenticated) : SocketIdentity :=
  ⟨request.auth.userId, request.auth.sessionId, request.organizationId⟩

theorem authenticate_of_bears {request : Request} {token : Text} (h : Bears request token) :
    authenticate verify db request =
      match verify token with
      | .error _ => .error authenticationRequired
      | .ok claims => authenticateClaims db claims := by
  have htoken : (resolveAccessToken request).filter (· ≠ []) = some token := by
    rw [h.1, Option.filter_some, if_pos (by simpa using h.2)]
  rw [authenticate, htoken]

variable {identity : SocketIdentity}

theorem resolveClaims_iff {claims : AccessClaims} : resolveClaims db claims = some identity ↔
      ∃ request, authenticateClaims db claims = .ok request ∧ request.identity = identity := by
  unfold resolveClaims authenticateClaims
  rcases findSession db claims with _ | session
  · simp
  dsimp only
  rcases session.activeOrganizationId with _ | organizationId
  · simp [Authenticated.identity]
  dsimp only
  rcases db.activeOrganization? session with _ | organization
  · simp
  dsimp only
  split_ifs
  · simp
  · simp
  · simp [Authenticated.identity]

theorem resolveIdentity_iff {request : Request} {token : Text} (h : Bears request token) :
    resolveIdentity verify db token = .ok (some identity) ↔
      ∃ authenticated, authenticate verify db request = .ok authenticated ∧
        authenticated.identity = identity := by
  rw [authenticate_of_bears h, resolveIdentity]
  rcases verify token with e | claims
  · simp [Except.map]
  · simp only [Except.map, Except.ok.injEq]
    exact resolveClaims_iff

/-! ### One socket of a batch -/

theorem find?_iff_of_unique {α : Type} {rows : List α} {cond : α → Bool} {row : α}
    (hunique : ∀ a ∈ rows, ∀ b ∈ rows, cond a = true → cond b = true → a = b) :
    rows.find? cond = some row ↔ row ∈ rows ∧ cond row = true := by
  constructor
  · intro h
    exact ⟨List.mem_of_find?_eq_some h, List.find?_some h⟩
  · rintro ⟨hrow, hcond⟩
    rcases hfind : rows.find? cond with _ | found
    · exact absurd hcond (List.find?_eq_none.mp hfind row hrow)
    · rw [hunique found (List.mem_of_find?_eq_some hfind) row hrow (List.find?_some hfind) hcond]

theorem session_unique {a b : Session} (ha : a ∈ db.sessions) (hb : b ∈ db.sessions)
    (h : a.id = b.id) : a = b := List.inj_on_of_nodup_map db.sessions_nodup ha hb h

theorem findSession_iff {claims : AccessClaims} {session : Session} :
    findSession db claims = some session ↔ session ∈ db.sessions ∧ session.id = claims.sessionId ∧
      session.userId = claims.userId ∧ db.live session = true := by
  rw [findSession, find?_iff_of_unique]
  · simp
  · intro a ha b hb hca hcb
    simp only [decide_eq_true_eq] at hca hcb
    exact session_unique ha hb (hca.1.trans hcb.1.symm)

variable {batch : List SocketEntry} {entry : SocketEntry}

theorem getSession_iff (hentry : entry ∈ batch) {session : Session} :
    getSession (batchSessions db batch) entry.identity.sessionId = some session ↔
      session ∈ db.sessions ∧ session.id = entry.identity.sessionId ∧ db.live session = true := by
  have hid : entry.identity.sessionId ∈ (batch.map (·.identity.sessionId)).eraseDups :=
    List.mem_eraseDups.mpr (List.mem_map.mpr ⟨entry, hentry, rfl⟩)
  rw [getSession, find?_iff_of_unique]
  · simp only [batchSessions, List.mem_reverse, List.mem_filter, decide_eq_true_eq]
    constructor
    · rintro ⟨⟨hmem, -, hlive⟩, hsame⟩
      exact ⟨hmem, hsame, hlive⟩
    · rintro ⟨hmem, hsame, hlive⟩
      exact ⟨⟨hmem, hsame ▸ hid, hlive⟩, hsame⟩
  · intro a ha b hb hca hcb
    simp only [decide_eq_true_eq] at hca hcb
    refine @session_unique db _ _ ?_ ?_ (hca.trans hcb.symm)
    · exact (List.mem_filter.mp (List.mem_reverse.mp ha)).1
    · exact (List.mem_filter.mp (List.mem_reverse.mp hb)).1

theorem membershipKey_inj {organizationId organizationId' userId userId' : Uuid}
    (h : membershipKey organizationId userId = membershipKey organizationId' userId') :
    organizationId = organizationId' ∧ userId = userId' := by
  have hlength := organizationId.length_text.trans organizationId'.length_text.symm
  obtain ⟨horganization, hrest⟩ := List.append_inj h hlength
  exact ⟨Uuid.text_injective horganization, Uuid.text_injective (List.cons.inj hrest).2⟩

theorem mem_activeMemberships_iff (hentry : entry ∈ batch) {organizationId : Uuid}
    (horganization : entry.identity.organizationId = some organizationId) :
    membershipKey organizationId entry.identity.userId ∈ activeMemberships db batch ↔
      (db.memberships.find? (·.activeIn organizationId entry.identity.userId)).isSome = true := by
  have htenant : entry ∈ batch.filter (·.identity.organizationId.isSome) :=
    List.mem_filter.mpr ⟨hentry, by rw [horganization]; rfl⟩
  have hlength : (batch.filter (·.identity.organizationId.isSome)).length ≠ 0 := by
    intro hzero
    rw [List.length_eq_zero_iff.mp hzero] at htenant
    cases htenant
  rw [List.find?_isSome, activeMemberships, if_neg hlength, List.mem_map]
  constructor
  · rintro ⟨membership, hmembership, hkey⟩
    obtain ⟨hmem, hcond⟩ := List.mem_filter.mp hmembership
    simp only [decide_eq_true_eq] at hcond
    obtain ⟨horg, huser⟩ := membershipKey_inj hkey
    refine ⟨membership, hmem, ?_⟩
    simp only [Membership.activeIn, decide_eq_true_eq]
    exact ⟨horg, huser, hcond.2⟩
  · rintro ⟨membership, hmem, hactive⟩
    simp only [Membership.activeIn, decide_eq_true_eq] at hactive
    obtain ⟨horg, huser, hstatus⟩ := hactive
    refine ⟨membership, List.mem_filter.mpr ⟨hmem, ?_⟩, by rw [horg, huser]⟩
    simp only [decide_eq_true_eq]
    refine ⟨List.any_eq_true.mpr ⟨entry, htenant, ?_⟩, hstatus⟩
    simp only [decide_eq_true_eq]
    exact ⟨by rw [horganization, horg], huser.symm⟩

/-- The organization of a session lets the user act in it. -/
def OrganizationActive (db : Database) (session : Session) (userId organizationId : Uuid) : Prop :=
  (db.activeOrganization? session).any (fun organization =>
      organization.status = .active ∧ organization.deletedAt = none) = true ∧
    (db.memberships.find? (·.activeIn organizationId userId)).isSome = true

theorem resolveClaims_eq_some_iff {claims : AccessClaims} :
    resolveClaims db claims = some identity ↔ ∃ session, findSession db claims = some session ∧
      identity = ⟨claims.userId, claims.sessionId, session.activeOrganizationId⟩ ∧
      ∀ organizationId ∈ session.activeOrganizationId,
        OrganizationActive db session claims.userId organizationId := by
  unfold resolveClaims OrganizationActive
  rcases findSession db claims with _ | session
  · simp
  simp only [Option.some.injEq, exists_eq_left']
  rcases hactive : session.activeOrganizationId with _ | organizationId
  · simp only [Option.some.injEq, Option.not_mem_none, false_implies, implies_true, and_true]
    exact eq_comm
  simp only [Option.mem_def, Option.some.injEq, forall_eq']
  rcases db.activeOrganization? session with _ | organization
  · simp
  dsimp only
  split_ifs with hinactive hmembership
  · have hrefused : ¬ (organization.status = .active ∧ organization.deletedAt = none) := by
      rintro ⟨hstatus, hdeleted⟩
      simp [hstatus, hdeleted] at hinactive
    simp [hrefused]
  · rw [Option.isNone_iff_eq_none] at hmembership
    simp [hmembership]
  · have haccepted : organization.status = .active ∧ organization.deletedAt = none := by
      simpa [not_or, and_comm] using hinactive
    have hmember := Option.isSome_iff_ne_none.mpr (Option.isNone_iff_eq_none.not.mp hmembership)
    simp only [Option.some.injEq, Option.any_some, haccepted, and_self, decide_true, hmember,
      and_true]
    exact eq_comm

theorem disconnects_eq_false_iff (hentry : entry ∈ batch) : disconnects db batch entry = false ↔
      ∃ session, getSession (batchSessions db batch) entry.identity.sessionId = some session ∧
        session.userId = entry.identity.userId ∧
        session.activeOrganizationId = entry.identity.organizationId ∧
        ∀ organizationId ∈ entry.identity.organizationId,
          OrganizationActive db session entry.identity.userId organizationId := by
  unfold disconnects OrganizationActive
  dsimp only
  rcases getSession (batchSessions db batch) entry.identity.sessionId with _ | session
  · simp
  simp only [Option.some.injEq, exists_eq_left', decide_eq_false_iff_not, not_or, not_not, ne_eq,
    Bool.not_eq_false]
  refine and_congr_right fun _ => and_congr_right fun hactive => ?_
  rcases horganization : entry.identity.organizationId with _ | organizationId
  · simp
  · rw [horganization] at hactive
    simp only [decide_eq_true_eq, hactive, true_and, Option.mem_def, Option.some.injEq, forall_eq',
      mem_activeMemberships_iff hentry horganization]

/-- The claims of a socket's session and user. -/
def SocketEntry.claims (entry : SocketEntry) : AccessClaims :=
  ⟨entry.identity.userId, entry.identity.sessionId⟩

/-- **One socket of a batch** is disconnected unless the decision on its claims is still an
acceptance with its identity. -/
theorem disconnects_iff (hentry : entry ∈ batch) :
    disconnects db batch entry = true ↔ resolveClaims db entry.claims ≠ some entry.identity := by
  rw [← Bool.not_eq_false, not_iff_not, disconnects_eq_false_iff hentry, resolveClaims_eq_some_iff]
  refine exists_congr fun session => ?_
  rw [getSession_iff hentry, findSession_iff]
  constructor
  · rintro ⟨⟨hmem, hid, hlive⟩, huser, hactive, horganization⟩
    refine ⟨⟨hmem, hid, huser, hlive⟩, ?_, ?_⟩
    · rw [hactive, SocketEntry.claims]
    · rw [hactive]
      exact horganization
  · rintro ⟨⟨hmem, hid, huser, hlive⟩, hidentity, horganization⟩
    have hactive : session.activeOrganizationId = entry.identity.organizationId :=
      (congrArg SocketIdentity.organizationId hidentity).symm
    refine ⟨⟨hmem, hid, hlive⟩, huser, hactive, ?_⟩
    rw [← hactive]
    exact horganization

/-! ### The whole sweep -/

/-- A request with the claims of the socket is still authenticated with its identity. -/
def stillAccepted (db : Database) (entry : SocketEntry) : Bool :=
  match authenticateClaims db entry.claims with
  | .ok request => request.identity = entry.identity
  | .error _ => false

theorem stillAccepted_iff :
    stillAccepted db entry = true ↔ resolveClaims db entry.claims = some entry.identity := by
  rw [resolveClaims_iff, stillAccepted]
  rcases authenticateClaims db entry.claims with e | request
  · simp
  · simp

theorem disconnects_eq (hentry : entry ∈ batch) :
    disconnects db batch entry = !stillAccepted db entry := by
  rw [Bool.eq_iff_iff, disconnects_iff hentry, ne_eq, ← stillAccepted_iff, Bool.not_eq_true',
    Bool.not_eq_true]

theorem filter_batch (states : ℕ → Database) (number : ℕ) (batch : List SocketEntry)
    (hlength : batch.length ≤ 500) : batch.filter (disconnects (states number) batch) =
      ((batch.zipIdx (number * 500)).filter fun entry =>
        !stillAccepted (states (entry.2 / 500)) entry.1).map Prod.fst := by
  have hplace : ∀ entry ∈ batch.zipIdx (number * 500),
      (!stillAccepted (states (entry.2 / 500)) entry.1) =
        (disconnects (states number) batch ∘ Prod.fst) entry := by
    rintro ⟨entry, place⟩ hentry
    obtain ⟨hle, hlt, hget⟩ := List.mem_zipIdx hentry
    have hnumber : place / 500 = number := by omega
    have hmem : entry ∈ batch := by
      rw [hget]
      exact List.getElem_mem _
    rw [Function.comp_apply, disconnects_eq hmem, hnumber]
  rw [List.filter_congr hplace, ← List.filter_map, List.zipIdx_map_fst]

theorem zipIdx_batches {α : Type} (entries : List α) (number : ℕ) :
    entries.zipIdx (number * 500) = (entries.take 500).zipIdx (number * 500) ++
      (entries.drop 500).zipIdx ((number + 1) * 500) := by
  have hsplit : entries.zipIdx (number * 500) =
      (entries.take 500 ++ entries.drop 500).zipIdx (number * 500) := by
    rw [List.take_append_drop]
  rw [hsplit, List.zipIdx_append]
  -- A batch that is not full is the last one.
  by_cases hfull : 500 ≤ entries.length
  · have hnext : number * 500 + (entries.take 500).length = (number + 1) * 500 := by
      rw [List.length_take_of_le hfull]
      omega
    rw [hnext]
  · rw [List.drop_eq_nil_of_le (by omega), List.zipIdx_nil, List.zipIdx_nil]

/-- **The sweep** disconnects the sockets that are no longer accepted in the state that their batch
finds. -/
theorem revalidateBatches_eq (states : ℕ → Database) (number : ℕ) (entries : List SocketEntry) :
    revalidateBatches states number entries =
      ((entries.zipIdx (number * 500)).filter fun entry =>
        !stillAccepted (states (entry.2 / 500)) entry.1).map Prod.fst := by
  fun_induction revalidateBatches states number entries with
  | case1 number => rfl
  | case2 number first rest batch ih =>
    rw [zipIdx_batches, List.filter_append, List.map_append, ih,
      filter_batch states number batch (List.length_take_le _ _)]

/-- **Socket identity**: a token is accepted for a socket exactly when a request that bears it is
authenticated, with the same identity, and the sweep disconnects exactly the sockets of which a
request with their claims is not authenticated with their identity any more. -/
theorem socket_identity_agrees {request : Request} {token : Text} (h : Bears request token)
    (states : ℕ → Database) (sockets : List Socket) :
    (∀ identity, resolveIdentity verify db token = .ok (some identity) ↔
      ∃ authenticated, authenticate verify db request = .ok authenticated ∧
        authenticated.identity = identity) ∧
    revalidateConnectedSockets states sockets =
      ((socketEntries sockets).zipIdx.filter fun entry =>
        !stillAccepted (states (entry.2 / 500)) entry.1).map Prod.fst := by
  refine ⟨fun identity => resolveIdentity_iff h, ?_⟩
  have hsweep := revalidateBatches_eq states 0 (socketEntries sockets)
  rw [Nat.zero_mul] at hsweep
  exact hsweep

/-! ### A switch of the organization -/

def exampleId (last : Char) (h : HasForm isLowerHex
    ("00000000-0000-7000-8000-00000000000".toList ++ [last])) : Uuid := ⟨_, h⟩

def exampleClaims : AccessClaims := ⟨exampleId '1' (by decide), exampleId '2' (by decide)⟩

def exampleOrganization : Uuid := exampleId '3' (by decide)

def exampleDatabase (active : Option Uuid) : Database where
  users := [{ id := exampleClaims.userId }]
  organizations := [{ id := exampleOrganization }]
  memberships := [{ organizationId := exampleOrganization, userId := exampleClaims.userId }]
  sessions := [{
    id := exampleClaims.sessionId
    userId := exampleClaims.userId
    activeOrganizationId := active
    expiresAt := 10 }]
  sessions_nodup := List.nodup_singleton _

def exampleRequest : Request := ⟨some "Bearer token".toList, none⟩

theorem bears_token : Bears exampleRequest "token".toList := by
  refine ⟨?_, by decide⟩
  decide

/-- The token is accepted for a socket, and the sweep disconnects it when its session has left the
organization. -/
theorem socket_identity_agrees_switched : ∃ entry,
    resolveIdentity (fun _ => .ok exampleClaims) (exampleDatabase (some exampleOrganization))
      "token".toList = .ok (some entry.identity) ∧
    revalidateConnectedSockets (fun _ => exampleDatabase none)
      [⟨"s1", some entry.identity⟩] = [entry] := by
  let entry : SocketEntry :=
    ⟨"s1", ⟨exampleClaims.userId, exampleClaims.sessionId, some exampleOrganization⟩⟩
  obtain ⟨hresolve, hsweep⟩ := @socket_identity_agrees (fun _ => .ok exampleClaims)
    (exampleDatabase (some exampleOrganization)) _ _ bears_token (fun _ => exampleDatabase none)
    [⟨"s1", some entry.identity⟩]
  refine ⟨entry, (hresolve entry.identity).mpr ?_, hsweep.trans ?_⟩
  · exact ⟨_, rfl, rfl⟩
  · rfl

end BackendFoundation.Chat.Gateway
