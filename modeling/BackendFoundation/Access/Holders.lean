import BackendFoundation.Access.Roles

/-! # Whose permission epoch a commit increments

`acceptInvitation` increments the epoch of the user whose membership it writes, and an update of the
permissions of a global role increments those of all users that it has found to hold the role: it has
taken all of their rows (`Taking`), since no user who is deleted comes back. -/

namespace BackendFoundation.Access.Holders

open Lib.Database Lib.WriteLog Lib.Schema Lib.Services Lib.Logs Lib.Interleave Lib.Runs Lib.Transact
open Organizations.Model Organizations.Log Access.Model Access.Log Access.Commits Access.Roles

variable {cfg : AccessConfig} {site : Site AccessKey} {reply : Reply AccessRowOf}
  {pc pc' : AccessPc} {rows rows' : AccessRows}

/-! ### The user of an invitation -/

def acceptingOf : AcceptPc → Option Accepting
  | .findInvitation | .findUser .. => none
  | .updateMembership accepting | .insertMembership accepting | .markAccepted accepting _
  | .touchUser accepting _ | .findOrganization accepting _ | .commit accepting _ => some accepting

/-- The membership is one of the user who accepts the invitation. -/
def AcceptsOwn : AccessPc → Prop
  | .organization (.accept input pc) =>
    ∀ accepting ∈ acceptingOf pc, accepting.userId = input.userId
  | _ => True

theorem acceptsOwn_enter {next : OrganizationPc}
    (h : ∀ input pc, next = .accept input pc → AcceptsOwn (.organization (.accept input pc))) :
    AcceptsOwn (enter next) := by
  unfold enter
  split
  · trivial
  · trivial
  · trivial
  · trivial
  · cases next with
    | accept input pc => exact h input pc rfl
    | _ => trivial

theorem acceptsOwn_accept {config : OrganizationConfig} {siteOf : Site OrganizationKey}
    {replyOf : Reply OrganizationRow} {input : AcceptInvitation} {pc : AcceptPc}
    {next : OrganizationPc} (h : acceptNext config siteOf input pc replyOf = some (.ok next))
    (hpc : ∀ accepting ∈ acceptingOf pc, accepting.userId = input.userId) :
    ∀ input' pc', next = .accept input' pc' →
      ∀ accepting ∈ acceptingOf pc', accepting.userId = input'.userId := by
  intro input' pc' he accepting haccepting
  subst he
  unfold acceptNext at h
  split at h
  · obtain ⟨found, -, he⟩ := Option.map_eq_some_iff.mp h
    split at he
    · cases he
    · cases he
      cases haccepting
  · split_ifs at h
    · cases h
      cases haccepting
      rfl
    · cases h
  · split_ifs at h <;> cases h <;> exact hpc accepting haccepting
  · cases h
    exact hpc accepting haccepting
  · obtain ⟨-, he⟩ := ok_of_required (Option.some.inj h)
    cases he
    exact hpc accepting haccepting
  · obtain ⟨-, he⟩ := ok_of_required (Option.some.inj h)
    cases he
    exact hpc accepting haccepting
  · split_ifs at h
    · cases h
      exact hpc accepting haccepting
    · cases h
  · cases h
  · cases h

theorem acceptsOwn_of_other (h : callOf pc ≠ some .organization) : AcceptsOwn pc := by
  cases pc with
  | organization => exact absurd rfl h
  | _ => trivial

theorem acceptsOwn_next (h : accessNext cfg site pc reply = some (.ok pc')) (hpc : AcceptsOwn pc) :
    AcceptsOwn pc' := by
  by_cases hcall : callOf pc = some .organization
  · cases pc with
    | organization pc =>
      obtain ⟨next, hnext, rfl⟩ := ok_of_mapNext h
      refine acceptsOwn_enter fun input pc' he => ?_
      subst he
      cases pc with
      | accept input pc => exact acceptsOwn_accept hnext hpc _ _ rfl
      | create => rcases create_next hnext with ⟨next, he⟩ | ⟨result, he⟩ <;> cases he
      | change => rcases change_next hnext with ⟨next, he⟩ | ⟨result, he⟩ <;> cases he
      | remove => rcases remove_next hnext with ⟨next, he⟩ | ⟨result, he⟩ <;> cases he
      | invite => rcases invite_next hnext with ⟨next, he⟩ | ⟨result, he⟩ <;> cases he
      | revoke => rcases revoke_next hnext with ⟨next, he⟩ | ⟨result, he⟩ <;> cases he
      | delete => rcases delete_next hnext with ⟨next, he, -⟩ | ⟨result, he⟩ <;> cases he
      | returned | thrown => cases hnext
    | unpin | revokeSessions | deleteUserRoles =>
      cases reply <;> cases h
      trivial
    | _ => cases hcall
  · rcases callOf_next h with hended | hsame
    · exact acceptsOwn_of_other (by simp [hended])
    · exact acceptsOwn_of_other (hsame ▸ hcall)

/-! ### The holders of a global role -/

/-- The transaction increments the epochs of these users, or has done so. -/
inductive Takes : AccessPc → Bool → List ℕ → Prop
  | taking {input : UpdateRolePermissions} {change : RoleChange} {holders : List ℕ} :
      Takes (.updateRole input (.touchHolders change holders)) false holders
  | taken {input : UpdateRolePermissions} {change : RoleChange} {holders : List ℕ} :
      Takes (.updateRole input (.commit change (.holders holders))) true holders

/-- It has taken the rows of all of them, but those that it has still to look at. -/
def Taking (rows : AccessRows) (tx : Tx AccessRowOf) (done : Bool) (holders : List ℕ) : Prop :=
  done = true ∨ tx.pending ≠ none →
    Gathered rows tx (touchHolders holders).found (setIn (.inl .user) (touchHolders holders).data)

def claims : Claims AccessRowOf AccessPc PermissionCache where
  shared _ := True
  call _ aborted call v := AcceptsOwn call.pc ∧ (aborted = false → ∀ done holders,
    Takes call.pc done holders → Taking v.rows call.tx done holders)

section At

variable {s : Store AccessRowOf PermissionCache} {i j : ℕ} {call callj : Caller AccessRowOf AccessPc}
  {a : Claims AccessRowOf AccessPc PermissionCache} {done : Bool} {holders : List ℕ}

theorem brings_holders {tx : Tx AccessRowOf} (hw : Wrote cfg pc rows rows') :
    Brings rows rows' tx (touchHolders holders).found := by
  intro k row _ hrow hcond
  obtain ⟨id, user, rfl, hrow', hcond⟩ := whereIn_eq_true hcond
  obtain rfl := eq_of_heq hrow'
  obtain ⟨hmem, hlive⟩ := of_decide_eq_true hcond
  obtain ⟨old, hold, holdLive, -⟩ := hw.live_before hrow hlive
  exact ⟨old, hold, whereIn_self.trans (decide_eq_true ⟨hmem, holdLive⟩)⟩

theorem unwritten_of_taking (hat : a.At (access cfg) (accessNotes cfg) s i call)
    (hlive : s.db.aborted i = false) (htakes : Takes call.pc false holders)
    (hpend : call.tx.pending = none) (id : ℕ) :
    call.tx.writes.read s.db.rows (userKey id) = s.db.rows (userKey id) := by
  have hlogged := hat.point.wrote.at_rest hpend
  have hview := hlogged.view_at hat.tx hlive hat.point.snapshot (k := userKey id)
    fun before after h => by
      change Entry.inTurn (accessWritten cfg call.pc) _ before after at h
      generalize hpc : call.pc = pc at h htakes
      cases htakes
      simpa [accessWritten, updateRoleWrote] using h
  unfold Tx.view at hview
  rwa [hat.point.snapshot] at hview

theorem gathered_of_exec (hat : claims.At (access cfg) (accessNotes cfg) s i call)
    (hlive : s.db.aborted i = false) (htakes : Takes call.pc false holders) {stmt : AccessStmt}
    (hstmt : accessStmt cfg call.pc = some stmt) {db : Db AccessRowOf} {p : Progress AccessRowOf}
    {tx : Tx AccessRowOf} (hs : exec s.db i call.tx stmt = some (db, p))
    (hp : p = .running tx ∨ ∃ reply, p = .replied tx reply) :
    Gathered s.db.rows tx (touchHolders holders).found
      (setIn (.inl .user) (touchHolders holders).data) := by
  have hupdate : stmt = (touchHolders holders).stmt := by
    generalize call.pc = pc at hstmt htakes
    cases htakes
    exact (Option.some.inj hstmt).symm
  subst hupdate
  refine exec_gathered hat.tx hat.listed hat.point.serializable hat.point.snapshot ?_ ?_ hs hp
  · intro hpend k row hrow hcond
    obtain ⟨id, user, rfl, -, -⟩ := whereIn_eq_true hcond
    exact (unwritten_of_taking hat hlive htakes hpend id).trans hrow
  · exact fun hpend => hat.call.2 hlive _ _ htakes (.inr hpend)

theorem takes_next (h : accessNext cfg site pc reply = some (.ok pc'))
    (htakes : Takes pc' true holders) : Takes pc false holders := by
  cases htakes with
  | @taken input change holders =>
    have hadd {change' : RoleChange} {codes : List String} :
        UpdateRolePc.addNext change' codes ≠ .commit change (.holders holders) := by
      unfold UpdateRolePc.addNext
      cases codes with
      | cons code rest => exact nofun
      | nil =>
        dsimp only
        split <;> exact nofun
    rcases callOf_next h with hended | hsame
    · cases hended
    · cases pc with
      | updateRole input' pc =>
        change updateRoleNext cfg site input' pc reply = _ at h
        unfold updateRoleNext at h
        split at h
        · have h := Option.some.inj h
          split at h
          · cases h
          · dsimp only at h
            split_ifs at h
            cases h
        · have h := point_inj h
          split_ifs at h
          · cases h
          · exact absurd (AccessPc.updateRole.inj h).2 hadd
        · exact absurd (AccessPc.updateRole.inj (point_inj h)).2 hadd
        · have h := (AccessPc.updateRole.inj (point_inj h)).2
          split_ifs at h
          exact absurd h hadd
        · exact absurd (AccessPc.updateRole.inj (point_inj h)).2 hadd
        · obtain ⟨-, he⟩ := ok_of_requiredRow (Option.some.inj h)
          cases he
        · cases h
        · cases h
          exact .taking
        · cases h
        · cases h
      | _ => cases hsame

theorem start_acceptsOwn (now : ℕ) (request : AccessRequest) :
    AcceptsOwn (accessStart cfg now request) := by
  cases request with
  | organization request =>
    refine acceptsOwn_enter fun input pc he => ?_
    cases request with
    | createOrganization input =>
      unfold startPc at he
      split_ifs at he
    | acceptInvitation input =>
      cases he
      exact nofun
    | _ => cases he
  | backfill input =>
    unfold accessStart
    dsimp only
    split_ifs <;> trivial
  | _ => trivial

theorem start_takes {now : ℕ} {request : AccessRequest} :
    ¬ Takes (accessStart cfg now request) done holders := by
  have hother {pc : AccessPc} (hcall : callOf pc ≠ some .updateRole) : ¬ Takes pc done holders := by
    intro htakes
    cases htakes <;> exact hcall rfl
  cases request with
  | organization request =>
    refine hother ?_
    rcases @enter_goesOn (startPc (cfg.organizations noRoles) now request) with hended | hsame
    · simp [accessStart, hended]
    · simp [accessStart, hsame]
  | backfill input =>
    unfold accessStart
    dsimp only
    split_ifs <;> exact nofun
  | _ => exact nofun

theorem invariant : Invariant (access cfg) (accessNotes cfg) (fun _ _ _ _ => True) claims where
  init := trivial
  tick _ _ := ⟨fun h => h, fun _ _ _ h => h⟩
  abort _ _ _ h := ⟨h.1, nofun⟩
  event _ _ _ _ := ⟨fun h => h, fun _ _ _ h => h⟩
  start i b v request _ _ :=
    ⟨start_acceptsOwn v.now request, fun _ _ _ htakes => absurd htakes start_takes⟩
  thrown _ _ _ _ _ := ⟨trivial, nofun⟩
  running s i call c cond data db tx hat _ hstmt hs hlive := by
    refine ⟨hat.call.1, fun _ done holders htakes => ?_⟩
    cases done with
    | false => exact fun _ => gathered_of_exec hat hlive htakes hstmt hs (.inl rfl)
    | true =>
      change accessStmt cfg call.pc = _ at hstmt
      generalize call.pc = pc at hstmt htakes
      cases htakes
      cases hstmt
  replied s i call c stmt db tx reply pc hat _ hstmt hcommit hs hlive hnext := by
    have hpend := ((exec_logged (hstmt ▸ hat.point.wrote) hs).logged hcommit).1
    refine ⟨acceptsOwn_next hnext hat.call.1, fun _ done holders htakes hdone => ?_⟩
    cases done with
    | false => exact absurd hpend (hdone.resolve_left Bool.false_ne_true)
    | true =>
      exact gathered_of_exec hat hlive (takes_next hnext htakes) hstmt hs (.inr ⟨reply, rfl⟩)
  outside s i call c m pc hat _ _ hout := by
    obtain ⟨input, pc, rfl⟩ := guarded_of_outside hout
    exact ⟨trivial, ⟨trivial, nofun⟩, fun _ _ _ _ h => h⟩
  commit s i call c rows hat _ hstmt hcommits hrows hwrote := by
    have hw : Wrote cfg call.pc s.db.rows rows := ⟨accessCommit_of_stmt hstmt, hwrote⟩
    have hlive := (thrown_of_commits hcommits).2
    refine ⟨trivial, fun pc hnext => ?_, fun j callj hij hj hcall => ⟨hcall.1, fun hlivej => ?_⟩⟩
    · obtain ⟨result, rfl⟩ := returned_of_accessCommit hw.commit hnext
      exact ⟨trivial, nofun⟩
    · intro done holders htakes hdone
      refine (hcall.2 hlivej done holders htakes hdone).mono (fun k hk => ?_) (brings_holders hw)
      have hother : call.tx.writes k = none := by
        by_contra hwritten
        exact hk (hat.ok.disjoint hj hij hlive hlivej hwritten)
      rw [hrows]
      exact Writes.read_of_none hother

theorem claims_hold {w : AccessWorld} (h : Reachable (access cfg).program.system w) : claims.Holds w :=
  invariant.holds accessFollows (h.mono fun _ _ _ => stepsMeet_true)

end At

/-- **A commit increments the epochs of all users that it has found to hold the role.** -/
theorem holders_incremented {s : Store AccessRowOf PermissionCache} {i : ℕ}
    {call : Caller AccessRowOf AccessPc} (hpoint : PointOk (access cfg) (accessNotes cfg) call)
    (hclaims : claims.call i (s.db.aborted i) call s.view) (hlive : s.db.aborted i = false)
    {input : UpdateRolePermissions} {change : RoleChange} {holders : List ℕ}
    (hpc : call.pc = .updateRole input (.commit change (.holders holders))) {id : ℕ} {user : User}
    (hmem : id ∈ holders) (hrow : s.db.rows (userKey id) = some user) (huser : user.live = true) :
    call.tx.writes.read s.db.rows (userKey id) =
      some { user with permissionEpoch := user.permissionEpoch + 1 } := by
  have htakes : Takes call.pc true holders := by
    rw [hpc]
    exact .taken
  have hstmt : (access cfg).stmt call.pc = some .commit := by
    rw [hpc]
    rfl
  have hpend := (hpoint.wrote.logged fun _ _ => by simp [hstmt]).1
  have hgathered := hclaims.2 hlive true holders htakes (.inl rfl)
  have hcond : (touchHolders holders).found (userKey id) user = true :=
    whereIn_self.trans (decide_eq_true ⟨hmem, huser⟩)
  exact (hgathered.read hpend hrow hcond).trans setIn_self

end BackendFoundation.Access.Holders
