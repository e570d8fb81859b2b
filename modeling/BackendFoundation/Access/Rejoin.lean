import BackendFoundation.Access.Roles

/-! # What a member who was removed may do

`removeMember` suspends the membership and keeps its row, with the role. `acceptInvitation` makes such
a member active with the role of the invitation. A login in single mode and the backfill make him
active with the role that the row has, which they give no other than `member` to a user who is new
(`Restores`). In every run without such a commit, a user who was removed has no more than the default
member role permits, until he gets a role again.

Main result: `removed_holds_default`. -/

namespace BackendFoundation.Access.Rejoin

open Lib.Database Lib.Services Lib.Interleave Lib.Runs Lib.Transact Lib.Schema Organizations.Model
open Organizations.Log
open Organizations.Login (TenancyMode)
open Access.Model Access.Log Access.Commits Access.Roles

/-- The role is a global one named member. -/
def memberRole (rows : AccessRows) (roleId : ℕ) : Bool :=
  (rows (roleKey roleId)).any fun role =>
    role.name = "member" ∧ role.organizationId = none ∧ role.live

/-- **The user has no permission in the organization beyond those of the default member role.** -/
def OnlyDefault (cfg : AccessConfig) (rows : AccessRows) (organizationId userId : ℕ) : Prop :=
  ∀ code, hasOrganizationGrant cfg rows userId organizationId code = true →
    ∃ roleId, memberRole rows roleId = true ∧ holdsCode cfg rows roleId code = true

/-- There is a membership, which is active with the default member role only. -/
def Demoted (rows : AccessRows) (organizationId userId : ℕ) : Prop :=
  ∃ membership : Membership, rows (membershipKey organizationId userId) = some membership ∧
    (activeMember membership = true → memberRole rows membership.roleId = true)

/-- The commit of `removeMember`. -/
def removes (organizationId userId : ℕ) : AccessPc → Bool
  | .organization (.remove input (.commit _)) =>
    input.organizationId = organizationId ∧ input.userId = userId
  | _ => false

/-- The commit of `changeMemberRole` or of `acceptInvitation`. -/
def givesRole (organizationId userId : ℕ) : AccessPc → Bool
  | .organization (.change input .commit) =>
    input.organizationId = organizationId ∧ input.userId = userId
  | .organization (.accept _ (.commit accepting _)) =>
    accepting.organizationId = organizationId ∧ accepting.userId = userId
  | _ => false

/-- The commit of a login of the user, or of the backfill, that joins the organization. -/
def rejoins (organizationId userId : ℕ) : AccessPc → Bool
  | .createSession _ _ (.commit (.joined joining)) =>
    joining.organizationId = organizationId ∧ joining.userId = userId
  | .backfill _ (.commit id _) => id = organizationId
  | _ => false

/-- It has put the membership back, with a role that is not the default one. -/
def restores (organizationId userId : ℕ) (s : Store AccessRowOf PermissionCache)
    (call : Caller AccessRowOf AccessPc) : Bool :=
  rejoins organizationId userId call.pc ∧
    (call.tx.writes (membershipKey organizationId userId)).isSome ∧
    (s.db.rows (membershipKey organizationId userId)).any fun membership =>
      !memberRole s.db.rows membership.roleId

variable {cfg : AccessConfig} {rows rows' : AccessRows} {pc : AccessPc} {organizationId userId : ℕ}
  {w w' w₁ w₂ : AccessWorld} {l : AccessLabel}

theorem Demoted.onlyDefault (h : Demoted rows organizationId userId) :
    OnlyDefault cfg rows organizationId userId := by
  intro code hgrant
  obtain ⟨membership, hrow, hactive⟩ := h
  unfold hasOrganizationGrant at hgrant
  rw [hrow, Option.any_some] at hgrant
  obtain ⟨hmember, -, hholds⟩ := of_decide_eq_true hgrant
  exact ⟨membership.roleId, hactive hmember, hholds⟩

theorem memberRole_keeps {roleId : ℕ} (h : memberRole rows roleId = true)
    (hkeeps : KeepsRoles rows rows') : memberRole rows' roleId = true := by
  obtain ⟨role, hrole, hdefault⟩ := (Option.any_eq_true _ _).mp h
  exact (Option.any_eq_true _ _).mpr ⟨role, hkeeps _ _ hrole, hdefault⟩

theorem Demoted.same (h : Demoted rows organizationId userId) (hkeeps : KeepsRoles rows rows')
    (hrow : rows' (membershipKey organizationId userId) = rows (membershipKey organizationId userId)) :
    Demoted rows' organizationId userId := by
  obtain ⟨membership, hfound, hactive⟩ := h
  exact ⟨membership, hrow.trans hfound, fun hmember => memberRole_keeps (hactive hmember) hkeeps⟩

/-- `removeMember` suspends the membership that it has found. -/
theorem demoted_of_removed (hw : Wrote cfg pc rows rows')
    (hremoves : removes organizationId userId pc = true) : Demoted rows' organizationId userId := by
  unfold removes at hremoves
  split at hremoves
  · obtain ⟨rfl, rfl⟩ := of_decide_eq_true hremoves
    next input deletedAt =>
      have hrow := wrote_first (hw.wrote (membershipKey input.organizationId input.userId))
      simp [written, removeWrote] at hrow
      rcases Update.must_cases hrow with ⟨hne, -⟩ | ⟨-, membership, -, -, hafter⟩
      · exact absurd rfl hne
      · exact ⟨_, hafter, fun hactive => by cases hactive⟩
  · cases hremoves

theorem rejoins_of_joinsBy {roleId : ℕ} (h : JoinsBy pc organizationId roleId userId) :
    rejoins organizationId userId pc = true := by
  cases h <;> simp [rejoins]

/-- A commit leaves the membership so, unless it gives the user a role or rejoins him. -/
theorem Demoted.commit (h : Demoted rows organizationId userId) (hw : Wrote cfg pc rows rows')
    (hgives : givesRole organizationId userId pc ≠ true)
    (hrejoins : ∀ membership : Membership, rejoins organizationId userId pc = true →
      rows (membershipKey organizationId userId) = some membership →
        rows' (membershipKey organizationId userId) ≠ rows (membershipKey organizationId userId) →
          memberRole rows membership.roleId = true) : Demoted rows' organizationId userId := by
  by_cases hsame : rows' (membershipKey organizationId userId) =
      rows (membershipKey organizationId userId)
  · exact h.same hw.keepsRoles hsame
  obtain ⟨membership, hrow, -⟩ := h
  have hwrite := hw.membership (organizationId, userId)
  generalize hbefore : rows (membershipKey organizationId userId) = before at hwrite
  generalize hafter : rows' (membershipKey organizationId userId) = after at hwrite
  cases hwrite with
  | same => exact absurd (hafter.trans hbefore.symm) hsame
  | created | joined => cases hrow.symm.trans hbefore
  | changed hpc hid =>
    subst hpc
    obtain ⟨rfl, rfl⟩ := Prod.mk.inj hid
    exact absurd (by simp [givesRole]) hgives
  | accepted hpc hid =>
    subst hpc
    obtain ⟨rfl, rfl⟩ := Prod.mk.inj hid
    exact absurd (by simp [givesRole]) hgives
  | removed | suspended => exact ⟨_, hafter, fun hactive => by cases hactive⟩
  | rejoined hjoins =>
    have hrole := hrejoins _ (rejoins_of_joinsBy hjoins) hbefore hsame
    exact ⟨_, hafter, fun _ => memberRole_keeps hrole hw.keepsRoles⟩

/-- The step is the commit of a role for the user. -/
abbrev GivesRole (organizationId userId : ℕ) : AccessWorld → AccessLabel → Prop :=
  CommitsAt fun _ call => givesRole organizationId userId call.pc = true

/-- The step is the commit of a login or a backfill that restores a role. -/
abbrev Restores (organizationId userId : ℕ) : AccessWorld → AccessLabel → Prop :=
  CommitsAt fun s call => restores organizationId userId s call = true

/-- The step is the commit of `removeMember`. -/
abbrev Removes (organizationId userId : ℕ) : AccessWorld → AccessLabel → Prop :=
  CommitsAt fun _ call => removes organizationId userId call.pc = true

/-- **A step leaves the membership so**, unless it gives the user a role or restores one. -/
theorem Demoted.step (h : Demoted w.shared.db.rows organizationId userId)
    (hreach : Reachable (access cfg).program.system w) (hgives : ¬ GivesRole organizationId userId w l)
    (hrestores : ¬ Restores organizationId userId w l)
    (hn : (access cfg).program.next w l = some w') :
    Demoted w'.shared.db.rows organizationId userId := by
  rcases accessFollows.rows_of_next hreach hn with hrows | ⟨i, c, call, rfl, hcommit⟩
  · rwa [hrows]
  · have hw : Wrote cfg call.pc w.shared.db.rows w'.shared.db.rows :=
      ⟨accessCommit_of_stmt hcommit.stmt, hcommit.wrote⟩
    refine h.commit hw (fun hpc => hgives ⟨hcommit.executed, call, hcommit.proc, hpc⟩) ?_
    intro membership hrejoins hrow hchanged
    by_contra hdefault
    have hwrote : (call.tx.writes (membershipKey organizationId userId)).isSome = true := by
      refine Option.isSome_iff_ne_none.mpr fun hnone => ?_
      rw [hcommit.rows] at hchanged
      exact hchanged (Writes.read_of_none hnone)
    refine hrestores ⟨hcommit.executed, call, hcommit.proc, ?_⟩
    refine decide_eq_true ⟨hrejoins, hwrote, ?_⟩
    rw [hrow]
    simpa using hdefault

theorem demoted_of_removes (hreach : Reachable (access cfg).program.system w)
    (hremoves : Removes organizationId userId w l) (hn : (access cfg).program.next w l = some w') :
    Demoted w'.shared.db.rows organizationId userId := by
  cases l with
  | step i c =>
    obtain ⟨hexecuted, call, hp, hpc⟩ := hremoves
    have hstmt : (access cfg).stmt call.pc = some .commit := by
      unfold removes at hpc
      split at hpc
      · next he => rw [he]; rfl
      · cases hpc
    have hcommit := accessFollows.commits hreach hp hstmt hexecuted hn
    exact demoted_of_removed ⟨accessCommit_of_stmt hcommit.stmt, hcommit.wrote⟩ hpc
  | _ => cases hremoves

/-- **A user who was removed has the permissions of the default member role only**, in every run from
the commit of `removeMember` in which he is given no role, and in which no login and no backfill
restores another role. -/
theorem removed_holds_default (h : Reachable (access cfg).program.system w)
    (hremoves : Removes organizationId userId w l) (hn : (access cfg).program.next w l = some w₁)
    (hpath : Path (access cfg).program.system (fun w l =>
      ¬ GivesRole organizationId userId w l ∧ ¬ Restores organizationId userId w l) w₁ w₂) :
    OnlyDefault cfg w₂.shared.db.rows organizationId userId := by
  have h₁ : Reachable (access cfg).program.system w₁ := .step h trivial hn
  have hdemoted : Demoted w₂.shared.db.rows organizationId userId := by
    induction hpath with
    | refl => exact demoted_of_removes h hremoves hn
    | step hpath hgood hn ih =>
      have hreach := h₁.path (hpath.mono fun _ _ _ => trivial)
      exact ih.step hreach hgood.1 hgood.2 hn
  exact hdemoted.onlyDefault

/-! ### Multi-tenant mode -/

/-- A login that joins no organization. -/
def LoginJoinless : LoginPc → Prop
  | .findMembership => True
  | .insertSession initial | .touchUser initial | .commit initial => initialGives initial = none
  | .findOrganization | .insertOrganization | .findRole _ | .updateMembership _
  | .insertMembership _ => False

/-- The call is no backfill, and no login that joins an organization. -/
def Joinless : AccessPc → Prop
  | .createSession _ _ pc => LoginJoinless pc
  | .backfill .. => False
  | _ => True

variable {site : Site AccessKey} {reply : Reply AccessRowOf} {pc' : AccessPc}

theorem joinless_of_other (hlogin : callOf pc ≠ some .createSession)
    (hbackfill : callOf pc ≠ some .backfill) : Joinless pc := by
  cases pc with
  | createSession => exact absurd rfl hlogin
  | backfill => exact absurd rfl hbackfill
  | _ => trivial

theorem loginJoinless_next {input : CreateSession} {expiresAt : ℕ} {pc : LoginPc}
    (h : loginNext site input expiresAt pc reply = some (.ok pc')) (hpc : LoginJoinless pc) :
    Joinless pc' := by
  unfold loginNext at h
  split at h
  · cases hpc
  · cases hpc
  · cases hpc
  · cases hpc
  · cases hpc
  · obtain ⟨found, -, he⟩ := Option.map_eq_some_iff.mp h
    obtain rfl := Except.ok.inj he
    cases found <;> rfl
  · obtain rfl := point_inj h
    exact hpc
  · obtain ⟨-, rfl⟩ := ok_of_requiredRow (Option.some.inj h)
    exact hpc
  · obtain rfl := point_inj h
    trivial
  · cases h

theorem joinless_next (h : accessNext cfg site pc reply = some (.ok pc')) (hpc : Joinless pc) :
    Joinless pc' := by
  by_cases hlogin : callOf pc = some .createSession
  · cases pc with
    | createSession input expiresAt pc => exact loginJoinless_next h hpc
    | _ => cases hlogin
  · rcases callOf_next h with hended | hsame
    · exact joinless_of_other (by simp [hended]) (by simp [hended])
    · refine joinless_of_other (hsame ▸ hlogin) (hsame ▸ fun hbackfill => ?_)
      cases pc with
      | backfill => exact hpc
      | _ => cases hbackfill

theorem start_joinless (hmulti : cfg.mode = .multi) (now : ℕ) (request : AccessRequest) :
    Joinless (accessStart cfg now request) := by
  cases request with
  | organization request =>
    refine joinless_of_other ?_ ?_
    all_goals
      rcases @enter_goesOn (startPc (cfg.organizations noRoles) now request) with hended | horganization
      · simp [accessStart, hended]
      · simp [accessStart, horganization]
  | createSession input =>
    change LoginJoinless (.start cfg.mode)
    rw [hmulti]
    trivial
  | backfill input =>
    unfold accessStart
    simp [hmulti, Joinless]
  | _ => trivial

theorem joinless (hmulti : cfg.mode = .multi) (h : Reachable (access cfg).program.system w) {i : ℕ}
    {call : Caller AccessRowOf AccessPc} (hp : w.proc? i = some call) : Joinless call.pc := by
  have hinv : Invariant (access cfg) (accessNotes cfg) (fun _ _ _ _ => True)
      ⟨fun _ => True, fun _ _ call _ => Joinless call.pc⟩ := by
    refine ⟨.of_points (Q := fun _ => Joinless)
      (fun i now request _ => start_joinless hmulti now request) (fun i e => trivial)
      (fun i site pc reply pc' hnext hpc => joinless_next hnext hpc)
      (fun i site m pc m' pc' hout hpc => ?_), trivial⟩
    obtain ⟨input, pc, rfl⟩ := guarded_of_outside hout
    trivial
  exact (hinv.holds accessFollows (h.mono fun _ _ _ => stepsMeet_true)).2 i call hp

/-- **In multi-tenant mode** no commit restores a role. -/
theorem not_restores_of_multi (hmulti : cfg.mode = .multi)
    (h : Reachable (access cfg).program.system w) : ¬ Restores organizationId userId w l := by
  cases l with
  | step i c =>
    rintro ⟨-, call, hp, hrestores⟩
    have hjoinless := joinless hmulti h hp
    obtain ⟨hrejoins, -⟩ := of_decide_eq_true hrestores
    unfold rejoins at hrejoins
    split at hrejoins
    · next he =>
      rw [he] at hjoinless
      cases hjoinless
    · next he =>
      rw [he] at hjoinless
      exact hjoinless
    · cases hrejoins
  | _ => exact id

/-! ### Runs -/

/-- The user has a permission that no default member role has. -/
def exceedsDefault (cfg : AccessConfig) (rows : AccessRows) (keys : List AccessKey)
    (organizationId userId : ℕ) (code : String) : Bool :=
  hasOrganizationGrant cfg rows userId organizationId code ∧
    findMany rows keys (.inr .role) (fun (id : ℕ) (_ : RoleRow) =>
      memberRole rows id ∧ holdsCode cfg rows id code) = []

theorem not_onlyDefault {keys : List AccessKey} {code : String}
    (hlisted : ∀ k, rows k ≠ none → k ∈ keys)
    (h : exceedsDefault cfg rows keys organizationId userId code = true) :
    ¬ OnlyDefault cfg rows organizationId userId := by
  obtain ⟨hgrant, hnone⟩ := of_decide_eq_true h
  intro honly
  obtain ⟨roleId, hmember, hholds⟩ := honly code hgrant
  obtain ⟨role, hrole, -⟩ := (Option.any_eq_true _ _).mp hmember
  refine List.not_mem_nil (a := (roleId, role)) ?_
  rw [← hnone, mem_findMany]
  refine ⟨hlisted _ ?_, hrole, decide_eq_true ⟨hmember, hholds⟩⟩
  rw [hrole]
  exact Option.some_ne_none _

/-- The first owner is removed, and `labels` are executed after the commit. -/
theorem exists_removed (mode : TenancyMode) (good : AccessWorld → AccessLabel → Prop)
    [∀ w l, Decidable (good w l)] (labels : List AccessLabel) (Q : AccessWorld → Prop)
    [DecidablePred Q]
    (h : (exec (access (exampleConfig mode)).program.system anyStep
        ⟨(access (exampleConfig mode)).program.init, []⟩
        (.spawn (.organization (.removeMember ⟨0, 0⟩)) :: steps 0 12)).any (fun w =>
      decide (Removes 0 0 w (.step 0 {})) &&
        ((access (exampleConfig mode)).program.next w (.step 0 {})).any fun w₁ =>
          (exec (access (exampleConfig mode)).program.system good w₁ labels).any fun w₂ =>
            decide (Q w₂)) = true) :
    ∃ w w₁ w₂ : AccessWorld, Reachable (access (exampleConfig mode)).program.system w ∧
      Removes 0 0 w (.step 0 {}) ∧
      (access (exampleConfig mode)).program.next w (.step 0 {}) = some w₁ ∧
      Path (access (exampleConfig mode)).program.system good w₁ w₂ ∧ Q w₂ := by
  obtain ⟨w, hw, h⟩ := (Option.any_eq_true _ _).mp h
  obtain ⟨hremoves, h⟩ := Bool.and_eq_true_iff.mp h
  obtain ⟨w₁, hw₁, h⟩ := (Option.any_eq_true _ _).mp h
  obtain ⟨w₂, hw₂, h⟩ := (Option.any_eq_true _ _).mp h
  exact ⟨w, w₁, w₂, (ReachableBy.init rfl).path (path_of_exec .refl hw), of_decide_eq_true hremoves,
    hw₁, path_of_exec .refl hw₂, of_decide_eq_true h⟩

/-- An owner who was removed has no permission after a login in multi-tenant mode. -/
theorem removed_holds_default_multi : ∃ w : AccessWorld,
    (w.shared.db.rows (sessionKey 1)).isSome ∧
      OnlyDefault (exampleConfig .multi) w.shared.db.rows 0 0 := by
  obtain ⟨w, w₁, w₂, h, hremoves, hn, hpath, hsession⟩ := exists_removed .multi
    (fun w l => ¬ GivesRole 0 0 w l ∧ ¬ Restores 0 0 w l)
    (.spawn (.createSession ⟨1, 1, 0⟩) :: steps 1 6)
    (fun w => (w.shared.db.rows (sessionKey 1)).isSome) (by decide)
  exact ⟨w₂, hsession, removed_holds_default h hremoves hn hpath⟩

/-- **A login in single mode restores the role** of an owner who was removed. -/
theorem owner_restored : ∃ w w₁ w₂ : AccessWorld,
    Reachable (access (exampleConfig .single)).program.system w ∧ Removes 0 0 w (.step 0 {}) ∧
      (access (exampleConfig .single)).program.next w (.step 0 {}) = some w₁ ∧
      Path (access (exampleConfig .single)).program.system (fun w l => ¬ GivesRole 0 0 w l) w₁ w₂ ∧
      ¬ OnlyDefault (exampleConfig .single) w₂.shared.db.rows 0 0 := by
  obtain ⟨w, w₁, w₂, h, hremoves, hn, hpath, hexceeds⟩ := exists_removed .single
    (fun w l => ¬ GivesRole 0 0 w l) (.spawn (.createSession ⟨1, 1, 0⟩) :: steps 1 10)
    (fun w => exceedsDefault (exampleConfig .single) w.shared.db.rows w.shared.db.keys 0 0
      "organizations.update" = true) (by decide)
  have hnext : (access (exampleConfig .single)).program.system.next w (.step 0 {}) = some w₁ := hn
  have h₁ : Reachable (access (exampleConfig .single)).program.system w₁ := .step h trivial hnext
  have h₂ := h₁.path (hpath.mono fun _ _ _ => trivial)
  exact ⟨w, w₁, w₂, h, hremoves, hn, hpath,
    not_onlyDefault ((accessFollows.outline anyStep).holds h₂).shared hexceeds⟩

end BackendFoundation.Access.Rejoin
