import BackendFoundation.Access.Log

/-! # What the commits do to the rows of the guards

What a commit does, table by table, for the tables that the guards read: it leaves the roles, and who
loses something by it is said by the constructors of `RolePermissionWrite`, `UserRoleWrite` and
`MemberWrite`. `UserWrite` and `OrganizationWrite` say whose permission epoch it increments. -/

namespace BackendFoundation.Access.Commits

open Lib.Database Lib.WriteLog Lib.Schema Lib.Extend Organizations.Model Organizations.Log
open Access.Model Access.Log
open Option (some.inj)

variable {cfg : AccessConfig} {pc : AccessPc}

/-! ### Entries of other tables -/

section OtherTables

variable {t : Table} {id : TableId t} {before after : Option (TableRow t)}

@[simp] theorem sessions_of_ne (h : t ≠ .inr .session) :
    Sessions ⟨t, id⟩ before after ↔ after = before :=
  ⟨fun hs => hs.resolve_left h, .inr⟩

@[simp] theorem founds_of_ne {id' : ℕ} {slug : String} (h : t ≠ .inl .organization) :
    Founds id' slug ⟨t, id⟩ before after ↔ after = before := by
  constructor
  · intro hf
    cases hf with
    | same => rfl
    | inserted => exact absurd rfl h
  · rintro rfl
    exact .same

@[simp] theorem joins_of_ne {organizationId roleId : ℕ} {users : ℕ → Prop}
    (h : t ≠ .inl .membership) :
    Joins organizationId roleId users ⟨t, id⟩ before after ↔ after = before := by
  constructor
  · intro hj
    cases hj with
    | same => rfl
    | joined | rejoined => exact absurd rfl h
  · rintro rfl
    exact .same

@[simp] theorem connects_of_ne {roleId : ℕ} (h : t ≠ .inr .rolePermission) :
    Connects roleId ⟨t, id⟩ before after ↔ after = before := by
  constructor
  · intro hc
    cases hc with
    | same => rfl
    | connected => exact absurd rfl h
  · rintro rfl
    exact .same

@[simp] theorem recodes_of_ne {roleId : ℕ} {toRemove : List String} (h : t ≠ .inr .rolePermission) :
    Recodes roleId toRemove ⟨t, id⟩ before after ↔ after = before := by
  constructor
  · intro hr
    cases hr with
    | same => rfl
    | recoded _ => exact absurd rfl h
  · rintro rfl
    exact .same

@[simp] theorem revokes_of_ne {userId roleId : ℕ} (h : t ≠ .inr .userRole) :
    Revokes userId roleId ⟨t, id⟩ before after ↔ after = before := by
  constructor
  · intro hr
    cases hr with
    | same => rfl
    | revoked => exact absurd rfl h
  · rintro rfl
    exact .same

end OtherTables

/-! ### Tables -/

structure Wrote (cfg : AccessConfig) (pc : AccessPc) (rows rows' : AccessRows) : Prop where
  commit : AccessCommit pc
  wrote : ∀ k, Entry.inTurn (accessWritten cfg pc) k (rows k) (rows' k)

variable {rows rows' : AccessRows}

theorem wrote_first {pc : OrganizationPc} {t : Relation} {id : Organizations.Model.Id t}
    {before after : Option (Organizations.Model.Row t)}
    (h : Entry.inTurn (accessWritten cfg (.organization pc)) ⟨.inl t, id⟩ before after) :
    Entry.inTurn (written (cfg.organizations noRoles) pc) ⟨t, id⟩ before after := by
  obtain ⟨between, hfirst, hbesides⟩ := Entry.inTurn_append.mp h
  obtain rfl := (inTurn_first_of_same fun e he => besides_first he t id).mp hbesides
  exact inTurn_lift_first.mp hfirst

theorem wrote_second {pc : OrganizationPc} {t : AccessRelation} {id : AccessId t}
    {before after : Option (AccessRow t)}
    (h : Entry.inTurn (accessWritten cfg (.organization pc)) ⟨.inr t, id⟩ before after) :
    Entry.inTurn (besides pc) ⟨.inr t, id⟩ before after := by
  obtain ⟨between, hfirst, hbesides⟩ := Entry.inTurn_append.mp h
  obtain rfl := inTurn_lift_second.mp hfirst
  exact hbesides

theorem Wrote.role (h : Wrote cfg pc rows rows') (id : ℕ) :
    rows' (roleKey id) = rows (roleKey id) ∨ rows (roleKey id) = none := by
  have hw := h.wrote (roleKey id)
  cases h.commit with
  | organization hc =>
    have hw := wrote_second hw
    cases hc <;> simp [besides] at hw <;> exact .inl hw
  | createRole =>
    simp [accessWritten, createRoleWrote, CreateRole.inserted] at hw
    rcases new_cases hw with ⟨-, he⟩ | ⟨-, hnone, -⟩
    · exact .inl he
    · exact .inr hnone
  | @createSession input expiresAt initial =>
    cases initial <;> simp [accessWritten, loginWrote, initialWrote, Joining.joins] at hw <;>
      exact .inl hw
  | @revokeRole input revoked =>
    cases revoked <;> simp [accessWritten, revokeRoleWrote] at hw <;> exact .inl hw
  | @updateRole input change bumped =>
    cases bumped <;> simp [accessWritten, updateRoleWrote, Bumped.wrote] at hw <;> exact .inl hw
  | switchOrganization | revokeSession | backfill | assignRole =>
    simp [accessWritten, switchWrote, logoutWrote, backfillWrote, Backfill.founds, assignWrote] at hw
    exact .inl hw

def KeepsRoles (rows rows' : AccessRows) : Prop :=
  ∀ id (role : RoleRow), rows (roleKey id) = some role → rows' (roleKey id) = some role

theorem Wrote.keepsRoles (h : Wrote cfg pc rows rows') : KeepsRoles rows rows' := by
  intro id role hrole
  rcases h.role id with he | hnone
  · exact he.trans hrole
  · rw [hrole] at hnone
    cases hnone

/-- What a commit does to a permission of a role. -/
inductive RolePermissionWrite (pc : AccessPc) (id : ℕ × String) :
    Option RolePermission → Option RolePermission → Prop
  | same {row : Option RolePermission} : RolePermissionWrite pc id row row
  | connected : RolePermissionWrite pc id none (some {})
  | recoded {input : UpdateRolePermissions} {change : RoleChange} {bumped : Bumped}
      {before after : Option RolePermission} : pc = .updateRole input (.commit change bumped) →
      id.1 = input.roleId → after.any RolePermission.live = true ∨ id.2 ∈ change.toRemove →
      RolePermissionWrite pc id before after

theorem Wrote.rolePermission (h : Wrote cfg pc rows rows') (id : ℕ × String) :
    RolePermissionWrite pc id (rows ⟨.inr .rolePermission, id⟩)
      (rows' ⟨.inr .rolePermission, id⟩) := by
  have hw := h.wrote ⟨.inr .rolePermission, id⟩
  have hsame {before after : Option RolePermission} (he : after = before) :
      RolePermissionWrite pc id before after := he ▸ .same
  cases h.commit with
  | organization hc =>
    have hw := wrote_second hw
    cases hc <;> simp [besides] at hw <;> exact hsame hw
  | @createSession input expiresAt initial =>
    cases initial <;> simp [accessWritten, loginWrote, initialWrote, Joining.joins] at hw <;>
      exact hsame hw
  | createRole =>
    simp [accessWritten, createRoleWrote, CreateRole.inserted] at hw
    generalize rows ⟨.inr .rolePermission, id⟩ = before at hw
    generalize rows' ⟨.inr .rolePermission, id⟩ = after at hw
    cases hw with
    | same => exact .same
    | connected => exact .connected
  | @revokeRole input revoked =>
    cases revoked <;> simp [accessWritten, revokeRoleWrote] at hw <;> exact hsame hw
  | @updateRole input change bumped =>
    have hw : Recodes input.roleId change.toRemove ⟨.inr .rolePermission, id⟩
        (rows ⟨.inr .rolePermission, id⟩) (rows' ⟨.inr .rolePermission, id⟩) := by
      cases bumped <;> simpa [accessWritten, updateRoleWrote, Bumped.wrote] using hw
    generalize rows ⟨.inr .rolePermission, id⟩ = before at hw
    generalize rows' ⟨.inr .rolePermission, id⟩ = after at hw
    cases hw with
    | same => exact .same
    | recoded hcode => exact .recoded rfl rfl hcode
  | switchOrganization | revokeSession | backfill | assignRole =>
    simp [accessWritten, switchWrote, logoutWrote, backfillWrote, Backfill.founds, assignWrote] at hw
    exact hsame hw

/-- What a commit does to a user role. -/
inductive UserRoleWrite (pc : AccessPc) (id : ℕ × ℕ) : Option UserRole → Option UserRole → Prop
  | same {row : Option UserRole} : UserRoleWrite pc id row row
  | assigned {before : Option UserRole} {row : UserRole} : row.live = true →
      UserRoleWrite pc id before (some row)
  | revoked {input : RevokeRole} {row : UserRole} {deletedAt : ℕ} :
      pc = .revokeRole input (.commit true) → id = (input.userId, input.roleId) →
      UserRoleWrite pc id (some row) (some { row with deletedAt := some deletedAt })
  | dropped {input : DeleteAccount} {deletedAt : ℕ} {locked : List ℕ} {row : UserRole} :
      pc = .organization (.delete input (.commit deletedAt locked)) → id.1 = input.userId →
      UserRoleWrite pc id (some row) none

theorem Wrote.userRole (h : Wrote cfg pc rows rows') (id : ℕ × ℕ) :
    UserRoleWrite pc id (rows ⟨.inr .userRole, id⟩) (rows' ⟨.inr .userRole, id⟩) := by
  have hw := h.wrote ⟨.inr .userRole, id⟩
  have hsame {before after : Option UserRole} (he : after = before) :
      UserRoleWrite pc id before after := he ▸ .same
  cases h.commit with
  | organization hc =>
    have hw := wrote_second hw
    cases hc with
    | delete =>
      simp [besides] at hw
      rcases Removal.may_cases hw with he | ⟨row, hbefore, hcond, hafter⟩
      · exact hsame he
      · rw [hbefore, hafter]
        exact .dropped rfl (of_decide_eq_true hcond).1
    | create | change | remove | invite | accept | revoke =>
      simp [besides] at hw
      exact hsame hw
  | @createSession input expiresAt initial =>
    cases initial <;> simp [accessWritten, loginWrote, initialWrote, Joining.joins] at hw <;>
      exact hsame hw
  | assignRole =>
    simp [accessWritten, assignWrote] at hw
    rcases Upsert.put_cases hw with ⟨-, he⟩ | ⟨-, -, hafter⟩ | ⟨-, row, -, hafter⟩
    · exact hsame he
    · rw [hafter]
      exact .assigned rfl
    · rw [hafter]
      exact .assigned rfl
  | @revokeRole input revoked =>
    cases revoked with
    | false =>
      simp [accessWritten, revokeRoleWrote] at hw
      exact hsame hw
    | true =>
      simp [accessWritten, revokeRoleWrote] at hw
      generalize rows ⟨.inr .userRole, id⟩ = before at hw
      generalize rows' ⟨.inr .userRole, id⟩ = after at hw
      cases hw with
      | same => exact .same
      | revoked => exact .revoked rfl rfl
  | @updateRole input change bumped =>
    cases bumped <;> simp [accessWritten, updateRoleWrote, Bumped.wrote] at hw <;> exact hsame hw
  | switchOrganization | revokeSession | backfill | createRole =>
    simp [accessWritten, switchWrote, logoutWrote, backfillWrote, Backfill.founds, createRoleWrote,
      CreateRole.inserted] at hw
    exact hsame hw

/-- The commit is one by which the user joins the organization, with a role if he is new there. -/
inductive JoinsBy : AccessPc → ℕ → ℕ → ℕ → Prop
  | login {input : CreateSession} {expiresAt : ℕ} {joining : Joining} :
      JoinsBy (.createSession input expiresAt (.commit (.joined joining))) joining.organizationId
        joining.roleId joining.userId
  | backfill {input : Backfill} {organizationId roleId userId : ℕ} :
      JoinsBy (.backfill input (.commit organizationId roleId)) organizationId roleId userId

/-- What a commit does to the membership of a user in an organization. -/
inductive MemberWrite (pc : AccessPc) (id : ℕ × ℕ) : Option Membership → Option Membership → Prop
  | same {membership : Option Membership} : MemberWrite pc id membership membership
  | created {input : CreateOrganization} {roleId joinedAt : ℕ} :
      pc = .organization (.create input (.commit roleId joinedAt)) →
      id = (input.id, input.actorUserId) →
      MemberWrite pc id none (some (input.membership roleId joinedAt))
  | changed {input : ChangeMemberRole} {membership : Membership} :
      pc = .organization (.change input .commit) → id = (input.organizationId, input.userId) →
      MemberWrite pc id (some membership) (some { membership with roleId := input.roleId })
  | removed {input : RemoveMember} {deletedAt : ℕ} {membership : Membership} :
      pc = .organization (.remove input (.commit deletedAt)) →
      id = (input.organizationId, input.userId) →
      MemberWrite pc id (some membership)
        (some { membership with deletedAt := some deletedAt, status := .suspended })
  | accepted {input : AcceptInvitation} {accepting : Accepting} {acceptedAt : ℕ}
      {before : Option Membership} {membership : Membership} :
      pc = .organization (.accept input (.commit accepting acceptedAt)) →
      id = (accepting.organizationId, accepting.userId) →
      membership.roleId = accepting.roleId → MemberWrite pc id before (some membership)
  | suspended {input : DeleteAccount} {deletedAt : ℕ} {locked : List ℕ} {membership : Membership} :
      pc = .organization (.delete input (.commit deletedAt locked)) → id.2 = input.userId →
      MemberWrite pc id (some membership)
        (some { membership with status := .suspended, deletedAt := some deletedAt })
  | joined {roleId joinedAt : ℕ} : JoinsBy pc id.1 roleId id.2 →
      MemberWrite pc id none (some { roleId := roleId, joinedAt := some joinedAt })
  | rejoined {roleId : ℕ} {membership : Membership} : JoinsBy pc id.1 roleId id.2 →
      MemberWrite pc id (some membership)
        (some { membership with status := .active, deletedAt := none })

theorem memberWrite_of_joins {organizationId roleId : ℕ} {users : ℕ → Prop}
    (hjoins : ∀ userId, users userId → JoinsBy pc organizationId roleId userId) {id : ℕ × ℕ}
    {before after : Option Membership}
    (h : Joins organizationId roleId users ⟨.inl .membership, id⟩ before after) :
    MemberWrite pc id before after := by
  cases h with
  | same => exact .same
  | joined huser => exact .joined (hjoins _ huser)
  | rejoined huser => exact .rejoined (hjoins _ huser)

theorem Wrote.membership (h : Wrote cfg pc rows rows') (id : ℕ × ℕ) :
    MemberWrite pc id (rows ⟨.inl .membership, id⟩) (rows' ⟨.inl .membership, id⟩) := by
  have hw := h.wrote ⟨.inl .membership, id⟩
  have hsame {before after : Option Membership} (he : after = before) :
      MemberWrite pc id before after := he ▸ .same
  cases h.commit with
  | organization hc =>
    have hw := wrote_first hw
    generalize rows ⟨.inl .membership, id⟩ = before at hw
    generalize rows' ⟨.inl .membership, id⟩ = after at hw
    cases hc with
    | create =>
      simp [written, createWrote] at hw
      rcases new_cases hw with ⟨-, rfl⟩ | ⟨hid, rfl, rfl⟩
      · exact .same
      · exact .created rfl hid
    | change =>
      simp [written, changeWrote] at hw
      rcases Update.must_cases hw with ⟨-, rfl⟩ | ⟨hid, membership, rfl, -, rfl⟩
      · exact .same
      · exact .changed rfl hid
    | remove =>
      simp [written, removeWrote] at hw
      rcases Update.must_cases hw with ⟨-, rfl⟩ | ⟨hid, membership, rfl, -, rfl⟩
      · exact .same
      · exact .removed rfl hid
    | accept =>
      simp [written, acceptWrote] at hw
      rcases Upsert.put_cases hw with ⟨-, rfl⟩ | ⟨hid, rfl, rfl⟩ | ⟨hid, membership, rfl, rfl⟩
      · exact .same
      · exact .accepted rfl hid rfl
      · exact .accepted rfl hid rfl
    | delete =>
      simp [written, deleteWrote] at hw
      rcases Update.may_cases hw with rfl | ⟨membership, rfl, hcond, rfl⟩
      · exact .same
      · exact .suspended rfl (of_decide_eq_true hcond).1
    | invite | revoke =>
      simp [written, inviteWrote, revokeWrote] at hw
      exact hsame hw
  | @createSession input expiresAt initial =>
    cases initial with
    | joined joining =>
      simp [accessWritten, loginWrote, initialWrote, Joining.joins] at hw
      exact memberWrite_of_joins (fun userId huser => huser ▸ .login) hw
    | none | member =>
      simp [accessWritten, loginWrote, initialWrote] at hw
      exact hsame hw
  | backfill =>
    simp [accessWritten, backfillWrote, Backfill.founds] at hw
    exact memberWrite_of_joins (fun _ _ => .backfill) hw
  | @revokeRole input revoked =>
    cases revoked <;> simp [accessWritten, revokeRoleWrote] at hw <;> exact hsame hw
  | @updateRole input change bumped =>
    cases bumped <;> simp [accessWritten, updateRoleWrote, Bumped.wrote] at hw <;> exact hsame hw
  | switchOrganization | revokeSession | assignRole | createRole =>
    simp [accessWritten, switchWrote, logoutWrote, assignWrote, createRoleWrote,
      CreateRole.inserted] at hw
    exact hsame hw

/-- The user whose permission epoch a commit has to increment. -/
def touchedBy : AccessPc → Option ℕ
  | .organization (.create input (.commit ..)) => some input.actorUserId
  | .organization (.change input .commit) => some input.userId
  | .organization (.remove input (.commit _)) => some input.userId
  | .organization (.accept input (.commit ..)) => some input.userId
  | .assignRole input .commit => some input.userId
  | .revokeRole input (.commit true) => some input.userId
  | _ => none

/-- The user whom a commit has to erase. -/
def erasedBy : AccessPc → Option ℕ
  | .organization (.delete input (.commit ..)) => some input.userId
  | _ => none

inductive UserWrite (pc : AccessPc) (id : ℕ) : Option User → Option User → Prop
  | same {user : Option User} : touchedBy pc ≠ some id → erasedBy pc ≠ some id →
      UserWrite pc id user user
  | touched {user : User} : touchedBy pc = some id →
      UserWrite pc id (some user) (some { user with permissionEpoch := user.permissionEpoch + 1 })
  | held {input : UpdateRolePermissions} {change : RoleChange} {userIds : List ℕ} {user : User} :
      pc = .updateRole input (.commit change (.holders userIds)) → id ∈ userIds →
      UserWrite pc id (some user) (some { user with permissionEpoch := user.permissionEpoch + 1 })
  | erased {input : DeleteAccount} {deletedAt : ℕ} {locked : List ℕ} {user : User} :
      pc = .organization (.delete input (.commit deletedAt locked)) → id = input.userId →
      UserWrite pc id (some user) (some (user.erased deletedAt))

theorem erasedBy_of_touchedBy {userId : ℕ} (h : touchedBy pc = some userId) : erasedBy pc = none := by
  unfold touchedBy at h
  split at h <;> first | rfl | cases h

theorem userWrite_of_touch {id userId : ℕ} {before after : Option User}
    (htouched : touchedBy pc = some userId)
    (h : (touchPermissionEpoch userId).must userId ⟨.inl .user, id⟩ before after) :
    UserWrite pc id before after := by
  rcases Update.must_cases h with ⟨hne, rfl⟩ | ⟨rfl, user, rfl, -, rfl⟩
  · refine .same (fun he => hne (some.inj (htouched.symm.trans he)).symm) ?_
    rw [erasedBy_of_touchedBy htouched]
    exact nofun
  · exact .touched htouched

theorem userWrite_of_touchUser {id userId : ℕ} {before after : Option User}
    (htouched : touchedBy pc = some userId)
    (h : (touchUser userId).must userId ⟨.user, id⟩ before after) :
    UserWrite pc id before after := by
  rcases Update.must_cases h with ⟨hne, rfl⟩ | ⟨rfl, user, rfl, -, rfl⟩
  · refine .same (fun he => hne (some.inj (htouched.symm.trans he)).symm) ?_
    rw [erasedBy_of_touchedBy htouched]
    exact nofun
  · exact .touched htouched

theorem Wrote.user (h : Wrote cfg pc rows rows') (id : ℕ) :
    UserWrite pc id (rows (userKey id)) (rows' (userKey id)) := by
  have hw := h.wrote (userKey id)
  have hsame {before after : Option User} (hno : touchedBy pc = none) (hkept : erasedBy pc = none)
      (he : after = before) : UserWrite pc id before after :=
    he ▸ .same (hno.trans_ne (Option.some_ne_none id).symm)
      (hkept.trans_ne (Option.some_ne_none id).symm)
  cases h.commit with
  | organization hc =>
    have hw := wrote_first hw
    generalize rows (userKey id) = before at hw
    generalize rows' (userKey id) = after at hw
    cases hc with
    | create =>
      simp [written, createWrote] at hw
      exact userWrite_of_touchUser rfl hw
    | change =>
      simp [written, changeWrote] at hw
      exact userWrite_of_touchUser rfl hw
    | remove =>
      simp [written, removeWrote] at hw
      exact userWrite_of_touchUser rfl hw
    | accept =>
      simp [written, acceptWrote] at hw
      exact userWrite_of_touchUser rfl hw
    | delete =>
      simp [written, deleteWrote] at hw
      rcases Update.must_cases hw with ⟨hne, rfl⟩ | ⟨hid, user, rfl, -, rfl⟩
      · exact .same (Option.some_ne_none id).symm fun he => hne (some.inj he).symm
      · exact .erased rfl hid
    | invite | revoke =>
      simp [written, inviteWrote, revokeWrote] at hw
      exact hsame rfl rfl hw
  | @createSession input expiresAt initial =>
    cases initial <;> simp [accessWritten, loginWrote, initialWrote, Joining.joins] at hw <;>
      exact hsame rfl rfl hw
  | assignRole =>
    simp [accessWritten, assignWrote] at hw
    exact userWrite_of_touch rfl hw
  | @revokeRole input revoked =>
    cases revoked with
    | false =>
      simp [accessWritten, revokeRoleWrote] at hw
      exact hsame rfl rfl hw
    | true =>
      simp [accessWritten, revokeRoleWrote] at hw
      exact userWrite_of_touch rfl hw
  | @updateRole input change bumped =>
    cases bumped with
    | organization organizationId =>
      simp [accessWritten, updateRoleWrote, Bumped.wrote] at hw
      exact hsame rfl rfl hw
    | holders userIds =>
      simp [accessWritten, updateRoleWrote, Bumped.wrote] at hw
      rcases Update.may_cases hw with he | ⟨user, hbefore, hcond, hafter⟩
      · exact hsame rfl rfl he
      · rw [hbefore, hafter]
        exact .held rfl (of_decide_eq_true hcond).1
  | switchOrganization | revokeSession | backfill | createRole =>
    simp [accessWritten, switchWrote, logoutWrote, backfillWrote, Backfill.founds, createRoleWrote,
      CreateRole.inserted] at hw
    exact hsame rfl rfl hw

/-- A user who is not deleted has not been deleted before, and no epoch goes back. -/
theorem Wrote.live_before (h : Wrote cfg pc rows rows') {id : ℕ} {user : User}
    (hafter : rows' (userKey id) = some user) (hlive : user.live = true) :
    ∃ old : User, rows (userKey id) = some old ∧ old.live = true ∧
      old.permissionEpoch ≤ user.permissionEpoch := by
  have hwrite := h.user id
  rw [hafter] at hwrite
  generalize hbefore : rows (userKey id) = before at hwrite
  generalize hnew : some user = after at hwrite
  cases hwrite with
  | same =>
    subst hnew
    exact ⟨user, rfl, hlive, Nat.le_refl _⟩
  | touched | held =>
    obtain rfl := some.inj hnew
    exact ⟨_, rfl, hlive, Nat.le_succ _⟩
  | erased =>
    obtain rfl := some.inj hnew
    cases hlive

/-- The organization whose permission epoch a commit has to increment. -/
def organizationTouchedBy : AccessPc → Option ℕ
  | .updateRole _ (.commit _ (.organization organizationId)) => some organizationId
  | _ => none

/-- What a commit does to an organization. -/
inductive OrganizationWrite (pc : AccessPc) (id : ℕ) :
    Option Organization → Option Organization → Prop
  | same {organization : Option Organization} : organizationTouchedBy pc ≠ some id →
      OrganizationWrite pc id organization organization
  | created {organization : Organization} : organizationTouchedBy pc = none →
      OrganizationWrite pc id none (some organization)
  | touched {organization : Organization} : organizationTouchedBy pc = some id →
      OrganizationWrite pc id (some organization)
        (some { organization with permissionEpoch := organization.permissionEpoch + 1 })

theorem organizationWrite_of_founds {id id' : ℕ} {slug : String}
    {before after : Option Organization} (hno : organizationTouchedBy pc = none)
    (h : Founds id' slug ⟨.inl .organization, id⟩ before after) :
    OrganizationWrite pc id before after := by
  cases h with
  | same => exact .same (hno ▸ nofun)
  | inserted => exact .created hno

theorem Wrote.organization (h : Wrote cfg pc rows rows') (id : ℕ) :
    OrganizationWrite pc id (rows (organizationKey id)) (rows' (organizationKey id)) := by
  have hw := h.wrote (organizationKey id)
  have hsame {before after : Option Organization} (hno : organizationTouchedBy pc = none)
      (he : after = before) : OrganizationWrite pc id before after :=
    he ▸ .same (hno.trans_ne (Option.some_ne_none id).symm)
  cases h.commit with
  | organization hc =>
    have hw := wrote_first hw
    generalize rows (organizationKey id) = before at hw
    generalize rows' (organizationKey id) = after at hw
    cases hc with
    | create =>
      simp [written, createWrote] at hw
      rcases new_cases hw with ⟨-, rfl⟩ | ⟨-, rfl, rfl⟩
      · exact hsame rfl rfl
      · exact .created rfl
    | change | remove | accept | delete | invite | revoke =>
      simp [written, changeWrote, removeWrote, acceptWrote, deleteWrote, inviteWrote, revokeWrote] at hw
      exact hsame rfl hw
  | @createSession input expiresAt initial =>
    cases initial with
    | joined joining =>
      simp [accessWritten, loginWrote, initialWrote, Joining.joins] at hw
      exact organizationWrite_of_founds rfl hw
    | none | member =>
      simp [accessWritten, loginWrote, initialWrote] at hw
      exact hsame rfl hw
  | backfill =>
    simp [accessWritten, backfillWrote, Backfill.founds] at hw
    exact organizationWrite_of_founds rfl hw
  | @revokeRole input revoked =>
    cases revoked <;> simp [accessWritten, revokeRoleWrote] at hw <;> exact hsame rfl hw
  | @updateRole input change bumped =>
    cases bumped with
    | organization organizationId =>
      simp [accessWritten, updateRoleWrote, Bumped.wrote] at hw
      rcases Update.must_cases hw with ⟨hne, he⟩ | ⟨hid, organization, hbefore, -, hafter⟩
      · rw [he]
        exact .same fun ht => hne (some.inj ht).symm
      · rw [hbefore, hafter, hid]
        exact .touched rfl
    | holders userIds =>
      simp [accessWritten, updateRoleWrote, Bumped.wrote] at hw
      exact hsame rfl hw
  | switchOrganization | revokeSession | assignRole | createRole =>
    simp [accessWritten, switchWrote, logoutWrote, assignWrote, createRoleWrote,
      CreateRole.inserted] at hw
    exact hsame rfl hw

/-- The role and the organization of an invitation after a commit: those that it had, or those with
which it is created. -/
theorem Wrote.invitation (h : Wrote cfg pc rows rows') {id : ℕ} {invitation : Invitation}
    (hafter : rows' (invitationKey id) = some invitation) :
    (∃ old : Invitation, rows (invitationKey id) = some old ∧ invitation.roleId = old.roleId ∧
      invitation.organizationId = old.organizationId) ∨
      ∃ input expiresAt, pc = .organization (.invite input (.commit expiresAt)) ∧
        invitation.roleId = input.roleId ∧ invitation.organizationId = input.organizationId := by
  have hw := h.wrote (invitationKey id)
  have hsame (he : rows' (invitationKey id) = rows (invitationKey id)) :
      ∃ old : Invitation, rows (invitationKey id) = some old ∧ invitation.roleId = old.roleId ∧
        invitation.organizationId = old.organizationId :=
    ⟨invitation, he.symm.trans hafter, rfl, rfl⟩
  cases h.commit with
  | organization hc =>
    have hw := wrote_first hw
    cases hc with
    | accept =>
      simp [written, acceptWrote] at hw
      rcases Update.must_cases hw with ⟨-, he⟩ | ⟨-, old, hbefore, -, hnew⟩
      · exact .inl (hsame he)
      · obtain rfl := some.inj (hafter.symm.trans hnew)
        exact .inl ⟨old, hbefore, rfl, rfl⟩
    | revoke =>
      simp [written, revokeWrote] at hw
      rcases Update.must_cases hw with ⟨-, he⟩ | ⟨-, old, hbefore, -, hnew⟩
      · exact .inl (hsame he)
      · obtain rfl := some.inj (hafter.symm.trans hnew)
        exact .inl ⟨old, hbefore, rfl, rfl⟩
    | invite =>
      simp [written, inviteWrote] at hw
      rcases new_cases hw with ⟨-, he⟩ | ⟨-, -, hnew⟩
      · exact .inl (hsame he)
      · obtain rfl := some.inj (hafter.symm.trans hnew)
        exact .inr ⟨_, _, rfl, rfl, rfl⟩
    | create | change | remove | delete =>
      simp [written, createWrote, changeWrote, removeWrote, deleteWrote] at hw
      exact .inl (hsame hw)
  | @createSession input expiresAt initial =>
    cases initial <;> simp [accessWritten, loginWrote, initialWrote, Joining.joins] at hw <;>
      exact .inl (hsame hw)
  | @revokeRole input revoked =>
    cases revoked <;> simp [accessWritten, revokeRoleWrote] at hw <;> exact .inl (hsame hw)
  | @updateRole input change bumped =>
    cases bumped <;> simp [accessWritten, updateRoleWrote, Bumped.wrote] at hw <;>
      exact .inl (hsame hw)
  | switchOrganization | revokeSession | backfill | assignRole | createRole =>
    simp [accessWritten, switchWrote, logoutWrote, backfillWrote, Backfill.founds, assignWrote,
      createRoleWrote, CreateRole.inserted] at hw
    exact .inl (hsame hw)

end BackendFoundation.Access.Commits
