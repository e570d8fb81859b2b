import BackendFoundation.Access.Holders
import BackendFoundation.Access.Scopes

/-! # What the permission epochs say

A commit that takes a grant from a user increments the permission epoch of the user, or that of the
organization in which he has it, or it deletes the user. An update of a global role increments the
epochs of the users who have the role on the platform, and not of those who have it by a membership; it
does so if it finds no other ones (`Informed`). So where the epochs are the same after a commit, the
grants are (`granted_kept`). -/

namespace BackendFoundation.Access.Epochs

open Lib.Database Organizations.Model Access.Model Access.Log Access.Commits Access.Roles
open Access.Holders Access.Scopes
open Option (some.inj)

def LiveUser (rows : AccessRows) (userId : ℕ) : Prop :=
  ∃ user : User, rows (userKey userId) = some user ∧ user.live = true

/-- The permission epochs have been those of the rows. -/
structure Reached (rows : AccessRows) (auth : Authenticated) : Prop where
  user : ∃ user : User, rows (userKey auth.userId) = some user ∧
    auth.permissionEpoch ≤ user.permissionEpoch
  organization : ∀ organization ∈ auth.organization, ∃ row : Organization,
    rows (organizationKey organization.1) = some row ∧ organization.2 ≤ row.permissionEpoch

/-- The grants allow the code in the scope. -/
def Granted (cfg : AccessConfig) (rows : AccessRows) (scope : Scope) (auth : Authenticated)
    (code : String) : Prop :=
  (scope ≠ .organization ∧ PlatformGrant cfg rows auth.userId code) ∨
    (scope ≠ .global ∧ ∃ organization ∈ auth.organization,
      hasOrganizationGrant cfg rows auth.userId organization.1 code = true)

/-- The user has the role on the platform, or as an active member. -/
def HoldsRole (rows : AccessRows) (roleId userId : ℕ) : Prop :=
  (∃ userRole : UserRole, rows (userRoleKey userId roleId) = some userRole ∧ userRole.live = true) ∨
    ∃ organizationId, ∃ membership : Membership,
      rows (membershipKey organizationId userId) = some membership ∧
        activeMember membership = true ∧ membership.roleId = roleId

/-- A commit, and what the call knows then. -/
structure Informed (cfg : AccessConfig) (pc : AccessPc) (rows rows' : AccessRows) : Prop where
  wrote : Wrote cfg pc rows rows'
  fits : Fits rows
  found : RoleFound rows pc
  own : AcceptsOwn pc
  /-- It increments the epochs of all users that it has found to hold a role. -/
  taken : ∀ input change holders, pc = .updateRole input (.commit change (.holders holders)) →
    ∀ id ∈ holders, ∀ user : User, rows (userKey id) = some user → user.live = true →
      rows' (userKey id) = some { user with permissionEpoch := user.permissionEpoch + 1 }
  /-- These are all users from whom it takes a permission. -/
  complete : ∀ input change holders, pc = .updateRole input (.commit change (.holders holders)) →
    ∀ code ∈ change.toRemove, holdsCode cfg rows input.roleId code = true →
      ∀ userId, LiveUser rows userId → HoldsRole rows input.roleId userId → userId ∈ holders

variable {cfg : AccessConfig} {pc : AccessPc} {rows rows' : AccessRows} {keys : List AccessKey}
  {scope : Scope} {auth : Authenticated} {code : String} {userId organizationId roleId : ℕ}

theorem granted_iff (hlisted : ∀ k, rows k ≠ none → k ∈ keys) :
    granted cfg rows keys scope auth code = true ↔ Granted cfg rows scope auth code := by
  unfold granted Granted
  rw [decide_eq_true_eq, hasGlobalGrant_iff hlisted, Option.any_eq_true]
  exact Iff.rfl

/-! ### Epochs -/

theorem LiveUser.before (h : LiveUser rows' userId) (hw : Wrote cfg pc rows rows') :
    LiveUser rows userId := by
  obtain ⟨user, hrow, hlive⟩ := h
  obtain ⟨old, hold, holdLive, -⟩ := hw.live_before hrow hlive
  exact ⟨old, hold, holdLive⟩

theorem user_epoch_le (hw : Wrote cfg pc rows rows') {user : User}
    (hrow : rows (userKey userId) = some user) : ∃ user' : User,
      rows' (userKey userId) = some user' ∧ user.permissionEpoch ≤ user'.permissionEpoch := by
  have hwrite := hw.user userId
  rw [hrow] at hwrite
  generalize hbefore : some user = before at hwrite
  generalize hafter : rows' (userKey userId) = after at hwrite
  cases hwrite with
  | same =>
    subst hbefore
    exact ⟨user, rfl, Nat.le_refl _⟩
  | touched | held =>
    obtain rfl := some.inj hbefore
    exact ⟨_, rfl, Nat.le_succ _⟩
  | erased =>
    obtain rfl := some.inj hbefore
    exact ⟨_, rfl, Nat.le_refl _⟩

theorem organization_epoch_le (hw : Wrote cfg pc rows rows') {organization : Organization}
    (hrow : rows (organizationKey organizationId) = some organization) : ∃ organization' : Organization,
      rows' (organizationKey organizationId) = some organization' ∧
        organization.permissionEpoch ≤ organization'.permissionEpoch := by
  have hwrite := hw.organization organizationId
  rw [hrow] at hwrite
  generalize hbefore : some organization = before at hwrite
  generalize hafter : rows' (organizationKey organizationId) = after at hwrite
  cases hwrite with
  | same =>
    subst hbefore
    exact ⟨organization, rfl, Nat.le_refl _⟩
  | created => cases hbefore
  | touched =>
    obtain rfl := some.inj hbefore
    exact ⟨_, rfl, Nat.le_succ _⟩

theorem Reached.commit (h : Reached rows auth) (hw : Wrote cfg pc rows rows') : Reached rows' auth where
  user := by
    obtain ⟨user, hrow, hle⟩ := h.user
    obtain ⟨user', hrow', hle'⟩ := user_epoch_le hw hrow
    exact ⟨user', hrow', hle.trans hle'⟩
  organization organization hmem := by
    obtain ⟨row, hrow, hle⟩ := h.organization organization hmem
    obtain ⟨row', hrow', hle'⟩ := organization_epoch_le hw hrow
    exact ⟨row', hrow', hle.trans hle'⟩

/-- Epochs that are those of the rows after a commit, and were reached before it, were those of the
rows. -/
theorem current_before (h : Reached rows auth) (hw : Wrote cfg pc rows rows')
    (hcurrent : Current rows' auth) : Current rows auth := by
  obtain ⟨⟨user', hrow', he'⟩, horganizations⟩ := hcurrent
  constructor
  · obtain ⟨user, hrow, hle⟩ := h.user
    obtain ⟨after, hafter, hle'⟩ := user_epoch_le hw hrow
    obtain rfl := some.inj (hafter.symm.trans hrow')
    exact ⟨user, hrow, Nat.le_antisymm hle (hle'.trans he'.ge)⟩
  · intro organization hmem
    obtain ⟨row, hrow, hle⟩ := h.organization organization hmem
    obtain ⟨row', hrow', he'⟩ := horganizations organization hmem
    obtain ⟨after, hafter, hle'⟩ := organization_epoch_le hw hrow
    obtain rfl := some.inj (hafter.symm.trans hrow')
    exact ⟨row, hrow, Nat.le_antisymm hle (hle'.trans he'.ge)⟩

/-! ### Grants -/

/-- The commit has not increased the epoch of the user, and has not deleted him. -/
structure Untouched (pc : AccessPc) (userId : ℕ) : Prop where
  touched : touchedBy pc ≠ some userId
  erased : erasedBy pc ≠ some userId
  holders : ∀ input change holders, pc = .updateRole input (.commit change (.holders holders)) →
    userId ∉ holders

theorem untouched_of_current (hinf : Informed cfg pc rows rows') {user user' : User}
    (hrow : rows (userKey userId) = some user) (hrow' : rows' (userKey userId) = some user')
    (hepoch : user.permissionEpoch = user'.permissionEpoch) (hlive : user'.live = true) :
    Untouched pc userId := by
  have hne {n : ℕ} : n ≠ n + 1 := (Nat.succ_ne_self n).symm
  have hholders : ∀ input change holders, pc = .updateRole input (.commit change (.holders holders)) →
      userId ∉ holders := by
    intro input change holders hpc hmem
    obtain ⟨old, hold, holdLive, -⟩ := hinf.wrote.live_before hrow' hlive
    have hafter := hinf.taken input change holders hpc userId hmem old hold holdLive
    obtain rfl := some.inj (hold.symm.trans hrow)
    obtain rfl := some.inj (hrow'.symm.trans hafter)
    exact hne hepoch
  have hwrite := hinf.wrote.user userId
  rw [hrow, hrow'] at hwrite
  generalize hbefore : some user = before at hwrite
  generalize hafter : some user' = after at hwrite
  cases hwrite with
  | same htouched herased => exact ⟨htouched, herased, hholders⟩
  | touched | held =>
    obtain rfl := some.inj hbefore
    obtain rfl := some.inj hafter
    exact absurd hepoch hne
  | erased =>
    obtain rfl := some.inj hafter
    cases hlive

theorem organization_untouched (hw : Wrote cfg pc rows rows')
    {organization organization' : Organization}
    (hrow : rows (organizationKey organizationId) = some organization)
    (hrow' : rows' (organizationKey organizationId) = some organization')
    (hepoch : organization.permissionEpoch = organization'.permissionEpoch) :
    organizationTouchedBy pc ≠ some organizationId := by
  have hwrite := hw.organization organizationId
  rw [hrow, hrow'] at hwrite
  generalize hbefore : some organization = before at hwrite
  generalize hafter : some organization' = after at hwrite
  cases hwrite with
  | same htouched => exact htouched
  | created => cases hbefore
  | touched =>
    obtain rfl := some.inj hbefore
    obtain rfl := some.inj hafter
    exact absurd hepoch (Nat.succ_ne_self _).symm

/-- A role keeps a permission for a user who has the role, if no epoch is incremented for it. -/
theorem holdsCode_kept (hinf : Informed cfg pc rows rows') (hlive : LiveUser rows userId)
    (huntouched : Untouched pc userId) (hrole : HoldsRole rows roleId userId)
    (horganization : ∀ role : RoleRow, rows (roleKey roleId) = some role →
      ∀ id ∈ role.organizationId, organizationTouchedBy pc ≠ some id)
    (hholds : holdsCode cfg rows roleId code = true) : holdsCode cfg rows' roleId code = true := by
  obtain ⟨hcode, hpermission⟩ := of_decide_eq_true hholds
  refine decide_eq_true ⟨hcode, ?_⟩
  have hwrite := hinf.wrote.rolePermission (roleId, code)
  change (rows ⟨.inr .rolePermission, (roleId, code)⟩).any _ = true at hpermission
  change (rows' ⟨.inr .rolePermission, (roleId, code)⟩).any _ = true
  generalize rows ⟨.inr .rolePermission, (roleId, code)⟩ = before at hwrite hpermission
  generalize rows' ⟨.inr .rolePermission, (roleId, code)⟩ = after at hwrite
  cases hwrite with
  | same => exact hpermission
  | connected => cases hpermission
  | @recoded input change bumped _ _ hpc hid hrecoded =>
    rcases hrecoded with hafter | hremoved
    · exact hafter
    exfalso
    obtain rfl : roleId = input.roleId := hid
    have hfound := hinf.found
    rw [hpc] at hfound
    obtain ⟨hfound, hright⟩ := hfound
    cases bumped with
    | organization id =>
      refine horganization change.role (hfound _ rfl) id hright ?_
      rw [hpc]
      rfl
    | holders userIds =>
      refine huntouched.holders input change userIds hpc ?_
      exact hinf.complete input change userIds hpc code hremoved hholds userId hlive hrole

/-- **A platform grant stays**, if the epoch of the user does. -/
theorem platformGrant_kept (hinf : Informed cfg pc rows rows') (hlive : LiveUser rows userId)
    (huntouched : Untouched pc userId) (h : PlatformGrant cfg rows userId code) :
    PlatformGrant cfg rows' userId code := by
  obtain ⟨roleId, userRole, hrow, huserRole, hglobal, hholds⟩ := h
  obtain ⟨role, hrole, hcond⟩ := (Option.any_eq_true _ _).mp hglobal
  have hrole' := hinf.wrote.keepsRoles _ _ hrole
  have hholds' := holdsCode_kept hinf hlive huntouched (.inl ⟨userRole, hrow, huserRole⟩)
    (fun found hfound id hid => by
      obtain rfl := some.inj (hrole.symm.trans hfound)
      rw [(of_decide_eq_true hcond).1] at hid
      cases hid) hholds
  have hglobal' : globalRole rows' roleId = true := (Option.any_eq_true _ _).mpr ⟨role, hrole', hcond⟩
  have hwrite := hinf.wrote.userRole (userId, roleId)
  generalize hbefore : rows ⟨.inr .userRole, (userId, roleId)⟩ = before at hwrite
  generalize hafter : rows' ⟨.inr .userRole, (userId, roleId)⟩ = after at hwrite
  cases hwrite with
  | same =>
    have hsame := hafter.trans (hbefore.symm.trans hrow)
    exact ⟨roleId, userRole, hsame, huserRole, hglobal', hholds'⟩
  | assigned hrowLive => exact ⟨roleId, _, hafter, hrowLive, hglobal', hholds'⟩
  | revoked hpc hid =>
    refine absurd ?_ huntouched.touched
    rw [hpc]
    exact congrArg some (Prod.mk.inj hid).1.symm
  | dropped hpc hid =>
    refine absurd ?_ huntouched.erased
    rw [hpc]
    exact congrArg some hid.symm

/-- **A grant in an organization stays**, if the epochs of the user and of the organization do. -/
theorem organizationGrant_kept (hinf : Informed cfg pc rows rows') (hlive : LiveUser rows userId)
    (huntouched : Untouched pc userId) (hsame : organizationTouchedBy pc ≠ some organizationId)
    (h : hasOrganizationGrant cfg rows userId organizationId code = true) :
    hasOrganizationGrant cfg rows' userId organizationId code = true := by
  unfold hasOrganizationGrant at h
  obtain ⟨membership, hrow, hcond⟩ := (Option.any_eq_true _ _).mp h
  obtain ⟨hactive, hroleLive, hholds⟩ := of_decide_eq_true hcond
  obtain ⟨role, hrole, hroleLive⟩ := (Option.any_eq_true _ _).mp hroleLive
  have hrole' := hinf.wrote.keepsRoles _ _ hrole
  have hholds' := holdsCode_kept hinf hlive huntouched
    (.inr ⟨organizationId, membership, hrow, hactive, rfl⟩)
    (fun found hfound id hid => by
      obtain ⟨fit, hfit, hassignable⟩ := hinf.fits.membership _ _ _ hrow
      obtain rfl := some.inj (hfit.symm.trans hfound)
      rcases hassignable with hnone | hsome
      · rw [hnone] at hid
        cases hid
      · obtain rfl := some.inj (hsome.symm.trans hid)
        exact hsame) hholds
  have hkept {after : Membership} (hafter : rows' (membershipKey organizationId userId) = some after)
      (hroleId : after.roleId = membership.roleId) (hactive' : activeMember after = true) :
      hasOrganizationGrant cfg rows' userId organizationId code = true := by
    unfold hasOrganizationGrant
    refine (Option.any_eq_true _ _).mpr ⟨after, hafter, decide_eq_true ⟨hactive', ?_, ?_⟩⟩
    · rw [hroleId]
      exact (Option.any_eq_true _ _).mpr ⟨role, hrole', hroleLive⟩
    · rw [hroleId]
      exact hholds'
  have hwrite := hinf.wrote.membership (organizationId, userId)
  generalize hbefore : rows ⟨.inl .membership, (organizationId, userId)⟩ = before at hwrite
  generalize hafter : rows' ⟨.inl .membership, (organizationId, userId)⟩ = after at hwrite
  cases hwrite with
  | same => exact hkept (hafter.trans (hbefore.symm.trans hrow)) rfl hactive
  | created | joined => cases hrow.symm.trans hbefore
  | changed hpc hid | removed hpc hid =>
    refine absurd ?_ huntouched.touched
    rw [hpc]
    exact congrArg some (Prod.mk.inj hid).2.symm
  | accepted hpc hid =>
    have hown := hinf.own
    rw [hpc] at hown
    refine absurd ?_ huntouched.touched
    rw [hpc]
    exact congrArg some ((hown _ rfl).symm.trans (Prod.mk.inj hid).2.symm)
  | suspended hpc hid =>
    refine absurd ?_ huntouched.erased
    rw [hpc]
    exact congrArg some hid.symm
  | rejoined =>
    obtain rfl := some.inj (hrow.symm.trans hbefore)
    exact hkept hafter rfl rfl

/-- **Grants stay where the epochs do.** -/
theorem granted_kept (hinf : Informed cfg pc rows rows') (hreached : Reached rows auth)
    (hcurrent : Current rows' auth) (hlive : LiveUser rows' auth.userId)
    (h : Granted cfg rows scope auth code) : Granted cfg rows' scope auth code := by
  have hcurrent₀ := current_before hreached hinf.wrote hcurrent
  obtain ⟨⟨user, hrow, he⟩, horganizations⟩ := hcurrent₀
  obtain ⟨⟨user', hrow', he'⟩, horganizations'⟩ := hcurrent
  have hlive₀ := hlive.before hinf.wrote
  have huntouched : Untouched pc auth.userId := by
    obtain ⟨found, hfound, huser⟩ := hlive
    obtain rfl := some.inj (hfound.symm.trans hrow')
    exact untouched_of_current hinf hrow hrow' (he.symm.trans he') huser
  rcases h with ⟨hscope, hplatform⟩ | ⟨hscope, organization, hmem, hgrant⟩
  · exact .inl ⟨hscope, platformGrant_kept hinf hlive₀ huntouched hplatform⟩
  · refine .inr ⟨hscope, organization, hmem, organizationGrant_kept hinf hlive₀ huntouched ?_ hgrant⟩
    obtain ⟨row, hrow, he⟩ := horganizations organization hmem
    obtain ⟨row', hrow', he'⟩ := horganizations' organization hmem
    exact organization_untouched hinf.wrote hrow hrow' (he.symm.trans he')

end BackendFoundation.Access.Epochs
