import BackendFoundation.Access.Commits

/-! # The roles of members and invitations

No call deletes or changes a role. A call that gives a role in an organization has found that it is
global or one of the organization (`gives`), or has it from an invitation; so all members and all
invitations have such roles, in every run (`fits`). -/

namespace BackendFoundation.Access.Roles

open Lib.Database Lib.WriteLog Lib.Schema Lib.Services Lib.Logs Lib.Extend Lib.Rows Lib.Runs
open Lib.Transact Errors Crypto Organizations.Model Organizations.Log
open Organizations.Login (TenancyMode DEFAULT_ORGANIZATION_SLUG exampleTtl)
open Access.Model Access.Log Access.Commits
open Option (some.inj)

/-- The role is global, or one of the organization. -/
def Assignable (rows : AccessRows) (roleId organizationId : ℕ) : Prop :=
  ∃ role : RoleRow, rows (roleKey roleId) = some role ∧
    (role.organizationId = none ∨ role.organizationId = some organizationId)

/-- The roles of all members and of all invitations are assignable. -/
structure Fits (rows : AccessRows) : Prop where
  membership : ∀ organizationId userId (membership : Membership),
    rows (membershipKey organizationId userId) = some membership →
      Assignable rows membership.roleId organizationId
  invitation : ∀ id (invitation : Invitation), rows (invitationKey id) = some invitation →
    Assignable rows invitation.roleId invitation.organizationId

/-- The role that a call gives in an organization. -/
def organizationGives : OrganizationPc → Option (ℕ × ℕ)
  | .create input (.insertMembership roleId _) | .create input (.touchUser roleId _)
  | .create input (.commit roleId _) => some (roleId, input.id)
  | .change _ .lock | .change _ .findRole => none
  | .change input _ => some (input.roleId, input.organizationId)
  | .invite _ .findRole => none
  | .invite input _ => some (input.roleId, input.organizationId)
  | .accept _ (.findUser _ invitation) => some (invitation.roleId, invitation.organizationId)
  | .accept _ (.updateMembership accepting) | .accept _ (.insertMembership accepting)
  | .accept _ (.markAccepted accepting _) | .accept _ (.touchUser accepting _)
  | .accept _ (.findOrganization accepting _) | .accept _ (.commit accepting _) =>
    some (accepting.roleId, accepting.organizationId)
  | _ => none

def initialGives : Initial → Option (ℕ × ℕ)
  | .joined joining => some (joining.roleId, joining.organizationId)
  | .none | .member _ => none

def loginGives : LoginPc → Option (ℕ × ℕ)
  | .updateMembership joining | .insertMembership joining => initialGives (.joined joining)
  | .insertSession initial | .touchUser initial | .commit initial => initialGives initial
  | .findOrganization | .insertOrganization | .findRole _ | .findMembership => none

def backfillGives : BackfillPc → Option (ℕ × ℕ)
  | .findUsers organizationId roleId | .updateSessions organizationId roleId
  | .commit organizationId roleId => some (roleId, organizationId)
  | .updateMembership joining _ | .insertMembership joining _ =>
    some (joining.roleId, joining.organizationId)
  | .findOrganization | .insertOrganization | .findRole _ => none

def gives : AccessPc → Option (ℕ × ℕ)
  | .organization pc => organizationGives pc
  | .createSession _ _ pc => loginGives pc
  | .backfill _ pc => backfillGives pc
  | _ => none

/-- The role that `updateRolePermissions` has found. -/
def foundRole : UpdateRolePc → Option RoleRow
  | .findRole => none
  | .findCurrent role => some role
  | .remove change .. | .updatePermission change .. | .insertPermission change ..
  | .touchOrganization change _ | .findHolders change | .touchHolders change _
  | .commit change _ => some change.role

/-- It increments the permission epoch of the role's organization, or those of the holders of a global
role. -/
def BumpsRight : UpdateRolePc → Prop
  | .touchOrganization change organizationId | .commit change (.organization organizationId) =>
    change.role.organizationId = some organizationId
  | .findHolders change | .touchHolders change _ | .commit change (.holders _) =>
    change.role.organizationId = none
  | _ => True

/-- What a call has found of a role. -/
def RoleFound (rows : AccessRows) : AccessPc → Prop
  | .updateRole input pc =>
    (∀ role ∈ foundRole pc, rows (roleKey input.roleId) = some role) ∧ BumpsRight pc
  | _ => True

/-! ### Where the role comes from -/

variable {cfg : AccessConfig} {site : Site AccessKey} {reply : Reply AccessRowOf}
  {pc pc' : AccessPc} {rows rows' : AccessRows}

theorem assignable_of_rolesIn {keys : List AccessKey} {role : Role} {organizationId : ℕ}
    (h : role ∈ (rolesIn rows keys).rows)
    (hrole : role.organizationId = none ∨ role.organizationId = some organizationId) :
    Assignable rows role.id organizationId := by
  obtain ⟨⟨id, row⟩, hfound, rfl⟩ := List.mem_map.mp h
  obtain ⟨-, hrow, -⟩ := mem_findMany.mp hfound
  exact ⟨row, hrow, hrole⟩

section Organizations

variable {config : OrganizationConfig} {siteOf : Site OrganizationKey}
  {replyOf : Reply OrganizationRow} {next : OrganizationPc}

/-- The role is one of those that there are, global or of the organization. -/
def InRoles (roles : Roles) (roleId organizationId : ℕ) : Prop :=
  ∃ role ∈ roles.rows, role.id = roleId ∧
    (role.organizationId = none ∨ role.organizationId = some organizationId)

theorem inRoles_of_assignable {roles : Roles} {roleId organizationId : ℕ} {role : Role}
    (h : assertAssignableRole roles roleId organizationId = .ok role) :
    InRoles roles roleId organizationId := by
  unfold assertAssignableRole at h
  split at h
  · next found hfound =>
    obtain ⟨hid, -, hrole⟩ : _ ∧ _ ∧ _ := by simpa using List.find?_some hfound
    exact ⟨found, List.mem_of_find?_eq_some hfound, hid, hrole⟩
  · cases h

theorem inRoles_of_global {roles : Roles} {name : String} {roleId : ℕ} (organizationId : ℕ)
    (h : findGlobalRoleId roles name = .ok roleId) : InRoles roles roleId organizationId := by
  unfold findGlobalRoleId at h
  split at h
  · next found hfound =>
    obtain ⟨-, hrole, -⟩ : _ ∧ _ ∧ _ := by simpa using List.find?_some hfound
    exact ⟨found, List.mem_of_find?_eq_some hfound, Except.ok.inj h, .inl hrole⟩
  · cases h

variable {given : ℕ × ℕ}

theorem createGives_next {input : CreateOrganization} {pc : CreatePc}
    (h : createNext config siteOf input pc replyOf = some (.ok next))
    (hgives : organizationGives next = some given) :
    organizationGives (.create input pc) = some given ∨
      (∃ rows, replyOf = .rows rows) ∧ InRoles config.roles given.1 given.2 := by
  unfold createNext at h
  split at h
  · split_ifs at h
    · cases h
    · obtain rfl := point_inj h
      cases hgives
  · obtain rfl := point_inj h
    cases hgives
  · obtain ⟨roleId, hrole, rfl⟩ := ok_of_map (some.inj h)
    obtain rfl := some.inj hgives
    exact .inr ⟨⟨_, rfl⟩, inRoles_of_global _ hrole⟩
  · obtain rfl := point_inj h
    exact .inl hgives
  · obtain ⟨-, rfl⟩ := ok_of_required (some.inj h)
    exact .inl hgives
  · obtain rfl := point_inj h
    cases hgives
  · cases h

theorem changeGives_next {input : ChangeMemberRole} {pc : ChangePc}
    (h : organizationNext config siteOf (.change input pc) replyOf = some (.ok next))
    (hgives : organizationGives next = some given) :
    organizationGives (.change input pc) = some given ∨
      (∃ rows, replyOf = .rows rows) ∧ InRoles config.roles given.1 given.2 := by
  have hinput {pc : ChangePc} (hgives : organizationGives (.change input pc) = some given) :
      given = (input.roleId, input.organizationId) := by
    cases pc <;> cases hgives <;> rfl
  rcases change_next h with ⟨pc', rfl⟩ | ⟨result, rfl⟩
  · obtain rfl := hinput hgives
    cases pc with
    | lock =>
      cases replyOf <;> cases h
      cases hgives
    | findRole =>
      cases replyOf with
      | rows rows =>
        obtain ⟨role, hrole, -⟩ := ok_of_map (some.inj h)
        exact .inr ⟨⟨_, rfl⟩, inRoles_of_assignable hrole⟩
      | _ => cases h
    | _ => exact .inl rfl
  · cases hgives

theorem inviteGives_next {input : CreateInvitation} {pc : InvitePc}
    (h : organizationNext config siteOf (.invite input pc) replyOf = some (.ok next))
    (hgives : organizationGives next = some given) :
    organizationGives (.invite input pc) = some given ∨
      (∃ rows, replyOf = .rows rows) ∧ InRoles config.roles given.1 given.2 := by
  have hinput {pc : InvitePc} (hgives : organizationGives (.invite input pc) = some given) :
      given = (input.roleId, input.organizationId) := by
    cases pc <;> cases hgives <;> rfl
  rcases invite_next h with ⟨pc', rfl⟩ | ⟨result, rfl⟩
  · obtain rfl := hinput hgives
    cases pc with
    | findRole =>
      cases replyOf with
      | rows rows =>
        obtain ⟨role, hrole, -⟩ := ok_of_map (some.inj h)
        exact .inr ⟨⟨_, rfl⟩, inRoles_of_assignable hrole⟩
      | _ => cases h
    | _ => exact .inl rfl
  · cases hgives

theorem acceptGives_next {input : AcceptInvitation} {pc : AcceptPc}
    (h : acceptNext config siteOf input pc replyOf = some (.ok next))
    (hgives : organizationGives next = some given) :
    organizationGives (.accept input pc) = some given ∨
      ∃ rows id invitation, pc = .findInvitation ∧ replyOf = .rows rows ∧
        rows ⟨.invitation, id⟩ = some invitation ∧
        given = (invitation.roleId, invitation.organizationId) := by
  unfold acceptNext at h
  split at h
  · obtain ⟨found, hfound, he⟩ := Option.map_eq_some_iff.mp h
    split at he
    · cases he
    · obtain rfl := Except.ok.inj he
      obtain ⟨-, hrow, -⟩ := mem_findMany.mp (mem_of_pickFirst hfound)
      exact .inr ⟨_, _, _, rfl, rfl, hrow, (some.inj hgives).symm⟩
  · split_ifs at h
    · obtain rfl := point_inj h
      exact .inl hgives
    · cases h
  · obtain rfl := point_inj h
    split_ifs at hgives <;> exact .inl hgives
  · obtain rfl := point_inj h
    exact .inl hgives
  · obtain ⟨-, rfl⟩ := ok_of_required (some.inj h)
    exact .inl hgives
  · obtain ⟨-, rfl⟩ := ok_of_required (some.inj h)
    exact .inl hgives
  · split_ifs at h
    · obtain rfl := point_inj h
      exact .inl hgives
    · cases h
  · obtain rfl := point_inj h
    cases hgives
  · cases h

theorem organizationGives_next {pc : OrganizationPc}
    (h : organizationNext config siteOf pc replyOf = some (.ok next))
    (hgives : organizationGives next = some given) :
    organizationGives pc = some given ∨
      (∃ rows, replyOf = .rows rows) ∧ InRoles config.roles given.1 given.2 ∨
      ∃ input rows id invitation, pc = .accept input .findInvitation ∧ replyOf = .rows rows ∧
        rows ⟨.invitation, id⟩ = some invitation ∧
        given = (invitation.roleId, invitation.organizationId) := by
  cases pc with
  | create input pc => exact (createGives_next h hgives).imp_right .inl
  | change input pc => exact (changeGives_next h hgives).imp_right .inl
  | invite input pc => exact (inviteGives_next h hgives).imp_right .inl
  | accept input pc =>
    rcases acceptGives_next h hgives with hsame | ⟨rows, id, invitation, rfl, hfound⟩
    · exact .inl hsame
    · exact .inr (.inr ⟨input, rows, id, invitation, rfl, hfound⟩)
  | remove input pc =>
    rcases remove_next h with ⟨pc', rfl⟩ | ⟨result, rfl⟩ <;> cases hgives
  | revoke input pc =>
    rcases revoke_next h with ⟨pc', rfl⟩ | ⟨result, rfl⟩ <;> cases hgives
  | delete input pc =>
    rcases delete_next h with ⟨pc', rfl, -⟩ | ⟨result, rfl⟩ <;> cases hgives
  | returned | thrown => cases h

end Organizations

variable {given : ℕ × ℕ}

theorem gives_enter {next : OrganizationPc} (h : gives (enter next) = some given) :
    organizationGives next = some given := by
  unfold enter at h
  split at h
  · cases h
  · cases h
  · cases h
  · cases h
  · exact h

theorem assignable_of_memberRole {organizationId roleId : ℕ} {missing : String}
    (h : findMemberRole site rows missing = some (.ok roleId)) :
    Assignable rows roleId organizationId := by
  obtain ⟨found, hfound, he⟩ := Option.map_eq_some_iff.mp h
  split at he
  · cases he
  · obtain rfl := Except.ok.inj he
    obtain ⟨-, hrow, hrole⟩ := mem_findMany.mp (mem_of_pickFirst hfound)
    exact ⟨_, hrow, .inl (of_decide_eq_true hrole).2.1⟩

/-- The role is assignable in the rows that a query has found. -/
def FindsRole (reply : Reply AccessRowOf) (given : ℕ × ℕ) : Prop :=
  ∃ rows, reply = .rows rows ∧ Assignable rows given.1 given.2

theorem loginGives_next {input : CreateSession} {expiresAt : ℕ} {pc : LoginPc}
    (h : loginNext site input expiresAt pc reply = some (.ok pc'))
    (hgives : gives pc' = some given) : loginGives pc = some given ∨ FindsRole reply given := by
  unfold loginNext at h
  split at h
  · obtain rfl := point_inj h
    dsimp only [gives] at hgives
    split at hgives <;> cases hgives
  · obtain rfl := point_inj h
    cases hgives
  · obtain ⟨roleId, hrole, rfl⟩ := ok_of_mapNext h
    obtain rfl := some.inj hgives
    exact .inr ⟨_, rfl, assignable_of_memberRole hrole⟩
  · obtain rfl := point_inj h
    split_ifs at hgives <;> exact .inl hgives
  · obtain rfl := point_inj h
    exact .inl hgives
  · obtain ⟨found, -, he⟩ := Option.map_eq_some_iff.mp h
    obtain rfl := Except.ok.inj he
    dsimp only [gives, loginGives] at hgives
    split at hgives <;> cases hgives
  · obtain rfl := point_inj h
    exact .inl hgives
  · obtain ⟨-, rfl⟩ := ok_of_requiredRow (some.inj h)
    exact .inl hgives
  · obtain rfl := point_inj h
    cases hgives
  · cases h

theorem backfillGives_joinNext {organizationId roleId now : ℕ} {users : List ℕ} :
    backfillGives (.joinNext organizationId roleId now users) = some (roleId, organizationId) := by
  cases users <;> rfl

theorem backfillGives_next {input : Backfill} {pc : BackfillPc}
    (h : backfillNext site input pc reply = some (.ok pc')) (hgives : gives pc' = some given) :
    backfillGives pc = some given ∨ FindsRole reply given := by
  unfold backfillNext at h
  split at h
  · obtain rfl := point_inj h
    dsimp only [gives] at hgives
    split at hgives
    · split_ifs at hgives <;> cases hgives
    · split at hgives <;> cases hgives
  · obtain rfl := point_inj h
    cases hgives
  · obtain ⟨roleId, hrole, rfl⟩ := ok_of_mapNext h
    obtain rfl := some.inj hgives
    exact .inr ⟨_, rfl, assignable_of_memberRole hrole⟩
  · obtain rfl := point_inj h
    rw [gives, backfillGives_joinNext] at hgives
    exact .inl hgives
  · obtain rfl := point_inj h
    split_ifs at hgives
    · rw [gives, backfillGives_joinNext] at hgives
      exact .inl hgives
    · exact .inl hgives
    · exact .inl hgives
  · obtain rfl := point_inj h
    rw [gives, backfillGives_joinNext] at hgives
    exact .inl hgives
  · obtain rfl := point_inj h
    exact .inl hgives
  · obtain rfl := point_inj h
    cases hgives
  · cases h

theorem gives_eq_none (h : callOf pc ≠ some .organization ∧ callOf pc ≠ some .createSession ∧
    callOf pc ≠ some .backfill) : gives pc = none := by
  obtain ⟨horganization, hlogin, hbackfill⟩ := h
  cases pc with
  | organization => exact absurd rfl horganization
  | createSession => exact absurd rfl hlogin
  | backfill => exact absurd rfl hbackfill
  | _ => rfl

theorem roleFound_of_other (h : callOf pc ≠ some .updateRole) : RoleFound rows pc := by
  cases pc with
  | updateRole => exact absurd rfl h
  | _ => trivial

/-- `updateRolePermissions` has what it has found before, or finds the role. -/
theorem updateRole_next {input : UpdateRolePermissions} {pc : UpdateRolePc}
    (h : updateRoleNext cfg site input pc reply = some (.ok pc')) (hright : BumpsRight pc) :
    (∃ result, pc' = .returned result) ∨ ∃ next, pc' = .updateRole input next ∧ BumpsRight next ∧
      (foundRole next = foundRole pc ∨ ∃ rows role, reply = .rows rows ∧
        foundRole next = some role ∧ rows (roleKey input.roleId) = some role) := by
  have hadd {change : RoleChange} {codes : List String} :
      BumpsRight (.addNext change codes) ∧
        foundRole (.addNext change codes) = some change.role := by
    unfold UpdateRolePc.addNext
    cases codes with
    | cons code rest => exact ⟨trivial, rfl⟩
    | nil =>
      dsimp only
      split
      · next horganization => exact ⟨horganization, rfl⟩
      · next horganization => exact ⟨horganization, rfl⟩
  unfold updateRoleNext at h
  split at h
  · have h := some.inj h
    split at h
    · cases h
    · next role hrole =>
      dsimp only at h
      split_ifs at h
      · obtain rfl := Except.ok.inj h
        exact .inr ⟨_, rfl, trivial, .inr ⟨_, role, rfl, rfl, (Option.filter_eq_some_iff.mp hrole).1⟩⟩
  · obtain rfl := point_inj h
    split_ifs
    · exact .inr ⟨_, rfl, trivial, .inl rfl⟩
    · exact .inr ⟨_, rfl, hadd.1, .inl hadd.2⟩
  · obtain rfl := point_inj h
    exact .inr ⟨_, rfl, hadd.1, .inl hadd.2⟩
  · obtain rfl := point_inj h
    split_ifs
    · exact .inr ⟨_, rfl, hadd.1, .inl hadd.2⟩
    · exact .inr ⟨_, rfl, trivial, .inl rfl⟩
    · exact .inr ⟨_, rfl, trivial, .inl rfl⟩
  · obtain rfl := point_inj h
    exact .inr ⟨_, rfl, hadd.1, .inl hadd.2⟩
  · obtain ⟨-, rfl⟩ := ok_of_requiredRow (some.inj h)
    exact .inr ⟨_, rfl, hright, .inl rfl⟩
  · obtain rfl := point_inj h
    exact .inr ⟨_, rfl, hright, .inl rfl⟩
  · obtain rfl := point_inj h
    exact .inr ⟨_, rfl, hright, .inl rfl⟩
  · obtain rfl := point_inj h
    exact .inl ⟨_, rfl⟩
  · cases h

/-- **Where a call has the role from that it gives**: from before, from a query for roles, or from
an invitation. -/
theorem gives_next (h : accessNext cfg site pc reply = some (.ok pc'))
    (hgives : gives pc' = some given) : gives pc = some given ∨ FindsRole reply given ∨
      ∃ input rows id, ∃ invitation : Invitation,
        pc = .organization (.accept input .findInvitation) ∧ reply = .rows rows ∧
          rows (invitationKey id) = some invitation ∧
          given = (invitation.roleId, invitation.organizationId) := by
  have hother (horganization : callOf pc ≠ some .organization)
      (hlogin : callOf pc ≠ some .createSession) (hbackfill : callOf pc ≠ some .backfill) :
      gives pc' ≠ some given := by
    have hnone : gives pc' = none := by
      rcases callOf_next h with hended | hsame
      · exact gives_eq_none (by simp [hended])
      · exact gives_eq_none ⟨hsame ▸ horganization, hsame ▸ hlogin, hsame ▸ hbackfill⟩
    simp [hnone]
  cases pc with
  | organization pc =>
    obtain ⟨next, hnext, rfl⟩ := ok_of_mapNext h
    rcases organizationGives_next hnext (gives_enter hgives) with hsame | ⟨⟨rows, hrows⟩, hin⟩ |
      ⟨input, rows, id, invitation, rfl, hrows, hinvitation, rfl⟩
    · exact .inl hsame
    · obtain ⟨role, hmem, hid, hrole⟩ := hin
      cases reply with
      | rows rows =>
        refine .inr (.inl ⟨_, rfl, ?_⟩)
        rw [← hid]
        exact assignable_of_rolesIn hmem hrole
      | _ => cases hrows
    · cases reply with
      | rows rows =>
        obtain rfl := Reply.rows.inj hrows
        exact .inr (.inr ⟨input, _, id, invitation, rfl, rfl, hinvitation, rfl⟩)
      | _ => cases hrows
  | createSession input expiresAt pc =>
    rcases loginGives_next h hgives with hsame | hfinds
    · exact .inl hsame
    · exact .inr (.inl hfinds)
  | backfill input pc =>
    rcases backfillGives_next h hgives with hsame | hfinds
    · exact .inl hsame
    · exact .inr (.inl hfinds)
  | unpin | revokeSessions | deleteUserRoles =>
    cases reply <;> cases h
    cases hgives
  | _ => exact absurd hgives (hother nofun nofun nofun)

/-! ### The invariant -/

theorem role_unwritten (hstmt : accessStmt cfg pc = some .read) {id : ℕ}
    {before after : Option RoleRow}
    (h : Entry.inTurn (accessWritten cfg pc) (roleKey id) before after) : after = before := by
  cases pc with
  | organization pc =>
    have h := wrote_second h
    unfold besides at h
    split at h <;> simpa using h
  | createSession input expiresAt pc =>
    cases pc <;> cases hstmt <;> simpa [accessWritten, loginWrote] using h
  | switchOrganization input pc =>
    cases pc <;> cases hstmt <;> simpa [accessWritten, switchWrote] using h
  | backfill input pc =>
    cases pc <;> cases hstmt <;> simpa [accessWritten, backfillWrote, Backfill.founds] using h
  | assignRole input pc =>
    cases pc <;> cases hstmt
    simpa [accessWritten, assignWrote] using h
  | updateRole input pc =>
    cases pc <;> cases hstmt <;> simpa [accessWritten, updateRoleWrote] using h
  | guarded => exact h
  | unpin | revokeSessions | deleteUserRoles | returned | thrown => cases hstmt
  | revokeSession input pc => cases pc <;> cases hstmt
  | createRole input pc => cases pc <;> cases hstmt
  | revokeRole input pc => cases pc <;> cases hstmt

theorem Assignable.keeps {roleId organizationId : ℕ} (h : Assignable rows roleId organizationId)
    (hkeeps : KeepsRoles rows rows') : Assignable rows' roleId organizationId := by
  obtain ⟨role, hrole, horganization⟩ := h
  exact ⟨role, hkeeps _ _ hrole, horganization⟩

theorem RoleFound.keeps (h : RoleFound rows pc) (hkeeps : KeepsRoles rows rows') :
    RoleFound rows' pc := by
  cases pc with
  | updateRole input pc => exact ⟨fun role hrole => hkeeps _ _ (h.1 role hrole), h.2⟩
  | _ => trivial

theorem gives_of_joinsBy {organizationId roleId userId : ℕ}
    (h : JoinsBy pc organizationId roleId userId) : gives pc = some (roleId, organizationId) := by
  cases h <;> rfl

theorem Fits.commit (h : Fits rows) (hw : Wrote cfg pc rows rows')
    (hgives : ∀ given ∈ gives pc, Assignable rows given.1 given.2) : Fits rows' where
  membership organizationId userId membership hafter := by
    refine Assignable.keeps ?_ hw.keepsRoles
    have hwrite := hw.membership (organizationId, userId)
    rw [hafter] at hwrite
    generalize hbefore : rows (membershipKey organizationId userId) = before at hwrite
    cases hwrite with
    | same => exact h.membership _ _ _ hbefore
    | removed | suspended | rejoined =>
      have hold := h.membership _ _ _ hbefore
      exact hold
    | created hpc hid =>
      subst hpc
      obtain ⟨rfl, rfl⟩ := Prod.mk.inj hid
      exact hgives _ rfl
    | changed hpc hid =>
      subst hpc
      obtain ⟨rfl, rfl⟩ := Prod.mk.inj hid
      exact hgives _ rfl
    | accepted hpc hid hrole =>
      subst hpc
      obtain ⟨rfl, rfl⟩ := Prod.mk.inj hid
      rw [hrole]
      exact hgives _ rfl
    | joined hjoins => exact hgives _ (gives_of_joinsBy hjoins)
  invitation id invitation hafter := by
    refine Assignable.keeps ?_ hw.keepsRoles
    rcases hw.invitation hafter with ⟨old, hbefore, hrole, horganization⟩ |
      ⟨input, expiresAt, rfl, hrole, horganization⟩
    · rw [hrole, horganization]
      exact h.invitation _ _ hbefore
    · rw [hrole, horganization]
      exact hgives _ rfl

def claims : Claims AccessRowOf AccessPc PermissionCache where
  shared v := Fits v.rows
  call _ _ call v := (∀ given ∈ gives call.pc, Assignable v.rows given.1 given.2) ∧
    RoleFound v.rows call.pc

theorem start_gives (rows : AccessRows) (now : ℕ) (request : AccessRequest) :
    gives (accessStart cfg now request) = none ∧ RoleFound rows (accessStart cfg now request) := by
  cases request with
  | organization request =>
    cases request with
    | createOrganization input =>
      change gives (enter (startPc _ now (.createOrganization input))) = none ∧
        RoleFound rows (enter (startPc _ now (.createOrganization input)))
      unfold startPc
      split_ifs <;> exact ⟨rfl, trivial⟩
    | _ => exact ⟨rfl, trivial⟩
  | createSession input =>
    change loginGives (.start cfg.mode) = none ∧ True
    cases cfg.mode <;> exact ⟨rfl, trivial⟩
  | backfill input =>
    unfold accessStart
    dsimp only
    split_ifs <;> exact ⟨rfl, trivial⟩
  | updateRolePermissions input => exact ⟨rfl, fun _ hrole => (by cases hrole), trivial⟩
  | _ => exact ⟨rfl, trivial⟩

section At

variable {s : Store AccessRowOf PermissionCache} {i : ℕ} {call : Caller AccessRowOf AccessPc}
  {a : Claims AccessRowOf AccessPc PermissionCache}

def accessNotes (cfg : AccessConfig) : Notes AccessRowOf AccessPc :=
  notesOf (accessWritten cfg) fun _ => []

theorem role_found (hat : a.At (access cfg) (accessNotes cfg) s i call)
    (hlive : s.db.aborted i = false) {stmt : AccessStmt} (hstmt : accessStmt cfg call.pc = some stmt)
    {db : Db AccessRowOf} {tx : Tx AccessRowOf} {rows : AccessRows}
    (hs : exec s.db i call.tx stmt = some (db, .replied tx (.rows rows))) (id : ℕ) :
    rows (roleKey id) = s.db.rows (roleKey id) := by
  obtain rfl := read_of_rows hs
  exact hat.found_at hlive hstmt (fun before after h => role_unwritten hstmt h) hs

theorem claims_replied (hat : claims.At (access cfg) (accessNotes cfg) s i call)
    (hlive : s.db.aborted i = false) {stmt : AccessStmt} (hstmt : accessStmt cfg call.pc = some stmt)
    {db : Db AccessRowOf} {tx : Tx AccessRowOf}
    (hs : exec s.db i call.tx stmt = some (db, .replied tx reply))
    (hnext : accessNext cfg site call.pc reply = some (.ok pc')) :
    (∀ given ∈ gives pc', Assignable s.db.rows given.1 given.2) ∧ RoleFound s.db.rows pc' := by
  obtain ⟨hgives, hfound⟩ := hat.call
  have hassignable {rows : AccessRows} {roleId organizationId : ℕ}
      (hs : exec s.db i call.tx stmt = some (db, .replied tx (.rows rows)))
      (h : Assignable rows roleId organizationId) : Assignable s.db.rows roleId organizationId :=
    h.keeps fun id role hrole => (role_found hat hlive hstmt hs id).symm.trans hrole
  constructor
  · intro given hgiven
    rcases gives_next hnext hgiven with hsame | ⟨rows, rfl, hrole⟩ |
      ⟨input, rows, id, invitation, hpc, rfl, hinvitation, rfl⟩
    · exact hgives given hsame
    · exact hassignable hs hrole
    · obtain rfl := read_of_rows hs
      refine hat.shared.invitation id invitation ?_
      rw [← hinvitation]
      refine (hat.found_at hlive hstmt (fun before after h => ?_) hs).symm
      change Entry.inTurn (accessWritten cfg call.pc) _ before after at h
      rw [hpc] at h
      exact h
  · by_cases hcall : callOf call.pc = some .updateRole
    · cases hpc : call.pc with
      | updateRole input pc =>
        rw [hpc] at hnext hfound
        rcases updateRole_next hnext hfound.2 with ⟨result, rfl⟩ | ⟨next, rfl, hright, hrole⟩
        · trivial
        · refine ⟨fun role hnextRole => ?_, hright⟩
          rcases hrole with hsame | ⟨rows, role', rfl, hrole', hrow⟩
          · exact hfound.1 role (hsame ▸ hnextRole)
          · obtain rfl := some.inj (hrole'.symm.trans hnextRole)
            exact (role_found hat hlive hstmt hs _).symm.trans hrow
      | _ =>
        rw [hpc] at hcall
        cases hcall
    · refine roleFound_of_other fun hnextCall => hcall ?_
      rcases callOf_next hnext with hended | hsame
      · rw [hended] at hnextCall
        cases hnextCall
      · exact hsame.symm.trans hnextCall

end At

/-- **Members and invitations have roles that fit**, if they had before all calls. -/
theorem invariant (hfits : Fits cfg.rows) :
    Invariant (access cfg) (accessNotes cfg) (fun _ _ _ _ => True) claims where
  init := hfits
  tick _ _ := ⟨fun h => h, fun _ _ _ h => h⟩
  abort _ _ _ h := h
  event _ _ _ _ := ⟨fun h => h, fun _ _ _ h => h⟩
  start i b v request _ _ := by
    obtain ⟨hgives, hfound⟩ := start_gives v.rows v.now request
    refine ⟨fun given hgiven => ?_, hfound⟩
    cases hgives.symm.trans hgiven
  thrown _ _ _ _ _ := ⟨nofun, trivial⟩
  running _ _ _ _ _ _ _ _ hat _ _ _ _ := hat.call
  replied s i call c stmt db tx reply pc hat _ hstmt _ hs hlive hnext :=
    claims_replied hat hlive hstmt hs hnext
  outside s i call c m pc hat _ _ hout := by
    obtain ⟨input, pc, rfl⟩ := guarded_of_outside hout
    exact ⟨hat.shared, ⟨nofun, trivial⟩, fun _ _ _ _ h => h⟩
  commit s i call c rows hat _ hstmt _ _ hwrote := by
    have hw : Wrote cfg call.pc s.db.rows rows := ⟨accessCommit_of_stmt hstmt, hwrote⟩
    refine ⟨hat.shared.commit hw hat.call.1, fun pc hnext => ?_, fun j callj _ _ h => ?_⟩
    · obtain ⟨result, rfl⟩ := returned_of_accessCommit hw.commit hnext
      exact ⟨nofun, trivial⟩
    · exact ⟨fun given hgiven => (h.1 given hgiven).keeps hw.keepsRoles,
        h.2.keeps hw.keepsRoles⟩

theorem accessFollows : (access cfg).Follows (accessNotes cfg) := accessLists.follows

theorem claims_hold (hfits : Fits cfg.rows) {w : AccessWorld}
    (h : Reachable (access cfg).program.system w) : claims.Holds w :=
  (invariant hfits).holds accessFollows (h.mono fun _ _ _ => stepsMeet_true)

theorem fits (hfits : Fits cfg.rows) {w : AccessWorld}
    (h : Reachable (access cfg).program.system w) : Fits w.shared.db.rows :=
  (claims_hold hfits h).1

/-! ### An example -/

/-- An organization with two owners, one of whom has the role on the platform too. -/
def exampleRows : AccessRows
  | ⟨.inl .organization, 0⟩ => some ({ slug := DEFAULT_ORGANIZATION_SLUG } : Organization)
  | ⟨.inl .user, 0⟩ | ⟨.inl .user, 1⟩ => some ({ email := none } : User)
  | ⟨.inl .membership, (0, 0)⟩ | ⟨.inl .membership, (0, 1)⟩ => some ({ roleId := 1 } : Membership)
  | ⟨.inr .session, 0⟩ =>
    some ({ userId := 0, activeOrganizationId := some 0, expiresAt := 1000 } : Session)
  | ⟨.inr .role, 0⟩ => some ({ name := "member" } : RoleRow)
  | ⟨.inr .role, 1⟩ => some ({ name := "owner" } : RoleRow)
  | ⟨.inr .rolePermission, (1, code)⟩ =>
    if code = "organizations.update" then some ({} : RolePermission) else none
  | ⟨.inr .userRole, (1, 1)⟩ => some ({} : UserRole)
  | _ => none

def exampleKeys : List AccessKey :=
  [organizationKey 0, userKey 0, userKey 1, membershipKey 0 0, membershipKey 0 1, sessionKey 0,
    roleKey 0, roleKey 1, rolePermissionKey 1 "organizations.update", userRoleKey 1 1]

theorem example_listed (k : AccessKey) (hk : exampleRows k ≠ none) : k ∈ exampleKeys := by
  unfold exampleRows at hk
  unfold exampleKeys
  split at hk <;> simp at hk ⊢
  exact hk

def exampleConfig (mode : TenancyMode) : AccessConfig where
  R := exampleRuntime
  K := exampleKeyring
  mode := mode
  ttl := exampleTtl
  permissions := [⟨"organizations.update", none⟩]
  rows := exampleRows
  keys := exampleKeys
  listed := example_listed

theorem example_fits (mode : TenancyMode) : Fits (exampleConfig mode).rows where
  membership organizationId userId membership h := by
    have hrole : membership.roleId = 1 := by
      match organizationId, userId, h with
      | 0, 0, h | 0, 1, h =>
        obtain rfl := some.inj h
        rfl
      | 0, _ + 2, h | _ + 1, _, h => cases h
    exact ⟨{ name := "owner" }, hrole ▸ rfl, .inl rfl⟩
  invitation _ _ h := by cases h

end BackendFoundation.Access.Roles
