import BackendFoundation.Access.Model
import BackendFoundation.Organizations.Log

/-! # What the calls write on the rows of the guards

`accessWritten` says, for each program point, what the transaction of the call has written: for a call
on organizations what is said of it there, on its part of the rows, and what it has written besides.
`accessLists` is that the statements lead from one to the next. -/

namespace BackendFoundation.Access.Log

open Lib.Database Lib.WriteLog Lib.Schema Lib.Services Lib.Logs Lib.Extend Lib.Rows Errors
open Organizations.Model Organizations.Log Access.Model
open Organizations.Login (TenancyMode DEFAULT_ORGANIZATION_SLUG)
open Option (some.inj map_eq_some_iff)

/-! ### The notes -/

abbrev AccessEntry := Entry AccessRowOf

/-- Sessions may have been written; no guard depends on what they were. -/
def Sessions : AccessEntry := fun k before after => k.1 = .inr .session ∨ after = before

/-- The organization may have been inserted. -/
inductive Founds (id : ℕ) (slug : String) : AccessEntry
  | same {k : AccessKey} {row : Option (AccessRowOf k)} : Founds id slug k row row
  | inserted : Founds id slug (organizationKey id) none (some ({ slug := slug } : Organization))

/-- Users may have joined the organization. -/
inductive Joins (organizationId roleId : ℕ) (users : ℕ → Prop) : AccessEntry
  | same {k : AccessKey} {row : Option (AccessRowOf k)} : Joins organizationId roleId users k row row
  | joined {userId joinedAt : ℕ} : users userId →
      Joins organizationId roleId users (membershipKey organizationId userId) none
        (some ({ roleId := roleId, joinedAt := some joinedAt } : Membership))
  | rejoined {userId : ℕ} {membership : Membership} : users userId →
      Joins organizationId roleId users (membershipKey organizationId userId) (some membership)
        (some { membership with status := .active, deletedAt := none })

/-- Permissions may have been connected to the role. -/
inductive Connects (roleId : ℕ) : AccessEntry
  | same {k : AccessKey} {row : Option (AccessRowOf k)} : Connects roleId k row row
  | connected {code : String} :
      Connects roleId (rolePermissionKey roleId code) none (some ({} : RolePermission))

/-- Permissions of the role may have been written; none that is not to be removed has been lost. -/
inductive Recodes (roleId : ℕ) (toRemove : List String) : AccessEntry
  | same {k : AccessKey} {row : Option (AccessRowOf k)} : Recodes roleId toRemove k row row
  | recoded {code : String} {before after : Option RolePermission} :
      after.any RolePermission.live = true ∨ code ∈ toRemove →
      Recodes roleId toRemove (rolePermissionKey roleId code) before after

/-- The user role may have been deleted. -/
inductive Revokes (userId roleId : ℕ) : AccessEntry
  | same {k : AccessKey} {row : Option (AccessRowOf k)} : Revokes userId roleId k row row
  | revoked {row : UserRole} {deletedAt : ℕ} :
      Revokes userId roleId (userRoleKey userId roleId) (some row)
        (some { row with deletedAt := some deletedAt })

/-- What a call on organizations has written on its part of the rows. -/
def organizationWrote (cfg : AccessConfig) (pc : OrganizationPc) : List AccessEntry :=
  (written (cfg.organizations noRoles) pc).map liftEntry

def besides : OrganizationPc → List AccessEntry
  | .remove _ (.touchUser _) | .remove _ (.commit _) => [Sessions]
  | .delete input (.updateMemberships ..) | .delete input (.commit ..) =>
    [Sessions, (deleteUserRoles input.userId).may]
  | _ => []

def Joining.joins (joining : Joining) : AccessEntry :=
  Joins joining.organizationId joining.roleId fun userId => userId = joining.userId

def initialWrote (input : CreateSession) : Initial → List AccessEntry
  | .none | .member _ => []
  | .joined joining =>
    [Founds input.organizationId DEFAULT_ORGANIZATION_SLUG, Joining.joins joining]

def loginWrote (input : CreateSession) : LoginPc → List AccessEntry
  | .findOrganization | .insertOrganization | .findMembership => []
  | .findRole _ => [Founds input.organizationId DEFAULT_ORGANIZATION_SLUG]
  | .updateMembership joining | .insertMembership joining =>
    initialWrote input (.joined joining)
  | .insertSession initial => initialWrote input initial
  | .touchUser initial | .commit initial => initialWrote input initial ++ [Sessions]

def switchWrote : SwitchPc → List AccessEntry
  | .findMembership | .updateSession => []
  | .findOrganization | .commit => [Sessions]

def logoutWrote : LogoutPc → List AccessEntry
  | .updateSession _ => []
  | .commit => [Sessions]

def Backfill.founds (input : Backfill) : AccessEntry :=
  Founds (input.organizationId.getD input.newId) input.slug

def backfillWrote (input : Backfill) : BackfillPc → List AccessEntry
  | .findOrganization | .insertOrganization => []
  | .findRole _ | .findUsers .. => [Backfill.founds input]
  | .updateMembership joining _ | .insertMembership joining _ =>
    [Backfill.founds input, Joins joining.organizationId joining.roleId fun _ => True]
  | .updateSessions organizationId roleId =>
    [Backfill.founds input, Joins organizationId roleId fun _ => True]
  | .commit organizationId roleId =>
    [Backfill.founds input, Joins organizationId roleId fun _ => True, Sessions]

def CreateRole.inserted (input : CreateRole) : AccessEntry :=
  New (.inr .role) input.id ({ name := input.name } : RoleRow)

def createRoleWrote (input : CreateRole) : CreateRolePc → List AccessEntry
  | .insertRole => []
  | .insertPermission .. | .commit => [CreateRole.inserted input, Connects input.id]

def assignWrote (input : AssignRole) : AssignPc → List AccessEntry
  | .findRole | .updateUserRole | .insertUserRole => []
  | .touchUser => [input.userRole.put]
  | .commit => [input.userRole.put, (touchPermissionEpoch input.userId).must input.userId]

def revokeRoleWrote (input : RevokeRole) : RevokeRolePc → List AccessEntry
  | .update _ | .commit false => []
  | .touchUser => [Revokes input.userId input.roleId]
  | .commit true =>
    [Revokes input.userId input.roleId, (touchPermissionEpoch input.userId).must input.userId]

def Bumped.wrote : Bumped → AccessEntry
  | .organization organizationId => (touchOrganization organizationId).must organizationId
  | .holders userIds => (touchHolders userIds).may

def updateRoleWrote (input : UpdateRolePermissions) : UpdateRolePc → List AccessEntry
  | .findRole | .findCurrent _ => []
  | .remove change .. | .updatePermission change .. | .insertPermission change ..
  | .touchOrganization change _ | .findHolders change | .touchHolders change _ =>
    [Recodes input.roleId change.toRemove]
  | .commit change bumped => [Recodes input.roleId change.toRemove, Bumped.wrote bumped]

/-- What the statements of the transaction have written so far. -/
def accessWritten (cfg : AccessConfig) : AccessPc → List AccessEntry
  | .organization pc => organizationWrote cfg pc ++ besides pc
  | .unpin input deletedAt => organizationWrote cfg (.remove input (.touchUser deletedAt))
  | .revokeSessions input deletedAt locked =>
    organizationWrote cfg (.delete input (.updateMemberships deletedAt locked))
  | .deleteUserRoles input deletedAt locked =>
    organizationWrote cfg (.delete input (.updateMemberships deletedAt locked)) ++ [Sessions]
  | .createSession input _ pc => loginWrote input pc
  | .switchOrganization _ pc => switchWrote pc
  | .revokeSession _ pc => logoutWrote pc
  | .backfill input pc => backfillWrote input pc
  | .createRole input pc => createRoleWrote input pc
  | .assignRole input pc => assignWrote input pc
  | .revokeRole input pc => revokeRoleWrote input pc
  | .updateRole input pc => updateRoleWrote input pc
  | .guarded .. | .returned _ | .thrown _ => []

/-! ### The statements lead from one note to the next -/

variable {cfg : AccessConfig} {site : Site AccessKey} {reply : Reply AccessRowOf}
  {pc pc' : AccessPc} {stmt : AccessStmt} {entries : List AccessEntry}

theorem ok_of_requiredRow {n : ℕ} (h : requiredRow n pc = .ok pc') : n ≠ 0 ∧ pc' = pc := by
  unfold requiredRow at h
  split_ifs at h with hn
  exact ⟨hn, (Except.ok.inj h).symm⟩

theorem ok_of_mapOk {α : Type} {e : Except Thrown α} {f : α → AccessPc} (h : e.map f = .ok pc') :
    ∃ a, e = .ok a ∧ pc' = f a := by
  cases e with
  | error e => cases h
  | ok a => exact ⟨a, rfl, (Except.ok.inj h).symm⟩

theorem ok_of_mapNext {α : Type} {found : Option (Except Thrown α)} {f : α → AccessPc}
    (h : (found.map fun next => next.map f) = some (.ok pc')) :
    ∃ a, found = some (.ok a) ∧ pc' = f a := by
  obtain ⟨next, rfl, he⟩ := map_eq_some_iff.mp h
  obtain ⟨a, rfl, rfl⟩ := ok_of_mapOk he
  exact ⟨a, rfl, rfl⟩

theorem leads_sessions {u : AccessUpdate (.inr .session)} :
    Leads entries u.stmt reply (entries ++ [Sessions]) := by
  refine .write fun k between after he => ?_
  cases (Update.effect_may he : u.may k between after) with
  | same => exact .inr rfl
  | changed _ => exact .inl rfl

theorem leads_newSession {id : ℕ} {row : Session} :
    Leads entries (.insert (sessionKey id) row) reply (entries ++ [Sessions]) := by
  refine .write fun k between after he => ?_
  cases effect_new he with
  | other _ => exact .inr rfl
  | inserted => exact .inl rfl

theorem besides_first {pc : OrganizationPc} {e : AccessEntry} (he : e ∈ besides pc) (t : Relation)
    (id : Organizations.Model.Id t) (before after : Option (Organizations.Model.Row t)) :
    e ⟨.inl t, id⟩ before after ↔ after = before := by
  have hsessions : Sessions ⟨.inl t, id⟩ before after ↔ after = before :=
    ⟨fun h => h.resolve_left nofun, .inr⟩
  unfold besides at he
  split at he
  · obtain rfl := List.mem_singleton.mp he
    exact hsessions
  · obtain rfl := List.mem_singleton.mp he
    exact hsessions
  · rcases List.mem_cons.mp he with rfl | he
    · exact hsessions
    · obtain rfl := List.mem_singleton.mp he
      exact Removal.may_of_ne nofun
  · rcases List.mem_cons.mp he with rfl | he
    · exact hsessions
    · obtain rfl := List.mem_singleton.mp he
      exact Removal.may_of_ne nofun
  · cases he

/-- What has been written is what the call on organizations has written there, and what it has written
besides. -/
theorem wrote_enter {roles : Roles} {siteOf : Site OrganizationKey} {replyOf : Reply OrganizationRow}
    {pc next : OrganizationPc} (hcommit : ¬ Commit pc)
    (h : organizationNext (cfg.organizations roles) siteOf pc replyOf = some (.ok next)) :
    accessWritten cfg (enter next) = organizationWrote cfg next ++ besides pc := by
  have hsimple {next : OrganizationPc} (hnext : accessWritten cfg (enter next) =
      organizationWrote cfg next ++ []) (hpc : besides pc = []) :
      accessWritten cfg (enter next) = organizationWrote cfg next ++ besides pc := by
    rw [hnext, hpc]
  cases pc with
  | create input pc =>
    rcases create_next h with ⟨next, rfl⟩ | ⟨result, rfl⟩ <;> exact hsimple rfl rfl
  | change input pc =>
    rcases change_next h with ⟨next, rfl⟩ | ⟨result, rfl⟩ <;> exact hsimple rfl rfl
  | invite input pc =>
    rcases invite_next h with ⟨next, rfl⟩ | ⟨result, rfl⟩ <;> exact hsimple rfl rfl
  | accept input pc =>
    rcases accept_next h with ⟨next, rfl, -⟩ | ⟨result, rfl⟩ <;> exact hsimple rfl rfl
  | revoke input pc =>
    rcases revoke_next h with ⟨next, rfl⟩ | ⟨result, rfl⟩ <;> exact hsimple rfl rfl
  | remove input pc =>
    change removeNext roles siteOf input pc replyOf = some (.ok next) at h
    unfold removeNext at h
    split at h
    · obtain rfl := point_inj h
      rfl
    · have h := some.inj h
      split at h
      · cases h
      · split_ifs at h <;> obtain rfl := Except.ok.inj h <;> rfl
    · split_ifs at h
      · cases h
      · obtain rfl := point_inj h
        rfl
    · obtain ⟨-, rfl⟩ := ok_of_required (some.inj h)
      exact (List.append_nil _).symm
    · obtain ⟨-, rfl⟩ := ok_of_required (some.inj h)
      rfl
    · exact absurd .remove hcommit
    · cases h
  | delete input pc =>
    change deleteNext roles siteOf input pc replyOf = some (.ok next) at h
    have hlock {deletedAt : ℕ} {locked rest : List ℕ} :
        accessWritten cfg (enter (.delete input (.lockNext deletedAt locked rest))) =
          organizationWrote cfg (.delete input (.lockNext deletedAt locked rest)) ++ [] := by
      cases rest <;> rfl
    unfold deleteNext at h
    split at h
    · obtain rfl := point_inj h
      split_ifs <;> rfl
    · obtain rfl := point_inj h
      exact hsimple hlock rfl
    · obtain rfl := point_inj h
      rfl
    · split_ifs at h
      · cases h
      · obtain rfl := point_inj h
        exact hsimple hlock rfl
    · obtain ⟨-, rfl⟩ := ok_of_required (some.inj h)
      exact (List.append_nil _).symm
    · obtain rfl := point_inj h
      rfl
    · exact absurd .delete hcommit
    · cases h
  | returned | thrown => cases h

/-- Neither the statements nor what they write depend on the roles that a query finds. -/
theorem organizationStmt_roles (roles : Roles) (pc : OrganizationPc) :
    organizationStmt (cfg.organizations roles) pc =
      organizationStmt (cfg.organizations noRoles) pc := by
  cases pc <;> rfl

theorem written_roles (roles : Roles) (pc : OrganizationPc) :
    written (cfg.organizations roles) pc = written (cfg.organizations noRoles) pc := by
  cases pc <;> rfl

theorem organization_leads {pc : OrganizationPc} {stmt : OrganizationStmt}
    (hstmt : organizationStmt (cfg.organizations noRoles) pc = some stmt)
    (h : enterNext cfg site pc reply = some (.ok pc')) :
    Leads (accessWritten cfg (.organization pc)) (liftStmt stmt) reply (accessWritten cfg pc') := by
  by_cases hcommit : Commit pc
  · have hcommit : stmt = .commit := by
      cases hcommit <;> exact (some.inj hstmt).symm
    subst hcommit
    exact .commit
  · obtain ⟨next, hnext, rfl⟩ := ok_of_mapNext h
    rw [wrote_enter hcommit hnext]
    have hlead := Organizations.Log.leads
      ((organizationStmt_roles (rolesOf site.keys reply) pc).trans hstmt) hnext
    rw [written_roles, written_roles _ next] at hlead
    exact leads_lift (fun e he => besides_first he) hlead

theorem joins_trans {organizationId roleId userId joinedAt : ℕ} {users : ℕ → Prop}
    (huser : users userId) {k : AccessKey} {before between after : Option (AccessRowOf k)}
    (h : Joins organizationId roleId users k before between)
    (he : (Joining.membership ⟨organizationId, roleId, userId, joinedAt⟩).put k between after) :
    Joins organizationId roleId users k before after := by
  cases he with
  | other _ => exact h
  | inserted =>
    cases h with
    | same => exact .joined huser
  | updated =>
    cases h with
    | same => exact .rejoined huser
    | joined hjoined => exact .joined hjoined
    | rejoined hjoined => exact .rejoined hjoined

section Joining

variable {e : AccessEntry} {joining : Joining} {users : ℕ → Prop}

theorem leads_rejoin {n : ℕ} (huser : users joining.userId) :
    Leads [e, Joins joining.organizationId joining.roleId users] joining.membership.update.stmt
      (.count n) [e, Joins joining.organizationId joining.roleId users] := by
  change Leads ([e] ++ [_]) _ _ ([e] ++ [_])
  refine .absorb fun k before between after h he => ?_
  by_cases hn : n = 0
  · subst hn
    obtain rfl := Upsert.effect_missing he
    exact h
  · exact joins_trans huser h (Upsert.effect_updated he hn)

theorem leads_join (huser : users joining.userId) :
    Leads [e, Joins joining.organizationId joining.roleId users]
      (.insert ⟨.inl .membership, joining.membership.id⟩ joining.membership.row) reply
      [e, Joins joining.organizationId joining.roleId users] := by
  change Leads ([e] ++ [_]) _ _ ([e] ++ [_])
  exact .absorb fun _ _ _ _ h he => joins_trans huser h (Upsert.effect_inserted he)

end Joining

theorem leads_founds {id : ℕ} {slug : String} :
    Leads entries (.insert (organizationKey id) ({ slug := slug } : Organization)) reply
      (entries ++ [Founds id slug]) := by
  refine .write fun k between after he => ?_
  cases effect_new he with
  | other _ => exact .same
  | inserted => exact .inserted

theorem login_leads {input : CreateSession} {expiresAt : ℕ} {pc : LoginPc}
    (h : loginNext site input expiresAt pc reply = some (.ok pc')) :
    Leads (loginWrote input pc) (loginStmt input expiresAt pc) reply (accessWritten cfg pc') := by
  unfold loginNext at h
  split at h
  · obtain rfl := point_inj h
    split
    · exact Leads.read.opens fun _ _ => .same
    · exact .read
  · obtain rfl := point_inj h
    exact leads_founds
  · obtain ⟨roleId, -, rfl⟩ := ok_of_mapNext h
    exact Leads.read.opens fun _ _ => .same
  · obtain rfl := point_inj h
    split_ifs <;> exact leads_rejoin rfl
  · obtain rfl := point_inj h
    exact leads_join rfl
  · obtain ⟨found, -, he⟩ := map_eq_some_iff.mp h
    obtain rfl := Except.ok.inj he
    split <;> exact .read
  · obtain rfl := point_inj h
    exact leads_newSession
  · obtain ⟨hn, rfl⟩ := ok_of_requiredRow (some.inj h)
    refine .same fun k between after he => ?_
    cases ((touchLogin input.userId).effect_may he : (touchLogin input.userId).may k between after) with
    | same | changed => rfl
  · exact .commit
  · cases h

theorem switch_leads {input : SwitchOrganization} {pc : SwitchPc}
    (h : switchNext input pc reply = some (.ok pc')) :
    Leads (switchWrote pc) (switchStmt input pc) reply (accessWritten cfg pc') := by
  unfold switchNext at h
  split at h
  · split_ifs at h
    · obtain rfl := point_inj h
      exact .read
    · cases h
  · split_ifs at h
    · cases h
    · obtain rfl := point_inj h
      exact leads_sessions
  · split_ifs at h
    · obtain rfl := point_inj h
      exact .read
    · cases h
  · exact .commit
  · cases h

theorem logout_leads {input : RevokeSession} {pc : LogoutPc}
    (h : logoutNext input pc reply = some (.ok pc')) :
    Leads (logoutWrote pc) (logoutStmt input pc) reply (accessWritten cfg pc') := by
  unfold logoutNext at h
  split at h
  · obtain rfl := point_inj h
    exact leads_sessions
  · exact .commit
  · cases h

theorem backfillWrote_joinNext {input : Backfill} {organizationId roleId now : ℕ}
    {users : List ℕ} : backfillWrote input (.joinNext organizationId roleId now users) =
      [Backfill.founds input, Joins organizationId roleId fun _ => True] := by
  cases users <;> rfl

theorem backfill_leads {input : Backfill} {pc : BackfillPc}
    (h : backfillNext site input pc reply = some (.ok pc')) :
    Leads (backfillWrote input pc) (backfillStmt input pc) reply (accessWritten cfg pc') := by
  unfold backfillNext at h
  split at h
  · obtain rfl := point_inj h
    split
    · split_ifs
      · exact Leads.read.opens fun _ _ => .same
      · exact .read
    · split
      · exact Leads.read.opens fun _ _ => .same
      · exact .read
  · obtain rfl := point_inj h
    exact leads_founds
  · obtain ⟨roleId, -, rfl⟩ := ok_of_mapNext h
    exact .read
  · obtain rfl := point_inj h
    rw [accessWritten, backfillWrote_joinNext]
    exact Leads.read.opens fun _ _ => .same
  · obtain rfl := point_inj h
    split_ifs
    · rw [accessWritten, backfillWrote_joinNext]
      exact leads_rejoin trivial
    · exact leads_rejoin trivial
    · exact leads_rejoin trivial
  · obtain rfl := point_inj h
    rw [accessWritten, backfillWrote_joinNext]
    exact leads_join trivial
  · obtain rfl := point_inj h
    exact leads_sessions
  · exact .commit
  · cases h

theorem createRole_leads {input : CreateRole} {pc : CreateRolePc}
    (h : createRoleNext cfg input pc reply = some (.ok pc')) :
    Leads (createRoleWrote input pc) (createRoleStmt input pc) reply (accessWritten cfg pc') := by
  have hnext {next : CreateRolePc} {codes : List String}
      (hnext : CreateRolePc.connectNext cfg codes = .ok next) :
      createRoleWrote input next = [CreateRole.inserted input, Connects input.id] := by
    unfold CreateRolePc.connectNext at hnext
    split at hnext
    · obtain rfl := Except.ok.inj hnext
      rfl
    · split_ifs at hnext
      obtain rfl := Except.ok.inj hnext
      rfl
  unfold createRoleNext at h
  split at h
  · obtain ⟨next, hok, rfl⟩ := ok_of_mapOk (some.inj h)
    rw [accessWritten, hnext hok]
    exact Leads.opens (.write fun _ _ _ => effect_new) fun _ _ => .same
  · obtain ⟨next, hok, rfl⟩ := ok_of_mapOk (some.inj h)
    rw [accessWritten, hnext hok]
    change Leads ([_] ++ [_]) _ _ ([_] ++ [_])
    refine .absorb fun k before between after hconnects he => ?_
    cases effect_new he with
    | other _ => exact hconnects
    | inserted =>
      cases hconnects with
      | same => exact .connected
  · exact .commit
  · cases h

theorem assign_leads {input : AssignRole} {pc : AssignPc}
    (h : assignNext site input pc reply = some (.ok pc')) :
    Leads (assignWrote input pc) (assignStmt input pc) reply (accessWritten cfg pc') := by
  unfold assignNext at h
  split at h
  · split_ifs at h
    · obtain rfl := point_inj h
      exact .read
    · cases h
  · obtain rfl := point_inj h
    split_ifs with hn hpick
    · exact .write fun _ _ _ he => Upsert.effect_updated he hn
    · obtain rfl := not_not.mp hn
      exact .same fun _ _ _ => Upsert.effect_missing
    · obtain rfl := not_not.mp hn
      exact .same fun _ _ _ => Upsert.effect_missing
  · obtain rfl := point_inj h
    exact .write fun _ _ _ => Upsert.effect_inserted
  · obtain ⟨hn, rfl⟩ := ok_of_requiredRow (some.inj h)
    exact .must hn fun _ _ hu => (of_decide_eq_true hu).1
  · exact .commit
  · cases h

theorem revokeRole_leads {input : RevokeRole} {pc : RevokeRolePc}
    (h : revokeRoleNext input pc reply = some (.ok pc')) :
    Leads (revokeRoleWrote input pc) (revokeRoleStmt input pc) reply (accessWritten cfg pc') := by
  unfold revokeRoleNext at h
  split at h
  · next deletedAt n =>
    have hone (id : ℕ × ℕ) (row : UserRole) (hu : (input.update deletedAt).cond id row = true) :
        id = (input.userId, input.roleId) := (of_decide_eq_true hu).1
    obtain rfl := point_inj h
    split_ifs with hn
    · subst hn
      exact .same fun _ _ _ he => Update.effect_same he Nat.zero_ne_one hone
    · refine .write fun k between after he => ?_
      cases (Update.effect_must he hn hone) with
      | other _ => exact .same
      | changed _ => exact .revoked
  · obtain ⟨hn, rfl⟩ := ok_of_requiredRow (some.inj h)
    exact .must hn fun _ _ hu => (of_decide_eq_true hu).1
  · exact .commit
  · cases h

theorem updateRoleWrote_addNext {input : UpdateRolePermissions} {change : RoleChange}
    {codes : List String} : updateRoleWrote input (.addNext change codes) =
      [Recodes input.roleId change.toRemove] := by
  unfold UpdateRolePc.addNext
  cases codes with
  | cons code rest => rfl
  | nil =>
    dsimp only
    split <;> rfl

section Recoding

variable {input : UpdateRolePermissions} {code : String} {toRemove : List String}

theorem recodes_put {k : AccessKey} {before between after : Option (AccessRowOf k)}
    (h : Recodes input.roleId toRemove k before between)
    (he : (input.rolePermission code).put k between after) :
    Recodes input.roleId toRemove k before after := by
  cases he with
  | other _ => exact h
  | inserted | updated => exact .recoded (.inl rfl)

theorem leads_addPermission {n : ℕ} :
    Leads [Recodes input.roleId toRemove] (input.rolePermission code).update.stmt (.count n)
      [Recodes input.roleId toRemove] := by
  change Leads ([] ++ [_]) _ _ ([] ++ [_])
  refine .absorb fun k before between after h he => ?_
  by_cases hn : n = 0
  · subst hn
    obtain rfl := Upsert.effect_missing he
    exact h
  · exact recodes_put h (Upsert.effect_updated he hn)

theorem leads_insertPermission :
    Leads [Recodes input.roleId toRemove] (.insert ⟨.inr .rolePermission,
        (input.rolePermission code).id⟩ (input.rolePermission code).row) reply
      [Recodes input.roleId toRemove] := by
  change Leads ([] ++ [_]) _ _ ([] ++ [_])
  exact .absorb fun _ _ _ _ h he => recodes_put h (Upsert.effect_inserted he)

theorem leads_removePermissions {change : RoleChange} {deletedAt : ℕ} :
    Leads [Recodes input.roleId change.toRemove] (input.remove change deletedAt).stmt reply
      [Recodes input.roleId change.toRemove] := by
  change Leads ([] ++ [_]) _ _ ([] ++ [_])
  refine .absorb fun k before between after h he => ?_
  cases (Update.effect_may he : (input.remove change deletedAt).may k between after) with
  | same => exact h
  | @changed id row hcond =>
    obtain ⟨roleId, code⟩ := id
    obtain ⟨rfl, hremove, -⟩ := of_decide_eq_true hcond
    exact .recoded (.inr hremove)

end Recoding

theorem updateRole_leads {input : UpdateRolePermissions} {pc : UpdateRolePc}
    (h : updateRoleNext cfg site input pc reply = some (.ok pc')) :
    Leads (updateRoleWrote input pc) (updateRoleStmt input pc) reply (accessWritten cfg pc') := by
  unfold updateRoleNext at h
  split at h
  · have h := some.inj h
    split at h
    · cases h
    · dsimp only at h
      split_ifs at h
      · obtain rfl := Except.ok.inj h
        exact .read
  · obtain rfl := point_inj h
    split_ifs
    · exact Leads.read.opens fun _ _ => .same
    · rw [accessWritten, updateRoleWrote_addNext]
      exact Leads.read.opens fun _ _ => .same
  · obtain rfl := point_inj h
    rw [accessWritten, updateRoleWrote_addNext]
    exact leads_removePermissions
  · obtain rfl := point_inj h
    split_ifs
    · rw [accessWritten, updateRoleWrote_addNext]
      exact leads_addPermission
    · exact leads_addPermission
    · exact leads_addPermission
  · obtain rfl := point_inj h
    rw [accessWritten, updateRoleWrote_addNext]
    exact leads_insertPermission
  · obtain ⟨hn, rfl⟩ := ok_of_requiredRow (some.inj h)
    exact .must hn fun _ _ hu => (of_decide_eq_true hu).1
  · obtain rfl := point_inj h
    exact .read
  · obtain rfl := point_inj h
    exact .may
  · exact .commit
  · cases h

theorem read_of_requestStmt {pc : RequestPc} (h : requestStmt pc = some stmt) : stmt = .read := by
  cases pc <;> cases h <;> rfl

theorem accessLeads (hstmt : accessStmt cfg pc = some stmt)
    (h : accessNext cfg site pc reply = some (.ok pc')) :
    Leads (accessWritten cfg pc) stmt reply (accessWritten cfg pc') := by
  cases pc with
  | organization pc =>
    obtain ⟨stmt', hstmt', rfl⟩ := map_eq_some_iff.mp hstmt
    exact organization_leads hstmt' h
  | unpin input deletedAt =>
    obtain rfl := some.inj hstmt
    cases reply with
    | count n =>
      obtain rfl := point_inj h
      exact leads_sessions
    | _ => cases h
  | revokeSessions input deletedAt locked =>
    obtain rfl := some.inj hstmt
    cases reply with
    | count n =>
      obtain rfl := point_inj h
      exact leads_sessions
    | _ => cases h
  | deleteUserRoles input deletedAt locked =>
    obtain rfl := some.inj hstmt
    cases reply with
    | count n =>
      obtain rfl := point_inj h
      change Leads (organizationWrote cfg _ ++ [Sessions]) _ _ (organizationWrote cfg _ ++ [_, _])
      rw [List.append_cons]
      exact .write fun _ _ _ => Removal.effect_may
    | _ => cases h
  | createSession input expiresAt pc =>
    obtain rfl := some.inj hstmt
    exact login_leads h
  | switchOrganization input pc =>
    obtain rfl := some.inj hstmt
    exact switch_leads h
  | revokeSession input pc =>
    obtain rfl := some.inj hstmt
    exact logout_leads h
  | backfill input pc =>
    obtain rfl := some.inj hstmt
    exact backfill_leads h
  | createRole input pc =>
    obtain rfl := some.inj hstmt
    exact createRole_leads h
  | assignRole input pc =>
    obtain rfl := some.inj hstmt
    exact assign_leads h
  | revokeRole input pc =>
    obtain rfl := some.inj hstmt
    exact revokeRole_leads h
  | updateRole input pc =>
    obtain rfl := some.inj hstmt
    exact updateRole_leads h
  | guarded input pc =>
    obtain ⟨next, -, rfl⟩ := ok_of_mapNext h
    obtain rfl := read_of_requestStmt hstmt
    exact .read
  | returned | thrown => cases hstmt

/-! ### Where a call goes on -/

inductive CallKind
  | organization | createSession | switchOrganization | revokeSession | backfill | createRole
  | assignRole | revokeRole | updateRole | guarded
deriving DecidableEq

/-- The call of a program point, if it has not ended. -/
def callOf : AccessPc → Option CallKind
  | .organization _ | .unpin .. | .revokeSessions .. | .deleteUserRoles .. => some .organization
  | .createSession .. => some .createSession
  | .switchOrganization .. => some .switchOrganization
  | .revokeSession .. => some .revokeSession
  | .backfill .. => some .backfill
  | .createRole .. => some .createRole
  | .assignRole .. => some .assignRole
  | .revokeRole .. => some .revokeRole
  | .updateRole .. => some .updateRole
  | .guarded .. => some .guarded
  | .returned _ | .thrown _ => none

/-- The call goes on, or has ended. -/
def GoesOn (kind : CallKind) (pc' : AccessPc) : Prop := callOf pc' = none ∨ callOf pc' = some kind

theorem goesOn_point {kind : CallKind} {next : AccessPc}
    (h : (some (.ok next) : Option (Except Thrown AccessPc)) = some (.ok pc'))
    (hnext : callOf next = some kind) : GoesOn kind pc' := by
  obtain rfl := point_inj h
  exact .inr hnext

theorem enter_goesOn {next : OrganizationPc} : GoesOn .organization (enter next) := by
  unfold enter
  split
  · exact .inr rfl
  · exact .inr rfl
  · exact .inl rfl
  · exact .inl rfl
  · exact .inr rfl

theorem login_goesOn {input : CreateSession} {expiresAt : ℕ} {pc : LoginPc}
    (h : loginNext site input expiresAt pc reply = some (.ok pc')) : GoesOn .createSession pc' := by
  unfold loginNext at h
  split at h
  · exact goesOn_point h rfl
  · exact goesOn_point h rfl
  · obtain ⟨roleId, -, rfl⟩ := ok_of_mapNext h
    exact .inr rfl
  · exact goesOn_point h rfl
  · exact goesOn_point h rfl
  · obtain ⟨found, -, he⟩ := map_eq_some_iff.mp h
    obtain rfl := Except.ok.inj he
    exact .inr rfl
  · exact goesOn_point h rfl
  · obtain ⟨-, rfl⟩ := ok_of_requiredRow (some.inj h)
    exact .inr rfl
  · obtain rfl := point_inj h
    exact .inl rfl
  · cases h

theorem switch_goesOn {input : SwitchOrganization} {pc : SwitchPc}
    (h : switchNext input pc reply = some (.ok pc')) : GoesOn .switchOrganization pc' := by
  unfold switchNext at h
  split at h
  · split_ifs at h
    · exact goesOn_point h rfl
    · cases h
  · split_ifs at h
    · cases h
    · exact goesOn_point h rfl
  · split_ifs at h
    · exact goesOn_point h rfl
    · cases h
  · obtain rfl := point_inj h
    exact .inl rfl
  · cases h

theorem backfill_goesOn {input : Backfill} {pc : BackfillPc}
    (h : backfillNext site input pc reply = some (.ok pc')) : GoesOn .backfill pc' := by
  unfold backfillNext at h
  split at h
  · exact goesOn_point h rfl
  · exact goesOn_point h rfl
  · obtain ⟨roleId, -, rfl⟩ := ok_of_mapNext h
    exact .inr rfl
  · exact goesOn_point h rfl
  · exact goesOn_point h rfl
  · exact goesOn_point h rfl
  · exact goesOn_point h rfl
  · obtain rfl := point_inj h
    exact .inl rfl
  · cases h

theorem createRole_goesOn {input : CreateRole} {pc : CreateRolePc}
    (h : createRoleNext cfg input pc reply = some (.ok pc')) : GoesOn .createRole pc' := by
  unfold createRoleNext at h
  split at h
  · obtain ⟨next, -, rfl⟩ := ok_of_mapOk (some.inj h)
    exact .inr rfl
  · obtain ⟨next, -, rfl⟩ := ok_of_mapOk (some.inj h)
    exact .inr rfl
  · obtain rfl := point_inj h
    exact .inl rfl
  · cases h

theorem assign_goesOn {input : AssignRole} {pc : AssignPc}
    (h : assignNext site input pc reply = some (.ok pc')) : GoesOn .assignRole pc' := by
  unfold assignNext at h
  split at h
  · split_ifs at h
    · exact goesOn_point h rfl
    · cases h
  · exact goesOn_point h rfl
  · exact goesOn_point h rfl
  · obtain ⟨-, rfl⟩ := ok_of_requiredRow (some.inj h)
    exact .inr rfl
  · obtain rfl := point_inj h
    exact .inl rfl
  · cases h

theorem revokeRole_goesOn {input : RevokeRole} {pc : RevokeRolePc}
    (h : revokeRoleNext input pc reply = some (.ok pc')) : GoesOn .revokeRole pc' := by
  unfold revokeRoleNext at h
  split at h
  · exact goesOn_point h rfl
  · obtain ⟨-, rfl⟩ := ok_of_requiredRow (some.inj h)
    exact .inr rfl
  · obtain rfl := point_inj h
    exact .inl rfl
  · cases h

theorem updateRole_goesOn {input : UpdateRolePermissions} {pc : UpdateRolePc}
    (h : updateRoleNext cfg site input pc reply = some (.ok pc')) : GoesOn .updateRole pc' := by
  unfold updateRoleNext at h
  split at h
  · have h := some.inj h
    split at h
    · cases h
    · dsimp only at h
      split_ifs at h
      · obtain rfl := Except.ok.inj h
        exact .inr rfl
  · exact goesOn_point h rfl
  · exact goesOn_point h rfl
  · exact goesOn_point h rfl
  · exact goesOn_point h rfl
  · obtain ⟨-, rfl⟩ := ok_of_requiredRow (some.inj h)
    exact .inr rfl
  · exact goesOn_point h rfl
  · exact goesOn_point h rfl
  · obtain rfl := point_inj h
    exact .inl rfl
  · cases h

/-- **A call goes on as the same call**, or has ended. -/
theorem callOf_next (h : accessNext cfg site pc reply = some (.ok pc')) :
    callOf pc' = none ∨ callOf pc' = callOf pc := by
  cases pc with
  | organization pc =>
    obtain ⟨next, -, rfl⟩ := ok_of_mapNext h
    exact enter_goesOn
  | unpin | revokeSessions | deleteUserRoles =>
    cases reply <;> cases h
    exact .inr rfl
  | createSession input expiresAt pc => exact login_goesOn h
  | switchOrganization input pc => exact switch_goesOn h
  | revokeSession input pc =>
    cases pc <;> cases reply <;> cases h
    · exact .inr rfl
    · exact .inl rfl
  | backfill input pc => exact backfill_goesOn h
  | createRole input pc => exact createRole_goesOn h
  | assignRole input pc => exact assign_goesOn h
  | revokeRole input pc => exact revokeRole_goesOn h
  | updateRole input pc => exact updateRole_goesOn h
  | guarded input pc =>
    obtain ⟨next, -, rfl⟩ := ok_of_mapNext h
    exact .inr rfl
  | returned | thrown => cases h

/-! ### The service follows its notes -/

inductive AccessCommit : AccessPc → Prop
  | organization {pc : OrganizationPc} : Commit pc → AccessCommit (.organization pc)
  | createSession {input : CreateSession} {expiresAt : ℕ} {initial : Initial} :
      AccessCommit (.createSession input expiresAt (.commit initial))
  | switchOrganization {input : SwitchOrganization} :
      AccessCommit (.switchOrganization input .commit)
  | revokeSession {input : RevokeSession} : AccessCommit (.revokeSession input .commit)
  | backfill {input : Backfill} {organizationId roleId : ℕ} :
      AccessCommit (.backfill input (.commit organizationId roleId))
  | createRole {input : CreateRole} : AccessCommit (.createRole input .commit)
  | assignRole {input : AssignRole} : AccessCommit (.assignRole input .commit)
  | revokeRole {input : RevokeRole} {revoked : Bool} :
      AccessCommit (.revokeRole input (.commit revoked))
  | updateRole {input : UpdateRolePermissions} {change : RoleChange} {bumped : Bumped} :
      AccessCommit (.updateRole input (.commit change bumped))

theorem accessCommit_of_stmt (h : accessStmt cfg pc = some .commit) : AccessCommit pc := by
  have hupdate {t : Table} {u : AccessUpdate t} : (some u.stmt : Option AccessStmt) ≠ some .commit :=
    fun h => Update.stmt_ne_commit (some.inj h)
  cases pc with
  | organization pc =>
    obtain ⟨stmt, hstmt, he⟩ := map_eq_some_iff.mp h
    obtain rfl := liftStmt_eq_commit.mp he
    exact .organization (commit_of_stmt hstmt)
  | unpin | revokeSessions => exact absurd h hupdate
  | deleteUserRoles => exact absurd (some.inj h) Removal.stmt_ne_commit
  | createSession input expiresAt pc =>
    cases pc with
    | commit => exact .createSession
    | updateMembership | touchUser => exact absurd h hupdate
    | _ => cases h
  | switchOrganization input pc =>
    cases pc with
    | commit => exact .switchOrganization
    | updateSession => exact absurd h hupdate
    | _ => cases h
  | revokeSession input pc =>
    cases pc with
    | commit => exact .revokeSession
    | updateSession => exact absurd h hupdate
  | backfill input pc =>
    cases pc with
    | commit => exact .backfill
    | updateMembership | updateSessions => exact absurd h hupdate
    | _ => cases h
  | createRole input pc =>
    cases pc with
    | commit => exact .createRole
    | _ => cases h
  | assignRole input pc =>
    cases pc with
    | commit => exact .assignRole
    | updateUserRole | touchUser => exact absurd h hupdate
    | _ => cases h
  | revokeRole input pc =>
    cases pc with
    | commit => exact .revokeRole
    | update | touchUser => exact absurd h hupdate
  | updateRole input pc =>
    cases pc with
    | commit => exact .updateRole
    | remove | updatePermission | touchOrganization | touchHolders => exact absurd h hupdate
    | _ => cases h
  | guarded input pc => cases read_of_requestStmt h
  | returned | thrown => cases h

theorem returned_of_accessCommit (hc : AccessCommit pc)
    (h : accessNext cfg site pc reply = some (.ok pc')) : ∃ result, pc' = .returned result := by
  cases hc with
  | organization hc =>
    obtain ⟨next, hnext, rfl⟩ := ok_of_mapNext h
    obtain ⟨result, rfl⟩ := returned_of_commit hc hnext
    exact ⟨_, rfl⟩
  | _ =>
    cases reply <;> cases h
    exact ⟨_, rfl⟩

theorem start_wrote {now : ℕ} {request : AccessRequest} :
    accessWritten cfg (accessStart cfg now request) = [] := by
  cases request with
  | organization request =>
    cases request with
    | createOrganization input =>
      change accessWritten cfg (enter (startPc _ now (.createOrganization input))) = []
      unfold startPc
      split_ifs <;> rfl
    | _ => rfl
  | createSession input =>
    change loginWrote input (.start cfg.mode) = []
    cases cfg.mode <;> rfl
  | backfill input =>
    unfold accessStart
    dsimp only
    split_ifs
    · rfl
    · rfl
  | _ => rfl

theorem guarded_of_outside {cache cache' : PermissionCache}
    (h : accessOutside site cache pc = some (cache', pc')) :
    ∃ input next, pc' = .guarded input next := by
  cases pc with
  | guarded input pc =>
    obtain ⟨next, -, he⟩ := map_eq_some_iff.mp h
    obtain ⟨-, rfl⟩ := Prod.mk.inj he
    exact ⟨input, next.2, rfl⟩
  | _ => cases h

theorem accessLists : Lists (access cfg) (accessWritten cfg) fun _ => [] where
  listed := cfg.listed
  start now request := ⟨start_wrote, rfl⟩
  leads site pc stmt reply pc' hstmt hnext := accessLeads hstmt hnext
  held _ _ _ _ _ _ _ _ hk := by cases hk
  commit site pc reply pc' hstmt hnext := by
    obtain ⟨result, rfl⟩ := returned_of_accessCommit (accessCommit_of_stmt hstmt) hnext
    exact ⟨rfl, rfl⟩
  outside site m pc m' pc' hout := by
    cases pc with
    | guarded input pc =>
      obtain ⟨next, -, he⟩ := map_eq_some_iff.mp hout
      obtain ⟨-, rfl⟩ := Prod.mk.inj he
      exact ⟨rfl, rfl⟩
    | _ => cases hout
  thrown e := ⟨rfl, fun _ _ => rfl⟩

end BackendFoundation.Access.Log
