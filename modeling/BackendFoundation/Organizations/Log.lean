import BackendFoundation.Organizations.Model

/-! # What the calls on organizations write

`written` says, for each program point, what the transaction of the call has written, and `locks`
which advisory locks it has; `lists` is that the statements lead from one to the next. What a commit
does is then said table by table: `commit_membership` and `commit_invitation`. -/

namespace BackendFoundation.Organizations.Log

open Lib.Database Lib.WriteLog Lib.Schema Lib.Services Lib.Logs Lib.Rows Errors
open Crypto Organizations.Model
open Option (some.inj)

/-! ### The notes -/

abbrev OrganizationEntry := Entry OrganizationRow

def createWrote (input : CreateOrganization) : CreatePc → List OrganizationEntry
  | .findSlug | .insertOrganization => []
  | .findOwnerRole | .insertMembership _ _ => [New .organization input.id input.organization]
  | .touchUser roleId joinedAt =>
    [New .organization input.id input.organization,
      New .membership (input.id, input.actorUserId) (input.membership roleId joinedAt)]
  | .commit roleId joinedAt =>
    [New .organization input.id input.organization,
      New .membership (input.id, input.actorUserId) (input.membership roleId joinedAt),
      (touchUser input.actorUserId).must input.actorUserId]

def changeWrote (input : ChangeMemberRole) : ChangePc → List OrganizationEntry
  | .lock | .findRole | .findTarget _ | .countOwners | .update => []
  | .touchUser => [input.update.must (input.organizationId, input.userId)]
  | .findChanged | .commit =>
    [input.update.must (input.organizationId, input.userId),
      (touchUser input.userId).must input.userId]

def removeWrote (input : RemoveMember) : RemovePc → List OrganizationEntry
  | .lock | .findTarget | .countOwners | .update _ => []
  | .touchUser deletedAt => [(input.update deletedAt).must (input.organizationId, input.userId)]
  | .commit deletedAt =>
    [(input.update deletedAt).must (input.organizationId, input.userId),
      (touchUser input.userId).must input.userId]

def inviteWrote (cfg : OrganizationConfig) (input : CreateInvitation) :
    InvitePc → List OrganizationEntry
  | .findRole | .findOrganization | .insert _ => []
  | .commit expiresAt => [New .invitation input.id (input.invitation cfg expiresAt)]

def acceptWrote (input : AcceptInvitation) : AcceptPc → List OrganizationEntry
  | .findInvitation | .findUser .. | .updateMembership _ | .insertMembership _ => []
  | .markAccepted accepting _ => [accepting.membership.put]
  | .touchUser accepting acceptedAt =>
    [accepting.membership.put, (accepting.markAccepted acceptedAt).must accepting.invitationId]
  | .findOrganization accepting acceptedAt | .commit accepting acceptedAt =>
    [accepting.membership.put, (accepting.markAccepted acceptedAt).must accepting.invitationId,
      (touchUser input.userId).must input.userId]

def revokeWrote (input : RevokeInvitation) : RevokePc → List OrganizationEntry
  | .update _ => []
  | .commit revokedAt => [(input.update revokedAt).must input.invitationId]

def deleteWrote (input : DeleteAccount) : DeletePc → List OrganizationEntry
  | .confirm | .findOwnerMemberships _ | .lockOwners .. | .countOwners .. | .updateUser .. => []
  | .updateMemberships deletedAt _ => [(input.eraseUser deletedAt).must input.userId]
  | .commit deletedAt _ =>
    [(input.eraseUser deletedAt).must input.userId, (input.suspend deletedAt).may]

/-- What the statements of the transaction have written so far. -/
def written (cfg : OrganizationConfig) : OrganizationPc → List OrganizationEntry
  | .create input pc => createWrote input pc
  | .change input pc => changeWrote input pc
  | .remove input pc => removeWrote input pc
  | .invite input pc => inviteWrote cfg input pc
  | .accept input pc => acceptWrote input pc
  | .revoke input pc => revokeWrote input pc
  | .delete input pc => deleteWrote input pc
  | .returned _ | .thrown _ => []

def ownersKey (organizationId : ℕ) : OrganizationKey := ⟨.owners, organizationId⟩

/-- The organizations whose lock the transaction of `deleteAccount` has. -/
def DeletePc.locked : DeletePc → List ℕ
  | .confirm | .findOwnerMemberships _ => []
  | .lockOwners _ locked _ _ | .updateUser _ locked | .updateMemberships _ locked
  | .commit _ locked => locked
  | .countOwners _ locked organizationId _ => organizationId :: locked

/-- The organizations whose lock the transaction has. -/
def lockedBy : OrganizationPc → List ℕ
  | .change _ .lock | .remove _ .lock => []
  | .change input _ => [input.organizationId]
  | .remove input _ => [input.organizationId]
  | .delete _ pc => DeletePc.locked pc
  | _ => []

def locks (pc : OrganizationPc) : List OrganizationKey := (lockedBy pc).map ownersKey

/-! ### The statements lead from one note to the next -/

variable {cfg : OrganizationConfig} {site : Site OrganizationKey} {reply : Reply OrganizationRow}
  {pc pc' : OrganizationPc} {stmt : OrganizationStmt}

theorem ok_of_required {n : ℕ} (h : required n pc = .ok pc') : n ≠ 0 ∧ pc' = pc := by
  unfold required at h
  split_ifs at h with hn
  exact ⟨hn, (Except.ok.inj h).symm⟩

theorem ok_of_map {α : Type} {e : Except Thrown α} {f : α → OrganizationPc}
    (h : e.map f = .ok pc') : ∃ a, e = .ok a ∧ pc' = f a := by
  cases e with
  | error e => cases h
  | ok a => exact ⟨a, rfl, (Except.ok.inj h).symm⟩

theorem leads_touchUser {userId n : ℕ} (hn : n ≠ 0) {entries : List OrganizationEntry} :
    Leads entries (touchUser userId).stmt (.count n)
      (entries ++ [(touchUser userId).must userId]) :=
  .must hn fun _ _ hu => (of_decide_eq_true hu).1

theorem create_leads {input : CreateOrganization} {pc : CreatePc}
    (h : createNext cfg site input pc reply = some (.ok pc')) :
    Leads (createWrote input pc) (createStmt input pc) reply (written cfg pc') := by
  unfold createNext at h
  split at h
  · split_ifs at h
    · cases h
    · obtain rfl := point_inj h
      exact .read
  · obtain rfl := point_inj h
    exact .write fun _ _ _ => effect_new
  · obtain ⟨roleId, -, rfl⟩ := ok_of_map (some.inj h)
    exact .read
  · obtain rfl := point_inj h
    exact .write fun _ _ _ => effect_new
  · obtain ⟨hn, rfl⟩ := ok_of_required (some.inj h)
    exact leads_touchUser hn
  · exact .commit
  · cases h

theorem change_leads {input : ChangeMemberRole} {pc : ChangePc}
    (h : changeNext cfg.roles site input pc reply = some (.ok pc')) :
    Leads (changeWrote input pc) (changeStmt input pc) reply (written cfg pc') := by
  unfold changeNext at h
  split at h
  · obtain rfl := point_inj h
    exact .lock
  · obtain ⟨role, -, rfl⟩ := ok_of_map (some.inj h)
    exact .read
  · have h := some.inj h
    split at h
    · cases h
    · split_ifs at h <;> obtain rfl := Except.ok.inj h <;> exact .read
  · split_ifs at h
    · cases h
    · obtain rfl := point_inj h
      exact .read
  · split_ifs at h with hn
    · cases h
    · obtain rfl := point_inj h
      exact .must hn fun _ _ hu => (of_decide_eq_true hu).1
  · obtain ⟨hn, rfl⟩ := ok_of_required (some.inj h)
    exact leads_touchUser hn
  · split_ifs at h
    · cases h
    · obtain rfl := point_inj h
      exact .read
  · exact .commit
  · cases h

theorem remove_leads {input : RemoveMember} {pc : RemovePc}
    (h : removeNext cfg.roles site input pc reply = some (.ok pc')) :
    Leads (removeWrote input pc) (removeStmt input pc) reply (written cfg pc') := by
  unfold removeNext at h
  split at h
  · obtain rfl := point_inj h
    exact .lock
  · have h := some.inj h
    split at h
    · cases h
    · split_ifs at h <;> obtain rfl := Except.ok.inj h <;> exact .read
  · split_ifs at h
    · cases h
    · obtain rfl := point_inj h
      exact .read
  · obtain ⟨hn, rfl⟩ := ok_of_required (some.inj h)
    exact .must hn fun _ _ hu => (of_decide_eq_true hu).1
  · obtain ⟨hn, rfl⟩ := ok_of_required (some.inj h)
    exact leads_touchUser hn
  · exact .commit
  · cases h

theorem invite_leads {input : CreateInvitation} {pc : InvitePc}
    (h : inviteNext cfg site input pc reply = some (.ok pc')) :
    Leads (inviteWrote cfg input pc) (inviteStmt cfg input pc) reply (written cfg pc') := by
  unfold inviteNext at h
  split at h
  · obtain ⟨role, -, rfl⟩ := ok_of_map (some.inj h)
    exact .read
  · split_ifs at h
    · obtain rfl := point_inj h
      exact .read
    · cases h
  · obtain rfl := point_inj h
    exact .write fun _ _ _ => effect_new
  · exact .commit
  · cases h

theorem accept_leads {input : AcceptInvitation} {pc : AcceptPc}
    (h : acceptNext cfg site input pc reply = some (.ok pc')) :
    Leads (acceptWrote input pc) (acceptStmt input pc) reply (written cfg pc') := by
  unfold acceptNext at h
  split at h
  · obtain ⟨found, -, he⟩ := Option.map_eq_some_iff.mp h
    split at he
    · cases he
    · obtain rfl := Except.ok.inj he
      exact .read
  · split_ifs at h
    · obtain rfl := point_inj h
      exact .read
    · cases h
  · obtain rfl := point_inj h
    split_ifs with hn hpick
    · exact .write fun _ _ _ he => Upsert.effect_updated he hn
    · obtain rfl := not_not.mp hn
      exact .same fun _ _ _ => Upsert.effect_missing
    · obtain rfl := not_not.mp hn
      exact .same fun _ _ _ => Upsert.effect_missing
  · obtain rfl := point_inj h
    exact .write fun _ _ _ => Upsert.effect_inserted
  · obtain ⟨hn, rfl⟩ := ok_of_required (some.inj h)
    exact .must hn fun _ _ hu => (of_decide_eq_true hu).1
  · obtain ⟨hn, rfl⟩ := ok_of_required (some.inj h)
    exact leads_touchUser hn
  · split_ifs at h
    · obtain rfl := point_inj h
      exact .read
    · cases h
  · exact .commit
  · cases h

theorem revoke_leads {input : RevokeInvitation} {pc : RevokePc}
    (h : revokeNext input pc reply = some (.ok pc')) :
    Leads (revokeWrote input pc) (revokeStmt input pc) reply (written cfg pc') := by
  unfold revokeNext at h
  split at h
  · split_ifs at h with hn
    · cases h
    · obtain rfl := point_inj h
      exact .must hn fun _ _ hu => (of_decide_eq_true hu).1
  · exact .commit
  · cases h

variable {input : DeleteAccount}

theorem deleteWrote_lockNext {deletedAt : ℕ} {locked rest : List ℕ} :
    deleteWrote input (.lockNext deletedAt locked rest) = [] := by
  cases rest <;> rfl

theorem delete_leads {pc : DeletePc}
    (h : deleteNext cfg.roles site input pc reply = some (.ok pc')) :
    Leads (deleteWrote input pc) (deleteStmt input pc) reply (written cfg pc') := by
  unfold deleteNext at h
  split at h
  · obtain rfl := point_inj h
    split_ifs <;> exact .read
  · obtain rfl := point_inj h
    rw [written, deleteWrote_lockNext]
    exact .read
  · obtain rfl := point_inj h
    exact .lock
  · split_ifs at h
    · cases h
    · obtain rfl := point_inj h
      rw [written, deleteWrote_lockNext]
      exact .read
  · obtain ⟨hn, rfl⟩ := ok_of_required (some.inj h)
    exact .must hn fun _ _ hu => (of_decide_eq_true hu).1
  · obtain rfl := point_inj h
    exact .write fun _ _ _ => Update.effect_may
  · exact .commit
  · cases h

theorem leads (hstmt : organizationStmt cfg pc = some stmt)
    (h : organizationNext cfg site pc reply = some (.ok pc')) :
    Leads (written cfg pc) stmt reply (written cfg pc') := by
  cases pc with
  | create input pc =>
    obtain rfl := some.inj hstmt
    exact create_leads h
  | change input pc =>
    obtain rfl := some.inj hstmt
    exact change_leads h
  | remove input pc =>
    obtain rfl := some.inj hstmt
    exact remove_leads h
  | invite input pc =>
    obtain rfl := some.inj hstmt
    exact invite_leads h
  | accept input pc =>
    obtain rfl := some.inj hstmt
    exact accept_leads h
  | revoke input pc =>
    obtain rfl := some.inj hstmt
    exact revoke_leads h
  | delete input pc =>
    obtain rfl := some.inj hstmt
    exact delete_leads h
  | returned | thrown => cases hstmt

/-! ### Where a call goes on -/

theorem create_next {input : CreateOrganization} {pc : CreatePc}
    (h : createNext cfg site input pc reply = some (.ok pc')) :
    (∃ next, pc' = .create input next) ∨ ∃ result, pc' = .returned result := by
  unfold createNext at h
  split at h
  · split_ifs at h
    · cases h
    · exact .inl ⟨_, (point_inj h).symm⟩
  · exact .inl ⟨_, (point_inj h).symm⟩
  · obtain ⟨roleId, -, rfl⟩ := ok_of_map (some.inj h)
    exact .inl ⟨_, rfl⟩
  · exact .inl ⟨_, (point_inj h).symm⟩
  · exact .inl ⟨_, (ok_of_required (some.inj h)).2⟩
  · exact .inr ⟨_, (point_inj h).symm⟩
  · cases h

theorem change_next {input : ChangeMemberRole} {pc : ChangePc}
    (h : changeNext cfg.roles site input pc reply = some (.ok pc')) :
    (∃ next, pc' = .change input next) ∨ ∃ result, pc' = .returned result := by
  unfold changeNext at h
  split at h
  · exact .inl ⟨_, (point_inj h).symm⟩
  · obtain ⟨role, -, rfl⟩ := ok_of_map (some.inj h)
    exact .inl ⟨_, rfl⟩
  · have h := some.inj h
    split at h
    · cases h
    · split_ifs at h <;> exact .inl ⟨_, (Except.ok.inj h).symm⟩
  · split_ifs at h
    · cases h
    · exact .inl ⟨_, (point_inj h).symm⟩
  · split_ifs at h
    · cases h
    · exact .inl ⟨_, (point_inj h).symm⟩
  · exact .inl ⟨_, (ok_of_required (some.inj h)).2⟩
  · split_ifs at h
    · cases h
    · exact .inl ⟨_, (point_inj h).symm⟩
  · exact .inr ⟨_, (point_inj h).symm⟩
  · cases h

theorem remove_next {input : RemoveMember} {pc : RemovePc}
    (h : removeNext cfg.roles site input pc reply = some (.ok pc')) :
    (∃ next, pc' = .remove input next) ∨ ∃ result, pc' = .returned result := by
  unfold removeNext at h
  split at h
  · exact .inl ⟨_, (point_inj h).symm⟩
  · have h := some.inj h
    split at h
    · cases h
    · split_ifs at h <;> exact .inl ⟨_, (Except.ok.inj h).symm⟩
  · split_ifs at h
    · cases h
    · exact .inl ⟨_, (point_inj h).symm⟩
  · exact .inl ⟨_, (ok_of_required (some.inj h)).2⟩
  · exact .inl ⟨_, (ok_of_required (some.inj h)).2⟩
  · exact .inr ⟨_, (point_inj h).symm⟩
  · cases h

theorem invite_next {input : CreateInvitation} {pc : InvitePc}
    (h : inviteNext cfg site input pc reply = some (.ok pc')) :
    (∃ next, pc' = .invite input next) ∨ ∃ result, pc' = .returned result := by
  unfold inviteNext at h
  split at h
  · obtain ⟨role, -, rfl⟩ := ok_of_map (some.inj h)
    exact .inl ⟨_, rfl⟩
  · split_ifs at h
    · exact .inl ⟨_, (point_inj h).symm⟩
    · cases h
  · exact .inl ⟨_, (point_inj h).symm⟩
  · exact .inr ⟨_, (point_inj h).symm⟩
  · cases h

theorem revoke_next {input : RevokeInvitation} {pc : RevokePc}
    (h : revokeNext input pc reply = some (.ok pc')) :
    (∃ next, pc' = .revoke input next) ∨ ∃ result, pc' = .returned result := by
  unfold revokeNext at h
  split at h
  · split_ifs at h
    · cases h
    · exact .inl ⟨_, (point_inj h).symm⟩
  · exact .inr ⟨_, (point_inj h).symm⟩
  · cases h

theorem locked_lockNext {deletedAt : ℕ} {locked rest : List ℕ} :
    DeletePc.locked (.lockNext deletedAt locked rest) = locked := by
  cases rest <;> rfl

theorem delete_next {pc : DeletePc}
    (h : deleteNext cfg.roles site input pc reply = some (.ok pc')) :
    (∃ next, pc' = .delete input next ∧ ∀ o ∈ DeletePc.locked next,
      o ∈ DeletePc.locked pc ∨ deleteStmt input pc = .lock (ownersKey o)) ∨
      ∃ result, pc' = .returned result := by
  unfold deleteNext at h
  split at h
  · obtain rfl := point_inj h
    split_ifs
    · exact .inl ⟨_, rfl, nofun⟩
    · exact .inr ⟨_, rfl⟩
  · obtain rfl := point_inj h
    refine .inl ⟨_, rfl, fun o ho => .inl ?_⟩
    rwa [locked_lockNext] at ho
  · obtain rfl := point_inj h
    refine .inl ⟨_, rfl, fun o ho => ?_⟩
    rcases List.mem_cons.mp ho with rfl | ho
    · exact .inr rfl
    · exact .inl ho
  · split_ifs at h
    · cases h
    · obtain rfl := point_inj h
      refine .inl ⟨_, rfl, fun o ho => .inl ?_⟩
      rwa [locked_lockNext] at ho
  · obtain ⟨-, rfl⟩ := ok_of_required (some.inj h)
    exact .inl ⟨_, rfl, fun o ho => .inl ho⟩
  · obtain rfl := point_inj h
    exact .inl ⟨_, rfl, fun o ho => .inl ho⟩
  · exact .inr ⟨_, (point_inj h).symm⟩
  · cases h

/-- The invitation that a call of `acceptInvitation` has found. -/
def holding : OrganizationPc → Option ℕ
  | .accept _ (.findUser id _) => some id
  | .accept _ (.updateMembership accepting) | .accept _ (.insertMembership accepting)
  | .accept _ (.markAccepted accepting _) | .accept _ (.touchUser accepting _)
  | .accept _ (.findOrganization accepting _) | .accept _ (.commit accepting _) =>
    some accepting.invitationId
  | _ => none

/-- A query has found an invitation that is neither accepted nor revoked. -/
def Finds (reply : Reply OrganizationRow) (pc' : OrganizationPc) : Prop :=
  ∃ rows id invitation, reply = .rows rows ∧ holding pc' = some id ∧
    rows ⟨.invitation, id⟩ = some invitation ∧ invitation.acceptedAt = none ∧
    invitation.revokedAt = none

theorem accept_next {input : AcceptInvitation} {pc : AcceptPc}
    (h : acceptNext cfg site input pc reply = some (.ok pc')) :
    (∃ next, pc' = .accept input next ∧
      (holding pc' = holding (.accept input pc) ∨ pc = .findInvitation ∧ Finds reply pc')) ∨
      ∃ result, pc' = .returned result := by
  unfold acceptNext at h
  split at h
  · obtain ⟨found, hfound, he⟩ := Option.map_eq_some_iff.mp h
    split at he
    · cases he
    · next rows id invitation =>
      obtain rfl := Except.ok.inj he
      obtain ⟨-, hrow, hvalid⟩ := mem_findMany.mp (mem_of_pickFirst hfound)
      obtain ⟨-, haccepted, hrevoked, -⟩ := of_decide_eq_true hvalid
      exact .inl ⟨_, rfl, .inr ⟨rfl, _, id, invitation, rfl, rfl, hrow, haccepted, hrevoked⟩⟩
  · split_ifs at h
    · exact .inl ⟨_, (point_inj h).symm, .inl (by cases h; rfl)⟩
    · cases h
  · obtain rfl := point_inj h
    refine .inl ⟨_, rfl, .inl ?_⟩
    split_ifs <;> rfl
  · obtain rfl := point_inj h
    exact .inl ⟨_, rfl, .inl rfl⟩
  · obtain ⟨-, rfl⟩ := ok_of_required (some.inj h)
    exact .inl ⟨_, rfl, .inl rfl⟩
  · obtain ⟨-, rfl⟩ := ok_of_required (some.inj h)
    exact .inl ⟨_, rfl, .inl rfl⟩
  · split_ifs at h
    · obtain rfl := point_inj h
      exact .inl ⟨_, rfl, .inl rfl⟩
    · cases h
  · exact .inr ⟨_, (point_inj h).symm⟩
  · cases h

theorem lockedBy_next (hstmt : organizationStmt cfg pc = some stmt)
    (h : organizationNext cfg site pc reply = some (.ok pc')) :
    ∀ o ∈ lockedBy pc', o ∈ lockedBy pc ∨ stmt = .lock (ownersKey o) := by
  cases pc with
  | create input pc =>
    rcases create_next h with ⟨next, rfl⟩ | ⟨result, rfl⟩ <;> exact nofun
  | invite input pc =>
    rcases invite_next h with ⟨next, rfl⟩ | ⟨result, rfl⟩ <;> exact nofun
  | revoke input pc =>
    rcases revoke_next h with ⟨next, rfl⟩ | ⟨result, rfl⟩ <;> exact nofun
  | accept input pc =>
    rcases accept_next h with ⟨next, rfl, -⟩ | ⟨result, rfl⟩ <;> exact nofun
  | change input pc =>
    obtain rfl := some.inj hstmt
    rcases change_next h with ⟨next, rfl⟩ | ⟨result, rfl⟩
    · intro o ho
      have ho : o = input.organizationId := by
        cases next <;> first | exact List.mem_singleton.mp ho | cases ho
      subst ho
      cases pc with
      | lock => exact .inr rfl
      | _ => exact .inl List.mem_cons_self
    · exact nofun
  | remove input pc =>
    obtain rfl := some.inj hstmt
    rcases remove_next h with ⟨next, rfl⟩ | ⟨result, rfl⟩
    · intro o ho
      have ho : o = input.organizationId := by
        cases next <;> first | exact List.mem_singleton.mp ho | cases ho
      subst ho
      cases pc with
      | lock => exact .inr rfl
      | _ => exact .inl List.mem_cons_self
    · exact nofun
  | delete input pc =>
    obtain rfl := some.inj hstmt
    rcases delete_next h with ⟨next, rfl, hlocked⟩ | ⟨result, rfl⟩
    · exact hlocked
    · exact nofun
  | returned | thrown => cases hstmt

/-! ### The service follows its notes -/

inductive Commit : OrganizationPc → Prop
  | create {input : CreateOrganization} {roleId joinedAt : ℕ} :
      Commit (.create input (.commit roleId joinedAt))
  | change {input : ChangeMemberRole} : Commit (.change input .commit)
  | remove {input : RemoveMember} {deletedAt : ℕ} : Commit (.remove input (.commit deletedAt))
  | invite {input : CreateInvitation} {expiresAt : ℕ} : Commit (.invite input (.commit expiresAt))
  | accept {input : AcceptInvitation} {accepting : Accepting} {acceptedAt : ℕ} :
      Commit (.accept input (.commit accepting acceptedAt))
  | revoke {input : RevokeInvitation} {revokedAt : ℕ} : Commit (.revoke input (.commit revokedAt))
  | delete {input : DeleteAccount} {deletedAt : ℕ} {locked : List ℕ} :
      Commit (.delete input (.commit deletedAt locked))

theorem commit_of_stmt (h : organizationStmt cfg pc = some .commit) : Commit pc := by
  cases pc with
  | create input pc =>
    cases pc with
    | commit => exact .create
    | touchUser => exact absurd (some.inj h) Update.stmt_ne_commit
    | _ => cases h
  | change input pc =>
    cases pc with
    | commit => exact .change
    | update | touchUser => exact absurd (some.inj h) Update.stmt_ne_commit
    | _ => cases h
  | remove input pc =>
    cases pc with
    | commit => exact .remove
    | update | touchUser => exact absurd (some.inj h) Update.stmt_ne_commit
    | _ => cases h
  | invite input pc =>
    cases pc with
    | commit => exact .invite
    | _ => cases h
  | accept input pc =>
    cases pc with
    | commit => exact .accept
    | updateMembership | markAccepted | touchUser =>
      exact absurd (some.inj h) Update.stmt_ne_commit
    | _ => cases h
  | revoke input pc =>
    cases pc with
    | commit => exact .revoke
    | update => exact absurd (some.inj h) Update.stmt_ne_commit
  | delete input pc =>
    cases pc with
    | commit => exact .delete
    | updateUser | updateMemberships => exact absurd (some.inj h) Update.stmt_ne_commit
    | _ => cases h
  | returned | thrown => cases h

theorem returned_of_commit (hc : Commit pc)
    (h : organizationNext cfg site pc reply = some (.ok pc')) :
    ∃ result, pc' = .returned result := by
  cases hc <;> cases reply <;> cases h <;> exact ⟨_, rfl⟩

theorem lists : Lists (organizations cfg) (written cfg) locks where
  listed := cfg.listed
  start now request := by
    change written cfg (startPc cfg now request) = [] ∧ locks (startPc cfg now request) = []
    cases request with
    | createOrganization input =>
      unfold startPc
      split_ifs <;> exact ⟨rfl, rfl⟩
    | _ => exact ⟨rfl, rfl⟩
  leads site pc stmt reply pc' hstmt hnext := leads hstmt hnext
  held site pc stmt reply pc' hstmt hnext k hk := by
    obtain ⟨o, ho, rfl⟩ := List.mem_map.mp hk
    rcases lockedBy_next hstmt hnext o ho with ho | hlock
    · exact .inl (List.mem_map_of_mem ho)
    · exact .inr hlock
  commit site pc reply pc' hstmt hnext := by
    obtain ⟨result, rfl⟩ := returned_of_commit (commit_of_stmt hstmt) hnext
    exact ⟨rfl, rfl⟩
  outside _ _ _ _ _ hout := by cases hout
  thrown e := ⟨rfl, fun _ _ => rfl⟩

/-! ### What a commit does to a row -/

/-- What a commit does to the membership of a user in an organization. -/
inductive MembershipWrite (pc : OrganizationPc) (id : ℕ × ℕ) :
    Option Membership → Option Membership → Prop
  | same {membership : Option Membership} : MembershipWrite pc id membership membership
  | created {membership : Membership} : MembershipWrite pc id none (some membership)
  | changed {input : ChangeMemberRole} {membership : Membership} : pc = .change input .commit →
      id = (input.organizationId, input.userId) →
      MembershipWrite pc id (some membership) (some { membership with roleId := input.roleId })
  | removed {input : RemoveMember} {deletedAt : ℕ} {membership : Membership} :
      pc = .remove input (.commit deletedAt) → id = (input.organizationId, input.userId) →
      MembershipWrite pc id (some membership)
        (some { membership with deletedAt := some deletedAt, status := .suspended })
  | accepted {input : AcceptInvitation} {accepting : Accepting} {acceptedAt : ℕ}
      {membership : Membership} : pc = .accept input (.commit accepting acceptedAt) →
      id = (accepting.organizationId, accepting.userId) →
      MembershipWrite pc id (some membership) (some (accepting.membership.data membership))
  | suspended {input : DeleteAccount} {deletedAt : ℕ} {locked : List ℕ} {membership : Membership} :
      pc = .delete input (.commit deletedAt locked) → id.2 = input.userId →
      MembershipWrite pc id (some membership)
        (some { membership with status := .suspended, deletedAt := some deletedAt })

theorem commit_membership {id : ℕ × ℕ} {before after : Option Membership} (hc : Commit pc)
    (h : Entry.inTurn (written cfg pc) ⟨.membership, id⟩ before after) :
    MembershipWrite pc id before after := by
  cases hc with
  | create =>
    simp [written, createWrote] at h
    rcases new_cases h with ⟨-, rfl⟩ | ⟨-, rfl, rfl⟩
    · exact .same
    · exact .created
  | change =>
    simp [written, changeWrote] at h
    rcases Update.must_cases h with ⟨-, rfl⟩ | ⟨hid, membership, rfl, -, rfl⟩
    · exact .same
    · exact .changed rfl hid
  | remove =>
    simp [written, removeWrote] at h
    rcases Update.must_cases h with ⟨-, rfl⟩ | ⟨hid, membership, rfl, -, rfl⟩
    · exact .same
    · exact .removed rfl hid
  | accept =>
    simp [written, acceptWrote] at h
    rcases Upsert.put_cases h with ⟨-, rfl⟩ | ⟨-, rfl, rfl⟩ | ⟨hid, membership, rfl, rfl⟩
    · exact .same
    · exact .created
    · exact .accepted rfl hid
  | delete =>
    simp [written, deleteWrote] at h
    rcases Update.may_cases h with rfl | ⟨membership, rfl, hcond, rfl⟩
    · exact .same
    · exact .suspended rfl (of_decide_eq_true hcond).1
  | invite | revoke =>
    simp [written, inviteWrote, revokeWrote] at h
    exact h ▸ .same

/-- The invitation that a commit accepts. -/
def acceptsBy : OrganizationPc → Option ℕ
  | .accept _ (.commit accepting _) => some accepting.invitationId
  | _ => none

/-- The invitation that a commit revokes. -/
def revokesBy : OrganizationPc → Option ℕ
  | .revoke input (.commit _) => some input.invitationId
  | _ => none

theorem revokesBy_of_acceptsBy {id : ℕ} (h : acceptsBy pc = some id) : revokesBy pc = none := by
  unfold acceptsBy at h
  split at h
  · rfl
  · cases h

/-- What a commit does to an invitation. -/
inductive InvitationWrite (pc : OrganizationPc) (id : ℕ) :
    Option Invitation → Option Invitation → Prop
  | same {invitation : Option Invitation} : acceptsBy pc ≠ some id → revokesBy pc ≠ some id →
      InvitationWrite pc id invitation invitation
  | created {invitation : Invitation} : acceptsBy pc = none → revokesBy pc = none →
      invitation.acceptedAt = none → invitation.revokedAt = none →
      InvitationWrite pc id none (some invitation)
  | accepted {invitation : Invitation} {acceptedAt : ℕ} : acceptsBy pc = some id →
      revokesBy pc = none →
      InvitationWrite pc id (some invitation) (some { invitation with acceptedAt := some acceptedAt })
  | revoked {invitation : Invitation} {revokedAt : ℕ} : acceptsBy pc = none →
      revokesBy pc = some id → invitation.acceptedAt = none → invitation.revokedAt = none →
      InvitationWrite pc id (some invitation) (some { invitation with revokedAt := some revokedAt })

variable {before after : Option Invitation}

theorem commit_invitation {id : ℕ} (hc : Commit pc)
    (h : Entry.inTurn (written cfg pc) ⟨.invitation, id⟩ before after) :
    InvitationWrite pc id before after := by
  cases hc with
  | invite =>
    simp [written, inviteWrote] at h
    rcases new_cases h with ⟨-, rfl⟩ | ⟨-, rfl, rfl⟩
    · exact .same nofun nofun
    · exact .created rfl rfl rfl rfl
  | accept =>
    simp [written, acceptWrote] at h
    rcases Update.must_cases h with ⟨hne, rfl⟩ | ⟨rfl, invitation, rfl, -, rfl⟩
    · exact .same (fun he => hne (some.inj he).symm) nofun
    · exact .accepted rfl rfl
  | revoke =>
    simp [written, revokeWrote] at h
    rcases Update.must_cases h with ⟨hne, rfl⟩ | ⟨rfl, invitation, rfl, hcond, rfl⟩
    · exact .same nofun fun he => hne (some.inj he).symm
    · obtain ⟨-, -, haccepted, hrevoked, -⟩ := of_decide_eq_true hcond
      exact .revoked rfl rfl haccepted hrevoked
  | create | change | remove | delete =>
    simp [written, createWrote, changeWrote, removeWrote, deleteWrote] at h
    exact h ▸ .same nofun nofun

theorem InvitationWrite.of_accepts {id : ℕ} (h : InvitationWrite pc id before after)
    (hby : acceptsBy pc = some id) : ∃ invitation acceptedAt, before = some invitation ∧
      after = some { invitation with acceptedAt := some acceptedAt } := by
  cases h with
  | same hno _ => exact absurd hby hno
  | created hno | revoked hno =>
    rw [hno] at hby
    cases hby
  | accepted => exact ⟨_, _, rfl, rfl⟩

theorem InvitationWrite.of_revokes {id : ℕ} (h : InvitationWrite pc id before after)
    (hby : revokesBy pc = some id) :
    ∃ invitation revokedAt, before = some invitation ∧ invitation.acceptedAt = none ∧
      after = some { invitation with revokedAt := some revokedAt } := by
  cases h with
  | same _ hno => exact absurd hby hno
  | created _ hno | accepted _ hno =>
    rw [hno] at hby
    cases hby
  | revoked _ _ haccepted _ => exact ⟨_, _, rfl, haccepted, rfl⟩

structure Committed (cfg : OrganizationConfig) (pc : OrganizationPc) (rows rows' : OrganizationRows) :
    Prop where
  commit : Commit pc
  wrote : ∀ k, Entry.inTurn (written cfg pc) k (rows k) (rows' k)

section Committed

variable {rows rows' : OrganizationRows}

theorem Committed.membership (h : Committed cfg pc rows rows') (id : ℕ × ℕ) :
    MembershipWrite pc id (rows ⟨.membership, id⟩) (rows' ⟨.membership, id⟩) :=
  commit_membership h.commit (h.wrote ⟨.membership, id⟩)

theorem Committed.invitation (h : Committed cfg pc rows rows') (id : ℕ) :
    InvitationWrite pc id (rows ⟨.invitation, id⟩) (rows' ⟨.invitation, id⟩) :=
  commit_invitation h.commit (h.wrote ⟨.invitation, id⟩)

end Committed

theorem accepted_record (hc : Commit pc) (settled : Settled) :
    (settled.record pc).accepted = (acceptsBy pc).toList ++ settled.accepted := by
  cases hc <;> rfl

theorem revoked_record (hc : Commit pc) (settled : Settled) :
    (settled.record pc).revoked = (revokesBy pc).toList ++ settled.revoked := by
  cases hc <;> rfl

/-! ### An organization with two owners -/

def exampleOwner : Membership where
  roleId := 1

/-- Of the first owner, as a member. -/
def exampleInvitation : Invitation where
  organizationId := 0
  email := "user@example.com"
  roleId := 0
  tokenHash := hashOpaqueToken exampleRuntime exampleKeyring "token"
  expiresAt := 1000

def exampleRows : OrganizationRows
  | ⟨.organization, 0⟩ => some { slug := "organization" }
  | ⟨.user, 0⟩ => some { email := some "user@example.com", emailVerifiedAt := some 0 }
  | ⟨.user, 1⟩ => some { email := some "owner@example.com", emailVerifiedAt := some 0 }
  | ⟨.membership, (0, 0)⟩ | ⟨.membership, (0, 1)⟩ => some exampleOwner
  | ⟨.invitation, 0⟩ => some exampleInvitation
  | _ => none

def exampleConfig : OrganizationConfig where
  R := exampleRuntime
  K := exampleKeyring
  roles := ⟨[⟨0, none, "member", none⟩, ⟨1, none, "owner", none⟩], by decide⟩
  multi := true
  rows := exampleRows
  keys := [⟨.organization, 0⟩, ⟨.user, 0⟩, ⟨.user, 1⟩, ⟨.membership, (0, 0)⟩,
    ⟨.membership, (0, 1)⟩, ⟨.invitation, 0⟩]
  listed k hk := by
    unfold exampleRows at hk
    split at hk <;> simp at hk ⊢

def acceptInvitation : OrganizationLabel := .spawn (.acceptInvitation ⟨"token", 0⟩)

end BackendFoundation.Organizations.Log
