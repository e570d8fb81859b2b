import BackendFoundation.Organizations.Log

/-! # The owners of an organization

`changeMemberRole`, `removeMember` and `deleteAccount` take the advisory lock of the owners of an
organization, count them, and keep one besides the user whose membership they change.
`acceptInvitation` gives a member the role of the invitation without the lock and without a count, and
`deleteAccount` suspends each membership of the user, also in an organization that the user has come to
own after the query (`UnseatsAt`). An organization keeps an active owner in every run without such
commits.

Main result: `owner_kept`. -/

namespace BackendFoundation.Organizations.Owners

open Lib.Runs Lib.Interleave Lib.Database Lib.Transact Lib.WriteLog Lib.Schema Lib.Services Lib.Logs
open Lib.Rows Errors Crypto Organizations.Model Organizations.Log
open Option (some.inj)

/-- An active membership that is not deleted, with a role named owner. -/
def Owner (roles : Roles) (membership : Membership) : Prop :=
  membership.status = .active ∧ membership.deletedAt = none ∧
    ownerRole roles membership.roleId = true

instance (roles : Roles) : DecidablePred (Owner roles) := fun _ =>
  inferInstanceAs (Decidable (_ ∧ _ ∧ _))

/-- The user is an active owner of the organization. -/
def OwnerOf (roles : Roles) (rows : OrganizationRows) (organizationId userId : ℕ) : Prop :=
  ∃ membership : Membership, rows ⟨.membership, (organizationId, userId)⟩ = some membership ∧
    Owner roles membership

/-- **The organization has an active owner.** -/
def HasOwner (roles : Roles) (rows : OrganizationRows) (organizationId : ℕ) : Prop :=
  ∃ userId, OwnerOf roles rows organizationId userId

/-- An active owner besides this user. -/
def OtherOwner (roles : Roles) (rows : OrganizationRows) (organizationId userId : ℕ) : Prop :=
  ∃ other, other ≠ userId ∧ OwnerOf roles rows organizationId other

/-- The commit takes an active owner of the organization away without a count: by an invitation to
another role, or with an account whose ownership has not been counted. -/
def UnseatsAt (roles : Roles) (organizationId : ℕ) (rows : OrganizationRows) (pc : OrganizationPc) :
    Prop :=
  ∃ userId, OwnerOf roles rows organizationId userId ∧
    ((∃ input accepting acceptedAt, pc = .accept input (.commit accepting acceptedAt) ∧
      accepting.organizationId = organizationId ∧ accepting.userId = userId ∧
      ownerRole roles accepting.roleId = false) ∨
    ∃ input deletedAt locked, pc = .delete input (.commit deletedAt locked) ∧
      input.userId = userId ∧ organizationId ∉ locked)

/-! ### What a call relies on -/

/-- The organizations whose owners a call of `deleteAccount` has counted. -/
def counted : DeletePc → List ℕ
  | .confirm | .findOwnerMemberships _ => []
  | .lockOwners _ locked _ _ | .countOwners _ locked _ _ | .updateUser _ locked
  | .updateMemberships _ locked | .commit _ locked => locked

/-- The user besides whom there has to be an owner, from the count of a call on. -/
def relies (roles : Roles) (organizationId : ℕ) : OrganizationPc → Option ℕ
  | .change _ (.lock) | .change _ .findRole | .change _ (.findTarget _) | .change _ .countOwners => none
  | .change input _ =>
    if input.organizationId = organizationId ∧ ownerRole roles input.roleId = false then
      some input.userId
    else none
  | .remove _ .lock | .remove _ .findTarget | .remove _ .countOwners => none
  | .remove input _ => if input.organizationId = organizationId then some input.userId else none
  | .delete input pc => if organizationId ∈ counted pc then some input.userId else none
  | _ => none

structure Safe (roles : Roles) (organizationId : ℕ) (rows : OrganizationRows) (pc : OrganizationPc) :
    Prop where
  other : ∀ userId, relies roles organizationId pc = some userId →
    OtherOwner roles rows organizationId userId
  role : ∀ input newRole, pc = .change input (.findTarget newRole) → newRole.name = "owner" →
    ownerRole roles input.roleId = true

variable {cfg : OrganizationConfig} {roles : Roles} {rows rows' : OrganizationRows}
  {pc pc' pcj : OrganizationPc} {organizationId userId : ℕ} {site : Site OrganizationKey}
  {reply : Reply OrganizationRow}

theorem counted_subset {pc : DeletePc} (h : organizationId ∈ counted pc) :
    organizationId ∈ DeletePc.locked pc := by
  cases pc with
  | countOwners => exact List.mem_cons_of_mem _ h
  | _ => exact h

theorem lockedBy_of_relies (h : relies roles organizationId pc = some userId) :
    organizationId ∈ lockedBy pc := by
  cases pc with
  | change input pc =>
    cases pc with
    | lock | findRole | findTarget | countOwners => cases h
    | update | touchUser | findChanged | commit =>
      simp only [relies] at h
      split_ifs at h with hid
      exact hid.1 ▸ List.mem_cons_self
  | remove input pc =>
    cases pc with
    | lock | findTarget | countOwners => cases h
    | update | touchUser | commit =>
      simp only [relies] at h
      split_ifs at h with hid
      exact hid ▸ List.mem_cons_self
  | delete input pc =>
    simp only [relies] at h
    split_ifs at h with hcounted
    exact counted_subset hcounted
  | create | invite | accept | revoke | returned | thrown => cases h

/-! ### What a commit keeps -/

/-- **An owner stays** unless the commit has counted another one, or unseats. -/
theorem OwnerOf.commit (h : OwnerOf roles rows organizationId userId)
    (hc : Committed cfg pc rows rows') (hno : ¬ UnseatsAt roles organizationId rows pc) :
    OwnerOf roles rows' organizationId userId ∨ relies roles organizationId pc = some userId := by
  obtain ⟨membership, hfound, howner⟩ := h
  have hw := hc.membership (organizationId, userId)
  rw [hfound] at hw
  generalize hbefore : some membership = before at hw
  generalize hafter : rows' ⟨.membership, (organizationId, userId)⟩ = after at hw
  cases hw with
  | same =>
    subst hbefore
    exact .inl ⟨membership, hafter, howner⟩
  | created => cases hbefore
  | @changed input found hpc hid =>
    obtain rfl := some.inj hbefore
    obtain ⟨rfl, rfl⟩ := Prod.mk.inj hid
    cases hrole : ownerRole roles input.roleId with
    | true => exact .inl ⟨_, hafter, howner.1, howner.2.1, hrole⟩
    | false =>
      subst hpc
      exact .inr (if_pos ⟨rfl, hrole⟩)
  | @removed input deletedAt found hpc hid =>
    obtain ⟨rfl, rfl⟩ := Prod.mk.inj hid
    subst hpc
    exact .inr (if_pos rfl)
  | @accepted input accepting acceptedAt found hpc hid =>
    obtain rfl := some.inj hbefore
    obtain ⟨rfl, rfl⟩ := Prod.mk.inj hid
    cases hrole : ownerRole roles accepting.roleId with
    | true => exact .inl ⟨_, hafter, rfl, rfl, hrole⟩
    | false =>
      refine absurd ?_ hno
      exact ⟨_, ⟨membership, hfound, howner⟩, .inl ⟨_, _, _, hpc, rfl, rfl, hrole⟩⟩
  | @suspended input deletedAt locked found hpc hid =>
    have hid : userId = input.userId := hid
    subst hid
    by_cases hlocked : organizationId ∈ locked
    · subst hpc
      exact .inr (if_pos hlocked)
    · refine absurd ?_ hno
      exact ⟨_, ⟨membership, hfound, howner⟩, .inr ⟨_, _, _, hpc, rfl, hlocked⟩⟩

theorem HasOwner.commit (h : HasOwner roles rows organizationId)
    (hsafe : Safe roles organizationId rows pc) (hc : Committed cfg pc rows rows')
    (hno : ¬ UnseatsAt roles organizationId rows pc) : HasOwner roles rows' organizationId := by
  obtain ⟨userId, howner⟩ := h
  rcases howner.commit hc hno with hkept | hrelies
  · exact ⟨userId, hkept⟩
  · obtain ⟨other, hne, hother⟩ := hsafe.other userId hrelies
    rcases hother.commit hc hno with hkept | hrelies'
    · exact ⟨other, hkept⟩
    · exact absurd (some.inj (hrelies'.symm.trans hrelies)) hne

theorem Safe.commit (h : Safe roles organizationId rows pcj) (hc : Committed cfg pc rows rows')
    (hno : ¬ UnseatsAt roles organizationId rows pc)
    (hlock : organizationId ∈ lockedBy pcj → organizationId ∉ lockedBy pc) :
    Safe roles organizationId rows' pcj := by
  refine ⟨fun userId hrelies => ?_, h.role⟩
  obtain ⟨other, hne, howner⟩ := h.other userId hrelies
  rcases howner.commit hc hno with hkept | hrelies'
  · exact ⟨other, hne, hkept⟩
  · exact absurd (lockedBy_of_relies hrelies') (hlock (lockedBy_of_relies hrelies))

/-! ### What a call has counted -/

theorem Roles.role_of_mem {role : Role} (h : role ∈ roles.rows) : roles.role role.id = some role := by
  have hnodup : (roles.rows.map Role.id).Nodup := List.pairwise_map.mpr roles.ids
  unfold Roles.role
  cases hfind : roles.rows.find? (·.id = role.id) with
  | none => exact absurd (decide_eq_true rfl) (List.find?_eq_none.mp hfind role h)
  | some found =>
    have hid : found.id = role.id := of_decide_eq_true (List.find?_some hfind :)
    rw [List.inj_on_of_nodup_map hnodup (List.mem_of_find?_eq_some hfind) h hid]

theorem ownerRole_of_assignable {roleId : ℕ} {role : Role}
    (h : assertAssignableRole roles roleId organizationId = .ok role) (hname : role.name = "owner") :
    ownerRole roles roleId = true := by
  unfold assertAssignableRole at h
  split at h
  · next found hfind =>
    obtain rfl := Except.ok.inj h
    have hcond := List.find?_some hfind
    obtain ⟨hid, -⟩ := of_decide_eq_true hcond
    unfold ownerRole
    rw [← hid, Roles.role_of_mem (List.mem_of_find?_eq_some hfind)]
    exact decide_eq_true hname
  · cases h

theorem owner_of_activeOwner {membership : Membership} (h : activeOwner roles membership = true) :
    Owner roles membership := by
  obtain ⟨hactive, hlive, hrole⟩ := of_decide_eq_true h
  refine ⟨hactive, of_decide_eq_true hlive, ?_⟩
  obtain ⟨role, hfound, hname⟩ := (Option.any_eq_true _ _).mp hrole
  unfold ownerRole
  rw [hfound]
  exact decide_eq_true (of_decide_eq_true hname).1

theorem otherOwner_of_count {keys : List OrganizationKey}
    (h : 2 ≤ countActiveOwners roles rows keys organizationId) :
    OtherOwner roles rows organizationId userId := by
  obtain ⟨⟨organizationId', other⟩, membership, hne, hmem⟩ :=
    exists_other_of_findMany h ((organizationId, userId) : ℕ × ℕ)
  obtain ⟨-, hfound, hcond⟩ := mem_findMany.mp hmem
  obtain ⟨hid, howner⟩ := of_decide_eq_true hcond
  have hid : organizationId' = organizationId := hid
  subst hid
  exact ⟨other, fun he => hne (by rw [he]), membership, hfound, owner_of_activeOwner howner⟩

theorem otherOwner_of_not (h : HasOwner roles rows organizationId)
    (hno : ∀ target, findMembership rows organizationId userId = some target →
      ¬ (target.status = .active ∧ ownerRole roles target.roleId = true)) :
    OtherOwner roles rows organizationId userId := by
  obtain ⟨other, membership, hfound, hactive, hlive, hrole⟩ := h
  refine ⟨other, ?_, membership, hfound, hactive, hlive, hrole⟩
  rintro rfl
  refine hno membership ?_ ⟨hactive, hrole⟩
  have hkept : membership.live = true := decide_eq_true hlive
  unfold findMembership
  rw [hfound, Option.filter_some_pos hkept]

theorem Safe.next (h : Safe roles organizationId rows pc)
    (hrelies : ∀ userId, relies roles organizationId pc' = some userId →
      relies roles organizationId pc = some userId)
    (hrole : ∀ input newRole, pc' ≠ .change input (.findTarget newRole)) :
    Safe roles organizationId rows pc' :=
  ⟨fun userId hr => h.other userId (hrelies userId hr), fun input newRole he =>
    absurd he (hrole input newRole)⟩

theorem safe_of_none (hrelies : relies roles organizationId pc = none)
    (hrole : ∀ input newRole, pc ≠ .change input (.findTarget newRole)) :
    Safe roles organizationId rows pc := by
  refine ⟨fun userId hr => ?_, fun input newRole he => absurd he (hrole input newRole)⟩
  rw [hrelies] at hr
  cases hr

theorem change_safe {input : ChangeMemberRole} {pc : ChangePc}
    (hnext : changeNext cfg.roles site input pc reply = some (.ok pc'))
    (h : Safe cfg.roles organizationId rows (.change input pc))
    (hhas : HasOwner cfg.roles rows organizationId)
    (hreads : ∀ found, changeStmt input pc = .read → changeWrote input pc = [] →
      reply = .rows found → found = rows) : Safe cfg.roles organizationId rows pc' := by
  unfold changeNext at hnext
  split at hnext
  · obtain rfl := point_inj hnext
    exact safe_of_none rfl nofun
  · obtain ⟨role, hrole, rfl⟩ := ok_of_map (some.inj hnext)
    refine ⟨nofun, fun input' newRole he hname => ?_⟩
    cases he
    exact ownerRole_of_assignable hrole hname
  · next newRole found =>
    obtain rfl := hreads found rfl rfl rfl
    have hnext := some.inj hnext
    split at hnext
    · cases hnext
    · next target htarget =>
      split_ifs at hnext with hcond
      · obtain rfl := Except.ok.inj hnext
        exact safe_of_none rfl nofun
      · obtain rfl := Except.ok.inj hnext
        refine ⟨fun userId hr => ?_, nofun⟩
        simp only [relies] at hr
        split_ifs at hr with hid
        obtain ⟨rfl, hrole⟩ := hid
        obtain rfl := some.inj hr
        refine otherOwner_of_not hhas fun target' htarget' hboth => ?_
        obtain rfl := some.inj (htarget.symm.trans htarget')
        refine hcond ⟨hboth.1, hboth.2, fun hname => ?_⟩
        rw [h.role input newRole rfl hname] at hrole
        cases hrole
  · next found =>
    obtain rfl := hreads found rfl rfl rfl
    split_ifs at hnext with hcount
    · cases hnext
    · obtain rfl := point_inj hnext
      refine ⟨fun userId hr => ?_, nofun⟩
      simp only [relies] at hr
      split_ifs at hr with hid
      obtain ⟨rfl, -⟩ := hid
      have htwo : 2 ≤ countActiveOwners cfg.roles found site.keys input.organizationId := by omega
      exact otherOwner_of_count htwo
  · split_ifs at hnext
    · cases hnext
    · obtain rfl := point_inj hnext
      exact h.next (fun _ hr => hr) nofun
  · obtain ⟨-, rfl⟩ := ok_of_required (some.inj hnext)
    exact h.next (fun _ hr => hr) nofun
  · split_ifs at hnext
    · cases hnext
    · obtain rfl := point_inj hnext
      exact h.next (fun _ hr => hr) nofun
  · obtain rfl := point_inj hnext
    exact safe_of_none rfl nofun
  · cases hnext

theorem remove_safe {input : RemoveMember} {pc : RemovePc}
    (hnext : removeNext cfg.roles site input pc reply = some (.ok pc'))
    (h : Safe cfg.roles organizationId rows (.remove input pc))
    (hhas : HasOwner cfg.roles rows organizationId)
    (hreads : ∀ found, removeStmt input pc = .read → removeWrote input pc = [] →
      reply = .rows found → found = rows) : Safe cfg.roles organizationId rows pc' := by
  unfold removeNext at hnext
  split at hnext
  · obtain rfl := point_inj hnext
    exact safe_of_none rfl nofun
  · next found =>
    obtain rfl := hreads found rfl rfl rfl
    have hnext := some.inj hnext
    split at hnext
    · cases hnext
    · next target htarget =>
      split_ifs at hnext with hcond
      · obtain rfl := Except.ok.inj hnext
        exact safe_of_none rfl nofun
      · obtain rfl := Except.ok.inj hnext
        refine ⟨fun userId hr => ?_, nofun⟩
        simp only [relies] at hr
        split_ifs at hr with hid
        subst hid
        obtain rfl := some.inj hr
        refine otherOwner_of_not hhas fun target' htarget' hboth => ?_
        obtain rfl := some.inj (htarget.symm.trans htarget')
        exact hcond hboth
  · next found =>
    obtain rfl := hreads found rfl rfl rfl
    split_ifs at hnext with hcount
    · cases hnext
    · obtain rfl := point_inj hnext
      refine ⟨fun userId hr => ?_, nofun⟩
      simp only [relies] at hr
      split_ifs at hr with hid
      subst hid
      have htwo : 2 ≤ countActiveOwners cfg.roles found site.keys input.organizationId := by omega
      exact otherOwner_of_count htwo
  · obtain ⟨-, rfl⟩ := ok_of_required (some.inj hnext)
    exact h.next (fun _ hr => hr) nofun
  · obtain ⟨-, rfl⟩ := ok_of_required (some.inj hnext)
    exact h.next (fun _ hr => hr) nofun
  · obtain rfl := point_inj hnext
    exact safe_of_none rfl nofun
  · cases hnext

theorem counted_lockNext {deletedAt : ℕ} {locked rest : List ℕ} :
    counted (.lockNext deletedAt locked rest) = locked := by
  cases rest <;> rfl

/-- A call of `deleteAccount` relies on another owner wherever it has counted. -/
theorem delete_relies {input : DeleteAccount} {pc : DeletePc}
    (h : relies roles organizationId (.delete input pc) = some userId) :
    organizationId ∈ counted pc ∧ userId = input.userId := by
  simp only [relies] at h
  split_ifs at h with hcounted
  exact ⟨hcounted, (some.inj h).symm⟩

theorem delete_safe {input : DeleteAccount} {pc : DeletePc}
    (hnext : deleteNext cfg.roles site input pc reply = some (.ok pc'))
    (h : Safe cfg.roles organizationId rows (.delete input pc))
    (hreads : ∀ found, deleteStmt input pc = .read → deleteWrote input pc = [] →
      reply = .rows found → found = rows) : Safe cfg.roles organizationId rows pc' := by
  unfold deleteNext at hnext
  split at hnext
  · obtain rfl := point_inj hnext
    split_ifs
    · exact safe_of_none rfl nofun
    · exact safe_of_none rfl nofun
  · obtain rfl := point_inj hnext
    refine ⟨fun userId hr => ?_, nofun⟩
    have hcounted := (delete_relies hr).1
    rw [counted_lockNext] at hcounted
    cases hcounted
  · obtain rfl := point_inj hnext
    exact h.next (fun _ hr => hr) nofun
  · next deletedAt locked organizationId' rest found =>
    obtain rfl := hreads found rfl rfl rfl
    split_ifs at hnext with hcount
    · cases hnext
    · obtain rfl := point_inj hnext
      refine ⟨fun userId hr => ?_, nofun⟩
      obtain ⟨hcounted, rfl⟩ := delete_relies hr
      rw [counted_lockNext] at hcounted
      rcases List.mem_cons.mp hcounted with rfl | hold
      · have htwo : 2 ≤ countActiveOwners cfg.roles found site.keys organizationId := by omega
        exact otherOwner_of_count htwo
      · exact h.other input.userId (if_pos hold)
  · obtain ⟨-, rfl⟩ := ok_of_required (some.inj hnext)
    exact h.next (fun _ hr => hr) nofun
  · obtain rfl := point_inj hnext
    exact h.next (fun _ hr => hr) nofun
  · obtain rfl := point_inj hnext
    exact safe_of_none rfl nofun
  · cases hnext

/-- **A reply keeps a call safe**, if a query that comes before the writes finds the committed rows. -/
theorem safe_next {stmt : OrganizationStmt} (hstmt : organizationStmt cfg pc = some stmt)
    (hnext : organizationNext cfg site pc reply = some (.ok pc'))
    (h : Safe cfg.roles organizationId rows pc) (hhas : HasOwner cfg.roles rows organizationId)
    (hreads : ∀ found, stmt = .read → written cfg pc = [] → reply = .rows found → found = rows) :
    Safe cfg.roles organizationId rows pc' := by
  cases pc with
  | create input pc =>
    rcases create_next hnext with ⟨next, rfl⟩ | ⟨result, rfl⟩ <;>
      exact safe_of_none rfl nofun
  | invite input pc =>
    rcases invite_next hnext with ⟨next, rfl⟩ | ⟨result, rfl⟩ <;>
      exact safe_of_none rfl nofun
  | accept input pc =>
    rcases accept_next hnext with ⟨next, rfl, -⟩ | ⟨result, rfl⟩ <;>
      exact safe_of_none rfl nofun
  | revoke input pc =>
    rcases revoke_next hnext with ⟨next, rfl⟩ | ⟨result, rfl⟩ <;>
      exact safe_of_none rfl nofun
  | change input pc =>
    obtain rfl := some.inj hstmt
    exact change_safe hnext h hhas hreads
  | remove input pc =>
    obtain rfl := some.inj hstmt
    exact remove_safe hnext h hhas hreads
  | delete input pc =>
    obtain rfl := some.inj hstmt
    exact delete_safe hnext h hreads
  | returned | thrown => cases hnext

/-! ### The invariant -/

/-- No call unseats an owner of the organization. -/
def keepsOwners (roles : Roles) (organizationId : ℕ) (s : Store OrganizationRow Settled) (i : ℕ)
    (call : Caller OrganizationRow OrganizationPc) (c : Choice Thrown) : Prop :=
  commits s.db i .commit c.fate = true → ¬ UnseatsAt roles organizationId s.db.rows call.pc

def claims (roles : Roles) (organizationId : ℕ) : Claims OrganizationRow OrganizationPc Settled where
  shared v := HasOwner roles v.rows organizationId
  call _ aborted call v := aborted = false → Safe roles organizationId v.rows call.pc

theorem invariant (h : HasOwner cfg.roles cfg.rows organizationId) :
    Invariant (organizations cfg) (notesOf (written cfg) locks)
      (keepsOwners cfg.roles organizationId) (claims cfg.roles organizationId) where
  init := h
  tick v ms := ⟨fun h => h, fun i b call h => h⟩
  abort i call v _ := nofun
  event _ e := e.elim
  start i b v request _ _ _ := by
    change Safe _ _ _ (startPc cfg v.now request)
    cases request with
    | createOrganization input =>
      unfold startPc
      split_ifs <;> exact safe_of_none rfl nofun
    | _ => exact safe_of_none rfl nofun
  thrown _ _ _ _ _ _ := safe_of_none rfl nofun
  running s i call c cond data db tx hat _ _ _ hlive _ := hat.call hlive
  replied s i call c stmt db tx reply pc hat _ hstmt _ hs hlive hnext _ := by
    refine safe_next hstmt hnext (hat.call hlive) hat.shared fun found hread hnone hreply => ?_
    subst hread hreply
    refine hat.found hlive hstmt (fun k before after hw => ?_) hs
    change Entry.inTurn (written cfg call.pc) k before after at hw
    rw [hnone] at hw
    exact Entry.inTurn_nil.mp hw
  outside _ _ _ _ _ _ _ _ _ hout := by cases hout
  commit s i call c rows hat hmeets hstmt hexecuted _ hwrote := by
    have hlive := (thrown_of_commits hexecuted).2
    have hc : Committed cfg call.pc s.db.rows rows := ⟨commit_of_stmt hstmt, hwrote⟩
    have hno := hmeets hexecuted
    refine ⟨HasOwner.commit hat.shared (hat.call hlive) hc hno, fun pc hnext _ => ?_,
      fun j callj hj hok h hlivej => ?_⟩
    · obtain ⟨result, rfl⟩ := returned_of_commit hc.commit hnext
      exact safe_of_none rfl nofun
    · rcases hok.point with ⟨e, he⟩ | hpoint
      · rw [he]
        exact safe_of_none rfl nofun
      · refine (h hlivej).commit hc hno fun hlockj hlock => ?_
        exact hat.point.excludes hat.tx hpoint hok.tx hj hlive hlivej
          (List.mem_map_of_mem hlock) (List.mem_map_of_mem hlockj)

/-! ### The main result -/

/-- The step of `UnseatsAt`. -/
def Unseats (roles : Roles) (organizationId : ℕ) (w : OrganizationWorld) : OrganizationLabel → Prop
  | .step i c => commits w.shared.db i .commit c.fate = true ∧
    ∃ call, w.proc? i = some call ∧ UnseatsAt roles organizationId w.shared.db.rows call.pc
  | _ => False

theorem keepsOwners_of_not_unseats {w : OrganizationWorld} {l : OrganizationLabel}
    (h : ¬ Unseats roles organizationId w l) :
    StepsMeet (keepsOwners roles organizationId) w l := by
  cases l with
  | step i c => exact fun call hp hexecuted hunseats => h ⟨hexecuted, call, hp, hunseats⟩
  | _ => trivial

/-- **An organization keeps an active owner**, in every run in which no invitation to another role is
accepted by an active owner, and no account is deleted with an ownership that has not been counted. -/
theorem owner_kept (cfg : OrganizationConfig) (organizationId : ℕ)
    (howner : HasOwner cfg.roles cfg.rows organizationId) (w : OrganizationWorld)
    (h : ReachableBy (organizations cfg).program.system
      (fun w l => ¬ Unseats cfg.roles organizationId w l) w) :
    HasOwner cfg.roles w.shared.db.rows organizationId :=
  ((invariant howner).holds lists.follows (h.mono fun _ _ => keepsOwners_of_not_unseats)).1

/-! ### Runs -/

theorem example_hasOwner : HasOwner exampleConfig.roles exampleConfig.rows 0 :=
  ⟨0, exampleOwner, rfl, by decide⟩

def removeMember (userId : ℕ) : OrganizationLabel := .spawn (.removeMember ⟨0, userId⟩)

/-- The commit takes no active owner away without a count. -/
def countsOwners (roles : Roles) (organizationId : ℕ) (s : Store OrganizationRow Settled) (_ : ℕ)
    (call : Caller OrganizationRow OrganizationPc) (_ : Choice Thrown) : Bool :=
  match call.pc with
  | .accept _ (.commit accepting _) => ownerRole roles accepting.roleId ∨
    (s.db.rows ⟨.membership, (organizationId, accepting.userId)⟩).all fun membership =>
      ¬ Owner roles membership
  | .delete input (.commit _ locked) => organizationId ∈ locked ∨
    (s.db.rows ⟨.membership, (organizationId, input.userId)⟩).all fun membership =>
      ¬ Owner roles membership
  | _ => true

theorem not_unseats_of_countsOwners {w : OrganizationWorld} {l : OrganizationLabel}
    (h : StepsMeet (fun s i call c => countsOwners roles organizationId s i call c = true) w l) :
    ¬ Unseats roles organizationId w l := by
  cases l with
  | step i c =>
    rintro ⟨-, call, hp, userId, ⟨membership, hfound, howner⟩, hcause⟩
    have hcounts : countsOwners roles organizationId w.shared i call c = true := h call hp
    unfold countsOwners at hcounts
    rcases hcause with ⟨input, accepting, acceptedAt, hpc, -, rfl, hrole⟩ |
      ⟨input, deletedAt, locked, hpc, rfl, hlocked⟩
    · rw [hpc] at hcounts
      simp only [hrole, hfound] at hcounts
      simp [howner] at hcounts
    · rw [hpc] at hcounts
      simp only [hlocked, hfound] at hcounts
      simp [howner] at hcounts
  | _ => exact id

def ownerRefused : OrganizationPc := .thrown ownerConflict

/-- An owner is removed and accepts an invitation to be a member, and the last owner stays. -/
theorem owner_kept_removed : ∃ w : OrganizationWorld, Stands w 0 (.returned .void) ∧
    Stands w 1 (.returned (.organization 0)) ∧ Stands w 2 ownerRefused ∧
    HasOwner exampleConfig.roles w.shared.db.rows 0 := by
  obtain ⟨w, hw, hremoved, haccepted, hrefused⟩ :=
    (organizations exampleConfig).program.exists_reached
      (StepsMeet fun s i call c => countsOwners exampleConfig.roles 0 s i call c = true)
      ([removeMember 0] ++ steps 0 10 ++ [acceptInvitation] ++ steps 1 13 ++ [removeMember 1] ++
        steps 2 3)
      (fun w => Stands w 0 (.returned .void) ∧ Stands w 1 (.returned (.organization 0)) ∧
        Stands w 2 ownerRefused) (by decide)
  exact ⟨w, hremoved, haccepted, hrefused, owner_kept exampleConfig 0 example_hasOwner w
    (hw.mono fun _ _ => not_unseats_of_countsOwners)⟩

theorem not_hasOwner {keys : List OrganizationKey} (hlisted : ∀ k, rows k ≠ none → k ∈ keys)
    (h : findMany rows keys .membership (fun id membership =>
      id.1 = organizationId ∧ Owner roles membership) = []) : ¬ HasOwner roles rows organizationId := by
  rintro ⟨userId, membership, hfound, howner⟩
  refine List.not_mem_nil (a := (((organizationId, userId) : ℕ × ℕ), membership)) ?_
  rw [← h, mem_findMany]
  refine ⟨hlisted _ ?_, hfound, decide_eq_true ⟨rfl, howner⟩⟩
  rw [hfound]
  exact Option.some_ne_none _

/-- **No owner is left.** One of two owners is removed, and the other one accepts an invitation to be
a member. -/
theorem no_owner_left : HasOwner exampleConfig.roles exampleConfig.rows 0 ∧ ∃ w : OrganizationWorld,
    Reachable (organizations exampleConfig).program.system w ∧ Stands w 0 (.returned .void) ∧
      Stands w 1 (.returned (.organization 0)) ∧
        ¬ HasOwner exampleConfig.roles w.shared.db.rows 0 := by
  obtain ⟨w, hw, hremoved, haccepted, hnone⟩ := (organizations exampleConfig).program.exists_reached
    anyStep ([removeMember 1] ++ steps 0 10 ++ [acceptInvitation] ++ steps 1 13)
    (fun w => Stands w 0 (.returned .void) ∧ Stands w 1 (.returned (.organization 0)) ∧
      findMany w.shared.db.rows w.shared.db.keys .membership (fun id membership =>
        id.1 = 0 ∧ Owner exampleConfig.roles membership) = []) (by decide)
  exact ⟨example_hasOwner, w, hw, hremoved, haccepted,
    not_hasOwner ((lists.follows.outline anyStep).holds hw).shared hnone⟩

end BackendFoundation.Organizations.Owners
