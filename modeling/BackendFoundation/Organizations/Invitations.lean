import BackendFoundation.Organizations.Log

/-! # Invitations are settled once

`revokeInvitation` updates an invitation that is neither accepted nor revoked. `acceptInvitation` looks
for one, writes the membership, and then sets `acceptedAt` by the id alone: by then another call may
have accepted or revoked the invitation. Then, and only then, an invitation is settled twice
(`AcceptsLate`).

Main result: `invitations_once`. -/

namespace BackendFoundation.Organizations.Invitations

open Lib.Runs Lib.Interleave Lib.Database Lib.Transact Lib.WriteLog Lib.Schema Lib.Services Lib.Logs
open Errors Crypto Organizations.Model Organizations.Log
open Option (some.inj)

/-- No invitation is both accepted and revoked. -/
def Apart (rows : OrganizationRows) : Prop :=
  ∀ (id : ℕ) (invitation : Invitation), rows ⟨.invitation, id⟩ = some invitation →
    invitation.acceptedAt = none ∨ invitation.revokedAt = none

/-- **Each invitation is accepted at most once**, and never both accepted and revoked. -/
structure Once (rows : OrganizationRows) (settled : Settled) : Prop where
  accepted : ∀ id, settled.accepted.count id ≤ 1
  disjoint : ∀ id ∈ settled.accepted, id ∉ settled.revoked
  apart : Apart rows

/-! ### What is remembered -/

/-- What is remembered is what the rows say. -/
structure Ledger (rows : OrganizationRows) (settled : Settled) : Prop where
  accepted : ∀ id ∈ settled.accepted, ∃ invitation : Invitation,
    rows ⟨.invitation, id⟩ = some invitation ∧ invitation.acceptedAt ≠ none
  revoked : ∀ id ∈ settled.revoked, ∃ invitation : Invitation,
    rows ⟨.invitation, id⟩ = some invitation ∧ invitation.revokedAt ≠ none

/-- An invitation that is accepted now, and was not when a call found it, is remembered. -/
def Remembered (rows : OrganizationRows) (settled : Settled) (pc : OrganizationPc) : Prop :=
  ∀ id, holding pc = some id → ∀ invitation : Invitation,
    rows ⟨.invitation, id⟩ = some invitation → invitation.acceptedAt ≠ none → id ∈ settled.accepted

variable {cfg : OrganizationConfig} {rows rows' : OrganizationRows} {settled : Settled}
  {pc pc' : OrganizationPc} {id : ℕ} {site : Site OrganizationKey} {reply : Reply OrganizationRow}

theorem mem_accepted_record (hc : Commit pc) :
    id ∈ (settled.record pc).accepted ↔ acceptsBy pc = some id ∨ id ∈ settled.accepted := by
  rw [accepted_record hc, List.mem_append, Option.mem_toList]

theorem mem_revoked_record (hc : Commit pc) :
    id ∈ (settled.record pc).revoked ↔ revokesBy pc = some id ∨ id ∈ settled.revoked := by
  rw [revoked_record hc, List.mem_append, Option.mem_toList]

theorem Ledger.commit (h : Ledger rows settled) (hc : Committed cfg pc rows rows') :
    Ledger rows' (settled.record pc) := by
  refine ⟨fun id hid => ?_, fun id hid => ?_⟩
  · have hw := hc.invitation id
    rcases (mem_accepted_record hc.commit).mp hid with hby | hold
    · obtain ⟨invitation, acceptedAt, -, hafter⟩ := hw.of_accepts hby
      exact ⟨_, hafter, nofun⟩
    · obtain ⟨invitation, hfound, haccepted⟩ := h.accepted id hold
      rw [hfound] at hw
      generalize hafter : rows' ⟨.invitation, id⟩ = after at hw
      cases hw with
      | same => exact ⟨invitation, rfl, haccepted⟩
      | accepted => exact ⟨_, rfl, nofun⟩
      | revoked => exact ⟨_, rfl, haccepted⟩
  · have hw := hc.invitation id
    rcases (mem_revoked_record hc.commit).mp hid with hby | hold
    · obtain ⟨invitation, revokedAt, -, -, hafter⟩ := hw.of_revokes hby
      exact ⟨_, hafter, nofun⟩
    · obtain ⟨invitation, hfound, hrevoked⟩ := h.revoked id hold
      rw [hfound] at hw
      generalize hafter : rows' ⟨.invitation, id⟩ = after at hw
      cases hw with
      | same => exact ⟨invitation, rfl, hrevoked⟩
      | accepted => exact ⟨_, rfl, hrevoked⟩
      | revoked => exact ⟨_, rfl, nofun⟩

theorem Remembered.commit {pcj : OrganizationPc} (h : Remembered rows settled pcj)
    (hc : Committed cfg pc rows rows') : Remembered rows' (settled.record pc) pcj := by
  intro id hholding invitation' hfound' haccepted'
  rw [mem_accepted_record hc.commit]
  have hw := hc.invitation id
  rw [hfound'] at hw
  generalize hbefore : rows ⟨.invitation, id⟩ = before at hw
  generalize hafter : some invitation' = after at hw
  cases hw with
  | same =>
    subst hafter
    exact .inr (h id hholding invitation' hbefore haccepted')
  | accepted hby => exact .inl hby
  | created _ _ hnone =>
    obtain rfl := some.inj hafter
    exact absurd hnone haccepted'
  | revoked _ _ hnone =>
    obtain rfl := some.inj hafter
    exact absurd hnone haccepted'

theorem holding_next (h : organizationNext cfg site pc reply = some (.ok pc')) :
    holding pc' = none ∨ holding pc' = holding pc ∨
      (∃ input, pc = .accept input .findInvitation) ∧ Finds reply pc' := by
  cases pc with
  | create input pc =>
    rcases create_next h with ⟨next, rfl⟩ | ⟨result, rfl⟩ <;> exact .inl rfl
  | change input pc =>
    rcases change_next h with ⟨next, rfl⟩ | ⟨result, rfl⟩ <;> exact .inl rfl
  | remove input pc =>
    rcases remove_next h with ⟨next, rfl⟩ | ⟨result, rfl⟩ <;> exact .inl rfl
  | invite input pc =>
    rcases invite_next h with ⟨next, rfl⟩ | ⟨result, rfl⟩ <;> exact .inl rfl
  | revoke input pc =>
    rcases revoke_next h with ⟨next, rfl⟩ | ⟨result, rfl⟩ <;> exact .inl rfl
  | delete input pc =>
    rcases delete_next h with ⟨next, rfl, -⟩ | ⟨result, rfl⟩ <;> exact .inl rfl
  | accept input pc =>
    rcases accept_next h with ⟨next, rfl, hkept | ⟨rfl, hfinds⟩⟩ | ⟨result, rfl⟩
    · exact .inr (.inl hkept)
    · exact .inr (.inr ⟨⟨input, rfl⟩, hfinds⟩)
    · exact .inl rfl
  | returned | thrown => cases h

def claims : Claims OrganizationRow OrganizationPc Settled where
  shared v := Ledger v.rows v.memory
  call _ _ call v := Remembered v.rows v.memory call.pc

theorem remembered_of_none (h : holding pc = none) : Remembered rows settled pc := by
  intro id hid
  rw [h] at hid
  cases hid

theorem invariant : Invariant (organizations cfg) (notesOf (written cfg) locks)
    (fun _ _ _ _ => True) claims where
  init := ⟨nofun, nofun⟩
  tick v ms := ⟨fun h => h, fun i b call h => h⟩
  abort i call v h := h
  event _ e := e.elim
  start i b v request _ _ := by
    refine remembered_of_none ?_
    change holding (startPc cfg v.now request) = none
    cases request with
    | createOrganization input =>
      unfold startPc
      split_ifs <;> rfl
    | _ => rfl
  thrown _ _ _ _ _ := remembered_of_none rfl
  running s i call c cond data db tx hat _ _ _ _ := hat.call
  replied s i call c stmt db tx reply pc hat _ hstmt _ hs hlive hnext := by
    rcases holding_next hnext with hnone | hkept | ⟨⟨input, hpc⟩, hfinds⟩
    · exact remembered_of_none hnone
    · intro id hid
      exact hat.call id (hkept ▸ hid)
    · obtain ⟨rows, id, invitation, rfl, hholding, hfound, haccepted, -⟩ := hfinds
      have hread : stmt = .read := by
        rw [hpc] at hstmt
        exact (some.inj hstmt).symm
      subst hread
      have hrows : rows = s.db.rows := hat.found hlive hstmt (fun k before after hw => by
        rw [hpc] at hw
        exact Entry.inTurn_nil.mp hw) hs
      subst hrows
      intro id' hid' invitation' hfound' haccepted'
      obtain rfl := some.inj (hholding.symm.trans hid')
      obtain rfl := some.inj (hfound.symm.trans hfound')
      exact absurd haccepted haccepted'
  outside _ _ _ _ _ _ _ _ _ hout := by cases hout
  commit s i call c rows hat _ hstmt _ _ hwrote := by
    have hc : Committed cfg call.pc s.db.rows rows := ⟨commit_of_stmt hstmt, hwrote⟩
    refine ⟨Ledger.commit hat.shared hc, fun pc hnext => ?_, fun j callj _ _ h => h.commit hc⟩
    obtain ⟨result, rfl⟩ := returned_of_commit hc.commit hnext
    exact remembered_of_none rfl

/-! ### One commit -/

/-- The commit of an acceptance finds the invitation accepted or revoked. -/
def AcceptsSettled (rows : OrganizationRows) (pc : OrganizationPc) : Prop :=
  ∃ id invitation, acceptsBy pc = some id ∧ rows ⟨.invitation, id⟩ = some invitation ∧
    (invitation.acceptedAt ≠ none ∨ invitation.revokedAt ≠ none)

theorem holding_of_acceptsBy (h : acceptsBy pc = some id) : holding pc = some id := by
  unfold acceptsBy at h
  split at h
  · exact h
  · cases h

/-- **A commit settles no invitation again** exactly if it accepts none that is settled. -/
theorem once_commit (hledger : Ledger rows settled) (honce : Once rows settled)
    (hremembered : Remembered rows settled pc) (hc : Committed cfg pc rows rows') :
    Once rows' (settled.record pc) ↔ ¬ AcceptsSettled rows pc := by
  constructor
  · rintro honce' ⟨id, invitation, hby, hfound, haccepted | hrevoked⟩
    · have hmem := hremembered id (holding_of_acceptsBy hby) invitation hfound haccepted
      have hcount := honce'.accepted id
      rw [accepted_record hc.commit, hby] at hcount
      simp only [Option.toList_some, List.singleton_append, List.count_cons_self] at hcount
      have hpos := List.count_pos_iff.mpr hmem
      omega
    · obtain ⟨found, acceptedAt, hbefore, hafter⟩ := (hc.invitation id).of_accepts hby
      obtain rfl := some.inj (hfound.symm.trans hbefore)
      rcases honce'.apart id _ hafter with hnone | hnone
      · cases hnone
      · exact hrevoked hnone
  · intro hno
    have hopen {id : ℕ} (hby : acceptsBy pc = some id) :
        id ∉ settled.accepted ∧ id ∉ settled.revoked := by
      refine ⟨fun hmem => ?_, fun hmem => ?_⟩
      · obtain ⟨invitation, hfound, haccepted⟩ := hledger.accepted id hmem
        exact hno ⟨id, invitation, hby, hfound, .inl haccepted⟩
      · obtain ⟨invitation, hfound, hrevoked⟩ := hledger.revoked id hmem
        exact hno ⟨id, invitation, hby, hfound, .inr hrevoked⟩
    refine ⟨fun id => ?_, fun id haccepted hrevoked => ?_, fun id invitation hfound => ?_⟩
    · rw [accepted_record hc.commit]
      cases hby : acceptsBy pc with
      | none => exact honce.accepted id
      | some id' =>
        simp only [Option.toList_some, List.singleton_append]
        by_cases hid : id' = id
        · subst hid
          rw [List.count_cons_self, List.count_eq_zero_of_not_mem (hopen hby).1]
        · rw [List.count_cons_of_ne hid]
          exact honce.accepted id
    · rcases (mem_accepted_record hc.commit).mp haccepted with hby | haccepted
      · rcases (mem_revoked_record hc.commit).mp hrevoked with hby' | hrevoked
        · rw [revokesBy_of_acceptsBy hby] at hby'
          cases hby'
        · exact (hopen hby).2 hrevoked
      · rcases (mem_revoked_record hc.commit).mp hrevoked with hby' | hrevoked
        · -- the guard of the revocation
          obtain ⟨invitation, -, hbefore, hnone, -⟩ := (hc.invitation id).of_revokes hby'
          obtain ⟨found, hfound, hsome⟩ := hledger.accepted id haccepted
          obtain rfl := some.inj (hbefore.symm.trans hfound)
          exact hsome hnone
        · exact honce.disjoint id haccepted hrevoked
    · have hw := hc.invitation id
      rw [hfound] at hw
      generalize hbefore : rows ⟨.invitation, id⟩ = before at hw
      generalize hafter : some invitation = after at hw
      cases hw with
      | same =>
        subst hafter
        exact honce.apart id invitation hbefore
      | created _ _ haccepted =>
        obtain rfl := some.inj hafter
        exact .inl haccepted
      | @accepted found acceptedAt hby =>
        obtain rfl := some.inj hafter
        by_contra hboth
        exact hno ⟨id, found, hby, hbefore, .inr fun hnone => hboth (.inr hnone)⟩
      | revoked _ _ haccepted =>
        obtain rfl := some.inj hafter
        exact .inl haccepted

/-! ### The main result -/

/-- The step of `AcceptsSettled`. -/
def AcceptsLate (w : OrganizationWorld) : OrganizationLabel → Prop
  | .step i c => commits w.shared.db i .commit c.fate = true ∧
    ∃ call, w.proc? i = some call ∧ AcceptsSettled w.shared.db.rows call.pc
  | _ => False

theorem quiet : (organizations cfg).Quiet := ⟨fun _ _ _ => rfl, fun _ e => e.elim⟩

variable {w w' : OrganizationWorld} {l : OrganizationLabel}

theorem acceptsLate_iff :
    AcceptsLate w l ↔ CommitsAt (fun s call => AcceptsSettled s.db.rows call.pc) w l := by
  cases l <;> exact Iff.rfl

theorem once_of_commits {i : ℕ} {c : Choice Thrown} {call : Caller OrganizationRow OrganizationPc}
    (h : Reachable (organizations cfg).program.system w)
    (honce : Once w.shared.db.rows w.shared.memory)
    (hn : (organizations cfg).program.next w (.step i c) = some w')
    (hcommits : (organizations cfg).Commits (notesOf (written cfg) locks) w w' i c call) :
    Once w'.shared.db.rows w'.shared.memory ↔ ¬ AcceptsSettled w.shared.db.rows call.pc := by
  obtain ⟨hledger, hcalls⟩ := invariant.holds lists.follows (h.mono fun _ _ _ => stepsMeet_true)
  rw [hcommits.memory hn]
  exact once_commit hledger honce (hcalls i call hcommits.proc)
    ⟨commit_of_stmt hcommits.stmt, hcommits.wrote⟩

theorem commit_of_acceptsBy {pc : OrganizationPc} {id : ℕ} (h : acceptsBy pc = some id) :
    organizationStmt cfg pc = some .commit := by
  unfold acceptsBy at h
  split at h
  · rfl
  · cases h

/-- **Each step settles no invitation again** exactly if it accepts none that is settled. -/
theorem once_step (h : Reachable (organizations cfg).program.system w)
    (honce : Once w.shared.db.rows w.shared.memory)
    (hn : (organizations cfg).program.next w l = some w') :
    Once w'.shared.db.rows w'.shared.memory ↔ ¬ AcceptsLate w l := by
  rw [acceptsLate_iff]
  refine lists.follows.kept_iff (Q := fun w => Once w.shared.db.rows w.shared.memory) _ h hn
    (fun call hcall => ?_) ?_ fun i c call he hcommits => ?_
  · obtain ⟨id, invitation, hby, -⟩ := hcall
    exact commit_of_acceptsBy hby
  · rcases lists.follows.shared_of_next quiet h hn with
      ⟨hrows, hmemory⟩ | ⟨i, c, call, he, hcommits, -⟩
    · rw [hrows, hmemory]
      exact .inl honce
    · exact .inr ⟨i, c, call, he, hcommits⟩
  · subst he
    exact once_of_commits h honce hn hcommits

/-- **An invitation is accepted at most once, and never after it was revoked**, in every run in which
each acceptance that commits finds its invitation neither accepted nor revoked. -/
theorem invitations_once (cfg : OrganizationConfig) (hapart : Apart cfg.rows) :
    (∀ w w' l, Reachable (organizations cfg).program.system w →
      Once w.shared.db.rows w.shared.memory →
      (organizations cfg).program.next w l = some w' →
      (Once w'.shared.db.rows w'.shared.memory ↔ ¬ AcceptsLate w l)) ∧
    ∀ w, ReachableBy (organizations cfg).program.system (fun w l => ¬ AcceptsLate w l) w →
      Once w.shared.db.rows w.shared.memory := by
  refine ⟨fun w w' l h honce hn => once_step h honce hn, fun w h => ?_⟩
  refine h.invariant' (I := fun w => Once w.shared.db.rows w.shared.memory) ?_ ?_
  · rintro w rfl
    exact ⟨fun id => Nat.zero_le 1, nofun, hapart⟩
  · exact fun w w' l h honce hno hn => (once_step h.reachable honce hn).mpr hno

/-! ### Runs -/

theorem example_apart : Apart exampleConfig.rows := by
  intro id invitation hfound
  cases id with
  | zero =>
    obtain rfl := some.inj hfound
    exact .inl rfl
  | succ id => cases hfound

def revokeInvitation : OrganizationLabel := .spawn (.revokeInvitation ⟨0, 0⟩)

def accepted : OrganizationPc := .returned (.organization 0)

def revoked : OrganizationPc := .returned .void

def refused : OrganizationPc := .thrown (.app (notFound "Invitation not found"))

/-- An acceptance that commits finds its invitation neither accepted nor revoked. -/
def acceptsOpen (s : Store OrganizationRow Settled) (_ : ℕ)
    (call : Caller OrganizationRow OrganizationPc) (_ : Choice Thrown) : Bool :=
  match acceptsBy call.pc with
  | some id => (s.db.rows ⟨.invitation, id⟩).all fun invitation =>
      invitation.acceptedAt = none ∧ invitation.revokedAt = none
  | none => true

theorem not_acceptsLate_of_acceptsOpen {w : OrganizationWorld} {l : OrganizationLabel}
    (h : StepsMeet (fun s i call c => acceptsOpen s i call c = true) w l) : ¬ AcceptsLate w l := by
  cases l with
  | step i c =>
    rintro ⟨-, call, hp, id, invitation, hby, hfound, hsettled⟩
    have hopen : acceptsOpen w.shared i call c = true := h call hp
    unfold acceptsOpen at hopen
    rw [hby] at hopen
    simp only [hfound, Option.all_some, decide_eq_true_eq] at hopen
    exact hsettled.elim (fun hne => hne hopen.1) fun hne => hne hopen.2
  | _ => exact id

/-- An invitation is accepted, and can then not be revoked. -/
theorem invitations_once_accepted : ∃ w : OrganizationWorld,
    Stands w 0 accepted ∧ Stands w 1 refused ∧
      Once w.shared.db.rows w.shared.memory := by
  obtain ⟨w, hw, haccepted, hrefused⟩ := (organizations exampleConfig).program.exists_reached
    (StepsMeet fun s i call c => acceptsOpen s i call c = true)
    ([acceptInvitation] ++ steps 0 13 ++ [revokeInvitation] ++ steps 1 2)
    (fun w => Stands w 0 accepted ∧ Stands w 1 refused) (by decide)
  exact ⟨w, haccepted, hrefused, (invitations_once exampleConfig example_apart).2 w
    (hw.mono fun _ _ => not_acceptsLate_of_acceptsOpen)⟩

/-- **An invitation that is revoked and accepted.** It is revoked after the acceptance has found it; both
calls return. -/
theorem accepted_after_revoked : ∃ w : OrganizationWorld,
    Reachable (organizations exampleConfig).program.system w ∧ Stands w 0 accepted ∧
      Stands w 1 revoked ∧ ¬ Once w.shared.db.rows w.shared.memory := by
  obtain ⟨w, hw, haccepted, hrevoked, hmemory⟩ := (organizations exampleConfig).program.exists_reached
    anyStep ([acceptInvitation] ++ steps 0 1 ++ [revokeInvitation] ++ steps 1 4 ++ steps 0 12)
    (fun w => Stands w 0 accepted ∧ Stands w 1 revoked ∧
      w.shared.memory = ⟨[0], [0]⟩) (by decide)
  refine ⟨w, hw, haccepted, hrevoked, fun honce => ?_⟩
  rw [hmemory] at honce
  exact honce.disjoint 0 List.mem_cons_self List.mem_cons_self

end BackendFoundation.Organizations.Invitations
