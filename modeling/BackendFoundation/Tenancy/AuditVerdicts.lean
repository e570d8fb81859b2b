import BackendFoundation.Audit.Evidence
import BackendFoundation.Tenancy.Backfill

/-! # Audit verdicts across the backfill

The backfill signs every audit row without an organization again, whatever its signature was. A row
that is signed again verifies, so the verdicts are kept exactly if every such row verified before
(`verdicts_kept_iff`). -/

namespace BackendFoundation.Tenancy.AuditVerdicts

open Lib.Json Lib.UuidText Audit.Integrity Audit.Evidence Tenancy.Backfill

variable (H : Hmac) (cfg : AuditConfig)

/-- The verdict of the audit verification. -/
def verdict (event : AuditRecord) : Bool := verifyAuditEvent H cfg event cfg.auditIntegritySecret

/-- Row by row, a row verifies if and only if it did before. -/
def VerdictsKept (before after : List AuditRecord) : Prop :=
  List.Forall₂ (fun old new => verdict H cfg new = true ↔ verdict H cfg old = true) before after

variable {H cfg}

variable {event : AuditRecord}

theorem verdict_signed
    (h : event.integrityHash = some (signAuditEvent H cfg event cfg.auditIntegritySecret)) :
    verdict H cfg event = true :=
  (verifyAuditEvent_iff h (H.digest_ne _ _)).mpr rfl

theorem verdict_resign_of_none {organizationId : Uuid} (hnone : event.organizationId = none) :
    verdict H cfg (resign H cfg organizationId event) = true := by
  rw [resign, if_pos hnone]
  exact verdict_signed rfl

theorem resign_of_some {organizationId : Uuid} (hsome : event.organizationId ≠ none) :
    resign H cfg organizationId event = event :=
  if_neg hsome

theorem verdict_resign_iff (organizationId : Uuid) (event : AuditRecord) :
    (verdict H cfg (resign H cfg organizationId event) = true ↔ verdict H cfg event = true) ↔
      (event.organizationId = none → verdict H cfg event = true) := by
  by_cases hnone : event.organizationId = none
  · rw [verdict_resign_of_none hnone]
    simp [hnone]
  · rw [resign_of_some hnone]
    simp [hnone]

/-- **Verdicts across the backfill**: they are kept if and only if every row that is signed again
verified before. -/
theorem verdicts_kept_iff {mode : TenancyMode} {args : Arguments} {newId : Uuid}
    {db db' : Database} (happly : args.apply = true)
    (h : backfill H cfg mode args newId db = .ok db') :
    VerdictsKept H cfg db.auditEvents db'.auditEvents ↔
      ∀ event ∈ db.auditEvents, event.organizationId = none → verdict H cfg event = true := by
  have hevents : ∃ organizationId,
      db'.auditEvents = db.auditEvents.map (resign H cfg organizationId) := by
    rcases backfill_ok h with ⟨hdry, -⟩ | ⟨-, organization, dbO, role, htarget, -, hassign⟩
    · rw [happly] at hdry
      cases hdry
    · obtain ⟨bandwidth, conversations, -, -, rfl⟩ := assign_ok hassign
      have hsame : dbO.auditEvents = db.auditEvents := by
        rw [targetOrganization_ok htarget]
      exact ⟨organization.id, congrArg _ hsame⟩
  obtain ⟨organizationId, hevents⟩ := hevents
  rw [hevents, VerdictsKept, List.forall₂_map_right_iff, List.forall₂_same]
  exact forall₂_congr fun event _ => verdict_resign_iff organizationId event

/-! ### A row altered after its signing -/

def exampleOrganization : Organization :=
  ⟨⟨"00000000-0000-0000-0000-000000000000".toList, by decide⟩, "default", "Default"⟩

def exampleDatabase (events : List AuditRecord) : Database where
  organizations := [exampleOrganization]
  roles := [⟨exampleOrganization.id, "member", none, false⟩]
  auditEvents := events

theorem backfill_example (events : List AuditRecord) :
    backfill exampleHmac exampleAuditConfig .disabled { apply := true } exampleOrganization.id
      (exampleDatabase events) =
    .ok (exampleDatabase
      (events.map (resign exampleHmac exampleAuditConfig exampleOrganization.id))) := rfl

def altered : List (JsString × JsNumber) := [(utf16 "role", .ofInt 1)]

/-- A row whose metadata were emptied after it was signed. -/
def alteredRow : AuditRow :=
  exampleRow [] 2 (signAuditEvent exampleHmac exampleAuditConfig
    (exampleRow altered 2 [] (by simp [altered, isJson_ofInt])).record "") (by simp)

theorem alteredRow_invalid : verdict exampleHmac exampleAuditConfig alteredRow.record = false := by
  refine Bool.eq_false_iff.mpr fun hverdict => ?_
  have hsign := (verifyAuditEvent_iff rfl (exampleHmac.digest_ne _ _)).mp hverdict
  have halike := alike_of_payload_eq (b := alteredRow) rfl
    (exampleHmac_collisionFree "" _ _ hsign)
  have hmetadata := halike.metadata
  simp [alteredRow, exampleRow, exampleRecord, altered, sortKeys, sortEntryValues_eq,
    sortValues] at hmetadata

theorem verdicts_kept_of_signed :
    let unsigned := exampleRecord (.object []) 2 []
    let event := { unsigned with
      integrityHash := some (signAuditEvent exampleHmac exampleAuditConfig unsigned "") }
    VerdictsKept exampleHmac exampleAuditConfig [event]
      [resign exampleHmac exampleAuditConfig exampleOrganization.id event] := by
  intro unsigned event
  refine (verdicts_kept_iff rfl (backfill_example [event])).mpr fun row hrow _ => ?_
  rw [exampleDatabase, List.mem_singleton] at hrow
  rw [hrow]
  exact verdict_signed rfl

/-- The altered row does not verify, and the backfill makes it a row that does. -/
theorem altered_row_verifies_after :
    verdict exampleHmac exampleAuditConfig alteredRow.record = false ∧
    (backfill exampleHmac exampleAuditConfig .disabled { apply := true } exampleOrganization.id
      (exampleDatabase [alteredRow.record])).map
        (·.auditEvents.map (verdict exampleHmac exampleAuditConfig)) = .ok [true] := by
  refine ⟨alteredRow_invalid, ?_⟩
  rw [backfill_example]
  exact congrArg (fun verified => Except.ok [verified]) (verdict_resign_of_none rfl)

end BackendFoundation.Tenancy.AuditVerdicts
