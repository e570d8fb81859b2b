import BackendFoundation.Errors
import Mathlib.Data.List.Basic

/-! # Billing owners

`resolveBillingOwner` and its companions of `stripe.shared.ts`: which entity a payment is billed to,
the key under which its operations are kept apart, and the metadata that its Stripe objects carry.

The ids of users and organizations are UUIDs. All that matters of their form is that they have no
colon, so that a key followed by a colon and another text determines both
(`billingOwnerKey_append_inj`). -/

namespace BackendFoundation.Stripe.Owner

open Errors

/-- The id of a user or an organization. -/
structure OwnerId where
  text : String
  noColon : ':' ∉ text.toList
deriving DecidableEq

theorem exampleUser_noColon : ':' ∉ "u1".toList := by decide

/-- `BILLING_OWNER`. -/
inductive BillingOwnerMode
  | user | organization
deriving DecidableEq

inductive BillingOwner
  | user (userId : OwnerId)
  | organization (organizationId userId : OwnerId)
deriving DecidableEq

def BillingOwner.userId : BillingOwner → OwnerId
  | .user userId | .organization _ userId => userId

/-- `organizationId` is that of the request context. -/
def resolveBillingOwner (mode : BillingOwnerMode) (organizationId : Option OwnerId)
    (userId : OwnerId) : Except Thrown BillingOwner :=
  match mode, organizationId with
  | .user, _ => .ok (.user userId)
  | .organization, some organizationId => .ok (.organization organizationId userId)
  | .organization, none =>
    .error (.app (conflict
      "An active organization is required while BILLING_OWNER=organization"))

def billingOwnerKey : BillingOwner → String
  | .organization organizationId _ => "organization:" ++ organizationId.text
  | .user userId => "user:" ++ userId.text

/-- The ownership entries of the metadata of a Stripe object. -/
structure BillingMetadata where
  userId : Option String := none
  actorUserId : Option String := none
  organizationId : Option String := none
deriving DecidableEq

def billingOwnerMetadata (owner : BillingOwner) : BillingMetadata where
  userId := some owner.userId.text
  actorUserId := some owner.userId.text
  organizationId :=
    match owner with
    | .organization organizationId _ => some organizationId.text
    | .user _ => none

/-- The kind of an owner and its id, the two parts of its key. -/
def BillingOwner.parts : BillingOwner → String × OwnerId
  | .organization organizationId _ => ("organization", organizationId)
  | .user userId => ("user", userId)

theorem billingOwnerKey_toList (owner : BillingOwner) : (billingOwnerKey owner).toList =
    owner.parts.1.toList ++ ':' :: owner.parts.2.text.toList := by
  cases owner <;> simp [billingOwnerKey, BillingOwner.parts]

theorem BillingOwner.kind_noColon (owner : BillingOwner) : ':' ∉ owner.parts.1.toList := by
  cases owner with
  | user userId => exact (by decide : ':' ∉ "user".toList)
  | organization organizationId userId => exact (by decide : ':' ∉ "organization".toList)

theorem append_colon_inj {a b x y : List Char} (ha : ':' ∉ a) (hb : ':' ∉ b)
    (h : a ++ ':' :: x = b ++ ':' :: y) : a = b ∧ x = y := by
  induction a generalizing b with
  | nil =>
    cases b with
    | nil => exact ⟨rfl, List.tail_eq_of_cons_eq h⟩
    | cons c b =>
      rw [List.nil_append, List.cons_append, List.cons.injEq] at h
      exact absurd (List.mem_cons.mpr (.inl h.1)) hb
  | cons c a ih =>
    cases b with
    | nil =>
      rw [List.nil_append, List.cons_append, List.cons.injEq] at h
      exact absurd (List.mem_cons.mpr (.inl h.1.symm)) ha
    | cons d b =>
      rw [List.cons_append, List.cons_append, List.cons.injEq] at h
      obtain ⟨rfl, h⟩ := h
      obtain ⟨rfl, rfl⟩ := ih (fun hc => ha (List.mem_cons_of_mem _ hc))
        (fun hc => hb (List.mem_cons_of_mem _ hc)) h
      exact ⟨rfl, rfl⟩

/-- **Owner keys are kept apart**: a key, a colon and a text determine the key and the text. -/
theorem billingOwnerKey_append_inj {a b : BillingOwner} {x y : String}
    (h : billingOwnerKey a ++ ":" ++ x = billingOwnerKey b ++ ":" ++ y) :
    billingOwnerKey a = billingOwnerKey b ∧ x = y := by
  have hlist := congrArg String.toList h
  simp only [String.toList_append, billingOwnerKey_toList, List.append_assoc, List.cons_append]
    at hlist
  obtain ⟨hkind, hlist⟩ := append_colon_inj a.kind_noColon b.kind_noColon hlist
  obtain ⟨hid, hrest⟩ := append_colon_inj a.parts.2.noColon b.parts.2.noColon hlist
  refine ⟨String.toList_injective ?_, String.toList_injective hrest⟩
  rw [billingOwnerKey_toList, billingOwnerKey_toList, hkind, hid]

end BackendFoundation.Stripe.Owner
