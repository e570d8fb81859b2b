import BackendFoundation.Lib.UuidText
import Mathlib.Data.Char
import Mathlib.Data.List.Lex
import Mathlib.Data.List.Perm.Basic

/-! # Keys of direct conversations

`directConversationKey` of `chat.service.ts`, a text made of the owner and the sorted texts of the
participants. On canonical texts the key determines the owner and the participants, up to their
order (`directConversationKey_inj`). -/

namespace BackendFoundation.Chat.DirectKeys

open Lib.UuidText

inductive ConversationType
  | direct | group | support
deriving DecidableEq

/-- `organizationId ?? 'global'`. -/
def ownerText : Option Uuid → Text
  | some organizationId => organizationId.text
  | none => "global".toList

/-- The participants, as `Array.prototype.sort` leaves them. -/
def sortTexts (texts : List Text) : List Text := texts.insertionSort (· ≤ ·)

def directConversationKey (participantIds : List Text) (organizationId : Option Uuid) : Text :=
  ownerText organizationId ++ ':' :: [':'].intercalate (sortTexts participantIds)

theorem not_mem_ownerText (organizationId : Option Uuid) : ':' ∉ ownerText organizationId := by
  cases organizationId with
  | none => decide
  | some organizationId => exact organizationId.not_mem_text (by decide) (by decide)

theorem ownerText_injective : Function.Injective ownerText := by
  intro a b h
  have hlength := congrArg List.length h
  rcases a with _ | a <;> rcases b with _ | b
  · rfl
  · exact absurd (hlength.trans b.length_text) (by decide)
  · exact absurd (hlength.symm.trans a.length_text) (by decide)
  · exact congrArg some (Uuid.text_injective h)

theorem splitOn_directConversationKey {texts : List Text} (organizationId : Option Uuid)
    (hne : texts ≠ []) (hcolon : ∀ text ∈ texts, ':' ∉ text) :
    (directConversationKey texts organizationId).splitOn ':' =
      ownerText organizationId :: sortTexts texts := by
  have hperm : (sortTexts texts).Perm texts := List.perm_insertionSort _ _
  rw [directConversationKey,
    List.splitOn_append_cons_self_of_not_mem (not_mem_ownerText organizationId),
    List.splitOn_intercalate ':' (fun text ht => hcolon text (hperm.mem_iff.mp ht))]
  intro hnil
  exact hne (List.nil_perm.mp (hnil ▸ hperm))

theorem sortTexts_congr {a b : List Text} (h : a.Perm b) : sortTexts a = sortTexts b := by
  have hperm : (sortTexts a).Perm (sortTexts b) :=
    (List.perm_insertionSort _ _).trans (h.trans (List.perm_insertionSort _ _).symm)
  exact hperm.eq_of_pairwise' (List.pairwise_insertionSort _ _) (List.pairwise_insertionSort _ _)

theorem directConversationKey_congr {a b : List Text} (h : a.Perm b)
    (organizationId : Option Uuid) :
    directConversationKey a organizationId = directConversationKey b organizationId := by
  rw [directConversationKey, directConversationKey, sortTexts_congr h]

theorem perm_of_directConversationKey_eq {as bs : List Text} {a b : Option Uuid} (has : as ≠ [])
    (hbs : bs ≠ []) (hcolon : ∀ text ∈ as, ':' ∉ text) (hcolon' : ∀ text ∈ bs, ':' ∉ text)
    (h : directConversationKey as a = directConversationKey bs b) : a = b ∧ as.Perm bs := by
  have hsplit := congrArg (List.splitOn ':') h
  rw [splitOn_directConversationKey a has hcolon, splitOn_directConversationKey b hbs hcolon']
    at hsplit
  obtain ⟨howner, hsorted⟩ := List.cons.inj hsplit
  have hleft : (sortTexts as).Perm as := List.perm_insertionSort _ _
  have hright : (sortTexts bs).Perm bs := List.perm_insertionSort _ _
  rw [hsorted] at hleft
  exact ⟨ownerText_injective howner, hleft.symm.trans hright⟩

/-- **On canonical texts a key determines the owner and the participants.** -/
theorem directConversationKey_inj {us vs : List Uuid} {a b : Option Uuid} (hus : us ≠ [])
    (hvs : vs ≠ [])
    (h : directConversationKey (us.map Uuid.text) a = directConversationKey (vs.map Uuid.text) b) :
    a = b ∧ us.Perm vs := by
  have hcolon : ∀ ids : List Uuid, ∀ text ∈ ids.map Uuid.text, ':' ∉ text := by
    intro ids text htext
    obtain ⟨id, -, rfl⟩ := List.mem_map.mp htext
    exact id.not_mem_text (by decide) (by decide)
  obtain ⟨howner, hperm⟩ := perm_of_directConversationKey_eq (by simpa using hus)
    (by simpa using hvs) (hcolon us) (hcolon vs) h
  exact ⟨howner, (List.map_perm_map_iff Uuid.text_injective).mp hperm⟩

end BackendFoundation.Chat.DirectKeys
