import BackendFoundation.Stripe.WebhookModel
import Mathlib.Data.List.Induction
import Mathlib.Data.List.Perm.Basic

/-! # What events do to one saved card

Each event does one of five things to the row of a card: it saves the card, detaches it, refreshes
what is displayed of it, reconciles the default flag with Stripe's customer, or nothing. A row is
`Live` or it is the row of a detached card, which stays as it is until the card is saved again.

`Sound` is the condition under which all orders of the actions of a card leave the row that agrees
with Stripe (`settled_iff`). -/

namespace BackendFoundation.Stripe.CardActions

open Lib Stripe.Objects Stripe.WebhookModel

inductive CardAction
  | save (attribution : StripeAttribution)
  | detach
  | refresh
  | reconcile (attribution : StripeAttribution) (isDefault : Bool)
  | nothing
deriving DecidableEq

def Live (row : PaymentMethod) : Prop := row.detachedAt = none ∧ row.deletedAt = none

/-- A row is live, or that of a detached card, which is not the default. -/
def WellFormed (row : PaymentMethod) : Prop :=
  Live row ∨ (row.detachedAt ≠ none ∧ row.deletedAt ≠ none ∧ row.isDefault = false)

instance : DecidablePred Live := fun _ => inferInstanceAs (Decidable (_ ∧ _))

def refreshed (details : CardDetails) (row : PaymentMethod) : PaymentMethod :=
  { row with
    brand := details.brand
    last4 := details.last4
    expMonth := details.expMonth
    expYear := details.expYear }

def detached (now : ℤ) (row : PaymentMethod) : PaymentMethod :=
  { row with detachedAt := some now, deletedAt := some now, isDefault := false }

def flagged (isDefault : Bool) (row : PaymentMethod) : PaymentMethod := { row with isDefault }

/-- The row after an action; `details` is the card as Stripe has it. -/
def act (details : CardDetails) (now : ℤ) (r : Option PaymentMethod) :
    CardAction → Option PaymentMethod
  | .save attribution => some (attachedRow attribution details r)
  | .detach => r.map fun row => if Live row then detached now row else row
  | .refresh => r.map fun row => if row.deletedAt = none then refreshed details row else row
  | .reconcile attribution isDefault =>
    (r.map fun row =>
        if OwnedBy attribution row ∧ row.isDefault = true ∧ row.deletedAt = none then
          flagged false row
        else row).map fun row =>
      if isDefault = true ∧ OwnedBy attribution row ∧ Live row then flagged true row else row
  | .nothing => r

/-- The row after actions, each at its time. -/
def after (details : CardDetails) (r : Option PaymentMethod) (l : List (ℤ × CardAction)) :
    Option PaymentMethod :=
  l.foldl (fun r run => act details run.1 r run.2) r

/-- The row without the dates of its detachment. -/
def undated (row : PaymentMethod) : PaymentMethod :=
  { row with
    detachedAt := row.detachedAt.map fun _ => 0
    deletedAt := row.deletedAt.map fun _ => 0 }

/-- The default flag of the card; a card without a row has none. -/
def flag (r : Option PaymentMethod) : Bool := (r.map (·.isDefault)).getD false

/-- The row agrees with Stripe: that of a detached card is detached and not the default, and the flag
is set exactly on the default. -/
def Settled (attached : Prop) (isDefault : Bool) (r : Option PaymentMethod) : Prop :=
  ∀ row ∈ r, (¬ attached → row.detachedAt ≠ none ∧ row.isDefault = false) ∧
    row.isDefault = isDefault

variable {details : CardDetails} {now : ℤ} {r : Option PaymentMethod} {row : PaymentMethod}
  {l : List (ℤ × CardAction)} {a c : StripeAttribution} {d : Bool} {action : CardAction}

/-! ### One action -/

theorem not_live_of_detached (h : row.detachedAt ≠ none) : ¬ Live row := fun hl => h hl.1

theorem WellFormed.not_live (hw : WellFormed row) (h : ¬ Live row) :
    row.detachedAt ≠ none ∧ row.deletedAt ≠ none ∧ row.isDefault = false :=
  hw.resolve_left h

theorem ownedBy_congr {row' : PaymentMethod} (hu : row.userId = row'.userId)
    (ho : row.organizationId = row'.organizationId) : OwnedBy c row ↔ OwnedBy c row' := by
  unfold OwnedBy
  rw [hu, ho]

theorem live_attachedRow : Live (attachedRow a details r) := ⟨rfl, rfl⟩

theorem live_flagged_attachedRow {f : Bool} : Live (flagged f (attachedRow a details r)) :=
  ⟨rfl, rfl⟩

theorem act_detach (hl : Live row) :
    act details now (some row) .detach = some (detached now row) := by
  simp [act, hl]

theorem act_refresh (hl : Live row) :
    act details now (some row) .refresh = some (refreshed details row) := by
  simp [act, hl.2]

theorem act_reconcile_owned (hl : Live row) (ho : OwnedBy c row) :
    act details now (some row) (.reconcile c d) = some (flagged d row) := by
  have hf : OwnedBy c (flagged false row) := (ownedBy_congr rfl rfl).mpr ho
  have hlf : Live (flagged false row) := hl
  by_cases hdef : row.isDefault = true
  · have hact : act details now (some row) (.reconcile c d) =
        some (if d = true ∧ OwnedBy c (flagged false row) ∧ Live (flagged false row) then
          flagged true (flagged false row) else flagged false row) := by
      simp [act, ho, hdef, hl.2]
    rw [hact]
    cases d with
    | false => simp
    | true =>
      rw [if_pos ⟨rfl, hf, hlf⟩]
      rfl
  · have hrow : flagged false row = row := by
      rw [Bool.not_eq_true] at hdef
      simp [flagged, ← hdef]
    cases d <;> simp [act, ho, hdef, hl, hrow]

theorem act_reconcile_foreign (ho : ¬ OwnedBy c row) :
    act details now (some row) (.reconcile c d) = some row := by
  simp [act, ho]

theorem act_of_not_live (hw : WellFormed row) (hl : ¬ Live row) (hs : ∀ a, action ≠ .save a) :
    act details now (some row) action = some row := by
  obtain ⟨-, hd, hf⟩ := hw.not_live hl
  cases action with
  | save a => exact absurd rfl (hs a)
  | detach => simp [act, hl]
  | refresh => simp [act, hd]
  | reconcile c d => simp [act, hf, hl]
  | nothing => rfl

theorem act_none (hs : ∀ a, action ≠ .save a) : act details now none action = none := by
  cases action with
  | save a => exact absurd rfl (hs a)
  | detach => rfl
  | refresh => rfl
  | reconcile c d => rfl
  | nothing => rfl

theorem wellFormed_act (hr : ∀ row ∈ r, WellFormed row) :
    ∀ row ∈ act details now r action, WellFormed row := by
  cases r with
  | none =>
    cases action with
    | save a =>
      rintro _ ⟨⟩
      exact .inl live_attachedRow
    | _ => simp [act]
  | some row =>
    have hw := hr row rfl
    by_cases hl : Live row
    · cases action with
      | save a =>
        rintro _ ⟨⟩
        exact .inl live_attachedRow
      | detach =>
        rw [act_detach hl]
        rintro _ ⟨⟩
        exact .inr ⟨by simp [detached], by simp [detached], rfl⟩
      | refresh =>
        rw [act_refresh hl]
        rintro _ ⟨⟩
        exact .inl hl
      | reconcile c d =>
        by_cases ho : OwnedBy c row
        · rw [act_reconcile_owned hl ho]
          rintro _ ⟨⟩
          exact .inl hl
        · rwa [act_reconcile_foreign ho]
      | nothing => exact hr
    · by_cases hs : ∀ a, action ≠ .save a
      · rwa [act_of_not_live hw hl hs]
      · push Not at hs
        obtain ⟨a, rfl⟩ := hs
        rintro _ ⟨⟩
        exact .inl live_attachedRow

/-! ### Runs of actions -/

@[simp] theorem after_nil : after details r [] = r := rfl

theorem after_cons {run : ℤ × CardAction} :
    after details r (run :: l) = after details (act details run.1 r run.2) l := rfl

@[simp] theorem after_concat {run : ℤ × CardAction} :
    after details r (l ++ [run]) = act details run.1 (after details r l) run.2 := by
  simp [after]

theorem after_append {l' : List (ℤ × CardAction)} :
    after details r (l ++ l') = after details (after details r l) l' := by
  simp [after]

/-- The log has no action of saving. -/
def NoSave (l : List (ℤ × CardAction)) : Prop := ∀ run ∈ l, ∀ a, run.2 ≠ .save a

theorem after_none (hs : NoSave l) : after details none l = none := by
  induction l with
  | nil => rfl
  | cons run l ih =>
    rw [after_cons, act_none (hs run List.mem_cons_self)]
    exact ih fun run' hr => hs run' (List.mem_cons_of_mem run hr)

theorem after_of_not_live (hw : WellFormed row) (hl : ¬ Live row) (hs : NoSave l) :
    after details (some row) l = some row := by
  induction l with
  | nil => rfl
  | cons run l ih =>
    rw [after_cons, act_of_not_live hw hl (hs run List.mem_cons_self)]
    exact ih fun run' hr => hs run' (List.mem_cons_of_mem run hr)

/-- A card that is not detached stays live, and one that is saved becomes so. -/
theorem act_live (hd : action ≠ .detach) (hl : Live row) :
    ∃ row', act details now (some row) action = some row' ∧ Live row' := by
  cases action with
  | save a => exact ⟨_, rfl, live_attachedRow⟩
  | detach => exact absurd rfl hd
  | refresh => exact ⟨_, act_refresh hl, hl⟩
  | reconcile c d =>
    by_cases ho : OwnedBy c row
    · exact ⟨_, act_reconcile_owned hl ho, hl⟩
    · exact ⟨row, act_reconcile_foreign ho, hl⟩
  | nothing => exact ⟨row, rfl, hl⟩

theorem after_live (hd : ∀ run ∈ l, run.2 ≠ .detach) (hl : Live row) :
    ∃ row', after details (some row) l = some row' ∧ Live row' := by
  induction l generalizing row with
  | nil => exact ⟨row, rfl, hl⟩
  | cons run l ih =>
    obtain ⟨row', hr, hl'⟩ := @act_live details run.1 _ _ (hd run List.mem_cons_self) hl
    rw [after_cons, hr]
    exact ih (fun run' hr => hd run' (List.mem_cons_of_mem run hr)) hl'

theorem flag_act (hd : action ≠ .detach) (hc : ∀ c d, action ≠ .reconcile c d) :
    flag (act details now r action) = flag r := by
  cases action with
  | save a => rfl
  | detach => exact absurd rfl hd
  | refresh =>
    cases r with
    | none => rfl
    | some row =>
      simp only [act, flag, Option.map_some, Option.getD_some]
      split_ifs <;> rfl
  | reconcile c d => exact absurd rfl (hc c d)
  | nothing => rfl

theorem flag_after (hd : ∀ run ∈ l, run.2 ≠ .detach)
    (hc : ∀ run ∈ l, ∀ c d, run.2 ≠ .reconcile c d) : flag (after details r l) = flag r := by
  induction l generalizing r with
  | nil => rfl
  | cons run l ih =>
    rw [after_cons, ih (fun run' hr => hd run' (List.mem_cons_of_mem run hr))
      fun run' hr => hc run' (List.mem_cons_of_mem run hr)]
    exact flag_act (hd run List.mem_cons_self) (hc run List.mem_cons_self)

theorem after_foreign (hc : ∀ run ∈ l, ∃ c d, run.2 = .reconcile c d ∧ ¬ OwnedBy c row) :
    after details (some row) l = some row := by
  induction l with
  | nil => rfl
  | cons run l ih =>
    obtain ⟨c, d, he, ho⟩ := hc run List.mem_cons_self
    rw [after_cons, he, act_reconcile_foreign ho]
    exact ih fun run' hr => hc run' (List.mem_cons_of_mem run hr)

/-! ### All orders of the actions -/

/-- **When all orders agree with Stripe.** `r` is the row of the card before its actions `A`.

* A card that is saved is attached, and is saved for one owner.
* A live row of a detached card is detached by one of the actions; if it is refreshed too, it was
  fresh before.
* The default flag of a card that is attached was right before, or the row was live and belongs to
  the customer that is reconciled, as do all owners for whom the card is saved. -/
structure Sound (details : CardDetails) (r : Option PaymentMethod) (attached : Prop)
    (isDefault : Bool) (A : List CardAction) : Prop where
  saved : ∀ a, .save a ∈ A → attached ∧ ∀ a', .save a' ∈ A → a' = a
  detached : ¬ attached → ∀ row ∈ r, Live row →
    .detach ∈ A ∧ (.refresh ∈ A → refreshed details row = row)
  isDefault : attached → (r ≠ none ∨ ∃ a, .save a ∈ A) → flag r = isDefault ∨
    ∃ row ∈ r, Live row ∧ ∃ c d, .reconcile c d ∈ A ∧ OwnedBy c row ∧
      ∀ a, .save a ∈ A → OwnedBy c (attachedRow a details none)

/-- The facts about Stripe behind the actions: all events of a customer reconcile with the same
object, which names the default among the attached cards, and a detached card stays detached. -/
structure Consistent (attached : Prop) (isDefault : Bool) (A : List CardAction) : Prop where
  reconciled : ∀ c d c' d', .reconcile c d ∈ A → .reconcile c' d' ∈ A → c = c' ∧ d = d'
  named : attached → ∀ c d, .reconcile c d ∈ A → d = isDefault
  stays : .detach ∈ A → ¬ attached
  attached_of_default : isDefault = true → attached

variable {attached : Prop} {isDefault : Bool} {A : List CardAction}

/-- The row of an attached card, as far as the actions `l` determine it: its default flag is `f`. -/
def Shape (details : CardDetails) (r : Option PaymentMethod) (l : List CardAction) (f : Bool)
    (x : Option PaymentMethod) : Prop :=
  (∀ a, .save a ∈ l → x = some (flagged f (attachedRow a details none))) ∧
    ((∀ a, .save a ∉ l) → x = r.map fun row =>
      if Live row then flagged f (if .refresh ∈ l then refreshed details row else row) else row)

theorem Shape.unique {l l' : List CardAction} {f : Bool} {x x' : Option PaymentMethod}
    (hl : ∀ action, action ∈ l ↔ action ∈ l') (h : Shape details r l f x)
    (h' : Shape details r l' f x') : x = x' := by
  by_cases hs : ∃ a, .save a ∈ l
  · obtain ⟨a, ha⟩ := hs
    rw [h.1 a ha, h'.1 a ((hl _).mp ha)]
  · push Not at hs
    rw [h.2 hs, h'.2 fun a ha => hs a ((hl _).mpr ha)]
    simp only [hl]

variable {x : Option PaymentMethod}

theorem Shape.flag_eq {l : List CardAction} {f : Bool} (h : Shape details r l f x) :
    flag x = f ∨ (flag x = flag r ∧ ∀ row ∈ r, ¬ Live row) := by
  by_cases hs : ∃ a, .save a ∈ l
  · obtain ⟨a, ha⟩ := hs
    rw [h.1 a ha]
    exact .inl rfl
  · push Not at hs
    rw [h.2 hs]
    cases r with
    | none => exact .inr ⟨rfl, by simp⟩
    | some row =>
      by_cases hl : Live row
      · refine .inl ?_
        simp [flag, hl, flagged]
      · refine .inr ⟨?_, by simpa using hl⟩
        simp [hl]

/-- **One action on an attached card.** The flag is right, or it is still the one before all actions
and nothing was reconciled. -/
theorem shape_act {l : List CardAction} {f : Bool} (hw : ∀ row ∈ r, WellFormed row)
    (h : Shape details r l f x) (hf : f = isDefault ∨ (f = flag r ∧ ∀ c d, .reconcile c d ∉ l))
    (hsaved : ∀ a a', .save a ∈ l ++ [action] → .save a' ∈ l ++ [action] → a' = a)
    (hnd : action ≠ .detach) (hnamed : ∀ c d, action = .reconcile c d → d = isDefault)
    (hcond : flag r = isDefault ∨ ∃ row ∈ r, Live row ∧
      ∀ c d, action = .reconcile c d → OwnedBy c row ∧
        ∀ a, .save a ∈ l → OwnedBy c (attachedRow a details none)) :
    ∃ f', Shape details r (l ++ [action]) f' (act details now x action) ∧
      (f' = isDefault ∨ (f' = flag r ∧ ∀ c d, .reconcile c d ∉ l ++ [action])) := by
  cases action with
  | detach => exact absurd rfl hnd
  | nothing =>
    refine ⟨f, ?_, by simpa using hf⟩
    simpa [Shape, act] using h
  | save a =>
    refine ⟨flag x, ⟨fun a' ha' => ?_, fun hs => ?_⟩, ?_⟩
    · rw [hsaved a a' (by simp) ha']
      rfl
    · exact absurd (by simp) (hs a)
    · rcases h.flag_eq with hx | ⟨hx, hl⟩
      · rw [hx]
        simpa using hf
      · rcases hcond with hr | ⟨row, hrow, hlive, -⟩
        · exact .inl (hx.trans hr)
        · exact absurd hlive (hl row hrow)
  | refresh =>
    refine ⟨f, ⟨fun a ha => ?_, fun hs => ?_⟩, by simpa using hf⟩
    · have ha' : .save a ∈ l := by simpa using ha
      rw [h.1 a ha', act_refresh live_flagged_attachedRow]
      rfl
    · rw [h.2 fun a ha => hs a (by simp [ha])]
      cases r with
      | none => rfl
      | some row =>
        by_cases hl : Live row
        · simp only [Option.map_some, hl, if_true]
          rw [act_refresh (by split_ifs <;> exact hl)]
          split_ifs with hm hm'
          · rfl
          · exact absurd (by simp) hm'
          · rfl
          · simp_all
        · simp only [Option.map_some, hl, if_false]
          exact act_of_not_live (hw row rfl) hl (by simp)
  | reconcile c d =>
    have hd := hnamed c d rfl
    -- the flag that stays is right, where the row does not belong to the customer
    have hstays : flag r = isDefault → f = isDefault := by
      intro hr
      rcases hf with hf | ⟨hf, -⟩
      · exact hf
      · exact hf.trans hr
    refine ⟨isDefault, ⟨fun a ha => ?_, fun hs => ?_⟩, .inl rfl⟩
    · have ha' : .save a ∈ l := by simpa using ha
      rw [h.1 a ha']
      by_cases ho : OwnedBy c (attachedRow a details none)
      · have ho' : OwnedBy c (flagged f (attachedRow a details none)) :=
          (ownedBy_congr rfl rfl).mpr ho
        rw [act_reconcile_owned live_flagged_attachedRow ho', hd]
        rfl
      · rw [@act_reconcile_foreign _ _ (flagged f (attachedRow a details none)) _ _
          fun h => ho ((ownedBy_congr rfl rfl).mp h)]
        rcases hcond with hr | ⟨row, -, -, hall⟩
        · rw [hstays hr]
        · exact absurd ((hall c d rfl).2 a ha') ho
    · rw [h.2 fun a ha => hs a (by simp [ha])]
      cases r with
      | none => rfl
      | some row =>
        by_cases hl : Live row
        · simp only [Option.map_some, hl, if_true]
          have hrefresh : (.refresh ∈ l ++ [.reconcile c d]) = (.refresh ∈ l) := by simp
          simp only [hrefresh]
          by_cases ho : OwnedBy c row
          · rw [act_reconcile_owned (by split_ifs <;> exact hl)
              (by split_ifs <;> exact (ownedBy_congr rfl rfl).mpr ho), hd]
            rfl
          · rw [act_reconcile_foreign
              (by split_ifs <;> exact fun h => ho ((ownedBy_congr rfl rfl).mp h))]
            rcases hcond with hr | ⟨row', ⟨⟩, -, hall⟩
            · rw [hstays hr]
            · exact absurd (hall c d rfl).1 ho
        · simp only [Option.map_some, hl, if_false]
          exact act_of_not_live (hw row rfl) hl (by simp)

theorem shape_after (hw : ∀ row ∈ r, WellFormed row) (hs : Sound details r attached isDefault A)
    (hc : Consistent attached isDefault A) (ha : attached) (hr : r ≠ none ∨ ∃ a, .save a ∈ A)
    (hl : ∀ run ∈ l, run.2 ∈ A) :
    ∃ f, Shape details r (l.map Prod.snd) f (after details r l) ∧
      (f = isDefault ∨ (f = flag r ∧ ∀ c d, .reconcile c d ∉ l.map Prod.snd)) := by
  induction l using List.reverseRecOn with
  | nil =>
    refine ⟨flag r, ⟨by simp, fun _ => ?_⟩, .inr ⟨rfl, by simp⟩⟩
    cases r with
    | none => rfl
    | some row => simp [flag, flagged]
  | append_singleton l run ih =>
    obtain ⟨f, h, hf⟩ := ih fun run' hr => hl run' (List.mem_append_left _ hr)
    have hrun : run.2 ∈ A := hl run (by simp)
    have hmem : ∀ action, action ∈ l.map Prod.snd ++ [run.2] → action ∈ A := by
      intro action hm
      rcases List.mem_append.mp hm with hm | hm
      · obtain ⟨run', hr', rfl⟩ := List.mem_map.mp hm
        exact hl run' (List.mem_append_left _ hr')
      · rwa [List.mem_singleton.mp hm]
    rw [after_concat, List.map_append, List.map_singleton]
    refine shape_act hw h hf (fun a a' h h' => (hs.saved a (hmem _ h)).2 a' (hmem _ h'))
      (fun hd => hc.stays (hd ▸ hrun) ha) (fun c d he => hc.named ha c d (he ▸ hrun)) ?_
    rcases hs.isDefault ha hr with hflag | ⟨row, hrow, hlive, c, d, hrec, ho, hall⟩
    · exact .inl hflag
    · refine .inr ⟨row, hrow, hlive, fun c' d' he => ?_⟩
      obtain ⟨rfl, rfl⟩ := hc.reconciled c d c' d' hrec (he ▸ hrun)
      exact ⟨ho, fun a hm => hall a (hmem _ (List.mem_append_left _ hm))⟩

theorem shape_of_sound (hw : ∀ row ∈ r, WellFormed row)
    (hs : Sound details r attached isDefault A) (hc : Consistent attached isDefault A)
    (ha : attached) (hr : r ≠ none ∨ ∃ a, .save a ∈ A) (hl : (l.map Prod.snd).Perm A) :
    Shape details r A isDefault (after details r l) := by
  have hmem : ∀ action, action ∈ l.map Prod.snd ↔ action ∈ A := fun action => hl.mem_iff
  obtain ⟨f, h, hf⟩ := shape_after hw hs hc ha hr fun run hm =>
    (hmem _).mp (List.mem_map_of_mem hm)
  have hA : ∀ {f}, Shape details r (l.map Prod.snd) f (after details r l) →
      Shape details r A f (after details r l) := by
    intro f h
    simpa only [Shape, hmem] using h
  rcases hf with rfl | ⟨rfl, hno⟩
  · exact hA h
  · rcases hs.isDefault ha hr with hflag | ⟨_, _, _, c, d, hrec, -⟩
    · rw [← hflag]
      exact hA h
    · exact absurd ((hmem _).mpr hrec) (hno c d)

theorem Shape.settled (hs : Sound details r attached isDefault A) (ha : attached)
    (h : Shape details r A isDefault x) : Settled attached isDefault x := by
  intro row hx
  refine ⟨fun hn => absurd ha hn, ?_⟩
  have hflag : flag x = row.isDefault := by
    rw [Option.mem_def.mp hx]
    rfl
  rw [← hflag]
  rcases h.flag_eq with hf | ⟨hf, hl⟩
  · exact hf
  · have hr : r ≠ none ∨ ∃ a, .save a ∈ A := by
      by_contra hno
      push Not at hno
      rw [h.2 hno.2, hno.1] at hx
      cases hx
    rcases hs.isDefault ha hr with hflag | ⟨row', hrow, hlive, -⟩
    · exact hf.trans hflag
    · exact absurd hlive (hl row' hrow)

/-- The row of a card that is not saved, and whose live row is fresh, until and after it is
detached. -/
theorem after_detached (hl : Live row) (hs : NoSave l)
    (hf : ∀ run ∈ l, run.2 = .refresh → refreshed details row = row) :
    ∃ row', after details (some row) l = some row' ∧
      (((∀ run ∈ l, run.2 ≠ .detach) ∧ ∃ f, row' = flagged f row) ∨
        (∃ run ∈ l, run.2 = .detach) ∧ ∃ t, row' = detached t row) := by
  induction l using List.reverseRecOn with
  | nil => exact ⟨row, rfl, .inl ⟨by simp, row.isDefault, rfl⟩⟩
  | append_singleton l run ih =>
    obtain ⟨row', hr, h⟩ := ih (fun run' hr => hs run' (List.mem_append_left _ hr))
      fun run' hr => hf run' (List.mem_append_left _ hr)
    have hrun := hs run (by simp)
    rw [after_concat, hr]
    rcases h with ⟨hno, f, rfl⟩ | ⟨⟨run', hm, hd⟩, t, rfl⟩
    · have hlf : Live (flagged f row) := hl
      by_cases hd : run.2 = .detach
      · rw [hd, act_detach hlf]
        exact ⟨_, rfl, .inr ⟨⟨run, by simp, hd⟩, run.1, rfl⟩⟩
      · have hno' : ∀ run' ∈ l ++ [run], run'.2 ≠ .detach := by
          intro run' hm
          rcases List.mem_append.mp hm with hm | hm
          · exact hno run' hm
          · rwa [List.mem_singleton.mp hm]
        cases ha : run.2 with
        | save a => exact absurd ha (hrun a)
        | detach => exact absurd ha hd
        | refresh =>
          rw [act_refresh hlf]
          refine ⟨_, rfl, .inl ⟨hno', f, ?_⟩⟩
          exact congrArg (flagged f) (hf run (by simp) ha)
        | reconcile c d =>
          by_cases ho : OwnedBy c (flagged f row)
          · rw [act_reconcile_owned hlf ho]
            exact ⟨_, rfl, .inl ⟨hno', d, rfl⟩⟩
          · rw [act_reconcile_foreign ho]
            exact ⟨_, rfl, .inl ⟨hno', f, rfl⟩⟩
        | nothing => exact ⟨_, rfl, .inl ⟨hno', f, rfl⟩⟩
    · rw [act_of_not_live (.inr ⟨by simp [detached], by simp [detached], rfl⟩)
        (not_live_of_detached (by simp [detached])) hrun]
      exact ⟨_, rfl, .inr ⟨⟨run', by simp [hm], hd⟩, t, rfl⟩⟩

/-! ### The condition is enough -/

theorem settled_of_sound (hw : ∀ row ∈ r, WellFormed row)
    (hs : Sound details r attached isDefault A) (hc : Consistent attached isDefault A)
    {l₁ l₂ : List (ℤ × CardAction)} (h₁ : (l₁.map Prod.snd).Perm A)
    (h₂ : (l₂.map Prod.snd).Perm A) :
    (after details r l₁).map undated = (after details r l₂).map undated ∧
      Settled attached isDefault (after details r l₁) := by
  have hnosave : (∀ a, .save a ∉ A) → ∀ {l : List (ℤ × CardAction)}, (l.map Prod.snd).Perm A →
      NoSave l := by
    intro hno l hl run hm a he
    exact hno a (he ▸ hl.subset (List.mem_map_of_mem hm))
  by_cases hr : r ≠ none ∨ ∃ a, .save a ∈ A
  · by_cases ha : attached
    · have hsh₁ := shape_of_sound hw hs hc ha hr h₁
      have hsh₂ := shape_of_sound hw hs hc ha hr h₂
      rw [hsh₁.unique (fun _ => Iff.rfl) hsh₂]
      exact ⟨rfl, hsh₂.settled hs ha⟩
    · have hno : ∀ a, .save a ∉ A := fun a hm => ha (hs.saved a hm).1
      have hdef : isDefault = false := by
        rw [← Bool.not_eq_true]
        exact fun h => ha (hc.attached_of_default h)
      obtain ⟨row, rfl⟩ := Option.ne_none_iff_exists'.mp (hr.resolve_right (not_exists.mpr hno))
      by_cases hl : Live row
      · obtain ⟨hdet, href⟩ := hs.detached ha row rfl hl
        have hafter : ∀ {l : List (ℤ × CardAction)}, (l.map Prod.snd).Perm A →
            ∃ t, after details (some row) l = some (detached t row) := by
          intro l hl'
          obtain ⟨row', hr', ⟨hnd, -⟩ | ⟨-, t, rfl⟩⟩ :=
            @after_detached details _ _ hl (hnosave hno hl') fun run hm he =>
              href (he ▸ hl'.subset (List.mem_map_of_mem hm))
          · obtain ⟨run, hm, he⟩ := List.mem_map.mp (hl'.symm.subset hdet)
            exact absurd he (hnd run hm)
          · exact ⟨t, hr'⟩
        obtain ⟨t₁, ht₁⟩ := hafter h₁
        obtain ⟨t₂, ht₂⟩ := hafter h₂
        rw [ht₁, ht₂]
        refine ⟨rfl, ?_⟩
        rintro _ ⟨⟩
        exact ⟨fun _ => ⟨by simp [detached], rfl⟩, hdef.symm⟩
      · obtain ⟨hd, -, hf⟩ := (hw row rfl).not_live hl
        rw [after_of_not_live (hw row rfl) hl (hnosave hno h₁),
          after_of_not_live (hw row rfl) hl (hnosave hno h₂)]
        refine ⟨rfl, ?_⟩
        rintro _ ⟨⟩
        exact ⟨fun _ => ⟨hd, hf⟩, hf.trans hdef.symm⟩
  · push Not at hr
    obtain ⟨rfl, hno⟩ := hr
    rw [after_none (hnosave hno h₁), after_none (hnosave hno h₂)]
    exact ⟨rfl, by simp [Settled]⟩

/-! ### The condition is necessary -/

/-- The row after actions whose dates do not matter. -/
def afterAll (details : CardDetails) (r : Option PaymentMethod) (m : List CardAction) :
    Option PaymentMethod :=
  after details r (m.map (Prod.mk 0))

theorem afterAll_append {m m' : List CardAction} :
    afterAll details r (m ++ m') = afterAll details (afterAll details r m) m' := by
  simp [afterAll, after_append]

variable {m : List CardAction}

theorem afterAll_cons :
    afterAll details r (action :: m) = afterAll details (act details 0 r action) m := rfl

theorem afterAll_ne_none (h : r ≠ none ∨ ∃ a, .save a ∈ m) : afterAll details r m ≠ none := by
  induction m generalizing r with
  | nil => simpa [afterAll] using h
  | cons action m ih =>
    rw [afterAll_cons]
    by_cases hs : ∃ a, action = .save a
    · obtain ⟨a, rfl⟩ := hs
      exact ih (.inl (by simp [act]))
    · push Not at hs
      refine ih ?_
      rcases h with h | ⟨a, ha⟩
      · obtain ⟨row, rfl⟩ := Option.ne_none_iff_exists'.mp h
        refine .inl ?_
        cases action <;> simp [act]
      · rcases List.mem_cons.mp ha with he | hm
        · exact absurd he.symm (hs a)
        · exact .inr ⟨a, hm⟩

def CardAction.isReconcile : CardAction → Bool
  | .reconcile _ _ => true
  | _ => false

theorem exists_of_isReconcile (h : action.isReconcile = true) : ∃ c d, action = .reconcile c d := by
  cases action <;> simp_all [CardAction.isReconcile]

theorem noSave_map (h : ∀ a, .save a ∉ m) : NoSave (m.map (Prod.mk 0)) := by
  intro run hr a he
  obtain ⟨action, hm, rfl⟩ := List.mem_map.mp hr
  exact h a (he ▸ hm)

theorem flag_afterAll (hd : .detach ∉ m) (hc : ∀ action ∈ m, action.isReconcile = false) :
    flag (afterAll details r m) = flag r := by
  refine flag_after (fun run hr he => ?_) fun run hr c d he => ?_
  · obtain ⟨action, hm, rfl⟩ := List.mem_map.mp hr
    exact hd (he ▸ hm)
  · obtain ⟨action, hm, rfl⟩ := List.mem_map.mp hr
    obtain rfl : action = .reconcile c d := he
    cases hc _ hm

theorem afterAll_foreign (hm : ∀ action ∈ m, action.isReconcile = true)
    (ho : ∀ c d, .reconcile c d ∈ m → ¬ OwnedBy c row) :
    afterAll details (some row) m = some row := by
  refine after_foreign fun run hr => ?_
  obtain ⟨action, hmem, rfl⟩ := List.mem_map.mp hr
  obtain ⟨c, d, rfl⟩ := exists_of_isReconcile (hm action hmem)
  exact ⟨c, d, rfl, ho c d hmem⟩

/-- All orders of the actions agree with Stripe. -/
def AllSettled (details : CardDetails) (r : Option PaymentMethod) (attached : Prop)
    (isDefault : Bool) (A : List CardAction) : Prop :=
  ∀ m m' : List CardAction, m.Perm A → m'.Perm A →
    (afterAll details r m).map undated = (afterAll details r m').map undated ∧
      Settled attached isDefault (afterAll details r m)

theorem AllSettled.flag_eq (h : AllSettled details r attached isDefault A) (hm : m.Perm A)
    (hr : r ≠ none ∨ ∃ a, .save a ∈ A) : flag (afterAll details r m) = isDefault := by
  have hne : afterAll details r m ≠ none :=
    afterAll_ne_none (hr.imp_right fun ⟨a, ha⟩ => ⟨a, hm.symm.subset ha⟩)
  obtain ⟨row, hrow⟩ := Option.ne_none_iff_exists'.mp hne
  have hs := ((h m m hm hm).2 row hrow).2
  rwa [hrow]

theorem AllSettled.saved (h : AllSettled details r attached isDefault A) (ha : .save a ∈ A) :
    attached ∧ ∀ a', .save a' ∈ A → a' = a := by
  have hlast : ∀ a, .save a ∈ A → ∃ m x, m.Perm A ∧
      afterAll details r m = some (attachedRow a details x) := by
    intro a ha
    obtain ⟨s, t, rfl⟩ := List.append_of_mem ha
    refine ⟨s ++ t ++ [.save a], afterAll details r (s ++ t),
      (List.perm_append_singleton _ _).trans List.perm_middle.symm, ?_⟩
    rw [afterAll_append]
    rfl
  obtain ⟨m, x, hm, hrow⟩ := hlast a ha
  constructor
  · by_contra hn
    exact (((h m m hm hm).2 _ hrow).1 hn).1 rfl
  · intro a' ha'
    obtain ⟨m', x', hm', hrow'⟩ := hlast a' ha'
    have he := (h m' m hm' hm).1
    rw [hrow, hrow'] at he
    have hu := Option.some.inj he
    exact congrArg₂ StripeAttribution.mk (congrArg (·.userId) hu) (congrArg (·.organizationId) hu)

theorem AllSettled.detaches (h : AllSettled details (some row) attached isDefault A)
    (ha : ¬ attached) (hl : Live row) :
    .detach ∈ A ∧ (.refresh ∈ A → refreshed details row = row) := by
  have hno : ∀ a, .save a ∉ A := fun a hm => ha (h.saved hm).1
  have hdet : .detach ∈ A := by
    by_contra hn
    obtain ⟨row', hr, hl'⟩ := @after_live details row (A.map (Prod.mk 0)) (by
        intro run hm he
        obtain ⟨action, hmem, rfl⟩ := List.mem_map.mp hm
        exact hn (he ▸ hmem)) hl
    exact (((h A A (.refl _) (.refl _)).2 row' hr).1 ha).1 hl'.1
  refine ⟨hdet, fun href => ?_⟩
  -- one order begins with refreshing the row, the other with detaching it
  obtain ⟨s, t, hst⟩ := List.append_of_mem href
  obtain ⟨s', t', hst'⟩ := List.append_of_mem hdet
  have h₁ : (.refresh :: (s ++ t) : List CardAction).Perm A := hst ▸ List.perm_middle.symm
  have h₂ : (.detach :: (s' ++ t') : List CardAction).Perm A := hst' ▸ List.perm_middle.symm
  have hrow₂ : afterAll details (some row) (.detach :: (s' ++ t')) = some (detached 0 row) := by
    rw [afterAll_cons, act_detach hl]
    exact after_of_not_live (.inr ⟨by simp [detached], by simp [detached], rfl⟩)
      (not_live_of_detached (by simp [detached]))
      (noSave_map fun a hm => hno a (h₂.subset (List.mem_cons_of_mem _ hm)))
  have hrow₁ : ∃ t', afterAll details (some row) (.refresh :: (s ++ t)) =
      some (detached t' (refreshed details row)) := by
    rw [afterAll_cons, act_refresh hl]
    obtain ⟨row', hr, ⟨hnd, -⟩ | ⟨-, t', rfl⟩⟩ := @after_detached details
      (refreshed details row) ((s ++ t).map (Prod.mk 0)) hl
      (noSave_map fun a hm => hno a (h₁.subset (List.mem_cons_of_mem _ hm))) fun _ _ _ => rfl
    · have hm := h₁.symm.subset hdet
      exact absurd rfl (hnd (0, .detach) (List.mem_map_of_mem (by simpa using hm)))
    · exact ⟨t', hr⟩
  obtain ⟨t', hrow₁⟩ := hrow₁
  have he := (h _ _ h₁ h₂).1
  rw [hrow₁, hrow₂] at he
  have hu := Option.some.inj he
  have hb : details.brand = row.brand := congrArg (·.brand) hu
  have h4 : details.last4 = row.last4 := congrArg (·.last4) hu
  have hmo : details.expMonth = row.expMonth := congrArg (·.expMonth) hu
  have hy : details.expYear = row.expYear := congrArg (·.expYear) hu
  simp [refreshed, hb, h4, hmo, hy]

theorem reconcile_first :
    ∃ recs rest : List CardAction, (recs ++ rest).Perm A ∧
      (∀ action ∈ recs, action.isReconcile = true) ∧
      ∀ action ∈ rest, action.isReconcile = false := by
  refine ⟨A.filter (·.isReconcile), A.filter fun action => !action.isReconcile,
    List.filter_append_perm _ _, fun action hm => (List.mem_filter.mp hm).2, fun action hm => ?_⟩
  simpa using (List.mem_filter.mp hm).2

theorem AllSettled.flag_right (hw : ∀ row ∈ r, WellFormed row)
    (hc : Consistent attached isDefault A) (h : AllSettled details r attached isDefault A)
    (ha : attached) (hr : r ≠ none ∨ ∃ a, .save a ∈ A) :
    flag r = isDefault ∨ ∃ row ∈ r, Live row ∧ ∃ c d, .reconcile c d ∈ A ∧ OwnedBy c row ∧
      ∀ a, .save a ∈ A → OwnedBy c (attachedRow a details none) := by
  by_contra hno
  rw [not_or] at hno
  obtain ⟨hflag, hno⟩ := hno
  obtain ⟨recs, rest, hperm, hrecs, hrest⟩ := reconcile_first (A := A)
  have hrecsA : ∀ action ∈ recs, action ∈ A := fun action hm =>
    hperm.subset (List.mem_append_left _ hm)
  have hnd : .detach ∉ rest := fun hm => hc.stays (hperm.subset (List.mem_append_right _ hm)) ha
  have hfirst := h.flag_eq hperm hr
  rw [afterAll_append, flag_afterAll hnd hrest] at hfirst
  by_cases hl : ∃ row ∈ r, Live row
  · obtain ⟨row, hrow, hl⟩ := hl
    obtain rfl : r = some row := hrow
    by_cases hown : ∃ c d, .reconcile c d ∈ A ∧ OwnedBy c row
    · obtain ⟨c, d, hrec, ho⟩ := hown
      refine hno ⟨row, rfl, hl, c, d, hrec, ho, fun a hs => ?_⟩
      by_contra hoa
      -- the reconciliation comes after the card was saved for another owner
      have hmr : CardAction.save a ∈ rest := by
        rcases List.mem_append.mp (hperm.symm.subset hs) with hm | hm
        · cases hrecs _ hm
        · exact hm
      obtain ⟨s, t, rfl⟩ := List.append_of_mem hmr
      have hperm' : (s ++ t ++ [CardAction.save a] ++ recs).Perm A :=
        .trans (List.perm_append_comm.trans (.append_left recs
          ((List.perm_append_singleton _ _).trans List.perm_middle.symm))) hperm
      have hlast := h.flag_eq hperm' hr
      rw [afterAll_append, afterAll_append] at hlast
      have hforeign : afterAll details (afterAll details (afterAll details (some row) (s ++ t))
          [.save a]) recs =
          afterAll details (afterAll details (some row) (s ++ t)) [.save a] := by
        refine afterAll_foreign hrecs fun c' d' hm ho' => ?_
        obtain ⟨rfl, -⟩ := hc.reconciled c d c' d' hrec (hrecsA _ hm)
        exact hoa ((ownedBy_congr rfl rfl).mp ho')
      have hst : ∀ action ∈ s ++ t, action ∈ s ++ CardAction.save a :: t := fun action hm =>
        List.perm_middle.symm.subset (List.mem_cons_of_mem _ hm)
      have hsave : flag (afterAll details (afterAll details (some row) (s ++ t)) [.save a]) =
          flag (afterAll details (some row) (s ++ t)) := rfl
      rw [hforeign, hsave, flag_afterAll (fun hm => hnd (hst _ hm))
        fun action hm => hrest action (hst action hm)] at hlast
      exact hflag hlast
    · push Not at hown
      rw [afterAll_foreign hrecs fun c d hm => hown c d (hrecsA _ hm)] at hfirst
      exact hflag hfirst
  · push Not at hl
    have hnosave : NoSave (recs.map (Prod.mk (0 : ℤ))) := noSave_map fun a hm => by
      cases hrecs _ hm
    have hsame : afterAll details r recs = r := by
      cases r with
      | none => exact after_none hnosave
      | some row => exact after_of_not_live (hw row rfl) (hl row rfl) hnosave
    rw [hsame] at hfirst
    exact hflag hfirst

theorem sound_of_allSettled (hw : ∀ row ∈ r, WellFormed row)
    (hc : Consistent attached isDefault A) (h : AllSettled details r attached isDefault A) :
    Sound details r attached isDefault A where
  saved _ ha := h.saved ha
  detached ha row hrow hl := by
    obtain rfl : r = some row := hrow
    exact h.detaches ha hl
  isDefault ha hr := h.flag_right hw hc ha hr

/-! ### Events -/

section Events

variable {Event : Type*} {actionOf : Event → CardAction} {E : List Event}

theorem perm_of_perm_map {m : List CardAction} (h : m.Perm (E.map actionOf)) :
    ∃ o : List Event, o.Perm E ∧ o.map actionOf = m := by
  have hc : Relation.Comp (· = List.map actionOf ·) List.Perm m E := by
    rw [List.eq_map_comp_perm]
    exact h
  obtain ⟨o, hm, ho⟩ := hc
  exact ⟨o, ho, hm.symm⟩

/-- **The row of a card and the order of the events**, each of which takes one action on the card. -/
theorem settled_iff (hw : ∀ row ∈ r, WellFormed row)
    (hc : Consistent attached isDefault (E.map actionOf)) :
    (∀ o₁ o₂ : List (ℤ × Event), (o₁.map Prod.snd).Perm E → (o₂.map Prod.snd).Perm E →
        (after details r (o₁.map (Prod.map id actionOf))).map undated =
            (after details r (o₂.map (Prod.map id actionOf))).map undated ∧
          Settled attached isDefault (after details r (o₁.map (Prod.map id actionOf)))) ↔
      Sound details r attached isDefault (E.map actionOf) := by
  constructor
  · intro h
    refine sound_of_allSettled hw hc fun m m' hm hm' => ?_
    obtain ⟨o, ho, rfl⟩ := perm_of_perm_map hm
    obtain ⟨o', ho', rfl⟩ := perm_of_perm_map hm'
    have hsnd : ∀ o : List Event, (o.map (Prod.mk (0 : ℤ))).map Prod.snd = o := by
      simp [Function.comp_def]
    have hact : ∀ o : List Event, (o.map (Prod.mk (0 : ℤ))).map (Prod.map id actionOf) =
        (o.map actionOf).map (Prod.mk 0) := by
      simp [Function.comp_def]
    have ht := h (o.map (Prod.mk 0)) (o'.map (Prod.mk 0)) (by rwa [hsnd]) (by rwa [hsnd])
    rwa [hact, hact] at ht
  · intro hs o₁ o₂ h₁ h₂
    have hsnd : ∀ o : List (ℤ × Event), (o.map (Prod.map id actionOf)).map Prod.snd =
        (o.map Prod.snd).map actionOf := by
      simp [Function.comp_def]
    refine settled_of_sound hw hs hc ?_ ?_
    · rw [hsnd]
      exact h₁.map actionOf
    · rw [hsnd]
      exact h₂.map actionOf

end Events

end BackendFoundation.Stripe.CardActions
