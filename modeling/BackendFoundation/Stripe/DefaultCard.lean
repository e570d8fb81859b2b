import BackendFoundation.Stripe.PaymentMethodLog

/-! # One default card

A transaction that makes a card the default clears the default of its owner first, and nothing keeps
two of them apart: the update that clears cannot find a card that another transaction makes the default
after it has looked. An owner gets a second default exactly if a transaction that brings one commits
beside a default card that it has not taken (`Overlooks`).

Main result: `one_default`. -/

namespace BackendFoundation.Stripe.DefaultCard

open Lib.Runs Lib.Interleave Lib.Database Lib.Transact Lib.WriteLog Lib.Schema Lib.Services Lib.Logs
open Errors Stripe.Objects
open Stripe.WebhookModel (PaymentMethod CardDetails OwnedBy attachedRow)
open Stripe.PaymentMethods Stripe.PaymentMethodLog
open Option (some.inj)

/-- A default card that has not been deleted. -/
def Default (row : PaymentMethod) : Prop := row.isDefault = true ∧ row.deletedAt = none

instance : DecidablePred Default := fun _ => inferInstanceAs (Decidable (_ ∧ _))

/-- **No owner has two default cards.** -/
def OneDefault (rows : CardRows) : Prop :=
  ∀ (id id' : String) (row row' : PaymentMethod), rows ⟨.card, id⟩ = some row →
    rows ⟨.card, id'⟩ = some row' → Default row → Default row' → owner row = owner row' → id = id'

/-! ### The cards that a call writes -/

/-- The call may make this card a default. -/
def marks : CardPc → String → Bool
  | .setDefault _ marked _, id | .save _ _ marked _ _, id | .customer _ _ (.set marked), id =>
    id = marked
  | .customer _ _ (.lock defaultId), id | .customer _ _ (.clear defaultId), id
  | .customer _ _ (.commit defaultId _), id => defaultId = some id
  | .detach .., _ | .detached .., _ => false
  | .returned, _ | .thrown _, _ => true

/-- A default card that the call does not mark. -/
def stray (pc : CardPc) : ∀ k, CardRow k → Bool :=
  whereIn .card fun id row => row.isDefault && !marks pc id

variable {cfg : CardConfig} {site : Site CardKey} {reply : Reply CardRow} {pc pc' : CardPc}
  {stmt : CardStmt} {attribution : StripeAttribution} {id id' : String} {rows rows' : CardRows}

theorem stray_card {row : PaymentMethod} :
    stray pc ⟨.card, id⟩ row = true ↔ row.isDefault = true ∧ marks pc id = false := by
  unfold stray
  rw [whereIn_self, Bool.and_eq_true, Bool.not_eq_true']

theorem stray_mono (h : ∀ id, marks pc id = true → marks pc' id = true) (k : CardKey)
    (row : CardRow k) (hrow : stray pc' k row = true) : stray pc k row = true := by
  obtain ⟨id, row', rfl, hrow', -⟩ := whereIn_eq_true hrow
  obtain rfl := eq_of_heq hrow'
  obtain ⟨hdefault, hmarks⟩ := stray_card.mp hrow
  refine stray_card.mpr ⟨hdefault, ?_⟩
  by_contra hne
  rw [h id (by simpa using hne)] at hmarks
  cases hmarks

variable {u : CardUpdate .card}

theorem leaves_of_cleared (h : ∀ row, (u.data row).isDefault = false) : Leaves u.stmt (stray pc) :=
  Update.leaves fun _ row _ => by rw [h row, Bool.false_and]

theorem leaves_of_marked (h : ∀ id row, u.cond id row = true → marks pc id = true) :
    Leaves u.stmt (stray pc) :=
  Update.leaves fun id row hcond => by rw [h id row hcond, Bool.not_true, Bool.and_false]

/-- **A call writes no default card** but the one that it marks. -/
theorem leaves_stray (hstmt : cardStmt pc = some stmt) : Leaves stmt (stray pc) := by
  cases pc with
  | setDefault attribution id pc =>
    cases pc with
    | clear =>
      obtain rfl := some.inj hstmt
      exact leaves_of_cleared fun _ => rfl
    | set =>
      obtain rfl := some.inj hstmt
      exact leaves_of_marked fun _ _ hcond => decide_eq_true (of_decide_eq_true hcond).1
    | updateCustomer => cases hstmt
    | _ => cases hstmt; trivial
  | customer attribution customerId pc =>
    cases pc with
    | clear =>
      obtain rfl := some.inj hstmt
      exact leaves_of_cleared fun _ => rfl
    | set id =>
      obtain rfl := some.inj hstmt
      exact leaves_of_marked fun _ _ hcond => decide_eq_true (of_decide_eq_true hcond).1
    | _ => cases hstmt; trivial
  | detach attribution id pc =>
    cases pc with
    | update =>
      obtain rfl := some.inj hstmt
      exact leaves_of_cleared fun _ => rfl
    | detach => cases hstmt
    | _ => cases hstmt; trivial
  | save attribution intentId id details pc =>
    cases pc with
    | update =>
      obtain rfl := some.inj hstmt
      exact leaves_of_marked fun _ _ hcond => decide_eq_true (of_decide_eq_true hcond)
    | insert =>
      obtain rfl := some.inj hstmt
      show stray _ ⟨.card, id⟩ (attachedRow attribution details none) = false
      rfl
    | _ => cases hstmt; trivial
  | detached id pc =>
    cases pc with
    | update =>
      obtain rfl := some.inj hstmt
      exact leaves_of_cleared fun _ => rfl
    | _ => cases hstmt; trivial
  | returned | thrown => cases hstmt

theorem marks_next (h : cardNext site pc reply = some (.ok pc')) (hm : marks pc id = true) :
    marks pc' id = true := by
  cases pc with
  | setDefault attribution marked pc =>
    change setNext attribution marked pc reply = some (.ok pc') at h
    unfold setNext at h
    split at h
    · obtain rfl := ok_of_findOwned (some.inj h)
      exact hm
    · obtain rfl := point_inj h
      exact hm
    · obtain ⟨-, rfl⟩ := ok_of_required (some.inj h)
      exact hm
    · split_ifs at h
      · obtain rfl := point_inj h
        exact hm
      · cases h
    · obtain rfl := point_inj h
      rfl
    · cases h
  | customer attribution customerId pc =>
    change customerNext attribution customerId pc reply = some (.ok pc') at h
    unfold customerNext at h
    split at h
    · obtain rfl := point_inj h
      exact hm
    · next defaultId _ =>
      obtain rfl := point_inj h
      obtain rfl : defaultId = some id := of_decide_eq_true hm
      show decide (id = id) = true
      exact decide_eq_true rfl
    · next marked n =>
      obtain rfl := point_inj h
      obtain rfl : id = marked := of_decide_eq_true hm
      show decide (some id = some id) = true
      exact decide_eq_true rfl
    · obtain rfl := point_inj h
      rfl
    · cases h
  | save attribution intentId marked details pc =>
    change saveNext attribution intentId marked details pc reply = some (.ok pc') at h
    unfold saveNext at h
    split at h
    · obtain rfl := point_inj h
      exact hm
    · obtain rfl := point_inj h
      exact hm
    · obtain rfl := point_inj h
      exact hm
    · obtain rfl := point_inj h
      rfl
    · cases h
  | detach | detached => cases hm
  | returned | thrown => cases h

def claims : Claims CardRow CardPc Unit where
  shared _ := True
  call _ _ call _ := Spared call.tx (stray call.pc)

theorem spared_of_none {tx : Tx CardRow} (h : ∀ id, marks pc id = true) : Spared tx (stray pc) := by
  intro k c row _ _
  by_contra hne
  obtain ⟨id, row', rfl, hrow, -⟩ := whereIn_eq_true (by simpa using hne : stray pc k row = true)
  obtain rfl := eq_of_heq hrow
  have hmarks := (stray_card.mp (by simpa using hne)).2
  rw [h id] at hmarks
  cases hmarks

theorem invariant : Invariant (cards cfg) notes (fun _ _ _ _ => True) claims where
  init := trivial
  tick v ms := ⟨fun h => h, fun i b call h => h⟩
  abort i call v h := h
  event _ e := e.elim
  start i b v request _ _ := .empty rfl
  thrown i b e tx v := spared_of_none fun _ => rfl
  running s i call c cond data db tx hat _ hstmt hs _ :=
    exec_spared hat.call (by simp) (leaves_stray hstmt) hs (.inl rfl)
  replied s i call c stmt db tx reply pc hat _ hstmt hcommit hs _ hnext :=
    (exec_spared hat.call hcommit (leaves_stray hstmt) hs (.inr ⟨reply, rfl⟩)).mono
      (stray_mono fun _ => marks_next hnext)
  outside s i call c m pc hat _ _ hout := by
    refine ⟨trivial, Spared.mono hat.call (stray_mono fun _ hm => ?_), fun _ _ _ _ h => h⟩
    rcases outside_cases hout with ⟨attribution, id, he, rfl⟩ | ⟨attribution, id, now, he, rfl⟩
    · rw [he] at hm
      exact hm
    · rw [he] at hm
      cases hm
  commit s i call c rows hat _ hstmt _ _ hwrote :=
    ⟨trivial, fun pc hnext => .empty rfl, fun _ _ _ _ h => h⟩

/-! ### One commit -/

/-- The commit brings a default card to the owner: it makes one, or saves one that is a default. -/
def BringsDefault (rows : CardRows) (pc : CardPc) (attribution : StripeAttribution) (id : String) :
    Prop :=
  makesDefault pc = some (attribution, id) ∨ saves pc = some (attribution, id) ∧
    ∃ row : PaymentMethod, rows ⟨.card, id⟩ = some row ∧ row.isDefault = true

/-- Another default card of the owner, which the transaction has not taken. -/
structure Untaken (rows : CardRows) (writes : Writes CardRow) (attribution : StripeAttribution)
    (id other : String) (row : PaymentMethod) : Prop where
  ne : other ≠ id
  found : rows ⟨.card, other⟩ = some row
  default : Default row
  owned : owner row = ownerOf attribution
  unwritten : writes ⟨.card, other⟩ = none

/-- The commit brings a default card beside another one. -/
def OverlooksDefault (rows : CardRows) (writes : Writes CardRow) (pc : CardPc) : Prop :=
  ∃ attribution id, BringsDefault rows pc attribution id ∧
    ∃ other row, Untaken rows writes attribution id other row

def HasDefault (rows : CardRows) (attribution : StripeAttribution) (id : String) : Prop :=
  ∃ row : PaymentMethod, rows ⟨.card, id⟩ = some row ∧ Default row ∧ owner row = ownerOf attribution

theorem hasDefault_of_must {before : CardRows}
    (hu : ∀ row, u.data row = { row with isDefault := true })
    (hcond : ∀ row, u.cond id row = true → owner row = ownerOf attribution ∧ row.deletedAt = none)
    (h : Entry.inTurn [(clearDefault attribution).may, u.must id] ⟨.card, id⟩ (before ⟨.card, id⟩)
      (rows' ⟨.card, id⟩)) : HasDefault rows' attribution id := by
  simp only [Entry.inTurn_cons, Entry.inTurn_nil] at h
  obtain ⟨between, -, last, hset, hlast⟩ := h
  rcases Update.must_cases hset with ⟨hne, -⟩ | ⟨-, row, -, hrow, rfl⟩
  · exact absurd rfl hne
  · obtain ⟨howner, hlive⟩ := hcond row hrow
    refine ⟨u.data row, hlast, ?_⟩
    rw [hu row]
    exact ⟨⟨rfl, hlive⟩, howner⟩

theorem BringsDefault.hasDefault (hc : Committed pc rows rows')
    (h : BringsDefault rows pc attribution id) : HasDefault rows' attribution id := by
  obtain ⟨hcommit, hwrote⟩ := hc
  have hw := hwrote ⟨.card, id⟩
  rcases h with hmakes | ⟨hsaves, row, hfound, hdefault⟩
  · cases hcommit with
    | setDefault =>
      obtain ⟨rfl, rfl⟩ := pair_inj hmakes
      refine hasDefault_of_must (fun _ => rfl) (fun row hrow => ?_) hw
      obtain ⟨-, howned, hlive⟩ := of_decide_eq_true hrow
      exact ⟨ownedBy_iff.mp howned, hlive⟩
    | @customer attribution customerId defaultId found =>
      unfold makesDefault at hmakes
      split at hmakes
      · next he => cases he
      · next he =>
        cases he
        obtain ⟨rfl, rfl⟩ := pair_inj hmakes
        refine hasDefault_of_must (fun _ => rfl) (fun row hrow => ?_) hw
        obtain ⟨-, howned, -, hlive⟩ := of_decide_eq_true hrow
        exact ⟨ownedBy_iff.mp howned, hlive⟩
      · cases hmakes
    | detach | save | detached => cases hmakes
  · cases hcommit with
    | save =>
      obtain ⟨rfl, rfl⟩ := pair_inj hsaves
      rw [hfound] at hw
      rcases Upsert.put_cases (Entry.inTurn_singleton.mp hw) with
        ⟨hne, -⟩ | ⟨-, hnone, -⟩ | ⟨-, row', hrow', hafter⟩
      · exact absurd rfl hne
      · cases hnone
      · obtain rfl := some.inj hrow'
        exact ⟨_, hafter, ⟨hdefault, rfl⟩, rfl⟩
    | setDefault | customer | detach | detached => cases hsaves

theorem marks_unique (hc : Commit pc) (h : marks pc id = true) (h' : marks pc id' = true) :
    id = id' := by
  cases hc with
  | setDefault | save => exact (of_decide_eq_true h).trans (of_decide_eq_true h').symm
  | customer => exact some.inj ((of_decide_eq_true h).symm.trans (of_decide_eq_true h'))
  | detach | detached => cases h

theorem default_of_write {before : Option PaymentMethod} {row : PaymentMethod}
    (h : CardWrite pc id before (some row)) (hbefore : rows ⟨.card, id⟩ = before)
    (hdefault : Default row) :
    before = some row ∨ ∃ attribution, BringsDefault rows pc attribution id ∧
      owner row = ownerOf attribution := by
  generalize hafter : some row = after at h
  cases h with
  | same => exact .inl rfl
  | cleared =>
    obtain rfl := some.inj hafter
    cases hdefault.1
  | made hmakes howner hlive =>
    obtain rfl := some.inj hafter
    exact .inr ⟨_, .inl hmakes, howner⟩
  | saved hsaves =>
    obtain rfl := some.inj hafter
    cases before with
    | none => cases hdefault.1
    | some old => exact .inr ⟨_, .inr ⟨hsaves, old, hbefore, hdefault.1⟩, rfl⟩
  | detached =>
    obtain rfl := some.inj hafter
    cases hdefault.1

/-- **A commit keeps one default card** exactly if it brings none beside another one. -/
theorem one_default_commit {tx : Tx CardRow} (hone : OneDefault rows)
    (hspared : Spared tx (stray pc)) (hread : rows' = tx.writes.read rows)
    (hc : Committed pc rows rows') :
    OneDefault rows' ↔ ¬ OverlooksDefault rows tx.writes pc := by
  constructor
  · rintro hone' ⟨attribution, id, hbrings, other, row, hother⟩
    obtain ⟨row', hfound', hdefault', howner'⟩ := hbrings.hasDefault hc
    have hfound : rows' ⟨.card, other⟩ = some row := by
      rw [hread, Writes.read_of_none hother.unwritten]
      exact hother.found
    exact hother.ne (hone' other id row row' hfound hfound' hother.default hdefault'
      (hother.owned.trans howner'.symm))
  · intro hno id id' row row' hfound hfound' hdefault hdefault' howner
    by_contra hne
    -- at most one of the two is the card that the call marks
    have hunmarked {id id' : String} {row row' : PaymentMethod} (hne : id ≠ id')
        (hfound : rows' ⟨.card, id⟩ = some row) (hfound' : rows' ⟨.card, id'⟩ = some row')
        (hdefault : Default row) (hdefault' : Default row') (howner : owner row = owner row')
        (hmarks : marks pc id' = false) : False := by
      rw [hread] at hfound'
      obtain ⟨hunwritten, hold'⟩ :=
        hspared.unwritten hfound' (stray_card.mpr ⟨hdefault'.1, hmarks⟩)
      have hw := hc.card id
      rw [hfound] at hw
      rcases default_of_write hw rfl hdefault with hold | ⟨attribution, hbrings, howned⟩
      · exact hne (hone id id' row row' hold hold' hdefault hdefault' howner)
      · exact hno ⟨attribution, id, hbrings, id', row',
          ⟨hne.symm, hold', hdefault', howner.symm.trans howned, hunwritten⟩⟩
    cases hmarks : marks pc id with
    | false => exact hunmarked (Ne.symm hne) hfound' hfound hdefault' hdefault howner.symm hmarks
    | true =>
      cases hmarks' : marks pc id' with
      | false => exact hunmarked hne hfound hfound' hdefault hdefault' howner hmarks'
      | true => exact hne (marks_unique hc.commit hmarks hmarks')

/-! ### The main result -/

/-- The step of `OverlooksDefault`. -/
def Overlooks (w : CardWorld) : CardLabel → Prop
  | .step i c => commits w.shared.db i .commit c.fate = true ∧
    ∃ call, w.proc? i = some call ∧ OverlooksDefault w.shared.db.rows call.tx.writes call.pc
  | _ => False

variable {w w' : CardWorld} {l : CardLabel}

theorem overlooks_iff : Overlooks w l ↔
    CommitsAt (fun s call => OverlooksDefault s.db.rows call.tx.writes call.pc) w l := by
  cases l <;> exact Iff.rfl

theorem BringsDefault.atCommit (h : BringsDefault rows pc attribution id) :
    cardStmt pc = some .commit := by
  rcases h with hmakes | ⟨hsaves, -⟩
  · unfold makesDefault at hmakes
    split at hmakes
    · rfl
    · rfl
    · cases hmakes
  · unfold saves at hsaves
    split at hsaves
    · rfl
    · cases hsaves

/-- **Each step keeps one default card** exactly if it overlooks none. -/
theorem one_default_step (h : Reachable (cards cfg).program.system w)
    (hone : OneDefault w.shared.db.rows) (hn : (cards cfg).program.next w l = some w') :
    OneDefault w'.shared.db.rows ↔ ¬ Overlooks w l := by
  obtain ⟨-, hcalls⟩ := invariant.holds follows (h.mono fun _ _ _ => stepsMeet_true)
  rw [overlooks_iff]
  refine follows.kept_iff (Q := fun w => OneDefault w.shared.db.rows) _ h hn (fun call hcall => ?_) ?_
    fun i c call _ hcommits => ?_
  · obtain ⟨attribution, id, hbrings, -⟩ := hcall
    exact hbrings.atCommit
  · refine (follows.rows_of_next h hn).imp_left fun hrows => ?_
    rw [hrows]
    exact hone
  · exact one_default_commit hone (hcalls i call hcommits.proc) hcommits.rows
      (.of_commits hcommits)

/-- **An owner has at most one default card**, in every run in which each transaction that brings one
has taken every other default card of the owner when it commits. -/
theorem one_default (cfg : CardConfig) (hone : OneDefault cfg.rows) :
    (∀ w w' l, Reachable (cards cfg).program.system w → OneDefault w.shared.db.rows →
      (cards cfg).program.next w l = some w' →
      (OneDefault w'.shared.db.rows ↔ ¬ Overlooks w l)) ∧
    ∀ w, ReachableBy (cards cfg).program.system (fun w l => ¬ Overlooks w l) w →
      OneDefault w.shared.db.rows := by
  refine ⟨fun w w' l h hone hn => one_default_step h hone hn, fun w h => ?_⟩
  refine h.invariant' (I := fun w => OneDefault w.shared.db.rows) ?_ ?_
  · rintro w rfl
    exact hone
  · exact fun w w' l h hone hno hn => (one_default_step h.reachable hone hn).mpr hno

/-! ### Runs -/

/-- Three cards of a user; the first is the default. -/
def exampleCards : String → Option PaymentMethod
  | "pm_0" => some { exampleCard with isDefault := true }
  | "pm_1" | "pm_2" => some exampleCard
  | _ => none

def exampleRows : CardRows
  | ⟨.card, id⟩ => exampleCards id
  | _ => none

def exampleConfig : CardConfig where
  rows := exampleRows
  keys := [⟨.card, "pm_0"⟩, ⟨.card, "pm_1"⟩, ⟨.card, "pm_2"⟩]
  listed k hk := by
    unfold exampleRows at hk
    split at hk
    · unfold exampleCards at hk
      split at hk <;> simp at hk ⊢
    · exact absurd rfl hk

def setDefaultOf (id : String) : CardLabel := .spawn (.setDefaultPaymentMethod exampleOwner id)

theorem example_oneDefault : OneDefault exampleConfig.rows := by
  have hfirst : ∀ (id : String) (row : PaymentMethod), exampleConfig.rows ⟨.card, id⟩ = some row →
      Default row → id = "pm_0" := by
    intro id row hfound hdefault
    change exampleCards id = some row at hfound
    unfold exampleCards at hfound
    split at hfound
    · rfl
    · obtain rfl := some.inj hfound
      cases hdefault.1
    · obtain rfl := some.inj hfound
      cases hdefault.1
    · cases hfound
  intro id id' row row' hfound hfound' hdefault hdefault' _
  rw [hfirst id row hfound hdefault, hfirst id' row' hfound' hdefault']

/-- A transaction that makes a default card has taken the others when it commits. -/
def takesDefaults (s : Store CardRow Unit) (_ : ℕ) (call : Caller CardRow CardPc)
    (_ : Choice Thrown) : Bool :=
  (saves call.pc).isNone && (makesDefault call.pc).all fun (attribution, id) =>
    findMany s.db.rows s.db.keys .card (fun other row => other ≠ id ∧ Default row ∧
      owner row = ownerOf attribution ∧ (call.tx.writes ⟨.card, other⟩).isNone) = []

theorem not_overlooks_of_takesDefaults (hlisted : w.shared.db.Listed)
    (h : StepsMeet (fun s i call c => takesDefaults s i call c = true) w l) : ¬ Overlooks w l := by
  cases l with
  | step i c =>
    rintro ⟨-, call, hp, attribution, id, hbrings, other, row, huntaken⟩
    have htakes : takesDefaults w.shared i call c = true := h call hp
    unfold takesDefaults at htakes
    rw [Bool.and_eq_true] at htakes
    rcases hbrings with hmakes | ⟨hsaves, -⟩
    · have hall := htakes.2
      rw [hmakes, Option.all_some, decide_eq_true_eq] at hall
      refine List.not_mem_nil (a := (other, row)) ?_
      rw [← hall, mem_findMany]
      refine ⟨hlisted _ ?_, huntaken.found, decide_eq_true ?_⟩
      · rw [huntaken.found]
        exact Option.some_ne_none _
      · refine ⟨huntaken.ne, huntaken.default, huntaken.owned, ?_⟩
        rw [huntaken.unwritten]
        rfl
    · rw [hsaves] at htakes
      cases htakes.1
  | _ => exact id

/-- Two calls that set the default, one after the other. -/
theorem one_default_in_turn : ∃ w : CardWorld,
    Stands w 0 .returned ∧ Stands w 1 .returned ∧ OneDefault w.shared.db.rows := by
  obtain ⟨w, hw, hfirst, hsecond⟩ := (cards exampleConfig).program.exists_reached
    (StepsMeet fun s i call c => takesDefaults s i call c = true)
    ([setDefaultOf "pm_1", setDefaultOf "pm_2"] ++ steps 0 10 ++ steps 1 10)
    (fun w => Stands w 0 .returned ∧ Stands w 1 .returned) (by decide)
  refine ⟨w, hfirst, hsecond, (one_default exampleConfig example_oneDefault).2 w ?_⟩
  exact (hw.strengthen fun w h => (follows.outline anyStep).holds h.reachable |>.shared).mono
    fun w l h => not_overlooks_of_takesDefaults h.2 h.1

/-- **Two default cards.** Two calls set the default; the second has looked for the old one before the
first commits. -/
theorem two_defaults : OneDefault exampleConfig.rows ∧ ∃ w : CardWorld,
    Reachable (cards exampleConfig).program.system w ∧ Stands w 0 .returned ∧
      Stands w 1 .returned ∧ ¬ OneDefault w.shared.db.rows := by
  obtain ⟨w, hw, hfirst, hsecond, hrow, hrow'⟩ := (cards exampleConfig).program.exists_reached anyStep
    ([setDefaultOf "pm_1", setDefaultOf "pm_2"] ++ steps 0 9 ++ steps 1 3 ++ steps 0 1 ++ steps 1 7)
    (fun w => Stands w 0 .returned ∧ Stands w 1 .returned ∧
      w.shared.db.rows ⟨.card, "pm_1"⟩ = some { exampleCard with isDefault := true } ∧
      w.shared.db.rows ⟨.card, "pm_2"⟩ = some { exampleCard with isDefault := true })
    (by decide)
  refine ⟨example_oneDefault, w, hw, hfirst, hsecond, fun hone => ?_⟩
  exact absurd (hone "pm_1" "pm_2" _ _ hrow hrow' ⟨rfl, rfl⟩ ⟨rfl, rfl⟩ rfl) (by decide)

end BackendFoundation.Stripe.DefaultCard
