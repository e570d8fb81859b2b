import BackendFoundation.Stripe.PaymentMethodLog

/-! # The last card

`detachPaymentMethod` refuses the last card of an owner with an active subscription. It counts the
cards before it calls Stripe, and detaches its card after that, so two calls can count the cards of
each other. An owner keeps a card in every run in which a call that passes the guard leaves one, other
than its own, that no call is about to detach (`Strands`).

Main result: `last_card`. -/

namespace BackendFoundation.Stripe.LastCard

open Lib.Runs Lib.Interleave Lib.Database Lib.Transact Lib.WriteLog Lib.Schema Lib.Services Lib.Logs
open Errors Stripe.Objects
open Stripe.WebhookModel (PaymentMethod OwnedBy)
open Stripe.PaymentMethods Stripe.PaymentMethodLog
open Option (some.inj)

structure CardOf (rows : CardRows) (o : BilledTo) (id : String) (row : PaymentMethod) : Prop where
  found : rows ⟨.card, id⟩ = some row
  owned : owner row = o
  attached : Attached row

/-- **The owner has an attached card.** -/
def HasCard (rows : CardRows) (o : BilledTo) : Prop := ∃ id row, CardOf rows o id row

/-- The owner has an active subscription. -/
def Subscribed (rows : CardRows) (o : BilledTo) : Prop :=
  ∃ (id : String) (subscription : Subscription), rows ⟨.subscription, id⟩ = some subscription ∧
    subscription.active o = true

/-! ### The calls -/

/-- The call is one of `detachPaymentMethod`; those of the owner have counted a subscription. -/
def Detaches (o : BilledTo) : CardPc → Prop
  | .detach attribution _ (.countMethods activeSubscriptions) =>
    ownerOf attribution = o → 0 < activeSubscriptions
  | .detach .. | .returned | .thrown _ => True
  | _ => False

/-- The call has passed the guard, and is about to detach this card of the owner. -/
def Detaching (o : BilledTo) : CardPc → String → Prop
  | .detach attribution detached .detach, id | .detach attribution detached (.update _), id
  | .detach attribution detached (.commit _), id => ownerOf attribution = o ∧ detached = id
  | _, _ => False

instance (o : BilledTo) (pc : CardPc) (id : String) : Decidable (Detaching o pc id) := by
  unfold Detaching
  split <;> infer_instance

variable {cfg : CardConfig} {o : BilledTo} {site : Site CardKey} {reply : Reply CardRow}
  {pc pc' : CardPc} {attribution : StripeAttribution} {id : String} {rows rows' : CardRows}

/-- The owner passes the guard with this card. -/
def Passes (o : BilledTo) (rows : CardRows) (keys : List CardKey) (pc : CardPc) (id : String) : Prop :=
  ∃ attribution activeSubscriptions, pc = .detach attribution id (.countMethods activeSubscriptions) ∧
    ownerOf attribution = o ∧ 2 ≤ countMethods rows keys attribution

theorem Passes.unique {keys keys' : List CardKey} {id' : String} (h : Passes o rows keys pc id)
    (h' : Passes o rows' keys' pc id') : id = id' := by
  obtain ⟨attribution, activeSubscriptions, rfl, -, -⟩ := h
  obtain ⟨attribution', activeSubscriptions', he, -, -⟩ := h'
  injection he

theorem countSubscriptions_pos {keys : List CardKey} (h : Subscribed rows (ownerOf attribution))
    (hlisted : ∀ k, rows k ≠ none → k ∈ keys) : 0 < countSubscriptions rows keys attribution := by
  obtain ⟨id, subscription, hfound, hactive⟩ := h
  refine List.length_pos_of_mem (a := (id, subscription)) (mem_findMany.mpr ⟨?_, hfound, hactive⟩)
  refine hlisted _ ?_
  rw [hfound]
  exact Option.some_ne_none _

/-- **What a reply leads to.** A call comes to detach a card by the guard. -/
theorem detach_next (h : Detaches o pc) (hnext : cardNext site pc reply = some (.ok pc'))
    (hreads : ∀ rows, cardStmt pc = some .read → reply = .rows rows →
      Subscribed rows o ∧ ∀ k, rows k ≠ none → k ∈ site.keys) :
    Detaches o pc' ∧ ∀ id, Detaching o pc' id → Detaching o pc id ∨
      ∃ rows, cardStmt pc = some .read ∧ reply = .rows rows ∧ Passes o rows site.keys pc id := by
  cases pc with
  | detach attribution detached pc =>
    change detachNext site attribution detached pc reply = some (.ok pc') at hnext
    unfold detachNext at hnext
    split at hnext
    · obtain rfl := ok_of_findOwned (some.inj hnext)
      exact ⟨trivial, fun id hid => hid.elim⟩
    · next rows =>
      obtain rfl := point_inj hnext
      obtain ⟨hsubscribed, hlisted⟩ := hreads rows rfl rfl
      refine ⟨fun howner => ?_, fun id hid => hid.elim⟩
      subst howner
      exact countSubscriptions_pos hsubscribed hlisted
    · next activeSubscriptions rows =>
      split_ifs at hnext with hlast
      · cases hnext
      · obtain rfl := point_inj hnext
        refine ⟨trivial, fun id ⟨howner, hid⟩ => .inr ⟨rows, rfl, rfl, ?_⟩⟩
        subst hid
        have hpos := h howner
        exact ⟨attribution, activeSubscriptions, rfl, howner, by omega⟩
    · obtain ⟨-, rfl⟩ := ok_of_required (some.inj hnext)
      exact ⟨trivial, fun id hid => .inl hid⟩
    · obtain rfl := point_inj hnext
      exact ⟨trivial, fun id hid => hid.elim⟩
    · cases hnext
  | returned | thrown => cases hnext
  | setDefault | customer | save | detached => cases h

theorem detaching_outside {m m' : Unit} (h : Detaches o pc)
    (hout : cardOutside site m pc = some (m', pc')) :
    Detaches o pc' ∧ ∀ id, Detaching o pc' id → Detaching o pc id := by
  rcases outside_cases hout with ⟨attribution, id, rfl, rfl⟩ | ⟨attribution, id, now, rfl, rfl⟩
  · cases h
  · exact ⟨trivial, fun id hid => hid⟩

/-! ### What a commit keeps -/

theorem subscription_of_commit (hc : Committed pc rows rows') (hd : Detaches o pc) (id : String) :
    rows' ⟨.subscription, id⟩ = rows ⟨.subscription, id⟩ := by
  obtain ⟨hcommit, hwrote⟩ := hc
  have hw := hwrote ⟨.subscription, id⟩
  cases hcommit with
  | detach =>
    have hmust := Entry.inTurn_singleton.mp hw
    exact (Update.must_of_ne (nofun : Relation.subscription ≠ .card)).mp hmust
  | setDefault | customer | save | detached => cases hd

theorem CardOf.commit {row : PaymentMethod} (h : CardOf rows o id row) (hd : Detaches o pc)
    (hc : Committed pc rows rows') (hno : ¬ Detaching o pc id) : CardOf rows' o id row := by
  obtain ⟨hcommit, hwrote⟩ := hc
  have hw := hwrote ⟨.card, id⟩
  rw [h.found] at hw
  cases hcommit with
  | @detach attribution detached now =>
    rcases Update.must_cases (Entry.inTurn_singleton.mp hw) with
      ⟨-, hafter⟩ | ⟨hid, row', hrow, hcond, -⟩
    · exact ⟨hafter, h.owned, h.attached⟩
    · obtain rfl := some.inj hrow
      obtain ⟨-, howned, -⟩ := of_decide_eq_true hcond
      exact absurd ⟨(ownedBy_iff.mp howned).symm.trans h.owned, hid.symm⟩ hno
  | setDefault | customer | save | detached => cases hd

/-! ### The invariant -/

/-- No call is about to detach this card. -/
def Spare (w : CardWorld) (o : BilledTo) (id : String) : Prop :=
  ∀ i call, w.proc? i = some call → ¬ Detaching o call.pc id

/-- **The owner has a card that no call is about to detach.** -/
structure Guarded (o : BilledTo) (w : CardWorld) : Prop where
  calls : ∀ i call, w.proc? i = some call → Detaches o call.pc
  subscribed : Subscribed w.shared.db.rows o
  spare : ∃ id row, CardOf w.shared.db.rows o id row ∧ Spare w o id

/-- A call that passes the guard leaves no card, other than its own, that no call is about to
detach. -/
def Strands (o : BilledTo) (w : CardWorld) : CardLabel → Prop
  | .step i c => c.fate = .executed ∧ ∃ call id, w.proc? i = some call ∧
    Passes o w.shared.db.rows w.shared.db.keys call.pc id ∧
    ∀ other row, other ≠ id → CardOf w.shared.db.rows o other row → ¬ Spare w o other
  | _ => False

/-- Only `detachPaymentMethod` is called. -/
def DetachesOnly : CardLabel → Prop
  | .spawn (.detachPaymentMethod _ _) => True
  | .spawn _ => False
  | _ => True

instance : DecidablePred DetachesOnly := fun l => by
  unfold DetachesOnly
  split <;> infer_instance

variable {w w' : CardWorld} {l : CardLabel}

theorem Guarded.hasCard (h : Guarded o w) : HasCard w.shared.db.rows o := by
  obtain ⟨id, row, hcard, -⟩ := h.spare
  exact ⟨id, row, hcard⟩

theorem Guarded.congr (h : Guarded o w) (hrows : w'.shared.db.rows = w.shared.db.rows)
    (hcalls : ∀ i call, w'.proc? i = some call → Detaches o call.pc ∧
      ∀ id, Detaching o call.pc id → ∃ call, w.proc? i = some call ∧ Detaching o call.pc id) :
    Guarded o w' := by
  obtain ⟨id, row, hcard, hspare⟩ := h.spare
  refine ⟨fun i call hp => (hcalls i call hp).1, hrows ▸ h.subscribed, id, row, hrows ▸ hcard, ?_⟩
  intro i call hp hid
  obtain ⟨call', hp', hid'⟩ := (hcalls i call hp).2 id hid
  exact hspare i call' hp' hid'

section Put

variable {i : ℕ} {call call' : Caller CardRow CardPc} {s : Store CardRow Unit}

theorem Guarded.put {other : String} {row : PaymentMethod} (h : Guarded o w)
    (hp : w.proc? i = some call) (hsubscribed : Subscribed s.db.rows o)
    (hdetaches : Detaches o call'.pc) (hcard : CardOf s.db.rows o other row)
    (hspare : Spare w o other) (hother : ¬ Detaching o call'.pc other) :
    Guarded o (w.put i s call') := by
  refine ⟨fun j callj hj => ?_, hsubscribed, other, row, hcard, fun j callj hj => ?_⟩
  · rcases World.proc?_put_cases hp hj with ⟨rfl, rfl⟩ | ⟨-, hj⟩
    · exact hdetaches
    · exact h.calls j callj hj
  · rcases World.proc?_put_cases hp hj with ⟨rfl, rfl⟩ | ⟨-, hj⟩
    · exact hother
    · exact hspare j callj hj

theorem Guarded.keep (h : Guarded o w) (hp : w.proc? i = some call)
    (hrows : s.db.rows = w.shared.db.rows)
    (hcall : Detaches o call'.pc ∧ ∀ id, Detaching o call'.pc id → Detaching o call.pc id) :
    Guarded o (w.put i s call') := by
  obtain ⟨id, row, hcard, hspare⟩ := h.spare
  exact h.put hp (hrows ▸ h.subscribed) hcall.1 (hrows ▸ hcard) hspare fun hid =>
    hspare i call hp (hcall.2 id hid)

theorem Guarded.commit (h : Guarded o w) (hp : w.proc? i = some call)
    (hc : Committed call.pc w.shared.db.rows s.db.rows)
    (hcall : Detaches o call'.pc ∧ ∀ id, ¬ Detaching o call'.pc id) :
    Guarded o (w.put i s call') := by
  have hdetaches := h.calls i call hp
  obtain ⟨subscriptionId, subscription, hfound, hactive⟩ := h.subscribed
  obtain ⟨id, row, hcard, hspare⟩ := h.spare
  refine h.put hp ⟨subscriptionId, subscription, ?_, hactive⟩ hcall.1
    (hcard.commit hdetaches hc (hspare i call hp)) hspare (hcall.2 id)
  rw [subscription_of_commit hc hdetaches]
  exact hfound

end Put

theorem startPc_detaches {request : CardRequest} (h : DetachesOnly (.spawn request)) :
    Detaches o (startPc request) ∧ ∀ id, ¬ Detaching o (startPc request) id := by
  cases request with
  | detachPaymentMethod attribution id => exact ⟨trivial, fun _ h => h⟩
  | _ => cases h

theorem written_of_read (hd : Detaches o pc) (hstmt : cardStmt pc = some .read) :
    written pc = [] := by
  cases pc with
  | detach attribution id pc =>
    cases pc with
    | commit => cases hstmt
    | _ => rfl
  | returned | thrown => rfl
  | setDefault | customer | save | detached => cases hd

theorem found_rows {s s' : Store CardRow Unit} {i : ℕ} {call call' : Caller CardRow CardPc}
    {c : Choice Thrown} {db : Db CardRow} {tx : Tx CardRow} (hdb : s.db.Listed)
    (hok : CallOk (cards cfg) notes i call s) (hs : (cards cfg).step s i call c = some (s', call'))
    (hd : Detaches o call.pc) (hstmt : (cards cfg).stmt call.pc = some .read)
    (hexec : exec s.db i call.tx .read = some (db, .replied tx (.rows rows))) :
    rows = s.db.rows := by
  have hat : (⟨fun _ => True, fun _ _ _ _ => True⟩ : Claims CardRow CardPc Unit).At
      (cards cfg) notes s i call :=
    ⟨hdb, trivial, hok.tx, hok.pointOk follows hs, trivial⟩
  refine hat.found (exec_live hexec (.inr ⟨_, rfl⟩)) hstmt (fun k before after hw => ?_) hexec
  have hnone : written call.pc = [] := written_of_read hd hstmt
  change Entry.inTurn (written call.pc) k before after at hw
  rw [hnone] at hw
  exact Entry.inTurn_nil.mp hw

theorem Guarded.step (h : Reachable (cards cfg).program.system w) (hw : Guarded o w)
    (honly : DetachesOnly l) (hno : ¬ Strands o w l)
    (hn : (cards cfg).program.next w l = some w') : Guarded o w' := by
  have hbase := (follows.outline anyStep).holds h
  cases Program.move_of_next hn with
  | spawn hs =>
    obtain ⟨rfl, rfl⟩ := pair_inj hs
    obtain ⟨hdetaches, hnone⟩ := startPc_detaches honly
    refine hw.congr rfl fun i call hp => ?_
    rcases World.proc?_add_cases hp with ⟨rfl, rfl⟩ | ⟨-, hp⟩
    · exact ⟨hdetaches, fun id hid => absurd hid (hnone id)⟩
    · exact ⟨hw.calls i call hp, fun id hid => ⟨call, hp, hid⟩⟩
  | crash _ =>
    refine hw.congr rfl fun i call hp => ?_
    have hp := (World.proc?_kill_cases hp).2
    exact ⟨hw.calls i call hp, fun id hid => ⟨call, hp, hid⟩⟩
  | @env e s hs =>
    have hrows : s.db.rows = w.shared.db.rows := by
      cases e with
      | tick ms =>
        obtain rfl := some.inj hs
        rfl
      | abort k =>
        obtain rfl := some.inj hs
        rfl
      | outside e => exact e.elim
    exact hw.congr hrows fun i call hp => ⟨hw.calls i call hp, fun id hid => ⟨call, hp, hid⟩⟩
  | @step i c call call' s hp hs =>
    have hok := hbase.proc i call hp
    have hdetaches := hw.calls i call hp
    cases Service.step_advance hok.tx hs with
    | threw hrows => exact hw.keep hp hrows ⟨trivial, fun id hid => hid.elim⟩
    | running _ _ hrows => exact hw.keep hp hrows ⟨hdetaches, fun id hid => hid⟩
    | outside _ hout => exact hw.keep hp rfl (detaching_outside hdetaches hout)
    | @replied stmt db tx reply pc hstmt hcommit hexec hnext hrows =>
      have hfound (rows : CardRows) (hread : cardStmt call.pc = some .read)
          (hreply : reply = .rows rows) : rows = w.shared.db.rows := by
        obtain rfl := some.inj (hstmt.symm.trans hread)
        subst hreply
        exact found_rows hbase.shared hok hs hdetaches hread hexec
      obtain ⟨hdetaches', hpasses⟩ := detach_next hdetaches hnext fun rows hread hreply => by
        rw [hfound rows hread hreply]
        exact ⟨hw.subscribed, hbase.shared⟩
      by_cases hcomes : ∃ id, Detaching o pc id ∧ ¬ Detaching o call.pc id
      · obtain ⟨id, hid, hnew⟩ := hcomes
        obtain ⟨rows, hread, hreply, hpass⟩ := (hpasses id hid).resolve_left hnew
        obtain rfl := hfound rows hread hreply
        have hexecuted : c.fate = .executed := by
          refine Service.executed_of_step hstmt hs (fun he => ?_) fun e he => ?_
          · rw [← he] at hnew
            exact hnew hid
          · change pc = .thrown e at he
            rw [he] at hid
            exact hid
        -- the call has left a card that no call is about to detach
        obtain ⟨other, row, hne, hcard, hspare⟩ : ∃ other row, other ≠ id ∧
            CardOf w.shared.db.rows o other row ∧ Spare w o other := by
          by_contra hall
          exact hno ⟨hexecuted, call, id, hp, hpass, fun other row hne hcard hspare =>
            hall ⟨other, row, hne, hcard, hspare⟩⟩
        refine hw.put hp (hrows ▸ hw.subscribed) hdetaches' (hrows ▸ hcard) hspare fun hother => ?_
        rcases hpasses other hother with hold | ⟨rows', -, -, hpass'⟩
        · exact hspare i call hp hold
        · exact hne (hpass'.unique hpass)
      · refine hw.keep hp hrows ⟨hdetaches', fun id hid => ?_⟩
        by_contra hnew
        exact hcomes ⟨id, hid, hnew⟩
    | @committed db tx pc hstmt hlive hc hrows hfits hpc =>
      have hcommitted := Committed.of_commits (follows.commits h hp hstmt hc hn)
      refine hw.commit hp hcommitted ?_
      rcases hpc with ⟨e, rfl⟩ | ⟨hnext, -⟩
      · exact ⟨trivial, fun _ hid => hid⟩
      · obtain rfl := returned_of_commit hcommitted.commit hnext
        exact ⟨trivial, fun _ hid => hid⟩

/-! ### The main result -/

/-- **An owner with an active subscription keeps a card**, in every run of `detachPaymentMethod` in
which each call that passes the guard leaves one, other than its own, that no call is about to
detach. -/
theorem last_card (cfg : CardConfig) (o : BilledTo) (hsubscribed : Subscribed cfg.rows o)
    (hcard : HasCard cfg.rows o) (w : CardWorld)
    (h : ReachableBy (cards cfg).program.system (fun w l => DetachesOnly l ∧ ¬ Strands o w l) w) :
    HasCard w.shared.db.rows o := by
  have hguarded : Guarded o w := by
    refine h.invariant' (I := Guarded o) ?_ ?_
    · rintro w rfl
      obtain ⟨id, row, hcard⟩ := hcard
      refine ⟨fun i call hp => ?_, hsubscribed, id, row, hcard, fun i call hp => ?_⟩
      · rw [World.proc?_empty] at hp
        cases hp
      · rw [World.proc?_empty] at hp
        cases hp
    · exact fun w w' l h hw hl hn => hw.step h.reachable hl.1 hl.2 hn
  exact hguarded.hasCard

/-! ### Runs -/

/-- Two cards of a user with an active subscription. -/
def exampleCards : String → Option PaymentMethod
  | "pm_0" | "pm_1" => some exampleCard
  | _ => none

def exampleSubscriptions : String → Option Subscription
  | "sub_0" => some { userId := "user", status := "active" }
  | _ => none

def exampleRows : CardRows
  | ⟨.card, id⟩ => exampleCards id
  | ⟨.subscription, id⟩ => exampleSubscriptions id
  | _ => none

def exampleConfig : CardConfig where
  rows := exampleRows
  keys := [⟨.card, "pm_0"⟩, ⟨.card, "pm_1"⟩, ⟨.subscription, "sub_0"⟩]
  listed k hk := by
    unfold exampleRows at hk
    split at hk
    · unfold exampleCards at hk
      split at hk <;> simp at hk ⊢
    · unfold exampleSubscriptions at hk
      split at hk <;> simp at hk ⊢
    · exact absurd rfl hk

theorem example_subscribed : Subscribed exampleConfig.rows (ownerOf exampleOwner) :=
  ⟨"sub_0", { userId := "user", status := "active" }, rfl, by decide⟩

theorem example_hasCard : HasCard exampleConfig.rows (ownerOf exampleOwner) :=
  ⟨"pm_0", exampleCard, rfl, rfl, by decide⟩

def detachOf (id : String) : CardLabel := .spawn (.detachPaymentMethod exampleOwner id)

theorem not_hasCard {keys : List CardKey} (hlisted : ∀ k, rows k ≠ none → k ∈ keys)
    (h : countMethods rows keys attribution = 0) : ¬ HasCard rows (ownerOf attribution) := by
  rintro ⟨id, row, hfound, howned, hattached⟩
  refine List.not_mem_nil (a := (id, row)) ?_
  rw [← List.eq_nil_of_length_eq_zero h, mem_findMany]
  refine ⟨hlisted _ ?_, hfound, decide_eq_true ⟨ownedBy_iff.mpr howned, hattached⟩⟩
  rw [hfound]
  exact Option.some_ne_none _

/-- A call that passes the guard leaves a card that no call is about to detach. -/
def leavesCard (o : BilledTo) (w : CardWorld) : CardPc → Bool
  | .detach attribution id (.countMethods _) =>
    countMethods w.shared.db.rows w.shared.db.keys attribution < 2 ∨
      findMany w.shared.db.rows w.shared.db.keys .card (fun other row => other ≠ id ∧
        owner row = o ∧ Attached row ∧ ∀ j < w.fresh, ∀ call ∈ w.proc? j,
          ¬ Detaching o call.pc other) ≠ []
  | _ => true

def spares (o : BilledTo) (w : CardWorld) : CardLabel → Bool
  | .step i _ => (w.proc? i).all fun call => leavesCard o w call.pc
  | _ => true

theorem not_strands_of_spares (h : spares o w l = true) : ¬ Strands o w l := by
  cases l with
  | step i c =>
    rintro ⟨-, call, id, hp, ⟨attribution, activeSubscriptions, hpc, -, hcount⟩, hall⟩
    have hleaves : (w.proc? i).all (fun call => leavesCard o w call.pc) = true := h
    rw [hp, Option.all_some, hpc] at hleaves
    rcases of_decide_eq_true hleaves with hlast | hother
    · omega
    · obtain ⟨⟨other, row⟩, hmem⟩ := List.exists_mem_of_ne_nil _ hother
      obtain ⟨-, hfound, hcond⟩ := mem_findMany.mp hmem
      obtain ⟨hne, howned, hattached, hspare⟩ := of_decide_eq_true hcond
      exact hall other row hne ⟨hfound, howned, hattached⟩ fun j callj hj =>
        hspare j (World.lt_fresh hj) callj hj
  | _ => exact id

def lastRefused : CardPc := .thrown lastMethod

/-- A card is detached, and the last one is refused. -/
theorem last_card_refused : ∃ w : CardWorld, Stands w 0 .returned ∧ Stands w 1 lastRefused ∧
    HasCard w.shared.db.rows (ownerOf exampleOwner) := by
  obtain ⟨w, hw, hdetached, hrefused⟩ := (cards exampleConfig).program.exists_reached
    (fun w l => DetachesOnly l ∧ spares (ownerOf exampleOwner) w l = true)
    ([detachOf "pm_0", detachOf "pm_1"] ++ steps 0 8 ++ steps 1 3)
    (fun w => Stands w 0 .returned ∧ Stands w 1 lastRefused) (by decide)
  exact ⟨w, hdetached, hrefused, last_card exampleConfig (ownerOf exampleOwner) example_subscribed
    example_hasCard w (hw.mono fun _ _ hl => ⟨hl.1, not_strands_of_spares hl.2⟩)⟩

/-- **No card is left.** Two calls count two cards, and each detaches one. -/
theorem no_card_left : Subscribed exampleConfig.rows (ownerOf exampleOwner) ∧
    HasCard exampleConfig.rows (ownerOf exampleOwner) ∧ ∃ w : CardWorld,
      ReachableBy (cards exampleConfig).program.system (fun _ l => DetachesOnly l) w ∧
        Stands w 0 .returned ∧ Stands w 1 .returned ∧
          ¬ HasCard w.shared.db.rows (ownerOf exampleOwner) := by
  obtain ⟨w, hw, hfirst, hsecond, hcount⟩ := (cards exampleConfig).program.exists_reached
    (fun _ l => DetachesOnly l)
    ([detachOf "pm_0", detachOf "pm_1"] ++ steps 0 3 ++ steps 1 3 ++ steps 0 5 ++ steps 1 5)
    (fun w => Stands w 0 .returned ∧ Stands w 1 .returned ∧
      countMethods w.shared.db.rows w.shared.db.keys exampleOwner = 0) (by decide)
  exact ⟨example_subscribed, example_hasCard, w, hw, hfirst, hsecond,
    not_hasCard ((follows.outline anyStep).holds hw.reachable).shared hcount⟩

end BackendFoundation.Stripe.LastCard
