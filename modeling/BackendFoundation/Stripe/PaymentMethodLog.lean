import BackendFoundation.Stripe.PaymentMethods

/-! # What the calls on saved cards write

`written` says, for each program point, what the transaction of the call has written; `lists` is that
the statements lead from one to the next. What a commit does to the row of a card is `CardWrite`. -/

namespace BackendFoundation.Stripe.PaymentMethodLog

open Lib.Database Lib.WriteLog Lib.Schema Lib.Services Lib.Logs Lib.Transact Errors Stripe.Objects
open Stripe.WebhookModel (PaymentMethod CardDetails OwnedBy attachedRow)
open Stripe.PaymentMethods
open Option (some.inj)

/-! ### The notes -/

abbrev CardEntry := Entry CardRow

/-- What the statements of the transaction have written so far. -/
def written : CardPc → List CardEntry
  | .setDefault attribution _ .set => [(clearDefault attribution).may]
  | .setDefault attribution id .findDefault | .setDefault attribution id .commit =>
    [(clearDefault attribution).may, (setDefault attribution id).must id]
  | .customer attribution _ (.commit (some id) true) =>
    [(clearDefault attribution).may, (projectDefault attribution id).must id]
  | .customer attribution _ (.set _) | .customer attribution _ (.commit _ _) =>
    [(clearDefault attribution).may]
  | .detach attribution id (.commit now) => [(detachOwned attribution id now).must id]
  | .save attribution _ id details .commit => [(projectAttached attribution id details).put]
  | .detached id (.commit now) => [(projectDetached id now).may]
  | _ => []

def notes : Notes CardRow CardPc := notesOf written fun _ => []

/-! ### The statements lead from one note to the next -/

variable {cfg : CardConfig} {site : Site CardKey} {reply : Reply CardRow} {pc pc' : CardPc}
  {stmt : CardStmt} {attribution : StripeAttribution} {id : String}

theorem ok_of_required {n : ℕ} (h : required n pc = .ok pc') : n ≠ 0 ∧ pc' = pc := by
  unfold required at h
  split_ifs at h with hn
  exact ⟨hn, (Except.ok.inj h).symm⟩

theorem ok_of_findOwned {rows : CardRows} (h : findOwned rows attribution id pc = .ok pc') :
    pc' = pc := by
  unfold findOwned at h
  split_ifs at h
  exact (Except.ok.inj h).symm

theorem set_leads {pc : SetPc} (hstmt : setStmt attribution id pc = some stmt)
    (h : setNext attribution id pc reply = some (.ok pc')) :
    Leads (written (.setDefault attribution id pc)) stmt reply (written pc') := by
  unfold setNext at h
  split at h <;> try cases hstmt
  · obtain rfl := ok_of_findOwned (some.inj h)
    exact .read
  · obtain rfl := point_inj h
    exact .write fun _ _ _ => Update.effect_may
  · obtain ⟨hn, rfl⟩ := ok_of_required (some.inj h)
    exact .write fun _ _ _ he => Update.effect_must he hn fun _ _ hu => (of_decide_eq_true hu).1
  · split_ifs at h
    · obtain rfl := point_inj h
      exact .read
    · cases h
  · exact .commit
  · cases h

theorem customer_leads {customerId : String} {pc : CustomerPc}
    (hstmt : customerStmt attribution customerId pc = some stmt)
    (h : customerNext attribution customerId pc reply = some (.ok pc')) :
    Leads (written (.customer attribution customerId pc)) stmt reply (written pc') := by
  unfold customerNext at h
  split at h <;> try cases hstmt
  · obtain rfl := point_inj h
    exact .lock
  · next defaultId _ =>
    obtain rfl := point_inj h
    cases defaultId <;> exact .write fun _ _ _ => Update.effect_may
  · next id n =>
    obtain rfl := point_inj h
    have hone : ∀ id' row, (projectDefault attribution id).cond id' row = true → id' = id :=
      fun _ _ hu => (of_decide_eq_true hu).1
    by_cases hn : n = 0
    · obtain rfl := hn
      exact .same fun _ _ _ he => Update.effect_same he Nat.zero_ne_one hone
    · rw [decide_eq_true hn]
      exact .write fun _ _ _ he => Update.effect_must he hn hone
  · exact .commit
  · cases h

theorem detach_leads {pc : DetachPc} (hstmt : detachStmt attribution id pc = some stmt)
    (h : detachNext site attribution id pc reply = some (.ok pc')) :
    Leads (written (.detach attribution id pc)) stmt reply (written pc') := by
  unfold detachNext at h
  split at h <;> try cases hstmt
  · obtain rfl := ok_of_findOwned (some.inj h)
    exact .read
  · obtain rfl := point_inj h
    exact .read
  · split_ifs at h
    · cases h
    · obtain rfl := point_inj h
      exact .read
  · obtain ⟨hn, rfl⟩ := ok_of_required (some.inj h)
    exact .write fun _ _ _ he => Update.effect_must he hn fun _ _ hu => (of_decide_eq_true hu).1
  · exact .commit
  · cases h

theorem save_leads {intentId : String} {details : CardDetails} {pc : SavePc}
    (hstmt : saveStmt attribution intentId id details pc = some stmt)
    (h : saveNext attribution intentId id details pc reply = some (.ok pc')) :
    Leads (written (.save attribution intentId id details pc)) stmt reply (written pc') := by
  unfold saveNext at h
  split at h <;> try cases hstmt
  · obtain rfl := point_inj h
    exact .lock
  · obtain rfl := point_inj h
    split_ifs with hn
    · obtain rfl := hn
      exact .same fun _ _ _ => Upsert.effect_missing
    · exact .write fun _ _ _ he => Upsert.effect_updated he hn
  · obtain rfl := point_inj h
    exact .write fun _ _ _ he =>
      (Upsert.effect_inserted he : (projectAttached attribution id details).put _ _ _)
  · exact .commit
  · cases h

theorem detached_leads {pc : DetachedPc} (hstmt : detachedStmt id pc = some stmt)
    (h : detachedNext site id pc reply = some (.ok pc')) :
    Leads (written (.detached id pc)) stmt reply (written pc') := by
  unfold detachedNext at h
  split at h <;> try cases hstmt
  · obtain rfl := point_inj h
    exact .lock
  · obtain rfl := point_inj h
    exact .write fun _ _ _ => Update.effect_may
  · exact .commit
  · cases h

theorem leads (hstmt : cardStmt pc = some stmt) (h : cardNext site pc reply = some (.ok pc')) :
    Leads (written pc) stmt reply (written pc') := by
  cases pc with
  | setDefault attribution id pc => exact set_leads hstmt h
  | customer attribution customerId pc => exact customer_leads hstmt h
  | detach attribution id pc => exact detach_leads hstmt h
  | save attribution intentId id details pc => exact save_leads hstmt h
  | detached id pc => exact detached_leads hstmt h
  | returned | thrown => cases hstmt

inductive Commit : CardPc → Prop
  | setDefault {attribution : StripeAttribution} {id : String} :
      Commit (.setDefault attribution id .commit)
  | customer {attribution : StripeAttribution} {customerId : String} {defaultId : Option String}
      {found : Bool} : Commit (.customer attribution customerId (.commit defaultId found))
  | detach {attribution : StripeAttribution} {id : String} {now : ℤ} :
      Commit (.detach attribution id (.commit now))
  | save {attribution : StripeAttribution} {intentId id : String} {details : CardDetails} :
      Commit (.save attribution intentId id details .commit)
  | detached {id : String} {now : ℤ} : Commit (.detached id (.commit now))

theorem commit_of_stmt (h : cardStmt pc = some .commit) : Commit pc := by
  cases pc with
  | setDefault attribution id pc =>
    cases pc with
    | commit => exact .setDefault
    | clear | set => exact absurd (some.inj h) Update.stmt_ne_commit
    | _ => cases h
  | customer attribution customerId pc =>
    cases pc with
    | commit => exact .customer
    | clear | set => exact absurd (some.inj h) Update.stmt_ne_commit
    | _ => cases h
  | detach attribution id pc =>
    cases pc with
    | commit => exact .detach
    | update => exact absurd (some.inj h) Update.stmt_ne_commit
    | _ => cases h
  | save attribution intentId id details pc =>
    cases pc with
    | commit => exact .save
    | update => exact absurd (some.inj h) Update.stmt_ne_commit
    | _ => cases h
  | detached id pc =>
    cases pc with
    | commit => exact .detached
    | update => exact absurd (some.inj h) Update.stmt_ne_commit
    | _ => cases h
  | returned | thrown => cases h

theorem returned_of_commit (hc : Commit pc) (h : cardNext site pc reply = some (.ok pc')) :
    pc' = .returned := by
  cases hc <;> cases reply <;> cases h <;> rfl

theorem outside_cases {m m' : Unit} (h : cardOutside site m pc = some (m', pc')) :
    (∃ attribution id, pc = .setDefault attribution id .updateCustomer ∧
      pc' = .setDefault attribution id .clear) ∨
      ∃ attribution id now, pc = .detach attribution id .detach ∧
        pc' = .detach attribution id (.update now) := by
  unfold cardOutside at h
  split at h
  · exact .inl ⟨_, _, rfl, ((Prod.mk.inj (some.inj h)).2).symm⟩
  · exact .inr ⟨_, _, _, rfl, ((Prod.mk.inj (some.inj h)).2).symm⟩
  · cases h

theorem lists : Lists (cards cfg) written fun _ => [] where
  listed := cfg.listed
  start now request := by cases request <;> exact ⟨rfl, rfl⟩
  leads site pc stmt reply pc' hstmt hnext := leads hstmt hnext
  held _ _ _ _ _ _ _ _ hk := nomatch hk
  commit site pc reply pc' hstmt hnext := by
    obtain rfl := returned_of_commit (commit_of_stmt hstmt) hnext
    exact ⟨rfl, rfl⟩
  outside site m pc m' pc' hout := by
    rcases outside_cases hout with ⟨attribution, id, rfl, rfl⟩ | ⟨attribution, id, now, rfl, rfl⟩ <;>
      exact ⟨rfl, rfl⟩
  thrown e := ⟨rfl, fun _ _ => rfl⟩

theorem follows : (cards cfg).Follows notes := lists.follows

/-! ### What a commit does to a row -/

structure Committed (pc : CardPc) (rows rows' : CardRows) : Prop where
  commit : Commit pc
  wrote : ∀ k, Entry.inTurn (written pc) k (rows k) (rows' k)

theorem Committed.of_commits {w w' : CardWorld} {i : ℕ} {c : Choice Thrown}
    {call : Caller CardRow CardPc} (h : (cards cfg).Commits notes w w' i c call) :
    Committed call.pc w.shared.db.rows w'.shared.db.rows :=
  ⟨commit_of_stmt h.stmt, h.wrote⟩

/-- The card that a commit has made the default, and its owner. -/
def makesDefault : CardPc → Option (StripeAttribution × String)
  | .setDefault attribution id .commit => some (attribution, id)
  | .customer attribution _ (.commit (some id) true) => some (attribution, id)
  | _ => none

/-- The card that a commit has detached. -/
def detaches : CardPc → Option String
  | .detach _ id (.commit _) | .detached id (.commit _) => some id
  | _ => none

/-- The card that a commit has saved, and its owner. -/
def saves : CardPc → Option (StripeAttribution × String)
  | .save attribution _ id _ .commit => some (attribution, id)
  | _ => none

/-- What a commit does to the row of a card. -/
inductive CardWrite (pc : CardPc) (id : String) :
    Option PaymentMethod → Option PaymentMethod → Prop
  | same {row : Option PaymentMethod} : CardWrite pc id row row
  | cleared {row : PaymentMethod} :
      CardWrite pc id (some row) (some { row with isDefault := false })
  | made {attribution : StripeAttribution} {row : PaymentMethod} :
      makesDefault pc = some (attribution, id) → owner row = ownerOf attribution →
      row.deletedAt = none → CardWrite pc id (some row) (some { row with isDefault := true })
  | saved {attribution : StripeAttribution} {details : CardDetails} {row : Option PaymentMethod} :
      saves pc = some (attribution, id) →
      CardWrite pc id row (some (attachedRow attribution details row))
  | detached {row : PaymentMethod} {now : ℤ} : detaches pc = some id →
      CardWrite pc id (some row)
        (some { row with detachedAt := some now, deletedAt := some now, isDefault := false })

variable {before after : Option PaymentMethod}

theorem CardWrite.of_clear {attribution : StripeAttribution}
    (h : (clearDefault attribution).may ⟨.card, id⟩ before after) :
    CardWrite pc id before after := by
  rcases Update.may_cases h with rfl | ⟨row, rfl, -, rfl⟩
  · exact .same
  · exact .cleared

theorem CardWrite.of_default {u : CardUpdate .card} {setId : String}
    (hu : ∀ row, u.data row = { row with isDefault := true })
    (hcond : ∀ row, u.cond setId row = true → owner row = ownerOf attribution ∧ row.deletedAt = none)
    (hmakes : makesDefault pc = some (attribution, setId))
    (h : Entry.inTurn [(clearDefault attribution).may, u.must setId] ⟨.card, id⟩ before after) :
    CardWrite pc id before after := by
  simp only [Entry.inTurn_cons, Entry.inTurn_nil] at h
  obtain ⟨between, hclear, last, hset, rfl⟩ := h
  rcases Update.must_cases hset with ⟨-, rfl⟩ | ⟨rfl, row, rfl, hrow, rfl⟩
  · exact .of_clear hclear
  · obtain ⟨howner, hlive⟩ := hcond row hrow
    rw [hu row]
    rcases Update.may_cases hclear with he | ⟨row', rfl, -, he⟩
    · obtain rfl := he
      exact .made hmakes howner hlive
    · obtain rfl := some.inj he
      exact .made hmakes howner hlive

theorem commit_card (hc : Commit pc)
    (h : Entry.inTurn (written pc) ⟨.card, id⟩ before after) : CardWrite pc id before after := by
  cases hc with
  | setDefault =>
    refine .of_default (fun _ => rfl) (fun row hrow => ?_) rfl h
    obtain ⟨-, howned, hlive⟩ := of_decide_eq_true hrow
    exact ⟨ownedBy_iff.mp howned, hlive⟩
  | @customer attribution customerId defaultId found =>
    cases defaultId with
    | none => exact .of_clear (Entry.inTurn_singleton.mp h)
    | some id =>
      cases found with
      | false => exact .of_clear (Entry.inTurn_singleton.mp h)
      | true =>
        refine .of_default (fun _ => rfl) (fun row hrow => ?_) rfl h
        obtain ⟨-, howned, -, hlive⟩ := of_decide_eq_true hrow
        exact ⟨ownedBy_iff.mp howned, hlive⟩
  | detach =>
    rcases Update.must_cases (Entry.inTurn_singleton.mp h) with ⟨-, rfl⟩ | ⟨rfl, row, rfl, -, rfl⟩
    · exact .same
    · exact .detached rfl
  | save =>
    rcases Upsert.put_cases (Entry.inTurn_singleton.mp h) with
      ⟨-, rfl⟩ | ⟨rfl, rfl, rfl⟩ | ⟨rfl, row, rfl, rfl⟩
    · exact .same
    · exact .saved rfl
    · exact .saved rfl
  | detached =>
    rcases Update.may_cases (Entry.inTurn_singleton.mp h) with rfl | ⟨row, rfl, hcond, rfl⟩
    · exact .same
    · obtain rfl := (of_decide_eq_true hcond).1
      exact .detached rfl

theorem Committed.card {rows rows' : CardRows} (h : Committed pc rows rows') (id : String) :
    CardWrite pc id (rows ⟨.card, id⟩) (rows' ⟨.card, id⟩) :=
  commit_card h.commit (h.wrote ⟨.card, id⟩)

end BackendFoundation.Stripe.PaymentMethodLog
