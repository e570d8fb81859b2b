import Mathlib.Tactic.TypeStar

/-! # Calls to a remote store

A statement sent to a remote store can take effect and be answered, can fail without an effect, and
can take effect while its caller only sees an error: the connection broke after the commit.
`Outcome.run` applies one of the three to a call that would change the store from `s` to `s'`. -/

namespace BackendFoundation.Lib

inductive Outcome (ε : Type*)
  | ok
  /-- No effect, and the caller sees the error. -/
  | failed (e : ε)
  /-- The effect was committed, and the caller sees the error. -/
  | lost (e : ε)
deriving DecidableEq

namespace Outcome

variable {ε S P : Type*}

/-- The store after the call and where the caller goes on. -/
def run (o : Outcome ε) (s s' : S) (onOk : P) (onError : ε → P) : S × P :=
  match o with
  | ok => (s', onOk)
  | failed e => (s, onError e)
  | lost e => (s', onError e)

/-- A call that only reads. -/
def read (o : Outcome ε) (s : S) (onOk : P) (onError : ε → P) : S × P := o.run s s onOk onError

/-- The statement was committed, whatever its caller sees. -/
def TakesEffect : Outcome ε → Prop
  | ok | lost _ => True
  | failed _ => False

instance : DecidablePred (TakesEffect : Outcome ε → Prop) := fun o => by
  cases o <;> unfold TakesEffect <;> infer_instance

variable {s s' t : S} {p q : P} {f : ε → P} {o : Outcome ε}

theorem run_cases (h : o.run s s' p f = (t, q)) :
    (o = ok ∧ t = s' ∧ q = p) ∨ (∃ e, o = failed e ∧ t = s ∧ q = f e) ∨
      ∃ e, o = lost e ∧ t = s' ∧ q = f e := by
  cases o with
  | ok => exact .inl ⟨rfl, (congrArg Prod.fst h).symm, (congrArg Prod.snd h).symm⟩
  | failed e =>
    exact .inr (.inl ⟨e, rfl, (congrArg Prod.fst h).symm, (congrArg Prod.snd h).symm⟩)
  | lost e => exact .inr (.inr ⟨e, rfl, (congrArg Prod.fst h).symm, (congrArg Prod.snd h).symm⟩)

theorem read_cases (h : o.read s p f = (t, q)) :
    t = s ∧ ((o = ok ∧ q = p) ∨ ∃ e, (o = failed e ∨ o = lost e) ∧ q = f e) := by
  rcases run_cases h with ⟨ho, ht, hq⟩ | ⟨e, ho, ht, hq⟩ | ⟨e, ho, ht, hq⟩
  · exact ⟨ht, .inl ⟨ho, hq⟩⟩
  · exact ⟨ht, .inr ⟨e, .inl ho, hq⟩⟩
  · exact ⟨ht, .inr ⟨e, .inr ho, hq⟩⟩

/-- A relation between the store and the program point holds after a call if it holds at each of the
three ends. -/
theorem run_elim {r : S → P → Prop} (h : o.run s s' p f = (t, q)) (hok : r s' p)
    (hfailed : ∀ e, r s (f e)) (hlost : ∀ e, r s' (f e)) : r t q := by
  rcases run_cases h with ⟨-, rfl, rfl⟩ | ⟨e, -, rfl, rfl⟩ | ⟨e, -, rfl, rfl⟩
  · exact hok
  · exact hfailed e
  · exact hlost e

theorem run_pc (h : o.run s s' p f = (t, q)) : q = p ∨ ∃ e, q = f e := by
  rcases run_cases h with ⟨-, -, hq⟩ | ⟨e, -, -, hq⟩ | ⟨e, -, -, hq⟩
  · exact .inl hq
  · exact .inr ⟨e, hq⟩
  · exact .inr ⟨e, hq⟩

theorem run_effect (h : o.run s s' p f = (t, q)) : t = s ∨ (o.TakesEffect ∧ t = s') := by
  rcases run_cases h with ⟨rfl, ht, -⟩ | ⟨e, -, ht, -⟩ | ⟨e, rfl, ht, -⟩
  · exact .inr ⟨trivial, ht⟩
  · exact .inl ht
  · exact .inr ⟨trivial, ht⟩

end Outcome

end BackendFoundation.Lib
