import Mathlib.Tactic.Common

/-! # Tasks over a state

A task runs on a state and returns, throws, or is still running when its fuel is used up; what it has
changed stays changed in every case. `Task.on` runs a task on a part of a larger state.

Rules: `bind_eq_ok` and `on_eq_ok` take a task that has returned apart, `bind_apply` runs its first
part, `Returns` is that it does return, and `Keeps` that an assertion survives it however it ends. -/

namespace BackendFoundation.Lib.Tasks

/-- Why a task has not returned. -/
inductive Stop (ε : Type)
  | threw (e : ε)
  | running
deriving DecidableEq

abbrev Task (ε S α : Type) := EStateM (Stop ε) S α

variable {ε S T α β : Type}

/-- The state that a task leaves. -/
def after (x : Task ε S α) (s : S) : S :=
  match x s with
  | .ok _ t => t
  | .error _ t => t

def throwing (e : ε) : Task ε S α := fun s => .error (.threw e) s

def stillRunning : Task ε S α := fun s => .error .running s

def ofExcept : Except ε α → Task ε S α
  | .ok a => pure a
  | .error e => throwing e

/-- A task on a part of the state. -/
def on (get : S → T) (set : S → T → S) (x : Task ε T α) : Task ε S α := fun s =>
  match x (get s) with
  | .ok a t => .ok a (set s t)
  | .error e t => .error e (set s t)

variable {x : Task ε S α} {f : α → Task ε S β} {s t u : S} {a : α} {b : β} {get : S → T}
  {set : S → T → S} {y : Task ε T α} {e : ε} {r : Except ε α}

/-! ### Tasks that have returned -/

theorem bind_eq_ok : (x >>= f) s = .ok b u ↔ ∃ a t, x s = .ok a t ∧ f a t = .ok b u := by
  show EStateM.bind x f s = _ ↔ _
  unfold EStateM.bind
  split
  · next a t h => simp [h]
  · next e t h => simp [h]

theorem bind_apply (h : x s = .ok a t) : (x >>= f) s = f a t := by
  show EStateM.bind x f s = _
  unfold EStateM.bind
  rw [h]

theorem pure_eq_ok {a' : α} : (pure a : Task ε S α) s = .ok a' u ↔ a = a' ∧ s = u := by
  show EStateM.Result.ok a s = .ok a' u ↔ _
  simp

theorem on_eq_ok : on get set y s = .ok a u ↔ ∃ t, y (get s) = .ok a t ∧ u = set s t := by
  unfold on
  split
  · next a' t h => simp [h, and_comm, eq_comm]
  · next e t h => simp [h]

/-- The task returns. -/
def Returns (x : Task ε S α) (s : S) : Prop := ∃ a t, x s = .ok a t

theorem Returns.bind (hx : Returns x s) (hf : ∀ a t, x s = .ok a t → Returns (f a) t) :
    Returns (x >>= f) s := by
  obtain ⟨a, t, ha⟩ := hx
  obtain ⟨b, u, hb⟩ := hf a t ha
  exact ⟨b, u, bind_eq_ok.mpr ⟨a, t, ha, hb⟩⟩

theorem Returns.on (h : Returns y (get s)) : Returns (on get set y) s := by
  obtain ⟨a, t, ht⟩ := h
  exact ⟨a, set s t, on_eq_ok.mpr ⟨t, ht, rfl⟩⟩

/-! ### What a task keeps -/

/-- An assertion about the state survives the task, however it ends. -/
def Keeps (x : Task ε S α) (I : S → Prop) : Prop := ∀ s, I s → I (after x s)

variable {I : S → Prop}

theorem keeps_pure : Keeps (pure a : Task ε S α) I := fun _ h => h

theorem keeps_throwing : Keeps (throwing e : Task ε S α) I := fun _ h => h

theorem keeps_stillRunning : Keeps (stillRunning : Task ε S α) I := fun _ h => h

theorem Keeps.bind (hx : Keeps x I) (hf : ∀ a, Keeps (f a) I) : Keeps (x >>= f) I := by
  intro s hs
  have hx' := hx s hs
  unfold after at hx' ⊢
  show I (match EStateM.bind x f s with
    | .ok _ t => t
    | .error _ t => t)
  unfold EStateM.bind
  split at hx'
  · next a t h =>
    rw [h]
    exact hf a t hx'
  · next e t h =>
    rw [h]
    exact hx'

theorem keeps_on (h : ∀ s, I s → I (set s (after y (get s)))) : Keeps (on get set y) I := by
  intro s hs
  have hs' := h s hs
  unfold after at hs' ⊢
  unfold on
  split at hs'
  · exact hs'
  · exact hs'

end BackendFoundation.Lib.Tasks
