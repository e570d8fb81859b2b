import BackendFoundation.Lib.Interleave

/-! # A program inside another one

The processes of a program `T'` do what processes of `T` do, and other things besides: `part` is the
process of `T` that a process of `T'` has in it, if there is one, and `shared` the store of `T` in that
of `T'`. A process may give up its part, and then the process of `T` is one that has crashed.

A run of `T'` is a run of `T` in what it has of `T` (`Hosts.reachable`), so that what holds in every
run of `T` holds of the parts in every run of `T'`. -/

namespace BackendFoundation.Lib.Hosting

open Lib.Runs Lib.Interleave

variable {S P A C E S' P' A' C' E' : Type*}

/-- What a world of `T'` has of a world of `T`. -/
def inner (shared : S' → S) (part : P' → Option P) (w : World S' P') : World S P :=
  ⟨shared w.shared, w.procs.map (·.bind part)⟩

/-- What a step of a process does to its part: a step of `T`, nothing, or it gives the part up. -/
inductive PartStep (T : Program S P A C E) (s : S) (i : ℕ) : Option P → S → Option P → Prop
  | step {p q : P} {c : C} {t : S} : T.step s i p c = some (t, q) → PartStep T s i (some p) t (some q)
  | same {o : Option P} : PartStep T s i o s o
  | dropped {p : P} : PartStep T s i (some p) s none

/-- The obligations of a host. -/
structure Hosts (T : Program S P A C E) (T' : Program S' P' A' C' E') (shared : S' → S)
    (part : P' → Option P) : Prop where
  init : shared T'.init = T.init
  /-- Some process of `T` can start without an effect on the store. -/
  idle : ∀ s n, ∃ a p, T.spawn s n a = some (s, p)
  spawn : ∀ s n a t p, T'.spawn s n a = some (t, p) →
    match part p with
    | none => shared t = shared s
    | some q => ∃ b, T.spawn (shared s) n b = some (shared t, q)
  step : ∀ s i p c t q, T'.step s i p c = some (t, q) →
    PartStep T (shared s) i (part p) (shared t) (part q)
  env : ∀ s e t, T'.env s e = some t → shared t = shared s ∨ ∃ b, T.env (shared s) b = some (shared t)

variable {T : Program S P A C E} {T' : Program S' P' A' C' E'} {shared : S' → S}
  {part : P' → Option P} {w w' : World S' P'} {l : Label A' C' E'} {i : ℕ} {p : P'} {s : S'}

@[simp] theorem inner_shared : (inner shared part w).shared = shared w.shared := rfl

@[simp] theorem inner_fresh : (inner shared part w).fresh = w.fresh := List.length_map ..

theorem inner_proc? : (inner shared part w).proc? i = (w.proc? i).bind part := by
  unfold inner World.proc?
  rw [List.getElem?_map]
  cases w.procs[i]? with
  | none => rfl
  | some o => cases o <;> rfl

theorem inner_proc?_of_some {q : P} (hp : w.proc? i = some p) (hpart : part p = some q) :
    (inner shared part w).proc? i = some q := by
  rw [inner_proc?, hp]
  exact hpart

theorem inner_add : inner shared part (w.add s p) =
    ⟨shared s, (inner shared part w).procs ++ [part p]⟩ := by
  unfold inner World.add
  rw [List.map_append]
  rfl

theorem inner_put : inner shared part (w.put i s p) =
    ⟨shared s, (inner shared part w).procs.set i (part p)⟩ := by
  unfold inner World.put
  rw [List.map_set]
  rfl

theorem inner_kill : inner shared part (w.kill i) =
    ⟨shared w.shared, (inner shared part w).procs.set i none⟩ := by
  unfold inner World.kill
  rw [List.map_set]
  rfl

theorem set_self {w : World S P} {o : Option P} (hlt : i < w.fresh) (h : w.proc? i = o) :
    w.procs.set i o = w.procs := by
  refine List.ext_getElem? fun j => ?_
  by_cases hj : i = j
  · subst hj
    have hget : w.procs[i]? = some w.procs[i] := List.getElem?_eq_getElem hlt
    unfold World.proc? at h
    rw [hget, Option.join_some] at h
    rw [List.getElem?_set_self hlt, hget, h]
  · rw [List.getElem?_set_ne hj]

theorem path_of_move {w w' : World S P} {l : Label A C E} (h : T.Move w l w') :
    Path T.system anyStep w w' := .step (T := T.system) .refl trivial (Program.next_of_move h)

/-- A process of `T` that starts and crashes leaves its number used. -/
theorem path_idle (hidle : ∀ s n, ∃ a p, T.spawn s n a = some (s, p)) (w : World S P) :
    Path T.system anyStep w ⟨w.shared, w.procs ++ [none]⟩ := by
  obtain ⟨a, q, hspawn⟩ := hidle w.shared w.fresh
  have hself : (w.add w.shared q).proc? w.fresh = some q := World.proc?_add_self
  have hprocs : (w.add w.shared q).kill w.fresh = ⟨w.shared, w.procs ++ [none]⟩ := by
    unfold World.kill World.add World.fresh
    rw [List.set_append_right _ _ (Nat.le_refl _), Nat.sub_self]
    rfl
  rw [← hprocs]
  exact (path_of_move (.spawn hspawn)).trans (path_of_move (.crash hself))

/-- A process of `T` that has not crashed may crash. -/
theorem path_crash {w : World S P} (i : ℕ) (hlt : i < w.fresh) :
    Path T.system anyStep w ⟨w.shared, w.procs.set i none⟩ := by
  cases hp : w.proc? i with
  | none =>
    rw [set_self hlt hp]
    exact .refl
  | some q => exact path_of_move (.crash hp)

/-- **A step of the host** is a run of what it has in it. -/
theorem Hosts.path_next (h : Hosts T T' shared part) (hn : T'.next w l = some w') :
    Path T.system anyStep (inner shared part w) (inner shared part w') := by
  cases Program.move_of_next hn with
  | @spawn a t p hs =>
    rw [inner_add]
    have hspawn := h.spawn _ _ _ _ _ hs
    cases hpart : part p with
    | none =>
      rw [hpart] at hspawn
      rw [show shared t = shared w.shared from hspawn]
      exact path_idle h.idle _
    | some q =>
      rw [hpart] at hspawn
      obtain ⟨b, hb⟩ := hspawn
      have hspawn : T.spawn (inner shared part w).shared (inner shared part w).fresh b =
          some (shared t, q) := by
        rw [inner_shared, inner_fresh]
        exact hb
      exact path_of_move (.spawn hspawn)
  | @step i c p p' t hp hs =>
    rw [inner_put]
    have hlt : i < (inner shared part w).fresh := by
      rw [inner_fresh]
      exact World.lt_fresh hp
    have hproc : (inner shared part w).proc? i = part p := by
      rw [inner_proc?, hp]
      rfl
    have hpart := h.step _ _ _ _ _ _ hs
    generalize part p = o at hpart hproc
    generalize part p' = o' at hpart
    generalize hshared : shared t = t' at hpart
    cases hpart with
    | @step q q' c' _ hstep =>
      exact path_of_move (.step hproc hstep)
    | same =>
      rw [set_self hlt hproc]
      exact .refl
    | dropped => exact path_crash i hlt
  | @crash i p hp =>
    rw [inner_kill]
    refine path_crash i ?_
    rw [inner_fresh]
    exact World.lt_fresh hp
  | @env e t hs =>
    rcases h.env _ _ _ hs with hsame | ⟨b, hb⟩
    · have hinner : inner shared part (w.withShared t) = inner shared part w := by
        unfold inner World.withShared
        rw [hsame]
      rw [hinner]
      exact .refl
    · exact path_of_move (.env hb)

/-- **A run of the host** is a run of what it has in it. -/
theorem Hosts.reachable (h : Hosts T T' shared part) (hw : Reachable T'.system w) :
    Reachable T.system (inner shared part w) := by
  refine hw.invariant (I := fun w => Reachable T.system (inner shared part w)) (fun w hinit => ?_)
    (fun w w' l hreach _ hn => hreach.path (h.path_next hn))
  obtain rfl : w = ⟨T'.init, []⟩ := hinit
  refine .init ?_
  show inner shared part _ = _
  unfold inner
  rw [h.init]
  rfl

end BackendFoundation.Lib.Hosting
