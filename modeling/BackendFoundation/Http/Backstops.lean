import BackendFoundation.Http.Limits

/-! # What the rate limits admit

The runs of the script on a key are tickets of a counter of fixed windows, as long as Redis does not
lose the key and those who count there agree on the window. A call that fails closed passes only with a
ticket up to its limit (`CallOk`), also where an answer of Redis is lost.

Main results: `passed_bounded`, and for the backstops of the authentication `backstops_bounded` and
`backstops_exact`. -/

namespace BackendFoundation.Http.Backstops

open Errors Lib Lib.Runs Lib.Interleave
open Lib.FixedWindow (Counter Ticket take ticket Kept Filled)
open Http.RateLimit Http.Limits
open Http.ClientIp (Text clientIpKey)

variable {hash : Text → Text} {fallback : BoundedRateLimitFallback} {s t : LimitState}
  {w w' : LimitWorld} {l : LimitLabel} {i j node : ℕ} {call : BucketCall} {pc : CallPc} {key : Text}

/-! ### Steps -/

/-- The counters and the runs are the same. -/
structure Unchanged (s t : LimitState) : Prop where
  now : t.now = s.now
  redis : t.redis = s.redis
  executed : t.executed = s.executed

theorem Unchanged.refl (s : LimitState) : Unchanged s s := ⟨rfl, rfl, rfl⟩

inductive CallMove (hash : Text → Text) (s : LimitState) (i j : ℕ) (call : BucketCall) :
    LimitState → CallPc → Prop
  | counted (hpc : call.pc = .eval) {pc : CallPc} (hpc' : pc = .failed ∨ ∃ ttl, pc = .answered
      (incremented s (rateKey hash call.bucket) call.bucket.windowMs).count ttl) :
    CallMove hash s i j call
      (incrementScript s (rateKey hash call.bucket) call.bucket.windowMs i j) pc
  | failed (hpc : call.pc = .eval) : CallMove hash s i j call s .failed
  | settled {count ttl : ℕ} {t : LimitState} {retryAfterSeconds : ℚ}
    (hpc : call.pc = .answered count ttl) (hsame : Unchanged s t) :
    CallMove hash s i j call t (settle count call.bucket.limit retryAfterSeconds)
  | denied (hpc : call.pc = .failed) :
    CallMove hash s i j call s (.thrown .serviceUnavailable)
  | local {t : LimitState} {pc : CallPc} (hpc : call.pc = .failed)
    (hmode : call.bucket.redisFailureMode = .fallback) (hsame : Unchanged s t)
    (hpc' : (∃ result, pc = .passed result) ∨ ∃ rejection, pc = .thrown rejection) :
    CallMove hash s i j call t pc

theorem settle_cases (count limit : ℕ) (retryAfterSeconds : ℚ) :
    (count ≤ limit ∧ ∃ result, settle count limit retryAfterSeconds = .passed result) ∨
      (limit < count ∧ settle count limit retryAfterSeconds =
        .thrown (.rateLimited retryAfterSeconds)) := by
  unfold settle
  split_ifs with h
  · exact .inr ⟨h, rfl⟩
  · exact .inl ⟨Nat.not_lt.mp h, _, rfl⟩

theorem callMove_of_step {c : LimitChoice} (h : callStep hash s i node call c = some (t, pc)) :
    CallMove hash s i c.call call t pc := by
  cases hpc : call.pc with
  | eval =>
    simp only [callStep, hpc, Option.some.injEq] at h
    rcases Outcome.run_cases h with ⟨-, rfl, rfl⟩ | ⟨-, -, rfl, rfl⟩ | ⟨-, -, rfl, rfl⟩
    · exact .counted hpc (.inr ⟨_, rfl⟩)
    · exact .failed hpc
    · exact .counted hpc (.inl rfl)
  | answered count ttl =>
    simp only [callStep, hpc, Option.some.injEq] at h
    cases h
    exact .settled hpc ⟨rfl, rfl, rfl⟩
  | failed =>
    simp only [callStep, hpc] at h
    split at h
    · cases h
      exact .denied hpc
    · cases h
      refine .local hpc ‹_› ⟨rfl, rfl, rfl⟩ ?_
      rcases settle_cases _ _ _ with ⟨-, hpassed⟩ | ⟨-, hthrown⟩
      · exact .inl hpassed
      · exact .inr ⟨_, hthrown⟩
  | passed _ | thrown _ =>
    simp only [callStep, hpc] at h
    cases h

/-- What a step does to the counters. -/
inductive CounterStep (hash : Text → Text) (w : LimitWorld) : LimitLabel → LimitState → Prop
  | same {l : LimitLabel} {t : LimitState} (hsame : Unchanged w.shared t) : CounterStep hash w l t
  | counted {i : ℕ} {c : LimitChoice} {request : Request} {call : BucketCall}
    (hp : w.proc? i = some request) (hcall : request.calls[c.call]? = some call) :
    CounterStep hash w (.step i c)
      (incrementScript w.shared (rateKey hash call.bucket) call.bucket.windowMs i c.call)
  | tick {ms : ℕ} : CounterStep hash w (.env (.tick ms)) { w.shared with now := w.shared.now + ms }
  | lost {key : Text} :
    CounterStep hash w (.env (.lose key)) { w.shared with redis := w.shared.redis.erase key }

theorem counterStep (hn : (limits hash fallback).next w l = some w') :
    CounterStep hash w l w'.shared := by
  cases Program.move_of_next hn with
  | spawn hs =>
    cases hs
    exact .same (.refl _)
  | @step i c p p' t hp hs =>
    simp only [limits, requestStep] at hs
    split at hs
    · cases hs
    · rename_i call hcall
      obtain ⟨⟨t', pc⟩, hstep, he⟩ := Option.map_eq_some_iff.mp hs
      cases he
      cases callMove_of_step hstep with
      | counted _ _ => exact .counted hp hcall
      | failed _ | denied _ => exact .same (.refl _)
      | settled _ hsame | «local» _ _ hsame _ => exact .same hsame
  | crash _ => exact .same (.refl _)
  | @env e t hs =>
    cases e with
    | tick ms =>
      cases hs
      exact .tick
    | lose key =>
      cases hs
      exact .lost

/-! ### The tickets of a key -/

/-- The runs of the script on a key. -/
def tickets (s : LimitState) (key : Text) : List Ticket :=
  (s.executed.filter (·.key = key)).map Executed.ticket

theorem tickets_incrementScript {windowMs : ℕ} (key' : Text) :
    tickets (incrementScript s key windowMs i j) key' = tickets s key' ++
      if key = key' then [ticket s.now (incremented s key windowMs)] else [] := by
  unfold tickets incrementScript
  rw [List.filter_append, List.map_append, List.filter_singleton]
  by_cases he : key = key'
  · rw [decide_eq_true he, if_pos he]
    rfl
  · rw [decide_eq_false he, if_neg he]
    rfl

theorem filled (h : Reachable (limits hash fallback).system w) (key : Text) :
    Filled (w.shared.redis key) (tickets w.shared key) := by
  refine h.invariant (I := fun w => Filled (w.shared.redis key) (tickets w.shared key)) (fun w hw => ?_)
    (fun w w' l hok _ hn => ?_)
  · obtain rfl : w = ⟨_, []⟩ := hw
    exact .new
  · have hstep := counterStep hn
    generalize w'.shared = t at hstep
    cases hstep with
    | same hsame =>
      unfold tickets
      rw [hsame.redis, hsame.executed]
      exact hok
    | @counted i c request call hp hcall =>
      rw [tickets_incrementScript]
      by_cases he : rateKey hash call.bucket = key
      · subst he
        rw [if_pos rfl]
        show Filled ((w.shared.redis.set _ _) _) _
        rw [Table.set_self]
        exact hok.take _ _
      · rw [if_neg he, List.append_nil]
        show Filled ((w.shared.redis.set _ _) _) _
        rw [Table.set_of_ne (Ne.symm he)]
        exact hok
    | tick => exact hok
    | @lost key' =>
      show Filled (w.shared.redis.erase key' key) _
      by_cases he : key = key'
      · rw [he, Table.erase_self]
        exact (he ▸ hok).lost
      · rw [Table.erase_of_ne he]
        exact hok

/-- Those who count in the bucket of the key agree on its window, and Redis does not lose the key. -/
def Agreed (hash : Text → Text) (key : Text) (windowMs : ℕ) (_ : LimitWorld) : LimitLabel → Prop
  | .spawn a => ∀ bucket ∈ a.list, rateKey hash bucket = key → bucket.windowMs = windowMs
  | .env (.lose key') => key' ≠ key
  | _ => True

/-- The calls on the key have its window. -/
def Windows (hash : Text → Text) (key : Text) (windowMs : ℕ) (w : LimitWorld) : Prop :=
  ∀ (i : ℕ) (request : Request), w.proc? i = some request → ∀ call ∈ request.calls,
    rateKey hash call.bucket = key → call.bucket.windowMs = windowMs

variable {windowMs : ℕ}

theorem buckets_requestStep {request request' : Request} {c : LimitChoice}
    (h : requestStep hash s i request c = some (t, request')) :
    request'.calls.map (·.bucket) = request.calls.map (·.bucket) := by
  unfold requestStep at h
  split at h
  · cases h
  · rename_i call hcall
    obtain ⟨r, -, he⟩ := Option.map_eq_some_iff.mp h
    cases he
    rw [List.map_set]
    refine List.ext_getElem? fun k => ?_
    rw [List.getElem?_set]
    split_ifs with hk hlt
    · rw [← hk, List.getElem?_map, hcall]
      rfl
    · rw [← hk, List.getElem?_eq_none (Nat.not_lt.mp hlt)]
    · rfl

theorem windows_next (h : Windows hash key windowMs w) (hg : Agreed hash key windowMs w l)
    (hn : (limits hash fallback).next w l = some w') : Windows hash key windowMs w' := by
  intro i request hp call hcall hkey
  have hold {request : Request} (hp : w.proc? i = some request) {bucket : Bucket}
      (hbucket : bucket ∈ request.calls.map (·.bucket)) (hkey : rateKey hash bucket = key) :
      bucket.windowMs = windowMs := by
    obtain ⟨call, hcall, rfl⟩ := List.mem_map.mp hbucket
    exact h i request hp call hcall hkey
  have hbucket : call.bucket ∈ request.calls.map (·.bucket) := List.mem_map_of_mem hcall
  cases Program.move_of_next hn with
  | @spawn a s p hs =>
    cases hs
    rcases World.proc?_add_cases hp with ⟨-, rfl⟩ | ⟨-, hp⟩
    · obtain ⟨bucket, hmem, rfl⟩ := List.mem_map.mp hcall
      exact hg bucket hmem hkey
    · exact hold hp hbucket hkey
  | step hq hs =>
    rcases World.proc?_put_cases hq hp with ⟨rfl, rfl⟩ | ⟨-, hp⟩
    · rw [buckets_requestStep hs] at hbucket
      exact hold hq hbucket hkey
    · exact hold hp hbucket hkey
  | crash _ => exact hold (World.proc?_kill_cases hp).2 hbucket hkey
  | env _ => exact hold hp hbucket hkey

/-- **The runs on a key that is not lost** are tickets of one counter. -/
theorem kept (h : ReachableBy (limits hash fallback).system (Agreed hash key windowMs) w) :
    Kept windowMs w.shared.now (w.shared.redis key) (tickets w.shared key) ∧
      Windows hash key windowMs w := by
  refine h.invariant (I := fun w => Kept windowMs w.shared.now (w.shared.redis key)
    (tickets w.shared key) ∧ Windows hash key windowMs w) (fun w hw => ?_) (fun w w' l hok hg hn => ?_)
  · obtain rfl : w = ⟨_, []⟩ := hw
    exact ⟨.new _ _, fun i request hp => by cases World.proc?_empty.symm.trans hp⟩
  · obtain ⟨hok, hwindows⟩ := hok
    refine ⟨?_, windows_next hwindows hg hn⟩
    have hstep := counterStep hn
    generalize w'.shared = t at hstep
    cases hstep with
    | same hsame =>
      unfold tickets
      rw [hsame.redis, hsame.executed, hsame.now]
      exact hok
    | @counted i c request call hp hcall =>
      rw [tickets_incrementScript]
      by_cases he : rateKey hash call.bucket = key
      · have hwindow := hwindows i request hp call (List.mem_of_getElem? hcall) he
        subst he
        rw [if_pos rfl, ← hwindow]
        show Kept _ _ ((w.shared.redis.set _ _) _) _
        rw [Table.set_self]
        exact (hwindow ▸ hok).take
      · rw [if_neg he, List.append_nil]
        show Kept _ _ ((w.shared.redis.set _ _) _) _
        rw [Table.set_of_ne (Ne.symm he)]
        exact hok
    | tick => exact hok.later (Nat.le_add_right _ _)
    | lost =>
      show Kept _ _ (w.shared.redis.erase _ key) _
      rw [Table.erase_of_ne (Ne.symm hg)]
      exact hok

/-! ### The calls -/

/-- The run of the script for a call. -/
def Ran (s : LimitState) (i j : ℕ) (key : Text) (count : ℕ) : Prop :=
  ∃ e ∈ s.executed, e.request = i ∧ e.call = j ∧ e.key = key ∧ e.ticket.count = count

/-- **What a call knows.** One that fails closed has passed, or is refused for its count, by the number
that its run was given. -/
def CallOk (hash : Text → Text) (s : LimitState) (i j : ℕ) (call : BucketCall) : Prop :=
  match call.pc with
  | .eval => ∀ e ∈ s.executed, ¬ (e.request = i ∧ e.call = j)
  | .answered count _ => Ran s i j (rateKey hash call.bucket) count
  | .passed _ => call.bucket.redisFailureMode = .deny →
    ∃ count ≤ call.bucket.limit, Ran s i j (rateKey hash call.bucket) count
  | .thrown (.rateLimited _) => call.bucket.redisFailureMode = .deny →
    ∃ count, call.bucket.limit < count ∧ Ran s i j (rateKey hash call.bucket) count
  | .failed | .thrown .serviceUnavailable => True

/-- What holds of the runs and the calls. -/
structure CallsOk (hash : Text → Text) (w : LimitWorld) : Prop where
  calls : ∀ (i j : ℕ) (request : Request) (call : BucketCall), w.proc? i = some request →
    request.calls[j]? = some call → CallOk hash w.shared i j call
  known : ∀ e ∈ w.shared.executed, e.request < w.fresh
  unique : w.shared.executed.Pairwise fun e e' => ¬ (e.request = e'.request ∧ e.call = e'.call)

theorem Ran.mono {count : ℕ} (h : Ran s i j key count)
    (hsub : ∀ e ∈ s.executed, e ∈ t.executed) : Ran t i j key count := by
  obtain ⟨e, he, hrest⟩ := h
  exact ⟨e, hsub e he, hrest⟩

theorem CallOk.mono (h : CallOk hash s i j call) (hsub : ∀ e ∈ s.executed, e ∈ t.executed)
    (hnew : ∀ e ∈ t.executed, e ∈ s.executed ∨ ¬ (e.request = i ∧ e.call = j)) :
    CallOk hash t i j call := by
  unfold CallOk at h ⊢
  split at h
  · intro e he hij
    exact (hnew e he).elim (fun hold => h e hold hij) fun hne => hne hij
  · exact h.mono hsub
  · intro hmode
    obtain ⟨count, hle, hran⟩ := h hmode
    exact ⟨count, hle, hran.mono hsub⟩
  · intro hmode
    obtain ⟨count, hlt, hran⟩ := h hmode
    exact ⟨count, hlt, hran.mono hsub⟩
  · trivial
  · trivial

theorem CallMove.executed (h : CallMove hash s i j call t pc) :
    t.executed = s.executed ∨ (call.pc = .eval ∧ ∃ e, e.request = i ∧ e.call = j ∧
      t.executed = s.executed ++ [e]) := by
  cases h with
  | counted hpc _ => exact .inr ⟨hpc, _, rfl, rfl, rfl⟩
  | failed _ | denied _ => exact .inl rfl
  | settled _ hsame | «local» _ _ hsame _ => exact .inl hsame.executed

theorem CallOk.move (h : CallOk hash s i j call) (hmove : CallMove hash s i j call t pc) :
    CallOk hash t i j { call with pc } := by
  cases hmove with
  | counted hpc hpc' =>
    rcases hpc' with rfl | ⟨ttl, rfl⟩
    · trivial
    · exact ⟨_, List.mem_append_right _ List.mem_cons_self, rfl, rfl, rfl, rfl⟩
  | failed _ | denied _ => trivial
  | @settled count ttl t retryAfterSeconds hpc hsame =>
    have hran : Ran t i j (rateKey hash call.bucket) count := by
      unfold CallOk at h
      rw [hpc] at h
      exact Ran.mono h fun e he => hsame.executed ▸ he
    rcases settle_cases count call.bucket.limit retryAfterSeconds with ⟨hle, result, he⟩ | ⟨hlt, he⟩ <;>
      rw [he]
    · exact fun _ => ⟨count, hle, hran⟩
    · exact fun _ => ⟨count, hlt, hran⟩
  | «local» _ hmode _ hpc' =>
    have hnot : ¬ call.bucket.redisFailureMode = .deny := by
      rw [hmode]
      exact nofun
    rcases hpc' with ⟨result, rfl⟩ | ⟨rejection, rfl⟩
    · exact fun hdeny => absurd hdeny hnot
    · cases rejection with
      | serviceUnavailable => trivial
      | rateLimited _ => exact fun hdeny => absurd hdeny hnot

theorem CallsOk.same (h : CallsOk hash w) (hexecuted : t.executed = w.shared.executed)
    (hcalls : ∀ (i j : ℕ) (request : Request) (call : BucketCall), w'.proc? i = some request →
      request.calls[j]? = some call → (∃ request, w.proc? i = some request ∧
        request.calls[j]? = some call) ∨ (call.pc = .eval ∧ w.fresh ≤ i))
    (hshared : w'.shared = t) (hfresh : w.fresh ≤ w'.fresh) : CallsOk hash w' := by
  subst hshared
  refine ⟨fun i j request call hp hcall => ?_, fun e he => ?_, hexecuted ▸ h.unique⟩
  · rcases hcalls i j request call hp hcall with ⟨request', hp', hcall'⟩ | ⟨hpc, hnew⟩
    · refine (h.calls i j request' call hp' hcall').mono (fun e he => hexecuted ▸ he) fun e he => ?_
      exact .inl (hexecuted ▸ he)
    · unfold CallOk
      rw [hpc]
      rintro e he ⟨rfl, -⟩
      exact absurd (h.known e (hexecuted ▸ he)) (Nat.not_lt.mpr hnew)
  · exact (h.known e (hexecuted ▸ he)).trans_le hfresh

/-- **A step keeps what the calls know.** -/
theorem CallsOk.next (h : CallsOk hash w) (hn : (limits hash fallback).next w l = some w') :
    CallsOk hash w' := by
  have hfresh := fresh_le_of_next hn
  cases Program.move_of_next hn with
  | @spawn a s p hs =>
    cases hs
    refine h.same rfl (fun i j request call hp hcall => ?_) rfl hfresh
    rcases World.proc?_add_cases hp with ⟨rfl, rfl⟩ | ⟨-, hp⟩
    · obtain ⟨bucket, -, rfl⟩ := List.mem_map.mp (List.mem_of_getElem? hcall)
      exact .inr ⟨rfl, Nat.le_refl _⟩
    · exact .inl ⟨request, hp, hcall⟩
  | crash _ =>
    refine h.same rfl (fun i j request call hp hcall => ?_) rfl hfresh
    exact .inl ⟨request, (World.proc?_kill_cases hp).2, hcall⟩
  | @env e t hs =>
    have hexecuted : t.executed = w.shared.executed := by cases e <;> cases hs <;> rfl
    exact h.same hexecuted (fun i j request call hp hcall => .inl ⟨request, hp, hcall⟩) rfl hfresh
  | @step i c request request' t hp hs =>
    simp only [limits, requestStep] at hs
    split at hs
    · cases hs
    · rename_i call hcall
      obtain ⟨⟨t', pc⟩, hstep, he⟩ := Option.map_eq_some_iff.mp hs
      cases he
      have hmove := callMove_of_step hstep
      have hok := h.calls i c.call request call hp hcall
      have hsub : ∀ e ∈ w.shared.executed, e ∈ t'.executed := by
        intro e he
        rcases hmove.executed with hsame | ⟨-, _, -, -, hnew⟩
        · rw [hsame]
          exact he
        · rw [hnew]
          exact List.mem_append_left _ he
      have hnew {i' j' : ℕ} (hne : ¬ (i' = i ∧ j' = c.call)) : ∀ e ∈ t'.executed,
          e ∈ w.shared.executed ∨ ¬ (e.request = i' ∧ e.call = j') := by
        intro e he
        rcases hmove.executed with hsame | ⟨-, e', hi, hj, hnew⟩
        · exact .inl (hsame ▸ he)
        · rw [hnew] at he
          rcases List.mem_append.mp he with he | he
          · exact .inl he
          · rw [List.mem_singleton.mp he]
            refine .inr fun hij => hne ⟨?_, ?_⟩
            · exact hij.1.symm.trans hi
            · exact hij.2.symm.trans hj
      refine ⟨fun i' j' request'' call'' hp'' hcall'' => ?_, fun e he => ?_, ?_⟩
      · rcases World.proc?_put_cases hp hp'' with ⟨rfl, rfl⟩ | ⟨hne, hp''⟩
        · rw [List.getElem?_set] at hcall''
          split_ifs at hcall'' with hj
          · obtain rfl := Option.some.inj hcall''
            exact hj ▸ hok.move hmove
          · exact (h.calls i' j' request call'' hp hcall'').mono hsub
              (hnew fun hij => hj hij.2.symm)
        · exact (h.calls i' j' request'' call'' hp'' hcall'').mono hsub (hnew fun hij => hne hij.1)
      · rcases hmove.executed with hsame | ⟨-, e', hi, -, hexecuted⟩
        · exact (h.known e (hsame ▸ he)).trans_le hfresh
        · rw [World.put_shared, hexecuted] at he
          rcases List.mem_append.mp he with he | he
          · exact (h.known e he).trans_le hfresh
          · rw [List.mem_singleton.mp he, hi]
            exact (World.lt_fresh hp).trans_le hfresh
      · rcases hmove.executed with hsame | ⟨hpc, e', hi, hj, hexecuted⟩
        · rw [World.put_shared, hsame]
          exact h.unique
        · rw [World.put_shared, hexecuted, List.pairwise_append]
          refine ⟨h.unique, List.pairwise_singleton _ _, fun e he e'' he'' => ?_⟩
          rw [List.mem_singleton.mp he'', hi, hj]
          unfold CallOk at hok
          rw [hpc] at hok
          exact hok e he

theorem callsOk (h : Reachable (limits hash fallback).system w) : CallsOk hash w := by
  refine h.invariant (I := CallsOk hash) (fun w hw => ?_) (fun w w' l hok _ hn => hok.next hn)
  obtain rfl : w = ⟨_, []⟩ := hw
  refine ⟨fun i j request call hp => ?_, fun e he => ?_, .nil⟩
  · cases World.proc?_empty.symm.trans hp
  · cases he

theorem placed (h : Reachable (limits hash fallback).system w) : ∀ e ∈ w.shared.executed,
    ∀ request, w.proc? e.request = some request →
      ∃ call, request.calls[e.call]? = some call ∧ rateKey hash call.bucket = e.key := by
  let Placed (e : Executed) (request : Request) : Prop :=
    ∃ bucket, (request.calls.map (·.bucket))[e.call]? = some bucket ∧ rateKey hash bucket = e.key
  have hplaced : ∀ e ∈ w.shared.executed, ∀ request, w.proc? e.request = some request →
      Placed e request := by
    refine h.invariant' (I := fun w => ∀ e ∈ w.shared.executed, ∀ request,
      w.proc? e.request = some request → Placed e request) (fun w hw e he => ?_)
      (fun w w' l hw hok _ hn e he request hp => ?_)
    · obtain rfl : w = ⟨_, []⟩ := hw
      cases he
    · cases Program.move_of_next hn with
      | @spawn a s p hs =>
        cases hs
        rcases World.proc?_add_cases hp with ⟨hfresh, -⟩ | ⟨-, hp⟩
        · exact absurd hfresh ((callsOk hw).known e he).ne
        · exact hok e he request hp
      | crash _ => exact hok e he request (World.proc?_kill_cases hp).2
      | @env e' t hs =>
        have hexecuted : t.executed = w.shared.executed := by cases e' <;> cases hs <;> rfl
        exact hok e (hexecuted ▸ he) request hp
      | @step i c q q' t hq hs =>
        have hold (hmem : e ∈ w.shared.executed) : Placed e request := by
          rcases World.proc?_put_cases hq hp with ⟨hi, rfl⟩ | ⟨-, hp⟩
          · obtain ⟨bucket, hbucket, hkey⟩ := hok e hmem q (hi ▸ hq)
            exact ⟨bucket, (buckets_requestStep hs) ▸ hbucket, hkey⟩
          · exact hok e hmem request hp
        have hnext : (limits hash fallback).next w (.step i c) = some (w.put i t q') := hn
        have hstep := counterStep hnext
        rw [World.put_shared] at hstep he
        cases hstep with
        | same hsame => exact hold (hsame.executed ▸ he)
        | @counted _ _ request₁ call hp₁ hcall =>
          rcases List.mem_append.mp he with he | he
          · exact hold he
          · obtain rfl := List.mem_singleton.mp he
            obtain rfl := Option.some.inj (hp₁.symm.trans hq)
            obtain rfl := Option.some.inj (hp.symm.trans (World.proc?_put_self hq))
            refine ⟨call.bucket, ?_, rfl⟩
            rw [buckets_requestStep hs, List.getElem?_map, hcall]
            rfl
  intro e he request hp
  obtain ⟨bucket, hbucket, hkey⟩ := hplaced e he request hp
  rw [List.getElem?_map] at hbucket
  obtain ⟨call, hcall, rfl⟩ := Option.map_eq_some_iff.mp hbucket
  exact ⟨call, hcall, hkey⟩

/-! ### What is admitted -/

/-- The request has passed a bucket of the key that fails closed, with a limit up to `limit`, and was
counted there between two times. -/
def PassedBetween (hash : Text → Text) (w : LimitWorld) (i : ℕ) (key : Text)
    (limit start finish : ℕ) : Prop :=
  ∃ request j call e, w.proc? i = some request ∧ request.calls[j]? = some call ∧
    (∃ result, call.pc = .passed result) ∧ call.bucket.redisFailureMode = .deny ∧
    rateKey hash call.bucket = key ∧ call.bucket.limit ≤ limit ∧
    e ∈ w.shared.executed ∧ e.request = i ∧ e.call = j ∧
    start ≤ e.ticket.time ∧ e.ticket.time ≤ finish

/-- **What passes in the time of a window.** If those who count in a bucket agree on its window and
Redis does not lose it, at most twice its limit of requests pass it in an interval as long as its
window: whatever answers of Redis are lost, whichever nodes the requests are on, and however their calls
are interleaved. -/
theorem passed_bounded {windowMs : ℕ}
    (h : ReachableBy (limits hash fallback).system (Agreed hash key windowMs) w) (start limit : ℕ)
    (pids : Finset ℕ)
    (hp : ∀ i ∈ pids, PassedBetween hash w i key limit start (start + windowMs)) :
    pids.card ≤ 2 * limit := by
  have hok := callsOk h.reachable
  let Within (a : Ticket) : Prop := start ≤ a.time ∧ a.time ≤ start + windowMs ∧ a.count ≤ limit
  have hsubset : pids ⊆ (((w.shared.executed.filter (·.key = key)).filter
      fun e => Within e.ticket).map Executed.request).toFinset := by
    intro i hi
    obtain ⟨request, j, call, e, hproc, hcall, ⟨result, hpc⟩, hdeny, hkey, hlimit, he, rfl, rfl,
      hstart, hfinish⟩ := hp i hi
    have hcallok := hok.calls _ _ request call hproc hcall
    unfold CallOk at hcallok
    rw [hpc] at hcallok
    obtain ⟨count, hle, e', he', hrequest, hindex, hkey', rfl⟩ := hcallok hdeny
    -- the call has one run of the script
    have hsame : e' = e := by
      by_contra hne
      have hsymm : Std.Symm fun e e' : Executed => ¬ (e.request = e'.request ∧ e.call = e'.call) :=
        ⟨fun _ _ hne hsame => hne ⟨hsame.1.symm, hsame.2.symm⟩⟩
      exact hok.unique.forall he' he hne ⟨hrequest, hindex⟩
    subst hsame
    refine List.mem_toFinset.mpr (List.mem_map_of_mem (List.mem_filter.mpr ⟨?_, ?_⟩))
    · exact List.mem_filter.mpr ⟨he, decide_eq_true (hkey'.trans hkey)⟩
    · exact decide_eq_true ⟨hstart, hfinish, hle.trans hlimit⟩
  have htickets : (tickets w.shared key).filter (fun a => Within a) =
      ((w.shared.executed.filter (·.key = key)).filter fun e => Within e.ticket).map
        Executed.ticket := List.filter_map ..
  calc pids.card ≤ _ := (Finset.card_le_card hsubset).trans (List.toFinset_card_le _)
    _ = ((tickets w.shared key).filter fun a => Within a).length := by
        rw [htickets, List.length_map, List.length_map]
    _ ≤ 2 * limit := (kept h).1.length_le start limit

/-! ### The backstops -/

/-- A bucket of `enforceAuthBackstops`. -/
inductive Backstop : Bucket → Prop
  | ip (endpoint : PublicAuthEndpoint) (ip : Option Text) : Backstop (ipBucket endpoint ip)
  | global (endpoint : PublicAuthEndpoint) : Backstop (globalBucket endpoint)
  | provider (provider : Provider) : Backstop (providerBucket provider)

variable {bucket bucket' : Bucket}

theorem backstop_of_mem {endpoint : PublicAuthEndpoint} {ip : Option Text} {provider : Option Provider}
    (h : bucket ∈ enforceAuthBackstops endpoint ip provider) : Backstop bucket := by
  rcases List.mem_append.mp h with h | h
  · rcases List.mem_cons.mp h with rfl | h
    · exact .ip endpoint ip
    · rw [List.mem_singleton.mp h]
      exact .global endpoint
  · cases provider with
    | none => cases h
    | some provider =>
      rw [List.mem_singleton.mp h]
      exact .provider provider

theorem Backstop.deny (h : Backstop bucket) : bucket.redisFailureMode = .deny := by
  cases h <;> rfl

/-- The scope of a bucket, its limit and its window. -/
def row (bucket : Bucket) : Text × ℕ × ℕ := (bucket.scope, bucket.limit, bucket.windowMs)

def endpoints : List PublicAuthEndpoint :=
  [.signup, .login, .otpSend, .otpVerify, .passwordResetRequest, .passwordResetVerify,
    .passwordResetConfirm]

/-- The rows of all backstops, whatever address a client has. -/
def rows : List (Text × ℕ × ℕ) :=
  endpoints.map (fun endpoint => row (ipBucket endpoint none)) ++
    endpoints.map (fun endpoint => row (globalBucket endpoint)) ++
    [row (providerBucket .email), row (providerBucket .sms)]

theorem mem_endpoints (endpoint : PublicAuthEndpoint) : endpoint ∈ endpoints := by
  cases endpoint <;> decide

theorem Backstop.row_mem (h : Backstop bucket) : row bucket ∈ rows := by
  cases h with
  | ip endpoint ip =>
    refine List.mem_append_left _ (List.mem_append_left _ ?_)
    exact List.mem_map.mpr ⟨endpoint, mem_endpoints endpoint, rfl⟩
  | global endpoint =>
    refine List.mem_append_left _ (List.mem_append_right _ ?_)
    exact List.mem_map.mpr ⟨endpoint, mem_endpoints endpoint, rfl⟩
  | provider provider =>
    refine List.mem_append_right _ ?_
    cases provider
    · exact List.mem_cons_self
    · exact List.mem_cons_of_mem _ List.mem_cons_self

theorem scopes_nodup : (rows.map Prod.fst).Nodup := by decide +kernel

/-- **The scope of a backstop determines its limit and its window.** -/
theorem Backstop.agree (h : Backstop bucket) (h' : Backstop bucket')
    (hscope : bucket.scope = bucket'.scope) :
    bucket.limit = bucket'.limit ∧ bucket.windowMs = bucket'.windowMs := by
  have hrow : row bucket = row bucket' :=
    List.inj_on_of_nodup_map scopes_nodup h.row_mem h'.row_mem hscope
  exact Prod.mk.inj (Prod.mk.inj hrow).2

theorem scope_of_rateKey (hhash : ∀ value, ':' ∉ hash value)
    (h : rateKey hash bucket = rateKey hash bucket') : bucket.scope = bucket'.scope := by
  have hsplit (bucket : Bucket) : (rateKey hash bucket).reverse.splitOn ':' =
      (hash bucket.value).reverse :: ("rate:".toList ++ bucket.scope).reverse.splitOn ':' := by
    rw [rateKey, List.reverse_append, List.reverse_cons, List.append_assoc, List.singleton_append,
      List.splitOn_append_cons_self_of_not_mem]
    exact fun hmem => hhash _ (List.mem_reverse.mp hmem)
  have hparts := congrArg (fun text => text.reverse.splitOn ':') h
  rw [hsplit, hsplit] at hparts
  have hvalue : hash bucket.value = hash bucket'.value :=
    List.reverse_injective (List.cons.inj hparts).1
  unfold rateKey at h
  rw [hvalue] at h
  exact List.append_cancel_left (List.append_cancel_right h)

/-- The scope of the backstop is used by no one else, and Redis does not lose its key. -/
def OwnScope (hash : Text → Text) (bucket : Bucket) (_ : LimitWorld) : LimitLabel → Prop
  | .spawn (.buckets _ list) => ∀ other ∈ list, other.scope ≠ bucket.scope
  | .env (.lose key) => key ≠ rateKey hash bucket
  | _ => True

theorem agreed_of_ownScope (hhash : ∀ value, ':' ∉ hash value) (hbucket : Backstop bucket)
    (h : OwnScope hash bucket w l) : Agreed hash (rateKey hash bucket) bucket.windowMs w l := by
  cases l with
  | spawn a =>
    intro other hother hkey
    have hscope := scope_of_rateKey hhash hkey
    cases a with
    | authBackstops node endpoint ip provider =>
      exact ((backstop_of_mem hother).agree hbucket hscope).2
    | buckets node list => exact absurd hscope (h other hother)
  | step _ _ | crash _ => trivial
  | env e =>
    cases e with
    | tick _ => trivial
    | lose _ => exact h

/-- A request that the backstops have let pass, with a count in the bucket between two times. -/
def LetPass (hash : Text → Text) (w : LimitWorld) (bucket : Bucket) (start finish i : ℕ) : Prop :=
  ∃ request endpoint ip provider e, w.proc? i = some request ∧
    request.calls.map (·.bucket) = enforceAuthBackstops endpoint ip provider ∧ request.Passed ∧
    e ∈ w.shared.executed ∧ e.request = i ∧ e.key = rateKey hash bucket ∧
    start ≤ e.ticket.time ∧ e.ticket.time ≤ finish

/-- **The backstops hold across the nodes.** Of each bucket of `enforceAuthBackstops` (that of a
client's address, that of an endpoint and that of a provider) at most twice its limit of requests are
let pass in an interval as long as its window, if Redis does not lose the bucket: whatever calls of
Redis fail or lose their answer. -/
theorem backstops_bounded (hhash : ∀ value, ':' ∉ hash value) (hbucket : Backstop bucket)
    (h : ReachableBy (limits hash fallback).system (OwnScope hash bucket) w) (start : ℕ)
    (pids : Finset ℕ)
    (hp : ∀ i ∈ pids, LetPass hash w bucket start (start + bucket.windowMs) i) :
    pids.card ≤ 2 * bucket.limit := by
  refine passed_bounded (h.mono fun _ _ => agreed_of_ownScope hhash hbucket) start bucket.limit pids
    fun i hi => ?_
  obtain ⟨request, endpoint, ip, provider, e, hproc, hcalls, hpassed, he, rfl, hkey, hstart, hfinish⟩ :=
    hp i hi
  obtain ⟨call, hcall, hcallKey⟩ := placed h.reachable e he request hproc
  have hmem : call.bucket ∈ enforceAuthBackstops endpoint ip provider := by
    rw [← hcalls]
    exact List.mem_map_of_mem (List.mem_of_getElem? hcall)
  have hcallBucket := backstop_of_mem hmem
  have hlimit := (hcallBucket.agree hbucket (scope_of_rateKey hhash (hcallKey.trans hkey))).1
  exact ⟨request, e.call, call, e, hproc, hcall, hpassed call (List.mem_of_getElem? hcall),
    hcallBucket.deny, hcallKey.trans hkey, hlimit.le, he, rfl, rfl, hstart, hfinish⟩

instance (hash : Text → Text) (bucket : Bucket) (w : LimitWorld) (l : LimitLabel) :
    Decidable (OwnScope hash bucket w l) :=
  match l with
  | .spawn (.buckets _ list) => inferInstanceAs (Decidable (∀ other ∈ list, other.scope ≠ bucket.scope))
  | .env (.lose key) => inferInstanceAs (Decidable (key ≠ rateKey hash bucket))
  | .spawn (.authBackstops _ _ _ _) | .step _ _ | .crash _ | .env (.tick _) => instDecidableTrue

def exampleHash (value : Text) : Text := "v1.k1.".toList ++ value.filter (· ≠ ':')

theorem colon_not_mem_exampleHash (value : Text) : ':' ∉ exampleHash value := by
  intro h
  rcases List.mem_append.mp h with h | h
  · exact absurd h (by decide)
  · exact of_decide_eq_true (List.mem_filter.mp h).2 rfl

def exampleFallback : BoundedRateLimitFallback := ⟨1, .empty, Nat.le_refl 1⟩

/-- Two logins from one address, on two nodes. -/
def exampleLogins : List LimitLabel :=
  [.spawn (.authBackstops 0 .login none none), .spawn (.authBackstops 1 .login none none),
    .step 0 ⟨0, .ok, 0⟩, .step 1 ⟨0, .ok, 0⟩, .step 1 ⟨1, .ok, 0⟩, .step 0 ⟨1, .ok, 0⟩,
    .step 0 ⟨0, .ok, 0⟩, .step 0 ⟨1, .ok, 0⟩, .step 1 ⟨0, .ok, 0⟩, .step 1 ⟨1, .ok, 0⟩]

/-- A login that is let pass, with its numbers in the two buckets. -/
def exampleLogin (node ip global : ℕ) : Request where
  node := node
  calls := [⟨ipBucket .login none, .passed ⟨ip, 300, 900⟩⟩,
    ⟨globalBucket .login, .passed ⟨global, 100000, 900⟩⟩]

theorem passed_exampleLogin (node ip global : ℕ) : (exampleLogin node ip global).Passed := by
  intro call hcall
  rcases List.mem_cons.mp hcall with rfl | hcall
  · exact ⟨_, rfl⟩
  · rw [List.mem_singleton.mp hcall]
    exact ⟨_, rfl⟩

theorem backstops_bounded_logins : ∃ w : LimitWorld,
    (∀ i ∈ ({0, 1} : Finset ℕ), LetPass exampleHash w (ipBucket .login none) 0 900000 i) ∧
    ({0, 1} : Finset ℕ).card ≤ 2 * 300 := by
  let key := rateKey exampleHash (ipBucket .login none)
  obtain ⟨w, hw, hfirst, hsecond, hran, hran'⟩ := (limits exampleHash exampleFallback).exists_reached
    (OwnScope exampleHash (ipBucket .login none)) exampleLogins
    (fun w => w.proc? 0 = some (exampleLogin 0 1 2) ∧ w.proc? 1 = some (exampleLogin 1 2 1) ∧
      ⟨key, ⟨0, 900000, 1⟩, 0, 0⟩ ∈ w.shared.executed ∧
      ⟨key, ⟨0, 900000, 2⟩, 1, 0⟩ ∈ w.shared.executed) (by decide +kernel)
  have hpass : ∀ i ∈ ({0, 1} : Finset ℕ), LetPass exampleHash w (ipBucket .login none) 0 900000 i := by
    intro i hi
    rcases Finset.mem_insert.mp hi with rfl | hi
    · exact ⟨_, .login, none, none, _, hfirst, rfl, passed_exampleLogin 0 1 2, hran, rfl, rfl,
        Nat.le_refl _, Nat.zero_le _⟩
    · obtain rfl := Finset.mem_singleton.mp hi
      exact ⟨_, .login, none, none, _, hsecond, rfl, passed_exampleLogin 1 2 1, hran', rfl, rfl,
        Nat.le_refl _, Nat.zero_le _⟩
  exact ⟨w, hpass, backstops_bounded colon_not_mem_exampleHash (.ip .login none) hw 0 _ hpass⟩

/-- **The backstops fail closed, and refuse no one early.** A request that they let pass was counted by
Redis in each of its buckets, with a number up to the limit. One that they refuse for its rate was given
a number above the limit, and each number up to the limit was given to another call in the same window
of the bucket. -/
theorem backstops_exact (h : Reachable (limits hash fallback).system w) {request : Request}
    {endpoint : PublicAuthEndpoint} {ip : Option Text} {provider : Option Provider}
    (hp : w.proc? i = some request)
    (hcalls : request.calls.map (·.bucket) = enforceAuthBackstops endpoint ip provider) :
    (request.Passed → ∀ bucket ∈ enforceAuthBackstops endpoint ip provider,
      ∃ e ∈ w.shared.executed, e.request = i ∧ e.key = rateKey hash bucket ∧
        e.ticket.count ≤ bucket.limit) ∧
    ∀ j call retryAfterSeconds, request.calls[j]? = some call →
      call.pc = .thrown (.rateLimited retryAfterSeconds) →
      ∃ e ∈ w.shared.executed, e.request = i ∧ e.call = j ∧ e.key = rateKey hash call.bucket ∧
        call.bucket.limit < e.ticket.count ∧ ∀ n, 1 ≤ n → n ≤ call.bucket.limit →
          ∃ other ∈ w.shared.executed, other.key = e.key ∧ other.ticket.endsAt = e.ticket.endsAt ∧
            other.ticket.count = n ∧ ¬ (other.request = i ∧ other.call = j) := by
  have hok := callsOk h
  have hbackstop {call : BucketCall} (hmem : call ∈ request.calls) : Backstop call.bucket := by
    have hmem : call.bucket ∈ enforceAuthBackstops endpoint ip provider := by
      rw [← hcalls]
      exact List.mem_map_of_mem hmem
    exact backstop_of_mem hmem
  refine ⟨fun hpassed bucket hbucket => ?_, fun j call retryAfterSeconds hcall hpc => ?_⟩
  · rw [← hcalls] at hbucket
    obtain ⟨call, hmem, rfl⟩ := List.mem_map.mp hbucket
    obtain ⟨j, hj⟩ := List.mem_iff_getElem?.mp hmem
    obtain ⟨result, hpc⟩ := hpassed call hmem
    have hcallok := hok.calls i j request call hp hj
    unfold CallOk at hcallok
    rw [hpc] at hcallok
    obtain ⟨count, hle, e, he, hrequest, -, hkey, rfl⟩ := hcallok (hbackstop hmem).deny
    exact ⟨e, he, hrequest, hkey, hle⟩
  · have hcallok := hok.calls i j request call hp hcall
    unfold CallOk at hcallok
    rw [hpc] at hcallok
    obtain ⟨count, hlt, e, he, hrequest, hindex, hkey, rfl⟩ :=
      hcallok (hbackstop (List.mem_of_getElem? hcall)).deny
    refine ⟨e, he, hrequest, hindex, hkey, hlt, fun n hpos hle => ?_⟩
    have hticket : e.ticket ∈ tickets w.shared e.key :=
      List.mem_map_of_mem (List.mem_filter.mpr ⟨he, decide_eq_true rfl⟩)
    obtain ⟨ticket, hmem, hends, hcount⟩ :=
      (filled h e.key).tickets e.ticket hticket n hpos (hle.trans hlt.le)
    obtain ⟨other, hother, rfl⟩ := List.mem_map.mp hmem
    obtain ⟨hother, hsame⟩ := List.mem_filter.mp hother
    refine ⟨other, hother, of_decide_eq_true hsame, hends, hcount, fun hij => ?_⟩
    have hne : other ≠ e := by
      rintro rfl
      omega
    have hsymm : Std.Symm fun e e' : Executed => ¬ (e.request = e'.request ∧ e.call = e'.call) :=
      ⟨fun _ _ hne hsame => hne ⟨hsame.1.symm, hsame.2.symm⟩⟩
    refine hok.unique.forall hother he hne ⟨?_, ?_⟩
    · rw [hij.1, hrequest]
    · rw [hij.2, hindex]

theorem backstops_exact_login : ∃ w : LimitWorld, w.proc? 1 = some (exampleLogin 1 2 1) ∧
    ∃ e ∈ w.shared.executed, e.request = 1 ∧ e.key = rateKey exampleHash (globalBucket .login) ∧
      e.ticket.count ≤ 100000 := by
  obtain ⟨w, hw, hsecond⟩ := (limits exampleHash exampleFallback).exists_reached anyStep exampleLogins
    (fun w => w.proc? 1 = some (exampleLogin 1 2 1)) (by decide +kernel)
  have hcalls : (exampleLogin 1 2 1).calls.map (·.bucket) = enforceAuthBackstops .login none none := rfl
  have hpassed := (backstops_exact hw hsecond hcalls).1 (passed_exampleLogin 1 2 1)
  exact ⟨w, hsecond, hpassed _ (List.mem_cons_of_mem _ List.mem_cons_self)⟩

end BackendFoundation.Http.Backstops
