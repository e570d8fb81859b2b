import BackendFoundation.Lib.Transact

/-! # What a transaction has written

An `Entry` relates a row before a transaction and the row that it leaves. `effect` is the entry of a
statement with its reply, and `Entry.andThen` the entry of one after the other. `TxLogged` says that
a transaction has written what an entry says, also in the middle of an update; a statement adds its
effect (`exec_logged`), and the commit then changes each row by the entry (`Logged.rows`).

`Cleared` says that no row that a transaction sees meets a condition. An update that makes its own
condition false clears it (`exec_seen`), the later statements of the transaction keep that
(`exec_cleared`), and so do commits of others that bring no such row. -/

set_option linter.unusedSectionVars false

namespace BackendFoundation.Lib.WriteLog

open Lib.Database Lib.Transact Lib.Runs
open Option (some.inj)

variable {K : Type*} [DecidableEq K] {V : K → Type*} [∀ k, DecidableEq (V k)]

/-- A row before a transaction, and the row that it leaves. -/
abbrev Entry (V : K → Type*) := ∀ k, Option (V k) → Option (V k) → Prop

def Entry.same : Entry V := fun _ before after => after = before

def Entry.andThen (R e : Entry V) : Entry V := fun k before after =>
  ∃ between, R k before between ∧ e k between after

/-- One entry after the other. -/
def Entry.inTurn (entries : List (Entry V)) : Entry V := entries.foldl Entry.andThen Entry.same

/-- The condition is one on the row `k`. -/
def Only (cond : ∀ k, V k → Bool) (k : K) : Prop := ∀ k' v, cond k' v = true → k' = k

/-- What a statement that is answered by `reply` does to a row. An update takes the row or leaves
it; the number of rows that it has taken says which if the row is the only one that it can take. -/
def effect (stmt : Stmt V) (reply : Reply V) : Entry V := fun k before after =>
  match stmt with
  | .insert k' v => (k' ≠ k ∧ after = before) ∨ ∃ h : k' = k, before = none ∧ after = some (h ▸ v)
  | .update cond data =>
    (after = before ∧ (Only cond k → ∀ n, reply = .count n → n = 0)) ∨
      ∃ v, before = some v ∧ cond k v = true ∧ after = data k v ∧
        ∀ n, reply = .count n → n ≠ 0 ∧ (Only cond k → n = 1)
  | .read | .lock _ | .commit => after = before

/-- The transaction has written the row `k` as the entry says. -/
def LoggedAt (tx : Tx V) (R : Entry V) (k : K) : Prop :=
  match tx.writes k with
  | some c => R k c.before c.after
  | none => ∀ row, R k row row

def Logged (tx : Tx V) (R : Entry V) : Prop := ∀ k, LoggedAt tx R k

/-- In the middle of an update that has taken `n` rows and has still to look at `rest`. -/
structure UpdateLogged (tx : Tx V) (R : Entry V) (cond : ∀ k, V k → Bool)
    (data : ∀ k, V k → Option (V k)) (rest : List K) (n : ℕ) : Prop where
  nodup : rest.Nodup
  taken : n ≠ 0 → ∃ k ∉ rest, ∃ v, cond k v = true
  before : ∀ k ∈ rest, LoggedAt tx R k
  after : ∀ k ∉ rest, LoggedAt tx (R.andThen (effect (.update cond data) (.count n))) k

/-- The transaction has written what the entry says, and what its statement has done so far. -/
def TxLogged (tx : Tx V) (R : Entry V) (stmt : Option (Stmt V)) : Prop :=
  match tx.pending with
  | none => Logged tx R
  | some (rest, n) =>
    ∃ cond data, stmt = some (.update cond data) ∧ UpdateLogged tx R cond data rest n

variable {db db' : Db V} {i : ℕ} {tx tx' : Tx V} {k : K} {stmt : Stmt V} {R R' : Entry V}
  {cond : ∀ k, V k → Bool} {data : ∀ k, V k → Option (V k)} {rest : List K} {n : ℕ}
  {reply : Reply V} {p : Progress V}

theorem Entry.inTurn_concat {entries : List (Entry V)} {e : Entry V}
    {before between after : Option (V k)} (h : inTurn entries k before between)
    (he : e k between after) : inTurn (entries ++ [e]) k before after := by
  unfold inTurn at *
  rw [List.foldl_append]
  exact ⟨between, h, he⟩

variable {before after : Option (V k)}

@[simp] theorem Entry.inTurn_nil :
    inTurn ([] : List (Entry V)) k before after ↔ after = before := Iff.rfl

theorem foldl_andThen {entries : List (Entry V)} : ∀ {R : Entry V} {before after : Option (V k)},
    entries.foldl Entry.andThen R k before after ↔
      ∃ between, R k before between ∧ Entry.inTurn entries k between after := by
  induction entries with
  | nil => exact ⟨fun h => ⟨_, h, rfl⟩, fun ⟨_, h, he⟩ => he ▸ h⟩
  | cons e es ih =>
    intro R before after
    constructor
    · intro h
      obtain ⟨m, ⟨between, hR, he⟩, hes⟩ := ih.mp h
      exact ⟨between, hR, ih.mpr ⟨m, ⟨between, rfl, he⟩, hes⟩⟩
    · rintro ⟨between, hR, h⟩
      obtain ⟨m, ⟨_, rfl, he⟩, hes⟩ := ih.mp h
      exact ih.mpr ⟨m, ⟨_, hR, he⟩, hes⟩

@[simp] theorem Entry.inTurn_cons {e : Entry V} {entries : List (Entry V)} :
    inTurn (e :: entries) k before after ↔
      ∃ between, e k before between ∧ inTurn entries k between after := by
  change entries.foldl Entry.andThen (Entry.same.andThen e) k before after ↔ _
  refine foldl_andThen.trans ⟨?_, ?_⟩
  · rintro ⟨between, ⟨_, rfl, he⟩, h⟩
    exact ⟨between, he, h⟩
  · rintro ⟨between, he, h⟩
    exact ⟨between, ⟨before, rfl, he⟩, h⟩

theorem Entry.inTurn_append {entries entries' : List (Entry V)} :
    inTurn (entries ++ entries') k before after ↔
      ∃ between, inTurn entries k before between ∧ inTurn entries' k between after := by
  unfold inTurn
  rw [List.foldl_append]
  exact foldl_andThen

theorem Entry.inTurn_singleton {e : Entry V} : inTurn [e] k before after ↔ e k before after := by
  rw [Entry.inTurn_cons]
  constructor
  · rintro ⟨between, he, rfl⟩
    exact he
  · exact fun he => ⟨after, he, rfl⟩

theorem LoggedAt.congr (h : LoggedAt tx R k) (hw : tx'.writes k = tx.writes k) :
    LoggedAt tx' R k := by
  unfold LoggedAt at *
  rwa [hw]

theorem LoggedAt.mono (h : LoggedAt tx R k) (hR : ∀ b a, R k b a → R' k b a) :
    LoggedAt tx R' k := by
  unfold LoggedAt at *
  split at h
  · exact hR _ _ h
  · exact fun row => hR _ _ (h row)

theorem TxLogged.congr {stmt : Option (Stmt V)} (h : TxLogged tx R stmt)
    (hw : tx'.writes = tx.writes) (hp : tx'.pending = tx.pending) : TxLogged tx' R stmt := by
  unfold TxLogged at *
  rw [hp]
  split at h
  · exact fun k => (h k).congr (congrFun hw k)
  · obtain ⟨cond, data, he, hnodup, htaken, hbefore, hafter⟩ := h
    exact ⟨cond, data, he, hnodup, htaken, fun k hk => (hbefore k hk).congr (congrFun hw k),
      fun k hk => (hafter k hk).congr (congrFun hw k)⟩

theorem TxLogged.of_none {stmt : Option (Stmt V)} (hp : tx.pending = none) (h : Logged tx R) :
    TxLogged tx R stmt := by
  unfold TxLogged
  rwa [hp]

theorem TxLogged.logged {stmt : Option (Stmt V)} (h : TxLogged tx R stmt)
    (hstmt : ∀ cond data, stmt ≠ some (.update cond data)) : tx.pending = none ∧ Logged tx R := by
  unfold TxLogged at h
  split at h
  · exact ⟨‹_›, h⟩
  · obtain ⟨cond, data, he, -⟩ := h
    exact absurd he (hstmt cond data)

theorem TxLogged.at_rest {stmt : Option (Stmt V)} (h : TxLogged tx R stmt) (hp : tx.pending = none) :
    Logged tx R := by
  unfold TxLogged at h
  rwa [hp] at h

/-- **A commit** changes each row by the entry of its transaction. -/
theorem Logged.rows (h : Logged tx R) (hfits : ∀ k c, tx.writes k = some c → db.rows k = c.before)
    (hrows : db'.rows = tx.writes.read db.rows) (k : K) : R k (db.rows k) (db'.rows k) := by
  have hk := h k
  unfold LoggedAt at hk
  rw [hrows]
  cases hw : tx.writes k with
  | none =>
    rw [hw] at hk
    rw [Writes.read_of_none hw]
    exact hk _
  | some c =>
    rw [hw] at hk
    rw [Writes.read_of_some hw, hfits k c hw]
    exact hk

/-! ### Statements -/

variable {v : V k}

theorem logged_insert (h : Logged tx R) (hnone : tx.writes.read db.rows k = none)
    (hw : tx'.writes = tx.writes.set k (db.rows k) (some v)) :
    Logged tx' (R.andThen (effect (.insert k v) reply)) := by
  intro k'
  by_cases hk : k' = k
  · subst hk
    have hk' := h k'
    unfold LoggedAt at *
    rw [hw, Writes.set_self]
    cases hold : tx.writes k' with
    | none =>
      rw [hold] at hk'
      rw [Writes.read_of_none hold] at hnone
      exact ⟨none, hnone ▸ hk' (db.rows k'), .inr ⟨rfl, rfl, rfl⟩⟩
    | some c =>
      rw [hold] at hk'
      rw [Writes.read_of_some hold] at hnone
      exact ⟨none, hnone ▸ hk', .inr ⟨rfl, rfl, rfl⟩⟩
  · refine LoggedAt.congr ?_ (hw ▸ Writes.set_of_ne hk)
    have hk' := h k'
    unfold LoggedAt at *
    split at hk'
    · exact ⟨_, hk', .inl ⟨Ne.symm hk, rfl⟩⟩
    · exact fun row => ⟨row, hk' row, .inl ⟨Ne.symm hk, rfl⟩⟩

theorem LoggedAt.left (h : LoggedAt tx R k) (hn : Only cond k → n = 0) :
    LoggedAt tx (R.andThen (effect (.update cond data) (.count n))) k :=
  have heffect : ∀ row, effect (.update cond data) (.count n) k row row := fun row =>
    .inl ⟨rfl, fun ho m hm => by cases hm; exact hn ho⟩
  h.mono fun b a hR => ⟨a, hR, heffect a⟩

theorem loggedAt_took (h : LoggedAt tx R k) (hv : tx.writes.read db.rows k = some v)
    (hcond : cond k v = true) (hn : n ≠ 0 ∧ (Only cond k → n = 1))
    (hw : tx'.writes = tx.writes.set k (db.rows k) (data k v)) :
    LoggedAt tx' (R.andThen (effect (.update cond data) (.count n))) k := by
  have hcount : ∀ m, Reply.count n = (.count m : Reply V) → m ≠ 0 ∧ (Only cond k → m = 1) := by
    rintro m ⟨⟩
    exact hn
  unfold LoggedAt at *
  rw [hw, Writes.set_self]
  cases hold : tx.writes k with
  | none =>
    rw [hold] at h
    rw [Writes.read_of_none hold] at hv
    exact ⟨some v, hv ▸ h (db.rows k), .inr ⟨v, rfl, hcond, rfl, hcount⟩⟩
  | some c =>
    rw [hold] at h
    rw [Writes.read_of_some hold] at hv
    exact ⟨some v, hv ▸ h, .inr ⟨v, rfl, hcond, rfl, hcount⟩⟩

/-- Another row is taken: the entry of `k` does not count it. -/
theorem LoggedAt.counted {k' : K} {v : V k'} (hne : k ≠ k') (hcond : cond k' v = true)
    (h : LoggedAt tx (R.andThen (effect (.update cond data) (.count n))) k) :
    LoggedAt tx (R.andThen (effect (.update cond data) (.count (n + 1)))) k := by
  have hnot : ¬ Only cond k := fun ho => Ne.symm hne (ho k' v hcond)
  refine h.mono fun b a hR => ?_
  obtain ⟨m, hm, ⟨he, -⟩ | ⟨v', hv', hcond', he, -⟩⟩ := hR
  · exact ⟨m, hm, .inl ⟨he, fun ho => absurd ho hnot⟩⟩
  · refine ⟨m, hm, .inr ⟨v', hv', hcond', he, ?_⟩⟩
    rintro _ ⟨⟩
    exact ⟨Nat.succ_ne_zero n, fun ho => absurd ho hnot⟩

theorem UpdateLogged.passed (h : UpdateLogged tx R cond data (k :: rest) n) :
    UpdateLogged tx R cond data rest n := by
  obtain ⟨hk, hnodup⟩ := List.nodup_cons.mp h.nodup
  refine ⟨hnodup, fun hn => ?_, fun k' hk' => h.before k' (List.mem_cons_of_mem _ hk'),
    fun k' hk' => ?_⟩
  · obtain ⟨k', hk', hcond⟩ := h.taken hn
    exact ⟨k', fun hmem => hk' (List.mem_cons_of_mem _ hmem), hcond⟩
  · by_cases he : k' = k
    · subst he
      refine (h.before k' List.mem_cons_self).left fun ho => ?_
      by_contra hn
      obtain ⟨k'', hk'', v, hcond⟩ := h.taken hn
      exact hk'' (ho k'' v hcond ▸ List.mem_cons_self)
    · exact h.after k' fun hmem => (List.mem_cons.mp hmem).elim he hk'

theorem UpdateLogged.took (h : UpdateLogged tx R cond data (k :: rest) n)
    (hv : tx.writes.read db.rows k = some v) (hcond : cond k v = true)
    (hw : tx'.writes = tx.writes.set k (db.rows k) (data k v)) :
    UpdateLogged tx' R cond data rest (n + 1) := by
  obtain ⟨hk, hnodup⟩ := List.nodup_cons.mp h.nodup
  refine ⟨hnodup, fun _ => ⟨k, hk, v, hcond⟩, fun k' hk' => ?_, fun k' hk' => ?_⟩
  · have hne : k' ≠ k := fun he => hk (he ▸ hk')
    exact (h.before k' (List.mem_cons_of_mem _ hk')).congr (hw ▸ Writes.set_of_ne hne)
  · by_cases he : k' = k
    · subst he
      refine loggedAt_took (h.before k' List.mem_cons_self) hv hcond ⟨Nat.succ_ne_zero n, ?_⟩ hw
      intro ho
      by_contra hn
      obtain ⟨k'', hk'', v', hcond'⟩ := h.taken (by omega)
      exact hk'' (ho k'' v' hcond' ▸ List.mem_cons_self)
    · have hold := h.after k' fun hmem => (List.mem_cons.mp hmem).elim he hk'
      exact (hold.counted he hcond).congr (hw ▸ Writes.set_of_ne he)

@[simp] theorem begin_pending : (tx.begin db).pending = tx.pending := by
  rcases begin_cases tx db with h | ⟨-, -, h⟩ <;> rw [h]

theorem exec_pending (hs : exec db i tx stmt = some (db', p))
    (hstmt : ∀ cond data, stmt ≠ .update cond data) :
    (∀ tx', p ≠ .running tx') ∧ ∀ tx' reply, p = .replied tx' reply → tx.pending = none →
      tx'.pending = none := by
  rcases exec_cases hs with ⟨-, -, rfl⟩ | ⟨-, hs⟩
  · exact ⟨nofun, nofun⟩
  cases hs with
  | taken => exact ⟨nofun, nofun⟩
  | scanned | updated | changed | passed | took => exact absurd rfl (hstmt _ _)
  | read | inserted | locked =>
    refine ⟨nofun, fun tx' reply h hnone => ?_⟩
    obtain ⟨rfl, -⟩ := Progress.replied.inj h
    simpa only [begin_pending] using hnone
  | commit =>
    refine ⟨nofun, fun tx' reply h hnone => ?_⟩
    obtain ⟨rfl, -⟩ := Progress.replied.inj h
    rfl

/-- What holds of the entry of a transaction after a statement. -/
def Advanced (R : Entry V) (stmt : Stmt V) (p : Progress V) : Prop :=
  match p with
  | .running tx => TxLogged tx R (some stmt)
  | .replied tx reply => tx.pending = none ∧
    match stmt with
    | .commit => tx.writes = Writes.empty
    | _ => Logged tx (R.andThen (effect stmt reply))
  | .taken | .failed => True

theorem Advanced.logged (h : Advanced R stmt (.replied tx reply)) (hstmt : stmt ≠ .commit) :
    tx.pending = none ∧ Logged tx (R.andThen (effect stmt reply)) := by
  obtain ⟨hpend, h⟩ := h
  refine ⟨hpend, ?_⟩
  split at h
  · exact absurd rfl hstmt
  · exact h

/-- **An update** adds its effect row by row. -/
theorem updateStep_logged (h : TxLogged tx R (some (.update cond data)))
    (hs : UpdateStep db tx cond data p) : Advanced R (.update cond data) p := by
  unfold TxLogged at h
  cases hs with
  | failed => trivial
  | scanned hpend =>
    rw [hpend] at h
    refine ⟨cond, data, rfl, List.nodup_dedup _, fun hn => absurd rfl hn, fun k _ => h k,
      fun k _ => ?_⟩
    exact @LoggedAt.left _ _ _ _ tx _ _ _ _ _ (h k) fun _ => rfl
  | done hpend =>
    rw [hpend] at h
    obtain ⟨cond', data', he, hlogged⟩ := h
    obtain ⟨rfl, rfl⟩ := Stmt.update.inj (some.inj he)
    exact ⟨rfl, fun k => (hlogged.after k List.not_mem_nil).congr rfl⟩
  | passed hpend _ _ =>
    rw [hpend] at h
    obtain ⟨cond', data', he, hlogged⟩ := h
    obtain ⟨rfl, rfl⟩ := Stmt.update.inj (some.inj he)
    obtain ⟨hnodup, htaken, hbefore, hafter⟩ := hlogged.passed
    exact ⟨cond, data, rfl, hnodup, htaken, hbefore, hafter⟩
  | took hpend _ hv hcond =>
    rw [hpend] at h
    obtain ⟨cond', data', he, hlogged⟩ := h
    obtain ⟨rfl, rfl⟩ := Stmt.update.inj (some.inj he)
    exact ⟨cond, data, rfl, hlogged.took hv hcond rfl⟩

/-- **A statement adds its effect** to what its transaction has written. -/
theorem exec_logged (h : TxLogged tx R (some stmt)) (hs : exec db i tx stmt = some (db', p)) :
    Advanced R stmt p := by
  by_cases hstmt : ∃ cond data, stmt = .update cond data
  · obtain ⟨cond, data, rfl⟩ := hstmt
    exact updateStep_logged (h.congr begin_writes begin_pending) (exec_update_cases hs)
  · have hno : ∀ cond data, stmt ≠ .update cond data := fun cond data he => hstmt ⟨cond, data, he⟩
    obtain ⟨hnone, hlogged⟩ := h.logged fun cond data he => hno cond data (some.inj he)
    obtain ⟨hrunning, hreplied⟩ := exec_pending hs hno
    cases p with
    | running tx' => exact absurd rfl (hrunning tx')
    | taken | failed => trivial
    | replied tx' reply =>
      refine ⟨hreplied tx' reply rfl hnone, ?_⟩
      have hw := exec_writes hs (.inr ⟨reply, rfl⟩)
      cases stmt with
      | read | lock k =>
        intro k
        exact ((hlogged k).mono fun b a hR => ⟨a, hR, rfl⟩).congr (congrFun hw k)
      | insert k v => exact logged_insert hlogged hw.1 hw.2
      | update cond data => exact absurd rfl (hno cond data)
      | commit => exact hw

/-- A transaction whose entry cannot leave an absent row has written it. -/
theorem TxLogged.writes_ne_none {stmt : Option (Stmt V)} (h : TxLogged tx R stmt)
    (hR : ∀ after, ¬ R k none after) : tx.writes k ≠ none := by
  have hat {R' : Entry V} (hk : LoggedAt tx R' k) (hR' : ∀ after, ¬ R' k none after) :
      tx.writes k ≠ none := by
    intro hnone
    unfold LoggedAt at hk
    rw [hnone] at hk
    exact hR' none (hk none)
  unfold TxLogged at h
  split at h
  · exact hat (h k) hR
  · next rest n _ =>
    obtain ⟨cond, data, -, hlogged⟩ := h
    by_cases hk : k ∈ rest
    · exact hat (hlogged.before k hk) hR
    · exact hat (hlogged.after k hk) fun after ⟨between, hb, _⟩ => hR between hb

/-! ### What a query finds -/

theorem begin_readCommitted (h : tx.serializable = false) : tx.begin db = tx := by
  unfold Tx.begin
  rw [if_neg]
  rintro ⟨hser, -⟩
  rw [h] at hser
  cases hser

theorem exec_read (hser : tx.serializable = false) (hs : exec db i tx .read = some (db', p))
    (hp : p = .replied tx' reply) : reply = .rows (tx.view db) := by
  obtain ⟨-, hreply⟩ := (Database.exec_read hs).2 tx' reply hp
  rwa [begin_readCommitted hser] at hreply

variable {rows : Rows V}

theorem read_of_rows (hs : exec db i tx stmt = some (db', .replied tx' (.rows rows))) :
    stmt = .read := by
  rcases exec_cases hs with ⟨-, -, hp⟩ | ⟨-, hs⟩
  · cases hp
  · cases hs
    rfl

/-- A read-committed transaction that has not changed a row sees it as it is. -/
theorem Logged.view_at (h : Logged tx R) (htx : TxOk db i tx) (hlive : db.aborted i = false)
    (hsnap : tx.snapshot = none) (hR : ∀ before after, R k before after → after = before) :
    tx.view db k = db.rows k := by
  unfold Tx.view
  rw [hsnap]
  have hk := h k
  unfold LoggedAt at hk
  cases hw : tx.writes k with
  | none => exact Writes.read_of_none hw
  | some c =>
    rw [hw] at hk
    rw [Writes.read_of_some hw, (htx.rows hlive k c hw).2]
    exact hR _ _ hk

/-! ### Rows that an update has left -/

/-- No row that the transaction sees meets the condition, but those that its update has still to
look at. -/
def Seen (rows : Rows V) (tx : Tx V) (cond : ∀ k, V k → Bool) : Prop :=
  ∀ k v, tx.writes.read rows k = some v → cond k v = true →
    ∃ rest n, tx.pending = some (rest, n) ∧ k ∈ rest

/-- No row that the transaction sees meets the condition. -/
def Cleared (rows : Rows V) (tx : Tx V) (cond : ∀ k, V k → Bool) : Prop :=
  ∀ k v, tx.writes.read rows k = some v → cond k v = false

/-- Other transactions bring no row that meets the condition. -/
def Brings (rows rows' : Rows V) (tx : Tx V) (cond : ∀ k, V k → Bool) : Prop :=
  ∀ k v, tx.writes k = none → rows' k = some v → cond k v = true →
    ∃ v', rows k = some v' ∧ cond k v' = true

variable {rows rows' : Rows V}

theorem Seen.mono (h : Seen rows tx cond) (hrows : Brings rows rows' tx cond) :
    Seen rows' tx cond := by
  intro k v hv hcond
  cases hw : tx.writes k with
  | none =>
    rw [Writes.read_of_none hw] at hv
    obtain ⟨v', hv', hcond'⟩ := hrows k v hw hv hcond
    exact h k v' (by rw [Writes.read_of_none hw, hv']) hcond'
  | some c =>
    rw [Writes.read_of_some hw] at hv
    exact h k v (by rw [Writes.read_of_some hw, hv]) hcond

theorem Cleared.mono (h : Cleared rows tx cond) (hrows : Brings rows rows' tx cond) :
    Cleared rows' tx cond := by
  intro k v hv
  by_contra hcond
  have hcond : cond k v = true := by simpa using hcond
  cases hw : tx.writes k with
  | none =>
    rw [Writes.read_of_none hw] at hv
    obtain ⟨v', hv', hcond'⟩ := hrows k v hw hv hcond
    rw [h k v' (by rw [Writes.read_of_none hw, hv'])] at hcond'
    cases hcond'
  | some c =>
    rw [Writes.read_of_some hw] at hv
    rw [h k v (by rw [Writes.read_of_some hw, hv])] at hcond
    cases hcond

theorem Seen.cleared (h : Seen rows tx cond) (hpend : tx.pending = none) :
    Cleared rows tx cond := by
  intro k v hv
  by_contra hcond
  obtain ⟨rest, n, he, -⟩ := h k v hv (by simpa using hcond)
  rw [hpend] at he
  cases he

/-- The statement writes no row that meets the condition. -/
def Leaves (stmt : Stmt V) (cond : ∀ k, V k → Bool) : Prop :=
  match stmt with
  | .insert k v => cond k v = false
  | .update cond' data => ∀ k v w, cond' k v = true → data k v = some w → cond k w = false
  | .read | .lock _ | .commit => True

theorem exec_cleared (h : Cleared db.rows tx cond) (hstmt : stmt ≠ .commit)
    (hleaves : Leaves stmt cond) (hs : exec db i tx stmt = some (db', p))
    (hp : p = .running tx' ∨ ∃ reply, p = .replied tx' reply) : Cleared db.rows tx' cond := by
  have hw := exec_writes hs hp
  have hsame (he : tx'.writes = tx.writes) : Cleared db.rows tx' cond := by
    unfold Cleared
    rw [he]
    exact h
  cases stmt with
  | read | lock k => exact hsame hw
  | commit => exact absurd rfl hstmt
  | insert k v =>
    intro k' v' hv'
    rw [hw.2] at hv'
    by_cases hk : k' = k
    · subst hk
      rw [Writes.read_of_some Writes.set_self] at hv'
      obtain rfl := some.inj hv'
      exact hleaves
    · refine h k' v' ?_
      rw [← hv']
      unfold Writes.read
      simp only [Writes.set_of_ne hk]
  | update cond' data =>
    intro k v hv
    rcases hw k with he | ⟨v₀, hv₀, hcond', he⟩
    · refine h k v ?_
      rw [← hv]
      unfold Writes.read
      rw [he]
    · rw [Writes.read_of_some he] at hv
      exact hleaves k v₀ v hcond' hv

/-- No row that the transaction has written meets the condition. -/
def Spared (tx : Tx V) (cond : ∀ k, V k → Bool) : Prop :=
  ∀ k c v, tx.writes k = some c → c.after = some v → cond k v = false

theorem Spared.empty {tx : Tx V} (h : tx.writes = Writes.empty) : Spared tx cond := by
  intro k c v hw
  rw [h] at hw
  cases hw

theorem Spared.mono {cond' : ∀ k, V k → Bool} (h : Spared tx cond)
    (hcond : ∀ k v, cond' k v = true → cond k v = true) : Spared tx cond' := by
  intro k c v hw hafter
  by_contra hne
  have hne := hcond k v (by simpa using hne)
  rw [h k c v hw hafter] at hne
  cases hne

/-- A row that meets the condition has been there before. -/
theorem Spared.unwritten (h : Spared tx cond) (hv : tx.writes.read rows k = some v)
    (hcond : cond k v = true) : tx.writes k = none ∧ rows k = some v := by
  cases hw : tx.writes k with
  | none =>
    rw [Writes.read_of_none hw] at hv
    exact ⟨rfl, hv⟩
  | some c =>
    rw [Writes.read_of_some hw] at hv
    rw [h k c v hw hv] at hcond
    cases hcond

theorem exec_spared (h : Spared tx cond) (hstmt : stmt ≠ .commit) (hleaves : Leaves stmt cond)
    (hs : exec db i tx stmt = some (db', p))
    (hp : p = .running tx' ∨ ∃ reply, p = .replied tx' reply) : Spared tx' cond := by
  have hw := exec_writes hs hp
  have hsame (he : tx'.writes = tx.writes) : Spared tx' cond := by
    unfold Spared
    rw [he]
    exact h
  cases stmt with
  | read | lock k => exact hsame hw
  | commit => exact absurd rfl hstmt
  | insert k v =>
    intro k' c v' hc hafter
    rw [hw.2] at hc
    by_cases hk : k' = k
    · subst hk
      rw [Writes.set_self] at hc
      obtain rfl := some.inj hc
      obtain rfl := some.inj hafter
      exact hleaves
    · rw [Writes.set_of_ne hk] at hc
      exact h k' c v' hc hafter
  | update cond' data =>
    intro k c v hc hafter
    rcases hw k with he | ⟨v₀, -, hcond', he⟩
    · exact h k c v (he ▸ hc) hafter
    · obtain rfl := some.inj (he.symm.trans hc)
      exact hleaves k v₀ v hcond' hafter

/-- **An update of a read-committed transaction is complete**: it clears a condition that implies its
own and that its data makes false. -/
theorem exec_seen {cond' : ∀ k, V k → Bool} (h : TxOk db i tx) (hdb : db.Listed)
    (hser : tx.serializable = false) (hsnap : tx.snapshot = none)
    (himp : ∀ k v, cond k v = true → cond' k v = true)
    (hdata : ∀ k v w, data k v = some w → cond k w = false)
    (hseen : tx.pending ≠ none → Seen db.rows tx cond)
    (hs : exec db i tx (.update cond' data) = some (db', p)) :
    (∀ tx', p = .running tx' → Seen db.rows tx' cond) ∧
      ∀ tx' reply, p = .replied tx' reply → Cleared db.rows tx' cond := by
  have hstep := exec_update_cases hs
  rw [begin_readCommitted hser] at hstep
  cases hstep with
  | failed => exact ⟨fun _ hp => (by cases hp), fun _ _ hp => (by cases hp)⟩
  | scanned hpend =>
    refine ⟨fun tx' hp => ?_, fun _ _ hp => (by cases hp)⟩
    obtain rfl := Progress.running.inj hp
    refine fun k v hv hcond => ⟨_, 0, rfl, ?_⟩
    have hview : tx.view db k = some v := by
      unfold Tx.view
      rw [hsnap]
      exact hv
    refine List.mem_dedup.mpr (List.mem_filter.mpr ⟨h.mem_keys hdb hv, ?_⟩)
    rw [hview]
    exact himp k v hcond
  | done hpend =>
    refine ⟨fun _ hp => (by cases hp), fun tx' reply hp => ?_⟩
    obtain ⟨rfl, -⟩ := Progress.replied.inj hp
    refine Seen.cleared (fun k v hv hcond => ?_) rfl
    obtain ⟨rest, n, he, hmem⟩ := hseen (by rw [hpend]; exact Option.some_ne_none _) k v hv hcond
    obtain ⟨rfl, -⟩ := Prod.mk.inj (some.inj (hpend.symm.trans he))
    cases hmem
  | @passed k rest n hpend _ hno =>
    refine ⟨fun tx' hp => ?_, fun _ _ hp => (by cases hp)⟩
    obtain rfl := Progress.running.inj hp
    refine fun k' v hv hcond => ⟨rest, n, rfl, ?_⟩
    obtain ⟨rest', n', he, hmem⟩ :=
      hseen (by rw [hpend]; exact Option.some_ne_none _) k' v hv hcond
    obtain ⟨rfl, -⟩ := Prod.mk.inj (some.inj (hpend.symm.trans he))
    rcases List.mem_cons.mp hmem with rfl | hmem
    · rw [hv, Option.filter_some_pos (himp k' v hcond)] at hno
      cases hno
    · exact hmem
  | @took k rest n v₀ hpend _ hv₀ hcond₀ =>
    refine ⟨fun tx' hp => ?_, fun _ _ hp => (by cases hp)⟩
    obtain rfl := Progress.running.inj hp
    refine fun k' v hv hcond => ⟨rest, n + 1, rfl, ?_⟩
    by_cases hk : k' = k
    · subst hk
      have hafter : data k' v₀ = some v := (Writes.read_of_some Writes.set_self).symm.trans hv
      rw [hdata k' v₀ v hafter] at hcond
      cases hcond
    · have hold : tx.writes.read db.rows k' = some v := by
        rw [← hv]
        unfold Writes.read
        simp only [Writes.set_of_ne hk]
      obtain ⟨rest', n', he, hmem⟩ :=
        hseen (by rw [hpend]; exact Option.some_ne_none _) k' v hold hcond
      obtain ⟨rfl, -⟩ := Prod.mk.inj (some.inj (hpend.symm.trans he))
      exact (List.mem_cons.mp hmem).resolve_left hk

/-! ### Rows that an update has taken -/

/-- The update of the transaction has still to look at the row. -/
def Awaits (tx : Tx V) (k : K) : Prop := ∃ rest n, tx.pending = some (rest, n) ∧ k ∈ rest

/-- Each row that meets the condition has been updated by the transaction, or is one that its update
has still to look at. -/
structure Gathered (rows : Rows V) (tx : Tx V) (cond : ∀ k, V k → Bool)
    (data : ∀ k, V k → Option (V k)) : Prop where
  nodup : ∀ rest n, tx.pending = some (rest, n) → rest.Nodup
  taken : ∀ k v, rows k = some v → cond k v = true →
    (tx.writes k ≠ none ∧ tx.writes.read rows k = data k v ∧ ¬ Awaits tx k) ∨
      tx.writes.read rows k = some v ∧ Awaits tx k

theorem Gathered.mono (h : Gathered rows tx cond data)
    (hkept : ∀ k, tx.writes k ≠ none → rows' k = rows k) (hrows : Brings rows rows' tx cond) :
    Gathered rows' tx cond data := by
  refine ⟨h.nodup, fun k v hv hcond => ?_⟩
  cases hw : tx.writes k with
  | none =>
    obtain ⟨v', hv', hcond'⟩ := hrows k v hw hv hcond
    rcases h.taken k v' hv' hcond' with ⟨hwritten, -⟩ | ⟨-, hrest⟩
    · exact absurd hw hwritten
    · exact .inr ⟨by rw [Writes.read_of_none hw, hv], hrest⟩
  | some c =>
    have hne : tx.writes k ≠ none := by simp [hw]
    rw [hkept k hne] at hv
    have hk := h.taken k v hv hcond
    rw [hw, Writes.read_of_some hw] at hk
    rw [Writes.read_of_some hw]
    exact hk

theorem Gathered.read (h : Gathered rows tx cond data) (hpend : tx.pending = none)
    (hv : rows k = some v) (hcond : cond k v = true) : tx.writes.read rows k = data k v := by
  rcases h.taken k v hv hcond with ⟨-, hread, -⟩ | ⟨-, rest, n, he, -⟩
  · exact hread
  · rw [hpend] at he
    cases he

theorem awaits_cons {k' : K} (hpend : tx.pending = some (k' :: rest, n)) (hk : k ≠ k') :
    Awaits tx k ↔ k ∈ rest := by
  constructor
  · rintro ⟨rest', n', he, hmem⟩
    obtain ⟨rfl, -⟩ := Prod.mk.inj (some.inj (hpend.symm.trans he))
    exact (List.mem_cons.mp hmem).resolve_left hk
  · exact fun hmem => ⟨_, n, hpend, List.mem_cons_of_mem _ hmem⟩

/-- The first of the rows that the update has to look at is passed. -/
theorem Gathered.passed (h : Gathered rows tx cond data)
    (hpend : tx.pending = some (k :: rest, n))
    (hno : (tx.writes.read rows k).filter (cond k) = none) :
    Gathered rows { tx with pending := some (rest, n) } cond data := by
  obtain ⟨-, hnodup⟩ := List.nodup_cons.mp (h.nodup _ _ hpend)
  have hawaits {k' : K} : Awaits { tx with pending := some (rest, n) } k' ↔ k' ∈ rest := by
    constructor
    · rintro ⟨rest', n', he, hmem⟩
      obtain ⟨rfl, -⟩ := pair_inj he
      exact hmem
    · exact fun hmem => ⟨rest, n, rfl, hmem⟩
  refine ⟨fun rest' n' he => ?_, fun k' v hv hcond => ?_⟩
  · obtain ⟨rfl, -⟩ := pair_inj he
    exact hnodup
  rw [hawaits]
  by_cases hk : k' = k
  · subst hk
    rcases h.taken k' v hv hcond with ⟨-, -, hno⟩ | ⟨hread, -⟩
    · exact absurd ⟨_, n, hpend, List.mem_cons_self⟩ hno
    · rw [hread, Option.filter_some_pos hcond] at hno
      cases hno
  · have hold := h.taken k' v hv hcond
    rwa [awaits_cons hpend hk] at hold

/-- The first of the rows that the update has to look at is taken. -/
theorem Gathered.took {v₀ : V k} (h : Gathered rows tx cond data)
    (hpend : tx.pending = some (k :: rest, n)) (hv₀ : tx.writes.read rows k = some v₀) :
    Gathered rows
      { tx with writes := tx.writes.set k (rows k) (data k v₀), pending := some (rest, n + 1) }
      cond data := by
  obtain ⟨hfirst, hnodup⟩ := List.nodup_cons.mp (h.nodup _ _ hpend)
  generalize htx : { tx with
    writes := tx.writes.set k (rows k) (data k v₀), pending := some (rest, n + 1) } = tx'
  have hpend' : tx'.pending = some (rest, n + 1) := by rw [← htx]
  have hwrites : tx'.writes = tx.writes.set k (rows k) (data k v₀) := by rw [← htx]
  have hawaits {k' : K} : Awaits tx' k' ↔ k' ∈ rest := by
    constructor
    · rintro ⟨rest', n', he, hmem⟩
      obtain ⟨rfl, -⟩ := Prod.mk.inj (some.inj (hpend'.symm.trans he))
      exact hmem
    · exact fun hmem => ⟨rest, n + 1, hpend', hmem⟩
  refine ⟨fun rest' n' he => ?_, fun k' v hv hcond => ?_⟩
  · obtain ⟨rfl, -⟩ := Prod.mk.inj (some.inj (hpend'.symm.trans he))
    exact hnodup
  rw [hawaits, hwrites]
  by_cases hk : k' = k
  · subst hk
    rcases h.taken k' v hv hcond with ⟨-, -, hno⟩ | ⟨hread, -⟩
    · exact absurd ⟨_, n, hpend, List.mem_cons_self⟩ hno
    · obtain rfl := some.inj (hv₀.symm.trans hread)
      refine .inl ⟨by simp [Writes.set_self], ?_, hfirst⟩
      rw [Writes.read_of_some Writes.set_self]
  · have hread : (tx.writes.set k (rows k) (data k v₀)).read rows k' = tx.writes.read rows k' := by
      unfold Writes.read
      simp only [Writes.set_of_ne hk]
    have hset : tx.writes.set k (rows k) (data k v₀) k' = tx.writes k' := Writes.set_of_ne hk
    have hold := h.taken k' v hv hcond
    rwa [awaits_cons hpend hk, ← hread, ← hset] at hold

/-- **An update of a read-committed transaction takes all rows that meet its condition**, if the
transaction has not changed them before. -/
theorem exec_gathered (h : TxOk db i tx) (hdb : db.Listed) (hser : tx.serializable = false)
    (hsnap : tx.snapshot = none)
    (hfresh : tx.pending = none → ∀ k v, db.rows k = some v → cond k v = true →
      tx.writes.read db.rows k = some v)
    (hold : tx.pending ≠ none → Gathered db.rows tx cond data)
    (hs : exec db i tx (.update cond data) = some (db', p))
    (hp : p = .running tx' ∨ ∃ reply, p = .replied tx' reply) : Gathered db.rows tx' cond data := by
  have hstep := exec_update_cases hs
  rw [begin_readCommitted hser] at hstep
  cases hstep with
  | failed => rcases hp with hp | ⟨reply, hp⟩ <;> cases hp
  | scanned hpend =>
    rcases hp with hp | ⟨reply, hp⟩
    · obtain rfl := Progress.running.inj hp
      refine ⟨fun rest n he => ?_, fun k v hv hcond => ?_⟩
      · obtain ⟨rfl, -⟩ := pair_inj he
        exact List.nodup_dedup _
      have hread := hfresh hpend k v hv hcond
      have hview : tx.view db k = some v := by
        unfold Tx.view
        rw [hsnap]
        exact hread
      refine .inr ⟨hread, _, 0, rfl, List.mem_dedup.mpr (List.mem_filter.mpr ?_)⟩
      exact ⟨h.mem_keys hdb hread, by rw [hview]; exact hcond⟩
    · cases hp
  | @done n hpend =>
    rcases hp with hp | ⟨reply, hp⟩
    · cases hp
    · obtain ⟨rfl, -⟩ := Progress.replied.inj hp
      refine ⟨nofun, fun k v hv hcond => ?_⟩
      have hgathered := hold (by simp [hpend])
      rcases hgathered.taken k v hv hcond with ⟨hwritten, hread, -⟩ | ⟨-, rest, n', he, hmem⟩
      · exact .inl ⟨hwritten, hread, nofun⟩
      · obtain ⟨rfl, -⟩ := Prod.mk.inj (some.inj (hpend.symm.trans he))
        cases hmem
  | @passed k rest n hpend _ hno =>
    rcases hp with hp | ⟨reply, hp⟩
    · obtain rfl := Progress.running.inj hp
      exact (hold (by simp [hpend])).passed hpend hno
    · cases hp
  | @took k rest n v₀ hpend _ hv₀ _ =>
    rcases hp with hp | ⟨reply, hp⟩
    · obtain rfl := Progress.running.inj hp
      exact (hold (by simp [hpend])).took hpend hv₀
    · cases hp

end BackendFoundation.Lib.WriteLog
