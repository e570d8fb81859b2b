import BackendFoundation.Errors
import BackendFoundation.Lib.CursorPages

/-! # Cursor pagination

`paginateCursor` of `cursor-pagination.ts` fetches one row more than the page has. If that row is
there, the cursor is the id of the last row of the page. `Walk` follows the cursors from a page on
until there is none.

A cursor is tested for truth, so the empty one asks for the first page again (`walk_again`).

Main result: `walk_visits_iff`. -/

namespace BackendFoundation.Http.CursorPagination

open Errors Lib.CursorPages

structure CursorPaginationInput where
  cursor : Option String
  limit : ℕ
deriving DecidableEq

/-- `cursor` is the id of the cursor row. -/
structure CursorPaginationQuery where
  take : ℕ
  cursor : Option String := none
  skip : Option ℕ := none
deriving DecidableEq

structure CursorPage (α : Type) where
  items : List α
  nextCursor : Option String
deriving DecidableEq

variable {α κ : Type} [LinearOrder κ]

abbrev FetchPage (α : Type) := CursorPaginationQuery → Except Thrown (List α)

def query (input : CursorPaginationInput) : CursorPaginationQuery :=
  match input.cursor with
  | some cursor =>
    if cursor ≠ "" then { take := input.limit + 1, cursor := some cursor, skip := some 1 }
    else { take := input.limit + 1 }
  | none => { take := input.limit + 1 }

def paginateCursor (id : α → String) (input : CursorPaginationInput) (fetchPage : FetchPage α) :
    Except Thrown (CursorPage α) := do
  let items ← fetchPage (query input)
  let hasMore := input.limit < items.length
  let pageItems := if hasMore then items.take input.limit else items
  return { items := pageItems, nextCursor := if hasMore then pageItems.getLast?.map id else none }

/-- The pages from a cursor on, the `n`-th of them with its own limit. -/
inductive Walk (id : α → String) (fetchPage : FetchPage α) :
    (ℕ → ℕ) → Option String → List (List α) → Prop
  | last {limit : ℕ → ℕ} {cursor : Option String} {items : List α} :
    paginateCursor id ⟨cursor, limit 0⟩ fetchPage = .ok ⟨items, none⟩ →
      Walk id fetchPage limit cursor [items]
  | next {limit : ℕ → ℕ} {cursor : Option String} {items : List α} {nextCursor : String}
      {pages : List (List α)} :
    paginateCursor id ⟨cursor, limit 0⟩ fetchPage = .ok ⟨items, some nextCursor⟩ →
      Walk id fetchPage (fun n => limit (n + 1)) (some nextCursor) pages →
        Walk id fetchPage limit cursor (items :: pages)

/-- The rows that a callback fetches: the first ones, or those behind the cursor row. -/
structure Fetches (id : α → String) (key : α → κ) (rows : List α) (fetchPage : FetchPage α) :
    Prop where
  first : ∀ take, fetchPage { take := take } = .ok ((ordered key rows).take take)
  behind : ∀ take, ∀ cursor ∈ rows,
    fetchPage { take := take, cursor := some (id cursor), skip := some 1 } =
      .ok ((after key (key cursor) (ordered key rows)).take take)

/-- `findMany` with the arguments of the query: from the row of the cursor on, without the first
`skip` rows. -/
def findMany (id : α → String) (key : α → κ) (rows : List α) : FetchPage α := fun query =>
  let found := match query.cursor with
    | some cursor => (ordered key rows).dropWhile (id · ≠ cursor)
    | none => ordered key rows
  .ok ((found.drop (query.skip.getD 0)).take query.take)

/-- The walk from the first page on ends, and has every row once and in order, on pages within their
limits. -/
def Visits (id : α → String) (fetchPage : FetchPage α) (limit : ℕ → ℕ) (rows : List α) : Prop :=
  ∃ pages, Walk id fetchPage limit none pages ∧ pages.flatten = rows ∧
    ∀ n page, pages[n]? = some page → page.length ≤ limit n

variable {id : α → String} {key : α → κ} {rows done front rest : List α} {row first : α}
  {fetchPage : FetchPage α} {limit : ℕ → ℕ} {cursor : Option String} {pages : List (List α)}

/-! ### One page -/

/-- The rows behind a cursor are `rest`. -/
def Behind (fetchPage : FetchPage α) (cursor : Option String) (rest : List α) : Prop :=
  ∀ limit, fetchPage (query ⟨cursor, limit⟩) = .ok (rest.take (limit + 1))

theorem behind_none (h : Fetches id key rows fetchPage) :
    Behind fetchPage none (ordered key rows) := fun limit => h.first (limit + 1)

theorem behind_empty (h : Fetches id key rows fetchPage) :
    Behind fetchPage (some "") (ordered key rows) := fun limit => h.first (limit + 1)

theorem behind_row (h : Fetches id key rows fetchPage) (hkeys : (rows.map key).Nodup)
    (hrows : ordered key rows = done ++ row :: rest) (hid : id row ≠ "") :
    Behind fetchPage (some (id row)) rest := by
  intro limit
  have hmem : row ∈ rows := by
    have hordered : row ∈ ordered key rows := by
      rw [hrows]
      exact List.mem_append_right done List.mem_cons_self
    exact mem_ordered.mp hordered
  have hlt := ordered_lt hkeys
  rw [hrows] at hlt
  have hbehind := h.behind (limit + 1) row hmem
  rw [hrows, after_ordered hlt] at hbehind
  have hquery : query ⟨some (id row), limit⟩ =
      { take := limit + 1, cursor := some (id row), skip := some 1 } := if_pos hid
  rw [hquery]
  exact hbehind

theorem paginateCursor_eq {input : CursorPaginationInput} {items : List α}
    (h : fetchPage (query input) = .ok items) : paginateCursor id input fetchPage =
      .ok (if input.limit < items.length then
          ⟨items.take input.limit, (items.take input.limit).getLast?.map id⟩
        else ⟨items, none⟩) := by
  rw [paginateCursor, h]
  show Except.ok _ = Except.ok _
  split_ifs <;> rfl

omit [LinearOrder κ] in
theorem nodup_keys (hids : (rows.map id).Nodup)
    (hlast : ∀ a ∈ rows, ∀ b ∈ rows, key a = key b → id a = id b) : (rows.map key).Nodup := by
  rw [List.nodup_map_iff_inj_on hids.of_map]
  intro a ha b hb hab
  exact List.inj_on_of_nodup_map hids ha hb (hlast a ha b hb hab)

theorem fetches_findMany (hids : (rows.map id).Nodup)
    (hlast : ∀ a ∈ rows, ∀ b ∈ rows, key a = key b → id a = id b) :
    Fetches id key rows (findMany id key rows) := by
  have hkeys := nodup_keys hids hlast
  refine ⟨fun take => rfl, fun take cursor hcursor => ?_⟩
  have hordered : cursor ∈ ordered key rows := mem_ordered.mpr hcursor
  obtain ⟨done, rest, hrows⟩ := List.append_of_mem hordered
  have hlt := ordered_lt hkeys
  have hnodup : ((ordered key rows).map id).Nodup :=
    ((perm_ordered key rows).map id).nodup_iff.mpr hids
  rw [hrows] at hlt hnodup
  have hfound : (done ++ cursor :: rest).dropWhile (id · ≠ id cursor) = cursor :: rest := by
    have hdone : ∀ row ∈ done, decide (id row ≠ id cursor) = true := by
      intro row hrow
      rw [List.map_append, List.nodup_append] at hnodup
      exact decide_eq_true
        (hnodup.2.2 _ (List.mem_map_of_mem hrow) _ (List.mem_map_of_mem List.mem_cons_self))
    have hself : ¬ decide (id cursor ≠ id cursor) = true := by simp
    rw [List.dropWhile_append_of_pos hdone, List.dropWhile_cons, if_neg hself]
  rw [hrows, after_ordered hlt]
  show Except.ok ((((ordered key rows).dropWhile (id · ≠ id cursor)).drop 1).take take) = _
  rw [hrows, hfound]
  rfl

theorem paginateCursor_of_short (h : Behind fetchPage cursor rest) {limit : ℕ}
    (hshort : rest.length ≤ limit) :
    paginateCursor id ⟨cursor, limit⟩ fetchPage = .ok ⟨rest, none⟩ := by
  have hprobe : rest.take (limit + 1) = rest := List.take_of_length_le (Nat.le_succ_of_le hshort)
  have hfetch := h limit
  rw [hprobe] at hfetch
  rw [paginateCursor_eq hfetch, if_neg (Nat.not_lt.mpr hshort)]

/-- A page that another one follows: the probe shows a row behind its last one. -/
theorem paginateCursor_of_more (h : Behind fetchPage cursor (front ++ row :: rest))
    (hrest : rest ≠ []) {limit : ℕ} (hlimit : front.length + 1 = limit) :
    paginateCursor id ⟨cursor, limit⟩ fetchPage = .ok ⟨front ++ [row], some (id row)⟩ := by
  have hpos := List.length_pos_of_ne_nil hrest
  have hprobe : limit < ((front ++ row :: rest).take (limit + 1)).length := by
    rw [List.length_take, List.length_append, List.length_cons]
    omega
  have hpage : (front ++ row :: rest).take limit = front ++ [row] := by
    rw [List.append_cons]
    refine List.take_left' ?_
    rw [List.length_append, List.length_singleton, hlimit]
  have hitems : ((front ++ row :: rest).take (limit + 1)).take limit = front ++ [row] := by
    rw [List.take_take, Nat.min_eq_left (Nat.le_succ limit), hpage]
  rw [paginateCursor_eq (h limit), if_pos hprobe, hitems, List.getLast?_concat, Option.map_some]

/-- A page is the last one, or its rows stand before a row that another one follows. -/
theorem short_or_more (rest : List α) {limit : ℕ} (hlimit : 1 ≤ limit) :
    rest.length ≤ limit ∨ ∃ front row more,
      rest = front ++ row :: more ∧ front.length + 1 = limit ∧ more ≠ [] := by
  by_cases hshort : rest.length ≤ limit
  · exact .inl hshort
  · have hlt : limit - 1 < rest.length := by omega
    refine .inr ⟨rest.take (limit - 1), rest[limit - 1], rest.drop limit, ?_, ?_, ?_⟩
    · have hdrop := List.drop_eq_getElem_cons hlt
      rw [Nat.sub_add_cancel hlimit] at hdrop
      rw [← hdrop, List.take_append_drop]
    · rw [List.length_take]
      omega
    · refine List.ne_nil_of_length_pos ?_
      rw [List.length_drop]
      omega

/-! ### The walk -/

/-- **The walk visits what is behind the cursor**, if each page end has an id that is not empty. -/
theorem walk_visits (h : Fetches id key rows fetchPage) (hkeys : (rows.map key).Nodup)
    (hlimit : ∀ n, 1 ≤ limit n) (hrows : ordered key rows = done ++ rest)
    (hbehind : Behind fetchPage cursor rest) (hends : PageEnds (id · ≠ "") limit rest) :
    ∃ pages, Walk id fetchPage limit cursor pages ∧ pages.flatten = rest ∧
      ∀ n page, pages[n]? = some page → page.length ≤ limit n := by
  induction hlength : rest.length using Nat.strong_induction_on
    generalizing limit done rest cursor with
  | _ length ih =>
    rcases short_or_more rest (hlimit 0) with hshort | ⟨front, row, more, rfl, hpage, hmore⟩
    · refine ⟨[rest], .last (paginateCursor_of_short hbehind hshort), List.flatten_singleton, ?_⟩
      intro n page hn
      cases n with
      | zero =>
        rw [← Option.some.inj hn]
        exact hshort
      | succ n => cases hn
    · obtain ⟨hid, hlater⟩ := (pageEnds_append_iff hpage hmore hlimit).mp hends
      have hrow : ordered key rows = (done ++ front) ++ row :: more := by
        rw [hrows, List.append_assoc]
      have hcursor : Behind fetchPage (some (id row)) more := behind_row h hkeys hrow hid
      have hshorter : more.length < length := by
        rw [← hlength, List.length_append, List.length_cons]
        omega
      have hdone : ordered key rows = (done ++ front ++ [row]) ++ more := by
        rw [hrow, List.append_assoc (done ++ front), List.singleton_append]
      obtain ⟨pages, hwalk, hflatten, hpages⟩ :=
        ih more.length hshorter (fun n => hlimit (n + 1)) hdone hcursor hlater rfl
      refine ⟨(front ++ [row]) :: pages,
        .next (paginateCursor_of_more hbehind hmore hpage) hwalk, ?_, ?_⟩
      · rw [List.flatten_cons, hflatten, List.append_assoc, List.singleton_append]
      · intro n page hn
        cases n with
        | zero =>
          rw [← Option.some.inj hn, List.length_append, List.length_singleton]
          exact hpage.le
        | succ n => exact hpages n page hn

theorem page_starts {page : CursorPage α} {limit : ℕ} (hlimit : 1 ≤ limit)
    (hbehind : Behind fetchPage cursor (first :: rest))
    (hpage : paginateCursor id ⟨cursor, limit⟩ fetchPage = .ok page) :
    ∃ back, page.items = first :: back := by
  obtain ⟨n, rfl⟩ : ∃ n, limit = n + 1 := ⟨limit - 1, by omega⟩
  rw [paginateCursor_eq (hbehind (n + 1)), List.take_succ_cons] at hpage
  split_ifs at hpage
  · cases hpage
    exact ⟨_, List.take_succ_cons⟩
  · cases hpage
    exact ⟨_, rfl⟩

theorem walk_starts (hwalk : Walk id fetchPage limit cursor pages) (hlimit : 1 ≤ limit 0)
    (hbehind : Behind fetchPage cursor (first :: rest)) :
    ∃ back, pages.flatten = first :: back := by
  cases hwalk with
  | last hpage =>
    obtain ⟨back, hitems⟩ := page_starts hlimit hbehind hpage
    exact ⟨back, by rw [List.flatten_singleton]; exact hitems⟩
  | @next _ _ items _ pages hpage hwalk =>
    obtain ⟨back, hitems⟩ := page_starts hlimit hbehind hpage
    refine ⟨back ++ pages.flatten, ?_⟩
    rw [List.flatten_cons, ← List.cons_append, ← hitems]

/-- **An empty id at a page end starts the walk again.** -/
theorem walk_again (h : Fetches id key rows fetchPage) (hkeys : (rows.map key).Nodup)
    (hfirst : ordered key rows = first :: front)
    (hwalk : Walk id fetchPage limit cursor pages) (hlimit : ∀ n, 1 ≤ limit n)
    (hrows : ordered key rows = done ++ rest) (hbehind : Behind fetchPage cursor rest)
    (hends : ¬ PageEnds (id · ≠ "") limit rest) :
    ∃ before back, before ≠ [] ∧ pages.flatten = before ++ first :: back := by
  induction hwalk generalizing done rest with
  | @last limit cursor items hpage =>
    rcases short_or_more rest (hlimit 0) with hshort | ⟨page, row, more, rfl, hlength, hmore⟩
    · exact absurd (PageEnds.of_short hshort) hends
    · rw [paginateCursor_of_more hbehind hmore hlength] at hpage
      cases hpage
  | @next limit cursor items nextCursor pages hpage hwalk ih =>
    rcases short_or_more rest (hlimit 0) with hshort | ⟨page, row, more, rfl, hlength, hmore⟩
    · exact absurd (PageEnds.of_short hshort) hends
    · rw [paginateCursor_of_more hbehind hmore hlength] at hpage
      cases hpage
      have hnonempty : page ++ [row] ≠ [] :=
        List.append_ne_nil_of_right_ne_nil _ (List.cons_ne_nil _ _)
      by_cases hid : id row = ""
      · -- The cursor is empty, and the next page is the first one.
        have hagain : Behind fetchPage (some (id row)) (first :: front) := by
          rw [hid, ← hfirst]
          exact behind_empty h
        obtain ⟨back, hback⟩ := walk_starts hwalk (hlimit 1) hagain
        exact ⟨page ++ [row], back, hnonempty, by rw [List.flatten_cons, hback]⟩
      · have hlater : ¬ PageEnds (id · ≠ "") (fun n => limit (n + 1)) more := fun hmoreEnds =>
          hends ((pageEnds_append_iff hlength hmore hlimit).mpr ⟨hid, hmoreEnds⟩)
        have hrow : ordered key rows = (done ++ page) ++ row :: more := by
          rw [hrows, List.append_assoc]
        have hdone : ordered key rows = (done ++ page ++ [row]) ++ more := by
          rw [hrow, List.append_assoc (done ++ page), List.singleton_append]
        obtain ⟨before, back, -, hflatten⟩ := ih (fun n => hlimit (n + 1)) hdone
          (behind_row h hkeys hrow hid) hlater
        refine ⟨(page ++ [row]) ++ before, back, List.append_ne_nil_of_left_ne_nil hnonempty _, ?_⟩
        rw [List.flatten_cons, hflatten, ← List.append_assoc]

/-- **The walk visits each row once**, in order and on pages within their limits, exactly if no page
that another one follows ends with the empty id. -/
theorem walk_visits_iff (id : α → String) (key : α → κ) (rows : List α) (fetchPage : FetchPage α)
    (limit : ℕ → ℕ) (hids : (rows.map id).Nodup)
    (hlast : ∀ a ∈ rows, ∀ b ∈ rows, key a = key b → id a = id b)
    (hfetch : Fetches id key rows fetchPage) (hlimit : ∀ n, 1 ≤ limit n) :
    Visits id fetchPage limit (ordered key rows) ↔
      PageEnds (id · ≠ "") limit (ordered key rows) := by
  have hkeys := nodup_keys hids hlast
  constructor
  · rintro ⟨pages, hwalk, hflatten, -⟩
    by_contra hends
    cases hfirst : ordered key rows with
    | nil =>
      rw [hfirst] at hends
      exact hends (PageEnds.of_short (Nat.zero_le _))
    | cons first front =>
      obtain ⟨before, back, hbefore, hagain⟩ :=
        walk_again hfetch hkeys hfirst hwalk hlimit (List.nil_append _).symm (behind_none hfetch)
          hends
      have hnodup : (first :: front).Nodup := by
        rw [← hfirst]
        exact ((perm_ordered key rows).nodup_iff).mpr hkeys.of_map
      rw [hflatten, hfirst] at hagain
      obtain ⟨other, before, rfl⟩ := List.exists_cons_of_ne_nil hbefore
      have htail := (List.cons.inj hagain).2
      refine (List.nodup_cons.mp hnodup).1 ?_
      rw [htail]
      exact List.mem_append_right before List.mem_cons_self
  · intro hends
    exact walk_visits hfetch hkeys hlimit (List.nil_append _).symm (behind_none hfetch) hends

/-- Three rows, with a limit of its own for each page. -/
theorem walk_visits_three : Visits Prod.snd
    (findMany Prod.snd Prod.fst [(1, "b"), (0, "a"), (2, "c")]) (fun n => n + 1)
    (ordered Prod.fst [(1, "b"), (0, "a"), (2, "c")]) := by
  have hids : ([(1, "b"), (0, "a"), (2, "c")].map (Prod.snd : ℕ × String → String)).Nodup := by
    decide
  have hlast : ∀ a ∈ ([(1, "b"), (0, "a"), (2, "c")] : List (ℕ × String)),
      ∀ b ∈ ([(1, "b"), (0, "a"), (2, "c")] : List (ℕ × String)), a.1 = b.1 → a.2 = b.2 := by
    decide
  refine (walk_visits_iff Prod.snd Prod.fst _ _ (fun n => n + 1) hids hlast
    (fetches_findMany hids hlast) fun n => Nat.le_add_left 1 n).mpr (PageEnds.of_forall ?_)
  decide

/-- The first page ends with the empty id, and so does each page after it. -/
theorem walk_never_ends :
    ([(0, ""), (1, "b")].map (Prod.snd : ℕ × String → String)).Nodup ∧
      (∀ a ∈ ([(0, ""), (1, "b")] : List (ℕ × String)),
        ∀ b ∈ ([(0, ""), (1, "b")] : List (ℕ × String)), a.1 = b.1 → a.2 = b.2) ∧
      Fetches Prod.snd Prod.fst [(0, ""), (1, "b")]
        (findMany Prod.snd Prod.fst [(0, ""), (1, "b")]) ∧
      ¬ ∃ pages, Walk Prod.snd (findMany Prod.snd Prod.fst [(0, ""), (1, "b")]) (fun _ => 1) none
        pages := by
  have hids : ([(0, ""), (1, "b")].map (Prod.snd : ℕ × String → String)).Nodup := by decide
  have hlast : ∀ a ∈ ([(0, ""), (1, "b")] : List (ℕ × String)),
      ∀ b ∈ ([(0, ""), (1, "b")] : List (ℕ × String)), a.1 = b.1 → a.2 = b.2 := by decide
  have hpage (cursor : Option String) (hcursor : cursor = none ∨ cursor = some "") :
      paginateCursor Prod.snd ⟨cursor, 1⟩ (findMany Prod.snd Prod.fst [(0, ""), (1, "b")]) =
        .ok ⟨[(0, "")], some ""⟩ := by
    rcases hcursor with rfl | rfl
    · rfl
    · rfl
  have hnever {limit : ℕ → ℕ} {cursor : Option String} {pages : List (List (ℕ × String))}
      (hwalk : Walk Prod.snd (findMany Prod.snd Prod.fst [(0, ""), (1, "b")]) limit cursor pages)
      (hlimit : ∀ n, limit n = 1) (hcursor : cursor = none ∨ cursor = some "") : False := by
    induction hwalk with
    | last h =>
      rw [hlimit, hpage _ hcursor] at h
      cases h
    | next h _ ih =>
      rw [hlimit, hpage _ hcursor] at h
      cases h
      exact ih (fun n => hlimit (n + 1)) (.inr rfl)
  refine ⟨hids, hlast, fetches_findMany hids hlast, ?_⟩
  rintro ⟨pages, hwalk⟩
  exact hnever hwalk (fun _ => rfl) (.inl rfl)

end BackendFoundation.Http.CursorPagination
