import Mathlib.Data.List.Basic
import Mathlib.Tactic.Common

/-! # Reading and filling HTML

A reader of HTML, one character at a time. A character of the text or of a quoted attribute value is
content, one of a tag is markup; a character reference stands for the character that it names. The
values of attributes without quotes count as markup. Comments and elements whose text is no HTML
(scripts and styles) are not read.

`escape` writes a text such that a reader in the text or in a quoted value takes it for content, all of
it, and goes on as before (`run_escape`). So a template whose holes are at such places can be filled
with any texts: its markup stays, and its holes read as what was put there (`run_fill`). -/

namespace BackendFoundation.Lib.Html

/-! ### The reader -/

/-- Where the reader is. -/
inductive Place
  | text
  | tag
  /-- After the `=` of an attribute. -/
  | beforeValue
  | unquoted
  | quoted (quote : Char)
deriving DecidableEq

/-- Content is read here. -/
def Place.TakesContent : Place → Prop
  | .text => True
  | .quoted quote => quote = '"' ∨ quote = '\''
  | .tag | .beforeValue | .unquoted => False

instance : DecidablePred Place.TakesContent := fun place => by
  unfold Place.TakesContent
  split <;> infer_instance

inductive Piece
  | markup (c : Char)
  | content (c : Char)
deriving DecidableEq

/-- A place, and what has been read of a character reference there, after its `&`. -/
structure Reader where
  place : Place
  reference : Option (List Char) := none
deriving DecidableEq

/-- The character references that are known. -/
def named (name : List Char) : Option Char :=
  if name = "amp".toList then some '&'
  else if name = "lt".toList then some '<'
  else if name = "gt".toList then some '>'
  else if name = "quot".toList then some '"'
  else if name = "#39".toList then some '\''
  else none

/-- A character outside of a reference. -/
def plain (place : Place) (c : Char) : Reader × List Piece :=
  match place with
  | .text =>
    if c = '<' then (⟨.tag, none⟩, [.markup c])
    else if c = '&' then (⟨.text, some []⟩, [])
    else (⟨.text, none⟩, [.content c])
  | .tag =>
    (⟨if c = '>' then .text else if c = '=' then .beforeValue else .tag, none⟩, [.markup c])
  | .beforeValue =>
    (⟨if c = '"' ∨ c = '\'' then .quoted c else if c = '>' then .text
      else if c.isWhitespace then .beforeValue else .unquoted, none⟩, [.markup c])
  | .unquoted =>
    (⟨if c = '>' then .text else if c.isWhitespace then .tag else .unquoted, none⟩, [.markup c])
  | .quoted quote =>
    if c = quote then (⟨.tag, none⟩, [.markup c])
    else if c = '&' then (⟨.quoted quote, some []⟩, [])
    else (⟨.quoted quote, none⟩, [.content c])

/-- What was read of a reference is content after all. -/
def unread (name : List Char) : List Piece := ('&' :: name).map .content

/-- A character after the `&` and the name of a reference. -/
def reference (place : Place) (name : List Char) (c : Char) : Reader × List Piece :=
  if c = ';' then
    (⟨place, none⟩,
      match named name with
      | some character => [.content character]
      | none => unread (name ++ [c]))
  else if c.isAlphanum ∨ c = '#' then (⟨place, some (name ++ [c])⟩, [])
  else ((plain place c).1, unread name ++ (plain place c).2)

def step : Reader → Char → Reader × List Piece
  | ⟨place, none⟩, c => plain place c
  | ⟨place, some name⟩, c => reference place name c

def run : Reader → List Char → Reader × List Piece
  | r, [] => (r, [])
  | r, c :: cs =>
    let next := step r c
    let rest := run next.1 cs
    (rest.1, next.2 ++ rest.2)

/-- What is left at the end. -/
def Reader.finish (r : Reader) : List Piece :=
  match r.reference with
  | none => []
  | some name => unread name

/-- A text, read from its beginning. -/
def read (cs : List Char) : List Piece :=
  let result := run ⟨.text, none⟩ cs
  result.2 ++ result.1.finish

theorem run_append (r : Reader) (cs ds : List Char) : run r (cs ++ ds) =
    ((run (run r cs).1 ds).1, (run r cs).2 ++ (run (run r cs).1 ds).2) := by
  induction cs generalizing r with
  | nil => rfl
  | cons c cs ih =>
    rw [List.cons_append, run, ih, run]
    simp only [List.append_assoc]

/-! ### Escaping -/

def escapeChar (c : Char) : List Char :=
  if c = '&' then "&amp;".toList
  else if c = '<' then "&lt;".toList
  else if c = '>' then "&gt;".toList
  else if c = '"' then "&quot;".toList
  else if c = '\'' then "&#39;".toList
  else [c]

def escape (cs : List Char) : List Char := cs.flatMap escapeChar

variable {place : Place} {c : Char}

/-- The characters that are escaped. -/
def Special (c : Char) : Prop := c = '&' ∨ c = '<' ∨ c = '>' ∨ c = '"' ∨ c = '\''

theorem escapeChar_cases (c : Char) : (¬ Special c ∧ escapeChar c = [c]) ∨
    ∃ name, escapeChar c = '&' :: name ++ [';'] ∧ named name = some c ∧
      ∀ d ∈ name, d ≠ ';' ∧ (d.isAlphanum ∨ d = '#') := by
  have hname {name : List Char} (hall : name.all (fun d => d ≠ ';' ∧ (d.isAlphanum ∨ d = '#')) = true) :
      ∀ d ∈ name, d ≠ ';' ∧ (d.isAlphanum ∨ d = '#') :=
    fun d hd => of_decide_eq_true (List.all_eq_true.mp hall d hd)
  by_cases hspecial : Special c
  · rcases hspecial with rfl | rfl | rfl | rfl | rfl
    · exact .inr ⟨"amp".toList, by decide, by decide, hname (by decide)⟩
    · exact .inr ⟨"lt".toList, by decide, by decide, hname (by decide)⟩
    · exact .inr ⟨"gt".toList, by decide, by decide, hname (by decide)⟩
    · exact .inr ⟨"quot".toList, by decide, by decide, hname (by decide)⟩
    · exact .inr ⟨"#39".toList, by decide, by decide, hname (by decide)⟩
  · refine .inl ⟨hspecial, ?_⟩
    simp only [Special, not_or] at hspecial
    obtain ⟨hamp, hlt, hgt, hquot, hapos⟩ := hspecial
    rw [escapeChar, if_neg hamp, if_neg hlt, if_neg hgt, if_neg hquot, if_neg hapos]

theorem run_name (acc : List Char) {name : List Char}
    (h : ∀ d ∈ name, d ≠ ';' ∧ (d.isAlphanum ∨ d = '#')) :
    run ⟨place, some acc⟩ name = (⟨place, some (acc ++ name)⟩, []) := by
  induction name generalizing acc with
  | nil => rw [run, List.append_nil]
  | cons d name ih =>
    obtain ⟨hsemi, hname⟩ := h d (List.mem_cons.mpr (.inl rfl))
    have hrest := ih (acc ++ [d]) fun e he => h e (List.mem_cons_of_mem d he)
    have hstep : step ⟨place, some acc⟩ d = (⟨place, some (acc ++ [d])⟩, []) := by
      rw [step, reference, if_neg hsemi, if_pos hname]
    rw [run, hstep, hrest, List.append_assoc]
    rfl

theorem run_reference (hplace : place.TakesContent) {name : List Char} (hname : named name = some c)
    (h : ∀ d ∈ name, d ≠ ';' ∧ (d.isAlphanum ∨ d = '#')) :
    run ⟨place, none⟩ ('&' :: name ++ [';']) = (⟨place, none⟩, [.content c]) := by
  have hamp : step ⟨place, none⟩ '&' = (⟨place, some []⟩, []) := by
    cases place with
    | text => rfl
    | quoted quote => rcases hplace with rfl | rfl <;> rfl
    | tag | beforeValue | unquoted => exact hplace.elim
  have hsemi : run ⟨place, some name⟩ [';'] = (⟨place, none⟩, [.content c]) := by
    rw [run, step, reference, if_pos rfl, hname]
    rfl
  rw [List.cons_append, run, hamp, run_append, run_name [] h, List.nil_append, hsemi]
  rfl

theorem run_escapeChar (hplace : place.TakesContent) :
    run ⟨place, none⟩ (escapeChar c) = (⟨place, none⟩, [.content c]) := by
  rcases escapeChar_cases c with ⟨hspecial, he⟩ | ⟨name, he, hname, hchars⟩
  · simp only [Special, not_or] at hspecial
    obtain ⟨hamp, hlt, -, hquot, hapos⟩ := hspecial
    have hplain : plain place c = (⟨place, none⟩, [.content c]) := by
      cases place with
      | text => rw [plain, if_neg hlt, if_neg hamp]
      | quoted quote =>
        have hne : c ≠ quote := by rcases hplace with rfl | rfl <;> assumption
        rw [plain, if_neg hne, if_neg hamp]
      | tag | beforeValue | unquoted => exact hplace.elim
    rw [he, run, step, hplain]
    rfl
  · rw [he]
    exact run_reference hplace hname hchars

/-- **An escaped text is content**, wherever the reader takes content. -/
theorem run_escape (hplace : place.TakesContent) (cs : List Char) :
    run ⟨place, none⟩ (escape cs) = (⟨place, none⟩, cs.map .content) := by
  induction cs with
  | nil => rfl
  | cons c cs ih =>
    have hcons : escape (c :: cs) = escapeChar c ++ escape cs := List.flatMap_cons
    rw [hcons, run_append, run_escapeChar hplace, ih]
    rfl

/-! ### Templates -/

variable {κ : Type*} {r r' : Reader}

/-- A character of a template or one of its holes. -/
inductive Fragment (κ : Type*)
  | char (c : Char)
  | hole (key : κ)

/-- What a template reads as: pieces and holes. -/
inductive Part (κ : Type*)
  | piece (p : Piece)
  | hole (key : κ)
deriving DecidableEq

/-- Reads a template, if its holes are where content is read. -/
def parts : Reader → List (Fragment κ) → Option (List (Part κ) × Reader)
  | r, [] => some ([], r)
  | r, .char c :: fragments =>
    (parts (step r c).1 fragments).map fun rest => ((step r c).2.map .piece ++ rest.1, rest.2)
  | r, .hole key :: fragments =>
    if r.place.TakesContent ∧ r.reference = none then
      (parts r fragments).map fun rest => (.hole key :: rest.1, rest.2)
    else none

/-- A template with texts in its holes, escaped. -/
def fill (value : κ → List Char) (fragments : List (Fragment κ)) : List Char :=
  fragments.flatMap fun
    | .char c => [c]
    | .hole key => escape (value key)

/-- What it should read as. -/
def fillParts (value : κ → List Char) (ps : List (Part κ)) : List Piece :=
  ps.flatMap fun
    | .piece p => [p]
    | .hole key => (value key).map .content

theorem fillParts_pieces (value : κ → List Char) (ps : List Piece) (rest : List (Part κ)) :
    fillParts value (ps.map .piece ++ rest) = ps ++ fillParts value rest := by
  rw [fillParts, List.flatMap_append, List.flatMap_map]
  simp only [List.flatMap_singleton']
  rfl

/-- **Filling a template.** The holes read as the texts put there, whatever these are, and everything
else as it does in the template. -/
theorem run_fill (value : κ → List Char) {fragments : List (Fragment κ)} {ps : List (Part κ)}
    (h : parts r fragments = some (ps, r')) :
    run r (fill value fragments) = (r', fillParts value ps) := by
  induction fragments generalizing r ps with
  | nil =>
    cases h
    rfl
  | cons fragment fragments ih =>
    cases fragment with
    | char c =>
      obtain ⟨⟨rest, r''⟩, hrest, he⟩ := Option.map_eq_some_iff.mp h
      cases he
      have hfill : fill value (.char c :: fragments) = c :: fill value fragments := rfl
      rw [hfill, run, ih hrest, fillParts_pieces]
    | hole key =>
      rw [parts] at h
      split_ifs at h with hplace
      obtain ⟨⟨rest, r''⟩, hrest, he⟩ := Option.map_eq_some_iff.mp h
      cases he
      obtain ⟨place, reference⟩ := r
      obtain ⟨htakes, rfl⟩ := hplace
      have hfill : fill value (.hole key :: fragments) = escape (value key) ++ fill value fragments := rfl
      rw [hfill, run_append, run_escape htakes, ih hrest]
      rfl

end BackendFoundation.Lib.Html
