import BackendFoundation.Errors
import BackendFoundation.Http.ClientIp
import BackendFoundation.Lib.Html

/-! # Interpolation

`interpolate.ts` and `locale.ts`: the tokens of an email template, their replacement by values, and the
HTML that is made of a text.

A template is the concatenation of its characters and tokens (`segments_source`). With `escape`, what a
reader of the result sees in the place of a token is the value, and the markup is that of the template,
if the tokens are in its text and in quoted attribute values; a missing value throws, with the name of
the first token that lacks one (`interpolate_read`). -/

namespace BackendFoundation.Notifications.Interpolate

open Errors Http.ClientIp Lib

/-! ### Escaping -/

/-- `value.replace(/c/g, text)`. -/
def replaceAll (c : Char) (text : String) (value : Text) : Text :=
  value.flatMap fun d => if d = c then text.toList else [d]

def escapeHtml (value : Text) : Text :=
  replaceAll '\'' "&#39;" (replaceAll '"' "&quot;" (replaceAll '>' "&gt;"
    (replaceAll '<' "&lt;" (replaceAll '&' "&amp;" value))))

theorem replaceAll_append (c : Char) (text : String) (value value' : Text) :
    replaceAll c text (value ++ value') = replaceAll c text value ++ replaceAll c text value' :=
  List.flatMap_append

theorem escapeHtml_cons (c : Char) (value : Text) :
    escapeHtml (c :: value) = escapeHtml [c] ++ escapeHtml value := by
  have happend : c :: value = [c] ++ value := rfl
  rw [happend]
  unfold escapeHtml
  simp only [replaceAll_append]

/-- **The five replacements, one after the other, escape each character once.** -/
theorem escapeHtml_eq (value : Text) : escapeHtml value = Html.escape value := by
  induction value with
  | nil => rfl
  | cons c value ih =>
    have hchar : escapeHtml [c] = Html.escapeChar c := by
      by_cases hspecial : Html.Special c
      · rcases hspecial with rfl | rfl | rfl | rfl | rfl <;> decide
      · simp only [Html.Special, not_or] at hspecial
        obtain ⟨hamp, hlt, hgt, hquot, hapos⟩ := hspecial
        simp [escapeHtml, replaceAll, Html.escapeChar, hamp, hlt, hgt, hquot, hapos]
    rw [escapeHtml_cons, ih, hchar]
    exact List.flatMap_cons.symm

/-! ### Tokens -/

/-- `[a-zA-Z0-9_]` -/
def isKeyChar (c : Char) : Bool := c.isAlphanum || c = '_'

/-- A match of `TOKEN_PATTERN`: the text that matches and its group. -/
structure Token where
  source : Text
  key : Text
deriving DecidableEq

/-- What is left of a text after the key of a token and its end, and the key. -/
def readKey (text : Text) : Option (Text × Text) :=
  match (text.dropWhile isKeyChar).dropWhile isWhiteSpace with
  | '}' :: '}' :: rest =>
    if text.takeWhile isKeyChar = [] then none else some (rest, text.takeWhile isKeyChar)
  | _ => none

/-- What is left of a text after a token at its beginning, and the key. -/
def readToken : Text → Option (Text × Text)
  | '{' :: '{' :: text => readKey (text.dropWhile isWhiteSpace)
  | _ => none

/-- `TOKEN_PATTERN`, at the beginning of a text. -/
def token? (text : Text) : Option Token :=
  (readToken text).map fun found => ⟨text.take (text.length - found.1.length), found.2⟩

inductive Segment
  | char (c : Char)
  | token (t : Token)
deriving DecidableEq

/-- The segments of a text, but for its first characters. -/
def segmentsFrom : ℕ → Text → List Segment
  | _, [] => []
  | skip + 1, _ :: text => segmentsFrom skip text
  | 0, c :: text =>
    match token? (c :: text) with
    | some token => .token token :: segmentsFrom (token.source.length - 1) text
    | none => .char c :: segmentsFrom 0 text

def segments (template : Text) : List Segment := segmentsFrom 0 template

def Segment.source : Segment → Text
  | .char c => [c]
  | .token t => t.source

def Segment.key? : Segment → Option Text
  | .char _ => none
  | .token t => some t.key

/-- The keys of the tokens of a template, in their order. -/
def keys (template : Text) : List Text := (segments template).filterMap Segment.key?

/-! ### Interpolation -/

def undefinedVariable (key : Text) : Thrown :=
  .error ("Template references undefined variable \"" ++ String.ofList key ++ "\"")

variable (values : Text → Option Text) (escape : Bool)

def replacement : Segment → Except Thrown Text
  | .char c => .ok [c]
  | .token t =>
    match values t.key with
    | none => .error (undefinedVariable t.key)
    | some value => .ok (if escape then escapeHtml value else value)

def interpolate (template : Text) : Except Thrown Text :=
  ((segments template).mapM (replacement values escape)).map List.flatten

/-! ### Locales -/

local instance : LawfulBEq Text := inferInstance

def defaultLocale : Text := "en".toList

/-- `requested?.split('-')[0]` -/
def languageOf (locale : Text) : Text := locale.takeWhile (· ≠ '-')

def candidates (requested : Option Text) : List Text :=
  [requested, requested.map languageOf, some defaultLocale].filterMap fun locale => locale.filter (· ≠ [])

def resolveLocale (requested : Option Text) (available : List Text) : Text :=
  ((candidates requested).find? (· ∈ available)).getD defaultLocale

theorem resolveLocale_mem {available : List Text} (h : defaultLocale ∈ available)
    (requested : Option Text) : resolveLocale requested available ∈ available := by
  rw [resolveLocale]
  cases hfind : (candidates requested).find? (· ∈ available) with
  | none => exact h
  | some locale =>
    have hlocale := List.find?_some hfind
    exact of_decide_eq_true hlocale

/-! ### Texts as HTML -/

/-- `text.split(/\n{2,}/)`; `inGap` after two newlines. -/
def paragraphs : Bool → Text → List Text
  | _, [] => [[]]
  | true, '\n' :: text => paragraphs true text
  | false, '\n' :: '\n' :: text => [] :: paragraphs true text
  | _, c :: text => (paragraphs false text).modifyHead (c :: ·)

def textToHtml (text : Text) : Text :=
  ['\n'].intercalate ((paragraphs false (trim text)).map fun paragraph =>
    "<p>".toList ++ replaceAll '\n' "<br>" (escapeHtml paragraph) ++ "</p>".toList)

/-! ### What the tokens are -/

variable {values : Text → Option Text} {escape : Bool} {template : Text}

theorem readKey_suffix {text rest key : Text} (h : readKey text = some (rest, key)) :
    rest <:+ text := by
  unfold readKey at h
  split at h
  · rename_i rest' hclose
    split_ifs at h
    cases h
    have hsuffix : '}' :: '}' :: rest <:+ text := by
      rw [← hclose]
      exact (List.dropWhile_suffix _).trans (List.dropWhile_suffix _)
    exact ((List.suffix_cons '}' rest).trans (List.suffix_cons '}' _)).trans hsuffix
  · cases h

theorem readToken_suffix {text rest key : Text} (h : readToken text = some (rest, key)) :
    rest <:+ text ∧ rest.length < text.length := by
  unfold readToken at h
  split at h
  · rename_i inner
    have hrest : rest <:+ inner := (readKey_suffix h).trans (List.dropWhile_suffix _)
    have hinner : inner <:+ '{' :: '{' :: inner :=
      (List.suffix_cons '{' inner).trans (List.suffix_cons '{' _)
    refine ⟨hrest.trans hinner, ?_⟩
    have hlength := hrest.length_le
    simp only [List.length_cons]
    omega
  · cases h

theorem token?_source {text : Text} {t : Token} (h : token? text = some t) :
    t.source <+: text ∧ 0 < t.source.length := by
  obtain ⟨⟨rest, key⟩, hread, rfl⟩ := Option.map_eq_some_iff.mp h
  obtain ⟨-, hlength⟩ := readToken_suffix hread
  refine ⟨List.take_prefix _ _, ?_⟩
  rw [List.length_take]
  exact Nat.lt_min.mpr ⟨Nat.sub_pos_of_lt hlength, Nat.zero_lt_of_lt hlength⟩

theorem segmentsFrom_source (skip : ℕ) (text : Text) :
    (segmentsFrom skip text).flatMap Segment.source = text.drop skip := by
  induction text generalizing skip with
  | nil => simp [segmentsFrom]
  | cons c text ih =>
    cases skip with
    | succ skip => exact ih skip
    | zero =>
      rw [segmentsFrom]
      split
      · rename_i t ht
        obtain ⟨hbegin, hpos⟩ := token?_source ht
        obtain ⟨rest, hrest⟩ := hbegin
        obtain ⟨n, hn⟩ := Nat.exists_eq_succ_of_ne_zero (Nat.ne_of_gt hpos)
        have hdrop : text.drop n = rest := by
          have he := congrArg (List.drop t.source.length) hrest
          rw [List.drop_left, hn] at he
          exact he.symm
        rw [List.flatMap_cons, ih, hn, Nat.succ_sub_one, hdrop]
        exact hrest
      · rw [List.flatMap_cons, ih]
        rfl

/-- **A template is its segments.** -/
theorem segments_source (template : Text) : (segments template).flatMap Segment.source = template :=
  segmentsFrom_source 0 template

/-! ### What a rendered template reads as -/

/-- A template as one of HTML, its tokens the holes. -/
def fragment : Segment → Html.Fragment Text
  | .char c => .char c
  | .token t => .hole t.key

/-- What a template reads as, with its holes, and what is left at its end. -/
def outline (template : Text) : Option (List (Html.Part Text) × Html.Reader) :=
  Html.parts ⟨.text, none⟩ ((segments template).map fragment)

def valueOf (values : Text → Option Text) (key : Text) : Text := (values key).getD []

/-- The text that stands for a segment. -/
def replaced (values : Text → Option Text) (escape : Bool) : Segment → Text
  | .char c => [c]
  | .token t => if escape then escapeHtml (valueOf values t.key) else valueOf values t.key

def missing (values : Text → Option Text) (template : List Segment) : Option Text :=
  (template.filterMap Segment.key?).find? fun key => (values key).isNone

theorem replacement_cases (values : Text → Option Text) (escape : Bool) (segment : Segment) :
    (∃ key, segment.key? = some key ∧ (values key).isNone = true ∧
        replacement values escape segment = .error (undefinedVariable key)) ∨
      (∀ key, segment.key? = some key → (values key).isNone = false) ∧
        replacement values escape segment = .ok (replaced values escape segment) := by
  cases segment with
  | char c =>
    refine .inr ⟨fun key hkey => ?_, rfl⟩
    cases hkey
  | token t =>
    cases hvalue : values t.key with
    | none =>
      refine .inl ⟨t.key, rfl, by rw [hvalue]; rfl, ?_⟩
      rw [replacement, hvalue]
    | some value =>
      refine .inr ⟨fun key hkey => ?_, ?_⟩
      · obtain rfl := Option.some.inj hkey
        rw [hvalue]
        rfl
      · rw [replacement, replaced, valueOf, hvalue]
        rfl

theorem mapM_replacement (template : List Segment) :
    template.mapM (replacement values escape) =
      match missing values template with
      | some key => .error (undefinedVariable key)
      | none => .ok (template.map (replaced values escape)) := by
  induction template with
  | nil => rfl
  | cons segment template ih =>
    rw [List.mapM_cons, ih]
    rcases replacement_cases values escape segment with
      ⟨key, hkey, hnone, he⟩ | ⟨hsome, he⟩
    · have hmissing : missing values (segment :: template) = some key := by
        rw [missing, List.filterMap_cons_some hkey]
        exact List.find?_cons_of_pos hnone
      rw [he, hmissing]
      rfl
    · have hmissing : missing values (segment :: template) = missing values template := by
        cases hkey : segment.key? with
        | none => rw [missing, List.filterMap_cons_none hkey, missing]
        | some key =>
          rw [missing, List.filterMap_cons_some hkey]
          exact List.find?_cons_of_neg (by rw [hsome key hkey]; simp)
      rw [he, hmissing]
      cases missing values template <;> rfl

theorem interpolate_eq : interpolate values escape template =
    match missing values (segments template) with
    | some key => .error (undefinedVariable key)
    | none => .ok ((segments template).flatMap (replaced values escape)) := by
  rw [interpolate, mapM_replacement]
  cases missing values (segments template) <;> rfl

theorem missing_eq_none (h : ∀ key ∈ keys template, (values key).isSome) :
    missing values (segments template) = none := by
  refine List.find?_eq_none.mpr fun key hkey => ?_
  rw [Option.isNone_eq_false_iff.mpr (h key hkey)]
  simp

theorem flatMap_replaced (template : List Segment) :
    template.flatMap (replaced values true) = Html.fill (valueOf values) (template.map fragment) := by
  rw [Html.fill, List.flatMap_map]
  refine List.flatMap_congr fun segment _ => ?_
  cases segment with
  | char c => rfl
  | token t => exact escapeHtml_eq _

/-- **What a rendered template reads as.** If a token of a template lacks a value, rendering throws with
the first such one; otherwise it renders. Where the tokens are in the text of the template or in quoted
attribute values, a reader of what it renders to with `escape` sees each value in the place of its token,
whatever is in it, and otherwise what is in the template. -/
theorem interpolate_read (values : Text → Option Text) (template : Text) :
    match (keys template).find? fun key => (values key).isNone with
    | some key => ∀ escape, interpolate values escape template = .error (undefinedVariable key)
    | none => ∀ escape, ∃ rendered, interpolate values escape template = .ok rendered ∧
      (escape = true → ∀ ps r, outline template = some (ps, r) →
        Html.read rendered = Html.fillParts (valueOf values) ps ++ r.finish) := by
  have hinterpolate (escape : Bool) := @interpolate_eq values escape template
  show match missing values (segments template) with | some _ => _ | none => _
  cases hmissing : missing values (segments template) with
  | some key =>
    intro escape
    rw [hinterpolate, hmissing]
  | none =>
    rw [hmissing] at hinterpolate
    refine fun escape => ⟨_, hinterpolate escape, ?_⟩
    rintro rfl ps r houtline
    rw [flatMap_replaced, Html.read, Html.run_fill (valueOf values) houtline]

def exampleTemplate : Text := "<a href=\"{{ url }}\">{{name}}</a>".toList

def exampleValues (key : Text) : Option Text :=
  if key = "url".toList then some "\"><script>".toList
  else if key = "name".toList then some "A & B".toList
  else none

theorem interpolate_read_link : ∃ rendered,
    interpolate exampleValues true exampleTemplate = .ok rendered ∧
    Html.read rendered = "<a href=\"".toList.map .markup ++ "\"><script>".toList.map .content ++
      "\">".toList.map .markup ++ "A & B".toList.map .content ++ "</a>".toList.map .markup := by
  have houtline : outline exampleTemplate =
      some ("<a href=\"".toList.map (Html.Part.piece ∘ .markup) ++ [.hole "url".toList] ++
        "\">".toList.map (Html.Part.piece ∘ .markup) ++ [.hole "name".toList] ++
        "</a>".toList.map (Html.Part.piece ∘ .markup), ⟨.text, none⟩) := by
    decide +kernel
  obtain ⟨rendered, hrendered, hread⟩ := interpolate_read exampleValues exampleTemplate true
  exact ⟨rendered, hrendered, hread rfl _ _ houtline⟩

end BackendFoundation.Notifications.Interpolate
