import BackendFoundation.Notifications.Interpolate

/-! # Email templates

The templates under `notifications/templates`, with the contract of the variables of each
(`registry.ts`), and `renderEmailTemplate`. What `z.string().url()` makes of a text is a parameter. Left
out are the examples of the registry and the cache of the files.

Every template renders with all values that its contract accepts, in every locale, and its HTML reads
as the template does with the parsed values in their places (`emails_read`). -/

namespace BackendFoundation.Notifications.Templates

open Errors Http.ClientIp Lib Notifications.Interpolate

/-! ### The registry -/

inductive EmailTemplateKey
  | authVerificationOtp | authPasswordResetOtp | authSignupExisting | organizationInvitation
  | productAnnouncement
deriving DecidableEq

/-- `z.string().min(1)` or `z.string().url()`. -/
inductive VariableCheck
  | nonempty | url
deriving DecidableEq

/-- The variables of a template, all of them required. -/
abbrev VariableSchema := List (String × VariableCheck)

def names (schema : VariableSchema) : List Text := schema.map (·.1.toList)

def otpVariables : VariableSchema := [("code", .nonempty), ("expiresInMinutes", .nonempty)]

def invitationVariables : VariableSchema :=
  [("organizationName", .nonempty), ("actionUrl", .url), ("expiresInDays", .nonempty)]

def announcementVariables : VariableSchema :=
  [("headline", .nonempty), ("message", .nonempty), ("actionUrl", .url)]

structure EmailTemplateDefinition where
  schema : VariableSchema
  transactional : Bool

def emailTemplates : EmailTemplateKey → EmailTemplateDefinition
  | .authVerificationOtp => ⟨otpVariables, true⟩
  | .authPasswordResetOtp => ⟨otpVariables, true⟩
  | .authSignupExisting => ⟨[], true⟩
  | .organizationInvitation => ⟨invitationVariables, true⟩
  | .productAnnouncement => ⟨announcementVariables, false⟩

/-! ### The files -/

structure RawTemplateFiles where
  subject : Text
  text : Text
  html : Option Text

/-- The contents of a file with these lines. -/
def lines (ls : List String) : Text := ls.flatMap fun line => line.toList ++ ['\n']

def availableLocales : EmailTemplateKey → List Text
  | .authVerificationOtp | .authPasswordResetOtp | .authSignupExisting | .organizationInvitation
  | .productAnnouncement => [defaultLocale]

/-- The files of a template in English. -/
def files : EmailTemplateKey → RawTemplateFiles
  | .authVerificationOtp =>
    { subject := trim (lines ["Your verification code"])
      text := lines ["Your verification code is {{code}}. It expires in {{expiresInMinutes}} minutes."]
      html := some (lines
        ["<p>",
          "  Your verification code is <strong>{{code}}</strong>. It expires in {{expiresInMinutes}} minutes.",
          "</p>"]) }
  | .authPasswordResetOtp =>
    { subject := trim (lines ["Your password reset code"])
      text := lines ["Your password reset code is {{code}}. It expires in {{expiresInMinutes}} minutes."]
      html := some (lines
        ["<p>",
          "  Your password reset code is <strong>{{code}}</strong>. It expires in {{expiresInMinutes}} minutes.",
          "</p>"]) }
  | .authSignupExisting =>
    { subject := trim (lines ["A signup was requested for your account"])
      text := lines
        ["Someone attempted to sign up using this email. Your existing account was not changed."]
      html := some (lines
        ["<p>Someone attempted to sign up using this email. Your existing account was not changed.</p>"]) }
  | .organizationInvitation =>
    { subject := trim (lines ["You have been invited to {{organizationName}}"])
      text := lines
        ["You have been invited to join {{organizationName}}.",
          "",
          "Accept the invitation: {{actionUrl}}",
          "",
          "This invitation expires in {{expiresInDays}} days. If you were not expecting it, " ++
            "you can ignore this email."]
      html := some (lines
        ["<!doctype html>",
          "<html lang=\"en\">",
          "  <body>",
          "    <p>You have been invited to join <strong>{{organizationName}}</strong>.</p>",
          "    <p><a href=\"{{actionUrl}}\">Accept invitation</a></p>",
          "    <p>",
          "      This invitation expires in {{expiresInDays}} days. If you were not expecting it, you can",
          "      ignore this email.",
          "    </p>",
          "  </body>",
          "</html>"]) }
  | .productAnnouncement =>
    { subject := trim (lines ["{{headline}}"])
      text := lines ["{{headline}}", "", "{{message}}", "", "Learn more: {{actionUrl}}"]
      html := some (lines
        ["<!doctype html>",
          "<html lang=\"en\">",
          "  <body>",
          "    <h1>{{headline}}</h1>",
          "    <p>{{message}}</p>",
          "    <p><a href=\"{{actionUrl}}\">Learn more</a></p>",
          "  </body>",
          "</html>"]) }

local instance : LawfulBEq Text := inferInstance

def noSuchFile : Thrown := .error "ENOENT"

def loadTemplateFiles (key : EmailTemplateKey) (locale : Text) : Except Thrown RawTemplateFiles :=
  if locale ∈ availableLocales key then .ok (files key) else .error noSuchFile

/-! ### Rendering -/

variable (parseUrl : Text → Option Text)

def VariableCheck.parse : VariableCheck → Text → Option Text
  | .nonempty, value => if value = [] then none else some value
  | .url, value => parseUrl value

/-- The values that a schema accepts. -/
def Accepts (schema : VariableSchema) (values : Text → Option Text) : Prop :=
  ∀ field ∈ schema, ((values field.1.toList).bind (field.2.parse parseUrl)).isSome = true

instance (schema : VariableSchema) (values : Text → Option Text) :
    Decidable (Accepts parseUrl schema values) :=
  inferInstanceAs (Decidable (∀ field ∈ schema, _))

def invalidVariables : Thrown := .error "ZodError"

/-- What a schema makes of the values. It leaves out what it does not have. -/
def parsedValues (schema : VariableSchema) (values : Text → Option Text) (name : Text) :
    Option Text :=
  (schema.find? fun field => field.1.toList = name).bind fun field =>
    (values name).bind (field.2.parse parseUrl)

/-- `schema.parse` -/
def parseVariables (schema : VariableSchema) (values : Text → Option Text) :
    Except Thrown (Text → Option Text) :=
  if Accepts parseUrl schema values then .ok (parsedValues parseUrl schema values)
  else .error invalidVariables

structure RenderedEmail where
  subject : Text
  text : Text
  html : Text
  transactional : Bool

def renderEmailTemplate (key : EmailTemplateKey) (values : Text → Option Text)
    (locale : Option Text) : Except Thrown RenderedEmail := do
  let definition := emailTemplates key
  let parsed ← parseVariables parseUrl definition.schema values
  let files ← loadTemplateFiles key (resolveLocale locale (availableLocales key))
  let subject ← interpolate parsed false files.subject
  let text ← interpolate parsed false files.text
  let html ← interpolate parsed true (files.html.getD (textToHtml files.text))
  return { subject, text, html, transactional := definition.transactional }

/-! ### What the emails read as -/

variable {parseUrl} {values : Text → Option Text}

theorem keys_files (key : EmailTemplateKey) :
    ∀ template ∈ [(files key).subject, (files key).text] ++ (files key).html.toList,
      ∀ name ∈ keys template, name ∈ names (emailTemplates key).schema := by
  cases key <;> decide +kernel

theorem outline_files (key : EmailTemplateKey) :
    ((files key).html.bind outline).any (fun found => found.2 = ⟨.text, none⟩) = true := by
  cases key <;> decide +kernel

theorem load_files (key : EmailTemplateKey) (locale : Option Text) :
    loadTemplateFiles key (resolveLocale locale (availableLocales key)) = .ok (files key) := by
  have hdefault : defaultLocale ∈ availableLocales key := by
    cases key <;> exact List.mem_singleton.mpr rfl
  exact if_pos (resolveLocale_mem hdefault locale)

variable {key : EmailTemplateKey}

/-- The names of a template differ, so that a value is parsed by the check of its name. -/
theorem find_field {field : String × VariableCheck} (h : field ∈ (emailTemplates key).schema) :
    (emailTemplates key).schema.find? (fun f => f.1.toList = field.1.toList) = some field := by
  revert field
  cases key <;> decide +kernel

theorem isSome_parsedValues (h : Accepts parseUrl (emailTemplates key).schema values)
    {name : Text} (hname : name ∈ names (emailTemplates key).schema) :
    (parsedValues parseUrl (emailTemplates key).schema values name).isSome = true := by
  obtain ⟨field, hfield, rfl⟩ := List.mem_map.mp hname
  unfold parsedValues
  rw [find_field hfield]
  exact h field hfield

theorem interpolate_file {template : Text} (escape : Bool)
    (h : Accepts parseUrl (emailTemplates key).schema values)
    (hfile : template ∈ [(files key).subject, (files key).text] ++ (files key).html.toList) :
    interpolate (parsedValues parseUrl (emailTemplates key).schema values) escape template =
      .ok ((segments template).flatMap
        (replaced (parsedValues parseUrl (emailTemplates key).schema values) escape)) := by
  have hkeys := keys_files key template hfile
  rw [interpolate_eq, missing_eq_none fun name hname => isSome_parsedValues h (hkeys name hname)]

/-- **Every template renders** with all variables that its contract accepts, in every locale that is asked
for, and its HTML reads as the template with the parsed variables in the places of their tokens, whatever
they hold. Its other parts are the template with the parsed variables as they are. -/
theorem emails_read (parseUrl : Text → Option Text) (key : EmailTemplateKey)
    (values : Text → Option Text) (locale : Option Text) :
    if Accepts parseUrl (emailTemplates key).schema values then
      ∃ email html ps, renderEmailTemplate parseUrl key values locale = .ok email ∧
        (files key).html = some html ∧ outline html = some (ps, ⟨.text, none⟩) ∧
        Html.read email.html =
          Html.fillParts (valueOf (parsedValues parseUrl (emailTemplates key).schema values)) ps ∧
        email.subject = (segments (files key).subject).flatMap
          (replaced (parsedValues parseUrl (emailTemplates key).schema values) false) ∧
        email.text = (segments (files key).text).flatMap
          (replaced (parsedValues parseUrl (emailTemplates key).schema values) false) ∧
        email.transactional = (emailTemplates key).transactional
    else renderEmailTemplate parseUrl key values locale = .error invalidVariables := by
  split_ifs with h
  · obtain ⟨⟨ps, r⟩, houtline, hr⟩ := (Option.any_eq_true _ _).mp (outline_files key)
    obtain rfl : r = ⟨.text, none⟩ := of_decide_eq_true hr
    obtain ⟨html, hhtml, houtline⟩ := Option.bind_eq_some_iff.mp houtline
    let contents := [(files key).subject, (files key).text] ++ (files key).html.toList
    have hsubject := interpolate_file false h (show (files key).subject ∈ contents by simp [contents])
    have htext := interpolate_file false h (show (files key).text ∈ contents by simp [contents])
    have hrendered := interpolate_file true h (show html ∈ contents by simp [contents, hhtml])
    have hread : Html.read ((segments html).flatMap
          (replaced (parsedValues parseUrl (emailTemplates key).schema values) true)) =
        Html.fillParts (valueOf (parsedValues parseUrl (emailTemplates key).schema values)) ps := by
      rw [flatMap_replaced, Html.read, Html.run_fill _ houtline]
      exact List.append_nil _
    refine ⟨⟨_, _, _, _⟩, html, ps, ?_, hhtml, houtline, hread, rfl, rfl, rfl⟩
    have hparsed : parseVariables parseUrl (emailTemplates key).schema values =
        .ok (parsedValues parseUrl (emailTemplates key).schema values) := if_pos h
    simp only [renderEmailTemplate, hparsed, load_files, bind, Except.bind, hsubject, htext, hhtml,
      Option.getD_some, hrendered]
    rfl
  · rw [renderEmailTemplate, parseVariables, if_neg h]
    rfl

end BackendFoundation.Notifications.Templates
