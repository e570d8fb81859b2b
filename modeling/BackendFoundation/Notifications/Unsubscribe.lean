import BackendFoundation.Lib.Table
import BackendFoundation.Lib.UuidText
import BackendFoundation.Tenancy.TenantScope

/-! # Notification preferences and one-click unsubscribe

The services of `notification-preferences.service.ts` and `unsubscribe.ts` over the table of
preferences. A user has at most one preference of a channel and a topic in each scope, an organization
or the global one; the preference of an organization goes before the global one.

One-click unsubscribe writes the preference of one scope. It turns the topic off everywhere, and keeps
it off until the user enables it, exactly if no preference of another scope is on (`Dominates`).

Main result: `unsubscribed_iff`. -/

namespace BackendFoundation.Notifications.Unsubscribe

open Errors Lib Lib.UuidText Tenancy.TenantScope

/-! ### Preferences -/

inductive NotificationChannel
  | email | sms | push | internal
deriving DecidableEq

/-- `notificationTopics`. -/
inductive NotificationTopic
  | productUpdates
deriving DecidableEq

/-- The unique index of `notification_preferences`. -/
structure PreferenceKey where
  userId : String
  /-- `"global"` or the id of an organization. -/
  scopeKey : String
  channel : NotificationChannel
  topic : NotificationTopic
deriving DecidableEq

structure Preference where
  organizationId : Option String
  enabled : Bool := true
  deletedAt : Option ℕ := none
deriving DecidableEq

abbrev Preferences := Table PreferenceKey Preference

structure PreferenceScope where
  scopeKey : String
  organizationId : Option String
deriving DecidableEq

def preferenceScope (context : Option RequestContext) : PreferenceScope :=
  match context.bind (·.activeOrganization) with
  | some organizationId => ⟨organizationId, some organizationId⟩
  | none => ⟨"global", none⟩

structure PreferenceInput where
  channel : NotificationChannel
  topic : NotificationTopic
  enabled : Bool
deriving DecidableEq

/-- The upsert. It finds a deleted row too, and a row of the same key with another owner is a unique
violation of the insert. The tenant scope leaves it as it is: it names the active organization, or
runs outside the scope. -/
def setNotificationPreference (t : Preferences) (context : Option RequestContext) (userId : String)
    (input : PreferenceInput) : Except Thrown Preferences :=
  let scope := preferenceScope context
  let key : PreferenceKey := ⟨userId, scope.scopeKey, input.channel, input.topic⟩
  match t key with
  | none => .ok (t.set key { organizationId := scope.organizationId, enabled := input.enabled })
  | some row =>
    if row.organizationId = scope.organizationId then
      .ok (t.set key { row with enabled := input.enabled, deletedAt := none })
    else .error (.prisma "P2002" "Unique constraint failed")

/-- The preference of a scope that `notificationAllowed` finds. -/
def findPreference (t : Preferences) (userId scopeKey : String) (channel : NotificationChannel)
    (topic : NotificationTopic) : Option Preference :=
  (t ⟨userId, scopeKey, channel, topic⟩).filter (·.deletedAt = none)

def notificationAllowed (t : Preferences) (userId : String) (channel : NotificationChannel)
    (topic : NotificationTopic) (organizationId : Option String) : Bool :=
  let exact :=
    match organizationId with
    | some organizationId =>
      if organizationId = "" then none else findPreference t userId organizationId channel topic
    | none => none
  let row := exact <|> findPreference t userId "global" channel topic
  (row.map (·.enabled)).getD true

/-! ### Unsubscribe tokens -/

structure UnsubscribePayload where
  userId : String
  topic : NotificationTopic
  /-- In seconds. -/
  exp : ℕ
deriving DecidableEq

/-- The functions of the runtime on which the tokens rest. -/
structure Runtime where
  /-- The HMAC of a text under `TOKEN_HASH_SECRET`. -/
  hmac : Text → List UInt8
  fromBase64url : Text → List UInt8
  /-- `JSON.parse` and `unsubscribePayload.parse`, `none` if one throws. -/
  parsePayload : List UInt8 → Option UnsubscribePayload

variable (R : Runtime)

def signature (payload : Text) : List UInt8 := R.hmac ("email-unsubscribe:v1:".toList ++ payload)

def verifyUnsubscribeToken (now : ℕ) (token : Text) : Option UnsubscribePayload :=
  match token.splitOn '.' with
  | payload :: encodedSignature :: rest =>
    if payload = [] ∨ encodedSignature = [] ∨ rest.headD [] ≠ [] then none
    else if R.fromBase64url encodedSignature ≠ signature R payload then none
    else (R.parsePayload (R.fromBase64url payload)).filter (now / 1000 < ·.exp)
  | _ => none

/-- Whether the token was valid, and the preferences after the call. -/
def unsubscribeWithToken (t : Preferences) (context : Option RequestContext) (now : ℕ)
    (token : Text) : Except Thrown (Bool × Preferences) := do
  match verifyUnsubscribeToken R now token with
  | none => return (false, t)
  | some payload =>
    let t ← setNotificationPreference t context payload.userId ⟨.email, payload.topic, false⟩
    return (true, t)

/-! ### Histories -/

/-- A call that changes preferences. -/
inductive Change
  | set (context : Option RequestContext) (userId : String) (input : PreferenceInput)
  | unsubscribe (context : Option RequestContext) (now : ℕ) (token : Text)

/-- The preferences after a call; they stay as they are if it throws. -/
def Change.apply (t : Preferences) : Change → Preferences
  | .set context userId input => (setNotificationPreference t context userId input).toOption.getD t
  | .unsubscribe context now token =>
    ((unsubscribeWithToken R t context now token).toOption.map (·.2)).getD t

def history (t : Preferences) (changes : List Change) : Preferences :=
  changes.foldl (Change.apply R) t

/-- The user enables the topic again. -/
def Change.Enables (userId : String) (topic : NotificationTopic) (change : Change) : Prop :=
  ∃ context, change = .set context userId ⟨.email, topic, true⟩

def On (t : Preferences) (userId : String) (topic : NotificationTopic) (scopeKey : String) : Prop :=
  ∃ row, t ⟨userId, scopeKey, .email, topic⟩ = some row ∧ row.deletedAt = none ∧ row.enabled = true

/-- A preference in force, and off. -/
def Off (t : Preferences) (userId : String) (topic : NotificationTopic) (scopeKey : String) : Prop :=
  ∃ row, t ⟨userId, scopeKey, .email, topic⟩ = some row ∧ row.deletedAt = none ∧ row.enabled = false

variable {R} {t t' : Preferences} {context : Option RequestContext} {userId : String}
  {topic : NotificationTopic} {input : PreferenceInput}

theorem findPreference_eq_some {scopeKey : String} {channel : NotificationChannel}
    {row : Preference} : findPreference t userId scopeKey channel topic = some row ↔
      t ⟨userId, scopeKey, channel, topic⟩ = some row ∧ row.deletedAt = none := by
  unfold findPreference
  rw [Option.filter_eq_some_iff]
  simp

/-- No organization, and not the user alone either, is allowed the topic. -/
def Silent (t : Preferences) (userId : String) (topic : NotificationTopic) : Prop :=
  Off t userId topic "global" ∧ ∀ scopeKey, scopeKey ≠ "" → ¬ On t userId topic scopeKey

/-- **What `notificationAllowed` decides** for all organizations together. -/
theorem silent_iff : (∀ organizationId, notificationAllowed t userId .email topic organizationId = false) ↔
    Silent t userId topic := by
  constructor
  · intro h
    refine ⟨?_, fun scopeKey hkey ⟨row, hrow, hlive, hon⟩ => ?_⟩
    · have hglobal := h none
      unfold notificationAllowed at hglobal
      cases hfind : findPreference t userId "global" .email topic with
      | none => simp [hfind] at hglobal
      | some row =>
        obtain ⟨hrow, hlive⟩ := findPreference_eq_some.mp hfind
        exact ⟨row, hrow, hlive, by simpa [hfind] using hglobal⟩
    · have hexact := h (some scopeKey)
      have hfind : findPreference t userId scopeKey .email topic = some row :=
        findPreference_eq_some.mpr ⟨hrow, hlive⟩
      simp [notificationAllowed, hkey, hfind, hon] at hexact
  · rintro ⟨⟨row, hrow, hlive, hoff⟩, hon⟩ organizationId
    have hglobal : findPreference t userId "global" .email topic = some row :=
      findPreference_eq_some.mpr ⟨hrow, hlive⟩
    unfold notificationAllowed
    cases organizationId with
    | none => simp [hglobal, hoff]
    | some scopeKey =>
      by_cases hkey : scopeKey = ""
      · simp [hkey, hglobal, hoff]
      cases hfind : findPreference t userId scopeKey .email topic with
      | none => simp [hkey, hfind, hglobal, hoff]
      | some exact' =>
        obtain ⟨hrow', hlive'⟩ := findPreference_eq_some.mp hfind
        have hoff' : exact'.enabled = false := by
          by_contra hon'
          exact hon scopeKey hkey ⟨exact', hrow', hlive', by simpa using hon'⟩
        simp [hkey, hfind, hoff']

/-! ### What a call writes -/

theorem setNotificationPreference_ok (h : setNotificationPreference t context userId input = .ok t') :
    ∃ row, row.deletedAt = none ∧ row.enabled = input.enabled ∧
      t' = t.set ⟨userId, (preferenceScope context).scopeKey, input.channel, input.topic⟩ row := by
  unfold setNotificationPreference at h
  dsimp only at h
  split at h
  · exact ⟨_, rfl, rfl, (Except.ok.inj h).symm⟩
  · rename_i row _
    split_ifs at h
    exact ⟨{ row with enabled := input.enabled, deletedAt := none }, rfl, rfl,
      (Except.ok.inj h).symm⟩

theorem unsubscribeWithToken_ok {now : ℕ} {token : Text} {done : Bool}
    (h : unsubscribeWithToken R t context now token = .ok (done, t')) :
    (verifyUnsubscribeToken R now token = none ∧ done = false ∧ t' = t) ∨
      ∃ payload, verifyUnsubscribeToken R now token = some payload ∧ done = true ∧
        setNotificationPreference t context payload.userId ⟨.email, payload.topic, false⟩ = .ok t' := by
  unfold unsubscribeWithToken at h
  split at h
  · rename_i hverify
    obtain ⟨rfl, rfl⟩ := Prod.mk.inj (Except.ok.inj h)
    exact .inl ⟨hverify, rfl, rfl⟩
  · rename_i payload hverify
    obtain ⟨t₁, hset, hreturn⟩ := Query.bind_eq_ok h
    obtain ⟨rfl, rfl⟩ := Prod.mk.inj (Except.ok.inj hreturn)
    exact .inr ⟨payload, hverify, rfl, hset⟩

/-- **What a change does**: it writes one preference at most, and turns a topic on only if the user
enables it. -/
theorem Change.apply_cases (change : Change) (t : Preferences) :
    change.apply R t = t ∨ ∃ key row, change.apply R t = t.set key row ∧ row.deletedAt = none ∧
      (key.channel = .email → row.enabled = true → change.Enables key.userId key.topic) := by
  cases change with
  | set context userId input =>
    simp only [Change.apply]
    cases hset : setNotificationPreference t context userId input with
    | error e => exact .inl rfl
    | ok t' =>
      obtain ⟨row, hlive, henabled, rfl⟩ := setNotificationPreference_ok hset
      refine .inr ⟨_, row, rfl, hlive, fun hchannel hon => ⟨context, ?_⟩⟩
      obtain ⟨channel, topic, enabled⟩ := input
      cases hchannel
      rw [henabled] at hon
      cases hon
      rfl
  | unsubscribe context now token =>
    simp only [Change.apply]
    cases hcall : unsubscribeWithToken R t context now token with
    | error e => exact .inl rfl
    | ok result =>
      obtain ⟨done, t'⟩ := result
      rcases unsubscribeWithToken_ok hcall with ⟨-, -, rfl⟩ | ⟨payload, -, -, hset⟩
      · exact .inl rfl
      · obtain ⟨row, hlive, henabled, rfl⟩ := setNotificationPreference_ok hset
        refine .inr ⟨_, row, rfl, hlive, fun _ hon => ?_⟩
        rw [henabled] at hon
        cases hon

/-! ### Staying off -/

theorem Silent.apply (h : Silent t userId topic) {change : Change}
    (hno : ¬ change.Enables userId topic) : Silent (change.apply R t) userId topic := by
  rcases change.apply_cases (R := R) t with he | ⟨key, row, he, hlive, hon⟩
  · rw [he]
    exact h
  · obtain ⟨⟨row₀, hrow₀, hlive₀, hoff₀⟩, hsilent⟩ := h
    have hoff {scopeKey : String} (hkey : ⟨userId, scopeKey, .email, topic⟩ = key) :
        row.enabled = false := by
      by_contra henabled
      refine hno ?_
      have henables := hon (by rw [← hkey]) (by simpa using henabled)
      rwa [← hkey] at henables
    rw [he]
    refine ⟨?_, fun scopeKey hne ⟨row₁, hrow₁, hlive₁, hon₁⟩ => ?_⟩
    · by_cases hkey : (⟨userId, "global", .email, topic⟩ : PreferenceKey) = key
      · exact ⟨row, by rw [hkey, Table.set_self], hlive, hoff hkey⟩
      · exact ⟨row₀, (Table.set_of_ne hkey).trans hrow₀, hlive₀, hoff₀⟩
    · rcases Table.set_eq_some.mp hrow₁ with ⟨hkey, rfl⟩ | ⟨-, hrow₁⟩
      · rw [hoff hkey] at hon₁
        cases hon₁
      · exact hsilent scopeKey hne ⟨row₁, hrow₁, hlive₁, hon₁⟩

theorem Silent.history (h : Silent t userId topic) : ∀ {changes : List Change},
    (∀ change ∈ changes, ¬ change.Enables userId topic) →
      Silent (history R t changes) userId topic := by
  intro changes
  induction changes generalizing t with
  | nil => exact fun _ => h
  | cons change changes ih =>
    intro hno
    exact ih (h.apply (hno change List.mem_cons_self))
      fun change' hmem => hno change' (List.mem_cons_of_mem _ hmem)

/-- No organization is allowed the topic, until the user enables it. -/
def StaysOff (R : Runtime) (t : Preferences) (userId : String) (topic : NotificationTopic) : Prop :=
  ∀ changes : List Change, (∀ change ∈ changes, ¬ change.Enables userId topic) →
    ∀ organizationId,
      notificationAllowed (history R t changes) userId .email topic organizationId = false

theorem staysOff_iff : StaysOff R t userId topic ↔ Silent t userId topic := by
  constructor
  · exact fun h => silent_iff.mp (h [] (by simp))
  · exact fun h changes hno => silent_iff.mpr (h.history hno)

variable {scopeKey : String} {row : Preference}

theorem off_set (hlive : row.deletedAt = none) (hoff : row.enabled = false) {other : String} :
    Off (t.set ⟨userId, scopeKey, .email, topic⟩ row) userId topic other ↔
      scopeKey = other ∨ Off t userId topic other := by
  by_cases hkey : other = scopeKey
  · subst hkey
    exact ⟨fun _ => .inl rfl, fun _ => ⟨row, Table.set_self, hlive, hoff⟩⟩
  · have hset : t.set ⟨userId, scopeKey, .email, topic⟩ row ⟨userId, other, .email, topic⟩ =
        t ⟨userId, other, .email, topic⟩ := Table.set_of_ne (by simp [hkey])
    unfold Off
    rw [hset]
    exact ⟨.inr, fun h => h.resolve_left (Ne.symm hkey)⟩

theorem on_set (hoff : row.enabled = false) {other : String} :
    On (t.set ⟨userId, scopeKey, .email, topic⟩ row) userId topic other ↔
      other ≠ scopeKey ∧ On t userId topic other := by
  by_cases hkey : other = scopeKey
  · subst hkey
    refine ⟨fun ⟨row', hrow', _, hon⟩ => ?_, fun h => absurd rfl h.1⟩
    obtain rfl := Option.some.inj (Table.set_self.symm.trans hrow')
    rw [hoff] at hon
    cases hon
  · have hset : t.set ⟨userId, scopeKey, .email, topic⟩ row ⟨userId, other, .email, topic⟩ =
        t ⟨userId, other, .email, topic⟩ := Table.set_of_ne (by simp [hkey])
    unfold On
    rw [hset]
    exact ⟨fun h => ⟨hkey, h⟩, And.right⟩

/-- The scope of the call is the global one, or the topic is off in that one already; and the topic is
on in no other scope. -/
def Dominates (t : Preferences) (context : Option RequestContext) (payload : UnsubscribePayload) :
    Prop :=
  let scopeKey := (preferenceScope context).scopeKey
  (scopeKey = "global" ∨ Off t payload.userId payload.topic "global") ∧
    ∀ other, other ≠ "" → other ≠ scopeKey → ¬ On t payload.userId payload.topic other

/-- **One-click unsubscribe.** After a call that has succeeded no organization, and not the user
alone, is allowed the topic until the user enables it, if and only if the call writes the global
preference, or that one is off, and the user has no preference of another scope that is on. -/
theorem unsubscribed_iff (R : Runtime) (t t' : Preferences) (context : Option RequestContext)
    (now : ℕ) (token : Text) (h : unsubscribeWithToken R t context now token = .ok (true, t')) :
    ∃ payload, verifyUnsubscribeToken R now token = some payload ∧
      (StaysOff R t' payload.userId payload.topic ↔ Dominates t context payload) := by
  rcases unsubscribeWithToken_ok h with ⟨-, hdone, -⟩ | ⟨payload, hverify, -, hset⟩
  · cases hdone
  refine ⟨payload, hverify, ?_⟩
  obtain ⟨row, hlive, hoff, rfl⟩ := setNotificationPreference_ok hset
  rw [staysOff_iff]
  unfold Silent Dominates
  simp only [off_set hlive hoff, on_set hoff, not_and]

/-- A digest that keeps its text, and a token that names its user. -/
def exampleRuntime : Runtime where
  hmac text := text.map fun c => c.toNat.toUInt8
  fromBase64url text := text.map fun c => c.toNat.toUInt8
  parsePayload bytes := if bytes = [117] then some ⟨"u", .productUpdates, 10⟩ else none

def exampleToken : Text := "u.email-unsubscribe:v1:u".toList

/-- The public route runs before any identity is known. -/
def exampleContext : Option RequestContext := some (.request "r1" none none)

/-- The user has enabled the topic, and disabled it in an organization. -/
def exampleHistory : List Change :=
  [.set none "u" ⟨.email, .productUpdates, true⟩,
    .set (some (.request "r0" (some "u") (some "org-a"))) "u" ⟨.email, .productUpdates, false⟩]

theorem unsubscribed_iff_first : ∃ (t t' : Preferences) (payload : UnsubscribePayload),
    t = history exampleRuntime Table.empty exampleHistory ∧
      notificationAllowed t "u" .email .productUpdates none = true ∧
      unsubscribeWithToken exampleRuntime t exampleContext 0 exampleToken = .ok (true, t') ∧
      payload.userId = "u" ∧ StaysOff exampleRuntime t' payload.userId payload.topic := by
  obtain ⟨t, ht⟩ : ∃ t, t = history exampleRuntime Table.empty exampleHistory := ⟨_, rfl⟩
  have hcall : unsubscribeWithToken exampleRuntime t exampleContext 0 exampleToken =
      .ok (true, t.set ⟨"u", "global", .email, .productUpdates⟩
        { organizationId := none, enabled := false }) := by rw [ht]; rfl
  obtain ⟨payload, hverify, hiff⟩ := unsubscribed_iff _ _ _ _ _ _ hcall
  have hpayload : verifyUnsubscribeToken exampleRuntime 0 exampleToken =
      some ⟨"u", .productUpdates, 10⟩ := by decide
  obtain rfl := Option.some.inj (hpayload.symm.trans hverify)
  refine ⟨t, _, _, ht, by rw [ht]; decide, hcall, rfl, hiff.mpr ⟨.inl rfl, ?_⟩⟩
  rintro other - hglobal ⟨row, hrow, -, henabled⟩
  have hset : t = (Table.empty.set ⟨"u", "global", .email, .productUpdates⟩
      { organizationId := none }).set ⟨"u", "org-a", .email, .productUpdates⟩
        { organizationId := some "org-a", enabled := false } := ht
  rw [hset] at hrow
  change other ≠ "global" at hglobal
  by_cases horg : other = "org-a"
  · subst horg
    rw [Table.set_self] at hrow
    obtain rfl := Option.some.inj hrow
    cases henabled
  · rw [Table.set_of_ne (by simp [horg]), Table.set_of_ne (by simp [hglobal])] at hrow
    cases hrow

/-- The user has enabled the topic in an organization, and unsubscribes. -/
theorem organization_stays_on : ∃ t',
    unsubscribeWithToken exampleRuntime
        (history exampleRuntime Table.empty [.set (some (.request "r0" (some "u") (some "org-a"))) "u"
          ⟨.email, .productUpdates, true⟩])
        exampleContext 0 exampleToken = .ok (true, t') ∧
      notificationAllowed t' "u" .email .productUpdates (some "org-a") = true ∧
      notificationAllowed t' "u" .email .productUpdates none = false :=
  ⟨_, rfl, by decide, by decide⟩

end BackendFoundation.Notifications.Unsubscribe
