import BackendFoundation.Notifications.Emails

/-! # What emails are sent

A call sends its email only if each check that its request is subject to was met while the call ran:
the code of an email can still be used, the address is not suppressed, and its user is allowed the topic
(`emails_permitted`). A check is met for no call that makes it after the state has turned against it
(`Since`): a suppression stays, under any key ring that has its key (`suppression_holds`), and who used
the link of an announcement is silent until the user enables the topic (`unsubscribed_silent`). -/

namespace BackendFoundation.Notifications.EmailPolicy

open Crypto Errors Lib Lib.Interleave Lib.Runs Lib.UuidText Notifications.Emails
open Notifications.Unsubscribe Notifications.UnsubscribeTokens
open Outbox.Model (EmailEvent)
open Tenancy.TenantScope
open Option (some.inj)

variable {config : EmailConfig} {s t : EmailState} {pid : ℕ} {call : EmailCall} {pc pc' : EmailPc}

/-! ### Checks -/

inductive Check
  | challenge | suppression | preference
deriving DecidableEq

/-- The check lets the call go on, if its request is subject to it. -/
def Check.Holds (config : EmailConfig) (call : EmailCall) (s : EmailState) : Check → Prop
  | challenge => ∀ target challengeId encryptedCode purpose,
    call.request = .otp target challengeId encryptedCode purpose →
      (s.liveChallenge challengeId).isSome = true
  | suppression => ∀ target, call.request.target? = some target →
    s.isSuppressed config.strings call.keyring target.destination = false
  | preference => ∀ target userId topic headline message actionUrl,
    call.request = .announcement target userId topic headline message actionUrl →
      notificationAllowed s.preferences userId .email topic target.organizationId = true

/-- The call has the check behind it. -/
def Passed : EmailPc → Check → Prop
  | .challenge, _ => False
  | .suppression _, check => check = .challenge
  | .preference, check => check ≠ .preference
  | .locale, _ | .send _, _ => True
  | .returned _, _ | .thrown _, _ => False

def Done : EmailPc → Prop
  | .returned _ | .thrown _ => True
  | .challenge | .suppression _ | .preference | .locale | .send _ => False

theorem not_passed_of_done (h : Done pc) (check : Check) : ¬ Passed pc check := by
  cases pc with
  | returned | thrown => exact id
  | challenge | suppression | preference | locale | send => exact h.elim

/-! ### Steps -/

/-- A call that has passed all its checks goes on to read the locale or to send. -/
inductive Ready (config : EmailConfig) (call : EmailCall) : EmailPc → Prop
  | locale : Ready config call .locale
  | send {message : EmailMessage} (now : ℕ) (locale : Option Text)
    (hmessage : call.message config now locale = .ok message) : Ready config call (.send message)
  | ended {pc : EmailPc} (hdone : Done pc) : Ready config call pc

inductive EmailMove (config : EmailConfig) (s : EmailState) (pid : ℕ) (call : EmailCall) :
    EmailPc → EmailState → EmailPc → Prop
  | ended {pc pc' : EmailPc} (hdone : Done pc') : EmailMove config s pid call pc s pc'
  | live {target : Destination} {challengeId : String} {encryptedCode : Ciphertext}
    {purpose : Option OtpPurpose} {row : OtpChallenge}
    (hrequest : call.request = .otp target challengeId encryptedCode purpose)
    (hrow : s.liveChallenge challengeId = some row) :
    EmailMove config s pid call .challenge s (.suppression row.userLocale)
  | unsuppressed {target : Destination} {userLocale : Option Text} {pc' : EmailPc}
    (htarget : call.request.target? = some target)
    (hclear : s.isSuppressed config.strings call.keyring target.destination = false)
    (hpc' : pc' = .preference ∨ Check.preference.Holds config call s ∧ Ready config call pc') :
    EmailMove config s pid call (.suppression userLocale) s pc'
  | allowed {pc' : EmailPc} (hallowed : Check.preference.Holds config call s)
    (hpc' : Ready config call pc') : EmailMove config s pid call .preference s pc'
  | localized {pc' : EmailPc} (hpc' : Ready config call pc') :
    EmailMove config s pid call .locale s pc'
  | sent {message : EmailMessage} {pc' : EmailPc} (hdone : Done pc') :
    EmailMove config s pid call (.send message) (s.send ⟨pid, call.request, message⟩) pc'

theorem ready_build (now : ℕ) (locale : Option Text) :
    Ready config call (build config now call locale) := by
  unfold build
  split
  · next message hmessage => exact .send now locale hmessage
  · exact .ended trivial

theorem ready_resolvedLocale (now : ℕ) (userId : Option String) (requested : Option Text) :
    Ready config call (resolvedLocale config now call userId requested) := by
  unfold resolvedLocale
  split
  · exact .ended trivial
  · split_ifs
    · exact ready_build now requested
    · exact .locale

theorem preference_holds (h : ∀ target userId topic headline message actionUrl,
    call.request ≠ .announcement target userId topic headline message actionUrl) :
    Check.preference.Holds config call s :=
  fun target userId topic headline message actionUrl he =>
    absurd he (h target userId topic headline message actionUrl)

theorem refused_done (provider : String) : Done (refused provider) := trivial

theorem move_read {next : EmailPc} {outcome : Outcome Thrown}
    (hnext : EmailMove config s pid call pc s next) (h : outcome.read s next .thrown = (t, pc')) :
    EmailMove config s pid call pc t pc' := by
  obtain ⟨rfl, ⟨-, rfl⟩ | ⟨e, -, rfl⟩⟩ := Outcome.read_cases h
  · exact hnext
  · exact .ended trivial

theorem move_suppression {target : Destination} {userLocale : Option Text} {refusal next : EmailPc}
    {outcome : Outcome Thrown} (htarget : call.request.target? = some target) (hrefusal : Done refusal)
    (hnext : next = .preference ∨ Check.preference.Holds config call s ∧ Ready config call next)
    (h : outcome.read s (if s.isSuppressed config.strings call.keyring target.destination then refusal
      else next) .thrown = (t, pc')) :
    EmailMove config s pid call (.suppression userLocale) t pc' := by
  refine move_read ?_ h
  split_ifs with hsuppressed
  · exact .ended hrefusal
  · exact .unsuppressed htarget (Bool.eq_false_iff.mpr hsuppressed) hnext

variable {c : EmailChoice}

theorem emailMove_of_step (h : emailStep config s pid call pc c = some (t, pc')) :
    EmailMove config s pid call pc t pc' := by
  unfold emailStep at h
  split at h
  · next target challengeId encryptedCode purpose hrequest =>
    refine move_read ?_ (some.inj h)
    cases hrow : s.liveChallenge challengeId with
    | none => exact .ended trivial
    | some row => exact .live hrequest hrow
  · next target challengeId encryptedCode purpose userLocale hrequest =>
    have htarget : call.request.target? = some target := by rw [hrequest]; rfl
    refine move_suppression htarget (refused_done _) ?_ (some.inj h)
    exact .inr ⟨preference_holds (by rw [hrequest]; nofun), ready_build _ _⟩
  · next target userLocale hrequest =>
    have htarget : call.request.target? = some target := by rw [hrequest]; rfl
    refine move_suppression htarget (refused_done _) ?_ (some.inj h)
    exact .inr ⟨preference_holds (by rw [hrequest]; nofun), ready_resolvedLocale _ _ _⟩
  · next target encryptedToken organizationName expiresInDays userLocale hrequest =>
    have htarget : call.request.target? = some target := by rw [hrequest]; rfl
    refine move_suppression htarget (refused_done _) ?_ (some.inj h)
    exact .inr ⟨preference_holds (by rw [hrequest]; nofun), ready_resolvedLocale _ _ _⟩
  · next target userId topic headline message actionUrl userLocale hrequest =>
    have htarget : call.request.target? = some target := by rw [hrequest]; rfl
    exact move_suppression htarget (refused_done _) (.inl rfl) (some.inj h)
  · next target userId topic headline message actionUrl hrequest =>
    refine move_read ?_ (some.inj h)
    split_ifs with hallowed
    · refine .allowed (fun _ _ _ _ _ _ he => ?_) (ready_resolvedLocale _ _ _)
      cases hrequest.symm.trans he
      exact hallowed
    · exact .ended trivial
  · exact move_read (.localized (ready_build _ _)) (some.inj h)
  · exact move_read (.localized (ready_build _ _)) (some.inj h)
  · exact move_read (.localized (ready_build _ _)) (some.inj h)
  · next message =>
    exact Outcome.run_elim (some.inj h) (.sent trivial) (fun _ => .ended trivial)
      fun _ => .sent trivial
  · cases h

/-- **What a step adds to the checks that a call has passed** is met in the state before it. -/
theorem EmailMove.passed (h : EmailMove config s pid call pc t pc') {check : Check}
    (hpassed : Passed pc' check) : Passed pc check ∨ check.Holds config call s := by
  cases h with
  | ended hdone | sent hdone => exact absurd hpassed (not_passed_of_done hdone check)
  | live hrequest hrow =>
    refine .inr ?_
    obtain rfl : check = .challenge := hpassed
    intro _ _ _ _ he
    cases hrequest.symm.trans he
    exact Option.isSome_of_eq_some hrow
  | unsuppressed htarget hclear hpc' =>
    cases check with
    | challenge => exact .inl rfl
    | suppression =>
      refine .inr fun _ he => ?_
      cases htarget.symm.trans he
      exact hclear
    | preference =>
      rcases hpc' with rfl | ⟨hholds, -⟩
      · exact absurd rfl hpassed
      · exact .inr hholds
  | allowed hallowed =>
    cases check with
    | challenge | suppression => exact .inl nofun
    | preference => exact .inr hallowed
  | localized => exact .inl trivial

theorem EmailMove.mailbox (h : EmailMove config s pid call pc t pc') :
    t.mailbox = s.mailbox ∨ ∃ message, pc = .send message ∧ Done pc' ∧
      t.mailbox = s.mailbox ++ [⟨pid, call.request, message⟩] := by
  cases h with
  | ended | live | unsuppressed | allowed | localized => exact .inl rfl
  | sent hdone => exact .inr ⟨_, rfl, hdone, rfl⟩

theorem EmailMove.state (h : EmailMove config s pid call pc t pc') :
    t.outbox = s.outbox ∧ t.preferences = s.preferences := by
  cases h <;> exact ⟨rfl, rfl⟩

theorem EmailMove.message (h : EmailMove config s pid call pc t pc') {message : EmailMessage}
    (hpc' : pc' = .send message) : ∃ now locale, call.message config now locale = .ok message := by
  subst hpc'
  have hready {pc : EmailPc} (hready : Ready config call pc) (hpc : pc = .send message) :
      ∃ now locale, call.message config now locale = .ok message := by
    cases hready with
    | locale => cases hpc
    | send now locale hmessage =>
      cases hpc
      exact ⟨now, locale, hmessage⟩
    | ended hdone =>
      subst hpc
      exact hdone.elim
  cases h with
  | ended hdone | sent hdone => exact hdone.elim
  | unsuppressed _ _ hpc' =>
    rcases hpc' with hpc' | ⟨-, hpc'⟩
    · cases hpc'
    · exact hready hpc' rfl
  | allowed _ hpc' | localized hpc' => exact hready hpc' rfl

theorem not_done_of_step (h : emailStep config s pid call pc c = some (t, pc')) : ¬ Done pc := by
  intro hdone
  cases pc with
  | challenge | suppression | preference | locale | send => exact hdone
  | returned | thrown =>
    unfold emailStep at h
    split at h <;> simp_all

/-! ### What the checks of a sent email were -/

variable {w w' : EmailWorld}

theorem move_of_step {i : ℕ} {p p' : EmailProc} (h : (system config).step s i p c = some (t, p')) :
    p'.call = p.call ∧ ¬ Done p.pc ∧ EmailMove config s i p.call p.pc t p'.pc := by
  obtain ⟨pc', hstep, rfl⟩ := map_pair_inj h
  exact ⟨rfl, not_done_of_step hstep, emailMove_of_step hstep⟩

theorem mailbox_env {e : EmailEnv} (h : emailEnv config s e = some t) : t.mailbox = s.mailbox := by
  cases e with
  | setPreference | unsubscribe =>
    simp only [emailEnv, EmailState.change] at h
    obtain ⟨-, h⟩ := Option.ite_none_left_eq_some.mp h
    cases h
    rfl
  | tick | providerEvent | deletePreferences | setChallenge | setLocale | setDelivery =>
    cases h
    rfl

/-- The checks that a call has passed when it starts are those that its request is not subject to. -/
theorem start_holds {check : Check} (h : Passed (start call.request) check) :
    check.Holds config call s := by
  cases hrequest : call.request with
  | otp | malformed | unsupported =>
    rw [hrequest] at h
    exact h.elim
  | signupExisting | invitation | announcement =>
    rw [hrequest] at h
    obtain rfl : check = .challenge := h
    intro _ _ _ _ he
    cases hrequest.symm.trans he

variable {l : Label EmailCall EmailChoice EmailEnv}

variable {check : Check} {G : EmailCall → Prop} {Q : EmailRequest → Prop}

/-- No call as `G` says meets the check for a request as `Q` says. -/
def Blocked (config : EmailConfig) (check : Check) (G : EmailCall → Prop) (Q : EmailRequest → Prop)
    (s : EmailState) : Prop :=
  ∀ call : EmailCall, G call → Q call.request → ¬ check.Holds config call s

/-- The process had passed the check of its request. -/
def Had (check : Check) (i : ℕ) (request : EmailRequest) (w : EmailWorld) : Prop :=
  ∃ p, w.proc? i = some p ∧ p.call.request = request ∧ Passed p.pc check

/-- Since a world, the check was passed, and an email sent, for such requests only by calls that had
passed it there. -/
structure Since (check : Check) (G : EmailCall → Prop) (Q : EmailRequest → Prop) (w₀ w : EmailWorld) :
    Prop where
  calls : ∀ i p, w.proc? i = some p → G p.call
  passed : ∀ i p, w.proc? i = some p → Q p.call.request → Passed p.pc check →
    Had check i p.call.request w₀
  sent : ∃ later, w.shared.mailbox = w₀.shared.mailbox ++ later ∧
    ∀ m ∈ later, Q m.request → Had check m.sender m.request w₀

theorem Since.now (hcalls : ∀ i p, w.proc? i = some p → G p.call) : Since check G Q w w where
  calls := hcalls
  passed i p hp _ hpassed := ⟨p, hp, rfl, hpassed⟩
  sent := ⟨[], (List.append_nil _).symm, nofun⟩

theorem Since.next {w₀ : EmailWorld} (h : Since check G Q w₀ w)
    (hblocked : Blocked config check G Q w.shared) (hgood : ∀ call, l = .spawn call → G call)
    (hn : (system config).system.next w l = some w') : Since check G Q w₀ w' := by
  cases Program.move_of_next hn with
  | @spawn a s p hs =>
    cases hs
    refine ⟨fun j q hq => ?_, fun j q hq hrequest hpassed => ?_, h.sent⟩
    · rcases World.proc?_add_cases hq with ⟨-, rfl⟩ | ⟨-, hq⟩
      · exact hgood a rfl
      · exact h.calls j q hq
    · rcases World.proc?_add_cases hq with ⟨-, rfl⟩ | ⟨-, hq⟩
      · exact absurd (start_holds hpassed) (hblocked a (hgood a rfl) hrequest)
      · exact h.passed j q hq hrequest hpassed
  | @step i c p p' s hp hs =>
    obtain ⟨hcall, -, hmove⟩ := move_of_step hs
    have hhad (hrequest : Q p.call.request) {pc : EmailPc}
        (hpassed : Passed pc check → Passed p.pc check ∨ check.Holds config p.call w.shared)
        (hpc : Passed pc check) : Had check i p.call.request w₀ := by
      rcases hpassed hpc with hpassed | hholds
      · exact h.passed i p hp hrequest hpassed
      · exact absurd hholds (hblocked p.call (h.calls i p hp) hrequest)
    refine ⟨fun j q hq => ?_, fun j q hq hrequest hpassed => ?_, ?_⟩
    · rcases World.proc?_put_cases hp hq with ⟨-, rfl⟩ | ⟨-, hq⟩
      · rw [hcall]
        exact h.calls i p hp
      · exact h.calls j q hq
    · rcases World.proc?_put_cases hp hq with ⟨rfl, rfl⟩ | ⟨-, hq⟩
      · rw [hcall] at hrequest ⊢
        exact hhad hrequest hmove.passed hpassed
      · exact h.passed j q hq hrequest hpassed
    · obtain ⟨later, hmailbox, hlater⟩ := h.sent
      rcases hmove.mailbox with he | ⟨message, hpc, -, he⟩
      · exact ⟨later, he.trans hmailbox, hlater⟩
      · refine ⟨later ++ [⟨i, p.call.request, message⟩], ?_, fun m hm hrequest => ?_⟩
        · rw [World.put_shared, he, hmailbox, List.append_assoc]
        · rcases List.mem_append.mp hm with hm | hm
          · exact hlater m hm hrequest
          · obtain rfl := List.mem_singleton.mp hm
            have hpassed : Passed p.pc check := by
              rw [hpc]
              trivial
            exact hhad hrequest .inl hpassed
  | @crash i p hp =>
    exact ⟨fun j q hq => h.calls j q (World.proc?_kill_cases hq).2,
      fun j q hq => h.passed j q (World.proc?_kill_cases hq).2, h.sent⟩
  | @env e s hs =>
    obtain ⟨later, hmailbox, hlater⟩ := h.sent
    exact ⟨h.calls, h.passed, later, (mailbox_env hs).trans hmailbox, hlater⟩

/-- **A check that is blocked for good** lets no call through that had not passed it. -/
theorem since_of_path {good : EmailWorld → Label EmailCall EmailChoice EmailEnv → Prop}
    {I : EmailState → Prop} (hcalls : ∀ i p, w.proc? i = some p → G p.call) (hI : I w.shared)
    (hblocked : ∀ s, I s → Blocked config check G Q s)
    (hgood : ∀ v l, good v l → ∀ call, l = .spawn call → G call)
    (hkeep : ∀ v v' l, I v.shared → good v l → (system config).system.next v l = some v' → I v'.shared)
    (hpath : Path (system config).system good w w') : I w'.shared ∧ Since check G Q w w' := by
  induction hpath with
  | refl => exact ⟨hI, .now hcalls⟩
  | step _ hg hn ih =>
    exact ⟨hkeep _ _ _ ih.1 hg hn, ih.2.next (hblocked _ ih.1) (hgood _ _ hg) hn⟩

/-! ### Suppressions -/

/-- The address is suppressed under a hash. -/
def Suppresses (hash : MetadataHash) (s : EmailState) : Prop :=
  ∃ row, s.outbox.suppressions hash = some row ∧ row.deletedAt = none

theorem suppressed_processed {hash : MetadataHash} {K : Keyring} {event : EmailEvent}
    (h : Suppresses hash s) :
    Suppresses hash { s with outbox := s.outbox.processEmailProviderEvent config.strings K event } := by
  have hset {value : Outbox.Model.EmailSuppression} (hvalue : value.deletedAt = none) :
      ∃ row, s.outbox.suppressions.set
        (hashMetadata config.strings K (normalizeEmail config.strings event.destination)) value hash =
          some row ∧ row.deletedAt = none := by
    by_cases he : hash =
        hashMetadata config.strings K (normalizeEmail config.strings event.destination)
    · exact ⟨value, by rw [he, Table.set_self], hvalue⟩
    · rw [Table.set_of_ne he]
      exact h
  obtain ⟨id, type, destination, provider, messageId⟩ := event
  cases type with
  | delivered => exact h
  | bounce | complaint => exact hset rfl

variable {v v' : EmailWorld}

theorem suppresses_next {hash : MetadataHash} (h : Suppresses hash v.shared)
    (hn : (system config).system.next v l = some v') : Suppresses hash v'.shared := by
  obtain ⟨row, hrow, hlive⟩ := h
  cases Program.move_of_next hn with
  | spawn hs =>
    cases hs
    exact ⟨row, hrow, hlive⟩
  | step hp hs =>
    obtain ⟨-, -, hmove⟩ := move_of_step hs
    exact ⟨row, by rw [World.put_shared, hmove.state.1, hrow], hlive⟩
  | crash hp => exact ⟨row, hrow, hlive⟩
  | @env e s hs =>
    cases e with
    | providerEvent K event =>
      cases hs
      exact suppressed_processed ⟨row, hrow, hlive⟩
    | setPreference | unsubscribe =>
      obtain ⟨-, hs⟩ := Option.ite_none_left_eq_some.mp hs
      cases hs
      exact ⟨row, hrow, hlive⟩
    | tick | deletePreferences | setChallenge | setLocale | setDelivery =>
      cases hs
      exact ⟨row, hrow, hlive⟩

/-- A bounce or a complaint has suppressed the address, under the key ring that was in force. -/
theorem suppresses_reported {K : Keyring} {event : EmailEvent} (hevent : event.type ≠ .delivered)
    (hn : (system config).system.next v (.env (.providerEvent K event)) = some v') :
    Suppresses (hashMetadata config.strings K (normalizeEmail config.strings event.destination))
      v'.shared := by
  cases hn
  obtain ⟨id, type, destination, provider, messageId⟩ := event
  cases type with
  | delivered => exact absurd rfl hevent
  | bounce | complaint => exact ⟨_, Table.set_self, rfl⟩

/-- The address of the request has this normal form. -/
def Addressed (config : EmailConfig) (normalized : String) (request : EmailRequest) : Prop :=
  ∃ target, request.target? = some target ∧
    normalizeEmail config.strings target.destination = normalized

/-- Only processes that have the key start calls. -/
def KeyKept (keyId : String) (_ : EmailWorld) : Label EmailCall EmailChoice EmailEnv → Prop
  | .spawn call => keyId ∈ call.keyring.keyIds
  | .step _ _ | .crash _ | .env _ => True

instance (keyId : String) (w : EmailWorld) (l : Label EmailCall EmailChoice EmailEnv) :
    Decidable (KeyKept keyId w l) :=
  match l with
  | .spawn call => inferInstanceAs (Decidable (keyId ∈ call.keyring.keyIds))
  | .step _ _ | .crash _ | .env _ => isTrue trivial

theorem blocked_of_suppresses {K : Keyring} {normalized : String}
    (h : Suppresses (hashMetadata config.strings K normalized) s) :
    Blocked config .suppression (fun call => K.activeKeyId ∈ call.keyring.keyIds)
      (Addressed config normalized) s := by
  intro call hkey ⟨target, htarget, hnormalized⟩ hholds
  obtain ⟨row, hrow, hlive⟩ := h
  have hclear := hholds target htarget
  have hmem := hashMetadata_mem_candidates config.strings K hkey normalized
  rw [EmailState.isSuppressed, hnormalized, List.any_eq_false] at hclear
  refine hclear _ hmem ?_
  rw [hrow]
  exact decide_eq_true hlive

/-- **A suppression holds.** After a bounce or a complaint about an address has been processed, an email
to the address, in whichever spelling, is sent only by a call that had read the suppressions before: as
long as every process has the key under which the report was stored, whatever key it stores under
itself. -/
theorem suppression_holds {K : Keyring} {event : EmailEvent} {w₁ w₂ : EmailWorld}
    (hevent : event.type ≠ .delivered)
    (hreport : (system config).system.next w (.env (.providerEvent K event)) = some w₁)
    (hcalls : ∀ i p, w₁.proc? i = some p → K.activeKeyId ∈ p.call.keyring.keyIds)
    (hpath : Path (system config).system (KeyKept K.activeKeyId) w₁ w₂) :
    ∃ later, w₂.shared.mailbox = w₁.shared.mailbox ++ later ∧
      ∀ m ∈ later,
        Addressed config (normalizeEmail config.strings event.destination) m.request →
          Had .suppression m.sender m.request w₁ := by
  refine (since_of_path hcalls (suppresses_reported hevent hreport) (fun s => blocked_of_suppresses)
    (fun v l hg call hl => ?_) (fun v v' l h _ hn => suppresses_next h hn) hpath).2.sent
  subst hl
  exact hg

/-! ### Users who have unsubscribed -/

variable {userId : String} {topic : NotificationTopic} {context : Option RequestContext} {P : Platform}
  {preferences preferences' : Preferences}

/-- The global preferences are of no organization. -/
def GlobalOk (preferences : Preferences) : Prop :=
  ∀ key row, preferences key = some row → key.scopeKey = "global" → row.organizationId = none

theorem preferenceScope_global (hcontext : context.bind (·.activeOrganization) ≠ some "global")
    (hscope : (preferenceScope context).scopeKey = "global") :
    (preferenceScope context).organizationId = none := by
  unfold preferenceScope at hscope ⊢
  split at hscope
  · next organizationId horganization =>
    exact absurd (horganization.trans (congrArg some hscope)) hcontext
  · rfl

theorem globalOk_set {input : PreferenceInput} (h : GlobalOk preferences)
    (hcontext : context.bind (·.activeOrganization) ≠ some "global")
    (hset : setNotificationPreference preferences context userId input = .ok preferences') :
    GlobalOk preferences' := by
  have hwritten {row : Preference}
      (hrow : row.organizationId = (preferenceScope context).organizationId) :
      GlobalOk (preferences.set
        ⟨userId, (preferenceScope context).scopeKey, input.channel, input.topic⟩ row) := by
    intro key row' hrow' hkey
    rcases Table.set_eq_some.mp hrow' with ⟨rfl, rfl⟩ | ⟨-, hrow'⟩
    · rw [hrow]
      exact preferenceScope_global hcontext hkey
    · exact h key row' hrow' hkey
  unfold setNotificationPreference at hset
  dsimp only at hset
  split at hset
  · cases hset
    exact hwritten rfl
  · next row _ =>
    split_ifs at hset with hsame
    cases hset
    exact hwritten hsame

theorem globalOk_apply {change : Change} (h : GlobalOk preferences)
    (hcontext : (contextOf change).bind (·.activeOrganization) ≠ some "global") :
    GlobalOk (change.apply P.runtime preferences) := by
  cases change with
  | set context userId input =>
    simp only [Change.apply]
    cases hset : setNotificationPreference preferences context userId input with
    | error e => exact h
    | ok t => exact globalOk_set h hcontext hset
  | unsubscribe context now token =>
    simp only [Change.apply]
    cases hcall : unsubscribeWithToken P.runtime preferences context now token with
    | error e => exact h
    | ok result =>
      obtain ⟨done, t⟩ := result
      rcases unsubscribeWithToken_ok hcall with ⟨-, -, rfl⟩ | ⟨payload, -, -, hset⟩
      · exact h
      · exact globalOk_set h hcontext hset

theorem globalOk (h : Reachable (system config).system w) : GlobalOk w.shared.preferences := by
  refine h.invariant (I := fun w => GlobalOk w.shared.preferences) ?_ ?_
  · intro w hw key row hrow
    obtain rfl : w = ⟨{}, []⟩ := hw
    cases hrow
  · intro w w' l ih _ hn
    cases Program.move_of_next hn with
    | spawn hs =>
      cases hs
      exact ih
    | step hp hs =>
      obtain ⟨-, -, hmove⟩ := move_of_step hs
      rw [World.put_shared, hmove.state.2]
      exact ih
    | crash hp => exact ih
    | @env e s hs =>
      cases e with
      | setPreference | unsubscribe =>
        obtain ⟨hcontext, hs⟩ := Option.ite_none_left_eq_some.mp hs
        cases hs
        exact globalOk_apply (P := config.platform) ih hcontext
      | deletePreferences userId =>
        cases hs
        intro key row hrow hkey
        refine ih key row ?_ hkey
        simp only [World.withShared_shared] at hrow
        split_ifs at hrow
        · exact (Option.filter_eq_some_iff.mp hrow).1
        · exact hrow
      | tick | providerEvent | setChallenge | setLocale | setDelivery =>
        cases hs
        exact ih

/-- The user does not enable the topic, and the account is not deleted. -/
def Quiet (userId : String) (topic : NotificationTopic) (_ : EmailWorld) :
    Label EmailCall EmailChoice EmailEnv → Prop
  | .env (.setPreference _ user input) => ¬ (user = userId ∧ input = ⟨.email, topic, true⟩)
  | .env (.deletePreferences user) => user ≠ userId
  | _ => True

instance (w : EmailWorld) (l : Label EmailCall EmailChoice EmailEnv) :
    Decidable (Quiet userId topic w l) := by
  unfold Quiet
  split <;> infer_instance

/-- The request is an announcement on the topic to the user. -/
def Announces (userId : String) (topic : NotificationTopic) (request : EmailRequest) : Prop :=
  ∃ target headline message actionUrl,
    request = .announcement target userId topic headline message actionUrl

theorem blocked_of_silent (h : Silent s.preferences userId topic) :
    Blocked config .preference (fun _ => True) (Announces userId topic) s := by
  rintro call - ⟨target, headline, message, actionUrl, hrequest⟩ hholds
  have hallowed := hholds target userId topic headline message actionUrl hrequest
  rw [silent_iff.mpr h target.organizationId] at hallowed
  cases hallowed

theorem silent_next (h : Silent v.shared.preferences userId topic)
    (hquiet : Quiet userId topic v l) (hn : (system config).system.next v l = some v') :
    Silent v'.shared.preferences userId topic := by
  cases Program.move_of_next hn with
  | spawn hs =>
    cases hs
    exact h
  | step hp hs =>
    obtain ⟨-, -, hmove⟩ := move_of_step hs
    rw [World.put_shared, hmove.state.2]
    exact h
  | crash hp => exact h
  | @env e s hs =>
    cases e with
    | setPreference context user input =>
      obtain ⟨-, hs⟩ := Option.ite_none_left_eq_some.mp hs
      cases hs
      have hno : ¬ (Change.set context user input).Enables userId topic := by
        rintro ⟨context', he⟩
        cases he
        exact hquiet ⟨rfl, rfl⟩
      exact h.apply (R := config.platform.runtime) hno
    | unsubscribe context token =>
      obtain ⟨-, hs⟩ := Option.ite_none_left_eq_some.mp hs
      cases hs
      have hno : ¬ (Change.unsubscribe context v.shared.now token).Enables userId topic := by
        rintro ⟨context', he⟩
        cases he
      exact h.apply (R := config.platform.runtime) hno
    | deletePreferences user =>
      cases hs
      have hkept (scopeKey : String) :
          (if userId = user then
              (v.shared.preferences ⟨userId, scopeKey, .email, topic⟩).filter (·.deletedAt ≠ none)
            else v.shared.preferences ⟨userId, scopeKey, .email, topic⟩) =
          v.shared.preferences ⟨userId, scopeKey, .email, topic⟩ := if_neg (Ne.symm hquiet)
      obtain ⟨⟨row, hrow, hlive, hoff⟩, hon⟩ := h
      refine ⟨⟨row, (hkept _).trans hrow, hlive, hoff⟩, fun scopeKey hne ⟨row', hrow', hlive', hon'⟩ => ?_⟩
      exact hon scopeKey hne ⟨row', (hkept _).symm.trans hrow', hlive', hon'⟩
    | tick | providerEvent | setChallenge | setLocale | setDelivery =>
      cases hs
      exact h

/-- A token that is used in its days turns the topic off in the global scope, so that it is off if no
organization has it on. -/
theorem silent_unsubscribed {token : Text} {issued : ℕ} (hok : GlobalOk s.preferences)
    (hverify : verifyUnsubscribeToken config.platform.runtime s.now token =
      some ⟨userId, topic, expiry issued 30⟩)
    (hscope : (preferenceScope context).scopeKey = "global")
    (hoff : ∀ scopeKey, scopeKey ≠ "" → scopeKey ≠ "global" → ¬ On s.preferences userId topic scopeKey)
    (huse : emailEnv config s (.unsubscribe context token) = some t) :
    Silent t.preferences userId topic := by
  obtain ⟨hcontext, huse⟩ := Option.ite_none_left_eq_some.mp huse
  cases huse
  have hnone := preferenceScope_global hcontext hscope
  have hset : ∃ row : Preference, row.deletedAt = none ∧ row.enabled = false ∧
      setNotificationPreference s.preferences context userId ⟨.email, topic, false⟩ =
        .ok (s.preferences.set ⟨userId, "global", .email, topic⟩ row) := by
    unfold setNotificationPreference
    simp only [hscope]
    cases hrow : s.preferences ⟨userId, "global", .email, topic⟩ with
    | none => exact ⟨_, rfl, rfl, rfl⟩
    | some row =>
      have horganization := hok _ row hrow rfl
      exact ⟨{ row with enabled := false, deletedAt := none }, rfl, rfl,
        if_pos (horganization.trans hnone.symm)⟩
  obtain ⟨row, hlive, henabled, hset⟩ := hset
  have happly : (Change.unsubscribe context s.now token).apply config.platform.runtime s.preferences =
      s.preferences.set ⟨userId, "global", .email, topic⟩ row := by
    simp only [Change.apply, unsubscribeWithToken, hverify, hset]
    rfl
  simp only [happly]
  refine ⟨(off_set hlive henabled).mpr (.inl rfl), fun scopeKey hne hon => ?_⟩
  obtain ⟨hglobal, hon⟩ := (on_set henabled).mp hon
  exact hoff scopeKey hne hglobal hon

/-- **The link of an announcement works.** Once the token has been used in its days, and no organization
has the topic on for the user, no announcement on it is sent to the user but by a call that had read the
preferences before, until the user enables the topic or deletes the account. -/
theorem unsubscribed_silent {issued : ℕ} {w₁ w₂ : EmailWorld} (h : Reachable (system config).system w)
    (huser : acceptsUuid userId.toList = true) (hsafe : expiry issued 30 ≤ maxSafeInteger)
    (hparse : config.platform.jsonParse
      (Lib.Json.plainText (payloadJson ⟨userId, topic, expiry issued 30⟩)) =
        some (payloadJson ⟨userId, topic, expiry issued 30⟩))
    (hscope : (preferenceScope context).scopeKey = "global")
    (hoff : ∀ scopeKey, scopeKey ≠ "" → scopeKey ≠ "global" →
      ¬ On w.shared.preferences userId topic scopeKey)
    (hvalid : w.shared.now / 1000 < expiry issued 30)
    (huse : (system config).system.next w (.env (.unsubscribe context
      (createUnsubscribeToken config.platform issued userId topic 30))) = some w₁)
    (hpath : Path (system config).system (Quiet userId topic) w₁ w₂) :
    (∀ organizationId,
        notificationAllowed w₂.shared.preferences userId .email topic organizationId = false) ∧
      ∃ later, w₂.shared.mailbox = w₁.shared.mailbox ++ later ∧
        ∀ m ∈ later, Announces userId topic m.request → Had .preference m.sender m.request w₁ := by
  have hverify := verify_create config.platform issued w.shared.now userId topic 30 huser hsafe hparse
  rw [if_pos hvalid] at hverify
  have hsilent : Silent w₁.shared.preferences userId topic := by
    obtain ⟨s, hs, rfl⟩ := Option.map_eq_some_iff.mp huse
    exact silent_unsubscribed (globalOk h) hverify hscope hoff hs
  obtain ⟨hsilent, hsince⟩ := since_of_path (G := fun _ => True)
    (I := fun s => Silent s.preferences userId topic) (fun _ _ _ => trivial) hsilent
    (fun s => blocked_of_silent) (fun _ _ _ _ _ => trivial)
    (fun v v' l h hg hn => silent_next h hg hn) hpath
  exact ⟨silent_iff.mpr hsilent, hsince.sent⟩

/-! ### Examples -/

def exampleUser : String := "00000000-0000-0000-0000-000000000000"

/-- The payload of a token of the first second. -/
def examplePayload : UnsubscribePayload := ⟨exampleUser, .productUpdates, expiry 0 30⟩

/-- A digest that is the start of its message, and a reader of one text. -/
def examplePlatform : Platform where
  hmac message := (message ++ List.replicate 32 0).take 32
  jsonParse text :=
    if text = Lib.Json.plainText (payloadJson examplePayload) then some (payloadJson examplePayload)
    else none
  length_hmac message := by simp

def exampleConfig : EmailConfig where
  strings := Crypto.exampleRuntime
  platform := examplePlatform
  parseUrl text := if text = [] then none else some text
  acceptUrl token := "https://app.test/invitations/accept?token=".toList ++ token
  emailFrom := "news@app.test".toList
  unsubscribeUrl := some fun token => "https://app.test/unsubscribe?token=".toList ++ token

def exampleDestination : Destination := { destination := "a@x.test" }

def exampleAnnouncement : EmailRequest :=
  .announcement exampleDestination exampleUser .productUpdates "News".toList "More".toList
    "https://app.test".toList

def exampleRotated : Keyring := ⟨["k1", "k2"], "k2", by decide⟩

/-- One call has read the suppressions and another has sent. -/
def exampleLabels : List (Label EmailCall EmailChoice EmailEnv) :=
  [.spawn ⟨exampleKeyring, .signupExisting exampleDestination, none⟩, .step 0 {},
    .spawn ⟨exampleKeyring, exampleAnnouncement, some "d1"⟩, .step 1 {}, .step 1 {}, .step 1 {},
    .step 1 {}]

def exampleBounce : EmailEvent :=
  { id := "e1", type := .bounce, destination := "a@x.test", provider := "ses" }

/-- The world after a report of the provider, or after a link was used. -/
def after (w : EmailWorld) (e : EmailEnv) : EmailWorld :=
  ((system exampleConfig).next w (.env e)).getD w

theorem next_after {e : EmailEnv} (h : ((system exampleConfig).next w (.env e)).isSome = true) :
    (system exampleConfig).system.next w (.env e) = some (after w e) := by
  obtain ⟨w', hw'⟩ := Option.isSome_iff_exists.mp h
  rw [after, hw']
  exact hw'

/-- A call that was on its way still sends; one that starts after the report does not. -/
theorem suppression_holds_example : ∃ w₁ w₂ : EmailWorld,
    w₂.shared.mailbox.map (·.sender) = [1, 0] ∧
      (w₂.proc? 2).map (·.pc) = some (refused "suppression-list") ∧
      ∃ later, w₂.shared.mailbox = w₁.shared.mailbox ++ later ∧
        ∀ m ∈ later, Addressed exampleConfig "a@x.test" m.request →
          Had .suppression m.sender m.request w₁ := by
  let event := EmailEnv.providerEvent exampleKeyring exampleBounce
  obtain ⟨w, -, hnext, hcalls, hrun⟩ := (system exampleConfig).exists_reached anyStep exampleLabels
    (fun w => ((system exampleConfig).next w (.env event)).isSome = true ∧
      ¬ (after w event).Any (fun p => "k1" ∉ p.call.keyring.keyIds) ∧
      (exec (system exampleConfig).system (KeyKept "k1") (after w event)
        [.step 0 {}, .spawn ⟨exampleRotated, .signupExisting exampleDestination, none⟩, .step 2 {}]).any
          (fun w₂ => w₂.shared.mailbox.map (·.sender) = [1, 0] ∧
            (w₂.proc? 2).map (·.pc) = some (refused "suppression-list")) = true) (by decide +kernel)
  obtain ⟨w₂, hexec, hw₂⟩ := (Option.any_eq_true _ _).mp hrun
  obtain ⟨hmailbox, hrefused⟩ := of_decide_eq_true hw₂
  have hkey : ∀ i p, (after w event).proc? i = some p → "k1" ∈ p.call.keyring.keyIds :=
    fun i p hp => by_contra fun hkey => hcalls ⟨i, p, hp, hkey⟩
  have hevent : exampleBounce.type ≠ .delivered := by decide
  exact ⟨after w event, w₂, hmailbox, hrefused,
    suppression_holds hevent (next_after hnext) hkey (path_of_exec .refl hexec)⟩

/-- A user who has no preference uses the link and is sent no announcement. -/
theorem unsubscribed_silent_example : ∃ w₁ w₂ : EmailWorld,
    (w₂.proc? 0).map (·.pc) = some (refused "preference-policy") ∧
      (∀ organizationId, notificationAllowed w₂.shared.preferences exampleUser .email .productUpdates
        organizationId = false) ∧
      ∃ later, w₂.shared.mailbox = w₁.shared.mailbox ++ later ∧
        ∀ m ∈ later, Announces exampleUser .productUpdates m.request →
          Had .preference m.sender m.request w₁ := by
  let w : EmailWorld := ⟨{}, []⟩
  let event := EmailEnv.unsubscribe (some (.request "r1" none none))
    (createUnsubscribeToken exampleConfig.platform 0 exampleUser .productUpdates 30)
  have hrun : (exec (system exampleConfig).system (Quiet exampleUser .productUpdates) (after w event)
      [.spawn ⟨exampleKeyring, exampleAnnouncement, none⟩, .step 0 {}, .step 0 {}]).any
        (fun w₂ => (w₂.proc? 0).map (·.pc) = some (refused "preference-policy")) = true := by
    decide +kernel
  obtain ⟨w₂, hexec, hw₂⟩ := (Option.any_eq_true _ _).mp hrun
  have hparse : examplePlatform.jsonParse (Lib.Json.plainText (payloadJson examplePayload)) =
      some (payloadJson examplePayload) := by
    simp only [examplePlatform, ↓reduceIte]
  have hoff : ∀ scopeKey, scopeKey ≠ "" → scopeKey ≠ "global" →
      ¬ On w.shared.preferences exampleUser .productUpdates scopeKey := by
    rintro scopeKey - - ⟨row, hrow, -⟩
    cases hrow
  exact ⟨after w event, w₂, of_decide_eq_true hw₂,
    unsubscribed_silent (.init rfl) (by decide +kernel) (by decide) hparse rfl hoff (by decide)
      (next_after (by decide +kernel)) (path_of_exec .refl hexec)⟩

end BackendFoundation.Notifications.EmailPolicy
