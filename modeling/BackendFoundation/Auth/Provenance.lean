import BackendFoundation.Auth.AccountModel

/-! # Who can sign in to an account

Two principals make calls; the account has an email, and only the second principal receives the codes
sent there and has a provider token for it (`Separated`).

An account that the first principal signs up with its password stays pending. When the second
principal activates it, by a code or by `loginWithSocial`, the password stays and becomes a
credential of the first (`first_signs_in`). `password_provenance` excludes such activations
(`CleanActivation`): then the first principal never obtains a session of the account. -/

namespace BackendFoundation.Auth.Provenance

open Lib Lib.Rows Lib.Interleave Lib.Runs Errors Crypto Auth.AccountModel
open Option (some.inj map_eq_some_iff)

/-! ### Principals -/

structure Principals (cfg : AccountConfig) where
  /-- The email of the account. -/
  email : String
  /-- The passwords and reset tokens that the first principal has. -/
  knows : String → Bool
  accountOwner : SocialProvider → String → Principal
  /-- The random text behind `dummyPasswordHash` is secret. -/
  dummy : knows cfg.dummyPassword = false

variable {cfg : AccountConfig} (P : Principals cfg)

/-- A provider token is of an account of its principal, and has the email of the account only if
that is the second one. -/
def OwnIdentity (caller : Principal) (identity : SocialIdentity) : Prop :=
  P.accountOwner identity.provider identity.providerAccountId = caller ∧
    (caller = .first → identity.email ≠ some P.email)

instance (caller : Principal) (identity : SocialIdentity) :
    Decidable (OwnIdentity P caller identity) := by
  unfold OwnIdentity
  infer_instance

def OwnToken (caller : Principal) (provider : SocialProvider) (idToken : String) : Prop :=
  ∀ identity ∈ (verifySocialIdentity cfg provider idToken).toOption, OwnIdentity P caller identity

instance (caller : Principal) (provider : SocialProvider) (idToken : String) :
    Decidable (OwnToken P caller provider idToken) := by
  unfold OwnToken
  infer_instance

/-- The passwords and the reset tokens of a request of the first principal are ones that it has,
those that the second one sets and is given are not. -/
def OwnSecrets (a : AccountSpawn) : Prop :=
  match a.caller, a.request with
  | .first, .loginWithPassword _ password => P.knows password = true
  | .first, .confirmPasswordReset resetToken _ => P.knows resetToken = true
  | .first, _ => True
  | .second, .confirmPasswordReset _ newPassword =>
    P.knows newPassword = false ∧ P.knows a.draws.resetToken = false
  | .second, .signupWithPassword _ password _ =>
    P.knows password = false ∧ P.knows a.draws.resetToken = false
  | .second, _ => P.knows a.draws.resetToken = false

instance (a : AccountSpawn) : Decidable (OwnSecrets P a) := by
  unfold OwnSecrets
  split <;> infer_instance

def OwnRequest (a : AccountSpawn) : Prop :=
  OwnSecrets P a ∧
    match a.request with
    | .loginWithSocial provider idToken _ => OwnToken P a.caller provider idToken
    | _ => True

instance (a : AccountSpawn) : Decidable (OwnRequest P a) := by
  unfold OwnRequest
  split <;> infer_instance

/-- The code that a call is about to check. -/
def codeChecked : AccountPc → Option String
  | .findOtp _ _ _ code | .findReset _ code => some code
  | _ => none

/-- A code of the first principal is not one that was sent to the email of the account. -/
def OwnCode (s : AccountState) (call : AccountCall) : Prop :=
  call.caller = .first → ∀ code ∈ codeChecked call.pc, ∀ challenge ∈ s.challenges,
    challenge.normalizedDestination = P.email → verifySecret challenge.codeHash code = false

instance (s : AccountState) (call : AccountCall) : Decidable (OwnCode P s call) := by
  unfold OwnCode
  infer_instance

/-- Only the second principal receives codes sent to the email, or has a provider token for it, and
the principals do not have each other's secrets. -/
def Separated (w : AccountWorld) : AccountLabel → Prop
  | .spawn a => OwnRequest P a
  | .step i _ => ∀ call ∈ w.proc? i, OwnCode P w.shared call
  | .crash _ | .env _ => True

instance (w : AccountWorld) (l : AccountLabel) : Decidable (Separated P w l) := by
  cases l <;> unfold Separated <;> infer_instance

/-- The pending user that a step activates. -/
def activates (s : AccountState) : AccountPc → Option ℕ
  | .activateExisting identity _ userId => if s.linkTaken identity then none else some userId
  | .commitOtp challenge (some .pending) =>
    if challenge.purpose ≠ .login ∧ s.challenges.any fun c => c.id = challenge.id ∧
        c.consumedAt = none ∧ c.lockedAt = none ∧ c.deletedAt = none then
      some challenge.userId
    else none
  | _ => none

/-- A pending account has no password that the first principal has. -/
def ClearPassword (user : User) : Prop :=
  user.email = some P.email → user.status = .pending →
    ∀ hash ∈ user.passwordHash, P.knows hash.value = false

/-- A step does not activate the account while it has a password of the first principal. -/
def CleanActivation (w : AccountWorld) : AccountLabel → Prop
  | .step i _ => ∀ call ∈ w.proc? i, ∀ userId ∈ activates w.shared call.pc,
    ∀ user ∈ w.shared.users, user.id = userId → ClearPassword P user
  | .spawn _ | .crash _ | .env _ => True

instance (w : AccountWorld) (l : AccountLabel) : Decidable (CleanActivation P w l) := by
  cases l <;> unfold CleanActivation ClearPassword <;> infer_instance

/-- The first principal has no session of the account. -/
def NoSession (w : AccountWorld) : Prop :=
  ∀ i call userId token, w.proc? i = some call → call.caller = .first →
    call.pc = .returned (.tokenPair userId token) →
    ∀ user ∈ w.shared.users, user.id = userId → user.email ≠ some P.email

/-! ### What holds of the rows -/

def Other (users : List User) (userId : ℕ) : Prop :=
  ∃ user ∈ users, user.id = userId ∧ user.email ≠ some P.email

structure UsersOk (users : List User) (nextId : ℕ) : Prop where
  fresh : ∀ user ∈ users, user.id < nextId
  same : ∀ user ∈ users, ∀ user' ∈ users, user.id = user'.id → user.email = user'.email
  phone : ∀ user ∈ users, user.phone = none
  /-- The first principal has no password of the account, once that is not pending. -/
  password : ∀ user ∈ users, user.email = some P.email → user.status ≠ .pending →
    ∀ hash ∈ user.passwordHash, P.knows hash.value = false

structure RowsOk (s : AccountState) : Prop where
  users : UsersOk P s.users s.nextId
  challenges : ∀ challenge ∈ s.challenges, challenge.channel = .email ∧
    (challenge.normalizedDestination ≠ P.email → Other P s.users challenge.userId)
  resetTokens : ∀ token ∈ s.resetTokens, Other P s.users token.userId ∨
    ∃ text, token.tokenHash = hashOpaqueToken cfg.R cfg.K text ∧ P.knows text = false
  socialAccounts : ∀ account ∈ s.socialAccounts,
    P.accountOwner account.provider account.providerAccountId = .first →
    Other P s.users account.userId

variable {P} {users users' : List User} {s s' : AccountState} {userId nextId : ℕ}

def Keeps (users users' : List User) : Prop :=
  ∀ user ∈ users, ∃ user' ∈ users', user'.id = user.id ∧ user'.email = user.email

theorem Keeps.refl (users : List User) : Keeps users users := fun user h => ⟨user, h, rfl, rfl⟩

theorem Other.keeps (h : Other P users userId) (hk : Keeps users users') :
    Other P users' userId := by
  obtain ⟨user, hmem, hid, hne⟩ := h
  obtain ⟨user', hmem', hid', hemail⟩ := hk user hmem
  exact ⟨user', hmem', hid'.trans hid, by rwa [hemail]⟩

theorem Other.email (h : Other P users userId) (hu : UsersOk P users nextId) {user : User}
    (hmem : user ∈ users) (hid : user.id = userId) : user.email ≠ some P.email := by
  obtain ⟨user', hmem', hid', hne⟩ := h
  rwa [hu.same user hmem user' hmem' (hid.trans hid'.symm)]

/-! ### Updates of users -/

theorem keeps_update {cond : User → Bool} {data : User → User}
    (hdata : ∀ user, (data user).id = user.id ∧ (data user).email = user.email) :
    Keeps users (updateWhere users cond data) := by
  intro user hmem
  refine ⟨_, mem_updateWhere.mpr ⟨user, hmem, rfl⟩, ?_⟩
  split_ifs
  · exact hdata user
  · exact ⟨rfl, rfl⟩

theorem UsersOk.update (h : UsersOk P users nextId) (cond : User → Bool) {data : User → User}
    (hdata : ∀ user, (data user).id = user.id ∧ (data user).email = user.email)
    (hphone : ∀ user ∈ users, (data user).phone = none)
    (hpassword : ∀ user ∈ users, cond user = true → user.email = some P.email →
      (data user).status ≠ .pending → ∀ hash ∈ (data user).passwordHash,
      P.knows hash.value = false) :
    UsersOk P (updateWhere users cond data) nextId := by
  have hold : ∀ user ∈ updateWhere users cond data, ∃ old ∈ users, user.id = old.id ∧
      user.email = old.email := by
    intro user hmem
    rcases updateWhere_cases hmem with hmem | ⟨old, hold, -, rfl⟩
    · exact ⟨user, hmem, rfl, rfl⟩
    · exact ⟨old, hold, hdata old⟩
  refine ⟨fun user hmem => ?_, fun user hmem user' hmem' hid => ?_, fun user hmem => ?_,
    fun user hmem hemail hstatus => ?_⟩
  · obtain ⟨old, hmem, hid, -⟩ := hold user hmem
    rw [hid]
    exact h.fresh old hmem
  · obtain ⟨old, hm, hid₁, he₁⟩ := hold user hmem
    obtain ⟨old', hm', hid₂, he₂⟩ := hold user' hmem'
    rw [he₁, he₂]
    exact h.same old hm old' hm' (by rw [← hid₁, hid, hid₂])
  · rcases updateWhere_cases hmem with hmem | ⟨old, hold, -, rfl⟩
    · exact h.phone user hmem
    · exact hphone old hold
  · rcases updateWhere_cases hmem with hmem | ⟨old, hold, hcond, rfl⟩
    · exact h.password user hmem hemail hstatus
    · exact hpassword old hold hcond ((hdata old).2.symm.trans hemail) hstatus

theorem UsersOk.add (h : UsersOk P users nextId) (user : User) (hid : user.id = nextId)
    (hphone : user.phone = none)
    (hpassword : user.email = some P.email → user.status ≠ .pending →
      ∀ hash ∈ user.passwordHash, P.knows hash.value = false) :
    UsersOk P (user :: users) (nextId + 1) := by
  have hne : ∀ user' ∈ users, user'.id ≠ user.id := by
    intro user' hmem he
    have hlt := h.fresh user' hmem
    omega
  refine ⟨fun user' hmem => ?_, fun user₁ h₁ user₂ h₂ he => ?_, fun user' hmem => ?_,
    fun user' hmem => ?_⟩
  · rcases List.mem_cons.mp hmem with rfl | hmem
    · omega
    · have hlt := h.fresh user' hmem
      omega
  · rcases List.mem_cons.mp h₁ with h₁ | h₁ <;> rcases List.mem_cons.mp h₂ with h₂ | h₂
    · rw [h₁, h₂]
    · exact absurd (by rw [← he, h₁]) (hne user₂ h₂)
    · exact absurd (by rw [he, h₂]) (hne user₁ h₁)
    · exact h.same user₁ h₁ user₂ h₂ he
  · rcases List.mem_cons.mp hmem with rfl | hmem
    · exact hphone
    · exact h.phone user' hmem
  · rcases List.mem_cons.mp hmem with rfl | hmem
    · exact hpassword
    · exact h.password user' hmem

theorem keeps_add (user : User) : Keeps users (user :: users) :=
  fun user' h => ⟨user', List.mem_cons_of_mem _ h, rfl, rfl⟩

theorem UsersOk.mono (h : UsersOk P users nextId) {nextId' : ℕ} (hle : nextId ≤ nextId') :
    UsersOk P users nextId' :=
  ⟨fun user hmem => Nat.lt_of_lt_of_le (h.fresh user hmem) hle, h.same, h.phone, h.password⟩

/-! ### Updates of the other rows -/

theorem RowsOk.withUsers (h : RowsOk P s) (hu : UsersOk P users nextId)
    (hk : Keeps s.users users) : RowsOk P { s with users := users, nextId := nextId } :=
  ⟨hu, fun challenge hmem => ⟨(h.challenges challenge hmem).1, fun hne =>
      ((h.challenges challenge hmem).2 hne).keeps hk⟩,
    fun token hmem => (h.resetTokens token hmem).imp_left (·.keeps hk),
    fun account hmem hfirst => (h.socialAccounts account hmem hfirst).keeps hk⟩

theorem RowsOk.withChallenges (h : RowsOk P s) {challenges : List OtpChallenge}
    (hc : ∀ challenge ∈ challenges, ∃ old ∈ s.challenges, challenge.channel = old.channel ∧
      challenge.userId = old.userId ∧
      challenge.normalizedDestination = old.normalizedDestination) :
    RowsOk P { s with challenges := challenges } := by
  refine ⟨h.users, fun challenge hmem => ?_, h.resetTokens, h.socialAccounts⟩
  obtain ⟨old, hold, hchannel, huser, hdestination⟩ := hc challenge hmem
  obtain ⟨he, ho⟩ := h.challenges old hold
  rw [hchannel, huser, hdestination]
  exact ⟨he, ho⟩

theorem RowsOk.updateChallenges (h : RowsOk P s) {cond : OtpChallenge → Bool}
    {data : OtpChallenge → OtpChallenge}
    (hdata : ∀ challenge, (data challenge).channel = challenge.channel ∧
      (data challenge).userId = challenge.userId ∧
      (data challenge).normalizedDestination = challenge.normalizedDestination) :
    RowsOk P { s with challenges := updateWhere s.challenges cond data } := by
  refine h.withChallenges fun challenge hmem => ?_
  rcases updateWhere_cases hmem with hmem | ⟨old, hold, -, rfl⟩
  · exact ⟨challenge, hmem, rfl, rfl, rfl⟩
  · exact ⟨old, hold, hdata old⟩

theorem RowsOk.addChallenge (h : RowsOk P s) (draws : Draws) {userId : ℕ} {destination : String}
    (purpose : OtpPurpose) (hother : destination ≠ P.email → Other P s.users userId) :
    RowsOk P (s.addChallenge draws userId destination .email purpose) := by
  refine ⟨h.users.mono (Nat.le_succ _), fun challenge hmem => ?_, h.resetTokens,
    h.socialAccounts⟩
  rcases List.mem_cons.mp hmem with rfl | hmem
  · exact ⟨rfl, hother⟩
  · exact h.challenges challenge hmem

theorem RowsOk.addSocialAccount (h : RowsOk P s) (account : SocialAccount)
    (ho : P.accountOwner account.provider account.providerAccountId = .first →
      Other P s.users account.userId) :
    RowsOk P { s with socialAccounts := account :: s.socialAccounts } := by
  refine ⟨h.users, h.challenges, h.resetTokens, fun account' hmem => ?_⟩
  rcases List.mem_cons.mp hmem with rfl | hmem
  · exact ho
  · exact h.socialAccounts account' hmem

theorem rowsOk_init : RowsOk P {} := by
  refine ⟨⟨fun _ h => ?_, fun _ h => ?_, fun _ h => ?_, fun _ h => ?_⟩, fun _ h => ?_, fun _ h => ?_,
    fun _ h => ?_⟩
  all_goals cases h

/-! ### What holds of a call -/

variable (P) in
/-- What a call of the first principal has found is of users with another email. -/
def FirstPoint (users : List User) : AccountPc → Prop
  | .findLogin _ password => P.knows password = true
  | .verifyToken provider idToken _ => OwnToken P .first provider idToken
  | .findLinked identity _ | .findByEmail identity _ | .createLinked identity _ =>
    OwnIdentity P .first identity
  | .activateExisting identity _ userId => OwnIdentity P .first identity ∧ Other P users userId
  | .readOtpUser challenge | .commitOtp challenge _ | .issueReset challenge =>
    Other P users challenge.userId
  | .findResetToken resetToken _ => P.knows resetToken = true
  | .commitReset reset _ => Other P users reset.userId
  | .touchLinked _ userId | .createSession userId | .returned (.tokenPair userId _) =>
    Other P users userId
  | _ => True

variable (P) in
/-- The second principal uses its own provider accounts and passwords. -/
def SecondPoint : AccountPc → Prop
  | .verifyToken provider idToken _ => OwnToken P .second provider idToken
  | .findLinked identity _ | .findByEmail identity _ | .createLinked identity _
  | .activateExisting identity _ _ => OwnIdentity P .second identity
  | .findResetToken _ newPassword | .commitReset _ newPassword => P.knows newPassword = false
  | _ => True

variable (P) in
/-- What a call of any principal has found. -/
def AnyPoint (users : List User) : AccountPc → Prop
  | .findRecipient _ channel purpose | .findOtp _ channel purpose _ =>
    purpose ∈ otpPurposes channel
  | .findRecentOtp destination channel _ userId | .createOtp destination channel _ userId =>
    channel = .email ∧ (destination ≠ P.email → Other P users userId)
  | .readOtpUser challenge | .commitOtp challenge _ =>
    challenge.purpose = .login ∨ challenge.purpose = .verifyEmail
  | .findRecentReset email userId | .createReset email userId =>
    email ≠ P.email → Other P users userId
  | _ => True

variable (P) in
structure CallOk (s : AccountState) (call : AccountCall) : Prop where
  first : call.caller = .first → FirstPoint P s.users call.pc
  second : call.caller = .second → SecondPoint P call.pc
  any : AnyPoint P s.users call.pc
  draws : call.caller = .second → P.knows call.draws.resetToken = false

theorem FirstPoint.keeps {pc : AccountPc} (h : FirstPoint P users pc) (hk : Keeps users users') :
    FirstPoint P users' pc := by
  cases pc with
  | activateExisting identity displayName userId => exact ⟨h.1, h.2.keeps hk⟩
  | readOtpUser challenge => exact Other.keeps h hk
  | commitOtp challenge status => exact Other.keeps h hk
  | issueReset challenge => exact Other.keeps h hk
  | commitReset reset newPassword => exact Other.keeps h hk
  | touchLinked identity userId => exact Other.keeps h hk
  | createSession userId => exact Other.keeps h hk
  | returned result =>
    cases result with
    | tokenPair userId token => exact Other.keeps h hk
    | _ => trivial
  | _ => exact h

theorem AnyPoint.keeps {pc : AccountPc} (h : AnyPoint P users pc) (hk : Keeps users users') :
    AnyPoint P users' pc := by
  cases pc with
  | findRecentOtp destination channel purpose userId =>
    exact ⟨h.1, fun hne => (h.2 hne).keeps hk⟩
  | createOtp destination channel purpose userId => exact ⟨h.1, fun hne => (h.2 hne).keeps hk⟩
  | findRecentReset email userId => exact fun hne => Other.keeps (h hne) hk
  | createReset email userId => exact fun hne => Other.keeps (h hne) hk
  | _ => exact h

theorem CallOk.keeps {call : AccountCall} (h : CallOk P s call) (hk : Keeps s.users s'.users) :
    CallOk P s' call :=
  ⟨fun hf => (h.first hf).keeps hk, h.second, h.any.keeps hk, h.draws⟩

/-! ### Steps -/

variable {caller : Principal} {draws : Draws} {pc pc' : AccountPc} {pick : ℕ}
  {identity : SocialIdentity} {displayName : Option String} {challenge : OtpChallenge}

variable (P) in
/-- The rows and the call are in order after a step. -/
structure StepOk (s : AccountState) (caller : Principal) (draws : Draws) (s' : AccountState)
    (pc' : AccountPc) : Prop where
  rows : RowsOk P s'
  keeps : Keeps s.users s'.users
  first : caller = .first → FirstPoint P s'.users pc'
  second : caller = .second → SecondPoint P pc'
  any : AnyPoint P s'.users pc'

/-- A step that ends the call, or leads to a program point of which nothing is said. -/
theorem StepOk.plain (hr : RowsOk P s') (hk : Keeps s.users s'.users)
    (hp : FirstPoint P s'.users pc' ∧ SecondPoint P pc' ∧ AnyPoint P s'.users pc') :
    StepOk P s caller draws s' pc' :=
  ⟨hr, hk, fun _ => hp.1, fun _ => hp.2.1, hp.2.2⟩

theorem StepOk.read (hr : RowsOk P s) (hf : caller = .first → FirstPoint P s.users pc')
    (hs : caller = .second → SecondPoint P pc') (ha : AnyPoint P s.users pc') :
    StepOk P s caller draws s pc' :=
  ⟨hr, .refl _, hf, hs, ha⟩

theorem stepOk_thrown (hr : RowsOk P s) (e : Thrown) : StepOk P s caller draws s (.thrown e) :=
  .plain hr (.refl _) ⟨trivial, trivial, trivial⟩

theorem stepOk_throws (hr : RowsOk P s) {e : Thrown} (h : (s, AccountPc.thrown e) = (s', pc')) :
    StepOk P s caller draws s' pc' := by
  obtain ⟨rfl, rfl⟩ := Prod.mk.inj h
  exact stepOk_thrown hr e

theorem other_of_mem {user : User} (hmem : user ∈ users) (hne : user.email ≠ some P.email) :
    Other P users user.id := ⟨user, hmem, rfl, hne⟩

theorem userByEmail_mem {email : String} {user : User} (h : s.userByEmail email = some user) :
    user ∈ s.users ∧ user.email = some email ∧ user.live = true :=
  ⟨List.mem_of_find?_eq_some h,
    of_decide_eq_true (List.find?_some (p := fun user : User =>
      decide (user.email = some email ∧ user.live = true)) h)⟩

theorem createUser_ok (hr : RowsOk P s) {email password : String}
    (h : createUser s draws email password displayName = (s', pc')) :
    StepOk P s caller draws s' pc' := by
  unfold createUser at h
  split_ifs at h
  · exact stepOk_throws hr h
  · obtain ⟨rfl, rfl⟩ := Prod.mk.inj h
    -- the new user is pending
    have hu := hr.users.add
      { id := s.nextId
        email := some email
        passwordHash := some (hashSecret draws.salt password)
        displayName := displayName
        status := .pending } rfl rfl fun _ hne => absurd rfl hne
    have hadd := (hr.withUsers hu (keeps_add _)).addChallenge draws .verifyEmail fun hne =>
      ⟨_, List.mem_cons_self .., rfl, fun he => hne (some.inj he)⟩
    exact .plain hadd (keeps_add _) ⟨trivial, trivial, trivial⟩

theorem checkPassword_ok (hr : RowsOk P s) {email password : String}
    (hknows : caller = .first → P.knows password = true) :
    StepOk P s caller draws s (checkPassword cfg (s.userByEmail email) password) := by
  unfold checkPassword
  simp only []
  split
  · exact .plain hr (.refl _) ⟨trivial, trivial, trivial⟩
  next user huser =>
  split_ifs with hrefused
  · exact .plain hr (.refl _) ⟨trivial, trivial, trivial⟩
  obtain ⟨hmem, -, -⟩ := userByEmail_mem huser
  refine .read hr (fun hfirst => other_of_mem hmem fun hemail => hrefused ?_) (fun _ => trivial)
    trivial
  -- the password of the account is not one that the first principal has
  have hpassword := hknows hfirst
  rw [huser]
  by_cases hstatus : user.status = .active
  · refine .inl ?_
    have hhash := hr.users.password user hmem hemail (by rw [hstatus]; exact nofun)
    cases hp : user.passwordHash with
    | none =>
      have hne : cfg.dummyPassword ≠ password := by
        rintro rfl
        rw [P.dummy] at hpassword
        cases hpassword
      simp [hp, hashSecret, verifySecret, hne]
    | some hash =>
      have hne : hash.value ≠ password := by
        rintro rfl
        rw [hhash hash hp] at hpassword
        cases hpassword
      simp [hp, verifySecret, hne]
  · exact .inr (.inl hstatus)

theorem OwnIdentity.of (h : OwnIdentity P caller identity) {caller' : Principal}
    (hc : caller = caller') : OwnIdentity P caller' identity := hc ▸ h

theorem findLinked_ok (hr : RowsOk P s) (hown : OwnIdentity P caller identity)
    (h : findLinked s pick identity displayName = some pc') : StepOk P s caller draws s pc' := by
  obtain ⟨found, hfound, rfl⟩ := map_eq_some_iff.mp h
  split
  · exact .read hr (fun hf => hown.of hf) (fun hs => hown.of hs) trivial
  next linked =>
  obtain ⟨hmem, hcond⟩ := List.mem_filter.mp (mem_of_pickFirst hfound)
  obtain ⟨hprovider, haccount, -⟩ := of_decide_eq_true hcond
  split
  · exact .plain hr (.refl _) ⟨trivial, trivial, trivial⟩
  split_ifs
  · exact .plain hr (.refl _) ⟨trivial, trivial, trivial⟩
  · refine .read hr (fun hf => ?_) (fun _ => trivial) trivial
    refine hr.socialAccounts linked hmem ?_
    rw [hprovider, haccount, hown.1, hf]

theorem touchLinked_ok (hr : RowsOk P s) (ho : caller = .first → Other P s.users userId) :
    StepOk P s caller draws (touchLinked s identity userId) (.createSession userId) := by
  refine ⟨⟨hr.users, hr.challenges, hr.resetTokens, fun account hmem => ?_⟩, .refl _, ho,
    fun _ => trivial, trivial⟩
  rcases updateWhere_cases hmem with hmem | ⟨old, hold, -, rfl⟩
  · exact hr.socialAccounts account hmem
  · exact hr.socialAccounts old hold

theorem findByEmail_ok (hr : RowsOk P s) (hown : OwnIdentity P caller identity) :
    StepOk P s caller draws s (findByEmail s identity displayName) := by
  unfold findByEmail
  split
  · exact .read hr (fun hf => hown.of hf) (fun hs => hown.of hs) trivial
  next existing hexisting =>
  split_ifs
  · exact .plain hr (.refl _) ⟨trivial, trivial, trivial⟩
  obtain ⟨email, hemail, hfound⟩ := Option.bind_eq_some_iff.mp hexisting
  obtain ⟨hmem, hof, -⟩ := userByEmail_mem hfound
  refine .read hr (fun hf => ⟨hown.of hf, other_of_mem hmem fun he => ?_⟩)
    (fun hs => hown.of hs) trivial
  exact hown.2 hf (by rw [hemail, ← hof, he])

theorem activateExisting_ok (hr : RowsOk P s) (hown : OwnIdentity P caller identity)
    (ho : caller = .first → Other P s.users userId)
    (hclean : s.linkTaken identity = false → ∀ user ∈ s.users, user.id = userId →
      ClearPassword P user)
    (h : activateExisting s identity displayName userId = (s', pc')) :
    StepOk P s caller draws s' pc' := by
  unfold activateExisting at h
  split_ifs at h with hmissing htaken
  · exact stepOk_throws hr h
  · exact stepOk_throws hr h
  · obtain ⟨rfl, rfl⟩ := Prod.mk.inj h
    have hdata : ∀ user, (User.activated s.now identity displayName user).id = user.id ∧
        (User.activated s.now identity displayName user).email = user.email :=
      fun _ => ⟨rfl, rfl⟩
    have hk : Keeps s.users (updateWhere s.users (fun user => user.id = userId ∧ user.live)
        (User.activated s.now identity displayName)) := keeps_update hdata
    have hu := hr.users.update (fun user => user.id = userId ∧ user.live) hdata
      hr.users.phone fun user hmem hcond hemail _ => by
        by_cases hstatus : user.status = .pending
        · exact hclean (Bool.eq_false_iff.mpr htaken) user hmem (of_decide_eq_true hcond).1 hemail
            hstatus
        · exact hr.users.password user hmem hemail hstatus
    refine ⟨(hr.withUsers hu hk).addSocialAccount (identity.account userId) fun hfirst => ?_, hk,
      fun hf => (ho hf).keeps hk, fun _ => trivial, trivial⟩
    exact (ho (hown.1.symm.trans hfirst)).keeps hk

theorem createLinked_ok (hr : RowsOk P s) (hown : OwnIdentity P caller identity)
    (h : createLinked s identity displayName = (s', pc')) : StepOk P s caller draws s' pc' := by
  unfold createLinked at h
  split at h
  · exact stepOk_throws hr h
  split at h
  · exact stepOk_throws hr h
  · obtain ⟨rfl, rfl⟩ := Prod.mk.inj h
    -- the new user has no password
    have hu := hr.users.add
      { id := s.nextId
        email := identity.email
        displayName := displayName <|> identity.displayName
        status := .active
        emailVerifiedAt := if identity.emailVerified then some s.now else none } rfl rfl
      nofun
    have hother : caller = .first → Other P
        ({ id := s.nextId
           email := identity.email
           displayName := displayName <|> identity.displayName
           status := .active
           emailVerifiedAt := if identity.emailVerified then some s.now else none } :: s.users)
        s.nextId := fun hf => ⟨_, List.mem_cons_self .., rfl, hown.2 hf⟩
    have hrows := (hr.withUsers hu (keeps_add _)).addSocialAccount (identity.account s.nextId)
      fun hfirst => hother (hown.1.symm.trans hfirst)
    exact ⟨hrows, keeps_add _, hother, fun _ => trivial, trivial⟩

theorem findRecipient_ok (hr : RowsOk P s) {destination : String} {channel : OtpChannel}
    {purpose : OtpPurpose}
    (h : findRecipient s pick destination channel purpose = some pc') :
    StepOk P s caller draws s pc' := by
  obtain ⟨found, hfound, rfl⟩ := map_eq_some_iff.mp h
  split
  · exact .plain hr (.refl _) ⟨trivial, trivial, trivial⟩
  next user =>
  obtain ⟨hmem, hcond⟩ := List.mem_filter.mp (mem_of_pickFirst hfound)
  obtain ⟨haddress, -, -⟩ := of_decide_eq_true hcond
  refine .read hr (fun _ => trivial) (fun _ => trivial) ?_
  cases channel with
  | email =>
    refine ⟨rfl, fun hne => other_of_mem hmem fun he => hne ?_⟩
    exact some.inj ((of_decide_eq_true haddress).symm.trans he)
  | sms =>
    -- no user has a phone number
    have hphone := (of_decide_eq_true haddress).symm.trans (hr.users.phone user hmem)
    cases hphone

theorem checkCode_cases (s : AccountState) (challenge : OtpChallenge) (code : String)
    (next : AccountPc) :
    checkCode s challenge code next = .returned .null ∨
      checkCode s challenge code next = .recordInvalid challenge.id ∨
      (verifySecret challenge.codeHash code = true ∧ checkCode s challenge code next = next) := by
  unfold checkCode
  split_ifs with hexpired hvalid
  · exact .inl rfl
  · exact .inr (.inr ⟨hvalid, rfl⟩)
  · exact .inr (.inl rfl)

/-- The challenge that a call of the first principal passes is of a user with another email. -/
theorem other_of_code (hr : RowsOk P s) {code : String} (hmem : challenge ∈ s.challenges)
    (hown : ∀ challenge ∈ s.challenges, challenge.normalizedDestination = P.email →
      verifySecret challenge.codeHash code = false)
    (hvalid : verifySecret challenge.codeHash code = true) : Other P s.users challenge.userId := by
  refine (hr.challenges challenge hmem).2 fun he => ?_
  rw [hown challenge hmem he] at hvalid
  cases hvalid

theorem mem_of_findNewest {challenges : List OtpChallenge} {cond : OtpChallenge → Bool}
    (h : findNewest challenges cond pick = some (some challenge)) :
    challenge ∈ challenges ∧ cond challenge = true :=
  List.mem_filter.mp (List.mem_filter.mp (mem_of_pickFirst h)).1

theorem findOtp_ok (hr : RowsOk P s) {destination code : String} {channel : OtpChannel}
    {purpose : OtpPurpose} (hpurpose : purpose ∈ otpPurposes channel)
    (hown : caller = .first → ∀ challenge ∈ s.challenges,
      challenge.normalizedDestination = P.email → verifySecret challenge.codeHash code = false)
    (h : findOtp s pick destination channel purpose code = some pc') :
    StepOk P s caller draws s pc' := by
  obtain ⟨found, hfound, rfl⟩ := map_eq_some_iff.mp h
  split
  · exact .plain hr (.refl _) ⟨trivial, trivial, trivial⟩
  next challenge =>
  obtain ⟨hmem, hcond⟩ := mem_of_findNewest hfound
  obtain ⟨-, hchannel, hpurpose', -⟩ := of_decide_eq_true hcond
  split
  · exact .plain hr (.refl _) ⟨trivial, trivial, trivial⟩
  rcases checkCode_cases s challenge code (.readOtpUser challenge) with he | he | ⟨hvalid, he⟩ <;>
    rw [he]
  · exact .plain hr (.refl _) ⟨trivial, trivial, trivial⟩
  · exact .plain hr (.refl _) ⟨trivial, trivial, trivial⟩
  · refine .read hr (fun hf => other_of_code hr hmem (hown hf) hvalid) (fun _ => trivial) ?_
    have hemail := (hr.challenges challenge hmem).1
    rw [← hchannel, hemail, ← hpurpose'] at hpurpose
    simpa [otpPurposes, AnyPoint] using hpurpose

theorem consumeOtp_ok (hr : RowsOk P s) (challengeId : ℕ) : RowsOk P (consumeOtp s challengeId) :=
  hr.updateChallenges fun _ => ⟨rfl, rfl, rfl⟩

theorem commitOtp_ok (hr : RowsOk P s) {status : Option SessionModel.UserStatus}
    (ho : caller = .first → Other P s.users challenge.userId)
    (hpurpose : challenge.purpose = .login ∨ challenge.purpose = .verifyEmail)
    (hclean : ∀ userId ∈ activates s (.commitOtp challenge status), ∀ user ∈ s.users,
      user.id = userId → ClearPassword P user)
    (h : commitOtp s challenge status = (s', pc')) : StepOk P s caller draws s' pc' := by
  unfold commitOtp at h
  split at h
  · exact stepOk_throws hr h
  next hunused =>
  split at h
  · obtain ⟨rfl, rfl⟩ := Prod.mk.inj h
    exact .plain (consumeOtp_ok hr _) (.refl _) ⟨trivial, trivial, trivial⟩
  next status =>
  split at h
  · obtain ⟨rfl, rfl⟩ := Prod.mk.inj h
    exact ⟨consumeOtp_ok hr _, .refl _, ho, fun _ => trivial, trivial⟩
  next hlogin =>
  split at h
  · obtain ⟨rfl, rfl⟩ := Prod.mk.inj h
    exact .plain (consumeOtp_ok hr _) (.refl _) ⟨trivial, trivial, trivial⟩
  next hblocked =>
  have hemail : challenge.purpose = .verifyEmail := hpurpose.resolve_left hlogin
  simp only [] at h
  split at h
  · exact stepOk_throws hr h
  obtain ⟨rfl, rfl⟩ := Prod.mk.inj h
  have hdata : ∀ user,
      (User.verified s.now challenge (verificationTransition status) user).id = user.id ∧
      (User.verified s.now challenge (verificationTransition status) user).email = user.email :=
    fun _ => ⟨rfl, rfl⟩
  have hphone : ∀ user ∈ s.users,
      (User.verified s.now challenge (verificationTransition status) user).phone = none := by
    intro user hmem
    simp only [User.verified, hemail, if_true]
    exact hr.users.phone user hmem
  have hu := hr.users.update (fun user => user.id = challenge.userId ∧
    user.status = status ∧ user.live) hdata hphone fun user hmem hcond he hstatus => by
      obtain ⟨hid, hstatus', -⟩ := of_decide_eq_true hcond
      by_cases hpending : status = .pending
      · subst hpending
        refine hclean challenge.userId ?_ user hmem hid he hstatus'
        simp only [activates]
        rw [if_pos ⟨hlogin, by simpa using hunused⟩]
        rfl
      · exact hr.users.password user hmem he (hstatus'.trans_ne hpending)
  have hrows := (consumeOtp_ok hr challenge.id).withUsers (s := consumeOtp s challenge.id) hu
    (keeps_update hdata)
  refine .plain hrows (keeps_update hdata) ?_
  split_ifs <;> exact ⟨trivial, trivial, trivial⟩

theorem findReset_ok (hr : RowsOk P s) {email otp : String}
    (hown : caller = .first → ∀ challenge ∈ s.challenges,
      challenge.normalizedDestination = P.email → verifySecret challenge.codeHash otp = false)
    (h : findReset s pick email otp = some pc') : StepOk P s caller draws s pc' := by
  obtain ⟨found, hfound, rfl⟩ := map_eq_some_iff.mp h
  split
  · exact .plain hr (.refl _) ⟨trivial, trivial, trivial⟩
  next challenge =>
  obtain ⟨hmem, -⟩ := mem_of_findNewest hfound
  split
  · exact .plain hr (.refl _) ⟨trivial, trivial, trivial⟩
  split_ifs
  · exact .plain hr (.refl _) ⟨trivial, trivial, trivial⟩
  rcases checkCode_cases s challenge otp (.issueReset challenge) with he | he | ⟨hvalid, he⟩ <;>
    rw [he]
  · exact .plain hr (.refl _) ⟨trivial, trivial, trivial⟩
  · exact .plain hr (.refl _) ⟨trivial, trivial, trivial⟩
  · exact .read hr (fun hf => other_of_code hr hmem (hown hf) hvalid) (fun _ => trivial) trivial

theorem issueReset_ok (hr : RowsOk P s) (ho : caller = .first → Other P s.users challenge.userId)
    (hdraws : caller = .second → P.knows draws.resetToken = false)
    (h : issueReset cfg s draws challenge = (s', pc')) : StepOk P s caller draws s' pc' := by
  unfold issueReset at h
  simp only [] at h
  split at h
  · obtain ⟨rfl, rfl⟩ := Prod.mk.inj h
    exact .plain hr (.refl _) ⟨trivial, trivial, trivial⟩
  split at h
  · exact stepOk_throws hr h
  obtain ⟨rfl, rfl⟩ := Prod.mk.inj h
  refine .plain ⟨hr.users.mono (Nat.le_succ _), fun c hmem => ?_, fun token hmem => ?_,
    hr.socialAccounts⟩ (.refl _) ⟨trivial, trivial, trivial⟩
  · rcases updateWhere_cases hmem with hmem | ⟨old, hold, -, rfl⟩
    · exact hr.challenges c hmem
    · exact hr.challenges old hold
  rcases List.mem_cons.mp hmem with rfl | hmem
  · cases caller with
    | first => exact .inl (ho rfl)
    | second => exact .inr ⟨draws.resetToken, rfl, hdraws rfl⟩
  · rcases updateWhere_cases hmem with hmem | ⟨old, hold, -, rfl⟩
    · exact hr.resetTokens token hmem
    · exact hr.resetTokens old hold

theorem findResetToken_ok (hR : CollisionFree cfg.R cfg.K) (hr : RowsOk P s)
    {resetToken newPassword : String} (hknows : caller = .first → P.knows resetToken = true)
    (hpassword : caller = .second → P.knows newPassword = false)
    (h : findResetToken cfg s pick resetToken newPassword = some pc') :
    StepOk P s caller draws s pc' := by
  obtain ⟨found, hfound, rfl⟩ := map_eq_some_iff.mp h
  split
  · exact .plain hr (.refl _) ⟨trivial, trivial, trivial⟩
  next reset =>
  obtain ⟨hmem, hcond⟩ := List.mem_filter.mp (mem_of_pickFirst hfound)
  obtain ⟨hhash, -⟩ := of_decide_eq_true hcond
  split
  · exact .plain hr (.refl _) ⟨trivial, trivial, trivial⟩
  split_ifs
  · exact .plain hr (.refl _) ⟨trivial, trivial, trivial⟩
  refine .read hr (fun hf => ?_) hpassword trivial
  rcases hr.resetTokens reset hmem with hother | ⟨text, htext, hsecret⟩
  · exact hother
  · -- the token of the first principal is not one of the second
    rw [htext] at hhash
    have he := hR text resetToken (MetadataHash.v1.inj (eq_hashMetadata_of_mem cfg.R cfg.K hhash)).2
    rw [he, hknows hf] at hsecret
    cases hsecret

theorem commitReset_ok (hr : RowsOk P s) {reset : PasswordResetToken} {newPassword : String}
    (ho : caller = .first → Other P s.users reset.userId)
    (hpassword : caller = .second → P.knows newPassword = false)
    (h : commitReset s draws reset newPassword = (s', pc')) : StepOk P s caller draws s' pc' := by
  unfold commitReset at h
  simp only [] at h
  split at h
  · obtain ⟨rfl, rfl⟩ := Prod.mk.inj h
    exact .plain hr (.refl _) ⟨trivial, trivial, trivial⟩
  split at h
  · exact stepOk_throws hr h
  split at h
  · exact stepOk_throws hr h
  obtain ⟨rfl, rfl⟩ := Prod.mk.inj h
  have hdata : ∀ user : User,
      ({ user with passwordHash := some (hashSecret draws.salt newPassword) } : User).id = user.id ∧
      ({ user with passwordHash := some (hashSecret draws.salt newPassword) } : User).email =
        user.email := fun _ => ⟨rfl, rfl⟩
  have hu := hr.users.update
    (fun user => user.id = reset.userId ∧ user.status = .active ∧ user.live) hdata
    hr.users.phone fun user hmem hcond hemail _ hash hhash => by
      obtain ⟨hid, -⟩ := of_decide_eq_true hcond
      obtain rfl := some.inj hhash
      cases caller with
      | first => exact absurd hemail ((ho rfl).email hr.users hmem hid)
      | second => exact hpassword rfl
  have hrows := hr.withUsers hu (keeps_update hdata)
  refine .plain ⟨hu, fun c hmem => ?_, fun token hmem => ?_, hrows.socialAccounts⟩
    (keeps_update hdata) ⟨trivial, trivial, trivial⟩
  · rcases updateWhere_cases hmem with hmem | ⟨old, hold, -, rfl⟩
    · exact hrows.challenges c hmem
    · exact hrows.challenges old hold
  · rcases updateWhere_cases hmem with hmem | ⟨old, hold, -, rfl⟩
    · exact hrows.resetTokens token hmem
    · split_ifs
      · exact hrows.resetTokens old hold
      · exact hrows.resetTokens old hold

theorem createSession_ok (hr : RowsOk P s) (ho : caller = .first → Other P s.users userId)
    (h : createSession cfg s draws userId = (s', pc')) : StepOk P s caller draws s' pc' := by
  unfold createSession at h
  simp only [] at h
  split at h
  · exact stepOk_throws hr h
  obtain ⟨rfl, rfl⟩ := Prod.mk.inj h
  have hdata : ∀ user : User, ({ user with lastLoginAt := some s.now } : User).id = user.id ∧
      ({ user with lastLoginAt := some s.now } : User).email = user.email := fun _ => ⟨rfl, rfl⟩
  have hk : Keeps s.users (updateWhere s.users (fun user => user.id = userId ∧ user.live)
      fun user => { user with lastLoginAt := some s.now }) := keeps_update hdata
  have hu := hr.users.update (fun user => user.id = userId ∧ user.live) hdata hr.users.phone
    fun user hmem _ hemail hstatus => hr.users.password user hmem hemail hstatus
  have hrows := hr.withUsers (hu.mono (Nat.le_succ _)) hk
  exact ⟨⟨hrows.users, hrows.challenges, hrows.resetTokens, hrows.socialAccounts⟩, hk,
    fun hf => (ho hf).keeps hk, fun _ => trivial, trivial⟩

/-- **A step of a call** keeps the rows and the call in order. -/
theorem effect_ok (hR : CollisionFree cfg.R cfg.K) {call : AccountCall} (hr : RowsOk P s)
    (hc : CallOk P s call) (hown : OwnCode P s call)
    (hclean : ∀ userId ∈ activates s call.pc, ∀ user ∈ s.users, user.id = userId →
      ClearPassword P user)
    (h : effect cfg s pick call.draws call.pc = some (s', pc')) :
    StepOk P s call.caller call.draws s' pc' := by
  obtain ⟨caller, draws, pc⟩ := call
  obtain ⟨hfirst, hsecond, hany, hdraws⟩ := hc
  simp only [] at hfirst hsecond hany hdraws hclean h ⊢
  have hidentity : ∀ {identity : SocialIdentity}, (caller = .first → OwnIdentity P .first identity) →
      (caller = .second → OwnIdentity P .second identity) → OwnIdentity P caller identity := by
    intro identity hf hs
    cases caller with
    | first => exact hf rfl
    | second => exact hs rfl
  have hended : ∀ {pc : AccountPc}, FirstPoint P s.users pc ∧ SecondPoint P pc ∧
      AnyPoint P s.users pc → StepOk P s caller draws s pc :=
    fun hp => .plain hr (.refl _) hp
  cases pc with
  | findSignup email password displayName =>
    simp only [effect] at h
    split at h <;> obtain ⟨rfl, rfl⟩ := pair_inj h
    all_goals exact hended ⟨trivial, trivial, trivial⟩
  | createUser email password displayName => exact createUser_ok hr (some.inj h)
  | findLogin email password =>
    obtain ⟨rfl, rfl⟩ := pair_inj h
    exact checkPassword_ok hr hfirst
  | verifyToken provider idToken displayName =>
    simp only [effect] at h
    split at h <;> obtain ⟨rfl, rfl⟩ := pair_inj h
    · exact stepOk_thrown hr _
    · next identity he =>
      have hmem : identity ∈ (verifySocialIdentity cfg provider idToken).toOption := by
        rw [he]
        rfl
      exact .read hr (fun hf => hfirst hf identity hmem) (fun hs => hsecond hs identity hmem) trivial
  | findLinked identity displayName =>
    obtain ⟨pc, hpc, he⟩ := map_eq_some_iff.mp h
    obtain ⟨rfl, rfl⟩ := Prod.mk.inj he
    exact findLinked_ok hr (hidentity hfirst hsecond) hpc
  | touchLinked identity userId =>
    obtain ⟨rfl, rfl⟩ := pair_inj h
    exact touchLinked_ok hr hfirst
  | findByEmail identity displayName =>
    obtain ⟨rfl, rfl⟩ := pair_inj h
    exact findByEmail_ok hr (hidentity hfirst hsecond)
  | activateExisting identity displayName userId =>
    refine activateExisting_ok hr (hidentity (fun hf => (hfirst hf).1) hsecond)
      (fun hf => (hfirst hf).2) (fun hfree user hmem hid => hclean userId ?_ user hmem hid)
      (some.inj h)
    simp [activates, hfree]
  | createLinked identity displayName =>
    exact createLinked_ok hr (hidentity hfirst hsecond) (some.inj h)
  | findRecipient destination channel purpose =>
    obtain ⟨pc, hpc, he⟩ := map_eq_some_iff.mp h
    obtain ⟨rfl, rfl⟩ := Prod.mk.inj he
    exact findRecipient_ok hr hpc
  | findRecentOtp destination channel purpose userId =>
    simp only [effect] at h
    split at h <;> obtain ⟨rfl, rfl⟩ := pair_inj h
    · exact hended ⟨trivial, trivial, trivial⟩
    · exact hended ⟨trivial, trivial, hany⟩
  | createOtp destination channel purpose userId =>
    obtain ⟨rfl, rfl⟩ := pair_inj h
    obtain ⟨rfl, hother⟩ := hany
    exact .plain (hr.addChallenge draws purpose hother) (.refl _) ⟨trivial, trivial, trivial⟩
  | findOtp destination channel purpose code =>
    obtain ⟨pc, hpc, he⟩ := map_eq_some_iff.mp h
    obtain ⟨rfl, rfl⟩ := Prod.mk.inj he
    exact findOtp_ok hr hany (fun hf => hown hf code rfl) hpc
  | readOtpUser challenge =>
    obtain ⟨rfl, rfl⟩ := pair_inj h
    exact .read hr hfirst (fun _ => trivial) hany
  | commitOtp challenge status =>
    exact commitOtp_ok hr hfirst hany hclean (some.inj h)
  | recordInvalid challengeId =>
    obtain ⟨rfl, rfl⟩ := pair_inj h
    exact .plain (hr.updateChallenges fun _ => ⟨rfl, rfl, rfl⟩) (.refl _)
      ⟨trivial, trivial, trivial⟩
  | findResetUser email =>
    simp only [effect] at h
    split at h <;> obtain ⟨rfl, rfl⟩ := pair_inj h
    · exact hended ⟨trivial, trivial, trivial⟩
    · next user huser =>
      have hemail : user.email = some email := (of_decide_eq_true (List.find?_some
        (p := fun user : User => decide (user.email = some email ∧ user.status = .active ∧
          user.live = true)) huser)).1
      refine hended ⟨trivial, trivial, fun hne => other_of_mem (List.mem_of_find?_eq_some huser)
        fun he => hne ?_⟩
      exact some.inj (hemail.symm.trans he)
  | findRecentReset email userId =>
    simp only [effect] at h
    split at h <;> obtain ⟨rfl, rfl⟩ := pair_inj h
    · exact hended ⟨trivial, trivial, trivial⟩
    · exact hended ⟨trivial, trivial, hany⟩
  | createReset email userId =>
    obtain ⟨rfl, rfl⟩ := pair_inj h
    exact .plain (hr.addChallenge draws _ hany) (.refl _) ⟨trivial, trivial, trivial⟩
  | findReset email otp =>
    obtain ⟨pc, hpc, he⟩ := map_eq_some_iff.mp h
    obtain ⟨rfl, rfl⟩ := Prod.mk.inj he
    exact findReset_ok hr (fun hf => hown hf otp rfl) hpc
  | issueReset challenge => exact issueReset_ok hr hfirst hdraws (some.inj h)
  | findResetToken resetToken newPassword =>
    obtain ⟨pc, hpc, he⟩ := map_eq_some_iff.mp h
    obtain ⟨rfl, rfl⟩ := Prod.mk.inj he
    exact findResetToken_ok hR hr hfirst hsecond hpc
  | commitReset reset newPassword => exact commitReset_ok hr hfirst hsecond (some.inj h)
  | createSession userId => exact createSession_ok hr hfirst (some.inj h)
  | returned result => cases h
  | thrown e => cases h

/-! ### All runs -/

variable (P) in
def assertions : Assertions AccountState AccountCall where
  shared s := RowsOk P s
  proc _ call s := CallOk P s call

theorem callOk_start {a : AccountSpawn} (hown : OwnRequest P a) (hvalid : a.request.valid = true) :
    CallOk P s ⟨a.caller, a.draws, startPc cfg.R a.request⟩ := by
  obtain ⟨caller, request, draws⟩ := a
  obtain ⟨hsecrets, htoken⟩ := hown
  refine ⟨fun hf => ?_, fun hs => ?_, ?_, fun hs => ?_⟩
  · obtain rfl : caller = .first := hf
    cases request with
    | loginWithPassword email password => exact hsecrets
    | loginWithSocial provider idToken displayName => exact htoken
    | confirmPasswordReset resetToken newPassword => exact hsecrets
    | _ => trivial
  · obtain rfl : caller = .second := hs
    cases request with
    | loginWithSocial provider idToken displayName => exact htoken
    | confirmPasswordReset resetToken newPassword => exact hsecrets.1
    | _ => trivial
  · cases request with
    | sendOtp destination channel purpose =>
      have hpurpose : purpose ∈ otpPurposes channel := of_decide_eq_true hvalid
      exact hpurpose
    | verifyOtp destination channel purpose code =>
      have hpurpose : purpose ∈ otpPurposes channel := of_decide_eq_true hvalid
      exact hpurpose
    | _ => trivial
  · obtain rfl : caller = .second := hs
    cases request with
    | signupWithPassword email password displayName => exact hsecrets.2
    | confirmPasswordReset resetToken newPassword => exact hsecrets.2
    | _ => exact hsecrets

theorem step_ok (hR : CollisionFree cfg.R cfg.K) {call call' : AccountCall} {c : AccountChoice}
    (hr : RowsOk P s) (hc : CallOk P s call) (hown : OwnCode P s call)
    (hclean : ∀ userId ∈ activates s call.pc, ∀ user ∈ s.users, user.id = userId →
      ClearPassword P user)
    (h : call.step cfg s c = some (s', call')) :
    RowsOk P s' ∧ Keeps s.users s'.users ∧ CallOk P s' call' := by
  obtain ⟨⟨s₁, pc₁⟩, heffect, he⟩ := map_eq_some_iff.mp h
  rcases hrun : c.outcome.run s s₁ pc₁ .thrown with ⟨t, q⟩
  simp only [hrun] at he
  obtain ⟨rfl, rfl⟩ := Prod.mk.inj he
  have hok := effect_ok hR hr hc hown hclean heffect
  have hthrown : ∀ {t : AccountState} (e : Thrown), CallOk P t { call with pc := .thrown e } :=
    fun e => ⟨fun _ => trivial, fun _ => trivial, trivial, hc.draws⟩
  rcases Outcome.run_cases hrun with ⟨-, rfl, rfl⟩ | ⟨e, -, rfl, rfl⟩ | ⟨e, -, rfl, rfl⟩
  · exact ⟨hok.rows, hok.keeps, hok.first, hok.second, hok.any, hc.draws⟩
  · exact ⟨hr, .refl _, hthrown e⟩
  · exact ⟨hok.rows, hok.keeps, hthrown e⟩

theorem outline (P : Principals cfg) (hR : CollisionFree cfg.R cfg.K) :
    Outline (accounts cfg) (fun w l => Separated P w l ∧ CleanActivation P w l) (assertions P) where
  init := rowsOk_init
  env w e s hw _ he := by
    cases e
    obtain rfl := some.inj he
    exact ⟨⟨hw.shared.users, hw.shared.challenges, hw.shared.resetTokens, hw.shared.socialAccounts⟩,
      fun j q hq => (hw.proc j q hq).keeps (.refl _)⟩
  spawn w a s p hw hg hs := by
    simp only [accounts] at hs
    split_ifs at hs with hvalid
    obtain ⟨rfl, rfl⟩ := pair_inj hs
    exact ⟨hw.shared, callOk_start hg.1 hvalid, fun j q hq => ⟨hw.proc j q hq, trivial, trivial⟩⟩
  step w i p c s p' hw hp hg hs := by
    obtain ⟨hrows, -, hcall⟩ := step_ok hR hw.shared (hw.proc i p hp) (hg.1 p hp) (hg.2 p hp) hs
    exact ⟨hrows, hcall⟩
  frame w i p c s p' hw hp hg hs j q hj hq := by
    obtain ⟨-, hk, -⟩ := step_ok hR hw.shared (hw.proc i p hp) (hg.1 p hp) (hg.2 p hp) hs
    exact ⟨(hw.proc j q hq).keeps hk, trivial, trivial⟩

/-- **Password provenance.** If no step activates the account while it has a password of the first
principal, the first principal never obtains a session of the account. -/
theorem password_provenance (cfg : AccountConfig) (P : Principals cfg)
    (hR : CollisionFree cfg.R cfg.K) (w : AccountWorld)
    (h : ReachableBy (accounts cfg).system (fun w l => Separated P w l ∧ CleanActivation P w l) w) :
    NoSession P w := by
  have hw := (outline P hR).holds h
  intro i call userId token hcall hfirst hpc user hmem hid
  have hpoint := (hw.proc i call hcall).first hfirst
  rw [hpc] at hpoint
  exact Other.email hpoint hw.shared.users hmem hid

/-! ### A deployment -/

/-- A provider whose tokens are the account ids of verified emails. -/
def exampleAccounts : AccountConfig where
  R := exampleRuntime
  K := exampleKeyring
  clientId _ := some "app"
  jwtVerify _ _ idToken := some fun key =>
    if key = "sub" then .text idToken
    else if key = "email" then .text "owner@example.com"
    else if key = "email_verified" then .bool true
    else .absent
  refreshTokenTtlDays := 30
  passwordResetTokenTtlMinutes := 15
  dummyPassword := "dummy"

def examplePrincipals : Principals exampleAccounts where
  email := "owner@example.com"
  knows text := text = "first-password"
  accountOwner _ _ := .second
  dummy := by decide

/-- Each principal signs up with its password, the second one first. -/
def exampleSignups : List AccountLabel :=
  .spawn ⟨.second, .signupWithPassword "owner@example.com" "second-password" none, { code := "1" }⟩ ::
    List.replicate 2 (.step 0 {}) ++
  .spawn ⟨.first, .signupWithPassword "owner@example.com" "first-password" none, { code := "2" }⟩ ::
    .step 1 {} ::
  .spawn ⟨.second, .verifyOtp "owner@example.com" .email .verifyEmail "1", {}⟩ ::
    List.replicate 3 (.step 2 {}) ++
  [.spawn ⟨.first, .loginWithPassword "owner@example.com" "first-password", {}⟩, .step 3 {}]

theorem password_provenance_signups : ∃ w,
    (∃ user ∈ w.shared.users, user.email = some "owner@example.com" ∧ user.status = .active) ∧
    (∃ call ∈ w.proc? 3, call.pc = .returned .null) ∧ NoSession examplePrincipals w := by
  obtain ⟨w, h, huser, hcall⟩ := (accounts exampleAccounts).exists_reached
    (fun w l => Separated examplePrincipals w l ∧ CleanActivation examplePrincipals w l)
    exampleSignups
    (fun w => (∃ user ∈ w.shared.users, user.email = some "owner@example.com" ∧
        user.status = .active) ∧ ∃ call ∈ w.proc? 3, call.pc = .returned .null) (by decide)
  exact ⟨w, huser, hcall, password_provenance _ _ exampleRuntime_collisionFree w h⟩

/-- The first principal signs up, the second one signs in with its provider account, and the
password of the first is a credential. -/
def exampleHijack : List AccountLabel :=
  .spawn ⟨.first, .signupWithPassword "owner@example.com" "first-password" none, { code := "1" }⟩ ::
    List.replicate 2 (.step 0 {}) ++
  .spawn ⟨.second, .loginWithSocial .google "account" none, {}⟩ :: List.replicate 5 (.step 1 {}) ++
  .spawn ⟨.first, .loginWithPassword "owner@example.com" "first-password", {}⟩ ::
    List.replicate 2 (.step 2 {})

theorem first_signs_in : ∃ w,
    ReachableBy (accounts exampleAccounts).system (Separated examplePrincipals) w ∧
      ¬ NoSession examplePrincipals w := by
  obtain ⟨w, h, ⟨call, hcall, hfirst, hpc⟩, user, hmem, hid, hemail⟩ :=
    (accounts exampleAccounts).exists_reached (Separated examplePrincipals) exampleHijack
      (fun w => (∃ call ∈ w.proc? 2, call.caller = .first ∧
          call.pc = .returned (.tokenPair 0 "")) ∧
        ∃ user ∈ w.shared.users, user.id = 0 ∧ user.email = some "owner@example.com") (by decide)
  exact ⟨w, h, fun hno => hno 2 call 0 "" hcall hfirst hpc user hmem hid hemail⟩

end BackendFoundation.Auth.Provenance
