import BackendFoundation.Chat.Gateway

/-! # The transport of a credential and its CSRF token

`lib/auth-transport.ts` and `middleware/csrf.ts`. A request is exempt from the CSRF check if it has
a bearer token or calls itself mobile. The tokens are resolved by other rules: a mobile request
without a bearer token falls back to the access cookie, and a request with a bearer token that does
not call itself mobile still refreshes from its cookie. Those two kinds of request use a cookie
without the check (`cookieAuthImpliesCsrf_iff`).

The names of the cookies depend on `COOKIE_SECURE`. -/

namespace BackendFoundation.Http.Csrf

open Errors
open Lib.UuidText (Text)
open Chat.Gateway (getBearerToken)

/-! ### Requests -/

/-- A value in a parsed record: a string, or anything else. -/
inductive Field
  | text (value : Text)
  | other
deriving DecidableEq

/-- Cookies, or a body, once parsed. -/
abbrev Record := List (Text × Field)

/-- `typeof record?.[name] === 'string' ? record?.[name] : undefined`. -/
def textOf (record : Option Record) (name : Text) : Option Text :=
  match record.bind fun entries => entries.lookup name with
  | some (.text value) => some value
  | _ => none

structure Request where
  method : Text
  path : Text
  authorization : Option Text := none
  /-- The header `x-client-type`. -/
  clientType : Option Text := none
  /-- The header `x-csrf-token`. -/
  csrfToken : Option Text := none
  cookies : Option Record := none
  /-- `cookie-parser` puts `false` in place of a cookie whose signature is wrong. -/
  signedCookies : Option Record := none
  body : Option Record := none

structure CookieNames where
  access : Text
  refresh : Text
  csrf : Text

def cookieNames (secure : Bool) : CookieNames where
  access := (if secure then "__Host-access_token" else "access_token").toList
  refresh := (if secure then "__Host-refresh_token" else "refresh_token").toList
  csrf := (if secure then "__Host-csrf_token" else "csrf_token").toList

/-! ### The transport -/

def isMobileClient (request : Request) : Bool :=
  request.clientType.any fun value => value.map Char.toLower = "mobile".toList

/-- `getBearerToken` reads one header. -/
def bearerToken (request : Request) : Option Text :=
  getBearerToken { authorization := request.authorization }

section Transport

variable (secure : Bool)

/-- Bearer header first, cookie fallback. -/
def resolveAccessToken (request : Request) : Option Text :=
  match bearerToken request with
  | some bearer => some bearer
  | none => textOf request.cookies (cookieNames secure).access

/-- Mobile JSON body, cookie fallback. -/
def resolveRefreshToken (request : Request) : Option Text :=
  if isMobileClient request then textOf request.body "refreshToken".toList
  else textOf request.cookies (cookieNames secure).refresh

def usesCookieAuth (request : Request) : Bool :=
  (bearerToken request).isNone && !isMobileClient request

/-! ### The check -/

def unsafeMethods : List Text := ["POST".toList, "PUT".toList, "PATCH".toList, "DELETE".toList]

def stripeWebhookPath : Text := "/api/v1/webhooks/stripe".toList

def invalidCsrf : AppError := ⟨403, .invalidCsrfToken, "Invalid CSRF token"⟩

/-- The bytes of the two texts are compared, once they are as many. -/
def constantTimeEqual (left right : Text) : Bool :=
  let leftBuffer := (String.ofList left).toUTF8
  let rightBuffer := (String.ofList right).toUTF8
  if leftBuffer.size ≠ rightBuffer.size then false else leftBuffer.data = rightBuffer.data

def csrfProtection (request : Request) : Except AppError Unit :=
  if !unsafeMethods.contains request.method then .ok ()
  else if request.path = stripeWebhookPath then .ok ()
  else if !usesCookieAuth request then .ok ()
  else
    match textOf request.signedCookies (cookieNames secure).csrf, request.csrfToken with
    | some cookie, some header =>
      if header = [] || !constantTimeEqual cookie header then .error invalidCsrf else .ok ()
    | _, _ => .error invalidCsrf

/-! ### What the check is for -/

/-- The request is unsafe and outside the webhook of Stripe. -/
def Guarded (request : Request) : Prop :=
  request.method ∈ unsafeMethods ∧ request.path ≠ stripeWebhookPath

def Request.withoutCookies (request : Request) : Request :=
  { request with cookies := none, signedCookies := none }

/-- A token is resolved, and without the cookies none is. -/
def FromCookie (resolve : Request → Option Text) (request : Request) : Prop :=
  (resolve request).isSome ∧ resolve request.withoutCookies = none

/-- The signed cookie and the header are present and equal. -/
def CsrfMatched (request : Request) : Prop :=
  ∃ token, textOf request.signedCookies (cookieNames secure).csrf = some token ∧
    request.csrfToken = some token

/-- If the request passes the check and a cookie authenticates it, its CSRF tokens match. -/
def CookieAuthImpliesCsrf (request : Request) : Prop :=
  Guarded request → csrfProtection secure request = .ok () →
    FromCookie (resolveAccessToken secure) request ∨
      FromCookie (resolveRefreshToken secure) request →
    CsrfMatched secure request

/-- A mobile request without a bearer token that has an access cookie. -/
def MobileWithAccessCookie (request : Request) : Prop :=
  isMobileClient request ∧ bearerToken request = none ∧
    (textOf request.cookies (cookieNames secure).access).isSome

/-- A request with a bearer token that is not mobile and has a refresh cookie. -/
def BearerWithRefreshCookie (request : Request) : Prop :=
  (bearerToken request).isSome ∧ isMobileClient request = false ∧
    (textOf request.cookies (cookieNames secure).refresh).isSome

end Transport

/-! ### What each function does -/

variable {secure : Bool} {request : Request}

theorem constantTimeEqual_iff {left right : Text} :
    constantTimeEqual left right = true ↔ left = right := by
  simp only [constantTimeEqual]
  constructor
  · intro h
    split_ifs at h
    have hbytes := of_decide_eq_true h
    exact String.ofList_injective (String.toByteArray_inj.mp (ByteArray.ext hbytes))
  · rintro rfl
    simp

theorem bearerToken_withoutCookies : bearerToken request.withoutCookies = bearerToken request := rfl

theorem textOf_none {name : Text} : textOf none name = none := rfl

theorem fromCookie_access_iff : FromCookie (resolveAccessToken secure) request ↔
    bearerToken request = none ∧
      (textOf request.cookies (cookieNames secure).access).isSome := by
  unfold FromCookie resolveAccessToken
  rw [bearerToken_withoutCookies]
  rcases bearerToken request with _ | bearer
  · simp [Request.withoutCookies, textOf_none]
  · simp

/-- The refresh token is resolved from a cookie if the request is not mobile. -/
theorem fromCookie_refresh_iff : FromCookie (resolveRefreshToken secure) request ↔
    isMobileClient request = false ∧
      (textOf request.cookies (cookieNames secure).refresh).isSome := by
  have hmobile : isMobileClient request.withoutCookies = isMobileClient request := rfl
  have hbody : request.withoutCookies.body = request.body := rfl
  unfold FromCookie resolveRefreshToken
  rw [hmobile, hbody]
  rcases hclient : isMobileClient request with _ | _
  · simp [Request.withoutCookies, textOf_none]
  · simp only [if_true]
    refine ⟨fun h => ?_, fun h => absurd h.1 Bool.true_eq_false.mp⟩
    rw [h.2] at h
    exact absurd h.1 Bool.false_ne_true

theorem csrfProtection_ok_iff (h : Guarded request) : csrfProtection secure request = .ok () ↔
    usesCookieAuth request = false ∨
      ∃ token, textOf request.signedCookies (cookieNames secure).csrf = some token ∧
        request.csrfToken = some token ∧ token ≠ [] := by
  have hmethod : unsafeMethods.contains request.method = true := List.contains_iff_mem.mpr h.1
  unfold csrfProtection
  rw [hmethod, if_neg (by decide), if_neg h.2]
  rcases huses : usesCookieAuth request with _ | _
  · simp
  rcases hcookie : textOf request.signedCookies (cookieNames secure).csrf with _ | cookie
  · simp
  rcases hheader : request.csrfToken with _ | header
  · simp
  simp only [Bool.not_true, Bool.false_eq_true, if_false]
  constructor
  · intro hok
    split_ifs at hok with hbad
    rw [Bool.or_eq_true, not_or] at hbad
    have hequal : cookie = header := by
      rw [← constantTimeEqual_iff]
      simpa using hbad.2
    exact .inr ⟨cookie, rfl, by rw [hequal], by simpa [hequal] using hbad.1⟩
  · rintro (hfalse | ⟨token, hc, hh, hne⟩)
    · cases hfalse
    · obtain rfl := Option.some.inj hc
      obtain rfl := Option.some.inj hh
      have hequal := constantTimeEqual_iff.mpr (rfl : header = header)
      simp [hne, hequal]

/-! ### When the check protects a cookie -/

/-- A request that is exempt while a cookie gives it a token is of one of two kinds. -/
theorem exempt_fromCookie_iff :
    usesCookieAuth request = false ∧ (FromCookie (resolveAccessToken secure) request ∨
        FromCookie (resolveRefreshToken secure) request) ↔
      MobileWithAccessCookie secure request ∨ BearerWithRefreshCookie secure request := by
  rw [fromCookie_access_iff, fromCookie_refresh_iff]
  unfold usesCookieAuth MobileWithAccessCookie BearerWithRefreshCookie
  rcases bearerToken request with _ | bearer
  · rcases isMobileClient request with _ | _ <;> simp
  · rcases isMobileClient request with _ | _ <;> simp

/-- **A cookie authenticates a guarded request only with the CSRF tokens, unless the request is
mobile without a bearer token or refreshes by cookie beside one.** -/
theorem cookieAuthImpliesCsrf_iff (secure : Bool) (request : Request) :
    CookieAuthImpliesCsrf secure request ↔
      (Guarded request →
        (¬ MobileWithAccessCookie secure request ∧ ¬ BearerWithRefreshCookie secure request) ∨
          CsrfMatched secure request) := by
  unfold CookieAuthImpliesCsrf
  refine forall_congr' fun hguarded => ?_
  rw [csrfProtection_ok_iff hguarded]
  constructor
  · intro h
    by_cases hkinds : MobileWithAccessCookie secure request ∨ BearerWithRefreshCookie secure request
    · obtain ⟨hexempt, hcookie⟩ := exempt_fromCookie_iff.mpr hkinds
      exact .inr (h (.inl hexempt) hcookie)
    · exact .inl (not_or.mp hkinds)
  · rintro (hkinds | hmatched) hpass hcookie
    · rcases hpass with hexempt | ⟨token, hsigned, hheader, -⟩
      · exact absurd (exempt_fromCookie_iff.mp ⟨hexempt, hcookie⟩) (not_or.mpr hkinds)
      · exact ⟨token, hsigned, hheader⟩
    · exact hmatched

/-- A request to delete the account that calls itself mobile, with the cookie of a browser. -/
def mobileRequest : Request where
  method := "DELETE".toList
  path := "/api/v1/auth/account".toList
  clientType := some "mobile".toList
  cookies := some [("access_token".toList, .text "jwt".toList)]

/-- A request to refresh with any bearer token, with the cookie of a browser. -/
def bearerRequest : Request where
  method := "POST".toList
  path := "/api/v1/auth/refresh".toList
  authorization := some "Bearer x".toList
  cookies := some [("refresh_token".toList, .text "opaque".toList)]

/-- Both requests pass without a CSRF token, and a cookie gives each its token. -/
theorem exists_cookieAuth_without_csrf :
    ¬ CookieAuthImpliesCsrf false mobileRequest ∧ ¬ CookieAuthImpliesCsrf false bearerRequest := by
  constructor
  · intro h
    have haccess : FromCookie (resolveAccessToken false) mobileRequest :=
      fromCookie_access_iff.mpr (by decide)
    obtain ⟨token, hsigned, -⟩ := h ⟨by decide, by decide⟩ (by decide) (.inl haccess)
    cases hsigned
  · intro h
    have hrefresh : FromCookie (resolveRefreshToken false) bearerRequest :=
      fromCookie_refresh_iff.mpr (by decide)
    obtain ⟨token, hsigned, -⟩ := h ⟨by decide, by decide⟩ (by decide) (.inr hrefresh)
    cases hsigned

/-! ### Authentication -/

end BackendFoundation.Http.Csrf
