import BackendFoundation.Http.ClientIp
import BackendFoundation.Http.RateLimit
import BackendFoundation.Lib.Calls
import BackendFoundation.Lib.FixedWindow
import BackendFoundation.Lib.Interleave

/-! # Rate limits

`enforceRateLimit` of `rate-limit.ts` and `enforceAuthBackstops` of `auth.abuse.ts`. A request counts
in several buckets at once. Each count is one run of `incrementScript`, which Redis executes as a whole;
the caller may see an error where it has run. The counter of a key ends with its time to live.

The hash of a value is a parameter, `executed` a record of the runs that nothing reads. Left out are
the logs, the metrics and the alerts. -/

namespace BackendFoundation.Http.Limits

open Errors Lib Lib.Interleave
open Lib.FixedWindow (Counter Ticket take ticket)
open Http.RateLimit
open Http.ClientIp (Text clientIpKey)

/-! ### Buckets -/

inductive RedisFailureMode
  /-- `'local'`: the node counts on its own. -/
  | fallback
  | deny
deriving DecidableEq

structure Bucket where
  scope : Text
  value : Text
  limit : ℕ
  windowSeconds : ℕ
  redisFailureMode : RedisFailureMode := .fallback
  window_pos : 0 < windowSeconds
deriving DecidableEq

variable (hashMetadata : Text → Text)

def rateKey (bucket : Bucket) : Text :=
  "rate:".toList ++ bucket.scope ++ ':' :: hashMetadata bucket.value

def Bucket.windowMs (bucket : Bucket) : ℕ := bucket.windowSeconds * 1000

/-! ### The counters of Redis -/

/-- A run of the script, for the call `call` of a request. -/
structure Executed where
  key : Text
  ticket : Ticket
  request : ℕ
  call : ℕ
deriving DecidableEq

structure LimitState where
  /-- The clock of Redis, in milliseconds. -/
  now : ℕ := 0
  redis : Table Text Counter := Table.empty
  executed : List Executed := []
  /-- The counters of the nodes. -/
  fallbacks : ℕ → BoundedRateLimitFallback

/-- `INCR`, and `EXPIRE` of a counter that it has created. -/
def incremented (s : LimitState) (key : Text) (windowMs : ℕ) : Counter :=
  take windowMs s.now (s.redis key)

/-- `TTL`, which rounds to seconds. -/
def ttl (s : LimitState) (counter : Counter) : ℕ := (counter.endsAt - s.now + 500) / 1000

/-- `incrementScript`. -/
def incrementScript (s : LimitState) (key : Text) (windowMs request call : ℕ) : LimitState :=
  let counter := incremented s key windowMs
  { s with
    redis := s.redis.set key counter
    executed := s.executed ++ [⟨key, ticket s.now counter, request, call⟩] }

/-! ### Calls -/

structure RateLimitResult where
  count : ℕ
  limit : ℕ
  retryAfterSeconds : ℚ
deriving DecidableEq

inductive Rejection
  | serviceUnavailable
  | rateLimited (retryAfterSeconds : ℚ)
deriving DecidableEq

/-- The error that is thrown, and its `retryAfterSeconds`. -/
def Rejection.error : Rejection → AppError × Option ℚ
  | .serviceUnavailable =>
    (Errors.serviceUnavailable "Request protection is temporarily unavailable; try again", none)
  | .rateLimited retryAfterSeconds =>
    (⟨429, .rateLimited, "Too many requests; try again later"⟩, some (max 1 retryAfterSeconds))

inductive CallPc
  | eval
  | answered (count ttl : ℕ)
  /-- Redis has answered with an error, or not at all. -/
  | failed
  | passed (result : RateLimitResult)
  | thrown (rejection : Rejection)
deriving DecidableEq

/-- A call of `enforceRateLimit`. -/
structure BucketCall where
  bucket : Bucket
  pc : CallPc := .eval
deriving DecidableEq

/-- A counted call passes up to its limit. -/
def settle (count limit : ℕ) (retryAfterSeconds : ℚ) : CallPc :=
  if limit < count then .thrown (.rateLimited retryAfterSeconds)
  else .passed ⟨count, limit, retryAfterSeconds⟩

def LimitState.setFallback (s : LimitState) (node : ℕ) (f : BoundedRateLimitFallback) : LimitState :=
  { s with fallbacks := fun n => if n = node then f else s.fallbacks n }

/-- What the surroundings choose: the call that goes on, how Redis answers, and the clock of the
node. -/
structure LimitChoice where
  call : ℕ
  outcome : Outcome Unit := .ok
  clock : ℚ := 0

def callStep (s : LimitState) (i node : ℕ) (call : BucketCall) (c : LimitChoice) :
    Option (LimitState × CallPc) :=
  let key := rateKey hashMetadata call.bucket
  match call.pc with
  | .eval =>
    let t := incrementScript s key call.bucket.windowMs i c.call
    let counter := incremented s key call.bucket.windowMs
    some (c.outcome.run s t (.answered counter.count (ttl s counter)) fun _ => .failed)
  | .answered count ttl =>
    let retryAfterSeconds := if 0 < ttl then ttl else call.bucket.windowSeconds
    some (s.setFallback node (RateLimit.delete (String.ofList key) (s.fallbacks node)),
      settle count call.bucket.limit retryAfterSeconds)
  | .failed =>
    match call.bucket.redisFailureMode with
    | .deny => some (s, .thrown .serviceUnavailable)
    | .fallback =>
      let counted := increment (String.ofList key) call.bucket.windowSeconds c.clock (s.fallbacks node)
      some (s.setFallback node counted.2,
        settle counted.1.count call.bucket.limit counted.1.retryAfterSeconds)
  | .passed _ | .thrown _ => none

/-! ### Requests -/

/-- The calls that a request makes beside each other. -/
structure Request where
  node : ℕ
  calls : List BucketCall
deriving DecidableEq

/-- The promise of all calls is fulfilled. -/
def Request.Passed (request : Request) : Prop :=
  ∀ call ∈ request.calls, ∃ result, call.pc = .passed result

def requestStep (s : LimitState) (i : ℕ) (request : Request) (c : LimitChoice) :
    Option (LimitState × Request) :=
  match request.calls[c.call]? with
  | none => none
  | some call =>
    (callStep hashMetadata s i request.node call c).map fun r =>
      (r.1, { request with calls := request.calls.set c.call { call with pc := r.2 } })

/-! ### The backstops of the authentication -/

inductive PublicAuthEndpoint
  | signup | login | otpSend | otpVerify | passwordResetRequest | passwordResetVerify
  | passwordResetConfirm
deriving DecidableEq

def PublicAuthEndpoint.name : PublicAuthEndpoint → Text
  | .signup => "signup".toList
  | .login => "login".toList
  | .otpSend => "otp-send".toList
  | .otpVerify => "otp-verify".toList
  | .passwordResetRequest => "password-reset-request".toList
  | .passwordResetVerify => "password-reset-verify".toList
  | .passwordResetConfirm => "password-reset-confirm".toList

structure Policy where
  ipLimit : ℕ
  globalLimit : ℕ
  window : ℕ
  window_pos : 0 < window

def policy : PublicAuthEndpoint → Policy
  | .signup => ⟨100, 20000, 60 * 60, by decide⟩
  | .login => ⟨300, 100000, 15 * 60, by decide⟩
  | .otpSend => ⟨300, 20000, 10 * 60, by decide⟩
  | .otpVerify => ⟨600, 50000, 10 * 60, by decide⟩
  | .passwordResetRequest => ⟨100, 20000, 60 * 60, by decide⟩
  | .passwordResetVerify => ⟨300, 50000, 10 * 60, by decide⟩
  | .passwordResetConfirm => ⟨100, 20000, 10 * 60, by decide⟩

inductive Provider
  | email | sms
deriving DecidableEq

def Provider.name : Provider → Text
  | .email => "email".toList
  | .sms => "sms".toList

def ipBucket (endpoint : PublicAuthEndpoint) (ip : Option Text) : Bucket where
  scope := "auth:".toList ++ endpoint.name ++ ":ip".toList
  value := clientIpKey ip
  limit := (policy endpoint).ipLimit
  windowSeconds := (policy endpoint).window
  redisFailureMode := .deny
  window_pos := (policy endpoint).window_pos

def globalBucket (endpoint : PublicAuthEndpoint) : Bucket where
  scope := "auth:".toList ++ endpoint.name ++ ":global".toList
  value := "all".toList
  limit := (policy endpoint).globalLimit
  windowSeconds := (policy endpoint).window
  redisFailureMode := .deny
  window_pos := (policy endpoint).window_pos

def providerBucket (provider : Provider) : Bucket where
  scope := "provider-spend:".toList ++ provider.name
  value := "all".toList
  limit := 10000
  windowSeconds := 60 * 60
  redisFailureMode := .deny
  window_pos := by decide

/-- The calls of `enforceAuthBackstops`. -/
def enforceAuthBackstops (endpoint : PublicAuthEndpoint) (ip : Option Text)
    (provider : Option Provider) : List Bucket :=
  [ipBucket endpoint ip, globalBucket endpoint] ++ (provider.map providerBucket).toList

/-! ### The system -/

inductive LimitStart
  | authBackstops (node : ℕ) (endpoint : PublicAuthEndpoint) (ip : Option Text)
    (provider : Option Provider)
  /-- Another caller of `enforceRateLimit`. -/
  | buckets (node : ℕ) (list : List Bucket)

def LimitStart.node : LimitStart → ℕ
  | .authBackstops node _ _ _ | .buckets node _ => node

def LimitStart.list : LimitStart → List Bucket
  | .authBackstops _ endpoint ip provider => enforceAuthBackstops endpoint ip provider
  | .buckets _ list => list

inductive LimitEvent
  | tick (ms : ℕ)
  /-- Redis loses a key, by an eviction or a failover. -/
  | lose (key : Text)

def limitEvent (s : LimitState) : LimitEvent → Option LimitState
  | .tick ms => some { s with now := s.now + ms }
  | .lose key => some { s with redis := s.redis.erase key }

/-- **The rate limits**, any requests beside each other on any nodes. -/
def limits (fallback : BoundedRateLimitFallback) :
    Program LimitState Request LimitStart LimitChoice LimitEvent where
  init := { fallbacks := fun _ => fallback }
  spawn s _ a := some (s, ⟨a.node, a.list.map fun bucket => { bucket }⟩)
  step := requestStep hashMetadata
  env := limitEvent

abbrev LimitWorld := World LimitState Request

abbrev LimitLabel := Label LimitStart LimitChoice LimitEvent

end BackendFoundation.Http.Limits
