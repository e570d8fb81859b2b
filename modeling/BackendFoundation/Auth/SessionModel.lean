import BackendFoundation.Crypto
import BackendFoundation.Lib.Database
import BackendFoundation.Lib.Interleave

/-! # Sessions and refresh tokens

`auth.sessions.service.ts`: `createSession`, `rotateRefreshToken`, `revokeSession` and
`revokeAllSessions`. Each call is one transaction, a statement or a row of a statement a step;
`rotateRefreshToken` is serializable, the others are read-committed. A call draws its ids and its
random token when it starts, and takes its dates from the clock of its process. -/

namespace BackendFoundation.Auth.SessionModel

open Lib.Database Lib.Interleave Errors Crypto

/-! ### Rows -/

inductive UserStatus
  | pending | active | suspended | disabled
deriving DecidableEq

structure User where
  status : UserStatus
  deletedAt : Option ℕ := none
  lastLoginAt : Option ℕ := none
deriving DecidableEq

structure Session where
  userId : ℕ
  expiresAt : ℕ
  revokedAt : Option ℕ := none
  revokeReason : Option String := none
  lastSeenAt : ℕ
  /-- Counts the writes to the row. -/
  version : ℕ := 0
deriving DecidableEq

structure RefreshToken where
  userId : ℕ
  sessionId : ℕ
  tokenHash : MetadataHash
  expiresAt : ℕ
  consumedAt : Option ℕ := none
  replacedByTokenId : Option ℕ := none
  revokedAt : Option ℕ := none
  version : ℕ := 0
deriving DecidableEq

inductive Key
  | user (id : ℕ)
  | session (id : ℕ)
  | token (id : ℕ)
deriving DecidableEq

abbrev Row : Key → Type
  | .user _ => User
  | .session _ => Session
  | .token _ => RefreshToken

instance (k : Key) : DecidableEq (Row k) := by
  cases k <;> infer_instance

def whereSession (p : ℕ → Session → Bool) : ∀ k, Row k → Bool
  | .session id, row => p id row
  | .user _, _ => false
  | .token _, _ => false

def whereToken (p : ℕ → RefreshToken → Bool) : ∀ k, Row k → Bool
  | .token id, row => p id row
  | .user _, _ => false
  | .session _, _ => false

def whereUser (userId : ℕ) : ∀ k, Row k → Bool
  | .user id, row => id = userId ∧ row.deletedAt = none
  | .session _, _ => false
  | .token _, _ => false

def setSession (f : Session → Session) : ∀ k, Row k → Option (Row k)
  | .session _, row => some (f row)
  | .user _, row => some row
  | .token _, row => some row

def setToken (f : RefreshToken → RefreshToken) : ∀ k, Row k → Option (Row k)
  | .token _, row => some (f row)
  | .user _, row => some row
  | .session _, row => some row

def setUser (f : User → User) : ∀ k, Row k → Option (Row k)
  | .user _, row => some (f row)
  | .session _, row => some row
  | .token _, row => some row

def Session.revoked (revokedAt : ℕ) (revokeReason : String) (session : Session) : Session :=
  { session with
    revokedAt := some revokedAt
    revokeReason := some revokeReason
    version := session.version + 1 }

def Session.seen (lastSeenAt : ℕ) (session : Session) : Session :=
  { session with lastSeenAt := lastSeenAt, version := session.version + 1 }

def RefreshToken.revoked (revokedAt : ℕ) (token : RefreshToken) : RefreshToken :=
  { token with revokedAt := some revokedAt, version := token.version + 1 }

def RefreshToken.consumed (consumedAt next : ℕ) (token : RefreshToken) : RefreshToken :=
  { token with
    consumedAt := some consumedAt
    replacedByTokenId := some next
    version := token.version + 1 }

/-! ### Calls -/

structure AuthConfig where
  refreshTokenTtlDays : ℕ

inductive AuthRequest
  | createSession (userId sessionId tokenId : ℕ) (refreshToken : String)
  | rotateRefreshToken (rawToken : String) (nextId : ℕ) (nextRawToken : String)
  | revokeSession (sessionId userId : ℕ)
  | revokeAllSessions (userId : ℕ)
deriving DecidableEq

/-- A refresh token with its session and user. -/
structure CurrentToken where
  id : ℕ
  token : RefreshToken
  session : Session
  user : User
deriving DecidableEq

/-- The status that the transaction of a rotation returns. -/
inductive RotateStatus
  | invalid
  | reuse (current : CurrentToken)
  | rotated (current : CurrentToken)
deriving DecidableEq

inductive AuthResult
  | tokenPair (userId sessionId : ℕ) (refreshToken : String)
  | null
  | void
deriving DecidableEq

inductive AuthPc
  /-- `createSession`. -/
  | insertSession
  | insertToken
  | touchUser
  | commitCreate
  /-- `rotateRefreshToken`, up to what it finds. -/
  | findToken
  | reuseSession (current : CurrentToken)
  | reuseTokens (current : CurrentToken)
  | insertNext (current : CurrentToken)
  | consume (current : CurrentToken)
  | raceSession (current : CurrentToken)
  | raceTokens (current : CurrentToken)
  | touchSession (current : CurrentToken)
  | commitRotate (status : RotateStatus)
  /-- `revokeSession` and `revokeAllSessions`. -/
  | revokeSessions (revokedAt : ℕ)
  | revokeTokens (revokedAt : ℕ)
  | commitRevoke
  | returned (result : AuthResult)
  | thrown (error : Thrown)
deriving DecidableEq

structure AuthCall where
  request : AuthRequest
  startedAt : ℕ
  pc : AuthPc
  tx : Tx Row

structure AuthState where
  now : ℕ := 0
  db : Db Row := {}

structure AuthChoice where
  /-- The token that `findFirst` picks. -/
  pick : ℕ := 0
  /-- The statement fails. -/
  fails : Bool := false
  /-- The reply to the commit is lost. -/
  lost : Bool := false
deriving DecidableEq

section Calls

variable (cfg : AuthConfig) (R : Runtime) (K : Keyring)

def expiresIn (days startedAt : ℕ) : ℕ := startedAt + days * 24 * 60 * 60 * 1000

/-- The refresh token of a request, by its raw text. -/
def CurrentToken.unusable (current : CurrentToken) (now : ℕ) : Prop :=
  current.token.consumedAt ≠ none ∨ current.token.replacedByTokenId ≠ none ∨
    current.token.revokedAt ≠ none ∨ current.token.expiresAt ≤ now ∨
    current.session.revokedAt ≠ none ∨ current.session.expiresAt ≤ now ∨
    current.user.status ≠ .active ∨ current.user.deletedAt ≠ none

instance (current : CurrentToken) (now : ℕ) : Decidable (current.unusable now) := by
  unfold CurrentToken.unusable
  infer_instance

/-- The tokens of a raw text, with their sessions and users. -/
def findTokens (rows : Rows Row) (keys : List Key) (hashes : List MetadataHash) :
    List CurrentToken :=
  keys.filterMap fun k =>
    match k with
    | .token id =>
      match rows (.token id) with
      | none => none
      | some token =>
        if token.tokenHash ∈ hashes then
          match rows (.session token.sessionId), rows (.user token.userId) with
          | some session, some user => some ⟨id, token, session, user⟩
          | _, _ => none
        else none
    | _ => none

/-- The statement that a call executes next. -/
def AuthCall.stmt (call : AuthCall) : Option (Stmt Row) :=
  match call.request, call.pc with
  | .createSession userId sessionId _ _, .insertSession =>
    some (.insert (.session sessionId)
      ({ userId := userId
         expiresAt := expiresIn cfg.refreshTokenTtlDays call.startedAt
         lastSeenAt := call.startedAt } : Session))
  | .createSession userId sessionId tokenId refreshToken, .insertToken =>
    some (.insert (.token tokenId)
      ({ userId := userId
         sessionId := sessionId
         tokenHash := hashOpaqueToken R K refreshToken
         expiresAt := expiresIn cfg.refreshTokenTtlDays call.startedAt } : RefreshToken))
  | .createSession userId _ _ _, .touchUser =>
    some (.update (whereUser userId)
      (setUser fun user => { user with lastLoginAt := some call.startedAt }))
  | .createSession .., .commitCreate => some .commit
  | .rotateRefreshToken .., .findToken => some .read
  | .rotateRefreshToken .., .reuseSession current =>
    some (.update
      (whereSession fun id row => id = current.token.sessionId ∧ row.revokedAt = none)
      (setSession (·.revoked call.startedAt "refresh_token_reuse")))
  | .rotateRefreshToken .., .reuseTokens current | .rotateRefreshToken .., .raceTokens current =>
    some (.update
      (whereToken fun _ row => row.sessionId = current.token.sessionId ∧ row.revokedAt = none)
      (setToken (·.revoked call.startedAt)))
  | .rotateRefreshToken _ nextId nextRawToken, .insertNext current =>
    some (.insert (.token nextId)
      ({ userId := current.token.userId
         sessionId := current.token.sessionId
         tokenHash := hashOpaqueToken R K nextRawToken
         expiresAt := current.session.expiresAt } : RefreshToken))
  | .rotateRefreshToken _ nextId _, .consume current =>
    some (.update
      (whereToken fun id row => id = current.id ∧ row.consumedAt = none ∧ row.revokedAt = none ∧
        row.replacedByTokenId = none)
      (setToken (·.consumed call.startedAt nextId)))
  | .rotateRefreshToken .., .raceSession current =>
    some (.update (whereSession fun id _ => id = current.token.sessionId)
      (setSession (·.revoked call.startedAt "refresh_token_race")))
  | .rotateRefreshToken .., .touchSession current =>
    some (.update (whereSession fun id _ => id = current.token.sessionId)
      (setSession (·.seen call.startedAt)))
  | .rotateRefreshToken .., .commitRotate _ => some .commit
  | .revokeSession sessionId userId, .revokeSessions revokedAt =>
    some (.update
      (whereSession fun id row => id = sessionId ∧ row.userId = userId ∧ row.revokedAt = none)
      (setSession (·.revoked revokedAt "user_logout")))
  | .revokeSession sessionId userId, .revokeTokens revokedAt =>
    some (.update
      (whereToken fun _ row => row.sessionId = sessionId ∧ row.userId = userId ∧
        row.revokedAt = none)
      (setToken (·.revoked revokedAt)))
  | .revokeAllSessions userId, .revokeSessions revokedAt =>
    some (.update (whereSession fun _ row => row.userId = userId ∧ row.revokedAt = none)
      (setSession (·.revoked revokedAt "user_logout_all")))
  | .revokeAllSessions userId, .revokeTokens revokedAt =>
    some (.update (whereToken fun _ row => row.userId = userId ∧ row.revokedAt = none)
      (setToken (·.revoked revokedAt)))
  | .revokeSession .., .commitRevoke | .revokeAllSessions .., .commitRevoke => some .commit
  | _, _ => none

/-- What a rotation goes on to do with the tokens it finds; `none` if there is no such token. -/
def afterFind (found : List CurrentToken) (now pick : ℕ) : Option AuthPc :=
  match found with
  | [] => some (.commitRotate .invalid)
  | found =>
    (found[pick]?).map fun current =>
      if current.unusable now then .reuseSession current else .insertNext current

def rotateResult (nextRawToken : String) : RotateStatus → AuthResult
  | .rotated current => .tokenPair current.token.userId current.token.sessionId nextRawToken
  | .invalid | .reuse _ => .null

/-- Where a call goes on after the reply to its statement. -/
def AuthCall.next (now : ℕ) (keys : List Key) (call : AuthCall) (reply : Reply Row) (pick : ℕ) :
    Option AuthPc :=
  match call.request, call.pc, reply with
  | _, .insertSession, _ => some .insertToken
  | _, .insertToken, _ => some .touchUser
  | _, .touchUser, _ => some .commitCreate
  | .createSession userId sessionId _ refreshToken, .commitCreate, _ =>
    some (.returned (.tokenPair userId sessionId refreshToken))
  | .rotateRefreshToken rawToken _ _, .findToken, .rows rows =>
    afterFind (findTokens rows keys (candidateOpaqueTokenHashes R K rawToken)) call.startedAt pick
  | _, .reuseSession current, _ => some (.reuseTokens current)
  | _, .reuseTokens current, _ => some (.commitRotate (.reuse current))
  | _, .insertNext current, _ => some (.consume current)
  | _, .consume current, .count n =>
    some (if n ≠ 1 then .raceSession current else .touchSession current)
  | _, .raceSession current, _ => some (.raceTokens current)
  | _, .raceTokens current, _ => some (.commitRotate (.reuse current))
  | _, .touchSession current, _ => some (.commitRotate (.rotated current))
  | .rotateRefreshToken _ _ nextRawToken, .commitRotate status, _ =>
    some (.returned (rotateResult nextRawToken status))
  | _, .revokeSessions _, _ => some (.revokeTokens now)
  | _, .revokeTokens _, _ => some .commitRevoke
  | _, .commitRevoke, _ => some (.returned .void)
  | _, _, _ => none

/-- `update` fails if there is no such row. -/
def AuthPc.requiresRow : AuthPc → Bool
  | .touchUser | .raceSession _ | .touchSession _ => true
  | _ => false

def Missing (pc : AuthPc) (reply : Reply Row) : Bool :=
  match reply with
  | .count 0 => pc.requiresRow
  | _ => false

def databaseFailure : Thrown := .prisma "P2034" "Transaction failed"

/-- A call whose transaction is rolled back. -/
def AuthCall.fail (call : AuthCall) (error : Thrown) : AuthCall :=
  { call with pc := .thrown error, tx := {} }

def AuthCall.step (s : AuthState) (i : ℕ) (call : AuthCall) (c : AuthChoice) :
    Option (AuthState × AuthCall) :=
  match call.stmt cfg R K with
  | none => none
  | some stmt =>
    if c.fails then some ({ s with db := s.db.release i }, call.fail databaseFailure)
    else
      match exec s.db i call.tx stmt with
      | none => none
      | some (db, .running tx) => some ({ s with db := db }, { call with tx := tx })
      | some (db, .replied tx reply) =>
        if Missing call.pc reply then
          some ({ s with db := db.release i },
            call.fail (.prisma "P2025" "No record was found for an update."))
        else
          (call.next R K s.now s.db.keys reply c.pick).map fun pc =>
            ({ s with db := db },
              { call with pc := if c.lost then .thrown databaseFailure else pc, tx := tx })
      | some (db, .taken) =>
        some ({ s with db := db }, call.fail (.prisma "P2002" "Unique constraint failed"))
      | some (db, .failed) => some ({ s with db := db }, call.fail databaseFailure)

end Calls

def startCall (now : ℕ) (request : AuthRequest) : AuthCall where
  request := request
  startedAt := now
  pc :=
    match request with
    | .createSession .. => .insertSession
    | .rotateRefreshToken .. => .findToken
    | .revokeSession .. | .revokeAllSessions .. => .revokeSessions now
  tx :=
    match request with
    | .rotateRefreshToken .. => { serializable := true }
    | _ => {}

inductive AuthEvent
  | tick (ms : ℕ)
  /-- A user appears or changes, in a transaction of its own. -/
  | user (id : ℕ) (row : User)
  /-- The database rolls back the transaction of a call. -/
  | abort (pid : ℕ)
deriving DecidableEq

def event (s : AuthState) : AuthEvent → Option AuthState
  | .tick ms => some { s with now := s.now + ms }
  | .user id row =>
    if s.db.locks (.user id) = none then
      some
        { s with
          db :=
            { s.db with
              rows := Function.update s.db.rows (.user id) (some row)
              keys := .user id :: s.db.keys } }
    else none
  | .abort pid => some { s with db := s.db.abort pid }

/-- **Calls on sessions** by any users, with any presented tokens. -/
def sessions (cfg : AuthConfig) (R : Runtime) (K : Keyring) :
    Program AuthState AuthCall AuthRequest AuthChoice AuthEvent where
  init := {}
  spawn s _ request := some (s, startCall s.now request)
  step s i call c := call.step cfg R K s i c
  env := event

abbrev AuthWorld := World AuthState AuthCall

end BackendFoundation.Auth.SessionModel
