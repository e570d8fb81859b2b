import BackendFoundation.Auth.SessionModel
import Mathlib.Order.Nat

/-! # Refresh-token families

`Family` is what the committed rows satisfy: a session has at most one token that is neither
consumed nor revoked, and a consumed token has its successor in the same session. `Later` says how
rows develop: a session that is revoked stays revoked and gets no new token, and a new token changes
its session's row.

A transaction that commits has revoked sessions and tokens (`Revokes`), created a session
(`Creates`), or rotated a token (`Rotates`). Each keeps `Family` and leads to `Later` rows. A
rotation works on its snapshot; `Later` from there to the committed rows says what it may have
missed. -/

namespace BackendFoundation.Auth.SessionFamily

open Lib.Database Lib.Interleave Lib.Runs Errors Crypto Auth.SessionModel
open Option (some.inj)

variable {cfg : AuthConfig} {R : Runtime} {K : Keyring} {rows rows' rows'' : Rows Row}
  {ws : Writes Row} {current : CurrentToken}

/-! ### Families of tokens -/

def Unspent (token : RefreshToken) : Prop := token.consumedAt = none ∧ token.revokedAt = none

/-- `next` is a token of the session of `token`, which it replaces. -/
def Successor (rows : Rows Row) (id : ℕ) (token : RefreshToken) (next : ℕ) : Prop :=
  token.replacedByTokenId = some next ∧ next ≠ id ∧
    ∃ row : RefreshToken, rows (.token next) = some row ∧ row.sessionId = token.sessionId

structure Family (rows : Rows Row) : Prop where
  session : ∀ id (token : RefreshToken), rows (.token id) = some token →
    ∃ session : Session, rows (.session token.sessionId) = some session ∧
      session.userId = token.userId
  one : ∀ id id' (token token' : RefreshToken), rows (.token id) = some token →
    rows (.token id') = some token' → token.sessionId = token'.sessionId →
    Unspent token → Unspent token' → id = id'
  successor : ∀ id (token : RefreshToken), rows (.token id) = some token →
    token.consumedAt ≠ none → ∃ next, Successor rows id token next

theorem family_empty : Family fun _ => none := by
  refine ⟨fun _ _ h => ?_, fun _ _ _ _ h => ?_, fun _ _ h => ?_⟩
  all_goals cases h

/-! ### Later rows -/

structure LaterSession (session session' : Session) : Prop where
  userId : session'.userId = session.userId
  expiresAt : session'.expiresAt = session.expiresAt
  version : session.version ≤ session'.version
  revoked : session.revokedAt ≠ none → session'.revokedAt ≠ none

structure LaterToken (token token' : RefreshToken) : Prop where
  userId : token'.userId = token.userId
  sessionId : token'.sessionId = token.sessionId
  consumed : token.consumedAt ≠ none → token'.consumedAt ≠ none
  revoked : token.revokedAt ≠ none → token'.revokedAt ≠ none

theorem LaterSession.refl (session : Session) : LaterSession session session :=
  ⟨rfl, rfl, le_refl _, id⟩

theorem LaterSession.trans {a b c : Session} (h : LaterSession a b) (h' : LaterSession b c) :
    LaterSession a c :=
  ⟨h'.userId.trans h.userId, h'.expiresAt.trans h.expiresAt, h.version.trans h'.version,
    fun hr => h'.revoked (h.revoked hr)⟩

theorem LaterToken.refl (token : RefreshToken) : LaterToken token token := ⟨rfl, rfl, id, id⟩

theorem LaterToken.trans {a b c : RefreshToken} (h : LaterToken a b) (h' : LaterToken b c) :
    LaterToken a c :=
  ⟨h'.userId.trans h.userId, h'.sessionId.trans h.sessionId, fun hr => h'.consumed (h.consumed hr),
    fun hr => h'.revoked (h.revoked hr)⟩

structure Later (rows rows' : Rows Row) : Prop where
  session : ∀ id (session : Session), rows (.session id) = some session →
    ∃ session' : Session, rows' (.session id) = some session' ∧ LaterSession session session'
  token : ∀ id (token : RefreshToken), rows (.token id) = some token →
    ∃ token' : RefreshToken, rows' (.token id) = some token' ∧ LaterToken token token'
  /-- A session gets a new token only while it is not revoked, and is written then. -/
  fresh : ∀ id (token' : RefreshToken), rows' (.token id) = some token' →
    rows (.token id) = none → ∀ session : Session,
    rows (.session token'.sessionId) = some session → session.revokedAt = none ∧
      ∃ session' : Session, rows' (.session token'.sessionId) = some session' ∧
        session.version < session'.version

theorem Later.refl (rows : Rows Row) : Later rows rows := by
  refine ⟨fun id session h => ⟨session, h, .refl _⟩, fun id token h => ⟨token, h, .refl _⟩,
    fun id token' h hnone => ?_⟩
  rw [hnone] at h
  cases h

theorem Later.trans (h : Later rows rows') (h' : Later rows' rows'') : Later rows rows'' := by
  refine ⟨fun id session hs => ?_, fun id token ht => ?_, fun id token'' ht'' hnone session hs => ?_⟩
  · obtain ⟨session', hs', hl⟩ := h.session id session hs
    obtain ⟨session'', hs'', hl'⟩ := h'.session id session' hs'
    exact ⟨session'', hs'', hl.trans hl'⟩
  · obtain ⟨token', ht', hl⟩ := h.token id token ht
    obtain ⟨token'', ht'', hl'⟩ := h'.token id token' ht'
    exact ⟨token'', ht'', hl.trans hl'⟩
  · obtain ⟨session', hs', hl⟩ := h.session _ session hs
    cases ht' : rows' (.token id) with
    | none =>
      -- the token is new since `rows'`
      obtain ⟨hlive, session'', hs'', hlt⟩ := h'.fresh id token'' ht'' ht' session' hs'
      refine ⟨?_, session'', hs'', hl.version.trans_lt hlt⟩
      by_contra hrevoked
      exact hl.revoked hrevoked hlive
    | some token' =>
      obtain ⟨token₂, ht₂, hlt⟩ := h'.token id token' ht'
      obtain rfl := some.inj (ht''.symm.trans ht₂)
      rw [hlt.sessionId] at hs hs'
      obtain ⟨hlive, session₁, hs₁, hv⟩ := h.fresh id token' ht' hnone session hs
      obtain ⟨session₂, hs₂, hl₂⟩ := h'.session _ session₁ hs₁
      exact ⟨hlive, session₂, by rw [hlt.sessionId]; exact hs₂, hv.trans_le hl₂.version⟩

theorem Later.of_eq (hs : ∀ id, rows' (.session id) = rows (.session id))
    (ht : ∀ id, rows' (.token id) = rows (.token id)) : Later rows rows' := by
  refine ⟨fun id session h => ⟨session, (hs id).trans h, .refl _⟩,
    fun id token h => ⟨token, (ht id).trans h, .refl _⟩, fun id token' h hnone => ?_⟩
  rw [ht, hnone] at h
  cases h

theorem Family.of_eq (h : Family rows) (hs : ∀ id, rows' (.session id) = rows (.session id))
    (ht : ∀ id, rows' (.token id) = rows (.token id)) : Family rows' := by
  refine ⟨fun id token hid => ?_, fun id id' token token' hid hid' => ?_, fun id token hid hc => ?_⟩
  · rw [ht] at hid
    rw [hs]
    exact h.session id token hid
  · rw [ht] at hid hid'
    exact h.one id id' token token' hid hid'
  · rw [ht] at hid
    obtain ⟨next, hby, hne, row, hrow, hsame⟩ := h.successor id token hid hc
    exact ⟨next, hby, hne, row, (ht next).trans hrow, hsame⟩

/-! ### What a transaction writes -/

/-- The rows that are written are as their transaction has found them. -/
def Fits (ws : Writes Row) (rows : Rows Row) : Prop := ∀ k c, ws k = some c → rows k = c.before

/-- A session that has been revoked, and the rest of its row. -/
def RevokedFrom (session session' : Session) : Prop :=
  LaterSession session session' ∧ session'.revokedAt ≠ none

structure Revokes (ws : Writes Row) : Prop where
  session : ∀ id c, ws (.session id) = some c → ∃ session session' : Session,
    c.before = some session ∧ c.after = some session' ∧ RevokedFrom session session'
  token : ∀ id c, ws (.token id) = some c → ∃ (token : RefreshToken) (revokedAt : ℕ),
    c.before = some token ∧ c.after = some (token.revoked revokedAt)

/-- No other session or token is written. -/
def Only (ws : Writes Row) (sessions tokens : List ℕ) : Prop :=
  (∀ id, ws (.session id) ≠ none → id ∈ sessions) ∧ ∀ id, ws (.token id) ≠ none → id ∈ tokens

def InsertsSession (ws : Writes Row) (sessionId userId : ℕ) : Prop :=
  ∃ session : Session, ws (.session sessionId) = some ⟨none, some session⟩ ∧
    session.userId = userId

/-- Inserts a token that is neither consumed nor revoked. -/
def InsertsToken (ws : Writes Row) (tokenId sessionId userId : ℕ) : Prop :=
  ∃ token : RefreshToken, ws (.token tokenId) = some ⟨none, some token⟩ ∧
    token.sessionId = sessionId ∧ token.userId = userId ∧ Unspent token

structure Creates (ws : Writes Row) (userId sessionId tokenId : ℕ) : Prop where
  session : InsertsSession ws sessionId userId
  token : InsertsToken ws tokenId sessionId userId
  only : Only ws [sessionId] [tokenId]

/-- The current token is consumed, and replaced by `nextId`. -/
def Consumes (ws : Writes Row) (current : CurrentToken) (nextId : ℕ) : Prop :=
  ∃ consumedAt : ℕ, ws (.token current.id) =
    some ⟨some current.token, some (current.token.consumed consumedAt nextId)⟩

def Touches (ws : Writes Row) (current : CurrentToken) : Prop :=
  ∃ session : Session, ws (.session current.token.sessionId) =
    some ⟨some current.session, some session⟩ ∧ LaterSession current.session session ∧
      session.revokedAt = none ∧ current.session.version < session.version

structure Rotates (ws : Writes Row) (current : CurrentToken) (nextId : ℕ) : Prop where
  ne : nextId ≠ current.id
  next : InsertsToken ws nextId current.token.sessionId current.token.userId
  consumes : Consumes ws current nextId
  touches : Touches ws current
  only : Only ws [current.token.sessionId] [nextId, current.id]
  live : Unspent current.token
  session : current.session.revokedAt = none

theorem only_session {sessions tokens : List ℕ} (h : Only ws sessions tokens) {id : ℕ}
    (hid : id ∉ sessions) : ws (.session id) = none := by
  by_contra hne
  exact hid (h.1 id hne)

theorem only_token {sessions tokens : List ℕ} (h : Only ws sessions tokens) {id : ℕ}
    (hid : id ∉ tokens) : ws (.token id) = none := by
  by_contra hne
  exact hid (h.2 id hne)

/-! ### Revocations -/

theorem Revokes.session_cases (h : Revokes ws) (hf : Fits ws rows) {id : ℕ} {session : Session}
    (hs : rows (.session id) = some session) :
    ∃ session' : Session, ws.read rows (.session id) = some session' ∧
      LaterSession session session' := by
  cases hw : ws (.session id) with
  | none => exact ⟨session, (Writes.read_of_none hw).trans hs, .refl _⟩
  | some c =>
    obtain ⟨before, after, hb, ha, hl, -⟩ := h.session id c hw
    obtain rfl := some.inj ((hf _ c hw).symm.trans hs |>.symm.trans hb)
    exact ⟨after, (Writes.read_of_some hw).trans ha, hl⟩

theorem Revokes.token_cases (h : Revokes ws) (hf : Fits ws rows) {id : ℕ} {token' : RefreshToken}
    (ht : ws.read rows (.token id) = some token') :
    ∃ token : RefreshToken, rows (.token id) = some token ∧
      (token' = token ∨ ∃ revokedAt, token' = token.revoked revokedAt) := by
  cases hw : ws (.token id) with
  | none => exact ⟨token', (Writes.read_of_none hw).symm.trans ht, .inl rfl⟩
  | some c =>
    obtain ⟨token, revokedAt, hb, ha⟩ := h.token id c hw
    have hafter := ((Writes.read_of_some hw).symm.trans ht).symm.trans ha
    exact ⟨token, (hf _ c hw).trans hb, .inr ⟨revokedAt, some.inj hafter⟩⟩

theorem Revokes.token_later (h : Revokes ws) (hf : Fits ws rows) {id : ℕ} {token : RefreshToken}
    (ht : rows (.token id) = some token) :
    ∃ token' : RefreshToken, ws.read rows (.token id) = some token' ∧ LaterToken token token' := by
  cases hw : ws (.token id) with
  | none => exact ⟨token, (Writes.read_of_none hw).trans ht, .refl _⟩
  | some c =>
    obtain ⟨before, revokedAt, hb, ha⟩ := h.token id c hw
    obtain rfl := some.inj (ht.symm.trans ((hf _ c hw).trans hb))
    exact ⟨_, (Writes.read_of_some hw).trans ha, rfl, rfl, fun hc => hc,
      fun _ => Option.some_ne_none _⟩

theorem Revokes.later (h : Revokes ws) (hf : Fits ws rows) : Later rows (ws.read rows) := by
  refine ⟨fun id session hs => h.session_cases hf hs, fun id token ht => h.token_later hf ht,
    fun id token' ht' hnone => ?_⟩
  obtain ⟨token, ht, -⟩ := h.token_cases hf ht'
  rw [hnone] at ht
  cases ht

theorem Revokes.family (h : Revokes ws) (hf : Fits ws rows) (hr : Family rows) :
    Family (ws.read rows) := by
  have hsame : ∀ id (token' : RefreshToken), ws.read rows (.token id) = some token' →
      ∃ token : RefreshToken, rows (.token id) = some token ∧
        token'.sessionId = token.sessionId ∧ token'.userId = token.userId ∧
        token'.consumedAt = token.consumedAt ∧
        token'.replacedByTokenId = token.replacedByTokenId ∧
        (Unspent token' → Unspent token) := by
    intro id token' ht'
    obtain ⟨token, ht, rfl | ⟨revokedAt, rfl⟩⟩ := h.token_cases hf ht'
    · exact ⟨token', ht, rfl, rfl, rfl, rfl, fun hu => hu⟩
    · exact ⟨token, ht, rfl, rfl, rfl, rfl, fun hu => absurd hu.2 (Option.some_ne_none _)⟩
  refine ⟨fun id token' ht' => ?_, fun id id' a' b' ha' hb' hab hua hub => ?_,
    fun id token' ht' hc => ?_⟩
  · obtain ⟨token, ht, hsession, huser, -⟩ := hsame id token' ht'
    obtain ⟨session, hs, hsu⟩ := hr.session id token ht
    obtain ⟨session', hs', hl⟩ := h.session_cases hf hs
    exact ⟨session', by rw [hsession]; exact hs', by rw [hl.userId, hsu, huser]⟩
  · obtain ⟨a, ha, hsa, -, -, -, hua'⟩ := hsame id a' ha'
    obtain ⟨b, hb, hsb, -, -, -, hub'⟩ := hsame id' b' hb'
    exact hr.one id id' a b ha hb (by rw [← hsa, hab, hsb]) (hua' hua) (hub' hub)
  · obtain ⟨token, ht, hsession, -, hconsumed, hby, -⟩ := hsame id token' ht'
    obtain ⟨next, hn, hne, row, hrow, hin⟩ := hr.successor id token ht (by rwa [← hconsumed])
    obtain ⟨row', hrow', hl⟩ := h.token_later hf hrow
    exact ⟨next, hby.trans hn, hne, row', hrow', by rw [hl.sessionId, hin, hsession]⟩

/-! ### New sessions -/

theorem InsertsToken.read {tokenId sessionId userId : ℕ}
    (h : InsertsToken ws tokenId sessionId userId) (hf : Fits ws rows) :
    rows (.token tokenId) = none ∧ ∃ token : RefreshToken,
      ws.read rows (.token tokenId) = some token ∧ token.sessionId = sessionId ∧
        token.userId = userId ∧ Unspent token := by
  obtain ⟨token, hw, hs, hu⟩ := h
  exact ⟨hf _ _ hw, token, Writes.read_of_some hw, hs, hu⟩

theorem read_of_inserts {k : Key} {row : Row k} (hf : Fits ws rows)
    (hnew : ∀ c, ws k = some c → c.before = none) (h : rows k = some row) :
    ws.read rows k = some row := by
  cases hw : ws k with
  | none => exact (Writes.read_of_none hw).trans h
  | some c =>
    have hnone := (hf k c hw).trans (hnew c hw)
    rw [h] at hnone
    cases hnone

variable {userId sessionId tokenId : ℕ}

theorem Creates.new_session (h : Creates ws userId sessionId tokenId) (id : ℕ)
    (c : Change Row (.session id)) (hw : ws (.session id) = some c) : c.before = none := by
  obtain rfl := List.mem_singleton.mp (h.only.1 id (by rw [hw]; exact Option.some_ne_none c))
  obtain ⟨session, hs, -⟩ := h.session
  rw [hs] at hw
  rw [← some.inj hw]

theorem Creates.new_token (h : Creates ws userId sessionId tokenId) (id : ℕ)
    (c : Change Row (.token id)) (hw : ws (.token id) = some c) : c.before = none := by
  obtain rfl := List.mem_singleton.mp (h.only.2 id (by rw [hw]; exact Option.some_ne_none c))
  obtain ⟨token, ht, -⟩ := h.token
  rw [ht] at hw
  rw [← some.inj hw]

theorem Creates.token_cases {id : ℕ} (h : Creates ws userId sessionId tokenId)
    (hf : Fits ws rows) {token' : RefreshToken} (ht : ws.read rows (.token id) = some token') :
    rows (.token id) = some token' ∨
      (id = tokenId ∧ token'.sessionId = sessionId ∧ token'.userId = userId ∧
        Unspent token') := by
  by_cases hid : id ∈ [tokenId]
  · obtain rfl := List.mem_singleton.mp hid
    obtain ⟨-, token, htoken, hrest⟩ := h.token.read hf
    obtain rfl := some.inj (ht.symm.trans htoken)
    exact .inr ⟨rfl, hrest⟩
  · exact .inl ((Writes.read_of_none (only_token h.only hid)).symm.trans ht)

theorem Creates.session_none (h : Creates ws userId sessionId tokenId)
    (hf : Fits ws rows) : rows (.session sessionId) = none := by
  obtain ⟨session, hs, -⟩ := h.session
  exact hf _ _ hs

theorem Creates.later (h : Creates ws userId sessionId tokenId)
    (hf : Fits ws rows) : Later rows (ws.read rows) := by
  refine ⟨fun id session hs => ?_, fun id token ht => ?_, fun id token' ht' hnone session hs => ?_⟩
  · exact ⟨session, read_of_inserts hf (h.new_session id) hs, .refl _⟩
  · exact ⟨token, read_of_inserts hf (h.new_token id) ht, .refl _⟩
  · rcases h.token_cases hf ht' with ht | ⟨-, hsid, -⟩
    · rw [hnone] at ht
      cases ht
    · -- the session of the new token is new too
      rw [hsid, h.session_none hf] at hs
      cases hs

theorem Creates.family (h : Creates ws userId sessionId tokenId)
    (hf : Fits ws rows) (hr : Family rows) : Family (ws.read rows) := by
  have hnew : ∀ id (token : RefreshToken), rows (.token id) = some token →
      token.sessionId ≠ sessionId := by
    intro id token ht he
    obtain ⟨session, hs, -⟩ := hr.session id token ht
    rw [he, h.session_none hf] at hs
    cases hs
  refine ⟨fun id token ht => ?_, fun id id' a b ha hb hab hua hub => ?_, fun id token ht hc => ?_⟩
  · rcases h.token_cases hf ht with ht | ⟨-, hsid, huser, -⟩
    · obtain ⟨session, hs, hsu⟩ := hr.session id token ht
      exact ⟨session, read_of_inserts hf (h.new_session _) hs, hsu⟩
    · obtain ⟨session, hs, hsu⟩ := h.session
      exact ⟨session, by rw [hsid]; exact Writes.read_of_some hs, hsu.trans huser.symm⟩
  · rcases h.token_cases hf ha with ha | ⟨ha, hsa, -⟩ <;>
      rcases h.token_cases hf hb with hb | ⟨hb, hsb, -⟩
    · exact hr.one id id' a b ha hb hab hua hub
    · exact absurd (hab.trans hsb) (hnew id a ha)
    · exact absurd (hab.symm.trans hsa) (hnew id' b hb)
    · rw [ha, hb]
  · rcases h.token_cases hf ht with ht | ⟨-, -, -, hu⟩
    · obtain ⟨next, hn, hne, row, hrow, hin⟩ := hr.successor id token ht hc
      exact ⟨next, hn, hne, row, read_of_inserts hf (h.new_token next) hrow, hin⟩
    · exact absurd hu.1 hc

/-! ### Rotations -/

theorem Rotates.before {nextId : ℕ} (h : Rotates ws current nextId) (hf : Fits ws rows) :
    rows (.token nextId) = none ∧ rows (.token current.id) = some current.token ∧
      rows (.session current.token.sessionId) = some current.session := by
  obtain ⟨consumedAt, hc⟩ := h.consumes
  obtain ⟨session, hs, -⟩ := h.touches
  exact ⟨(h.next.read hf).1, hf _ _ hc, hf _ _ hs⟩

/-- The tokens after a rotation: the next one, the consumed one, and the others as they were. -/
theorem Rotates.token_cases {nextId id : ℕ} (h : Rotates ws current nextId) (hf : Fits ws rows)
    {token' : RefreshToken} (ht : ws.read rows (.token id) = some token') :
    (id = nextId ∧ token'.sessionId = current.token.sessionId ∧
        token'.userId = current.token.userId ∧ Unspent token') ∨
      (id = current.id ∧ ∃ consumedAt, token' = current.token.consumed consumedAt nextId) ∨
      (id ≠ nextId ∧ id ≠ current.id ∧ rows (.token id) = some token') := by
  by_cases hnext : id = nextId
  · obtain ⟨-, token, htoken, hrest⟩ := h.next.read hf
    rw [hnext, htoken] at ht
    obtain rfl := some.inj ht
    exact .inl ⟨hnext, hrest⟩
  by_cases hcur : id = current.id
  · obtain ⟨consumedAt, hc⟩ := h.consumes
    rw [hcur, Writes.read_of_some hc] at ht
    exact .inr (.inl ⟨hcur, consumedAt, (some.inj ht).symm⟩)
  · have hnone : ws (.token id) = none := only_token h.only (by simp [hnext, hcur])
    exact .inr (.inr ⟨hnext, hcur, (Writes.read_of_none hnone).symm.trans ht⟩)

theorem Rotates.session_later {nextId id : ℕ} (h : Rotates ws current nextId) (hf : Fits ws rows)
    {session : Session} (hs : rows (.session id) = some session) :
    ∃ session' : Session, ws.read rows (.session id) = some session' ∧
      LaterSession session session' := by
  by_cases hid : id ∈ [current.token.sessionId]
  · obtain rfl := List.mem_singleton.mp hid
    obtain ⟨session', hw, hl, -⟩ := h.touches
    obtain rfl := some.inj (hs.symm.trans (hf _ _ hw))
    exact ⟨session', Writes.read_of_some hw, hl⟩
  · exact ⟨session, (Writes.read_of_none (only_session h.only hid)).trans hs, .refl _⟩

theorem Rotates.token_later {nextId id : ℕ} (h : Rotates ws current nextId) (hf : Fits ws rows)
    {token : RefreshToken} (ht : rows (.token id) = some token) :
    ∃ token' : RefreshToken, ws.read rows (.token id) = some token' ∧ LaterToken token token' := by
  obtain ⟨hnone, hcur, -⟩ := h.before hf
  by_cases hid : id ∈ [nextId, current.id]
  · have hne : id ≠ nextId := by
      rintro rfl
      rw [hnone] at ht
      cases ht
    obtain rfl : id = current.id := by simpa [hne] using hid
    obtain rfl := some.inj (ht.symm.trans hcur)
    obtain ⟨consumedAt, hc⟩ := h.consumes
    exact ⟨_, Writes.read_of_some hc, rfl, rfl, fun _ => Option.some_ne_none _, fun hr => hr⟩
  · exact ⟨token, (Writes.read_of_none (only_token h.only hid)).trans ht, .refl _⟩

theorem Rotates.later {nextId : ℕ} (h : Rotates ws current nextId) (hf : Fits ws rows) :
    Later rows (ws.read rows) := by
  obtain ⟨-, hcur, hsession⟩ := h.before hf
  refine ⟨fun id session hs => h.session_later hf hs, fun id token ht => h.token_later hf ht,
    fun id token' ht' hnone session hs => ?_⟩
  rcases h.token_cases hf ht' with ⟨-, hsid, -⟩ | ⟨rfl, -⟩ | ⟨-, -, ht⟩
  · rw [hsid] at hs ⊢
    obtain rfl := some.inj (hs.symm.trans hsession)
    obtain ⟨session', hw, -, -, hlt⟩ := h.touches
    exact ⟨h.session, session', Writes.read_of_some hw, hlt⟩
  · rw [hcur] at hnone
    cases hnone
  · rw [hnone] at ht
    cases ht

theorem Rotates.family {nextId : ℕ} (h : Rotates ws current nextId) (hf : Fits ws rows)
    (hr : Family rows) : Family (ws.read rows) := by
  obtain ⟨hnone, hcur, hsession⟩ := h.before hf
  -- an old token of the session that is not consumed now was not unspent
  have hold : ∀ id (token : RefreshToken), rows (.token id) = some token → id ≠ current.id →
      token.sessionId = current.token.sessionId → ¬ Unspent token := by
    intro id token ht hne hs hu
    exact hne (hr.one id current.id token current.token ht hcur hs hu h.live)
  refine ⟨fun id token ht => ?_, fun id id' a b ha hb hab hua hub => ?_, fun id token ht hc => ?_⟩
  · have hs : ∃ session : Session, rows (.session token.sessionId) = some session ∧
        session.userId = token.userId := by
      rcases h.token_cases hf ht with ⟨-, hsid, huser, -⟩ | ⟨-, consumedAt, rfl⟩ | ⟨-, -, ht⟩
      · rw [hsid, huser]
        exact hr.session current.id current.token hcur
      · exact hr.session current.id current.token hcur
      · exact hr.session id token ht
    obtain ⟨session, hs, hsu⟩ := hs
    obtain ⟨session', hs', hl⟩ := h.session_later hf hs
    exact ⟨session', hs', hl.userId.trans hsu⟩
  · rcases h.token_cases hf ha with ⟨hida, hsa, -⟩ | ⟨-, consumedAt, rfl⟩ | ⟨-, hnea, ha⟩
    · rcases h.token_cases hf hb with ⟨hidb, -⟩ | ⟨-, consumedAt, rfl⟩ | ⟨-, hneb, hb⟩
      · rw [hida, hidb]
      · exact absurd hub.1 (Option.some_ne_none _)
      · exact absurd hub (hold id' b hb hneb (hab.symm.trans hsa))
    · exact absurd hua.1 (Option.some_ne_none _)
    · rcases h.token_cases hf hb with ⟨-, hsb, -⟩ | ⟨-, consumedAt, rfl⟩ | ⟨-, -, hb⟩
      · exact absurd hua (hold id a ha hnea (hab.trans hsb))
      · exact absurd hub.1 (Option.some_ne_none _)
      · exact hr.one id id' a b ha hb hab hua hub
  · rcases h.token_cases hf ht with ⟨-, -, -, hu⟩ | ⟨rfl, consumedAt, rfl⟩ | ⟨-, -, ht⟩
    · exact absurd hu.1 hc
    · obtain ⟨-, next, hnext, hsid, -⟩ := h.next.read hf
      exact ⟨nextId, rfl, h.ne, next, hnext, hsid⟩
    · obtain ⟨next, hn, hne, row, hrow, hin⟩ := hr.successor id token ht hc
      obtain ⟨row', hrow', hl⟩ := h.token_later hf hrow
      exact ⟨next, hn, hne, row', hrow', hl.sessionId.trans hin⟩

/-! ### Statements -/

variable {db : Db Row} {tx tx' : Tx Row}

theorem revokes_empty : Revokes Writes.empty := by
  refine ⟨fun id c h => ?_, fun id c h => ?_⟩ <;> cases h

theorem Revokes.update_sessions (h : Revokes tx.writes) {q : ℕ → Session → Bool}
    {revokedAt : ℕ} {reason : String} (hu : Updated tx tx' db (whereSession q)
      (setSession (·.revoked revokedAt reason))) : Revokes tx'.writes := by
  refine ⟨fun id c hw => ?_, fun id c hw => ?_⟩
  · rcases hu (.session id) with hsame | ⟨v, hv, -, hset⟩
    · exact h.session id c (hsame.symm.trans hw)
    · obtain rfl := some.inj (hset.symm.trans hw)
      have hlater : LaterSession v (Session.revoked revokedAt reason v) :=
        ⟨rfl, rfl, Nat.le_succ _, fun _ => Option.some_ne_none _⟩
      cases hold : tx.writes (.session id) with
      | none =>
        rw [Writes.read_of_none hold] at hv
        exact ⟨v, _, hv, rfl, hlater, Option.some_ne_none _⟩
      | some c =>
        obtain ⟨session, session', hb, ha, hl, -⟩ := h.session id c hold
        rw [Writes.read_of_some hold] at hv
        obtain rfl := some.inj (ha.symm.trans hv)
        exact ⟨session, _, hb, rfl, hl.trans hlater, Option.some_ne_none _⟩
  · rcases hu (.token id) with hsame | ⟨v, -, hcond, -⟩
    · exact h.token id c (hsame.symm.trans hw)
    · cases hcond

theorem Revokes.update_tokens (h : Revokes tx.writes) {q : ℕ → RefreshToken → Bool}
    (hq : ∀ id row, q id row = true → row.revokedAt = none) {revokedAt : ℕ}
    (hu : Updated tx tx' db (whereToken q) (setToken (·.revoked revokedAt))) :
    Revokes tx'.writes := by
  refine ⟨fun id c hw => ?_, fun id c hw => ?_⟩
  · rcases hu (.session id) with hsame | ⟨v, -, hcond, -⟩
    · exact h.session id c (hsame.symm.trans hw)
    · cases hcond
  · rcases hu (.token id) with hsame | ⟨v, hv, hcond, hset⟩
    · exact h.token id c (hsame.symm.trans hw)
    · obtain rfl := some.inj (hset.symm.trans hw)
      cases hold : tx.writes (.token id) with
      | none =>
        rw [Writes.read_of_none hold] at hv
        exact ⟨v, revokedAt, hv, rfl⟩
      | some c =>
        -- a row that it has revoked does not meet the condition
        obtain ⟨token, at', -, ha⟩ := h.token id c hold
        rw [Writes.read_of_some hold] at hv
        obtain rfl := some.inj (ha.symm.trans hv)
        have hnone : (RefreshToken.revoked at' token).revokedAt = none := hq id _ hcond
        cases hnone

theorem only_empty : Only Writes.empty [] [] :=
  ⟨fun _ h => absurd rfl h, fun _ h => absurd rfl h⟩

theorem InsertsSession.set (h : InsertsSession tx.writes sessionId userId) {k : Key}
    (hk : k ≠ .session sessionId) {before v : Option (Row k)} :
    InsertsSession (tx.writes.set k before v) sessionId userId := by
  obtain ⟨session, hw, hsu⟩ := h
  exact ⟨session, (Writes.set_of_ne hk.symm).trans hw, hsu⟩

theorem InsertsToken.set (h : InsertsToken tx.writes tokenId sessionId userId)
    {k : Key} (hk : k ≠ .token tokenId) {before v : Option (Row k)} :
    InsertsToken (tx.writes.set k before v) tokenId sessionId userId := by
  obtain ⟨token, hw, hrest⟩ := h
  exact ⟨token, (Writes.set_of_ne hk.symm).trans hw, hrest⟩

theorem Consumes.set {nextId : ℕ} (h : Consumes tx.writes current nextId) {k : Key}
    (hk : k ≠ .token current.id) {before v : Option (Row k)} :
    Consumes (tx.writes.set k before v) current nextId := by
  obtain ⟨consumedAt, hw⟩ := h
  exact ⟨consumedAt, (Writes.set_of_ne hk.symm).trans hw⟩

theorem Only.set_token {sessions tokens : List ℕ} (h : Only ws sessions tokens) {id : ℕ}
    (hid : id ∈ tokens) {before v : Option RefreshToken} :
    Only (ws.set (.token id) before v) sessions tokens := by
  refine ⟨fun id' hne => ?_, fun id' hne => ?_⟩
  · rw [Writes.set_of_ne (by nofun)] at hne
    exact h.1 id' hne
  · by_cases hid' : id' = id
    · exact hid' ▸ hid
    · rw [Writes.set_of_ne (fun he => hid' (Key.token.inj he))] at hne
      exact h.2 id' hne

theorem Only.set_session {sessions tokens : List ℕ} (h : Only ws sessions tokens) {id : ℕ}
    (hid : id ∈ sessions) {before v : Option Session} :
    Only (ws.set (.session id) before v) sessions tokens := by
  refine ⟨fun id' hne => ?_, fun id' hne => ?_⟩
  · by_cases hid' : id' = id
    · exact hid' ▸ hid
    · rw [Writes.set_of_ne (fun he => hid' (Key.session.inj he))] at hne
      exact h.1 id' hne
  · rw [Writes.set_of_ne (by nofun)] at hne
    exact h.2 id' hne

theorem Only.mono {sessions tokens sessions' tokens' : List ℕ} (h : Only ws sessions tokens)
    (hs : sessions ⊆ sessions') (ht : tokens ⊆ tokens') : Only ws sessions' tokens' :=
  ⟨fun id hne => hs (h.1 id hne), fun id hne => ht (h.2 id hne)⟩

theorem Creates.congr (h : Creates tx.writes userId sessionId tokenId)
    (hs : ∀ id, tx'.writes (.session id) = tx.writes (.session id))
    (ht : ∀ id, tx'.writes (.token id) = tx.writes (.token id)) :
    Creates tx'.writes userId sessionId tokenId := by
  obtain ⟨⟨session, hws, hsu⟩, ⟨token, hwt, hrest⟩, honly⟩ := h
  refine ⟨⟨session, (hs _).trans hws, hsu⟩, ⟨token, (ht _).trans hwt, hrest⟩, fun id hne => ?_,
    fun id hne => ?_⟩
  · rw [hs] at hne
    exact honly.1 id hne
  · rw [ht] at hne
    exact honly.2 id hne

end BackendFoundation.Auth.SessionFamily
