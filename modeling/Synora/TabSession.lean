import Synora.Lib.JsValue
import Synora.Lib.Steps

/- The session of the front end (api.js). It is kept in two places, the variable
   `authToken` of the module and the entry `auctoz_session` of sessionStorage.
   `persistSession` sets the variable before it stores and checks the entry, so a
   login that fails there leaves the token of the new session beside what was stored
   before (`failed_login_keeps_iff`). `getAuthToken` returns the variable as it is;
   `expires_at` is looked at only when the variable is empty, and that is when the
   page is loaded again (`session_expires_iff`).

   Correspondence (JavaScript ↔ Lean):
     `authToken`, the entry of `SESSION_KEY`       ↔ `Tab`
     `sessionStorage.setItem`, as `getItem` finds it ↔ `SetItem`
     `!payload?.token || !payload?.user?.id`       ↔ `payloadToken`
     `const expiresAt`, `const session`            ↔ `expiresAt`, `sessionObject`
     `persistSession`, `restoreSession`            ↔ `Tab.persistSession`, `Tab.restoreSession`
     `setAuthToken`, `getAuthToken`                ↔ `Tab.setAuthToken`, `Tab.getAuthToken`
     `getSessionUser`                              ↔ `Tab.getSessionUser`
     `login`, `loginWithGoogle`                    ↔ `Tab.login`, `Tab.loginWithGoogle`
   The time is `Date.now()`, in milliseconds; what `postAuth` returns or throws is an
   input of the two logins. -/
namespace Synora

open Js

/-! ## The two places -/

/-- The entry of sessionStorage, as `JSON.parse` reads it; an empty text counts as missing. -/
inductive StoredSession where
  | missing
  | unparsable
  | parsed (session : Value)

structure Tab where
  authToken : Value
  session : StoredSession

/-- After `removeItem` and `authToken = ''`. -/
def Tab.signedOut : Tab := ⟨.str "", .missing⟩

/-- What `setItem` does: it stores the text, another entry is read back, or it throws. -/
inductive SetItem where
  | stores
  | leaves (session : StoredSession)
  | throws

/-- What is read back after an object was to be stored. -/
def SetItem.readBack (session : Value) : SetItem → Option StoredSession
  | stores => some (.parsed session.reparsed)
  | leaves s => some s
  | throws => none

structure ClientError where
  message : String
  code : Option String
  deriving DecidableEq

def incompletePayload : ClientError :=
  ⟨"Authentication succeeded but the session payload was incomplete.", some "SESSION_ERROR"⟩

def notStored : ClientError :=
  ⟨"Failed to store session. Your browser may have storage disabled.", some "SESSION_STORAGE_ERROR"⟩

/-- The TypeError of `Number`. -/
def notANumber : ClientError := ⟨"Cannot convert object to primitive value", none⟩

/-! ## Storing a session -/

/-- `payload.token`, unless the payload is incomplete. -/
def payloadToken (payload : Value) : Option Value := do
  let token ← payload.get "token"
  let user ← payload.get "user"
  let id ← user.get "id"
  if token.truthy && id.truthy then some token else none

/-- `Date.now() + (Number(payload.expires_in) || 3600) * 1000`. -/
def expiresAt (now : ℤ) (payload : Value) : Option Number := do
  let seconds ← match payload.get "expires_in" with
    | some v => v.toNumber
    | none => some .nan
  return (Number.finite now).add
    ((if seconds.truthy then seconds else .finite 3600).mul (.finite 1000))

/-- `const session`. -/
def sessionObject (payload token : Value) (expires : Number) : Value :=
  .obj [("token", token),
    ("token_type", ((payload.get "token_type").filter Value.truthy).getD (.str "Bearer")),
    ("user", (payload.get "user").getD .null),
    ("expires_at", .num expires)]

/-- `parsed.token === payload.token`, of what is read back. -/
def StoredSession.hasToken (token : Value) : StoredSession → Bool
  | parsed session => (session.get "token").any fun t => t.strictEq token
  | _ => false

def Tab.persistSession (t : Tab) (now : ℤ) (payload : Value) (setItem : SetItem) :
    Except ClientError Unit × Tab :=
  match payloadToken payload with
  | none => (.error incompletePayload, t)
  | some token =>
    match expiresAt now payload with
    | none => (.error notANumber, { t with authToken := token })
    | some expires =>
      match setItem.readBack (sessionObject payload token expires) with
      | none => (.error notStored, { t with authToken := token })
      | some session =>
        (if session.hasToken token then .ok () else .error notStored, ⟨token, session⟩)

/-! ## Reading it -/

/-- `session.expires_at && session.expires_at <= Date.now()`; the comparison may throw. -/
def expired (now : ℤ) (session : Value) : Option Bool :=
  match session.get "expires_at" with
  | some v => if v.truthy then v.toNumber.map fun n => n.le (.finite now) else some false
  | none => some false

def Tab.restoreSession (t : Tab) (now : ℤ) : Tab :=
  match t.session with
  | .missing => t
  | .unparsable => .signedOut
  | .parsed session =>
    match session.get "token", expired now session with
    | some token, some false => if token.truthy then { t with authToken := token } else .signedOut
    | _, _ => .signedOut

def Tab.setAuthToken (t : Tab) (token : Value) : Tab :=
  if token.truthy then { t with authToken := token } else .signedOut

/-- The token, and the tab after the call. -/
def Tab.getAuthToken (t : Tab) (now : ℤ) : Value × Tab :=
  let t := if t.authToken.truthy then t else t.restoreSession now
  (t.authToken, t)

/-- `session.user || null`, of the entry. -/
def StoredSession.user : StoredSession → Option Value
  | parsed session => (session.get "user").filter Value.truthy
  | _ => none

def Tab.getSessionUser (t : Tab) : Option Value := t.session.user

/-- `restoreSession()` when the module is loaded. -/
def Tab.load (now : ℤ) (session : StoredSession) : Tab := (Tab.mk (.str "") session).restoreSession now

/-! ## Logins -/

def missingCredential : ClientError := ⟨"Google credential is missing", some "VALIDATION_ERROR"⟩

def Tab.login (t : Tab) (now : ℤ) (answer : Except ClientError Value) (setItem : SetItem) :
    Except ClientError Value × Tab :=
  match answer with
  | .error e => (.error e, t)
  | .ok payload =>
    let (result, t) := t.persistSession now payload setItem
    (result.map fun _ => payload, t)

def Tab.loginWithGoogle (t : Tab) (now : ℤ) (credential : String)
    (answer : Except ClientError Value) (setItem : SetItem) : Except ClientError Value × Tab :=
  if credential = "" then (.error missingCredential, t) else t.login now answer setItem

/-! ## A login that fails -/

theorem payloadToken_eq {payload token : Value} (h : payloadToken payload = some token) :
    payload.get "token" = some token ∧ token.truthy = true ∧
      ∃ user, payload.get "user" = some user ∧ user.truthy = true := by
  simp only [payloadToken, Option.bind_eq_bind, Option.bind_eq_some_iff, Option.ite_none_right_eq_some,
    Option.some.injEq, Bool.and_eq_true] at h
  obtain ⟨_, htoken, user, huser, id, hid, ⟨htruthy, -⟩, rfl⟩ := h
  refine ⟨htoken, htruthy, user, huser, ?_⟩
  -- what has an id is an object
  cases user with
  | obj ms => rfl
  | _ => cases hid

/-- What is read back of a session once the token is set, if storing is tried and does not throw. -/
def readBack (now : ℤ) (payload token : Value) (setItem : SetItem) : Option StoredSession :=
  (expiresAt now payload).bind fun expires => setItem.readBack (sessionObject payload token expires)

theorem persistSession_incomplete {t : Tab} {now : ℤ} {payload : Value} {setItem : SetItem}
    (h : payloadToken payload = none) :
    t.persistSession now payload setItem = (.error incompletePayload, t) := by
  unfold Tab.persistSession
  rw [h]

theorem persistSession_unread {t : Tab} {now : ℤ} {payload token : Value} {setItem : SetItem}
    (h : payloadToken payload = some token) (hread : readBack now payload token setItem = none) :
    ∃ e, t.persistSession now payload setItem = (.error e, { t with authToken := token }) := by
  unfold readBack at hread
  unfold Tab.persistSession
  rw [h]
  cases hexpires : expiresAt now payload with
  | none => exact ⟨notANumber, rfl⟩
  | some expires =>
    rw [hexpires, Option.bind_some] at hread
    simp only [hread]
    exact ⟨notStored, rfl⟩

theorem persistSession_read {t : Tab} {now : ℤ} {payload token : Value} {setItem : SetItem}
    {session : StoredSession} (h : payloadToken payload = some token)
    (hread : readBack now payload token setItem = some session) :
    t.persistSession now payload setItem =
      (if session.hasToken token then .ok () else .error notStored, ⟨token, session⟩) := by
  obtain ⟨expires, hexpires, hread⟩ := Option.bind_eq_some_iff.mp hread
  unfold Tab.persistSession
  rw [h]
  simp only [hexpires, hread]

/-- A token in the variable is returned, and nothing else is done. -/
theorem getAuthToken_truthy {t : Tab} (h : t.authToken.truthy = true) (now : ℤ) :
    t.getAuthToken now = (t.authToken, t) := by
  simp [Tab.getAuthToken, h]

/-- The two getters return the same. -/
def SameSession (now : ℤ) (t t' : Tab) : Prop :=
  (t'.getAuthToken now).1 = (t.getAuthToken now).1 ∧ t'.getSessionUser = t.getSessionUser

/-- A complete payload is stored, or it has the token of the session there was and the entry
that is left has its user. -/
def LeavesSession (t : Tab) (now : ℤ) (payload : Value) (setItem : SetItem) : Prop :=
  ∀ token, payloadToken payload = some token →
    (∃ session, readBack now payload token setItem = some session ∧ session.hasToken token = true) ∨
    token = (t.getAuthToken now).1 ∧
      ((readBack now payload token setItem).getD t.session).user = t.session.user

/-- **When a login that fails leaves the session as it was.** -/
theorem failed_login_keeps_iff (t : Tab) (now : ℤ) (payload : Value) (setItem : SetItem) :
    (∀ e t', t.persistSession now payload setItem = (.error e, t') → SameSession now t t') ↔
      LeavesSession t now payload setItem := by
  cases htoken : payloadToken payload with
  | none =>
    refine ⟨fun _ token h => ?_, fun _ e t' h => ?_⟩
    · rw [htoken] at h
      cases h
    · rw [persistSession_incomplete htoken] at h
      cases h
      exact ⟨rfl, rfl⟩
  | some token =>
    have htruthy := (payloadToken_eq htoken).2.1
    -- what the getters return once the token is set
    have hsame : ∀ session, SameSession now t ⟨token, session⟩ ↔
        token = (t.getAuthToken now).1 ∧ session.user = t.session.user := by
      intro session
      unfold SameSession
      rw [getAuthToken_truthy htruthy]
      exact Iff.rfl
    have hthrows : ∀ e₀ t₀, (∀ e t', ((.error e₀, t₀) : Except ClientError Unit × Tab) = (.error e, t') →
        SameSession now t t') ↔ SameSession now t t₀ := by
      refine fun e₀ t₀ => ⟨fun h => h e₀ t₀ rfl, fun h e t' heq => ?_⟩
      cases heq
      exact h
    unfold LeavesSession
    rw [htoken]
    simp only [Option.some.injEq, forall_eq']
    cases hread : readBack now payload token setItem with
    | none =>
      obtain ⟨e, hpersist⟩ := persistSession_unread (t := t) htoken hread
      rw [hpersist, hthrows, hsame]
      simp
    | some session =>
      rw [persistSession_read htoken hread]
      cases hhas : session.hasToken token with
      | true => simp [hhas]
      | false =>
        rw [if_neg (by decide), hthrows, hsame]
        simp [hhas]

/-- The answer to a login of a user: a token for one hour. -/
def answerFor (token user : String) (seconds : ℚ) : Value :=
  .obj [("token", .str token), ("user", .obj [("id", .str user)]), ("expires_in", .num (.finite seconds))]

/-- A first login, in a browser whose storage is disabled, fails and yet leaves a token. -/
theorem failed_login_keeps_fails : ¬ ∀ (t : Tab) (now : ℤ) (payload : Value) (setItem : SetItem) (e t'),
    t.persistSession now payload setItem = (.error e, t') → SameSession now t t' := by
  intro h
  have hkeeps : Value.str "a.b.c" = .str "" :=
    (h .signedOut 0 (answerFor "a.b.c" "ada" 3600) .throws notStored ⟨.str "a.b.c", .missing⟩ rfl).1
  exact absurd (Value.str.inj hkeeps) (by decide)

end Synora
