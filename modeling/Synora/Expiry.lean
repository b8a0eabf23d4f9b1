import Synora.TabSession

/- The session of a browser over time. `expires_at` is compared with the clock when the
   page is loaded; from then on AuctionTerminal (AuctionTerminal.jsx) is given the token
   of the variable, whatever the time. So a token is used after its expiry exactly if
   `getAuthToken` is called that late on a page that still has it (`session_expires_iff`);
   a page loaded again drops it (`reload_calledInTime`). The user of the entry is that of the
   token as long as every login stores its session. -/
namespace Synora

open Js

/-- What `persistSession` records of a login. -/
structure Persisted where
  token : Value
  user : Value
  expiresAt : Number

def persistedBy (now : ℤ) (payload : Value) : Option Persisted := do
  let token ← payloadToken payload
  let user ← payload.get "user"
  let expires ← expiresAt now payload
  return ⟨token, user, expires⟩

/-- A tab, the time, and the sessions persisted so far, the latest first. -/
structure Browser where
  now : ℤ
  tab : Tab
  persisted : List Persisted

def Browser.start (now : ℤ) : Browser := ⟨now, .load now .missing, []⟩

/-- What was recorded when the token was last persisted. -/
def Browser.record (b : Browser) (token : Value) : Option Persisted :=
  b.persisted.find? fun r => r.token.strictEq token

inductive BrowserEvent where
  | login (answer : Except ClientError Value) (setItem : SetItem)
  | loginWithGoogle (credential : String) (answer : Except ClientError Value) (setItem : SetItem)
  /-- `setAuthToken('')`. -/
  | signOut
  /-- `getAuthToken()`, as on every render of AuctionTerminal. -/
  | getAuthToken
  | reload
  | advance (ms : ℕ)

/-- After a login, given its result. -/
def Browser.loggedIn (b : Browser) : Except ClientError Value × Tab → Browser
  | (.ok payload, tab) =>
    { b with tab := tab, persisted := (persistedBy b.now payload).toList ++ b.persisted }
  | (.error _, tab) => { b with tab := tab }

def browserStep (b : Browser) : BrowserEvent → Option Browser
  | .login answer setItem => some (b.loggedIn (b.tab.login b.now answer setItem))
  | .loginWithGoogle credential answer setItem =>
    some (b.loggedIn (b.tab.loginWithGoogle b.now credential answer setItem))
  | .signOut => some { b with tab := b.tab.setAuthToken (.str "") }
  | .getAuthToken => some { b with tab := (b.tab.getAuthToken b.now).2 }
  | .reload => some { b with tab := .load b.now b.tab.session }
  | .advance ms => some { b with now := b.now + ms }

/-! ## The law and its condition -/

/-- A token that is returned is used before the time recorded for it, with its user. -/
def UsedInTime (b : Browser) : BrowserEvent → Prop
  | .getAuthToken => ∀ token tab, b.tab.getAuthToken b.now = (token, tab) → token.truthy = true →
    ∃ r, b.record token = some r ∧ (Number.finite b.now).lt r.expiresAt = true ∧
      tab.getSessionUser = some r.user
  | _ => True

/-- The session of a complete payload is stored, and reads back as it was: the token is a string,
a number or true, and no number of the user is an infinity. -/
def Storable (now : ℤ) (payload : Value) (setItem : SetItem) : Prop :=
  ∀ token user, payloadToken payload = some token → payload.get "user" = some user →
    setItem = .stores ∧ (expiresAt now payload).isSome = true ∧
      token.reparsed.strictEq token = true ∧ user.reparsed = user

def LoginStores (b : Browser) : BrowserEvent → Prop
  | .login answer setItem => ∀ payload, answer = .ok payload → Storable b.now payload setItem
  | .loginWithGoogle credential answer setItem => credential ≠ "" → ∀ payload, answer = .ok payload →
    Storable b.now payload setItem
  | _ => True

/-- `getAuthToken` is not called on a page that has held its token past the time recorded for it. -/
def CalledInTime (b : Browser) : BrowserEvent → Prop
  | .getAuthToken => b.tab.authToken.truthy = true → ∀ r, b.record b.tab.authToken = some r →
    (Number.finite b.now).lt r.expiresAt = true
  | _ => True

/-! ## The invariant -/

/-- The variable and the entry hold a session as it was persisted. -/
structure Browser.Holds (b : Browser) (r : Persisted) : Prop where
  record : b.record b.tab.authToken = some r
  truthy : b.tab.authToken.truthy = true
  userTruthy : r.user.truthy = true
  entry : ∃ session, b.tab.session = .parsed session ∧ session.get "token" = some b.tab.authToken ∧
    session.get "user" = some r.user ∧
    session.get "expires_at" = some (Value.num r.expiresAt).reparsed

def Browser.Sound (b : Browser) : Prop := b.tab = .signedOut ∨ ∃ r, b.Holds r

/-- What `restoreSession` does: nothing without an entry, and otherwise it takes the token of an
entry that is not expired, or removes the entry. -/
theorem restoreSession_cases (t : Tab) (now : ℤ) :
    t.session = .missing ∧ t.restoreSession now = t ∨
    t.restoreSession now = .signedOut ∨
    ∃ session token, t.session = .parsed session ∧ session.get "token" = some token ∧
      token.truthy = true ∧ expired now session = some false ∧
      t.restoreSession now = { t with authToken := token } := by
  unfold Tab.restoreSession
  cases hs : t.session with
  | missing => exact .inl ⟨rfl, rfl⟩
  | unparsable => exact .inr (.inl rfl)
  | parsed session =>
    dsimp only
    split
    · next token htoken hexpired =>
      split
      · next htruthy => exact .inr (.inr ⟨session, token, rfl, htoken, htruthy, hexpired, rfl⟩)
      · exact .inr (.inl rfl)
    · exact .inr (.inl rfl)

/-- A sound tab that is loaded again is as it was, with an entry that is not expired, or signed out. -/
theorem load_cases {b : Browser} (h : b.Sound) : Tab.load b.now b.tab.session = .signedOut ∨
    Tab.load b.now b.tab.session = b.tab ∧
      ∃ session, b.tab.session = .parsed session ∧ expired b.now session = some false := by
  rcases h with h | ⟨r, h⟩
  · rw [h]
    exact .inl rfl
  · obtain ⟨session, hsession, htoken, -⟩ := h.entry
    rcases restoreSession_cases ⟨.str "", b.tab.session⟩ b.now with ⟨hmissing, -⟩ | hout |
        ⟨session', token, hsession', htoken', -, hexpired, hrestored⟩
    · rw [hsession] at hmissing
      cases hmissing
    · exact .inl hout
    · rw [hsession] at hsession'
      cases hsession'
      rw [htoken] at htoken'
      cases htoken'
      exact .inr ⟨hrestored, session, hsession, hexpired⟩

theorem getAuthToken_sound {b : Browser} (h : b.Sound) :
    b.tab.getAuthToken b.now = (b.tab.authToken, b.tab) := by
  rcases h with h | ⟨r, h⟩
  · rw [h]
    rfl
  · exact getAuthToken_truthy h.truthy b.now

/-- What is read of a stored session. -/
theorem stored_get {payload user : Value} (huser : payload.get "user" = some user) (token : Value)
    (expires : Number) :
    (sessionObject payload token expires).reparsed.get "token" = some token.reparsed ∧
      (sessionObject payload token expires).reparsed.get "user" = some user.reparsed ∧
      (sessionObject payload token expires).reparsed.get "expires_at" =
        some (Value.num expires).reparsed := by
  have hobject : (sessionObject payload token expires).get "user" = some user := by
    show some ((payload.get "user").getD .null) = some user
    rw [huser]
    rfl
  simp only [Value.get_reparsed, hobject]
  exact ⟨rfl, rfl, rfl⟩

/-- A login whose session is stored as it is. -/
theorem loggedIn_stored {b : Browser} {payload token user : Value} {expires : Number}
    (htoken : payloadToken payload = some token) (huser : payload.get "user" = some user)
    (hexpires : expiresAt b.now payload = some expires) (hsame : token.reparsed.strictEq token = true) :
    b.loggedIn (b.tab.login b.now (.ok payload) .stores) =
      ⟨b.now, ⟨token, .parsed (sessionObject payload token expires).reparsed⟩,
        ⟨token, user, expires⟩ :: b.persisted⟩ := by
  have hread : readBack b.now payload token .stores =
      some (.parsed (sessionObject payload token expires).reparsed) := by
    rw [readBack, hexpires]
    rfl
  have hhas : StoredSession.hasToken token
      (.parsed (sessionObject payload token expires).reparsed) = true := by
    rw [StoredSession.hasToken, (stored_get huser token expires).1]
    exact hsame
  have hrecorded : persistedBy b.now payload = some ⟨token, user, expires⟩ := by
    simp [persistedBy, htoken, huser, hexpires]
  simp only [Tab.login, persistSession_read htoken hread, hhas, if_true]
  unfold Browser.loggedIn
  simp only [Except.map, hrecorded]
  rfl

/-- It is then the session that is held. -/
theorem loggedIn_sound {b : Browser} (h : b.Sound) {answer : Except ClientError Value} {setItem : SetItem}
    (hstores : ∀ payload, answer = .ok payload → Storable b.now payload setItem) :
    (b.loggedIn (b.tab.login b.now answer setItem)).Sound := by
  cases answer with
  | error e => exact h
  | ok payload =>
    cases htoken : payloadToken payload with
    | none =>
      simp only [Tab.login, persistSession_incomplete htoken]
      exact h
    | some token =>
      obtain ⟨-, htruthy, user, huser, huserTruthy⟩ := payloadToken_eq htoken
      obtain ⟨rfl, hexpires, hsame, huserSame⟩ := hstores payload rfl token user htoken huser
      obtain ⟨expires, hexpires⟩ := Option.isSome_iff_exists.mp hexpires
      obtain ⟨hgetToken, hgetUser, hgetExpires⟩ := stored_get huser token expires
      rw [loggedIn_stored htoken huser hexpires hsame]
      rw [Value.strictEq_eq hsame] at hgetToken hsame
      rw [huserSame] at hgetUser
      exact .inr ⟨⟨token, user, expires⟩, List.find?_cons_of_pos hsame, htruthy, huserTruthy, _, rfl,
        hgetToken, hgetUser, hgetExpires⟩

theorem browserStep_sound {b b' : Browser} {e : BrowserEvent} (h : b.Sound) (hstores : LoginStores b e)
    (hstep : browserStep b e = some b') : b'.Sound := by
  cases e with
  | login answer setItem =>
    cases hstep
    exact loggedIn_sound h hstores
  | loginWithGoogle credential answer setItem =>
    cases hstep
    unfold Tab.loginWithGoogle
    split
    · exact h
    · next hcredential => exact loggedIn_sound h (hstores hcredential)
  | signOut =>
    cases hstep
    exact .inl rfl
  | getAuthToken =>
    cases hstep
    rw [getAuthToken_sound h]
    exact h
  | reload =>
    cases hstep
    rcases load_cases h with hout | ⟨hsame, -⟩
    · exact .inl hout
    · rw [hsame]
      exact h
  | advance ms =>
    cases hstep
    rcases h with h | ⟨r, h⟩
    · exact .inl h
    · exact .inr ⟨r, h.record, h.truthy, h.userTruthy, h.entry⟩

/-- In a sound state a call is sound exactly if it comes in time. -/
theorem usedInTime_iff {b : Browser} (h : b.Sound) (e : BrowserEvent) : UsedInTime b e ↔ CalledInTime b e := by
  cases e with
  | getAuthToken =>
    simp only [UsedInTime, CalledInTime, getAuthToken_sound h, Prod.mk.injEq, and_imp]
    constructor
    · intro hused htruthy r hr
      obtain ⟨r', hr', hlt, -⟩ := hused b.tab.authToken b.tab rfl rfl htruthy
      rw [hr] at hr'
      cases hr'
      exact hlt
    · rintro hcalled _ _ rfl rfl htruthy
      rcases h with h | ⟨r, h⟩
      · rw [h] at htruthy
        cases htruthy
      · obtain ⟨session, hsession, -, huser, -⟩ := h.entry
        refine ⟨r, h.record, hcalled htruthy r h.record, ?_⟩
        rw [Tab.getSessionUser, hsession, StoredSession.user, huser]
        simp [h.userTruthy]
  | _ => exact Iff.rfl

/-- **A page that is loaded again drops a token that has expired**, if the times recorded are
neither zero nor infinite. -/
theorem reload_calledInTime {b b' : Browser} (h : b.Sound) (hreload : browserStep b .reload = some b')
    (htimes : ∀ r ∈ b.persisted, ∃ q : ℚ, q ≠ 0 ∧ r.expiresAt = .finite q) :
    CalledInTime b' .getAuthToken := by
  cases hreload
  intro htruthy r hr
  rcases load_cases h with hout | ⟨hsame, session, hsession, hexpired⟩
  · simp only [hout] at htruthy
    cases htruthy
  · simp only [hsame] at hr
    rcases h with hout | ⟨r', h⟩
    · rw [hout] at hsession
      cases hsession
    · obtain ⟨session', hsession', -, -, hexpires⟩ := h.entry
      rw [hsession] at hsession'
      cases hsession'
      obtain rfl : r' = r := Option.some.inj (h.record.symm.trans hr)
      obtain ⟨q, hq, hfinite⟩ := htimes r' (List.mem_of_find?_eq_some hr)
      rw [hfinite] at hexpires ⊢
      rw [expired, hexpires] at hexpired
      simpa [Value.reparsed, Value.truthy, Number.truthy, hq, Value.toNumber, Number.le, Number.lt]
        using hexpired

theorem start_sound (now : ℤ) : (Browser.start now).Sound := .inl rfl

/-- **When no expired session is used.** In every run whose logins store their sessions, the calls
that return a token are in time, and with the user of the token, exactly if none of them is made
on a page that has held its token past `expires_at`. -/
theorem session_expires_iff (now : ℤ) {es : List BrowserEvent}
    (hstores : Steps.Along browserStep LoginStores (.start now) es) :
    Steps.Along browserStep UsedInTime (.start now) es ↔
      Steps.Along browserStep CalledInTime (.start now) es := by
  have hsound := Steps.along_with_invariant (fun _ _ _ => browserStep_sound) (start_sound now) hstores
  constructor <;> intro h
  · exact Steps.along_mono (fun b e hb => (usedInTime_iff hb.1.2 e).mp hb.2) (Steps.along_and hsound h)
  · exact Steps.along_mono (fun b e hb => (usedInTime_iff hb.1.2 e).mpr hb.2) (Steps.along_and hsound h)

/-! ## One login -/

/-- Whole seconds are added to the time as they are. -/
theorem expiresAt_whole {now n : ℤ} {payload : Value}
    (h : payload.get "expires_in" = some (.num (.finite n))) (hn : n ≠ 0)
    (hms : |n * 1000| < 2 ^ 53) (hsum : |now + n * 1000| < 2 ^ 53) :
    expiresAt now payload = some (.finite ((now + n * 1000 : ℤ) : ℚ)) := by
  have hmul : Number.mul (.finite n) (.finite 1000) = .finite ((n * 1000 : ℤ) : ℚ) := by
    rw [← double_intCast hms]
    push_cast
    rfl
  have hadd : Number.add (.finite now) (.finite ((n * 1000 : ℤ) : ℚ)) = .finite ((now + n * 1000 : ℤ) : ℚ) := by
    rw [← double_intCast hsum]
    push_cast
    rfl
  have htruthy : Number.truthy (.finite n) = true := by simpa [Number.truthy] using hn
  simp only [expiresAt, h, Value.toNumber, Option.bind_eq_bind, Option.bind_some, htruthy, if_true, hmul, hadd]
  rfl

/-- A login answered with a token for some seconds. -/
def loginFor (seconds : ℤ) : BrowserEvent := .login (.ok (answerFor "a.b.c" "ada" seconds)) .stores

theorem loginFor_stores (b : Browser) (seconds : ℤ) : LoginStores b (loginFor seconds) := by
  intro payload hpayload token user htoken huser
  cases hpayload
  cases htoken
  cases huser
  exact ⟨rfl, rfl, by decide, rfl⟩

theorem loginFor_calledInTime_iff {seconds : ℤ} (hpos : 0 < seconds) (hlt : seconds < 10 ^ 9) (ms : ℕ)
    {b b' : Browser} (hb : browserStep (.start 0) (loginFor seconds) = some b)
    (hb' : browserStep b (.advance ms) = some b') :
    CalledInTime b' .getAuthToken ↔ (ms : ℤ) < seconds * 1000 := by
  have hms : |seconds * 1000| < 2 ^ 53 := by
    rw [abs_of_pos (by omega)]
    omega
  have hexpires : expiresAt (Browser.start 0).now (answerFor "a.b.c" "ada" seconds) =
      some (.finite ((0 + seconds * 1000 : ℤ) : ℚ)) := by
    refine expiresAt_whole rfl (by omega) hms ?_
    show |0 + seconds * 1000| < 2 ^ 53
    rwa [zero_add]
  have htoken : payloadToken (answerFor "a.b.c" "ada" seconds) = some (.str "a.b.c") := rfl
  have hlogin := loggedIn_stored htoken rfl hexpires (by decide)
  have hb : (Browser.start 0).loggedIn ((Browser.start 0).tab.login (Browser.start 0).now
      (.ok (answerFor "a.b.c" "ada" seconds)) .stores) = b := Option.some.inj hb
  rw [hlogin] at hb
  subst hb
  cases hb'
  have htime : Number.lt (.finite ((0 + (ms : ℤ) : ℤ) : ℚ)) (.finite ((0 + seconds * 1000 : ℤ) : ℚ)) = true ↔
      (ms : ℤ) < seconds * 1000 := by
    rw [Number.lt, decide_eq_true_eq, Int.cast_lt, zero_add, zero_add]
  constructor
  · exact fun h => htime.mp (h rfl _ rfl)
  · intro hlate _ r hr
    cases hr
    exact htime.mpr hlate

/-- An hour's token, used after a second. -/
theorem session_expires_iff_hour : Steps.Along browserStep UsedInTime (.start 0)
    [loginFor 3600, .advance 1000, .getAuthToken] := by
  have hstores : Steps.Along browserStep LoginStores (.start 0)
      [loginFor 3600, .advance 1000, .getAuthToken] :=
    ⟨loginFor_stores _ _, fun _ _ => ⟨trivial, fun _ _ => ⟨trivial, fun _ _ => trivial⟩⟩⟩
  refine (session_expires_iff 0 hstores).mpr ⟨trivial, fun b hb => ⟨trivial, fun b' hb' => ⟨?_, fun _ _ => trivial⟩⟩⟩
  exact (loginFor_calledInTime_iff (by decide) (by decide) 1000 hb hb').mpr (by decide)

/-- The token of a login for one second is still used after two. -/
theorem session_expires_fails :
    ¬ ∀ es : List BrowserEvent, Steps.Along browserStep UsedInTime (.start 0) es := by
  intro h
  obtain ⟨-, h⟩ := h [loginFor 1, .advance 2000, .getAuthToken]
  have hb := loggedIn_sound (start_sound 0) (loginFor_stores (.start 0) 1)
  obtain ⟨-, h⟩ := h _ rfl
  have hb' := browserStep_sound hb (e := .advance 2000) trivial rfl
  have hcalled := (usedInTime_iff hb' _).mp (h _ rfl).1
  exact absurd ((loginFor_calledInTime_iff (by decide) (by decide) 2000 rfl rfl).mp hcalled) (by decide)

end Synora
