import Synora.Lib.JsValue
import Synora.Lib.Steps

/- The lockout of the sign-in form in one tab (AuthScreen.jsx). The failed attempts and
   the end of a lockout are React states, and three entries of localStorage besides:
   the entries are read when the page loads, an interval clears them after a lockout,
   and so does a login. A request is sent only when no lockout is in force, and five of
   them at most are answered 401 between two resets; a lockout starts with the fifth, or
   with a submission made after it (`lockout_exact`).

   Correspondence (JavaScript ↔ Lean):
     the initialisers of `attempts`, `lockoutEnds`   ↔ `LoginTab.load`
     `handleLogin` up to and after `await login(…)`  ↔ `LoginTab.submit`, `LoginTab.answered`
     `completeLogin`                                 ↔ `LoginTab.completeLogin`
     the interval of the lockout effect              ↔ `LoginTab.tick`
     `describeAuthError`                             ↔ `describeAuthError`
     `auctoz_failed_attempts`                        ↔ `failedAttempts`
     `auctoz_attempts_timestamp`                     ↔ `attemptsTimestamp`
     `auctoz_lockout_ends`                           ↔ `storedEnds`
   Times are in milliseconds. The states set by an event are rendered, and its effects
   run, before the next event; a reload loses the request that is under way. -/
namespace Synora

/-! ## The form -/

structure LoginForm where
  email : String
  password : String
  siteKey : String
  captchaReady : Bool
  turnstileToken : String

/-- `s.trim()`. -/
def trimmed (s : String) : String :=
  String.ofList ((s.toList.dropWhile Js.isSpace).reverse.dropWhile Js.isSpace).reverse

/-- `s.length`, in UTF-16. -/
def utf16Length (s : String) : Nat := (s.toList.map fun c => if c.toNat < 0x10000 then 1 else 2).sum

/-- `/^[^\s@]+@[^\s@]+\.[^\s@]+$/`: one `@`, and after it a point with something on both sides. -/
def validateEmail (email : String) : Bool :=
  let name := email.toList.takeWhile (· ≠ '@')
  match email.toList.dropWhile (· ≠ '@') with
  | '@' :: domain => decide (name ≠ []) && (name ++ domain).all (fun c => !Js.isSpace c && c ≠ '@') &&
      decide ('.' ∈ domain.tail.dropLast)
  | _ => false

def validatePassword (password : String) : Bool := decide (8 ≤ utf16Length password)

/-- The checks before the attempts are looked at, in order. -/
def LoginForm.refusal (f : LoginForm) : Option String :=
  if trimmed f.email = "" ∨ f.password = "" then some "Email and password are required."
  else if validateEmail (trimmed f.email) = false then some "Please enter a valid email address."
  else if validatePassword f.password = false then
    some "Password must be at least 8 characters long."
  else if f.siteKey = "" then some "CAPTCHA is not configured. Please contact support."
  else if f.captchaReady = false ∨ f.turnstileToken = "" then
    some "Please complete the CAPTCHA verification before signing in."
  else none

/-! ## Errors -/

/-- What `login` throws; `retryAfter` is zero where it is no number. -/
structure LoginFailure where
  status : Option Nat
  code : Option String
  message : String
  retryAfter : Nat

/-- `a || b`, of texts. -/
def textOr (a b : String) : String := if a = "" then b else a

/-- A number of things, with the plural of their name. -/
def counted (n : Nat) (thing : String) : String := s!"{n} {thing}" ++ if n = 1 then "" else "s"

/-- `Math.ceil(n / d)`. -/
def ceilDiv (n d : Nat) : Nat := (n + d - 1) / d

def describeAuthError (e : LoginFailure) : String :=
  if e.status = some 429 then
    let wait := if e.retryAfter = 0 then 60 else e.retryAfter
    "Too many sign-in attempts. For security, please wait " ++ counted (ceilDiv wait 60) "minute" ++
      " before trying again."
  else if e.status = some 503 ∨ e.code = some "AUTH_UNAVAILABLE" then
    textOr e.message "Authentication service is temporarily unavailable. Please try again later."
  else match e.code with
  | some "NETWORK_ERROR" =>
    "Network connection failed. Please check your internet connection and try again."
  | some "SESSION_ERROR" => "Session creation failed. Please try again."
  | some "SESSION_STORAGE_ERROR" =>
    "Failed to store session. Your browser may have storage disabled. Please check your browser settings."
  | some "MISSING_GOOGLE_CREDENTIAL" =>
    "Google authentication failed. No credential received from Google."
  | some "INVALID_GOOGLE_CREDENTIAL" => "Google authentication failed. Invalid credential received."
  | some "VALIDATION_ERROR" => textOr e.message "Invalid input data provided."
  | some "POPUP_BLOCKED" =>
    "Google Sign-In popup was blocked. Please allow popups for this site and try again."
  | _ => textOr e.message "Authentication failed. Please check your credentials and try again."

/-- `error?.message?.toLowerCase().includes(word)`. -/
def LoginFailure.mentions (e : LoginFailure) (word : String) : Bool :=
  e.message.toLower.toList.tails.any word.toList.isPrefixOf

def LoginFailure.captchaError (e : LoginFailure) : Bool := e.mentions "captcha" || e.mentions "turnstile"

def LoginFailure.invalidCreds (e : LoginFailure) : Bool :=
  decide (e.status = some 401 ∨ e.code = some "INVALID_CREDENTIALS")

/-- What `await login(…)` comes to: a result, which may lack its token or user, or an error. -/
inductive LoginAnswer where
  | resolved (complete : Bool)
  | rejected (e : LoginFailure)

/-! ## The tab -/

inductive LockoutCause where
  | response
  | submission
  deriving DecidableEq

/-- What happened, with the time and the stored end of a lockout then. A reset may come while a
request is under way. -/
inductive LoginEntry where
  | sent (time : Nat) (ends : Option Nat)
  | answered401
  | reset (underWay : Bool)
  | lockedOut (cause : LockoutCause) (time : Nat) (ends : Option Nat)
  deriving DecidableEq

/-- `rendered` is the time of the last rendering, `submitting` the `attempts` of the closure that
waits for its answer, and `log` the history, newest first; no code reads the history. -/
structure LoginTab where
  now : Nat
  attempts : Nat
  lockoutEnds : Nat
  rendered : Nat
  notice : String
  submitting : Option Nat
  failedAttempts : Option Nat
  attemptsTimestamp : Option Nat
  storedEnds : Option Nat
  log : List LoginEntry

/-- The page in a browser that has no entries. -/
def LoginTab.opened (now : Nat) : LoginTab where
  now := now
  attempts := 0
  lockoutEnds := 0
  rendered := now
  notice := ""
  submitting := none
  failedAttempts := none
  attemptsTimestamp := none
  storedEnds := none
  log := []

def maxAttempts : Nat := 5
def lockoutDuration : Nat := 5 * 60 * 1000
def idleReset : Nat := 15 * 60 * 1000

namespace LoginTab

/-- `locked`, as it was rendered. -/
def locked (t : LoginTab) : Bool := decide (t.rendered < t.lockoutEnds)

def busy (t : LoginTab) : Bool := t.submitting.isSome

def showFeedback (t : LoginTab) (message : String) : LoginTab := { t with notice := message }

def render (t : LoginTab) : LoginTab := { t with rendered := t.now }

/-- The three entries are removed and the two states zero. -/
def clear (t : LoginTab) : LoginTab :=
  { t with
    attempts := 0
    lockoutEnds := 0
    failedAttempts := none
    attemptsTimestamp := none
    storedEnds := none
    log := .reset t.busy :: t.log }

/-- A lockout starts. -/
def lockOut (t : LoginTab) (cause : LockoutCause) : LoginTab :=
  { t with
    lockoutEnds := t.now + lockoutDuration
    storedEnds := some (t.now + lockoutDuration)
    log := .lockedOut cause t.now t.storedEnds :: t.log }

def submit (t : LoginTab) (f : LoginForm) : LoginTab :=
  if t.locked || t.busy then t
  else match f.refusal with
  | some message => (t.showFeedback message).render
  | none =>
    -- "additional protection": a lockout is over, but the interval has not come yet
    if maxAttempts ≤ t.attempts then
      ((t.lockOut .submission).showFeedback ("Too many failed attempts. For security, please wait " ++
        counted (ceilDiv lockoutDuration 60000) "minute" ++ " before trying again.")).render
    else
      ({ t with
        submitting := some t.attempts
        log := .sent t.now t.storedEnds :: t.log }.showFeedback "").render

def completeLogin (t : LoginTab) (complete : Bool) : LoginTab :=
  if complete then t.clear.showFeedback "Authentication successful! Redirecting..."
  else t.showFeedback
    "Authentication succeeded but the session could not be stored. Please try again."

/-- The 401 is counted, over the attempts of the closure. -/
def countAttempt (t : LoginTab) (attempts : Nat) : LoginTab :=
  { t with
    attempts := attempts + 1
    failedAttempts := some (attempts + 1)
    attemptsTimestamp := some t.now
    log := .answered401 :: t.log }

def invalidCredentials (t : LoginTab) (attempts : Nat) : LoginTab :=
  if maxAttempts ≤ attempts + 1 then
    ((t.countAttempt attempts).lockOut .response).showFeedback
      s!"Too many failed attempts. Account locked for {ceilDiv lockoutDuration 60000} minutes."
  else (t.countAttempt attempts).showFeedback
    ("Invalid credentials. " ++ counted (maxAttempts - (attempts + 1)) "attempt" ++ " remaining.")

/-- The answer, to the closure that has these attempts. -/
def answered (t : LoginTab) (attempts : Nat) (answer : LoginAnswer) : LoginTab :=
  let t := { t with submitting := none }
  render (match answer with
  | .resolved complete => t.completeLogin complete
  | .rejected e =>
    if e.status = some 429 then t.showFeedback (describeAuthError e)
    else if e.captchaError then
      t.showFeedback "CAPTCHA verification failed. Please complete the verification again."
    else if e.invalidCreds = false then t.showFeedback (describeAuthError e)
    else t.invalidCredentials attempts)

/-- There is an interval while there is an end. -/
def tick (t : LoginTab) : Option LoginTab :=
  if t.lockoutEnds = 0 then none
  else if t.lockoutEnds ≤ t.now then some t.clear.render
  else some t.render

/-- The failed attempts are forgotten when they are old. -/
def forgetIdle (t : LoginTab) : LoginTab :=
  if t.attemptsTimestamp.any fun timestamp => decide (idleReset < t.now - timestamp) then
    { t with failedAttempts := none, attemptsTimestamp := none, log := .reset false :: t.log }
  else t

/-- The page is loaded again. -/
def load (t : LoginTab) : LoginTab :=
  let t := t.forgetIdle
  ({ t with
    attempts := t.failedAttempts.getD 0
    lockoutEnds := t.storedEnds.getD 0
    submitting := none }.showFeedback "").render

end LoginTab

inductive LoginEvent where
  | submit (f : LoginForm)
  | answered (answer : LoginAnswer)
  | tick
  | render
  | reload
  | wait (ms : Nat)

def loginStep (t : LoginTab) : LoginEvent → Option LoginTab
  | .submit f => some (t.submit f)
  | .answered answer => t.submitting.map fun attempts => t.answered attempts answer
  | .tick => t.tick
  | .render => some t.render
  | .reload => some t.load
  | .wait ms => some { t with now := t.now + ms }

/-! ## The history -/

/-- The 401s since the last reset. -/
def wrongs : List LoginEntry → Nat
  | [] => 0
  | .reset _ :: _ => 0
  | .answered401 :: log => wrongs log + 1
  | .sent _ _ :: log | .lockedOut _ _ _ :: log => wrongs log

/-- Whether the last reset came while a request was under way. -/
def lastReset : List LoginEntry → Option Bool
  | [] => none
  | .reset underWay :: _ => some underWay
  | .answered401 :: log | .sent _ _ :: log | .lockedOut _ _ _ :: log => lastReset log

/-- **The lockout machine.** No request is sent while a lockout is in force; at no time have more
than five been answered 401 since the last reset; and a lockout starts when none is in force,
with the fifth of them or with a submission after it. What follows a reset that came while a
request was under way is left open in the last. -/
structure Lockouts (log : List LoginEntry) : Prop where
  sent : ∀ time ends, .sent time (some ends) ∈ log → ends ≤ time
  five : ∀ l, l <:+ log → wrongs l ≤ 5
  free : ∀ cause time ends, .lockedOut cause time (some ends) ∈ log → ends ≤ time
  started : ∀ cause time ends l, .lockedOut cause time ends :: l <:+ log → lastReset l ≠ some true →
    wrongs l = 5 ∧ (cause = .response → l.head? = some .answered401)

theorem lockouts_nil : Lockouts [] where
  sent _ _ h := absurd h List.not_mem_nil
  five l h := by
    rw [List.suffix_nil.mp h]
    exact Nat.zero_le 5
  free _ _ _ h := absurd h List.not_mem_nil
  started _ _ _ _ h := absurd (List.suffix_nil.mp h) (List.cons_ne_nil _ _)

theorem Lockouts.cons {log : List LoginEntry} {x : LoginEntry} (h : Lockouts log)
    (hsent : ∀ time ends, x = .sent time (some ends) → ends ≤ time) (hfive : wrongs (x :: log) ≤ 5)
    (hlocked : ∀ cause time ends, x = .lockedOut cause time ends → (∀ e, ends = some e → e ≤ time) ∧
      (lastReset log ≠ some true →
        wrongs log = 5 ∧ (cause = .response → log.head? = some .answered401))) :
    Lockouts (x :: log) where
  sent time ends hmem := by
    rcases List.mem_cons.mp hmem with heq | hmem
    · exact hsent time ends heq.symm
    · exact h.sent time ends hmem
  five l hl := by
    rcases List.suffix_cons_iff.mp hl with rfl | hl
    · exact hfive
    · exact h.five l hl
  free cause time ends hmem := by
    rcases List.mem_cons.mp hmem with heq | hmem
    · exact (hlocked cause time (some ends) heq.symm).1 ends rfl
    · exact h.free cause time ends hmem
  started cause time ends l hl := by
    rcases List.suffix_cons_iff.mp hl with heq | hl
    · obtain ⟨hx, rfl⟩ := List.cons.inj heq
      exact (hlocked cause time ends hx.symm).2
    · exact h.started cause time ends l hl

/-! ## The invariant -/

/-- The states are what the entries say, and count the 401s since the last reset, unless that
reset came between a request and its answer. -/
structure LoginTab.Exact (t : LoginTab) : Prop where
  attempts : t.attempts = t.failedAttempts.getD 0
  ends : t.lockoutEnds = t.storedEnds.getD 0
  rendered : t.rendered ≤ t.now
  five : t.attempts ≤ 5
  wrongs : wrongs t.log ≤ t.attempts
  underWay : ∀ k, t.submitting = some k → k < 5 ∧ Synora.wrongs t.log ≤ k ∧ t.lockoutEnds ≤ t.now
  exact : lastReset t.log ≠ some true →
    Synora.wrongs t.log = t.attempts ∧ ∀ k, t.submitting = some k → k = t.attempts
  log : Lockouts t.log

theorem exact_opened (now : Nat) : (LoginTab.opened now).Exact where
  attempts := rfl
  ends := rfl
  rendered := Nat.le_refl now
  five := Nat.zero_le 5
  wrongs := Nat.le_refl 0
  underWay k h := by cases h
  exact _ := ⟨rfl, fun k h => by cases h⟩
  log := lockouts_nil

namespace LoginTab.Exact

variable {t : LoginTab}

theorem showFeedback (h : t.Exact) (message : String) : (t.showFeedback message).Exact :=
  { h with }

theorem render (h : t.Exact) : t.render.Exact :=
  { h with rendered := Nat.le_refl t.now }

theorem wait (h : t.Exact) (ms : Nat) : ({ t with now := t.now + ms } : LoginTab).Exact :=
  { h with
    rendered := Nat.le_trans h.rendered (Nat.le_add_right _ ms)
    underWay := fun k hk => by
      obtain ⟨hfive, hwrongs, hends⟩ := h.underWay k hk
      exact ⟨hfive, hwrongs, Nat.le_trans hends (Nat.le_add_right _ ms)⟩ }

/-- The end that is stored is that of the state. -/
theorem stored_le (h : t.Exact) (hends : t.lockoutEnds ≤ t.now) {e : Nat} (he : t.storedEnds = some e) :
    e ≤ t.now := by
  have hstate : t.lockoutEnds = e := by rw [h.ends, he, Option.getD_some]
  omega

theorem clear (h : t.Exact) : t.clear.Exact where
  attempts := rfl
  ends := rfl
  rendered := h.rendered
  five := Nat.zero_le 5
  wrongs := Nat.le_refl 0
  underWay k hk := ⟨(h.underWay k hk).1, Nat.zero_le k, Nat.zero_le _⟩
  exact hreset := by
    -- not while a request is under way, so there is none
    refine ⟨rfl, fun k hk => ?_⟩
    have hbusy : t.busy = true := by
      unfold LoginTab.busy
      rw [show t.submitting = some k from hk]
      rfl
    exact absurd (congrArg some hbusy) hreset
  log := h.log.cons (fun _ _ hx => by cases hx) (Nat.zero_le 5) (fun _ _ _ hx => by cases hx)

/-- A lockout starts after the fifth 401, with none in force and no request under way. -/
theorem lockOut (h : t.Exact) {cause : LockoutCause} (hends : t.lockoutEnds ≤ t.now)
    (hidle : t.submitting = none) (hfive : t.attempts = 5)
    (hcause : cause = .response → t.log.head? = some .answered401) : (t.lockOut cause).Exact where
  attempts := h.attempts
  ends := rfl
  rendered := h.rendered
  five := h.five
  wrongs := h.wrongs
  underWay k hk := by
    rw [show t.submitting = some k from hk] at hidle
    cases hidle
  exact := h.exact
  log := by
    apply h.log.cons (fun _ _ hx => by cases hx) (Nat.le_trans h.wrongs h.five)
    intro cause' time ends hx
    obtain ⟨rfl, rfl, rfl⟩ := LoginEntry.lockedOut.inj hx
    refine ⟨fun e he => h.stored_le hends he, fun hreset => ⟨?_, hcause⟩⟩
    exact (h.exact hreset).1.trans hfive

/-- Where the page takes a submission, no request is under way, and no lockout is in force: it was
none when the page was rendered. -/
theorem free (h : t.Exact) (hfree : ¬ (t.locked || t.busy) = true) :
    t.submitting = none ∧ t.lockoutEnds ≤ t.now := by
  simp only [LoginTab.locked, LoginTab.busy, Bool.or_eq_true, decide_eq_true_eq, not_or,
    Option.not_isSome_iff_eq_none] at hfree
  obtain ⟨hunlocked, hidle⟩ := hfree
  have hrendered := h.rendered
  exact ⟨hidle, by omega⟩

/-- A request is sent, with the attempts there are. -/
theorem send (h : t.Exact) (hends : t.lockoutEnds ≤ t.now) (hlt : t.attempts < 5) :
    ({ t with submitting := some t.attempts, log := .sent t.now t.storedEnds :: t.log } : LoginTab).Exact where
  attempts := h.attempts
  ends := h.ends
  rendered := h.rendered
  five := h.five
  wrongs := h.wrongs
  underWay k hk := by
    obtain rfl : t.attempts = k := Option.some.inj hk
    exact ⟨hlt, h.wrongs, hends⟩
  exact hreset := ⟨(h.exact hreset).1, fun _ hk => (Option.some.inj hk).symm⟩
  log := by
    apply h.log.cons _ (Nat.le_trans h.wrongs h.five) (fun _ _ _ hx => by cases hx)
    intro time ends hx
    obtain ⟨rfl, he⟩ := LoginEntry.sent.inj hx
    exact h.stored_le hends he

theorem submit (h : t.Exact) (f : LoginForm) : (t.submit f).Exact := by
  unfold LoginTab.submit
  split
  · exact h
  · next hfree =>
    obtain ⟨hidle, hends⟩ := h.free hfree
    split
    · exact (h.showFeedback _).render
    · split
      · next hmax =>
        have hfive : t.attempts = 5 := Nat.le_antisymm h.five hmax
        exact ((h.lockOut hends hidle hfive (fun hc => by cases hc)).showFeedback _).render
      · next hmax =>
        have hlt : t.attempts < 5 := Nat.lt_of_not_le hmax
        exact ((h.send hends hlt).showFeedback "").render

/-- The request is no longer under way. -/
theorem ended (h : t.Exact) : ({ t with submitting := none } : LoginTab).Exact :=
  { h with
    underWay := fun k hk => by cases hk
    exact := fun hreset => ⟨(h.exact hreset).1, fun k hk => by cases hk⟩ }

/-- A 401 is counted over the attempts that the closure of its request has. -/
theorem countAttempt {attempts : Nat} (h : t.Exact) (hk : t.submitting = some attempts) :
    (({ t with submitting := none } : LoginTab).countAttempt attempts).Exact := by
  obtain ⟨hfive, hwrongs, hends⟩ := h.underWay attempts hk
  exact {
    attempts := rfl
    ends := h.ends
    rendered := h.rendered
    five := hfive
    wrongs := Nat.succ_le_succ hwrongs
    underWay := fun k hk => by cases hk
    exact := fun hreset => by
      obtain ⟨hcount, hattempts⟩ := h.exact hreset
      refine ⟨?_, fun k hk => by cases hk⟩
      show Synora.wrongs t.log + 1 = attempts + 1
      rw [hcount, hattempts attempts hk]
    log := h.log.cons (fun _ _ hx => by cases hx) (Nat.succ_le_of_lt (Nat.lt_of_le_of_lt hwrongs hfive))
      (fun _ _ _ hx => by cases hx) }

theorem answered {attempts : Nat} (h : t.Exact) (hk : t.submitting = some attempts)
    (answer : LoginAnswer) : (t.answered attempts answer).Exact := by
  obtain ⟨hfive, hwrongs, hends⟩ := h.underWay attempts hk
  unfold LoginTab.answered
  apply LoginTab.Exact.render
  cases answer with
  | resolved complete =>
    show (LoginTab.completeLogin _ complete).Exact
    unfold LoginTab.completeLogin
    split
    · exact h.ended.clear.showFeedback _
    · exact h.ended.showFeedback _
  | rejected e =>
    dsimp only
    split
    · exact h.ended.showFeedback _
    · split
      · exact h.ended.showFeedback _
      · split
        · exact h.ended.showFeedback _
        · unfold LoginTab.invalidCredentials
          split
          · next hmax =>
            have hcount : attempts + 1 = 5 := Nat.le_antisymm hfive hmax
            exact ((h.countAttempt hk).lockOut hends rfl hcount (fun _ => rfl)).showFeedback _
          · exact (h.countAttempt hk).showFeedback _

theorem forgetIdle (h : t.Exact) : ({ t.forgetIdle with
    attempts := t.forgetIdle.failedAttempts.getD 0
    submitting := none } : LoginTab).Exact := by
  unfold LoginTab.forgetIdle
  split
  · exact {
      attempts := rfl
      ends := h.ends
      rendered := h.rendered
      five := Nat.zero_le 5
      wrongs := Nat.le_refl 0
      underWay := fun k hk => by cases hk
      exact := fun _ => ⟨rfl, fun k hk => by cases hk⟩
      log := h.log.cons (fun _ _ hx => by cases hx) (Nat.zero_le 5) (fun _ _ _ hx => by cases hx) }
  · rw [← h.attempts]
    exact h.ended

theorem load (h : t.Exact) : t.load.Exact := by
  have hends : t.forgetIdle.storedEnds.getD 0 = t.forgetIdle.lockoutEnds := by
    unfold LoginTab.forgetIdle
    split
    · exact h.ends.symm
    · exact h.ends.symm
  unfold LoginTab.load
  apply LoginTab.Exact.render
  apply LoginTab.Exact.showFeedback
  rw [hends]
  exact h.forgetIdle

end LoginTab.Exact

theorem loginStep_exact {t t' : LoginTab} {e : LoginEvent} (h : t.Exact) (hst : loginStep t e = some t') :
    t'.Exact := by
  cases e with
  | submit f =>
    cases hst
    exact h.submit f
  | answered answer =>
    obtain ⟨attempts, hk, rfl⟩ := Option.map_eq_some_iff.mp hst
    exact h.answered hk answer
  | tick =>
    simp only [loginStep, LoginTab.tick] at hst
    split at hst
    · cases hst
    · split at hst
      · cases hst
        exact h.clear.render
      · cases hst
        exact h.render
  | render =>
    cases hst
    exact h.render
  | reload =>
    cases hst
    exact h.load
  | wait ms =>
    cases hst
    exact h.wait ms

/-- **The lockout machine is exact**, for every sequence of submissions with any answers, ticks,
renderings, reloads and waits. -/
theorem lockout_exact {now : Nat} {es : List LoginEvent} {t : LoginTab}
    (hrun : Steps.run loginStep (LoginTab.opened now) es = some t) : Lockouts t.log := by
  have hexact : t.Exact :=
    Steps.reach_invariant (I := LoginTab.Exact) (fun _ _ _ hI _ hst => loginStep_exact hI hst)
      (exact_opened now) (Steps.reach_run hrun)
  exact hexact.log

/-- A form that passes the checks of the page. -/
def filledForm : LoginForm := ⟨"a@b.c", "password", "key", true, "token"⟩

def wrongPassword : LoginAnswer :=
  .rejected ⟨some 401, some "INVALID_CREDENTIALS", "Email or password is incorrect", 0⟩

/-- Five wrong passwords; after the lockout the page is loaded again, and a submission comes
before the interval. -/
def fiveWrong : List LoginEvent :=
  (List.replicate 5 [.submit filledForm, .answered wrongPassword]).flatten ++
    [.wait 300000, .reload, .submit filledForm]

/-- What the page has done then: the submission starts a lockout. -/
def fiveWrongLog : List LoginEntry :=
  .lockedOut .submission 301000 (some 301000) :: .lockedOut .response 1000 none ::
    (List.replicate 5 [.answered401, .sent 1000 none]).flatten

theorem lockout_exact_fiveWrong : ∃ t, Steps.run loginStep (LoginTab.opened 1000) fiveWrong = some t ∧
    t.log = fiveWrongLog ∧ Lockouts t.log := by
  obtain ⟨t, hrun, hlog⟩ := Steps.exists_of_check loginStep (LoginTab.opened 1000) fiveWrong
    (fun t => decide (t.log = fiveWrongLog)) (by decide +kernel)
  exact ⟨t, hrun, of_decide_eq_true hlog, lockout_exact hrun⟩

/-- A reset while a request is under way: the lockout is over but still stored, the attempts are
forgotten, and the interval comes before the second answer. The lockout then starts with the
fourth 401. -/
example : ((Steps.run loginStep (LoginTab.opened 1000) ((List.replicate 5
    [.submit filledForm, .answered wrongPassword]).flatten ++ [.wait 900001, .reload,
    .submit filledForm, .answered wrongPassword, .submit filledForm, .tick, .answered wrongPassword] ++
    (List.replicate 3 [.submit filledForm, .answered wrongPassword]).flatten)).map fun t =>
    (t.log.head?, wrongs t.log, lastReset t.log)) =
      some (some (.lockedOut .response 901001 none), 4, some true) := by
  decide +kernel

/-- The law fails for the lockout that the submission starts. -/
theorem lockout_by_response_fails : ¬ ∀ (now : Nat) (es : List LoginEvent) (t : LoginTab),
    Steps.run loginStep (LoginTab.opened now) es = some t →
    (∀ time ends, .sent time (some ends) ∈ t.log → ends ≤ time) ∧ (∀ l, l <:+ t.log → wrongs l ≤ 5) ∧
      ∀ cause time ends l, .lockedOut cause time ends :: l <:+ t.log →
        cause = .response ∧ wrongs l = 5 ∧ l.head? = some .answered401 := by
  intro h
  obtain ⟨t, hrun, hlog⟩ := Steps.exists_of_check loginStep (LoginTab.opened 1000) fiveWrong
    (fun t => decide (t.log = fiveWrongLog)) (by decide +kernel)
  obtain ⟨-, -, hlocked⟩ := h 1000 fiveWrong t hrun
  rw [of_decide_eq_true hlog] at hlocked
  obtain ⟨hcause, -⟩ := hlocked .submission 301000 (some 301000) _ (List.suffix_refl _)
  cases hcause

end Synora
