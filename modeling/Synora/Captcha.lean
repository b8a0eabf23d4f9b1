import Synora.Lockout

/- The CAPTCHA of the sign-in form (AuthScreen.jsx), over the lockout of the form. An
   effect waits for the script of Turnstile, may be cancelled meanwhile, and renders the
   widget; callbacks of the widget set the token. In whatever order scripts load, forms
   are switched and answers come, there is one widget at most, a login carries the token
   that this widget would answer with, and no token comes back after its login was
   rejected (`captcha_sound`).

   Correspondence (JavaScript ↔ Lean):
     `mountTurnstile` and what its effect returns     ↔ `AuthScreen.mount`, `AuthScreen.cleanup`
     `loadScript(TURNSTILE_SRC)`                      ↔ `ScriptTag`, `Awaited`
     what follows `await loadScript(…)`, its `catch`  ↔ `AuthScreen.goOn`
     `turnstile.render`, `.remove`, `.reset`          ↔ `widgets`
     the callbacks of the widget                      ↔ `.solved` … `.failed`
     `resetTurnstile`, `switchMode`, `handleRegister` ↔ the same
     `handleLogin`                                    ↔ `AuthScreen.submit`, `AuthScreen.answered`
     the callback of Google, its end                  ↔ `.credential`, `.googleAnswered`
   `siteKey` is `TURNSTILE_SITE_KEY`. Rendering is an event of its own; the page is not left
   while a request is under way. -/
namespace Synora

/-! ## The page -/

/-- The script element of Turnstile in the document. -/
inductive ScriptTag where
  | absent
  | loading
  | loaded
  | failed
  deriving DecidableEq

/-- The promise of `loadScript`. -/
inductive Awaited where
  | pending
  | resolved
  | rejected
  deriving DecidableEq

/-- Only a script that has loaded settles at once, and only one that is loading settles at all. -/
def ScriptTag.awaited : ScriptTag → Awaited
  | .loaded => .resolved
  | .absent | .loading | .failed => .pending

def ScriptTag.requested : ScriptTag → ScriptTag
  | .absent => .loading
  | s => s

/-- A run of the effect that waits for the script. -/
structure Mount where
  cancelled : Bool
  awaited : Awaited
  deriving DecidableEq

def Mount.cancel (m : Mount) : Mount := { m with cancelled := true }

/-- The promises that are pending settle. -/
def Mount.settle (a : Awaited) (m : Mount) : Mount :=
  if m.awaited = .pending then { m with awaited := a } else m

/-- A widget of Turnstile on the page, and the token it would answer with. -/
structure Widget where
  id : Nat
  response : Option String
  deriving DecidableEq

def Widget.respond (w : Option Nat) (response : Option String) (x : Widget) : Widget :=
  if some x.id = w then { x with response := response } else x

/-- What happened to the tokens. A login is sent with the widgets on the page then. -/
inductive CaptchaEntry where
  | given (token : String)
  | sent (token : String) (widgets : List Widget)
  | resolved (token : String)
  | rejected (token : String)
  deriving DecidableEq

/-- `rendered` counts the widgets, `inFlight` is the token of the closure that waits for its
answer, and `log` the history, newest first; no code reads the history. -/
structure AuthScreen where
  tab : LoginTab
  registering : Bool
  script : ScriptTag
  mounts : List Mount
  widgets : List Widget
  rendered : Nat
  turnstileWidget : Option Nat
  turnstileToken : String
  captchaReady : Bool
  captchaLoading : Bool
  googleSubmitting : Bool
  googleCalls : Nat
  inFlight : Option String
  log : List CaptchaEntry

/-- `/^[a-zA-Z0-9_-]{32,}$/`. -/
def validSiteKey (siteKey : String) : Bool :=
  decide (32 ≤ siteKey.length) &&
    siteKey.toList.all fun c => c.isAlphanum || decide (c = '_') || decide (c = '-')

namespace AuthScreen

def showFeedback (p : AuthScreen) (message : String) : AuthScreen :=
  { p with tab := p.tab.showFeedback message }

def busy (p : AuthScreen) : Bool := p.tab.busy || p.googleSubmitting

/-- `turnstile.remove(turnstileWidget.current)`, if there is one. -/
def remove (p : AuthScreen) : AuthScreen :=
  { p with widgets := p.widgets.filter fun x => decide (some x.id ≠ p.turnstileWidget) }

def resetTurnstile (p : AuthScreen) : AuthScreen :=
  { p with
    turnstileToken := ""
    captchaReady := false
    widgets := p.widgets.map (Widget.respond p.turnstileWidget none) }

/-- What the effect returns. -/
def cleanup (p : AuthScreen) : AuthScreen :=
  { p.remove with
    mounts := p.mounts.map Mount.cancel
    turnstileWidget := none
    captchaReady := false
    captchaLoading := false }

/-- The `catch` of `mountTurnstile`. -/
def captchaFails (p : AuthScreen) (cancelled : Bool) : AuthScreen :=
  let p := { p with captchaReady := false, captchaLoading := false }
  if cancelled then p
  else p.showFeedback "CAPTCHA failed to load. Please check your network connection and try again."

/-- What follows `await loadScript(…)`: `turnstile` says that `window.turnstile` is there, and
`renders` that `render` returns. The host is part of the sign-in form. -/
def goOn (p : AuthScreen) (m : Mount) (turnstile renders : Bool) : AuthScreen :=
  if m.awaited = .rejected then p.captchaFails m.cancelled
  else if m.cancelled || !turnstile || p.registering then
    let p := { p with captchaLoading := false }
    if m.cancelled then p
    else p.showFeedback
      "CAPTCHA failed to load. The Cloudflare Turnstile library may be blocked or unavailable."
  else
    let p := { p.remove with captchaReady := false, turnstileToken := "" }
    if renders then
      { p with
        widgets := p.widgets ++ [⟨p.rendered, none⟩]
        rendered := p.rendered + 1
        turnstileWidget := some p.rendered }
    else p.captchaFails m.cancelled

def solve (p : AuthScreen) (w : Nat) (token : String) : AuthScreen :=
  { p with
    turnstileToken := token
    captchaReady := true
    captchaLoading := false
    widgets := p.widgets.map (Widget.respond (some w) (some token))
    log := .given token :: p.log }

/-- The callbacks that take the token back. -/
def unsolve (p : AuthScreen) (w : Nat) (message : String) : AuthScreen :=
  { p.showFeedback message with
    turnstileToken := ""
    captchaReady := false
    widgets := p.widgets.map (Widget.respond (some w) none) }

/-- Not while a request is under way; and the form reads the states as they were rendered. -/
def handleRegister (p : AuthScreen) (email password confirm : String) (terms : Bool) : AuthScreen :=
  if p.tab.locked || p.busy then p
  else if trimmed email = "" ∨ validateEmail (trimmed email) = false then
    p.showFeedback "Please enter a valid email address."
  else if password = "" ∨ validatePassword password = false then
    p.showFeedback "Password must be at least 8 characters long."
  else if password ≠ confirm then p.showFeedback "Password confirmation does not match."
  else if terms = false then
    p.showFeedback "You must accept the institutional platform terms to register."
  else p.showFeedback
    "Registration is currently unavailable. Please contact support for account creation."

def answered (p : AuthScreen) (answer : LoginAnswer) : Option AuthScreen :=
  match p.tab.submitting, p.inFlight with
  | some attempts, some token =>
    let p := { p with tab := p.tab.answered attempts answer, inFlight := none }
    match answer with
    | .resolved _ => some { p with log := .resolved token :: p.log }
    | .rejected _ => some { p.resetTurnstile with log := .rejected token :: p.log }
  | _, _ => none

/-- The end of the callback of Google. -/
def googleAnswered (p : AuthScreen) (answer : LoginAnswer) : AuthScreen :=
  { p with
    tab := match answer with
      | .resolved complete => p.tab.completeLogin complete
      | .rejected e => p.tab.showFeedback (describeAuthError e)
    googleSubmitting := false
    googleCalls := p.googleCalls - 1 }

section
variable (siteKey : String)

/-- The effect of `[mode]`. -/
def mount (p : AuthScreen) : AuthScreen :=
  if siteKey = "" then p.showFeedback
    "CAPTCHA is not configured. Please set VITE_TURNSTILE_SITE_KEY in your environment variables."
  else if p.registering then p
  else if validSiteKey siteKey = false then
    { p.showFeedback ("Invalid CAPTCHA configuration. The site key format is incorrect. " ++
      "Expected 32+ alphanumeric characters.") with captchaLoading := false }
  else
    { p with
      captchaLoading := true
      script := p.script.requested
      mounts := p.mounts ++ [⟨false, p.script.awaited⟩] }

def loginForm (p : AuthScreen) (email password : String) : LoginForm :=
  ⟨email, password, siteKey, p.captchaReady, p.turnstileToken⟩

def submit (p : AuthScreen) (email password : String) : AuthScreen :=
  if p.busy then p
  else
    let tab := p.tab.submit (p.loginForm siteKey email password)
    if tab.busy then
      { p with
        tab := tab
        inFlight := some p.turnstileToken
        log := .sent p.turnstileToken p.widgets :: p.log }
    else { p with tab := tab }

def switchMode (p : AuthScreen) : AuthScreen :=
  ({ p.showFeedback "" with registering := !p.registering }.resetTurnstile.cleanup).mount siteKey

/-- The page is mounted anew, in a document with this script. -/
def load (p : AuthScreen) (script : ScriptTag) : AuthScreen :=
  { p with
    tab := p.tab.load
    registering := false
    script := script
    mounts := []
    widgets := []
    turnstileWidget := none
    turnstileToken := ""
    captchaReady := false
    captchaLoading := false
    googleSubmitting := false
    googleCalls := 0
    inFlight := none }.mount siteKey

/-- The page in a browser that has no entries. -/
def opened (now : Nat) : AuthScreen :=
  { tab := .opened now
    registering := false
    script := .absent
    mounts := []
    widgets := []
    rendered := 0
    turnstileWidget := none
    turnstileToken := ""
    captchaReady := false
    captchaLoading := false
    googleSubmitting := false
    googleCalls := 0
    inFlight := none
    log := [] : AuthScreen }.mount siteKey

end

end AuthScreen

inductive ScreenEvent where
  | submit (email password : String)
  | answered (answer : LoginAnswer)
  | register (email password confirm : String) (terms : Bool)
  | switchMode
  | scriptLoads
  | scriptFails
  /-- The `i`-th run of the effect that waits. -/
  | goOn (i : Nat) (turnstile renders : Bool)
  | solved (w : Nat) (token : String)
  | expired (w : Nat)
  | timedOut (w : Nat)
  | failed (w : Nat)
  | credential
  | googleAnswered (answer : LoginAnswer)
  | tick
  | render
  | wait (ms : Nat)
  /-- The effect is run twice in development (`StrictMode`). -/
  | remount
  /-- The route comes back to the page. -/
  | reopen
  | reload

/-- A callback comes of a widget on the page only. -/
def AuthScreen.callback (p : AuthScreen) (w : Nat) (next : AuthScreen) : Option AuthScreen :=
  if p.widgets.any fun x => decide (x.id = w) then some next else none

section
variable (siteKey : String)

def screenStep (p : AuthScreen) : ScreenEvent → Option AuthScreen
  | .submit email password => if p.registering then none else some (p.submit siteKey email password)
  | .answered answer => p.answered answer
  | .register email password confirm terms =>
    if p.registering then some (p.handleRegister email password confirm terms) else none
  -- the button is disabled while a request is under way
  | .switchMode => if p.busy then none else some (p.switchMode siteKey)
  | .scriptLoads =>
    if p.script = .loading then
      some { p with script := .loaded, mounts := p.mounts.map (Mount.settle .resolved) }
    else none
  | .scriptFails =>
    if p.script = .loading then
      some { p with script := .failed, mounts := p.mounts.map (Mount.settle .rejected) }
    else none
  | .goOn i turnstile renders =>
    match p.mounts[i]? with
    | some m =>
      if m.awaited = .pending then none
      else some ({ p with mounts := p.mounts.eraseIdx i }.goOn m turnstile renders)
    | none => none
  | .solved w token => p.callback w (p.solve w token)
  | .expired w => p.callback w (p.unsolve w "CAPTCHA expired. Please complete verification again.")
  | .timedOut w => p.callback w (p.unsolve w "CAPTCHA timed out. Please complete verification again.")
  | .failed w =>
    p.callback w { p.unsolve w "CAPTCHA verification failed. Please try again." with captchaLoading := false }
  | .credential =>
    some { p.showFeedback "" with googleSubmitting := true, googleCalls := p.googleCalls + 1 }
  | .googleAnswered answer => if p.googleCalls = 0 then none else some (p.googleAnswered answer)
  | .tick => p.tab.tick.map fun tab => { p with tab := tab }
  | .render => some { p with tab := p.tab.render }
  | .wait ms => some { p with tab := { p.tab with now := p.tab.now + ms } }
  | .remount => some (p.cleanup.mount siteKey)
  | .reopen => if p.busy then none else some (p.load siteKey p.script)
  | .reload => some (p.load siteKey .absent)

end

/-! ## The history -/

/-- **What is asked of the tokens**: a login is sent with the token that the one widget on the page
would answer with then; and no login with that token was rejected before. -/
structure TokensKept (log : List CaptchaEntry) : Prop where
  current : ∀ token widgets, .sent token widgets ∈ log → ∃ w, widgets = [⟨w, some token⟩]
  once : ∀ token widgets l, .sent token widgets :: l <:+ log → .rejected token ∉ l

def ScreenEvent.gives : ScreenEvent → Option String
  | .solved _ token => some token
  | _ => none

/-- A token that a widget gives is a new one. -/
def GivesNew (p : AuthScreen) (e : ScreenEvent) : Prop := ∀ token ∈ e.gives, .given token ∉ p.log

instance (p : AuthScreen) (e : ScreenEvent) : Decidable (GivesNew p e) :=
  inferInstanceAs (Decidable (∀ token ∈ e.gives, .given token ∉ p.log))

theorem tokensKept_nil : TokensKept [] where
  current _ _ h := absurd h List.not_mem_nil
  once _ _ _ h := absurd (List.suffix_nil.mp h) (List.cons_ne_nil _ _)

theorem TokensKept.cons {log : List CaptchaEntry} {x : CaptchaEntry} (h : TokensKept log)
    (hsent : ∀ token widgets, x = .sent token widgets →
      (∃ w, widgets = [⟨w, some token⟩]) ∧ .rejected token ∉ log) : TokensKept (x :: log) where
  current token widgets hmem := by
    rcases List.mem_cons.mp hmem with heq | hmem
    · exact (hsent token widgets heq.symm).1
    · exact h.current token widgets hmem
  once token widgets l hl := by
    rcases List.suffix_cons_iff.mp hl with heq | hl
    · obtain ⟨hx, rfl⟩ := List.cons.inj heq
      exact (hsent token widgets hx.symm).2
    · exact h.once token widgets l hl

/-! ## The invariant -/

/-- The widget on the page is the one that the page knows, and part of the sign-in form. -/
structure AuthScreen.Placed (p : AuthScreen) : Prop where
  form : p.registering = true → p.widgets = []
  one : p.widgets = [] ∨ ∃ x, p.widgets = [x] ∧ p.turnstileWidget = some x.id

/-- While the CAPTCHA is ready, its token is the one that the widget would answer with, and no login
with it was rejected. -/
structure AuthScreen.Sound (p : AuthScreen) : Prop where
  tab : p.tab.Exact
  inFlight : p.inFlight.isSome = p.tab.busy
  placed : p.Placed
  ready : p.captchaReady = true → ∃ w, p.widgets = [⟨w, some p.turnstileToken⟩]
  unspent : p.captchaReady = true → .given p.turnstileToken ∈ p.log ∧ .rejected p.turnstileToken ∉ p.log
  sent : ∀ token, p.inFlight = some token → .given token ∈ p.log
  rejected : ∀ token, .rejected token ∈ p.log → .given token ∈ p.log
  log : TokensKept p.log

section
variable {p p' : AuthScreen} {siteKey : String}

/-! ## Widgets -/

theorem AuthScreen.Placed.same (h : p.Placed) (hregistering : p'.registering = p.registering)
    (hwidgets : p'.widgets = p.widgets) (hwidget : p'.turnstileWidget = p.turnstileWidget) : p'.Placed where
  form hreg := hwidgets.trans (h.form (hregistering ▸ hreg))
  one := by
    rw [hwidgets, hwidget]
    exact h.one

theorem placed_nil (hwidgets : p.widgets = []) : p.Placed where
  form _ := hwidgets
  one := .inl hwidgets

/-- The one widget answers with something else. -/
theorem AuthScreen.Placed.respond (h : p.Placed) (w : Option Nat) (r : Option String)
    (hregistering : p'.registering = p.registering)
    (hwidgets : p'.widgets = p.widgets.map (Widget.respond w r))
    (hwidget : p'.turnstileWidget = p.turnstileWidget) : p'.Placed where
  form hreg := by
    rw [hwidgets, h.form (hregistering ▸ hreg)]
    rfl
  one := by
    rcases h.one with hnil | ⟨x, hx, hid⟩
    · left
      rw [hwidgets, hnil]
      rfl
    · right
      refine ⟨Widget.respond w r x, by rw [hwidgets, hx]; rfl, ?_⟩
      have hsame : (Widget.respond w r x).id = x.id := by
        unfold Widget.respond
        split <;> rfl
      rw [hwidget, hid, hsame]

theorem AuthScreen.Placed.removed (h : p.Placed) : p.remove.widgets = [] := by
  show p.widgets.filter _ = []
  rcases h.one with hnil | ⟨x, hx, hid⟩
  · rw [hnil]
    rfl
  · rw [hx, hid]
    simp

/-- The widget whose callback comes is the one on the page. -/
theorem AuthScreen.Placed.calledBack (h : p.Placed) {w : Nat} {next : AuthScreen}
    (hst : p.callback w next = some p') : p' = next ∧ ∃ x, p.widgets = [x] ∧ x.id = w := by
  unfold AuthScreen.callback at hst
  split at hst
  · next hany =>
    refine ⟨(Option.some.inj hst).symm, ?_⟩
    rcases h.one with hnil | ⟨x, hx, -⟩
    · rw [hnil] at hany
      cases hany
    · rw [hx, List.any_cons, List.any_nil, Bool.or_false, decide_eq_true_eq] at hany
      exact ⟨x, hx, hany⟩
  · cases hst

/-! ## What the functions leave alone -/

/-- The widgets, their token and the logins stay. -/
structure SameCaptcha (p p' : AuthScreen) : Prop where
  registering : p'.registering = p.registering
  widgets : p'.widgets = p.widgets
  turnstileWidget : p'.turnstileWidget = p.turnstileWidget
  turnstileToken : p'.turnstileToken = p.turnstileToken
  captchaReady : p'.captchaReady = p.captchaReady
  inFlight : p'.inFlight = p.inFlight
  log : p'.log = p.log

/-- A tab that may say something else. -/
structure SameTab (t t' : LoginTab) : Prop where
  exact : t.Exact → t'.Exact
  busy : t'.busy = t.busy

theorem SameTab.refl (t : LoginTab) : SameTab t t := ⟨id, rfl⟩

theorem sameTab_feedback (t : LoginTab) (message : String) : SameTab t (t.showFeedback message) :=
  ⟨fun h => h.showFeedback message, rfl⟩

theorem mount_same (siteKey : String) (p : AuthScreen) :
    SameCaptcha p (p.mount siteKey) ∧ SameTab p.tab (p.mount siteKey).tab := by
  unfold AuthScreen.mount
  split
  · exact ⟨⟨rfl, rfl, rfl, rfl, rfl, rfl, rfl⟩, sameTab_feedback p.tab _⟩
  · split
    · exact ⟨⟨rfl, rfl, rfl, rfl, rfl, rfl, rfl⟩, .refl p.tab⟩
    · split
      · exact ⟨⟨rfl, rfl, rfl, rfl, rfl, rfl, rfl⟩, sameTab_feedback p.tab _⟩
      · exact ⟨⟨rfl, rfl, rfl, rfl, rfl, rfl, rfl⟩, .refl p.tab⟩

/-- The registration form only says something. -/
theorem register_says (p : AuthScreen) (email password confirm : String) (terms : Bool) :
    p.handleRegister email password confirm terms = p ∨
      ∃ message, p.handleRegister email password confirm terms = p.showFeedback message := by
  unfold AuthScreen.handleRegister
  split
  · exact .inl rfl
  · right
    repeat' split
    all_goals exact ⟨_, rfl⟩

namespace AuthScreen.Sound

theorem same (h : p.Sound) (hsame : SameCaptcha p p') (hexact : p'.tab.Exact)
    (hbusy : p'.tab.busy = p.tab.busy) : p'.Sound where
  tab := hexact
  inFlight := by rw [hsame.inFlight, hbusy, h.inFlight]
  placed := h.placed.same hsame.registering hsame.widgets hsame.turnstileWidget
  ready := by
    rw [hsame.captchaReady, hsame.widgets, hsame.turnstileToken]
    exact h.ready
  unspent := by
    rw [hsame.captchaReady, hsame.turnstileToken, hsame.log]
    exact h.unspent
  sent := by
    rw [hsame.inFlight, hsame.log]
    exact h.sent
  rejected := by
    rw [hsame.log]
    exact h.rejected
  log := by
    rw [hsame.log]
    exact h.log

/-- Only the tab changes. -/
theorem retab {t : LoginTab} (h : p.Sound) (hexact : t.Exact) (hbusy : t.busy = p.tab.busy) :
    ({ p with tab := t } : AuthScreen).Sound :=
  h.same ⟨rfl, rfl, rfl, rfl, rfl, rfl, rfl⟩ hexact hbusy

/-- The token is given up, and a login under way goes on or is forgotten. -/
theorem unready (h : p.Sound) (hexact : p'.tab.Exact) (hplaced : p'.Placed)
    (hready : p'.captchaReady = false) (hlog : p'.log = p.log)
    (hflight : p'.inFlight = p.inFlight ∧ p'.tab.busy = p.tab.busy ∨
      p'.inFlight = none ∧ p'.tab.busy = false) : p'.Sound where
  tab := hexact
  inFlight := by
    rcases hflight with ⟨hin, hbusy⟩ | ⟨hin, hbusy⟩
    · rw [hin, hbusy, h.inFlight]
    · rw [hin, hbusy]
      rfl
  placed := hplaced
  ready hr := by
    rw [hready] at hr
    cases hr
  unspent hr := by
    rw [hready] at hr
    cases hr
  sent token ht := by
    rw [hlog]
    rcases hflight with ⟨hin, -⟩ | ⟨hin, -⟩
    · exact h.sent token (hin ▸ ht)
    · rw [hin] at ht
      cases ht
  rejected := by
    rw [hlog]
    exact h.rejected
  log := by
    rw [hlog]
    exact h.log

theorem mount (h : p.Sound) : (p.mount siteKey).Sound :=
  have ⟨hsame, htab⟩ := mount_same siteKey p
  h.same hsame (htab.exact h.tab) htab.busy

theorem cleanup (h : p.Sound) : p.cleanup.Sound :=
  h.unready h.tab (placed_nil h.placed.removed) rfl rfl (.inl ⟨rfl, rfl⟩)

theorem load (h : p.Sound) (script : ScriptTag) : (p.load siteKey script).Sound := by
  unfold AuthScreen.load
  apply AuthScreen.Sound.mount
  exact h.unready h.tab.load (placed_nil rfl) rfl rfl (.inr ⟨rfl, rfl⟩)

theorem switchMode (h : p.Sound) : (p.switchMode siteKey).Sound := by
  unfold AuthScreen.switchMode
  apply AuthScreen.Sound.mount
  -- the widget is reset and then removed, so that it does not matter which form it is in
  have hreset : { p.showFeedback "" with registering := !p.registering }.resetTurnstile.cleanup =
      { p.resetTurnstile.cleanup with tab := p.tab.showFeedback "", registering := !p.registering } := rfl
  have hplaced : p.resetTurnstile.Placed := h.placed.respond p.turnstileWidget none rfl rfl rfl
  rw [hreset]
  exact h.unready (h.tab.showFeedback "") (placed_nil hplaced.removed) rfl rfl (.inl ⟨rfl, rfl⟩)

theorem captchaFails (h : p.Sound) (cancelled : Bool) : (p.captchaFails cancelled).Sound := by
  unfold AuthScreen.captchaFails
  split
  · exact h.unready h.tab (h.placed.same rfl rfl rfl) rfl rfl (.inl ⟨rfl, rfl⟩)
  · exact h.unready (h.tab.showFeedback _) (h.placed.same rfl rfl rfl) rfl rfl (.inl ⟨rfl, rfl⟩)

theorem goOn (h : p.Sound) (m : Mount) (turnstile renders : Bool) : (p.goOn m turnstile renders).Sound := by
  unfold AuthScreen.goOn
  split
  · exact h.captchaFails m.cancelled
  · split
    · dsimp only
      split
      · exact h.same ⟨rfl, rfl, rfl, rfl, rfl, rfl, rfl⟩ h.tab rfl
      · exact h.same ⟨rfl, rfl, rfl, rfl, rfl, rfl, rfl⟩ (h.tab.showFeedback _) rfl
    · next hhost =>
      have hremoved := h.placed.removed
      have hform : p.registering = false := by
        cases hreg : p.registering with
        | false => rfl
        | true => exact absurd (by simp [hreg]) hhost
      dsimp only
      split
      · -- the old widget is gone, and the new one is the only one
        refine h.unready h.tab ⟨fun hreg => ?_, .inr ⟨⟨p.rendered, none⟩, ?_, rfl⟩⟩ rfl rfl (.inl ⟨rfl, rfl⟩)
        · rw [show p.registering = true from hreg] at hform
          cases hform
        · show p.remove.widgets ++ _ = _
          rw [hremoved]
          rfl
      · apply AuthScreen.Sound.captchaFails
        exact h.unready h.tab (placed_nil hremoved) rfl rfl (.inl ⟨rfl, rfl⟩)

theorem solve (h : p.Sound) {w : Nat} {token : String} (hwidget : ∃ x, p.widgets = [x] ∧ x.id = w)
    (hnew : .given token ∉ p.log) : (p.solve w token).Sound where
  tab := h.tab
  inFlight := h.inFlight
  placed := h.placed.respond (some w) (some token) rfl rfl rfl
  ready _ := by
    obtain ⟨x, hx, hid⟩ := hwidget
    refine ⟨x.id, ?_⟩
    show p.widgets.map _ = _
    rw [hx, List.map_singleton, Widget.respond, if_pos (by rw [hid])]
    rfl
  unspent _ := by
    refine ⟨List.mem_cons_self, fun hmem => ?_⟩
    rcases List.mem_cons.mp hmem with heq | hmem
    · cases heq
    · exact hnew (h.rejected token hmem)
  sent t ht := List.mem_cons_of_mem _ (h.sent t ht)
  rejected t ht := by
    rcases List.mem_cons.mp ht with heq | hmem
    · cases heq
    · exact List.mem_cons_of_mem _ (h.rejected t hmem)
  log := h.log.cons fun _ _ hx => by cases hx

theorem unsolve (h : p.Sound) (w : Nat) (message : String) : (p.unsolve w message).Sound :=
  h.unready (h.tab.showFeedback message) (h.placed.respond (some w) none rfl rfl rfl) rfl rfl (.inl ⟨rfl, rfl⟩)

end AuthScreen.Sound

/-! ## Logins -/

/-- A login is sent only from a form that passes the checks. -/
theorem submit_checked {t : LoginTab} {f : LoginForm} (hidle : t.busy = false)
    (hsent : (t.submit f).busy = true) : f.refusal = none := by
  unfold LoginTab.submit at hsent
  split at hsent
  · rw [hidle] at hsent
    cases hsent
  · split at hsent
    · next message _ =>
      rw [show (t.showFeedback message).render.busy = t.busy from rfl, hidle] at hsent
      cases hsent
    · next hrefusal => exact hrefusal

/-- … so that the CAPTCHA is ready. -/
theorem ready_of_refusal {f : LoginForm} (h : f.refusal = none) : f.captchaReady = true := by
  unfold LoginForm.refusal at h
  repeat' split at h
  case isFalse.isFalse.isFalse.isFalse.isFalse hready => simpa using (not_or.mp hready).1
  all_goals cases h

theorem AuthScreen.idle_of_not_busy (h : ¬ p.busy = true) : p.tab.busy = false := by
  cases htab : p.tab.busy with
  | false => rfl
  | true => exact absurd (by rw [AuthScreen.busy, htab]; rfl) h

/-- So a login is sent only while the CAPTCHA is ready. -/
theorem AuthScreen.ready_of_sent {email password : String} (h : ¬ p.busy = true)
    (hsent : (p.tab.submit (p.loginForm siteKey email password)).busy = true) : p.captchaReady = true :=
  ready_of_refusal (submit_checked (AuthScreen.idle_of_not_busy h) hsent)

/-- An answer ends the login. -/
theorem answered_idle (t : LoginTab) (attempts : Nat) (answer : LoginAnswer) :
    (t.answered attempts answer).busy = false := by
  unfold LoginTab.answered LoginTab.busy
  cases answer with
  | resolved complete => cases complete <;> rfl
  | rejected e =>
    dsimp only
    split
    · rfl
    · split
      · rfl
      · split
        · rfl
        · unfold LoginTab.invalidCredentials
          split <;> rfl

theorem completeLogin_same (t : LoginTab) (complete : Bool) : SameTab t (t.completeLogin complete) := by
  unfold LoginTab.completeLogin
  split
  · exact ⟨fun h => h.clear.showFeedback _, rfl⟩
  · exact sameTab_feedback t _

theorem tick_busy {t t' : LoginTab} (hst : t.tick = some t') : t'.busy = t.busy := by
  unfold LoginTab.tick at hst
  split at hst
  · cases hst
  · split at hst <;>
    · cases hst
      rfl

namespace AuthScreen.Sound

theorem submit (h : p.Sound) (email password : String) : (p.submit siteKey email password).Sound := by
  have hexact := h.tab.submit (p.loginForm siteKey email password)
  unfold AuthScreen.submit
  split
  · exact h
  · next hbusy =>
    dsimp only
    split
    · next hsent =>
      have hready : p.captchaReady = true := AuthScreen.ready_of_sent hbusy hsent
      obtain ⟨hgiven, hrejected⟩ := h.unspent hready
      exact {
        tab := hexact
        inFlight := hsent.symm
        placed := h.placed.same rfl rfl rfl
        ready := h.ready
        unspent := fun _ => ⟨List.mem_cons_of_mem _ hgiven, fun hmem => by
          rcases List.mem_cons.mp hmem with heq | hmem
          · cases heq
          · exact hrejected hmem⟩
        sent := fun token ht => by
          cases ht
          exact List.mem_cons_of_mem _ hgiven
        rejected := fun token ht => by
          rcases List.mem_cons.mp ht with heq | hmem
          · cases heq
          · exact List.mem_cons_of_mem _ (h.rejected token hmem)
        log := h.log.cons fun token widgets hx => by
          obtain ⟨rfl, rfl⟩ := CaptchaEntry.sent.inj hx
          exact ⟨h.ready hready, hrejected⟩ }
    · next hsent =>
      refine h.retab hexact ?_
      rw [AuthScreen.idle_of_not_busy hbusy]
      exact Bool.eq_false_iff.mpr hsent

/-- Something else is noted than a login. -/
theorem note {x : CaptchaEntry} (h : p.Sound) (hsent : ∀ token widgets, x ≠ .sent token widgets)
    (hrejected : ∀ token, x = .rejected token → p.captchaReady = false ∧ .given token ∈ p.log) :
    ({ p with log := x :: p.log } : AuthScreen).Sound where
  tab := h.tab
  inFlight := h.inFlight
  placed := h.placed.same rfl rfl rfl
  ready := h.ready
  unspent hready := by
    obtain ⟨hgiven, hunspent⟩ := h.unspent hready
    refine ⟨List.mem_cons_of_mem _ hgiven, fun hmem => ?_⟩
    rcases List.mem_cons.mp hmem with heq | hmem
    · rw [show p.captchaReady = true from hready] at hrejected
      exact absurd (hrejected _ heq.symm).1 (by decide)
    · exact hunspent hmem
  sent token ht := List.mem_cons_of_mem _ (h.sent token ht)
  rejected token ht := by
    rcases List.mem_cons.mp ht with heq | hmem
    · exact List.mem_cons_of_mem _ (hrejected token heq.symm).2
    · exact List.mem_cons_of_mem _ (h.rejected token hmem)
  log := h.log.cons fun token widgets hx => absurd hx (hsent token widgets)

/-- The login is no longer under way. -/
theorem ended {t : LoginTab} (h : p.Sound) (hexact : t.Exact) (hidle : t.busy = false) :
    ({ p with tab := t, inFlight := none } : AuthScreen).Sound where
  tab := hexact
  inFlight := hidle.symm
  placed := h.placed.same rfl rfl rfl
  ready := h.ready
  unspent := h.unspent
  sent token ht := by cases ht
  rejected := h.rejected
  log := h.log

theorem reset (h : p.Sound) : p.resetTurnstile.Sound :=
  h.unready h.tab (h.placed.respond p.turnstileWidget none rfl rfl rfl) rfl rfl (.inl ⟨rfl, rfl⟩)

theorem answered {answer : LoginAnswer} (h : p.Sound) (hst : p.answered answer = some p') : p'.Sound := by
  unfold AuthScreen.answered at hst
  split at hst
  · next attempts token hattempts htoken =>
    have hended := h.ended (h.tab.answered hattempts answer) (answered_idle p.tab attempts answer)
    cases answer with
    | resolved complete =>
      cases hst
      exact hended.note (fun _ _ hx => by cases hx) (fun _ hx => by cases hx)
    | rejected e =>
      cases hst
      refine hended.reset.note (fun _ _ hx => by cases hx) (fun t hx => ?_)
      cases hx
      exact ⟨rfl, h.sent token htoken⟩
  · cases hst

end AuthScreen.Sound

theorem screenStep_sound {e : ScreenEvent} (h : p.Sound) (hnew : GivesNew p e)
    (hst : screenStep siteKey p e = some p') : p'.Sound := by
  cases e with
  | submit email password =>
    simp only [screenStep] at hst
    split at hst
    · cases hst
    · cases hst
      exact h.submit email password
  | answered answer => exact h.answered hst
  | register email password confirm terms =>
    simp only [screenStep] at hst
    split at hst
    · cases hst
      rcases register_says p email password confirm terms with hsame | ⟨message, hsame⟩
      · rw [hsame]
        exact h
      · rw [hsame]
        exact h.retab (h.tab.showFeedback message) rfl
    · cases hst
  | switchMode =>
    simp only [screenStep] at hst
    split at hst
    · cases hst
    · cases hst
      exact h.switchMode
  | scriptLoads =>
    simp only [screenStep] at hst
    split at hst
    · cases hst
      exact h.same ⟨rfl, rfl, rfl, rfl, rfl, rfl, rfl⟩ h.tab rfl
    · cases hst
  | scriptFails =>
    simp only [screenStep] at hst
    split at hst
    · cases hst
      exact h.same ⟨rfl, rfl, rfl, rfl, rfl, rfl, rfl⟩ h.tab rfl
    · cases hst
  | goOn i turnstile renders =>
    simp only [screenStep] at hst
    split at hst
    · split at hst
      · cases hst
      · cases hst
        have hwaits : ({ p with mounts := p.mounts.eraseIdx i } : AuthScreen).Sound :=
          h.same ⟨rfl, rfl, rfl, rfl, rfl, rfl, rfl⟩ h.tab rfl
        exact hwaits.goOn _ turnstile renders
    · cases hst
  | solved w token =>
    obtain ⟨rfl, hwidget⟩ := h.placed.calledBack hst
    exact h.solve hwidget (hnew token rfl)
  | expired w =>
    obtain ⟨rfl, -⟩ := h.placed.calledBack hst
    exact h.unsolve w _
  | timedOut w =>
    obtain ⟨rfl, -⟩ := h.placed.calledBack hst
    exact h.unsolve w _
  | failed w =>
    obtain ⟨rfl, -⟩ := h.placed.calledBack hst
    have hunsolved := h.unsolve w "CAPTCHA verification failed. Please try again."
    exact hunsolved.same ⟨rfl, rfl, rfl, rfl, rfl, rfl, rfl⟩ hunsolved.tab rfl
  | credential =>
    cases hst
    exact h.same ⟨rfl, rfl, rfl, rfl, rfl, rfl, rfl⟩ (h.tab.showFeedback "") rfl
  | googleAnswered answer =>
    simp only [screenStep] at hst
    split at hst
    · cases hst
    · cases hst
      cases answer with
      | resolved complete =>
        obtain ⟨hexact, hbusy⟩ := completeLogin_same p.tab complete
        exact h.same ⟨rfl, rfl, rfl, rfl, rfl, rfl, rfl⟩ (hexact h.tab) hbusy
      | rejected e => exact h.same ⟨rfl, rfl, rfl, rfl, rfl, rfl, rfl⟩ (h.tab.showFeedback _) rfl
  | tick =>
    obtain ⟨tab, htab, rfl⟩ := Option.map_eq_some_iff.mp hst
    exact h.retab (loginStep_exact (e := .tick) h.tab htab) (tick_busy htab)
  | render =>
    cases hst
    exact h.retab h.tab.render rfl
  | wait ms =>
    cases hst
    exact h.retab (h.tab.wait ms) rfl
  | remount =>
    cases hst
    exact h.cleanup.mount
  | reopen =>
    simp only [screenStep] at hst
    split at hst
    · cases hst
    · cases hst
      exact h.load p.script
  | reload =>
    cases hst
    exact h.load .absent

theorem sound_opened (siteKey : String) (now : Nat) : (AuthScreen.opened siteKey now).Sound := by
  unfold AuthScreen.opened
  apply AuthScreen.Sound.mount
  exact {
    tab := exact_opened now
    inFlight := rfl
    placed := placed_nil rfl
    ready := fun h => by cases h
    unspent := fun h => by cases h
    sent := fun _ h => by cases h
    rejected := fun _ h => absurd h List.not_mem_nil
    log := tokensKept_nil }

end

/-- A site key of the right form. -/
def sampleSiteKey : String := "0x4AAAAAAA_sample-site-key_0123456789"

/-- The effect runs twice, the script loads, and the first run is cancelled. The first login is
rejected, and the second is granted, and sent once more before the page is left. -/
def twoLogins : List ScreenEvent :=
  [.remount, .scriptLoads, .goOn 0 true true, .goOn 0 true true, .solved 0 "one", .submit "a@b.c" "password",
    .answered wrongPassword, .submit "a@b.c" "password", .solved 0 "two", .submit "a@b.c" "password",
    .answered (.resolved true), .submit "a@b.c" "password"]

/-- What happens to the two tokens: the submission in between has none, and the second is spent twice. -/
def twoLoginsLog : List CaptchaEntry :=
  [.sent "two" [⟨0, some "two"⟩], .resolved "two", .sent "two" [⟨0, some "two"⟩], .given "two",
    .rejected "one", .sent "one" [⟨0, some "one"⟩], .given "one"]

end Synora
