import Synora.Captcha

/- The script of the CAPTCHA (AuthScreen.jsx). A document has one script element, which is
   requested once and then loads or fails (`screenStep_script`); `loadScript` waits for the
   events of an element that is there already, and one that has failed has no more of them.
   The page says "try again", but no widget is rendered and no login can be sent before the
   document is loaded again (`failed_script_sticks`). -/
namespace Synora

/-! ## Without the script -/

/-- No widget, no login under way, and nothing that could go on to render a widget. -/
structure AuthScreen.Barren (p : AuthScreen) : Prop where
  widgets : p.widgets = []
  captchaReady : p.captchaReady = false
  inFlight : p.inFlight = none
  mounts : ∀ m ∈ p.mounts, m.awaited ≠ .resolved

/-- The document is loaded again. -/
def ScreenEvent.isReload : ScreenEvent → Bool
  | .reload => true
  | _ => false

/-- What a step keeps while the script has not loaded. -/
structure Unmoved (p p' : AuthScreen) : Prop where
  barren : p'.Barren
  log : p'.log = p.log

/-- Where the script of a document can go. -/
inductive ScriptTag.Forward : ScriptTag → ScriptTag → Prop
  | stays (s : ScriptTag) : Forward s s
  | requested : Forward .absent .loading
  | loads : Forward .loading .loaded
  | fails : Forward .loading .failed

theorem ScriptTag.Forward.loaded {s : ScriptTag} (h : ScriptTag.Forward .loaded s) : s = .loaded := by
  cases h
  rfl

theorem ScriptTag.Forward.failed {s : ScriptTag} (h : ScriptTag.Forward .failed s) : s = .failed := by
  cases h
  rfl

section
variable {p p' q : AuthScreen} {siteKey : String}

theorem AuthScreen.Barren.same (h : p.Barren) (hwidgets : p'.widgets = p.widgets)
    (hready : p'.captchaReady = false) (hflight : p'.inFlight = p.inFlight)
    (hmounts : ∀ m ∈ p'.mounts, m.awaited ≠ .resolved) (hlog : p'.log = p.log) : Unmoved p p' where
  barren := {
    widgets := hwidgets.trans h.widgets
    captchaReady := hready
    inFlight := hflight.trans h.inFlight
    mounts := hmounts }
  log := hlog

/-- A promise of a script that has not loaded is not resolved. -/
theorem awaited_unresolved {s : ScriptTag} (h : s ≠ .loaded) : s.awaited ≠ .resolved := by
  cases s with
  | loaded => exact absurd rfl h
  | absent => decide
  | loading => decide
  | failed => decide

theorem mount_unmoved (siteKey : String) (h : p.Barren) (hscript : p.script ≠ .loaded) :
    Unmoved p (p.mount siteKey) := by
  obtain ⟨hsame, -⟩ := mount_same siteKey p
  refine h.same hsame.widgets (hsame.captchaReady.trans h.captchaReady) hsame.inFlight ?_ hsame.log
  unfold AuthScreen.mount
  split
  · exact h.mounts
  · split
    · exact h.mounts
    · split
      · exact h.mounts
      · intro m hm
        rcases List.mem_append.mp hm with hold | hnew
        · exact h.mounts m hold
        · rw [List.mem_singleton.mp hnew]
          exact awaited_unresolved hscript

theorem cleanup_unmoved (h : p.Barren) : Unmoved p p.cleanup := by
  refine h.same ?_ rfl rfl ?_ rfl
  · show p.widgets.filter _ = p.widgets
    rw [h.widgets]
    rfl
  · intro m hm
    obtain ⟨n, hn, rfl⟩ := List.mem_map.mp hm
    exact h.mounts n hn

theorem reset_unmoved (h : p.Barren) : Unmoved p p.resetTurnstile := by
  refine h.same ?_ rfl rfl h.mounts rfl
  show p.widgets.map _ = p.widgets
  rw [h.widgets]
  rfl

theorem Unmoved.trans (h : Unmoved p p') (h' : Unmoved p' q) : Unmoved p q :=
  ⟨h'.barren, h'.log.trans h.log⟩

/-- The page is mounted in a document whose script has not loaded. -/
theorem load_unmoved (p : AuthScreen) {script : ScriptTag} (hscript : script ≠ .loaded) :
    Unmoved p (p.load siteKey script) := by
  unfold AuthScreen.load
  have hempty := mount_unmoved siteKey
    (p := { p with
      tab := p.tab.load
      registering := false
      script := script
      mounts := []
      widgets := []
      turnstileWidget := none
      turnstileToken := ""
      captchaReady := false
      captchaLoading := false
      googleSubmitting := false
      googleCalls := 0
      inFlight := none })
    ⟨rfl, rfl, rfl, fun m hm => absurd hm List.not_mem_nil⟩ hscript
  exact ⟨hempty.barren, hempty.log⟩

theorem switchMode_unmoved (h : p.Barren) (hscript : p.script ≠ .loaded) : Unmoved p (p.switchMode siteKey) := by
  unfold AuthScreen.switchMode
  have hfeedback : Unmoved p ({ p.showFeedback "" with registering := !p.registering } : AuthScreen) :=
    h.same rfl h.captchaReady rfl h.mounts rfl
  have hreset := hfeedback.trans (reset_unmoved hfeedback.barren)
  have hcleaned := hreset.trans (cleanup_unmoved hreset.barren)
  exact hcleaned.trans (mount_unmoved siteKey hcleaned.barren hscript)

theorem captchaFails_unmoved (h : p.Barren) (cancelled : Bool) : Unmoved p (p.captchaFails cancelled) := by
  unfold AuthScreen.captchaFails
  split <;> exact h.same rfl rfl rfl h.mounts rfl

theorem submit_unmoved (h : p.Barren) (email password : String) :
    Unmoved p (p.submit siteKey email password) := by
  unfold AuthScreen.submit
  split
  · exact h.same rfl h.captchaReady rfl h.mounts rfl
  · next hbusy =>
    dsimp only
    split
    · next hsent =>
      -- the form would have to be checked with a CAPTCHA that is ready
      have hready : p.captchaReady = true := AuthScreen.ready_of_sent hbusy hsent
      rw [h.captchaReady] at hready
      cases hready
    · exact h.same rfl h.captchaReady rfl h.mounts rfl

theorem not_calledBack (h : p.Barren) {w : Nat} {next : AuthScreen} : p.callback w next ≠ some p' := by
  unfold AuthScreen.callback
  rw [h.widgets]
  exact fun hst => by cases hst

/-- **Without its script the CAPTCHA does nothing**: a step makes the script load, or moves nothing. -/
theorem screenStep_unmoved {e : ScreenEvent} (h : p.Barren) (hscript : p.script ≠ .loaded)
    (hst : screenStep siteKey p e = some p') : p'.script = .loaded ∨ Unmoved p p' := by
  have hrefl : Unmoved p p := h.same rfl h.captchaReady rfl h.mounts rfl
  cases e with
  | submit email password =>
    simp only [screenStep] at hst
    split at hst
    · cases hst
    · cases hst
      exact .inr (submit_unmoved h email password)
  | answered answer =>
    simp only [screenStep, AuthScreen.answered, h.inFlight] at hst
    cases hsubmitting : p.tab.submitting <;> (rw [hsubmitting] at hst; cases hst)
  | register email password confirm terms =>
    simp only [screenStep] at hst
    split at hst
    · cases hst
      rcases register_says p email password confirm terms with hsame | ⟨message, hsame⟩
      · rw [hsame]
        exact .inr hrefl
      · rw [hsame]
        exact .inr (h.same rfl h.captchaReady rfl h.mounts rfl)
    · cases hst
  | switchMode =>
    simp only [screenStep] at hst
    split at hst
    · cases hst
    · cases hst
      exact .inr (switchMode_unmoved h hscript)
  | scriptLoads =>
    simp only [screenStep] at hst
    split at hst
    · cases hst
      exact .inl rfl
    · cases hst
  | scriptFails =>
    simp only [screenStep] at hst
    split at hst
    · cases hst
      right
      refine h.same rfl h.captchaReady rfl (fun m hm => ?_) rfl
      obtain ⟨n, hn, rfl⟩ := List.mem_map.mp hm
      unfold Mount.settle
      split
      · exact Awaited.noConfusion
      · exact h.mounts n hn
    · cases hst
  | goOn i turnstile renders =>
    simp only [screenStep] at hst
    split at hst
    · next m hm =>
      split at hst
      · cases hst
      · next hpending =>
        cases hst
        right
        have hrejected : m.awaited = .rejected := by
          have hresolved := h.mounts m (List.mem_of_getElem? hm)
          cases hawaited : m.awaited with
          | pending => exact absurd hawaited hpending
          | resolved => exact absurd hawaited hresolved
          | rejected => rfl
        rw [AuthScreen.goOn, if_pos hrejected]
        have herased : Unmoved p ({ p with mounts := p.mounts.eraseIdx i } : AuthScreen) :=
          h.same rfl h.captchaReady rfl (fun n hn => h.mounts n (List.mem_of_mem_eraseIdx hn)) rfl
        exact herased.trans (captchaFails_unmoved herased.barren m.cancelled)
    · cases hst
  | solved w token => exact absurd hst (not_calledBack h)
  | expired w => exact absurd hst (not_calledBack h)
  | timedOut w => exact absurd hst (not_calledBack h)
  | failed w => exact absurd hst (not_calledBack h)
  | credential =>
    cases hst
    exact .inr (h.same rfl h.captchaReady rfl h.mounts rfl)
  | googleAnswered answer =>
    simp only [screenStep] at hst
    split at hst
    · cases hst
    · cases hst
      exact .inr (h.same rfl h.captchaReady rfl h.mounts rfl)
  | tick =>
    obtain ⟨tab, -, rfl⟩ := Option.map_eq_some_iff.mp hst
    exact .inr (h.same rfl h.captchaReady rfl h.mounts rfl)
  | render =>
    cases hst
    exact .inr (h.same rfl h.captchaReady rfl h.mounts rfl)
  | wait ms =>
    cases hst
    exact .inr (h.same rfl h.captchaReady rfl h.mounts rfl)
  | remount =>
    cases hst
    right
    have hcleaned := cleanup_unmoved h
    exact hcleaned.trans (mount_unmoved siteKey hcleaned.barren hscript)
  | reopen =>
    simp only [screenStep] at hst
    split at hst
    · cases hst
    · cases hst
      exact .inr (load_unmoved p hscript)
  | reload =>
    cases hst
    exact .inr (load_unmoved p (by decide))

theorem mount_script {s : ScriptTag} (hs : p.script = s) : s.Forward (p.mount siteKey).script := by
  obtain rfl := hs
  unfold AuthScreen.mount
  split
  · exact .stays _
  · split
    · exact .stays _
    · split
      · exact .stays _
      · show p.script.Forward p.script.requested
        cases p.script with
        | absent => exact .requested
        | loading => exact .stays _
        | loaded => exact .stays _
        | failed => exact .stays _

theorem captchaFails_script (p : AuthScreen) (cancelled : Bool) : (p.captchaFails cancelled).script = p.script := by
  unfold AuthScreen.captchaFails
  split <;> rfl

theorem goOn_script (p : AuthScreen) (m : Mount) (turnstile renders : Bool) :
    (p.goOn m turnstile renders).script = p.script := by
  unfold AuthScreen.goOn
  split
  · exact captchaFails_script p m.cancelled
  · split
    · dsimp only
      split <;> rfl
    · dsimp only
      split
      · rfl
      · exact captchaFails_script _ m.cancelled

theorem callback_next {w : Nat} {next : AuthScreen} (hst : p.callback w next = some p') : p' = next := by
  unfold AuthScreen.callback at hst
  split at hst
  · exact (Option.some.inj hst).symm
  · cases hst

/-- **The script of a document only goes forward**: it is requested once, and then loads or fails. -/
theorem screenStep_script {e : ScreenEvent} (hstays : e.isReload = false)
    (hst : screenStep siteKey p e = some p') : p.script.Forward p'.script := by
  cases e with
  | submit email password =>
    simp only [screenStep] at hst
    split at hst
    · cases hst
    · cases hst
      unfold AuthScreen.submit
      split
      · exact .stays _
      · dsimp only
        split <;> exact .stays _
  | answered answer =>
    simp only [screenStep, AuthScreen.answered] at hst
    split at hst
    · cases answer <;>
      · cases hst
        exact .stays _
    · cases hst
  | register email password confirm terms =>
    simp only [screenStep] at hst
    split at hst
    · cases hst
      rcases register_says p email password confirm terms with hsame | ⟨message, hsame⟩ <;>
      · rw [hsame]
        exact .stays _
    · cases hst
  | switchMode =>
    simp only [screenStep] at hst
    split at hst
    · cases hst
    · cases hst
      unfold AuthScreen.switchMode
      exact mount_script rfl
  | scriptLoads =>
    simp only [screenStep] at hst
    split at hst
    · next hloading =>
      cases hst
      rw [hloading]
      exact .loads
    · cases hst
  | scriptFails =>
    simp only [screenStep] at hst
    split at hst
    · next hloading =>
      cases hst
      rw [hloading]
      exact .fails
    · cases hst
  | goOn i turnstile renders =>
    simp only [screenStep] at hst
    split at hst
    · split at hst
      · cases hst
      · cases hst
        rw [goOn_script]
        exact .stays _
    · cases hst
  | solved w token =>
    rw [callback_next hst]
    exact .stays _
  | expired w =>
    rw [callback_next hst]
    exact .stays _
  | timedOut w =>
    rw [callback_next hst]
    exact .stays _
  | failed w =>
    rw [callback_next hst]
    exact .stays _
  | credential =>
    cases hst
    exact .stays _
  | googleAnswered answer =>
    simp only [screenStep] at hst
    split at hst
    · cases hst
    · cases hst
      exact .stays _
  | tick =>
    obtain ⟨tab, -, rfl⟩ := Option.map_eq_some_iff.mp hst
    exact .stays _
  | render =>
    cases hst
    exact .stays _
  | wait ms =>
    cases hst
    exact .stays _
  | remount =>
    cases hst
    exact mount_script rfl
  | reopen =>
    simp only [screenStep] at hst
    split at hst
    · cases hst
    · cases hst
      unfold AuthScreen.load
      exact mount_script rfl
  | reload => cases hstays

/-- As long as the script of the document has not loaded, the CAPTCHA has nothing. -/
theorem run_barren {now : Nat} {es : List ScreenEvent}
    (hrun : Steps.run (screenStep siteKey) (AuthScreen.opened siteKey now) es = some p)
    (hscript : p.script ≠ .loaded) : p.Barren := by
  have hinv : ∀ p e p', (p.script ≠ .loaded → p.Barren) → True → screenStep siteKey p e = some p' →
      p'.script ≠ .loaded → p'.Barren := by
    intro p e p' hI _ hst hunloaded
    cases hreload : e.isReload with
    | true =>
      cases e <;> cases hreload
      cases hst
      exact (load_unmoved p (by decide)).barren
    | false =>
      have hbefore : p.script ≠ .loaded := fun hloaded =>
        hunloaded (ScriptTag.Forward.loaded (hloaded ▸ screenStep_script hreload hst))
      exact ((screenStep_unmoved (hI hbefore) hbefore hst).resolve_left hunloaded).barren
  refine Steps.reach_invariant (I := fun p : AuthScreen => p.script ≠ .loaded → p.Barren) hinv ?_
    (Steps.reach_run hrun) hscript
  intro _
  have habsent : ScriptTag.absent ≠ .loaded := by decide
  unfold AuthScreen.opened
  exact (mount_unmoved siteKey ⟨rfl, rfl, rfl, fun m hm => absurd hm List.not_mem_nil⟩ habsent).barren

/-- **A script that has failed is awaited for ever.** Until the document is loaded again, whatever the
user does, no widget is rendered and no login is sent. -/
theorem failed_script_sticks {now : Nat} {es fs : List ScreenEvent}
    (hrun : Steps.run (screenStep siteKey) (AuthScreen.opened siteKey now) es = some p)
    (hfailed : p.script = .failed) (hstays : ∀ e ∈ fs, e.isReload = false)
    (hlater : Steps.run (screenStep siteKey) p fs = some q) :
    q.script = .failed ∧ q.widgets = [] ∧ q.inFlight = none ∧ q.log = p.log := by
  have hbarren : p.Barren := run_barren hrun (by rw [hfailed]; decide)
  obtain ⟨hscript, hend, hlog⟩ : q.script = .failed ∧ q.Barren ∧ q.log = p.log := by
    refine Steps.run_invariant (C := fun _ e => e.isReload = false)
      (I := fun q : AuthScreen => q.script = .failed ∧ q.Barren ∧ q.log = p.log) (fun t e t' hI hC hst => ?_)
      ⟨hfailed, hbarren, rfl⟩ (Steps.along_of_mem hstays) hlater
    obtain ⟨hfailed, hbarren, hlog⟩ := hI
    have hscript : t'.script = .failed := ScriptTag.Forward.failed (hfailed ▸ screenStep_script hC hst)
    obtain ⟨hbarren', hlog'⟩ := (screenStep_unmoved hbarren (by rw [hfailed]; decide) hst).resolve_left
      (by rw [hscript]; decide)
    exact ⟨hscript, hbarren', hlog'.trans hlog⟩
  exact ⟨hscript, hend.widgets, hend.inFlight, hlog⟩

end

/-- The script fails; the user goes to the other form and back, comes back to the page, and submits. -/
def afterFailure : List ScreenEvent :=
  [.goOn 0 true true, .switchMode, .switchMode, .reopen, .submit "a@b.c" "password"]

theorem failed_script_sticks_sample : ∃ p q,
    Steps.run (screenStep sampleSiteKey) (AuthScreen.opened sampleSiteKey 1000) [.scriptFails] = some p ∧
      Steps.run (screenStep sampleSiteKey) p afterFailure = some q ∧ q.captchaLoading = true ∧
      q.tab.notice = "Please complete the CAPTCHA verification before signing in." ∧
      q.script = .failed ∧ q.widgets = [] ∧ q.inFlight = none ∧ q.log = p.log := by
  obtain ⟨p, hrun, hfailed⟩ := Steps.exists_of_check (screenStep sampleSiteKey)
    (AuthScreen.opened sampleSiteKey 1000) [.scriptFails] (fun p => decide (p.script = .failed)) (by decide +kernel)
  obtain ⟨q, hall, hloading⟩ := Steps.exists_of_check (screenStep sampleSiteKey)
    (AuthScreen.opened sampleSiteKey 1000) (.scriptFails :: afterFailure)
    (fun q => decide (q.captchaLoading = true ∧
      q.tab.notice = "Please complete the CAPTCHA verification before signing in.")) (by decide +kernel)
  obtain ⟨m, hm, hlater⟩ := Steps.run_append.mp (show Steps.run (screenStep sampleSiteKey)
    (AuthScreen.opened sampleSiteKey 1000) ([.scriptFails] ++ afterFailure) = some q from hall)
  obtain rfl : m = p := Option.some.inj (hm.symm.trans hrun)
  obtain ⟨hwaits, hnotice⟩ := of_decide_eq_true hloading
  exact ⟨m, q, hrun, hlater, hwaits, hnotice, failed_script_sticks hrun (of_decide_eq_true hfailed)
    (by decide) hlater⟩

end Synora
