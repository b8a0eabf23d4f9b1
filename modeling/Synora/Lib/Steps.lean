import Mathlib.Data.List.Basic

/- Runs of a step function. A system is a function `step : σ → ε → Option σ`
   (`none`: the event is not enabled), a run is a list of events, and `Along C`
   says that every event of a run meets the condition `C` in the state it is
   taken in. The rules below reduce a property of all runs to one step. -/
namespace Steps

section
variable {σ ε : Type} (step : σ → ε → Option σ)

/-- The state after a list of events, if each of them is enabled in turn. -/
def run : σ → List ε → Option σ
  | s, [] => some s
  | s, e :: es => (step s e).bind fun s' => run s' es

/-- Every event of the run meets `C` in the state it is taken in. -/
def Along (C : σ → ε → Prop) : σ → List ε → Prop
  | _, [] => True
  | s, e :: es => C s e ∧ ∀ s', step s e = some s' → Along C s' es

/-- `s'` is the state after some run from `s`, all of whose events meet `C`. -/
def Reach (C : σ → ε → Prop) (s s' : σ) : Prop :=
  ∃ es, Along step C s es ∧ run step s es = some s'

variable {step}

theorem run_cons {s s' : σ} {e : ε} {es : List ε} :
    run step s (e :: es) = some s' ↔ ∃ m, step s e = some m ∧ run step m es = some s' := by
  simp [run, Option.bind_eq_some_iff]

theorem run_append {s s' : σ} {es fs : List ε} :
    run step s (es ++ fs) = some s' ↔ ∃ m, run step s es = some m ∧ run step m fs = some s' := by
  induction es generalizing s with
  | nil => simp [run]
  | cons e es ih =>
    rw [List.cons_append, run_cons]
    constructor
    · rintro ⟨n, hn, hrest⟩
      obtain ⟨m, hm, hfs⟩ := ih.mp hrest
      exact ⟨m, run_cons.mpr ⟨n, hn, hm⟩, hfs⟩
    · rintro ⟨m, hes, hfs⟩
      obtain ⟨n, hn, hm⟩ := run_cons.mp hes
      exact ⟨n, hn, ih.mpr ⟨m, hm, hfs⟩⟩

theorem along_append {C : σ → ε → Prop} {s m : σ} {es fs : List ε}
    (h : Along step C s (es ++ fs)) (hr : run step s es = some m) :
    Along step C s es ∧ Along step C m fs := by
  induction es generalizing s with
  | nil =>
    simp only [run, Option.some.injEq] at hr
    subst hr
    exact ⟨trivial, h⟩
  | cons e es ih =>
    obtain ⟨n, hn, hr⟩ := run_cons.mp hr
    obtain ⟨hC, hrest⟩ := h
    refine ⟨⟨hC, fun s' hs' => ?_⟩, (ih (hrest n hn) hr).2⟩
    rw [hn] at hs'
    cases hs'
    exact (ih (hrest n hn) hr).1

/-- A run that goes on. -/
theorem along_then {C : σ → ε → Prop} {s m : σ} {es fs : List ε} (h : Along step C s es)
    (hr : run step s es = some m) (hm : Along step C m fs) : Along step C s (es ++ fs) := by
  induction es generalizing s with
  | nil =>
    simp only [run, Option.some.injEq] at hr
    subst hr
    exact hm
  | cons e es ih =>
    obtain ⟨n, hn, hr⟩ := run_cons.mp hr
    refine ⟨h.1, fun s' hs' => ?_⟩
    rw [hn] at hs'
    cases hs'
    exact ih (h.2 n hn) hr

theorem along_mono {C D : σ → ε → Prop} (hCD : ∀ s e, C s e → D s e) {s : σ} {es : List ε}
    (h : Along step C s es) : Along step D s es := by
  induction es generalizing s with
  | nil => trivial
  | cons e es ih => exact ⟨hCD s e h.1, fun s' hs' => ih (h.2 s' hs')⟩

theorem along_and {C D : σ → ε → Prop} {s : σ} {es : List ε} (hC : Along step C s es)
    (hD : Along step D s es) : Along step (fun s e => C s e ∧ D s e) s es := by
  induction es generalizing s with
  | nil => trivial
  | cons e es ih => exact ⟨⟨hC.1, hD.1⟩, fun s' hs' => ih (hC.2 s' hs') (hD.2 s' hs')⟩

/-- **The invariant rule.** What holds at the start and is preserved by every
step that meets `C` holds after every run along `C`. -/
theorem run_invariant {C : σ → ε → Prop} {I : σ → Prop}
    (hstep : ∀ s e s', I s → C s e → step s e = some s' → I s')
    {s s' : σ} {es : List ε} (hI : I s) (hC : Along step C s es)
    (hr : run step s es = some s') : I s' := by
  induction es generalizing s with
  | nil =>
    simp only [run, Option.some.injEq] at hr
    exact hr ▸ hI
  | cons e es ih =>
    obtain ⟨m, hm, hr⟩ := run_cons.mp hr
    exact ih (hstep s e m hI hC.1 hm) (hC.2 m hm) hr

/-- An invariant of the steps along `C` may be assumed of every state of a run along `C`. -/
theorem along_with_invariant {C : σ → ε → Prop} {I : σ → Prop}
    (hstep : ∀ s e s', I s → C s e → step s e = some s' → I s')
    {s : σ} {es : List ε} (hI : I s) (hC : Along step C s es) :
    Along step (fun s e => C s e ∧ I s) s es := by
  induction es generalizing s with
  | nil => trivial
  | cons e es ih =>
    exact ⟨⟨hC.1, hI⟩, fun s' hs' => ih (hstep s e s' hI hC.1 hs') (hC.2 s' hs')⟩

theorem reach_invariant {C : σ → ε → Prop} {I : σ → Prop}
    (hstep : ∀ s e s', I s → C s e → step s e = some s' → I s')
    {s s' : σ} (hI : I s) (h : Reach step C s s') : I s' := by
  obtain ⟨es, hC, hr⟩ := h
  exact run_invariant hstep hI hC hr

/-- … and may be assumed of every state on the way. -/
theorem reach_keeps {C : σ → ε → Prop} {I : σ → Prop}
    (hstep : ∀ s e s', I s → C s e → step s e = some s' → I s')
    {s s' : σ} (hI : I s) (h : Reach step C s s') :
    I s' ∧ Reach step (fun s e => C s e ∧ I s) s s' := by
  obtain ⟨es, hC, hr⟩ := h
  exact ⟨run_invariant hstep hI hC hr, es, along_with_invariant hstep hI hC, hr⟩

theorem reach_mono {C D : σ → ε → Prop} (hCD : ∀ s e, C s e → D s e) {s s' : σ}
    (h : Reach step C s s') : Reach step D s s' := by
  obtain ⟨es, hC, hr⟩ := h
  exact ⟨es, along_mono hCD hC, hr⟩

theorem along_of_forall {C : σ → ε → Prop} (h : ∀ s e, C s e) {s : σ} {es : List ε} :
    Along step C s es := by
  induction es generalizing s with
  | nil => trivial
  | cons e es ih => exact ⟨h s e, fun s' _ => ih⟩

/-- A condition that each event of a run meets because of what comes after it. -/
theorem along_of_rest {C D : σ → ε → Prop} {s s' : σ} {es : List ε}
    (hC : ∀ s e m es, step s e = some m → run step m es = some s' → D s e → Along step D m es → C s e)
    (hr : run step s es = some s') (hD : Along step D s es) : Along step C s es := by
  induction es generalizing s with
  | nil => trivial
  | cons e es ih =>
    obtain ⟨m, hm, hr⟩ := run_cons.mp hr
    obtain ⟨hfirst, hrest⟩ := hD
    refine ⟨hC s e m es hm hr hfirst (hrest m hm), fun t ht => ?_⟩
    rw [hm] at ht
    cases ht
    exact ih hr (hrest m hm)

/-- A quantity that no step lowers is below its last value all along a run. -/
theorem along_below {f : σ → Int} (hmono : ∀ s e s', step s e = some s' → f s ≤ f s')
    {s s' : σ} {es : List ε} (hr : run step s es = some s') :
    f s ≤ f s' ∧ Along step (fun t _ => f t ≤ f s') s es := by
  induction es generalizing s with
  | nil =>
    simp only [run, Option.some.injEq] at hr
    subst hr
    exact ⟨Int.le_refl _, trivial⟩
  | cons e es ih =>
    obtain ⟨m, hm, hr⟩ := run_cons.mp hr
    obtain ⟨hle, halong⟩ := ih hr
    have hs : f s ≤ f s' := Int.le_trans (hmono s e m hm) hle
    refine ⟨hs, hs, fun t ht => ?_⟩
    rw [hm] at ht
    cases ht
    exact halong

/-- A condition on events alone, met by each event of the list. -/
theorem along_of_mem {C : ε → Prop} {s : σ} {es : List ε} (h : ∀ e ∈ es, C e) :
    Along step (fun _ e => C e) s es := by
  induction es generalizing s with
  | nil => trivial
  | cons e es ih =>
    exact ⟨h e List.mem_cons_self, fun s' _ => ih fun f hf => h f (List.mem_cons_of_mem _ hf)⟩

/-- A property is kept by every step of a run exactly when every step meets a condition, if
that is so of each step from a state that has the property. -/
theorem along_keeps_iff {C : σ → ε → Prop} {I P : σ → Prop}
    (hI : ∀ s e s', I s → step s e = some s' → I s')
    (hiff : ∀ s e s', I s → P s → step s e = some s' → (P s' ↔ C s e))
    (hoff : ∀ s e, step s e = none → C s e) {s : σ} {es : List ε} (hs : I s) (hP : P s) :
    Along step (fun s e => ∀ s', step s e = some s' → P s') s es ↔ Along step C s es := by
  induction es generalizing s with
  | nil => exact Iff.rfl
  | cons e es ih =>
    cases he : step s e with
    | none =>
      refine ⟨fun _ => ⟨hoff s e he, fun s' hs' => ?_⟩, fun _ => ⟨fun s' hs' => ?_, fun s' hs' => ?_⟩⟩ <;>
      · rw [he] at hs'
        cases hs'
    | some m =>
      have hstep := hiff s e m hs hP he
      constructor
      · rintro ⟨hkeep, hrest⟩
        have hm := hkeep m he
        refine ⟨hstep.mp hm, fun s' hs' => ?_⟩
        rw [he] at hs'
        cases hs'
        exact (ih (hI s e m hs he) hm).mp (hrest m he)
      · rintro ⟨hC, hrest⟩
        have hm := hstep.mpr hC
        refine ⟨fun s' hs' => ?_, fun s' hs' => ?_⟩
        · rw [he] at hs'
          cases hs'
          exact hm
        · rw [he] at hs'
          cases hs'
          exact (ih (hI s e m hs he) hm).mpr (hrest m he)

/-- **The rank rule.** If, where `I` holds, some events lower a rank and no other raises it, a run
from there holds no more of them than the rank has lost. -/
theorem run_rank_within {I : σ → Prop} (rank : σ → Nat) (own : ε → Bool)
    (hI : ∀ s e s', I s → step s e = some s' → I s')
    (hown : ∀ s e s', I s → own e = true → step s e = some s' → rank s' < rank s)
    (hother : ∀ s e s', I s → own e = false → step s e = some s' → rank s' ≤ rank s)
    {s s' : σ} {es : List ε} (hs : I s) (hr : run step s es = some s') :
    es.countP own + rank s' ≤ rank s := by
  induction es generalizing s with
  | nil =>
    simp only [run, Option.some.injEq] at hr
    subst hr
    simp
  | cons e es ih =>
    obtain ⟨m, hm, hr⟩ := run_cons.mp hr
    have hrest := ih (hI s e m hs hm) hr
    cases he : own e with
    | true =>
      have hlt := hown s e m hs he hm
      rw [List.countP_cons_of_pos he]
      omega
    | false =>
      have hle := hother s e m hs he hm
      rw [List.countP_cons_of_neg (by simp [he])]
      omega

/-- … and where that is so everywhere, any run. -/
theorem run_rank (rank : σ → Nat) (own : ε → Bool)
    (hown : ∀ s e s', own e = true → step s e = some s' → rank s' < rank s)
    (hother : ∀ s e s', own e = false → step s e = some s' → rank s' ≤ rank s)
    {s s' : σ} {es : List ε} (hr : run step s es = some s') : es.countP own + rank s' ≤ rank s :=
  run_rank_within (I := fun _ => True) rank own (fun _ _ _ _ _ => trivial)
    (fun s e s' _ => hown s e s') (fun s e s' _ => hother s e s') trivial hr

/-- **The flow rule.** Events bring in `g e`, and `f s` is what of it is kept, in order. If each
step keeps a part of it, and all exactly under a condition, then so does a run. -/
theorem run_flow {α : Type} {I : σ → Prop} {P : ε → Prop} {C : σ → ε → Prop} (f : σ → List α) (g : ε → List α)
    (hstep : ∀ s e s', I s → P e → step s e = some s' →
      I s' ∧ (f s').Sublist (f s ++ g e) ∧ (f s' = f s ++ g e ↔ C s e))
    {s s' : σ} {es : List ε} (hI : I s) (hP : ∀ e ∈ es, P e) (hr : run step s es = some s') :
    (f s').Sublist (f s ++ es.flatMap g) ∧ (f s' = f s ++ es.flatMap g ↔ Along step C s es) := by
  induction es generalizing s with
  | nil =>
    simp only [run, Option.some.injEq] at hr
    subst hr
    simp [Along]
  | cons e es ih =>
    obtain ⟨m, hm, hr⟩ := run_cons.mp hr
    obtain ⟨hIm, hsub, heq⟩ := hstep s e m hI (hP e List.mem_cons_self) hm
    obtain ⟨hsub', heq'⟩ := ih hIm (fun e he => hP e (List.mem_cons_of_mem _ he)) hr
    have hmid : (f m ++ es.flatMap g).Sublist (f s ++ (e :: es).flatMap g) := by
      rw [List.flatMap_cons, ← List.append_assoc]
      exact hsub.append_right _
    refine ⟨hsub'.trans hmid, fun hall => ?_, fun ⟨hC, hrest⟩ => ?_⟩
    · -- nothing is lost in the end, so nothing was lost on the way
      have hfm : f m ++ es.flatMap g = f s ++ (e :: es).flatMap g :=
        hmid.eq_of_length_le (hall ▸ hsub'.length_le)
      have hfirst : f m = f s ++ g e := by
        rw [List.flatMap_cons, ← List.append_assoc] at hfm
        exact List.append_cancel_right hfm
      refine ⟨heq.mp hfirst, fun s' hs' => ?_⟩
      rw [hm] at hs'
      cases hs'
      exact heq'.mp (hall.trans hfm.symm)
    · rw [heq'.mpr (hrest m hm), heq.mpr hC, List.flatMap_cons, List.append_assoc]

/-- The flow rule, where it does not matter what is lost. -/
theorem run_sublist {α : Type} (f : σ → List α) (g : ε → List α)
    (hstep : ∀ s e s', step s e = some s' → (f s').Sublist (f s ++ g e)) {s s' : σ} {es : List ε}
    (hr : run step s es = some s') : (f s').Sublist (f s ++ es.flatMap g) := by
  refine (run_flow (I := fun _ => True) (P := fun _ => True)
    (C := fun s e => ∀ s', step s e = some s' → f s' = f s ++ g e) f g (fun s e s' _ _ hst => ?_)
    trivial (fun _ _ => trivial) hr).1
  refine ⟨trivial, hstep s e s' hst, fun hall m hm => ?_, fun hall => hall s' hst⟩
  rw [hst] at hm
  cases hm
  exact hall

/-- **The simulation rule.** If each step is matched by a run of another system on the view of
the state, then so is a run. -/
theorem run_simulates {τ δ : Type} {next : τ → δ → Option τ} {I : σ → Prop} {P : ε → Prop} (view : σ → τ)
    (f : ε → List δ) (hstep : ∀ s e s', I s → P e → step s e = some s' →
      I s' ∧ run next (view s) (f e) = some (view s'))
    {s s' : σ} {es : List ε} (hI : I s) (hP : ∀ e ∈ es, P e) (hr : run step s es = some s') :
    run next (view s) (es.flatMap f) = some (view s') := by
  induction es generalizing s with
  | nil =>
    simp only [run, Option.some.injEq] at hr
    subst hr
    rfl
  | cons e es ih =>
    obtain ⟨m, hm, hr⟩ := run_cons.mp hr
    obtain ⟨hIm, hview⟩ := hstep s e m hI (hP e List.mem_cons_self) hm
    rw [List.flatMap_cons]
    exact run_append.mpr ⟨view m, hview, ih hIm (fun e he => hP e (List.mem_cons_of_mem _ he)) hr⟩

/-- … and if the relation `R` only says that some run matches each step, some run matches a run. -/
theorem run_forward {τ δ : Type} {next : τ → δ → Option τ} {R : σ → τ → Prop}
    (hstep : ∀ s t e s', R s t → step s e = some s' → ∃ fs t', run next t fs = some t' ∧ R s' t')
    {s s' : σ} {t : τ} {es : List ε} (hR : R s t) (hr : run step s es = some s') :
    ∃ fs t', run next t fs = some t' ∧ R s' t' := by
  induction es generalizing s t with
  | nil =>
    simp only [run, Option.some.injEq] at hr
    subst hr
    exact ⟨[], t, rfl, hR⟩
  | cons e es ih =>
    obtain ⟨m, hm, hr⟩ := run_cons.mp hr
    obtain ⟨fs, u, hfirst, hRm⟩ := hstep s t e m hR hm
    obtain ⟨gs, t', hrest, hRend⟩ := ih hRm hr
    exact ⟨fs ++ gs, t', run_append.mpr ⟨u, hfirst, hrest⟩, hRend⟩

/-- Evaluates a decidable condition along a run. -/
def alongCheck (next : σ → ε → Option σ) (C : σ → ε → Prop) [∀ s e, Decidable (C s e)] :
    σ → List ε → Bool
  | _, [] => true
  | s, e :: es => decide (C s e) &&
    match next s e with
    | some s' => alongCheck next C s' es
    | none => true

theorem along_of_check (next : σ → ε → Option σ) (C : σ → ε → Prop) [∀ s e, Decidable (C s e)]
    (s : σ) (es : List ε) (h : alongCheck next C s es = true) : Along next C s es := by
  induction es generalizing s with
  | nil => trivial
  | cons e es ih =>
    simp only [alongCheck, Bool.and_eq_true, decide_eq_true_eq] at h
    refine ⟨h.1, fun s' hs' => ih s' ?_⟩
    have hrest := h.2
    rw [hs'] at hrest
    exact hrest

/-- A run that has been evaluated, and a check of its last state. -/
theorem exists_of_check (next : σ → ε → Option σ) (s : σ) (es : List ε) (f : σ → Bool)
    (h : (run next s es).any f = true) : ∃ s', run next s es = some s' ∧ f s' = true := by
  cases hr : run next s es with
  | none => rw [hr] at h; cases h
  | some s' => exact ⟨s', rfl, by rw [hr] at h; exact h⟩

theorem reach_run {s s' : σ} {es : List ε} (h : run step s es = some s') :
    Reach step (fun _ _ => True) s s' :=
  ⟨es, along_of_forall fun _ _ => trivial, h⟩

end

end Steps
