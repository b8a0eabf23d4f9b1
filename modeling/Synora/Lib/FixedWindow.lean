import Mathlib.Algebra.BigOperators.Group.List.Lemmas
import Mathlib.Tactic.Linarith

/- A fixed-window counter. The first call opens a window; a window admits at most
   `max` calls, and the first call that comes `width` or more after its start opens
   the next one. Calls come in the order of their times.

   In any interval of the length of a window at most `2 * max - 1` calls are admitted
   (`admitted_within`): a window that was open before the interval has spent one of
   its calls there, and at most one window opens inside it. -/
namespace FixedWindow

structure Window where
  start : Int
  used : Int
  deriving DecidableEq

section
variable (width max : Int)

/-- One call. -/
def offer (now : Int) : Option Window → Option Window × Bool
  | none => (some ⟨now, 1⟩, true)
  | some w =>
    if width ≤ now - w.start then (some ⟨now, 1⟩, true)
    else if max ≤ w.used then (some w, false)
    else (some ⟨w.start, w.used + 1⟩, true)

/-- The times of the calls that are admitted. -/
def admitted : Option Window → List Int → List Int
  | _, [] => []
  | w, now :: rest =>
    if (offer width max now w).2 then now :: admitted (offer width max now w).1 rest
    else admitted (offer width max now w).1 rest

/-- The times in `[first, first + width)`. -/
def within (first : Int) (times : List Int) : List Int :=
  times.filter (fun t => decide (first ≤ t ∧ t < first + width))

/-- A window has admitted at least one call and at most `max`. -/
def Sound (w : Option Window) : Prop := ∀ x ∈ w, 1 ≤ x.used ∧ x.used ≤ max

/-- How many more calls of an interval that begins at `first` can be admitted. -/
def budget (first : Int) : Option Window → Int
  | none => max
  | some w => if w.start < first then 2 * max - w.used else max - w.used

variable {max} in
theorem admit_sound (now : Int) {w : Option Window} (hmax : 1 ≤ max) (h : Sound max w) :
    Sound max (offer width max now w).1 := by
  intro x hx
  cases w with
  | none =>
    cases hx
    exact ⟨Int.le_refl 1, hmax⟩
  | some w =>
    obtain ⟨h1, hle⟩ := h w rfl
    simp only [offer] at hx
    split at hx
    · cases hx
      exact ⟨Int.le_refl 1, hmax⟩
    · split at hx
      · cases hx
        exact ⟨h1, hle⟩
      · cases hx
        constructor
        · show 1 ≤ w.used + 1
          omega
        · show w.used + 1 ≤ max
          omega

variable {width max}

theorem mem_of_admitted {w : Option Window} {times : List Int} {t : Int}
    (h : t ∈ admitted width max w times) : t ∈ times := by
  induction times generalizing w with
  | nil => exact h
  | cons now rest ih =>
    rw [admitted] at h
    split at h
    · rcases List.mem_cons.mp h with rfl | h
      · exact List.mem_cons_self
      · exact List.mem_cons_of_mem _ (ih h)
    · exact List.mem_cons_of_mem _ (ih h)

theorem budget_nonneg {first : Int} {w : Option Window} (hmax : 1 ≤ max) (h : Sound max w) :
    0 ≤ budget max first w := by
  cases w with
  | none =>
    simp only [budget]
    omega
  | some w =>
    obtain ⟨-, hle⟩ := h w rfl
    simp only [budget]
    split <;> omega

theorem budget_le {first : Int} {w : Option Window} (hmax : 1 ≤ max) (h : Sound max w) :
    budget max first w ≤ 2 * max - 1 := by
  cases w with
  | none =>
    simp only [budget]
    omega
  | some w =>
    obtain ⟨h1, -⟩ := h w rfl
    simp only [budget]
    split <;> omega

/-- A call inside the interval is paid for by the budget. -/
theorem admit_budget {first now : Int} {w : Option Window} (h : Sound max w) (hfirst : first ≤ now)
    (hlast : now < first + width) :
    (if (offer width max now w).2 then 1 else 0) + budget max first (offer width max now w).1 ≤
      budget max first w := by
  cases w with
  | none =>
    simp only [offer, budget, if_true]
    rw [if_neg (by omega)]
    omega
  | some w =>
    obtain ⟨h1, hle⟩ := h w rfl
    simp only [offer]
    split
    · -- the window opened before the interval: a new one opens
      have hold : w.start < first := by omega
      simp only [budget, if_true]
      rw [if_neg (by omega), if_pos hold]
      omega
    · split
      · simp
      · simp only [budget, if_true]
        split <;> omega

theorem within_admitted_cons (first now : Int) (w : Option Window) (rest : List Int) :
    ((within width first (admitted width max w (now :: rest))).length : Int) =
      (if (offer width max now w).2 = true ∧ first ≤ now ∧ now < first + width then 1 else 0) +
        ((within width first (admitted width max (offer width max now w).1 rest)).length : Int) := by
  rw [admitted]
  cases (offer width max now w).2 with
  | false => simp
  | true =>
    by_cases hin : first ≤ now ∧ now < first + width
    · simp [within, hin]
      omega
    · simp [within, hin]

/-- The budget bounds what is admitted from `first` on. -/
theorem within_le_budget {first : Int} {w : Option Window} {times : List Int} (hmax : 1 ≤ max)
    (h : Sound max w) (hsorted : times.Pairwise (· ≤ ·)) (hfirst : ∀ t ∈ times, first ≤ t) :
    ((within width first (admitted width max w times)).length : Int) ≤ budget max first w := by
  induction times generalizing w with
  | nil => exact budget_nonneg hmax h
  | cons now rest ih =>
    obtain ⟨hle, hrest⟩ := List.pairwise_cons.mp hsorted
    have hnow : first ≤ now := hfirst now List.mem_cons_self
    by_cases hlast : now < first + width
    · have hpay := admit_budget h hnow hlast
      have hmore := ih (admit_sound width now hmax h) hrest
        fun t ht => hfirst t (List.mem_cons_of_mem _ ht)
      rw [within_admitted_cons]
      simp only [hnow, hlast, and_self, and_true]
      omega
    · -- the interval is over
      have hnone : within width first (admitted width max w (now :: rest)) = [] := by
        refine List.filter_eq_nil_iff.mpr fun t ht => ?_
        have hlate : now ≤ t := by
          rcases List.mem_cons.mp (mem_of_admitted ht) with rfl | hr
          · exact Int.le_refl _
          · exact hle t hr
        simp only [decide_eq_true_eq, not_and]
        omega
      rw [hnone]
      exact budget_nonneg hmax h

/-- **At most `2 * max - 1` calls are admitted in any interval of the length of a window.** -/
theorem admitted_within {w : Option Window} {times : List Int} (hmax : 1 ≤ max) (h : Sound max w)
    (hsorted : times.Pairwise (· ≤ ·)) (first : Int) :
    ((within width first (admitted width max w times)).length : Int) ≤ 2 * max - 1 := by
  induction times generalizing w with
  | nil =>
    simp only [admitted, within, List.filter_nil, List.length_nil]
    omega
  | cons now rest ih =>
    obtain ⟨hle, hrest⟩ := List.pairwise_cons.mp hsorted
    by_cases hnow : first ≤ now
    · -- from here on everything is in the interval or after it
      have hall : ∀ t ∈ now :: rest, first ≤ t := by
        intro t ht
        rcases List.mem_cons.mp ht with rfl | ht
        · exact hnow
        · exact Int.le_trans hnow (hle t ht)
      exact Int.le_trans (within_le_budget hmax h hsorted hall) (budget_le hmax h)
    · rw [within_admitted_cons, if_neg fun hin => hnow hin.2.1, Int.zero_add]
      exact ih (admit_sound width now hmax h) hrest

end

/-! ## What each call was answered -/

/-- A call with its answer; `opens` tells that it opened a window. -/
structure Verdict where
  time : Int
  ok : Bool
  opens : Bool

section
variable (width max : Int)

/-- Whether a call opens a window. -/
def opensAt (now : Int) : Option Window → Bool
  | none => true
  | some w => decide (width ≤ now - w.start)

def verdicts : Option Window → List Int → List Verdict
  | _, [] => []
  | w, now :: rest =>
    ⟨now, (offer width max now w).2, opensAt width now w⟩ :: verdicts (offer width max now w).1 rest

/-- The window was opened by a call before those at `times`. -/
def Begun (times : List Int) (w : Option Window) : Prop := ∀ x ∈ w, ∀ t ∈ times, x.start ≤ t

/-- What a window in force at `now` has spent. -/
def spent (now : Int) : Option Window → Int
  | none => 0
  | some w => if now - w.start < width then w.used else 0

/-- How many of the calls were admitted less than `width` before `now`. -/
def recent (now : Int) (log : List Verdict) : Nat :=
  log.countP fun v => v.ok && decide (now - width < v.time)

variable {width max}

@[simp] theorem verdicts_times (w : Option Window) (times : List Int) :
    (verdicts width max w times).map Verdict.time = times := by
  induction times generalizing w with
  | nil => rfl
  | cons now rest ih => rw [verdicts, List.map_cons, ih]

theorem verdicts_admitted (w : Option Window) (times : List Int) :
    ((verdicts width max w times).filter Verdict.ok).map Verdict.time = admitted width max w times := by
  induction times generalizing w with
  | nil => rfl
  | cons now rest ih =>
    rw [verdicts, admitted]
    split
    · next h => rw [List.filter_cons_of_pos (p := Verdict.ok) h, List.map_cons, ih]
    · next h => rw [List.filter_cons_of_neg (p := Verdict.ok) h, ih]

theorem spent_nonneg {now : Int} {w : Option Window} (h : Sound max w) : 0 ≤ spent width now w := by
  cases w with
  | none => exact Int.le_refl 0
  | some w =>
    obtain ⟨h1, -⟩ := h w rfl
    rw [spent]
    split <;> omega

theorem begun_offer {now : Int} {w : Option Window} {times : List Int}
    (hsorted : (now :: times).Pairwise (· ≤ ·)) (h : Begun (now :: times) w) :
    Begun times (offer width max now w).1 := by
  obtain ⟨hle, -⟩ := List.pairwise_cons.mp hsorted
  intro x hx t ht
  cases w with
  | none =>
    cases hx
    exact hle t ht
  | some w =>
    have hw : w.start ≤ t := h w rfl t (List.mem_cons_of_mem _ ht)
    simp only [offer] at hx
    split at hx
    · cases hx
      exact hle t ht
    · split at hx <;> cases hx <;> exact hw

/-- While no window opens, the one there is admits what it has left. -/
theorem ok_le_left {w : Window} {times : List Int} {mid after : List Verdict} (h : Sound max (some w))
    (heq : verdicts width max (some w) times = mid ++ after) (hmid : ∀ v ∈ mid, v.opens = false) :
    (mid.countP Verdict.ok : Int) ≤ max - w.used := by
  induction mid generalizing w times with
  | nil =>
    obtain ⟨-, hle⟩ := h w rfl
    simp only [List.countP_nil]
    omega
  | cons v mid ih =>
    cases times with
    | nil => cases heq
    | cons now rest =>
      rw [verdicts, List.cons_append, List.cons.injEq] at heq
      obtain ⟨rfl, heq⟩ := heq
      have hopen : opensAt width now (some w) = false := hmid _ List.mem_cons_self
      have hnot : ¬ width ≤ now - w.start := by simpa [opensAt] using hopen
      obtain ⟨h1, hle⟩ := h w rfl
      simp only [offer, if_neg hnot] at heq ⊢
      split at heq
      · next hfull =>
        rw [if_pos hfull, List.countP_cons_of_neg (by simp)]
        exact ih h heq fun u hu => hmid u (List.mem_cons_of_mem _ hu)
      · next hfree =>
        have hsound : Sound max (some (⟨w.start, w.used + 1⟩ : Window)) := by
          intro x hx
          cases hx
          exact ⟨Int.le_add_one h1, Int.not_le.mp hfree⟩
        have hrest : (mid.countP Verdict.ok : Int) ≤ max - (w.used + 1) :=
          ih hsound heq fun u hu => hmid u (List.mem_cons_of_mem _ hu)
        rw [if_neg hfree, List.countP_cons_of_pos rfl]
        push_cast
        omega

/-- **Between two openings at most `max` calls are admitted**, the one that opens among them. -/
theorem ok_le_max {w : Option Window} {times : List Int} {before mid after : List Verdict} {o : Verdict}
    (hmax : 1 ≤ max) (heq : verdicts width max w times = before ++ o :: (mid ++ after))
    (ho : o.opens = true) (hmid : ∀ v ∈ mid, v.opens = false) :
    ((o :: mid).countP Verdict.ok : Int) ≤ max := by
  induction before generalizing w times with
  | nil =>
    cases times with
    | nil => cases heq
    | cons now rest =>
      rw [verdicts, List.nil_append, List.cons.injEq] at heq
      obtain ⟨rfl, heq⟩ := heq
      -- the call that opens the window is its first
      have hfresh : offer width max now w = (some ⟨now, 1⟩, true) := by
        cases w with
        | none => rfl
        | some w => exact if_pos (of_decide_eq_true ho)
      rw [hfresh] at heq ⊢
      have hsound : Sound max (some (⟨now, 1⟩ : Window)) := by
        intro x hx
        cases hx
        exact ⟨Int.le_refl 1, hmax⟩
      have hleft : (mid.countP Verdict.ok : Int) ≤ max - 1 := ok_le_left hsound heq hmid
      rw [List.countP_cons_of_pos rfl]
      push_cast
      omega
  | cons v before ih =>
    cases times with
    | nil => cases heq
    | cons now rest =>
      rw [verdicts, List.cons_append, List.cons.injEq] at heq
      exact ih heq.2

/-- **A call is refused only after `max` calls within the width of a window.** -/
theorem max_le_recent {w : Option Window} {times : List Int} {before after : List Verdict} {c : Verdict}
    (hmax : 1 ≤ max) (hw : Sound max w) (hbegun : Begun times w) (hsorted : times.Pairwise (· ≤ ·))
    (heq : verdicts width max w times = before ++ c :: after) (hc : c.ok = false) :
    max ≤ recent width c.time before + spent width c.time w := by
  induction before generalizing w times with
  | nil =>
    cases times with
    | nil => cases heq
    | cons now rest =>
      rw [verdicts, List.nil_append, List.cons.injEq] at heq
      obtain ⟨rfl, -⟩ := heq
      cases w with
      | none => cases hc
      | some w =>
        simp only [offer] at hc
        simp only [recent, spent, List.countP_nil]
        split at hc
        · cases hc
        · split at hc
          · rw [if_pos (by omega)]
            omega
          · cases hc
  | cons v before ih =>
    cases times with
    | nil => cases heq
    | cons now rest =>
      rw [verdicts, List.cons_append, List.cons.injEq] at heq
      obtain ⟨rfl, heq⟩ := heq
      have hrest := ih (admit_sound width now hmax hw) (begun_offer hsorted hbegun)
        (List.pairwise_cons.mp hsorted).2 heq
      have hnonneg : 0 ≤ spent width c.time w := spent_nonneg hw
      cases w with
      | none =>
        simp only [recent, spent, offer, List.countP_cons, Bool.true_and, decide_eq_true_eq] at hrest ⊢
        split at hrest <;> split <;> omega
      | some w =>
        have hstart : w.start ≤ now := hbegun w rfl now List.mem_cons_self
        simp only [recent, offer, List.countP_cons, Bool.and_eq_true, decide_eq_true_eq] at hrest ⊢
        split at hrest
        · -- a new window opens, and what the old one spent no longer counts
          next hopen =>
          simp only [spent, if_pos hopen, true_and] at hrest hnonneg ⊢
          split at hrest <;> split <;> omega
        · next hin =>
          split at hrest
          · next hfull =>
            rw [if_neg hin, if_pos hfull]
            simpa [spent] using hrest
          · next hfree =>
            simp only [spent, if_neg hin, if_neg hfree, true_and] at hrest ⊢
            split at hrest <;> split <;> omega

end

/-! ## Several counters -/

/-- If each class has at most `n` members, all of them are at most `n` for each class. -/
theorem length_le_mul_classes {α κ : Type} [DecidableEq κ] (xs : List α) (key : α → κ) (n : Int)
    (h : ∀ k, ((xs.filter (fun x => decide (key x = k))).length : Int) ≤ n) :
    (xs.length : Int) ≤ n * ((xs.map key).dedup.length : Int) := by
  have hcount : ∀ k, ((xs.map key).count k : Int) ≤ n := by
    intro k
    rw [List.count, List.countP_map, List.countP_eq_length_filter]
    exact h k
  have hsum : ∀ ks : List κ, (((ks.map fun k => (xs.map key).count k).sum : Nat) : Int) ≤ n * ks.length := by
    intro ks
    induction ks with
    | nil => simp
    | cons k ks ih =>
      have := hcount k
      simp only [List.map_cons, List.sum_cons, List.length_cons, Nat.cast_add, Nat.cast_one]
      linarith
  have hlength : (xs.map key).length = xs.length := List.length_map key
  rw [← hlength, ← List.sum_map_count_dedup_eq_length (xs.map key)]
  exact hsum _

end FixedWindow
