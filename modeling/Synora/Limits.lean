import Synora.Middleware

/- What the rate limit promises (handlers.go), over any calls of one limiter: how many
   calls on a key pass, when one is refused, and how long the refused client has to
   wait.

   Correspondence (Go ↔ Lean):
     the calls of `Allow`, in the order of its mutex   ↔ `Limiter.log`
     `e == nil || now.Sub(e.at) >= time.Minute`        ↔ `Limiter.opens`
     the calls of `NewLimiter(max)`                    ↔ `(newLimiter max).log`
   `at` is the clock `Allow` reads, in nanoseconds. -/
namespace Synora

open FixedWindow

/-! ## The calls of a limiter -/

structure LimitCall where
  «at» : Int
  key : String
  deriving DecidableEq

/-- A call with what it returned; `opens` tells that it started a new entry. -/
structure LimitLog where
  call : LimitCall
  ok : Bool
  retry : Int
  opens : Bool
  deriving DecidableEq

/-- Whether a call starts a new entry. -/
def Limiter.opens (l : Limiter) (now : Int) (k : String) : Bool :=
  match l.m k with
  | none => true
  | some e => decide (minute ≤ durationSub now e.at)

def Limiter.log : Limiter → List LimitCall → List LimitLog
  | _, [] => []
  | l, c :: rest =>
    let res := l.allow c.at c.key
    ⟨c, res.2.1, res.2.2, l.opens c.at c.key⟩ :: res.1.log rest

/-- The limiter after the calls. -/
def Limiter.after (l : Limiter) (calls : List LimitCall) : Limiter :=
  calls.foldl (fun l c => (l.allow c.at c.key).1) l

/-- The calls on a key. -/
def callsOn (k : String) (calls : List LimitCall) : List LimitCall :=
  calls.filter fun c => decide (c.key = k)

def logOn (k : String) (log : List LimitLog) : List LimitLog :=
  log.filter fun c => decide (c.call.key = k)

/-- The calls on a key that passed. -/
def allowedOn (k : String) (log : List LimitLog) : List LimitLog := (logOn k log).filter LimitLog.ok

/-- The calls of the minute that begins at `first`. -/
def inMinute (first : Int) (log : List LimitLog) : List LimitLog :=
  log.filter fun c => decide (first ≤ c.call.at ∧ c.call.at < first + minute)

/-- The calls of the minute that ends at `last`. -/
def minuteTo (last : Int) (log : List LimitLog) : List LimitLog :=
  log.filter fun c => decide (last - minute < c.call.at ∧ c.call.at ≤ last)

/-! ## One key -/

/-- A call changes nothing of another key. -/
theorem allow_other (l : Limiter) (now : Int) {k j : String} (hj : j ≠ k) :
    (l.allow now k).1.m j = l.m j := by
  unfold Limiter.allow
  cases l.m k with
  | none => simp [Limiter.put, hj]
  | some e =>
    simp only
    split
    · simp [Limiter.put, hj]
    · split
      · rfl
      · simp [Limiter.put, hj]

@[simp] theorem allow_max (l : Limiter) (now : Int) (k : String) : (l.allow now k).1.max = l.max :=
  (allow_spec l now k).2.2.2

/-- What a call returns, and the entry it leaves, come from the entry of its key. -/
theorem allow_congr {l l' : Limiter} (now : Int) {k : String} (hm : l.m k = l'.m k)
    (hmax : l.max = l'.max) :
    (l.allow now k).2 = (l'.allow now k).2 ∧ (l.allow now k).1.m k = (l'.allow now k).1.m k := by
  unfold Limiter.allow
  rw [← hm, ← hmax]
  cases hk : l.m k with
  | none => simp [Limiter.put]
  | some e =>
    simp only
    split
    · simp [Limiter.put]
    · split
      · exact ⟨rfl, hm⟩
      · simp [Limiter.put]

theorem log_congr {l l' : Limiter} {k : String} {calls : List LimitCall} (hm : l.m k = l'.m k)
    (hmax : l.max = l'.max) : logOn k (l.log calls) = l'.log (callsOn k calls) := by
  induction calls generalizing l l' with
  | nil => rfl
  | cons c rest ih =>
    rw [Limiter.log]
    by_cases hc : c.key = k
    · subst hc
      obtain ⟨hres, hentry⟩ := allow_congr c.at hm hmax
      have hopens : l.opens c.at c.key = l'.opens c.at c.key := by rw [Limiter.opens, Limiter.opens, hm]
      rw [callsOn, List.filter_cons_of_pos (by simp), Limiter.log, logOn,
        List.filter_cons_of_pos (by simp), ← callsOn, ← logOn, hres, hopens]
      have hmax' : (l.allow c.at c.key).1.max = (l'.allow c.at c.key).1.max := by simpa using hmax
      rw [ih hentry hmax']
    · rw [callsOn, List.filter_cons_of_neg (by simpa using hc), logOn,
        List.filter_cons_of_neg (by simpa using hc), ← callsOn, ← logOn]
      exact ih ((allow_other l c.at (Ne.symm hc)).trans hm) (by simpa using hmax)

/-- **The calls on a key are answered as if there were no others.** -/
theorem log_independent (l : Limiter) (k : String) (calls : List LimitCall) :
    logOn k (l.log calls) = l.log (callsOn k calls) :=
  log_congr rfl rfl

def LimitLog.verdict (c : LimitLog) : Verdict := ⟨c.call.at, c.ok, c.opens⟩

theorem opens_opensAt (l : Limiter) (now : Int) (k : String) :
    l.opens now k = opensAt minute now (l.window k) := by
  unfold Limiter.opens Limiter.window
  cases l.m k with
  | none => rfl
  | some e => simp only [minute_le_durationSub, Option.map_some, opensAt, LimitEntry.window]

/-- The log of a key is that of its window. -/
theorem logOn_verdicts (l : Limiter) (k : String) (calls : List LimitCall) :
    (logOn k (l.log calls)).map LimitLog.verdict =
      verdicts minute l.max (l.window k) ((callsOn k calls).map LimitCall.at) := by
  induction calls generalizing l with
  | nil => rfl
  | cons c rest ih =>
    obtain ⟨hok, hself, hothers, hmax⟩ := allow_spec l c.at c.key
    have hrest := ih (l.allow c.at c.key).1
    rw [hmax] at hrest
    rw [Limiter.log]
    by_cases hc : c.key = k
    · subst hc
      rw [hself] at hrest
      rw [logOn, List.filter_cons_of_pos (by simp), callsOn, List.filter_cons_of_pos (by simp), ← logOn,
        ← callsOn, List.map_cons, List.map_cons, verdicts, hrest]
      simp only [LimitLog.verdict, hok, opens_opensAt]
    · rw [hothers k (Ne.symm hc)] at hrest
      rw [logOn, List.filter_cons_of_neg (by simpa using hc), callsOn,
        List.filter_cons_of_neg (by simpa using hc), ← logOn, ← callsOn, hrest]

theorem logOn_append (k : String) (xs ys : List LimitLog) : logOn k (xs ++ ys) = logOn k xs ++ logOn k ys :=
  List.filter_append ..

theorem logOn_cons {k : String} {c : LimitLog} (hc : c.call.key = k) (rest : List LimitLog) :
    logOn k (c :: rest) = c :: logOn k rest := List.filter_cons_of_pos (by simpa using hc)

theorem allowedOn_length (k : String) (log : List LimitLog) :
    (allowedOn k log).length = ((logOn k log).map LimitLog.verdict).countP Verdict.ok := by
  rw [allowedOn, List.countP_map, List.countP_eq_length_filter]
  rfl

/-- The log of a key around one of its calls. -/
theorem verdicts_split {l : Limiter} {k : String} {calls : List LimitCall} {before rest : List LimitLog}
    {c : LimitLog} (heq : l.log calls = before ++ c :: rest) (hc : c.call.key = k) :
    verdicts minute l.max (l.window k) ((callsOn k calls).map LimitCall.at) =
      (logOn k before).map LimitLog.verdict ++ c.verdict :: (logOn k rest).map LimitLog.verdict := by
  rw [← logOn_verdicts, heq, logOn_append, logOn_cons hc, List.map_append, List.map_cons]

/-! ## What passes -/

theorem newLimiter_sound (max : Int) (k : String) : Sound max ((newLimiter max).window k) := by
  intro w hw
  cases hw

theorem callsOn_sorted {calls : List LimitCall} (hsorted : calls.Pairwise fun x y => x.at ≤ y.at)
    (k : String) : ((callsOn k calls).map LimitCall.at).Pairwise (· ≤ ·) := by
  rw [List.pairwise_map]
  exact hsorted.filter _

/-- From one opening to the next at most `max` calls on the key pass. -/
theorem allowed_of_opening {l : Limiter} {k : String} {calls : List LimitCall} {o : LimitLog}
    {before mid after : List LimitLog} (hmax : 1 ≤ l.max) (heq : l.log calls = before ++ o :: (mid ++ after))
    (ho : o.call.key = k) (hopens : o.opens = true) (hmid : ∀ c ∈ logOn k mid, c.opens = false) :
    ((allowedOn k (o :: mid)).length : Int) ≤ l.max := by
  have hsplit := verdicts_split heq ho
  rw [logOn_append, List.map_append] at hsplit
  have hnone : ∀ v ∈ (logOn k mid).map LimitLog.verdict, v.opens = false := by
    intro v hv
    obtain ⟨c, hc, rfl⟩ := List.mem_map.mp hv
    exact hmid c hc
  rw [allowedOn_length, logOn_cons ho, List.map_cons]
  exact ok_le_max hmax hsplit hopens hnone

/-- In any minute at most `2 * max - 1` calls on the key pass. -/
theorem allowed_in_minute {l : Limiter} {k : String} {calls : List LimitCall} (hmax : 1 ≤ l.max)
    (hsound : Sound l.max (l.window k)) (hsorted : calls.Pairwise fun x y => x.at ≤ y.at) (first : Int) :
    ((inMinute first (allowedOn k (l.log calls))).length : Int) ≤ 2 * l.max - 1 := by
  have hbound : ((within minute first (admitted minute l.max (l.window k)
      ((callsOn k calls).map LimitCall.at))).length : Int) ≤ 2 * l.max - 1 :=
    admitted_within hmax hsound (callsOn_sorted hsorted k) first
  have hlength : (inMinute first (allowedOn k (l.log calls))).length =
      (within minute first (((logOn k (l.log calls)).map LimitLog.verdict).filter Verdict.ok
        |>.map Verdict.time)).length := by
    rw [within, List.filter_map, List.length_map, List.filter_map, List.filter_map, List.length_map]
    rfl
  rw [hlength, logOn_verdicts, verdicts_admitted]
  exact hbound

theorem log_sorted (l : Limiter) {calls : List LimitCall} (hsorted : calls.Pairwise fun x y => x.at ≤ y.at) :
    (l.log calls).Pairwise fun x y => x.call.at ≤ y.call.at := by
  have hcalls : ∀ l : Limiter, (l.log calls).map LimitLog.call = calls := by
    clear hsorted
    induction calls with
    | nil => exact fun _ => rfl
    | cons c rest ih =>
      intro l
      rw [Limiter.log, List.map_cons, ih]
  rw [← hcalls l, List.pairwise_map] at hsorted
  exact hsorted

/-- A call on the key is refused only after `max` calls on it passed in the minute before. -/
theorem refused_after {max : Int} {k : String} {calls : List LimitCall} {before after : List LimitLog}
    {c : LimitLog} (hmax : 1 ≤ max) (hsorted : calls.Pairwise fun x y => x.at ≤ y.at)
    (heq : (newLimiter max).log calls = before ++ c :: after) (hc : c.call.key = k) (hno : c.ok = false) :
    max ≤ ((minuteTo c.call.at (allowedOn k before)).length : Int) := by
  have hbegun : Begun ((callsOn k calls).map LimitCall.at) ((newLimiter max).window k) := by
    intro w hw
    cases hw
  have hmax' : 1 ≤ (newLimiter max).max := hmax
  have hrecent := max_le_recent hmax' (newLimiter_sound max k) hbegun
    (callsOn_sorted hsorted k) (verdicts_split heq hc) hno
  have hbefore : ∀ b ∈ before, b.call.at ≤ c.call.at := by
    have hlog := log_sorted (newLimiter max) hsorted
    rw [heq] at hlog
    intro b hb
    exact (List.pairwise_append.mp hlog).2.2 b hb c List.mem_cons_self
  have hcount : recent minute c.verdict.time ((logOn k before).map LimitLog.verdict) =
      (minuteTo c.call.at (allowedOn k before)).length := by
    rw [recent, List.countP_map, minuteTo, allowedOn, List.filter_filter, List.countP_eq_length_filter]
    congr 1
    apply List.filter_congr
    intro b hb
    have hle : b.call.at ≤ c.call.at := hbefore b (List.mem_of_mem_filter hb)
    simp only [Function.comp_apply, LimitLog.verdict, hle, and_true]
    exact Bool.and_comm ..
  rw [hcount] at hrecent
  simpa [spent, Limiter.window, newLimiter] using hrecent

/-- **The bounds of the fixed window.** Of the calls on a key at most `max` pass from one
opening to the next and at most `2 * max - 1` in any minute, one is refused only after `max`
passed in the minute before, and the calls on other keys make no difference. -/
theorem limiter_bounds {max : Int} {calls : List LimitCall} (hmax : 1 ≤ max)
    (hsorted : calls.Pairwise fun x y => x.at ≤ y.at) (k : String) :
    (∀ before o mid after, (newLimiter max).log calls = before ++ o :: (mid ++ after) →
      o.call.key = k → o.opens = true → (∀ c ∈ logOn k mid, c.opens = false) →
      ((allowedOn k (o :: mid)).length : Int) ≤ max) ∧
    (∀ first, ((inMinute first (allowedOn k ((newLimiter max).log calls))).length : Int) ≤ 2 * max - 1) ∧
    (∀ before c after, (newLimiter max).log calls = before ++ c :: after →
      c.call.key = k → c.ok = false → max ≤ ((minuteTo c.call.at (allowedOn k before)).length : Int)) ∧
    logOn k ((newLimiter max).log calls) = (newLimiter max).log (callsOn k calls) := by
  refine ⟨?_, ?_, ?_, ?_⟩
  · intro before o mid after heq ho hopens hmid
    exact allowed_of_opening (l := newLimiter max) hmax heq ho hopens hmid
  · intro first
    exact allowed_in_minute (l := newLimiter max) hmax (newLimiter_sound max k) hsorted first
  · intro before c after heq hc hno
    exact refused_after hmax hsorted heq hc hno
  · exact log_independent (newLimiter max) k calls

/-- Three calls of one client, the last when the minute of the first is over. -/
theorem limiter_bounds_three : let calls : List LimitCall := [⟨0, "a"⟩, ⟨5, "a"⟩, ⟨minute, "a"⟩]
    ((newLimiter 1).log calls).map LimitLog.ok = [true, false, true] ∧
    ∀ first, ((inMinute first (allowedOn "a" ((newLimiter 1).log calls))).length : Int) ≤ 2 * 1 - 1 :=
  ⟨by decide, (limiter_bounds (by decide) (by decide) "a").2.1⟩

/-! ## How long to wait -/

/-- The time left to the entry of a key. -/
def Limiter.left (l : Limiter) (now : Int) (k : String) : Int :=
  match l.m k with
  | none => 0
  | some e => minute - durationSub now e.at

/-- After the announced seconds a call on the key passes, if those before it since `t` did not. -/
def RetrySound (l : Limiter) (k : String) (t retry : Int) : Prop :=
  ∀ (between : List LimitCall) (u : Int), between.Pairwise (fun x y => x.at ≤ y.at) →
    (∀ c ∈ between, t ≤ c.at ∧ c.at ≤ u) → (∀ c ∈ logOn k (l.log between), c.ok = false) →
    t + retry * second ≤ u → ((l.after between).allow u k).2.1 = true

/-- When a call is refused, and what it returns: the limiter stays as it is. -/
theorem allow_refused {l : Limiter} {now retry : Int} {k : String} (h : (l.allow now k).2 = (false, retry)) :
    (l.allow now k).1 = l ∧ ∃ e, l.m k = some e ∧ durationSub now e.at < minute ∧ l.max ≤ e.n ∧
      retry = if (minute - durationSub now e.at).tdiv second < 1 then 1
        else (minute - durationSub now e.at).tdiv second := by
  unfold Limiter.allow at h ⊢
  cases hk : l.m k with
  | none => simp [hk] at h
  | some e =>
    simp only [hk] at h ⊢
    by_cases hopen : minute ≤ durationSub now e.at
    · simp [hopen] at h
    · by_cases hfull : l.max ≤ e.n
      · simp only [hopen, hfull, if_false, if_true, Prod.mk.injEq, true_and] at h ⊢
        exact ⟨e, rfl, Int.not_le.mp hopen, hfull, h.symm⟩
      · simp [hopen, hfull] at h

/-- The 429 names the seconds `Allow` returned: its own floor of one is never needed. -/
theorem rateLimited_retry {l : Limiter} {now retry : Int} {k : String}
    (h : (l.allow now k).2 = (false, retry)) : handled false retry =
      .limited 429 "RATE_LIMITED" "Too many requests. Try again shortly." retry := by
  obtain ⟨-, e, -, -, -, hretry⟩ := allow_refused h
  have hone : ¬ retry < 1 := by
    split at hretry <;> omega
  rw [handled, if_neg (by decide), rateLimited, if_neg hone]

/-- When a call passes, from the entry of its key. -/
theorem allow_passes {l : Limiter} {k : String} {e : LimitEntry} (he : l.m k = some e) (now : Int) :
    (l.allow now k).2.1 = true ↔ minute ≤ now - e.at ∨ e.n < l.max := by
  unfold Limiter.allow
  rw [he]
  simp only [minute_le_durationSub]
  split
  · next h => simp [h]
  · next h =>
    split
    · next hfull =>
      simp only [Bool.false_eq_true, false_iff]
      omega
    · next hfree =>
      simp only [true_iff]
      omega

/-- Refused calls leave the entry of their key. -/
theorem after_refused {l : Limiter} {k : String} {calls : List LimitCall}
    (h : ∀ c ∈ logOn k (l.log calls), c.ok = false) : (l.after calls).m k = l.m k := by
  induction calls generalizing l with
  | nil => rfl
  | cons c rest ih =>
    have hrest : ∀ x ∈ logOn k ((l.allow c.at c.key).1.log rest), x.ok = false := by
      intro x hx
      apply h x
      rw [Limiter.log, logOn, List.filter_cons]
      split
      · exact List.mem_cons_of_mem _ hx
      · exact hx
    have hstep : (l.allow c.at c.key).1.m k = l.m k := by
      by_cases hc : c.key = k
      · have hno : (l.allow c.at c.key).2.1 = false := h _ (by
          rw [Limiter.log, logOn_cons hc]
          exact List.mem_cons_self)
        have hres : (l.allow c.at c.key).2 = (false, (l.allow c.at c.key).2.2) := Prod.ext hno rfl
        rw [(allow_refused hres).1]
      · exact allow_other l c.at (Ne.symm hc)
    exact (ih hrest).trans hstep

/-- **The announced wait is long enough exactly where it was not rounded down**: the time left
is a whole number of seconds, or less than one second. -/
theorem retry_sound_iff {l : Limiter} {k : String} {t retry : Int}
    (h : (l.allow t k).2 = (false, retry)) :
    RetrySound (l.allow t k).1 k t retry ↔ l.left t k % second = 0 ∨ l.left t k < second := by
  obtain ⟨hsame, e, he, hin, hfull, hretry⟩ := allow_refused h
  have hleft : l.left t k = minute - durationSub t e.at := by rw [Limiter.left, he]
  have hpos : 0 ≤ minute - durationSub t e.at := by omega
  rw [Int.tdiv_eq_ediv_of_nonneg hpos, ← hleft] at hretry
  -- a difference that saturates is no whole number of seconds
  have hsub : durationSub t e.at = t - e.at ∨
      (t - e.at < durationSub t e.at ∧ durationSub t e.at = -2^63) := by
    unfold durationSub minute second at *
    omega
  rw [hsame]
  constructor
  · intro hsound
    have hpass := hsound [] (t + retry * second) List.Pairwise.nil (by simp) (by simp [Limiter.log, logOn])
      (Int.le_refl _)
    have hlong : minute ≤ t + retry * second - e.at := by
      rcases (allow_passes he (t + retry * second)).mp hpass with hlate | hfree
      · exact hlate
      · omega
    unfold minute second at *
    split at hretry <;> omega
  · intro hwhole between u _ _ hno hlate
    have hentry : (l.after between).m k = some e := (after_refused hno).trans he
    refine (allow_passes hentry u).mpr (Or.inl ?_)
    unfold minute second at *
    split at hretry <;> omega

/-- One call a minute, and one call at 0. -/
def onceAtZero : Limiter := ((newLimiter 1).allow 0 "a").1

/-- Half a minute is left, and half a minute is announced. -/
theorem retry_sound_iff_half : RetrySound (onceAtZero.allow (30 * second) "a").1 "a" (30 * second) 30 :=
  (retry_sound_iff (by decide)).mpr (by decide)

/-- The law fails: refused half a second in, a client is told 59 seconds of the 59.5 left. -/
theorem retry_sound_fails :
    ¬ ∀ (l : Limiter) (k : String) (t retry : Int), (l.allow t k).2 = (false, retry) →
      RetrySound (l.allow t k).1 k t retry := by
  intro h
  have hpass := h onceAtZero "a" 500000000 59 (by decide) [] (500000000 + 59 * second) List.Pairwise.nil
    (by decide) (by decide) (by decide)
  exact absurd hpass (by decide)

end Synora
