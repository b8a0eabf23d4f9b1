import Synora.Lib.JsValue

/- Durations of Go, in nanoseconds: `time.ParseDuration` and `int(d.Seconds())`. A text
   of whole segments, such as 1h30m, is parsed to their sum (`parseDuration_text`), and a
   duration that is parsed fits an int64 (`parseDuration_lt`). Rounding to a float64 makes
   no second of less than one (`seconds_eq_zero`), loses none of the first
   (`one_le_seconds`), and whole seconds are exact (`seconds_whole`). -/
namespace GoDuration

open Js

/-! ## `time.ParseDuration` -/

/-- `unitMap`. -/
def unitOf (u : List Char) : Option Nat :=
  if u = ['n', 's'] then some 1
  else if u = ['u', 's'] ∨ u = ['\u00b5', 's'] ∨ u = ['\u03bc', 's'] then some 1000
  else if u = ['m', 's'] then some 1000000
  else if u = ['s'] then some 1000000000
  else if u = ['m'] then some 60000000000
  else if u = ['h'] then some 3600000000000
  else none

/-- `leadingInt`, with the value so far; `none` is an overflow. -/
def leadingInt (x : Nat) : List Char → Option (Nat × List Char)
  | [] => some (x, [])
  | c :: cs =>
    if c.isDigit then
      let y := 10 * x + (c.toNat - '0'.toNat)
      if 2^63 / 10 < x ∨ 2^63 < y then none else leadingInt y cs
    else some (x, c :: cs)

/-- `leadingFraction`, with the value and the scale so far; after an overflow the digits are dropped. -/
def leadingFraction (x scale : Nat) (overflow : Bool) : List Char → Nat × Nat × List Char
  | [] => (x, scale, [])
  | c :: cs =>
    if c.isDigit then
      let y := 10 * x + (c.toNat - '0'.toNat)
      if overflow = true ∨ (2^63 - 1) / 10 < x ∨ 2^63 < y then leadingFraction x scale true cs
      else leadingFraction y (scale * 10) false cs
    else (x, scale, c :: cs)

/-- `uint64(float64(f) * (float64(unit) / scale))`. -/
def fraction (f unit scale : Nat) : Nat :=
  match Number.mul (double f) (double ((unit : ℚ) / scale)) with
  | .finite q => ⌊q⌋.toNat
  | _ => 0

/-- A character of a unit. -/
def inUnit (c : Char) : Bool := !(c.isDigit || decide (c = '.'))

/-- What follows the digits before the point: the fraction, its scale, whether it has digits, the rest. -/
def afterPoint : List Char → Nat × Nat × Bool × List Char
  | '.' :: cs =>
    let (f, scale, rest) := leadingFraction 0 1 false cs
    (f, scale, decide (rest.length ≠ cs.length), rest)
  | cs => (0, 1, false, cs)

/-- One turn of the loop: the nanoseconds, and what is left. -/
def segment (s : List Char) : Option (Nat × List Char) :=
  (leadingInt 0 s).bind fun (v, cs) =>
    let (f, scale, post, cs') := afterPoint cs
    if cs.length = s.length ∧ post = false then none
    else
      (unitOf (cs'.takeWhile inUnit)).bind fun unit =>
        if 2^63 / unit < v then none
        else
          let d := v * unit + if 0 < f then fraction f unit scale else 0
          if 2^63 < d then none else some (d, cs'.dropWhile inUnit)

/-- The loop, with the sum so far. A turn takes at least one character. -/
def sum : Nat → Nat → List Char → Option Nat
  | _, d, [] => some d
  | 0, _, _ :: _ => none
  | fuel + 1, d, s =>
    (segment s).bind fun (v, rest) => if 2^63 < d + v then none else sum fuel (d + v) rest

def signed : List Char → Bool × List Char
  | '-' :: cs => (true, cs)
  | '+' :: cs => (false, cs)
  | cs => (false, cs)

def parseDuration (text : String) : Option Int :=
  let (neg, s) := signed text.toList
  if s = ['0'] then some 0
  else if s = [] then none
  else (sum s.length 0 s).bind fun d =>
    if neg then some (-(d : Int)) else if 2^63 - 1 < d then none else some (d : Int)

/-- `int(x)`. -/
def trunc : Number → Int
  | .finite q => if 0 ≤ q then ⌊q⌋ else ⌈q⌉
  | _ => 0

/-- `int(d.Seconds())`. -/
def seconds (d : Int) : Int :=
  trunc (Number.add (double (d.tdiv 1000000000)) (double ((d.tmod 1000000000 : ℚ) / 1000000000)))

/-! ## Texts of whole segments -/

inductive TimeUnit where
  | nanosecond
  | microsecond
  | millisecond
  | second
  | minute
  | hour
  deriving DecidableEq

namespace TimeUnit

def text : TimeUnit → List Char
  | nanosecond => ['n', 's']
  | microsecond => ['u', 's']
  | millisecond => ['m', 's']
  | second => ['s']
  | minute => ['m']
  | hour => ['h']

def nanoseconds : TimeUnit → Nat
  | nanosecond => 1
  | microsecond => 1000
  | millisecond => 1000000
  | second => 1000000000
  | minute => 60000000000
  | hour => 3600000000000

theorem unitOf_text (u : TimeUnit) : unitOf u.text = some u.nanoseconds := by
  cases u <;> rfl

theorem text_ne_nil (u : TimeUnit) : u.text ≠ [] := by
  cases u <;> exact List.cons_ne_nil _ _

theorem inUnit_text {u : TimeUnit} {c : Char} (h : c ∈ u.text) : inUnit c = true := by
  have hall : u.text.all inUnit = true := by cases u <;> rfl
  exact List.all_eq_true.mp hall c h

theorem nanoseconds_pos (u : TimeUnit) : 0 < u.nanoseconds := by
  cases u <;> decide

end TimeUnit

/-- Such as 1h30m. -/
def textOf (segs : List (Nat × TimeUnit)) : List Char := segs.flatMap fun x => Nat.toDigits 10 x.1 ++ x.2.text

def total (segs : List (Nat × TimeUnit)) : Nat := (segs.map fun x => x.1 * x.2.nanoseconds).sum

theorem le_ofDigitChars (x : Nat) (ds : List Char) : x ≤ Nat.ofDigitChars 10 ds x := by
  rw [Nat.ofDigitChars_eq_ofDigitChars_zero]
  have hpow : 1 * x ≤ 10 ^ ds.length * x := Nat.mul_le_mul_right x (Nat.one_le_pow _ _ (by decide))
  omega

/-- Digits are read to their end, unless their value is too large. -/
theorem leadingInt_digits {ds rest : List Char} (hds : ∀ c ∈ ds, c.isDigit = true)
    (hrest : ∀ c ∈ rest.head?, c.isDigit = false) {x : Nat} (h : Nat.ofDigitChars 10 ds x ≤ 2^63) :
    leadingInt x (ds ++ rest) = some (Nat.ofDigitChars 10 ds x, rest) := by
  induction ds generalizing x with
  | nil =>
    cases rest with
    | nil => rfl
    | cons c cs =>
      have hc : c.isDigit = false := hrest c rfl
      simp [leadingInt, hc]
  | cons c ds ih =>
    have hc : c.isDigit = true := hds c List.mem_cons_self
    rw [Nat.ofDigitChars_cons] at h
    have hy := (le_ofDigitChars (10 * x + (c.toNat - '0'.toNat)) ds).trans h
    rw [List.cons_append, leadingInt, if_pos hc, if_neg (by omega),
      ih (fun e he => hds e (List.mem_cons_of_mem c he)) h, Nat.ofDigitChars_cons]

theorem takeWhile_unit {u : TimeUnit} {rest : List Char} (hrest : ∀ c ∈ rest.head?, c.isDigit = true) :
    (u.text ++ rest).takeWhile inUnit = u.text ∧ (u.text ++ rest).dropWhile inUnit = rest := by
  have hall : ∀ c ∈ u.text, inUnit c = true := fun c => TimeUnit.inUnit_text
  have hstop : rest.takeWhile inUnit = [] ∧ rest.dropWhile inUnit = rest := by
    cases rest with
    | nil => exact ⟨rfl, rfl⟩
    | cons c cs =>
      have hc : inUnit c = false := by
        rw [inUnit, hrest c rfl]
        rfl
      simp [hc]
  rw [List.takeWhile_append_of_pos hall, List.dropWhile_append_of_pos hall, hstop.1, hstop.2, List.append_nil]
  exact ⟨rfl, rfl⟩

/-- A turn of the loop takes a number with its unit. -/
theorem segment_text (n : Nat) (u : TimeUnit) {rest : List Char} (hrest : ∀ c ∈ rest.head?, c.isDigit = true)
    (h : n * u.nanoseconds ≤ 2^63) :
    segment (Nat.toDigits 10 n ++ u.text ++ rest) = some (n * u.nanoseconds, rest) := by
  have hpos := u.nanoseconds_pos
  have hn : n ≤ 2^63 / u.nanoseconds := (Nat.le_div_iff_mul_le hpos).mpr h
  have hdigits : leadingInt 0 (Nat.toDigits 10 n ++ (u.text ++ rest)) = some (n, u.text ++ rest) := by
    have hvalue : Nat.ofDigitChars 10 (Nat.toDigits 10 n) 0 = n := Nat.ofDigitChars_ten_toDigits
    have hunit : ∀ c ∈ (u.text ++ rest).head?, c.isDigit = false := by
      cases u <;> simp [TimeUnit.text]
    have hread := leadingInt_digits (x := 0) (fun c hc => Json.digit_of_toDigits (n := n) hc) hunit
      (by rw [hvalue]; exact hn.trans (Nat.div_le_self _ _))
    rw [hvalue] at hread
    exact hread
  have hpoint : afterPoint (u.text ++ rest) = (0, 1, false, u.text ++ rest) := by
    cases u <;> rfl
  obtain ⟨htake, hdrop⟩ := takeWhile_unit (u := u) hrest
  have hsome : Nat.toDigits 10 n ≠ [] := Nat.toDigits_ne_nil
  rw [List.append_assoc, segment, hdigits]
  simp only [Option.bind_some, hpoint]
  rw [if_neg (by simp [hsome]), htake, u.unitOf_text, Option.bind_some, if_neg (Nat.not_lt.mpr hn), hdrop]
  simp only [Nat.lt_irrefl, if_false, Nat.add_zero]
  rw [if_neg (Nat.not_lt.mpr h)]

theorem textOf_head (segs : List (Nat × TimeUnit)) : ∀ c ∈ (textOf segs).head?, c.isDigit = true := by
  cases segs with
  | nil => simp [textOf]
  | cons x segs =>
    intro c hc
    rw [textOf, List.flatMap_cons, List.append_assoc, List.head?_append_of_ne_nil _ Nat.toDigits_ne_nil] at hc
    exact Json.digit_of_toDigits (List.mem_of_mem_head? hc)

/-- The loop sums up the segments. -/
theorem sum_text (segs : List (Nat × TimeUnit)) {fuel d : Nat} (hfuel : (textOf segs).length ≤ fuel)
    (h : d + total segs ≤ 2^63) : sum fuel d (textOf segs) = some (d + total segs) := by
  induction segs generalizing fuel d with
  | nil => cases fuel <;> rfl
  | cons x segs ih =>
    have hlength : 1 ≤ (Nat.toDigits 10 x.1 ++ x.2.text).length := by
      rw [List.length_append]
      have := List.length_pos_iff.mpr x.2.text_ne_nil
      omega
    have htotal : total (x :: segs) = x.1 * x.2.nanoseconds + total segs := by
      rw [total, List.map_cons, List.sum_cons]
      rfl
    have htext : textOf (x :: segs) = Nat.toDigits 10 x.1 ++ x.2.text ++ textOf segs := List.flatMap_cons
    rw [htext, List.length_append] at hfuel
    rw [htotal] at h ⊢
    rw [htext]
    have hsegment := segment_text x.1 x.2 (textOf_head segs) (by omega)
    obtain ⟨fuel, rfl⟩ : ∃ k, fuel = k + 1 := ⟨fuel - 1, by omega⟩
    obtain ⟨c, cs, hcons⟩ := List.exists_cons_of_ne_nil
      (l := Nat.toDigits 10 x.1 ++ x.2.text ++ textOf segs) (by simp [Nat.toDigits_ne_nil])
    rw [hcons] at hsegment ⊢
    simp only [sum, hsegment, Option.bind_some]
    rw [if_neg (by omega), ih (by omega) (by omega), Nat.add_assoc]

/-- **A text of whole segments is parsed to their sum.** -/
theorem parseDuration_text {segs : List (Nat × TimeUnit)} (hne : segs ≠ []) (h : total segs < 2^63) :
    parseDuration (String.ofList (textOf segs)) = some (total segs : Int) := by
  obtain ⟨x, rest, rfl⟩ := List.exists_cons_of_ne_nil hne
  have hsum := sum_text (x :: rest) (d := 0) (Nat.le_refl _) (by omega)
  rw [Nat.zero_add] at hsum
  have hhead := textOf_head (x :: rest)
  have htwo : 2 ≤ (textOf (x :: rest)).length := by
    have hdigits := List.length_pos_iff.mpr (Nat.toDigits_ne_nil (n := x.1) (b := 10))
    have hunit := List.length_pos_iff.mpr x.2.text_ne_nil
    rw [textOf, List.flatMap_cons, List.length_append, List.length_append]
    omega
  generalize textOf (x :: rest) = s at hsum hhead htwo
  have hsigned : signed s = (false, s) := by
    cases s with
    | nil => rfl
    | cons c cs =>
      have hc : c.isDigit = true := hhead c rfl
      unfold signed
      split
      · next heq =>
        rw [(List.cons.inj heq).1] at hc
        exact absurd hc (by decide)
      · next heq =>
        rw [(List.cons.inj heq).1] at hc
        exact absurd hc (by decide)
      · rfl
  rw [parseDuration, String.toList_ofList, hsigned]
  simp only [Bool.false_eq_true, if_false]
  rw [if_neg (by rintro rfl; simp at htwo), if_neg (by rintro rfl; simp at htwo), hsum, Option.bind_some,
    if_neg (by omega)]

/-- A duration that is parsed fits an int64. -/
theorem parseDuration_lt {text : String} {d : Int} (h : parseDuration text = some d) : d < 2^63 := by
  unfold parseDuration at h
  simp only at h
  split at h
  · cases h
    decide
  split at h
  · cases h
  obtain ⟨k, -, hk⟩ := Option.bind_eq_some_iff.mp h
  split at hk
  · cases hk
    omega
  split at hk
  · cases hk
  · cases hk
    omega

/-! ## Seconds -/

theorem nearest_le (q : ℚ) : (nearest q : ℚ) ≤ q + 1 / 2 := by
  have hfloor := Int.floor_le q
  unfold nearest
  split
  · linarith
  · next h =>
    have hhalf : 1 / 2 ≤ q - ⌊q⌋ := not_lt.mp (not_or.mp h).1
    push_cast
    linarith

theorem floor_le_nearest (q : ℚ) : ⌊q⌋ ≤ nearest q := by
  unfold nearest
  split
  · exact le_refl _
  · omega

theorem lastBit_le {q : ℚ} {k : ℤ} (hpos : 0 < q) (h : q < 2 ^ k) : lastBit q ≤ max (k - 53) (-1074) := by
  have hlog : Int.log 2 |q| < k := by
    rw [abs_of_pos hpos]
    exact (Int.lt_zpow_iff_log_lt (by decide) hpos).mp (by exact_mod_cast h)
  unfold lastBit
  omega

/-- A number is rounded up by half of its last bit at most, and not below a multiple of that bit. -/
theorem double_between {q : ℚ} (hbit : lastBit q ≤ 0) (h : q < 2 ^ 53) {m : ℤ} (hpos : 0 ≤ m)
    (hm : (m : ℚ) * 2 ^ lastBit q ≤ q) :
    ∃ r, double q = .finite r ∧ (m : ℚ) * 2 ^ lastBit q ≤ r ∧ r ≤ q + 2 ^ lastBit q / 2 := by
  have hunit : (0 : ℚ) < 2 ^ lastBit q := zpow_pos two_pos _
  have hsmall : (2 : ℚ) ^ lastBit q ≤ 1 := zpow_le_one_of_nonpos₀ one_le_two hbit
  have hlower : (m : ℚ) * 2 ^ lastBit q ≤ nearest (q / 2 ^ lastBit q) * 2 ^ lastBit q := by
    have hfloor : m ≤ ⌊q / 2 ^ lastBit q⌋ := Int.le_floor.mpr ((le_div_iff₀ hunit).mpr hm)
    have hnearest : (m : ℚ) ≤ nearest (q / 2 ^ lastBit q) := by
      exact_mod_cast hfloor.trans (floor_le_nearest _)
    exact mul_le_mul_of_nonneg_right hnearest hunit.le
  have hupper : nearest (q / 2 ^ lastBit q) * 2 ^ lastBit q ≤ q + 2 ^ lastBit q / 2 := by
    calc (nearest (q / 2 ^ lastBit q) : ℚ) * 2 ^ lastBit q
        ≤ (q / 2 ^ lastBit q + 1 / 2) * 2 ^ lastBit q := mul_le_mul_of_nonneg_right (nearest_le _) hunit.le
      _ = q + 2 ^ lastBit q / 2 := by
        rw [add_mul, div_mul_cancel₀ _ hunit.ne']
        ring
  have hnonneg : (0 : ℚ) ≤ m * 2 ^ lastBit q := mul_nonneg (by exact_mod_cast hpos) hunit.le
  refine ⟨_, ?_, hlower, hupper⟩
  -- far below the overflow, the rounded value is the number
  unfold double
  rw [if_pos]
  rw [abs_of_nonneg (hnonneg.trans hlower)]
  calc (nearest (q / 2 ^ lastBit q) : ℚ) * 2 ^ lastBit q
      ≤ q + 2 ^ lastBit q / 2 := hupper
    _ < 2 ^ 54 := by norm_num at h ⊢; linarith
    _ ≤ 2 ^ 1024 := pow_le_pow_right₀ one_le_two (by decide)

/-- A fraction stays one, and is rounded up by `2^-54` at most. -/
theorem double_fraction {q : ℚ} (h0 : 0 ≤ q) (h : q < 1) :
    ∃ r, double q = .finite r ∧ 0 ≤ r ∧ r ≤ q + 1 / 2 ^ 54 := by
  rcases h0.eq_or_lt with rfl | hpos
  · refine ⟨0, by exact_mod_cast double_intCast (n := 0) (by decide), le_refl _, by positivity⟩
  · have hbit : lastBit q ≤ -53 := lastBit_le (k := 0) hpos (by simpa using h)
    obtain ⟨r, hr, hlower, hupper⟩ :=
      double_between (q := q) (by omega) (by linarith) (m := 0) (le_refl _) (by simpa using h0)
    have hunit : (2 : ℚ) ^ lastBit q ≤ 2 ^ (-53 : ℤ) := zpow_le_zpow_right₀ one_le_two hbit
    refine ⟨r, hr, by simpa using hlower, hupper.trans ?_⟩
    calc q + 2 ^ lastBit q / 2
        ≤ q + 2 ^ (-53 : ℤ) / 2 := by gcongr
      _ = q + 1 / 2 ^ 54 := by norm_num

/-- What is above a whole number is not rounded below it. -/
theorem double_above {q : ℚ} {m : ℤ} (hpos : 1 ≤ m) (hm : (m : ℚ) ≤ q) (h : q < 2 ^ 53) :
    ∃ r, double q = .finite r ∧ (m : ℚ) ≤ r := by
  have hq : 0 < q := lt_of_lt_of_le (by exact_mod_cast hpos) hm
  have hbit : lastBit q ≤ 0 := lastBit_le (k := 53) hq (by exact_mod_cast h)
  obtain ⟨k, hk⟩ : ∃ k : ℕ, lastBit q = -k := ⟨(-lastBit q).toNat, by omega⟩
  -- a whole number is a multiple of the last bit
  have hmultiple : ((m * 2 ^ k : ℤ) : ℚ) * 2 ^ lastBit q = m := by
    rw [hk, zpow_neg, zpow_natCast]
    push_cast
    rw [mul_assoc, mul_inv_cancel₀ (pow_ne_zero k two_ne_zero), mul_one]
  obtain ⟨r, hr, hlower, -⟩ :=
    double_between hbit h (m := m * 2 ^ k) (by positivity) (by rw [hmultiple]; exact hm)
  rw [hmultiple] at hlower
  exact ⟨r, hr, hlower⟩

/-- The part of a duration below a second. -/
theorem tmod_fraction {d : Int} (h : 0 ≤ d) :
    (0 : ℚ) ≤ (d.tmod 1000000000 : ℚ) / 1000000000 ∧
      (d.tmod 1000000000 : ℚ) / 1000000000 ≤ 999999999 / 1000000000 := by
  have hnonneg : 0 ≤ d.tmod 1000000000 := Int.tmod_nonneg _ h
  have hlt : d.tmod 1000000000 ≤ 999999999 := by
    rw [Int.tmod_eq_emod_of_nonneg h]
    omega
  have hnonneg' : (0 : ℚ) ≤ (d.tmod 1000000000 : ℚ) := by exact_mod_cast hnonneg
  have hlt' : (d.tmod 1000000000 : ℚ) ≤ 999999999 := by exact_mod_cast hlt
  constructor
  · positivity
  · linarith

theorem seconds_of {d : Int} {p r q : ℚ} (hp : double (d.tdiv 1000000000) = .finite p)
    (hr : double ((d.tmod 1000000000 : ℚ) / 1000000000) = .finite r) (hq : double (p + r) = .finite q)
    (h : 0 ≤ q) : seconds d = ⌊q⌋ := by
  have hadd : Number.add (.finite p) (.finite r) = .finite q := hq
  unfold seconds
  rw [hp, hr, hadd]
  exact if_pos h

/-- The whole seconds of a duration are a float64. -/
theorem double_tdiv {d : Int} (h0 : 0 ≤ d) (h : d < 2^63) :
    double (d.tdiv 1000000000) = .finite (d.tdiv 1000000000 : ℤ) := by
  have hdiv : d.tdiv 1000000000 = d / 1000000000 := Int.tdiv_eq_ediv_of_nonneg h0
  apply double_intCast
  rw [hdiv, abs_of_nonneg (by omega)]
  omega

/-- Below a second there are no seconds. -/
theorem seconds_eq_zero {d : Int} (h0 : 0 ≤ d) (h : d < 1000000000) : seconds d = 0 := by
  obtain ⟨hnonneg, hlt⟩ := tmod_fraction h0
  obtain ⟨r, hr, hr0, hr1⟩ := double_fraction hnonneg (by linarith)
  have hround : (1 : ℚ) / 2 ^ 54 < 1 / 4000000000 := by norm_num
  obtain ⟨q, hq, hq0, hq1⟩ := double_fraction (q := r) hr0 (by linarith)
  have hwhole := double_tdiv h0 (by omega)
  have hzero : d.tdiv 1000000000 = 0 := by
    rw [Int.tdiv_eq_ediv_of_nonneg h0]
    omega
  rw [hzero] at hwhole
  have hsum : double (((0 : ℤ) : ℚ) + r) = .finite q := by
    rw [Int.cast_zero, zero_add]
    exact hq
  rw [seconds_of (by rw [hzero]; exact hwhole) hr hsum hq0]
  exact Int.floor_eq_iff.mpr ⟨by exact_mod_cast hq0, by push_cast; linarith⟩

/-- From a second on there is one. -/
theorem one_le_seconds {d : Int} (hd : 1000000000 ≤ d) (h : d < 2^63) : 1 ≤ seconds d := by
  have h0 : 0 ≤ d := by omega
  obtain ⟨hnonneg, hlt⟩ := tmod_fraction h0
  obtain ⟨r, hr, hr0, hr1⟩ := double_fraction hnonneg (by linarith)
  have hround : (1 : ℚ) / 2 ^ 54 < 1 / 4000000000 := by norm_num
  have hwhole := double_tdiv h0 h
  have hdiv : d.tdiv 1000000000 = d / 1000000000 := Int.tdiv_eq_ediv_of_nonneg h0
  have hone : 1 ≤ d.tdiv 1000000000 := by omega
  have hbound : (d.tdiv 1000000000 : ℚ) ≤ 10000000000 := by
    have : d.tdiv 1000000000 ≤ 10000000000 := by omega
    exact_mod_cast this
  have hle : ((d.tdiv 1000000000 : ℤ) : ℚ) ≤ (d.tdiv 1000000000 : ℤ) + r := by linarith
  have hmax : ((d.tdiv 1000000000 : ℤ) : ℚ) + r < 2 ^ 53 := by
    norm_num
    linarith
  obtain ⟨q, hq, hlower⟩ := double_above hone hle hmax
  have hone' : (1 : ℚ) ≤ q := le_trans (by exact_mod_cast hone) hlower
  rw [seconds_of hwhole hr hq (zero_le_one.trans hone')]
  exact Int.le_floor.mpr (by exact_mod_cast hone')

/-- Whole seconds are counted exactly. -/
theorem seconds_whole {n : Nat} (h : n * 1000000000 < 2^63) : seconds (n * 1000000000 : Nat) = n := by
  have hdiv : ((n * 1000000000 : Nat) : Int).tdiv 1000000000 = n := by
    push_cast
    exact Int.mul_tdiv_cancel _ (by decide)
  have hmod : ((n * 1000000000 : Nat) : Int).tmod 1000000000 = 0 := by
    push_cast
    exact Int.mul_tmod_left _ _
  have hwhole := double_tdiv (d := (n * 1000000000 : Nat)) (by omega) (by omega)
  have hzero : double 0 = .finite 0 := by exact_mod_cast double_intCast (n := 0) (by decide)
  have hrest : double ((((n * 1000000000 : Nat) : Int).tmod 1000000000 : ℚ) / 1000000000) = .finite 0 := by
    rw [hmod, Int.cast_zero, zero_div]
    exact hzero
  have hsum : double (((((n * 1000000000 : Nat) : Int).tdiv 1000000000 : ℤ) : ℚ) + 0) =
      .finite (((n * 1000000000 : Nat) : Int).tdiv 1000000000 : ℤ) := by
    rw [add_zero]
    exact hwhole
  rw [seconds_of hwhole hrest hsum (by rw [hdiv]; positivity), Int.floor_intCast, hdiv]

end GoDuration
