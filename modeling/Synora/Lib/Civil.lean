import Mathlib.Data.List.Basic

/- The proleptic Gregorian calendar. A date is valid by construction; `Date.days`
   counts from 1970-01-01 and `ofDays` is the date of a day. The cycles of 400,
   100, 4 and 1 years are cut off one after the other; the last year of a cycle
   may be longer than the others, which is why two of the quotients are bounded
   by 3. -/
namespace Civil

/-- Every fourth year, but of the years that end a century every fourth one only. -/
def isLeap (year : Int) : Bool := decide (year % 4 = 0 ∧ (year % 100 ≠ 0 ∨ year % 400 = 0))

def monthDays (leap : Bool) : Nat → Nat
  | 2 => if leap then 29 else 28
  | 4 | 6 | 9 | 11 => 30
  | _ => 31

/-- The days of a year before a month. -/
def daysBefore (leap : Bool) : Nat → Nat
  | 0 | 1 => 0
  | m + 2 => daysBefore leap (m + 1) + monthDays leap (m + 1)

/-- A day of a year, as a month and a day: the months from `month` on are passed while they
are shorter than what is left. -/
def monthDay (leap : Bool) : Nat → Nat → Nat → Nat × Nat
  | 0, month, d => (month, d + 1)
  | n + 1, month, d =>
    if d < monthDays leap month then (month, d + 1)
    else monthDay leap n (month + 1) (d - monthDays leap month)

structure Date where
  year : Int
  month : Nat
  day : Nat
  month_range : 1 ≤ month ∧ month ≤ 12
  day_range : 1 ≤ day ∧ day ≤ monthDays (isLeap year) month
  deriving DecidableEq

/-- The days from 1970-01-01 to the first of January of a year. -/
def yearDays (year : Int) : Int :=
  365 * (year - 1) + (year - 1) / 4 - (year - 1) / 100 + (year - 1) / 400 - 719162

def Date.days (d : Date) : Int := yearDays d.year + daysBefore (isLeap d.year) d.month + d.day - 1

/-- The year of a day, and the days of that year before it. -/
def yearDay (days : Int) : Int × Nat :=
  let d := days + 719162
  let n400 := d / 146097
  let d := d % 146097
  let n100 := min (d / 36524) 3
  let d := d - 36524 * n100
  let n4 := d / 1461
  let d := d % 1461
  let n1 := min (d / 365) 3
  (400 * n400 + 100 * n100 + 4 * n4 + n1 + 1, (d - 365 * n1).toNat)

/-- The cycles a day lies in: `a` of 400 years, `b` of 100, `c` of 4 and `e` of one, and `y` days
into its year, the 366th only where the cycles allow for it. -/
theorem yearDay_cycles (days : Int) : ∃ a b c e y : Int,
    days + 719162 = 146097 * a + 36524 * b + 1461 * c + 365 * e + y ∧
      (0 ≤ b ∧ b ≤ 3) ∧ (0 ≤ c ∧ c ≤ 24) ∧ (0 ≤ e ∧ e ≤ 3) ∧ 0 ≤ y ∧
      (y < 365 ∨ y = 365 ∧ e = 3 ∧ (c ≠ 24 ∨ b = 3)) ∧
      yearDay days = (400 * a + 100 * b + 4 * c + e + 1, y.toNat) := by
  unfold yearDay
  simp only
  obtain ⟨d, hd⟩ : ∃ d, d = days + 719162 := ⟨_, rfl⟩
  rw [← hd]
  obtain ⟨a, ha⟩ : ∃ a, a = d / 146097 := ⟨_, rfl⟩
  obtain ⟨r, hr⟩ : ∃ r, r = d % 146097 := ⟨_, rfl⟩
  rw [← ha, ← hr]
  obtain ⟨b, hb⟩ : ∃ b, b = min (r / 36524) 3 := ⟨_, rfl⟩
  rw [← hb]
  obtain ⟨r₂, hr₂⟩ : ∃ r₂, r₂ = r - 36524 * b := ⟨_, rfl⟩
  rw [← hr₂]
  obtain ⟨c, hc⟩ : ∃ c, c = r₂ / 1461 := ⟨_, rfl⟩
  obtain ⟨r₃, hr₃⟩ : ∃ r₃, r₃ = r₂ % 1461 := ⟨_, rfl⟩
  rw [← hc, ← hr₃]
  obtain ⟨e, he⟩ : ∃ e, e = min (r₃ / 365) 3 := ⟨_, rfl⟩
  rw [← he]
  -- only the last century of a cycle has a 25th leap year, its 36525th day
  have h2 : 0 ≤ b ∧ b ≤ 3 ∧ 0 ≤ r₂ ∧ (r₂ < 36524 ∨ b = 3 ∧ r₂ = 36524) := by omega
  have h3 : 0 ≤ c ∧ c ≤ 24 ∧ 0 ≤ r₃ ∧ r₃ ≤ 1460 ∧ (r₃ < 1460 ∨ c ≠ 24 ∨ b = 3) := by omega
  have h4 : 0 ≤ e ∧ e ≤ 3 ∧ 0 ≤ r₃ - 365 * e ∧
      (r₃ - 365 * e < 365 ∨ r₃ - 365 * e = 365 ∧ e = 3 ∧ r₃ = 1460) := by omega
  exact ⟨a, b, c, e, r₃ - 365 * e, by omega, ⟨h2.1, h2.2.1⟩, ⟨h3.1, h3.2.1⟩, ⟨h4.1, h4.2.1⟩,
    h4.2.2.1, by omega, rfl⟩

/-- The year of a day begins where it should, and the day is within it. -/
theorem yearDay_spec (days : Int) :
    yearDays (yearDay days).1 + (yearDay days).2 = days ∧
      (yearDay days).2 < (if isLeap (yearDay days).1 = true then 366 else 365) := by
  obtain ⟨a, b, c, e, y, hd, hb, hc, he, hy, hlast, heq⟩ := yearDay_cycles days
  rw [heq]
  constructor
  · have h4 : (400 * a + 100 * b + 4 * c + e) / 4 = 100 * a + 25 * b + c := by omega
    have h100 : (400 * a + 100 * b + 4 * c + e) / 100 = 4 * a + b := by omega
    have h400 : (400 * a + 100 * b + 4 * c + e) / 400 = a := by omega
    simp only [yearDays, Int.add_sub_cancel, h4, h100, h400]
    omega
  · rcases hlast with hlt | ⟨hy', he', hcb⟩
    · simp only
      split <;> omega
    · have hleap : isLeap (400 * a + 100 * b + 4 * c + e + 1) = true := by
        unfold isLeap
        rw [decide_eq_true_eq]
        omega
      simp only [hleap, if_true]
      omega

/-- A day of the year is the day of the month it is made. -/
theorem monthDay_spec : ∀ leap : Bool, ∀ d : Fin (if leap = true then 366 else 365),
    (1 ≤ (monthDay leap 11 1 d).1 ∧ (monthDay leap 11 1 d).1 ≤ 12) ∧
      (1 ≤ (monthDay leap 11 1 d).2 ∧
        (monthDay leap 11 1 d).2 ≤ monthDays leap (monthDay leap 11 1 d).1) ∧
      daysBefore leap (monthDay leap 11 1 d).1 + (monthDay leap 11 1 d).2 = d + 1 := by
  decide +kernel

/-- The date of a day. -/
def ofDays (days : Int) : Date where
  year := (yearDay days).1
  month := (monthDay (isLeap (yearDay days).1) 11 1 (yearDay days).2).1
  day := (monthDay (isLeap (yearDay days).1) 11 1 (yearDay days).2).2
  month_range := (monthDay_spec _ ⟨_, (yearDay_spec days).2⟩).1
  day_range := (monthDay_spec _ ⟨_, (yearDay_spec days).2⟩).2.1

/-- **A day is the day of its date.** -/
@[simp] theorem days_ofDays (days : Int) : (ofDays days).days = days := by
  have hyear := (yearDay_spec days).1
  have hmonth := (monthDay_spec _ ⟨_, (yearDay_spec days).2⟩).2.2
  unfold Date.days ofDays
  simp only at hmonth ⊢
  omega

end Civil
