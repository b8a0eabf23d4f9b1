import Synora.Lib.Civil
import Mathlib.Algebra.Group.Int.Defs
import Mathlib.Algebra.Group.Nat.Defs
import Mathlib.Data.List.DropRight

/- RFC 3339 texts of instants, as Go's `time` writes and reads them. An instant is
   in nanoseconds since the Unix epoch. `format` is the layout RFC3339Nano in UTC:
   a year of at least four digits, and a fraction without trailing zeros. `parse`
   is `time.Parse` with that layout; it takes an hour of one digit, a comma for
   the point and any offset, and a year of exactly four digits. So the texts of
   the years 0 to 9999 are read back, and no others (`parse_format`,
   `parse_format_none`). -/
namespace Rfc3339

open Civil

def billion : Int := 1000000000

/-! ## Writing -/

/-- A number with leading zeros up to a width. -/
def padded (width n : Nat) : List Char :=
  List.replicate (width - (Nat.toDigits 10 n).length) '0' ++ Nat.toDigits 10 n

/-- A year: a sign if it is negative, and at least four digits. -/
def yearText (year : Int) : List Char :=
  if year < 0 then '-' :: padded 4 year.natAbs else padded 4 year.natAbs

/-- Digits without the zeros at their end. -/
def trimZeros (ds : List Char) : List Char := ds.rdropWhile (· == '0')

/-- The fraction of a second, with its point, if there is one. -/
def fraction (nanos : Nat) : List Char :=
  if nanos = 0 then [] else '.' :: trimZeros (padded 9 nanos)

/-- The date and the time of day in UTC. -/
def dateOf (ns : Int) : Date := ofDays (ns / billion / 86400)
def secondOfDay (ns : Int) : Nat := (ns / billion % 86400).toNat
def nanosOf (ns : Int) : Nat := (ns % billion).toNat

def clockText (s nanos : Nat) : List Char :=
  padded 2 (s / 3600) ++ ':' :: (padded 2 (s / 60 % 60) ++ ':' :: (padded 2 (s % 60) ++
    (fraction nanos ++ ['Z'])))

def formatChars (ns : Int) : List Char :=
  yearText (dateOf ns).year ++ '-' :: (padded 2 (dateOf ns).month ++ '-' ::
    (padded 2 (dateOf ns).day ++ 'T' :: clockText (secondOfDay ns) (nanosOf ns)))

/-- `t.UTC().Format(time.RFC3339Nano)`. -/
def format (ns : Int) : String := String.ofList (formatChars ns)

/-! ## Reading -/

def digit (c : Char) : Nat := c.toNat - '0'.toNat

/-- One or two digits; two if `fixed`. -/
def getnum (fixed : Bool) : List Char → Option (Nat × List Char)
  | [] => none
  | [a] => if a.isDigit && !fixed then some (digit a, []) else none
  | a :: b :: cs =>
    if a.isDigit then
      if b.isDigit then some (10 * digit a + digit b, cs)
      else if fixed then none else some (digit a, b :: cs)
    else none

/-- A character of the layout. -/
def skip (c : Char) : List Char → Option (List Char)
  | d :: cs => if d = c then some cs else none
  | [] => none

/-- Four digits. -/
def readYear (cs : List Char) : Option (Nat × List Char) :=
  if (cs.take 4).length = 4 ∧ (cs.take 4).all Char.isDigit then
    some (Nat.ofDigitChars 10 (cs.take 4) 0, cs.drop 4)
  else none

/-- A number in a range. -/
def inRange (low high : Nat) (r : Nat × List Char) : Option (Nat × List Char) :=
  if low ≤ r.1 ∧ r.1 ≤ high then some r else none

/-- The nanoseconds of a fraction: nine digits count. -/
def nanosFrom (ds : List Char) : Nat :=
  Nat.ofDigitChars 10 (ds.take 9) 0 * 10 ^ (9 - (ds.take 9).length)

/-- A point or a comma with digits after it, if it is there. -/
def readFraction : List Char → Nat × List Char
  | p :: cs =>
    if (p = '.' ∨ p = ',') ∧ cs.takeWhile Char.isDigit ≠ [] then
      (nanosFrom (cs.takeWhile Char.isDigit), cs.dropWhile Char.isDigit)
    else (0, p :: cs)
  | [] => (0, [])

/-- `Z`, or a sign with hours and minutes; in seconds. -/
def readZone : List Char → Option (Int × List Char)
  | 'Z' :: cs => some (0, cs)
  | sign :: h :: h' :: ':' :: m :: m' :: cs => do
    let (hr, _) ← getnum true [h, h']
    let (mm, _) ← getnum true [m, m']
    if hr > 24 ∨ mm > 60 then none
    else if sign = '+' then some (((hr * 60 + mm) * 60 : Nat), cs)
    else if sign = '-' then some (-((hr * 60 + mm) * 60 : Nat), cs)
    else none
  | _ => none

/-- The time of day and the zone, to the end of the text. -/
def readClock (cs : List Char) : Option Int := do
  let (hour, cs) ← (getnum false cs).bind (inRange 0 23)
  let cs ← skip ':' cs
  let (minute, cs) ← (getnum true cs).bind (inRange 0 59)
  let cs ← skip ':' cs
  let (second, cs) ← (getnum true cs).bind (inRange 0 59)
  let (nanos, cs) := readFraction cs
  let (offset, cs) ← readZone cs
  if cs = [] then some ((((hour * 60 + minute) * 60 + second : Nat) - offset) * billion + nanos) else none

def parseChars (cs : List Char) : Option Int := do
  let (year, cs) ← readYear cs
  let cs ← skip '-' cs
  let (month, cs) ← (getnum true cs).bind (inRange 1 12)
  let cs ← skip '-' cs
  let (day, cs) ← getnum true cs
  let cs ← skip 'T' cs
  let clock ← readClock cs
  if h : (1 ≤ month ∧ month ≤ 12) ∧ 1 ≤ day ∧ day ≤ monthDays (isLeap year) month then
    some ((⟨year, month, day, h.1, h.2⟩ : Date).days * 86400 * billion + clock)
  else none

/-- `time.Parse(time.RFC3339Nano, s)`. -/
def parse (s : String) : Option Int := parseChars s.toList

/-! ## Digits are read back -/

theorem isDigit_padded (width n : Nat) : ∀ c ∈ padded width n, c.isDigit = true := by
  intro c hc
  rcases List.mem_append.mp hc with h | h
  · rw [(List.mem_replicate.mp h).2]
    rfl
  · exact Nat.isDigit_of_mem_toDigits (by decide) (by decide) h

theorem ofDigitChars_padded (width n : Nat) : Nat.ofDigitChars 10 (padded width n) 0 = n := by
  simp [padded, Nat.ofDigitChars_append]

theorem length_padded {width n : Nat} (hw : 0 < width) (h : n < 10 ^ width) :
    (padded width n).length = width := by
  have := (Nat.length_toDigits_le_iff (b := 10) (n := n) (by decide) hw).mpr h
  simp only [padded, List.length_append, List.length_replicate]
  omega

/-- A number of two digits is read whole. -/
theorem getnum_padded (fixed : Bool) {n : Nat} (h : n < 100) (cs : List Char) :
    getnum fixed (padded 2 n ++ cs) = some (n, cs) := by
  have htwo : ∀ m : Fin 100, padded 2 m = [Nat.digitChar (m / 10), Nat.digitChar (m % 10)] := by
    decide
  have hten : ∀ d : Fin 10, (Nat.digitChar d).isDigit = true ∧ digit (Nat.digitChar d) = d := by
    decide
  obtain ⟨h1, v1⟩ := hten ⟨n / 10, by omega⟩
  obtain ⟨h2, v2⟩ := hten ⟨n % 10, by omega⟩
  simp only at h1 v1 h2 v2
  rw [htwo ⟨n, h⟩]
  simp only [List.cons_append, List.nil_append, getnum, h1, h2, v1, v2, if_true, Option.some.injEq,
    Prod.mk.injEq, and_true]
  omega

theorem skip_self (c : Char) (cs : List Char) : skip c (c :: cs) = some cs := if_pos rfl

/-- Zeros at the end of a fraction do not count. -/
theorem trimZeros_spec (ds : List Char) :
    ds = trimZeros ds ++ List.replicate (ds.length - (trimZeros ds).length) '0' := by
  have hsplit := List.rdropWhile_append_rtakeWhile (p := (· == '0')) (l := ds)
  have hzeros : ds.rtakeWhile (· == '0') = List.replicate (ds.rtakeWhile (· == '0')).length '0' := by
    apply List.eq_replicate_of_mem
    intro c hc
    simpa using List.mem_rtakeWhile_imp hc
  have hlen : ds.length - (trimZeros ds).length = (ds.rtakeWhile (· == '0')).length := by
    have := congrArg List.length hsplit
    rw [List.length_append] at this
    unfold trimZeros
    omega
  rw [hlen, ← hzeros]
  exact hsplit.symm

theorem nanosFrom_trimZeros {n : Nat} (h : n < 10 ^ 9) : nanosFrom (trimZeros (padded 9 n)) = n := by
  have hlen : (padded 9 n).length = 9 := length_padded (by decide) h
  have hspec := trimZeros_spec (padded 9 n)
  have hle : (trimZeros (padded 9 n)).length ≤ 9 := by
    have := congrArg List.length hspec
    simp only [List.length_append, List.length_replicate] at this
    omega
  have hval := ofDigitChars_padded 9 n
  rw [hspec, Nat.ofDigitChars_append, Nat.ofDigitChars_replicate_zero, hlen] at hval
  unfold nanosFrom
  rw [List.take_of_length_le hle, Nat.mul_comm]
  exact hval

theorem trimZeros_ne_nil {n : Nat} (h : n ≠ 0) : trimZeros (padded 9 n) ≠ [] := by
  intro hnil
  have hspec := trimZeros_spec (padded 9 n)
  rw [hnil, List.nil_append] at hspec
  have hval := ofDigitChars_padded 9 n
  rw [hspec, Nat.ofDigitChars_replicate_zero, Nat.mul_zero] at hval
  exact h hval.symm

/-- A fraction is read back when no digit follows it. -/
theorem readFraction_fraction {n : Nat} (h : n < 10 ^ 9) (cs : List Char) :
    readFraction (fraction n ++ 'Z' :: cs) = (n, 'Z' :: cs) := by
  have hZ : Char.isDigit 'Z' = false := rfl
  unfold fraction
  split
  · next h0 =>
    subst h0
    simp [readFraction]
  · next h0 =>
    have hdigits : ∀ c ∈ trimZeros (padded 9 n), c.isDigit = true := by
      intro c hc
      apply isDigit_padded 9 n
      rw [trimZeros_spec (padded 9 n)]
      exact List.mem_append_left _ hc
    have htake : (trimZeros (padded 9 n) ++ 'Z' :: cs).takeWhile Char.isDigit =
        trimZeros (padded 9 n) := by
      rw [List.takeWhile_append_of_pos hdigits, List.takeWhile_cons_of_neg (by simp [hZ]),
        List.append_nil]
    have hdrop : (trimZeros (padded 9 n) ++ 'Z' :: cs).dropWhile Char.isDigit = 'Z' :: cs := by
      rw [List.dropWhile_append_of_pos hdigits, List.dropWhile_cons_of_neg (by simp [hZ])]
    simp only [List.cons_append, readFraction, htake, hdrop]
    rw [if_pos ⟨.inl trivial, trimZeros_ne_nil h0⟩, nanosFrom_trimZeros h]

/-! ## Texts are read back -/

theorem readClock_clockText {s n : Nat} (hs : s < 86400) (hn : n < 10 ^ 9) :
    readClock (clockText s n) = some (s * billion + n) := by
  unfold readClock clockText
  rw [getnum_padded false (show s / 3600 < 100 by omega)]
  simp only [Option.bind_some, inRange]
  rw [if_pos (by omega)]
  simp only [Option.bind_eq_bind, Option.bind_some, skip_self]
  rw [getnum_padded true (show s / 60 % 60 < 100 by omega)]
  simp only [Option.bind_some, inRange]
  rw [if_pos (by omega)]
  simp only [Option.bind_some, skip_self]
  rw [getnum_padded true (show s % 60 < 100 by omega)]
  simp only [Option.bind_some, inRange]
  rw [if_pos (by omega)]
  have hfrac := readFraction_fraction hn []
  simp only [Option.bind_some, hfrac, readZone, if_true]
  have hsum : ((s / 3600 * 60 + s / 60 % 60) * 60 + s % 60 : Nat) = s := by omega
  rw [hsum, Int.sub_zero]

theorem readYear_padded {n : Nat} (h : n < 10 ^ 4) (cs : List Char) :
    readYear (padded 4 n ++ cs) = some (n, cs) := by
  have hlen : (padded 4 n).length = 4 := length_padded (by decide) h
  unfold readYear
  rw [List.take_left' hlen, List.drop_left' hlen, ofDigitChars_padded]
  exact if_pos ⟨hlen, List.all_eq_true.mpr (isDigit_padded 4 n)⟩

/-- The seconds of an instant, split into days and the time of day. -/
theorem instant_eq (ns : Int) :
    (dateOf ns).days * 86400 * billion + (secondOfDay ns * billion + nanosOf ns) = ns := by
  unfold dateOf secondOfDay nanosOf
  rw [days_ofDays]
  unfold billion
  omega

theorem days_of_year {d : Date} {year : Int} (hy : year = d.year) {hm hd} :
    (⟨year, d.month, d.day, hm, hd⟩ : Date).days = d.days := by
  subst hy
  rfl

/-- **An instant whose year has four digits is read back from its text.** -/
theorem parse_format {ns : Int} (h : 0 ≤ (dateOf ns).year ∧ (dateOf ns).year ≤ 9999) :
    parse (format ns) = some ns := by
  have hm := (dateOf ns).month_range
  have hd := (dateOf ns).day_range
  have hday : (dateOf ns).day < 100 := by
    have hmax : ∀ leap month, monthDays leap month ≤ 31 := by
      intro leap month
      unfold monthDays
      split <;> (try split) <;> omega
    have := hmax (isLeap (dateOf ns).year) (dateOf ns).month
    omega
  have hyear : ((dateOf ns).year.natAbs : Int) = (dateOf ns).year := by omega
  have hclock := readClock_clockText (s := secondOfDay ns) (n := nanosOf ns)
    (by unfold secondOfDay; omega) (by unfold nanosOf billion; omega)
  unfold parse format parseChars formatChars
  rw [String.toList_ofList, yearText, if_neg (by omega), readYear_padded (by omega)]
  simp only [Option.bind_eq_bind, Option.bind_some, skip_self]
  rw [getnum_padded true (show (dateOf ns).month < 100 by omega)]
  simp only [Option.bind_some, inRange, if_pos hm, skip_self]
  rw [getnum_padded true hday]
  simp only [Option.bind_some, skip_self, hclock]
  rw [dif_pos (by rw [hyear]; exact ⟨hm, hd⟩)]
  rw [days_of_year hyear, instant_eq]

/-- A year of more than four digits ends too late for the layout, and a sign is no digit. -/
theorem parse_format_none {ns : Int} (h : ¬(0 ≤ (dateOf ns).year ∧ (dateOf ns).year ≤ 9999)) :
    parse (format ns) = none := by
  unfold parse format parseChars formatChars
  rw [String.toList_ofList]
  by_cases hneg : (dateOf ns).year < 0
  · -- the text begins with a sign
    have hsign : ∀ ds cs, readYear ('-' :: ds ++ cs) = none := by
      intro ds cs
      unfold readYear
      rw [if_neg]
      intro hc
      rw [List.cons_append, List.take_succ_cons, List.all_cons] at hc
      exact absurd hc.2 (by simp)
    rw [yearText, if_pos hneg, hsign]
    rfl
  · rw [yearText, if_neg hneg]
    have hbig : 10 ^ 4 ≤ (dateOf ns).year.natAbs := by omega
    generalize (dateOf ns).year.natAbs = n at hbig
    have hlen : 5 ≤ (padded 4 n).length := by
      have hmore := mt (Nat.length_toDigits_le_iff (b := 10) (n := n) (k := 4) (by decide) (by decide)).mp
        (by omega)
      simp only [padded, List.length_append]
      omega
    obtain ⟨a, b, c, d, e, ds, he⟩ : ∃ a b c d e ds, padded 4 n = a :: b :: c :: d :: e :: ds := by
      match hds : padded 4 n with
      | a :: b :: c :: d :: e :: ds => exact ⟨a, b, c, d, e, ds, rfl⟩
      | [] | [_] | [_, _] | [_, _, _] | [_, _, _, _] =>
        rw [hds] at hlen
        simp at hlen
    have hdigit := isDigit_padded 4 n
    rw [he] at hdigit ⊢
    have hne : e ≠ '-' := by
      intro h'
      have := hdigit e (by simp)
      rw [h'] at this
      cases this
    have hfour : [a, b, c, d].all Char.isDigit = true := by
      rw [List.all_eq_true]
      intro x hx
      exact hdigit x (by simp at hx ⊢; tauto)
    simp only [List.cons_append, readYear, List.take_succ_cons, List.take_zero, List.drop_succ_cons,
      List.drop_zero]
    rw [if_pos ⟨rfl, hfour⟩]
    simp only [Option.bind_eq_bind, Option.bind_some, skip, if_neg hne, Option.bind_none]

end Rfc3339
