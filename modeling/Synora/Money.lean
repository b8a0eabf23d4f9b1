import Mathlib.Algebra.Order.Field.Rat
import Mathlib.Tactic.Linarith

/- Amounts of money: the NUMERIC(12,2) values of the database, the decimal texts
   that travel through requests and Redis, and what the engines outside the
   repository make of such texts (Lua's `tonumber` in the bid script, Postgres's
   numeric input in the settlement).

   NUMERIC(12,2) values are whole cents below 10^12 in absolute value, or NaN,
   which the column type admits and orders above every number. -/
namespace Synora

/-! ## NUMERIC(12,2) -/

inductive Numeric where
  | nan
  | cents (n : Int) (range : n.natAbs < 10^12)
  deriving DecidableEq

/-- `a <= b` in Postgres: NaN equals itself and is above every number. -/
def Numeric.le : Numeric → Numeric → Bool
  | _, .nan => true
  | .nan, .cents _ _ => false
  | .cents a _, .cents b _ => decide (a ≤ b)

/-- `a > 0` in Postgres. -/
def Numeric.positive : Numeric → Bool
  | .nan => true
  | .cents n _ => decide (0 < n)

/-- Whole cents as a decimal: the digits before the point, the point, two digits. -/
def centsText (n : Nat) : String :=
  String.ofList (Nat.toDigits 10 (n / 100) ++
    ['.', Nat.digitChar (n / 10 % 10), Nat.digitChar (n % 10)])

/-- The text pgx makes of a NUMERIC(12,2) value it scans into a Go string. A zero has no
digits on the wire, and its text has no fraction. -/
def Numeric.text : Numeric → String
  | .nan => "NaN"
  | .cents n _ =>
    if n = 0 then "0" else if n < 0 then "-" ++ centsText n.natAbs else centsText n.natAbs

theorem Numeric.le_refl (a : Numeric) : a.le a = true := by
  cases a <;> simp [Numeric.le]

theorem centsText_ne_empty (n : Nat) : centsText n ≠ "" := by
  intro h
  have := congrArg String.toList h
  simp [centsText] at this

theorem Numeric.text_ne_empty (a : Numeric) : a.text ≠ "" := by
  cases a with
  | nan => decide
  | cents n h =>
    simp only [Numeric.text]
    split
    · decide
    · split
      · intro he
        have := congrArg String.toList he
        simp [String.toList_append] at this
      · exact centsText_ne_empty _

/-! ## Bid amounts -/

/-- `amountPattern`: `^[0-9]{1,10}\.[0-9]{2}$`. -/
def amountPattern (s : String) : Bool :=
  let whole := s.toList.takeWhile Char.isDigit
  decide (1 ≤ whole.length ∧ whole.length ≤ 10) &&
    match s.toList.dropWhile Char.isDigit with
    | ['.', a, b] => a.isDigit && b.isDigit
    | _ => false

/-- The whole cents an amount denotes: the number its digits make, the point left out. -/
def amountCents (s : String) : Nat := Nat.ofDigitChars 10 (s.toList.filter Char.isDigit) 0

theorem digit_lt {c : Char} (h : c.isDigit = true) : c.toNat - '0'.toNat < 10 := by
  simp only [Char.isDigit, Bool.and_eq_true, decide_eq_true_eq] at h
  have h1 : c.toNat ≤ 57 := UInt32.le_iff_toNat_le.mp h.2
  have h0 : '0'.toNat = 48 := rfl
  omega

theorem ofDigitChars_lt (cs : List Char) (hd : ∀ c ∈ cs, c.isDigit = true) :
    Nat.ofDigitChars 10 cs 0 < 10^cs.length := by
  induction cs with
  | nil => simp
  | cons c cs ih =>
    have hc := digit_lt (hd c List.mem_cons_self)
    have := ih (fun d h => hd d (List.mem_cons_of_mem _ h))
    rw [Nat.ofDigitChars_cons, Nat.ofDigitChars_eq_ofDigitChars_zero, List.length_cons, Nat.pow_succ]
    have hmul : 10 ^ cs.length * (10 * 0 + (c.toNat - '0'.toNat)) ≤ 10 ^ cs.length * 9 :=
      Nat.mul_le_mul_left _ (by omega)
    omega

/-- An amount that matches the pattern fits NUMERIC(12,2). -/
theorem amountCents_lt {s : String} (h : amountPattern s = true) : amountCents s < 10^12 := by
  unfold amountPattern at h
  simp only [Bool.and_eq_true, decide_eq_true_eq] at h
  obtain ⟨⟨-, hlen⟩, hrest⟩ := h
  have hsplit : s.toList = s.toList.takeWhile Char.isDigit ++ s.toList.dropWhile Char.isDigit :=
    (List.takeWhile_append_dropWhile).symm
  have hcount : (s.toList.filter Char.isDigit).length ≤ 12 := by
    rw [hsplit, List.filter_append, List.length_append]
    have h1 := List.length_filter_le Char.isDigit (s.toList.takeWhile Char.isDigit)
    have h2 : ((s.toList.dropWhile Char.isDigit).filter Char.isDigit).length ≤ 2 := by
      split at hrest
      · rename_i a b he
        have hdot : Char.isDigit '.' = false := rfl
        rw [he, List.filter_cons_of_neg (by simp [hdot])]
        exact List.length_filter_le _ [a, b]
      · cases hrest
    omega
  have := ofDigitChars_lt (s.toList.filter Char.isDigit) (fun c hc => (List.mem_filter.mp hc).2)
  exact Nat.lt_of_lt_of_le this (Nat.pow_le_pow_right (by norm_num) hcount)

/-- The NUMERIC(12,2) value of an amount. -/
def amountNumeric (s : String) (h : amountPattern s = true) : Numeric :=
  .cents (amountCents s) (by simpa using amountCents_lt h)

/-- The value of an amount, if the text is one. -/
def amountValue (s : String) : Option Numeric :=
  if h : amountPattern s = true then some (amountNumeric s h) else none

theorem amountValue_of_pattern {s : String} (h : amountPattern s = true) :
    amountValue s = some (amountNumeric s h) := dif_pos h

theorem amountValue_eq_some {s : String} {q : Numeric} (h : amountValue s = some q) :
    ∃ hs : amountPattern s = true, q = amountNumeric s hs := by
  unfold amountValue at h
  split at h
  · rename_i hs
    exact ⟨hs, (Option.some.inj h).symm⟩
  · cases h

/-! ## The engines -/

/-- A number of the script language. -/
inductive LuaNumber where
  | nan
  | inf (negative : Bool)
  | num (q : ℚ)
  deriving DecidableEq

/-- `a <= b` in Lua: false as soon as one side is not a number. -/
def LuaNumber.le : LuaNumber → LuaNumber → Bool
  | .nan, _ => false
  | _, .nan => false
  | .inf a, .inf b => a || !b
  | .inf a, .num _ => a
  | .num _, .inf b => !b
  | .num p, .num q => decide (p ≤ q)

/-- The number a NUMERIC(12,2) value is read as. -/
def Numeric.lua : Numeric → LuaNumber
  | .nan => .nan
  | .cents n _ => .num ((n : ℚ) / 100)

/-- What the engines make of a text: `tonumber` of Lua (`none`: nil) and the input of a
NUMERIC(12,2) column (`none`: an error). -/
structure Engines where
  tonumber : String → Option LuaNumber
  numericIn : String → Option Numeric

/-- What the service relies on: both engines read an amount as its exact decimal value, and
the text of a positive NUMERIC(12,2) as that value. -/
structure Engines.Lawful (E : Engines) : Prop where
  tonumberAmount : ∀ s (h : amountPattern s = true), E.tonumber s = some (amountNumeric s h).lua
  tonumberText : ∀ p : Numeric, p.positive = true → E.tonumber p.text = some p.lua
  numericInAmount : ∀ s (h : amountPattern s = true), E.numericIn s = some (amountNumeric s h)

theorem lua_le_cents (a b : Int) (ha : a.natAbs < 10^12) (hb : b.natAbs < 10^12) :
    (Numeric.cents a ha).lua.le (Numeric.cents b hb).lua = decide (a ≤ b) := by
  simp only [Numeric.lua, LuaNumber.le, decide_eq_decide]
  constructor
  · intro h
    have : (a : ℚ) ≤ b := by linarith
    exact_mod_cast this
  · intro h
    have : (a : ℚ) ≤ b := by exact_mod_cast h
    linarith

/-- An amount that is not at most another exceeds it. -/
theorem lt_of_lua_not_le {s s' : String} {h : amountPattern s = true} {h' : amountPattern s' = true}
    (hle : (amountNumeric s h).lua.le (amountNumeric s' h').lua = false) :
    amountCents s' < amountCents s := by
  unfold amountNumeric at hle
  rw [lua_le_cents, decide_eq_false_iff_not] at hle
  omega

/-! ## Engines that read the texts the service writes -/

theorem isDigit_append {cs : List Char} (h : ∀ c ∈ cs, c.isDigit = true) (rest : List Char) :
    (cs ++ rest).takeWhile Char.isDigit = cs ++ rest.takeWhile Char.isDigit ∧
      (cs ++ rest).dropWhile Char.isDigit = rest.dropWhile Char.isDigit := by
  induction cs with
  | nil => simp
  | cons c cs ih =>
    obtain ⟨h1, h2⟩ := ih (fun d hd => h d (List.mem_cons_of_mem _ hd))
    have hc := h c List.mem_cons_self
    simp [hc, h1, h2]

theorem centsText_toList (n : Nat) : (centsText n).toList = Nat.toDigits 10 (n / 100) ++
    ['.', Nat.digitChar (n / 10 % 10), Nat.digitChar (n % 10)] := by
  simp [centsText]

theorem isDigit_toDigits (n : Nat) : ∀ c ∈ Nat.toDigits 10 n, c.isDigit = true :=
  fun _ hc => Nat.isDigit_of_mem_toDigits (by decide) (by decide) hc

theorem isDigit_digitChar_mod (n : Nat) : (Nat.digitChar (n % 10)).isDigit = true := by
  rw [Nat.isDigit_digitChar]
  simpa using Nat.mod_lt n (by decide)

/-- The text of a price that fits the column is an amount. -/
theorem amountPattern_centsText {n : Nat} (h : n < 10^12) : amountPattern (centsText n) = true := by
  obtain ⟨h1, h2⟩ := isDigit_append (isDigit_toDigits (n / 100))
    ['.', Nat.digitChar (n / 10 % 10), Nat.digitChar (n % 10)]
  have hdot : Char.isDigit '.' = false := rfl
  have hlen : (Nat.toDigits 10 (n / 100)).length ≤ 10 :=
    (Nat.length_toDigits_le_iff (by decide) (by decide)).mpr (by omega)
  unfold amountPattern
  simp only [centsText_toList, h1, h2, List.takeWhile_cons, List.dropWhile_cons, hdot,
    Bool.false_eq_true, if_false, List.append_nil, isDigit_digitChar_mod, Bool.and_self,
    Bool.and_true, decide_eq_true_eq]
  exact ⟨Nat.length_toDigits_pos, hlen⟩

/-- … and denotes that price. -/
theorem amountCents_centsText (n : Nat) : amountCents (centsText n) = n := by
  have hdot : Char.isDigit '.' = false := rfl
  have hmod : n / 10 % 10 < 10 ∧ n % 10 < 10 := ⟨Nat.mod_lt _ (by decide), Nat.mod_lt _ (by decide)⟩
  unfold amountCents
  rw [centsText_toList, List.filter_append, List.filter_eq_self.mpr (isDigit_toDigits (n / 100))]
  simp only [List.filter_cons, hdot, Bool.false_eq_true, if_false, isDigit_digitChar_mod, if_true,
    List.filter_nil]
  rw [Nat.ofDigitChars_append, Nat.ofDigitChars_ten_toDigits,
    Nat.ofDigitChars_cons_digitChar_of_lt_ten hmod.1, Nat.ofDigitChars_cons_digitChar_of_lt_ten hmod.2,
    Nat.ofDigitChars_nil]
  omega

theorem Numeric.text_positive {n : Int} {h : n.natAbs < 10^12} (hp : 0 < n) :
    (Numeric.cents n h).text = centsText n.natAbs := by
  have h0 : n ≠ 0 := by omega
  have hneg : ¬ n < 0 := by omega
  simp [Numeric.text, h0, hneg]

theorem Numeric.le_antisymm {a b : Numeric} (hab : a.le b = true) (hba : b.le a = true) : a = b := by
  cases a with
  | nan =>
    cases b with
    | nan => rfl
    | cents n hn => cases hab
  | cents m hm =>
    cases b with
    | nan => cases hba
    | cents n hn =>
      simp only [Numeric.le, decide_eq_true_eq] at hab hba
      have hmn : m = n := by omega
      subst hmn
      rfl

/-- The text of a positive price, read as an amount, is that price. -/
theorem amountValue_text {p q : Numeric} (hp : p.positive = true) (h : amountValue p.text = some q) :
    q = p := by
  obtain ⟨hpat, rfl⟩ := amountValue_eq_some h
  cases p with
  | nan => exact absurd hpat (by decide)
  | cents n hn =>
    have hpos : 0 < n := by simpa [Numeric.positive] using hp
    have hcents : (amountCents (Numeric.cents n hn).text : Int) = n := by
      rw [Numeric.text_positive hpos, amountCents_centsText]
      omega
    simp only [amountNumeric, hcents]

/-- Engines that read exactly the amounts and `NaN`. -/
def decimalEngines : Engines where
  tonumber s :=
    if s = "NaN" then some .nan
    else if h : amountPattern s = true then some (amountNumeric s h).lua
    else none
  numericIn s :=
    if s = "NaN" then some .nan
    else if h : amountPattern s = true then some (amountNumeric s h)
    else none

theorem amount_ne_nan {s : String} (h : amountPattern s = true) : s ≠ "NaN" := by
  rintro rfl
  revert h
  decide

theorem decimalEngines_lawful : decimalEngines.Lawful where
  tonumberAmount s h := by simp [decimalEngines, amount_ne_nan h, h]
  tonumberText p hp := by
    cases p with
    | nan => rfl
    | cents n hn =>
      have hpos : 0 < n := by simpa [Numeric.positive] using hp
      have ha : amountPattern (centsText n.natAbs) = true := amountPattern_centsText hn
      rw [Numeric.text_positive hpos]
      simp only [decimalEngines, if_neg (amount_ne_nan ha), dif_pos ha, amountNumeric,
        amountCents_centsText, Numeric.lua]
      rw [Int.natAbs_of_nonneg (Int.le_of_lt hpos)]
  numericInAmount s h := by simp [decimalEngines, amount_ne_nan h, h]

end Synora
