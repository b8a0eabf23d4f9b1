import Mathlib.Algebra.Order.Field.Rat
import Mathlib.Data.Int.Log
import Mathlib.Data.Rat.Floor
import Synora.Lib.JsonNumber

/- Values of JavaScript as `JSON.parse` makes them, and what the language does with
   them: truth, `===`, `Number(…)`, the sum and product of two numbers, and the way
   through `JSON.stringify` and back (`Value.reparsed`).

   A number is a double: NaN, an infinity or an exact rational; the two zeros are one
   here, since nothing below tells them apart. Of the members under one key the last
   is the one an object has. -/
namespace Js

/-! ## Numbers -/

inductive Number where
  | nan
  | infinite (negative : Bool)
  | finite (q : ℚ)
  deriving DecidableEq

/-- The nearest whole number; halfway, the even one. -/
def nearest (q : ℚ) : ℤ :=
  if q - ⌊q⌋ < 1 / 2 ∨ (q - ⌊q⌋ = 1 / 2 ∧ ⌊q⌋ % 2 = 0) then ⌊q⌋ else ⌊q⌋ + 1

/-- The exponent of the last of the 53 bits of a double. -/
def lastBit (q : ℚ) : ℤ := max (Int.log 2 |q| - 52) (-1074)

/-- The double nearest to a number. -/
def double (q : ℚ) : Number :=
  let r : ℚ := nearest (q / 2 ^ lastBit q) * 2 ^ lastBit q
  if |r| < 2 ^ 1024 then .finite r else .infinite (decide (q < 0))

namespace Number

def truthy : Number → Bool
  | nan => false
  | infinite _ => true
  | finite q => decide (q ≠ 0)

def add : Number → Number → Number
  | nan, _ => nan
  | _, nan => nan
  | infinite a, infinite b => if a = b then infinite a else nan
  | infinite a, finite _ => infinite a
  | finite _, infinite b => infinite b
  | finite p, finite q => double (p + q)

def mul : Number → Number → Number
  | nan, _ => nan
  | _, nan => nan
  | infinite a, infinite b => infinite (a ^^ b)
  | infinite a, finite q => if q = 0 then nan else infinite (a ^^ decide (q < 0))
  | finite q, infinite b => if q = 0 then nan else infinite (b ^^ decide (q < 0))
  | finite p, finite q => double (p * q)

/-- `<`. -/
def lt : Number → Number → Bool
  | nan, _ => false
  | _, nan => false
  | infinite a, infinite b => a && !b
  | infinite a, finite _ => a
  | finite _, infinite b => !b
  | finite p, finite q => decide (p < q)

/-- `<=`. -/
def le : Number → Number → Bool
  | nan, _ => false
  | _, nan => false
  | infinite a, infinite b => a || !b
  | infinite a, finite _ => a
  | finite _, infinite b => !b
  | finite p, finite q => decide (p ≤ q)

end Number

theorem nearest_intCast (n : ℤ) : nearest n = n := by
  simp [nearest]

/-- **A whole number of at most 53 bits is a double.** -/
theorem double_intCast {n : ℤ} (h : |n| < 2 ^ 53) : double n = .finite n := by
  have hcast : |(n : ℚ)| < 2 ^ 53 := by exact_mod_cast h
  have hlast : lastBit n ≤ 0 := by
    rcases eq_or_ne n 0 with rfl | hn
    · simp [lastBit]
    · have hpos : 0 < |(n : ℚ)| := abs_pos.mpr (by exact_mod_cast hn)
      have hlog : Int.log 2 |(n : ℚ)| < 53 :=
        (Int.lt_zpow_iff_log_lt (by decide) hpos).mp (by exact_mod_cast hcast)
      unfold lastBit
      omega
  -- the last bit is no whole number's, so nothing is rounded
  obtain ⟨k, hk⟩ : ∃ k : ℕ, lastBit n = -k := ⟨(-lastBit n).toNat, by omega⟩
  have hwhole : (n : ℚ) / 2 ^ lastBit n = ((n * 2 ^ k : ℤ) : ℚ) := by
    rw [hk, zpow_neg, div_inv_eq_mul, zpow_natCast]
    push_cast
    rfl
  have hback : ((n * 2 ^ k : ℤ) : ℚ) * 2 ^ lastBit n = n := by
    rw [← hwhole]
    exact div_mul_cancel₀ _ (zpow_ne_zero _ two_ne_zero)
  unfold double
  simp only [hwhole, nearest_intCast, hback]
  rw [if_pos (hcast.trans (pow_lt_pow_right₀ one_lt_two (by decide)))]

/-! ## The text of a number -/

/-- White space and the ends of lines. -/
def isSpace (c : Char) : Bool :=
  c ∈ ['\t', '\n', '\x0b', '\x0c', '\r', ' ', '\u00a0', '\u1680', '\u2028', '\u2029', '\u202f',
    '\u205f', '\u3000', '\ufeff'] || ('\u2000' ≤ c ∧ c ≤ '\u200a')

/-- The base after a leading zero. -/
def radix (c : Char) : Option Nat :=
  if c = 'x' ∨ c = 'X' then some 16
  else if c = 'o' ∨ c = 'O' then some 8
  else if c = 'b' ∨ c = 'B' then some 2
  else none

def ofRadix (base : Nat) (cs : List Char) : Option Nat :=
  if cs = [] then none
  else cs.foldlM (fun n c => (hexVal c).bind fun d =>
    if d.val < base then some (n * base + d.val) else none) 0

/-- Digits, a point and an exponent; there is a digit before or after the point. -/
def decimal (cs : List Char) : Option ℚ :=
  let (whole, frac, rest) := Json.splitPoint cs
  if whole ++ frac ≠ [] ∧ Json.afterExp rest = some [] then
    some (Nat.ofDigitChars 10 (whole ++ frac) 0 * 10 ^ (Json.exponent rest - frac.length))
  else none

def signed (negative : Bool) (cs : List Char) : Number :=
  if cs = "Infinity".toList then .infinite negative
  else match decimal cs with
    | some q => double (if negative then -q else q)
    | none => .nan

/-- `Number(s)` of a string. -/
def Number.ofText (s : String) : Number :=
  match ((s.toList.dropWhile isSpace).reverse.dropWhile isSpace).reverse with
  | [] => .finite 0
  | '+' :: cs => signed false cs
  | '-' :: cs => signed true cs
  | ['0'] => .finite 0
  | '0' :: c :: cs =>
    match radix c with
    | some base => (ofRadix base cs).elim .nan fun n => double n
    | none => signed false ('0' :: c :: cs)
  | cs => signed false cs

/-! ## Values -/

inductive Value where
  | null
  | bool (b : Bool)
  | num (n : Number)
  | str (s : String)
  | arr (vs : List Value)
  | obj (ms : List (String × Value))

namespace Value

/-- `v.key`, or `v?.key` where `v` may be null; what is no object has none of the keys read. -/
def get (v : Value) (key : String) : Option Value :=
  match v with
  | obj ms => (ms.reverse.find? fun m => m.1 == key).map Prod.snd
  | _ => none

def truthy : Value → Bool
  | null => false
  | bool b => b
  | num n => n.truthy
  | str s => decide (s ≠ "")
  | arr _ => true
  | obj _ => true

/-- `===`, of values that come from two texts: an array or object is none but itself. -/
def strictEq : Value → Value → Bool
  | null, null => true
  | bool a, bool b => a == b
  | num a, num b => decide (a = b ∧ a ≠ .nan)
  | str a, str b => a == b
  | _, _ => false

mutual

/-- A value with a text: no object in it hides `toString` behind a member. -/
def hasText : Value → Bool
  | arr vs => hasTexts vs
  | obj ms => ms.all fun m => m.1 != "toString"
  | _ => true

def hasTexts : List Value → Bool
  | [] => true
  | v :: vs => hasText v && hasTexts vs

end

/-- `Number(v)`; a value without a text throws. An array of one is read as its element, where
a truth value is a word, and a longer one has a comma. -/
def toNumber : Value → Option Number
  | null => some (.finite 0)
  | bool b => some (.finite (if b then 1 else 0))
  | num n => some n
  | str s => some (.ofText s)
  | arr [] => some (.finite 0)
  | arr [bool _] => some .nan
  | arr [v] => toNumber v
  | arr (v :: w :: vs) => if hasTexts (v :: w :: vs) then some .nan else none
  | obj ms => if hasText (obj ms) then some .nan else none

mutual

/-- `JSON.parse(JSON.stringify(v))`: what is no finite number is written as null. -/
def reparsed : Value → Value
  | num (.finite q) => num (.finite q)
  | num _ => null
  | arr vs => arr (reparsedElems vs)
  | obj ms => obj (reparsedMembers ms)
  | v => v

def reparsedElems : List Value → List Value
  | [] => []
  | v :: vs => reparsed v :: reparsedElems vs

def reparsedMembers : List (String × Value) → List (String × Value)
  | [] => []
  | (k, v) :: ms => (k, reparsed v) :: reparsedMembers ms

end

mutual

/-- What `JSON.parse` makes of a text's value. -/
def ofJson : Json → Value
  | .null => null
  | .bool b => bool b
  | .num n => num (.ofText (String.ofList n.chars))
  | .str s => str s
  | .arr vs => arr (ofJsons vs)
  | .obj ms => obj (ofMembers ms)

def ofJsons : List Json → List Value
  | [] => []
  | v :: vs => ofJson v :: ofJsons vs

def ofMembers : List (String × Json) → List (String × Value)
  | [] => []
  | (k, v) :: ms => (k, ofJson v) :: ofMembers ms

end

theorem strictEq_eq {v w : Value} (h : strictEq v w = true) : v = w := by
  cases v <;> cases w <;> simp_all [strictEq]

theorem reparsedMembers_eq (ms : List (String × Value)) :
    reparsedMembers ms = ms.map fun m => (m.1, m.2.reparsed) := by
  induction ms with
  | nil => rfl
  | cons m ms ih =>
    obtain ⟨k, v⟩ := m
    rw [reparsedMembers, ih, List.map_cons]

/-- A member is there after the way through a text, as what it became. -/
theorem get_reparsed (v : Value) (key : String) : v.reparsed.get key = (v.get key).map reparsed := by
  cases v with
  | obj ms =>
    simp only [reparsed, get, reparsedMembers_eq, ← List.map_reverse, List.find?_map, Option.map_map]
    rfl
  | num n => cases n <;> rfl
  | _ => rfl

end Value

end Js
