import Mathlib.Algebra.Group.Int.Defs
import Mathlib.Algebra.Group.Nat.Defs
import Mathlib.Data.List.TakeWhile
import Synora.Lib.Json

/- Numbers of JSON texts: the literal of a whole number, and the whole part of any
   literal, as an exact number. A whole number is read back (`floor_ofInt`). -/
namespace Json

/-! ## The value of a literal -/

/-- The digits up to a point, those after it, and what is left. -/
def splitPoint (cs : List Char) : List Char × List Char × List Char :=
  let whole := cs.takeWhile Char.isDigit
  match cs.dropWhile Char.isDigit with
  | '.' :: ds => (whole, ds.takeWhile Char.isDigit, ds.dropWhile Char.isDigit)
  | rest => (whole, [], rest)

/-- What follows the exponent mark. -/
def exponent : List Char → Int
  | _ :: '-' :: ds => -(Nat.ofDigitChars 10 ds 0 : Int)
  | _ :: '+' :: ds => Nat.ofDigitChars 10 ds 0
  | _ :: ds => Nat.ofDigitChars 10 ds 0
  | [] => 0

/-- The greatest whole number below `sign` times the value of the characters. -/
def scaled (sign : Int) (cs : List Char) : Int :=
  let (whole, frac, rest) := splitPoint cs
  let mantissa := sign * Nat.ofDigitChars 10 (whole ++ frac) 0
  let scale := exponent rest - frac.length
  if 0 ≤ scale then mantissa * 10 ^ scale.toNat else mantissa / 10 ^ (-scale).toNat

def NumLit.floor (n : NumLit) : Int :=
  match n.chars with
  | '-' :: cs => scaled (-1) cs
  | cs => scaled 1 cs

/-- All digits before the exponent are zero. -/
def NumLit.isZero (n : NumLit) : Bool :=
  (n.chars.takeWhile fun c => c != 'e' && c != 'E').all fun c => !c.isDigit || c == '0'

/-- The literal that a text is. -/
def NumLit.ofText (s : String) : Option NumLit :=
  if h : isNumber s.toList = true ∧ s.toList.all isNumberChar = true then some ⟨s.toList, h.1, h.2⟩
  else none

/-- A literal that a float64 holds: rounded, it stays below `2^1024`. -/
def NumLit.fitsFloat (n : NumLit) : Bool :=
  match n.chars with
  | '-' :: cs => decide (scaled 1 cs < 2^1024 - 2^970)
  | cs => decide (scaled 1 cs < 2^1024 - 2^970)

mutual

/-- A float64 holds every number in a value. -/
def fitsFloats : Json → Bool
  | num n => n.fitsFloat
  | arr vs => fitsFloatsElems vs
  | obj ms => fitsFloatsMembers ms
  | _ => true

def fitsFloatsElems : List Json → Bool
  | [] => true
  | v :: vs => fitsFloats v && fitsFloatsElems vs

def fitsFloatsMembers : List (String × Json) → Bool
  | [] => true
  | (_, v) :: ms => fitsFloats v && fitsFloatsMembers ms

end

/-! ## Whole numbers -/

/-- No zero leads the digits of a positive number. -/
theorem toDigits_head (n : Nat) (h : 0 < n) : ∃ c cs, Nat.toDigits 10 n = c :: cs ∧ c ≠ '0' := by
  induction n using Nat.strongRecOn with
  | ind n ih =>
    by_cases hlt : n < 10
    · refine ⟨n.digitChar, [], Nat.toDigits_of_lt_base hlt, ?_⟩
      have : ∀ m : Fin 10, 0 < m.val → Nat.digitChar m.val ≠ '0' := by decide
      exact this ⟨n, hlt⟩ h
    · obtain ⟨c, cs, hc, hne⟩ := ih (n / 10) (by omega) (by omega)
      refine ⟨c, cs ++ [(n % 10).digitChar], ?_, hne⟩
      rw [Nat.toDigits_of_base_le (by decide) (by omega), hc]
      rfl

theorem digit_of_toDigits {n : Nat} {c : Char} (h : c ∈ Nat.toDigits 10 n) : c.isDigit = true :=
  Nat.isDigit_of_mem_toDigits (by decide) (by decide) h

theorem takeWhile_toDigits (n : Nat) : (Nat.toDigits 10 n).takeWhile Char.isDigit = Nat.toDigits 10 n :=
  List.takeWhile_eq_self_iff.mpr fun _ h => digit_of_toDigits h

theorem dropWhile_toDigits (n : Nat) : (Nat.toDigits 10 n).dropWhile Char.isDigit = [] :=
  List.dropWhile_eq_nil_iff.mpr fun _ h => digit_of_toDigits h

/-- The digits of a number are an integer part, with nothing after it. -/
theorem afterInt_toDigits (n : Nat) : afterInt (Nat.toDigits 10 n) = some [] := by
  by_cases hz : n = 0
  · subst hz
    rw [Nat.toDigits_zero]
    rfl
  · obtain ⟨c, cs, hc, hne⟩ := toDigits_head n (by omega)
    have hdigits : digits1 (Nat.toDigits 10 n) = some [] := by
      rw [digits1, takeWhile_toDigits, dropWhile_toDigits, if_neg Nat.toDigits_ne_nil]
    rw [afterInt.eq_def]
    split
    · next h =>
      rw [hc] at h
      exact absurd (List.cons.inj h).1 hne
    · exact hdigits

/-- No sign leads them either. -/
theorem toDigits_ne_minus (n : Nat) (cs : List Char) : Nat.toDigits 10 n ≠ '-' :: cs := by
  intro h
  have hd : Char.isDigit '-' = true := digit_of_toDigits (n := n) (by rw [h]; exact List.mem_cons_self)
  revert hd
  decide

/-- The characters of a whole number. -/
def intChars (n : Int) : List Char :=
  if n < 0 then '-' :: Nat.toDigits 10 n.natAbs else Nat.toDigits 10 n.natAbs

theorem isNumber_toDigits (n : Nat) :
    ((afterInt (Nat.toDigits 10 n)).bind fun cs => (afterFrac cs).bind afterExp) = some [] := by
  rw [afterInt_toDigits]
  rfl

theorem isNumber_intChars (n : Int) : isNumber (intChars n) = true := by
  unfold intChars isNumber
  by_cases hneg : n < 0
  · simp [hneg, isNumber_toDigits]
  · simp only [if_neg hneg]
    split
    · next h => exact absurd h (toDigits_ne_minus _ _)
    · simp [isNumber_toDigits]

theorem intChars_all (n : Int) : (intChars n).all isNumberChar = true := by
  have hdigits : (Nat.toDigits 10 n.natAbs).all isNumberChar = true := by
    rw [List.all_eq_true]
    intro c hc
    simp [isNumberChar, digit_of_toDigits hc]
  unfold intChars
  split
  · rw [List.all_cons, hdigits]
    rfl
  · exact hdigits

/-- The literal of a whole number. -/
def NumLit.ofInt (n : Int) : NumLit := ⟨intChars n, isNumber_intChars n, intChars_all n⟩

theorem scaled_toDigits (sign : Int) (n : Nat) : scaled sign (Nat.toDigits 10 n) = sign * n := by
  have hsplit : splitPoint (Nat.toDigits 10 n) = (Nat.toDigits 10 n, [], []) := by
    simp only [splitPoint, takeWhile_toDigits, dropWhile_toDigits]
  simp [scaled, hsplit, exponent]

/-- **A whole number is read back.** -/
@[simp] theorem NumLit.floor_ofInt (n : Int) : (NumLit.ofInt n).floor = n := by
  unfold NumLit.floor NumLit.ofInt intChars
  by_cases hneg : n < 0
  · simp only [if_pos hneg, scaled_toDigits]
    omega
  · simp only [if_neg hneg]
    split
    · next h => exact absurd h (toDigits_ne_minus _ _)
    · rw [scaled_toDigits]
      omega

end Json
