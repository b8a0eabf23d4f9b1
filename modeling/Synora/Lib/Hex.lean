import Mathlib.Data.List.Basic

/- Hexadecimal digits: read in either case, written in lower case. -/

/-- There are digits. -/
instance neZeroSixteen : @NeZero Nat Zero.ofOfNat0 16 := ⟨by decide⟩

/-- The value of a hexadecimal digit, either case. -/
def hexVal (c : Char) : Option (Fin 16) :=
  if '0' ≤ c ∧ c ≤ '9' then some (Fin.ofNat 16 (c.toNat - '0'.toNat))
  else if 'a' ≤ c ∧ c ≤ 'f' then some (Fin.ofNat 16 (c.toNat - 'a'.toNat + 10))
  else if 'A' ≤ c ∧ c ≤ 'F' then some (Fin.ofNat 16 (c.toNat - 'A'.toNat + 10))
  else none

/-- The lower-case digit of a value. -/
def hexChar (d : Fin 16) : Char := "0123456789abcdef".toList.getD d.val '0'

@[simp] theorem hexVal_hexChar : ∀ d : Fin 16, hexVal (hexChar d) = some d := by decide

theorem hexChar_ne_hyphen : ∀ d : Fin 16, hexChar d ≠ '-' := by decide

theorem hexChar_ne_brace : ∀ d : Fin 16, hexChar d ≠ '\x7b' := by decide
