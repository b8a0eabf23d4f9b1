import Mathlib.Data.List.Lex
import Mathlib.Order.Fin.Basic
import Synora.Lib.Hex

/- UUIDs and the texts they are read from. A UUID is its 32 hexadecimal digits.
   `validate` is the check of google/uuid (`uuid.Validate`): 36 characters with
   hyphens, the same in braces or after `urn:uuid:`, or 32 bare digits, in either
   case; `parse` is `uuid.Parse`. `input` is the text input of a Postgres `uuid` column: digits in either
   case, an optional hyphen after every second byte, optional braces. `text` is
   the canonical lower-case form, the only one Postgres prints. -/

/-- A UUID: 32 hexadecimal digits, most significant first. -/
structure Uuid where
  digits : List (Fin 16)
  len : digits.length = 32
  deriving DecidableEq

namespace Uuid

theorem digits_injective : Function.Injective digits := by
  intro u v h
  cases u
  cases v
  congr

/-- The order of a `uuid` column: by the bytes, and so by the digits. -/
instance : LinearOrder Uuid := LinearOrder.lift' digits digits_injective

/-- The UUID that repeats one digit. -/
def ofDigit (d : Fin 16) : Uuid := ⟨List.replicate 32 d, List.length_replicate⟩

/-- Digits in groups of 8, 4, 4, 4 and 12, with hyphens between. -/
def hyphenate (cs : List Char) : List Char :=
  let r₁ := cs.drop 8
  let r₂ := r₁.drop 4
  let r₃ := r₂.drop 4
  cs.take 8 ++ '-' :: (r₁.take 4 ++ '-' :: (r₂.take 4 ++ '-' :: (r₃.take 4 ++ '-' :: r₃.drop 4)))

/-- The canonical characters. -/
def chars (u : Uuid) : List Char := hyphenate (u.digits.map hexChar)

/-- The canonical text, lower case with hyphens. -/
def text (u : Uuid) : String := String.ofList u.chars

/-! ## Postgres input -/

/-- Drop a hyphen where one is allowed. -/
def skipHyphen (allowed : Bool) : List Char → List Char
  | '-' :: cs => if allowed then cs else '-' :: cs
  | cs => cs

/-- Read `n` bytes, two digits each; a hyphen may follow every second byte but the last. -/
def readBytes : Nat → List Char → Option (List (Fin 16) × List Char)
  | 0, cs => some ([], cs)
  | n + 1, a :: b :: cs =>
    match hexVal a, hexVal b with
    | some x, some y =>
      (readBytes n (skipHyphen (n % 2 = 0 ∧ 0 < n) cs)).map fun r => (x :: y :: r.1, r.2)
    | _, _ => none
  | _ + 1, _ => none

/-- The digits of an input of a `uuid` column, and what is left after them. -/
def inputDigits : List Char → Option (List (Fin 16))
  | '\x7b' :: cs =>
    match readBytes 16 cs with
    | some (ds, ['\x7d']) => some ds
    | _ => none
  | cs =>
    match readBytes 16 cs with
    | some (ds, []) => some ds
    | _ => none

theorem readBytes_length {n : Nat} {cs : List Char} {ds : List (Fin 16)} {rest : List Char}
    (h : readBytes n cs = some (ds, rest)) : ds.length = 2 * n := by
  induction n generalizing cs ds with
  | zero =>
    simp only [readBytes, Option.some.injEq, Prod.mk.injEq] at h
    rw [← h.1]; rfl
  | succ n ih =>
    match cs, h with
    | a :: b :: cs, h =>
      simp only [readBytes] at h
      split at h
      · obtain ⟨⟨ds', r⟩, hr, he⟩ := Option.map_eq_some_iff.mp h
        simp only [Prod.mk.injEq] at he
        obtain ⟨rfl, rfl⟩ := he
        have := ih hr
        simp only [List.length_cons]
        omega
      · cases h

theorem inputDigits_length {cs : List Char} {ds : List (Fin 16)} (h : inputDigits cs = some ds) :
    ds.length = 32 := by
  unfold inputDigits at h
  split at h
  · split at h
    · rename_i hr
      cases h
      exact readBytes_length hr
    · cases h
  · split at h
    · rename_i hr
      cases h
      exact readBytes_length hr
    · cases h

/-- What a `uuid` column makes of a text. -/
def input (s : String) : Option Uuid :=
  match h : inputDigits s.toList with
  | some ds => some ⟨ds, inputDigits_length h⟩
  | none => none

/-! ## The check of google/uuid -/

/-- `xxxxxxxx-xxxx-xxxx-xxxx-xxxxxxxxxxxx`, digits of either case. -/
def isStandard (cs : List Char) : Bool :=
  cs.length == 36 && [8, 13, 18, 23].all (fun i => cs.getD i ' ' == '-') &&
    [0, 2, 4, 6, 9, 11, 14, 16, 19, 21, 24, 26, 28, 30, 32, 34].all
      (fun x => (hexVal (cs.getD x ' ')).isSome && (hexVal (cs.getD (x + 1) ' ')).isSome)

/-- `uuid.Validate(s) == nil`, by the length of `s`. -/
def validate (s : String) : Bool :=
  let cs := s.toList
  if cs.length = 36 then isStandard cs
  else if cs.length = 45 then
    (cs.take 9).map Char.toLower == "urn:uuid:".toList && isStandard (cs.drop 9)
  else if cs.length = 38 then
    cs.head? == some '\x7b' && cs.getLast? == some '\x7d' && isStandard ((cs.drop 1).take 36)
  else if cs.length = 32 then cs.all (fun c => (hexVal c).isSome)
  else false

/-- `uuid.Parse(s)` returns no error. It is `validate` but for the braces, which it skips
unseen: any first and last byte will do. -/
def parse (s : String) : Bool :=
  let cs := s.toList
  if cs.length = 38 then cs.all (fun c => c.toNat < 128) && isStandard ((cs.drop 1).take 36)
  else validate s

/-! ## The canonical text is read back -/

theorem readBytes_hex (n : Nat) (x y : Fin 16) (cs : List Char) :
    readBytes (n + 1) (hexChar x :: hexChar y :: cs) =
      (readBytes n (skipHyphen (n % 2 = 0 ∧ 0 < n) cs)).map fun r => (x :: y :: r.1, r.2) := by
  simp [readBytes]

theorem skipHyphen_hex (b : Bool) (x : Fin 16) (cs : List Char) :
    skipHyphen b (hexChar x :: cs) = hexChar x :: cs := by
  unfold skipHyphen
  split
  · rename_i h
    exact absurd (List.cons.inj h).1 (hexChar_ne_hyphen x)
  · rfl

/-- A group of lower-case digits is read whole; only after it may a hyphen go. -/
theorem readBytes_group (k n : Nat) (ds : List (Fin 16)) (cs : List Char)
    (hl : ds.length = 2 * (k + 1)) :
    readBytes (n + k + 1) (ds.map hexChar ++ cs) =
      (readBytes n (skipHyphen (n % 2 = 0 ∧ 0 < n) cs)).map fun r => (ds ++ r.1, r.2) := by
  induction k generalizing ds with
  | zero =>
    match ds, hl with
    | [x, y], _ => simp [readBytes_hex]
  | succ k ih =>
    match ds, hl with
    | x :: y :: z :: ds, hl =>
      have := ih (z :: ds) (by simp at hl ⊢; omega)
      simp only [List.map_cons, List.cons_append] at this ⊢
      rw [show n + (k + 1) + 1 = (n + k + 1) + 1 by omega, readBytes_hex, skipHyphen_hex, this,
        Option.map_map]
      rfl

/-- The five groups of digits. -/
theorem exists_groups (u : Uuid) : ∃ a b c d e : List (Fin 16),
    u.digits = a ++ (b ++ (c ++ (d ++ e))) ∧
      a.length = 8 ∧ b.length = 4 ∧ c.length = 4 ∧ d.length = 4 ∧ e.length = 12 := by
  have hl := u.len
  refine ⟨_, _, _, _, _, ((List.take_append_drop 8 u.digits).symm.trans (congrArg _
    ((List.take_append_drop 4 _).symm.trans (congrArg _ ((List.take_append_drop 4 _).symm.trans
      (congrArg _ (List.take_append_drop 4 _).symm)))))), ?_⟩
  simp [hl]

/-- The canonical characters, group by group. -/
theorem exists_chars (u : Uuid) : ∃ a b c d e : List (Fin 16),
    u.digits = a ++ (b ++ (c ++ (d ++ e))) ∧
      (a.length = 8 ∧ b.length = 4 ∧ c.length = 4 ∧ d.length = 4 ∧ e.length = 12) ∧
      u.chars = a.map hexChar ++ '-' :: (b.map hexChar ++ '-' :: (c.map hexChar ++ '-' ::
        (d.map hexChar ++ '-' :: e.map hexChar))) := by
  obtain ⟨a, b, c, d, e, hu, ha, hb, hc, hd, he⟩ := exists_groups u
  refine ⟨a, b, c, d, e, hu, ⟨ha, hb, hc, hd, he⟩, ?_⟩
  simp [chars, hyphenate, hu, ha, hb, hc, hd]

theorem readBytes_chars (u : Uuid) : readBytes 16 u.chars = some (u.digits, []) := by
  obtain ⟨a, b, c, d, e, hu, ⟨ha, hb, hc, hd, he⟩, hcs⟩ := exists_chars u
  have h5 := readBytes_group 5 0 e [] (by omega)
  have h4 := readBytes_group 1 6 d ('-' :: e.map hexChar) (by omega)
  have h3 := readBytes_group 1 8 c ('-' :: (d.map hexChar ++ '-' :: e.map hexChar)) (by omega)
  have h2 := readBytes_group 1 10 b ('-' :: (c.map hexChar ++ '-' :: (d.map hexChar ++ '-' ::
    e.map hexChar))) (by omega)
  have h1 := readBytes_group 3 12 a ('-' :: (b.map hexChar ++ '-' :: (c.map hexChar ++ '-' ::
    (d.map hexChar ++ '-' :: e.map hexChar)))) (by omega)
  simp [skipHyphen, readBytes] at h1 h2 h3 h4 h5
  rw [hcs, h1, h2, h3, h4, h5, hu]
  simp

theorem chars_head (u : Uuid) : ∃ x cs, u.chars = hexChar x :: cs := by
  obtain ⟨a, b, c, d, e, -, ⟨ha, -⟩, hcs⟩ := exists_chars u
  match a, ha with
  | x :: a, _ => exact ⟨x, _, by rw [hcs]; rfl⟩

/-- **Postgres reads back the text it prints.** -/
@[simp] theorem input_text (u : Uuid) : input u.text = some u := by
  have hd : inputDigits u.chars = some u.digits := by
    obtain ⟨x, cs, hx⟩ := chars_head u
    unfold inputDigits
    split
    · rename_i h
      rw [hx] at h
      exact absurd (List.cons.inj h).1 (hexChar_ne_brace x)
    · rw [readBytes_chars]
  unfold input
  split
  · rename_i ds h
    rw [text, String.toList_ofList, hd] at h
    cases h
    rfl
  · rename_i h
    rw [text, String.toList_ofList, hd] at h
    cases h

theorem text_ne_empty (u : Uuid) : u.text ≠ "" := by
  intro h
  have := congrArg input h
  rw [input_text] at this
  cases this

/-- google/uuid accepts the canonical text. -/
theorem validate_text (u : Uuid) : validate u.text = true := by
  obtain ⟨a, b, c, d, e, -, ⟨ha, hb, hc, hd, he⟩, hcs⟩ := exists_chars u
  match a, ha, b, hb, c, hc, d, hd, e, he with
  | [a₀, a₁, a₂, a₃, a₄, a₅, a₆, a₇], _, [b₀, b₁, b₂, b₃], _, [c₀, c₁, c₂, c₃], _,
    [d₀, d₁, d₂, d₃], _, [e₀, e₁, e₂, e₃, e₄, e₅, e₆, e₇, e₈, e₉, e₁₀, e₁₁], _ =>
    simp [validate, text, hcs, isStandard]

theorem chars_length (u : Uuid) : u.chars.length = 36 := by
  obtain ⟨a, b, c, d, e, -, ⟨ha, hb, hc, hd, he⟩, hcs⟩ := exists_chars u
  simp [hcs, ha, hb, hc, hd, he]

theorem parse_text (u : Uuid) : parse u.text = true := by
  have hlen : u.text.toList.length = 36 := by
    rw [text, String.toList_ofList, chars_length]
  simp only [parse, hlen]
  exact validate_text u

end Uuid
