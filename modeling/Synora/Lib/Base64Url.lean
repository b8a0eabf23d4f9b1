import Mathlib.Data.List.Basic

/- Base64 with the URL alphabet and without padding (Go's `RawURLEncoding`). Three
   bytes are four characters; one or two bytes at the end are two or three, and
   the bits left over are not checked when they are read. Line breaks in a text
   are skipped. -/
namespace Base64Url

/-- The character of six bits. -/
def sextetChar (d : Fin 64) : Char :=
  "ABCDEFGHIJKLMNOPQRSTUVWXYZabcdefghijklmnopqrstuvwxyz0123456789-_".toList.getD d.val 'A'

def sextetVal (c : Char) : Option (Fin 64) :=
  if 'A' ≤ c ∧ c ≤ 'Z' then some (Fin.ofNat 64 (c.toNat - 'A'.toNat))
  else if 'a' ≤ c ∧ c ≤ 'z' then some (Fin.ofNat 64 (c.toNat - 'a'.toNat + 26))
  else if '0' ≤ c ∧ c ≤ '9' then some (Fin.ofNat 64 (c.toNat - '0'.toNat + 52))
  else if c = '-' then some 62
  else if c = '_' then some 63
  else none

@[simp] theorem sextetVal_sextetChar : ∀ d : Fin 64, sextetVal (sextetChar d) = some d := by
  decide +kernel

theorem sextetChar_ne : ∀ d : Fin 64, sextetChar d ≠ '\n' ∧ sextetChar d ≠ '\r' ∧ sextetChar d ≠ '.' ∧
    sextetChar d ≠ ' ' := by
  decide +kernel

/-- Bytes as groups of six bits. -/
def sextets : List UInt8 → List (Fin 64)
  | a :: b :: c :: rest =>
    Fin.ofNat 64 (a.toNat / 4) :: Fin.ofNat 64 (a.toNat % 4 * 16 + b.toNat / 16) ::
      Fin.ofNat 64 (b.toNat % 16 * 4 + c.toNat / 64) :: Fin.ofNat 64 (c.toNat % 64) :: sextets rest
  | [a, b] =>
    [Fin.ofNat 64 (a.toNat / 4), Fin.ofNat 64 (a.toNat % 4 * 16 + b.toNat / 16),
      Fin.ofNat 64 (b.toNat % 16 * 4)]
  | [a] => [Fin.ofNat 64 (a.toNat / 4), Fin.ofNat 64 (a.toNat % 4 * 16)]
  | [] => []

/-- The bytes of groups of six bits; one group alone is no byte. -/
def octets : List (Fin 64) → Option (List UInt8)
  | a :: b :: c :: d :: rest =>
    (octets rest).map fun bs => UInt8.ofNat (a * 4 + b / 16) :: UInt8.ofNat (b % 16 * 16 + c / 4) ::
      UInt8.ofNat (c % 4 * 64 + d) :: bs
  | [a, b, c] => some [UInt8.ofNat (a * 4 + b / 16), UInt8.ofNat (b % 16 * 16 + c / 4)]
  | [a, b] => some [UInt8.ofNat (a * 4 + b / 16)]
  | [_] => none
  | [] => some []

/-- `EncodeToString`. -/
def encode (bs : List UInt8) : String := String.ofList ((sextets bs).map sextetChar)

/-- `DecodeString`. -/
def decode (s : String) : Option (List UInt8) :=
  ((s.toList.filter (fun c => c ≠ '\n' && c ≠ '\r')).mapM sextetVal).bind octets

theorem ofNat_eq {b : UInt8} {n : Nat} (h : n = b.toNat) : UInt8.ofNat n = b := by
  rw [h, UInt8.ofNat_toNat]

theorem octets_sextets (bs : List UInt8) : octets (sextets bs) = some bs := by
  fun_induction sextets bs with
  | case1 a b c rest ih =>
    have ha := a.toNat_lt
    have hb := b.toNat_lt
    have hc := c.toNat_lt
    simp only [octets, ih, Option.map_some, Fin.val_ofNat]
    rw [ofNat_eq (b := a) (by omega), ofNat_eq (b := b) (by omega), ofNat_eq (b := c) (by omega)]
  | case2 a b =>
    have ha := a.toNat_lt
    have hb := b.toNat_lt
    simp only [octets, Fin.val_ofNat]
    rw [ofNat_eq (b := a) (by omega), ofNat_eq (b := b) (by omega)]
  | case3 a =>
    have ha := a.toNat_lt
    simp only [octets, Fin.val_ofNat]
    rw [ofNat_eq (b := a) (by omega)]
  | case4 => rfl

/-- **What is encoded is decoded.** -/
@[simp] theorem decode_encode (bs : List UInt8) : decode (encode bs) = some bs := by
  have hfilter : ((sextets bs).map sextetChar).filter (fun c => c ≠ '\n' && c ≠ '\r') =
      (sextets bs).map sextetChar := by
    rw [List.filter_eq_self]
    intro c hc
    obtain ⟨d, -, rfl⟩ := List.mem_map.mp hc
    obtain ⟨h1, h2, -, -⟩ := sextetChar_ne d
    simp [h1, h2]
  have hmap : ((sextets bs).map sextetChar).mapM sextetVal = some (sextets bs) := by
    induction sextets bs with
    | nil => rfl
    | cons d ds ih => simp [List.mapM_cons, ih]
  unfold decode encode
  rw [String.toList_ofList, hfilter, hmap, Option.bind_some, octets_sextets]

/-- Only characters of the alphabet are written. -/
theorem mem_encode {bs : List UInt8} {c : Char} (h : c ∈ (encode bs).toList) :
    ∃ d, c = sextetChar d := by
  unfold encode at h
  rw [String.toList_ofList] at h
  obtain ⟨d, -, rfl⟩ := List.mem_map.mp h
  exact ⟨d, rfl⟩

/-- Something is written for every byte. -/
theorem encode_ne_empty {bs : List UInt8} (h : bs ≠ []) : encode bs ≠ "" := by
  intro he
  have hdec := decode_encode bs
  rw [he] at hdec
  have hnil : decode "" = some [] := by simp [decode, octets]
  rw [hnil] at hdec
  exact h (Option.some.inj hdec).symm

/-! ## Texts -/

/-- The bytes of a text. -/
def utf8 (cs : List Char) : List UInt8 := cs.flatMap String.utf8EncodeChar

/-- The text of some bytes; in bytes that are no text, those that are not ASCII are replaced. -/
def fromUtf8 (bs : List UInt8) : List Char :=
  match bs.toByteArray.utf8Decode? with
  | some cs => cs.toList
  | none => bs.map fun b => if b.toNat < 128 then Char.ofNat b.toNat else '\ufffd'

@[simp] theorem fromUtf8_utf8 (cs : List Char) : fromUtf8 (utf8 cs) = cs := by
  have h : (utf8 cs).toByteArray.utf8Decode? = some cs.toArray := List.utf8Decode?_utf8Encode
  rw [fromUtf8, h]

theorem utf8_ne_nil {cs : List Char} (h : cs ≠ []) : utf8 cs ≠ [] := by
  intro hnil
  have htext := fromUtf8_utf8 cs
  have hempty : fromUtf8 [] = [] := fromUtf8_utf8 []
  rw [hnil, hempty] at htext
  exact h htext.symm

end Base64Url
