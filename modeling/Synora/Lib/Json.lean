import Synora.Lib.Hex

/- JSON texts, as Go's `encoding/json` writes and reads them. A number is kept as
   its literal. `encode` writes no white space and escapes the characters that are
   special in HTML or JavaScript; `parse` reads any JSON text. What is written is
   read back (`parse_encode`).

   The parser is given fuel; `parse` gives it twice the length of the text and a
   bit, and every level of the grammar costs no more than two characters. -/

namespace Json

/-! ## Numbers -/

/-- A digit, a sign, a point or an exponent mark. -/
def isNumberChar (c : Char) : Bool := c.isDigit || c == '-' || c == '+' || c == '.' || c == 'e' || c == 'E'

def digits1 (cs : List Char) : Option (List Char) :=
  if cs.takeWhile Char.isDigit = [] then none else some (cs.dropWhile Char.isDigit)

/-- What follows an integer part: no zero leads a longer one. -/
def afterInt : List Char → Option (List Char)
  | '0' :: cs => some cs
  | cs => digits1 cs

def afterFrac : List Char → Option (List Char)
  | '.' :: cs => digits1 cs
  | cs => some cs

def afterExp : List Char → Option (List Char)
  | e :: cs =>
    if e = 'e' ∨ e = 'E' then
      match cs with
      | '+' :: cs => digits1 cs
      | '-' :: cs => digits1 cs
      | cs => digits1 cs
    else some (e :: cs)
  | [] => some []

/-- Whether the characters are a number. -/
def isNumber (cs : List Char) : Bool :=
  let cs := match cs with
    | '-' :: cs => cs
    | cs => cs
  ((afterInt cs).bind fun cs => (afterFrac cs).bind afterExp) == some []

/-- The literal of a number. -/
structure NumLit where
  chars : List Char
  valid : isNumber chars = true
  chars_all : chars.all isNumberChar = true
  deriving DecidableEq

end Json

inductive Json where
  | null
  | bool (b : Bool)
  | num (n : Json.NumLit)
  | str (s : String)
  | arr (vs : List Json)
  | obj (ms : List (String × Json))

namespace Json

/-! ## Strings -/

/-- `\\uXXXX`. -/
def unicodeEscape (n : Nat) : List Char :=
  ['\\', 'u', hexChar (Fin.ofNat 16 (n / 4096)), hexChar (Fin.ofNat 16 (n / 256)),
    hexChar (Fin.ofNat 16 (n / 16)), hexChar (Fin.ofNat 16 n)]

/-- The letter of a short escape. -/
def shortEscape (c : Char) : Option Char :=
  if c = '"' then some '"'
  else if c = '\\' then some '\\'
  else if c = '\x08' then some 'b'
  else if c = '\x0c' then some 'f'
  else if c = '\n' then some 'n'
  else if c = '\r' then some 'r'
  else if c = '\t' then some 't'
  else none

/-- Control characters, `<`, `>`, `&` and the two line separators of JavaScript. -/
def needsUnicode (c : Char) : Bool :=
  decide (c.toNat < 32) || c == '<' || c == '>' || c == '&' || c == '\u2028' || c == '\u2029'

def escapeChar (c : Char) : List Char :=
  match shortEscape c with
  | some e => ['\\', e]
  | none => if needsUnicode c then unicodeEscape c.toNat else [c]

def quote (s : String) : List Char := '"' :: (s.toList.flatMap escapeChar ++ ['"'])

/-- The character of a short escape. -/
def unescape (e : Char) : Option Char :=
  if e = '"' ∨ e = '\\' ∨ e = '/' then some e
  else if e = 'b' then some '\x08'
  else if e = 'f' then some '\x0c'
  else if e = 'n' then some '\n'
  else if e = 'r' then some '\r'
  else if e = 't' then some '\t'
  else none

def hex4 (a b c d : Char) : Option Nat := do
  let a ← hexVal a
  let b ← hexVal b
  let c ← hexVal c
  let d ← hexVal d
  return a * 4096 + b * 256 + c * 16 + d

/-- The second half of a pair of surrogates. -/
def lowSurrogate (n : Nat) : Bool := decide (0xDC00 ≤ n ∧ n < 0xE000)
def highSurrogate (n : Nat) : Bool := decide (0xD800 ≤ n ∧ n < 0xDC00)

def replacement : Char := '\ufffd'

/-- The characters of a string after its opening quote, up to the closing one. Half a pair of
surrogates alone is replaced. -/
def stringBody : List Char → Option (List Char × List Char)
  | [] => none
  | '"' :: cs => some ([], cs)
  | '\\' :: 'u' :: a :: b :: c :: d :: cs =>
    match hex4 a b c d with
    | none => none
    | some n =>
      if highSurrogate n || lowSurrogate n then
        match cs with
        | '\\' :: 'u' :: a' :: b' :: c' :: d' :: cs' =>
          match hex4 a' b' c' d' with
          | some m =>
            if highSurrogate n && lowSurrogate m then
              (stringBody cs').map fun r =>
                (Char.ofNat ((n - 0xD800) * 0x400 + (m - 0xDC00) + 0x10000) :: r.1, r.2)
            else (stringBody ('\\' :: 'u' :: a' :: b' :: c' :: d' :: cs')).map fun r =>
              (replacement :: r.1, r.2)
          | none => none
        | cs => (stringBody cs).map fun r => (replacement :: r.1, r.2)
      else (stringBody cs).map fun r => (Char.ofNat n :: r.1, r.2)
  | '\\' :: e :: cs =>
    match unescape e with
    | some c => (stringBody cs).map fun r => (c :: r.1, r.2)
    | none => none
  | c :: cs =>
    if c = '\\' ∨ c.toNat < 32 then none else (stringBody cs).map fun r => (c :: r.1, r.2)

/-! ## Values -/

mutual

def encode : Json → List Char
  | null => ['n', 'u', 'l', 'l']
  | bool true => ['t', 'r', 'u', 'e']
  | bool false => ['f', 'a', 'l', 's', 'e']
  | num n => n.chars
  | str s => quote s
  | arr [] => ['[', ']']
  | arr (v :: vs) => '[' :: (encode v ++ encodeElems vs)
  | obj [] => ['\x7b', '\x7d']
  | obj ((k, v) :: ms) => '\x7b' :: (quote k ++ ':' :: (encode v ++ encodeMembers ms))

def encodeElems : List Json → List Char
  | [] => [']']
  | v :: vs => ',' :: (encode v ++ encodeElems vs)

def encodeMembers : List (String × Json) → List Char
  | [] => ['\x7d']
  | (k, v) :: ms => ',' :: (quote k ++ ':' :: (encode v ++ encodeMembers ms))

end

def isSpace (c : Char) : Bool := c == ' ' || c == '\t' || c == '\n' || c == '\r'

def skipSpace (cs : List Char) : List Char := cs.dropWhile isSpace

/-- The literal at the beginning of the text. -/
def number (cs : List Char) : Option (Json × List Char) :=
  if h : isNumber (cs.takeWhile isNumberChar) = true then
    some (.num ⟨cs.takeWhile isNumberChar, h, List.all_takeWhile⟩, cs.dropWhile isNumberChar)
  else none

mutual

def value : Nat → List Char → Option (Json × List Char)
  | 0, _ => none
  | n + 1, cs =>
    match skipSpace cs with
    | 'n' :: 'u' :: 'l' :: 'l' :: cs => some (.null, cs)
    | 't' :: 'r' :: 'u' :: 'e' :: cs => some (.bool true, cs)
    | 'f' :: 'a' :: 'l' :: 's' :: 'e' :: cs => some (.bool false, cs)
    | '"' :: cs => (stringBody cs).map fun r => (.str (String.ofList r.1), r.2)
    | '[' :: cs =>
      match skipSpace cs with
      | ']' :: cs => some (.arr [], cs)
      | cs => (elems n cs).map fun r => (.arr r.1, r.2)
    | '\x7b' :: cs =>
      match skipSpace cs with
      | '\x7d' :: cs => some (.obj [], cs)
      | cs => (members n cs).map fun r => (.obj r.1, r.2)
    | cs => number cs

/-- Values up to the closing bracket. -/
def elems : Nat → List Char → Option (List Json × List Char)
  | 0, _ => none
  | n + 1, cs =>
    match value n cs with
    | none => none
    | some (v, cs) =>
      match skipSpace cs with
      | ',' :: cs => (elems n cs).map fun r => (v :: r.1, r.2)
      | ']' :: cs => some ([v], cs)
      | _ => none

/-- Members up to the closing brace. -/
def members : Nat → List Char → Option (List (String × Json) × List Char)
  | 0, _ => none
  | n + 1, cs =>
    match skipSpace cs with
    | '"' :: cs =>
      match stringBody cs with
      | none => none
      | some (k, cs) =>
        match skipSpace cs with
        | ':' :: cs =>
          match value n cs with
          | none => none
          | some (v, cs) =>
            match skipSpace cs with
            | ',' :: cs => (members n cs).map fun r => ((String.ofList k, v) :: r.1, r.2)
            | '\x7d' :: cs => some ([(String.ofList k, v)], cs)
            | _ => none
        | _ => none
    | _ => none

end

/-- A JSON text is one value. -/
def parse (cs : List Char) : Option Json :=
  match value (2 * cs.length + 2) cs with
  | some (v, rest) => if skipSpace rest = [] then some v else none
  | none => none

/-! ## What is written is read back -/

theorem hex4_unicode {n : Nat} (h : n < 65536) :
    hex4 (hexChar (Fin.ofNat 16 (n / 4096))) (hexChar (Fin.ofNat 16 (n / 256)))
      (hexChar (Fin.ofNat 16 (n / 16))) (hexChar (Fin.ofNat 16 n)) = some n := by
  simp only [hex4, hexVal_hexChar, Option.bind_eq_bind, Option.bind_some, Fin.val_ofNat,
    Option.pure_def, Option.some.injEq]
  omega

/-- A character that needs no escape. -/
theorem stringBody_plain {c : Char} (cs : List Char) (hquote : c ≠ '"') (hback : c ≠ '\\')
    (hctl : ¬ c.toNat < 32) : stringBody (c :: cs) = (stringBody cs).map fun r => (c :: r.1, r.2) := by
  rw [stringBody.eq_def]
  split
  · next h => cases h
  · next h => exact absurd (List.cons.inj h).1 hquote
  · next h => exact absurd (List.cons.inj h).1 hback
  · next h => exact absurd (List.cons.inj h).1 hback
  · next h =>
    obtain ⟨rfl, rfl⟩ := List.cons.inj h
    simp [hback, hctl]

theorem stringBody_shortEscape {c e : Char} (cs : List Char) (h : shortEscape c = some e) :
    stringBody ('\\' :: e :: cs) = (stringBody cs).map fun r => (c :: r.1, r.2) := by
  unfold shortEscape at h
  split_ifs at h with h1 h2 h3 h4 h5 h6 h7
  all_goals
    cases h
    subst c
    simp [stringBody, unescape]

theorem ne_of_shortEscape_none {c : Char} (h : shortEscape c = none) : c ≠ '"' ∧ c ≠ '\\' := by
  constructor
  · rintro rfl
    cases h
  · rintro rfl
    cases h

/-- A character below the surrogates is read back from its code. -/
theorem stringBody_unicodeEscape {c : Char} (cs : List Char) (hlt : c.toNat < 0xD800) :
    stringBody (unicodeEscape c.toNat ++ cs) = (stringBody cs).map fun r => (c :: r.1, r.2) := by
  have hhigh : highSurrogate c.toNat = false := by
    unfold highSurrogate
    exact decide_eq_false (by omega)
  have hlow : lowSurrogate c.toNat = false := by
    unfold lowSurrogate
    exact decide_eq_false (by omega)
  simp only [unicodeEscape, List.cons_append, List.nil_append]
  rw [stringBody]
  simp only [hex4_unicode (show c.toNat < 65536 by omega), hhigh, hlow, Bool.or_self, Bool.false_eq_true,
    if_false, Char.ofNat_toNat]

theorem stringBody_escapeChar (c : Char) (cs : List Char) :
    stringBody (escapeChar c ++ cs) = (stringBody cs).map fun r => (c :: r.1, r.2) := by
  unfold escapeChar
  split
  · next e he => exact stringBody_shortEscape cs he
  · next hnone =>
    obtain ⟨hquote, hback⟩ := ne_of_shortEscape_none hnone
    by_cases hu : needsUnicode c = true
    · rw [if_pos hu]
      refine stringBody_unicodeEscape cs ?_
      simp only [needsUnicode, Bool.or_eq_true, decide_eq_true_eq, beq_iff_eq] at hu
      rcases hu with ((((h | rfl) | rfl) | rfl) | rfl) | rfl
      · omega
      all_goals decide
    · rw [if_neg hu]
      refine stringBody_plain cs hquote hback fun h => ?_
      exact hu (by simp [needsUnicode, h])

theorem stringBody_quote (s : List Char) (rest : List Char) :
    stringBody (s.flatMap escapeChar ++ '"' :: rest) = some (s, rest) := by
  induction s with
  | nil => rfl
  | cons c s ih =>
    rw [List.flatMap_cons, List.append_assoc, stringBody_escapeChar, ih]
    rfl

/-- No character of a number follows. -/
def Delimited (rest : List Char) : Prop := ∀ c cs, rest = c :: cs → isNumberChar c = false

theorem delimited_nil : Delimited [] := by
  intro c cs h
  cases h

theorem delimited_cons {c : Char} (cs : List Char) (h : isNumberChar c = false) : Delimited (c :: cs) := by
  intro d ds he
  cases he
  exact h

theorem skipSpace_cons {c : Char} (cs : List Char) (h : isSpace c = false) :
    skipSpace (c :: cs) = c :: cs := List.dropWhile_cons_of_neg (by simp [h])

/-- A literal begins with a character of a number, and so with none of the others. -/
theorem NumLit.head (n : NumLit) : ∃ c cs, n.chars = c :: cs ∧ isNumberChar c = true := by
  match hn : n.chars with
  | [] =>
    have := n.valid
    rw [hn] at this
    cases this
  | c :: cs =>
    have := n.chars_all
    rw [hn, List.all_cons, Bool.and_eq_true] at this
    exact ⟨c, cs, rfl, this.1⟩

theorem ne_of_number {c d : Char} (h : isNumberChar c = true) (hd : isNumberChar d = false) : c ≠ d := by
  intro he
  rw [he, hd] at h
  cases h

theorem isSpace_of_number {c : Char} (h : isNumberChar c = true) : isSpace c = false := by
  unfold isSpace
  simp only [Bool.or_eq_false_iff, beq_eq_false_iff_ne]
  exact ⟨⟨⟨ne_of_number h rfl, ne_of_number h rfl⟩, ne_of_number h rfl⟩, ne_of_number h rfl⟩

/-- How a written value begins. -/
theorem encode_head (v : Json) : ∃ c cs, encode v = c :: cs ∧ isSpace c = false ∧ c ≠ ']' ∧ c ≠ '\x7d' := by
  cases v with
  | null => exact ⟨_, _, rfl, by decide⟩
  | bool b => cases b <;> exact ⟨_, _, rfl, by decide⟩
  | num n =>
    obtain ⟨c, cs, hc, hn⟩ := n.head
    exact ⟨c, cs, hc, isSpace_of_number hn, ne_of_number hn rfl, ne_of_number hn rfl⟩
  | str s => exact ⟨_, _, rfl, by decide⟩
  | arr vs => cases vs <;> exact ⟨_, _, by rw [encode], by decide⟩
  | obj ms =>
    match ms with
    | [] => exact ⟨_, _, by rw [encode], by decide⟩
    | (k, v) :: ms => exact ⟨_, _, by rw [encode], by decide⟩

theorem number_lit (n : NumLit) {rest : List Char} (h : Delimited rest) :
    number (n.chars ++ rest) = some (.num n, rest) := by
  have hall : ∀ c ∈ n.chars, isNumberChar c = true := List.all_eq_true.mp n.chars_all
  have htake : rest.takeWhile isNumberChar = [] ∧ rest.dropWhile isNumberChar = rest := by
    cases rest with
    | nil => exact ⟨rfl, rfl⟩
    | cons c cs =>
      have hc := h c cs rfl
      exact ⟨List.takeWhile_cons_of_neg (by simp [hc]), List.dropWhile_cons_of_neg (by simp [hc])⟩
  unfold number
  simp only [List.takeWhile_append_of_pos hall, List.dropWhile_append_of_pos hall, htake.1, htake.2,
    List.append_nil]
  rw [dif_pos n.valid]

theorem value_num (m : Nat) (n : NumLit) {rest : List Char} (h : Delimited rest) :
    value (m + 1) (n.chars ++ rest) = some (.num n, rest) := by
  obtain ⟨c, cs, hc, hn⟩ := n.head
  have hnum := number_lit n h
  rw [hc, List.cons_append] at hnum ⊢
  rw [value, skipSpace_cons _ (isSpace_of_number hn)]
  split
  · next he => exact absurd (List.cons.inj he).1 (ne_of_number hn rfl)
  · next he => exact absurd (List.cons.inj he).1 (ne_of_number hn rfl)
  · next he => exact absurd (List.cons.inj he).1 (ne_of_number hn rfl)
  · next he => exact absurd (List.cons.inj he).1 (ne_of_number hn rfl)
  · next he => exact absurd (List.cons.inj he).1 (ne_of_number hn rfl)
  · next he => exact absurd (List.cons.inj he).1 (ne_of_number hn rfl)
  · exact hnum

theorem value_str (m : Nat) (s : String) (rest : List Char) :
    value (m + 1) (quote s ++ rest) = some (.str s, rest) := by
  rw [value, quote, List.cons_append, skipSpace_cons _ (by decide)]
  simp [stringBody_quote]

/-- What the parser makes of a written value when it has the fuel. -/
def Reads (v : Json) : Prop :=
  ∀ n rest, 2 * (encode v).length ≤ n → Delimited rest → value n (encode v ++ rest) = some (v, rest)

theorem encodeElems_head (vs : List Json) : ∃ c cs, encodeElems vs = c :: cs ∧ isNumberChar c = false := by
  cases vs <;> exact ⟨_, _, by rw [encodeElems], by decide⟩

theorem encodeMembers_head (ms : List (String × Json)) :
    ∃ c cs, encodeMembers ms = c :: cs ∧ isNumberChar c = false := by
  match ms with
  | [] => exact ⟨_, _, by rw [encodeMembers], by decide⟩
  | (k, v) :: ms => exact ⟨_, _, by rw [encodeMembers], by decide⟩

mutual

theorem reads : ∀ v : Json, Reads v
  | .null => by
    intro n rest h _
    match n with
    | n + 1 => simp [value, encode, skipSpace_cons, isSpace]
  | .bool true => by
    intro n rest h _
    match n with
    | n + 1 => simp [value, encode, skipSpace_cons, isSpace]
  | .bool false => by
    intro n rest h _
    match n with
    | n + 1 => simp [value, encode, skipSpace_cons, isSpace]
  | .num lit => by
    intro n rest h hd
    obtain ⟨c, cs, hc, -⟩ := lit.head
    rw [encode] at h ⊢
    match n with
    | 0 => rw [hc] at h; simp at h
    | n + 1 => exact value_num n lit hd
  | .str s => by
    intro n rest h _
    rw [encode] at h ⊢
    match n with
    | 0 => simp [quote] at h
    | n + 1 => exact value_str n s rest
  | .arr [] => by
    intro n rest h _
    match n with
    | n + 1 => simp [value, encode, skipSpace_cons, isSpace]
  | .arr (v :: vs) => by
    intro n rest h _
    rw [encode] at h ⊢
    simp only [List.length_cons, List.length_append] at h
    match n with
    | 0 => omega
    | n + 1 =>
      have helems := readsElems vs v (reads v) n rest (by omega)
      obtain ⟨c, cs, hc, hspace, hclose, -⟩ := encode_head v
      rw [value, List.cons_append, skipSpace_cons _ (by decide), List.append_assoc]
      simp only
      rw [hc, List.cons_append, skipSpace_cons _ hspace]
      split
      · next he => exact absurd (List.cons.inj he).1 hclose
      · rw [← List.cons_append, ← hc, helems]
        rfl
  | .obj [] => by
    intro n rest h _
    match n with
    | n + 1 => simp [value, encode, skipSpace_cons, isSpace]
  | .obj ((k, v) :: ms) => by
    intro n rest h _
    rw [encode] at h ⊢
    simp only [List.length_cons, List.length_append] at h
    match n with
    | 0 => omega
    | n + 1 =>
      have hmembers := readsMembers ms k v (reads v) n rest (by omega)
      rw [value, List.cons_append, skipSpace_cons _ (by decide)]
      simp only [List.append_assoc, List.cons_append]
      have hq : skipSpace (quote k ++ ':' :: (encode v ++ (encodeMembers ms ++ rest))) =
          quote k ++ ':' :: (encode v ++ (encodeMembers ms ++ rest)) := skipSpace_cons _ (by decide)
      rw [hq]
      split
      · next he =>
        rw [quote, List.cons_append] at he
        exact absurd (List.cons.inj he).1 (by decide)
      · rw [hmembers]
        rfl

theorem readsElems : ∀ (vs : List Json) (v : Json), Reads v → ∀ n rest,
    2 * ((encode v).length + (encodeElems vs).length) + 1 ≤ n →
    elems n (encode v ++ (encodeElems vs ++ rest)) = some (v :: vs, rest)
  | [], v, hv, n, rest, h => by
    match n with
    | n + 1 =>
      obtain ⟨c, cs, hc, hnum⟩ := encodeElems_head []
      have hval := hv n (encodeElems [] ++ rest) (by omega)
        (by rw [hc]; exact delimited_cons _ hnum)
      rw [elems, hval]
      simp [encodeElems, skipSpace_cons, isSpace]
  | w :: ws, v, hv, n, rest, h => by
    match n with
    | n + 1 =>
      obtain ⟨c, cs, hc, hnum⟩ := encodeElems_head (w :: ws)
      have hval := hv n (encodeElems (w :: ws) ++ rest) (by omega)
        (by rw [hc]; exact delimited_cons _ hnum)
      rw [elems, hval]
      rw [encodeElems] at h ⊢
      simp only [List.length_cons, List.length_append] at h
      have hrest := readsElems ws w (reads w) n rest (by omega)
      simp [skipSpace_cons, isSpace, hrest]

theorem readsMembers : ∀ (ms : List (String × Json)) (k : String) (v : Json), Reads v → ∀ n rest,
    2 * ((quote k).length + 1 + (encode v).length + (encodeMembers ms).length) + 1 ≤ n →
    members n (quote k ++ ':' :: (encode v ++ (encodeMembers ms ++ rest))) = some ((k, v) :: ms, rest)
  | [], k, v, hv, n, rest, h => by
    match n with
    | n + 1 =>
      obtain ⟨c, cs, hc, hnum⟩ := encodeMembers_head []
      have hval := hv n (encodeMembers [] ++ rest) (by omega)
        (by rw [hc]; exact delimited_cons _ hnum)
      rw [members, quote, List.cons_append, skipSpace_cons _ (by decide)]
      simp only [List.append_assoc, List.cons_append, List.nil_append, stringBody_quote]
      rw [skipSpace_cons _ (by decide)]
      simp only [hval]
      simp [encodeMembers, skipSpace_cons, isSpace]
  | (l, w) :: ws, k, v, hv, n, rest, h => by
    match n with
    | n + 1 =>
      obtain ⟨c, cs, hc, hnum⟩ := encodeMembers_head ((l, w) :: ws)
      have hval := hv n (encodeMembers ((l, w) :: ws) ++ rest) (by omega)
        (by rw [hc]; exact delimited_cons _ hnum)
      rw [members, quote, List.cons_append, skipSpace_cons _ (by decide)]
      simp only [List.append_assoc, List.cons_append, List.nil_append, stringBody_quote]
      rw [skipSpace_cons _ (by decide)]
      simp only [hval]
      rw [encodeMembers] at h ⊢
      simp only [List.length_cons, List.length_append] at h
      have hrest := readsMembers ws l w (reads w) n rest (by omega)
      simp [skipSpace_cons, isSpace, hrest]

end

/-- **What is written is read back.** -/
theorem parse_encode (v : Json) : parse (encode v) = some v := by
  have h := reads v (2 * (encode v).length + 2) [] (by omega) delimited_nil
  rw [List.append_nil] at h
  rw [parse, h]
  rfl

/-- … also with a line feed behind it, as an encoder that streams writes it. -/
theorem parse_encode_line (v : Json) : parse (encode v ++ ['\n']) = some v := by
  have hlen : (encode v ++ ['\n']).length = (encode v).length + 1 := List.length_append
  have h := reads v (2 * (encode v ++ ['\n']).length + 2) ['\n'] (by omega) (delimited_cons _ (by decide))
  rw [parse, h]
  rfl

end Json
