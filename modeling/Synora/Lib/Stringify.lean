import Synora.Lib.JsonDecoder

/- `JSON.stringify` of JavaScript, on an object whose members are strings. Only the
   quotation mark, the backslash and the control characters are escaped. Any JSON
   reader gets the members back (`next_stringify`). -/
namespace Json

def stringifyChar (c : Char) : List Char :=
  match shortEscape c with
  | some e => ['\\', e]
  | none => if c.toNat < 32 then unicodeEscape c.toNat else [c]

def stringifyString (s : String) : List Char := '"' :: (s.toList.flatMap stringifyChar ++ ['"'])

/-- The members after the first, up to the closing brace. -/
def stringifyMembers : List (String × String) → List Char
  | [] => ['\x7d']
  | (k, v) :: ms => ',' :: (stringifyString k ++ ':' :: (stringifyString v ++ stringifyMembers ms))

def stringify : List (String × String) → List Char
  | [] => ['\x7b', '\x7d']
  | (k, v) :: ms => '\x7b' :: (stringifyString k ++ ':' :: (stringifyString v ++ stringifyMembers ms))

/-- The value that is written. -/
def ofStrings (ms : List (String × String)) : Json := .obj (ms.map fun m => (m.1, .str m.2))

theorem stringBody_stringifyChar (c : Char) (cs : List Char) :
    stringBody (stringifyChar c ++ cs) = (stringBody cs).map fun r => (c :: r.1, r.2) := by
  unfold stringifyChar
  split
  · next e he => exact stringBody_shortEscape cs he
  · next hnone =>
    obtain ⟨hquote, hback⟩ := ne_of_shortEscape_none hnone
    split
    · next hctl => exact stringBody_unicodeEscape cs (by omega)
    · next hctl => exact stringBody_plain cs hquote hback hctl

theorem stringBody_stringify (s rest : List Char) :
    stringBody (s.flatMap stringifyChar ++ '"' :: rest) = some (s, rest) := by
  induction s with
  | nil => rfl
  | cons c s ih =>
    rw [List.flatMap_cons, List.append_assoc, stringBody_stringifyChar, ih]
    rfl

theorem value_stringifyString (n : Nat) (s : String) (rest : List Char) :
    value (n + 1) (stringifyString s ++ rest) = some (.str s, rest) := by
  rw [value, stringifyString, List.cons_append, skipSpace_cons _ (by decide)]
  simp [stringBody_stringify]

theorem members_stringify (ms : List (String × String)) (k v : String) (n : Nat) (rest : List Char)
    (h : ms.length + 2 ≤ n) :
    members n (stringifyString k ++ ':' :: (stringifyString v ++ (stringifyMembers ms ++ rest))) =
      some (((k, v) :: ms).map fun m => (m.1, .str m.2), rest) := by
  induction ms generalizing k v n with
  | nil =>
    obtain ⟨n, rfl⟩ : ∃ m, n = m + 2 := ⟨n - 2, by simp at h; omega⟩
    rw [members, stringifyString, List.cons_append, skipSpace_cons _ (by decide)]
    simp only [List.append_assoc, List.cons_append, List.nil_append, stringBody_stringify]
    rw [skipSpace_cons _ (by decide)]
    simp [value_stringifyString, stringifyMembers, skipSpace_cons, isSpace]
  | cons m ms ih =>
    obtain ⟨k', v'⟩ := m
    obtain ⟨n, rfl⟩ : ∃ m, n = m + 2 := ⟨n - 2, by simp at h; omega⟩
    have hrest := ih k' v' (n + 1) (by simp only [List.length_cons] at h; omega)
    rw [members, stringifyString, List.cons_append, skipSpace_cons _ (by decide)]
    simp only [List.append_assoc, List.cons_append, List.nil_append, stringBody_stringify]
    rw [skipSpace_cons _ (by decide)]
    simp [value_stringifyString, stringifyMembers, skipSpace_cons, isSpace, hrest]

theorem stringifyString_head (s : String) (cs : List Char) :
    skipSpace (stringifyString s ++ cs) = stringifyString s ++ cs := by
  rw [stringifyString, List.cons_append]
  exact skipSpace_cons _ (by decide)

/-- **What is stringified is read back**, with nothing left. -/
theorem next_stringify (ms : List (String × String)) : next (stringify ms) = .value (ofStrings ms) [] := by
  have hdepth : ∀ ms : List (String × String), depthMembers (ms.map fun m => (m.1, .str m.2)) = 0 := by
    intro ms
    induction ms with
    | nil => rfl
    | cons m ms ih => simp [depthMembers, depth, ih]
  refine next_eq_value_iff.mpr ⟨?_, ?_⟩
  · match ms with
    | [] => exact ⟨1, by simp [value, stringify, ofStrings, skipSpace_cons, isSpace]⟩
    | (k, v) :: ms =>
      refine ⟨ms.length + 3, ?_⟩
      have hmembers := members_stringify ms k v (ms.length + 2) [] (Nat.le_refl _)
      rw [List.append_nil] at hmembers
      rw [value, stringify, skipSpace_cons _ (by decide)]
      simp only [stringifyString_head]
      split
      · next cs heq => cases heq
      · rw [hmembers]
        rfl
  · rw [ofStrings, depth, hdepth]
    decide

end Json
