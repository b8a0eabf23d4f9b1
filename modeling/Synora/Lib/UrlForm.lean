import Synora.Lib.UrlQuery

/- What Go writes into a URL or a form, so that `UrlQuery` reads it back: `escape` keeps
   some bytes and writes a percent sign and two digits for the others, and `encode` writes
   the values of a form in the order of their keys. Whatever the keys and values are, what
   is read are these values and no others (`parse_encode`): no value can end its parameter
   and begin another. -/
namespace UrlForm

open UrlQuery

def upperHex (d : Nat) : UInt8 := ("0123456789ABCDEF".toList.map fun c => UInt8.ofNat c.toNat).getD d 0

/-- A percent sign and the two digits of a byte. -/
def percent (b : UInt8) : List UInt8 := [0x25, upperHex (b.toNat / 16), upperHex (b.toNat % 16)]

def isLetterOrDigit (b : UInt8) : Bool :=
  decide (0x61 ≤ b ∧ b ≤ 0x7A ∨ 0x41 ≤ b ∧ b ≤ 0x5A ∨ 0x30 ≤ b ∧ b ≤ 0x39)

/-- The unreserved bytes: letters, digits and four marks. -/
def isUnreserved (b : UInt8) : Bool := isLetterOrDigit b || decide (b ∈ [0x2D, 0x5F, 0x2E, 0x7E])

/-- `url.QueryEscape`: a blank is a plus. -/
def queryByte (b : UInt8) : List UInt8 := if b = 0x20 then [0x2B] else if isUnreserved b then [b] else percent b

def queryEscape (bs : List UInt8) : List UInt8 := bs.flatMap queryByte

def bytes (s : String) : List UInt8 := Base64Url.utf8 s.toList

/-- One parameter. -/
def writePair (p : String × String) : List UInt8 := queryEscape (bytes p.1) ++ 0x3D :: queryEscape (bytes p.2)

/-- The parameters of `url.Values`, in the order of their keys. -/
def pairs (values : List (String × List String)) : List (String × String) :=
  (values.mergeSort fun a b => decide (a.1 ≤ b.1)).flatMap fun kv => kv.2.map fun v => (kv.1, v)

/-- `Values.Encode`. -/
def encode (values : List (String × List String)) : List UInt8 :=
  [0x26].intercalate ((pairs values).map writePair)

/-! ## What is read back -/

theorem hexVal_upperHex : ∀ d : Fin 16, hexVal (Char.ofNat (upperHex d.val).toNat) = some d := by decide

/-- The digits of a byte are read as the byte. -/
theorem hexVal_digits (b : UInt8) : ∃ x y : Fin 16, hexVal (Char.ofNat (upperHex (b.toNat / 16)).toNat) = some x ∧
    hexVal (Char.ofNat (upperHex (b.toNat % 16)).toNat) = some y ∧ UInt8.ofNat (16 * x.val + y.val) = b := by
  have hhigh : b.toNat / 16 < 16 := by have := b.toNat_lt; omega
  have hlow : b.toNat % 16 < 16 := by omega
  refine ⟨⟨_, hhigh⟩, ⟨_, hlow⟩, hexVal_upperHex ⟨_, hhigh⟩, hexVal_upperHex ⟨_, hlow⟩, ?_⟩
  show UInt8.ofNat (16 * (b.toNat / 16) + b.toNat % 16) = b
  rw [Nat.div_add_mod, UInt8.ofNat_toNat]

theorem unescape_percent (b : UInt8) (rest : List UInt8) :
    unescape (percent b ++ rest) = (unescape rest).map fun bs => b :: bs := by
  obtain ⟨x, y, hx, hy, hb⟩ := hexVal_digits b
  show unescape (0x25 :: upperHex (b.toNat / 16) :: upperHex (b.toNat % 16) :: rest) = _
  rw [unescape, if_pos rfl]
  simp only [hx, hy, hb]

theorem unescape_plain {b : UInt8} (hpercent : b ≠ 0x25) (hplus : b ≠ 0x2B) (rest : List UInt8) :
    unescape (b :: rest) = (unescape rest).map fun bs => b :: bs := by
  rw [unescape.eq_def]
  simp only [if_neg hpercent, if_neg hplus]

theorem unescape_queryByte (b : UInt8) (rest : List UInt8) :
    unescape (queryByte b ++ rest) = (unescape rest).map fun bs => b :: bs := by
  unfold queryByte
  split
  · next hblank =>
    subst hblank
    rw [List.singleton_append, unescape.eq_def]
    rfl
  · split
    · next hkept =>
      apply unescape_plain
      · rintro rfl
        revert hkept
        decide
      · rintro rfl
        revert hkept
        decide
    · exact unescape_percent b rest

theorem unescape_queryEscape (bs : List UInt8) : unescape (queryEscape bs) = some bs := by
  induction bs with
  | nil => rfl
  | cons b bs ih =>
    show unescape (queryByte b ++ queryEscape bs) = _
    rw [unescape_queryByte, ih]
    rfl

/-- The bytes that keep parameters apart. -/
def separators : List UInt8 := [0x26, 0x3B, 0x3D]

theorem upperHex_not_separator : ∀ d : Fin 16, upperHex d.val ∉ separators := by decide

theorem queryByte_not_separator {b c : UInt8} (hc : c ∈ queryByte b) : c ∉ separators := by
  unfold queryByte at hc
  split at hc
  · rw [List.mem_singleton.mp hc]
    decide
  · split at hc
    · next hkept =>
      rw [List.mem_singleton.mp hc]
      intro hmem
      have hall : separators.all (fun s => !isUnreserved s) = true := by decide
      have hnot := List.all_eq_true.mp hall b hmem
      rw [hkept] at hnot
      cases hnot
    · have hhigh : b.toNat / 16 < 16 := by have := b.toNat_lt; omega
      have hlow : b.toNat % 16 < 16 := by omega
      simp only [percent, List.mem_cons, List.not_mem_nil, or_false] at hc
      rcases hc with rfl | rfl | rfl
      · decide
      · exact upperHex_not_separator ⟨_, hhigh⟩
      · exact upperHex_not_separator ⟨_, hlow⟩

theorem queryEscape_not_separator {bs : List UInt8} {c : UInt8} (hc : c ∈ queryEscape bs) : c ∉ separators := by
  obtain ⟨b, -, hb⟩ := List.mem_flatMap.mp hc
  exact queryByte_not_separator hb

theorem text_bytes (s : String) : text (bytes s) = s := by
  rw [text, bytes, Utf8.runes_utf8, String.ofList_toList]

/-- What is written of a parameter is one piece of the query, read as the parameter. -/
theorem pair_writePair (p : String × String) : pair (writePair p) = some p := by
  have hkey : ∀ c ∈ queryEscape (bytes p.1), c ∉ separators := fun c hc => queryEscape_not_separator hc
  have hvalue : ∀ c ∈ queryEscape (bytes p.2), c ∉ separators := fun c hc => queryEscape_not_separator hc
  have hplain : ∀ b ∈ queryEscape (bytes p.1), decide (b ≠ 0x3D) = true := by
    intro b hb
    rw [decide_eq_true_eq]
    rintro rfl
    exact hkey _ hb (by decide)
  have htake : (writePair p).takeWhile (· ≠ 0x3D) = queryEscape (bytes p.1) := by
    rw [writePair, List.takeWhile_append_of_pos hplain, List.takeWhile_cons_of_neg (by simp), List.append_nil]
  have hdrop : ((writePair p).dropWhile (· ≠ 0x3D)).drop 1 = queryEscape (bytes p.2) := by
    rw [writePair, List.dropWhile_append_of_pos hplain, List.dropWhile_cons_of_neg (by simp)]
    rfl
  have hwhole : ¬ (0x3B ∈ writePair p ∨ writePair p = []) := by
    simp only [writePair, List.mem_append, List.mem_cons, List.append_eq_nil_iff, reduceCtorEq, and_false, or_false]
    rintro (hmem | hmem | hmem)
    · exact hkey _ hmem (by decide)
    · revert hmem
      decide
    · exact hvalue _ hmem (by decide)
  unfold pair
  rw [if_neg hwhole, htake, hdrop, unescape_queryEscape, unescape_queryEscape]
  simp only [text_bytes]

theorem writePair_no_ampersand (p : String × String) : 0x26 ∉ writePair p := by
  simp only [writePair, List.mem_append, List.mem_cons]
  rintro (hmem | hmem | hmem)
  · exact queryEscape_not_separator hmem (by decide)
  · revert hmem
    decide
  · exact queryEscape_not_separator hmem (by decide)

theorem parse_pairs (ps : List (String × String)) : parse ([0x26].intercalate (ps.map writePair)) = ps := by
  cases ps with
  | nil => rfl
  | cons p ps =>
    have hpieces : ([0x26].intercalate ((p :: ps).map writePair)).splitOn 0x26 = (p :: ps).map writePair := by
      apply List.splitOn_intercalate
      · intro piece hpiece
        obtain ⟨q, -, rfl⟩ := List.mem_map.mp hpiece
        exact writePair_no_ampersand q
      · simp
    rw [parse, hpieces, List.filterMap_map]
    have hread : pair ∘ writePair = some := funext pair_writePair
    rw [hread, List.filterMap_some]

/-- **What is read of a form is what was written**, in the order of the keys. -/
theorem parse_encode (values : List (String × List String)) : parse (encode values) = pairs values :=
  parse_pairs (pairs values)

end UrlForm
