import Synora.Lib.StructFields

/- `json.Decoder` of Go: values read one after the other from a text, each decoded
   into a struct with unknown fields disallowed. `Decode` returns `io.EOF` where only
   white space is left, and another error for what is no value, lies too deep or
   does not fit.

   The grammar is that of `Json.value`, with any fuel; the fuel a text is given by its
   length is enough (`value_of_fuel`). -/

namespace Json

/-! ## Fuel -/

theorem length_skipSpace (cs : List Char) : (skipSpace cs).length ≤ cs.length :=
  (List.dropWhile_suffix isSpace).length_le

/-- What is left of a text that begins so once the white space is skipped. -/
theorem length_of_skipSpace {c : Char} {cs ds : List Char} (h : skipSpace cs = c :: ds) :
    ds.length < cs.length := by
  have := length_skipSpace cs
  rw [h, List.length_cons] at this
  omega

theorem stringBody_length {cs : List Char} {r : List Char × List Char} (h : stringBody cs = some r) :
    r.2.length < cs.length := by
  fun_induction stringBody cs generalizing r with
  | case1 => cases h
  | case2 cs =>
    cases h
    exact Nat.lt_succ_self _
  | case3 | case6 | case10 | case11 => cases h
  | case4 | case5 | case7 | case8 | case9 | case12 =>
    rename_i ih
    obtain ⟨r', hr', rfl⟩ := Option.map_eq_some_iff.mp h
    have := ih hr'
    simp only [List.length_cons] at this ⊢
    omega

theorem number_length {cs : List Char} {r : Json × List Char} (h : number cs = some r) :
    r.2.length < cs.length := by
  unfold number at h
  split at h
  · rename_i hn
    cases h
    have hne : cs.takeWhile isNumberChar ≠ [] := by
      intro hnil
      rw [hnil] at hn
      cases hn
    have hsplit := congrArg List.length (List.takeWhile_append_dropWhile (p := isNumberChar) (l := cs))
    have hpos := List.length_pos_iff.mpr hne
    rw [List.length_append] at hsplit
    show (cs.dropWhile isNumberChar).length < cs.length
    omega
  · cases h

/-- What a value that was read is: a leaf, read with any fuel, or an array or an object, read
with one less. -/
theorem value_cases {n : Nat} {cs : List Char} {r : Json × List Char} (h : value (n + 1) cs = some r) :
    (r.2.length < cs.length ∧ ∀ m, value (m + 1) cs = some r) ∨
    (∃ ds e, skipSpace cs = '[' :: ds ∧ elems n (skipSpace ds) = some e ∧ r = (.arr e.1, e.2) ∧
      ∀ m, elems m (skipSpace ds) = some e → value (m + 1) cs = some r) ∨
    (∃ ds e, skipSpace cs = '\x7b' :: ds ∧ members n (skipSpace ds) = some e ∧ r = (.obj e.1, e.2) ∧
      ∀ m, members m (skipSpace ds) = some e → value (m + 1) cs = some r) := by
  rw [value] at h
  split at h
  case h_1 ds heq | h_2 ds heq | h_3 ds heq =>
    cases h
    have hlen := length_skipSpace cs
    rw [heq] at hlen
    simp only [List.length_cons] at hlen
    exact .inl ⟨by show ds.length < _; omega, fun m => by simp only [value, heq]⟩
  case h_4 ds heq =>
    obtain ⟨t, ht, rfl⟩ := Option.map_eq_some_iff.mp h
    have hlen := stringBody_length ht
    have hds := length_of_skipSpace heq
    refine .inl ⟨by show t.2.length < _; omega, fun m => ?_⟩
    rw [value, heq]
    exact h
  case h_5 ds heq =>
    split at h
    · next es hes =>
      cases h
      have hds := length_of_skipSpace heq
      have hlen := length_of_skipSpace hes
      refine .inl ⟨by show es.length < _; omega, fun m => ?_⟩
      rw [value, heq]
      simp only [hes]
    · next hne =>
      obtain ⟨e, he, rfl⟩ := Option.map_eq_some_iff.mp h
      refine .inr (.inl ⟨ds, e, heq, he, rfl, fun m hm => ?_⟩)
      rw [value, heq]
      simp only [hm]
      rfl
  case h_6 ds heq =>
    split at h
    · next es hes =>
      cases h
      have hds := length_of_skipSpace heq
      have hlen := length_of_skipSpace hes
      refine .inl ⟨by show es.length < _; omega, fun m => ?_⟩
      rw [value, heq]
      simp only [hes]
    · next hne =>
      obtain ⟨e, he, rfl⟩ := Option.map_eq_some_iff.mp h
      refine .inr (.inr ⟨ds, e, heq, he, rfl, fun m hm => ?_⟩)
      rw [value, heq]
      simp only [hm]
      rfl
  case h_7 hnull htrue hfalse hstr harr hobj =>
    have hlen := number_length h
    have hle := length_skipSpace cs
    refine .inl ⟨by omega, fun m => ?_⟩
    rw [value]
    split
    case h_7 => exact h
    case h_1 ds heq => exact absurd heq (hnull ds)
    case h_2 ds heq => exact absurd heq (htrue ds)
    case h_3 ds heq => exact absurd heq (hfalse ds)
    case h_4 ds heq => exact absurd heq (hstr ds)
    case h_5 ds heq => exact absurd heq (harr ds)
    case h_6 ds heq => exact absurd heq (hobj ds)

/-- A result is shorter than the text, and the same whatever the fuel beyond a bound. -/
def Settles {α : Type} (read : Nat → List Char → Option (α × List Char)) (bound : Nat)
    (cs : List Char) (r : α × List Char) : Prop :=
  r.2.length < cs.length ∧ ∀ m, bound ≤ m → read m cs = some r

theorem settles_value {n : Nat} (ihe : ∀ cs r, elems n cs = some r → Settles elems (2 * cs.length + 2) cs r)
    (ihm : ∀ cs r, members n cs = some r → Settles members (2 * cs.length + 2) cs r) {cs : List Char}
    {r : Json × List Char} (h : value (n + 1) cs = some r) : Settles value (2 * cs.length + 1) cs r := by
  rcases value_cases h with ⟨hlen, hall⟩ | ⟨ds, e, hs, he, rfl, hall⟩ | ⟨ds, e, hs, he, rfl, hall⟩
  · refine ⟨hlen, fun m hm => ?_⟩
    obtain ⟨m, rfl⟩ : ∃ k, m = k + 1 := ⟨m - 1, by omega⟩
    exact hall m
  · obtain ⟨hlen, hfuel⟩ := ihe _ _ he
    have hds := length_of_skipSpace hs
    have hle := length_skipSpace ds
    refine ⟨by show e.2.length < _; omega, fun m hm => ?_⟩
    obtain ⟨m, rfl⟩ : ∃ k, m = k + 1 := ⟨m - 1, by omega⟩
    exact hall m (hfuel m (by omega))
  · obtain ⟨hlen, hfuel⟩ := ihm _ _ he
    have hds := length_of_skipSpace hs
    have hle := length_skipSpace ds
    refine ⟨by show e.2.length < _; omega, fun m hm => ?_⟩
    obtain ⟨m, rfl⟩ : ∃ k, m = k + 1 := ⟨m - 1, by omega⟩
    exact hall m (hfuel m (by omega))

theorem settles_elems {n : Nat} (ihv : ∀ cs r, value n cs = some r → Settles value (2 * cs.length + 1) cs r)
    (ihe : ∀ cs r, elems n cs = some r → Settles elems (2 * cs.length + 2) cs r) {cs : List Char}
    {r : List Json × List Char} (h : elems (n + 1) cs = some r) : Settles elems (2 * cs.length + 2) cs r := by
  rw [elems] at h
  split at h
  · cases h
  next v ds hv =>
  obtain ⟨hlenv, hfuelv⟩ := ihv _ _ hv
  simp only at hlenv
  split at h
  · next es hs =>
    obtain ⟨e, he, rfl⟩ := Option.map_eq_some_iff.mp h
    obtain ⟨hlen, hfuel⟩ := ihe _ _ he
    have hes := length_of_skipSpace hs
    refine ⟨by show e.2.length < _; omega, fun m hm => ?_⟩
    obtain ⟨m, rfl⟩ : ∃ k, m = k + 1 := ⟨m - 1, by omega⟩
    simp only [elems, hfuelv m (by omega), hs, hfuel m (by omega), Option.map_some]
  · next es hs =>
    cases h
    have hes := length_of_skipSpace hs
    refine ⟨by show es.length < _; omega, fun m hm => ?_⟩
    obtain ⟨m, rfl⟩ : ∃ k, m = k + 1 := ⟨m - 1, by omega⟩
    simp only [elems, hfuelv m (by omega), hs]
  · cases h

theorem settles_members {n : Nat} (ihv : ∀ cs r, value n cs = some r → Settles value (2 * cs.length + 1) cs r)
    (ihm : ∀ cs r, members n cs = some r → Settles members (2 * cs.length + 2) cs r) {cs : List Char}
    {r : List (String × Json) × List Char} (h : members (n + 1) cs = some r) :
    Settles members (2 * cs.length + 2) cs r := by
  rw [members] at h
  split at h
  · next ds hs =>
    have hds := length_of_skipSpace hs
    split at h
    · cases h
    next k es hk =>
    have hlenk := stringBody_length hk
    simp only at hlenk
    split at h
    · next fs hf =>
      have hfs := length_of_skipSpace hf
      split at h
      · cases h
      next v gs hv =>
      obtain ⟨hlenv, hfuelv⟩ := ihv _ _ hv
      simp only at hlenv
      split at h
      · next hs' hhs =>
        obtain ⟨e, he, rfl⟩ := Option.map_eq_some_iff.mp h
        obtain ⟨hlen, hfuel⟩ := ihm _ _ he
        have hhs' := length_of_skipSpace hhs
        refine ⟨by show e.2.length < _; omega, fun m hm => ?_⟩
        obtain ⟨m, rfl⟩ : ∃ k, m = k + 1 := ⟨m - 1, by omega⟩
        simp only [members, hs, hk, hf, hfuelv m (by omega), hhs, hfuel m (by omega), Option.map_some]
      · next hs' hhs =>
        cases h
        have hhs' := length_of_skipSpace hhs
        refine ⟨by show hs'.length < _; omega, fun m hm => ?_⟩
        obtain ⟨m, rfl⟩ : ∃ k, m = k + 1 := ⟨m - 1, by omega⟩
        simp only [members, hs, hk, hf, hfuelv m (by omega), hhs]
      · cases h
    · cases h
  · cases h

/-- **Some fuel is enough fuel.** -/
theorem settles (n : Nat) :
    (∀ cs r, value n cs = some r → Settles value (2 * cs.length + 1) cs r) ∧
    (∀ cs r, elems n cs = some r → Settles elems (2 * cs.length + 2) cs r) ∧
    (∀ cs r, members n cs = some r → Settles members (2 * cs.length + 2) cs r) := by
  induction n with
  | zero =>
    refine ⟨?_, ?_, ?_⟩ <;> intro cs r h
    · simp [value] at h
    · simp [elems] at h
    · simp [members] at h
  | succ n ih =>
    obtain ⟨ihv, ihe, ihm⟩ := ih
    exact ⟨fun _ _ => settles_value ihe ihm, fun _ _ => settles_elems ihv ihe, fun _ _ => settles_members ihv ihm⟩

/-- A value that some fuel reads is read with the fuel for the length of the text. -/
theorem value_of_fuel {n : Nat} {cs : List Char} {r : Json × List Char} (h : value n cs = some r) :
    value (2 * cs.length + 2) cs = some r :=
  ((settles n).1 cs r h).2 _ (by omega)

/-- The text is one value with white space around it: fuel aside, what the grammar derives. -/
def IsText (cs : List Char) (v : Json) : Prop :=
  ∃ n rest, value n cs = some (v, rest) ∧ skipSpace rest = []

/-! ## The decoder -/

mutual

/-- How deep arrays and objects are nested. -/
def depth : Json → Nat
  | arr vs => depthElems vs + 1
  | obj ms => depthMembers ms + 1
  | _ => 0

def depthElems : List Json → Nat
  | [] => 0
  | v :: vs => max (depth v) (depthElems vs)

def depthMembers : List (String × Json) → Nat
  | [] => 0
  | (_, v) :: ms => max (depth v) (depthMembers ms)

end

def maxNestingDepth : Nat := 10000

/-- What stands next in a text. -/
inductive Next where
  | eof
  | malformed
  | value (v : Json) (rest : List Char)

/-- `readValue`. -/
def next (cs : List Char) : Next :=
  if skipSpace cs = [] then .eof
  else
    match value (2 * cs.length + 2) cs with
    | none => .malformed
    | some (v, rest) => if depth v ≤ maxNestingDepth then .value v rest else .malformed

inductive DecodeError where
  /-- `io.EOF`. -/
  | eof
  | malformed
  /-- A mismatch of types, or a field that is disallowed. -/
  | unmarshal
  deriving DecidableEq

/-- `Decode`, into a target that takes a value or refuses it. -/
def decodeNext {σ : Type} (target : Json → Option σ) (cs : List Char) :
    Except DecodeError (σ × List Char) :=
  match next cs with
  | .eof => .error .eof
  | .malformed => .error .malformed
  | .value v rest =>
    match target v with
    | none => .error .unmarshal
    | some s => .ok (s, rest)

theorem value_blank (n : Nat) {cs : List Char} (h : skipSpace cs = []) : value n cs = none := by
  cases n with
  | zero => rfl
  | succ n =>
    rw [value, h]
    exact dif_neg (by decide)

/-- **The next value** is the one the grammar derives there, if it lies not too deep. -/
theorem next_eq_value_iff {cs : List Char} {v : Json} {rest : List Char} :
    next cs = .value v rest ↔ (∃ n, value n cs = some (v, rest)) ∧ depth v ≤ maxNestingDepth := by
  constructor
  · intro h
    unfold next at h
    split at h
    · cases h
    · split at h
      · cases h
      · next w rest' hw =>
        split at h
        · next hd =>
          cases h
          exact ⟨⟨_, hw⟩, hd⟩
        · cases h
  · rintro ⟨⟨n, hv⟩, hd⟩
    have hne : skipSpace cs ≠ [] := by
      intro hblank
      rw [value_blank n hblank] at hv
      cases hv
    rw [next, if_neg hne, value_of_fuel hv]
    exact if_pos hd

/-- A text is one value when the next value leaves nothing but white space. -/
theorem isText_iff_next {cs : List Char} {v : Json} :
    IsText cs v ∧ depth v ≤ maxNestingDepth ↔ ∃ rest, next cs = .value v rest ∧ skipSpace rest = [] := by
  constructor
  · rintro ⟨⟨n, rest, hv, hblank⟩, hd⟩
    exact ⟨rest, next_eq_value_iff.mpr ⟨⟨n, hv⟩, hd⟩, hblank⟩
  · rintro ⟨rest, hnext, hblank⟩
    obtain ⟨⟨n, hv⟩, hd⟩ := next_eq_value_iff.mp hnext
    exact ⟨⟨n, rest, hv, hblank⟩, hd⟩

theorem decodeNext_eq_ok_iff {σ : Type} {target : Json → Option σ} {cs rest : List Char} {s : σ} :
    decodeNext target cs = .ok (s, rest) ↔ ∃ v, next cs = .value v rest ∧ target v = some s := by
  constructor
  · intro h
    unfold decodeNext at h
    split at h
    · cases h
    · cases h
    · next v rest' hnext =>
      split at h
      · cases h
      · next t ht =>
        cases h
        exact ⟨v, hnext, ht⟩
  · rintro ⟨v, hnext, htarget⟩
    simp only [decodeNext, hnext, htarget]

/-- Where only white space is left, `Decode` returns `io.EOF`. -/
theorem decodeNext_blank {σ : Type} (target : Json → Option σ) {cs : List Char} (h : skipSpace cs = []) :
    decodeNext target cs = .error .eof := by
  simp only [decodeNext, next, if_pos h]

end Json

/-! ## Unknown fields disallowed -/

namespace StructFields

section
variable {σ : Type}

/-- What one member sets; one that is no field is an error. -/
def setMemberStrict (fs : List (JsonField σ)) (s : σ) (m : String × Json) : Option σ :=
  match lookup fs m.1 with
  | some f => f.set m.2 s
  | none => none

/-- Unmarshalling with `DisallowUnknownFields`. -/
def decodeStrict (fs : List (JsonField σ)) (s : σ) (v : Json) : Option σ :=
  (members v).bind fun ms => ms.foldlM (setMemberStrict fs) s

/-- A struct without fields takes null and the empty object. -/
theorem decodeStrict_nil {s t : σ} {v : Json} :
    decodeStrict [] s v = some t ↔ s = t ∧ (v = .null ∨ v = .obj []) := by
  have hmember : ∀ m ms, List.foldlM (setMemberStrict []) s (m :: ms) = none := by
    intro m ms
    simp [List.foldlM_cons, setMemberStrict, lookup, visible]
  cases v with
  | obj ms =>
    cases ms with
    | nil => simp [decodeStrict, members]
    | cons m ms => simp only [decodeStrict, members, Option.bind_some, hmember]; simp
  | null => simp [decodeStrict, members]
  | _ => simp [decodeStrict, members]

/-- **A member that is no field makes it fail.** -/
theorem decodeStrict_unknown {fs : List (JsonField σ)} {s : σ} {ms : List (String × Json)}
    {m : String × Json} (hm : m ∈ ms) (hno : lookup fs m.1 = none) :
    decodeStrict fs s (.obj ms) = none := by
  show ms.foldlM (setMemberStrict fs) s = none
  induction ms generalizing s with
  | nil => cases hm
  | cons m' ms ih =>
    simp only [List.foldlM_cons, Option.bind_eq_bind, Option.bind_eq_none_iff]
    intro t ht
    rcases List.mem_cons.mp hm with rfl | hmem
    · rw [setMemberStrict, hno] at ht
      cases ht
    · exact ih hmem

end

end StructFields
