import Synora.Lib.UrlForm

/- Paths of URLs and the multiplexer of Go's net/http. A path arrives escaped; the handlers
   see it unescaped as a whole, and the multiplexer compares it segment by segment, each
   unescaped for itself, once the path is clean. A path that matches a pattern without
   wildcards is, unescaped, the text of the pattern (`unescape_of_literal`), so that a
   handler and the multiplexer never take one request for two different ones. -/
namespace UrlPath

open UrlForm (isUnreserved percent)

/-! ## Escaping -/

/-- `url.PathUnescape`. -/
def unescape : List UInt8 → Option (List UInt8)
  | [] => some []
  | b :: rest =>
    if b = 0x25 then
      match rest with
      | high :: low :: rest =>
        match hexVal (Char.ofNat high.toNat), hexVal (Char.ofNat low.toNat) with
        | some x, some y => (unescape rest).map fun bs => UInt8.ofNat (16 * x.val + y.val) :: bs
        | _, _ => none
      | _ => none
    else (unescape rest).map fun bs => b :: bs

/-- What is written in a path as it is: the unreserved bytes and `$&+,/:;=@`. -/
def isKept (b : UInt8) : Bool :=
  isUnreserved b || decide (b ∈ [0x24, 0x26, 0x2B, 0x2C, 0x2F, 0x3A, 0x3B, 0x3D, 0x40])

def escape (bs : List UInt8) : List UInt8 := bs.flatMap fun b => if isKept b then [b] else percent b

/-- `validEncoded`: the bytes `!'()*[]%` are left alone too. -/
def validEncoded (raw : List UInt8) : Bool :=
  raw.all fun b => isKept b || decide (b ∈ [0x21, 0x27, 0x28, 0x29, 0x2A, 0x5B, 0x5D, 0x25])

/-- `URL.EscapedPath`, of a path that arrived as `raw` and is `path` unescaped. -/
def escapedPath (raw path : List UInt8) : List UInt8 := if validEncoded raw = true then raw else escape path

/-! ## Clean paths -/

/-- One element of a path after the others, which are listed from the last. -/
def cleanStep (kept : List (List UInt8)) (element : List UInt8) : List (List UInt8) :=
  if element = [] ∨ element = [0x2E] then kept
  else if element = [0x2E, 0x2E] then kept.tail
  else element :: kept

/-- `path.Clean` of a path that begins with a slash. -/
def clean (path : List UInt8) : List UInt8 :=
  0x2F :: [0x2F].intercalate ((path.splitOn 0x2F).foldl cleanStep []).reverse

/-- `cleanPath` of net/http: a slash at the end stays. -/
def cleanPath (path : List UInt8) : List UInt8 :=
  let rooted := if path.head? = some 0x2F then path else 0x2F :: path
  let np := clean rooted
  if rooted.getLast? = some 0x2F ∧ np ≠ [0x2F] then np ++ [0x2F] else np

/-! ## The multiplexer -/

/-- A pattern without wildcards; with `subtree` it ends in a slash, and takes what follows it. -/
structure Pattern (α : Type) where
  segments : List (List UInt8)
  subtree : Bool
  handler : α

/-- `parsePattern`, of a pattern without a method, a host and wildcards. -/
def parsePattern {α : Type} (text : String) (handler : α) : Pattern α :=
  let segments := (UrlForm.bytes text).tail.splitOn 0x2F
  if (UrlForm.bytes text).getLast? = some 0x2F then ⟨segments.dropLast, true, handler⟩
  else ⟨segments, false, handler⟩

/-- `firstSegment`: a segment, and the path from the next slash on; a last slash is a segment. -/
def firstSegment (path : List UInt8) : List UInt8 × List UInt8 :=
  if path = [0x2F] then ([0x2F], [])
  else
    let segment := path.tail.takeWhile (· ≠ 0x2F)
    ((unescape segment).getD segment, path.tail.dropWhile (· ≠ 0x2F))

/-- The path after the segments, if it begins with them. -/
def afterSegments : List (List UInt8) → List UInt8 → Option (List UInt8)
  | [], path => some path
  | s :: segments, path =>
    if path = [] then none
    else if (firstSegment path).1 = s then afterSegments segments (firstSegment path).2
    else none

section
variable {α : Type}

def Pattern.matches (p : Pattern α) (path : List UInt8) : Bool :=
  match afterSegments p.segments path with
  | some rest => decide (rest = []) != p.subtree
  | none => false

/-- `exactMatch`, of a pattern that matches. -/
def Pattern.exact (p : Pattern α) (path : List UInt8) : Bool :=
  !p.subtree || (decide (path.getLast? = some 0x2F) && decide (p.segments.length + 1 = path.count 0x2F))

inductive Dispatch (α : Type) where
  | badRequest
  | redirect
  | notFound
  | handled (a : α)
  deriving DecidableEq

/-- `ServeMux`, on the escaped path: at most one of its patterns matches a path, or the first that
does is the most specific. -/
def serveMux (patterns : List (Pattern α)) (method : String) (escaped : List UInt8) : Dispatch α :=
  if escaped = [0x2A] then .badRequest
  else
    let path := if method = "CONNECT" then escaped else cleanPath escaped
    let found := patterns.find? fun p => p.matches path
    if found.any (fun p => p.exact path) = false ∧ path.getLast? ≠ some 0x2F ∧
        (patterns.find? fun p => p.matches (path ++ [0x2F])).any (fun p => p.exact (path ++ [0x2F])) = true then
      .redirect
    else if path ≠ escaped then .redirect
    else
      match found with
      | some p => .handled p.handler
      | none => .notFound

end

/-! ## What a literal pattern matches -/

theorem unescape_cons {b : UInt8} (hpercent : b ≠ 0x25) (rest : List UInt8) :
    unescape (b :: rest) = (unescape rest).map fun bs => b :: bs := by
  rw [unescape.eq_def]
  simp only [if_neg hpercent]

theorem unescape_percent (b : UInt8) (rest : List UInt8) :
    unescape (percent b ++ rest) = (unescape rest).map fun bs => b :: bs := by
  obtain ⟨x, y, hx, hy, hb⟩ := UrlForm.hexVal_digits b
  show unescape (0x25 :: UrlForm.upperHex (b.toNat / 16) :: UrlForm.upperHex (b.toNat % 16) :: rest) = _
  rw [unescape, if_pos rfl]
  simp only [hx, hy, hb]

theorem unescape_escape (bs : List UInt8) : unescape (escape bs) = some bs := by
  induction bs with
  | nil => rfl
  | cons b bs ih =>
    show unescape ((if isKept b then [b] else percent b) ++ escape bs) = _
    split
    · next hkept =>
      have hpercent : b ≠ 0x25 := by
        rintro rfl
        revert hkept
        decide
      rw [List.singleton_append, unescape_cons hpercent, ih]
      rfl
    · rw [unescape_percent, ih]
      rfl

/-- Both forms of a path are one path. -/
theorem unescape_escapedPath {raw path : List UInt8} (h : unescape raw = some path) :
    unescape (escapedPath raw path) = some path := by
  unfold escapedPath
  split
  · exact h
  · exact unescape_escape path

/-- A slash ends what a percent sign begins, so that the parts before and after it are unescaped
each for itself. -/
theorem unescape_append_slash (segment rest : List UInt8) :
    unescape (segment ++ 0x2F :: rest) =
      (unescape segment).bind fun bs => (unescape rest).map fun cs => bs ++ 0x2F :: cs := by
  have hslash : hexVal (Char.ofNat 47) = none := by decide
  induction hn : segment.length using Nat.strongRecOn generalizing segment with
  | _ n ih =>
    subst hn
    match segment with
    | [] =>
      rw [List.nil_append, unescape_cons (by decide)]
      cases unescape rest <;> rfl
    | b :: tail =>
      by_cases hb : b = 0x25
      · subst hb
        -- two digits follow, or both sides are none
        match tail with
        | [] => cases rest <;> simp [unescape, hslash]
        | [high] => cases hhigh : hexVal (Char.ofNat high.toNat) <;> simp [unescape, hslash, hhigh]
        | high :: low :: tail =>
          have htail := ih tail.length (by simp; omega) tail rfl
          simp only [List.cons_append, unescape, if_true, htail]
          cases hexVal (Char.ofNat high.toNat) <;> cases hexVal (Char.ofNat low.toNat) <;>
            cases unescape tail <;> cases unescape rest <;> rfl
      · have htail := ih tail.length (by simp) tail rfl
        rw [List.cons_append, unescape_cons hb, unescape_cons hb, htail]
        cases unescape tail <;> cases unescape rest <;> rfl

/-- A path is empty or begins with a slash. -/
def IsRooted (path : List UInt8) : Prop := path = [] ∨ path.head? = some 0x2F

theorem rooted_dropWhile (bs : List UInt8) : IsRooted (bs.dropWhile (· ≠ 0x2F)) := by
  cases h : bs.dropWhile (· ≠ 0x2F) with
  | nil => exact .inl rfl
  | cons b rest =>
    have hb := List.head?_dropWhile_not (· ≠ 0x2F) bs
    rw [h] at hb
    exact .inr (by simpa using hb)

/-- A segment that a path begins with is also what the unescaped path begins with. -/
theorem unescape_firstSegment {path p : List UInt8} (hrooted : path.head? = some 0x2F)
    (hslash : path ≠ [0x2F]) (hp : unescape path = some p) :
    ∃ q, unescape (firstSegment path).2 = some q ∧ p = 0x2F :: (firstSegment path).1 ++ q ∧
      IsRooted (firstSegment path).2 := by
  obtain ⟨tail, rfl⟩ : ∃ tail, path = 0x2F :: tail := by
    cases path with
    | nil => cases hrooted
    | cons b tail => exact ⟨tail, by rw [Option.some.inj hrooted]⟩
  rw [unescape_cons (by decide)] at hp
  obtain ⟨p', hp', rfl⟩ := Option.map_eq_some_iff.mp hp
  unfold firstSegment
  rw [if_neg hslash, List.tail_cons]
  have hsplit := List.takeWhile_append_dropWhile (p := (· ≠ 0x2F)) (l := tail)
  rcases rooted_dropWhile tail with hend | hnext
  · rw [hend, List.append_nil] at hsplit
    refine ⟨[], by rw [hend]; rfl, ?_, by rw [hend]; exact .inl rfl⟩
    simp only [hsplit, hp', Option.getD_some, List.append_nil]
  · obtain ⟨rest, hrest⟩ : ∃ rest, tail.dropWhile (· ≠ 0x2F) = 0x2F :: rest := by
      cases h : tail.dropWhile (· ≠ 0x2F) with
      | nil =>
        rw [h] at hnext
        cases hnext
      | cons b rest =>
        rw [h] at hnext
        exact ⟨rest, by rw [Option.some.inj hnext]⟩
    rw [hrest] at hsplit ⊢
    rw [← hsplit, unescape_append_slash] at hp'
    obtain ⟨s, hs, hmap⟩ := Option.bind_eq_some_iff.mp hp'
    obtain ⟨r, hr, rfl⟩ := Option.map_eq_some_iff.mp hmap
    refine ⟨0x2F :: r, ?_, ?_, .inr rfl⟩
    · rw [unescape_cons (by decide), hr]
      rfl
    · simp only [hs, Option.getD_some, List.cons_append]

/-- … and so for several. -/
theorem unescape_afterSegments {segments : List (List UInt8)} (hsegments : ∀ s ∈ segments, s ≠ [0x2F])
    {path rest p : List UInt8} (hrooted : IsRooted path) (hp : unescape path = some p)
    (h : afterSegments segments path = some rest) :
    ∃ q, unescape rest = some q ∧ p = segments.flatMap (fun s => 0x2F :: s) ++ q := by
  induction segments generalizing path p with
  | nil =>
    rw [afterSegments, Option.some.injEq] at h
    exact ⟨p, h ▸ hp, rfl⟩
  | cons s segments ih =>
    rw [afterSegments] at h
    split at h
    · cases h
    next hne =>
      split at h
      next hfirst =>
        have hslash : path ≠ [0x2F] := by
          rintro rfl
          exact hsegments s List.mem_cons_self hfirst.symm
        obtain ⟨q, hq, hsplit, hrest⟩ := unescape_firstSegment (hrooted.resolve_left hne) hslash hp
        obtain ⟨q', hq', hmore⟩ := ih (fun t ht => hsegments t (List.mem_cons_of_mem _ ht)) hrest hq h
        refine ⟨q', hq', ?_⟩
        rw [hsplit, hmore, hfirst, List.flatMap_cons, List.append_assoc]
      next => cases h

/-- **A path that a literal pattern matches is the text of the pattern**, once it is unescaped. -/
theorem unescape_of_literal {α : Type} {pattern : Pattern α} (hliteral : pattern.subtree = false)
    (hsegments : ∀ s ∈ pattern.segments, s ≠ [0x2F]) {path p : List UInt8} (hrooted : IsRooted path)
    (hp : unescape path = some p) (h : pattern.matches path = true) :
    p = pattern.segments.flatMap fun s => 0x2F :: s := by
  unfold Pattern.matches at h
  split at h
  · next rest hrest =>
    obtain ⟨q, hq, hsplit⟩ := unescape_afterSegments hsegments hrooted hp hrest
    have hend : rest = [] := by simpa [hliteral] using h
    rw [hend] at hq
    cases hq
    rw [hsplit, List.append_nil]
  · cases h

theorem cleanPath_rooted (path : List UInt8) : IsRooted (cleanPath path) := by
  right
  simp only [cleanPath]
  generalize (if path.head? = some 0x2F then path else 0x2F :: path) = rooted
  split <;> rfl

/-- What is handled was clean, and matched the pattern. -/
theorem serveMux_handled {α : Type} {patterns : List (Pattern α)} {method : String} {escaped : List UInt8} {a : α}
    (hmethod : method ≠ "CONNECT") (h : serveMux patterns method escaped = .handled a) :
    IsRooted escaped ∧ ∃ p ∈ patterns, p.matches escaped = true ∧ p.handler = a := by
  simp only [serveMux, if_neg hmethod] at h
  split at h
  · cases h
  · split at h
    · cases h
    · split at h
      · cases h
      · next hclean =>
        have hpath : cleanPath escaped = escaped := Classical.not_not.mp hclean
        rw [hpath] at h
        refine ⟨hpath ▸ cleanPath_rooted escaped, ?_⟩
        split at h
        · next p hfind =>
          cases h
          have hmatches := List.find?_some hfind
          exact ⟨p, List.mem_of_find?_eq_some hfind, hmatches, rfl⟩
        · cases h

end UrlPath
