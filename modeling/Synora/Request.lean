import Synora.Auth
import Synora.Lib.JsonDecoder
import Synora.Lib.Utf8

/- How a request body is read: `decode` (handlers.go), and what `App.bid` makes of
   a body. `decode` reads a value into the target and then tries a second one, into
   an empty struct: only if that succeeds does it complain. An empty object or null
   succeeds; any other second value, and what is no value, makes the second `Decode`
   fail, and with that `decode` succeed.

   Correspondence (Go ↔ Lean):
     `io.LimitReader(r.Body, 1<<20)`               ↔ `bodyLimit`
     `d.DisallowUnknownFields()`, `d.Decode(v)`    ↔ `Json.decodeNext`, `StructFields.decodeStrict`
     `d.Decode(&struct{}{})`                       ↔ `decodeNext` with no fields
     `var in struct{ AuctionID, Amount string }`   ↔ `BidInput`, `bidFields` -/
namespace Synora

open StructFields

def bodyLimit : Nat := 2 ^ 20

/-- `decode`, into a struct that holds `s`; `none` is an error. -/
def decode {σ : Type} (fs : List (JsonField σ)) (s : σ) (body : List UInt8) : Option σ :=
  match Json.decodeNext (decodeStrict fs s) (Utf8.runes (body.take bodyLimit)) with
  | .error _ => none
  | .ok (t, rest) =>
    match Json.decodeNext (decodeStrict [] ()) rest with
    | .ok _ => none
    | .error _ => some t

/-- The body is one JSON value, white space aside, that fits the target. -/
def SingleValue {σ : Type} (fs : List (JsonField σ)) (s : σ) (body : List UInt8) : Prop :=
  ∃ v t, Json.IsText (Utf8.runes body) v ∧ Json.depth v ≤ Json.maxNestingDepth ∧
    decodeStrict fs s v = some t

/-- What follows a first value that fits the target is white space, or begins with null or an
empty object. -/
def NothingHidden {σ : Type} (fs : List (JsonField σ)) (s : σ) (body : List UInt8) : Prop :=
  ∀ v t rest, Json.next (Utf8.runes body) = .value v rest → decodeStrict fs s v = some t →
    Json.skipSpace rest = [] ∨ ∃ w rest', Json.next rest = .value w rest' ∧ (w = .null ∨ w = .obj [])

section
variable {σ : Type} {fs : List (JsonField σ)} {s : σ} {body : List UInt8}

/-- When `decode` succeeds: a first value fits, and no second one fits the empty struct. -/
theorem decode_eq_some_iff (hlen : body.length ≤ bodyLimit) {t : σ} : decode fs s body = some t ↔
    ∃ v rest, Json.next (Utf8.runes body) = .value v rest ∧ decodeStrict fs s v = some t ∧
      ∀ w rest', Json.next rest = .value w rest' → w ≠ .null ∧ w ≠ .obj [] := by
  have hempty : ∀ rest w, decodeStrict [] () w = some rest ↔ (w = .null ∨ w = .obj []) := by
    intro rest w
    rw [decodeStrict_nil]
    exact and_iff_right rfl
  unfold decode
  rw [List.take_of_length_le hlen]
  constructor
  · intro h
    split at h
    · cases h
    · next t' rest hfirst =>
      obtain ⟨v, hnext, hv⟩ := Json.decodeNext_eq_ok_iff.mp hfirst
      split at h
      · cases h
      · next e hsecond =>
        cases h
        refine ⟨v, rest, hnext, hv, fun w rest' hw => ?_⟩
        by_contra hfits
        have hok : Json.decodeNext (decodeStrict [] ()) rest = .ok ((), rest') :=
          Json.decodeNext_eq_ok_iff.mpr ⟨w, hw, (hempty () w).mpr (by tauto)⟩
        rw [hsecond] at hok
        cases hok
  · rintro ⟨v, rest, hnext, hv, hsecond⟩
    rw [Json.decodeNext_eq_ok_iff.mpr ⟨v, hnext, hv⟩]
    simp only
    split
    · next r hr =>
      obtain ⟨w, hw, hfits⟩ := Json.decodeNext_eq_ok_iff.mp hr
      obtain ⟨hnull, hobj⟩ := hsecond w _ hw
      rcases (hempty _ w).mp hfits with h | h
      · exact absurd h hnull
      · exact absurd h hobj
    · rfl

theorem singleValue_iff_next : SingleValue fs s body ↔ ∃ v rest t,
    Json.next (Utf8.runes body) = .value v rest ∧ Json.skipSpace rest = [] ∧
      decodeStrict fs s v = some t := by
  constructor
  · rintro ⟨v, t, htext, hdepth, ht⟩
    obtain ⟨rest, hnext, hblank⟩ := Json.isText_iff_next.mp ⟨htext, hdepth⟩
    exact ⟨v, rest, t, hnext, hblank, ht⟩
  · rintro ⟨v, rest, t, hnext, hblank, ht⟩
    obtain ⟨htext, hdepth⟩ := Json.isText_iff_next.mpr ⟨rest, hnext, hblank⟩
    exact ⟨v, t, htext, hdepth, ht⟩

/-- **`decode` accepts exactly one value, exactly when** nothing is hidden behind the first:
for every target and every body within the limit. -/
theorem decode_single_iff (hlen : body.length ≤ bodyLimit) :
    ((decode fs s body).isSome = true ↔ SingleValue fs s body) ↔ NothingHidden fs s body := by
  have hsome : (decode fs s body).isSome = true ↔ ∃ t, decode fs s body = some t :=
    Option.isSome_iff_exists
  rw [hsome, singleValue_iff_next]
  constructor
  · intro h v t rest hnext ht
    by_contra hhidden
    -- then `decode` succeeds, so the body is one value after all
    obtain ⟨v', rest', t', hnext', hblank, -⟩ := h.mp ⟨t, (decode_eq_some_iff hlen).mpr
      ⟨v, rest, hnext, ht, fun w rest' hw => by
        constructor <;> exact fun hfits => hhidden (.inr ⟨w, rest', hw, by tauto⟩)⟩⟩
    rw [hnext] at hnext'
    cases hnext'
    exact hhidden (.inl hblank)
  · intro hnone
    constructor
    · rintro ⟨t, ht⟩
      obtain ⟨v, rest, hnext, hv, hsecond⟩ := (decode_eq_some_iff hlen).mp ht
      rcases hnone v t rest hnext hv with hblank | ⟨w, rest', hw, hfits⟩
      · exact ⟨v, rest, t, hnext, hblank, hv⟩
      · obtain ⟨hnull, hobj⟩ := hsecond w rest' hw
        tauto
    · rintro ⟨v, rest, t, hnext, hblank, hv⟩
      refine ⟨t, (decode_eq_some_iff hlen).mpr ⟨v, rest, hnext, hv, fun w rest' hw => ?_⟩⟩
      have hread : Json.decodeNext some rest = .ok (w, rest') :=
        Json.decodeNext_eq_ok_iff.mpr ⟨w, hw, rfl⟩
      rw [Json.decodeNext_blank some hblank] at hread
      cases hread

end

/-! ## The body of a bid -/

/-- The struct `App.bid` decodes into; its fields have no tags. -/
structure BidInput where
  auctionID : String
  amount : String
  deriving DecidableEq

def bidFields : List (JsonField BidInput) := [
  { name := "AuctionID", path := [0], tagged := false, omitted := fun _ => false
    get := fun i => .str i.auctionID, set := setField readString fun v i => { i with auctionID := v } },
  { name := "Amount", path := [1], tagged := false, omitted := fun _ => false
    get := fun i => .str i.amount, set := setField readString fun v i => { i with amount := v } }]

def BidInput.empty : BidInput := ⟨"", ""⟩

/-- Of the two names a body may use for the id, the one without the underscore is a field. -/
theorem lookup_bidFields : lookup bidFields "auction_id" = none ∧
    ((lookup bidFields "auctionid").map fun f => f.name) = some "AuctionID" := by
  decide +kernel

/-! ## A body with something behind the value -/

/-- An empty object and a number. -/
def twoValues : List UInt8 := Base64Url.utf8 "\x7b\x7d 1".toList

theorem decode_single_iff_twoValues :
    ((decode bidFields .empty twoValues).isSome = true ↔ SingleValue bidFields .empty twoValues) ↔
      NothingHidden bidFields .empty twoValues :=
  decode_single_iff (by decide)

/-- The second value does not fit the empty struct, so `decode` does not see it. -/
theorem decode_single_fails : ¬ ∀ (σ : Type) (fs : List (JsonField σ)) (s : σ) (body : List UInt8),
    body.length ≤ bodyLimit → ((decode fs s body).isSome = true ↔ SingleValue fs s body) := by
  intro h
  have hsingle := (h BidInput bidFields .empty twoValues (by decide)).mp (by decide +kernel)
  obtain ⟨v, rest, t, hnext, hblank, -⟩ := singleValue_iff_next.mp hsingle
  have hfirst : Json.next (Utf8.runes twoValues) = .value (.obj []) [' ', '1'] := by
    rw [twoValues, Utf8.runes_utf8]
    rfl
  rw [hfirst] at hnext
  cases hnext
  revert hblank
  decide

end Synora
