import Synora.Lib.Stringify
import Synora.Request

/- The bid request of the front end, `placeBid` (api.js), as the back end reads it.
   The body names the auction `auction_id`. The struct `App.bid` decodes into has the
   field `AuctionID` without a tag, which encoding/json matches in any case but not
   with an underscore: the member is unknown, and unknown fields are disallowed.

   Correspondence (JavaScript ↔ Lean):
     `Number(amount)`, of digits                            ↔ `jsNumber`
     `.toFixed(2)`, of a whole number                       ↔ `toFixed2`
     `JSON.stringify({ auction_id: …, amount: … })`         ↔ `placeBidBody`
   A whole number below 2^53 is one JavaScript number. -/
namespace Synora

open StructFields

/-- The number of a text of digits. -/
def jsNumber (digits : String) : Nat := Nat.ofDigitChars 10 digits.toList 0

/-- A whole number with two decimals. -/
def toFixed2 (n : Nat) : String := String.ofList (Nat.toDigits 10 n ++ ['.', '0', '0'])

/-- The members of a body that names the auction under a key. -/
def bidMembers (key auctionId amount : String) : List (String × String) :=
  [(key, auctionId), ("amount", toFixed2 (jsNumber amount))]

def bidBody (key auctionId amount : String) : List UInt8 :=
  Base64Url.utf8 (Json.stringify (bidMembers key auctionId amount))

/-- The body `placeBid` sends. -/
def placeBidBody (auctionId amount : String) : List UInt8 := bidBody "auction_id" auctionId amount

/-- The text is that of a price in cents. -/
theorem toFixed2_eq (n : Nat) : toFixed2 n = centsText (100 * n) := by
  have hwhole : 100 * n / 100 = n := by omega
  have htens : 100 * n / 10 % 10 = 0 := by omega
  have hones : 100 * n % 10 = 0 := by omega
  unfold toFixed2 centsText
  rw [hwhole, htens, hones]
  rfl

/-- What is sent for a number below 10^10 is an amount … -/
theorem amountPattern_toFixed2 {n : Nat} (h : n < 10 ^ 10) : amountPattern (toFixed2 n) = true := by
  rw [toFixed2_eq]
  exact amountPattern_centsText (by omega)

/-- … and denotes the number typed. -/
theorem amountCents_toFixed2 (n : Nat) : amountCents (toFixed2 n) = 100 * n := by
  rw [toFixed2_eq, amountCents_centsText]

/-! ## The length of a body -/

theorem length_utf8_le (cs : List Char) : (Base64Url.utf8 cs).length ≤ 4 * cs.length := by
  induction cs with
  | nil => exact Nat.le_refl _
  | cons c cs ih =>
    have hc := c.utf8Size_le_four
    unfold Base64Url.utf8 at ih ⊢
    rw [List.flatMap_cons, List.length_append, String.length_utf8EncodeChar, List.length_cons]
    omega

theorem length_stringifyString_le (s : String) : (Json.stringifyString s).length ≤ 6 * s.toList.length + 2 := by
  have hchar : ∀ c, (Json.stringifyChar c).length ≤ 6 := by
    intro c
    unfold Json.stringifyChar
    split
    · exact Nat.le_add_left 2 4
    · split
      · exact Nat.le_refl 6
      · exact Nat.le_add_left 1 5
  have hflat : ∀ cs : List Char, (cs.flatMap Json.stringifyChar).length ≤ 6 * cs.length := by
    intro cs
    induction cs with
    | nil => exact Nat.le_refl _
    | cons c cs ih =>
      have := hchar c
      rw [List.flatMap_cons, List.length_append, List.length_cons]
      omega
  have := hflat s.toList
  simp only [Json.stringifyString, List.length_cons, List.length_append, List.length_nil]
  omega

/-- The body of a bid is far below the limit. -/
theorem length_bidBody_le {key : String} (hkey : key.toList.length ≤ 10) (u : Uuid) {digits : String}
    (h : jsNumber digits < 10 ^ 10) : (bidBody key u.text digits).length ≤ bodyLimit := by
  have hid : u.text.toList.length = 36 := by
    rw [Uuid.text, String.toList_ofList, Uuid.chars_length]
  have hamount : (toFixed2 (jsNumber digits)).toList.length ≤ 13 := by
    have hdigits : (Nat.toDigits 10 (jsNumber digits)).length ≤ 10 :=
      (Nat.length_toDigits_le_iff (by decide) (by decide)).mpr h
    rw [toFixed2, String.toList_ofList, List.length_append]
    exact Nat.add_le_add_right hdigits 3
  have hname : "amount".toList.length = 6 := by decide
  have h₁ := length_stringifyString_le u.text
  have h₂ := length_stringifyString_le (toFixed2 (jsNumber digits))
  have h₃ := length_stringifyString_le key
  have h₄ := length_stringifyString_le "amount"
  have hbytes := length_utf8_le (Json.stringify (bidMembers key u.text digits))
  have hchars : (Json.stringify (bidMembers key u.text digits)).length ≤ 1000 := by
    simp only [Json.stringify, Json.stringifyMembers, bidMembers, List.length_cons,
      List.length_append, List.length_nil]
    omega
  unfold bidBody bodyLimit
  omega

/-! ## The decoder of the bid handler -/

/-- The body is accepted by the decoder of the bid handler, passes its two checks, and says
this auction and this many cents. -/
def ReadAs (body : List UInt8) (u : Uuid) (cents : Nat) : Prop :=
  ∃ input, decode bidFields .empty body = some input ∧
    Uuid.validate input.auctionID = true ∧ amountPattern input.amount = true ∧
    Uuid.input input.auctionID = some u ∧ amountCents input.amount = cents

/-- Under the name of the field, in whatever case, the same auction and amount are read. -/
theorem bidBody_readAs (u : Uuid) {digits : String} (h : jsNumber digits < 10 ^ 10) :
    ReadAs (bidBody "auctionid" u.text digits) u (100 * jsNumber digits) := by
  refine ⟨⟨u.text, toFixed2 (jsNumber digits)⟩, ?_, Uuid.validate_text u, amountPattern_toFixed2 h,
    Uuid.input_text u, amountCents_toFixed2 _⟩
  refine (decode_eq_some_iff (length_bidBody_le (by decide) u h)).mpr
    ⟨Json.ofStrings (bidMembers "auctionid" u.text digits), [], ?_, ?_, fun w rest' hw => ?_⟩
  · rw [bidBody, Utf8.runes_utf8, Json.next_stringify]
  · simp [Json.ofStrings, bidMembers, decodeStrict, members, setMemberStrict, lookup, visible,
      JsonField.visibleIn, bidFields, foldName, foldChar, setField, readString, BidInput.empty]
  · cases hw

/-- **No bid of the front end is decoded**, whatever the auction and the amount. -/
theorem bid_never_decodes (u : Uuid) {digits : String} (h : jsNumber digits < 10 ^ 10) :
    ¬ ReadAs (placeBidBody u.text digits) u (100 * jsNumber digits) := by
  rintro ⟨input, hdecode, -⟩
  obtain ⟨v, rest, hnext, hfits, -⟩ :=
    (decode_eq_some_iff (length_bidBody_le (by decide) u h)).mp hdecode
  rw [bidBody, Utf8.runes_utf8, Json.next_stringify] at hnext
  cases hnext
  have hunknown :
      decodeStrict bidFields .empty (Json.ofStrings (bidMembers "auction_id" u.text digits)) = none :=
    decodeStrict_unknown List.mem_cons_self lookup_bidFields.1
  rw [hunknown] at hfits
  cases hfits

theorem bid_never_decodes_lot :
    ¬ ReadAs (placeBidBody (Uuid.ofDigit 0).text "4296500") (.ofDigit 0) (100 * jsNumber "4296500") :=
  bid_never_decodes (.ofDigit 0) (by decide +kernel)

/-- The body for a bid of 4296500 on the lot. -/
example : placeBidBody (Uuid.ofDigit 0).text "4296500" = Base64Url.utf8
    ("\x7b\"auction_id\":\"00000000-0000-0000-0000-000000000000\",\"amount\":\"4296500.00\"\x7d").toList := by
  decide +kernel

/-- The law fails for the lot and the amount the page opens with. -/
theorem bid_decodes_fails : ¬ ∀ (u : Uuid) (digits : String), digits.toList.all Char.isDigit = true →
    0 < jsNumber digits → jsNumber digits < 10 ^ 10 →
    ReadAs (placeBidBody u.text digits) u (100 * jsNumber digits) := by
  intro h
  obtain ⟨input, hdecode, -⟩ := h (.ofDigit 0) "4296500" (by decide) (by decide +kernel) (by decide +kernel)
  have hnone : decode bidFields .empty (placeBidBody (Uuid.ofDigit 0).text "4296500") = none := by
    decide +kernel
  rw [hnone] at hdecode
  cases hdecode

end Synora
