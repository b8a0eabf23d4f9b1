import Synora.Lib.UrlQuery
import Synora.Listing

/- Which queries `App.listAuctions` accepts (handlers.go), over every raw query. The
   number of the limit and the form of the cursor are checked before the statement;
   the label of the status and the id of the cursor only by the server, whose error
   nobody asks for. So the answer is 400 for the invalid queries that fail the first
   kind of check and 200 for all others (`validates_iff`).

   Correspondence (Go ↔ Lean):
     `r.URL.Query().Get(name)`            ↔ `UrlQuery.get raw name`
     `App.listAuctions` on a raw query    ↔ `answerQuery`
   `ValidQuery` states the contract of the endpoint (rest-websocket-api-contract.md,
   "List auctions") and is not taken from the code. -/
namespace Synora

open UrlQuery

/-! ## The answer -/

/-- The parameters the handler takes from the URL. -/
def listRequest (raw : List UInt8) : ListRequest :=
  ⟨get raw "status", get raw "limit", get raw "cursor"⟩

def answerQuery (db : Db) (raw : List UInt8) : Except Answer (Keyset.Page AuctionJson String) :=
  listAuctions db (listRequest raw)

/-- What the handler checks: the number of the limit and the form of the cursor. -/
def Refused (r : ListRequest) : Prop :=
  (requestLimit r.limit < 1 ∨ requestLimit r.limit > 100) ∨ decodeCursor r.cursor = none

theorem listQuery_refused {r : ListRequest} (h : Refused r) :
    ∃ message, listQuery r = .error (.error 400 "VALIDATION_ERROR" message []) := by
  unfold listQuery
  split
  · exact ⟨"Invalid limit", rfl⟩
  · next hlimit =>
    rw [h.resolve_left hlimit]
    exact ⟨"Invalid cursor", rfl⟩

theorem listQuery_accepted {r : ListRequest} (h : ¬ Refused r) : ∃ q, listQuery r = .ok q := by
  unfold listQuery
  split
  · next hlimit => exact absurd (Or.inl hlimit) h
  · split
    · next hcursor => exact absurd (Or.inr hcursor) h
    · exact ⟨_, rfl⟩

/-- **The answer is 400 or 200 by these checks alone.** -/
theorem answerQuery_refused (db : Db) {raw : List UInt8} (h : Refused (listRequest raw)) :
    ∃ message, answerQuery db raw = .error (.error 400 "VALIDATION_ERROR" message []) := by
  obtain ⟨message, hq⟩ := listQuery_refused h
  refine ⟨message, ?_⟩
  unfold answerQuery listAuctions
  rw [hq]

theorem answerQuery_accepted (db : Db) {raw : List UInt8} (h : ¬ Refused (listRequest raw)) :
    ∃ page, answerQuery db raw = .ok page := by
  obtain ⟨q, hq⟩ := listQuery_accepted h
  unfold answerQuery listAuctions
  rw [hq]
  exact ⟨_, rfl⟩

/-! ## The contract -/

/-- The decimal of an integer in `1..100`. -/
def IsLimit (s : String) : Prop := ∃ n : Nat, 1 ≤ n ∧ n ≤ 100 ∧ s = toString n

/-- A text that decodes to an instant and a UUID. -/
def IsCursor (s : String) : Prop :=
  s ≠ "" ∧ ∃ start id u, decodeCursor s = some (start, id) ∧ Uuid.input id = some u

/-- Every parameter is absent or valid. -/
structure ValidQuery (raw : List UInt8) : Prop where
  status : ∀ s, value raw "status" = some s → AuctionStatus.input s ≠ none
  limit : ∀ s, value raw "limit" = some s → IsLimit s
  cursor : ∀ s, value raw "cursor" = some s → IsCursor s

/-- The answer is 200 for the valid queries and 400 VALIDATION_ERROR for the others. -/
def Validates (db : Db) (raw : List UInt8) : Prop :=
  ((∃ page, answerQuery db raw = .ok page) ↔ ValidQuery raw) ∧
    (¬ ValidQuery raw → ∃ message, answerQuery db raw = .error (.error 400 "VALIDATION_ERROR" message []))

/-! ## What slips through -/

/-- A status that is no label. -/
def StatusSlips (raw : List UInt8) : Prop :=
  ∃ s, value raw "status" = some s ∧ AuctionStatus.input s = none

/-- A limit that is no decimal of `1..100`, but has such a number or the number 0. -/
def LimitSlips (raw : List UInt8) : Prop :=
  ∃ s, value raw "limit" = some s ∧ ¬ IsLimit s ∧ (atoi s = 0 ∨ 1 ≤ atoi s ∧ atoi s ≤ 100)

/-- An empty cursor, or one with an id that is no UUID. -/
def CursorSlips (raw : List UInt8) : Prop :=
  ∃ s, value raw "cursor" = some s ∧
    (s = "" ∨ ∃ start id, decodeCursor s = some (start, id) ∧ Uuid.input id = none)

theorem atoi_toString {n : Nat} (h : n < 2^63) : atoi (toString n) = n := by
  have hdigits : ∀ c ∈ Nat.toDigits 10 n, c.isDigit = true := fun c hc =>
    Nat.isDigit_of_mem_toDigits (by decide) (by decide) hc
  have hne : Nat.toDigits 10 n ≠ [] := Nat.toDigits_ne_nil
  have hlist : (toString n).toList = Nat.toDigits 10 n := Nat.toList_repr
  have hall : (Nat.toDigits 10 n).all Char.isDigit = true := List.all_eq_true.mpr hdigits
  unfold atoi
  rw [hlist]
  split
  · next cs heq => exact absurd (hdigits '-' (heq ▸ List.mem_cons_self)) (by decide)
  · next cs heq => exact absurd (hdigits '+' (heq ▸ List.mem_cons_self)) (by decide)
  · have hnumber : (if Nat.toDigits 10 n ≠ [] ∧ (Nat.toDigits 10 n).all Char.isDigit = true
        then some (Nat.ofDigitChars 10 (Nat.toDigits 10 n) 0) else none) = some n := by
      rw [if_pos ⟨hne, hall⟩, Nat.ofDigitChars_ten_toDigits]
    simp only [hnumber, Option.bind_eq_bind, Option.bind_some, Option.pure_def, Option.map_some,
      Option.getD_some]
    omega

/-- A valid query passes the checks. -/
theorem not_refused_of_valid {raw : List UInt8} (h : ValidQuery raw) : ¬ Refused (listRequest raw) := by
  rintro (hlimit | hcursor)
  · have hrange : 1 ≤ requestLimit (get raw "limit") ∧ requestLimit (get raw "limit") ≤ 100 := by
      cases hv : value raw "limit" with
      | none =>
        rw [get_of_absent hv]
        decide
      | some s =>
        obtain ⟨n, h1, h100, rfl⟩ := h.limit s hv
        rw [get_of_value hv, requestLimit, atoi_toString (by omega)]
        split <;> omega
    change requestLimit (get raw "limit") < 1 ∨ requestLimit (get raw "limit") > 100 at hlimit
    omega
  · simp only [listRequest] at hcursor
    cases hv : value raw "cursor" with
    | none =>
      rw [get_of_absent hv] at hcursor
      cases hcursor
    | some s =>
      obtain ⟨-, start, id, u, hdecode, -⟩ := h.cursor s hv
      rw [get_of_value hv, hdecode] at hcursor
      cases hcursor

/-- A query that passes the checks is valid unless a parameter slips through. -/
theorem valid_iff {raw : List UInt8} (h : ¬ Refused (listRequest raw)) :
    ValidQuery raw ↔ ¬ (StatusSlips raw ∨ LimitSlips raw ∨ CursorSlips raw) := by
  constructor
  · rintro hvalid (⟨s, hv, hinput⟩ | ⟨s, hv, hno, -⟩ | ⟨s, hv, hslip⟩)
    · exact hvalid.status s hv hinput
    · exact hno (hvalid.limit s hv)
    · obtain ⟨hne, start, id, u, hdecode, hid⟩ := hvalid.cursor s hv
      rcases hslip with hempty | ⟨start', id', hdecode', hbad⟩
      · exact hne hempty
      · cases hdecode.symm.trans hdecode'
        cases hid.symm.trans hbad
  · intro hslips
    refine ⟨?_, ?_, ?_⟩
    · exact fun s hv hinput => hslips (Or.inl ⟨s, hv, hinput⟩)
    · intro s hv
      by_contra hno
      have hnumber : ¬ (requestLimit s < 1 ∨ requestLimit s > 100) := by
        have hlimit := fun hbad => h (Or.inl hbad)
        simp only [listRequest, get_of_value hv] at hlimit
        exact hlimit
      refine hslips (Or.inr (Or.inl ⟨s, hv, hno, ?_⟩))
      unfold requestLimit at hnumber
      split at hnumber <;> omega
    · intro s hv
      have hform : decodeCursor s ≠ none := by
        have hcursor := fun hbad => h (Or.inr hbad)
        simp only [listRequest, get_of_value hv] at hcursor
        exact hcursor
      obtain ⟨⟨start, id⟩, hdecode⟩ := Option.ne_none_iff_exists'.mp hform
      have hkept : ¬ (s = "" ∨ ∃ start id, decodeCursor s = some (start, id) ∧ Uuid.input id = none) :=
        fun hslip => hslips (Or.inr (Or.inr ⟨s, hv, hslip⟩))
      obtain ⟨u, hu⟩ := Option.ne_none_iff_exists'.mp
        (fun hbad => hkept (Or.inr ⟨start, id, hdecode, hbad⟩))
      exact ⟨fun hempty => hkept (Or.inl hempty), start, id, u, hdecode, hu⟩

/-- **A query is answered by the contract exactly when** the handler's own checks refuse it or
nothing slips through them. -/
theorem validates_iff (db : Db) (raw : List UInt8) : Validates db raw ↔
    Refused (listRequest raw) ∨ ¬ (StatusSlips raw ∨ LimitSlips raw ∨ CursorSlips raw) := by
  by_cases h : Refused (listRequest raw)
  · obtain ⟨message, hanswer⟩ := answerQuery_refused db h
    have hinvalid : ¬ ValidQuery raw := fun hvalid => not_refused_of_valid hvalid h
    refine ⟨fun _ => Or.inl h, fun _ => ⟨⟨?_, fun hvalid => absurd hvalid hinvalid⟩, fun _ => ⟨message, hanswer⟩⟩⟩
    rintro ⟨page, hpage⟩
    cases hanswer.symm.trans hpage
  · obtain ⟨page, hanswer⟩ := answerQuery_accepted db h
    rw [or_iff_right h, ← valid_iff h]
    refine ⟨fun hvalidates => hvalidates.1.mp ⟨page, hanswer⟩, fun hvalid => ?_⟩
    exact ⟨⟨fun _ => hvalid, fun _ => ⟨page, hanswer⟩⟩, fun hinvalid => absurd hvalid hinvalid⟩

/-- The law fails: `?status=SOLD` is answered 200. -/
theorem validates_fails : ¬ ∀ (db : Db) (raw : List UInt8), Validates db raw := by
  intro h
  have hstatus : value (Base64Url.utf8 "status=SOLD".toList) "status" = some "SOLD" := by decide +kernel
  have hrefused : ¬ Refused (listRequest (Base64Url.utf8 "status=SOLD".toList)) := by
    have hlimit : get (Base64Url.utf8 "status=SOLD".toList) "limit" = "" := by decide +kernel
    have hcursor : get (Base64Url.utf8 "status=SOLD".toList) "cursor" = "" := by decide +kernel
    rw [listRequest, hlimit, hcursor]
    rintro (hlimit | hcursor)
    · exact absurd hlimit (by decide)
    · cases hcursor
  obtain ⟨page, hanswer⟩ := answerQuery_accepted noAuctions hrefused
  have hvalid := (h noAuctions (Base64Url.utf8 "status=SOLD".toList)).1.mp ⟨page, hanswer⟩
  exact hvalid.status "SOLD" hstatus (by decide)

end Synora
