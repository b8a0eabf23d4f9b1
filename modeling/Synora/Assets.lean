import Synora.Lib.JsValue
import Synora.Pagination
import Synora.Queries

/- The list of the asset page, from the rows of the back end to the array the page
   gets (handlers.go, api.js, AssetList.jsx). The back end answers one page of at most
   the limit under `items`, as its contract says (rest-websocket-api-contract.md, "List
   auctions"); `getAllAssets` asks once, and reads `auctions` or `assets`. So it
   returns the empty array whatever the table holds, and `loadAssets` shows its mock
   data instead (`lists_active_iff`, `loadAssets_backEnd`).

   Correspondence (Go and JavaScript ↔ Lean):
     `auction.json`, the map of `listAuctions`   ↔ `AuctionJson.toJson`, `pageJson`
     `writeJSON`, `writeErr`                     ↔ `writeJSON`, `writeErr`
     `GET /auctions`                             ↔ `backEnd`
     `jsonResponse`                              ↔ `jsonResponse`
     `getAllAssets`, `loadAssets`                ↔ `getAllAssets`, `loadAssets`
   The back end answers without the limits of its middleware, which refuse requests. -/
namespace Synora

open Js

/-! ## What the back end writes -/

/-- A pointer to a string. -/
def textOrNull : Option String → Json
  | none => .null
  | some s => .str s

/-- The map of an item; the keys are written in order. -/
def AuctionJson.toJson (x : AuctionJson) : Json :=
  .obj [("created_at", .str x.createdAt), ("current_high_price", textOrNull x.currentHighPrice),
    ("description", textOrNull x.description), ("end_time", .str x.endTime), ("id", .str x.id),
    ("item_title", .str x.itemTitle), ("start_time", .str x.startTime),
    ("starting_price", .str x.startingPrice), ("status", .str x.status),
    ("updated_at", .str x.updatedAt), ("winner_id", textOrNull x.winnerId)]

def pageJson (page : Keyset.Page AuctionJson String) : Json :=
  .obj [("has_more", .bool page.more), ("items", .arr (page.items.map AuctionJson.toJson)),
    ("next_cursor", .str page.next)]

/-- A response; `retryAfter` is its header `Retry-After`. -/
structure FetchResponse where
  status : Nat
  body : List UInt8
  retryAfter : Option String

def writeJSON (status : Nat) (v : Json) : FetchResponse :=
  ⟨status, Base64Url.utf8 (v.encode ++ ['\n']), none⟩

def detailsJson (details : List (String × String)) : Json :=
  .obj ((details.mergeSort fun a b => decide (a.1 ≤ b.1)).map fun d => (d.1, .str d.2))

def writeErr (status : Nat) (code message : String) (details : List (String × String)) : FetchResponse :=
  writeJSON status (.obj [("error",
    .obj [("code", .str code), ("details", detailsJson details), ("message", .str message)])])

/-- A refusal as it is written; the list handler has no other answer but its page. -/
def Answer.refusal : Answer → Option FetchResponse
  | .created .. => none
  | .error status code message details => some (writeErr status code message details)

/-- A request of the front end, below its base URL. -/
structure FetchRequest where
  path : String
  query : List UInt8
  headers : List (String × String)

def listResponse : Except Answer (Keyset.Page AuctionJson String) → Option FetchResponse
  | .ok page => some (writeJSON 200 (pageJson page))
  | .error a => a.refusal

/-- The answer to a GET. -/
def backEnd (db : Db) (r : FetchRequest) : Option FetchResponse :=
  if r.path = "/auctions" then listResponse (answerQuery db r.query) else none

/-! ## What the front end reads -/

/-- What a request throws. -/
inductive RequestError where
  /-- `fetch` rejects. -/
  | unreachable
  | typeError
  | failed (message : Value) (status : Nat) (code : Option Value) (retryAfter : Number)

/-- `a || b`. -/
def orElse (a : Option Value) (b : Value) : Value := (a.filter Value.truthy).getD b

/-- `response.json().catch(() => ({}))`. -/
def FetchResponse.payload (r : FetchResponse) : Value :=
  match Json.parse (Base64Url.fromUtf8 r.body) with
  | some v => .ofJson v
  | none => .obj []

/-- What is thrown for a response that is not ok: `Number` may throw something else. -/
def thrown (message : Value) (status : Nat) (code : Option Value) : Option Number → RequestError
  | some retryAfter => .failed message status code retryAfter
  | none => .typeError

def jsonResponse (r : FetchResponse) (fallback : String) : Except RequestError Value :=
  if 200 ≤ r.status ∧ r.status ≤ 299 then .ok r.payload
  else
    let error := r.payload.get "error"
    let details := error.bind fun e => e.get "details"
    let retryAfter := details.bind fun d => d.get "retry_after"
    .error (thrown (orElse (error.bind fun e => e.get "message") (.str fallback)) r.status
      (error.bind fun e => e.get "code")
      (orElse retryAfter (orElse (r.retryAfter.map .str) (.num (.finite 0)))).toNumber)

def assetsRequest (token : String) : FetchRequest where
  path := "/auctions"
  query := []
  headers := ("Accept", "application/json") ::
    if token = "" then [] else [("Authorization", " ".intercalate ["Bearer", token])]

def getAllAssets (token : String) (fetch : FetchRequest → Option FetchResponse) :
    Except RequestError Value :=
  match fetch (assetsRequest token) with
  | none => .error .unreachable
  | some r =>
    match jsonResponse r "Assets could not be loaded" with
    | .error e => .error e
    | .ok .null => .error .typeError
    | .ok payload => .ok (orElse (payload.get "auctions") (orElse (payload.get "assets") (.arr [])))

/-! ## The page -/

def mockAsset (id title description : String) (startingPrice currentHighPrice bidCount : Nat)
    (assetType : String) : Value :=
  .obj [("id", .str id), ("title", .str title), ("description", .str description),
    ("starting_price", .num (.finite startingPrice)),
    ("current_high_price", .num (.finite currentHighPrice)),
    ("bid_count", .num (.finite bidCount)), ("asset_type", .str assetType)]

def mockAssets : Value := .arr [
  mockAsset "108" "Series-A Perpetual Treasury Bond"
    "Liquidity Tranche - High-yield institutional asset" 4290000 4296500 35558 "TOKENIZED DEBT",
  mockAsset "109" "Tier-1 Spectrum License"
    "Lot #409 - Federal auction allocation" 42855000 42885000 12453 "SPECTRUM LICENSE",
  mockAsset "110" "Corporate Bond Index Fund"
    "Investment Grade - Q4 Allocation" 15000000 15250000 8934 "BOND FUND",
  mockAsset "111" "Renewable Energy Credits"
    "Carbon Offset Portfolio - 2024 Vintage" 2500000 2680000 5621 "RECS",
  mockAsset "112" "Municipal Infrastructure Bond"
    "Transportation Sector - 10-year Term" 8000000 8150000 7832 "MUNICIPAL BOND",
  mockAsset "113" "Technology Sector ETF"
    "Growth Allocation - Semiconductor Focus" 12000000 12350000 15678 "ETF"]

/-- `v.length > 0`; what the comparison throws, `loadAssets` catches. -/
def lengthPositive : Value → Bool
  | .arr vs => !vs.isEmpty
  | .str s => decide (s ≠ "")
  | v => ((v.get "length").bind Value.toNumber).any fun n => (Number.finite 0).lt n

/-- The assets the page shows after the request. -/
def loadAssets : Except RequestError Value → Value
  | .error _ => mockAssets
  | .ok fetchedAssets => if lengthPositive fetchedAssets then fetchedAssets else mockAssets

/-! ## One composed with the other -/

theorem payload_writeJSON (status : Nat) (v : Json) : (writeJSON status v).payload = .ofJson v := by
  have hread : Json.parse (Base64Url.fromUtf8 (writeJSON status v).body) = some v := by
    rw [writeJSON, Base64Url.fromUtf8_utf8]
    exact Json.parse_encode_line v
  rw [FetchResponse.payload, hread]

/-- A page has the members of the contract and no others. -/
theorem get_pageJson {page : Keyset.Page AuctionJson String} {key : String} (hmore : key ≠ "has_more")
    (hitems : key ≠ "items") (hnext : key ≠ "next_cursor") :
    (Value.ofJson (pageJson page)).get key = none := by
  simp [pageJson, Value.ofJson, Value.ofMembers, Value.get, hmore.symm, hitems.symm, hnext.symm]

/-- The details are texts, which `Number` reads. -/
theorem retryAfter_details (details : List (String × String)) :
    ∃ n, (orElse ((Value.ofJson (detailsJson details)).get "retry_after") (.num (.finite 0))).toNumber =
      some n := by
  have htext : ∀ ds : List (String × String), ∀ m ∈ Value.ofMembers (ds.map fun d => (d.1, Json.str d.2)),
      ∃ s, m.2 = .str s := by
    intro ds
    induction ds with
    | nil =>
      intro m hm
      cases hm
    | cons d ds ih =>
      intro m hm
      rcases List.mem_cons.mp hm with rfl | hm
      · exact ⟨d.2, rfl⟩
      · exact ih m hm
  unfold orElse
  cases hget : (Value.ofJson (detailsJson details)).get "retry_after" with
  | none => exact ⟨_, rfl⟩
  | some v =>
    obtain ⟨m, hm, rfl⟩ := Option.map_eq_some_iff.mp hget
    obtain ⟨s, hs⟩ := htext _ m (List.mem_reverse.mp (List.mem_of_find?_eq_some hm))
    rw [hs, Option.filter_some]
    split
    · exact ⟨_, rfl⟩
    · exact ⟨_, rfl⟩

/-- An error envelope is thrown as it was written. -/
theorem jsonResponse_writeErr {status : Nat} {message : String} (code : String)
    (details : List (String × String)) (fallback : String) (hstatus : 300 ≤ status)
    (hmessage : message ≠ "") : ∃ n, jsonResponse (writeErr status code message details) fallback =
      .error (.failed (.str message) status (some (.str code)) n) := by
  obtain ⟨n, hn⟩ := retryAfter_details details
  have hnotOk : ¬ (200 ≤ (writeErr status code message details).status ∧
      (writeErr status code message details).status ≤ 299) := fun h =>
    absurd (Nat.le_trans hstatus h.2) (by decide)
  have herror : (writeErr status code message details).payload.get "error" = some (.ofJson
      (.obj [("code", .str code), ("details", detailsJson details), ("message", .str message)])) := by
    rw [writeErr, payload_writeJSON]
    rfl
  have hshown : orElse (some (.str message)) (.str fallback) = .str message := by
    unfold orElse
    rw [Option.filter_some, if_pos (show Value.truthy (.str message) = true from decide_eq_true hmessage)]
    rfl
  refine ⟨n, ?_⟩
  unfold jsonResponse
  rw [if_neg hnotOk]
  simp only [herror, Option.bind_some]
  show Except.error (thrown (orElse (some (.str message)) (.str fallback)) status (some (.str code))
    (orElse ((Value.ofJson (detailsJson details)).get "retry_after") (.num (.finite 0))).toNumber) = _
  rw [hn, hshown]
  rfl

/-- **No page of the back end has what `getAllAssets` reads.** -/
theorem getAllAssets_page {token : String} {fetch : FetchRequest → Option FetchResponse}
    {page : Keyset.Page AuctionJson String}
    (h : fetch (assetsRequest token) = some (writeJSON 200 (pageJson page))) :
    getAllAssets token fetch = .ok (.arr []) := by
  have hok : jsonResponse (writeJSON 200 (pageJson page)) "Assets could not be loaded" =
      .ok (.ofJson (pageJson page)) := by
    unfold jsonResponse
    rw [if_pos ⟨Nat.le_refl 200, Nat.le_add_right 200 99⟩, payload_writeJSON]
  have hauctions : (Value.ofJson (pageJson page)).get "auctions" = none :=
    get_pageJson (by decide) (by decide) (by decide)
  have hassets : (Value.ofJson (pageJson page)).get "assets" = none :=
    get_pageJson (by decide) (by decide) (by decide)
  unfold getAllAssets
  rw [h]
  simp only [hok]
  show Except.ok (orElse ((Value.ofJson (pageJson page)).get "auctions")
    (orElse ((Value.ofJson (pageJson page)).get "assets") (.arr []))) = _
  rw [hauctions, hassets]
  rfl

/-- The request has no query, so it is answered with a page. -/
theorem backEnd_assetsRequest (db : Db) (token : String) : ∃ page,
    backEnd db (assetsRequest token) = some (writeJSON 200 (pageJson page)) := by
  have haccepted : ¬ Refused (listRequest []) := by
    unfold Refused
    decide
  obtain ⟨page, hpage⟩ := answerQuery_accepted db haccepted
  refine ⟨page, ?_⟩
  show listResponse (answerQuery db []) = _
  rw [hpage]
  rfl

theorem getAllAssets_backEnd (db : Db) (token : String) :
    getAllAssets token (backEnd db) = .ok (.arr []) := by
  obtain ⟨page, hpage⟩ := backEnd_assetsRequest db token
  exact getAllAssets_page hpage

/-- **The page shows its mock data whatever the table holds**, and no error. -/
theorem loadAssets_backEnd (db : Db) (token : String) :
    loadAssets (getAllAssets token (backEnd db)) = mockAssets := by
  rw [getAllAssets_backEnd]
  rfl

/-- The array that `getAllAssets` returns has each ACTIVE auction once, and nothing else. -/
def ListsActive (db : Db) (token : String) : Prop :=
  ∃ vs, getAllAssets token (backEnd db) = .ok (.arr vs) ∧
    vs.Perm ((db.auctions.filter fun a => decide (a.status = .ACTIVE)).map
      fun a => .ofJson (auctionJson a).toJson)

/-- **The active auctions are listed exactly when there are none.** -/
theorem lists_active_iff (db : Db) (token : String) :
    ListsActive db token ↔ ∀ a ∈ db.auctions, a.status ≠ .ACTIVE := by
  unfold ListsActive
  constructor
  · intro ⟨vs, hvs, hperm⟩ a ha hactive
    rw [getAllAssets_backEnd] at hvs
    obtain rfl : [] = vs := Value.arr.inj (Except.ok.inj hvs)
    have hnone := List.map_eq_nil_iff.mp (List.nil_perm.mp hperm)
    exact List.filter_eq_nil_iff.mp hnone a ha (decide_eq_true hactive)
  · intro hnone
    refine ⟨[], getAllAssets_backEnd db token, ?_⟩
    have hfilter : (db.auctions.filter fun a => decide (a.status = .ACTIVE)) = [] :=
      List.filter_eq_nil_iff.mpr fun a ha => by
        rw [decide_eq_true_eq]
        exact hnone a ha
    rw [hfilter]
    exact List.Perm.nil

/-- The law fails for a table with two lots. -/
theorem lists_active_fails : ¬ ∀ (db : Db) (token : String), ListsActive db token := by
  intro h
  obtain ⟨vs, hvs, hperm⟩ := h (twoLots "2026-03-01T10:00:00.5Z" "2026-03-01T12:00:00+01:00") ""
  rw [getAllAssets_backEnd] at hvs
  obtain rfl : [] = vs := Value.arr.inj (Except.ok.inj hvs)
  have hlength := hperm.length_eq
  rw [List.length_map] at hlength
  have htwo : ((twoLots "2026-03-01T10:00:00.5Z" "2026-03-01T12:00:00+01:00").auctions.filter
      fun a => decide (a.status = .ACTIVE)).length = 2 := by decide +kernel
  rw [htwo] at hlength
  cases hlength

end Synora
