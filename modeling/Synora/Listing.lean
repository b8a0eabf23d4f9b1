import Mathlib.Data.Prod.Lex
import Synora.Create
import Synora.Lib.Base64Url
import Synora.Lib.Keyset
import Synora.Lib.Rfc3339
import Synora.Lib.StructFields

/- What the service shows of auctions (handlers.go): `App.listAuctions`, a page of
   them and the cursor of the next, and `App.auction`, one of them with the price
   Redis has.

   Correspondence (Go ↔ Lean):
     `auction.json`                       ↔ `auctionJson`
     `encodeCursor`, `decodeCursor`       ↔ `encodeCursor`, `decodeCursor`
     the checks on the query              ↔ `listQuery`
     `select … from auctions where …`     ↔ `selectAuctions`
     what is made of the rows             ↔ `listPage`
     `App.auction`                        ↔ `showAuction`
   An error of the server ends the rows; `rows.Err()` is not asked for. -/
namespace Synora

/-! ## Items -/

/-- The map of `auction.json`. -/
structure AuctionJson where
  id : String
  itemTitle : String
  description : Option String
  startingPrice : String
  currentHighPrice : Option String
  winnerId : Option String
  status : String
  startTime : String
  endTime : String
  createdAt : String
  updatedAt : String
  deriving DecidableEq

/-- A stored timestamp as a Go time. -/
def goTime (t : Int) : Int := 1000 * t

/-- `scanAuction`, and `json` of what it read. -/
def auctionJson (a : Auction) : AuctionJson where
  id := a.id.text
  itemTitle := a.itemTitle
  description := a.description
  startingPrice := a.startingPrice.text
  currentHighPrice := a.currentHighPrice.map Numeric.text
  winnerId := a.winnerId.map Uuid.text
  status := a.status.label
  startTime := Rfc3339.format (goTime a.startTime)
  endTime := Rfc3339.format (goTime a.endTime)
  createdAt := Rfc3339.format (goTime a.createdAt)
  updatedAt := Rfc3339.format (goTime a.updatedAt)

/-! ## Cursors -/

/-- The struct a cursor is decoded into. -/
structure Cursor where
  startTime : String
  id : String

def cursorFields : List (StructFields.JsonField Cursor) := [
  { name := "start_time", path := [0], tagged := true, omitted := fun _ => false
    get := fun c => .str c.startTime, set := StructFields.setField StructFields.readString fun v c => { c with startTime := v } },
  { name := "id", path := [1], tagged := true, omitted := fun _ => false
    get := fun c => .str c.id, set := StructFields.setField StructFields.readString fun v c => { c with id := v } }]

/-- The payload of a cursor; `json.Marshal` sorts the keys of a map. -/
def cursorPayload (start : Int) (id : String) : Json :=
  .obj [("id", .str id), ("start_time", .str (Rfc3339.format start))]

def encodeCursor (start : Int) (id : String) : String :=
  if start = zeroTime ∨ id = "" then ""
  else Base64Url.encode (Base64Url.utf8 (cursorPayload start id).encode)

def decodeCursor (raw : String) : Option (Int × String) :=
  if raw = "" then some (zeroTime, "")
  else do
    let payload ← Base64Url.decode raw
    let cursor ← (Json.parse (Base64Url.fromUtf8 payload)).bind (StructFields.decode cursorFields ⟨"", ""⟩)
    let start ← Rfc3339.parse cursor.startTime
    if trimSpace cursor.id = "" then none else some (start, cursor.id)

/-! ## The query -/

/-- The parameters of the request, empty where they are absent. -/
structure ListRequest where
  status : String
  limit : String
  cursor : String

/-- `n, _ := strconv.Atoi(s)`: zero for what is no number, and the bound for what is too large. -/
def atoi (s : String) : Int :=
  let number (cs : List Char) : Option Nat :=
    if cs ≠ [] ∧ cs.all Char.isDigit then some (Nat.ofDigitChars 10 cs 0) else none
  let n : Option Int := match s.toList with
    | '-' :: cs => (number cs).map fun n => -(n : Int)
    | '+' :: cs => (number cs).map fun n => (n : Int)
    | cs => (number cs).map fun n => (n : Int)
  max (-2^63) (min (2^63 - 1) (n.getD 0))

def requestLimit (limit : String) : Int := if atoi limit = 0 then 20 else atoi limit

def requestStatus (status : String) : String := if status = "" then "ACTIVE" else status

/-- The arguments of the select statement. -/
structure ListQuery where
  status : String
  after : Option (Int × String)
  limit : Nat

def invalidLimit : Answer := .error 400 "VALIDATION_ERROR" "Invalid limit" []
def invalidCursor : Answer := .error 400 "VALIDATION_ERROR" "Invalid cursor" []

def listQuery (r : ListRequest) : Except Answer ListQuery :=
  if requestLimit r.limit < 1 ∨ requestLimit r.limit > 100 then .error invalidLimit
  else
    match decodeCursor r.cursor with
    | none => .error invalidCursor
    | some (start, cursorID) => .ok {
        status := requestStatus r.status
        after := if cursorID = "" then none else some (start, cursorID)
        limit := (requestLimit r.limit).toNat }

/-- The value of an enum column a text denotes. -/
def AuctionStatus.input (s : String) : Option AuctionStatus :=
  [.DRAFT, .ACTIVE, .CLOSED, .SETTLED, .CANCELLED].find? fun st => st.label = s

/-- What `order by start_time desc, id desc` orders by. -/
def rowKey (a : Auction) : Lex (Int × Uuid) := toLex (a.startTime, a.id)

/-- `start_time < $2 or (start_time = $2 and id < $3)`. -/
def isAfter (start : Int) (id : Uuid) (a : Auction) : Bool :=
  decide (a.startTime < start ∨ a.startTime = start ∧ a.id < id)

/-- The rows of a status, in order. -/
def listed (db : Db) (st : AuctionStatus) : List Auction :=
  Keyset.orderDesc rowKey (db.auctions.filter fun a => decide (a.status = st))

/-- The statement, or an error of the server. -/
def selectAuctions (db : Db) (q : ListQuery) : Option (List Auction) :=
  match AuctionStatus.input q.status with
  | none => none
  | some st =>
    match q.after with
    | none => some ((listed db st).take (q.limit + 1))
    | some (start, id) =>
      match Uuid.input id with
      | none => none
      | some u => some ((Keyset.orderDesc rowKey
          (db.auctions.filter fun a => decide (a.status = st) && isAfter (start / 1000) u a)).take (q.limit + 1))

/-! ## The page -/

/-- The cursor of an item, through the texts of its map. -/
def itemCursor (item : AuctionJson) : String :=
  match Rfc3339.parse item.startTime with
  | some start => encodeCursor start item.id
  | none => ""

/-- What is made of the rows: one more than the limit tells that there is more. -/
def listPage (limit : Nat) (items : List AuctionJson) : Keyset.Page AuctionJson String where
  items := items.take limit
  next := if limit < items.length then (((items.take limit).getLast?).map itemCursor).getD "" else ""
  more := decide (limit < items.length)

def listAuctions (db : Db) (r : ListRequest) : Except Answer (Keyset.Page AuctionJson String) :=
  match listQuery r with
  | .error a => .error a
  | .ok q => .ok (listPage q.limit (((selectAuctions db q).getD []).map auctionJson))

/-! ## One auction -/

/-- `strings.TrimPrefix(r.URL.Path, "/api/v1/auctions/")`. -/
def pathId (path : String) : String :=
  String.ofList ((path.toList.dropPrefix? "/api/v1/auctions/".toList).getD path.toList)

def invalidAuctionID : Answer := .error 400 "VALIDATION_ERROR" "Invalid auction ID" []
def auctionNotFound (id : String) : Answer :=
  .error 404 "AUCTION_NOT_FOUND" "Auction was not found" [("auction_id", id)]
def loadFailed : Answer := .error 500 "INTERNAL_ERROR" "Unable to load auction" []

/-- A price of Redis goes before that of the row; an error of Redis or an empty price does not. -/
def overridePrice (x : AuctionJson) (price : Option String) : AuctionJson :=
  match price with
  | none => x
  | some p => if p = "" then x else { x with currentHighPrice := some p }

/-- `App.auction`; `redisGet` is what GET returns, and nothing if it returns an error. -/
def showAuction (db : Db) (redisGet : String → Option String) (path : String) :
    Except Answer AuctionJson :=
  let id := pathId path
  if Uuid.parse id = true then
    match Uuid.input id with
    | none => .error loadFailed
    | some u =>
      match db.find u with
      | none => .error (auctionNotFound id)
      | some x => .ok (overridePrice (auctionJson x) (redisGet (priceKey id)))
  else .error invalidAuctionID

/-- The path of an auction is taken apart again. -/
theorem pathId_append (id : String) : pathId ("/api/v1/auctions/" ++ id) = id := by
  have h : ("/api/v1/auctions/".toList ++ id.toList).dropPrefix? "/api/v1/auctions/".toList =
      some id.toList := by
    simp [List.dropPrefix?_eq_some_iff]
  rw [pathId, String.toList_append, h, Option.getD_some, String.ofList_toList]

/-- The answer for an auction that is there, under the id text of the request. -/
theorem showAuction_of_find {db : Db} {redisGet : String → Option String} {id : String} {u : Uuid}
    {a : Auction} (hparse : Uuid.parse id = true) (hinput : Uuid.input id = some u)
    (hrow : db.find u = some a) : showAuction db redisGet ("/api/v1/auctions/" ++ id) =
      .ok (overridePrice (auctionJson a) (redisGet (priceKey id))) := by
  simp [showAuction, pathId_append, hparse, hinput, hrow]

end Synora
