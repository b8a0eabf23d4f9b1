import Synora.Bid

/- `App.createAuction` (handlers.go): the checks on the decoded body, and the insert.
   A Go time is its instant, in nanoseconds since the Unix epoch; pgx stores the
   microsecond it falls into.

   Correspondence (Go ↔ Lean):
     `auctionInput`                         ↔ `AuctionInput`
     `strings.TrimSpace`                    ↔ `trimSpace`
     the conditions before the insert       ↔ `validFields`, `inputStatus`
     `insert into auctions(…) values(…)`    ↔ `insertAuction` -/
namespace Synora

/-- The decoded body of the request. -/
structure AuctionInput where
  itemTitle : String
  description : Option String
  startingPrice : String
  startTime : Int
  endTime : Int
  status : String
  deriving DecidableEq

/-- The zero `time.Time`, January 1 of the year 1. -/
def zeroTime : Int := -62135596800 * 1000000000

/-- `unicode.IsSpace`. -/
def isSpace (c : Char) : Bool :=
  c ∈ ['\t', '\n', '\x0b', '\x0c', '\r', ' ', '\u0085', '\u00a0', '\u1680', '\u2028', '\u2029',
    '\u202f', '\u205f', '\u3000'] || ('\u2000' ≤ c ∧ c ≤ '\u200a')

/-- `strings.TrimSpace`. -/
def trimSpace (s : String) : String :=
  String.ofList ((s.toList.dropWhile isSpace).reverse.dropWhile isSpace).reverse

/-- The conditions on the fields. -/
def validFields (input : AuctionInput) : Bool :=
  trimSpace input.itemTitle ≠ "" && input.startingPrice ≠ "" && input.endTime ≠ zeroTime &&
    input.startTime ≠ zeroTime && decide (input.startTime < input.endTime)

/-- The status of the row: DRAFT unless given, and DRAFT or ACTIVE. -/
def inputStatus (status : String) : Option AuctionStatus :=
  if status = "" ∨ status = "DRAFT" then some .DRAFT
  else if status = "ACTIVE" then some .ACTIVE
  else none

/-- The columns of the insert, the others at their defaults. -/
def insertedRow (now : Int) (id : Uuid) (title : String) (description : Option String)
    (starting : Numeric) (status : AuctionStatus) (startTime endTime : Int) : AuctionRow where
  id := id
  itemTitle := title
  description := description
  startingPrice := starting
  currentHighPrice := none
  winnerId := none
  status := status
  startTime := startTime / 1000
  endTime := endTime / 1000
  createdAt := now
  updatedAt := now

/-- Whether a text column takes the string: Postgres has no NUL character. -/
def isPgText (s : String) : Bool := !s.toList.contains '\x00'

/-- An insert of an admitted row: its id must be new, and its winner known. -/
def Db.insertAuction (db : Db) (a : Auction) : Except PgError Db :=
  if h : a.id ∈ db.auctions.map (fun r => r.id) then .error .uniqueViolation
  else if hw : ∀ u ∈ a.winnerId, u ∈ db.users then
    .ok { db with
      auctions := a :: db.auctions
      auctionsKey := List.nodup_cons.mpr ⟨h, db.auctionsKey⟩
      winnerFk := fun r hr => by
        rcases List.mem_cons.mp hr with rfl | hr
        · exact hw
        · exact db.winnerFk r hr
      bidsAuctionFk := fun b hb => List.mem_cons_of_mem _ (db.bidsAuctionFk b hb) }
  else .error .foreignKeyViolation

/-- The insert statement with its texts. -/
def insertAuction (E : Engines) (db : Db) (now : Int) (id : Uuid) (input : AuctionInput)
    (status : AuctionStatus) : Except PgError (Db × Auction) :=
  match E.numericIn input.startingPrice with
  | none => .error .invalidText
  | some p =>
    if isPgText input.itemTitle = true ∧ (∀ d ∈ input.description, isPgText d = true) then do
      let a ← checkRow (insertedRow now id (trimSpace input.itemTitle) input.description p status
        input.startTime input.endTime)
      let db ← db.insertAuction a
      return (db, a)
    else .error .invalidText

def authRequired : Answer := .error 401 "AUTH_REQUIRED" "Authentication required" []
def invalidFields : Answer := .error 400 "VALIDATION_ERROR" "Invalid auction fields" []
def invalidStatus : Answer := .error 400 "VALIDATION_ERROR" "Invalid status" []
def notCreated : Answer := .error 400 "VALIDATION_ERROR" "Unable to create auction" []

/-- The handler: `authenticated` is whether `a.user(r)` succeeds, `id` the generated key. -/
def createAuction (E : Engines) (db : Db) (now : Int) (id : Uuid) (authenticated : Bool)
    (input : AuctionInput) : Except Answer (Db × Auction) :=
  if authenticated = false then .error authRequired
  else if validFields input = false then .error invalidFields
  else
    match inputStatus input.status with
    | none => .error invalidStatus
    | some status =>
      match insertAuction E db now id input status with
      | .ok r => .ok r
      | .error _ => .error notCreated

/-- What a created row looks like. -/
structure CreatedRow (a : Auction) : Prop where
  status : a.status = .DRAFT ∨ a.status = .ACTIVE
  currentHighPrice : a.currentHighPrice = none
  winnerId : a.winnerId = none

theorem Db.insertAuction_ok {db db' : Db} {a : Auction} (h : db.insertAuction a = .ok db') :
    db'.auctions = a :: db.auctions ∧ db'.bids = db.bids ∧ db'.users = db.users := by
  unfold Db.insertAuction at h
  split at h
  · cases h
  · split at h
    · cases h
      exact ⟨rfl, rfl, rfl⟩
    · cases h

theorem insertAuction_ok {E : Engines} {db db' : Db} {now : Int} {id : Uuid} {input : AuctionInput}
    {status : AuctionStatus} {a : Auction}
    (h : insertAuction E db now id input status = .ok (db', a)) :
    db.insertAuction a = .ok db' ∧ ∃ p, E.numericIn input.startingPrice = some p ∧
      a.toAuctionRow = insertedRow now id (trimSpace input.itemTitle) input.description p status
        input.startTime input.endTime := by
  unfold insertAuction at h
  split at h
  · cases h
  · rename_i p hp
    split at h
    · cases hrow : checkRow (insertedRow now id (trimSpace input.itemTitle) input.description p status
          input.startTime input.endTime) with
      | error e => simp [hrow, bind, Except.bind] at h
      | ok a' =>
        cases hins : db.insertAuction a' with
        | error e => simp [hrow, hins, bind, Except.bind] at h
        | ok db₁ =>
          simp only [hrow, hins, bind, Except.bind, pure, Except.pure, Except.ok.injEq,
            Prod.mk.injEq] at h
          obtain ⟨rfl, rfl⟩ := h
          exact ⟨hins, p, hp, checkRow_ok hrow⟩
    · cases h

theorem inputStatus_open {s : String} {status : AuctionStatus} (h : inputStatus s = some status) :
    status = .DRAFT ∨ status = .ACTIVE := by
  unfold inputStatus at h
  split at h
  · cases h
    exact .inl rfl
  · split at h
    · cases h
      exact .inr rfl
    · cases h

/-- **What the handler does to the database**: it adds one row, open and without a winner. -/
theorem createAuction_ok {E : Engines} {db db' : Db} {now : Int} {id : Uuid} {authenticated : Bool}
    {input : AuctionInput} {a : Auction}
    (h : createAuction E db now id authenticated input = .ok (db', a)) :
    db'.auctions = a :: db.auctions ∧ db'.bids = db.bids ∧ db'.users = db.users ∧ CreatedRow a ∧
      a.startTime = input.startTime / 1000 ∧ validFields input = true := by
  unfold createAuction at h
  split at h
  · cases h
  · split at h
    · cases h
    · rename_i hvalid
      split at h
      · cases h
      · rename_i status hstatus
        split at h
        · rename_i r hr
          cases h
          obtain ⟨hins, p, -, hrow⟩ := insertAuction_ok hr
          obtain ⟨hauctions, hbids, husers⟩ := Db.insertAuction_ok hins
          refine ⟨hauctions, hbids, husers, ⟨?_, ?_, ?_⟩, ?_, by simpa using hvalid⟩
          · rw [hrow]
            exact inputStatus_open hstatus
          · rw [hrow]; rfl
          · rw [hrow]; rfl
          · rw [hrow]; rfl
        · cases h

/-- A database whose auctions were all inserted by `createAuction`, with an empty ledger. -/
inductive FromCreate (E : Engines) : Db → Prop
  | empty (db : Db) (ha : db.auctions = []) (hb : db.bids = []) : FromCreate E db
  | create (db db' : Db) (now : Int) (id : Uuid) (authenticated : Bool) (input : AuctionInput)
      (a : Auction) (h : FromCreate E db)
      (hc : createAuction E db now id authenticated input = .ok (db', a)) : FromCreate E db'

/-- What holds of such a database. -/
theorem FromCreate.rows {E : Engines} {db : Db} (h : FromCreate E db) :
    db.bids = [] ∧ ∀ a ∈ db.auctions, CreatedRow a := by
  induction h with
  | empty db ha hb =>
    refine ⟨hb, fun a hmem => ?_⟩
    rw [ha] at hmem
    cases hmem
  | create db db' now id authenticated input a _ hc ih =>
    obtain ⟨hauctions, hbids, -, hrow, -, -⟩ := createAuction_ok hc
    refine ⟨hbids.trans ih.1, fun b hmem => ?_⟩
    rw [hauctions] at hmem
    rcases List.mem_cons.mp hmem with rfl | hmem
    · exact hrow
    · exact ih.2 b hmem

/-! ## A small instance -/

/-- Two users and no auction. -/
def noAuctions : Db :=
  .withoutBids [.ofDigit 1, .ofDigit 2] [] List.nodup_nil fun _ h => absurd h List.not_mem_nil

/-- The database after a request of an authenticated user, answered or refused. -/
def created (E : Engines) (db : Db) (now : Int) (id : Uuid) (input : AuctionInput) : Db :=
  match createAuction E db now id true input with
  | .ok (db', _) => db'
  | .error _ => db

theorem FromCreate.created {E : Engines} {db : Db} (h : FromCreate E db) (now : Int) (id : Uuid)
    (input : AuctionInput) : FromCreate E (created E db now id input) := by
  unfold Synora.created
  split
  · next db' a hc => exact .create db db' now id true input a h hc
  · exact h

end Synora
