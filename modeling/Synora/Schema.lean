import Mathlib.Data.List.Nodup
import Synora.Lib.Uuid
import Synora.Money

/- The PostgreSQL schema of record (src/database/schema.sql): the columns the
   service reads and writes, with the constraints as fields, so that a row or a
   database that violates one cannot be built. A statement that would violate a
   constraint returns an error instead of a database. Timestamps are microseconds since the
   Unix epoch. -/
namespace Synora

/-! ## Rows -/

inductive AuctionStatus where
  | DRAFT
  | ACTIVE
  | CLOSED
  | SETTLED
  | CANCELLED
  deriving DecidableEq, Repr

/-- The enum label. -/
def AuctionStatus.label : AuctionStatus → String
  | .DRAFT => "DRAFT"
  | .ACTIVE => "ACTIVE"
  | .CLOSED => "CLOSED"
  | .SETTLED => "SETTLED"
  | .CANCELLED => "CANCELLED"

/-- The columns of `auctions`. -/
structure AuctionRow where
  id : Uuid
  itemTitle : String
  description : Option String
  startingPrice : Numeric
  currentHighPrice : Option Numeric
  winnerId : Option Uuid
  status : AuctionStatus
  startTime : Int
  endTime : Int
  createdAt : Int
  updatedAt : Int
  deriving DecidableEq

/-- `btrim(s) <> ''`. -/
def notBlank (s : String) : Bool := s.toList.any (fun c => c != ' ')

/-- The CHECK constraints of `auctions`. -/
structure AuctionRow.Checks (r : AuctionRow) : Prop where
  itemTitleNotBlank : notBlank r.itemTitle = true
  startingPricePositive : r.startingPrice.positive = true
  currentHighPriceValid : ∀ p ∈ r.currentHighPrice, r.startingPrice.le p = true
  endAfterStart : r.startTime < r.endTime
  updatedAtAfterCreatedAt : r.createdAt ≤ r.updatedAt
  settlementStateConsistent : r.status = .SETTLED →
    r.currentHighPrice.isSome = true ∧ r.winnerId.isSome = true
  winnerOnlyWhenSettled : r.winnerId.isSome = true → r.status = .SETTLED

instance (r : AuctionRow) : Decidable r.Checks :=
  decidable_of_iff
    (notBlank r.itemTitle = true ∧ r.startingPrice.positive = true ∧
      (∀ p ∈ r.currentHighPrice, r.startingPrice.le p = true) ∧ r.startTime < r.endTime ∧
      r.createdAt ≤ r.updatedAt ∧
      (r.status = .SETTLED → r.currentHighPrice.isSome = true ∧ r.winnerId.isSome = true) ∧
      (r.winnerId.isSome = true → r.status = .SETTLED))
    ⟨fun ⟨a, b, c, d, e, f, g⟩ => ⟨a, b, c, d, e, f, g⟩,
     fun ⟨a, b, c, d, e, f, g⟩ => ⟨a, b, c, d, e, f, g⟩⟩

/-- A row the schema admits. -/
structure Auction extends AuctionRow where
  checks : toAuctionRow.Checks
  deriving DecidableEq

/-- A row of the bid ledger; `amount` is positive. -/
structure Bid where
  auctionId : Uuid
  userId : Uuid
  amount : Numeric
  isWinningBid : Bool
  positiveAmount : amount.positive = true
  deriving DecidableEq

/-! ## The database -/

/-- The winning rows of an auction in the ledger. -/
def winners (bids : List Bid) (id : Uuid) : List Bid :=
  bids.filter (fun b => b.isWinningBid && decide (b.auctionId = id))

/-- The tables, with the keys, foreign keys and the partial unique index on winners. -/
structure Db where
  users : List Uuid
  auctions : List Auction
  bids : List Bid
  auctionsKey : (auctions.map (fun a => a.id)).Nodup
  winnerFk : ∀ a ∈ auctions, ∀ u ∈ a.winnerId, u ∈ users
  bidsAuctionFk : ∀ b ∈ bids, b.auctionId ∈ auctions.map (fun a => a.id)
  bidsUserFk : ∀ b ∈ bids, b.userId ∈ users
  oneWinnerPerAuction : ∀ id, (winners bids id).length ≤ 1

/-- A database whose ledger is empty. -/
def Db.withoutBids (users : List Uuid) (auctions : List Auction)
    (auctionsKey : (auctions.map (fun a => a.id)).Nodup)
    (winnerFk : ∀ a ∈ auctions, ∀ u ∈ a.winnerId, u ∈ users) : Db where
  users := users
  auctions := auctions
  bids := []
  auctionsKey := auctionsKey
  winnerFk := winnerFk
  bidsAuctionFk := fun _ h => absurd h List.not_mem_nil
  bidsUserFk := fun _ h => absurd h List.not_mem_nil
  oneWinnerPerAuction := fun _ => Nat.zero_le 1

/-- `select … from auctions where id = $1`. -/
def Db.find (db : Db) (id : Uuid) : Option Auction := db.auctions.find? (fun a => a.id = id)

inductive PgError where
  | invalidText
  | checkViolation
  | foreignKeyViolation
  | uniqueViolation
  deriving DecidableEq, Repr

theorem Db.find_id {db : Db} {id : Uuid} {a : Auction} (h : db.find id = some a) : a.id = id := by
  simpa using List.find?_some h

theorem Db.find_mem {db : Db} {id : Uuid} {a : Auction} (h : db.find id = some a) :
    a ∈ db.auctions :=
  List.mem_of_find?_eq_some h

/-- Among rows with distinct ids, each is the one found under its id. -/
theorem find_of_mem {rows : List Auction} (hkey : (rows.map (fun a => a.id)).Nodup) {a : Auction}
    (h : a ∈ rows) : rows.find? (fun r => r.id = a.id) = some a := by
  induction rows with
  | nil => simp at h
  | cons b rest ih =>
    simp only [List.map_cons, List.nodup_cons] at hkey
    rcases List.mem_cons.mp h with rfl | h
    · simp
    · have hne : b.id ≠ a.id := fun he => hkey.1 (he ▸ List.mem_map_of_mem h)
      simp only [List.find?_cons, decide_eq_false hne]
      exact ih hkey.2 h

theorem Db.find_of_mem {db : Db} {a : Auction} (h : a ∈ db.auctions) : db.find a.id = some a :=
  Synora.find_of_mem db.auctionsKey h

/-- The rows with the row of `a.id` replaced by `a`. -/
def replaceRow (a : Auction) (rows : List Auction) : List Auction :=
  rows.map (fun r => if r.id = a.id then a else r)

theorem replaceRow_ids (a : Auction) (rows : List Auction) :
    (replaceRow a rows).map (fun r => r.id) = rows.map (fun r => r.id) := by
  simp only [replaceRow, List.map_map]
  apply List.map_congr_left
  intro r _
  simp only [Function.comp]
  split
  · rename_i h; exact h.symm
  · rfl

theorem mem_replaceRow {a r : Auction} {rows : List Auction} (h : r ∈ replaceRow a rows) :
    r = a ∨ r ∈ rows := by
  simp only [replaceRow, List.mem_map] at h
  obtain ⟨q, hq, he⟩ := h
  split at he
  · exact .inl he.symm
  · exact .inr (he ▸ hq)

/-- Write a row over the one with its id. The row is admitted by construction; the
foreign key of its winner is checked. -/
def Db.update (db : Db) (a : Auction) : Except PgError Db :=
  if h : ∀ u ∈ a.winnerId, u ∈ db.users then
    .ok { db with
      auctions := replaceRow a db.auctions
      auctionsKey := by rw [replaceRow_ids]; exact db.auctionsKey
      winnerFk := fun r hr => by
        rcases mem_replaceRow hr with rfl | hr
        · exact h
        · exact db.winnerFk r hr
      bidsAuctionFk := fun b hb => by rw [replaceRow_ids]; exact db.bidsAuctionFk b hb }
  else .error .foreignKeyViolation

/-- The row with new columns, if the CHECK constraints allow it. -/
def checkRow (r : AuctionRow) : Except PgError Auction :=
  if h : r.Checks then .ok ⟨r, h⟩ else .error .checkViolation

theorem find_replaceRow (a : Auction) (rows : List Auction) (id : Uuid) :
    (replaceRow a rows).find? (fun r => r.id = id) =
      (rows.find? (fun r => r.id = id)).map (fun r => if r.id = a.id then a else r) := by
  unfold replaceRow
  rw [List.find?_map]
  congr 2
  funext r
  simp only [Function.comp]
  split
  · rename_i h; rw [h]
  · rfl

/-- A write that succeeds changes the auctions table only, and there one row. -/
theorem Db.update_ok {db db' : Db} {a : Auction} (h : db.update a = .ok db') :
    db'.users = db.users ∧ db'.bids = db.bids ∧ db'.auctions = replaceRow a db.auctions := by
  unfold Db.update at h
  split at h
  · cases h
    exact ⟨rfl, rfl, rfl⟩
  · cases h

/-- Reading a written row. -/
theorem Db.find_update_self {db db' : Db} {a b : Auction} (h : db.update a = .ok db')
    (hb : db.find a.id = some b) : db'.find a.id = some a := by
  have hid := Db.find_id hb
  unfold Db.find at *
  rw [(Db.update_ok h).2.2, find_replaceRow, hb]
  simp [hid]

/-- Reading another row after a write. -/
theorem Db.find_update_ne {db db' : Db} {a : Auction} {id : Uuid} (h : db.update a = .ok db')
    (hne : id ≠ a.id) : db'.find id = db.find id := by
  unfold Db.find
  rw [(Db.update_ok h).2.2, find_replaceRow]
  cases hf : db.auctions.find? (fun r => r.id = id) with
  | none => rfl
  | some r =>
    have hr : r.id = id := by simpa using List.find?_some hf
    simp only [Option.map_some, hr, if_neg hne]

theorem Db.update_of_fk {db : Db} {a : Auction} (h : ∀ u ∈ a.winnerId, u ∈ db.users) :
    ∃ db', db.update a = .ok db' := by
  unfold Db.update
  rw [dif_pos h]
  exact ⟨_, rfl⟩

theorem checkRow_ok {r : AuctionRow} {a : Auction} (h : checkRow r = .ok a) : a.toAuctionRow = r := by
  unfold checkRow at h
  split at h
  · cases h; rfl
  · cases h

theorem checkRow_of_checks {r : AuctionRow} (h : r.Checks) : checkRow r = .ok ⟨r, h⟩ := by
  simp [checkRow, h]

/-- `insert into bids(auction_id, user_id, amount, is_winning_bid) values($1,$2,$3,true)
on conflict (auction_id) where is_winning_bid do nothing`: the CHECK comes first; a winner
already in the ledger leaves the table as it is, and no foreign key is then checked. -/
def Db.insertWinningBid (db : Db) (auctionId userId : Uuid) (amount : Numeric) :
    Except PgError Db :=
  if hp : amount.positive = true then
    if hw : (winners db.bids auctionId).length = 0 then
      if hf : auctionId ∈ db.auctions.map (fun a => a.id) ∧ userId ∈ db.users then
        .ok { db with
          bids := db.bids ++ [⟨auctionId, userId, amount, true, hp⟩]
          bidsAuctionFk := fun c hc => by
            rcases List.mem_append.mp hc with hc | hc
            · exact db.bidsAuctionFk c hc
            · exact (List.mem_singleton.mp hc) ▸ hf.1
          bidsUserFk := fun c hc => by
            rcases List.mem_append.mp hc with hc | hc
            · exact db.bidsUserFk c hc
            · exact (List.mem_singleton.mp hc) ▸ hf.2
          oneWinnerPerAuction := fun id => by
            have h1 := db.oneWinnerPerAuction id
            unfold winners at *
            rw [List.filter_append, List.length_append]
            by_cases hid : auctionId = id
            · subst hid
              rw [hw]
              simp
            · simpa [hid] using h1 }
      else .error .foreignKeyViolation
    else .ok db
  else .error .checkViolation

/-- An insert that succeeds adds the winner where there was none, or changes nothing. -/
theorem Db.insertWinningBid_ok {db db' : Db} {id user : Uuid} {amount : Numeric}
    (h : db.insertWinningBid id user amount = .ok db') :
    db'.users = db.users ∧ db'.auctions = db.auctions ∧
      ((∃ b : Bid, b.auctionId = id ∧ b.userId = user ∧ b.amount = amount ∧ b.isWinningBid = true ∧
          db'.bids = db.bids ++ [b] ∧ winners db.bids id = []) ∨
        (db' = db ∧ winners db.bids id ≠ [])) := by
  unfold Db.insertWinningBid at h
  split at h
  · split at h
    · rename_i hw
      split at h
      · cases h
        exact ⟨rfl, rfl, .inl ⟨_, rfl, rfl, rfl, rfl, rfl, List.eq_nil_of_length_eq_zero hw⟩⟩
      · cases h
    · rename_i hw
      cases h
      exact ⟨rfl, rfl, .inr ⟨rfl, fun he => hw (by rw [he]; rfl)⟩⟩
  · cases h

end Synora
