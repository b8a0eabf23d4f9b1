import Synora.Server

/- The bid handler, `App.bid` and `evalBid` (handlers.go), as a client of the two
   servers: its state between two calls, and what it does with a reply.

   Correspondence (Go ↔ Lean):
     the checks before the row read                  ↔ `bidStart`
     `if e == nil { if status != "ACTIVE" || … }`    ↔ `.selecting` in `bidResume`
     `a.Redis.SetNX(…)`                              ↔ `.initializing`
     `a.Redis.Set(…, "ACTIVE", time.Until(end))`     ↔ `.arming`
     the second window check, `payload`, `ttlSeconds` ↔ `.arming` on `.ok`
     `evalBid(…)` and what follows it                ↔ `.scripting`
   What runs between two calls reads the clock once. -/
namespace Synora

/-- A decoded bid request; `user` is what `a.user(r)` returned. -/
structure BidRequest where
  auctionID : String
  amount : String
  user : String
  deriving DecidableEq

/-- The columns of the row the handler goes on with. -/
structure SeenRow where
  status : AuctionStatus
  start : Int
  «end» : Int
  starting : String
  deriving DecidableEq

inductive Answer where
  /-- 201, with the fields of the body. -/
  | created (auctionId userId amount : String) (placedAt : Int) (status : AuctionStatus) («end» : Int)
  /-- An error envelope. -/
  | error (status : Nat) (code message : String) (details : List (String × String))
  deriving DecidableEq

/-- The HTTP status of an answer. -/
def Answer.code : Answer → Nat
  | .created .. => 201
  | .error status .. => status

def invalidBid : Answer := .error 400 "INVALID_AMOUNT" "Invalid bid" []
def notFound : Answer := .error 404 "AUCTION_NOT_FOUND" "Auction was not found" []
def notBiddable : Answer := .error 400 "AUCTION_NOT_BIDDABLE" "Auction is not accepting bids" []
def unavailable : Answer := .error 503 "TEMPORARILY_UNAVAILABLE" "Bid service unavailable" []

def tooLow (req : BidRequest) (currentHigh : String) : Answer :=
  .error 409 "BID_TOO_LOW" "Bid must exceed the current high price"
    [("auction_id", req.auctionID), ("submitted_amount", req.amount),
     ("current_high_price", currentHigh)]

inductive BidPc where
  | selecting
  | initializing (row : SeenRow)
  | arming (row : SeenRow)
  | scripting (row : SeenRow) (placed : Int)
  | answered (a : Answer)
  deriving DecidableEq

/-- `status != "ACTIVE" || time.Now().Before(start) || time.Now().After(end)`, negated. -/
def SeenRow.biddable (row : SeenRow) (now : Int) : Bool :=
  decide (row.status = .ACTIVE ∧ row.start ≤ now ∧ now ≤ row.end)

/-- `int64(end.Add(24 * time.Hour).Sub(time.Now()).Seconds())`, at least 1; the quotient of
the nanoseconds is exact here. -/
def ttlSeconds («end» now : Int) : Int :=
  let s := (durationSub («end» + 24 * hour) now).tdiv second
  if s ≤ 0 then 1 else s

/-- The checks on the request, and the row read. -/
def bidStart (req : BidRequest) : BidPc × Option Cmd :=
  if Uuid.validate req.auctionID = true ∧ amountPattern req.amount = true then
    (.selecting, some (.selectRow req.auctionID))
  else (.answered invalidBid, none)

/-- The script call: the payload it is to publish and the expiry of the keys. -/
def evalCmd (req : BidRequest) (row : SeenRow) (now : Int) : Cmd :=
  .evalBid req.auctionID req.amount req.user (.priceUpdate req.auctionID req.amount now)
    (ttlSeconds row.end now)

/-- What the handler does with a reply. -/
def bidResume (now : Int) (req : BidRequest) : BidPc → Reply → BidPc × Option Cmd
  | .selecting, .row status start «end» _ starting =>
    let row : SeenRow := ⟨status, start, «end», starting⟩
    if row.biddable now then
      (.initializing row, some (.setNX (priceKey req.auctionID) starting))
    else (.answered notBiddable, none)
  | .selecting, .noRows => (.answered notFound, none)
  | .selecting, _ => (.answered notBiddable, none)
  | .initializing row, .ok =>
    (.arming row, some (.set (statusKey req.auctionID) "ACTIVE" (redisTtl (durationSub row.end now))))
  | .initializing _, _ => (.answered unavailable, none)
  | .arming row, .ok =>
    if row.biddable now then (.scripting row now, some (evalCmd req row now))
    else (.answered notBiddable, none)
  | .arming _, _ => (.answered unavailable, none)
  | .scripting row placed, .script n value =>
    if n = 1 then
      (.answered (.created req.auctionID req.user req.amount placed row.status row.end), none)
    else (.answered (tooLow req (if value = "" then req.amount else value)), none)
  | .scripting _ _, _ => (.answered unavailable, none)
  | .answered a, _ => (.answered a, none)

/-- What the handler does when its call returns an error. -/
def bidAbort : BidPc → BidPc
  | .selecting => .answered notBiddable
  | .initializing _ => .answered unavailable
  | .arming _ => .answered unavailable
  | .scripting _ _ => .answered unavailable
  | .answered a => .answered a

def BidPc.done : BidPc → Bool
  | .answered _ => true
  | _ => false

theorem ttlSeconds_pos («end» now : Int) : 0 < ttlSeconds «end» now := by
  unfold ttlSeconds
  simp only
  split <;> omega

/-- An aborted handler answers, and never 201. -/
theorem bidAbort_answered (pc : BidPc) (h : pc.done = false) :
    ∃ a, bidAbort pc = .answered a ∧ a.code ≠ 201 := by
  cases pc with
  | answered a => cases h
  | selecting => exact ⟨_, rfl, by decide⟩
  | initializing row => exact ⟨_, rfl, by decide⟩
  | arming row => exact ⟨_, rfl, by decide⟩
  | scripting row placed => exact ⟨_, rfl, by decide⟩

/-- **What a reply leads to.** The handler sends one of its three writes, or answers; it
answers 201 on a script result of 1 and on nothing else. -/
theorem bidResume_cases (now : Int) (req : BidRequest) (pc : BidPc) (r : Reply) (hd : pc.done = false) :
    (∃ row c, pc = .selecting ∧ row.biddable now = true ∧
      r = .row row.status row.start row.end c row.starting ∧
      bidResume now req pc r =
        (.initializing row, some (.setNX (priceKey req.auctionID) row.starting))) ∨
    (∃ row, pc = .initializing row ∧ r = .ok ∧ bidResume now req pc r = (.arming row,
      some (.set (statusKey req.auctionID) "ACTIVE" (redisTtl (durationSub row.end now))))) ∨
    (∃ row, pc = .arming row ∧ r = .ok ∧ row.biddable now = true ∧
      bidResume now req pc r = (.scripting row now, some (evalCmd req row now))) ∨
    (∃ row placed v, pc = .scripting row placed ∧ r = .script 1 v ∧
      bidResume now req pc r = (.answered (.created req.auctionID req.user req.amount placed row.status row.end), none)) ∨
    (∃ a, a.code ≠ 201 ∧ bidResume now req pc r = (.answered a, none)) := by
  cases pc with
  | answered a => cases hd
  | selecting =>
    cases r with
    | row status start «end» c starting =>
      by_cases hb : (⟨status, start, «end», starting⟩ : SeenRow).biddable now = true
      · exact .inl ⟨⟨status, start, «end», starting⟩, c, rfl, hb, rfl, by simp [bidResume, hb]⟩
      · exact .inr (.inr (.inr (.inr ⟨notBiddable, by decide, by simp [bidResume, hb]⟩)))
    | _ => exact .inr (.inr (.inr (.inr ⟨_, by decide, rfl⟩)))
  | initializing row =>
    cases r with
    | ok => exact .inr (.inl ⟨row, rfl, rfl, rfl⟩)
    | _ => exact .inr (.inr (.inr (.inr ⟨_, by decide, rfl⟩)))
  | arming row =>
    cases r with
    | ok =>
      by_cases hb : row.biddable now = true
      · exact .inr (.inr (.inl ⟨row, rfl, rfl, hb, by simp [bidResume, hb]⟩))
      · exact .inr (.inr (.inr (.inr ⟨notBiddable, by decide, by simp [bidResume, hb]⟩)))
    | _ => exact .inr (.inr (.inr (.inr ⟨_, by decide, rfl⟩)))
  | scripting row placed =>
    cases r with
    | script n v =>
      by_cases hn : n = 1
      · subst hn
        exact .inr (.inr (.inr (.inl ⟨row, placed, v, rfl, rfl, by simp [bidResume]⟩)))
      · exact .inr (.inr (.inr (.inr ⟨tooLow req (if v = "" then req.amount else v), by
          simp [tooLow, Answer.code], by simp [bidResume, hn]⟩)))
    | _ => exact .inr (.inr (.inr (.inr ⟨_, by decide, rfl⟩)))

/-- The handler runs no transaction. -/
theorem bidResume_ne_settleTx {now : Int} {req : BidRequest} {pc : BidPc} {r : Reply} {id : String}
    {p l : Option String} (hd : pc.done = false) :
    (bidResume now req pc r).2 ≠ some (.settleTx id p l) := by
  intro h
  rcases bidResume_cases now req pc r hd with ⟨row, c, -, -, -, he⟩ | ⟨row, -, -, he⟩ |
      ⟨row, -, -, -, he⟩ | ⟨row, placed, v, -, -, he⟩ | ⟨a, -, he⟩ <;> rw [he] at h <;> cases h

end Synora
