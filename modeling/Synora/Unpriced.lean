import Synora.Ledger
import Synora.Sent

/- Bids on an auction that settlement has not touched. `createAuction` leaves
   current_high_price NULL, only the settlement writes the column, and `bid` scans it
   into a plain string, so its row read fails and no such auction takes a bid. -/
namespace Synora

open Calls

/-! ## A bid running alone -/

/-- Time passes, or client `i` goes on and its call succeeds. -/
def Alone (i : Nat) : Ev → Prop
  | .tick _ => True
  | .exec j | .recv j => j = i
  | _ => False

/-- The request, running alone as client `i`, can be answered 201 and then is the lead: its
amount is the price and its user the leader. -/
def AcceptedAlone (E : Engines) (s : Sys) (i : Nat) (req : BidRequest) : Prop :=
  ∃ es s' a, (∀ e ∈ es, Alone i e) ∧
    Steps.run (sysStep E) s (.start i (.bid req) :: es) = some s' ∧ Answered s' i req a ∧
    a.code = 201 ∧ s'.world.get (priceKey req.auctionID) = some req.amount ∧
    s'.world.get (leaderKey req.auctionID) = some req.user

/-- Where a bid stands whose row cannot be read. -/
inductive Unread (req : BidRequest) (sl : Slot Proc Cmd Reply) : Prop
  | reading (client : sl.client = .live (.bid req .selecting))
      (wire : ∀ c, sl.wire = some c → c = .selectRow req.auctionID)
      (inbox : ∀ r, sl.inbox = some r → r = .err)
  | answered (a : Answer) (client : sl.client = .live (.bid req (.answered a)))
      (code : a.code ≠ 201) (wire : sl.wire = none)

theorem exec_selectRow_null (E : Engines) {w : World} {id : String} {u : Uuid} {a : Auction}
    (hid : Uuid.input id = some u) (hf : w.db.find u = some a) (hnull : a.currentHighPrice = none) :
    exec E w (.selectRow id) = (w, .err) := by
  simp only [exec, hid, hf, scanBidRow, hnull]

/-- A row that `bid` cannot read stays so while the client runs alone, and the client gets no
further than its answer. -/
theorem Unread.step {E : Engines} {s s' : Sys} {e : Ev} {i : Nat} {req : BidRequest} {u : Uuid}
    {a : Auction} (h : Unread req (s.slot i)) (hid : Uuid.input req.auctionID = some u)
    (hf : s.world.db.find u = some a) (hnull : a.currentHighPrice = none) (he : Alone i e)
    (hst : sysStep E s e = some s') : s'.world.db.find u = some a ∧ Unread req (s'.slot i) := by
  rcases Program.step_cases hst with ⟨d, rfl, rfl⟩ | ⟨_, _, _, _, rfl, -, -, -⟩ | ⟨j, c, rfl, hw, rfl⟩ |
      ⟨j, p, r, rfl, hc, hr, hd, rfl⟩ | ⟨_, _, rfl, -⟩ | ⟨_, _, rfl, -⟩ | ⟨_, _, rfl, -⟩
  · exact ⟨hf, h⟩
  · exact he.elim
  · -- the only request is the row read, which fails
    obtain rfl : j = i := he
    cases h with
    | answered b _ _ hwire =>
      rw [hwire] at hw
      cases hw
    | reading hclient hwire _ =>
      obtain rfl := hwire c hw
      rw [program_exec, exec_selectRow_null E hid hf hnull, State.setSlot_self]
      refine ⟨hf, .reading hclient (fun _ h => (by cases h)) fun r hr => ?_⟩
      exact (Option.some.inj hr).symm
  · obtain rfl : j = i := he
    refine ⟨hf, ?_⟩
    rw [State.setSlot_self]
    cases h with
    | answered b hclient _ _ =>
      rw [hclient] at hc
      cases hc
      cases hd
    | reading hclient _ hinbox =>
      rw [hclient] at hc
      cases hc
      obtain rfl := hinbox r hr
      exact .answered notBiddable rfl (by decide) rfl
  all_goals exact he.elim

theorem unread_start {E : Engines} {s s' : Sys} {i : Nat} {req : BidRequest}
    (hst : sysStep E s (.start i (.bid req)) = some s') :
    s'.world = s.world ∧ Unread req (s'.slot i) := by
  obtain ⟨p, c, -, hstart, rfl⟩ := Program.start_inv hst
  rw [program_start] at hstart
  refine ⟨rfl, ?_⟩
  rw [State.setSlot_self]
  rcases startJob_cases hstart with ⟨r, hr, -, -, rfl, rfl⟩ | ⟨r, hr, rfl, rfl⟩ | ⟨_, _, hr, -⟩ <;>
    cases hr
  · exact .reading rfl (fun c hc => (Option.some.inj hc).symm) fun _ h => (by cases h)
  · exact .answered invalidBid rfl (by decide) rfl

/-- **No bid on a row whose current_high_price is NULL is accepted.** -/
theorem not_acceptedAlone {E : Engines} {s : Sys} {i : Nat} {req : BidRequest} {u : Uuid} {a : Auction}
    (hid : Uuid.input req.auctionID = some u) (hf : s.world.db.find u = some a)
    (hnull : a.currentHighPrice = none) : ¬ AcceptedAlone E s i req := by
  rintro ⟨es, s', b, halone, hrun, hb, h201, -, -⟩
  obtain ⟨m, hm, hrun⟩ := Steps.run_cons.mp hrun
  obtain ⟨hworld, hunread⟩ := unread_start hm
  have hkeep : ∀ (t : Sys) (e : Ev) (t' : Sys),
      t.world.db.find u = some a ∧ Unread req (t.slot i) → Alone i e → sysStep E t e = some t' →
      t'.world.db.find u = some a ∧ Unread req (t'.slot i) :=
    fun t e t' hI he hst => hI.2.step hid hI.1 hnull he hst
  rw [← hworld] at hf
  have hend := Steps.run_invariant hkeep ⟨hf, hunread⟩ (Steps.along_of_mem halone) hrun
  cases hend.2 with
  | reading hclient =>
    rw [hb] at hclient
    cases hclient
  | answered c hclient hcode =>
    rw [hb] at hclient
    cases hclient
    exact hcode h201

/-- Such a bid, running alone, is answered 400 after the row read and has changed nothing. -/
theorem unread_refused {E : Engines} {s : Sys} {i : Nat} {req : BidRequest} {u : Uuid} {a : Auction}
    (hidle : (s.slot i).client = .idle) (hvalid : Uuid.validate req.auctionID = true)
    (hamount : amountPattern req.amount = true) (hid : Uuid.input req.auctionID = some u)
    (hf : s.world.db.find u = some a) (hnull : a.currentHighPrice = none) :
    ∃ s', Steps.run (sysStep E) s (.start i (.bid req) :: calls i 1) = some s' ∧
      Answered s' i req notBiddable ∧ s'.world = s.world := by
  have hstart : sysStep E s (.start i (.bid req)) = some (s.setSlot i
      { client := .live (.bid req .selecting), wire := some (.selectRow req.auctionID) }) := by
    simp [Program.step, hidle, startJob, bidStart, hvalid, hamount]
  have hcall : Steps.run (sysStep E) (s.setSlot i
        { client := .live (.bid req .selecting), wire := some (.selectRow req.auctionID) }) (calls i 1) =
      some (s.setSlot i { client := .live (.bid req (.answered notBiddable)), wire := none }) := by
    show Steps.run (program E).step _ (.exec i :: .recv i :: []) = _
    rw [run_call (by rfl), program_exec, exec_selectRow_null E hid hf hnull]
    rfl
  refine ⟨s.setSlot i { client := .live (.bid req (.answered notBiddable)), wire := none }, ?_, ?_, rfl⟩
  · rw [Steps.run, hstart, Option.bind_some]
    exact hcall
  · unfold Answered
    rw [State.setSlot_self]

/-! ## What earlier bids leave -/

/-- A bid, on any auction and under any id text. -/
def IsBid : Job → Prop
  | .bid _ => True
  | .settle _ => False

/-- Bids do not change the database. -/
theorem db_of_bids {E : Engines} {s s' : Sys} (hfresh : s = State.fresh s.world)
    (hr : Steps.Reach (sysStep E) (fun _ e => JobsOn IsBid e) s s') : s'.world.db = s.world.db := by
  refine (Steps.reach_invariant
    (I := fun t : Sys => Sound (termsOf s.world.db) IsBid t ∧ t.world.db = s.world.db)
    (fun t e t' hI he hst => ⟨hI.1.step he hst, ?_⟩) ⟨sound_fresh hfresh, rfl⟩ hr).2
  rcases Program.step_world hst with hw | ⟨d, -, hw⟩ | ⟨i, c, -, hwire, hw⟩ <;> rw [hw]
  · exact hI.2
  · exact hI.2
  · -- no process that runs the transaction has started
    have hne : ∀ id p l, c ≠ .settleTx id p l := by
      rintro id p l rfl
      obtain ⟨q, hq, hwait, -⟩ := (hI.1.2 i).wire _ hwire
      cases hwait with
      | committing job =>
        obtain ⟨⟨v, t, hjob, -⟩, -⟩ := hq
        exact hjob
    rw [program_exec, exec_db hne]
    exact hI.2

/-! ## A valid higher bid -/

/-- The amount is strictly greater than the price, as the script reads the two. -/
def Exceeds (E : Engines) (amount price : String) : Prop :=
  ∃ x y : ℚ, E.tonumber amount = some (.num x) ∧ E.tonumber price = some (.num y) ∧ y < x

/-- In `s`, which earlier bids have reached from the creation of the auction, the request of
the idle client `i` is a valid bid above the current price. -/
structure ValidBid (E : Engines) (s₀ s : Sys) (a : Auction) (i : Nat) (req : BidRequest) : Prop where
  created : ∃ db now input, createAuction E db now a.id true input = .ok (s₀.world.db, a)
  active : a.status = .ACTIVE
  opens : Opens s₀ a.id a
  earlier : Steps.Reach (sysStep E) (fun _ e => JobsOn IsBid e) s₀ s
  idle : (s.slot i).client = .idle
  valid : Uuid.validate req.auctionID = true
  names : Uuid.input req.auctionID = some a.id
  amount : amountPattern req.amount = true
  started : 1000 * a.startTime ≤ s.world.now
  notEnded : s.world.now < 1000 * a.endTime
  higher : Exceeds E req.amount ((s.world.get (priceKey req.auctionID)).getD a.startingPrice.text)

/-- The row is still the inserted one. -/
theorem ValidBid.row {E : Engines} {s₀ s : Sys} {a : Auction} {i : Nat} {req : BidRequest}
    (h : ValidBid E s₀ s a i req) : s.world.db.find a.id = some a ∧ a.currentHighPrice = none := by
  obtain ⟨db, now, input, hc⟩ := h.created
  refine ⟨?_, (createAuction_ok hc).2.2.2.1.currentHighPrice⟩
  rw [db_of_bids h.opens.fresh h.earlier]
  exact h.opens.row

/-- **No valid higher bid on a created auction is accepted.** Running alone it is answered
400 AUCTION_NOT_BIDDABLE, and Redis stays as it was. -/
theorem valid_bid_never_accepted {E : Engines} {s₀ s : Sys} {a : Auction} {i : Nat} {req : BidRequest}
    (h : ValidBid E s₀ s a i req) :
    ¬ AcceptedAlone E s i req ∧
      ∃ s', Steps.run (sysStep E) s (.start i (.bid req) :: calls i 1) = some s' ∧
        Answered s' i req notBiddable ∧ s'.world = s.world := by
  obtain ⟨hf, hnull⟩ := h.row
  exact ⟨not_acceptedAlone h.names hf hnull, unread_refused h.idle h.valid h.amount h.names hf hnull⟩

/-- The lot at 10.00, just created, with no bid yet. -/
def justCreated (db : Db) : Sys :=
  State.fresh { now := 0, db := db, redis := Expiring.Store.empty, published := [], accepted := [] }

theorem newLot_created : ∃ db a,
    createAuction decimalEngines noAuctions 0 (.ofDigit 0) true Ledger.newLot = .ok (db, a) ∧
    a.id = .ofDigit 0 ∧ a.status = .ACTIVE ∧ a.startTime = 0 ∧ a.endTime = 1000000 ∧
    a.startingPrice = ten := by
  have hcheck : (createAuction decimalEngines noAuctions 0 (.ofDigit 0) true Ledger.newLot).toOption.any
      (fun r => decide (r.2.id = .ofDigit 0 ∧ r.2.status = .ACTIVE ∧ r.2.startTime = 0 ∧
        r.2.endTime = 1000000 ∧ r.2.startingPrice = ten)) = true := by
    decide +kernel
  cases hc : createAuction decimalEngines noAuctions 0 (.ofDigit 0) true Ledger.newLot with
  | error b =>
    rw [hc] at hcheck
    cases hcheck
  | ok r =>
    rw [hc] at hcheck
    exact ⟨r.1, r.2, rfl, of_decide_eq_true hcheck⟩

/-- A first bid of 10.50 on it is valid. -/
theorem validBid_newLot {db : Db} {a : Auction}
    (hc : createAuction decimalEngines noAuctions 0 (.ofDigit 0) true Ledger.newLot = .ok (db, a))
    (hid : a.id = .ofDigit 0) (hactive : a.status = .ACTIVE) (hstart : a.startTime = 0)
    (hend : a.endTime = 1000000) (hprice : a.startingPrice = ten) :
    ValidBid decimalEngines (justCreated db) (justCreated db) a 0 (lotBid "10.50" 1) where
  created := ⟨noAuctions, 0, Ledger.newLot, by rw [hid]; exact hc⟩
  active := hactive
  opens :=
    { fresh := rfl
      row := by
        obtain ⟨hauctions, -⟩ := createAuction_ok hc
        exact Db.find_of_mem (hauctions ▸ List.mem_cons_self)
      redis := rfl
      published := rfl
      accepted := rfl }
  earlier := ⟨[], trivial, rfl⟩
  idle := rfl
  valid := by decide +kernel
  names := by rw [hid]; exact Uuid.input_text _
  amount := by decide
  started := by
    rw [hstart]
    show (1000 * 0 : Int) ≤ 0
    decide
  notEnded := by
    rw [hend]
    show (0 : Int) < 1000 * 1000000
    decide
  higher := by
    -- there is no price key, so the current price is the starting price
    have hten : decimalEngines.tonumber ten.text = some (.num (1000 / 100)) := by decide +kernel
    rw [hprice]
    exact ⟨1050 / 100, 1000 / 100, by decide +kernel, hten, by norm_num⟩

theorem valid_bid_never_accepted_newLot : ∃ db a,
    ValidBid decimalEngines (justCreated db) (justCreated db) a 0 (lotBid "10.50" 1) ∧
    ¬ AcceptedAlone decimalEngines (justCreated db) 0 (lotBid "10.50" 1) := by
  obtain ⟨db, a, hc, hid, hactive, hstart, hend, hprice⟩ := newLot_created
  have hvalid := validBid_newLot hc hid hactive hstart hend hprice
  exact ⟨db, a, hvalid, (valid_bid_never_accepted hvalid).1⟩

/-- The law fails on the first bid of the first auction. -/
theorem valid_bid_accepted_fails :
    ¬ ∀ (E : Engines) (s₀ s : Sys) (a : Auction) (i : Nat) (req : BidRequest),
      ValidBid E s₀ s a i req → AcceptedAlone E s i req := by
  intro h
  obtain ⟨db, a, hc, hid, hactive, hstart, hend, hprice⟩ := newLot_created
  have hvalid := validBid_newLot hc hid hactive hstart hend hprice
  obtain ⟨hf, hnull⟩ := hvalid.row
  exact not_acceptedAlone hvalid.names hf hnull (h _ _ _ _ _ _ hvalid)

end Synora
