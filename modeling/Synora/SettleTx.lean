import Synora.Schema

/- The Postgres transaction of `Worker.settle` (worker.go), statement by statement,
   and run as one atomic step (`settleTx`).

   Correspondence (Go ↔ Lean):
     `update auctions set status='CLOSED' …`             ↔ `updateClosed`
     `insert into bids(…) values($1,$2,$3,true) … `      ↔ `insertWinner`
     `update auctions set status='SETTLED' … and status='CLOSED'` ↔ `updateSettled`
     the branches on `price` and `leader`                ↔ `settleRow`
   `now` is `now()` of the transaction, in microseconds. -/
namespace Synora

/-- Why the transaction is rolled back. -/
inductive SettleError where
  | sql (e : PgError)
  /-- `leader exists without price`. -/
  | leaderWithoutPrice
  deriving DecidableEq

/-- What the transaction leaves `settle` with. -/
inductive TxOutcome where
  /-- Committed: `finalStatus`, `priceStr` and `winnerID`. -/
  | committed (finalStatus : AuctionStatus) (priceStr : String) (winnerID : Option String)
  /-- No row, or one that is not ACTIVE: `return nil`. -/
  | skipped
  /-- An error, after which the transaction is rolled back. -/
  | failed (e : SettleError)
  deriving DecidableEq

/-- The columns after `set status='CLOSED', updated_at=now()`. -/
def AuctionRow.closed (r : AuctionRow) (now : Int) : AuctionRow :=
  { r with status := .CLOSED, updatedAt := now }

/-- The columns after `set status='SETTLED', current_high_price=$2, winner_id=$3, updated_at=now()`. -/
def AuctionRow.settled (r : AuctionRow) (now : Int) (price : Numeric) (winner : Uuid) : AuctionRow :=
  { r with
    status := .SETTLED, currentHighPrice := some price, winnerId := some winner, updatedAt := now }

@[simp] theorem AuctionRow.closed_status (r : AuctionRow) (now : Int) :
    (r.closed now).status = .CLOSED := rfl

@[simp] theorem AuctionRow.settled_status (r : AuctionRow) (now : Int) (price : Numeric)
    (winner : Uuid) : (r.settled now price winner).status = .SETTLED := rfl

/-- Settling a closed row is settling the row it was closed from. -/
@[simp] theorem AuctionRow.settled_closed (r : AuctionRow) (now : Int) (price : Numeric)
    (winner : Uuid) : (r.closed now).settled now price winner = r.settled now price winner := rfl

/-- `update auctions set status='CLOSED', updated_at=now() where id=$1`. -/
def updateClosed (db : Db) (now : Int) (id : Uuid) : Except PgError Db :=
  match db.find id with
  | none => .ok db
  | some a => do
    let a' ← checkRow (a.toAuctionRow.closed now)
    db.update a'

/-- The winning insert: the texts are read first. -/
def insertWinner (E : Engines) (db : Db) (id : Uuid) (user price : String) : Except PgError Db :=
  match Uuid.input user, E.numericIn price with
  | some u, some p => db.insertWinningBid id u p
  | _, _ => .error .invalidText

/-- `update auctions set status='SETTLED', current_high_price=$2, winner_id=$3, updated_at=now()
where id=$1 and status='CLOSED'`. -/
def updateSettled (E : Engines) (db : Db) (now : Int) (id : Uuid) (price user : String) :
    Except PgError Db :=
  match E.numericIn price, Uuid.input user with
  | some p, some u =>
    match db.find id with
    | none => .ok db
    | some a =>
      if a.status = .CLOSED then do
        let a' ← checkRow (a.toAuctionRow.settled now p u)
        db.update a'
      else .ok db
  | _, _ => .error .invalidText

/-- A nil value and an empty string count alike for `settle`. -/
def nonEmpty (v : Option String) : Option String := v.filter (fun s => s ≠ "")

/-- What `settle` does with an ACTIVE row it has locked. -/
def settleRow (E : Engines) (db : Db) (now : Int) (id : Uuid) (price leader : Option String) :
    Except SettleError (Db × TxOutcome) := do
  let db ← (updateClosed db now id).mapError .sql
  match nonEmpty price, nonEmpty leader with
  | some priceStr, some user =>
    let db ← (insertWinner E db id user priceStr).mapError .sql
    let db ← (updateSettled E db now id priceStr user).mapError .sql
    return (db, .committed .SETTLED priceStr (some user))
  | some priceStr, none => return (db, .committed .CLOSED priceStr none)
  | none, some _ => throw .leaderWithoutPrice
  | none, none => return (db, .committed .CLOSED "" none)

/-- The whole transaction on the row named by `id`. -/
def settleTx (E : Engines) (db : Db) (now : Int) (id : String) (price leader : Option String) :
    Db × TxOutcome :=
  match Uuid.input id with
  | none => (db, .failed (.sql .invalidText))
  | some u =>
    match db.find u with
    | none => (db, .skipped)
    | some a =>
      if a.status = .ACTIVE then
        match settleRow E db now u price leader with
        | .ok r => r
        | .error e => (db, .failed e)
      else (db, .skipped)

/-! ## What the statements do -/

/-- `db'` is `db` with the columns of one row rewritten. -/
structure Rewrites (db db' : Db) (id : Uuid) (r : AuctionRow) : Prop where
  users : db'.users = db.users
  bids : db'.bids = db.bids
  row : ∃ a, db'.find id = some a ∧ a.toAuctionRow = r
  others : ∀ j, j ≠ id → db'.find j = db.find j

/-- Admitting and writing a row with the id of a row that is there. -/
theorem rewrites_of_update {db db' : Db} {id : Uuid} {a : Auction} {r : AuctionRow}
    (hf : db.find id = some a) (hid : r.id = id)
    (h : (do let a' ← checkRow r; db.update a' : Except PgError Db) = .ok db') : Rewrites db db' id r := by
  cases ha : checkRow r with
  | error e => rw [ha] at h; cases h
  | ok a' =>
    rw [ha] at h
    have hu : db.update a' = .ok db' := h
    have hrow := checkRow_ok ha
    have hid' : a'.id = id := by rw [hrow]; exact hid
    obtain ⟨h1, h2, -⟩ := Db.update_ok hu
    refine ⟨h1, h2, ⟨a', ?_, hrow⟩, fun j hj => Db.find_update_ne hu (hid' ▸ hj)⟩
    have := Db.find_update_self hu (b := a) (hid' ▸ hf)
    rwa [hid'] at this

theorem updateClosed_ok {db db' : Db} {now : Int} {id : Uuid} {a : Auction}
    (hf : db.find id = some a) (h : updateClosed db now id = .ok db') :
    Rewrites db db' id (a.toAuctionRow.closed now) := by
  unfold updateClosed at h
  rw [hf] at h
  exact rewrites_of_update hf (Db.find_id hf) h

theorem updateSettled_ok {E : Engines} {db db' : Db} {now : Int} {id : Uuid} {price user : String}
    {a : Auction} (hf : db.find id = some a) (hs : a.status = .CLOSED)
    (h : updateSettled E db now id price user = .ok db') :
    ∃ p u, E.numericIn price = some p ∧ Uuid.input user = some u ∧
      Rewrites db db' id (a.toAuctionRow.settled now p u) := by
  unfold updateSettled at h
  split at h
  · rename_i p u hp hu
    rw [hf] at h
    simp only [hs, if_true] at h
    exact ⟨p, u, hp, hu, rewrites_of_update hf (Db.find_id hf) h⟩
  · cases h

theorem insertWinner_ok {E : Engines} {db db' : Db} {id : Uuid} {user price : String}
    (h : insertWinner E db id user price = .ok db') :
    ∃ u p, Uuid.input user = some u ∧ E.numericIn price = some p ∧
      db.insertWinningBid id u p = .ok db' := by
  unfold insertWinner at h
  split at h
  · rename_i u p hu hp
    exact ⟨u, p, hu, hp, h⟩
  · cases h

theorem mapError_ok {ε ε' α : Type} {x : Except ε α} {f : ε → ε'} {a : α}
    (h : x.mapError f = .ok a) : x = .ok a := by
  cases x with
  | error e => cases h
  | ok b => cases h; rfl

/-- A committed transaction with winner `u` at price `p`. -/
structure SettledBy (db db' : Db) (now : Int) (id : Uuid) (a : Auction) (u : Uuid) (p : Numeric) :
    Prop where
  users : db'.users = db.users
  row : ∃ a', db'.find id = some a' ∧ a'.toAuctionRow = a.toAuctionRow.settled now p u
  others : ∀ j, j ≠ id → db'.find j = db.find j
  bids : (∃ b : Bid, b.auctionId = id ∧ b.userId = u ∧ b.amount = p ∧ b.isWinningBid = true ∧
      db'.bids = db.bids ++ [b] ∧ winners db.bids id = []) ∨
    (db'.bids = db.bids ∧ winners db.bids id ≠ [])

/-- **What the locked part of the transaction does.** -/
theorem settleRow_ok {E : Engines} {db db' : Db} {now : Int} {id : Uuid} {price leader : Option String}
    {a : Auction} {o : TxOutcome} (hf : db.find id = some a)
    (h : settleRow E db now id price leader = .ok (db', o)) :
    (nonEmpty leader = none ∧ o = .committed .CLOSED ((nonEmpty price).getD "") none ∧
      Rewrites db db' id (a.toAuctionRow.closed now)) ∨
    (∃ ps us u p, nonEmpty price = some ps ∧ nonEmpty leader = some us ∧
      Uuid.input us = some u ∧ E.numericIn ps = some p ∧
      o = .committed .SETTLED ps (some us) ∧ SettledBy db db' now id a u p) := by
  unfold settleRow at h
  cases h1 : (updateClosed db now id).mapError SettleError.sql with
  | error e => rw [h1] at h; cases h
  | ok db₁ =>
    rw [h1] at h
    have hr₁ := updateClosed_ok hf (mapError_ok h1)
    cases hp : nonEmpty price with
    | none =>
      cases hl : nonEmpty leader with
      | none =>
        rw [hp, hl] at h
        cases h
        exact .inl ⟨rfl, rfl, hr₁⟩
      | some us => rw [hp, hl] at h; cases h
    | some ps =>
      cases hl : nonEmpty leader with
      | none =>
        rw [hp, hl] at h
        cases h
        exact .inl ⟨rfl, rfl, hr₁⟩
      | some us =>
        rw [hp, hl] at h
        cases h2 : (insertWinner E db₁ id us ps).mapError SettleError.sql with
        | error e => simp [h2, bind, Except.bind] at h
        | ok db₂ =>
          cases h3 : (updateSettled E db₂ now id ps us).mapError SettleError.sql with
          | error e => simp [h2, h3, bind, Except.bind] at h
          | ok db₃ =>
            simp only [h2, h3, bind, Except.bind, pure, Except.pure, Except.ok.injEq,
              Prod.mk.injEq] at h
            obtain ⟨rfl, rfl⟩ := h
            obtain ⟨u, p, hu, hn, hins⟩ := insertWinner_ok (mapError_ok h2)
            obtain ⟨iu, ia, ib⟩ := Db.insertWinningBid_ok hins
            obtain ⟨a₁, hf₁, ha₁⟩ := hr₁.row
            have hfind : ∀ j, db₂.find j = db₁.find j := fun j => by unfold Db.find; rw [ia]
            have hs₁ : a₁.status = .CLOSED := by rw [ha₁, AuctionRow.closed_status]
            obtain ⟨p', u', hn', hu', hr₃⟩ :=
              updateSettled_ok (by rw [hfind]; exact hf₁) hs₁ (mapError_ok h3)
            rw [hn] at hn'
            rw [hu] at hu'
            cases hn'
            cases hu'
            refine .inr ⟨ps, us, u, p, rfl, rfl, hu, hn, rfl, ?_⟩
            refine ⟨hr₃.users.trans (iu.trans hr₁.users), ?_, fun j hj => ?_, ?_⟩
            · obtain ⟨a₃, hf₃, ha₃⟩ := hr₃.row
              exact ⟨a₃, hf₃, by rw [ha₃, ha₁, AuctionRow.settled_closed]⟩
            · rw [hr₃.others j hj, hfind, hr₁.others j hj]
            · rw [hr₃.bids]
              rw [hr₁.bids] at ib
              rcases ib with ⟨b, hb1, hb2, hb3, hb4, hb5, hb6⟩ | ⟨hb, hw⟩
              · exact .inl ⟨b, hb1, hb2, hb3, hb4, hb5, hb6⟩
              · exact .inr ⟨by rw [hb, hr₁.bids], hw⟩

/-- **What the transaction does.** It leaves the database as it is, closes an ACTIVE row, or
settles it with the price and the leader it was given. -/
theorem settleTx_cases (E : Engines) (db : Db) (now : Int) (id : String) (price leader : Option String) :
    (∃ e, settleTx E db now id price leader = (db, .failed e)) ∨
    (settleTx E db now id price leader = (db, .skipped) ∧
      ∀ u a, Uuid.input id = some u → db.find u = some a → a.status ≠ .ACTIVE) ∨
    (∃ u a, Uuid.input id = some u ∧ db.find u = some a ∧ a.status = .ACTIVE ∧
      ((nonEmpty leader = none ∧
        (settleTx E db now id price leader).2 = .committed .CLOSED ((nonEmpty price).getD "") none ∧
        Rewrites db (settleTx E db now id price leader).1 u (a.toAuctionRow.closed now)) ∨
      (∃ ps us w p, nonEmpty price = some ps ∧ nonEmpty leader = some us ∧
        Uuid.input us = some w ∧ E.numericIn ps = some p ∧
        (settleTx E db now id price leader).2 = .committed .SETTLED ps (some us) ∧
        SettledBy db (settleTx E db now id price leader).1 now u a w p))) := by
  unfold settleTx
  split
  · exact .inl ⟨_, rfl⟩
  · rename_i u hu
    split
    · rename_i hf
      refine .inr (.inl ⟨rfl, fun v a hv ha => ?_⟩)
      rw [hu] at hv
      cases hv
      rw [hf] at ha
      cases ha
    · rename_i a hf
      split
      · rename_i hs
        split
        · rename_i r hr
          exact .inr (.inr ⟨u, a, hu, hf, hs, settleRow_ok hf hr⟩)
        · exact .inl ⟨_, rfl⟩
      · rename_i hs
        refine .inr (.inl ⟨rfl, fun v b hv hb => ?_⟩)
        rw [hu] at hv
        cases hv
        rw [hf] at hb
        cases hb
        exact hs

/-! ## When it commits -/

/-- Closing an ACTIVE row violates no CHECK, unless the clock is behind its creation. -/
theorem checks_closed {a : Auction} {now : Int} (hact : a.status = .ACTIVE) :
    (a.toAuctionRow.closed now).Checks ↔ a.createdAt ≤ now := by
  constructor
  · intro h
    exact h.updatedAtAfterCreatedAt
  · intro h
    exact
      { itemTitleNotBlank := a.checks.itemTitleNotBlank
        startingPricePositive := a.checks.startingPricePositive
        currentHighPriceValid := a.checks.currentHighPriceValid
        endAfterStart := a.checks.endAfterStart
        updatedAtAfterCreatedAt := h
        settlementStateConsistent := fun hs => by cases hs
        winnerOnlyWhenSettled := fun hw => by
          have := a.checks.winnerOnlyWhenSettled hw
          rw [hact] at this
          cases this }

/-- Settling a row needs a price that is not below its starting price. -/
theorem checks_settled {a : Auction} {now : Int} {p : Numeric} {u : Uuid} (h : a.createdAt ≤ now) :
    (a.toAuctionRow.settled now p u).Checks ↔ a.startingPrice.le p = true := by
  constructor
  · intro hc
    exact hc.currentHighPriceValid p rfl
  · intro hp
    exact
      { itemTitleNotBlank := a.checks.itemTitleNotBlank
        startingPricePositive := a.checks.startingPricePositive
        currentHighPriceValid := fun q hq => by
          cases hq
          exact hp
        endAfterStart := a.checks.endAfterStart
        updatedAtAfterCreatedAt := h
        settlementStateConsistent := fun _ => ⟨rfl, rfl⟩
        winnerOnlyWhenSettled := fun _ => rfl }

/-- A write of an admitted row with known winner succeeds. -/
theorem write_of_checks {db : Db} {r : AuctionRow} (hc : r.Checks) (hw : ∀ u ∈ r.winnerId, u ∈ db.users) :
    ∃ db', (do let a' ← checkRow r; db.update a' : Except PgError Db) = .ok db' := by
  rw [checkRow_of_checks hc]
  exact Db.update_of_fk (a := ⟨r, hc⟩) hw

theorem updateClosed_commits {db : Db} {now : Int} {id : Uuid} {a : Auction}
    (hf : db.find id = some a) (hact : a.status = .ACTIVE) (h : a.createdAt ≤ now) :
    ∃ db', updateClosed db now id = .ok db' := by
  unfold updateClosed
  rw [hf]
  refine write_of_checks ((checks_closed hact).mpr h) fun u hu => ?_
  exact db.winnerFk a (Db.find_mem hf) u hu

theorem Db.insertWinningBid_commits {db : Db} {id v : Uuid} {amount : Numeric} {a : Auction}
    (hf : db.find id = some a) (hp : amount.positive = true) (hu : v ∈ db.users) :
    ∃ db', db.insertWinningBid id v amount = .ok db' := by
  have hid : id ∈ db.auctions.map (fun a => a.id) :=
    List.mem_map.mpr ⟨a, Db.find_mem hf, Db.find_id hf⟩
  unfold Db.insertWinningBid
  rw [dif_pos hp]
  split
  · exact ⟨_, dif_pos ⟨hid, hu⟩⟩
  · exact ⟨db, rfl⟩

/-- A price not below a positive one is positive. -/
theorem Numeric.positive_of_le {a b : Numeric} (ha : a.positive = true) (h : a.le b = true) :
    b.positive = true := by
  cases b with
  | nan => rfl
  | cents n hn =>
    cases a with
    | nan => cases h
    | cents m hm =>
      simp only [Numeric.le, Numeric.positive, decide_eq_true_eq] at *
      omega

/-- What the transaction needs of the values read: with a leader, the two texts denote a known
user and a price that is not below the starting price. -/
def Settleable (E : Engines) (users : List Uuid) (starting : Numeric) (price leader : Option String) :
    Prop :=
  ∀ us, nonEmpty leader = some us → ∃ ps p u, nonEmpty price = some ps ∧ E.numericIn ps = some p ∧
    Uuid.input us = some u ∧ starting.le p = true ∧ u ∈ users

theorem settleRow_commits {E : Engines} {db : Db} {now : Int} {id : Uuid} {price leader : Option String}
    {a : Auction} (hf : db.find id = some a) (hact : a.status = .ACTIVE) (hnow : a.createdAt ≤ now)
    (h : Settleable E db.users a.startingPrice price leader) :
    ∃ db' o, settleRow E db now id price leader = .ok (db', o) := by
  obtain ⟨db₁, h₁⟩ := updateClosed_commits hf hact hnow
  have hr₁ := updateClosed_ok hf h₁
  obtain ⟨a₁, hf₁, ha₁⟩ := hr₁.row
  unfold settleRow
  rw [h₁]
  cases hl : nonEmpty leader with
  | none => cases hp : nonEmpty price <;> exact ⟨_, _, rfl⟩
  | some us =>
    obtain ⟨ps, p, u, hps, hnum, hin, hle, hu⟩ := h us hl
    have hpos := Numeric.positive_of_le a.checks.startingPricePositive hle
    obtain ⟨db₂, h₂⟩ := Db.insertWinningBid_commits (v := u) hf₁ hpos (hr₁.users ▸ hu)
    have hins : insertWinner E db₁ id us ps = .ok db₂ := by
      simp [insertWinner, hin, hnum, h₂]
    obtain ⟨iu, ia, -⟩ := Db.insertWinningBid_ok h₂
    have hf₂ : db₂.find id = some a₁ := by
      unfold Db.find at *
      rw [ia]
      exact hf₁
    obtain ⟨db₃, h₃⟩ : ∃ db₃, updateSettled E db₂ now id ps us = .ok db₃ := by
      unfold updateSettled
      have hs : a₁.status = .CLOSED := by rw [ha₁, AuctionRow.closed_status]
      simp only [hnum, hin, hf₂, hs, if_true]
      rw [ha₁, AuctionRow.settled_closed]
      refine write_of_checks ((checks_settled hnow).mpr hle) fun w hw => ?_
      cases hw
      rw [iu, hr₁.users]
      exact hu
    rw [hps]
    exact ⟨db₃, .committed .SETTLED ps (some us),
      by simp [hins, h₃, bind, Except.bind, Except.mapError, pure, Except.pure]⟩

/-- **Exactly when the transaction commits** on an ACTIVE row. -/
theorem settleTx_commits_iff {E : Engines} {db : Db} {now : Int} {u : Uuid} {price leader : Option String}
    {a : Auction} (hf : db.find u = some a) (hact : a.status = .ACTIVE) :
    (∃ st ps wid, (settleTx E db now u.text price leader).2 = .committed st ps wid) ↔
      a.createdAt ≤ now ∧ Settleable E db.users a.startingPrice price leader := by
  constructor
  · rintro ⟨st, ps, wid, ho⟩
    rcases settleTx_cases E db now u.text price leader with
      ⟨e, he⟩ | ⟨he, -⟩ | ⟨v, b, hv, hb, -, ⟨hl, -, hr⟩ | ⟨ps', us, w, p, hps, hus, hw, hp, -, hr⟩⟩
    · rw [he] at ho; cases ho
    · rw [he] at ho; cases ho
    · rw [Uuid.input_text] at hv
      cases hv
      rw [hf] at hb
      cases hb
      obtain ⟨a', -, ha'⟩ := hr.row
      refine ⟨(checks_closed hact).mp (ha' ▸ a'.checks), fun us hus => ?_⟩
      rw [hl] at hus
      cases hus
    · rw [Uuid.input_text] at hv
      cases hv
      rw [hf] at hb
      cases hb
      obtain ⟨a', hf', ha'⟩ := hr.row
      have hnow : a.createdAt ≤ now := by
        have := a'.checks.updatedAtAfterCreatedAt
        rw [ha'] at this
        exact this
      refine ⟨hnow, fun us' hus' => ?_⟩
      rw [hus] at hus'
      cases hus'
      refine ⟨ps', p, w, hps, hp, hw, (checks_settled (u := w) hnow).mp (ha' ▸ a'.checks), ?_⟩
      rw [← hr.users]
      refine (settleTx E db now u.text price leader).1.winnerFk a' (Db.find_mem hf') w ?_
      rw [ha']
      rfl
  · rintro ⟨hnow, hs⟩
    obtain ⟨db', o, hrow⟩ := settleRow_commits hf hact hnow hs
    have htx : settleTx E db now u.text price leader = (db', o) := by
      simp [settleTx, hf, hact, hrow]
    rw [htx]
    rcases settleRow_ok hf hrow with ⟨-, rfl, -⟩ | ⟨_, _, _, _, -, -, -, -, rfl, -⟩
    · exact ⟨_, _, _, rfl⟩
    · exact ⟨_, _, _, rfl⟩

end Synora
