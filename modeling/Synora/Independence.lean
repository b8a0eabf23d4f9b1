import Synora.Lib.Apart
import Synora.Pagination
import Synora.Spelling

/- The auctions do not disturb each other. Everything a bid handler or a worker asks
   of the two servers names one auction, by its id text: the row and the ledger rows
   of its UUID, and the keys made of the text. So for the auction `u` the clients of
   the other auctions can be left out of a run: its row, its winners, its keys and
   messages are the same, and so is what its bidders are answered
   (`auctions_independent`). All that is shared is the clock and the users. -/
namespace Synora

open Calls Expiring

/-! ## What a request is about -/

/-- The requests that are made of an id text. -/
inductive Cmd.Of (id : String) : Cmd → Prop
  | selectRow : Cmd.Of id (.selectRow id)
  | settleTx (p l : Option String) : Cmd.Of id (.settleTx id p l)
  | setNX (value : String) : Cmd.Of id (.setNX (priceKey id) value)
  | set (value : String) (ttl : Ttl) : Cmd.Of id (.set (statusKey id) value ttl)
  | evalBid (amount user : String) (placed ttl : Int) :
    Cmd.Of id (.evalBid id amount user (.priceUpdate id amount placed) ttl)
  | mget : Cmd.Of id (.mget (priceKey id) (leaderKey id))
  | publish (st : AuctionStatus) (ps : String) (wid : Option String) :
    Cmd.Of id (.publish (updatesChannel id) (.settlement id st ps wid))
  | del : Cmd.Of id (.del (priceKey id) (leaderKey id))

theorem Waits.of {p : Proc} {c : Cmd} (h : Waits p c) : Cmd.Of p.auctionId c := by
  cases h with
  | selecting => exact .selectRow
  | initializing => exact .setNX _
  | arming => exact .set _ _
  | scripting => exact .evalBid _ _ _ _
  | reading => exact .mget
  | committing => exact .settleTx _ _
  | caching => exact .set _ _
  | publishing => exact .publish _ _ _
  | deleting => exact .del

/-- The Redis keys of an id text. -/
def stored (id : String) : List String := [priceKey id, leaderKey id, statusKey id]

/-- Different texts have different keys. -/
theorem not_stored {a b k : String} (hne : a ≠ b) (h : k ∈ stored a) : k ∉ stored b := by
  simp only [stored, List.mem_cons, List.not_mem_nil, or_false] at h ⊢
  have hp : priceKey a ≠ priceKey b := fun h => hne (priceKey_injective h)
  have hl : leaderKey a ≠ leaderKey b := fun h => hne (leaderKey_injective h)
  have hs : statusKey a ≠ statusKey b := fun h => hne (statusKey_injective h)
  rcases h with rfl | rfl | rfl <;> simp [hp, hl, hs]

/-- The id text of a message. -/
def Message.auctionId : Message → String
  | .priceUpdate id _ _ => id
  | .settlement id _ _ _ => id

/-! ## One auction of a database -/

/-- Two databases with the same row and ledger of an auction, and the same users. -/
structure SameRow (u : Uuid) (db db' : Db) : Prop where
  users : db'.users = db.users
  row : db'.find u = db.find u
  ledger : db'.bids.filter (fun b => decide (b.auctionId = u)) =
    db.bids.filter fun b => decide (b.auctionId = u)

/-- Two results of a statement: the same error, or databases with the same row. -/
inductive SameResult (u : Uuid) {ε : Type} : Except ε Db → Except ε Db → Prop
  | error (e : ε) : SameResult u (.error e) (.error e)
  | ok (db db' : Db) (h : SameRow u db db') : SameResult u (.ok db) (.ok db')

theorem SameResult.mapError {u : Uuid} {ε ε' : Type} {x y : Except ε Db} (f : ε → ε') (h : SameResult u x y) :
    SameResult u (x.mapError f) (y.mapError f) := by
  cases h with
  | error e => exact .error (f e)
  | ok db db' h => exact .ok db db' h

/-- The winners of an auction are among its ledger rows. -/
theorem winners_eq_ledger (bids : List Bid) (u : Uuid) :
    winners bids u = (bids.filter fun b => decide (b.auctionId = u)).filter fun b => b.isWinningBid := by
  rw [winners, List.filter_filter]

theorem mem_ids_iff_find {db : Db} {u : Uuid} :
    u ∈ db.auctions.map (fun a => a.id) ↔ (db.find u).isSome = true := by
  rw [Db.find, List.find?_isSome, List.mem_map]
  simp

section
variable {u : Uuid} {db db' : Db}

/-- The same row is written over the auction. -/
theorem SameRow.update (h : SameRow u db db') {a b : Auction} (hb : db.find u = some b) (hid : a.id = u) :
    SameResult u (db.update a) (db'.update a) := by
  subst hid
  have hb' : db'.find a.id = some b := h.row.trans hb
  by_cases hw : ∀ w ∈ a.winnerId, w ∈ db.users
  · have hw' : ∀ w ∈ a.winnerId, w ∈ db'.users := fun w hmem => h.users ▸ hw w hmem
    obtain ⟨db₁, h₁⟩ := Db.update_of_fk hw
    obtain ⟨db₂, h₂⟩ := Db.update_of_fk hw'
    obtain ⟨hu₁, hl₁, -⟩ := Db.update_ok h₁
    obtain ⟨hu₂, hl₂, -⟩ := Db.update_ok h₂
    rw [h₁, h₂]
    refine .ok _ _ ⟨by rw [hu₁, hu₂, h.users], ?_, by rw [hl₁, hl₂, h.ledger]⟩
    rw [Db.find_update_self h₁ hb, Db.find_update_self h₂ hb']
  · have hw' : ¬ ∀ w ∈ a.winnerId, w ∈ db'.users := fun hall => hw fun w hmem => h.users ▸ hall w hmem
    simp only [Db.update, dif_neg hw, dif_neg hw']
    exact .error _

/-- The same columns are admitted and written. -/
theorem SameRow.write (h : SameRow u db db') {b : Auction} {r : AuctionRow} (hb : db.find u = some b)
    (hid : r.id = u) :
    SameResult u (do let a ← checkRow r; db.update a) (do let a ← checkRow r; db'.update a) := by
  cases hr : checkRow r with
  | error e => exact .error e
  | ok a => exact h.update hb (by rw [checkRow_ok hr]; exact hid)

theorem SameRow.updateClosed (h : SameRow u db db') (now : Int) :
    SameResult u (updateClosed db now u) (updateClosed db' now u) := by
  unfold Synora.updateClosed
  rw [h.row]
  cases hf : db.find u with
  | none => exact .ok _ _ h
  | some a => exact h.write hf (Db.find_id hf)

theorem SameRow.updateSettled (h : SameRow u db db') (E : Engines) (now : Int) (price user : String) :
    SameResult u (updateSettled E db now u price user) (updateSettled E db' now u price user) := by
  unfold Synora.updateSettled
  rw [h.row]
  split
  · cases hf : db.find u with
    | none => exact .ok _ _ h
    | some a =>
      simp only
      split
      · exact h.write hf (Db.find_id hf)
      · exact .ok _ _ h
  · exact .error _

/-- The winner goes into both ledgers, or is refused for the same reason. -/
theorem SameRow.insertWinningBid (h : SameRow u db db') (user : Uuid) (amount : Numeric) :
    SameResult u (db.insertWinningBid u user amount) (db'.insertWinningBid u user amount) := by
  have hwinners : winners db'.bids u = winners db.bids u := by
    rw [winners_eq_ledger, winners_eq_ledger, h.ledger]
  have hfk : (u ∈ db'.auctions.map (fun a => a.id) ∧ user ∈ db'.users) ↔
      (u ∈ db.auctions.map (fun a => a.id) ∧ user ∈ db.users) := by
    rw [mem_ids_iff_find, mem_ids_iff_find, h.row, h.users]
  unfold Db.insertWinningBid
  split
  · by_cases hw : (winners db.bids u).length = 0
    · have hw' : (winners db'.bids u).length = 0 := by rw [hwinners]; exact hw
      rw [dif_pos hw, dif_pos hw']
      by_cases hf : u ∈ db.auctions.map (fun a => a.id) ∧ user ∈ db.users
      · rw [dif_pos hf, dif_pos (hfk.mpr hf)]
        exact .ok _ _ ⟨h.users, h.row, by simp only [List.filter_append, h.ledger]⟩
      · rw [dif_neg hf, dif_neg (fun hf' => hf (hfk.mp hf'))]
        exact .error _
    · have hw' : ¬ (winners db'.bids u).length = 0 := by rw [hwinners]; exact hw
      rw [dif_neg hw, dif_neg hw']
      exact .ok _ _ h
  · exact .error _

theorem SameRow.insertWinner (h : SameRow u db db') (E : Engines) (user price : String) :
    SameResult u (insertWinner E db u user price) (insertWinner E db' u user price) := by
  unfold Synora.insertWinner
  split
  · exact h.insertWinningBid _ _
  · exact .error _

/-- **The transaction depends on its auction only.** -/
theorem SameRow.settleRow (h : SameRow u db db') (E : Engines) (now : Int) (price leader : Option String) :
    (∃ e, settleRow E db now u price leader = .error e ∧ settleRow E db' now u price leader = .error e) ∨
    ∃ db₁ db₂ o, settleRow E db now u price leader = .ok (db₁, o) ∧
      settleRow E db' now u price leader = .ok (db₂, o) ∧ SameRow u db₁ db₂ := by
  unfold Synora.settleRow
  have hclosed := (h.updateClosed now).mapError SettleError.sql
  generalize (Synora.updateClosed db now u).mapError SettleError.sql = x at hclosed
  generalize (Synora.updateClosed db' now u).mapError SettleError.sql = y at hclosed
  cases hclosed with
  | error e => exact .inl ⟨e, rfl, rfl⟩
  | ok d d' hd =>
    cases nonEmpty price with
    | none =>
      cases nonEmpty leader with
      | none => exact .inr ⟨d, d', _, rfl, rfl, hd⟩
      | some us => exact .inl ⟨_, rfl, rfl⟩
    | some ps =>
      cases nonEmpty leader with
      | none => exact .inr ⟨d, d', _, rfl, rfl, hd⟩
      | some us =>
        have hins := (hd.insertWinner E us ps).mapError SettleError.sql
        simp only [bind, Except.bind]
        generalize (Synora.insertWinner E d u us ps).mapError SettleError.sql = x at hins
        generalize (Synora.insertWinner E d' u us ps).mapError SettleError.sql = y at hins
        cases hins with
        | error e => exact .inl ⟨e, rfl, rfl⟩
        | ok f f' hf =>
          have hset := (hf.updateSettled E now ps us).mapError SettleError.sql
          simp only
          generalize (Synora.updateSettled E f now u ps us).mapError SettleError.sql = x at hset
          generalize (Synora.updateSettled E f' now u ps us).mapError SettleError.sql = y at hset
          cases hset with
          | error e => exact .inl ⟨e, rfl, rfl⟩
          | ok g g' hg => exact .inr ⟨g, g', _, rfl, rfl, hg⟩

theorem SameRow.settleTx (h : SameRow u db db') (E : Engines) (now : Int) {id : String}
    (hid : Uuid.input id = some u) (price leader : Option String) :
    (settleTx E db' now id price leader).2 = (settleTx E db now id price leader).2 ∧
      SameRow u (settleTx E db now id price leader).1 (settleTx E db' now id price leader).1 := by
  unfold Synora.settleTx
  rw [hid]
  simp only [h.row]
  cases db.find u with
  | none => exact ⟨rfl, h⟩
  | some a =>
    simp only
    split
    · rcases h.settleRow E now price leader with ⟨e, he, he'⟩ | ⟨d, d', o, hd, hd', hsame⟩
      · rw [he, he']
        exact ⟨rfl, h⟩
      · rw [hd, hd']
        exact ⟨rfl, hsame⟩
    · exact ⟨rfl, h⟩

/-- A transaction on another auction. -/
theorem settleTx_other (E : Engines) (db : Db) (now : Int) {id : String} (hid : Uuid.input id ≠ some u)
    (price leader : Option String) : SameRow u (settleTx E db now id price leader).1 db := by
  rcases settleTx_cases E db now id price leader with
    ⟨e, h⟩ | ⟨h, -⟩ | ⟨v, a, hv, -, -, ⟨-, -, hr⟩ | ⟨ps, us, x, p, -, -, -, -, -, hr⟩⟩
  · rw [h]
    exact ⟨rfl, rfl, rfl⟩
  · rw [h]
    exact ⟨rfl, rfl, rfl⟩
  all_goals have hne : u ≠ v := fun h => hid (h ▸ hv)
  · exact ⟨hr.users.symm, (hr.others u hne).symm, by rw [hr.bids]⟩
  · refine ⟨hr.users.symm, (hr.others u hne).symm, ?_⟩
    rcases hr.bids with ⟨b, hb, -, -, -, hbids, -⟩ | ⟨hbids, -⟩
    · have hout : decide (b.auctionId = u) = false := decide_eq_false (hb ▸ hne.symm)
      rw [hbids, List.filter_append, List.filter_singleton, hout]
      exact (List.append_nil _).symm
    · rw [hbids]

end

/-! ## One auction of the world -/

/-- A message is about the auction, under some text of its id. -/
def toldOf (u : Uuid) (m : String × Message) : Bool := decide (Uuid.input m.2.auctionId = some u)

/-- A bid on the auction was accepted. -/
def wonOf (u : Uuid) (x : Acceptance) : Bool := decide (Uuid.input x.auctionId = some u)

/-- Two worlds that show the same of an auction, under every text of its id. -/
structure SameAuction (u : Uuid) (w v : World) : Prop where
  now : v.now = w.now
  row : SameRow u w.db v.db
  keys : ∀ id, Uuid.input id = some u → ∀ k ∈ stored id, v.redis k = w.redis k
  published : v.published.filter (toldOf u) = w.published.filter (toldOf u)
  accepted : v.accepted.filter (wonOf u) = w.accepted.filter (wonOf u)

theorem SameAuction.refl (u : Uuid) (w : World) : SameAuction u w w :=
  ⟨rfl, ⟨rfl, rfl, rfl⟩, fun _ _ _ _ => rfl, rfl, rfl⟩

section
variable {r r' : Redis} {k l : String}

theorem put_congr (e : Entry String) (h : r' l = r l) : (r'.put k e) l = (r.put k e) l := by
  simp only [Store.put, h]

theorem del_congr (h : r' l = r l) : (r'.del k) l = (r.del k) l := by
  simp only [Store.del, h]

theorem entry_congr (t : Int) (h : r' k = r k) : r'.entry t k = r.entry t k := by
  simp only [Store.entry, h]

theorem putNX_congr (t : Int) (v : String) (hk : r' k = r k) (h : r' l = r l) :
    (r'.putNX t k v) l = (r.putNX t k v) l := by
  simp only [Store.putNX, entry_congr t hk]
  cases r.entry t k with
  | some e => exact h
  | none => exact put_congr _ h

theorem set_congr (t : Int) (v : String) (ttl : Ttl) (hk : r' k = r k) (h : r' l = r l) :
    (r'.set t k v ttl) l = (r.set t k v ttl) l := by
  cases ttl with
  | keep =>
    simp only [Redis.set, entry_congr t hk]
    exact put_congr _ h
  | _ => exact put_congr _ h

theorem put_ne (e : Entry String) (h : l ≠ k) : (r.put k e) l = r l := if_neg h

theorem del_ne (h : l ≠ k) : (r.del k) l = r l := if_neg h

theorem putNX_ne (t : Int) (v : String) (h : l ≠ k) : (r.putNX t k v) l = r l := by
  simp only [Store.putNX]
  cases r.entry t k with
  | some e => rfl
  | none => exact put_ne _ h

theorem set_ne (t : Int) (v : String) (ttl : Ttl) (h : l ≠ k) : (r.set t k v ttl) l = r l := by
  cases ttl <;> exact put_ne _ h

/-- The script decides by the status and the price. -/
theorem bidScript_congr (E : Engines) (t ttl : Int) (id amount user : String)
    (hs : r' (statusKey id) = r (statusKey id)) (hp : r' (priceKey id) = r (priceKey id)) :
    (bidScript E r' t id amount user ttl = bidScript E r t id amount user ttl ∧
      ∀ x, bidScript E r t id amount user ttl ≠ .accepted x) ∨
    (bidScript E r t id amount user ttl = .accepted (writeLead r t id amount user ttl) ∧
      bidScript E r' t id amount user ttl = .accepted (writeLead r' t id amount user ttl)) := by
  have hstatus : r'.get t (statusKey id) = r.get t (statusKey id) := by
    rw [Store.get, Store.get, entry_congr t hs]
  have hprice : r'.get t (priceKey id) = r.get t (priceKey id) := by
    rw [Store.get, Store.get, entry_congr t hp]
  unfold bidScript
  rw [hstatus, hprice]
  split
  · exact .inl ⟨rfl, fun _ h => by cases h⟩
  · split
    · split
      · exact .inr ⟨rfl, rfl⟩
      · exact .inl ⟨rfl, fun _ h => by cases h⟩
    · split
      · split
        · exact .inl ⟨rfl, fun _ h => by cases h⟩
        · split
          · exact .inr ⟨rfl, rfl⟩
          · exact .inl ⟨rfl, fun _ h => by cases h⟩
      · exact .inl ⟨rfl, fun _ h => by cases h⟩

end

/-- What is counted on both sides is added on both. -/
theorem both_cons {α : Type} {p : α → Bool} {a : α} {xs ys : List α} (ha : p a = true)
    (h : xs.filter p = ys.filter p) : (a :: xs).filter p = (a :: ys).filter p := by
  rw [List.filter_cons_of_pos ha, List.filter_cons_of_pos ha, h]

theorem skip_cons {α : Type} {p : α → Bool} {a : α} {xs ys : List α} (ha : p a = false)
    (h : xs.filter p = ys.filter p) : xs.filter p = (a :: ys).filter p := by
  rw [List.filter_cons_of_neg (by simp [ha]), h]

/-- A request leaves the keys of other texts alone. -/
theorem exec_redis_ne (E : Engines) (w : World) {id l : String} {c : Cmd} (hc : Cmd.Of id c)
    (hl : l ∉ stored id) : (exec E w c).1.redis l = w.redis l := by
  simp only [stored, List.mem_cons, List.not_mem_nil, or_false, not_or] at hl
  obtain ⟨hprice, hleader, hstatus⟩ := hl
  cases hc with
  | selectRow => rw [exec_selectRow_world]
  | settleTx p l => rfl
  | setNX v => exact putNX_ne _ v hprice
  | set v ttl => exact set_ne _ v ttl hstatus
  | evalBid amount user placed ttl =>
    rcases exec_evalBid_cases E w id amount user (.priceUpdate id amount placed) ttl with ⟨h, -⟩ | ⟨-, h⟩
    · rw [h]
    · rw [h]
      exact (put_ne _ hleader).trans (put_ne _ hprice)
  | mget => rfl
  | publish st ps wid => rfl
  | del => exact (del_ne hleader).trans (del_ne hprice)

variable {u : Uuid} {w v : World}

/-- **What a request for another auction does to this one**: nothing. -/
theorem SameAuction.other (h : SameAuction u w v) (E : Engines) {id : String} {c : Cmd} (hc : Cmd.Of id c)
    (hid : Uuid.input id ≠ some u) : SameAuction u (exec E w c).1 v := by
  have hnow : v.now = (exec E w c).1.now := by rw [exec_now, h.now]
  have hkeys : ∀ id', Uuid.input id' = some u → ∀ k ∈ stored id', v.redis k = (exec E w c).1.redis k := by
    intro id' hid' k hk
    have hne : id' ≠ id := fun he => hid (he ▸ hid')
    rw [exec_redis_ne E w hc (not_stored hne hk), h.keys id' hid' k hk]
  have hout : decide (Uuid.input id = some u) = false := decide_eq_false hid
  refine ⟨hnow, ?_, hkeys, ?_, ?_⟩
  · cases hc with
    | settleTx p l =>
      have hother := settleTx_other E w.db w.pgNow hid p l
      exact ⟨h.row.users.trans hother.users, h.row.row.trans hother.row, h.row.ledger.trans hother.ledger⟩
    | _ => rw [exec_db (by simp)]; exact h.row
  · cases hc with
    | evalBid amount user placed ttl =>
      rcases exec_evalBid_cases E w id amount user (.priceUpdate id amount placed) ttl with ⟨he, -⟩ | ⟨-, he⟩
      · rw [he]
        exact h.published
      · rw [he]
        exact skip_cons hout h.published
    | publish st ps wid => exact skip_cons hout h.published
    | selectRow =>
      rw [exec_selectRow_world]
      exact h.published
    | _ => exact h.published
  · cases hc with
    | evalBid amount user placed ttl =>
      rcases exec_evalBid_cases E w id amount user (.priceUpdate id amount placed) ttl with ⟨he, -⟩ | ⟨-, he⟩
      · rw [he]
        exact h.accepted
      · rw [he]
        exact skip_cons hout h.accepted
    | selectRow =>
      rw [exec_selectRow_world]
      exact h.accepted
    | _ => exact h.accepted

theorem SameAuction.get (h : SameAuction u w v) {id k : String} (hid : Uuid.input id = some u)
    (hk : k ∈ stored id) : v.get k = w.get k := by
  have hnow : v.redisNow = w.redisNow := by rw [World.redisNow, World.redisNow, h.now]
  rw [World.get, World.get, hnow, Store.get, Store.get, entry_congr _ (h.keys id hid k hk)]

/-- **A request for the auction does the same to both**, and gets the same reply. -/
theorem SameAuction.same (h : SameAuction u w v) (E : Engines) {id : String} {c : Cmd} (hc : Cmd.Of id c)
    (hid : Uuid.input id = some u) :
    (exec E v c).2 = (exec E w c).2 ∧ SameAuction u (exec E w c).1 (exec E v c).1 := by
  have hnow : v.redisNow = w.redisNow := by rw [World.redisNow, World.redisNow, h.now]
  have hpg : v.pgNow = w.pgNow := by rw [World.pgNow, World.pgNow, h.now]
  have hin : decide (Uuid.input id = some u) = true := decide_eq_true hid
  have hprice := h.keys id hid (priceKey id) (by simp [stored])
  have hleader := h.keys id hid (leaderKey id) (by simp [stored])
  have hstatus := h.keys id hid (statusKey id) (by simp [stored])
  cases hc with
  | selectRow =>
    rw [exec_selectRow_world, exec_selectRow_world]
    refine ⟨?_, h⟩
    simp only [exec, hid, h.row.row]
    cases w.db.find u <;> rfl
  | settleTx p l =>
    obtain ⟨hout, hrow⟩ := h.row.settleTx E w.pgNow hid p l
    simp only [exec, hpg]
    exact ⟨congrArg Reply.tx hout, h.now, hrow, h.keys, h.published, h.accepted⟩
  | setNX value =>
    refine ⟨rfl, h.now, h.row, fun id' hid' k hk => ?_, h.published, h.accepted⟩
    simp only [exec, hnow]
    exact putNX_congr _ _ hprice (h.keys id' hid' k hk)
  | set value ttl =>
    refine ⟨rfl, h.now, h.row, fun id' hid' k hk => ?_, h.published, h.accepted⟩
    simp only [exec, hnow]
    exact set_congr _ _ _ hstatus (h.keys id' hid' k hk)
  | evalBid amount user placed ttl =>
    rcases bidScript_congr E w.redisNow ttl id amount user hstatus hprice with ⟨hsame, hno⟩ | ⟨hw, hv⟩
    · simp only [exec, hnow, hsame]
      split
      · exact ⟨rfl, h⟩
      · exact ⟨rfl, h⟩
      · next x hx => exact absurd hx (hno x)
      · exact ⟨rfl, h⟩
    · simp only [exec, hnow, hw, hv]
      refine ⟨trivial, h.now, h.row, fun id' hid' k hk => ?_, ?_, ?_⟩
      · exact put_congr _ (put_congr _ (h.keys id' hid' k hk))
      · exact both_cons hin h.published
      · exact both_cons hin h.accepted
  | mget =>
    refine ⟨?_, h⟩
    simp only [exec, h.get hid (k := priceKey id) (by simp [stored]),
      h.get hid (k := leaderKey id) (by simp [stored])]
  | publish st ps wid =>
    exact ⟨rfl, h.now, h.row, h.keys, both_cons hin h.published, h.accepted⟩
  | del =>
    refine ⟨rfl, h.now, h.row, fun id' hid' k hk => ?_, h.published, h.accepted⟩
    exact del_congr (del_congr (h.keys id' hid' k hk))

/-! ## A run without the other auctions -/

/-- The id text of the job client `i` starts with. -/
def aboutOf (es : List Ev) (i : Nat) : Option String :=
  (es.filterMap (Event.job i)).head?.map Job.auctionId

/-- Client `i` bids on the auction or settles it. -/
def concerns (u : Uuid) (es : List Ev) (i : Nat) : Bool :=
  (aboutOf es i).any fun id => decide (Uuid.input id = some u)

theorem concerns_iff {es : List Ev} {i : Nat} {id : String} (hid : aboutOf es i = some id) :
    concerns u es i = true ↔ Uuid.input id = some u := by
  simp [concerns, hid]

/-- A job starts in the same way, if its auction is the same. -/
theorem SameAuction.startJob (h : SameAuction u w v) {j : Job} (hj : Uuid.input j.auctionId = some u) :
    startJob v j = startJob w j := by
  cases j with
  | bid req => rfl
  | settle x =>
    have hx : x = u := by simpa [Job.auctionId] using hj
    have hpg : v.pgNow = w.pgNow := by rw [World.pgNow, World.pgNow, h.now]
    subst hx
    simp only [Synora.startJob, scanPicks, h.row.row, hpg]

theorem ProcOk.about {T : Uuid → Option Terms} {A : Job → Prop} {x : Option String} {p : Proc}
    (hA : ∀ j, A j → x = some j.auctionId) (h : ProcOk T A w p) : x = some p.auctionId := by
  cases p with
  | bid req pc => exact hA _ h.1
  | settle job pc =>
    obtain ⟨⟨y, t, hjob, hid, -⟩, -⟩ := h
    rw [hA _ hjob, Proc.auctionId, hid]
    rfl

/-- The auctions are parts of the world that the clients keep apart. -/
theorem auctions_apart (E : Engines) (u : Uuid) (es : List Ev) :
    Apart (program E) (concerns u es) (SameAuction u) (fun i j => aboutOf es i = some j.auctionId)
      (fun i c => ∃ id, aboutOf es i = some id ∧ Cmd.Of id c) where
  tick w v d h := by
    refine ⟨?_, h.row, h.keys, h.published, h.accepted⟩
    simp only [program_tick, World.tick, h.now]
  clock w v h := h.now
  start w v i j h hi hj := h.startJob ((concerns_iff hj).mp hi)
  reply w v i c h hi hc := by
    obtain ⟨id, hid, hof⟩ := hc
    exact (h.same E hof ((concerns_iff hid).mp hi)).1
  same w v i c h hi hc := by
    obtain ⟨id, hid, hof⟩ := hc
    exact (h.same E hof ((concerns_iff hid).mp hi)).2
  other w v i c h hi hc := by
    obtain ⟨id, hid, hof⟩ := hc
    refine h.other E hof fun hin => ?_
    rw [(concerns_iff hid).mpr hin] at hi
    cases hi

/-- In a run the clients send requests of the auction they started with. -/
theorem keeps_along {E : Engines} {w : World} {es : List Ev} {s : Sys}
    (hrun : Steps.run (sysStep E) (State.fresh w) es = some s) :
    Steps.Along (sysStep E) (Keeps (fun i j => aboutOf es i = some j.auctionId)
      (fun i c => ∃ id, aboutOf es i = some id ∧ Cmd.Of id c)) (State.fresh w) es := by
  have hjobs : ∀ e ∈ es, JobsBy (fun i j => aboutOf es i = some j.auctionId) e := by
    intro e he
    cases e with
    | start i j =>
      change aboutOf es i = some j.auctionId
      rw [aboutOf, start_eq_head hrun he]
      rfl
    | _ => exact trivial
  have halong : Steps.Along (sysStep E) (fun _ e => JobsBy (fun i j => aboutOf es i = some j.auctionId) e)
      (State.fresh w) es := Steps.along_of_mem hjobs
  have hsound := Steps.along_with_invariant
    (I := SoundBy (termsOf w.db) fun i j => aboutOf es i = some j.auctionId)
    (fun _ _ _ hI hC hst => SoundBy.step hI hC hst) (sound_fresh (s := State.fresh w) rfl) halong
  refine Steps.along_mono (fun t e ht => ⟨fun i j he => ?_, fun i c hw => ?_⟩) hsound
  · subst he
    exact ht.1
  · obtain ⟨p, hp, hwait, -⟩ := (ht.2.2 i).wire c hw
    exact ⟨p.auctionId, hp.about fun _ hj => hj, hwait.of⟩

/-- **The auctions are independent.** Without the clients of the other auctions a run is still a
run. It ends with the same row, ledger, keys, messages and accepted bids of `u`, and each of its
bidders and workers is where it was. -/
theorem auctions_independent {E : Engines} {w : World} {es : List Ev} {s : Sys} (u : Uuid)
    (hrun : Steps.run (sysStep E) (State.fresh w) es = some s) :
    ∃ t, Steps.run (sysStep E) (State.fresh w) (es.filter (Event.within (concerns u es))) = some t ∧
      SameAuction u s.world t.world ∧ ∀ i, concerns u es i = true → t.slot i = s.slot i :=
  (auctions_apart E u es).run ⟨.refl u w, fun _ _ => rfl⟩ (keeps_along hrun) hrun

/-! ## Two lots -/

theorem ten_positive : ten.positive = true := by decide

/-- A second lot, like the first. -/
def secondLot : Auction :=
  ⟨{ (lot ten ten_positive).toAuctionRow with id := .ofDigit 3 }, by decide⟩

/-- Two users and two lots. -/
def twoOpen : World where
  now := 0
  db := .withoutBids [.ofDigit 1, .ofDigit 2] [lot ten ten_positive, secondLot] (by decide) (by decide)
  redis := Store.empty
  published := []
  accepted := []

/-- A bid on each lot, and the settlement of the second. -/
def bothLots : List Ev :=
  [.start 0 (.bid (lotBid "10.50" 1)), .start 1 (.bid ⟨(Uuid.ofDigit 3).text, "99.00", (Uuid.ofDigit 2).text⟩)] ++
    calls 1 4 ++ calls 0 4 ++ .tick 1000000000 :: .start 2 (.settle (.ofDigit 3)) :: calls 2 5

theorem auctions_independent_bothLots :
    ∃ s, Steps.run (sysStep decimalEngines) (State.fresh twoOpen) bothLots = some s ∧
      s.world.accepted.length = 2 ∧ s.world.terminal (.ofDigit 3) ∧
      ∃ t, Steps.run (sysStep decimalEngines) (State.fresh twoOpen)
          (bothLots.filter (Event.within (concerns (.ofDigit 0) bothLots))) = some t ∧
        SameAuction (.ofDigit 0) s.world t.world ∧
        ∀ i, concerns (.ofDigit 0) bothLots i = true → t.slot i = s.slot i := by
  obtain ⟨s, hrun, hcheck⟩ := Steps.exists_of_check (sysStep decimalEngines) (State.fresh twoOpen) bothLots
    (fun s => decide (s.world.accepted.length = 2 ∧ s.world.terminal (.ofDigit 3))) (by decide +kernel)
  obtain ⟨haccepted, hterminal⟩ := of_decide_eq_true hcheck
  exact ⟨s, hrun, haccepted, hterminal, auctions_independent (.ofDigit 0) hrun⟩

end Synora
