import Mathlib
import Synora.Create
import Synora.Lib.AuctionHouse
import Synora.System

/- The back end as a whole: the handlers and workers on the two servers (System), with
   auctions created and users signed up while they run. Seen as an auction house
   (`house`), whatever the processes do, wherever they fail and in whatever order,
   every step is a move of the house or none (`backend_refines_house`): the guard
   that a lot is closed only after its end is the one the scan has checked, some time
   before, for the worker that commits (`Due`).

   Correspondence (Go ↔ Lean):
     `App.createAuction`, its insert                      ↔ `Act.create`
     `insert into users … returning id` of `App.googleAuth` ↔ `Act.signUp`
     everything else                                      ↔ `Act.serve` -/
namespace Synora

open Calls AuctionHouse

/-! ## The house the tables show -/

instance : LE Numeric := ⟨fun p q => p.le q = true⟩

/-- The stage a row is in; a SETTLED row without price or winner is not admitted. -/
def AuctionRow.stage (r : AuctionRow) : Stage Numeric Uuid :=
  match r.status with
  | .DRAFT => .draft
  | .ACTIVE => .running
  | .CLOSED => .closed
  | .SETTLED =>
    match r.currentHighPrice, r.winnerId with
    | some p, some w => .sold p w
    | _, _ => .closed
  | .CANCELLED => .withdrawn

def AuctionRow.lot (r : AuctionRow) : Lot Int Numeric Uuid := ⟨r.startingPrice, r.startTime, r.endTime, r.stage⟩

/-- The auction house that the rows and the Postgres clock show. -/
def house (w : World) : House Uuid Int Numeric Uuid := ⟨w.pgNow, fun u => (w.db.find u).map fun a => a.lot⟩

theorem house_lot {w : World} {u : Uuid} {a : Auction} (h : w.db.find u = some a) :
    (house w).lot u = some a.lot :=
  congrArg (Option.map fun a : Auction => a.lot) h

theorem running_of_active {r : AuctionRow} (h : r.status = .ACTIVE) : r.stage = .running := by
  rw [AuctionRow.stage, h]

@[simp] theorem lot_closed (r : AuctionRow) (now : Int) : (r.closed now).lot = r.lot.at .closed := rfl

@[simp] theorem lot_settled (r : AuctionRow) (now : Int) (p : Numeric) (w : Uuid) :
    (r.settled now p w).lot = r.lot.at (.sold p w) := rfl

/-- One row has been written. -/
theorem house_put {w v : World} {u : Uuid} {a : Auction} (hnow : v.now = w.now)
    (hrow : v.db.find u = some a) (hothers : ∀ j, j ≠ u → v.db.find j = w.db.find j) :
    house v = (house w).put u a.lot := by
  have hlot : (house v).lot = ((house w).put u a.lot).lot := by
    funext j
    by_cases hj : j = u
    · subst hj
      rw [House.put_self, house_lot hrow]
    · rw [House.put_ne _ _ hj]
      exact congrArg (Option.map fun a : Auction => a.lot) (hothers j hj)
  have hclock : (house v).clock = (house w).clock := by
    simp only [house, World.pgNow, hnow]
  calc house v = ⟨(house v).clock, (house v).lot⟩ := rfl
    _ = (house w).put u a.lot := by rw [hclock, hlot]; rfl

/-- **The transaction is a move**, if the end of its row has passed. -/
theorem exec_settleTx_moves {E : Engines} {w : World} {u : Uuid} {price leader : Option String}
    (hdue : ∀ a, w.db.find u = some a → a.endTime ≤ w.pgNow) :
    Moves (house w) (house (exec E w (.settleTx u.text price leader)).1) := by
  rcases settleTx_cases E w.db w.pgNow u.text price leader with
    ⟨e, he⟩ | ⟨he, -⟩ | ⟨v, a, hv, hf, hact, ⟨-, -, hr⟩ | ⟨ps, us, x, p, -, -, -, -, -, hr⟩⟩
  · simp only [exec_settleTx, he]
    exact .refl
  · simp only [exec_settleTx, he]
    exact .refl
  · rw [Uuid.input_text] at hv
    cases hv
    obtain ⟨b, hb, hcols⟩ := hr.row
    rw [house_put (w := w) (v := (exec E w (.settleTx u.text price leader)).1) rfl hb hr.others, hcols]
    exact .single (.close _ u a.lot (house_lot hf) (running_of_active hact) (hdue a hf))
  · rw [Uuid.input_text] at hv
    cases hv
    obtain ⟨b, hb, hcols⟩ := hr.row
    -- the row is admitted, so its price is not below the reserve
    have hreserve : a.startingPrice.le p = true := by
      have hvalid := b.checks.currentHighPriceValid p (by rw [hcols]; rfl)
      rwa [hcols] at hvalid
    rw [house_put (w := w) (v := (exec E w (.settleTx u.text price leader)).1) rfl hb hr.others, hcols]
    exact .single (.sell _ u a.lot p x (house_lot hf) (running_of_active hact) (hdue a hf) hreserve)

/-! ## Only what has ended is settled -/

/-- The lot is there and its end has passed. -/
def Ended (h : House Uuid Int Numeric Uuid) (u : Uuid) : Prop := ∃ l, h.lot u = some l ∧ l.ends ≤ h.clock

theorem Ended.moves {h h' : House Uuid Int Numeric Uuid} {u : Uuid} (hend : Ended h u) (hm : Moves h h') :
    Ended h' u := by
  obtain ⟨l, hl, hends⟩ := hend
  obtain ⟨l', hl', hlater⟩ := hm.lot hl
  refine ⟨l', hl', ?_⟩
  calc l'.ends = l.ends := hlater.ends
    _ ≤ h.clock := hends
    _ ≤ h'.clock := hm.clock

/-- A worker settles a lot that has ended, and so does the transaction it has sent. -/
structure DueSlot (h : House Uuid Int Numeric Uuid) (sl : Slot Proc Cmd Reply) : Prop where
  client : ∀ job pc, sl.client = .live (.settle job pc) → ∃ u : Uuid, job.id = u.text ∧ Ended h u
  wire : ∀ id p l, sl.wire = some (.settleTx id p l) → ∃ u : Uuid, id = u.text ∧ Ended h u

/-- Every worker settles a lot that has ended. -/
def Due (s : Sys) : Prop := ∀ i, DueSlot (house s.world) (s.slot i)

theorem DueSlot.moves {h h' : House Uuid Int Numeric Uuid} {sl : Slot Proc Cmd Reply} (hs : DueSlot h sl)
    (hm : Moves h h') : DueSlot h' sl where
  client job pc hc := by
    obtain ⟨u, hid, hend⟩ := hs.client job pc hc
    exact ⟨u, hid, hend.moves hm⟩
  wire id p l hw := by
    obtain ⟨u, hid, hend⟩ := hs.wire id p l hw
    exact ⟨u, hid, hend.moves hm⟩

theorem due_fresh (w : World) : Due (State.fresh w) := fun _ =>
  ⟨fun _ _ h => (by cases h), fun _ _ _ h => (by cases h)⟩

/-- **What a step of the processes does to the house.** -/
theorem sysStep_moves {E : Engines} {s s' : Sys} {e : Ev} (h : Due s) (hst : sysStep E s e = some s') :
    Moves (house s.world) (house s'.world) := by
  rcases Program.step_world hst with he | ⟨d, -, he⟩ | ⟨i, c, -, hw, he⟩
  · rw [he]
  · rw [he]
    refine .single (.wait (house s.world) (house (s.world.tick d)).clock ?_)
    simp only [house, World.pgNow, World.tick]
    omega
  · rw [he]
    cases c with
    | settleTx id price leader =>
      obtain ⟨u, rfl, l, hl, hends⟩ := (h i).wire id price leader hw
      refine exec_settleTx_moves fun a hf => ?_
      rw [house_lot hf] at hl
      cases hl
      exact hends
    | _ =>
      have hsame : ∀ w : World, w.now = s.world.now → w.db = s.world.db → house w = house s.world := by
        intro w hnow hdb
        simp only [house, World.pgNow, hnow, hdb]
      rw [program_exec, hsame _ (exec_now E s.world _) (exec_db (by simp))]

/-- A step keeps the workers on lots that have ended. -/
theorem Due.step {E : Engines} {s s' : Sys} {e : Ev} (h : Due s) (hst : sysStep E s e = some s') : Due s' := by
  intro i
  refine DueSlot.moves (h := house s.world) ?_ (sysStep_moves h hst)
  rcases Program.step_slot hst i with he | ⟨j, p, c, -, -, hstart, he⟩ | ⟨c, -, hw, he⟩ |
      ⟨p, r, -, hc, hr, hd, he⟩ | ⟨p, -, hc, -, he⟩ | ⟨c, -, -, he⟩ | ⟨p, -, -, -, he⟩ <;> rw [he]
  · exact h i
  · rcases startJob_cases hstart with ⟨req, rfl, -, -, rfl, rfl⟩ | ⟨req, rfl, rfl, rfl⟩ |
        ⟨u, job, rfl, hjob, rfl, rfl⟩
    · exact ⟨fun _ _ h => (by cases h), fun _ _ _ h => (by cases h)⟩
    · exact ⟨fun _ _ h => (by cases h), fun _ _ _ h => (by cases h)⟩
    · obtain ⟨a, hf, -, hends, rfl⟩ := scanPicks_eq_some hjob
      refine ⟨fun job pc hcl => ?_, fun _ _ _ h => (by cases h)⟩
      cases hcl
      exact ⟨u, rfl, a.lot, house_lot hf, hends⟩
  · exact ⟨(h i).client, fun _ _ _ h => (by cases h)⟩
  · cases p with
    | bid req pc =>
      exact ⟨fun _ _ h => (by cases h), fun id p l hw => absurd hw (bidResume_ne_settleTx hd)⟩
    | settle job pc =>
      have hjob := (h i).client job pc hc
      refine ⟨fun job' pc' hcl => ?_, fun id p l hw => ?_⟩
      · cases hcl
        exact hjob
      · simp only [program_resume, resumeProc] at hw
        rcases settleResume_cases s.world.now job pc r hd with ⟨p', l', -, -, he⟩ |
            ⟨_, _, st, ps, wid, -, -, he⟩ | ⟨st, ps, wid, -, -, he⟩ | ⟨-, -, he⟩ | ⟨ok, he, -⟩ <;>
          (simp only [program_clock, he] at hw; cases hw)
        exact hjob
  · refine ⟨fun job pc hcl => ?_, (h i).wire⟩
    cases p with
    | bid req pc' => cases hcl
    | settle job' pc' =>
      cases hcl
      exact (h i).client job pc' hc
  · exact ⟨(h i).client, fun _ _ _ h => (by cases h)⟩
  · exact ⟨fun _ _ h => (by cases h), (h i).wire⟩

/-! ## The back end -/

/-- What happens: a step of a handler or a worker, or of time; `POST /auctions` with the id the
row would get; a first sign-in with the id of the new user. -/
inductive Act where
  | serve (e : Ev)
  | create (id : Uuid) (authenticated : Bool) (input : AuctionInput)
  | signUp (v : Uuid)

/-- The tables with a user more. -/
def Db.addUser (db : Db) (v : Uuid) : Db :=
  { db with
    users := v :: db.users
    winnerFk := fun a ha u hu => List.mem_cons_of_mem _ (db.winnerFk a ha u hu)
    bidsUserFk := fun b hb => List.mem_cons_of_mem _ (db.bidsUserFk b hb) }

/-- The same processes on other tables. -/
def onDb (s : Sys) (db : Db) : Sys := { s with world := { s.world with db := db } }

def backendStep (E : Engines) (s : Sys) : Act → Option Sys
  | .serve e => sysStep E s e
  | .create id authenticated input =>
    match createAuction E s.world.db s.world.pgNow id authenticated input with
    | .ok (db, _) => some (onDb s db)
    | .error _ => some s
  | .signUp v => some (onDb s (s.world.db.addUser v))

/-- The insert takes a free id. -/
theorem Db.insertAuction_find {db db' : Db} {a : Auction} (h : db.insertAuction a = .ok db') :
    db.find a.id = none ∧ db'.find a.id = some a ∧ ∀ j, j ≠ a.id → db'.find j = db.find j := by
  have hnew : a.id ∉ db.auctions.map fun r => r.id := by
    intro hmem
    rw [Db.insertAuction, dif_pos hmem] at h
    cases h
  have hrows : db'.auctions = a :: db.auctions := (Db.insertAuction_ok h).1
  refine ⟨?_, ?_, fun j hj => ?_⟩
  · rw [Db.find, List.find?_eq_none]
    intro b hb heq
    exact hnew (List.mem_map.mpr ⟨b, hb, of_decide_eq_true heq⟩)
  · rw [Db.find, hrows, List.find?_cons_of_pos (by simp)]
  · rw [Db.find, hrows, List.find?_cons_of_neg (by simpa using hj.symm)]
    rfl

/-- What the handler inserts. -/
theorem createAuction_inserts {E : Engines} {db db' : Db} {now : Int} {id : Uuid} {authenticated : Bool}
    {input : AuctionInput} {a : Auction} (h : createAuction E db now id authenticated input = .ok (db', a)) :
    db.insertAuction a = .ok db' ∧ CreatedRow a := by
  refine ⟨?_, (createAuction_ok h).2.2.2.1⟩
  unfold createAuction at h
  split at h
  · cases h
  · split at h
    · cases h
    · split at h
      · cases h
      · split at h
        · rename_i hr
          cases h
          exact (insertAuction_ok hr).1
        · cases h

/-- **One step of the back end** is a move of the house or none. -/
theorem backendStep_moves {E : Engines} {s s' : Sys} {x : Act} (h : Due s) (hst : backendStep E s x = some s') :
    Moves (house s.world) (house s'.world) ∧ Due s' := by
  cases x with
  | serve e => exact ⟨sysStep_moves h hst, h.step hst⟩
  | signUp v =>
    cases hst
    exact ⟨.refl, h⟩
  | create id authenticated input =>
    simp only [backendStep] at hst
    split at hst
    · rename_i db a hc
      cases hst
      obtain ⟨hins, hrow⟩ := createAuction_inserts hc
      obtain ⟨hfree, hself, hothers⟩ := Db.insertAuction_find hins
      have hmove : Moves (house s.world) (house (onDb s db).world) := by
        rw [house_put (w := s.world) (v := (onDb s db).world) rfl hself hothers]
        refine .single (.offer _ a.id a.lot ?_ a.checks.endAfterStart ?_)
        · exact congrArg (Option.map fun a : Auction => a.lot) hfree
        · rcases hrow.status with hst | hst
          · exact .inl (by simp only [AuctionRow.lot, AuctionRow.stage, hst])
          · exact .inr (by simp only [AuctionRow.lot, AuctionRow.stage, hst])
      exact ⟨hmove, fun i => (h i).moves hmove⟩
    · cases hst
      exact ⟨.refl, h⟩

/-- … and so is any run, once the workers are on lots that have ended. -/
theorem backend_run {E : Engines} {s s' : Sys} {xs : List Act} (h : Due s)
    (hrun : Steps.run (backendStep E) s xs = some s') : Moves (house s.world) (house s'.world) ∧ Due s' := by
  induction xs generalizing s with
  | nil =>
    cases hrun
    exact ⟨.refl, h⟩
  | cons x xs ih =>
    obtain ⟨m, hm, hrest⟩ := Steps.run_cons.mp hrun
    obtain ⟨hfirst, hdue⟩ := backendStep_moves h hm
    obtain ⟨hlater, hend⟩ := ih hdue hrest
    exact ⟨hfirst.trans hlater, hend⟩

/-- **The back end is an auction house.** From any tables and any content of Redis. -/
theorem backend_refines_house {E : Engines} {w : World} {s : Sys} {xs : List Act}
    (hrun : Steps.run (backendStep E) (State.fresh w) xs = some s) : Moves (house w) (house s.world) :=
  (backend_run (due_fresh w) hrun).1

/-- A service with two users and no auction, at the epoch. -/
def unopened : World where
  now := 0
  db := noAuctions
  redis := Expiring.Store.empty
  published := []
  accepted := []

/-- A user signs up and a lot is created that ends after a second. -/
def offerLot : List Act :=
  [.signUp (.ofDigit 3), .create (.ofDigit 0) true ⟨"lot", none, "10.00", 0, 1000000000, "ACTIVE"⟩]

/-- The second passes and a worker settles it. -/
def closeLot : List Act :=
  (.tick 1000000000 :: .start 0 (.settle (.ofDigit 0)) :: calls 0 5).map .serve

theorem backend_refines_house_lot : ∃ s,
    Steps.run (backendStep decimalEngines) (State.fresh unopened) (offerLot ++ closeLot) = some s ∧
      s.world.rowStatus (.ofDigit 0) = some .CLOSED ∧ Moves (house unopened) (house s.world) := by
  obtain ⟨s, hrun, hcheck⟩ := Steps.exists_of_check (backendStep decimalEngines) (State.fresh unopened)
    (offerLot ++ closeLot) (fun s => decide (s.world.rowStatus (.ofDigit 0) = some .CLOSED)) (by decide +kernel)
  exact ⟨s, hrun, of_decide_eq_true hcheck, backend_refines_house hrun⟩

/-! ## What the rows can become -/

theorem over_iff {r : AuctionRow} : r.stage.over ↔ r.status = .CLOSED ∨ r.status = .SETTLED := by
  unfold AuctionRow.stage
  cases r.status with
  | SETTLED =>
    cases r.currentHighPrice <;> cases r.winnerId <;> simp [Stage.over]
  | _ => simp [Stage.over]

/-- A SETTLED row is sold, at its price and to its winner. -/
theorem Auction.sold {a : Auction} (h : a.status = .SETTLED) :
    ∃ p v, a.currentHighPrice = some p ∧ a.winnerId = some v ∧ a.stage = .sold p v := by
  obtain ⟨hp, hv⟩ := a.checks.settlementStateConsistent h
  obtain ⟨p, hp⟩ := Option.isSome_iff_exists.mp hp
  obtain ⟨v, hv⟩ := Option.isSome_iff_exists.mp hv
  exact ⟨p, v, hp, hv, by rw [AuctionRow.stage, h, hp, hv]⟩

/-- The stage tells the status. -/
theorem status_eq_of_stage {a b : Auction} (h : b.stage = a.stage) : b.status = a.status := by
  have hsold : ∀ {a b : Auction}, a.status = .SETTLED → b.stage = a.stage → b.status = .SETTLED := by
    intro a b ha hst
    obtain ⟨p, v, -, -, hsold⟩ := Auction.sold ha
    rw [hsold] at hst
    unfold AuctionRow.stage at hst
    cases hb : b.status with
    | SETTLED => rfl
    | _ => rw [hb] at hst; cases hst
  by_cases ha : a.status = .SETTLED
  · rw [ha, hsold ha h]
  · by_cases hb : b.status = .SETTLED
    · exact absurd (hsold hb h.symm) ha
    · cases hsa : a.status <;> cases hsb : b.status <;>
        first
        | rfl
        | exact absurd hsa ha
        | exact absurd hsb hb
        | simp [AuctionRow.stage, hsa, hsb] at h

/-- A SETTLED row names its price and its winner. -/
theorem sale_eq_of_stage {a b : Auction} (h : b.stage = a.stage) (hs : a.status = .SETTLED) :
    b.currentHighPrice = a.currentHighPrice ∧ b.winnerId = a.winnerId := by
  obtain ⟨p, v, hp, hv, hsold⟩ := Auction.sold hs
  obtain ⟨q, x, hq, hx, hsold'⟩ := Auction.sold ((status_eq_of_stage h).trans hs)
  rw [hsold', hsold] at h
  cases h
  exact ⟨hq.trans hp.symm, hx.trans hv.symm⟩

/-- What a row may become: its terms stay, and unless it is ACTIVE, so do its status and its sale. -/
structure BecomesRow (a b : Auction) : Prop where
  startingPrice : b.startingPrice = a.startingPrice
  startTime : b.startTime = a.startTime
  endTime : b.endTime = a.endTime
  status : a.status ≠ .ACTIVE → b.status = a.status
  sale : a.status = .SETTLED → b.currentHighPrice = a.currentHighPrice ∧ b.winnerId = a.winnerId

theorem becomes_of_later {a b : Auction} (h : a.lot.Later b.lot) : BecomesRow a b where
  startingPrice := h.reserve
  startTime := h.starts
  endTime := h.ends
  status hne := by
    refine status_eq_of_stage (congrArg Lot.stage (h.still fun hrun => ?_))
    change a.stage = .running at hrun
    have hact : a.stage = .running → a.status = .ACTIVE := by
      unfold AuctionRow.stage
      cases a.status with
      | SETTLED => cases a.currentHighPrice <;> cases a.winnerId <;> simp
      | _ => simp
    exact hne (hact hrun)
  sale hs := by
    refine sale_eq_of_stage (congrArg Lot.stage (h.still fun hrun => ?_)) hs
    obtain ⟨p, v, -, -, hsold⟩ := Auction.sold hs
    cases hsold.symm.trans hrun

/-- A row that is over: its end has passed, and if it was sold, at its starting price or more. -/
structure FairRow (w : World) (a : Auction) : Prop where
  ended : a.status = .CLOSED ∨ a.status = .SETTLED → a.endTime ≤ w.pgNow
  price : a.status = .SETTLED → ∃ p v, a.currentHighPrice = some p ∧ a.winnerId = some v ∧
    a.startingPrice.le p = true

theorem FairRow.of_sane {w : World} {u : Uuid} {a : Auction} (h : (house w).Sane) (hf : w.db.find u = some a) :
    FairRow w a := by
  have hsane := h u a.lot (house_lot hf)
  refine ⟨fun hover => hsane.ended (over_iff.mpr hover), fun hs => ?_⟩
  obtain ⟨p, v, hp, hv, hsold⟩ := Auction.sold hs
  exact ⟨p, v, hp, hv, hsane.reserve p v hsold⟩

/-- **No auction ends early, and none is reopened.** Of any two states of a run that began without
auctions: the rows that are over are so rightly, and each row is still there as it may be. -/
theorem rows_end_fairly {E : Engines} {w : World} {s s' : Sys} {xs ys : List Act} (hempty : w.db.auctions = [])
    (hrun : Steps.run (backendStep E) (State.fresh w) xs = some s)
    (hrun' : Steps.run (backendStep E) s ys = some s') (u : Uuid) (a : Auction)
    (hf : s.world.db.find u = some a) :
    FairRow s.world a ∧ ∃ b, s'.world.db.find u = some b ∧ BecomesRow a b := by
  obtain ⟨hmoves, hdue⟩ := backend_run (due_fresh w) hrun
  have hstart : (house w).Sane := by
    intro i l hl
    simp [house, Db.find, hempty] at hl
  refine ⟨.of_sane (hmoves.sane hstart) hf, ?_⟩
  obtain ⟨l, hl, hlater⟩ := (backend_run hdue hrun').1.lot (house_lot hf)
  obtain ⟨b, hb, rfl⟩ := Option.map_eq_some_iff.mp hl
  exact ⟨b, hb, becomes_of_later hlater⟩

theorem rows_end_fairly_lot : ∃ s s' a,
    Steps.run (backendStep decimalEngines) (State.fresh unopened) offerLot = some s ∧
      Steps.run (backendStep decimalEngines) s closeLot = some s' ∧
      s.world.db.find (.ofDigit 0) = some a ∧ a.status = .ACTIVE ∧
      FairRow s.world a ∧ ∃ b, s'.world.db.find (.ofDigit 0) = some b ∧ BecomesRow a b := by
  obtain ⟨s, hrun, hcheck⟩ := Steps.exists_of_check (backendStep decimalEngines) (State.fresh unopened) offerLot
    (fun s => (s.world.db.find (.ofDigit 0)).any (fun a : Auction => decide (a.status = .ACTIVE)) &&
      (Steps.run (backendStep decimalEngines) s closeLot).isSome) (by decide +kernel)
  rw [Bool.and_eq_true, Option.any_eq_true, Option.isSome_iff_exists] at hcheck
  obtain ⟨⟨a, hf, hact⟩, s', hrun'⟩ := hcheck
  exact ⟨s, s', a, hrun, hrun', hf, of_decide_eq_true hact, rows_end_fairly rfl hrun hrun' _ a hf⟩

end Synora
