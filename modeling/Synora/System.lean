import Synora.Lib.Calls
import Synora.Bid
import Synora.Settle

/- The auction system: any number of bid handlers and settlement workers over the
   two servers, their calls interleaved, delayed, lost and answered in any order,
   each process free to stop between two steps (`Calls`). -/
namespace Synora

open Calls

inductive Job where
  | bid (req : BidRequest)
  | settle (u : Uuid)
  deriving DecidableEq

/-- A process with its parameters and where it stands. -/
inductive Proc where
  | bid (req : BidRequest) (pc : BidPc)
  | settle (job : SettleJob) (pc : SettlePc)
  deriving DecidableEq

def startJob (w : World) : Job → Option (Proc × Option Cmd)
  | .bid req => some (.bid req (bidStart req).1, (bidStart req).2)
  | .settle u => (scanPicks w u).map fun job => (.settle job (settleStart job).1, (settleStart job).2)

def resumeProc (now : Int) : Proc → Reply → Proc × Option Cmd
  | .bid req pc, r => (.bid req (bidResume now req pc r).1, (bidResume now req pc r).2)
  | .settle job pc, r => (.settle job (settleResume now job pc r).1, (settleResume now job pc r).2)

def abortProc : Proc → Proc
  | .bid req pc => .bid req (bidAbort pc)
  | .settle job pc => .settle job (settleAbort pc)

def Proc.done : Proc → Bool
  | .bid _ pc => pc.done
  | .settle _ pc => pc.done

/-- The program of the system. -/
def program (E : Engines) : Program World Int Job Proc Cmd Reply where
  tick := World.tick
  clock := World.now
  exec := exec E
  start := startJob
  resume := resumeProc
  abort := abortProc
  done := Proc.done

@[simp] theorem program_tick (E : Engines) : (program E).tick = World.tick := rfl
@[simp] theorem program_clock (E : Engines) : (program E).clock = World.now := rfl
@[simp] theorem program_exec (E : Engines) : (program E).exec = exec E := rfl
@[simp] theorem program_start (E : Engines) : (program E).start = startJob := rfl
@[simp] theorem program_resume (E : Engines) : (program E).resume = resumeProc := rfl
@[simp] theorem program_abort (E : Engines) : (program E).abort = abortProc := rfl
@[simp] theorem program_done (E : Engines) : (program E).done = Proc.done := rfl

/-- How a process starts. -/
theorem startJob_cases {w : World} {j : Job} {p : Proc} {c : Option Cmd}
    (h : startJob w j = some (p, c)) :
    (∃ req, j = .bid req ∧ Uuid.validate req.auctionID = true ∧ amountPattern req.amount = true ∧
      p = .bid req .selecting ∧ c = some (.selectRow req.auctionID)) ∨
    (∃ req, j = .bid req ∧ p = .bid req (.answered invalidBid) ∧ c = none) ∨
    (∃ u job, j = .settle u ∧ scanPicks w u = some job ∧ p = .settle job .reading ∧
      c = some (.mget (priceKey job.id) (leaderKey job.id))) := by
  cases j with
  | bid req =>
    simp only [startJob, Option.some.injEq, Prod.mk.injEq] at h
    obtain ⟨rfl, rfl⟩ := h
    unfold bidStart
    split
    · rename_i hv
      exact .inl ⟨req, rfl, hv.1, hv.2, rfl, rfl⟩
    · exact .inr (.inl ⟨req, rfl, rfl, rfl⟩)
  | settle u =>
    simp only [startJob, Option.map_eq_some_iff, Prod.mk.injEq] at h
    obtain ⟨job, hjob, rfl, rfl⟩ := h
    exact .inr (.inr ⟨u, job, rfl, hjob, rfl, rfl⟩)

/-- What the scan picks. -/
theorem scanPicks_eq_some {w : World} {u : Uuid} {job : SettleJob} (h : scanPicks w u = some job) :
    ∃ a, w.db.find u = some a ∧ a.status = .ACTIVE ∧ a.endTime ≤ w.pgNow ∧
      job = ⟨u.text, 1000 * a.endTime⟩ := by
  unfold scanPicks at h
  split at h
  · cases h
  · rename_i a hf
    split at h
    · rename_i hact
      cases h
      exact ⟨a, hf, hact.1, hact.2, rfl⟩
    · cases h

/-- A process whose call returned an error has finished. -/
theorem abortProc_done (p : Proc) : (abortProc p).done = true := by
  cases p with
  | bid req pc => cases pc <;> rfl
  | settle job pc => cases pc <;> rfl

abbrev Sys : Type := State World Proc Cmd Reply
abbrev Ev : Type := Event Job

/-- One step of the system. -/
abbrev sysStep (E : Engines) : Sys → Ev → Option Sys := (program E).step

/-- The bid of client `i` has been answered `a`. -/
def Answered (s : Sys) (i : Nat) (req : BidRequest) (a : Answer) : Prop :=
  (s.slot i).client = .live (.bid req (.answered a))

/-- The jobs that client `i` starts satisfy `A i`. -/
def JobsBy (A : Nat → Job → Prop) : Ev → Prop
  | .start i j => A i j
  | _ => True

instance (A : Nat → Job → Prop) [∀ i j, Decidable (A i j)] : DecidablePred (JobsBy A)
  | .start i j => inferInstanceAs (Decidable (A i j))
  | .tick _ | .exec _ | .recv _ | .fail _ | .drop _ | .crash _ => .isTrue trivial

/-- All jobs satisfy `A`. -/
abbrev JobsOn (A : Job → Prop) : Ev → Prop := JobsBy (fun _ => A)

theorem jobsOn_true (e : Ev) : JobsOn (fun _ => True) e := by
  cases e <;> trivial

/-- The id text a job uses: a bid names its auction, the scan hands on the canonical text. -/
def Job.auctionId : Job → String
  | .bid req => req.auctionID
  | .settle u => u.text

/-- Every job is about one auction, under one id text. -/
abbrev OneAuction (id : String) : Ev → Prop := JobsOn (fun j => j.auctionId = id)

/-- Every job is about the auction `u`, and every bidder is one of `users`. -/
def BidsOn (u : Uuid) (users : List Uuid) : Job → Prop
  | .bid req => req.auctionID = u.text ∧ ∃ v ∈ users, req.user = v.text
  | .settle v => v = u

instance (u : Uuid) (users : List Uuid) : DecidablePred (BidsOn u users)
  | .bid _ => inferInstanceAs (Decidable (_ ∧ _))
  | .settle v => inferInstanceAs (Decidable (v = u))

theorem BidsOn.auctionId {u : Uuid} {users : List Uuid} {j : Job} (h : BidsOn u users j) :
    j.auctionId = u.text := by
  cases j with
  | bid req => exact h.1
  | settle v => exact congrArg Uuid.text h

/-- The row is there, whatever its status; no process has started and Redis holds nothing. -/
structure Opens (s : Sys) (u : Uuid) (a : Auction) : Prop where
  fresh : s = State.fresh s.world
  row : s.world.db.find u = some a
  redis : s.world.redis = Expiring.Store.empty
  published : s.world.published = []
  accepted : s.world.accepted = []

/-- An auction begins: the row is ACTIVE besides, and the handler can read its price columns. -/
structure Begins (s : Sys) (u : Uuid) (a : Auction) : Prop extends Opens s u a where
  active : a.status = .ACTIVE
  readable : a.currentHighPrice.isSome = true

/-! ## A small instance -/

/-- A row that `createAuction` inserts: it is open from the epoch for one second. -/
def lot (starting : Numeric) (h : starting.positive = true) : Auction where
  id := .ofDigit 0
  itemTitle := "lot"
  description := none
  startingPrice := starting
  currentHighPrice := some starting
  winnerId := none
  status := .ACTIVE
  startTime := 0
  endTime := 1000000
  createdAt := 0
  updatedAt := 0
  checks :=
    { itemTitleNotBlank := show notBlank "lot" = true by decide
      startingPricePositive := h
      currentHighPriceValid := by
        intro p hp
        cases hp
        exact starting.le_refl
      endAfterStart := show (0 : Int) < 1000000 by decide
      updatedAtAfterCreatedAt := Int.le_refl 0
      settlementStateConsistent := by rintro ⟨⟩
      winnerOnlyWhenSettled := by rintro ⟨⟩ }

/-- Two users and one lot, at the epoch. -/
def opening (starting : Numeric) (h : starting.positive = true) : Sys :=
  State.fresh {
    now := 0
    db := .withoutBids [.ofDigit 1, .ofDigit 2] [lot starting h] (List.nodup_singleton _) (by
      intro a ha u hu
      rw [List.mem_singleton.mp ha] at hu
      cases hu)
    redis := Expiring.Store.empty
    published := []
    accepted := [] }

theorem opening_begins (starting : Numeric) (h : starting.positive = true) :
    Begins (opening starting h) (.ofDigit 0) (lot starting h) where
  fresh := rfl
  row := by simp [opening, State.fresh, Db.withoutBids, Db.find, lot]
  active := rfl
  readable := rfl
  redis := rfl
  published := rfl
  accepted := rfl

/-- A starting price of 10.00. -/
def ten : Numeric := .cents 1000 (by decide)

/-- The lot at 10.00. -/
def lotAtTen : Sys := opening ten (by decide)

/-- A bid of user `d` on the lot. -/
def lotBid (amount : String) (d : Fin 16) : BidRequest := ⟨(Uuid.ofDigit 0).text, amount, (Uuid.ofDigit d).text⟩

/-- Client `i` sends a request and gets the reply, `n` times. -/
def calls (i : Nat) : Nat → List Ev
  | 0 => []
  | n + 1 => .exec i :: .recv i :: calls i n

/-- A bid, then the first `n` calls of the settlement. -/
def bidThenSettle (n : Nat) : List Ev :=
  .start 0 (.bid (lotBid "10.50" 1)) :: calls 0 4 ++
    .tick 1000000000 :: .start 1 (.settle (.ofDigit 0)) :: calls 1 n

end Synora
