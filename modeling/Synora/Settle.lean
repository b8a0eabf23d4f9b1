import Synora.Server

/- The settlement worker, `Worker.scan` and `Worker.settle` (worker.go), as a client
   of the two servers. The scan picks an ACTIVE row whose end has passed; `settle`
   then runs on the id text Postgres returned.

   Correspondence (Go ↔ Lean):
     `select id, end_time … where status='ACTIVE' and end_time <= now()` ↔ `scanPicks`
     `w.Redis.MGet(…)`                     ↔ `.reading`
     the transaction                       ↔ `.committing` (`settleTx`)
     `w.Redis.Set(…, finalStatus, ttl)`    ↔ `.caching`
     `w.Redis.Publish(…)`                  ↔ `.publishing`
     `w.Redis.Del(…)`                      ↔ `.deleting` -/
namespace Synora

/-- A row the scan returns, with `id` as text and `end` as a Go time. -/
structure SettleJob where
  id : String
  «end» : Int
  deriving DecidableEq

/-- What the scan finds for the row `u` at this moment. -/
def scanPicks (w : World) (u : Uuid) : Option SettleJob :=
  match w.db.find u with
  | none => none
  | some a =>
    if a.status = .ACTIVE ∧ a.endTime ≤ w.pgNow then some ⟨u.text, 1000 * a.endTime⟩ else none

inductive SettlePc where
  | reading
  | committing (price leader : Option String)
  | caching (finalStatus : AuctionStatus) (priceStr : String) (winnerID : Option String)
  | publishing
  | deleting
  | finished (ok : Bool)
  deriving DecidableEq

/-- `time.Until(end.Add(24 * time.Hour))`, one hour if it is not positive. -/
def settleTtl («end» now : Int) : Int :=
  let ttl := durationSub («end» + 24 * hour) now
  if ttl ≤ 0 then hour else ttl

def settleStart (job : SettleJob) : SettlePc × Option Cmd :=
  (.reading, some (.mget (priceKey job.id) (leaderKey job.id)))

/-- What the worker does with a reply. -/
def settleResume (now : Int) (job : SettleJob) : SettlePc → Reply → SettlePc × Option Cmd
  | .reading, .values price leader =>
    (.committing price leader, some (.settleTx job.id price leader))
  | .reading, _ => (.finished false, none)
  | .committing _ _, .tx (.committed finalStatus priceStr winnerID) =>
    (.caching finalStatus priceStr winnerID,
      some (.set (statusKey job.id) finalStatus.label (redisTtl (settleTtl job.end now))))
  | .committing _ _, .tx .skipped => (.finished true, none)
  | .committing _ _, _ => (.finished false, none)
  | .caching finalStatus priceStr winnerID, .ok =>
    (.publishing, some (.publish (updatesChannel job.id)
      (.settlement job.id finalStatus priceStr winnerID)))
  | .caching _ _ _, _ => (.finished false, none)
  | .publishing, .ok => (.deleting, some (.del (priceKey job.id) (leaderKey job.id)))
  | .publishing, _ => (.finished false, none)
  | .deleting, .ok => (.finished true, none)
  | .deleting, _ => (.finished false, none)
  | .finished ok, _ => (.finished ok, none)

/-- What the worker does when its call returns an error. -/
def settleAbort : SettlePc → SettlePc
  | .finished ok => .finished ok
  | _ => .finished false

def SettlePc.done : SettlePc → Bool
  | .finished _ => true
  | _ => false

/-- **What a reply leads to.** The worker sends the next of its commands, or finishes. -/
theorem settleResume_cases (now : Int) (job : SettleJob) (pc : SettlePc) (r : Reply)
    (hd : pc.done = false) :
    (∃ p l, pc = .reading ∧ r = .values p l ∧
      settleResume now job pc r = (.committing p l, some (.settleTx job.id p l))) ∨
    (∃ p l st ps wid, pc = .committing p l ∧ r = .tx (.committed st ps wid) ∧
      settleResume now job pc r = (.caching st ps wid,
        some (.set (statusKey job.id) st.label (redisTtl (settleTtl job.end now))))) ∨
    (∃ st ps wid, pc = .caching st ps wid ∧ r = .ok ∧
      settleResume now job pc r = (.publishing, some (.publish (updatesChannel job.id)
        (.settlement job.id st ps wid)))) ∨
    (pc = .publishing ∧ r = .ok ∧
      settleResume now job pc r = (.deleting, some (.del (priceKey job.id) (leaderKey job.id)))) ∨
    (∃ ok, settleResume now job pc r = (.finished ok, none) ∧
      (pc = .deleting ∧ r = .ok ∨ r = .tx .skipped ∨ ok = false)) := by
  cases pc with
  | finished ok => cases hd
  | reading =>
    cases r with
    | values p l => exact .inl ⟨p, l, rfl, rfl, rfl⟩
    | _ => exact .inr (.inr (.inr (.inr ⟨_, rfl, .inr (.inr rfl)⟩)))
  | committing p l =>
    cases r with
    | tx o =>
      cases o with
      | committed st ps wid => exact .inr (.inl ⟨p, l, st, ps, wid, rfl, rfl, rfl⟩)
      | skipped => exact .inr (.inr (.inr (.inr ⟨_, rfl, .inr (.inl rfl)⟩)))
      | failed e => exact .inr (.inr (.inr (.inr ⟨_, rfl, .inr (.inr rfl)⟩)))
    | _ => exact .inr (.inr (.inr (.inr ⟨_, rfl, .inr (.inr rfl)⟩)))
  | caching st ps wid =>
    cases r with
    | ok => exact .inr (.inr (.inl ⟨st, ps, wid, rfl, rfl, rfl⟩))
    | _ => exact .inr (.inr (.inr (.inr ⟨_, rfl, .inr (.inr rfl)⟩)))
  | publishing =>
    cases r with
    | ok => exact .inr (.inr (.inr (.inl ⟨rfl, rfl, rfl⟩)))
    | _ => exact .inr (.inr (.inr (.inr ⟨_, rfl, .inr (.inr rfl)⟩)))
  | deleting =>
    cases r with
    | ok => exact .inr (.inr (.inr (.inr ⟨_, rfl, .inl ⟨rfl, rfl⟩⟩)))
    | _ => exact .inr (.inr (.inr (.inr ⟨_, rfl, .inr (.inr rfl)⟩)))

/-- The worker commits with what it has read. -/
theorem settleResume_committing {now : Int} {job : SettleJob} {pc : SettlePc} {r : Reply}
    {p l : Option String} (hd : pc.done = false)
    (h : (settleResume now job pc r).1 = .committing p l) : r = .values p l := by
  rcases settleResume_cases now job pc r hd with ⟨p', l', -, rfl, he⟩ | ⟨_, _, st, ps, wid, -, -, he⟩ |
      ⟨st, ps, wid, -, -, he⟩ | ⟨-, -, he⟩ | ⟨ok, he, -⟩ <;> rw [he] at h <;> cases h
  rfl

theorem settleResume_settleTx {now : Int} {job : SettleJob} {pc : SettlePc} {r : Reply} {id : String}
    {p l : Option String} (hd : pc.done = false)
    (h : (settleResume now job pc r).2 = some (.settleTx id p l)) : r = .values p l := by
  rcases settleResume_cases now job pc r hd with ⟨p', l', -, rfl, he⟩ | ⟨_, _, st, ps, wid, -, -, he⟩ |
      ⟨st, ps, wid, -, -, he⟩ | ⟨-, -, he⟩ | ⟨ok, he, -⟩ <;> rw [he] at h <;> cases h
  rfl

end Synora
