import Synora.Auth
import Synora.Backend

/- Nothing is ever sold. `App.user` names everyone "" (Auth), so the script writes an
   empty leader, and `settle`, which counts an empty leader as none, closes the row
   and never settles it. The chain runs over four processes and two servers; it is
   one invariant (`Nameless`): every leader that is stored, on the wire or on its way
   back is empty. -/
namespace Synora

open Calls Expiring

/-- Bids come from the handler, which takes the user from the bearer token. -/
def BidsFromHandler (mac : List UInt8 → List UInt8 → List UInt8) (secret : List UInt8) (s : Sys) : Act → Prop
  | .serve (.start _ (.bid req)) => ∃ authorization,
    bidRequest mac secret s.world.now authorization req.auctionID req.amount = .ok req
  | _ => True

/-- A request that writes no leader but "", and settles with none. -/
def Nameless : Cmd → Prop
  | .evalBid _ _ user _ _ => user = ""
  | .settleTx _ _ leader => nonEmpty leader = none
  | .setNX key _ => ∀ id, leaderKey id ≠ key
  | .set key _ _ => ∀ id, leaderKey id ≠ key
  | .mget _ key' => ∃ id, key' = leaderKey id
  | _ => True

structure NamelessSlot (sl : Slot Proc Cmd Reply) : Prop where
  bidder : ∀ req pc, sl.client = .live (.bid req pc) → req.user = ""
  wire : ∀ c, sl.wire = some c → Nameless c
  inbox : ∀ p l, sl.inbox = some (.values p l) → nonEmpty l = none

/-- Redis names no leader. -/
def NoLeader (w : World) : Prop := ∀ id v, w.get (leaderKey id) = some v → v = ""

/-- Nothing has been sold since `db`: the ledger is the same, and the SETTLED rows are its own. -/
structure NothingSold (db db' : Db) : Prop where
  ledger : db'.bids = db.bids
  rows : ∀ u a, db'.find u = some a → a.status = .SETTLED → db.find u = some a

theorem nonEmpty_of_noLeader {w : World} (h : NoLeader w) (id : String) : nonEmpty (w.get (leaderKey id)) = none := by
  cases hv : w.get (leaderKey id) with
  | none => rfl
  | some v =>
    rw [h id v hv]
    rfl

/-- **A request without a name leaves none.** -/
theorem NoLeader.exec {E : Engines} {w : World} {c : Cmd} (h : NoLeader w) (hc : Nameless c) :
    NoLeader (exec E w c).1 := by
  cases c with
  | evalBid id amount user m ttl =>
    rcases exec_evalBid_cases E w id amount user m ttl with ⟨he, -⟩ | ⟨-, he⟩ <;> rw [he]
    · exact h
    · intro id' v hv
      by_cases hid : id' = id
      · subst hid
        obtain ⟨e, hentry, rfl⟩ := Store.get_eq_some.mp hv
        change (writeLead w.redis w.redisNow id' amount user ttl).entry w.redisNow (leaderKey id') = some e at hentry
        rw [entry_writeLead_leader] at hentry
        split at hentry
        · cases hentry
          exact hc
        · cases hentry
      · rw [get_congr (entry_lead_ne (leaderKey_ne_priceKey _ _) fun heq => hid (leaderKey_injective heq))] at hv
        exact h id' v hv
  | setNX key value =>
    intro id v hv
    have hsame : (Synora.exec E w (.setNX key value)).1.entry (leaderKey id) = w.entry (leaderKey id) :=
      Store.entry_putNX_ne _ _ _ _ (hc id)
    exact h id v ((get_congr hsame).symm.trans hv)
  | set key value ttl =>
    intro id v hv
    have hsame : (Synora.exec E w (.set key value ttl)).1.entry (leaderKey id) = w.entry (leaderKey id) :=
      Redis.entry_set_ne _ _ _ _ _ (hc id)
    exact h id v ((get_congr hsame).symm.trans hv)
  | del key key' =>
    intro id v hv
    obtain ⟨e, hentry, rfl⟩ := Store.get_eq_some.mp hv
    -- a key that is still there after DEL was there before
    have hbefore : ∀ (r : Redis) (k : String), (r.del k).entry w.redisNow (leaderKey id) = some e →
        r.entry w.redisNow (leaderKey id) = some e := by
      intro r k hr
      by_cases hk : leaderKey id = k
      · rw [hk, Store.entry_del_self] at hr
        cases hr
      · rwa [Store.entry_del_ne r _ hk] at hr
    exact h id e.value (Store.get_of_entry (hbefore _ _ (hbefore _ _ hentry)))
  | selectRow id =>
    rw [exec_selectRow_world]
    exact h
  | _ => exact h

/-- **Without a leader nothing is sold.** -/
theorem NothingSold.exec {E : Engines} {db : Db} {w : World} {c : Cmd} (h : NothingSold db w.db) (hc : Nameless c) :
    NothingSold db (exec E w c).1.db := by
  cases c with
  | settleTx id price leader =>
    rcases settleTx_cases E w.db w.pgNow id price leader with
      ⟨e, he⟩ | ⟨he, -⟩ | ⟨v, a, -, hf, -, ⟨-, -, hr⟩ | ⟨ps, us, x, p, -, hl, -⟩⟩
    · rw [exec_settleTx, he]
      exact h
    · rw [exec_settleTx, he]
      exact h
    · refine ⟨hr.bids.trans h.ledger, fun u b hb hs => ?_⟩
      obtain ⟨a', ha', hcols⟩ := hr.row
      by_cases hu : u = v
      · subst hu
        change (settleTx E w.db w.pgNow id price leader).1.find u = some b at hb
        rw [ha'] at hb
        cases hb
        rw [hcols, AuctionRow.closed_status] at hs
        cases hs
      · exact h.rows u b ((hr.others u hu).symm.trans hb) hs
    · rw [show nonEmpty leader = none from hc] at hl
      cases hl
  | _ =>
    rw [exec_db (by simp)]
    exact h

theorem nameless_quiet {sl : Slot Proc Cmd Reply} (hb : ∀ req pc, sl.client = .live (.bid req pc) → req.user = "")
    (hw : sl.wire = none) (hi : sl.inbox = none) : NamelessSlot sl :=
  ⟨hb, fun c hc => (by rw [hw] at hc; cases hc), fun p l hr => (by rw [hi] at hr; cases hr)⟩

/-- The handler goes on under its own name. -/
theorem nameless_bidResume (now : Int) {req : BidRequest} {pc : BidPc} {r : Reply} (hu : req.user = "")
    (hd : pc.done = false) :
    NamelessSlot { client := .live (.bid req (bidResume now req pc r).1), wire := (bidResume now req pc r).2 } := by
  refine ⟨fun req' pc' h => ?_, fun c hc => ?_, fun _ _ h => (by cases h)⟩
  · cases h
    exact hu
  · rcases bidResume_cases now req pc r hd with ⟨row, x, -, -, -, he⟩ | ⟨row, -, -, he⟩ |
        ⟨row, -, -, -, he⟩ | ⟨row, placed, v, -, -, he⟩ | ⟨a, -, he⟩ <;> (simp only [he] at hc; cases hc)
    · exact fun id => leaderKey_ne_priceKey _ _
    · exact fun id => leaderKey_ne_statusKey _ _
    · exact hu

/-- The worker goes on with the leader it has read. -/
theorem nameless_settleResume (now : Int) {job : SettleJob} {pc : SettlePc} {r : Reply}
    (hread : ∀ p l, r = .values p l → nonEmpty l = none) (hd : pc.done = false) :
    NamelessSlot { client := .live (.settle job (settleResume now job pc r).1)
                   wire := (settleResume now job pc r).2 } := by
  refine ⟨fun _ _ h => (by cases h), fun c hc => ?_, fun _ _ h => (by cases h)⟩
  rcases settleResume_cases now job pc r hd with ⟨p, l, -, hr, he⟩ | ⟨_, _, st, ps, wid, -, -, he⟩ |
      ⟨st, ps, wid, -, -, he⟩ | ⟨-, -, he⟩ | ⟨ok, he, -⟩ <;> (simp only [he] at hc; cases hc)
  · exact hread p l hr
  · exact fun id => leaderKey_ne_statusKey _ _
  · exact trivial
  · exact trivial

/-- What the two facts say of the servers. -/
def Unsold (db : Db) (w : World) : Prop := NoLeader w ∧ NothingSold db w.db

/-- The bidders that start are nobody. -/
def StartsNameless : Ev → Prop := JobsOn fun j => ∀ req, j = .bid req → req.user = ""

theorem unsold_rely (E : Engines) (db : Db) :
    Rely (program E) (Unsold db) (fun _ _ => NamelessSlot) (fun _ e => StartsNameless e) where
  tick w d h := ⟨fun id v hv => h.1 id v (get_of_tick hv), h.2⟩
  tickL i w d sl _ h := h
  start s i j p c _ hD hst := by
    rcases startJob_cases hst with ⟨req, rfl, -, -, rfl, rfl⟩ | ⟨req, rfl, rfl, rfl⟩ |
        ⟨u, job, rfl, -, rfl, rfl⟩
    · refine ⟨fun req' pc h => ?_, fun c hc => ?_, fun _ _ h => (by cases h)⟩
      · cases h
        exact hD req rfl
      · cases hc
        trivial
    · refine nameless_quiet (fun req' pc h => ?_) rfl rfl
      cases h
      exact hD req rfl
    · refine ⟨fun _ _ h => (by cases h), fun c hc => ?_, fun _ _ h => (by cases h)⟩
      cases hc
      exact ⟨job.id, rfl⟩
  exec s i c hG hL _ hw := ⟨hG.1.exec (hL.wire c hw), hG.2.exec (hL.wire c hw)⟩
  execL s i c hG hL _ hw := by
    refine ⟨hL.bidder, fun _ h => (by cases h), fun p l hval => ?_⟩
    obtain ⟨k, k', rfl, rfl, rfl⟩ := exec_values (Option.some.inj hval)
    obtain ⟨id, rfl⟩ := hL.wire _ hw
    exact nonEmpty_of_noLeader hG.1 id
  stable s i c j sl _ _ _ _ h := h
  recv s i p r _ hL _ hc hr hd := by
    cases p with
    | bid req pc => exact nameless_bidResume _ (hL.bidder req pc hc) hd
    | settle job pc =>
      refine nameless_settleResume _ (fun p l he => ?_) hd
      subst he
      exact hL.inbox p l hr
  fail s i p _ hL _ hc _ := by
    refine ⟨fun req pc h => ?_, hL.wire, fun _ _ h => (by cases h)⟩
    cases p with
    | bid req' pc' =>
      cases h
      exact hL.bidder _ pc' hc
    | settle job pc' => cases h
  drop i w sl _ h := ⟨h.bidder, fun _ h => (by cases h), h.inbox⟩
  crash i w sl _ h := ⟨fun _ _ h => (by cases h), h.wire, fun _ _ h => (by cases h)⟩

/-- The state of the back end while nothing is sold. -/
abbrev Nobody (db : Db) : Sys → Prop := Holds (Unsold db) fun _ _ => NamelessSlot

/-- **One step of the back end**, with bids from the handler. -/
theorem Nobody.step {E : Engines} {mac : List UInt8 → List UInt8 → List UInt8} {secret : List UInt8} {db : Db}
    {s s' : Sys} {x : Act} (h : Nobody db s) (hx : BidsFromHandler mac secret s x)
    (hst : backendStep E s x = some s') : Nobody db s' := by
  cases x with
  | serve e =>
    refine (unsold_rely E db).step h ?_ hst
    cases e with
    | start i j =>
      rintro req rfl
      obtain ⟨authorization, hreq⟩ := hx
      unfold bidRequest at hreq
      split at hreq
      · cases hreq
      · rename_i uid huid
        rw [← Except.ok.inj hreq]
        exact user_eq_empty mac secret huid
    | _ => trivial
  | create id authenticated input =>
    simp only [backendStep] at hst
    split at hst
    · rename_i db' a hc
      cases hst
      obtain ⟨hins, hrow⟩ := createAuction_inserts hc
      obtain ⟨-, hself, hothers⟩ := Db.insertAuction_find hins
      refine ⟨⟨h.1.1, ?_, fun u b hb hs => ?_⟩, h.2⟩
      · exact (Db.insertAuction_ok hins).2.1.trans h.1.2.ledger
      · by_cases hu : u = a.id
        · subst hu
          change db'.find a.id = some b at hb
          rw [hself] at hb
          cases hb
          rcases hrow.status with hst | hst <;> (rw [hst] at hs; cases hs)
        · exact h.1.2.rows u b ((hothers u hu).symm.trans hb) hs
    · cases hst
      exact h
  | signUp v =>
    cases hst
    exact ⟨⟨h.1.1, h.1.2.ledger, h.1.2.rows⟩, h.2⟩

/-- A bid of 10.50 under the sample token is accepted; the lot ends and is settled. -/
def bidOfNobody : List Act :=
  .serve (.start 0 (.bid ⟨(Uuid.ofDigit 0).text, "10.50", ""⟩)) ::
    (calls 0 4 ++ .tick 1000000000 :: .start 1 (.settle (.ofDigit 0)) :: calls 1 5).map .serve

end Synora
