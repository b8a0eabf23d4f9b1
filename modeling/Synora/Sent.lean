import Synora.System

/- What holds of every process at any time: the request it has on the wire is the
   one its code builds, the columns it goes on with are those of its row, and a
   bid answered 201 was accepted by the script. The columns a bid reads apart
   from the status are never written (`terms_exec`). -/
namespace Synora

open Calls

/-! ## The terms of an auction -/

/-- The columns of a row that no statement of the service changes once it is inserted. -/
structure Terms where
  startingPrice : Numeric
  startTime : Int
  endTime : Int
  createdAt : Int

def AuctionRow.terms (r : AuctionRow) : Terms :=
  ⟨r.startingPrice, r.startTime, r.endTime, r.createdAt⟩

/-- The terms of the auctions in the database. -/
def termsOf (db : Db) (u : Uuid) : Option Terms := (db.find u).map (fun a => a.terms)

theorem termsOf_of_find {db : Db} {u : Uuid} {a : Auction} (h : db.find u = some a) :
    termsOf db u = some a.terms := by
  simp [termsOf, h]

theorem terms_of_rewrites {db db' : Db} {u : Uuid} {a : Auction} {r : AuctionRow}
    (hf : db.find u = some a) (hterms : r.terms = a.terms)
    (hrow : ∃ a', db'.find u = some a' ∧ a'.toAuctionRow = r)
    (hothers : ∀ j, j ≠ u → db'.find j = db.find j) : termsOf db' = termsOf db := by
  funext j
  by_cases hj : j = u
  · subst hj
    obtain ⟨a', ha', hr⟩ := hrow
    rw [termsOf_of_find ha', termsOf_of_find hf, hr, hterms]
  · simp [termsOf, hothers j hj]

theorem terms_settleTx (E : Engines) (db : Db) (now : Int) (id : String) (price leader : Option String) :
    termsOf (settleTx E db now id price leader).1 = termsOf db := by
  rcases settleTx_cases E db now id price leader with
    ⟨e, h⟩ | ⟨h, -⟩ | ⟨u, a, -, hf, -, ⟨-, -, hr⟩ | ⟨ps, us, w, p, -, -, -, -, -, hr⟩⟩
  · rw [h]
  · rw [h]
  · exact terms_of_rewrites (r := a.toAuctionRow.closed now) hf rfl hr.row hr.others
  · exact terms_of_rewrites (r := a.toAuctionRow.settled now p w) hf rfl hr.row hr.others

theorem terms_exec (E : Engines) (w : World) (c : Cmd) : termsOf (exec E w c).1.db = termsOf w.db := by
  cases c with
  | settleTx id price leader => exact terms_settleTx E w.db w.pgNow id price leader
  | _ => rw [exec_db (by simp)]

theorem accepted_exec (E : Engines) (w : World) (c : Cmd) {x : Acceptance} (h : x ∈ w.accepted) :
    x ∈ (exec E w c).1.accepted := by
  cases c with
  | evalBid id amount user m ttl =>
    rcases exec_evalBid_cases E w id amount user m ttl with ⟨he, -⟩ | ⟨-, he⟩
    · rw [he]; exact h
    · rw [he]; exact List.mem_cons_of_mem _ h
  | selectRow id => rw [exec_selectRow_world]; exact h
  | _ => exact h

/-! ## What a process holds -/

section
variable (T : Uuid → Option Terms) (A : Job → Prop)

/-- The row a bid goes on with has the terms of the auction it names. -/
def RowOk (req : BidRequest) (row : SeenRow) : Prop :=
  ∃ u t, Uuid.input req.auctionID = some u ∧ T u = some t ∧
    row.starting = t.startingPrice.text ∧ row.start = 1000 * t.startTime ∧
    row.end = 1000 * t.endTime

variable {T} in
/-- The row a bid on `u` goes on with has the terms of `u`. -/
theorem RowOk.terms {req : BidRequest} {row : SeenRow} {u : Uuid} {t : Terms} (h : RowOk T req row)
    (hid : req.auctionID = u.text) (hT : T u = some t) :
    row.starting = t.startingPrice.text ∧ row.start = 1000 * t.startTime ∧
      row.end = 1000 * t.endTime := by
  obtain ⟨v, t', hv, ht', hterms⟩ := h
  rw [hid, Uuid.input_text] at hv
  cases hv
  rw [hT] at ht'
  cases ht'
  exact hterms

/-- A bid that was accepted. -/
def BidRequest.acceptance (req : BidRequest) : Acceptance := ⟨req.auctionID, req.user, req.amount⟩

def BidOk (w : World) (req : BidRequest) : BidPc → Prop
  | .selecting => Uuid.validate req.auctionID = true ∧ amountPattern req.amount = true
  | .initializing row => amountPattern req.amount = true ∧ RowOk T req row
  | .arming row => amountPattern req.amount = true ∧ RowOk T req row
  | .scripting row _ => amountPattern req.amount = true ∧ RowOk T req row
  | .answered a => a.code = 201 → amountPattern req.amount = true ∧ req.acceptance ∈ w.accepted

/-- The status a settlement leaves a row with. -/
def AuctionStatus.final (st : AuctionStatus) : Prop := st = .CLOSED ∨ st = .SETTLED

/-- A settlement runs on the text of a row, with its end, and caches a final status. -/
def SettleOk (job : SettleJob) (pc : SettlePc) : Prop :=
  (∃ u t, A (.settle u) ∧ job.id = u.text ∧ T u = some t ∧ job.end = 1000 * t.endTime) ∧
    ∀ st ps wid, pc = .caching st ps wid → st.final

/-- The job satisfied `A` when it started, and the rest is as above. -/
def ProcOk (w : World) : Proc → Prop
  | .bid req pc => A (.bid req) ∧ BidOk T w req pc
  | .settle job pc => SettleOk T A job pc

/-- The request a process in this state waits for. -/
inductive Waits : Proc → Cmd → Prop
  | selecting (req : BidRequest) : Waits (.bid req .selecting) (.selectRow req.auctionID)
  | initializing (req : BidRequest) (row : SeenRow) :
    Waits (.bid req (.initializing row)) (.setNX (priceKey req.auctionID) row.starting)
  | arming (req : BidRequest) (row : SeenRow) (now : Int) :
    Waits (.bid req (.arming row))
      (.set (statusKey req.auctionID) "ACTIVE" (redisTtl (durationSub row.end now)))
  | scripting (req : BidRequest) (row : SeenRow) (placed : Int) :
    Waits (.bid req (.scripting row placed)) (evalCmd req row placed)
  | reading (job : SettleJob) :
    Waits (.settle job .reading) (.mget (priceKey job.id) (leaderKey job.id))
  | committing (job : SettleJob) (p l : Option String) :
    Waits (.settle job (.committing p l)) (.settleTx job.id p l)
  | caching (job : SettleJob) (st : AuctionStatus) (ps : String) (wid : Option String) (now : Int) :
    Waits (.settle job (.caching st ps wid))
      (.set (statusKey job.id) st.label (redisTtl (settleTtl job.end now)))
  | publishing (job : SettleJob) (st : AuctionStatus) (ps : String) (wid : Option String) :
    Waits (.settle job .publishing)
      (.publish (updatesChannel job.id) (.settlement job.id st ps wid))
  | deleting (job : SettleJob) :
    Waits (.settle job .deleting) (.del (priceKey job.id) (leaderKey job.id))

/-- What a reply on its way to a process tells. -/
def ReplyOk (w : World) : Proc → Reply → Prop
  | .bid req .selecting, .row _ start «end» _ starting =>
    ∃ u t, Uuid.input req.auctionID = some u ∧ T u = some t ∧ starting = t.startingPrice.text ∧
      start = 1000 * t.startTime ∧ «end» = 1000 * t.endTime
  | .bid req (.scripting _ _), .script n _ => n = 1 → req.acceptance ∈ w.accepted
  | .settle _ (.committing _ _), .tx (.committed st _ _) => st.final
  | .settle _ (.caching _ _ _), r => r = .ok
  | .settle _ .publishing, r => r = .ok
  | .settle _ .deleting, r => r = .ok
  | _, _ => True

structure SlotOk (w : World) (sl : Slot Proc Cmd Reply) : Prop where
  proc : ∀ p, sl.client = .live p → ProcOk T A w p
  wire : ∀ c, sl.wire = some c → ∃ p, ProcOk T A w p ∧ Waits p c ∧
    ∀ q, sl.client = .live q → q.done = false → q = p
  inbox : ∀ p r, sl.client = .live p → p.done = false → sl.inbox = some r → ReplyOk T w p r

end

/-- Every process uses the id text its job satisfies. -/
theorem ProcOk.bid_id {T : Uuid → Option Terms} {A : Job → Prop} {id : String} {w : World}
    {req : BidRequest} {pc : BidPc} (hA : ∀ j, A j → j.auctionId = id)
    (h : ProcOk T A w (.bid req pc)) : req.auctionID = id := hA _ h.1

theorem ProcOk.settle_id {T : Uuid → Option Terms} {A : Job → Prop} {id : String} {w : World}
    {job : SettleJob} {pc : SettlePc} (hA : ∀ j, A j → j.auctionId = id)
    (h : ProcOk T A w (.settle job pc)) : job.id = id := by
  obtain ⟨⟨v, t, hjob, hid, -⟩, -⟩ := h
  exact hid.trans (hA _ hjob)

/-- The auctions have the terms `T`. -/
def TermsAre (T : Uuid → Option Terms) (w : World) : Prop := termsOf w.db = T

theorem procOk_mono {T : Uuid → Option Terms} {A : Job → Prop} {w w' : World} {p : Proc}
    (hacc : ∀ x ∈ w.accepted, x ∈ w'.accepted) (h : ProcOk T A w p) : ProcOk T A w' p := by
  cases p with
  | settle job pc => exact h
  | bid req pc =>
    cases pc with
    | answered a => exact ⟨h.1, fun h201 => ⟨(h.2 h201).1, hacc _ (h.2 h201).2⟩⟩
    | _ => exact h

theorem replyOk_mono {T : Uuid → Option Terms} {w w' : World} {p : Proc} {r : Reply}
    (hacc : ∀ x ∈ w.accepted, x ∈ w'.accepted) (h : ReplyOk T w p r) : ReplyOk T w' p r := by
  cases p with
  | settle job pc =>
    cases pc with
    | committing p l =>
      cases r with
      | tx o => cases o <;> exact h
      | _ => exact trivial
    | _ => exact h
  | bid req pc =>
    cases pc with
    | scripting row placed =>
      cases r with
      | script n v => exact fun hn => hacc _ (h hn)
      | _ => exact trivial
    | selecting => cases r <;> exact h
    | _ => exact trivial

theorem slotOk_mono {T : Uuid → Option Terms} {A : Job → Prop} {w w' : World} {sl : Slot Proc Cmd Reply}
    (hacc : ∀ x ∈ w.accepted, x ∈ w'.accepted) (h : SlotOk T A w sl) : SlotOk T A w' sl where
  proc p hp := procOk_mono hacc (h.proc p hp)
  wire c hc := by
    obtain ⟨p, hp, hw, hq⟩ := h.wire c hc
    exact ⟨p, procOk_mono hacc hp, hw, hq⟩
  inbox p r hp hd hr := replyOk_mono hacc (h.inbox p r hp hd hr)

/-- The reply to a request tells what `ReplyOk` says. -/
theorem replyOk_exec {T : Uuid → Option Terms} (E : Engines) {w : World} {p : Proc} {c : Cmd}
    (hT : TermsAre T w) (hw : Waits p c) : ReplyOk T (exec E w c).1 p (exec E w c).2 := by
  cases hw with
  | selecting req =>
    simp only [exec]
    split
    · exact trivial
    · rename_i u hu
      split
      · exact trivial
      · rename_i a hf
        unfold scanBidRow
        split
        · exact trivial
        · exact ⟨u, a.terms, hu, by rw [← hT]; exact termsOf_of_find hf, rfl, rfl, rfl⟩
  | scripting req row placed =>
    simp only [evalCmd]
    rcases exec_evalBid_cases E w req.auctionID req.amount req.user
        (.priceUpdate req.auctionID req.amount placed) (ttlSeconds row.end placed) with
      ⟨-, hne, hno⟩ | ⟨-, he⟩
    · simp only [exec] at hne ⊢
      split
      · exact fun h => absurd h (by decide)
      · exact fun h => absurd h (by decide)
      · rename_i r hr
        exact absurd hr (hno r)
      · exact trivial
    · rw [he]
      exact fun _ => List.mem_cons_self
  | committing job p l =>
    simp only [exec]
    rcases settleTx_cases E w.db w.pgNow job.id p l with
      ⟨e, he⟩ | ⟨he, -⟩ | ⟨u, a, -, -, -, ⟨-, he, -⟩ | ⟨ps, us, v, q, -, -, -, -, he, -⟩⟩
    · rw [he]; exact trivial
    · rw [he]; exact trivial
    · rw [he]; exact .inl rfl
    · rw [he]; exact .inr rfl
  | caching job st ps wid now => rfl
  | publishing job st ps wid => rfl
  | deleting job => rfl
  | _ => exact trivial

/-- A process with its request on the wire. -/
theorem slotOk_sent {T : Uuid → Option Terms} {A : Job → Prop} {w : World} {p : Proc} {c : Cmd}
    (hp : ProcOk T A w p) (hw : Waits p c) : SlotOk T A w { client := .live p, wire := some c } where
  proc q hq := by
    cases hq
    exact hp
  wire d hd := by
    cases hd
    refine ⟨p, hp, hw, fun q hq _ => ?_⟩
    cases hq
    rfl
  inbox q r _ _ hr := by cases hr

/-- A process with nothing on the wire. -/
theorem slotOk_quiet {T : Uuid → Option Terms} {A : Job → Prop} {w : World} {p : Proc}
    (hp : ProcOk T A w p) : SlotOk T A w { client := .live p, wire := none } where
  proc q hq := by
    cases hq
    exact hp
  wire d hd := by cases hd
  inbox q r _ _ hr := by cases hr

/-- The handler goes on with a reply. -/
theorem slotOk_bidResume {T : Uuid → Option Terms} {A : Job → Prop} {w : World} (now : Int)
    {req : BidRequest} {pc : BidPc} {r : Reply} (hp : ProcOk T A w (.bid req pc))
    (hrep : ReplyOk T w (.bid req pc) r) (hd : pc.done = false) :
    SlotOk T A w { client := .live (.bid req (bidResume now req pc r).1),
                   wire := (bidResume now req pc r).2 } := by
  obtain ⟨hA, hp⟩ := hp
  rcases bidResume_cases now req pc r hd with ⟨row, c, rfl, -, rfl, he⟩ | ⟨row, rfl, -, he⟩ |
      ⟨row, rfl, -, -, he⟩ | ⟨row, placed, v, rfl, rfl, he⟩ | ⟨a, ha, he⟩ <;> rw [he]
  · exact slotOk_sent (p := .bid req (.initializing row)) ⟨hA, hp.2, hrep⟩ (.initializing req row)
  · exact slotOk_sent (p := .bid req (.arming row)) ⟨hA, hp⟩ (.arming req row _)
  · exact slotOk_sent (p := .bid req (.scripting row _)) ⟨hA, hp⟩ (.scripting req row _)
  · exact slotOk_quiet (p := .bid req (.answered _)) ⟨hA, fun _ => ⟨hp.1, hrep rfl⟩⟩
  · exact slotOk_quiet (p := .bid req (.answered a)) ⟨hA, fun h => absurd h ha⟩

/-- The worker goes on with a reply. -/
theorem slotOk_settleResume {T : Uuid → Option Terms} {A : Job → Prop} {w : World} (now : Int)
    {job : SettleJob} {pc : SettlePc} {r : Reply} (hp : ProcOk T A w (.settle job pc))
    (hrep : ReplyOk T w (.settle job pc) r) (hd : pc.done = false) :
    SlotOk T A w { client := .live (.settle job (settleResume now job pc r).1),
                   wire := (settleResume now job pc r).2 } := by
  obtain ⟨hjob, -⟩ := hp
  rcases settleResume_cases now job pc r hd with ⟨p, l, -, -, he⟩ |
      ⟨p, l, st, ps, wid, rfl, rfl, he⟩ | ⟨st, ps, wid, -, -, he⟩ | ⟨-, -, he⟩ | ⟨ok, he, -⟩ <;> rw [he]
  · refine slotOk_sent (p := .settle job (.committing p l)) ⟨hjob, fun _ _ _ h => ?_⟩
      (.committing job p l)
    cases h
  · refine slotOk_sent (p := .settle job (.caching st ps wid)) ⟨hjob, fun _ _ _ h => ?_⟩
      (.caching job st ps wid _)
    cases h
    exact hrep
  · refine slotOk_sent (p := .settle job .publishing) ⟨hjob, fun _ _ _ h => ?_⟩
      (.publishing job st ps wid)
    cases h
  · refine slotOk_sent (p := .settle job .deleting) ⟨hjob, fun _ _ _ h => ?_⟩ (.deleting job)
    cases h
  · refine slotOk_quiet (p := .settle job (.finished ok)) ⟨hjob, fun _ _ _ h => ?_⟩
    cases h

theorem sent_rely (E : Engines) (T : Uuid → Option Terms) (A : Nat → Job → Prop) :
    Rely (program E) (TermsAre T) (fun i => SlotOk T (A i)) (fun _ e => JobsBy A e) where
  tick w d h := h
  tickL i w d sl _ h := ⟨h.proc, h.wire, h.inbox⟩
  start s i j p c hG hD hst := by
    rcases startJob_cases hst with ⟨req, rfl, hid, hpat, rfl, rfl⟩ | ⟨req, rfl, rfl, rfl⟩ |
        ⟨u, job, rfl, hjob, rfl, rfl⟩
    · exact slotOk_sent (p := .bid req .selecting) ⟨hD, hid, hpat⟩ (.selecting req)
    · exact slotOk_quiet (p := .bid req (.answered invalidBid)) ⟨hD, fun h => absurd h (by decide)⟩
    · obtain ⟨a, hf, -, -, rfl⟩ := scanPicks_eq_some hjob
      have ht : T u = some a.terms := by
        rw [← hG]
        exact termsOf_of_find hf
      exact slotOk_sent (p := .settle _ .reading) ⟨⟨u, a.terms, hD, rfl, ht, rfl⟩, fun _ _ _ h => (by cases h)⟩
        (.reading _)
  exec s i c hG _ _ _ := (terms_exec E s.world c).trans hG
  execL s i c hG hL _ hw := by
    have hacc : ∀ x ∈ s.world.accepted, x ∈ (exec E s.world c).1.accepted :=
      fun x hx => accepted_exec E s.world c hx
    refine ⟨fun p hp => procOk_mono hacc (hL.proc p hp), fun d hd => (by cases hd), ?_⟩
    intro p r hp hd hr
    cases hr
    obtain ⟨q, -, hq, hsame⟩ := hL.wire c hw
    obtain rfl := hsame p hp hd
    exact replyOk_exec E hG hq
  stable s i c j sl _ _ _ _ h := slotOk_mono (fun x hx => accepted_exec E s.world c hx) h
  recv s i p r hG hL _ hc hr hd := by
    have hp := hL.proc p hc
    have hrep := hL.inbox p r hc hd hr
    cases p with
    | bid req pc => exact slotOk_bidResume _ hp hrep hd
    | settle job pc => exact slotOk_settleResume _ hp hrep hd
  fail s i p hG hL _ hc hd := by
    refine ⟨fun q hq => ?_, fun c hw => ?_, fun q r _ _ hr => (by cases hr)⟩
    · cases hq
      have hp := hL.proc p hc
      cases p with
      | bid req pc =>
        obtain ⟨a, ha, hcode⟩ := bidAbort_answered pc hd
        simp only [program_abort, abortProc, ha]
        exact ⟨hp.1, fun h => absurd h hcode⟩
      | settle job pc =>
        refine ⟨hp.1, fun _ _ _ h => ?_⟩
        have := abortProc_done (.settle job pc)
        rw [abortProc, h] at this
        cases this
    · -- the request may still execute, but nobody waits for its reply
      obtain ⟨q, hq, hwait, -⟩ := hL.wire c hw
      refine ⟨q, hq, hwait, fun q' hq' hnd => ?_⟩
      cases hq'
      rw [program_abort, abortProc_done] at hnd
      cases hnd
  drop i w sl _ h := ⟨h.proc, fun c hc => (by cases hc), h.inbox⟩
  crash i w sl _ h := by
    refine ⟨fun p hp => (by cases hp), fun c hw => ?_, fun p r hp => (by cases hp)⟩
    obtain ⟨q, hq, hwait, -⟩ := h.wire c hw
    exact ⟨q, hq, hwait, fun q' hq' => (by cases hq')⟩

/-- What holds of the processes at any time, when client `i` starts with a job of `A i`. -/
abbrev SoundBy (T : Uuid → Option Terms) (A : Nat → Job → Prop) : Sys → Prop :=
  Holds (TermsAre T) (fun i => SlotOk T (A i))

/-- The same for one condition on all jobs. -/
abbrev Sound (T : Uuid → Option Terms) (A : Job → Prop) : Sys → Prop := SoundBy T (fun _ => A)

theorem sound_fresh {A : Nat → Job → Prop} {s : Sys} (h : s = State.fresh s.world) :
    SoundBy (termsOf s.world.db) A s := by
  refine ⟨rfl, fun i => ?_⟩
  rw [h]
  exact ⟨fun p hp => (by cases hp), fun c hc => (by cases hc), fun p r hp => (by cases hp)⟩

theorem SoundBy.step {E : Engines} {T : Uuid → Option Terms} {A : Nat → Job → Prop} {s s' : Sys}
    {e : Ev} (h : SoundBy T A s) (hA : JobsBy A e) (hst : sysStep E s e = some s') : SoundBy T A s' :=
  (sent_rely E T A).step h hA hst

/-- **Every state of a run is sound**, and this may be assumed along the run. -/
theorem sound_along {E : Engines} {A : Job → Prop} {C : Sys → Ev → Prop} {s s' : Sys}
    (h : s = State.fresh s.world) (hC : ∀ t e, C t e → JobsOn A e)
    (hr : Steps.Reach (sysStep E) C s s') :
    Sound (termsOf s.world.db) A s' ∧
      Steps.Reach (sysStep E) (fun t e => C t e ∧ Sound (termsOf s.world.db) A t) s s' :=
  Steps.reach_keeps (fun t e _ hI hc hst => SoundBy.step hI (hC t e hc) hst) (sound_fresh h) hr

/-! ## What the workers have read -/

/-- The price and the leader a worker has read, or is about to be told, satisfy `R`, and the
outcome of a transaction it is about to be told satisfies `Q`. -/
structure Reads (R : Option String → Option String → Prop) (Q : TxOutcome → Prop)
    (sl : Slot Proc Cmd Reply) : Prop where
  client : ∀ job p l, sl.client = .live (.settle job (.committing p l)) → R p l
  wire : ∀ id p l, sl.wire = some (.settleTx id p l) → R p l
  inbox : ∀ p l, sl.inbox = some (.values p l) → R p l
  told : ∀ o, sl.inbox = some (.tx o) → Q o

/-- A slot that runs no transaction and has nothing to be told has read nothing. -/
theorem reads_quiet {R : Option String → Option String → Prop} {Q : TxOutcome → Prop}
    {sl : Slot Proc Cmd Reply} (hclient : ∀ job p l, sl.client ≠ .live (.settle job (.committing p l)))
    (hwire : ∀ id p l, sl.wire ≠ some (.settleTx id p l)) (hinbox : sl.inbox = none) : Reads R Q sl where
  client job p l h := absurd h (hclient job p l)
  wire id p l h := absurd h (hwire id p l)
  inbox p l h := by rw [hinbox] at h; cases h
  told o h := by rw [hinbox] at h; cases h

theorem reads_fresh {R : Option String → Option String → Prop} {Q : TxOutcome → Prop} {s : Sys}
    (h : s = State.fresh s.world) (i : Nat) : Reads R Q (s.slot i) := by
  rw [h]
  exact reads_quiet (by simp [State.fresh]) (by simp [State.fresh]) rfl

/-- **One step keeps what the workers have read**, if what MGET returns now satisfies `R` and
what the transaction makes of such values now satisfies `Q`. -/
theorem Reads.step {E : Engines} {T : Uuid → Option Terms} {A : Job → Prop}
    {R : Option String → Option String → Prop} {Q : TxOutcome → Prop} {s s' : Sys} {e : Ev}
    (hsound : Sound T A s)
    (hread : ∀ job pc, ProcOk T A s.world (.settle job pc) →
      R (s.world.get (priceKey job.id)) (s.world.get (leaderKey job.id)))
    (htx : ∀ job pc p l, ProcOk T A s.world (.settle job pc) → R p l →
      Q (settleTx E s.world.db s.world.pgNow job.id p l).2)
    (h : ∀ i, Reads R Q (s.slot i)) (hst : sysStep E s e = some s') : ∀ i, Reads R Q (s'.slot i) := by
  intro i
  rcases Program.step_slot hst i with he | ⟨j, p, c, -, -, hstart, he⟩ | ⟨c, -, hw, he⟩ |
      ⟨p, r, -, hc, hr, hd, he⟩ | ⟨p, -, -, -, he⟩ | ⟨c, -, -, he⟩ | ⟨p, -, -, -, he⟩ <;> rw [he]
  · exact h i
  · rcases startJob_cases hstart with ⟨req, rfl, -, -, rfl, rfl⟩ | ⟨req, rfl, rfl, rfl⟩ |
        ⟨u, job, rfl, -, rfl, rfl⟩ <;>
      exact reads_quiet (by simp) (by simp) rfl
  · -- what MGET and the transaction return is what they find now
    obtain ⟨p, hp, hwait, -⟩ := (hsound.2 i).wire c hw
    refine ⟨(h i).client, fun _ _ _ h => (by cases h), fun pr ld hval => ?_, fun o htold => ?_⟩
    · obtain ⟨k, k', rfl, rfl, rfl⟩ := exec_values (Option.some.inj hval)
      cases hwait with
      | reading job => exact hread job _ hp
    · obtain ⟨id, pr, ld, rfl, rfl⟩ := exec_tx (Option.some.inj htold)
      cases hwait with
      | committing job => exact htx job _ pr ld hp ((h i).wire _ _ _ hw)
  · cases p with
    | bid req pc =>
      exact reads_quiet (by simp [resumeProc]) (fun id p l => bidResume_ne_settleTx hd) rfl
    | settle job pc =>
      refine ⟨fun job' p l hcl => ?_, fun id p l hw => ?_, fun _ _ h => (by cases h),
        fun _ h => (by cases h)⟩
      · simp only [program_resume, resumeProc, Client.live.injEq, Proc.settle.injEq] at hcl
        exact (h i).inbox _ _ (settleResume_committing hd hcl.2 ▸ hr)
      · exact (h i).inbox _ _ (settleResume_settleTx hd hw ▸ hr)
  · refine ⟨fun job' p' l he => ?_, (h i).wire, fun _ _ h => (by cases h), fun _ h => (by cases h)⟩
    have hdone := abortProc_done p
    simp only [program_abort, Client.live.injEq] at he
    rw [he] at hdone
    cases hdone
  · exact ⟨(h i).client, fun _ _ _ h => (by cases h), (h i).inbox, (h i).told⟩
  · exact ⟨fun _ _ _ h => (by cases h), (h i).wire, fun _ _ h => (by cases h), fun _ h => (by cases h)⟩

end Synora
