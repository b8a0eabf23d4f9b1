import Synora.Watched

/- A settlement that clients are told of has happened. The worker publishes after its
   transaction has committed, and what a transaction has closed or settled stays so; a
   frame may come late, but it is never ahead of the table and never contradicted by it
   (`told_settlements_true`). -/
namespace Synora

open Calls AuctionHouse

/-! ## What is announced -/

/-- The outcome of a row, as `settle` reports it. -/
def TrueOfRow (E : Engines) (a : Auction) (st : AuctionStatus) (price : String) (winner : Option String) : Prop :=
  a.status = st ∧ (st = .CLOSED ∨ st = .SETTLED ∧ ∃ p us v, E.numericIn price = some p ∧
    a.currentHighPrice = some p ∧ winner = some us ∧ Uuid.input us = some v ∧ a.winnerId = some v)

/-- The auction has ended, with this outcome. -/
def Announced (E : Engines) (w : World) (id : String) (st : AuctionStatus) (price : String)
    (winner : Option String) : Prop :=
  ∃ u a, id = u.text ∧ w.db.find u = some a ∧ a.endTime ≤ w.pgNow ∧ TrueOfRow E a st price winner

/-- **An outcome stays.** -/
theorem Announced.moves {E : Engines} {w w' : World} {id price : String} {st : AuctionStatus}
    {winner : Option String} (h : Announced E w id st price winner) (hm : Moves (house w) (house w')) :
    Announced E w' id st price winner := by
  obtain ⟨u, a, rfl, hf, hends, hst, hout⟩ := h
  obtain ⟨l, hl, hlater⟩ := hm.lot (house_lot hf)
  obtain ⟨b, hb, rfl⟩ := Option.map_eq_some_iff.mp hl
  have hrow := becomes_of_later hlater
  have hover : a.status ≠ .ACTIVE := by
    rcases hout with hclosed | ⟨hsettled, -⟩ <;> (rw [hst]; simp [*])
  refine ⟨u, b, rfl, hb, ?_, (hrow.status hover).trans hst, ?_⟩
  · calc b.endTime = a.endTime := hrow.endTime
      _ ≤ (house w).clock := hends
      _ ≤ (house w').clock := hm.clock
  · rcases hout with hclosed | ⟨hsettled, p, us, v, hp, hprice, hwinner, hv, hwon⟩
    · exact .inl hclosed
    · obtain ⟨hprice', hwon'⟩ := hrow.sale (hst.trans hsettled)
      exact .inr ⟨hsettled, p, us, v, hp, hprice'.trans hprice, hwinner, hv, hwon'.trans hwon⟩

/-- What the transaction returns, the row has. -/
theorem announced_settleTx {E : Engines} {w : World} {u : Uuid} {price leader : Option String} {st : AuctionStatus}
    {ps : String} {winner : Option String} (hdue : ∀ a, w.db.find u = some a → a.endTime ≤ w.pgNow)
    (ho : (exec E w (.settleTx u.text price leader)).2 = .tx (.committed st ps winner)) :
    Announced E (exec E w (.settleTx u.text price leader)).1 u.text st ps winner := by
  have ho' : (settleTx E w.db w.pgNow u.text price leader).2 = .committed st ps winner := by
    simpa [exec_settleTx] using ho
  rcases settleTx_cases E w.db w.pgNow u.text price leader with
    ⟨e, he⟩ | ⟨he, -⟩ | ⟨v, a, hv, hf, -, ⟨-, he, hr⟩ | ⟨qs, us, x, p, -, -, hx, hp, he, hr⟩⟩
  · rw [he] at ho'
    cases ho'
  · rw [he] at ho'
    cases ho'
  · rw [Uuid.input_text] at hv
    cases hv
    rw [he] at ho'
    cases ho'
    obtain ⟨b, hb, hcols⟩ := hr.row
    refine ⟨u, b, rfl, hb, ?_, by rw [hcols]; rfl, .inl rfl⟩
    rw [hcols]
    exact hdue a hf
  · rw [Uuid.input_text] at hv
    cases hv
    rw [he] at ho'
    cases ho'
    obtain ⟨b, hb, hcols⟩ := hr.row
    refine ⟨u, b, rfl, hb, ?_, by rw [hcols]; rfl, .inr ⟨rfl, p, us, x, hp, by rw [hcols]; rfl, rfl, hx,
      by rw [hcols]; rfl⟩⟩
    rw [hcols]
    exact hdue a hf

/-- What a worker is about to announce, and what it has been told for that. -/
structure TellsSlot (E : Engines) (w : World) (sl : Slot Proc Cmd Reply) : Prop where
  caching : ∀ job st price winner, sl.client = .live (.settle job (.caching st price winner)) →
    Announced E w job.id st price winner
  wire : ∀ channel id st price winner, sl.wire = some (.publish channel (.settlement id st price winner)) →
    Announced E w id st price winner
  inbox : ∀ job pc st price winner, sl.client = .live (.settle job pc) → pc.done = false →
    sl.inbox = some (.tx (.committed st price winner)) → Announced E w job.id st price winner

/-- Every settlement that was announced, or is about to be. -/
structure Tells (E : Engines) (s : Sys) : Prop where
  slots : ∀ i, TellsSlot E s.world (s.slot i)
  published : ∀ x ∈ s.world.published, ∀ id st price winner, x.2 = .settlement id st price winner →
    Announced E s.world id st price winner

theorem TellsSlot.moves {E : Engines} {w w' : World} {sl : Slot Proc Cmd Reply} (h : TellsSlot E w sl)
    (hm : Moves (house w) (house w')) : TellsSlot E w' sl where
  caching job st price winner hc := (h.caching job st price winner hc).moves hm
  wire channel id st price winner hw := (h.wire channel id st price winner hw).moves hm
  inbox job pc st price winner hc hd hi := (h.inbox job pc st price winner hc hd hi).moves hm

/-- A slot that announces nothing. -/
theorem tells_quiet {E : Engines} {w : World} {sl : Slot Proc Cmd Reply}
    (hclient : ∀ job st price winner, sl.client ≠ .live (.settle job (.caching st price winner)))
    (hwire : ∀ channel m, sl.wire ≠ some (.publish channel m)) (hinbox : sl.inbox = none) : TellsSlot E w sl where
  caching job st price winner hc := absurd hc (hclient job st price winner)
  wire channel id st price winner hw := absurd hw (hwire channel _)
  inbox job pc st price winner _ _ hi := by
    rw [hinbox] at hi
    cases hi

/-- The worker goes on with a reply. -/
theorem tells_settleResume {E : Engines} {w : World} (now : Int) {job : SettleJob} {pc : SettlePc} {r : Reply}
    (hd : pc.done = false)
    (hcaching : ∀ st price winner, pc = .caching st price winner → Announced E w job.id st price winner)
    (htold : ∀ st price winner, r = .tx (.committed st price winner) → Announced E w job.id st price winner) :
    TellsSlot E w { client := .live (.settle job (settleResume now job pc r).1)
                    wire := (settleResume now job pc r).2 } := by
  rcases settleResume_cases now job pc r hd with ⟨p, l, -, -, he⟩ | ⟨p, l, st, ps, wid, -, rfl, he⟩ |
      ⟨st, ps, wid, rfl, -, he⟩ | ⟨-, -, he⟩ | ⟨ok, he, -⟩ <;> rw [he]
  · exact tells_quiet (fun _ _ _ _ h => by cases h) (fun _ _ h => by cases h) rfl
  · refine ⟨fun job' st' ps' wid' hc => ?_, fun _ _ _ _ _ hw => (by cases hw), fun _ _ _ _ _ _ _ hi => (by cases hi)⟩
    cases hc
    exact htold st ps wid rfl
  · refine ⟨fun _ _ _ _ hc => (by cases hc), fun channel id st' ps' wid' hw => ?_,
      fun _ _ _ _ _ _ _ hi => (by cases hi)⟩
    cases hw
    exact hcaching st ps wid rfl
  · exact tells_quiet (fun _ _ _ _ h => by cases h) (fun _ _ h => by cases h) rfl
  · exact tells_quiet (fun _ _ _ _ h => by cases h) (fun _ _ h => by cases h) rfl

/-- **One step of the processes**: nothing is announced that has not happened. -/
theorem Tells.step {E : Engines} {A : Job → Prop} {s s' : Sys} {e : Ev} (h : Tells E s)
    (hsound : Sound (termsOf s.world.db) A s) (hdue : Due s) (hst : sysStep E s e = some s') : Tells E s' := by
  have hmoves := sysStep_moves hdue hst
  have hslots : ∀ i, TellsSlot E s'.world (s.slot i) := fun i => (h.slots i).moves hmoves
  refine ⟨fun i => ?_, fun x hx id st price winner hm => ?_⟩
  · rcases Program.step_slot hst i with he | ⟨j, p, c, -, -, hstart, he⟩ | ⟨c, rfl, hw, he⟩ |
        ⟨p, r, -, hc, hr, hd, he⟩ | ⟨p, -, hc, -, he⟩ | ⟨c, -, -, he⟩ | ⟨p, -, -, -, he⟩ <;> rw [he]
    · exact hslots i
    · rcases startJob_cases hstart with ⟨req, rfl, -, -, rfl, rfl⟩ | ⟨req, rfl, rfl, rfl⟩ |
          ⟨u, job, rfl, -, rfl, rfl⟩ <;>
        exact tells_quiet (fun _ _ _ _ h => by cases h) (fun _ _ h => by cases h) rfl
    · refine ⟨(hslots i).caching, fun _ _ _ _ _ hw => (by cases hw), fun job pc st price winner hc hd hi => ?_⟩
      -- the reply is that of the transaction the worker waits for
      obtain ⟨q, -, hwaits, hsame⟩ := (hsound.2 i).wire c hw
      obtain rfl := hsame _ hc hd
      obtain ⟨id, p, l, rfl, -⟩ := exec_tx (Option.some.inj hi)
      have hworld : s'.world = (exec E s.world (.settleTx id p l)).1 := by
        rw [sysStep, Program.step_exec hw] at hst
        cases hst
        rfl
      rw [hworld]
      cases hwaits
      obtain ⟨u, hid, l', hl, hends⟩ := (hdue i).wire _ _ _ hw
      rw [hid] at hi ⊢
      refine announced_settleTx (fun a hf => ?_) (Option.some.inj hi)
      rw [house_lot hf] at hl
      cases hl
      exact hends
    · cases p with
      | bid req pc =>
        refine tells_quiet (fun _ _ _ _ h => by cases h) (fun channel m hw => ?_) rfl
        simp only [program_resume, resumeProc] at hw
        rcases bidResume_cases s.world.now req pc r hd with ⟨row, x, -, -, -, he⟩ | ⟨row, -, -, he⟩ |
            ⟨row, -, -, -, he⟩ | ⟨row, placed, v, -, -, he⟩ | ⟨a, -, he⟩ <;>
          (simp only [program_clock, he] at hw; cases hw)
      | settle job pc =>
        refine tells_settleResume _ hd (fun st price winner hpc => ?_) fun st price winner hreply => ?_
        · subst hpc
          exact (hslots i).caching job st price winner hc
        · subst hreply
          exact (hslots i).inbox job pc st price winner hc hd hr
    · refine ⟨fun job st price winner hcl => ?_, (hslots i).wire, fun _ _ _ _ _ _ _ hi => (by cases hi)⟩
      have hdone := abortProc_done p
      rw [program_abort] at hcl
      rw [Client.live.inj hcl] at hdone
      cases hdone
    · exact ⟨(hslots i).caching, fun _ _ _ _ _ hw => (by cases hw), (hslots i).inbox⟩
    · exact ⟨fun _ _ _ _ hcl => (by cases hcl), (hslots i).wire, fun _ _ _ _ _ hcl => (by cases hcl)⟩
  · have hold : ∀ x ∈ s.world.published, x.2 = .settlement id st price winner →
        Announced E s'.world id st price winner :=
      fun x hx hm => (h.published x hx id st price winner hm).moves hmoves
    rcases Program.step_world hst with hw | ⟨d, -, hw⟩ | ⟨i, c, rfl, hwire, hw⟩
    · rw [hw] at hx
      exact hold x hx hm
    · rw [hw] at hx
      exact hold x hx hm
    · rw [hw, program_exec] at hx
      obtain ⟨p, -, hwaits, -⟩ := (hsound.2 i).wire c hwire
      rcases exec_says (Waits.of hwaits) hx with hx | ⟨amount, placed, rfl⟩ | ⟨st', price', winner', rfl, rfl⟩
      · exact hold x hx hm
      · cases hm
      · cases hm
        exact (hslots i).wire _ _ _ _ _ hwire

/-- What the back end has announced is true, and stays so. -/
structure KeepsTold (E : Engines) (s : Sys) : Prop where
  sound : Sound (termsOf s.world.db) (fun _ => True) s
  due : Due s
  tells : Tells E s

theorem keepsTold_fresh (E : Engines) (now : Int) (db : Db) (redis : Redis) :
    KeepsTold E (State.fresh ⟨now, db, redis, [], []⟩) where
  sound := sound_fresh rfl
  due := due_fresh _
  tells := ⟨fun _ => tells_quiet (fun _ _ _ _ h => by cases h) (fun _ _ h => by cases h) rfl,
    fun _ hx => (by cases hx)⟩

theorem KeepsTold.step {E : Engines} {s s' : Sys} {x : Act} (h : KeepsTold E s) (hst : backendStep E s x = some s') :
    KeepsTold E s' := by
  obtain ⟨hmoves, hdue⟩ := backendStep_moves h.due hst
  refine ⟨sound_backendStep h.sound hst, hdue, ?_⟩
  rcases backendStep_cases hst with ⟨e, -, hserve⟩ | ⟨db, rfl, -⟩
  · exact h.tells.step h.sound h.due hserve
  · exact ⟨fun i => (h.tells.slots i).moves hmoves,
      fun x hx id st price winner hm => (h.tells.published x hx id st price winner hm).moves hmoves⟩

/-! ## What is told -/

/-- The members of a SETTLEMENT. -/
structure SettlementFrame where
  auctionId : String
  status : String
  currentHighPrice : String
  winnerId : Option String

/-- A payload, read as a SETTLEMENT. -/
def settlementOf (payload : String) : Option SettlementFrame := do
  let v ← Json.parse payload.toList
  match property v "type", property v "auction_id", property v "status", property v "current_high_price",
      property v "winner_id" with
  | some (.str "SETTLEMENT"), some (.str id), some (.str status), some (.str price), some winner =>
    some ⟨id, status, price, match winner with
      | .str user => some user
      | _ => none⟩
  | _, _, _, _, _ => none

theorem settlementOf_settlement (id : String) (st : AuctionStatus) (price : String) (winner : Option String) :
    settlementOf (Message.settlement id st price winner).payload = some ⟨id, st.label, price, winner⟩ := by
  simp only [settlementOf, Message.payload, settlementText, String.toList_ofList, Json.parse_encode]
  cases winner <;> simp [property, Jwt.lookup]

/-- Only a settlement is read as one, and as what it is. -/
theorem settlementOf_payload {m : Message} {f : SettlementFrame} (h : settlementOf m.payload = some f) :
    ∃ st, m = .settlement f.auctionId st f.currentHighPrice f.winnerId ∧ f.status = st.label := by
  cases m with
  | priceUpdate id amount placed =>
    simp [settlementOf, Message.payload, priceUpdateText, Json.parse_encode, property, Jwt.lookup] at h
  | settlement id st price winner =>
    rw [settlementOf_settlement] at h
    cases h
    exact ⟨st, rfl, rfl⟩

/-- **Who is told that an auction is over can rely on it.** Whatever the bidders, the workers and the
connections do: a SETTLEMENT that a connection has been sent is of an auction whose end has passed,
that has the status it tells, now and ever after; and if it was sold, the price and the winner it
tells are those of the row. -/
theorem told_settlements_true {E : Engines} {mac : List UInt8 → List UInt8 → List UInt8} {secret : List UInt8}
    {now : Int} {db : Db} {redis : Redis} {s : Live} {es : List LiveEvent}
    (hrun : Steps.run (liveStep E mac secret) (Live.fresh now db redis) es = some s) {i : Nat} {payload : String}
    {f : SettlementFrame} (hsent : payload ∈ (s.hub.conn i).delivered) (hf : settlementOf payload = some f) :
    ∃ u a st, f.auctionId = u.text ∧ f.status = st.label ∧ s.back.world.db.find u = some a ∧
      a.endTime ≤ s.back.world.pgNow ∧ TrueOfRow E a st f.currentHighPrice f.winnerId := by
  have hkeeps : KeepsTold E s.back := by
    refine Steps.reach_invariant (I := fun s : Live => KeepsTold E s.back) (fun s e s' hI _ hst => ?_)
      (keepsTold_fresh E now db redis) (Steps.reach_run hrun)
    rcases liveStep_back hst with hsame | ⟨x, -, hb⟩
    · exact hsame ▸ hI
    · exact hI.step hb
  have hflow : payload ∈ s.back.world.published.reverse.map fun x => x.2.payload :=
    ((run_agrees hrun).flow i).subset (List.mem_append_left _ hsent)
  obtain ⟨x, hx, rfl⟩ := List.mem_map.mp hflow
  obtain ⟨st, hm, hstatus⟩ := settlementOf_payload hf
  obtain ⟨u, a, hid, hrow⟩ := hkeeps.tells.published x (List.mem_reverse.mp hx) _ _ _ _ hm
  exact ⟨u, a, st, hid, hstatus, hrow⟩

/-- The watcher subscribes, the lot ends without a bid, and its settlement is sent. -/
def watchedEnd : List LiveEvent :=
  .conn 0 (.routine .subscribe) ::
    (.tick 1000000000 :: .start 0 (.settle (.ofDigit 0)) :: calls 0 5).map (fun e => .back (.serve e)) ++
    [.conn 0 (.routine .receive), .conn 0 (.routine .take), .conn 0 (.routine (.write true))]

theorem told_settlements_true_lot : ∃ es s payload,
    Steps.run (liveStep decimalEngines sampleMac sampleSecret)
        (Live.fresh 0 lotAtTen.world.db Expiring.Store.empty) es = some s ∧
      payload ∈ (s.hub.conn 0).delivered ∧
      ∃ u a st, (Uuid.ofDigit 0).text = u.text ∧ "CLOSED" = AuctionStatus.label st ∧
        s.back.world.db.find u = some a ∧ a.endTime ≤ s.back.world.pgNow ∧
        TrueOfRow decimalEngines a st "" none := by
  obtain ⟨s, hrun, hcheck⟩ := Steps.exists_of_check (liveStep decimalEngines sampleMac sampleSecret)
    watchedLot watchedEnd (fun s => decide ((s.hub.conn 0).delivered =
      [(Message.settlement (Uuid.ofDigit 0).text .CLOSED "" none).payload])) (by decide +kernel)
  have hall := Steps.run_append.mpr ⟨watchedLot, run_watchedLot, hrun⟩
  have hsent : (Message.settlement (Uuid.ofDigit 0).text .CLOSED "" none).payload ∈ (s.hub.conn 0).delivered := by
    rw [of_decide_eq_true hcheck]
    exact List.mem_cons_self
  exact ⟨_, s, _, hall, hsent, told_settlements_true hall hsent (settlementOf_settlement _ _ _ _)⟩

end Synora
