import Synora.Increasing

/- Settlement agrees with the accepted bids: a row is SETTLED with the amount and
   the user of the last accepted bid, which no bid answered 201 exceeds, and
   CLOSED only if no bid was accepted. The code makes this so as long as nothing
   comes between a read and the write that rests on it: between the MGET and the
   transaction of a settlement, and between the transaction and a script that
   still finds the status ACTIVE. `Undisturbed` says that nothing does. -/
namespace Synora

open Expiring Calls

/-- What a request must find for the write that follows to be right. The script that finds
the status ACTIVE: an ACTIVE row and the lead. The transaction on an ACTIVE row: the price and
the leader that were read still in place, a leader among them once a bid has been accepted. -/
def Timely (u : Uuid) (w : World) : Cmd → Prop
  | .evalBid .. => w.get (statusKey u.text) = some "ACTIVE" →
    w.rowStatus u = some .ACTIVE ∧ LeadHeld u.text w
  | .settleTx _ price leader => w.rowStatus u = some .ACTIVE →
    w.get (priceKey u.text) = price ∧ w.get (leaderKey u.text) = leader ∧
      (w.accepted ≠ [] → leader.isSome = true)
  | _ => True

instance (u : Uuid) (w : World) : DecidablePred (Timely u w)
  | .evalBid .. => inferInstanceAs (Decidable (_ → _))
  | .settleTx .. => inferInstanceAs (Decidable (_ → _))
  | .selectRow _ | .setNX _ _ | .set _ _ _ | .mget _ _ | .publish _ _ | .del _ _ => .isTrue trivial

/-- Every request that executes is timely. -/
def Undisturbed (u : Uuid) (s : Sys) : Ev → Prop
  | .exec i => ∀ c ∈ (s.slot i).wire, Timely u s.world c
  | _ => True

instance (u : Uuid) (s : Sys) : DecidablePred (Undisturbed u s)
  | .exec i => inferInstanceAs (Decidable (∀ c ∈ (s.slot i).wire, Timely u s.world c))
  | .tick _ | .start _ _ | .recv _ | .fail _ | .drop _ | .crash _ => .isTrue trivial

theorem Undisturbed.leadKept {u : Uuid} {s : Sys} {e : Ev} (h : Undisturbed u s e) :
    LeadKept u.text s e := by
  cases e with
  | exec i =>
    intro c hc heval hact
    have := h c hc
    cases c with
    | evalBid id amount user m ttl => exact (this hact).2
    | _ => cases heval
  | _ => trivial

/-- The row and the accepted bids, newest first. -/
structure Agreed (u : Uuid) (w : World) : Prop where
  users : ∀ x ∈ w.accepted, ∃ v : Uuid, x.user = v.text
  settled : ∀ row, w.db.find u = some row → row.status = .SETTLED → ∃ x rest p v,
    w.accepted = x :: rest ∧ row.currentHighPrice = some p ∧ row.winnerId = some v ∧
    x.user = v.text ∧ amountValue x.amount = some p
  closed : ∀ row, w.db.find u = some row → row.status = .CLOSED → w.accepted = []

theorem Agreed.congr {u : Uuid} {w w' : World} (h : Agreed u w) (ha : w'.accepted = w.accepted)
    (hd : w'.db = w.db) : Agreed u w' := by
  constructor
  · rw [ha]; exact h.users
  · rw [ha, hd]; exact h.settled
  · rw [ha, hd]; exact h.closed

/-- **The transaction agrees** with the bids accepted so far. -/
theorem Agreed.settleTx {E : Engines} (hE : E.Lawful) {u : Uuid} {start : Numeric} {w : World}
    {price leader : Option String} (h : Agreed u w) (hinc : Increasing u.text start w)
    (hpair : Paired w u.text) (ht : Timely u w (.settleTx u.text price leader)) :
    Agreed u (exec E w (.settleTx u.text price leader)).1 := by
  rcases settleTx_cases E w.db w.pgNow u.text price leader with
    ⟨e, he⟩ | ⟨he, -⟩ | ⟨v, a, hv, hf, hact, hres⟩
  · exact h.congr rfl (congrArg Prod.fst he)
  · exact h.congr rfl (congrArg Prod.fst he)
  · rw [Uuid.input_text] at hv
    cases hv
    obtain ⟨hp, hl, hsome⟩ := ht (by simp [World.rowStatus, hf, hact])
    rcases hres with ⟨hnone, -, hr⟩ | ⟨ps, us, v, p, hps, hus, hv, hnum, -, hr⟩
    · -- CLOSED: no leader was read, so no bid was accepted
      obtain ⟨a', hf', ha'⟩ := hr.row
      refine ⟨h.users, fun row hrow hset => ?_, fun row hrow _ => ?_⟩
      · have : row = a' := Option.some.inj (hrow.symm.trans hf')
        rw [this, ha'] at hset
        cases hset
      · apply Classical.byContradiction
        intro hne
        obtain ⟨us, hus⟩ := Option.isSome_iff_exists.mp (hsome hne)
        rw [hus] at hl hnone
        obtain ⟨x, rest, hx, hxu, -⟩ := hinc.leader_read hpair hl
        obtain ⟨v, hv⟩ := h.users x (by rw [hx]; exact List.mem_cons_self)
        have hempty : us ≠ "" := by
          rw [← hxu, hv]
          exact Uuid.text_ne_empty v
        simp [nonEmpty, hempty] at hnone
    · -- SETTLED with the pair that is still there
      obtain ⟨a', hf', ha'⟩ := hr.row
      simp only [nonEmpty, Option.filter_eq_some_iff] at hps hus
      rw [hps.1] at hp
      rw [hus.1] at hl
      obtain ⟨x, rest, hx, hxu, hpat, hprice⟩ := hinc.leader_read hpair hl
      have hxps : x.amount = ps := Option.some.inj (hprice.symm.trans hp)
      refine ⟨h.users, fun row hrow _ => ?_, fun row hrow hcl => ?_⟩
      · have hra : row = a' := Option.some.inj (hrow.symm.trans hf')
        obtain ⟨v', hv'⟩ := h.users x (by rw [hx]; exact List.mem_cons_self)
        rw [← hxu, hv', Uuid.input_text] at hv
        rw [← hxps, hE.numericInAmount x.amount hpat] at hnum
        cases hnum
        refine ⟨x, rest, _, v', hx, ?_, ?_, hv', amountValue_of_pattern hpat⟩
        · rw [hra, ha']; rfl
        · rw [hra, ha']; exact hv.symm
      · have : row = a' := Option.some.inj (hrow.symm.trans hf')
        rw [this, ha'] at hcl
        cases hcl

/-- **One request keeps the agreement.** -/
theorem Agreed.exec {E : Engines} (hE : E.Lawful) {T : Uuid → Option Terms} {u : Uuid}
    {users : List Uuid} {start : Numeric} {w : World} {p : Proc} {c : Cmd} (h : Agreed u w)
    (hinc : Increasing u.text start w) (hpair : Paired w u.text) (hp : ProcOk T (BidsOn u users) w p)
    (hw : Waits p c) (ht : Timely u w c) : Agreed u (exec E w c).1 := by
  cases hw with
  | selecting req =>
    rw [exec_selectRow_world]
    exact h
  | scripting req row placed =>
    obtain ⟨⟨hid, v, -, hv⟩, -⟩ := hp
    unfold evalCmd at ht ⊢
    rw [hid] at ht ⊢
    rcases exec_evalBid_cases E w u.text req.amount req.user
        (.priceUpdate u.text req.amount placed) (ttlSeconds row.end placed) with
      ⟨hsame, -⟩ | ⟨hacc, he⟩
    · rw [hsame]
      exact h
    · -- the row is ACTIVE, so there is nothing to agree with yet
      obtain ⟨hact, -⟩ := ht (bidScript_accepted hacc).1
      have hstatus : ∀ r, w.db.find u = some r → r.status = .ACTIVE := by
        intro r hr
        simpa [World.rowStatus, hr] using hact
      rw [he]
      refine ⟨fun x hx => ?_, fun r hr hset => ?_, fun r hr hcl => ?_⟩
      · rcases List.mem_cons.mp hx with rfl | hx
        · exact ⟨v, hv⟩
        · exact h.users x hx
      · rw [hstatus r hr] at hset
        cases hset
      · rw [hstatus r hr] at hcl
        cases hcl
  | committing job price leader =>
    rw [hp.settle_id fun _ => BidsOn.auctionId] at ht ⊢
    exact h.settleTx hE hinc hpair ht
  | _ => exact h.congr rfl rfl

theorem Agreed.step {E : Engines} (hE : E.Lawful) {T : Uuid → Option Terms} {u : Uuid}
    {users : List Uuid} {start : Numeric} {s s' : Sys} {e : Ev} (h : Agreed u s.world)
    (hinc : Increasing u.text start s.world) (hpair : Paired s.world u.text)
    (hsound : Sound T (BidsOn u users) s) (hu : Undisturbed u s e) (hst : sysStep E s e = some s') :
    Agreed u s'.world := by
  rcases Program.step_world hst with hw | ⟨d, rfl, hw⟩ | ⟨i, c, rfl, hwire, hw⟩ <;> rw [hw]
  · exact h
  · exact h.congr rfl rfl
  · obtain ⟨p, hp, hwait, -⟩ := (hsound.2 i).wire c hwire
    exact h.exec hE hinc hpair hp hwait (hu c hwire)

theorem agreed_begins {s : Sys} {u : Uuid} {a : Auction} (hb : Begins s u a) : Agreed u s.world := by
  refine ⟨fun x hx => ?_, fun row hrow hset => ?_, fun _ _ _ => hb.accepted⟩
  · rw [hb.accepted] at hx
    cases hx
  · have : row = a := Option.some.inj (hrow.symm.trans hb.row)
    rw [this, hb.active] at hset
    cases hset

/-! ## The answers -/

/-- No bid answered 201 exceeds the price the row is settled at. -/
def NoHigherAnswer (u : Uuid) (s : Sys) : Prop :=
  ∀ row p, s.world.db.find u = some row → row.status = .SETTLED → row.currentHighPrice = some p →
    ∀ i req answer, Answered s i req answer → answer.code = 201 →
      ∃ q, amountValue req.amount = some q ∧ q.le p = true

/-- The winner and the price are those of an accepted bid. -/
def WinnerBid (u : Uuid) (s : Sys) : Prop :=
  ∀ row, s.world.db.find u = some row → row.status = .SETTLED → ∃ x ∈ s.world.accepted, ∃ p v,
    row.currentHighPrice = some p ∧ amountValue x.amount = some p ∧
    row.winnerId = some v ∧ x.user = v.text

/-- No bid on a row closed without a winner is answered 201. -/
def NoAnswerClosed (u : Uuid) (s : Sys) : Prop :=
  ∀ row, s.world.db.find u = some row → row.status = .CLOSED →
    ∀ i req answer, Answered s i req answer → answer.code ≠ 201

/-- A bid answered 201 was accepted. -/
theorem accepted_of_answered {T : Uuid → Option Terms} {A : Job → Prop} {s : Sys} (h : Sound T A s)
    {i : Nat} {req : BidRequest} {answer : Answer} (ha : Answered s i req answer)
    (hcode : answer.code = 201) :
    amountPattern req.amount = true ∧ req.acceptance ∈ s.world.accepted :=
  ((h.2 i).proc _ ha).2 hcode

/-- **Settlement agrees with the accepted bids**, in every run whose requests are timely. -/
theorem settlement_agrees {E : Engines} (hE : E.Lawful) {s s' : Sys} {u : Uuid} {a : Auction}
    (hb : Begins s u a) (hr : Steps.Reach (sysStep E)
      (fun t e => JobsOn (BidsOn u s.world.db.users) e ∧ Undisturbed u t e) s s') :
    NoHigherAnswer u s' ∧ WinnerBid u s' ∧ NoAnswerClosed u s' := by
  have hinc := increasing_along hE hb.toOpens (fun _ => BidsOn.auctionId)
    (fun _ _ hc => ⟨hc.1, hc.2.leadKept⟩) hr
  have hsound := (sound_along hb.fresh (fun _ _ hc => hc.1) hr).1
  have hag : Agreed u s'.world := by
    refine Steps.reach_invariant (I := fun t => Agreed u t.world) (fun t e t' hI hc hst => ?_)
      (agreed_begins hb) hinc.2
    obtain ⟨⟨⟨hc, hs⟩, hpair⟩, hi⟩ := hc
    exact hI.step hE hi (hpair.paired u.text) hs hc.2 hst
  refine ⟨?_, ?_, ?_⟩
  · intro row p hrow hset hp i req answer ha hcode
    obtain ⟨hpat, hmem⟩ := accepted_of_answered hsound ha hcode
    obtain ⟨x, rest, p', v, hx, hp', -, -, hxp⟩ := hag.settled row hrow hset
    rw [hp] at hp'
    cases hp'
    refine ⟨_, amountValue_of_pattern hpat, ?_⟩
    have hxpat : amountPattern x.amount = true :=
      (hinc.1.ids x (by rw [hx]; exact List.mem_cons_self)).2
    rw [amountValue_of_pattern hxpat] at hxp
    cases hxp
    have hle : req.acceptance.cents ≤ x.cents := by
      rw [hx] at hmem
      rcases List.mem_cons.mp hmem with he | hmem
      · rw [he]
      · have hord := hinc.1.ordered
        rw [hx] at hord
        exact le_of_lt ((List.pairwise_cons.mp hord).1 _ hmem)
    simpa [amountNumeric, Numeric.le, Acceptance.cents, BidRequest.acceptance] using hle
  · intro row hrow hset
    obtain ⟨x, rest, p, v, hx, hp, hv, hxv, hxp⟩ := hag.settled row hrow hset
    exact ⟨x, by rw [hx]; exact List.mem_cons_self, p, v, hp, hxp, hv, hxv⟩
  · intro row hrow hcl i req answer ha hcode
    have hmem := (accepted_of_answered hsound ha hcode).2
    rw [hag.closed row hrow hcl] at hmem
    cases hmem

/-- A bid of 60.00 is on its way to the script when the worker reads 50.00; it is accepted and
answered before the worker commits. -/
def overtaken : List Ev :=
  .start 0 (.bid (lotBid "50.00" 1)) :: calls 0 4 ++
    .start 1 (.bid (lotBid "60.00" 2)) :: calls 1 3 ++
    .tick 1000000000 :: .start 2 (.settle (.ofDigit 0)) :: calls 2 1 ++ calls 1 1 ++ calls 2 1

/-- Without the condition the law fails: after `overtaken` the row is settled at 50.00. -/
theorem settlement_agrees_fails :
    ¬ ∀ (E : Engines) (_ : E.Lawful) (s s' : Sys) (u : Uuid) (a : Auction), Begins s u a →
      Steps.Reach (sysStep E) (fun _ e => JobsOn (BidsOn u s.world.db.users) e) s s' →
      NoHigherAnswer u s' := by
  intro h
  obtain ⟨s', hrun, hbad⟩ := Steps.exists_of_check (sysStep decimalEngines) lotAtTen overtaken
    (fun s => decide ((s.world.db.find (.ofDigit 0)).map (fun r => (r.status, r.currentHighPrice)) =
        some (.SETTLED, some (.cents 5000 (by decide))) ∧
      (s.slot 1).client = .live (.bid (lotBid "60.00" 2) (.answered (.created (Uuid.ofDigit 0).text
        (Uuid.ofDigit 2).text "60.00" 0 .ACTIVE 1000000000))))) (by decide +kernel)
  have halong := Steps.along_of_check (sysStep decimalEngines)
    (fun _ e => JobsOn (BidsOn (Uuid.ofDigit 0) lotAtTen.world.db.users) e) lotAtTen overtaken
    (by decide +kernel)
  obtain ⟨hrow, hanswer⟩ := of_decide_eq_true hbad
  obtain ⟨row, hf, hcols⟩ := Option.map_eq_some_iff.mp hrow
  simp only [Prod.mk.injEq] at hcols
  obtain ⟨q, hq, hle⟩ := h decimalEngines decimalEngines_lawful lotAtTen s' (.ofDigit 0) _
    (opening_begins ten (by decide)) ⟨overtaken, halong, hrun⟩ row _ hf hcols.1 hcols.2 1 _ _ hanswer rfl
  have hvalue : (amountValue "60.00").map (fun q => q.le (.cents 5000 (by decide))) = some false := by
    decide +kernel
  rw [show (lotBid "60.00" 2).amount = "60.00" from rfl] at hq
  rw [hq] at hvalue
  simp [hle] at hvalue

/-- Two bids, then the settlement. -/
def settledLot : List Ev :=
  twoBids ++ .tick 1000000000 :: .start 2 (.settle (.ofDigit 0)) :: calls 2 5

theorem settlement_agrees_lot : ∃ s',
    Steps.run (sysStep decimalEngines) lotAtTen settledLot = some s' ∧
    s'.world.rowStatus (.ofDigit 0) = some .SETTLED ∧
    NoHigherAnswer (.ofDigit 0) s' ∧ WinnerBid (.ofDigit 0) s' ∧ NoAnswerClosed (.ofDigit 0) s' := by
  obtain ⟨s', hrun, hset⟩ := Steps.exists_of_check (sysStep decimalEngines) lotAtTen settledLot
    (fun s => decide (s.world.rowStatus (.ofDigit 0) = some .SETTLED)) (by decide +kernel)
  have halong := Steps.along_of_check (sysStep decimalEngines)
    (fun t e => JobsOn (BidsOn (Uuid.ofDigit 0) lotAtTen.world.db.users) e ∧
      Undisturbed (Uuid.ofDigit 0) t e) lotAtTen settledLot (by decide +kernel)
  exact ⟨s', hrun, of_decide_eq_true hset, settlement_agrees decimalEngines_lawful
    (opening_begins ten (by decide)) ⟨settledLot, halong, hrun⟩⟩

end Synora
