import Synora.Pair

/- Settlement never wedges on data: whatever the bids did, the transaction of a
   settlement violates no constraint, as long as no script accepts an amount below
   the starting price. The script makes sure of that by comparing with the price
   key; but it compares with nothing when the key is gone, and its comparison with
   a key that reads NaN is always false. `Covered` says that a bid which meets
   such a key is not below the starting price all the same (and a starting price
   of NaN is above every amount). -/
namespace Synora

open Expiring Calls

/-- The price key holds a number for the script to compare with. -/
def priceBinds (id : String) (w : World) : Bool := (w.get (priceKey id)).any (fun p => p ≠ "NaN")

/-- A script that has nothing to compare with is given at least the starting price. -/
def CoveredCmd (u : Uuid) (start : Numeric) (w : World) : Cmd → Prop
  | .evalBid _ amount .. => w.get (statusKey u.text) = some "ACTIVE" → priceBinds u.text w = false →
    (amountValue amount).any (fun q => start.le q) = true
  | _ => True

instance (u : Uuid) (start : Numeric) (w : World) : DecidablePred (CoveredCmd u start w)
  | .evalBid .. => inferInstanceAs (Decidable (_ → _))
  | .selectRow _ | .settleTx _ _ _ | .setNX _ _ | .set _ _ _ | .mget _ _ | .publish _ _ | .del _ _ =>
    .isTrue trivial

def Covered (u : Uuid) (start : Numeric) (s : Sys) : Ev → Prop
  | .exec i => ∀ c ∈ (s.slot i).wire, CoveredCmd u start s.world c
  | _ => True

instance (u : Uuid) (start : Numeric) (s : Sys) : DecidablePred (Covered u start s)
  | .exec i => inferInstanceAs (Decidable (∀ c ∈ (s.slot i).wire, CoveredCmd u start s.world c))
  | .tick _ | .start _ _ | .recv _ | .fail _ | .drop _ | .crash _ => .isTrue trivial

/-- What the accepted bids and the price key have in common: amounts not below the starting
price (or its own text), from known users. -/
structure Covers (u : Uuid) (t : Terms) (users : List Uuid) (w : World) : Prop where
  known : w.db.users = users
  created : t.createdAt ≤ w.pgNow
  accepted : ∀ x ∈ w.accepted, (∃ v ∈ users, x.user = v.text) ∧
    ∃ q, amountValue x.amount = some q ∧ t.startingPrice.le q = true
  price : ∀ e, w.entry (priceKey u.text) = some e → e.value = t.startingPrice.text ∨
    ∃ q, amountValue e.value = some q ∧ t.startingPrice.le q = true

theorem Covers.congr {u : Uuid} {t : Terms} {users : List Uuid} {w w' : World} (h : Covers u t users w)
    (hu : w'.db.users = w.db.users) (hn : w.pgNow ≤ w'.pgNow) (ha : w'.accepted = w.accepted)
    (hp : ∀ e, w'.entry (priceKey u.text) = some e → w.entry (priceKey u.text) = some e) :
    Covers u t users w' where
  known := hu.trans h.known
  created := Int.le_trans h.created hn
  accepted := ha ▸ h.accepted
  price e he := h.price e (hp e he)

/-- An accepted bid is not below the starting price. -/
theorem Covers.accepts {E : Engines} (hE : E.Lawful) {u : Uuid} {t : Terms} {users : List Uuid}
    {w : World} (h : Covers u t users w) (hpos : t.startingPrice.positive = true)
    {amount user : String} {ttl : Int} {r : Redis} (hpat : amountPattern amount = true)
    (hacc : bidScript E w.redis w.redisNow u.text amount user ttl = .accepted r)
    (hcov : priceBinds u.text w = false → (amountValue amount).any (fun q => t.startingPrice.le q) = true) :
    t.startingPrice.le (amountNumeric amount hpat) = true := by
  by_cases hb : priceBinds u.text w = true
  · obtain ⟨p, hp, hne⟩ : ∃ p, w.get (priceKey u.text) = some p ∧ p ≠ "NaN" := by
      unfold priceBinds at hb
      rw [Option.any_eq_true] at hb
      obtain ⟨p, hp, hne⟩ := hb
      exact ⟨p, hp, by simpa using hne⟩
    obtain ⟨x, y, hx, hy, hle⟩ := (bidScript_accepted hacc).2.2.2 p hp
    rw [hE.tonumberAmount amount hpat] at hx
    cases hx
    obtain ⟨e, he, rfl⟩ := Store.get_eq_some.mp hp
    cases hs : t.startingPrice with
    | nan =>
      -- the key holds neither NaN nor an amount that is not below NaN
      rcases h.price e he with htext | ⟨q, hq, hsq⟩
      · rw [hs] at htext
        exact absurd htext hne
      · obtain ⟨hv, rfl⟩ := amountValue_eq_some hq
        rw [hs] at hsq
        cases hsq
    | cents n range =>
      simp only [amountNumeric, Numeric.le, decide_eq_true_eq]
      rcases h.price e he with htext | ⟨q, hq, hsq⟩
      · rw [htext, hE.tonumberText _ hpos, hs] at hy
        cases hy
        unfold amountNumeric at hle
        rw [lua_le_cents, decide_eq_false_iff_not] at hle
        omega
      · obtain ⟨hv, rfl⟩ := amountValue_eq_some hq
        rw [hE.tonumberAmount _ hv] at hy
        cases hy
        have hlt := lt_of_lua_not_le hle
        rw [hs] at hsq
        simp only [amountNumeric, Numeric.le, decide_eq_true_eq] at hsq
        omega
  · have := hcov (by simpa using hb)
    rw [amountValue_of_pattern hpat] at this
    exact this

/-- **One request keeps the bids covered.** -/
theorem Covers.exec {E : Engines} (hE : E.Lawful) {T : Uuid → Option Terms} {u : Uuid} {t : Terms}
    {users : List Uuid} {w : World} {p : Proc} {c : Cmd} (hT : T u = some t)
    (hpos : t.startingPrice.positive = true) (h : Covers u t users w)
    (hp : ProcOk T (BidsOn u users) w p) (hw : Waits p c) (hcov : CoveredCmd u t.startingPrice w c) :
    Covers u t users (exec E w c).1 := by
  have hnow : w.pgNow ≤ (Synora.exec E w c).1.pgNow := by simp [World.pgNow]
  have husers := exec_users E w c
  have hA : ∀ j, BidsOn u users j → j.auctionId = u.text := fun _ => BidsOn.auctionId
  cases hw with
  | selecting req =>
    rw [exec_selectRow_world]
    exact h
  | initializing req row =>
    have hid := hp.bid_id hA
    have hstart := (hp.2.2.terms hid hT).1
    refine ⟨husers.trans h.known, Int.le_trans h.created hnow, h.accepted, fun e he => ?_⟩
    rw [hid] at he
    rcases Store.entry_putNX_cases he with hold | hnew
    · exact h.price e hold
    · exact .inl (hnew.trans hstart)
  | scripting req row placed =>
    have hid := hp.bid_id hA
    obtain ⟨⟨-, v, hv, huser⟩, hpat, -⟩ := hp
    unfold evalCmd at *
    rw [hid] at *
    rcases exec_evalBid_cases E w u.text req.amount req.user
        (.priceUpdate u.text req.amount placed) (ttlSeconds row.end placed) with
      ⟨hsame, -⟩ | ⟨hacc, he⟩
    · rw [hsame]
      exact h
    · have hle := h.accepts hE hpos hpat hacc (hcov (bidScript_accepted hacc).1)
      rw [he]
      refine ⟨h.known, h.created, fun x hx => ?_, fun e hentry => ?_⟩
      · rcases List.mem_cons.mp hx with rfl | hx
        · exact ⟨⟨v, hv, huser⟩, _, amountValue_of_pattern hpat, hle⟩
        · exact h.accepted x hx
      · rw [entry_lead_price (ttlSeconds_pos _ _)] at hentry
        cases hentry
        exact .inr ⟨_, amountValue_of_pattern hpat, hle⟩
  | arming req row now =>
    refine h.congr husers hnow rfl fun e he => ?_
    exact (Redis.entry_set_ne _ _ _ _ _ (priceKey_ne_statusKey _ _)).symm.trans he
  | caching job st ps wid now =>
    refine h.congr husers hnow rfl fun e he => ?_
    exact (Redis.entry_set_ne _ _ _ _ _ (priceKey_ne_statusKey _ _)).symm.trans he
  | deleting job =>
    rw [hp.settle_id hA] at *
    refine h.congr husers hnow rfl fun e he => ?_
    rw [entry_del_price] at he
    cases he
  | reading job => exact h
  | committing job pr ld => exact h.congr husers hnow rfl fun e he => he
  | publishing job st ps wid => exact h.congr husers hnow rfl fun e he => he

/-- What MGET returns can be settled. -/
theorem Covers.settleable {E : Engines} (hE : E.Lawful) {u : Uuid} {t : Terms} {users : List Uuid}
    {w : World} (h : Covers u t users w) (hpair : Paired w u.text) :
    Settleable E users t.startingPrice (w.get (priceKey u.text)) (w.get (leaderKey u.text)) := by
  intro us hus
  obtain ⟨hl, -⟩ := Option.filter_eq_some_iff.mp hus
  obtain ⟨e, he, rfl⟩ := Store.get_eq_some.mp hl
  obtain ⟨amount, hpe, hpat, hlast, -⟩ := hpair e he
  obtain ⟨⟨v, hv, huser⟩, q, hq, hle⟩ := h.accepted _ (List.mem_of_find?_eq_some hlast)
  obtain ⟨hs, rfl⟩ := amountValue_eq_some hq
  have hne : amount ≠ "" := by
    rintro rfl
    revert hpat
    decide
  refine ⟨amount, _, v, ?_, hE.numericInAmount amount hs, ?_, hle, hv⟩
  · rw [show w.get (priceKey u.text) = some amount from Store.get_of_entry hpe]
    simp [nonEmpty, hne]
  · rw [show e.value = v.text from huser]
    exact Uuid.input_text v

/-- The transaction of a settlement that read such values does not fail. -/
theorem Covers.commits {E : Engines} {u : Uuid} {t : Terms} {users : List Uuid} {w : World}
    {a : Auction} (h : Covers u t users w) (hf : w.db.find u = some a) (ht : a.terms = t)
    (hact : a.status = .ACTIVE) {price leader : Option String}
    (hs : Settleable E users t.startingPrice price leader) :
    ∃ st ps wid, (settleTx E w.db w.pgNow u.text price leader).2 = .committed st ps wid := by
  subst ht
  refine (settleTx_commits_iff hf hact).mpr ⟨h.created, ?_⟩
  rw [h.known]
  exact hs

theorem Covers.not_failed {E : Engines} {u : Uuid} {t : Terms} {users : List Uuid} {w : World}
    (h : Covers u t users w) (hT : termsOf w.db u = some t) {price leader : Option String}
    (hs : Settleable E users t.startingPrice price leader) (e : SettleError) :
    (settleTx E w.db w.pgNow u.text price leader).2 ≠ .failed e := by
  obtain ⟨a, hf, ht⟩ := Option.map_eq_some_iff.mp hT
  by_cases hact : a.status = .ACTIVE
  · obtain ⟨st, ps, wid, ho⟩ := h.commits hf ht hact hs
    rw [ho]
    simp
  · simp [settleTx, hf, hact]

/-! ## A settlement that is left alone -/

/-- **A settlement without faults** on a row the scan picks: if the transaction commits with
what MGET reads, the five calls leave a terminal row and a worker that has finished well. -/
theorem settle_runs {E : Engines} {s : Sys} {i : Nat} {u : Uuid} {job : SettleJob}
    (hidle : (s.slot i).client = .idle) (hpick : scanPicks s.world u = some job)
    (hcommit : ∃ st ps wid, (settleTx E s.world.db s.world.pgNow u.text
      (s.world.get (priceKey u.text)) (s.world.get (leaderKey u.text))).2 = .committed st ps wid) :
    ∃ s', Steps.run (sysStep E) s (.start i (.settle u) :: calls i 5) = some s' ∧
      s'.world.terminal u ∧ (s'.slot i).client = .live (.settle job (.finished true)) := by
  obtain ⟨st, ps, wid, ho⟩ := hcommit
  obtain ⟨a, hf, hact, -, rfl⟩ := scanPicks_eq_some hpick
  have hterm : (exec E s.world (.settleTx u.text (s.world.get (priceKey u.text))
      (s.world.get (leaderKey u.text)))).1.terminal u := by
    unfold World.terminal World.rowStatus
    rcases settleTx_cases E s.world.db s.world.pgNow u.text (s.world.get (priceKey u.text))
        (s.world.get (leaderKey u.text)) with
      ⟨e, he⟩ | ⟨he, -⟩ | ⟨v, b, hv, -, -, ⟨-, -, hr⟩ | ⟨_, _, _, _, -, -, -, -, -, hr⟩⟩
    · rw [he] at ho; cases ho
    · rw [he] at ho; cases ho
    · rw [Uuid.input_text] at hv
      cases hv
      obtain ⟨a', hf', ha'⟩ := hr.row
      exact .inl (by simp [exec_settleTx, hf', ha'])
    · rw [Uuid.input_text] at hv
      cases hv
      obtain ⟨a', hf', ha'⟩ := hr.row
      exact .inr (by simp [exec_settleTx, hf', ha'])
  have hstart : sysStep E s (.start i (.settle u)) = some (s.setSlot i
      { client := .live (.settle ⟨u.text, 1000 * a.endTime⟩ .reading),
        wire := some (.mget (priceKey u.text) (leaderKey u.text)) }) := by
    simp [Program.step, hidle, startJob, hpick, settleStart]
  have hcall : ∀ (t : Sys) (p : Proc) (c : Cmd) (n : Nat), p.done = false →
      Steps.run (sysStep E) (t.setSlot i { client := .live p, wire := some c }) (calls i (n + 1)) =
        Steps.run (sysStep E) ({ t with world := (exec E t.world c).1 }.setSlot i
          { client := .live (resumeProc (exec E t.world c).1.now p (exec E t.world c).2).1,
            wire := (resumeProc (exec E t.world c).1.now p (exec E t.world c).2).2 }) (calls i n) :=
    fun t p c n hd => run_call hd
  -- MGET, the transaction, SET, PUBLISH and DEL
  rw [Steps.run, hstart, Option.bind_some, hcall _ _ _ _ rfl]
  simp only [exec, resumeProc, settleResume]
  rw [hcall _ _ _ _ rfl]
  simp only [exec, ho, resumeProc, settleResume]
  rw [hcall _ _ _ _ rfl]
  simp only [exec, resumeProc, settleResume]
  rw [hcall _ _ _ _ rfl]
  simp only [exec, resumeProc, settleResume]
  rw [hcall _ _ _ _ rfl]
  simp only [exec, resumeProc, settleResume]
  exact ⟨_, rfl, hterm, by simp⟩

/-! ## Whole runs -/

/-- The bids are covered, and so are the values the workers have read of them. -/
structure Settling (E : Engines) (u : Uuid) (t : Terms) (users : List Uuid) (s : Sys) : Prop where
  covers : Covers u t users s.world
  reads : ∀ i, Reads (Settleable E users t.startingPrice) (fun o => ∀ e, o ≠ .failed e) (s.slot i)

theorem Settling.step {E : Engines} (hE : E.Lawful) {T : Uuid → Option Terms} {u : Uuid} {t : Terms}
    {users : List Uuid} {s s' : Sys} {e : Ev} (hT : T u = some t)
    (hpos : t.startingPrice.positive = true) (h : Settling E u t users s)
    (hsound : Sound T (BidsOn u users) s) (hpair : Paired s.world u.text)
    (hcov : Covered u t.startingPrice s e) (hst : sysStep E s e = some s') :
    Settling E u t users s' := by
  have hA : ∀ j, BidsOn u users j → j.auctionId = u.text := fun _ => BidsOn.auctionId
  refine ⟨?_, Reads.step hsound (fun job pc hp => ?_) (fun job pc p l hp hs => ?_) h.reads hst⟩
  · rcases Program.step_world hst with hw | ⟨d, rfl, hw⟩ | ⟨i, c, rfl, hwire, hw⟩ <;> rw [hw]
    · exact h.covers
    · refine h.covers.congr rfl ?_ rfl fun e he => entry_of_tick he
      simp only [program_tick, World.pgNow, World.tick]
      omega
    · obtain ⟨p, hp, hwait, -⟩ := (hsound.2 i).wire c hwire
      exact h.covers.exec hE hT hpos hp hwait (hcov c hwire)
  · rw [hp.settle_id hA]
    exact h.covers.settleable hE hpair
  · rw [hp.settle_id hA]
    have hTu : termsOf s.world.db u = some t := by
      rw [hsound.1, hT]
    exact h.covers.not_failed hTu hs

theorem settling_begins {E : Engines} {s : Sys} {u : Uuid} {a : Auction} (hb : Begins s u a)
    (hcreated : a.createdAt ≤ s.world.pgNow) : Settling E u a.terms s.world.db.users s := by
  refine ⟨⟨rfl, hcreated, fun x hx => ?_, fun e he => ?_⟩, reads_fresh hb.fresh⟩
  · rw [hb.accepted] at hx
    cases hx
  · rw [World.entry, hb.redis] at he
    cases he

/-- The settlement of `u` that client `i` starts now commits and finishes, if nothing fails. -/
def SettlesNow (E : Engines) (u : Uuid) (s : Sys) (i : Nat) : Prop :=
  ∃ s', Steps.run (sysStep E) s (.start i (.settle u) :: calls i 5) = some s' ∧
    s'.world.terminal u ∧ ∃ job, (s'.slot i).client = .live (.settle job (.finished true))

/-- **Settlement never wedges on data.** In every run in which a script with nothing to compare
with is given at least the starting price, no transaction of a settlement has failed, and
whenever the scan picks the auction a settlement without faults commits it. -/
theorem settlement_never_wedges {E : Engines} (hE : E.Lawful) {s s' : Sys} {u : Uuid} {a : Auction}
    (hb : Begins s u a) (hcreated : a.createdAt ≤ s.world.pgNow)
    (hr : Steps.Reach (sysStep E) (fun t e => JobsOn (BidsOn u s.world.db.users) e ∧
      Covered u a.startingPrice t e) s s') :
    (∀ i e, (s'.slot i).inbox ≠ some (.tx (.failed e))) ∧
    ∀ i, (s'.slot i).client = .idle → (scanPicks s'.world u).isSome = true → SettlesNow E u s' i := by
  have hT : termsOf s.world.db u = some a.terms := termsOf_of_find hb.row
  obtain ⟨htriples, halong⟩ := triples_along hb.toOpens (fun _ _ hc => hc.1) hr
  have hsound := (sound_along hb.fresh (fun _ _ hc => hc.1) hr).1
  have h : Settling E u a.terms s.world.db.users s' := by
    refine Steps.reach_invariant (fun t e t' hI hc hst => ?_) (settling_begins hb hcreated) halong
    obtain ⟨⟨hc, hs⟩, htr⟩ := hc
    exact hI.step hE hT a.checks.startingPricePositive hs (htr.paired u.text) hc.2 hst
  refine ⟨fun i e hin => (h.reads i).told _ hin e rfl, fun i hidle hpick => ?_⟩
  obtain ⟨job, hjob⟩ := Option.isSome_iff_exists.mp hpick
  obtain ⟨b, hf, hact, -, -⟩ := scanPicks_eq_some hjob
  have hterms : b.terms = a.terms := by
    have htu : termsOf s'.world.db u = some a.terms := by rw [hsound.1, hT]
    rw [termsOf_of_find hf] at htu
    exact Option.some.inj htu
  have hcommit := h.covers.commits hf hterms hact
    (h.covers.settleable hE (htriples.paired u.text))
  obtain ⟨s'', hrun, hterm, hfin⟩ := settle_runs hidle hjob hcommit
  exact ⟨s'', hrun, hterm, job, hfin⟩

/-- A bid, and time until the auction has ended. -/
def bidAndEnd : List Ev :=
  .start 0 (.bid (lotBid "10.50" 1)) :: calls 0 4 ++ [.tick 1000000000]

theorem settlement_never_wedges_lot : ∃ s',
    Steps.run (sysStep decimalEngines) lotAtTen bidAndEnd = some s' ∧
    s'.world.accepted.length = 1 ∧ SettlesNow decimalEngines (.ofDigit 0) s' 1 := by
  obtain ⟨s', hrun, hcheck⟩ := Steps.exists_of_check (sysStep decimalEngines) lotAtTen bidAndEnd
    (fun s => decide (s.world.accepted.length = 1) && (scanPicks s.world (.ofDigit 0)).isSome &&
      decide ((s.slot 1).client = .idle)) (by decide +kernel)
  simp only [Bool.and_eq_true, decide_eq_true_eq] at hcheck
  have halong := Steps.along_of_check (sysStep decimalEngines)
    (fun t e => JobsOn (BidsOn (.ofDigit 0) lotAtTen.world.db.users) e ∧
      Covered (.ofDigit 0) ten t e) lotAtTen bidAndEnd (by decide +kernel)
  have h := settlement_never_wedges decimalEngines_lawful (opening_begins ten (by decide))
    (by decide) ⟨bidAndEnd, halong, hrun⟩
  exact ⟨s', hrun, hcheck.1.1, h.2 1 hcheck.2 hcheck.1.2⟩

/-- The lot with a starting price of NaN. -/
def lotAtNaN : Sys := opening .nan rfl

/-- Without the condition the law fails: every amount is below a starting price of NaN, so
once a bid is accepted the SETTLED update violates its CHECK at every scan. -/
theorem settlement_never_wedges_fails :
    ¬ ∀ (E : Engines) (_ : E.Lawful) (s s' : Sys) (u : Uuid) (a : Auction), Begins s u a →
      Steps.Reach (sysStep E) (fun _ e => JobsOn (BidsOn u s.world.db.users) e) s s' →
      ∀ i, (s'.slot i).client = .idle → (scanPicks s'.world u).isSome = true → SettlesNow E u s' i := by
  intro h
  obtain ⟨s', hrun, hcheck⟩ := Steps.exists_of_check (sysStep decimalEngines) lotAtNaN bidAndEnd
    (fun s => (scanPicks s.world (.ofDigit 0)).isSome && decide ((s.slot 1).client = .idle) &&
      (Steps.run (sysStep decimalEngines) s (.start 1 (.settle (.ofDigit 0)) :: calls 1 5)).isNone)
    (by decide +kernel)
  simp only [Bool.and_eq_true, decide_eq_true_eq, Option.isNone_iff_eq_none] at hcheck
  have halong := Steps.along_of_check (sysStep decimalEngines)
    (fun _ e => JobsOn (BidsOn (.ofDigit 0) lotAtNaN.world.db.users) e) lotAtNaN bidAndEnd
    (by decide +kernel)
  obtain ⟨s'', hsettle, -⟩ := h decimalEngines decimalEngines_lawful lotAtNaN s' (.ofDigit 0) _
    (opening_begins .nan rfl) ⟨bidAndEnd, halong, hrun⟩ 1 hcheck.1.2 hcheck.1.1
  rw [hcheck.2] at hsettle
  cases hsettle

end Synora
