import Synora.Pair

/- Accepted bids increase, as long as the script finds what the last accepted bid
   left. The script compares an amount with the price key, and accepts any amount
   when there is none; so the order rests on the key. It is lost with the DEL of
   a settlement or with its expiry, and a SETNX then puts the starting price
   back, without a leader: a script that runs on an ACTIVE status after that
   (a delayed SET of another bid re-arms it) compares with nothing, or with the
   starting price. `LeadKept` says that this does not happen. -/
namespace Synora

open Expiring Calls

/-- The whole cents of an accepted amount. -/
def Acceptance.cents (x : Acceptance) : Int := amountCents x.amount

/-- The price key is there, and once a bid has been accepted the leader key too. -/
def LeadHeld (id : String) (w : World) : Prop :=
  (w.get (priceKey id)).isSome = true ∧ (w.accepted ≠ [] → (w.get (leaderKey id)).isSome = true)

instance (id : String) (w : World) : Decidable (LeadHeld id w) :=
  inferInstanceAs (Decidable (_ ∧ _))

/-- A script that is about to run on an ACTIVE status finds the lead. -/
def LeadKept (id : String) (s : Sys) : Ev → Prop
  | .exec i => ∀ c ∈ (s.slot i).wire, c.isEval = true → s.world.get (statusKey id) = some "ACTIVE" →
    LeadHeld id s.world
  | _ => True

instance (id : String) (s : Sys) : DecidablePred (LeadKept id s)
  | .exec i => inferInstanceAs (Decidable (∀ c ∈ (s.slot i).wire, c.isEval = true →
      s.world.get (statusKey id) = some "ACTIVE" → LeadHeld id s.world))
  | .tick _ | .start _ _ | .recv _ | .fail _ | .drop _ | .crash _ => .isTrue trivial

/-- The accepted bids of an auction so far, newest first, and what the price key can hold. -/
structure Increasing (id : String) (start : Numeric) (w : World) : Prop where
  ids : ∀ x ∈ w.accepted, x.auctionId = id ∧ amountPattern x.amount = true
  ordered : w.accepted.Pairwise (fun x y => y.cents < x.cents)
  above : ∀ n range, start = .cents n range → ∀ x ∈ w.accepted, n < x.cents
  price : ∀ e, w.entry (priceKey id) = some e →
    e.value = start.text ∨ ∃ x rest, w.accepted = x :: rest ∧ e.value = x.amount

theorem Increasing.congr {id : String} {start : Numeric} {w w' : World} (h : Increasing id start w)
    (ha : w'.accepted = w.accepted)
    (hp : ∀ e, w'.entry (priceKey id) = some e → w.entry (priceKey id) = some e) :
    Increasing id start w' where
  ids := ha ▸ h.ids
  ordered := ha ▸ h.ordered
  above := ha ▸ h.above
  price e he := ha ▸ h.price e (hp e he)

/-- The last accepted bid is the first of the history. -/
theorem Increasing.last {id : String} {start : Numeric} {w : World} (h : Increasing id start w)
    {x : Acceptance} {rest : List Acceptance} (ha : w.accepted = x :: rest) :
    lastAccepted id w.accepted = some x := by
  have hx : x.auctionId = id := (h.ids x (ha ▸ List.mem_cons_self)).1
  simp [lastAccepted, ha, hx]

/-- A leader that can be read is that of the last accepted bid, and so is the price beside it. -/
theorem Increasing.leader_read {id : String} {start : Numeric} {w : World} (h : Increasing id start w)
    (hpair : Paired w id) {user : String} (hl : w.get (leaderKey id) = some user) :
    ∃ x rest, w.accepted = x :: rest ∧ x.user = user ∧ amountPattern x.amount = true ∧
      w.get (priceKey id) = some x.amount := by
  obtain ⟨e, he, rfl⟩ := Store.get_eq_some.mp hl
  obtain ⟨amount, hpe, hpat, hlast, -⟩ := hpair e he
  cases hw : w.accepted with
  | nil =>
    rw [hw] at hlast
    cases hlast
  | cons x rest =>
    rw [h.last hw] at hlast
    cases hlast
    exact ⟨_, rest, rfl, rfl, hpat, Store.get_of_entry hpe⟩

/-- An accepting script on a kept lead beats the last accepted bid, or the starting price. -/
theorem Increasing.beats {E : Engines} (hE : E.Lawful) {id : String} {start : Numeric} {w : World}
    (hpos : start.positive = true) (h : Increasing id start w) (hpair : Paired w id)
    {amount user : String} {ttl : Int} {r : Redis} (hpat : amountPattern amount = true)
    (hacc : bidScript E w.redis w.redisNow id amount user ttl = .accepted r)
    (hlead : LeadHeld id w) :
    (∀ x rest, w.accepted = x :: rest → x.cents < amountCents amount) ∧
    (w.accepted = [] → ∀ n range, start = .cents n range → n < amountCents amount) := by
  obtain ⟨p, hp⟩ := Option.isSome_iff_exists.mp hlead.1
  obtain ⟨a, q, ha, hq, hle⟩ := (bidScript_accepted hacc).2.2.2 p hp
  rw [hE.tonumberAmount amount hpat] at ha
  cases ha
  refine ⟨fun x rest hx => ?_, fun hnil n range hstart => ?_⟩
  · -- the leader is there, so the price is the amount of the last accepted bid
    obtain ⟨user', hl⟩ := Option.isSome_iff_exists.mp (hlead.2 (by rw [hx]; simp))
    obtain ⟨y, ys, hy, -, hpat', hprice⟩ := h.leader_read hpair hl
    rw [hx] at hy
    cases hy
    obtain rfl : p = x.amount := Option.some.inj (hp.symm.trans hprice)
    rw [hE.tonumberAmount x.amount hpat'] at hq
    cases hq
    have := lt_of_lua_not_le hle
    simp only [Acceptance.cents]
    omega
  · -- nothing was accepted, so the price is the starting price
    obtain ⟨e, he, hval⟩ := Store.get_eq_some.mp hp
    rcases h.price e he with hs | ⟨x, rest, hx, -⟩
    · rw [← hval, hs, hE.tonumberText start hpos] at hq
      cases hq
      subst hstart
      unfold amountNumeric at hle
      rw [lua_le_cents, decide_eq_false_iff_not] at hle
      omega
    · rw [hnil] at hx
      cases hx

/-- An accepted bid that beats what was there goes on top. -/
theorem Increasing.lead {id : String} {start : Numeric} {w : World} (h : Increasing id start w)
    {amount user : String} {m : Message} {ttl : Int} (hpat : amountPattern amount = true)
    (hpos : 0 < ttl)
    (hlast : ∀ x rest, w.accepted = x :: rest → x.cents < amountCents amount)
    (hfirst : w.accepted = [] → ∀ n range, start = .cents n range → n < amountCents amount) :
    Increasing id start (w.lead id amount user m ttl) := by
  have hmax : ∀ x ∈ w.accepted, x.cents < amountCents amount := by
    intro x hx
    cases hw : w.accepted with
    | nil => rw [hw] at hx; cases hx
    | cons y rest =>
      have hy := hlast y rest hw
      have hord := h.ordered
      rw [hw] at hx hord
      rcases List.mem_cons.mp hx with rfl | hx
      · exact hy
      · exact lt_trans ((List.pairwise_cons.mp hord).1 x hx) hy
  refine ⟨fun x hx => ?_, ?_, fun n range hs x hx => ?_, fun e he => ?_⟩
  · rcases List.mem_cons.mp hx with rfl | hx
    · exact ⟨rfl, hpat⟩
    · exact h.ids x hx
  · exact List.pairwise_cons.mpr ⟨hmax, h.ordered⟩
  · rcases List.mem_cons.mp hx with rfl | hx
    · cases hw : w.accepted with
      | nil => exact hfirst hw n range hs
      | cons y rest =>
        have hy := h.above n range hs y (by rw [hw]; exact List.mem_cons_self)
        exact lt_trans hy (hlast y rest hw)
    · exact h.above n range hs x hx
  · rw [entry_lead_price hpos] at he
    cases he
    exact .inr ⟨_, _, rfl, rfl⟩

/-- **One request keeps the order.** -/
theorem Increasing.exec {E : Engines} (hE : E.Lawful) {T : Uuid → Option Terms} {u : Uuid} {t : Terms}
    {w : World} {p : Proc} {c : Cmd} (hT : T u = some t) (hpos : t.startingPrice.positive = true)
    (h : Increasing u.text t.startingPrice w) (hpair : Paired w u.text)
    {A : Job → Prop} (hA : ∀ j, A j → j.auctionId = u.text)
    (hp : ProcOk T A w p) (hw : Waits p c)
    (hkept : c.isEval = true → w.get (statusKey u.text) = some "ACTIVE" → LeadHeld u.text w) :
    Increasing u.text t.startingPrice (exec E w c).1 := by
  cases hw with
  | selecting req =>
    rw [exec_selectRow_world]
    exact h
  | initializing req row =>
    have hid := hp.bid_id hA
    have hstart := (hp.2.2.terms hid hT).1
    refine ⟨h.ids, h.ordered, h.above, fun e he => ?_⟩
    rw [hid] at he
    rcases Store.entry_putNX_cases he with hold | hnew
    · exact h.price e hold
    · exact .inl (hnew.trans hstart)
  | arming req row now =>
    refine h.congr rfl fun e he => ?_
    exact (Redis.entry_set_ne _ _ _ _ _ (priceKey_ne_statusKey _ _)).symm.trans he
  | scripting req row placed =>
    have hid := hp.bid_id hA
    obtain ⟨-, hpat, -⟩ := hp
    unfold evalCmd at hkept ⊢
    rw [hid] at hkept ⊢
    rcases exec_evalBid_cases E w u.text req.amount req.user
        (.priceUpdate u.text req.amount placed) (ttlSeconds row.end placed) with
      ⟨hsame, -⟩ | ⟨hacc, he⟩
    · rw [hsame]
      exact h
    · rw [he]
      have hlead := hkept rfl (bidScript_accepted hacc).1
      obtain ⟨hlast, hfirst⟩ := h.beats hE hpos hpair hpat hacc hlead
      exact h.lead hpat (ttlSeconds_pos _ _) hlast hfirst
  | reading job => exact h
  | committing job p l => exact h.congr rfl fun e he => he
  | caching job st ps wid now =>
    refine h.congr rfl fun e he => ?_
    exact (Redis.entry_set_ne _ _ _ _ _ (priceKey_ne_statusKey _ _)).symm.trans he
  | publishing job st ps wid => exact h.congr rfl fun e he => he
  | deleting job =>
    rw [hp.settle_id hA]
    refine h.congr rfl fun e he => ?_
    rw [entry_del_price] at he
    cases he

/-- **One step keeps the order**, whatever the event. -/
theorem Increasing.step {E : Engines} (hE : E.Lawful) {T : Uuid → Option Terms} {u : Uuid} {t : Terms}
    {s s' : Sys} {e : Ev} (hT : T u = some t) (hpos : t.startingPrice.positive = true)
    (h : Increasing u.text t.startingPrice s.world) {A : Job → Prop}
    (hA : ∀ j, A j → j.auctionId = u.text) (hsound : Sound T A s)
    (hpair : Paired s.world u.text) (hkept : LeadKept u.text s e)
    (hst : sysStep E s e = some s') : Increasing u.text t.startingPrice s'.world := by
  rcases Program.step_world hst with hw | ⟨d, rfl, hw⟩ | ⟨i, c, rfl, hwire, hw⟩ <;> rw [hw]
  · exact h
  · exact h.congr rfl fun e he => entry_of_tick he
  · obtain ⟨p, hp, hwait, -⟩ := (hsound.2 i).wire c hwire
    exact h.exec hE hT hpos hpair hA hp hwait (hkept c hwire)

theorem increasing_opens {s : Sys} {u : Uuid} {a : Auction} (hb : Opens s u a) :
    Increasing u.text a.startingPrice s.world := by
  refine ⟨?_, ?_, ?_, fun e he => ?_⟩
  · intro x hx
    rw [hb.accepted] at hx
    cases hx
  · rw [hb.accepted]
    exact .nil
  · intro n range _ x hx
    rw [hb.accepted] at hx
    cases hx
  · rw [World.entry, hb.redis] at he
    cases he

/-- **The order along a run.** -/
theorem increasing_along {E : Engines} (hE : E.Lawful) {A : Job → Prop} {C : Sys → Ev → Prop}
    {s s' : Sys} {u : Uuid} {a : Auction} (hb : Opens s u a) (hA : ∀ j, A j → j.auctionId = u.text)
    (hC : ∀ t e, C t e → JobsOn A e ∧ LeadKept u.text t e) (hr : Steps.Reach (sysStep E) C s s') :
    Increasing u.text a.startingPrice s'.world ∧ Steps.Reach (sysStep E)
      (fun t e => ((C t e ∧ Sound (termsOf s.world.db) A t) ∧ Triples t) ∧
        Increasing u.text a.startingPrice t.world) s s' := by
  have hT : termsOf s.world.db u = some a.terms := termsOf_of_find hb.row
  refine Steps.reach_keeps (I := fun t => Increasing u.text a.startingPrice t.world)
    (fun t e t' hI hc hst => ?_) (increasing_opens hb)
    (triples_along hb (fun t e h => (hC t e h).1) hr).2
  obtain ⟨⟨hc, hsound⟩, hpair⟩ := hc
  exact hI.step hE hT a.checks.startingPricePositive hA hsound (hpair.paired u.text) (hC t e hc).2 hst

/-- The accepted amounts, in the order of the script executions, increase strictly from above
a starting price. -/
def IncreasingFrom (start : Int) (accepted : List Acceptance) : Prop :=
  (accepted.reverse.map Acceptance.cents).Pairwise (· < ·) ∧
    ∀ x ∈ accepted, start < x.cents

instance (start : Int) (accepted : List Acceptance) : Decidable (IncreasingFrom start accepted) :=
  inferInstanceAs (Decidable (_ ∧ _))

/-- **Accepted bids strictly increase** over any number of handlers and workers, as long as
every script that runs on an ACTIVE status finds what the last accepted bid left. -/
theorem accepted_strictly_increase {E : Engines} (hE : E.Lawful) {s s' : Sys} {u : Uuid} {a : Auction}
    {n : Int} {range : n.natAbs < 10^12} (hb : Begins s u a) (hstart : a.startingPrice = .cents n range)
    (hr : Steps.Reach (sysStep E) (fun t e => OneAuction u.text e ∧ LeadKept u.text t e) s s') :
    IncreasingFrom n s'.world.accepted := by
  have h := (increasing_along hE hb.toOpens (fun _ hj => hj) (fun _ _ hc => hc) hr).1
  refine ⟨?_, h.above n range hstart⟩
  rw [List.pairwise_map, List.pairwise_reverse]
  exact h.ordered

/-- A bid of 50.00 is accepted; a bid of 20.00 waits for its script; a third bid waits for its
SET. The auction ends and is settled, the SET arms the status again, the script finds no price. -/
def rearmed : List Ev :=
  .start 0 (.bid (lotBid "50.00" 1)) :: calls 0 4 ++
    .start 1 (.bid (lotBid "20.00" 2)) :: calls 1 3 ++
    .start 2 (.bid (lotBid "15.00" 2)) :: calls 2 2 ++
    .tick 1000000000 :: .start 3 (.settle (.ofDigit 0)) :: calls 3 5 ++ [.exec 2, .exec 1]

/-- Without the condition the law fails: after `rearmed` a bid of 20.00 follows one of 50.00. -/
theorem accepted_strictly_increase_fails :
    ¬ ∀ (E : Engines) (_ : E.Lawful) (s s' : Sys) (u : Uuid) (a : Auction) (n : Int)
      (range : n.natAbs < 10^12), Begins s u a → a.startingPrice = .cents n range →
      Steps.Reach (sysStep E) (fun _ e => OneAuction u.text e) s s' →
      IncreasingFrom n s'.world.accepted := by
  intro h
  obtain ⟨s', hrun, hbad⟩ := Steps.exists_of_check (sysStep decimalEngines) lotAtTen rearmed
    (fun s => !decide (IncreasingFrom 1000 s.world.accepted)) (by decide +kernel)
  have halong := Steps.along_of_check (sysStep decimalEngines)
    (fun _ e => OneAuction (Uuid.ofDigit 0).text e) lotAtTen rearmed (by decide +kernel)
  have := h decimalEngines decimalEngines_lawful lotAtTen s' (.ofDigit 0) _ 1000 (by decide)
    (opening_begins ten (by decide)) rfl ⟨rearmed, halong, hrun⟩
  simp [this] at hbad

/-- Two bids, one after the other. -/
def twoBids : List Ev :=
  .start 0 (.bid (lotBid "10.50" 1)) :: calls 0 4 ++ .start 1 (.bid (lotBid "12.00" 2)) :: calls 1 4

theorem accepted_strictly_increase_lot : ∃ s',
    Steps.run (sysStep decimalEngines) lotAtTen twoBids = some s' ∧ s'.world.accepted.length = 2 ∧
    IncreasingFrom 1000 s'.world.accepted := by
  obtain ⟨s', hrun, hlen⟩ := Steps.exists_of_check (sysStep decimalEngines) lotAtTen twoBids
    (fun s => decide (s.world.accepted.length = 2)) (by decide +kernel)
  have halong := Steps.along_of_check (sysStep decimalEngines)
    (fun t e => OneAuction (Uuid.ofDigit 0).text e ∧ LeadKept (Uuid.ofDigit 0).text t e)
    lotAtTen twoBids (by decide +kernel)
  exact ⟨s', hrun, of_decide_eq_true hlen, accepted_strictly_increase decimalEngines_lawful
    (opening_begins ten (by decide)) rfl ⟨twoBids, halong, hrun⟩⟩

end Synora
