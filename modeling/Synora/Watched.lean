import Synora.Increasing
import Synora.Live

/- The prices that a client hears of an auction go up, as long as each script on its keys
   finds what the last accepted bid left there. The back end may do what it does with any
   other auction, with auctions that are created and users that sign up meanwhile, and
   with other spellings of the id, which have keys of their own. -/
namespace Synora

open Calls Expiring

/-! ## One auction of a world -/

/-- The world with the accepted bids of one id text. -/
def World.only (w : World) (id : String) : World :=
  { w with accepted := w.accepted.filter fun x => decide (x.auctionId = id) }

theorem Paired.only {w : World} {id : String} (h : Paired w id) : Paired (w.only id) id := by
  refine h.congr rfl rfl ?_ rfl
  unfold lastAccepted World.only
  rw [List.find?_filter]
  simp only [and_self, Bool.decide_eq_true]

/-- A request on the text sees no other bids. -/
theorem exec_only (E : Engines) (w : World) {id : String} {c : Cmd} (hc : Cmd.Of id c) :
    (exec E (w.only id) c).1 = (exec E w c).1.only id := by
  cases hc with
  | selectRow => rw [exec_selectRow_world, exec_selectRow_world]
  | evalBid amount user placed ttl =>
    have hscript : bidScript E (w.only id).redis (w.only id).redisNow id amount user ttl =
      bidScript E w.redis w.redisNow id amount user ttl := rfl
    simp only [exec, hscript]
    cases bidScript E w.redis w.redisNow id amount user ttl with
    | accepted r => simp [World.only]
    | _ => rfl
  | _ => rfl

/-- A request on another text neither bids on this one nor touches its price. -/
theorem exec_only_ne (E : Engines) (w : World) {id id' : String} {c : Cmd} (hc : Cmd.Of id' c)
    (hne : id ≠ id') :
    ((exec E w c).1.only id).accepted = (w.only id).accepted ∧
      (exec E w c).1.entry (priceKey id) = w.entry (priceKey id) := by
  constructor
  · cases hc with
    | evalBid amount user placed ttl =>
      rcases exec_evalBid_cases E w id' amount user (.priceUpdate id' amount placed) ttl with ⟨he, -⟩ | ⟨-, he⟩
      · rw [he]
      · rw [he]
        simp [World.only, World.lead, Ne.symm hne]
    | selectRow => rw [exec_selectRow_world]
    | _ => rfl
  · rw [World.entry, World.entry, exec_redisNow]
    exact entry_congr _ (exec_redis_ne E w hc (not_stored hne (by simp [stored])))

/-! ## The bids on one auction -/

/-- The request runs the script on the keys of the text. -/
def Cmd.evals (id : String) : Cmd → Bool
  | .evalBid id' .. => decide (id' = id)
  | _ => false

/-- `LeadKept`, of the bids on one text among all others. -/
def LeadKeptOf (id : String) (s : Sys) : Ev → Prop
  | .exec i => ∀ c ∈ (s.slot i).wire, c.evals id = true → s.world.get (statusKey id) = some "ACTIVE" →
    LeadHeld id (s.world.only id)
  | _ => True

instance (id : String) (s : Sys) : DecidablePred (LeadKeptOf id s)
  | .exec i => inferInstanceAs (Decidable (∀ c ∈ (s.slot i).wire, c.evals id = true →
      s.world.get (statusKey id) = some "ACTIVE" → LeadHeld id (s.world.only id)))
  | .tick _ | .start _ _ | .recv _ | .fail _ | .drop _ | .crash _ => .isTrue trivial

/-- The bids on an auction increase from its starting price, and there are none before it is there. -/
structure Rising (u : Uuid) (w : World) : Prop where
  absent : w.db.find u = none → (w.only u.text).accepted = [] ∧ w.entry (priceKey u.text) = none
  present : ∀ a, w.db.find u = some a → Increasing u.text a.startingPrice (w.only u.text)

/-- The bids and the price key are the same, or the price has gone, and so are the terms. -/
theorem Rising.congr {u : Uuid} {w w' : World} (h : Rising u w) (hterms : termsOf w'.db u = termsOf w.db u)
    (ha : (w'.only u.text).accepted = (w.only u.text).accepted)
    (hp : ∀ e, w'.entry (priceKey u.text) = some e → w.entry (priceKey u.text) = some e) : Rising u w' where
  absent hnone := by
    have hnone' : w.db.find u = none := by
      rw [termsOf, termsOf, hnone] at hterms
      exact Option.map_eq_none_iff.mp hterms.symm
    obtain ⟨haccepted, hprice⟩ := h.absent hnone'
    refine ⟨ha.trans haccepted, ?_⟩
    cases he : w'.entry (priceKey u.text) with
    | none => rfl
    | some e => exact absurd (hp e he) (by rw [hprice]; exact fun h => by cases h)
  present a hf := by
    rw [termsOf_of_find hf] at hterms
    obtain ⟨b, hb, hab⟩ := Option.map_eq_some_iff.mp hterms.symm
    have hstart : b.startingPrice = a.startingPrice := congrArg Terms.startingPrice hab
    exact hstart ▸ (h.present b hb).congr ha hp

/-- A process that waits for more than the row has found it. -/
theorem ProcOk.found {T : Uuid → Option Terms} {A : Job → Prop} {w : World} {p : Proc} {c : Cmd} {u : Uuid}
    (hp : ProcOk T A w p) (hw : Waits p c) (hid : p.auctionId = u.text) :
    (∃ id, c = .selectRow id) ∨ ∃ t, T u = some t := by
  have hrow : ∀ (req : BidRequest) (row : SeenRow), RowOk T req row → req.auctionID = u.text →
      ∃ t, T u = some t := by
    rintro req row ⟨v, t, hv, ht, -⟩ hreq
    rw [hreq, Uuid.input_text] at hv
    cases hv
    exact ⟨t, ht⟩
  have hjob : ∀ (job : SettleJob) (pc : SettlePc), SettleOk T A job pc → job.id = u.text → ∃ t, T u = some t := by
    rintro job pc ⟨⟨v, t, -, hv, ht, -⟩, -⟩ hid
    have hinput : Uuid.input u.text = some v := by rw [← hid, hv, Uuid.input_text]
    rw [Uuid.input_text] at hinput
    cases hinput
    exact ⟨t, ht⟩
  cases hw with
  | selecting req => exact .inl ⟨_, rfl⟩
  | initializing req row => exact .inr (hrow req row hp.2.2 hid)
  | arming req row now => exact .inr (hrow req row hp.2.2 hid)
  | scripting req row placed => exact .inr (hrow req row hp.2.2 hid)
  | reading job => exact .inr (hjob job _ hp hid)
  | committing job p l => exact .inr (hjob job _ hp hid)
  | caching job st ps wid now => exact .inr (hjob job _ hp hid)
  | publishing job st ps wid => exact .inr (hjob job _ hp hid)
  | deleting job => exact .inr (hjob job _ hp hid)

/-- What a process on the text holds, it holds in the world of the text. -/
theorem ProcOk.only {T : Uuid → Option Terms} {A : Job → Prop} {w : World} {p : Proc} {c : Cmd} {id : String}
    (hp : ProcOk T A w p) (hw : Waits p c) (hid : p.auctionId = id) :
    ProcOk T (fun j => j.auctionId = id) (w.only id) p := by
  have hjob : ∀ (job : SettleJob) (pc : SettlePc), SettleOk T A job pc → job.id = id →
      SettleOk T (fun j => j.auctionId = id) job pc := by
    rintro job pc ⟨⟨v, t, -, hv, ht, hend⟩, hst⟩ hid
    exact ⟨⟨v, t, hv.symm.trans hid, hv, ht, hend⟩, hst⟩
  cases hw with
  | selecting req => exact ⟨hid, hp.2⟩
  | initializing req row => exact ⟨hid, hp.2⟩
  | arming req row now => exact ⟨hid, hp.2⟩
  | scripting req row placed => exact ⟨hid, hp.2⟩
  | reading job => exact hjob job _ hp hid
  | committing job p l => exact hjob job _ hp hid
  | caching job st ps wid now => exact hjob job _ hp hid
  | publishing job st ps wid => exact hjob job _ hp hid
  | deleting job => exact hjob job _ hp hid

/-- **One request keeps the order** on every auction. -/
theorem Rising.exec {E : Engines} (hE : E.Lawful) {A : Job → Prop} {u : Uuid} {w : World} {p : Proc} {c : Cmd}
    (h : Rising u w) (hpair : Paired w u.text) (hp : ProcOk (termsOf w.db) A w p) (hw : Waits p c)
    (hkept : c.evals u.text = true → w.get (statusKey u.text) = some "ACTIVE" →
      LeadHeld u.text (w.only u.text)) : Rising u (exec E w c).1 := by
  have hterms : termsOf (Synora.exec E w c).1.db u = termsOf w.db u := congrFun (terms_exec E w c) u
  have hof := Waits.of hw
  by_cases hid : p.auctionId = u.text
  · rw [hid] at hof
    rcases hp.found hw hid with ⟨id, rfl⟩ | ⟨t, ht⟩
    · rw [exec_selectRow_world]
      exact h
    · obtain ⟨a, hf, rfl⟩ := Option.map_eq_some_iff.mp ht
      have hinc := (h.present a hf).exec hE ht a.checks.startingPricePositive hpair.only (fun _ hj => hj)
        (hp.only hw hid) hw fun heval hactive => hkept (by cases hof <;> simp_all [Cmd.evals, Cmd.isEval]) hactive
      rw [exec_only E w hof] at hinc
      refine ⟨fun hnone => ?_, fun b hb => ?_⟩
      · rw [termsOf, hnone, ht] at hterms
        cases hterms
      · rw [termsOf_of_find hb, ht] at hterms
        have hstart : b.startingPrice = a.startingPrice := congrArg Terms.startingPrice (Option.some.inj hterms)
        rw [hstart]
        exact hinc
  · obtain ⟨ha, hprice⟩ := exec_only_ne E w hof (Ne.symm hid)
    exact h.congr hterms ha fun e he => hprice.symm.trans he

/-! ## The back end -/

/-- What holds of the back end, with the bids on `u` in order. -/
structure Backed (u : Uuid) (s : Sys) : Prop where
  sound : Sound (termsOf s.world.db) (fun _ => True) s
  triples : Triples s
  rising : Rising u s.world

theorem backed_fresh (u : Uuid) (now : Int) (db : Db) :
    Backed u (State.fresh ⟨now, db, Store.empty, [], []⟩) where
  sound := sound_fresh rfl
  triples := ⟨fun id e he => (by cases he), reads_fresh rfl⟩
  rising := ⟨fun _ => ⟨rfl, rfl⟩, fun _ _ => ⟨fun _ hx => (by cases hx), .nil, fun _ _ _ _ hx => (by cases hx),
    fun _ he => (by cases he)⟩⟩

/-- The condition, for a step of the back end. -/
def ServesKept (id : String) (s : Sys) : Act → Prop
  | .serve e => LeadKeptOf id s e
  | _ => True

instance (id : String) (s : Sys) : DecidablePred (ServesKept id s)
  | .serve e => inferInstanceAs (Decidable (LeadKeptOf id s e))
  | .create .. | .signUp _ => .isTrue trivial

/-- Rows are added: a new auction has no bid and no price. -/
theorem Rising.onDb {u : Uuid} {w : World} {db : Db} (h : Rising u w) (hmore : MoreRows w.db db) :
    Rising u { w with db := db } where
  absent hnone := by
    refine h.absent ?_
    cases hf : w.db.find u with
    | none => rfl
    | some a =>
      have hsome := hmore.rows u a hf
      change db.find u = none at hnone
      rw [hnone] at hsome
      cases hsome
  present a ha := by
    cases hf : w.db.find u with
    | some b =>
      have hsame := hmore.rows u b hf
      change db.find u = some a at ha
      rw [ha] at hsame
      cases hsame
      exact (h.present a hf).congr rfl fun e he => he
    | none =>
      obtain ⟨haccepted, hprice⟩ := h.absent hf
      have hnone : ∀ x ∈ (w.only u.text).accepted, False := by
        intro x hx
        rw [haccepted] at hx
        cases hx
      refine ⟨fun x hx => (hnone x hx).elim, ?_, fun _ _ _ x hx => (hnone x hx).elim, fun e he => ?_⟩
      · show List.Pairwise _ (w.only u.text).accepted
        rw [haccepted]
        exact .nil
      · cases hprice.symm.trans he

/-- **One step of the back end keeps the order.** -/
theorem Backed.step {E : Engines} (hE : E.Lawful) {u : Uuid} {s s' : Sys} {x : Act} (h : Backed u s)
    (hkept : ServesKept u.text s x) (hst : backendStep E s x = some s') : Backed u s' := by
  have hsound := sound_backendStep h.sound hst
  rcases backendStep_cases hst with ⟨e, rfl, hserve⟩ | ⟨db, rfl, hmore⟩
  · refine ⟨hsound, h.triples.step h.sound hserve, ?_⟩
    rcases Program.step_world hserve with hw | ⟨d, rfl, hw⟩ | ⟨i, c, rfl, hwire, hw⟩ <;> rw [hw]
    · exact h.rising
    · exact h.rising.congr rfl rfl fun e he => entry_of_tick he
    · obtain ⟨p, hp, hwait, -⟩ := (h.sound.2 i).wire c hwire
      exact h.rising.exec hE (h.triples.paired u.text) hp hwait (hkept c hwire)
  · exact ⟨hsound, ⟨h.triples.paired, h.triples.reads⟩, h.rising.onDb hmore⟩

/-! ## The prices that are heard -/

/-- The cents of the updates of one auction. -/
def Stream.prices (c : Stream) (id : String) : List Int :=
  ((c.updates.filterMap updateOf).filter fun x => decide (x.1 = id)).map fun x => (amountCents x.2 : Int)

/-- The condition, for a step of the two. -/
def WatchKept (id : String) (s : Live) : LiveEvent → Prop
  | .back x => ServesKept id s.back x
  | .conn _ _ => True

instance (id : String) (s : Live) : DecidablePred (WatchKept id s)
  | .back x => inferInstanceAs (Decidable (ServesKept id s.back x))
  | .conn _ _ => .isTrue trivial

/-- The prices that are heard are those of accepted bids, in order. -/
theorem heard_prices {mac : List UInt8 → List UInt8 → List UInt8} {secret : List UInt8} {s : Live}
    (h : s.Agrees mac secret) (i : Nat) (id : String) :
    ((s.hub.conn i).heard.prices id).Sublist
      ((s.back.world.only id).accepted.reverse.map Acceptance.cents) := by
  have hsub := (h.heard i).1.filterMap fun x => x
  rw [List.filterMap_map, List.filterMap_map] at hsub
  have hbids : s.back.world.accepted.reverse.filterMap ((fun x => x) ∘ fun x => some x.bid) =
      s.back.world.accepted.reverse.map Acceptance.bid := by
    rw [← List.filterMap_eq_map]
    rfl
  rw [hbids] at hsub
  have hprices := (hsub.filter fun x => decide (x.1 = id)).map fun x => (amountCents x.2 : Int)
  rw [List.filter_map, List.map_map, List.filter_reverse] at hprices
  unfold Stream.prices World.only
  exact hprices

/-- **The prices that are heard of an auction go up**, from above its starting price, as long as
each script on its keys finds what the last accepted bid left. -/
theorem heard_prices_rise {E : Engines} (hE : E.Lawful) {mac : List UInt8 → List UInt8 → List UInt8}
    {secret : List UInt8} {now : Int} {db : Db} {s : Live} {es : List LiveEvent} {u : Uuid} {a : Auction} {n : Int}
    {range : n.natAbs < 10^12}
    (hkept : Steps.Along (liveStep E mac secret) (WatchKept u.text) (Live.fresh now db Store.empty) es)
    (hrun : Steps.run (liveStep E mac secret) (Live.fresh now db Store.empty) es = some s)
    (hf : s.back.world.db.find u = some a) (hstart : a.startingPrice = .cents n range) (i : Nat) :
    ((s.hub.conn i).heard.prices u.text).Pairwise (· < ·) ∧
      ∀ p ∈ (s.hub.conn i).heard.prices u.text, n < p := by
  have hbacked : Backed u s.back := by
    refine Steps.run_invariant (I := fun s : Live => Backed u s.back) (fun s e s' hI hc hst => ?_)
      (backed_fresh u now db) hkept hrun
    rcases liveStep_back hst with hsame | ⟨x, rfl, hb⟩
    · exact hsame ▸ hI
    · exact hI.step hE hc hb
  have hinc := hbacked.rising.present a hf
  have hheard := heard_prices (run_agrees hrun) i u.text
  constructor
  · refine List.Pairwise.sublist hheard ?_
    rw [List.pairwise_map, List.pairwise_reverse]
    exact hinc.ordered
  · intro p hp
    obtain ⟨x, hx, rfl⟩ := List.mem_map.mp (hheard.subset hp)
    exact hinc.above n range hstart x (List.mem_reverse.mp hx)

/-- The watcher subscribes, two bids are accepted, and both messages are sent. -/
def watchedBids : List LiveEvent :=
  .conn 0 (.routine .subscribe) :: twoBids.map (fun e => .back (.serve e)) ++
    [.conn 0 (.routine .receive), .conn 0 (.routine .receive), .conn 0 (.routine .take),
      .conn 0 (.routine (.write true)), .conn 0 (.routine .take), .conn 0 (.routine (.write true))]

theorem heard_prices_rise_lot : ∃ es s,
    Steps.run (liveStep decimalEngines sampleMac sampleSecret)
        (Live.fresh 0 lotAtTen.world.db Store.empty) es = some s ∧
      (s.hub.conn 0).heard.updates.map updateOf =
        [some ((Uuid.ofDigit 0).text, "10.50"), some ((Uuid.ofDigit 0).text, "12.00")] ∧
      ((s.hub.conn 0).heard.prices (Uuid.ofDigit 0).text).Pairwise (· < ·) ∧
        ∀ p ∈ (s.hub.conn 0).heard.prices (Uuid.ofDigit 0).text, 1000 < p := by
  obtain ⟨s, hrun, hcheck⟩ := Steps.exists_of_check (liveStep decimalEngines sampleMac sampleSecret)
    watchedLot watchedBids (fun s => decide ((s.hub.conn 0).sent.flatMap ServerFrame.payload =
      [Message.priceUpdate (Uuid.ofDigit 0).text "10.50" 0,
        Message.priceUpdate (Uuid.ofDigit 0).text "12.00" 0].map Message.payload ∧
      s.back.world.db.find (.ofDigit 0) = some (lot ten ten_positive))) (by decide +kernel)
  obtain ⟨hsent, hrow⟩ := of_decide_eq_true hcheck
  have hall := Steps.run_append.mpr ⟨watchedLot, run_watchedLot, hrun⟩
  have hgreets : Steps.Along (liveStep decimalEngines sampleMac sampleSecret) (WatchKept (Uuid.ofDigit 0).text)
      (Live.fresh 0 lotAtTen.world.db Store.empty) ((handshakeOf 0 sampleToken).map fun e => .conn e.1 e.2) := by
    refine Steps.along_mono (C := fun _ e => ∃ i c, e = .conn i c) ?_ (Steps.along_of_mem fun e he => ?_)
    · rintro t _ ⟨i, c, rfl⟩
      trivial
    · obtain ⟨x, -, rfl⟩ := List.mem_map.mp he
      exact ⟨x.1, x.2, rfl⟩
  have hbids := Steps.along_of_check (liveStep decimalEngines sampleMac sampleSecret)
    (WatchKept (Uuid.ofDigit 0).text) watchedLot watchedBids (by decide +kernel)
  have hkept := Steps.along_then hgreets run_watchedLot hbids
  exact ⟨_, s, hall, (listen_frames hsent (connectAuctionStream 0 "")).1,
    heard_prices_rise decimalEngines_lawful hkept hall hrow rfl 0⟩

end Synora
