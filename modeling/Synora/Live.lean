import Synora.Backend
import Synora.Handshake
import Synora.Independence

/- The back end and the hub as one system: what the handlers and the workers publish is
   what the connections are sent. Redis hands a message to the subscriptions there are
   when it is published, and the hub has the clock and the users of the handlers. A client
   that gives its frames to the listener of `connectAuctionStream` hears of accepted bids
   only, in their order (`heard_bids_accepted`).

   Correspondence (Go and JavaScript ↔ Lean):
     `json.Marshal(map[string]any{…})` of `bid`, `settle` ↔ `Message.payload`
     `PSubscribe(ctx, "auction:*:updates")`               ↔ `matchesUpdates`
     `PUBLISH`, and the query of `hub.Validate`           ↔ `hears`
     the listener of 'message', `onPriceUpdate`           ↔ `Stream.listen`, `updateOf` -/
namespace Synora

open Calls

/-! ## What is published -/

/-- The payload `settle` publishes. -/
def settlementText (id : String) (status : AuctionStatus) (price : String) (winner : Option String) : String :=
  String.ofList (Json.encode (.obj [("auction_id", .str id), ("current_high_price", .str price),
    ("status", .str status.label), ("type", .str "SETTLEMENT"), ("winner_id", winner.elim .null .str)]))

def Message.payload : Message → String
  | .priceUpdate id amount placed => priceUpdateText id amount placed
  | .settlement id status price winner => settlementText id status price winner

/-- The pattern `auction:*:updates`. -/
def matchesUpdates (channel : String) : Bool :=
  "auction:".toList.isPrefixOf channel.toList && ":updates".toList.isSuffixOf (channel.toList.drop 8)

theorem matchesUpdates_updatesChannel (id : String) : matchesUpdates (updatesChannel id) = true := by
  unfold matchesUpdates updatesChannel
  rw [Bool.and_eq_true, List.isPrefixOf_iff_prefix, List.isSuffixOf_iff_suffix]
  simp only [String.toList_append, List.append_assoc]
  refine ⟨List.prefix_append _ _, ?_⟩
  rw [List.drop_left' (by rfl)]
  exact List.suffix_append _ _

section
variable {mac : List UInt8 → List UInt8 → List UInt8} {secret : List UInt8}

/-- A goroutine brings in nothing of its own. -/
theorem flow_routine {c c' : Conn} {e : RoutineEvent} (hst : routineStep c e = some c') :
    c'.flow.Sublist c.flow := by
  cases e with
  | subscribe =>
    simp only [routineStep] at hst
    split at hst
    next hs =>
      cases hst
      simp [Conn.flow, Conn.delivered, hs, Subscriber.pending]
    · cases hst
  | receive =>
    simp only [routineStep] at hst
    split at hst
    next p pending hs =>
      split at hst
      · cases hst
        simp [Conn.flow, Conn.delivered, hs, Subscriber.pending]
      · cases hst
        simp only [Conn.flow, Conn.delivered, hs, Subscriber.pending]
        exact (((List.sublist_cons_self p pending).append_left _).append_left _).append_left _
    · cases hst
  | subscriberReturns =>
    simp only [routineStep] at hst
    split at hst
    · cases hst
    · cases hst
      exact (((List.nil_sublist _).append_left _).append_left _).append_left _
  | take =>
    simp only [routineStep] at hst
    split at hst
    next p rest hw hq =>
      cases hst
      simp [Conn.flow, Conn.delivered, hw, hq, Writer.hand]
    · cases hst
  | write ok =>
    simp only [routineStep] at hst
    split at hst
    next p hw =>
      split at hst
      · split at hst
        · cases hst
        · cases hst
          simp [Conn.flow, Conn.delivered, hw, Writer.hand, ServerFrame.payload]
      · cases hst
        exact ((List.nil_sublist _).append_right _).append_left _
    · cases hst
  | writerReturns =>
    simp only [routineStep] at hst
    split at hst
    next hw =>
      cases hst
      exact ((List.nil_sublist _).append_right _).append_left _
    · cases hst

/-- … and neither does the handler. -/
theorem flow_conn {now : Int} {users : List Uuid} {c c' : Conn} {e : ConnEvent}
    (hst : connStep mac secret now users c e = some c') : c'.flow.Sublist c.flow := by
  cases e with
  | peer e =>
    simp only [connStep, peerStep] at hst
    split at hst
    · cases hst
    · cases e <;> (cases hst; exact List.Sublist.refl _)
  | auth e =>
    cases authStep_move mac secret hst with
    | accepted hphase => exact List.nil_sublist _
    | refused failure ok hphase =>
      have hsame : ({ c with
          phase := .hangingUp
          sent := if ok then c.sent ++ [.authError failure] else c.sent } : Conn).flow = c.flow := by
        cases ok <;> simp [Conn.flow, Conn.delivered, ServerFrame.payload]
      rw [hsame]
    | _ => exact List.Sublist.refl _
  | serve e =>
    cases e with
    | greet ok =>
      simp only [connStep, serveStep] at hst
      split at hst
      · cases hst
        have hsent : (if ok then c.sent ++ [.authSuccess] else c.sent).flatMap ServerFrame.payload =
            c.delivered := by
          cases ok <;> simp [Conn.delivered, ServerFrame.payload]
        simp only [Conn.flow, Conn.delivered, hsent, Writer.hand, Subscriber.pending, List.nil_append,
          List.append_nil]
        exact ((List.sublist_append_left _ _).trans (List.sublist_append_right _ _)).append_left _
      · cases hst
    | _ =>
      simp only [connStep, serveStep] at hst
      split at hst
      · cases hst
        exact List.Sublist.refl _
      · cases hst
  | routine e => exact flow_routine hst

theorem flow_publish (c : Conn) (payload : String) :
    (c.publish payload).flow.Sublist (c.flow ++ [payload]) := by
  unfold Conn.publish
  split
  next pending hs => simp [Conn.flow, Conn.delivered, hs, Subscriber.pending]
  · exact List.sublist_append_left _ _

/-- **A connection has only what was published**, in order, whatever the hub does. -/
theorem flow_hub {h h' : Hub} {e : HubEvent} (i : Nat) (hst : hubStep mac secret h e = some h') :
    (h'.conn i).flow.Sublist ((h.conn i).flow ++ e.payload) := by
  cases e with
  | tick d | users us =>
    cases hst
    exact List.sublist_append_left _ _
  | publish payload =>
    cases hst
    exact flow_publish _ payload
  | conn j e =>
    obtain ⟨c, hc, rfl⟩ := Option.map_eq_some_iff.mp hst
    show List.Sublist _ ((h.conn i).flow ++ [])
    rw [List.append_nil]
    by_cases hj : i = j
    · subst hj
      simp only [Function.update_self]
      exact flow_conn hc
    · simp only [Function.update_of_ne hj]
      exact List.Sublist.refl _

theorem flow_run {h h' : Hub} {es : List HubEvent} (i : Nat)
    (hrun : Steps.run (hubStep mac secret) h es = some h') :
    (h'.conn i).flow.Sublist ((h.conn i).flow ++ published es) :=
  Steps.run_sublist (fun h => (h.conn i).flow) HubEvent.payload (fun _ _ _ => flow_hub i) hrun

end

/-! ## The two as one -/

/-- The back end and the hub. -/
structure Live where
  back : Sys
  hub : Hub

inductive LiveEvent where
  | back (x : Act)
  | conn (i : Nat) (e : ConnEvent)

/-- The messages of a step, oldest first. -/
def said (w w' : World) : List (String × Message) :=
  (w'.published.take (w'.published.length - w.published.length)).reverse

/-- What the hub has of a step of the back end: the time, the messages it is subscribed to and the
users there are. -/
def hears (w w' : World) : List HubEvent :=
  .tick (w'.now - w.now).toNat ::
    ((((said w w').filter fun x => matchesUpdates x.1).map fun x => HubEvent.publish x.2.payload) ++
      [.users w'.db.users])

/-- One step of the two. -/
def liveStep (E : Engines) (mac : List UInt8 → List UInt8 → List UInt8) (secret : List UInt8) (s : Live) :
    LiveEvent → Option Live
  | .back x =>
    (backendStep E s.back x).bind fun b =>
      (Steps.run (hubStep mac secret) s.hub (hears s.back.world b.world)).map fun h => ⟨b, h⟩
  | .conn i e => (hubStep mac secret s.hub (.conn i e)).map fun h => { s with hub := h }

/-- No request and no connection yet, and nothing was published. -/
def Live.fresh (now : Int) (db : Db) (redis : Redis) : Live :=
  ⟨State.fresh ⟨now, db, redis, [], []⟩, Hub.new now db.users⟩

/-- The back end takes its own steps only. -/
theorem liveStep_back {E : Engines} {mac : List UInt8 → List UInt8 → List UInt8} {secret : List UInt8}
    {s s' : Live} {e : LiveEvent} (hst : liveStep E mac secret s e = some s') :
    s'.back = s.back ∨ ∃ x, e = .back x ∧ backendStep E s.back x = some s'.back := by
  cases e with
  | back x =>
    obtain ⟨b, hb, hmap⟩ := Option.bind_eq_some_iff.mp hst
    obtain ⟨hub, -, rfl⟩ := Option.map_eq_some_iff.mp hmap
    exact .inr ⟨x, rfl, hb⟩
  | conn i e =>
    obtain ⟨hub, -, rfl⟩ := Option.map_eq_some_iff.mp hst
    exact .inl rfl

/-! ## What the back end does -/

/-- Tables with all the rows and users of others. -/
structure MoreRows (db db' : Db) : Prop where
  rows : ∀ v a, db.find v = some a → db'.find v = some a
  users : ∀ u ∈ db.users, u ∈ db'.users

/-- **A step of the back end** is one of its processes, or adds to the tables. -/
theorem backendStep_cases {E : Engines} {s s' : Sys} {x : Act} (hst : backendStep E s x = some s') :
    (∃ e, x = .serve e ∧ sysStep E s e = some s') ∨ ∃ db, s' = onDb s db ∧ MoreRows s.world.db db := by
  cases x with
  | serve e => exact .inl ⟨e, rfl, hst⟩
  | create id authenticated input =>
    simp only [backendStep] at hst
    split at hst
    · rename_i db a hc
      cases hst
      have hins := (createAuction_inserts hc).1
      obtain ⟨hfree, -, hothers⟩ := Db.insertAuction_find hins
      refine .inr ⟨db, rfl, fun v b hf => ?_, fun u hu => (Db.insertAuction_ok hins).2.2 ▸ hu⟩
      rw [hothers v, hf]
      rintro rfl
      rw [hfree] at hf
      cases hf
    · cases hst
      exact .inr ⟨s.world.db, rfl, fun _ _ hf => hf, fun _ hu => hu⟩
  | signUp v =>
    cases hst
    exact .inr ⟨s.world.db.addUser v, rfl, fun _ _ hf => hf, fun u hu => List.mem_cons_of_mem v hu⟩

/-- More rows may be known. -/
theorem SlotOk.terms {T T' : Uuid → Option Terms} {A : Job → Prop} {w : World} {sl : Slot Proc Cmd Reply}
    (hT : ∀ u t, T u = some t → T' u = some t) (h : SlotOk T A w sl) : SlotOk T' A w sl := by
  have hrow : ∀ req row, RowOk T req row → RowOk T' req row := by
    rintro req row ⟨u, t, hu, ht, hrest⟩
    exact ⟨u, t, hu, hT u t ht, hrest⟩
  have hproc : ∀ p, ProcOk T A w p → ProcOk T' A w p := by
    intro p hp
    cases p with
    | settle job pc =>
      obtain ⟨⟨u, t, hA, hid, ht, hend⟩, hst⟩ := hp
      exact ⟨⟨u, t, hA, hid, hT u t ht, hend⟩, hst⟩
    | bid req pc =>
      obtain ⟨hA, hp⟩ := hp
      refine ⟨hA, ?_⟩
      cases pc with
      | selecting => exact hp
      | initializing row | arming row | scripting row placed => exact ⟨hp.1, hrow req row hp.2⟩
      | answered a => exact hp
  refine ⟨fun p hp => hproc p (h.proc p hp), fun c hc => ?_, fun p r hp hd hr => ?_⟩
  · obtain ⟨p, hp, hw, hq⟩ := h.wire c hc
    exact ⟨p, hproc p hp, hw, hq⟩
  · have hreply := h.inbox p r hp hd hr
    cases p with
    | settle job pc =>
      cases pc with
      | committing p l =>
        cases r with
        | tx o => cases o <;> exact hreply
        | _ => exact trivial
      | _ => exact hreply
    | bid req pc =>
      cases pc with
      | selecting =>
        cases r with
        | row st start «end» current starting =>
          obtain ⟨u, t, hu, ht, hrest⟩ := hreply
          exact ⟨u, t, hu, hT u t ht, hrest⟩
        | _ => exact trivial
      | scripting row placed =>
        cases r with
        | script n v => exact hreply
        | _ => exact trivial
      | _ => exact trivial

/-- **The processes stay sound** when rows are added. -/
theorem sound_backendStep {E : Engines} {s s' : Sys} {x : Act} (h : Sound (termsOf s.world.db) (fun _ => True) s)
    (hst : backendStep E s x = some s') : Sound (termsOf s'.world.db) (fun _ => True) s' := by
  rcases backendStep_cases hst with ⟨e, -, hserve⟩ | ⟨db, rfl, hmore⟩
  · have hsound := h.step (jobsOn_true e) hserve
    have hterms : termsOf s'.world.db = termsOf s.world.db := hsound.1
    exact hterms ▸ hsound
  · refine ⟨rfl, fun i => ?_⟩
    have hslot : SlotOk (termsOf s.world.db) (fun _ => True) s.world (s.slot i) := h.2 i
    refine slotOk_mono (w := s.world) (fun _ hx => hx) (hslot.terms fun v t ht => ?_)
    obtain ⟨a, hf, rfl⟩ := Option.map_eq_some_iff.mp ht
    exact termsOf_of_find (hmore.rows v a hf)

/-! ## What the back end says -/

/-- The auction and the price of a PRICE_UPDATE. -/
def Message.bid : Message → Option (String × String)
  | .priceUpdate id amount _ => some (id, amount)
  | .settlement .. => none

def Acceptance.bid (x : Acceptance) : String × String := (x.auctionId, x.amount)

/-- Each PRICE_UPDATE is that of an accepted bid, and all messages are on the channels of the hub. -/
structure Accounted (w : World) : Prop where
  bids : w.published.filterMap (fun x => x.2.bid) = w.accepted.map Acceptance.bid
  channels : ∀ x ∈ w.published, matchesUpdates x.1 = true

/-- The request on the wire is one that the code builds. -/
def Built (sl : Slot Proc Cmd Reply) : Prop := ∀ c, sl.wire = some c → ∃ id, Cmd.Of id c

/-- A request publishes the update of its bid, or the settlement it carries. -/
theorem exec_says {E : Engines} {w : World} {id : String} {c : Cmd} (hc : Cmd.Of id c) {x : String × Message}
    (hx : x ∈ (exec E w c).1.published) :
    x ∈ w.published ∨ (∃ amount placed, x = (updatesChannel id, .priceUpdate id amount placed)) ∨
      ∃ st price winner, x = (updatesChannel id, .settlement id st price winner) ∧
        c = .publish (updatesChannel id) (.settlement id st price winner) := by
  cases hc with
  | evalBid amount user placed ttl =>
    rcases exec_evalBid_cases E w id amount user (.priceUpdate id amount placed) ttl with ⟨he, -⟩ | ⟨-, he⟩
    · rw [he] at hx
      exact .inl hx
    · rw [he] at hx
      rcases List.mem_cons.mp hx with rfl | hx
      · exact .inr (.inl ⟨amount, placed, rfl⟩)
      · exact .inl hx
  | publish st ps wid =>
    rcases List.mem_cons.mp hx with rfl | hx
    · exact .inr (.inr ⟨st, ps, wid, rfl, rfl⟩)
    · exact .inl hx
  | selectRow =>
    rw [exec_selectRow_world] at hx
    exact .inl hx
  | _ => exact .inl hx

theorem Accounted.exec {E : Engines} {w : World} {id : String} {c : Cmd} (h : Accounted w) (hc : Cmd.Of id c) :
    Accounted (exec E w c).1 := by
  refine ⟨?_, fun x hx => ?_⟩
  · cases hc with
    | evalBid amount user placed ttl =>
      rcases exec_evalBid_cases E w id amount user (.priceUpdate id amount placed) ttl with ⟨he, -⟩ | ⟨-, he⟩
      · rw [he]
        exact h.bids
      · rw [he]
        exact congrArg ((id, amount) :: ·) h.bids
    | selectRow =>
      rw [exec_selectRow_world]
      exact h.bids
    | _ => exact h.bids
  · rcases exec_says hc hx with hx | ⟨amount, placed, rfl⟩ | ⟨st, price, winner, rfl, -⟩
    · exact h.channels x hx
    · exact matchesUpdates_updatesChannel id
    · exact matchesUpdates_updatesChannel id

theorem accounted_rely (E : Engines) :
    Rely (program E) Accounted (fun _ _ => Built) (fun _ _ => True) where
  tick w d h := ⟨h.bids, h.channels⟩
  tickL i w d sl _ h := h
  start s i j p c _ _ hst := by
    intro c' hc'
    rcases startJob_cases hst with ⟨req, rfl, -, -, rfl, rfl⟩ | ⟨req, rfl, rfl, rfl⟩ |
        ⟨u, job, rfl, -, rfl, rfl⟩
    · cases hc'
      exact ⟨req.auctionID, .selectRow⟩
    · cases hc'
    · cases hc'
      exact ⟨job.id, .mget⟩
  exec s i c hG hL _ hw := by
    obtain ⟨id, hid⟩ := hL c hw
    exact hG.exec hid
  execL s i c _ _ _ _ := fun _ h => by cases h
  stable s i c j sl _ _ _ _ h := h
  recv s i p r _ _ _ hc hr hd := by
    intro c' hc'
    cases p with
    | bid req pc =>
      simp only [program_resume, resumeProc] at hc'
      rcases bidResume_cases s.world.now req pc r hd with ⟨row, x, -, -, -, he⟩ | ⟨row, -, -, he⟩ |
          ⟨row, -, -, -, he⟩ | ⟨row, placed, v, -, -, he⟩ | ⟨a, -, he⟩ <;>
        (simp only [program_clock, he] at hc'; cases hc')
      · exact ⟨_, .setNX _⟩
      · exact ⟨_, .set _ _⟩
      · exact ⟨_, .evalBid _ _ _ _⟩
    | settle job pc =>
      simp only [program_resume, resumeProc] at hc'
      rcases settleResume_cases s.world.now job pc r hd with ⟨p, l, -, -, he⟩ |
          ⟨_, _, st, ps, wid, -, -, he⟩ | ⟨st, ps, wid, -, -, he⟩ | ⟨-, -, he⟩ | ⟨ok, he, -⟩ <;>
        (simp only [program_clock, he] at hc'; cases hc')
      · exact ⟨_, .settleTx _ _⟩
      · exact ⟨_, .set _ _⟩
      · exact ⟨_, .publish _ _ _⟩
      · exact ⟨_, .del⟩
  fail s i p _ hL _ _ _ := hL
  drop i w sl _ _ := fun _ h => by cases h
  crash i w sl _ h := h

/-- What the back end has said by now. -/
abbrev Told : Sys → Prop := Holds Accounted fun _ _ => Built

/-- **One step of the back end.** -/
theorem Told.step {E : Engines} {s s' : Sys} {x : Act} (h : Told s) (hst : backendStep E s x = some s') :
    Told s' := by
  rcases backendStep_cases hst with ⟨e, -, hserve⟩ | ⟨db, rfl, -⟩
  · exact (accounted_rely E).step h trivial hserve
  · exact ⟨⟨h.1.bids, h.1.channels⟩, h.2⟩

/-! ## A run of the two -/

theorem exec_published (E : Engines) (w : World) (c : Cmd) :
    ∃ ms, (exec E w c).1.published = ms ++ w.published := by
  cases c with
  | evalBid id amount user m ttl =>
    rcases exec_evalBid_cases E w id amount user m ttl with ⟨he, -⟩ | ⟨-, he⟩
    · exact ⟨[], by rw [he]; rfl⟩
    · exact ⟨[(updatesChannel id, m)], by rw [he]; rfl⟩
  | publish channel m => exact ⟨[(channel, m)], rfl⟩
  | selectRow id => exact ⟨[], by rw [exec_selectRow_world]; rfl⟩
  | _ => exact ⟨[], rfl⟩

/-- Messages and users are there for good. -/
structure Grown (w w' : World) : Prop where
  published : ∃ ms, w'.published = ms ++ w.published
  users : ∀ u ∈ w.db.users, u ∈ w'.db.users

theorem backendStep_grown {E : Engines} {s s' : Sys} {x : Act} (hst : backendStep E s x = some s') :
    Grown s.world s'.world := by
  rcases backendStep_cases hst with ⟨e, -, hserve⟩ | ⟨db, rfl, hmore⟩
  · rcases Program.step_world hserve with hw | ⟨d, -, hw⟩ | ⟨i, c, -, -, hw⟩ <;> rw [hw]
    · exact ⟨⟨[], rfl⟩, fun _ hu => hu⟩
    · exact ⟨⟨[], rfl⟩, fun _ hu => hu⟩
    · refine ⟨exec_published E _ c, fun u hu => ?_⟩
      rw [program_exec, exec_users]
      exact hu
  · exact ⟨⟨[], rfl⟩, hmore.users⟩

theorem said_of_append {w w' : World} {ms : List (String × Message)} (h : w'.published = ms ++ w.published) :
    said w w' = ms.reverse := by
  have hlen : w'.published.length - w.published.length = ms.length := by
    rw [h, List.length_append, Nat.add_sub_cancel]
  rw [said, hlen, h, List.take_left']
  rfl

/-- The hub has found its users in the table. -/
def Known (users : List Uuid) (h : Hub) : Prop :=
  h.users ⊆ users ∧ ∀ i us, (h.conn i).validated = some us → us ⊆ users

section
variable {mac : List UInt8 → List UInt8 → List UInt8} {secret : List UInt8}

/-- A connection is validated with the users there are. -/
theorem validated_conn {now : Int} {users us : List Uuid} {c c' : Conn} {e : ConnEvent}
    (hst : connStep mac secret now users c e = some c') (hus : c'.validated = some us) :
    c.validated = some us ∨ us = users := by
  cases e with
  | auth e =>
    cases authStep_move mac secret hst with
    | accepted hphase => cases hus
    | validated sub hphase huser =>
      cases hus
      exact .inr rfl
    | _ => exact .inl hus
  | peer e =>
    simp only [connStep, peerStep] at hst
    split at hst
    · cases hst
    · cases e <;> (cases hst; exact .inl hus)
  | serve e =>
    cases e <;> simp only [connStep, serveStep] at hst <;> split at hst <;> cases hst <;> exact .inl hus
  | routine e => exact .inl ((routineStep_same hst).2.validated ▸ hus)

theorem Known.step {users : List Uuid} {h h' : Hub} {e : HubEvent} (hk : Known users h)
    (he : ∀ us, e = .users us → us ⊆ users) (hst : hubStep mac secret h e = some h') : Known users h' := by
  cases e with
  | tick d =>
    cases hst
    exact hk
  | users us =>
    cases hst
    exact ⟨he us rfl, hk.2⟩
  | publish payload =>
    cases hst
    refine ⟨hk.1, fun i us hus => hk.2 i us ?_⟩
    rw [← (publish_same (h.conn i) payload).validated]
    exact hus
  | conn j e =>
    obtain ⟨c, hc, rfl⟩ := Option.map_eq_some_iff.mp hst
    refine ⟨hk.1, fun i us hus => ?_⟩
    by_cases hi : i = j
    · subst hi
      simp only [Function.update_self] at hus
      rcases validated_conn hc hus with hold | rfl
      · exact hk.2 i us hold
      · exact hk.1
    · simp only [Function.update_of_ne hi] at hus
      exact hk.2 i us hus

/-- The payloads among what the hub has of a step. -/
theorem published_hears {w w' : World} (hmatch : ∀ x ∈ said w w', matchesUpdates x.1 = true) :
    published (hears w w') = (said w w').map fun x => x.2.payload := by
  have hmap : ∀ xs : List (String × Message),
      published (xs.map fun x => HubEvent.publish x.2.payload) = xs.map fun x => x.2.payload := by
    intro xs
    induction xs with
    | nil => rfl
    | cons x xs ih => exact congrArg (x.2.payload :: ·) ih
  have happend : ∀ es fs, published (es ++ fs) = published es ++ published fs := fun es fs => List.flatMap_append
  rw [hears, List.filter_eq_self.mpr hmatch]
  show published (_ ++ [.users _]) = _
  rw [happend, hmap]
  exact List.append_nil _

/-- What the back end and the hub have of each other. -/
structure Live.Agrees (mac : List UInt8 → List UInt8 → List UInt8) (secret : List UInt8) (s : Live) : Prop where
  told : Told s.back
  guarded : AllGuarded mac secret s.hub
  known : Known s.back.world.db.users s.hub
  flow : ∀ i, (s.hub.conn i).flow.Sublist (s.back.world.published.reverse.map fun x => x.2.payload)

theorem agrees_fresh (mac : List UInt8 → List UInt8 → List UInt8) (secret : List UInt8) (now : Int) (db : Db)
    (redis : Redis) : (Live.fresh now db redis).Agrees mac secret where
  told := ⟨⟨rfl, fun _ h => (by cases h)⟩, fun _ _ h => (by cases h)⟩
  guarded := allGuarded_new now db.users
  known := ⟨fun _ h => h, fun _ _ h => (by cases h)⟩
  flow _ := List.nil_sublist _

/-- **One step of the two.** -/
theorem Live.Agrees.step {E : Engines} {s s' : Live} {e : LiveEvent} (h : s.Agrees mac secret)
    (hst : liveStep E mac secret s e = some s') : s'.Agrees mac secret := by
  cases e with
  | conn i e =>
    obtain ⟨hub, hhub, rfl⟩ := Option.map_eq_some_iff.mp hst
    refine ⟨h.told, h.guarded.step hhub, h.known.step (fun _ he => by cases he) hhub, fun j => ?_⟩
    have hflow := flow_hub j hhub
    rw [show HubEvent.payload (.conn i e) = [] from rfl, List.append_nil] at hflow
    exact hflow.trans (h.flow j)
  | back x =>
    obtain ⟨b, hb, hmap⟩ := Option.bind_eq_some_iff.mp hst
    obtain ⟨hub, hrun, rfl⟩ := Option.map_eq_some_iff.mp hmap
    have htold := h.told.step hb
    have hgrown := backendStep_grown hb
    obtain ⟨ms, hms⟩ := hgrown.published
    have hsaid := said_of_append hms
    refine ⟨htold, ?_, ?_, fun i => ?_⟩
    · exact Steps.reach_invariant (I := AllGuarded mac secret) (fun _ _ _ hI _ hst => hI.step hst) h.guarded
        (Steps.reach_run hrun)
    · refine Steps.run_invariant (I := Known b.world.db.users)
        (C := fun _ e => ∀ us, e = .users us → us ⊆ b.world.db.users)
        (fun _ _ _ hI he hst => hI.step he hst) ?_ (Steps.along_of_mem fun e he us heq => ?_) hrun
      · exact ⟨fun u hu => hgrown.users u (h.known.1 hu), fun i us hus u hu =>
          hgrown.users u (h.known.2 i us hus hu)⟩
      · subst heq
        have hlast : us = b.world.db.users := by simpa [hears] using he
        exact fun u hu => hlast ▸ hu
    · have hmatch : ∀ x ∈ said s.back.world b.world, matchesUpdates x.1 = true := by
        intro x hx
        rw [hsaid, List.mem_reverse] at hx
        refine htold.1.channels x ?_
        rw [hms]
        exact List.mem_append_left _ hx
      have hflow := flow_run i hrun
      rw [published_hears hmatch, hsaid] at hflow
      show List.Sublist _ (b.world.published.reverse.map _)
      rw [hms, List.reverse_append, List.map_append]
      exact hflow.trans ((h.flow i).append_right _)

end

/-! ## What is heard -/

/-- The frames, given to the listener one after another. -/
def Stream.listen (c : Stream) (frames : List ServerFrame) : Stream :=
  frames.foldl (fun c f => c.message f.data) c

/-- A listener at a connection. -/
def Conn.heard (c : Conn) : Stream := (connectAuctionStream 0 "").listen c.sent

/-- `update.auction_id` and `update.current_high_price`. -/
def updateOf (payload : Json) : Option (String × String) :=
  match property payload "auction_id", property payload "current_high_price" with
  | some (.str id), some (.str price) => some (id, price)
  | _, _ => none

/-- **A message is read as it was meant**: a PRICE_UPDATE is an update of its auction and its
price, and a SETTLEMENT is passed over. -/
theorem message_payload (c : Stream) (m : Message) :
    (c.message m.payload.toList).updates.map updateOf = c.updates.map updateOf ++ m.bid.toList.map some ∧
      (c.message m.payload.toList).errors = c.errors := by
  cases m with
  | priceUpdate id amount placed =>
    simp only [Message.payload, priceUpdateText, String.toList_ofList, Stream.message, Json.parse_encode]
    simp [property, Jwt.lookup, updateOf, Message.bid]
  | settlement id status price winner =>
    simp only [Message.payload, settlementText, String.toList_ofList, Stream.message, Json.parse_encode]
    simp [property, Jwt.lookup, Message.bid]

/-- The other frames of the hub are no updates. -/
theorem message_own (c : Stream) {f : ServerFrame} (h : f.payload = []) :
    (c.message f.data).updates = c.updates ∧
      (.unreadable ∈ (c.message f.data).errors → .unreadable ∈ c.errors) := by
  cases f with
  | authError e =>
    simp only [ServerFrame.data, Stream.message, Json.parse_encode_line]
    simp [property, Jwt.lookup]
  | authSuccess =>
    simp only [ServerFrame.data, Stream.message, Json.parse_encode]
    simp [property, Jwt.lookup]
  | published payload => cases h

/-- … and so is all that a connection is sent. -/
theorem listen_frames {frames : List ServerFrame} {ms : List Message}
    (h : frames.flatMap ServerFrame.payload = ms.map Message.payload) (c : Stream) :
    (c.listen frames).updates.map updateOf = c.updates.map updateOf ++ (ms.filterMap Message.bid).map some ∧
      (.unreadable ∈ (c.listen frames).errors → .unreadable ∈ c.errors) := by
  induction frames generalizing ms c with
  | nil =>
    rw [List.flatMap_nil, eq_comm, List.map_eq_nil_iff] at h
    subst h
    exact ⟨(List.append_nil _).symm, id⟩
  | cons f fs ih =>
    show ((c.message f.data).listen fs).updates.map updateOf = _ ∧
      (.unreadable ∈ ((c.message f.data).listen fs).errors → _)
    rw [List.flatMap_cons] at h
    by_cases hown : f.payload = []
    · rw [hown, List.nil_append] at h
      obtain ⟨hu, he⟩ := ih h (c.message f.data)
      obtain ⟨hupdates, herrors⟩ := message_own c hown
      rw [hupdates] at hu
      exact ⟨hu, fun hmem => herrors (he hmem)⟩
    · cases f with
      | authError e => exact absurd rfl hown
      | authSuccess => exact absurd rfl hown
      | published payload =>
        cases ms with
        | nil => cases h
        | cons m ms =>
          obtain ⟨rfl, hrest⟩ := List.cons.inj h
          obtain ⟨hu, he⟩ := ih hrest (c.message m.payload.toList)
          obtain ⟨hupdates, herrors⟩ := message_payload c m
          rw [hupdates, List.append_assoc] at hu
          rw [herrors] at he
          refine ⟨hu.trans ?_, he⟩
          cases hm : m.bid <;> simp [hm]

theorem userExists_iff {users : List Uuid} {sub : String} :
    userExists users sub = true ↔ ∃ u, Uuid.input sub = some u ∧ u ∈ users := by
  unfold userExists
  cases Uuid.input sub with
  | none => simp
  | some u => simp

theorem run_agrees {E : Engines} {mac : List UInt8 → List UInt8 → List UInt8} {secret : List UInt8}
    {now : Int} {db : Db} {redis : Redis} {s : Live} {es : List LiveEvent}
    (hrun : Steps.run (liveStep E mac secret) (Live.fresh now db redis) es = some s) : s.Agrees mac secret :=
  Steps.reach_invariant (I := Live.Agrees mac secret) (fun _ _ _ hI _ hst => hI.step hst)
    (agrees_fresh mac secret now db redis) (Steps.reach_run hrun)

/-- The price updates that are heard are accepted bids, in order, and all frames can be read. -/
theorem Live.Agrees.heard {mac : List UInt8 → List UInt8 → List UInt8} {secret : List UInt8} {s : Live}
    (h : s.Agrees mac secret) (i : Nat) :
    ((s.hub.conn i).heard.updates.map updateOf).Sublist
        (s.back.world.accepted.reverse.map fun x => some x.bid) ∧
      .unreadable ∉ (s.hub.conn i).heard.errors := by
  -- what was delivered is the first part of the flow
  have hdelivered : (s.hub.conn i).delivered.Sublist
      ((s.back.world.published.reverse.map Prod.snd).map Message.payload) := by
    rw [List.map_map]
    exact (List.sublist_append_left _ _).trans (h.flow i)
  obtain ⟨ms, hms, hpayload⟩ := List.sublist_map_iff.mp hdelivered
  obtain ⟨hupdates, hreadable⟩ := listen_frames hpayload (connectAuctionStream 0 "")
  have hbids : (s.back.world.published.reverse.map Prod.snd).filterMap Message.bid =
      s.back.world.accepted.reverse.map Acceptance.bid := by
    rw [List.filterMap_map, List.filterMap_reverse, List.map_reverse]
    exact congrArg List.reverse h.told.1.bids
  refine ⟨?_, fun hmem => (by cases hreadable hmem)⟩
  have hsub := (hms.filterMap Message.bid).map some
  rw [hbids, List.map_map] at hsub
  rw [Conn.heard, hupdates]
  exact hsub

/-- **What is heard was bid.** Whatever the bidders, the workers and the connections do: the price
updates that a listener is called with are accepted bids, in the order of their scripts and none of
them twice; no frame is unreadable; and who hears anything has shown the token of a user. -/
theorem heard_bids_accepted {E : Engines} {mac : List UInt8 → List UInt8 → List UInt8} {secret : List UInt8}
    {now : Int} {db : Db} {redis : Redis} {s : Live} {es : List LiveEvent}
    (hrun : Steps.run (liveStep E mac secret) (Live.fresh now db redis) es = some s) (i : Nat) :
    ((s.hub.conn i).heard.updates.map updateOf).Sublist
        (s.back.world.accepted.reverse.map fun x => some x.bid) ∧
      .unreadable ∉ (s.hub.conn i).heard.errors ∧
      ((s.hub.conn i).heard.updates ≠ [] → ∃ sub u, Presents mac secret (s.hub.conn i) sub ∧
        Uuid.input sub = some u ∧ u ∈ s.back.world.db.users) := by
  have hagrees := run_agrees hrun
  obtain ⟨hbids, hreadable⟩ := hagrees.heard i
  refine ⟨hbids, hreadable, fun hheard => ?_⟩
  have hadmitted : Admitted mac secret (s.hub.conn i) := by
    by_contra hnot
    obtain ⟨-, -, hrefused, -⟩ := (hagrees.guarded i).turnedAway hnot
    have hnothing : (s.hub.conn i).sent.flatMap ServerFrame.payload = ([] : List Message).map Message.payload := by
      rcases hrefused with hsent | ⟨e, hsent⟩ <;> (rw [hsent]; rfl)
    exact hheard (List.map_eq_nil_iff.mp (listen_frames hnothing (connectAuctionStream 0 "")).1)
  obtain ⟨sub, users, hpresents, hvalidated, hexists⟩ := hadmitted
  obtain ⟨u, hu, hmem⟩ := userExists_iff.mp hexists
  exact ⟨sub, u, hpresents, hu, hagrees.known.2 i users hvalidated hmem⟩

/-! ## A watcher -/

/-- The steps of connections are those of the hub. -/
theorem run_conns (E : Engines) (mac : List UInt8 → List UInt8 → List UInt8) (secret : List UInt8) (s : Live)
    (es : List (Nat × ConnEvent)) :
    Steps.run (liveStep E mac secret) s (es.map fun e => .conn e.1 e.2) =
      (Steps.run (hubStep mac secret) s.hub (es.map fun e => .conn e.1 e.2)).map fun h => { s with hub := h } := by
  induction es generalizing s with
  | nil => rfl
  | cons e es ih =>
    simp only [List.map_cons, Steps.run, liveStep]
    cases hubStep mac secret s.hub (.conn e.1 e.2) with
    | none => rfl
    | some h => exact ih { s with hub := h }

/-- `handshake`, by the number of the connection. -/
def handshakeOf (i : Nat) (token : String) : List (Nat × ConnEvent) :=
  [(i, .auth .accept), (i, .peer (.arrive (firstFrame "AUTH" token))), (i, .auth .check),
    (i, .auth (.validate true)), (i, .serve .register), (i, .serve (.greet true))]

/-- The user of the sample token has connected. -/
def watchedLot : Live :=
  { Live.fresh 0 lotAtTen.world.db Expiring.Store.empty with
    hub := Hub.greeted 0 0 lotAtTen.world.db.users sampleToken }

theorem run_watchedLot :
    Steps.run (liveStep decimalEngines sampleMac sampleSecret)
      (Live.fresh 0 lotAtTen.world.db Expiring.Store.empty)
      ((handshakeOf 0 sampleToken).map fun e => .conn e.1 e.2) = some watchedLot := by
  have hgreeted : Steps.run (hubStep sampleMac sampleSecret) (Hub.new 0 lotAtTen.world.db.users)
      (handshake 0 sampleToken) = some (Hub.greeted 0 0 lotAtTen.world.db.users sampleToken) :=
    run_handshake 0 List.mem_cons_self (by decide)
  rw [run_conns]
  exact congrArg (Option.map _) hgreeted

/-- The watcher subscribes, a bid on the lot is accepted, and its message is sent. -/
def watchedBid : List LiveEvent :=
  .conn 0 (.routine .subscribe) ::
    (.start 0 (.bid (lotBid "10.50" 1)) :: calls 0 4).map (fun e => .back (.serve e)) ++
    [.conn 0 (.routine .receive), .conn 0 (.routine .take), .conn 0 (.routine (.write true))]

theorem heard_bids_accepted_lot : ∃ es s,
    Steps.run (liveStep decimalEngines sampleMac sampleSecret)
        (Live.fresh 0 lotAtTen.world.db Expiring.Store.empty) es = some s ∧
      (s.hub.conn 0).heard.updates.map updateOf = [some ((Uuid.ofDigit 0).text, "10.50")] ∧
      ((s.hub.conn 0).heard.updates.map updateOf).Sublist
        (s.back.world.accepted.reverse.map fun x => some x.bid) := by
  obtain ⟨s, hrun, hcheck⟩ := Steps.exists_of_check (liveStep decimalEngines sampleMac sampleSecret)
    watchedLot watchedBid (fun s => decide ((s.hub.conn 0).sent.flatMap ServerFrame.payload =
      [Message.priceUpdate (Uuid.ofDigit 0).text "10.50" 0].map Message.payload)) (by decide +kernel)
  have hall := Steps.run_append.mpr ⟨watchedLot, run_watchedLot, hrun⟩
  exact ⟨_, s, hall, (listen_frames (of_decide_eq_true hcheck) (connectAuctionStream 0 "")).1,
    (heard_bids_accepted hall 0).1⟩

end Synora
