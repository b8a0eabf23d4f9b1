import Synora.Increasing

/- In a run of bids alone the lead lasts. No settlement deletes it, a SETNX puts a
   price without expiry, and an accepting script gives both keys the rest of the
   auction and 24 hours. So up to two seconds before these hours are over every
   script finds the price its handler has initialized, and the leader of the last
   accepted bid: the condition `LeadKept` is met without being assumed. The two
   seconds are what the handler loses by counting whole seconds; a Go duration
   ends after 2^63 ns, which bounds the expiry of an auction that ends later. -/
namespace Synora

open Expiring Calls

/-- `now` is before the keys of a bid on an auction that ends at `endTime` can expire, if the
bid was placed at or after `start`. -/
def InGrace (endTime start now : Int) : Prop :=
  now + 2 * second ≤ 1000 * endTime + 24 * hour ∧ now + 2 * second ≤ start + 2^63

instance (endTime start now : Int) : Decidable (InGrace endTime start now) :=
  inferInstanceAs (Decidable (_ ∧ _))

/-- Counting whole seconds loses less than one. -/
theorem durationSub_lt_ttlSeconds («end» now : Int) :
    durationSub («end» + 24 * hour) now < second * (ttlSeconds «end» now + 1) := by
  have hpos := ttlSeconds_pos «end» now
  unfold ttlSeconds at *
  generalize durationSub («end» + 24 * hour) now = d at *
  unfold second at *
  by_cases hneg : d < 0
  · omega
  · simp only [Int.tdiv_eq_ediv_of_nonneg (Int.not_lt.mp hneg)]
    split <;> omega

/-- The keys of a bid that was placed before its script ran are there up to `later`. -/
theorem deadline_lasts {endTime start now placed later : Int} (hgrace : InGrace endTime start later)
    (hstart : start ≤ now) (hplaced : placed ≤ now) :
    later / 1000000 ≤ now / 1000000 + 1000 * ttlSeconds (1000 * endTime) placed := by
  obtain ⟨hend, hmax⟩ := hgrace
  have hlt := durationSub_lt_ttlSeconds (1000 * endTime) placed
  unfold durationSub at hlt
  unfold second at *
  -- either the rest of the hours is shorter than a Go duration can be, or it is cut off there
  rcases Int.le_total (1000 * endTime + 24 * hour - placed) (2^63 - 1) with hle | hge
  · rw [Int.min_eq_right hle] at hlt
    have := Int.le_max_right (-2^63) (1000 * endTime + 24 * hour - placed)
    omega
  · rw [Int.min_eq_left hge] at hlt
    omega

/-! ## The invariant -/

section
variable (u : Uuid) (endTime start later : Int)

/-- The price key holds a price that can be read up to `later`. -/
def PriceSet (w : World) : Prop := ∃ e, w.redis.entry (later / 1000000) (priceKey u.text) = some e

/-- A price that can be read stays, and so does the leader once a bid has been accepted. -/
structure Kept (w : World) : Prop where
  started : start ≤ w.now
  price : ∀ e, w.entry (priceKey u.text) = some e → e.live (later / 1000000) = true
  leader : w.accepted ≠ [] → ∃ e, w.redis.entry (later / 1000000) (leaderKey u.text) = some e

/-- Once its SETNX has executed, a handler finds the price set. -/
structure SlotKept (w : World) (sl : Slot Proc Cmd Reply) : Prop where
  arming : ∀ req row, sl.client = .live (.bid req (.arming row)) → PriceSet u later w
  inbox : ∀ req row, sl.client = .live (.bid req (.initializing row)) → sl.inbox = some .ok →
    PriceSet u later w
  wire : ∀ id amount user m ttl, sl.wire = some (.evalBid id amount user m ttl) →
    PriceSet u later w ∧ ∃ placed, placed ≤ w.now ∧ ttl = ttlSeconds (1000 * endTime) placed

end

/-- A slot that has no SETNX behind it and no script before it. -/
theorem slotKept_other {u : Uuid} {endTime later : Int} {w : World} {sl : Slot Proc Cmd Reply}
    (harming : ∀ req row, sl.client ≠ .live (.bid req (.arming row)))
    (hinbox : sl.inbox ≠ some .ok) (hwire : ∀ c, sl.wire = some c → c.isEval = false) :
    SlotKept u endTime later w sl where
  arming req row h := absurd h (harming req row)
  inbox req row _ h := absurd h hinbox
  wire id amount user m ttl h := by cases hwire _ h

theorem redisNow_le {w : World} {later : Int} (h : w.now ≤ later) : w.redisNow ≤ later / 1000000 := by
  unfold World.redisNow
  omega

/-- What a request of a bid does to the lead: nothing, or a SETNX, or what the script writes. -/
theorem bidExec_cases {E : Engines} {T : Uuid → Option Terms} {A : Job → Prop} {u : Uuid} {w : World}
    {p : Proc} {c : Cmd} (hA : ∀ j, A j → ∃ req, j = .bid req ∧ req.auctionID = u.text)
    (hp : ProcOk T A w p) (hw : Waits p c) :
    ((∀ t, (exec E w c).1.redis.entry t (priceKey u.text) = w.redis.entry t (priceKey u.text) ∧
        (exec E w c).1.redis.entry t (leaderKey u.text) = w.redis.entry t (leaderKey u.text)) ∧
      (exec E w c).1.accepted = w.accepted ∧ ∀ req row, p ≠ .bid req (.initializing row)) ∨
    (∃ value, (exec E w c).1 = { w with redis := w.redis.putNX w.redisNow (priceKey u.text) value }) ∨
    (∃ amount user m ttl, c = .evalBid u.text amount user m ttl ∧ 0 < ttl ∧
      (exec E w c).1 = w.lead u.text amount user m ttl) := by
  have hid : ∀ req pc, p = .bid req pc → req.auctionID = u.text := by
    intro req pc h
    subst h
    obtain ⟨req', hreq, h⟩ := hA _ hp.1
    cases hreq
    exact h
  have hjob : ∀ job pc, p ≠ .settle job pc := by
    intro job pc h
    subst h
    obtain ⟨⟨v, t, hj, -⟩, -⟩ := hp
    obtain ⟨req, h, -⟩ := hA _ hj
    cases h
  cases hw with
  | selecting req =>
    rw [exec_selectRow_world]
    exact .inl ⟨fun t => ⟨rfl, rfl⟩, rfl, fun _ _ h => by cases h⟩
  | initializing req row =>
    have := hid req _ rfl
    exact .inr (.inl ⟨row.starting, by rw [← this]; rfl⟩)
  | arming req row now =>
    refine .inl ⟨fun t => ⟨?_, ?_⟩, rfl, fun _ _ h => by cases h⟩
    · exact Redis.entry_set_ne _ _ _ _ _ (priceKey_ne_statusKey _ _)
    · exact Redis.entry_set_ne _ _ _ _ _ (leaderKey_ne_statusKey _ _)
  | scripting req row placed =>
    have := hid req _ rfl
    unfold evalCmd
    rw [this]
    rcases exec_evalBid_cases E w u.text req.amount req.user
        (.priceUpdate u.text req.amount placed) (ttlSeconds row.end placed) with
      ⟨hsame, -⟩ | ⟨-, he⟩
    · rw [hsame]
      exact .inl ⟨fun t => ⟨rfl, rfl⟩, rfl, fun _ _ h => by cases h⟩
    · exact .inr (.inr ⟨_, _, _, _, rfl, ttlSeconds_pos _ _, congrArg Prod.fst he⟩)
  | reading job => exact absurd rfl (hjob job _)
  | committing job p l => exact absurd rfl (hjob job _)
  | caching job st ps wid now => exact absurd rfl (hjob job _)
  | publishing job st ps wid => exact absurd rfl (hjob job _)
  | deleting job => exact absurd rfl (hjob job _)

section
variable {E : Engines} {T : Uuid → Option Terms} {A : Job → Prop} {u : Uuid}
  {endTime start later : Int} {w : World} {p : Proc} {c : Cmd}

/-- After a SETNX the price is set. -/
theorem Kept.priceSet_putNX (h : Kept u start later w) (value : String) :
    PriceSet u later { w with redis := w.redis.putNX w.redisNow (priceKey u.text) value } := by
  cases hold : w.redis.entry w.redisNow (priceKey u.text) with
  | none =>
    refine ⟨⟨value, none⟩, ?_⟩
    show (w.redis.putNX w.redisNow (priceKey u.text) value).entry _ _ = _
    rw [Store.putNX_of_none value hold, Store.entry_put_self]
    rfl
  | some e =>
    refine ⟨e, ?_⟩
    show (w.redis.putNX w.redisNow (priceKey u.text) value).entry _ _ = _
    rw [Store.putNX_of_some value hold, Store.entry_eq_some]
    exact ⟨(Store.entry_eq_some.mp hold).1, h.price e hold⟩

/-- **One request of a bid keeps the lead**, and a price that is set. -/
theorem Kept.exec (h : Kept u start later w)
    (hA : ∀ j, A j → ∃ req, j = .bid req ∧ req.auctionID = u.text)
    (hgrace : InGrace endTime start later) (hp : ProcOk T A w p) (hw : Waits p c)
    (hwire : ∀ id amount user m ttl, c = .evalBid id amount user m ttl →
      ∃ placed, placed ≤ w.now ∧ ttl = ttlSeconds (1000 * endTime) placed) :
    Kept u start later (exec E w c).1 ∧ (PriceSet u later w → PriceSet u later (exec E w c).1) := by
  have hnow : (Synora.exec E w c).1.now = w.now := exec_now E w c
  have hstarted : start ≤ (Synora.exec E w c).1.now := hnow ▸ h.started
  rcases bidExec_cases (E := E) hA hp hw with ⟨hkeys, hacc, -⟩ | ⟨value, he⟩ |
      ⟨amount, user, m, ttl, rfl, hpos, he⟩
  · refine ⟨⟨hstarted, fun e hprice => ?_, fun hne => ?_⟩, fun ⟨e, hset⟩ => ⟨e, ?_⟩⟩
    · rw [World.entry, exec_redisNow, (hkeys _).1] at hprice
      exact h.price e hprice
    · rw [hacc] at hne
      obtain ⟨e, hl⟩ := h.leader hne
      exact ⟨e, (hkeys _).2.trans hl⟩
    · exact (hkeys _).1.trans hset
  · have hset := h.priceSet_putNX value
    rw [← he] at hset
    refine ⟨⟨hstarted, fun e hprice => ?_, fun hne => ?_⟩, fun _ => hset⟩
    · -- what is read now is what is read later
      obtain ⟨e', he'⟩ := hset
      obtain ⟨hraw, hlive⟩ := Store.entry_eq_some.mp he'
      rw [(Store.entry_eq_some.mp hprice).1] at hraw
      cases hraw
      exact hlive
    · rw [he] at hne ⊢
      obtain ⟨e, hl⟩ := h.leader hne
      exact ⟨e, (Store.entry_putNX_ne _ _ _ _ (leaderKey_ne_priceKey _ _)).trans hl⟩
  · obtain ⟨placed, hplaced, rfl⟩ := hwire _ _ _ _ _ rfl
    have hlast := deadline_lasts hgrace h.started hplaced
    rw [he]
    have hprice := (entry_writeLead_price w.redis w.redisNow (later / 1000000) u.text amount user
      (ttlSeconds (1000 * endTime) placed)).trans (if_pos hlast)
    have hleader := (entry_writeLead_leader w.redis w.redisNow (later / 1000000) u.text amount user
      (ttlSeconds (1000 * endTime) placed)).trans (if_pos hlast)
    refine ⟨⟨h.started, fun e hread => ?_, fun _ => ⟨_, hleader⟩⟩, fun _ => ⟨_, hprice⟩⟩
    rw [entry_lead_price hpos] at hread
    cases hread
    exact decide_eq_true hlast

end

/-- The steps of a run of bids on one id text, up to `later`. -/
def BidsUntil (T : Uuid → Option Terms) (A : Job → Prop) (later : Int) (s : Sys) (e : Ev) : Prop :=
  (JobsOn A e ∧ s.world.now ≤ later) ∧ Sound T A s

theorem kept_rely (E : Engines) {T : Uuid → Option Terms} {A : Job → Prop} {u : Uuid} {t : Terms}
    {start later : Int} (hT : T u = some t)
    (hA : ∀ j, A j → ∃ req, j = .bid req ∧ req.auctionID = u.text)
    (hgrace : InGrace t.endTime start later) :
    Rely (program E) (Kept u start later) (fun _ => SlotKept u t.endTime later)
      (BidsUntil T A later) where
  tick w d h := by
    refine ⟨?_, fun e he => h.price e (entry_of_tick he), h.leader⟩
    have := h.started
    show start ≤ w.now + d
    omega
  tickL i w d sl _ h := by
    refine ⟨h.arming, h.inbox, fun id amount user m ttl hw => ?_⟩
    obtain ⟨hset, placed, hle, httl⟩ := h.wire id amount user m ttl hw
    refine ⟨hset, placed, ?_, httl⟩
    show placed ≤ w.now + d
    omega
  start s i j p c _ _ hst := by
    rcases startJob_cases hst with ⟨req, rfl, -, -, rfl, rfl⟩ | ⟨req, rfl, rfl, rfl⟩ |
        ⟨v, job, rfl, -, rfl, rfl⟩ <;>
      exact slotKept_other (by simp) (by simp) (by simp [Cmd.isEval])
  exec s i c hG hL hD hw := by
    obtain ⟨p, hp, hwait, -⟩ := (hD.2.2 i).wire c hw
    exact (hG.exec hA hgrace hp hwait fun _ _ _ _ _ h => (hL.wire _ _ _ _ _ (h ▸ hw)).2).1
  execL s i c hG hL hD hw := by
    obtain ⟨p, hp, hwait, hsame⟩ := (hD.2.2 i).wire c hw
    have hset := (hG.exec (E := E) hA hgrace hp hwait
      fun _ _ _ _ _ h => (hL.wire _ _ _ _ _ (h ▸ hw)).2).2
    refine ⟨fun req row hc => hset (hL.arming req row hc), fun req row hc _ => ?_,
      fun _ _ _ _ _ h => (by cases h)⟩
    obtain rfl := hsame _ hc rfl
    -- the client still waits, so the request was its SETNX
    rcases bidExec_cases (E := E) hA hp hwait with ⟨-, -, hne⟩ | ⟨value, he⟩ |
        ⟨amount, user, m, ttl, rfl, -⟩
    · exact absurd rfl (hne req row)
    · rw [program_exec, he]
      exact hG.priceSet_putNX value
    · cases hwait
  stable s i c j sl hG hL hD hw h := by
    obtain ⟨p, hp, hwait, -⟩ := (hD.2.2 i).wire c hw
    have hset := (hG.exec (E := E) hA hgrace hp hwait
      fun _ _ _ _ _ h => (hL.wire _ _ _ _ _ (h ▸ hw)).2).2
    refine ⟨fun req row hc => hset (h.arming req row hc),
      fun req row hc hr => hset (h.inbox req row hc hr), fun id amount user m ttl hsl => ?_⟩
    obtain ⟨hprice, placed, hle, httl⟩ := h.wire id amount user m ttl hsl
    exact ⟨hset hprice, placed, by rw [program_exec, exec_now]; exact hle, httl⟩
  recv s i p r hG hL hD hc hr hd := by
    cases p with
    | settle job pc =>
      obtain ⟨⟨v, t', hj, -⟩, -⟩ := (hD.2.2 i).proc _ hc
      obtain ⟨req, h, -⟩ := hA _ hj
      cases h
    | bid req pc =>
      have hok := (hD.2.2 i).proc _ hc
      simp only [program_resume, program_clock, resumeProc]
      rcases bidResume_cases s.world.now req pc r hd with ⟨row, c, rfl, -, -, he⟩ | ⟨row, rfl, rfl, he⟩ |
          ⟨row, rfl, -, -, he⟩ | ⟨row, placed, v, rfl, rfl, he⟩ | ⟨a, ha, he⟩ <;> rw [he]
      · exact slotKept_other (by simp) (by simp) (by simp [Cmd.isEval])
      · exact ⟨fun _ _ _ => hL.inbox req row hc hr, fun _ _ _ h => (by cases h),
          fun _ _ _ _ _ h => (by cases h)⟩
      · refine ⟨fun _ _ h => (by cases h), fun _ _ _ h => (by cases h), fun _ _ _ _ _ h => ?_⟩
        -- the end the handler has read is that of the row
        obtain ⟨hjob, -, hrow⟩ := hok
        obtain ⟨req', hreq, hid⟩ := hA _ hjob
        cases hreq
        have hend := (hrow.terms hid hT).2.2
        cases h
        exact ⟨hL.arming req row hc, s.world.now, Int.le_refl _, by rw [hend]⟩
      · exact slotKept_other (by simp) (by simp) (by simp [Cmd.isEval])
      · exact slotKept_other (by simp) (by simp) (by simp [Cmd.isEval])
  fail s i p _ hL _ hc hd := by
    have hne : ∀ req pc, abortProc p = .bid req pc → pc.done = true := by
      intro req pc h
      have := abortProc_done p
      rw [h] at this
      exact this
    refine ⟨fun req row h => ?_, fun req row h => ?_, hL.wire⟩
    · cases hne req _ (Client.live.inj h)
    · cases hne req _ (Client.live.inj h)
  drop i w sl _ h := ⟨h.arming, h.inbox, fun _ _ _ _ _ hw => (by cases hw)⟩
  crash i w sl _ h := ⟨fun _ _ hc => (by cases hc), fun _ _ hc => (by cases hc), h.wire⟩

/-! ## Along a run -/

/-- No step turns the clock back. -/
theorem step_now_le {E : Engines} {s s' : Sys} {e : Ev} (h : sysStep E s e = some s') :
    s.world.now ≤ s'.world.now := by
  rcases Program.step_world h with hw | ⟨d, rfl, hw⟩ | ⟨i, c, rfl, -, hw⟩ <;> rw [hw]
  · show s.world.now ≤ s.world.now + d
    omega
  · rw [program_exec, exec_now]

/-- A kept lead can be read. -/
theorem leadKept_of_kept {u : Uuid} {endTime start later : Int} {s : Sys}
    (h : Holds (Kept u start later) (fun _ => SlotKept u endTime later) s) (e : Ev)
    (hnow : s.world.now ≤ later) : LeadKept u.text s e := by
  obtain ⟨hG, hL⟩ := h
  have hread : ∀ k x, s.world.redis.entry (later / 1000000) k = some x →
      (s.world.get k).isSome = true := by
    intro k x hx
    have hentry : s.world.entry k = some x := Store.entry_later (redisNow_le hnow) hx
    rw [World.get, Store.get_of_entry hentry]
    rfl
  cases e with
  | exec i =>
    intro c hc heval _
    cases c with
    | evalBid id amount user m ttl =>
      obtain ⟨⟨x, hx⟩, -⟩ := (hL i).wire id amount user m ttl hc
      refine ⟨hread _ x hx, fun hne => ?_⟩
      obtain ⟨y, hy⟩ := hG.leader hne
      exact hread _ y hy
    | _ => cases heval
  | _ => exact trivial

/-- **The lead lasts.** A run of bids on one id text, looked at before their keys can expire,
meets the condition `LeadKept` at every step, and the leader of a lot with an accepted bid can
be read at its end. -/
theorem lead_lasts {E : Engines} {A : Job → Prop} {s s' : Sys} {es : List Ev} {u : Uuid} {a : Auction}
    (ho : Opens s u a) (hA : ∀ j, A j → ∃ req, j = .bid req ∧ req.auctionID = u.text)
    (hjobs : ∀ e ∈ es, JobsOn A e) (hr : Steps.run (sysStep E) s es = some s')
    (hgrace : InGrace a.endTime s.world.now s'.world.now) :
    Steps.Reach (sysStep E) (fun t e => JobsOn A e ∧ LeadKept u.text t e) s s' ∧
      (s'.world.accepted ≠ [] → (s'.world.get (leaderKey u.text)).isSome = true) := by
  have hT : termsOf s.world.db u = some a.terms := termsOf_of_find ho.row
  have hbelow := (Steps.along_below (f := fun t : Sys => t.world.now) (fun _ _ _ => step_now_le) hr).2
  have halong := Steps.along_and (Steps.along_of_mem hjobs) hbelow
  have hsound := (sound_along ho.fresh (fun _ _ h => h.1) ⟨es, halong, hr⟩).2
  have hbegin : Holds (Kept u s.world.now s'.world.now)
      (fun _ => SlotKept u a.endTime s'.world.now) s := by
    refine ⟨⟨Int.le_refl _, fun e he => ?_, fun hne => absurd ho.accepted hne⟩, fun i => ?_⟩
    · rw [World.entry, ho.redis] at he
      cases he
    · rw [ho.fresh]
      exact slotKept_other (by simp [State.fresh]) (by simp [State.fresh]) (by simp [State.fresh])
  obtain ⟨hlast, hkept⟩ := Steps.reach_keeps
    (fun _ _ _ hI hc hst => (kept_rely E hT hA hgrace).step hI hc hst) hbegin hsound
  refine ⟨Steps.reach_mono (fun t e h => ⟨h.1.1.1, leadKept_of_kept h.2 e h.1.1.2⟩) hkept, fun hne => ?_⟩
  obtain ⟨e, he⟩ := hlast.1.leader hne
  rw [World.get, Store.get_of_entry (Store.entry_later (redisNow_le (Int.le_refl _)) he)]
  rfl

end Synora
