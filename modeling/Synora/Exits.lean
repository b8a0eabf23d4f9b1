import Synora.Sent

/- What a bid that is not answered 201 has changed. The handler has eight exits
   around three writes. Its requests are followed one by one: each must leave the
   leader and the channel alone, may put the starting price of an ACTIVE row
   under an absent price key, and must not write ACTIVE over a final status. This
   holds exactly when each request executes on the state the handler assumed, no
   script of it takes effect after it has given up, and no reply of an accepting
   script is lost (`Sure`). -/
namespace Synora

open Expiring Calls

/-- What a request of the bid on `id` may change. -/
structure HarmlessChange (id : String) (w w' : World) : Prop where
  leader : w'.entry (leaderKey id) = w.entry (leaderKey id)
  published : w'.published = w.published
  price : w'.entry (priceKey id) = w.entry (priceKey id) ∨ ∃ u row, Uuid.input id = some u ∧
    w.db.find u = some row ∧ row.status = .ACTIVE ∧ w.get (priceKey id) = none ∧
    w'.get (priceKey id) = some row.startingPrice.text
  status : w.get (statusKey id) = some "CLOSED" ∨ w.get (statusKey id) = some "SETTLED" →
    w'.get (statusKey id) ≠ some "ACTIVE"

/-- The requests of client `i` are harmless. -/
def Harmless (E : Engines) (i : Nat) (id : String) (s : Sys) : Ev → Prop
  | .exec j => j = i → ∀ s', sysStep E s (.exec j) = some s' → HarmlessChange id s.world s'.world
  | _ => True

/-- The row the id denotes is ACTIVE. -/
def rowActive (id : String) (w : World) : Prop :=
  ∃ u, Uuid.input id = some u ∧ w.rowStatus u = some .ACTIVE

/-- The script takes effect. -/
def Accepts (E : Engines) (w : World) : Cmd → Prop
  | .evalBid id amount user _ ttl =>
    ∃ r, bidScript E w.redis w.redisNow id amount user ttl = .accepted r
  | _ => False

/-- What a SETNX and a SET of the bid must find. -/
def SureWrite (id : String) (w : World) : Cmd → Prop
  | .setNX .. => (w.get (priceKey id)).isSome = true ∨ rowActive id w
  | .set .. => w.get (statusKey id) ≠ some "CLOSED" ∧ w.get (statusKey id) ≠ some "SETTLED"
  | _ => True

/-- The requests of client `i` execute on the state the handler assumed, its script takes
effect only while it waits, and it is not told of an error once the script has accepted. -/
def Sure (E : Engines) (i : Nat) (id : String) (s : Sys) : Ev → Prop
  | .exec j => j = i → ∀ c, (s.slot i).wire = some c → SureWrite id s.world c ∧
    (Accepts E s.world c → ∃ p, (s.slot i).client = .live p ∧ p.done = false)
  | .fail j => j = i → ∀ v, (s.slot i).inbox ≠ some (.script 1 v)
  | _ => True

/-! ## The request of a client stays its request -/

/-- The bid a process serves. -/
def Proc.request : Proc → Option BidRequest
  | .bid req _ => some req
  | .settle _ _ => none

/-- A client that has started goes on with its request, or is dead. -/
def Serves (i : Nat) (r : Option BidRequest) (s : Sys) : Prop :=
  (∃ p, (s.slot i).client = .live p ∧ p.request = r) ∨ (s.slot i).client = .dead

theorem Serves.step {E : Engines} {i : Nat} {r : Option BidRequest} {s s' : Sys} {e : Ev}
    (h : Serves i r s) (hst : sysStep E s e = some s') : Serves i r s' := by
  -- while it is live, the process keeps its request
  have hkeeps : ∀ p q : Proc, (s.slot i).client = .live p → q.request = p.request → q.request = r := by
    intro p q hc hq
    rcases h with ⟨p', hp', hreq⟩ | hdead
    · rw [hc] at hp'
      cases hp'
      exact hq.trans hreq
    · rw [hc] at hdead
      cases hdead
  unfold Serves at h ⊢
  rcases Program.step_slot hst i with he | ⟨j, p, c, -, hidle, -, -⟩ | ⟨c, -, -, he⟩ |
      ⟨p, reply, -, hc, -, -, he⟩ | ⟨p, -, hc, -, he⟩ | ⟨c, -, -, he⟩ | ⟨p, -, -, -, he⟩
  · rw [he]
    exact h
  · rcases h with ⟨q, hq, -⟩ | hdead
    · rw [hidle] at hq
      cases hq
    · rw [hidle] at hdead
      cases hdead
  · rw [he]
    exact h
  · rw [he]
    exact .inl ⟨_, rfl, hkeeps p _ hc (by cases p <;> rfl)⟩
  · rw [he]
    exact .inl ⟨_, rfl, hkeeps p _ hc (by cases p <;> rfl)⟩
  · rw [he]
    exact h
  · rw [he]
    exact .inr rfl

/-- The job a client starts with, seen from its answer. -/
def StartsWith (i : Nat) (req : BidRequest) : Nat → Job → Prop :=
  fun j job => j = i → job = .bid req

theorem jobs_of_answered {E : Engines} {s s' : Sys} {es : List Ev} {i : Nat} {req : BidRequest}
    {a : Answer} (hrun : Steps.run (sysStep E) s es = some s') (ha : Answered s' i req a) :
    Steps.Along (sysStep E) (fun _ e => JobsBy (StartsWith i req) e) s es := by
  refine Steps.along_of_rest (D := fun _ _ => True) (fun s e m es hm hr _ _ => ?_) hrun
    (Steps.along_of_forall fun _ _ => trivial)
  cases e with
  | start j job =>
    intro hj
    subst hj
    obtain ⟨p, c, -, hstart, rfl⟩ := Program.start_inv hm
    have hserves := Steps.run_invariant (I := Serves j p.request)
      (fun _ _ _ hI _ hst => hI.step hst) (.inl ⟨p, by simp, rfl⟩)
      (Steps.along_of_forall fun _ _ => trivial) hr
    have hreq : p.request = some req := by
      rcases hserves with ⟨q, hq, hreq⟩ | hdead
      · rw [ha] at hq
        cases hq
        exact hreq.symm
      · rw [ha] at hdead
        cases hdead
    rcases startJob_cases hstart with ⟨req', rfl, -, -, rfl, -⟩ | ⟨req', rfl, rfl, -⟩ |
        ⟨u, sj, rfl, -, rfl, -⟩
    · cases hreq
      rfl
    · cases hreq
      rfl
    · cases hreq
  | _ => trivial

/-! ## One request -/

theorem harmlessChange_same {id : String} {w w' : World}
    (hl : w'.entry (leaderKey id) = w.entry (leaderKey id)) (hpub : w'.published = w.published)
    (hp : w'.entry (priceKey id) = w.entry (priceKey id))
    (hs : w'.get (statusKey id) = w.get (statusKey id)) : HarmlessChange id w w' := by
  refine ⟨hl, hpub, .inl hp, fun hterm => ?_⟩
  rw [hs]
  rcases hterm with h | h <;> rw [h] <;> decide

section
variable {E : Engines} {T : Uuid → Option Terms} {i : Nat} {req : BidRequest} {w : World} {p : Proc}
  {c : Cmd}

/-- The row a bid has read, as it stands: the starting price is still the same. -/
theorem RowOk.starting_of_find (hT : TermsAre T w) {row : SeenRow} (h : RowOk T req row) {u : Uuid}
    {r : Auction} (hu : Uuid.input req.auctionID = some u) (hr : w.db.find u = some r) :
    row.starting = r.startingPrice.text := by
  obtain ⟨v, t, hv, ht, hstart, -⟩ := h
  rw [hu] at hv
  cases hv
  have hterms := termsOf_of_find hr
  rw [hT, ht] at hterms
  cases hterms
  exact hstart

/-- SETNX is harmless exactly when there is a price, or the auction is ACTIVE. -/
theorem harmlessChange_setNX_iff (hT : TermsAre T w) {row : SeenRow} (hrow : RowOk T req row) :
    HarmlessChange req.auctionID w (exec E w (.setNX (priceKey req.auctionID) row.starting)).1 ↔
      SureWrite req.auctionID w (.setNX (priceKey req.auctionID) row.starting) := by
  have hleader := Store.entry_putNX_ne w.redis w.redisNow w.redisNow row.starting
    (leaderKey_ne_priceKey req.auctionID req.auctionID)
  have hstatus : (exec E w (.setNX (priceKey req.auctionID) row.starting)).1.get
      (statusKey req.auctionID) = w.get (statusKey req.auctionID) :=
    get_congr (Store.entry_putNX_ne _ _ _ _ (statusKey_ne_priceKey _ _))
  have hnx := Store.entry_putNX_self w.redis w.redisNow (priceKey req.auctionID) row.starting
  cases hold : w.redis.entry w.redisNow (priceKey req.auctionID) with
  | some e =>
    -- the price is there and stays
    rw [hold] at hnx
    have hsome : (w.get (priceKey req.auctionID)).isSome = true := by
      rw [show w.get (priceKey req.auctionID) = some e.value from Store.get_of_entry hold]
      rfl
    exact ⟨fun _ => .inl hsome,
      fun _ => harmlessChange_same hleader rfl (hnx.trans hold.symm) hstatus⟩
  | none =>
    rw [hold] at hnx
    have hnone : w.get (priceKey req.auctionID) = none := Store.get_eq_none.mpr hold
    constructor
    · intro h
      rcases h.price with hsame | ⟨v, r, hv, hr, hact, -⟩
      · have := hnx.symm.trans (hsame.trans hold)
        cases this
      · exact .inr ⟨v, hv, by simp [World.rowStatus, hr, hact]⟩
    · rintro (hsome | ⟨v, hv, hact⟩)
      · rw [hnone] at hsome
        cases hsome
      · obtain ⟨r, hr, hstatusRow⟩ := Option.map_eq_some_iff.mp hact
        refine ⟨hleader, rfl, .inr ⟨v, r, hv, hr, hstatusRow, hnone, ?_⟩, fun hterm => ?_⟩
        · rw [← hrow.starting_of_find hT hv hr]
          exact Store.get_of_entry hnx
        · rw [hstatus]
          rcases hterm with h | h <;> rw [h] <;> decide

/-- SET ACTIVE is harmless exactly when the key says neither CLOSED nor SETTLED. -/
theorem harmlessChange_set_iff {ttl : Int} :
    HarmlessChange req.auctionID w
        (exec E w (.set (statusKey req.auctionID) "ACTIVE" (redisTtl ttl))).1 ↔
      SureWrite req.auctionID w (.set (statusKey req.auctionID) "ACTIVE" (redisTtl ttl)) := by
  have hnow : (exec E w (.set (statusKey req.auctionID) "ACTIVE" (redisTtl ttl))).1.get
      (statusKey req.auctionID) = some "ACTIVE" := Redis.get_set_now _ _ _ _ _
  constructor
  · intro h
    exact ⟨fun hcl => h.status (.inl hcl) hnow, fun hset => h.status (.inr hset) hnow⟩
  · rintro ⟨hcl, hset⟩
    refine ⟨?_, rfl, .inl ?_, fun hterm => ?_⟩
    · exact Redis.entry_set_ne _ _ _ _ _ (leaderKey_ne_statusKey _ _)
    · exact Redis.entry_set_ne _ _ _ _ _ (priceKey_ne_statusKey _ _)
    · rcases hterm with h | h
      · exact absurd h hcl
      · exact absurd h hset

/-- The script is harmless exactly when it refuses. -/
theorem harmlessChange_evalBid_iff {id amount user : String} {m : Message} {ttl : Int} :
    HarmlessChange id w (exec E w (.evalBid id amount user m ttl)).1 ↔
      ¬ Accepts E w (.evalBid id amount user m ttl) := by
  rcases exec_evalBid_cases E w id amount user m ttl with ⟨hsame, -, hno⟩ | ⟨hacc, he⟩
  · rw [hsame]
    refine ⟨fun _ hacc => ?_, fun _ => harmlessChange_same rfl rfl rfl rfl⟩
    obtain ⟨r, hr⟩ := hacc
    exact hno r hr
  · refine ⟨fun h => ?_, fun hno => absurd ⟨_, hacc⟩ hno⟩
    -- an accepting script publishes
    have hpub := h.published
    rw [he] at hpub
    exact absurd hpub (List.cons_ne_self _ _)

/-- **A request of the bid is harmless exactly when** it finds what it must, and is not an
accepting script. -/
theorem harmlessChange_exec_iff (hT : TermsAre T w) (hp : ProcOk T (StartsWith i req i) w p)
    (hwait : Waits p c) : HarmlessChange req.auctionID w (exec E w c).1 ↔
      SureWrite req.auctionID w c ∧ ¬ Accepts E w c := by
  have hbid : ∀ req' pc, p = .bid req' pc → req' = req := by
    intro req' pc hpc
    subst hpc
    have hjob := hp.1 rfl
    cases hjob
    rfl
  have hsettle : ∀ job pc, p ≠ .settle job pc := by
    intro job pc hpc
    subst hpc
    obtain ⟨⟨u, t, hjob, -⟩, -⟩ := hp
    cases hjob rfl
  cases hwait with
  | selecting req' =>
    rw [exec_selectRow_world]
    exact ⟨fun _ => ⟨trivial, id⟩, fun _ => harmlessChange_same rfl rfl rfl rfl⟩
  | initializing req' row =>
    obtain rfl := hbid _ _ rfl
    rw [harmlessChange_setNX_iff hT hp.2.2]
    exact ⟨fun h => ⟨h, id⟩, fun h => h.1⟩
  | arming req' row now =>
    obtain rfl := hbid _ _ rfl
    rw [harmlessChange_set_iff]
    exact ⟨fun h => ⟨h, id⟩, fun h => h.1⟩
  | scripting req' row placed =>
    obtain rfl := hbid _ _ rfl
    unfold evalCmd
    rw [harmlessChange_evalBid_iff]
    exact ⟨fun h => ⟨trivial, h⟩, fun h => h.2⟩
  | reading job => exact absurd rfl (hsettle job _)
  | committing job pr ld => exact absurd rfl (hsettle job _)
  | caching job st ps wid now => exact absurd rfl (hsettle job _)
  | publishing job st ps wid => exact absurd rfl (hsettle job _)
  | deleting job => exact absurd rfl (hsettle job _)

end

/-! ## A script that has taken effect -/

/-- The handler has been accepted: it will be told so, has answered 201, or has stopped. -/
def Won (i : Nat) (req : BidRequest) (s : Sys) : Prop :=
  (s.slot i).wire = none ∧
    ((∃ row placed v, (s.slot i).client = .live (.bid req (.scripting row placed)) ∧
        (s.slot i).inbox = some (.script 1 v)) ∨
      (∃ a, Answered s i req a ∧ a.code = 201) ∨ (s.slot i).client = .dead)

theorem Won.step {E : Engines} {i : Nat} {id : String} {req : BidRequest} {s s' : Sys} {e : Ev}
    (h : Won i req s) (hsure : Sure E i id s e) (hst : sysStep E s e = some s') : Won i req s' := by
  obtain ⟨hwire, hcl⟩ := h
  have hnotIdle : (s.slot i).client ≠ .idle := by
    intro hidle
    rcases hcl with ⟨row, placed, v, hc, -⟩ | ⟨a, ha, -⟩ | hdead
    · rw [hidle] at hc
      cases hc
    · rw [Answered, hidle] at ha
      cases ha
    · rw [hidle] at hdead
      cases hdead
  -- a live process that has not finished waits for the reply of the script
  have hwaits : ∀ p, (s.slot i).client = .live p → p.done = false → ∃ row placed v,
      p = .bid req (.scripting row placed) ∧ (s.slot i).inbox = some (.script 1 v) := by
    intro p hp hd
    rcases hcl with ⟨row, placed, v, hc, hin⟩ | ⟨a, ha, -⟩ | hdead
    · rw [hp] at hc
      cases hc
      exact ⟨row, placed, v, rfl, hin⟩
    · rw [Answered, hp] at ha
      cases ha
      cases hd
    · rw [hp] at hdead
      cases hdead
  rcases Program.step_slot hst i with he | ⟨j, p, c, -, hidle, -, -⟩ | ⟨c, -, hw, -⟩ |
      ⟨p, reply, -, hc, hr, hd, he⟩ | ⟨p, rfl, hc, hd, -⟩ | ⟨c, -, hw, -⟩ | ⟨p, -, -, -, he⟩
  · unfold Won Answered
    rw [he]
    exact ⟨hwire, hcl⟩
  · exact absurd hidle hnotIdle
  · rw [hwire] at hw
    cases hw
  · -- the reply of the script: the handler answers 201
    obtain ⟨row, placed, v, rfl, hin⟩ := hwaits p hc hd
    rw [hr] at hin
    cases hin
    unfold Won Answered
    rw [he]
    exact ⟨by simp [resumeProc, bidResume], .inr (.inl ⟨_, by simp [resumeProc, bidResume]; rfl, rfl⟩)⟩
  · obtain ⟨row, placed, v, -, hin⟩ := hwaits p hc hd
    exact absurd hin (hsure rfl v)
  · rw [hwire] at hw
    cases hw
  · unfold Won
    rw [he]
    exact ⟨hwire, .inr (.inr rfl)⟩

/-- A run that leaves the handler with another answer was not won. -/
theorem not_won_of_answered {E : Engines} {i : Nat} {id : String} {req : BidRequest} {s s' : Sys}
    {es : List Ev} {a : Answer} (hsure : Steps.Along (sysStep E) (Sure E i id) s es)
    (hrun : Steps.run (sysStep E) s es = some s') (ha : Answered s' i req a) (hcode : a.code ≠ 201) :
    ¬ Won i req s := by
  intro hwon
  obtain ⟨-, h⟩ := Steps.run_invariant (fun _ _ _ hI hc hst => hI.step hc hst) hwon hsure hrun
  rcases h with ⟨row, placed, v, hc, -⟩ | ⟨b, hb, hcode'⟩ | hdead
  · rw [Answered, hc] at ha; cases ha
  · rw [Answered, hb] at ha
    cases ha
    exact hcode hcode'
  · rw [Answered, hdead] at ha; cases ha

/-- An accepting script whose handler waits has won. -/
theorem won_of_accepts {E : Engines} {T : Uuid → Option Terms} {i : Nat} {req : BidRequest} {s : Sys}
    {p : Proc} {c : Cmd} (hp : ProcOk T (StartsWith i req i) s.world p) (hwait : Waits p c)
    (hsame : ∀ q, (s.slot i).client = .live q → q.done = false → q = p)
    (hacc : Accepts E s.world c) (hlive : ∃ q, (s.slot i).client = .live q ∧ q.done = false) :
    Won i req ({ s with world := (exec E s.world c).1 }.setSlot i
      { s.slot i with wire := none, inbox := some (exec E s.world c).2 }) := by
  obtain ⟨q, hq, hqd⟩ := hlive
  obtain rfl := hsame q hq hqd
  cases hwait with
  | scripting req' row placed =>
    obtain ⟨hjob, -⟩ := hp
    cases hjob rfl
    obtain ⟨r, hr⟩ := hacc
    rcases exec_evalBid_cases E s.world req.auctionID req.amount req.user
        (.priceUpdate req.auctionID req.amount placed) (ttlSeconds row.end placed) with
      ⟨-, -, hno⟩ | ⟨-, he⟩
    · exact absurd hr (hno r)
    · exact ⟨by simp, .inl ⟨row, placed, req.amount, by simp [hq], by simp [evalCmd, he]⟩⟩
  | _ => exact hacc.elim

/-! ## Whole runs -/

/-- No reply of an accepting script is on its way to client `i`. -/
def NotTold (i : Nat) (s : Sys) : Prop := ∀ v, (s.slot i).inbox ≠ some (.script 1 v)

/-- A run of harmless requests tells client `i` of no acceptance. -/
theorem NotTold.step {E : Engines} {T : Uuid → Option Terms} {i : Nat} {req : BidRequest} {s s' : Sys}
    {e : Ev} (h : NotTold i s) (hsound : SoundBy T (StartsWith i req) s)
    (hharm : Harmless E i req.auctionID s e) (hst : sysStep E s e = some s') : NotTold i s' := by
  have hsame : ∀ r, (s'.slot i).inbox = r → r = none ∨ r = (s.slot i).inbox → NotTold i s' := by
    intro r hr hcases v hv
    rw [hr] at hv
    rcases hcases with rfl | rfl
    · cases hv
    · exact h v hv
  rcases Program.step_slot hst i with he | ⟨_, _, _, -, -, -, he⟩ | ⟨c, rfl, hw, he⟩ |
      ⟨_, _, -, -, -, -, he⟩ | ⟨_, -, -, -, he⟩ | ⟨_, -, -, he⟩ | ⟨_, -, -, -, he⟩
  · exact hsame _ (congrArg Slot.inbox he) (.inr rfl)
  · exact hsame _ (congrArg Slot.inbox he) (.inl rfl)
  · -- the request was harmless, so it was no accepting script
    obtain ⟨p, hp, hwait, -⟩ := (hsound.2 i).wire c hw
    have hchange : HarmlessChange req.auctionID s.world (exec E s.world c).1 :=
      hharm rfl _ (Program.step_exec hw)
    obtain ⟨-, hno⟩ := (harmlessChange_exec_iff hsound.1 hp hwait).mp hchange
    intro v hv
    rw [he] at hv
    obtain ⟨id, amount, user, m, ttl, rfl⟩ := exec_script (Option.some.inj hv)
    rcases exec_evalBid_cases E s.world id amount user m ttl with ⟨-, hne, -⟩ | ⟨hacc, -⟩
    · exact hne v (Option.some.inj hv)
    · exact hno ⟨_, hacc⟩
  · exact hsame _ (congrArg Slot.inbox he) (.inl rfl)
  · exact hsame _ (congrArg Slot.inbox he) (.inl rfl)
  · exact hsame _ (congrArg Slot.inbox he) (.inr rfl)
  · exact hsame _ (congrArg Slot.inbox he) (.inl rfl)

theorem sure_of_harmless {E : Engines} {T : Uuid → Option Terms} {i : Nat} {req : BidRequest} {s : Sys}
    {e : Ev} (hsound : SoundBy T (StartsWith i req) s) (hno : NotTold i s)
    (hharm : Harmless E i req.auctionID s e) : Sure E i req.auctionID s e := by
  cases e with
  | exec j =>
    intro hj c hw
    subst hj
    obtain ⟨p, hp, hwait, -⟩ := (hsound.2 j).wire c hw
    have hchange : HarmlessChange req.auctionID s.world (exec E s.world c).1 :=
      hharm rfl _ (Program.step_exec hw)
    obtain ⟨hwrite, hnacc⟩ := (harmlessChange_exec_iff hsound.1 hp hwait).mp hchange
    exact ⟨hwrite, fun hacc => absurd hacc hnacc⟩
  | fail j => exact fun _ => hno
  | _ => trivial

theorem harmless_of_sure {E : Engines} {T : Uuid → Option Terms} {i : Nat} {req : BidRequest}
    {s s' : Sys} {es : List Ev} {a : Answer} (hsure : Steps.Along (sysStep E)
      (fun t e => Sure E i req.auctionID t e ∧ SoundBy T (StartsWith i req) t) s es)
    (hrun : Steps.run (sysStep E) s es = some s') (ha : Answered s' i req a) (hcode : a.code ≠ 201) :
    Steps.Along (sysStep E) (Harmless E i req.auctionID) s es := by
  refine Steps.along_of_rest (fun s e m es hm hr hfirst hrest => ?_) hrun hsure
  obtain ⟨hs, hsound⟩ := hfirst
  cases e with
  | exec j =>
    intro hj s₁ hs₁
    subst hj
    rw [hm] at hs₁
    cases hs₁
    obtain ⟨c, hw, rfl⟩ := Program.exec_inv hm
    obtain ⟨p, hp, hwait, hsame⟩ := (hsound.2 j).wire c hw
    obtain ⟨hwrite, hlive⟩ := hs rfl c hw
    refine (harmlessChange_exec_iff hsound.1 hp hwait).mpr ⟨hwrite, fun hacc => ?_⟩
    -- an accepting script is answered 201, or not at all
    have hwon := won_of_accepts hp hwait hsame hacc (hlive hacc)
    exact not_won_of_answered (Steps.along_mono (fun _ _ h => h.1) hrest) hr ha hcode hwon
  | _ => trivial

/-- A bid of 12.00, then one of 11.00. -/
def lowerBid : List Ev :=
  .start 0 (.bid (lotBid "12.00" 1)) :: calls 0 4 ++ .start 1 (.bid (lotBid "11.00" 2)) :: calls 1 4

/-- A bid whose script is about to run. -/
def beforeScript : List Ev := .start 0 (.bid (lotBid "10.50" 1)) :: calls 0 3

end Synora
