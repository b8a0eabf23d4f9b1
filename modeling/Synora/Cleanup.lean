import Synora.Sent

/- What a terminal auction leaves in Redis. The settlement cleans up after its
   commit: it writes the final status, then removes price and leader. Until then
   the debt lies with the worker, in its state or in a request on the wire, and
   it is lost when the worker fails or stops, or its request gets lost. A bid
   that read the row earlier may also write the keys again: SETNX the price, SET
   the status, run the script. `Tidy` says that neither happens. -/
namespace Synora

open Expiring Calls

/-- No price and no leader. -/
def LeadGone (u : Uuid) (w : World) : Prop :=
  w.get (priceKey u.text) = none ∧ w.get (leaderKey u.text) = none

/-- The status key does not say ACTIVE. -/
def Disarmed (u : Uuid) (w : World) : Prop := w.get (statusKey u.text) ≠ some "ACTIVE"

instance (u : Uuid) (w : World) : Decidable (LeadGone u w) := inferInstanceAs (Decidable (_ ∧ _))
instance (u : Uuid) (w : World) : Decidable (Disarmed u w) := inferInstanceAs (Decidable (¬ _))

/-! ## Who still has to clean up -/

/-- The worker is about to be told that it has committed. -/
def Committed (sl : Slot Proc Cmd Reply) : Prop := ∃ job p l st ps wid,
  sl.client = .live (.settle job (.committing p l)) ∧ sl.inbox = some (.tx (.committed st ps wid))

/-- The worker has committed and has not sent its DEL yet. -/
def Undeleted (sl : Slot Proc Cmd Reply) : Prop :=
  Committed sl ∨ (∃ job st ps wid, sl.client = .live (.settle job (.caching st ps wid))) ∨
    ∃ job, sl.client = .live (.settle job .publishing)

/-- A DEL is on the wire, or the worker will send one. -/
def MustDelete (sl : Slot Proc Cmd Reply) : Prop :=
  Undeleted sl ∨ ∃ k k', sl.wire = some (.del k k')

/-- A SET of a final status is on the wire, or the worker will send one. -/
def MustSet (sl : Slot Proc Cmd Reply) : Prop :=
  Committed sl ∨ ∃ k v ttl, sl.wire = some (.set k v ttl) ∧ v ≠ "ACTIVE"

/-- What a request must find when it executes. A bid writes to a terminal auction only while
somebody will still remove what it writes; the transaction commits for a worker that waits. -/
def TidyExec (u : Uuid) (s : Sys) (client : Client Proc) : Cmd → Prop
  | .setNX .. => s.world.terminal u →
    (s.world.get (priceKey u.text)).isSome = true ∨ ∃ j, MustDelete (s.slot j)
  | .set _ v _ => v = "ACTIVE" → s.world.terminal u → ∃ j, MustSet (s.slot j)
  | .evalBid .. => s.world.get (statusKey u.text) = some "ACTIVE" → s.world.terminal u →
    ∃ j, MustDelete (s.slot j)
  | .settleTx .. => s.world.rowStatus u = some .ACTIVE →
    (∃ job p l, client = .live (.settle job (.committing p l))) ∨
      LeadGone u s.world ∧ Disarmed u s.world
  | _ => True

/-- What a request on the wire must find when it is lost. -/
def TidyDrop (u : Uuid) (w : World) : Cmd → Prop
  | .del _ _ => w.terminal u → LeadGone u w
  | .set _ v _ => v ≠ "ACTIVE" → w.terminal u → Disarmed u w
  | _ => True

/-- Nobody who has to clean up gives up on it, and nobody writes after the clean-up. -/
def Tidy (u : Uuid) (s : Sys) : Ev → Prop
  | .exec i => ∀ c, (s.slot i).wire = some c → TidyExec u s (s.slot i).client c
  | .drop i => ∀ c, (s.slot i).wire = some c → TidyDrop u s.world c
  | .fail i | .crash i => s.world.terminal u →
    (Undeleted (s.slot i) → LeadGone u s.world) ∧ (Committed (s.slot i) → Disarmed u s.world)
  | _ => True

/-! ## The debts -/

/-- A terminal auction has no lead, unless somebody still has to delete it. -/
abbrev DeleteOwed (u : Uuid) : Sys → Prop := Owed (fun w => w.terminal u → LeadGone u w) MustDelete

/-- The status of a terminal auction is not ACTIVE, unless somebody still has to set it. -/
abbrev SetOwed (u : Uuid) : Sys → Prop := Owed (fun w => w.terminal u → Disarmed u w) MustSet

theorem leadGone_tick {u : Uuid} {w : World} {d : Nat} (h : LeadGone u w) : LeadGone u (w.tick d) :=
  ⟨Store.get_none_later (redisNow_tick w d) h.1, Store.get_none_later (redisNow_tick w d) h.2⟩

theorem disarmed_tick {u : Uuid} {w : World} {d : Nat} (h : Disarmed u w) : Disarmed u (w.tick d) :=
  fun hget => h (get_of_tick hget)

theorem leadGone_congr {u : Uuid} {w w' : World} (h : LeadGone u w)
    (hp : w'.entry (priceKey u.text) = w.entry (priceKey u.text))
    (hl : w'.entry (leaderKey u.text) = w.entry (leaderKey u.text)) : LeadGone u w' :=
  ⟨(get_congr hp).trans h.1, (get_congr hl).trans h.2⟩

/-- A worker that has committed and not deleted yet is still running. -/
theorem Undeleted.live {sl : Slot Proc Cmd Reply} (h : Undeleted sl) :
    ∃ p, sl.client = .live p ∧ p.done = false := by
  obtain ⟨job, p, l, st, ps, wid, hc, -⟩ | ⟨job, st, ps, wid, hc⟩ | ⟨job, hc⟩ := h
  · exact ⟨_, hc, rfl⟩
  · exact ⟨_, hc, rfl⟩
  · exact ⟨_, hc, rfl⟩

/-- A slot without a running worker and without a request on the wire owes nothing. -/
theorem not_mustDelete {sl : Slot Proc Cmd Reply} (hrun : ∀ p, sl.client = .live p → p.done = true)
    (hw : sl.wire = none) : ¬ MustDelete sl := by
  rintro (hun | ⟨k, k', hdel⟩)
  · obtain ⟨p, hc, hd⟩ := hun.live
    rw [hrun p hc] at hd
    cases hd
  · rw [hw] at hdel
    cases hdel

theorem not_mustSet {sl : Slot Proc Cmd Reply} (hrun : ∀ p, sl.client = .live p → p.done = true)
    (hw : sl.wire = none) : ¬ MustSet sl := by
  rintro (hcom | ⟨k, v, ttl, hset, -⟩)
  · exact not_mustDelete hrun hw (.inl (.inl hcom))
  · rw [hw] at hset
    cases hset

theorem idle_not_running {sl : Slot Proc Cmd Reply} (hi : sl.client = .idle) :
    ∀ p, sl.client = .live p → p.done = true := by
  intro p hc
  rw [hi] at hc
  cases hc

/-- With a request on the wire there is no reply to be told of. -/
theorem not_committed_of_wire {sl : Slot Proc Cmd Reply} (hs : sl.Single) {c : Cmd}
    (hw : sl.wire = some c) : ¬ Committed sl := by
  rintro ⟨job, p, l, st, ps, wid, -, hin⟩
  rw [hs.inbox_none hw] at hin
  cases hin

/-- A debt to delete, seen from a request of the same slot that executes or is lost. -/
theorem MustDelete.of_wire {sl t : Slot Proc Cmd Reply} (hs : sl.Single) {c : Cmd}
    (hw : sl.wire = some c) (hcl : t.client = sl.client) (h : MustDelete sl) :
    MustDelete t ∨ ∃ k k', c = .del k k' := by
  rcases h with (hcom | ⟨job, st, ps, wid, hc⟩ | ⟨job, hc⟩) | ⟨k, k', hd⟩
  · exact absurd hcom (not_committed_of_wire hs hw)
  · exact .inl (.inl (.inr (.inl ⟨job, st, ps, wid, hcl.trans hc⟩)))
  · exact .inl (.inl (.inr (.inr ⟨job, hcl.trans hc⟩)))
  · rw [hw] at hd
    cases hd
    exact .inr ⟨k, k', rfl⟩

/-- A request other than DEL leaves the debt of its slot where it is. -/
theorem MustDelete.kept {sl t : Slot Proc Cmd Reply} (hs : sl.Single) {c : Cmd}
    (hw : sl.wire = some c) (hc : ∀ k k', c ≠ .del k k') (hcl : t.client = sl.client)
    (h : MustDelete sl) : MustDelete t := by
  rcases h.of_wire hs hw hcl with hm | ⟨k, k', hdel⟩
  · exact hm
  · exact absurd hdel (hc k k')

theorem MustSet.of_wire {sl : Slot Proc Cmd Reply} (hs : sl.Single) {c : Cmd} (hw : sl.wire = some c)
    (h : MustSet sl) : ∃ k v ttl, c = .set k v ttl ∧ v ≠ "ACTIVE" := by
  rcases h with hcom | ⟨k, v, ttl, hd, hv⟩
  · exact absurd hcom (not_committed_of_wire hs hw)
  · rw [hw] at hd
    cases hd
    exact ⟨k, v, ttl, rfl, hv⟩

/-- A reply turns a debt to delete into the next one. -/
theorem MustDelete.recv {T : Uuid → Option Terms} {w : World} {now : Int} {sl : Slot Proc Cmd Reply}
    {p : Proc} {r : Reply} (hs : sl.Single) (hc : sl.client = .live p) (hr : sl.inbox = some r)
    (hok : ReplyOk T w p r) (h : MustDelete sl) :
    MustDelete { client := .live (resumeProc now p r).1, wire := (resumeProc now p r).2 } := by
  rcases h with (⟨job, pr, ld, st, ps, wid, hcl, hin⟩ | ⟨job, st, ps, wid, hcl⟩ | ⟨job, hcl⟩) |
      ⟨k, k', hw⟩
  · rw [hc] at hcl
    rw [hr] at hin
    cases hcl
    cases hin
    exact .inl (.inr (.inl ⟨job, st, ps, wid, rfl⟩))
  · rw [hc] at hcl
    cases hcl
    obtain rfl : r = .ok := hok
    exact .inl (.inr (.inr ⟨job, rfl⟩))
  · rw [hc] at hcl
    cases hcl
    obtain rfl : r = .ok := hok
    exact .inr ⟨_, _, rfl⟩
  · rw [hs.inbox_none hw] at hr
    cases hr

theorem label_ne_active {st : AuctionStatus} (h : st.final) : st.label ≠ "ACTIVE" := by
  rcases h with rfl | rfl <;> decide

theorem MustSet.recv {T : Uuid → Option Terms} {w : World} {now : Int} {sl : Slot Proc Cmd Reply}
    {p : Proc} {r : Reply} (hs : sl.Single) (hc : sl.client = .live p) (hr : sl.inbox = some r)
    (hok : ReplyOk T w p r) (h : MustSet sl) :
    MustSet { client := .live (resumeProc now p r).1, wire := (resumeProc now p r).2 } := by
  rcases h with ⟨job, pr, ld, st, ps, wid, hcl, hin⟩ | ⟨k, v, ttl, hw, -⟩
  · rw [hc] at hcl
    rw [hr] at hin
    cases hcl
    cases hin
    exact .inr ⟨_, _, _, rfl, label_ne_active hok⟩
  · rw [hs.inbox_none hw] at hr
    cases hr

/-! ## One request -/

section
variable {E : Engines} {T : Uuid → Option Terms} {A : Job → Prop} {u : Uuid} {s : Sys} {i : Nat}
  {p : Proc} {c : Cmd}

/-- Somebody's debt to delete is still there after another request of slot `i`, or is its own. -/
theorem mustDelete_after (hs : (s.slot i).Single) (hw : (s.slot i).wire = some c)
    (hc : ∀ k k', c ≠ .del k k') {r : Reply} (h : ∃ j, MustDelete (s.slot j)) :
    MustDelete { s.slot i with wire := none, inbox := some r } ∨
      ∃ j, j ≠ i ∧ MustDelete (s.slot j) := by
  obtain ⟨j, hj⟩ := h
  by_cases hji : j = i
  · subst hji
    exact .inl (hj.kept hs hw hc rfl)
  · exact .inr ⟨j, hji, hj⟩

/-- **A request keeps the debt to delete.** -/
theorem deleteOwed_exec (hA : ∀ j, A j → j.auctionId = u.text) (hs : (s.slot i).Single)
    (hw : (s.slot i).wire = some c) (hp : ProcOk T A s.world p) (hwait : Waits p c)
    (hsame : ∀ q, (s.slot i).client = .live q → q.done = false → q = p)
    (h : DeleteOwed u s) (ht : TidyExec u s (s.slot i).client c) :
    DeleteOwed u ({ s with world := (exec E s.world c).1 }.setSlot i
      { s.slot i with wire := none, inbox := some (exec E s.world c).2 }) := by
  have hslot : (∀ k k', c ≠ .del k k') → MustDelete (s.slot i) →
      MustDelete { s.slot i with wire := none, inbox := some (exec E s.world c).2 } :=
    fun hc hm => hm.kept hs hw hc rfl
  cases hwait with
  | selecting req =>
    rw [exec_selectRow_world]
    exact h.setSlot .inl fun hm => .inr (hslot (by simp) hm)
  | initializing req row =>
    rw [hp.bid_id hA] at *
    refine h.setSlot (fun hK => ?_) fun hm => .inr (hslot (by simp) hm)
    by_cases hterm : s.world.terminal u
    · rcases ht hterm with hprice | hother
      · rw [(hK hterm).1] at hprice
        cases hprice
      · exact .inr (mustDelete_after hs hw (by simp) hother)
    · exact .inl fun hterm' => absurd hterm' hterm
  | arming req row now =>
    refine h.setSlot (fun hK => .inl fun hterm => leadGone_congr (hK hterm) ?_ ?_)
      fun hm => .inr (hslot (by simp) hm)
    · exact Redis.entry_set_ne _ _ _ _ _ (priceKey_ne_statusKey _ _)
    · exact Redis.entry_set_ne _ _ _ _ _ (leaderKey_ne_statusKey _ _)
  | scripting req row placed =>
    unfold evalCmd at *
    rw [hp.bid_id hA] at *
    refine h.setSlot (fun hK => ?_) fun hm => .inr (hslot (by simp) hm)
    rcases exec_evalBid_cases E s.world u.text req.amount req.user
        (.priceUpdate u.text req.amount placed) (ttlSeconds row.end placed) with
      ⟨hsame', -⟩ | ⟨hacc, he⟩
    · rw [hsame']
      exact .inl hK
    · by_cases hterm : s.world.terminal u
      · exact .inr (mustDelete_after hs hw (by simp) (ht (bidScript_accepted hacc).1 hterm))
      · refine .inl fun hterm' => absurd ?_ hterm
        rw [he] at hterm'
        exact hterm'
  | reading job => exact h.setSlot .inl fun hm => .inr (hslot (by simp) hm)
  | committing job price leader =>
    refine h.setSlot (fun hK => ?_) fun hm => .inr (hslot (by simp) hm)
    rw [hp.settle_id hA] at *
    rcases exec_settleTx_cases E s.world u price leader with hsame' | ⟨hact, st, ps, wid, ho⟩
    · rw [hsame']
      exact .inl hK
    · rcases ht hact with ⟨job', p', l', hcl⟩ | ⟨hgone, -⟩
      · -- the worker waits: it will be told that it has committed
        cases hsame _ hcl rfl
        exact .inr (.inl (.inl (.inl ⟨job, price, leader, st, ps, wid, hcl, congrArg some ho⟩)))
      · exact .inl fun _ => hgone
  | caching job st ps wid now =>
    refine h.setSlot (fun hK => .inl fun hterm => leadGone_congr (hK hterm) ?_ ?_)
      fun hm => .inr (hslot (by simp) hm)
    · exact Redis.entry_set_ne _ _ _ _ _ (priceKey_ne_statusKey _ _)
    · exact Redis.entry_set_ne _ _ _ _ _ (leaderKey_ne_statusKey _ _)
  | publishing job st ps wid => exact h.setSlot .inl fun hm => .inr (hslot (by simp) hm)
  | deleting job =>
    rw [hp.settle_id hA]
    have hgone : LeadGone u (exec E s.world (.del (priceKey u.text) (leaderKey u.text))).1 := by
      refine ⟨?_, Store.get_del_self _ _ _⟩
      exact (Store.get_del_ne _ _ (priceKey_ne_leaderKey _ _)).trans (Store.get_del_self _ _ _)
    exact h.setSlot (fun _ => .inl fun _ => hgone) fun _ => .inl fun _ => hgone

/-- **A request keeps the debt to set.** -/
theorem setOwed_exec (hA : ∀ j, A j → j.auctionId = u.text) (hs : (s.slot i).Single)
    (hw : (s.slot i).wire = some c) (hp : ProcOk T A s.world p) (hwait : Waits p c)
    (hsame : ∀ q, (s.slot i).client = .live q → q.done = false → q = p)
    (h : SetOwed u s) (ht : TidyExec u s (s.slot i).client c) :
    SetOwed u ({ s with world := (exec E s.world c).1 }.setSlot i
      { s.slot i with wire := none, inbox := some (exec E s.world c).2 }) := by
  have hslot : (∀ k v ttl, c = .set k v ttl → v = "ACTIVE") → ¬ MustSet (s.slot i) := by
    intro hc hm
    obtain ⟨k, v, ttl, hset, hv⟩ := hm.of_wire hs hw
    exact hv (hc k v ttl hset)
  -- a request that leaves the row and the status key alone
  have hkeep : (∀ k v ttl, c = .set k v ttl → v = "ACTIVE") →
      (exec E s.world c).1.rowStatus u = s.world.rowStatus u →
      (exec E s.world c).1.get (statusKey u.text) = s.world.get (statusKey u.text) →
      SetOwed u ({ s with world := (exec E s.world c).1 }.setSlot i
        { s.slot i with wire := none, inbox := some (exec E s.world c).2 }) := by
    intro hc hrow hget
    refine h.setSlot (fun hK => .inl fun hterm => ?_) fun hm => absurd hm (hslot hc)
    unfold World.terminal at hterm
    rw [hrow] at hterm
    unfold Disarmed
    rw [hget]
    exact hK hterm
  cases hwait with
  | selecting req => exact hkeep (by simp) (by rw [exec_selectRow_world]) (by rw [exec_selectRow_world])
  | initializing req row =>
    exact hkeep (by simp) rfl (get_congr (Store.entry_putNX_ne _ _ _ _ (statusKey_ne_priceKey _ _)))
  | arming req row now =>
    refine h.setSlot (fun hK => ?_) fun hm => absurd hm (hslot (by simp))
    by_cases hterm : s.world.terminal u
    · obtain ⟨j, hj⟩ := ht rfl hterm
      refine .inr (.inr ⟨j, fun hji => ?_, hj⟩)
      subst hji
      exact hslot (by simp) hj
    · exact .inl fun hterm' => absurd hterm' hterm
  | scripting req row placed =>
    unfold evalCmd at *
    rcases exec_evalBid_cases E s.world req.auctionID req.amount req.user
        (.priceUpdate req.auctionID req.amount placed) (ttlSeconds row.end placed) with
      ⟨hsame', -⟩ | ⟨hacc, he⟩
    · exact hkeep (by simp) (by rw [hsame']) (by rw [hsame'])
    · refine hkeep (by simp) (by rw [he]; rfl) ?_
      rw [he]
      exact get_congr (entry_lead_ne (statusKey_ne_priceKey _ _) (statusKey_ne_leaderKey _ _))
  | reading job => exact hkeep (by simp) rfl rfl
  | committing job price leader =>
    refine h.setSlot (fun hK => ?_) fun hm => absurd hm (hslot (by simp))
    rw [hp.settle_id hA] at *
    rcases exec_settleTx_cases E s.world u price leader with hsame' | ⟨hact, st, ps, wid, ho⟩
    · rw [hsame']
      exact .inl hK
    · rcases ht hact with ⟨job', p', l', hcl⟩ | ⟨-, hdis⟩
      · cases hsame _ hcl rfl
        exact .inr (.inl (.inl ⟨job, price, leader, st, ps, wid, hcl, congrArg some ho⟩))
      · exact .inl fun _ => hdis
  | caching job st ps wid now =>
    have hlabel := label_ne_active (hp.2 st ps wid rfl)
    have hdis : Disarmed u (exec E s.world
        (.set (statusKey job.id) st.label (redisTtl (settleTtl job.end now)))).1 := by
      intro hget
      rw [hp.settle_id hA] at hget
      exact hlabel (Redis.get_set_self hget).symm
    exact h.setSlot (fun _ => .inl fun _ => hdis) fun _ => .inl fun _ => hdis
  | publishing job st ps wid => exact hkeep (by simp) rfl rfl
  | deleting job =>
    refine hkeep (by simp) rfl ?_
    exact (Store.get_del_ne _ _ (statusKey_ne_leaderKey _ _)).trans
      (Store.get_del_ne _ _ (statusKey_ne_priceKey _ _))

end

/-! ## One step -/

/-- The two debts, with what holds of every slot. -/
structure Indebted (u : Uuid) (s : Sys) : Prop where
  single : ∀ i, (s.slot i).Single
  delete : DeleteOwed u s
  set : SetOwed u s

section
variable {E : Engines} {T : Uuid → Option Terms} {A : Job → Prop} {u : Uuid} {s s' : Sys} {e : Ev}

/-- A worker that stops, whether it fails or crashes, leaves its request on the wire. -/
theorem DeleteOwed.stop {i : Nat} {cl : Client Proc} (h : DeleteOwed u s)
    (ht : s.world.terminal u → Undeleted (s.slot i) → LeadGone u s.world) :
    DeleteOwed u (s.setSlot i { client := cl, wire := (s.slot i).wire }) := by
  refine h.setSlot_same fun hm => ?_
  rcases hm with hun | hw
  · exact .inl fun hterm => ht hterm hun
  · exact .inr (.inr hw)

theorem SetOwed.stop {i : Nat} {cl : Client Proc} (h : SetOwed u s)
    (ht : s.world.terminal u → Committed (s.slot i) → Disarmed u s.world) :
    SetOwed u (s.setSlot i { client := cl, wire := (s.slot i).wire }) := by
  refine h.setSlot_same fun hm => ?_
  rcases hm with hcom | hw
  · exact .inl fun hterm => ht hterm hcom
  · exact .inr (.inr hw)

/-- **One step keeps the debt to delete.** -/
theorem deleteOwed_step (hA : ∀ j, A j → j.auctionId = u.text) (h : Indebted u s)
    (hsound : Sound T A s) (ht : Tidy u s e) (hst : sysStep E s e = some s') : DeleteOwed u s' := by
  rcases Program.step_cases hst with ⟨d, rfl, rfl⟩ | ⟨i, j, p, c, rfl, hidle, -, rfl⟩ |
    ⟨i, c, rfl, hw, rfl⟩ | ⟨i, p, r, rfl, hc, hr, hd, rfl⟩ | ⟨i, p, rfl, hc, hd, rfl⟩ |
    ⟨i, c, rfl, hw, rfl⟩ | ⟨i, p, rfl, hc, hd, rfl⟩
  · exact h.delete.imp (fun hK hterm => leadGone_tick (hK hterm)) id
  · refine h.delete.setSlot_same fun hm => absurd hm ?_
    exact not_mustDelete (idle_not_running hidle) ((h.single i).idle hidle).1
  · obtain ⟨p, hp, hwait, hsame⟩ := (hsound.2 i).wire c hw
    exact deleteOwed_exec hA (h.single i) hw hp hwait hsame h.delete (ht c hw)
  · refine h.delete.setSlot_same fun hm => .inr ?_
    exact hm.recv (h.single i) hc hr ((hsound.2 i).inbox p r hc hd hr)
  · exact h.delete.stop fun hterm => (ht hterm).1
  · -- the debt is lost with the request only if that was the DEL
    refine h.delete.setSlot_same fun hm => ?_
    rcases hm.of_wire (t := { s.slot i with wire := none }) (h.single i) hw rfl with
      hm | ⟨k, k', rfl⟩
    · exact .inr hm
    · exact .inl (ht _ hw)
  · exact h.delete.stop fun hterm => (ht hterm).1

/-- **One step keeps the debt to set.** -/
theorem setOwed_step (hA : ∀ j, A j → j.auctionId = u.text) (h : Indebted u s)
    (hsound : Sound T A s) (ht : Tidy u s e) (hst : sysStep E s e = some s') : SetOwed u s' := by
  rcases Program.step_cases hst with ⟨d, rfl, rfl⟩ | ⟨i, j, p, c, rfl, hidle, -, rfl⟩ |
    ⟨i, c, rfl, hw, rfl⟩ | ⟨i, p, r, rfl, hc, hr, hd, rfl⟩ | ⟨i, p, rfl, hc, hd, rfl⟩ |
    ⟨i, c, rfl, hw, rfl⟩ | ⟨i, p, rfl, hc, hd, rfl⟩
  · exact h.set.imp (fun hK hterm => disarmed_tick (hK hterm)) id
  · refine h.set.setSlot_same fun hm => absurd hm ?_
    exact not_mustSet (idle_not_running hidle) ((h.single i).idle hidle).1
  · obtain ⟨p, hp, hwait, hsame⟩ := (hsound.2 i).wire c hw
    exact setOwed_exec hA (h.single i) hw hp hwait hsame h.set (ht c hw)
  · refine h.set.setSlot_same fun hm => .inr ?_
    exact hm.recv (h.single i) hc hr ((hsound.2 i).inbox p r hc hd hr)
  · exact h.set.stop fun hterm => (ht hterm).2
  · -- with a request on the wire, the debt is that very request
    refine h.set.setSlot_same fun hm => ?_
    obtain ⟨k, v, ttl, rfl, hv⟩ := hm.of_wire (h.single i) hw
    exact .inl (ht _ hw hv)
  · exact h.set.stop fun hterm => (ht hterm).2

/-- **One step keeps the debts.** -/
theorem Indebted.step (hA : ∀ j, A j → j.auctionId = u.text) (h : Indebted u s)
    (hsound : Sound T A s) (ht : Tidy u s e) (hst : sysStep E s e = some s') : Indebted u s' where
  single := single_step h.single hst
  delete := deleteOwed_step hA h hsound ht hst
  set := setOwed_step hA h hsound ht hst

end

/-! ## Whole runs -/

theorem indebted_begins {s : Sys} {u : Uuid} {a : Auction} (hb : Begins s u a) : Indebted u s := by
  have hactive : ¬ s.world.terminal u := by
    intro hterm
    simp [World.terminal, World.rowStatus, hb.row, hb.active] at hterm
  refine ⟨fun i => ?_, .inl fun hterm => absurd hterm hactive, .inl fun hterm => absurd hterm hactive⟩
  rw [hb.fresh]
  exact ⟨.inl rfl, fun _ => ⟨rfl, rfl⟩⟩

/-- The auction is terminal, no process is in flight and a further scan would not pick it. -/
structure AtRest (E : Engines) (u : Uuid) (s : Sys) : Prop where
  terminal : s.world.terminal u
  quiet : ∀ i, (program E).Quiet s i
  unpicked : scanPicks s.world u = none

/-- **A terminal auction leaves no live hot state behind**, in every run in which the clean-up
is not given up and nobody writes after it. -/
theorem terminal_leaves_nothing {E : Engines} {s s' : Sys} {u : Uuid} {a : Auction} (hb : Begins s u a)
    (hr : Steps.Reach (sysStep E) (fun t e => OneAuction u.text e ∧ Tidy u t e) s s')
    (hrest : AtRest E u s') : LeadGone u s'.world ∧ Disarmed u s'.world := by
  have h : Indebted u s' := by
    refine Steps.reach_invariant (fun t e t' hI hc hst => ?_) (indebted_begins hb)
      (sound_along hb.fresh (fun _ _ hc => hc.1) hr).2
    exact hI.step (fun _ hj => hj) hc.2 hc.1.2 hst
  constructor
  · rcases h.delete with hK | ⟨j, hj⟩
    · exact hK hrest.terminal
    · exact absurd hj (not_mustDelete (hrest.quiet j).2 (hrest.quiet j).1)
  · rcases h.set with hK | ⟨j, hj⟩
    · exact hK hrest.terminal
    · exact absurd hj (not_mustSet (hrest.quiet j).2 (hrest.quiet j).1)

/-! ## A run that is tidy, and one that is not -/

/-- Whether a worker waits for its transaction. -/
def waitsForTx : Client Proc → Bool
  | .live (.settle _ (.committing _ _)) => true
  | _ => false

/-- Whether a command is one of the writes of a bid. -/
def Cmd.bidWrites : Cmd → Bool
  | .setNX .. | .evalBid .. => true
  | .set _ v _ => v = "ACTIVE"
  | _ => false

/-- The plain way to be tidy: bids write while the row is ACTIVE, a transaction commits for a
worker that waits, and nothing fails. -/
def Plain (u : Uuid) (s : Sys) : Ev → Prop
  | .exec i => ∀ c ∈ (s.slot i).wire, (c.bidWrites = true → ¬ s.world.terminal u) ∧
    (c.isTx = true → waitsForTx (s.slot i).client = true)
  | .fail _ | .drop _ | .crash _ => False
  | _ => True

instance (u : Uuid) (s : Sys) : DecidablePred (Plain u s)
  | .exec i => inferInstanceAs (Decidable (∀ c ∈ (s.slot i).wire, _ ∧ _))
  | .fail _ | .drop _ | .crash _ => .isFalse id
  | .tick _ | .start _ _ | .recv _ => .isTrue trivial

theorem Plain.tidy {u : Uuid} {s : Sys} {e : Ev} (h : Plain u s e) : Tidy u s e := by
  cases e with
  | exec i =>
    intro c hc
    obtain ⟨hbid, htx⟩ := h c hc
    cases c with
    | setNX k v => exact fun hterm => absurd hterm (hbid rfl)
    | set k v ttl => exact fun hv hterm => absurd hterm (hbid (decide_eq_true hv))
    | evalBid id amount user m ttl => exact fun _ hterm => absurd hterm (hbid rfl)
    | settleTx id p l =>
      intro _
      have := htx rfl
      unfold waitsForTx at this
      split at this
      · rename_i job p' l' hcl
        exact .inl ⟨job, p', l', hcl⟩
      · cases this
    | _ => trivial
  | fail i => exact h.elim
  | drop i => exact h.elim
  | crash i => exact h.elim
  | _ => trivial

theorem terminal_leaves_nothing_lot : ∃ s',
    Steps.run (sysStep decimalEngines) lotAtTen (bidThenSettle 5) = some s' ∧
    AtRest decimalEngines (.ofDigit 0) s' ∧ LeadGone (.ofDigit 0) s'.world ∧
    Disarmed (.ofDigit 0) s'.world := by
  obtain ⟨s', hrun, hcheck⟩ := Steps.exists_of_check (sysStep decimalEngines) lotAtTen (bidThenSettle 5)
    (fun s => decide (s.world.terminal (.ofDigit 0)) && decide (scanPicks s.world (.ofDigit 0) = none) &&
      (List.range 2).all (fun i => (program decimalEngines).quietSlot (s.slot i))) (by decide +kernel)
  simp only [Bool.and_eq_true, decide_eq_true_eq] at hcheck
  have hrest : AtRest decimalEngines (.ofDigit 0) s' :=
    ⟨hcheck.1.1, quiet_of_check 2 hrun (by decide) hcheck.2, hcheck.1.2⟩
  have halong := Steps.along_of_check (sysStep decimalEngines)
    (fun t e => OneAuction (Uuid.ofDigit 0).text e ∧ Plain (.ofDigit 0) t e) lotAtTen (bidThenSettle 5)
    (by decide +kernel)
  have htidy := Steps.along_mono (fun _ _ h => And.imp_right Plain.tidy h) halong
  exact ⟨s', hrun, hrest, terminal_leaves_nothing (opening_begins ten (by decide))
    ⟨bidThenSettle 5, htidy, hrun⟩ hrest⟩

/-- A bid reads the row in time and goes on after the auction has ended and been closed: the
price comes back without expiry, and so does the ACTIVE status, its expiry being negative. -/
def lateBid : List Ev :=
  .start 0 (.bid (lotBid "10.50" 1)) :: calls 0 1 ++
    .tick 2000000000 :: .start 1 (.settle (.ofDigit 0)) :: calls 1 5 ++ calls 0 2

/-- Without the condition the law fails, and no call has to fail for it. -/
theorem terminal_leaves_nothing_fails :
    ¬ ∀ (E : Engines) (s s' : Sys) (u : Uuid) (a : Auction), Begins s u a →
      Steps.Reach (sysStep E) (fun _ e => OneAuction u.text e) s s' → AtRest E u s' →
      LeadGone u s'.world ∧ Disarmed u s'.world := by
  intro h
  obtain ⟨s', hrun, hcheck⟩ := Steps.exists_of_check (sysStep decimalEngines) lotAtTen lateBid
    (fun s => decide (s.world.terminal (.ofDigit 0)) && decide (scanPicks s.world (.ofDigit 0) = none) &&
      (List.range 2).all (fun i => (program decimalEngines).quietSlot (s.slot i)) &&
      decide (s.world.get (statusKey (Uuid.ofDigit 0).text) = some "ACTIVE")) (by decide +kernel)
  simp only [Bool.and_eq_true, decide_eq_true_eq] at hcheck
  have hrest : AtRest decimalEngines (.ofDigit 0) s' :=
    ⟨hcheck.1.1.1, quiet_of_check 2 hrun (by decide) hcheck.1.2, hcheck.1.1.2⟩
  have halong := Steps.along_of_check (sysStep decimalEngines)
    (fun _ e => OneAuction (Uuid.ofDigit 0).text e) lotAtTen lateBid (by decide +kernel)
  have := h decimalEngines lotAtTen s' (.ofDigit 0) _ (opening_begins ten (by decide))
    ⟨lateBid, halong, hrun⟩ hrest
  exact this.2 hcheck.2

end Synora
