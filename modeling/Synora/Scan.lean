import Synora.Independence
import Synora.Lib.Batch

/- `Worker.Run` and `Worker.scan` (worker.go): any number of workers, each of which
   settles the rows of a scan one after another and then waits for the next tick, over
   the same servers as the bid handlers. A row is settled with what the scan found of
   it, at a time when it may no longer be so. System has every row settled by a client
   of its own, started when the scan finds it; `workers_are_clients` is why that is
   enough: what holds of System's runs holds of the loop.

   Correspondence (Go ↔ Lean):
     `select id, end_time … order by end_time`           ↔ `IsScan`, `WorkerEvent.scan`
     `rows.Next()`, `rows.Scan(…)` and the call of `settle` ↔ `.next`
     a row that is not read: an error of `rows.Scan`, the end of a broken stream ↔ `.skip`
     `<-ctx.Done()`                                      ↔ `.stop`
     what goes on within `settle`                        ↔ `.serve` -/
namespace Synora

open Calls

abbrev Workers : Type := Batched World Job Proc Cmd Reply

/-- The rows the query is about. -/
def dueRows (w : World) : List Auction :=
  w.db.auctions.filter fun a => decide (a.status = .ACTIVE ∧ a.endTime ≤ w.pgNow)

/-- A result of the query: these rows by their end, those that end together in any order. -/
def IsScan (w : World) (rows : List Auction) : Prop :=
  rows.Perm (dueRows w) ∧ rows.Pairwise fun a b => a.endTime ≤ b.endTime

instance (w : World) (rows : List Auction) : Decidable (IsScan w rows) := inferInstanceAs (Decidable (_ ∧ _))

inductive WorkerEvent where
  | serve (e : Ev)
  | scan (k : Nat) (rows : List Auction)
  | next (k : Nat)
  | skip (k : Nat)
  | stop (k : Nat)

/-- The event of a worker with batches. -/
def WorkerEvent.batch : WorkerEvent → BatchEvent Job
  | .serve e => .serve e
  | .scan k rows => .take k (rows.map fun a => .settle a.id)
  | .next k => .next k
  | .skip k => .skip k
  | .stop k => .stop k

/-- Clients that start on their own are bid handlers, and a scan returns what the query finds. -/
def WorkerEvent.Fits (w : World) : WorkerEvent → Prop
  | .serve (.start _ (.settle _)) => False
  | .scan _ rows => IsScan w rows
  | _ => True

instance (w : World) : DecidablePred (WorkerEvent.Fits w)
  | .serve (.start _ (.settle _)) => .isFalse id
  | .scan _ rows => inferInstanceAs (Decidable (IsScan w rows))
  | .serve (.start _ (.bid _)) | .serve (.tick _) | .serve (.exec _) | .serve (.recv _) | .serve (.fail _)
  | .serve (.drop _) | .serve (.crash _) | .next _ | .skip _ | .stop _ => .isTrue trivial

def workerStep (E : Engines) (s : Workers) (x : WorkerEvent) : Option Workers :=
  if x.Fits s.calls.world then (program E).batchStep s x.batch else none

theorem workerStep_batch {E : Engines} {s s' : Workers} {x : WorkerEvent} (h : workerStep E s x = some s') :
    x.Fits s.calls.world ∧ (program E).batchStep s x.batch = some s' := by
  unfold workerStep at h
  split at h
  · rename_i hfits
    exact ⟨hfits, h⟩
  · cases h

theorem run_workers_batch {E : Engines} {s s' : Workers} {xs : List WorkerEvent}
    (h : Steps.run (workerStep E) s xs = some s') :
    Steps.run (program E).batchStep s (xs.map WorkerEvent.batch) = some s' := by
  induction xs generalizing s with
  | nil => exact h
  | cons x xs ih =>
    obtain ⟨m, hm, hrest⟩ := Steps.run_cons.mp h
    exact Steps.run_cons.mpr ⟨m, (workerStep_batch hm).2, ih hrest⟩

/-- **The loops are among the clients.** Every run of the workers and the handlers is matched by a
run of the clients alone: the same servers, and each call where the worker has it, unless it was
never made. The clients start with the bids and the scanned rows of the run, and nothing else. -/
theorem workers_are_clients {E : Engines} {w : World} {s : Workers} {xs : List WorkerEvent}
    (hrun : Steps.run (workerStep E) (Batched.fresh w) xs = some s) :
    ∃ es t, Steps.run (sysStep E) (State.fresh w) es = some t ∧ Matches s t ∧
      ∀ i j, .start i j ∈ es → ∃ x ∈ xs, j ∈ x.batch.jobs := by
  obtain ⟨es, t, hes, hm, hjobs⟩ := batch_run (matches_fresh w) (run_workers_batch hrun)
  refine ⟨es, t, hes, hm, fun i j hmem => ?_⟩
  obtain ⟨y, hy, hj⟩ := hjobs i j hmem
  obtain ⟨x, hx, rfl⟩ := List.mem_map.mp hy
  exact ⟨x, hx, hj⟩

/-! ## What has become of the rows -/

/-- The row the text names, if there is one, is not ACTIVE. -/
def NotActive (w : World) (id : String) : Prop :=
  ∀ u a, Uuid.input id = some u → w.db.find u = some a → a.status ≠ .ACTIVE

/-- No row becomes ACTIVE again. -/
theorem NotActive.exec {E : Engines} {w : World} {id : String} (h : NotActive w id) (c : Cmd) :
    NotActive (exec E w c).1 id := by
  cases c with
  | settleTx id' price leader =>
    intro u b hu hb
    simp only [Synora.exec] at hb
    rcases settleTx_cases E w.db w.pgNow id' price leader with
      ⟨e, he⟩ | ⟨he, -⟩ | ⟨v, a, -, hf, hact, hr⟩
    · rw [he] at hb
      exact h u b hu hb
    · rw [he] at hb
      exact h u b hu hb
    · have hne : u ≠ v := by
        rintro rfl
        exact h u a hu hf hact
      rcases hr with ⟨-, -, hr⟩ | ⟨_, _, _, _, -, -, -, -, -, hr⟩
      · rw [hr.others u hne] at hb
        exact h u b hu hb
      · rw [hr.others u hne] at hb
        exact h u b hu hb
  | _ =>
    intro u b hu hb
    rw [exec_db (by simp)] at hb
    exact h u b hu hb

/-- A transaction that has not failed leaves no ACTIVE row. -/
theorem settleTx_notActive {E : Engines} {w : World} {id : String} {price leader : Option String}
    (h : ∀ e, (settleTx E w.db w.pgNow id price leader).2 ≠ .failed e) :
    NotActive (exec E w (.settleTx id price leader)).1 id := by
  intro u b hu hb
  simp only [exec] at hb
  rcases settleTx_cases E w.db w.pgNow id price leader with
    ⟨e, he⟩ | ⟨he, hskip⟩ | ⟨v, a, hv, -, -, ⟨-, -, hr⟩ | ⟨_, _, _, _, -, -, -, -, -, hr⟩⟩
  · exact absurd (by rw [he]) (h e)
  · rw [he] at hb
    exact hskip u b hu hb
  all_goals
    rw [hu] at hv
    cases hv
    obtain ⟨a', ha', hcols⟩ := hr.row
    rw [ha'] at hb
    cases hb
    rw [hcols]
    simp

/-- The worker has passed its transaction, or has returned nil. -/
def SettlePc.passed : SettlePc → Bool
  | .caching _ _ _ => true
  | .publishing => true
  | .deleting => true
  | .finished ok => ok
  | _ => false

structure PassedSlot (w : World) (sl : Slot Proc Cmd Reply) : Prop where
  client : ∀ job pc, sl.client = .live (.settle job pc) → pc.passed = true → NotActive w job.id
  inbox : ∀ job p l o, sl.client = .live (.settle job (.committing p l)) → sl.inbox = some (.tx o) →
    (∀ e, o ≠ .failed e) → NotActive w job.id

theorem passed_other {w : World} {sl : Slot Proc Cmd Reply} (h : ∀ job pc, sl.client = .live (.settle job pc) →
    pc.passed = false ∧ sl.inbox = none) : PassedSlot w sl where
  client job pc hc hp := by
    rw [(h job pc hc).1] at hp
    cases hp
  inbox job p l o hc hi _ := by
    rw [(h job _ hc).2] at hi
    cases hi

/-- The worker goes on. -/
theorem passed_settleResume {w : World} (now : Int) {job : SettleJob} {pc : SettlePc} {r : Reply}
    {sl : Slot Proc Cmd Reply} (h : PassedSlot w sl) (hc : sl.client = .live (.settle job pc))
    (hr : sl.inbox = some r) (hp : (settleResume now job pc r).1.passed = true) : NotActive w job.id := by
  cases pc with
  | committing p l =>
    have hpassed : ∃ o, r = .tx o ∧ ∀ e, o ≠ .failed e := by
      cases r with
      | tx o =>
        refine ⟨o, rfl, fun e he => ?_⟩
        subst he
        cases hp
      | _ => cases hp
    obtain ⟨o, rfl, hne⟩ := hpassed
    exact h.inbox job p l o hc hr hne
  | reading => cases r <;> cases hp
  | finished ok => exact h.client job _ hc hp
  | _ => exact h.client job _ hc rfl

theorem passed_rely (E : Engines) (T : Uuid → Option Terms) (A : Nat → Job → Prop) :
    Rely (program E) (fun _ => True) (fun _ => PassedSlot) (fun s _ => SoundBy T A s) where
  tick _ _ _ := trivial
  tickL i w d sl _ h := ⟨h.client, h.inbox⟩
  start s i j p c _ _ hst := by
    rcases startJob_cases hst with ⟨req, rfl, -, -, rfl, rfl⟩ | ⟨req, rfl, rfl, rfl⟩ |
        ⟨u, job, rfl, -, rfl, rfl⟩ <;> refine passed_other fun job' pc h => ?_ <;> cases h
    exact ⟨rfl, rfl⟩
  exec _ _ _ _ _ _ _ := trivial
  execL s i c _ hL hs hw := by
    refine ⟨fun job pc hc hp => (hL.client job pc hc hp).exec c, fun job p l o hc hi hne => ?_⟩
    obtain ⟨q, -, hwait, hsame⟩ := (hs.2 i).wire c hw
    obtain rfl := hsame _ hc rfl
    cases hwait with
    | committing _ _ _ =>
      simp only [program_exec, exec, Option.some.injEq, Reply.tx.injEq] at hi
      subst hi
      exact settleTx_notActive hne
  stable s i c j sl _ _ _ _ h :=
    ⟨fun job pc hc hp => (h.client job pc hc hp).exec c,
      fun job p l o hc hi hne => (h.inbox job p l o hc hi hne).exec c⟩
  recv s i p r _ hL _ hc hr _ := by
    refine ⟨fun job pc hcl hp => ?_, fun _ _ _ _ _ hi => (by cases hi)⟩
    cases p with
    | bid req pc' => cases hcl
    | settle job' pc' =>
      cases hcl
      exact passed_settleResume s.world.now hL hc hr hp
  fail s i p _ hL _ hc hd := by
    refine ⟨fun job pc hcl hp => ?_, fun _ _ _ _ _ hi => (by cases hi)⟩
    cases p with
    | bid req pc' => cases hcl
    | settle job' pc' =>
      cases hcl
      cases pc' <;> simp_all [settleAbort, SettlePc.passed, Proc.done, SettlePc.done]
  drop i w sl _ h := ⟨h.client, h.inbox⟩
  crash i w sl _ h := ⟨fun _ _ h => (by cases h), fun _ _ _ _ h => (by cases h)⟩

/-- In a run of the clients, a settlement that has returned nil leaves no ACTIVE row. -/
theorem passed_run {E : Engines} {w : World} {t : Sys} {es : List Ev}
    (hrun : Steps.run (sysStep E) (State.fresh w) es = some t) (i : Nat) : PassedSlot t.world (t.slot i) := by
  have hsound : Steps.Along (sysStep E)
      (fun s e => JobsOn (fun _ => True) e ∧ SoundBy (termsOf w.db) (fun _ _ => True) s) (State.fresh w) es :=
    Steps.along_with_invariant (fun _ _ _ hI hC hst => SoundBy.step hI hC hst) (sound_fresh (s := State.fresh w) rfl)
      (Steps.along_of_forall fun _ e => jobsOn_true e)
  have hstart : Holds (fun _ => True) (fun _ => PassedSlot) (State.fresh w : Sys) :=
    ⟨trivial, fun i => passed_other fun job pc h => by cases h⟩
  exact (Steps.run_invariant (fun _ _ _ hI hC hst => (passed_rely E _ _).step hI hC.2 hst) hstart hsound hrun).2 i

/-- The states a settlement passes through are settlements of its row. -/
theorem stems_settle {E : Engines} {u : Uuid} {p : Proc} (h : Stems (program E) (.settle u) p) :
    ∃ «end» pc, p = .settle ⟨u.text, «end»⟩ pc := by
  induction h with
  | start w p c hst =>
    rw [program_start] at hst
    rcases startJob_cases hst with ⟨req, hj, -⟩ | ⟨req, hj, -⟩ | ⟨v, job, hj, hpick, rfl, -⟩
    · cases hj
    · cases hj
    · cases hj
      obtain ⟨a, -, -, -, rfl⟩ := scanPicks_eq_some hpick
      exact ⟨_, _, rfl⟩
  | resume t p r _ _ ih =>
    obtain ⟨x, pc, rfl⟩ := ih
    exact ⟨x, _, rfl⟩
  | abort p _ ih =>
    obtain ⟨x, pc, rfl⟩ := ih
    exact ⟨x, _, rfl⟩

/-- What has become of the `n`-th row a worker took, once it has come to the end of its scan: it was
not read, `settle` returned an error for it, or `settle` returned nil and it is not ACTIVE. -/
inductive RowOutcome (s : Workers) (k n : Nat) (u : Uuid) : Prop
  | skipped (h : s.calls.slot (place k n) = {})
  | failed («end» : Int) (h : (s.calls.slot (place k n)).client = .live (.settle ⟨u.text, «end»⟩ (.finished false)))
  | settled («end» : Int) (h : (s.calls.slot (place k n)).client = .live (.settle ⟨u.text, «end»⟩ (.finished true)))
    (ended : ∀ a, s.calls.world.db.find u = some a → a.status ≠ .ACTIVE)

theorem orderly_run {E : Engines} {w : World} {s : Workers} {xs : List WorkerEvent}
    (hrun : Steps.run (workerStep E) (Batched.fresh w) xs = some s) : Orderly (program E) s := by
  refine Steps.run_invariant (C := fun _ _ => True) (fun s x s' h _ hst => ?_) (orderly_fresh w)
    (Steps.along_of_forall fun _ _ => trivial) hrun
  exact h.step (workerStep_batch hst).2

/-- **No row of a scan is left behind unseen.** Whenever a worker has come to the end of its scan,
every row that its scans ever returned was not read, or was refused with an error, or is over. -/
theorem scanned_rows_handled {E : Engines} {w : World} {s : Workers} {xs : List WorkerEvent}
    (hrun : Steps.run (workerStep E) (Batched.fresh w) xs = some s) {k : Nat}
    (hrest : s.atRest (program E) k = true) (hempty : (s.line k).queue = []) {n : Nat} {u : Uuid}
    (hu : (s.line k).taken[n]? = some (.settle u)) : RowOutcome s k n u := by
  rcases (orderly_run hrun).drained hrest hempty hu with hslot | ⟨p, hp, hd, hstems⟩
  · exact .skipped hslot
  · obtain ⟨x, pc, rfl⟩ := stems_settle hstems
    cases pc with
    | finished ok =>
      cases ok with
      | false => exact .failed x hp
      | true =>
        refine .settled x hp fun a hf => ?_
        obtain ⟨es, t, hes, hm, -⟩ := workers_are_clients hrun
        have hlt : n < (s.line k).next := by
          have := (List.getElem?_eq_some_iff.mp hu).1
          rwa [(orderly_run hrun).count k, hempty] at this
        have hsame : t.slot (place k n) = s.calls.slot (place k n) :=
          (hm.begun k n hlt).resolve_right fun hslot => by rw [hslot] at hp; cases hp
        have hover := (passed_run hes (place k n)).client _ _ (hsame ▸ hp) rfl
        rw [hm.world] at hover
        exact hover u a (Uuid.input_text u) hf
    | _ => cases hd

/-- Two lots have ended. The first has a leader without a price, for which `settle` returns an error. -/
def halfStuck : World :=
  { twoOpen with now := 1000000000, redis := Expiring.Store.empty.put (leaderKey (Uuid.ofDigit 0).text) ⟨"x", none⟩ }

/-- A worker scans both, and settles the second after it has failed on the first. -/
def scanBoth : List WorkerEvent :=
  [.scan 0 [lot ten ten_positive, secondLot], .next 0] ++ (calls (place 0 0) 2).map .serve ++
    .next 0 :: (calls (place 0 1) 5).map .serve

theorem workers_are_clients_lots : ∃ s,
    Steps.run (workerStep decimalEngines) (Batched.fresh halfStuck) scanBoth = some s ∧
      s.calls.world.rowStatus (.ofDigit 0) = some .ACTIVE ∧ s.calls.world.rowStatus (.ofDigit 3) = some .CLOSED ∧
      ∃ es t, Steps.run (sysStep decimalEngines) (State.fresh halfStuck) es = some t ∧ Matches s t ∧
        ∀ i j, .start i j ∈ es → ∃ x ∈ scanBoth, j ∈ x.batch.jobs := by
  obtain ⟨s, hrun, hcheck⟩ := Steps.exists_of_check (workerStep decimalEngines) (Batched.fresh halfStuck) scanBoth
    (fun s => decide (s.calls.world.rowStatus (.ofDigit 0) = some .ACTIVE ∧
      s.calls.world.rowStatus (.ofDigit 3) = some .CLOSED)) (by decide +kernel)
  obtain ⟨hstuck, hclosed⟩ := of_decide_eq_true hcheck
  exact ⟨s, hrun, hstuck, hclosed, workers_are_clients hrun⟩

theorem scanned_rows_handled_lots : ∃ s,
    Steps.run (workerStep decimalEngines) (Batched.fresh halfStuck) scanBoth = some s ∧
      (s.line 0).taken = [.settle (.ofDigit 0), .settle (.ofDigit 3)] ∧
      RowOutcome s 0 0 (.ofDigit 0) ∧ RowOutcome s 0 1 (.ofDigit 3) := by
  obtain ⟨s, hrun, hcheck⟩ := Steps.exists_of_check (workerStep decimalEngines) (Batched.fresh halfStuck) scanBoth
    (fun s => s.atRest (program decimalEngines) 0 && (s.line 0).queue.isEmpty &&
      decide ((s.line 0).taken = [.settle (.ofDigit 0), .settle (.ofDigit 3)])) (by decide +kernel)
  rw [Bool.and_eq_true, Bool.and_eq_true, List.isEmpty_iff] at hcheck
  obtain ⟨⟨hrest, hempty⟩, htaken⟩ := hcheck
  have htaken := of_decide_eq_true htaken
  exact ⟨s, hrun, htaken, scanned_rows_handled hrun hrest hempty (by rw [htaken]; rfl),
    scanned_rows_handled hrun hrest hempty (by rw [htaken]; rfl)⟩

/-! ## A scan that is left alone -/

section
variable {u v : Uuid} {w w' w'' : World}

theorem SameAuction.trans (h : SameAuction u w w') (h' : SameAuction u w' w'') : SameAuction u w w'' where
  now := h'.now.trans h.now
  row := ⟨h'.row.users.trans h.row.users, h'.row.row.trans h.row.row, h'.row.ledger.trans h.row.ledger⟩
  keys id hid k hk := (h'.keys id hid k hk).trans (h.keys id hid k hk)
  published := h'.published.trans h.published
  accepted := h'.accepted.trans h.accepted

theorem SameAuction.terminal (h : SameAuction u w w') (ht : w'.terminal u) : w.terminal u := by
  unfold World.terminal World.rowStatus at ht ⊢
  rwa [h.row.row] at ht

end

/-- What the transaction of `settle` returns for the row now. -/
def settleNow (E : Engines) (w : World) (u : Uuid) : TxOutcome :=
  (settleTx E w.db w.pgNow u.text (w.get (priceKey u.text)) (w.get (leaderKey u.text))).2

/-- The same auction is settled in the same way. -/
theorem SameAuction.settleNow {u : Uuid} {w w' : World} (h : SameAuction u w w') (E : Engines) :
    settleNow E w' u = settleNow E w u := by
  have hid := Uuid.input_text u
  have hpg : w'.pgNow = w.pgNow := by rw [World.pgNow, World.pgNow, h.now]
  unfold Synora.settleNow
  rw [h.get hid (k := priceKey u.text) (by simp [stored]), h.get hid (k := leaderKey u.text) (by simp [stored]), hpg]
  exact (h.row.settleTx E w.pgNow hid _ _).1

/-- What a settlement without faults makes of an ACTIVE row: it is over, unless the transaction
fails; then nothing has changed. -/
structure SettledNow (E : Engines) (u : Uuid) (w w' : World) : Prop where
  committed : (∀ e, settleNow E w u ≠ .failed e) → w'.terminal u
  failed : ∀ e, settleNow E w u = .failed e → SameAuction u w' w

/-- **The transaction on an ACTIVE row** commits and the row is over, or fails and changes nothing. -/
theorem settleTx_active (E : Engines) {w : World} {u : Uuid} {a : Auction} (price leader : Option String)
    (hf : w.db.find u = some a) (hact : a.status = .ACTIVE) :
    ((∃ st ps wid, (settleTx E w.db w.pgNow u.text price leader).2 = .committed st ps wid) ∧
      (exec E w (.settleTx u.text price leader)).1.terminal u) ∨
    ∃ e, settleTx E w.db w.pgNow u.text price leader = (w.db, .failed e) := by
  unfold World.terminal World.rowStatus
  rcases settleTx_cases E w.db w.pgNow u.text price leader with
    ⟨e, he⟩ | ⟨-, hne⟩ | ⟨v, b, hv, -, -, ⟨-, ho, hr⟩ | ⟨_, _, _, _, -, -, -, -, ho, hr⟩⟩
  · exact .inr ⟨e, he⟩
  · exact absurd hact (hne u a (Uuid.input_text u) hf)
  all_goals
    rw [Uuid.input_text] at hv
    cases hv
    obtain ⟨a', hf', ha'⟩ := hr.row
    refine .inl ⟨⟨_, _, _, ho⟩, ?_⟩
    simp [exec_settleTx, hf', ha']

/-- **One settlement without faults**: it ends, and leaves the other auctions alone. -/
theorem settle_alone (E : Engines) {s : Sys} (i : Nat) {u : Uuid} {a : Auction} (job : SettleJob)
    (hid : job.id = u.text) (hf : s.world.db.find u = some a) (hact : a.status = .ACTIVE) :
    ∃ m ok t, Steps.run (sysStep E) (s.setSlot i { client := .live (.settle job .reading)
                                                   wire := some (.mget (priceKey job.id) (leaderKey job.id)) })
        (calls i m) = some t ∧ (t.slot i).client = .live (.settle job (.finished ok)) ∧
      SettledNow E u s.world t.world ∧ ∀ v, v ≠ u → SameAuction v t.world s.world := by
  obtain ⟨id, «end»⟩ := job
  simp only at hid
  subst hid
  have hcall : ∀ (t : Sys) (p : Proc) (c : Cmd) (n : Nat), p.done = false →
      Steps.run (sysStep E) (t.setSlot i { client := .live p, wire := some c }) (calls i (n + 1)) =
        Steps.run (sysStep E) ({ t with world := (exec E t.world c).1 }.setSlot i
          { client := .live (resumeProc (exec E t.world c).1.now p (exec E t.world c).2).1,
            wire := (resumeProc (exec E t.world c).1.now p (exec E t.world c).2).2 }) (calls i n) :=
    fun t p c n hd => run_call hd
  rcases settleTx_active E (s.world.get (priceKey u.text)) (s.world.get (leaderKey u.text)) hf hact with
    ⟨⟨st, ps, wid, ho⟩, hterm⟩ | ⟨e, he⟩
  · have hother : ∀ (v : Uuid) (w : World) (c : Cmd), v ≠ u → Cmd.Of u.text c → SameAuction v w s.world →
        SameAuction v (exec E w c).1 s.world := by
      intro v w c hv hc h
      refine h.other E hc fun hin => hv ?_
      rw [Uuid.input_text] at hin
      exact (Option.some.inj hin).symm
    -- MGET, the transaction, SET, PUBLISH and DEL
    refine ⟨5, true, ?_⟩
    rw [hcall _ _ _ _ rfl]
    simp only [exec, resumeProc, settleResume]
    rw [hcall _ _ _ _ rfl]
    simp only [exec, ho, resumeProc, settleResume]
    rw [hcall _ _ _ _ rfl]
    simp only [exec, resumeProc, settleResume]
    rw [hcall _ _ _ _ rfl]
    simp only [exec, resumeProc, settleResume]
    rw [hcall _ _ _ _ rfl]
    simp only [exec, resumeProc, settleResume]
    refine ⟨_, rfl, by rw [State.setSlot_self], ⟨fun _ => hterm, fun e he => ?_⟩, fun v hv => ?_⟩
    · rw [settleNow, ho] at he
      cases he
    · have h₁ := hother v _ _ hv (.settleTx (s.world.get (priceKey u.text)) (s.world.get (leaderKey u.text)))
        (.refl v s.world)
      have h₂ := hother v _ _ hv (.set st.label (redisTtl (settleTtl «end» s.world.now))) h₁
      have h₃ := hother v _ _ hv (.publish st ps wid) h₂
      exact hother v _ _ hv .del h₃
  · -- MGET and the transaction, which is rolled back
    refine ⟨2, false, ?_⟩
    rw [hcall _ _ _ _ rfl]
    simp only [exec, resumeProc, settleResume]
    rw [hcall _ _ _ _ rfl]
    simp only [exec, he, resumeProc, settleResume]
    refine ⟨_, rfl, by rw [State.setSlot_self], ⟨fun hne => ?_, fun _ _ => .refl u s.world⟩,
      fun v _ => .refl v s.world⟩
    exact absurd (by rw [settleNow, he]) (hne e)

/-- The clients' steps are steps of the workers. -/
theorem run_serve {E : Engines} {s : Workers} {t : Sys} {es : List Ev} (hes : ∀ e ∈ es, ∀ i j, e ≠ .start i j)
    (hrun : Steps.run (sysStep E) s.calls es = some t) :
    Steps.run (workerStep E) s (es.map .serve) = some { s with calls := t } := by
  induction es generalizing s with
  | nil =>
    cases hrun
    rfl
  | cons e es ih =>
    obtain ⟨m, hm, hrest⟩ := Steps.run_cons.mp hrun
    have hfirst : workerStep E s (.serve e) = some { s with calls := m } := by
      have hne := hes e List.mem_cons_self
      cases e with
      | start i j => exact absurd rfl (hne i j)
      | _ => simp [workerStep, WorkerEvent.Fits, WorkerEvent.batch, Program.batchStep, Event.startsFree, hm]
    exact Steps.run_cons.mpr ⟨_, hfirst, ih (fun e he => hes e (List.mem_cons_of_mem _ he)) hrest⟩

/-- A step of worker `k` itself. -/
def OwnStep (k : Nat) : WorkerEvent → Prop
  | .next j => j = k
  | .serve (.exec i) => ∃ n, i = place k n
  | .serve (.recv i) => ∃ n, i = place k n
  | _ => False

theorem own_calls (k n : Nat) : ∀ m, ∀ x ∈ (calls (place k n) m).map WorkerEvent.serve, OwnStep k x
  | 0, _, hx => by cases hx
  | m + 1, x, hx => by
    simp only [calls, List.map_cons, List.mem_cons] at hx
    rcases hx with rfl | rfl | hx
    · exact ⟨n, rfl⟩
    · exact ⟨n, rfl⟩
    · exact own_calls k n m x hx

theorem calls_no_start (i : Nat) : ∀ m, ∀ e ∈ calls i m, ∀ j x, e ≠ .start j x
  | 0, _, he => by cases he
  | m + 1, e, he => by
    simp only [calls, List.mem_cons] at he
    rcases he with rfl | rfl | he
    · simp
    · simp
    · exact calls_no_start i m e he

/-- The first state and request of the settlement of a row. -/
def settlement (a : Auction) : Proc × Option Cmd :=
  (.settle ⟨a.id.text, 1000 * a.endTime⟩ .reading, some (.mget (priceKey a.id.text) (leaderKey a.id.text)))

/-- **The rest of a scan without faults.** Induction on the rows that are left: each is settled as
it was when the scan began, at `w`. -/
theorem rest_of_scan (E : Engines) (k : Nat) (w : World) {rows : List Auction} {s : Workers}
    (hrest : s.atRest (program E) k = true) (hqueue : (s.line k).queue = rows.map settlement)
    (hids : (rows.map fun a => a.id).Nodup) (hrows : ∀ a ∈ rows, w.db.find a.id = some a ∧ a.status = .ACTIVE)
    (hsame : ∀ a ∈ rows, SameAuction a.id s.calls.world w) :
    ∃ xs s', Steps.run (workerStep E) s xs = some s' ∧ (∀ x ∈ xs, OwnStep k x) ∧
      s'.atRest (program E) k = true ∧ (s'.line k).queue = [] ∧
      (∀ a ∈ rows, SettledNow E a.id w s'.calls.world) ∧
      ∀ v, v ∉ rows.map (fun a => a.id) → SameAuction v s'.calls.world s.calls.world := by
  induction rows generalizing s with
  | nil =>
    exact ⟨[], s, rfl, fun _ hx => (by cases hx), hrest, hqueue, fun _ ha => (by cases ha), fun v _ => .refl v _⟩
  | cons a rows ih =>
    obtain ⟨hnew, hids'⟩ := List.nodup_cons.mp hids
    obtain ⟨hf, hact⟩ := hrows a List.mem_cons_self
    have hsa := hsame a List.mem_cons_self
    -- the worker comes to the row, which is as it was, and settles it
    obtain ⟨m, ok, t, hrun, hdone, hsettled, hothers⟩ := settle_alone E (s := s.calls)
      (place k (s.line k).next) ⟨a.id.text, 1000 * a.endTime⟩ rfl (hsa.row.row.symm.trans hf) hact
    have hbegin : workerStep E s (.next k) =
        some (s.begin k (settlement a).1 (settlement a).2 (rows.map settlement)) := by
      simp only [workerStep, WorkerEvent.batch, Program.batchStep, hqueue, List.map_cons, hrest]
      rfl
    have hcalls := run_serve (s := s.begin k (settlement a).1 (settlement a).2 (rows.map settlement))
      (calls_no_start _ m) hrun
    generalize hs₁ : ({ s.begin k (settlement a).1 (settlement a).2 (rows.map settlement) with calls := t } :
      Workers) = s₁ at hcalls
    have hworld₁ : s₁.calls.world = t.world := by rw [← hs₁]
    have hline₁ : s₁.line k = { s.line k with
        queue := rows.map settlement, next := (s.line k).next + 1, current := some (s.line k).next } := by
      rw [← hs₁]
      exact Batched.setLine_self _ _ _
    have hrest₁ : s₁.atRest (program E) k = true := by
      have hrunning : (s.line k).running = true := by
        rw [Batched.atRest, Bool.and_eq_true] at hrest
        exact hrest.1
      have hslot : (s₁.calls.slot (place k (s.line k).next)).client =
          .live (.settle ⟨a.id.text, 1000 * a.endTime⟩ (.finished ok)) := by
        rw [← hs₁]
        exact hdone
      simp only [Batched.atRest, hline₁, hrunning, hslot]
      rfl
    have hother₁ : ∀ v, v ≠ a.id → SameAuction v s₁.calls.world s.calls.world := by
      intro v hv
      rw [hworld₁]
      exact hothers v hv
    have hne : ∀ b ∈ rows, b.id ≠ a.id := fun b hb he => hnew (List.mem_map.mpr ⟨b, hb, he⟩)
    obtain ⟨xs, s', hxs, hown, hend, hempty, hall, hkept⟩ := ih hrest₁ (by rw [hline₁]) hids'
      (fun b hb => hrows b (List.mem_cons_of_mem _ hb))
      (fun b hb => (hother₁ b.id (hne b hb)).trans (hsame b (List.mem_cons_of_mem _ hb)))
    refine ⟨.next k :: ((calls (place k (s.line k).next) m).map .serve ++ xs), s', ?_, ?_, hend, hempty, ?_, ?_⟩
    · exact Steps.run_cons.mpr ⟨_, hbegin, Steps.run_append.mpr ⟨s₁, hcalls, hxs⟩⟩
    · intro x hx
      rcases List.mem_cons.mp hx with rfl | hx
      · exact rfl
      · rcases List.mem_append.mp hx with hx | hx
        · exact own_calls k _ m x hx
        · exact hown x hx
    · intro b hb
      rcases List.mem_cons.mp hb with rfl | hb
      · -- what the later settlements leave alone
        have hlater := hkept b.id hnew
        rw [hworld₁] at hlater
        refine ⟨fun hne => ?_, fun e he => ?_⟩
        · refine hlater.terminal (hsettled.committed fun e he => hne e ?_)
          rw [hsa.settleNow]
          exact he
        · refine hlater.trans ((hsettled.failed e ?_).trans hsa)
          rw [← hsa.settleNow]
          exact he
      · exact hall b hb
    · intro v hv
      rw [List.map_cons, List.mem_cons, not_or] at hv
      exact (hkept v hv.2).trans (hother₁ v hv.1)

/-- A row of the scan is ACTIVE and its end has passed. -/
theorem mem_dueRows {w : World} {a : Auction} (h : a ∈ dueRows w) :
    w.db.find a.id = some a ∧ a.status = .ACTIVE ∧ a.endTime ≤ w.pgNow := by
  obtain ⟨hmem, hdue⟩ := List.mem_filter.mp h
  exact ⟨Db.find_of_mem hmem, of_decide_eq_true hdue⟩

/-- The settlements of the rows of a scan can start. -/
theorem start_settlements {E : Engines} {w : World} {rows : List Auction} (h : ∀ a ∈ rows, a ∈ dueRows w) :
    (rows.map fun a => Job.settle a.id).mapM ((program E).start w) = some (rows.map settlement) := by
  induction rows with
  | nil => rfl
  | cons a rows ih =>
    obtain ⟨hf, hdue⟩ := mem_dueRows (h a List.mem_cons_self)
    have hfirst : (program E).start w (.settle a.id) = some (settlement a) := by
      simp only [program_start, startJob, scanPicks, hf, hdue, and_self, if_true]
      rfl
    rw [List.map_cons, List.mapM_cons, hfirst, ih fun b hb => h b (List.mem_cons_of_mem _ hb)]
    rfl

/-- **A bad row does not block a scan.** From any state in which a worker is between two scans and
for every result of its query, the worker alone, if nothing fails, comes to the end of the scan, and
every row is settled as it was at the query: it is over, or its transaction fails and it is as before. -/
theorem scan_settles_each {E : Engines} {s : Workers} {k : Nat} {rows : List Auction}
    (hrest : s.atRest (program E) k = true) (hempty : (s.line k).queue = [])
    (hscan : IsScan s.calls.world rows) :
    ∃ xs s', Steps.run (workerStep E) s (.scan k rows :: xs) = some s' ∧ (∀ x ∈ xs, OwnStep k x) ∧
      s'.atRest (program E) k = true ∧ (s'.line k).queue = [] ∧
      ∀ a ∈ rows, SettledNow E a.id s.calls.world s'.calls.world := by
  have hdue : ∀ a ∈ rows, a ∈ dueRows s.calls.world := fun a ha => hscan.1.mem_iff.mp ha
  have hids : (rows.map fun a => a.id).Nodup := by
    have hkey : ((dueRows s.calls.world).map fun a => a.id).Nodup :=
      s.calls.world.db.auctionsKey.sublist (List.filter_sublist.map _)
    exact (hscan.1.map _).nodup_iff.mpr hkey
  generalize hs₁ : s.setLine k { s.line k with
    taken := (s.line k).taken ++ rows.map (fun a => .settle a.id), queue := rows.map settlement } = s₁
  have htake : workerStep E s (.scan k rows) = some s₁ := by
    simp only [workerStep, WorkerEvent.Fits, hscan, WorkerEvent.batch, Program.batchStep, hrest, hempty,
      start_settlements hdue, ← hs₁]
    rfl
  have hline : s₁.line k = { s.line k with
      taken := (s.line k).taken ++ rows.map (fun a => .settle a.id), queue := rows.map settlement } := by
    rw [← hs₁]
    exact Batched.setLine_self _ _ _
  have hcalls : s₁.calls = s.calls := by rw [← hs₁]; rfl
  have hrest₁ : s₁.atRest (program E) k = true := by
    rw [Batched.atRest] at hrest ⊢
    rw [hline, hcalls]
    exact hrest
  obtain ⟨xs, s', hxs, hown, hend, hdone, hall, -⟩ := rest_of_scan E k s.calls.world hrest₁ (by rw [hline]) hids
    (fun a ha => ⟨(mem_dueRows (hdue a ha)).1, (mem_dueRows (hdue a ha)).2.1⟩)
    (fun a _ => by rw [hcalls]; exact .refl a.id _)
  exact ⟨xs, s', Steps.run_cons.mpr ⟨s₁, htake, hxs⟩, hown, hend, hdone, hall⟩

theorem scan_settles_each_lots : IsScan halfStuck [lot ten ten_positive, secondLot] ∧
    ∃ xs s', Steps.run (workerStep decimalEngines) (Batched.fresh halfStuck)
        (.scan 0 [lot ten ten_positive, secondLot] :: xs) = some s' ∧ (∀ x ∈ xs, OwnStep 0 x) ∧
      s'.atRest (program decimalEngines) 0 = true ∧ (s'.line 0).queue = [] ∧
      ∀ a ∈ [lot ten ten_positive, secondLot], SettledNow decimalEngines a.id halfStuck s'.calls.world :=
  have hscan : IsScan halfStuck [lot ten ten_positive, secondLot] := by decide +kernel
  ⟨hscan, scan_settles_each (s := Batched.fresh halfStuck) (k := 0) rfl rfl hscan⟩

end Synora
