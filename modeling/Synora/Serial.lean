import Synora.Ledger

/- The two models of the transaction agree: any run of the statement-by-statement one
   (Ledger) leaves the database that the atomic `settleTx`, the one the servers
   execute (Server), makes of the first database, once for each commit and in the
   order of the commits. Each row is committed once, so no order of the workers, no
   rollback and no crash shows in the tables. -/
namespace Synora.Ledger

/-- The transaction an event commits. -/
def committed (s : Cluster) : Event → Option Tx
  | .commit k =>
    match s.worker k with
    | .inTx tx => some tx
    | _ => none
  | _ => none

/-- The transactions of a run, in the order of their commits. -/
def commits (E : Engines) : Cluster → List Event → List Tx
  | _, [] => []
  | s, e :: es =>
    match step E s e with
    | some s' => (committed s e).toList ++ commits E s' es
    | none => []

/-- The transaction on its own. -/
def Tx.alone (E : Engines) (db : Db) (tx : Tx) : Db :=
  (Synora.settleTx E db tx.now tx.id.text tx.price tx.leader).1

/-- Only a commit writes. -/
theorem step_db {E : Engines} {s s' : Cluster} {e : Event} (hst : step E s e = some s')
    (hno : ∀ k, e ≠ .commit k) : s'.db = s.db := by
  cases e with
  | commit k => exact absurd rfl (hno k)
  | lock k =>
    simp only [step] at hst
    split at hst
    · next u now price leader hw =>
      split at hst
      · cases hst
        rcases s.acquire_cases k u now price leader with h | ⟨a, -, -, h⟩ <;> rw [h] <;> rfl
      · cases hst
    · cases hst
  | exec k =>
    simp only [step] at hst
    split at hst
    · next tx hw =>
      obtain ⟨st, -, rfl⟩ := Option.map_eq_some_iff.mp hst
      rcases s.execute_cases E k tx st with h | ⟨pc, -, h⟩ <;> rw [h] <;> rfl
    · cases hst
  | _ =>
    simp only [step] at hst
    split at hst <;> cases hst <;> rfl

/-- **One event is one transaction or none.** A commit takes an ACTIVE row, which it closes or
settles; any other event leaves the database. -/
theorem step_serial {E : Engines} {s s' : Cluster} {e : Event} (h : Inv s) (hst : step E s e = some s') :
    s'.db = (committed s e).toList.foldl (Tx.alone E) s.db ∧
      ∀ tx ∈ committed s e, (∃ a, s.db.find tx.id = some a ∧ a.status = .ACTIVE) ∧
        ∃ a, s'.db.find tx.id = some a ∧ a.status ≠ .ACTIVE := by
  cases e with
  | commit k =>
    simp only [step] at hst
    split at hst
    · next tx hk =>
      have hcommitted : committed s (.commit k) = some tx := by simp [committed, hk]
      split at hst
      · next db hpc hview =>
        cases hst
        obtain ⟨hok, -, a, hf, hact⟩ := h.inTx k tx hk
        obtain ⟨o, hrow⟩ := hok.settleRow hpc hview
        rw [hcommitted]
        refine ⟨(hok.settleTx hpc hview hf hact).symm, fun tx' htx => ?_⟩
        cases htx
        refine ⟨⟨a, hf, hact⟩, ?_⟩
        rcases settleRow_ok hf hrow with ⟨-, -, hr⟩ | ⟨_, _, w, p, -, -, -, -, -, hr⟩
        · obtain ⟨b, hb, hcols⟩ := hr.row
          exact ⟨b, hb, by rw [hcols]; simp⟩
        · obtain ⟨b, hb, hcols⟩ := hr.row
          exact ⟨b, hb, by rw [hcols]; simp⟩
      · cases hst
    · cases hst
  | _ => exact ⟨step_db hst (by simp), fun tx htx => by cases htx⟩

/-- A row that is not ACTIVE is in no transaction of the run. -/
theorem not_in_commits {E : Engines} {s s' : Cluster} {es : List Event} {u : Uuid} {a : Auction} (h : Inv s)
    (hrun : Steps.run (step E) s es = some s') (hf : s.db.find u = some a) (ha : a.status ≠ .ACTIVE) :
    u ∉ (commits E s es).map Tx.id := by
  induction es generalizing s with
  | nil => exact List.not_mem_nil
  | cons e es ih =>
    obtain ⟨m, hm, hrest⟩ := Steps.run_cons.mp hrun
    simp only [commits, hm, List.map_append, List.mem_append, not_or]
    refine ⟨fun hmem => ?_, ih (h.step hm) hrest (h.step_row hm hf ha)⟩
    obtain ⟨tx, htx, rfl⟩ := List.mem_map.mp hmem
    obtain ⟨⟨b, hb, hact⟩, -⟩ := (step_serial h hm).2 tx (Option.mem_toList.mp htx)
    rw [hf] at hb
    cases hb
    exact ha hact

/-- **The workers are serializable.** From any database they keep (`Inv`): a run leaves what its
transactions, each alone and in the order of their commits, make of the first database; and no
two of them are on the same row. -/
theorem run_serial {E : Engines} {s s' : Cluster} {es : List Event} (h : Inv s)
    (hrun : Steps.run (step E) s es = some s') :
    s'.db = (commits E s es).foldl (Tx.alone E) s.db ∧ ((commits E s es).map Tx.id).Nodup := by
  induction es generalizing s with
  | nil =>
    cases hrun
    exact ⟨rfl, List.nodup_nil⟩
  | cons e es ih =>
    obtain ⟨m, hm, hrest⟩ := Steps.run_cons.mp hrun
    obtain ⟨hdb, hnodup⟩ := ih (h.step hm) hrest
    obtain ⟨hfirst, hmoved⟩ := step_serial h hm
    simp only [commits, hm, List.foldl_append, List.map_append]
    refine ⟨by rw [hdb, hfirst], ?_⟩
    cases hc : committed s e with
    | none => exact hnodup
    | some tx =>
      obtain ⟨a, hf, ha⟩ := (hmoved tx hc).2
      exact List.nodup_cons.mpr ⟨not_in_commits (h.step hm) hrest hf ha, hnodup⟩

/-- From a database the back end has written, whatever the workers do. -/
theorem settlements_serializable {E : Engines} {db : Db} {s : Cluster} {es : List Event} (h : FromCreate E db)
    (hrun : Steps.run (step E) (Cluster.start db) es = some s) :
    s.db = (commits E (Cluster.start db) es).foldl (Tx.alone E) db ∧
      ((commits E (Cluster.start db) es).map Tx.id).Nodup :=
  run_serial (Inv.start h) hrun

/-- The two workers of `firstSettles` on one lot: one transaction commits, and the table is what it
makes of the first one alone. -/
theorem settlements_serializable_lot : ∃ s : Cluster, ∃ tx : Tx,
    Steps.run (step decimalEngines)
      (Cluster.start (created decimalEngines noAuctions 0 (.ofDigit 0) newLot)) firstSettles = some s ∧
    tx.price = some "12.00" ∧
    s.db = tx.alone decimalEngines (created decimalEngines noAuctions 0 (.ofDigit 0) newLot) := by
  obtain ⟨s, hrun, -⟩ := Steps.exists_of_check (step decimalEngines)
    (Cluster.start (created decimalEngines noAuctions 0 (.ofDigit 0) newLot)) firstSettles
    (fun _ : Cluster => true) (by decide +kernel)
  have hstart : FromCreate decimalEngines (created decimalEngines noAuctions 0 (.ofDigit 0) newLot) :=
    (FromCreate.empty noAuctions rfl rfl).created _ _ _
  obtain ⟨tx, htx, hprice⟩ : ∃ tx : Tx, commits decimalEngines
      (Cluster.start (created decimalEngines noAuctions 0 (.ofDigit 0) newLot)) firstSettles = [tx] ∧
        tx.price = some "12.00" := by
    obtain ⟨tx, htx⟩ := List.length_eq_one_iff.mp (show (commits decimalEngines (Cluster.start
      (created decimalEngines noAuctions 0 (.ofDigit 0) newLot)) firstSettles).length = 1 by decide +kernel)
    refine ⟨tx, htx, ?_⟩
    have hall : (commits decimalEngines (Cluster.start
      (created decimalEngines noAuctions 0 (.ofDigit 0) newLot)) firstSettles).all
        (fun tx => decide (tx.price = some "12.00")) = true := by decide +kernel
    simpa [htx] using hall
  have hserial := (settlements_serializable hstart hrun).1
  rw [htx] at hserial
  exact ⟨s, tx, hrun, hprice, hserial⟩

end Synora.Ledger
