import Mathlib.Logic.Function.Basic
import Synora.Create
import Synora.SettleTx
import Synora.Lib.Steps

/- Any number of workers running `Worker.settle` on one database, statement by
   statement. A transaction keeps the statements it has executed; it sees the
   committed database with these applied, and a commit makes what it sees the
   committed database. `SELECT … FOR UPDATE` waits until no other transaction
   holds the row and then reads the committed row. The values of MGET are
   arbitrary, and a worker may stop or fail at every point.

   Correspondence (Go ↔ Lean):
     a row of the scan                        ↔ `Event.scanned`
     `w.Redis.MGet(…)`                        ↔ `Event.read`
     `w.DB.BeginTx(…)`                        ↔ `Event.begin`
     `select status … for update`             ↔ `Event.lock`
     `tx.Exec(…)` and the branch after it     ↔ `Event.exec`, `Tx.stmt`, `Tx.after`
     `tx.Commit(…)`                           ↔ `Event.commit`
     an error or a crash, `tx.Rollback(…)`    ↔ `Event.stop`, `Cluster.release` -/
namespace Synora.Ledger

/-! ## Transactions -/

inductive Stmt where
  | close
  | insertWinner (user price : String)
  | settle (price user : String)
  deriving DecidableEq

/-- One statement of the transaction on the row `u`. -/
def Stmt.exec (E : Engines) (now : Int) (u : Uuid) : Stmt → Db → Except SettleError Db
  | .close, db => (updateClosed db now u).mapError .sql
  | .insertWinner user price, db => (Synora.insertWinner E db u user price).mapError .sql
  | .settle price user, db => (updateSettled E db now u price user).mapError .sql

inductive TxPc where
  | closing
  | inserting (priceStr user : String)
  | settling (priceStr user : String)
  | committing
  deriving DecidableEq

/-- A transaction that holds its row: `log` are the statements it has executed. -/
structure Tx where
  id : Uuid
  now : Int
  price : Option String
  leader : Option String
  pc : TxPc
  log : List Stmt
  deriving DecidableEq

/-- The statement to execute next. -/
def Tx.stmt (tx : Tx) : Option Stmt :=
  match tx.pc with
  | .closing => some .close
  | .inserting priceStr user => some (.insertWinner user priceStr)
  | .settling priceStr user => some (.settle priceStr user)
  | .committing => none

/-- Where `settle` goes when the statement has succeeded; `none` is the error return. -/
def Tx.after (tx : Tx) : Option TxPc :=
  match tx.pc with
  | .closing =>
    match nonEmpty tx.price, nonEmpty tx.leader with
    | some priceStr, some user => some (.inserting priceStr user)
    | some _, none => some .committing
    -- `leader exists without price`
    | none, some _ => none
    | none, none => some .committing
  | .inserting priceStr user => some (.settling priceStr user)
  | .settling _ _ => some .committing
  | .committing => none

/-- What the transaction sees: the committed database and its own statements. -/
def Tx.view (E : Engines) (tx : Tx) (db : Db) : Except SettleError Db :=
  tx.log.foldlM (fun db st => st.exec E tx.now tx.id db) db

/-- The transaction after one more statement. -/
def Tx.push (tx : Tx) (pc : TxPc) (st : Stmt) : Tx := { tx with pc := pc, log := tx.log ++ [st] }

/-! ## Workers -/

inductive WorkerState where
  | idle
  | reading (u : Uuid)
  | beginning (u : Uuid) (price leader : Option String)
  | locking (u : Uuid) (now : Int) (price leader : Option String)
  | inTx (tx : Tx)
  deriving DecidableEq

structure Cluster where
  db : Db
  locks : Uuid → Option Nat
  worker : Nat → WorkerState

inductive Event where
  | scanned (k : Nat) (u : Uuid)
  | read (k : Nat) (price leader : Option String)
  | begin (k : Nat) (now : Int)
  | lock (k : Nat)
  | exec (k : Nat)
  | commit (k : Nat)
  | stop (k : Nat)

def Cluster.setWorker (s : Cluster) (k : Nat) (st : WorkerState) : Cluster :=
  { s with worker := Function.update s.worker k st }

def Cluster.setLock (s : Cluster) (u : Uuid) (holder : Option Nat) : Cluster :=
  { s with locks := Function.update s.locks u holder }

/-- The transaction of worker `k` on `u` ends and its row is free again. -/
def Cluster.release (s : Cluster) (k : Nat) (u : Uuid) : Cluster :=
  (s.setWorker k .idle).setLock u none

/-- The lock is granted on an ACTIVE row; on any other `settle` returns at once. -/
def Cluster.acquire (s : Cluster) (k : Nat) (u : Uuid) (now : Int) (price leader : Option String) :
    Cluster :=
  match s.db.find u with
  | none => s.setWorker k .idle
  | some a =>
    if a.status = .ACTIVE then
      (s.setWorker k (.inTx ⟨u, now, price, leader, .closing, []⟩)).setLock u (some k)
    else s.setWorker k .idle

/-- A statement of the transaction, or its rollback. -/
def Cluster.execute (E : Engines) (s : Cluster) (k : Nat) (tx : Tx) (st : Stmt) : Cluster :=
  match tx.after with
  | none => s.release k tx.id
  | some pc =>
    match (tx.push pc st).view E s.db with
    | .error _ => s.release k tx.id
    | .ok _ => s.setWorker k (.inTx (tx.push pc st))

def step (E : Engines) (s : Cluster) : Event → Option Cluster
  | .scanned k u =>
    match s.worker k with
    | .idle => some (s.setWorker k (.reading u))
    | _ => none
  | .read k price leader =>
    match s.worker k with
    | .reading u => some (s.setWorker k (.beginning u price leader))
    | _ => none
  | .begin k now =>
    match s.worker k with
    | .beginning u price leader => some (s.setWorker k (.locking u now price leader))
    | _ => none
  | .lock k =>
    match s.worker k with
    | .locking u now price leader =>
      match s.locks u with
      | none => some (s.acquire k u now price leader)
      | some _ => none
    | _ => none
  | .exec k =>
    match s.worker k with
    | .inTx tx => tx.stmt.map (s.execute E k tx)
    | _ => none
  | .commit k =>
    match s.worker k with
    | .inTx tx =>
      match tx.pc, tx.view E s.db with
      | .committing, .ok db => some ({ s with db := db }.release k tx.id)
      | _, _ => none
    | _ => none
  | .stop k =>
    match s.worker k with
    | .inTx tx => some (s.release k tx.id)
    | _ => some (s.setWorker k .idle)

/-- No worker has started. -/
def Cluster.start (db : Db) : Cluster := ⟨db, fun _ => none, fun _ => .idle⟩

@[simp] theorem Cluster.setWorker_self (s : Cluster) (k : Nat) (st : WorkerState) :
    (s.setWorker k st).worker k = st := by simp [setWorker]

theorem Cluster.setWorker_ne (s : Cluster) {k j : Nat} (st : WorkerState) (h : j ≠ k) :
    (s.setWorker k st).worker j = s.worker j := by simp [setWorker, h]

@[simp] theorem Cluster.setWorker_db (s : Cluster) (k : Nat) (st : WorkerState) :
    (s.setWorker k st).db = s.db := rfl

@[simp] theorem Cluster.setWorker_locks (s : Cluster) (k : Nat) (st : WorkerState) :
    (s.setWorker k st).locks = s.locks := rfl

@[simp] theorem Cluster.release_db (s : Cluster) (k : Nat) (u : Uuid) : (s.release k u).db = s.db := rfl

/-- A worker that moves without entering a transaction. -/
theorem moved_outside {s : Cluster} {k : Nat} {st st' : WorkerState} (hw : s.worker k = st)
    (hst : ∀ tx, st ≠ .inTx tx) (hst' : ∀ tx, st' ≠ .inTx tx) : ∃ j st₁,
      s.setWorker k st' = s.setWorker j st₁ ∧ (∀ tx, st₁ ≠ .inTx tx) ∧
        ∀ tx, s.worker j ≠ .inTx tx :=
  ⟨k, st', rfl, hst', fun tx h => hst tx (hw.symm.trans h)⟩

/-- The lock statement finds no ACTIVE row, or its row. -/
theorem Cluster.acquire_cases (s : Cluster) (k : Nat) (u : Uuid) (now : Int)
    (price leader : Option String) :
    s.acquire k u now price leader = s.setWorker k .idle ∨
    ∃ a, s.db.find u = some a ∧ a.status = .ACTIVE ∧ s.acquire k u now price leader =
      (s.setWorker k (.inTx ⟨u, now, price, leader, .closing, []⟩)).setLock u (some k) := by
  unfold Cluster.acquire
  split
  · exact .inl rfl
  · next a hf =>
    split
    · next hact => exact .inr ⟨a, hf, hact, rfl⟩
    · exact .inl rfl

/-- A statement ends the transaction, or it goes on. -/
theorem Cluster.execute_cases (E : Engines) (s : Cluster) (k : Nat) (tx : Tx) (st : Stmt) :
    s.execute E k tx st = s.release k tx.id ∨
    ∃ pc, tx.after = some pc ∧ s.execute E k tx st = s.setWorker k (.inTx (tx.push pc st)) := by
  unfold Cluster.execute
  split
  · exact .inl rfl
  · next pc hafter =>
    split
    · exact .inl rfl
    · exact .inr ⟨pc, hafter, rfl⟩

/-- **What an event can do.** A worker outside a transaction moves, gets its lock on an ACTIVE
row, executes a statement, or its transaction ends without effect or commits. -/
theorem step_cases {E : Engines} {s s' : Cluster} {e : Event} (h : step E s e = some s') :
    (∃ k st, s' = s.setWorker k st ∧ (∀ tx, st ≠ .inTx tx) ∧ ∀ tx, s.worker k ≠ .inTx tx) ∨
    (∃ k u now price leader a, (∀ tx, s.worker k ≠ .inTx tx) ∧ s.locks u = none ∧
      s.db.find u = some a ∧ a.status = .ACTIVE ∧
      s' = (s.setWorker k (.inTx ⟨u, now, price, leader, .closing, []⟩)).setLock u (some k)) ∨
    (∃ k tx pc st, s.worker k = .inTx tx ∧ tx.stmt = some st ∧ tx.after = some pc ∧
      s' = s.setWorker k (.inTx (tx.push pc st))) ∨
    (∃ k tx, s.worker k = .inTx tx ∧ s' = s.release k tx.id) ∨
    (∃ k tx db, s.worker k = .inTx tx ∧ tx.pc = .committing ∧ tx.view E s.db = .ok db ∧
      s' = { s with db := db }.release k tx.id) := by
  cases e with
  | scanned k u =>
    simp only [step] at h
    split at h
    · next hw =>
      cases h
      exact .inl (moved_outside hw (by simp) (by simp))
    · cases h
  | read k price leader =>
    simp only [step] at h
    split at h
    · next u hw =>
      cases h
      exact .inl (moved_outside hw (by simp) (by simp))
    · cases h
  | begin k now =>
    simp only [step] at h
    split at h
    · next u price leader hw =>
      cases h
      exact .inl (moved_outside hw (by simp) (by simp))
    · cases h
  | lock k =>
    simp only [step] at h
    split at h
    · next u now price leader hw =>
      split at h
      · next hfree =>
        cases h
        rcases s.acquire_cases k u now price leader with hidle | ⟨a, hf, hact, hlocked⟩
        · rw [hidle]
          exact .inl (moved_outside hw (by simp) (by simp))
        · refine .inr (.inl ⟨k, u, now, price, leader, a, fun tx ht => ?_, hfree, hf, hact, hlocked⟩)
          rw [hw] at ht
          cases ht
      · cases h
    · cases h
  | exec k =>
    simp only [step] at h
    split at h
    · next tx hw =>
      obtain ⟨st, hst, rfl⟩ := Option.map_eq_some_iff.mp h
      rcases s.execute_cases E k tx st with hend | ⟨pc, hafter, hon⟩
      · exact .inr (.inr (.inr (.inl ⟨k, tx, hw, hend⟩)))
      · exact .inr (.inr (.inl ⟨k, tx, pc, st, hw, hst, hafter, hon⟩))
    · cases h
  | commit k =>
    simp only [step] at h
    split at h
    · next tx hw =>
      split at h
      · next db hpc hview =>
        cases h
        exact .inr (.inr (.inr (.inr ⟨k, tx, db, hw, hpc, hview, rfl⟩)))
      · cases h
    · cases h
  | stop k =>
    simp only [step] at h
    split at h
    · next tx hw =>
      cases h
      exact .inr (.inr (.inr (.inl ⟨k, tx, hw, rfl⟩)))
    · next hw =>
      cases h
      exact .inl (moved_outside rfl hw (by simp))

/-! ## The transaction as a whole -/

/-- The statements executed are those the branches of `settle` lead through. -/
def Tx.Ok (tx : Tx) : Prop :=
  match tx.pc with
  | .closing => tx.log = []
  | .inserting priceStr user =>
    nonEmpty tx.price = some priceStr ∧ nonEmpty tx.leader = some user ∧ tx.log = [.close]
  | .settling priceStr user =>
    nonEmpty tx.price = some priceStr ∧ nonEmpty tx.leader = some user ∧
      tx.log = [.close, .insertWinner user priceStr]
  | .committing =>
    (nonEmpty tx.leader = none ∧ tx.log = [.close]) ∨
    ∃ priceStr user, nonEmpty tx.price = some priceStr ∧ nonEmpty tx.leader = some user ∧
      tx.log = [.close, .insertWinner user priceStr, .settle priceStr user]

theorem Tx.Ok.push {tx : Tx} {pc : TxPc} {st : Stmt} (h : tx.Ok) (hst : tx.stmt = some st)
    (hafter : tx.after = some pc) : (tx.push pc st).Ok := by
  obtain ⟨id, now, price, leader, pc₀, log⟩ := tx
  cases pc₀ with
  | closing =>
    cases hst
    have hlog : log = [] := h
    subst hlog
    simp only [Tx.after] at hafter
    split at hafter
    · next priceStr user hp hl =>
      cases hafter
      exact ⟨hp, hl, rfl⟩
    · next hl =>
      cases hafter
      exact .inl ⟨hl, rfl⟩
    · cases hafter
    · next hl =>
      cases hafter
      exact .inl ⟨hl, rfl⟩
  | inserting priceStr user =>
    obtain ⟨hp, hl, hlog⟩ := h
    have hlog' : log = [.close] := hlog
    subst hlog'
    cases hst
    cases hafter
    exact ⟨hp, hl, rfl⟩
  | settling priceStr user =>
    obtain ⟨hp, hl, hlog⟩ := h
    have hlog' : log = [.close, .insertWinner user priceStr] := hlog
    subst hlog'
    cases hst
    cases hafter
    exact .inr ⟨priceStr, user, hp, hl, rfl⟩
  | committing => cases hst

/-- What a transaction sees at its end is what `settleRow` makes of the committed database. -/
theorem Tx.Ok.settleRow {E : Engines} {tx : Tx} {db db' : Db} (h : tx.Ok) (hpc : tx.pc = .committing)
    (hview : tx.view E db = .ok db') :
    ∃ o, Synora.settleRow E db tx.now tx.id tx.price tx.leader = .ok (db', o) := by
  unfold Tx.Ok at h
  rw [hpc] at h
  unfold Tx.view at hview
  unfold Synora.settleRow
  rcases h with ⟨hl, hlog⟩ | ⟨priceStr, user, hp, hl, hlog⟩
  · rw [hlog] at hview
    have hclose : (updateClosed db tx.now tx.id).mapError SettleError.sql = .ok db' := by
      simpa [Stmt.exec] using hview
    rw [hclose, hl]
    cases nonEmpty tx.price <;> exact ⟨_, rfl⟩
  · rw [hlog] at hview
    rw [hp, hl]
    cases h1 : (updateClosed db tx.now tx.id).mapError SettleError.sql with
    | error e => simp [Stmt.exec, h1, bind, Except.bind] at hview
    | ok db₁ =>
      cases h2 : (Synora.insertWinner E db₁ tx.id user priceStr).mapError SettleError.sql with
      | error e => simp [Stmt.exec, h1, h2, bind, Except.bind] at hview
      | ok db₂ =>
        cases h3 : (updateSettled E db₂ tx.now tx.id priceStr user).mapError SettleError.sql with
        | error e => simp [Stmt.exec, h1, h2, h3, bind, Except.bind] at hview
        | ok db₃ =>
          have he : db₃ = db' := by
            simpa [Stmt.exec, h1, h2, h3, bind, Except.bind, pure, Except.pure] using hview
          subst he
          exact ⟨.committed .SETTLED priceStr (some user),
            by simp [h2, h3, bind, Except.bind, pure, Except.pure]⟩

/-- **A commit is one atomic transaction** on the database it is made to. -/
theorem Tx.Ok.settleTx {E : Engines} {tx : Tx} {db db' : Db} {a : Auction} (h : tx.Ok)
    (hpc : tx.pc = .committing) (hview : tx.view E db = .ok db') (hf : db.find tx.id = some a)
    (hact : a.status = .ACTIVE) :
    (Synora.settleTx E db tx.now tx.id.text tx.price tx.leader).1 = db' := by
  obtain ⟨o, hrow⟩ := h.settleRow hpc hview
  simp [Synora.settleTx, hf, hact, hrow]

/-! ## The ledger -/

/-- The winning bids of a row are what its columns say. -/
def Matches (bids : List Bid) (a : Auction) : Prop :=
  (a.status = .SETTLED ∧ ∃ b, winners bids a.id = [b] ∧ a.winnerId = some b.userId ∧
    a.currentHighPrice = some b.amount) ∨
  (a.status ≠ .SETTLED ∧ winners bids a.id = [])

/-- The ledger matches every row. -/
def LedgerOk (db : Db) : Prop := ∀ u a, db.find u = some a → Matches db.bids a

theorem winners_append_ne {bids : List Bid} {b : Bid} {u : Uuid} (h : b.auctionId ≠ u) :
    winners (bids ++ [b]) u = winners bids u := by
  simp [winners, List.filter_append, h]

theorem winners_append_self {bids : List Bid} {b : Bid} (h : b.isWinningBid = true) :
    winners (bids ++ [b]) b.auctionId = winners bids b.auctionId ++ [b] := by
  simp [winners, List.filter_append, h]

/-- Closing a row leaves the ledger as it is, and the row without a winner. -/
theorem LedgerOk.closed {db db' : Db} {u : Uuid} {a : Auction} {now : Int} (h : LedgerOk db)
    (hf : db.find u = some a) (hact : a.status = .ACTIVE)
    (hr : Rewrites db db' u (a.toAuctionRow.closed now)) : LedgerOk db' := by
  intro j c hc
  rw [hr.bids]
  by_cases hj : j = u
  · subst hj
    obtain ⟨a', hf', ha'⟩ := hr.row
    rw [hf'] at hc
    cases hc
    have hid : c.id = a.id := by rw [ha']; rfl
    refine .inr ⟨by rw [ha']; simp, ?_⟩
    rw [hid]
    rcases h j a hf with ⟨hs, -⟩ | ⟨-, hw⟩
    · rw [hact] at hs; cases hs
    · exact hw
  · rw [hr.others j hj] at hc
    exact h j c hc

/-- Settling a row adds its winner: the ledger had none. -/
theorem LedgerOk.settled {db db' : Db} {u w : Uuid} {a : Auction} {now : Int} {p : Numeric}
    (h : LedgerOk db) (hf : db.find u = some a) (hact : a.status = .ACTIVE)
    (hr : SettledBy db db' now u a w p) : LedgerOk db' := by
  have hid := Db.find_id hf
  have hnone : winners db.bids u = [] := by
    rcases h u a hf with ⟨hs, -⟩ | ⟨-, hw⟩
    · rw [hact] at hs; cases hs
    · rw [← hid]; exact hw
  rcases hr.bids with ⟨b, hb1, hb2, hb3, hb4, hb5, -⟩ | ⟨-, hw⟩
  · intro j c hc
    rw [hb5]
    by_cases hj : j = u
    · subst hj
      obtain ⟨a', hf', ha'⟩ := hr.row
      rw [hf'] at hc
      cases hc
      have hid' : c.id = b.auctionId := by rw [Db.find_id hf', hb1]
      refine .inl ⟨by rw [ha']; simp, b, ?_, ?_, ?_⟩
      · rw [hid', winners_append_self hb4, hb1, hnone]
        rfl
      · rw [ha', hb2]
        rfl
      · rw [ha', hb3]
        rfl
    · rw [hr.others j hj] at hc
      have hne : b.auctionId ≠ c.id := by
        rw [hb1, Db.find_id hc]
        exact fun he => hj he.symm
      unfold Matches
      rw [winners_append_ne hne]
      exact h j c hc
  -- the insert found a winner of a row that had none
  · exact absurd hnone hw

/-- **What a commit does**: one ACTIVE row changes, and the ledger matches again. -/
theorem commit_ok {E : Engines} {tx : Tx} {db db' : Db} {a : Auction} (h : tx.Ok)
    (hpc : tx.pc = .committing) (hview : tx.view E db = .ok db') (hf : db.find tx.id = some a)
    (hact : a.status = .ACTIVE) (hledger : LedgerOk db) :
    LedgerOk db' ∧ ∀ j, j ≠ tx.id → db'.find j = db.find j := by
  obtain ⟨o, hrow⟩ := h.settleRow hpc hview
  rcases settleRow_ok hf hrow with ⟨-, -, hr⟩ | ⟨ps, us, w, p, -, -, -, -, -, hr⟩
  · exact ⟨hledger.closed hf hact hr, hr.others⟩
  · exact ⟨hledger.settled hf hact hr, hr.others⟩

/-! ## The invariant -/

/-- Every transaction holds the lock of its row, which stays ACTIVE until it commits; every
lock is held by a transaction; and the ledger matches. -/
structure Inv (s : Cluster) : Prop where
  inTx : ∀ k tx, s.worker k = .inTx tx → tx.Ok ∧ s.locks tx.id = some k ∧
    ∃ a, s.db.find tx.id = some a ∧ a.status = .ACTIVE
  held : ∀ u k, s.locks u = some k → ∃ tx, s.worker k = .inTx tx ∧ tx.id = u
  ledger : LedgerOk s.db

/-- A worker moves outside transactions. -/
theorem Inv.moved {s : Cluster} {k : Nat} {st : WorkerState} (h : Inv s) (hst : ∀ tx, st ≠ .inTx tx)
    (hno : ∀ tx, s.worker k ≠ .inTx tx) : Inv (s.setWorker k st) where
  inTx := by
    intro j tx hj
    by_cases hjk : j = k
    · subst hjk
      rw [Cluster.setWorker_self] at hj
      exact absurd hj (hst tx)
    · rw [Cluster.setWorker_ne s st hjk] at hj
      exact h.inTx j tx hj
  held := by
    intro u j hu
    obtain ⟨tx, hj, hid⟩ := h.held u j hu
    have hjk : j ≠ k := by
      intro he
      subst he
      exact hno tx hj
    exact ⟨tx, by rw [Cluster.setWorker_ne s st hjk]; exact hj, hid⟩
  ledger := h.ledger

/-- A worker gets its lock. -/
theorem Inv.locked {s : Cluster} {k : Nat} {a : Auction} (tx : Tx) (h : Inv s)
    (hno : ∀ tx, s.worker k ≠ .inTx tx) (hfree : s.locks tx.id = none) (hok : tx.Ok)
    (hf : s.db.find tx.id = some a) (hact : a.status = .ACTIVE) :
    Inv ((s.setWorker k (.inTx tx)).setLock tx.id (some k)) where
  inTx := by
    intro j tx' hj
    by_cases hjk : j = k
    · subst hjk
      have htx : WorkerState.inTx tx = .inTx tx' := by
        rw [← hj]
        simp [Cluster.setLock]
      cases htx
      exact ⟨hok, by simp [Cluster.setLock], a, hf, hact⟩
    · have hj' : s.worker j = .inTx tx' := by
        rw [← Cluster.setWorker_ne s (.inTx tx) hjk]
        exact hj
      obtain ⟨hok', hlock, hrow⟩ := h.inTx j tx' hj'
      have hne : tx'.id ≠ tx.id := by
        intro he
        rw [he, hfree] at hlock
        cases hlock
      exact ⟨hok', by simpa [Cluster.setLock, hne] using hlock, hrow⟩
  held := by
    intro u j hu
    by_cases hut : u = tx.id
    · subst hut
      have hjk : k = j := by simpa [Cluster.setLock] using hu
      subst hjk
      exact ⟨tx, by simp [Cluster.setLock], rfl⟩
    · have hu' : s.locks u = some j := by simpa [Cluster.setLock, hut] using hu
      obtain ⟨tx', hj, hid⟩ := h.held u j hu'
      have hjk : j ≠ k := by
        intro he
        subst he
        exact hno tx' hj
      refine ⟨tx', ?_, hid⟩
      show (s.setWorker k (.inTx tx)).worker j = _
      rw [Cluster.setWorker_ne s _ hjk]
      exact hj
  ledger := h.ledger

/-- A transaction executes a statement. -/
theorem Inv.executed {s : Cluster} {k : Nat} {tx tx' : Tx} (h : Inv s) (hk : s.worker k = .inTx tx)
    (hid : tx'.id = tx.id) (hok : tx'.Ok) : Inv (s.setWorker k (.inTx tx')) where
  inTx := by
    intro j tx'' hj
    by_cases hjk : j = k
    · subst hjk
      rw [Cluster.setWorker_self] at hj
      cases hj
      obtain ⟨-, hlock, hrow⟩ := h.inTx j tx hk
      rw [hid]
      exact ⟨hok, hlock, hrow⟩
    · rw [Cluster.setWorker_ne s _ hjk] at hj
      exact h.inTx j tx'' hj
  held := by
    intro u j hu
    obtain ⟨tx'', hj, hu'⟩ := h.held u j hu
    by_cases hjk : j = k
    · subst hjk
      rw [hk] at hj
      cases hj
      exact ⟨tx', Cluster.setWorker_self s j _, hid.trans hu'⟩
    · exact ⟨tx'', by rw [Cluster.setWorker_ne s _ hjk]; exact hj, hu'⟩
  ledger := h.ledger

/-- A transaction ends, with a database that differs in its own row only. -/
theorem Inv.released {s : Cluster} {k : Nat} {tx : Tx} {db : Db} (h : Inv s)
    (hk : s.worker k = .inTx tx) (hledger : LedgerOk db)
    (hothers : ∀ j, j ≠ tx.id → db.find j = s.db.find j) :
    Inv ({ s with db := db }.release k tx.id) where
  inTx := by
    intro j tx' hj
    by_cases hjk : j = k
    · subst hjk
      simp [Cluster.release, Cluster.setLock, Cluster.setWorker] at hj
    · have hj' : s.worker j = .inTx tx' := by
        simpa [Cluster.release, Cluster.setLock, Cluster.setWorker, hjk] using hj
      obtain ⟨hok, hlock, hrow⟩ := h.inTx j tx' hj'
      -- the lock of the row had one holder
      have hne : tx'.id ≠ tx.id := by
        intro he
        rw [he, (h.inTx k tx hk).2.1] at hlock
        cases hlock
        exact hjk rfl
      refine ⟨hok, by simpa [Cluster.release, Cluster.setLock, hne] using hlock, ?_⟩
      show ∃ a, db.find tx'.id = some a ∧ _
      rw [hothers tx'.id hne]
      exact hrow
  held := by
    intro u j hu
    have hut : u ≠ tx.id := by
      intro he
      subst he
      simp [Cluster.release, Cluster.setLock] at hu
    have hu' : s.locks u = some j := by simpa [Cluster.release, Cluster.setLock, hut] using hu
    obtain ⟨tx', hj, hid⟩ := h.held u j hu'
    have hjk : j ≠ k := by
      intro he
      subst he
      rw [hk] at hj
      cases hj
      exact hut hid.symm
    exact ⟨tx', by simpa [Cluster.release, Cluster.setLock, Cluster.setWorker, hjk] using hj, hid⟩
  ledger := hledger

/-- **The step lemma.** -/
theorem Inv.step {E : Engines} {s s' : Cluster} {e : Event} (h : Inv s)
    (hst : Ledger.step E s e = some s') : Inv s' := by
  rcases step_cases hst with ⟨k, st, rfl, hne, hno⟩ |
      ⟨k, u, now, price, leader, a, hno, hfree, hf, hact, rfl⟩ |
      ⟨k, tx, pc, st, hk, hstmt, hafter, rfl⟩ | ⟨k, tx, hk, rfl⟩ | ⟨k, tx, db, hk, hpc, hview, rfl⟩
  · exact h.moved hne hno
  · exact h.locked ⟨u, now, price, leader, .closing, []⟩ hno hfree rfl hf hact
  · exact h.executed hk rfl ((h.inTx k tx hk).1.push hstmt hafter)
  · exact h.released hk h.ledger fun _ _ => rfl
  · obtain ⟨hok, -, a, hf, hact⟩ := h.inTx k tx hk
    obtain ⟨hledger, hothers⟩ := commit_ok hok hpc hview hf hact h.ledger
    exact h.released hk hledger hothers

/-- A row that is not ACTIVE is not touched: a commit changes the ACTIVE row it has locked. -/
theorem Inv.step_row {E : Engines} {s s' : Cluster} {e : Event} {u : Uuid} {a : Auction} (h : Inv s)
    (hst : Ledger.step E s e = some s') (hf : s.db.find u = some a) (ha : a.status ≠ .ACTIVE) :
    s'.db.find u = some a := by
  rcases step_cases hst with ⟨k, st, rfl, -, -⟩ | ⟨k, v, now, price, leader, b, -, -, -, -, rfl⟩ |
      ⟨k, tx, pc, st, -, -, -, rfl⟩ | ⟨k, tx, -, rfl⟩ | ⟨k, tx, db, hk, hpc, hview, rfl⟩
  · exact hf
  · exact hf
  · exact hf
  · exact hf
  · obtain ⟨hok, -, b, hfb, hact⟩ := h.inTx k tx hk
    obtain ⟨-, hothers⟩ := commit_ok hok hpc hview hfb hact h.ledger
    have hne : u ≠ tx.id := by
      intro he
      subst he
      rw [hfb] at hf
      cases hf
      exact ha hact
    show db.find u = some a
    rw [hothers u hne]
    exact hf

theorem Inv.start {E : Engines} {db : Db} (h : FromCreate E db) : Inv (Cluster.start db) where
  inTx := by
    intro k tx hk
    cases hk
  held := by
    intro u k hu
    cases hu
  ledger := by
    intro u a hf
    obtain ⟨hbids, hrows⟩ := h.rows
    have hrow := hrows a (Db.find_mem hf)
    refine .inr ⟨?_, ?_⟩
    · rcases hrow.status with hs | hs <;> rw [hs] <;> intro he <;> cases he
    · show winners db.bids a.id = []
      rw [hbids]
      rfl

theorem Inv.run {E : Engines} {s s' : Cluster} {es : List Event} (h : Inv s)
    (hr : Steps.run (Ledger.step E) s es = some s') : Inv s' :=
  Steps.reach_invariant (I := Inv) (fun _ _ _ hI _ hst => hI.step hst) h (Steps.reach_run hr)

/-- A row that has left ACTIVE stays as it is for ever. -/
theorem Inv.run_row {E : Engines} {s s' : Cluster} {es : List Event} {u : Uuid} {a : Auction}
    (h : Inv s) (hr : Steps.run (Ledger.step E) s es = some s') (hf : s.db.find u = some a)
    (ha : a.status ≠ .ACTIVE) : s'.db.find u = some a := by
  have hall : Inv s' ∧ s'.db.find u = some a :=
    Steps.reach_invariant (I := fun t => Inv t ∧ t.db.find u = some a)
      (fun t e t' hI _ hst => ⟨hI.1.step hst, hI.1.step_row hst hI.2 ha⟩) ⟨h, hf⟩ (Steps.reach_run hr)
  exact hall.2

/-- **Settlement happens once and the ledger matches the row.** From auctions inserted by
`createAuction` and an empty ledger, after any steps of any workers: a row that is not ACTIVE
never changes again; and a winning bid exists exactly for the SETTLED rows, exactly one for
each, with the winner and the price of the row. -/
theorem settled_once_ledger_matches {E : Engines} {db : Db} {s s' : Cluster} {es es' : List Event}
    (h : FromCreate E db) (hrun : Steps.run (step E) (Cluster.start db) es = some s)
    (hrun' : Steps.run (step E) s es' = some s') :
    (∀ u a, s.db.find u = some a → a.status ≠ .ACTIVE → s'.db.find u = some a) ∧
    (∀ a ∈ s.db.auctions, (winners s.db.bids a.id ≠ [] ↔ a.status = .SETTLED) ∧
      (a.status = .SETTLED → ∃ b, winners s.db.bids a.id = [b] ∧ a.winnerId = some b.userId ∧
        a.currentHighPrice = some b.amount)) := by
  have hinv : Inv s := (Inv.start h).run hrun
  refine ⟨fun u a hf ha => hinv.run_row hrun' hf ha, ?_⟩
  intro a hmem
  rcases hinv.ledger a.id a (Db.find_of_mem hmem) with ⟨hs, b, hw, hwin, hprice⟩ | ⟨hs, hw⟩
  · refine ⟨⟨fun _ => hs, fun _ => ?_⟩, fun _ => ⟨b, hw, hwin, hprice⟩⟩
    rw [hw]
    exact List.cons_ne_nil _ _
  · refine ⟨⟨fun hne => absurd hw hne, fun he => absurd he hs⟩, fun he => absurd he hs⟩

/-! ## A run of two workers -/

/-- An ACTIVE lot at 10.00, from the Unix epoch to one second after it. -/
def newLot : AuctionInput := ⟨"lot", none, "10.00", 0, 1000000000, "ACTIVE"⟩

/-- Worker 0 settles with a bid of 12.00 while worker 1, which has read 11.00, waits. -/
def firstSettles : List Event :=
  [.scanned 0 (.ofDigit 0), .scanned 1 (.ofDigit 0), .read 1 "11.00" (Uuid.ofDigit 2).text,
    .read 0 "12.00" (Uuid.ofDigit 1).text, .begin 1 0, .begin 0 0, .lock 0, .exec 0, .exec 0, .exec 0,
    .commit 0]

theorem settled_once_ledger_matches_lot : ∃ s s' a b,
    Steps.run (step decimalEngines)
      (Cluster.start (created decimalEngines noAuctions 0 (.ofDigit 0) newLot)) firstSettles = some s ∧
    Steps.run (step decimalEngines) s [.lock 1, .scanned 1 (.ofDigit 0)] = some s' ∧
    s.db.find (.ofDigit 0) = some a ∧ a.status = .SETTLED ∧ s'.db.find (.ofDigit 0) = some a ∧
    winners s.db.bids (.ofDigit 0) = [b] ∧ a.winnerId = some b.userId ∧
      a.currentHighPrice = some b.amount := by
  obtain ⟨s', hrun, hcheck⟩ := Steps.exists_of_check (step decimalEngines)
    (Cluster.start (created decimalEngines noAuctions 0 (.ofDigit 0) newLot)) firstSettles
    (fun s : Cluster => (s.db.find (.ofDigit 0)).any (fun a : Auction => decide (a.status = .SETTLED)) &&
      (Steps.run (step decimalEngines) s [.lock 1, .scanned 1 (.ofDigit 0)]).isSome) (by decide +kernel)
  rw [Bool.and_eq_true, Option.any_eq_true, Option.isSome_iff_exists] at hcheck
  obtain ⟨⟨a, hf, hs⟩, s'', hrun'⟩ := hcheck
  have hs' := of_decide_eq_true hs
  have hstart : FromCreate decimalEngines (created decimalEngines noAuctions 0 (.ofDigit 0) newLot) :=
    (FromCreate.empty noAuctions rfl rfl).created _ _ _
  obtain ⟨hkeep, hmatch⟩ := settled_once_ledger_matches hstart hrun hrun'
  obtain ⟨b, hw, hwin, hprice⟩ := (hmatch a (Db.find_mem hf)).2 hs'
  rw [Db.find_id hf] at hw
  refine ⟨s', s'', a, b, hrun, hrun', hf, hs', hkeep _ a hf ?_, hw, hwin, hprice⟩
  rw [hs']
  decide

end Synora.Ledger
