import Synora.HotState
import Synora.SettleTx

/- The servers the handlers and the workers call: Postgres and Redis, with one
   clock (nanoseconds since the Unix epoch). Each command is one atomic step.
   `published` is the history of messages on the channels, newest first, and
   `accepted` the history of bids the script accepted, newest first; no command
   reads either of them. -/
namespace Synora

open Expiring

/-- A message of the `auction:{id}:updates` channels. -/
inductive Message where
  | priceUpdate (auctionId currentHighPrice : String) (placedAt : Int)
  | settlement (auctionId : String) (status : AuctionStatus) (currentHighPrice : String)
      (winnerId : Option String)
  deriving DecidableEq

/-- A bid the script accepted. -/
structure Acceptance where
  auctionId : String
  user : String
  amount : String
  deriving DecidableEq

structure World where
  now : Int
  db : Db
  redis : Redis
  published : List (String × Message)
  accepted : List Acceptance

/-- The Redis clock, in milliseconds. -/
def World.redisNow (w : World) : Int := w.now / 1000000

/-- The Postgres clock, in microseconds. -/
def World.pgNow (w : World) : Int := w.now / 1000

/-- The value under a Redis key now. -/
def World.get (w : World) (key : String) : Option String := w.redis.get w.redisNow key

/-- The entry under a Redis key now. -/
def World.entry (w : World) (key : String) : Option (Entry String) := w.redis.entry w.redisNow key

/-- The status of a row. -/
def World.rowStatus (w : World) (u : Uuid) : Option AuctionStatus :=
  (w.db.find u).map (fun row => row.status)

/-- The row has been closed or settled. -/
def World.terminal (w : World) (u : Uuid) : Prop :=
  w.rowStatus u = some .CLOSED ∨ w.rowStatus u = some .SETTLED

instance (w : World) (u : Uuid) : Decidable (w.terminal u) := inferInstanceAs (Decidable (_ ∨ _))

inductive Cmd where
  /-- `select status,start_time,end_time,current_high_price,starting_price … where id=$1`. -/
  | selectRow (id : String)
  /-- The transaction of `settle`. -/
  | settleTx (id : String) (price leader : Option String)
  | setNX (key value : String)
  | set (key value : String) (ttl : Ttl)
  /-- The script of `evalBid`; `payload` is what it publishes. -/
  | evalBid (id amount user : String) (payload : Message) (ttlSeconds : Int)
  | mget (key key' : String)
  | publish (channel : String) (m : Message)
  | del (key key' : String)
  deriving DecidableEq

/-- Whether a command runs the script. -/
def Cmd.isEval : Cmd → Bool
  | .evalBid .. => true
  | _ => false

/-- Whether a command is the transaction. -/
def Cmd.isTx : Cmd → Bool
  | .settleTx .. => true
  | _ => false

inductive Reply where
  /-- A row that Scan could read. -/
  | row (status : AuctionStatus) (start «end» : Int) (current starting : String)
  | noRows
  | ok
  | script (n : Int) (value : String)
  | values (v v' : Option String)
  | tx (o : TxOutcome)
  | err
  deriving DecidableEq

/-- Scan of the columns `bid` reads: a NULL current_high_price does not fit a Go string. -/
def scanBidRow (a : Auction) : Reply :=
  match a.currentHighPrice with
  | none => .err
  | some c => .row a.status (1000 * a.startTime) (1000 * a.endTime) c.text a.startingPrice.text

/-- An accepted bid: the two keys written, the event published. -/
def World.lead (w : World) (id amount user : String) (payload : Message) (ttlSeconds : Int) : World :=
  { w with
    redis := writeLead w.redis w.redisNow id amount user ttlSeconds
    published := (updatesChannel id, payload) :: w.published
    accepted := ⟨id, user, amount⟩ :: w.accepted }

/-- One command. -/
def exec (E : Engines) (w : World) : Cmd → World × Reply
  | .selectRow id =>
    match Uuid.input id with
    | none => (w, .err)
    | some u =>
      match w.db.find u with
      | none => (w, .noRows)
      | some a => (w, scanBidRow a)
  | .settleTx id price leader =>
    let r := settleTx E w.db w.pgNow id price leader
    ({ w with db := r.1 }, .tx r.2)
  | .setNX key value => ({ w with redis := w.redis.putNX w.redisNow key value }, .ok)
  | .set key value ttl => ({ w with redis := w.redis.set w.redisNow key value ttl }, .ok)
  | .evalBid id amount user payload ttlSeconds =>
    match bidScript E w.redis w.redisNow id amount user ttlSeconds with
    | .closed => (w, .script (-1) "CLOSED")
    | .tooLow p => (w, .script 0 p)
    | .accepted r =>
      ({ w with
          redis := r
          published := (updatesChannel id, payload) :: w.published
          accepted := ⟨id, user, amount⟩ :: w.accepted }, .script 1 amount)
    | .error => (w, .err)
  | .mget key key' => (w, .values (w.get key) (w.get key'))
  | .publish channel m => ({ w with published := (channel, m) :: w.published }, .ok)
  | .del key key' => ({ w with redis := (w.redis.del key).del key' }, .ok)

/-- Time passes. -/
def World.tick (w : World) (d : Nat) : World := { w with now := w.now + d }

theorem redisNow_tick (w : World) (d : Nat) : w.redisNow ≤ (w.tick d).redisNow := by
  simp only [World.redisNow, World.tick]
  omega

theorem entry_of_tick {w : World} {d : Nat} {k : String} {e : Entry String}
    (h : (w.tick d).entry k = some e) : w.entry k = some e :=
  Store.entry_later (redisNow_tick w d) h

theorem get_of_tick {w : World} {d : Nat} {k v : String} (h : (w.tick d).get k = some v) :
    w.get k = some v := by
  obtain ⟨e, he, rfl⟩ := Store.get_eq_some.mp h
  exact Store.get_of_entry (entry_of_tick he)

theorem get_congr {w w' : World} {k : String} (h : w'.entry k = w.entry k) : w'.get k = w.get k :=
  congrArg (Option.map Entry.value) h

theorem exec_settleTx (E : Engines) (w : World) (id : String) (price leader : Option String) :
    exec E w (.settleTx id price leader) =
      ({ w with db := (settleTx E w.db w.pgNow id price leader).1 },
        .tx (settleTx E w.db w.pgNow id price leader).2) := rfl

theorem exec_selectRow_world (E : Engines) (w : World) (id : String) :
    (exec E w (.selectRow id)).1 = w := by
  simp only [exec]
  split
  · rfl
  · split <;> rfl

/-- **What the script does to the world.** It accepts and writes, or changes nothing. -/
theorem exec_evalBid_cases (E : Engines) (w : World) (id amount user : String) (m : Message) (ttl : Int) :
    ((exec E w (.evalBid id amount user m ttl)).1 = w ∧
      (∀ v, (exec E w (.evalBid id amount user m ttl)).2 ≠ .script 1 v) ∧
      ∀ r, bidScript E w.redis w.redisNow id amount user ttl ≠ .accepted r) ∨
    (bidScript E w.redis w.redisNow id amount user ttl =
        .accepted (writeLead w.redis w.redisNow id amount user ttl) ∧
      exec E w (.evalBid id amount user m ttl) = (w.lead id amount user m ttl, .script 1 amount)) := by
  simp only [exec]
  split
  · rename_i h
    exact .inl ⟨rfl, by simp, fun r hr => by rw [h] at hr; cases hr⟩
  · rename_i h
    exact .inl ⟨rfl, by simp, fun r hr => by rw [h] at hr; cases hr⟩
  · rename_i r h
    have hr := (bidScript_accepted h).2.1
    subst hr
    exact .inr ⟨h, rfl⟩
  · rename_i h
    exact .inl ⟨rfl, by simp, fun r hr => by rw [h] at hr; cases hr⟩

@[simp] theorem exec_now (E : Engines) (w : World) (c : Cmd) : (exec E w c).1.now = w.now := by
  cases c with
  | selectRow id => rw [exec_selectRow_world]
  | evalBid id amount user payload ttl =>
    rcases exec_evalBid_cases E w id amount user payload ttl with ⟨h, -⟩ | ⟨-, h⟩
    · rw [h]
    · rw [h]
      rfl
  | _ => rfl

@[simp] theorem exec_redisNow (E : Engines) (w : World) (c : Cmd) :
    (exec E w c).1.redisNow = w.redisNow := by
  simp [World.redisNow]

/-- A command that is not the transaction leaves the database alone. -/
theorem exec_db {E : Engines} {w : World} {c : Cmd} (h : ∀ id p l, c ≠ .settleTx id p l) :
    (exec E w c).1.db = w.db := by
  cases c with
  | selectRow id => rw [exec_selectRow_world]
  | evalBid id amount user payload ttl =>
    rcases exec_evalBid_cases E w id amount user payload ttl with ⟨hsame, -⟩ | ⟨-, hlead⟩
    · rw [hsame]
    · rw [hlead]
      rfl
  | settleTx id p l => exact absurd rfl (h id p l)
  | _ => rfl

/-- The transaction on the row `u` changes nothing, or finds it ACTIVE and commits. -/
theorem exec_settleTx_cases (E : Engines) (w : World) (u : Uuid) (price leader : Option String) :
    (exec E w (.settleTx u.text price leader)).1 = w ∨
    (w.rowStatus u = some .ACTIVE ∧ ∃ st ps wid,
      (exec E w (.settleTx u.text price leader)).2 = .tx (.committed st ps wid)) := by
  rcases settleTx_cases E w.db w.pgNow u.text price leader with
    ⟨e, he⟩ | ⟨he, -⟩ | ⟨v, a, hv, hf, hact, hres⟩
  · exact .inl (by rw [exec_settleTx, he])
  · exact .inl (by rw [exec_settleTx, he])
  · rw [Uuid.input_text] at hv
    cases hv
    refine .inr ⟨by simp [World.rowStatus, hf, hact], ?_⟩
    rcases hres with ⟨-, ho, -⟩ | ⟨ps, us, v, q, -, -, -, -, ho, -⟩
    · exact ⟨_, _, _, congrArg Reply.tx ho⟩
    · exact ⟨_, _, _, congrArg Reply.tx ho⟩

/-- No command changes the users. -/
theorem exec_users (E : Engines) (w : World) (c : Cmd) : (exec E w c).1.db.users = w.db.users := by
  cases c with
  | settleTx id p l =>
    rcases settleTx_cases E w.db w.pgNow id p l with
      ⟨e, he⟩ | ⟨he, -⟩ | ⟨v, a, -, -, -, ⟨-, -, hr⟩ | ⟨_, _, _, _, -, -, -, -, -, hr⟩⟩
    · rw [exec_settleTx, he]
    · rw [exec_settleTx, he]
    · exact hr.users
    · exact hr.users
  | _ => rw [exec_db (by simp)]

/-- The replies a command can get. -/
inductive Replies (E : Engines) (w : World) : Cmd → Reply → Prop
  | row (id : String) (st : AuctionStatus) (start «end» : Int) (current starting : String) :
    Replies E w (.selectRow id) (.row st start «end» current starting)
  | noRows (id : String) : Replies E w (.selectRow id) .noRows
  | unreadable (id : String) : Replies E w (.selectRow id) .err
  | tx (id : String) (p l : Option String) :
    Replies E w (.settleTx id p l) (.tx (settleTx E w.db w.pgNow id p l).2)
  | setNX (key value : String) : Replies E w (.setNX key value) .ok
  | set (key value : String) (ttl : Ttl) : Replies E w (.set key value ttl) .ok
  | script (id amount user : String) (m : Message) (ttl n : Int) (v : String) :
    Replies E w (.evalBid id amount user m ttl) (.script n v)
  | scriptError (id amount user : String) (m : Message) (ttl : Int) :
    Replies E w (.evalBid id amount user m ttl) .err
  | values (key key' : String) : Replies E w (.mget key key') (.values (w.get key) (w.get key'))
  | publish (channel : String) (m : Message) : Replies E w (.publish channel m) .ok
  | del (key key' : String) : Replies E w (.del key key') .ok

theorem exec_replies (E : Engines) (w : World) (c : Cmd) : Replies E w c (exec E w c).2 := by
  cases c with
  | selectRow id =>
    simp only [exec]
    split
    · exact .unreadable id
    · split
      · exact .noRows id
      · unfold scanBidRow
        split
        · exact .unreadable id
        · exact .row id _ _ _ _ _
  | evalBid id amount user m ttl =>
    simp only [exec]
    split
    · exact .script id amount user m ttl (-1) "CLOSED"
    · next p _ => exact .script id amount user m ttl 0 p
    · exact .script id amount user m ttl 1 amount
    · exact .scriptError id amount user m ttl
  | settleTx id p l => exact .tx id p l
  | setNX key value => exact .setNX key value
  | set key value ttl => exact .set key value ttl
  | mget key key' => exact .values key key'
  | publish channel m => exact .publish channel m
  | del key key' => exact .del key key'

/-- Only MGET returns values. -/
theorem exec_values {E : Engines} {w : World} {c : Cmd} {v v' : Option String}
    (h : (exec E w c).2 = .values v v') : ∃ k k', c = .mget k k' ∧ v = w.get k ∧ v' = w.get k' := by
  have hreply := exec_replies E w c
  rw [h] at hreply
  cases hreply with
  | values k k' => exact ⟨k, k', rfl, rfl, rfl⟩

/-- Only the transaction returns an outcome. -/
theorem exec_tx {E : Engines} {w : World} {c : Cmd} {o : TxOutcome} (h : (exec E w c).2 = .tx o) :
    ∃ id p l, c = .settleTx id p l ∧ o = (settleTx E w.db w.pgNow id p l).2 := by
  have hreply := exec_replies E w c
  rw [h] at hreply
  cases hreply with
  | tx id p l => exact ⟨id, p, l, rfl, rfl⟩

/-- Only the script returns a script result. -/
theorem exec_script {E : Engines} {w : World} {c : Cmd} {n : Int} {v : String}
    (h : (exec E w c).2 = .script n v) : ∃ id amount user m ttl, c = .evalBid id amount user m ttl := by
  have hreply := exec_replies E w c
  rw [h] at hreply
  cases hreply with
  | script id amount user m ttl => exact ⟨id, amount, user, m, ttl, rfl⟩

/-- After the worker's DEL there is no price. -/
theorem entry_del_price (E : Engines) (w : World) (id : String) :
    (exec E w (.del (priceKey id) (leaderKey id))).1.entry (priceKey id) = none :=
  (Store.entry_del_ne _ _ (priceKey_ne_leaderKey _ _)).trans (Store.entry_del_self _ _ _)

theorem entry_lead_price {w : World} {id amount user : String} {m : Message} {ttl : Int}
    (h : 0 < ttl) : (w.lead id amount user m ttl).entry (priceKey id) =
      some ⟨amount, some (w.redisNow + 1000 * ttl)⟩ :=
  (entry_writeLead_price ..).trans (if_pos (by simp only [World.redisNow, World.lead]; omega))

theorem entry_lead_leader {w : World} {id amount user : String} {m : Message} {ttl : Int}
    (h : 0 < ttl) : (w.lead id amount user m ttl).entry (leaderKey id) =
      some ⟨user, some (w.redisNow + 1000 * ttl)⟩ :=
  (entry_writeLead_leader ..).trans (if_pos (by simp only [World.redisNow, World.lead]; omega))

theorem entry_lead_ne {w : World} {id amount user : String} {m : Message} {ttl : Int} {k : String}
    (hp : k ≠ priceKey id) (hl : k ≠ leaderKey id) :
    (w.lead id amount user m ttl).entry k = w.entry k :=
  entry_writeLead_ne _ _ _ _ _ _ _ hp hl

end Synora
