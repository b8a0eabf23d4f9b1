import Synora.Auth
import Synora.Lib.Steps
import Synora.Lib.Stringify
import Synora.Lib.Utf8

/- The hub of the web sockets (hub.go). `ServeHTTP` authenticates a connection before
   anything else touches it: only then is it entered in `conns`, told AUTH_SUCCESS, and
   given a goroutine that writes and one that subscribes to the updates. Each step of
   the handler and of its goroutines is an event; the peer, Redis and the clock take
   theirs in between.

   Correspondence (Go ↔ Lean):
     `Hub`, `Conn`, `authFrame`                  ↔ `Hub`, `Conn`, `AuthFrame`
     `upgrader.Upgrade`, `SetReadDeadline`       ↔ `.accept`
     `ReadJSON(&f)` with an error                ↔ `.readFails`
     `ReadJSON(&f)`, then `jwt.Parse(…)`         ↔ `.check`, with `readAuthFrame` and `bearer`
     `hub.Validate` (main.go)                    ↔ `.validate`, with `userExists`
     `ws.WriteJSON(…)`, `ws.Close()`             ↔ `.refuse`, `.hangUp`
     `h.conns[c] = struct{}{}`, `c.write(…)`     ↔ `.register`, `.greet`
     `reader` and the deferred calls             ↔ `.readerReturns` … `.finish`
     `writer`                                    ↔ `.take`, `.write`, `.writerReturns`
     `subscribe`                                 ↔ `.subscribe`, `.receive`, `.subscriberReturns`
   Pings, pongs and the deadline of 60 seconds only decide when `reader` returns. -/
namespace Synora

open StructFields

/-! ## The first frame -/

def authFields : List (JsonField AuthFrame) := [
  { name := "type", path := [0], tagged := true, omitted := fun _ => false
    get := fun f => .str f.type, set := setField readString fun v f => { f with type := v } },
  { name := "token", path := [1], tagged := true, omitted := fun _ => false
    get := fun f => .str f.token, set := setField readString fun v f => { f with token := v } }]

/-- `ReadJSON` on the bytes of a message: the first value of them. -/
def readAuthFrame (bytes : List UInt8) : Option AuthFrame :=
  match Json.decodeNext (decode authFields ⟨"", ""⟩) (Utf8.runes bytes) with
  | .ok (f, _) => some f
  | .error _ => none

/-- `select exists(select 1 from users where id=$1)`; a text that is no UUID is an error. -/
def userExists (users : List Uuid) (sub : String) : Bool :=
  match Uuid.input sub with
  | some u => decide (u ∈ users)
  | none => false

section
variable (mac : List UInt8 → List UInt8 → List UInt8) (secret : List UInt8)

/-- The subject `authenticate` hands to `Validate`, if it gets that far. -/
def bearer (now : Int) (f : AuthFrame) : Option String :=
  if f.type ≠ "AUTH" ∨ f.token = "" then none
  else
    match Jwt.parse mac mapVerifier secret now f.token with
    | none => none
    | some claims =>
      match Jwt.lookup claims "sub" with
      | some (.str sub) => some sub
      | _ => none

/-- The two stages are `authenticate`. -/
theorem authenticate_eq_bearer (valid : String → Bool) (now : Int) (f : AuthFrame) :
    authenticate mac secret (some valid) now f = (bearer mac secret now f).any valid := by
  unfold authenticate bearer
  split
  · rfl
  · cases Jwt.parse mac mapVerifier secret now f.token with
    | none => rfl
    | some claims =>
      simp only
      cases Jwt.lookup claims "sub" with
      | none => rfl
      | some v => cases v <;> rfl

end

/-! ## A connection -/

/-- The error of `authenticate`: that of `ReadJSON`, or `context.Canceled`. -/
inductive AuthFailure where
  | reading (text : String)
  | canceled
  deriving DecidableEq

def AuthFailure.message : AuthFailure → String
  | .reading text => text
  | .canceled => "context canceled"

inductive ServerFrame where
  | authError (e : AuthFailure)
  | authSuccess
  /-- What was published, as it is. -/
  | published (payload : String)
  deriving DecidableEq

/-- Where `ServeHTTP` stands. -/
inductive Phase where
  | absent
  /-- In `ReadJSON`, under the deadline. -/
  | authenticating
  | validating (sub : String)
  | refusing (e : AuthFailure)
  | hangingUp
  /-- It has returned without authenticating. -/
  | hungUp
  | registering
  | greeting
  /-- In `c.reader()`; the two goroutines are started. -/
  | reading
  | unregistering
  | disconnecting
  | canceling
  /-- In `<-subscribeDone`; the context is canceled. -/
  | awaiting
  | returned
  deriving DecidableEq

/-- The two goroutines have been started. -/
def Phase.started : Phase → Bool
  | .reading | .unregistering | .disconnecting | .canceling | .awaiting | .returned => true
  | .absent | .authenticating | .validating _ | .refusing _ | .hangingUp | .hungUp | .registering
  | .greeting => false

inductive Writer where
  | off
  | idle
  | holding (payload : String)
  | stopped
  deriving DecidableEq

inductive Subscriber where
  | off
  | starting
  /-- The subscription took effect; `pending` is what `ReceiveMessage` has still to return. -/
  | active (pending : List String)
  | stopped
  deriving DecidableEq

/-- `arrived`, `checked` and `validated` are history: the messages of the peer with their
times, the clock `jwt.Parse` read and the users `Validate` found. -/
structure Conn where
  phase : Phase
  opened : Int
  arrived : List (Int × List UInt8)
  lost : Bool
  closed : Bool
  send : List String
  writer : Writer
  subscriber : Subscriber
  sent : List ServerFrame
  checked : Option Int
  validated : Option (List Uuid)

def Conn.absent : Conn where
  phase := .absent
  opened := 0
  arrived := []
  lost := false
  closed := false
  send := []
  writer := .off
  subscriber := .off
  sent := []
  checked := none
  validated := none

inductive PeerEvent where
  /-- A message of the peer. -/
  | arrive (bytes : List UInt8)
  /-- The peer closes, breaks the protocol or is gone. -/
  | lose
  deriving DecidableEq

/-- `ServeHTTP` until the connection is authenticated, or closed. -/
inductive AuthEvent where
  | accept
  | readFails (text : String)
  | check
  /-- `up`: the database answers. -/
  | validate (up : Bool)
  | refuse (ok : Bool)
  | hangUp
  deriving DecidableEq

/-- The rest of `ServeHTTP`. -/
inductive ServeEvent where
  | register
  | greet (ok : Bool)
  | readerReturns
  | unregister
  | disconnect
  | cancel
  | finish
  deriving DecidableEq

inductive RoutineEvent where
  | subscribe
  | receive
  | subscriberReturns
  | take
  | write (ok : Bool)
  | writerReturns
  deriving DecidableEq

inductive ConnEvent where
  | peer (e : PeerEvent)
  | auth (e : AuthEvent)
  | serve (e : ServeEvent)
  | routine (e : RoutineEvent)
  deriving DecidableEq

/-- `3 * time.Second`. -/
def authTimeout : Int := 3 * second

/-- The capacity of `send`. -/
def sendCapacity : Nat := 32

/-- The bytes of the first message, if it came before the deadline. -/
def Conn.firstInTime (c : Conn) : Option (List UInt8) :=
  match c.arrived with
  | [] => none
  -- a later message does not stand in for one that came too late
  | (t, bytes) :: _ => if t ≤ c.opened + authTimeout then some bytes else none

/-- `ReadJSON` may return an error. -/
def Conn.readFails (c : Conn) (now : Int) : Bool :=
  decide (c.opened + authTimeout ≤ now) || c.lost ||
    c.firstInTime.any (fun bytes => (readAuthFrame bytes).isNone)

/-- A payload for the subscription, if it has taken effect. -/
def Conn.publish (c : Conn) (payload : String) : Conn :=
  match c.subscriber with
  | .active pending => { c with subscriber := .active (pending ++ [payload]) }
  | _ => c

def peerStep (now : Int) (c : Conn) (e : PeerEvent) : Option Conn :=
  if c.phase = .absent then none
  else
    match e with
    | .arrive bytes => some { c with arrived := c.arrived ++ [(now, bytes)] }
    | .lose => some { c with lost := true }

def serveStep (c : Conn) : ServeEvent → Option Conn
  | .register => if c.phase = .registering then some { c with phase := .greeting } else none
  | .greet ok =>
    -- the goroutines are started whether or not the write succeeds, and after it
    if c.phase = .greeting then
      some { c with
        phase := .reading
        sent := if ok then c.sent ++ [.authSuccess] else c.sent
        writer := .idle
        subscriber := .starting }
    else none
  | .readerReturns => if c.phase = .reading then some { c with phase := .unregistering } else none
  | .unregister => if c.phase = .unregistering then some { c with phase := .disconnecting } else none
  | .disconnect =>
    if c.phase = .disconnecting then some { c with phase := .canceling, closed := true } else none
  | .cancel => if c.phase = .canceling then some { c with phase := .awaiting } else none
  | .finish =>
    if c.phase = .awaiting ∧ c.subscriber = .stopped then some { c with phase := .returned } else none

def routineStep (c : Conn) : RoutineEvent → Option Conn
  | .subscribe => if c.subscriber = .starting then some { c with subscriber := .active [] } else none
  | .receive =>
    match c.subscriber with
    | .active (p :: pending) =>
      -- the send does not block: a message that finds `send` full is dropped
      some (if c.send.length < sendCapacity then
        { c with subscriber := .active pending, send := c.send ++ [p] }
      else { c with subscriber := .active pending })
    | _ => none
  | .subscriberReturns =>
    if c.subscriber = .off ∨ c.subscriber = .stopped then none else some { c with subscriber := .stopped }
  | .take =>
    match c.writer, c.send with
    | .idle, p :: rest => some { c with writer := .holding p, send := rest }
    | _, _ => none
  | .write ok =>
    match c.writer with
    | .holding p =>
      if ok then
        if c.closed then none else some { c with writer := .idle, sent := c.sent ++ [.published p] }
      else some { c with writer := .stopped }
    | _ => none
  | .writerReturns => if c.writer = .idle then some { c with writer := .stopped } else none

section
variable (mac : List UInt8 → List UInt8 → List UInt8) (secret : List UInt8)

def authStep (now : Int) (users : List Uuid) (c : Conn) : AuthEvent → Option Conn
  | .accept =>
    if c.phase = .absent then some { Conn.absent with phase := .authenticating, opened := now } else none
  | .readFails text =>
    if c.phase = .authenticating ∧ c.readFails now = true then
      some { c with phase := .refusing (.reading text) }
    else none
  | .check =>
    if c.phase = .authenticating then
      (c.firstInTime.bind readAuthFrame).map fun f =>
        match bearer mac secret now f with
        | some sub => { c with phase := .validating sub, checked := some now }
        | none => { c with phase := .refusing .canceled }
    else none
  | .validate up =>
    match c.phase with
    | .validating sub =>
      -- an error of the query is treated like a user that does not exist
      some (if up && userExists users sub then
        { c with phase := .registering, validated := some users }
      else { c with phase := .refusing .canceled })
    | _ => none
  | .refuse ok =>
    match c.phase with
    | .refusing e =>
      some { c with
        phase := .hangingUp
        sent := if ok then c.sent ++ [.authError e] else c.sent }
    | _ => none
  | .hangUp => if c.phase = .hangingUp then some { c with phase := .hungUp, closed := true } else none

/-- One step of a connection at a time, with the users there are. -/
def connStep (now : Int) (users : List Uuid) (c : Conn) : ConnEvent → Option Conn
  | .peer e => peerStep now c e
  | .auth e => authStep mac secret now users c e
  | .serve e => serveStep c e
  | .routine e => routineStep c e

/-! ## The hub -/

/-- All connections there ever are, by number; `users` is the table. -/
structure Hub where
  now : Int
  users : List Uuid
  conns : Nat → Bool
  conn : Nat → Conn

/-- `New`. -/
def Hub.new (now : Int) (users : List Uuid) : Hub := ⟨now, users, fun _ => false, fun _ => .absent⟩

inductive HubEvent where
  | tick (d : Nat)
  | users (us : List Uuid)
  /-- A message on a channel that matches auction:*:updates. -/
  | publish (payload : String)
  | conn (i : Nat) (e : ConnEvent)
  deriving DecidableEq

/-- What a step of a connection makes of its entry in `conns`. -/
def ConnEvent.entry (e : ConnEvent) (registered : Bool) : Bool :=
  match e with
  | .serve .register => true
  | .serve .unregister => false
  | _ => registered

def hubStep (h : Hub) : HubEvent → Option Hub
  | .tick d => some { h with now := h.now + d }
  | .users us => some { h with users := us }
  | .publish payload => some { h with conn := fun j => (h.conn j).publish payload }
  | .conn i e =>
    (connStep mac secret h.now h.users (h.conn i) e).map fun c =>
      { h with
        conns := Function.update h.conns i (e.entry (h.conns i))
        conn := Function.update h.conn i c }

end

/-! ## A handshake -/

/-- The frame a client sends first. -/
def firstFrame (type token : String) : List UInt8 :=
  Base64Url.utf8 (Json.stringify [("type", type), ("token", token)])

theorem readAuthFrame_firstFrame (type token : String) :
    readAuthFrame (firstFrame type token) = some ⟨type, token⟩ := by
  have hdecode : decode authFields ⟨"", ""⟩ (Json.ofStrings [("type", type), ("token", token)]) =
      some ⟨type, token⟩ := by
    simp [Json.ofStrings, decode, members, setMember, lookup, visible, JsonField.visibleIn, authFields,
      setField, readString]
  have hread := Json.decodeNext_eq_ok_iff.mpr ⟨_, Json.next_stringify _, hdecode⟩
  rw [readAuthFrame, firstFrame, Utf8.runes_utf8, hread]

/-- `AUTH` and a token: the handler reads it, asks for the user, registers and greets. -/
def handshake (i : Nat) (token : String) : List HubEvent :=
  [.conn i (.auth .accept), .conn i (.peer (.arrive (firstFrame "AUTH" token))), .conn i (.auth .check),
    .conn i (.auth (.validate true)), .conn i (.serve .register), .conn i (.serve (.greet true))]

/-- A connection that has just been greeted. -/
def Conn.greeted (now : Int) (users : List Uuid) (token : String) : Conn where
  phase := .reading
  opened := now
  arrived := [(now, firstFrame "AUTH" token)]
  lost := false
  closed := false
  send := []
  writer := .idle
  subscriber := .starting
  sent := [.authSuccess]
  checked := some now
  validated := some users

/-- A hub with one such connection. -/
def Hub.greeted (i : Nat) (now : Int) (users : List Uuid) (token : String) : Hub where
  now := now
  users := users
  conns := Function.update (fun _ => false) i true
  conn := Function.update (fun _ => .absent) i (.greeted now users token)

section
variable {mac : List UInt8 → List UInt8 → List UInt8} {secret : List UInt8}

theorem bearer_token {ttl issued now : Int} (uid : String) (h : now < second * ((issued + ttl) / second)) :
    bearer mac secret now ⟨"AUTH", token mac secret ttl issued uid⟩ = some uid := by
  have hany : authenticate mac secret (some fun sub => decide (sub = uid)) now
      ⟨"AUTH", token mac secret ttl issued uid⟩ = decide (uid = uid) := authenticate_token uid _ h
  rw [authenticate_eq_bearer, decide_eq_true rfl] at hany
  obtain ⟨sub, hsub, heq⟩ := (Option.any_eq_true _ _).mp hany
  rw [hsub, of_decide_eq_true heq]

/-- **A token before its expiry lets its user in**, if the frame has the type AUTH. -/
theorem run_handshake {ttl issued now : Int} {u : Uuid} {users : List Uuid} (i : Nat) (hu : u ∈ users)
    (h : now < second * ((issued + ttl) / second)) :
    Steps.run (hubStep mac secret) (Hub.new now users)
      (handshake i (Synora.token mac secret ttl issued u.text)) =
      some (Hub.greeted i now users (Synora.token mac secret ttl issued u.text)) := by
  have hintime : now ≤ now + authTimeout := by
    unfold authTimeout second
    omega
  have huser : userExists users u.text = true := by
    rw [userExists, Uuid.input_text]
    exact decide_eq_true hu
  simp [Steps.run, handshake, hubStep, connStep, authStep, peerStep, serveStep, Hub.new, Conn.absent,
    Conn.firstInTime, hintime, readAuthFrame_firstFrame, bearer_token u.text h, huser, ConnEvent.entry,
    Hub.greeted, Conn.greeted]

end

/-- The key of the sample token. -/
def sampleSecret : List UInt8 := Base64Url.utf8 "secret".toList

theorem run_handshake_sample :
    Steps.run (hubStep sampleMac sampleSecret) (Hub.new 0 [Uuid.ofDigit 1]) (handshake 0 sampleToken) =
      some (Hub.greeted 0 0 [Uuid.ofDigit 1] sampleToken) :=
  run_handshake 0 List.mem_cons_self (by decide)

end Synora
