import Synora.Admission
import Synora.Delivery
import Synora.Lib.Rfc3339

/- The client `connectAuctionStream` (api.js) and the hub, put together. The client sends
   `{ type: 'auth', token }` when its socket opens. The hub wants AUTH, in capitals, so it
   refuses the first frame of every client whatever its token is worth
   (`handshake_never_completes`).

   Correspondence (JavaScript ↔ Lean):
     `new WebSocket`, `setTimeout(…, 3000)`        ↔ `connectAuctionStream`
     the listener of 'open'                        ↔ `.opened`
     the listener of 'message'                     ↔ `.message`, `Stream.message`
     the callback of the timer                     ↔ `.timeout`
     the listener of 'close'                       ↔ `.closed`
   Between the two are a wire to the hub and the frames it has sent; both keep their order. -/
namespace Synora

/-! ## The client -/

inductive ReadyState where
  | connecting
  | open
  | closed
  deriving DecidableEq

/-- What `onError` is called with. -/
inductive StreamError where
  /-- `JSON.parse` throws, or the payload is null. -/
  | unreadable
  | refused (message : String)
  deriving DecidableEq

/-- The socket of a client; `seen` counts the frames it was given, `timer` is when its timeout
fires, and `updates` and `errors` are what the two callbacks were called with. -/
structure Stream where
  type : String
  token : String
  state : ReadyState
  timer : Option Int
  seen : Nat
  updates : List Json
  errors : List StreamError

/-- `3000` milliseconds. -/
def streamTimeout : Int := 3 * second

def connectAuctionStream (now : Int) (token : String) : Stream where
  type := "auth"
  token := token
  state := .connecting
  timer := some (now + streamTimeout)
  seen := 0
  updates := []
  errors := []

/-- A property of a payload; all but an object have none that is read here. -/
def property (payload : Json) (key : String) : Option Json :=
  match payload with
  | .obj ms => Jwt.lookup ms key
  | _ => none

/-- `payload.message || 'WebSocket authentication failed'`. -/
def errorMessage (payload : Json) : String :=
  match property payload "message" with
  | some (.str text) => if text = "" then "WebSocket authentication failed" else text
  | _ => "WebSocket authentication failed"

/-- The listener of 'message', for the text of a frame. -/
def Stream.message (c : Stream) (data : List Char) : Stream :=
  match Json.parse data with
  | none | some .null => { c with errors := c.errors ++ [.unreadable] }
  | some payload =>
    match property payload "type" with
    | some (.str "AUTH_SUCCESS") => { c with timer := none }
    | some (.str "PRICE_UPDATE") => { c with updates := c.updates ++ [payload] }
    | some (.str "AUTH_ERROR") => { c with errors := c.errors ++ [.refused (errorMessage payload)] }
    | _ => c

/-- The text of a frame: `WriteJSON` ends with a line feed, `json.Marshal` does not, and the keys
of a map are sorted. -/
def ServerFrame.data : ServerFrame → List Char
  | .authError e => Json.encode (.obj [("code", .str "AUTH_REQUIRED"), ("message", .str e.message),
      ("type", .str "AUTH_ERROR")]) ++ ['\n']
  | .authSuccess => Json.encode (.obj [("type", .str "AUTH_SUCCESS")])
  | .published payload => payload.toList

/-- The payload `App.bid` publishes. -/
def priceUpdateText (auctionID amount : String) (placed : Int) : String :=
  String.ofList (Json.encode (.obj [("auction_id", .str auctionID), ("current_high_price", .str amount),
    ("placed_at", .str (Rfc3339.format placed)), ("type", .str "PRICE_UPDATE")]))

/-! ## Client and hub -/

structure Session where
  hub : Hub
  client : Stream
  toServer : List (List UInt8)

inductive SessionEvent where
  /-- Any step of the hub, but for what the client does to its connection. -/
  | hub (e : HubEvent)
  | opened
  /-- The next message of the client arrives. -/
  | arrive
  /-- The client is given the next frame. -/
  | message
  | timeout
  | closed
  /-- The hub learns that the client is gone. -/
  | lose
  deriving DecidableEq

def HubEvent.ofPeer (i : Nat) : HubEvent → Bool
  | .conn j (.peer _) => decide (j = i)
  | _ => false

def Session.start (h : Hub) (token : String) : Session := ⟨h, connectAuctionStream h.now token, []⟩

section
variable (mac : List UInt8 → List UInt8 → List UInt8) (secret : List UInt8) (i : Nat)

/-- One step of the client and the hub, where the client is at connection `i`. -/
def sessionStep (s : Session) : SessionEvent → Option Session
  | .hub e => if e.ofPeer i then none else (hubStep mac secret s.hub e).map fun h => { s with hub := h }
  | .opened =>
    if s.client.state = .connecting ∧ (s.hub.conn i).phase ≠ .absent then
      some { s with
        client := { s.client with state := .open }
        toServer := s.toServer ++ [firstFrame s.client.type s.client.token] }
    else none
  | .arrive =>
    match s.toServer with
    | [] => none
    | bytes :: rest =>
      (hubStep mac secret s.hub (.conn i (.peer (.arrive bytes)))).map fun h =>
        { s with hub := h, toServer := rest }
  | .message =>
    -- a socket that is closing fires no more events of this kind
    if s.client.state = .open then
      ((s.hub.conn i).sent[s.client.seen]?).map fun f =>
        { s with client := ({ s.client with seen := s.client.seen + 1 } : Stream).message f.data }
    else none
  | .timeout =>
    if s.client.timer.any (fun t => decide (t ≤ s.hub.now)) then
      some { s with client := { s.client with state := .closed, timer := none } }
    else none
  | .closed =>
    if (s.hub.conn i).closed = true ∧ (s.hub.conn i).sent.length ≤ s.client.seen then
      some { s with client := { s.client with state := .closed, timer := none } }
    else none
  | .lose =>
    if s.client.state = .closed then
      (hubStep mac secret s.hub (.conn i (.peer .lose))).map fun h => { s with hub := h }
    else none

/-! ## The handshake -/

/-- No write fails, no socket is cut, the database answers, and the user `u` stays. -/
def SessionEvent.succeeds (u : Uuid) : SessionEvent → Bool
  | .hub (.users us) => decide (u ∈ us)
  | .hub (.conn j (.auth (.validate up))) => decide (j ≠ i) || up
  | .hub (.conn j (.auth (.refuse ok))) => decide (j ≠ i) || ok
  | .hub (.conn j (.serve (.greet ok))) => decide (j ≠ i) || ok
  | .hub e => e.keepsOpen i
  | _ => true

/-- Nothing is on its way, and the hub has decided. -/
structure Session.Settled (s : Session) : Prop where
  opened : s.client.state ≠ .connecting
  arrived : s.toServer = []
  decided : (s.hub.conn i).phase.started = true ∨ (s.hub.conn i).phase = .hungUp
  delivered : s.client.seen = (s.hub.conn i).sent.length

/-- The hub has sent AUTH_SUCCESS, the open client has cleared its timeout, and of the payloads
of bids it was sent, `onPriceUpdate` was called with the ids and prices. -/
structure Session.Completed (s : Session) : Prop where
  accepted : ServerFrame.authSuccess ∈ (s.hub.conn i).sent
  cleared : s.client.state = .open ∧ s.client.timer = none
  updates : ∀ bids : List (String × String × Int),
    (s.hub.conn i).delivered = bids.map (fun b => priceUpdateText b.1 b.2.1 b.2.2) →
    s.client.updates.map (fun p => (property p "auction_id", property p "current_high_price")) =
      bids.map (fun b => (some (.str b.1), some (.str b.2.1)))

/-- Every run of less than three seconds in which nothing else fails completes the handshake. -/
def HandshakeCompletes (h : Hub) (u : Uuid) (token : String) : Prop :=
  ∀ es s, Steps.run (sessionStep mac secret i) (.start h token) es = some s →
    (∀ e ∈ es, e.succeeds i u = true) → s.hub.now < h.now + authTimeout → s.Settled i → s.Completed i

end

/-! ## What the hub makes of the client's frame -/

section
variable {mac : List UInt8 → List UInt8 → List UInt8} {secret : List UInt8} {i : Nat}

/-- The only messages there are, on the wire or arrived, are the client's first frame. -/
structure OneFrame (mac : List UInt8 → List UInt8 → List UInt8) (secret : List UInt8) (i : Nat)
    (token : String) (s : Session) : Prop where
  guarded : AllGuarded mac secret s.hub
  client : s.client.type = "auth" ∧ s.client.token = token
  toServer : ∀ bytes ∈ s.toServer, bytes = firstFrame "auth" token
  arrived : ∀ m ∈ (s.hub.conn i).arrived, m.2 = firstFrame "auth" token

theorem message_client (c : Stream) (data : List Char) :
    (c.message data).type = c.type ∧ (c.message data).token = c.token ∧ (c.message data).state = c.state ∧
      (c.message data).seen = c.seen := by
  unfold Stream.message
  split
  · exact ⟨rfl, rfl, rfl, rfl⟩
  · exact ⟨rfl, rfl, rfl, rfl⟩
  · split <;> exact ⟨rfl, rfl, rfl, rfl⟩

theorem serveStep_arrived {c c' : Conn} {e : ServeEvent} (hst : serveStep c e = some c') :
    c'.arrived = c.arrived := by
  cases e with
  | register | greet ok | readerReturns | unregister | disconnect | cancel | finish =>
    simp only [serveStep] at hst
    split at hst
    · cases hst
      rfl
    · cases hst

/-- Only its peer adds to the messages of a connection. -/
theorem hubStep_arrived {h h' : Hub} {e : HubEvent} (hpeer : e.ofPeer i = false)
    (hst : hubStep mac secret h e = some h') : ∀ m ∈ (h'.conn i).arrived, m ∈ (h.conn i).arrived := by
  cases e with
  | tick d | users us =>
    cases hst
    exact fun m hm => hm
  | publish payload =>
    cases hst
    exact fun m hm => (publish_same (h.conn i) payload).arrived ▸ hm
  | conn j e =>
    obtain ⟨c, hc, rfl⟩ := Option.map_eq_some_iff.mp hst
    intro m hm
    by_cases hj : j = i
    · subst hj
      simp only [Function.update_self] at hm
      cases e with
      | peer e => simp [HubEvent.ofPeer] at hpeer
      | serve e => exact serveStep_arrived hc ▸ hm
      | routine e => exact (routineStep_same hc).2.arrived ▸ hm
      | auth e =>
        cases authStep_move mac secret hc with
        | accepted hp => cases hm
        | failed failure hp => exact hm
        | verified bytes f sub hp hfirst hframe hbearer => exact hm
        | validated sub hp huser => exact hm
        | refused failure ok hp => exact hm
        | hungUp hp => exact hm
    · simp only [Function.update_of_ne (Ne.symm hj)] at hm
      exact hm

/-- What its peer's next message adds. -/
theorem hubStep_arrive {h h' : Hub} {bytes : List UInt8}
    (hst : hubStep mac secret h (.conn i (.peer (.arrive bytes))) = some h') :
    (h'.conn i).arrived = (h.conn i).arrived ++ [(h.now, bytes)] := by
  obtain ⟨c, hc, rfl⟩ := Option.map_eq_some_iff.mp hst
  simp only [connStep, peerStep] at hc
  split at hc
  · cases hc
  · cases hc
    simp only [Function.update_self]

theorem hubStep_lose {h h' : Hub} (hst : hubStep mac secret h (.conn i (.peer .lose)) = some h') :
    (h'.conn i).arrived = (h.conn i).arrived := by
  obtain ⟨c, hc, rfl⟩ := Option.map_eq_some_iff.mp hst
  simp only [connStep, peerStep] at hc
  split at hc
  · cases hc
  · cases hc
    simp only [Function.update_self]

theorem OneFrame.start (token : String) {h : Hub} (hguarded : AllGuarded mac secret h)
    (habsent : h.conn i = .absent) : OneFrame mac secret i token (.start h token) where
  guarded := hguarded
  client := ⟨rfl, rfl⟩
  toServer bytes hbytes := absurd hbytes List.not_mem_nil
  arrived m hm := by
    rw [Session.start, habsent] at hm
    cases hm

theorem OneFrame.step {token : String} {s s' : Session} {e : SessionEvent} (h : OneFrame mac secret i token s)
    (hst : sessionStep mac secret i s e = some s') : OneFrame mac secret i token s' := by
  cases e with
  | hub e =>
    simp only [sessionStep] at hst
    split at hst
    · cases hst
    next hpeer =>
      obtain ⟨hub, hhub, rfl⟩ := Option.map_eq_some_iff.mp hst
      exact ⟨h.guarded.step hhub, h.client, h.toServer, fun m hm =>
        h.arrived m (hubStep_arrived (Bool.eq_false_iff.mpr hpeer) hhub m hm)⟩
  | opened =>
    simp only [sessionStep] at hst
    split at hst
    · cases hst
      refine ⟨h.guarded, h.client, fun bytes hbytes => ?_, h.arrived⟩
      rcases List.mem_append.mp hbytes with hold | hnew
      · exact h.toServer bytes hold
      · rw [List.mem_singleton.mp hnew, h.client.1, h.client.2]
    · cases hst
  | arrive =>
    simp only [sessionStep] at hst
    split at hst
    · cases hst
    next bytes rest hwire =>
      obtain ⟨hub, hhub, rfl⟩ := Option.map_eq_some_iff.mp hst
      refine ⟨h.guarded.step hhub, h.client, fun b hb => ?_, fun m hm => ?_⟩
      · exact h.toServer b (by rw [hwire]; exact List.mem_cons_of_mem _ hb)
      · rw [hubStep_arrive hhub] at hm
        rcases List.mem_append.mp hm with hold | hnew
        · exact h.arrived m hold
        · rw [List.mem_singleton.mp hnew]
          exact h.toServer bytes (by rw [hwire]; exact List.mem_cons_self)
  | message =>
    simp only [sessionStep] at hst
    split at hst
    · obtain ⟨f, -, rfl⟩ := Option.map_eq_some_iff.mp hst
      obtain ⟨htype, htoken, -⟩ := message_client { s.client with seen := s.client.seen + 1 } f.data
      exact ⟨h.guarded, ⟨htype.trans h.client.1, htoken.trans h.client.2⟩, h.toServer, h.arrived⟩
    · cases hst
  | timeout | closed =>
    simp only [sessionStep] at hst
    split at hst
    · cases hst
      exact ⟨h.guarded, h.client, h.toServer, h.arrived⟩
    · cases hst
  | lose =>
    simp only [sessionStep] at hst
    split at hst
    · obtain ⟨hub, hhub, rfl⟩ := Option.map_eq_some_iff.mp hst
      exact ⟨h.guarded.step hhub, h.client, h.toServer, fun m hm =>
        h.arrived m (hubStep_lose hhub ▸ hm)⟩
    · cases hst

/-- A frame of another type than AUTH admits nobody. -/
theorem OneFrame.not_admitted {token : String} {s : Session} (h : OneFrame mac secret i token s) :
    ¬ Admitted mac secret (s.hub.conn i) := by
  rintro ⟨sub, users, ⟨t, bytes, rest, f, now, hfirst, -, hframe, htype, -⟩, -⟩
  have hbytes := h.arrived (t, bytes) (by rw [hfirst]; exact List.mem_cons_self)
  simp only at hbytes
  rw [hbytes, readAuthFrame_firstFrame, Option.some.injEq] at hframe
  subst hframe
  have hne : "auth" ≠ "AUTH" := by decide
  exact hne htype

theorem OneFrame.not_greeted {token : String} {s : Session} (h : OneFrame mac secret i token s) :
    ServerFrame.authSuccess ∉ (s.hub.conn i).sent := by
  obtain ⟨-, -, hrefused, -⟩ := (h.guarded i).turnedAway h.not_admitted
  rcases hrefused with hnone | ⟨e, hone⟩
  · rw [hnone]
    exact List.not_mem_nil
  · rw [hone]
    simp

/-! ## How it ends -/

/-- The client's frame arrives at once, and everybody does what is left to do. -/
def refusal (i : Nat) : List SessionEvent :=
  [.hub (.conn i (.auth .accept)), .opened, .arrive, .hub (.conn i (.auth .check)),
    .hub (.conn i (.auth (.refuse true))), .hub (.conn i (.auth .hangUp)), .message, .closed]

theorem bearer_auth (now : Int) (token : String) : bearer mac secret now ⟨"auth", token⟩ = none := by
  have hne : "auth" ≠ "AUTH" := by decide
  exact if_pos (.inl hne)

/-- The error frame reaches `onError`. -/
theorem message_authError (c : Stream) (e : AuthFailure) (he : e.message ≠ "") :
    c.message (ServerFrame.authError e).data = { c with errors := c.errors ++ [.refused e.message] } := by
  rw [Stream.message, ServerFrame.data, Json.parse_encode_line]
  simp [property, errorMessage, Jwt.lookup, he]

theorem run_refusal (mac : List UInt8 → List UInt8 → List UInt8) (secret : List UInt8) (token : String) {h : Hub}
    (habsent : h.conn i = .absent) :
    ∃ s, Steps.run (sessionStep mac secret i) (.start h token) (refusal i) = some s ∧
      s.hub.now = h.now ∧ s.Settled i ∧ s.client.errors = [.refused "context canceled"] := by
  have hintime : h.now ≤ h.now + authTimeout := by
    unfold authTimeout second
    omega
  have hcanceled : AuthFailure.canceled.message ≠ "" := by decide
  simp [Steps.run, refusal, sessionStep, Session.start, connectAuctionStream, HubEvent.ofPeer, hubStep, connStep,
    authStep, peerStep, habsent, Conn.absent, Conn.firstInTime, hintime, readAuthFrame_firstFrame, bearer_auth,
    message_authError _ _ hcanceled]
  refine ⟨⟨by simp, rfl, .inr ?_, ?_⟩, rfl⟩ <;> simp

theorem succeeds_refusal (u : Uuid) : ∀ e ∈ refusal i, e.succeeds i u = true := by
  intro e he
  simp only [refusal, List.mem_cons, List.not_mem_nil, or_false] at he
  rcases he with rfl | rfl | rfl | rfl | rfl | rfl | rfl | rfl <;>
    simp [SessionEvent.succeeds, HubEvent.keepsOpen]

/-- In no run of the two is AUTH_SUCCESS sent, whatever the token. -/
theorem never_greeted {h : Hub} {token : String} {es : List SessionEvent} {s : Session}
    (hguarded : AllGuarded mac secret h) (habsent : h.conn i = .absent)
    (hes : Steps.run (sessionStep mac secret i) (.start h token) es = some s) :
    ServerFrame.authSuccess ∉ (s.hub.conn i).sent := by
  have hframe := Steps.reach_invariant (I := OneFrame mac secret i token)
    (fun _ _ _ hI _ hst => hI.step hst) (.start token hguarded habsent) (Steps.reach_run hes)
  exact hframe.not_greeted

/-- The refusal is a run that completes nothing. -/
theorem not_handshakeCompletes {h : Hub} (hguarded : AllGuarded mac secret h) (habsent : h.conn i = .absent)
    (u : Uuid) (token : String) : ¬ HandshakeCompletes mac secret i h u token := by
  intro hcompletes
  obtain ⟨s, hes, hnow, hsettled, -⟩ := run_refusal mac secret token habsent
  have hintime : s.hub.now < h.now + authTimeout := by
    rw [hnow]
    unfold authTimeout second
    omega
  have hcompleted := hcompletes _ s hes (succeeds_refusal u) hintime hsettled
  exact never_greeted hguarded habsent hes hcompleted.accepted

/-- **The handshake is never completed**: whatever the hub has done before, for no token does it
send AUTH_SUCCESS in any run of the two, and not all runs complete. -/
theorem handshake_never_completes {now : Int} {users : List Uuid} {es : List HubEvent} {h : Hub}
    (hrun : Steps.run (hubStep mac secret) (Hub.new now users) es = some h) (habsent : h.conn i = .absent)
    (u : Uuid) (token : String) :
    (∀ es s, Steps.run (sessionStep mac secret i) (.start h token) es = some s →
      ServerFrame.authSuccess ∉ (s.hub.conn i).sent) ∧
    ¬ HandshakeCompletes mac secret i h u token := by
  have hguarded := run_allGuarded hrun
  exact ⟨fun es s hes => never_greeted hguarded habsent hes, not_handshakeCompletes hguarded habsent u token⟩

end

theorem handshake_never_completes_sample :
    ¬ HandshakeCompletes sampleMac sampleSecret 0 (Hub.new 0 [Uuid.ofDigit 1]) (Uuid.ofDigit 1) sampleToken := by
  have hrun : Steps.run (hubStep sampleMac sampleSecret) (Hub.new 0 [Uuid.ofDigit 1]) [] =
      some (Hub.new 0 [Uuid.ofDigit 1]) := rfl
  exact (handshake_never_completes hrun rfl (Uuid.ofDigit 1) sampleToken).2

/-- The law fails for a token of an hour, at once after it was issued. -/
theorem handshake_completes_fails :
    ¬ ∀ (mac : List UInt8 → List UInt8 → List UInt8) (secret : List UInt8) (now : Int) (users : List Uuid)
      (es : List HubEvent) (h : Hub) (i : Nat) (u : Uuid) (token : String),
      Steps.run (hubStep mac secret) (Hub.new now users) es = some h → h.conn i = .absent →
      u ∈ h.users → token ≠ "" →
      (∀ t, h.now ≤ t → t < h.now + authTimeout → Verifies mac secret t token u.text) →
      HandshakeCompletes mac secret i h u token := by
  intro hall
  refine not_handshakeCompletes (i := 0) (allGuarded_new 0 [.ofDigit 1]) rfl (.ofDigit 1) sampleToken
    (hall sampleMac sampleSecret 0 [.ofDigit 1] [] _ 0 (.ofDigit 1) sampleToken rfl rfl List.mem_cons_self
      (token_ne_empty _ _ _ _ _) ?_)
  intro t _ ht
  have hexpiry : t < second * ((0 + 3600 * second) / second) := by
    have hnow : (Hub.new 0 [Uuid.ofDigit 1]).now = 0 := rfl
    unfold authTimeout second at ht
    unfold second
    omega
  exact (bearer_verifies _ _ (bearer_token (Uuid.ofDigit 1).text hexpiry)).2

end Synora
