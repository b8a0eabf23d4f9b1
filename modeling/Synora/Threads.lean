import Synora.Admission
import Synora.Closing

/- The hub takes several places of the three goroutines in one step: `.greet` starts both of
   them, and a message goes from Redis to `send` at once. Each step of a connection between
   its places is no step of the hub, or one (`line_followed`), so that a connection in all its
   interleavings is one of the hub (`line_in_hub`).

   A goroutine that `.greet` has started in the hub, but `ServeHTTP` has not, waits for its
   first step; one of `subscribe` that has left its loop has returned. -/
namespace Synora

open Channel

/-! ## Places as the hub sees them -/

def ServePc.phase : ServePc → Phase
  | .authenticating => .authenticating
  | .turnedAway => .hungUp
  | .registering => .registering
  | .greeting => .greeting
  | .spawningWriter | .spawningSubscriber | .reading => .reading
  | .unregistering => .unregistering
  | .disconnecting => .disconnecting
  | .canceling => .canceling
  | .awaiting | .closing => .awaiting
  | .returned => .returned

/-- The hub has started the goroutines, and `ServeHTTP` is about to. -/
def ServePc.greeted : ServePc → Bool
  | .spawningWriter => true
  | .spawningSubscriber => true
  | _ => false

/-- Once greeted, a goroutine that is not started yet looks like one that has not done a step. -/
def Line.writerSeen (l : Line) : Writer :=
  match l.writer with
  | .off => if l.serve.greeted then .idle else .off
  | .selecting => .idle
  | .writing p => .holding p
  | .stopped => .stopped

def Line.subscriberSeen (l : Line) : Subscriber :=
  match l.subscribe with
  | .off => if l.serve.greeted then .starting else .off
  | .subscribing => .starting
  | .receiving => .active []
  | .sending p => .active [p]
  | .leaving | .signaling | .stopped => .stopped

/-- `writer` has been started. -/
def ServePc.spawnedWriter (pc : ServePc) : Bool := pc.spawned || decide (pc = .spawningSubscriber)

/-- What the hub has of a connection, from its authentication on. -/
structure Line.Matches (l : Line) (registered : Bool) (c : Conn) : Prop where
  admitted : l.serve ≠ .authenticating
  phase : c.phase = l.serve.phase
  closed : c.closed = l.serve.hungUp
  send : c.send = l.send.buffer
  capacity : l.send.capacity = sendCapacity
  writer : c.writer = l.writerSeen
  subscriber : c.subscriber = l.subscriberSeen
  registered : registered = l.registered
  startedWriter : l.writer = .off ↔ l.serve.spawnedWriter = false
  startedSubscriber : l.subscribe = .off ↔ l.serve.spawned = false

section
variable {mac : List UInt8 → List UInt8 → List UInt8} {secret : List UInt8} {h : Hub} {i : Nat}

/-- One step of the connection is a run of the hub. -/
theorem run_conn {e : ConnEvent} {c : Conn} (hc : connStep mac secret h.now h.users (h.conn i) e = some c) :
    ∃ h', Steps.run (hubStep mac secret) h [.conn i e] = some h' ∧
      h'.conns i = e.entry (h.conns i) ∧ h'.conn i = c := by
  refine ⟨{ h with
    conns := Function.update h.conns i (e.entry (h.conns i))
    conn := Function.update h.conn i c }, ?_, Function.update_self i _ h.conns, Function.update_self i c h.conn⟩
  rw [Steps.run, hubStep, hc]
  rfl

theorem run_publish (mac : List UInt8 → List UInt8 → List UInt8) (secret : List UInt8) (h : Hub) (i : Nat)
    (p : String) : ∃ h', Steps.run (hubStep mac secret) h [.publish p] = some h' ∧
      h'.conns i = h.conns i ∧ h'.conn i = (h.conn i).publish p :=
  ⟨_, rfl, rfl, rfl⟩

/-- The hub can follow a connection from one state to the next. -/
def Follows (mac : List UInt8 → List UInt8 → List UInt8) (secret : List UInt8) (h : Hub) (i : Nat)
    (l : Line) : Prop :=
  ∃ fs h', Steps.run (hubStep mac secret) h fs = some h' ∧ l.Matches (h'.conns i) (h'.conn i)

theorem follows_stutter {l : Line} (hm : l.Matches (h.conns i) (h.conn i)) : Follows mac secret h i l :=
  ⟨[], h, rfl, hm⟩

theorem follows_conn {l : Line} {e : ConnEvent} {c : Conn}
    (hc : connStep mac secret h.now h.users (h.conn i) e = some c)
    (hm : l.Matches (e.entry (h.conns i)) c) : Follows mac secret h i l := by
  obtain ⟨h', hrun, hconns, hconn⟩ := run_conn hc
  refine ⟨[.conn i e], h', hrun, ?_⟩
  rw [hconns, hconn]
  exact hm

/-- The handler goes on outside of the places that start the goroutines. -/
theorem Line.Matches.moved {l l' : Line} {registered registered' : Bool} {c c' : Conn}
    (hm : l.Matches registered c) (hadmitted : l'.serve ≠ .authenticating)
    (hphase : c'.phase = l'.serve.phase) (hclosed : c'.closed = l'.serve.hungUp)
    (hconn : c'.send = c.send ∧ c'.writer = c.writer ∧ c'.subscriber = c.subscriber)
    (hline : l'.writer = l.writer ∧ l'.subscribe = l.subscribe ∧ l'.send.buffer = l.send.buffer ∧
      l'.send.capacity = l.send.capacity)
    (hplace : l'.serve.greeted = l.serve.greeted ∧ l'.serve.spawnedWriter = l.serve.spawnedWriter ∧
      l'.serve.spawned = l.serve.spawned)
    (hregistered : registered' = l'.registered) : l'.Matches registered' c' := by
  obtain ⟨hsend, hwriter, hsubscriber⟩ := hconn
  obtain ⟨hwriter', hsubscribe', hbuffer, hcapacity⟩ := hline
  obtain ⟨hgreeted, hspawnedWriter, hspawned⟩ := hplace
  exact {
    admitted := hadmitted
    phase := hphase
    closed := hclosed
    send := by rw [hsend, hm.send, hbuffer]
    capacity := hcapacity.trans hm.capacity
    writer := by
      rw [hwriter, hm.writer]
      simp only [Line.writerSeen, hwriter', hgreeted]
    subscriber := by
      rw [hsubscriber, hm.subscriber]
      simp only [Line.subscriberSeen, hsubscribe', hgreeted]
    registered := hregistered
    startedWriter := by
      rw [hwriter', hspawnedWriter]
      exact hm.startedWriter
    startedSubscriber := by
      rw [hsubscribe', hspawned]
      exact hm.startedSubscriber }

/-- Before the goroutines are started, the hub has them off, or waiting after `.greet`. -/
theorem Line.Matches.unstarted {l : Line} {registered : Bool} {c : Conn} (hm : l.Matches registered c)
    (hspawned : l.serve.spawnedWriter = false) : l.writer = .off ∧ l.subscribe = .off := by
  refine ⟨hm.startedWriter.mpr hspawned, hm.startedSubscriber.mpr ?_⟩
  unfold ServePc.spawnedWriter at hspawned
  exact (Bool.or_eq_false_iff.mp hspawned).1

theorem handler_followed {l l' : Line} {e : ServeAction} (hsafe : l.Safe)
    (hm : l.Matches (h.conns i) (h.conn i)) (hst : handlerStep l e = some l') :
    Follows mac secret h i l' := by
  have hphase := hm.phase
  have hclosed := hm.closed
  cases e with
  | authenticate ok =>
    obtain ⟨hpc, rfl⟩ := goOn_eq hst
    exact absurd hpc hm.admitted
  | register =>
    obtain ⟨m, hgo, rfl⟩ := Option.map_eq_some_iff.mp hst
    obtain ⟨hpc, rfl⟩ := goOn_eq hgo
    rw [hpc] at hphase hclosed
    apply follows_conn (e := .serve .register) (if_pos hphase)
    refine hm.moved (by simp) rfl hclosed ⟨rfl, rfl, rfl⟩ ⟨rfl, rfl, rfl, rfl⟩ ?_ rfl
    rw [hpc]
    exact ⟨rfl, rfl, rfl⟩
  | greet =>
    obtain ⟨hpc, rfl⟩ := goOn_eq hst
    rw [hpc] at hphase hclosed
    obtain ⟨hwriter, hsubscribe⟩ := hm.unstarted (by rw [hpc]; rfl)
    apply follows_conn (e := .serve (.greet true)) (if_pos hphase)
    exact {
      admitted := fun h => by cases h
      phase := rfl
      closed := hclosed
      send := hm.send
      capacity := hm.capacity
      writer := by simp [Line.writerSeen, hwriter, ServePc.greeted]
      subscriber := by simp [Line.subscriberSeen, hsubscribe, ServePc.greeted]
      registered := hm.registered
      startedWriter := iff_of_true hwriter rfl
      startedSubscriber := iff_of_true hsubscribe rfl }
  | spawnWriter =>
    obtain ⟨m, hgo, rfl⟩ := Option.map_eq_some_iff.mp hst
    obtain ⟨hpc, rfl⟩ := goOn_eq hgo
    rw [hpc] at hphase hclosed
    obtain ⟨hwriter, hsubscribe⟩ := hm.unstarted (by rw [hpc]; rfl)
    have hidle : (h.conn i).writer = .idle := by
      rw [hm.writer, Line.writerSeen, hwriter, hpc]
      rfl
    have hstarting : (h.conn i).subscriber = .starting := by
      rw [hm.subscriber, Line.subscriberSeen, hsubscribe, hpc]
      rfl
    apply follows_stutter
    exact {
      admitted := fun h => by cases h
      phase := hphase
      closed := hclosed
      send := hm.send
      capacity := hm.capacity
      writer := hidle
      subscriber := by simp [hstarting, Line.subscriberSeen, hsubscribe, ServePc.greeted]
      registered := hm.registered
      startedWriter := iff_of_false (fun h => by cases h) (fun h => by cases h)
      startedSubscriber := iff_of_true hsubscribe rfl }
  | spawnSubscriber =>
    obtain ⟨m, hgo, rfl⟩ := Option.map_eq_some_iff.mp hst
    obtain ⟨hpc, rfl⟩ := goOn_eq hgo
    rw [hpc] at hphase hclosed
    have hwriter : l.writer ≠ .off := fun hoff => by
      have hunspawned := hm.startedWriter.mp hoff
      rw [hpc] at hunspawned
      cases hunspawned
    have hsubscribe : l.subscribe = .off := hm.startedSubscriber.mpr (by rw [hpc]; rfl)
    have hstarting : (h.conn i).subscriber = .starting := by
      rw [hm.subscriber, Line.subscriberSeen, hsubscribe, hpc]
      rfl
    apply follows_stutter
    exact {
      admitted := fun h => by cases h
      phase := hphase
      closed := hclosed
      send := hm.send
      capacity := hm.capacity
      writer := by
        rw [hm.writer]
        unfold Line.writerSeen
        cases hw : l.writer with
        | off => exact absurd hw hwriter
        | _ => rfl
      subscriber := hstarting
      registered := hm.registered
      startedWriter := iff_of_false hwriter (fun h => by cases h)
      startedSubscriber := iff_of_false (fun h => by cases h) (fun h => by cases h) }
  | readMessage =>
    obtain ⟨hpc, rfl⟩ := goOn_eq hst
    apply follows_stutter
    rw [hpc] at hphase hclosed
    refine hm.moved (by simp) hphase hclosed ⟨rfl, rfl, rfl⟩ ⟨rfl, rfl, rfl, rfl⟩ ?_ hm.registered
    rw [hpc]
    exact ⟨rfl, rfl, rfl⟩
  | readFails =>
    obtain ⟨hpc, rfl⟩ := goOn_eq hst
    rw [hpc] at hphase hclosed
    apply follows_conn (e := .serve .readerReturns) (if_pos hphase)
    refine hm.moved (by simp) rfl hclosed ⟨rfl, rfl, rfl⟩ ⟨rfl, rfl, rfl, rfl⟩ ?_ hm.registered
    rw [hpc]
    exact ⟨rfl, rfl, rfl⟩
  | unregister =>
    obtain ⟨m, hgo, rfl⟩ := Option.map_eq_some_iff.mp hst
    obtain ⟨hpc, rfl⟩ := goOn_eq hgo
    rw [hpc] at hphase hclosed
    apply follows_conn (e := .serve .unregister) (if_pos hphase)
    refine hm.moved (by simp) rfl hclosed ⟨rfl, rfl, rfl⟩ ⟨rfl, rfl, rfl, rfl⟩ ?_ rfl
    rw [hpc]
    exact ⟨rfl, rfl, rfl⟩
  | disconnect =>
    obtain ⟨hpc, rfl⟩ := goOn_eq hst
    rw [hpc] at hphase hclosed
    apply follows_conn (e := .serve .disconnect) (if_pos hphase)
    refine hm.moved (by simp) rfl rfl ⟨rfl, rfl, rfl⟩ ⟨rfl, rfl, rfl, rfl⟩ ?_ hm.registered
    rw [hpc]
    exact ⟨rfl, rfl, rfl⟩
  | cancel =>
    obtain ⟨m, hgo, rfl⟩ := Option.map_eq_some_iff.mp hst
    obtain ⟨hpc, rfl⟩ := goOn_eq hgo
    rw [hpc] at hphase hclosed
    apply follows_conn (e := .serve .cancel) (if_pos hphase)
    refine hm.moved (by simp) rfl hclosed ⟨rfl, rfl, rfl⟩ ⟨rfl, rfl, rfl, rfl⟩ ?_ hm.registered
    rw [hpc]
    exact ⟨rfl, rfl, rfl⟩
  | await =>
    simp only [handlerStep] at hst
    split at hst
    · next c hreceive =>
      obtain ⟨m, hgo, rfl⟩ := Option.map_eq_some_iff.mp hst
      obtain ⟨hpc, rfl⟩ := goOn_eq hgo
      rw [hpc] at hphase hclosed
      apply follows_stutter
      refine hm.moved (by simp) hphase hclosed ⟨rfl, rfl, rfl⟩ ⟨rfl, rfl, rfl, rfl⟩ ?_ hm.registered
      rw [hpc]
      exact ⟨rfl, rfl, rfl⟩
    · cases hst
    · cases hst
  | close =>
    obtain ⟨m, hgo, rfl⟩ := Option.map_eq_some_iff.mp hst
    obtain ⟨hpc, rfl⟩ := goOn_eq hgo
    have hstopped : (h.conn i).subscriber = .stopped := by
      rw [hm.subscriber, Line.subscriberSeen, hsafe.awaited (.inl hpc)]
    rw [hpc] at hphase hclosed
    simp only [close_open (hsafe.open (by rw [hpc]; decide))]
    apply follows_conn (e := .serve .finish) (if_pos ⟨hphase, hstopped⟩)
    refine hm.moved (by simp) rfl hclosed ⟨rfl, rfl, rfl⟩ ⟨rfl, rfl, rfl, rfl⟩ ?_ hm.registered
    rw [hpc]
    exact ⟨rfl, rfl, rfl⟩

/-- `writer` goes on, once it has been started. -/
theorem Line.Matches.wrote {l : Line} {registered : Bool} {c c' : Conn} (hm : l.Matches registered c)
    {pc : WriterPc} {ch : Chan String} (hstarted : l.writer ≠ .off) (hpc : pc ≠ .off)
    (hconn : c'.phase = c.phase ∧ c'.closed = c.closed ∧ c'.subscriber = c.subscriber)
    (hsend : c'.send = ch.buffer) (hcapacity : ch.capacity = l.send.capacity)
    (hwriter : c'.writer = Line.writerSeen { l with writer := pc }) :
    { l with writer := pc, send := ch }.Matches registered c' := by
  obtain ⟨hphase, hclosed, hsubscriber⟩ := hconn
  exact {
    admitted := hm.admitted
    phase := hphase.trans hm.phase
    closed := hclosed.trans hm.closed
    send := hsend
    capacity := hcapacity.trans hm.capacity
    writer := hwriter
    subscriber := hsubscriber.trans hm.subscriber
    registered := hm.registered
    startedWriter := iff_of_false hpc fun hoff => hstarted (hm.startedWriter.mpr hoff)
    startedSubscriber := hm.startedSubscriber }

theorem writer_followed {l l' : Line} {e : WriterAction} (hm : l.Matches (h.conns i) (h.conn i))
    (hst : writerStep l e = some l') : Follows mac secret h i l' := by
  unfold writerStep at hst
  split at hst
  case h_1 hpc =>
    have hidle : (h.conn i).writer = .idle := by rw [hm.writer, Line.writerSeen, hpc]
    split at hst
    · next p c hreceive =>
      cases hst
      obtain ⟨hbuffer, hcapacity⟩ := receive_some hreceive
      have htake : connStep mac secret h.now h.users (h.conn i) (.routine .take) =
          some { h.conn i with writer := .holding p, send := c.buffer } := by
        simp only [connStep, routineStep, hidle, hm.send, hbuffer]
      apply follows_conn htake
      exact hm.wrote (by simp [hpc]) (by simp) ⟨rfl, rfl, rfl⟩ rfl hcapacity rfl
    · next c hreceive =>
      cases hst
      obtain rfl := receive_none hreceive
      apply follows_conn (e := .routine .writerReturns) (if_pos hidle)
      exact hm.wrote (by simp [hpc]) (by simp) ⟨rfl, rfl, rfl⟩ hm.send rfl rfl
    · cases hst
  case h_2 ok hpc =>
    have hidle : (h.conn i).writer = .idle := by rw [hm.writer, Line.writerSeen, hpc]
    split at hst
    · cases hst
    · cases hst
      cases ok with
      | true =>
        apply follows_stutter
        exact hm.wrote (by simp [hpc]) (by simp) ⟨rfl, rfl, rfl⟩ hm.send rfl hidle
      | false =>
        apply follows_conn (e := .routine .writerReturns) (if_pos hidle)
        exact hm.wrote (by simp [hpc]) (by simp) ⟨rfl, rfl, rfl⟩ hm.send rfl rfl
  case h_3 hpc =>
    have hidle : (h.conn i).writer = .idle := by rw [hm.writer, Line.writerSeen, hpc]
    split at hst
    · cases hst
      apply follows_conn (e := .routine .writerReturns) (if_pos hidle)
      exact hm.wrote (by simp [hpc]) (by simp) ⟨rfl, rfl, rfl⟩ hm.send rfl rfl
    · cases hst
  case h_4 p ok hpc =>
    have hholding : (h.conn i).writer = .holding p := by rw [hm.writer, Line.writerSeen, hpc]
    split at hst
    · cases hst
    · next hopen =>
      cases hst
      cases ok with
      | true =>
        have hunclosed : (h.conn i).closed = false := by
          rw [hm.closed]
          simpa using hopen
        have hwrite : connStep mac secret h.now h.users (h.conn i) (.routine (.write true)) =
            some { h.conn i with writer := .idle, sent := (h.conn i).sent ++ [.published p] } := by
          simp [connStep, routineStep, hholding, hunclosed]
        apply follows_conn hwrite
        exact hm.wrote (by simp [hpc]) (by simp) ⟨rfl, rfl, rfl⟩ hm.send rfl rfl
      | false =>
        have hwrite : connStep mac secret h.now h.users (h.conn i) (.routine (.write false)) =
            some { h.conn i with writer := .stopped } := by
          simp [connStep, routineStep, hholding]
        apply follows_conn hwrite
        exact hm.wrote (by simp [hpc]) (by simp) ⟨rfl, rfl, rfl⟩ hm.send rfl rfl
  case h_5 => cases hst

/-- `subscribe` goes on, once it has been started. -/
theorem Line.Matches.subscribed {l l' : Line} {registered : Bool} {c c' : Conn} (hm : l.Matches registered c)
    (hstarted : l.subscribe ≠ .off) (hpc : l'.subscribe ≠ .off)
    (hconn : c'.phase = c.phase ∧ c'.closed = c.closed ∧ c'.writer = c.writer)
    (hline : l'.serve = l.serve ∧ l'.writer = l.writer ∧ l'.registered = l.registered)
    (hsend : c'.send = l'.send.buffer) (hcapacity : l'.send.capacity = l.send.capacity)
    (hsubscriber : c'.subscriber = l'.subscriberSeen) : l'.Matches registered c' := by
  obtain ⟨hphase, hclosed, hwriter⟩ := hconn
  obtain ⟨hserve, hwriter', hregistered⟩ := hline
  exact {
    admitted := by
      rw [hserve]
      exact hm.admitted
    phase := by rw [hphase, hm.phase, hserve]
    closed := by rw [hclosed, hm.closed, hserve]
    send := hsend
    capacity := hcapacity.trans hm.capacity
    writer := by
      rw [hwriter, hm.writer]
      simp only [Line.writerSeen, hwriter', hserve]
    subscriber := hsubscriber
    registered := hm.registered.trans hregistered.symm
    startedWriter := by
      rw [hwriter', hserve]
      exact hm.startedWriter
    startedSubscriber := by
      rw [hserve]
      exact iff_of_false hpc fun hoff => hstarted (hm.startedSubscriber.mpr hoff) }

theorem subscribe_followed {l l' : Line} {e : SubscribeAction} (hsafe : l.Safe)
    (hm : l.Matches (h.conns i) (h.conn i)) (hst : subscribeStep l e = some l') :
    Follows mac secret h i l' := by
  unfold subscribeStep at hst
  split at hst
  case h_1 hpc =>
    have hstarting : (h.conn i).subscriber = .starting := by rw [hm.subscriber, Line.subscriberSeen, hpc]
    cases hst
    apply follows_conn (e := .routine .subscribe) (if_pos hstarting)
    exact hm.subscribed (by simp [hpc]) (by simp) ⟨rfl, rfl, rfl⟩ ⟨rfl, rfl, rfl⟩ hm.send rfl rfl
  case h_2 p hpc =>
    have hactive : (h.conn i).subscriber = .active [] := by rw [hm.subscriber, Line.subscriberSeen, hpc]
    cases hst
    obtain ⟨h', hrun, hconns, hconn⟩ := run_publish mac secret h i p
    refine ⟨[.publish p], h', hrun, ?_⟩
    have hpublish : (h.conn i).publish p = { h.conn i with subscriber := .active [p] } := by
      simp only [Conn.publish, hactive, List.nil_append]
    rw [hconns, hconn, hpublish]
    exact hm.subscribed (by simp [hpc]) (by simp) ⟨rfl, rfl, rfl⟩ ⟨rfl, rfl, rfl⟩ hm.send rfl rfl
  case h_3 hpc =>
    have hactive : (h.conn i).subscriber = .active [] := by rw [hm.subscriber, Line.subscriberSeen, hpc]
    cases hst
    apply follows_conn (e := .routine .subscriberReturns) (if_neg (by simp [hactive]))
    exact hm.subscribed (by simp [hpc]) (by simp) ⟨rfl, rfl, rfl⟩ ⟨rfl, rfl, rfl⟩ hm.send rfl rfl
  case h_4 p hpc =>
    have hactive : (h.conn i).subscriber = .active [p] := by rw [hm.subscriber, Line.subscriberSeen, hpc]
    have hopen := hsafe.open (hsafe.notReturned (by simp [hpc])).2
    rcases send_open hopen p with ⟨hsend, hroom⟩ | ⟨hsend, -⟩
    · simp only [hsend] at hst
      cases hst
      rw [hm.capacity, ← hm.send] at hroom
      have hreceive : connStep mac secret h.now h.users (h.conn i) (.routine .receive) =
          some { h.conn i with subscriber := .active [], send := (h.conn i).send ++ [p] } := by
        simp only [connStep, routineStep, hactive, if_pos hroom]
      apply follows_conn hreceive
      exact hm.subscribed (by simp [hpc]) (by simp) ⟨rfl, rfl, rfl⟩ ⟨rfl, rfl, rfl⟩
        (congrArg (fun payloads => payloads ++ [p]) hm.send) rfl rfl
    · simp only [hsend] at hst
      cases hst
  case h_5 p hpc =>
    have hactive : (h.conn i).subscriber = .active [p] := by rw [hm.subscriber, Line.subscriberSeen, hpc]
    have hopen := hsafe.open (hsafe.notReturned (by simp [hpc])).2
    split at hst
    · next hsend _ =>
      cases hst
      -- `send` is full, so the message is dropped there too
      have hfull : ¬ (h.conn i).send.length < sendCapacity := by
        rw [hm.send, ← hm.capacity]
        rcases send_open hopen p with ⟨hdone, -⟩ | ⟨-, hfull⟩
        · rw [hdone] at hsend
          cases hsend
        · omega
      have hreceive : connStep mac secret h.now h.users (h.conn i) (.routine .receive) =
          some { h.conn i with subscriber := .active [] } := by
        simp only [connStep, routineStep, hactive, if_neg hfull]
      apply follows_conn hreceive
      exact hm.subscribed (by simp [hpc]) (by simp) ⟨rfl, rfl, rfl⟩ ⟨rfl, rfl, rfl⟩ hm.send rfl rfl
    · cases hst
  case h_6 p hpc =>
    have hactive : (h.conn i).subscriber = .active [p] := by rw [hm.subscriber, Line.subscriberSeen, hpc]
    split at hst
    · cases hst
      apply follows_conn (e := .routine .subscriberReturns) (if_neg (by simp [hactive]))
      exact hm.subscribed (by simp [hpc]) (by simp) ⟨rfl, rfl, rfl⟩ ⟨rfl, rfl, rfl⟩ hm.send rfl rfl
    · cases hst
  case h_7 hpc =>
    have hstopped : (h.conn i).subscriber = .stopped := by rw [hm.subscriber, Line.subscriberSeen, hpc]
    cases hst
    apply follows_stutter
    exact hm.subscribed (by simp [hpc]) (by simp) ⟨rfl, rfl, rfl⟩ ⟨rfl, rfl, rfl⟩ hm.send rfl hstopped
  case h_8 hpc =>
    have hstopped : (h.conn i).subscriber = .stopped := by rw [hm.subscriber, Line.subscriberSeen, hpc]
    simp only [close_open (hsafe.unsignaled (by rw [hpc]; decide))] at hst
    cases hst
    apply follows_stutter
    exact hm.subscribed (by simp [hpc]) (by simp) ⟨rfl, rfl, rfl⟩ ⟨rfl, rfl, rfl⟩ hm.send rfl hstopped
  case h_9 => cases hst

/-- **The hub follows each step** of a connection between its places. -/
theorem line_followed {l l' : Line} {e : LineEvent} (hsafe : l.Safe) (hm : l.Matches (h.conns i) (h.conn i))
    (hst : lineStep l e = some l') : Follows mac secret h i l' := by
  unfold lineStep at hst
  rw [hsafe.unpanicked, if_neg (by decide)] at hst
  cases e with
  | serve e => exact handler_followed hsafe hm hst
  | writer e => exact writer_followed hm hst
  | subscribe e => exact subscribe_followed hsafe hm hst

theorem run_followed {l l' : Line} {es : List LineEvent} (hsafe : l.Safe)
    (hm : l.Matches (h.conns i) (h.conn i)) (hrun : Steps.run lineStep l es = some l') :
    Follows mac secret h i l' := by
  have hstep : ∀ (l : Line) (h : Hub) (e : LineEvent) (l' : Line),
      l.Safe ∧ l.Matches (h.conns i) (h.conn i) → lineStep l e = some l' →
      ∃ fs h', Steps.run (hubStep mac secret) h fs = some h' ∧
        l'.Safe ∧ l'.Matches (h'.conns i) (h'.conn i) := by
    intro l h e l' hI hst
    have hfollows : Follows mac secret h i l' := line_followed hI.1 hI.2 hst
    obtain ⟨fs, h', hrun, hm⟩ := hfollows
    exact ⟨fs, h', hrun, lineStep_safe hI.1 hst, hm⟩
  obtain ⟨fs, h', hfs, -, hend⟩ := Steps.run_forward
    (R := fun (l : Line) (h : Hub) => l.Safe ∧ l.Matches (h.conns i) (h.conn i)) hstep ⟨hsafe, hm⟩ hrun
  exact ⟨fs, h', hfs, hend⟩

/-- A connection that `authenticate` has let in. -/
def Line.admitted : Line := { Line.new with serve := .registering }

theorem safe_admitted : Line.admitted.Safe :=
  safe_new.handler (e := .authenticate true) rfl

/-- **A connection between its places is one of the hub**: whatever its goroutines do after its
authentication, the hub can come to a state that matches. -/
theorem line_in_hub {now : Int} {users : List Uuid} {fs : List HubEvent} {es : List LineEvent} {l : Line}
    (hhub : Steps.run (hubStep mac secret) (Hub.new now users) fs = some h)
    (hphase : (h.conn i).phase = .registering) (hopen : (h.conn i).closed = false)
    (hrun : Steps.run lineStep Line.admitted es = some l) : Follows mac secret h i l := by
  have hguarded := run_allGuarded hhub i
  rw [Guarded, hphase] at hguarded
  obtain ⟨hregistered, ⟨hsend, hwriter, hsubscriber⟩, -⟩ := hguarded
  exact run_followed safe_admitted {
    admitted := by decide
    phase := hphase
    closed := hopen
    send := hsend
    capacity := rfl
    writer := hwriter
    subscriber := hsubscriber
    registered := hregistered
    startedWriter := by decide
    startedSubscriber := by decide } hrun

end

/-- A connection is greeted, its goroutines start, and a message is pushed before it ends. -/
def shortLine : List LineEvent :=
  [.serve .register, .serve .greet, .serve .spawnWriter, .serve .spawnSubscriber, .subscribe .subscribed,
    .subscribe (.message "15.00"), .serve .readFails, .subscribe .push, .serve .unregister, .writer .take,
    .serve .disconnect, .serve .cancel]

/-- The connection of the sample token, which is let in, comes to its registration first. -/
theorem run_registering_sample : ∃ h,
    Steps.run (hubStep sampleMac sampleSecret) (Hub.new 0 [Uuid.ofDigit 1]) ((handshake 0 sampleToken).take 4) =
      some h ∧ (h.conn 0).phase = .registering ∧ (h.conn 0).closed = false := by
  have hsplit : handshake 0 sampleToken = (handshake 0 sampleToken).take 4 ++
      [.conn 0 (.serve .register), .conn 0 (.serve (.greet true))] := rfl
  have hgreeted := run_handshake_sample
  rw [hsplit] at hgreeted
  obtain ⟨h, hrun, hlast⟩ := Steps.run_append.mp hgreeted
  obtain ⟨h₁, hregister, hlast⟩ := Steps.run_cons.mp hlast
  obtain ⟨h₂, hgreet, hnil⟩ := Steps.run_cons.mp hlast
  cases hnil
  obtain ⟨c₁, hserve, rfl⟩ := Option.map_eq_some_iff.mp hregister
  obtain ⟨c₂, hserve', hend⟩ := Option.map_eq_some_iff.mp hgreet
  have hopen : c₂.closed = false := by
    have hconn := congrArg (fun g => (g.conn 0).closed) hend
    exact hconn
  simp only [connStep, serveStep] at hserve hserve'
  split at hserve
  · next hphase =>
    cases hserve
    refine ⟨h, hrun, hphase, ?_⟩
    cases hserve'
    exact hopen
  · cases hserve

theorem line_in_hub_sample : ∃ fs h l,
    Steps.run (hubStep sampleMac sampleSecret) (Hub.new 0 [Uuid.ofDigit 1]) fs = some h ∧
      Steps.run lineStep Line.admitted shortLine = some l ∧ l.writer = .writing "15.00" ∧
      Follows sampleMac sampleSecret h 0 l := by
  obtain ⟨h, hhub, hphase, hopen⟩ := run_registering_sample
  obtain ⟨l, hline, hwriter⟩ := Steps.exists_of_check lineStep Line.admitted shortLine
    (fun l => decide (l.writer = .writing "15.00")) (by decide +kernel)
  exact ⟨_, h, l, hhub, hline, of_decide_eq_true hwriter, line_in_hub hhub hphase hopen hline⟩

end Synora
