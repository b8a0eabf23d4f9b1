import Synora.Hub
import Synora.Lib.Channel

/- The channel `send` of a connection, and its end (hub.go). Three goroutines know it:
   the handler closes it, `writer` receives from it and `subscribe` sends to it. The
   handler cancels the context, waits until `subscribeDone` is closed, which is the last
   thing the goroutine of `subscribe` does, and only then closes `send`. So nothing is
   sent after the close, and no connection panics (`nothing_after_close`).

   Correspondence (Go ↔ Lean):
     `ServeHTTP` up to `authenticate`            ↔ `.authenticate`
     the rest of `ServeHTTP` and `reader`        ↔ `.register` … `.close`
     `writer`                                    ↔ `.take`, `.write`, `.ping`, `.writerDone`
     `subscribe`, `defer close(subscribeDone)`   ↔ `.subscribed` … `.signal`
     `c.send`, `subscribeDone`                   ↔ `Line.send`, `Line.subscribeDone`
     `h.conns[c]`                                ↔ `Line.registered`
   What the peer, Redis and the network do is in the events: a read or a write may
   succeed or fail, and a message may come, at any time. -/
namespace Synora

open Channel

/-- Where `ServeHTTP` stands; `reading` is in `reader`, and from `canceling` on it runs the
deferred function. -/
inductive ServePc where
  | authenticating
  | turnedAway
  | registering
  | greeting
  | spawningWriter
  | spawningSubscriber
  | reading
  | unregistering
  | disconnecting
  | canceling
  | awaiting
  | closing
  | returned
  deriving DecidableEq

/-- The socket is closed: no write on it succeeds. -/
def ServePc.hungUp : ServePc → Bool
  | .canceling | .awaiting | .closing | .returned => true
  | _ => false

inductive WriterPc where
  | off
  | selecting
  | writing (payload : String)
  | stopped
  deriving DecidableEq

inductive SubscribePc where
  | off
  | subscribing
  | receiving
  /-- In the select, with a message. -/
  | sending (payload : String)
  /-- In `p.Close()`. -/
  | leaving
  /-- In `close(subscribeDone)`. -/
  | signaling
  | stopped
  deriving DecidableEq

/-- A connection; `history` is what was done to `send`, but for the receives. -/
structure Line where
  serve : ServePc
  writer : WriterPc
  subscribe : SubscribePc
  send : Chan String
  subscribeDone : Chan Unit
  canceled : Bool
  registered : Bool
  panicked : Bool
  history : List (Op String)

def Line.new : Line where
  serve := .authenticating
  writer := .off
  subscribe := .off
  send := .make sendCapacity
  subscribeDone := .make 0
  canceled := false
  registered := false
  panicked := false
  history := []

inductive ServeAction where
  | authenticate (ok : Bool)
  | register
  | greet
  | spawnWriter
  | spawnSubscriber
  | readMessage
  | readFails
  | unregister
  | disconnect
  | cancel
  | await
  | close
  deriving DecidableEq

inductive WriterAction where
  | take
  | write (ok : Bool)
  | ping (ok : Bool)
  | writerDone
  deriving DecidableEq

inductive SubscribeAction where
  | subscribed
  | message (payload : String)
  | receiveFails
  | push
  | drop
  | subscriberDone
  | unsubscribe
  | signal
  deriving DecidableEq

inductive LineEvent where
  | serve (e : ServeAction)
  | writer (e : WriterAction)
  | subscribe (e : SubscribeAction)
  deriving DecidableEq

/-- The handler goes on from one place to the next. -/
def Line.goOn (l : Line) (here next : ServePc) : Option Line :=
  if l.serve = here then some { l with serve := next } else none

def handlerStep (l : Line) : ServeAction → Option Line
  | .authenticate ok => l.goOn .authenticating (if ok then .registering else .turnedAway)
  | .register => (l.goOn .registering .greeting).map fun l => { l with registered := true }
  | .greet => l.goOn .greeting .spawningWriter
  | .spawnWriter =>
    (l.goOn .spawningWriter .spawningSubscriber).map fun l => { l with writer := .selecting }
  | .spawnSubscriber =>
    (l.goOn .spawningSubscriber .reading).map fun l => { l with subscribe := .subscribing }
  | .readMessage => l.goOn .reading .reading
  | .readFails => l.goOn .reading .unregistering
  | .unregister => (l.goOn .unregistering .disconnecting).map fun l => { l with registered := false }
  | .disconnect => l.goOn .disconnecting .canceling
  | .cancel => (l.goOn .canceling .awaiting).map fun l => { l with canceled := true }
  | .await =>
    match l.subscribeDone.receive with
    | .done (_, c) => (l.goOn .awaiting .closing).map fun l => { l with subscribeDone := c }
    | .blocks => none
    | .panics => none
  | .close =>
    (l.goOn .closing .returned).map fun l =>
      match l.send.close with
      | .done c => { l with send := c, history := l.history ++ [.close] }
      | _ => { l with panicked := true, history := l.history ++ [.close] }

def writerStep (l : Line) (e : WriterAction) : Option Line :=
  match l.writer, e with
  | .selecting, .take =>
    match l.send.receive with
    | .done (some p, c) => some { l with writer := .writing p, send := c }
    | .done (none, c) => some { l with writer := .stopped, send := c }
    | _ => none
  | .selecting, .ping ok =>
    if ok ∧ l.serve.hungUp then none else some { l with writer := if ok then .selecting else .stopped }
  | .selecting, .writerDone => if l.canceled then some { l with writer := .stopped } else none
  | .writing _, .write ok =>
    if ok ∧ l.serve.hungUp then none else some { l with writer := if ok then .selecting else .stopped }
  | _, _ => none

def subscribeStep (l : Line) (e : SubscribeAction) : Option Line :=
  match l.subscribe, e with
  | .subscribing, .subscribed => some { l with subscribe := .receiving }
  | .receiving, .message p => some { l with subscribe := .sending p }
  | .receiving, .receiveFails => some { l with subscribe := .leaving }
  -- the select: one of the cases that are ready, and the default if none is
  | .sending p, .push =>
    match l.send.send p with
    | .done c => some { l with subscribe := .receiving, send := c, history := l.history ++ [.send p] }
    | .panics => some { l with panicked := true, history := l.history ++ [.send p] }
    | .blocks => none
  | .sending p, .drop =>
    match l.send.send p, l.canceled with
    | .blocks, false => some { l with subscribe := .receiving }
    | _, _ => none
  | .sending _, .subscriberDone => if l.canceled then some { l with subscribe := .leaving } else none
  | .leaving, .unsubscribe => some { l with subscribe := .signaling }
  | .signaling, .signal =>
    match l.subscribeDone.close with
    | .done c => some { l with subscribe := .stopped, subscribeDone := c }
    | _ => some { l with panicked := true }
  | _, _ => none

/-- A step of one of the three goroutines; after a panic there is none. -/
def lineStep (l : Line) (e : LineEvent) : Option Line :=
  if l.panicked then none
  else
    match e with
    | .serve e => handlerStep l e
    | .writer e => writerStep l e
    | .subscribe e => subscribeStep l e

/-! ## The invariant -/

/-- The goroutine of `subscribe` has been started. -/
def ServePc.spawned : ServePc → Bool
  | .reading | .unregistering | .disconnecting | .canceling | .awaiting | .closing | .returned => true
  | _ => false

/-- Between the two places that change `conns`. -/
def ServePc.entered : ServePc → Bool
  | .greeting | .spawningWriter | .spawningSubscriber | .reading | .unregistering => true
  | _ => false

/-- `send` is closed once the handler has returned, which it does after `subscribe`. -/
structure Line.Safe (l : Line) : Prop where
  unpanicked : l.panicked = false
  unspawned : l.serve.spawned = false → l.subscribe = .off
  signaled : l.subscribeDone.closed = true ↔ l.subscribe = .stopped
  nothing : l.subscribeDone.buffer = []
  awaited : l.serve = .closing ∨ l.serve = .returned → l.subscribe = .stopped
  closed : l.send.closed = true ↔ l.serve = .returned
  entry : l.registered = true → l.serve.entered = true
  survives : survives false l.history = true
  unclosed : l.send.closed = false → .close ∉ l.history

theorem safe_new : Line.new.Safe where
  unpanicked := rfl
  unspawned := fun _ => rfl
  signaled := by decide
  nothing := rfl
  awaited := by decide
  closed := by decide
  entry := fun h => h
  survives := rfl
  unclosed := fun _ => List.not_mem_nil

variable {l l' : Line}

theorem goOn_eq {here next : ServePc} (h : l.goOn here next = some l') :
    l.serve = here ∧ l' = { l with serve := next } := by
  unfold Line.goOn at h
  split at h
  · next hpc =>
    cases h
    exact ⟨hpc, rfl⟩
  · cases h

/-- A step of the handler that closes nothing. -/
theorem Line.Safe.moved (h : l.Safe) (hopen : l.serve ≠ .returned) (hnext : l'.serve ≠ .returned)
    (hspawned : l'.serve.spawned = false → l.serve.spawned = false)
    (hclosing : l'.serve = .closing → l.subscribe = .stopped)
    (hentry : l'.registered = true → l'.serve.entered = true)
    (hsubscribe : l'.subscribe = l.subscribe) (hsend : l'.send = l.send)
    (hdone : l'.subscribeDone = l.subscribeDone) (hpanicked : l'.panicked = l.panicked)
    (hhistory : l'.history = l.history) : l'.Safe where
  unpanicked := hpanicked.trans h.unpanicked
  unspawned hpc := hsubscribe.trans (h.unspawned (hspawned hpc))
  signaled := by
    rw [hdone, hsubscribe]
    exact h.signaled
  nothing := by
    rw [hdone]
    exact h.nothing
  awaited hpc := hsubscribe.trans (hpc.elim hclosing fun hreturned => absurd hreturned hnext)
  closed := by
    rw [hsend]
    exact iff_of_false (fun hclosed => hopen (h.closed.mp hclosed)) hnext
  entry := hentry
  survives := by
    rw [hhistory]
    exact h.survives
  unclosed hclosed := by
    rw [hsend] at hclosed
    rw [hhistory]
    exact h.unclosed hclosed

/-- Where the handler has not returned, `send` is open. -/
theorem Line.Safe.open (h : l.Safe) (hpc : l.serve ≠ .returned) : l.send.closed = false :=
  Bool.eq_false_iff.mpr fun hclosed => hpc (h.closed.mp hclosed)

/-- `subscribeDone` is open while `subscribe` has not stopped … -/
theorem Line.Safe.unsignaled (h : l.Safe) (hrunning : l.subscribe ≠ .stopped) :
    l.subscribeDone.closed = false :=
  Bool.eq_false_iff.mpr fun hclosed => hrunning (h.signaled.mp hclosed)

/-- … and the handler has not come to the close. -/
theorem Line.Safe.notReturned (h : l.Safe) (hrunning : l.subscribe ≠ .stopped) :
    l.serve ≠ .closing ∧ l.serve ≠ .returned :=
  ⟨fun hpc => hrunning (h.awaited (.inl hpc)), fun hpc => hrunning (h.awaited (.inr hpc))⟩

theorem Line.Safe.handler {e : ServeAction} (h : l.Safe) (hst : handlerStep l e = some l') : l'.Safe := by
  have hentry : l.serve.entered = false → l.registered = false := fun hpc =>
    Bool.eq_false_iff.mpr fun hreg => absurd (h.entry hreg) (by rw [hpc]; decide)
  cases e with
  | authenticate ok =>
    obtain ⟨hpc, rfl⟩ := goOn_eq hst
    have hreg := hentry (by rw [hpc]; rfl)
    apply h.moved <;> cases ok <;> simp [hpc, hreg, ServePc.spawned]
  | register =>
    obtain ⟨m, hm, rfl⟩ := Option.map_eq_some_iff.mp hst
    obtain ⟨hpc, rfl⟩ := goOn_eq hm
    apply h.moved <;> simp [hpc, ServePc.spawned, ServePc.entered]
  | greet =>
    obtain ⟨hpc, rfl⟩ := goOn_eq hst
    apply h.moved <;> simp [hpc, ServePc.spawned, ServePc.entered]
  | spawnWriter =>
    obtain ⟨m, hm, rfl⟩ := Option.map_eq_some_iff.mp hst
    obtain ⟨hpc, rfl⟩ := goOn_eq hm
    apply h.moved <;> simp [hpc, ServePc.spawned, ServePc.entered]
  | spawnSubscriber =>
    obtain ⟨m, hm, rfl⟩ := Option.map_eq_some_iff.mp hst
    obtain ⟨hpc, rfl⟩ := goOn_eq hm
    have hoff := h.unspawned (by rw [hpc]; rfl)
    have hsignaled := h.unsignaled (by rw [hoff]; decide)
    have hopen := h.open (by rw [hpc]; decide)
    exact {
      unpanicked := h.unpanicked
      unspawned := fun hpc => by cases hpc
      signaled := by simp [hsignaled]
      nothing := h.nothing
      awaited := by simp
      closed := by simp [hopen]
      entry := fun _ => rfl
      survives := h.survives
      unclosed := h.unclosed }
  | readMessage =>
    obtain ⟨hpc, rfl⟩ := goOn_eq hst
    apply h.moved <;> simp [hpc, ServePc.spawned, ServePc.entered]
  | readFails =>
    obtain ⟨hpc, rfl⟩ := goOn_eq hst
    apply h.moved <;> simp [hpc, ServePc.spawned, ServePc.entered]
  | unregister =>
    obtain ⟨m, hm, rfl⟩ := Option.map_eq_some_iff.mp hst
    obtain ⟨hpc, rfl⟩ := goOn_eq hm
    apply h.moved <;> simp [hpc, ServePc.spawned]
  | disconnect =>
    obtain ⟨hpc, rfl⟩ := goOn_eq hst
    have hreg := hentry (by rw [hpc]; rfl)
    apply h.moved <;> simp [hpc, hreg, ServePc.spawned]
  | cancel =>
    obtain ⟨m, hm, rfl⟩ := Option.map_eq_some_iff.mp hst
    obtain ⟨hpc, rfl⟩ := goOn_eq hm
    have hreg := hentry (by rw [hpc]; rfl)
    apply h.moved <;> simp [hpc, hreg, ServePc.spawned]
  | await =>
    simp only [handlerStep] at hst
    split at hst
    · next c hreceive =>
      obtain ⟨m, hm, rfl⟩ := Option.map_eq_some_iff.mp hst
      obtain ⟨hpc, rfl⟩ := goOn_eq hm
      obtain ⟨hclosed, rfl⟩ := receive_empty h.nothing hreceive
      have hstopped := h.signaled.mp hclosed
      have hreg := hentry (by rw [hpc]; rfl)
      apply h.moved <;> simp [hpc, hreg, hstopped, ServePc.spawned]
    · cases hst
    · cases hst
  | close =>
    obtain ⟨m, hm, rfl⟩ := Option.map_eq_some_iff.mp hst
    obtain ⟨hpc, rfl⟩ := goOn_eq hm
    have hopen := h.open (by rw [hpc]; decide)
    have hreg := hentry (by rw [hpc]; rfl)
    have hstopped := h.awaited (.inl hpc)
    simp only [close_open hopen]
    exact {
      unpanicked := h.unpanicked
      unspawned := fun hpc => by cases hpc
      signaled := h.signaled
      nothing := h.nothing
      awaited := fun _ => hstopped
      closed := by simp
      entry := by simp [hreg]
      survives := survives_append h.survives (h.unclosed hopen) .close
      unclosed := fun hclosed => by cases hclosed }

/-- `writer` only receives. -/
theorem writerStep_eq {e : WriterAction} (hst : writerStep l e = some l') :
    ∃ pc c, l' = { l with writer := pc, send := c } ∧ c.closed = l.send.closed := by
  unfold writerStep at hst
  split at hst
  · split at hst
    · next p c hreceive =>
      cases hst
      exact ⟨_, c, rfl, receive_closed hreceive⟩
    · next c hreceive =>
      cases hst
      exact ⟨_, c, rfl, receive_closed hreceive⟩
    · cases hst
  · split at hst
    · cases hst
    · cases hst
      exact ⟨_, l.send, rfl, rfl⟩
  · split at hst
    · cases hst
      exact ⟨_, l.send, rfl, rfl⟩
    · cases hst
  · split at hst
    · cases hst
    · cases hst
      exact ⟨_, l.send, rfl, rfl⟩
  · cases hst

theorem Line.Safe.writer {e : WriterAction} (h : l.Safe) (hst : writerStep l e = some l') : l'.Safe := by
  obtain ⟨pc, c, rfl, hclosed⟩ := writerStep_eq hst
  exact { h with
    closed := by
      show c.closed = true ↔ _
      rw [hclosed]
      exact h.closed
    unclosed := fun hopen => h.unclosed (hclosed ▸ hopen) }

/-- `subscribe` goes on, before its last step. -/
theorem Line.Safe.goesOn (h : l.Safe) (hspawned : l.subscribe ≠ .off) (hrunning : l.subscribe ≠ .stopped)
    {next : SubscribePc} (hnext : next ≠ .stopped) : { l with subscribe := next }.Safe :=
  { h with
    unspawned := fun hpc => absurd (h.unspawned hpc) hspawned
    signaled := iff_of_false (fun hclosed => hrunning (h.signaled.mp hclosed)) hnext
    awaited := fun hpc => absurd (h.awaited hpc) hrunning }

theorem Line.Safe.subscribe {e : SubscribeAction} (h : l.Safe) (hst : subscribeStep l e = some l') :
    l'.Safe := by
  unfold subscribeStep at hst
  split at hst
  case h_1 hpc =>
    cases hst
    exact h.goesOn (by simp [hpc]) (by simp [hpc]) (by simp)
  case h_2 hpc =>
    cases hst
    exact h.goesOn (by simp [hpc]) (by simp [hpc]) (by simp)
  case h_3 hpc =>
    cases hst
    exact h.goesOn (by simp [hpc]) (by simp [hpc]) (by simp)
  case h_4 p hpc =>
    -- `subscribe` runs, so the handler has not come to the close
    have hopen := h.open (h.notReturned (by simp [hpc])).2
    have hmoved : { l with subscribe := .receiving }.Safe :=
      h.goesOn (by simp [hpc]) (by simp [hpc]) (by simp)
    rcases send_open hopen p with ⟨hsend, -⟩ | ⟨hsend, -⟩
    · simp only [hsend] at hst
      cases hst
      exact { hmoved with
        survives := survives_append h.survives (h.unclosed hopen) (.send p)
        unclosed := fun _ => by simp [h.unclosed hopen] }
    · simp only [hsend] at hst
      cases hst
  case h_5 p hpc =>
    split at hst
    · cases hst
      exact h.goesOn (by simp [hpc]) (by simp [hpc]) (by simp)
    · cases hst
  case h_6 p hpc =>
    split at hst
    · cases hst
      exact h.goesOn (by simp [hpc]) (by simp [hpc]) (by simp)
    · cases hst
  case h_7 hpc =>
    cases hst
    exact h.goesOn (by simp [hpc]) (by simp [hpc]) (by simp)
  case h_8 hpc =>
    have hunsignaled := h.unsignaled (by rw [hpc]; decide)
    simp only [close_open hunsignaled] at hst
    cases hst
    exact { h with
      unspawned := fun hearly => by
        have hoff := h.unspawned hearly
        rw [hpc] at hoff
        cases hoff
      signaled := iff_of_true rfl rfl
      nothing := h.nothing
      awaited := fun _ => rfl }
  case h_9 => cases hst

theorem lineStep_safe {e : LineEvent} (h : l.Safe) (hst : lineStep l e = some l') : l'.Safe := by
  unfold lineStep at hst
  rw [h.unpanicked, if_neg (by decide)] at hst
  cases e with
  | serve e => exact h.handler hst
  | writer e => exact h.writer hst
  | subscribe e => exact h.subscribe hst

/-! ## All connections -/

/-- A step of one of the connections, which are numbered. -/
def linesStep (s : Nat → Line) (e : Nat × LineEvent) : Option (Nat → Line) :=
  (lineStep (s e.1) e.2).map fun l => Function.update s e.1 l

theorem linesStep_safe {s s' : Nat → Line} {e : Nat × LineEvent} (h : ∀ i, (s i).Safe)
    (hst : linesStep s e = some s') : ∀ i, (s' i).Safe := by
  obtain ⟨l, hl, rfl⟩ := Option.map_eq_some_iff.mp hst
  intro i
  by_cases hi : i = e.1
  · subst hi
    rw [Function.update_self]
    exact lineStep_safe (h _) hl
  · rw [Function.update_of_ne hi]
    exact h i

/-- **Nothing is sent after the close**, and there is one close at most, so that no connection
panics; and a connection whose handler has returned is not in `conns`. -/
theorem nothing_after_close {s : Nat → Line} {es : List (Nat × LineEvent)}
    (hrun : Steps.run linesStep (fun _ => Line.new) es = some s) (i : Nat) :
    CloseLast (s i).history ∧ (s i).panicked = false ∧
      ((s i).serve = .returned ∨ (s i).serve = .turnedAway → (s i).registered = false) := by
  have hsafe : ∀ i, (s i).Safe :=
    Steps.run_invariant (I := fun s => ∀ i, (s i).Safe) (fun _ _ _ h _ hst => linesStep_safe h hst)
      (fun _ => safe_new) (Steps.along_of_forall fun _ _ => trivial) hrun
  refine ⟨(closeLast_iff _).mpr (hsafe i).survives, (hsafe i).unpanicked, fun hpc => ?_⟩
  apply Bool.eq_false_iff.mpr
  intro hreg
  have hentered := (hsafe i).entry hreg
  rcases hpc with hpc | hpc <;> · rw [hpc] at hentered; cases hentered

/-- A connection whose peer goes away while a message waits. -/
def wholeLife : List (Nat × LineEvent) :=
  ([.serve (.authenticate true), .serve .register, .serve .greet, .serve .spawnWriter,
    .serve .spawnSubscriber, .subscribe .subscribed, .subscribe (.message "1"), .subscribe .push,
    .writer .take, .serve .readFails, .subscribe (.message "2"), .serve .unregister, .serve .disconnect,
    .writer (.write false), .serve .cancel, .subscribe .subscriberDone, .subscribe .unsubscribe,
    .subscribe .signal, .serve .await, .serve .close] : List LineEvent).map fun e => (0, e)

theorem nothing_after_close_life : ∃ s, Steps.run linesStep (fun _ => Line.new) wholeLife = some s ∧
    (s 0).history = [.send "1", .close] ∧ CloseLast (s 0).history ∧ (s 0).panicked = false ∧
      ((s 0).serve = .returned ∨ (s 0).serve = .turnedAway → (s 0).registered = false) :=
  Exists.elim (Option.isSome_iff_exists.mp
    (rfl : (Steps.run linesStep (fun _ => Line.new) wholeLife).isSome = true)) fun s hrun => by
    have hhistory : ((Steps.run linesStep (fun _ => Line.new) wholeLife).map
        fun s => (s 0).history) = some [.send "1", .close] := rfl
    rw [hrun] at hhistory
    exact ⟨s, hrun, Option.some.inj hhistory, nothing_after_close hrun 0⟩

end Synora
