import Synora.Threads

/- How a connection ends (hub.go). From the moment the handler has canceled the context,
   the three goroutines take a bounded number of steps between them, whatever Redis and
   the peer still do, and they cannot come to a place where each waits for another: once
   none of them can go on, all three have returned and both channels are closed
   (`teardown_ends`). So no connection leaves a goroutine behind.

   A message that Redis delivers after the cancellation may still be pushed, while there
   is room: the place left in `send` is a part of the rank. -/
namespace Synora

open Channel

/-! ## The places of the goroutines -/

/-- What every connection keeps to beside `Line.Safe`. -/
structure Line.Placed (l : Line) : Prop where
  safe : l.Safe
  canceled : l.canceled = true → l.serve = .awaiting ∨ l.serve = .closing ∨ l.serve = .returned
  writer : l.serve.spawnedWriter = true → l.writer ≠ .off
  subscribe : l.serve.spawned = true → l.subscribe ≠ .off
  capacity : l.send.capacity = sendCapacity

theorem placed_new : Line.new.Placed where
  safe := safe_new
  canceled := fun h => by cases h
  writer := fun h => by cases h
  subscribe := fun h => by cases h
  capacity := rfl

variable {l l' : Line}

/-- A step of the handler before the context is canceled. -/
theorem Line.Placed.early (h : l.Placed) (hsafe : l'.Safe)
    (hpc : l.serve ≠ .awaiting ∧ l.serve ≠ .closing ∧ l.serve ≠ .returned) (hcanceled : l'.canceled = l.canceled)
    (hwriter : l'.serve.spawnedWriter = true → l'.writer ≠ .off)
    (hsubscribe : l'.serve.spawned = true → l'.subscribe ≠ .off) (hsend : l'.send = l.send) : l'.Placed where
  safe := hsafe
  canceled hc := by
    rw [hcanceled] at hc
    rcases h.canceled hc with hpc' | hpc' | hpc'
    · exact absurd hpc' hpc.1
    · exact absurd hpc' hpc.2.1
    · exact absurd hpc' hpc.2.2
  writer := hwriter
  subscribe := hsubscribe
  capacity := hsend ▸ h.capacity

/-- A step of the handler once both goroutines have been started. -/
theorem Line.Placed.late (h : l.Placed) (hsafe : l'.Safe) (hspawned : l.serve.spawned = true)
    (hcanceled : l'.serve = .awaiting ∨ l'.serve = .closing ∨ l'.serve = .returned) (hwriter : l'.writer = l.writer)
    (hsubscribe : l'.subscribe = l.subscribe) (hcapacity : l'.send.capacity = l.send.capacity) : l'.Placed where
  safe := hsafe
  canceled _ := hcanceled
  writer _ := hwriter ▸ h.writer (by simp [ServePc.spawnedWriter, hspawned])
  subscribe _ := hsubscribe ▸ h.subscribe hspawned
  capacity := hcapacity.trans h.capacity

theorem Line.Placed.handler {e : ServeAction} (h : l.Placed) (hst : handlerStep l e = some l') :
    l'.Placed := by
  have hsafe := h.safe.handler hst
  have hwriter := h.writer
  have hsubscribe := h.subscribe
  cases e with
  | authenticate ok =>
    obtain ⟨hpc, rfl⟩ := goOn_eq hst
    apply h.early hsafe <;> cases ok <;> simp [hpc, ServePc.spawnedWriter, ServePc.spawned]
  | register =>
    obtain ⟨m, hm, rfl⟩ := Option.map_eq_some_iff.mp hst
    obtain ⟨hpc, rfl⟩ := goOn_eq hm
    apply h.early hsafe <;> simp [hpc, ServePc.spawnedWriter, ServePc.spawned]
  | greet =>
    obtain ⟨hpc, rfl⟩ := goOn_eq hst
    apply h.early hsafe <;> simp [hpc, ServePc.spawnedWriter, ServePc.spawned]
  | spawnWriter =>
    obtain ⟨m, hm, rfl⟩ := Option.map_eq_some_iff.mp hst
    obtain ⟨hpc, rfl⟩ := goOn_eq hm
    apply h.early hsafe <;> simp [hpc, ServePc.spawned]
  | spawnSubscriber =>
    obtain ⟨m, hm, rfl⟩ := Option.map_eq_some_iff.mp hst
    obtain ⟨hpc, rfl⟩ := goOn_eq hm
    have hon := hwriter (by rw [hpc]; rfl)
    apply h.early hsafe <;> simp [hpc, hon]
  | readMessage =>
    obtain ⟨hpc, rfl⟩ := goOn_eq hst
    rw [hpc] at hwriter hsubscribe
    exact h.early hsafe (by simp [hpc]) rfl hwriter hsubscribe rfl
  | readFails =>
    obtain ⟨hpc, rfl⟩ := goOn_eq hst
    rw [hpc] at hwriter hsubscribe
    exact h.early hsafe (by simp [hpc]) rfl hwriter hsubscribe rfl
  | unregister =>
    obtain ⟨m, hm, rfl⟩ := Option.map_eq_some_iff.mp hst
    obtain ⟨hpc, rfl⟩ := goOn_eq hm
    rw [hpc] at hwriter hsubscribe
    exact h.early hsafe (by simp [hpc]) rfl hwriter hsubscribe rfl
  | disconnect =>
    obtain ⟨hpc, rfl⟩ := goOn_eq hst
    rw [hpc] at hwriter hsubscribe
    exact h.early hsafe (by simp [hpc]) rfl hwriter hsubscribe rfl
  | cancel =>
    obtain ⟨m, hm, rfl⟩ := Option.map_eq_some_iff.mp hst
    obtain ⟨hpc, rfl⟩ := goOn_eq hm
    exact h.late hsafe (by rw [hpc]; rfl) (.inl rfl) rfl rfl rfl
  | await =>
    simp only [handlerStep] at hst
    split at hst
    · obtain ⟨m, hm, rfl⟩ := Option.map_eq_some_iff.mp hst
      obtain ⟨hpc, rfl⟩ := goOn_eq hm
      exact h.late hsafe (by rw [hpc]; rfl) (.inr (.inl rfl)) rfl rfl rfl
    · cases hst
    · cases hst
  | close =>
    obtain ⟨m, hm, rfl⟩ := Option.map_eq_some_iff.mp hst
    obtain ⟨hpc, rfl⟩ := goOn_eq hm
    have hopen := h.safe.open (by rw [hpc]; decide)
    simp only [close_open hopen] at hsafe ⊢
    exact h.late hsafe (by rw [hpc]; rfl) (.inr (.inr rfl)) rfl rfl rfl

/-! ## The rank -/

def ServePc.stepsLeft : ServePc → Nat
  | .returned => 0
  | .closing => 1
  | _ => 2

/-- A message that is taken frees a place, which `subscribe` may fill in two steps. -/
def WriterPc.stepsLeft : WriterPc → Nat
  | .off => 4
  | .selecting => 4
  | .writing _ => 1
  | .stopped => 0

def SubscribePc.stepsLeft : SubscribePc → Nat
  | .off => 6
  | .subscribing => 5
  | .receiving => 4
  | .sending _ => 3
  | .leaving => 2
  | .signaling => 1
  | .stopped => 0

/-- The places left in `send`. -/
def Line.room (l : Line) : Nat := l.send.capacity - l.send.buffer.length

/-- A bound of the steps that are left once the context is canceled. -/
def Line.stepsLeft (l : Line) : Nat :=
  l.serve.stepsLeft + l.writer.stepsLeft + l.subscribe.stepsLeft + 2 * l.room

/-- `writer` does not start over, and `send` keeps its capacity. -/
theorem writerStep_on {e : WriterAction} (hst : writerStep l e = some l') :
    l'.writer ≠ .off ∧ l'.send.capacity = l.send.capacity := by
  unfold writerStep at hst
  split at hst
  · split at hst
    · next p c hreceive =>
      cases hst
      exact ⟨by simp, (receive_some hreceive).2⟩
    · next c hreceive =>
      cases hst
      exact ⟨by simp, congrArg Chan.capacity (receive_none hreceive)⟩
    · cases hst
  · next ok hpc =>
    split at hst
    · cases hst
    · cases hst
      cases ok <;> simp
  · split at hst
    · cases hst
      simp
    · cases hst
  · next ok hpc =>
    split at hst
    · cases hst
    · cases hst
      cases ok <;> simp
  · cases hst

theorem Line.Placed.writes {e : WriterAction} (h : l.Placed) (hst : writerStep l e = some l') : l'.Placed := by
  have hsafe := h.safe.writer hst
  obtain ⟨hon, hcapacity⟩ := writerStep_on hst
  obtain ⟨pc, c, rfl, -⟩ := writerStep_eq hst
  exact ⟨hsafe, h.canceled, fun _ => hon, h.subscribe, hcapacity.trans h.capacity⟩

/-- A step of `subscribe` changes nothing of the other two but what is in `send`, and while the
context is not canceled it may go on for ever. -/
theorem subscribeStep_on {e : SubscribeAction} (h : l.Safe) (hst : subscribeStep l e = some l') :
    (l'.serve = l.serve ∧ l'.writer = l.writer ∧ l'.canceled = l.canceled) ∧ l'.subscribe ≠ .off ∧
      l'.send.capacity = l.send.capacity ∧
      (l.canceled = true → l'.subscribe.stepsLeft + 2 * l'.room < l.subscribe.stepsLeft + 2 * l.room) := by
  unfold subscribeStep at hst
  split at hst
  case h_1 hpc =>
    cases hst
    simp [hpc, SubscribePc.stepsLeft, Line.room]
  case h_2 hpc =>
    cases hst
    simp [hpc, SubscribePc.stepsLeft, Line.room]
  case h_3 hpc =>
    cases hst
    simp [hpc, SubscribePc.stepsLeft, Line.room]
  case h_4 p hpc =>
    have hopen := h.open (h.notReturned (by simp [hpc])).2
    rcases send_open hopen p with ⟨hsend, hroom⟩ | ⟨hsend, -⟩
    · simp only [hsend] at hst
      cases hst
      -- a step more to take, and a place less in `send`
      simp only [hpc, SubscribePc.stepsLeft, Line.room, List.length_append, List.length_singleton]
      refine ⟨by simp, by simp, by simp, fun _ => by omega⟩
    · simp only [hsend] at hst
      cases hst
  case h_5 p hpc =>
    split at hst
    · next hcanceled =>
      cases hst
      simp [hcanceled]
    · cases hst
  case h_6 p hpc =>
    split at hst
    · cases hst
      simp [hpc, SubscribePc.stepsLeft, Line.room]
    · cases hst
  case h_7 hpc =>
    cases hst
    simp [hpc, SubscribePc.stepsLeft, Line.room]
  case h_8 hpc =>
    have hunsignaled := h.unsignaled (by rw [hpc]; decide)
    simp only [close_open hunsignaled] at hst
    cases hst
    simp [hpc, SubscribePc.stepsLeft, Line.room]
  case h_9 => cases hst

theorem Line.Placed.subscribes {e : SubscribeAction} (h : l.Placed) (hst : subscribeStep l e = some l') :
    l'.Placed := by
  obtain ⟨⟨hserve, hwriter, hcanceled⟩, hon, hcapacity, -⟩ := subscribeStep_on h.safe hst
  exact {
    safe := h.safe.subscribe hst
    canceled := fun hc => hserve ▸ h.canceled (hcanceled ▸ hc)
    writer := fun hpc => hwriter ▸ h.writer (hserve ▸ hpc)
    subscribe := fun _ => hon
    capacity := hcapacity.trans h.capacity }

theorem lineStep_placed {e : LineEvent} (h : l.Placed) (hst : lineStep l e = some l') : l'.Placed := by
  unfold lineStep at hst
  rw [h.safe.unpanicked, if_neg (by decide)] at hst
  cases e with
  | serve e => exact h.handler hst
  | writer e => exact h.writes hst
  | subscribe e => exact h.subscribes hst

/-! ## After the cancellation -/

/-- The end has begun. -/
structure Line.Ending (l : Line) : Prop where
  placed : l.Placed
  canceled : l.canceled = true

theorem Line.Ending.serve (h : l.Ending) :
    l.serve = .awaiting ∨ l.serve = .closing ∨ l.serve = .returned := h.placed.canceled h.canceled

theorem Line.Ending.hungUp (h : l.Ending) : l.serve.hungUp = true := by
  rcases h.serve with hpc | hpc | hpc <;> rw [hpc] <;> rfl

theorem Line.Ending.spawned (h : l.Ending) : l.serve.spawned = true := by
  rcases h.serve with hpc | hpc | hpc <;> rw [hpc] <;> rfl

theorem Line.Ending.handler {e : ServeAction} (h : l.Ending) (hst : handlerStep l e = some l') :
    l'.canceled = true ∧ l'.stepsLeft < l.stepsLeft := by
  have hserve := h.serve
  -- the places before `awaiting` are behind
  have hearly : ∀ pc : ServePc, l.serve = pc → pc.hungUp = true := fun pc hpc => hpc ▸ h.hungUp
  cases e with
  | authenticate ok => exact absurd (hearly _ (goOn_eq hst).1) (by decide)
  | greet => exact absurd (hearly _ (goOn_eq hst).1) (by decide)
  | readMessage => exact absurd (hearly _ (goOn_eq hst).1) (by decide)
  | readFails => exact absurd (hearly _ (goOn_eq hst).1) (by decide)
  | disconnect => exact absurd (hearly _ (goOn_eq hst).1) (by decide)
  | register =>
    obtain ⟨m, hm, -⟩ := Option.map_eq_some_iff.mp hst
    exact absurd (hearly _ (goOn_eq hm).1) (by decide)
  | spawnWriter =>
    obtain ⟨m, hm, -⟩ := Option.map_eq_some_iff.mp hst
    exact absurd (hearly _ (goOn_eq hm).1) (by decide)
  | spawnSubscriber =>
    obtain ⟨m, hm, -⟩ := Option.map_eq_some_iff.mp hst
    exact absurd (hearly _ (goOn_eq hm).1) (by decide)
  | unregister =>
    obtain ⟨m, hm, -⟩ := Option.map_eq_some_iff.mp hst
    exact absurd (hearly _ (goOn_eq hm).1) (by decide)
  | cancel =>
    obtain ⟨m, hm, -⟩ := Option.map_eq_some_iff.mp hst
    rw [(goOn_eq hm).1] at hserve
    simp at hserve
  | await =>
    simp only [handlerStep] at hst
    split at hst
    · obtain ⟨m, hm, rfl⟩ := Option.map_eq_some_iff.mp hst
      obtain ⟨hpc, rfl⟩ := goOn_eq hm
      refine ⟨h.canceled, ?_⟩
      simp only [Line.stepsLeft, Line.room, hpc, ServePc.stepsLeft]
      omega
    · cases hst
    · cases hst
  | close =>
    obtain ⟨m, hm, rfl⟩ := Option.map_eq_some_iff.mp hst
    obtain ⟨hpc, rfl⟩ := goOn_eq hm
    have hopen := h.placed.safe.open (by rw [hpc]; decide)
    simp only [close_open hopen]
    refine ⟨h.canceled, ?_⟩
    simp only [Line.stepsLeft, Line.room, hpc, ServePc.stepsLeft]
    omega

/-- The socket is closed, so that a write or a ping ends `writer`. -/
theorem Line.Ending.writes {e : WriterAction} (h : l.Ending) (hst : writerStep l e = some l') :
    l'.canceled = true ∧ l'.stepsLeft < l.stepsLeft := by
  have hhungUp := h.hungUp
  have hcanceled := h.canceled
  unfold writerStep at hst
  split at hst
  · next hpc =>
    split at hst
    · next p c hreceive =>
      cases hst
      obtain ⟨hbuffer, hcapacity⟩ := receive_some hreceive
      refine ⟨hcanceled, ?_⟩
      simp only [Line.stepsLeft, Line.room, hpc, hbuffer, hcapacity, WriterPc.stepsLeft, List.length_cons]
      omega
    · next c hreceive =>
      cases hst
      rw [receive_none hreceive]
      refine ⟨hcanceled, ?_⟩
      simp only [Line.stepsLeft, Line.room, hpc, WriterPc.stepsLeft]
      omega
    · cases hst
  · next ok hpc =>
    split at hst
    · cases hst
    · next hfails =>
      cases hst
      have hok : ok = false := by simpa [hhungUp] using hfails
      refine ⟨hcanceled, ?_⟩
      simp [Line.stepsLeft, Line.room, hpc, hok, WriterPc.stepsLeft]
  · next hpc =>
    rw [if_pos hcanceled] at hst
    cases hst
    refine ⟨hcanceled, ?_⟩
    simp [Line.stepsLeft, Line.room, hpc, WriterPc.stepsLeft]
  · next ok hpc =>
    split at hst
    · cases hst
    · next hfails =>
      cases hst
      have hok : ok = false := by simpa [hhungUp] using hfails
      refine ⟨hcanceled, ?_⟩
      simp [Line.stepsLeft, Line.room, hpc, hok, WriterPc.stepsLeft]
  · cases hst

/-- A step after the cancellation lowers the rank. -/
theorem Line.Ending.step {e : LineEvent} (h : l.Ending) (hst : lineStep l e = some l') :
    l'.Ending ∧ l'.stepsLeft < l.stepsLeft := by
  have hplaced := lineStep_placed h.placed hst
  unfold lineStep at hst
  rw [h.placed.safe.unpanicked, if_neg (by decide)] at hst
  cases e with
  | serve e =>
    obtain ⟨hcanceled, hlt⟩ := h.handler hst
    exact ⟨⟨hplaced, hcanceled⟩, hlt⟩
  | writer e =>
    obtain ⟨hcanceled, hlt⟩ := h.writes hst
    exact ⟨⟨hplaced, hcanceled⟩, hlt⟩
  | subscribe e =>
    obtain ⟨⟨hserve, hwriter, hcanceled⟩, -, -, hlt⟩ := subscribeStep_on h.placed.safe hst
    refine ⟨⟨hplaced, hcanceled.trans h.canceled⟩, ?_⟩
    have hless := hlt h.canceled
    simp only [Line.stepsLeft, hserve, hwriter]
    omega

theorem Line.Ending.bound (h : l.Ending) : l.stepsLeft ≤ 2 * sendCapacity + 11 := by
  have hserve : l.serve.stepsLeft ≤ 2 := by cases l.serve <;> decide
  have hwriter : l.writer.stepsLeft ≤ 4 := by cases l.writer <;> simp [WriterPc.stepsLeft]
  have hsubscribe : l.subscribe.stepsLeft ≤ 5 := by
    have hon := h.placed.subscribe h.spawned
    cases hpc : l.subscribe with
    | off => exact absurd hpc hon
    | _ => simp [SubscribePc.stepsLeft]
  have hroom : l.room ≤ sendCapacity := by
    rw [← h.placed.capacity]
    exact Nat.sub_le _ _
  unfold Line.stepsLeft
  omega

/-! ## No goroutine is left -/

/-- All three goroutines have returned. -/
structure Line.Over (l : Line) : Prop where
  serve : l.serve = .returned
  writer : l.writer = .stopped
  subscribe : l.subscribe = .stopped

/-- `subscribe` can always go on, until it has stopped … -/
theorem Line.Ending.subscribe_goes (h : l.Ending) (hrunning : l.subscribe ≠ .stopped) :
    ∃ e, (lineStep l (.subscribe e)).isSome = true := by
  have hon := h.placed.subscribe h.spawned
  simp only [lineStep, h.placed.safe.unpanicked]
  cases hpc : l.subscribe with
  | off => exact absurd hpc hon
  | subscribing => exact ⟨.subscribed, by simp [subscribeStep, hpc]⟩
  | receiving => exact ⟨.receiveFails, by simp [subscribeStep, hpc]⟩
  | sending p => exact ⟨.subscriberDone, by simp [subscribeStep, hpc, h.canceled]⟩
  | leaving => exact ⟨.unsubscribe, by simp [subscribeStep, hpc]⟩
  | signaling =>
    have hopen := h.placed.safe.unsignaled (by rw [hpc]; decide)
    exact ⟨.signal, by simp [subscribeStep, hpc, close_open hopen]⟩
  | stopped => exact absurd hpc hrunning

/-- … and so can `writer` … -/
theorem Line.Ending.writer_goes (h : l.Ending) (hrunning : l.writer ≠ .stopped) :
    ∃ e, (lineStep l (.writer e)).isSome = true := by
  have hon := h.placed.writer (by simp [ServePc.spawnedWriter, h.spawned])
  simp only [lineStep, h.placed.safe.unpanicked]
  cases hpc : l.writer with
  | off => exact absurd hpc hon
  | selecting => exact ⟨.writerDone, by simp [writerStep, hpc, h.canceled]⟩
  | writing p => exact ⟨.write false, by simp [writerStep, hpc]⟩
  | stopped => exact absurd hpc hrunning

/-- … and the handler, once `subscribe` has. -/
theorem Line.Ending.serve_goes (h : l.Ending) (hstopped : l.subscribe = .stopped)
    (hrunning : l.serve ≠ .returned) : ∃ e, (lineStep l (.serve e)).isSome = true := by
  simp only [lineStep, h.placed.safe.unpanicked]
  rcases h.serve with hpc | hpc | hpc
  · have hclosed := h.placed.safe.signaled.mpr hstopped
    refine ⟨.await, ?_⟩
    simp [handlerStep, Chan.receive, h.placed.safe.nothing, hclosed, Line.goOn, hpc]
  · exact ⟨.close, by simp [handlerStep, Line.goOn, hpc]⟩
  · exact absurd hpc hrunning

theorem Line.Ending.over (h : l.Ending) (hstuck : ∀ e, lineStep l e = none) : l.Over := by
  have hnone : ∀ e, ¬ (lineStep l e).isSome = true := fun e => by rw [hstuck e]; decide
  have hsubscribe : l.subscribe = .stopped := by
    by_contra hrunning
    obtain ⟨e, he⟩ := h.subscribe_goes hrunning
    exact hnone _ he
  refine ⟨?_, ?_, hsubscribe⟩
  · by_contra hrunning
    obtain ⟨e, he⟩ := h.serve_goes hsubscribe hrunning
    exact hnone _ he
  · by_contra hrunning
    obtain ⟨e, he⟩ := h.writer_goes hrunning
    exact hnone _ he

/-! ## All connections -/

theorem linesStep_placed {s s' : Nat → Line} {e : Nat × LineEvent} (h : ∀ i, (s i).Placed)
    (hst : linesStep s e = some s') : ∀ i, (s' i).Placed := by
  obtain ⟨l, hl, rfl⟩ := Option.map_eq_some_iff.mp hst
  intro i
  by_cases hi : i = e.1
  · subst hi
    rw [Function.update_self]
    exact lineStep_placed (h _) hl
  · rw [Function.update_of_ne hi]
    exact h i

/-- The other connections do not touch the rank of one that ends. -/
theorem linesStep_ending {s s' : Nat → Line} {i : Nat} {e : Nat × LineEvent} (h : (s i).Ending)
    (hst : linesStep s e = some s') :
    (s' i).Ending ∧ (e.1 = i → (s' i).stepsLeft < (s i).stepsLeft) ∧
      (e.1 ≠ i → (s' i).stepsLeft = (s i).stepsLeft) := by
  obtain ⟨l, hl, rfl⟩ := Option.map_eq_some_iff.mp hst
  by_cases hi : i = e.1
  · subst hi
    rw [Function.update_self]
    obtain ⟨hending, hlt⟩ := h.step hl
    exact ⟨hending, fun _ => hlt, fun hne => absurd rfl hne⟩
  · rw [Function.update_of_ne hi]
    exact ⟨h, fun heq => absurd heq.symm hi, fun _ => rfl⟩

end Synora
