import Synora.Lib.Steps

/- Clients that call a shared server asynchronously. A client runs alone between
   two calls, has at most one request on the wire, and stops at the first call
   that returns an error. The server executes a request atomically, at any time
   after it was sent; then the reply may reach the client or be lost, and a
   client may be told of an error while its request is still on the wire and
   executes later. A client may stop at any point.

   `step_cases` says once what a step can do. `Rely` is the rule for invariants
   made of a fact about the world and one fact about each client: a request may
   change the world under the other clients' feet, everything else is local. -/
namespace Calls

/-- Clients over a world `W` with clock readings `T`: jobs `J` to start with,
client states `P`, requests `C` and replies `R`. -/
structure Program (W T J P C R : Type) where
  /-- Time passes. -/
  tick : W → Nat → W
  /-- A reading of the clock. -/
  clock : W → T
  /-- One request, executed by the server. -/
  exec : W → C → W × R
  /-- The first state of a client and its first request; `none` if the job cannot start now. -/
  start : W → J → Option (P × Option C)
  /-- The client continues with a reply. -/
  resume : T → P → R → P × Option C
  /-- The client continues with an error: it makes no further call. -/
  abort : P → P
  /-- The client has finished. -/
  done : P → Bool

inductive Client (P : Type) where
  | idle
  | live (p : P)
  | dead
  deriving DecidableEq

/-- A client, its request on the wire and the reply on its way back. -/
structure Slot (P C R : Type) where
  client : Client P := .idle
  wire : Option C := none
  inbox : Option R := none

structure State (W P C R : Type) where
  world : W
  slot : Nat → Slot P C R

inductive Event (J : Type) where
  | tick (d : Nat)
  | start (i : Nat) (j : J)
  | exec (i : Nat)
  | recv (i : Nat)
  | fail (i : Nat)
  | drop (i : Nat)
  | crash (i : Nat)
  deriving DecidableEq

section
variable {W T J P C R : Type}

def State.setSlot (s : State W P C R) (i : Nat) (sl : Slot P C R) : State W P C R :=
  { s with slot := fun j => if j = i then sl else s.slot j }

@[simp] theorem State.setSlot_world (s : State W P C R) (i : Nat) (sl : Slot P C R) :
    (s.setSlot i sl).world = s.world := rfl

@[simp] theorem State.setSlot_self (s : State W P C R) (i : Nat) (sl : Slot P C R) :
    (s.setSlot i sl).slot i = sl := by
  simp [State.setSlot]

theorem State.setSlot_ne (s : State W P C R) {i j : Nat} (sl : Slot P C R) (h : j ≠ i) :
    (s.setSlot i sl).slot j = s.slot j := by
  simp [State.setSlot, h]

/-- The last write to a slot stays. -/
theorem State.setSlot_setSlot (s : State W P C R) (i : Nat) (w : W) (sl sl' : Slot P C R) :
    ({ s.setSlot i sl with world := w } : State W P C R).setSlot i sl' =
      ({ s with world := w } : State W P C R).setSlot i sl' := by
  unfold State.setSlot
  congr 1
  funext j
  by_cases hj : j = i <;> simp [hj]

variable (prog : Program W T J P C R)

/-- One event. -/
def Program.step (s : State W P C R) : Event J → Option (State W P C R)
  | .tick d => some { s with world := prog.tick s.world d }
  | .start i j =>
    match (s.slot i).client, prog.start s.world j with
    | .idle, some (p, c) => some (s.setSlot i { client := .live p, wire := c })
    | _, _ => none
  | .exec i =>
    match (s.slot i).wire with
    | some c =>
      let wr := prog.exec s.world c
      some ({ s with world := wr.1 }.setSlot i
        { s.slot i with wire := none, inbox := some wr.2 })
    | none => none
  | .recv i =>
    match (s.slot i).client, (s.slot i).inbox with
    | .live p, some r =>
      if prog.done p then none
      else
        let pc := prog.resume (prog.clock s.world) p r
        some (s.setSlot i { client := .live pc.1, wire := pc.2 })
    | _, _ => none
  | .fail i =>
    match (s.slot i).client with
    | .live p =>
      if prog.done p then none
      else some (s.setSlot i { client := .live (prog.abort p), wire := (s.slot i).wire })
    | _ => none
  | .drop i =>
    match (s.slot i).wire with
    | some _ => some (s.setSlot i { s.slot i with wire := none })
    | none => none
  | .crash i =>
    match (s.slot i).client with
    | .live p =>
      if prog.done p then none else some (s.setSlot i { client := .dead, wire := (s.slot i).wire })
    | _ => none

/-- The state in which no client has started. -/
def State.fresh (w : W) : State W P C R := ⟨w, fun _ => {}⟩

/-- Client `i` has nothing left to do: it finished, stopped or never started, and no
request of it is on the wire. -/
def Program.Quiet (s : State W P C R) (i : Nat) : Prop :=
  (s.slot i).wire = none ∧ ∀ p, (s.slot i).client = .live p → prog.done p = true

variable {prog}

theorem Program.start_inv {s s' : State W P C R} {i : Nat} {j : J} (h : prog.step s (.start i j) = some s') :
    ∃ p c, (s.slot i).client = .idle ∧ prog.start s.world j = some (p, c) ∧
      s' = s.setSlot i { client := .live p, wire := c } := by
  simp only [Program.step] at h
  split at h
  · rename_i p c hc hs
    simp only [Option.some.injEq] at h
    exact ⟨p, c, hc, hs, h.symm⟩
  · cases h

theorem Program.exec_inv {s s' : State W P C R} {i : Nat} (h : prog.step s (.exec i) = some s') :
    ∃ c, (s.slot i).wire = some c ∧ s' = { s with world := (prog.exec s.world c).1 }.setSlot i
      { s.slot i with wire := none, inbox := some (prog.exec s.world c).2 } := by
  simp only [Program.step] at h
  split at h
  · rename_i c hc
    simp only [Option.some.injEq] at h
    exact ⟨c, hc, h.symm⟩
  · cases h

/-- **What a step can do.** -/
theorem Program.step_cases {s s' : State W P C R} {e : Event J} (h : prog.step s e = some s') :
    (∃ d, e = .tick d ∧ s' = { s with world := prog.tick s.world d }) ∨
    (∃ i j p c, e = .start i j ∧ (s.slot i).client = .idle ∧ prog.start s.world j = some (p, c) ∧
      s' = s.setSlot i { client := .live p, wire := c }) ∨
    (∃ i c, e = .exec i ∧ (s.slot i).wire = some c ∧
      s' = { s with world := (prog.exec s.world c).1 }.setSlot i
        { s.slot i with wire := none, inbox := some (prog.exec s.world c).2 }) ∨
    (∃ i p r, e = .recv i ∧ (s.slot i).client = .live p ∧ (s.slot i).inbox = some r ∧
      prog.done p = false ∧
      s' = s.setSlot i { client := .live (prog.resume (prog.clock s.world) p r).1,
                         wire := (prog.resume (prog.clock s.world) p r).2 }) ∨
    (∃ i p, e = .fail i ∧ (s.slot i).client = .live p ∧ prog.done p = false ∧
      s' = s.setSlot i { client := .live (prog.abort p), wire := (s.slot i).wire }) ∨
    (∃ i c, e = .drop i ∧ (s.slot i).wire = some c ∧
      s' = s.setSlot i { s.slot i with wire := none }) ∨
    (∃ i p, e = .crash i ∧ (s.slot i).client = .live p ∧ prog.done p = false ∧
      s' = s.setSlot i { client := .dead, wire := (s.slot i).wire }) := by
  cases e with
  | tick d =>
    simp only [Program.step, Option.some.injEq] at h
    exact .inl ⟨d, rfl, h.symm⟩
  | start i j =>
    obtain ⟨p, c, hc, hs, rfl⟩ := Program.start_inv h
    exact .inr (.inl ⟨i, j, p, c, rfl, hc, hs, rfl⟩)
  | exec i =>
    obtain ⟨c, hc, rfl⟩ := Program.exec_inv h
    exact .inr (.inr (.inl ⟨i, c, rfl, hc, rfl⟩))
  | recv i =>
    simp only [Program.step] at h
    split at h
    · rename_i p r hc hr
      split at h
      · cases h
      · rename_i hd
        simp only [Option.some.injEq] at h
        exact .inr (.inr (.inr (.inl ⟨i, p, r, rfl, hc, hr, by simpa using hd, h.symm⟩)))
    · cases h
  | fail i =>
    simp only [Program.step] at h
    split at h
    · rename_i p hc
      split at h
      · cases h
      · rename_i hd
        simp only [Option.some.injEq] at h
        exact .inr (.inr (.inr (.inr (.inl ⟨i, p, rfl, hc, by simpa using hd, h.symm⟩))))
    · cases h
  | drop i =>
    simp only [Program.step] at h
    split at h
    · rename_i c hc
      simp only [Option.some.injEq] at h
      exact .inr (.inr (.inr (.inr (.inr (.inl ⟨i, c, rfl, hc, h.symm⟩)))))
    · cases h
  | crash i =>
    simp only [Program.step] at h
    split at h
    · rename_i p hc
      split at h
      · cases h
      · rename_i hd
        simp only [Option.some.injEq] at h
        exact .inr (.inr (.inr (.inr (.inr (.inr ⟨i, p, rfl, hc, by simpa using hd, h.symm⟩)))))
    · cases h

/-- A request on the wire may execute. -/
theorem Program.step_exec {s : State W P C R} {i : Nat} {c : C} (hw : (s.slot i).wire = some c) :
    prog.step s (.exec i) = some ({ s with world := (prog.exec s.world c).1 }.setSlot i
      { s.slot i with wire := none, inbox := some (prog.exec s.world c).2 }) := by
  simp [Program.step, hw]

/-- What a step can do to the world: only time and requests change it. -/
theorem Program.step_world {s s' : State W P C R} {e : Event J} (h : prog.step s e = some s') :
    s'.world = s.world ∨ (∃ d, e = .tick d ∧ s'.world = prog.tick s.world d) ∨
      (∃ i c, e = .exec i ∧ (s.slot i).wire = some c ∧ s'.world = (prog.exec s.world c).1) := by
  rcases Program.step_cases h with ⟨d, rfl, rfl⟩ | ⟨i, j, p, c, rfl, -, -, rfl⟩ |
      ⟨i, c, rfl, hw, rfl⟩ | ⟨i, p, r, rfl, -, -, -, rfl⟩ | ⟨i, p, rfl, -, -, rfl⟩ |
      ⟨i, c, rfl, -, rfl⟩ | ⟨i, p, rfl, -, -, rfl⟩
  · exact .inr (.inl ⟨d, rfl, rfl⟩)
  · exact .inl rfl
  · exact .inr (.inr ⟨i, c, rfl, hw, rfl⟩)
  all_goals exact .inl rfl

/-- **What a step can do to one slot**: nothing, or what its event says. -/
theorem Program.step_slot {s s' : State W P C R} {e : Event J} (h : prog.step s e = some s') (i : Nat) :
    s'.slot i = s.slot i ∨
    (∃ j p c, e = .start i j ∧ (s.slot i).client = .idle ∧ prog.start s.world j = some (p, c) ∧
      s'.slot i = { client := .live p, wire := c }) ∨
    (∃ c, e = .exec i ∧ (s.slot i).wire = some c ∧
      s'.slot i = { s.slot i with wire := none, inbox := some (prog.exec s.world c).2 }) ∨
    (∃ p r, e = .recv i ∧ (s.slot i).client = .live p ∧ (s.slot i).inbox = some r ∧
      prog.done p = false ∧ s'.slot i = { client := .live (prog.resume (prog.clock s.world) p r).1,
                                          wire := (prog.resume (prog.clock s.world) p r).2 }) ∨
    (∃ p, e = .fail i ∧ (s.slot i).client = .live p ∧ prog.done p = false ∧
      s'.slot i = { client := .live (prog.abort p), wire := (s.slot i).wire }) ∨
    (∃ c, e = .drop i ∧ (s.slot i).wire = some c ∧ s'.slot i = { s.slot i with wire := none }) ∨
    (∃ p, e = .crash i ∧ (s.slot i).client = .live p ∧ prog.done p = false ∧
      s'.slot i = { client := .dead, wire := (s.slot i).wire }) := by
  rcases Program.step_cases h with ⟨d, rfl, rfl⟩ | ⟨k, j, p, c, rfl, hc, hs, rfl⟩ |
      ⟨k, c, rfl, hw, rfl⟩ | ⟨k, p, r, rfl, hc, hr, hd, rfl⟩ | ⟨k, p, rfl, hc, hd, rfl⟩ |
      ⟨k, c, rfl, hw, rfl⟩ | ⟨k, p, rfl, hc, hd, rfl⟩
  · exact .inl rfl
  all_goals
    by_cases hik : i = k
    swap
    · exact .inl (State.setSlot_ne _ _ hik)
    subst hik
  · exact .inr (.inl ⟨j, p, c, rfl, hc, hs, State.setSlot_self _ _ _⟩)
  · exact .inr (.inr (.inl ⟨c, rfl, hw, State.setSlot_self _ _ _⟩))
  · exact .inr (.inr (.inr (.inl ⟨p, r, rfl, hc, hr, hd, State.setSlot_self _ _ _⟩)))
  · exact .inr (.inr (.inr (.inr (.inl ⟨p, rfl, hc, hd, State.setSlot_self _ _ _⟩))))
  · exact .inr (.inr (.inr (.inr (.inr (.inl ⟨c, rfl, hw, State.setSlot_self _ _ _⟩)))))
  · exact .inr (.inr (.inr (.inr (.inr (.inr ⟨p, rfl, hc, hd, State.setSlot_self _ _ _⟩)))))

/-! ## Rely: a fact about the world and a fact about each client -/

/-- The parts of an invariant `G world ∧ ∀ i, L i world (slot i)` over steps that meet `D`. -/
structure Rely (prog : Program W T J P C R) (G : W → Prop) (L : Nat → W → Slot P C R → Prop)
    (D : State W P C R → Event J → Prop) : Prop where
  tick : ∀ w d, G w → G (prog.tick w d)
  tickL : ∀ i w d sl, G w → L i w sl → L i (prog.tick w d) sl
  start : ∀ s i j p c, G s.world → D s (.start i j) → prog.start s.world j = some (p, c) →
    L i s.world { client := .live p, wire := c }
  exec : ∀ s i c, G s.world → L i s.world (s.slot i) → D s (.exec i) → (s.slot i).wire = some c →
    G (prog.exec s.world c).1
  execL : ∀ s i c, G s.world → L i s.world (s.slot i) → D s (.exec i) → (s.slot i).wire = some c →
    L i (prog.exec s.world c).1
      { s.slot i with wire := none, inbox := some (prog.exec s.world c).2 }
  stable : ∀ s i c j sl, G s.world → L i s.world (s.slot i) → D s (.exec i) →
    (s.slot i).wire = some c → L j s.world sl → L j (prog.exec s.world c).1 sl
  recv : ∀ s i p r, G s.world → L i s.world (s.slot i) → D s (.recv i) →
    (s.slot i).client = .live p → (s.slot i).inbox = some r → prog.done p = false →
    L i s.world { client := .live (prog.resume (prog.clock s.world) p r).1,
                  wire := (prog.resume (prog.clock s.world) p r).2 }
  fail : ∀ s i p, G s.world → L i s.world (s.slot i) → D s (.fail i) →
    (s.slot i).client = .live p → prog.done p = false →
    L i s.world { client := .live (prog.abort p), wire := (s.slot i).wire }
  drop : ∀ i w sl, G w → L i w sl → L i w { sl with wire := none }
  crash : ∀ i w sl, G w → L i w sl → L i w { client := .dead, wire := sl.wire }

/-- The invariant the two facts make. -/
def Holds (G : W → Prop) (L : Nat → W → Slot P C R → Prop) (s : State W P C R) : Prop :=
  G s.world ∧ ∀ i, L i s.world (s.slot i)

/-- A step that rewrites one slot only keeps the invariant if the new slot does. -/
theorem holds_setSlot {G : W → Prop} {L : Nat → W → Slot P C R → Prop} {s : State W P C R} {i : Nat}
    {sl : Slot P C R} (h : Holds G L s) (hsl : L i s.world sl) : Holds G L (s.setSlot i sl) := by
  refine ⟨h.1, fun j => ?_⟩
  by_cases hj : j = i
  · subst hj
    simpa using hsl
  · rw [State.setSlot_ne s sl hj]
    exact h.2 j

/-- **The rely rule.** -/
theorem Rely.step {G : W → Prop} {L : Nat → W → Slot P C R → Prop}
    {D : State W P C R → Event J → Prop} (hR : Rely prog G L D) {s s' : State W P C R} {e : Event J}
    (h : Holds G L s) (hD : D s e) (hs : prog.step s e = some s') : Holds G L s' := by
  obtain ⟨hG, hL⟩ := h
  rcases Program.step_cases hs with ⟨d, rfl, rfl⟩ | ⟨i, j, p, c, rfl, -, hst, rfl⟩ |
      ⟨i, c, rfl, hw, rfl⟩ | ⟨i, p, r, rfl, hc, hr, hd, rfl⟩ | ⟨i, p, rfl, hc, hd, rfl⟩ |
      ⟨i, c, rfl, -, rfl⟩ | ⟨i, p, rfl, -, -, rfl⟩
  · exact ⟨hR.tick _ d hG, fun i => hR.tickL i _ d _ hG (hL i)⟩
  · exact holds_setSlot ⟨hG, hL⟩ (hR.start s i j p c hG hD hst)
  · refine holds_setSlot ⟨hR.exec s i c hG (hL i) hD hw, fun j => ?_⟩ ?_
    · exact hR.stable s i c j _ hG (hL i) hD hw (hL j)
    · exact hR.execL s i c hG (hL i) hD hw
  · exact holds_setSlot ⟨hG, hL⟩ (hR.recv s i p r hG (hL i) hD hc hr hd)
  · exact holds_setSlot ⟨hG, hL⟩ (hR.fail s i p hG (hL i) hD hc hd)
  · exact holds_setSlot ⟨hG, hL⟩ (hR.drop i _ _ hG (hL i))
  · exact holds_setSlot ⟨hG, hL⟩ (hR.crash i _ _ hG (hL i))

/-- A call that goes through: the request executes and the client gets the reply. -/
theorem run_call {s : State W P C R} {i : Nat} {p : P} {c : C} {es : List (Event J)}
    (hd : prog.done p = false) :
    Steps.run prog.step (s.setSlot i { client := .live p, wire := some c }) (.exec i :: .recv i :: es) =
      Steps.run prog.step ({ s with world := (prog.exec s.world c).1 }.setSlot i
        { client := .live (prog.resume (prog.clock (prog.exec s.world c).1) p (prog.exec s.world c).2).1,
          wire := (prog.resume (prog.clock (prog.exec s.world c).1) p (prog.exec s.world c).2).2 }) es := by
  have hexec : prog.step (s.setSlot i { client := .live p, wire := some c }) (.exec i) =
      some ({ s with world := (prog.exec s.world c).1 }.setSlot i
        { client := .live p, wire := none, inbox := some (prog.exec s.world c).2 }) := by
    simp [Program.step, State.setSlot_setSlot]
  have hrecv : prog.step ({ s with world := (prog.exec s.world c).1 }.setSlot i
        { client := .live p, wire := none, inbox := some (prog.exec s.world c).2 }) (.recv i) =
      some ({ s with world := (prog.exec s.world c).1 }.setSlot i
        { client := .live (prog.resume (prog.clock (prog.exec s.world c).1) p (prog.exec s.world c).2).1,
          wire := (prog.resume (prog.clock (prog.exec s.world c).1) p (prog.exec s.world c).2).2 }) := by
    simp only [Program.step, State.setSlot_self, State.setSlot_world, hd]
    exact congrArg some (State.setSlot_setSlot _ i _ _ _)
  rw [Steps.run, hexec, Option.bind_some, Steps.run, hrecv, Option.bind_some]

/-! ## Slots that no event of a run touches -/

/-- The client an event is about. -/
def Event.client : Event J → Option Nat
  | .tick _ => none
  | .start i _ | .exec i | .recv i | .fail i | .drop i | .crash i => some i

theorem slot_step_untouched {s s' : State W P C R} {e : Event J} {i : Nat}
    (hs : prog.step s e = some s') (hi : e.client ≠ some i) : s'.slot i = s.slot i := by
  rcases Program.step_slot hs i with h | ⟨_, _, _, rfl, -⟩ | ⟨_, rfl, -⟩ | ⟨_, _, rfl, -⟩ | ⟨_, rfl, -⟩ |
      ⟨_, rfl, -⟩ | ⟨_, rfl, -⟩
  · exact h
  all_goals exact absurd rfl hi

theorem slot_run_untouched {s s' : State W P C R} {es : List (Event J)} {i : Nat}
    (hs : Steps.run prog.step s es = some s') (hi : ∀ e ∈ es, e.client ≠ some i) :
    s'.slot i = s.slot i := by
  induction es generalizing s with
  | nil =>
    cases hs
    rfl
  | cons e es ih =>
    obtain ⟨m, hm, hr⟩ := Steps.run_cons.mp hs
    rw [ih hr fun f hf => hi f (List.mem_cons_of_mem _ hf)]
    exact slot_step_untouched hm (hi e List.mem_cons_self)

/-- Whether a client has nothing left to do. -/
def Program.quietSlot (prog : Program W T J P C R) (sl : Slot P C R) : Bool :=
  sl.wire.isNone && match sl.client with
    | .live p => prog.done p
    | _ => true

theorem quiet_of_quietSlot {s : State W P C R} {i : Nat} (h : prog.quietSlot (s.slot i) = true) :
    prog.Quiet s i := by
  unfold Program.quietSlot at h
  rw [Bool.and_eq_true] at h
  refine ⟨Option.isNone_iff_eq_none.mp h.1, fun p hp => ?_⟩
  have := h.2
  rw [hp] at this
  exact this

/-- After a run of the first `n` clients, the others are quiet. -/
theorem quiet_of_check {w : W} {s' : State W P C R} {es : List (Event J)} (n : Nat)
    (hs : Steps.run prog.step (State.fresh w) es = some s')
    (hes : es.all (fun e => e.client.all (fun i => decide (i < n))) = true)
    (hn : (List.range n).all (fun i => prog.quietSlot (s'.slot i)) = true) (i : Nat) :
    prog.Quiet s' i := by
  by_cases hi : i < n
  · exact quiet_of_quietSlot (List.all_eq_true.mp hn i (List.mem_range.mpr hi))
  · have huntouched : ∀ e ∈ es, e.client ≠ some i := by
      intro e he hc
      have := List.all_eq_true.mp hes e he
      rw [hc] at this
      exact hi (by simpa using this)
    have := slot_run_untouched hs huntouched
    refine ⟨by rw [this]; rfl, fun p hp => ?_⟩
    rw [this] at hp
    cases hp

/-! ## One call at a time -/

/-- A client has a request on the wire or a reply on its way, not both, and none of them before
it starts. -/
structure Slot.Single (sl : Slot P C R) : Prop where
  one : sl.wire = none ∨ sl.inbox = none
  idle : sl.client = .idle → sl.wire = none ∧ sl.inbox = none

theorem Slot.Single.inbox_none {sl : Slot P C R} (h : sl.Single) {c : C} (hw : sl.wire = some c) :
    sl.inbox = none := by
  rcases h.one with hn | hn
  · rw [hw] at hn
    cases hn
  · exact hn

theorem single_step {s s' : State W P C R} {e : Event J} (h : ∀ i, (s.slot i).Single)
    (hs : prog.step s e = some s') : ∀ i, (s'.slot i).Single := by
  intro i
  -- a request is on the wire, so the client has started
  have hstarted : ∀ c, (s.slot i).wire = some c → (s.slot i).client ≠ .idle := by
    intro c hw hc
    rw [((h i).idle hc).1] at hw
    cases hw
  rcases Program.step_slot hs i with he | ⟨_, _, _, -, -, -, he⟩ | ⟨c, -, hw, he⟩ | ⟨_, _, -, -, -, -, he⟩ |
      ⟨_, -, -, -, he⟩ | ⟨c, -, hw, he⟩ | ⟨_, -, -, -, he⟩ <;> rw [he]
  · exact h i
  · exact ⟨.inr rfl, fun hc => by cases hc⟩
  · exact ⟨.inl rfl, fun hc => absurd hc (hstarted c hw)⟩
  · exact ⟨.inr rfl, fun hc => by cases hc⟩
  · exact ⟨.inr rfl, fun hc => by cases hc⟩
  · exact ⟨.inl rfl, fun hc => absurd hc (hstarted c hw)⟩
  · exact ⟨.inr rfl, fun hc => by cases hc⟩

/-! ## Debts: what holds of the world unless a client is still to bring it about -/

/-- `K` holds of the world, or some client owes it. -/
def Owed (K : W → Prop) (O : Slot P C R → Prop) (s : State W P C R) : Prop :=
  K s.world ∨ ∃ j, O (s.slot j)

/-- A step that changes the world and one slot. It may break `K` only if somebody owes it
then, and it may end the debt of its own slot only by paying it. -/
theorem Owed.setSlot {K : W → Prop} {O : Slot P C R → Prop} {s : State W P C R} {i : Nat} {w : W}
    {sl : Slot P C R} (h : Owed K O s)
    (hw : K s.world → K w ∨ O sl ∨ ∃ j, j ≠ i ∧ O (s.slot j))
    (hi : O (s.slot i) → K w ∨ O sl) : Owed K O ({ s with world := w }.setSlot i sl) := by
  have hself : O sl → Owed K O ({ s with world := w }.setSlot i sl) :=
    fun ho => .inr ⟨i, by simpa using ho⟩
  have hother : ∀ j, j ≠ i → O (s.slot j) → Owed K O ({ s with world := w }.setSlot i sl) :=
    fun j hj ho => .inr ⟨j, by rw [State.setSlot_ne _ sl hj]; exact ho⟩
  rcases h with hK | ⟨j, hj⟩
  · rcases hw hK with hK' | hO | ⟨j, hne, hO⟩
    · exact .inl hK'
    · exact hself hO
    · exact hother j hne hO
  · by_cases hji : j = i
    · subst hji
      rcases hi hj with hK' | hO
      · exact .inl hK'
      · exact hself hO
    · exact hother j hji hj

/-- A step that changes one slot only. -/
theorem Owed.setSlot_same {K : W → Prop} {O : Slot P C R → Prop} {s : State W P C R} {i : Nat}
    {sl : Slot P C R} (h : Owed K O s) (hi : O (s.slot i) → K s.world ∨ O sl) :
    Owed K O (s.setSlot i sl) :=
  Owed.setSlot (w := s.world) h .inl hi

end

end Calls
