import Mathlib.Data.Nat.Pairing
import Synora.Lib.Calls

/- Workers that take their jobs in batches and run them one after another, beside
   clients of their own. A job of a batch begins when the worker comes to it, with
   what was known of it when the batch was taken; the worker may skip it, and may stop
   between two jobs. Whatever such workers do is a run of clients that all start when
   the batch is taken and whose first requests are on the wire since (`batch_run`):
   what holds of the clients (Calls) in every order holds of the workers. -/
namespace Calls

section
variable {W T J P C R : Type}

/-- A worker: all the jobs it has taken; those of its batch that it has not come to, each with the
first state and request of its client; the number of jobs it has come to; the last one it has begun;
whether it goes on. -/
structure Line (J P C : Type) where
  taken : List J := []
  queue : List (P × Option C) := []
  next : Nat := 0
  current : Option Nat := none
  running : Bool := true

structure Batched (W J P C R : Type) where
  calls : State W P C R
  line : Nat → Line J P C

inductive BatchEvent (J : Type) where
  | serve (e : Event J)
  | take (k : Nat) (js : List J)
  | next (k : Nat)
  | skip (k : Nat)
  | stop (k : Nat)

/-- The client of the `n`-th job of worker `k`; the even ones are on their own. -/
def place (k n : Nat) : Nat := 2 * Nat.pair k n + 1

theorem place_inj {k n k' n' : Nat} : place k n = place k' n' ↔ k = k' ∧ n = n' := by
  unfold place
  rw [← Nat.pair_eq_pair]
  omega

/-- Each client is on its own or a job. -/
theorem even_or_place (i : Nat) : i % 2 = 0 ∨ ∃ k n, i = place k n := by
  rcases Nat.mod_two_eq_zero_or_one i with h | h
  · exact .inl h
  · refine .inr ⟨(i / 2).unpair.1, (i / 2).unpair.2, ?_⟩
    rw [place, Nat.pair_unpair]
    omega

theorem place_odd (k n : Nat) : place k n % 2 = 1 := by
  unfold place
  omega

/-- The event starts no job of a worker. -/
def Event.startsFree : Event J → Bool
  | .start i _ => i % 2 == 0
  | _ => true

def Batched.setLine (s : Batched W J P C R) (k : Nat) (l : Line J P C) : Batched W J P C R :=
  { s with line := fun j => if j = k then l else s.line j }

variable (prog : Program W T J P C R)

/-- The worker goes on, and the job it has begun last has finished. -/
def Batched.atRest (s : Batched W J P C R) (k : Nat) : Bool :=
  (s.line k).running && match (s.line k).current with
    | none => true
    | some n =>
      match (s.calls.slot (place k n)).client with
      | .live p => prog.done p
      | _ => false

/-- The first job of the queue begins. -/
def Batched.begin (s : Batched W J P C R) (k : Nat) (p : P) (c : Option C) (rest : List (P × Option C)) :
    Batched W J P C R :=
  ({ s with calls := s.calls.setSlot (place k (s.line k).next) { client := .live p, wire := c } } :
    Batched W J P C R).setLine k
      { s.line k with queue := rest, next := (s.line k).next + 1, current := some (s.line k).next }

/-- One event. -/
def Program.batchStep (s : Batched W J P C R) : BatchEvent J → Option (Batched W J P C R)
  | .serve e => if e.startsFree then (prog.step s.calls e).map fun t => { s with calls := t } else none
  | .take k js =>
    if s.atRest prog k ∧ (s.line k).queue.isEmpty then
      (js.mapM (prog.start s.calls.world)).map fun q =>
        s.setLine k { s.line k with taken := (s.line k).taken ++ js, queue := q }
    else none
  | .next k =>
    match (s.line k).queue with
    | (p, c) :: rest => if s.atRest prog k then some (s.begin k p c rest) else none
    | [] => none
  | .skip k =>
    match (s.line k).queue with
    | _ :: rest =>
      if s.atRest prog k then some (s.setLine k { s.line k with queue := rest, next := (s.line k).next + 1 })
      else none
    | [] => none
  | .stop k => if s.atRest prog k then some (s.setLine k { s.line k with running := false }) else none

/-- No client and no worker has started. -/
def Batched.fresh (w : W) : Batched W J P C R := ⟨State.fresh w, fun _ => {}⟩

/-- The jobs an event starts or takes. -/
def BatchEvent.jobs : BatchEvent J → List J
  | .serve (.start _ j) => [j]
  | .take _ js => js
  | _ => []

@[simp] theorem Batched.setLine_calls (s : Batched W J P C R) (k : Nat) (l : Line J P C) :
    (s.setLine k l).calls = s.calls := rfl

@[simp] theorem Batched.setLine_self (s : Batched W J P C R) (k : Nat) (l : Line J P C) :
    (s.setLine k l).line k = l := by
  simp [Batched.setLine]

theorem Batched.setLine_ne (s : Batched W J P C R) {j k : Nat} (l : Line J P C) (h : j ≠ k) :
    (s.setLine k l).line j = s.line j := by
  simp [Batched.setLine, h]

/-- The other workers are as they were. -/
theorem setLine_cases (s : Batched W J P C R) (k : Nat) (l : Line J P C) (j : Nat) :
    (j = k ∧ (s.setLine k l).line j = l) ∨ (j ≠ k ∧ (s.setLine k l).line j = s.line j) := by
  by_cases h : j = k
  · subst h
    exact .inl ⟨rfl, Batched.setLine_self s j l⟩
  · exact .inr ⟨h, Batched.setLine_ne s l h⟩

variable {prog}

/-- **What an event of the workers can do.** -/
theorem batchStep_cases {s s' : Batched W J P C R} {x : BatchEvent J} (h : prog.batchStep s x = some s') :
    (∃ e t, x = .serve e ∧ e.startsFree = true ∧ prog.step s.calls e = some t ∧ s' = { s with calls := t }) ∨
    (∃ k js q, x = .take k js ∧ s.atRest prog k = true ∧ (s.line k).queue = [] ∧
      js.mapM (prog.start s.calls.world) = some q ∧
      s' = s.setLine k { s.line k with taken := (s.line k).taken ++ js, queue := q }) ∨
    (∃ k p c rest, x = .next k ∧ s.atRest prog k = true ∧ (s.line k).queue = (p, c) :: rest ∧
      s' = s.begin k p c rest) ∨
    (∃ k pc rest, x = .skip k ∧ s.atRest prog k = true ∧ (s.line k).queue = pc :: rest ∧
      s' = s.setLine k { s.line k with queue := rest, next := (s.line k).next + 1 }) ∨
    (∃ k, x = .stop k ∧ s.atRest prog k = true ∧ s' = s.setLine k { s.line k with running := false }) := by
  cases x with
  | serve e =>
    simp only [Program.batchStep] at h
    split at h
    · rename_i hfree
      obtain ⟨t, ht, rfl⟩ := Option.map_eq_some_iff.mp h
      exact .inl ⟨e, t, rfl, hfree, ht, rfl⟩
    · cases h
  | take k js =>
    simp only [Program.batchStep] at h
    split at h
    · rename_i hrest
      obtain ⟨q, hq, rfl⟩ := Option.map_eq_some_iff.mp h
      exact .inr (.inl ⟨k, js, q, rfl, hrest.1, List.isEmpty_iff.mp hrest.2, hq, rfl⟩)
    · cases h
  | next k =>
    simp only [Program.batchStep] at h
    split at h
    · rename_i p c rest hqueue
      split at h
      · rename_i hrest
        cases h
        exact .inr (.inr (.inl ⟨k, p, c, rest, rfl, hrest, hqueue, rfl⟩))
      · cases h
    · cases h
  | skip k =>
    simp only [Program.batchStep] at h
    split at h
    · rename_i pc rest hqueue
      split at h
      · rename_i hrest
        cases h
        exact .inr (.inr (.inr (.inl ⟨k, pc, rest, rfl, hrest, hqueue, rfl⟩)))
      · cases h
    · cases h
  | stop k =>
    simp only [Program.batchStep] at h
    split at h
    · rename_i hrest
      cases h
      exact .inr (.inr (.inr (.inr ⟨k, rfl, hrest, rfl⟩)))
    · cases h

/-! ## One job after another -/

/-- A client is in state `p` at the job `j`. -/
inductive Stems (prog : Program W T J P C R) (j : J) : P → Prop
  | start (w : W) (p : P) (c : Option C) (h : prog.start w j = some (p, c)) : Stems prog j p
  | resume (t : T) (p : P) (r : R) (h : Stems prog j p) (hd : prog.done p = false) :
    Stems prog j (prog.resume t p r).1
  | abort (p : P) (h : Stems prog j p) : Stems prog j (prog.abort p)

/-- The jobs are run in the order they were taken, each after the last has finished. -/
structure Orderly (prog : Program W T J P C R) (s : Batched W J P C R) : Prop where
  count : ∀ k, (s.line k).taken.length = (s.line k).next + (s.line k).queue.length
  waiting : ∀ k n p c, (s.line k).queue[n]? = some (p, c) →
    ∃ w j, (s.line k).taken[(s.line k).next + n]? = some j ∧ prog.start w j = some (p, c)
  current : ∀ k n, (s.line k).current = some n → n < (s.line k).next
  finished : ∀ k n, n < (s.line k).next → s.calls.slot (place k n) = {} ∨ (s.line k).current = some n ∨
    ∃ p, (s.calls.slot (place k n)).client = .live p ∧ prog.done p = true
  stems : ∀ k n p, (s.calls.slot (place k n)).client = .live p →
    ∃ j, (s.line k).taken[n]? = some j ∧ Stems prog j p
  ahead : ∀ k n, (s.line k).next ≤ n → s.calls.slot (place k n) = {}

/-- Nothing happens in the slot of a job that has not begun. -/
theorem empty_step {s s' : State W P C R} {e : Event J} {k n : Nat} (hfree : e.startsFree = true)
    (hempty : s.slot (place k n) = {}) (hs : prog.step s e = some s') : s'.slot (place k n) = {} := by
  have hodd := place_odd k n
  rcases Program.step_slot hs (place k n) with he | ⟨j, p, c, rfl, -⟩ | ⟨c, -, hw, -⟩ | ⟨p, r, -, hc, -⟩ |
      ⟨p, -, hc, -⟩ | ⟨c, -, hw, -⟩ | ⟨p, -, hc, -⟩
  case inl => rw [he, hempty]
  case inr.inl =>
    have heven : place k n % 2 = 0 := by simpa [Event.startsFree] using hfree
    omega
  all_goals simp_all

/-- What a step can do to the client of a job: it goes on, or dies, unless it has finished. -/
theorem client_step {s s' : State W P C R} {e : Event J} {k n : Nat} (hfree : e.startsFree = true)
    (hs : prog.step s e = some s') :
    (s'.slot (place k n)).client = (s.slot (place k n)).client ∨
    ∃ p, (s.slot (place k n)).client = .live p ∧ prog.done p = false ∧
      ((∃ t r, (s'.slot (place k n)).client = .live (prog.resume t p r).1) ∨
        (s'.slot (place k n)).client = .live (prog.abort p) ∨ (s'.slot (place k n)).client = .dead) := by
  have hodd := place_odd k n
  rcases Program.step_slot hs (place k n) with he | ⟨j, p, c, rfl, -⟩ | ⟨c, -, -, he⟩ | ⟨p, r, -, hc, -, hd, he⟩ |
      ⟨p, -, hc, hd, he⟩ | ⟨c, -, -, he⟩ | ⟨p, -, hc, hd, he⟩
  · exact .inl (by rw [he])
  · have heven : place k n % 2 = 0 := by simpa [Event.startsFree] using hfree
    omega
  · exact .inl (by rw [he])
  · exact .inr ⟨p, hc, hd, .inl ⟨_, r, by rw [he]⟩⟩
  · exact .inr ⟨p, hc, hd, .inr (.inl (by rw [he]))⟩
  · exact .inl (by rw [he])
  · exact .inr ⟨p, hc, hd, .inr (.inr (by rw [he]))⟩

/-- The results of `mapM`, one by one. -/
theorem mapM_getElem? {α β : Type} {f : α → Option β} {xs : List α} {ys : List β} (h : xs.mapM f = some ys) :
    ys.length = xs.length ∧ ∀ (n : Nat) (y : β), ys[n]? = some y → ∃ x, xs[n]? = some x ∧ f x = some y := by
  induction xs generalizing ys with
  | nil =>
    cases h
    exact ⟨rfl, fun n y hy => by cases hy⟩
  | cons x xs ih =>
    rw [List.mapM_cons] at h
    obtain ⟨z, hz, h⟩ := Option.bind_eq_some_iff.mp h
    obtain ⟨zs, hzs, hcons⟩ := Option.bind_eq_some_iff.mp h
    cases hcons
    obtain ⟨hlen, hget⟩ := ih hzs
    refine ⟨by simp [hlen], fun n y hy => ?_⟩
    cases n with
    | zero =>
      cases hy
      exact ⟨x, rfl, hz⟩
    | succ n => exact hget n y hy

theorem orderly_fresh (w : W) : Orderly prog (Batched.fresh w : Batched W J P C R) where
  count _ := rfl
  waiting k n p c h := by simp [Batched.fresh] at h
  current k n h := by simp [Batched.fresh] at h
  finished k n h := by simp [Batched.fresh] at h
  stems k n p h := by cases h
  ahead _ _ _ := rfl

/-- The clients take a step. -/
theorem Orderly.serve {s : Batched W J P C R} {c : State W P C R} {e : Event J} (h : Orderly prog s)
    (hfree : e.startsFree = true) (hs : prog.step s.calls e = some c) : Orderly prog { s with calls := c } where
  count := h.count
  waiting := h.waiting
  current := h.current
  finished k n hn := by
    rcases h.finished k n hn with hempty | hcur | ⟨p, hp, hd⟩
    · exact .inl (empty_step hfree hempty hs)
    · exact .inr (.inl hcur)
    · rcases client_step (k := k) (n := n) hfree hs with he | ⟨q, hq, hnd, -⟩
      · exact .inr (.inr ⟨p, he.trans hp, hd⟩)
      · rw [hp] at hq
        cases hq
        rw [hd] at hnd
        cases hnd
  stems k n p hp := by
    rcases client_step (k := k) (n := n) hfree hs with he | ⟨q, hq, hnd, hnext⟩
    · exact h.stems k n p (he.symm.trans hp)
    · obtain ⟨j, hj, hstems⟩ := h.stems k n q hq
      rcases hnext with ⟨t, r, hc⟩ | hc | hc <;> rw [hc] at hp <;> cases hp
      · exact ⟨j, hj, .resume t q r hstems hnd⟩
      · exact ⟨j, hj, .abort q hstems⟩
  ahead k n hn := empty_step hfree (h.ahead k n hn) hs

/-- A worker takes a batch. -/
theorem Orderly.take {s : Batched W J P C R} (h : Orderly prog s) {k : Nat} {js : List J}
    {q : List (P × Option C)} (hempty : (s.line k).queue = []) (hq : js.mapM (prog.start s.calls.world) = some q) :
    Orderly prog (s.setLine k { s.line k with taken := (s.line k).taken ++ js, queue := q }) := by
  obtain ⟨hlen, hget⟩ := mapM_getElem? hq
  have hcount : (s.line k).taken.length = (s.line k).next := by
    have := h.count k
    rwa [hempty] at this
  have hlines := setLine_cases s k { s.line k with taken := (s.line k).taken ++ js, queue := q }
  refine ⟨fun j => ?_, fun j n p c hp => ?_, fun j n hc => ?_, fun j n hn => ?_, fun j n p hp => ?_,
    fun j n hn => ?_⟩ <;> rcases hlines j with ⟨rfl, hl⟩ | ⟨hj, hl⟩
  · rw [hl]
    simp only [List.length_append, hcount, hlen]
  · rw [hl]
    exact h.count j
  · rw [hl] at hp ⊢
    obtain ⟨x, hx, hstart⟩ := hget n (p, c) hp
    refine ⟨s.calls.world, x, ?_, hstart⟩
    rw [← hcount, List.getElem?_append_right (Nat.le_add_right _ n), Nat.add_sub_cancel_left]
    exact hx
  · rw [hl] at hp ⊢
    exact h.waiting j n p c hp
  · rw [hl] at hc ⊢
    exact h.current j n hc
  · rw [hl] at hc ⊢
    exact h.current j n hc
  · rw [hl] at hn ⊢
    exact h.finished j n hn
  · rw [hl] at hn ⊢
    exact h.finished j n hn
  · obtain ⟨x, hx, hstems⟩ := h.stems j n p hp
    rw [hl]
    exact ⟨x, List.getElem?_append_left (List.getElem?_eq_some_iff.mp hx).1 ▸ hx, hstems⟩
  · rw [hl]
    exact h.stems j n p hp
  · rw [hl] at hn
    exact h.ahead j n hn
  · rw [hl] at hn
    exact h.ahead j n hn

/-- At rest, the last job has finished like those before it. -/
theorem Orderly.rest {s : Batched W J P C R} (h : Orderly prog s) {k : Nat} (hrest : s.atRest prog k = true)
    {n : Nat} (hn : n < (s.line k).next) : s.calls.slot (place k n) = {} ∨
      ∃ p, (s.calls.slot (place k n)).client = .live p ∧ prog.done p = true := by
  rcases h.finished k n hn with hempty | hcur | hdone
  · exact .inl hempty
  · rw [Batched.atRest, hcur, Bool.and_eq_true] at hrest
    have hlast := hrest.2
    simp only at hlast
    split at hlast
    · next p hp => exact .inr ⟨p, hp, hlast⟩
    · cases hlast
  · exact .inr hdone

/-- The first job of a queue leaves it. -/
theorem Orderly.leave {s : Batched W J P C R} {c : State W P C R} (h : Orderly prog s) {k : Nat} {p : P}
    {x : Option C} {rest : List (P × Option C)} (hrest : s.atRest prog k = true)
    (hqueue : (s.line k).queue = (p, x) :: rest) (cur : Option Nat)
    (hother : ∀ i, i ≠ place k (s.line k).next → c.slot i = s.calls.slot i)
    (hself : (c.slot (place k (s.line k).next) = { client := .live p, wire := x } ∧ cur = some (s.line k).next) ∨
      (c.slot (place k (s.line k).next) = {} ∧ cur = (s.line k).current)) :
    Orderly prog (({ s with calls := c } : Batched W J P C R).setLine k
      { s.line k with queue := rest, next := (s.line k).next + 1, current := cur }) := by
  have hne : ∀ j n, (j ≠ k ∨ n ≠ (s.line k).next) → place j n ≠ place k (s.line k).next := by
    intro j n hjn he
    obtain ⟨rfl, rfl⟩ := place_inj.mp he
    simp at hjn
  have hlines := setLine_cases ({ s with calls := c } : Batched W J P C R) k
    { s.line k with queue := rest, next := (s.line k).next + 1, current := cur }
  refine ⟨fun j => ?_, fun j n p' c' hp => ?_, fun j n hc => ?_, fun j n hn => ?_, fun j n p' hp => ?_,
    fun j n hn => ?_⟩ <;> rcases hlines j with ⟨rfl, hl⟩ | ⟨hj, hl⟩
  · rw [hl, h.count j, hqueue, List.length_cons]
    simp only
    omega
  · rw [hl]
    exact h.count j
  · rw [hl] at hp ⊢
    obtain ⟨w, y, hy, hstart⟩ := h.waiting j (n + 1) p' c' (by rw [hqueue]; exact hp)
    refine ⟨w, y, ?_, hstart⟩
    rwa [show (s.line j).next + (n + 1) = (s.line j).next + 1 + n by omega] at hy
  · rw [hl] at hp ⊢
    exact h.waiting j n p' c' hp
  · rw [hl] at hc ⊢
    rcases hself with ⟨-, rfl⟩ | ⟨-, rfl⟩
    · cases hc
      exact Nat.lt_succ_self _
    · exact Nat.lt_succ_of_lt (h.current j n hc)
  · rw [hl] at hc ⊢
    exact h.current j n hc
  · rw [hl] at hn ⊢
    rw [Batched.setLine_calls]
    by_cases hnext : n = (s.line j).next
    · subst hnext
      rcases hself with ⟨-, rfl⟩ | ⟨hempty, -⟩
      · exact .inr (.inl rfl)
      · exact .inl hempty
    · rw [hother _ (hne j n (.inr hnext))]
      have hlt : n < (s.line j).next := by
        simp only at hn
        omega
      rcases h.rest hrest hlt with hempty | hdone
      · exact .inl hempty
      · exact .inr (.inr hdone)
  · rw [hl] at hn ⊢
    rw [Batched.setLine_calls, hother _ (hne j n (.inl hj))]
    exact h.finished j n hn
  · rw [hl]
    rw [Batched.setLine_calls] at hp
    by_cases hnext : n = (s.line j).next
    · subst hnext
      rcases hself with ⟨hslot, -⟩ | ⟨hempty, -⟩
      · rw [hslot] at hp
        cases hp
        obtain ⟨w, y, hy, hstart⟩ := h.waiting j 0 p x (by rw [hqueue]; rfl)
        exact ⟨y, hy, .start w p x hstart⟩
      · rw [hempty] at hp
        cases hp
    · rw [hother _ (hne j n (.inr hnext))] at hp
      exact h.stems j n p' hp
  · rw [hl]
    rw [Batched.setLine_calls, hother _ (hne j n (.inl hj))] at hp
    exact h.stems j n p' hp
  · rw [hl] at hn
    rw [Batched.setLine_calls, hother _ (hne j n (.inr (by simp only at hn; omega)))]
    exact h.ahead j n (by simp only at hn; omega)
  · rw [hl] at hn
    rw [Batched.setLine_calls, hother _ (hne j n (.inl hj))]
    exact h.ahead j n hn

/-- **An event keeps the order.** -/
theorem Orderly.step {s s' : Batched W J P C R} {x : BatchEvent J} (h : Orderly prog s)
    (hs : prog.batchStep s x = some s') : Orderly prog s' := by
  rcases batchStep_cases hs with ⟨e, c, rfl, hfree, hc, rfl⟩ | ⟨k, js, q, rfl, -, hempty, hq, rfl⟩ |
      ⟨k, p, c, rest, rfl, hrest, hqueue, rfl⟩ | ⟨k, ⟨p, c⟩, rest, rfl, hrest, hqueue, rfl⟩ | ⟨k, rfl, -, rfl⟩
  · exact h.serve hfree hc
  · exact h.take hempty hq
  · exact h.leave hrest hqueue _ (fun i hi => State.setSlot_ne _ _ hi) (.inl ⟨State.setSlot_self _ _ _, rfl⟩)
  · exact h.leave (c := s.calls) hrest hqueue _ (fun _ _ => rfl) (.inr ⟨h.ahead k _ (Nat.le_refl _), rfl⟩)
  · have hlines := setLine_cases s k { s.line k with running := false }
    refine ⟨fun j => ?_, fun j => ?_, fun j => ?_, fun j => ?_, fun j => ?_, fun j => ?_⟩ <;>
      rcases hlines j with ⟨rfl, hl⟩ | ⟨hj, hl⟩ <;> rw [hl]
    · exact h.count j
    · exact h.count j
    · exact h.waiting j
    · exact h.waiting j
    · exact h.current j
    · exact h.current j
    · exact h.finished j
    · exact h.finished j
    · exact h.stems j
    · exact h.stems j
    · exact h.ahead j
    · exact h.ahead j

/-- **When a worker has come to the end of its batch**, each job it ever took was skipped or has
finished. -/
theorem Orderly.drained {s : Batched W J P C R} (h : Orderly prog s) {k : Nat} (hrest : s.atRest prog k = true)
    (hempty : (s.line k).queue = []) {n : Nat} {j : J} (hj : (s.line k).taken[n]? = some j) :
    s.calls.slot (place k n) = {} ∨
      ∃ p, (s.calls.slot (place k n)).client = .live p ∧ prog.done p = true ∧ Stems prog j p := by
  have hn : n < (s.line k).next := by
    have hlt := (List.getElem?_eq_some_iff.mp hj).1
    rwa [h.count k, hempty] at hlt
  rcases h.rest hrest hn with hslot | ⟨p, hp, hd⟩
  · exact .inl hslot
  · obtain ⟨j', hj', hstems⟩ := h.stems k n p hp
    rw [hj] at hj'
    cases hj'
    exact .inr ⟨p, hp, hd, hstems⟩

/-! ## The clients that match the workers -/

/-- The clients `t` match the workers `s`: a job that waits in a queue has been started in `t`, with
its request on the wire, and one that was skipped is left there for ever. -/
structure Matches (s : Batched W J P C R) (t : State W P C R) : Prop where
  world : t.world = s.calls.world
  own : ∀ i, i % 2 = 0 → t.slot i = s.calls.slot i
  begun : ∀ k n, n < (s.line k).next →
    t.slot (place k n) = s.calls.slot (place k n) ∨ s.calls.slot (place k n) = {}
  waiting : ∀ k n p c, (s.line k).queue[n]? = some (p, c) →
    t.slot (place k ((s.line k).next + n)) = { client := .live p, wire := c }
  ahead : ∀ k n, (s.line k).next ≤ n → s.calls.slot (place k n) = {}
  unused : ∀ k n, (s.line k).next + (s.line k).queue.length ≤ n → t.slot (place k n) = {}

theorem matches_fresh (w : W) : Matches (Batched.fresh w : Batched W J P C R) (State.fresh w) where
  world := rfl
  own _ _ := rfl
  begun _ _ _ := .inl rfl
  waiting k n p c h := by simp [Batched.fresh] at h
  ahead _ _ _ := rfl
  unused _ _ _ := rfl

/-- A client that takes a step looks alike on both sides. -/
theorem Matches.acting {s : Batched W J P C R} {t : State W P C R} (h : Matches s t) {e : Event J}
    {c : State W P C R} (hfree : e.startsFree = true) (hs : prog.step s.calls e = some c) {i : Nat}
    (hi : e.client = some i) : t.slot i = s.calls.slot i ∧ ∀ k n, i = place k n → n < (s.line k).next := by
  -- a slot in which nothing has happened takes no step but a start, and jobs are not started so
  have hne : i % 2 = 1 → s.calls.slot i ≠ {} := by
    intro hodd hempty
    cases e with
    | tick d => cases hi
    | start j _ =>
      cases hi
      have heven : i % 2 = 0 := by simpa [Event.startsFree] using hfree
      omega
    | _ =>
      cases hi
      simp [Program.step, hempty] at hs
  rcases even_or_place i with heven | ⟨k, n, rfl⟩
  · refine ⟨h.own i heven, fun k n hi => ?_⟩
    have := place_odd k n
    omega
  · have hne := hne (place_odd k n)
    have hlt : n < (s.line k).next := by
      by_contra hge
      exact hne (h.ahead k n (Nat.le_of_not_lt hge))
    refine ⟨(h.begun k n hlt).resolve_right hne, fun k' n' hp => ?_⟩
    obtain ⟨rfl, rfl⟩ := place_inj.mp hp
    exact hlt

/-- A step depends on the world and on the slot of its client, and changes no other. -/
theorem step_transfer {s t s' : State W P C R} {e : Event J} (hworld : t.world = s.world)
    (hslot : ∀ i, e.client = some i → t.slot i = s.slot i) (hs : prog.step s e = some s') :
    ∃ t', prog.step t e = some t' ∧ t'.world = s'.world ∧ (∀ i, e.client = some i → t'.slot i = s'.slot i) := by
  rcases Program.step_cases hs with ⟨d, rfl, rfl⟩ | ⟨i, j, p, c, rfl, hc, hst, rfl⟩ |
      ⟨i, c, rfl, hw, rfl⟩ | ⟨i, p, r, rfl, hc, hr, hd, rfl⟩ | ⟨i, p, rfl, hc, hd, rfl⟩ |
      ⟨i, c, rfl, hw, rfl⟩ | ⟨i, p, rfl, hc, hd, rfl⟩
  · exact ⟨_, rfl, by rw [hworld], fun i hi => by cases hi⟩
  all_goals
    have hslot := hslot i rfl
    simp only [Program.step, *]
    refine ⟨_, rfl, ?_, fun k hk => ?_⟩
    · simp [hworld]
    · cases hk
      simp

/-- **A step of the clients** is one on both sides. -/
theorem Matches.serve {s : Batched W J P C R} {t c : State W P C R} {e : Event J} (h : Matches s t)
    (hfree : e.startsFree = true) (hs : prog.step s.calls e = some c) :
    ∃ t', prog.step t e = some t' ∧ Matches { s with calls := c } t' := by
  have hact := fun i hi => h.acting hfree hs (i := i) hi
  obtain ⟨t', ht, hworld, hsame⟩ := step_transfer h.world (fun i hi => (hact i hi).1) hs
  have hother : ∀ i, e.client ≠ some i → t'.slot i = t.slot i ∧ c.slot i = s.calls.slot i :=
    fun i hi => ⟨slot_step_untouched ht hi, slot_step_untouched hs hi⟩
  -- jobs that have not begun take no step
  have hahead : ∀ k n, (s.line k).next ≤ n → e.client ≠ some (place k n) := by
    intro k n hn hi
    have := (hact _ hi).2 k n rfl
    omega
  refine ⟨t', ht, hworld, fun i hi => ?_, fun k n hn => ?_, fun k n p x hq => ?_, fun k n hn => ?_, fun k n hn => ?_⟩
  · by_cases hc : e.client = some i
    · exact hsame i hc
    · rw [(hother i hc).1, (hother i hc).2]
      exact h.own i hi
  · by_cases hc : e.client = some (place k n)
    · exact .inl (hsame _ hc)
    · rw [(hother _ hc).1, (hother _ hc).2]
      exact h.begun k n hn
  · rw [(hother _ (hahead k _ (Nat.le_add_right _ n))).1]
    exact h.waiting k n p x hq
  · rw [(hother _ (hahead k n hn)).2]
    exact h.ahead k n hn
  · rw [(hother _ (hahead k n (Nat.le_trans (Nat.le_add_right _ _) hn))).1]
    exact h.unused k n hn

/-- Starts the jobs from the `n`-th of worker `k` on. -/
def startAll (k : Nat) : Nat → List J → List (Event J)
  | _, [] => []
  | n, j :: js => .start (place k n) j :: startAll k (n + 1) js

theorem mem_startAll {k n i : Nat} {j : J} {js : List J} (h : Event.start i j ∈ startAll k n js) : j ∈ js := by
  induction js generalizing n with
  | nil => cases h
  | cons j' js ih =>
    rcases List.mem_cons.mp h with he | hrest
    · cases he
      exact List.mem_cons_self
    · exact List.mem_cons_of_mem _ (ih hrest)

/-- The jobs of a batch are started together. -/
theorem run_startAll {k n : Nat} {js : List J} {q : List (P × Option C)} {t : State W P C R}
    (hidle : ∀ m, n ≤ m → t.slot (place k m) = {}) (hq : js.mapM (prog.start t.world) = some q) :
    ∃ t', Steps.run prog.step t (startAll k n js) = some t' ∧ t'.world = t.world ∧
      (∀ m p c, q[m]? = some (p, c) → t'.slot (place k (n + m)) = { client := .live p, wire := c }) ∧
      ∀ i, (∀ m, n ≤ m → m < n + q.length → i ≠ place k m) → t'.slot i = t.slot i := by
  induction js generalizing n t q with
  | nil =>
    cases hq
    exact ⟨t, rfl, rfl, fun m p c h => (by cases h), fun _ _ => rfl⟩
  | cons j js ih =>
    rw [List.mapM_cons] at hq
    obtain ⟨⟨p, c⟩, hj, hq⟩ := Option.bind_eq_some_iff.mp hq
    obtain ⟨q', hq', hcons⟩ := Option.bind_eq_some_iff.mp hq
    cases hcons
    have hfirst : prog.step t (.start (place k n) j) =
        some (t.setSlot (place k n) { client := .live p, wire := c }) := by
      simp only [Program.step, hidle n (Nat.le_refl n), hj]
    have hidle' : ∀ m, n + 1 ≤ m →
        (t.setSlot (place k n) { client := .live p, wire := c }).slot (place k m) = {} := by
      intro m hm
      rw [State.setSlot_ne _ _ fun he => by have := (place_inj.mp he).2; omega]
      exact hidle m (by omega)
    obtain ⟨t', hrun, hworld, hplaced, hother⟩ := ih hidle' hq'
    refine ⟨t', Steps.run_cons.mpr ⟨_, hfirst, hrun⟩, hworld, fun m p' c' hm => ?_, fun i hi => ?_⟩
    · cases m with
      | zero =>
        cases hm
        rw [hother _ fun m hm _ he => by have := (place_inj.mp he).2; omega]
        exact State.setSlot_self _ _ _
      | succ m =>
        have := hplaced m p' c' hm
        rwa [show n + 1 + m = n + (m + 1) by omega] at this
    · rw [hother i fun m hm hlt => hi m (by omega) (by rw [List.length_cons]; omega)]
      exact State.setSlot_ne _ _ (hi n (Nat.le_refl n) (by rw [List.length_cons]; omega))

/-- **A batch is taken**: its clients start. -/
theorem Matches.take {s : Batched W J P C R} {t : State W P C R} (h : Matches s t) {k : Nat} {js : List J}
    {q : List (P × Option C)} (hempty : (s.line k).queue = [])
    (hq : js.mapM (prog.start s.calls.world) = some q) :
    ∃ t', Steps.run prog.step t (startAll k (s.line k).next js) = some t' ∧
      Matches (s.setLine k { s.line k with taken := (s.line k).taken ++ js, queue := q }) t' := by
  have hidle : ∀ m, (s.line k).next ≤ m → t.slot (place k m) = {} := by
    intro m hm
    exact h.unused k m (by rw [hempty]; exact hm)
  rw [← h.world] at hq
  obtain ⟨t', hrun, hworld, hplaced, hother⟩ := run_startAll hidle hq
  have hlines := setLine_cases s k { s.line k with taken := (s.line k).taken ++ js, queue := q }
  refine ⟨t', hrun, hworld.trans h.world, fun i hi => ?_, fun j n hn => ?_, fun j n p c hp => ?_, fun j n hn => ?_,
    fun j n hn => ?_⟩
  · rw [hother i fun m _ _ he => by have := place_odd k m; omega]
    exact h.own i hi
  · rcases hlines j with ⟨rfl, hl⟩ | ⟨hj, hl⟩ <;> rw [hl] at hn
    · rw [hother _ fun m hm _ he => by have := (place_inj.mp he).2; simp only at hn; omega]
      exact h.begun j n hn
    · rw [hother _ fun m _ _ he => hj (place_inj.mp he).1]
      exact h.begun j n hn
  · rcases hlines j with ⟨rfl, hl⟩ | ⟨hj, hl⟩ <;> rw [hl] at hp ⊢
    · exact hplaced n p c hp
    · rw [hother _ fun m _ _ he => hj (place_inj.mp he).1]
      exact h.waiting j n p c hp
  · rcases hlines j with ⟨rfl, hl⟩ | ⟨hj, hl⟩ <;> rw [hl] at hn <;>
      exact h.ahead j n hn
  · rcases hlines j with ⟨rfl, hl⟩ | ⟨hj, hl⟩ <;> rw [hl] at hn
    · rw [hother _ fun m _ hm he => by have := (place_inj.mp he).2; simp only at hn; omega]
      exact hidle n (by simp only at hn; omega)
    · rw [hother _ fun m _ _ he => hj (place_inj.mp he).1]
      exact h.unused j n hn

/-- The first job of a queue leaves it: it begins, or it is skipped and nothing of it is ever seen. -/
theorem Matches.leave {s : Batched W J P C R} {t c : State W P C R} (h : Matches s t) {k : Nat} {p : P} {x : Option C}
    {rest : List (P × Option C)} (hqueue : (s.line k).queue = (p, x) :: rest) (cur : Option Nat)
    (hworld : c.world = s.calls.world) (hother : ∀ i, i ≠ place k (s.line k).next → c.slot i = s.calls.slot i)
    (hself : c.slot (place k (s.line k).next) = { client := .live p, wire := x } ∨
      c.slot (place k (s.line k).next) = {}) :
    Matches (({ s with calls := c } : Batched W J P C R).setLine k
      { s.line k with queue := rest, next := (s.line k).next + 1, current := cur }) t := by
  have hfirst : t.slot (place k (s.line k).next) = { client := .live p, wire := x } := by
    have := h.waiting k 0 p x (by rw [hqueue]; rfl)
    rwa [Nat.add_zero] at this
  have hlines := setLine_cases ({ s with calls := c } : Batched W J P C R) k
    { s.line k with queue := rest, next := (s.line k).next + 1, current := cur }
  have hne : ∀ j n, (j ≠ k ∨ n ≠ (s.line k).next) → place j n ≠ place k (s.line k).next := by
    intro j n hjn he
    obtain ⟨rfl, rfl⟩ := place_inj.mp he
    simp at hjn
  refine ⟨h.world.trans hworld.symm, fun i hi => ?_, fun j n hn => ?_, fun j n p' c' hp => ?_, fun j n hn => ?_,
    fun j n hn => ?_⟩
  · refine (h.own i hi).trans (hother i fun he => ?_).symm
    have := place_odd k (s.line k).next
    omega
  · rcases hlines j with ⟨rfl, hl⟩ | ⟨hj, hl⟩ <;> rw [hl] at hn
    · by_cases hnext : n = (s.line j).next
      · subst hnext
        exact hself.imp (fun he => hfirst.trans he.symm) id
      · rw [Batched.setLine_calls, hother _ (hne j n (.inr hnext))]
        exact h.begun j n (by simp only at hn; omega)
    · rw [Batched.setLine_calls, hother _ (hne j n (.inl hj))]
      exact h.begun j n hn
  · rcases hlines j with ⟨rfl, hl⟩ | ⟨hj, hl⟩ <;> rw [hl] at hp ⊢
    · have := h.waiting j (n + 1) p' c' (by rw [hqueue]; exact hp)
      rwa [show (s.line j).next + (n + 1) = (s.line j).next + 1 + n by omega] at this
    · exact h.waiting j n p' c' hp
  · rcases hlines j with ⟨rfl, hl⟩ | ⟨hj, hl⟩ <;> rw [hl] at hn <;> rw [Batched.setLine_calls]
    · rw [hother _ (hne j n (.inr (by simp only at hn; omega)))]
      exact h.ahead j n (by simp only at hn; omega)
    · rw [hother _ (hne j n (.inl hj))]
      exact h.ahead j n hn
  · rcases hlines j with ⟨rfl, hl⟩ | ⟨hj, hl⟩ <;> rw [hl] at hn
    · refine h.unused j n ?_
      rw [hqueue, List.length_cons]
      simp only at hn
      omega
    · exact h.unused j n hn

/-- **One event of the workers** is matched by a run of the clients, which starts no other jobs. -/
theorem Matches.step {s s' : Batched W J P C R} {t : State W P C R} {x : BatchEvent J} (h : Matches s t)
    (hs : prog.batchStep s x = some s') :
    ∃ es t', Steps.run prog.step t es = some t' ∧ Matches s' t' ∧ ∀ i j, .start i j ∈ es → j ∈ x.jobs := by
  rcases batchStep_cases hs with ⟨e, c, rfl, hfree, hc, rfl⟩ | ⟨k, js, q, rfl, -, hempty, hq, rfl⟩ |
      ⟨k, p, c, rest, rfl, -, hqueue, rfl⟩ | ⟨k, ⟨p, c⟩, rest, rfl, -, hqueue, rfl⟩ | ⟨k, rfl, -, rfl⟩
  · obtain ⟨t', ht, hm⟩ := h.serve hfree hc
    refine ⟨[e], t', Steps.run_cons.mpr ⟨t', ht, rfl⟩, hm, fun i j hmem => ?_⟩
    cases List.mem_singleton.mp hmem
    exact List.mem_singleton.mpr rfl
  · obtain ⟨t', hrun, hm⟩ := h.take hempty hq
    exact ⟨_, t', hrun, hm, fun i j hmem => mem_startAll hmem⟩
  · refine ⟨[], t, rfl, ?_, fun i j hmem => by cases hmem⟩
    exact h.leave hqueue _ rfl (fun i hi => State.setSlot_ne _ _ hi) (.inl (State.setSlot_self _ _ _))
  · refine ⟨[], t, rfl, ?_, fun i j hmem => by cases hmem⟩
    exact h.leave (c := s.calls) hqueue _ rfl (fun _ _ => rfl) (.inr (h.ahead k _ (Nat.le_refl _)))
  · refine ⟨[], t, rfl, ⟨h.world, h.own, ?_, ?_, ?_, ?_⟩, fun i j hmem => by cases hmem⟩
    all_goals
      intro j n
      rcases setLine_cases s k { s.line k with running := false } j with ⟨rfl, hl⟩ | ⟨hj, hl⟩ <;> rw [hl]
    · exact h.begun j n
    · exact h.begun j n
    · exact h.waiting j n
    · exact h.waiting j n
    · exact h.ahead j n
    · exact h.ahead j n
    · exact h.unused j n
    · exact h.unused j n

/-- **The batch rule.** Every run of the workers is matched by a run of clients. -/
theorem batch_run {s s' : Batched W J P C R} {t : State W P C R} {xs : List (BatchEvent J)} (h : Matches s t)
    (hs : Steps.run prog.batchStep s xs = some s') :
    ∃ es t', Steps.run prog.step t es = some t' ∧ Matches s' t' ∧
      ∀ i j, .start i j ∈ es → ∃ x ∈ xs, j ∈ x.jobs := by
  induction xs generalizing s t with
  | nil =>
    cases hs
    exact ⟨[], t, rfl, h, fun i j hmem => by cases hmem⟩
  | cons x xs ih =>
    obtain ⟨m, hm, hrest⟩ := Steps.run_cons.mp hs
    obtain ⟨es, u, hes, hu, hjobs⟩ := h.step hm
    obtain ⟨fs, t', hfs, ht, hjobs'⟩ := ih hu hrest
    refine ⟨es ++ fs, t', Steps.run_append.mpr ⟨u, hes, hfs⟩, ht, fun i j hmem => ?_⟩
    rcases List.mem_append.mp hmem with hj | hj
    · exact ⟨x, List.mem_cons_self, hjobs i j hj⟩
    · obtain ⟨y, hy, hj⟩ := hjobs' i j hj
      exact ⟨y, List.mem_cons_of_mem _ hy, hj⟩

end

end Calls
