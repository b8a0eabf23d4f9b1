import Mathlib.Data.List.Basic

/- Channels of Go. An operation takes effect, blocks or panics: a send on a closed channel
   panics, and so does a second close; a receive from a closed channel returns what is
   left and then nothing. `closeLast_iff` says which histories of one channel are free of
   panics: those in which nothing follows a close. -/
namespace Channel

inductive Outcome (σ : Type) where
  | done (s : σ)
  | blocks
  | panics

structure Chan (α : Type) where
  capacity : Nat
  buffer : List α
  closed : Bool

variable {α : Type}

/-- `make(chan α, capacity)`. -/
def Chan.make (capacity : Nat) : Chan α := ⟨capacity, [], false⟩

/-- `c <- a`. -/
def Chan.send (c : Chan α) (a : α) : Outcome (Chan α) :=
  if c.closed then .panics
  else if c.buffer.length < c.capacity then .done { c with buffer := c.buffer ++ [a] }
  else .blocks

/-- `close(c)`. -/
def Chan.close (c : Chan α) : Outcome (Chan α) :=
  if c.closed then .panics else .done { c with closed := true }

/-- `a, ok := <-c`; nothing where `ok` is false. -/
def Chan.receive (c : Chan α) : Outcome (Option α × Chan α) :=
  match c.buffer with
  | a :: rest => .done (some a, { c with buffer := rest })
  | [] => if c.closed then .done (none, c) else .blocks

theorem send_open {c : Chan α} (h : c.closed = false) (a : α) :
    c.send a = .done { c with buffer := c.buffer ++ [a] } ∧ c.buffer.length < c.capacity ∨
      c.send a = .blocks ∧ c.capacity ≤ c.buffer.length := by
  unfold Chan.send
  rw [h, if_neg (by decide)]
  split
  · next hroom => exact .inl ⟨rfl, hroom⟩
  · next hfull => exact .inr ⟨rfl, by omega⟩

theorem close_open {c : Chan α} (h : c.closed = false) : c.close = .done { c with closed := true } := by
  unfold Chan.close
  rw [h, if_neg (by decide)]

/-- A receive leaves the channel open or closed, as it was. -/
theorem receive_closed {c c' : Chan α} {a : Option α} (h : c.receive = .done (a, c')) :
    c'.closed = c.closed := by
  unfold Chan.receive at h
  split at h
  · cases h
    rfl
  · split at h
    · cases h
      rfl
    · cases h

/-- A receive from a channel with nothing in it returns only once it is closed. -/
theorem receive_empty {c c' : Chan α} {a : Option α} (hempty : c.buffer = [])
    (h : c.receive = .done (a, c')) : c.closed = true ∧ c' = c := by
  unfold Chan.receive at h
  rw [hempty] at h
  simp only at h
  split at h
  · next hclosed =>
    cases h
    exact ⟨hclosed, rfl⟩
  · cases h

/-- What is received is the first in the buffer. -/
theorem receive_some {c c' : Chan α} {a : α} (h : c.receive = .done (some a, c')) :
    c.buffer = a :: c'.buffer ∧ c'.capacity = c.capacity := by
  unfold Chan.receive at h
  split at h
  · next rest hbuffer =>
    cases h
    exact ⟨hbuffer, rfl⟩
  · split at h <;> cases h

/-- Nothing is received where nothing is left. -/
theorem receive_none {c c' : Chan α} (h : c.receive = .done (none, c')) : c' = c := by
  unfold Chan.receive at h
  split at h
  · cases h
  · split at h
    · cases h
      rfl
    · cases h

/-! ## Histories -/

/-- What is done to a channel by those who may make it panic. -/
inductive Op (α : Type) where
  | send (a : α)
  | close
  deriving DecidableEq

/-- Whether an open or closed channel lives through a history. -/
def survives : Bool → List (Op α) → Bool
  | _, [] => true
  | closed, .send _ :: ops => !closed && survives closed ops
  | closed, .close :: ops => !closed && survives true ops

/-- Nothing is done after a close. -/
def CloseLast (ops : List (Op α)) : Prop :=
  ∀ before after, ops = before ++ .close :: after → after = []

theorem closeLast_nil : CloseLast ([] : List (Op α)) := by
  intro before after h
  cases before <;> cases h

theorem closeLast_send {a : α} {ops : List (Op α)} : CloseLast (.send a :: ops) ↔ CloseLast ops := by
  constructor
  · intro h before after heq
    apply h (.send a :: before) after
    rw [heq, List.cons_append]
  · intro h before after heq
    cases before with
    | nil => cases heq
    | cons b before =>
      rw [List.cons_append, List.cons.injEq] at heq
      exact h before after heq.2

/-- **Nothing follows a close exactly when** no operation panics. -/
theorem closeLast_iff (ops : List (Op α)) : CloseLast ops ↔ survives false ops = true := by
  induction ops with
  | nil => exact iff_of_true closeLast_nil rfl
  | cons op ops ih =>
    cases op with
    | send a =>
      show _ ↔ (!false && survives false ops) = true
      rw [closeLast_send, ih]
      rfl
    | close =>
      have hdead : ∀ ops : List (Op α), survives true ops = true ↔ ops = [] := by
        intro ops
        cases ops with
        | nil => exact iff_of_true rfl rfl
        | cons op ops => cases op <;> exact iff_of_false Bool.false_ne_true (List.cons_ne_nil _ _)
      show _ ↔ (!false && survives true ops) = true
      rw [Bool.not_false, Bool.true_and, hdead]
      constructor
      · exact fun h => h [] ops rfl
      · intro hnil before after heq
        subst hnil
        cases before with
        | nil => exact (List.cons.inj heq).2.symm
        | cons b before =>
          rw [List.cons_append, List.cons.injEq] at heq
          cases before <;> cases heq.2

/-- An operation more, on a channel that has not been closed. -/
theorem survives_append {ops : List (Op α)} (h : survives false ops = true) (hopen : .close ∉ ops)
    (op : Op α) : survives false (ops ++ [op]) = true := by
  induction ops with
  | nil => cases op <;> rfl
  | cons o ops ih =>
    cases o with
    | send a => exact ih h fun hmem => hopen (List.mem_cons_of_mem _ hmem)
    | close => exact absurd List.mem_cons_self hopen

end Channel
