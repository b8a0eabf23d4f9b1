import Mathlib.Logic.Function.Basic
import Mathlib.Logic.Relation
import Mathlib.Order.Basic

/- What the service is for, without its servers: an auction house. A lot is offered
   with a reserve and a span of time, as a draft or running. A running lot may be
   closed once its end has passed, or sold, to anyone, at its reserve or more. There
   is no other move: a draft is never opened, and nothing is ever reopened.

   Times `T`, prices `N` and buyers `B` are any; what holds of every history
   (`Moves.lot`, `Moves.sane`) is proved here once and read off by whatever is shown
   to move like this. -/
namespace AuctionHouse

inductive Stage (N B : Type) where
  | draft
  | running
  | closed
  | sold (price : N) (buyer : B)
  | withdrawn

/-- The lot has been closed or sold. -/
def Stage.over {N B : Type} : Stage N B → Prop
  | .closed => True
  | .sold _ _ => True
  | _ => False

structure Lot (T N B : Type) where
  reserve : N
  starts : T
  ends : T
  stage : Stage N B

/-- The same lot at another stage. -/
def Lot.at {T N B : Type} (l : Lot T N B) (st : Stage N B) : Lot T N B := { l with stage := st }

/-- A house: the time, and the lots by their names. -/
structure House (ι T N B : Type) where
  clock : T
  lot : ι → Option (Lot T N B)

section
variable {ι T N B : Type} [DecidableEq ι]

def House.put (h : House ι T N B) (i : ι) (l : Lot T N B) : House ι T N B :=
  { h with lot := Function.update h.lot i (some l) }

@[simp] theorem House.put_clock (h : House ι T N B) (i : ι) (l : Lot T N B) : (h.put i l).clock = h.clock := rfl

@[simp] theorem House.put_self (h : House ι T N B) (i : ι) (l : Lot T N B) : (h.put i l).lot i = some l :=
  Function.update_self i _ _

theorem House.put_ne (h : House ι T N B) {i j : ι} (l : Lot T N B) (hj : j ≠ i) : (h.put i l).lot j = h.lot j :=
  Function.update_of_ne hj _ _

/-- The moves of the house. -/
inductive Move [Preorder T] [LE N] : House ι T N B → House ι T N B → Prop
  | wait (h : House ι T N B) (t : T) (later : h.clock ≤ t) : Move h { h with clock := t }
  | offer (h : House ι T N B) (i : ι) (l : Lot T N B) (free : h.lot i = none) (span : l.starts < l.ends)
      (stage : l.stage = .draft ∨ l.stage = .running) : Move h (h.put i l)
  | close (h : House ι T N B) (i : ι) (l : Lot T N B) (lot : h.lot i = some l) (running : l.stage = .running)
      (ended : l.ends ≤ h.clock) : Move h (h.put i (l.at .closed))
  | sell (h : House ι T N B) (i : ι) (l : Lot T N B) (p : N) (b : B) (lot : h.lot i = some l)
      (running : l.stage = .running) (ended : l.ends ≤ h.clock) (reserve : l.reserve ≤ p) :
      Move h (h.put i (l.at (.sold p b)))

/-- Any number of moves. -/
abbrev Moves [Preorder T] [LE N] : House ι T N B → House ι T N B → Prop := Relation.ReflTransGen Move

/-- `l'` is a later state of `l`: the same terms, and the same lot unless it was running. -/
structure Lot.Later (l l' : Lot T N B) : Prop where
  reserve : l'.reserve = l.reserve
  starts : l'.starts = l.starts
  ends : l'.ends = l.ends
  still : l.stage ≠ .running → l' = l

theorem Lot.Later.refl (l : Lot T N B) : l.Later l := ⟨rfl, rfl, rfl, fun _ => rfl⟩

theorem Lot.Later.trans {l l' l'' : Lot T N B} (h : l.Later l') (h' : l'.Later l'') : l.Later l'' where
  reserve := h'.reserve.trans h.reserve
  starts := h'.starts.trans h.starts
  ends := h'.ends.trans h.ends
  still hst := by
    have hsame := h.still hst
    subst hsame
    exact h'.still hst

/-- A lot in order: it starts before it ends, it is over only when its end has passed, and sold
only at its reserve or more. -/
structure Lot.Sane [Preorder T] [LE N] (clock : T) (l : Lot T N B) : Prop where
  span : l.starts < l.ends
  ended : l.stage.over → l.ends ≤ clock
  reserve : ∀ p b, l.stage = .sold p b → l.reserve ≤ p

/-- Every lot is in order. -/
def House.Sane [Preorder T] [LE N] (h : House ι T N B) : Prop := ∀ i l, h.lot i = some l → l.Sane h.clock

variable [Preorder T] [LE N] {h h' : House ι T N B}

theorem Move.clock (hm : Move h h') : h.clock ≤ h'.clock := by
  cases hm with
  | wait t later => exact later
  | _ => exact le_refl _

omit [Preorder T] [LE N] in
/-- A stage written over a running lot. -/
theorem House.put_later {i j : ι} {l m : Lot T N B} (st : Stage N B) (hl : h.lot i = some l)
    (hrun : l.stage = .running) (hm : h.lot j = some m) :
    ∃ m', (h.put i (l.at st)).lot j = some m' ∧ m.Later m' := by
  by_cases hj : j = i
  · subst hj
    rw [hl] at hm
    cases hm
    exact ⟨l.at st, House.put_self h j _, rfl, rfl, rfl, fun hne => absurd hrun hne⟩
  · exact ⟨m, (House.put_ne h _ hj).trans hm, .refl m⟩

/-- **A move keeps every lot**, its terms, and all of it unless it was running. -/
theorem Move.lot (hm : Move h h') {i : ι} {l : Lot T N B} (hl : h.lot i = some l) :
    ∃ l', h'.lot i = some l' ∧ l.Later l' := by
  cases hm with
  | wait t later => exact ⟨l, hl, .refl l⟩
  | offer j m free span stage =>
    have hj : i ≠ j := by
      rintro rfl
      rw [free] at hl
      cases hl
    exact ⟨l, (House.put_ne h m hj).trans hl, .refl l⟩
  | close j m lot running ended => exact House.put_later _ lot running hl
  | sell j m p b lot running ended reserve => exact House.put_later _ lot running hl

theorem Lot.Sane.later {c c' : T} {l : Lot T N B} (hs : l.Sane c) (hc : c ≤ c') : l.Sane c' :=
  ⟨hs.span, fun hover => le_trans (hs.ended hover) hc, hs.reserve⟩

/-- Another lot in order. -/
theorem House.Sane.put (hs : h.Sane) {i : ι} {l : Lot T N B} (hl : l.Sane h.clock) : (h.put i l).Sane := by
  intro j m hm
  by_cases hj : j = i
  · subst hj
    rw [House.put_self] at hm
    cases hm
    exact hl
  · rw [House.put_ne h l hj] at hm
    exact hs j m hm

/-- **A move keeps the house in order.** -/
theorem Move.sane (hm : Move h h') (hs : h.Sane) : h'.Sane := by
  cases hm with
  | wait t later => exact fun i l hl => (hs i l hl).later later
  | offer i l free span stage =>
    refine hs.put ⟨span, fun hover => ?_, fun p b hsold => ?_⟩
    · rcases stage with hst | hst <;> rw [hst] at hover <;> exact hover.elim
    · rcases stage with hst | hst <;> rw [hst] at hsold <;> cases hsold
  | close i l lot running ended =>
    exact hs.put ⟨(hs i l lot).span, fun _ => ended, fun p b hsold => by cases hsold⟩
  | sell i l p b lot running ended reserve =>
    refine hs.put ⟨(hs i l lot).span, fun _ => ended, fun q c hsold => ?_⟩
    cases hsold
    exact reserve

theorem Moves.clock (hm : Moves h h') : h.clock ≤ h'.clock := by
  induction hm with
  | refl => exact le_refl _
  | tail _ hmove ih => exact le_trans ih hmove.clock

theorem Moves.lot (hm : Moves h h') {i : ι} {l : Lot T N B} (hl : h.lot i = some l) :
    ∃ l', h'.lot i = some l' ∧ l.Later l' := by
  induction hm with
  | refl => exact ⟨l, hl, .refl l⟩
  | tail _ hmove ih =>
    obtain ⟨m, hlm, hlater⟩ := ih
    obtain ⟨l', hl', hlater'⟩ := hmove.lot hlm
    exact ⟨l', hl', hlater.trans hlater'⟩

theorem Moves.sane (hm : Moves h h') (hs : h.Sane) : h'.Sane := by
  induction hm with
  | refl => exact hs
  | tail _ hmove ih => exact hmove.sane ih

end

end AuctionHouse
