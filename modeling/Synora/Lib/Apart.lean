import Synora.Lib.Calls

/- Clients that work on different parts of the world. If what the clients of one part
   do and are told depends on their part only, and the others leave it alone, then
   the others can be left out of a run: the rest of it is a run too, it ends with the
   same part, and its clients are where they were (`Apart.run`). -/
namespace Calls

section
variable {W T J P C R : Type} {prog : Program W T J P C R}

/-- The clients `inside` send requests of a part of the world, `V` says that two worlds show the
same of it, and `D i` holds of the requests of client `i`. -/
structure Apart (prog : Program W T J P C R) (inside : Nat → Bool) (V : W → W → Prop)
    (A : Nat → J → Prop) (D : Nat → C → Prop) : Prop where
  tick : ∀ w v d, V w v → V (prog.tick w d) (prog.tick v d)
  clock : ∀ w v, V w v → prog.clock v = prog.clock w
  start : ∀ w v i j, V w v → inside i = true → A i j → prog.start v j = prog.start w j
  reply : ∀ w v i c, V w v → inside i = true → D i c → (prog.exec v c).2 = (prog.exec w c).2
  same : ∀ w v i c, V w v → inside i = true → D i c → V (prog.exec w c).1 (prog.exec v c).1
  other : ∀ w v i c, V w v → inside i = false → D i c → V (prog.exec w c).1 v

/-- The part is the same, and the clients inside are in the same state. -/
def Alike (inside : Nat → Bool) (V : W → W → Prop) (s t : State W P C R) : Prop :=
  V s.world t.world ∧ ∀ i, inside i = true → t.slot i = s.slot i

/-- Time passes, or a client inside takes a step. -/
def Event.within (inside : Nat → Bool) (e : Event J) : Bool := e.client.all inside

/-- The jobs that start meet `A`, and the requests on the wire `D`. -/
def Keeps (A : Nat → J → Prop) (D : Nat → C → Prop) (s : State W P C R) (e : Event J) : Prop :=
  (∀ i j, e = .start i j → A i j) ∧ ∀ i c, (s.slot i).wire = some c → D i c

variable {inside : Nat → Bool} {V : W → W → Prop} {A : Nat → J → Prop} {D : Nat → C → Prop}

/-- The same client takes the same step on both sides. -/
theorem Alike.setSlot {s t : State W P C R} (h : Alike inside V s t) (i : Nat) {w v : W} (hV : V w v)
    (sl : Slot P C R) :
    Alike inside V ({ s with world := w }.setSlot i sl) ({ t with world := v }.setSlot i sl) := by
  refine ⟨hV, fun j hj => ?_⟩
  by_cases hji : j = i
  · subst hji
    rw [State.setSlot_self, State.setSlot_self]
  · rw [State.setSlot_ne _ sl hji, State.setSlot_ne _ sl hji]
    exact h.2 j hj

/-- A client outside takes a step that leaves the part alone. -/
theorem Alike.outside {s t : State W P C R} (h : Alike inside V s t) {i : Nat} (hi : inside i = false)
    {w : W} (hV : V w t.world) (sl : Slot P C R) :
    Alike inside V ({ s with world := w }.setSlot i sl) t := by
  refine ⟨hV, fun j hj => ?_⟩
  have hji : j ≠ i := by
    rintro rfl
    rw [hi] at hj
    cases hj
  rw [State.setSlot_ne _ sl hji]
  exact h.2 j hj

/-- **A step within** is one on both sides. -/
theorem Apart.step (hA : Apart prog inside V A D) {s t s' : State W P C R} {e : Event J}
    (h : Alike inside V s t) (hk : Keeps A D s e) (he : e.within inside = true)
    (hs : prog.step s e = some s') : ∃ t', prog.step t e = some t' ∧ Alike inside V s' t' := by
  have hin : ∀ i, e.client = some i → inside i = true := by
    intro i hi
    rw [Event.within, hi] at he
    exact he
  rcases Program.step_cases hs with ⟨d, rfl, rfl⟩ | ⟨i, j, p, c, rfl, hc, hst, rfl⟩ |
      ⟨i, c, rfl, hw, rfl⟩ | ⟨i, p, r, rfl, hc, hr, hd, rfl⟩ | ⟨i, p, rfl, hc, hd, rfl⟩ |
      ⟨i, c, rfl, hw, rfl⟩ | ⟨i, p, rfl, hc, hd, rfl⟩
  · exact ⟨_, rfl, hA.tick _ _ d h.1, h.2⟩
  all_goals have hi := hin i rfl
  all_goals have hslot := h.2 i hi
  · refine ⟨_, ?_, h.setSlot i h.1 { client := .live p, wire := c }⟩
    simp only [Program.step, hslot, hc, hA.start _ _ i j h.1 hi (hk.1 i j rfl), hst]
  · have hD := hk.2 i c hw
    refine ⟨_, ?_, h.setSlot i (hA.same _ _ i c h.1 hi hD)
      { s.slot i with wire := none, inbox := some (prog.exec s.world c).2 }⟩
    simp only [Program.step, hslot, hw, hA.reply _ _ i c h.1 hi hD]
  · refine ⟨_, ?_, h.setSlot i h.1 { client := .live (prog.resume (prog.clock s.world) p r).1,
                                     wire := (prog.resume (prog.clock s.world) p r).2 }⟩
    simp only [Program.step, hslot, hc, hr, hd, hA.clock _ _ h.1]
    rfl
  · refine ⟨_, ?_, h.setSlot i h.1 { client := .live (prog.abort p), wire := (s.slot i).wire }⟩
    simp only [Program.step, hslot, hc, hd]
    rfl
  · refine ⟨_, ?_, h.setSlot i h.1 { s.slot i with wire := none }⟩
    simp only [Program.step, hslot, hw]
  · refine ⟨_, ?_, h.setSlot i h.1 { client := .dead, wire := (s.slot i).wire }⟩
    simp only [Program.step, hslot, hc, hd]
    rfl

/-- A step of a client outside is none on the other side. -/
theorem Apart.stutter (hA : Apart prog inside V A D) {s t s' : State W P C R} {e : Event J}
    (h : Alike inside V s t) (hk : Keeps A D s e) (he : e.within inside = false)
    (hs : prog.step s e = some s') : Alike inside V s' t := by
  have hout : ∀ i, e.client = some i → inside i = false := by
    intro i hi
    rw [Event.within, hi] at he
    exact he
  rcases Program.step_cases hs with ⟨d, rfl, rfl⟩ | ⟨i, j, p, c, rfl, -, -, rfl⟩ |
      ⟨i, c, rfl, hw, rfl⟩ | ⟨i, p, r, rfl, -, -, -, rfl⟩ | ⟨i, p, rfl, -, -, rfl⟩ |
      ⟨i, c, rfl, -, rfl⟩ | ⟨i, p, rfl, -, -, rfl⟩
  · cases he
  · exact h.outside (hout i rfl) h.1 _
  · exact h.outside (hout i rfl) (hA.other _ _ i c h.1 (hout i rfl) (hk.2 i c hw)) _
  all_goals exact h.outside (hout i rfl) h.1 _

/-- **The projection rule.** What is left of a run without the clients outside is a run, and it
ends alike. -/
theorem Apart.run (hA : Apart prog inside V A D) {s t s' : State W P C R} {es : List (Event J)}
    (h : Alike inside V s t) (hk : Steps.Along prog.step (Keeps A D) s es)
    (hs : Steps.run prog.step s es = some s') :
    ∃ t', Steps.run prog.step t (es.filter (Event.within inside)) = some t' ∧ Alike inside V s' t' := by
  induction es generalizing s t with
  | nil =>
    cases hs
    exact ⟨t, rfl, h⟩
  | cons e es ih =>
    obtain ⟨m, hm, hrest⟩ := Steps.run_cons.mp hs
    cases he : e.within inside with
    | true =>
      obtain ⟨n, hn, halike⟩ := hA.step h hk.1 he hm
      obtain ⟨t', ht', hend⟩ := ih halike (hk.2 m hm) hrest
      rw [List.filter_cons_of_pos he]
      exact ⟨t', Steps.run_cons.mpr ⟨n, hn, ht'⟩, hend⟩
    | false =>
      rw [List.filter_cons_of_neg (by simp [he])]
      exact ih (hA.stutter h hk.1 he hm) (hk.2 m hm) hrest

/-! ## The job of a client -/

/-- The job an event starts client `i` with. -/
def Event.job (i : Nat) : Event J → Option J
  | .start k j => if k = i then some j else none
  | _ => none

/-- A client that is not idle is never so again. -/
theorem started_step {s s' : State W P C R} {e : Event J} {i : Nat} (h : (s.slot i).client ≠ .idle)
    (hs : prog.step s e = some s') : (s'.slot i).client ≠ .idle ∧ e.job i = none := by
  rcases Program.step_slot hs i with he | ⟨j, p, c, rfl, hc, -, he⟩ | ⟨c, rfl, -, he⟩ |
      ⟨p, r, rfl, -, -, -, he⟩ | ⟨p, rfl, -, -, he⟩ | ⟨c, rfl, -, he⟩ | ⟨p, rfl, -, -, he⟩
  case inl =>
    refine ⟨by rw [he]; exact h, ?_⟩
    cases e with
    | start k j =>
      have hne : k ≠ i := by
        rintro rfl
        obtain ⟨p, c, hc, -, -⟩ := Program.start_inv hs
        exact h hc
      exact if_neg hne
    | _ => rfl
  case inr.inl => exact absurd hc h
  all_goals
    rw [he]
    refine ⟨?_, rfl⟩
    first
    | exact h
    | exact fun hidle => by cases hidle

/-- **A client starts at most once in a run.** -/
theorem start_once {s s' : State W P C R} {es : List (Event J)} (i : Nat)
    (hs : Steps.run prog.step s es = some s') :
    (es.filterMap (Event.job i)).length ≤ 1 ∧
      ((s.slot i).client ≠ .idle → es.filterMap (Event.job i) = []) := by
  induction es generalizing s with
  | nil => exact ⟨Nat.zero_le 1, fun _ => rfl⟩
  | cons e es ih =>
    obtain ⟨m, hm, hrest⟩ := Steps.run_cons.mp hs
    obtain ⟨hlen, hnone⟩ := ih hrest
    refine ⟨?_, fun hstarted => ?_⟩
    · cases hj : e.job i with
      | none =>
        rw [List.filterMap_cons_none hj]
        exact hlen
      | some j =>
        rw [List.filterMap_cons_some hj]
        have hstart : e = .start i j := by
          cases e with
          | start k j' =>
            simp only [Event.job] at hj
            split at hj
            · rename_i hk
              cases hj
              rw [hk]
            · cases hj
          | _ => cases hj
        subst hstart
        obtain ⟨p, c, -, -, rfl⟩ := Program.start_inv hm
        rw [hnone (by rw [State.setSlot_self]; exact fun h => by cases h)]
        exact Nat.le_refl 1
    · obtain ⟨hm', hjob⟩ := started_step hstarted hm
      rw [List.filterMap_cons_none hjob]
      exact hnone hm'

/-- So the first start of a client is its only one. -/
theorem start_eq_head {s s' : State W P C R} {es : List (Event J)} {i : Nat} {j : J}
    (hs : Steps.run prog.step s es = some s') (hmem : .start i j ∈ es) :
    (es.filterMap (Event.job i)).head? = some j := by
  have hj : j ∈ es.filterMap (Event.job i) := List.mem_filterMap.mpr ⟨_, hmem, if_pos rfl⟩
  have hlen := (start_once i hs).1
  match es.filterMap (Event.job i), hj, hlen with
  | [k], hj, _ => rw [List.mem_singleton.mp hj]; rfl

end

end Calls
