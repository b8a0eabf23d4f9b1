import Mathlib.Data.Option.Basic

/- A key-value store whose entries may carry a deadline. An entry is there up to
   and including its deadline and gone after it; `entry` is what a read at `now`
   finds. Time only removes entries (`entry_later`), and two entries with one
   deadline go together. Keys, values and the clock's unit are arbitrary. -/
namespace Expiring

/-- A value and the last instant at which it can be read (`none`: no expiry). -/
structure Entry (υ : Type) where
  value : υ
  deadline : Option Int
  deriving DecidableEq, Repr

/-- Whether the entry can still be read at `now`. -/
def Entry.live {υ : Type} (e : Entry υ) (now : Int) : Bool :=
  match e.deadline with
  | none => true
  | some d => decide (now ≤ d)

/-- What is stored under each key, expired entries included. -/
def Store (κ υ : Type) : Type := κ → Option (Entry υ)

section
variable {κ υ : Type}

/-- The store with nothing in it. -/
def Store.empty : Store κ υ := fun _ => none

/-- The entry a read of `k` at `now` finds. -/
def Store.entry (s : Store κ υ) (now : Int) (k : κ) : Option (Entry υ) :=
  (s k).filter (fun e => e.live now)

/-- The value a read of `k` at `now` finds. -/
def Store.get (s : Store κ υ) (now : Int) (k : κ) : Option υ :=
  (s.entry now k).map Entry.value

theorem Entry.live_of_later {e : Entry υ} {t u : Int} (htu : t ≤ u) (h : e.live u = true) :
    e.live t = true := by
  unfold Entry.live at *
  split
  · rfl
  · rename_i d hd
    rw [hd] at h
    simp only [decide_eq_true_eq] at h ⊢
    exact Int.le_trans htu h

theorem Store.entry_eq_some {s : Store κ υ} {now : Int} {k : κ} {e : Entry υ} :
    s.entry now k = some e ↔ s k = some e ∧ e.live now = true := by
  simp [Store.entry, Option.filter_eq_some_iff]

/-- What is readable later was readable before. -/
theorem Store.entry_later {s : Store κ υ} {t u : Int} {k : κ} {e : Entry υ} (htu : t ≤ u)
    (h : s.entry u k = some e) : s.entry t k = some e := by
  rw [Store.entry_eq_some] at *
  exact ⟨h.1, Entry.live_of_later htu h.2⟩

/-- Of two entries with one deadline, the second is readable when the first is. -/
theorem Store.entry_together {s : Store κ υ} {t u : Int} {k l : κ} {e f : Entry υ}
    (hf : s.entry t l = some f) (hd : f.deadline = e.deadline) (he : s.entry u k = some e) :
    s.entry u l = some f := by
  rw [Store.entry_eq_some] at *
  refine ⟨hf.1, ?_⟩
  have := he.2
  unfold Entry.live at this ⊢
  rwa [hd]

theorem Store.get_eq_some {s : Store κ υ} {now : Int} {k : κ} {v : υ} :
    s.get now k = some v ↔ ∃ e, s.entry now k = some e ∧ e.value = v := by
  simp [Store.get]

theorem Store.get_eq_none {s : Store κ υ} {now : Int} {k : κ} :
    s.get now k = none ↔ s.entry now k = none := by
  simp [Store.get]

theorem Store.get_of_entry {s : Store κ υ} {now : Int} {k : κ} {e : Entry υ}
    (h : s.entry now k = some e) : s.get now k = some e.value := by
  simp [Store.get, h]

/-- A key that cannot be read cannot be read later. -/
theorem Store.get_none_later {s : Store κ υ} {t u : Int} {k : κ} (htu : t ≤ u)
    (h : s.get t k = none) : s.get u k = none := by
  rw [Store.get_eq_none] at *
  cases hu : s.entry u k with
  | none => rfl
  | some e => rw [Store.entry_later htu hu] at h; cases h

end

/-! ## Writes -/

section
variable {κ υ : Type} [DecidableEq κ]

/-- Store an entry, whatever was there. -/
def Store.put (s : Store κ υ) (k : κ) (e : Entry υ) : Store κ υ :=
  fun l => if l = k then some e else s l

/-- Remove a key. -/
def Store.del (s : Store κ υ) (k : κ) : Store κ υ :=
  fun l => if l = k then none else s l

/-- Store a value without expiry unless the key can be read at `now`. -/
def Store.putNX (s : Store κ υ) (now : Int) (k : κ) (v : υ) : Store κ υ :=
  match s.entry now k with
  | some _ => s
  | none => s.put k ⟨v, none⟩

@[simp] theorem Store.entry_put_self (s : Store κ υ) (now : Int) (k : κ) (e : Entry υ) :
    (s.put k e).entry now k = if e.live now then some e else none := by
  simp [Store.put, Store.entry, Option.filter]

theorem Store.entry_put_ne (s : Store κ υ) (now : Int) {k l : κ} (e : Entry υ) (h : l ≠ k) :
    (s.put k e).entry now l = s.entry now l := by
  simp [Store.put, Store.entry, h]

@[simp] theorem Store.entry_del_self (s : Store κ υ) (now : Int) (k : κ) :
    (s.del k).entry now k = none := by
  simp [Store.del, Store.entry]

theorem Store.entry_del_ne (s : Store κ υ) (now : Int) {k l : κ} (h : l ≠ k) :
    (s.del k).entry now l = s.entry now l := by
  simp [Store.del, Store.entry, h]

theorem Store.putNX_of_some {s : Store κ υ} {now : Int} {k : κ} {e : Entry υ} (v : υ)
    (h : s.entry now k = some e) : s.putNX now k v = s := by
  simp [Store.putNX, h]

theorem Store.putNX_of_none {s : Store κ υ} {now : Int} {k : κ} (v : υ)
    (h : s.entry now k = none) : s.putNX now k v = s.put k ⟨v, none⟩ := by
  simp [Store.putNX, h]

theorem Store.entry_putNX_ne (s : Store κ υ) (now t : Int) {k l : κ} (v : υ) (h : l ≠ k) :
    (s.putNX now k v).entry t l = s.entry t l := by
  unfold Store.putNX
  split
  · rfl
  · exact Store.entry_put_ne s t _ h

/-- After a `putNX` the key is readable: with what it held, or with the new value. -/
theorem Store.entry_putNX_self (s : Store κ υ) (now : Int) (k : κ) (v : υ) :
    (s.putNX now k v).entry now k = some ((s.entry now k).getD ⟨v, none⟩) := by
  cases h : s.entry now k with
  | some e => rw [Store.putNX_of_some v h, h]; rfl
  | none => rw [Store.putNX_of_none v h]; simp [Entry.live]

theorem Store.entry_putNX_cases {s : Store κ υ} {now : Int} {k : κ} {v : υ} {e : Entry υ}
    (h : (s.putNX now k v).entry now k = some e) : s.entry now k = some e ∨ e.value = v := by
  rw [Store.entry_putNX_self] at h
  cases hold : s.entry now k with
  | none =>
    rw [hold] at h
    cases h
    exact .inr rfl
  | some e₀ =>
    rw [hold] at h
    exact .inl h

theorem Store.get_del_ne (s : Store κ υ) (now : Int) {k l : κ} (h : l ≠ k) :
    (s.del k).get now l = s.get now l := by
  simp [Store.get, Store.entry_del_ne s now h]

@[simp] theorem Store.get_del_self (s : Store κ υ) (now : Int) (k : κ) :
    (s.del k).get now k = none := by
  simp [Store.get]

end

end Expiring
