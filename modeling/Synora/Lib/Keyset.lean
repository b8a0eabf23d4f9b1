import Mathlib.Data.List.Sort

/- Keyset pagination: rows in descending order of a key, read page by page. A page
   after a row is what the filter `key < k` leaves, cut to a limit. The client
   passes on the cursor of each page while there is more (`walk`); it gets every
   row once if each cursor leads on, and never ends if the cursors lead back. -/
namespace Keyset

section
variable {α κ : Type} [LinearOrder κ] (key : α → κ)

/-- Each row has a smaller key than the rows before it. -/
def Descending (rows : List α) : Prop := rows.Pairwise (fun a b => key b < key a)

/-- The rows in descending order. -/
def orderDesc (rows : List α) : List α := rows.mergeSort (fun a b => decide (key b ≤ key a))

variable {key}

theorem orderDesc_perm (rows : List α) : (orderDesc key rows).Perm rows :=
  List.mergeSort_perm rows _

/-- Rows with different keys are in strict order. -/
theorem descending_orderDesc {rows : List α} (h : (rows.map key).Nodup) :
    Descending key (orderDesc key rows) := by
  have hle : (orderDesc key rows).Pairwise (fun a b => decide (key b ≤ key a) = true) := by
    apply List.pairwise_mergeSort
    · intro a b c hab hbc
      simp only [decide_eq_true_eq] at *
      exact le_trans hbc hab
    · intro a b
      simp only [Bool.or_eq_true, decide_eq_true_eq]
      exact le_total (key b) (key a)
  have hne : (orderDesc key rows).Pairwise (fun a b => key a ≠ key b) := by
    have hnodup : ((orderDesc key rows).map key).Nodup := ((orderDesc_perm rows).map key).nodup_iff.mpr h
    exact List.pairwise_map.mp hnodup
  refine (hle.and hne).imp ?_
  intro a b hab
  exact lt_of_le_of_ne (of_decide_eq_true hab.1) (Ne.symm hab.2)

/-- Two descending lists of the same rows are equal. -/
theorem Descending.eq_of_perm {xs ys : List α} (hx : Descending key xs) (hy : Descending key ys)
    (h : xs.Perm ys) : xs = ys := by
  refine h.eq_of_pairwise ?_ hx hy
  intro a b _ _ hab hba
  exact absurd (lt_trans hab hba) (lt_irrefl _)

/-- Selecting before or after ordering is the same. -/
theorem orderDesc_filter {rows : List α} (h : (rows.map key).Nodup) (p : α → Bool) :
    orderDesc key (rows.filter p) = (orderDesc key rows).filter p := by
  have hsub : ((rows.filter p).map key).Nodup := h.sublist (List.Sublist.map key List.filter_sublist)
  apply (descending_orderDesc hsub).eq_of_perm
  · exact (descending_orderDesc h).filter p
  · exact (orderDesc_perm _).trans ((orderDesc_perm rows).filter p).symm

/-- **The rows after a row** are those with a smaller key. -/
theorem Descending.after {rows : List α} (h : Descending key rows) {i : Nat} (hi : i < rows.length) :
    rows.filter (fun a => decide (key a < key rows[i])) = rows.drop (i + 1) := by
  have hsplit : rows = rows.take i ++ rows[i] :: rows.drop (i + 1) := by
    rw [← List.drop_eq_getElem_cons hi, List.take_append_drop]
  generalize rows[i] = r at *
  rw [hsplit] at h
  obtain ⟨-, hafter, hbefore⟩ := List.pairwise_append.mp h
  have htake : (rows.take i).filter (fun a => decide (key a < key r)) = [] := by
    rw [List.filter_eq_nil_iff]
    intro a ha
    have hlt := hbefore a ha r List.mem_cons_self
    simpa using le_of_lt hlt
  have hdrop : (rows.drop (i + 1)).filter (fun a => decide (key a < key r)) = rows.drop (i + 1) := by
    rw [List.filter_eq_self]
    intro a ha
    exact decide_eq_true ((List.pairwise_cons.mp hafter).1 a ha)
  calc rows.filter (fun a => decide (key a < key r))
      = (rows.take i ++ r :: rows.drop (i + 1)).filter (fun a => decide (key a < key r)) := by
        rw [← hsplit]
    _ = rows.drop (i + 1) := by
        rw [List.filter_append, htake, List.nil_append, List.filter_cons_of_neg (by simp), hdrop]

end

/-! ## Reading the pages -/

structure Page (α C : Type) where
  items : List α
  next : C
  more : Bool

section
variable {α C : Type}

/-- Ask for a page, and for the next one while there is more, at most `n` times. -/
def walk (fetch : C → Option (Page α C)) : Nat → C → Option (List (Page α C))
  | 0, _ => none
  | n + 1, c => (fetch c).bind fun p => if p.more then (walk fetch n p.next).map (p :: ·) else some [p]

/-- Cursors that lead to one another are walked for ever. -/
theorem walk_of_closed {fetch : C → Option (Page α C)} (S : C → Prop)
    (h : ∀ c, S c → ∃ p, fetch c = some p ∧ p.more = true ∧ S p.next) (n : Nat) {c : C} (hc : S c) :
    walk fetch n c = none := by
  induction n generalizing c with
  | zero => rfl
  | succ n ih =>
    obtain ⟨p, hp, hmore, hnext⟩ := h c hc
    rw [walk, hp, Option.bind_some, if_pos hmore, ih hnext]
    rfl

/-- The page of `limit` rows from the `j`-th limit on, and whether rows follow it. -/
structure IsPage (rows : List α) (limit j : Nat) (p : Page α C) : Prop where
  items : p.items = (rows.drop (j * limit)).take limit
  more : p.more = decide ((j + 1) * limit < rows.length)

/-- **Every row once.** If the `j`-th cursor leads to the `j`-th page, and that page to the next
cursor as long as there is more, the walk ends with all the rows in order. -/
theorem walk_complete {fetch : C → Option (Page α C)} (rows : List α) {limit : Nat} (hl : 0 < limit)
    (cursor : Nat → C)
    (h : ∀ j, j = 0 ∨ j * limit < rows.length → ∃ p, fetch (cursor j) = some p ∧
      IsPage rows limit j p ∧ (p.more = true → p.next = cursor (j + 1))) :
    ∃ n pages, walk fetch n (cursor 0) = some pages ∧ pages.flatMap Page.items = rows ∧
      ∀ p ∈ pages, ∃ j, (j = 0 ∨ j * limit < rows.length) ∧ fetch (cursor j) = some p := by
  -- on the number of rows that are left
  have hall : ∀ k j, j = 0 ∨ j * limit < rows.length → rows.length - j * limit ≤ k →
      ∃ n pages, walk fetch n (cursor j) = some pages ∧
        pages.flatMap Page.items = rows.drop (j * limit) ∧
        ∀ p ∈ pages, ∃ i, (i = 0 ∨ i * limit < rows.length) ∧ fetch (cursor i) = some p := by
    intro k
    induction k with
    | zero =>
      intro j hj hk
      obtain ⟨p, hp, hpage, -⟩ := h j hj
      have hlast : p.more = false := by
        rw [hpage.more, decide_eq_false_iff_not, Nat.succ_mul]
        omega
      refine ⟨1, [p], by simp [walk, hp, hlast], ?_, ?_⟩
      · have hnil : rows.drop (j * limit) = [] := List.drop_eq_nil_of_le (by omega)
        simp [hpage.items, hnil]
      · intro q hq
        obtain rfl := List.mem_singleton.mp hq
        exact ⟨j, hj, hp⟩
    | succ k ih =>
      intro j hj hk
      obtain ⟨p, hp, hpage, hnext⟩ := h j hj
      by_cases hmore : (j + 1) * limit < rows.length
      · have hm : p.more = true := by rw [hpage.more]; exact decide_eq_true hmore
        obtain ⟨n, pages, hwalk, hrows, hfrom⟩ := ih (j + 1) (.inr hmore)
          (by rw [Nat.succ_mul] at hmore ⊢; omega)
        refine ⟨n + 1, p :: pages, by simp [walk, hp, hm, hnext hm, hwalk], ?_, ?_⟩
        · rw [List.flatMap_cons, hpage.items, hrows, Nat.succ_mul, ← List.drop_drop]
          exact List.take_append_drop limit _
        · intro q hq
          rcases List.mem_cons.mp hq with rfl | hq
          · exact ⟨j, hj, hp⟩
          · exact hfrom q hq
      · have hm : p.more = false := by rw [hpage.more]; exact decide_eq_false hmore
        refine ⟨1, [p], by simp [walk, hp, hm], ?_, ?_⟩
        · have hlen : (rows.drop (j * limit)).length ≤ limit := by
            rw [List.length_drop]
            rw [Nat.succ_mul] at hmore
            omega
          simp [hpage.items, List.take_of_length_le hlen]
        · intro q hq
          obtain rfl := List.mem_singleton.mp hq
          exact ⟨j, hj, hp⟩
  obtain ⟨n, pages, hwalk, hrows, hfrom⟩ := hall rows.length 0 (.inl rfl) (by omega)
  refine ⟨n, pages, hwalk, ?_, hfrom⟩
  rw [hrows, Nat.zero_mul, List.drop_zero]

end

end Keyset
