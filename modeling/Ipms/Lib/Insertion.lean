import Mathlib

/-
  Ipms.Lib.Insertion

  Insertion into an ordered list between two classes of its members: what has
  to stay above the new member, and what has to come to stand below it.  The
  admissible places are an interval, and one pass over the list finds it.
-/

namespace Ipms.Lib

variable {α : Type}

/-! ## Insertion -/

/-- The list with a member put at a place; beyond the end it is put last. -/
def insertAt (xs : List α) (i : Nat) (x : α) : List α := xs.take i ++ x :: xs.drop i

/-- The new member stands at its place. -/
theorem getElem?_insertAt {xs : List α} {i : Nat} (hi : i ≤ xs.length) (x : α) :
    (insertAt xs i x)[i]? = some x := by
  unfold insertAt
  rw [List.getElem?_append_right (by simp [List.length_take]), List.length_take,
    Nat.min_eq_left hi, Nat.sub_self]
  rfl

/-- Without the new member, every other stands where it stood. -/
theorem eraseIdx_insertAt {xs : List α} {i : Nat} (hi : i ≤ xs.length) (x : α) :
    (insertAt xs i x).eraseIdx i = xs := by
  have hlength : (xs.take i).length = i := by rw [List.length_take, Nat.min_eq_left hi]
  unfold insertAt
  rw [List.eraseIdx_append_of_length_le (by omega), hlength, Nat.sub_self, List.eraseIdx_cons_zero,
    List.take_append_drop]

/-- What a predicate the new member fails keeps of the list. -/
theorem filter_insertAt_of_neg {p : α → Bool} {xs : List α} {x : α} (hx : p x = false) (i : Nat) :
    (insertAt xs i x).filter p = xs.filter p := by
  unfold insertAt
  rw [List.filter_append, List.filter_cons_of_neg (by simp [hx]), ← List.filter_append,
    List.take_append_drop]

/-- The first place of a kind lies before a bound when some place of the kind does. -/
theorem findIdx_lt_iff {p : α → Bool} {xs : List α} {n : Nat} (hn : n ≤ xs.length) :
    xs.findIdx p < n ↔ ∃ j, ∃ hj : j < xs.length, j < n ∧ p xs[j] = true := by
  constructor
  · intro h
    exact ⟨xs.findIdx p, Nat.lt_of_lt_of_le h hn, h, List.findIdx_getElem⟩
  · rintro ⟨j, hj, hjn, hp⟩
    by_contra hle
    have hfalse := List.not_of_lt_findIdx (Nat.lt_of_lt_of_le hjn (Nat.not_lt.mp hle))
    rw [hp] at hfalse
    cases hfalse

/-! ## Admissible places -/

/-- A place below everything of one class and above everything of another. -/
structure Admits (above below : α → Bool) (xs : List α) (i : Nat) : Prop where
  bound : i ≤ xs.length
  above : ∀ j (hj : j < xs.length), above xs[j] = true → j < i
  below : ∀ j (hj : j < xs.length), below xs[j] = true → i ≤ j

/-- The bounds after one more member: what stands below the new one bounds its place from above,
what stands above it from below. -/
def narrowBy (above below : α → Bool) (bounds : Nat × Nat) (entry : α × Nat) : Nat × Nat :=
  if below entry.1 then (bounds.1, min bounds.2 entry.2)
  else if above entry.1 then (max bounds.1 (entry.2 + 1), bounds.2)
  else bounds

section
variable {above below : α → Bool} {xs : List α}

theorem narrowBy_below {x : α} (h : below x = true) (bounds : Nat × Nat) (i : Nat) :
    narrowBy above below bounds (x, i) = (bounds.1, min bounds.2 i) := if_pos h

theorem narrowBy_above {x : α} (hb : below x = false) (ha : above x = true) (bounds : Nat × Nat)
    (i : Nat) : narrowBy above below bounds (x, i) = (max bounds.1 (i + 1), bounds.2) := by
  unfold narrowBy
  rw [if_neg (by simp [hb]), if_pos ha]

theorem narrowBy_free {x : α} (hb : below x = false) (ha : above x = false) (bounds : Nat × Nat)
    (i : Nat) : narrowBy above below bounds (x, i) = bounds := by
  unfold narrowBy
  rw [if_neg (by simp [hb]), if_neg (by simp [ha])]

/-- One pass narrows an interval to the places that suit every member it saw. -/
theorem foldl_narrowBy (hdisjoint : ∀ x, below x = true → above x = false) (k i : Nat)
    (bounds : Nat × Nat) :
    let narrowed := (xs.zipIdx k).foldl (narrowBy above below) bounds
    (narrowed.1 ≤ i ∧ i ≤ narrowed.2) ↔
      (bounds.1 ≤ i ∧ i ≤ bounds.2) ∧
        ∀ j (hj : j < xs.length), (above xs[j] = true → k + j < i) ∧
          (below xs[j] = true → i ≤ k + j) := by
  induction xs generalizing k bounds with
  | nil => simp
  | cons x xs ih =>
    have hmembers : (∀ j (hj : j < (x :: xs).length), (above (x :: xs)[j] = true → k + j < i) ∧
        (below (x :: xs)[j] = true → i ≤ k + j)) ↔
        ((above x = true → k < i) ∧ (below x = true → i ≤ k)) ∧
          ∀ j (hj : j < xs.length), (above xs[j] = true → k + 1 + j < i) ∧
            (below xs[j] = true → i ≤ k + 1 + j) := by
      constructor
      · intro h
        refine ⟨h 0 (Nat.succ_pos _), fun j hj => ?_⟩
        have hnext := h (j + 1) (Nat.succ_lt_succ hj)
        rw [List.getElem_cons_succ, show k + (j + 1) = k + 1 + j by omega] at hnext
        exact hnext
      · rintro ⟨hfirst, hrest⟩ j hj
        cases j with
        | zero => exact hfirst
        | succ j =>
          rw [List.getElem_cons_succ, show k + (j + 1) = k + 1 + j by omega]
          exact hrest j (Nat.lt_of_succ_lt_succ hj)
    have hstep : (narrowBy above below bounds (x, k)).1 ≤ i ∧
        i ≤ (narrowBy above below bounds (x, k)).2 ↔
        (bounds.1 ≤ i ∧ i ≤ bounds.2) ∧ (above x = true → k < i) ∧ (below x = true → i ≤ k) := by
      unfold narrowBy
      by_cases hb : below x = true
      · rw [if_pos hb]
        simp only [hb, hdisjoint x hb, Bool.false_eq_true, false_implies, true_and, true_implies]
        omega
      · rw [if_neg hb]
        by_cases ha : above x = true
        · rw [if_pos ha]
          simp only [ha, hb, Bool.false_eq_true, false_implies, and_true, true_implies]
          omega
        · rw [if_neg ha]
          simp only [ha, hb, Bool.false_eq_true, false_implies, and_true]
    rw [List.zipIdx_cons, List.foldl_cons]
    show _ ↔ _ ∧ _
    rw [hmembers]
    refine (ih (k + 1) _).trans ?_
    rw [hstep]
    tauto

/-- The bounds of a whole list are those of its admissible places. -/
theorem admits_iff_bounds (hdisjoint : ∀ x, below x = true → above x = false) (i : Nat) :
    let narrowed := xs.zipIdx.foldl (narrowBy above below) (0, xs.length)
    Admits above below xs i ↔ narrowed.1 ≤ i ∧ i ≤ narrowed.2 := by
  have h := @foldl_narrowBy _ above below xs hdisjoint 0 i (0, xs.length)
  simp only [Nat.zero_add, Nat.zero_le, true_and] at h
  constructor
  · intro hi
    exact h.mpr ⟨hi.bound, fun j hj => ⟨hi.above j hj, hi.below j hj⟩⟩
  · intro hi
    obtain ⟨hbound, hmembers⟩ := h.mp hi
    exact ⟨hbound, fun j hj => (hmembers j hj).1, fun j hj => (hmembers j hj).2⟩

/-- The upper bound is the lowest admissible place, where there is one. -/
theorem isGreatest_admits (hdisjoint : ∀ x, below x = true → above x = false)
    (h : (xs.zipIdx.foldl (narrowBy above below) (0, xs.length)).1 ≤
      (xs.zipIdx.foldl (narrowBy above below) (0, xs.length)).2) :
    IsGreatest {i | Admits above below xs i}
      (xs.zipIdx.foldl (narrowBy above below) (0, xs.length)).2 := by
  constructor
  · exact (admits_iff_bounds hdisjoint _).mpr ⟨h, le_refl _⟩
  · intro i hi
    exact ((admits_iff_bounds hdisjoint i).mp hi).2

/-- There is an admissible place exactly where the bounds do not cross. -/
theorem exists_admits_iff (hdisjoint : ∀ x, below x = true → above x = false) :
    (∃ i, Admits above below xs i) ↔
      (xs.zipIdx.foldl (narrowBy above below) (0, xs.length)).1 ≤
        (xs.zipIdx.foldl (narrowBy above below) (0, xs.length)).2 := by
  constructor
  · rintro ⟨i, hi⟩
    have hbounds := (admits_iff_bounds hdisjoint i).mp hi
    exact hbounds.1.trans hbounds.2
  · intro h
    exact ⟨_, (isGreatest_admits hdisjoint h).1⟩

end

end Ipms.Lib
