import Mathlib.Data.List.Sort

/-!
# The best match in a list

Among the members of a list that fit, a best one has the largest measure (`IsBest`). A search
that sorts by falling measure and takes the first member that fits finds a best one
(`isBest_of_find?`); where at most one member of a measure fits, it finds the best one, whatever
the order of the list was (`find?_fallingSort`).
-/

set_option autoImplicit false

namespace PhiChain.Foundations

universe u

variable {α : Type u} {measure : α → Nat} {fits : α → Bool} {xs ys : List α} {x y : α}

/-- A member that fits and has the largest measure of those. -/
structure IsBest (measure : α → Nat) (fits : α → Bool) (xs : List α) (x : α) : Prop where
  mem : x ∈ xs
  fit : fits x = true
  largest : ∀ y ∈ xs, fits y = true → measure y ≤ measure x

theorem isBest_perm (h : xs.Perm ys) : IsBest measure fits xs x ↔ IsBest measure fits ys x := by
  constructor
  · intro hx
    exact ⟨h.mem_iff.1 hx.mem, hx.fit, fun y hy => hx.largest y (h.mem_iff.2 hy)⟩
  · intro hx
    exact ⟨h.mem_iff.2 hx.mem, hx.fit, fun y hy => hx.largest y (h.mem_iff.1 hy)⟩

/-- In a list of falling measure, the first member that fits is a best one. -/
theorem isBest_of_find? (hsorted : xs.Pairwise fun a b => measure b ≤ measure a)
    (h : xs.find? fits = some x) : IsBest measure fits xs x := by
  induction xs with
  | nil => cases h
  | cons a rest ih =>
    obtain ⟨hhead, hrest⟩ := List.pairwise_cons.1 hsorted
    cases ha : fits a with
    | true =>
      rw [List.find?_cons_of_pos ha] at h
      cases h
      refine ⟨List.mem_cons_self, ha, fun y hy _ => ?_⟩
      rcases List.mem_cons.1 hy with rfl | hy
      · exact Nat.le_refl _
      · exact hhead y hy
    | false =>
      rw [List.find?_cons_of_neg (by simp [ha])] at h
      have hx := ih hrest h
      refine ⟨List.mem_cons_of_mem a hx.mem, hx.fit, fun y hy hfits => ?_⟩
      rcases List.mem_cons.1 hy with rfl | hy
      · rw [ha] at hfits
        cases hfits
      · exact hx.largest y hy hfits

/-- Two best members have the same measure. -/
theorem IsBest.measure_eq (hx : IsBest measure fits xs x) (hy : IsBest measure fits xs y) :
    measure x = measure y :=
  Nat.le_antisymm (hy.largest x hx.mem hx.fit) (hx.largest y hy.mem hy.fit)

section Sorting

/-- Sorted by falling measure. -/
def fallingSort (measure : α → Nat) (xs : List α) : List α :=
  xs.insertionSort fun a b => measure b ≤ measure a

theorem fallingSort_perm (measure : α → Nat) (xs : List α) : (fallingSort measure xs).Perm xs :=
  List.perm_insertionSort _ xs

theorem fallingSort_sorted (measure : α → Nat) (xs : List α) :
    (fallingSort measure xs).Pairwise fun a b => measure b ≤ measure a := by
  have htotal : Std.Total fun a b : α => measure b ≤ measure a :=
    ⟨fun a b => Nat.le_total (measure b) (measure a)⟩
  have htrans : IsTrans α fun a b => measure b ≤ measure a :=
    ⟨fun a b c hab hbc => Nat.le_trans hbc hab⟩
  exact List.pairwise_insertionSort _ xs

/-- Where a measure singles out the member that fits, the search finds the best one. -/
theorem find?_fallingSort
    (hsingle : ∀ a ∈ xs, ∀ b ∈ xs, fits a = true → fits b = true → measure a = measure b → a = b) :
    (fallingSort measure xs).find? fits = some x ↔ IsBest measure fits xs x := by
  have hperm := fallingSort_perm measure xs
  constructor
  · intro h
    exact (isBest_perm hperm).1 (isBest_of_find? (fallingSort_sorted measure xs) h)
  · intro hx
    cases hfind : (fallingSort measure xs).find? fits with
    | none =>
      -- a best member fits, so the search does not come back empty
      have hno := List.find?_eq_none.1 hfind x (hperm.mem_iff.2 hx.mem)
      exact absurd hx.fit hno
    | some y =>
      have hy := (isBest_perm hperm).1 (isBest_of_find? (fallingSort_sorted measure xs) hfind)
      rw [hsingle x hx.mem y hy.mem hx.fit hy.fit (hx.measure_eq hy)]

end Sorting

end PhiChain.Foundations
