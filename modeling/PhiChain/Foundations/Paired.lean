import PhiChain.Foundations.OrdMap

/-!
# Pairs of maps that are inverse to each other

A partial one-to-one correspondence kept as two maps, one per direction. `Paired m n`
says that they list the same pairs. A pair may be added when both of its ends are free
(`paired_put`) and is removed from both maps at once (`paired_erase`); under these two
operations no end is ever listed twice (`Paired.left_unique`).
-/

set_option autoImplicit false

namespace PhiChain.Foundations

universe u v

variable {κ : Type u} {ν : Type v} [LinearOrder κ] [LinearOrder ν]
variable {m : OrdMap κ ν} {n : OrdMap ν κ} {a a' : κ} {b b' : ν}

/-- Each of two maps is the inverse of the other. -/
def Paired (m : OrdMap κ ν) (n : OrdMap ν κ) : Prop :=
  ∀ a b, m.get? a = some b ↔ n.get? b = some a

theorem paired_empty : Paired (∅ : OrdMap κ ν) (∅ : OrdMap ν κ) := by
  intro a b
  simp

theorem Paired.symm (h : Paired m n) : Paired n m := fun b a => (h a b).symm

/-- No value is listed under two keys. -/
theorem Paired.left_unique (h : Paired m n) (ha : m.get? a = some b) (ha' : m.get? a' = some b) :
    a = a' := by
  have hb := (h a b).1 ha
  rw [(h a' b).1 ha'] at hb
  exact (Option.some.inj hb).symm

/-- A pair of free ends can be added. -/
theorem paired_put (h : Paired m n) (ha : m.get? a = none) (hb : n.get? b = none) :
    Paired (m.put a b) (n.put b a) := by
  intro x y
  rw [OrdMap.get?_put, OrdMap.get?_put]
  by_cases hx : a = x
  · by_cases hy : b = y
    · simp [hx, hy]
    · -- the old maps do not know `a`, so no other value leads to it
      have hnone : n.get? y ≠ some a := fun hy' => by
        rw [(h a y).2 hy'] at ha
        cases ha
      subst hx
      simp [hy, hnone]
  · by_cases hy : b = y
    · have hnone : m.get? x ≠ some b := fun hx' => by
        rw [(h x b).1 hx'] at hb
        cases hb
      subst hy
      simp [hx, hnone]
    · simp only [if_neg hx, if_neg hy]
      exact h x y

/-- A pair is removed from both maps. -/
theorem paired_erase (h : Paired m n) (hab : m.get? a = some b) :
    Paired (m.erase a) (n.erase b) := by
  intro x y
  rw [OrdMap.get?_erase, OrdMap.get?_erase]
  by_cases hx : a = x
  · subst hx
    by_cases hy : b = y
    · simp [hy]
    · have hother : n.get? y ≠ some a := fun hy' => by
        rw [(h a y).2 hy'] at hab
        exact hy (Option.some.inj hab).symm
      simp [hy, hother]
  · by_cases hy : b = y
    · subst hy
      have hother : m.get? x ≠ some b := fun hx' => hx (h.left_unique hab hx')
      simp [hx, hother]
    · simp only [if_neg hx, if_neg hy]
      exact h x y

end PhiChain.Foundations
