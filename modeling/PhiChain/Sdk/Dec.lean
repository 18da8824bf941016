import Mathlib.Algebra.Order.Ring.Int
import Mathlib.Tactic.Ring

/-!
# Decimals

`LegacyDec`: fixed-point numbers with eighteen decimal places, kept as the scaled
integer. Products and quotients are rounded to the nearest representable value, ties
to the even one.
-/

set_option autoImplicit false

namespace PhiChain.Sdk

/-- Scale of a decimal. -/
def decPrecision : Nat := 10 ^ 18

def decFromInt (n : Int) : Int := n * decPrecision

/-- Divide by the scale, rounding a magnitude to the nearest integer, ties to even. -/
def chopNat (d : Nat) : Nat :=
  let q := d / decPrecision
  let r := d % decPrecision
  if 2 * r < decPrecision then q
  else if decPrecision < 2 * r then q + 1
  else if q % 2 = 0 then q
  else q + 1

def chopPrecisionAndRound (d : Int) : Int :=
  if d < 0 then -(chopNat d.natAbs : Int) else chopNat d.natAbs

def decMul (a b : Int) : Int := chopPrecisionAndRound (a * b)

def decQuo (a b : Int) : Int :=
  chopPrecisionAndRound ((a * decPrecision * decPrecision).tdiv b)

/-! ## Rounding -/

theorem decPrecision_eq : decPrecision = 1000000000000000000 := rfl

theorem decPrecision_pos : 0 < decPrecision := by
  rw [decPrecision_eq]
  exact Nat.succ_pos _

/-- Rounding moves a magnitude by at most half a unit. -/
theorem chopNat_bounds (d : Nat) :
    2 * (decPrecision * chopNat d) ≤ 2 * d + decPrecision ∧
      2 * d ≤ 2 * (decPrecision * chopNat d) + decPrecision := by
  have hsplit := Nat.div_add_mod d decPrecision
  have hlt := Nat.mod_lt d decPrecision_pos
  have hnext : decPrecision * (d / decPrecision + 1) =
      decPrecision * (d / decPrecision) + decPrecision := Nat.mul_succ _ _
  rw [chopNat]
  split_ifs with hdown hup heven
  · omega
  · rw [hnext]
    omega
  · omega
  · rw [hnext]
    omega

/-- A whole number is not rounded. -/
theorem chopNat_mul (n : Nat) : chopNat (n * decPrecision) = n := by
  have hpos := decPrecision_pos
  simp only [chopNat, Nat.mul_div_cancel _ hpos, Nat.mul_mod_left]
  rw [if_pos hpos]

theorem chopPrecisionAndRound_natCast (d : Nat) : chopPrecisionAndRound d = chopNat d := by
  rw [chopPrecisionAndRound, if_neg (Int.not_lt.2 (Int.natCast_nonneg d)), Int.natAbs_natCast]

/-- A whole number times a decimal is exact. -/
theorem decMul_decFromInt (n s : Nat) : decMul (decFromInt n) s = (n * s : Nat) := by
  have hproduct : decFromInt n * s = ((n * s * decPrecision : Nat) : Int) := by
    rw [decFromInt]
    push_cast
    ring
  rw [decMul, hproduct, chopPrecisionAndRound_natCast, chopNat_mul]

theorem decQuo_natCast (a b : Nat) :
    decQuo a b = chopNat (a * decPrecision * decPrecision / b) := by
  rw [decQuo, ← Nat.cast_mul, ← Nat.cast_mul, ← Int.ofNat_tdiv, chopPrecisionAndRound_natCast]

/-- A common factor of both sides of a quotient cancels before anything is rounded. -/
theorem decQuo_mul_mul (a b : Int) {c : Int} (hc : 0 < c) : decQuo (a * c) (b * c) = decQuo a b := by
  have hleft : a * c * decPrecision * decPrecision = c * (a * decPrecision * decPrecision) := by ring
  rw [decQuo, decQuo, hleft, mul_comm b c, Int.mul_tdiv_mul_of_pos _ _ hc]

/-- A quotient of two magnitudes is a magnitude, at most half a unit too large and less than
one unit too small. -/
theorem decQuo_near (a : Nat) {b : Nat} (hb : 0 < b) :
    ∃ x : Nat, decQuo a b = x ∧ 2 * (x * b) ≤ 2 * (a * decPrecision) + b ∧
      a * decPrecision ≤ x * b + b := by
  refine ⟨_, decQuo_natCast a b, ?_⟩
  have hbelow := Nat.div_mul_le_self (a * decPrecision * decPrecision) b
  have habove := Nat.lt_mul_of_div_lt (Nat.lt_succ_self (a * decPrecision * decPrecision / b)) hb
  generalize a * decPrecision * decPrecision / b = u at hbelow habove ⊢
  obtain ⟨hup, hdown⟩ := chopNat_bounds u
  generalize chopNat u = x at hup hdown ⊢
  have hunit : 2 ≤ decPrecision := by decide
  constructor
  · refine Nat.le_of_mul_le_mul_left ?_ decPrecision_pos
    calc decPrecision * (2 * (x * b)) = 2 * (decPrecision * x) * b := by ring
      _ ≤ (2 * u + decPrecision) * b := Nat.mul_le_mul_right _ hup
      _ = 2 * (u * b) + decPrecision * b := by ring
      _ ≤ 2 * (a * decPrecision * decPrecision) + decPrecision * b :=
          Nat.add_le_add_right (Nat.mul_le_mul_left _ hbelow) _
      _ = decPrecision * (2 * (a * decPrecision) + b) := by ring
  · refine Nat.le_of_mul_le_mul_left ?_ (Nat.mul_pos Nat.two_pos decPrecision_pos)
    calc 2 * decPrecision * (a * decPrecision) = 2 * (a * decPrecision * decPrecision) := by ring
      _ ≤ 2 * ((u + 1) * b) := Nat.mul_le_mul_left _ (le_of_lt habove)
      _ = (2 * u + 2) * b := by ring
      _ ≤ (2 * (decPrecision * x) + decPrecision + decPrecision) * b :=
          Nat.mul_le_mul_right _ (Nat.add_le_add hdown hunit)
      _ = 2 * decPrecision * (x * b + b) := by ring

end PhiChain.Sdk
