import Mathlib.Algebra.Order.BigOperators.Group.List
import Mathlib.Algebra.Order.Floor.Ring
import Mathlib.Data.Rat.Floor
import Mathlib.Tactic.Linarith

/-!
# Shares and weighted means

`share scale amount rate` is the part of an amount at a rate out of `scale`, rounded down.
Shares of the parts of an amount never add up to more than the share of the whole
(`sum_share_le`).

`roundUp n d` is a quotient rounded up. As the weight of a gap it moves a weighted mean
towards the later of two points, never past it (`roundUp_le`), and never leaves it short of
the exact mean (`le_roundUp_mul`).
-/

set_option autoImplicit false

namespace PhiChain.Foundations

/-! ## Shares -/

/-- Part of an amount at a rate out of `scale`, rounded down. -/
def share (scale amount rate : Int) : Int := amount * rate / scale

section Share

variable {scale amount rate : Int}

theorem share_nonneg (hscale : 0 ≤ scale) (hamount : 0 ≤ amount) (hrate : 0 ≤ rate) :
    0 ≤ share scale amount rate :=
  Int.ediv_nonneg (mul_nonneg hamount hrate) hscale

@[simp] theorem share_zero (scale rate : Int) : share scale 0 rate = 0 := by
  simp [share]

theorem share_mul_le (hscale : 0 < scale) : share scale amount rate * scale ≤ amount * rate :=
  Int.ediv_mul_le _ hscale.ne'

/-- A rate of at most the whole takes at most the whole. -/
theorem share_le_self (hscale : 0 < scale) (hamount : 0 ≤ amount) (hrate : rate ≤ scale) :
    share scale amount rate ≤ amount := by
  apply Int.ediv_le_of_le_mul hscale
  exact mul_le_mul_of_nonneg_left hrate hamount

theorem share_mono_rate {rate' : Int} (hscale : 0 < scale) (hamount : 0 ≤ amount)
    (h : rate ≤ rate') : share scale amount rate ≤ share scale amount rate' :=
  Int.ediv_le_ediv hscale (mul_le_mul_of_nonneg_left h hamount)

/-- Two shares add up to at most the share of the sum. -/
theorem share_add_le (hscale : 0 < scale) (a b rate : Int) :
    share scale a rate + share scale b rate ≤ share scale (a + b) rate := by
  apply (Int.le_ediv_iff_mul_le hscale).2
  have ha : share scale a rate * scale ≤ a * rate := share_mul_le hscale
  have hb : share scale b rate * scale ≤ b * rate := share_mul_le hscale
  rw [add_mul, add_mul]
  exact add_le_add ha hb

/-- Two shares of one amount add up to at most its share at both rates together. -/
theorem share_rate_add_le (hscale : 0 < scale) (amount r r' : Int) :
    share scale amount r + share scale amount r' ≤ share scale amount (r + r') := by
  apply (Int.le_ediv_iff_mul_le hscale).2
  have hr : share scale amount r * scale ≤ amount * r := share_mul_le hscale
  have hr' : share scale amount r' * scale ≤ amount * r' := share_mul_le hscale
  rw [add_mul, mul_add]
  exact add_le_add hr hr'

/-- Shares of parts, each at a rate of its own, add up to at most the share of the whole at a
rate above them all. -/
theorem sum_share_le {α : Type} (hscale : 0 < scale) (part rateOf : α → Int) (top : Int)
    (parts : List α) (hpart : ∀ a ∈ parts, 0 ≤ part a) (hrate : ∀ a ∈ parts, rateOf a ≤ top) :
    (parts.map fun a => share scale (part a) (rateOf a)).sum ≤
      share scale (parts.map part).sum top := by
  induction parts with
  | nil => simp
  | cons a rest ih =>
    have hhead : share scale (part a) (rateOf a) ≤ share scale (part a) top :=
      share_mono_rate hscale (hpart a List.mem_cons_self) (hrate a List.mem_cons_self)
    have hrest := ih (fun b hb => hpart b (List.mem_cons_of_mem _ hb))
      fun b hb => hrate b (List.mem_cons_of_mem _ hb)
    rw [List.map_cons, List.sum_cons, List.map_cons, List.sum_cons]
    calc share scale (part a) (rateOf a) +
            (rest.map fun b => share scale (part b) (rateOf b)).sum
        ≤ share scale (part a) top + share scale (rest.map part).sum top :=
          add_le_add hhead hrest
      _ ≤ share scale (part a + (rest.map part).sum) top := share_add_le hscale _ _ _

end Share

/-! ## Quotients rounded up -/

/-- Quotient rounded up. -/
def roundUp (n d : Int) : Int := (n + d - 1) / d

section RoundUp

variable {n d k : Int}

theorem roundUp_nonneg (hn : 0 ≤ n) (hd : 0 < d) : 0 ≤ roundUp n d :=
  Int.ediv_nonneg (by omega) hd.le

theorem le_roundUp_mul (hd : 0 < d) : n ≤ roundUp n d * d := by
  have hlt := Int.lt_ediv_add_one_mul_self (n + d - 1) hd
  rw [add_mul, one_mul] at hlt
  unfold roundUp
  omega

theorem roundUp_mul_lt (hd : 0 < d) : roundUp n d * d < n + d := by
  have hle := Int.ediv_mul_le (n + d - 1) hd.ne'
  unfold roundUp
  omega

theorem roundUp_le (hd : 0 < d) (h : n ≤ k * d) : roundUp n d ≤ k := by
  have hlt : roundUp n d * d < (k + 1) * d := by
    have := roundUp_mul_lt hd (n := n)
    rw [add_mul, one_mul]
    omega
  exact Int.le_of_lt_add_one (lt_of_mul_lt_mul_right hlt hd.le)

@[simp] theorem roundUp_zero (hd : 0 < d) : roundUp 0 d = 0 := by
  have hle := roundUp_le hd (n := 0) (k := 0) (by omega)
  have hge := roundUp_nonneg le_rfl hd
  omega

/-- It is the ceiling of the exact quotient. -/
theorem roundUp_eq_ceil (hd : 0 < d) : roundUp n d = ⌈(n : ℚ) / d⌉ := by
  have hd' : (0 : ℚ) < d := by exact_mod_cast hd
  refine (Int.ceil_eq_iff.2 ⟨?_, ?_⟩).symm
  · rw [lt_div_iff₀ hd']
    have hlt := roundUp_mul_lt hd (n := n)
    have hcast : ((roundUp n d * d : Int) : ℚ) < ((n + d : Int) : ℚ) := by exact_mod_cast hlt
    push_cast at hcast
    linarith
  · rw [div_le_iff₀ hd']
    exact_mod_cast le_roundUp_mul hd

end RoundUp

end PhiChain.Foundations
