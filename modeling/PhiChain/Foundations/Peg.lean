import Mathlib.Algebra.Order.Ring.Int

/-!
# A pegged currency

A currency is pegged when its supply, in small units, is worth exactly the backing
held for it: `supply * rate = backing * unit`. The lawful moves of such a currency
are few: issue against new backing, retire against released backing, or set a new
rate while nothing is backed. Each keeps the peg (`Move.balanced`).
-/

set_option autoImplicit false

namespace PhiChain.Foundations

/-- Totals of a pegged currency; the rate is positive. -/
@[ext] structure Peg where
  supply : Int
  backing : Int
  rate : Int
  rate_pos : 0 < rate

namespace Peg

variable (unit : Int)

/-- The supply is worth the backing. -/
def Balanced (p : Peg) : Prop := p.supply * p.rate = p.backing * unit

/-- Lawful moves. Amounts are signed: retiring is issuing a negative amount. -/
inductive Move : Peg → Peg → Prop where
  | still (p : Peg) : Move p p
  | issue (p : Peg) (amount backing : Int) (worth : amount * p.rate = backing * unit) :
      Move p ⟨p.supply + amount, p.backing + backing, p.rate, p.rate_pos⟩
  | reprice (p : Peg) (rate : Int) (hrate : 0 < rate) (unbacked : p.backing = 0) :
      Move p ⟨p.supply, p.backing, rate, hrate⟩

variable {unit}

/-- Without backing there is no supply. -/
theorem Balanced.supply_eq_zero {p : Peg} (h : p.Balanced unit) (hb : p.backing = 0) :
    p.supply = 0 := by
  have hprod : p.supply * p.rate = 0 := by
    rw [h, hb, zero_mul]
  exact (mul_eq_zero.1 hprod).resolve_right p.rate_pos.ne'

theorem Move.balanced {p q : Peg} (h : Move unit p q) (hp : p.Balanced unit) :
    q.Balanced unit := by
  cases h with
  | still => exact hp
  | issue amount backing worth =>
    show (p.supply + amount) * p.rate = (p.backing + backing) * unit
    rw [add_mul, add_mul, worth, hp]
  | reprice rate hrate unbacked =>
    -- the new rate multiplies a supply of zero
    show p.supply * rate = p.backing * unit
    rw [hp.supply_eq_zero unbacked, unbacked, zero_mul, zero_mul]

end Peg

end PhiChain.Foundations
