import Mathlib.Data.ZMod.Basic
import Mathlib.Tactic.Linarith
import Mathlib.Tactic.LinearCombination

/-!
# Signed modular reduction

Reductions modulo `q` whose results are signed. The quotient of a Montgomery reduction is
exact, and its result is a representative of the value divided by the radix.

* `montgomery_exact`, `montgomery_bound`: the value and the size of a Montgomery reduction.
-/

namespace Foundation

section

variable {q radix inverse factor value : Int}

/-- The factor is chosen so that the radix divides the difference. -/
theorem montgomery_exact (hinverse : radix ∣ inverse * q - 1)
    (hfactor : radix ∣ factor - value * inverse) :
    (value - factor * q) / radix * radix = value - factor * q := by
  apply Int.ediv_mul_cancel
  obtain ⟨c, hc⟩ := hinverse
  obtain ⟨d, hd⟩ := hfactor
  exact ⟨-(value * c) - d * q, by linear_combination (-value) * hc - q * hd⟩

/-- Half the radix times the modulus bounds both terms of the difference. -/
theorem montgomery_bound (hq : 0 < q) (hradix : 0 < radix) (hlow : -radix ≤ 2 * factor)
    (hhigh : 2 * factor ≤ radix) (hvalue : -(q * radix) < 2 * value)
    (hvalue' : 2 * value < q * radix)
    (hexact : (value - factor * q) / radix * radix = value - factor * q) :
    -q < (value - factor * q) / radix ∧ (value - factor * q) / radix < q := by
  generalize (value - factor * q) / radix = quotient at hexact
  have hproduct : 2 * factor * q ≤ radix * q := Int.mul_le_mul_of_nonneg_right hhigh hq.le
  have hproduct' : -radix * q ≤ 2 * factor * q := Int.mul_le_mul_of_nonneg_right hlow hq.le
  constructor
  · refine lt_of_mul_lt_mul_right (a := radix) ?_ hradix.le
    linarith
  · refine lt_of_mul_lt_mul_right (a := radix) ?_ hradix.le
    linarith

end

end Foundation
