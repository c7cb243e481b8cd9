import Mathlib.Algebra.Polynomial.Div
import C0PQLink.Fips203.Injective
import C0PQLink.Foundation.ResidueTree

/-!
# The transform and the ring

The transform of a polynomial consists of its residues modulo `X ^ 2 - c`, where `c` runs over
the odd powers of the root of unity. Multiplication of transforms is therefore multiplication
modulo `X ^ 256 + 1`.

* `ntt_residues`, `inverseNtt_residues`: what the two transforms compute.
* `inverseNtt_multiplyNTTs`, `inverseNtt_sum`: the product of two polynomials, and the sum of
  two products.
* `ntt_inverseNtt`: the inverse transform is the inverse.
-/

namespace Fips203

open Foundation Polynomial

/-- The polynomial with the 256 coefficients. -/
noncomputable def toPolynomial (f : Poly) : Zq[X] := ∑ i ∈ Finset.range 256, C (f i) * X ^ i

theorem toPolynomial_eq (f : Poly) : toPolynomial f = blockPolynomial 256 0 f := by
  rw [toPolynomial, blockPolynomial]
  refine Finset.sum_congr rfl fun i _ => ?_
  rw [Nat.mul_zero, Nat.zero_add]

theorem coeff_toPolynomial (f : Poly) {i : Nat} (hi : i < 256) :
    (toPolynomial f).coeff i = f i := by
  rw [toPolynomial_eq, coeff_blockPolynomial hi, Nat.mul_zero, Nat.zero_add]

/-- The representative of a product or a sum modulo `X ^ 256 + 1`. -/
noncomputable def reduced (F : Zq[X]) : Zq[X] := F %ₘ (X ^ 256 + 1)

/-! ## The moduli -/

/-- The moduli of the blocks before the layer `s`. -/
def layerModulus : Nat → Nat → Zq
  | 0, _ => -1
  | s + 1, b => (-1) ^ b * zeta ^ bitRev7 (2 ^ s + b / 2)

theorem butterflyRoots : ButterflyRoots 7 layerModulus fun k => zeta ^ bitRev7 k := by
  have hsquare : ∀ s < 7, ∀ b < 2 ^ s, (zeta ^ bitRev7 (2 ^ s + b)) ^ 2 = layerModulus s b := by
    decide +kernel
  have hleft : ∀ s < 7, ∀ b < 2 ^ s,
      layerModulus (s + 1) (2 * b) = zeta ^ bitRev7 (2 ^ s + b) := by
    decide +kernel
  have hright : ∀ s < 7, ∀ b < 2 ^ s,
      layerModulus (s + 1) (2 * b + 1) = -zeta ^ bitRev7 (2 ^ s + b) := by
    decide +kernel
  have hinverse : ∀ s < 7, ∀ b < 2 ^ s,
      zeta ^ bitRev7 (2 ^ (s + 1) - 1 - b) * zeta ^ bitRev7 (2 ^ s + b) = -1 := by
    decide +kernel
  exact ⟨fun s hs => ⟨hsquare s hs, hleft s hs, hright s hs⟩, hinverse⟩

theorem layerModulus_last {b : Nat} (hb : b < 128) :
    layerModulus 7 b = zeta ^ (2 * bitRev7 b + 1) := by
  have hall : ∀ b < 128, layerModulus 7 b = zeta ^ (2 * bitRev7 b + 1) := by decide +kernel
  exact hall b hb

/-- The pairs of entries are residues of the polynomial. -/
def PairResidues (p : Poly) (F : Zq[X]) : Prop := Residues 2 128 (layerModulus 7) p F

/-! ## The two transforms -/

theorem residues_self (f : Poly) :
    Residues (2 * 2 ^ 7) (2 ^ 0) (layerModulus 0) f (toPolynomial f) := by
  intro b hb
  have hsize : 2 * 2 ^ 7 = 256 := by decide
  obtain rfl : b = 0 := by omega
  rw [hsize, toPolynomial_eq, sub_self]
  exact dvd_zero _

theorem ntt_eq (f : Poly) : ntt f
    = (butterflyLayers (fun k x y => (x + zeta ^ bitRev7 k * y, x - zeta ^ bitRev7 k * y)) (· + 1)
        (2 * 2 ^ (0 + 7)) (halvings 2 7) (f, 2 ^ 0)).1 := by
  rfl

theorem ntt_residues (f : Poly) : PairResidues (ntt f) (toPolynomial f) := by
  rw [ntt_eq]
  exact butterflyRoots.residues_halvings (by decide) (show 0 + 7 ≤ 7 by decide) (residues_self f)

theorem inverseNtt_scaled (g : Poly) : inverseNtt g
    = fun i => 3303 * (butterflyLayers (fun k x y => (x + y, zeta ^ bitRev7 k * (y - x))) (· - 1)
        (2 * 2 ^ (0 + 7)) (doublings 2 7) (g, 2 ^ (0 + 7) - 1)).1 i := by
  funext i
  rw [mul_comm]
  rfl

theorem inverseNtt_residues (g : Poly) : PairResidues g (toPolynomial (inverseNtt g)) := by
  have hself : Residues (2 * 2 ^ 7) (2 ^ 0) (layerModulus 0)
      (fun i => 3303 * (butterflyLayers (fun k x y => (x + y, zeta ^ bitRev7 k * (y - x))) (· - 1)
        (2 * 2 ^ (0 + 7)) (doublings 2 7) (g, 2 ^ (0 + 7) - 1)).1 i)
      (toPolynomial (inverseNtt g)) := by
    rw [← inverseNtt_scaled]
    exact residues_self (inverseNtt g)
  have hresidues : Residues 2 (2 ^ (0 + 7)) (layerModulus (0 + 7)) (fun i => 2 ^ 7 * 3303 * g i)
      (toPolynomial (inverseNtt g)) :=
    butterflyRoots.residues_doublings (by decide) (show 0 + 7 ≤ 7 by decide) hself
  have hscale : (2 ^ 7 * 3303 : Zq) = 1 := by decide
  have hunscaled : (fun i => 2 ^ 7 * 3303 * g i) = g := by
    funext i
    rw [hscale, one_mul]
  rw [hunscaled] at hresidues
  exact hresidues

/-! ## Products -/

theorem blockPolynomial_pair (b : Nat) (p : Poly) :
    blockPolynomial 2 b p = C (p (2 * b)) + C (p (2 * b + 1)) * X := by
  rw [blockPolynomial, Finset.sum_range_succ, Finset.sum_range_one, pow_zero, mul_one, pow_one,
    Nat.add_zero]

/-- The product of two pairs is the product of the residues. -/
theorem PairResidues.mul {p q : Poly} {F G : Zq[X]} (hp : PairResidues p F)
    (hq : PairResidues q G) : PairResidues (multiplyNTTs p q) (F * G) := by
  intro b hb
  have heven : multiplyNTTs p q (2 * b)
      = p (2 * b) * q (2 * b) + p (2 * b + 1) * q (2 * b + 1) * layerModulus 7 b := by
    rw [multiplyNTTs, if_pos (by omega), show 2 * b / 2 = b by omega, layerModulus_last hb]
  have hodd : multiplyNTTs p q (2 * b + 1)
      = p (2 * b) * q (2 * b + 1) + p (2 * b + 1) * q (2 * b) := by
    rw [multiplyNTTs, if_neg (by omega), Nat.add_sub_cancel]
  have hblock : blockPolynomial 2 b p * blockPolynomial 2 b q
        - blockPolynomial 2 b (multiplyNTTs p q)
      = (X ^ 2 - C (layerModulus 7 b)) * (C (p (2 * b + 1)) * C (q (2 * b + 1))) := by
    rw [blockPolynomial_pair, blockPolynomial_pair, blockPolynomial_pair, heven, hodd]
    simp only [C_add, C_mul]
    ring
  have hfirst := (hp b hb).mul_right G
  have hsecond := (hq b hb).mul_left (blockPolynomial 2 b p)
  refine (dvd_add (dvd_add hfirst hsecond) (Dvd.intro _ hblock.symm)).trans (dvd_of_eq ?_)
  ring

theorem PairResidues.add {p q : Poly} {F G : Zq[X]} (hp : PairResidues p F)
    (hq : PairResidues q G) : PairResidues (fun n => p n + q n) (F + G) := by
  intro b hb
  refine (dvd_add (hp b hb) (hq b hb)).trans (dvd_of_eq ?_)
  rw [blockPolynomial_add]
  ring

theorem X_pow_add_one {n : Nat} (hn : 0 < n) :
    (X ^ n + 1 : Zq[X]).Monic ∧ (X ^ n + 1 : Zq[X]).degree = n := by
  have := Fact.mk prime_q
  rw [← C_1]
  exact ⟨monic_X_pow_add_C 1 (by omega), degree_X_pow_add_C hn 1⟩

/-- A polynomial with 256 coefficients is determined by its residues. -/
theorem PairResidues.unique {p : Poly} {F : Zq[X]} {h : Poly} (hF : PairResidues p F)
    (hh : PairResidues p (toPolynomial h)) : toPolynomial h = reduced F := by
  have hdvd : ∀ b < 2 ^ (0 + 7), X ^ 2 - C (layerModulus (0 + 7) b) ∣ toPolynomial h - F := by
    intro b hb
    refine (dvd_sub (hh b hb) (hF b hb)).trans (dvd_of_eq ?_)
    ring
  have hhalf : (1665 : Zq) * 2 = 1 := by decide
  have hroot := butterflyRoots.dvd_root hhalf (show 0 + 7 ≤ 7 by decide) hdvd 0 (by decide)
  have hmodulus : (X ^ (2 * 2 ^ 7) - C (layerModulus 0 0) : Zq[X]) = X ^ 256 + 1 := by
    rw [layerModulus, C_neg, C_1, sub_neg_eq_add, show 2 * 2 ^ 7 = 256 by decide]
  rw [hmodulus] at hroot
  have := Fact.mk prime_q
  obtain ⟨hmonic, hdegree⟩ := X_pow_add_one (show 0 < 256 by decide)
  rw [reduced, ← modByMonic_eq_of_dvd_sub hmonic hroot, (modByMonic_eq_self_iff hmonic).mpr]
  rw [hdegree, toPolynomial_eq]
  exact degree_blockPolynomial_lt 256 0 h

theorem inverseNtt_multiplyNTTs (f g : Poly) :
    toPolynomial (inverseNtt (multiplyNTTs g (ntt f)))
      = reduced (toPolynomial f * toPolynomial (inverseNtt g)) := by
  have hproduct := (inverseNtt_residues g).mul (ntt_residues f)
  rw [mul_comm] at hproduct
  exact hproduct.unique (inverseNtt_residues _)

theorem inverseNtt_sum (f₀ f₁ g₀ g₁ : Poly) :
    toPolynomial (inverseNtt fun n =>
        multiplyNTTs g₀ (ntt f₀) n + multiplyNTTs g₁ (ntt f₁) n)
      = reduced (toPolynomial f₀ * toPolynomial (inverseNtt g₀)
          + toPolynomial f₁ * toPolynomial (inverseNtt g₁)) := by
  have hfirst := (inverseNtt_residues g₀).mul (ntt_residues f₀)
  have hsecond := (inverseNtt_residues g₁).mul (ntt_residues f₁)
  rw [mul_comm] at hfirst hsecond
  exact (hfirst.add hsecond).unique (inverseNtt_residues _)

/-- The two transforms are inverse to each other. -/
theorem ntt_inverseNtt (g : Poly) : ∀ i < 256, ntt (inverseNtt g) i = g i := by
  intro i hi
  have hb : i / 2 < 128 := by omega
  have hfirst := ntt_residues (inverseNtt g) (i / 2) hb
  have hsecond := inverseNtt_residues g (i / 2) hb
  have := Fact.mk prime_q
  have hdvd := dvd_sub hsecond hfirst
  rw [sub_sub_sub_cancel_left] at hdvd
  have hdegree : (blockPolynomial 2 (i / 2) (ntt (inverseNtt g))
      - blockPolynomial 2 (i / 2) g).degree
        < (X ^ 2 - C (layerModulus 7 (i / 2)) : Zq[X]).degree := by
    rw [degree_X_pow_sub_C (by decide)]
    exact (degree_sub_le _ _).trans_lt
      (max_lt (degree_blockPolynomial_lt 2 _ _) (degree_blockPolynomial_lt 2 _ _))
  have hsame := sub_eq_zero.mp (eq_zero_of_dvd_of_degree_lt hdvd hdegree)
  have hcoeff := congrArg (fun F => F.coeff (i % 2)) hsame
  simp only [coeff_blockPolynomial (show i % 2 < 2 by omega)] at hcoeff
  rwa [Nat.div_add_mod] at hcoeff

end Fips203
