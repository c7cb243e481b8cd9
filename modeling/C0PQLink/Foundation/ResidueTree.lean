import Mathlib.RingTheory.Polynomial.Basic
import Mathlib.Tactic.LinearCombination
import C0PQLink.Foundation.Butterflies

/-!
# Residues of polynomials

An array holds in blocks of `n` entries the residues of one polynomial modulo `X ^ n - c`,
with another `c` for each block. Where `c` is the square of `w`, the modulus `X ^ (2 * n) - c`
is the product of `X ^ n - w` and `X ^ n + w`, and a layer of butterflies goes from one array of
residues to the other.

* `Residues.split`, `Residues.merge`: one layer of the transform and one of its inverse.
* `ButterflyRoots.residues_halvings`, `ButterflyRoots.residues_doublings`: all layers.
* `ButterflyRoots.dvd_root`: a polynomial that all the last moduli divide.
-/

namespace Foundation

open Polynomial

variable {R : Type} [CommRing R]

/-! ## Blocks -/

/-- The block `b` of `n` entries. -/
noncomputable def blockPolynomial (n b : Nat) (p : Nat → R) : R[X] :=
  ∑ j ∈ Finset.range n, C (p (n * b + j)) * X ^ j

/-- The blocks of an array are residues of `F`. -/
def Residues (n count : Nat) (modulus : Nat → R) (p : Nat → R) (F : R[X]) : Prop :=
  ∀ b < count, X ^ n - C (modulus b) ∣ F - blockPolynomial n b p

/-- A block and its two halves. -/
theorem blockPolynomial_two_mul (n b : Nat) (p : Nat → R) :
    blockPolynomial (2 * n) b p
      = blockPolynomial n (2 * b) p + X ^ n * blockPolynomial n (2 * b + 1) p := by
  rw [blockPolynomial, Nat.two_mul, Finset.sum_range_add, blockPolynomial, blockPolynomial,
    Finset.mul_sum]
  refine congrArg₂ _ (Finset.sum_congr rfl fun j _ => ?_) (Finset.sum_congr rfl fun j _ => ?_)
  · rw [show (n + n) * b + j = n * (2 * b) + j by ring]
  · rw [show (n + n) * b + (n + j) = n * (2 * b + 1) + j by ring, pow_add]
    ring

theorem blockPolynomial_add (n b : Nat) (p q : Nat → R) :
    blockPolynomial n b (fun i => p i + q i)
      = blockPolynomial n b p + blockPolynomial n b q := by
  rw [blockPolynomial, blockPolynomial, blockPolynomial, ← Finset.sum_add_distrib]
  refine Finset.sum_congr rfl fun j _ => ?_
  rw [C_add, add_mul]

theorem blockPolynomial_smul (n b : Nat) (c : R) (p : Nat → R) :
    blockPolynomial n b (fun i => c * p i) = C c * blockPolynomial n b p := by
  rw [blockPolynomial, blockPolynomial, Finset.mul_sum]
  refine Finset.sum_congr rfl fun j _ => ?_
  rw [C_mul, mul_assoc]

theorem degree_blockPolynomial_lt [Nontrivial R] (n b : Nat) (p : Nat → R) :
    (blockPolynomial n b p).degree < n := by
  rw [← mem_degreeLT]
  refine Submodule.sum_mem _ fun j hj => ?_
  rw [mem_degreeLT]
  exact (degree_C_mul_X_pow_le _ _).trans_lt (by exact_mod_cast Finset.mem_range.mp hj)

theorem coeff_blockPolynomial {n b i : Nat} (hi : i < n) (p : Nat → R) :
    (blockPolynomial n b p).coeff i = p (n * b + i) := by
  rw [blockPolynomial, finsetSum_coeff]
  simp only [coeff_C_mul, coeff_X_pow, mul_ite, mul_one, mul_zero]
  rw [Finset.sum_ite_eq, if_pos (Finset.mem_range.mpr hi)]

/-! ## One layer -/

/-- Each modulus is a square, and its two roots are the next moduli. -/
structure Splitting (count : Nat) (modulus modulus' roots : Nat → R) : Prop where
  square : ∀ b < count, roots b ^ 2 = modulus b
  left : ∀ b < count, modulus' (2 * b) = roots b
  right : ∀ b < count, modulus' (2 * b + 1) = -roots b

section

variable {n count : Nat} {modulus modulus' roots : Nat → R}

theorem Splitting.factors (h : Splitting count modulus modulus' roots) {b : Nat}
    (hb : b < count) (n : Nat) :
    (X ^ (2 * n) - C (modulus b) : R[X])
      = (X ^ n - C (modulus' (2 * b))) * (X ^ n - C (modulus' (2 * b + 1))) := by
  rw [← h.square b hb, h.left b hb, h.right b hb, C_pow, C_neg, Nat.mul_comm, pow_mul]
  ring

variable {α : Type}

/-- A layer on the two halves of a block. -/
theorem butterflyLayer_halves (f : Nat → α → α → α × α) (next : Nat → Nat) (hn : 0 < n)
    (p : Nat → α) (parameter : Nat) {b j : Nat} (hb : b < count) (hj : j < n) :
    (butterflyLayer f next (count * (2 * n)) n (p, parameter)).1 (n * (2 * b) + j)
        = (f (next^[b] parameter) (p (n * (2 * b) + j)) (p (n * (2 * b + 1) + j))).1
      ∧ (butterflyLayer f next (count * (2 * n)) n (p, parameter)).1 (n * (2 * b + 1) + j)
        = (f (next^[b] parameter) (p (n * (2 * b) + j)) (p (n * (2 * b + 1) + j))).2 := by
  have hsize : count * (2 * n) / (2 * n) * (2 * n) = count * (2 * n) := by
    rw [Nat.mul_div_cancel _ (by omega)]
  have hblock : (b + 1) * (2 * n) ≤ count * (2 * n) := Nat.mul_le_mul_right _ hb
  have hlow : n * (2 * b) + j = 2 * n * b + j := by ring
  have hhigh : n * (2 * b + 1) + j = 2 * n * b + (n + j) := by ring
  have hnext : (b + 1) * (2 * n) = 2 * n * b + 2 * n := by ring
  constructor
  · rw [butterflyLayer_apply f next hn hsize, if_pos (by omega), layerEntry, hlow, hhigh,
      Nat.mul_add_mod, Nat.mod_eq_of_lt (by omega), if_pos hj, Nat.mul_add_div (by omega),
      Nat.div_eq_of_lt (by omega), Nat.add_zero,
      show 2 * n * b + j + n = 2 * n * b + (n + j) by omega]
  · rw [butterflyLayer_apply f next hn hsize, if_pos (by omega), layerEntry, hlow, hhigh,
      Nat.mul_add_mod, Nat.mod_eq_of_lt (by omega), if_neg (by omega), Nat.mul_add_div (by omega),
      Nat.div_eq_of_lt (by omega), Nat.add_zero,
      show 2 * n * b + (n + j) - n = 2 * n * b + j by omega]

/-- A layer of linear butterflies on the two halves of a block. -/
theorem blockPolynomial_layer {f : Nat → R → R → R × R} (next : Nat → Nat) (hn : 0 < n)
    (p : Nat → R) (parameter : Nat) {b : Nat} (hb : b < count) (x₁ y₁ x₂ y₂ : R)
    (hf : ∀ x y, f (next^[b] parameter) x y = (x₁ * x + y₁ * y, x₂ * x + y₂ * y)) :
    blockPolynomial n (2 * b) (butterflyLayer f next (count * (2 * n)) n (p, parameter)).1
        = C x₁ * blockPolynomial n (2 * b) p + C y₁ * blockPolynomial n (2 * b + 1) p
      ∧ blockPolynomial n (2 * b + 1)
          (butterflyLayer f next (count * (2 * n)) n (p, parameter)).1
        = C x₂ * blockPolynomial n (2 * b) p + C y₂ * blockPolynomial n (2 * b + 1) p := by
  have hhalves (j : Nat) (hj : j < n) := butterflyLayer_halves f next hn p parameter hb hj
  constructor
  · simp only [blockPolynomial, Finset.mul_sum]
    rw [← Finset.sum_add_distrib]
    refine Finset.sum_congr rfl fun j hj => ?_
    rw [(hhalves j (Finset.mem_range.mp hj)).1, hf, C_add, C_mul, C_mul]
    ring
  · simp only [blockPolynomial, Finset.mul_sum]
    rw [← Finset.sum_add_distrib]
    refine Finset.sum_congr rfl fun j hj => ?_
    rw [(hhalves j (Finset.mem_range.mp hj)).2, hf, C_add, C_mul, C_mul]
    ring

theorem half_cases {b' : Nat} (hb' : b' < 2 * count) :
    ∃ b < count, b' = 2 * b ∨ b' = 2 * b + 1 := ⟨b' / 2, by omega, by omega⟩

/-- A layer of the transform. -/
theorem Residues.split {w : Nat → R} {next : Nat → Nat} {parameter : Nat} (hn : 0 < n)
    (hsplit : Splitting count modulus modulus' fun b => w (next^[b] parameter)) {p : Nat → R}
    {F : R[X]} (h : Residues (2 * n) count modulus p F) :
    Residues n (2 * count) modulus'
      (butterflyLayer (fun k x y => (x + w k * y, x - w k * y)) next (count * (2 * n)) n
        (p, parameter)).1 F := by
  intro b' hb'
  obtain ⟨b, hb, hcases⟩ := half_cases hb'
  obtain ⟨hlow, hhigh⟩ := blockPolynomial_layer
    (f := fun k x y => (x + w k * y, x - w k * y)) next hn p parameter hb
    1 (w (next^[b] parameter)) 1 (-w (next^[b] parameter))
    (fun x y => by rw [one_mul, neg_mul, sub_eq_add_neg])
  have hwhole := h b hb
  rw [hsplit.factors hb, blockPolynomial_two_mul] at hwhole
  rcases hcases with rfl | rfl
  · have hdvd := dvd_add (dvd_of_mul_right_dvd hwhole)
      (Dvd.intro (blockPolynomial n (2 * b + 1) p) rfl)
    refine hdvd.trans (dvd_of_eq ?_)
    rw [hlow, hsplit.left b hb, C_1]
    ring
  · have hdvd := dvd_add (dvd_of_mul_left_dvd hwhole)
      (Dvd.intro (blockPolynomial n (2 * b + 1) p) rfl)
    refine hdvd.trans (dvd_of_eq ?_)
    rw [hhigh, hsplit.right b hb, C_1, C_neg]
    ring

/-- A layer of the inverse transform, up to a factor. -/
theorem Residues.merge {w : Nat → R} {next : Nat → Nat} {parameter : Nat} (hn : 0 < n)
    (hsplit : Splitting count modulus modulus' roots)
    (hinverse : ∀ b < count, w (next^[b] parameter) * roots b = -1) {scale : R} {p : Nat → R}
    {F : R[X]}
    (h : Residues (2 * n) count modulus
      (fun i => scale * (butterflyLayer (fun k x y => (x + y, w k * (y - x))) next
        (count * (2 * n)) n (p, parameter)).1 i) F) :
    Residues n (2 * count) modulus' (fun i => 2 * scale * p i) F := by
  intro b' hb'
  obtain ⟨b, hb, hcases⟩ := half_cases hb'
  obtain ⟨hlow, hhigh⟩ := blockPolynomial_layer
    (f := fun k x y => (x + y, w k * (y - x))) next hn p parameter hb
    1 1 (-w (next^[b] parameter)) (w (next^[b] parameter))
    (fun x y => by rw [one_mul, one_mul, mul_sub, neg_mul, neg_add_eq_sub])
  have hwhole := h b hb
  rw [hsplit.factors hb, blockPolynomial_smul, blockPolynomial_two_mul, hlow, hhigh] at hwhole
  have hunit : C (w (next^[b] parameter)) * C (roots b) = (-1 : R[X]) := by
    rw [← C_mul, hinverse b hb, C_neg, C_1]
  rw [blockPolynomial_smul]
  have hdifference (q : R[X]) := Dvd.intro
    (C scale * C (w (next^[b] parameter))
      * (blockPolynomial n (2 * b + 1) p - blockPolynomial n (2 * b) p)) (Eq.refl (q * _))
  rcases hcases with rfl | rfl
  · refine (dvd_add (dvd_of_mul_right_dvd hwhole) (hdifference _)).trans (dvd_of_eq ?_)
    rw [hsplit.left b hb]
    simp only [C_1, C_mul, C_neg, C_ofNat]
    linear_combination (C scale
      * (blockPolynomial n (2 * b) p - blockPolynomial n (2 * b + 1) p)) * hunit
  · refine (dvd_add (dvd_of_mul_left_dvd hwhole) (hdifference _)).trans (dvd_of_eq ?_)
    rw [hsplit.right b hb]
    simp only [C_1, C_mul, C_neg, C_ofNat]
    linear_combination (C scale
      * (blockPolynomial n (2 * b + 1) p - blockPolynomial n (2 * b) p)) * hunit

/-- The two factors of a modulus have no common factor. -/
theorem Splitting.dvd (hsplit : Splitting count modulus modulus' roots) {b : Nat} (hb : b < count)
    {u : R} (hunit : u * (2 * roots b) = 1) {H : R[X]}
    (hleft : X ^ n - C (modulus' (2 * b)) ∣ H) (hright : X ^ n - C (modulus' (2 * b + 1)) ∣ H) :
    X ^ (2 * n) - C (modulus b) ∣ H := by
  rw [hsplit.factors hb]
  refine IsCoprime.mul_dvd ⟨-C u, C u, ?_⟩ hleft hright
  have hone : C u * (2 * C (roots b)) = (1 : R[X]) := by
    rw [← C_1, ← hunit, C_mul, C_mul, C_ofNat]
  rw [hsplit.left b hb, hsplit.right b hb, C_neg]
  linear_combination hone

end

/-! ## All layers -/

theorem iterate_succ_eq (count k : Nat) : (fun k => k + 1)^[count] k = k + count := by
  induction count with
  | zero => rfl
  | succ count ih => rw [Function.iterate_succ_apply', ih, Nat.add_assoc]

theorem iterate_pred_eq (count k : Nat) : (fun k => k - 1)^[count] k = k - count := by
  induction count with
  | zero => rfl
  | succ count ih => rw [Function.iterate_succ_apply', ih, Nat.sub_sub]

/-- The lengths of `d` layers that end with blocks of `n`. -/
def halvings (n : Nat) : Nat → List Nat
  | 0 => []
  | d + 1 => n * 2 ^ d :: halvings n d

/-- The same lengths in the order of the inverse transform. -/
def doublings (n : Nat) : Nat → List Nat
  | 0 => []
  | d + 1 => n :: doublings (2 * n) d

/-- The moduli of `depth` layers, and the factors of their blocks: those of a layer stand one
after the other, and in the opposite order they are the inverses, up to the sign. -/
structure ButterflyRoots (depth : Nat) (modulus : Nat → Nat → R) (w : Nat → R) : Prop where
  split : ∀ s < depth, Splitting (2 ^ s) (modulus s) (modulus (s + 1)) fun b => w (2 ^ s + b)
  inverse : ∀ s < depth, ∀ b < 2 ^ s, w (2 ^ (s + 1) - 1 - b) * w (2 ^ s + b) = -1

section

variable {depth : Nat} {modulus : Nat → Nat → R} {w : Nat → R}

theorem layer_size (n s d : Nat) : n * 2 ^ (s + (d + 1)) = 2 ^ s * (2 * (n * 2 ^ d)) := by
  rw [pow_add, pow_succ]
  ring

theorem ButterflyRoots.residues_halvings (h : ButterflyRoots depth modulus w) {n : Nat}
    (hn : 0 < n) {d s : Nat} (hs : s + d ≤ depth) {p : Nat → R} {F : R[X]}
    (hp : Residues (n * 2 ^ d) (2 ^ s) (modulus s) p F) :
    Residues n (2 ^ (s + d)) (modulus (s + d))
      (butterflyLayers (fun k x y => (x + w k * y, x - w k * y)) (· + 1) (n * 2 ^ (s + d))
        (halvings n d) (p, 2 ^ s)).1 F := by
  induction d generalizing s p with
  | zero =>
    rw [pow_zero, Nat.mul_one] at hp
    exact hp
  | succ d ih =>
    have hlength : 0 < n * 2 ^ d := Nat.mul_pos hn (Nat.two_pow_pos d)
    have hblock : n * 2 ^ (d + 1) = 2 * (n * 2 ^ d) := by
      rw [pow_succ]
      ring
    have hsplit := h.split s (by omega)
    simp only [← iterate_succ_eq _ (2 ^ s)] at hsplit
    rw [hblock] at hp
    have hlayer := hp.split hlength hsplit
    have hcount : 2 ^ s * (2 * (n * 2 ^ d)) / (2 * (n * 2 ^ d)) = 2 ^ s :=
      Nat.mul_div_cancel _ (by omega)
    have hdouble : 2 ^ (s + 1) = 2 * 2 ^ s := by rw [pow_succ, Nat.mul_comm]
    rw [← hdouble] at hlayer
    have hrest := ih (show s + 1 + d ≤ depth by omega) hlayer
    rw [halvings, layer_size, butterflyLayers_cons, hcount, iterate_succ_eq, ← Nat.two_mul,
      ← hdouble, ← layer_size, show s + (d + 1) = s + 1 + d by omega]
    rw [← layer_size, show s + (d + 1) = s + 1 + d by omega] at hrest
    exact hrest

theorem ButterflyRoots.residues_doublings (h : ButterflyRoots depth modulus w) {n : Nat}
    (hn : 0 < n) {d s : Nat} (hs : s + d ≤ depth) {scale : R} {p : Nat → R} {F : R[X]}
    (hp : Residues (n * 2 ^ d) (2 ^ s) (modulus s) (fun i => scale
      * (butterflyLayers (fun k x y => (x + y, w k * (y - x))) (· - 1) (n * 2 ^ (s + d))
        (doublings n d) (p, 2 ^ (s + d) - 1)).1 i) F) :
    Residues n (2 ^ (s + d)) (modulus (s + d)) (fun i => 2 ^ d * scale * p i) F := by
  induction d generalizing n p with
  | zero =>
    rw [pow_zero, Nat.mul_one] at hp
    simp only [pow_zero, one_mul]
    exact hp
  | succ d ih =>
    have hsize : n * 2 ^ (s + (d + 1)) = 2 ^ (s + d) * (2 * n) := by
      rw [← Nat.add_assoc, pow_succ]
      ring
    have hcount : 2 ^ (s + d) * (2 * n) / (2 * n) = 2 ^ (s + d) :=
      Nat.mul_div_cancel _ (by omega)
    have hdouble : 2 ^ (s + (d + 1)) = 2 * 2 ^ (s + d) := by
      rw [← Nat.add_assoc, pow_succ, Nat.mul_comm]
    have hpos := Nat.two_pow_pos (s + d)
    have hblock : n * 2 ^ (d + 1) = 2 * n * 2 ^ d := by
      rw [pow_succ]
      ring
    rw [doublings, hsize, butterflyLayers_cons, hcount, iterate_pred_eq, hdouble, hblock,
      show 2 * 2 ^ (s + d) - 1 - 2 ^ (s + d) = 2 ^ (s + d) - 1 by omega,
      show 2 ^ (s + d) * (2 * n) = 2 * n * 2 ^ (s + d) from Nat.mul_comm _ _] at hp
    have hrest := ih (n := 2 * n) (by omega) (by omega) hp
    rw [show 2 * n * 2 ^ (s + d) = 2 ^ (s + d) * (2 * n) from Nat.mul_comm _ _] at hrest
    have hinverse : ∀ b < 2 ^ (s + d),
        w ((fun k => k - 1)^[b] (2 * 2 ^ (s + d) - 1)) * w (2 ^ (s + d) + b) = -1 := by
      intro b hb
      have hpair := h.inverse (s + d) (by omega) b hb
      rw [iterate_pred_eq]
      rwa [Nat.add_assoc, hdouble] at hpair
    have hmerged := hrest.merge hn (h.split (s + d) (by omega)) hinverse
    have hscale : 2 * (2 ^ d * scale) = 2 ^ (d + 1) * scale := by
      rw [pow_succ]
      ring
    rw [hscale] at hmerged
    rw [hdouble]
    exact hmerged

/-- A polynomial that all moduli of the last layer divide. -/
theorem ButterflyRoots.dvd_root (h : ButterflyRoots depth modulus w) {u : R} (hu : u * 2 = 1)
    {n d s : Nat} (hs : s + d ≤ depth) {H : R[X]}
    (hdvd : ∀ b < 2 ^ (s + d), X ^ n - C (modulus (s + d) b) ∣ H) :
    ∀ b < 2 ^ s, X ^ (n * 2 ^ d) - C (modulus s b) ∣ H := by
  induction d generalizing s with
  | zero =>
    rw [pow_zero, Nat.mul_one]
    exact hdvd
  | succ d ih =>
    intro b hb
    rw [show s + (d + 1) = s + 1 + d by omega] at hdvd
    have hnext := ih (by omega) hdvd
    have hdouble : 2 ^ (s + 1) = 2 * 2 ^ s := by rw [pow_succ, Nat.mul_comm]
    have hunit : -u * w (2 ^ (s + 1) - 1 - b) * (2 * w (2 ^ s + b)) = 1 := by
      linear_combination (-u * 2) * h.inverse s (by omega) b hb + hu
    have hblock : n * 2 ^ (d + 1) = 2 * (n * 2 ^ d) := by
      rw [pow_succ]
      ring
    rw [hblock]
    exact (h.split s (by omega)).dvd hb hunit (hnext (2 * b) (by omega))
      (hnext (2 * b + 1) (by omega))

end

end Foundation
