import Mathlib.Data.Nat.Prime.Basic
import Mathlib.Algebra.Field.ZMod
import Mathlib.Tactic.NormNum.Prime
import Mathlib.Tactic.LinearCombination
import Mathlib.Tactic.IntervalCases
import C0PQLink.Fips203.Encaps

/-!
# What a ciphertext determines

The inverse transform is affine in every parameter in which its argument is, and it loses
nothing, and neither does the encoding.

* `inverseNtt_congr`, `inverseNtt_injective`: the inverse transform and its 256 entries.
* `inverseNtt_affine`: the entries of a transform that moves on a line move on lines.
* `byteEncode_injective`: the encoded integers can be read back.
-/

namespace Fips203

open Foundation

theorem prime_q : Nat.Prime 3329 := by norm_num

/-! ## The inverse transform -/

def inverseButterfly (k : Nat) (x y : Zq) : Zq × Zq := (x + y, zeta ^ bitRev7 k * (y - x))

theorem inverseNtt_eq (f : Poly) (i : Nat) : inverseNtt f i
    = (butterflyLayers inverseButterfly (· - 1) 256 [2, 4, 8, 16, 32, 64, 128] (f, 127)).1 i
      * 3303 := rfl

theorem fits_inverse : Fits 256 [2, 4, 8, 16, 32, 64, 128] := by decide

theorem blocks_inverse : ∀ count < blockCount 256 [2, 4, 8, 16, 32, 64, 128],
    (fun k => k - 1)^[count] 127 < 128 := by
  intro count _
  have hle : (fun k => k - 1)^[count] 127 ≤ 127 := by
    induction count with
    | zero => exact Nat.le_refl _
    | succ count ih =>
      rw [Function.iterate_succ_apply']
      exact (Nat.sub_le _ _).trans (ih (by omega))
  omega

theorem inverseButterfly_injective (k : Nat) (x y x' y' : Zq)
    (h : inverseButterfly k x y = inverseButterfly k x' y') : x = x' ∧ y = y' := by
  have hsum : x + y = x' + y' := congrArg Prod.fst h
  have hproduct : zeta ^ bitRev7 k * (y - x) = zeta ^ bitRev7 k * (y' - x') :=
    congrArg Prod.snd h
  have hroot : zeta ≠ 0 := by decide
  have htwo : (2 : Zq) ≠ 0 := by decide
  have := Fact.mk prime_q
  have hzeta : zeta ^ bitRev7 k ≠ 0 := pow_ne_zero _ hroot
  have hdifference : y - x = y' - x' := mul_left_cancel₀ hzeta hproduct
  have hy : (2 : Zq) * y = 2 * y' := by linear_combination hsum + hdifference
  have hy' : y = y' := mul_left_cancel₀ htwo hy
  refine ⟨?_, hy'⟩
  rw [hy'] at hsum
  exact add_right_cancel hsum

/-- The inverse transform is determined by the 256 entries. -/
theorem inverseNtt_congr {f g : Poly} (h : ∀ i < 256, f i = g i) :
    ∀ i < 256, inverseNtt f i = inverseNtt g i := by
  intro i hi
  have hlayers := butterflyLayers_related (fun _ x y => x = y) (· < 128) inverseButterfly
    inverseButterfly
    (fun n _ k _ x y x' y' hx hy => by
      subst hx hy
      exact ⟨rfl, rfl⟩)
    fits_inverse (show 0 + 7 ≤ 7 by decide) blocks_inverse h i hi
  rw [inverseNtt_eq, inverseNtt_eq, hlayers]

/-- It determines them. -/
theorem inverseNtt_injective {f g : Poly} (h : ∀ i < 256, inverseNtt f i = inverseNtt g i) :
    ∀ i < 256, f i = g i := by
  refine butterflyLayers_injective (· < 128)
    (fun k _ x y x' y' => inverseButterfly_injective k x y x' y') fits_inverse blocks_inverse ?_
  intro i hi
  have hscaled := h i hi
  have hscale : (3303 : Zq) ≠ 0 := by decide
  have := Fact.mk prime_q
  rw [inverseNtt_eq, inverseNtt_eq] at hscaled
  exact mul_right_cancel₀ hscale hscaled

/-- The butterfly on both coordinates of a line. -/
def lineButterfly (k : Nat) (x y : Zq × Zq) : (Zq × Zq) × (Zq × Zq) :=
  ((x.1 + y.1, x.2 + y.2),
    (zeta ^ bitRev7 k * (y.1 - x.1), zeta ^ bitRev7 k * (y.2 - x.2)))

theorem inverseNtt_affine (base direction : Poly) :
    ∃ base' direction' : Poly, ∀ (z : Zq) (f : Poly),
      (∀ i < 256, f i = base i + z * direction i) →
      ∀ i < 256, inverseNtt f i = base' i + z * direction' i := by
  let start : Nat → Zq × Zq := fun i => (base i, direction i)
  let lines := (butterflyLayers lineButterfly (· - 1) 256 [2, 4, 8, 16, 32, 64, 128]
    (start, 127)).1
  refine ⟨fun i => (lines i).1 * 3303, fun i => (lines i).2 * 3303, ?_⟩
  intro z f hf i hi
  have hstart : ∀ i < 256, f i = (start i).1 + z * (start i).2 := hf
  have h := butterflyLayers_related (fun _ x l => x = l.1 + z * l.2) (· < 128)
    inverseButterfly lineButterfly
    (fun n _ k _ x y x' y' hx hy => by
      subst hx hy
      constructor
      · simp only [inverseButterfly, lineButterfly]
        ring
      · simp only [inverseButterfly, lineButterfly]
        ring)
    fits_inverse (show 0 + 7 ≤ 7 by decide) blocks_inverse hstart i hi
  have hline : (butterflyLayers inverseButterfly (· - 1) 256 [2, 4, 8, 16, 32, 64, 128]
    (f, 127)).1 i = (lines i).1 + z * (lines i).2 := h
  rw [inverseNtt_eq, hline]
  ring

/-! ## The encoding -/

/-- A byte determines its bits. -/
theorem bits_injective {b b' : Nat → Nat} (hb : ∀ t, b t < 2) (hb' : ∀ t, b' t < 2)
    (h : UInt8.ofNat (∑ t ∈ Finset.range 8, b t * 2 ^ t)
      = UInt8.ofNat (∑ t ∈ Finset.range 8, b' t * 2 ^ t)) :
    ∀ t < 8, b t = b' t := by
  have hnat := congrArg UInt8.toNat h
  have h0 := hb 0
  have h1 := hb 1
  have h2 := hb 2
  have h3 := hb 3
  have h4 := hb 4
  have h5 := hb 5
  have h6 := hb 6
  have h7 := hb 7
  have h0' := hb' 0
  have h1' := hb' 1
  have h2' := hb' 2
  have h3' := hb' 3
  have h4' := hb' 4
  have h5' := hb' 5
  have h6' := hb' 6
  have h7' := hb' 7
  simp only [UInt8.toNat_ofNat', Finset.sum_range_succ, Finset.sum_range_zero, Nat.reducePow]
    at hnat
  intro t ht
  interval_cases t <;> omega

/-- A number below `2 ^ d` is determined by its first `d` bits. -/
theorem eq_of_low_bits {d x y : Nat} (hx : x < 2 ^ d) (hy : y < 2 ^ d)
    (h : ∀ j < d, x / 2 ^ j % 2 = y / 2 ^ j % 2) : x = y := by
  apply Nat.eq_of_testBit_eq
  intro j
  rcases Nat.lt_or_ge j d with hj | hj
  · rw [Nat.testBit_eq_decide_div_mod_eq, Nat.testBit_eq_decide_div_mod_eq, h j hj]
  · have hpow : 2 ^ d ≤ 2 ^ j := Nat.pow_le_pow_right (by decide) hj
    rw [Nat.testBit_lt_two_pow (by omega), Nat.testBit_lt_two_pow (by omega)]

theorem byteEncode_injective {d : Nat} (hd : 0 < d) {f g : Nat → Nat} (hf : ∀ n, f n < 2 ^ d)
    (hg : ∀ n, g n < 2 ^ d) (h : byteEncode d f = byteEncode d g) : ∀ i < 256, f i = g i := by
  have hbyte : ∀ k < 32 * d, ∀ t < 8,
      f ((8 * k + t) / d) / 2 ^ ((8 * k + t) % d) % 2
        = g ((8 * k + t) / d) / 2 ^ ((8 * k + t) % d) % 2 := by
    intro k hk
    have hget := congrArg (fun bytes => bytes[k]?) h
    simp only [byteEncode, List.getElem?_map, List.getElem?_range hk, Option.map_some,
      Option.some.injEq] at hget
    exact bits_injective (fun t => Nat.mod_lt _ (by decide)) (fun t => Nat.mod_lt _ (by decide))
      hget
  intro i hi
  apply eq_of_low_bits (hf i) (hg i)
  intro j hj
  -- the bit stands in the byte `(d * i + j) / 8`
  have hposition : d * i + j < 8 * (32 * d) := by
    have hrow := Nat.mul_le_mul_left d (show i + 1 ≤ 256 by omega)
    rw [Nat.mul_succ] at hrow
    omega
  have hbit := hbyte ((d * i + j) / 8) (by omega) ((d * i + j) % 8) (by omega)
  rwa [Nat.div_add_mod, Nat.mul_add_div hd, Nat.div_eq_of_lt hj, Nat.add_zero,
    Nat.mul_add_mod, Nat.mod_eq_of_lt hj] at hbit

theorem length_byteEncode (d : Nat) (f : Nat → Nat) : (byteEncode d f).length = 32 * d := by
  simp [byteEncode]

end Fips203
