import C0PQLink.Core.MlKem512Transform
import C0PQLink.Fips203.Ring

/-!
# Products in the ring

What the encapsulation computes by way of the transform is a product of polynomials modulo
`X ^ 256 + 1`, or the sum of two such products.

* `transformedBack_represents`: the way back from sums of products of transforms.
* `transform_multiplies`: the coefficients at its end.
-/

namespace C0PQLink

/-- The residues of the entries. -/
def residuesOf (p : Polynomial) : Fips203.Poly := fun i => ((p i).toInt : Fips203.Zq)

/-- The entries are in the range of `sample_cbd`. -/
def Sampled (p : Polynomial) : Prop := ∀ i < 256, -3 ≤ (p i).toInt ∧ (p i).toInt ≤ 3

/-- The entries are in the range of `sample_ntt_next`. -/
def FromReader (p : Polynomial) : Prop := ∀ i < 256, 0 ≤ (p i).toInt ∧ (p i).toInt < 3329

/-- An accumulator after the loop over `barrett_reduce` and after `inverse_ntt`. -/
def transformedBack (accumulator : Polynomial) : Polynomial :=
  inverseNtt fun i => barrettReduce (accumulator i)

/-- The product of `f` and of the polynomial with the transform `g`, added to an accumulator. -/
def accumulate (accumulator f g : Polynomial) : Polynomial :=
  multiplyAdd loadZeta accumulator g (ntt f)

theorem Sampled.represents {p : Polynomial} (h : Sampled p) :
    ∀ i < 256, Represents 3 (p i) (residuesOf p i) :=
  fun i hi => ⟨(h i hi).1, (h i hi).2, rfl⟩

theorem FromReader.represents {p : Polynomial} (h : FromReader p) :
    ∀ i < 256, Represents 3328 (p i) (residuesOf p i) := by
  intro i hi
  obtain ⟨hlow, hhigh⟩ := h i hi
  exact ⟨by omega, by omega, rfl⟩

theorem accumulate_represents {m : Int} {accumulator f g : Polynomial} {h : Fips203.Poly}
    (hacc : ∀ i < 256, Represents m (accumulator i) (h i)) (hf : Sampled f) (hg : FromReader g)
    (hfits : m + 6656 ≤ 32767) :
    ∀ i < 256, Represents (m + 6656) (accumulate accumulator f g i)
      (h i + Fips203.multiplyNTTs (residuesOf g) (Fips203.ntt (residuesOf f)) i * 169) := by
  intro i hi
  rw [← productWith_gammas]
  exact multiplyAdd_represents (fun n hn => factors_loadZeta hn) hacc hg.represents
    (ntt_represents hf.represents) hfits i hi

theorem transformedBack_represents {m : Int} {accumulator : Polynomial} {h : Fips203.Poly}
    (hacc : ∀ i < 256, Represents m (accumulator i) (h i * 169)) :
    ∀ i < 256, Represents 3328 (transformedBack accumulator i) (Fips203.inverseNtt h i) :=
  inverseNtt_represents fun i hi => (barrettReduce_represents (hacc i hi)).mono (by decide)

theorem accumulate_zero_represents {f g : Polynomial} (hf : Sampled f) (hg : FromReader g) :
    ∀ i < 256, Represents 6656 (accumulate (fun _ => 0) f g i)
      (Fips203.multiplyNTTs (residuesOf g) (Fips203.ntt (residuesOf f)) i * 169) := by
  intro i hi
  have hzero : ∀ i < 256, Represents 0 ((fun _ => 0 : Polynomial) i)
      ((fun _ => 0 : Fips203.Poly) i) :=
    fun _ _ => ⟨Int.le_refl 0, Int.le_refl 0, Int.cast_zero⟩
  have h := accumulate_represents hzero hf hg (by decide) i hi
  rw [zero_add, zero_add] at h
  exact h

theorem accumulate_two_represents {f₀ f₁ g₀ g₁ : Polynomial} (hf₀ : Sampled f₀)
    (hf₁ : Sampled f₁) (hg₀ : FromReader g₀) (hg₁ : FromReader g₁) :
    ∀ i < 256, Represents (6656 + 6656) (accumulate (accumulate (fun _ => 0) f₀ g₀) f₁ g₁ i)
      ((fun n => Fips203.multiplyNTTs (residuesOf g₀) (Fips203.ntt (residuesOf f₀)) n
        + Fips203.multiplyNTTs (residuesOf g₁) (Fips203.ntt (residuesOf f₁)) n) i * 169) := by
  intro i hi
  have h := accumulate_represents (accumulate_zero_represents hf₀ hg₀) hf₁ hg₁ (by decide) i hi
  rw [← add_mul] at h
  exact h

/-- One product and the sum of two: the coefficients are those of the ring, and `inverseNtt` of
the standard takes a transform back to its polynomial. -/
theorem transform_multiplies {f₀ f₁ g₀ g₁ : Polynomial} (hf₀ : Sampled f₀) (hf₁ : Sampled f₁)
    (hg₀ : FromReader g₀) (hg₁ : FromReader g₁) :
    (∀ i < 256, ((transformedBack (accumulate (fun _ => 0) f₀ g₀) i).toInt : Fips203.Zq)
      = (Fips203.reduced (Fips203.toPolynomial (residuesOf f₀)
          * Fips203.toPolynomial (Fips203.inverseNtt (residuesOf g₀)))).coeff i)
    ∧ (∀ i < 256,
      ((transformedBack (accumulate (accumulate (fun _ => 0) f₀ g₀) f₁ g₁) i).toInt : Fips203.Zq)
        = (Fips203.reduced (Fips203.toPolynomial (residuesOf f₀)
              * Fips203.toPolynomial (Fips203.inverseNtt (residuesOf g₀))
            + Fips203.toPolynomial (residuesOf f₁)
              * Fips203.toPolynomial (Fips203.inverseNtt (residuesOf g₁)))).coeff i)
    ∧ ∀ g : Fips203.Poly, ∀ i < 256, Fips203.ntt (Fips203.inverseNtt g) i = g i := by
  refine ⟨fun i hi => ?_, fun i hi => ?_, fun g => Fips203.ntt_inverseNtt g⟩
  · have hback := transformedBack_represents (accumulate_zero_represents hf₀ hg₀) i hi
    rw [hback.value, ← Fips203.inverseNtt_multiplyNTTs, Fips203.coeff_toPolynomial _ hi]
  · have hback := transformedBack_represents (accumulate_two_represents hf₀ hf₁ hg₀ hg₁) i hi
    rw [hback.value, ← Fips203.inverseNtt_sum, Fips203.coeff_toPolynomial _ hi]

/-- A coefficient of the products of 1 and of `2 * X ^ 5` with the polynomial whose transform has
only ones. -/
theorem transform_multiplies_ones :
    ((transformedBack (accumulate (accumulate (fun _ => 0)
          (fun i => if i = 0 then 1 else 0) fun _ => 1)
          (fun i => if i = 5 then 2 else 0) fun _ => 1) 5).toInt : Fips203.Zq)
      = (Fips203.reduced (Fips203.toPolynomial (residuesOf fun i => if i = 0 then 1 else 0)
            * Fips203.toPolynomial (Fips203.inverseNtt (residuesOf fun _ => 1))
          + Fips203.toPolynomial (residuesOf fun i => if i = 5 then 2 else 0)
            * Fips203.toPolynomial (Fips203.inverseNtt (residuesOf fun _ => 1)))).coeff 5 := by
  have hentry : ∀ a : Int16, a = 0 ∨ a = 1 ∨ a = 2 → -3 ≤ a.toInt ∧ a.toInt ≤ 3 := by
    rintro a (rfl | rfl | rfl)
    · decide
    · decide
    · decide
  have hones : FromReader fun _ => 1 := by
    intro i _
    change 0 ≤ (1 : Int16).toInt ∧ (1 : Int16).toInt < 3329
    decide
  have hone : Sampled fun i => if i = 0 then 1 else 0 := by
    intro i _
    refine hentry _ ?_
    by_cases hi : i = 0
    · exact .inr (.inl (if_pos hi))
    · exact .inl (if_neg hi)
  have htwo : Sampled fun i => if i = 5 then 2 else 0 := by
    intro i _
    refine hentry _ ?_
    by_cases hi : i = 5
    · exact .inr (.inr (if_pos hi))
    · exact .inl (if_neg hi)
  exact (transform_multiplies hone htwo hones hones).2.1 5 (by decide)

end C0PQLink
