import C0PQLink.Core.MlKem512Arithmetic

/-!
# The transforms of the encapsulation

The transforms and the products of the code are those of the standard, on representatives.
A product carries the factor `2 ^ (-16)` of the last Montgomery reduction, which the inverse
transform removes.

* `loadZeta_represents`: the table holds the powers of the root of unity, times `2 ^ 16`.
* `ntt_represents`, `inverseNtt_represents`: the two transforms.
* `multiplyAdd_represents`: the product of two transforms, for any contents of the table.
-/

namespace C0PQLink

open Foundation

theorem loadZeta_represents {k : Nat} (hk : k < 128) :
    Represents 1664 (loadZeta k) (Fips203.zeta ^ Fips203.bitRev7 k * 2285) := by
  have hall : ∀ k < 128, -1664 ≤ (loadZeta k).toInt ∧ (loadZeta k).toInt ≤ 1664 ∧
      ((loadZeta k).toInt : Fips203.Zq) = Fips203.zeta ^ Fips203.bitRev7 k * 2285 := by
    decide +kernel
  obtain ⟨hlow, hhigh, hvalue⟩ := hall k hk
  exact ⟨hlow, hhigh, hvalue⟩

/-- The factors of `2 ^ 16` in the table and of its inverse in a reduction cancel. -/
theorem montgomery_cancel (x : Fips203.Zq) : x * 2285 * 169 = x := by
  have h : (2285 * 169 : Fips203.Zq) = 1 := by decide
  rw [mul_assoc, h, mul_one]

theorem fqmul_loadZeta_represents {k : Nat} (hk : k < 128) {m : Int} {a : Int16} {x : Fips203.Zq}
    (ha : Represents m a x) (hm : m ≤ 32768) :
    Represents 3328 (fqmul (loadZeta k) a) (Fips203.zeta ^ Fips203.bitRev7 k * x) := by
  have h := fqmul_represents (loadZeta_represents hk) ha (by omega)
  rw [show Fips203.zeta ^ Fips203.bitRev7 k * 2285 * x * 169
    = Fips203.zeta ^ Fips203.bitRev7 k * x * 2285 * 169 by ring, montgomery_cancel] at h
  exact h

theorem iterate_add_one (count k : Nat) : (fun k => k + 1)^[count] k = k + count := by
  induction count with
  | zero => rfl
  | succ count ih => rw [Function.iterate_succ_apply', ih, Nat.add_assoc]

theorem iterate_sub_one (count k : Nat) : (fun k => k - 1)^[count] k = k - count := by
  induction count with
  | zero => rfl
  | succ count ih => rw [Function.iterate_succ_apply', ih, Nat.sub_sub]

/-! ## The transform -/

/-- A layer adds at most one product to an entry. -/
theorem nttButterfly_represents {n : Nat} (hn : n < 7) {k : Nat} (hk : k < 128) {x y : Int16}
    {x' y' : Fips203.Zq} (hx : Represents (3 + 3328 * n) x x')
    (hy : Represents (3 + 3328 * n) y y') :
    Represents (3 + 3328 * (n + 1 : Nat)) (nttButterfly k x y).1
        (x' + Fips203.zeta ^ Fips203.bitRev7 k * y')
      ∧ Represents (3 + 3328 * (n + 1 : Nat)) (nttButterfly k x y).2
        (x' - Fips203.zeta ^ Fips203.bitRev7 k * y') := by
  have hproduct := fqmul_loadZeta_represents hk hy (by omega)
  constructor
  · exact (hx.add hproduct (by omega)).mono (by push_cast; omega)
  · exact (hx.sub hproduct (by omega)).mono (by push_cast; omega)

theorem ntt_represents {p : Polynomial} {f : Fips203.Poly}
    (hp : ∀ i < 256, Represents 3 (p i) (f i)) :
    ∀ i < 256, Represents 23299 (ntt p i) (Fips203.ntt f i) := by
  have hvalid : ∀ count < blockCount 256 [128, 64, 32, 16, 8, 4, 2],
      (fun k => k + 1)^[count] 1 < 128 := by
    intro count hcount
    rw [iterate_add_one]
    have : blockCount 256 [128, 64, 32, 16, 8, 4, 2] = 127 := by decide
    omega
  exact butterflyLayers_related (fun n a x => Represents (3 + 3328 * n) a x) (· < 128)
    nttButterfly (fun k x y => (x + Fips203.zeta ^ Fips203.bitRev7 k * y,
      x - Fips203.zeta ^ Fips203.bitRev7 k * y))
    (fun n hn k hk x y x' y' hx hy => nttButterfly_represents hn hk hx hy)
    (show Fits 256 [128, 64, 32, 16, 8, 4, 2] by decide) (show 0 + 7 ≤ 7 by decide) hvalid hp

/-! ## The inverse transform -/

/-- The entries keep the factor `2 ^ (-16)` through all layers. -/
theorem inverseNttButterfly_represents {k : Nat} (hk : k < 128) {x y : Int16}
    {x' y' : Fips203.Zq} (hx : Represents 3328 x (x' * 169)) (hy : Represents 3328 y (y' * 169)) :
    Represents 3328 (inverseNttButterfly k x y).1 ((x' + y') * 169)
      ∧ Represents 3328 (inverseNttButterfly k x y).2
        (Fips203.zeta ^ Fips203.bitRev7 k * (y' - x') * 169) := by
  have hsum := barrettReduce_represents (hx.add hy (by omega))
  have hproduct := fqmul_loadZeta_represents hk (hy.sub hx (by omega)) (by omega)
  rw [← add_mul] at hsum
  rw [← sub_mul, ← mul_assoc] at hproduct
  exact ⟨hsum.mono (by omega), hproduct⟩

theorem inverseNtt_represents {p : Polynomial} {f : Fips203.Poly}
    (hp : ∀ i < 256, Represents 3328 (p i) (f i * 169)) :
    ∀ i < 256, Represents 3328 (inverseNtt p i) (Fips203.inverseNtt f i) := by
  have hvalid : ∀ count < blockCount 256 [2, 4, 8, 16, 32, 64, 128],
      (fun k => k - 1)^[count] 127 < 128 := by
    intro count _
    rw [iterate_sub_one]
    omega
  have hlayers := butterflyLayers_related (fun _ a x => Represents 3328 a (x * 169)) (· < 128)
    inverseNttButterfly
    (fun k x y => (x + y, Fips203.zeta ^ Fips203.bitRev7 k * (y - x)))
    (fun n _ k hk x y x' y' hx hy => inverseNttButterfly_represents hk hx hy)
    (show Fits 256 [2, 4, 8, 16, 32, 64, 128] by decide) (show 0 + 7 ≤ 7 by decide) hvalid hp
  intro i hi
  have hscale : Represents 1441 1441 (1441 : Fips203.Zq) := ⟨by decide, by decide, rfl⟩
  have h := fqmul_represents (hlayers i hi) hscale (by omega)
  have hfactor : (169 * 1441 * 169 : Fips203.Zq) = 3303 := by decide
  rw [mul_assoc, mul_assoc, ← mul_assoc 169, hfactor] at h
  exact h

/-! ## Products of transforms -/

/-- The product of two transforms with a table of factors, one for each pair of
coefficients. -/
def productWith (table : Nat → Fips203.Zq) (f g : Fips203.Poly) : Fips203.Poly := fun i =>
  if i % 2 = 0 then f i * g i + f (i + 1) * g (i + 1) * table (i / 2)
  else f (i - 1) * g i + f i * g (i - 1)

/-- The factors of the standard. -/
def gammas (n : Nat) : Fips203.Zq := Fips203.zeta ^ (2 * Fips203.bitRev7 n + 1)

theorem productWith_gammas (f g : Fips203.Poly) :
    productWith gammas f g = Fips203.multiplyNTTs f g := rfl

/-- What the words that a loop reads contribute to the products, as factors of each pair. -/
def factors (readZeta : Nat → Int16) (n : Nat) : Fips203.Zq :=
  let word := readZeta (64 + n / 2)
  if n % 2 = 0 then (word.toInt : Fips203.Zq) * 169 else ((-word).toInt : Fips203.Zq) * 169

theorem factors_loadZeta {n : Nat} (hn : n < 128) : factors loadZeta n = gammas n := by
  have hall : ∀ n < 128, factors loadZeta n = gammas n := by decide +kernel
  exact hall n hn

section

variable {m : Int} {c0 c1 a0 a1 b0 b1 : Int16} {s t x0 x1 y0 y1 : Fips203.Zq}

theorem baseMultiplyAdd_represents (hfirst : Represents m c0 s) (hsecond : Represents m c1 t)
    (ha0 : Represents 3328 a0 x0)
    (ha1 : Represents 3328 a1 x1) (hb0 : Represents 23299 b0 y0) (hb1 : Represents 23299 b1 y1)
    (zeta : Int16) (hfits : m + 6656 ≤ 32767) :
    let result := baseMultiplyAdd (c0, c1) a0 a1 b0 b1 zeta
    Represents (m + 6656) result.1 (s + (x0 * y0 + x1 * y1 * (zeta.toInt * 169)) * 169)
      ∧ Represents (m + 6656) result.2 (t + (x0 * y1 + x1 * y0) * 169) := by
  have h00 := fqmul_represents ha0 hb0 (by omega)
  have h01 := fqmul_represents ha0 hb1 (by omega)
  have h10 := fqmul_represents ha1 hb0 (by omega)
  have h11 := fqmul_represents ha1 hb1 (by omega)
  have hzeta := fqmul_represents h11 (represents_self zeta) (by omega)
  have hlow := hfirst.add (hzeta.add h00 (by omega)) (by omega)
  have hhigh := (hsecond.add h01 (by omega)).add h10 (by omega)
  constructor
  · rw [show s + (x0 * y0 + x1 * y1 * (zeta.toInt * 169)) * 169
      = s + (x1 * y1 * 169 * zeta.toInt * 169 + x0 * y0 * 169) by ring]
    exact hlow
  · rw [show t + (x0 * y1 + x1 * y0) * 169 = t + x0 * y1 * 169 + x1 * y0 * 169 by ring,
      show m + 6656 = m + 3328 + 3328 by ring]
    exact hhigh

end

/-- The product of a transform with coefficients below the modulus, whatever the loop reads. -/
theorem multiplyAdd_represents {m : Int} {readZeta : Nat → Int16} {table : Nat → Fips203.Zq}
    (htable : ∀ n < 128, factors readZeta n = table n) {accumulator a vector : Polynomial}
    {h f g : Fips203.Poly}
    (hacc : ∀ i < 256, Represents m (accumulator i) (h i))
    (ha : ∀ i < 256, Represents 3328 (a i) (f i))
    (hvector : ∀ i < 256, Represents 23299 (vector i) (g i)) (hfits : m + 6656 ≤ 32767) :
    ∀ i < 256, Represents (m + 6656) (multiplyAdd readZeta accumulator a vector i)
      (h i + productWith table f g i * 169) := by
  intro i hi
  have hpair (base : Nat) (hbase : base + 1 < 256) (zeta : Int16) :=
    baseMultiplyAdd_represents (hacc base (by omega)) (hacc (base + 1) hbase) (ha base (by omega))
      (ha (base + 1) hbase) (hvector base (by omega)) (hvector (base + 1) hbase) zeta hfits
  obtain ⟨block, hblock⟩ : ∃ block, i / 4 = block := ⟨_, rfl⟩
  have hcases : i = 4 * block ∨ i = 4 * block + 1 ∨ i = 4 * block + 2 ∨ i = 4 * block + 3 := by
    omega
  have hlow := hpair (4 * block) (by omega) (readZeta (64 + block))
  have hhigh := hpair (4 * block + 2) (by omega) (-readZeta (64 + block))
  have hfirst : table (2 * block) = (readZeta (64 + block)).toInt * 169 := by
    rw [← htable _ (by omega)]
    simp only [factors]
    rw [if_pos (by omega), show 2 * block / 2 = block by omega]
  have hsecond : table (2 * block + 1) = (-readZeta (64 + block)).toInt * 169 := by
    rw [← htable _ (by omega)]
    simp only [factors]
    rw [if_neg (by omega), show (2 * block + 1) / 2 = block by omega]
  rw [← hfirst] at hlow
  rw [← hsecond] at hhigh
  simp only [multiplyAdd, productWith, hblock]
  rcases hcases with rfl | rfl | rfl | rfl
  · rw [if_pos (by omega), show 4 * block / 2 = 2 * block by omega,
      show 4 * block % 4 = 0 by omega]
    exact hlow.1
  · rw [if_neg (by omega), show (4 * block + 1) % 4 = 1 by omega, Nat.add_sub_cancel]
    exact hlow.2
  · rw [if_pos (by omega), show (4 * block + 2) / 2 = 2 * block + 1 by omega,
      show (4 * block + 2) % 4 = 2 by omega]
    exact hhigh.1
  · rw [if_neg (by omega), show (4 * block + 3) % 4 = 3 by omega,
      show 4 * block + 3 - 1 = 4 * block + 2 by omega]
    exact hhigh.2

end C0PQLink
