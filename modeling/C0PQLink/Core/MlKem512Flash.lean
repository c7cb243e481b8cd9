import Mathlib.Data.ZMod.ValMinAbs
import C0PQLink.Core.MlKem512Correctness
import C0PQLink.Fips203.Injective

/-!
# The table in program memory

On an AVR the table `zetas` lives in program memory. The loop of `matrix_product_add` reads
it with a plain expression, which yields what the data memory holds at that address, and all
other loops read it through `load_zeta`.

* `FlashIndependent`: the output is the one of a build with a single address space.
* `flashIndependent_iff`: this holds of a key and randomness exactly when the key is
  rejected or every factor that is read in the wrong memory is multiplied by zero.
-/

namespace C0PQLink

open Foundation

section

variable (hashes : Fips203.Hashes) (ek : Block 800) (randomness : Block 32)

/-- Whatever the data memory holds in place of the table, the status, the shared secret and
the bytes of the ciphertext are those of the build in which it holds the table. -/
def FlashIndependent : Prop :=
  ∀ zetaData : Nat → Int16,
    (encapsulation hashes zetaData ek randomness).1
        = (encapsulation hashes loadZeta ek randomness).1
      ∧ (encapsulation hashes zetaData ek randomness).2.flatten
        = (encapsulation hashes loadZeta ek randomness).2.flatten

/-- What the factor of the pair `n` is multiplied by in a row: the products of the odd
coefficients, summed over the columns. -/
def oddProduct (r : Block 32) (row n : Nat) : Fips203.Zq :=
  Fips203.matrixEntry hashes ek 0 row (2 * n + 1) * Fips203.ephemeral hashes r 0 (2 * n + 1)
    + Fips203.matrixEntry hashes ek 1 row (2 * n + 1) * Fips203.ephemeral hashes r 1 (2 * n + 1)

/-- The sum of the two products of a row. -/
def rowProduct (r : Block 32) (table : Nat → Fips203.Zq) (row : Nat) : Fips203.Poly := fun n =>
  productWith table (Fips203.matrixEntry hashes ek 0 row) (Fips203.ephemeral hashes r 0) n
    + productWith table (Fips203.matrixEntry hashes ek 1 row) (Fips203.ephemeral hashes r 1) n

theorem rowWith_eq (r : Block 32) (table : Nat → Fips203.Zq) (row n : Nat) :
    rowWith hashes ek r table row n
      = Fips203.inverseNtt (rowProduct hashes ek r table row) n
        + Fips203.noise hashes r 2 (2 + row) n := rfl

/-- A factor occurs in one entry of the product. -/
theorem rowProduct_table (r : Block 32) (table table' : Nat → Fips203.Zq) (row i : Nat) :
    rowProduct hashes ek r table' row i = rowProduct hashes ek r table row i
      + if i % 2 = 0 then oddProduct hashes ek r row (i / 2) * (table' (i / 2) - table (i / 2))
        else 0 := by
  by_cases heven : i % 2 = 0
  · have hodd : 2 * (i / 2) + 1 = i + 1 := by omega
    simp only [rowProduct, productWith, oddProduct, if_pos heven, hodd]
    ring
  · simp only [rowProduct, productWith, if_neg heven, add_zero]

/-! ## Enough for the output to be the same -/

theorem rowWith_of_oddProduct {r : Block 32} {row : Nat}
    (hodd : ∀ n < 128, oddProduct hashes ek r row n = 0) (table table' : Nat → Fips203.Zq) :
    ∀ i < 256, rowWith hashes ek r table' row i = rowWith hashes ek r table row i := by
  intro i hi
  have hproduct : ∀ i < 256,
      rowProduct hashes ek r table' row i = rowProduct hashes ek r table row i := by
    intro i hi
    rw [rowProduct_table hashes ek r table table']
    split
    · rw [hodd (i / 2) (by omega), zero_mul, add_zero]
    · rw [add_zero]
  rw [rowWith_eq, rowWith_eq, Fips203.inverseNtt_congr hproduct i hi]

theorem byteEncode_congr {d : Nat} {f g : Nat → Nat} (h : ∀ i < 256, f i = g i) :
    Fips203.byteEncode d f = Fips203.byteEncode d g := by
  apply List.map_congr_left
  intro k hk
  congr 1
  apply Finset.sum_congr rfl
  intro t ht
  rw [List.mem_range] at hk
  rw [Finset.mem_range] at ht
  have hposition : (8 * k + t) / d < 256 := by
    apply Nat.div_lt_of_lt_mul
    omega
  rw [h _ hposition]

theorem rowBytes_of_oddProduct {row : Nat}
    (hodd : ∀ n < 128, oddProduct hashes ek (secretAndCoins hashes ek randomness).2 row n = 0)
    (table table' : Nat → Fips203.Zq) :
    rowBytes hashes ek randomness table' row = rowBytes hashes ek randomness table row :=
  byteEncode_congr fun i hi => by
    rw [rowWith_of_oddProduct hashes ek hodd table table' i hi]

theorem flashIndependent_of_rejected (hcanonical : ¬ Fips203.Canonical ek) :
    FlashIndependent hashes ek randomness := by
  intro zetaData
  rw [encapsulation_rejected hashes ek randomness zetaData hcanonical,
    encapsulation_rejected hashes ek randomness loadZeta hcanonical]
  exact ⟨rfl, rfl⟩

theorem flashIndependent_of_oddProduct
    (hodd : ∀ row < 2, ∀ n < 128,
      oddProduct hashes ek (secretAndCoins hashes ek randomness).2 row n = 0) :
    FlashIndependent hashes ek randomness := by
  by_cases hcanonical : Fips203.Canonical ek
  · intro zetaData
    rw [encapsulation_canonical hashes ek randomness zetaData hcanonical,
      encapsulation_canonical hashes ek randomness loadZeta hcanonical]
    refine ⟨rfl, ?_⟩
    dsimp only
    rw [chunksWith_flatten hashes ek randomness (fun _ _ => rfl) hcanonical,
      chunksWith_flatten hashes ek randomness (fun _ _ => rfl) hcanonical,
      rowBytes_of_oddProduct hashes ek randomness (hodd 0 (by decide)) (factors loadZeta),
      rowBytes_of_oddProduct hashes ek randomness (hodd 1 (by decide)) (factors loadZeta)]
  · exact flashIndependent_of_rejected hashes ek randomness hcanonical

/-! ## Needed for the output to be the same -/

/-- The factors when the two pairs of a block get the residue `z` and its opposite. -/
def lineTable (block : Nat) (z : Fips203.Zq) (n : Nat) : Fips203.Zq :=
  if n = 2 * block then z * (169 : Nat) else if n = 2 * block + 1 then -(z * (169 : Nat))
  else gammas n

/-- Data memory that holds the table except for one word. -/
def lineData (block : Nat) (z : Fips203.Zq) : Nat → Int16 :=
  Function.update loadZeta (64 + block) (Int16.ofInt z.valMinAbs)

theorem represents_valMinAbs (z : Fips203.Zq) : Represents 1664 (Int16.ofInt z.valMinAbs) z := by
  have hbound := ZMod.natAbs_valMinAbs_le z
  have hvalue : (Int16.ofInt z.valMinAbs).toInt = z.valMinAbs :=
    Int16.toInt_ofInt_of_le (by omega) (by omega)
  refine ⟨by omega, by omega, ?_⟩
  rw [hvalue, ZMod.coe_valMinAbs]

theorem factors_lineData (block : Nat) (z : Fips203.Zq) :
    ∀ n < 128, factors (lineData block z) n = lineTable block z n := by
  intro n hn
  have hword := represents_valMinAbs z
  by_cases hblock : n / 2 = block
  · have hread : lineData block z (64 + n / 2) = Int16.ofInt z.valMinAbs := by
      rw [hblock, lineData, Function.update_self]
    simp only [factors, hread, lineTable]
    by_cases heven : n % 2 = 0
    · rw [if_pos heven, if_pos (by omega), hword.value, Nat.cast_ofNat]
    · rw [if_neg heven, if_neg (by omega), if_pos (by omega), (hword.neg (by decide)).value,
        neg_mul, Nat.cast_ofNat]
  · have hread : lineData block z (64 + n / 2) = loadZeta (64 + n / 2) :=
      Function.update_of_ne (by omega) _ _
    have hsame : factors (lineData block z) n = factors loadZeta n := by
      simp only [factors, hread]
    rw [hsame, factors_loadZeta hn, lineTable, if_neg (by omega), if_neg (by omega)]

/-- The table moves on a line. -/
theorem lineTable_affine (block : Nat) (z : Fips203.Zq) (n : Nat) :
    lineTable block z n
      = lineTable block 0 n + z * (lineTable block 1 n - lineTable block 0 n) := by
  simp only [lineTable]
  split
  · ring
  · split
    · ring
    · ring

theorem rowProduct_affine (r : Block 32) (block : Nat) (z : Fips203.Zq) (row i : Nat) :
    rowProduct hashes ek r (lineTable block z) row i
      = rowProduct hashes ek r (lineTable block 0) row i
        + z * (rowProduct hashes ek r (lineTable block 1) row i
          - rowProduct hashes ek r (lineTable block 0) row i) := by
  rw [rowProduct_table hashes ek r (lineTable block 0) (lineTable block z),
    rowProduct_table hashes ek r (lineTable block 0) (lineTable block 1)]
  split
  · rw [lineTable_affine block z]
    ring
  · ring

theorem compress10_zero : Fips203.compress 10 0 = 0 := by
  rw [compress_eq]
  rfl

theorem compress10_half : Fips203.compress 10 1664 = 512 := by
  rw [compress_eq]
  rfl

/-- A coefficient that does not change its compression on a line does not move at all. -/
theorem line_constant (base direction : Fips203.Zq)
    (h : ∀ z, Fips203.compress 10 (base + z * direction) = Fips203.compress 10 base) :
    direction = 0 := by
  have := Fact.mk Fips203.prime_q
  by_contra hdirection
  have hreach (x : Fips203.Zq) : base + (x - base) / direction * direction = x := by
    rw [div_mul_cancel₀ _ hdirection]
    ring
  have hzero := h ((0 - base) / direction)
  have hhalf := h ((1664 - base) / direction)
  rw [hreach, compress10_zero] at hzero
  rw [hreach, compress10_half, ← hzero] at hhalf
  exact absurd hhalf (by decide)

/-- The bytes of a row that stay the same on a line have a product that does. -/
theorem rowProduct_of_rowBytes {row block : Nat}
    (h : ∀ z, rowBytes hashes ek randomness (lineTable block z) row
      = rowBytes hashes ek randomness (lineTable block 0) row) :
    ∀ i < 256, rowProduct hashes ek (secretAndCoins hashes ek randomness).2 (lineTable block 1) row i
      = rowProduct hashes ek (secretAndCoins hashes ek randomness).2 (lineTable block 0) row i := by
  generalize hcoins : (secretAndCoins hashes ek randomness).2 = r
  obtain ⟨base, direction, hline⟩ := Fips203.inverseNtt_affine
    (rowProduct hashes ek r (lineTable block 0) row)
    (fun i => rowProduct hashes ek r (lineTable block 1) row i
      - rowProduct hashes ek r (lineTable block 0) row i)
  have hmoves (z : Fips203.Zq) : ∀ i < 256,
      Fips203.inverseNtt (rowProduct hashes ek r (lineTable block z) row) i
        = base i + z * direction i :=
    hline z _ fun i _ => rowProduct_affine hashes ek r block z row i
  have hdirection : ∀ i < 256, direction i = 0 := by
    intro i hi
    apply line_constant (base i + Fips203.noise hashes r 2 (2 + row) i)
    intro z
    have hz := Fips203.byteEncode_injective (by decide) (fun n => compress_lt 10 _)
      (fun n => compress_lt 10 _) (h z) i hi
    rw [hcoins, rowWith_eq, rowWith_eq, hmoves z i hi, hmoves 0 i hi, zero_mul, add_zero,
      add_right_comm] at hz
    exact hz
  apply Fips203.inverseNtt_injective
  intro i hi
  rw [hmoves 1 i hi, hmoves 0 i hi, hdirection i hi, mul_zero, mul_zero]

theorem rowBytes_of_flashIndependent (hcanonical : Fips203.Canonical ek)
    (h : FlashIndependent hashes ek randomness) {row : Nat} (hrow : row < 2) (block : Nat)
    (z : Fips203.Zq) :
    rowBytes hashes ek randomness (lineTable block z) row
      = rowBytes hashes ek randomness gammas row := by
  have hbytes := (h (lineData block z)).2
  rw [encapsulation_canonical hashes ek randomness _ hcanonical,
    encapsulation_canonical hashes ek randomness _ hcanonical] at hbytes
  dsimp only at hbytes
  rw [chunksWith_flatten hashes ek randomness (factors_lineData block z) hcanonical,
    chunksWith_flatten hashes ek randomness (fun _ hn => factors_loadZeta hn) hcanonical]
    at hbytes
  have hlength (table : Nat → Fips203.Zq) (row : Nat) :
      (rowBytes hashes ek randomness table row).length = 320 := Fips203.length_byteEncode 10 _
  have hrows := List.append_inj_left' hbytes rfl
  obtain ⟨hfirst, hsecond⟩ := List.append_inj hrows (by rw [hlength, hlength])
  have hcases : row = 0 ∨ row = 1 := by omega
  rcases hcases with rfl | rfl
  · exact hfirst
  · exact hsecond

theorem oddProduct_of_flashIndependent (hcanonical : Fips203.Canonical ek)
    (h : FlashIndependent hashes ek randomness) {row : Nat} (hrow : row < 2) {n : Nat}
    (hn : n < 128) :
    oddProduct hashes ek (secretAndCoins hashes ek randomness).2 row n = 0 := by
  have hconstant (z : Fips203.Zq) :
      rowBytes hashes ek randomness (lineTable (n / 2) z) row
        = rowBytes hashes ek randomness (lineTable (n / 2) 0) row := by
    rw [rowBytes_of_flashIndependent hashes ek randomness hcanonical h hrow (n / 2) z,
      rowBytes_of_flashIndependent hashes ek randomness hcanonical h hrow (n / 2) 0]
  have hproduct := rowProduct_of_rowBytes hashes ek randomness hconstant (2 * n) (by omega)
  rw [rowProduct_table hashes ek _ (lineTable (n / 2) 0) (lineTable (n / 2) 1),
    if_pos (by omega), show 2 * n / 2 = n by omega, add_eq_left] at hproduct
  have hfactor : lineTable (n / 2) 1 n - lineTable (n / 2) 0 n ≠ 0 := by
    simp only [lineTable]
    by_cases heven : n = 2 * (n / 2)
    · rw [if_pos heven, if_pos heven]
      decide
    · rw [if_neg heven, if_neg heven, if_pos (by omega), if_pos (by omega)]
      decide
  have := Fact.mk Fips203.prime_q
  exact (mul_eq_zero.mp hproduct).resolve_right hfactor

/-- The build for an AVR agrees with the one for a single address space exactly when the key
is rejected or every factor that it reads in the wrong memory is multiplied by zero. -/
theorem flashIndependent_iff : FlashIndependent hashes ek randomness ↔
    ¬ Fips203.Canonical ek ∨ ∀ row < 2, ∀ n < 128,
      oddProduct hashes ek (secretAndCoins hashes ek randomness).2 row n = 0 := by
  constructor
  · intro h
    by_cases hcanonical : Fips203.Canonical ek
    · exact Or.inr fun row hrow n hn =>
        oddProduct_of_flashIndependent hashes ek randomness hcanonical h hrow hn
    · exact Or.inl hcanonical
  · rintro (hrejected | hodd)
    · exact flashIndependent_of_rejected hashes ek randomness hrejected
    · exact flashIndependent_of_oddProduct hashes ek randomness hodd

end

/-! ## A key for which it differs -/

/-- The lengths of the layers of the transform, from `2 ^ k` on. -/
def halvings : Nat → List Nat
  | 0 => []
  | k + 1 => 2 ^ (k + 1) :: halvings k

def nttButterflyStep (k : Nat) (x y : Fips203.Zq) : Fips203.Zq × Fips203.Zq :=
  (x + Fips203.zeta ^ Fips203.bitRev7 k * y, x - Fips203.zeta ^ Fips203.bitRev7 k * y)

/-- The entry 1 stays as it is when all other entries of its block are zero. -/
theorem halvings_one {k : Nat} (hfits : Fits 256 (halvings k)) {p : Fips203.Poly}
    {parameter : Nat} (hp : ∀ i < 2 ^ (k + 1), i ≠ 1 → p i = 0) :
    (butterflyLayers nttButterflyStep (· + 1) 256 (halvings k) (p, parameter)).1 1 = p 1 := by
  induction k generalizing p parameter with
  | zero => rfl
  | succ k ih =>
    obtain ⟨hlength, hsize⟩ := hfits (2 ^ (k + 1)) (List.mem_cons_self ..)
    have hpow : 2 ≤ 2 ^ (k + 1) := Nat.pow_le_pow_right (show 0 < 2 by decide) (Nat.le_add_left 1 k)
    have htwice : 2 ^ (k + 1 + 1) = 2 * 2 ^ (k + 1) := Nat.pow_succ' ..
    have hbelow : 2 * 2 ^ (k + 1) ≤ 256 := by
      by_contra hlarge
      rw [Nat.div_eq_of_lt (by omega)] at hsize
      omega
    have hentry (i : Nat) (hi : i < 2 ^ (k + 1)) :
        (butterflyLayer nttButterflyStep (· + 1) 256 (2 ^ (k + 1)) (p, parameter)).1 i = p i := by
      rw [butterflyLayer_apply _ _ hlength hsize, if_pos (by omega), layerEntry,
        Nat.mod_eq_of_lt (by omega), if_pos hi]
      simp only [nttButterflyStep]
      rw [hp (i + 2 ^ (k + 1)) (by omega) (by omega), mul_zero, add_zero]
    rw [halvings, butterflyLayers_cons, ih (fun l hl => hfits l (List.mem_cons_of_mem _ hl)),
      hentry 1 (by omega)]
    intro i hi hne
    rw [hentry i hi]
    exact hp i (by omega) hne

theorem ntt_one {f : Fips203.Poly} (hf : ∀ i < 256, i ≠ 1 → f i = 0) :
    Fips203.ntt f 1 = f 1 :=
  halvings_one (show Fits 256 (halvings 7) by decide) hf

/-- A stream in which the sampled polynomial is three times the variable. -/
def demoNoise (k : Nat) : UInt8 := if k = 0 then 192 else if k = 1 then 1 else 0

theorem candidate_ones (k : Nat) :
    Fips203.candidate (fun _ => 1) k = if k % 2 = 0 then 257 else 16 := by
  simp [Fips203.candidate]

theorem candidate_ones_lt (k : Nat) : Fips203.candidate (fun _ => 1) k < 3329 := by
  rw [candidate_ones]
  split <;> decide

theorem ones_finish (_ : Bytes) (k : Nat) : ∃ n, Fips203.candidate (fun _ => 1) (k + n) < 3329 :=
  ⟨0, candidate_ones_lt _⟩

/-- Stand-ins for the hash functions. The matrix is sampled from a stream of ones, and the
noise with the first nonce is `demoNoise`. -/
def demoHashes : Fips203.Hashes where
  hashH _ := Block.zero 32
  hashG _ := Block.zero 64
  prf input := if input.getLast? = some 0 then demoNoise else fun _ => 0
  xof _ _ := 1
  finishes := ones_finish

theorem demo_accepted (seed : Bytes) (j : Nat) : demoHashes.accepted seed j = j := by
  have hfind (k : Nat) : Nat.find (demoHashes.finishes seed k) = 0 :=
    (Nat.find_eq_zero _).mpr (candidate_ones_lt _)
  induction j with
  | zero => exact hfind 0
  | succ j ih => rw [Fips203.Hashes.accepted, hfind, ih]

theorem demo_matrixEntry (ek : Block 800) (i j : Nat) :
    Fips203.matrixEntry demoHashes ek i j 1 = 16 := by
  have hstream (seed : Bytes) : demoHashes.xof seed = fun _ => 1 := rfl
  rw [Fips203.matrixEntry, Fips203.Hashes.sampleNTT, demo_accepted, hstream, candidate_ones]
  rfl

theorem demo_ephemeral (r : Block 32) :
    Fips203.ephemeral demoHashes r 0 1 = 3 ∧ Fips203.ephemeral demoHashes r 1 1 = 0 := by
  have hstream : demoHashes.prf (r.val ++ [UInt8.ofNat 0]) = demoNoise := by
    simp [demoHashes]
  have hsilence : demoHashes.prf (r.val ++ [UInt8.ofNat 1]) = fun _ => 0 := by
    simp [demoHashes]
  have hzero : ∀ i < 256, i ≠ 1 → Fips203.samplePolyCBD 3 demoNoise i = 0 := by decide +kernel
  have hnothing : ∀ i < 256, Fips203.samplePolyCBD 3 (fun _ => 0) i = 0 := by decide +kernel
  constructor
  · rw [Fips203.ephemeral, Fips203.noise, hstream, ntt_one hzero]
    decide
  · rw [Fips203.ephemeral, Fips203.noise, hsilence, ntt_one fun i hi _ => hnothing i hi]
    exact hnothing 1 (by decide)

theorem demo_canonical : Fips203.Canonical (Block.zero 800) := by
  have hbyte (k : Nat) : byteAt (Block.zero 800).val k = 0 := by
    simp only [byteAt, Block.zero, List.getD_eq_getElem?_getD, List.getElem?_replicate]
    split <;> rfl
  intro i _ n _
  simp only [byteDecode_candidate, hbyte]
  rw [Fips203.candidate]
  split <;> decide

/-- The output for a key and randomness of zeros depends on the data memory. -/
theorem demo_flashDependent :
    ¬ FlashIndependent demoHashes (Block.zero 800) (Block.zero 32) := by
  intro h
  have hodd := oddProduct_of_flashIndependent demoHashes (Block.zero 800) (Block.zero 32)
    demo_canonical h (show 0 < 2 by decide) (show 0 < 128 by decide)
  obtain ⟨hfirst, hsecond⟩ := demo_ephemeral
    (secretAndCoins demoHashes (Block.zero 800) (Block.zero 32)).2
  rw [oddProduct, Nat.mul_zero, Nat.zero_add, hfirst, hsecond, demo_matrixEntry] at hodd
  exact absurd hodd (by decide)

end C0PQLink
