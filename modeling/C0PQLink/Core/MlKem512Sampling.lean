import C0PQLink.Core.MlKem512Arithmetic
import Mathlib.Tactic.IntervalCases

/-!
# Sampling and decoding in the encapsulation

The three ways in which the code gets coefficients from bytes. The centered binomial
distribution with parameter 3 counts the bits of 24-bit words with masks, in the octal
digits of a sum.

* `octalSums_digit`: the digits of that sum.
* `sampleCbd_represents`: Algorithm 8 of the standard.
* `sampleNttValues_represents`: Algorithm 7, for a reader that goes on where it stopped.
* `keyCoefficients_represents`: Algorithm 6, for coefficients below the modulus.
-/

namespace C0PQLink

open Foundation

/-! ## Octal digits -/

/-- The number whose `n` octal digits are all one. -/
def octalMask : Nat → Nat
  | 0 => 0
  | n + 1 => 8 * octalMask n + 1

/-- The sum of the masked word and of its two shifts. -/
def octalSums (n word : Nat) : Nat :=
  (word &&& octalMask n) + (word / 2 &&& octalMask n) + (word / 4 &&& octalMask n)

theorem and_octalMask_succ (n word : Nat) :
    word &&& octalMask (n + 1) = 8 * (word / 8 &&& octalMask n) + word % 2 := by
  have hmask : octalMask (n + 1) / 8 = octalMask n := by
    rw [octalMask]
    omega
  have hdiv : (word &&& octalMask (n + 1)) / 8 = word / 8 &&& octalMask n := by
    rw [← hmask, show (8 : Nat) = 2 ^ 3 from rfl, ← Nat.shiftRight_eq_div_pow,
      Nat.shiftRight_and_distrib, Nat.shiftRight_eq_div_pow, Nat.shiftRight_eq_div_pow]
  have hmod : (word &&& octalMask (n + 1)) % 8 = word % 2 := by
    rw [show (8 : Nat) = 2 ^ 3 from rfl, Nat.and_mod_two_pow, octalMask,
      show (8 * octalMask n + 1) % 2 ^ 3 = 2 ^ 1 - 1 by omega, Nat.and_two_pow_sub_one_eq_mod]
    omega
  omega

theorem octalSums_succ (n word : Nat) :
    octalSums (n + 1) word
      = 8 * octalSums n (word / 8) + (word % 2 + word / 2 % 2 + word / 4 % 2) := by
  simp only [octalSums, and_octalMask_succ]
  rw [show word / 2 / 8 = word / 8 / 2 by omega, show word / 4 / 8 = word / 8 / 4 by omega]
  omega

/-- No digit carries into the next one. -/
theorem octalSums_digit {n digit : Nat} (hdigit : digit < n) (word : Nat) :
    octalSums n word / 8 ^ digit % 8
      = word / 2 ^ (3 * digit) % 2 + word / 2 ^ (3 * digit + 1) % 2
        + word / 2 ^ (3 * digit + 2) % 2 := by
  induction n generalizing digit word with
  | zero => omega
  | succ n ih =>
    rw [octalSums_succ]
    cases digit with
    | zero =>
      simp only [Nat.pow_zero, Nat.mul_zero, Nat.zero_add, Nat.div_one, Nat.pow_one,
        Nat.reducePow]
      omega
    | succ digit =>
      have hshift (k : Nat) : word / 2 ^ (3 * (digit + 1) + k) = word / 8 / 2 ^ (3 * digit + k) := by
        rw [show 3 * (digit + 1) + k = 3 + (3 * digit + k) by ring, Nat.pow_add,
          ← Nat.div_div_eq_div_mul]
      have hrest := ih (show digit < n by omega) (word / 8)
      have hzero := hshift 0
      simp only [Nat.add_zero] at hzero
      rw [hzero, hshift 1, hshift 2, ← hrest, Nat.pow_succ', ← Nat.div_div_eq_div_mul]
      congr 2
      omega

/-! ## The centered binomial distribution -/

/-- The bits of a string from a byte on. -/
theorem bitOf_shift (stream : Nat → UInt8) (start n : Nat) :
    Fips203.bitOf stream (8 * start + n) = Fips203.bitOf (fun k => stream (start + k)) n := by
  rw [Fips203.bitOf, Fips203.bitOf, show (8 * start + n) / 8 = start + n / 8 by omega,
    show (8 * start + n) % 8 = n % 8 by omega]

theorem represents_difference {a b : Nat} {m : Int} (ha : a ≤ m) (hb : b ≤ m) (hm : m ≤ 100) :
    Represents m (Int16.ofNat a - Int16.ofNat b) ((a : Fips203.Zq) - b) := by
  have hvalue : (Int16.ofNat a - Int16.ofNat b).toInt = (a : Int) - b := by
    rw [Int16.toInt_sub, Int16.toInt_ofNat_of_lt (by omega), Int16.toInt_ofNat_of_lt (by omega),
      Int.bmod_eq_of_le (by omega) (by omega)]
  refine ⟨by omega, by omega, ?_⟩
  rw [hvalue]
  push_cast
  rfl

theorem popcount2_nibble {half : Nat} (hhalf : half < 2) (byte : UInt8) :
    (popcount2 (byte >>> UInt8.ofNat (4 * half))).toNat
        = byte.toNat / 2 ^ (4 * half) % 2 + byte.toNat / 2 ^ (4 * half + 1) % 2
      ∧ (popcount2 ((byte >>> UInt8.ofNat (4 * half)) >>> 2)).toNat
        = byte.toNat / 2 ^ (4 * half + 2) % 2 + byte.toNat / 2 ^ (4 * half + 3) % 2 := by
  have hall : ∀ b < 256, ∀ half < 2,
      (popcount2 (UInt8.ofNat b >>> UInt8.ofNat (4 * half))).toNat
          = b / 2 ^ (4 * half) % 2 + b / 2 ^ (4 * half + 1) % 2
        ∧ (popcount2 ((UInt8.ofNat b >>> UInt8.ofNat (4 * half)) >>> 2)).toNat
          = b / 2 ^ (4 * half + 2) % 2 + b / 2 ^ (4 * half + 3) % 2 := by
    decide +kernel
  have h := hall byte.toNat byte.toNat_lt half hhalf
  rwa [UInt8.ofNat_toNat] at h

theorem sampleCbd2_represents (stream : Nat → UInt8) (i : Nat) :
    Represents 2 (sampleCbd2 stream i) (Fips203.samplePolyCBD 2 stream i) := by
  obtain ⟨hlow, hhigh⟩ := popcount2_nibble (show i % 2 < 2 by omega) (stream (i / 2))
  have hbit (j : Nat) (hj : j < 4) : Fips203.bitOf stream (2 * i * 2 + j)
      = (stream (i / 2)).toNat / 2 ^ (4 * (i % 2) + j) % 2 := by
    rw [Fips203.bitOf, show (2 * i * 2 + j) / 8 = i / 2 by omega,
      show (2 * i * 2 + j) % 8 = 4 * (i % 2) + j by omega]
  have hfirst : ∑ j ∈ Finset.range 2, Fips203.bitOf stream (2 * i * 2 + j)
      = (popcount2 (stream (i / 2) >>> UInt8.ofNat (4 * (i % 2)))).toNat := by
    rw [hlow, Finset.sum_range_succ, Finset.sum_range_one, hbit 0 (by omega), hbit 1 (by omega)]
    rfl
  have hsecond : ∑ j ∈ Finset.range 2, Fips203.bitOf stream (2 * i * 2 + 2 + j)
      = (popcount2 ((stream (i / 2) >>> UInt8.ofNat (4 * (i % 2))) >>> 2)).toNat := by
    simp only [Nat.add_assoc (2 * i * 2) 2]
    rw [hhigh, Finset.sum_range_succ, Finset.sum_range_one, hbit 2 (by omega), hbit 3 (by omega)]
  rw [Fips203.samplePolyCBD, hfirst, hsecond]
  exact represents_difference (by omega) (by omega) (by omega)

/-- The word of three bytes. -/
def cbdWord (b0 b1 b2 : UInt8) : UInt32 :=
  b0.toUInt32 ||| (b1.toUInt32 <<< 8) ||| (b2.toUInt32 <<< 16)

theorem cbdWord_toNat (b0 b1 b2 : UInt8) :
    (cbdWord b0 b1 b2).toNat = b0.toNat + 256 * b1.toNat + 65536 * b2.toNat := by
  have h0 := b0.toNat_lt
  have h1 := b1.toNat_lt
  have h2 := b2.toNat_lt
  have hlow := Nat.two_pow_add_eq_or_of_lt (show b0.toNat < 2 ^ 8 from h0) b1.toNat
  have hhigh := Nat.two_pow_add_eq_or_of_lt
    (show b0.toNat + 256 * b1.toNat < 2 ^ 16 by omega) b2.toNat
  have hshift1 : (b1.toUInt32 <<< 8).toNat = 2 ^ 8 * b1.toNat := by
    simp [Nat.shiftLeft_eq]
    omega
  have hshift2 : (b2.toUInt32 <<< 16).toNat = 2 ^ 16 * b2.toNat := by
    simp [Nat.shiftLeft_eq]
    omega
  rw [cbdWord, UInt32.toNat_or, UInt32.toNat_or, hshift1, hshift2, UInt8.toNat_toUInt32,
    Nat.or_comm b0.toNat, ← hlow, Nat.or_comm,
    show 2 ^ 8 * b1.toNat + b0.toNat = b0.toNat + 256 * b1.toNat by omega, ← hhigh]
  omega

/-- The bits of the word are those of its bytes. -/
theorem cbdWord_bit (stream : Nat → UInt8) {n : Nat} (hn : n < 24) :
    (cbdWord (stream 0) (stream 1) (stream 2)).toNat / 2 ^ n % 2 = Fips203.bitOf stream n := by
  have h0 := (stream 0).toNat_lt
  have h1 := (stream 1).toNat_lt
  have h2 := (stream 2).toNat_lt
  rw [cbdWord_toNat, Fips203.bitOf]
  interval_cases n <;> simp only [Nat.reduceDiv, Nat.reduceMod, Nat.reducePow] <;> omega

/-- The masked sum of the code. -/
def cbdSums (word : UInt32) : UInt32 :=
  (word &&& (0x00249249 : UInt32)) + ((word >>> 1) &&& (0x00249249 : UInt32))
    + ((word >>> 2) &&& (0x00249249 : UInt32))

theorem cbdSums_toNat (word : UInt32) : (cbdSums word).toNat = octalSums 8 word.toNat := by
  have hmask : octalMask 8 = 0x00249249 := by decide
  have hle (n : Nat) : n &&& 0x00249249 ≤ 0x00249249 := Nat.and_le_right
  have h0 := hle word.toNat
  have h1 := hle (word.toNat / 2)
  have h2 := hle (word.toNat / 4)
  simp only [cbdSums, octalSums, hmask, UInt32.toNat_add, UInt32.toNat_and,
    UInt32.toNat_shiftRight, Nat.shiftRight_eq_div_pow, UInt32.toNat_ofNat, Nat.reduceMod,
    Nat.reducePow]
  omega

theorem cbdSums_digit (word : UInt32) {digit : Nat} (hdigit : digit < 8) :
    ((cbdSums word >>> UInt32.ofNat (3 * digit)) &&& (7 : UInt32)).toNat
      = word.toNat / 2 ^ (3 * digit) % 2 + word.toNat / 2 ^ (3 * digit + 1) % 2
        + word.toNat / 2 ^ (3 * digit + 2) % 2 := by
  have hmask (n : Nat) : n &&& 7 = n % 8 := Nat.and_two_pow_sub_one_eq_mod n 3
  have hamount : (UInt32.ofNat (3 * digit)).toNat % 32 = 3 * digit := by
    rw [UInt32.toNat_ofNat']
    omega
  rw [← octalSums_digit hdigit, ← cbdSums_toNat, UInt32.toNat_and, UInt32.toNat_shiftRight,
    hamount, Nat.shiftRight_eq_div_pow, Nat.pow_mul]
  exact hmask _

theorem sampleCbd3_represents (stream : Nat → UInt8) (i : Nat) :
    Represents 3 (sampleCbd3 stream i) (Fips203.samplePolyCBD 3 stream i) := by
  obtain ⟨block, hblock⟩ : ∃ block, i / 4 = block := ⟨_, rfl⟩
  obtain ⟨r, hr⟩ : ∃ r, i % 4 = r := ⟨_, rfl⟩
  have hlt : r < 4 := by omega
  generalize hword : cbdWord (stream (3 * block)) (stream (3 * block + 1)) (stream (3 * block + 2))
    = word
  have hbit (n : Nat) (hn : n < 24) :
      word.toNat / 2 ^ n % 2 = Fips203.bitOf stream (24 * block + n) := by
    rw [show 24 * block + n = 8 * (3 * block) + n by omega, bitOf_shift, ← hword]
    exact cbdWord_bit (fun k => stream (3 * block + k)) hn
  have hdigit (digit : Nat) (hdigit : digit < 8) :
      ((cbdSums word >>> UInt32.ofNat (3 * digit)) &&& (7 : UInt32)).toNat
        = ∑ j ∈ Finset.range 3, Fips203.bitOf stream (24 * block + 3 * digit + j) := by
    rw [cbdSums_digit word hdigit, hbit _ (by omega), hbit _ (by omega), hbit _ (by omega),
      Finset.sum_range_succ, Finset.sum_range_succ, Finset.sum_range_one]
    rfl
  have hamount : (6 : UInt32) * UInt32.ofNat r = UInt32.ofNat (3 * (2 * r))
      ∧ (6 : UInt32) * UInt32.ofNat r + 3 = UInt32.ofNat (3 * (2 * r + 1)) := by
    interval_cases r <;> exact ⟨rfl, rfl⟩
  have hcode : sampleCbd3 stream i
      = Int16.ofNat ((cbdSums word >>> UInt32.ofNat (3 * (2 * r))) &&& (7 : UInt32)).toNat
        - Int16.ofNat ((cbdSums word >>> UInt32.ofNat (3 * (2 * r + 1))) &&& (7 : UInt32)).toNat := by
    rw [← hamount.1, ← hamount.2, ← hword, ← hblock, ← hr]
    rfl
  have hfirst := hdigit (2 * r) (by omega)
  have hsecond := hdigit (2 * r + 1) (by omega)
  have hbound (start : Nat) : ∑ j ∈ Finset.range 3, Fips203.bitOf stream (start + j) ≤ 3 := by
    have hbit (n : Nat) : Fips203.bitOf stream n < 2 := Nat.mod_lt _ (by decide)
    have h0 := hbit (start + 0)
    have h1 := hbit (start + 1)
    have h2 := hbit (start + 2)
    rw [Finset.sum_range_succ, Finset.sum_range_succ, Finset.sum_range_one]
    omega
  rw [hcode, Fips203.samplePolyCBD, hfirst, hsecond,
    show 2 * i * 3 = 24 * block + 3 * (2 * r) by omega,
    show 24 * block + 3 * (2 * r) + 3 = 24 * block + 3 * (2 * r + 1) by omega]
  exact represents_difference (by exact_mod_cast hbound _) (by exact_mod_cast hbound _) (by decide)

theorem sampleCbd_represents (hashes : Fips203.Hashes) (seed : Bytes) (nonce : UInt8) (i : Nat) :
    Represents 3 (sampleCbd hashes seed nonce 3 i)
        (Fips203.samplePolyCBD 3 (hashes.prf (seed ++ [nonce])) i)
      ∧ Represents 2 (sampleCbd hashes seed nonce 2 i)
        (Fips203.samplePolyCBD 2 (hashes.prf (seed ++ [nonce])) i) :=
  ⟨sampleCbd3_represents _ i, sampleCbd2_represents _ i⟩

/-! ## Rejection sampling -/

/-- A 12-bit number below the modulus, as a word. -/
theorem represents_below {value : UInt16} (h : value.toNat < 3329) :
    Represents 3328 value.toInt16 (value.toNat : Fips203.Zq) := by
  have hword : value.toInt16.toInt = value.toNat := by
    have h := toInt_toUInt16 value.toInt16
    rw [UInt16.toUInt16_toInt16] at h
    omega
  refine ⟨by omega, by omega, ?_⟩
  rw [hword, Int.cast_natCast]

section

variable (hashes : Fips203.Hashes) (seed : Bytes)

theorem sampleNttNext_eq (k : Nat) :
    (sampleNttNext hashes seed k).2 = k + Nat.find (hashes.finishes seed k) + 1
      ∧ (sampleNttNext hashes seed k).1.toNat
        = Fips203.candidate (hashes.xof seed) (k + Nat.find (hashes.finishes seed k)) := by
  have hfind : Nat.find (readerValue_finishes hashes seed k)
      = Nat.find (hashes.finishes seed k) := by
    congr 1
    funext n
    rw [readerValue_toNat]
  constructor
  · rw [← hfind]
    rfl
  · rw [← hfind, ← readerValue_toNat]
    rfl

/-- The reader stands behind the candidate that was accepted last. -/
theorem sampleNttPosition_succ (j : Nat) :
    sampleNttPosition hashes seed (j + 1) = hashes.accepted seed j + 1 := by
  induction j with
  | zero =>
    have h := (sampleNttNext_eq hashes seed 0).1
    rw [Nat.zero_add] at h
    exact h
  | succ j ih =>
    rw [sampleNttPosition, ih, (sampleNttNext_eq hashes seed _).1]
    rfl

theorem sampleNttNext_position (j : Nat) :
    (sampleNttNext hashes seed (sampleNttPosition hashes seed j)).1.toNat
      = Fips203.candidate (hashes.xof seed) (hashes.accepted seed j) := by
  cases j with
  | zero =>
    have h := (sampleNttNext_eq hashes seed 0).2
    rw [Nat.zero_add] at h
    exact h
  | succ j =>
    rw [sampleNttPosition_succ, (sampleNttNext_eq hashes seed _).2]
    rfl

theorem accepted_lt (j : Nat) :
    Fips203.candidate (hashes.xof seed) (hashes.accepted seed j) < 3329 := by
  cases j with
  | zero =>
    have h := Nat.find_spec (hashes.finishes seed 0)
    rwa [Nat.zero_add] at h
  | succ j => exact Nat.find_spec (hashes.finishes seed (hashes.accepted seed j + 1))

theorem sampleNttValues_represents (j : Nat) :
    Represents 3328 (sampleNttValues hashes seed j) (hashes.sampleNTT seed j) := by
  have hvalue := sampleNttNext_position hashes seed j
  have h := represents_below (by rw [hvalue]; exact accepted_lt hashes seed j)
  rw [hvalue] at h
  exact h

end

/-! ## Decoding -/

/-- A candidate is the number that twelve bits of the stream encode. -/
theorem byteDecode_candidate (stream : Nat → UInt8) (i : Nat) :
    Fips203.byteDecode 12 stream i = Fips203.candidate stream i := by
  have h0 := (stream (3 * (i / 2))).toNat_lt
  have h1 := (stream (3 * (i / 2) + 1)).toNat_lt
  have h2 := (stream (3 * (i / 2) + 2)).toNat_lt
  have hbit (j : Nat) : Fips203.bitOf stream (12 * i + j)
      = Fips203.bitOf (fun k => stream (3 * (i / 2) + k)) (12 * (i % 2) + j) := by
    rw [show 12 * i + j = 8 * (3 * (i / 2)) + (12 * (i % 2) + j) by omega, bitOf_shift]
  simp only [Fips203.byteDecode, hbit, Fips203.candidate]
  rcases Nat.mod_two_eq_zero_or_one i with hparity | hparity
  · simp only [hparity, Finset.sum_range_succ, Finset.sum_range_zero, Fips203.bitOf,
      Nat.reduceAdd, Nat.reduceMul, Nat.reduceDiv, Nat.reduceMod, Nat.reducePow, Nat.add_zero,
      if_true]
    omega
  · simp only [hparity, Finset.sum_range_succ, Finset.sum_range_zero, Fips203.bitOf,
      Nat.reduceAdd, Nat.reduceMul, Nat.reduceDiv, Nat.reduceMod, Nat.reducePow, Nat.add_zero,
      if_neg (show ¬ (1 = 0) by decide)]
    omega

theorem keyCoefficients_represents {encoded : Bytes} {i : Nat}
    (h : Fips203.byteDecode 12 (byteAt encoded) i < 3329) :
    Represents 3328 (keyCoefficients encoded i)
      (Fips203.byteDecode 12 (byteAt encoded) i : Fips203.Zq) := by
  rw [byteDecode_candidate, ← readerValue_toNat] at h ⊢
  exact represents_below h

end C0PQLink
