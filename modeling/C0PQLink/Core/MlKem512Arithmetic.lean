import C0PQLink.Core.MlKem512Stream
import C0PQLink.Foundation.SignedReduction

/-!
# The arithmetic of the encapsulation

What the functions on machine words compute: the products are exact, and the reductions
return representatives modulo 3329 whose size does not depend on their argument.

* `multiplyS16ConstantSchedule_toInt`: the product of two numbers of 16 bits.
* `fqmul_represents`: a product of representatives, divided by `2 ^ 16`.
* `barrettReduce_represents`: the centered representative.
* `freezeCoefficient_toNat`: the representative from 0 to 3328.
-/

namespace C0PQLink

open Foundation Fips203

/-! ## Products -/

theorem multiplyU8Fixed_toNat (a b : UInt8) :
    (multiplyU8Fixed a b).toNat = a.toNat * b.toNat := by
  have ha := a.toNat_lt
  have hb := b.toNat_lt
  have hproduct : a.toNat * b.toNat ≤ 255 * 255 := Nat.mul_le_mul (by omega) (by omega)
  rw [multiplyU8Fixed, UInt16.toNat_mul, UInt8.toNat_toUInt16, UInt8.toNat_toUInt16,
    Nat.mod_eq_of_lt (by omega)]

theorem multiplyU16Fixed_toNat (a b : UInt16) :
    (multiplyU16Fixed a b).toNat = a.toNat * b.toNat := by
  have ha := a.toNat_lt
  have hb := b.toNat_lt
  have hproduct : a.toNat * b.toNat
      = (a.toNat % 256) * (b.toNat % 256) + (a.toNat % 256) * (b.toNat / 256) * 256
        + (a.toNat / 256) * (b.toNat % 256) * 256
        + (a.toNat / 256) * (b.toNat / 256) * 65536 := by
    have hsplit := Nat.mod_add_div a.toNat 256
    have hsplit' := Nat.mod_add_div b.toNat 256
    conv_lhs => rw [← hsplit, ← hsplit']
    ring
  have hbound : a.toNat * b.toNat < 2 ^ 32 := by
    have := Nat.mul_le_mul (show a.toNat ≤ 65535 by omega) (show b.toNat ≤ 65535 by omega)
    omega
  have hhigh : a.toNat / 256 < 256 := by omega
  have hhigh' : b.toNat / 256 < 256 := by omega
  simp only [multiplyU16Fixed, UInt32.toNat_add, UInt32.toNat_shiftLeft, UInt16.toNat_toUInt32,
    multiplyU8Fixed_toNat, UInt16.toNat_toUInt8, UInt16.toNat_shiftRight, Nat.shiftLeft_eq,
    Nat.shiftRight_eq_div_pow, UInt32.toNat_ofNat, UInt16.toNat_ofNat, Nat.reduceMod,
    Nat.reducePow, Nat.mod_eq_of_lt hhigh, Nat.mod_eq_of_lt hhigh']
  omega

/-- The two's complement value of a 16-bit word. -/
theorem toInt_toUInt16 (a : Int16) :
    a.toInt = (a.toUInt16.toNat : Int) - 65536 * (a.toUInt16.toNat / 32768 : Nat) := by
  have hlt := a.toUInt16.toNat_lt
  have hdefinition : a.toInt = a.toBitVec.toInt := rfl
  have hword : a.toUInt16.toNat = a.toBitVec.toNat := rfl
  rw [hdefinition, BitVec.toInt_eq_toNat_cond, hword]
  split <;> omega

theorem toInt_toInt32 (word : UInt32) : word.toInt32.toInt = Int.bmod word.toNat (2 ^ 32) := by
  have hdefinition : word.toInt32.toInt = word.toBitVec.toInt := rfl
  rw [hdefinition, BitVec.toInt_eq_toNat_bmod]
  rfl

/-- A word that is congruent to a signed number of its width holds that number. -/
theorem toInt_toInt32_of_dvd {word : UInt32} {value : Int} (hlow : -2147483648 ≤ value)
    (hhigh : value < 2147483648) (h : (4294967296 : Int) ∣ word.toNat - value) :
    word.toInt32.toInt = value := by
  rw [toInt_toInt32, Int.bmod_def]
  split <;> omega

/-- The mask that a sign bit selects. -/
theorem signMask_toNat (sign word : UInt32) (hsign : sign.toNat < 2) :
    (((0 : UInt32) - sign) &&& word).toNat = sign.toNat * word.toNat := by
  have hcases : sign = 0 ∨ sign = 1 := by
    simp only [← UInt32.toNat_inj, UInt32.toNat_ofNat, Nat.reduceMod, Nat.reducePow]
    omega
  rcases hcases with rfl | rfl
  · simp
  · have hones : (0 : UInt32) - 1 = -1 := rfl
    rw [hones, UInt32.neg_one_and]
    simp

theorem multiplyS16ConstantSchedule_toInt (a b : Int16) :
    (multiplyS16ConstantSchedule a b).toInt = a.toInt * b.toInt := by
  have halt := a.toUInt16.toNat_lt
  have hblt := b.toUInt16.toNat_lt
  have hproduct := multiplyU16Fixed_toNat a.toUInt16 b.toUInt16
  have hsign (w : UInt16) : (w >>> 15).toUInt32.toNat = w.toNat / 32768 := by
    simp [Nat.shiftRight_eq_div_pow]
  have hshift (w : UInt16) : (w.toUInt32 <<< 16).toNat = w.toNat * 65536 := by
    have hw := w.toNat_lt
    simp [Nat.shiftLeft_eq]
    omega
  have hsigna := signMask_toNat (a.toUInt16 >>> 15).toUInt32 (b.toUInt16.toUInt32 <<< 16)
    (by rw [hsign]; omega)
  have hsignb := signMask_toNat (b.toUInt16 >>> 15).toUInt32 (a.toUInt16.toUInt32 <<< 16)
    (by rw [hsign]; omega)
  rw [hsign, hshift, ← Nat.mul_assoc] at hsigna hsignb
  have hmaska := hsigna.symm.trans_lt (UInt32.toNat_lt _)
  have hmaskb := hsignb.symm.trans_lt (UInt32.toNat_lt _)
  have hbound : -32768 * 32768 ≤ a.toInt * b.toInt ∧ a.toInt * b.toInt ≤ 32768 * 32768 := by
    have ha := a.le_toInt
    have ha' := a.toInt_lt
    have hb := b.le_toInt
    have hb' := b.toInt_lt
    constructor <;> nlinarith
  -- the product of the words is off by what the sign bits contribute
  have hvalue : a.toInt * b.toInt = (a.toUInt16.toNat * b.toUInt16.toNat : Nat)
      - 65536 * (a.toUInt16.toNat / 32768 * b.toUInt16.toNat : Nat)
      - 65536 * (b.toUInt16.toNat / 32768 * a.toUInt16.toNat : Nat)
      + 4294967296 * (a.toUInt16.toNat / 32768 * (b.toUInt16.toNat / 32768) : Nat) := by
    rw [toInt_toUInt16 a, toInt_toUInt16 b]
    push_cast
    ring
  rw [multiplyS16ConstantSchedule]
  refine toInt_toInt32_of_dvd (by omega) (by omega) ?_
  simp only [UInt32.toNat_sub, hsigna, hsignb, hproduct]
  rw [hvalue]
  omega

/-! ## Representatives -/

/-- A word that stands for the residue `x` and is at most `bound` from zero. -/
structure Represents (bound : Int) (a : Int16) (x : Zq) : Prop where
  low : -bound ≤ a.toInt
  high : a.toInt ≤ bound
  value : (a.toInt : Zq) = x

theorem represents_self (a : Int16) : Represents 32768 a (a.toInt : Zq) := by
  have hlow := a.le_toInt
  have hhigh := a.toInt_lt
  exact ⟨by omega, by omega, rfl⟩

namespace Represents

variable {m n : Int} {a b : Int16} {x y : Zq}

theorem mono (h : Represents m a x) (hmn : m ≤ n) : Represents n a x :=
  ⟨by have := h.low; omega, by have := h.high; omega, h.value⟩

theorem add (ha : Represents m a x) (hb : Represents n b y) (hfits : m + n ≤ 32767) :
    Represents (m + n) (a + b) (x + y) := by
  have ha' := ha.low
  have ha'' := ha.high
  have hb' := hb.low
  have hb'' := hb.high
  have hsum : (a + b).toInt = a.toInt + b.toInt := by
    rw [Int16.toInt_add, Int.bmod_eq_of_le (by omega) (by omega)]
  refine ⟨by omega, by omega, ?_⟩
  rw [hsum, Int.cast_add, ha.value, hb.value]

theorem sub (ha : Represents m a x) (hb : Represents n b y) (hfits : m + n ≤ 32767) :
    Represents (m + n) (a - b) (x - y) := by
  have ha' := ha.low
  have ha'' := ha.high
  have hb' := hb.low
  have hb'' := hb.high
  have hdifference : (a - b).toInt = a.toInt - b.toInt := by
    rw [Int16.toInt_sub, Int.bmod_eq_of_le (by omega) (by omega)]
  refine ⟨by omega, by omega, ?_⟩
  rw [hdifference, Int.cast_sub, ha.value, hb.value]

theorem neg (ha : Represents m a x) (hfits : m ≤ 32767) : Represents m (-a) (-x) := by
  have ha' := ha.low
  have ha'' := ha.high
  have hopposite : (-a).toInt = -a.toInt := by
    rw [Int16.toInt_neg, Int.bmod_eq_of_le (by omega) (by omega)]
  refine ⟨by omega, by omega, ?_⟩
  rw [hopposite, Int.cast_neg, ha.value]

end Represents

/-! ## Reductions -/

theorem toInt_shiftRight16 (value : Int32) : (value >>> 16).toInt = value.toInt / 65536 := by
  have hdefinition : (value >>> 16).toInt = (value.toBitVec.sshiftRight 16).toInt := rfl
  rw [hdefinition, BitVec.toInt_sshiftRight, Int.shiftRight_eq_div_pow]
  rfl

theorem toInt_shiftRight26 (value : Int32) : (value >>> 26).toInt = value.toInt / 67108864 := by
  have hdefinition : (value >>> 26).toInt = (value.toBitVec.sshiftRight 26).toInt := rfl
  rw [hdefinition, BitVec.toInt_sshiftRight, Int.shiftRight_eq_div_pow]
  rfl

/-- The factor of a Montgomery reduction is the value times the inverse of the modulus. -/
theorem montgomeryFactor_toInt (value : Int32) :
    (65536 : Int) ∣ (value.toInt16.toUInt16 * mlkemQinv).toInt16.toInt - value.toInt * 62209 := by
  have hlow := toInt_toUInt16 value.toInt16
  have hfactor := toInt_toUInt16 (value.toInt16.toUInt16 * mlkemQinv).toInt16
  have hbmod := Int32.toInt_toInt16 value
  have hword : ((value.toInt16.toUInt16 * mlkemQinv).toInt16.toUInt16).toNat
      = value.toInt16.toUInt16.toNat * 62209 % 65536 := by
    rw [UInt16.toUInt16_toInt16, UInt16.toNat_mul]
    rfl
  rw [Int.bmod_def] at hbmod
  split at hbmod <;> omega

theorem montgomeryReduce_represents (value : Int32) (hlow : -109084672 < value.toInt)
    (hhigh : value.toInt < 109084672) :
    Represents 3328 (montgomeryReduce value) ((value.toInt : Zq) * 169) := by
  have hdvd := montgomeryFactor_toInt value
  generalize hfactor : (value.toInt16.toUInt16 * mlkemQinv).toInt16 = factor at hdvd
  have hfactorlow := factor.le_toInt
  have hfactorhigh := factor.toInt_lt
  have hproduct : (multiplyS16ConstantSchedule factor mlkemQ).toInt = factor.toInt * 3329 := by
    rw [multiplyS16ConstantSchedule_toInt]
    rfl
  have hdifference : (value - multiplyS16ConstantSchedule factor mlkemQ).toInt
      = value.toInt - factor.toInt * 3329 := by
    rw [Int32.toInt_sub, hproduct, Int.bmod_eq_of_le (by omega) (by omega)]
  have hexact := montgomery_exact (show (65536 : Int) ∣ 62209 * 3329 - 1 by decide) hdvd
  have hbound := montgomery_bound (by decide) (by decide) (by omega) (by omega) (by omega)
    (by omega) hexact
  have hresult : (montgomeryReduce value).toInt
      = (value.toInt - factor.toInt * 3329) / 65536 := by
    simp only [montgomeryReduce, hfactor]
    rw [Int32.toInt_toInt16, toInt_shiftRight16, hdifference,
      Int.bmod_eq_of_le (by omega) (by omega)]
  refine ⟨by omega, by omega, ?_⟩
  rw [hresult]
  generalize (value.toInt - factor.toInt * 3329) / 65536 = quotient at hexact
  have hmodulus : (3329 : Zq) = 0 := by decide
  have hradix : (65536 * 169 : Zq) = 1 := by decide
  have hcast : (quotient : Zq) * 65536 = value.toInt - factor.toInt * 3329 := by
    exact_mod_cast congrArg (fun n : Int => (n : Zq)) hexact
  calc (quotient : Zq) = quotient * 65536 * 169 := by rw [mul_assoc, hradix, mul_one]
    _ = value.toInt * 169 := by rw [hcast, hmodulus, mul_zero, sub_zero]

theorem fqmul_represents {m n : Int} {a b : Int16} {x y : Zq} (ha : Represents m a x)
    (hb : Represents n b y) (hfits : m * n < 109084672) :
    Represents 3328 (fqmul a b) (x * y * 169) := by
  have hproduct := multiplyS16ConstantSchedule_toInt a b
  have hbound : |a.toInt * b.toInt| ≤ m * n := by
    rw [abs_mul]
    exact mul_le_mul (abs_le.mpr ⟨ha.low, ha.high⟩) (abs_le.mpr ⟨hb.low, hb.high⟩) (abs_nonneg _)
      ((abs_nonneg _).trans (abs_le.mpr ⟨ha.low, ha.high⟩))
  obtain ⟨hlow, hhigh⟩ := abs_le.mp hbound
  have h := montgomeryReduce_represents (multiplyS16ConstantSchedule a b) (by omega) (by omega)
  rwa [hproduct, Int.cast_mul, ha.value, hb.value] at h

/-- The factor is the nearest integer to `2 ^ 26 / 3329`. -/
theorem barrettReduce_represents {m : Int} {a : Int16} {x : Zq} (ha : Represents m a x) :
    Represents 1664 (barrettReduce a) x := by
  have hlow := a.le_toInt
  have hhigh := a.toInt_lt
  have hproduct : (multiplyS16ConstantSchedule (Int16.ofInt ((2 ^ 26 + 3329 / 2) / 3329)) a).toInt
      = 20159 * a.toInt := by
    rw [multiplyS16ConstantSchedule_toInt]
    rfl
  have hrounded : (multiplyS16ConstantSchedule (Int16.ofInt ((2 ^ 26 + 3329 / 2) / 3329)) a
      + 0x2000000).toInt = 20159 * a.toInt + 33554432 := by
    have hhalf : (0x2000000 : Int32).toInt = 33554432 := rfl
    rw [Int32.toInt_add, hproduct, hhalf, Int.bmod_eq_of_le (by omega) (by omega)]
  generalize hquotient : ((multiplyS16ConstantSchedule
    (Int16.ofInt ((2 ^ 26 + 3329 / 2) / 3329)) a + 0x2000000) >>> 26).toInt16 = quotient
  have hvalue : quotient.toInt = (20159 * a.toInt + 33554432) / 67108864 := by
    rw [← hquotient, Int32.toInt_toInt16, toInt_shiftRight26, hrounded,
      Int.bmod_eq_of_le (by omega) (by omega)]
  have hmultiple : (multiplyS16ConstantSchedule quotient mlkemQ).toInt16.toInt
      = (quotient.toInt * 3329).bmod (2 ^ 16) := by
    rw [Int32.toInt_toInt16, multiplyS16ConstantSchedule_toInt]
    rfl
  -- the multiple may leave the range of the word, the difference does not
  have hresult : (barrettReduce a).toInt = a.toInt - quotient.toInt * 3329 := by
    simp only [barrettReduce, hquotient]
    rw [Int16.toInt_sub, hmultiple, Int.sub_bmod_bmod, Int.bmod_eq_of_le (by omega) (by omega)]
  refine ⟨by omega, by omega, ?_⟩
  have hmodulus : (3329 : Zq) = 0 := by decide
  rw [hresult, ← ha.value]
  push_cast
  rw [hmodulus, mul_zero, sub_zero]

/-- The sign of a word, spread over all its bits. -/
theorem signMask_and (a b : Int16) :
    (a >>> 15) &&& b = if a.toInt < 0 then b else 0 := by
  have hlow := a.le_toInt
  have hhigh := a.toInt_lt
  have hshift : (a >>> 15).toInt = a.toInt / 32768 := by
    have hdefinition : (a >>> 15).toInt = (a.toBitVec.sshiftRight 15).toInt := rfl
    rw [hdefinition, BitVec.toInt_sshiftRight, Int.shiftRight_eq_div_pow]
    rfl
  split
  · have hones : a >>> 15 = -1 := by
      apply Int16.toInt_inj.mp
      rw [hshift, show (-1 : Int16).toInt = -1 from rfl]
      omega
    rw [hones, Int16.neg_one_and]
  · have hzero : a >>> 15 = 0 := by
      apply Int16.toInt_inj.mp
      rw [hshift, show (0 : Int16).toInt = 0 from rfl]
      omega
    rw [hzero, Int16.zero_and]

theorem freezeCoefficient_toNat {m : Int} {a : Int16} {x : Zq} (ha : Represents m a x) :
    (freezeCoefficient a).toUInt16.toNat = x.val := by
  have h := barrettReduce_represents ha
  have hlow := h.low
  have hhigh := h.high
  have hfrozen : (freezeCoefficient a).toInt
      = (barrettReduce a).toInt + if (barrettReduce a).toInt < 0 then 3329 else 0 := by
    have hmodulus : mlkemQ.toInt = 3329 := rfl
    have hzero : (0 : Int16).toInt = 0 := rfl
    simp only [freezeCoefficient, signMask_and]
    split
    · rw [Int16.toInt_add, hmodulus, Int.bmod_eq_of_le (by omega) (by omega)]
    · rw [Int16.toInt_add, hzero, Int.bmod_eq_of_le (by omega) (by omega)]
  have hword := toInt_toUInt16 (freezeCoefficient a)
  have hwordlt := (freezeCoefficient a).toUInt16.toNat_lt
  have hnat : (((freezeCoefficient a).toUInt16.toNat : Nat) : Int)
      = (barrettReduce a).toInt + if (barrettReduce a).toInt < 0 then 3329 else 0 := by
    split at hfrozen <;> omega
  have hcast : (((freezeCoefficient a).toUInt16.toNat : Nat) : Zq) = x := by
    have hmodulus : (3329 : Zq) = 0 := by decide
    rw [← Int.cast_natCast, hnat, Int.cast_add, h.value]
    split
    · rw [Int.cast_ofNat, hmodulus, add_zero]
    · rw [Int.cast_zero, add_zero]
  rw [← hcast, ZMod.val_natCast, Nat.mod_eq_of_lt]
  split at hnat <;> omega

end C0PQLink
