import C0PQLink.Core.MlKem512Arithmetic
import Mathlib.Tactic.FieldSimp
import Mathlib.Tactic.Positivity

/-!
# Compression and packing in the encapsulation

The two compressions multiply by a rounded reciprocal, and the two loops that write the
ciphertext pack a few coefficients at a time. Both are those of the standard.

* `compress10_toNat`, `compress4_toNat`: the compressions of a residue.
* `branchless_exact`: what the arithmetic computes, for all words.
* `flatten_packU`, `flatten_packV`: the chunks are the encoding, in order.
-/

namespace C0PQLink

open Foundation

/-! ## Compression -/

/-- Rounding to the nearest integer, in integer arithmetic. -/
theorem compress_eq (d : Nat) (x : Fips203.Zq) :
    Fips203.compress d x = (2 ^ (d + 1) * x.val + 3329) / 6658 % 2 ^ d := by
  have hround : round ((2 ^ d : ℚ) / (3329 : Nat) * x.val)
      = (((2 ^ (d + 1) * x.val + 3329) / 6658 : Nat) : Int) := by
    have hsum : (2 ^ d : ℚ) / (3329 : Nat) * x.val + 1 / 2
        = (((2 ^ (d + 1) * x.val + 3329 : Nat) : Int) : ℚ) / (6658 : Nat) := by
      push_cast
      rw [pow_succ]
      ring
    rw [round_eq, hsum, Rat.floor_intCast_div_natCast]
    rfl
  rw [Fips203.compress, hround, Int.toNat_natCast]

/-- A property of the residues, checked in rows. -/
theorem residues_of_rows {P : Nat → Prop} (h : ∀ a < 64, ∀ b < 64, 64 * a + b < 3329 → P (64 * a + b))
    (x : Fips203.Zq) : P x.val := by
  have hlt := ZMod.val_lt x
  have hrow := h (x.val / 64) (by omega) (x.val % 64) (by omega)
  rw [Nat.div_add_mod] at hrow
  exact hrow hlt

theorem reciprocal10 (x : Fips203.Zq) :
    (x.val * 1024 + 1665) * 1290167 / 4294967296 % 1024
      = (2048 * x.val + 3329) / 6658 % 1024 :=
  residues_of_rows (P := fun v => (v * 1024 + 1665) * 1290167 / 4294967296 % 1024
    = (2048 * v + 3329) / 6658 % 1024) (by decide +kernel) x

theorem reciprocal4 (x : Fips203.Zq) :
    (x.val * 16 + 1665) * 80635 / 268435456 % 16 = (32 * x.val + 3329) / 6658 % 16 :=
  residues_of_rows (P := fun v => (v * 16 + 1665) * 80635 / 268435456 % 16
    = (32 * v + 3329) / 6658 % 16) (by decide +kernel) x

theorem compress10_toNat {m : Int} {a : Int16} {x : Fips203.Zq} (ha : Represents m a x) :
    (compress10 a).toNat = Fips203.compress 10 x := by
  have hfrozen := freezeCoefficient_toNat ha
  have hlt := ZMod.val_lt x
  have hmask (n : Nat) : n &&& 1023 = n % 1024 := Nat.and_two_pow_sub_one_eq_mod n 10
  rw [compress_eq]
  refine Eq.trans ?_ (reciprocal10 x)
  simp only [compress10, UInt64.toNat_toUInt16, UInt64.toNat_and, UInt64.toNat_shiftRight,
    UInt64.toNat_mul, UInt64.toNat_add, UInt64.toNat_shiftLeft, UInt16.toNat_toUInt64, hfrozen,
    UInt64.toNat_ofNat, Nat.shiftLeft_eq, Nat.shiftRight_eq_div_pow, Nat.reduceMod, Nat.reducePow,
    hmask]
  rw [Nat.mod_eq_of_lt (show x.val * 1024 < 18446744073709551616 by omega),
    Nat.mod_eq_of_lt (show x.val * 1024 + 1665 < 18446744073709551616 by omega),
    Nat.mod_eq_of_lt (show (x.val * 1024 + 1665) * 1290167 < 18446744073709551616 by omega)]
  omega

/-- The product does not fit in the word, but the bits that are kept do. -/
theorem compress4_toNat {m : Int} {a : Int16} {x : Fips203.Zq} (ha : Represents m a x) :
    (compress4 a).toNat = Fips203.compress 4 x := by
  have hfrozen := freezeCoefficient_toNat ha
  have hlt := ZMod.val_lt x
  have hmask (n : Nat) : n &&& 15 = n % 16 := Nat.and_two_pow_sub_one_eq_mod n 4
  rw [compress_eq]
  refine Eq.trans ?_ (reciprocal4 x)
  simp only [compress4, UInt32.toNat_toUInt8, UInt32.toNat_and, UInt32.toNat_shiftRight,
    UInt32.toNat_mul, UInt32.toNat_add, UInt32.toNat_shiftLeft, UInt16.toNat_toUInt32, hfrozen,
    UInt32.toNat_ofNat, Nat.shiftLeft_eq, Nat.shiftRight_eq_div_pow, Nat.reduceMod, Nat.reducePow,
    hmask]
  rw [Nat.mod_eq_of_lt (show x.val * 16 < 4294967296 by omega),
    Nat.mod_eq_of_lt (show x.val * 16 + 1665 < 4294967296 by omega)]
  generalize (x.val * 16 + 1665) * 80635 = scaled
  omega

/-- A residue as a congruence of integers. -/
theorem Represents.modEq {m : Int} {a : Int16} {n : Int} (h : Represents m a (n : Fips203.Zq)) :
    a.toInt ≡ n [ZMOD 3329] := (ZMod.intCast_eq_intCast_iff _ _ 3329).mp h.value

theorem freezeCoefficient_toInt (x : Int16) :
    0 ≤ (freezeCoefficient x).toInt ∧ (freezeCoefficient x).toInt ≤ 3328
      ∧ (freezeCoefficient x).toInt ≡ x.toInt [ZMOD 3329] := by
  have hfrozen := freezeCoefficient_toNat (represents_self x)
  have hlt := ZMod.val_lt (x.toInt : Fips203.Zq)
  have hword := toInt_toUInt16 (freezeCoefficient x)
  have hvalue : (freezeCoefficient x).toInt = ((x.toInt : Fips203.Zq).val : Int) := by omega
  refine ⟨by omega, by omega, ?_⟩
  rw [hvalue]
  apply (ZMod.intCast_eq_intCast_iff _ _ 3329).mp
  rw [Int.cast_natCast, ZMod.natCast_zmod_val]

/-- The products, the reductions and the compressions are exact. -/
theorem branchless_exact :
    (∀ a b : Int16, (multiplyS16ConstantSchedule a b).toInt = a.toInt * b.toInt)
    ∧ (∀ v : Int32, |v.toInt| < 3329 * 2 ^ 15 →
      (montgomeryReduce v).toInt * 2 ^ 16 ≡ v.toInt [ZMOD 3329]
        ∧ |(montgomeryReduce v).toInt| < 3329)
    ∧ (∀ x : Int16, -1664 ≤ (barrettReduce x).toInt ∧ (barrettReduce x).toInt ≤ 1664
      ∧ (barrettReduce x).toInt ≡ x.toInt [ZMOD 3329])
    ∧ (∀ x : Int16, 0 ≤ (freezeCoefficient x).toInt ∧ (freezeCoefficient x).toInt ≤ 3328
      ∧ (freezeCoefficient x).toInt ≡ x.toInt [ZMOD 3329])
    ∧ ∀ x : Int16, (compress10 x).toNat = Fips203.compress 10 (x.toInt : Fips203.Zq)
      ∧ (compress4 x).toNat = Fips203.compress 4 (x.toInt : Fips203.Zq) := by
  refine ⟨multiplyS16ConstantSchedule_toInt, fun v hv => ?_, fun x => ?_, freezeCoefficient_toInt,
    fun x => ⟨compress10_toNat (represents_self x), compress4_toNat (represents_self x)⟩⟩
  · obtain ⟨hlow, hhigh⟩ := abs_lt.mp hv
    have hreduced := montgomeryReduce_represents v (by omega) (by omega)
    have hlow' := hreduced.low
    have hhigh' := hreduced.high
    refine ⟨(ZMod.intCast_eq_intCast_iff _ _ 3329).mp ?_, abs_lt.mpr ⟨by omega, by omega⟩⟩
    have hradix : (169 * 65536 : Fips203.Zq) = 1 := by decide
    push_cast
    rw [hreduced.value, mul_assoc, hradix, mul_one]
  · have hreduced := barrettReduce_represents (represents_self x)
    exact ⟨hreduced.low, hreduced.high, hreduced.modEq⟩

/-! ## Packing -/

/-- Chunks of one size, each of which holds its part of a list. -/
theorem flatten_chunks {α : Type} (size : Nat) (g : Nat → α) {count : Nat}
    {chunk : Nat → List α}
    (h : ∀ block < count, chunk block = (List.range size).map fun j => g (size * block + j)) :
    ((List.range count).map chunk).flatten = (List.range (count * size)).map g := by
  induction count with
  | zero => simp
  | succ count ih =>
    have hlast := h count (Nat.lt_succ_self _)
    have hbefore := ih fun block hblock => h block (by omega)
    rw [List.range_succ, List.map_append, List.flatten_append, hbefore, List.map_singleton,
      List.flatten_singleton, hlast, Nat.succ_mul, List.range_add, List.map_append, List.map_map]
    simp only [Function.comp_def, Nat.mul_comm]

/-- The byte `k` of the encoding of a block that starts at a byte and at a coefficient. -/
theorem encodedByte_block {d k j block count size : Nat} (f : Nat → Nat)
    (hk : k = size * block + j) (hsize : 8 * size = d * count) (hd : 0 < d) :
    ∑ t ∈ Finset.range 8, f ((8 * k + t) / d) / 2 ^ ((8 * k + t) % d) % 2 * 2 ^ t
      = ∑ t ∈ Finset.range 8,
        f (count * block + (8 * j + t) / d) / 2 ^ ((8 * j + t) % d) % 2 * 2 ^ t := by
  apply Finset.sum_congr rfl
  intro t _
  have hposition : 8 * k + t = 8 * j + t + d * (count * block) := by
    rw [hk, Nat.mul_add, ← Nat.mul_assoc, hsize]
    ring
  rw [hposition, Nat.add_mul_div_left _ _ hd, Nat.add_mul_mod_self_left, Nat.add_comm (count * block)]

/-- The high bits of one coefficient and the low bits of the next. -/
theorem packPair_toNat {t u : UInt16} (ht : t.toNat < 1024) (hu : u.toNat < 1024) {s : Nat}
    (hs : 4 ≤ s ∧ s ≤ 8) :
    ((t >>> UInt16.ofNat s) ||| (u <<< UInt16.ofNat (10 - s))).toUInt8.toNat
      = (t.toNat / 2 ^ s + 2 ^ (10 - s) * u.toNat) % 256 := by
  have hlow : t.toNat / 2 ^ s < 2 ^ (10 - s) := by
    apply Nat.div_lt_of_lt_mul
    rw [← Nat.pow_add, show s + (10 - s) = 10 by omega]
    exact ht
  have hpow : 2 ^ (10 - s) ≤ 2 ^ 6 := Nat.pow_le_pow_right (by decide) (by omega)
  have hproduct := Nat.mul_le_mul hpow (show u.toNat ≤ 1023 by omega)
  have hamount : (UInt16.ofNat s).toNat % 16 = s := by
    rw [UInt16.toNat_ofNat']
    omega
  have hamount' : (UInt16.ofNat (10 - s)).toNat % 16 = 10 - s := by
    rw [UInt16.toNat_ofNat']
    omega
  rw [UInt16.toNat_toUInt8, UInt16.toNat_or, UInt16.toNat_shiftRight, UInt16.toNat_shiftLeft,
    hamount, hamount', Nat.shiftRight_eq_div_pow, Nat.shiftLeft_eq, Nat.mul_comm u.toNat,
    Nat.mod_eq_of_lt (show 2 ^ (10 - s) * u.toNat < 2 ^ 16 by omega), Nat.or_comm,
    ← Nat.two_pow_add_eq_or_of_lt hlow, Nat.add_comm]

theorem packU_eq {p : Polynomial} {f : Nat → Nat} {block : Nat}
    (hp : ∀ r < 4, (compress10 (p (4 * block + r))).toNat = f (4 * block + r))
    (hf : ∀ n, f n < 1024) :
    packU p block = (List.range 5).map fun j =>
      UInt8.ofNat (∑ t ∈ Finset.range 8,
        f ((8 * (5 * block + j) + t) / 10) / 2 ^ ((8 * (5 * block + j) + t) % 10) % 2 * 2 ^ t) := by
  have h0 := hp 0 (by omega)
  have h1 := hp 1 (by omega)
  have h2 := hp 2 (by omega)
  have h3 := hp 3 (by omega)
  have hlt0 := hf (4 * block)
  have hlt1 := hf (4 * block + 1)
  have hlt2 := hf (4 * block + 2)
  have hlt3 := hf (4 * block + 3)
  have hpair8 := packPair_toNat (h0.trans_lt (hf _)) (h1.trans_lt (hf _))
    (show 4 ≤ 8 ∧ 8 ≤ 8 by decide)
  have hpair6 := packPair_toNat (h1.trans_lt (hf _)) (h2.trans_lt (hf _))
    (show 4 ≤ 6 ∧ 6 ≤ 8 by decide)
  have hpair4 := packPair_toNat (h2.trans_lt (hf _)) (h3.trans_lt (hf _))
    (show 4 ≤ 4 ∧ 4 ≤ 8 by decide)
  simp only [UInt16.reduceOfNat, Nat.reduceSub, Nat.reducePow, Nat.add_zero, h1, h2, h3]
    at hpair8 hpair6 hpair4 h0
  rw [h0] at hpair8
  -- byte by byte
  simp only [encodedByte_block f rfl (show 8 * 5 = 10 * 4 by decide) (show 0 < 10 by decide),
    packU, List.range, List.range.loop, List.map_cons, List.map_nil, List.cons.injEq, and_true,
    ← UInt8.toNat_inj, UInt8.toNat_ofNat', hpair8, hpair6, hpair4, UInt16.toNat_toUInt8,
    UInt16.toNat_shiftRight, UInt16.reduceToNat, h0, h3, Finset.sum_range_succ,
    Finset.sum_range_zero, Nat.reduceAdd, Nat.reduceMul, Nat.reduceDiv, Nat.reduceMod,
    Nat.reducePow, Nat.add_zero, Nat.shiftRight_eq_div_pow]
  refine ⟨?_, ?_, ?_, ?_, ?_⟩ <;> omega

/-- The chunks that `write_compressed_u` writes are the encoding with ten bits. -/
theorem flatten_packU {p : Polynomial} {f : Nat → Nat}
    (hp : ∀ i < 256, (compress10 (p i)).toNat = f i) (hf : ∀ n, f n < 1024) :
    ((List.range 64).map (packU p)).flatten = Fips203.byteEncode 10 f := by
  rw [Fips203.byteEncode, show 32 * 10 = 64 * 5 by decide]
  apply flatten_chunks
  intro block hblock
  exact packU_eq (fun r hr => hp _ (by omega)) hf

/-! ## The message -/

theorem messageBit_toNat (message : Bytes) (i : Nat) :
    (messageBit message i).toNat = Fips203.bitOf (byteAt message) i := by
  have hmask (n : Nat) : n &&& 1 = n % 2 := Nat.and_two_pow_sub_one_eq_mod n 1
  have hamount : (UInt16.ofNat (i % 8)).toNat % 16 = i % 8 := by
    rw [UInt16.toNat_ofNat']
    omega
  rw [messageBit, UInt16.toNat_and, UInt16.toNat_shiftRight, hamount, UInt8.toNat_toUInt16,
    Nat.shiftRight_eq_div_pow, Fips203.bitOf]
  exact hmask _

theorem decompress1_zero : Fips203.decompress 1 0 = 0 := by
  rw [Fips203.decompress, Nat.cast_zero, mul_zero, round_zero, Int.cast_zero]

theorem decompress1_one : Fips203.decompress 1 1 = 1665 := by
  have hround : round ((3329 : Nat) / 2 ^ 1 * (1 : Nat) : ℚ) = 1665 := by
    rw [round_eq, Int.floor_eq_iff]
    norm_num
  rw [Fips203.decompress, hround]
  rfl

theorem messageCoefficient_represents (message : Bytes) (i : Nat) :
    Represents 1665 (messageCoefficient message i)
      (Fips203.decompress 1 (Fips203.byteDecode 1 (byteAt message) i)) := by
  have hbit := messageBit_toNat message i
  have hdecode : Fips203.byteDecode 1 (byteAt message) i = Fips203.bitOf (byteAt message) i := by
    rw [Fips203.byteDecode, Finset.sum_range_one, Nat.one_mul, Nat.add_zero, Nat.pow_zero,
      Nat.mul_one]
  rw [hdecode, ← hbit]
  have hcases : messageBit message i = 0 ∨ messageBit message i = 1 := by
    have hlt : Fips203.bitOf (byteAt message) i < 2 := Nat.mod_lt _ (by decide)
    simp only [← UInt16.toNat_inj, UInt16.reduceToNat]
    omega
  rw [messageCoefficient]
  rcases hcases with h | h
  · rw [h, show (0 : UInt16).toNat = 0 from rfl, decompress1_zero]
    exact ⟨by decide, by decide, by decide⟩
  · rw [h, show (1 : UInt16).toNat = 1 from rfl, decompress1_one]
    exact ⟨by decide, by decide, by decide⟩

theorem packV_eq {p : Polynomial} {message : Bytes} {f : Nat → Nat} {block : Nat}
    (hp : ∀ r < 2, (compress4 (p (2 * block + r)
      + messageCoefficient message (2 * block + r))).toNat = f (2 * block + r))
    (hf : ∀ n, f n < 16) :
    packV p message block = (List.range 1).map fun j =>
      UInt8.ofNat (∑ t ∈ Finset.range 8,
        f ((8 * (1 * block + j) + t) / 4) / 2 ^ ((8 * (1 * block + j) + t) % 4) % 2 * 2 ^ t) := by
  have h0 := hp 0 (by omega)
  have h1 := hp 1 (by omega)
  have hlt0 := hf (2 * block)
  have hlt1 := hf (2 * block + 1)
  have hor := Nat.two_pow_add_eq_or_of_lt (show f (2 * block) < 2 ^ 4 from hlt0) (f (2 * block + 1))
  rw [Nat.add_zero] at h0
  simp only [encodedByte_block f rfl (show 8 * 1 = 4 * 2 by decide) (show 0 < 4 by decide), packV,
    List.range, List.range.loop, List.map_cons, List.map_nil, List.cons.injEq, and_true,
    ← UInt8.toNat_inj, UInt8.toNat_ofNat', UInt8.toNat_or, UInt8.toNat_shiftLeft, h0, h1,
    UInt8.reduceToNat, Nat.shiftLeft_eq, Finset.sum_range_succ, Finset.sum_range_zero,
    Nat.reduceAdd, Nat.reduceMul, Nat.reduceDiv, Nat.reduceMod, Nat.reducePow, Nat.add_zero]
    at hor ⊢
  rw [Nat.mod_eq_of_lt (by omega), Nat.or_comm, Nat.mul_comm, ← hor]
  omega

/-- The chunks that `write_compressed_v` writes are the encoding with four bits. -/
theorem flatten_packV {p : Polynomial} {message : Bytes} {f : Nat → Nat}
    (hp : ∀ i < 256, (compress4 (p i + messageCoefficient message i)).toNat = f i)
    (hf : ∀ n, f n < 16) :
    ((List.range 128).map (packV p message)).flatten = Fips203.byteEncode 4 f := by
  rw [Fips203.byteEncode, show 32 * 4 = 128 * 1 by decide]
  apply flatten_chunks
  intro block hblock
  exact packV_eq (fun r hr => hp _ (by omega)) hf

end C0PQLink
