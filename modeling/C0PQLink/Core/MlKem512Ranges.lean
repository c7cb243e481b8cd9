import C0PQLink.Core.MlKem512Operations
import C0PQLink.Core.MlKem512Correctness

/-!
# The ranges of the signed arithmetic

Where the mathematical results of the signed operations of the encapsulation lie, whatever
the callbacks return and whatever the loop of `matrix_product_add` reads as its table.

* `ArithmeticNote.Allowed`: the range of each kind of note. Only the product at the start of
  `montgomery_reduce` has none.
* `Safe`: programs all of whose marks are in their range; `encapsulateDerand_safe` carries
  the bounds on the coefficients through the layers of the transforms.
* `deferred_reductions_exact`: sums that are stored without a reduction do not wrap.
-/

namespace C0PQLink

open Foundation

/-- The range of an `int` of 32 bits. -/
def InInt (value : Int) : Prop := -2147483648 ≤ value ∧ value ≤ 2147483647

def ArithmeticNote.Allowed : ArithmeticNote → Prop
  | .signed result => InInt result
  | .stored result => -32768 ≤ result ∧ result ≤ 32767
  | .reduces value => |value.toInt| < 3329 * 2 ^ 15
  | .multiplies result => |result.toInt| < 3329
  | .inverts coefficient => |coefficient.toInt| ≤ 1664

/-- A coefficient that is at most `bound` from zero. -/
structure Within (bound : Int) (a : Int16) : Prop where
  low : -bound ≤ a.toInt
  high : a.toInt ≤ bound

namespace Within

variable {m n : Int} {a b : Int16}

theorem represents (h : Within m a) : Represents m a (a.toInt : Fips203.Zq) :=
  ⟨h.low, h.high, rfl⟩

theorem of_represents {x : Fips203.Zq} (h : Represents m a x) : Within m a := ⟨h.low, h.high⟩

theorem mono (h : Within m a) (hmn : m ≤ n) : Within n a :=
  of_represents (h.represents.mono hmn)

theorem add (ha : Within m a) (hb : Within n b) (hfits : m + n ≤ 32767) : Within (m + n) (a + b) :=
  of_represents (ha.represents.add hb.represents hfits)

theorem sub (ha : Within m a) (hb : Within n b) (hfits : m + n ≤ 32767) : Within (m + n) (a - b) :=
  of_represents (ha.represents.sub hb.represents hfits)

theorem all (a : Int16) : Within 32768 a := of_represents (represents_self a)

theorem fqmul (ha : Within m a) (hb : Within n b) (hfits : m * n < 109084672) :
    Within 3328 (C0PQLink.fqmul a b) :=
  of_represents (fqmul_represents ha.represents hb.represents hfits)

theorem barrettReduce (a : Int16) : Within 1664 (C0PQLink.barrettReduce a) :=
  of_represents (barrettReduce_represents (represents_self a))

theorem loadZeta {k : Nat} (hk : k < 128) : Within 1664 (C0PQLink.loadZeta k) :=
  of_represents (loadZeta_represents hk)

end Within

namespace WithNotes

open Noted (All all_bind all_pure all_note all_entries entries)
open ArithmeticNote (Allowed)

/-! ## Modular arithmetic on machine words -/

theorem signed_all {result : Int} (h : InInt result) : All Allowed (signed result) := all_note h

theorem stored_all {result : Int} (hlow : -32768 ≤ result) (hhigh : result ≤ 32767) :
    All Allowed (stored result) :=
  all_note ⟨hlow, hhigh⟩

theorem inInt_natCast {value : Nat} (h : value < 2147483648) : InInt value :=
  ⟨by omega, by omega⟩

theorem shiftsRight_all {value : Nat} (count : Nat) (h : value < 2147483648) :
    All Allowed (shiftsRight value count) :=
  signed_all (inInt_natCast ((Nat.div_le_self ..).trans_lt h))

theorem shiftsLeft_all {value count : Nat} (h : value * 2 ^ count < 2147483648) :
    All Allowed (shiftsLeft value count) :=
  signed_all (inInt_natCast h)

theorem multiplyU8Fixed_all (a b : UInt8) : All Allowed (multiplyU8Fixed a b) := by
  have ha := a.toNat_lt
  have hb := b.toNat_lt
  have hproduct : a.toNat * b.toNat ≤ 255 * 255 := Nat.mul_le_mul (by omega) (by omega)
  exact all_bind (signed_all ⟨by omega, by omega⟩) (all_pure _)

theorem multiplyU16Fixed_all (a b : UInt16) : All Allowed (multiplyU16Fixed a b) := by
  have ha := a.toNat_lt
  have hb := b.toNat_lt
  refine all_bind (multiplyU8Fixed_all _ _) (all_bind (shiftsRight_all 8 (by omega)) ?_)
  refine all_bind (multiplyU8Fixed_all _ _) (all_bind (shiftsRight_all 8 (by omega)) ?_)
  refine all_bind (multiplyU8Fixed_all _ _) (all_bind (shiftsRight_all 8 (by omega)) ?_)
  refine all_bind (shiftsRight_all 8 (by omega)) ?_
  exact all_bind (multiplyU8Fixed_all _ _) (all_pure _)

theorem multiplyS16ConstantSchedule_all (a b : Int16) :
    All Allowed (multiplyS16ConstantSchedule a b) := by
  have ha := a.toUInt16.toNat_lt
  have hb := b.toUInt16.toNat_lt
  refine all_bind (shiftsRight_all 15 (by omega)) (all_bind (shiftsRight_all 15 (by omega)) ?_)
  exact all_bind (multiplyU16Fixed_all _ _) (all_pure _)

@[simp] theorem value_multiplyS16ConstantSchedule (a b : Int16) :
    (multiplyS16ConstantSchedule a b).value = C0PQLink.multiplyS16ConstantSchedule a b := rfl

theorem montgomeryReduce_all {value : Int32} (h : |value.toInt| < 3329 * 2 ^ 15) :
    All Allowed (montgomeryReduce value) := by
  obtain ⟨hlow, hhigh⟩ := abs_lt.mp h
  have hword := (value - (C0PQLink.multiplyS16ConstantSchedule
    (value.toInt16.toUInt16 * mlkemQinv).toInt16 mlkemQ)).le_toInt
  have hword' := (value - (C0PQLink.multiplyS16ConstantSchedule
    (value.toInt16.toUInt16 * mlkemQinv).toInt16 mlkemQ)).toInt_lt
  have hproduct : (C0PQLink.multiplyS16ConstantSchedule
      (value.toInt16.toUInt16 * mlkemQinv).toInt16 mlkemQ).toInt
      = (value.toInt16.toUInt16 * mlkemQinv).toInt16.toInt * 3329 := by
    rw [multiplyS16ConstantSchedule_toInt]
    rfl
  have hfactor := (value.toInt16.toUInt16 * mlkemQinv).toInt16.le_toInt
  have hfactor' := (value.toInt16.toUInt16 * mlkemQinv).toInt16.toInt_lt
  refine all_bind (all_note h) (all_bind (multiplyS16ConstantSchedule_all _ _) ?_)
  rw [value_multiplyS16ConstantSchedule]
  refine all_bind (signed_all ⟨by omega, by omega⟩) ?_
  exact all_bind (signed_all ⟨by omega, by omega⟩) (all_pure _)

theorem barrettReduce_all (value : Int16) : All Allowed (barrettReduce value) := by
  have hvalue := value.le_toInt
  have hvalue' := value.toInt_lt
  have hproduct : (C0PQLink.multiplyS16ConstantSchedule
      (Int16.ofInt ((2 ^ 26 + 3329 / 2) / 3329)) value).toInt = 20159 * value.toInt := by
    rw [multiplyS16ConstantSchedule_toInt]
    rfl
  generalize hrounded : C0PQLink.multiplyS16ConstantSchedule
    (Int16.ofInt ((2 ^ 26 + 3329 / 2) / 3329)) value = product at hproduct
  have hsum := (product + 0x2000000).le_toInt
  have hsum' := (product + 0x2000000).toInt_lt
  refine all_bind (signed_all ⟨by decide, by decide⟩) ?_
  refine all_bind (signed_all ⟨by decide, by decide⟩) ?_
  refine all_bind (signed_all ⟨by decide, by decide⟩) ?_
  refine all_bind (signed_all ⟨by decide, by decide⟩) ?_
  refine all_bind (multiplyS16ConstantSchedule_all _ _) ?_
  rw [value_multiplyS16ConstantSchedule, hrounded]
  refine all_bind (signed_all ⟨by decide, by decide⟩) ?_
  refine all_bind (signed_all ⟨by omega, by omega⟩) ?_
  refine all_bind (signed_all ⟨by omega, by omega⟩) ?_
  refine all_bind (multiplyS16ConstantSchedule_all _ _) ?_
  rw [value_multiplyS16ConstantSchedule]
  have hmultiple := (C0PQLink.multiplyS16ConstantSchedule
    ((product + 0x2000000) >>> 26).toInt16 mlkemQ).toInt16.le_toInt
  have hmultiple' := (C0PQLink.multiplyS16ConstantSchedule
    ((product + 0x2000000) >>> 26).toInt16 mlkemQ).toInt16.toInt_lt
  exact all_bind (signed_all ⟨by omega, by omega⟩) (all_pure _)

theorem fqmul_all {m n : Int} {a b : Int16} (ha : Within m a) (hb : Within n b)
    (hfits : m * n < 109084672) : All Allowed (fqmul a b) := by
  have hproduct := multiplyS16ConstantSchedule_toInt a b
  have hbound : |a.toInt * b.toInt| ≤ m * n := by
    have hm := abs_le.mpr ⟨ha.low, ha.high⟩
    rw [abs_mul]
    exact mul_le_mul hm (abs_le.mpr ⟨hb.low, hb.high⟩) (abs_nonneg _) ((abs_nonneg _).trans hm)
  have hresult := ha.fqmul hb hfits
  have hvalue : (montgomeryReduce (multiplyS16ConstantSchedule a b).value).value
      = C0PQLink.fqmul a b := rfl
  refine all_bind (multiplyS16ConstantSchedule_all a b) ?_
  refine all_bind (montgomeryReduce_all ?_) (all_bind (all_note ?_) (all_pure _))
  · rw [value_multiplyS16ConstantSchedule, hproduct]
    omega
  · rw [hvalue]
    exact abs_lt.mpr ⟨by have := hresult.low; omega, by have := hresult.high; omega⟩

theorem freezeCoefficient_all (value : Int16) : All Allowed (freezeCoefficient value) := by
  have hreduced := (C0PQLink.barrettReduce value).le_toInt
  have hreduced' := (C0PQLink.barrettReduce value).toInt_lt
  have hmask := ((C0PQLink.barrettReduce value >>> 15) &&& mlkemQ).le_toInt
  have hmask' := ((C0PQLink.barrettReduce value >>> 15) &&& mlkemQ).toInt_lt
  refine all_bind (barrettReduce_all value) ?_
  rw [value_barrettReduce]
  refine all_bind (signed_all ⟨by omega, by omega⟩) ?_
  exact all_bind (signed_all ⟨by omega, by omega⟩) (all_pure _)

/-! ## The transforms -/

theorem nttButterfly_all {n : Nat} (hn : n < 7) {k : Nat} (hk : k < 128) {x y : Int16}
    (hx : Within (3 + 3328 * n) x) (hy : Within (3 + 3328 * n) y) :
    All Allowed (nttButterfly k x y)
      ∧ Within (3 + 3328 * (n + 1 : Nat)) (nttButterfly k x y).value.1
      ∧ Within (3 + 3328 * (n + 1 : Nat)) (nttButterfly k x y).value.2 := by
  have hproduct := (Within.loadZeta hk).fqmul hy (by omega)
  have hlow := hx.low
  have hhigh := hx.high
  have hlow' := hproduct.low
  have hhigh' := hproduct.high
  refine ⟨?_, ?_, ?_⟩
  · refine all_bind (fqmul_all (Within.loadZeta hk) hy (by omega)) ?_
    rw [value_fqmul]
    refine all_bind (stored_all (by omega) (by omega)) ?_
    exact all_bind (stored_all (by omega) (by omega)) (all_pure _)
  · exact (hx.add hproduct (by omega)).mono (by push_cast; omega)
  · exact (hx.sub hproduct (by omega)).mono (by push_cast; omega)

theorem ntt_all {p : Polynomial} (hp : ∀ i < 256, Within 3 (p i)) : All Allowed (ntt p) := by
  have hvalid : ∀ count < blockCount 256 [128, 64, 32, 16, 8, 4, 2],
      (fun k => k + 1)^[count] 1 < 128 := by
    intro count hcount
    rw [iterate_add_one]
    have : blockCount 256 [128, 64, 32, 16, 8, 4, 2] = 127 := by decide
    omega
  exact all_bind (Noted.notedLayers_all (fun n a => Within (3 + 3328 * n) a) (· < 128)
    nttButterfly (fun n hn k hk x y hx hy => nttButterfly_all hn hk hx hy)
    (show Fits 256 [128, 64, 32, 16, 8, 4, 2] by decide) (show 0 + 7 ≤ 7 by decide) hvalid hp)
    (all_pure _)

theorem ntt_within {p : Polynomial} (hp : ∀ i < 256, Within 3 (p i)) :
    ∀ i < 256, Within 23299 (C0PQLink.ntt p i) := fun i hi =>
  Within.of_represents (ntt_represents (f := fun i => (p i).toInt)
    (fun i hi => (hp i hi).represents) i hi)

theorem inverseNttButterfly_all {k : Nat} (hk : k < 128) {x y : Int16} (hx : Within 3328 x)
    (hy : Within 3328 y) :
    All Allowed (inverseNttButterfly k x y)
      ∧ Within 3328 (inverseNttButterfly k x y).value.1
      ∧ Within 3328 (inverseNttButterfly k x y).value.2 := by
  have hdifference := hy.sub hx (by decide)
  have hlow := hx.low
  have hhigh := hx.high
  have hlow' := hy.low
  have hhigh' := hy.high
  refine ⟨?_, ?_, ?_⟩
  · refine all_bind (stored_all (by omega) (by omega)) (all_bind (barrettReduce_all _) ?_)
    refine all_bind (stored_all (by omega) (by omega)) ?_
    exact all_bind (fqmul_all (Within.loadZeta hk) hdifference (by decide)) (all_pure _)
  · exact (Within.barrettReduce _).mono (by decide)
  · exact (Within.loadZeta hk).fqmul hdifference (by decide)

theorem scale_within : Within 1441 1441 := ⟨by decide, by decide⟩

theorem inverseNtt_all {p : Polynomial} (hp : ∀ i < 256, Within 1664 (p i)) :
    All Allowed (inverseNtt p) := by
  have hvalid : ∀ count < blockCount 256 [2, 4, 8, 16, 32, 64, 128],
      (fun k => k - 1)^[count] 127 < 128 := by
    intro count _
    rw [iterate_sub_one]
    omega
  have hstart : ∀ i < 256, Within 3328 (p i) := fun i hi => (hp i hi).mono (by decide)
  have hlayers := butterflyLayers_keeps (fun _ a => Within 3328 a) (· < 128)
    C0PQLink.inverseNttButterfly (fun n _ k hk x y hx hy => (inverseNttButterfly_all hk hx hy).2)
    (show Fits 256 [2, 4, 8, 16, 32, 64, 128] by decide) (show 0 + 7 ≤ 7 by decide) hvalid hstart
  refine all_bind (all_entries fun i hi => all_note (abs_le.mpr ⟨(hp i hi).low, (hp i hi).high⟩)) ?_
  refine all_bind (Noted.notedLayers_all (fun _ a => Within 3328 a) (· < 128) inverseNttButterfly
    (fun n _ k hk x y hx hy => inverseNttButterfly_all hk hx hy)
    (show Fits 256 [2, 4, 8, 16, 32, 64, 128] by decide) (show 0 + 7 ≤ 7 by decide) hvalid hstart) ?_
  rw [Noted.value_notedLayers]
  exact all_entries fun i hi => fqmul_all (hlayers i hi) scale_within (by decide)

theorem inverseNtt_within {p : Polynomial} (hp : ∀ i < 256, Within 1664 (p i)) :
    ∀ i < 256, Within 3328 (C0PQLink.inverseNtt p i) := by
  intro i hi
  refine Within.of_represents
    (inverseNtt_represents (f := fun i => (p i).toInt * 2285) (fun i hi => ?_) i hi)
  rw [montgomery_cancel]
  exact ((hp i hi).mono (by decide)).represents

section

variable {m : Int} {accumulator : Int16 × Int16} {a0 a1 b0 b1 : Int16}
  (hfirst : Within m accumulator.1) (hsecond : Within m accumulator.2) (ha0 : Within 4095 a0)
  (ha1 : Within 4095 a1) (hb0 : Within 23299 b0) (hb1 : Within 23299 b1) (zeta : Int16)
  (hfits : m + 6656 ≤ 32767)

include ha0 ha1 hb0 hb1 in
/-- What is added to the even coefficient, for any factor. -/
theorem evenProduct_within :
    Within 6656 (C0PQLink.fqmul (C0PQLink.fqmul a1 b1) zeta + C0PQLink.fqmul a0 b0) :=
  ((ha1.fqmul hb1 (by decide)).fqmul (Within.all zeta) (by decide)).add
    (ha0.fqmul hb0 (by decide)) (by decide)

include hfirst hsecond ha0 ha1 hb0 hb1 hfits in
theorem baseMultiplyAdd_within :
    Within (m + 6656) (C0PQLink.baseMultiplyAdd accumulator a0 a1 b0 b1 zeta).1
      ∧ Within (m + 6656) (C0PQLink.baseMultiplyAdd accumulator a0 a1 b0 b1 zeta).2 := by
  have h01 := ha0.fqmul hb1 (by decide)
  have h10 := ha1.fqmul hb0 (by decide)
  constructor
  · exact hfirst.add (evenProduct_within ha0 ha1 hb0 hb1 zeta) hfits
  · exact ((hsecond.add h01 (by omega)).add h10 (by omega)).mono (by omega)

include hfirst hsecond ha0 ha1 hb0 hb1 hfits in
theorem baseMultiplyAdd_all : All Allowed (baseMultiplyAdd accumulator a0 a1 b0 b1 zeta) := by
  have h11 := ha1.fqmul hb1 (by decide)
  have hzeta := h11.fqmul (Within.all zeta) (by decide)
  have h00 := ha0.fqmul hb0 (by decide)
  have h01 := ha0.fqmul hb1 (by decide)
  have h10 := ha1.fqmul hb0 (by decide)
  have heven := evenProduct_within ha0 ha1 hb0 hb1 zeta
  obtain ⟨hfirstLow, hfirstHigh⟩ := hfirst
  obtain ⟨hsecondLow, hsecondHigh⟩ := hsecond
  obtain ⟨hzetaLow, hzetaHigh⟩ := hzeta
  obtain ⟨h00Low, h00High⟩ := h00
  obtain ⟨h01Low, h01High⟩ := h01
  obtain ⟨h10Low, h10High⟩ := h10
  obtain ⟨hevenLow, hevenHigh⟩ := heven
  refine all_bind (fqmul_all ha1 hb1 (by decide)) ?_
  rw [value_fqmul]
  refine all_bind (fqmul_all h11 (Within.all zeta) (by decide)) ?_
  rw [value_fqmul]
  refine all_bind (fqmul_all ha0 hb0 (by decide)) ?_
  rw [value_fqmul]
  refine all_bind (stored_all (by omega) (by omega)) ?_
  refine all_bind (stored_all (by omega) (by omega)) ?_
  refine all_bind (fqmul_all ha0 hb1 (by decide)) ?_
  rw [value_fqmul]
  refine all_bind (signed_all ⟨by omega, by omega⟩) ?_
  refine all_bind (fqmul_all ha1 hb0 (by decide)) ?_
  rw [value_fqmul]
  exact all_bind (stored_all (by omega) (by omega)) (all_pure _)

end

section

variable {m : Int} {accumulator a vector : Polynomial}
  (hacc : ∀ i < 256, Within m (accumulator i)) (ha : ∀ i < 256, Within 4095 (a i))
  (hvector : ∀ i < 256, Within 23299 (vector i)) (readZeta : Nat → Int16)
  (hfits : m + 6656 ≤ 32767)

include hacc ha hvector hfits in
theorem multiplyAdd_all : All Allowed (multiplyAdd readZeta accumulator a vector) := by
  refine all_bind (all_entries fun block hblock => ?_) (all_pure _)
  have hzeta := (readZeta (64 + block)).le_toInt
  have hzeta' := (readZeta (64 + block)).toInt_lt
  have hpair (base : Nat) (hbase : base + 1 < 256) (zeta : Int16) :
      All Allowed (baseMultiplyAdd (accumulator base, accumulator (base + 1)) (a base)
        (a (base + 1)) (vector base) (vector (base + 1)) zeta) :=
    baseMultiplyAdd_all (hacc base (by omega)) (hacc (base + 1) hbase) (ha base (by omega))
      (ha (base + 1) hbase) (hvector base (by omega)) (hvector (base + 1) hbase) zeta hfits
  refine all_bind (hpair (4 * block) (by omega) _) ?_
  refine all_bind (signed_all ⟨by omega, by omega⟩) ?_
  exact all_bind (hpair (4 * block + 2) (by omega) _) (all_pure _)

include hacc ha hvector hfits in
theorem multiplyAdd_within :
    ∀ i < 256, Within (m + 6656) (C0PQLink.multiplyAdd readZeta accumulator a vector i) := by
  intro i hi
  have hpair (base : Nat) (hbase : base + 1 < 256) (zeta : Int16) :
      let result := C0PQLink.baseMultiplyAdd (accumulator base, accumulator (base + 1)) (a base)
        (a (base + 1)) (vector base) (vector (base + 1)) zeta
      Within (m + 6656) result.1 ∧ Within (m + 6656) result.2 :=
    baseMultiplyAdd_within (hacc base (by omega)) (hacc (base + 1) hbase) (ha base (by omega))
      (ha (base + 1) hbase) (hvector base (by omega)) (hvector (base + 1) hbase) zeta hfits
  simp only [C0PQLink.multiplyAdd]
  split
  · exact (hpair (4 * (i / 4)) (by omega) _).1
  · exact (hpair (4 * (i / 4)) (by omega) _).2
  · exact (hpair (4 * (i / 4) + 2) (by omega) _).1
  · exact (hpair (4 * (i / 4) + 2) (by omega) _).2

end

/-! ## Sampling -/

theorem keccak_all {rate input output : Nat} (hrate : 0 < rate) (hlow : rate ≤ 65536) :
    All Allowed (keccak rate input output) := by
  have hadvance (n : Nat) : All Allowed (do shiftsRight (n % rate) 3; signed (n % rate + 1)) := by
    have hposition := Nat.mod_lt n hrate
    exact all_bind (shiftsRight_all 3 (by omega)) (signed_all ⟨by omega, by omega⟩)
  refine all_bind (all_entries fun n _ => hadvance n) ?_
  refine all_bind (shiftsRight_all 3 ((Nat.mod_lt input hrate).trans_le (by omega))) ?_
  exact all_bind (all_entries fun n _ => hadvance n) (all_pure _)

theorem popcount2_all (value : UInt8) : All Allowed (popcount2 value) := by
  have hvalue := value.toNat_lt
  exact all_bind (shiftsRight_all 1 (by omega)) (all_pure _)

theorem sampleCbd2_all (stream : Nat → UInt8) : All Allowed (sampleCbd2 stream) := by
  refine all_entries fun position _ => ?_
  have hbyte := (stream (position / 2)).toNat_lt
  have hnibble := (stream (position / 2) >>> UInt8.ofNat (4 * (position % 2))).toNat_lt
  refine all_bind (shiftsRight_all _ (by omega)) (all_bind (popcount2_all _) ?_)
  refine all_bind (shiftsRight_all _ (by omega)) (all_bind (popcount2_all _) ?_)
  have hlow := (popcount2 (stream (position / 2) >>> UInt8.ofNat (4 * (position % 2)))).value.toNat_lt
  have hhigh := (popcount2
    (stream (position / 2) >>> UInt8.ofNat (4 * (position % 2)) >>> 2)).value.toNat_lt
  exact all_bind (stored_all (by omega) (by omega)) (all_pure _)

theorem sampleCbd3_all (stream : Nat → UInt8) : All Allowed (sampleCbd3 stream) := by
  refine all_entries fun position _ => all_bind ?_ (all_pure _)
  have hdigit (word : UInt32) : (word &&& (7 : UInt32)).toNat ≤ 7 := by
    rw [UInt32.toNat_and]
    exact Nat.and_le_right
  have hdifference {a b : Nat} (ha : a ≤ 7) (hb : b ≤ 7) : All Allowed (stored (a - b)) :=
    stored_all (by omega) (by omega)
  exact hdifference (hdigit _) (hdigit _)

theorem decodeFirst_all (b0 b1 : UInt8) : All Allowed (decodeFirst b0 b1) := by
  have hbyte := (b1 &&& (0x0f : UInt8)).toNat_lt
  exact all_bind (shiftsLeft_all (by omega)) (all_pure _)

theorem decodeSecond_all (b1 b2 : UInt8) : All Allowed (decodeSecond b1 b2) := by
  have h1 := b1.toNat_lt
  have h2 := b2.toNat_lt
  exact all_bind (shiftsRight_all 4 (by omega)) (all_bind (shiftsLeft_all (by omega)) (all_pure _))

theorem readerValue_all (stream : Nat → UInt8) (k : Nat) : All Allowed (readerValue stream k) := by
  unfold readerValue
  split
  · exact decodeFirst_all _ _
  · exact decodeSecond_all _ _

/-- Twelve bits, also in a key that is not canonical. -/
theorem readerValue_within (stream : Nat → UInt8) (k : Nat) :
    Within 4095 (C0PQLink.readerValue stream k).toInt16 := by
  have hvalue := readerValue_toNat stream k
  have h0 := (stream (3 * (k / 2))).toNat_lt
  have h1 := (stream (3 * (k / 2) + 1)).toNat_lt
  have h2 := (stream (3 * (k / 2) + 2)).toNat_lt
  have hword := toInt_toUInt16 (C0PQLink.readerValue stream k).toInt16
  rw [UInt16.toUInt16_toInt16] at hword
  unfold Fips203.candidate at hvalue
  dsimp only at hvalue
  split at hvalue
  · exact ⟨by omega, by omega⟩
  · exact ⟨by omega, by omega⟩

section

variable (hashes : Fips203.Hashes)

theorem sampleCbd_all (seed : Bytes) (nonce : UInt8) (eta : Nat) :
    All Allowed (sampleCbd hashes seed nonce eta) := by
  refine all_bind (keccak_all (by decide) (by decide)) ?_
  split
  · exact sampleCbd2_all _
  · exact sampleCbd3_all _

theorem sampleCbd_within (seed : Bytes) (nonce : UInt8) (i : Nat) :
    Within 3 (C0PQLink.sampleCbd hashes seed nonce 3 i)
      ∧ Within 2 (C0PQLink.sampleCbd hashes seed nonce 2 i) :=
  ⟨Within.of_represents (sampleCbd_represents hashes seed nonce i).1,
    Within.of_represents (sampleCbd_represents hashes seed nonce i).2⟩

theorem sampleNttValues_all (seed : Bytes) : All Allowed (sampleNttValues hashes seed) := by
  refine all_bind (keccak_all (by decide) (by decide)) ?_
  exact all_bind (all_entries fun k _ => readerValue_all _ k) (all_pure _)

theorem sampleNttValues_within (seed : Bytes) (i : Nat) :
    Within 4095 (C0PQLink.sampleNttValues hashes seed i) :=
  (Within.of_represents (sampleNttValues_represents hashes seed i)).mono (by decide)

theorem keyCoefficients_all (encoded : Bytes) : All Allowed (keyCoefficients encoded) :=
  all_entries fun i _ => all_bind (readerValue_all _ i) (all_pure _)

end

/-! ## Compression -/

theorem packU_all (polynomial : Polynomial) (block : Nat) :
    All Allowed (packU polynomial block) := by
  have hcompress (a : Int16) : All Allowed (compress10 a) :=
    all_bind (freezeCoefficient_all a) (all_pure _)
  have hlt (a : Int16) := (compress10 a).value.toNat_lt
  have h0 := hlt (polynomial (4 * block))
  have h1 := hlt (polynomial (4 * block + 1))
  have h2 := hlt (polynomial (4 * block + 2))
  have h3 := hlt (polynomial (4 * block + 3))
  refine all_bind (hcompress _) (all_bind (hcompress _) ?_)
  refine all_bind (hcompress _) (all_bind (hcompress _) ?_)
  refine all_bind (shiftsRight_all 8 (by omega)) (all_bind (shiftsLeft_all (by omega)) ?_)
  refine all_bind (shiftsRight_all 6 (by omega)) (all_bind (shiftsLeft_all (by omega)) ?_)
  refine all_bind (shiftsRight_all 4 (by omega)) (all_bind (shiftsLeft_all (by omega)) ?_)
  exact all_bind (shiftsRight_all 2 (by omega)) (all_pure _)

theorem messageCoefficient_all (message : Bytes) (i : Nat) :
    All Allowed (messageCoefficient message i) := by
  have hbyte := (byteAt message (i / 8)).toNat_lt
  have hbit := (messageBit message i).toNat_lt
  exact all_bind (shiftsRight_all _ (by omega))
    (all_bind (signed_all ⟨by omega, by omega⟩) (all_pure _))

theorem packV_all {polynomial : Polynomial} (h : ∀ i < 256, Within 3330 (polynomial i))
    (message : Bytes) {block : Nat} (hblock : block < 128) :
    All Allowed (packV polynomial message block) := by
  have hcompress (a : Int16) : All Allowed (compress4 a) :=
    all_bind (freezeCoefficient_all a) (all_pure _)
  have hmessage (i : Nat) : Within 1665 (messageCoefficient message i).value :=
    Within.of_represents (messageCoefficient_represents message i)
  obtain ⟨hlow0, hhigh0⟩ := h (2 * block) (by omega)
  obtain ⟨hlow1, hhigh1⟩ := h (2 * block + 1) (by omega)
  obtain ⟨hlow0', hhigh0'⟩ := hmessage (2 * block)
  obtain ⟨hlow1', hhigh1'⟩ := hmessage (2 * block + 1)
  have hbyte := (compress4 (polynomial (2 * block + 1)
    + (messageCoefficient message (2 * block + 1)).value)).value.toNat_lt
  refine all_bind (messageCoefficient_all message _) ?_
  refine all_bind (messageCoefficient_all message _) ?_
  refine all_bind (stored_all (by omega) (by omega)) (all_bind (hcompress _) ?_)
  refine all_bind (stored_all (by omega) (by omega)) (all_bind (hcompress _) ?_)
  exact all_bind (shiftsLeft_all (by omega)) (all_pure _)

/-! ## The two parts of the ciphertext -/

section

variable (hashes : Fips203.Hashes)

/-- The noise that the loops over the columns transform. -/
theorem noise_within (coins : Bytes) (column : Nat) : ∀ i < 256,
    Within 3 (C0PQLink.sampleCbd hashes coins (UInt8.ofNat column) 3 i) := fun i _ =>
  (sampleCbd_within hashes coins (UInt8.ofNat column) i).1

theorem zero_within : ∀ i < 256, Within 0 ((fun _ => 0 : Polynomial) i) := by
  have hzero : Within 0 0 := ⟨by decide, by decide⟩
  exact fun _ _ => hzero

/-- Two columns, each with a sample, its transform and a product that is added. -/
theorem columns_all {coins : Bytes} {entry : Nat → Noted ArithmeticNote Polynomial}
    {readZeta : Nat → Int16} (hentry : ∀ column, All Allowed (entry column))
    (hwithin : ∀ column, ∀ i < 256, Within 4095 ((entry column).value i)) :
    All Allowed ((List.range 2).foldlM (fun accumulator column => do
      let noise ← sampleCbd hashes coins (UInt8.ofNat column) 3
      let vector ← ntt noise
      let a ← entry column
      multiplyAdd readZeta accumulator a vector) fun _ => 0) := by
  have hcolumn {m : Int} {accumulator : Polynomial} (column : Nat)
      (hacc : ∀ i < 256, Within m (accumulator i)) (hfits : m + 6656 ≤ 32767) :
      All Allowed (do
        let noise ← sampleCbd hashes coins (UInt8.ofNat column) 3
        let vector ← ntt noise
        let a ← entry column
        multiplyAdd readZeta accumulator a vector) := by
    refine all_bind (sampleCbd_all hashes _ _ _) ?_
    rw [value_sampleCbd]
    refine all_bind (ntt_all (noise_within hashes coins column)) ?_
    rw [value_ntt]
    exact all_bind (hentry column) (multiplyAdd_all hacc (hwithin column)
      (ntt_within (noise_within hashes coins column)) readZeta hfits)
  have hfirst := multiplyAdd_within zero_within (hwithin 0)
    (ntt_within (noise_within hashes coins 0)) readZeta (by decide)
  have hrange : List.range 2 = [0, 1] := rfl
  simp only [hrange, List.foldlM_cons, List.foldlM_nil]
  refine all_bind (hcolumn 0 zero_within (by decide)) ?_
  simp only [Noted.value_bind, value_sampleCbd, value_ntt, value_multiplyAdd]
  exact all_bind (hcolumn 1 hfirst (by decide)) (all_pure _)

theorem finishAccumulator_all (coins : Bytes) (nonce : UInt8) (product : Polynomial) :
    All Allowed (finishAccumulator hashes coins nonce product) := by
  have hreduced : ∀ i < 256, Within 1664 ((entries 256 fun i => barrettReduce (product i)).value i) :=
    fun i _ => Within.barrettReduce (product i)
  refine all_bind (all_entries fun i _ => barrettReduce_all _) ?_
  refine all_bind (inverseNtt_all hreduced) (all_bind (sampleCbd_all hashes _ _ _) ?_)
  rw [value_inverseNtt, value_sampleCbd]
  refine all_entries fun i hi => all_bind ?_ (all_pure _)
  obtain ⟨hlow, hhigh⟩ := inverseNtt_within hreduced i hi
  obtain ⟨hlow', hhigh'⟩ := (sampleCbd_within hashes coins nonce i).2
  exact stored_all (by omega) (by omega)

theorem finishAccumulator_within (coins : Bytes) (nonce : UInt8) (product : Polynomial) :
    ∀ i < 256, Within 3330 ((finishAccumulator hashes coins nonce product).value i) := by
  intro i hi
  rw [value_finishAccumulator]
  exact (inverseNtt_within (fun i _ => Within.barrettReduce (product i)) i hi).add
    (sampleCbd_within hashes coins nonce i).2 (by decide)

theorem rowPolynomial_all (zetaData : Nat → Int16) (rho coins : Bytes) (row : Nat) :
    All Allowed (rowPolynomial hashes zetaData rho coins row) :=
  all_bind (columns_all hashes (fun _ => sampleNttValues_all hashes _)
    fun _ i _ => sampleNttValues_within hashes _ i) (finishAccumulator_all hashes _ _ _)

theorem messagePolynomial_all (coins : Bytes) (encoded : Nat → Bytes) :
    All Allowed (messagePolynomial hashes coins encoded) :=
  all_bind (columns_all hashes (fun column => keyCoefficients_all (encoded column))
    fun column i _ => by
      rw [value_keyCoefficients]
      exact readerValue_within _ i) (finishAccumulator_all hashes _ _ _)

theorem messagePolynomial_within (coins : Bytes) (encoded : Nat → Bytes) :
    ∀ i < 256, Within 3330 ((messagePolynomial hashes coins encoded).value i) := by
  rw [messagePolynomial, Noted.value_bind]
  exact finishAccumulator_within hashes _ _ _

/-! ## The encapsulation -/

/-- All marks are allowed, whatever the calls return. -/
structure Safe {α : Type} (p : KemProgram α) : Prop where
  only : p.Only (Sum.elim (fun _ => True) Allowed)

namespace Safe

variable {α β : Type}

theorem pure (a : α) : Safe (Pure.pure a : KemProgram α) := ⟨Program.only_pure a⟩

theorem bind {p : KemProgram α} {f : α → KemProgram β} (hp : Safe p) (hf : ∀ a, Safe (f a)) :
    Safe (p >>= f) :=
  ⟨Program.only_bind hp.only fun a => (hf a).only⟩

theorem ite {c : Prop} [Decidable c] {p q : KemProgram α} (hp : Safe p) (hq : Safe q) :
    Safe (if c then p else q) :=
  ⟨Program.only_ite hp.only hq.only⟩

theorem emit_bind {x : Noted ArithmeticNote α} {f : α → KemProgram β} (h : All Allowed x)
    (hf : Safe (f x.value)) : Safe (Program.emit x >>= f) :=
  ⟨Program.only_emit_bind h hf.only⟩

theorem lift (p : Program Kem.Call Kem.Call.Reply α) : Safe (p.lift ArithmeticNote) :=
  ⟨(Program.only_true p).lift.mono fun e h => by
    cases e with
    | inl e => trivial
    | inr m => exact h.elim⟩

theorem mapM {f : α → KemProgram β} {as : List α} (h : ∀ a ∈ as, Safe (f a)) :
    Safe (as.mapM f) := by
  induction as with
  | nil =>
    rw [List.mapM_nil]
    exact Safe.pure _
  | cons a as ih =>
    rw [List.mapM_cons]
    exact (h a (List.mem_cons_self ..)).bind fun b =>
      (ih fun a' ha' => h a' (List.mem_cons_of_mem _ ha')).bind fun bs => Safe.pure _

theorem marks {p : KemProgram α} (h : Safe p) {σ : Type}
    (answer : (e : Kem.Call) → σ → e.Reply × σ) (s : σ) : ∀ m ∈ p.marks answer s, m.Allowed :=
  h.only.marks

end Safe

theorem readKeyBytes_safe (start : Nat) {count : Nat} (hcount : count ≤ 65535) :
    Safe (readKeyBytes start count) := by
  refine Safe.mapM fun i hi => (Safe.lift _).bind fun byte => ?_
  rw [List.mem_range] at hi
  exact Safe.emit_bind (signed_all ⟨by omega, by omega⟩) (Safe.pure _)

theorem checkTriples_safe (count offset : Nat) : Safe (checkTriples count offset) := by
  induction count generalizing offset with
  | zero => exact Safe.pure _
  | succ count ih =>
    refine (Safe.lift _).bind fun b0 => (Safe.lift _).bind fun b1 => (Safe.lift _).bind fun b2 => ?_
    refine Safe.emit_bind (decodeFirst_all b0 b1) (Safe.emit_bind (decodeSecond_all b1 b2) ?_)
    exact Safe.ite (Safe.pure _) (ih _)

theorem validateAndHashPublicKey_safe : Safe (validateAndHashPublicKey hashes) := by
  refine (readKeyBytes_safe 0 (by decide)).bind fun key => ?_
  refine Safe.emit_bind (keccak_all (by decide) (by decide)) ?_
  refine (checkTriples_safe _ _).bind fun canonical => ?_
  exact Safe.ite (Safe.pure _)
    ((readKeyBytes_safe 768 (by decide)).bind fun rho => Safe.pure _)

theorem writeEach_safe {chunks : List (Noted ArithmeticNote Bytes)}
    (h : ∀ chunk ∈ chunks, All Allowed chunk) : Safe (writeEach chunks) := by
  induction chunks with
  | nil => exact Safe.pure _
  | cons chunk rest ih =>
    refine Safe.emit_bind (h chunk (List.mem_cons_self ..)) ?_
    refine (Safe.lift _).bind fun status => Safe.ite (Safe.pure _) ?_
    exact ih fun chunk' hchunk' => h chunk' (List.mem_cons_of_mem _ hchunk')

theorem writeCompressedU_safe (polynomial : Polynomial) : Safe (writeCompressedU polynomial) := by
  refine writeEach_safe fun chunk hchunk => ?_
  obtain ⟨block, -, rfl⟩ := List.mem_map.mp hchunk
  exact packU_all polynomial block

theorem writeCompressedV_safe {polynomial : Polynomial}
    (h : ∀ i < 256, Within 3330 (polynomial i)) (message : Bytes) :
    Safe (writeCompressedV polynomial message) := by
  refine writeEach_safe fun chunk hchunk => ?_
  obtain ⟨block, hblock, rfl⟩ := List.mem_map.mp hchunk
  exact packV_all h message (List.mem_range.mp hblock)

theorem writeRows_safe (zetaData : Nat → Int16) (rho coins : Bytes) (rows : List Nat) :
    Safe (writeRows hashes zetaData rho coins rows) := by
  induction rows with
  | nil => exact Safe.pure _
  | cons row rest ih =>
    refine Safe.emit_bind (rowPolynomial_all hashes _ _ _ _) ?_
    exact (writeCompressedU_safe _).bind fun status => Safe.ite (Safe.pure _) ih

/-- Every operation of every run is in the range of its kind. -/
theorem encapsulateDerand_safe (zetaData : Nat → Int16) (randomness : Block 32) :
    Safe (encapsulateDerand hashes zetaData randomness) := by
  refine (validateAndHashPublicKey_safe hashes).bind fun validated => ?_
  cases validated with
  | error status => exact Safe.pure _
  | ok hashAndSeed =>
    have hsecret : All Allowed (deriveKAndCoins hashes randomness hashAndSeed.1) :=
      all_bind (keccak_all (by decide) (by decide)) (all_pure _)
    refine Safe.emit_bind hsecret ?_
    refine (writeRows_safe hashes _ _ _ _).bind fun status => Safe.ite (Safe.pure _) ?_
    refine (Safe.lift _).bind fun encoded0 => (Safe.lift _).bind fun encoded1 => ?_
    refine Safe.emit_bind (messagePolynomial_all hashes _ _) ?_
    refine (writeCompressedV_safe (messagePolynomial_within hashes _ _) _).bind fun status => ?_
    exact Safe.ite (Safe.pure _) (Safe.pure _)

/-! ## The operations of a run -/

section

variable (zetaData : Nat → Int16) (randomness : Block 32) {σ : Type}
  (answer : (e : Kem.Call) → σ → e.Reply × σ) (s : σ)

/-- The notes of a run whose calls are answered by `answer`, from the state `s`. -/
def operations : List ArithmeticNote :=
  (encapsulateDerand hashes zetaData randomness).marks answer s

theorem operations_allowed : ∀ m ∈ operations hashes zetaData randomness answer s, m.Allowed := by
  have hsafe := encapsulateDerand_safe hashes zetaData randomness
  exact hsafe.marks answer s

/-- What a reduction is deferred for stays in its range: every coefficient that is stored
without a reduction is the exact sum, every argument of `montgomery_reduce` is below
`3329 * 2 ^ 15`, so that every product is below 3329, and the inverse transform gets
coefficients of at most 1664. -/
theorem deferred_reductions_exact :
    (∀ sum, .stored sum ∈ operations hashes zetaData randomness answer s →
        -32768 ≤ sum ∧ sum ≤ 32767)
      ∧ (∀ value, .reduces value ∈ operations hashes zetaData randomness answer s →
        |value.toInt| < 3329 * 2 ^ 15)
      ∧ (∀ result, .multiplies result ∈ operations hashes zetaData randomness answer s →
        |result.toInt| < 3329)
      ∧ ∀ coefficient, .inverts coefficient ∈ operations hashes zetaData randomness answer s →
        |coefficient.toInt| ≤ 1664 := by
  have h := operations_allowed hashes zetaData randomness answer s
  exact ⟨fun _ hm => h _ hm, fun _ hm => h _ hm, fun _ hm => h _ hm, fun _ hm => h _ hm⟩

end

end

end WithNotes

end C0PQLink
