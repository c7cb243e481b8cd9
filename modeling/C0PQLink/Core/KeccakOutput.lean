import C0PQLink.Core.KeccakStream

/-!
# The output of the Keccak functions

The sponge of `core/keccak.c` works on bytes, the one of the standard on strings of bits.

* `keccakBytes_bits`: the permutation on the bits of a state.
* `keccakPadding_bits`: the suffix of a function and the rule `pad10*1`.
* `keccak_fips202`: the output of any sequence of calls.
-/

namespace C0PQLink

open Foundation

/-! ## Bits of bytes -/

def byteBits (x : UInt8) : Fips202.Bits := (List.range 8).map fun i => x.toNat.testBit i

theorem bitsOf_eq (b : Bytes) : Fips202.bitsOf b = b.flatMap byteBits := rfl

theorem length_byteBits (x : UInt8) : (byteBits x).length = 8 := by
  rw [byteBits, List.length_map, List.length_range]

theorem bitsOf_append (a b : Bytes) :
    Fips202.bitsOf (a ++ b) = Fips202.bitsOf a ++ Fips202.bitsOf b := List.flatMap_append

theorem length_bitsOf (b : Bytes) : (Fips202.bitsOf b).length = 8 * b.length :=
  length_flatMap_encode length_byteBits b

theorem byteBits_xor (x y : UInt8) :
    byteBits (x ^^^ y) = List.zipWith (· ^^ ·) (byteBits x) (byteBits y) := by
  rw [byteBits, byteBits, byteBits, List.zipWith_map, List.zipWith_self]
  refine List.map_congr_left fun i _ => ?_
  rw [UInt8.toNat_xor, Nat.testBit_xor]

theorem bitsOf_replicate_zero (n : Nat) :
    Fips202.bitsOf (List.replicate n 0) = List.replicate (8 * n) false := by
  induction n with
  | zero => rfl
  | succ n ih =>
    have hzero : byteBits 0 = List.replicate 8 false := by decide
    rw [List.replicate_succ, bitsOf_eq, List.flatMap_cons, ← bitsOf_eq, ih, hzero,
      List.replicate_append_replicate]
    congr 1
    omega

/-! ## The bits of a state -/

def laneBits (v : UInt64) : Fips202.Bits := (List.finRange 64).map (laneBit v)

theorem length_laneBits (v : UInt64) : (laneBits v).length = 64 := by
  rw [laneBits, List.length_map, List.length_finRange]

theorem store_bits (v : UInt64) : (storeLittleEndian v 8).flatMap byteBits = laneBits v := by
  have hlength : ((storeLittleEndian v 8).flatMap byteBits).length = 64 := by
    rw [length_flatMap_encode length_byteBits, length_store]
  refine List.ext_getElem (by rw [hlength, length_laneBits]) fun i hi _ => ?_
  rw [hlength] at hi
  have hdiv : i / 8 < (storeLittleEndian v 8).length := by
    rw [length_store]
    omega
  have hmod : i % 8 < 8 := Nat.mod_lt _ (by decide)
  have hbit := getD_flatMap_encode length_byteBits hdiv hmod false
  rw [Nat.div_add_mod, List.getD_eq_getElem _ _ (by rw [hlength]; exact hi)] at hbit
  have hbyte : (storeLittleEndian v 8).get ⟨i / 8, hdiv⟩
      = (v >>> UInt64.ofNat (8 * (i / 8))).toUInt8 := by
    rw [← getD_store v (show i / 8 < 8 by omega), List.getD_eq_getElem _ _ hdiv]
    rfl
  rw [hbit, hbyte, List.getD_eq_getElem _ _ (by rw [length_byteBits]; exact hmod)]
  simp only [byteBits, laneBits, laneBit, List.getElem_map, List.getElem_range,
    List.getElem_finRange]
  rw [UInt64.toNat_toUInt8, UInt64.toNat_shiftRight, toNat_shift_amount (by omega),
    Nat.testBit_mod_two_pow, Nat.testBit_shiftRight, Nat.div_add_mod]
  simp [hmod]
  rfl

theorem bitsOf_stateBytes (state : List UInt64) :
    Fips202.bitsOf (stateBytes state) = state.flatMap laneBits := by
  rw [bitsOf_eq, stateBytes, List.flatMap_assoc]
  exact List.flatMap_congr fun v _ => store_bits v

theorem toArray_bits {state : List UInt64} (h : state.length = 25) :
    Fips202.toArray (Fips202.bitsOf (stateBytes state)) = stateArray state := by
  funext x y z
  have hlane : 5 * y.val + x.val < state.length := by omega
  have hbit := getD_flatMap_encode length_laneBits hlane z.isLt false
  rw [Fips202.toArray, bitsOf_stateBytes, hbit, stateArray, lane,
    List.getD_eq_getElem _ _ (by rw [length_laneBits]; exact z.isLt),
    List.getD_eq_getElem _ _ hlane]
  simp [laneBits]

theorem toString_bits {state : List UInt64} (h : state.length = 25) :
    Fips202.toString (stateArray state) = Fips202.bitsOf (stateBytes state) := by
  have hlanes : state = (List.range 25).map fun i => state.getD i 0 := by
    refine List.ext_getElem (by simp [h]) fun i hi _ => ?_
    simp [hi]
  have hrange : List.range 25
      = (List.finRange 5).flatMap fun y => (List.finRange 5).map fun x => 5 * y.val + x.val := by
    decide
  rw [bitsOf_stateBytes]
  conv_rhs => rw [hlanes, hrange]
  rw [List.flatMap_map, List.flatMap_assoc, Fips202.toString]
  refine List.flatMap_congr fun y _ => ?_
  rw [List.flatMap_map]
  rfl

/-- The permutation on the bits of a state. -/
theorem keccakF1600_bits {state : List UInt64} (h : state.length = 25) :
    Fips202.bitsOf (stateBytes (keccakF1600 state))
      = Fips202.keccakP (Fips202.bitsOf (stateBytes state)) := by
  obtain ⟨hlength, harray⟩ := keccakF1600_array h
  rw [← toString_bits hlength, harray, Fips202.keccakP, toArray_bits h]

theorem keccakBytes_bits {b : Bytes} (h : b.length = 200) :
    (keccakBytes b).flatMap byteBits = Fips202.keccakP (b.flatMap byteBits) := by
  have hlanes : (lanesOf b).length = 25 := by
    rw [lanesOf, List.length_map, List.length_range]
  have hbits := keccakF1600_bits hlanes
  rwa [stateBytes_lanesOf h] at hbits

/-! ## The sponge of the standard -/

theorem length_toString (a : Fips202.StateArray) : (Fips202.toString a).length = 1600 := by
  simp [Fips202.toString]

theorem keccakP_keepsWidth : KeepsWidth Fips202.keccakP 1600 := fun _ _ => length_toString _

theorem xorBits_block {r : Nat} (hr : r ≤ 1600) {state block : Fips202.Bits}
    (hstate : state.length = 1600) (hblock : block.length = r) :
    Fips202.xorBits state (block ++ List.replicate (1600 - r) false)
      = addFront (· ^^ ·) state block := by
  have hwhole : (block ++ List.replicate (1600 - r) false).length = state.length := by
    rw [List.length_append, List.length_replicate, hblock, hstate]
    omega
  rw [← addFront_append_replicate (· ^^ ·) Bool.xor_false (n := 1600 - r)
    (by rw [hblock, hstate]; omega), addFront, hwhole, List.drop_length, List.append_nil]
  rfl

/-- Algorithm 8 in the words of the library. -/
theorem sponge_eq {f : Fips202.Bits → Fips202.Bits} (hf : KeepsWidth f 1600) {r : Nat}
    (hr : r ≤ 1600) (n : Fips202.Bits) (d : Nat) :
    Fips202.sponge f r n d
      = squeezed f r (absorbed (· ^^ ·) f r (List.replicate 1600 false)
          (n ++ Fips202.pad r n.length)) d := by
  have hfold (blocks : List Fips202.Bits) (hblocks : ∀ block ∈ blocks, block.length = r)
      (start : Fips202.Bits) (hstart : start.length = 1600) :
      blocks.foldl (fun s block =>
          f (Fips202.xorBits s (block ++ List.replicate (1600 - r) false))) start
        = blocks.foldl (fun s block => f (addFront (· ^^ ·) s block)) start := by
    induction blocks generalizing start with
    | nil => rfl
    | cons block blocks ih =>
      have hblock := hblocks block List.mem_cons_self
      rw [List.foldl_cons, List.foldl_cons, xorBits_block hr hstart hblock]
      exact ih (fun other hmem => hblocks other (List.mem_cons_of_mem _ hmem)) _
        (hf _ (by rw [length_addFront _ (by omega), hstart]))
  rw [Fips202.sponge, absorbed, hfold _ (fun block hmem => length_of_mem_fullBlocks hmem) _
    List.length_replicate]
  rfl

/-! ## The functions -/

def keccakInitOf : Fips202.Algorithm → KeccakCtx
  | .sha3_256 => sha3_256Init
  | .sha3_512 => sha3_512Init
  | .shake128 => shake128Init
  | .shake256 => shake256Init

theorem keccakInitOf_eq (algorithm : Fips202.Algorithm) :
    keccakInitOf algorithm
      = keccakInit (keccakInitOf algorithm).rate (keccakInitOf algorithm).domain := by
  cases algorithm <;> rfl

theorem rate_eq (algorithm : Fips202.Algorithm) :
    8 * (keccakInitOf algorithm).rate = 1600 - algorithm.capacity := by
  cases algorithm <;> rfl

theorem rate_range (algorithm : Fips202.Algorithm) :
    0 < (keccakInitOf algorithm).rate ∧ (keccakInitOf algorithm).rate ≤ 200 := by
  cases algorithm <;> decide

theorem suffix_short (algorithm : Fips202.Algorithm) : algorithm.suffix.length + 2 < 8 := by
  cases algorithm <;> decide

/-- The domain byte holds the suffix and the first bit of the padding. -/
theorem domain_bits (algorithm : Fips202.Algorithm) :
    byteBits (keccakInitOf algorithm).domain
      = algorithm.suffix ++ true :: List.replicate (7 - algorithm.suffix.length) false := by
  cases algorithm <;> decide

/-- The domain byte that is also the last one of its block. -/
theorem domain_last_bits (algorithm : Fips202.Algorithm) :
    byteBits ((keccakInitOf algorithm).domain ^^^ 0x80)
      = algorithm.suffix
        ++ true :: (List.replicate (6 - algorithm.suffix.length) false ++ [true]) := by
  cases algorithm <;> decide

/-- The number of zeros that `pad10*1` puts between its two ones. -/
theorem pad_zeros {rate : Nat} (hrate : 0 < rate) {length suffix : Nat} (hsuffix : suffix + 2 < 8) :
    (8 * rate - (8 * length + suffix + 2) % (8 * rate)) % (8 * rate)
      = 8 * (rate - length % rate) - suffix - 2 := by
  have hmod := Nat.mod_lt length hrate
  have hlength := Nat.div_add_mod length rate
  have hsplit : 8 * length + suffix + 2
      = 8 * (length % rate) + suffix + 2 + 8 * rate * (length / rate) := by
    rw [Nat.mul_assoc]
    omega
  rw [hsplit, Nat.add_mul_mod_self_left, Nat.mod_eq_of_lt (a := 8 * (length % rate) + suffix + 2)
    (by omega), Nat.mod_eq_of_lt (by omega)]
  omega

theorem keccakPadding_bits (algorithm : Fips202.Algorithm) {rate : Nat} (hrate : 0 < rate)
    (length : Nat) :
    Fips202.bitsOf (keccakPadding (keccakInitOf algorithm).domain (rate - length % rate))
      = algorithm.suffix
        ++ Fips202.pad (8 * rate) (8 * length + algorithm.suffix.length) := by
  have hshort := suffix_short algorithm
  have hmod := Nat.mod_lt length hrate
  obtain ⟨k, hk⟩ : ∃ k, rate - length % rate = k + 1 := ⟨rate - length % rate - 1, by omega⟩
  rw [Fips202.pad, pad_zeros hrate hshort, hk, keccakPadding, Nat.add_sub_cancel]
  cases k with
  | zero =>
    rw [List.replicate_zero, List.modify_zero_cons, bitsOf_eq, List.flatMap_singleton,
      domain_last_bits]
    have hzeros : 8 * (0 + 1) - algorithm.suffix.length - 2 = 6 - algorithm.suffix.length := by
      omega
    rw [hzeros]
    rfl
  | succ k =>
    have hlast : byteBits ((0 : UInt8) ^^^ 0x80) = List.replicate 7 false ++ [true] := by decide
    have hmodify : (List.replicate (k + 1) (0 : UInt8)).modify k (· ^^^ 0x80)
        = List.replicate k 0 ++ [0 ^^^ 0x80] := by
      have happend := List.modifyTailIdx_add (List.modifyHead (· ^^^ 0x80)) 0
        (List.replicate k (0 : UInt8)) [0]
      rw [List.length_replicate, Nat.add_zero, ← List.replicate_succ'] at happend
      exact happend
    have hzeros : 8 * (k + 1 + 1) - algorithm.suffix.length - 2
        = (7 - algorithm.suffix.length) + 8 * k + 7 := by
      omega
    rw [List.modify_succ_cons, hmodify, bitsOf_eq, List.flatMap_cons, domain_bits, ← bitsOf_eq,
      bitsOf_append, bitsOf_replicate_zero, bitsOf_eq, List.flatMap_singleton, hlast, hzeros,
      List.replicate_add, List.replicate_add]
    simp only [List.append_assoc, List.cons_append, List.nil_append]

/-- The state behind a padded message on the bits. -/
theorem keccakPadded_bits (algorithm : Fips202.Algorithm) (message : Bytes) :
    (keccakPadded (keccakInitOf algorithm).rate (keccakInitOf algorithm).domain message).flatMap
        byteBits
      = absorbed (· ^^ ·) Fips202.keccakP (1600 - algorithm.capacity) (List.replicate 1600 false)
          (Fips202.bitsOf message ++ algorithm.suffix
            ++ Fips202.pad (1600 - algorithm.capacity)
              (Fips202.bitsOf message ++ algorithm.suffix).length) := by
  obtain ⟨hrate, hwidth⟩ := rate_range algorithm
  rw [keccakPadded, absorbed_encode length_byteBits (by decide) byteBits_xor
    keccakBytes_keepsWidth (fun b hb => keccakBytes_bits hb) hwidth List.length_replicate,
    ← bitsOf_eq, ← bitsOf_eq, bitsOf_replicate_zero, bitsOf_append,
    keccakPadding_bits algorithm hrate, rate_eq, List.length_append, length_bitsOf,
    List.append_assoc]

/-! ## Sequences of calls -/

/-- The output of the calls is the one of the standard for the message, the permutation is the
one of the standard, and nothing is absorbed any more after a squeeze. -/
theorem keccak_fips202 :
    (∀ (algorithm : Fips202.Algorithm) (calls : List KeccakCall),
      Fips202.bitsOf (keccakRun (keccakInitOf algorithm) calls).1
        = algorithm.output (Fips202.bitsOf (absorbedMessage calls)) (8 * requested calls))
    ∧ (∀ state : List UInt64, state.length = 25 →
      Fips202.bitsOf (stateBytes (keccakF1600 state))
        = Fips202.keccakP (Fips202.bitsOf (stateBytes state)))
    ∧ ∀ (ctx : KeccakCtx) (calls : List KeccakCall) (length : Nat) (input : Bytes),
      KeccakCall.squeeze length ∈ calls →
        keccakAbsorb (keccakRun ctx calls).2 input = (keccakRun ctx calls).2 := by
  refine ⟨fun algorithm calls => ?_, fun state h => keccakF1600_bits h,
    fun ctx calls length input hmem => ?_⟩
  · obtain ⟨hrate, hwidth⟩ := rate_range algorithm
    have hinit := keccakInit_absorbing (keccakInitOf algorithm).rate (keccakInitOf algorithm).domain
    rw [← keccakInitOf_eq] at hinit
    have hlength : (keccakPadded (keccakInitOf algorithm).rate (keccakInitOf algorithm).domain
        (absorbedMessage calls)).length = 200 :=
      length_absorbed _ keccakBytes_keepsWidth hwidth List.length_replicate _
    rw [hinit.run hrate hwidth calls, List.nil_append,
      ← squeezed_eq_map keccakBytes_keepsWidth hrate hwidth hlength, bitsOf_eq,
      squeezed_encode length_byteBits (by decide) keccakBytes_keepsWidth
        (fun b hb => keccakBytes_bits hb) _ hlength,
      rate_eq, keccakPadded_bits, Fips202.Algorithm.output, Fips202.keccak,
      sponge_eq keccakP_keepsWidth (Nat.sub_le _ _)]
  · exact keccakAbsorb_squeezing (squeezing_of_mem hmem) input

end C0PQLink
