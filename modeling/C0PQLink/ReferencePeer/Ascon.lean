import Mathlib.Data.Int.Bitwise
import C0PQLink.Core.Ascon

/-!
# Ascon-AEAD128 of the reference peer

The Ascon functions of `reference-peer/protocol.mjs`, which work on unbounded integers
and mask them to 64 bits. All integers are nonnegative, so they are natural numbers here;
`~value & MASK64` is `notMask64 value`.

* `lnot_land_mask64`, `land_lnot`: the complements of the language, on unbounded integers.
* `asconRound_toPeer`, `permute12_toPeer`: one permutation for both implementations.
* `asconEncrypt_eq`, `asconDecrypt_eq`: the functions are those of the C client.
* `peerAscon_agrees`: the same with the status and the buffer of the C functions.
-/

namespace C0PQLink.ReferencePeer

open Foundation

def mask64 : Nat := 2 ^ 64 - 1

/-- `~value & MASK64`. -/
def notMask64 (value : Nat) : Nat := (value &&& mask64) ^^^ mask64

/-- The complement is masked before anything else is done with it. -/
theorem lnot_land_mask64 (value : Nat) :
    Int.land (Int.lnot value) mask64 = (notMask64 value : Nat) := by
  show ((Nat.ldiff mask64 value : Nat) : Int) = _
  congr 1
  apply Nat.eq_of_testBit_eq
  intro j
  rw [Nat.testBit_ldiff, notMask64, Nat.testBit_xor, Nat.testBit_and]
  cases mask64.testBit j <;> simp

/-- `output & ~mask`, where the complement is not masked. -/
theorem land_lnot (output mask : Nat) :
    Int.land output (Int.lnot mask) = (output ^^^ (output &&& mask) : Nat) := by
  show ((Nat.ldiff output mask : Nat) : Int) = _
  congr 1
  apply Nat.eq_of_testBit_eq
  intro j
  rw [Nat.testBit_ldiff, Nat.testBit_xor, Nat.testBit_and]
  cases output.testBit j <;> simp

/-! ## Byte order -/

def loadLE (bytes : Bytes) (offset length : Nat) : Nat :=
  (List.range length).foldl
    (fun value index => value ||| (byteAt bytes (offset + index)).toNat <<< (8 * index)) 0

/-- Each turn stores the low byte of `current` and shifts it out. -/
def storeLE : Nat → Nat → Bytes
  | _, 0 => []
  | current, length + 1 => UInt8.ofNat (current &&& 0xff) :: storeLE (current >>> 8) length

@[simp] theorem length_storeLE (value length : Nat) : (storeLE value length).length = length := by
  induction length generalizing value with
  | zero => rfl
  | succ length ih => simp [storeLE, ih]

def clearLowBytes (value length : Nat) : Nat :=
  (List.range length).foldl
    (fun output index => output ^^^ (output &&& 0xff <<< (8 * index))) value &&& mask64

/-! ## The permutation -/

structure State where
  s0 : Nat
  s1 : Nat
  s2 : Nat
  s3 : Nat
  s4 : Nat
  deriving DecidableEq

def rotateRight64 (value count : Nat) : Nat :=
  ((value >>> count) ||| (value <<< (64 - count))) &&& mask64

def asconRound (state : State) (constant : Nat) : State :=
  let s2 := state.s2 ^^^ constant
  let s0 := state.s0 ^^^ state.s4
  let s4 := state.s4 ^^^ state.s3
  let s2 := s2 ^^^ state.s1
  let t0 := s0 ^^^ (notMask64 state.s1 &&& s2)
  let t1 := state.s1 ^^^ (notMask64 s2 &&& state.s3)
  let t2 := s2 ^^^ (notMask64 state.s3 &&& s4)
  let t3 := state.s3 ^^^ (notMask64 s4 &&& s0)
  let t4 := s4 ^^^ (notMask64 s0 &&& state.s1)
  let t1 := t1 ^^^ t0
  let t0 := t0 ^^^ t4
  let t3 := t3 ^^^ t2
  let t2 := notMask64 t2
  { s0 := (t0 ^^^ rotateRight64 t0 19 ^^^ rotateRight64 t0 28) &&& mask64
    s1 := (t1 ^^^ rotateRight64 t1 61 ^^^ rotateRight64 t1 39) &&& mask64
    s2 := (t2 ^^^ rotateRight64 t2 1 ^^^ rotateRight64 t2 6) &&& mask64
    s3 := (t3 ^^^ rotateRight64 t3 10 ^^^ rotateRight64 t3 17) &&& mask64
    s4 := (t4 ^^^ rotateRight64 t4 7 ^^^ rotateRight64 t4 41) &&& mask64 }

def p12 : List Nat :=
  [0xf0, 0xe1, 0xd2, 0xc3, 0xb4, 0xa5, 0x96, 0x87, 0x78, 0x69, 0x5a, 0x4b]

def p8 : List Nat := p12.drop 4

def permute (state : State) (constants : List Nat) : State := constants.foldl asconRound state

/-! ## The phases -/

def initializeAscon (key nonce : Block 16) : State :=
  let key0 := loadLE key.val 0 8
  let key1 := loadLE key.val 8 8
  let state := permute
    { s0 := 0x00001000808c0001
      s1 := key0
      s2 := key1
      s3 := loadLE nonce.val 0 8
      s4 := loadLE nonce.val 8 8 } p12
  { state with s3 := state.s3 ^^^ key0, s4 := state.s4 ^^^ key1 }

def pad (position : Nat) : Nat := 1 <<< (8 * position)

/-- The loop of `absorbAssociatedData` from an offset, and the block after it. -/
def absorbFrom (state : State) (data : Bytes) (offset : Nat) : State :=
  if data.length - offset ≥ 16 then
    let state := { state with
      s0 := state.s0 ^^^ loadLE data offset 8
      s1 := state.s1 ^^^ loadLE data (offset + 8) 8 }
    absorbFrom (permute state p8) data (offset + 16)
  else
    let remaining := data.length - offset
    if remaining ≥ 8 then
      let state := { state with
        s0 := state.s0 ^^^ loadLE data offset 8
        s1 := state.s1 ^^^ loadLE data (offset + 8) (remaining - 8) ^^^ pad (remaining - 8) }
      permute state p8
    else
      let state := { state with
        s0 := state.s0 ^^^ loadLE data offset remaining ^^^ pad remaining }
      permute state p8
termination_by data.length - offset

def absorbAssociatedData (state : State) (data : Bytes) : State :=
  let state := if data.length > 0 then absorbFrom state data 0 else state
  { state with s4 := state.s4 ^^^ 0x8000000000000000 }

def finalizeAscon (state : State) (key : Block 16) : Block 16 :=
  let key0 := loadLE key.val 0 8
  let key1 := loadLE key.val 8 8
  let state := permute { state with s2 := state.s2 ^^^ key0, s3 := state.s3 ^^^ key1 } p12
  ⟨storeLE (state.s3 ^^^ key0) 8 ++ storeLE (state.s4 ^^^ key1) 8, by simp⟩

/-- The loop of `asconEncrypt` from an offset and the block after it: the state and the
ciphertext from there on. -/
def encryptFrom (state : State) (message : Bytes) (offset : Nat) : State × Bytes :=
  if message.length - offset ≥ 16 then
    let s0 := state.s0 ^^^ loadLE message offset 8
    let s1 := state.s1 ^^^ loadLE message (offset + 8) 8
    let rest := encryptFrom (permute { state with s0 := s0, s1 := s1 } p8) message (offset + 16)
    (rest.1, storeLE s0 8 ++ storeLE s1 8 ++ rest.2)
  else
    let remaining := message.length - offset
    if remaining ≥ 8 then
      let s0 := state.s0 ^^^ loadLE message offset 8
      let s1 := state.s1 ^^^ loadLE message (offset + 8) (remaining - 8)
      ({ state with s0 := s0, s1 := s1 ^^^ pad (remaining - 8) },
        storeLE s0 8 ++ storeLE s1 (remaining - 8))
    else
      let s0 := state.s0 ^^^ loadLE message offset remaining
      ({ state with s0 := s0 ^^^ pad remaining }, storeLE s0 remaining)
termination_by message.length - offset

/-- The loop of `asconDecrypt` from an offset and the block after it: the state and the
plaintext from there on. -/
def decryptFrom (state : State) (input : Bytes) (offset : Nat) : State × Bytes :=
  if input.length - offset ≥ 16 then
    let c0 := loadLE input offset 8
    let c1 := loadLE input (offset + 8) 8
    let rest := decryptFrom (permute { state with s0 := c0, s1 := c1 } p8) input (offset + 16)
    (rest.1, storeLE (state.s0 ^^^ c0) 8 ++ storeLE (state.s1 ^^^ c1) 8 ++ rest.2)
  else
    let remaining := input.length - offset
    if remaining ≥ 8 then
      let c0 := loadLE input offset 8
      let c1 := loadLE input (offset + 8) (remaining - 8)
      let s1 := clearLowBytes state.s1 (remaining - 8) ||| c1
      ({ state with s0 := c0, s1 := s1 ^^^ pad (remaining - 8) },
        storeLE (state.s0 ^^^ c0) 8 ++ storeLE (state.s1 ^^^ c1) (remaining - 8))
    else
      let c0 := loadLE input offset remaining
      let s0 := clearLowBytes state.s0 remaining ||| c0
      ({ state with s0 := s0 ^^^ pad remaining }, storeLE (state.s0 ^^^ c0) remaining)
termination_by input.length - offset

def asconEncrypt (key nonce : Block 16) (associatedData plaintext : Bytes) : Bytes × Block 16 :=
  let state := absorbAssociatedData (initializeAscon key nonce) associatedData
  let (state, ciphertext) := encryptFrom state plaintext 0
  (ciphertext, finalizeAscon state key)

/-- The tag is any buffer; one of another length is refused. -/
def asconDecrypt (key nonce : Block 16) (associatedData ciphertext tag : Bytes) : Option Bytes :=
  let state := absorbAssociatedData (initializeAscon key nonce) associatedData
  let (state, plaintext) := decryptFrom state ciphertext 0
  if (finalizeAscon state key).val = tag then some plaintext else none

/-! ## The words of the client -/

/-- The state of the client as one of the peer. -/
def toPeer (state : AsconState) : State where
  s0 := state.x0.toNat
  s1 := state.x1.toNat
  s2 := state.x2.toNat
  s3 := state.x3.toNat
  s4 := state.x4.toNat

theorem and_mask64 (value : Nat) : value &&& mask64 = value % 2 ^ 64 :=
  Nat.and_two_pow_sub_one_eq_mod value 64

theorem toNat_and_mask64 (x : UInt64) : x.toNat &&& mask64 = x.toNat := by
  rw [and_mask64, Nat.mod_eq_of_lt x.toNat_lt]

theorem notMask64_toNat (x : UInt64) : notMask64 x.toNat = (~~~x).toNat := by
  have hx : x.toNat < 2 ^ 64 := x.toNat_lt
  have hnot : (~~~x).toNat = 2 ^ 64 - (x.toNat + 1) := by
    rw [UInt64.toNat_not]
    show 2 ^ 64 - 1 - x.toNat = _
    omega
  rw [notMask64, toNat_and_mask64, hnot]
  apply Nat.eq_of_testBit_eq
  intro j
  rw [Nat.testBit_xor, Nat.testBit_two_pow_sub_succ hx, mask64, Nat.testBit_two_pow_sub_one]
  rcases Nat.lt_or_ge j 64 with hj | hj
  · simp [hj]
  · have hbit : x.toNat.testBit j = false :=
      Nat.testBit_lt_two_pow (lt_of_lt_of_le hx (Nat.pow_le_pow_right (by omega) hj))
    simp [Nat.not_lt.mpr hj, hbit]

theorem rotateRight64_toNat (x : UInt64) {count : Nat} (hpos : 0 < count) (hlt : count < 64) :
    rotateRight64 x.toNat count = (C0PQLink.rotateRight64 x (UInt64.ofNat count)).toNat := by
  have hcount : (UInt64.ofNat count).toNat = count := by
    rw [UInt64.toNat_ofNat']
    omega
  have hsub : (64 - UInt64.ofNat count).toNat = 64 - count := by
    rw [UInt64.toNat_sub_of_le 64 (UInt64.ofNat count)
      (UInt64.le_iff_toNat_le.mpr (hcount.trans_le hlt.le)), hcount]
    rfl
  have hright : x.toNat >>> count < 2 ^ 64 :=
    lt_of_le_of_lt (Nat.shiftRight_le _ _) x.toNat_lt
  rw [rotateRight64, C0PQLink.rotateRight64, UInt64.toNat_or, UInt64.toNat_shiftRight,
    UInt64.toNat_shiftLeft, hsub, hcount, Nat.mod_eq_of_lt hlt,
    Nat.mod_eq_of_lt (show 64 - count < 64 by omega), and_mask64, Nat.or_mod_two_pow,
    Nat.mod_eq_of_lt hright]

theorem asconRound_toPeer (state : AsconState) (constant : UInt8) :
    asconRound (toPeer state) constant.toNat = toPeer (C0PQLink.asconRound state constant) := by
  have hconstant : constant.toNat = constant.toUInt64.toNat := by simp
  rw [hconstant]
  simp (disch := decide) only [asconRound, C0PQLink.asconRound, toPeer, ← UInt64.toNat_xor,
    notMask64_toNat, ← UInt64.toNat_and, rotateRight64_toNat, toNat_and_mask64]
  rfl

theorem permute12_toPeer (state : AsconState) :
    permute (toPeer state) p12 = toPeer (asconPermute12 state) := by
  have hconstants : p12 = (List.range 12).map fun i => (asconConstant i).toNat := by decide
  rw [permute, hconstants, List.foldl_map, asconPermute12]
  exact List.foldl_hom toPeer fun s i => asconRound_toPeer s (asconConstant i)

theorem permute8_toPeer (state : AsconState) :
    permute (toPeer state) p8 = toPeer (asconPermute8 state) := by
  have hconstants : p8 = (List.range 8).map fun i => (asconConstant (i + 4)).toNat := by decide
  rw [permute, hconstants, List.foldl_map, asconPermute8]
  exact List.foldl_hom toPeer fun s i => asconRound_toPeer s (asconConstant (i + 4))

/-! ## The bytes of the client -/

theorem loadLE_eq {bytes : Bytes} {offset length : Nat} (h : length ≤ 8) :
    loadLE bytes offset length = (loadLittleEndian (bytes.drop offset) length).toNat := by
  rw [toNat_loadLittleEndian h]
  clear h
  induction length with
  | zero => rfl
  | succ n ih =>
    have hlow : leNat ((bytes.drop offset).take n) < 2 ^ (8 * n) := by
      refine lt_of_lt_of_le (leNat_lt _) ?_
      rw [pow_256]
      exact Nat.pow_le_pow_right (by omega) (by simp)
    have hbyte : byteAt (bytes.drop offset) n = byteAt bytes (offset + n) := by
      simp [byteAt]
    rw [loadLE, List.range_succ, List.foldl_append, List.foldl_cons, List.foldl_nil,
      show (List.foldl _ 0 (List.range n)) = loadLE bytes offset n from rfl, ih,
      leNat_take_succ, hbyte, Nat.shiftLeft_eq, Nat.or_comm, Nat.mul_comm,
      ← Nat.two_pow_add_eq_or_of_lt hlow, pow_256]
    omega

theorem storeLE_eq {value : UInt64} {length : Nat} (h : length ≤ 8) :
    storeLE value.toNat length = storeLittleEndian value length := by
  have hbytes : ∀ (n v : Nat), storeLE v n = leBytes n v := by
    intro n
    induction n with
    | zero => exact fun _ => rfl
    | succ n ih =>
      intro v
      have hbyte : UInt8.ofNat (v &&& 0xff) = UInt8.ofNat v := by
        apply UInt8.toNat_inj.mp
        rw [UInt8.toNat_ofNat', UInt8.toNat_ofNat',
          show (0xff : Nat) = 2 ^ 8 - 1 from rfl, Nat.and_two_pow_sub_one_eq_mod, Nat.mod_mod]
      rw [storeLE, leBytes, hbyte, ih, Nat.shiftRight_eq_div_pow]
  rw [hbytes, storeLittleEndian_eq h]

theorem clearLowBytes_eq {value : UInt64} {length : Nat} (h : length ≤ 8) :
    clearLowBytes value.toNat length = (Foundation.clearLowBytes value length).toNat := by
  have hfold : (List.range length).foldl
      (fun output index => output ^^^ (output &&& 0xff <<< (8 * index))) value.toNat
        = (Foundation.clearLowBytes value length).toNat := by
    induction length with
    | zero => rfl
    | succ n ih =>
      have hn : n < 8 := h
      have hmask : (0xff : Nat) <<< (8 * n) < 2 ^ 64 := by
        rw [Nat.shiftLeft_eq]
        calc 0xff * 2 ^ (8 * n) < 2 ^ 8 * 2 ^ (8 * n) :=
              Nat.mul_lt_mul_of_pos_right (by decide) (Nat.two_pow_pos _)
          _ = 2 ^ (8 + 8 * n) := by rw [← pow_add]
          _ ≤ 2 ^ 64 := Nat.pow_le_pow_right (by omega) (by omega)
      have hmask64 : (0xff : Nat) <<< (8 * n)
          = ((0xff : UInt64) <<< UInt64.ofNat (8 * n)).toNat := by
        rw [UInt64.toNat_shiftLeft, toNat_shift_amount hn]
        exact (Nat.mod_eq_of_lt hmask).symm
      have hand (x m : UInt64) : x ^^^ (x &&& m) = x &&& ~~~m := by
        apply UInt64.toBitVec_inj.mp
        ext i
        simp
        cases x.toBitVec[i] <;> simp
      rw [List.range_succ, List.foldl_append, List.foldl_cons, List.foldl_nil, ih hn.le, hmask64,
        ← UInt64.toNat_and, ← UInt64.toNat_xor, hand]
      simp only [Foundation.clearLowBytes, List.range_succ, List.foldl_append, List.foldl_cons,
        List.foldl_nil]
  rw [clearLowBytes, hfold, toNat_and_mask64]

theorem pad_eq {position : Nat} (h : position < 8) : pad position = (padWord position).toNat := by
  rw [pad, padWord, UInt64.toNat_shiftLeft, toNat_shift_amount h, Nat.shiftLeft_eq]
  have hlt : 1 * 2 ^ (8 * position) < 2 ^ 64 := by
    rw [Nat.one_mul]
    exact Nat.pow_lt_pow_right (by omega) (by omega)
  rw [Nat.shiftLeft_eq]
  exact (Nat.mod_eq_of_lt hlt).symm

/-! ## The functions of the client -/

theorem initializeAscon_eq (key nonce : Block 16) :
    initializeAscon key nonce = toPeer (asconInitialize key nonce) := by
  simp only [initializeAscon, asconInitialize, loadLE_eq (Nat.le_refl 8), List.drop_zero]
  have hperm := permute12_toPeer
    { x0 := 0x00001000808c0001
      x1 := loadLittleEndian key.val 8
      x2 := loadLittleEndian (key.val.drop 8) 8
      x3 := loadLittleEndian nonce.val 8
      x4 := loadLittleEndian (nonce.val.drop 8) 8 }
  simp only [toPeer] at hperm ⊢
  rw [show (UInt64.toNat 0x00001000808c0001) = 0x00001000808c0001 from rfl] at hperm
  rw [hperm]
  simp only [← UInt64.toNat_xor]

theorem absorbFrom_eq (state : AsconState) (data : Bytes) (offset : Nat) :
    absorbFrom (toPeer state) data offset = toPeer (absorbBlocks state (data.drop offset)) := by
  induction hsize : data.length - offset using Nat.strong_induction_on
    generalizing state offset with
  | _ size ih =>
    rw [absorbFrom, absorbBlocks]
    simp only [List.length_drop, List.drop_drop, hsize, ge_iff_le]
    split
    · rename_i h16
      have hnext := ih (size - 16) (by omega) (asconPermute8 { state with
        x0 := state.x0 ^^^ loadLittleEndian (data.drop offset) 8
        x1 := state.x1 ^^^ loadLittleEndian (data.drop (offset + 8)) 8 }) (offset + 16) (by omega)
      rw [← hnext, ← permute8_toPeer]
      simp only [toPeer, UInt64.toNat_xor, loadLE_eq (Nat.le_refl 8)]
    · rename_i h16
      split
      · rename_i h8
        have hrest : size - 8 ≤ 8 := by omega
        rw [← permute8_toPeer]
        simp only [toPeer, UInt64.toNat_xor, loadLE_eq (Nat.le_refl 8), loadLE_eq hrest,
          pad_eq (show size - 8 < 8 by omega)]
      · rename_i h8
        rw [← permute8_toPeer]
        simp only [toPeer, UInt64.toNat_xor, loadLE_eq (show size ≤ 8 by omega),
          pad_eq (show size < 8 by omega)]

theorem absorbAssociatedData_eq (state : AsconState) (data : Bytes) :
    absorbAssociatedData (toPeer state) data
      = toPeer (C0PQLink.absorbAssociatedData state data) := by
  have hblocks := absorbFrom_eq state data 0
  rw [List.drop_zero] at hblocks
  rw [absorbAssociatedData, C0PQLink.absorbAssociatedData]
  simp only [Nat.pos_iff_ne_zero, gt_iff_lt, hblocks]
  split <;> simp only [toPeer, UInt64.toNat_xor] <;> rfl

theorem finalizeAscon_eq (state : AsconState) (key : Block 16) :
    finalizeAscon (toPeer state) key = finalizeTag state key := by
  have hperm := permute12_toPeer { state with
    x2 := state.x2 ^^^ loadLittleEndian key.val 8
    x3 := state.x3 ^^^ loadLittleEndian (key.val.drop 8) 8 }
  simp only [toPeer, UInt64.toNat_xor] at hperm
  simp only [finalizeAscon, finalizeTag, loadLE_eq (Nat.le_refl 8), List.drop_zero, toPeer, hperm]
  simp only [← UInt64.toNat_xor, storeLE_eq (Nat.le_refl 8)]

theorem encryptFrom_eq (state : AsconState) (message : Bytes) (offset : Nat) :
    encryptFrom (toPeer state) message offset
      = (toPeer (encryptBlocks state (message.drop offset)).1,
        (encryptBlocks state (message.drop offset)).2) := by
  induction hsize : message.length - offset using Nat.strong_induction_on
    generalizing state offset with
  | _ size ih =>
    rw [encryptFrom, encryptBlocks]
    simp only [List.length_drop, List.drop_drop, hsize, ge_iff_le]
    split
    · rename_i h16
      have hnext := ih (size - 16) (by omega) (asconPermute8 { state with
        x0 := state.x0 ^^^ loadLittleEndian (message.drop offset) 8
        x1 := state.x1 ^^^ loadLittleEndian (message.drop (offset + 8)) 8 }) (offset + 16)
        (by omega)
      rw [← permute8_toPeer] at hnext
      simp only [toPeer] at hnext ⊢
      simp only [loadLE_eq (Nat.le_refl 8), ← UInt64.toNat_xor, hnext, storeLE_eq (Nat.le_refl 8)]
    · rename_i h16
      split
      · rename_i h8
        have hrest : size - 8 ≤ 8 := by omega
        simp only [toPeer, loadLE_eq (Nat.le_refl 8), loadLE_eq hrest, ← UInt64.toNat_xor,
          pad_eq (show size - 8 < 8 by omega), storeLE_eq (Nat.le_refl 8), storeLE_eq hrest]
      · rename_i h8
        have hrest : size ≤ 8 := by omega
        simp only [toPeer, loadLE_eq hrest, ← UInt64.toNat_xor,
          pad_eq (show size < 8 by omega), storeLE_eq hrest]

theorem decryptFrom_eq (state : AsconState) (input : Bytes) (offset : Nat) :
    decryptFrom (toPeer state) input offset
      = (toPeer (decryptBlocks state (input.drop offset)).1,
        (decryptBlocks state (input.drop offset)).2) := by
  induction hsize : input.length - offset using Nat.strong_induction_on
    generalizing state offset with
  | _ size ih =>
    rw [decryptFrom, decryptBlocks]
    simp only [List.length_drop, List.drop_drop, hsize, ge_iff_le]
    split
    · rename_i h16
      have hnext := ih (size - 16) (by omega) (asconPermute8 { state with
        x0 := loadLittleEndian (input.drop offset) 8
        x1 := loadLittleEndian (input.drop (offset + 8)) 8 }) (offset + 16) (by omega)
      rw [← permute8_toPeer] at hnext
      simp only [toPeer] at hnext ⊢
      simp only [loadLE_eq (Nat.le_refl 8), ← UInt64.toNat_xor, hnext, storeLE_eq (Nat.le_refl 8)]
    · rename_i h16
      split
      · rename_i h8
        have hrest : size - 8 ≤ 8 := by omega
        simp only [toPeer, loadLE_eq (Nat.le_refl 8), loadLE_eq hrest, ← UInt64.toNat_xor,
          clearLowBytes_eq hrest, ← UInt64.toNat_or, pad_eq (show size - 8 < 8 by omega),
          storeLE_eq (Nat.le_refl 8), storeLE_eq hrest]
      · rename_i h8
        have hrest : size ≤ 8 := by omega
        simp only [toPeer, loadLE_eq hrest, ← UInt64.toNat_xor, clearLowBytes_eq hrest,
          ← UInt64.toNat_or, pad_eq (show size < 8 by omega), storeLE_eq hrest]

theorem asconEncrypt_eq (key nonce : Block 16) (associatedData plaintext : Bytes) :
    asconEncrypt key nonce associatedData plaintext
      = asconAead128Encrypt key nonce associatedData plaintext := by
  simp only [asconEncrypt, asconAead128Encrypt, initializeAscon_eq, absorbAssociatedData_eq,
    encryptFrom_eq, List.drop_zero, finalizeAscon_eq]

theorem asconDecrypt_eq (key nonce : Block 16) (associatedData ciphertext : Bytes)
    (tag : Block 16) :
    asconDecrypt key nonce associatedData ciphertext tag.val
      = asconAead128Decrypt key nonce associatedData ciphertext tag := by
  simp only [asconDecrypt, asconAead128Decrypt, initializeAscon_eq, absorbAssociatedData_eq,
    decryptFrom_eq, List.drop_zero, finalizeAscon_eq, ne_eq, ite_not, Subtype.val_inj]

/-- Both implementations encrypt alike, accept the same ciphertexts and return the same
plaintexts. -/
theorem peerAscon_agrees (key nonce : Block 16) (associatedData : Bytes) :
    (∀ plaintext, asconEncrypt key nonce associatedData plaintext
        = asconAead128Encrypt key nonce associatedData plaintext)
      ∧ ∀ ciphertext (tag : Block 16),
        (∀ plaintext, asconDecrypt key nonce associatedData ciphertext tag.val = some plaintext
          ↔ asconAead128DecryptInto key nonce associatedData ciphertext tag = (.ok, plaintext))
        ∧ (asconDecrypt key nonce associatedData ciphertext tag.val = none
          ↔ (asconAead128DecryptInto key nonce associatedData ciphertext tag).1 = .errAuth) := by
  refine ⟨fun plaintext => asconEncrypt_eq key nonce associatedData plaintext,
    fun ciphertext tag => ?_⟩
  rw [asconDecrypt_eq, asconDecryptInto_eq]
  cases asconAead128Decrypt key nonce associatedData ciphertext tag with
  | none => simp
  | some found => simp

end C0PQLink.ReferencePeer
