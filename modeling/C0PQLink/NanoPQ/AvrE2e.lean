import C0PQLink.NanoPQ.Handshake
import C0PQLink.NanoPQ.Records
import C0PQLink.ReferencePeer.Ascon

/-!
# The peer of the simulation

The cryptography and the records of `simulator/avr_e2e.cjs`. Its integers are unbounded and
nonnegative, as in the reference peer, and so are its sequence numbers.

* `decryptFrom_eq`: the decryption of a last block of 8 to 15 bytes sets the padding bit
  where the firmware flips it.
* `Exchanged.inStep`: up to the first affected record, the simulation has the session of the
  firmware's server.
* `simulator_reads_iff`: which ciphertexts and which records of a run are read as by the
  firmware.
-/

namespace C0PQLink.NanoPQ.AvrE2e

open Foundation

open ReferencePeer (State mask64 notMask64 toPeer)

/-! ## Words -/

def loadLE (bytes : Bytes) (offset length : Nat) : Nat :=
  (List.range length).foldl
    (fun value index => value ||| (byteAt bytes (offset + index)).toNat <<< (8 * index)) 0
    &&& mask64

def storeLE (value length : Nat) : Bytes :=
  (List.range length).map fun index => UInt8.ofNat ((value >>> (8 * index)) &&& 0xff)

@[simp] theorem length_storeLE (value length : Nat) : (storeLE value length).length = length := by
  simp [storeLE]

/-- `clearLowBytes` and `rotateRight64` have the same text as in the reference peer. -/
abbrev clearLowBytes (value length : Nat) : Nat := ReferencePeer.clearLowBytes value length

abbrev rotateRight64 (value count : Nat) : Nat := ReferencePeer.rotateRight64 value count

/-- `1n << BigInt(8 * position)`. -/
def pad (position : Nat) : Nat := 1 <<< (8 * position)

/-! ## Ascon-AEAD128 -/

def asconRound (state : State) (constant : Nat) : State :=
  let x2 := (state.s2 ^^^ constant) &&& mask64
  let x0 := (state.s0 ^^^ state.s4) &&& mask64
  let x4 := (state.s4 ^^^ state.s3) &&& mask64
  let x2 := (x2 ^^^ state.s1) &&& mask64
  let t0 := (x0 ^^^ (notMask64 state.s1 &&& x2)) &&& mask64
  let t1 := (state.s1 ^^^ (notMask64 x2 &&& state.s3)) &&& mask64
  let t2 := (x2 ^^^ (notMask64 state.s3 &&& x4)) &&& mask64
  let t3 := (state.s3 ^^^ (notMask64 x4 &&& x0)) &&& mask64
  let t4 := (x4 ^^^ (notMask64 x0 &&& state.s1)) &&& mask64
  let t1 := (t1 ^^^ t0) &&& mask64
  let t0 := (t0 ^^^ t4) &&& mask64
  let t3 := (t3 ^^^ t2) &&& mask64
  let t2 := notMask64 t2
  { s0 := (t0 ^^^ rotateRight64 t0 19 ^^^ rotateRight64 t0 28) &&& mask64
    s1 := (t1 ^^^ rotateRight64 t1 61 ^^^ rotateRight64 t1 39) &&& mask64
    s2 := (t2 ^^^ rotateRight64 t2 1 ^^^ rotateRight64 t2 6) &&& mask64
    s3 := (t3 ^^^ rotateRight64 t3 10 ^^^ rotateRight64 t3 17) &&& mask64
    s4 := (t4 ^^^ rotateRight64 t4 7 ^^^ rotateRight64 t4 41) &&& mask64 }

/-- The rounds from `firstRound` to 11. -/
def asconPermute (state : State) (firstRound : Nat) : State :=
  (List.range (12 - firstRound)).foldl (fun s i =>
    let round := firstRound + i
    asconRound s ((15 - round) <<< 4 ||| round)) state

def asconInitialize (key nonce : Block 16) : State :=
  let key0 := loadLE key.val 0 8
  let key1 := loadLE key.val 8 8
  let state := asconPermute
    { s0 := 0x00001000808c0001
      s1 := key0
      s2 := key1
      s3 := loadLE nonce.val 0 8
      s4 := loadLE nonce.val 8 8 } 0
  { state with s3 := (state.s3 ^^^ key0) &&& mask64, s4 := (state.s4 ^^^ key1) &&& mask64 }

/-- The loop over associated data from an offset, with `length` bytes left, and the block
after it. -/
def absorbFrom (state : State) (data : Bytes) (offset length : Nat) : State :=
  if 16 ≤ length then
    let state := { state with
      s0 := (state.s0 ^^^ loadLE data offset 8) &&& mask64
      s1 := (state.s1 ^^^ loadLE data (offset + 8) 8) &&& mask64 }
    absorbFrom (asconPermute state 4) data (offset + 16) (length - 16)
  else if 8 ≤ length then
    let state := { state with
      s0 := (state.s0 ^^^ loadLE data offset 8) &&& mask64
      s1 := (state.s1 ^^^ loadLE data (offset + 8) (length - 8) ^^^ pad (length - 8)) &&& mask64 }
    asconPermute state 4
  else
    let state := { state with
      s0 := (state.s0 ^^^ loadLE data offset length ^^^ pad length) &&& mask64 }
    asconPermute state 4

def asconAbsorbAssociatedData (state : State) (data : Bytes) : State :=
  let state := if data.length ≠ 0 then absorbFrom state data 0 data.length else state
  { state with s4 := (state.s4 ^^^ 0x8000000000000000) &&& mask64 }

def asconFinalize (state : State) (key : Block 16) : Block 16 :=
  let key0 := loadLE key.val 0 8
  let key1 := loadLE key.val 8 8
  let state := asconPermute { state with
    s2 := (state.s2 ^^^ key0) &&& mask64
    s3 := (state.s3 ^^^ key1) &&& mask64 } 0
  ⟨storeLE ((state.s3 ^^^ key0) &&& mask64) 8 ++ storeLE ((state.s4 ^^^ key1) &&& mask64) 8,
    by simp⟩

/-- The loop of `asconEncrypt` and the block after it: the state and the ciphertext. -/
def encryptFrom (state : State) (plaintext : Bytes) (offset length : Nat) : State × Bytes :=
  if 16 ≤ length then
    let s0 := (state.s0 ^^^ loadLE plaintext offset 8) &&& mask64
    let s1 := (state.s1 ^^^ loadLE plaintext (offset + 8) 8) &&& mask64
    let rest := encryptFrom (asconPermute { state with s0 := s0, s1 := s1 } 4) plaintext
      (offset + 16) (length - 16)
    (rest.1, storeLE s0 8 ++ storeLE s1 8 ++ rest.2)
  else if 8 ≤ length then
    let s0 := (state.s0 ^^^ loadLE plaintext offset 8) &&& mask64
    let s1 := (state.s1 ^^^ loadLE plaintext (offset + 8) (length - 8)) &&& mask64
    ({ state with s0 := s0, s1 := (s1 ^^^ pad (length - 8)) &&& mask64 },
      storeLE s0 8 ++ storeLE s1 (length - 8))
  else
    let s0 := (state.s0 ^^^ loadLE plaintext offset length) &&& mask64
    ({ state with s0 := (s0 ^^^ pad length) &&& mask64 }, storeLE s0 length)

def asconEncrypt (key nonce : Block 16) (associatedData plaintext : Bytes) : Bytes × Block 16 :=
  let state := asconAbsorbAssociatedData (asconInitialize key nonce) associatedData
  let (state, ciphertext) := encryptFrom state plaintext 0 plaintext.length
  (ciphertext, asconFinalize state key)

/-- The loop of `asconDecrypt` and the block after it: the state and the plaintext. The
operator `^` binds closer than `|`: in a last block of 8 to 15 bytes the padding goes into
the loaded word. -/
def decryptFrom (state : State) (ciphertext : Bytes) (offset length : Nat) : State × Bytes :=
  if 16 ≤ length then
    let c0 := loadLE ciphertext offset 8
    let c1 := loadLE ciphertext (offset + 8) 8
    let rest := decryptFrom (asconPermute { state with s0 := c0, s1 := c1 } 4) ciphertext
      (offset + 16) (length - 16)
    (rest.1, storeLE (state.s0 ^^^ c0) 8 ++ storeLE (state.s1 ^^^ c1) 8 ++ rest.2)
  else if 8 ≤ length then
    let c0 := loadLE ciphertext offset 8
    let c1 := loadLE ciphertext (offset + 8) (length - 8)
    let s1 := (clearLowBytes state.s1 (length - 8) ||| (c1 ^^^ pad (length - 8))) &&& mask64
    ({ state with s0 := c0, s1 := s1 },
      storeLE (state.s0 ^^^ c0) 8 ++ storeLE (state.s1 ^^^ c1) (length - 8))
  else
    let c0 := loadLE ciphertext offset length
    let s0 := ((clearLowBytes state.s0 length ||| c0) ^^^ pad length) &&& mask64
    ({ state with s0 := s0 }, storeLE (state.s0 ^^^ c0) length)

def asconDecrypt (key nonce : Block 16) (associatedData ciphertext tag : Bytes) : Option Bytes :=
  let state := asconAbsorbAssociatedData (asconInitialize key nonce) associatedData
  let (state, plaintext) := decryptFrom state ciphertext 0 ciphertext.length
  if (asconFinalize state key).val = tag then some plaintext else none

/-! ## Sessions and records -/

/-- `header(type)`. -/
abbrev header (type : UInt8) : Bytes := makeHeader type

def u32be (value : Nat) : Bytes := store32BE (UInt32.ofNat value)

/-- `readUInt32BE` of a buffer that has the four bytes. -/
def readUInt32BE (bytes : Bytes) (offset : Nat) : Nat := beNat (slice bytes offset 4)

variable (sha256 : Bytes → Block 32)

def hmacLabel (key : Block 32) (label : String) (data : Bytes) : Block 32 :=
  hmacSha256 sha256 key.val (ascii label ++ [0] ++ data)

def expandLabel (prk : Block 32) (label : String) (transcript : Block 32) : Block 32 :=
  hmacSha256 sha256 prk.val (ascii label ++ [0] ++ transcript.val ++ [1])

structure Session where
  sendChain : Block 32
  receiveChain : Block 32
  sendNonceBase : Block 16
  receiveNonceBase : Block 16
  sessionId : Nat
  bootEpoch : Nat
  sendSequence : Nat
  receiveSequence : Nat
  deriving DecidableEq

def deriveServerSession (rootKey : Block 32) (hello : Block 48) (challenge : Block 60) :
    Session :=
  let transcript := sha256 (ascii "NPQ/1 transcript" ++ hello.val ++ challenge.val)
  let prk := hmacSha256 sha256 transcript.val rootKey.val
  { sendChain := expandLabel sha256 prk "NPQ/1 server chain" transcript
    receiveChain := expandLabel sha256 prk "NPQ/1 client chain" transcript
    sendNonceBase := digest16 (expandLabel sha256 prk "NPQ/1 server nonce" transcript)
    receiveNonceBase := digest16 (expandLabel sha256 prk "NPQ/1 client nonce" transcript)
    sessionId := readUInt32BE challenge.val 40
    bootEpoch := readUInt32BE hello.val 12
    sendSequence := 0
    receiveSequence := 0 }

/-- The message key and the next chain key. -/
def ratchet (chain : Block 32) (sequence : Nat) : Block 16 × Block 32 :=
  let encoded := u32be sequence
  (digest16 (hmacLabel sha256 chain "NPQ/1 message key" encoded),
    hmacLabel sha256 chain "NPQ/1 next chain" encoded)

def makeNonce (base : Block 16) (sequence : Nat) : Block 16 :=
  ⟨base.val.take 12 ++ xorBytes (base.val.drop 12) (u32be sequence), by simp [u32be]⟩

def sealRecord (session : Session) (plaintext : Bytes) : Bytes × Session :=
  let sequence := session.sendSequence
  let outputHeader := header npqFrameData ++ u32be session.sessionId ++ u32be sequence
    ++ [UInt8.ofNat plaintext.length]
  let (messageKey, nextChain) := ratchet sha256 session.sendChain sequence
  let nonce := makeNonce session.sendNonceBase sequence
  let (ciphertext, tag) := asconEncrypt messageKey nonce outputHeader plaintext
  (outputHeader ++ ciphertext ++ tag.val,
    { session with sendChain := nextChain, sendSequence := sequence + 1 })

def openRecord (session : Session) (frame : Bytes) : Option Bytes × Session :=
  if frame.length < 29 ∨ slice frame 0 4 ≠ header npqFrameData
      ∨ readUInt32BE frame 4 ≠ session.sessionId
      ∨ readUInt32BE frame 8 ≠ session.receiveSequence
      ∨ frame.length ≠ 29 + (byteAt frame 12).toNat then
    (none, session)
  else
    let sequence := session.receiveSequence
    let (messageKey, nextChain) := ratchet sha256 session.receiveChain sequence
    let nonce := makeNonce session.receiveNonceBase sequence
    let plaintextLength := (byteAt frame 12).toNat
    match asconDecrypt messageKey nonce (slice frame 0 13) (slice frame 13 plaintextLength)
        (frame.drop (13 + plaintextLength)) with
    | some plaintext =>
      (some plaintext, { session with receiveChain := nextChain, receiveSequence := sequence + 1 })
    | none => (none, session)

/-! ## The words of the firmware -/

theorem loadLE_eq {bytes : Bytes} {offset length : Nat} (h : length ≤ 8) :
    loadLE bytes offset length = (loadLittleEndian (bytes.drop offset) length).toNat := by
  have hload : loadLE bytes offset length
      = ReferencePeer.loadLE bytes offset length &&& mask64 := rfl
  rw [hload, ReferencePeer.loadLE_eq h, ReferencePeer.toNat_and_mask64]

theorem storeLE_eq {value : UInt64} {length : Nat} (h : length ≤ 8) :
    storeLE value.toNat length = storeLittleEndian value length := by
  refine List.map_congr_left fun i hi => ?_
  have hi : i < length := List.mem_range.mp hi
  have hff : (0xff : Nat) = 2 ^ 8 - 1 := rfl
  apply UInt8.toNat_inj.mp
  rw [UInt64.toNat_toUInt8, UInt64.toNat_shiftRight, toNat_shift_amount (by omega),
    UInt8.toNat_ofNat', hff, Nat.and_two_pow_sub_one_eq_mod, Nat.mod_mod]

theorem pad_eq {position : Nat} (h : position < 8) : pad position = (padWord position).toNat :=
  ReferencePeer.pad_eq h

theorem asconRound_toPeer (state : AsconState) (constant : UInt8) :
    asconRound (toPeer state) constant.toNat = toPeer (C0PQLink.asconRound state constant) := by
  have hconstant : constant.toNat = constant.toUInt64.toNat := by simp
  rw [hconstant]
  simp (disch := decide) only [asconRound, C0PQLink.asconRound, toPeer, ← UInt64.toNat_xor,
    ReferencePeer.notMask64_toNat, ← UInt64.toNat_and, ReferencePeer.rotateRight64_toNat,
    ReferencePeer.toNat_and_mask64]
  rfl

theorem asconPermute_toPeer (state : AsconState) {firstRound : Nat}
    (hconstants : ∀ i < 12 - firstRound, ((15 - (firstRound + i)) <<< 4 ||| (firstRound + i))
      = (asconConstant (i + firstRound)).toNat) :
    asconPermute (toPeer state) firstRound
      = toPeer ((List.range (12 - firstRound)).foldl
          (fun s i => C0PQLink.asconRound s (asconConstant (i + firstRound))) state) := by
  have hfold : asconPermute (toPeer state) firstRound
      = (List.range (12 - firstRound)).foldl
          (fun s i => asconRound s (asconConstant (i + firstRound)).toNat) (toPeer state) := by
    refine List.foldl_ext _ _ _ fun s i hi => ?_
    rw [← hconstants i (List.mem_range.mp hi)]
  rw [hfold]
  exact List.foldl_hom toPeer fun s i => asconRound_toPeer s (asconConstant (i + firstRound))

theorem asconPermute12_toPeer (state : AsconState) :
    asconPermute (toPeer state) 0 = toPeer (asconPermute12 state) :=
  asconPermute_toPeer state (by decide)

theorem asconPermute8_toPeer (state : AsconState) :
    asconPermute (toPeer state) 4 = toPeer (asconPermute8 state) :=
  asconPermute_toPeer state (by decide)

theorem asconInitialize_eq (key nonce : Block 16) :
    asconInitialize key nonce = toPeer (C0PQLink.asconInitialize key nonce) := by
  have hperm := asconPermute12_toPeer
    { x0 := 0x00001000808c0001
      x1 := loadLittleEndian key.val 8
      x2 := loadLittleEndian (key.val.drop 8) 8
      x3 := loadLittleEndian nonce.val 8
      x4 := loadLittleEndian (nonce.val.drop 8) 8 }
  simp only [asconInitialize, C0PQLink.asconInitialize, loadLE_eq (Nat.le_refl 8), List.drop_zero]
  simp only [toPeer] at hperm ⊢
  rw [show (UInt64.toNat 0x00001000808c0001) = 0x00001000808c0001 from rfl] at hperm
  rw [hperm]
  simp only [← UInt64.toNat_xor, ReferencePeer.toNat_and_mask64]

theorem absorbFrom_eq (state : AsconState) (data : Bytes) (offset length : Nat)
    (hlength : length = data.length - offset) :
    absorbFrom (toPeer state) data offset length
      = toPeer (absorbBlocks state (data.drop offset)) := by
  induction length using Nat.strong_induction_on generalizing state offset with
  | _ length ih =>
    rw [absorbFrom, absorbBlocks]
    simp only [List.length_drop, List.drop_drop, ← hlength]
    split
    · rename_i h16
      have hnext := ih (length - 16) (by omega) (asconPermute8 { state with
        x0 := state.x0 ^^^ loadLittleEndian (data.drop offset) 8
        x1 := state.x1 ^^^ loadLittleEndian (data.drop (offset + 8)) 8 }) (offset + 16) (by omega)
      rw [← hnext, ← asconPermute8_toPeer]
      simp only [toPeer, loadLE_eq (Nat.le_refl 8), ← UInt64.toNat_xor,
        ReferencePeer.toNat_and_mask64]
    · rename_i h16
      split
      · rename_i h8
        have hrest : length - 8 ≤ 8 := by omega
        rw [← asconPermute8_toPeer]
        simp only [toPeer, loadLE_eq (Nat.le_refl 8), loadLE_eq hrest,
          pad_eq (show length - 8 < 8 by omega), ← UInt64.toNat_xor,
          ReferencePeer.toNat_and_mask64]
      · rename_i h8
        rw [← asconPermute8_toPeer]
        simp only [toPeer, loadLE_eq (show length ≤ 8 by omega),
          pad_eq (show length < 8 by omega), ← UInt64.toNat_xor, ReferencePeer.toNat_and_mask64]

theorem asconAbsorbAssociatedData_eq (state : AsconState) (data : Bytes) :
    asconAbsorbAssociatedData (toPeer state) data
      = toPeer (C0PQLink.absorbAssociatedData state data) := by
  have hblocks := absorbFrom_eq state data 0 data.length rfl
  have hdomain : (0x8000000000000000 : Nat) = UInt64.toNat 0x8000000000000000 := rfl
  rw [List.drop_zero] at hblocks
  rw [asconAbsorbAssociatedData, C0PQLink.absorbAssociatedData]
  simp only [hblocks, hdomain]
  split <;> simp only [toPeer, ← UInt64.toNat_xor, ReferencePeer.toNat_and_mask64]

theorem asconFinalize_eq (state : AsconState) (key : Block 16) :
    asconFinalize (toPeer state) key = finalizeTag state key := by
  have hperm := asconPermute12_toPeer { state with
    x2 := state.x2 ^^^ loadLittleEndian key.val 8
    x3 := state.x3 ^^^ loadLittleEndian (key.val.drop 8) 8 }
  simp only [toPeer] at hperm
  simp only [asconFinalize, finalizeTag, loadLE_eq (Nat.le_refl 8), List.drop_zero, toPeer,
    ← UInt64.toNat_xor, ReferencePeer.toNat_and_mask64, hperm, storeLE_eq (Nat.le_refl 8)]

/-! ## The padding bit of the last block -/

/-- The state before the last block of a ciphertext, which has less than 16 bytes. -/
def beforeLastBlock (state : AsconState) (ciphertext : Bytes) : AsconState :=
  if 16 ≤ ciphertext.length then
    beforeLastBlock (asconPermute8 { state with
      x0 := loadLittleEndian ciphertext 8
      x1 := loadLittleEndian (ciphertext.drop 8) 8 }) (ciphertext.drop 16)
  else state
termination_by ciphertext.length
decreasing_by simp; omega

/-- In a last block of 8 to 15 bytes, the bit that the padding flips is clear before. -/
def PadBitClear (state : AsconState) (ciphertext : Bytes) : Prop :=
  ciphertext.length % 16 < 8
    ∨ (beforeLastBlock state ciphertext).x1 &&& padWord (ciphertext.length % 16 - 8) = 0

instance (state : AsconState) (ciphertext : Bytes) : Decidable (PadBitClear state ciphertext) :=
  inferInstanceAs (Decidable (_ ∨ _))

/-- The state of the firmware after a ciphertext, with the padding bit set. -/
def withPadBit (state : AsconState) (length : Nat) : AsconState :=
  if length % 16 < 8 then state
  else { state with x1 := state.x1 ||| padWord (length % 16 - 8) }

theorem toNat_padWord {position : Nat} (h : position < 8) :
    (padWord position).toNat = 2 ^ (8 * position) := by
  rw [← pad_eq h, pad, Nat.shiftLeft_eq, Nat.one_mul]

theorem and_padWord_eq_zero {x : UInt64} {position : Nat} (h : position < 8) :
    x &&& padWord position = 0 ↔ x.toNat.testBit (8 * position) = false := by
  rw [← UInt64.toNat_inj, UInt64.toNat_and, toNat_padWord h, Nat.and_two_pow, UInt64.toNat_zero]
  cases x.toNat.testBit (8 * position) <;> simp

theorem load_and_padWord {b : Bytes} {length : Nat} (h : length < 8) :
    loadLittleEndian b length &&& padWord length = 0 := by
  rw [and_padWord_eq_zero h, toNat_loadLittleEndian h.le]
  apply Nat.testBit_lt_two_pow
  rw [← pow_256]
  refine lt_of_lt_of_le (leNat_lt _) (Nat.pow_le_pow_right (by omega) ?_)
  simp

theorem clearLowBytes_and_padWord (x : UInt64) {length : Nat} (h : length < 8) :
    Foundation.clearLowBytes x length &&& padWord length = 0 ↔ x &&& padWord length = 0 := by
  rw [and_padWord_eq_zero h, and_padWord_eq_zero h, toNat_clearLowBytes h.le, pow_256,
    shiftLeft_shiftRight, Nat.testBit_shiftLeft, Nat.testBit_shiftRight]
  simp

section

variable (x c bit : UInt64)

/-- The padding of the loaded word in place of the sum. -/
theorem or_xor_pad (h : c &&& bit = 0) : x ||| (c ^^^ bit) = ((x ||| c) ^^^ bit) ||| bit := by
  rw [← UInt64.toBitVec_inj] at h ⊢
  ext i hi
  have hi' := congrArg (fun v : BitVec 64 => v[i]) h
  simp only [UInt64.toBitVec_and, UInt64.toBitVec_or, UInt64.toBitVec_xor, UInt64.toBitVec_zero,
    BitVec.getElem_and, BitVec.getElem_or, BitVec.getElem_xor, BitVec.getElem_zero] at hi' ⊢
  revert hi'
  cases x.toBitVec[i] <;> cases c.toBitVec[i] <;> cases bit.toBitVec[i] <;> decide

/-- Setting the bit is flipping it where it is clear. -/
theorem xor_or_eq_iff : (x ^^^ bit) ||| bit = x ^^^ bit ↔ x &&& bit = 0 := by
  rw [← UInt64.toBitVec_inj, ← UInt64.toBitVec_inj]
  constructor
  · intro h
    ext i hi
    have hi' := congrArg (fun v : BitVec 64 => v[i]) h
    simp only [UInt64.toBitVec_and, UInt64.toBitVec_or, UInt64.toBitVec_xor,
      UInt64.toBitVec_zero, BitVec.getElem_and, BitVec.getElem_or, BitVec.getElem_xor,
      BitVec.getElem_zero] at hi' ⊢
    revert hi'
    cases x.toBitVec[i] <;> cases bit.toBitVec[i] <;> decide
  · intro h
    ext i hi
    have hi' := congrArg (fun v : BitVec 64 => v[i]) h
    simp only [UInt64.toBitVec_and, UInt64.toBitVec_or, UInt64.toBitVec_xor,
      UInt64.toBitVec_zero, BitVec.getElem_and, BitVec.getElem_or, BitVec.getElem_xor,
      BitVec.getElem_zero] at hi' ⊢
    revert hi'
    cases x.toBitVec[i] <;> cases bit.toBitVec[i] <;> decide

theorem or_and_eq_zero_iff (h : c &&& bit = 0) : (x ||| c) &&& bit = 0 ↔ x &&& bit = 0 := by
  have hdistrib : (x ||| c) &&& bit = (x &&& bit) ||| (c &&& bit) := by
    rw [← UInt64.toBitVec_inj]
    ext i hi
    simp only [UInt64.toBitVec_and, UInt64.toBitVec_or, BitVec.getElem_and, BitVec.getElem_or]
    cases x.toBitVec[i] <;> cases c.toBitVec[i] <;> cases bit.toBitVec[i] <;> rfl
  rw [hdistrib, h, UInt64.or_zero]

end

/-- The padding bit of the firmware's state is set exactly where it was clear before. -/
theorem withPadBit_eq_iff (state : AsconState) (ciphertext : Bytes) :
    withPadBit (decryptBlocks state ciphertext).1 ciphertext.length
        = (decryptBlocks state ciphertext).1
      ↔ PadBitClear state ciphertext := by
  fun_induction decryptBlocks state ciphertext with
  | case1 state ciphertext h c0 c1 rest ih =>
    have hmod : (ciphertext.drop 16).length % 16 = ciphertext.length % 16 := by
      rw [List.length_drop]
      omega
    rw [PadBitClear, beforeLastBlock, if_pos h, ← hmod]
    rw [PadBitClear] at ih
    rw [← ih, withPadBit, withPadBit, hmod]
  | case2 state ciphertext h h8 c0 c1 x1 =>
    have hmod : ciphertext.length % 16 = ciphertext.length := Nat.mod_eq_of_lt (by omega)
    have hlt : ciphertext.length - 8 < 8 := by omega
    have hbits : x1 ^^^ padWord (ciphertext.length - 8) ||| padWord (ciphertext.length - 8)
        = x1 ^^^ padWord (ciphertext.length - 8)
          ↔ state.x1 &&& padWord (ciphertext.length - 8) = 0 := by
      rw [xor_or_eq_iff]
      exact (or_and_eq_zero_iff _ _ _ (load_and_padWord hlt)).trans
        (clearLowBytes_and_padWord state.x1 hlt)
    rw [PadBitClear, beforeLastBlock, if_neg h, withPadBit, hmod, if_neg (by omega), ← hbits,
      or_iff_right (by omega)]
    simp only [AsconState.mk.injEq, true_and, and_true]
  | case3 state ciphertext h h8 c0 x0 =>
    have hlt : ciphertext.length % 16 < 8 := by
      rw [Nat.mod_eq_of_lt (by omega)]
      omega
    rw [PadBitClear, withPadBit, if_pos hlt]
    exact ⟨fun _ => .inl hlt, fun _ => rfl⟩

/-! ## Encryption and decryption -/

theorem encryptFrom_eq (state : AsconState) (plaintext : Bytes) (offset length : Nat)
    (hlength : length = plaintext.length - offset) :
    encryptFrom (toPeer state) plaintext offset length
      = (toPeer (encryptBlocks state (plaintext.drop offset)).1,
        (encryptBlocks state (plaintext.drop offset)).2) := by
  induction length using Nat.strong_induction_on generalizing state offset with
  | _ length ih =>
    rw [encryptFrom, encryptBlocks]
    simp only [List.length_drop, List.drop_drop, ← hlength]
    split
    · rename_i h16
      have hnext := ih (length - 16) (by omega) (asconPermute8 { state with
        x0 := state.x0 ^^^ loadLittleEndian (plaintext.drop offset) 8
        x1 := state.x1 ^^^ loadLittleEndian (plaintext.drop (offset + 8)) 8 }) (offset + 16)
        (by omega)
      rw [← asconPermute8_toPeer] at hnext
      simp only [toPeer] at hnext ⊢
      simp only [loadLE_eq (Nat.le_refl 8), ← UInt64.toNat_xor, ReferencePeer.toNat_and_mask64,
        hnext, storeLE_eq (Nat.le_refl 8)]
    · rename_i h16
      split
      · rename_i h8
        have hrest : length - 8 ≤ 8 := by omega
        simp only [toPeer, loadLE_eq (Nat.le_refl 8), loadLE_eq hrest, ← UInt64.toNat_xor,
          ReferencePeer.toNat_and_mask64, pad_eq (show length - 8 < 8 by omega),
          storeLE_eq (Nat.le_refl 8), storeLE_eq hrest]
      · rename_i h8
        have hrest : length ≤ 8 := by omega
        simp only [toPeer, loadLE_eq hrest, ← UInt64.toNat_xor, ReferencePeer.toNat_and_mask64,
          pad_eq (show length < 8 by omega), storeLE_eq hrest]

theorem decryptFrom_eq (state : AsconState) (ciphertext : Bytes) (offset length : Nat)
    (hlength : length = ciphertext.length - offset) :
    decryptFrom (toPeer state) ciphertext offset length
      = (toPeer (withPadBit (decryptBlocks state (ciphertext.drop offset)).1 length),
        (decryptBlocks state (ciphertext.drop offset)).2) := by
  induction length using Nat.strong_induction_on generalizing state offset with
  | _ length ih =>
    rw [decryptFrom, decryptBlocks]
    simp only [List.length_drop, List.drop_drop, ← hlength]
    split
    · rename_i h16
      have hmod : (length - 16) % 16 = length % 16 := by omega
      have hnext := ih (length - 16) (by omega) (asconPermute8 { state with
        x0 := loadLittleEndian (ciphertext.drop offset) 8
        x1 := loadLittleEndian (ciphertext.drop (offset + 8)) 8 }) (offset + 16) (by omega)
      rw [← asconPermute8_toPeer, withPadBit, hmod] at hnext
      rw [withPadBit]
      simp only [toPeer] at hnext ⊢
      simp only [loadLE_eq (Nat.le_refl 8), ← UInt64.toNat_xor, hnext, storeLE_eq (Nat.le_refl 8)]
    · rename_i h16
      have hmod : length % 16 = length := Nat.mod_eq_of_lt (by omega)
      split
      · rename_i h8
        have hrest : length - 8 ≤ 8 := by omega
        have hpad := load_and_padWord (b := ciphertext.drop (offset + 8))
          (show length - 8 < 8 by omega)
        rw [withPadBit, hmod, if_neg (by omega)]
        simp only [toPeer, loadLE_eq (Nat.le_refl 8), loadLE_eq hrest, ← UInt64.toNat_xor,
          ReferencePeer.clearLowBytes_eq hrest, ← UInt64.toNat_or,
          pad_eq (show length - 8 < 8 by omega), ReferencePeer.toNat_and_mask64,
          storeLE_eq (Nat.le_refl 8), storeLE_eq hrest, or_xor_pad _ _ _ hpad]
      · rename_i h8
        have hrest : length ≤ 8 := by omega
        rw [withPadBit, hmod, if_pos (by omega)]
        simp only [toPeer, loadLE_eq hrest, ← UInt64.toNat_xor,
          ReferencePeer.clearLowBytes_eq hrest, ← UInt64.toNat_or,
          pad_eq (show length < 8 by omega), ReferencePeer.toNat_and_mask64, storeLE_eq hrest]

/-- The state of the firmware in front of a message. -/
def messageState (key nonce : Block 16) (associatedData : Bytes) : AsconState :=
  C0PQLink.absorbAssociatedData (C0PQLink.asconInitialize key nonce) associatedData

/-- Two states that differ in the padding bit and have one tag. -/
def TagCollides (key : Block 16) (state : AsconState) (ciphertext : Bytes) : Prop :=
  let reached := (decryptBlocks state ciphertext).1
  withPadBit reached ciphertext.length ≠ reached
    ∧ finalizeTag (withPadBit reached ciphertext.length) key = finalizeTag reached key

/-- The decryption of a ciphertext does not depend on the slip. -/
def Unaffected (key nonce : Block 16) (associatedData ciphertext : Bytes) : Prop :=
  PadBitClear (messageState key nonce associatedData) ciphertext
    ∨ TagCollides key (messageState key nonce associatedData) ciphertext

/-- The same for the ciphertext of a record. -/
def UnaffectedRecord (r : SealedRecord) : Prop :=
  Unaffected r.key r.nonce r.associatedData r.sealed.1

section

variable (key nonce : Block 16) (associatedData : Bytes)

theorem asconEncrypt_eq (plaintext : Bytes) :
    asconEncrypt key nonce associatedData plaintext
      = asconAead128Encrypt key nonce associatedData plaintext := by
  simp only [asconEncrypt, asconAead128Encrypt, asconInitialize_eq, asconAbsorbAssociatedData_eq,
    encryptFrom_eq _ plaintext 0 plaintext.length rfl, List.drop_zero, asconFinalize_eq]

theorem asconDecrypt_eq (ciphertext : Bytes) (tag : Block 16) :
    asconDecrypt key nonce associatedData ciphertext tag.val
      = if finalizeTag (withPadBit
            (decryptBlocks (messageState key nonce associatedData) ciphertext).1
            ciphertext.length) key = tag
        then some (decryptBlocks (messageState key nonce associatedData) ciphertext).2
        else none := by
  simp only [asconDecrypt, asconInitialize_eq, asconAbsorbAssociatedData_eq,
    decryptFrom_eq _ ciphertext 0 ciphertext.length rfl, List.drop_zero, asconFinalize_eq]
  exact if_congr Subtype.val_inj rfl rfl

theorem asconAead128Decrypt_eq (ciphertext : Bytes) (tag : Block 16) :
    asconAead128Decrypt key nonce associatedData ciphertext tag
      = if finalizeTag (decryptBlocks (messageState key nonce associatedData) ciphertext).1 key
          = tag
        then some (decryptBlocks (messageState key nonce associatedData) ciphertext).2
        else none := by
  exact ite_not ..

variable {key nonce associatedData}

/-- The slip changes no tag exactly for the unaffected ciphertexts. -/
theorem unaffected_iff (ciphertext : Bytes) :
    Unaffected key nonce associatedData ciphertext
      ↔ finalizeTag (withPadBit
            (decryptBlocks (messageState key nonce associatedData) ciphertext).1
            ciphertext.length) key
          = finalizeTag (decryptBlocks (messageState key nonce associatedData) ciphertext).1
            key := by
  rw [Unaffected, TagCollides, ← withPadBit_eq_iff]
  constructor
  · rintro (hsame | ⟨-, htag⟩)
    · rw [hsame]
    · exact htag
  · intro htag
    by_cases hsame : withPadBit
        (decryptBlocks (messageState key nonce associatedData) ciphertext).1 ciphertext.length
          = (decryptBlocks (messageState key nonce associatedData) ciphertext).1
    · exact .inl hsame
    · exact .inr ⟨hsame, htag⟩

theorem asconDecrypt_agrees_iff (ciphertext : Bytes) :
    (∀ tag : Block 16, asconDecrypt key nonce associatedData ciphertext tag.val
        = asconAead128Decrypt key nonce associatedData ciphertext tag)
      ↔ Unaffected key nonce associatedData ciphertext := by
  rw [unaffected_iff]
  simp only [asconDecrypt_eq, asconAead128Decrypt_eq]
  constructor
  · intro h
    have htag := h (finalizeTag
      (decryptBlocks (messageState key nonce associatedData) ciphertext).1 key)
    rw [if_pos rfl] at htag
    by_contra hne
    rw [if_neg hne] at htag
    cases htag
  · intro h tag
    rw [h]

/-- The ciphertext of an encryption is read exactly when it is unaffected. -/
theorem asconDecrypt_encrypted_iff (plaintext : Bytes) :
    asconDecrypt key nonce associatedData
        (asconAead128Encrypt key nonce associatedData plaintext).1
        (asconAead128Encrypt key nonce associatedData plaintext).2.val = some plaintext
      ↔ Unaffected key nonce associatedData
          (asconAead128Encrypt key nonce associatedData plaintext).1 := by
  have hround := asconDecrypt_encrypt key nonce associatedData plaintext
  rw [asconAead128Decrypt_eq] at hround
  rw [unaffected_iff, asconDecrypt_eq]
  split at hround
  · rename_i htag
    rw [htag, Option.some.inj hround]
    constructor
    · intro h
      by_contra hne
      rw [if_neg hne] at h
      cases h
    · intro h
      rw [if_pos h]
  · cases hround

theorem asconDecrypt_encrypted_cases (plaintext : Bytes) :
    asconDecrypt key nonce associatedData
        (asconAead128Encrypt key nonce associatedData plaintext).1
        (asconAead128Encrypt key nonce associatedData plaintext).2.val = some plaintext
      ∨ asconDecrypt key nonce associatedData
        (asconAead128Encrypt key nonce associatedData plaintext).1
        (asconAead128Encrypt key nonce associatedData plaintext).2.val = none := by
  have hround := asconDecrypt_encrypt key nonce associatedData plaintext
  rw [asconAead128Decrypt_eq] at hround
  rw [asconDecrypt_eq]
  split at hround
  · rw [Option.some.inj hround]
    split
    · exact .inl rfl
    · exact .inr rfl
  · cases hround

end

/-! ## The sessions of the firmware -/

/-- The session of the simulation that a session of the firmware stands for. -/
def simulatorOf (session : NpqSession) : Session where
  sendChain := session.sendChain
  receiveChain := session.receiveChain
  sendNonceBase := session.sendNonceBase
  receiveNonceBase := session.receiveNonceBase
  sessionId := session.sessionId.toNat
  bootEpoch := session.bootEpoch.toNat
  sendSequence := session.sendSequence.toNat
  receiveSequence := session.receiveSequence.toNat

theorem u32be_toNat (value : UInt32) : u32be value.toNat = store32BE value := by
  rw [u32be, UInt32.ofNat_toNat]

theorem readUInt32BE_eq {bytes : Bytes} {offset : Nat} (h : offset + 4 ≤ bytes.length) :
    readUInt32BE bytes offset = (load32BE (slice bytes offset 4)).toNat := by
  rw [readUInt32BE, toNat_load32BE]
  rw [length_slice]
  omega

theorem ratchet_eq (chain : Block 32) (sequence : UInt32) :
    ratchet sha256 chain sequence.toNat = ratchetMaterial sha256 chain sequence := by
  have hlabels : (ascii "NPQ/1 message key").length ≤ 24 ∧
      (ascii "NPQ/1 next chain").length ≤ 24 := by decide
  rw [ratchet, ratchetMaterial, u32be_toNat]
  rw [hmacLabel_eq sha256 chain hlabels.1 (by simp), hmacLabel_eq sha256 chain hlabels.2 (by simp)]
  rfl

theorem makeNonce_eq (base : Block 16) (sequence : UInt32) :
    makeNonce base sequence.toNat = NanoPQ.makeNonce base sequence := by
  apply Block.ext
  rw [makeNonce, NanoPQ.makeNonce]
  simp only [u32be_toNat]

theorem deriveServerSession_eq {rootKey : Block 32} {hello : Block 48} {challenge : Block 60}
    {server : NpqSession}
    (h : npqDeriveSession sha256 npqRoleServer rootKey hello challenge = .ok server) :
    deriveServerSession sha256 rootKey hello challenge = simulatorOf server := by
  unfold npqDeriveSession at h
  cases hprk : deriveTranscriptPrk sha256 rootKey hello challenge with
  | error failure => simp [hprk, npqRoleServer, npqRoleDevice] at h
  | ok derived =>
    obtain ⟨transcript, prk⟩ := derived
    obtain ⟨rfl, rfl⟩ := deriveTranscriptPrk_ok sha256 hprk
    have hroles : ¬ (npqRoleServer = npqRoleDevice) := by decide
    simp (disch := decide) only [hprk, hroles, hkdfExpandLabel_ok, discardNpq, ne_eq, not_true,
      not_false_eq_true, and_false, if_false, Except.ok.injEq] at h
    subst h
    have hchallenge : readUInt32BE challenge.val 40 = _ := readUInt32BE_eq (by simp)
    have hhello : readUInt32BE hello.val 12 = _ := readUInt32BE_eq (by simp)
    rw [deriveServerSession, simulatorOf]
    simp only [hchallenge,
      hhello]
    rfl

theorem toNat_succ_sequence {sequence : UInt32} (h : sequence ≠ 0xffffffff) :
    (sequence + 1).toNat = sequence.toNat + 1 := by
  have hne : sequence.toNat ≠ 0xffffffff := fun heq => h (UInt32.toNat_inj.mp heq)
  have hlt := sequence.toNat_lt
  rw [UInt32.toNat_add]
  exact Nat.mod_eq_of_lt (by simp; omega)

theorem npqDeriveSession_parts {role : UInt8} {rootKey : Block 32} {hello : Block 48}
    {challenge : Block 60} {session : NpqSession}
    (h : npqDeriveSession sha256 role rootKey hello challenge = .ok session) :
    session.sessionId = load32BE (slice challenge.val 40 4) ∧ session.established = 1 := by
  unfold npqDeriveSession at h
  split at h
  · cases h
  · split at h
    · cases h
    · cases h
      exact ⟨rfl, rfl⟩

theorem sealRecord_eq {session : NpqSession} {plaintext frame : Bytes} {session' : NpqSession}
    (h : npqSeal sha256 session plaintext = (.ok frame, session')) :
    sealRecord sha256 (simulatorOf session) plaintext = (frame, simulatorOf session') := by
  rcases npqSeal_cases sha256 session plaintext with ⟨failure, hfailed⟩ | ⟨-, hsequence, hsealed⟩
  · rw [hfailed] at h
    cases h
  · rw [hsealed] at h
    obtain ⟨rfl, rfl⟩ : (session.nextRecord sha256 plaintext).frame = frame
        ∧ session.afterSeal sha256 = session' := by
      simpa using h
    have hsucc := toNat_succ_sequence hsequence
    simp only [sealRecord, simulatorOf, u32be_toNat, ratchet_eq, makeNonce_eq, asconEncrypt_eq,
      NpqSession.afterSeal, hsucc]
    rfl

/-! ## The records that the simulation reads -/

/-- The sessions of a device and of a server that has opened all records of the device. -/
structure Paired (device server : NpqSession) : Prop where
  chain : server.receiveChain = device.sendChain
  nonceBase : server.receiveNonceBase = device.sendNonceBase
  sessionId : server.sessionId = device.sessionId
  sequence : server.receiveSequence = device.sendSequence
  established : server.established ≠ 0

/-- What both readers find in a frame. -/
structure FrameParts (frame : Bytes) (sessionId sequence : UInt32) (core ciphertext : Bytes)
    (tag : Block 16) : Prop where
  length_eq : frame.length = 29 + ciphertext.length
  encodedLength : (byteAt frame 12).toNat = ciphertext.length
  header_eq : slice frame 0 4 = header npqFrameData
  sessionId_eq : load32BE (slice frame 4 4) = sessionId
  sequence_eq : load32BE (slice frame 8 4) = sequence
  core_eq : slice frame 0 13 = core
  ciphertext_eq : slice frame 13 ciphertext.length = ciphertext
  tag_eq : frame.drop (13 + ciphertext.length) = tag.val

theorem dataCore_parts (sessionId sequence : UInt32) {ciphertext : Bytes}
    (hlength : ciphertext.length ≤ 24) (tag : Block 16) :
    FrameParts (dataCore sessionId sequence (UInt8.ofNat ciphertext.length) ++ ciphertext
      ++ tag.val) sessionId sequence
      (dataCore sessionId sequence (UInt8.ofNat ciphertext.length)) ciphertext tag := by
  generalize hcore : dataCore sessionId sequence (UInt8.ofNat ciphertext.length) = core
  have hcoreLength : core.length = 13 := by rw [← hcore, length_dataCore]; rfl
  have hfield {start len : Nat} (h : start + len ≤ 13) :
      slice (core ++ ciphertext ++ tag.val) start len = slice core start len := by
    rw [List.append_assoc, slice_append_left (by omega)]
  have hbyte : byteAt (core ++ ciphertext ++ tag.val) 12 = UInt8.ofNat ciphertext.length := by
    rw [List.append_assoc, byteAt_append_left (by omega), ← hcore]
    rfl
  refine ⟨?_, ?_, ?_, ?_, ?_, ?_, ?_, ?_⟩
  · simp only [List.length_append, hcoreLength, Block.length_val]
    omega
  · rw [hbyte, UInt8.toNat_ofNat']
    omega
  · rw [hfield (by omega), ← hcore]
    rfl
  · rw [hfield (by omega), ← hcore]
    exact load32BE_store32BE sessionId
  · rw [hfield (by omega), ← hcore]
    exact load32BE_store32BE sequence
  · rw [hfield (by omega), slice_self core hcoreLength]
  · rw [slice_field hcoreLength rfl]
  · exact List.drop_left' (by rw [List.length_append, hcoreLength])

section

variable {device server : NpqSession} {plaintext : Bytes}

theorem nextRecord_parts (device : NpqSession) (hlength : plaintext.length ≤ npqDataMaxBytes) :
    FrameParts (device.nextRecord sha256 plaintext).frame device.sessionId device.sendSequence
      (device.nextRecord sha256 plaintext).associatedData
      (device.nextRecord sha256 plaintext).sealed.1
      (device.nextRecord sha256 plaintext).sealed.2 := by
  have hsealed : (device.nextRecord sha256 plaintext).sealed.1.length = plaintext.length :=
    SealedRecord.length_sealed _
  have hdata : (device.nextRecord sha256 plaintext).sealed.1.length ≤ npqDataMaxBytes := by
    rw [hsealed]
    exact hlength
  have hparts := dataCore_parts device.sessionId device.sendSequence hdata
    (device.nextRecord sha256 plaintext).sealed.2
  rw [hsealed] at hparts
  exact hparts

/-- The firmware reads every record that it sealed. -/
theorem npqOpen_nextRecord (hpaired : Paired device server)
    (hlength : plaintext.length ≤ npqDataMaxBytes) :
    npqOpen sha256 server (device.nextRecord sha256 plaintext).frame
      = (.ok plaintext, server.afterOpen sha256) := by
  have hparts := nextRecord_parts sha256 device hlength
  have hsealed : (device.nextRecord sha256 plaintext).sealed.1.length = plaintext.length :=
    SealedRecord.length_sealed _
  generalize (device.nextRecord sha256 plaintext).frame = frame at hparts ⊢
  have hmax : plaintext.length ≤ 24 := hlength
  have hsize := hparts.length_eq
  have hencoded : (byteAt frame 12).toNat = plaintext.length :=
    hparts.encodedLength.trans hsealed
  have hheader : validHeader frame npqFrameData = true :=
    (validHeader_iff (by omega)).mpr hparts.header_eq
  have hshort : ¬ (frame.length < npqDataOverheadBytes ∨ ¬ validHeader frame npqFrameData) := by
    rw [hheader]
    simp only [npqDataOverheadBytes, not_true, or_false]
    omega
  have hformat : ¬ ((byteAt frame 12).toNat > npqDataMaxBytes
      ∨ frame.length ≠ npqDataOverheadBytes + (byteAt frame 12).toNat
      ∨ load32BE (slice frame 4 4) ≠ server.sessionId) := by
    rw [hencoded, hparts.sessionId_eq, hpaired.sessionId, hsize, hsealed]
    simp only [npqDataOverheadBytes, npqDataMaxBytes, ne_eq, not_true, or_false]
    omega
  have hsequence : load32BE (slice frame 8 4) = server.receiveSequence :=
    hparts.sequence_eq.trans hpaired.sequence.symm
  have hreplay : ¬ (server.established = 0
      ∨ load32BE (slice frame 8 4) ≠ server.receiveSequence) := by
    rw [hsequence]
    simp [hpaired.established]
  have hcore : slice frame 0 npqDataCoreBytes
      = (device.nextRecord sha256 plaintext).associatedData := hparts.core_eq
  have hciphertext : slice frame npqDataCoreBytes (byteAt frame 12).toNat
      = (device.nextRecord sha256 plaintext).sealed.1 := by
    rw [hparts.encodedLength]
    exact hparts.ciphertext_eq
  have htag (h : npqDataCoreBytes + (byteAt frame 12).toNat + 16 ≤ frame.length) :
      blockAt frame (npqDataCoreBytes + (byteAt frame 12).toNat) 16 h
        = (device.nextRecord sha256 plaintext).sealed.2 := by
    apply Block.ext
    show slice frame (13 + (byteAt frame 12).toNat) 16 = _
    rw [hparts.encodedLength, slice, hparts.tag_eq, List.take_of_length_le (by simp)]
  have hdecrypt : asconAead128Decrypt
      (ratchetMaterial sha256 server.receiveChain server.receiveSequence).1
      (NanoPQ.makeNonce server.receiveNonceBase server.receiveSequence)
      (device.nextRecord sha256 plaintext).associatedData
      (device.nextRecord sha256 plaintext).sealed.1
      (device.nextRecord sha256 plaintext).sealed.2 = some plaintext := by
    rw [hpaired.chain, hpaired.nonceBase, hpaired.sequence]
    exact (device.nextRecord sha256 plaintext).decrypt_sealed
  unfold npqOpen
  rw [dif_neg hshort]
  simp only
  rw [dif_neg hformat, if_neg hreplay]
  simp only [htag, hciphertext, hcore, hsequence, hdecrypt]
  rfl

/-- The simulation gets to the decryption of every record that the firmware sealed. -/
theorem openRecord_nextRecord (hpaired : Paired device server)
    (hlength : plaintext.length ≤ npqDataMaxBytes) :
    openRecord sha256 (simulatorOf server) (device.nextRecord sha256 plaintext).frame
      = match asconDecrypt (device.nextRecord sha256 plaintext).key
          (device.nextRecord sha256 plaintext).nonce
          (device.nextRecord sha256 plaintext).associatedData
          (device.nextRecord sha256 plaintext).sealed.1
          (device.nextRecord sha256 plaintext).sealed.2.val with
        | some opened => (some opened, { simulatorOf server with
            receiveChain := (ratchetMaterial sha256 server.receiveChain server.receiveSequence).2
            receiveSequence := server.receiveSequence.toNat + 1 })
        | none => (none, simulatorOf server) := by
  have hparts := nextRecord_parts sha256 device hlength
  generalize (device.nextRecord sha256 plaintext).frame = frame at hparts ⊢
  have hsize := hparts.length_eq
  have haccepted : ¬ (frame.length < 29 ∨ slice frame 0 4 ≠ header npqFrameData
      ∨ readUInt32BE frame 4 ≠ (simulatorOf server).sessionId
      ∨ readUInt32BE frame 8 ≠ (simulatorOf server).receiveSequence
      ∨ frame.length ≠ 29 + (byteAt frame 12).toNat) := by
    rw [readUInt32BE_eq (by omega), readUInt32BE_eq (by omega), hparts.sessionId_eq,
      hparts.sequence_eq, hparts.header_eq, hparts.encodedLength, hsize]
    simp [simulatorOf, hpaired.sessionId, hpaired.sequence]
  rw [openRecord, if_neg haccepted]
  simp only [hparts.encodedLength, hparts.core_eq, hparts.ciphertext_eq, hparts.tag_eq]
  have hkey : (device.nextRecord sha256 plaintext).key
      = (ratchet sha256 (simulatorOf server).receiveChain (simulatorOf server).receiveSequence).1 := by
    show (ratchetMaterial sha256 device.sendChain device.sendSequence).1 = _
    rw [← hpaired.chain, ← hpaired.sequence, ← ratchet_eq]
    rfl
  have hnonce : (device.nextRecord sha256 plaintext).nonce
      = makeNonce (simulatorOf server).receiveNonceBase (simulatorOf server).receiveSequence := by
    show NanoPQ.makeNonce device.sendNonceBase device.sendSequence = _
    rw [← hpaired.nonceBase, ← hpaired.sequence, ← makeNonce_eq]
    rfl
  have hchain : (ratchet sha256 (simulatorOf server).receiveChain
      (simulatorOf server).receiveSequence).2
      = (ratchetMaterial sha256 server.receiveChain server.receiveSequence).2 := by
    rw [← ratchet_eq]
    rfl
  rw [← hkey, ← hnonce, hchain]
  rfl

/-- The simulation reads a record, as the firmware does, exactly when it is unaffected. -/
theorem openRecord_eq_iff (hpaired : Paired device server)
    (hsequence : device.sendSequence ≠ 0xffffffff)
    (hlength : plaintext.length ≤ npqDataMaxBytes) :
    openRecord sha256 (simulatorOf server) (device.nextRecord sha256 plaintext).frame
        = (some plaintext, simulatorOf (server.afterOpen sha256))
      ↔ UnaffectedRecord (device.nextRecord sha256 plaintext) := by
  have hsucc := toNat_succ_sequence hsequence
  rw [openRecord_nextRecord sha256 hpaired hlength]
  generalize hrecord : device.nextRecord sha256 plaintext = r
  obtain rfl : r.plaintext = plaintext := by rw [← hrecord]; rfl
  refine Iff.trans ?_ (asconDecrypt_encrypted_iff r.plaintext)
  have hcases : asconDecrypt r.key r.nonce r.associatedData r.sealed.1 r.sealed.2.val
        = some r.plaintext
      ∨ asconDecrypt r.key r.nonce r.associatedData r.sealed.1 r.sealed.2.val = none :=
    asconDecrypt_encrypted_cases r.plaintext
  constructor
  · intro h
    rcases hcases with hread | hrefused
    · exact hread
    · rw [hrefused] at h
      cases h
  · intro hread
    replace hread : asconDecrypt r.key r.nonce r.associatedData r.sealed.1 r.sealed.2.val
      = some r.plaintext := hread
    rw [hread]
    simp only [simulatorOf, NpqSession.afterOpen, hpaired.sequence, hsucc]

theorem Paired.afterOpen (hpaired : Paired device server) :
    Paired (device.afterSeal sha256) (server.afterOpen sha256) := by
  refine ⟨?_, hpaired.nonceBase, hpaired.sessionId, ?_, hpaired.established⟩
  · show (ratchetMaterial sha256 server.receiveChain server.receiveSequence).2
      = (ratchetMaterial sha256 device.sendChain device.sendSequence).2
    rw [hpaired.chain, hpaired.sequence]
  · show server.receiveSequence + 1 = device.sendSequence + 1
    rw [hpaired.sequence]

end

/-! ## Runs of a session -/

theorem derived_paired {rootKey : Block 32} {hello : Block 48} {challenge : Block 60}
    {device server : NpqSession}
    (hdevice : npqDeriveSession sha256 npqRoleDevice rootKey hello challenge = .ok device)
    (hserver : npqDeriveSession sha256 npqRoleServer rootKey hello challenge = .ok server) :
    Paired device server := by
  have hmirrored := (npqDeriveSession_derived sha256 hdevice hserver).mirrored
  have hparts := npqDeriveSession_parts sha256 hdevice
  have hparts' := npqDeriveSession_parts sha256 hserver
  refine ⟨hmirrored.clientChain, hmirrored.clientBase, ?_, ?_, ?_⟩
  · rw [hparts.1, hparts'.1]
  · rw [hmirrored.serverReceived, hmirrored.deviceSent]
  · rw [hparts'.2]
    decide

/-- A device, the server of the firmware's code and the simulation, from one handshake on:
the device seals records that are unaffected, and the server answers with records. -/
inductive Exchanged (rootKey : Block 32) (hello : Block 48) (challenge : Block 60) :
    NpqSession → NpqSession → Session → Prop where
  | derived {device server : NpqSession} :
    npqDeriveSession sha256 npqRoleDevice rootKey hello challenge = .ok device →
      npqDeriveSession sha256 npqRoleServer rootKey hello challenge = .ok server →
      Exchanged rootKey hello challenge device server
        (deriveServerSession sha256 rootKey hello challenge)
  | sealed {device server device' : NpqSession} {simulator : Session}
    {plaintext frame : Bytes} :
    Exchanged rootKey hello challenge device server simulator →
      npqSeal sha256 device plaintext = (.ok frame, device') →
      UnaffectedRecord (device.nextRecord sha256 plaintext) →
      Exchanged rootKey hello challenge device' (npqOpen sha256 server frame).2
        (openRecord sha256 simulator frame).2
  | answered {device server server' : NpqSession} {simulator : Session}
    {plaintext frame : Bytes} :
    Exchanged rootKey hello challenge device server simulator →
      npqSeal sha256 server plaintext = (.ok frame, server') →
      Exchanged rootKey hello challenge (npqOpen sha256 device frame).2 server'
        (sealRecord sha256 simulator plaintext).2

section

variable {device server device' server' : NpqSession} {plaintext frame : Bytes}

theorem npqSeal_ok (h : npqSeal sha256 device plaintext = (.ok frame, device')) :
    plaintext.length ≤ npqDataMaxBytes ∧ device.sendSequence ≠ 0xffffffff
      ∧ frame = (device.nextRecord sha256 plaintext).frame
      ∧ device' = device.afterSeal sha256 := by
  rcases npqSeal_cases sha256 device plaintext with ⟨failure, hfailed⟩ | ⟨hlength, hmax, hsealed⟩
  · rw [hfailed] at h
    cases h
  · rw [hsealed] at h
    cases h
    exact ⟨hlength, hmax, rfl, rfl⟩

/-- Records to the device change nothing of the other direction. -/
theorem Paired.answered (hpaired : Paired device server)
    (h : npqSeal sha256 server plaintext = (.ok frame, server')) :
    Paired (npqOpen sha256 device frame).2 server' := by
  obtain ⟨-, -, -, rfl⟩ := npqSeal_ok sha256 h
  rcases npqOpen_cases sha256 device frame with ⟨failure, hopen⟩ | ⟨opened, -, hopen⟩ <;>
    rw [hopen] <;>
    exact ⟨hpaired.chain, hpaired.nonceBase, hpaired.sessionId, hpaired.sequence,
      hpaired.established⟩

/-- The simulation has the session of the firmware's server all along. -/
theorem Exchanged.inStep {rootKey : Block 32} {hello : Block 48} {challenge : Block 60}
    {simulator : Session}
    (h : Exchanged sha256 rootKey hello challenge device server simulator) :
    Paired device server ∧ simulator = simulatorOf server := by
  induction h with
  | derived hdevice hserver =>
    exact ⟨derived_paired sha256 hdevice hserver, deriveServerSession_eq sha256 hserver⟩
  | sealed _ hsealed hunaffected ih =>
    obtain ⟨hpaired, rfl⟩ := ih
    obtain ⟨hlength, hmax, rfl, rfl⟩ := npqSeal_ok sha256 hsealed
    rw [npqOpen_nextRecord sha256 hpaired hlength,
      (openRecord_eq_iff sha256 hpaired hmax hlength).mpr hunaffected]
    exact ⟨hpaired.afterOpen sha256, rfl⟩
  | answered _ hsealed ih =>
    obtain ⟨hpaired, rfl⟩ := ih
    rw [sealRecord_eq sha256 hsealed]
    exact ⟨hpaired.answered sha256 hsealed, rfl⟩

end

/-- The decryption of the simulation agrees with that of the firmware exactly on the
unaffected ciphertexts, and it reads the next record of a run exactly when that record is
unaffected. -/
theorem simulator_reads_iff :
    (∀ (key nonce : Block 16) (associatedData ciphertext : Bytes),
      (∀ tag : Block 16, asconDecrypt key nonce associatedData ciphertext tag.val
          = asconAead128Decrypt key nonce associatedData ciphertext tag)
        ↔ Unaffected key nonce associatedData ciphertext)
      ∧ ∀ (rootKey : Block 32) (hello : Block 48) (challenge : Block 60)
        (device server device' : NpqSession) (simulator : Session) (plaintext frame : Bytes),
        Exchanged sha256 rootKey hello challenge device server simulator →
          npqSeal sha256 device plaintext = (.ok frame, device') →
          simulator = simulatorOf server
            ∧ npqOpen sha256 server frame = (.ok plaintext, server.afterOpen sha256)
            ∧ (openRecord sha256 simulator frame
                = (some plaintext, simulatorOf (server.afterOpen sha256))
              ↔ UnaffectedRecord (device.nextRecord sha256 plaintext)) := by
  refine ⟨fun _ _ _ ciphertext => asconDecrypt_agrees_iff ciphertext, ?_⟩
  intro rootKey hello challenge device server device' simulator plaintext frame hrun hsealed
  obtain ⟨hpaired, rfl⟩ := hrun.inStep sha256
  obtain ⟨hlength, hmax, rfl, rfl⟩ := npqSeal_ok sha256 hsealed
  exact ⟨rfl, npqOpen_nextRecord sha256 hpaired hlength,
    openRecord_eq_iff sha256 hpaired hmax hlength⟩

/-- A short record of a concrete handshake is read. -/
theorem simulator_reads_three_bytes :
    Exchanged byteSum (Block.zero 32) exampleHello exampleChallenge
        (exampleSession npqRoleDevice) (exampleSession npqRoleServer)
        (deriveServerSession byteSum (Block.zero 32) exampleHello exampleChallenge)
      ∧ openRecord byteSum
          (deriveServerSession byteSum (Block.zero 32) exampleHello exampleChallenge)
          ((exampleSession npqRoleDevice).nextRecord byteSum [1, 2, 3]).frame
        = (some [1, 2, 3], simulatorOf ((exampleSession npqRoleServer).afterOpen byteSum)) := by
  have hdevice : npqDeriveSession byteSum npqRoleDevice (Block.zero 32) exampleHello
      exampleChallenge = .ok (exampleSession npqRoleDevice) := by decide +kernel
  have hserver : npqDeriveSession byteSum npqRoleServer (Block.zero 32) exampleHello
      exampleChallenge = .ok (exampleSession npqRoleServer) := by decide +kernel
  have hrun := Exchanged.derived hdevice hserver
  have hsealed : npqSeal byteSum (exampleSession npqRoleDevice) [1, 2, 3]
      = (.ok ((exampleSession npqRoleDevice).nextRecord byteSum [1, 2, 3]).frame,
        (exampleSession npqRoleDevice).afterSeal byteSum) := by
    rcases npqSeal_cases byteSum (exampleSession npqRoleDevice) [1, 2, 3] with
      ⟨failure, hfailed⟩ | ⟨-, -, hsealed⟩
    · unfold npqSeal at hfailed
      rw [if_neg (by decide), if_neg (by decide +kernel)] at hfailed
      cases hfailed
    · exact hsealed
  refine ⟨hrun, ((simulator_reads_iff byteSum).2 _ _ _ _ _ _ _ _ _ hrun hsealed).2.2.mpr ?_⟩
  refine .inl (.inl ?_)
  rw [SealedRecord.length_sealed]
  decide

/-! Eight zero bytes under the zero key and nonce. The padding bit is set in the state of the
firmware before the last block. -/

theorem encryptBlocks_eight (state : AsconState) {plaintext : Bytes} (h : plaintext.length = 8) :
    (encryptBlocks state plaintext).1
      = { state with
          x0 := state.x0 ^^^ loadLittleEndian plaintext 8
          x1 := state.x1 ^^^ loadLittleEndian (plaintext.drop 8) 0 ^^^ padWord 0 } := by
  rw [encryptBlocks]
  simp [h]

theorem simulator_refuses_eight_zeros :
    asconAead128Decrypt (Block.zero 16) (Block.zero 16) []
        (asconAead128Encrypt (Block.zero 16) (Block.zero 16) [] (List.replicate 8 0)).1
        (asconAead128Encrypt (Block.zero 16) (Block.zero 16) [] (List.replicate 8 0)).2
          = some (List.replicate 8 0)
      ∧ asconDecrypt (Block.zero 16) (Block.zero 16) []
        (asconAead128Encrypt (Block.zero 16) (Block.zero 16) [] (List.replicate 8 0)).1
        (asconAead128Encrypt (Block.zero 16) (Block.zero 16) [] (List.replicate 8 0)).2.val
          = none := by
  refine ⟨asconDecrypt_encrypt .., (asconDecrypt_encrypted_cases _).resolve_left fun h => ?_⟩
  rw [asconDecrypt_encrypted_iff, unaffected_iff] at h
  have hciphertext : (asconAead128Encrypt (Block.zero 16) (Block.zero 16) []
      (List.replicate 8 0)).1
      = (encryptBlocks (messageState (Block.zero 16) (Block.zero 16) []) (List.replicate 8 0)).2 :=
    rfl
  rw [hciphertext, decryptBlocks_encryptBlocks, length_encryptBlocks,
    encryptBlocks_eight _ List.length_replicate] at h
  revert h
  decide +kernel

end C0PQLink.NanoPQ.AvrE2e
