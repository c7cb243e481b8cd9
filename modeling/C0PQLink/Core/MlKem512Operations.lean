import C0PQLink.Core.MlKem512Stream
import C0PQLink.Foundation.Noted

/-!
# The signed arithmetic of the encapsulation

The functions of `core/mlkem512_stream.c` once more, each with the operations that it
performs in a signed type when an `int` has 32 bits: operands of the types `uint8_t`,
`uint16_t` and `int16_t` are promoted to `int`. An operation is noted with its mathematical
result. The calls of the reductions are noted with what they are called with.

* `ArithmeticNote`: the operations, and `ArithmeticNote.result` what they compute.
* `WithNotes.encapsulateDerand`: the encapsulation as a program that marks its operations;
  `encapsulateDerand_erase` states that it is `encapsulateDerand` apart from the marks.
-/

namespace C0PQLink

open Foundation Fips203

inductive ArithmeticNote where
  /-- An operation in a signed type. -/
  | signed (result : Int)
  /-- A sum or difference that is stored as an `int16_t` without a reduction. -/
  | stored (result : Int)
  /-- The product of `MLKEM_QINV` and the low half of `value` that `montgomery_reduce` starts
  with. -/
  | reduces (value : Int32)
  /-- A result of `fqmul`. -/
  | multiplies (result : Int16)
  /-- A coefficient that `inverse_ntt` gets. -/
  | inverts (coefficient : Int16)
  deriving DecidableEq

/-- The low half of a word. -/
def lowHalf (value : Int32) : UInt16 := value.toInt16.toUInt16

/-- The mathematical result of an operation in a signed type. -/
def ArithmeticNote.result : ArithmeticNote → Option Int
  | .signed result => some result
  | .stored result => some result
  | .reduces value => some ((lowHalf value).toNat * mlkemQinv.toNat)
  | .multiplies _ => none
  | .inverts _ => none

namespace WithNotes

open Noted (note entries)

def signed (result : Int) : Noted ArithmeticNote Unit := note (.signed result)

def stored (result : Int) : Noted ArithmeticNote Unit := note (.stored result)

/-- `value >> count` for a promoted unsigned value. -/
def shiftsRight (value count : Nat) : Noted ArithmeticNote Unit :=
  signed (value / 2 ^ count : Nat)

/-- `value << count` for a promoted unsigned value. -/
def shiftsLeft (value count : Nat) : Noted ArithmeticNote Unit :=
  signed (value * 2 ^ count : Nat)

/-! ## Modular arithmetic on machine words -/

def multiplyU8Fixed (a b : UInt8) : Noted ArithmeticNote UInt16 := do
  signed (a.toNat * b.toNat : Nat)
  return a.toUInt16 * b.toUInt16

def multiplyU16Fixed (a b : UInt16) : Noted ArithmeticNote UInt32 := do
  let p00 ← multiplyU8Fixed a.toUInt8 b.toUInt8
  shiftsRight b.toNat 8
  let p01 ← multiplyU8Fixed a.toUInt8 (b >>> 8).toUInt8
  shiftsRight a.toNat 8
  let p10 ← multiplyU8Fixed (a >>> 8).toUInt8 b.toUInt8
  shiftsRight a.toNat 8
  shiftsRight b.toNat 8
  let p11 ← multiplyU8Fixed (a >>> 8).toUInt8 (b >>> 8).toUInt8
  return p00.toUInt32 + (p01.toUInt32 <<< 8) + (p10.toUInt32 <<< 8) + (p11.toUInt32 <<< 16)

def multiplyS16ConstantSchedule (a b : Int16) : Noted ArithmeticNote Int32 := do
  let ua := a.toUInt16
  let ub := b.toUInt16
  shiftsRight ua.toNat 15
  let aNegative := (ua >>> 15).toUInt32
  shiftsRight ub.toNat 15
  let bNegative := (ub >>> 15).toUInt32
  let product ← multiplyU16Fixed ua ub
  let aCorrection := ((0 : UInt32) - aNegative) &&& (ub.toUInt32 <<< 16)
  let bCorrection := ((0 : UInt32) - bNegative) &&& (ua.toUInt32 <<< 16)
  return (product - aCorrection - bCorrection).toInt32

def montgomeryReduce (value : Int32) : Noted ArithmeticNote Int16 := do
  let low := value.toInt16
  note (.reduces value)
  let factor := (low.toUInt16 * mlkemQinv).toInt16
  let product ← multiplyS16ConstantSchedule factor mlkemQ
  signed (value.toInt - product.toInt)
  signed ((value - product).toInt / 2 ^ 16)
  return ((value - product) >>> 16).toInt16

def barrettReduce (value : Int16) : Noted ArithmeticNote Int16 := do
  -- the constant expressions `INT32_C(1) << 26`, `MLKEM_Q / 2`, their sum and its quotient
  signed (2 ^ 26)
  signed (3329 / 2)
  signed (2 ^ 26 + 3329 / 2)
  signed ((2 ^ 26 + 3329 / 2) / 3329)
  let v : Int16 := Int16.ofInt ((2 ^ 26 + 3329 / 2) / 3329)
  let product ← multiplyS16ConstantSchedule v value
  signed (2 ^ 25)
  signed (product.toInt + 2 ^ 25)
  signed ((product + 0x2000000).toInt / 2 ^ 26)
  let quotient := ((product + 0x2000000) >>> 26).toInt16
  let multiple ← multiplyS16ConstantSchedule quotient mlkemQ
  signed (value.toInt - multiple.toInt16.toInt)
  return value - multiple.toInt16

def fqmul (a b : Int16) : Noted ArithmeticNote Int16 := do
  let product ← multiplyS16ConstantSchedule a b
  let result ← montgomeryReduce product
  note (.multiplies result)
  return result

def freezeCoefficient (value : Int16) : Noted ArithmeticNote Int16 := do
  let reduced ← barrettReduce value
  signed (reduced.toInt / 2 ^ 15)
  let mask := reduced >>> 15
  signed (reduced.toInt + (mask &&& mlkemQ).toInt)
  return reduced + (mask &&& mlkemQ)

/-! ## The transforms -/

def nttButterfly (k : Nat) (x y : Int16) : Noted ArithmeticNote (Int16 × Int16) := do
  let product ← fqmul (loadZeta k) y
  stored (x.toInt - product.toInt)
  stored (x.toInt + product.toInt)
  return (x + product, x - product)

def ntt (polynomial : Polynomial) : Noted ArithmeticNote Polynomial := do
  let state ← Noted.notedLayers nttButterfly (· + 1) 256 [128, 64, 32, 16, 8, 4, 2] (polynomial, 1)
  return state.1

def inverseNttButterfly (k : Nat) (x y : Int16) : Noted ArithmeticNote (Int16 × Int16) := do
  stored (x.toInt + y.toInt)
  let sum ← barrettReduce (x + y)
  stored (y.toInt - x.toInt)
  let product ← fqmul (loadZeta k) (y - x)
  return (sum, product)

def inverseNtt (polynomial : Polynomial) : Noted ArithmeticNote Polynomial := do
  let _ ← entries 256 fun j => note (.inverts (polynomial j))
  let state ← Noted.notedLayers inverseNttButterfly (· - 1) 256 [2, 4, 8, 16, 32, 64, 128]
    (polynomial, 127)
  entries 256 fun j => fqmul (state.1 j) 1441

def baseMultiplyAdd (accumulator : Int16 × Int16) (a0 a1 b0 b1 zeta : Int16) :
    Noted ArithmeticNote (Int16 × Int16) := do
  let c0 ← fqmul a1 b1
  let c0 ← fqmul c0 zeta
  let p00 ← fqmul a0 b0
  stored (c0.toInt + p00.toInt)
  let c0 := c0 + p00
  stored (accumulator.1.toInt + c0.toInt)
  let p01 ← fqmul a0 b1
  signed (accumulator.2.toInt + p01.toInt)
  let p10 ← fqmul a1 b0
  stored (accumulator.2.toInt + p01.toInt + p10.toInt)
  return (accumulator.1 + c0, accumulator.2 + p01 + p10)

/-- The two calls of `base_multiply_add` for the block of four entries. -/
def multiplyBlock (readZeta : Nat → Int16) (accumulator a vector : Polynomial) (block : Nat) :
    Noted ArithmeticNote ((Int16 × Int16) × (Int16 × Int16)) := do
  let base := 4 * block
  let zeta := readZeta (64 + block)
  let low ← baseMultiplyAdd (accumulator base, accumulator (base + 1)) (a base) (a (base + 1))
    (vector base) (vector (base + 1)) zeta
  signed (-zeta.toInt)
  let high ← baseMultiplyAdd (accumulator (base + 2), accumulator (base + 3)) (a (base + 2))
    (a (base + 3)) (vector (base + 2)) (vector (base + 3)) (-zeta)
  return (low, high)

def multiplyAdd (readZeta : Nat → Int16) (accumulator a vector : Polynomial) :
    Noted ArithmeticNote Polynomial := do
  let blocks ← entries 64 (multiplyBlock readZeta accumulator a vector)
  return fun i =>
    match i % 4 with
    | 0 => (blocks (i / 4)).1.1
    | 1 => (blocks (i / 4)).1.2
    | 2 => (blocks (i / 4)).2.1
    | _ => (blocks (i / 4)).2.2

/-! ## Sampling -/

/-- The steps of the position of a Keccak context that absorbs `input` bytes and gives
`output` bytes. The position starts at 0 and starts again when it comes to the rate. -/
def keccak (rate input output : Nat) : Noted ArithmeticNote Unit := do
  let advance (position : Nat) : Noted ArithmeticNote Unit := do
    shiftsRight position 3
    signed (position + 1)
  let _ ← entries input fun n => advance (n % rate)
  shiftsRight (input % rate) 3
  let _ ← entries output fun n => advance (n % rate)

def popcount2 (value : UInt8) : Noted ArithmeticNote UInt8 := do
  shiftsRight value.toNat 1
  return (value &&& (1 : UInt8)) + ((value >>> 1) &&& (1 : UInt8))

def sampleCbd2 (stream : Nat → UInt8) : Noted ArithmeticNote Polynomial :=
  entries 256 fun position => do
    let byte := stream (position / 2)
    let half := position % 2
    shiftsRight byte.toNat (4 * half)
    let nibble := byte >>> UInt8.ofNat (4 * half)
    let low ← popcount2 nibble
    shiftsRight nibble.toNat 2
    let high ← popcount2 (nibble >>> 2)
    stored (low.toNat - high.toNat)
    return Int16.ofNat low.toNat - Int16.ofNat high.toNat

def sampleCbd3 (stream : Nat → UInt8) : Noted ArithmeticNote Polynomial :=
  entries 256 fun position => do
    let block := position / 4
    let i := UInt32.ofNat (position % 4)
    let word := (stream (3 * block)).toUInt32 ||| ((stream (3 * block + 1)).toUInt32 <<< 8)
      ||| ((stream (3 * block + 2)).toUInt32 <<< 16)
    let mask : UInt32 := 0x00249249
    let sums := (word &&& mask) + ((word >>> 1) &&& mask) + ((word >>> 2) &&& mask)
    let a := ((sums >>> (6 * i)) &&& (7 : UInt32)).toNat
    let b := ((sums >>> (6 * i + 3)) &&& (7 : UInt32)).toNat
    stored (a - b)
    return Int16.ofNat a - Int16.ofNat b

def decodeFirst (b0 b1 : UInt8) : Noted ArithmeticNote UInt16 := do
  shiftsLeft (b1 &&& (0x0f : UInt8)).toNat 8
  return b0.toUInt16 ||| ((b1 &&& (0x0f : UInt8)).toUInt16 <<< 8)

def decodeSecond (b1 b2 : UInt8) : Noted ArithmeticNote UInt16 := do
  shiftsRight b1.toNat 4
  shiftsLeft b2.toNat 4
  return (b1.toUInt16 >>> 4) ||| (b2.toUInt16 <<< 4)

def readerValue (stream : Nat → UInt8) (k : Nat) : Noted ArithmeticNote UInt16 :=
  let b0 := stream (3 * (k / 2))
  let b1 := stream (3 * (k / 2) + 1)
  let b2 := stream (3 * (k / 2) + 2)
  if k % 2 = 0 then decodeFirst b0 b1 else decodeSecond b1 b2

variable (hashes : Hashes)

def sampleCbd (seed : Bytes) (nonce : UInt8) (eta : Nat) : Noted ArithmeticNote Polynomial := do
  keccak 136 33 (if eta = 2 then 128 else 192)
  let stream := hashes.prf (seed ++ [nonce])
  if eta = 2 then sampleCbd2 stream else sampleCbd3 stream

/-- The 256 calls of `sample_ntt_next`, with the numbers that they read. -/
def sampleNttValues (seed : Bytes) : Noted ArithmeticNote Polynomial := do
  let count := sampleNttPosition hashes seed 256
  keccak 168 34 (3 * ((count + 1) / 2))
  let _ ← entries count (readerValue (hashes.xof seed))
  return C0PQLink.sampleNttValues hashes seed

def matrixProductAdd (zetaData : Nat → Int16) (accumulator vector : Polynomial) (rho : Bytes)
    (x y : UInt8) : Noted ArithmeticNote Polynomial := do
  let a ← sampleNttValues hashes (rho ++ [x, y])
  multiplyAdd zetaData accumulator a vector

/-! ## Compression -/

def compress10 (coefficient : Int16) : Noted ArithmeticNote UInt16 := do
  let frozen ← freezeCoefficient coefficient
  let value := frozen.toUInt16.toUInt64
  let scaled := ((value <<< 10) + 1665) * 1290167
  return ((scaled >>> 32) &&& (0x03ff : UInt64)).toUInt16

def compress4 (coefficient : Int16) : Noted ArithmeticNote UInt8 := do
  let frozen ← freezeCoefficient coefficient
  let value := frozen.toUInt16.toUInt32
  let scaled := ((value <<< 4) + 1665) * 80635
  return ((scaled >>> 28) &&& (0x0f : UInt32)).toUInt8

def packU (polynomial : Polynomial) (block : Nat) : Noted ArithmeticNote Bytes := do
  let t0 ← compress10 (polynomial (4 * block))
  let t1 ← compress10 (polynomial (4 * block + 1))
  let t2 ← compress10 (polynomial (4 * block + 2))
  let t3 ← compress10 (polynomial (4 * block + 3))
  shiftsRight t0.toNat 8
  shiftsLeft t1.toNat 2
  shiftsRight t1.toNat 6
  shiftsLeft t2.toNat 4
  shiftsRight t2.toNat 4
  shiftsLeft t3.toNat 6
  shiftsRight t3.toNat 2
  return [t0.toUInt8, ((t0 >>> 8) ||| (t1 <<< 2)).toUInt8, ((t1 >>> 6) ||| (t2 <<< 4)).toUInt8,
    ((t2 >>> 4) ||| (t3 <<< 6)).toUInt8, (t3 >>> 2).toUInt8]

def messageCoefficient (message : Bytes) (i : Nat) : Noted ArithmeticNote Int16 := do
  shiftsRight (byteAt message (i / 8)).toNat (i % 8)
  signed (0 - (messageBit message i).toNat)
  return (((0 : UInt16) - messageBit message i) &&& (1665 : UInt16)).toInt16

def packV (polynomial : Polynomial) (message : Bytes) (block : Nat) :
    Noted ArithmeticNote Bytes := do
  let m0 ← messageCoefficient message (2 * block)
  let m1 ← messageCoefficient message (2 * block + 1)
  stored ((polynomial (2 * block)).toInt + m0.toInt)
  let low ← compress4 (polynomial (2 * block) + m0)
  stored ((polynomial (2 * block + 1)).toInt + m1.toInt)
  let high ← compress4 (polynomial (2 * block + 1) + m1)
  shiftsLeft high.toNat 4
  return [low ||| (high <<< 4)]

/-! ## The two parts of the ciphertext -/

def deriveKAndCoins (randomness : Block 32) (publicKeyHash : Block 32) :
    Noted ArithmeticNote (Block 32 × Block 32) := do
  keccak 72 64 64
  return C0PQLink.deriveKAndCoins hashes randomness publicKeyHash

/-- The reduction of the accumulator, the inverse transform and the sum with the noise. -/
def finishAccumulator (coins : Bytes) (nonce : UInt8) (product : Polynomial) :
    Noted ArithmeticNote Polynomial := do
  let reduced ← entries 256 fun i => barrettReduce (product i)
  let accumulator ← inverseNtt reduced
  let noise ← sampleCbd hashes coins nonce 2
  entries 256 fun i => do
    stored ((accumulator i).toInt + (noise i).toInt)
    return accumulator i + noise i

def rowPolynomial (zetaData : Nat → Int16) (rho coins : Bytes) (row : Nat) :
    Noted ArithmeticNote Polynomial := do
  let product ← (List.range 2).foldlM (fun accumulator column => do
    let noise ← sampleCbd hashes coins (UInt8.ofNat column) 3
    let vector ← ntt noise
    matrixProductAdd hashes zetaData accumulator vector rho (UInt8.ofNat row)
      (UInt8.ofNat column)) fun _ => 0
  finishAccumulator hashes coins (UInt8.ofNat (2 + row)) product

def keyCoefficients (encoded : Bytes) : Noted ArithmeticNote Polynomial :=
  entries 256 fun i => do
    let value ← readerValue (byteAt encoded) i
    return value.toInt16

def messagePolynomial (coins : Bytes) (encoded : Nat → Bytes) :
    Noted ArithmeticNote Polynomial := do
  let product ← (List.range 2).foldlM (fun accumulator column => do
    let noise ← sampleCbd hashes coins (UInt8.ofNat column) 3
    let vector ← ntt noise
    let a ← keyCoefficients (encoded column)
    multiplyAdd loadZeta accumulator a vector) fun _ => 0
  finishAccumulator hashes coins 4 product

/-! ## The values -/

@[simp] theorem value_fqmul (a b : Int16) : (fqmul a b).value = C0PQLink.fqmul a b := rfl

@[simp] theorem value_barrettReduce (value : Int16) :
    (barrettReduce value).value = C0PQLink.barrettReduce value := rfl

@[simp] theorem value_freezeCoefficient (value : Int16) :
    (freezeCoefficient value).value = C0PQLink.freezeCoefficient value := rfl

@[simp] theorem value_ntt (polynomial : Polynomial) :
    (ntt polynomial).value = C0PQLink.ntt polynomial :=
  congrArg Prod.fst (Noted.value_notedLayers ..)

@[simp] theorem value_inverseNtt (polynomial : Polynomial) :
    (inverseNtt polynomial).value = C0PQLink.inverseNtt polynomial := by
  have hbutterfly : (fun k x y => (inverseNttButterfly k x y).value)
      = C0PQLink.inverseNttButterfly := rfl
  funext j
  simp only [inverseNtt, Noted.value_bind, Noted.value_entries, Noted.value_notedLayers,
    value_fqmul, hbutterfly, C0PQLink.inverseNtt]
  rfl

@[simp] theorem value_multiplyAdd (readZeta : Nat → Int16) (accumulator a vector : Polynomial) :
    (multiplyAdd readZeta accumulator a vector).value
      = C0PQLink.multiplyAdd readZeta accumulator a vector := rfl

@[simp] theorem value_readerValue (stream : Nat → UInt8) (k : Nat) :
    (readerValue stream k).value = C0PQLink.readerValue stream k := by
  unfold readerValue C0PQLink.readerValue
  split
  · rfl
  · rfl

@[simp] theorem value_sampleCbd (seed : Bytes) (nonce : UInt8) (eta : Nat) :
    (sampleCbd hashes seed nonce eta).value = C0PQLink.sampleCbd hashes seed nonce eta := by
  rw [sampleCbd, C0PQLink.sampleCbd, Noted.value_bind]
  split
  · rfl
  · rfl

@[simp] theorem value_packU (polynomial : Polynomial) (block : Nat) :
    (packU polynomial block).value = C0PQLink.packU polynomial block := rfl

@[simp] theorem value_packV (polynomial : Polynomial) (message : Bytes) (block : Nat) :
    (packV polynomial message block).value = C0PQLink.packV polynomial message block := rfl

theorem value_finishAccumulator (coins : Bytes) (nonce : UInt8) (product : Polynomial) (i : Nat) :
    (finishAccumulator hashes coins nonce product).value i
      = C0PQLink.inverseNtt (fun i => C0PQLink.barrettReduce (product i)) i
        + C0PQLink.sampleCbd hashes coins nonce 2 i := by
  have hreduced : (entries 256 fun i => barrettReduce (product i)).value
      = fun i => C0PQLink.barrettReduce (product i) := rfl
  simp only [finishAccumulator, Noted.value_bind, Noted.value_entries, Noted.value_pure,
    value_inverseNtt, value_sampleCbd, hreduced]

@[simp] theorem value_rowPolynomial (zetaData : Nat → Int16) (rho coins : Bytes) (row : Nat) :
    (rowPolynomial hashes zetaData rho coins row).value
      = C0PQLink.rowPolynomial hashes zetaData rho coins row := by
  funext i
  simp only [rowPolynomial, Noted.value_bind, value_finishAccumulator, Noted.value_foldlM,
    value_sampleCbd, value_ntt, matrixProductAdd, value_multiplyAdd]
  rfl

@[simp] theorem value_keyCoefficients (encoded : Bytes) :
    (keyCoefficients encoded).value = C0PQLink.keyCoefficients encoded := by
  funext i
  simp only [keyCoefficients, Noted.value_entries, Noted.value_bind, value_readerValue]
  rfl

@[simp] theorem value_messagePolynomial (coins : Bytes) (encoded : Nat → Bytes) :
    (messagePolynomial hashes coins encoded).value
      = C0PQLink.messagePolynomial hashes coins encoded := by
  funext i
  rw [messagePolynomial, Noted.value_bind, value_finishAccumulator, Noted.value_foldlM]
  simp only [Noted.value_bind, value_sampleCbd, value_ntt, value_keyCoefficients,
    value_multiplyAdd]
  rw [C0PQLink.messagePolynomial]

end WithNotes

/-! ## The encapsulation -/

namespace Kem

/-- The calls that the encapsulation makes. -/
inductive Call where
  | readPublicKey (offset : UInt16)
  | writeCiphertext (data : Bytes)

abbrev Call.Reply : Call → Type
  | .readPublicKey _ => UInt8
  | .writeCiphertext _ => Status

def readPublicKey (offset : UInt16) : Program Call Call.Reply UInt8 :=
  Program.perform (Call.readPublicKey offset)

def writeCiphertext (data : Bytes) : Program Call Call.Reply Status :=
  Program.perform (Call.writeCiphertext data)

end Kem

namespace WithNotes

open Program (emit)
open Kem (readPublicKey writeCiphertext)

/-- Programs with the calls of the encapsulation that mark their operations. -/
abbrev KemProgram : Type → Type :=
  Program (Kem.Call ⊕ ArithmeticNote) (Program.MarkedReply Kem.Call.Reply ArithmeticNote)

/-- Reads in a loop whose counter is a `uint16_t`. -/
def readKeyBytes (start count : Nat) : KemProgram Bytes :=
  (List.range count).mapM fun i => do
    let byte ← (readPublicKey (UInt16.ofNat (start + i))).lift ArithmeticNote
    emit (signed (i + 1))
    return byte

def checkTriples : Nat → Nat → KemProgram Bool
  | 0, _ => return true
  | count + 1, offset => do
    let b0 ← (readPublicKey (UInt16.ofNat offset)).lift ArithmeticNote
    let b1 ← (readPublicKey (UInt16.ofNat (offset + 1))).lift ArithmeticNote
    let b2 ← (readPublicKey (UInt16.ofNat (offset + 2))).lift ArithmeticNote
    let first ← emit (decodeFirst b0 b1)
    let second ← emit (decodeSecond b1 b2)
    if 3329 ≤ first.toNat ∨ 3329 ≤ second.toNat then return false
    checkTriples count (offset + 3)

variable (hashes : Hashes)

def validateAndHashPublicKey : KemProgram (Except Status (Block 32 × Bytes)) := do
  let key ← readKeyBytes 0 800
  emit (keccak 136 800 32)
  let hash := hashes.hashH key
  let canonical ← checkTriples 256 0
  if !canonical then return .error .errKeyEncoding
  let rho ← readKeyBytes 768 32
  return .ok (hash, rho)

/-- Computes and writes the chunks until a call of `write_ciphertext` fails. -/
def writeEach : List (Noted ArithmeticNote Bytes) → KemProgram Status
  | [] => return .ok
  | chunk :: rest => do
    let data ← emit chunk
    let status ← (writeCiphertext data).lift ArithmeticNote
    if status ≠ .ok then return .errIo
    writeEach rest

def writeCompressedU (polynomial : Polynomial) : KemProgram Status :=
  writeEach ((List.range 64).map (packU polynomial))

def writeCompressedV (polynomial : Polynomial) (message : Bytes) : KemProgram Status :=
  writeEach ((List.range 128).map (packV polynomial message))

def writeRows (zetaData : Nat → Int16) (rho coins : Bytes) : List Nat → KemProgram Status
  | [] => return .ok
  | row :: rest => do
    let polynomial ← emit (rowPolynomial hashes zetaData rho coins row)
    let status ← writeCompressedU polynomial
    if status ≠ .ok then return status
    writeRows zetaData rho coins rest

def encapsulateDerand (zetaData : Nat → Int16) (randomness : Block 32) :
    KemProgram (Except Status (Block 32)) := do
  match ← validateAndHashPublicKey hashes with
  | .error status => return .error status
  | .ok (publicKeyHash, rho) =>
    let (sharedSecret, coins) ← emit (deriveKAndCoins hashes randomness publicKeyHash)
    let status ← writeRows hashes zetaData rho coins.val [0, 1]
    if status ≠ .ok then return .error status
    let encoded0 ← (C0PQLink.readKeyBytes readPublicKey 0 384).lift ArithmeticNote
    let encoded1 ← (C0PQLink.readKeyBytes readPublicKey 384 384).lift ArithmeticNote
    let accumulator ← emit (messagePolynomial hashes coins.val fun column =>
      if column = 0 then encoded0 else encoded1)
    let status ← writeCompressedV accumulator randomness.val
    if status ≠ .ok then return .error status
    return .ok sharedSecret

/-! ## Without the marks -/

@[simp] theorem erase_readKeyBytes (start count : Nat) :
    (readKeyBytes start count).erase = C0PQLink.readKeyBytes readPublicKey start count := by
  simp [readKeyBytes, C0PQLink.readKeyBytes]

@[simp] theorem erase_checkTriples (count offset : Nat) :
    (checkTriples count offset).erase = C0PQLink.checkTriples readPublicKey count offset := by
  induction count generalizing offset with
  | zero => rfl
  | succ count ih =>
    simp only [checkTriples, C0PQLink.checkTriples, Program.erase_bind, Program.erase_lift,
      Program.erase_emit, Program.erase_ite, Program.erase_pure, pure_bind, ih]
    rfl

@[simp] theorem erase_validateAndHashPublicKey :
    (validateAndHashPublicKey hashes).erase
      = C0PQLink.validateAndHashPublicKey hashes readPublicKey := by
  simp only [validateAndHashPublicKey, C0PQLink.validateAndHashPublicKey, Program.erase_bind,
    erase_readKeyBytes, Program.erase_emit, pure_bind, erase_checkTriples, Program.erase_ite,
    Program.erase_pure]

@[simp] theorem erase_writeEach (chunks : List (Noted ArithmeticNote Bytes)) :
    (writeEach chunks).erase = C0PQLink.writeEach writeCiphertext (chunks.map (·.value)) := by
  induction chunks with
  | nil => rfl
  | cons chunk rest ih =>
    simp only [writeEach, List.map_cons, C0PQLink.writeEach, Program.erase_bind,
      Program.erase_emit, pure_bind, Program.erase_lift, Program.erase_ite, Program.erase_pure, ih]

@[simp] theorem erase_writeRows (zetaData : Nat → Int16) (rho coins : Bytes) (rows : List Nat) :
    (writeRows hashes zetaData rho coins rows).erase
      = C0PQLink.writeRows hashes writeCiphertext zetaData rho coins rows := by
  induction rows with
  | nil => rfl
  | cons row rest ih =>
    have hpack (polynomial : Polynomial) :
        ((List.range 64).map (packU polynomial)).map (·.value)
          = (List.range 64).map (C0PQLink.packU polynomial) := by
      rw [List.map_map]
      rfl
    simp only [writeRows, C0PQLink.writeRows, C0PQLink.writeCompressedU, writeCompressedU,
      Program.erase_bind, Program.erase_emit, pure_bind, value_rowPolynomial, erase_writeEach,
      hpack, Program.erase_ite, Program.erase_pure, ih]

/-- The encapsulation is the one with notes, without its marks. -/
theorem encapsulateDerand_erase (zetaData : Nat → Int16) (randomness : Block 32) :
    (encapsulateDerand hashes zetaData randomness).erase
      = C0PQLink.encapsulateDerand hashes readPublicKey writeCiphertext zetaData randomness := by
  have hpack (polynomial : Polynomial) :
      ((List.range 128).map (packV polynomial randomness.val)).map (·.value)
        = (List.range 128).map (C0PQLink.packV polynomial randomness.val) := by
    rw [List.map_map]
    rfl
  rw [encapsulateDerand, C0PQLink.encapsulateDerand, Program.erase_bind,
    erase_validateAndHashPublicKey]
  congr 1
  funext validated
  cases validated with
  | error status => rfl
  | ok hashAndSeed =>
    simp only [deriveKAndCoins, Noted.value_bind, Noted.value_pure, Program.erase_bind,
      Program.erase_emit, pure_bind, erase_writeRows, Program.erase_ite, Program.erase_pure,
      Program.erase_lift, value_messagePolynomial, writeCompressedV, C0PQLink.writeCompressedV,
      erase_writeEach, hpack]

end WithNotes

end C0PQLink
