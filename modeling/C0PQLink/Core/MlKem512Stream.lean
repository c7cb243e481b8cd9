import C0PQLink.Core.Common
import C0PQLink.Fips203.Encaps
import C0PQLink.Foundation.Interaction

/-!
# The streaming ML-KEM-512 encapsulation

`core/mlkem512_stream.c`. An `int16_t` array is the function of its entries; loops that
assign every entry once, from data that they do not change, are given entry by entry, and
the loops of the transforms, which work in place, are folds. A Keccak context is what was
absorbed into it; the functions of `core/keccak.c` are the parameter `hashes`.

The table `zetas` is read in two ways: through `load_zeta`, and by an expression `zetas[i]`
of the language. What the second one yields is the parameter `zetaData`; where the data
memory holds the table it is `loadZeta`.

The callbacks for the public key and for the ciphertext are computations in an arbitrary
monad.

* `encapsulateDerand`, `encapsulate`: the two entry points.
-/

namespace C0PQLink

open Foundation Fips203

/-! ## Modular arithmetic on machine words -/

def mlkemQ : Int16 := 3329
def mlkemQinv : UInt16 := 62209

/-- An array of `int16_t`. -/
abbrev Polynomial : Type := Nat → Int16

def zetas : List Int16 :=
  [-1044, -758, -359, -1517, 1493, 1422, 287, 202,
    -171, 622, 1577, 182, 962, -1202, -1474, 1468,
    573, -1325, 264, 383, -829, 1458, -1602, -130,
    -681, 1017, 732, 608, -1542, 411, -205, -1571,
    1223, 652, -552, 1015, -1293, 1491, -282, -1544,
    516, -8, -320, -666, -1618, -1162, 126, 1469,
    -853, -90, -271, 830, 107, -1421, -247, -951,
    -398, 961, -1508, -725, 448, -1065, 677, -1275,
    -1103, 430, 555, 843, -1251, 871, 1550, 105,
    422, 587, 177, -235, -291, -460, 1574, 1653,
    -246, 778, 1159, -147, -777, 1483, -602, 1119,
    -1590, 644, -872, 349, 418, 329, -156, -75,
    817, 1097, 603, 610, 1322, -1285, -1465, 384,
    -1215, -136, 1218, -1335, -874, 220, -1187, -1659,
    -1185, -1530, -1278, 794, -1510, -854, -870, 478,
    -108, -308, 996, 991, 958, -1460, 1522, 1628]

def loadZeta (index : Nat) : Int16 := zetas.getD index 0

def multiplyU8Fixed (a b : UInt8) : UInt16 := a.toUInt16 * b.toUInt16

def multiplyU16Fixed (a b : UInt16) : UInt32 :=
  let p00 := multiplyU8Fixed a.toUInt8 b.toUInt8
  let p01 := multiplyU8Fixed a.toUInt8 (b >>> 8).toUInt8
  let p10 := multiplyU8Fixed (a >>> 8).toUInt8 b.toUInt8
  let p11 := multiplyU8Fixed (a >>> 8).toUInt8 (b >>> 8).toUInt8
  p00.toUInt32 + (p01.toUInt32 <<< 8) + (p10.toUInt32 <<< 8) + (p11.toUInt32 <<< 16)

def multiplyS16ConstantSchedule (a b : Int16) : Int32 :=
  let ua := a.toUInt16
  let ub := b.toUInt16
  let aNegative := (ua >>> 15).toUInt32
  let bNegative := (ub >>> 15).toUInt32
  let product := multiplyU16Fixed ua ub
  let aCorrection := ((0 : UInt32) - aNegative) &&& (ub.toUInt32 <<< 16)
  let bCorrection := ((0 : UInt32) - bNegative) &&& (ua.toUInt32 <<< 16)
  (product - aCorrection - bCorrection).toInt32

def montgomeryReduce (value : Int32) : Int16 :=
  let low := value.toInt16
  let factor := (low.toUInt16 * mlkemQinv).toInt16
  let product := multiplyS16ConstantSchedule factor mlkemQ
  ((value - product) >>> 16).toInt16

def barrettReduce (value : Int16) : Int16 :=
  let v : Int16 := Int16.ofInt ((2 ^ 26 + 3329 / 2) / 3329)
  let quotient := ((multiplyS16ConstantSchedule v value + 0x2000000) >>> 26).toInt16
  value - (multiplyS16ConstantSchedule quotient mlkemQ).toInt16

def fqmul (a b : Int16) : Int16 := montgomeryReduce (multiplyS16ConstantSchedule a b)

def freezeCoefficient (value : Int16) : Int16 :=
  let reduced := barrettReduce value
  let mask := reduced >>> 15
  reduced + (mask &&& mlkemQ)

/-! ## The transforms -/

/-- The body of the inner loop of `ntt`, on the entries `j` and `j + length`. -/
def nttButterfly (k : Nat) (x y : Int16) : Int16 × Int16 :=
  let product := fqmul (loadZeta k) y
  (x + product, x - product)

def ntt (polynomial : Polynomial) : Polynomial := nttLayers nttButterfly polynomial

/-- The body of the inner loop of `inverse_ntt`. -/
def inverseNttButterfly (k : Nat) (x y : Int16) : Int16 × Int16 :=
  (barrettReduce (x + y), fqmul (loadZeta k) (y - x))

def inverseNtt (polynomial : Polynomial) : Polynomial :=
  fun j => fqmul (inverseNttLayers inverseNttButterfly polynomial j) 1441

def baseMultiplyAdd (accumulator : Int16 × Int16) (a0 a1 b0 b1 zeta : Int16) : Int16 × Int16 :=
  let c0 := fqmul a1 b1
  let c0 := fqmul c0 zeta
  let c0 := c0 + fqmul a0 b0
  (accumulator.1 + c0, accumulator.2 + fqmul a0 b1 + fqmul a1 b0)

/-- The entry `i` after the loop over the 64 blocks of four entries, with two calls of
`base_multiply_add` in each. The coefficients `a` are those of the other factor, and
`readZeta` is how the loop reads its table. -/
def multiplyAdd (readZeta : Nat → Int16) (accumulator a vector : Polynomial) : Polynomial :=
  fun i =>
    let block := i / 4
    let base := 4 * block
    let zeta := readZeta (64 + block)
    let low := baseMultiplyAdd (accumulator base, accumulator (base + 1)) (a base) (a (base + 1))
      (vector base) (vector (base + 1)) zeta
    let high := baseMultiplyAdd (accumulator (base + 2), accumulator (base + 3)) (a (base + 2))
      (a (base + 3)) (vector (base + 2)) (vector (base + 3)) (-zeta)
    match i % 4 with
    | 0 => low.1
    | 1 => low.2
    | 2 => high.1
    | _ => high.2

/-! ## Sampling -/

def popcount2 (value : UInt8) : UInt8 := (value &&& (1 : UInt8)) + ((value >>> 1) &&& (1 : UInt8))

/-- The entries of `sample_cbd` with `eta` 2, two from each byte of the stream. -/
def sampleCbd2 (stream : Nat → UInt8) : Polynomial := fun position =>
  let byte := stream (position / 2)
  let half := position % 2
  let nibble := byte >>> UInt8.ofNat (4 * half)
  Int16.ofNat (popcount2 nibble).toNat - Int16.ofNat (popcount2 (nibble >>> 2)).toNat

/-- The entries of `sample_cbd` with `eta` 3, four from every three bytes of the stream. -/
def sampleCbd3 (stream : Nat → UInt8) : Polynomial := fun position =>
  let block := position / 4
  let i := UInt32.ofNat (position % 4)
  let word := (stream (3 * block)).toUInt32 ||| ((stream (3 * block + 1)).toUInt32 <<< 8)
    ||| ((stream (3 * block + 2)).toUInt32 <<< 16)
  let mask : UInt32 := 0x00249249
  let sums := (word &&& mask) + ((word >>> 1) &&& mask) + ((word >>> 2) &&& mask)
  let a := Int16.ofNat ((sums >>> (6 * i)) &&& (7 : UInt32)).toNat
  let b := Int16.ofNat ((sums >>> (6 * i + 3)) &&& (7 : UInt32)).toNat
  a - b

/-- The 12-bit numbers in three bytes. -/
def decodeFirst (b0 b1 : UInt8) : UInt16 :=
  b0.toUInt16 ||| ((b1 &&& (0x0f : UInt8)).toUInt16 <<< 8)

def decodeSecond (b1 b2 : UInt8) : UInt16 := (b1.toUInt16 >>> 4) ||| (b2.toUInt16 <<< 4)

/-- The value that `sample_ntt_next` reads next, for a reader that has read `k` values of
the stream; there are two in every three bytes. -/
def readerValue (stream : Nat → UInt8) (k : Nat) : UInt16 :=
  let b0 := stream (3 * (k / 2))
  let b1 := stream (3 * (k / 2) + 1)
  let b2 := stream (3 * (k / 2) + 2)
  if k % 2 = 0 then decodeFirst b0 b1 else decodeSecond b1 b2

theorem decodeFirst_toNat (b0 b1 : UInt8) :
    (decodeFirst b0 b1).toNat = b0.toNat + 256 * (b1.toNat % 16) := by
  have h0 := b0.toNat_lt
  have hlow : b1.toNat &&& 15 = b1.toNat % 16 := Nat.and_two_pow_sub_one_eq_mod b1.toNat 4
  have hor := Nat.shiftLeft_add_eq_or_of_lt (show b0.toNat < 2 ^ 8 by omega) (b1.toNat % 16)
  simp only [decodeFirst, UInt16.toNat_or, UInt16.toNat_shiftLeft, UInt8.toNat_toUInt16,
    UInt8.toNat_and, UInt8.toNat_ofNat, UInt16.toNat_ofNat, Nat.reduceMod, Nat.reducePow, hlow]
  rw [Nat.mod_eq_of_lt (by rw [Nat.shiftLeft_eq]; omega), Nat.or_comm, ← hor, Nat.shiftLeft_eq]
  omega

theorem decodeSecond_toNat (b1 b2 : UInt8) :
    (decodeSecond b1 b2).toNat = b1.toNat / 16 + 16 * b2.toNat := by
  have h1 := b1.toNat_lt
  have h2 := b2.toNat_lt
  have hor := Nat.shiftLeft_add_eq_or_of_lt (show b1.toNat / 16 < 2 ^ 4 by omega) b2.toNat
  simp only [decodeSecond, UInt16.toNat_or, UInt16.toNat_shiftLeft, UInt16.toNat_shiftRight,
    UInt8.toNat_toUInt16, UInt16.toNat_ofNat, Nat.reduceMod, Nat.reducePow,
    Nat.shiftRight_eq_div_pow]
  rw [Nat.mod_eq_of_lt (by rw [Nat.shiftLeft_eq]; omega), Nat.or_comm, ← hor, Nat.shiftLeft_eq]
  omega

theorem readerValue_toNat (stream : Nat → UInt8) (k : Nat) :
    (readerValue stream k).toNat = candidate stream k := by
  unfold readerValue candidate
  split
  · exact decodeFirst_toNat ..
  · exact decodeSecond_toNat ..

variable (hashes : Hashes)

def sampleCbd (seed : Bytes) (nonce : UInt8) (eta : Nat) : Polynomial :=
  let stream := hashes.prf (seed ++ [nonce])
  if eta = 2 then sampleCbd2 stream else sampleCbd3 stream

theorem readerValue_finishes (seed : Bytes) (k : Nat) :
    ∃ n, (readerValue (hashes.xof seed) (k + n)).toNat < 3329 := by
  simp only [readerValue_toNat]
  exact hashes.finishes seed k

/-- The next value below the modulus, for a reader that has read `k` values, and how many
values it has read then. -/
def sampleNttNext (seed : Bytes) (k : Nat) : UInt16 × Nat :=
  let n := k + Nat.find (readerValue_finishes hashes seed k)
  (readerValue (hashes.xof seed) n, n + 1)

/-- How many values the reader has read after `j` calls of `sample_ntt_next`. -/
def sampleNttPosition (seed : Bytes) : Nat → Nat
  | 0 => 0
  | j + 1 => (sampleNttNext hashes seed (sampleNttPosition seed j)).2

/-- The values that the calls of `sample_ntt_next` return. -/
def sampleNttValues (seed : Bytes) : Polynomial := fun j =>
  (sampleNttNext hashes seed (sampleNttPosition hashes seed j)).1.toInt16

def matrixProductAdd (zetaData : Nat → Int16) (accumulator vector : Polynomial) (rho : Bytes)
    (x y : UInt8) : Polynomial :=
  multiplyAdd zetaData accumulator (sampleNttValues hashes (rho ++ [x, y])) vector

/-! ## Compression -/

def compress10 (coefficient : Int16) : UInt16 :=
  let value := (freezeCoefficient coefficient).toUInt16.toUInt64
  let scaled := ((value <<< 10) + 1665) * 1290167
  ((scaled >>> 32) &&& (0x03ff : UInt64)).toUInt16

def compress4 (coefficient : Int16) : UInt8 :=
  let value := (freezeCoefficient coefficient).toUInt16.toUInt32
  let scaled := ((value <<< 4) + 1665) * 80635
  ((scaled >>> 28) &&& (0x0f : UInt32)).toUInt8

/-- The five bytes that `write_compressed_u` packs from the entries `4 * block` to
`4 * block + 3`. -/
def packU (polynomial : Polynomial) (block : Nat) : Bytes :=
  let t0 := compress10 (polynomial (4 * block))
  let t1 := compress10 (polynomial (4 * block + 1))
  let t2 := compress10 (polynomial (4 * block + 2))
  let t3 := compress10 (polynomial (4 * block + 3))
  [t0.toUInt8, ((t0 >>> 8) ||| (t1 <<< 2)).toUInt8, ((t1 >>> 6) ||| (t2 <<< 4)).toUInt8,
    ((t2 >>> 4) ||| (t3 <<< 6)).toUInt8, (t3 >>> 2).toUInt8]

def messageBit (message : Bytes) (i : Nat) : UInt16 :=
  ((byteAt message (i / 8)).toUInt16 >>> UInt16.ofNat (i % 8)) &&& (1 : UInt16)

/-- The message bit `i` as a coefficient. -/
def messageCoefficient (message : Bytes) (i : Nat) : Int16 :=
  (((0 : UInt16) - messageBit message i) &&& (1665 : UInt16)).toInt16

/-- The byte that `write_compressed_v` packs from the entries `2 * block` and
`2 * block + 1`. -/
def packV (polynomial : Polynomial) (message : Bytes) (block : Nat) : Bytes :=
  let low := compress4 (polynomial (2 * block) + messageCoefficient message (2 * block))
  let high :=
    compress4 (polynomial (2 * block + 1) + messageCoefficient message (2 * block + 1))
  [low ||| (high <<< 4)]

/-! ## Encapsulation -/

section

variable {m : Type → Type} [Monad m] (readPublicKey : UInt16 → m UInt8)
  (writeCiphertext : Bytes → m Status)

/-- `count` calls of `read_public_key`, from `start` on. -/
def readKeyBytes (start count : Nat) : m Bytes :=
  (List.range count).mapM fun i => readPublicKey (UInt16.ofNat (start + i))

/-- The loop of `validate_and_hash_public_key` over the `count` triples from `offset` on. -/
def checkTriples : Nat → Nat → m Bool
  | 0, _ => return true
  | count + 1, offset => do
    let b0 ← readPublicKey (UInt16.ofNat offset)
    let b1 ← readPublicKey (UInt16.ofNat (offset + 1))
    let b2 ← readPublicKey (UInt16.ofNat (offset + 2))
    if 3329 ≤ (decodeFirst b0 b1).toNat ∨ 3329 ≤ (decodeSecond b1 b2).toNat then return false
    checkTriples count (offset + 3)

/-- The hash of the public key and the seed of the matrix. -/
def validateAndHashPublicKey : m (Except Status (Block 32 × Bytes)) := do
  let key ← readKeyBytes readPublicKey 0 800
  let hash := hashes.hashH key
  let canonical ← checkTriples readPublicKey 256 0
  if !canonical then return .error .errKeyEncoding
  let rho ← readKeyBytes readPublicKey 768 32
  return .ok (hash, rho)

/-- Calls of `write_ciphertext` until one fails. -/
def writeEach : List Bytes → m Status
  | [] => return .ok
  | chunk :: rest => do
    let status ← writeCiphertext chunk
    if status ≠ .ok then return .errIo
    writeEach rest

def writeCompressedU (polynomial : Polynomial) : m Status :=
  writeEach writeCiphertext ((List.range 64).map (packU polynomial))

def writeCompressedV (polynomial : Polynomial) (message : Bytes) : m Status :=
  writeEach writeCiphertext ((List.range 128).map (packV polynomial message))

/-- The shared secret and the coins. -/
def deriveKAndCoins (randomness : Block 32) (publicKeyHash : Block 32) : Block 32 × Block 32 :=
  let output := hashes.hashG (randomness.val ++ publicKeyHash.val)
  (blockAt output.val 0 32 (by simp), blockAt output.val 32 32 (by simp))

/-- The accumulator of a row when `write_compressed_u` gets it. -/
def rowPolynomial (zetaData : Nat → Int16) (rho coins : Bytes) (row : Nat) : Polynomial :=
  let product := (List.range 2).foldl (fun accumulator column =>
    matrixProductAdd hashes zetaData accumulator
      (ntt (sampleCbd hashes coins (UInt8.ofNat column) 3)) rho (UInt8.ofNat row)
      (UInt8.ofNat column)) fun _ => 0
  let accumulator := inverseNtt fun i => barrettReduce (product i)
  fun i => accumulator i + sampleCbd hashes coins (UInt8.ofNat (2 + row)) 2 i

/-- The coefficients in a half of the encoded public vector. -/
def keyCoefficients (encoded : Bytes) : Polynomial :=
  fun i => (readerValue (byteAt encoded) i).toInt16

/-- The accumulator when `write_compressed_v` gets it. -/
def messagePolynomial (coins : Bytes) (encoded : Nat → Bytes) : Polynomial :=
  let product := (List.range 2).foldl (fun accumulator column =>
    multiplyAdd loadZeta accumulator (keyCoefficients (encoded column))
      (ntt (sampleCbd hashes coins (UInt8.ofNat column) 3))) fun _ => 0
  let accumulator := inverseNtt fun i => barrettReduce (product i)
  fun i => accumulator i + sampleCbd hashes coins 4 2 i

/-- The rows of the ciphertext, until a write fails. -/
def writeRows (zetaData : Nat → Int16) (rho coins : Bytes) : List Nat → m Status
  | [] => return .ok
  | row :: rest => do
    let status ← writeCompressedU writeCiphertext (rowPolynomial hashes zetaData rho coins row)
    if status ≠ .ok then return status
    writeRows zetaData rho coins rest

def encapsulateDerand (zetaData : Nat → Int16) (randomness : Block 32) :
    m (Except Status (Block 32)) := do
  match ← validateAndHashPublicKey hashes readPublicKey with
  | .error status => return .error status
  | .ok (publicKeyHash, rho) =>
    let (sharedSecret, coins) := deriveKAndCoins hashes randomness publicKeyHash
    let status ← writeRows hashes writeCiphertext zetaData rho coins.val [0, 1]
    if status ≠ .ok then return .error status
    let encoded0 ← readKeyBytes readPublicKey 0 384
    let encoded1 ← readKeyBytes readPublicKey 384 384
    let accumulator := messagePolynomial hashes coins.val fun column =>
      if column = 0 then encoded0 else encoded1
    let status ← writeCompressedV writeCiphertext accumulator randomness.val
    if status ≠ .ok then return .error status
    return .ok sharedSecret

def encapsulate (zetaData : Nat → Int16) (randomBytes : m (Int × Block 32)) :
    m (Except Status (Block 32)) := do
  let (status, randomness) ← randomBytes
  if status ≠ 0 then return .error .errRng
  encapsulateDerand hashes readPublicKey writeCiphertext zetaData randomness

/-! ## What the callbacks keep -/

/-- A failure that is reported as such. -/
def ReportsFailure {α : Type} (result : Except Status α) : Prop := result ≠ .error .ok

theorem reportsFailure_error {α : Type} {failure : Status} :
    ReportsFailure (.error failure : Except Status α) ↔ failure ≠ .ok := by
  simp only [ReportsFailure, ne_eq, Except.error.injEq]

variable {P : (α : Type) → m α → (α → Prop) → Prop} (h : Compositional P)
  {readPublicKey writeCiphertext}
  (hread : ∀ offset, P UInt8 (readPublicKey offset) fun _ => True)
  (hwrite : ∀ data, P Status (writeCiphertext data) fun _ => True)

include h hread in
theorem checkTriples_keeps (count offset : Nat) :
    P Bool (checkTriples readPublicKey count offset) fun _ => True := by
  induction count generalizing offset with
  | zero => exact h.pure trivial
  | succ count ih =>
    refine h.bind (hread _) fun b0 _ => h.bind (hread _) fun b1 _ => h.bind (hread _) fun b2 _ => ?_
    split
    · exact h.pure trivial
    · exact ih _

include h hwrite in
theorem writeEach_keeps (chunks : List Bytes) :
    P Status (writeEach writeCiphertext chunks) fun _ => True := by
  induction chunks with
  | nil => exact h.pure trivial
  | cons chunk rest ih =>
    refine h.bind (hwrite chunk) fun status _ => ?_
    split
    · exact h.pure trivial
    · exact ih

include h hwrite in
theorem writeRows_keeps (zetaData : Nat → Int16) (rho coins : Bytes) (rows : List Nat) :
    P Status (writeRows hashes writeCiphertext zetaData rho coins rows) fun _ => True := by
  induction rows with
  | nil => exact h.pure trivial
  | cons row rest ih =>
    refine h.bind (writeEach_keeps h hwrite _) fun status _ => ?_
    split
    · exact h.pure trivial
    · exact ih

variable [LawfulMonad m]

include h hread in
theorem validateAndHashPublicKey_keeps :
    P _ (validateAndHashPublicKey hashes readPublicKey)
      fun result => ∀ failure, result = .error failure → failure = .errKeyEncoding := by
  refine h.bind (h.mapM (fun _ => hread _) _) fun key _ =>
    h.bind (checkTriples_keeps h hread 256 0) fun canonical _ => ?_
  split
  · exact h.pure fun failure heq => (Except.error.inj heq).symm
  · exact h.bind (h.mapM (fun _ => hread _) _) fun rho _ => h.pure nofun

include h hread hwrite in
theorem encapsulateDerand_keeps (zetaData : Nat → Int16) (randomness : Block 32) :
    P _ (encapsulateDerand hashes readPublicKey writeCiphertext zetaData randomness)
      ReportsFailure := by
  refine h.bind (validateAndHashPublicKey_keeps hashes h hread) fun validated hvalidated => ?_
  split
  · rename_i failure
    rw [hvalidated failure rfl]
    exact h.pure nofun
  refine h.bind (writeRows_keeps hashes h hwrite _ _ _ _) fun status _ => ?_
  split
  · rename_i hfailed
    exact h.pure (reportsFailure_error.mpr hfailed)
  refine h.bind (h.mapM (fun _ => hread _) _) fun encoded0 _ =>
    h.bind (h.mapM (fun _ => hread _) _) fun encoded1 _ =>
      h.bind (writeEach_keeps h hwrite _) fun status _ => ?_
  split
  · rename_i hfailed
    exact h.pure (reportsFailure_error.mpr hfailed)
  · exact h.pure nofun

include h hread hwrite in
/-- Every step of the encapsulation is one of its callbacks. -/
theorem encapsulate_keeps (zetaData : Nat → Int16) {randomBytes : m (Int × Block 32)}
    (hrandom : P _ randomBytes fun _ => True) :
    P _ (encapsulate hashes readPublicKey writeCiphertext zetaData randomBytes)
      ReportsFailure := by
  refine h.bind hrandom fun random _ => ?_
  obtain ⟨status, randomness⟩ := random
  dsimp only
  split
  · exact h.pure nofun
  · exact encapsulateDerand_keeps hashes h hread hwrite zetaData _

end

end C0PQLink
