import C0PQLink.Core.Integers
import C0PQLink.Foundation.Readings
import C0PQLink.NanoPQ.Sha256

/-!
# The streaming SLH-DSA verifier

`nanopq_secure_link/slhdsa.c`, with the switches of its builds. The signature comes from a
reader callback with a state of its own. The blocks of the local hash contexts hold arbitrary
bytes before they are used.
-/

namespace C0PQLink.NanoPQ.SlhDsa

open Foundation

open Fips180 (HashValue)

inductive SlhResult where
  | ok
  | badSignature
  | badLength
  | badContext
  | ioError
  deriving DecidableEq

/-! ## Numbers -/

def writeBe32 (value : UInt32) : Bytes :=
  [(value >>> 24).toUInt8, (value >>> 16).toUInt8, (value >>> 8).toUInt8, value.toUInt8]

/-- The output is filled from its last byte. -/
def writeBe64 (value : UInt64) : Bytes :=
  ((List.range 8).foldl (fun (p : Bytes × UInt64) _ => (p.2.toUInt8 :: p.1, p.2 >>> 8))
    ([], value)).1

def readBeUint (input : Bytes) : UInt64 :=
  input.foldl (fun value x => (value <<< 8) ||| x.toUInt64) 0

/-! ## The context and the address -/

/-- One of the two seeded members is there in a build. -/
structure SlhVerifyCtx where
  pkSeed : Block 16
  pkRoot : Block 16
  address : Bytes
  seededSha256 : QpSha256Ctx
  seededSha256State : HashValue

section

variable (build : Ablation)

/-- A write at one of the two places that a field has. -/
def setAddress (ctx : SlhVerifyCtx) (fullPlace place : Nat) (full compact : Bytes) :
    SlhVerifyCtx :=
  { ctx with
    address :=
      if build.fullAddress then writeAt ctx.address fullPlace full
      else writeAt ctx.address place compact }

def addressZero (ctx : SlhVerifyCtx) : SlhVerifyCtx :=
  { ctx with address := List.replicate (if build.fullAddress then 32 else 22) 0 }

def addressSetLayer (ctx : SlhVerifyCtx) (layer : UInt32) : SlhVerifyCtx :=
  setAddress build ctx 0 0 (writeBe32 layer) [layer.toUInt8]

def addressSetTree (ctx : SlhVerifyCtx) (tree : UInt64) : SlhVerifyCtx :=
  setAddress build ctx 4 1 (List.replicate 4 0 ++ writeBe64 tree) (writeBe64 tree)

def addressSetTypeAndClear (ctx : SlhVerifyCtx) (type : UInt32) : SlhVerifyCtx :=
  setAddress build ctx 16 9 (writeBe32 type ++ List.replicate 12 0)
    ([type.toUInt8] ++ List.replicate 12 0)

def addressSetTypeAndClearNotKeypair (ctx : SlhVerifyCtx) (type : UInt32) : SlhVerifyCtx :=
  let ctx := setAddress build ctx 16 9 (writeBe32 type) [type.toUInt8]
  setAddress build ctx 24 14 (List.replicate 8 0) (List.replicate 8 0)

def addressSetKeypair (ctx : SlhVerifyCtx) (keypair : UInt32) : SlhVerifyCtx :=
  setAddress build ctx 20 10 (writeBe32 keypair) (writeBe32 keypair)

def addressSetChainOrHeight (ctx : SlhVerifyCtx) (value : UInt32) : SlhVerifyCtx :=
  setAddress build ctx 24 14 (writeBe32 value) (writeBe32 value)

def addressSetHashOrIndex (ctx : SlhVerifyCtx) (value : UInt32) : SlhVerifyCtx :=
  setAddress build ctx 28 18 (writeBe32 value) (writeBe32 value)

def addressCompress (address : Bytes) : Bytes :=
  [byteAt address 3] ++ slice address 8 8 ++ slice address 19 13

/-! ## Hashes -/

variable (layout : WordLayout) (unused : Block 64)

/-- `unused` is what the block of the local context holds. -/
def hashStart (ctx : SlhVerifyCtx) : QpSha256Ctx :=
  let hash :=
    if build.fullSeededContext then ctx.seededSha256
    else { block := unused.val, state := ctx.seededSha256State, totalBytes := 64, blockLen := 0 }
  qpSha256Update build layout hash
    (if build.fullAddress then addressCompress ctx.address else ctx.address)

def hashFinishN (hash : QpSha256Ctx) : Block 16 :=
  if build.fullHashDigest then (qpSha256Final build layout hash).first 16 (Nat.le_add_right 16 16)
  else qpSha256Final16 build layout hash

def hashF (ctx : SlhVerifyCtx) (input : Block 16) : Block 16 :=
  hashFinishN build layout (qpSha256Update build layout (hashStart build layout unused ctx)
    input.val)

def hashH (ctx : SlhVerifyCtx) (left right : Block 16) : Block 16 :=
  let hash := qpSha256Update build layout (hashStart build layout unused ctx) left.val
  hashFinishN build layout (qpSha256Update build layout hash right.val)

/-- The loop over `j`. -/
def chain (ctx : SlhVerifyCtx) (value : Block 16) (start steps : UInt8) :
    SlhVerifyCtx × Block 16 :=
  (List.range' start.toNat ((start + steps).toNat - start.toNat)).foldl
    (fun (s : SlhVerifyCtx × Block 16) j =>
      let ctx := addressSetHashOrIndex build s.1 (UInt32.ofNat j)
      (ctx, hashF build layout unused ctx s.2))
    (ctx, value)

end

/-! ## Digits and indices -/

def wotsChecksum (message : Block 16) : UInt16 :=
  ((List.range 32).foldl (fun (checksum : UInt16) i =>
    let value := byteAt message.val (i >>> 1)
    let digit := if i &&& 1 ≠ 0 then value &&& 0x0f else value >>> 4
    checksum + 15 - digit.toUInt16) 0) <<< 4

def wotsDigitAt (message : Block 16) (checksum : UInt16) (index : Nat) : UInt8 :=
  if index < 32 then
    let value := byteAt message.val (index >>> 1)
    if index &&& 1 ≠ 0 then value &&& 0x0f else value >>> 4
  else ((checksum >>> UInt16.ofNat (12 - 4 * (index - 32))) &&& 0x0f).toUInt8

def forsIndexAt (md : Bytes) (index : Nat) : UInt16 :=
  let byteIndex := (index * 12) >>> 3
  if index &&& 1 = 0 then
    ((byteAt md byteIndex).toUInt16 <<< 4) ||| (byteAt md (byteIndex + 1) >>> 4).toUInt16
  else
    (((byteAt md byteIndex).toUInt16 &&& 0x0f) <<< 8) ||| (byteAt md (byteIndex + 1)).toUInt16

/-! ## Reading the signature -/

section

variable (build : Ablation) (layout : WordLayout) (unused : Block 64)
variable {σ : Type} (reader : Reader σ)

/-- Every caller of `read_signature` that it fails ends with `QP_SLHDSA_IO_ERROR`. -/
def readSignature : Reading SlhResult σ (Block 16) := readPiece reader .ioError 16

/-- A turn of the loops over an authentication path. -/
def pathTurn (treeIndex sideIndex : UInt32) (s : SlhVerifyCtx × Block 16) (i : Nat) :
    Reading SlhResult σ (SlhVerifyCtx × Block 16) := do
  let sibling ← readSignature reader
  let ctx := addressSetChainOrHeight build s.1 (UInt32.ofNat i + 1)
  let ctx := addressSetHashOrIndex build ctx (treeIndex >>> (UInt32.ofNat i + 1))
  if (sideIndex >>> UInt32.ofNat i) &&& 1 = 0 then
    return (ctx, hashH build layout unused ctx s.2 sibling)
  else return (ctx, hashH build layout unused ctx sibling s.2)

/-- A turn of the loop over the chains, on the context and the aggregate. `message` is the
buffer `root`, which the loop does not write. -/
def wotsTurn (message : Block 16) (checksum : UInt16) (digits : Bytes)
    (s : SlhVerifyCtx × QpSha256Ctx) (i : Nat) :
    Reading SlhResult σ (SlhVerifyCtx × QpSha256Ctx) := do
  let digit :=
    if build.materializedState then byteAt digits i else wotsDigitAt message checksum i
  let ctx := addressSetChainOrHeight build s.1 (UInt32.ofNat i)
  let value ← readSignature reader
  let r := chain build layout unused ctx value digit (15 - digit)
  return (r.1, qpSha256Update build layout s.2 r.2.val)

/-- The call with `root` as the message: both are one buffer, which gets the root. -/
def xmssPublicKeyFromSignature (ctx : SlhVerifyCtx) (root : Block 16) (leafIndex : UInt32) :
    Reading SlhResult σ (SlhVerifyCtx × Block 16) := do
  let checksum := wotsChecksum root
  let digits := (List.range 35).map (wotsDigitAt root checksum)
  let ctx := addressSetTypeAndClearNotKeypair build ctx 1
  let aggregate := hashStart build layout unused ctx
  let ctx := addressSetTypeAndClearNotKeypair build ctx 0
  let s ← (List.range 35).foldlM (wotsTurn build layout unused reader root checksum digits)
    (ctx, aggregate)
  let root := hashFinishN build layout s.2
  let ctx := addressSetTypeAndClear build s.1 2
  (List.range 9).foldlM (pathTurn build layout unused reader leafIndex leafIndex) (ctx, root)

/-- A turn of the loop over the trees, on the context and the aggregate. -/
def forsTurn (md : Bytes) (indices : List UInt16) (s : SlhVerifyCtx × QpSha256Ctx) (i : Nat) :
    Reading SlhResult σ (SlhVerifyCtx × QpSha256Ctx) := do
  let forsIndex := if build.materializedState then indices.getD i 0 else forsIndexAt md i
  let treeIndex := (UInt32.ofNat i <<< 12) + forsIndex.toUInt32
  let ctx := addressSetChainOrHeight build s.1 0
  let ctx := addressSetHashOrIndex build ctx treeIndex
  let node ← readSignature reader
  let node := hashF build layout unused ctx node
  let t ← (List.range 12).foldlM
    (pathTurn build layout unused reader treeIndex forsIndex.toUInt32) (ctx, node)
  return (t.1, qpSha256Update build layout s.2 t.2.val)

def forsPublicKeyFromSignature (ctx : SlhVerifyCtx) (md : Bytes) :
    Reading SlhResult σ (SlhVerifyCtx × Block 16) := do
  let indices := (List.range 14).map (forsIndexAt md)
  let ctx := addressSetTypeAndClearNotKeypair build ctx 4
  let aggregate := hashStart build layout unused ctx
  let ctx := addressSetTypeAndClearNotKeypair build ctx 3
  let s ← (List.range 14).foldlM (forsTurn build layout unused reader md indices) (ctx, aggregate)
  return (s.1, hashFinishN build layout s.2)

end

/-! ## The verifier -/

section

variable (build : Ablation) (layout : WordLayout) (unused : Block 64)

/-- `ctx` is the local hash context before its first initialization. The inner digest goes to
`inner` or to `digest`, and is read from there. -/
def hMessage (ctx : SlhVerifyCtx) (randomizer : Block 16) (message context : Bytes) : Block 32 :=
  let hash : QpSha256Ctx :=
    { block := unused.val, state := initialState, totalBytes := 0, blockLen := 0 }
  let update := qpSha256Update build layout
  let hash := update (qpSha256Init hash) randomizer.val
  let hash := update (update hash ctx.pkSeed.val) ctx.pkRoot.val
  let hash := update hash [0, UInt8.ofNat context.length]
  let hash := if UInt8.ofNat context.length ≠ 0 then update hash context else hash
  let hash := update hash message
  let inner := qpSha256Final build layout hash
  let hash := qpSha256Init (finalTransform build layout hash)
  let hash := update (update hash randomizer.val) ctx.pkSeed.val
  let hash := update (update hash inner.val) [0, 0, 0, 0]
  qpSha256Final build layout hash

/-- The members of the context before the first read. -/
def startVerify (publicKey : Block 32) : SlhVerifyCtx :=
  let pkSeed := publicKey.first 16 (Nat.le_add_right 16 16)
  let zeros := List.replicate 16 0
  let seeded : QpSha256Ctx :=
    { block := unused.val, state := initialState, totalBytes := 0, blockLen := 0 }
  let seeded := qpSha256Update build layout (qpSha256Init seeded) pkSeed.val
  let seeded := qpSha256Update build layout (qpSha256Update build layout seeded zeros) zeros
  addressZero build
    { pkSeed
      pkRoot := blockAt publicKey.val 16 16 publicKey.property.ge
      address := []
      seededSha256 := qpSha256Update build layout seeded zeros
      seededSha256State := qpSha256Fips205Seed build pkSeed }

/-- The local variables of the loop over the layers. -/
structure LayerState where
  ctx : SlhVerifyCtx
  node : Block 16
  treeIndex : UInt64
  leafIndex : UInt32

variable {σ : Type} (reader : Reader σ)

def layerTurn (s : LayerState) (layer : Nat) : Reading SlhResult σ LayerState := do
  let ctx := addressZero build s.ctx
  let ctx := addressSetLayer build ctx (UInt32.ofNat layer)
  let ctx := addressSetTree build ctx s.treeIndex
  let ctx := addressSetKeypair build ctx s.leafIndex
  let r ← xmssPublicKeyFromSignature build layout unused reader ctx s.node s.leafIndex
  if layer + 1 < 7 then
    return { ctx := r.1, node := r.2, treeIndex := s.treeIndex >>> 9
             leafIndex := (s.treeIndex &&& 0x1ff).toUInt32 }
  else return { s with ctx := r.1, node := r.2 }

/-- The verifier from the first read to the last one, and the node that it arrives at. -/
def readNode (ctx : SlhVerifyCtx) (message context : Bytes) :
    Reading SlhResult σ (Block 16) := do
  let randomizer ← readSignature reader
  let digest := hMessage build layout unused ctx randomizer message context
  let treeIndex := readBeUint (slice digest.val 21 7) &&& (((1 : UInt64) <<< 54) - 1)
  let leafIndex := (readBeUint (slice digest.val 28 2)).toUInt32 &&& 0x1ff
  let ctx := addressSetTree build (addressZero build ctx) treeIndex
  let ctx := addressSetTypeAndClearNotKeypair build ctx 3
  let ctx := addressSetKeypair build ctx leafIndex
  let r ← forsPublicKeyFromSignature build layout unused reader ctx digest.val
  let s ← (List.range 7).foldlM (layerTurn build layout unused reader)
    { ctx := r.1, node := r.2, treeIndex, leafIndex }
  return s.node

/-- The loop of `qp_constant_time_equal`. -/
def qpConstantTimeEqual (a b : Bytes) (len : Nat) : Bool :=
  (List.range len).foldl (fun diff i => diff ||| (byteAt a i ^^^ byteAt b i)) 0 == 0

/-- The result, the number of bytes consumed, and the reader's state. -/
def verifyStream (publicKey : Block 32) (message context : Bytes) (signatureLen : Nat)
    (state : σ) : SlhResult × Nat × σ :=
  if signatureLen ≠ 7856 then (.badLength, 0, state)
  else if context.length > 255 then (.badContext, 0, state)
  else
    let verify := startVerify build layout unused publicKey
    match readNode build layout unused reader verify message context (state, 0) with
    | (.ok node, (rest, consumed)) =>
      if consumed ≠ 7856 then (.badLength, consumed, rest)
      else if qpConstantTimeEqual node.val verify.pkRoot.val 16 then (.ok, consumed, rest)
      else (.badSignature, consumed, rest)
    | (.error result, (rest, consumed)) => (result, consumed, rest)

end

end C0PQLink.NanoPQ.SlhDsa
