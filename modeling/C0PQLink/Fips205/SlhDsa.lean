import C0PQLink.Foundation.Bytes

/-!
# SLH-DSA of FIPS 205

The verification algorithms of the standard with the SHA-2 functions of section 11.2.1, on byte
strings and natural numbers. The parameter set and SHA-256 are parameters.

* `slhVerify`: Algorithm 24.
* `base2b_eq`: the digits of Algorithm 4 are the groups of bits of the string.
* `Adrs.compressed_eq`: the fields of a compressed address.
-/

namespace Fips205

open Foundation

/-! ## Parameters and numbers -/

/-- The parameters of Table 2; `hp` and `lgw` stand for h' and lg_w. -/
structure Parameters where
  n : Nat
  h : Nat
  d : Nat
  hp : Nat
  a : Nat
  k : Nat
  lgw : Nat
  m : Nat

/-- SLH-DSA-SHA2-128s. -/
def sha2_128s : Parameters := ⟨16, 63, 7, 9, 12, 14, 4, 30⟩

def Parameters.w (p : Parameters) : Nat := 2 ^ p.lgw
def Parameters.len1 (p : Parameters) : Nat := (8 * p.n + p.lgw - 1) / p.lgw
def Parameters.len2 (p : Parameters) : Nat := Nat.log2 (p.len1 * (p.w - 1)) / p.lgw + 1
def Parameters.len (p : Parameters) : Nat := p.len1 + p.len2

/-- The length of a signature. -/
def Parameters.signature (p : Parameters) : Nat :=
  (1 + p.k * (1 + p.a) + p.h + p.d * p.len) * p.n

/-- Algorithm 2. -/
def toInt (x : Bytes) : Nat := beNat x

/-- Algorithm 3. -/
def toByte (x n : Nat) : Bytes := beBytes n x

/-- The inner loop of Algorithm 4, with the variables `in`, `bits` and `total`. -/
def fill (x : Bytes) (b index bits total : Nat) : Nat × Nat × Nat :=
  if bits < b then fill x b (index + 1) (bits + 8) (total * 256 + (byteAt x index).toNat)
  else (index, bits, total)
termination_by b - bits

/-- The outer loop, with `count` digits to go. -/
def base2bFrom (x : Bytes) (b : Nat) : Nat → Nat → Nat → Nat → List Nat
  | 0, _, _, _ => []
  | count + 1, index, bits, total =>
    let s := fill x b index bits total
    s.2.2 / 2 ^ (s.2.1 - b) % 2 ^ b :: base2bFrom x b count s.1 (s.2.1 - b) s.2.2

/-- Algorithm 4. -/
def base2b (x : Bytes) (b outLen : Nat) : List Nat := base2bFrom x b outLen 0 0 0

/-- The bytes `index` to `J` are taken in, when `base` bits were used before. -/
theorem fill_eq {x : Bytes} {b base index J : Nat} (hindex : index ≤ J) (hJ : J ≤ x.length)
    (hbase : base ≤ 8 * index) (henough : base + b ≤ 8 * J)
    (hless : ∀ i, index ≤ i → i < J → 8 * i < base + b) :
    fill x b index (8 * index - base) (beNat (x.take index))
      = (J, 8 * J - base, beNat (x.take J)) := by
  induction hcount : J - index generalizing index with
  | zero =>
    obtain rfl : index = J := by omega
    rw [fill, if_neg (by omega)]
  | succ count ih =>
    have hshort := hless index (Nat.le_refl index) (by omega)
    have hbits : 8 * index - base + 8 = 8 * (index + 1) - base := by omega
    have hlt : index < x.length := by omega
    have htotal : beNat (x.take index) * 256 + (byteAt x index).toNat
        = beNat (x.take (index + 1)) := by
      rw [← beNat_append_singleton, byteAt, List.getD_eq_getElem?_getD,
        List.getElem?_eq_getElem hlt, Option.getD_some, ← List.take_succ_eq_append_getElem hlt]
    rw [fill, if_pos (by omega), hbits, htotal]
    exact ih (by omega) (by omega) (fun i hi => hless i (by omega)) (by omega)

theorem base2bFrom_eq {x : Bytes} {b i count index : Nat} (hindex : index = (i * b + 7) / 8)
    (hlength : (i + count) * b ≤ 8 * x.length) :
    base2bFrom x b count index (8 * index - i * b) (beNat (x.take index))
      = (List.range' i count).map fun t => beNat x / 2 ^ (8 * x.length - (t + 1) * b) % 2 ^ b := by
  induction count generalizing i index with
  | zero => rfl
  | succ count ih =>
    have hnext : (i + 1) * b = i * b + b := Nat.succ_mul i b
    have hall : (i + (count + 1)) * b = i * b + b + count * b := by ring
    have hstep : (i + 1 + count) * b = i * b + b + count * b := by ring
    have hfill : fill x b index (8 * index - i * b) (beNat (x.take index))
        = (((i + 1) * b + 7) / 8, 8 * (((i + 1) * b + 7) / 8) - i * b,
          beNat (x.take (((i + 1) * b + 7) / 8))) :=
      fill_eq (by omega) (by omega) (by omega) (by omega) fun j _ _ => by omega
    have hbits : 8 * (((i + 1) * b + 7) / 8) - i * b - b
        = 8 * (((i + 1) * b + 7) / 8) - (i + 1) * b := by omega
    have hdigit : beNat (x.take (((i + 1) * b + 7) / 8))
        / 2 ^ (8 * (((i + 1) * b + 7) / 8) - (i + 1) * b)
        = beNat x / 2 ^ (8 * x.length - (i + 1) * b) := by
      rw [beNat_take, show (256 : Nat) = 2 ^ 8 from rfl, ← Nat.pow_mul, Nat.div_div_eq_div_mul,
        ← Nat.pow_add]
      congr 2
      omega
    rw [base2bFrom, hfill, List.range'_succ, List.map_cons]
    simp only [hbits]
    rw [hdigit, ih rfl (by omega)]

/-- The digits are the groups of bits of the string, from its start. -/
theorem base2b_eq {x : Bytes} {b outLen : Nat} (h : outLen * b ≤ 8 * x.length) :
    base2b x b outLen
      = (List.range outLen).map fun t => beNat x / 2 ^ (8 * x.length - (t + 1) * b) % 2 ^ b := by
  have hloop : base2bFrom x b outLen 0 (8 * 0 - 0 * b) (beNat (x.take 0)) = _ :=
    base2bFrom_eq (by omega) (by rwa [Nat.zero_add])
  rw [List.range_eq_range', ← hloop, Nat.zero_mul]
  rfl

/-! ## Addresses -/

/-- An address; the last three words have different names in addresses of different types. -/
@[ext]
structure Adrs where
  layer : Nat
  tree : Nat
  type : Nat
  word1 : Nat
  word2 : Nat
  word3 : Nat

def Adrs.zero : Adrs := ⟨0, 0, 0, 0, 0, 0⟩

def wotsHash : Nat := 0
def wotsPk : Nat := 1
def treeNode : Nat := 2
def forsTree : Nat := 3
def forsRoots : Nat := 4

namespace Adrs

def setLayerAddress (adrs : Adrs) (l : Nat) : Adrs := { adrs with layer := l }
def setTreeAddress (adrs : Adrs) (t : Nat) : Adrs := { adrs with tree := t }
def setTypeAndClear (adrs : Adrs) (y : Nat) : Adrs :=
  { adrs with type := y, word1 := 0, word2 := 0, word3 := 0 }
def setKeyPairAddress (adrs : Adrs) (i : Nat) : Adrs := { adrs with word1 := i }
def setChainAddress (adrs : Adrs) (i : Nat) : Adrs := { adrs with word2 := i }
def setTreeHeight (adrs : Adrs) (i : Nat) : Adrs := { adrs with word2 := i }
def setHashAddress (adrs : Adrs) (i : Nat) : Adrs := { adrs with word3 := i }
def setTreeIndex (adrs : Adrs) (i : Nat) : Adrs := { adrs with word3 := i }
def getKeyPairAddress (adrs : Adrs) : Nat := adrs.word1
def getTreeIndex (adrs : Adrs) : Nat := adrs.word3

/-- The 32 bytes of an address. -/
def bytes (adrs : Adrs) : Bytes :=
  toByte adrs.layer 4 ++ toByte adrs.tree 12 ++ toByte adrs.type 4 ++ toByte adrs.word1 4
    ++ toByte adrs.word2 4 ++ toByte adrs.word3 4

/-- The 22 bytes of a compressed address. -/
def compressed (adrs : Adrs) : Bytes :=
  slice adrs.bytes 3 1 ++ slice adrs.bytes 8 8 ++ slice adrs.bytes 19 1 ++ slice adrs.bytes 20 12

theorem bytes_eq (adrs : Adrs) :
    adrs.bytes = [toByte adrs.layer 4, toByte adrs.tree 12, toByte adrs.type 4,
      toByte adrs.word1 4, toByte adrs.word2 4, toByte adrs.word3 4].flatten := by
  simp only [bytes, List.flatten_cons, List.flatten_nil, List.append_nil, List.append_assoc]

theorem compressed_eq (adrs : Adrs) :
    adrs.compressed = [[UInt8.ofNat adrs.layer], toByte adrs.tree 8, [UInt8.ofNat adrs.type],
      toByte adrs.word1 4, toByte adrs.word2 4, toByte adrs.word3 4].flatten := by
  have hlength (v n : Nat) : (toByte v n).length = n := length_beBytes n v
  have hlast (v : Nat) : toByte v 4 = toByte (v / 256) 3 ++ [UInt8.ofNat v] := rfl
  have htree : toByte adrs.tree 12 = toByte (adrs.tree / 256 ^ 8) 4 ++ toByte adrs.tree 8 :=
    beBytes_add 4 8 adrs.tree
  have hfields : adrs.bytes = toByte (adrs.layer / 256) 3 ++ [UInt8.ofNat adrs.layer]
      ++ toByte (adrs.tree / 256 ^ 8) 4 ++ toByte adrs.tree 8 ++ toByte (adrs.type / 256) 3
      ++ [UInt8.ofNat adrs.type] ++ (toByte adrs.word1 4 ++ toByte adrs.word2 4
        ++ toByte adrs.word3 4) := by
    rw [bytes, htree, hlast adrs.layer, hlast adrs.type]
    simp only [List.append_assoc]
  have hlayerSlice : slice adrs.bytes 3 1 = [UInt8.ofNat adrs.layer] := by
    rw [hfields, List.append_assoc, List.append_assoc, List.append_assoc, List.append_assoc]
    exact slice_field (hlength _ _) rfl
  have htreeSlice : slice adrs.bytes 8 8 = toByte adrs.tree 8 := by
    rw [hfields, List.append_assoc, List.append_assoc]
    exact slice_field (by simp [hlength]) (hlength _ _)
  have htypeSlice : slice adrs.bytes 19 1 = [UInt8.ofNat adrs.type] := by
    rw [hfields]
    exact slice_field (by simp [hlength]) rfl
  have hwordsSlice : slice adrs.bytes 20 12
      = toByte adrs.word1 4 ++ toByte adrs.word2 4 ++ toByte adrs.word3 4 := by
    rw [hfields]
    exact slice_last (by simp [hlength]) (by simp [hlength])
  rw [compressed, hlayerSlice, htreeSlice, htypeSlice, hwordsSlice]
  simp only [List.flatten_cons, List.flatten_nil, List.append_nil, List.append_assoc]

end Adrs

section

variable (p : Parameters) (hash : Bytes → Block 32)

/-! ## Hash functions -/

/-- F, H and T_l, which differ in the length of their input. -/
def tl (pkSeed : Bytes) (adrs : Adrs) (input : Bytes) : Bytes :=
  (hash (pkSeed ++ toByte 0 (64 - p.n) ++ adrs.compressed ++ input)).val.take p.n

def mgf1 (seed : Bytes) (maskLen : Nat) : Bytes :=
  ((List.range ((maskLen + 31) / 32)).flatMap fun c => (hash (seed ++ toByte c 4)).val).take maskLen

def hMsg (r pkSeed pkRoot message : Bytes) : Bytes :=
  mgf1 hash (r ++ pkSeed ++ (hash (r ++ pkSeed ++ pkRoot ++ message)).val) p.m

/-! ## One-time signatures -/

/-- Algorithm 5. -/
def chain (x : Bytes) (i s : Nat) (pkSeed : Bytes) (adrs : Adrs) : Bytes :=
  (List.range' i s).foldl (fun tmp j => tl p hash pkSeed (adrs.setHashAddress j) tmp) x

/-- The digits of a message and of its checksum. -/
def wotsDigits (m : Bytes) : List Nat :=
  let msg := base2b m p.lgw p.len1
  let csum := (msg.map fun x => p.w - 1 - x).sum
  let csum := csum * 2 ^ ((8 - p.len2 * p.lgw % 8) % 8)
  msg ++ base2b (toByte csum ((p.len2 * p.lgw + 7) / 8)) p.lgw p.len2

/-- Algorithm 8. -/
def wotsPkFromSig (sig m pkSeed : Bytes) (adrs : Adrs) : Bytes :=
  let msg := wotsDigits p m
  let tmp := (List.range p.len).flatMap fun i =>
    chain p hash (slice sig (i * p.n) p.n) (msg.getD i 0) (p.w - 1 - msg.getD i 0) pkSeed
      (adrs.setChainAddress i)
  tl p hash pkSeed ((adrs.setTypeAndClear wotsPk).setKeyPairAddress adrs.getKeyPairAddress) tmp

/-! ## Trees -/

/-- A turn of the loops of Algorithms 11 and 17 over an authentication path; `index` decides on
which side the node is. -/
def climbTurn (pkSeed auth : Bytes) (index : Nat) (s : Adrs × Bytes) (j : Nat) : Adrs × Bytes :=
  let adrs := s.1.setTreeHeight (j + 1)
  if index / 2 ^ j % 2 = 0 then
    let adrs := adrs.setTreeIndex (adrs.getTreeIndex / 2)
    (adrs, tl p hash pkSeed adrs (s.2 ++ slice auth (j * p.n) p.n))
  else
    let adrs := adrs.setTreeIndex ((adrs.getTreeIndex - 1) / 2)
    (adrs, tl p hash pkSeed adrs (slice auth (j * p.n) p.n ++ s.2))

def climb (pkSeed auth : Bytes) (index height : Nat) (s : Adrs × Bytes) : Bytes :=
  ((List.range height).foldl (climbTurn p hash pkSeed auth index) s).2

/-- Algorithm 11. -/
def xmssPkFromSig (idx : Nat) (sig m pkSeed : Bytes) (adrs : Adrs) : Bytes :=
  let adrs := (adrs.setTypeAndClear wotsHash).setKeyPairAddress idx
  let node := wotsPkFromSig p hash (slice sig 0 (p.len * p.n)) m pkSeed adrs
  let adrs := (adrs.setTypeAndClear treeNode).setTreeIndex idx
  climb p hash pkSeed (slice sig (p.len * p.n) (p.hp * p.n)) idx p.hp (adrs, node)

/-- The part of Algorithm 13 before the comparison. -/
def htNode (m sigHt pkSeed : Bytes) (idxTree idxLeaf : Nat) : Bytes :=
  let adrs := Adrs.zero.setTreeAddress idxTree
  let sigTmp := fun j => slice sigHt (j * ((p.hp + p.len) * p.n)) ((p.hp + p.len) * p.n)
  let node := xmssPkFromSig p hash idxLeaf (sigTmp 0) m pkSeed adrs
  ((List.range' 1 (p.d - 1)).foldl (fun (s : Nat × Bytes) j =>
    let idxLeaf := s.1 % 2 ^ p.hp
    let idxTree := s.1 / 2 ^ p.hp
    let adrs := (adrs.setLayerAddress j).setTreeAddress idxTree
    (idxTree, xmssPkFromSig p hash idxLeaf (sigTmp j) s.2 pkSeed adrs)) (idxTree, node)).2

/-- Algorithm 17. -/
def forsPkFromSig (sigFors md pkSeed : Bytes) (adrs : Adrs) : Bytes :=
  let indices := base2b md p.a p.k
  let root := (List.range p.k).flatMap fun i =>
    let sk := slice sigFors (i * (p.a + 1) * p.n) p.n
    let auth := slice sigFors ((i * (p.a + 1) + 1) * p.n) (p.a * p.n)
    let adrs := (adrs.setTreeHeight 0).setTreeIndex (i * 2 ^ p.a + indices.getD i 0)
    climb p hash pkSeed auth (indices.getD i 0) p.a (adrs, tl p hash pkSeed adrs sk)
  tl p hash pkSeed ((adrs.setTypeAndClear forsRoots).setKeyPairAddress adrs.getKeyPairAddress) root

/-! ## Verification -/

/-- The root that Algorithm 20 compares with the one of the public key. -/
def rootCandidate (message sig pk : Bytes) : Bytes :=
  let pkSeed := slice pk 0 p.n
  let pkRoot := slice pk p.n p.n
  let r := slice sig 0 p.n
  let sigFors := slice sig p.n (p.k * (1 + p.a) * p.n)
  let sigHt := slice sig ((1 + p.k * (1 + p.a)) * p.n) ((p.h + p.d * p.len) * p.n)
  let digest := hMsg p hash r pkSeed pkRoot message
  let mdBytes := (p.k * p.a + 7) / 8
  let treeBytes := (p.h - p.h / p.d + 7) / 8
  let leafBytes := (p.h / p.d + 7) / 8
  let md := slice digest 0 mdBytes
  let idxTree := toInt (slice digest mdBytes treeBytes) % 2 ^ (p.h - p.h / p.d)
  let idxLeaf := toInt (slice digest (mdBytes + treeBytes) leafBytes) % 2 ^ (p.h / p.d)
  let adrs := (Adrs.zero.setTreeAddress idxTree).setTypeAndClear forsTree
  let adrs := adrs.setKeyPairAddress idxLeaf
  let pkFors := forsPkFromSig p hash sigFors md pkSeed adrs
  htNode p hash pkFors sigHt pkSeed idxTree idxLeaf

/-- Algorithm 20. -/
def slhVerifyInternal (message sig pk : Bytes) : Bool :=
  if sig.length ≠ p.signature then false
  else rootCandidate p hash message sig pk == slice pk p.n p.n

/-- Algorithm 24. -/
def slhVerify (message sig context pk : Bytes) : Bool :=
  if context.length > 255 then false
  else slhVerifyInternal p hash (toByte 0 1 ++ toByte context.length 1 ++ context ++ message) sig pk

end

end Fips205
