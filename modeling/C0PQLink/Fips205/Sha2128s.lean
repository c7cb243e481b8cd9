import C0PQLink.Fips205.SlhDsa
import C0PQLink.Foundation.Loops

/-!
# SLH-DSA-SHA2-128s

The verification of this parameter set with its numbers, over any hash function.

* `wotsPkFromSig_eq`, `xmssPkFromSig_eq`, `forsPkFromSig_eq`, `htNode_eq`, `rootCandidate_eq`: the
  algorithms, with their chains, trees and layers by name.
* `slhVerify_agree`: hash functions that agree on short strings accept the same signatures.
-/

namespace Fips205

open Foundation

theorem sha2_128s_len : sha2_128s.len = 35 := by decide

theorem sha2_128s_digit : sha2_128s.w - 1 = 15 := by decide

section

variable (hash : Bytes → Block 32)

/-! ## Chains, trees and layers -/

/-- The chain `i` of a one-time signature. -/
def chainEnd (pkSeed sig message : Bytes) (adrs : Adrs) (i : Nat) : Bytes :=
  chain sha2_128s hash (slice sig (i * 16) 16) ((wotsDigits sha2_128s message).getD i 0)
    (15 - (wotsDigits sha2_128s message).getD i 0) pkSeed (adrs.setChainAddress i)

theorem wotsPkFromSig_eq (pkSeed sig message : Bytes) (adrs : Adrs) :
    wotsPkFromSig sha2_128s hash sig message pkSeed adrs
      = tl sha2_128s hash pkSeed
        ((adrs.setTypeAndClear wotsPk).setKeyPairAddress adrs.getKeyPairAddress)
        ((List.range 35).flatMap (chainEnd hash pkSeed sig message adrs)) := by
  rw [wotsPkFromSig, sha2_128s_len, sha2_128s_digit]
  rfl

theorem xmssPkFromSig_eq (pkSeed sig message : Bytes) (adrs : Adrs) (idx : Nat) :
    xmssPkFromSig sha2_128s hash idx sig message pkSeed adrs
      = climb sha2_128s hash pkSeed (slice sig (35 * 16) (9 * 16)) idx 9
        (((((adrs.setTypeAndClear wotsHash).setKeyPairAddress idx).setTypeAndClear
            treeNode).setTreeIndex idx),
          wotsPkFromSig sha2_128s hash (slice sig 0 (35 * 16)) message pkSeed
            ((adrs.setTypeAndClear wotsHash).setKeyPairAddress idx)) := by
  rw [xmssPkFromSig, sha2_128s_len]
  rfl

/-- The root of the tree `i` of a few-time signature. -/
def treeRoot (pkSeed sig md : Bytes) (adrs : Adrs) (i : Nat) : Bytes :=
  let index := (base2b md 12 14).getD i 0
  let adrs := (adrs.setTreeHeight 0).setTreeIndex (i * 2 ^ 12 + index)
  climb sha2_128s hash pkSeed (slice sig ((i * 13 + 1) * 16) (12 * 16)) index 12
    (adrs, tl sha2_128s hash pkSeed adrs (slice sig (i * 13 * 16) 16))

theorem forsPkFromSig_eq (pkSeed sig md : Bytes) (adrs : Adrs) :
    forsPkFromSig sha2_128s hash sig md pkSeed adrs
      = tl sha2_128s hash pkSeed
        ((adrs.setTypeAndClear forsRoots).setKeyPairAddress adrs.getKeyPairAddress)
        ((List.range 14).flatMap (treeRoot hash pkSeed sig md adrs)) := rfl

/-- The leaf of a layer. -/
def layerLeaf (idxTree idxLeaf : Nat) : Nat → Nat
  | 0 => idxLeaf
  | l + 1 => idxTree / 2 ^ (9 * l) % 2 ^ 9

/-- The node below a layer, of the hypertree signature `sig`. -/
def layerNode (pkSeed sig node : Bytes) (idxTree idxLeaf : Nat) : Nat → Bytes
  | 0 => node
  | l + 1 =>
    xmssPkFromSig sha2_128s hash (layerLeaf idxTree idxLeaf l)
      (slice sig (l * 44 * 16) (44 * 16)) (layerNode pkSeed sig node idxTree idxLeaf l) pkSeed
      ((Adrs.zero.setLayerAddress l).setTreeAddress (idxTree / 2 ^ (9 * l)))

/-- A turn of the loop over the layers from 1 on. -/
def hypertreeTurn (pkSeed sig : Bytes) (tree : Nat) (s : Nat × Bytes) (j : Nat) : Nat × Bytes :=
  (s.1 / 2 ^ 9, xmssPkFromSig sha2_128s hash (s.1 % 2 ^ 9)
    (slice sig (j * (44 * 16)) (44 * 16)) s.2 pkSeed
    (((Adrs.zero.setTreeAddress tree).setLayerAddress j).setTreeAddress (s.1 / 2 ^ 9)))

theorem htNode_eq (pkSeed sig node : Bytes) (idxTree idxLeaf : Nat) :
    htNode sha2_128s hash node sig pkSeed idxTree idxLeaf
      = layerNode hash pkSeed sig node idxTree idxLeaf 7 := by
  have hturns : List.range' 1 (sha2_128s.d - 1) = (List.range 6).map fun n => 1 + n :=
    List.range'_eq_map_range
  have hheight : sha2_128s.hp = 9 := rfl
  have hn : sha2_128s.n = 16 := rfl
  have hloop : (List.range 6).foldl (fun s n => hypertreeTurn hash pkSeed sig idxTree s (1 + n))
      (idxTree, layerNode hash pkSeed sig node idxTree idxLeaf 1)
      = (idxTree / 2 ^ (9 * 6), layerNode hash pkSeed sig node idxTree idxLeaf (6 + 1)) := by
    refine foldl_range_invariant (fun n s =>
      s = (idxTree / 2 ^ (9 * n), layerNode hash pkSeed sig node idxTree idxLeaf (n + 1)))
      (by rw [Nat.mul_zero, pow_zero, Nat.div_one]) ?_
    intro n hn s hs
    have htree : idxTree / 2 ^ (9 * n) / 2 ^ 9 = idxTree / 2 ^ (9 * (n + 1)) := by
      rw [Nat.div_div_eq_div_mul, ← Nat.pow_add, Nat.mul_succ]
    have hplace : (1 + n) * (44 * 16) = (n + 1) * 44 * 16 := by ring
    rw [hs, hypertreeTurn, layerNode, htree, hplace, Nat.add_comm 1 n]
    rfl
  have hfirst : layerNode hash pkSeed sig node idxTree idxLeaf 1
      = xmssPkFromSig sha2_128s hash idxLeaf (slice sig (0 * (44 * 16)) (44 * 16)) node pkSeed
        (Adrs.zero.setTreeAddress idxTree) := by
    rw [layerNode, Nat.mul_zero, pow_zero, Nat.div_one, Nat.zero_mul]
    rfl
  rw [hfirst] at hloop
  rw [htNode, hturns, List.foldl_map]
  simp only [hheight, sha2_128s_len, hn, Nat.reduceAdd]
  exact congrArg Prod.snd hloop

/-- The root that is compared, from the digest of the message. -/
theorem rootCandidate_eq (pk message sig digest : Bytes)
    (hdigest : digest = hMsg sha2_128s hash (slice sig 0 16) (slice pk 0 16) (slice pk 16 16)
      message) :
    rootCandidate sha2_128s hash message sig pk
      = layerNode hash (slice pk 0 16) (slice sig (183 * 16) (308 * 16))
        (forsPkFromSig sha2_128s hash (slice sig (1 * 16) (182 * 16)) (slice digest 0 21)
          (slice pk 0 16)
          (((Adrs.zero.setTreeAddress (beNat (slice digest 21 7) % 2 ^ 54)).setTypeAndClear
            forsTree).setKeyPairAddress (beNat (slice digest 28 2) % 2 ^ 9)))
        (beNat (slice digest 21 7) % 2 ^ 54) (beNat (slice digest 28 2) % 2 ^ 9) 7 := by
  rw [← htNode_eq, hdigest, rootCandidate, sha2_128s_len]
  rfl

end

/-! ## Hash functions that agree -/

theorem Adrs.length_compressed (adrs : Adrs) : adrs.compressed.length = 22 := by
  rw [compressed_eq]
  simp [toByte]

theorem length_tl_le (hash : Bytes → Block 32) (pkSeed input : Bytes) (adrs : Adrs) :
    (tl sha2_128s hash pkSeed adrs input).length ≤ 16 := List.length_take_le 16 _

theorem length_slice_le (b : Bytes) (start len : Nat) : (slice b start len).length ≤ len := by
  rw [length_slice]
  exact Nat.min_le_left _ _

theorem length_flatMap_le {n size : Nat} {f : Nat → Bytes} (h : ∀ i < n, (f i).length ≤ size) :
    ((List.range n).flatMap f).length ≤ n * size := by
  induction n with
  | zero => simp
  | succ n ih =>
    have hlast := h n (Nat.lt_succ_self n)
    have hrest := ih fun i hi => h i (by omega)
    rw [List.range_succ, List.flatMap_append, List.flatMap_singleton, List.length_append,
      Nat.succ_mul]
    omega

section

variable {hash hash' : Bytes → Block 32} {limit : Nat} (hlimit : 700 ≤ limit)
variable (hagree : ∀ input : Bytes, input.length < limit → hash input = hash' input)
variable {pkSeed : Bytes} (hseed : pkSeed.length = 16)
include hlimit hagree hseed

theorem tl_agree (adrs : Adrs) {input : Bytes} (hinput : input.length ≤ 560) :
    tl sha2_128s hash pkSeed adrs input = tl sha2_128s hash' pkSeed adrs input := by
  have hpadding : (toByte 0 (64 - sha2_128s.n)).length = 48 := length_beBytes 48 0
  rw [tl, tl, hagree]
  rw [List.length_append, List.length_append, List.length_append, hseed, hpadding,
    Adrs.length_compressed]
  omega

theorem chain_agree (adrs : Adrs) {x : Bytes} (hx : x.length ≤ 16) (i steps : Nat) :
    chain sha2_128s hash x i steps pkSeed adrs = chain sha2_128s hash' x i steps pkSeed adrs
      ∧ (chain sha2_128s hash x i steps pkSeed adrs).length ≤ 16 := by
  rw [chain, chain]
  generalize List.range' i steps = turns
  induction turns generalizing x with
  | nil => exact ⟨rfl, hx⟩
  | cons j turns ih =>
    rw [List.foldl_cons, List.foldl_cons, ← tl_agree hlimit hagree hseed _ (by omega)]
    exact ih (length_tl_le hash pkSeed x _)

theorem wotsPkFromSig_agree (sig message : Bytes) (adrs : Adrs) :
    wotsPkFromSig sha2_128s hash sig message pkSeed adrs
      = wotsPkFromSig sha2_128s hash' sig message pkSeed adrs := by
  have hchain (i : Nat) := chain_agree hlimit hagree hseed (adrs.setChainAddress i)
    (length_slice_le sig (i * 16) 16) ((wotsDigits sha2_128s message).getD i 0)
    (15 - (wotsDigits sha2_128s message).getD i 0)
  have hlength := length_flatMap_le (f := chainEnd hash pkSeed sig message adrs)
    (fun i (_ : i < 35) => (hchain i).2)
  have hchains : (List.range 35).flatMap (chainEnd hash pkSeed sig message adrs)
      = (List.range 35).flatMap (chainEnd hash' pkSeed sig message adrs) :=
    List.flatMap_congr fun i _ => (hchain i).1
  rw [wotsPkFromSig_eq, wotsPkFromSig_eq, tl_agree hlimit hagree hseed _ hlength, hchains]

theorem climb_agree (auth : Bytes) (index height : Nat) (adrs : Adrs) {node : Bytes}
    (hnode : node.length ≤ 16) :
    climb sha2_128s hash pkSeed auth index height (adrs, node)
        = climb sha2_128s hash' pkSeed auth index height (adrs, node)
      ∧ (climb sha2_128s hash pkSeed auth index height (adrs, node)).length ≤ 16 := by
  have hturn (s : Adrs × Bytes) (j : Nat) (hs : s.2.length ≤ 16) :
      climbTurn sha2_128s hash pkSeed auth index s j
          = climbTurn sha2_128s hash' pkSeed auth index s j
        ∧ (climbTurn sha2_128s hash pkSeed auth index s j).2.length ≤ 16 := by
    have hsibling := length_slice_le auth (j * 16) 16
    rw [climbTurn, climbTurn]
    dsimp only
    split
    · rw [tl_agree hlimit hagree hseed]
      · exact ⟨rfl, length_tl_le _ _ _ _⟩
      · rw [List.length_append]
        change _ + (slice auth (j * 16) 16).length ≤ _
        omega
    · rw [tl_agree hlimit hagree hseed]
      · exact ⟨rfl, length_tl_le _ _ _ _⟩
      · rw [List.length_append]
        change (slice auth (j * 16) 16).length + _ ≤ _
        omega
  have hstart : (adrs, node).2.length ≤ 16 := hnode
  rw [climb, climb]
  generalize (adrs, node) = s at hstart
  generalize List.range height = turns
  induction turns generalizing s with
  | nil => exact ⟨rfl, hstart⟩
  | cons j turns ih =>
    obtain ⟨heq, hle⟩ := hturn s j hstart
    rw [List.foldl_cons, List.foldl_cons, ← heq]
    exact ih _ hle

theorem xmssPkFromSig_agree (idx : Nat) (sig message : Bytes) (adrs : Adrs) :
    xmssPkFromSig sha2_128s hash idx sig message pkSeed adrs
      = xmssPkFromSig sha2_128s hash' idx sig message pkSeed adrs := by
  have hnode := wotsPkFromSig_agree hlimit hagree hseed (slice sig 0 (35 * 16)) message
    ((adrs.setTypeAndClear wotsHash).setKeyPairAddress idx)
  rw [xmssPkFromSig_eq, xmssPkFromSig_eq, ← hnode]
  exact (climb_agree hlimit hagree hseed _ _ _ _ (length_tl_le hash pkSeed _ _)).1

theorem layerNode_agree (sig node : Bytes) (idxTree idxLeaf l : Nat) :
    layerNode hash pkSeed sig node idxTree idxLeaf l
      = layerNode hash' pkSeed sig node idxTree idxLeaf l := by
  induction l with
  | zero => rfl
  | succ l ih => rw [layerNode, layerNode, ih, xmssPkFromSig_agree hlimit hagree hseed]

theorem forsPkFromSig_agree (sig md : Bytes) (adrs : Adrs) :
    forsPkFromSig sha2_128s hash sig md pkSeed adrs
      = forsPkFromSig sha2_128s hash' sig md pkSeed adrs := by
  have hroot (i : Nat) : treeRoot hash pkSeed sig md adrs i = treeRoot hash' pkSeed sig md adrs i
      ∧ (treeRoot hash pkSeed sig md adrs i).length ≤ 16 := by
    have hsecret := length_slice_le sig (i * 13 * 16) 16
    rw [treeRoot, treeRoot, ← tl_agree hlimit hagree hseed _ (by omega)]
    exact climb_agree hlimit hagree hseed _ _ _ _ (length_tl_le hash pkSeed _ _)
  have hlength := length_flatMap_le (f := treeRoot hash pkSeed sig md adrs)
    (fun i (_ : i < 14) => (hroot i).2)
  have hroots : (List.range 14).flatMap (treeRoot hash pkSeed sig md adrs)
      = (List.range 14).flatMap (treeRoot hash' pkSeed sig md adrs) :=
    List.flatMap_congr fun i _ => (hroot i).1
  rw [forsPkFromSig_eq, forsPkFromSig_eq, tl_agree hlimit hagree hseed _ (by omega), hroots]

omit hseed in
/-- Only the hash of the message is over a string that may be long. -/
theorem slhVerify_agree {message context pk : Bytes} (hpk : pk.length = 32)
    (hmessage : 50 + context.length + message.length < limit) (sig : Bytes) :
    slhVerify sha2_128s hash message sig context pk
      = slhVerify sha2_128s hash' message sig context pk := by
  have hseed : (slice pk 0 16).length = 16 := by
    rw [length_slice]
    omega
  have hdigest : hMsg sha2_128s hash (slice sig 0 16) (slice pk 0 16) (slice pk 16 16)
      (toByte 0 1 ++ toByte context.length 1 ++ context ++ message)
      = hMsg sha2_128s hash' (slice sig 0 16) (slice pk 0 16) (slice pk 16 16)
        (toByte 0 1 ++ toByte context.length 1 ++ context ++ message) := by
    have hrandomizer := length_slice_le sig 0 16
    have hinner : hash (slice sig 0 16 ++ slice pk 0 16 ++ slice pk 16 16
        ++ (toByte 0 1 ++ toByte context.length 1 ++ context ++ message))
        = hash' (slice sig 0 16 ++ slice pk 0 16 ++ slice pk 16 16
          ++ (toByte 0 1 ++ toByte context.length 1 ++ context ++ message)) := by
      refine hagree _ ?_
      simp only [List.length_append, toByte, length_beBytes, length_slice] at hrandomizer ⊢
      omega
    rw [hMsg, hMsg, hinner, mgf1, mgf1]
    congr 1
    refine List.flatMap_congr fun c _ => ?_
    rw [hagree]
    simp only [List.length_append, Block.length_val, toByte, length_beBytes]
    omega
  have hroot : rootCandidate sha2_128s hash
      (toByte 0 1 ++ toByte context.length 1 ++ context ++ message) sig pk
      = rootCandidate sha2_128s hash'
        (toByte 0 1 ++ toByte context.length 1 ++ context ++ message) sig pk := by
    rw [rootCandidate_eq hash pk _ sig _ rfl, rootCandidate_eq hash' pk _ sig _ rfl, ← hdigest,
      forsPkFromSig_agree hlimit hagree hseed, layerNode_agree hlimit hagree hseed]
  rw [slhVerify, slhVerify, slhVerifyInternal, slhVerifyInternal, hroot]

end

end Fips205
