import C0PQLink.NanoPQ.LmsVerification
import C0PQLink.NanoPQ.SlhDsaHashes

/-!
# The SLH-DSA verifier and the standard

What the streaming verifier computes from the pieces that its reader delivers, in every build.

* `reads_path`, `reads_xmss`, `reads_fors`, `reads_layers`: its parts, with the pieces that each
  of them asks for.
* `readNode_reads`: the node that it arrives at is the root of the standard.
-/

namespace C0PQLink.NanoPQ.SlhDsa

open Foundation

open Fips205 (Adrs toByte sha2_128s chainEnd treeRoot layerNode layerLeaf)

/-! ## Pieces of a signature -/

section

variable {σ : Type} (reader : Reader σ) (start : σ)

/-- The string is made of `count` pieces, from the piece `first` on. -/
def Pieces (part : Bytes) (first count : Nat) : Prop :=
  ∀ j < count, slice part (j * 16) 16 = (pieceAt reader (fun _ => 16) start (first + j)).val

variable {reader start}

theorem Pieces.slice {part : Bytes} {first count : Nat} (h : Pieces reader start part first count)
    {skip some : Nat} (hle : skip + some ≤ count) :
    Pieces reader start (slice part (skip * 16) (some * 16)) (first + skip) some := by
  intro j hj
  have hpiece := h (skip + j) (by omega)
  rw [slice_slice part (skip * 16) (by omega), ← Nat.add_mul, hpiece, Nat.add_assoc]

theorem pieces_delivered (count : Nat) :
    Pieces reader start (delivered reader 16 start count) 0 count := by
  intro j hj
  rw [Nat.mul_comm, slice_delivered reader start hj, Nat.zero_add]

end

/-! ## Authentication paths -/

section

variable {build : Ablation} (layout : WordLayout) (unused : Block 64) {pkSeed : Block 16}
variable {ctx : SlhVerifyCtx} {adrs : Adrs}

/-- The context is at an address, up to the last two words. -/
def Near (build : Ablation) (pkSeed : Block 16) (ctx : SlhVerifyCtx) (adrs : Adrs) : Prop :=
  ∃ a b, Located build pkSeed ctx { adrs with word2 := a, word3 := b }

theorem Located.near (h : Located build pkSeed ctx adrs) : Near build pkSeed ctx adrs :=
  ⟨adrs.word2, adrs.word3, h⟩

theorem Near.set (h : Near build pkSeed ctx adrs) (height index : UInt32) :
    Located build pkSeed (addressSetHashOrIndex build (addressSetChainOrHeight build ctx height)
      index) { adrs with word2 := height.toNat, word3 := index.toNat } := by
  obtain ⟨a, b, hctx⟩ := h
  exact (hctx.setChainOrHeight height).setHashOrIndex index

variable {σ : Type} {reader : Reader σ} {start : σ}

theorem toNat_shiftRight_lt {x : UInt32} {n : Nat} (h : n < 32) :
    (x >>> UInt32.ofNat n).toNat = x.toNat / 2 ^ n := by
  have hn : (UInt32.ofNat n).toNat = n := by
    rw [UInt32.toNat_ofNat']
    exact Nat.mod_eq_of_lt (by omega)
  rw [UInt32.toNat_shiftRight, hn, Nat.mod_eq_of_lt h, Nat.shiftRight_eq_div_pow]

/-- The index of a node is halved on either side. -/
theorem climbTurn_eq (p : Fips205.Parameters) (hash : Bytes → Block 32)
    (pkSeed auth node : Bytes) (adrs : Adrs) (a : Nat) {tree index n : Nat}
    (hside : index / 2 ^ n % 2 = 1 → tree / 2 ^ n % 2 = 1) :
    Fips205.climbTurn p hash pkSeed auth index
        ({ adrs with word2 := a, word3 := tree / 2 ^ n }, node) n
      = ({ adrs with word2 := n + 1, word3 := tree / 2 ^ (n + 1) },
        Fips205.tl p hash pkSeed { adrs with word2 := n + 1, word3 := tree / 2 ^ (n + 1) }
          (if index / 2 ^ n % 2 = 0 then node ++ slice auth (n * p.n) p.n
            else slice auth (n * p.n) p.n ++ node)) := by
  have hquotient : tree / 2 ^ (n + 1) = tree / 2 ^ n / 2 := by
    rw [Nat.pow_succ, Nat.div_div_eq_div_mul]
  rw [hquotient, Fips205.climbTurn]
  by_cases heven : index / 2 ^ n % 2 = 0
  · simp only [if_pos heven]
    rfl
  · have hodd := hside (by omega)
    have hhalf : (tree / 2 ^ n - 1) / 2 = tree / 2 ^ n / 2 := by
      generalize tree / 2 ^ n = quotient at hodd ⊢
      omega
    simp only [if_neg heven, ← hhalf]
    rfl

/-- A turn of the loop over a path is a turn of the standard. The index of the tree and the one
that decides on the side have to agree on their odd quotients. -/
theorem reads_path {treeIndex sideIndex : UInt32} {auth : Bytes} {first height : Nat}
    (hctx : Near build pkSeed ctx adrs) (hindex : adrs.word3 = treeIndex.toNat)
    (hauth : Pieces reader start auth first height) (hheight : height < 32)
    (hside : ∀ j < height, sideIndex.toNat / 2 ^ j % 2 = 1 → treeIndex.toNat / 2 ^ j % 2 = 1)
    (node : Block 16) :
    Reads reader (fun _ => 16) start
      ((List.range height).foldlM (pathTurn build layout unused reader treeIndex sideIndex)
        (ctx, node)) first (first + height) .ioError
      fun s => Near build pkSeed s.1 adrs ∧ s.2.val = Fips205.climb sha2_128s qpHash pkSeed.val
        auth sideIndex.toNat height (adrs, node.val) := by
  generalize hspec : (fun n => (List.range n).foldl
    (Fips205.climbTurn sha2_128s qpHash pkSeed.val auth sideIndex.toNat) (adrs, node.val)) = spec
  have hnext (n : Nat) : spec (n + 1)
      = Fips205.climbTurn sha2_128s qpHash pkSeed.val auth sideIndex.toNat (spec n) n := by
    rw [← hspec]
    simp only [List.range_succ, List.foldl_append, List.foldl_cons, List.foldl_nil]
  have hfirst : spec 0 = (adrs, node.val) := by
    rw [← hspec]
    rfl
  have hlast : Fips205.climb sha2_128s qpHash pkSeed.val auth sideIndex.toNat height
      (adrs, node.val) = (spec height).2 := by
    rw [← hspec]
    rfl
  have hloop : Reads reader (fun _ => 16) start
      ((List.range height).foldlM (pathTurn build layout unused reader treeIndex sideIndex)
        (ctx, node)) first (first + height) .ioError
      fun s => Near build pkSeed s.1 adrs ∧ s.2.val = (spec height).2 ∧ ∃ a, (spec height).1
        = { adrs with word2 := a, word3 := treeIndex.toNat / 2 ^ height } := by
    refine reads_each (fun n (s : SlhVerifyCtx × Block 16) => Near build pkSeed s.1 adrs
        ∧ s.2.val = (spec n).2
        ∧ ∃ a, (spec n).1 = { adrs with word2 := a, word3 := treeIndex.toNat / 2 ^ n })
      ⟨hctx, by rw [hfirst], adrs.word2, by rw [hfirst, pow_zero, Nat.div_one, ← hindex]⟩ ?_
    intro n hn s ⟨hnear, hnode, a, hadrs⟩
    refine (reads_piece rfl).bind (fun sibling hsibling => ?_) (Nat.le_refl _)
    have hheightWord : (UInt32.ofNat n + 1).toNat = n + 1 := by
      rw [← UInt32.ofNat_one, ← UInt32.ofNat_add, UInt32.toNat_ofNat']
      exact Nat.mod_eq_of_lt (by omega)
    have hindexWord : (treeIndex >>> (UInt32.ofNat n + 1)).toNat
        = treeIndex.toNat / 2 ^ (n + 1) := by
      rw [← UInt32.ofNat_one, ← UInt32.ofNat_add, toNat_shiftRight_lt (by omega)]
    have hlocated := hnear.set (UInt32.ofNat n + 1) (treeIndex >>> (UInt32.ofNat n + 1))
    rw [hheightWord, hindexWord] at hlocated
    have hpiece : sibling.val = slice auth (n * 16) 16 := by
      rw [hsibling, hauth n hn]
    have hbit : (sideIndex >>> UInt32.ofNat n) &&& 1 = 0 ↔ sideIndex.toNat / 2 ^ n % 2 = 0 := by
      rw [← UInt32.toNat_inj, UInt32.toNat_and, toNat_shiftRight_lt (by omega)]
      change sideIndex.toNat / 2 ^ n &&& 1 = 0 ↔ _
      rw [Nat.and_one_is_mod]
    have hturn := climbTurn_eq sha2_128s qpHash pkSeed.val auth s.2.val adrs a (hside n hn)
    rw [← hadrs, hnode, Prod.mk.eta, ← hnext, ← hnode] at hturn
    change spec (n + 1) = _ at hturn
    by_cases heven : sideIndex.toNat / 2 ^ n % 2 = 0
    · simp only [if_pos (hbit.mpr heven)]
      rw [if_pos heven] at hturn
      refine reads_pure ⟨hlocated.near, ?_, n + 1, ?_⟩ _
      · rw [hturn, hlocated.hashH layout unused s.2 sibling, hpiece]
        rfl
      · rw [hturn]
    · simp only [if_neg (mt hbit.mp heven)]
      rw [if_neg heven] at hturn
      refine reads_pure ⟨hlocated.near, ?_, n + 1, ?_⟩ _
      · rw [hturn, hlocated.hashH layout unused sibling s.2, hpiece]
        rfl
      · rw [hturn]
  rw [hlast]
  exact hloop.mono fun s hs => ⟨hs.1, hs.2.1⟩

/-! ## One-time signatures -/

theorem toNat_ofNat_32 {n : Nat} (h : n < 2 ^ 32) : (UInt32.ofNat n).toNat = n := by
  rw [UInt32.toNat_ofNat']
  exact Nat.mod_eq_of_lt h

theorem reads_chains {message : Block 16} {sig before : Bytes} {hash : QpSha256Ctx} {first : Nat}
    (hctx : Near build pkSeed ctx adrs) (hhash : Absorbs hash before)
    (hsig : Pieces reader start sig first 35) :
    Reads reader (fun _ => 16) start
      ((List.range 35).foldlM (wotsTurn build layout unused reader message (wotsChecksum message)
        ((List.range 35).map (wotsDigitAt message (wotsChecksum message)))) (ctx, hash))
      first (first + 35) .ioError
      fun s => Near build pkSeed s.1 adrs ∧ Absorbs s.2
        (before ++ (List.range 35).flatMap (chainEnd qpHash pkSeed.val sig message.val adrs)) := by
  refine reads_each (fun n (s : SlhVerifyCtx × QpSha256Ctx) => Near build pkSeed s.1 adrs ∧
    Absorbs s.2 (before
      ++ (List.range n).flatMap (chainEnd qpHash pkSeed.val sig message.val adrs)))
    ⟨hctx, by simpa using hhash⟩ ?_
  intro n hn s ⟨hnear, habsorbs⟩
  have hdigit : (if build.materializedState
      then byteAt ((List.range 35).map (wotsDigitAt message (wotsChecksum message))) n
      else wotsDigitAt message (wotsChecksum message) n)
      = wotsDigitAt message (wotsChecksum message) n := by
    split
    · rw [byteAt, List.getD_eq_getElem?_getD, List.getElem?_map, List.getElem?_range hn]
      rfl
    · rfl
  refine (reads_piece rfl).bind (fun value hvalue => ?_) (Nat.le_refl _)
  simp only [hdigit]
  obtain ⟨a, b, hlocated⟩ := hnear
  have hset := hlocated.setChainOrHeight (UInt32.ofNat n)
  rw [toNat_ofNat_32 (by omega)] at hset
  obtain ⟨hend, w, hnext⟩ := hset.chain layout unused value
    (wotsDigitAt message (wotsChecksum message) n)
  have hpiece : value.val = slice sig (n * 16) 16 := by
    rw [hvalue, hsig n hn]
  rw [wotsDigitAt_eq message hn, hpiece] at hend
  have hchain : (SlhDsa.chain build layout unused
      (addressSetChainOrHeight build s.1 (UInt32.ofNat n)) value
      (wotsDigitAt message (wotsChecksum message) n)
      (15 - wotsDigitAt message (wotsChecksum message) n)).2.val
      = chainEnd qpHash pkSeed.val sig message.val adrs n := hend
  refine reads_pure ⟨⟨n, w, hnext⟩, ?_⟩ _
  rw [List.range_succ, List.flatMap_append, List.flatMap_singleton, ← List.append_assoc,
    ← hchain]
  exact habsorbs.update build layout _

/-- The digits of the message are not needed any more when the root takes its place. -/
theorem reads_xmss {root : Block 16} {leafIndex : UInt32} {sig : Bytes} {first : Nat}
    (hctx : Located build pkSeed ctx (adrs.setKeyPairAddress leafIndex.toNat))
    (hsig : Pieces reader start sig first 44) :
    Reads reader (fun _ => 16) start
      (xmssPublicKeyFromSignature build layout unused reader ctx root leafIndex) first
      (first + 44) .ioError
      fun s => (∃ adrs', Located build pkSeed s.1 adrs') ∧ s.2.val
        = Fips205.xmssPkFromSig sha2_128s qpHash leafIndex.toNat sig root.val pkSeed.val adrs := by
  have hkey := hctx.setTypeAndClearNotKeypair 1
  have haggregate := hkey.hashStart layout unused
  have hchains := hkey.setTypeAndClearNotKeypair 0
  have helements : Pieces reader start (slice sig 0 (35 * 16)) first 35 :=
    hsig.slice (show 0 + 35 ≤ 44 by omega)
  have hauth : Pieces reader start (slice sig (35 * 16) (9 * 16)) (first + 35) 9 :=
    hsig.slice (show 35 + 9 ≤ 44 by omega)
  refine (reads_chains layout unused hchains.near haggregate helements).bind (fun s hs => ?_)
    (by omega)
  obtain ⟨⟨a, b, hlocated⟩, habsorbs⟩ := hs
  have hleaf := hashFinishN_eq layout build habsorbs
  have htree := hlocated.setTypeAndClear 2
  rw [Fips205.xmssPkFromSig_eq, Fips205.wotsPkFromSig_eq]
  have hnear : Near build pkSeed (addressSetTypeAndClear build s.1 2)
      ((((adrs.setTypeAndClear Fips205.wotsHash).setKeyPairAddress
        leafIndex.toNat).setTypeAndClear Fips205.treeNode).setTreeIndex leafIndex.toNat) :=
    ⟨0, 0, htree⟩
  refine Reads.mono (reads_path layout unused hnear rfl hauth (by omega) (fun _ _ h => h) _)
    fun t ht => ⟨?_, ?_⟩
  · obtain ⟨⟨a, b, hend⟩, _⟩ := ht
    exact ⟨_, hend⟩
  · rw [ht.2, hleaf]
    rfl

/-! ## Few-time signatures -/

theorem reads_trees {sig md before : Bytes} {hash : QpSha256Ctx} {first : Nat}
    (hctx : Near build pkSeed ctx adrs) (hhash : Absorbs hash before) (hmd : 21 ≤ md.length)
    (hsig : Pieces reader start sig first 182) :
    Reads reader (fun _ => 16) start
      ((List.range 14).foldlM (forsTurn build layout unused reader md
        ((List.range 14).map (forsIndexAt md))) (ctx, hash)) first (first + 13 * 14) .ioError
      fun s => Near build pkSeed s.1 adrs ∧ Absorbs s.2 (before
        ++ (List.range 14).flatMap (treeRoot qpHash pkSeed.val sig (slice md 0 21) adrs)) := by
  refine reads_loop (fun n (s : SlhVerifyCtx × QpSha256Ctx) => Near build pkSeed s.1 adrs ∧
    Absorbs s.2 (before
      ++ (List.range n).flatMap (treeRoot qpHash pkSeed.val sig (slice md 0 21) adrs)))
    ⟨hctx, by simpa using hhash⟩ ?_
  intro n hn s ⟨hnear, habsorbs⟩
  have hindex : (if build.materializedState then ((List.range 14).map (forsIndexAt md)).getD n 0
      else forsIndexAt md n) = forsIndexAt md n := by
    split
    · rw [List.getD_eq_getElem?_getD, List.getElem?_map, List.getElem?_range hn]
      rfl
    · rfl
  refine (reads_piece rfl).bind (fun value hvalue => ?_) (by omega)
  simp only [hindex]
  have htree : ((UInt32.ofNat n <<< 12) + (forsIndexAt md n).toUInt32).toNat
      = n * 2 ^ 12 + (forsIndexAt md n).toNat := by
    have hlt := (forsIndexAt md n).toNat_lt
    rw [UInt32.toNat_add, UInt32.toNat_shiftLeft, toNat_ofNat_32 (by omega),
      UInt16.toNat_toUInt32, Nat.shiftLeft_eq]
    change (n * 2 ^ 12 % 2 ^ 32 + (forsIndexAt md n).toNat) % 2 ^ 32 = _
    omega
  have hset := hnear.set 0 ((UInt32.ofNat n <<< 12) + (forsIndexAt md n).toUInt32)
  have hleaf := hset.hashF layout unused value
  have hpiece : value.val = slice sig (n * 13 * 16) 16 := by
    rw [hvalue, Nat.mul_comm n, hsig (13 * n) (by omega)]
  have hauth : Pieces reader start (slice sig ((n * 13 + 1) * 16) (12 * 16))
      (first + 13 * n + 1) 12 := by
    have hpart := hsig.slice (show n * 13 + 1 + 12 ≤ 182 by omega)
    rwa [show first + (n * 13 + 1) = first + 13 * n + 1 by omega] at hpart
  have hside : ∀ j < 12, (forsIndexAt md n).toUInt32.toNat / 2 ^ j % 2 = 1 →
      ((UInt32.ofNat n <<< 12) + (forsIndexAt md n).toUInt32).toNat / 2 ^ j % 2 = 1 := by
    intro j hj hodd
    have hpow : (2 : Nat) ^ 12 = 2 ^ j * (2 * 2 ^ (11 - j)) := by
      rw [← Nat.pow_succ', ← Nat.pow_add]
      congr 1
      omega
    have hshift : n * 2 ^ 12 = 2 ^ j * (2 * (n * 2 ^ (11 - j))) := by
      rw [hpow]
      ring
    rw [htree, hshift, Nat.mul_add_div (Nat.two_pow_pos j)]
    rw [UInt16.toNat_toUInt32] at hodd
    omega
  refine Reads.bind (reads_path layout unused hset.near rfl hauth (by omega) hside _)
    (fun t ht => ?_) (by omega)
  obtain ⟨⟨a, b, hnext⟩, hroot⟩ := ht
  have htreeRoot : t.2.val = treeRoot qpHash pkSeed.val sig (slice md 0 21) adrs n := by
    rw [hroot, hleaf, hpiece, UInt16.toNat_toUInt32, htree, forsIndexAt_eq hmd hn]
    rfl
  refine reads_pure ⟨⟨a, b, hnext⟩, ?_⟩ _
  rw [List.range_succ, List.flatMap_append, List.flatMap_singleton, ← List.append_assoc,
    ← htreeRoot]
  exact habsorbs.update build layout _

theorem reads_fors {sig md : Bytes} {first : Nat} (hctx : Located build pkSeed ctx adrs)
    (htype : adrs.type = Fips205.forsTree) (hmd : 21 ≤ md.length)
    (hsig : Pieces reader start sig first 182) :
    Reads reader (fun _ => 16) start
      (forsPublicKeyFromSignature build layout unused reader ctx md) first (first + 13 * 14)
      .ioError
      fun s => (∃ adrs', Located build pkSeed s.1 adrs') ∧ s.2.val
        = Fips205.forsPkFromSig sha2_128s qpHash sig (slice md 0 21) pkSeed.val adrs := by
  have hroots := hctx.setTypeAndClearNotKeypair 4
  have haggregate := hroots.hashStart layout unused
  have hback := hroots.setTypeAndClearNotKeypair 3
  have hadrs : ((((adrs.setTypeAndClear (UInt32.toNat 4)).setKeyPairAddress
      adrs.getKeyPairAddress).setTypeAndClear (UInt32.toNat 3)).setKeyPairAddress
      adrs.getKeyPairAddress) = { adrs with word2 := 0, word3 := 0 } := by
    rw [Adrs.ext_iff]
    exact ⟨rfl, rfl, htype.symm, rfl, rfl, rfl⟩
  have htrees : Near build pkSeed (addressSetTypeAndClearNotKeypair build
      (addressSetTypeAndClearNotKeypair build ctx 4) 3) adrs := ⟨0, 0, hadrs ▸ hback⟩
  refine (reads_trees layout unused htrees haggregate hmd hsig).bind (fun s hs => ?_)
    (Nat.le_refl _)
  obtain ⟨⟨a, b, hlocated⟩, habsorbs⟩ := hs
  refine reads_pure ⟨⟨_, hlocated⟩, ?_⟩ _
  rw [Fips205.forsPkFromSig_eq]
  exact hashFinishN_eq layout build habsorbs

/-! ## Layers -/

theorem reads_layers {node : Block 16} {sig : Bytes} {treeIndex : UInt64} {leafIndex : UInt32}
    {first : Nat} (hctx : ∃ adrs, Located build pkSeed ctx adrs)
    (hsig : Pieces reader start sig first 308) :
    Reads reader (fun _ => 16) start
      ((List.range 7).foldlM (layerTurn build layout unused reader)
        { ctx, node, treeIndex, leafIndex }) first (first + 44 * 7) .ioError
      fun s => s.node.val
        = layerNode qpHash pkSeed.val sig node.val treeIndex.toNat leafIndex.toNat 7 := by
  have hloop : Reads reader (fun _ => 16) start
      ((List.range 7).foldlM (layerTurn build layout unused reader)
        { ctx, node, treeIndex, leafIndex }) first (first + 44 * 7) .ioError
      fun s => (∃ adrs, Located build pkSeed s.ctx adrs)
        ∧ s.node.val = layerNode qpHash pkSeed.val sig node.val treeIndex.toNat leafIndex.toNat 7
        ∧ (7 < 7 → s.treeIndex.toNat = treeIndex.toNat / 2 ^ (9 * 7)
          ∧ s.leafIndex.toNat = layerLeaf treeIndex.toNat leafIndex.toNat 7) := by
    refine reads_loop (fun n (s : LayerState) => (∃ adrs, Located build pkSeed s.ctx adrs)
        ∧ s.node.val = layerNode qpHash pkSeed.val sig node.val treeIndex.toNat leafIndex.toNat n
        ∧ (n < 7 → s.treeIndex.toNat = treeIndex.toNat / 2 ^ (9 * n)
          ∧ s.leafIndex.toNat = layerLeaf treeIndex.toNat leafIndex.toNat n))
      ⟨hctx, rfl, fun _ => ⟨by simp, rfl⟩⟩ ?_
    intro l hl s ⟨⟨adrs, hlocated⟩, hnode, hindices⟩
    obtain ⟨htree, hleaf⟩ := hindices hl
    have hadrs := ((hlocated.zero.setLayer (UInt32.ofNat l)).setTree s.treeIndex).setKeypair
      s.leafIndex
    rw [toNat_ofNat_32 (by omega)] at hadrs
    have hpart : Pieces reader start (slice sig (l * 44 * 16) (44 * 16)) (first + 44 * l) 44 := by
      have hpart := hsig.slice (show l * 44 + 44 ≤ 308 by omega)
      rwa [Nat.mul_comm l 44] at hpart ⊢
    refine (reads_xmss layout unused hadrs hpart).bind (fun r hr => ?_) (by omega)
    obtain ⟨hnext, hroot⟩ := hr
    have hlayer : r.2.val
        = layerNode qpHash pkSeed.val sig node.val treeIndex.toNat leafIndex.toNat (l + 1) := by
      rw [hroot, hnode, htree, hleaf]
      rfl
    by_cases hlast : l + 1 < 7
    · simp only [if_pos hlast]
      refine reads_pure ⟨hnext, hlayer, fun _ => ⟨?_, ?_⟩⟩ _
      · have hshift : (s.treeIndex >>> 9).toNat = s.treeIndex.toNat / 2 ^ 9 := by
          rw [UInt64.toNat_shiftRight]
          exact Nat.shiftRight_eq_div_pow s.treeIndex.toNat 9
        rw [hshift, htree, Nat.div_div_eq_div_mul, ← Nat.pow_add, Nat.mul_succ]
      · have hmask : (s.treeIndex &&& 0x1ff).toNat = s.treeIndex.toNat % 2 ^ 9 := by
          rw [UInt64.toNat_and]
          exact Nat.and_two_pow_sub_one_eq_mod s.treeIndex.toNat 9
        rw [UInt64.toNat_toUInt32, hmask, htree, layerLeaf]
        omega
    · simp only [if_neg hlast]
      exact reads_pure ⟨hnext, hlayer, fun h => absurd h hlast⟩ _
  exact hloop.mono fun s hs => hs.2.1

/-! ## The node -/

theorem startVerify_located (publicKey : Block 32) : Located build
    (publicKey.first 16 (Nat.le_add_right 16 16)) (startVerify build layout unused publicKey)
    Adrs.zero := by
  have hinit : Absorbs (qpSha256Init ⟨unused.val, initialState, 0, 0⟩) [] :=
    qpSha256Init_absorbs unused.property
  have hseeded := (((hinit.update build layout
    (publicKey.first 16 (Nat.le_add_right 16 16)).val).update build layout
    (List.replicate 16 0)).update build layout (List.replicate 16 0)).update build layout
    (List.replicate 16 0)
  have hmessage : [] ++ (publicKey.first 16 (Nat.le_add_right 16 16)).val ++ List.replicate 16 0
      ++ List.replicate 16 0 ++ List.replicate 16 0
      = seedBlock (publicKey.first 16 (Nat.le_add_right 16 16)) := by
    rw [seedBlock, List.nil_append, List.append_assoc, List.append_assoc,
      List.replicate_append_replicate, List.replicate_append_replicate]
  rw [hmessage] at hseeded
  refine ⟨?_, ?_, rfl⟩
  · rw [stored]
    change List.replicate (if build.fullAddress then 32 else 22) 0 = _
    split
    · rfl
    · rfl
  · rw [startVerify, addressZero]
    dsimp only
    exact hseeded

theorem readNode_reads (publicKey : Block 32) (message : Bytes) {context : Bytes}
    (hcontext : context.length ≤ 255) :
    Reads reader (fun _ => 16) start
      (readNode build layout unused reader (startVerify build layout unused publicKey) message
        context) 0 491 .ioError
      fun node => node.val = Fips205.rootCandidate sha2_128s qpHash
        (toByte 0 1 ++ toByte context.length 1 ++ context ++ message)
        (delivered reader 16 start 491) publicKey.val := by
  have hstart : Located build _ (startVerify build layout unused publicKey) Adrs.zero :=
    startVerify_located layout unused publicKey
  have hwhole : Pieces reader start (delivered reader 16 start 491) 0 491 := pieces_delivered 491
  have hfors := hwhole.slice (show 1 + 182 ≤ 491 by omega)
  have hlayers := hwhole.slice (show 183 + 308 ≤ 491 by omega)
  refine (reads_piece rfl).bind (fun randomizer hrandomizer => ?_) (by omega)
  have hdigest := hMessage_eq build layout unused (startVerify build layout unused publicKey)
    randomizer message hcontext
  have hfirst : randomizer.val = slice (delivered reader 16 start 491) 0 16 := by
    rw [hrandomizer]
    exact (hwhole 0 (by omega)).symm
  rw [hfirst] at hdigest
  rw [Fips205.rootCandidate_eq qpHash publicKey.val _ _ _ hdigest]
  generalize hMessage build layout unused (startVerify build layout unused publicKey) randomizer
    message context = digest
  dsimp only
  have hslice {place len : Nat} (h : place + len ≤ 30) :
      slice digest.val place len = slice (digest.val.take 30) place len := by
    have houter := slice_slice digest.val 0 h
    rw [Nat.zero_add] at houter
    exact houter.symm
  have hmd : 21 ≤ digest.val.length := by
    rw [Block.length_val]
    omega
  have htreeIndex := treeIndex_toNat (show (slice digest.val 21 7).length = 7 by simp)
  have hleafIndex := leafIndex_toNat (show (slice digest.val 28 2).length = 2 by simp)
  generalize readBeUint (slice digest.val 21 7) &&& (((1 : UInt64) <<< 54) - 1) = treeIndex
    at htreeIndex ⊢
  generalize (readBeUint (slice digest.val 28 2)).toUInt32 &&& 0x1ff = leafIndex
    at hleafIndex ⊢
  rw [← hslice (by omega), ← hslice (by omega), ← hslice (by omega), ← htreeIndex, ← hleafIndex]
  have hadrs := ((hstart.zero.setTree treeIndex).setTypeAndClearNotKeypair 3).setKeypair leafIndex
  refine (reads_fors layout unused hadrs rfl hmd hfors).bind (fun r hr => ?_) (by omega)
  obtain ⟨hlocated, hroot⟩ := hr
  refine (reads_layers layout unused hlocated hlayers).bind (fun s hs => ?_) (by omega)
  refine reads_pure ?_ _
  rw [hs, hroot]
  rfl

end

/-! ## The result -/

theorem foldl_or_eq_zero (turns : List Nat) (f : Nat → UInt8) (diff : UInt8) :
    turns.foldl (fun diff i => diff ||| f i) diff = 0 ↔ diff = 0 ∧ ∀ i ∈ turns, f i = 0 := by
  induction turns generalizing diff with
  | nil => simp
  | cons i turns ih =>
    rw [List.foldl_cons, ih, UInt8.or_eq_zero_iff, List.forall_mem_cons, and_assoc]

theorem qpConstantTimeEqual_iff {a b : Bytes} {len : Nat} (ha : a.length = len)
    (hb : b.length = len) : qpConstantTimeEqual a b len ↔ a = b := by
  rw [qpConstantTimeEqual, beq_iff_eq, foldl_or_eq_zero]
  constructor
  · rintro ⟨-, hbytes⟩
    refine List.ext_getElem (ha.trans hb.symm) fun i hia hib => ?_
    have hbyte := UInt8.xor_eq_zero_iff.mp (hbytes i (List.mem_range.mpr (by omega)))
    rw [byteAt, byteAt, List.getD_eq_getElem?_getD, List.getD_eq_getElem?_getD,
      List.getElem?_eq_getElem hia, List.getElem?_eq_getElem hib] at hbyte
    exact hbyte
  · rintro rfl
    exact ⟨rfl, fun i _ => UInt8.xor_self⟩

section

variable (build : Ablation) (layout : WordLayout) (unused : Block 64)
variable {σ : Type} (reader : Reader σ)

/-- The root of the standard for what the reader delivers. -/
def deliveredRoot (state : σ) (publicKey : Block 32) (message context : Bytes) : Bytes :=
  Fips205.rootCandidate sha2_128s qpHash
    (toByte 0 1 ++ toByte context.length 1 ++ context ++ message)
    (delivered reader 16 state 491) publicKey.val

variable {reader} (publicKey : Block 32) (message : Bytes) {context : Bytes} {state : σ}

theorem verifyStream_delivered (hcontext : context.length ≤ 255)
    (hall : Answers reader (fun _ => 16) state 491) :
    verifyStream build layout unused reader publicKey message context 7856 state
      = (if deliveredRoot reader state publicKey message context = slice publicKey.val 16 16
          then .ok else .badSignature, 7856, stateAt reader (fun _ => 16) state 491) := by
  have hreads : Reads reader (fun _ => 16) state (readNode build layout unused reader
      (startVerify build layout unused publicKey) message context) 0 491 .ioError _ :=
    readNode_reads layout unused publicKey message hcontext
  obtain ⟨node, hnode, hrun⟩ := hreads.answered hall
  have hroot : (startVerify build layout unused publicKey).pkRoot.val = slice publicKey.val 16 16 :=
    rfl
  have hequal : qpConstantTimeEqual node.val (slice publicKey.val 16 16) 16
      ↔ deliveredRoot reader state publicKey message context = slice publicKey.val 16 16 := by
    rw [qpConstantTimeEqual_iff (Block.length_val node) (by simp), hnode, deliveredRoot]
  rw [countAt_const, countAt_const] at hrun
  change readNode build layout unused reader (startVerify build layout unused publicKey) message
    context (state, 0) = _ at hrun
  simp only [verifyStream, hrun, hroot]
  rw [if_neg (by decide), if_neg (by omega), if_neg (by decide)]
  split
  · rename_i heq
    rw [if_pos (hequal.mp heq)]
  · rename_i hne
    rw [if_neg (mt hequal.mpr hne)]

theorem verifyStream_fails (hcontext : context.length ≤ 255) {k : Nat} (hk : k < 491)
    (hfails : FailsAt reader (fun _ => 16) state k) :
    verifyStream build layout unused reader publicKey message context 7856 state
      = (.ioError, 16 * k, stateAt reader (fun _ => 16) state (k + 1)) := by
  have hreads : Reads reader (fun _ => 16) state (readNode build layout unused reader
      (startVerify build layout unused publicKey) message context) 0 491 .ioError _ :=
    readNode_reads layout unused publicKey message hcontext
  have hrun := hreads.fails k (Nat.zero_le k) hk hfails
  rw [EndsAt, countAt_const, countAt_const] at hrun
  change readNode build layout unused reader (startVerify build layout unused publicKey) message
    context (state, 0) = _ at hrun
  simp only [verifyStream, hrun]
  rw [if_neg (by decide), if_neg (by omega)]

end

/-- No switch of the build, no byte order and no content of an unused block changes the result,
the number of bytes consumed or the use of the reader. -/
theorem verifyStream_ablation (build : Ablation) (layout layout' : WordLayout)
    (unused unused' : Block 64) {σ : Type} (reader : Reader σ) (publicKey : Block 32)
    (message context : Bytes) (signatureLen : Nat) (state : σ) :
    verifyStream build layout unused reader publicKey message context signatureLen state
      = verifyStream Ablation.default layout' unused' reader publicKey message context signatureLen
        state := by
  by_cases hlength : signatureLen ≠ 7856
  · simp only [verifyStream, if_pos hlength]
  by_cases hcontext : context.length > 255
  · simp only [verifyStream, if_neg hlength, if_pos hcontext]
  have hle : context.length ≤ 255 := by omega
  obtain rfl := not_not.mp hlength
  rcases answers_or_fails reader (fun _ => 16) state 491 with hall | ⟨k, hk, hfails⟩
  · rw [verifyStream_delivered build layout unused publicKey message hle hall,
      verifyStream_delivered Ablation.default layout' unused' publicKey message hle hall]
  · rw [verifyStream_fails build layout unused publicKey message hle hk hfails,
      verifyStream_fails Ablation.default layout' unused' publicKey message hle hk hfails]

/-! ## A signature in order -/

/-- The reads of 16 bytes of what an ordered reader still has. -/
theorem ordered_delivered {σ : Type} (reader : OrderedReader σ) (state : σ) {n : Nat}
    (h : 16 * n ≤ (reader.remaining state).length) :
    Answers reader.read (fun _ => 16) state n
      ∧ reader.remaining (stateAt reader.read (fun _ => 16) state n)
        = (reader.remaining state).drop (16 * n)
      ∧ delivered reader.read 16 state n = (reader.remaining state).take (16 * n) := by
  induction n with
  | zero => exact ⟨nofun, rfl, rfl⟩
  | succ n ih =>
    obtain ⟨hall, hrest, hpart⟩ := ih (by omega)
    have hlength : 16 ≤ (reader.remaining (stateAt reader.read (fun _ => 16) state n)).length := by
      rw [hrest, List.length_drop]
      omega
    have hanswer := reader.delivers 16 _ hlength
    have hadvance := reader.advances 16 _ hlength
    have hanswerAt : answerAt reader.read (fun _ => 16) state n = some (blockAt (reader.remaining
        (stateAt reader.read (fun _ => 16) state n)) 0 16 (by omega)) := hanswer
    have hpiece : (pieceAt reader.read (fun _ => 16) state n).val
        = ((reader.remaining state).drop (16 * n)).take 16 := by
      rw [pieceAt, hanswerAt, ← hrest]
      rfl
    refine ⟨fun i hi => ?_, ?_, ?_⟩
    · rcases Nat.eq_or_lt_of_le (Nat.le_of_lt_succ hi) with rfl | hlt
      · rw [hanswerAt]
        rfl
      · exact hall i hlt
    · rw [hrest, List.drop_drop] at hadvance
      exact hadvance
    · rw [delivered, List.range_succ, List.map_append, List.flatten_append, ← delivered, hpart,
        List.map_singleton, List.flatten_singleton, hpiece, Nat.mul_succ, List.take_add]

/-- For a signature that the reader delivers in order, the verifier decides as Algorithm 24
does, and it has read the whole signature. -/
theorem verifyStream_fips205 (build : Ablation) (layout : WordLayout) (unused : Block 64)
    {σ : Type} (reader : OrderedReader σ) (publicKey : Block 32) (message context : Bytes)
    (hcontext : context.length ≤ 255) (state : σ)
    (hsignature : (reader.remaining state).length = 7856) :
    ((verifyStream build layout unused reader.read publicKey message context 7856 state).1 = .ok ↔
      Fips205.slhVerify sha2_128s qpHash message (reader.remaining state) context publicKey.val)
    ∧ (verifyStream build layout unused reader.read publicKey message context 7856 state).2.1
        = 7856
    ∧ (message.length + 305 < 2 ^ 32 →
      Fips205.slhVerify sha2_128s qpHash message (reader.remaining state) context publicKey.val
        = Fips205.slhVerify sha2_128s Fips180.sha256 message (reader.remaining state) context
          publicKey.val) := by
  obtain ⟨hall, -, hdelivered⟩ := ordered_delivered reader state
    (show 16 * 491 ≤ (reader.remaining state).length by omega)
  rw [List.take_of_length_le (by omega)] at hdelivered
  have hrun := verifyStream_delivered build layout unused publicKey message hcontext hall
  have hparameters : sha2_128s.signature = 7856 := by decide
  have haccepts : Fips205.slhVerify sha2_128s qpHash message (reader.remaining state) context
      publicKey.val ↔ deliveredRoot reader.read state publicKey message context
        = slice publicKey.val 16 16 := by
    rw [Fips205.slhVerify, if_neg (by omega), Fips205.slhVerifyInternal, hparameters,
      if_neg (not_not.mpr hsignature), beq_iff_eq, deliveredRoot, hdelivered]
    rfl
  refine ⟨?_, ?_, fun hmessage => ?_⟩
  · rw [hrun, haccepts]
    dsimp only
    split
    · rename_i heq
      exact iff_of_true rfl heq
    · rename_i hne
      refine iff_of_false (fun heq => ?_) hne
      cases heq
  · rw [hrun]
  · have hagree : ∀ input : Bytes, input.length < 2 ^ 32 → qpHash input = Fips180.sha256 input :=
      fun input h => qpHash_eq h
    exact Fips205.slhVerify_agree (by decide) hagree (Block.length_val publicKey) (by omega) _

/-- A byte string as its own reader. -/
def stringReader : OrderedReader Bytes where
  read length s :=
    if h : length ≤ s.length then
      (some (blockAt s 0 length ((Nat.zero_add length).le.trans h)), s.drop length)
    else (none, s)
  remaining s := s
  delivers length s h := by rw [dif_pos h]
  advances length s h := by rw [dif_pos h]

theorem verifyStream_fips205_zeros :
    ((verifyStream Ablation.default littleEndian (Block.zero 64) stringReader.read (Block.zero 32)
        (ascii "epoch 1") (ascii "NPQ") 7856 (List.replicate 7856 0)).1 = .ok ↔
      Fips205.slhVerify sha2_128s Fips180.sha256 (ascii "epoch 1") (List.replicate 7856 0)
        (ascii "NPQ") (Block.zero 32).val) ∧
    (verifyStream Ablation.default littleEndian (Block.zero 64) stringReader.read (Block.zero 32)
      (ascii "epoch 1") (ascii "NPQ") 7856 (List.replicate 7856 0)).2.1 = 7856 := by
  obtain ⟨haccepts, hread, hstandard⟩ := verifyStream_fips205 Ablation.default littleEndian
    (Block.zero 64) stringReader (Block.zero 32) (ascii "epoch 1") (ascii "NPQ") (by decide)
    (List.replicate 7856 0) List.length_replicate
  have hshort : (ascii "epoch 1").length + 305 < 2 ^ 32 := by decide
  rw [hstandard hshort] at haccepts
  exact ⟨haccepts, hread⟩

end C0PQLink.NanoPQ.SlhDsa
