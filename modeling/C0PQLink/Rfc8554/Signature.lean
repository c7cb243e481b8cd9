import C0PQLink.Foundation.HashTree
import C0PQLink.Rfc8554.Lms

/-!
# Signatures of RFC 8554

Key generation and signing of the standard, with the private elements of its appendix A, and
that Algorithm 6 accepts what they produce.

* `chainSteps_trans`: a chain that is walked in two parts.
* `otsCandidate_signed`: the candidate for the one-time key is the key.
* `signature_valid`: a signature from a leaf of the tree is valid under its root.
-/

namespace Rfc8554

open Foundation

variable (hash : Bytes → Block 32)

/-! ## One-time signatures -/

/-- The steps `a` to `b` of the chain `i`. -/
def chainSteps (identifier q : Bytes) (i a b : Nat) (y : Bytes) : Bytes :=
  (List.range' a (b - a)).foldl
    (fun tmp j => (hash (identifier ++ q ++ u16str i ++ u8str j ++ tmp)).val) y

/-- The element `i` of a private key, from a seed. -/
def privateElement (identifier q seed : Bytes) (i : Nat) : Bytes :=
  (hash (identifier ++ q ++ u16str i ++ u8str 0xff ++ seed)).val

/-- Algorithm 1. -/
def otsPublicKey (parameters : LmotsParameters) (identifier q seed : Bytes) : Block 32 :=
  hash (identifier ++ q ++ u16str dPblc ++ (List.range parameters.p).flatMap fun i =>
    chainSteps hash identifier q i 0 (2 ^ parameters.w - 1)
      (privateElement hash identifier q seed i))

/-- The message hash with its checksum. -/
def digits (parameters : LmotsParameters) (identifier q randomizer message : Bytes) : Bytes :=
  let digest := hash (identifier ++ q ++ u16str dMesg ++ randomizer ++ message)
  digest.val ++ u16str (cksm parameters digest.val)

/-- The element `i` of a signature, by Algorithm 3. -/
def otsElement (parameters : LmotsParameters) (identifier q seed digits : Bytes) (i : Nat) :
    Bytes :=
  chainSteps hash identifier q i 0 (coef digits i parameters.w)
    (privateElement hash identifier q seed i)

theorem chainSteps_trans (identifier q : Bytes) (i : Nat) {a b c : Nat} (hab : a ≤ b)
    (hbc : b ≤ c) (y : Bytes) :
    chainSteps hash identifier q i b c (chainSteps hash identifier q i a b y)
      = chainSteps hash identifier q i a c y := by
  have hsplit : List.range' a (c - a) = List.range' a (b - a) ++ List.range' b (c - b) := by
    have happend : List.range' a (b - a) ++ List.range' (a + (b - a)) (c - b)
        = List.range' a ((b - a) + (c - b)) := List.range'_append_1
    rw [Nat.add_sub_cancel' hab] at happend
    rw [happend]
    congr 1
    omega
  rw [chainSteps, chainSteps, chainSteps, hsplit, List.foldl_append]

theorem length_chainSteps (identifier q : Bytes) (i a b : Nat) {y : Bytes} (hy : y.length = 32) :
    (chainSteps hash identifier q i a b y).length = 32 := by
  rw [chainSteps]
  generalize List.range' a (b - a) = steps
  induction steps generalizing y with
  | nil => exact hy
  | cons j steps ih => exact ih (Block.length_val _)

theorem length_otsElement (parameters : LmotsParameters) (identifier q seed digits : Bytes)
    (i : Nat) : (otsElement hash parameters identifier q seed digits i).length = 32 :=
  length_chainSteps hash identifier q i 0 _ (Block.length_val _)

/-- The chains of a signature end where those of the key do. -/
theorem otsCandidate_signed (parameters : LmotsParameters)
    (identifier q seed message randomizer : Bytes) {y : Nat → Bytes}
    (hy : ∀ i < parameters.p, y i = otsElement hash parameters identifier q seed
      (digits hash parameters identifier q randomizer message) i) :
    otsCandidate hash parameters identifier q message randomizer y
      = otsPublicKey hash parameters identifier q seed := by
  rw [otsCandidate, otsPublicKey]
  congr 2
  refine List.flatMap_congr fun i hi => ?_
  rw [hy i (List.mem_range.mp hi), otsElement]
  have hlt := coef_lt (digits hash parameters identifier q randomizer message) i parameters.w
  exact chainSteps_trans hash identifier q i (Nat.zero_le _) (by omega) _

/-! ## The tree -/

/-- The leaf with the number `r`. -/
def leafNode (identifier : Bytes) (r : Nat) (key : Block 32) : Bytes :=
  (hash (identifier ++ u32str r ++ u16str dLeaf ++ key.val)).val

def innerNode (identifier : Bytes) (r : Nat) (left right : Bytes) : Bytes :=
  (hash (identifier ++ u32str r ++ u16str dIntr ++ left ++ right)).val

theorem climb_eq (identifier : Bytes) (path : List Bytes) (r : Nat) (tmp : Bytes) :
    climb hash identifier path r tmp = climbTree (innerNode hash identifier) path r tmp := by
  induction path generalizing r tmp with
  | nil => rfl
  | cons sibling path ih =>
    rw [climb, climbTree, ih]
    congr 1
    split
    · rfl
    · rfl

/-- The nodes of the tree of a seed. -/
structure KeyTree (parameters : LmotsParameters) (height : Nat) (identifier seed : Bytes)
    (node : Nat → Bytes) : Prop where
  inner : HashTree (innerNode hash identifier) height node
  leaf : ∀ q < 2 ^ height, node (2 ^ height + q)
    = leafNode hash identifier (2 ^ height + q)
      (otsPublicKey hash parameters identifier (u32str q) seed)

theorem KeyTree.length_node {hash : Bytes → Block 32} {parameters : LmotsParameters} {height : Nat}
    {identifier seed : Bytes} {node : Nat → Bytes}
    (htree : KeyTree hash parameters height identifier seed node) {r : Nat} (hpos : 0 < r)
    (hr : r < 2 ^ (height + 1)) : (node r).length = 32 := by
  have hpow : 2 ^ (height + 1) = 2 * 2 ^ height := Nat.pow_succ'
  rcases Nat.lt_or_ge r (2 ^ height) with hlt | hge
  · rw [htree.inner r hpos hlt]
    exact Block.length_val _
  · have hleaf := htree.leaf (r - 2 ^ height) (by omega)
    rw [Nat.add_sub_cancel' hge] at hleaf
    rw [hleaf]
    exact Block.length_val _

/-- The siblings on the way from a leaf are nodes of the tree. -/
theorem KeyTree.length_siblings {hash : Bytes → Block 32} {parameters : LmotsParameters}
    {height : Nat} {identifier seed : Bytes} {node : Nat → Bytes}
    (htree : KeyTree hash parameters height identifier seed node) {q : Nat}
    (hq : q < 2 ^ height) :
    ∀ sibling ∈ siblings node height (2 ^ height + q), sibling.length = 32 := by
  intro sibling hmem
  obtain ⟨i, hi, rfl⟩ := List.mem_map.mp hmem
  have hi : i < height := List.mem_range.mp hi
  have hpos := Nat.two_pow_pos i
  have hpow : 2 ^ (height + 1) = 2 * 2 ^ height := Nat.pow_succ'
  have hsplit : 2 ^ height = 2 ^ i * 2 ^ (height - i) := by
    rw [← Nat.pow_add, Nat.add_sub_cancel' hi.le]
  have htwo : 2 ≤ 2 ^ (height - i) := by
    have hle : 2 ^ 1 ≤ 2 ^ (height - i) := Nat.pow_le_pow_right (by omega) (by omega)
    exact hle
  have hlow : 2 ≤ (2 ^ height + q) / 2 ^ i := by
    rw [Nat.le_div_iff_mul_le hpos]
    have hmul := Nat.mul_le_mul_left (2 ^ i) htwo
    omega
  have hhigh : (2 ^ height + q) / 2 ^ i ≤ 2 ^ height + q := Nat.div_le_self _ _
  have heven : 2 ^ (height + 1) % 2 = 0 := by omega
  rcases Nat.even_or_odd ((2 ^ height + q) / 2 ^ i) with h | h
  · rw [Nat.xor_one_of_even h]
    exact htree.length_node (by omega) (by have := Nat.even_iff.mp h; omega)
  · rw [Nat.xor_one_of_odd h]
    exact htree.length_node (by omega) (by omega)

/-! ## Signatures -/

/-- The string of a signature, from its parts. -/
def signatureString (otsType lmsType q : Nat) (randomizer : Bytes) (elements path : List Bytes) :
    Bytes :=
  u32str q ++ u32str otsType ++ randomizer ++ elements.flatten ++ u32str lmsType ++ path.flatten

def publicKeyString (otsType lmsType : Nat) (identifier root : Bytes) : Bytes :=
  u32str lmsType ++ u32str otsType ++ identifier ++ root

section

variable (otsType lmsType q : Nat) {randomizer : Bytes} {elements path : List Bytes}
  (hrandomizer : randomizer.length = 32) (helements : ∀ element ∈ elements, element.length = 32)
include hrandomizer helements

theorem length_signatureString (hpath : ∀ sibling ∈ path, sibling.length = 32) :
    (signatureString otsType lmsType q randomizer elements path).length
      = 12 + 32 * (elements.length + 1) + 32 * path.length := by
  simp only [signatureString, u32str, List.length_append, length_beBytes, hrandomizer,
    length_flatten helements, length_flatten hpath]
  ring

omit helements in
/-- The parts that stand before the elements. -/
theorem signatureString_head (path : List Bytes) :
    slice (signatureString otsType lmsType q randomizer elements path) 0 4 = u32str q
      ∧ slice (signatureString otsType lmsType q randomizer elements path) 4 4 = u32str otsType
      ∧ slice (signatureString otsType lmsType q randomizer elements path) 8 32 = randomizer := by
  have hq : (u32str q).length = 4 := length_beBytes 4 q
  have htype : (u32str otsType).length = 4 := length_beBytes 4 otsType
  simp only [signatureString, List.append_assoc]
  refine ⟨slice_self_append hq, ?_, ?_⟩
  · rw [slice_append_right (by omega), hq]
    exact slice_self_append htype
  · rw [slice_append_right (by omega), slice_append_right (by omega), hq, htype]
    exact slice_self_append hrandomizer

theorem signatureString_element {i : Nat} (hi : i < elements.length) :
    slice (signatureString otsType lmsType q randomizer elements path) (40 + 32 * i) 32
      = elements[i] := by
  have hhead : (u32str q ++ u32str otsType ++ randomizer).length = 40 := by
    simp [u32str, hrandomizer]
  simp only [signatureString]
  rw [List.append_assoc, List.append_assoc, slice_append_right (by omega), hhead,
    Nat.add_sub_cancel_left, slice_flatten helements _ hi]

theorem signatureString_type (path : List Bytes) :
    slice (signatureString otsType lmsType q randomizer elements path)
      (8 + 32 * (elements.length + 1)) 4 = u32str lmsType := by
  have hhead : (u32str q ++ u32str otsType ++ randomizer ++ elements.flatten).length
      = 8 + 32 * (elements.length + 1) := by
    simp only [u32str, List.length_append, length_beBytes, hrandomizer, length_flatten helements]
    ring
  exact slice_field hhead (length_beBytes 4 lmsType)

theorem signatureString_path (hpath : ∀ sibling ∈ path, sibling.length = 32) {i : Nat}
    (hi : i < path.length) :
    slice (signatureString otsType lmsType q randomizer elements path)
      (12 + 32 * (elements.length + 1) + 32 * i) 32 = path[i] := by
  have hhead : (u32str q ++ u32str otsType ++ randomizer ++ elements.flatten
      ++ u32str lmsType).length = 12 + 32 * (elements.length + 1) := by
    simp only [u32str, List.length_append, length_beBytes, hrandomizer, length_flatten helements]
    ring
  have hlast := slice_flatten hpath [] hi
  rw [List.append_nil] at hlast
  rw [signatureString, slice_append_right (by omega), hhead, Nat.add_sub_cancel_left, hlast]

end

theorem publicKeyString_parts (otsType lmsType : Nat) {identifier root : Bytes}
    (hidentifier : identifier.length = 16) (hroot : root.length = 32) :
    (publicKeyString otsType lmsType identifier root).length = 56
      ∧ slice (publicKeyString otsType lmsType identifier root) 0 4 = u32str lmsType
      ∧ slice (publicKeyString otsType lmsType identifier root) 4 4 = u32str otsType
      ∧ slice (publicKeyString otsType lmsType identifier root) 8 16 = identifier
      ∧ slice (publicKeyString otsType lmsType identifier root) 24 32 = root := by
  have hlms : (u32str lmsType).length = 4 := length_beBytes 4 lmsType
  have hots : (u32str otsType).length = 4 := length_beBytes 4 otsType
  refine ⟨?_, ?_, ?_, ?_, ?_⟩
  · simp only [publicKeyString, List.length_append, hlms, hots, hidentifier, hroot]
  · simp only [publicKeyString, List.append_assoc]
    exact slice_self_append hlms
  · simp only [publicKeyString, List.append_assoc]
    rw [slice_append_right (by omega), hlms]
    exact slice_self_append hots
  · rw [publicKeyString]
    exact slice_field (by rw [List.length_append, hlms, hots]) hidentifier
  · rw [publicKeyString]
    exact slice_last (by simp only [List.length_append, hlms, hots, hidentifier]) hroot

/-- The signature of a message from leaf `q`. -/
def lmsSignature (parameters : LmotsParameters) (height otsType lmsType : Nat)
    (identifier seed : Bytes) (node : Nat → Bytes) (q : Nat) (randomizer message : Bytes) : Bytes :=
  signatureString otsType lmsType q randomizer
    ((List.range parameters.p).map (otsElement hash parameters identifier (u32str q) seed
      (digits hash parameters identifier (u32str q) randomizer message)))
    (siblings node height (2 ^ height + q))

section

variable {parameters : LmotsParameters} {height q : Nat}
  {identifier seed randomizer : Bytes} {node : Nat → Bytes}
  (htree : KeyTree hash parameters height identifier seed node)
  (hidentifier : identifier.length = 16)
  (hheight : height < 32) (hq : q < 2 ^ height) (hrandomizer : randomizer.length = 32)
include htree hidentifier hheight hq hrandomizer

/-- Algorithm 6 accepts the signature of every leaf, with any randomizer. -/
theorem signature_valid (otsType lmsType : Nat) (message : Bytes) :
    Valid hash parameters height (publicKeyString otsType lmsType identifier (node 1)) message
      (lmsSignature hash parameters height otsType lmsType identifier seed node q randomizer
        message) := by
  have hq32 : q < 2 ^ 32 := lt_trans hq (Nat.pow_lt_pow_right (by omega) hheight)
  have hnumber : beNat (u32str q) = q := beNat_beBytes_of_lt hq32
  have hroot : (node 1).length = 32 := by
    refine htree.length_node (by omega) ?_
    exact Nat.one_lt_two_pow (by omega)
  generalize hdigits : digits hash parameters identifier (u32str q) randomizer message = d
  generalize helements : (List.range parameters.p).map
    (otsElement hash parameters identifier (u32str q) seed d) = elements
  generalize hpath : siblings node height (2 ^ height + q) = path
  have helementsLength : ∀ element ∈ elements, element.length = 32 := by
    intro element hmem
    rw [← helements] at hmem
    obtain ⟨i, _, rfl⟩ := List.mem_map.mp hmem
    exact length_otsElement hash parameters identifier (u32str q) seed d i
  have helementsCount : elements.length = parameters.p := by simp [← helements]
  have hpathLength : ∀ sibling ∈ path, sibling.length = 32 := by
    rw [← hpath]
    exact htree.length_siblings hq
  have hpathCount : path.length = height := by simp [← hpath, siblings]
  have hsignature : lmsSignature hash parameters height otsType lmsType identifier seed node q
      randomizer message = signatureString otsType lmsType q randomizer elements path := by
    rw [lmsSignature, hdigits, helements, hpath]
  obtain ⟨hkeyLength, hkeyLms, hkeyOts, hkeyIdentifier, hkeyRoot⟩ :=
    publicKeyString_parts otsType lmsType hidentifier hroot
  have hlength := length_signatureString otsType lmsType q hrandomizer helementsLength hpathLength
  obtain ⟨hleaf, hots, hsigRandomizer⟩ :=
    signatureString_head otsType lmsType q hrandomizer path
  have htype := signatureString_type otsType lmsType q hrandomizer helementsLength path
  rw [helementsCount, hpathCount] at hlength
  rw [helementsCount] at htype
  rw [hsignature]
  refine ⟨hkeyLength, hots.trans hkeyOts.symm, htype.trans hkeyLms.symm, ?_, hlength, ?_⟩
  · rw [hleaf, hnumber]
    exact hq
  · have hkey : otsCandidate hash parameters identifier (u32str q) message randomizer
        (fun i => slice (signatureString otsType lmsType q randomizer elements path)
          (40 + 32 * i) 32) = otsPublicKey hash parameters identifier (u32str q) seed := by
      refine otsCandidate_signed hash parameters identifier (u32str q) seed message randomizer
        fun i hi => ?_
      rw [signatureString_element otsType lmsType q hrandomizer helementsLength
        (by rw [helementsCount]; exact hi), hdigits]
      simp only [← helements, List.getElem_map, List.getElem_range]
    have hsiblings : (List.range height).map (fun i =>
        slice (signatureString otsType lmsType q randomizer elements path)
          (12 + 32 * (parameters.p + 1) + 32 * i) 32) = path := by
      refine List.ext_getElem (by simp [hpathCount]) fun i hi _ => ?_
      have hi : i < path.length := by
        rw [hpathCount]
        simpa using hi
      have hpart := signatureString_path otsType lmsType q hrandomizer helementsLength hpathLength
        hi
      rw [helementsCount] at hpart
      rw [List.getElem_map, List.getElem_range, hpart]
    have hclimb := climbTree_siblings htree.inner (show 2 ^ height ≤ 2 ^ height + q by omega)
      (show 2 ^ height + q < 2 ^ (height + 1) by rw [Nat.pow_succ]; omega)
    have hone : (2 ^ height + q) / 2 ^ height = 1 := by
      rw [Nat.add_div_left q (Nat.two_pow_pos height), Nat.div_eq_of_lt hq]
    rw [hkeyIdentifier, hkeyRoot, rootCandidate]
    simp only [hleaf, hsigRandomizer, hkey, hsiblings, hnumber]
    rw [climb_eq, ← hpath, ← hone, ← hclimb, htree.leaf q hq]
    rfl

end

end Rfc8554
