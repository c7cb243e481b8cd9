import Mathlib.Algebra.BigOperators.Group.Finset.Basic
import Mathlib.Algebra.Order.BigOperators.Group.Finset
import C0PQLink.Foundation.Bytes

/-!
# Hash-based signatures of RFC 8554

The verification algorithms of the standard for the parameter sets with 32-byte hashes, on
byte strings and natural numbers. The hash function is a parameter.

* `coef_append_left`, `coef_append_right`: the digits of a concatenation.
* `accepts`: Algorithm 6.
-/

namespace Rfc8554

open Foundation

variable (hash : Bytes → Block 32)

def u8str (n : Nat) : Bytes := beBytes 1 n
def u16str (n : Nat) : Bytes := beBytes 2 n
def u32str (n : Nat) : Bytes := beBytes 4 n

def dPblc : Nat := 0x8080
def dMesg : Nat := 0x8181
def dLeaf : Nat := 0x8282
def dIntr : Nat := 0x8383

/-! ## Parameter sets -/

/-- The digit width, the number of chains and the left shift of the checksum. -/
structure LmotsParameters where
  w : Nat
  p : Nat
  ls : Nat

/-- Table 1, by typecode. -/
def lmotsParameters : Nat → Option LmotsParameters
  | 1 => some ⟨1, 265, 7⟩
  | 2 => some ⟨2, 133, 6⟩
  | 3 => some ⟨4, 67, 4⟩
  | 4 => some ⟨8, 34, 0⟩
  | _ => none

/-- The heights of Table 2, by typecode. -/
def lmsHeight : Nat → Option Nat
  | 5 => some 5
  | 6 => some 10
  | 7 => some 15
  | 8 => some 20
  | 9 => some 25
  | _ => none

/-! ## Digits and chains -/

/-- The digit `i` of a byte string, `w` bits wide. -/
def coef (s : Bytes) (i w : Nat) : Nat :=
  (byteAt s (i * w / 8)).toNat / 2 ^ (8 - (w * (i % (8 / w)) + w)) % 2 ^ w

/-- Algorithm 2. -/
def cksm (parameters : LmotsParameters) (s : Bytes) : Nat :=
  (∑ i ∈ Finset.range (256 / parameters.w), (2 ^ parameters.w - 1 - coef s i parameters.w))
    * 2 ^ parameters.ls

/-- The chain `i`, continued from its position `a` to its end. -/
def chainEnd (identifier q : Bytes) (w i a : Nat) (y : Bytes) : Bytes :=
  (List.range' a (2 ^ w - 1 - a)).foldl
    (fun tmp j => (hash (identifier ++ q ++ u16str i ++ u8str j ++ tmp)).val) y

/-- Algorithm 4b: the candidate for the one-time public key. -/
def otsCandidate (parameters : LmotsParameters) (identifier q message : Bytes)
    (randomizer : Bytes) (y : Nat → Bytes) : Block 32 :=
  let digest := hash (identifier ++ q ++ u16str dMesg ++ randomizer ++ message)
  let digits := digest.val ++ u16str (cksm parameters digest.val)
  let z := fun i => chainEnd hash identifier q parameters.w i (coef digits i parameters.w) (y i)
  hash (identifier ++ q ++ u16str dPblc ++ (List.range parameters.p).flatMap z)

/-! ## The tree -/

/-- The loop of Algorithm 6a from a node to the root, with one sibling a level. -/
def climb (identifier : Bytes) : List Bytes → Nat → Bytes → Bytes
  | [], _, tmp => tmp
  | sibling :: path, node, tmp =>
    let domain := identifier ++ u32str (node / 2) ++ u16str dIntr
    climb identifier path (node / 2)
      (hash (if node % 2 = 1 then domain ++ sibling ++ tmp else domain ++ tmp ++ sibling)).val

/-- Algorithm 6a: the candidate for the root. -/
def rootCandidate (parameters : LmotsParameters) (height : Nat) (identifier message signature :
    Bytes) : Bytes :=
  let q := slice signature 0 4
  let node := 2 ^ height + beNat q
  let ots := otsCandidate hash parameters identifier q message (slice signature 8 32)
    fun i => slice signature (40 + 32 * i) 32
  let leaf := hash (identifier ++ u32str node ++ u16str dLeaf ++ ots.val)
  climb hash identifier
    ((List.range height).map fun i => slice signature (12 + 32 * (parameters.p + 1) + 32 * i) 32)
    node leaf.val

/-- The conditions under which Algorithm 6 does not return INVALID, for a public key and a
signature of the parameter sets that its typecodes name. -/
structure Valid (parameters : LmotsParameters) (height : Nat) (publicKey message signature : Bytes) :
    Prop where
  key_length : publicKey.length = 56
  otsType : slice signature 4 4 = slice publicKey 4 4
  lmsType : slice signature (8 + 32 * (parameters.p + 1)) 4 = slice publicKey 0 4
  leaf : beNat (slice signature 0 4) < 2 ^ height
  signature_length : signature.length = 12 + 32 * (parameters.p + 1) + 32 * height
  root : rootCandidate hash parameters height (slice publicKey 8 16) message signature
    = slice publicKey 24 32

/-- Algorithm 6. -/
def accepts (publicKey message signature : Bytes) : Prop :=
  match lmsHeight (beNat (slice publicKey 0 4)), lmotsParameters (beNat (slice publicKey 4 4)) with
  | some height, some parameters => Valid hash parameters height publicKey message signature
  | _, _ => False

/-! ## Digits of a concatenation -/

theorem coef_append_left {a b : Bytes} {i w : Nat} (h : i * w / 8 < a.length) :
    coef (a ++ b) i w = coef a i w := by
  rw [coef, byteAt_append_left h, coef]

/-- The digits of `b` follow those of `a`, for the widths of the standard. -/
theorem coef_append_right {a b : Bytes} {i w : Nat} (hw : w ∈ [1, 2, 4, 8])
    (h : 8 / w * a.length ≤ i) :
    coef (a ++ b) i w = coef b (i - 8 / w * a.length) w := by
  simp only [List.mem_cons, List.not_mem_nil, or_false] at hw
  have hbyte : i * w / 8 = a.length + (i - 8 / w * a.length) * w / 8 := by
    rcases hw with rfl | rfl | rfl | rfl <;> omega
  have hplace : i % (8 / w) = (i - 8 / w * a.length) % (8 / w) := by
    rcases hw with rfl | rfl | rfl | rfl <;> omega
  rw [coef, byteAt_append_right (by omega), hbyte, Nat.add_sub_cancel_left, hplace, coef]

theorem coef_lt (s : Bytes) (i w : Nat) : coef s i w < 2 ^ w := Nat.mod_lt _ (Nat.two_pow_pos w)

end Rfc8554
