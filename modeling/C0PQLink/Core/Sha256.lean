import C0PQLink.Core.Common

/-!
# HMAC and HKDF over SHA-256

`core/sha256.c` from `c0_hmac_sha256_init` on, over an arbitrary digest function
`sha256`. The streaming contexts are the message fed to them so far, so that `init`,
`update` and `final` become one application to the concatenation.

* `hmacSha256_zero_key`: an absent salt and 32 zero bytes give the same key, as the
  comment in `c0_hkdf_sha256_extract` states.
* `hkdfSha256Expand_one_block`: an output of at most 32 bytes is one HMAC.
-/

namespace C0PQLink

open Foundation

variable (sha256 : Bytes → Block 32)

/-- The 64-byte key block of `c0_hmac_sha256_init`. -/
def hmacKeyBlock (key : Bytes) : Bytes :=
  if key.length > 64 then (sha256 key).val ++ List.replicate 32 0
  else key ++ List.replicate (64 - key.length) 0

def hmacSha256 (key input : Bytes) : Block 32 :=
  let keyBlock := hmacKeyBlock sha256 key
  let outerPad := keyBlock.map (· ^^^ 0x5c)
  let innerDigest := sha256 (keyBlock.map (· ^^^ 0x36) ++ input)
  sha256 (outerPad ++ innerDigest.val)

theorem hmacSha256_zero_key (input : Bytes) :
    hmacSha256 sha256 [] input = hmacSha256 sha256 (List.replicate 32 0) input := by
  have h : hmacKeyBlock sha256 [] = hmacKeyBlock sha256 (List.replicate 32 0) := rfl
  simp only [hmacSha256, h]

/-- `c0_hkdf_sha256_extract`; the absent salt (`NULL`) is the empty one. -/
def hkdfSha256Extract (salt inputKeyMaterial : Bytes) : Block 32 :=
  hmacSha256 sha256 salt inputKeyMaterial

/-- The blocks `T(i)`, one for each turn of the loop of `c0_hkdf_sha256_expand`. -/
def hkdfBlocks (prk info : Bytes) : Nat → Bytes → UInt8 → Bytes
  | 0, _, _ => []
  | blocks + 1, previous, counter =>
    let block := hmacSha256 sha256 prk (previous ++ info ++ [counter])
    block.val ++ hkdfBlocks prk info blocks block.val (counter + 1)

theorem length_hkdfBlocks (prk info : Bytes) (blocks : Nat) (previous : Bytes) (counter : UInt8) :
    (hkdfBlocks sha256 prk info blocks previous counter).length = 32 * blocks := by
  induction blocks generalizing previous counter with
  | zero => rfl
  | succ blocks ih => simp [hkdfBlocks, ih]; ring

def hkdfSha256Expand (outputLength : Nat) (prk info : Bytes) :
    Except Status (Block outputLength) :=
  if outputLength > 255 * 32 then .error .errCapacity
  else .ok ⟨(hkdfBlocks sha256 prk info ((outputLength + 31) / 32) [] 1).take outputLength, by
    rw [List.length_take, length_hkdfBlocks]
    omega⟩

/-- The tags and the record keys are 16 bytes of a digest. -/
theorem tag_le_digest : 16 ≤ 32 := by decide

/-- The first `n` bytes of an HMAC, for `n` at most 32. -/
def hmacPrefix (n : Nat) (h : n ≤ 32) (key input : Bytes) : Block n :=
  ⟨(hmacSha256 sha256 key input).val.take n, by simp [h]⟩

theorem hkdfSha256Expand_one_block {n : Nat} (hpos : 0 < n) (hle : n ≤ 32) (prk info : Bytes) :
    hkdfSha256Expand sha256 n prk info = .ok (hmacPrefix sha256 n hle prk (info ++ [1])) := by
  have hblocks : (n + 31) / 32 = 1 := by omega
  have hcap : ¬ n > 255 * 32 := by omega
  simp only [hkdfSha256Expand, hcap, if_false]
  congr 1
  apply Block.ext
  simp [hblocks, hkdfBlocks, hmacPrefix]

/-- The constant digest, for examples with fixed inputs. -/
def zeroDigest (_ : Bytes) : Block 32 := Block.zero 32

end C0PQLink
