import Mathlib.Data.List.Nodup
import C0PQLink.Core.Sha256
import C0PQLink.Core.Sha256Stream
import C0PQLink.Rfc5869.Hkdf

/-!
# The streaming HMAC and HKDF

The contexts of `core/sha256.c` from `c0_hmac_sha256_init` on, over the streaming SHA-256.
The rest of the development uses the same functions over an arbitrary hash function.

* `hmacFinal_pieces`: the HMAC of a message that arrives in any pieces.
* `expandLoop_eq`: the loop of `c0_hkdf_sha256_expand`, with the values of its counter.
* `streamingHashes`: SHA-256, HMAC and HKDF are those of their standards.
-/

namespace C0PQLink

open Foundation

/-! ## Contexts -/

structure HmacSha256Ctx where
  inner : Sha256Ctx
  outerPad : Bytes
  deriving DecidableEq

def hmacSha256Init (key : Bytes) : HmacSha256Ctx :=
  let keyBlock := List.replicate 64 0
  let keyBlock :=
    if key.length > 64 then writeAt keyBlock 0 (c0Sha256 key).val
    else if key.length ≠ 0 then writeAt keyBlock 0 key
    else keyBlock
  { inner := sha256Update sha256Init (keyBlock.map (· ^^^ 0x36))
    outerPad := keyBlock.map (· ^^^ 0x5c) }

def hmacSha256Update (ctx : HmacSha256Ctx) (input : Bytes) : HmacSha256Ctx :=
  { ctx with inner := sha256Update ctx.inner input }

def hmacSha256Final (ctx : HmacSha256Ctx) : Block 32 :=
  let innerDigest := sha256Final ctx.inner
  let outer := sha256Update sha256Init ctx.outerPad
  sha256Final (sha256Update outer innerDigest.val)

def c0HmacSha256 (key input : Bytes) : Block 32 :=
  hmacSha256Final (hmacSha256Update (hmacSha256Init key) input)

/-- A salt that is `NULL` or empty is replaced by the empty one. -/
def c0HkdfSha256Extract (salt : Option Bytes) (inputKeyMaterial : Bytes) : Block 32 :=
  match salt with
  | none => c0HmacSha256 [] inputKeyMaterial
  | some salt =>
    if salt.length = 0 then c0HmacSha256 [] inputKeyMaterial
    else c0HmacSha256 salt inputKeyMaterial

/-- The loop of `c0_hkdf_sha256_expand`: what it writes, and the value of the counter in each
turn. -/
def expandLoop (prk : Block 32) (info : Bytes) (outputLength produced : Nat) (previous : Bytes)
    (counter : UInt8) : Bytes × List UInt8 :=
  if produced < outputLength then
    let take := if outputLength - produced < 32 then outputLength - produced else 32
    let hmac := hmacSha256Init prk.val
    let hmac := hmacSha256Update hmac previous
    let hmac := hmacSha256Update hmac info
    let hmac := hmacSha256Update hmac [counter]
    let previous := (hmacSha256Final hmac).val
    let rest := expandLoop prk info outputLength (produced + take) previous (counter + 1)
    (previous.take take ++ rest.1, counter :: rest.2)
  else ([], [])
termination_by outputLength - produced
decreasing_by split <;> omega

def c0HkdfSha256Expand (outputLength : Nat) (prk : Block 32) (info : Bytes) :
    Except Status Bytes :=
  if outputLength > 255 * 32 then .error .errCapacity
  else .ok (expandLoop prk info outputLength 0 [] 1).1

/-- The counter octets that a call feeds to HMAC. -/
def expandCounters (outputLength : Nat) (prk : Block 32) (info : Bytes) : List UInt8 :=
  (expandLoop prk info outputLength 0 [] 1).2

/-! ## HMAC -/

theorem writeAt_zeros (data : Bytes) :
    writeAt (List.replicate 64 0) 0 data = data ++ List.replicate (64 - data.length) 0 := by
  rw [writeAt, List.take_zero, List.nil_append, List.drop_replicate, Nat.zero_add]

/-- The pad constants, bytewise and as strings. -/
theorem map_xor_eq {block : Bytes} (h : block.length = 64) (x : UInt8) :
    block.map (· ^^^ x) = xorBytes block (List.replicate 64 x) := by
  refine List.ext_getElem (by simp [h]) fun i _ _ => ?_
  simp only [xorBytes, List.getElem_map, List.getElem_zipWith, List.getElem_replicate]

theorem length_paddedKey (hash : Bytes → Block 32) (key : Bytes) :
    (Rfc5869.paddedKey hash key).length = 64 := by
  rw [Rfc5869.paddedKey, List.length_append, List.length_replicate]
  split
  · simp
  · omega

theorem hmacKeyBlock_eq (hash : Bytes → Block 32) (key : Bytes) :
    hmacKeyBlock hash key = Rfc5869.paddedKey hash key := by
  simp only [hmacKeyBlock, Rfc5869.paddedKey]
  split
  · rw [Block.length_val]
  · rfl

/-- The HMAC that the rest of the development uses is the one of RFC 2104. -/
theorem hmacSha256_eq (hash : Bytes → Block 32) (key input : Bytes) :
    hmacSha256 hash key input = Rfc5869.hmac hash key input := by
  have hlength := length_paddedKey hash key
  simp only [hmacSha256, Rfc5869.hmac, hmacKeyBlock_eq, map_xor_eq hlength]
  rfl

theorem hmacSha256Init_eq (key : Bytes) :
    hmacSha256Init key
      = { inner := sha256Update sha256Init
            ((hmacKeyBlock Fips180.sha256 key).map (· ^^^ 0x36))
          outerPad := (hmacKeyBlock Fips180.sha256 key).map (· ^^^ 0x5c) } := by
  have hblock : (if key.length > 64 then writeAt (List.replicate 64 0) 0 (c0Sha256 key).val
      else if key.length ≠ 0 then writeAt (List.replicate 64 0) 0 key
      else List.replicate 64 0) = hmacKeyBlock Fips180.sha256 key := by
    rw [hmacKeyBlock, c0Sha256_eq]
    split
    · rw [writeAt_zeros, Block.length_val]
    · split
      · rw [writeAt_zeros]
      · rename_i hzero
        rw [List.eq_nil_of_length_eq_zero (not_not.mp hzero)]
        rfl
  simp only [hmacSha256Init, hblock]

/-- The HMAC of a message that arrives in any pieces. -/
theorem hmacFinal_pieces (key : Bytes) (pieces : List Bytes) :
    hmacSha256Final (pieces.foldl hmacSha256Update (hmacSha256Init key))
      = hmacSha256 Fips180.sha256 key pieces.flatten := by
  have hfold (ctx : HmacSha256Ctx) : pieces.foldl hmacSha256Update ctx
      = { ctx with inner := pieces.foldl sha256Update ctx.inner } := by
    induction pieces generalizing ctx with
    | nil => rfl
    | cons piece pieces ih => exact ih _
  rw [hfold, hmacSha256Init_eq, hmacSha256Final]
  simp only
  generalize hinner : (hmacKeyBlock Fips180.sha256 key).map (· ^^^ 0x36) = ipad
  generalize houter : (hmacKeyBlock Fips180.sha256 key).map (· ^^^ 0x5c) = opad
  have hinnerDigest := sha256Final_pieces (ipad :: pieces)
  rw [List.foldl_cons, List.flatten_cons] at hinnerDigest
  rw [hinnerDigest]
  have houterDigest := sha256Final_pieces [opad, (Fips180.sha256 (ipad ++ pieces.flatten)).val]
  simp only [List.foldl_cons, List.foldl_nil, List.flatten_cons, List.flatten_nil,
    List.append_nil] at houterDigest
  rw [houterDigest, hmacSha256, ← hinner, ← houter]

theorem c0HmacSha256_eq (key input : Bytes) :
    c0HmacSha256 key input = hmacSha256 Fips180.sha256 key input := by
  have hpieces := hmacFinal_pieces key [input]
  rwa [List.flatten_singleton] at hpieces

/-! ## HKDF -/

theorem c0HkdfSha256Extract_eq (salt : Option Bytes) (inputKeyMaterial : Bytes) :
    c0HkdfSha256Extract salt inputKeyMaterial
      = Rfc5869.extract Fips180.sha256 salt inputKeyMaterial := by
  have hempty : c0HmacSha256 [] inputKeyMaterial
      = Rfc5869.hmac Fips180.sha256 (List.replicate 32 0) inputKeyMaterial := by
    rw [c0HmacSha256_eq, hmacSha256_zero_key, hmacSha256_eq]
  rw [Rfc5869.extract]
  cases salt with
  | none => exact hempty
  | some salt =>
    simp only [c0HkdfSha256Extract, Option.getD_some, c0HmacSha256_eq, hmacSha256_eq]
    split
    · rename_i hzero
      rw [List.eq_nil_of_length_eq_zero hzero]
    · rfl

/-- An empty salt stands for 32 zero bytes, as an absent one does. -/
theorem extract_empty (hash : Bytes → Block 32) (inputKeyMaterial : Bytes) :
    Rfc5869.extract hash (some []) inputKeyMaterial
      = Rfc5869.extract hash none inputKeyMaterial := by
  rw [Rfc5869.extract, Rfc5869.extract, Option.getD_some, Option.getD_none, ← hmacSha256_eq,
    ← hmacSha256_eq, hmacSha256_zero_key]

/-- The strings `T(i + 1)` of `count` turns from `first` on. -/
def expansion (prk info : Bytes) (first count : Nat) : Bytes :=
  (List.range' first count).flatMap fun i => Rfc5869.t Fips180.sha256 prk info (i + 1)

theorem length_t (prk info : Bytes) (i : Nat) :
    (Rfc5869.t Fips180.sha256 prk info (i + 1)).length = 32 := by
  rw [Rfc5869.t, Block.length_val]

/-- The loop from turn `first` on, with `count` turns to go. -/
theorem expandLoop_eq (prk : Block 32) (info : Bytes) {outputLength first count : Nat}
    (hcount : count = (outputLength - 32 * first + 31) / 32) :
    expandLoop prk info outputLength (32 * first) (Rfc5869.t Fips180.sha256 prk.val info first)
        (UInt8.ofNat (first + 1))
      = ((expansion prk.val info first count).take (outputLength - 32 * first),
        (List.range' first count).map fun i => UInt8.ofNat (i + 1)) := by
  induction count generalizing first with
  | zero =>
    have hdone : ¬ 32 * first < outputLength := by omega
    rw [expandLoop, if_neg hdone, expansion, List.range'_zero]
    simp
  | succ count ih =>
    have hmore : 32 * first < outputLength := by omega
    have hblock : (hmacSha256Final (hmacSha256Update (hmacSha256Update (hmacSha256Update
        (hmacSha256Init prk.val) (Rfc5869.t Fips180.sha256 prk.val info first)) info)
        [UInt8.ofNat (first + 1)])).val
        = Rfc5869.t Fips180.sha256 prk.val info (first + 1) := by
      have hpieces := hmacFinal_pieces prk.val
        [Rfc5869.t Fips180.sha256 prk.val info first, info, [UInt8.ofNat (first + 1)]]
      simp only [List.foldl_cons, List.foldl_nil, List.flatten_cons, List.flatten_nil,
        List.append_nil, ← List.append_assoc] at hpieces
      rw [hpieces, hmacSha256_eq, Rfc5869.t]
    have hlength := length_t prk.val info first
    have hcounter : UInt8.ofNat (first + 1) + 1 = UInt8.ofNat (first + 1 + 1) :=
      (UInt8.ofNat_add (first + 1) 1).symm
    rw [expandLoop, if_pos hmore]
    simp only [hblock, hcounter, expansion, List.range'_succ, List.flatMap_cons, List.map_cons]
    split
    · rename_i hlast
      have hzero : count = 0 := by omega
      have hdone : ¬ 32 * first + (outputLength - 32 * first) < outputLength := by omega
      rw [expandLoop, if_neg hdone, hzero]
      simp
    · rename_i hfull
      have hnext := ih (show count = (outputLength - 32 * (first + 1) + 31) / 32 by omega)
      have hleft : outputLength - 32 * first - 32 = outputLength - 32 * (first + 1) := by omega
      rw [show 32 * first + 32 = 32 * (first + 1) by omega, hnext, List.take_append, hlength,
        hleft, List.take_of_length_le hlength.le,
        List.take_of_length_le (show _ ≤ outputLength - 32 * first by omega), expansion]

theorem expand_eq (outputLength : Nat) (prk : Block 32) (info : Bytes) :
    expandLoop prk info outputLength 0 [] 1
      = (Rfc5869.expand Fips180.sha256 prk.val info outputLength,
        (List.range ((outputLength + 31) / 32)).map fun i => UInt8.ofNat (i + 1)) := by
  have hcount : (outputLength + 31) / 32 = (outputLength - 32 * 0 + 31) / 32 := by
    rw [Nat.mul_zero, Nat.sub_zero]
  have hloop := expandLoop_eq prk info hcount
  rw [Rfc5869.expand, List.range_eq_range']
  exact hloop

theorem hkdfBlocks_eq (prk info : Bytes) (first count : Nat) :
    hkdfBlocks Fips180.sha256 prk info count (Rfc5869.t Fips180.sha256 prk info first)
        (UInt8.ofNat (first + 1)) = expansion prk info first count := by
  induction count generalizing first with
  | zero => rfl
  | succ count ih =>
    have hnext := ih (first + 1)
    have hcounter : UInt8.ofNat (first + 1) + 1 = UInt8.ofNat (first + 1 + 1) :=
      (UInt8.ofNat_add (first + 1) 1).symm
    rw [expansion, List.range'_succ, List.flatMap_cons, ← expansion, ← hnext, hkdfBlocks]
    simp only [hmacSha256_eq, Rfc5869.t, hcounter]

/-- The HKDF that the rest of the development uses, with the hash function of the standard. -/
theorem hkdfSha256Expand_fips (outputLength : Nat) (prk : Block 32) (info : Bytes) :
    (hkdfSha256Expand Fips180.sha256 outputLength prk.val info).map Subtype.val
      = c0HkdfSha256Expand outputLength prk info := by
  have hblocks := hkdfBlocks_eq prk.val info 0 ((outputLength + 31) / 32)
  rw [c0HkdfSha256Expand, hkdfSha256Expand, expand_eq, Rfc5869.expand, List.range_eq_range']
  split
  · rfl
  · exact congrArg Except.ok (congrArg (List.take outputLength) hblocks)

/-- The counter goes from 1 up, by at most 255. -/
theorem expandCounters_nodup {outputLength : Nat} (h : outputLength ≤ 255 * 32) (prk : Block 32)
    (info : Bytes) : (expandCounters outputLength prk info).Nodup := by
  rw [expandCounters, expand_eq]
  refine List.Nodup.map_on ?_ List.nodup_range
  intro i hi j hj heq
  have hi : i < (outputLength + 31) / 32 := List.mem_range.mp hi
  have hj : j < (outputLength + 31) / 32 := List.mem_range.mp hj
  have hnat := congrArg UInt8.toNat heq
  rw [UInt8.toNat_ofNat', UInt8.toNat_ofNat'] at hnat
  omega

/-- SHA-256, HMAC and HKDF over streams are those of their standards, for messages of any
length in any pieces. -/
theorem streamingHashes :
    (∀ pieces : List Bytes, sha256Final (pieces.foldl sha256Update sha256Init)
        = Fips180.sha256 pieces.flatten)
      ∧ (∀ (key : Bytes) (pieces : List Bytes),
        hmacSha256Final (pieces.foldl hmacSha256Update (hmacSha256Init key))
          = Rfc5869.hmac Fips180.sha256 key pieces.flatten)
      ∧ (∀ (salt : Option Bytes) (inputKeyMaterial : Bytes),
        c0HkdfSha256Extract salt inputKeyMaterial
          = Rfc5869.extract Fips180.sha256 (salt.filter (· ≠ [])) inputKeyMaterial)
      ∧ ∀ (outputLength : Nat) (prk : Block 32) (info : Bytes),
        c0HkdfSha256Expand outputLength prk info
            = (if outputLength > 8160 then .error .errCapacity
              else .ok (Rfc5869.expand Fips180.sha256 prk.val info outputLength))
          ∧ (outputLength ≤ 8160 → (expandCounters outputLength prk info).Nodup) := by
  refine ⟨sha256Final_pieces, fun key pieces => ?_, fun salt inputKeyMaterial => ?_,
    fun outputLength prk info => ⟨?_, fun h => expandCounters_nodup h prk info⟩⟩
  · rw [hmacFinal_pieces, hmacSha256_eq]
  · rw [c0HkdfSha256Extract_eq]
    rcases salt with _ | _ | ⟨byte, rest⟩
    · rfl
    · exact extract_empty Fips180.sha256 inputKeyMaterial
    · rfl
  · rw [c0HkdfSha256Expand, expand_eq]

end C0PQLink
