import Mathlib.Algebra.Group.Action.Defs
import C0PQLink.Core.Integers
import C0PQLink.Rfc8554.Lms

/-!
# The streaming LMS verifier

`nanopq_secure_link/lms.c`, over an arbitrary digest function. The signature comes from a
reader callback with a state of its own.

* `coefficientAt_toNat`, `lmsChecksum_toNat`, `runChain_eq`: its digits, its checksum and
  its chains are those of the standard.
-/

namespace C0PQLink.NanoPQ

open Foundation Rfc8554

variable (sha256 : Bytes → Block 32)

inductive LmsResult where
  | ok
  | badSignature
  | badLength
  | badParameter
  | ioError
  deriving DecidableEq

/-! ## Digits, chains and nodes -/

/-- `block` of `hash_chain_step`, hashed. -/
def hashChainStep (identifier encodedQ : Bytes) (chainIndex : UInt16) (iteration : UInt8)
    (input : Block 32) : Block 32 :=
  sha256 (identifier ++ encodedQ ++ store16BE chainIndex ++ [iteration] ++ input.val)

/-- `block` of `hash_lms_node`, hashed; the node of a leaf has no right part. -/
def hashLmsNode (identifier : Bytes) (nodeNumber : UInt32) (domain : UInt16) (left : Block 32)
    (right : Option (Block 32)) : Block 32 :=
  sha256 (identifier ++ store32BE nodeNumber ++ store16BE domain ++ left.val
    ++ (right.map Subtype.val).getD [])

def coefficientAt (messageHash checksum : Bytes) (index : UInt16) (width : UInt8) : UInt8 :=
  let messageCoefficients : UInt16 := 256 / width.toUInt16
  let localIndex := if index < messageCoefficients then index else index - messageCoefficients
  let bytes := if index < messageCoefficients then messageHash else checksum
  let coefficientsPerByte : UInt8 := 8 / width
  let place := (localIndex % coefficientsPerByte.toUInt16).toUInt8
  let shift : UInt8 := 8 - width - width * place
  let byte := byteAt bytes (localIndex / coefficientsPerByte.toUInt16).toNat
  let mask : UInt16 := (1 <<< width.toUInt16) - 1
  ((byte.toUInt16 >>> shift.toUInt16) &&& mask).toUInt8

/-- The loop over `iteration` for one chain. -/
def runChain (identifier encodedQ : Bytes) (chainIndex : UInt16) (chainLimit iteration : UInt8)
    (chainValue : Block 32) : Block 32 :=
  if _h : iteration < chainLimit then
    runChain identifier encodedQ chainIndex chainLimit (iteration + 1)
      (hashChainStep sha256 identifier encodedQ chainIndex iteration chainValue)
  else chainValue
termination_by chainLimit.toNat - iteration.toNat
decreasing_by
  have hlt := UInt8.lt_iff_toNat_lt.mp _h
  have hlimit := chainLimit.toNat_lt
  have hnext : (iteration + 1).toNat = iteration.toNat + 1 := by
    rw [UInt8.toNat_add]
    exact Nat.mod_eq_of_lt (by simp; omega)
  omega

/-- The values that depend on the one-time signature type. -/
structure LmsProfile where
  width : UInt8
  p : Nat
  checksumShift : UInt16
  signatureLength : Nat

def lmsProfile (otsType : UInt32) : Option LmsProfile :=
  if otsType = 3 then some ⟨4, 67, 4, 2348⟩
  else if otsType = 4 then some ⟨8, 34, 0, 1292⟩
  else none

def LmsProfile.chainLimit (profile : LmsProfile) : UInt8 :=
  (((1 : UInt16) <<< profile.width.toUInt16) - 1).toUInt8

/-- The checksum that is stored after the message hash. -/
def lmsChecksum (profile : LmsProfile) (messageHash : Bytes) : UInt16 :=
  let checksum := (List.range (256 / profile.width.toNat)).foldl (fun checksum chainIndex =>
    checksum + profile.chainLimit.toUInt16
      - (coefficientAt messageHash [] (UInt16.ofNat chainIndex) profile.width).toUInt16) 0
  checksum <<< profile.checksumShift

/-! ## Reading the signature -/

section

variable {σ : Type} (reader : (length : Nat) → σ → Option (Block length) × σ)

/-- A part of the verifier: it reads from the state of the reader, counts what it read, and
returns a value or a result. -/
abbrev LmsReading (σ α : Type) : Type := ExceptT LmsResult (StateM (σ × Nat)) α

/-- `read_part`, with the result that the caller returns when it fails. -/
def readPart (failure : LmsResult) (length : Nat) : LmsReading σ (Block length) := fun state =>
  match reader length state.1 with
  | (some output, rest) => (.ok output, (rest, state.2 + length))
  | (none, rest) => (.error failure, (rest, state.2))

/-- The loop over the chains that are left, with what was fed to the hash so far. -/
def readChains (profile : LmsProfile) (identifier encodedQ messageHash checksumBytes : Bytes) :
    Nat → Nat → Bytes → LmsReading σ Bytes
  | 0, _, hashed => return hashed
  | count + 1, chainIndex, hashed => do
    let chainValue ← readPart reader .ioError 32
    let coefficient :=
      coefficientAt messageHash checksumBytes (UInt16.ofNat chainIndex) profile.width
    let chainValue := runChain sha256 identifier encodedQ (UInt16.ofNat chainIndex)
      profile.chainLimit coefficient chainValue
    readChains profile identifier encodedQ messageHash checksumBytes count (chainIndex + 1)
      (hashed ++ chainValue.val)

/-- The loop over the levels that are left. -/
def readPath (identifier : Bytes) : Nat → UInt32 → Block 32 → LmsReading σ (Block 32)
  | 0, _, chainValue => return chainValue
  | levels + 1, nodeNumber, chainValue => do
    let sibling ← readPart reader .ioError 32
    let nodeOutput :=
      if nodeNumber &&& 1 ≠ 0 then
        hashLmsNode sha256 identifier (nodeNumber / 2) 0x8383 sibling (some chainValue)
      else hashLmsNode sha256 identifier (nodeNumber / 2) 0x8383 chainValue (some sibling)
    readPath identifier levels (nodeNumber / 2) nodeOutput

/-- The candidate for the one-time public key. -/
def readOtsKey (profile : LmsProfile) (identifier encodedQ message randomizer : Bytes) :
    LmsReading σ (Block 32) := do
  let messageHash := sha256 (identifier ++ encodedQ ++ [0x81, 0x81] ++ randomizer ++ message)
  let checksumBytes := store16BE (lmsChecksum profile messageHash.val)
  let hashed ← readChains sha256 reader profile identifier encodedQ messageHash.val checksumBytes
    profile.p 0 (identifier ++ encodedQ ++ [0x80, 0x80])
  return sha256 hashed

/-- The verifier from the first read on. -/
def readSignature (profile : LmsProfile) (publicKey : Block 56) (message : Bytes)
    (otsType : UInt32) : LmsReading σ Unit := do
  let identifier := slice publicKey.val 8 16
  let encodedQ ← readPart reader .ioError 4
  let encodedType ← readPart reader .ioError 4
  let randomizer ← readPart reader .ioError 32
  let q := load32BE encodedQ.val
  if (32 : UInt32) ≤ q ∨ load32BE encodedType.val ≠ otsType then throw .badSignature
  let candidateOtsKey ←
    readOtsKey sha256 reader profile identifier encodedQ.val message randomizer.val
  let encodedType ← readPart reader .badSignature 4
  if load32BE encodedType.val ≠ 5 then throw .badSignature
  let nodeNumber : UInt32 := 32 + q
  let leaf := hashLmsNode sha256 identifier nodeNumber 0x8282 candidateOtsKey none
  let root ← readPath sha256 reader identifier 5 nodeNumber leaf
  if root.val ≠ slice publicKey.val 24 32 then throw .badSignature

/-- The result, the number of bytes consumed, and the reader's state. -/
def verifyStream (publicKey : Block 56) (message : Bytes) (signatureLength : Nat) (state : σ) :
    LmsResult × Nat × σ :=
  let otsType := load32BE (slice publicKey.val 4 4)
  match lmsProfile otsType with
  | none => (.badParameter, 0, state)
  | some profile =>
    if signatureLength ≠ profile.signatureLength then (.badLength, 0, state)
    else if load32BE (slice publicKey.val 0 4) ≠ 5 then (.badParameter, 0, state)
    else
      match readSignature sha256 reader profile publicKey message otsType (state, 0) with
      | (.ok (), (rest, consumed)) => (.ok, consumed, rest)
      | (.error result, (rest, consumed)) => (result, consumed, rest)

end

/-! ## The digits -/

def LmsProfile.parameters (profile : LmsProfile) : LmotsParameters :=
  ⟨profile.width.toNat, profile.p, profile.checksumShift.toNat⟩

/-- One of the two profiles. -/
def LmsProfile.Known (profile : LmsProfile) : Prop :=
  profile = ⟨4, 67, 4, 2348⟩ ∨ profile = ⟨8, 34, 0, 1292⟩

theorem LmsProfile.Known.width {profile : LmsProfile} (h : profile.Known) :
    profile.width = 4 ∨ profile.width = 8 := by
  rcases h with rfl | rfl
  · exact .inl rfl
  · exact .inr rfl

theorem toNat_ofNat_16 {n : Nat} (h : n < 65536) : (UInt16.ofNat n).toNat = n := by
  rw [UInt16.toNat_ofNat']
  exact Nat.mod_eq_of_lt h

/-- The bits of a byte from `shift` on, under a mask of `width` ones. -/
theorem maskedByte_toNat (b : UInt8) {shift : UInt8} {mask : UInt16} {width : Nat}
    (hshift : shift < 8) (hwidth : width ≤ 8) (hmask : mask.toNat = 2 ^ width - 1) :
    ((b.toUInt16 >>> shift.toUInt16) &&& mask).toUInt8.toNat
      = b.toNat / 2 ^ shift.toNat % 2 ^ width := by
  have hs : shift.toNat < 8 := UInt8.lt_iff_toNat_lt.mp hshift
  have hlt : b.toNat / 2 ^ shift.toNat % 2 ^ width < 2 ^ 8 :=
    lt_of_lt_of_le (Nat.mod_lt _ (Nat.two_pow_pos width)) (Nat.pow_le_pow_right (by omega) hwidth)
  rw [UInt16.toNat_toUInt8, UInt16.toNat_and, UInt16.toNat_shiftRight, UInt8.toNat_toUInt16,
    UInt8.toNat_toUInt16, hmask, Nat.and_two_pow_sub_one_eq_mod, Nat.shiftRight_eq_div_pow,
    Nat.mod_eq_of_lt (show shift.toNat < 16 by omega), Nat.mod_eq_of_lt hlt]

/-- The digit at the place `l` of the bytes that `coefficient_at` chose. -/
theorem localDigit_toNat (bytes : Bytes) (l : UInt16) {width : UInt8}
    (hwidth : width = 4 ∨ width = 8) :
    (((byteAt bytes (l / (8 / width).toUInt16).toNat).toUInt16
      >>> ((8 : UInt8) - width - width * (l % (8 / width).toUInt16).toUInt8).toUInt16)
      &&& (((1 : UInt16) <<< width.toUInt16) - 1)).toUInt8.toNat
      = coef bytes l.toNat width.toNat := by
  rcases hwidth with rfl | rfl
  · have hper : ((8 : UInt8) / 4).toUInt16 = 2 := by decide
    have htwo : (2 : UInt16).toNat = 2 := rfl
    have hbyte : (l / 2).toNat = l.toNat * 4 / 8 := by
      rw [UInt16.toNat_div, htwo]
      omega
    have hodd : (l % 2).toUInt8.toNat = l.toNat % 2 := by
      rw [UInt16.toNat_toUInt8, UInt16.toNat_mod, htwo]
      omega
    have hplace : (l % 2).toUInt8 = 0 ∨ (l % 2).toUInt8 = 1 := by
      rcases Nat.mod_two_eq_zero_or_one l.toNat with h | h
      · exact .inl (UInt8.toNat_inj.mp (hodd.trans h))
      · exact .inr (UInt8.toNat_inj.mp (hodd.trans h))
    have hdigit : (4 : UInt8).toNat = 4 := rfl
    have hcoef : 8 - (4 * (l.toNat % (8 / 4)) + 4) = 4 - 4 * (l % 2).toUInt8.toNat := by
      rw [hodd]
      omega
    rw [hper, hbyte, hdigit, coef, hcoef]
    rcases hplace with h | h <;> rw [h]
    · exact maskedByte_toNat _ (by decide) (by decide) (by decide)
    · exact maskedByte_toNat _ (by decide) (by decide) (by decide)
  · have hper : ((8 : UInt8) / 8).toUInt16 = 1 := by decide
    have hone : (1 : UInt16).toNat = 1 := rfl
    have hbyte : (l / 1).toNat = l.toNat * 8 / 8 := by
      rw [UInt16.toNat_div, hone]
      omega
    have hplace : (l % 1).toUInt8 = 0 := by
      apply UInt8.toNat_inj.mp
      rw [UInt16.toNat_toUInt8, UInt16.toNat_mod, hone, Nat.mod_one]
      rfl
    have hdigit : (8 : UInt8).toNat = 8 := rfl
    have hcoef : 8 - (8 * (l.toNat % (8 / 8)) + 8) = 0 := by omega
    rw [hper, hbyte, hplace, hdigit, coef, hcoef]
    exact maskedByte_toNat _ (by decide) (by decide) (by decide)

/-- A digit of the message hash. -/
theorem coefficientAt_message {messageHash : Bytes} (checksum : Bytes) {width : UInt8}
    (hwidth : width = 4 ∨ width = 8) {index : Nat} (hindex : index < 256 / width.toNat) :
    (coefficientAt messageHash checksum (UInt16.ofNat index) width).toNat
      = coef messageHash index width.toNat := by
  have hcount : ((256 : UInt16) / width.toUInt16).toNat = 256 / width.toNat := by
    rcases hwidth with rfl | rfl <;> rfl
  have hle : 256 / width.toNat ≤ 64 := by
    rcases hwidth with rfl | rfl <;> decide
  have hnat := toNat_ofNat_16 (show index < 65536 by omega)
  have hlt : UInt16.ofNat index < 256 / width.toUInt16 := by
    rw [UInt16.lt_iff_toNat_lt, hnat, hcount]
    exact hindex
  simp only [coefficientAt, if_pos hlt, localDigit_toNat _ _ hwidth, hnat]

/-- A digit of the checksum. -/
theorem coefficientAt_checksum (messageHash : Bytes) {checksum : Bytes} {width : UInt8}
    (hwidth : width = 4 ∨ width = 8) {index : Nat} (hindex : 256 / width.toNat ≤ index)
    (hbound : index < 67) :
    (coefficientAt messageHash checksum (UInt16.ofNat index) width).toNat
      = coef checksum (index - 256 / width.toNat) width.toNat := by
  have hcount : ((256 : UInt16) / width.toUInt16).toNat = 256 / width.toNat := by
    rcases hwidth with rfl | rfl <;> rfl
  have hnat := toNat_ofNat_16 (show index < 65536 by omega)
  have hge : ¬ UInt16.ofNat index < 256 / width.toUInt16 := by
    rw [UInt16.lt_iff_toNat_lt, hnat, hcount]
    omega
  have hsub : (UInt16.ofNat index - 256 / width.toUInt16).toNat = index - 256 / width.toNat := by
    rw [UInt16.toNat_sub_of_le _ _ (by rw [UInt16.le_iff_toNat_le, hnat, hcount]; exact hindex),
      hnat, hcount]
  simp only [coefficientAt, if_neg hge, localDigit_toNat _ _ hwidth, hsub]

/-- The digits of the loops are those of the message hash with the checksum after it. -/
theorem coefficientAt_toNat {messageHash checksum : Bytes} (hhash : messageHash.length = 32)
    {width : UInt8} (hwidth : width = 4 ∨ width = 8) {index : Nat} (hindex : index < 67) :
    (coefficientAt messageHash checksum (UInt16.ofNat index) width).toNat
      = coef (messageHash ++ checksum) index width.toNat := by
  have hmem : width.toNat ∈ [1, 2, 4, 8] := by
    rcases hwidth with rfl | rfl <;> decide
  have hdigits : 8 / width.toNat * messageHash.length = 256 / width.toNat := by
    rw [hhash]
    rcases hwidth with rfl | rfl <;> rfl
  rcases Nat.lt_or_ge index (256 / width.toNat) with hlt | hge
  · have hbyte : index * width.toNat / 8 < messageHash.length := by
      rw [hhash]
      rcases hwidth with rfl | rfl
      · change index * 4 / 8 < 32
        have : index < 64 := hlt
        omega
      · change index * 8 / 8 < 32
        have : index < 32 := hlt
        omega
    rw [coefficientAt_message checksum hwidth hlt, coef_append_left hbyte]
  · rw [coefficientAt_checksum messageHash hwidth hge hindex, coef_append_right hmem (by omega),
      hdigits]

/-! ## The checksum -/

theorem store16BE_ofNat {n : Nat} (h : n < 65536) : store16BE (UInt16.ofNat n) = u16str n := by
  rw [store16BE_eq, toNat_ofNat_16 h]
  rfl

theorem u8str_toNat (x : UInt8) : u8str x.toNat = [x] := by
  simp [u8str, beBytes]

section

variable {profile : LmsProfile} (hprofile : profile.Known)
include hprofile

theorem chainLimit_toNat : profile.chainLimit.toNat = 2 ^ profile.width.toNat - 1 := by
  rcases hprofile with rfl | rfl <;> rfl

theorem chainLimit_toUInt16 :
    profile.chainLimit.toUInt16.toNat = 2 ^ profile.width.toNat - 1 := by
  rw [UInt8.toNat_toUInt16, chainLimit_toNat hprofile]

/-- The checksum after the first `count` digits. -/
theorem checksum_foldl (messageHash : Bytes) {count : Nat}
    (hcount : count ≤ 256 / profile.width.toNat) :
    ((List.range count).foldl (fun checksum chainIndex =>
        checksum + profile.chainLimit.toUInt16
          - (coefficientAt messageHash [] (UInt16.ofNat chainIndex) profile.width).toUInt16)
        0).toNat
      = ∑ i ∈ Finset.range count,
          (2 ^ profile.width.toNat - 1 - coef messageHash i profile.width.toNat) := by
  have hsmall : 256 / profile.width.toNat ≤ 64 ∧ 2 ^ profile.width.toNat ≤ 256 := by
    rcases hprofile with rfl | rfl <;> decide
  have hlimit := chainLimit_toUInt16 hprofile
  induction count with
  | zero => rfl
  | succ count ih =>
    have hbefore := ih (by omega)
    have hbound : ∑ i ∈ Finset.range count,
        (2 ^ profile.width.toNat - 1 - coef messageHash i profile.width.toNat) ≤ count * 255 := by
      have hsum := Finset.sum_le_card_nsmul (Finset.range count)
        (fun i => 2 ^ profile.width.toNat - 1 - coef messageHash i profile.width.toNat) 255
        fun i _ => by omega
      rwa [Finset.card_range, smul_eq_mul] at hsum
    have hdigit : (coefficientAt messageHash [] (UInt16.ofNat count) profile.width).toNat
        = coef messageHash count profile.width.toNat :=
      coefficientAt_message [] (LmsProfile.Known.width hprofile) (by omega)
    have hlt := coef_lt messageHash count profile.width.toNat
    rw [List.range_succ, List.foldl_append, List.foldl_cons, List.foldl_nil,
      Finset.sum_range_succ, ← hbefore]
    rw [← hbefore] at hbound
    generalize hacc : (List.range count).foldl _ (0 : UInt16) = checksum at hbound ⊢
    have hadd : (checksum + profile.chainLimit.toUInt16).toNat
        = checksum.toNat + (2 ^ profile.width.toNat - 1) := by
      rw [UInt16.toNat_add, hlimit]
      omega
    rw [UInt16.toNat_sub_of_le _ _
      (by rw [UInt16.le_iff_toNat_le, hadd, UInt8.toNat_toUInt16, hdigit]; omega), hadd,
      UInt8.toNat_toUInt16, hdigit]
    omega

theorem lmsChecksum_toNat (messageHash : Bytes) :
    (lmsChecksum profile messageHash).toNat = cksm profile.parameters messageHash := by
  have hsum := checksum_foldl hprofile messageHash (Nat.le_refl _)
  have hbound : ∑ i ∈ Finset.range (256 / profile.width.toNat),
      (2 ^ profile.width.toNat - 1 - coef messageHash i profile.width.toNat)
      ≤ 256 / profile.width.toNat * (2 ^ profile.width.toNat - 1) := by
    have hle := Finset.sum_le_card_nsmul (Finset.range (256 / profile.width.toNat))
      (fun i => 2 ^ profile.width.toNat - 1 - coef messageHash i profile.width.toNat)
      (2 ^ profile.width.toNat - 1) fun i _ => by omega
    rwa [Finset.card_range, smul_eq_mul] at hle
  unfold lmsChecksum cksm
  rw [UInt16.toNat_shiftLeft, hsum, Nat.shiftLeft_eq]
  rcases hprofile with rfl | rfl
  · change _ ≤ 960 at hbound
    refine Nat.mod_eq_of_lt ?_
    change _ * 16 < 65536
    omega
  · change _ ≤ 8160 at hbound
    refine Nat.mod_eq_of_lt ?_
    change _ * 1 < 65536
    omega

theorem checksumBytes_eq (messageHash : Bytes) :
    store16BE (lmsChecksum profile messageHash) = u16str (cksm profile.parameters messageHash) := by
  rw [store16BE_eq, lmsChecksum_toNat hprofile]
  rfl

/-! ## The chains -/

theorem runChain_eq (identifier encodedQ : Bytes) {chainIndex : Nat} (hindex : chainIndex < 65536)
    (iteration : UInt8) (chainValue : Block 32) :
    (runChain sha256 identifier encodedQ (UInt16.ofNat chainIndex) profile.chainLimit iteration
        chainValue).val
      = chainEnd sha256 identifier encodedQ profile.width.toNat chainIndex iteration.toNat
          chainValue.val := by
  have hlimit := chainLimit_toNat hprofile
  have hbyte := profile.chainLimit.toNat_lt
  -- on the number of steps that are left
  induction hleft : profile.chainLimit.toNat - iteration.toNat generalizing iteration chainValue with
  | zero =>
    have hge : ¬ iteration < profile.chainLimit := by
      rw [UInt8.lt_iff_toNat_lt]
      omega
    have hnone : 2 ^ profile.width.toNat - 1 - iteration.toNat = 0 := by omega
    rw [runChain, dif_neg hge, chainEnd, hnone]
    rfl
  | succ left ih =>
    have hlt : iteration < profile.chainLimit := by
      rw [UInt8.lt_iff_toNat_lt]
      omega
    have hnext : (iteration + 1).toNat = iteration.toNat + 1 := by
      rw [UInt8.toNat_add]
      exact Nat.mod_eq_of_lt (by simp; omega)
    have hcount : 2 ^ profile.width.toNat - 1 - iteration.toNat
        = 2 ^ profile.width.toNat - 1 - (iteration + 1).toNat + 1 := by omega
    rw [runChain, dif_pos hlt, ih _ _ (by omega), chainEnd, chainEnd, hcount, List.range'_succ,
      List.foldl_cons, hashChainStep, store16BE_ofNat hindex, u8str_toNat, hnext]

end

end C0PQLink.NanoPQ
