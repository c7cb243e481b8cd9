import C0PQLink.Core.Common
import C0PQLink.Foundation.LittleEndian

/-!
# Ascon-AEAD128

`core/ascon_aead128.c`. The C0-PQLink and the NanoPQ firmware compile the same code under
two names; only the status of a failed decryption has another name.

* `asconDecrypt_encrypt`: decryption of an encryption gives the plaintext.
* `encryptBlocks_decryptBlocks`: the two message loops are inverse to each other.
* `asconDecryptInto_inverts`: what is decrypted are the encryptions and nothing else.
-/

namespace C0PQLink

open Foundation

structure AsconState where
  x0 : UInt64
  x1 : UInt64
  x2 : UInt64
  x3 : UInt64
  x4 : UInt64
  deriving DecidableEq

/-! ## The permutation -/

def rotateRight64 (value : UInt64) (count : UInt64) : UInt64 :=
  (value >>> count) ||| (value <<< (64 - count))

def asconRound (state : AsconState) (constant : UInt8) : AsconState :=
  let x2 := state.x2 ^^^ constant.toUInt64
  let x0 := state.x0 ^^^ state.x4
  let x4 := state.x4 ^^^ state.x3
  let x2 := x2 ^^^ state.x1
  let t0 := x0 ^^^ (~~~state.x1 &&& x2)
  let t1 := state.x1 ^^^ (~~~x2 &&& state.x3)
  let t2 := x2 ^^^ (~~~state.x3 &&& x4)
  let t3 := state.x3 ^^^ (~~~x4 &&& x0)
  let t4 := x4 ^^^ (~~~x0 &&& state.x1)
  let t1 := t1 ^^^ t0
  let t0 := t0 ^^^ t4
  let t3 := t3 ^^^ t2
  let t2 := ~~~t2
  { x0 := t0 ^^^ rotateRight64 t0 19 ^^^ rotateRight64 t0 28
    x1 := t1 ^^^ rotateRight64 t1 61 ^^^ rotateRight64 t1 39
    x2 := t2 ^^^ rotateRight64 t2 1 ^^^ rotateRight64 t2 6
    x3 := t3 ^^^ rotateRight64 t3 10 ^^^ rotateRight64 t3 17
    x4 := t4 ^^^ rotateRight64 t4 7 ^^^ rotateRight64 t4 41 }

/-- The constant `((15 - i) << 4) | i` of round `i`. -/
def asconConstant (i : Nat) : UInt8 := UInt8.ofNat ((15 - i) <<< 4 ||| i)

def asconPermute12 (state : AsconState) : AsconState :=
  (List.range 12).foldl (fun s i => asconRound s (asconConstant i)) state

def asconPermute8 (state : AsconState) : AsconState :=
  (List.range 8).foldl (fun s i => asconRound s (asconConstant (i + 4))) state

/-! ## The phases -/

def asconInitialize (key nonce : Block 16) : AsconState :=
  let key0 := loadLittleEndian key.val 8
  let key1 := loadLittleEndian (key.val.drop 8) 8
  let state := asconPermute12
    { x0 := 0x00001000808c0001
      x1 := key0
      x2 := key1
      x3 := loadLittleEndian nonce.val 8
      x4 := loadLittleEndian (nonce.val.drop 8) 8 }
  { state with x3 := state.x3 ^^^ key0, x4 := state.x4 ^^^ key1 }

/-- The padding bit after `position` bytes of a word. -/
def padWord (position : Nat) : UInt64 := 1 <<< UInt64.ofNat (8 * position)

/-- The blocks of nonempty associated data, the last one padded. -/
def absorbBlocks (state : AsconState) (data : Bytes) : AsconState :=
  if 16 ≤ data.length then
    let state := { state with
      x0 := state.x0 ^^^ loadLittleEndian data 8
      x1 := state.x1 ^^^ loadLittleEndian (data.drop 8) 8 }
    absorbBlocks (asconPermute8 state) (data.drop 16)
  else if 8 ≤ data.length then
    let state := { state with
      x0 := state.x0 ^^^ loadLittleEndian data 8
      x1 := state.x1 ^^^ loadLittleEndian (data.drop 8) (data.length - 8)
        ^^^ padWord (data.length - 8) }
    asconPermute8 state
  else
    let state := { state with
      x0 := state.x0 ^^^ loadLittleEndian data data.length ^^^ padWord data.length }
    asconPermute8 state
termination_by data.length
decreasing_by simp; omega

def absorbAssociatedData (state : AsconState) (data : Bytes) : AsconState :=
  let state := if data.length ≠ 0 then absorbBlocks state data else state
  { state with x4 := state.x4 ^^^ 0x8000000000000000 }

def finalizeTag (state : AsconState) (key : Block 16) : Block 16 :=
  let key0 := loadLittleEndian key.val 8
  let key1 := loadLittleEndian (key.val.drop 8) 8
  let state := asconPermute12
    { state with x2 := state.x2 ^^^ key0, x3 := state.x3 ^^^ key1 }
  ⟨storeLittleEndian (state.x3 ^^^ key0) 8 ++ storeLittleEndian (state.x4 ^^^ key1) 8, by simp⟩

/-- The message loop of `c0_ascon_aead128_encrypt` and the block after it: the state and
the ciphertext. -/
def encryptBlocks (state : AsconState) (plaintext : Bytes) : AsconState × Bytes :=
  if 16 ≤ plaintext.length then
    let x0 := state.x0 ^^^ loadLittleEndian plaintext 8
    let x1 := state.x1 ^^^ loadLittleEndian (plaintext.drop 8) 8
    let rest := encryptBlocks (asconPermute8 { state with x0 := x0, x1 := x1 })
      (plaintext.drop 16)
    (rest.1, storeLittleEndian x0 8 ++ storeLittleEndian x1 8 ++ rest.2)
  else if 8 ≤ plaintext.length then
    let x0 := state.x0 ^^^ loadLittleEndian plaintext 8
    let x1 := state.x1 ^^^ loadLittleEndian (plaintext.drop 8) (plaintext.length - 8)
    ({ state with x0 := x0, x1 := x1 ^^^ padWord (plaintext.length - 8) },
      storeLittleEndian x0 8 ++ storeLittleEndian x1 (plaintext.length - 8))
  else
    let x0 := state.x0 ^^^ loadLittleEndian plaintext plaintext.length
    ({ state with x0 := x0 ^^^ padWord plaintext.length },
      storeLittleEndian x0 plaintext.length)
termination_by plaintext.length
decreasing_by simp; omega

/-- The message loop of `c0_ascon_aead128_decrypt` and the block after it: the state and
the plaintext. -/
def decryptBlocks (state : AsconState) (ciphertext : Bytes) : AsconState × Bytes :=
  if 16 ≤ ciphertext.length then
    let c0 := loadLittleEndian ciphertext 8
    let c1 := loadLittleEndian (ciphertext.drop 8) 8
    let rest := decryptBlocks (asconPermute8 { state with x0 := c0, x1 := c1 })
      (ciphertext.drop 16)
    (rest.1, storeLittleEndian (state.x0 ^^^ c0) 8 ++ storeLittleEndian (state.x1 ^^^ c1) 8
      ++ rest.2)
  else if 8 ≤ ciphertext.length then
    let c0 := loadLittleEndian ciphertext 8
    let c1 := loadLittleEndian (ciphertext.drop 8) (ciphertext.length - 8)
    let x1 := clearLowBytes state.x1 (ciphertext.length - 8) ||| c1
    ({ state with x0 := c0, x1 := x1 ^^^ padWord (ciphertext.length - 8) },
      storeLittleEndian (state.x0 ^^^ c0) 8
        ++ storeLittleEndian (state.x1 ^^^ c1) (ciphertext.length - 8))
  else
    let c0 := loadLittleEndian ciphertext ciphertext.length
    let x0 := clearLowBytes state.x0 ciphertext.length ||| c0
    ({ state with x0 := x0 ^^^ padWord ciphertext.length },
      storeLittleEndian (state.x0 ^^^ c0) ciphertext.length)
termination_by ciphertext.length
decreasing_by simp; omega

/-- The ciphertext and the tag. -/
def asconAead128Encrypt (key nonce : Block 16) (associatedData plaintext : Bytes) :
    Bytes × Block 16 :=
  let state := absorbAssociatedData (asconInitialize key nonce) associatedData
  let (state, ciphertext) := encryptBlocks state plaintext
  (ciphertext, finalizeTag state key)

/-- The plaintext, or `none` when the tag does not verify; the output buffer is then
filled with zeros. -/
def asconAead128Decrypt (key nonce : Block 16) (associatedData ciphertext : Bytes)
    (tag : Block 16) : Option Bytes :=
  let state := absorbAssociatedData (asconInitialize key nonce) associatedData
  let (state, plaintext) := decryptBlocks state ciphertext
  if finalizeTag state key ≠ tag then none else some plaintext

/-- The status and the output buffer of `c0_ascon_aead128_decrypt`. -/
def asconAead128DecryptInto (key nonce : Block 16) (associatedData ciphertext : Bytes)
    (tag : Block 16) : Status × Bytes :=
  let state := absorbAssociatedData (asconInitialize key nonce) associatedData
  let (state, plaintext) := decryptBlocks state ciphertext
  if finalizeTag state key ≠ tag then (.errAuth, List.replicate ciphertext.length 0)
  else (.ok, plaintext)

/-! ## Decryption inverts encryption -/

@[simp] theorem length_encryptBlocks (state : AsconState) (plaintext : Bytes) :
    (encryptBlocks state plaintext).2.length = plaintext.length := by
  fun_induction encryptBlocks state plaintext with
  | case1 state plaintext h x0 x1 rest ih =>
    simp only [List.length_append, length_storeLittleEndian, rest, ih, List.length_drop]
    omega
  | case2 state plaintext h h8 x0 x1 =>
    simp only [List.length_append, length_storeLittleEndian]
    omega
  | case3 state plaintext h h8 x0 => simp

theorem xor_xor_cancel (x y : UInt64) : x ^^^ (x ^^^ y) = y := by
  rw [← UInt64.xor_assoc, UInt64.xor_self, UInt64.zero_xor]

theorem take8_append_take8_drop {b : Bytes} :
    b.take 8 ++ (b.drop 8).take 8 ++ b.drop 16 = b := by
  rw [show (16 : Nat) = 8 + 8 from rfl, ← List.drop_drop, List.append_assoc,
    List.take_append_drop, List.take_append_drop]

theorem decryptBlocks_encryptBlocks (state : AsconState) (plaintext : Bytes) :
    decryptBlocks state (encryptBlocks state plaintext).2
      = ((encryptBlocks state plaintext).1, plaintext) := by
  fun_induction encryptBlocks state plaintext with
  | case1 state plaintext h x0 x1 rest ih =>
    rw [decryptBlocks]
    have hlen : 16 ≤ (storeLittleEndian x0 8 ++ storeLittleEndian x1 8 ++ rest.2).length := by
      simp only [List.length_append, length_storeLittleEndian]
      omega
    have hdrop8 : (storeLittleEndian x0 8 ++ storeLittleEndian x1 8 ++ rest.2).drop 8
        = storeLittleEndian x1 8 ++ rest.2 := by
      rw [List.append_assoc, List.drop_left' (by simp)]
    have hdrop16 : (storeLittleEndian x0 8 ++ storeLittleEndian x1 8 ++ rest.2).drop 16
        = rest.2 := List.drop_left' (by simp)
    have hc0 : loadLittleEndian (storeLittleEndian x0 8 ++ storeLittleEndian x1 8 ++ rest.2) 8
        = x0 := by
      rw [List.append_assoc, loadLittleEndian_append _ (by simp), load_store]
    have hc1 : loadLittleEndian (storeLittleEndian x1 8 ++ rest.2) 8 = x1 := by
      rw [loadLittleEndian_append _ (by simp), load_store]
    simp only [hlen, if_true, hdrop8, hdrop16, hc0, hc1]
    simp only [rest, x0, x1, xor_xor_cancel, ih]
    rw [store_load (Nat.le_refl 8) (by omega), store_load (Nat.le_refl 8) (by simp; omega),
      take8_append_take8_drop]
  | case2 state plaintext h h8 x0 x1 =>
    rw [decryptBlocks]
    have hlen : (storeLittleEndian x0 8
        ++ storeLittleEndian x1 (plaintext.length - 8)).length = plaintext.length := by
      simp only [List.length_append, length_storeLittleEndian]
      omega
    have hdrop8 : (storeLittleEndian x0 8
        ++ storeLittleEndian x1 (plaintext.length - 8)).drop 8
        = storeLittleEndian x1 (plaintext.length - 8) := List.drop_left' (by simp)
    have hc0 : loadLittleEndian (storeLittleEndian x0 8
        ++ storeLittleEndian x1 (plaintext.length - 8)) 8 = x0 := by
      rw [loadLittleEndian_append _ (by simp), load_store]
    have htail : (plaintext.drop 8).length = plaintext.length - 8 := List.length_drop
    have hle : (plaintext.drop 8).length ≤ 8 := by omega
    have hx1 := store_xor_cancel state.x1 hle
    have hclear := clear_or_load state.x1 hle
    rw [htail] at hx1 hclear
    simp only [hlen, h, h8, if_false, if_true, hdrop8, hc0]
    simp only [x0, x1, xor_xor_cancel, hx1, hclear]
    rw [store_load (Nat.le_refl 8) h8, List.take_append_drop]
  | case3 state plaintext h h8 x0 =>
    rw [decryptBlocks]
    have hlen : (storeLittleEndian x0 plaintext.length).length = plaintext.length := by simp
    have hle : plaintext.length ≤ 8 := by omega
    simp only [hlen, h, h8, if_false]
    simp only [x0, store_xor_cancel _ hle, clear_or_load _ hle]

theorem asconDecrypt_encrypt (key nonce : Block 16) (associatedData plaintext : Bytes) :
    asconAead128Decrypt key nonce associatedData
        (asconAead128Encrypt key nonce associatedData plaintext).1
        (asconAead128Encrypt key nonce associatedData plaintext).2 = some plaintext := by
  simp only [asconAead128Decrypt, asconAead128Encrypt, decryptBlocks_encryptBlocks,
    ne_eq, not_true, if_false]

/-! ## Encryption inverts decryption -/

@[simp] theorem length_decryptBlocks (state : AsconState) (ciphertext : Bytes) :
    (decryptBlocks state ciphertext).2.length = ciphertext.length := by
  fun_induction decryptBlocks state ciphertext with
  | case1 state ciphertext h c0 c1 rest ih =>
    simp only [List.length_append, length_storeLittleEndian, rest, ih, List.length_drop]
    omega
  | case2 state ciphertext h h8 c0 c1 x1 =>
    simp only [List.length_append, length_storeLittleEndian]
    omega
  | case3 state ciphertext h h8 c0 x0 => simp

/-- Masking a word with the plaintext of a partial block replaces its low bytes by the
ciphertext. -/
theorem xor_plaintext_load (x : UInt64) {b : Bytes} (hb : b.length ≤ 8) :
    x ^^^ loadLittleEndian
        (storeLittleEndian (x ^^^ loadLittleEndian b b.length) b.length) b.length
      = clearLowBytes x b.length ||| loadLittleEndian b b.length := by
  have hclear := clear_or_load x (show (storeLittleEndian (x ^^^ loadLittleEndian b b.length)
    b.length).length ≤ 8 by simpa using hb)
  rw [length_storeLittleEndian, store_xor_cancel x hb] at hclear
  exact hclear.symm

theorem encryptBlocks_decryptBlocks (state : AsconState) (ciphertext : Bytes) :
    encryptBlocks state (decryptBlocks state ciphertext).2
      = ((decryptBlocks state ciphertext).1, ciphertext) := by
  fun_induction decryptBlocks state ciphertext with
  | case1 state ciphertext h c0 c1 rest ih =>
    rw [encryptBlocks]
    have hlen : 16 ≤ (storeLittleEndian (state.x0 ^^^ c0) 8
        ++ storeLittleEndian (state.x1 ^^^ c1) 8 ++ rest.2).length := by
      simp only [List.length_append, length_storeLittleEndian]
      omega
    have hdrop8 : (storeLittleEndian (state.x0 ^^^ c0) 8
        ++ storeLittleEndian (state.x1 ^^^ c1) 8 ++ rest.2).drop 8
        = storeLittleEndian (state.x1 ^^^ c1) 8 ++ rest.2 := by
      rw [List.append_assoc, List.drop_left' (by simp)]
    have hdrop16 : (storeLittleEndian (state.x0 ^^^ c0) 8
        ++ storeLittleEndian (state.x1 ^^^ c1) 8 ++ rest.2).drop 16 = rest.2 :=
      List.drop_left' (by simp)
    have hx0 : loadLittleEndian (storeLittleEndian (state.x0 ^^^ c0) 8
        ++ storeLittleEndian (state.x1 ^^^ c1) 8 ++ rest.2) 8 = state.x0 ^^^ c0 := by
      rw [List.append_assoc, loadLittleEndian_append _ (by simp), load_store]
    have hx1 : loadLittleEndian (storeLittleEndian (state.x1 ^^^ c1) 8 ++ rest.2) 8
        = state.x1 ^^^ c1 := by
      rw [loadLittleEndian_append _ (by simp), load_store]
    simp only [hlen, if_true, hdrop8, hdrop16, hx0, hx1, xor_xor_cancel]
    simp only [rest, c0, c1, ih]
    rw [store_load (Nat.le_refl 8) (by omega), store_load (Nat.le_refl 8) (by simp; omega),
      take8_append_take8_drop]
  | case2 state ciphertext h h8 c0 c1 x1 =>
    rw [encryptBlocks]
    have hlen : (storeLittleEndian (state.x0 ^^^ c0) 8
        ++ storeLittleEndian (state.x1 ^^^ c1) (ciphertext.length - 8)).length
        = ciphertext.length := by
      simp only [List.length_append, length_storeLittleEndian]
      omega
    have hdrop8 : (storeLittleEndian (state.x0 ^^^ c0) 8
        ++ storeLittleEndian (state.x1 ^^^ c1) (ciphertext.length - 8)).drop 8
        = storeLittleEndian (state.x1 ^^^ c1) (ciphertext.length - 8) :=
      List.drop_left' (by simp)
    have hx0 : loadLittleEndian (storeLittleEndian (state.x0 ^^^ c0) 8
        ++ storeLittleEndian (state.x1 ^^^ c1) (ciphertext.length - 8)) 8 = state.x0 ^^^ c0 := by
      rw [loadLittleEndian_append _ (by simp), load_store]
    have htail : (ciphertext.drop 8).length = ciphertext.length - 8 := List.length_drop
    have hle : (ciphertext.drop 8).length ≤ 8 := by omega
    have hload := xor_plaintext_load state.x1 hle
    have hstore : storeLittleEndian (clearLowBytes state.x1 (ciphertext.drop 8).length
        ||| loadLittleEndian (ciphertext.drop 8) (ciphertext.drop 8).length)
        (ciphertext.drop 8).length = ciphertext.drop 8 := by
      rw [← hload, store_xor_cancel state.x1 hle]
    rw [htail] at hload hstore
    simp only [hlen, h, h8, if_false, if_true, hdrop8, hx0, xor_xor_cancel]
    simp only [x1, c0, c1, hload, hstore]
    rw [store_load (Nat.le_refl 8) h8, List.take_append_drop]
  | case3 state ciphertext h h8 c0 x0 =>
    rw [encryptBlocks]
    have hlen : (storeLittleEndian (state.x0 ^^^ c0) ciphertext.length).length
        = ciphertext.length := by simp
    have hle : ciphertext.length ≤ 8 := by omega
    have hload := xor_plaintext_load state.x0 hle
    have hstore : storeLittleEndian (clearLowBytes state.x0 ciphertext.length
        ||| loadLittleEndian ciphertext ciphertext.length) ciphertext.length = ciphertext := by
      rw [← hload, store_xor_cancel state.x0 hle]
    simp only [hlen, h, h8, if_false]
    simp only [x0, c0, hload, hstore]

section

variable (key nonce : Block 16) (associatedData : Bytes)

theorem asconDecryptInto_eq (ciphertext : Bytes) (tag : Block 16) :
    asconAead128DecryptInto key nonce associatedData ciphertext tag
      = match asconAead128Decrypt key nonce associatedData ciphertext tag with
        | some plaintext => (.ok, plaintext)
        | none => (.errAuth, List.replicate ciphertext.length 0) := by
  simp only [asconAead128DecryptInto, asconAead128Decrypt]
  split <;> rfl

theorem asconDecrypt_eq_some_iff {ciphertext plaintext : Bytes} {tag : Block 16} :
    asconAead128Decrypt key nonce associatedData ciphertext tag = some plaintext
      ↔ asconAead128Encrypt key nonce associatedData plaintext = (ciphertext, tag) := by
  constructor
  · intro h
    simp only [asconAead128Decrypt] at h
    split at h
    · cases h
    · rename_i htag
      obtain rfl := Option.some.inj h
      simp only [asconAead128Encrypt, encryptBlocks_decryptBlocks, not_not.mp htag]
  · intro h
    have hround := asconDecrypt_encrypt key nonce associatedData plaintext
    rw [h] at hround
    exact hround

/-- The decryption succeeds on the encryptions, with their plaintexts, and on nothing else;
where it fails it clears its output. -/
theorem asconDecryptInto_inverts :
    (∀ plaintext, asconAead128DecryptInto key nonce associatedData
        (asconAead128Encrypt key nonce associatedData plaintext).1
        (asconAead128Encrypt key nonce associatedData plaintext).2 = (.ok, plaintext))
      ∧ ∀ ciphertext tag,
        (∀ plaintext, asconAead128DecryptInto key nonce associatedData ciphertext tag
            = (.ok, plaintext)
          ↔ asconAead128Encrypt key nonce associatedData plaintext = (ciphertext, tag))
        ∧ ((∀ plaintext, asconAead128Encrypt key nonce associatedData plaintext
            ≠ (ciphertext, tag)) →
          asconAead128DecryptInto key nonce associatedData ciphertext tag
            = (.errAuth, List.replicate ciphertext.length 0)) := by
  refine ⟨fun plaintext => ?_, fun ciphertext tag => ⟨fun plaintext => ?_, fun hnone => ?_⟩⟩
  · rw [asconDecryptInto_eq, asconDecrypt_encrypt]
  · rw [← asconDecrypt_eq_some_iff, asconDecryptInto_eq]
    cases asconAead128Decrypt key nonce associatedData ciphertext tag with
    | none => simp
    | some found => simp
  · have hfailed : asconAead128Decrypt key nonce associatedData ciphertext tag = none := by
      rw [Option.eq_none_iff_forall_ne_some]
      intro plaintext h
      exact hnone plaintext ((asconDecrypt_eq_some_iff key nonce associatedData).mp h)
    rw [asconDecryptInto_eq, hfailed]

end

@[simp] theorem length_asconAead128Encrypt (key nonce : Block 16)
    (associatedData plaintext : Bytes) :
    (asconAead128Encrypt key nonce associatedData plaintext).1.length = plaintext.length :=
  length_encryptBlocks _ _

end C0PQLink
