import C0PQLink.Core.MlKem512Cleanup
import C0PQLink.Foundation.MonadMaps

/-!
# The encapsulation and its callbacks

The encapsulation is written for any monad and does nothing but call its callbacks, so that
it is carried along by every map between monads.

* `encapsulate_map`: the encapsulation under such a map.
* `encapsulateDerand_pureReader`: with a public key that is read without effects, what is
  left is one loop of writes over the chunks of the ciphertext.
-/

namespace C0PQLink

open Foundation

variable (hashes : Fips203.Hashes)

/-! ## Maps between monads -/

section

variable {m n : Type → Type} [Monad m] [Monad n] [LawfulMonad m] [LawfulMonad n]
  (φ : MonadMap m n) (readPublicKey : UInt16 → m UInt8) (writeCiphertext : Bytes → m Status)

theorem readKeyBytes_map (start count : Nat) :
    φ.map (readKeyBytes readPublicKey start count)
      = readKeyBytes (fun offset => φ.map (readPublicKey offset)) start count :=
  φ.mapM ..

omit [LawfulMonad m] [LawfulMonad n] in
theorem checkTriples_map (count offset : Nat) :
    φ.map (checkTriples readPublicKey count offset)
      = checkTriples (fun offset => φ.map (readPublicKey offset)) count offset := by
  induction count generalizing offset with
  | zero => exact φ.map_pure true
  | succ count ih =>
    rw [checkTriples, checkTriples, φ.map_bind]
    refine bind_congr fun b0 => ?_
    rw [φ.map_bind]
    refine bind_congr fun b1 => ?_
    rw [φ.map_bind]
    refine bind_congr fun b2 => ?_
    rw [φ.map_ite, φ.map_pure, ih]

theorem validateAndHashPublicKey_map :
    φ.map (validateAndHashPublicKey hashes readPublicKey)
      = validateAndHashPublicKey hashes (fun offset => φ.map (readPublicKey offset)) := by
  rw [validateAndHashPublicKey, validateAndHashPublicKey, φ.map_bind, readKeyBytes_map]
  refine bind_congr fun key => ?_
  rw [φ.map_bind, checkTriples_map]
  refine bind_congr fun canonical => ?_
  rw [φ.map_ite, φ.map_pure, φ.map_bind, readKeyBytes_map]
  simp only [φ.map_pure]

omit [LawfulMonad m] [LawfulMonad n] in
theorem writeEach_map (chunks : List Bytes) :
    φ.map (writeEach writeCiphertext chunks)
      = writeEach (fun data => φ.map (writeCiphertext data)) chunks := by
  induction chunks with
  | nil => exact φ.map_pure _
  | cons chunk rest ih =>
    rw [writeEach, writeEach, φ.map_bind]
    refine bind_congr fun status => ?_
    rw [φ.map_ite, φ.map_pure, ih]

theorem writeRows_map (zetaData : Nat → Int16) (rho coins : Bytes) (rows : List Nat) :
    φ.map (writeRows hashes writeCiphertext zetaData rho coins rows)
      = writeRows hashes (fun data => φ.map (writeCiphertext data)) zetaData rho coins rows := by
  rw [writeRows_eq, writeRows_eq, writeEach_map]

theorem encapsulateDerand_map (zetaData : Nat → Int16) (randomness : Block 32) :
    φ.map (encapsulateDerand hashes readPublicKey writeCiphertext zetaData randomness)
      = encapsulateDerand hashes (fun offset => φ.map (readPublicKey offset))
          (fun data => φ.map (writeCiphertext data)) zetaData randomness := by
  rw [encapsulateDerand, encapsulateDerand, φ.map_bind, validateAndHashPublicKey_map]
  refine bind_congr fun validated => ?_
  cases validated with
  | error status => exact φ.map_pure _
  | ok key =>
    dsimp only
    rw [φ.map_bind, writeRows_map]
    refine bind_congr fun status => ?_
    rw [φ.map_ite, φ.map_pure, φ.map_bind, readKeyBytes_map]
    congr 1
    refine bind_congr fun encoded0 => ?_
    rw [φ.map_bind, readKeyBytes_map]
    refine bind_congr fun encoded1 => ?_
    rw [φ.map_bind, writeCompressedV, writeCompressedV, writeEach_map]
    refine bind_congr fun status => ?_
    rw [φ.map_ite, φ.map_pure, φ.map_pure]

/-- The encapsulation with its callbacks carried to another monad. -/
theorem encapsulate_map (zetaData : Nat → Int16) (randomBytes : m (Int × Block 32)) :
    φ.map (encapsulate hashes readPublicKey writeCiphertext zetaData randomBytes)
      = encapsulate hashes (fun offset => φ.map (readPublicKey offset))
          (fun data => φ.map (writeCiphertext data)) zetaData (φ.map randomBytes) := by
  rw [encapsulate, encapsulate, φ.map_bind]
  refine bind_congr fun random => ?_
  dsimp only
  rw [φ.map_ite, φ.map_pure, encapsulateDerand_map]

end

/-! ## A key that is read without effects -/

section

variable {m : Type → Type} [Monad m] [LawfulMonad m] (ek : Block 800)

/-- `read_public_key` for the bytes of a key, in any monad. -/
def pureReader (offset : UInt16) : m UInt8 := pure (byteAt ek.val offset.toNat)

theorem readKeyBytes_pureReader {start count : Nat} (h : start + count ≤ 800) :
    readKeyBytes (pureReader ek : UInt16 → m UInt8) start count
      = pure (slice ek.val start count) := by
  have hid := readKeyBytes_map (MonadMap.ofId (StateM (List Bytes))) (pureReader ek) start count
  have hstate := congrArg (fun p : StateM (List Bytes) Bytes => (p.run []).1)
    (hid.trans (readKeyBytes_keyReader ek h))
  have hvalue : readKeyBytes (pureReader ek : UInt16 → Id UInt8) start count
      = pure (slice ek.val start count) := hstate
  have hmap := readKeyBytes_map (MonadMap.ofId m) (pureReader ek) start count
  rw [hvalue] at hmap
  exact hmap.symm

theorem validateAndHashPublicKey_pureReader :
    validateAndHashPublicKey hashes (pureReader ek : UInt16 → m UInt8)
      = pure (if Fips203.Canonical ek then .ok (hashes.hashH ek.val, Fips203.matrixSeed ek)
          else .error .errKeyEncoding) := by
  have hread := validateAndHashPublicKey_keyReader hashes ek
  rw [← apply_ite pure] at hread
  generalize (if Fips203.Canonical ek then Except.ok (hashes.hashH ek.val, Fips203.matrixSeed ek)
    else .error Status.errKeyEncoding) = validated at hread ⊢
  have hid := validateAndHashPublicKey_map hashes (MonadMap.ofId (StateM (List Bytes)))
    (pureReader ek)
  have hstate := congrArg (fun p : StateM (List Bytes) (Except Status (Block 32 × Bytes)) =>
    (p.run []).1) (hid.trans hread)
  have hvalue : validateAndHashPublicKey hashes (pureReader ek : UInt16 → Id UInt8)
    = pure validated := hstate
  have hmap := validateAndHashPublicKey_map hashes (MonadMap.ofId m) (pureReader ek)
  rw [hvalue] at hmap
  exact hmap.symm

variable (writeCiphertext : Bytes → m Status) (zetaData : Nat → Int16)

/-- The chunks of the ciphertext are written one after another. -/
theorem encapsulateDerand_pureReader (hcanonical : Fips203.Canonical ek) (randomness : Block 32) :
    encapsulateDerand hashes (pureReader ek) writeCiphertext zetaData randomness = (do
      let status ← writeEach writeCiphertext (chunksWith hashes ek randomness zetaData)
      if status ≠ .ok then return .error status
      return .ok (secretAndCoins hashes ek randomness).1) := by
  rw [encapsulateDerand, validateAndHashPublicKey_pureReader, if_pos hcanonical, pure_bind,
    chunksWith]
  dsimp only
  rw [writeEach_append, writeRows_eq, bind_assoc]
  refine writeEach_bind_congr writeCiphertext ?_ ?_ _
  · simp only [ne_eq, not_true, if_false]
    rw [readKeyBytes_pureReader ek (by decide), pure_bind,
      readKeyBytes_pureReader ek (by decide), pure_bind]
    rfl
  · simp only [ne_eq, reduceCtorEq, not_false_eq_true, if_true, pure_bind]

/-- A key that is not canonical is rejected before anything is written. -/
theorem encapsulateDerand_pureReader_rejected (hcanonical : ¬ Fips203.Canonical ek)
    (randomness : Block 32) :
    encapsulateDerand hashes (pureReader ek) writeCiphertext zetaData randomness
      = pure (.error .errKeyEncoding) := by
  rw [encapsulateDerand, validateAndHashPublicKey_pureReader, if_neg hcanonical, pure_bind]

theorem encapsulate_pureReader (hcanonical : Fips203.Canonical ek) (randomness : Block 32) :
    encapsulate hashes (pureReader ek) writeCiphertext zetaData (pure (0, randomness)) = (do
      let status ← writeEach writeCiphertext (chunksWith hashes ek randomness zetaData)
      if status ≠ .ok then return .error status
      return .ok (secretAndCoins hashes ek randomness).1) := by
  rw [encapsulate, pure_bind]
  dsimp only
  rw [if_neg (not_not.mpr rfl),
    encapsulateDerand_pureReader hashes ek writeCiphertext zetaData hcanonical]

end

end C0PQLink
