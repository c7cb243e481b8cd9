import C0PQLink.Core.MlKem512Correctness

/-!
# What an encapsulation leaves in memory

`c0_mlkem512_encapsulate_derand` with the memory that it writes: the workspace of the caller
and the buffer of the shared secret. Every exit of the function has a cleanup of its own.

* `encapsulateDerandInto_run`: what the memory contains in the end is determined by the
  result of `encapsulateDerand`.
* `writeEach_append`: the three loops of writes are one loop over all chunks.
* `encapsulation_aborts`: the run with a writer that fails at any of its calls, and the one
  with a key that does not pass the check.
-/

namespace C0PQLink

open Foundation

/-! ## The memory -/

inductive Sponge where
  | sha3_256
  | sha3_512
  | shake128
  | shake256
  deriving DecidableEq

/-- A Keccak context: what was absorbed and how many bytes were squeezed. -/
structure KeccakUse where
  sponge : Option Sponge
  absorbed : Bytes
  squeezed : Nat
  deriving DecidableEq

/-- `mlkem_workspace_internal`. -/
structure MlkemWorkspace where
  accumulator : Polynomial
  temporary : Polynomial
  keccak : KeccakUse
  rho : Bytes
  coins : Block 32
  pack : Block 8
  generated : UInt16
  publicKeyOffset : UInt16

/-- The workspace with all bytes zero. -/
def MlkemWorkspace.zero : MlkemWorkspace where
  accumulator := fun _ => 0
  temporary := fun _ => 0
  keccak := ⟨none, [], 0⟩
  rho := List.replicate 32 0
  coins := Block.zero 32
  pack := Block.zero 8
  generated := 0
  publicKeyOffset := 0

structure EncapsulationMemory where
  workspace : MlkemWorkspace
  sharedSecret : Block 32

/-- The first bytes of `pack`. -/
def MlkemWorkspace.packed (workspace : MlkemWorkspace) (chunk : Bytes) : MlkemWorkspace :=
  { workspace with
    pack := ⟨(chunk ++ workspace.pack.val.drop chunk.length).take 8, by
      simp only [List.length_take, List.length_append, List.length_drop, Block.length_val]
      omega⟩ }

variable (hashes : Fips203.Hashes)

namespace MlkemWorkspace

/-- `sample_cbd` into `temporary`. -/
def sampleCbd (workspace : MlkemWorkspace) (nonce : UInt8) (eta : Nat) : MlkemWorkspace :=
  { workspace with
    temporary := C0PQLink.sampleCbd hashes workspace.coins.val nonce eta
    keccak := ⟨some .shake256, workspace.coins.val ++ [nonce], 64 * eta⟩ }

/-- One column of a row. -/
def addColumn (zetaData : Nat → Int16) (row : Nat) (workspace : MlkemWorkspace) (column : Nat) :
    MlkemWorkspace :=
  let workspace := workspace.sampleCbd hashes (UInt8.ofNat column) 3
  let workspace := { workspace with temporary := ntt workspace.temporary }
  let seed := workspace.rho ++ [UInt8.ofNat row, UInt8.ofNat column]
  { workspace with
    accumulator := matrixProductAdd hashes zetaData workspace.accumulator workspace.temporary
      workspace.rho (UInt8.ofNat row) (UInt8.ofNat column)
    keccak := ⟨some .shake128, seed, 3 * ((sampleNttPosition hashes seed 256 + 1) / 2)⟩ }

/-- The sum in the accumulator is reduced and transformed back, and noise is added. -/
def finishAccumulator (workspace : MlkemWorkspace) (nonce : UInt8) : MlkemWorkspace :=
  let workspace := { workspace with
    accumulator := fun i => barrettReduce (workspace.accumulator i) }
  let workspace := { workspace with accumulator := inverseNtt workspace.accumulator }
  let workspace := workspace.sampleCbd hashes nonce 2
  { workspace with accumulator := fun i => workspace.accumulator i + workspace.temporary i }

/-- The body of the loop over the rows, up to the writes. -/
def computeRow (zetaData : Nat → Int16) (row : Nat) (workspace : MlkemWorkspace) :
    MlkemWorkspace :=
  let workspace := { workspace with accumulator := fun _ => 0 }
  let workspace := (List.range 2).foldl (addColumn hashes zetaData row) workspace
  workspace.finishAccumulator hashes (UInt8.ofNat (2 + row))

/-- One column of the product with the public vector, whose bytes are `encoded`. -/
def addKeyColumn (workspace : MlkemWorkspace) (column : Nat) (encoded : Bytes) :
    MlkemWorkspace :=
  let workspace := workspace.sampleCbd hashes (UInt8.ofNat column) 3
  let workspace := { workspace with temporary := ntt workspace.temporary }
  { workspace with
    accumulator := multiplyAdd loadZeta workspace.accumulator (keyCoefficients encoded)
      workspace.temporary }

end MlkemWorkspace

/-! ## The function -/

section

variable {m : Type → Type} [Monad m] (readPublicKey : UInt16 → m UInt8)
  (writeCiphertext : Bytes → m Status)

/-- Writes until one fails, each from `pack`. -/
def writeEachInto :
    List Bytes → EncapsulationMemory → m (Status × EncapsulationMemory)
  | [], memory => return (.ok, memory)
  | chunk :: rest, memory => do
    let memory := { memory with workspace := memory.workspace.packed chunk }
    let status ← writeCiphertext chunk
    if status ≠ .ok then return (.errIo, memory)
    writeEachInto rest memory

/-- `validate_and_hash_public_key` into `rho` and the Keccak context. -/
def validateAndHashPublicKeyInto (memory : EncapsulationMemory) :
    m (Except Status (Block 32) × EncapsulationMemory) := do
  let key ← readKeyBytes readPublicKey 0 800
  let hashed := { memory.workspace with keccak := ⟨some .sha3_256, key, 32⟩ }
  let canonical ← checkTriples readPublicKey 256 0
  if !canonical then return (.error .errKeyEncoding, { memory with workspace := hashed })
  let rho ← readKeyBytes readPublicKey 768 32
  return (.ok (hashes.hashH key), { memory with workspace := { hashed with rho } })

/-- `derive_k_and_coins` into the buffer of the caller and `coins`. -/
def deriveKAndCoinsInto (randomness publicKeyHash : Block 32) (memory : EncapsulationMemory) :
    EncapsulationMemory :=
  let (sharedSecret, coins) := deriveKAndCoins hashes randomness publicKeyHash
  { workspace := { memory.workspace with
      keccak := ⟨some .sha3_512, randomness.val ++ publicKeyHash.val, 64⟩
      coins }
    sharedSecret }

/-- The rows, with the cleanup in the body of the loop. -/
def writeRowsInto (zetaData : Nat → Int16) :
    List Nat → EncapsulationMemory → m (Status × EncapsulationMemory)
  | [], memory => return (.ok, memory)
  | row :: rest, memory => do
    let memory := { memory with workspace := memory.workspace.computeRow hashes zetaData row }
    let (status, memory) ← writeEachInto writeCiphertext
      ((List.range 64).map (packU memory.workspace.accumulator)) memory
    if status ≠ .ok then return (status, ⟨.zero, Block.zero 32⟩)
    writeRowsInto zetaData rest memory

/-- The second part of the ciphertext, before its writes. -/
def computeMessage (workspace : MlkemWorkspace) : m MlkemWorkspace := do
  let workspace := { workspace with accumulator := fun _ => 0 }
  let encoded ← readKeyBytes readPublicKey 0 384
  let workspace := workspace.addKeyColumn hashes 0 encoded
  let encoded ← readKeyBytes readPublicKey 384 384
  let workspace := workspace.addKeyColumn hashes 1 encoded
  return workspace.finishAccumulator hashes 4

/-- The second part of the ciphertext, with the last cleanup. -/
def writeMessageInto (randomness : Block 32) (memory : EncapsulationMemory) :
    m (Status × EncapsulationMemory) := do
  let workspace ← computeMessage hashes readPublicKey memory.workspace
  let memory := { memory with workspace }
  let (status, memory) ← writeEachInto writeCiphertext
    ((List.range 128).map (packV memory.workspace.accumulator randomness.val)) memory
  let sharedSecret := if status ≠ .ok then Block.zero 32 else memory.sharedSecret
  return (status, { workspace := .zero, sharedSecret })

/-- `c0_mlkem512_encapsulate_derand`: its status and the memory that it leaves. -/
def encapsulateDerandInto (zetaData : Nat → Int16) (randomness : Block 32)
    (memory : EncapsulationMemory) : m (Status × EncapsulationMemory) := do
  let memory := { memory with workspace := .zero }
  let (validated, memory) ← validateAndHashPublicKeyInto hashes readPublicKey memory
  match validated with
  | .error status => return (status, { memory with workspace := .zero })
  | .ok publicKeyHash =>
    let memory := deriveKAndCoinsInto hashes randomness publicKeyHash memory
    let (status, memory) ← writeRowsInto hashes writeCiphertext zetaData [0, 1] memory
    if status ≠ .ok then return (status, memory)
    writeMessageInto hashes readPublicKey writeCiphertext randomness memory

/-- The status and the memory at the end, from the result of `encapsulateDerand`. -/
def memoryAfter (memory : EncapsulationMemory) :
    Except Status (Block 32) → Status × EncapsulationMemory
  | .ok sharedSecret => (.ok, ⟨.zero, sharedSecret⟩)
  | .error .errKeyEncoding => (.errKeyEncoding, ⟨.zero, memory.sharedSecret⟩)
  | .error failure => (failure, ⟨.zero, Block.zero 32⟩)

end

/-! ## The memory follows the result -/

section

theorem foldl_addColumn (zetaData : Nat → Int16) (row : Nat) (columns : List Nat)
    (workspace : MlkemWorkspace) :
    let columnsAdded := columns.foldl (MlkemWorkspace.addColumn hashes zetaData row) workspace
    columnsAdded.accumulator = columns.foldl (fun accumulator column =>
        matrixProductAdd hashes zetaData accumulator
          (ntt (sampleCbd hashes workspace.coins.val (UInt8.ofNat column) 3)) workspace.rho
          (UInt8.ofNat row) (UInt8.ofNat column)) workspace.accumulator
      ∧ columnsAdded.rho = workspace.rho ∧ columnsAdded.coins = workspace.coins := by
  induction columns generalizing workspace with
  | nil => exact ⟨rfl, rfl, rfl⟩
  | cons column columns ih => exact ih (workspace.addColumn hashes zetaData row column)

theorem computeRow_accumulator (zetaData : Nat → Int16) (row : Nat) (workspace : MlkemWorkspace) :
    (workspace.computeRow hashes zetaData row).accumulator
      = rowPolynomial hashes zetaData workspace.rho workspace.coins.val row := by
  obtain ⟨haccumulator, -, hcoins⟩ := foldl_addColumn hashes zetaData row
    (List.range 2) { workspace with accumulator := fun _ => 0 }
  simp only [MlkemWorkspace.computeRow, MlkemWorkspace.finishAccumulator,
    MlkemWorkspace.sampleCbd, rowPolynomial, haccumulator, hcoins]

theorem computeMessage_accumulator (workspace : MlkemWorkspace) (encoded0 encoded1 : Bytes) :
    (((({ workspace with accumulator := fun _ => 0 } : MlkemWorkspace).addKeyColumn hashes 0
        encoded0).addKeyColumn hashes 1 encoded1).finishAccumulator hashes 4).accumulator
      = messagePolynomial hashes workspace.coins.val fun column =>
          if column = 0 then encoded0 else encoded1 := by
  have hcolumns : List.range 2 = [0, 1] := rfl
  simp only [MlkemWorkspace.finishAccumulator, MlkemWorkspace.addKeyColumn,
    MlkemWorkspace.sampleCbd, messagePolynomial, hcolumns, List.foldl_cons, List.foldl_nil,
    if_true, if_neg Nat.one_ne_zero]

theorem computeRow_inputs (zetaData : Nat → Int16) (row : Nat) (workspace : MlkemWorkspace) :
    (workspace.computeRow hashes zetaData row).rho = workspace.rho
      ∧ (workspace.computeRow hashes zetaData row).coins = workspace.coins := by
  obtain ⟨-, hrho, hcoins⟩ := foldl_addColumn hashes zetaData row
    (List.range 2) { workspace with accumulator := fun _ => 0 }
  simp only [MlkemWorkspace.computeRow, MlkemWorkspace.finishAccumulator,
    MlkemWorkspace.sampleCbd, hrho, hcoins, and_self]

end

section

variable {m : Type → Type} [Monad m] [LawfulMonad m] {β : Type}
  (readPublicKey : UInt16 → m UInt8) (writeCiphertext : Bytes → m Status)

/-- What follows the writes does not look at `pack`. -/
theorem writeEachInto_bind {f : Status × EncapsulationMemory → m β}
    (hf : ∀ status memory chunk,
      f (status, { memory with workspace := memory.workspace.packed chunk }) = f (status, memory))
    (chunks : List Bytes) (memory : EncapsulationMemory) :
    writeEachInto writeCiphertext chunks memory >>= f
      = writeEach writeCiphertext chunks >>= fun status => f (status, memory) := by
  induction chunks generalizing memory with
  | nil => rw [writeEachInto, writeEach, pure_bind, pure_bind]
  | cons chunk rest ih =>
    rw [writeEachInto, writeEach, bind_assoc, bind_assoc]
    congr 1
    funext status
    split
    · rw [pure_bind, pure_bind, hf]
    · rw [ih]
      simp only [hf]

/-- A loop of writes succeeds or returns `C0PQLINK_ERR_IO`. -/
theorem writeEach_bind_congr {f g : Status → m β} (hok : f .ok = g .ok)
    (hfailed : f .errIo = g .errIo) (chunks : List Bytes) :
    writeEach writeCiphertext chunks >>= f = writeEach writeCiphertext chunks >>= g := by
  induction chunks with
  | nil => rw [writeEach, pure_bind, pure_bind, hok]
  | cons chunk rest ih =>
    rw [writeEach, bind_assoc, bind_assoc]
    congr 1
    funext status
    split
    · rw [pure_bind, pure_bind, hfailed]
    · exact ih

variable (zetaData : Nat → Int16)

theorem writeRows_bind_congr {f g : Status → m β} (hok : f .ok = g .ok)
    (hfailed : f .errIo = g .errIo) (rho coins : Bytes) (rows : List Nat) :
    writeRows hashes writeCiphertext zetaData rho coins rows >>= f
      = writeRows hashes writeCiphertext zetaData rho coins rows >>= g := by
  induction rows with
  | nil => rw [writeRows, pure_bind, pure_bind, hok]
  | cons row rest ih =>
    rw [writeRows, bind_assoc, bind_assoc]
    refine writeEach_bind_congr writeCiphertext ?_ ?_ _
    · exact ih
    · simp only [ne_eq, reduceCtorEq, not_false_eq_true, if_true, pure_bind, hfailed]

/-- What follows the rows uses the seeds and the shared secret. -/
theorem writeRowsInto_bind {f : Status × EncapsulationMemory → m β}
    (hf : ∀ memory memory' : EncapsulationMemory, memory.workspace.rho = memory'.workspace.rho →
      memory.workspace.coins = memory'.workspace.coins →
      memory.sharedSecret = memory'.sharedSecret → f (.ok, memory) = f (.ok, memory'))
    (rows : List Nat) (memory : EncapsulationMemory) :
    writeRowsInto hashes writeCiphertext zetaData rows memory >>= f
      = writeRows hashes writeCiphertext zetaData memory.workspace.rho
          memory.workspace.coins.val rows >>= fun status =>
        if status ≠ .ok then f (status, ⟨.zero, Block.zero 32⟩) else f (.ok, memory) := by
  induction rows generalizing memory with
  | nil =>
    rw [writeRowsInto, writeRows, pure_bind, pure_bind]
    rfl
  | cons row rest ih =>
    rw [writeRowsInto, writeRows, bind_assoc, bind_assoc]
    simp only
    rw [writeEachInto_bind]
    · rw [computeRow_accumulator]
      obtain ⟨hrho, hcoins⟩ := computeRow_inputs hashes zetaData row memory.workspace
      refine writeEach_bind_congr writeCiphertext ?_ ?_ _
      · simp only [ne_eq, not_true, if_false]
        rw [ih]
        simp only [hrho, hcoins]
        refine bind_congr fun status => ?_
        split
        · rfl
        · exact hf _ _ hrho hcoins rfl
      · simp only [ne_eq, reduceCtorEq, not_false_eq_true, if_true, pure_bind]
    · intro status packed chunk
      split
      · rw [pure_bind]
      · rw [ih, ih]
        refine bind_congr fun status => ?_
        split
        · rfl
        · exact hf _ _ rfl rfl rfl

theorem writeMessageInto_eq (randomness : Block 32) (memory : EncapsulationMemory) :
    writeMessageInto hashes readPublicKey writeCiphertext randomness memory = (do
      let encoded0 ← readKeyBytes readPublicKey 0 384
      let encoded1 ← readKeyBytes readPublicKey 384 384
      let accumulator := messagePolynomial hashes memory.workspace.coins.val fun column =>
        if column = 0 then encoded0 else encoded1
      let status ← writeCompressedV writeCiphertext accumulator randomness.val
      return (status, ⟨.zero, if status ≠ .ok then Block.zero 32 else memory.sharedSecret⟩)) := by
  rw [writeMessageInto, computeMessage]
  simp only [bind_assoc, pure_bind]
  refine bind_congr fun encoded0 => bind_congr fun encoded1 => ?_
  rw [← computeMessage_accumulator]
  generalize MlkemWorkspace.finishAccumulator hashes _ _ = workspace
  exact writeEachInto_bind writeCiphertext (fun _ _ _ => rfl) _ _

/-- The status and the memory at the end are determined by the result of the encapsulation,
whatever its callbacks do. -/
theorem encapsulateDerandInto_run (randomness : Block 32) (memory : EncapsulationMemory) :
    encapsulateDerandInto hashes readPublicKey writeCiphertext zetaData randomness memory
      = memoryAfter memory
        <$> encapsulateDerand hashes readPublicKey writeCiphertext zetaData randomness := by
  rw [encapsulateDerandInto, encapsulateDerand, validateAndHashPublicKeyInto,
    validateAndHashPublicKey]
  simp only [bind_assoc, map_eq_pure_bind]
  refine bind_congr fun key => bind_congr fun canonical => ?_
  split
  · simp only [pure_bind]
    rfl
  simp only [bind_assoc, pure_bind]
  refine bind_congr fun rho => ?_
  rw [writeRowsInto_bind]
  · refine writeRows_bind_congr hashes writeCiphertext zetaData ?_ ?_ _ _ _
    · simp only [ne_eq, not_true, if_false, writeMessageInto_eq, bind_assoc]
      refine bind_congr fun encoded0 => bind_congr fun encoded1 => ?_
      refine writeEach_bind_congr writeCiphertext ?_ ?_ _
      · simp only [not_true, if_false, pure_bind]
        rfl
      · simp only [reduceCtorEq, not_false_eq_true, if_true, pure_bind]
        rfl
    · simp only [ne_eq, reduceCtorEq, not_false_eq_true, if_true, pure_bind]
      rfl
  · intro memory memory' hrho hcoins hsecret
    simp only [ne_eq, not_true, if_false, writeMessageInto_eq, hcoins, hsecret]

end

/-! ## One loop of writes -/

section

variable {m : Type → Type} [Monad m] [LawfulMonad m] (writeCiphertext : Bytes → m Status)

theorem writeEach_append (chunks more : List Bytes) :
    writeEach writeCiphertext (chunks ++ more) = (do
      let status ← writeEach writeCiphertext chunks
      if status ≠ .ok then return status
      writeEach writeCiphertext more) := by
  induction chunks with
  | nil =>
    rw [writeEach, pure_bind]
    rfl
  | cons chunk rest ih =>
    rw [List.cons_append, writeEach, writeEach, bind_assoc]
    refine bind_congr fun status => ?_
    split
    · rw [pure_bind]
      rfl
    · exact ih

variable (zetaData : Nat → Int16)

theorem writeRows_eq (rho coins : Bytes) (rows : List Nat) :
    writeRows hashes writeCiphertext zetaData rho coins rows
      = writeEach writeCiphertext (rows.flatMap fun row =>
          (List.range 64).map (packU (rowPolynomial hashes zetaData rho coins row))) := by
  induction rows with
  | nil => rfl
  | cons row rest ih =>
    rw [List.flatMap_cons, writeEach_append, writeRows, ih]
    rfl

end

section

variable (zetaData : Nat → Int16) (ek : Block 800) (randomness : Block 32)

/-- The whole ciphertext is written chunk after chunk. -/
theorem encapsulateDerand_canonical (writeCiphertext : Bytes → StateM (List Bytes) Status)
    (hcanonical : Fips203.Canonical ek) :
    encapsulateDerand hashes (keyReader ek) writeCiphertext zetaData randomness = (do
      let status ← writeEach writeCiphertext (chunksWith hashes ek randomness zetaData)
      if status ≠ .ok then return .error status
      return .ok (secretAndCoins hashes ek randomness).1) := by
  rw [encapsulateDerand, validateAndHashPublicKey_keyReader, if_pos hcanonical, pure_bind,
    chunksWith]
  simp only
  rw [writeEach_append, writeRows_eq, bind_assoc]
  refine writeEach_bind_congr writeCiphertext ?_ ?_ _
  · simp only [ne_eq, not_true, if_false]
    rw [readKeyBytes_keyReader ek (by decide), pure_bind, readKeyBytes_keyReader ek (by decide),
      pure_bind]
    rfl
  · simp only [ne_eq, reduceCtorEq, not_false_eq_true, if_true, pure_bind]

theorem encapsulateDerand_rejected (writeCiphertext : Bytes → StateM (List Bytes) Status)
    (hcanonical : ¬ Fips203.Canonical ek) :
    encapsulateDerand hashes (keyReader ek) writeCiphertext zetaData randomness
      = pure (.error .errKeyEncoding) := by
  rw [encapsulateDerand, validateAndHashPublicKey_keyReader, if_neg hcanonical, pure_bind]

end

/-! ## Writers that fail -/

/-- A writer that answers by the payloads of its calls so far, which it keeps. -/
def answeringWriter (answers : List Bytes → Status) (data : Bytes) :
    StateM (List Bytes) Status := fun calls => (answers (calls ++ [data]), calls ++ [data])

/-- Call `n` is the first one that fails, of the calls with these payloads. -/
structure FailsFirst (answers : List Bytes → Status) (payloads : List Bytes) (n : Nat) : Prop where
  pos : 0 < n
  le : n ≤ payloads.length
  succeeds : ∀ k < n, 0 < k → answers (payloads.take k) = .ok
  fails : answers (payloads.take n) ≠ .ok

/-- A loop that is entered after `calls` ends with the first call that fails. -/
theorem writeEach_answeringWriter {answers : List Bytes → Status} {n : Nat} (hn : 0 < n)
    (chunks calls : List Bytes) (hle : n ≤ chunks.length)
    (hsucceeds : ∀ k < n, 0 < k → answers (calls ++ chunks.take k) = .ok)
    (hfails : answers (calls ++ chunks.take n) ≠ .ok) :
    (writeEach (answeringWriter answers) chunks).run calls = (.errIo, calls ++ chunks.take n) := by
  induction chunks generalizing calls n with
  | nil => exact absurd hle (by simp; omega)
  | cons chunk rest ih =>
    obtain ⟨n, rfl⟩ : ∃ k, n = k + 1 := ⟨n - 1, by omega⟩
    have hcall : (answeringWriter answers chunk).run calls
        = (answers (calls ++ [chunk]), calls ++ [chunk]) := rfl
    rw [writeEach, stateT_run_bind hcall]
    rcases Nat.eq_zero_or_pos n with rfl | hpos
    · have hfirst : answers (calls ++ [chunk]) ≠ .ok := hfails
      rw [if_pos hfirst]
      rfl
    · have hfirst : answers (calls ++ [chunk]) = .ok := hsucceeds 1 (by omega) (by omega)
      have hstep (k : Nat) : calls ++ (chunk :: rest).take (k + 1)
          = calls ++ [chunk] ++ rest.take k := by
        rw [List.take_succ_cons, List.append_assoc]
        rfl
      rw [if_neg (not_not.mpr hfirst), hstep n]
      rw [hstep n] at hfails
      refine ih hpos (calls ++ [chunk]) (Nat.le_of_succ_le_succ hle) (fun k hk hkpos => ?_) hfails
      rw [← hstep k]
      exact hsucceeds (k + 1) (by omega) (by omega)

/-- A writer that fails ends the encapsulation at once, and nothing secret is left in the
memory; a key that does not pass the check ends it before any write. -/
theorem encapsulation_aborts (zetaData : Nat → Int16) (ek : Block 800) (randomness : Block 32)
    (answers : List Bytes → Status) (memory : EncapsulationMemory) :
    (Fips203.Canonical ek →
      ∀ n, FailsFirst answers (encapsulation hashes zetaData ek randomness).2 n →
        ∃ calls, (encapsulateDerandInto hashes (keyReader ek) (answeringWriter answers) zetaData
            randomness memory).run [] = ((.errIo, ⟨.zero, Block.zero 32⟩), calls)
          ∧ calls.length = n
          ∧ (calls.take (n - 1)).flatten <+: (encapsulation hashes zetaData ek randomness).2.flatten)
      ∧ (¬ Fips203.Canonical ek →
        (encapsulateDerandInto hashes (keyReader ek) (answeringWriter answers) zetaData randomness
          memory).run [] = ((.errKeyEncoding, ⟨.zero, memory.sharedSecret⟩), [])) := by
  rw [encapsulateDerandInto_run]
  constructor
  · intro hcanonical n hfirst
    have hchunks : (encapsulation hashes zetaData ek randomness).2
        = chunksWith hashes ek randomness zetaData := by
      rw [encapsulation_canonical hashes ek randomness zetaData hcanonical]
    rw [hchunks] at hfirst ⊢
    have hwritten := writeEach_answeringWriter hfirst.pos (chunksWith hashes ek randomness zetaData)
      [] hfirst.le hfirst.succeeds hfirst.fails
    refine ⟨(chunksWith hashes ek randomness zetaData).take n, ?_, ?_, ?_⟩
    · rw [encapsulateDerand_canonical hashes zetaData ek randomness _ hcanonical,
        map_eq_pure_bind, bind_assoc, stateT_run_bind hwritten]
      rfl
    · rw [List.length_take]
      exact Nat.min_eq_left hfirst.le
    · rw [List.take_take, Nat.min_eq_left (Nat.sub_le n 1)]
      exact ((List.take_prefix _ _).flatten)
  · intro hcanonical
    rw [encapsulateDerand_rejected hashes zetaData ek randomness _ hcanonical]
    rfl

end C0PQLink
