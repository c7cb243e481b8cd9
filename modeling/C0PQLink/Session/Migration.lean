import C0PQLink.Foundation.Interaction
import C0PQLink.Foundation.TwoSlot
import C0PQLink.Session.Crypto

/-!
# The migration journal

`session/migration.c`. The storage callbacks `read_record` and `write_record` are the
calls of a `Program`; a read is answered by its status and the 52 bytes it left in the
output buffer, a write by its status. The state of a value is the integer behind the C
enumeration, which the code compares with the range of its three members.

* `decodeRecord_encodeRecord`: a record that can be written is read back unchanged.
* `decodeRecord_iff`: the records that are accepted are those that can be written.
-/

namespace C0PQLink

open Foundation

variable (sha256 : Bytes → Block 32)

/-! ## Values and records -/

def migrationLegacyPsk : Int := 0
def migrationPskPlusPq : Int := 1
def migrationPqRequiredWithPskAuth : Int := 2

structure MigrationValue where
  generation : UInt32
  state : Int
  activeKeySlot : UInt8
  epoch : UInt64
  keyId : Block 16
  deriving DecidableEq

/-- A value as the journal can hold it: the ranges that `decode_record` checks. -/
structure MigrationValue.Storable (value : MigrationValue) : Prop where
  state_nonneg : migrationLegacyPsk ≤ value.state
  state_le : value.state ≤ migrationPqRequiredWithPskAuth
  slot_le : value.activeKeySlot ≤ 1
  generation_ne : value.generation ≠ 0

abbrev MigrationRecord := Block 52

/-- The 36 bytes that the tag of a record covers. -/
def recordCore (value : MigrationValue) : Bytes :=
  [0x43, 0x30, 0x4d, 0x4a, 1, UInt8.ofInt value.state, value.activeKeySlot, 0]
    ++ store32BE value.generation ++ store64BE value.epoch ++ value.keyId.val

@[simp] theorem length_recordCore (value : MigrationValue) : (recordCore value).length = 36 := by
  simp [recordCore]

def encodeRecord (value : MigrationValue) (journalKey : Block 32) : MigrationRecord :=
  ⟨recordCore value
    ++ (authTag sha256 journalKey "C0PQ/1 migration journal" (recordCore value)).val, by simp⟩

def decodeRecord (input : MigrationRecord) (journalKey : Block 32) :
    Except Status MigrationValue :=
  let raw := input.val
  if byteAt raw 0 ≠ 0x43 ∨ byteAt raw 1 ≠ 0x30 ∨ byteAt raw 2 ≠ 0x4d ∨ byteAt raw 3 ≠ 0x4a
      ∨ byteAt raw 4 ≠ 1 ∨ byteAt raw 5 > 2 ∨ byteAt raw 6 > 1 ∨ byteAt raw 7 ≠ 0 then
    .error .errState
  else
    match verifyAuthTag sha256 (slice raw 36 16) journalKey "C0PQ/1 migration journal"
        (slice raw 0 36) with
    | .ok =>
      let value : MigrationValue :=
        { generation := load32BE (slice raw 8 4)
          state := (byteAt raw 5).toNat
          activeKeySlot := byteAt raw 6
          epoch := load64BE (slice raw 12 8)
          keyId := blockAt raw 20 16 (by simp [raw]) }
      if value.generation = 0 then .error .errState else .ok value
    | failure => .error failure

/-! ## The storage callbacks -/

inductive JournalCall where
  | read (slot : UInt8)
  | write (slot : UInt8) (record : MigrationRecord)

/-- The answer of a callback: its status, and what a read left in the buffer. -/
abbrev JournalReply : JournalCall → Type
  | .read _ => Int × MigrationRecord
  | .write _ _ => Int

abbrev Journal := Program JournalCall JournalReply

def readRecord (slot : UInt8) : Journal (Int × MigrationRecord) :=
  .perform (JournalCall.read slot)

def writeRecord (slot : UInt8) (record : MigrationRecord) : Journal Int :=
  .perform (JournalCall.write slot record)

def journalReadOk : Int := 0
def journalReadEmpty : Int := 1

/-! ## Load -/

/-- One turn of the loop of `c0pq_migration_load`: the candidate of a slot, if it is
valid, and whether the read failed. -/
def loadSlot (slot : UInt8) (journalKey : Block 32) : Journal (Option MigrationValue × Bool) := do
  let (readResult, raw) ← readRecord slot
  if readResult = journalReadOk then
    match decodeRecord sha256 raw journalKey with
    | .ok candidate => return (some candidate, false)
    | .error _ => return (none, false)
  else return (none, readResult < journalReadOk)

/-- The loaded value and the slot of its record. -/
def migrationLoad (journalKey : Block 32) : Journal (Except Status (MigrationValue × UInt8)) := do
  let (first, firstFailed) ← loadSlot sha256 0 journalKey
  let (second, secondFailed) ← loadSlot sha256 1 journalKey
  match first, second with
  | none, none =>
    return .error (if firstFailed ∨ secondFailed then .errIo else .errState)
  | none, some candidate1 => return .ok (candidate1, 1)
  | some candidate0, none => return .ok (candidate0, 0)
  | some candidate0, some candidate1 =>
    if candidate1.generation > candidate0.generation then return .ok (candidate1, 1)
    else return .ok (candidate0, 0)

/-! ## Initialize and commit -/

def migrationTransitionAllowed (current next : Int) : Bool :=
  if current < migrationLegacyPsk ∨ current > migrationPqRequiredWithPskAuth
      ∨ next < migrationLegacyPsk ∨ next > migrationPqRequiredWithPskAuth then false
  else next ≥ current

/-- The argument check that `c0pq_migration_initialize` and `c0pq_migration_commit` share. -/
def migrationArgumentInvalid (value : MigrationValue) : Bool :=
  value.activeKeySlot > 1 ∨ value.state < migrationLegacyPsk
    ∨ value.state > migrationPqRequiredWithPskAuth

/-- The read-back check after a write: the exact record, and one that decodes. -/
def verifyWritten (slot : UInt8) (raw : MigrationRecord) (journalKey : Block 32) :
    Journal Status := do
  let (readResult, verifyRaw) ← readRecord slot
  if readResult ≠ journalReadOk ∨ raw ≠ verifyRaw then return .errIo
  match decodeRecord sha256 verifyRaw journalKey with
  | .ok _ => return .ok
  | .error _ => return .errIo

def migrationInitialize (initialValue : MigrationValue) (journalKey : Block 32) :
    Journal Status := do
  if migrationArgumentInvalid initialValue then return .errArgument
  let (slot0Status, _) ← readRecord 0
  let (slot1Status, _) ← readRecord 1
  if slot0Status = journalReadOk ∨ slot1Status = journalReadOk then return .errState
  if slot0Status ≠ journalReadEmpty ∨ slot1Status ≠ journalReadEmpty then return .errIo
  let raw := encodeRecord sha256 { initialValue with generation := 1 } journalKey
  let written ← writeRecord 0 raw
  if written ≠ 0 then return .errIo
  verifyWritten sha256 0 raw journalKey

def migrationCommit (nextValue : MigrationValue) (journalKey : Block 32) : Journal Status := do
  if migrationArgumentInvalid nextValue then return .errArgument
  match ← migrationLoad sha256 journalKey with
  | .error failure => return failure
  | .ok (current, currentSlot) =>
    if ¬ migrationTransitionAllowed current.state nextValue.state
        ∨ nextValue.epoch < current.epoch ∨ current.generation = 0xffffffff then
      return .errState
    let raw := encodeRecord sha256
      { nextValue with generation := current.generation + 1 } journalKey
    let targetSlot := currentSlot ^^^ 1
    let written ← writeRecord targetSlot raw
    if written ≠ 0 then return .errIo
    verifyWritten sha256 targetSlot raw journalKey

/-! ## Records round trip -/

theorem byte_ofInt_state {state : Int} (h0 : 0 ≤ state) (h2 : state ≤ 2) :
    UInt8.ofInt state ≤ 2 ∧ ((UInt8.ofInt state).toNat : Int) = state := by
  obtain rfl | rfl | rfl : state = 0 ∨ state = 1 ∨ state = 2 := by omega
  all_goals exact ⟨by decide, by decide⟩

theorem decodeRecord_encodeRecord {value : MigrationValue} (h : value.Storable)
    (journalKey : Block 32) :
    decodeRecord sha256 (encodeRecord sha256 value journalKey) journalKey = .ok value := by
  obtain ⟨h0, h2, hslot, hgen⟩ := h
  obtain ⟨hbyte, hstate⟩ := byte_ofInt_state h0 h2
  have hcore : slice (encodeRecord sha256 value journalKey).val 0 36 = recordCore value := by
    rw [encodeRecord, slice_append_left (by simp), slice_self _ (by simp)]
  have htag : slice (encodeRecord sha256 value journalKey).val 36 16
      = (authTag sha256 journalKey "C0PQ/1 migration journal" (recordCore value)).val :=
    slice_last (by simp) (by simp)
  have hgeneration : slice (encodeRecord sha256 value journalKey).val 8 4
      = store32BE value.generation := by
    rw [encodeRecord, slice_append_left (by simp), recordCore, slice_append_left (by simp)]
    exact slice_field rfl (by simp)
  have hepoch : slice (encodeRecord sha256 value journalKey).val 12 8
      = store64BE value.epoch := by
    rw [encodeRecord, slice_append_left (by simp), recordCore]
    exact slice_field (by simp) (by simp)
  have hkey : slice (encodeRecord sha256 value journalKey).val 20 16 = value.keyId.val := by
    rw [encodeRecord, slice_append_left (by simp), recordCore]
    exact slice_last (by simp) (by simp)
  have hinitial : ∀ i, i < 8 → byteAt (encodeRecord sha256 value journalKey).val i
      = byteAt [0x43, 0x30, 0x4d, 0x4a, 1, UInt8.ofInt value.state, value.activeKeySlot, 0] i := by
    intro i hi
    simp only [encodeRecord, recordCore, List.append_assoc]
    exact byteAt_append_left hi
  have hblock : blockAt (encodeRecord sha256 value journalKey).val 20 16 (by simp) = value.keyId :=
    Block.ext hkey
  have hstate5 : ¬ UInt8.ofInt value.state > 2 := UInt8.not_lt.mpr hbyte
  have hslot6 : ¬ value.activeKeySlot > 1 := UInt8.not_lt.mpr hslot
  simp only [decodeRecord, hinitial 0 (by omega), hinitial 1 (by omega), hinitial 2 (by omega),
    hinitial 3 (by omega), hinitial 4 (by omega), hinitial 5 (by omega), hinitial 6 (by omega),
    hinitial 7 (by omega), hcore, htag, hgeneration, hepoch, hblock, load32BE_store32BE,
    load64BE_store64BE]
  simp [byteAt, hstate5, hslot6, verifyAuthTag, hgen, hstate]

/-- The bytes of a record: eight single ones, the fields and the tag. -/
theorem record_parts (record : MigrationRecord) :
    record.val = [byteAt record.val 0, byteAt record.val 1, byteAt record.val 2,
        byteAt record.val 3, byteAt record.val 4, byteAt record.val 5, byteAt record.val 6,
        byteAt record.val 7]
      ++ slice record.val 8 4 ++ slice record.val 12 8 ++ slice record.val 20 16
      ++ slice record.val 36 16 := by
  obtain ⟨raw, hraw⟩ := record
  have height : slice raw 0 8 = [byteAt raw 0, byteAt raw 1, byteAt raw 2, byteAt raw 3,
      byteAt raw 4, byteAt raw 5, byteAt raw 6, byteAt raw 7] := by
    match raw, hraw with
    | b0 :: b1 :: b2 :: b3 :: b4 :: b5 :: b6 :: b7 :: rest, _ => rfl
  dsimp only
  rw [← height, slice_append_slice raw 0 8 4, slice_append_slice raw 0 12 8,
    slice_append_slice raw 0 20 16, slice_append_slice raw 0 36 16, slice_self raw hraw]

/-- What is accepted is what is written for the value that is returned. -/
theorem encodeRecord_decodeRecord {record : MigrationRecord} {journalKey : Block 32}
    {value : MigrationValue} (h : decodeRecord sha256 record journalKey = .ok value) :
    value.Storable ∧ encodeRecord sha256 value journalKey = record := by
  have hparts := record_parts record
  unfold decodeRecord at h
  dsimp only at h
  split at h
  · cases h
  rename_i hshape
  simp only [not_or, not_not, gt_iff_lt, UInt8.not_lt] at hshape
  obtain ⟨h0, h1, h2, h3, h4, hstate, hslot, h7⟩ := hshape
  split at h
  case h_2 => cases h
  rename_i htag
  split at h
  · cases h
  rename_i hgeneration
  have hvalue := Except.ok.inj h
  subst hvalue
  have hgenerationBytes : store32BE (load32BE (slice record.val 8 4)) = slice record.val 8 4 :=
    store32BE_load32BE (by simp)
  have hepochBytes : store64BE (load64BE (slice record.val 12 8)) = slice record.val 12 8 :=
    store64BE_load64BE (by simp)
  have hstateByte : UInt8.ofInt ((byteAt record.val 5).toNat : Int) = byteAt record.val 5 := by
    apply UInt8.toNat_inj.mp
    have hlt := (byteAt record.val 5).toNat_lt
    rw [UInt8.ofInt, UInt8.toNat_ofNat']
    omega
  have hstateNat : (byteAt record.val 5).toNat ≤ 2 := hstate
  refine ⟨⟨?_, ?_, hslot, hgeneration⟩, Block.ext ?_⟩
  · simp only [migrationLegacyPsk]
    omega
  · simp only [migrationPqRequiredWithPskAuth]
    omega
  have hcore : recordCore
      { generation := load32BE (slice record.val 8 4)
        state := (byteAt record.val 5).toNat
        activeKeySlot := byteAt record.val 6
        epoch := load64BE (slice record.val 12 8)
        keyId := blockAt record.val 20 16 (by simp) } = slice record.val 0 36 := by
    conv_rhs => rw [hparts, h0, h1, h2, h3, h4, h7]
    rw [slice_self_append (by simp)]
    simp only [recordCore, hgenerationBytes, hepochBytes, hstateByte, blockAt]
  have htagBytes := (verifyAuthTag_eq_ok sha256).mp htag
  simp only [encodeRecord, hcore, htagBytes]
  rw [slice_append_slice record.val 0 36 16, slice_self record.val record.property]

theorem decodeRecord_iff (record : MigrationRecord) (journalKey : Block 32)
    (value : MigrationValue) :
    decodeRecord sha256 record journalKey = .ok value ↔
      value.Storable ∧ encodeRecord sha256 value journalKey = record := by
  constructor
  · exact encodeRecord_decodeRecord sha256
  · rintro ⟨hstorable, rfl⟩
    exact decodeRecord_encodeRecord sha256 hstorable journalKey

/-- The records that are accepted and the values that can be written determine each other. -/
theorem migrationRecords_canonical (journalKey : Block 32) :
    (∀ record value, decodeRecord sha256 record journalKey = .ok value ↔
        value.Storable ∧ encodeRecord sha256 value journalKey = record)
      ∧ (∀ value, value.Storable →
        decodeRecord sha256 (encodeRecord sha256 value journalKey) journalKey = .ok value)
      ∧ (∀ record value, decodeRecord sha256 record journalKey = .ok value →
        encodeRecord sha256 value journalKey = record)
      ∧ ∀ value value', value.Storable → value'.Storable →
        encodeRecord sha256 value journalKey = encodeRecord sha256 value' journalKey →
          value = value' := by
  refine ⟨fun record value => decodeRecord_iff sha256 record journalKey value,
    fun value hvalue => decodeRecord_encodeRecord sha256 hvalue journalKey,
    fun record value h => (encodeRecord_decodeRecord sha256 h).2, ?_⟩
  intro value value' hvalue hvalue' hsame
  have h := decodeRecord_encodeRecord sha256 hvalue journalKey
  rw [hsame, decodeRecord_encodeRecord sha256 hvalue' journalKey] at h
  exact (Except.ok.inj h).symm

end C0PQLink
