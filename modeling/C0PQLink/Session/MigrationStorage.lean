import C0PQLink.Session.Migration

/-!
# The migration journal on a faulty storage

The storage behind the two callbacks: two slots, each erased or holding 52 bytes, reads
that may fail with a negative status, and a write that may be torn. The faults of one
call of the journal are part of the storage state before it.

* `run_migrationLoad`: load returns the newest of the records it could read.
* `migrationCommit_cases`, `migrationInitialize_cases`: what a commit and an initialization do to the
  slots; every result about runs is derived from them.
-/

namespace C0PQLink

open Foundation TwoSlot

/-! ## The storage -/

/-- The status of a failed read. -/
abbrev ReadFailure := { status : Int // status < 0 }

/-- A write that did not complete: what it left in the slot and the status it returned. -/
structure TornWrite where
  content : Option MigrationRecord
  status : Int

/-- The slots of a journal, `none` for an erased one; the faults of the coming reads, in
order; the fault of the coming write; and the writes made so far, the last one first. -/
structure Storage where
  slots : UInt8 → Option MigrationRecord
  readFaults : List (Option ReadFailure)
  tear : Option TornWrite
  written : List (UInt8 × MigrationRecord)

def Storage.erased : Storage := ⟨fun _ => none, [], none, []⟩

/-- The content a write leaves in its slot. -/
def Storage.afterWrite (s : Storage) (record : MigrationRecord) : Option MigrationRecord :=
  match s.tear with
  | none => some record
  | some torn => torn.content

def Storage.readAnswer (s : Storage) (slot : UInt8) : Int × MigrationRecord :=
  match s.readFaults.headD none with
  | some failure => (failure.val, Block.zero 52)
  | none =>
    match s.slots slot with
    | some record => (journalReadOk, record)
    | none => (journalReadEmpty, Block.zero 52)

def Storage.writeStatus (s : Storage) : Int :=
  match s.tear with
  | none => 0
  | some torn => torn.status

def Storage.write (s : Storage) (slot : UInt8) (record : MigrationRecord) : Storage :=
  { s with
    slots := Function.update s.slots slot (s.afterWrite record)
    written := (slot, record) :: s.written }

def Storage.answer : (e : JournalCall) → Storage → JournalReply e × Storage
  | .read slot, s => (s.readAnswer slot, { s with readFaults := s.readFaults.tail })
  | .write slot record, s => (s.writeStatus, s.write slot record)

/-! ## The records of a storage -/

variable (sha256 : Bytes → Block 32) (journalKey : Block 32)

def slotIndex (i : Bool) : UInt8 := if i then 1 else 0

theorem slotIndex_xor (i : Bool) : slotIndex i ^^^ 1 = slotIndex (!i) := by
  cases i <;> rfl

theorem slotIndex_inj {i j : Bool} (h : slotIndex i = slotIndex j) : i = j := by
  revert h
  cases i <;> cases j <;> decide

def generationOf (value : MigrationValue) : Nat := value.generation.toNat

def decodeSlot (content : Option MigrationRecord) : Option MigrationValue :=
  content.bind fun record => (decodeRecord sha256 record journalKey).toOption

/-- The valid records present in the slots. -/
def Storage.values (s : Storage) : Slots MigrationValue := fun i =>
  decodeSlot sha256 journalKey (s.slots (slotIndex i))

/-- The best valid record present, with its slot. -/
def Storage.durable (s : Storage) : Option (Bool × MigrationValue) :=
  newest generationOf (s.values sha256 journalKey)

/-- Whether the read of a slot by the next load fails. -/
def Storage.readFails (s : Storage) (i : Bool) : Bool :=
  (if i then s.readFaults.tail.headD none else s.readFaults.headD none).isSome

/-- The valid records that the next load can read. -/
def Storage.visible (s : Storage) : Slots MigrationValue := fun i =>
  if s.readFails i then none else s.values sha256 journalKey i

/-- The value and slot that the next load returns. -/
def Storage.loadResult (s : Storage) : Except Status (MigrationValue × UInt8) :=
  match newest generationOf (s.visible sha256 journalKey) with
  | some (i, value) => .ok (value, slotIndex i)
  | none => .error (if s.readFails false ∨ s.readFails true then .errIo else .errState)

section Reads

variable {α : Type}

theorem run_readRecord_bind (s : Storage) (slot : UInt8)
    (f : Int × MigrationRecord → Journal α) :
    (readRecord slot >>= f).run Storage.answer s
      = (f (s.readAnswer slot)).run Storage.answer { s with readFaults := s.readFaults.tail } :=
  Program.run_bind_of rfl f

theorem run_writeRecord_bind (s : Storage) (slot : UInt8) (record : MigrationRecord)
    (f : Int → Journal α) :
    (writeRecord slot record >>= f).run Storage.answer s
      = (f s.writeStatus).run Storage.answer (s.write slot record) :=
  Program.run_bind_of rfl f

theorem run_loadSlot (s : Storage) (slot : UInt8) :
    (loadSlot sha256 slot journalKey).run Storage.answer s =
      ((if (s.readFaults.headD none).isSome then (none, true)
        else (decodeSlot sha256 journalKey (s.slots slot), false)),
       { s with readFaults := s.readFaults.tail }) := by
  simp only [loadSlot, run_readRecord_bind]
  rcases hfault : s.readFaults.headD none with _ | failure
  · rcases hslot : s.slots slot with _ | record
    · have hanswer : s.readAnswer slot = (journalReadEmpty, Block.zero 52) := by
        simp only [Storage.readAnswer, hfault, hslot]
      simp [hanswer, journalReadOk, journalReadEmpty, decodeSlot]
    · have hanswer : s.readAnswer slot = (journalReadOk, record) := by
        simp only [Storage.readAnswer, hfault, hslot]
      cases hd : decodeRecord sha256 record journalKey <;>
        simp [hanswer, decodeSlot, hd, Except.toOption]
  · have hanswer : s.readAnswer slot = (failure.val, Block.zero 52) := by
      simp only [Storage.readAnswer, hfault]
    have hlt : failure.val < journalReadOk := failure.property
    have hne : failure.val ≠ journalReadOk := ne_of_lt hlt
    simp only [hanswer, hne, if_false, hlt, decide_true, Option.isSome_some, if_true,
      Program.run_pure]

theorem run_loadSlot_bind (s : Storage) (slot : UInt8)
    (f : Option MigrationValue × Bool → Journal α) :
    (loadSlot sha256 slot journalKey >>= f).run Storage.answer s =
      (f (if (s.readFaults.headD none).isSome then (none, true)
        else (decodeSlot sha256 journalKey (s.slots slot), false))).run Storage.answer
        { s with readFaults := s.readFaults.tail } :=
  Program.run_bind_of (run_loadSlot sha256 journalKey s slot) f

theorem run_migrationLoad (s : Storage) :
    (migrationLoad sha256 journalKey).run Storage.answer s =
      (s.loadResult sha256 journalKey, { s with readFaults := s.readFaults.tail.tail }) := by
  have hfalse : s.visible sha256 journalKey false
      = (if (s.readFaults.headD none).isSome then none
          else decodeSlot sha256 journalKey (s.slots 0)) := rfl
  have htrue : s.visible sha256 journalKey true
      = (if (s.readFaults.tail.headD none).isSome then none
          else decodeSlot sha256 journalKey (s.slots 1)) := rfl
  simp only [migrationLoad, run_loadSlot_bind, Storage.loadResult, newest, hfalse,
    htrue, Storage.readFails, if_true, Bool.false_eq_true, if_false]
  rcases s.readFaults.headD none with _ | f0 <;>
    rcases s.readFaults.tail.headD none with _ | f1 <;>
    rcases decodeSlot sha256 journalKey (s.slots 0) with _ | v <;>
    rcases decodeSlot sha256 journalKey (s.slots 1) with _ | w <;>
    simp [slotIndex]
  by_cases hlt : v.generation < w.generation
  · have hlt' : generationOf v < generationOf w := hlt
    simp [hlt, hlt']
  · have hlt' : ¬ generationOf v < generationOf w := hlt
    simp [hlt, hlt']

theorem run_migrationLoad_bind (s : Storage)
    (f : Except Status (MigrationValue × UInt8) → Journal α) :
    (migrationLoad sha256 journalKey >>= f).run Storage.answer s =
      (f (s.loadResult sha256 journalKey)).run Storage.answer
        { s with readFaults := s.readFaults.tail.tail } :=
  Program.run_bind_of (run_migrationLoad sha256 journalKey s) f

end Reads

/-! ## What the writers do -/

/-- The one write of a commit or an initialization. -/
structure Writes (s s' : Storage) (slot : UInt8) (record : MigrationRecord) : Prop where
  slots : s'.slots = Function.update s.slots slot (s.afterWrite record)
  written : s'.written = (slot, record) :: s.written

/-- A call that wrote nothing. -/
structure Untouched (s s' : Storage) : Prop where
  slots : s'.slots = s.slots
  written : s'.written = s.written

theorem readAnswer_ok {s : Storage} {slot : UInt8} (h : (s.readAnswer slot).1 = journalReadOk) :
    s.slots slot = some (s.readAnswer slot).2 := by
  unfold Storage.readAnswer at h ⊢
  split at h
  · rename_i failure _
    have hlt : failure.val < journalReadOk := failure.property
    exact absurd h (ne_of_lt hlt)
  · split at h
    · rename_i hslot
      exact hslot
    · cases h

theorem readAnswer_empty {s : Storage} {slot : UInt8}
    (h : (s.readAnswer slot).1 = journalReadEmpty) : s.slots slot = none := by
  unfold Storage.readAnswer at h
  split at h
  · rename_i failure _
    have hlt : failure.val < journalReadOk := failure.property
    have heq : failure.val = journalReadEmpty := h
    unfold journalReadOk journalReadEmpty at *
    omega
  · split at h
    · cases h
    · rename_i hslot
      exact hslot

theorem run_verifyWritten (s : Storage) (slot : UInt8) (raw : MigrationRecord) :
    ((verifyWritten sha256 slot raw journalKey).run Storage.answer s).2
      = { s with readFaults := s.readFaults.tail } := by
  simp only [verifyWritten, run_readRecord_bind, Program.run_ite]
  split
  · rfl
  · cases decodeRecord sha256 (s.readAnswer slot).2 journalKey <;> rfl

theorem verifyWritten_ok {s : Storage} {slot : UInt8} {raw : MigrationRecord}
    (h : ((verifyWritten sha256 slot raw journalKey).run Storage.answer s).1 = .ok) :
    s.slots slot = some raw := by
  simp only [verifyWritten, run_readRecord_bind, Program.run_ite] at h
  split at h
  · cases h
  · rename_i hcheck
    obtain ⟨hstatus, hraw⟩ : (s.readAnswer slot).1 = journalReadOk
        ∧ raw = (s.readAnswer slot).2 := by
      simpa [not_or] using hcheck
    rw [hraw]
    exact readAnswer_ok hstatus

/-- The write of a record and its read-back check, as in a commit and an initialization. -/
theorem run_writeAndVerify (s : Storage) (slot : UInt8) (raw : MigrationRecord) :
    let outcome := (do
      let written ← writeRecord slot raw
      if written ≠ 0 then return .errIo
      verifyWritten sha256 slot raw journalKey : Journal Status).run Storage.answer s
    Writes s outcome.2 slot raw ∧ (outcome.1 = .ok → outcome.2.slots slot = some raw) := by
  simp only [run_writeRecord_bind, Program.run_ite]
  split
  · exact ⟨⟨rfl, rfl⟩, nofun⟩
  · refine ⟨?_, fun h => ?_⟩
    · rw [run_verifyWritten]
      exact ⟨rfl, rfl⟩
    · have hslot := verifyWritten_ok sha256 journalKey h
      rw [run_verifyWritten]
      exact hslot

/-- The checks of a commit against the value it loaded. -/
structure CommitAccepts (current nextValue : MigrationValue) : Prop where
  argument : migrationArgumentInvalid nextValue = false
  transition : migrationTransitionAllowed current.state nextValue.state = true
  epoch : current.epoch ≤ nextValue.epoch
  generation : current.generation ≠ 0xffffffff

/-- The value a commit encodes. -/
def successor (current nextValue : MigrationValue) : MigrationValue :=
  { nextValue with generation := current.generation + 1 }

theorem migrationCommit_cases (s : Storage) (nextValue : MigrationValue) :
    let outcome := (migrationCommit sha256 nextValue journalKey).run Storage.answer s
    (outcome.1 ≠ .ok ∧ Untouched s outcome.2 ∧ ∀ i current,
        newest generationOf (s.visible sha256 journalKey) = some (i, current) →
          ¬ CommitAccepts current nextValue) ∨
      ∃ i current, newest generationOf (s.visible sha256 journalKey) = some (i, current) ∧
        CommitAccepts current nextValue ∧
        Writes s outcome.2 (slotIndex !i)
          (encodeRecord sha256 (successor current nextValue) journalKey) := by
  simp only [migrationCommit, Program.run_ite]
  split
  · rename_i hargument
    refine .inl ⟨by simp, ⟨rfl, rfl⟩, fun _ _ _ haccepts => ?_⟩
    rw [haccepts.argument] at hargument
    cases hargument
  rename_i hargument
  simp only [run_migrationLoad_bind, Storage.loadResult]
  rcases hnewest : newest generationOf (s.visible sha256 journalKey) with _ | ⟨i, current⟩
  · refine .inl ⟨?_, ⟨rfl, rfl⟩, nofun⟩
    simp only [Program.run_pure]
    split <;> simp
  simp only [Program.run_ite, slotIndex_xor]
  split
  · rename_i hreject
    refine .inl ⟨by simp, ⟨rfl, rfl⟩, fun _ _ heq haccepts => ?_⟩
    cases heq
    rcases hreject with htransition | hepoch | hgeneration
    · exact htransition haccepts.transition
    · exact UInt64.not_lt.mpr haccepts.epoch hepoch
    · exact haccepts.generation hgeneration
  rename_i hreject
  simp only [not_or, Bool.not_eq_true, Bool.not_eq_false, UInt64.not_lt] at hargument hreject
  have hwrite := (run_writeAndVerify sha256 journalKey
    { s with readFaults := s.readFaults.tail.tail } (slotIndex !i)
    (encodeRecord sha256 (successor current nextValue) journalKey)).1
  exact .inr ⟨i, current, rfl, ⟨hargument, hreject.1, hreject.2.1, hreject.2.2⟩,
    ⟨hwrite.slots, hwrite.written⟩⟩

/-- The checks of an initialization against the storage. -/
structure InitializeAccepts (s : Storage) (initialValue : MigrationValue) : Prop where
  argument : migrationArgumentInvalid initialValue = false
  slot0 : (s.readAnswer 0).1 = journalReadEmpty
  slot1 : ({ s with readFaults := s.readFaults.tail }.readAnswer 1).1 = journalReadEmpty

theorem migrationInitialize_cases (s : Storage) (initialValue : MigrationValue) :
    let outcome := (migrationInitialize sha256 initialValue journalKey).run Storage.answer s
    let record := encodeRecord sha256 { initialValue with generation := 1 } journalKey
    (outcome.1 ≠ .ok ∧ Untouched s outcome.2 ∧ ¬ InitializeAccepts s initialValue) ∨
      (InitializeAccepts s initialValue ∧ Writes s outcome.2 0 record ∧
        (outcome.1 = .ok → outcome.2.slots 0 = some record)) := by
  simp only [migrationInitialize, Program.run_ite]
  split
  · rename_i hargument
    refine .inl ⟨by simp, ⟨rfl, rfl⟩, fun haccepts => ?_⟩
    rw [haccepts.argument] at hargument
    cases hargument
  rename_i hargument
  simp only [run_readRecord_bind, Program.run_ite]
  split
  · rename_i hok
    refine .inl ⟨by simp, ⟨rfl, rfl⟩, fun haccepts => ?_⟩
    rw [haccepts.slot0, haccepts.slot1] at hok
    rcases hok with hok | hok <;> cases hok
  split
  · rename_i hempty
    exact .inl ⟨by simp, ⟨rfl, rfl⟩, fun haccepts =>
      hempty.elim (· haccepts.slot0) (· haccepts.slot1)⟩
  rename_i hempty
  simp only [not_or, not_not, Bool.not_eq_true] at hargument hempty
  obtain ⟨hwrite, hok⟩ := run_writeAndVerify sha256 journalKey
    { s with readFaults := s.readFaults.tail.tail } 0
    (encodeRecord sha256 { initialValue with generation := 1 } journalKey)
  exact .inr ⟨⟨hargument, hempty.1, hempty.2⟩, ⟨hwrite.slots, hwrite.written⟩, hok⟩

theorem InitializeAccepts.slots {s : Storage} {initialValue : MigrationValue}
    (h : InitializeAccepts s initialValue) : s.slots 0 = none ∧ s.slots 1 = none := by
  have hslot1 := readAnswer_empty h.slot1
  exact ⟨readAnswer_empty h.slot0, hslot1⟩

end C0PQLink
