import C0PQLink.Session.MigrationRuns

/-!
# What a commit reports

The status of `c0pq_migration_commit` against what a later load returns, when reads may
fail and writes complete. A commit reads three times; the third read comes after the
write, when the old record is no longer the newest one.

* `ReadFaultReached.adjacent`: the invariant of the storages that calls can reach.
* `outcomeMatches_iff`: when the status of a commit tells what is durable.
-/

namespace C0PQLink

open Foundation TwoSlot

variable (sha256 : Bytes → Block 32) (journalKey : Block 32)

/-- The storages after initializations, commits and loads whose reads may fail. -/
inductive ReadFaultReached : Storage → Prop where
  | erased : ReadFaultReached Storage.erased
  | event (event : ReadFaultEvent) {s : Storage} (before : ReadFaultReached s) :
      ReadFaultReached (event.finish sha256 journalKey s)

/-- A commit with the faults of its reads: its status and the storage after it. -/
def commitCall (s : Storage) (nextValue : MigrationValue) (readFaults : List (Option ReadFailure)) :
    Status × Storage :=
  (JournalOp.commit nextValue).call sha256 journalKey s readFaults none

/-- The status of a commit tells what a load with reliable reads returns after it. -/
structure OutcomeMatches (s : Storage) (nextValue : MigrationValue)
    (readFaults : List (Option ReadFailure)) : Prop where
  committed : (commitCall sha256 journalKey s nextValue readFaults).1 = .ok →
    ∃ value slot slot', s.loaded sha256 journalKey = .ok (value, slot) ∧
      (commitCall sha256 journalKey s nextValue readFaults).2.loaded sha256 journalKey
        = .ok ({ nextValue with generation := value.generation + 1 }, slot') ∧
      value.generation.toNat + 1 < 2 ^ 32
  failed : (commitCall sha256 journalKey s nextValue readFaults).1 ≠ .ok →
    (commitCall sha256 journalKey s nextValue readFaults).2.loaded sha256 journalKey
      = s.loaded sha256 journalKey

/-- The read-back after the write fails. -/
def ReadBackFails (readFaults : List (Option ReadFailure)) : Prop :=
  (readFaults.tail.tail.headD none).isSome

/-- A commit that writes has loaded the newest record and reads its own back; or it misses
the newest record, writes the very same one, and fails to read it back. -/
def CommitReads (s : Storage) (nextValue : MigrationValue)
    (readFaults : List (Option ReadFailure)) : Prop :=
  ∀ i current,
    newest generationOf ((s.start readFaults none).visible sha256 journalKey) = some (i, current) →
    CommitAccepts current nextValue →
      (s.durable sha256 journalKey = some (i, current) ∧ ¬ ReadBackFails readFaults) ∨
        (s.durable sha256 journalKey = some (!i, successor current nextValue)
          ∧ ReadBackFails readFaults)

/-! ## Reached storages -/

theorem visible_spec {s : Storage} {i : Bool} {v : MigrationValue}
    (h : s.visible sha256 journalKey i = some v) : s.values sha256 journalKey i = some v := by
  unfold Storage.visible at h
  split at h
  · cases h
  · exact h

/-- A write of the successor of a record to the other slot. -/
theorem Writes.successor_values {s s' : Storage} {readFaults : List (Option ReadFailure)} {i : Bool}
    {current nextValue : MigrationValue} (haccepts : CommitAccepts current nextValue)
    (h : Writes (s.start readFaults none) s' (slotIndex !i)
      (encodeRecord sha256 (successor current nextValue) journalKey)) :
    s'.values sha256 journalKey = Function.update (s.values sha256 journalKey) (!i)
      (some (successor current nextValue)) := by
  have hvalues := h.values sha256 journalKey
  have hdecoded := haccepts.decodeSlot_encodeRecord sha256 journalKey
  rw [← hdecoded]
  exact hvalues

theorem ReadFaultReached.adjacent {s : Storage} (h : ReadFaultReached sha256 journalKey s) :
    Adjacent generationOf (s.values sha256 journalKey) := by
  induction h with
  | erased =>
    intro v w hv
    cases hv
  | @event event s before ih =>
    obtain ⟨op, readFaults⟩ := event
    cases op with
    | load =>
      have hslots :
          (ReadFaultEvent.finish sha256 journalKey ⟨.load, readFaults⟩ s).slots = s.slots := by
        simp only [ReadFaultEvent.finish, JournalOp.call, JournalOp.program, run_migrationLoad_bind]
        split <;> rfl
      rw [values_eq_of_slots sha256 journalKey hslots]
      exact ih
    | init initialValue =>
      rcases migrationInitialize_cases sha256 journalKey (s.start readFaults none) initialValue with
        ⟨-, huntouched, -⟩ | ⟨haccepts, hwrites, -⟩
      · rw [ReadFaultEvent.finish, JournalOp.call, JournalOp.program,
          values_eq_of_slots sha256 journalKey (huntouched.slots.trans (start_slots ..))]
        exact ih
      · intro v w _ hw
        have hslot1 : ((migrationInitialize sha256 initialValue journalKey).run Storage.answer
            (s.start readFaults none)).2.slots 1 = none := by
          rw [hwrites.slots, Function.update_of_ne (by decide)]
          exact haccepts.slots.2
        change decodeSlot sha256 journalKey (Storage.slots _ 1) = some w at hw
        rw [ReadFaultEvent.finish, JournalOp.call, JournalOp.program, hslot1] at hw
        cases hw
    | commit nextValue =>
      rcases migrationCommit_cases sha256 journalKey (s.start readFaults none) nextValue with
        ⟨-, huntouched, -⟩ | ⟨i, current, hvisible, haccepts, hwrites⟩
      · rw [ReadFaultEvent.finish, JournalOp.call, JournalOp.program,
          values_eq_of_slots sha256 journalKey (huntouched.slots.trans (start_slots ..))]
        exact ih
      · have hcurrent := visible_spec sha256 journalKey (newest_spec hvisible).1
        rw [ReadFaultEvent.finish, JournalOp.call, JournalOp.program,
          hwrites.successor_values sha256 journalKey haccepts]
        refine Adjacent.update hcurrent fun w hw => ?_
        cases hw
        exact haccepts.generationOf_successor

/-! ## The status of a commit -/

theorem verifyWritten_status (value : MigrationValue) {s : Storage} {slot : UInt8}
    {raw : MigrationRecord} (hslot : s.slots slot = some raw)
    (hdecode : decodeRecord sha256 raw journalKey = .ok value) :
    ((verifyWritten sha256 slot raw journalKey).run Storage.answer s).1 = .ok
      ↔ ¬ (s.readFaults.headD none).isSome := by
  simp only [verifyWritten, run_readRecord_bind, Program.run_ite]
  rcases hfault : s.readFaults.headD none with _ | failure
  · have hanswer : s.readAnswer slot = (journalReadOk, raw) := by
      simp only [Storage.readAnswer, hfault, hslot]
    simp [hanswer, hdecode]
  · have hanswer : s.readAnswer slot = (failure.val, Block.zero 52) := by
      simp only [Storage.readAnswer, hfault]
    have hne : failure.val ≠ journalReadOk := ne_of_lt failure.property
    simp [hanswer, hne]

/-- The status of a commit that writes. -/
theorem migrationCommit_status {s : Storage} {readFaults : List (Option ReadFailure)} {i : Bool}
    {current nextValue : MigrationValue}
    (hvisible : newest generationOf ((s.start readFaults none).visible sha256 journalKey)
      = some (i, current)) (haccepts : CommitAccepts current nextValue) :
    (commitCall sha256 journalKey s nextValue readFaults).1 = .ok ↔ ¬ ReadBackFails readFaults := by
  have hchecks : ¬ (¬ migrationTransitionAllowed current.state nextValue.state = true
      ∨ nextValue.epoch < current.epoch ∨ current.generation = 0xffffffff) := by
    rintro (htransition | hepoch | hgeneration)
    · exact htransition haccepts.transition
    · exact UInt64.not_lt.mpr haccepts.epoch hepoch
    · exact haccepts.generation hgeneration
  simp only [commitCall, JournalOp.call, JournalOp.program, migrationCommit, Program.run_ite,
    haccepts.argument, Bool.false_eq_true, if_false, run_migrationLoad_bind, Storage.loadResult,
    hvisible, hchecks, run_writeRecord_bind]
  rw [if_neg (by simp [Storage.writeStatus, Storage.start])]
  refine verifyWritten_status sha256 journalKey (successor current nextValue) ?_
    (decodeRecord_encodeRecord sha256 haccepts.storable journalKey)
  simp only [Storage.write, slotIndex_xor, Function.update_self]
  rfl

/-! ## The outcome of a commit -/

theorem loaded_eq_of_slots {s s' : Storage} (h : s'.slots = s.slots) :
    s'.loaded sha256 journalKey = s.loaded sha256 journalKey := by
  have hstart : s'.start [] none = s.start [] none := by
    rw [Storage.start, Storage.start, h]
  rw [Storage.loaded, Storage.loaded, hstart]

/-- A load that reads a record loads the newest one, or misses the newest one, which is then
one generation ahead. -/
theorem durable_of_visible {s : Storage} (ha : Adjacent generationOf (s.values sha256 journalKey))
    {readFaults : List (Option ReadFailure)} {i : Bool} {current : MigrationValue}
    (h : newest generationOf ((s.start readFaults none).visible sha256 journalKey)
      = some (i, current)) :
    s.durable sha256 journalKey = some (i, current) ∨
      ∃ v, s.durable sha256 journalKey = some (!i, v) ∧
        generationOf v = generationOf current + 1 := by
  have hcurrent : (s.start readFaults none).values sha256 journalKey i = some current :=
    visible_spec sha256 journalKey (newest_spec h).1
  rw [values_eq_of_slots sha256 journalKey (start_slots s readFaults none)] at hcurrent
  obtain ⟨j, v, hv⟩ : ∃ j v, newest generationOf (s.values sha256 journalKey) = some (j, v) :=
    newest_isSome hcurrent
  rcases Bool.eq_or_eq_not j i with rfl | rfl
  · cases (newest_spec hv).1.symm.trans hcurrent
    exact .inl hv
  · refine .inr ⟨v, hv, ?_⟩
    have hother := ha.lt_newest hv (w := current)
    rw [Bool.not_not] at hother
    exact (hother hcurrent).symm

variable {sha256 journalKey} in
theorem slot_eq_of_durable {s : Storage} {i j : Bool} {v w : MigrationValue}
    (hv : s.durable sha256 journalKey = some (i, v))
    (hw : s.durable sha256 journalKey = some (j, w)) :
    i = j :=
  (Prod.mk.inj (Option.some.inj (hv.symm.trans hw))).1

/-- A commit reports what is durable exactly when its reads are harmless. -/
theorem outcomeMatches_iff {s : Storage} (hreached : ReadFaultReached sha256 journalKey s)
    (nextValue : MigrationValue) (readFaults : List (Option ReadFailure)) :
    OutcomeMatches sha256 journalKey s nextValue readFaults
      ↔ CommitReads sha256 journalKey s nextValue readFaults := by
  have ha := hreached.adjacent sha256 journalKey
  rcases migrationCommit_cases sha256 journalKey (s.start readFaults none) nextValue with
    ⟨hfailed, huntouched, hrejects⟩ | ⟨i, current, hvisible, haccepts, hwrites⟩
  · have hslots : (commitCall sha256 journalKey s nextValue readFaults).2.slots = s.slots :=
      huntouched.slots.trans (start_slots ..)
    refine iff_of_true ⟨fun hok => absurd hok hfailed, fun _ => ?_⟩
      fun i current hvisible haccepts => ?_
    · exact loaded_eq_of_slots sha256 journalKey hslots
    · exact absurd haccepts (hrejects i current hvisible)
  have hstatus := migrationCommit_status sha256 journalKey hvisible haccepts
  have hcurrent := visible_spec sha256 journalKey (newest_spec hvisible).1
  have hloaded : (commitCall sha256 journalKey s nextValue readFaults).2.loaded sha256 journalKey
      = .ok (successor current nextValue, slotIndex !i) := by
    refine loaded_of_durable sha256 journalKey ?_
    rw [Storage.durable, commitCall, JournalOp.call, JournalOp.program,
      hwrites.successor_values sha256 journalKey haccepts]
    refine newest_update_newer hcurrent ?_
    rw [haccepts.generationOf_successor]
    exact Nat.lt_succ_self _
  have hreads : CommitReads sha256 journalKey s nextValue readFaults ↔
      (s.durable sha256 journalKey = some (i, current) ∧ ¬ ReadBackFails readFaults) ∨
        (s.durable sha256 journalKey = some (!i, successor current nextValue)
          ∧ ReadBackFails readFaults) := by
    refine ⟨fun h => h i current hvisible haccepts, fun h j current' hvisible' _ => ?_⟩
    cases hvisible.symm.trans hvisible'
    exact h
  rw [hreads]
  rcases durable_of_visible sha256 journalKey ha hvisible with hdurable | ⟨v, hdurable, hgeneration⟩
  · have hbefore := loaded_of_durable sha256 journalKey hdurable
    have hother : i ≠ !i := by cases i <;> decide
    by_cases hback : ReadBackFails readFaults
    · -- the new record is durable, and the commit fails
      refine iff_of_false (fun h => ?_) ?_
      · have hsame := (h.failed (fun hok => hstatus.mp hok hback)).symm.trans hloaded
        rw [hbefore] at hsame
        have hslot := (Prod.mk.inj (Except.ok.inj hsame)).2
        exact hother (slotIndex_inj hslot)
      · rintro (⟨-, hno⟩ | ⟨hdurable', -⟩)
        · exact hno hback
        · exact hother (slot_eq_of_durable hdurable hdurable')
    · refine iff_of_true ⟨fun _ => ?_, fun hfailed => absurd (hstatus.mpr hback) hfailed⟩
        (.inl ⟨hdurable, hback⟩)
      exact ⟨current, _, _, hbefore, hloaded, haccepts.generation_lt⟩
  · have hbefore := loaded_of_durable sha256 journalKey hdurable
    have hother : (!i) ≠ i := by cases i <;> decide
    by_cases hback : ReadBackFails readFaults
    · -- the newest record is overwritten, and the commit fails
      have hfailed : (commitCall sha256 journalKey s nextValue readFaults).1 ≠ .ok :=
        fun hok => hstatus.mp hok hback
      constructor
      · intro h
        have hsame := (h.failed hfailed).symm.trans hloaded
        rw [hbefore] at hsame
        have hvalue := (Prod.mk.inj (Except.ok.inj hsame)).1
        rw [hvalue] at hdurable
        exact .inr ⟨hdurable, hback⟩
      · rintro (⟨hdurable', -⟩ | ⟨hdurable', -⟩)
        · exact absurd (slot_eq_of_durable hdurable hdurable') hother
        · refine ⟨fun hok => absurd hok hfailed, fun _ => ?_⟩
          rw [hloaded, loaded_of_durable sha256 journalKey hdurable']
    · -- the newest record is overwritten by one of its own generation
      refine iff_of_false (fun h => ?_) ?_
      · obtain ⟨value, slot, slot', hvalue, hafter, -⟩ := h.committed (hstatus.mpr hback)
        rw [hbefore] at hvalue
        cases hvalue
        rw [hloaded] at hafter
        have hnext := congrArg MigrationValue.generation (Prod.mk.inj (Except.ok.inj hafter)).1
        have hnext : current.generation + 1 = v.generation + 1 := hnext
        have hequal : current.generation = v.generation := UInt32.add_left_inj 1 |>.mp hnext
        have hnumbers := congrArg UInt32.toNat hequal
        simp only [generationOf] at hgeneration
        omega
      · rintro (⟨hdurable', -⟩ | ⟨-, hyes⟩)
        · exact hother (slot_eq_of_durable hdurable hdurable')
        · exact hback hyes

theorem freshJournal_reached :
    ReadFaultReached (fun _ => Block.zero 32) (Block.zero 32) freshJournal :=
  .event ⟨.init (rollbackValue 0 0), []⟩ .erased

theorem freshJournal_durable :
    freshJournal.durable (fun _ => Block.zero 32) (Block.zero 32)
      = some (false, rollbackValue 0 0) := by
  decide +kernel

/-- The read of the slot that is still empty fails. -/
theorem freshJournal_outcomeMatches :
    OutcomeMatches (fun _ => Block.zero 32) (Block.zero 32) freshJournal (rollbackValue 2 5)
      [none, some ⟨-1, by decide⟩] := by
  refine (outcomeMatches_iff _ _ freshJournal_reached (rollbackValue 2 5) _).mpr ?_
  intro i current hvisible _
  have hloads : newest generationOf ((freshJournal.start [none, some ⟨-1, by decide⟩] none).visible
      (fun _ => Block.zero 32) (Block.zero 32)) = some (false, rollbackValue 0 0) := by
    decide +kernel
  cases hloads.symm.trans hvisible
  exact .inl ⟨freshJournal_durable, by simp [ReadBackFails]⟩

/-- The read-back of the first commit fails. -/
theorem freshJournal_readBack :
    ¬ OutcomeMatches (fun _ => Block.zero 32) (Block.zero 32) freshJournal (rollbackValue 2 5)
      [none, none, some ⟨-1, by decide⟩] := by
  intro h
  have hstatus : (commitCall (fun _ => Block.zero 32) (Block.zero 32) freshJournal
      (rollbackValue 2 5) [none, none, some ⟨-1, by decide⟩]).1 = .errIo := by
    decide +kernel
  have hloaded : (commitCall (fun _ => Block.zero 32) (Block.zero 32) freshJournal
      (rollbackValue 2 5) [none, none, some ⟨-1, by decide⟩]).2.durable
        (fun _ => Block.zero 32) (Block.zero 32)
      = some (true, successor (rollbackValue 0 0) (rollbackValue 2 5)) := by
    decide +kernel
  have hsame := h.failed (by rw [hstatus]; simp)
  rw [loaded_of_durable _ _ hloaded, loaded_of_durable _ _ freshJournal_durable] at hsame
  have hslot := (Prod.mk.inj (Except.ok.inj hsame)).2
  exact absurd (slotIndex_inj hslot) (by decide)

end C0PQLink
