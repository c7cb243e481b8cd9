import Mathlib.Logic.Relation
import C0PQLink.Session.MigrationStorage

/-!
# Runs of the migration journal

The durable value over runs of the three calls of the journal, under two kinds of
storage faults: reads that fail, and writes that are torn.

* `neverRollsBack_iff`: with failing reads the durable value is safe in a run if and only
  if no commit of the run misses it.
* `reached_crashAtomic`: with torn writes every commit is atomic, and the loaded value
  never goes back.
-/

namespace C0PQLink

open Foundation TwoSlot

inductive JournalOp where
  | init (initialValue : MigrationValue)
  | commit (nextValue : MigrationValue)
  | load

variable (sha256 : Bytes → Block 32) (journalKey : Block 32)

def JournalOp.program : JournalOp → Journal Status
  | .init initialValue => migrationInitialize sha256 initialValue journalKey
  | .commit nextValue => migrationCommit sha256 nextValue journalKey
  | .load => do
    match ← migrationLoad sha256 journalKey with
    | .ok _ => return .ok
    | .error failure => return failure

/-- The storage in which a call starts: its faults, and no write of its own yet. -/
def Storage.start (s : Storage) (readFaults : List (Option ReadFailure))
    (tear : Option TornWrite) : Storage :=
  { s with readFaults := readFaults, tear := tear, written := [] }

def JournalOp.call (op : JournalOp) (s : Storage) (readFaults : List (Option ReadFailure))
    (tear : Option TornWrite) : Status × Storage :=
  (op.program sha256 journalKey).run Storage.answer (s.start readFaults tear)

/-! ## What a call does to the records -/

@[simp] theorem start_slots (s : Storage) (readFaults : List (Option ReadFailure))
    (tear : Option TornWrite) : (s.start readFaults tear).slots = s.slots := rfl

@[simp] theorem start_written (s : Storage) (readFaults : List (Option ReadFailure))
    (tear : Option TornWrite) : (s.start readFaults tear).written = [] := rfl

theorem values_eq_of_slots {s s' : Storage} (h : s'.slots = s.slots) :
    s'.values sha256 journalKey = s.values sha256 journalKey := by
  unfold Storage.values
  rw [h]

theorem durable_eq_of_slots {s s' : Storage} (h : s'.slots = s.slots) :
    s'.durable sha256 journalKey = s.durable sha256 journalKey := by
  unfold Storage.durable
  rw [values_eq_of_slots sha256 journalKey h]

theorem Writes.values {s s' : Storage} {i : Bool} {record : MigrationRecord}
    (h : Writes s s' (slotIndex i) record) :
    s'.values sha256 journalKey = Function.update (s.values sha256 journalKey) i
      (decodeSlot sha256 journalKey (s.afterWrite record)) := by
  funext j
  unfold Storage.values
  rw [h.slots]
  by_cases hij : j = i
  · subst hij
    rw [Function.update_self, Function.update_self]
  · have hslot : slotIndex j ≠ slotIndex i := fun heq => hij (slotIndex_inj heq)
    rw [Function.update_of_ne hslot, Function.update_of_ne hij]

theorem CommitAccepts.generation_lt {current nextValue : MigrationValue}
    (h : CommitAccepts current nextValue) : current.generation.toNat + 1 < 2 ^ 32 := by
  have hlt := current.generation.toNat_lt
  have hne : current.generation.toNat ≠ 2 ^ 32 - 1 := fun heq =>
    h.generation (UInt32.toNat_inj.mp heq)
  omega

theorem CommitAccepts.generationOf_successor {current nextValue : MigrationValue}
    (h : CommitAccepts current nextValue) :
    generationOf (successor current nextValue) = generationOf current + 1 := by
  have hlt := h.generation_lt
  simp only [generationOf, successor, UInt32.toNat_add]
  exact Nat.mod_eq_of_lt hlt

theorem CommitAccepts.storable {current nextValue : MigrationValue}
    (h : CommitAccepts current nextValue) : (successor current nextValue).Storable := by
  have hargument := h.argument
  simp only [migrationArgumentInvalid, decide_eq_false_iff_not, not_or, not_lt,
    UInt8.not_lt] at hargument
  refine ⟨hargument.2.1, hargument.2.2, hargument.1, fun hzero => ?_⟩
  have hgeneration := h.generationOf_successor
  rw [generationOf, hzero] at hgeneration
  cases hgeneration

theorem CommitAccepts.state_le {current nextValue : MigrationValue}
    (h : CommitAccepts current nextValue) : current.state ≤ nextValue.state := by
  have htransition := h.transition
  unfold migrationTransitionAllowed at htransition
  split at htransition
  · cases htransition
  · exact of_decide_eq_true htransition

theorem CommitAccepts.decodeSlot_encodeRecord {current nextValue : MigrationValue}
    (h : CommitAccepts current nextValue) :
    decodeSlot sha256 journalKey
        (some (encodeRecord sha256 (successor current nextValue) journalKey))
      = some (successor current nextValue) := by
  simp only [decodeSlot, Option.bind_some, decodeRecord_encodeRecord sha256 h.storable]
  rfl

theorem InitializeAccepts.storable {s : Storage} {initialValue : MigrationValue}
    (h : InitializeAccepts s initialValue) :
    ({ initialValue with generation := 1 } : MigrationValue).Storable := by
  have hargument := h.argument
  simp only [migrationArgumentInvalid, decide_eq_false_iff_not, not_or, not_lt,
    UInt8.not_lt] at hargument
  exact ⟨hargument.2.1, hargument.2.2, hargument.1,
    show (1 : UInt32) ≠ 0 by decide⟩

/-- After an initialization that wrote its record, that record is the durable one. -/
theorem durable_migrationInitialize {s s' : Storage} {initialValue : MigrationValue}
    (haccepts : InitializeAccepts s initialValue) (hslot1 : s'.slots 1 = none)
    (hslot0 : s'.slots 0
      = some (encodeRecord sha256 { initialValue with generation := 1 } journalKey)) :
    s'.durable sha256 journalKey = some (false, { initialValue with generation := 1 }) := by
  refine newest_of_lt ?_ fun w hw => ?_
  · change decodeSlot sha256 journalKey (s'.slots 0) = _
    rw [hslot0, decodeSlot, Option.bind_some,
      decodeRecord_encodeRecord sha256 haccepts.storable]
    rfl
  · change decodeSlot sha256 journalKey (s'.slots 1) = _ at hw
    rw [hslot1] at hw
    cases hw

/-! ### Reliable reads -/

theorem visible_reliable (s : Storage) (tear : Option TornWrite) :
    (s.start [] tear).visible sha256 journalKey = s.values sha256 journalKey := by
  funext i
  cases i <;> rfl

theorem migrationCommit_reliable (s : Storage) (tear : Option TornWrite)
    (nextValue : MigrationValue) :
    let finish := ((JournalOp.commit nextValue).call sha256 journalKey s [] tear).2
    (Untouched (s.start [] tear) finish ∧ ∀ i current,
        s.durable sha256 journalKey = some (i, current) → ¬ CommitAccepts current nextValue) ∨
      ∃ i current, s.durable sha256 journalKey = some (i, current) ∧
        CommitAccepts current nextValue ∧
        Writes (s.start [] tear) finish (slotIndex !i)
          (encodeRecord sha256 (successor current nextValue) journalKey) := by
  have hcases := migrationCommit_cases sha256 journalKey (s.start [] tear) nextValue
  rw [visible_reliable] at hcases
  exact hcases.imp (fun h => h.2) id

/-! ## Failing reads -/

/-- A call of the journal with the faults of its reads. -/
structure ReadFaultEvent where
  op : JournalOp
  readFaults : List (Option ReadFailure)

def ReadFaultEvent.finish (event : ReadFaultEvent) (s : Storage) : Storage :=
  (event.op.call sha256 journalKey s event.readFaults none).2

/-- `P` holds of every event of a run in the storage in which it starts. -/
def Along (P : ReadFaultEvent → Storage → Prop) : List ReadFaultEvent → Storage → Prop
  | [], _ => True
  | event :: rest, s => P event s ∧ Along P rest (event.finish sha256 journalKey s)

/-- A call from `s` to `s'` lowers neither the state nor the epoch of the durable value
and does not write its slot. -/
structure KeepsDurable (s s' : Storage) : Prop where
  value : ∀ i v, s.durable sha256 journalKey = some (i, v) →
    ∃ j w, s'.durable sha256 journalKey = some (j, w) ∧ v.state ≤ w.state ∧ v.epoch ≤ w.epoch
  slot : ∀ i v, s.durable sha256 journalKey = some (i, v) →
    ∀ record, (slotIndex i, record) ∉ s'.written

/-- If the call is a commit, it keeps the durable value. -/
def CommitKeepsDurable (event : ReadFaultEvent) (s : Storage) : Prop :=
  ∀ nextValue, event.op = .commit nextValue →
    KeepsDurable sha256 journalKey s (event.finish sha256 journalKey s)

/-- A commit misses the durable value: the read of its slot by the load fails, and the
older record that is loaded instead admits the commit. -/
def MissesDurable (event : ReadFaultEvent) (s : Storage) : Prop :=
  ∃ nextValue, event.op = .commit nextValue ∧ ∃ i v w,
    s.durable sha256 journalKey = some (i, v) ∧
    (s.start event.readFaults none).readFails i = true ∧
    (s.start event.readFaults none).readFails (!i) = false ∧
    s.values sha256 journalKey (!i) = some w ∧ CommitAccepts w nextValue

theorem commitKeepsDurable_of_not_misses {event : ReadFaultEvent} {s : Storage}
    (h : ¬ MissesDurable sha256 journalKey event s) :
    CommitKeepsDurable sha256 journalKey event s := by
  intro nextValue hop
  have hcases := migrationCommit_cases sha256 journalKey (s.start event.readFaults none) nextValue
  have hfinish : event.finish sha256 journalKey s = ((migrationCommit sha256 nextValue
      journalKey).run Storage.answer (s.start event.readFaults none)).2 := by
    rw [ReadFaultEvent.finish, hop]
    rfl
  rw [hfinish]
  rcases hcases with ⟨-, huntouched, -⟩ | ⟨i, current, hvisible, haccepts, hwrites⟩
  · have hdurable := durable_eq_of_slots sha256 journalKey huntouched.slots
    refine ⟨fun i v hv => ⟨i, v, hdurable.trans hv, le_refl _, UInt64.le_refl _⟩, ?_⟩
    intro i v _ record
    rw [huntouched.written]
    exact List.not_mem_nil
  · obtain ⟨hi, -⟩ := newest_spec hvisible
    -- the loaded record is the durable one, since the commit does not miss it
    have hreads : (s.start event.readFaults none).readFails i = false ∧
        s.values sha256 journalKey i = some current := by
      unfold Storage.visible at hi
      split at hi
      · cases hi
      · rename_i hread
        exact ⟨Bool.eq_false_iff.mpr hread, hi⟩
    have hdurable : s.durable sha256 journalKey = some (i, current) := by
      rcases hread : (s.start event.readFaults none).readFails (!i) with _ | _
      · have hall : (s.start event.readFaults none).visible sha256 journalKey
            = s.values sha256 journalKey := by
          funext j
          rcases Bool.eq_or_eq_not j i with rfl | rfl
          · simp only [Storage.visible, hreads.1, Bool.false_eq_true, if_false]
            rfl
          · simp only [Storage.visible, hread, Bool.false_eq_true, if_false]
            rfl
        rw [hall] at hvisible
        exact hvisible
      · obtain ⟨j, v, hv⟩ : ∃ j v, newest generationOf (s.values sha256 journalKey) = some (j, v) :=
          newest_isSome hreads.2
        rcases Bool.eq_or_eq_not j i with rfl | rfl
        · have := (newest_spec hv).1.symm.trans hreads.2
          cases this
          exact hv
        · refine absurd ⟨nextValue, hop, !i, v, current, hv, hread, ?_, ?_, haccepts⟩ h
          · rw [Bool.not_not]
            exact hreads.1
          · rw [Bool.not_not]
            exact hreads.2
    have hvalues := hwrites.values sha256 journalKey
    rw [show (s.start event.readFaults none).afterWrite
        (encodeRecord sha256 (successor current nextValue) journalKey)
        = some (encodeRecord sha256 (successor current nextValue) journalKey) from rfl,
      haccepts.decodeSlot_encodeRecord sha256 journalKey] at hvalues
    have hnew : generationOf current < generationOf (successor current nextValue) := by
      rw [haccepts.generationOf_successor]
      exact Nat.lt_succ_self _
    refine ⟨fun k v hv => ?_, fun k v hv record hmem => ?_⟩
    · rw [hdurable] at hv
      cases hv
      refine ⟨!i, successor current nextValue, ?_, haccepts.state_le, haccepts.epoch⟩
      rw [Storage.durable, hvalues]
      exact newest_update_newer (newest_spec hdurable).1 hnew
    · rw [hdurable] at hv
      cases hv
      rw [hwrites.written, start_written, List.mem_singleton] at hmem
      have hslot := slotIndex_inj (Prod.mk.inj hmem).1
      cases i <;> cases hslot

theorem misses_not_keepsDurable {event : ReadFaultEvent} {s : Storage}
    (h : MissesDurable sha256 journalKey event s) :
    ¬ CommitKeepsDurable sha256 journalKey event s := by
  obtain ⟨nextValue, hop, i, v, w, hdurable, hfails, hreads, hw, haccepts⟩ := h
  intro hkeeps
  have hslot := (hkeeps nextValue hop).slot i v hdurable
  have hvisible : newest generationOf ((s.start event.readFaults none).visible sha256 journalKey)
      = some (!i, w) := by
    refine newest_of_lt ?_ fun u hu => ?_
    · simp only [Storage.visible, hreads, Bool.false_eq_true, if_false]
      exact hw
    · simp only [Storage.visible, Bool.not_not, hfails, if_true] at hu
      cases hu
  have hfinish : event.finish sha256 journalKey s = ((migrationCommit sha256 nextValue
      journalKey).run Storage.answer (s.start event.readFaults none)).2 := by
    rw [ReadFaultEvent.finish, hop]
    rfl
  rcases migrationCommit_cases sha256 journalKey (s.start event.readFaults none) nextValue with
    ⟨-, -, hrejects⟩ | ⟨j, current, hnewest, -, hwrites⟩
  · exact hrejects _ _ hvisible haccepts
  · rw [hvisible] at hnewest
    cases hnewest
    have hmem : (slotIndex i, encodeRecord sha256 (successor w nextValue) journalKey)
        ∈ (event.finish sha256 journalKey s).written := by
      rw [hfinish, hwrites.written, Bool.not_not]
      exact List.mem_cons_self
    exact hslot _ hmem

theorem along_congr {P Q : ReadFaultEvent → Storage → Prop} (h : ∀ event s, P event s ↔ Q event s)
    (events : List ReadFaultEvent) (s : Storage) :
    Along sha256 journalKey P events s ↔ Along sha256 journalKey Q events s := by
  induction events generalizing s with
  | nil => exact Iff.rfl
  | cons event rest ih => exact and_congr (h event s) (ih _)

/-- Every commit of the run keeps the durable value. -/
def NeverRollsBack (events : List ReadFaultEvent) : Prop :=
  Along sha256 journalKey (CommitKeepsDurable sha256 journalKey) events Storage.erased

theorem neverRollsBack_iff (events : List ReadFaultEvent) :
    NeverRollsBack sha256 journalKey events ↔
      Along sha256 journalKey (fun event s => ¬ MissesDurable sha256 journalKey event s)
        events Storage.erased :=
  along_congr sha256 journalKey
    (fun _ _ => ⟨fun hkeeps hmisses => misses_not_keepsDurable sha256 journalKey hmisses hkeeps,
      commitKeepsDurable_of_not_misses sha256 journalKey⟩) events Storage.erased

/-! ### A run that rolls back -/

def rollbackValue (state : Int) (epoch : UInt64) : MigrationValue :=
  ⟨1, state, 0, epoch, Block.zero 16⟩

/-- The third call reads slot 0 and fails to read slot 1, which holds the durable value. -/
def rollbackEvents : List ReadFaultEvent :=
  [⟨.init (rollbackValue 0 0), []⟩, ⟨.commit (rollbackValue 2 5), []⟩,
    ⟨.commit (rollbackValue 1 1), [none, some ⟨-1, by decide⟩]⟩]

theorem rollbackEvents_misses :
    ¬ Along sha256 journalKey (fun event s => ¬ MissesDurable sha256 journalKey event s)
        rollbackEvents Storage.erased := by
  rintro ⟨-, -, hmisses, -⟩
  -- the records after the initialization
  obtain ⟨-, -, hrejects⟩ | ⟨haccepts, hinit, -⟩ := migrationInitialize_cases sha256 journalKey
    (Storage.erased.start [] none) (rollbackValue 0 0)
  · exact hrejects ⟨by decide, rfl, rfl⟩
  generalize hs1 : ReadFaultEvent.finish sha256 journalKey
    ⟨.init (rollbackValue 0 0), []⟩ Storage.erased = s1 at hmisses
  have hinit1 : Writes (Storage.erased.start [] none) s1 0
    (encodeRecord sha256 (rollbackValue 0 0) journalKey) := hs1 ▸ hinit
  have hdurable1 : s1.durable sha256 journalKey = some (false, rollbackValue 0 0) := by
    refine durable_migrationInitialize sha256 journalKey haccepts ?_ ?_
    · rw [hinit1.slots, Function.update_of_ne (by decide)]
      rfl
    · rw [hinit1.slots, Function.update_self]
      rfl
  -- the records after the first commit
  obtain ⟨-, hrejects⟩ | ⟨i, current, hcurrent, hcommit, hwrites⟩ :=
    migrationCommit_reliable sha256 journalKey s1 none (rollbackValue 2 5)
  · exact hrejects _ _ hdurable1 ⟨by decide, by decide, by decide, by decide⟩
  cases hdurable1.symm.trans hcurrent
  generalize hs2 : ReadFaultEvent.finish sha256 journalKey
    ⟨.commit (rollbackValue 2 5), []⟩ s1 = s2 at hmisses
  have hwrites2 : Writes (s1.start [] none) s2 (slotIndex true) (encodeRecord sha256
      (successor (rollbackValue 0 0) (rollbackValue 2 5)) journalKey) := by
    rw [← hs2]
    exact hwrites
  have hvalues2 := hwrites2.values sha256 journalKey
  have hdecoded := hcommit.decodeSlot_encodeRecord sha256 journalKey
  have hslots : s2.values sha256 journalKey = Function.update (s1.values sha256 journalKey) true
      (some (successor (rollbackValue 0 0) (rollbackValue 2 5))) := by
    rw [← hdecoded]
    exact hvalues2
  refine hmisses ⟨rollbackValue 1 1, rfl, true, successor (rollbackValue 0 0) (rollbackValue 2 5),
    rollbackValue 0 0, ?_, rfl, rfl, ?_, ⟨by decide, by decide, by decide, by decide⟩⟩
  · rw [Storage.durable, hslots]
    exact newest_update_newer (newest_spec hdurable1).1 (by decide)
  · rw [hslots, Function.update_of_ne (by decide)]
    exact (newest_spec hdurable1).1

theorem rollback_counterexample : ¬ ∃ (sha256 : Bytes → Block 32) (journalKey : Block 32),
    NeverRollsBack sha256 journalKey rollbackEvents := by
  rintro ⟨sha256, journalKey, hsafe⟩
  refine rollbackEvents_misses sha256 journalKey ?_
  exact (along_congr sha256 journalKey (fun _ _ =>
    ⟨fun hkeeps hmisses => misses_not_keepsDurable sha256 journalKey hmisses hkeeps,
      commitKeepsDurable_of_not_misses sha256 journalKey⟩) rollbackEvents Storage.erased).mp hsafe

/-! ## Torn writes -/

/-- What a torn write of `record` may leave in a slot that held `old`: the old content, or
52 bytes that are no other record than the old or the new one. -/
def TearAllowed (old : Option MigrationRecord) (record : MigrationRecord)
    (content : Option MigrationRecord) : Prop :=
  content = old ∨ ∃ raw, content = some raw ∧ ∀ value,
    decodeRecord sha256 raw journalKey = .ok value →
      decodeSlot sha256 journalKey old = some value ∨
        decodeRecord sha256 record journalKey = .ok value

/-- One call with reliable reads, whose write may be torn. -/
inductive TornStep (op : JournalOp) (s : Storage) : Storage → Prop where
  | call (tear : Option TornWrite)
      (allowed : ∀ torn slot record, tear = some torn →
        (slot, record) ∈ (op.call sha256 journalKey s [] tear).2.written →
          TearAllowed sha256 journalKey (s.slots slot) record torn.content) :
      TornStep op s (op.call sha256 journalKey s [] tear).2

/-- The storages after a completed initialization of two empty slots and further calls. -/
inductive Reached : Storage → Prop where
  | initialized (initialValue : MigrationValue) (tear : Option TornWrite)
      (completed : ((JournalOp.init initialValue).call sha256 journalKey
        Storage.erased [] tear).1 = .ok) :
      Reached ((JournalOp.init initialValue).call sha256 journalKey
        Storage.erased [] tear).2
  | step {op : JournalOp} {s s' : Storage} (before : Reached s)
      (h : TornStep sha256 journalKey op s s') : Reached s'

/-- What a load with reliable reads returns. -/
def Storage.loaded (s : Storage) : Except Status (MigrationValue × UInt8) :=
  ((migrationLoad sha256 journalKey).run Storage.answer (s.start [] none)).1

theorem loaded_of_durable {s : Storage} {i : Bool} {v : MigrationValue}
    (h : s.durable sha256 journalKey = some (i, v)) :
    s.loaded sha256 journalKey = .ok (v, slotIndex i) := by
  have hvisible : newest generationOf ((s.start [] none).visible sha256 journalKey)
      = some (i, v) := by
    rw [visible_reliable]
    exact h
  rw [Storage.loaded, run_migrationLoad, Storage.loadResult, hvisible]

/-- What a call does when slot `i` holds the current record `v`: it writes at most the
other slot, which keeps its record, loses it, or gets the successor of `v`. -/
structure TornEffect (op : JournalOp) (s s' : Storage) (i : Bool) (v : MigrationValue) :
    Prop where
  slot_kept : ∀ record, (slotIndex i, record) ∉ s'.written
  other : ∃ x, s'.values sha256 journalKey
      = Function.update (s.values sha256 journalKey) (!i) x ∧
    (x = s.values sha256 journalKey (!i) ∨ x = none ∨
      ∃ nextValue, op = .commit nextValue ∧ CommitAccepts v nextValue ∧
        x = some (successor v nextValue))

theorem Untouched.tornEffect {op : JournalOp} {s s' : Storage} {tear : Option TornWrite}
    (h : Untouched (s.start [] tear) s') (i : Bool) (v : MigrationValue) :
    TornEffect sha256 journalKey op s s' i v := by
  refine ⟨fun record => ?_, s.values sha256 journalKey (!i), ?_, .inl rfl⟩
  · rw [h.written]
    exact List.not_mem_nil
  · rw [Function.update_eq_self]
    exact values_eq_of_slots sha256 journalKey h.slots

theorem tornContent_cases {s : Storage} {i : Bool} {record raw : MigrationRecord}
    {value : MigrationValue} (hrecord : decodeRecord sha256 record journalKey = .ok value)
    (h : ∀ v, decodeRecord sha256 raw journalKey = .ok v →
      decodeSlot sha256 journalKey (s.slots (slotIndex i)) = some v ∨
        decodeRecord sha256 record journalKey = .ok v) :
    decodeSlot sha256 journalKey (some raw) = s.values sha256 journalKey i ∨
      decodeSlot sha256 journalKey (some raw) = none ∨
        decodeSlot sha256 journalKey (some raw) = some value := by
  rcases hraw : decodeRecord sha256 raw journalKey with _ | v
  · right; left
    simp only [decodeSlot, Option.bind_some, hraw]
    rfl
  · have hslot : decodeSlot sha256 journalKey (some raw) = some v := by
      simp only [decodeSlot, Option.bind_some, hraw]
      rfl
    rcases h v hraw with hold | hnew
    · exact .inl (hslot.trans hold.symm)
    · rw [hrecord] at hnew
      cases hnew
      exact .inr (.inr hslot)

theorem TornStep.effect {op : JournalOp} {s s' : Storage} {i : Bool} {v : MigrationValue}
    (h : TornStep sha256 journalKey op s s') (hdurable : s.durable sha256 journalKey = some (i, v)) :
    TornEffect sha256 journalKey op s s' i v := by
  obtain ⟨tear, hallowed⟩ := h
  cases op with
  | load =>
    have huntouched : Untouched (s.start [] tear)
        (JournalOp.load.call sha256 journalKey s [] tear).2 := by
      simp only [JournalOp.call, JournalOp.program, run_migrationLoad_bind]
      split <;> exact ⟨rfl, rfl⟩
    exact huntouched.tornEffect sha256 journalKey i v
  | init initialValue =>
    obtain ⟨-, huntouched, -⟩ | ⟨haccepts, -⟩ := migrationInitialize_cases sha256 journalKey
      (s.start [] tear) initialValue
    · exact huntouched.tornEffect sha256 journalKey i v
    · -- the slot of the current record is not empty
      have hslot : s.slots (slotIndex i) = none := by
        obtain ⟨h0, h1⟩ := haccepts.slots
        cases i
        · exact h0
        · exact h1
      have hi := (newest_spec hdurable).1
      rw [Storage.values, hslot] at hi
      cases hi
  | commit nextValue =>
    obtain ⟨huntouched, -⟩ | ⟨j, current, hcurrent, haccepts, hwrites⟩ :=
      migrationCommit_reliable sha256 journalKey s tear nextValue
    · exact huntouched.tornEffect sha256 journalKey i v
    cases hdurable.symm.trans hcurrent
    refine ⟨fun record hmem => ?_, _, hwrites.values sha256 journalKey, ?_⟩
    · rw [hwrites.written, start_written, List.mem_singleton] at hmem
      have hslot := slotIndex_inj (Prod.mk.inj hmem).1
      cases i <;> cases hslot
    · have hmem : (slotIndex !i, encodeRecord sha256 (successor v nextValue) journalKey)
          ∈ ((JournalOp.commit nextValue).call sha256 journalKey s [] tear).2.written := by
        rw [hwrites.written]
        exact List.mem_cons_self
      have hnew : ∀ x, x = some (successor v nextValue) → x = s.values sha256 journalKey (!i) ∨
          x = none ∨ ∃ next, JournalOp.commit nextValue = .commit next ∧ CommitAccepts v next ∧
            x = some (successor v next) :=
        fun x hx => .inr (.inr ⟨nextValue, rfl, haccepts, hx⟩)
      rcases tear with _ | torn
      · exact hnew _ (haccepts.decodeSlot_encodeRecord sha256 journalKey)
      · have hcontent := hallowed torn _ _ rfl hmem
        rw [show (s.start [] (some torn)).afterWrite _ = torn.content from rfl]
        rcases hcontent with hold | ⟨raw, hraw, hdecodes⟩
        · rw [hold]
          exact .inl rfl
        · rw [hraw]
          rcases tornContent_cases sha256 journalKey
            (decodeRecord_encodeRecord sha256 haccepts.storable journalKey) hdecodes
            with h | h | h
          · exact .inl h
          · exact .inr (.inl h)
          · exact hnew _ h

/-! ### Crash atomicity -/

/-- The invariant of the runs: there is a current record, and the other one, if it is
valid, is one generation away. -/
structure JournalInvariant (s : Storage) : Prop where
  current : ∃ i v, s.durable sha256 journalKey = some (i, v)
  adjacent : Adjacent generationOf (s.values sha256 journalKey)

/-- The current record after a call: the same, or the successor in the other slot. -/
theorem TornEffect.durable {op : JournalOp} {s s' : Storage} {i : Bool} {v : MigrationValue}
    (h : TornEffect sha256 journalKey op s s' i v)
    (ha : Adjacent generationOf (s.values sha256 journalKey))
    (hdurable : s.durable sha256 journalKey = some (i, v)) :
    s'.durable sha256 journalKey = some (i, v) ∨
      ∃ nextValue, op = .commit nextValue ∧ CommitAccepts v nextValue ∧
        s'.durable sha256 journalKey = some (!i, successor v nextValue) := by
  obtain ⟨x, hvalues, hx⟩ := h.other
  unfold Storage.durable
  rw [hvalues]
  rcases hx with rfl | rfl | ⟨nextValue, hop, haccepts, rfl⟩
  · exact .inl (newest_update_older hdurable fun w hw =>
      Nat.lt_of_succ_le (le_of_eq (ha.lt_newest hdurable hw)))
  · exact .inl (newest_update_older hdurable nofun)
  · refine .inr ⟨nextValue, hop, haccepts, newest_update_newer (newest_spec hdurable).1 ?_⟩
    rw [haccepts.generationOf_successor]
    exact Nat.lt_succ_self _

theorem TornEffect.adjacent {op : JournalOp} {s s' : Storage} {i : Bool} {v : MigrationValue}
    (h : TornEffect sha256 journalKey op s s' i v)
    (ha : Adjacent generationOf (s.values sha256 journalKey))
    (hdurable : s.durable sha256 journalKey = some (i, v)) :
    Adjacent generationOf (s'.values sha256 journalKey) := by
  obtain ⟨x, hvalues, hx⟩ := h.other
  rw [hvalues]
  rcases hx with rfl | rfl | ⟨nextValue, -, haccepts, rfl⟩
  · rw [Function.update_eq_self]
    exact ha
  · exact Adjacent.update (newest_spec hdurable).1 nofun
  · refine Adjacent.update (newest_spec hdurable).1 fun w hw => ?_
    cases hw
    exact haccepts.generationOf_successor

theorem TornStep.invariant {op : JournalOp} {s s' : Storage}
    (h : TornStep sha256 journalKey op s s') (hi : JournalInvariant sha256 journalKey s) :
    JournalInvariant sha256 journalKey s' := by
  obtain ⟨⟨i, v, hdurable⟩, ha⟩ := hi
  have heffect := h.effect sha256 journalKey hdurable
  refine ⟨?_, heffect.adjacent sha256 journalKey ha hdurable⟩
  obtain hsame | ⟨nextValue, -, -, hnext⟩ := heffect.durable sha256 journalKey ha hdurable
  · exact ⟨i, v, hsame⟩
  · exact ⟨!i, successor v nextValue, hnext⟩

theorem Reached.invariant {s : Storage} (h : Reached sha256 journalKey s) :
    JournalInvariant sha256 journalKey s := by
  induction h with
  | initialized initialValue tear completed =>
    obtain ⟨hfailed, -⟩ | ⟨haccepts, hwrites, hverified⟩ :=
      migrationInitialize_cases sha256 journalKey (Storage.erased.start [] tear) initialValue
    · exact absurd completed hfailed
    have hslot1 : ((JournalOp.init initialValue).call sha256 journalKey
        Storage.erased [] tear).2.slots 1 = none := by
      rw [JournalOp.call, JournalOp.program, hwrites.slots, Function.update_of_ne (by decide)]
      rfl
    have hdurable := durable_migrationInitialize sha256 journalKey haccepts hslot1
      (hverified completed)
    refine ⟨⟨_, _, hdurable⟩, fun a b _ hb => ?_⟩
    change decodeSlot sha256 journalKey (Storage.slots _ 1) = some b at hb
    rw [hslot1] at hb
    cases hb
  | step before h ih => exact h.invariant sha256 journalKey ih

/-- A commit attempt from `s` to `s'`: a load then returns what it returned before, or the
committed value with the next generation; the record loaded before is not overwritten. -/
def CommitAtomic (nextValue : MigrationValue) (s s' : Storage) : Prop :=
  ∃ value slot, s.loaded sha256 journalKey = .ok (value, slot) ∧
    (s'.loaded sha256 journalKey = .ok (value, slot) ∨
      s'.loaded sha256 journalKey
          = .ok ({ nextValue with generation := value.generation + 1 }, slot ^^^ 1) ∧
        value.generation.toNat + 1 < 2 ^ 32) ∧
    ∀ record, (slot, record) ∉ s'.written

/-- The value loaded in `s'` does not go back behind the one loaded in `s`. -/
def LoadsForward (s s' : Storage) : Prop :=
  ∃ value slot value' slot', s.loaded sha256 journalKey = .ok (value, slot) ∧
    s'.loaded sha256 journalKey = .ok (value', slot') ∧
    value.generation ≤ value'.generation ∧ value.state ≤ value'.state ∧
    value.epoch ≤ value'.epoch

/-- Any further calls of a journal. -/
def TornRun : Storage → Storage → Prop :=
  Relation.ReflTransGen fun s s' => ∃ op, TornStep sha256 journalKey op s s'

theorem TornStep.commitAtomic {nextValue : MigrationValue} {s s' : Storage}
    (h : TornStep sha256 journalKey (.commit nextValue) s s')
    (hi : JournalInvariant sha256 journalKey s) :
    CommitAtomic sha256 journalKey nextValue s s' := by
  obtain ⟨⟨i, v, hdurable⟩, ha⟩ := hi
  have heffect := h.effect sha256 journalKey hdurable
  refine ⟨v, slotIndex i, loaded_of_durable sha256 journalKey hdurable, ?_, heffect.slot_kept⟩
  obtain hsame | ⟨next, hop, haccepts, hnext⟩ := heffect.durable sha256 journalKey ha hdurable
  · exact .inl (loaded_of_durable sha256 journalKey hsame)
  · cases hop
    rw [slotIndex_xor]
    exact .inr ⟨loaded_of_durable sha256 journalKey hnext, haccepts.generation_lt⟩

theorem TornStep.loadsForward {op : JournalOp} {s s' : Storage}
    (h : TornStep sha256 journalKey op s s') (hi : JournalInvariant sha256 journalKey s) :
    LoadsForward sha256 journalKey s s' := by
  obtain ⟨⟨i, v, hdurable⟩, ha⟩ := hi
  have heffect := h.effect sha256 journalKey hdurable
  have hloaded := loaded_of_durable sha256 journalKey hdurable
  obtain hsame | ⟨next, -, haccepts, hnext⟩ := heffect.durable sha256 journalKey ha hdurable
  · exact ⟨v, _, v, _, hloaded, loaded_of_durable sha256 journalKey hsame,
      UInt32.le_refl _, le_refl _, UInt64.le_refl _⟩
  · refine ⟨v, _, successor v next, _, hloaded, loaded_of_durable sha256 journalKey hnext,
      ?_, haccepts.state_le, haccepts.epoch⟩
    have hgeneration := haccepts.generationOf_successor
    rw [UInt32.le_iff_toNat_le]
    unfold generationOf at hgeneration
    omega

theorem TornRun.forward {s s' : Storage} (h : TornRun sha256 journalKey s s')
    (hi : JournalInvariant sha256 journalKey s) :
    JournalInvariant sha256 journalKey s' ∧ LoadsForward sha256 journalKey s s' := by
  induction h with
  | refl =>
    obtain ⟨i, v, hdurable⟩ := hi.current
    have hloaded := loaded_of_durable sha256 journalKey hdurable
    exact ⟨hi, v, _, v, _, hloaded, hloaded, UInt32.le_refl _, le_refl _, UInt64.le_refl _⟩
  | tail _ hstep ih =>
    obtain ⟨op, hstep⟩ := hstep
    obtain ⟨hinv, v, k, w, l, hv, hw, hgen, hstate, hepoch⟩ := ih
    obtain ⟨w', l', x, m, hw', hx, hgen', hstate', hepoch'⟩ :=
      hstep.loadsForward sha256 journalKey hinv
    cases hw.symm.trans hw'
    exact ⟨hstep.invariant sha256 journalKey hinv, v, k, x, m, hv, hx,
      UInt32.le_trans hgen hgen', le_trans hstate hstate', UInt64.le_trans hepoch hepoch'⟩

/-- The journal is crash atomic in every storage that a run can reach. -/
theorem reached_crashAtomic {s : Storage} (h : Reached sha256 journalKey s) :
    Adjacent generationOf (s.values sha256 journalKey) ∧
      (∀ nextValue s', TornStep sha256 journalKey (.commit nextValue) s s' →
        CommitAtomic sha256 journalKey nextValue s s') ∧
      ∀ s', TornRun sha256 journalKey s s' → LoadsForward sha256 journalKey s s' := by
  have hinv := h.invariant sha256 journalKey
  exact ⟨hinv.adjacent, fun _ _ hstep => hstep.commitAtomic sha256 journalKey hinv,
    fun _ hrun => (hrun.forward sha256 journalKey hinv).2⟩

/-- The journal after its initialization, with a constant hash function. -/
def freshJournal : Storage :=
  ((JournalOp.init (rollbackValue 0 0)).call (fun _ => Block.zero 32) (Block.zero 32)
    Storage.erased [] none).2

/-- A commit that is cut off and leaves zeros in its slot. -/
def tornJournal : Storage :=
  ((JournalOp.commit (rollbackValue 2 5)).call (fun _ => Block.zero 32) (Block.zero 32)
    freshJournal [] (some ⟨some (Block.zero 52), -1⟩)).2

theorem tornJournal_step : TornStep (fun _ => Block.zero 32) (Block.zero 32)
    (.commit (rollbackValue 2 5)) freshJournal tornJournal := by
  refine .call (some ⟨some (Block.zero 52), -1⟩) ?_
  rintro torn slot record heq -
  cases heq
  refine .inr ⟨Block.zero 52, rfl, fun value hdecoded => ?_⟩
  have hrejected : decodeRecord (fun _ => Block.zero 32) (Block.zero 52) (Block.zero 32)
      = .error .errState := by decide
  rw [hrejected] at hdecoded
  cases hdecoded

/-- A torn commit, and a complete one after it. -/
theorem freshJournal_crashAtomic :
    Reached (fun _ => Block.zero 32) (Block.zero 32) freshJournal ∧
      CommitAtomic (fun _ => Block.zero 32) (Block.zero 32) (rollbackValue 2 5) freshJournal
        tornJournal ∧
      LoadsForward (fun _ => Block.zero 32) (Block.zero 32) freshJournal
        ((JournalOp.commit (rollbackValue 2 6)).call (fun _ => Block.zero 32) (Block.zero 32)
          tornJournal [] none).2 := by
  have hreached : Reached (fun _ => Block.zero 32) (Block.zero 32) freshJournal :=
    .initialized _ none (by decide)
  obtain ⟨-, hatomic, hforward⟩ := reached_crashAtomic _ _ hreached
  refine ⟨hreached, hatomic _ _ tornJournal_step, hforward _ ?_⟩
  exact .tail (.single ⟨_, tornJournal_step⟩) ⟨_, .call none nofun⟩

end C0PQLink
