import Mathlib.Data.List.Pairwise
import C0PQLink.NanoPQ.Firmware

/-!
# Reset safety of the Nano

The boot epochs over whole lifetimes of a device: any number of boots, each cut off at any
moment by a loss of power.

* `main_wpCut`: a boot keeps the invariant of the journal and of the epochs used.
* `reached_resetSafe`: as long as no boot finds the largest generation, every epoch is
  used by one boot only.
-/

namespace C0PQLink.NanoPQ

open Foundation TwoSlot

variable (sha256 : Bytes → Block 32)

/-! ## The invariant -/

/-- The slot in which a record of the given generation lies. -/
def generationSlot (generation : UInt32) : Bool := generation &&& 1 = 1

theorem generationSlot_eq (generation : UInt32) :
    generationSlot generation = decide (generation.toNat % 2 = 1) := by
  unfold generationSlot
  congr 1
  rw [← UInt32.toNat_inj, UInt32.toNat_and]
  have h : UInt32.toNat 1 = 2 ^ 1 - 1 := rfl
  rw [h, Nat.and_two_pow_sub_one_eq_mod]
  rfl

theorem generationSlot_succ {generation : UInt32} (h : generation ≠ 0xffffffff) :
    generationSlot (generation + 1) = !generationSlot generation := by
  have hlt := generation.toNat_lt
  have hne : generation.toNat ≠ 2 ^ 32 - 1 := fun heq => h (UInt32.toNat_inj.mp heq)
  have hsucc : (generation + 1).toNat = generation.toNat + 1 := by
    rw [UInt32.toNat_add]
    exact Nat.mod_eq_of_lt (by simp; omega)
  rw [generationSlot_eq, generationSlot_eq, hsucc]
  by_cases hodd : generation.toNat % 2 = 1
  · have heven : ¬ (generation.toNat + 1) % 2 = 1 := by omega
    simp [hodd, heven]
  · have hodd' : (generation.toNat + 1) % 2 = 1 := by omega
    simp [hodd, hodd']

/-- What is true of every record that the firmware wrote. -/
structure GoodRecord (slot : Bool) (r : StateRecord) : Prop where
  slot_eq : generationSlot r.generation = slot
  authorized : r.authorized = 1
  generation_eq : r.generation.toNat = r.bootEpoch.toNat + 1

/-- The invariant of the journal: its records, and the epochs used so far, none of them
above the current record. -/
structure JournalInvariant (s : Board) : Prop where
  records : ∀ slot r, s.records slot = some r → GoodRecord slot r
  used : ∀ epoch ∈ s.epochs, epoch ≤ s.loaded.bootEpoch
  increasing : s.epochs.Pairwise (· > ·)

theorem JournalInvariant.of_same {s s' : Board} (h : JournalInvariant s)
    (hsame : SameJournal s s') : JournalInvariant s' := by
  refine ⟨?_, ?_, ?_⟩
  · rw [hsame.records]
    exact h.records
  · rw [hsame.epochs, hsame.loaded]
    exact h.used
  · rw [hsame.epochs]
    exact h.increasing

theorem loaded_of_newest {s : Board} {slot : Bool} {r : StateRecord}
    (h : newest recordGeneration s.records = some (slot, r)) : s.loaded = r := by
  rw [Board.loaded, h]

theorem loaded_of_none {s : Board} (h : newest recordGeneration s.records = none) :
    s.loaded = stateDefaults := by
  rw [Board.loaded, h]

theorem JournalInvariant.loaded_good {s : Board} (h : JournalInvariant s)
    (hauthorized : s.loaded.authorized ≠ 0) :
    ∃ slot, newest recordGeneration s.records = some (slot, s.loaded) ∧
      GoodRecord slot s.loaded := by
  rcases hnewest : newest recordGeneration s.records with _ | ⟨slot, r⟩
  · rw [loaded_of_none hnewest] at hauthorized
    exact absurd rfl hauthorized
  · rw [loaded_of_newest hnewest]
    exact ⟨slot, rfl, h.records slot r (newest_spec hnewest).1⟩

/-! ## One persist -/

/-- The state in RAM may be persisted: it continues the current record. -/
structure Continues (s : Board) (state : StateRecord) : Prop where
  authorized : state.authorized = 1
  generation : state.generation = s.loaded.generation
  room : state.generation ≠ 0xffffffff
  epoch : state.bootEpoch.toNat = state.generation.toNat
  newer : s.loaded.bootEpoch ≤ state.bootEpoch

variable {s : Board} {state : StateRecord}

theorem generation_persisted (hroom : state.generation ≠ 0xffffffff) :
    (persisted state).generation.toNat = state.generation.toNat + 1 := by
  have hlt := state.generation.toNat_lt
  have hne : state.generation.toNat ≠ 2 ^ 32 - 1 := fun heq => hroom (UInt32.toNat_inj.mp heq)
  change (state.generation + 1).toNat = _
  rw [UInt32.toNat_add]
  exact Nat.mod_eq_of_lt (by simp; omega)

theorem Continues.good (h : Continues s state) :
    GoodRecord (persistSlot state) (persisted state) := by
  refine ⟨rfl, h.authorized, ?_⟩
  rw [generation_persisted h.room, ← h.epoch]
  rfl

/-- The slot that a persist writes is not the one of the current record, and the new record
is newer. -/
def Follows (s : Board) (state : StateRecord) : Prop :=
  newest recordGeneration s.records = none ∨
    ∃ r, newest recordGeneration s.records = some (!persistSlot state, r) ∧
      recordGeneration r < recordGeneration (persisted state)

theorem Continues.follows (h : Continues s state) (hi : JournalInvariant s) :
    Follows s state := by
  rcases hnewest : newest recordGeneration s.records with _ | ⟨slot, r⟩
  · exact .inl hnewest
  · right
    have hloaded := loaded_of_newest hnewest
    have hgood := hi.records slot r (newest_spec hnewest).1
    have hgeneration : state.generation = r.generation := by rw [h.generation, hloaded]
    have hslot : persistSlot state = !slot := by
      change generationSlot (state.generation + 1) = _
      rw [generationSlot_succ h.room, hgeneration, hgood.slot_eq]
    refine ⟨r, by rw [hslot, Bool.not_not, hnewest], ?_⟩
    unfold recordGeneration
    rw [generation_persisted h.room, hgeneration]
    exact Nat.lt_succ_self _

theorem newest_update_none {i : Bool} {x : StateRecord} {records : Slots StateRecord}
    (h : newest recordGeneration records = none) :
    newest recordGeneration (Function.update records i (some x)) = some (i, x) := by
  refine newest_of_lt (Function.update_self _ _ _) fun w hw => ?_
  have hnone := newest_eq_none.mp h
  rw [Function.update_of_ne (by cases i <;> decide)] at hw
  cases i <;> simp_all

/-- The current record once the persist is complete. -/
theorem Follows.newest_done (h : Follows s state) {content : Block 18}
    (hcontent : slotRecord content = some (persisted state)) :
    newest recordGeneration (s.setSlot (persistSlot state) content).records
      = some (persistSlot state, persisted state) := by
  rw [records_setSlot, hcontent]
  rcases h with hnone | ⟨r, hnewest, hlt⟩
  · exact newest_update_none hnone
  · have := newest_update_newer (newest_spec hnewest).1 hlt
    rwa [Bool.not_not] at this

/-- The current record when the persist lost the record of the slot it writes. -/
theorem Follows.newest_lost (h : Follows s state) {content : Block 18}
    (hcontent : slotRecord content = none) :
    newest recordGeneration (s.setSlot (persistSlot state) content).records
      = newest recordGeneration s.records := by
  rw [records_setSlot, hcontent]
  rcases h with hnone | ⟨r, hnewest, -⟩
  · have hboth := newest_eq_none.mp hnone
    have hsame : Function.update s.records (persistSlot state) none = s.records := by
      rw [Function.update_eq_iff]
      refine ⟨?_, fun _ _ => rfl⟩
      cases persistSlot state
      · exact hboth.1.symm
      · exact hboth.2.symm
    rw [hsame]
  · have hlost : newest recordGeneration (Function.update s.records (!!persistSlot state) none)
        = some (!persistSlot state, r) := newest_update_older hnewest nofun
    rw [Bool.not_not] at hlost
    rw [hlost, hnewest]

theorem JournalInvariant.torn (hi : JournalInvariant s) (h : Continues s state)
    {content : Block 18}
    (hcontent : slotRecord content = slotRecord (s.eeprom (persistSlot state)) ∨
      slotRecord content = none ∨ slotRecord content = some (persisted state)) :
    JournalInvariant (s.setSlot (persistSlot state) content) := by
  have hrecords := records_setSlot s (persistSlot state) content
  rcases hcontent with hold | hnone | hnew
  · have hsame : (s.setSlot (persistSlot state) content).records = s.records := by
      rw [hrecords, hold]
      exact Function.update_eq_self _ _
    have hloaded : (s.setSlot (persistSlot state) content).loaded = s.loaded := by
      unfold Board.loaded
      rw [hsame]
    refine ⟨by rw [hsame]; exact hi.records, ?_, hi.increasing⟩
    rw [hloaded]
    exact hi.used
  · have hloaded : (s.setSlot (persistSlot state) content).loaded = s.loaded := by
      unfold Board.loaded
      rw [(h.follows hi).newest_lost hnone]
    refine ⟨fun slot r hr => ?_, ?_, hi.increasing⟩
    · rw [hrecords, hnone] at hr
      rcases eq_or_ne slot (persistSlot state) with rfl | hne
      · rw [Function.update_self] at hr
        cases hr
      · rw [Function.update_of_ne hne] at hr
        exact hi.records slot r hr
    · rw [hloaded]
      exact hi.used
  · have hloaded := loaded_of_newest ((h.follows hi).newest_done hnew)
    refine ⟨fun slot r hr => ?_, fun epoch hepoch => ?_, hi.increasing⟩
    · rw [hrecords, hnew] at hr
      rcases eq_or_ne slot (persistSlot state) with rfl | hne
      · rw [Function.update_self] at hr
        cases hr
        exact h.good
      · rw [Function.update_of_ne hne] at hr
        exact hi.records slot r hr
    · rw [hloaded]
      exact UInt32.le_trans (hi.used epoch hepoch) h.newer

/-- A persist of a state that continues the current record. -/
theorem Continues.persist_wpCut (h : Continues s state) (hi : JournalInvariant s)
    {Q : StateRecord → Board → Prop}
    (hq : ∀ s', JournalInvariant s' → s'.loaded = persisted state → s'.epochs = s.epochs →
      Q (persisted state) s') :
    (statePersist state).wpCut boardStep boardInterrupt JournalInvariant Q s := by
  have hle : state.authorized ≤ 1 := by
    rw [h.authorized]
    decide
  refine statePersist_wpCut hle hi (fun content hcontent => hi.torn h hcontent) ?_
  have hrecord := slotRecord_persisted hle
  exact hq _ (hi.torn h (.inr (.inr hrecord)))
    (loaded_of_newest ((h.follows hi).newest_done hrecord)) rfl

/-! ## One boot -/

variable (flash : Provisioning)

theorem authorizePostQuantum_wpCut (hi : JournalInvariant s) (hloaded : s.loaded = stateDefaults)
    {Q : Bool × StateRecord → Board → Prop}
    (hreject : ∀ s', SameJournal s s' → Q (false, stateDefaults) s')
    (haccept : ∀ state s', JournalInvariant s' → s'.loaded = state → state.authorized = 1 →
      state.generation = 1 → s'.epochs = s.epochs → Q (true, state) s') :
    (authorizePostQuantum flash stateDefaults).wpCut boardStep boardInterrupt
      JournalInvariant Q s := by
  refine Program.wpCut_bind (quiet_wpCut (quiet_of_plain (uartSendFrame_plain _))
    (fun _ => hi.of_same)
    fun _ s1 h1 => ?_)
  refine Program.wpCut_bind (quiet_wpCut (quiet_of_plain uartReadFrame_plain)
    (fun _ h => hi.of_same (h1.trans h)) fun frame s2 h2 => ?_)
  have hsend (status : UInt8) {s3 : Board} (h3 : SameJournal s s3) :
      (do
        uartSendFrame (makeControlFrame npqFrameEnrollResult status)
        return (false, stateDefaults) : Firmware (Bool × StateRecord)).wpCut boardStep
          boardInterrupt JournalInvariant Q s3 :=
    Program.wpCut_bind (quiet_wpCut (quiet_of_plain (uartSendFrame_plain _))
      (fun _ h => hi.of_same (h3.trans h)) fun _ s4 h4 =>
        ⟨hi.of_same (h3.trans h4), hreject s4 (h3.trans h4)⟩)
  simp only
  split
  · exact hsend 0 (h1.trans h2)
  refine Program.wpCut_bind (quiet_wpCut (Program.only_perform trivial)
    (fun _ h => hi.of_same ((h1.trans h2).trans h)) fun verdict s3 h3 => ?_)
  have hsame := (h1.trans h2).trans h3
  split
  · exact hsend 0 hsame
  have hcontinues : Continues s3 { stateDefaults with
      authorized := 1, policySequence := load32BE (slice (frame.getD []) 44 4) } := by
    refine ⟨rfl, ?_, ?_, rfl, ?_⟩
    · rw [hsame.loaded, hloaded]
    · exact (by decide : (0 : UInt32) ≠ 0xffffffff)
    · rw [hsame.loaded, hloaded]
      exact UInt32.le_refl _
  refine Program.wpCut_bind (hcontinues.persist_wpCut (hi.of_same hsame)
    fun s4 hi4 hloaded4 hepochs4 => ?_)
  refine Program.wpCut_bind (quiet_wpCut (quiet_of_plain (uartSendFrame_plain _))
    (fun _ => hi4.of_same)
    fun _ s5 h5 => ⟨hi4.of_same h5, ?_⟩)
  refine haccept _ s5 (hi4.of_same h5) (h5.loaded.trans hloaded4) rfl rfl ?_
  rw [h5.epochs, hepochs4, hsame.epochs]

/-- The state that leaves the authorization loop is the current record. -/
theorem authorizeLoop_wpCut (attempts : Nat) (hi : JournalInvariant s)
    (hroom : s.loaded.generation ≠ 0xffffffff) {Q : Option StateRecord → Board → Prop}
    (hnone : ∀ s', JournalInvariant s' → Q none s')
    (hsome : ∀ s', JournalInvariant s' → s'.loaded.authorized ≠ 0 →
      s'.loaded.generation ≠ 0xffffffff → s'.epochs = s.epochs → Q (some s'.loaded) s') :
    (authorizeLoop flash attempts s.loaded).wpCut boardStep boardInterrupt JournalInvariant Q s := by
  induction attempts generalizing s with
  | zero =>
    unfold authorizeLoop
    by_cases hauthorized : s.loaded.authorized = 0
    · rw [if_pos hauthorized]
      exact ⟨hi, hnone s hi⟩
    · rw [if_neg hauthorized]
      exact ⟨hi, hsome s hi hauthorized hroom rfl⟩
  | succ attempts ih =>
    unfold authorizeLoop
    by_cases hauthorized : s.loaded.authorized = 0
    · have hdefaults : s.loaded = stateDefaults := by
        rcases hnewest : newest recordGeneration s.records with _ | ⟨slot, r⟩
        · exact loaded_of_none hnewest
        · rw [loaded_of_newest hnewest,
            (hi.records slot r (newest_spec hnewest).1).authorized] at hauthorized
          cases hauthorized
      rw [if_pos hauthorized, hdefaults]
      refine Program.wpCut_bind (authorizePostQuantum_wpCut flash hi hdefaults
        (fun s' hsame => ?_) fun state s' hi' hloaded hauthorized' hgeneration hepochs => ?_)
      · have hloaded' : s'.loaded = stateDefaults := hsame.loaded.trans hdefaults
        have hrest := ih (hi.of_same hsame) (by rw [hsame.loaded]; exact hroom)
          fun s'' hi'' ha hg he => hsome s'' hi'' ha hg (he.trans hsame.epochs)
        rw [hloaded'] at hrest
        exact hrest
      · have hrest := ih hi' (by rw [hloaded, hgeneration]; decide)
          fun s'' hi'' ha hg he => hsome s'' hi'' ha hg (he.trans hepochs)
        rw [hloaded] at hrest
        exact hrest
    · rw [if_neg hauthorized]
      exact ⟨hi, hsome s hi hauthorized hroom rfl⟩

theorem JournalInvariant.hello (hi : JournalInvariant s) {bootEpoch : UInt32}
    (hloaded : s.loaded.bootEpoch = bootEpoch) (hused : ∀ epoch ∈ s.epochs, epoch < bootEpoch) :
    JournalInvariant (s.log (.hello bootEpoch)) := by
  have hepochs : (s.log (.hello bootEpoch)).epochs = bootEpoch :: s.epochs := rfl
  refine ⟨hi.records, fun epoch hepoch => ?_, ?_⟩
  · rw [hepochs, List.mem_cons] at hepoch
    change epoch ≤ s.loaded.bootEpoch
    rcases hepoch with rfl | hepoch
    · rw [hloaded]
      exact UInt32.le_refl _
    · exact hi.used epoch hepoch
  · rw [hepochs, List.pairwise_cons]
    exact ⟨hused, hi.increasing⟩

/-- The state after the increment in `main` continues the current record. -/
theorem JournalInvariant.continues (hi : JournalInvariant s) (hauthorized : s.loaded.authorized ≠ 0)
    (hroom : s.loaded.generation ≠ 0xffffffff) :
    Continues s { s.loaded with bootEpoch := s.loaded.bootEpoch + 1 } ∧
      s.loaded.bootEpoch < s.loaded.bootEpoch + 1 := by
  obtain ⟨slot, -, hgood⟩ := hi.loaded_good hauthorized
  have hgeneration := hgood.generation_eq
  have hlt := s.loaded.generation.toNat_lt
  have hepoch : (s.loaded.bootEpoch + 1).toNat = s.loaded.bootEpoch.toNat + 1 := by
    rw [UInt32.toNat_add]
    exact Nat.mod_eq_of_lt (by simp; omega)
  have hless : s.loaded.bootEpoch < s.loaded.bootEpoch + 1 := by
    rw [UInt32.lt_iff_toNat_lt, hepoch]
    exact Nat.lt_succ_self _
  exact ⟨⟨hgood.authorized, rfl, hroom, hepoch.trans hgeneration.symm, UInt32.le_of_lt hless⟩, hless⟩

/-- A boot that does not start from the largest generation keeps the invariant, wherever
it is cut off. -/
theorem main_wpCut (attempts rounds : Nat) (hi : JournalInvariant s)
    (hroom : s.loaded.generation ≠ 0xffffffff) :
    (main sha256 flash attempts rounds).wpCut boardStep boardInterrupt JournalInvariant
      (fun _ => JournalInvariant) s := by
  refine Program.wpCut_bind (quiet_wpCut (Program.only_perform trivial) (fun _ => hi.of_same)
    fun _ s1 h1 => ?_)
  have hi1 := hi.of_same h1
  refine Program.wpCut_bind (stateLoad_wpCut hi1 ?_)
  refine Program.wpCut_bind (authorizeLoop_wpCut flash attempts hi1
    (by rw [h1.loaded]; exact hroom) (fun _ hi2 => ⟨hi2, hi2⟩) ?_)
  intro s2 hi2 hauthorized hroom2 hepochs
  simp only
  split
  · exact ⟨hi2, hi2⟩
  obtain ⟨hcontinues, hless⟩ := hi2.continues hauthorized hroom2
  refine Program.wpCut_bind (hcontinues.persist_wpCut hi2 fun s3 hi3 hloaded3 hepochs3 => ?_)
  have hepoch3 : s3.loaded.bootEpoch = s2.loaded.bootEpoch + 1 := by
    rw [hloaded3]
    rfl
  have hhello : JournalInvariant (s3.log (.hello (s2.loaded.bootEpoch + 1))) := by
    refine hi3.hello hepoch3 fun epoch hepoch => ?_
    rw [hepochs3] at hepoch
    exact UInt32.lt_of_le_of_lt (hi2.used epoch hepoch) hless
  refine Program.wpCut_bind (Program.wpCut_bind (Program.wpCut_perform hi3 ?_ fun _ s4 h4 =>
    ⟨?_, quiet_wpCut (quiet_of_plain (handshake_plain sha256 flash _)) ?_ fun session s5 h5 => ?_⟩))
  · rintro s4 rfl
    exact hi3
  · obtain rfl := h4
    exact hhello
  · obtain rfl := h4
    exact fun _ h => hhello.of_same h
  · obtain rfl := h4
    have hi5 := hhello.of_same h5
    cases session with
    | none => exact ⟨hi5, hi5⟩
    | some session =>
      exact quiet_wpCut (quiet_of_plain (recordLoop_plain sha256 _ _ _ _)) (fun _ => hi5.of_same)
        fun _ _ => hi5.of_same

/-! ## Lifetimes -/

/-- The boards a lifetime can reach: a board without a valid slot, and any boots, each cut
off anywhere and started on a board that satisfies `P`. -/
inductive Reached (P : Board → Prop) : Board → Prop where
  | fresh (s : Board) (empty : ∀ slot, s.records slot = none) (events : s.events = []) :
      Reached P s
  | boot {s s' : Board} (attempts rounds : Nat) (before : Reached P s) (start : P s)
      (h : Program.Cut boardStep boardInterrupt (main sha256 flash attempts rounds) s s') :
      Reached P s'

/-- No epoch is used by two boots, later boots use larger ones, and after the last epoch
no boot starts a handshake. -/
structure ResetSafe (s : Board) : Prop where
  increasing : s.epochs.Pairwise fun later earlier => earlier < later
  exhausted : ∀ later earlier, s.epochs = later ++ 0xffffffff :: earlier → later = []

/-- The next persist of the board does not wrap the generation counter. -/
def GenerationLeft (s : Board) : Prop := s.loaded.generation ≠ 0xffffffff

theorem JournalInvariant.fresh (empty : ∀ slot, s.records slot = none) (events : s.events = []) :
    JournalInvariant s := by
  have hepochs : s.epochs = [] := by
    rw [Board.epochs, events]
    rfl
  refine ⟨fun slot r hr => ?_, ?_, ?_⟩
  · rw [empty slot] at hr
    cases hr
  · rw [hepochs]
    exact nofun
  · rw [hepochs]
    exact .nil

theorem Reached.invariant (h : Reached sha256 flash GenerationLeft s) : JournalInvariant s := by
  induction h with
  | fresh s empty events => exact .fresh empty events
  | boot attempts rounds _ start hcut ih =>
    exact hcut.invariant (main_wpCut sha256 flash attempts rounds ih start)

theorem resetSafe_of_increasing (h : s.epochs.Pairwise (· > ·)) : ResetSafe s := by
  refine ⟨h, fun later earlier heq => ?_⟩
  cases later with
  | nil => rfl
  | cons epoch later =>
    rw [heq, List.cons_append, List.pairwise_cons] at h
    have hlt := h.1 0xffffffff (by simp)
    have := epoch.toNat_lt
    have : UInt32.toNat 0xffffffff < epoch.toNat := hlt
    have hmax : UInt32.toNat 0xffffffff = 2 ^ 32 - 1 := rfl
    omega

/-! ## The last generation -/

theorem Reached.mono {P Q : Board → Prop} (hpq : ∀ s, P s → Q s)
    (h : Reached sha256 flash P s) : Reached sha256 flash Q s := by
  induction h with
  | fresh s empty events => exact .fresh s empty events
  | boot attempts rounds _ start hcut ih => exact .boot attempts rounds ih (hpq _ start) hcut

theorem stateLoad_outcome (s : Board) : Program.Outcome boardStep stateLoad s s.loaded s := by
  rw [← chooseState_eq_loaded]
  exact .call ⟨rfl, rfl⟩ (.call ⟨rfl, rfl⟩ (.done _ _))

theorem eepromUpdate_outcome (slot : Bool) (offset : Nat) (bytes : Bytes) (s : Board) :
    Program.Outcome boardStep
      (Program.perform (BoardCall.eepromUpdate slot offset bytes) : Firmware Unit) s ()
      (s.setSlot slot (overwrite (s.eeprom slot) offset bytes)) :=
  .call (show boardStep _ _ () _ from rfl) (.done _ _)

theorem statePersist_outcome (state : StateRecord) (s : Board) :
    Program.Outcome boardStep (statePersist state) s (persisted state)
      (s.setSlot (persistSlot state) (persisted state).bytes) := by
  have hcontent : overwrite (overwrite (overwrite (s.eeprom (persistSlot state)) 0 [0, 0]) 2
      ((persisted state).bytes.val.drop 2)) 0 (store16BE npqStateMagic).reverse
        = (persisted state).bytes := by
    refine completed_eq rfl (partlyWritten_overwrite _ _ _) ⟨?_, ?_⟩
    · rw [byteAt_overwrite _ _ _ (by decide)]
      rfl
    · rw [byteAt_overwrite _ _ _ (by decide)]
      rfl
  have h1 := eepromUpdate_outcome (persistSlot state) 0 [0, 0] s
  have h2 := eepromUpdate_outcome (persistSlot state) 2 ((persisted state).bytes.val.drop 2)
    (s.setSlot (persistSlot state) (overwrite (s.eeprom (persistSlot state)) 0 [0, 0]))
  rw [setSlot_eeprom, setSlot_setSlot] at h2
  have h3 := eepromUpdate_outcome (persistSlot state) 0 (store16BE npqStateMagic).reverse
    (s.setSlot (persistSlot state) (overwrite (overwrite (s.eeprom (persistSlot state)) 0 [0, 0]) 2
      ((persisted state).bytes.val.drop 2)))
  rw [setSlot_eeprom, setSlot_setSlot, hcontent] at h3
  exact h1.bind (h2.bind (h3.bind (.done _ _)))

/-- The board after an authorized boot whose power is cut behind the persist. -/
def Board.afterPersist (s : Board) : Board :=
  let state := { s.loaded with bootEpoch := s.loaded.bootEpoch + 1 }
  s.setSlot (persistSlot state) (persisted state).bytes

/-- The board after an authorized boot that is powered until it sends its hello. -/
def Board.afterHello (s : Board) : Board :=
  let state := { s.loaded with bootEpoch := s.loaded.bootEpoch + 1 }
  (s.setSlot (persistSlot state) (persisted state).bytes).log (.hello state.bootEpoch)

theorem main_cut (hauthorized : s.loaded.authorized ≠ 0) (hepoch : s.loaded.bootEpoch ≠ 0xffffffff)
    {s' : Board} (h : Program.Cut boardStep boardInterrupt
      (establishSession sha256 flash (s.loaded.bootEpoch + 1)) s.afterPersist s') :
    Program.Cut boardStep boardInterrupt (main sha256 flash 0 0) s s' := by
  have hloop : authorizeLoop flash 0 s.loaded = pure (some s.loaded) := by
    unfold authorizeLoop
    rw [if_neg hauthorized]
  have hled : Program.Outcome boardStep (Program.perform (BoardCall.ledSet false) : Firmware Unit)
      s () s := .call (show boardStep _ _ () _ from rfl) (.done _ _)
  refine hled.cut_bind ((stateLoad_outcome s).cut_bind ?_)
  rw [hloop]
  simp only [pure_bind, hepoch, if_false]
  exact (statePersist_outcome _ _).cut_bind (Program.Cut.bind h _)

theorem persist_cut (hauthorized : s.loaded.authorized ≠ 0)
    (hepoch : s.loaded.bootEpoch ≠ 0xffffffff) :
    Program.Cut boardStep boardInterrupt (main sha256 flash 0 0) s s.afterPersist :=
  main_cut sha256 flash hauthorized hepoch (.stop _ _)

theorem boot_cut (hauthorized : s.loaded.authorized ≠ 0)
    (hepoch : s.loaded.bootEpoch ≠ 0xffffffff) :
    Program.Cut boardStep boardInterrupt (main sha256 flash 0 0) s s.afterHello :=
  main_cut sha256 flash hauthorized hepoch (.call (show boardStep _ _ () _ from rfl) (.stop _ _))

/-! ### Enrollment -/

theorem uartReadExact_outcome (bytes : Bytes) (s : Board) :
    Program.Outcome boardStep (uartReadExact bytes.length) s (some bytes) s := by
  induction bytes with
  | nil => exact .done _ _
  | cons value rest ih =>
    refine .call (show boardStep .uartGet s (some value) s from rfl) ?_
    exact ih.bind (.done _ _)

theorem uartReadFrame_outcome {frame : Bytes} (hpos : 0 < frame.length)
    (hle : frame.length ≤ npqFrameMaxBytes) (s : Board) :
    Program.Outcome boardStep uartReadFrame s (some frame) s := by
  have hlt : frame.length < 256 := lt_of_le_of_lt hle (by decide)
  have hlength : (UInt8.ofNat frame.length).toNat = frame.length := by
    rw [UInt8.toNat_ofNat']
    omega
  refine .call (show boardStep .uartGet s (some (UInt8.ofNat frame.length)) s from rfl) ?_
  have hzero : UInt8.ofNat frame.length ≠ 0 := fun heq => by
    rw [heq] at hlength
    have : UInt8.toNat 0 = 0 := rfl
    omega
  change Program.Outcome boardStep (if UInt8.ofNat frame.length = 0
    ∨ (UInt8.ofNat frame.length).toNat > npqFrameMaxBytes then _ else _) s _ s
  rw [if_neg (by rw [hlength]; simp only [not_or]; exact ⟨hzero, by omega⟩), hlength]
  exact uartReadExact_outcome frame s

theorem uartPutAll_outcome (frame : Bytes) (s : Board) :
    Program.Outcome boardStep (uartPutAll frame) s () s := by
  induction frame with
  | nil => exact .done _ _
  | cons value rest ih => exact .call (show boardStep (.uartPut value) s () s from rfl) ih

theorem uartSendFrame_outcome (frame : Bytes) (s : Board) :
    Program.Outcome boardStep (uartSendFrame frame) s () s :=
  .call (show boardStep (.uartPut _) s () s from rfl) (uartPutAll_outcome frame s)

/-- The enrollment frame with policy sequence 1. -/
def enrollFrame (flash : Provisioning) : Bytes :=
  [0x4e, 0x51, 1, npqFrameEnrollBegin, 0x51, 0x50, 0x43, 0x31, 1, 1, 1, 2]
    ++ flash.deviceClassId.val ++ flash.legacyPolicyDigest.val ++ store32BE 1 ++ [0, 0, 0, 0]

theorem enrollFrame_valid :
    (enrollFrame flash).length = npqPolicyFrameBytes ∧
      manifestValid flash stateDefaults ((enrollFrame flash).drop 4) = true ∧
      load32BE (slice (enrollFrame flash) 44 4) = 1 := by
  have hlength : (enrollFrame flash).length = 52 := by simp [enrollFrame]
  have hsequence : slice (enrollFrame flash) 44 4 = store32BE 1 :=
    slice_field (by simp) (by simp)
  have hclass : slice ((enrollFrame flash).drop 4) 8 16 = flash.deviceClassId.val := by
    have hfield : slice (enrollFrame flash) 12 16 = flash.deviceClassId.val := by
      unfold enrollFrame
      rw [slice_append_left (by simp), slice_append_left (by simp)]
      exact slice_field (by simp) (by simp)
    rw [← hfield, slice, slice, List.drop_drop]
  have hdigest : slice ((enrollFrame flash).drop 4) 24 16 = flash.legacyPolicyDigest.val := by
    have hfield : slice (enrollFrame flash) 28 16 = flash.legacyPolicyDigest.val := by
      unfold enrollFrame
      rw [slice_append_left (by simp)]
      exact slice_field (by simp) (by simp)
    rw [← hfield, slice, slice, List.drop_drop]
  have hpolicy : slice ((enrollFrame flash).drop 4) 40 4 = store32BE 1 := by
    rw [← hsequence, slice, slice, List.drop_drop]
  refine ⟨hlength, ?_, by rw [hsequence, load32BE_store32BE]⟩
  have hnewer : load32BE (store32BE 1) > stateDefaults.policySequence := by
    rw [load32BE_store32BE]
    decide
  simp only [manifestValid, hclass, hdigest, hpolicy, hnewer, decide_eq_true_eq, and_true]
  exact ⟨rfl, rfl, rfl, rfl, rfl, rfl, rfl, rfl⟩

def enrolled : StateRecord := { stateDefaults with authorized := 1, policySequence := 1 }

/-- A fresh board after an enrollment whose power is cut behind the persist. -/
def Board.afterEnrollment (s : Board) (flash : Provisioning) : Board :=
  (s.log (.signature ((enrollFrame flash).drop 4) true flash.algorithm.signatureBytes)).setSlot
    (persistSlot enrolled) (persisted enrolled).bytes

theorem enroll_cut (hdefaults : s.loaded = stateDefaults) :
    Program.Cut boardStep boardInterrupt (main sha256 flash 1 0) s (s.afterEnrollment flash) := by
  obtain ⟨hlength, hvalid, hsequence⟩ := enrollFrame_valid flash
  have hauthorize : Program.Cut boardStep boardInterrupt (authorizePostQuantum flash stateDefaults)
      s (s.afterEnrollment flash) := by
    have hread : Program.Outcome boardStep uartReadFrame s (some (enrollFrame flash)) s :=
      uartReadFrame_outcome (by rw [hlength]; decide) (by rw [hlength]; decide) s
    refine (uartSendFrame_outcome _ s).cut_bind (hread.cut_bind ?_)
    have haccepted : ¬ ((enrollFrame flash).length ≠ npqPolicyFrameBytes
        ∨ byteAt (enrollFrame flash) 0 ≠ 0x4e ∨ byteAt (enrollFrame flash) 1 ≠ 0x51
        ∨ byteAt (enrollFrame flash) 2 ≠ 1 ∨ byteAt (enrollFrame flash) 3 ≠ npqFrameEnrollBegin
        ∨ manifestValid flash stateDefaults ((enrollFrame flash).drop 4) = false) := by
      simp only [not_or, not_not, hvalid]
      exact ⟨hlength, rfl, rfl, rfl, rfl, by decide⟩
    simp only [Option.getD_some, haccepted, if_false]
    refine Program.Outcome.cut_bind (Program.Outcome.perform
      (show boardStep (.verifySignature _) s (true, flash.algorithm.signatureBytes) _ from rfl)) ?_
    simp only [Bool.true_eq_false, ne_eq, not_true, or_self, if_false, hsequence]
    exact (statePersist_outcome enrolled _).cut_bind (.stop _ _)
  have hled : Program.Outcome boardStep (Program.perform (BoardCall.ledSet false) : Firmware Unit)
      s () s := .call (show boardStep _ _ () _ from rfl) (.done _ _)
  refine hled.cut_bind ((stateLoad_outcome s).cut_bind (Program.Cut.bind ?_ _))
  rw [hdefaults, authorizeLoop, if_pos (show stateDefaults.authorized = 0 from rfl)]
  exact hauthorize.bind _

/-! ### The whole range of epochs -/

/-- A reachable board with a current record of the given generation. -/
structure AtGeneration (generation : Nat) (s : Board) : Prop where
  reached : Reached sha256 flash GenerationLeft s
  authorized : s.loaded.authorized ≠ 0
  generation_eq : s.loaded.generation.toNat = generation

def blankBoard : Board := ⟨fun _ => ⟨List.replicate 18 0xff, by simp⟩, []⟩

theorem loaded_setSlot_persisted (h : Continues s state) (hi : JournalInvariant s)
    (hle : state.authorized ≤ 1) :
    (s.setSlot (persistSlot state) (persisted state).bytes).loaded = persisted state :=
  loaded_of_newest ((h.follows hi).newest_done (slotRecord_persisted hle))

theorem atGeneration_one : AtGeneration sha256 flash 1 (blankBoard.afterEnrollment flash) := by
  have hempty : ∀ slot, blankBoard.records slot = none := fun slot => slotRecord_eq_none (.inl (by
    change byteAt (List.replicate 18 0xff) 0 ≠ 0x50
    decide))
  have hloaded : blankBoard.loaded = stateDefaults :=
    loaded_of_none (newest_eq_none.mpr ⟨hempty false, hempty true⟩)
  have hfresh : Reached sha256 flash GenerationLeft blankBoard := .fresh _ hempty rfl
  have hroom : GenerationLeft blankBoard := by
    unfold GenerationLeft
    rw [hloaded]
    decide
  have hcontinues : Continues (blankBoard.log (.signature ((enrollFrame flash).drop 4) true
      flash.algorithm.signatureBytes)) enrolled := by
    have hlog : (blankBoard.log (.signature ((enrollFrame flash).drop 4) true
        flash.algorithm.signatureBytes)).loaded = stateDefaults := by
      rw [Board.loaded, log_records]
      exact hloaded
    refine ⟨rfl, ?_, by decide, rfl, ?_⟩
    · rw [hlog]
      rfl
    · rw [hlog]
      exact UInt32.le_refl _
  have hcurrent := loaded_setSlot_persisted hcontinues (hfresh.invariant.of_same ⟨rfl, rfl⟩)
    (by decide)
  refine ⟨hfresh.boot 1 0 hroom (enroll_cut sha256 flash hloaded), ?_, ?_⟩
  · rw [Board.afterEnrollment, hcurrent]
    decide
  · rw [Board.afterEnrollment, hcurrent]
    decide

theorem afterHello_epochs (s : Board) :
    s.afterHello.epochs = (s.loaded.bootEpoch + 1) :: s.epochs := rfl

variable {generation : Nat}

theorem AtGeneration.epoch_ne (h : AtGeneration sha256 flash generation s) :
    s.loaded.bootEpoch ≠ 0xffffffff := by
  obtain ⟨slot, -, hgood⟩ := h.reached.invariant.loaded_good h.authorized
  intro hmax
  have hgeneration := hgood.generation_eq
  have hlt := s.loaded.generation.toNat_lt
  rw [hmax] at hgeneration
  have : UInt32.toNat 0xffffffff = 2 ^ 32 - 1 := rfl
  omega

theorem AtGeneration.room (h : AtGeneration sha256 flash generation s)
    (hlt : generation + 1 < 2 ^ 32) : GenerationLeft s := fun hmax => by
  have hgeneration := h.generation_eq
  rw [hmax] at hgeneration
  have : UInt32.toNat 0xffffffff = 2 ^ 32 - 1 := rfl
  omega

theorem AtGeneration.loaded_afterPersist (h : AtGeneration sha256 flash generation s)
    (hlt : generation + 1 < 2 ^ 32) :
    s.afterPersist.loaded = persisted { s.loaded with bootEpoch := s.loaded.bootEpoch + 1 } ∧
      s.afterPersist.loaded.generation.toNat = generation + 1 := by
  have hi := h.reached.invariant
  obtain ⟨hcontinues, -⟩ := hi.continues h.authorized (h.room sha256 flash hlt)
  have hle : s.loaded.authorized ≤ 1 := by
    obtain ⟨slot, -, hgood⟩ := hi.loaded_good h.authorized
    rw [hgood.authorized]
    decide
  have hloaded : s.afterPersist.loaded
      = persisted { s.loaded with bootEpoch := s.loaded.bootEpoch + 1 } :=
    loaded_setSlot_persisted hcontinues hi hle
  refine ⟨hloaded, ?_⟩
  rw [hloaded, generation_persisted hcontinues.room]
  exact congrArg (· + 1) h.generation_eq

/-- A boot that is cut off before it sends its hello. -/
theorem AtGeneration.lost (h : AtGeneration sha256 flash generation s)
    (hlt : generation + 1 < 2 ^ 32) :
    AtGeneration sha256 flash (generation + 1) s.afterPersist := by
  obtain ⟨hloaded, hgeneration⟩ := h.loaded_afterPersist sha256 flash hlt
  refine ⟨h.reached.boot 0 0 (h.room sha256 flash hlt)
    (persist_cut sha256 flash h.authorized h.epoch_ne), ?_, hgeneration⟩
  rw [hloaded]
  exact h.authorized

theorem AtGeneration.next (h : AtGeneration sha256 flash generation s)
    (hlt : generation + 1 < 2 ^ 32) :
    AtGeneration sha256 flash (generation + 1) s.afterHello := by
  obtain ⟨hloaded, hgeneration⟩ := h.loaded_afterPersist sha256 flash hlt
  have hsame : s.afterHello.loaded = s.afterPersist.loaded := rfl
  refine ⟨h.reached.boot 0 0 (h.room sha256 flash hlt)
    (boot_cut sha256 flash h.authorized h.epoch_ne), ?_, ?_⟩
  · rw [hsame, hloaded]
    exact h.authorized
  · rw [hsame, hgeneration]

theorem exists_atGeneration (generation : Nat) (hlt : generation + 1 < 2 ^ 32) :
    ∃ s, AtGeneration sha256 flash (generation + 1) s := by
  induction generation with
  | zero => exact ⟨_, atGeneration_one sha256 flash⟩
  | succ generation ih =>
    obtain ⟨s, hs⟩ := ih (by omega)
    exact ⟨_, hs.next sha256 flash hlt⟩

/-- From the largest generation on, the persist wraps the counter, and the next load
yields the old record again. -/
theorem AtGeneration.wraps (h : AtGeneration sha256 flash (2 ^ 32 - 1) s) :
    s.afterHello.loaded = s.loaded := by
  obtain ⟨slot, hnewest, hgood⟩ := h.reached.invariant.loaded_good h.authorized
  have hmax : s.loaded.generation = 0xffffffff := UInt32.toNat_inj.mp h.generation_eq
  obtain rfl : slot = true := by
    have hslot := hgood.slot_eq
    rw [hmax] at hslot
    exact hslot.symm
  have hstate : persistSlot { s.loaded with bootEpoch := s.loaded.bootEpoch + 1 } = false := by
    change decide ((s.loaded.generation + 1) &&& 1 = 1) = false
    rw [hmax]
    decide
  have hsame : newest recordGeneration s.afterHello.records = some (true, s.loaded) := by
    refine newest_of_lt ?_ fun w hw => ?_
    · change (s.setSlot _ _).records true = _
      rw [records_setSlot, hstate, Function.update_of_ne (by decide)]
      exact (newest_spec hnewest).1
    · change (s.setSlot _ _).records false = _ at hw
      rw [records_setSlot, hstate, Function.update_self, slotRecord_persisted
        (by rw [show _ = s.loaded.authorized from rfl, hgood.authorized]; decide)] at hw
      cases hw
      change (s.loaded.generation + 1).toNat < s.loaded.generation.toNat
      rw [hmax]
      decide
  exact loaded_of_newest hsame

/-! ## Results -/

/-- Reset safety of every lifetime whose boots all find a generation below the largest. -/
theorem reached_resetSafe (h : Reached sha256 flash GenerationLeft s) : ResetSafe s :=
  resetSafe_of_increasing h.invariant.increasing

def zeroProvisioning : Provisioning :=
  ⟨Block.zero 32, Block.zero 8, Block.zero 16, Block.zero 16, .slhdsa⟩

/-- A device with a constant hash function after its enrollment and three boots, the second
of which is cut off before its hello. -/
theorem firstBoot_resetSafe : ∃ s, Reached (fun _ => Block.zero 32) zeroProvisioning
    GenerationLeft s ∧ s.epochs = [3, 1] ∧ ResetSafe s := by
  have hfirst := (atGeneration_one (fun _ => Block.zero 32) zeroProvisioning).next _ _ (by decide)
  have hlast := (hfirst.lost _ _ (by decide)).next _ _ (by decide)
  exact ⟨_, hlast.reached, by decide +kernel, reached_resetSafe _ _ hlast.reached⟩

/-- Over all lifetimes the last epoch is used twice: the persist that follows the largest
generation wraps the counter, and the record before it is loaded ever after. -/
theorem lastEpoch_reused :
    ¬ ∃ (sha256 : Bytes → Block 32) (flash : Provisioning),
      ∀ s, Reached sha256 flash (fun _ => True) s → ResetSafe s := by
  rintro ⟨sha256, flash, hsafe⟩
  obtain ⟨s, hs⟩ := exists_atGeneration sha256 flash (2 ^ 32 - 2) (by decide)
  have hs : AtGeneration sha256 flash (2 ^ 32 - 1) s := hs
  have hreached : Reached sha256 flash (fun _ => True) s :=
    hs.reached.mono sha256 flash fun _ _ => trivial
  have hfirst := hreached.boot 0 0 trivial (boot_cut sha256 flash hs.authorized hs.epoch_ne)
  have hloaded := hs.wraps
  have hsecond := hfirst.boot 0 0 trivial (boot_cut sha256 flash
    (by rw [hloaded]; exact hs.authorized) (by rw [hloaded]; exact hs.epoch_ne))
  have hincreasing := (hsafe _ hsecond).increasing
  rw [afterHello_epochs, afterHello_epochs, hloaded, List.pairwise_cons] at hincreasing
  exact UInt32.lt_irrefl _ (hincreasing.1 _ List.mem_cons_self)

end C0PQLink.NanoPQ
