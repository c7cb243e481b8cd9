import C0PQLink.Core.Integers
import C0PQLink.Foundation.Tracing
import C0PQLink.Foundation.TwoSlot

/-!
# The EEPROM journal of the Nano

The state records of `nanopq_secure_link/main.c`, the two EEPROM slots that hold them,
and the calls of the firmware to its board. A record lies in memory as on the AVR:
packed, least significant byte first.

* `stateLoad_wpCut`: `state_load` yields the newest valid record.
* `statePersist_wpSteps`, `statePersist_wpCut`: a loss of power during `state_persist`
  leaves the written slot with its old record, without one, or with the new one.
-/

namespace C0PQLink.NanoPQ

open Foundation TwoSlot

/-! ## State records -/

structure StateRecord where
  magic : UInt16
  schema : UInt8
  authorized : UInt8
  generation : UInt32
  bootEpoch : UInt32
  policySequence : UInt32
  crc : UInt16
  deriving DecidableEq

def npqStateMagic : UInt16 := 0x4e50
def npqStateSchema : UInt8 := 1

def crc16Step (crc : UInt16) (byte : UInt8) : UInt16 :=
  (List.range 8).foldl
    (fun crc _ => if crc &&& 0x8000 ≠ 0 then (crc <<< 1) ^^^ 0x1021 else crc <<< 1)
    (crc ^^^ (byte.toUInt16 <<< 8))

def crc16Ccitt (data : Bytes) : UInt16 := data.foldl crc16Step 0xffff

/-- The bytes of a record in front of its checksum. -/
def StateRecord.core (r : StateRecord) : Bytes :=
  (store16BE r.magic).reverse ++ [r.schema, r.authorized] ++ (store32BE r.generation).reverse
    ++ (store32BE r.bootEpoch).reverse ++ (store32BE r.policySequence).reverse

def StateRecord.bytes (r : StateRecord) : Block 18 :=
  ⟨r.core ++ (store16BE r.crc).reverse, by simp [core]⟩

def StateRecord.ofBytes (b : Block 18) : StateRecord :=
  { magic := load16BE (slice b.val 0 2).reverse
    schema := byteAt b.val 2
    authorized := byteAt b.val 3
    generation := load32BE (slice b.val 4 4).reverse
    bootEpoch := load32BE (slice b.val 8 4).reverse
    policySequence := load32BE (slice b.val 12 4).reverse
    crc := load16BE (slice b.val 16 2).reverse }

def stateValid (r : StateRecord) : Bool :=
  r.magic = npqStateMagic ∧ r.schema = npqStateSchema ∧ r.authorized ≤ 1
    ∧ r.crc = crc16Ccitt r.core

/-- The record with the checksum of its other fields. -/
def StateRecord.withCrc (r : StateRecord) : StateRecord := { r with crc := crc16Ccitt r.core }

def stateDefaults : StateRecord :=
  { magic := npqStateMagic
    schema := npqStateSchema
    authorized := 0
    generation := 0
    bootEpoch := 0
    policySequence := 0
    crc := 0 : StateRecord }.withCrc

@[simp] theorem withCrc_core (r : StateRecord) : r.withCrc.core = r.core := rfl

theorem ofBytes_bytes (r : StateRecord) : StateRecord.ofBytes r.bytes = r := by
  have hmagic : slice r.bytes.val 0 2 = (store16BE r.magic).reverse := rfl
  have hgeneration : slice r.bytes.val 4 4 = (store32BE r.generation).reverse := rfl
  have hepoch : slice r.bytes.val 8 4 = (store32BE r.bootEpoch).reverse := rfl
  have hpolicy : slice r.bytes.val 12 4 = (store32BE r.policySequence).reverse := rfl
  have hcrc : slice r.bytes.val 16 2 = (store16BE r.crc).reverse := rfl
  have hschema : byteAt r.bytes.val 2 = r.schema := rfl
  have hauthorized : byteAt r.bytes.val 3 = r.authorized := rfl
  simp only [StateRecord.ofBytes, hmagic, hgeneration, hepoch, hpolicy, hcrc, hschema,
    hauthorized, List.reverse_reverse, load16BE_store16BE, load32BE_store32BE]

/-! ## The board -/

/-- What happened on the board, apart from the contents of the EEPROM. -/
inductive BoardEvent where
  | signature (manifest : Bytes) (accepted : Bool) (consumed : Nat)
  | hello (bootEpoch : UInt32)
  deriving DecidableEq

/-- The EEPROM slots, `false` for the first one, and the events so far, the last one first. -/
structure Board where
  eeprom : Bool → Block 18
  events : List BoardEvent

/-- The calls of the firmware. `makeHello` marks the entry of `npq_make_hello`. -/
inductive BoardCall where
  | eepromRead (slot : Bool)
  | eepromUpdate (slot : Bool) (offset : Nat) (bytes : Bytes)
  | uartGet
  | uartPut (value : UInt8)
  | verifySignature (manifest : Bytes)
  | makeHello (bootEpoch : UInt32)
  | adcRead
  | ledSet (enabled : Bool)

/-- `uart_getc_timeout` may time out; the verifier returns its verdict and the length it
consumed. -/
abbrev BoardReply : BoardCall → Type
  | .eepromRead _ => Block 18
  | .eepromUpdate _ _ _ => Unit
  | .uartGet => Option UInt8
  | .uartPut _ => Unit
  | .verifySignature _ => Bool × Nat
  | .makeHello _ => Unit
  | .adcRead => UInt16
  | .ledSet _ => Unit

abbrev Firmware := Program BoardCall BoardReply

/-- A block with some bytes replaced. -/
def overwrite {n : Nat} (old : Block n) (offset : Nat) (bytes : Bytes) : Block n :=
  ⟨(List.range n).map fun i =>
    if offset ≤ i ∧ i < offset + bytes.length then byteAt bytes (i - offset)
    else byteAt old.val i, by simp⟩

/-- A block in which only some of the bytes have been replaced yet, in any order. -/
def PartlyWritten {n : Nat} (old : Block n) (offset : Nat) (bytes : Bytes) (new : Block n) :
    Prop :=
  ∀ i, byteAt new.val i = byteAt old.val i ∨
    offset ≤ i ∧ i < offset + bytes.length ∧ byteAt new.val i = byteAt bytes (i - offset)

def Board.setSlot (s : Board) (slot : Bool) (content : Block 18) : Board :=
  { s with eeprom := Function.update s.eeprom slot content }

def Board.log (s : Board) (event : BoardEvent) : Board := { s with events := event :: s.events }

/-- The answers of the board; what comes over the UART and from the verifier is arbitrary. -/
def boardStep : (e : BoardCall) → Board → BoardReply e → Board → Prop
  | .eepromRead slot, s, content, s' => content = s.eeprom slot ∧ s' = s
  | .eepromUpdate slot offset bytes, s, _, s' =>
    s' = s.setSlot slot (overwrite (s.eeprom slot) offset bytes)
  | .verifySignature manifest, s, verdict, s' =>
    s' = s.log (.signature manifest verdict.1 verdict.2)
  | .makeHello bootEpoch, s, _, s' => s' = s.log (.hello bootEpoch)
  | _, s, _, s' => s' = s

/-- What a loss of power during a call leaves behind. -/
def boardInterrupt : BoardCall → Board → Board → Prop
  | .eepromUpdate slot offset bytes, s, s' =>
    ∃ content, PartlyWritten (s.eeprom slot) offset bytes content ∧ s' = s.setSlot slot content
  | _, s, s' => s' = s

/-! ## Load and persist -/

/-- The choice that `state_load` makes between the two slots. -/
def chooseState (first second : StateRecord) : StateRecord :=
  if stateValid first = false ∧ stateValid second = false then stateDefaults
  else if stateValid first ∧ (stateValid second = false ∨ first.generation ≥ second.generation)
  then first
  else second

def stateLoad : Firmware StateRecord := do
  let first ← .perform (BoardCall.eepromRead false)
  let second ← .perform (BoardCall.eepromRead true)
  return chooseState (.ofBytes first) (.ofBytes second)

/-- The record that `state_persist` writes. -/
def persisted (state : StateRecord) : StateRecord :=
  { state with
    generation := state.generation + 1
    magic := npqStateMagic
    schema := npqStateSchema : StateRecord }.withCrc

/-- The slot that `state_persist` writes: the low bit of the next generation. -/
def persistSlot (state : StateRecord) : Bool := (state.generation + 1) &&& 1 = 1

def statePersist (state : StateRecord) : Firmware StateRecord := do
  let record := persisted state
  let slot := persistSlot state
  .perform (BoardCall.eepromUpdate slot 0 [0, 0])
  .perform (BoardCall.eepromUpdate slot 2 (record.bytes.val.drop 2))
  .perform (BoardCall.eepromUpdate slot 0 (store16BE npqStateMagic).reverse)
  return record

/-! ## The records of a board -/

/-- The record in a slot, if it is valid. -/
def slotRecord (content : Block 18) : Option StateRecord :=
  if stateValid (StateRecord.ofBytes content) then some (StateRecord.ofBytes content) else none

def Board.records (s : Board) : Slots StateRecord := fun slot => slotRecord (s.eeprom slot)

def recordGeneration (r : StateRecord) : Nat := r.generation.toNat

/-- The state that `state_load` yields. -/
def Board.loaded (s : Board) : StateRecord :=
  match newest recordGeneration s.records with
  | some (_, r) => r
  | none => stateDefaults

theorem records_setSlot (s : Board) (slot : Bool) (content : Block 18) :
    (s.setSlot slot content).records = Function.update s.records slot (slotRecord content) := by
  funext i
  unfold Board.records Board.setSlot
  rcases eq_or_ne i slot with rfl | hi
  · simp only [Function.update_self]
  · simp only [Function.update_of_ne hi]

theorem setSlot_setSlot (s : Board) (slot : Bool) (content content' : Block 18) :
    (s.setSlot slot content).setSlot slot content' = s.setSlot slot content' := by
  simp only [Board.setSlot, Function.update_idem]

@[simp] theorem setSlot_eeprom (s : Board) (slot : Bool) (content : Block 18) :
    (s.setSlot slot content).eeprom slot = content := Function.update_self _ _ _

@[simp] theorem setSlot_events (s : Board) (slot : Bool) (content : Block 18) :
    (s.setSlot slot content).events = s.events := rfl

@[simp] theorem log_records (s : Board) (event : BoardEvent) : (s.log event).records = s.records :=
  rfl

theorem chooseState_eq_loaded (s : Board) :
    chooseState (.ofBytes (s.eeprom false)) (.ofBytes (s.eeprom true)) = s.loaded := by
  unfold chooseState Board.loaded newest Board.records slotRecord
  by_cases h0 : stateValid (.ofBytes (s.eeprom false)) <;>
    by_cases h1 : stateValid (.ofBytes (s.eeprom true)) <;> simp [h0, h1]
  by_cases hlt : (StateRecord.ofBytes (s.eeprom false)).generation
      < (StateRecord.ofBytes (s.eeprom true)).generation
  · have hlt' : recordGeneration (.ofBytes (s.eeprom false))
        < recordGeneration (.ofBytes (s.eeprom true)) := hlt
    simp [hlt', UInt32.not_le.mpr hlt]
  · have hlt' : ¬ recordGeneration (.ofBytes (s.eeprom false))
        < recordGeneration (.ofBytes (s.eeprom true)) := hlt
    simp [hlt', UInt32.not_lt.mp hlt]

theorem stateLoad_wpSteps {T : Board → Board → Prop} {Q : StateRecord → Board → Prop} {s : Board}
    (hs : T s s) (hq : Q s.loaded s) : stateLoad.wpSteps boardStep boardInterrupt T Q s := by
  refine Program.wpSteps_bind (Program.wpSteps_perform (fun _ h => h ▸ hs) fun first s1 h1 => ?_)
  obtain ⟨rfl, rfl⟩ := h1
  refine ⟨hs, Program.wpSteps_bind (Program.wpSteps_perform (fun _ h => h ▸ hs)
    fun second s2 h2 => ?_)⟩
  obtain ⟨rfl, rfl⟩ := h2
  rw [chooseState_eq_loaded]
  exact ⟨hs, hq⟩

theorem stateLoad_wpCut {I : Board → Prop} {Q : StateRecord → Board → Prop} {s : Board}
    (hs : I s) (hq : Q s.loaded s) : stateLoad.wpCut boardStep boardInterrupt I Q s :=
  Program.wpCut_of_wpSteps (stateLoad_wpSteps (show s = s from rfl) hq)
    (fun s s' (h : s = s') hs => h ▸ hs) hs

/-! ## Losing power during a persist -/

theorem Block.ext_byteAt {n : Nat} {a b : Block n}
    (h : ∀ i, i < n → byteAt a.val i = byteAt b.val i) :
    a = b := by
  apply Block.ext
  refine List.ext_getElem (by simp) fun i hi hi' => ?_
  have hlt : i < n := by rwa [Block.length_val] at hi
  have := h i hlt
  simpa [byteAt, hi, hi', hlt] using this

theorem byteAt_overwrite {n : Nat} (old : Block n) (offset : Nat) (bytes : Bytes) {i : Nat}
    (hi : i < n) : byteAt (overwrite old offset bytes).val i
      = if offset ≤ i ∧ i < offset + bytes.length then byteAt bytes (i - offset)
        else byteAt old.val i := by
  simp [overwrite, byteAt, hi]

/-- A slot without the two bytes of the magic holds no record. -/
theorem slotRecord_eq_none {content : Block 18}
    (h : byteAt content.val 0 ≠ 0x50 ∨ byteAt content.val 1 ≠ 0x4e) :
    slotRecord content = none := by
  unfold slotRecord
  rw [if_neg]
  intro hvalid
  simp only [stateValid, decide_eq_true_eq] at hvalid
  have hmagic : load16BE (slice content.val 0 2).reverse = npqStateMagic := hvalid.1
  have hstore := congrArg store16BE hmagic
  rw [store16BE_load16BE (by simp)] at hstore
  have hslice : slice content.val 0 2 = [0x50, 0x4e] := by
    rw [← List.reverse_reverse (slice content.val 0 2), hstore]
    rfl
  have h0 : byteAt content.val 0 = byteAt (slice content.val 0 2) 0 := by
    simp [byteAt, slice]
  have h1 : byteAt content.val 1 = byteAt (slice content.val 0 2) 1 := by
    simp [byteAt, slice]
  rw [hslice] at h0 h1
  exact h.elim (· h0) (· h1)

theorem slotRecord_persisted {state : StateRecord} (h : state.authorized ≤ 1) :
    slotRecord (persisted state).bytes = some (persisted state) := by
  unfold slotRecord
  rw [ofBytes_bytes, if_pos]
  simp only [stateValid, decide_eq_true_eq]
  exact ⟨rfl, rfl, h, rfl⟩

/-- A loss of power while the magic is cleared leaves the old record or none. -/
theorem slotRecord_clearing {old content : Block 18} (h : PartlyWritten old 0 [0, 0] content) :
    slotRecord content = slotRecord old ∨ slotRecord content = none := by
  by_cases hmagic : byteAt content.val 0 = byteAt old.val 0 ∧ byteAt content.val 1 = byteAt old.val 1
  · left
    have heq : content = old := by
      refine Block.ext_byteAt fun i _ => ?_
      rcases h i with hi | ⟨-, hlt, -⟩
      · exact hi
      · obtain rfl | rfl : i = 0 ∨ i = 1 := by simp at hlt; omega
        · exact hmagic.1
        · exact hmagic.2
    rw [heq]
  · right
    apply slotRecord_eq_none
    rcases h 0 with h0 | ⟨-, -, h0⟩
    · rcases h 1 with h1 | ⟨-, -, h1⟩
      · exact absurd ⟨h0, h1⟩ hmagic
      · right
        rw [h1]
        decide
    · left
      rw [h0]
      decide

/-- The slot after the magic has been cleared and some bytes behind it have been written. -/
theorem slotRecord_cleared {old content : Block 18} {bytes : Bytes}
    (h : PartlyWritten (overwrite old 0 [0, 0]) 2 bytes content) : slotRecord content = none := by
  apply slotRecord_eq_none
  left
  rcases h 0 with h0 | ⟨hle, -, -⟩
  · rw [h0, byteAt_overwrite _ _ _ (by decide), if_pos (by simp)]
    decide
  · omega

/-- The slot once the magic has been written too. -/
theorem completed_eq {old content : Block 18} {r : StateRecord}
    (hmagic : r.magic = npqStateMagic)
    (h : PartlyWritten (overwrite (overwrite old 0 [0, 0]) 2 (r.bytes.val.drop 2)) 0
      (store16BE npqStateMagic).reverse content)
    (hwritten : byteAt content.val 0 = 0x50 ∧ byteAt content.val 1 = 0x4e) :
    content = r.bytes := by
  refine Block.ext_byteAt fun i hi => ?_
  rcases Nat.lt_or_ge i 2 with hlt | hge
  · have hhead : byteAt r.bytes.val 0 = 0x50 ∧ byteAt r.bytes.val 1 = 0x4e := by
      have h0 : byteAt r.bytes.val 0 = r.magic.toUInt8 := rfl
      have h1 : byteAt r.bytes.val 1 = (r.magic >>> 8).toUInt8 := rfl
      rw [h0, h1, hmagic]
      decide
    obtain rfl | rfl : i = 0 ∨ i = 1 := by omega
    · rw [hwritten.1, hhead.1]
    · rw [hwritten.2, hhead.2]
  · rcases h i with hbyte | ⟨-, hlt, -⟩
    · rw [hbyte, byteAt_overwrite _ _ _ hi, if_pos ⟨hge, by simp; omega⟩]
      simp only [byteAt, List.getD_eq_getElem?_getD, List.getElem?_drop]
      rw [Nat.add_sub_cancel' hge]
    · simp at hlt
      omega

theorem partlyWritten_overwrite {n : Nat} (old : Block n) (offset : Nat) (bytes : Bytes) :
    PartlyWritten old offset bytes (overwrite old offset bytes) := by
  intro i
  rcases Nat.lt_or_ge i n with hi | hi
  · rw [byteAt_overwrite _ _ _ hi]
    split
    · rename_i hin
      exact .inr ⟨hin.1, hin.2, rfl⟩
    · exact .inl rfl
  · left
    simp [byteAt, hi]

/-- The contents of the written slot during a persist, call after call: the old record or
none, and in the end none or the new one. -/
theorem statePersist_wpSteps {T : Board → Board → Prop} {Q : StateRecord → Board → Prop}
    {s : Board} {state : StateRecord} (hauthorized : state.authorized ≤ 1)
    (htorn : ∀ content content',
      slotRecord content = slotRecord (s.eeprom (persistSlot state)) ∨ slotRecord content = none →
      slotRecord content' = slotRecord (s.eeprom (persistSlot state)) ∨
        slotRecord content' = none ∨ slotRecord content' = some (persisted state) →
      T (s.setSlot (persistSlot state) content) (s.setSlot (persistSlot state) content'))
    (hdone : Q (persisted state) (s.setSlot (persistSlot state) (persisted state).bytes)) :
    (statePersist state).wpSteps boardStep boardInterrupt T Q s := by
  have hrecord := slotRecord_persisted hauthorized
  have hstart : T s = T (s.setSlot (persistSlot state) (s.eeprom (persistSlot state))) := by
    unfold Board.setSlot
    rw [Function.update_eq_self]
  have hcomplete : ∀ content, PartlyWritten (overwrite (overwrite (s.eeprom (persistSlot state)) 0
      [0, 0]) 2 ((persisted state).bytes.val.drop 2)) 0 (store16BE npqStateMagic).reverse content →
        slotRecord content = none ∨ slotRecord content = some (persisted state) := by
    intro content hcontent
    by_cases hwritten : byteAt content.val 0 = 0x50 ∧ byteAt content.val 1 = 0x4e
    · rw [completed_eq rfl hcontent hwritten]
      exact .inr hrecord
    · exact .inl (slotRecord_eq_none (Classical.not_and_iff_not_or_not.mp hwritten))
  have hcleared := slotRecord_clearing (partlyWritten_overwrite
    (s.eeprom (persistSlot state)) 0 [0, 0])
  -- clearing the magic
  refine Program.wpSteps_bind (Program.wpSteps_perform ?_ fun _ s1 h1 => ⟨?_, ?_⟩)
  · rintro s1 ⟨content, hcontent, rfl⟩
    rw [hstart]
    exact htorn _ content (.inl rfl) ((slotRecord_clearing hcontent).imp id .inl)
  · subst h1
    rw [hstart]
    exact htorn _ _ (.inl rfl) (hcleared.imp id .inl)
  subst h1
  -- the bytes behind it
  refine Program.wpSteps_bind (Program.wpSteps_perform ?_ fun _ s2 h2 => ⟨?_, ?_⟩)
  · rintro s2 ⟨content, hcontent, rfl⟩
    rw [setSlot_eeprom] at hcontent
    rw [setSlot_setSlot]
    exact htorn _ content hcleared (.inr (.inl (slotRecord_cleared hcontent)))
  · subst h2
    rw [setSlot_eeprom, setSlot_setSlot]
    exact htorn _ _ hcleared (.inr (.inl (slotRecord_cleared (partlyWritten_overwrite _ _ _))))
  subst h2
  -- the magic
  rw [setSlot_eeprom, setSlot_setSlot]
  refine Program.wpSteps_bind (Program.wpSteps_perform ?_ fun _ s3 h3 => ⟨?_, ?_⟩)
  · rintro s3 ⟨content, hcontent, rfl⟩
    rw [setSlot_eeprom] at hcontent
    rw [setSlot_setSlot]
    exact htorn _ content (.inr (slotRecord_cleared (partlyWritten_overwrite _ _ _)))
      (.inr (hcomplete content hcontent))
  all_goals
    subst h3
    rw [setSlot_eeprom, setSlot_setSlot]
  · exact htorn _ _ (.inr (slotRecord_cleared (partlyWritten_overwrite _ _ _)))
      (.inr (hcomplete _ (partlyWritten_overwrite _ _ _)))
  · rw [completed_eq rfl (partlyWritten_overwrite _ _ _) ⟨?_, ?_⟩]
    · exact hdone
    · rw [byteAt_overwrite _ _ _ (by decide)]
      rfl
    · rw [byteAt_overwrite _ _ _ (by decide)]
      rfl

/-- A loss of power at any moment of `state_persist`: the slot it writes keeps its record,
loses it, or has the new one. -/
theorem statePersist_wpCut {I : Board → Prop} {Q : StateRecord → Board → Prop} {s : Board}
    {state : StateRecord} (hauthorized : state.authorized ≤ 1)
    (hs : I s)
    (htorn : ∀ content, slotRecord content = slotRecord (s.eeprom (persistSlot state)) ∨
      slotRecord content = none ∨ slotRecord content = some (persisted state) →
        I (s.setSlot (persistSlot state) content))
    (hdone : Q (persisted state) (s.setSlot (persistSlot state) (persisted state).bytes)) :
    (statePersist state).wpCut boardStep boardInterrupt I Q s :=
  Program.wpCut_of_wpSteps (statePersist_wpSteps hauthorized
    (fun _ content' _ hcontent' => htorn content' hcontent') hdone) (fun _ _ h _ => h) hs

end C0PQLink.NanoPQ
