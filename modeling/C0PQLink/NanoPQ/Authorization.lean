import Mathlib.Tactic.IntervalCases
import C0PQLink.NanoPQ.StateMemory

/-!
# The authorization of the Nano

What a device must have seen before it counts as authorized, over whole lifetimes: any
boots, any bytes from the UART, any verdicts of the verifier, each boot cut off anywhere.

* `SafeStep`: what one call of the firmware, or one write of `npq_state`, does.
* `markedMain_wpSteps`: a boot makes safe steps only.
* `lifetime_authorizationSafe`: the law over lifetimes.
-/

namespace C0PQLink.NanoPQ

open Foundation TwoSlot Program

variable (sha256 : Bytes → Block 32) (flash : Provisioning)

/-! ## Signed policies -/

/-- A manifest for this device with the given sequence number. -/
structure DevicePolicy (manifest : Bytes) (sequence : UInt32) : Prop where
  length_eq : manifest.length = 48
  header : manifest.take 8 = [0x51, 0x50, 0x43, 0x31, 1, 1, 1, 2]
  deviceClass : slice manifest 8 16 = flash.deviceClassId.val
  legacyPolicy : slice manifest 24 16 = flash.legacyPolicyDigest.val
  sequence_eq : load32BE (slice manifest 40 4) = sequence

/-- The verifier has accepted a policy of this device with all bytes of its signature. -/
def Signed (s : Board) (sequence : UInt32) : Prop :=
  ∃ manifest, DevicePolicy flash manifest sequence ∧
    .signature manifest true flash.algorithm.signatureBytes ∈ s.events

variable {flash} {s : Board} {state : StateRecord}

theorem Signed.of_events {s' : Board} {sequence : UInt32} (h : Signed flash s sequence)
    (hevents : ∀ event ∈ s.events, event ∈ s'.events) : Signed flash s' sequence := by
  obtain ⟨manifest, hpolicy, hevent⟩ := h
  exact ⟨manifest, hpolicy, hevents _ hevent⟩

theorem manifestValid_policy {manifest : Bytes} (hlength : manifest.length = 48)
    (h : manifestValid flash state manifest = true) :
    DevicePolicy flash manifest (load32BE (slice manifest 40 4)) ∧
      state.policySequence < load32BE (slice manifest 40 4) := by
  simp only [manifestValid, decide_eq_true_eq] at h
  obtain ⟨h0, h1, h2, h3, h4, h5, h6, h7, hclass, hdigest, hnewer⟩ := h
  refine ⟨⟨hlength, ?_, hclass, hdigest, rfl⟩, hnewer⟩
  refine List.ext_getElem (by simp [hlength]) fun i hi hi' => ?_
  have hbyte : (manifest.take 8)[i] = byteAt manifest i := by
    have hlt : i < manifest.length := by
      rw [List.length_take] at hi
      omega
    simp [byteAt, hlt]
  rw [hbyte]
  have hlt : i < 8 := hi'
  interval_cases i <;> assumption

/-! ## The invariant -/

/-- The slot of a valid record, its authorization and its policy. -/
structure SignedRecord (flash : Provisioning) (s : Board) (slot : Bool) (r : StateRecord) :
    Prop where
  slot_eq : generationSlot r.generation = slot
  authorized : r.authorized = 1
  policy : r.policySequence = s.loaded.policySequence
  signed : Signed flash s r.policySequence

def PolicyInvariant (flash : Provisioning) (s : Board) : Prop :=
  ∀ slot r, s.records slot = some r → SignedRecord flash s slot r

structure MomentInvariant (flash : Provisioning) (m : Moment) : Prop where
  board : PolicyInvariant flash m.board
  memory : ∀ state, m.npqState = some state → state.authorized = 1 →
    Signed flash m.board state.policySequence

/-- The device runs with an authorized `npq_state`. -/
def Moment.Authorized (m : Moment) : Prop :=
  ∃ state, m.npqState = some state ∧ state.authorized = 1

/-- When an event may happen: a signature is only verified for a valid manifest, and a
hello is only made by an authorized device. -/
def EventAllowed (flash : Provisioning) (m : Moment) : BoardEvent → Prop
  | .signature manifest _ _ =>
    manifest.length = 48 ∧ manifestValid flash m.board.loaded manifest = true
  | .hello _ => m.Authorized

/-- What a call of the firmware or a write of `npq_state` does, returned or cut off. -/
structure SafeStep (flash : Provisioning) (m m' : Moment) : Prop where
  invariant : MomentInvariant flash m'
  events : m'.board.events = m.board.events ∨
    ∃ event, m'.board = m.board.log event ∧ EventAllowed flash m event
  policy : m.board.loaded.policySequence ≤ m'.board.loaded.policySequence
  sealed : m'.sealed = m.sealed ∨ m.Authorized
  kept : m.Authorized → m'.npqState = none ∨ m'.Authorized

variable {m : Moment}

theorem MomentInvariant.refl (h : MomentInvariant flash m) : SafeStep flash m m :=
  ⟨h, .inl rfl, UInt32.le_refl _, .inl rfl, .inr⟩

theorem MomentInvariant.storing (h : MomentInvariant flash m)
    (hstate : state.authorized = 1 → Signed flash m.board state.policySequence)
    (hkept : m.Authorized → state.authorized = 1) : SafeStep flash m (m.storing state) := by
  refine ⟨⟨h.board, fun stored hstored => ?_⟩, .inl rfl, UInt32.le_refl _, .inl rfl,
    fun hm => .inr ⟨state, rfl, hkept hm⟩⟩
  cases hstored
  exact hstate

theorem PolicyInvariant.log (h : PolicyInvariant flash s) (event : BoardEvent) :
    PolicyInvariant flash (s.log event) := by
  intro slot r hr
  obtain ⟨hslot, hauthorized, hpolicy, hsigned⟩ := h slot r hr
  exact ⟨hslot, hauthorized, hpolicy, hsigned.of_events fun _ => List.mem_cons_of_mem _⟩

theorem MomentInvariant.logging (h : MomentInvariant flash m) {event : BoardEvent}
    (hevent : EventAllowed flash m event) :
    SafeStep flash m (m.withBoard (m.board.log event)) := by
  refine ⟨⟨h.board.log event, fun state hstate hauthorized => ?_⟩, .inr ⟨event, rfl, hevent⟩,
    UInt32.le_refl _, .inl rfl, .inr⟩
  exact (h.memory state hstate hauthorized).of_events fun _ => List.mem_cons_of_mem _

theorem MomentInvariant.sealing (h : MomentInvariant flash m) (hauthorized : m.Authorized) :
    SafeStep flash m m.sealing :=
  ⟨⟨h.board, h.memory⟩, .inl rfl, UInt32.le_refl _, .inr hauthorized, .inr⟩

/-! ## One persist -/

/-- A state that `state_persist` may write: its policy is signed, the records of the slots
have the same one, and one of them stays. -/
structure Persistable (flash : Provisioning) (s : Board) (state : StateRecord) : Prop where
  authorized : state.authorized = 1
  signed : Signed flash s state.policySequence
  agrees : ∀ slot r, s.records slot = some r → r.policySequence = state.policySequence
  stays : ∀ slot r, s.records slot = some r → ∃ r', s.records (!persistSlot state) = some r'

theorem loaded_policy {slot : Bool} {r : StateRecord} {policy : UInt32}
    (h : ∀ slot r, s.records slot = some r → r.policySequence = policy)
    (hr : s.records slot = some r) : s.loaded.policySequence = policy := by
  obtain ⟨i, current, hnewest⟩ : ∃ i current,
      newest recordGeneration s.records = some (i, current) := newest_isSome hr
  rw [loaded_of_newest hnewest]
  exact h i current (newest_spec hnewest).1

theorem loaded_policy_le {s' : Board} {policy : UInt32}
    (h : ∀ slot r, s.records slot = some r → r.policySequence = policy)
    (h' : ∀ slot r, s'.records slot = some r → r.policySequence = policy)
    (hstays : ∀ slot r, s.records slot = some r → ∃ slot' r', s'.records slot' = some r') :
    s.loaded.policySequence ≤ s'.loaded.policySequence := by
  rcases hnewest : newest recordGeneration s.records with _ | ⟨slot, r⟩
  · rw [loaded_of_none hnewest]
    exact UInt32.zero_le
  · have hr := (newest_spec hnewest).1
    obtain ⟨slot', r', hr'⟩ := hstays slot r hr
    rw [loaded_policy h hr, loaded_policy h' hr']
    exact UInt32.le_refl _

/-- What can lie in a slot that a persist of the state writes. -/
def Torn (s : Board) (state : StateRecord) (content : Block 18) : Prop :=
  slotRecord content = slotRecord (s.eeprom (persistSlot state)) ∨ slotRecord content = none ∨
    slotRecord content = some (persisted state)

theorem torn_records {content : Block 18} (h : Torn s state content) {slot : Bool}
    {r : StateRecord} (hr : (s.setSlot (persistSlot state) content).records slot = some r) :
    s.records slot = some r ∨ slot = persistSlot state ∧ r = persisted state := by
  rw [records_setSlot] at hr
  rcases eq_or_ne slot (persistSlot state) with rfl | hne
  · rw [Function.update_self] at hr
    rcases h with hold | hnone | hnew
    · left
      rw [← hr, hold]
      rfl
    · rw [hnone] at hr
      cases hr
    · rw [hnew] at hr
      cases hr
      exact .inr ⟨rfl, rfl⟩
  · rw [Function.update_of_ne hne] at hr
    exact .inl hr

theorem setSlot_other (s : Board) (slot : Bool) (content : Block 18) :
    (s.setSlot slot content).records (!slot) = s.records (!slot) := by
  rw [records_setSlot, Function.update_of_ne (by cases slot <;> decide)]

theorem Persistable.torn_policy (h : Persistable flash s state) {content : Block 18}
    (hcontent : Torn s state content) :
    ∀ slot r, (s.setSlot (persistSlot state) content).records slot = some r →
      r.policySequence = state.policySequence := by
  intro slot r hr
  rcases torn_records hcontent hr with hr | ⟨-, rfl⟩
  · exact h.agrees slot r hr
  · rfl

theorem Persistable.torn (h : Persistable flash s state) (hs : PolicyInvariant flash s)
    {content : Block 18} (hcontent : Torn s state content) :
    PolicyInvariant flash (s.setSlot (persistSlot state) content) := by
  intro slot r hr
  have hpolicy := h.torn_policy hcontent
  have hloaded := loaded_policy hpolicy hr
  refine ⟨?_, ?_, (hpolicy slot r hr).trans hloaded.symm, ?_⟩
  · rcases torn_records hcontent hr with hr | ⟨rfl, rfl⟩
    · exact (hs slot r hr).slot_eq
    · rfl
  · rcases torn_records hcontent hr with hr | ⟨rfl, rfl⟩
    · exact (hs slot r hr).authorized
    · exact h.authorized
  · rw [hpolicy slot r hr]
    exact h.signed

/-- From the old content of the slot or none to any torn one. -/
theorem Persistable.torn_le (h : Persistable flash s state) {content content' : Block 18}
    (hcontent : slotRecord content = slotRecord (s.eeprom (persistSlot state)) ∨
      slotRecord content = none) (hcontent' : Torn s state content') :
    (s.setSlot (persistSlot state) content).loaded.policySequence
      ≤ (s.setSlot (persistSlot state) content').loaded.policySequence := by
  refine loaded_policy_le (h.torn_policy (hcontent.imp id .inl)) (h.torn_policy hcontent')
    fun slot r hr => ?_
  have hold : ∃ slot r, s.records slot = some r := by
    rw [records_setSlot] at hr
    rcases eq_or_ne slot (persistSlot state) with rfl | hne
    · rw [Function.update_self] at hr
      rcases hcontent with hold | hnone
      · exact ⟨_, r, hold.symm.trans hr⟩
      · rw [hnone] at hr
        cases hr
    · rw [Function.update_of_ne hne] at hr
      exact ⟨slot, r, hr⟩
  obtain ⟨slot, r, hr⟩ := hold
  obtain ⟨r', hr'⟩ := h.stays slot r hr
  exact ⟨_, r', (setSlot_other s _ content').trans hr'⟩

/-! ## Parts of a boot -/

theorem unmarked_wpSteps {α : Type} {p : Firmware α} {Q : α → Moment → Prop}
    (h : p.wpSteps boardStep boardInterrupt
      (fun s s' => SafeStep flash (m.withBoard s) (m.withBoard s'))
      (fun a s' => Q a (m.withBoard s')) m.board) :
    (unmarked p).wpSteps momentStep momentInterrupt (SafeStep flash) Q m :=
  lift_wpSteps m.withBoard (fun _ _ _ _ h => h) (fun _ _ _ h => h) h

theorem plain_step {e : BoardCall} {r : BoardReply e} {s' : Board} (h : PlainCall e)
    (hs : boardStep e s r s') : s' = s := by
  cases e with
  | eepromUpdate | makeHello | verifySignature => exact h.elim
  | eepromRead => exact hs.2
  | uartGet | uartPut | adcRead | ledSet => exact hs

theorem plain_interrupt {e : BoardCall} {s' : Board} (h : PlainCall e)
    (hs : boardInterrupt e s s') : s' = s := by
  cases e with
  | eepromUpdate => exact h.elim
  | makeHello | verifySignature | eepromRead | uartGet | uartPut | adcRead | ledSet => exact hs

/-- The calls while records are exchanged. -/
def ServingCall : BoardCall ⊕ FirmwareMark → Prop :=
  Sum.elim PlainCall fun e => e = .seal

theorem serving_of_plain {α : Type} {p : Firmware α} (h : p.Only PlainCall) :
    (unmarked p).Only ServingCall :=
  h.lift.mono fun e he => by
    cases e with
    | inl e => exact he
    | inr e => exact he.elim

/-- Calls that leave the board alone. -/
theorem plainBoard_wpSteps {α : Type} {p : Firmware α} {Q : α → Board → Prop}
    (h : p.Only PlainCall) (hm : MomentInvariant flash (m.withBoard s)) (hq : ∀ a, Q a s) :
    p.wpSteps boardStep boardInterrupt
      (fun s s' => SafeStep flash (m.withBoard s) (m.withBoard s')) Q s := by
  refine h.wpSteps (show s = s from rfl) ?_ ?_ ?_
  · rintro e s s' he rfl hs'
    rw [plain_interrupt he hs']
    exact hm.refl
  · rintro e s r s' he rfl hs'
    rw [plain_step he hs']
    exact ⟨hm.refl, rfl⟩
  · rintro a s rfl
    exact hq a

theorem plain_wpSteps {α : Type} {p : Firmware α} {Q : α → Moment → Prop} (h : p.Only PlainCall)
    (hm : MomentInvariant flash m) (hq : ∀ a, Q a m) :
    (unmarked p).wpSteps momentStep momentInterrupt (SafeStep flash) Q m :=
  unmarked_wpSteps (plainBoard_wpSteps h hm hq)

theorem storeState_wpSteps {Q : Unit → Moment → Prop} (hm : MomentInvariant flash m)
    (hstate : state.authorized = 1 → Signed flash m.board state.policySequence)
    (hkept : m.Authorized → state.authorized = 1)
    (hq : MomentInvariant flash (m.storing state) → Q () (m.storing state)) :
    (mark (.storeState state) : MarkedFirmware Unit).wpSteps momentStep momentInterrupt
      (SafeStep flash) Q m := by
  refine ⟨fun m' hm' => ?_, fun _ m' hm' => ?_⟩
  · obtain rfl := hm'
    exact hm.refl
  · obtain rfl := hm'
    have hstep := hm.storing hstate hkept
    exact ⟨hstep, hq hstep.invariant⟩

/-- A persist of a state whose policy is signed. -/
theorem markedPersist_wpSteps {Q : StateRecord → Moment → Prop} (hm : MomentInvariant flash m)
    (h : Persistable flash m.board state)
    (hq : ∀ m', MomentInvariant flash m' → m'.npqState = some (persisted state) →
      m'.board = m.board.setSlot (persistSlot state) (persisted state).bytes →
      Q (persisted state) m') :
    (markedPersist state).wpSteps momentStep momentInterrupt (SafeStep flash) Q m := by
  have hle : state.authorized ≤ 1 := by
    rw [h.authorized]
    decide
  have hrecord : Torn m.board state (persisted state).bytes :=
    .inr (.inr (slotRecord_persisted hle))
  refine wpSteps_bind (unmarked_wpSteps (statePersist_wpSteps hle
    (fun content content' hcontent hcontent' => ?_) ?_))
  · exact ⟨⟨h.torn hm.board hcontent', hm.memory⟩, .inl rfl, h.torn_le hcontent hcontent', .inl rfl,
      .inr⟩
  · refine wpSteps_bind (storeState_wpSteps ⟨h.torn hm.board hrecord, hm.memory⟩
      (fun _ => h.signed) (fun _ => h.authorized) fun hm' => ?_)
    exact hq _ hm' rfl rfl

/-! ## The enrollment -/

/-- The device runs with the state that the slots hold. -/
structure Running (flash : Provisioning) (m : Moment) (state : StateRecord) : Prop where
  invariant : MomentInvariant flash m
  memory : m.npqState = some state
  loaded : m.board.loaded = state

theorem markedLoad_wpSteps {Q : StateRecord → Moment → Prop} (hm : MomentInvariant flash m)
    (hnone : m.npqState = none)
    (hq : ∀ state m', Running flash m' state → Q state m') :
    markedLoad.wpSteps momentStep momentInterrupt (SafeStep flash) Q m := by
  refine wpSteps_bind (unmarked_wpSteps (stateLoad_wpSteps hm.refl ?_))
  refine wpSteps_bind (storeState_wpSteps hm (fun hauthorized => ?_) (fun hm' => ?_) fun hm' => ?_)
  · rcases hnewest : newest recordGeneration m.board.records with _ | ⟨slot, r⟩
    · rw [loaded_of_none hnewest] at hauthorized
      cases hauthorized
    · rw [loaded_of_newest hnewest]
      exact (hm.board slot r (newest_spec hnewest).1).signed
  · obtain ⟨state, hstate, -⟩ := hm'
    cases hnone.symm.trans hstate
  · exact hq _ _ ⟨hm', rfl, rfl⟩

/-- Without authorization no slot is valid. -/
theorem Running.unauthorized (h : Running flash m state) (hstate : state.authorized = 0) :
    state = stateDefaults ∧ ∀ slot, m.board.records slot = none := by
  rcases hnewest : newest recordGeneration m.board.records with _ | ⟨slot, r⟩
  · have hnone := newest_eq_none.mp hnewest
    refine ⟨h.loaded.symm.trans (loaded_of_none hnewest), fun slot => ?_⟩
    cases slot
    · exact hnone.1
    · exact hnone.2
  · have hr := h.invariant.board slot r (newest_spec hnewest).1
    rw [← h.loaded, loaded_of_newest hnewest, hr.authorized] at hstate
    cases hstate

theorem loaded_persist_empty (hempty : ∀ slot, s.records slot = none)
    (hauthorized : state.authorized ≤ 1) :
    (s.setSlot (persistSlot state) (persisted state).bytes).loaded = persisted state := by
  have hnewest : newest recordGeneration
      (s.setSlot (persistSlot state) (persisted state).bytes).records
        = some (persistSlot state, persisted state) := by
    rw [records_setSlot, slotRecord_persisted hauthorized]
    exact newest_update_none (newest_eq_none.mpr ⟨hempty false, hempty true⟩)
  exact loaded_of_newest hnewest

theorem markedAuthorize_wpSteps {Q : Bool × StateRecord → Moment → Prop}
    (h : Running flash m state) (hstate : state.authorized = 0)
    (hq : ∀ result m', Running flash m' result.2 → Q result m') :
    (markedAuthorize flash state).wpSteps momentStep momentInterrupt (SafeStep flash) Q m := by
  have hreject {m' : Moment} (h' : Running flash m' state) :
      (do
        unmarked (uartSendFrame (makeControlFrame npqFrameEnrollResult 0))
        return (false, state) : MarkedFirmware (Bool × StateRecord)).wpSteps momentStep
          momentInterrupt (SafeStep flash) Q m' :=
    wpSteps_bind (plain_wpSteps (uartSendFrame_plain _) h'.invariant fun _ => hq _ m' h')
  unfold markedAuthorize
  refine wpSteps_bind (plain_wpSteps (uartSendFrame_plain _) h.invariant fun _ => ?_)
  refine wpSteps_bind (plain_wpSteps uartReadFrame_plain h.invariant fun frame => ?_)
  simp only
  split
  · exact hreject h
  rename_i hvalid
  simp only [not_or, not_not, Bool.not_eq_false] at hvalid
  obtain ⟨hlength, -, -, -, -, hmanifest⟩ := hvalid
  have hlength' : ((frame.getD []).drop 4).length = 48 := by
    rw [List.length_drop, hlength]
    rfl
  refine wpSteps_bind (unmarked_wpSteps (wpSteps_perform ?_ fun verdict s1 h1 => ?_))
  · rintro s1 rfl
    exact h.invariant.refl
  obtain rfl := h1
  have hstep : SafeStep flash m (m.withBoard (m.board.log (.signature ((frame.getD []).drop 4)
      verdict.1 verdict.2))) := by
    refine h.invariant.logging ⟨hlength', ?_⟩
    rw [h.loaded]
    exact hmanifest
  refine ⟨hstep, ?_⟩
  split
  · exact hreject ⟨hstep.invariant, h.memory, h.loaded⟩
  rename_i hverified
  simp only [not_or, not_not, Bool.not_eq_false] at hverified
  -- the state that is persisted carries the sequence number of the accepted manifest
  obtain ⟨rfl, hempty⟩ := h.unauthorized hstate
  have hsequence : slice (frame.getD []) 44 4 = slice ((frame.getD []).drop 4) 40 4 := by
    rw [slice, slice, List.drop_drop]
  have hsigned : Signed flash (m.board.log (.signature ((frame.getD []).drop 4) verdict.1 verdict.2))
      (load32BE (slice (frame.getD []) 44 4)) := by
    rw [hsequence]
    refine ⟨_, (manifestValid_policy hlength' hmanifest).1, ?_⟩
    rw [hverified.1, hverified.2]
    exact List.mem_cons_self
  refine wpSteps_bind (storeState_wpSteps hstep.invariant (fun _ => hsigned) (fun _ => rfl)
    fun hstored => ?_)
  refine wpSteps_bind (markedPersist_wpSteps hstored ⟨rfl, hsigned, ?_, ?_⟩
    fun m' hm' hmemory hboard => ?_)
  · intro slot r hr
    cases (hempty slot).symm.trans hr
  · intro slot r hr
    cases (hempty slot).symm.trans hr
  refine wpSteps_bind (plain_wpSteps (uartSendFrame_plain _) hm' fun _ => ?_)
  refine hq _ m' ⟨hm', hmemory, ?_⟩
  rw [hboard]
  exact loaded_persist_empty hempty (show (1 : UInt8) ≤ 1 by decide)

theorem markedAuthorizeLoop_wpSteps (attempts : Nat) {Q : Option StateRecord → Moment → Prop}
    (h : Running flash m state) (hnone : ∀ m', Q none m')
    (hsome : ∀ state m', Running flash m' state → state.authorized ≠ 0 → Q (some state) m') :
    (markedAuthorizeLoop flash attempts state).wpSteps momentStep momentInterrupt
      (SafeStep flash) Q m := by
  induction attempts generalizing m state with
  | zero =>
    unfold markedAuthorizeLoop
    by_cases hauthorized : state.authorized = 0
    · rw [if_pos hauthorized]
      exact hnone m
    · rw [if_neg hauthorized]
      exact hsome state m h hauthorized
  | succ attempts ih =>
    unfold markedAuthorizeLoop
    by_cases hauthorized : state.authorized = 0
    · rw [if_pos hauthorized]
      exact wpSteps_bind (markedAuthorize_wpSteps h hauthorized fun result m' h' => ih h')
    · rw [if_neg hauthorized]
      exact hsome state m h hauthorized

/-! ## The boot -/

theorem generationSlot_next (generation : UInt32) :
    generationSlot (generation + 1) = !generationSlot generation := by
  by_cases hmax : generation = 0xffffffff
  · rw [hmax]
    decide
  · exact generationSlot_succ hmax

/-- The authorized state that the slots hold, with any epoch, may be persisted. -/
theorem Running.persistable (h : Running flash m state) (hstate : state.authorized ≠ 0)
    (bootEpoch : UInt32) : Persistable flash m.board { state with bootEpoch } := by
  rcases hnewest : newest recordGeneration m.board.records with _ | ⟨slot, r⟩
  · rw [← h.loaded, loaded_of_none hnewest] at hstate
    exact absurd rfl hstate
  obtain rfl : r = state := (loaded_of_newest hnewest).symm.trans h.loaded
  have hr := (newest_spec hnewest).1
  have hgood := h.invariant.board slot r hr
  refine ⟨hgood.authorized, hgood.signed, fun slot' r' hr' => ?_, fun slot' r' _ => ⟨r, ?_⟩⟩
  · rw [(h.invariant.board slot' r' hr').policy, ← hgood.policy]
  · have hslot : persistSlot { r with bootEpoch } = !slot := by
      rw [← hgood.slot_eq]
      exact generationSlot_next _
    rw [hslot, Bool.not_not]
    exact hr

theorem markedSeal_serving (session : NpqSession) (plaintext : Bytes) :
    (markedSeal sha256 session plaintext).Only ServingCall :=
  only_bind ⟨rfl, fun _ => trivial⟩ fun _ => serving_of_plain (sealAndSend_plain sha256 _ _)

theorem markedCommand_serving (session : NpqSession) (led : Bool) :
    (markedCommand sha256 session led).Only ServingCall := by
  have hstatus (session : NpqSession) (accepted led : Bool) :
      (do return (← markedStatus sha256 session accepted led, led) :
        MarkedFirmware (NpqSession × Bool)).Only ServingCall :=
    only_bind (markedSeal_serving sha256 _ _) fun _ => only_pure _
  refine only_bind (serving_of_plain uartReadFrame_plain) fun frame => ?_
  cases frame with
  | none => exact only_pure _
  | some frame =>
    simp only
    split
    · split
      · exact only_bind (serving_of_plain (only_perform trivial)) fun _ => hstatus _ _ _
      · exact hstatus _ _ _
    · exact hstatus _ _ _

theorem markedRecordLoop_serving (state : StateRecord) (rounds : Nat) (session : NpqSession)
    (led : Bool) : (markedRecordLoop sha256 state rounds session led).Only ServingCall := by
  induction rounds generalizing session led with
  | zero => exact only_pure _
  | succ rounds ih =>
    refine only_bind ?_ fun session =>
      only_bind (markedCommand_serving sha256 session led) fun _ => ih _ _
    exact only_bind (serving_of_plain (only_perform trivial)) fun _ => markedSeal_serving sha256 _ _

/-- Records are exchanged by an authorized device. -/
structure Serving (flash : Provisioning) (m : Moment) : Prop where
  invariant : MomentInvariant flash m
  authorized : m.Authorized

theorem serving_wpSteps {α : Type} {p : MarkedFirmware α} (h : p.Only ServingCall)
    (hm : Serving flash m) :
    p.wpSteps momentStep momentInterrupt (SafeStep flash) (fun _ _ => True) m := by
  refine h.wpSteps hm ?_ ?_ fun _ _ _ => trivial
  · rintro e m m' he ⟨hm, -⟩ hm'
    cases e with
    | inl e =>
      obtain ⟨board, hboard, rfl⟩ := hm'
      rw [plain_interrupt he hboard]
      exact hm.refl
    | inr e =>
      obtain rfl := hm'
      exact hm.refl
  · rintro e m r m' he ⟨hm, hauthorized⟩ hm'
    cases e with
    | inl e =>
      obtain ⟨board, hboard, rfl⟩ := hm'
      rw [plain_step he hboard]
      exact ⟨hm.refl, hm, hauthorized⟩
    | inr e =>
      obtain rfl : e = .seal := he
      obtain rfl := hm'
      have hstep := hm.sealing hauthorized
      exact ⟨hstep, hstep.invariant, hauthorized⟩

theorem markedMain_wpSteps (attempts rounds : Nat) (hm : MomentInvariant flash m)
    (hnone : m.npqState = none) :
    (markedMain sha256 flash attempts rounds).wpSteps momentStep momentInterrupt
      (SafeStep flash) (fun _ _ => True) m := by
  refine wpSteps_bind (plain_wpSteps (only_perform trivial) hm fun _ => ?_)
  refine wpSteps_bind (markedLoad_wpSteps hm hnone fun state m1 h1 => ?_)
  refine wpSteps_bind (markedAuthorizeLoop_wpSteps attempts h1 (fun _ => trivial)
    fun state m2 h2 hauthorized => ?_)
  simp only
  split
  · trivial
  have hpersistable := h2.persistable hauthorized (state.bootEpoch + 1)
  refine wpSteps_bind (storeState_wpSteps h2.invariant (fun _ => hpersistable.signed)
    (fun _ => hpersistable.authorized) fun hstored => ?_)
  refine wpSteps_bind (markedPersist_wpSteps hstored hpersistable fun m3 hm3 hmemory _ => ?_)
  have hauthorized3 : m3.Authorized := ⟨_, hmemory, hpersistable.authorized⟩
  have hhello : SafeStep flash m3 (m3.withBoard (m3.board.log (.hello (state.bootEpoch + 1)))) :=
    hm3.logging hauthorized3
  refine wpSteps_bind (unmarked_wpSteps (wpSteps_bind (wpSteps_perform ?_ fun _ s4 h4 => ?_)))
  · rintro s4 rfl
    exact hm3.refl
  obtain rfl := h4
  refine ⟨hhello, plainBoard_wpSteps (handshake_plain sha256 flash _) hhello.invariant
    fun session => ?_⟩
  cases session with
  | none => trivial
  | some session =>
    exact serving_wpSteps (markedRecordLoop_serving sha256 _ _ _ _) ⟨hhello.invariant, hauthorized3⟩

/-! ## Lifetimes -/

/-- Moments that follow each other by safe steps, the last one first. -/
inductive SafeHistory (flash : Provisioning) : List Moment → Prop where
  | first {m : Moment} (invariant : MomentInvariant flash m) (events : m.board.events = []) :
      SafeHistory flash [m]
  | next {m m' : Moment} {earlier : List Moment} (before : SafeHistory flash (m :: earlier))
      (step : SafeStep flash m m') : SafeHistory flash (m' :: m :: earlier)

theorem Lifetime.safeHistory {moments : List Moment} (h : Lifetime sha256 flash moments) :
    SafeHistory flash moments := by
  induction h with
  | fresh board empty events =>
    refine .first ⟨fun slot r hr => ?_, nofun⟩ events
    cases (empty slot).symm.trans hr
  | @boot m moments trace attempts rounds _ htrace ih =>
    have hm : MomentInvariant flash m := by
      cases ih with
      | first invariant _ => exact invariant
      | next _ step => exact step.invariant
    have hpower : SafeStep flash m m.powerOn :=
      ⟨⟨hm.board, nofun⟩, .inl rfl, UInt32.le_refl _, .inl rfl, fun _ => .inl rfl⟩
    exact htrace.extends (markedMain_wpSteps sha256 attempts rounds hpower.invariant rfl)
      (ih.next hpower) fun _ _ _ hbefore hstep => hbefore.next hstep

theorem SafeHistory.suffix {later earlier : List Moment}
    (h : SafeHistory flash (later ++ m :: earlier)) : SafeHistory flash (m :: earlier) := by
  induction later with
  | nil => exact h
  | cons m' later ih =>
    rcases hrest : later ++ m :: earlier with _ | ⟨m'', rest⟩
    · simp at hrest
    · rw [List.cons_append, hrest] at h
      cases h with
      | next before _ =>
        rw [hrest] at ih
        exact ih before

theorem SafeHistory.invariant {earlier : List Moment} (h : SafeHistory flash (m :: earlier)) :
    MomentInvariant flash m := by
  cases h with
  | first invariant _ => exact invariant
  | next _ step => exact step.invariant

/-- An event of a moment happened in an earlier step. -/
theorem SafeHistory.happened {earlier : List Moment} (h : SafeHistory flash (m :: earlier))
    {event : BoardEvent} (hevent : event ∈ m.board.events) :
    ∃ later after before first, m :: earlier = later ++ after :: before :: first ∧
      after.board = before.board.log event ∧ EventAllowed flash before event := by
  generalize hmoments : m :: earlier = moments at h
  induction h generalizing m earlier with
  | first _ events =>
    cases hmoments
    rw [events] at hevent
    cases hevent
  | @next previous current first _ step ih =>
    cases hmoments
    have hearlier (hbefore : event ∈ previous.board.events) :
        ∃ later after before rest, current :: previous :: first = later ++ after :: before :: rest ∧
          after.board = before.board.log event ∧ EventAllowed flash before event := by
      obtain ⟨later, after, before, rest, hsplit, hlog⟩ := ih hbefore rfl
      exact ⟨current :: later, after, before, rest, congrArg (current :: ·) hsplit, hlog⟩
    rcases step.events with hsame | ⟨event', hlog, hallowed⟩
    · rw [hsame] at hevent
      exact hearlier hevent
    · rw [hlog] at hevent
      rcases List.mem_cons.mp hevent with rfl | hbefore
      · exact ⟨[], current, previous, first, rfl, hlog, hallowed⟩
      · exact hearlier hbefore

/-- At one of the moments the verifier accepts a manifest for this device with the given
sequence number, larger than the stored one, and consumes the whole signature. -/
def VerifiedBefore (flash : Provisioning) (moments : List Moment) (sequence : UInt32) : Prop :=
  ∃ later after before first manifest, moments = later ++ after :: before :: first ∧
    after.board = before.board.log (.signature manifest true flash.algorithm.signatureBytes) ∧
    DevicePolicy flash manifest sequence ∧ before.board.loaded.policySequence < sequence

theorem SafeHistory.verified {earlier : List Moment} (h : SafeHistory flash (m :: earlier))
    {sequence : UInt32} (hsigned : Signed flash m.board sequence) :
    VerifiedBefore flash (m :: earlier) sequence := by
  obtain ⟨manifest, hpolicy, hevent⟩ := hsigned
  obtain ⟨later, after, before, first, hsplit, hlog, hlength, hvalid⟩ := h.happened hevent
  refine ⟨later, after, before, first, manifest, hsplit, hlog, hpolicy, ?_⟩
  rw [← hpolicy.sequence_eq]
  exact (manifestValid_policy hlength hvalid).2

theorem SafeHistory.policy_le {earlier : List Moment} (h : SafeHistory flash (m :: earlier)) :
    ∀ m' ∈ earlier, m'.board.loaded.policySequence ≤ m.board.loaded.policySequence := by
  generalize hmoments : m :: earlier = moments at h
  induction h generalizing m earlier with
  | first _ _ =>
    cases hmoments
    exact nofun
  | next _ step ih =>
    cases hmoments
    intro m' hm'
    rcases List.mem_cons.mp hm' with rfl | hm'
    · exact step.policy
    · exact UInt32.le_trans (ih rfl m' hm') step.policy

theorem SafeHistory.pairwise {moments : List Moment} (h : SafeHistory flash moments) :
    moments.Pairwise fun later earlier =>
      earlier.board.loaded.policySequence ≤ later.board.loaded.policySequence := by
  induction h with
  | first _ _ => exact List.pairwise_singleton _ _
  | next before step ih => exact .cons (before.next step).policy_le ih

/-- The authorization of a device over a lifetime, given by its moments, the last one first. -/
structure AuthorizationSafe (flash : Provisioning) (moments : List Moment) : Prop where
  slots : ∀ later m earlier, moments = later ++ m :: earlier → ∀ slot r,
    m.board.records slot = some r → r.authorized = 1 →
      r.policySequence = m.board.loaded.policySequence ∧
        VerifiedBefore flash (m :: earlier) r.policySequence
  memory : ∀ later m earlier, moments = later ++ m :: earlier → ∀ state,
    m.npqState = some state → state.authorized = 1 →
      VerifiedBefore flash (m :: earlier) state.policySequence
  policy : moments.Pairwise fun later earlier =>
    earlier.board.loaded.policySequence ≤ later.board.loaded.policySequence
  served : ∀ later m' m earlier, moments = later ++ m' :: m :: earlier →
    m'.sealed ≠ m.sealed ∨ m'.board.epochs ≠ m.board.epochs → m.Authorized
  kept : ∀ later m' m earlier, moments = later ++ m' :: m :: earlier →
    m.Authorized → m'.npqState = none ∨ m'.Authorized

theorem SafeStep.authorized {m' : Moment} (h : SafeStep flash m m')
    (hserved : m'.sealed ≠ m.sealed ∨ m'.board.epochs ≠ m.board.epochs) : m.Authorized := by
  rcases hserved with hsealed | hepochs
  · exact h.sealed.resolve_left hsealed
  · rcases h.events with hsame | ⟨event, hlog, hallowed⟩
    · unfold Board.epochs at hepochs
      rw [hsame] at hepochs
      exact absurd rfl hepochs
    · cases event with
      | signature => exact absurd (congrArg Board.epochs hlog) hepochs
      | hello => exact hallowed

/-- Every lifetime, with any bytes from the UART, any verdicts of the verifier and any
losses of power, keeps the authorization safe. -/
theorem lifetime_authorizationSafe {moments : List Moment} (h : Lifetime sha256 flash moments) :
    AuthorizationSafe flash moments := by
  have hhistory := h.safeHistory
  refine ⟨?_, ?_, hhistory.pairwise, ?_, ?_⟩
  · rintro later m earlier rfl slot r hr -
    have hm := hhistory.suffix
    have hrecord := hm.invariant.board slot r hr
    exact ⟨hrecord.policy, hm.verified hrecord.signed⟩
  · rintro later m earlier rfl state hstate hauthorized
    have hm := hhistory.suffix
    exact hm.verified (hm.invariant.memory state hstate hauthorized)
  · rintro later m' m earlier rfl hserved
    cases hhistory.suffix with
    | next _ step => exact step.authorized hserved
  · rintro later m' m earlier rfl hm
    cases hhistory.suffix with
    | next _ step => exact step.kept hm

/-- A board whose UART delivers the given bytes and whose verifier accepts. -/
def scriptedReply (flash : Provisioning) : (e : BoardCall ⊕ FirmwareMark) → Moment × Bytes →
    MarkedReply BoardReply FirmwareMark e × (Moment × Bytes)
  | .inl (.eepromRead slot), (m, input) => (m.board.eeprom slot, (m, input))
  | .inl (.eepromUpdate slot offset bytes), (m, input) =>
    ((), (m.withBoard (m.board.setSlot slot (overwrite (m.board.eeprom slot) offset bytes)), input))
  | .inl .uartGet, (m, input) => (input.head?, (m, input.tail))
  | .inl (.uartPut _), (m, input) => ((), (m, input))
  | .inl (.verifySignature manifest), (m, input) =>
    ((true, flash.algorithm.signatureBytes),
      (m.withBoard (m.board.log (.signature manifest true flash.algorithm.signatureBytes)), input))
  | .inl (.makeHello bootEpoch), (m, input) =>
    ((), (m.withBoard (m.board.log (.hello bootEpoch)), input))
  | .inl .adcRead, (m, input) => (0, (m, input))
  | .inl (.ledSet _), (m, input) => ((), (m, input))
  | .inr (.storeState state), (m, input) => ((), (m.storing state, input))
  | .inr .seal, (m, input) => ((), (m.sealing, input))

theorem scriptedReply_step (flash : Provisioning) (e : BoardCall ⊕ FirmwareMark)
    (t : Moment × Bytes) :
    momentStep e t.1 (scriptedReply flash e t).1 (scriptedReply flash e t).2.1 := by
  rcases e with e | mark
  · cases e with
    | eepromRead => exact ⟨_, ⟨rfl, rfl⟩, rfl⟩
    | eepromUpdate | verifySignature | makeHello => exact ⟨_, rfl, rfl⟩
    | uartGet | uartPut | adcRead | ledSet => exact ⟨_, rfl, rfl⟩
  · cases mark <;> rfl

/-- The moments of a device that is enrolled and sends one hello, with a constant hash
function. -/
def enrolledMoments : List Moment :=
  let m : Moment := ⟨blankBoard, none, 0⟩
  ((markedMain (fun _ => Block.zero 32) zeroProvisioning 1 0).traceRun
    (scriptedReply zeroProvisioning) (m.powerOn, 52 :: enrollFrame zeroProvisioning)).map Prod.fst
      ++ [m.powerOn, m]

theorem enrolledMoments_authorizationSafe :
    Lifetime (fun _ => Block.zero 32) zeroProvisioning enrolledMoments ∧
      (enrolledMoments.head?.map fun m =>
        (m.board.epochs, m.npqState.map (·.authorized), m.board.loaded.policySequence))
          = some ([1], some 1, 1) ∧
      AuthorizationSafe zeroProvisioning enrolledMoments := by
  have hempty : ∀ slot, blankBoard.records slot = none := by decide +kernel
  have hlifetime : Lifetime (fun _ => Block.zero 32) zeroProvisioning enrolledMoments :=
    (Lifetime.fresh blankBoard hempty rfl).boot 1 0
      (Trace.of_run Prod.fst (scriptedReply_step zeroProvisioning)
        (markedMain (fun _ => Block.zero 32) zeroProvisioning 1 0)
        ((Moment.mk blankBoard none 0).powerOn, 52 :: enrollFrame zeroProvisioning))
  exact ⟨hlifetime, by decide +kernel, lifetime_authorizationSafe _ hlifetime⟩

end C0PQLink.NanoPQ
