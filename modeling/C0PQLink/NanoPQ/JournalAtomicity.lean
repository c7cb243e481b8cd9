import C0PQLink.NanoPQ.Authorization

/-!
# Atomicity of the journal

A loss of power during `state_persist` at any moment of any lifetime, the exhausted
generation counter included: the next `state_load` finds the record from before the
persist or the new one.

* `Reached.policy`: the records of every board of a lifetime lie in the slots of their
  generations.
* `AtPersist.modified`: the `npq_state` that the firmware persists continues the record
  that the journal holds.
* `statePersist_atomic`: what the next load yields after any cut.
-/

namespace C0PQLink.NanoPQ

open Foundation TwoSlot Program

variable (sha256 : Bytes → Block 32) (flash : Provisioning)

/-! ## The boards of a lifetime -/

variable {s : Board} {state : StateRecord}

theorem Reached.lifetime (h : Reached sha256 flash (fun _ => True) s) :
    ∃ m moments, Lifetime sha256 flash (m :: moments) ∧ m.board = s := by
  induction h with
  | fresh s empty events => exact ⟨_, _, .fresh s empty events, rfl⟩
  | @boot s s' attempts rounds _ _ hcut ih =>
    obtain ⟨m, moments, hlifetime, rfl⟩ := ih
    rw [← markedMain_erase] at hcut
    have hmarked : ∃ trace m' before, Trace momentStep momentInterrupt
        (markedMain sha256 flash attempts rounds) m.powerOn trace ∧
          trace ++ [m.powerOn] = m' :: before ∧ Moment.board m' = s' := by
      refine Cut.of_erase hcut ?_ ?_ ?_
      · exact fun e m r board h => ⟨m.withBoard board, ⟨board, h, rfl⟩, rfl⟩
      · exact fun e m board h => ⟨m.withBoard board, ⟨board, h, rfl⟩, rfl⟩
      · rintro (state | _) m
        · exact ⟨m.storing state, rfl, rfl⟩
        · exact ⟨m.sealing, rfl, rfl⟩
    obtain ⟨trace, m', before, htrace, heq, hboard⟩ := hmarked
    have hnext := hlifetime.boot attempts rounds htrace
    have hsplit : trace ++ m.powerOn :: m :: moments = (trace ++ [m.powerOn]) ++ m :: moments := by
      simp
    rw [hsplit, heq] at hnext
    exact ⟨m', _, hnext, hboard⟩

theorem Reached.policy (h : Reached sha256 flash (fun _ => True) s) : PolicyInvariant flash s := by
  obtain ⟨m, moments, hlifetime, rfl⟩ := Reached.lifetime sha256 flash h
  exact (hlifetime.safeHistory sha256).invariant.board

/-! ## Where the firmware persists -/

/-- The firmware is about to run `state_persist` on the board `s`, with `npq_state` holding
`state`. -/
def AtPersist (s : Board) (state : StateRecord) : Prop :=
  ∃ (start : Board) (attempts rounds : Nat) (rest : StateRecord → Firmware Unit),
    Reached sha256 flash (fun _ => True) start ∧
      Arrives boardStep (main sha256 flash attempts rounds) start (statePersist state >>= rest) s

theorem atPersist_of_arrives {start : Board} (attempts rounds : Nat)
    (hreached : Reached sha256 flash (fun _ => True) start) {rest : StateRecord → Firmware Unit}
    (h : Arrives boardStep (main sha256 flash attempts rounds) start
      (statePersist state >>= rest) s) : AtPersist sha256 flash s state :=
  ⟨start, attempts, rounds, rest, hreached, h⟩

theorem AtPersist.reached (h : AtPersist sha256 flash s state) :
    Reached sha256 flash (fun _ => True) s := by
  obtain ⟨start, attempts, rounds, rest, hreached, harrives⟩ := h
  exact hreached.boot attempts rounds trivial harrives.cut

/-- What the firmware changes in `npq_state` before it persists it: the authorization and
the policy after an enrollment, the epoch in a boot. -/
structure Modified (before state : StateRecord) : Prop where
  generation : state.generation = before.generation
  authorized : state.authorized = 1
  fields : before.authorized = 0 ∧ state.bootEpoch = before.bootEpoch ∨
    before.authorized = 1 ∧ state.bootEpoch = before.bootEpoch + 1 ∧
      state.policySequence = before.policySequence

/-- A call that does not write the EEPROM. -/
def NoWrite : BoardCall → Prop
  | .eepromUpdate _ _ _ => False
  | _ => True

theorem noWrite_of_quiet {α : Type} {p : Firmware α} (h : p.Only QuietCall) : p.Only NoWrite :=
  h.mono fun e he => by
    cases e with
    | eepromUpdate => exact he
    | _ => trivial

theorem noWrite_of_plain {α : Type} {p : Firmware α} (h : p.Only PlainCall) : p.Only NoWrite :=
  noWrite_of_quiet (quiet_of_plain h)

variable {α : Type} {f : α → Firmware Unit} {rest : StateRecord → Firmware Unit} {s' : Board}

/-- A part of the firmware that does not write the EEPROM comes before every persist. -/
theorem noWrite_arrives {p : Firmware α} (h : p.Only NoWrite)
    (harrives : Arrives boardStep (p >>= f) s (statePersist state >>= rest) s') :
    ∃ a s1, Outcome boardStep p s a s1 ∧
      Arrives boardStep (f a) s1 (statePersist state >>= rest) s' := by
  rcases harrives.of_bind with ⟨e, next, hp, heq⟩ | hrest
  · injection heq with hcall
    subst hcall
    exact (h.arrives hp).elim
  · exact hrest

theorem noWrite_not_arrives {p : Firmware Unit} (h : p.Only NoWrite) :
    ¬ Arrives boardStep p s (statePersist state >>= rest) s' :=
  fun harrives => h.arrives harrives

theorem bytes_take (r : StateRecord) : r.bytes.val.take 2 = (store16BE r.magic).reverse := rfl

theorem persisted_magic (state : StateRecord) : (persisted state).magic = npqStateMagic := rfl

theorem persisted_generation (state : StateRecord) :
    (persisted state).generation = state.generation + 1 := rfl

theorem persisted_authorized (state : StateRecord) :
    (persisted state).authorized = state.authorized := rfl

theorem persisted_bootEpoch (state : StateRecord) :
    (persisted state).bootEpoch = state.bootEpoch := rfl

theorem persisted_policySequence (state : StateRecord) :
    (persisted state).policySequence = state.policySequence := rfl

/-- A persist that is left to run determines the record it writes. -/
theorem persisted_inj {before : StateRecord} {f : StateRecord → Firmware Unit}
    (h : statePersist state >>= rest = statePersist before >>= f) :
    persisted state = persisted before := by
  injection h with _ hnext
  have hsecond := congrFun hnext ()
  injection hsecond with hcall
  injection hcall with _ _ hbytes
  have hmagic : (persisted state).bytes.val.take 2 = (persisted before).bytes.val.take 2 := by
    rw [bytes_take, bytes_take, persisted_magic, persisted_magic]
  have hblock : (persisted state).bytes = (persisted before).bytes := by
    apply Block.ext
    rw [← List.take_append_drop 2 (persisted state).bytes.val, hmagic, hbytes,
      List.take_append_drop]
  rw [← ofBytes_bytes (persisted state), hblock, ofBytes_bytes]

/-- A persist comes before every other one, or is the one that is about to run. -/
theorem persist_arrives {before : StateRecord} {f : StateRecord → Firmware Unit}
    (h : Arrives boardStep (statePersist before >>= f) s (statePersist state >>= rest) s') :
    s' = s ∧ persisted state = persisted before ∨
      ∃ s1, Outcome boardStep (statePersist before) s (persisted before) s1 ∧
        Arrives boardStep (f (persisted before)) s1 (statePersist state >>= rest) s' := by
  generalize hq : statePersist state >>= rest = q at h
  cases h with
  | here => exact .inl ⟨rfl, persisted_inj hq⟩
  | call h1 harrives =>
    cases harrives with
    | here =>
      -- the bytes behind the magic are next
      injection hq with hcall
      injection hcall with _ hoffset
      cases hoffset
    | call h2 harrives =>
      cases harrives with
      | here =>
        -- the magic is next
        injection hq with hcall
        injection hcall with _ _ hbytes
        cases hbytes
      | call h3 harrives =>
        exact .inr ⟨_, .call h1 (.call h2 (.call h3 (.done _ _))), harrives⟩

theorem Modified.of_persisted {before state' : StateRecord} (h : Modified before state')
    (heq : persisted state = persisted state') : Modified before state := by
  have hgeneration : (persisted state).generation = (persisted state').generation := by rw [heq]
  have hauthorized : (persisted state).authorized = (persisted state').authorized := by rw [heq]
  have hepoch : (persisted state).bootEpoch = (persisted state').bootEpoch := by rw [heq]
  have hpolicy : (persisted state).policySequence = (persisted state').policySequence := by
    rw [heq]
  simp only [persisted_generation, persisted_authorized, persisted_bootEpoch,
    persisted_policySequence] at hgeneration hauthorized hepoch hpolicy
  refine ⟨(UInt32.add_left_inj 1).mp hgeneration |>.trans h.generation, ?_, ?_⟩
  · rw [hauthorized, h.authorized]
  · rw [hepoch, hpolicy]
    exact h.fields

/-- `npq_state` holds what the journal holds, and without authorization that is nothing. -/
structure Mirrors (s : Board) (state : StateRecord) : Prop where
  loaded : s.loaded = state
  empty : state.authorized = 0 → ∀ slot, s.records slot = none

theorem Mirrors.of_same {s1 : Board} (h : Mirrors s state) (hsame : SameJournal s s1) :
    Mirrors s1 state :=
  ⟨hsame.loaded.trans h.loaded, by rw [hsame.records]; exact h.empty⟩

/-- What a part of the firmware leaves alone. -/
theorem quiet_outcome {p : Firmware α} {a : α} {s1 : Board} (h : p.Only QuietCall)
    (houtcome : Outcome boardStep p s a s1) : SameJournal s s1 := by
  induction houtcome with
  | done a s => exact .refl s
  | call answered _ ih => exact (quiet_step h.1 answered).trans (ih (h.2 _))

theorem plain_outcome {p : Firmware α} {a : α} {s1 : Board} (h : p.Only PlainCall)
    (houtcome : Outcome boardStep p s a s1) : SameJournal s s1 :=
  quiet_outcome (quiet_of_plain h) houtcome

theorem persist_outcome {a : StateRecord} {s1 : Board} (hauthorized : state.authorized ≤ 1)
    (h : Outcome boardStep (statePersist state) s a s1) :
    s1 = s.setSlot (persistSlot state) (persisted state).bytes := by
  have hpersist : (statePersist state).wpSteps boardStep boardInterrupt (fun _ _ => True)
      (fun _ s1 => s1 = s.setSlot (persistSlot state) (persisted state).bytes) s :=
    statePersist_wpSteps hauthorized (fun _ _ _ _ => trivial) rfl
  have hs1 := h.of_wpSteps hpersist
  exact hs1

theorem authorize_arrives {before : StateRecord} {f : Bool × StateRecord → Firmware Unit}
    (hs : Mirrors s before) (hbefore : before.authorized = 0)
    (h : Arrives boardStep (authorizePostQuantum flash before >>= f) s
      (statePersist state >>= rest) s') :
    Modified s'.loaded state ∨
      ∃ result s1, Mirrors s1 result.2 ∧
        Arrives boardStep (f result) s1 (statePersist state >>= rest) s' := by
  have hreject {s1 : Board} (hs1 : Mirrors s1 before) (h : Arrives boardStep ((do
      uartSendFrame (makeControlFrame npqFrameEnrollResult 0)
      return (false, before) : Firmware (Bool × StateRecord)) >>= f) s1
        (statePersist state >>= rest) s') : ∃ result s1, Mirrors s1 result.2 ∧
          Arrives boardStep (f result) s1 (statePersist state >>= rest) s' := by
    rw [LawfulMonad.bind_assoc] at h
    obtain ⟨_, s2, h2, h⟩ := noWrite_arrives (noWrite_of_plain (uartSendFrame_plain _)) h
    rw [pure_bind] at h
    exact ⟨_, s2, hs1.of_same (plain_outcome (uartSendFrame_plain _) h2), h⟩
  unfold authorizePostQuantum at h
  simp only [LawfulMonad.bind_assoc] at h
  obtain ⟨_, s1, h1, h⟩ := noWrite_arrives (noWrite_of_plain (uartSendFrame_plain _)) h
  have hs1 := hs.of_same (plain_outcome (uartSendFrame_plain _) h1)
  obtain ⟨frame, s2, h2, h⟩ := noWrite_arrives (noWrite_of_plain uartReadFrame_plain) h
  have hs2 := hs1.of_same (plain_outcome uartReadFrame_plain h2)
  split at h
  · exact .inr (hreject hs2 h)
  rw [LawfulMonad.bind_assoc] at h
  have hverify : (perform (BoardCall.verifySignature ((frame.getD []).drop 4)) :
      Firmware (Bool × Nat)).Only QuietCall := only_perform trivial
  obtain ⟨verdict, s3, h3, h⟩ := noWrite_arrives (noWrite_of_quiet hverify) h
  have hs3 := hs2.of_same (quiet_outcome hverify h3)
  split at h
  · exact .inr (hreject hs3 h)
  have hle : (1 : UInt8) ≤ 1 := by decide
  simp only [LawfulMonad.bind_assoc] at h
  rcases persist_arrives h with ⟨rfl, heq⟩ | ⟨s4, h4, h⟩
  · left
    refine Modified.of_persisted ⟨?_, rfl, .inl ⟨?_, ?_⟩⟩ heq
    · rw [hs3.loaded]
    · rw [hs3.loaded, hbefore]
    · rw [hs3.loaded]
  · right
    obtain ⟨_, s5, h5, h⟩ := noWrite_arrives (noWrite_of_plain (uartSendFrame_plain _)) h
    rw [pure_bind] at h
    refine ⟨_, s5, Mirrors.of_same ⟨?_, ?_⟩ (plain_outcome (uartSendFrame_plain _) h5), h⟩
    · rw [persist_outcome hle h4]
      exact loaded_persist_empty (hs3.empty hbefore) hle
    · exact fun hzero => absurd hzero (by decide : (1 : UInt8) ≠ 0)

theorem authorizeLoop_arrives (attempts : Nat) {before : StateRecord}
    {f : Option StateRecord → Firmware Unit} (hs : Mirrors s before)
    (h : Arrives boardStep (authorizeLoop flash attempts before >>= f) s
      (statePersist state >>= rest) s') :
    Modified s'.loaded state ∨
      ∃ result s1, (∀ after, result = some after → Mirrors s1 after ∧ after.authorized ≠ 0) ∧
        Arrives boardStep (f result) s1 (statePersist state >>= rest) s' := by
  have hdone {s : Board} {before : StateRecord} (hs : Mirrors s before)
      (hbefore : before.authorized ≠ 0)
      (h : Arrives boardStep (f (some before)) s (statePersist state >>= rest) s') :
      ∃ result s1, (∀ after, result = some after → Mirrors s1 after ∧ after.authorized ≠ 0) ∧
        Arrives boardStep (f result) s1 (statePersist state >>= rest) s' := by
    refine ⟨_, s, fun after hafter => ?_, h⟩
    cases hafter
    exact ⟨hs, hbefore⟩
  induction attempts generalizing s before with
  | zero =>
    unfold authorizeLoop at h
    by_cases hbefore : before.authorized = 0
    · rw [if_pos hbefore] at h
      refine .inr ⟨none, s, fun after hafter => ?_, h⟩
      cases hafter
    · rw [if_neg hbefore] at h
      exact .inr (hdone hs hbefore h)
  | succ attempts ih =>
    unfold authorizeLoop at h
    by_cases hbefore : before.authorized = 0
    · rw [if_pos hbefore, LawfulMonad.bind_assoc] at h
      rcases authorize_arrives flash hs hbefore h with hmodified | ⟨result, s1, hs1, h⟩
      · exact .inl hmodified
      · exact ih hs1 h
    · rw [if_neg hbefore] at h
      exact .inr (hdone hs hbefore h)

theorem loaded_authorized_le (s : Board) : s.loaded.authorized ≤ 1 := by
  rcases hnewest : newest recordGeneration s.records with _ | ⟨slot, r⟩
  · rw [loaded_of_none hnewest]
    exact (by decide : (0 : UInt8) ≤ 1)
  · rw [loaded_of_newest hnewest]
    have hr : slotRecord (s.eeprom slot) = some r := (newest_spec hnewest).1
    unfold slotRecord at hr
    split at hr
    · rename_i hvalid
      cases hr
      simp only [stateValid, decide_eq_true_eq] at hvalid
      exact hvalid.2.2.1
    · cases hr

theorem PolicyInvariant.mirrors (h : PolicyInvariant flash s) : Mirrors s s.loaded := by
  refine ⟨rfl, fun hzero slot => ?_⟩
  rcases hnewest : newest recordGeneration s.records with _ | ⟨i, r⟩
  · have hnone := newest_eq_none.mp hnewest
    cases slot
    · exact hnone.1
    · exact hnone.2
  · rw [loaded_of_newest hnewest, (h i r (newest_spec hnewest).1).authorized] at hzero
    cases hzero

theorem stateLoad_yields {a : StateRecord} (h : Outcome boardStep stateLoad s a s') :
    a = s.loaded ∧ s' = s := by
  have hload : stateLoad.wpSteps boardStep boardInterrupt (fun _ _ => True)
      (fun a s' => a = s.loaded ∧ s' = s) s := stateLoad_wpSteps trivial ⟨rfl, rfl⟩
  have hresult := h.of_wpSteps hload
  exact hresult

/-- Every persist of the firmware continues the record that the journal holds. -/
theorem AtPersist.modified (h : AtPersist sha256 flash s state) : Modified s.loaded state := by
  obtain ⟨start, attempts, rounds, rest, hreached, h⟩ := h
  have hstart := PolicyInvariant.mirrors flash (Reached.policy sha256 flash hreached)
  have hled : (perform (BoardCall.ledSet false) : Firmware Unit).Only QuietCall :=
    only_perform trivial
  have hload : stateLoad.Only NoWrite :=
    only_bind (only_perform trivial) fun _ => only_bind (only_perform trivial) fun _ => trivial
  unfold main at h
  obtain ⟨_, s1, h1, h⟩ := noWrite_arrives (noWrite_of_quiet hled) h
  have hs1 := hstart.of_same (quiet_outcome hled h1)
  obtain ⟨before, s2, h2, h⟩ := noWrite_arrives hload h
  obtain ⟨rfl, rfl⟩ := stateLoad_yields h2
  rw [hs1.loaded] at h
  rcases authorizeLoop_arrives flash attempts hs1 h with hmodified | ⟨result, s3, hs3, h⟩
  · exact hmodified
  cases result with
  | none => exact (noWrite_not_arrives (only_pure ()) h).elim
  | some after =>
    obtain ⟨hmirrors, hauthorized⟩ := hs3 after rfl
    simp only at h
    split at h
    · exact (noWrite_not_arrives (only_pure ()) h).elim
    have hone : after.authorized = 1 := by
      have hle := loaded_authorized_le s3
      rw [hmirrors.loaded] at hle
      rw [UInt8.le_iff_toNat_le] at hle
      have hne : after.authorized.toNat ≠ 0 := fun hzero => hauthorized (UInt8.toNat_inj.mp hzero)
      have hone : UInt8.toNat 1 = 1 := rfl
      exact UInt8.toNat_inj.mp (by omega)
    rcases persist_arrives h with ⟨rfl, heq⟩ | ⟨s4, -, h⟩
    · have hboot : Modified after { after with bootEpoch := after.bootEpoch + 1 } :=
        ⟨rfl, hone, .inr ⟨hone, rfl, rfl⟩⟩
      rw [hmirrors.loaded]
      exact hboot.of_persisted heq
    · -- what follows the persist in the boot does not write
      refine (noWrite_not_arrives ?_ h).elim
      refine only_bind (only_bind (only_perform trivial) fun _ =>
        noWrite_of_plain (handshake_plain sha256 flash _)) fun session => ?_
      cases session with
      | none => exact trivial
      | some session => exact noWrite_of_plain (recordLoop_plain sha256 _ _ _ _)

/-! ## Losing power during a persist -/

/-- What a cut of `state_persist` leaves behind, seen by the next `state_load`. -/
structure PersistAtomic (s : Board) (state : StateRecord) : Prop where
  loads : ∀ s' record s'', Cut boardStep boardInterrupt (statePersist state) s s' →
    Outcome boardStep stateLoad s' record s'' →
      record = s.loaded ∨ record = persisted state
  recovers : ∀ s' record s'' slot r, Cut boardStep boardInterrupt (statePersist state) s s' →
    Outcome boardStep stateLoad s' record s'' → s.records slot = some r → record ≠ stateDefaults
  spares : ∀ slot r, newest recordGeneration s.records = some (slot, r) → slot ≠ persistSlot state
  fields : (persisted state).authorized = state.authorized ∧
    (persisted state).bootEpoch = state.bootEpoch ∧
      (persisted state).policySequence = state.policySequence
  generation : (persisted state).generation.toNat = state.generation.toNat + 1

/-- The slot of the current record is the other one, by the parity of its generation. -/
theorem AtPersist.other_slot (h : AtPersist sha256 flash s state) {slot : Bool} {r : StateRecord}
    (hnewest : newest recordGeneration s.records = some (slot, r)) :
    slot = !persistSlot state := by
  have hslot := (Reached.policy sha256 flash h.reached slot r (newest_spec hnewest).1).slot_eq
  have hgeneration : state.generation = r.generation := by
    rw [h.modified.generation, loaded_of_newest hnewest]
  have hnext : persistSlot state = !slot := by
    change generationSlot (state.generation + 1) = _
    rw [generationSlot_next, hgeneration, hslot]
  rw [hnext, Bool.not_not]

theorem AtPersist.follows (h : AtPersist sha256 flash s state)
    (hroom : state.generation ≠ 0xffffffff) : Follows s state := by
  rcases hnewest : newest recordGeneration s.records with _ | ⟨slot, r⟩
  · exact .inl hnewest
  · right
    refine ⟨r, ?_, ?_⟩
    · rw [hnewest, h.other_slot sha256 flash hnewest]
    · have hgeneration : state.generation = r.generation := by
        rw [h.modified.generation, loaded_of_newest hnewest]
      unfold recordGeneration
      rw [generation_persisted hroom, hgeneration]
      exact Nat.lt_succ_self _

/-- The state that is loaded after a persist was cut off. -/
theorem Follows.torn_loaded (h : Follows s state) {content : Block 18}
    (hcontent : Torn s state content) :
    (s.setSlot (persistSlot state) content).loaded = s.loaded ∨
      (s.setSlot (persistSlot state) content).loaded = persisted state := by
  rcases hcontent with hold | hnone | hnew
  · left
    have hrecords : (s.setSlot (persistSlot state) content).records = s.records := by
      rw [records_setSlot, hold]
      exact Function.update_eq_self _ _
    unfold Board.loaded
    rw [hrecords]
  · left
    unfold Board.loaded
    rw [h.newest_lost hnone]
  · right
    exact loaded_of_newest (h.newest_done hnew)

theorem statePersist_torn {s' : Board} (hauthorized : state.authorized ≤ 1)
    (h : Cut boardStep boardInterrupt (statePersist state) s s') :
    ∃ content, Torn s state content ∧ s' = s.setSlot (persistSlot state) content := by
  have hcut : (statePersist state).wpCut boardStep boardInterrupt
      (fun s' => ∃ content, Torn s state content ∧ s' = s.setSlot (persistSlot state) content)
      (fun _ _ => True) s := by
    refine statePersist_wpCut hauthorized ⟨s.eeprom (persistSlot state), .inl rfl, ?_⟩
      (fun content hcontent => ⟨content, hcontent, rfl⟩) trivial
    unfold Board.setSlot
    rw [Function.update_eq_self]
  exact h.invariant hcut

/-- Atomicity of every persist that the firmware makes before the last generation. -/
theorem statePersist_atomic (h : AtPersist sha256 flash s state)
    (hroom : state.generation ≠ 0xffffffff) :
    PersistAtomic s state ∧ Modified s.loaded state := by
  have hmodified := h.modified
  have hfollows := h.follows sha256 flash hroom
  have hauthorized : state.authorized ≤ 1 := by
    rw [hmodified.authorized]
    decide
  have hloads : ∀ s' record s'', Cut boardStep boardInterrupt (statePersist state) s s' →
      Outcome boardStep stateLoad s' record s'' → record = s.loaded ∨ record = persisted state := by
    intro s' record s'' hcut hload
    obtain ⟨content, hcontent, rfl⟩ := statePersist_torn hauthorized hcut
    obtain ⟨rfl, -⟩ := stateLoad_yields hload
    exact hfollows.torn_loaded hcontent
  refine ⟨⟨hloads, ?_, ?_, ⟨rfl, rfl, rfl⟩, generation_persisted hroom⟩, hmodified⟩
  · intro s' record s'' slot r hcut hload hr hdefaults
    have hzero : record.authorized = 0 := by
      rw [hdefaults]
      rfl
    obtain ⟨i, current, hnewest⟩ : ∃ i current,
        newest recordGeneration s.records = some (i, current) := newest_isSome hr
    rcases hloads s' record s'' hcut hload with rfl | rfl
    · have hgood := Reached.policy sha256 flash h.reached i current (newest_spec hnewest).1
      rw [loaded_of_newest hnewest, hgood.authorized] at hzero
      cases hzero
    · rw [persisted_authorized, hmodified.authorized] at hzero
      cases hzero
  · intro slot r hnewest hsame
    have hother := h.other_slot sha256 flash hnewest
    rw [hsame] at hother
    cases hslot : persistSlot state <;> rw [hslot] at hother <;> cases hother

/-! ## The first boot -/

/-- `npq_state` when a boot persists it. -/
def StateRecord.nextEpoch (r : StateRecord) : StateRecord := { r with bootEpoch := r.bootEpoch + 1 }

theorem Reached.atPersist (h : Reached sha256 flash (fun _ => True) s)
    (hauthorized : s.loaded.authorized ≠ 0) (hepoch : s.loaded.bootEpoch ≠ 0xffffffff) :
    AtPersist sha256 flash s s.loaded.nextEpoch := by
  have hled : Outcome boardStep (perform (BoardCall.ledSet false) : Firmware Unit) s () s :=
    .call (show boardStep _ _ () _ from rfl) (.done _ _)
  apply atPersist_of_arrives sha256 flash 0 0 h
  refine hled.arrives ((stateLoad_outcome s).arrives ?_)
  rw [authorizeLoop, if_neg hauthorized]
  simp only [pure_bind, hepoch, if_false]
  exact .here _ _

/-- A device that has been enrolled and is about to make its first epoch durable. -/
def enrolledBoard : Board := blankBoard.afterEnrollment zeroProvisioning

def zeroHash (_ : Bytes) : Block 32 := Block.zero 32

theorem enrolledBoard_atGeneration : AtGeneration zeroHash zeroProvisioning 1 enrolledBoard :=
  atGeneration_one zeroHash zeroProvisioning

theorem enrolledBoard_atPersist :
    AtPersist zeroHash zeroProvisioning enrolledBoard enrolledBoard.loaded.nextEpoch := by
  have h := enrolledBoard_atGeneration
  exact (h.reached.mono _ _ fun _ _ => trivial).atPersist _ _ h.authorized h.epoch_ne

theorem enrolledBoard_loaded : enrolledBoard.loaded = persisted enrolled := by decide +kernel

/-- The atomicity of the first epoch's persist. -/
theorem enrolledBoard_persistAtomic :
    PersistAtomic enrolledBoard enrolledBoard.loaded.nextEpoch ∧
      Modified enrolledBoard.loaded enrolledBoard.loaded.nextEpoch :=
  statePersist_atomic _ _ enrolledBoard_atPersist (by rw [enrolledBoard_loaded]; decide)

/-- The record that a cut persist leaves to the next load is not `npq_state`: it lacks the
epoch that the persist makes durable. -/
theorem enrolledBoard_losesEpoch :
    ¬ ∀ (sha256 : Bytes → Block 32) (flash : Provisioning) (s : Board) (state : StateRecord),
      AtPersist sha256 flash s state → state.generation ≠ 0xffffffff →
        ∀ s' record s'', Cut boardStep boardInterrupt (statePersist state) s s' →
          Outcome boardStep stateLoad s' record s'' →
            record = state ∨ record = persisted state ∨
              record = stateDefaults ∧ ∀ slot, s.records slot = none := by
  intro h
  have hloaded := h _ _ _ _ enrolledBoard_atPersist (by rw [enrolledBoard_loaded]; decide) _ _ _
    (.stop _ _) (stateLoad_outcome enrolledBoard)
  have hepoch : enrolledBoard.loaded.bootEpoch = 0 := by
    rw [enrolledBoard_loaded]
    rfl
  have hnext : enrolledBoard.loaded.nextEpoch.bootEpoch = 1 := by
    change enrolledBoard.loaded.bootEpoch + 1 = 1
    rw [hepoch]
    rfl
  rcases hloaded with heq | heq | ⟨heq, -⟩
  · rw [← heq, hepoch] at hnext
    cases hnext
  · have hsame := congrArg StateRecord.bootEpoch heq
    rw [persisted_bootEpoch, hepoch, hnext] at hsame
    cases hsame
  · have hauthorized := congrArg StateRecord.authorized heq
    rw [enrolledBoard_loaded] at hauthorized
    cases hauthorized

end C0PQLink.NanoPQ
