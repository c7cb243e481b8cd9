import C0PQLink.NanoPQ.ResetSafety

/-!
# The state record in memory

`npq_state` of `nanopq_secure_link/main.c` is a variable: the functions of the firmware
below say when they write it, and when they enter `npq_seal`. Without these marks they
are the functions of `Firmware`.

* `markedMain_erase`: the boot without its marks is `main`.
* `Lifetime`: the moments that the boots of a device pass through.
* `Lifetime.reached`: every one of them is a moment of the lifetimes of `ResetSafety`.
-/

namespace C0PQLink.NanoPQ

open Foundation Program

variable (sha256 : Bytes → Block 32)

/-- A write of `npq_state`, and the entry of `npq_seal`. Writes with no call between them
are one write. -/
inductive FirmwareMark where
  | storeState (state : StateRecord)
  | seal

abbrev MarkedFirmware := Program (BoardCall ⊕ FirmwareMark) (MarkedReply BoardReply FirmwareMark)

/-- A function of the firmware that neither writes `npq_state` nor seals. -/
abbrev unmarked {α : Type} (p : Firmware α) : MarkedFirmware α := p.lift FirmwareMark

/-! ## The functions with marks -/

def markedLoad : MarkedFirmware StateRecord := do
  let state ← unmarked stateLoad
  mark (.storeState state)
  return state

def markedPersist (state : StateRecord) : MarkedFirmware StateRecord := do
  let record ← unmarked (statePersist state)
  mark (.storeState record)
  return record

def markedAuthorize (flash : Provisioning) (state : StateRecord) :
    MarkedFirmware (Bool × StateRecord) := do
  unmarked (uartSendFrame (makeControlFrame npqFrameEnrollRequired flash.algorithm.id))
  let frame := (← unmarked uartReadFrame).getD []
  if frame.length ≠ npqPolicyFrameBytes ∨ byteAt frame 0 ≠ 0x4e ∨ byteAt frame 1 ≠ 0x51
      ∨ byteAt frame 2 ≠ 1 ∨ byteAt frame 3 ≠ npqFrameEnrollBegin
      ∨ manifestValid flash state (frame.drop 4) = false then
    unmarked (uartSendFrame (makeControlFrame npqFrameEnrollResult 0))
    return (false, state)
  let (verified, consumed) ← unmarked (.perform (BoardCall.verifySignature (frame.drop 4)))
  if verified = false ∨ consumed ≠ flash.algorithm.signatureBytes then
    unmarked (uartSendFrame (makeControlFrame npqFrameEnrollResult 0))
    return (false, state)
  let state := { state with authorized := 1, policySequence := load32BE (slice frame 44 4) }
  mark (.storeState state)
  let state ← markedPersist state
  unmarked (uartSendFrame (makeControlFrame npqFrameEnrollResult 1))
  return (true, state)

def markedAuthorizeLoop (flash : Provisioning) :
    Nat → StateRecord → MarkedFirmware (Option StateRecord)
  | 0, state => return if state.authorized = 0 then none else some state
  | attempts + 1, state => do
    if state.authorized = 0 then
      let (_, state) ← markedAuthorize flash state
      markedAuthorizeLoop flash attempts state
    else return some state

def markedSeal (session : NpqSession) (plaintext : Bytes) : MarkedFirmware NpqSession := do
  mark .seal
  unmarked (sealAndSend sha256 session plaintext)

def markedSensor (state : StateRecord) (session : NpqSession) : MarkedFirmware NpqSession := do
  let sample ← unmarked (.perform BoardCall.adcRead)
  markedSeal sha256 session
    ([npqPayloadSensor, (sample >>> 8).toUInt8, sample.toUInt8] ++ store32BE state.bootEpoch)

def markedStatus (session : NpqSession) (accepted led : Bool) : MarkedFirmware NpqSession :=
  markedSeal sha256 session [npqPayloadStatus, if accepted then 1 else 0, if led then 1 else 0]

def markedCommand (session : NpqSession) (led : Bool) : MarkedFirmware (NpqSession × Bool) := do
  match ← unmarked uartReadFrame with
  | none => return (session, led)
  | some frame =>
    match npqOpen sha256 session frame with
    | (.ok plaintext, session) =>
      if plaintext.length = 2 ∧ byteAt plaintext 0 = npqPayloadCommand
          ∧ byteAt plaintext 1 ≤ 1 then
        let enabled : Bool := byteAt plaintext 1 ≠ 0
        unmarked (.perform (BoardCall.ledSet enabled))
        let session ← markedStatus sha256 session true enabled
        return (session, enabled)
      else
        let session ← markedStatus sha256 session false led
        return (session, led)
    | (.error _, session) =>
      let session ← markedStatus sha256 session false led
      return (session, led)

def markedRecordLoop (state : StateRecord) : Nat → NpqSession → Bool → MarkedFirmware Unit
  | 0, _, _ => return ()
  | rounds + 1, session, led => do
    let session ← markedSensor sha256 state session
    let (session, led) ← markedCommand sha256 session led
    markedRecordLoop state rounds session led

def markedMain (flash : Provisioning) (attempts rounds : Nat) : MarkedFirmware Unit := do
  unmarked (.perform (BoardCall.ledSet false))
  let state ← markedLoad
  match ← markedAuthorizeLoop flash attempts state with
  | none => return ()
  | some state =>
    if state.bootEpoch = 0xffffffff then return ()
    mark (.storeState { state with bootEpoch := state.bootEpoch + 1 })
    let state ← markedPersist { state with bootEpoch := state.bootEpoch + 1 }
    match ← unmarked (establishSession sha256 flash state.bootEpoch) with
    | none => return ()
    | some session => markedRecordLoop sha256 state rounds session false

/-! ## Without the marks -/

theorem markedLoad_erase : markedLoad.erase = stateLoad := by
  simp [markedLoad]

theorem markedPersist_erase (state : StateRecord) :
    (markedPersist state).erase = statePersist state := by
  simp [markedPersist]

theorem markedAuthorize_erase (flash : Provisioning) (state : StateRecord) :
    (markedAuthorize flash state).erase = authorizePostQuantum flash state := by
  simp [markedAuthorize, authorizePostQuantum, markedPersist_erase]

theorem markedAuthorizeLoop_erase (flash : Provisioning) (attempts : Nat) (state : StateRecord) :
    (markedAuthorizeLoop flash attempts state).erase = authorizeLoop flash attempts state := by
  induction attempts generalizing state with
  | zero => rfl
  | succ attempts ih => simp [markedAuthorizeLoop, authorizeLoop, markedAuthorize_erase, ih]

theorem markedSeal_erase (session : NpqSession) (plaintext : Bytes) :
    (markedSeal sha256 session plaintext).erase = sealAndSend sha256 session plaintext := by
  simp [markedSeal]

theorem markedCommand_erase (session : NpqSession) (led : Bool) :
    (markedCommand sha256 session led).erase = receiveCommand sha256 session led := by
  have hstatus (session : NpqSession) (accepted led : Bool) :
      (markedStatus sha256 session accepted led).erase = sendStatus sha256 session accepted led :=
    markedSeal_erase sha256 _ _
  unfold markedCommand receiveCommand
  rw [erase_bind, erase_lift]
  congr 1
  funext frame
  cases frame with
  | none => rfl
  | some frame =>
    simp only
    rcases npqOpen sha256 session frame with ⟨opened, session⟩
    cases opened <;> simp [hstatus]

theorem markedRecordLoop_erase (state : StateRecord) (rounds : Nat) (session : NpqSession)
    (led : Bool) : (markedRecordLoop sha256 state rounds session led).erase
      = recordLoop sha256 state rounds session led := by
  induction rounds generalizing session led with
  | zero => rfl
  | succ rounds ih =>
    simp [markedRecordLoop, recordLoop, markedSensor, sendSensor, markedSeal_erase,
      markedCommand_erase, ih]

theorem markedMain_erase (flash : Provisioning) (attempts rounds : Nat) :
    (markedMain sha256 flash attempts rounds).erase = main sha256 flash attempts rounds := by
  unfold markedMain main
  simp only [erase_bind, erase_lift, markedLoad_erase, markedAuthorizeLoop_erase]
  congr 1
  funext _
  congr 1
  funext state
  congr 1
  funext state
  cases state with
  | none => rfl
  | some state =>
    simp only [erase_ite, erase_pure, erase_bind, erase_mark, markedPersist_erase, erase_lift,
      pure_bind]
    congr 1
    congr 1
    funext state
    congr 1
    funext session
    cases session with
    | none => rfl
    | some session => exact markedRecordLoop_erase sha256 _ _ _ _

/-! ## The moments of a lifetime -/

/-- The board, `npq_state` once the boot has loaded it, and the number of records sealed. -/
structure Moment where
  board : Board
  npqState : Option StateRecord
  sealed : Nat

def Moment.withBoard (m : Moment) (board : Board) : Moment := { m with board }

def Moment.storing (m : Moment) (state : StateRecord) : Moment := { m with npqState := some state }

def Moment.sealing (m : Moment) : Moment := { m with sealed := m.sealed + 1 }

/-- The moment after the power has come back. -/
def Moment.powerOn (m : Moment) : Moment := { m with npqState := none }

def momentStep : (e : BoardCall ⊕ FirmwareMark) → Moment → MarkedReply BoardReply FirmwareMark e →
    Moment → Prop
  | .inl e, m, r, m' => ∃ board, boardStep e m.board r board ∧ m' = m.withBoard board
  | .inr (.storeState state), m, _, m' => m' = m.storing state
  | .inr .seal, m, _, m' => m' = m.sealing

def momentInterrupt : BoardCall ⊕ FirmwareMark → Moment → Moment → Prop
  | .inl e, m, m' => ∃ board, boardInterrupt e m.board board ∧ m' = m.withBoard board
  | .inr _, m, m' => m' = m

/-- The moments of a lifetime, the last one first: a board without a valid slot, and any
boots, each cut off anywhere. -/
inductive Lifetime (flash : Provisioning) : List Moment → Prop where
  | fresh (board : Board) (empty : ∀ slot, board.records slot = none)
      (events : board.events = []) : Lifetime flash [⟨board, none, 0⟩]
  | boot {m : Moment} {moments trace : List Moment} (attempts rounds : Nat)
      (before : Lifetime flash (m :: moments))
      (h : Trace momentStep momentInterrupt (markedMain sha256 flash attempts rounds) m.powerOn
        trace) : Lifetime flash (trace ++ m.powerOn :: m :: moments)

theorem momentCut_erase {α : Type} {p : MarkedFirmware α} {m m' : Moment}
    (h : Cut momentStep momentInterrupt p m m') :
    Cut boardStep boardInterrupt p.erase m.board m'.board := by
  refine h.erase ?_ ?_ ?_ ?_
  · rintro e m r _ ⟨board, hboard, rfl⟩
    exact hboard
  · rintro e m _ ⟨board, hboard, rfl⟩
    exact hboard
  · intro mark m r m' hm'
    cases mark <;> (obtain rfl := hm'; rfl)
  · rintro mark m m' rfl
    rfl

theorem Lifetime.reached {flash : Provisioning} {moments : List Moment}
    (h : Lifetime sha256 flash moments) :
    ∀ m ∈ moments, Reached sha256 flash (fun _ => True) m.board := by
  induction h with
  | fresh board empty events =>
    intro m hm
    rw [List.mem_singleton] at hm
    subst hm
    exact .fresh board empty events
  | @boot m moments trace attempts rounds _ htrace ih =>
    have hm : Reached sha256 flash (fun _ => True) m.board := ih m List.mem_cons_self
    intro m' hm'
    rcases List.mem_append.mp hm' with hm' | hm'
    · have hcut := momentCut_erase (htrace.cut hm')
      rw [markedMain_erase] at hcut
      exact hm.boot attempts rounds trivial hcut
    · rcases List.mem_cons.mp hm' with rfl | hm'
      · exact hm
      · exact ih m' hm'

end C0PQLink.NanoPQ
