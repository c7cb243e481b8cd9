import C0PQLink.NanoPQ.Eeprom
import C0PQLink.NanoPQ.Protocol

/-!
# The firmware of the Nano

`main` of `nanopq_secure_link/main.c` and what it calls. The endless loops of the C code
take a number of rounds; the signature verifier is a call of the board.

* `main`: a boot, with its attempts to be authorized and its rounds of records.
* `quiet_wpCut`: what only receives, sends and draws leaves the EEPROM alone.
-/

namespace C0PQLink.NanoPQ

open Foundation

variable (sha256 : Bytes → Block 32)

/-- The three builds of the verifier. -/
inductive AuthAlgorithm where
  | slhdsa
  | lmsW4
  | lmsW8
  deriving DecidableEq

def AuthAlgorithm.id : AuthAlgorithm → UInt8
  | .slhdsa => 1
  | .lmsW4 => 2
  | .lmsW8 => 3

def AuthAlgorithm.signatureBytes : AuthAlgorithm → Nat
  | .slhdsa => 7856
  | .lmsW4 => 2348
  | .lmsW8 => 1292

/-- What `provisioning.h` and the build put into flash. -/
structure Provisioning where
  deviceRoot : Block 32
  deviceId : Block 8
  deviceClassId : Block 16
  legacyPolicyDigest : Block 16
  algorithm : AuthAlgorithm

/-! ## UART -/

def uartGetcTimeout : Firmware (Option UInt8) := .perform BoardCall.uartGet

def uartReadExact : Nat → Firmware (Option Bytes)
  | 0 => return some []
  | length + 1 => do
    match ← uartGetcTimeout with
    | none => return none
    | some value =>
      match ← uartReadExact length with
      | none => return none
      | some rest => return some (value :: rest)

def uartPutAll : Bytes → Firmware Unit
  | [] => return ()
  | value :: rest => do
    .perform (BoardCall.uartPut value)
    uartPutAll rest

def uartSendFrame (frame : Bytes) : Firmware Unit := do
  .perform (BoardCall.uartPut (UInt8.ofNat frame.length))
  uartPutAll frame

def uartReadFrame : Firmware (Option Bytes) := do
  match ← uartGetcTimeout with
  | none => return none
  | some incomingLength =>
    if incomingLength = 0 ∨ incomingLength.toNat > npqFrameMaxBytes then return none
    else uartReadExact incomingLength.toNat

/-! ## Authorization -/

def npqFrameEnrollRequired : UInt8 := 6
def npqFrameEnrollBegin : UInt8 := 7
def npqFrameEnrollResult : UInt8 := 8
def npqPolicyManifestBytes : Nat := 48
def npqPolicyFrameBytes : Nat := 52

def manifestValid (flash : Provisioning) (state : StateRecord) (manifest : Bytes) : Bool :=
  byteAt manifest 0 = 0x51 ∧ byteAt manifest 1 = 0x50 ∧ byteAt manifest 2 = 0x43
    ∧ byteAt manifest 3 = 0x31 ∧ byteAt manifest 4 = 1 ∧ byteAt manifest 5 = 1
    ∧ byteAt manifest 6 = 1 ∧ byteAt manifest 7 = 2
    ∧ slice manifest 8 16 = flash.deviceClassId.val
    ∧ slice manifest 24 16 = flash.legacyPolicyDigest.val
    ∧ load32BE (slice manifest 40 4) > state.policySequence

def makeControlFrame (type status : UInt8) : Bytes := [0x4e, 0x51, 1, type, status]

/-- Whether the authorization succeeded, and the state after it. -/
def authorizePostQuantum (flash : Provisioning) (state : StateRecord) :
    Firmware (Bool × StateRecord) := do
  uartSendFrame (makeControlFrame npqFrameEnrollRequired flash.algorithm.id)
  let frame := (← uartReadFrame).getD []
  if frame.length ≠ npqPolicyFrameBytes ∨ byteAt frame 0 ≠ 0x4e ∨ byteAt frame 1 ≠ 0x51
      ∨ byteAt frame 2 ≠ 1 ∨ byteAt frame 3 ≠ npqFrameEnrollBegin
      ∨ manifestValid flash state (frame.drop 4) = false then
    uartSendFrame (makeControlFrame npqFrameEnrollResult 0)
    return (false, state)
  let (verified, consumed) ← .perform (BoardCall.verifySignature (frame.drop 4))
  if verified = false ∨ consumed ≠ flash.algorithm.signatureBytes then
    uartSendFrame (makeControlFrame npqFrameEnrollResult 0)
    return (false, state)
  let state ← statePersist
    { state with authorized := 1, policySequence := load32BE (slice frame 44 4) }
  uartSendFrame (makeControlFrame npqFrameEnrollResult 1)
  return (true, state)

/-- The loop of `main` around `authorize_post_quantum`, for at most `attempts` turns;
`none` when it goes on. -/
def authorizeLoop (flash : Provisioning) : Nat → StateRecord → Firmware (Option StateRecord)
  | 0, state => return if state.authorized = 0 then none else some state
  | attempts + 1, state => do
    if state.authorized = 0 then
      let (_, state) ← authorizePostQuantum flash state
      authorizeLoop flash attempts state
    else return some state

/-! ## The session -/

/-- The calls of `establish_session`, from `npq_make_hello` on. -/
def handshake (flash : Provisioning) (bootEpoch : UInt32) : Firmware (Option NpqSession) := do
  match npqMakeHello sha256 flash.deviceRoot flash.deviceId bootEpoch with
  | .error _ => return none
  | .ok hello =>
    uartSendFrame hello.val
    let frame := (← uartReadFrame).getD []
    if hchallenge : frame.length = 60 then
      let challenge : Block 60 := ⟨frame, hchallenge⟩
      if npqVerifyChallenge sha256 challenge flash.deviceRoot hello ≠ .ok then return none
      match npqDeriveSession sha256 npqRoleDevice flash.deviceRoot hello challenge,
          npqMakeFinished sha256 npqFrameClientFinished flash.deviceRoot hello challenge with
      | .ok session, .ok finished =>
        uartSendFrame finished.val
        let frame := (← uartReadFrame).getD []
        if hfinished : frame.length = 24 then
          if npqVerifyFinished sha256 ⟨frame, hfinished⟩ npqFrameServerFinished flash.deviceRoot
              hello challenge ≠ .ok then return none
          return some session
        else return none
      | _, _ => return none
    else return none

def establishSession (flash : Provisioning) (bootEpoch : UInt32) :
    Firmware (Option NpqSession) := do
  .perform (BoardCall.makeHello bootEpoch)
  handshake sha256 flash bootEpoch

def npqPayloadSensor : UInt8 := 0x01
def npqPayloadStatus : UInt8 := 0x02
def npqPayloadCommand : UInt8 := 0x10

/-- A seal whose frame is sent when it succeeds. -/
def sealAndSend (session : NpqSession) (plaintext : Bytes) : Firmware NpqSession := do
  match npqSeal sha256 session plaintext with
  | (.ok frame, session) =>
    uartSendFrame frame
    return session
  | (.error _, session) => return session

def sendSensor (state : StateRecord) (session : NpqSession) : Firmware NpqSession := do
  let sample ← .perform BoardCall.adcRead
  sealAndSend sha256 session
    ([npqPayloadSensor, (sample >>> 8).toUInt8, sample.toUInt8] ++ store32BE state.bootEpoch)

def sendStatus (session : NpqSession) (accepted led : Bool) : Firmware NpqSession :=
  sealAndSend sha256 session [npqPayloadStatus, if accepted then 1 else 0, if led then 1 else 0]

/-- The session and the state of the LED after one command. -/
def receiveCommand (session : NpqSession) (led : Bool) : Firmware (NpqSession × Bool) := do
  match ← uartReadFrame with
  | none => return (session, led)
  | some frame =>
    match npqOpen sha256 session frame with
    | (.ok plaintext, session) =>
      if plaintext.length = 2 ∧ byteAt plaintext 0 = npqPayloadCommand
          ∧ byteAt plaintext 1 ≤ 1 then
        let enabled : Bool := byteAt plaintext 1 ≠ 0
        .perform (BoardCall.ledSet enabled)
        let session ← sendStatus sha256 session true enabled
        return (session, enabled)
      else
        let session ← sendStatus sha256 session false led
        return (session, led)
    | (.error _, session) =>
      let session ← sendStatus sha256 session false led
      return (session, led)

def recordLoop (state : StateRecord) : Nat → NpqSession → Bool → Firmware Unit
  | 0, _, _ => return ()
  | rounds + 1, session, led => do
    let session ← sendSensor sha256 state session
    let (session, led) ← receiveCommand sha256 session led
    recordLoop state rounds session led

/-! ## The boot -/

/-- A boot with bounds for its two endless loops; `fatal_blink` ends it. -/
def main (flash : Provisioning) (attempts rounds : Nat) : Firmware Unit := do
  .perform (BoardCall.ledSet false)
  let state ← stateLoad
  match ← authorizeLoop flash attempts state with
  | none => return ()
  | some state =>
    if state.bootEpoch = 0xffffffff then return ()
    let state ← statePersist { state with bootEpoch := state.bootEpoch + 1 }
    match ← establishSession sha256 flash state.bootEpoch with
    | none => return ()
    | some session => recordLoop sha256 state rounds session false

/-! ## Calls that leave the journal alone -/

/-- A call that neither writes the EEPROM nor starts a handshake. -/
def QuietCall : BoardCall → Prop
  | .eepromUpdate _ _ _ => False
  | .makeHello _ => False
  | _ => True

/-- A quiet call other than the verification of a signature. -/
def PlainCall : BoardCall → Prop
  | .verifySignature _ => False
  | e => QuietCall e

theorem quiet_of_plain {α : Type} {p : Firmware α} (h : p.Only PlainCall) : p.Only QuietCall :=
  h.mono fun e he => by
    cases e with
    | verifySignature => exact he.elim
    | _ => exact he

theorem uartReadExact_plain (length : Nat) : (uartReadExact length).Only PlainCall := by
  induction length with
  | zero => exact Program.only_pure _
  | succ length ih =>
    refine Program.only_bind (Program.only_perform trivial) fun value => ?_
    cases value with
    | none => exact Program.only_pure _
    | some value =>
      refine Program.only_bind ih fun rest => ?_
      cases rest <;> exact Program.only_pure _

theorem uartReadFrame_plain : uartReadFrame.Only PlainCall := by
  refine Program.only_bind (Program.only_perform trivial) fun length => ?_
  cases length with
  | none => exact Program.only_pure _
  | some length =>
    simp only
    split
    · exact Program.only_pure _
    · exact uartReadExact_plain _

theorem uartPutAll_plain (frame : Bytes) : (uartPutAll frame).Only PlainCall := by
  induction frame with
  | nil => exact Program.only_pure _
  | cons value rest ih => exact Program.only_bind (Program.only_perform trivial) fun _ => ih

theorem uartSendFrame_plain (frame : Bytes) : (uartSendFrame frame).Only PlainCall :=
  Program.only_bind (Program.only_perform trivial) fun _ => uartPutAll_plain frame

theorem sealAndSend_plain (session : NpqSession) (plaintext : Bytes) :
    (sealAndSend sha256 session plaintext).Only PlainCall := by
  unfold sealAndSend
  split
  · exact Program.only_bind (uartSendFrame_plain _) fun _ => Program.only_pure _
  · exact Program.only_pure _

theorem receiveCommand_plain (session : NpqSession) (led : Bool) :
    (receiveCommand sha256 session led).Only PlainCall := by
  have hstatus (session : NpqSession) (accepted led : Bool) :
      (do return (← sendStatus sha256 session accepted led, led) :
        Firmware (NpqSession × Bool)).Only PlainCall :=
    Program.only_bind (sealAndSend_plain sha256 _ _) fun _ => Program.only_pure _
  refine Program.only_bind uartReadFrame_plain fun frame => ?_
  cases frame with
  | none => exact Program.only_pure _
  | some frame =>
    simp only
    split
    · split
      · exact Program.only_bind (Program.only_perform trivial) fun _ => hstatus _ _ _
      · exact hstatus _ _ _
    · exact hstatus _ _ _

theorem recordLoop_plain (state : StateRecord) (rounds : Nat) (session : NpqSession) (led : Bool) :
    (recordLoop sha256 state rounds session led).Only PlainCall := by
  induction rounds generalizing session led with
  | zero => exact Program.only_pure _
  | succ rounds ih =>
    refine Program.only_bind ?_ fun session => ?_
    · exact Program.only_bind (Program.only_perform trivial) fun _ => sealAndSend_plain sha256 _ _
    · exact Program.only_bind (receiveCommand_plain sha256 session led) fun _ => ih _ _

theorem handshake_plain (flash : Provisioning) (bootEpoch : UInt32) :
    (handshake sha256 flash bootEpoch).Only PlainCall := by
  unfold handshake
  split
  · exact Program.only_pure _
  refine Program.only_bind (uartSendFrame_plain _) fun _ =>
    Program.only_bind uartReadFrame_plain fun frame => ?_
  simp only
  split
  · split
    · exact Program.only_pure _
    split
    · refine Program.only_bind (uartSendFrame_plain _) fun _ =>
        Program.only_bind uartReadFrame_plain fun frame => ?_
      split
      · split <;> exact Program.only_pure _
      · exact Program.only_pure _
    · exact Program.only_pure _
  · exact Program.only_pure _

/-! ## What a boot does to the journal -/

/-- The epochs with which `npq_make_hello` was entered, the last one first. -/
def Board.epochs (s : Board) : List UInt32 :=
  s.events.filterMap fun
    | .hello bootEpoch => some bootEpoch
    | .signature _ _ _ => none

/-- The same slots and the same epochs used. -/
structure SameJournal (s s' : Board) : Prop where
  eeprom : s'.eeprom = s.eeprom
  epochs : s'.epochs = s.epochs

theorem SameJournal.refl (s : Board) : SameJournal s s := ⟨rfl, rfl⟩

theorem SameJournal.trans {s s' s'' : Board} (h : SameJournal s s') (h' : SameJournal s' s'') :
    SameJournal s s'' := ⟨h'.eeprom.trans h.eeprom, h'.epochs.trans h.epochs⟩

theorem SameJournal.records {s s' : Board} (h : SameJournal s s') : s'.records = s.records := by
  unfold Board.records
  rw [h.eeprom]

theorem SameJournal.loaded {s s' : Board} (h : SameJournal s s') : s'.loaded = s.loaded := by
  unfold Board.loaded
  rw [h.records]

theorem quiet_step {e : BoardCall} {s : Board} {r : BoardReply e} {s' : Board} (h : QuietCall e)
    (hs : boardStep e s r s') : SameJournal s s' := by
  cases e with
  | eepromUpdate => exact h.elim
  | makeHello => exact h.elim
  | eepromRead =>
    obtain ⟨-, rfl⟩ := hs
    exact .refl _
  | verifySignature =>
    obtain rfl := hs
    exact ⟨rfl, rfl⟩
  | uartGet | uartPut | adcRead | ledSet =>
    obtain rfl := hs
    exact .refl _

theorem quiet_interrupt {e : BoardCall} {s s' : Board} (h : QuietCall e)
    (hs : boardInterrupt e s s') : SameJournal s s' := by
  cases e with
  | eepromUpdate => exact h.elim
  | makeHello => exact h.elim
  | eepromRead | verifySignature | uartGet | uartPut | adcRead | ledSet =>
    obtain rfl := hs
    exact .refl _

/-- A part of the firmware that leaves the journal alone, before any other part. -/
theorem quiet_wpCut {α : Type} {p : Firmware α} {I : Board → Prop} {Q : α → Board → Prop}
    {s : Board} (h : p.Only QuietCall) (hi : ∀ s', SameJournal s s' → I s')
    (hq : ∀ a s', SameJournal s s' → Q a s') : p.wpCut boardStep boardInterrupt I Q s := by
  have hsame : p.wpCut boardStep boardInterrupt (SameJournal s) (fun _ => SameJournal s) s :=
    h.wpCut (.refl s) (fun _ _ _ he ht hstep => ht.trans (quiet_interrupt he hstep))
      (fun _ _ _ _ he ht hstep => ht.trans (quiet_step he hstep))
  exact Program.wpCut_mono hi (fun a s' _ hs' => hq a s' hs') hsame

end C0PQLink.NanoPQ
