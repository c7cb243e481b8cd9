import C0PQLink.Foundation.Interaction
import C0PQLink.Session.Preflight

/-!
# The client and its transport

The client context of `c0pqlink/client.h`, its callbacks, and the frame exchange
`send_and_receive` of `session/fragment.c`.
-/

namespace C0PQLink

open Foundation

/-! ## The client -/

def fullPqEachSession : Int := 0
def pqBootstrapRatchet : Int := 1

inductive ClientState where
  | uninitialized
  | ready
  | connecting
  | established
  | failed
  deriving DecidableEq

/-- The configuration without its callbacks, which are the calls of a `ClientProgram`. -/
structure ClientConfig where
  deviceId : Block 8
  psk : Block 32
  epoch : UInt64
  publicKeyId : Block 16
  mode : Int
  timeoutMs : UInt32
  maximumRetries : UInt8
  deriving DecidableEq

structure Client where
  config : ClientConfig
  state : ClientState
  sessionId : UInt32
  sendSecret : Block 32
  receiveSecret : Block 32
  sendNonceBase : Block 16
  receiveNonceBase : Block 16
  sendSequence : UInt64
  receiveSequence : UInt64
  deriving DecidableEq

/-- A client context of which all bytes are zero. -/
def zeroClient : Client where
  config := ⟨Block.zero 8, Block.zero 32, 0, Block.zero 16, 0, 0, 0⟩
  state := .uninitialized
  sessionId := 0
  sendSecret := Block.zero 32
  receiveSecret := Block.zero 32
  sendNonceBase := Block.zero 16
  receiveNonceBase := Block.zero 16
  sendSequence := 0
  receiveSequence := 0

/-- The checks of `c0pq_client_init`, and the client it sets up. -/
def clientInit (config : ClientConfig) : Except Status Client :=
  if config.psk.val.all (· = 0) ∨ config.publicKeyId.val.all (· = 0)
      ∨ (config.mode ≠ fullPqEachSession ∧ config.mode ≠ pqBootstrapRatchet) then
    .error .errArgument
  else
    .ok
      { config := { config with
          timeoutMs := if config.timeoutMs = 0 then 3000 else config.timeoutMs }
        state := .ready
        sessionId := 0
        sendSecret := Block.zero 32
        receiveSecret := Block.zero 32
        sendNonceBase := Block.zero 16
        receiveNonceBase := Block.zero 16
        sendSequence := 0
        receiveSequence := 0 }

/-! ## The callbacks -/

/-- The buffer of a frame exchange. -/
abbrev FrameBuffer := Block 96

/-- What `receive_frame` leaves behind: its status, the buffer and the frame length. -/
structure Received where
  status : Int
  buffer : FrameBuffer
  length : Nat

inductive ClientCall where
  | randomBytes (length : Nat)
  | readPublicKey (offset : UInt16)
  | sendFrame (frame : Bytes)
  | receiveFrame (buffer : FrameBuffer)

abbrev ClientReply : ClientCall → Type
  | .randomBytes length => Int × Block length
  | .readPublicKey _ => UInt8
  | .sendFrame _ => Int
  | .receiveFrame _ => Received

abbrev ClientProgram := Program ClientCall ClientReply

def sendFrame (frame : Bytes) : ClientProgram Int := .perform (ClientCall.sendFrame frame)

def receiveFrame (buffer : FrameBuffer) : ClientProgram Received :=
  .perform (ClientCall.receiveFrame buffer)

/-- A C array with its first bytes written, the others as they were. -/
def FrameBuffer.write (buffer : FrameBuffer) (frame : Bytes) : FrameBuffer :=
  ⟨(frame ++ buffer.val.drop frame.length).take 96, by
    simp only [List.length_take, List.length_append, List.length_drop, Block.length_val]
    omega⟩

/-- The acceptance filter of `send_and_receive`. -/
def acceptsFrame (sessionId : UInt32) (expectedType : UInt8) (expectedLength : Nat)
    (frame : Bytes) : Bool :=
  if frame.length ≠ expectedLength then false
  else
    match decodeHeader frame with
    | .ok header => header.type = expectedType ∧ header.sessionId = sessionId
    | .error _ => false

/-- Whether an attempt whose receive was answered like this ends the exchange. -/
def Received.accepted (received : Received) (sessionId : UInt32) (expectedType : UInt8)
    (expectedLength : Nat) : Bool :=
  received.status = 0 ∧ received.length = expectedLength
    ∧ acceptsFrame sessionId expectedType expectedLength (received.buffer.val.take received.length)

/-- The attempts of `send_and_receive` that are left. The callers pass one buffer as
`outgoing` and `incoming`, so that every attempt sends what the buffer then holds. -/
def exchangeAttempts (sessionId : UInt32) (outgoingLength : Nat) (expectedType : UInt8)
    (expectedLength : Nat) : Nat → FrameBuffer → ClientProgram (Status × FrameBuffer)
  | 0, buffer => return (.errIo, buffer)
  | attempts + 1, buffer => do
    let sent ← sendFrame (buffer.val.take outgoingLength)
    if sent ≠ 0 then
      exchangeAttempts sessionId outgoingLength expectedType expectedLength attempts buffer
    else
      let received ← receiveFrame buffer
      if received.accepted sessionId expectedType expectedLength then
        return (.ok, received.buffer)
      else
        exchangeAttempts sessionId outgoingLength expectedType expectedLength attempts
          received.buffer

/-- The attempts number from 0 to `maximum_retries`. -/
def sendAndReceive (client : Client) (outgoingLength : Nat) (expectedType : UInt8)
    (expectedLength : Nat) (buffer : FrameBuffer) : ClientProgram (Status × FrameBuffer) :=
  exchangeAttempts client.sessionId outgoingLength expectedType expectedLength
    (client.config.maximumRetries.toNat + 1) buffer

end C0PQLink
