import C0PQLink.Session.Client

/-!
# Ciphertext fragments and Finished

The parts of `session/fragment.c` between the challenge and the established session: the
ciphertext writer with its fragments, and the exchange of the Finished frames.

* `flushCiphertextFragment`, `writeCiphertext`: the writer.
* `exchangeFinished`: the Finished exchange of the client.
-/

namespace C0PQLink

open Foundation

variable (sha256 : Bytes → Block 32)

/-! ## Fragments -/

/-- The transcript context and the failure status live next to the fragment fields. -/
structure CiphertextWriter where
  transcript : Transcript
  sessionAuthKey : Block 32
  pending : Bytes
  fragmentIndex : UInt8
  failure : Status
  deriving DecidableEq

/-- A fragment frame in front of its tag. -/
def fragmentCore (sessionId : UInt32) (index : UInt8) (payload : Bytes) : Bytes :=
  writeHeader frameCiphertextFragment 0 (UInt16.ofNat (3 + payload.length + 16)) sessionId
    ++ [index, fragmentCount, UInt8.ofNat payload.length] ++ payload

def fragmentFrame (sessionAuthKey : Block 32) (sessionId : UInt32) (index : UInt8)
    (payload : Bytes) : Bytes :=
  fragmentCore sessionId index payload
    ++ (authTag sha256 sessionAuthKey "C0PQ/1 ciphertext fragment"
      (fragmentCore sessionId index payload)).val

/-- The checks of an acknowledgment for fragment `index`, after `send_and_receive`. -/
def checkAck (sessionAuthKey : Block 32) (index : UInt8) (frame : Bytes) : Status :=
  match decodeHeader frame with
  | .error _ => .errState
  | .ok header =>
    if header.flags ≠ 0 ∨ header.payloadLength ≠ 18 ∨ byteAt frame 10 ≠ index
        ∨ byteAt frame 11 ≠ 0 then .errState
    else verifyAuthTag sha256 (slice frame 12 16) sessionAuthKey "C0PQ/1 ciphertext ack"
      (slice frame 0 12)

/-- The status of the flush and the writer after it. The content of the stack buffer
`frame` behind the bytes it writes is arbitrary. -/
def flushCiphertextFragment (client : Client) (writer : CiphertextWriter) (stack : FrameBuffer) :
    ClientProgram (Status × CiphertextWriter) := do
  if writer.pending.length = 0 ∨ writer.fragmentIndex ≥ fragmentCount then
    return (.errState, writer)
  let frame := fragmentFrame sha256 writer.sessionAuthKey client.sessionId writer.fragmentIndex
    writer.pending
  let (result, buffer) ← sendAndReceive client frame.length frameCiphertextAck 28
    (stack.write frame)
  if result ≠ .ok then return (result, writer)
  match checkAck sha256 writer.sessionAuthKey writer.fragmentIndex (buffer.val.take 28) with
  | .ok =>
    return (.ok, { writer with fragmentIndex := writer.fragmentIndex + 1, pending := [] })
  | failure => return (failure, writer)

/-- The loop of `write_ciphertext` over the bytes that are left. -/
def writeLoop (client : Client) (stack : FrameBuffer) :
    Nat → CiphertextWriter → Bytes → ClientProgram (Status × CiphertextWriter)
  | 0, writer, _ => return (.ok, writer)
  | turns + 1, writer, data => do
    if data.length = 0 then return (.ok, writer)
    else
      let space := fragmentPayloadBytes - writer.pending.length
      let take := min data.length space
      let writer := { writer with pending := writer.pending ++ data.take take }
      if writer.pending.length = fragmentPayloadBytes then
        let (failure, writer) ← flushCiphertextFragment sha256 client writer stack
        let writer := { writer with failure := failure }
        if failure ≠ .ok then return (failure, writer)
        else writeLoop client stack turns writer (data.drop take)
      else writeLoop client stack turns writer (data.drop take)

/-- Every turn of the loop takes at least one byte. -/
def writeCiphertext (client : Client) (stack : FrameBuffer) (writer : CiphertextWriter)
    (data : Bytes) : ClientProgram (Status × CiphertextWriter) := do
  if writer.failure ≠ .ok then return (writer.failure, writer)
  else
    writeLoop sha256 client stack data.length
      { writer with transcript := writer.transcript ++ data } data

/-! ## Challenge and Finished -/

def verifyChallengeMatches (client : Client) (challenge : Challenge) (deviceNonce : Block 16) :
    Status :=
  if challenge.suite ≠ suiteMlkem512HkdfSha256Ascon128 ∨ challenge.epoch ≠ client.config.epoch
      ∨ challenge.keyId ≠ client.config.publicKeyId ∨ challenge.deviceNonce ≠ deviceNonce then
    .errAuth
  else .ok

/-- The 26 bytes of a Finished frame. -/
def finishedFrame (finishedKey : Block 32) (frameType : UInt8) (sessionId : UInt32)
    (transcriptHash : Block 32) : Bytes :=
  writeHeader frameType 0 16 sessionId
    ++ (finishedTag sha256 finishedKey frameType sessionId transcriptHash).val

/-- The checks of the peer's Finished frame, after `send_and_receive`. -/
def checkFinished (serverFinishedKey : Block 32) (sessionId : UInt32) (transcriptHash : Block 32)
    (frame : Bytes) : Status :=
  match decodeHeader frame with
  | .error _ => .errState
  | .ok header =>
    if header.flags ≠ 0 ∨ header.payloadLength ≠ 16 then .errState
    else if (finishedTag sha256 serverFinishedKey frameServerFinished sessionId
        transcriptHash).val = slice frame 10 16 then .ok
    else .errAuth

def exchangeFinished (client : Client) (keys : SessionKeys) (transcriptHash : Block 32)
    (stack : FrameBuffer) : ClientProgram Status := do
  let frame := finishedFrame sha256 keys.deviceFinishedKey frameDeviceFinished client.sessionId
    transcriptHash
  let (result, buffer) ← sendAndReceive client 26 frameServerFinished 26 (stack.write frame)
  if result ≠ .ok then return result
  return checkFinished sha256 keys.serverFinishedKey client.sessionId transcriptHash
    (buffer.val.take 26)

end C0PQLink
