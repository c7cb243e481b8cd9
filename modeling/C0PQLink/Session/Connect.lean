import C0PQLink.Core.MlKem512Stream
import C0PQLink.Session.Fragment

/-!
# Connecting

`c0pq_client_connect` and `c0pq_client_close` of `session/fragment.c`, with the
encapsulation of `core/mlkem512_stream.c` between the challenge and the Finished. The frame
buffers of the C code lie on the stack; `stack` is what they contain when they are entered.

* `handshake`: the phases from the Hello to the Finished.
* `connect`, `clientClose`: the calls of the client.
-/

namespace C0PQLink

open Foundation Fips203

variable (sha256 : Bytes → Block 32)

/-! ## The client between two states -/

def Client.clearSecrets (client : Client) : Client :=
  { client with
    sendSecret := Block.zero 32
    receiveSecret := Block.zero 32
    sendNonceBase := Block.zero 16
    receiveNonceBase := Block.zero 16 }

def clientClose (client : Client) : Client :=
  { client.clearSecrets with
    sendSequence := 0
    receiveSequence := 0
    sessionId := 0
    state := .ready }

/-- The exit `fail` of a connect. -/
def Client.fail (client : Client) : Client := { client.clearSecrets with state := .failed }

/-- The secrets of the two directions. -/
def Client.establish (client : Client) (keys : SessionKeys) : Client :=
  let padded (trafficKey : Block 16) : Block 32 := ⟨trafficKey.val ++ List.replicate 16 0, by simp⟩
  let ratchet := client.config.mode = pqBootstrapRatchet
  { client with
    sendSecret := if ratchet then keys.clientChainKey else padded keys.clientTrafficKey
    receiveSecret := if ratchet then keys.serverChainKey else padded keys.serverTrafficKey
    sendNonceBase := keys.clientNonceBase
    receiveNonceBase := keys.serverNonceBase
    sendSequence := 0
    receiveSequence := 0
    state := .established }

/-! ## The phases of a connect -/

/-- The caller's workspace holds the state of the encapsulation and after it the session
keys. Nothing reads what it contained before, so that only its last contents are modelled. -/
abbrev Workspace := Block 1344

/-- The challenge, and the transcript up to it. -/
def requestChallenge (client : Client) (deviceNonce : Block 16) (stack : FrameBuffer) :
    ClientProgram (Except Status (Challenge × Transcript)) := do
  let hello : Hello :=
    { suite := suiteMlkem512HkdfSha256Ascon128
      deviceId := client.config.deviceId
      epoch := client.config.epoch
      deviceNonce := deviceNonce }
  match encodeHello sha256 client.sessionId hello client.config.psk with
  | .error failure => return .error failure
  | .ok frame =>
    let transcript := transcriptAddHello transcriptInit frame.val
    let (result, buffer) ← sendAndReceive client 60 frameChallenge 84 (stack.write frame.val)
    if result ≠ .ok then return .error result
    let received := buffer.val.take 84
    match decodeVerifyChallenge sha256 client.sessionId received client.config.psk with
    | .error failure => return .error failure
    | .ok challenge =>
      match verifyChallengeMatches client challenge deviceNonce with
      | .ok => return .ok (challenge, transcriptAddChallenge transcript received)
      | failure => return .error failure

/-- The encapsulation runs on the context of its ciphertext callback. -/
abbrev EncapsulationProgram := StateT CiphertextWriter ClientProgram

def readPublicKey (offset : UInt16) : EncapsulationProgram UInt8 :=
  fun writer => do return (← .perform (ClientCall.readPublicKey offset), writer)

def encapsulationRandom : EncapsulationProgram (Int × Block 32) :=
  fun writer => do return (← .perform (ClientCall.randomBytes 32), writer)

variable (hashes : Hashes) (zetaData : Nat → Int16)

def newWriter (client : Client) (challenge : Challenge) (transcript : Transcript) :
    CiphertextWriter where
  transcript := transcript
  sessionAuthKey := challengeAuthKey sha256 client.config.psk challenge
  pending := []
  fragmentIndex := 0
  failure := .ok

/-- The flush of the bytes that the encapsulation left pending, if it succeeded. -/
def flushPending (client : Client) (stack : FrameBuffer) (encapsulated : Except Status (Block 32))
    (writer : CiphertextWriter) : ClientProgram (Status × CiphertextWriter) :=
  match encapsulated with
  | .error failure => return (failure, writer)
  | .ok _ =>
    if writer.pending.length ≠ 0 then flushCiphertextFragment sha256 client writer stack
    else return (.ok, writer)

/-- The shared secret and the hash of the transcript, once every fragment is acknowledged. -/
def sendCiphertext (client : Client) (challenge : Challenge) (transcript : Transcript)
    (stack : FrameBuffer) : ClientProgram (Except Status (Block 32 × Block 32)) := do
  let (encapsulated, writer) ←
    encapsulate hashes readPublicKey
      (fun data writer => writeCiphertext sha256 client stack writer data)
      zetaData encapsulationRandom (newWriter sha256 client challenge transcript)
  let (result, writer) ← flushPending sha256 client stack encapsulated writer
  if result ≠ .ok then return .error result
  if writer.fragmentIndex ≠ fragmentCount ∨ writer.failure ≠ .ok then return .error .errIo
  return encapsulated.map fun sharedSecret => (sharedSecret, sha256 writer.transcript)

/-- The session keys of a handshake that the peer has confirmed. -/
def handshake (client : Client) (deviceNonce : Block 16) (stack : FrameBuffer) :
    ClientProgram (Except Status SessionKeys) := do
  match ← requestChallenge sha256 client deviceNonce stack with
  | .error failure => return .error failure
  | .ok (challenge, transcript) =>
    match ← sendCiphertext sha256 hashes zetaData client challenge transcript stack with
    | .error failure => return .error failure
    | .ok (sharedSecret, transcriptHash) =>
      match deriveSessionKeys sha256 client.config.psk sharedSecret transcriptHash with
      | .error failure => return .error failure
      | .ok keys =>
        match ← exchangeFinished sha256 client keys transcriptHash stack with
        | .ok => return .ok keys
        | failure => return .error failure

/-! ## The connect -/

structure ConnectResult where
  status : Status
  client : Client
  workspace : Workspace

/-- The session id of a connect, from the nonce of the device. -/
def sessionIdOf (deviceNonce : Block 16) : UInt32 :=
  load32BE (slice deviceNonce.val 0 4) ^^^ 0xc0505101

/-- The client in the callbacks of a connect, from the first nonce on. -/
def Client.connecting (client : Client) (deviceNonce : Block 16) : Client :=
  { client with state := .connecting, sessionId := sessionIdOf deviceNonce }

def connect (client : Client) (workspace : Workspace) (stack : FrameBuffer) :
    ClientProgram ConnectResult := do
  if client.state ≠ .ready then return ⟨.errState, client, workspace⟩
  let (status, deviceNonce) ← .perform (ClientCall.randomBytes 16)
  if status ≠ 0 then
    return ⟨.errRng, { client with state := .connecting : Client }.fail, Block.zero 1344⟩
  let client := client.connecting deviceNonce
  match ← handshake sha256 hashes zetaData client deviceNonce stack with
  | .error failure => return ⟨failure, client.fail, Block.zero 1344⟩
  | .ok keys => return ⟨.ok, client.establish keys, Block.zero 1344⟩

end C0PQLink
