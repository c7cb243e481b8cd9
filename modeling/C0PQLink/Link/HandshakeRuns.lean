import C0PQLink.Foundation.Histories
import C0PQLink.Link.Handshake
import C0PQLink.Session.HmacInputs
import C0PQLink.Session.SentCiphertext

/-!
# Connects and a peer on one network

Any number of connects of any clients, and one peer, on a network on which an attacker
decides what every receive yields and which frames the peer is given. The connects and the
frames carry marks at the Finished frames that are made and at the tags that are checked.

* `markedConnect_erase`: without the marks it is `connect`.
* `finishing`: the session and the keys against which the peer checks a Finished.
* `released`: the HMACs whose outputs the Finished frames carry.
* `MarkAllowed`: HMAC-SHA-256 under the keys of a secret PSK as an ideal function, SHA-256
  without collisions, fresh device nonces.
* `NetworkReached`: what connects and frames can lead to, in any order.
-/

namespace C0PQLink.Link

open Foundation ReferencePeer
open Program hiding bind_assoc

variable (sha256 : Bytes → Block 32)

/-! ## Marks -/

/-- What the two ends do, apart from their calls. The marks of a client carry the number of
its connect. `presented` is a received tag that is about to be compared with the HMAC of a
message under a key from the PSK, `hashed` an input of SHA-256. -/
inductive HandshakeMark where
  | started (run : Nat)
  | drawn (run : Nat) (deviceNonce : Block 16)
  | hashed (input : Bytes)
  | presented (psk : Block 32) (tag : Bytes) (key : Block 32) (message : Bytes)
  | deviceFinished (run : Nat) (client : Client) (transcript : Transcript) (keys : SessionKeys)
  | clientEstablished (run : Nat) (client : Client) (transcript : Transcript)
  | peerFinished (sessionId : UInt32) (device : Device) (transcript : Transcript)
      (keys : SessionKeys)
  deriving DecidableEq

/-- The message of the tag in a Finished frame. -/
def finishedMessage (frameType : UInt8) (sessionId : UInt32) (transcriptHash : Block 32) : Bytes :=
  hmacInput ⟨.finishedTag, frameType, sessionId, transcriptHash⟩

theorem finishedTag_message (finishedKey : Block 32) (frameType : UInt8) (sessionId : UInt32)
    (transcriptHash : Block 32) :
    C0PQLink.finishedTag sha256 finishedKey frameType sessionId transcriptHash
      = hmacPrefix sha256 16 tag_le_digest finishedKey.val
        (finishedMessage frameType sessionId transcriptHash) := rfl

/-- Of all HMACs of the session code only a Finished tag has this message. -/
theorem finishedMessage_use {use : HmacUse} {frameType : UInt8} {sessionId : UInt32}
    {transcriptHash : Block 32}
    (h : hmacInput use = finishedMessage frameType sessionId transcriptHash) :
    use = ⟨.finishedTag, frameType, sessionId, transcriptHash⟩ := hmacInput_injective h

theorem finishedMessage_inj {frameType frameType' : UInt8} {sessionId sessionId' : UInt32}
    {transcriptHash transcriptHash' : Block 32}
    (h : finishedMessage frameType sessionId transcriptHash
      = finishedMessage frameType' sessionId' transcriptHash') :
    frameType = frameType' ∧ sessionId = sessionId' ∧ transcriptHash = transcriptHash' := by
  have hfields := eq_of_heq (Sigma.mk.inj (finishedMessage_use h)).2
  exact FinishedFields.mk.inj hfields

/-! ## The client -/

abbrev MarkedClient := Program (ClientCall ⊕ HandshakeMark) (MarkedReply ClientReply HandshakeMark)

abbrev onClient {α : Type} (p : ClientProgram α) : MarkedClient α := p.lift HandshakeMark

def markedFinished (run : Nat) (client : Client) (keys : SessionKeys) (transcript : Transcript)
    (stack : FrameBuffer) : MarkedClient Status := do
  mark (.deviceFinished run client transcript keys)
  let frame := finishedFrame sha256 keys.deviceFinishedKey frameDeviceFinished client.sessionId
    (sha256 transcript)
  let (result, buffer) ←
    onClient (sendAndReceive client 26 frameServerFinished 26 (stack.write frame))
  if result ≠ .ok then return result
  mark (.presented client.config.psk (slice (buffer.val.take 26) 10 16) keys.serverFinishedKey
    (finishedMessage frameServerFinished client.sessionId (sha256 transcript)))
  return checkFinished sha256 keys.serverFinishedKey client.sessionId (sha256 transcript)
    (buffer.val.take 26)

theorem markedFinished_erase (run : Nat) (client : Client) (keys : SessionKeys)
    (transcript : Transcript) (stack : FrameBuffer) :
    (markedFinished sha256 run client keys transcript stack).erase
      = exchangeFinished sha256 client keys (sha256 transcript) stack := by
  unfold markedFinished exchangeFinished
  simp only [erase_bind, erase_mark, erase_lift, erase_ite, erase_pure, pure_bind]

variable (hashes : Fips203.Hashes) (zetaData : Nat → Int16)

def markedHandshake (run : Nat) (client : Client) (deviceNonce : Block 16) (stack : FrameBuffer) :
    MarkedClient (Except Status SessionKeys) := do
  match ← onClient (requestChallenge sha256 client deviceNonce stack) with
  | .error failure => return .error failure
  | .ok (challenge, transcript) =>
    match ← onClient
        (sendTranscript sha256 hashes zetaData client challenge transcript stack) with
    | .error failure => return .error failure
    | .ok (sharedSecret, transcript) =>
      mark (.hashed transcript)
      match deriveSessionKeys sha256 client.config.psk sharedSecret (sha256 transcript) with
      | .error failure => return .error failure
      | .ok keys =>
        match ← markedFinished sha256 run client keys transcript stack with
        | .ok =>
          mark (.clientEstablished run (client.establish keys) transcript)
          return .ok keys
        | failure => return .error failure

theorem markedHandshake_erase (run : Nat) (client : Client) (deviceNonce : Block 16)
    (stack : FrameBuffer) :
    (markedHandshake sha256 hashes zetaData run client deviceNonce stack).erase
      = handshake sha256 hashes zetaData client deviceNonce stack := by
  unfold markedHandshake handshake
  rw [erase_bind, erase_lift]
  refine bind_congr fun requested => ?_
  rcases requested with failure | ⟨challenge, transcript⟩
  · rfl
  dsimp only
  rw [erase_bind, erase_lift, sendCiphertext_eq, bind_assoc]
  refine bind_congr fun sent => ?_
  rw [pure_bind]
  rcases sent with failure | ⟨sharedSecret, transcript⟩
  · rfl
  simp only [erase_bind, erase_mark, pure_bind, Except.map]
  cases deriveSessionKeys sha256 client.config.psk sharedSecret (sha256 transcript) with
  | error failure => rfl
  | ok keys =>
    dsimp only
    rw [erase_bind, markedFinished_erase]
    refine bind_congr fun status => ?_
    cases status <;> rfl

def markedConnect (run : Nat) (client : Client) (workspace : Workspace) (stack : FrameBuffer) :
    MarkedClient ConnectResult := do
  if client.state ≠ .ready then return ⟨.errState, client, workspace⟩
  let (status, deviceNonce) ← onClient (.perform (ClientCall.randomBytes 16))
  if status ≠ 0 then
    return ⟨.errRng, { client with state := .connecting : Client }.fail, Block.zero 1344⟩
  mark (.drawn run deviceNonce)
  let client := client.connecting deviceNonce
  match ← markedHandshake sha256 hashes zetaData run client deviceNonce stack with
  | .error failure => return ⟨failure, client.fail, Block.zero 1344⟩
  | .ok keys => return ⟨.ok, client.establish keys, Block.zero 1344⟩

theorem markedConnect_erase (run : Nat) (client : Client) (workspace : Workspace)
    (stack : FrameBuffer) :
    (markedConnect sha256 hashes zetaData run client workspace stack).erase
      = connect sha256 hashes zetaData client workspace stack := by
  unfold markedConnect connect
  rw [erase_ite]
  congr 1
  rw [erase_bind, erase_lift]
  refine bind_congr fun random => ?_
  dsimp only
  rw [erase_ite]
  congr 1
  simp only [erase_bind, erase_mark, pure_bind, markedHandshake_erase]
  refine bind_congr fun result => ?_
  cases result <;> rfl

/-! ## The peer -/

variable (decapsulate : Block 768 → Block 32)

/-- The session whose first Finished a frame claims to be, with the keys that it is checked
against. -/
def finishing (peer : Peer) (frame : Bytes) : Option (Session × SessionKeys) :=
  match ReferencePeer.decodeHeader frame with
  | .error _ => none
  | .ok header =>
    if header.type = frameDeviceFinished ∧ header.flags = 0 ∧ header.payloadLength = 16
        ∧ frame.length = 26 then
      match peer.sessions header.sessionId with
      | none => none
      | some session =>
        if session.serverFinishedFrame = none ∧ ∀ i < 16, session.received i = true then
          match ReferencePeer.deriveSessionKeys sha256 session.device.psk
              (decapsulate session.ciphertext) (sessionTranscript sha256 session) with
          | .error _ => none
          | .ok keys => some (session, keys)
        else none
    else none

/-- The bytes whose hash is `sessionTranscript`. -/
def sessionInput (session : Session) : Bytes :=
  ascii "C0PQ/1 transcript" ++ session.helloCore ++ session.challengeCore ++ session.ciphertext.val

/-- What the peer does with a frame, the last mark first. -/
def peerMarks (peer : Peer) (frame : Bytes) : List HandshakeMark :=
  match finishing sha256 decapsulate peer frame with
  | none => []
  | some (session, keys) =>
    let checked : List HandshakeMark :=
      [.presented session.device.psk (frame.drop 10) keys.deviceFinishedKey
          (finishedMessage frameDeviceFinished session.sessionId
            (sessionTranscript sha256 session)),
        .hashed (sessionInput session)]
    if (C0PQLink.finishedTag sha256 keys.deviceFinishedKey frameDeviceFinished session.sessionId
        (sessionTranscript sha256 session)).val = frame.drop 10 then
      .peerFinished session.sessionId session.device (sessionInput session) keys :: checked
    else checked

/-! ## The network -/

/-- What has happened, the last mark first. -/
abbrev History := List HandshakeMark

/-- The HMACs, as key and message, whose outputs an end puts into its Finished frame. All
other HMACs have other messages (`finishedMessage_use`). -/
def released : HandshakeMark → List (Block 32 × Bytes)
  | .deviceFinished _ client transcript keys =>
    [(keys.deviceFinishedKey,
      finishedMessage frameDeviceFinished client.sessionId (sha256 transcript))]
  | .peerFinished sessionId _ transcript keys =>
    [(keys.serverFinishedKey, finishedMessage frameServerFinished sessionId (sha256 transcript))]
  | _ => []

/-- Under a key from a secret PSK a tag is only presented for a message whose HMAC an end has
released, no two hashed inputs have one digest, and no device nonce is drawn twice. -/
def MarkAllowed (Secret : Block 32 → Prop) (history : History) : HandshakeMark → Prop
  | .drawn _ deviceNonce => ∀ run, .drawn run deviceNonce ∉ history
  | .hashed input => ∀ input', .hashed input' ∈ history → sha256 input' = sha256 input →
      input' = input
  | .presented psk tag key message => Secret psk →
      (hmacPrefix sha256 16 tag_le_digest key.val message).val = tag →
      ∃ earlier ∈ history, (key, message) ∈ released sha256 earlier
  | _ => True

/-- Marks that are made at once. -/
def MarksAllowed (Secret : Block 32 → Prop) (history : History) : List HandshakeMark → Prop
  | [] => True
  | m :: marks => MarkAllowed sha256 Secret (marks ++ history) m ∧ MarksAllowed Secret history marks

/-- What the two sides are provisioned with, the public key at the clients. -/
structure Deployment where
  epoch : Nat
  keyId : Block 16
  devices : Block 8 → Option DeviceEntry
  publicKey : Block 800

def Deployment.start (deployment : Deployment) : Peer :=
  startPeer deployment.epoch deployment.keyId deployment.devices

/-- The configuration of a client agrees with the entry of its device at the peer. -/
def Deployment.Provisions (deployment : Deployment) (config : ClientConfig) : Prop :=
  lookupDevice deployment.start config.deviceId = .ok (some ⟨config.psk, config.mode⟩)

structure Network where
  peer : Peer
  history : History

/-- The connects with their numbers, and the peer. -/
inductive HandshakeThread where
  | client (run : Nat)
  | peer
  deriving DecidableEq

abbrev HandshakeThread.Call : HandshakeThread → Type
  | .client _ => ClientCall ⊕ HandshakeMark
  | .peer => Empty

abbrev HandshakeThread.Reply : (i : HandshakeThread) → i.Call → Type
  | .client _ => MarkedReply ClientReply HandshakeMark
  | .peer => fun _ => Unit

abbrev HandshakeThread.Result : HandshakeThread → Type
  | .client _ => ConnectResult
  | .peer => Unit

variable (Secret : Block 32 → Prop) (deployment : Deployment)

/-- The answers to a client. The calls yield anything, except that the public key is read. -/
def clientStep : (e : ClientCall ⊕ HandshakeMark) → Network →
    MarkedReply ClientReply HandshakeMark e → Network → Prop
  | .inl e, network, reply, network' =>
    KeyReply deployment.publicKey e reply ∧ network' = network
  | .inr mark, network, _, network' =>
    MarkAllowed sha256 Secret network.history mark ∧
      network' = { network with history := mark :: network.history }

def handshakeStep : (i : HandshakeThread) → (e : i.Call) → Network → i.Reply e → Network → Prop
  | .client _ => clientStep sha256 Secret deployment
  | .peer => fun e => e.elim

/-- The peer after a frame. -/
def Network.deliver (network : Network) (input : Input) : Network where
  peer := afterFrame sha256 decapsulate network.peer input
  history := peerMarks sha256 decapsulate network.peer input.frame ++ network.history

/-- A client enters `c0pq_client_connect`, at any time; the peer is given any frame. -/
def handshakeStart : (i : HandshakeThread) → Network → Program i.Call i.Reply i.Result →
    Network → Prop
  | .client run, network, p, network' =>
    .started run ∉ network.history ∧
      network' = { network with history := .started run :: network.history } ∧
      ∃ client workspace stack, deployment.Provisions client.config ∧
        p = markedConnect sha256 hashes loadZeta run client workspace stack
  | .peer, network, p, network' =>
    p = pure () ∧ ∃ input,
      MarksAllowed sha256 Secret network.history
        (peerMarks sha256 decapsulate network.peer input.frame) ∧
      network' = network.deliver sha256 decapsulate input

abbrev HandshakePool := Pool HandshakeThread.Reply HandshakeThread.Result Network

/-- No connect has begun, and the peer has no sessions. -/
def Deployment.idle (deployment : Deployment) : HandshakePool where
  threads
    | .client _ => .done ⟨.errState, zeroClient, Block.zero 1344⟩
    | .peer => .done ()
  state := ⟨deployment.start, []⟩

/-- Any number of steps. -/
abbrev Steps : HandshakePool → HandshakePool → Prop :=
  Relation.ReflTransGen (PoolStep (handshakeStep sha256 Secret deployment)
    (handshakeStart sha256 hashes decapsulate Secret deployment))

def NetworkReached (network : Network) : Prop :=
  ∃ pool : HandshakePool, pool.state = network ∧
    Steps sha256 hashes decapsulate Secret deployment deployment.idle pool

end C0PQLink.Link
