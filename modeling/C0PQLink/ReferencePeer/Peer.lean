import Mathlib.Logic.Function.Basic
import C0PQLink.ReferencePeer.Crypto
import C0PQLink.Session.Client

/-!
# The reference peer

`C0PQPeer` of `reference-peer/protocol.mjs`. A handler returns its response or the error
it throws, together with the peer after it: an error does not undo what was assigned
before it. `decapsulate` is the ML-KEM decapsulation with the secret key of the peer.

The bytes of `this.random(16)` are an argument of the hello handler, and the application
callback `onPlaintext` is one of the data handler.

* `handleHello`, `handleFragment`, `finishSession`, `handleData`: the handlers.
* `handleFrame`: the dispatch over the frame type.
-/

namespace C0PQLink.ReferencePeer

open Foundation

variable (sha256 : Bytes → Block 32)

/-! ## Devices -/

/-- A provisioned device, as it stands in the `devices` map. -/
structure DeviceEntry where
  psk : Bytes
  mode : Option Int

structure Device where
  psk : Block 32
  mode : Int
  deriving DecidableEq

/-! ## Sessions -/

structure Session where
  sessionId : UInt32
  device : Device
  helloCore : Bytes
  challengeCore : Bytes
  challengeFrame : Bytes
  sessionAuthKey : Block 32
  ciphertext : Block 768
  received : Nat → Bool
  established : Bool
  sendSequence : Nat
  receiveSequence : Nat
  keys : Option SessionKeys
  transcriptHash : Option (Block 32)
  serverFinishedFrame : Option Bytes
  lastClientFrame : Option Bytes
  lastResponseFrame : Option Bytes

structure Peer where
  epoch : Nat
  keyId : Block 16
  devices : Block 8 → Option DeviceEntry
  sessions : UInt32 → Option Session

def Peer.setSession (peer : Peer) (sessionId : UInt32) (session : Session) : Peer :=
  { peer with sessions := Function.update peer.sessions sessionId (some session) }

@[simp] theorem Peer.setSession_same (peer : Peer) (sessionId : UInt32) (session : Session) :
    (peer.setSession sessionId session).sessions sessionId = some session :=
  Function.update_self ..

theorem Peer.setSession_other (peer : Peer) {sessionId other : UInt32} (session : Session)
    (h : other ≠ sessionId) :
    (peer.setSession sessionId session).sessions other = peer.sessions other :=
  Function.update_of_ne h ..

theorem Peer.setSession_self {peer : Peer} {sessionId : UInt32} {session : Session}
    (h : peer.sessions sessionId = some session) : peer.setSession sessionId session = peer := by
  rw [Peer.setSession, ← h, Function.update_eq_self]

@[simp] theorem Peer.setSession_epoch (peer : Peer) (sessionId : UInt32) (session : Session) :
    (peer.setSession sessionId session).epoch = peer.epoch := rfl

@[simp] theorem Peer.setSession_keyId (peer : Peer) (sessionId : UInt32) (session : Session) :
    (peer.setSession sessionId session).keyId = peer.keyId := rfl

@[simp] theorem Peer.setSession_devices (peer : Peer) (sessionId : UInt32) (session : Session) :
    (peer.setSession sessionId session).devices = peer.devices := rfl

def lookupDevice (peer : Peer) (deviceId : Block 8) : Except PeerError (Option Device) :=
  match peer.devices deviceId with
  | none => .ok none
  | some entry =>
    let mode := entry.mode.getD pqBootstrapRatchet
    if h : entry.psk.length = 32 then
      if entry.psk.all (· = 0) then .error .invalidPsk
      else if mode ≠ fullPqEachSession ∧ mode ≠ pqBootstrapRatchet then .error .invalidMode
      else .ok (some ⟨⟨entry.psk, h⟩, mode⟩)
    else .error .invalidPsk

/-! ## Hello -/

structure ParsedHello where
  header : Header
  suite : UInt16
  deviceId : Block 8
  epoch : Nat
  deviceNonce : Block 16
  device : Device

def parseHello (frame : Bytes) (deviceLookup : Block 8 → Except PeerError (Option Device)) :
    Except PeerError ParsedHello := do
  let header ← decodeHeader frame
  if h : frame.length = 60 ∧ header.type = frameHello ∧ header.flags = 0
      ∧ header.payloadLength = 50 then
    let suite := UInt16.ofNat (beNat (slice frame 10 2))
    let deviceId := blockAt frame 12 8 (by omega)
    let epoch := beNat (slice frame 20 8)
    let deviceNonce := blockAt frame 28 16 (by omega)
    match ← deviceLookup deviceId with
    | none => throw .unknownDeviceOrSuite
    | some device =>
      if suite ≠ suiteMlkem512HkdfSha256Ascon128 then throw .unknownDeviceOrSuite
      let helloKey ← deriveHelloKey sha256 device.psk
      let expected := authTag sha256 helloKey "C0PQ/1 hello frame" (slice frame 0 44)
      if expected.val ≠ frame.drop 44 then throw .helloAuthenticationFailed
      return { header, suite, deviceId, epoch, deviceNonce, device }
  else throw .invalidHelloShape

/-- The challenge frame and the session auth key. -/
def encodeChallenge (sessionId : UInt32) (psk : Block 32) (epoch : Nat)
    (keyId deviceNonce serverNonce : Block 16) : Except PeerError (Bytes × Block 32) := do
  let header ← encodeHeader frameChallenge 0 74 sessionId
  let epochBytes ← u64 epoch
  let core := header ++ u16 suiteMlkem512HkdfSha256Ascon128 ++ epochBytes.val
    ++ keyId.val ++ deviceNonce.val ++ serverNonce.val
  let sessionAuthKey ← deriveSessionAuthKey sha256 psk suiteMlkem512HkdfSha256Ascon128 epoch
    keyId deviceNonce serverNonce
  return (core ++ (authTag sha256 sessionAuthKey "C0PQ/1 challenge frame" core).val,
    sessionAuthKey)

/-- The session a fresh hello creates. -/
def newSession (parsed : ParsedHello) (frame challengeFrame : Bytes) (sessionAuthKey : Block 32) :
    Session where
  sessionId := parsed.header.sessionId
  device := parsed.device
  helloCore := slice frame 0 44
  challengeCore := slice challengeFrame 0 68
  challengeFrame := challengeFrame
  sessionAuthKey := sessionAuthKey
  ciphertext := Block.zero 768
  received := fun _ => false
  established := false
  sendSequence := 0
  receiveSequence := 0
  keys := none
  transcriptHash := none
  serverFinishedFrame := none
  lastClientFrame := none
  lastResponseFrame := none

def handleHello (peer : Peer) (random : Bytes) (frame : Bytes) : Except PeerError Bytes × Peer :=
  match parseHello sha256 frame (lookupDevice peer) with
  | .error error => (.error error, peer)
  | .ok parsed =>
    match peer.sessions parsed.header.sessionId with
    | some existing =>
      if existing.helloCore ≠ slice frame 0 44 then (.error .sessionCollision, peer)
      else (.ok existing.challengeFrame, peer)
    | none =>
      if parsed.epoch ≠ peer.epoch then (.error .epochMismatch, peer)
      else if h : random.length = 16 then
        match encodeChallenge sha256 parsed.header.sessionId parsed.device.psk peer.epoch
            peer.keyId parsed.deviceNonce ⟨random, h⟩ with
        | .error error => (.error error, peer)
        | .ok (challengeFrame, sessionAuthKey) =>
          (.ok challengeFrame, peer.setSession parsed.header.sessionId
            (newSession parsed frame challengeFrame sessionAuthKey))
      else (.error .randomWrongLength, peer)

/-! ## Fragments -/

def encodeAck (session : Session) (fragmentIndex : UInt8) : Except PeerError Bytes := do
  let header ← encodeHeader frameCiphertextAck 0 18 session.sessionId
  let core := header ++ [fragmentIndex, 0]
  return core ++ (authTag sha256 session.sessionAuthKey "C0PQ/1 ciphertext ack" core).val

/-- `chunk.copy(ciphertext, offset)`, which stops at the end of the target. -/
def copyChunk (ciphertext : Block 768) (chunk : Bytes) (offset : Nat) : Block 768 :=
  ⟨(ciphertext.val.take offset ++ chunk ++ ciphertext.val.drop (offset + chunk.length)).take 768,
    by
      simp only [List.length_take, List.length_append, List.length_drop, Block.length_val]
      omega⟩

def handleFragment (peer : Peer) (frame : Bytes) (header : Header) :
    Except PeerError Bytes × Peer :=
  match peer.sessions header.sessionId with
  | none => (.error .invalidFragmentSession, peer)
  | some session =>
    if header.flags ≠ 0 ∨ frame.length < 29 then (.error .invalidFragmentSession, peer)
    else
      let index := byteAt frame 10
      let total := byteAt frame 11
      let length := (byteAt frame 12).toNat
      let coreLength := 13 + length
      if total ≠ 16 ∨ index ≥ total ∨ length ≠ 48 ∨ frame.length ≠ coreLength + 16 then
        (.error .invalidFragmentShape, peer)
      else
        let expected := authTag sha256 session.sessionAuthKey "C0PQ/1 ciphertext fragment"
          (slice frame 0 coreLength)
        if expected.val ≠ frame.drop coreLength then (.error .fragmentAuthenticationFailed, peer)
        else
          let chunk := slice frame 13 length
          let offset := index.toNat * 48
          if session.received index.toNat ∧ slice session.ciphertext.val offset length ≠ chunk then
            (.error .conflictingFragmentReplay, peer)
          else
            let session := { session with
              ciphertext := copyChunk session.ciphertext chunk offset
              received := Function.update session.received index.toNat true }
            (encodeAck sha256 session index, peer.setSession header.sessionId session)

/-! ## Finished -/

variable (decapsulate : Block 768 → Block 32)

def sessionTranscript (session : Session) : Block 32 :=
  sha256 (ascii "C0PQ/1 transcript" ++ session.helloCore ++ session.challengeCore
    ++ session.ciphertext.val)

def finishSession (peer : Peer) (frame : Bytes) (header : Header) :
    Except PeerError Bytes × Peer :=
  match peer.sessions header.sessionId with
  | none => (.error .invalidFinishedSession, peer)
  | some session =>
    if header.flags ≠ 0 ∨ header.payloadLength ≠ 16 ∨ frame.length ≠ 26 then
      (.error .invalidFinishedSession, peer)
    else
      match session.serverFinishedFrame with
      | some serverFinishedFrame =>
        match session.keys, session.transcriptHash with
        | some keys, some transcriptHash =>
          match finishedTag sha256 keys.deviceFinishedKey frameDeviceFinished session.sessionId
              transcriptHash with
          | .error error => (.error error, peer)
          | .ok duplicateExpected =>
            if duplicateExpected.val ≠ frame.drop 10 then (.error .deviceFinishedFailed, peer)
            else (.ok serverFinishedFrame, peer)
        | _, _ => (.error .typeError, peer)
      | none =>
        if ¬ ∀ i < 16, session.received i = true then (.error .ciphertextIncomplete, peer)
        else
          let transcriptHash := sessionTranscript sha256 session
          let kemSharedSecret := decapsulate session.ciphertext
          match deriveSessionKeys sha256 session.device.psk kemSharedSecret transcriptHash with
          | .error error => (.error error, peer)
          | .ok keys =>
            let session := { session with keys := some keys, transcriptHash := some transcriptHash }
            match finishedTag sha256 keys.deviceFinishedKey frameDeviceFinished session.sessionId
                transcriptHash with
            | .error error => (.error error, peer.setSession header.sessionId session)
            | .ok expected =>
              if expected.val ≠ frame.drop 10 then
                (.error .deviceFinishedFailed,
                  peer.setSession header.sessionId { session with keys := none })
              else
                let session := { session with established := true }
                let response := do
                  let responseHeader ← encodeHeader frameServerFinished 0 16 session.sessionId
                  let tag ← finishedTag sha256 keys.serverFinishedKey frameServerFinished
                    session.sessionId transcriptHash
                  return responseHeader ++ tag.val
                match response with
                | .error error => (.error error, peer.setSession header.sessionId session)
                | .ok serverFinishedFrame =>
                  (.ok serverFinishedFrame, peer.setSession header.sessionId
                    { session with serverFinishedFrame := some serverFinishedFrame })

/-! ## Records -/

def recordNonce (base : Block 16) (sequence : Nat) : Except PeerError (Block 16) := do
  let encoded ← u64 sequence
  return ⟨base.val.take 8 ++ xorBytes (base.val.drop 8) encoded.val, by simp⟩

/-- The message key and the next chain key. -/
def ratchetStep (chainKey : Block 32) : Block 16 × Block 32 :=
  (hmacPrefix sha256 16 tag_le_digest chainKey.val (ascii "C0PQ/1 ratchet message"),
    hmacSha256 sha256 chainKey.val (ascii "C0PQ/1 ratchet next"))

/-- The plaintext of a record, and the session after the call. -/
def openRecord (session : Session) (frame : Bytes) (header : Header) :
    Except PeerError Bytes × Session :=
  if ¬ session.established ∨ header.flags ≠ 0 ∨ header.payloadLength < 24 then
    (.error .invalidClientRecord, session)
  else
    let sequence := beNat (slice frame 10 8)
    if sequence ≠ session.receiveSequence then (.error .recordReplayOrGap, session)
    else
      let ciphertextLength := header.payloadLength - 24
      if ciphertextLength > 48 then (.error .recordTooLarge, session)
      else
        match session.keys with
        | none => (.error .typeError, session)
        | some keys =>
          let (messageKey, nextChainKey) :=
            if session.device.mode = pqBootstrapRatchet then
              let (messageKey, nextChainKey) := ratchetStep sha256 keys.clientChainKey
              (messageKey, some nextChainKey)
            else (keys.clientTrafficKey, none)
          match recordNonce keys.clientNonceBase sequence with
          | .error error => (.error error, session)
          | .ok nonce =>
            match asconDecrypt messageKey nonce (slice frame 0 18)
                (slice frame 18 ciphertextLength) (frame.drop (18 + ciphertextLength)) with
            | none => (.error .recordAuthenticationFailed, session)
            | some plaintext =>
              (.ok plaintext,
                { session with
                  keys := some { keys with
                    clientChainKey := nextChainKey.getD keys.clientChainKey }
                  receiveSequence := session.receiveSequence + 1 })

/-- The sealed frame, and the session after the call. -/
def sealRecord (session : Session) (message : Bytes) : Except PeerError Bytes × Session :=
  if message.length > 48 then (.error .plaintextTooLarge, session)
  else
    match session.keys with
    | none => (.error .typeError, session)
    | some keys =>
      let (messageKey, nextChainKey) :=
        if session.device.mode = pqBootstrapRatchet then
          let (messageKey, nextChainKey) := ratchetStep sha256 keys.serverChainKey
          (messageKey, some nextChainKey)
        else (keys.serverTrafficKey, none)
      let prepared := do
        let header ← encodeHeader frameData 1 (8 + message.length + 16) session.sessionId
        let sequence ← u64 session.sendSequence
        let nonce ← recordNonce keys.serverNonceBase session.sendSequence
        return (header ++ sequence.val, nonce)
      match prepared with
      | .error error => (.error error, session)
      | .ok (associatedData, nonce) =>
        let (ciphertext, tag) := asconEncrypt messageKey nonce associatedData message
        (.ok (associatedData ++ ciphertext ++ tag.val),
          { session with
            keys := some { keys with serverChainKey := nextChainKey.getD keys.serverChainKey }
            sendSequence := session.sendSequence + 1 })

/-- The answer of the application to a plaintext: it throws, or answers `null` or a
message. -/
abbrev Application := Bytes → Except Unit (Option Bytes)

/-- What a frame leads to: the response, `null` or an error; the session after the frame;
and the plaintext handed to the application, if any. -/
structure DataResult where
  response : Except PeerError (Option Bytes)
  session : Session
  plaintext : Option Bytes

/-- The part of `handleData` after the lookup of the session. -/
def handleRecord (onPlaintext : Application) (session : Session) (frame : Bytes)
    (header : Header) : DataResult :=
  if session.lastClientFrame = some frame then
    { response := .ok session.lastResponseFrame, session, plaintext := none }
  else
    match openRecord sha256 session frame header with
    | (.error error, session) => { response := .error error, session, plaintext := none }
    | (.ok plaintext, session) =>
      match onPlaintext plaintext with
      | .error _ =>
        { response := .error .applicationFailed, session, plaintext := some plaintext }
      | .ok none =>
        { response := .ok none
          session := { session with lastClientFrame := some frame, lastResponseFrame := none }
          plaintext := some plaintext }
      | .ok (some message) =>
        match sealRecord sha256 session message with
        | (.error error, session) =>
          { response := .error error, session, plaintext := some plaintext }
        | (.ok responseFrame, session) =>
          { response := .ok (some responseFrame)
            session := { session with
              lastClientFrame := some frame
              lastResponseFrame := some responseFrame }
            plaintext := some plaintext }

/-- The response, the peer after the frame and the plaintext handed to the application. -/
def handleData (onPlaintext : Application) (peer : Peer) (frame : Bytes) (header : Header) :
    Except PeerError (Option Bytes) × Peer × Option Bytes :=
  match peer.sessions header.sessionId with
  | none => (.error .unknownDataSession, peer, none)
  | some session =>
    let result := handleRecord sha256 onPlaintext session frame header
    (result.response, peer.setSession header.sessionId result.session, result.plaintext)

/-! ## Dispatch -/

/-- A handler that calls no application. -/
def asFrameResult (result : Except PeerError Bytes × Peer) :
    Except PeerError (Option Bytes) × Peer × Option Bytes :=
  (result.1.map some, result.2, none)

def handleFrame (onPlaintext : Application) (peer : Peer) (random : Bytes) (frame : Bytes) :
    Except PeerError (Option Bytes) × Peer × Option Bytes :=
  match decodeHeader frame with
  | .error error => (.error error, peer, none)
  | .ok header =>
    if header.type = frameHello then asFrameResult (handleHello sha256 peer random frame)
    else if header.type = frameCiphertextFragment then
      asFrameResult (handleFragment sha256 peer frame header)
    else if header.type = frameDeviceFinished then
      asFrameResult (finishSession sha256 decapsulate peer frame header)
    else if header.type = frameData then handleData sha256 onPlaintext peer frame header
    else (.error (.unsupportedFrameType header.type), peer, none)

end C0PQLink.ReferencePeer
