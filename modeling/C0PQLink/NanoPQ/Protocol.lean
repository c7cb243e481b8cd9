import C0PQLink.Core.Ascon
import C0PQLink.Core.Integers
import C0PQLink.Core.Sha256

/-!
# The NanoPQ protocol

`nanopq_secure_link/protocol.c`: the handshake frames and the ratcheted records of the
Nano firmware and its host peer. The functions that change a session return it with
their status, also when they fail.

* `npqMakeHello`, `npqVerifyHello`, `npqMakeChallenge`, `npqVerifyChallenge`,
  `npqMakeFinished`, `npqVerifyFinished`: the frames of the handshake.
* `npqDeriveSession`, `npqSeal`, `npqOpen`: a session and its records.
-/

namespace C0PQLink.NanoPQ

open Foundation

variable (sha256 : Bytes → Block 32)

inductive NpqStatus where
  | ok
  | errArgument
  | errFormat
  | errAuth
  | errReplay
  | errState
  | errCapacity
  | errIo
  deriving DecidableEq, Repr

def npqFrameMaxBytes : Nat := 64
def npqDataMaxBytes : Nat := 24
def npqDataCoreBytes : Nat := 13
def npqDataOverheadBytes : Nat := 29

def npqFrameHello : UInt8 := 1
def npqFrameChallenge : UInt8 := 2
def npqFrameClientFinished : UInt8 := 3
def npqFrameServerFinished : UInt8 := 4
def npqFrameData : UInt8 := 5

def npqRoleDevice : UInt8 := 0
def npqRoleServer : UInt8 := 1

/-! ## Headers, tags and the transcript -/

def validHeader (frame : Bytes) (type : UInt8) : Bool :=
  byteAt frame 0 = 0x4e ∧ byteAt frame 1 = 0x51 ∧ byteAt frame 2 = 1 ∧ byteAt frame 3 = type

def makeHeader (type : UInt8) : Bytes := [0x4e, 0x51, 1, type]

/-- The buffer of `hmac_label` has room for a label of 24 bytes and 64 bytes of data. -/
def hmacLabel (key : Block 32) (label : String) (data : Bytes) : Except NpqStatus (Block 32) :=
  if (ascii label).length > 24 ∨ data.length > npqFrameMaxBytes then .error .errCapacity
  else .ok (hmacSha256 sha256 key.val (ascii label ++ [0] ++ data))

/-- The digest of a call of `hmac_label` or `hkdf_expand_label` whose status is discarded. -/
def discardNpq : Except NpqStatus (Block 32) → Block 32
  | .ok digest => digest
  | .error _ => Block.zero 32

def verifyMac16 (tag : Bytes) (key : Block 32) (label : String) (data : Bytes) : NpqStatus :=
  match hmacLabel sha256 key label data with
  | .error failure => failure
  | .ok digest => if tag = digest.val.take 16 then .ok else .errAuth

def transcriptHash (hello : Block 48) (challenge : Block 60) : Block 32 :=
  sha256 (ascii "NPQ/1 transcript" ++ hello.val ++ challenge.val)

/-- The transcript hash is the HMAC key and the root key the message. -/
def sessionPrk (rootKey transcript : Block 32) : Block 32 :=
  hmacSha256 sha256 transcript.val rootKey.val

def hkdfExpandLabel (prk : Block 32) (label : String) (transcript : Block 32) :
    Except NpqStatus (Block 32) :=
  if (ascii label).length > 24 then .error .errCapacity
  else .ok (hmacSha256 sha256 prk.val (ascii label ++ [0] ++ transcript.val ++ [1]))

/-! ## Hello and challenge -/

def npqMakeHello (rootKey : Block 32) (deviceId : Block 8) (bootEpoch : UInt32) :
    Except NpqStatus (Block 48) :=
  if bootEpoch = 0 then .error .errArgument
  else
    let nonceInput := deviceId.val ++ store32BE bootEpoch
    let nonce := (discardNpq (hmacLabel sha256 rootKey "NPQ/1 client nonce" nonceInput)).val.take 16
    let core := makeHeader npqFrameHello ++ deviceId.val ++ store32BE bootEpoch ++ nonce
    let digest := discardNpq (hmacLabel sha256 rootKey "NPQ/1 hello" core)
    .ok ⟨core ++ digest.val.take 16, by simp [core, nonce, makeHeader]⟩

def npqVerifyHello (frame : Block 48) (rootKey : Block 32) : NpqStatus :=
  if ¬ validHeader frame.val npqFrameHello ∨ load32BE (slice frame.val 12 4) = 0 then .errFormat
  else verifyMac16 sha256 (slice frame.val 32 16) rootKey "NPQ/1 hello" (slice frame.val 0 32)

def npqMakeChallenge (rootKey : Block 32) (hello : Block 48) (serverNonce : Block 16) :
    Except NpqStatus (Block 60) :=
  match npqVerifyHello sha256 hello rootKey with
  | .ok =>
    let head := makeHeader npqFrameChallenge ++ slice hello.val 12 4 ++ slice hello.val 16 16
      ++ serverNonce.val
    let sessionId :=
      (discardNpq (hmacLabel sha256 rootKey "NPQ/1 session id" head)).val.take 4
    let core := head ++ sessionId
    let digest := discardNpq (hmacLabel sha256 rootKey "NPQ/1 challenge" core)
    .ok ⟨core ++ digest.val.take 16, by simp [core, head, sessionId, makeHeader]⟩
  | failure => .error failure

def npqVerifyChallenge (frame : Block 60) (rootKey : Block 32) (hello : Block 48) : NpqStatus :=
  if ¬ validHeader frame.val npqFrameChallenge ∨ slice frame.val 4 4 ≠ slice hello.val 12 4
      ∨ slice frame.val 8 16 ≠ slice hello.val 16 16 then .errFormat
  else
    verifyMac16 sha256 (slice frame.val 44 16) rootKey "NPQ/1 challenge" (slice frame.val 0 44)

/-- The transcript hash and the session PRK. -/
def deriveTranscriptPrk (rootKey : Block 32) (hello : Block 48) (challenge : Block 60) :
    Except NpqStatus (Block 32 × Block 32) :=
  match npqVerifyHello sha256 hello rootKey with
  | .ok =>
    match npqVerifyChallenge sha256 challenge rootKey hello with
    | .ok =>
      let transcript := transcriptHash sha256 hello challenge
      .ok (transcript, sessionPrk sha256 rootKey transcript)
    | failure => .error failure
  | failure => .error failure

/-! ## Sessions -/

structure NpqSession where
  sendChain : Block 32
  receiveChain : Block 32
  sendNonceBase : Block 16
  receiveNonceBase : Block 16
  sessionId : UInt32
  bootEpoch : UInt32
  sendSequence : UInt32
  receiveSequence : UInt32
  established : UInt8
  deriving DecidableEq

/-- The first 16 bytes of a digest. -/
def digest16 (digest : Block 32) : Block 16 := ⟨digest.val.take 16, by simp⟩

def npqDeriveSession (role : UInt8) (rootKey : Block 32) (hello : Block 48)
    (challenge : Block 60) : Except NpqStatus NpqSession :=
  if role ≠ npqRoleDevice ∧ role ≠ npqRoleServer then .error .errArgument
  else
    match deriveTranscriptPrk sha256 rootKey hello challenge with
    | .error failure => .error failure
    | .ok (transcript, prk) =>
      let clientChain := discardNpq (hkdfExpandLabel sha256 prk "NPQ/1 client chain" transcript)
      let serverChain := discardNpq (hkdfExpandLabel sha256 prk "NPQ/1 server chain" transcript)
      let clientNonce :=
        digest16 (discardNpq (hkdfExpandLabel sha256 prk "NPQ/1 client nonce" transcript))
      let serverNonce :=
        digest16 (discardNpq (hkdfExpandLabel sha256 prk "NPQ/1 server nonce" transcript))
      let device := role = npqRoleDevice
      .ok
        { sendChain := if device then clientChain else serverChain
          receiveChain := if device then serverChain else clientChain
          sendNonceBase := if device then clientNonce else serverNonce
          receiveNonceBase := if device then serverNonce else clientNonce
          sessionId := load32BE (slice challenge.val 40 4)
          bootEpoch := load32BE (slice hello.val 12 4)
          sendSequence := 0
          receiveSequence := 0
          established := 1 }

/-! ## Finished -/

def finishedKeyLabel (frameType : UInt8) : String :=
  if frameType = npqFrameClientFinished then "NPQ/1 client finished" else "NPQ/1 server finished"

def finishedTagLabel (frameType : UInt8) : String :=
  if frameType = npqFrameClientFinished then "NPQ/1 client proof" else "NPQ/1 server proof"

/-- The `role` argument of the C function is unused. -/
def npqMakeFinished (frameType : UInt8) (rootKey : Block 32) (hello : Block 48)
    (challenge : Block 60) : Except NpqStatus (Block 24) :=
  if frameType ≠ npqFrameClientFinished ∧ frameType ≠ npqFrameServerFinished then
    .error .errArgument
  else
    match deriveTranscriptPrk sha256 rootKey hello challenge with
    | .error failure => .error failure
    | .ok (transcript, prk) =>
      let key := discardNpq
        (hkdfExpandLabel sha256 prk (finishedKeyLabel frameType) transcript)
      let core := makeHeader frameType ++ slice challenge.val 40 4
      let digest := discardNpq
        (hmacLabel sha256 key (finishedTagLabel frameType) (core ++ transcript.val))
      .ok ⟨core ++ digest.val.take 16, by simp [core, makeHeader]⟩

def npqVerifyFinished (frame : Block 24) (expectedType : UInt8) (rootKey : Block 32)
    (hello : Block 48) (challenge : Block 60) : NpqStatus :=
  if ¬ validHeader frame.val expectedType ∨ slice frame.val 4 4 ≠ slice challenge.val 40 4 then
    .errFormat
  else
    match npqMakeFinished sha256 expectedType rootKey hello challenge with
    | .error failure => failure
    | .ok expected =>
      if slice frame.val 8 16 ≠ slice expected.val 8 16 then .errAuth else .ok

/-! ## Records -/

/-- The message key and the next chain key. -/
def ratchetMaterial (chain : Block 32) (sequence : UInt32) : Block 16 × Block 32 :=
  let encoded := store32BE sequence
  (digest16 (discardNpq (hmacLabel sha256 chain "NPQ/1 message key" encoded)),
    discardNpq (hmacLabel sha256 chain "NPQ/1 next chain" encoded))

def makeNonce (base : Block 16) (sequence : UInt32) : Block 16 :=
  ⟨base.val.take 12 ++ xorBytes (base.val.drop 12) (store32BE sequence), by simp⟩

/-- The 13 bytes in front of a ciphertext, which are its associated data. -/
def dataCore (sessionId sequence : UInt32) (length : UInt8) : Bytes :=
  makeHeader npqFrameData ++ store32BE sessionId ++ store32BE sequence ++ [length]

/-- The frame, or the status of the failure, and the session after the call. -/
def npqSeal (session : NpqSession) (plaintext : Bytes) : Except NpqStatus Bytes × NpqSession :=
  if plaintext.length > npqDataMaxBytes then (.error .errArgument, session)
  else if session.established = 0 ∨ session.sendSequence = 0xffffffff then
    (.error .errState, session)
  else
    let core := dataCore session.sessionId session.sendSequence (UInt8.ofNat plaintext.length)
    let (messageKey, nextChain) :=
      ratchetMaterial sha256 session.sendChain session.sendSequence
    let nonce := makeNonce session.sendNonceBase session.sendSequence
    let (ciphertext, tag) := asconAead128Encrypt messageKey nonce core plaintext
    (.ok (core ++ ciphertext ++ tag.val),
      { session with sendChain := nextChain, sendSequence := session.sendSequence + 1 })

/-- The plaintext, or the status of the failure, and the session after the call. -/
def npqOpen (session : NpqSession) (frame : Bytes) : Except NpqStatus Bytes × NpqSession :=
  if h : frame.length < npqDataOverheadBytes ∨ ¬ validHeader frame npqFrameData then
    (.error .errArgument, session)
  else
    let encodedLength := (byteAt frame 12).toNat
    if hlength : encodedLength > npqDataMaxBytes
        ∨ frame.length ≠ npqDataOverheadBytes + encodedLength
        ∨ load32BE (slice frame 4 4) ≠ session.sessionId then
      (.error .errFormat, session)
    else
      let sequence := load32BE (slice frame 8 4)
      if session.established = 0 ∨ sequence ≠ session.receiveSequence then
        (.error .errReplay, session)
      else
        let (messageKey, nextChain) := ratchetMaterial sha256 session.receiveChain sequence
        let nonce := makeNonce session.receiveNonceBase sequence
        let tag := blockAt frame (npqDataCoreBytes + encodedLength) 16
          (by simp only [npqDataCoreBytes, npqDataOverheadBytes] at *; omega)
        match asconAead128Decrypt messageKey nonce (slice frame 0 npqDataCoreBytes)
            (slice frame npqDataCoreBytes encodedLength) tag with
        | none => (.error .errAuth, session)
        | some plaintext =>
          (.ok plaintext,
            { session with
              receiveChain := nextChain, receiveSequence := session.receiveSequence + 1 })

def npqClose : NpqSession :=
  { sendChain := Block.zero 32
    receiveChain := Block.zero 32
    sendNonceBase := Block.zero 16
    receiveNonceBase := Block.zero 16
    sessionId := 0
    bootEpoch := 0
    sendSequence := 0
    receiveSequence := 0
    established := 0 }

end C0PQLink.NanoPQ
