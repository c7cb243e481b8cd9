import C0PQLink.Foundation.Labels
import C0PQLink.Session.Fragment
import C0PQLink.Session.Preflight
import C0PQLink.Session.Ratchet

/-!
# The inputs of the HMACs

What the key schedule, the authentication tags and the ratchet feed to HMAC: a text label,
and behind it the fields without a separator. The input of one block of HKDF-Expand ends in
its counter.

* `labels_prefixFree`: no label is the beginning of another one.
* `hmacInput_injective`: purpose and fields can be read off an input.
* `sessionHmacs`: the HMACs of the session code have these inputs.
-/

namespace C0PQLink

open Foundation

/-! ## Purposes and their inputs -/

/-- What an HMAC is computed for, by the secret that is its key: the early secret, the hello
key, the session auth key, the handshake secret, a Finished key and a chain key. -/
inductive HmacPurpose where
  | helloKey
  | sessionAuth
  | derived
  | helloFrame
  | challengeFrame
  | ciphertextFragment
  | ciphertextAck
  | deviceFinished
  | serverFinished
  | clientTraffic
  | serverTraffic
  | clientNonce
  | serverNonce
  | clientChain
  | serverChain
  | finishedTag
  | ratchetMessage
  | ratchetNext
  deriving DecidableEq

def HmacPurpose.all : List HmacPurpose :=
  [.helloKey, .sessionAuth, .derived, .helloFrame, .challengeFrame, .ciphertextFragment,
    .ciphertextAck, .deviceFinished, .serverFinished, .clientTraffic, .serverTraffic,
    .clientNonce, .serverNonce, .clientChain, .serverChain, .finishedTag, .ratchetMessage,
    .ratchetNext]

theorem HmacPurpose.mem_all (purpose : HmacPurpose) : purpose ∈ all := by
  cases purpose <;> decide

def HmacPurpose.label : HmacPurpose → String
  | .helloKey => "C0PQ/1 hello key"
  | .sessionAuth => "C0PQ/1 session auth"
  | .derived => "C0PQ/1 derived"
  | .helloFrame => "C0PQ/1 hello frame"
  | .challengeFrame => "C0PQ/1 challenge frame"
  | .ciphertextFragment => "C0PQ/1 ciphertext fragment"
  | .ciphertextAck => "C0PQ/1 ciphertext ack"
  | .deviceFinished => "C0PQ/1 device finished"
  | .serverFinished => "C0PQ/1 server finished"
  | .clientTraffic => "C0PQ/1 client traffic"
  | .serverTraffic => "C0PQ/1 server traffic"
  | .clientNonce => "C0PQ/1 client nonce"
  | .serverNonce => "C0PQ/1 server nonce"
  | .clientChain => "C0PQ/1 client chain"
  | .serverChain => "C0PQ/1 server chain"
  | .finishedTag => "C0PQ/1 finished tag"
  | .ratchetMessage => "C0PQ/1 ratchet message"
  | .ratchetNext => "C0PQ/1 ratchet next"

/-- The fields of a fragment; the array `pending` bounds the payload. -/
structure FragmentFields where
  sessionId : UInt32
  index : UInt8
  count : UInt8
  payload : Bytes
  payload_le : payload.length ≤ fragmentPayloadBytes

structure AckFields where
  sessionId : UInt32
  index : UInt8
  status : UInt8

structure FinishedFields where
  frameType : UInt8
  sessionId : UInt32
  transcriptHash : Block 32

/-- The session auth key is derived from the fields of a challenge. -/
def HmacPurpose.Fields : HmacPurpose → Type
  | .helloKey | .derived | .ratchetMessage | .ratchetNext => Unit
  | .sessionAuth => Challenge
  | .helloFrame => UInt32 × Hello
  | .challengeFrame => UInt32 × Challenge
  | .ciphertextFragment => FragmentFields
  | .ciphertextAck => AckFields
  | .deviceFinished | .serverFinished | .clientTraffic | .serverTraffic | .clientNonce
  | .serverNonce | .clientChain | .serverChain => Block 32
  | .finishedTag => FinishedFields

def fragmentData (fields : FragmentFields) : Bytes :=
  writeHeader frameCiphertextFragment 0 (UInt16.ofNat (3 + fields.payload.length + 16))
      fields.sessionId
    ++ [fields.index, fields.count, UInt8.ofNat fields.payload.length] ++ fields.payload

def ackData (fields : AckFields) : Bytes :=
  writeHeader frameCiphertextAck 0 18 fields.sessionId ++ [fields.index, fields.status]

def finishedData (fields : FinishedFields) : Bytes :=
  writeHeader fields.frameType 0 16 fields.sessionId ++ fields.transcriptHash.val

def sessionAuthData (challenge : Challenge) : Bytes :=
  store16BE challenge.suite ++ store64BE challenge.epoch ++ challenge.keyId.val
    ++ challenge.deviceNonce.val ++ challenge.serverNonce.val

/-- The bytes of `expand_text_label` behind the label, and the counter of the first block. -/
def expandData (transcriptHash : Block 32) : Bytes := [0] ++ transcriptHash.val ++ [1]

def HmacPurpose.data : (purpose : HmacPurpose) → purpose.Fields → Bytes
  | .helloKey, _ | .derived, _ => [1]
  | .ratchetMessage, _ | .ratchetNext, _ => []
  | .sessionAuth, challenge => sessionAuthData challenge
  | .helloFrame, fields => helloCore fields.1 fields.2
  | .challengeFrame, fields => challengeCore fields.1 fields.2
  | .ciphertextFragment, fields => fragmentData fields
  | .ciphertextAck, fields => ackData fields
  | .deviceFinished, transcriptHash | .serverFinished, transcriptHash
  | .clientTraffic, transcriptHash | .serverTraffic, transcriptHash
  | .clientNonce, transcriptHash | .serverNonce, transcriptHash
  | .clientChain, transcriptHash | .serverChain, transcriptHash => expandData transcriptHash
  | .finishedTag, fields => finishedData fields

/-- A purpose and its fields. -/
abbrev HmacUse := Sigma HmacPurpose.Fields

def hmacInput : HmacUse → Bytes :=
  labelled (fun purpose => ascii purpose.label) HmacPurpose.data

/-! ## Labels -/

theorem labels_prefixFree : PrefixFree fun purpose : HmacPurpose => ascii purpose.label := by
  have hall : ∀ i ∈ HmacPurpose.all, ∀ j ∈ HmacPurpose.all,
      ascii i.label <+: ascii j.label → i = j := by decide +kernel
  intro i j
  exact hall i i.mem_all j j.mem_all

/-! ## Fields -/

theorem headerBytes_inj {type type' flags flags' length length' : UInt8}
    {sessionId sessionId' : UInt32}
    (h : headerBytes type flags length sessionId = headerBytes type' flags' length' sessionId') :
    type = type' ∧ sessionId = sessionId' := by
  obtain ⟨hfirst, hid⟩ := List.append_inj' h rfl
  simp only [List.cons.injEq, and_true, true_and] at hfirst
  exact ⟨hfirst.1, store32BE_injective hid⟩

theorem sessionAuthData_injective : Function.Injective sessionAuthData := by
  rintro ⟨suite, epoch, keyId, deviceNonce, serverNonce⟩
    ⟨suite', epoch', keyId', deviceNonce', serverNonce'⟩ h
  obtain ⟨h, hserver⟩ := List.append_inj' h (by simp)
  obtain ⟨h, hdevice⟩ := List.append_inj' h (by simp)
  obtain ⟨h, hkey⟩ := List.append_inj' h (by simp)
  obtain ⟨hsuite, hepoch⟩ := List.append_inj' h (by simp)
  obtain rfl := store16BE_injective hsuite
  obtain rfl := store64BE_injective hepoch
  obtain rfl := Block.ext hkey
  obtain rfl := Block.ext hdevice
  obtain rfl := Block.ext hserver
  rfl

theorem helloData_injective :
    Function.Injective fun fields : UInt32 × Hello => helloCore fields.1 fields.2 := by
  rintro ⟨sessionId, suite, deviceId, epoch, deviceNonce⟩
    ⟨sessionId', suite', deviceId', epoch', deviceNonce'⟩ h
  simp only [helloCore_eq] at h
  obtain ⟨h, hnonce⟩ := List.append_inj' h (by simp)
  obtain ⟨h, hepoch⟩ := List.append_inj' h (by simp)
  obtain ⟨h, hdevice⟩ := List.append_inj' h (by simp)
  obtain ⟨hheader, hsuite⟩ := List.append_inj' h (by simp)
  obtain ⟨-, rfl⟩ := headerBytes_inj hheader
  obtain rfl := store16BE_injective hsuite
  obtain rfl := store64BE_injective hepoch
  obtain rfl := Block.ext hdevice
  obtain rfl := Block.ext hnonce
  rfl

/-- The fields of a challenge stand behind its header as in the session auth key. -/
theorem challengeCore_eq_header (sessionId : UInt32) (challenge : Challenge) :
    challengeCore sessionId challenge
      = headerBytes frameChallenge 0 74 sessionId ++ sessionAuthData challenge := by
  rw [challengeCore_eq, sessionAuthData]
  simp only [List.append_assoc]

theorem challengeData_injective :
    Function.Injective fun fields : UInt32 × Challenge => challengeCore fields.1 fields.2 := by
  rintro ⟨sessionId, challenge⟩ ⟨sessionId', challenge'⟩ h
  simp only [challengeCore_eq_header] at h
  obtain ⟨hheader, hfields⟩ := List.append_inj h (by simp)
  obtain ⟨-, rfl⟩ := headerBytes_inj hheader
  obtain rfl := sessionAuthData_injective hfields
  rfl

theorem fragmentData_eq (fields : FragmentFields) :
    fragmentData fields
      = headerBytes frameCiphertextFragment 0
          (UInt16.ofNat (3 + fields.payload.length + 16)).toUInt8 fields.sessionId
        ++ [fields.index, fields.count, UInt8.ofNat fields.payload.length] ++ fields.payload := by
  have hle : fields.payload.length ≤ 48 := fields.payload_le
  rw [fragmentData, writeHeader_of_le]
  rw [UInt16.le_iff_toNat_le, UInt16.toNat_ofNat', Nat.mod_eq_of_lt (by omega)]
  exact Nat.le_trans (by omega : _ ≤ 67) (by decide)

theorem fragmentData_injective : Function.Injective fragmentData := by
  rintro ⟨sessionId, index, count, payload, hle⟩ ⟨sessionId', index', count', payload', hle'⟩ h
  simp only [fragmentData_eq] at h
  obtain ⟨h, hpayload⟩ := List.append_inj h (by simp)
  obtain ⟨hheader, hbytes⟩ := List.append_inj' h (by simp)
  obtain ⟨-, rfl⟩ := headerBytes_inj hheader
  simp only [List.cons.injEq] at hbytes
  obtain ⟨rfl, rfl, -⟩ := hbytes
  subst hpayload
  rfl

theorem ackData_injective : Function.Injective ackData := by
  rintro ⟨sessionId, index, status⟩ ⟨sessionId', index', status'⟩ h
  simp only [ackData, writeHeader_of_le (show (18 : UInt16) ≤ 255 by decide)] at h
  obtain ⟨hheader, hbytes⟩ := List.append_inj' h (by simp)
  obtain ⟨-, rfl⟩ := headerBytes_inj hheader
  simp only [List.cons.injEq] at hbytes
  obtain ⟨rfl, rfl, -⟩ := hbytes
  rfl

theorem finishedData_injective : Function.Injective finishedData := by
  rintro ⟨type, sessionId, hash⟩ ⟨type', sessionId', hash'⟩ h
  simp only [finishedData, writeHeader_of_le (show (16 : UInt16) ≤ 255 by decide)] at h
  obtain ⟨hheader, hhash⟩ := List.append_inj' h (by simp)
  obtain ⟨rfl, rfl⟩ := headerBytes_inj hheader
  obtain rfl := Block.ext hhash
  rfl

theorem expandData_injective : Function.Injective expandData := by
  intro hash hash' h
  obtain ⟨h, -⟩ := List.append_inj' h rfl
  exact Block.ext (List.append_cancel_left h)

theorem purposeData_injective (purpose : HmacPurpose) : Function.Injective purpose.data := by
  cases purpose with
  | helloKey | derived | ratchetMessage | ratchetNext => exact fun _ _ _ => rfl
  | sessionAuth => exact sessionAuthData_injective
  | helloFrame => exact helloData_injective
  | challengeFrame => exact challengeData_injective
  | ciphertextFragment => exact fragmentData_injective
  | ciphertextAck => exact ackData_injective
  | deviceFinished | serverFinished | clientTraffic | serverTraffic | clientNonce | serverNonce
  | clientChain | serverChain => exact expandData_injective
  | finishedTag => exact finishedData_injective

theorem hmacInput_injective : Function.Injective hmacInput :=
  labels_prefixFree.labelled_injective purposeData_injective

/-! ## The HMACs of the session code -/

theorem ackCore_fields {frame : Bytes} {header : FrameHeader} (hlength : frame.length = 28)
    (hheader : decodeHeader frame = .ok header) (htype : header.type = frameCiphertextAck)
    (hflags : header.flags = 0) (hpayload : header.payloadLength = 18) :
    slice frame 0 12
      = ackData ⟨header.sessionId, byteAt frame 10, byteAt frame 11⟩ := by
  have hten := take_of_decodeHeader hheader
  have htwo : slice frame 10 2 = [byteAt frame 10, byteAt frame 11] := by
    match frame, hlength with
    | _ :: _ :: _ :: _ :: _ :: _ :: _ :: _ :: _ :: _ :: a :: b :: rest, _ => rfl
  rw [htype, hflags, hpayload, ← slice_zero] at hten
  rw [← slice_append_slice frame 0 10 2, hten, htwo, ackData,
    writeHeader_of_le (show (18 : UInt16) ≤ 255 by decide)]

variable (sha256 : Bytes → Block 32)

/-- Every HMAC under one of the secrets, in the functions that compute or verify it. A
function that verifies a frame gets to the HMAC only behind the checks named here. -/
structure SessionHmacs : Prop where
  helloKey : ∀ psk, deriveHelloKey sha256 psk
    = hmacPrefix sha256 32 (by decide) (extractPsk sha256 psk).val (hmacInput ⟨.helloKey, ()⟩)
  sessionAuth : ∀ psk suite epoch keyId deviceNonce serverNonce,
    deriveSessionAuthKey sha256 psk suite epoch keyId deviceNonce serverNonce
      = hmacSha256 sha256 (extractPsk sha256 psk).val
          (hmacInput ⟨.sessionAuth, suite, epoch, keyId, deviceNonce, serverNonce⟩)
  derived : ∀ psk kemSharedSecret, handshakeSecret sha256 psk kemSharedSecret
    = hmacSha256 sha256 (hmacPrefix sha256 32 (by decide) (extractPsk sha256 psk).val
        (hmacInput ⟨.derived, ()⟩)).val kemSharedSecret.val
  sessionKeys : ∀ psk kemSharedSecret transcriptHash,
    deriveSessionKeys sha256 psk kemSharedSecret transcriptHash = .ok
      { deviceFinishedKey := hmacPrefix sha256 32 (by decide)
          (handshakeSecret sha256 psk kemSharedSecret).val
          (hmacInput ⟨.deviceFinished, transcriptHash⟩)
        serverFinishedKey := hmacPrefix sha256 32 (by decide)
          (handshakeSecret sha256 psk kemSharedSecret).val
          (hmacInput ⟨.serverFinished, transcriptHash⟩)
        clientTrafficKey := hmacPrefix sha256 16 (by decide)
          (handshakeSecret sha256 psk kemSharedSecret).val
          (hmacInput ⟨.clientTraffic, transcriptHash⟩)
        serverTrafficKey := hmacPrefix sha256 16 (by decide)
          (handshakeSecret sha256 psk kemSharedSecret).val
          (hmacInput ⟨.serverTraffic, transcriptHash⟩)
        clientNonceBase := hmacPrefix sha256 16 (by decide)
          (handshakeSecret sha256 psk kemSharedSecret).val
          (hmacInput ⟨.clientNonce, transcriptHash⟩)
        serverNonceBase := hmacPrefix sha256 16 (by decide)
          (handshakeSecret sha256 psk kemSharedSecret).val
          (hmacInput ⟨.serverNonce, transcriptHash⟩)
        clientChainKey := hmacPrefix sha256 32 (by decide)
          (handshakeSecret sha256 psk kemSharedSecret).val
          (hmacInput ⟨.clientChain, transcriptHash⟩)
        serverChainKey := hmacPrefix sha256 32 (by decide)
          (handshakeSecret sha256 psk kemSharedSecret).val
          (hmacInput ⟨.serverChain, transcriptHash⟩) }
  hello : ∀ sessionId hello psk, (helloFrame sha256 sessionId hello psk).val
    = helloCore sessionId hello ++ (hmacPrefix sha256 16 tag_le_digest
        (deriveHelloKey sha256 psk).val (hmacInput ⟨.helloFrame, sessionId, hello⟩)).val
  helloVerified : ∀ (frame : Bytes) (header : FrameHeader) (h : frame.length = 60) (tag : Bytes)
    (key : Block 32), decodeHeader frame = .ok header → header.type = frameHello →
      header.flags = 0 → header.payloadLength = 50 →
      verifyAuthTag sha256 tag key "C0PQ/1 hello frame" (slice frame 0 44)
        = if (hmacPrefix sha256 16 tag_le_digest key.val
            (hmacInput ⟨.helloFrame, header.sessionId, helloFields frame h⟩)).val = tag
          then .ok else .errAuth
  challenge : ∀ sessionId challenge psk, (challengeFrame sha256 sessionId challenge psk).val
    = challengeCore sessionId challenge ++ (hmacPrefix sha256 16 tag_le_digest
        (challengeAuthKey sha256 psk challenge).val
        (hmacInput ⟨.challengeFrame, sessionId, challenge⟩)).val
  challengeVerified : ∀ (frame : Bytes) (header : FrameHeader) (h : frame.length = 84)
    (tag : Bytes) (key : Block 32), decodeHeader frame = .ok header →
      header.type = frameChallenge → header.flags = 0 → header.payloadLength = 74 →
      verifyAuthTag sha256 tag key "C0PQ/1 challenge frame" (slice frame 0 68)
        = if (hmacPrefix sha256 16 tag_le_digest key.val
            (hmacInput ⟨.challengeFrame, header.sessionId, challengeFields frame h⟩)).val = tag
          then .ok else .errAuth
  fragment : ∀ key sessionId index payload (h : payload.length ≤ fragmentPayloadBytes),
    fragmentFrame sha256 key sessionId index payload
      = fragmentCore sessionId index payload ++ (hmacPrefix sha256 16 tag_le_digest key.val
          (hmacInput ⟨.ciphertextFragment, sessionId, index, fragmentCount, payload, h⟩)).val
  ackVerified : ∀ (frame : Bytes) (header : FrameHeader) (tag : Bytes) (key : Block 32),
    frame.length = 28 → decodeHeader frame = .ok header → header.type = frameCiphertextAck →
      header.flags = 0 → header.payloadLength = 18 →
      verifyAuthTag sha256 tag key "C0PQ/1 ciphertext ack" (slice frame 0 12)
        = if (hmacPrefix sha256 16 tag_le_digest key.val (hmacInput
            ⟨.ciphertextAck, header.sessionId, byteAt frame 10, byteAt frame 11⟩)).val = tag
          then .ok else .errAuth
  finished : ∀ key frameType sessionId transcriptHash,
    C0PQLink.finishedTag sha256 key frameType sessionId transcriptHash
      = hmacPrefix sha256 16 tag_le_digest key.val
          (hmacInput ⟨.finishedTag, frameType, sessionId, transcriptHash⟩)
  ratchet : ∀ chainKey, ratchetStep sha256 chainKey
    = (hmacPrefix sha256 16 tag_le_digest chainKey.val (hmacInput ⟨.ratchetMessage, ()⟩),
      hmacSha256 sha256 chainKey.val (hmacInput ⟨.ratchetNext, ()⟩))

theorem expandedLabel_eq {n : Nat} (hle : n ≤ 32) (secret : Block 32) (label : String)
    (transcriptHash : Block 32) :
    expandedLabel sha256 n hle secret label transcriptHash
      = hmacPrefix sha256 n hle secret.val (ascii label ++ expandData transcriptHash) := by
  rw [expandedLabel, expandData]
  simp only [List.append_assoc]

theorem verifyAuthTag_data {tag data data' : Bytes} {key : Block 32} {label : String}
    (h : data = data') :
    verifyAuthTag sha256 tag key label data
      = if (hmacPrefix sha256 16 tag_le_digest key.val (ascii label ++ data')).val = tag
        then .ok else .errAuth := by
  rw [h]
  rfl

theorem sessionHmacs : SessionHmacs sha256 where
  helloKey psk := deriveHelloKey_eq sha256 psk
  sessionAuth psk suite epoch keyId deviceNonce serverNonce := by
    rw [deriveSessionAuthKey, hmacInput, labelled]
    simp only [HmacPurpose.data, sessionAuthData, List.append_assoc]
    rfl
  derived _ _ := rfl
  sessionKeys psk kemSharedSecret transcriptHash := by
    rw [deriveSessionKeys_eq]
    simp only [expandedLabel_eq]
    rfl
  hello _ _ _ := rfl
  helloVerified frame header h tag key hheader htype hflags hpayload := by
    have hten := take_of_decodeHeader hheader
    rw [htype, hflags, hpayload] at hten
    exact verifyAuthTag_data sha256 (helloCore_fields h hten).symm
  challenge _ _ _ := rfl
  challengeVerified frame header h tag key hheader htype hflags hpayload := by
    have hten := take_of_decodeHeader hheader
    rw [htype, hflags, hpayload] at hten
    exact verifyAuthTag_data sha256 (challengeCore_fields h hten).symm
  fragment _ _ _ _ _ := rfl
  ackVerified frame header tag key hlength hheader htype hflags hpayload :=
    verifyAuthTag_data sha256 (ackCore_fields hlength hheader htype hflags hpayload)
  finished _ _ _ _ := rfl
  ratchet _ := by
    rw [ratchetStep, hmacInput, labelled, labelled]
    simp only [HmacPurpose.data, List.append_nil]
    rfl

/-- The inputs of two HMACs of the session code are different, unless their purposes and all
their fields are the same. -/
theorem hmacInputs_unambiguous : SessionHmacs sha256 ∧ Function.Injective hmacInput :=
  ⟨sessionHmacs sha256, hmacInput_injective⟩

end C0PQLink
