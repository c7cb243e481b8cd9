import C0PQLink.ReferencePeer.Ascon
import C0PQLink.Session.Preflight

/-!
# Codecs and key schedule of the reference peer

The frame header, the tags and the key derivation of `reference-peer/protocol.mjs`, and
that they are those of the client.

* `decodeHeader_eq`: the header codec accepts the same frames.
* `deriveSessionKeys_eq_client`: the key schedule gives the same keys.
-/

namespace C0PQLink.ReferencePeer

open Foundation

/-! ## Errors -/

/-- The errors the peer throws. `typeError`, `valueOutOfRange` and `applicationFailed` are
raised by the language, by a buffer write and by the application. -/
inductive PeerError where
  | payloadTooLarge
  | invalidHeader
  | typeError
  | hkdfOutputTooLarge
  | valueOutOfRange
  | invalidHelloShape
  | unknownDeviceOrSuite
  | helloAuthenticationFailed
  | invalidPsk
  | invalidMode
  | sessionCollision
  | epochMismatch
  | randomWrongLength
  | invalidFragmentSession
  | invalidFragmentShape
  | fragmentAuthenticationFailed
  | conflictingFragmentReplay
  | invalidFinishedSession
  | deviceFinishedFailed
  | ciphertextIncomplete
  | invalidClientRecord
  | recordReplayOrGap
  | recordTooLarge
  | recordAuthenticationFailed
  | plaintextTooLarge
  | unknownDataSession
  | applicationFailed
  | unsupportedFrameType (type : UInt8)
  deriving DecidableEq

/-- The texts of the errors that `protocol.mjs` throws itself. -/
def PeerError.message : PeerError → String
  | .payloadTooLarge => "payload too large"
  | .invalidHeader => "invalid C0-PQLink frame header"
  | .typeError => ""
  | .hkdfOutputTooLarge => "HKDF output too large"
  | .valueOutOfRange => ""
  | .invalidHelloShape => "invalid hello shape"
  | .unknownDeviceOrSuite => "unknown device or suite"
  | .helloAuthenticationFailed => "hello authentication failed"
  | .invalidPsk => "device PSK must be 32 non-placeholder bytes"
  | .invalidMode => "invalid device mode"
  | .sessionCollision => "session identifier collision"
  | .epochMismatch => "epoch mismatch"
  | .randomWrongLength => "peer random source returned the wrong length"
  | .invalidFragmentSession => "unknown or invalid fragment session"
  | .invalidFragmentShape => "invalid fragment shape"
  | .fragmentAuthenticationFailed => "fragment authentication failed"
  | .conflictingFragmentReplay => "conflicting fragment replay"
  | .invalidFinishedSession => "unknown or invalid finished session"
  | .deviceFinishedFailed => "device Finished verification failed"
  | .ciphertextIncomplete => "ciphertext incomplete"
  | .invalidClientRecord => "invalid client record"
  | .recordReplayOrGap => "record replay or gap"
  | .recordTooLarge => "record too large"
  | .recordAuthenticationFailed => "record authentication failed"
  | .plaintextTooLarge => "record plaintext too large"
  | .unknownDataSession => "unknown data session"
  | .applicationFailed => ""
  | .unsupportedFrameType type => "unsupported frame type " ++ toString type.toNat

/-! ## Headers and integers -/

/-- `writeBigUInt64BE` throws for a value of more than 64 bits. -/
def u64 (value : Nat) : Except PeerError (Block 8) :=
  if value < 2 ^ 64 then .ok ⟨beBytes 8 value, length_beBytes 8 value⟩
  else .error .valueOutOfRange

theorem u64_toNat (value : UInt64) :
    u64 value.toNat = .ok ⟨store64BE value, length_store64BE value⟩ := by
  rw [u64, if_pos value.toNat_lt]
  congr 1
  exact Block.ext (store64BE_eq value).symm

def u16 (value : UInt16) : Bytes := beBytes 2 value.toNat

def encodeHeader (type flags : UInt8) (payloadLength : Nat) (sessionId : UInt32) :
    Except PeerError Bytes :=
  if payloadLength > 255 then .error .payloadTooLarge
  else .ok ([0x43, 0x30, 1, type, flags, UInt8.ofNat payloadLength] ++ beBytes 4 sessionId.toNat)

theorem encodeHeader_of_le (type flags : UInt8) {payloadLength : Nat} (sessionId : UInt32)
    (h : payloadLength ≤ 255) :
    encodeHeader type flags payloadLength sessionId
      = .ok (headerBytes type flags (UInt8.ofNat payloadLength) sessionId) := by
  rw [encodeHeader, if_neg (Nat.not_lt.mpr h), headerBytes, store32BE_eq]

structure Header where
  type : UInt8
  flags : UInt8
  payloadLength : Nat
  sessionId : UInt32
  deriving DecidableEq

def decodeHeader (frame : Bytes) : Except PeerError Header :=
  if frame.length < 10 ∨ byteAt frame 0 ≠ 0x43 ∨ byteAt frame 1 ≠ 0x30 ∨ byteAt frame 2 ≠ 1
      ∨ (byteAt frame 5).toNat + 10 ≠ frame.length then .error .invalidHeader
  else
    .ok
      { type := byteAt frame 3
        flags := byteAt frame 4
        payloadLength := (byteAt frame 5).toNat
        sessionId := UInt32.ofNat (beNat (slice frame 6 4)) }

/-! ## HMAC and HKDF -/

variable (sha256 : Bytes → Block 32)

def hkdfExtract (salt : Option (Block 32)) (ikm : Bytes) : Block 32 :=
  hmacSha256 sha256 (salt.getD (Block.zero 32)).val ikm

/-- The loop of `hkdfExpand`: the bytes from `produced` on. -/
def hkdfExpandFrom (prk info : Bytes) (length : Nat) (previous : Bytes) (counter : UInt8)
    (produced : Nat) : Bytes :=
  if produced < length then
    let block := hmacSha256 sha256 prk (previous ++ info ++ [counter])
    let take := min 32 (length - produced)
    block.val.take take
      ++ hkdfExpandFrom prk info length block.val (counter + 1) (produced + take)
  else []
termination_by length - produced

theorem length_hkdfExpandFrom (prk info : Bytes) (length : Nat) (previous : Bytes)
    (counter : UInt8) (produced : Nat) :
    (hkdfExpandFrom sha256 prk info length previous counter produced).length
      = length - produced := by
  fun_induction hkdfExpandFrom with
  | case1 previous counter produced h block take ih =>
    have htake : take ≤ 32 := Nat.min_le_left _ _
    have hrest : take ≤ length - produced := Nat.min_le_right _ _
    rw [List.length_append, List.length_take, Block.length_val, Nat.min_eq_left htake, ih]
    omega
  | case2 previous counter produced h => simp; omega

def hkdfExpand (prk info : Bytes) (length : Nat) : Except PeerError (Block length) :=
  if length > 255 * 32 then .error .hkdfOutputTooLarge
  else .ok ⟨hkdfExpandFrom sha256 prk info length [] 1 0, length_hkdfExpandFrom ..⟩

theorem hkdfExpand_one_block {n : Nat} (hpos : 0 < n) (hle : n ≤ 32) (prk info : Bytes) :
    hkdfExpand sha256 prk info n = .ok (hmacPrefix sha256 n hle prk (info ++ [1])) := by
  have hcap : ¬ n > 255 * 32 := by omega
  have htake : min 32 n = n := by omega
  rw [hkdfExpand, if_neg hcap]
  congr 1
  apply Block.ext
  simp only
  rw [hkdfExpandFrom, if_pos hpos]
  simp only [Nat.sub_zero, htake, Nat.zero_add, List.nil_append]
  rw [hkdfExpandFrom, if_neg (Nat.lt_irrefl n), List.append_nil]
  rfl

theorem hkdfExtract_none (ikm : Bytes) :
    hkdfExtract sha256 none ikm = hkdfSha256Extract sha256 [] ikm :=
  (hmacSha256_zero_key sha256 ikm).symm

/-! ## Tags and keys -/

def authTag (key : Block 32) (label : String) (data : Bytes) : Block 16 :=
  hmacPrefix sha256 16 tag_le_digest key.val (ascii label ++ data)

theorem authTag_eq : @authTag = @C0PQLink.authTag := rfl

def deriveHelloKey (psk : Block 32) : Except PeerError (Block 32) :=
  hkdfExpand sha256 (hkdfExtract sha256 none psk.val).val (ascii "C0PQ/1 hello key") 32

theorem deriveHelloKey_eq_client (psk : Block 32) :
    deriveHelloKey sha256 psk = .ok (C0PQLink.deriveHelloKey sha256 psk) := by
  rw [deriveHelloKey, hkdfExpand_one_block sha256 (by decide) (by decide), hkdfExtract_none,
    deriveHelloKey_eq]
  rfl

def deriveSessionAuthKey (psk : Block 32) (suite : UInt16) (epoch : Nat)
    (keyId deviceNonce serverNonce : Block 16) : Except PeerError (Block 32) := do
  let early := hkdfExtract sha256 none psk.val
  let epochBytes ← u64 epoch
  return hmacSha256 sha256 early.val
    (ascii "C0PQ/1 session auth" ++ u16 suite ++ epochBytes.val ++ keyId.val ++ deviceNonce.val
      ++ serverNonce.val)

theorem deriveSessionAuthKey_eq_client (psk : Block 32) (suite : UInt16) (epoch : UInt64)
    (keyId deviceNonce serverNonce : Block 16) :
    deriveSessionAuthKey sha256 psk suite epoch.toNat keyId deviceNonce serverNonce
      = .ok (C0PQLink.deriveSessionAuthKey sha256 psk suite epoch keyId deviceNonce
          serverNonce) := by
  simp only [deriveSessionAuthKey, u64_toNat, except_ok_bind, except_pure, hkdfExtract_none,
    C0PQLink.deriveSessionAuthKey, extractPsk, u16, ← store16BE_eq, List.append_assoc]

def expandTextLabel (secret : Block 32) (label : String) (transcriptHash : Block 32)
    (length : Nat) : Except PeerError (Block length) :=
  hkdfExpand sha256 secret.val (ascii label ++ [0] ++ transcriptHash.val) length

def deriveSessionKeys (psk kemSharedSecret transcriptHash : Block 32) :
    Except PeerError SessionKeys := do
  let early := hkdfExtract sha256 none psk.val
  let derived ← hkdfExpand sha256 early.val (ascii "C0PQ/1 derived") 32
  let handshake := hkdfExtract sha256 (some derived) kemSharedSecret.val
  let deviceFinishedKey ←
    expandTextLabel sha256 handshake "C0PQ/1 device finished" transcriptHash 32
  let serverFinishedKey ←
    expandTextLabel sha256 handshake "C0PQ/1 server finished" transcriptHash 32
  let clientTrafficKey ←
    expandTextLabel sha256 handshake "C0PQ/1 client traffic" transcriptHash 16
  let serverTrafficKey ←
    expandTextLabel sha256 handshake "C0PQ/1 server traffic" transcriptHash 16
  let clientNonceBase ← expandTextLabel sha256 handshake "C0PQ/1 client nonce" transcriptHash 16
  let serverNonceBase ← expandTextLabel sha256 handshake "C0PQ/1 server nonce" transcriptHash 16
  let clientChainKey ← expandTextLabel sha256 handshake "C0PQ/1 client chain" transcriptHash 32
  let serverChainKey ← expandTextLabel sha256 handshake "C0PQ/1 server chain" transcriptHash 32
  return { deviceFinishedKey, serverFinishedKey, clientTrafficKey, serverTrafficKey,
           clientNonceBase, serverNonceBase, clientChainKey, serverChainKey }

theorem expandTextLabel_eq_client {n : Nat} (hpos : 0 < n) (hle : n ≤ 32) (secret : Block 32)
    (label : String) (transcriptHash : Block 32) :
    expandTextLabel sha256 secret label transcriptHash n
      = .ok (expandedLabel sha256 n hle secret label transcriptHash) :=
  hkdfExpand_one_block sha256 hpos hle _ _

/-- Both ends derive the same keys; the derivation throws no error. -/
theorem deriveSessionKeys_eq_client (psk kemSharedSecret transcriptHash : Block 32) :
    ∃ keys, deriveSessionKeys sha256 psk kemSharedSecret transcriptHash = .ok keys
      ∧ C0PQLink.deriveSessionKeys sha256 psk kemSharedSecret transcriptHash = .ok keys := by
  have h32 (secret : Block 32) (label : String) :=
    expandTextLabel_eq_client sha256 (by decide : 0 < 32) (by decide) secret label transcriptHash
  have h16 (secret : Block 32) (label : String) :=
    expandTextLabel_eq_client sha256 (by decide : 0 < 16) (by decide) secret label transcriptHash
  refine ⟨_, ?_, C0PQLink.deriveSessionKeys_eq sha256 psk kemSharedSecret transcriptHash⟩
  simp only [deriveSessionKeys, hkdfExpand_one_block sha256 (by decide : 0 < 32) (by decide),
    except_ok_bind, h32, h16, hkdfExtract_none]
  rfl

def finishedTag (key : Block 32) (type : UInt8) (sessionId : UInt32) (transcriptHash : Block 32) :
    Except PeerError (Block 16) := do
  let header ← encodeHeader type 0 16 sessionId
  return authTag sha256 key "C0PQ/1 finished tag" (header ++ transcriptHash.val)

theorem finishedTag_eq_client (key : Block 32) (type : UInt8) (sessionId : UInt32)
    (transcriptHash : Block 32) :
    finishedTag sha256 key type sessionId transcriptHash
      = .ok (C0PQLink.finishedTag sha256 key type sessionId transcriptHash) := by
  simp only [finishedTag, encodeHeader_of_le type 0 sessionId (by decide : 16 ≤ 255),
    except_ok_bind, C0PQLink.finishedTag, writeHeader_of_le (show (16 : UInt16) ≤ 255 by decide)]
  rfl

/-! ## The header of the client -/

/-- The peer reads a header exactly when the client does, and reads the same one. -/
theorem decodeHeader_eq (frame : Bytes) :
    decodeHeader frame =
      match C0PQLink.decodeHeader frame with
      | .ok header =>
        .ok { type := header.type, flags := header.flags,
              payloadLength := header.payloadLength.toNat, sessionId := header.sessionId }
      | .error _ => .error .invalidHeader := by
  unfold decodeHeader C0PQLink.decodeHeader
  by_cases hlength : frame.length < 10
  · simp [hlength]
  by_cases hmagic : byteAt frame 0 ≠ 0x43 ∨ byteAt frame 1 ≠ 0x30 ∨ byteAt frame 2 ≠ 1
  · rw [if_pos (by tauto), if_neg hlength, if_pos hmagic]
  by_cases hpayload : (byteAt frame 5).toNat + 10 ≠ frame.length
  · rw [if_pos (by tauto), if_neg hlength, if_neg hmagic]
    simp [hpayload]
  have hslice : (slice frame 6 4).length = 4 := by
    rw [length_slice]
    omega
  have hsession : UInt32.ofNat (beNat (slice frame 6 4)) = load32BE (slice frame 6 4) := by
    rw [← toNat_load32BE hslice, UInt32.ofNat_toNat]
  rw [if_neg (by tauto), if_neg hlength, if_neg hmagic, hsession]
  simp only [UInt8.toNat_toUInt16, hpayload, if_false]

end C0PQLink.ReferencePeer
