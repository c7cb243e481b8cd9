import C0PQLink.Core.Sha256
import C0PQLink.Session.Wire

/-!
# Authentication tags and the key schedule

`session/crypto.c`. A transcript context is the byte string hashed so far.

* `deriveSessionKeys_eq`: the key schedule never fails, and every derived value is one
  HMAC under the handshake secret.
-/

namespace C0PQLink

open Foundation

variable (sha256 : Bytes → Block 32)

/-! ## Tags -/

def authTag (key : Block 32) (label : String) (data : Bytes) : Block 16 :=
  hmacPrefix sha256 16 tag_le_digest key.val (ascii label ++ data)

def verifyAuthTag (tag : Bytes) (key : Block 32) (label : String) (data : Bytes) : Status :=
  if (authTag sha256 key label data).val = tag then .ok else .errAuth

theorem verifyAuthTag_eq_ok {tag : Bytes} {key : Block 32} {label : String} {data : Bytes} :
    verifyAuthTag sha256 tag key label data = .ok ↔ (authTag sha256 key label data).val = tag := by
  unfold verifyAuthTag
  split <;> simp_all

/-! ## Keys from the provisioned secret -/

def extractPsk (psk : Block 32) : Block 32 := hkdfSha256Extract sha256 [] psk.val

/-- The label buffer `info` of `expand_text_label` has 64 bytes. -/
def expandTextLabel (outputLength : Nat) (secret : Block 32) (label : String)
    (transcriptHash : Block 32) : Except Status (Block outputLength) :=
  if (ascii label).length + 1 + 32 > 64 then .error .errCapacity
  else hkdfSha256Expand sha256 outputLength secret.val (ascii label ++ [0] ++ transcriptHash.val)

/-- The value left in an output whose status the caller discards. -/
def discardStatus {n : Nat} : Except Status (Block n) → Block n
  | .ok output => output
  | .error _ => Block.zero n

def deriveHelloKey (psk : Block 32) : Block 32 :=
  discardStatus (hkdfSha256Expand sha256 32 (extractPsk sha256 psk).val (ascii "C0PQ/1 hello key"))

def deriveSessionAuthKey (psk : Block 32) (suite : UInt16) (epoch : UInt64)
    (keyId deviceNonce serverNonce : Block 16) : Block 32 :=
  hmacSha256 sha256 (extractPsk sha256 psk).val
    (ascii "C0PQ/1 session auth" ++ (store16BE suite ++ store64BE epoch) ++ keyId.val
      ++ deviceNonce.val ++ serverNonce.val)

/-! ## The transcript -/

abbrev Transcript := Bytes

def transcriptInit : Transcript := ascii "C0PQ/1 transcript"

def transcriptAddHello (transcript : Transcript) (helloFrame : Bytes) : Transcript :=
  transcript ++ slice helloFrame 0 44

def transcriptAddChallenge (transcript : Transcript) (challengeFrame : Bytes) : Transcript :=
  transcript ++ slice challengeFrame 0 68

/-! ## Session keys -/

structure SessionKeys where
  deviceFinishedKey : Block 32
  serverFinishedKey : Block 32
  clientTrafficKey : Block 16
  serverTrafficKey : Block 16
  clientNonceBase : Block 16
  serverNonceBase : Block 16
  clientChainKey : Block 32
  serverChainKey : Block 32
  deriving DecidableEq

def deriveSessionKeys (psk kemSharedSecret transcriptHash : Block 32) :
    Except Status SessionKeys := do
  let derived ← hkdfSha256Expand sha256 32 (extractPsk sha256 psk).val (ascii "C0PQ/1 derived")
  let handshake := hkdfSha256Extract sha256 derived.val kemSharedSecret.val
  let deviceFinishedKey ←
    expandTextLabel sha256 32 handshake "C0PQ/1 device finished" transcriptHash
  let serverFinishedKey ←
    expandTextLabel sha256 32 handshake "C0PQ/1 server finished" transcriptHash
  let clientTrafficKey ←
    expandTextLabel sha256 16 handshake "C0PQ/1 client traffic" transcriptHash
  let serverTrafficKey ←
    expandTextLabel sha256 16 handshake "C0PQ/1 server traffic" transcriptHash
  let clientNonceBase ← expandTextLabel sha256 16 handshake "C0PQ/1 client nonce" transcriptHash
  let serverNonceBase ← expandTextLabel sha256 16 handshake "C0PQ/1 server nonce" transcriptHash
  let clientChainKey ← expandTextLabel sha256 32 handshake "C0PQ/1 client chain" transcriptHash
  let serverChainKey ← expandTextLabel sha256 32 handshake "C0PQ/1 server chain" transcriptHash
  return { deviceFinishedKey, serverFinishedKey, clientTrafficKey, serverTrafficKey,
           clientNonceBase, serverNonceBase, clientChainKey, serverChainKey }

/-- One output of the key schedule: an HMAC under the handshake secret, cut to `n` bytes. -/
def expandedLabel (n : Nat) (h : n ≤ 32) (handshake : Block 32) (label : String)
    (transcriptHash : Block 32) : Block n :=
  hmacPrefix sha256 n h handshake.val (ascii label ++ [0] ++ transcriptHash.val ++ [1])

/-- The handshake secret of `c0pq_derive_session_keys`. -/
def handshakeSecret (psk kemSharedSecret : Block 32) : Block 32 :=
  hmacSha256 sha256
    (hmacPrefix sha256 32 (by decide) (extractPsk sha256 psk).val
      (ascii "C0PQ/1 derived" ++ [1])).val kemSharedSecret.val

theorem expandTextLabel_eq {n : Nat} (hpos : 0 < n) (hle : n ≤ 32) (secret : Block 32)
    {label : String} (hlabel : (ascii label).length ≤ 31) (transcriptHash : Block 32) :
    expandTextLabel sha256 n secret label transcriptHash
      = .ok (expandedLabel sha256 n hle secret label transcriptHash) := by
  have hcap : ¬ (ascii label).length + 1 + 32 > 64 := by omega
  simp only [expandTextLabel, hcap, if_false]
  exact hkdfSha256Expand_one_block sha256 hpos hle _ _

theorem deriveSessionKeys_eq (psk kemSharedSecret transcriptHash : Block 32) :
    deriveSessionKeys sha256 psk kemSharedSecret transcriptHash =
      let handshake := handshakeSecret sha256 psk kemSharedSecret
      .ok
        { deviceFinishedKey := expandedLabel sha256 32 (by decide) handshake
            "C0PQ/1 device finished" transcriptHash
          serverFinishedKey := expandedLabel sha256 32 (by decide) handshake
            "C0PQ/1 server finished" transcriptHash
          clientTrafficKey := expandedLabel sha256 16 (by decide) handshake
            "C0PQ/1 client traffic" transcriptHash
          serverTrafficKey := expandedLabel sha256 16 (by decide) handshake
            "C0PQ/1 server traffic" transcriptHash
          clientNonceBase := expandedLabel sha256 16 (by decide) handshake
            "C0PQ/1 client nonce" transcriptHash
          serverNonceBase := expandedLabel sha256 16 (by decide) handshake
            "C0PQ/1 server nonce" transcriptHash
          clientChainKey := expandedLabel sha256 32 (by decide) handshake
            "C0PQ/1 client chain" transcriptHash
          serverChainKey := expandedLabel sha256 32 (by decide) handshake
            "C0PQ/1 server chain" transcriptHash } := by
  have h32 (secret : Block 32) {label : String} (hl : (ascii label).length ≤ 31) :=
    expandTextLabel_eq sha256 (by decide : 0 < 32) (by decide) secret hl transcriptHash
  have h16 (secret : Block 32) {label : String} (hl : (ascii label).length ≤ 31) :=
    expandTextLabel_eq sha256 (by decide : 0 < 16) (by decide) secret hl transcriptHash
  simp (disch := decide) only [deriveSessionKeys,
    hkdfSha256Expand_one_block sha256 (by decide : 0 < 32) (by decide), except_ok_bind, h32, h16]
  rfl

theorem deriveHelloKey_eq (psk : Block 32) :
    deriveHelloKey sha256 psk
      = hmacPrefix sha256 32 (by decide) (extractPsk sha256 psk).val
          (ascii "C0PQ/1 hello key" ++ [1]) := by
  rw [deriveHelloKey, hkdfSha256Expand_one_block sha256 (by decide) (by decide)]
  rfl

/-! ## Finished tags -/

def finishedTag (finishedKey : Block 32) (frameType : UInt8) (sessionId : UInt32)
    (transcriptHash : Block 32) : Block 16 :=
  authTag sha256 finishedKey "C0PQ/1 finished tag"
    (writeHeader frameType 0 16 sessionId ++ transcriptHash.val)

end C0PQLink
