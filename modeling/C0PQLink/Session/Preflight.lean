import C0PQLink.Session.Crypto

/-!
# Hello and challenge

The two preflight frames of `session/preflight.c`.

* `decodeVerifyHello_iff`, `decodeVerifyChallenge_iff`: the frames that are accepted are
  those that are encoded from the fields read off them.
-/

namespace C0PQLink

open Foundation

variable (sha256 : Bytes → Block 32)

structure Hello where
  suite : UInt16
  deviceId : Block 8
  epoch : UInt64
  deviceNonce : Block 16
  deriving DecidableEq

structure Challenge where
  suite : UInt16
  epoch : UInt64
  keyId : Block 16
  deviceNonce : Block 16
  serverNonce : Block 16
  deriving DecidableEq

/-! ## Hello -/

/-- The 44 bytes of a hello that its tag covers. -/
def helloCore (sessionId : UInt32) (hello : Hello) : Bytes :=
  writeHeader frameHello 0 50 sessionId ++ store16BE hello.suite ++ hello.deviceId.val
    ++ store64BE hello.epoch ++ hello.deviceNonce.val

@[simp] theorem length_helloCore (sessionId : UInt32) (hello : Hello) :
    (helloCore sessionId hello).length = 44 := by
  simp [helloCore, writeHeader_of_le (show (50 : UInt16) ≤ 255 by decide)]

/-- A hello with its tag. -/
def helloFrame (sessionId : UInt32) (hello : Hello) (psk : Block 32) : Block 60 :=
  ⟨helloCore sessionId hello
    ++ (authTag sha256 (deriveHelloKey sha256 psk) "C0PQ/1 hello frame"
      (helloCore sessionId hello)).val, by simp⟩

def encodeHello (sessionId : UInt32) (hello : Hello) (psk : Block 32) :
    Except Status (Block 60) :=
  if hello.suite ≠ suiteMlkem512HkdfSha256Ascon128 then .error .errArgument
  else .ok (helloFrame sha256 sessionId hello psk)

/-- The hello and the session id of its header. -/
def decodeVerifyHello (frame : Bytes) (psk : Block 32) : Except Status (Hello × UInt32) :=
  if h : frame.length ≠ 60 then .error .errArgument
  else
    match decodeHeader frame with
    | .error _ => .error .errState
    | .ok header =>
      if header.type ≠ frameHello ∨ header.flags ≠ 0 ∨ header.payloadLength ≠ 50 then
        .error .errState
      else
        match verifyAuthTag sha256 (slice frame 44 16) (deriveHelloKey sha256 psk)
            "C0PQ/1 hello frame" (slice frame 0 44) with
        | .ok =>
          let hello : Hello :=
            { suite := load16BE (slice frame 10 2)
              deviceId := blockAt frame 12 8 (by omega)
              epoch := load64BE (slice frame 20 8)
              deviceNonce := blockAt frame 28 16 (by omega) }
          if hello.suite ≠ suiteMlkem512HkdfSha256Ascon128 then .error .errState
          else .ok (hello, header.sessionId)
        | failure => .error failure

/-! ## Challenge -/

/-- The 68 bytes of a challenge that its tag covers. -/
def challengeCore (sessionId : UInt32) (challenge : Challenge) : Bytes :=
  writeHeader frameChallenge 0 74 sessionId ++ store16BE challenge.suite
    ++ store64BE challenge.epoch ++ challenge.keyId.val ++ challenge.deviceNonce.val
    ++ challenge.serverNonce.val

@[simp] theorem length_challengeCore (sessionId : UInt32) (challenge : Challenge) :
    (challengeCore sessionId challenge).length = 68 := by
  simp [challengeCore, writeHeader_of_le (show (74 : UInt16) ≤ 255 by decide)]

/-- The session auth key of the fields of a challenge. -/
def challengeAuthKey (psk : Block 32) (challenge : Challenge) : Block 32 :=
  deriveSessionAuthKey sha256 psk challenge.suite challenge.epoch challenge.keyId
    challenge.deviceNonce challenge.serverNonce

/-- A challenge with its tag. -/
def challengeFrame (sessionId : UInt32) (challenge : Challenge) (psk : Block 32) : Block 84 :=
  ⟨challengeCore sessionId challenge
    ++ (authTag sha256 (challengeAuthKey sha256 psk challenge) "C0PQ/1 challenge frame"
      (challengeCore sessionId challenge)).val, by simp⟩

def encodeChallenge (sessionId : UInt32) (challenge : Challenge) (psk : Block 32) :
    Except Status (Block 84) :=
  if challenge.suite ≠ suiteMlkem512HkdfSha256Ascon128 then .error .errArgument
  else .ok (challengeFrame sha256 sessionId challenge psk)

/-- The fields of a challenge frame. -/
def challengeFields (frame : Bytes) (h : frame.length = 84) : Challenge :=
  { suite := load16BE (slice frame 10 2)
    epoch := load64BE (slice frame 12 8)
    keyId := blockAt frame 20 16 (by omega)
    deviceNonce := blockAt frame 36 16 (by omega)
    serverNonce := blockAt frame 52 16 (by omega) }

def decodeVerifyChallenge (expectedSessionId : UInt32) (frame : Bytes) (psk : Block 32) :
    Except Status Challenge :=
  if h : frame.length ≠ 84 then .error .errArgument
  else
    match decodeHeader frame with
    | .error _ => .error .errState
    | .ok header =>
      if header.type ≠ frameChallenge ∨ header.flags ≠ 0 ∨ header.sessionId ≠ expectedSessionId
          ∨ header.payloadLength ≠ 74 then .error .errState
      else
        let challenge := challengeFields frame (not_not.mp h)
        if challenge.suite ≠ suiteMlkem512HkdfSha256Ascon128 then .error .errState
        else
          match verifyAuthTag sha256 (slice frame 68 16) (challengeAuthKey sha256 psk challenge)
              "C0PQ/1 challenge frame" (slice frame 0 68) with
          | .ok => .ok challenge
          | failure => .error failure

/-! ## Accepted frames -/

theorem slice_zero (b : Bytes) (n : Nat) : slice b 0 n = b.take n := rfl

/-- The first ten bytes of a frame whose header is accepted. -/
theorem take_of_decodeHeader {frame : Bytes} {header : FrameHeader}
    (h : decodeHeader frame = .ok header) :
    frame.take 10 = headerBytes header.type header.flags header.payloadLength.toUInt8
      header.sessionId := by
  conv_lhs => rw [(frame_of_decodeHeader h).1]
  exact List.take_left' (length_headerBytes ..)

theorem helloCore_eq (sessionId : UInt32) (hello : Hello) :
    helloCore sessionId hello = headerBytes frameHello 0 50 sessionId ++ store16BE hello.suite
      ++ hello.deviceId.val ++ store64BE hello.epoch ++ hello.deviceNonce.val := by
  rw [helloCore, writeHeader_of_le (by decide)]
  rfl

theorem challengeCore_eq (sessionId : UInt32) (challenge : Challenge) :
    challengeCore sessionId challenge = headerBytes frameChallenge 0 74 sessionId
      ++ store16BE challenge.suite ++ store64BE challenge.epoch ++ challenge.keyId.val
      ++ challenge.deviceNonce.val ++ challenge.serverNonce.val := by
  rw [challengeCore, writeHeader_of_le (by decide)]
  rfl

/-- The fields of a hello frame. -/
def helloFields (frame : Bytes) (h : frame.length = 60) : Hello :=
  { suite := load16BE (slice frame 10 2)
    deviceId := blockAt frame 12 8 (by omega)
    epoch := load64BE (slice frame 20 8)
    deviceNonce := blockAt frame 28 16 (by omega) }

/-- The core of a frame with the header of a hello is the one of its fields. -/
theorem helloCore_fields {frame : Bytes} {sessionId : UInt32} (h : frame.length = 60)
    (hheader : frame.take 10 = headerBytes frameHello 0 50 sessionId) :
    helloCore sessionId (helloFields frame h) = slice frame 0 44 := by
  have hsuite : store16BE (helloFields frame h).suite = slice frame 10 2 :=
    store16BE_load16BE (by rw [length_slice]; omega)
  have hepoch : store64BE (helloFields frame h).epoch = slice frame 20 8 :=
    store64BE_load64BE (by rw [length_slice]; omega)
  have hid : (helloFields frame h).deviceId.val = slice frame 12 8 := rfl
  have hnonce : (helloFields frame h).deviceNonce.val = slice frame 28 16 := rfl
  rw [helloCore_eq, ← hheader, ← slice_zero, hsuite, hepoch, hid, hnonce]
  simp only [slice_append_slice frame 0 10 2, slice_append_slice frame 0 12 8,
    slice_append_slice frame 0 20 8, slice_append_slice frame 0 28 16]

/-- The core of a frame with the header of a challenge is the one of its fields. -/
theorem challengeCore_fields {frame : Bytes} {sessionId : UInt32} (h : frame.length = 84)
    (hheader : frame.take 10 = headerBytes frameChallenge 0 74 sessionId) :
    challengeCore sessionId (challengeFields frame h) = slice frame 0 68 := by
  have hsuite : store16BE (challengeFields frame h).suite = slice frame 10 2 :=
    store16BE_load16BE (by rw [length_slice]; omega)
  have hepoch : store64BE (challengeFields frame h).epoch = slice frame 12 8 :=
    store64BE_load64BE (by rw [length_slice]; omega)
  have hkey : (challengeFields frame h).keyId.val = slice frame 20 16 := rfl
  have hdevice : (challengeFields frame h).deviceNonce.val = slice frame 36 16 := rfl
  have hserver : (challengeFields frame h).serverNonce.val = slice frame 52 16 := rfl
  rw [challengeCore_eq, ← hheader, ← slice_zero, hsuite, hepoch, hkey, hdevice, hserver]
  simp only [slice_append_slice frame 0 10 2, slice_append_slice frame 0 12 8,
    slice_append_slice frame 0 20 16, slice_append_slice frame 0 36 16,
    slice_append_slice frame 0 52 16]

theorem decodeHeader_helloFrame (sessionId : UInt32) (hello : Hello) (psk : Block 32) :
    decodeHeader (helloFrame sha256 sessionId hello psk).val
      = .ok { type := frameHello, flags := 0, payloadLength := 50, sessionId } := by
  simp only [helloFrame, helloCore_eq, List.append_assoc]
  exact decodeHeader_headerBytes frameHello 0 sessionId (by simp)

theorem decodeHeader_challengeFrame (sessionId : UInt32) (challenge : Challenge)
    (psk : Block 32) :
    decodeHeader (challengeFrame sha256 sessionId challenge psk).val
      = .ok { type := frameChallenge, flags := 0, payloadLength := 74, sessionId } := by
  simp only [challengeFrame, challengeCore_eq, List.append_assoc]
  exact decodeHeader_headerBytes frameChallenge 0 sessionId (by simp)

theorem helloFields_helloFrame (sessionId : UInt32) (hello : Hello) (psk : Block 32) :
    helloFields (helloFrame sha256 sessionId hello psk).val (Block.length_val _) = hello := by
  have hsuite : slice (helloFrame sha256 sessionId hello psk).val 10 2
      = store16BE hello.suite := rfl
  have hepoch : slice (helloFrame sha256 sessionId hello psk).val 20 8
      = store64BE hello.epoch := by
    simp only [helloFrame, helloCore_eq]
    rw [slice_append_left (by simp), slice_append_left (by simp)]
    exact slice_last (by simp) (by simp)
  have hid : slice (helloFrame sha256 sessionId hello psk).val 12 8 = hello.deviceId.val := by
    simp only [helloFrame, helloCore_eq]
    rw [slice_append_left (by simp), slice_append_left (by simp), slice_append_left (by simp)]
    exact slice_last (by simp) (by simp)
  have hnonce : slice (helloFrame sha256 sessionId hello psk).val 28 16
      = hello.deviceNonce.val := by
    simp only [helloFrame, helloCore_eq]
    rw [slice_append_left (by simp)]
    exact slice_last (by simp) (by simp)
  have hidBlock : blockAt (helloFrame sha256 sessionId hello psk).val 12 8 (by simp)
      = hello.deviceId := Block.ext hid
  have hnonceBlock : blockAt (helloFrame sha256 sessionId hello psk).val 28 16 (by simp)
      = hello.deviceNonce := Block.ext hnonce
  simp only [helloFields, hsuite, hepoch, hidBlock, hnonceBlock, load16BE_store16BE,
    load64BE_store64BE]

theorem challengeFields_challengeFrame (sessionId : UInt32) (challenge : Challenge)
    (psk : Block 32) :
    challengeFields (challengeFrame sha256 sessionId challenge psk).val (Block.length_val _)
      = challenge := by
  have hsuite : slice (challengeFrame sha256 sessionId challenge psk).val 10 2
      = store16BE challenge.suite := rfl
  have hepoch : slice (challengeFrame sha256 sessionId challenge psk).val 12 8
      = store64BE challenge.epoch := rfl
  have hkey : slice (challengeFrame sha256 sessionId challenge psk).val 20 16
      = challenge.keyId.val := by
    simp only [challengeFrame, challengeCore_eq]
    rw [slice_append_left (by simp), slice_append_left (by simp), slice_append_left (by simp)]
    exact slice_last (by simp) (by simp)
  have hdevice : slice (challengeFrame sha256 sessionId challenge psk).val 36 16
      = challenge.deviceNonce.val := by
    simp only [challengeFrame, challengeCore_eq]
    rw [slice_append_left (by simp), slice_append_left (by simp)]
    exact slice_last (by simp) (by simp)
  have hserver : slice (challengeFrame sha256 sessionId challenge psk).val 52 16
      = challenge.serverNonce.val := by
    simp only [challengeFrame, challengeCore_eq]
    rw [slice_append_left (by simp)]
    exact slice_last (by simp) (by simp)
  have hkeyBlock : blockAt (challengeFrame sha256 sessionId challenge psk).val 20 16 (by simp)
      = challenge.keyId := Block.ext hkey
  have hdeviceBlock : blockAt (challengeFrame sha256 sessionId challenge psk).val 36 16 (by simp)
      = challenge.deviceNonce := Block.ext hdevice
  have hserverBlock : blockAt (challengeFrame sha256 sessionId challenge psk).val 52 16 (by simp)
      = challenge.serverNonce := Block.ext hserver
  simp only [challengeFields, hsuite, hepoch, hkeyBlock, hdeviceBlock, hserverBlock,
    load16BE_store16BE, load64BE_store64BE]

/-- A frame whose core is the one of its fields and whose tag verifies is encoded from them. -/
theorem eq_helloFrame {frame : Bytes} {sessionId : UInt32} {psk : Block 32}
    (h : frame.length = 60)
    (hcore : helloCore sessionId (helloFields frame h) = slice frame 0 44)
    (htag : (authTag sha256 (deriveHelloKey sha256 psk) "C0PQ/1 hello frame"
      (slice frame 0 44)).val = slice frame 44 16) :
    frame = (helloFrame sha256 sessionId (helloFields frame h) psk).val := by
  have hframe : slice frame 0 44 ++ slice frame 44 16 = frame := by
    rw [slice_append_slice frame 0 44 16, slice_self frame h]
  simp only [helloFrame, hcore, htag]
  exact hframe.symm

theorem decodeVerifyHello_iff {frame : Bytes} {psk : Block 32} {hello : Hello}
    {sessionId : UInt32} :
    decodeVerifyHello sha256 frame psk = .ok (hello, sessionId) ↔
      hello.suite = suiteMlkem512HkdfSha256Ascon128 ∧
        frame = (helloFrame sha256 sessionId hello psk).val := by
  constructor
  · intro h
    unfold decodeVerifyHello at h
    split at h
    · cases h
    rename_i hlength
    have hlength := not_not.mp hlength
    split at h
    · cases h
    rename_i header hheader
    split at h
    · cases h
    rename_i hshape
    simp only [not_or, not_not] at hshape
    obtain ⟨htype, hflags, hpayload⟩ := hshape
    split at h
    · rename_i htag
      simp only at h
      split at h
      · cases h
      rename_i hsuite
      cases h
      have hhead := take_of_decodeHeader hheader
      rw [htype, hflags, hpayload] at hhead
      exact ⟨not_not.mp hsuite, eq_helloFrame sha256 hlength (helloCore_fields hlength hhead)
        ((verifyAuthTag_eq_ok sha256).mp htag)⟩
    · cases h
  · rintro ⟨hsuite, rfl⟩
    have hfields := helloFields_helloFrame sha256 sessionId hello psk
    have hcore : slice (helloFrame sha256 sessionId hello psk).val 0 44
        = helloCore sessionId hello := slice_self_append (length_helloCore sessionId hello)
    have htag : slice (helloFrame sha256 sessionId hello psk).val 44 16
        = (authTag sha256 (deriveHelloKey sha256 psk) "C0PQ/1 hello frame"
          (helloCore sessionId hello)).val :=
      slice_last (length_helloCore sessionId hello) (by simp)
    unfold decodeVerifyHello
    rw [dif_neg (by simp), decodeHeader_helloFrame]
    simp only [hcore, htag, verifyAuthTag, if_true, ne_eq, not_true, or_self, if_false]
    change (if ¬ (helloFields _ (Block.length_val _)).suite = suiteMlkem512HkdfSha256Ascon128 then
      _ else Except.ok (helloFields _ (Block.length_val _), sessionId)) = _
    rw [hfields, if_neg (not_not.mpr hsuite)]

/-- A frame whose core is the one of its fields and whose tag verifies is encoded from them. -/
theorem eq_challengeFrame {frame : Bytes} {sessionId : UInt32} {psk : Block 32}
    (h : frame.length = 84)
    (hcore : challengeCore sessionId (challengeFields frame h) = slice frame 0 68)
    (htag : (authTag sha256 (challengeAuthKey sha256 psk (challengeFields frame h))
      "C0PQ/1 challenge frame" (slice frame 0 68)).val = slice frame 68 16) :
    frame = (challengeFrame sha256 sessionId (challengeFields frame h) psk).val := by
  have hframe : slice frame 0 68 ++ slice frame 68 16 = frame := by
    rw [slice_append_slice frame 0 68 16, slice_self frame h]
  simp only [challengeFrame, hcore, htag]
  exact hframe.symm

theorem decodeVerifyChallenge_iff {expectedSessionId : UInt32} {frame : Bytes} {psk : Block 32}
    {challenge : Challenge} :
    decodeVerifyChallenge sha256 expectedSessionId frame psk = .ok challenge ↔
      challenge.suite = suiteMlkem512HkdfSha256Ascon128 ∧
        frame = (challengeFrame sha256 expectedSessionId challenge psk).val := by
  constructor
  · intro h
    unfold decodeVerifyChallenge at h
    split at h
    · cases h
    rename_i hlength
    have hlength := not_not.mp hlength
    split at h
    · cases h
    rename_i header hheader
    split at h
    · cases h
    rename_i hshape
    simp only [not_or, not_not] at hshape
    obtain ⟨htype, hflags, hid, hpayload⟩ := hshape
    simp only at h
    split at h
    · cases h
    rename_i hsuite
    split at h
    · rename_i htag
      cases h
      have hhead := take_of_decodeHeader hheader
      rw [htype, hflags, hpayload, hid] at hhead
      exact ⟨not_not.mp hsuite, eq_challengeFrame sha256 hlength
        (challengeCore_fields hlength hhead) ((verifyAuthTag_eq_ok sha256).mp htag)⟩
    · cases h
  · rintro ⟨hsuite, rfl⟩
    have hfields := challengeFields_challengeFrame sha256 expectedSessionId challenge psk
    have hcore : slice (challengeFrame sha256 expectedSessionId challenge psk).val 0 68
        = challengeCore expectedSessionId challenge :=
      slice_self_append (length_challengeCore expectedSessionId challenge)
    have htag : slice (challengeFrame sha256 expectedSessionId challenge psk).val 68 16
        = (authTag sha256 (challengeAuthKey sha256 psk challenge) "C0PQ/1 challenge frame"
          (challengeCore expectedSessionId challenge)).val :=
      slice_last (length_challengeCore expectedSessionId challenge) (by simp)
    unfold decodeVerifyChallenge
    rw [dif_neg (by simp), decodeHeader_challengeFrame]
    simp only [hfields, hsuite, hcore, htag, verifyAuthTag, if_true, ne_eq, not_true, or_self,
      if_false]

end C0PQLink
