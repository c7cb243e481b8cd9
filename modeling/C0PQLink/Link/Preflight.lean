import C0PQLink.ReferencePeer.Handshake

/-!
# Hello and challenge between the client and the peer

The preflight frames of `session/preflight.c` and of `protocol.mjs` are the same: each side
accepts exactly what the other one encodes, and both read the same fields off it.

* `parseHello_iff`: the peer accepts a hello exactly when `c0pq_decode_verify_hello` does.
* `encodeChallenge_eq_client`: the challenge of the peer and its session auth key are those
  of the client.
* `preflight_agrees`: the frames, the fields and the keys of both sides.
-/

namespace C0PQLink.Link

open Foundation ReferencePeer

variable (sha256 : Bytes → Block 32)

/-! ## Hello -/

/-- What the peer reads off a hello of the given device. -/
def parsedHello (hello : Hello) (sessionId : UInt32) (device : Device) : ParsedHello where
  header := { type := frameHello, flags := 0, payloadLength := 50, sessionId }
  suite := hello.suite
  deviceId := hello.deviceId
  epoch := hello.epoch.toNat
  deviceNonce := hello.deviceNonce
  device := device

variable {frame : Bytes} {lookup : Block 8 → Except PeerError (Option Device)} {device : Device}
  {parsed : ParsedHello}

theorem load16BE_eq (frame : Bytes) {start : Nat} (h : start + 2 ≤ frame.length) :
    UInt16.ofNat (beNat (slice frame start 2)) = load16BE (slice frame start 2) := by
  rw [← toNat_load16BE (by rw [length_slice]; omega), UInt16.ofNat_toNat]

/-- The header of a frame that the peer reads as a hello. -/
theorem take_of_helloAccepted (h : HelloAccepted sha256 frame lookup parsed) :
    frame.take 10 = headerBytes frameHello 0 50 parsed.header.sessionId
      ∧ parsed.header.payloadLength = 50 := by
  have hpeer := h.header
  rw [decodeHeader_eq] at hpeer
  cases hheader : C0PQLink.decodeHeader frame with
  | error failure =>
    rw [hheader] at hpeer
    cases hpeer
  | ok header =>
    rw [hheader] at hpeer
    have hparsed := Except.ok.inj hpeer
    have htype : header.type = frameHello := by rw [← h.type, ← hparsed]
    have hflags : header.flags = 0 := by rw [← h.flags, ← hparsed]
    have hlength := (frame_of_decodeHeader hheader).2
    rw [h.length] at hlength
    have hpayload : header.payloadLength = 50 := by
      apply UInt16.toNat_inj.mp
      change header.payloadLength.toNat = 50
      omega
    have hhead := take_of_decodeHeader hheader
    rw [htype, hflags, hpayload] at hhead
    rw [← hparsed, hpayload]
    exact ⟨hhead, rfl⟩

/-- A hello that the peer accepts is one that the client encodes. -/
theorem helloAccepted_decodes (h : HelloAccepted sha256 frame lookup parsed) :
    ∃ hello sessionId,
      decodeVerifyHello sha256 frame parsed.device.psk = .ok (hello, sessionId) := by
  obtain ⟨hhead, hpayload⟩ := take_of_helloAccepted sha256 h
  have hsuite := h.suite
  rw [load16BE_eq frame (by rw [h.length]; omega)] at hsuite
  have htag : frame.drop 44 = slice frame 44 16 := by
    rw [slice, List.take_of_length_le (by rw [List.length_drop, h.length])]
  refine ⟨helloFields frame h.length, parsed.header.sessionId, ?_⟩
  refine (decodeVerifyHello_iff sha256).mpr ⟨hsuite, ?_⟩
  exact eq_helloFrame sha256 h.length (helloCore_fields h.length hhead) (h.tag.trans htag)

theorem parseHello_helloFrame {hello : Hello} {sessionId : UInt32}
    (hsuite : hello.suite = suiteMlkem512HkdfSha256Ascon128)
    (hlookup : lookup hello.deviceId = .ok (some device)) :
    parseHello sha256 (helloFrame sha256 sessionId hello device.psk).val lookup
      = .ok (parsedHello hello sessionId device) := by
  have hheader : ReferencePeer.decodeHeader (helloFrame sha256 sessionId hello device.psk).val
      = .ok { type := frameHello, flags := 0, payloadLength := 50, sessionId } := by
    rw [decodeHeader_eq, decodeHeader_helloFrame]
    rfl
  have hlength : (helloFrame sha256 sessionId hello device.psk).val.length = 60 := by simp
  have hfields := helloFields_helloFrame sha256 sessionId hello device.psk
  have hsuite' : UInt16.ofNat (beNat (slice (helloFrame sha256 sessionId hello device.psk).val 10 2))
      = hello.suite := by
    rw [load16BE_eq _ (by simp)]
    exact congrArg Hello.suite hfields
  have hid : blockAt (helloFrame sha256 sessionId hello device.psk).val 12 8 (by simp)
      = hello.deviceId := congrArg Hello.deviceId hfields
  have hepoch : beNat (slice (helloFrame sha256 sessionId hello device.psk).val 20 8)
      = hello.epoch.toNat := by
    rw [← toNat_load64BE (by simp)]
    exact congrArg (fun hello => hello.epoch.toNat) hfields
  have hnonce : blockAt (helloFrame sha256 sessionId hello device.psk).val 28 16 (by simp)
      = hello.deviceNonce := congrArg Hello.deviceNonce hfields
  have hcore : slice (helloFrame sha256 sessionId hello device.psk).val 0 44
      = helloCore sessionId hello := slice_self_append (length_helloCore sessionId hello)
  have htag : (helloFrame sha256 sessionId hello device.psk).val.drop 44
      = (C0PQLink.authTag sha256 (C0PQLink.deriveHelloKey sha256 device.psk) "C0PQ/1 hello frame"
        (helloCore sessionId hello)).val := List.drop_left' (length_helloCore sessionId hello)
  unfold parseHello
  simp only [hheader, except_ok_bind, hlength, hsuite', hid, hepoch, hnonce, hlookup,
    deriveHelloKey_eq_client, authTag_eq, hcore, htag, hsuite, ne_eq, not_true, if_false,
    except_pure]
  rw [dif_pos (by simp), parsedHello, hsuite]

/-- The peer accepts the hellos that the client accepts, and reads the same fields. -/
theorem parseHello_iff
    (hlookup : ∀ id : Block 8, id.val = slice frame 12 8 → lookup id = .ok (some device)) :
    parseHello sha256 frame lookup = .ok parsed ↔
      ∃ hello sessionId, decodeVerifyHello sha256 frame device.psk = .ok (hello, sessionId) ∧
        parsed = parsedHello hello sessionId device := by
  have hdecoded {hello : Hello} {sessionId : UInt32}
      (h : decodeVerifyHello sha256 frame device.psk = .ok (hello, sessionId)) :
      parseHello sha256 frame lookup = .ok (parsedHello hello sessionId device) := by
    obtain ⟨hsuite, rfl⟩ := (decodeVerifyHello_iff sha256).mp h
    refine parseHello_helloFrame sha256 hsuite (hlookup _ ?_)
    exact (congrArg (fun hello : Hello => hello.deviceId.val)
      (helloFields_helloFrame sha256 sessionId hello device.psk)).symm
  constructor
  · intro h
    have haccepted := parseHello_ok sha256 h
    obtain ⟨hello, sessionId, hdecodes⟩ := helloAccepted_decodes sha256 haccepted
    have hdevice : parsed.device = device :=
      Option.some.inj (Except.ok.inj (haccepted.device.symm.trans
        (hlookup _ haccepted.deviceId)))
    rw [hdevice] at hdecodes
    exact ⟨hello, sessionId, hdecodes, Except.ok.inj (h.symm.trans (hdecoded hdecodes))⟩
  · rintro ⟨hello, sessionId, hdecodes, rfl⟩
    exact hdecoded hdecodes

/-! ## Challenge -/

/-- The challenge of the peer, and its session auth key, are those of the client. -/
theorem encodeChallenge_eq_client (sessionId : UInt32) (challenge : Challenge) (psk : Block 32)
    (hsuite : challenge.suite = suiteMlkem512HkdfSha256Ascon128) :
    ReferencePeer.encodeChallenge sha256 sessionId psk challenge.epoch.toNat challenge.keyId
        challenge.deviceNonce challenge.serverNonce
      = .ok ((challengeFrame sha256 sessionId challenge psk).val,
          challengeAuthKey sha256 psk challenge) := by
  have hheader : ReferencePeer.encodeHeader frameChallenge 0 74 sessionId
      = .ok (headerBytes frameChallenge 0 74 sessionId) :=
    encodeHeader_of_le frameChallenge 0 sessionId (by omega)
  simp only [ReferencePeer.encodeChallenge, hheader, u64_toNat, except_ok_bind, except_pure,
    deriveSessionAuthKey_eq_client, challengeFrame, challengeCore_eq, challengeAuthKey, hsuite,
    u16, store16BE_eq]
  rfl

/-! ## Both sides -/

/-- The frames that `psk` authenticates, the fields on them and the keys, on both sides. -/
structure PreflightAgrees (psk : Block 32) : Prop where
  hello : ∀ frame hello sessionId,
    decodeVerifyHello sha256 frame psk = .ok (hello, sessionId) ↔
      ∃ encoded, encodeHello sha256 sessionId hello psk = .ok encoded ∧ frame = encoded.val
  peerHello : ∀ frame lookup device parsed, device.psk = psk →
    (∀ id : Block 8, id.val = slice frame 12 8 → lookup id = .ok (some device)) →
      (parseHello sha256 frame lookup = .ok parsed ↔
        ∃ hello sessionId, decodeVerifyHello sha256 frame psk = .ok (hello, sessionId) ∧
          parsed = parsedHello hello sessionId device)
  challenge : ∀ expectedSessionId frame challenge,
    decodeVerifyChallenge sha256 expectedSessionId frame psk = .ok challenge ↔
      ∃ encoded, C0PQLink.encodeChallenge sha256 expectedSessionId challenge psk = .ok encoded ∧
        frame = encoded.val
  peerChallenge : ∀ expectedSessionId frame challenge,
    decodeVerifyChallenge sha256 expectedSessionId frame psk = .ok challenge ↔
      challenge.suite = suiteMlkem512HkdfSha256Ascon128 ∧
        ReferencePeer.encodeChallenge sha256 expectedSessionId psk challenge.epoch.toNat
          challenge.keyId challenge.deviceNonce challenge.serverNonce
            = .ok (frame, challengeAuthKey sha256 psk challenge)
  helloRoundTrip : ∀ hello sessionId, hello.suite = suiteMlkem512HkdfSha256Ascon128 →
    ∃ encoded, encodeHello sha256 sessionId hello psk = .ok encoded ∧
      decodeVerifyHello sha256 encoded.val psk = .ok (hello, sessionId)
  challengeRoundTrip : ∀ challenge sessionId, challenge.suite = suiteMlkem512HkdfSha256Ascon128 →
    ∃ encoded, C0PQLink.encodeChallenge sha256 sessionId challenge psk = .ok encoded ∧
      decodeVerifyChallenge sha256 sessionId encoded.val psk = .ok challenge

theorem encodeHello_iff {sessionId : UInt32} {hello : Hello} {psk : Block 32} :
    (∃ encoded, encodeHello sha256 sessionId hello psk = .ok encoded ∧ frame = encoded.val) ↔
      hello.suite = suiteMlkem512HkdfSha256Ascon128 ∧
        frame = (helloFrame sha256 sessionId hello psk).val := by
  unfold encodeHello
  split
  · rename_i hsuite
    simp [hsuite]
  · rename_i hsuite
    simp [not_not.mp hsuite]

theorem encodeChallenge_iff {sessionId : UInt32} {challenge : Challenge} {psk : Block 32} :
    (∃ encoded, C0PQLink.encodeChallenge sha256 sessionId challenge psk = .ok encoded ∧
        frame = encoded.val) ↔
      challenge.suite = suiteMlkem512HkdfSha256Ascon128 ∧
        frame = (challengeFrame sha256 sessionId challenge psk).val := by
  unfold C0PQLink.encodeChallenge
  split
  · rename_i hsuite
    simp [hsuite]
  · rename_i hsuite
    simp [not_not.mp hsuite]

theorem preflight_agrees (psk : Block 32) : PreflightAgrees sha256 psk := by
  refine ⟨?_, ?_, ?_, ?_, ?_, ?_⟩
  · intro frame hello sessionId
    rw [encodeHello_iff]
    exact decodeVerifyHello_iff sha256
  · rintro frame lookup device parsed rfl hlookup
    exact parseHello_iff sha256 hlookup
  · intro sessionId frame challenge
    rw [encodeChallenge_iff]
    exact decodeVerifyChallenge_iff sha256
  · intro sessionId frame challenge
    rw [decodeVerifyChallenge_iff]
    refine and_congr_right fun hsuite => ?_
    rw [encodeChallenge_eq_client sha256 sessionId challenge psk hsuite]
    constructor
    · rintro rfl
      rfl
    · intro h
      exact (congrArg Prod.fst (Except.ok.inj h)).symm
  · intro hello sessionId hsuite
    obtain ⟨encoded, hencoded, hframe⟩ := (encodeHello_iff sha256).mpr
      ⟨hsuite, (rfl : (helloFrame sha256 sessionId hello psk).val = _)⟩
    refine ⟨encoded, hencoded, (decodeVerifyHello_iff sha256).mpr ⟨hsuite, hframe.symm⟩⟩
  · intro challenge sessionId hsuite
    obtain ⟨encoded, hencoded, hframe⟩ := (encodeChallenge_iff sha256).mpr
      ⟨hsuite, (rfl : (challengeFrame sha256 sessionId challenge psk).val = _)⟩
    refine ⟨encoded, hencoded, (decodeVerifyChallenge_iff sha256).mpr ⟨hsuite, hframe.symm⟩⟩

end C0PQLink.Link
