import C0PQLink.Core.MlKem512Callbacks
import C0PQLink.Link.LossyLink
import C0PQLink.Link.Preflight
import C0PQLink.ReferencePeer.Reassembly
import C0PQLink.Session.Connect

/-!
# The conversation of a handshake

The eighteen requests of a handshake, hello, sixteen fragments and Finished, with the answers
of the peer and the states that it goes through. Every request can be repeated.

* `serves_hello`, `serves_fragment`, `serves_finished`: the peer answers each request, and
  answers it again without a change.
* `serve_earlier`: it does so at any later point of the handshake.
* `Handshake.conversation`: the eighteen exchanges one after another.
* `Handshake.ciphertext_sessionAt`: the session holds the whole ciphertext after them.
-/

namespace C0PQLink.Link

open Foundation ReferencePeer

/-! ## The data of a handshake -/

/-- A client that connects, and what both ends draw. -/
structure Handshake where
  client : Client
  publicKey : Block 800
  deviceNonce : Block 16
  serverNonce : Block 16
  randomness : Block 32

namespace Handshake

variable (sha256 : Bytes → Block 32) (hashes : Fips203.Hashes) (h : Handshake)

def sessionId : UInt32 := sessionIdOf h.deviceNonce

def device : Device := ⟨h.client.config.psk, h.client.config.mode⟩

def hello : Hello where
  suite := suiteMlkem512HkdfSha256Ascon128
  deviceId := h.client.config.deviceId
  epoch := h.client.config.epoch
  deviceNonce := h.deviceNonce

def challenge : Challenge where
  suite := suiteMlkem512HkdfSha256Ascon128
  epoch := h.client.config.epoch
  keyId := h.client.config.publicKeyId
  deviceNonce := h.deviceNonce
  serverNonce := h.serverNonce

def helloFrame : Bytes := (C0PQLink.helloFrame sha256 h.sessionId h.hello h.client.config.psk).val

def challengeFrame : Bytes :=
  (C0PQLink.challengeFrame sha256 h.sessionId h.challenge h.client.config.psk).val

def authKey : Block 32 := challengeAuthKey sha256 h.client.config.psk h.challenge

theorem length_encapsulated :
    (Fips203.encapsInternal hashes h.publicKey h.randomness).2.length = 768 := by
  simp [Fips203.encapsInternal, Fips203.encrypt, Fips203.byteEncode]

def ciphertext : Block 768 :=
  ⟨(Fips203.encapsInternal hashes h.publicKey h.randomness).2, h.length_encapsulated hashes⟩

def sharedSecret : Block 32 := (Fips203.encapsInternal hashes h.publicKey h.randomness).1

theorem length_chunk (k : Nat) :
    (slice ((h.ciphertext hashes).val ++ List.replicate (48 * (k + 1)) 0) (48 * k) 48).length
      = 48 := by
  simp only [length_slice, List.length_append, Block.length_val, List.length_replicate]
  omega

/-- The 48 bytes of the ciphertext in fragment `k`. -/
def chunk (k : Nat) : Block 48 :=
  ⟨slice ((h.ciphertext hashes).val ++ List.replicate (48 * (k + 1)) 0) (48 * k) 48,
    h.length_chunk hashes k⟩

/-- The transcript of both ends. -/
def transcript : Bytes :=
  ascii "C0PQ/1 transcript" ++ helloCore h.sessionId h.hello
    ++ challengeCore h.sessionId h.challenge ++ (h.ciphertext hashes).val

theorem chunk_val {k : Nat} (hk : k < 16) :
    (h.chunk hashes k).val = slice (h.ciphertext hashes).val (48 * k) 48 := by
  simp only [chunk]
  rw [slice_append_left (by rw [Block.length_val]; omega)]

/-- The session of the peer after `k` fragments. -/
def sessionAt : Nat → Session
  | 0 => newSession (parsedHello h.hello h.sessionId h.device) (h.helloFrame sha256)
      (h.challengeFrame sha256) (h.authKey sha256)
  | k + 1 => (sessionAt k).store (UInt8.ofNat k) (h.chunk hashes k).val

/-! ## The exchanges -/

variable (keys : SessionKeys)

/-- The request number `i`. -/
def request : Nat → Bytes
  | 0 => h.helloFrame sha256
  | k + 1 =>
    if k < 16 then
      fragmentFrame sha256 (h.authKey sha256) h.sessionId (UInt8.ofNat k) (h.chunk hashes k).val
    else finishedFrame sha256 keys.deviceFinishedKey frameDeviceFinished h.sessionId
      (sha256 (h.transcript hashes))

def answer : Nat → Bytes
  | 0 => h.challengeFrame sha256
  | k + 1 =>
    if k < 16 then ackFrame sha256 (h.authKey sha256) h.sessionId (UInt8.ofNat k)
    else serverFinished sha256 keys h.sessionId (sha256 (h.transcript hashes))

theorem request_fragment {k : Nat} (hk : k < 16) : h.request sha256 hashes keys (k + 1)
    = fragmentFrame sha256 (h.authKey sha256) h.sessionId (UInt8.ofNat k)
        (h.chunk hashes k).val := if_pos hk

theorem request_finished : h.request sha256 hashes keys 17
    = finishedFrame sha256 keys.deviceFinishedKey frameDeviceFinished h.sessionId
        (sha256 (h.transcript hashes)) := rfl

theorem answer_fragment {k : Nat} (hk : k < 16) : h.answer sha256 hashes keys (k + 1)
    = ackFrame sha256 (h.authKey sha256) h.sessionId (UInt8.ofNat k) := if_pos hk

theorem answer_finished : h.answer sha256 hashes keys 17
    = serverFinished sha256 keys h.sessionId (sha256 (h.transcript hashes)) := rfl

/-- The state of the peer before exchange `i`. -/
def serverAt (start : Server) : Nat → Server
  | 0 => start
  | k + 1 =>
    if k < 17 then (start.1.setSession h.sessionId (h.sessionAt sha256 hashes k), start.2)
    else (start.1.setSession h.sessionId ((h.sessionAt sha256 hashes 16).finish sha256 keys),
      start.2)

end Handshake

/-! ## The sessions of the handshake -/

section

variable (sha256 : Bytes → Block 32) (hashes : Fips203.Hashes) (h : Handshake)

theorem sessionAt_fixed (k : Nat) :
    (h.sessionAt sha256 hashes k).sessionId = h.sessionId ∧
      (h.sessionAt sha256 hashes k).device = h.device ∧
      (h.sessionAt sha256 hashes k).sessionAuthKey = h.authKey sha256 ∧
      (h.sessionAt sha256 hashes k).challengeFrame = h.challengeFrame sha256 ∧
      (h.sessionAt sha256 hashes k).serverFinishedFrame = none ∧
      (h.sessionAt sha256 hashes k).helloCore = helloCore h.sessionId h.hello ∧
      (h.sessionAt sha256 hashes k).challengeCore = challengeCore h.sessionId h.challenge ∧
      (h.sessionAt sha256 hashes k).sendSequence = 0 ∧
      (h.sessionAt sha256 hashes k).receiveSequence = 0 ∧
      (h.sessionAt sha256 hashes k).lastClientFrame = none := by
  induction k with
  | zero =>
    refine ⟨rfl, rfl, rfl, rfl, rfl, ?_, ?_, rfl, rfl, rfl⟩
    · exact slice_self_append (length_helloCore h.sessionId h.hello)
    · exact slice_self_append (length_challengeCore h.sessionId h.challenge)
  | succ k ih => exact ih

theorem toNat_ofNat_lt {k : Nat} (hk : k < 16) : (UInt8.ofNat k).toNat = k := by
  rw [UInt8.toNat_ofNat']
  omega

theorem ofNat_lt {k : Nat} (hk : k < 16) : UInt8.ofNat k < 16 := by
  rw [UInt8.lt_iff_toNat_lt, toNat_ofNat_lt hk]
  exact hk

/-- After `k` fragments the first `k` places are filled. -/
theorem received_sessionAt {k : Nat} (hk : k ≤ 16) (j : Nat) :
    (h.sessionAt sha256 hashes k).received j = decide (j < k) := by
  induction k with
  | zero => rfl
  | succ k ih =>
    rw [Handshake.sessionAt, Session.store_received, toNat_ofNat_lt (by omega)]
    by_cases hj : j = k
    · rw [hj, Function.update_self]
      simp
    · rw [Function.update_of_ne hj, ih (by omega)]
      exact decide_eq_decide.mpr (by omega)

theorem holds_sessionAt {k : Nat} (hk : k ≤ 16) :
    (h.sessionAt sha256 hashes k).Holds (h.chunk hashes) := by
  induction k with
  | zero => intro j _ hreceived; cases hreceived
  | succ k ih =>
    have hstore := (ih (by omega)).store (ofNat_lt (show k < 16 by omega))
    rwa [toNat_ofNat_lt (by omega)] at hstore

/-- The fragments are the whole ciphertext. -/
theorem ciphertext_sessionAt :
    (h.sessionAt sha256 hashes 16).ciphertext = h.ciphertext hashes := by
  apply Block.ext
  refine eq_of_slices (show _ = 48 * 16 from Block.length_val _) (Block.length_val _) fun j hj => ?_
  have hholds := holds_sessionAt sha256 hashes h (Nat.le_refl 16)
    j hj (by rw [received_sessionAt sha256 hashes h (Nat.le_refl 16)]; simpa using hj)
  rw [Nat.mul_comm j 48] at hholds
  rw [hholds, h.chunk_val hashes hj]

theorem sessionTranscript_sessionAt :
    sessionTranscript sha256 (h.sessionAt sha256 hashes 16) = sha256 (h.transcript hashes) := by
  obtain ⟨-, -, -, -, -, hhello, hchallenge, -⟩ :=
    sessionAt_fixed sha256 hashes h 16
  rw [sessionTranscript, hhello, hchallenge, ciphertext_sessionAt]
  rfl

/-- A session of the handshake that has its first `count` fragments. -/
structure Handshake.Serving (session : Session) (count : Nat) : Prop where
  sessionId : session.sessionId = h.sessionId
  sessionAuthKey : session.sessionAuthKey = h.authKey sha256
  challengeFrame : session.challengeFrame = h.challengeFrame sha256
  helloCore : session.helloCore = helloCore h.sessionId h.hello
  holds : session.Holds (h.chunk hashes)
  received : ∀ k < count, session.received k = true

theorem serving_sessionAt {k : Nat} (hk : k ≤ 16) :
    h.Serving sha256 hashes (h.sessionAt sha256 hashes k) k := by
  obtain ⟨hid, -, hauth, hchallenge, -, hhello, -⟩ := sessionAt_fixed sha256 hashes h k
  refine ⟨hid, hauth, hchallenge, hhello, holds_sessionAt sha256 hashes h hk, fun j hj => ?_⟩
  rw [received_sessionAt sha256 hashes h hk]
  exact decide_eq_true hj

theorem Handshake.Serving.finish {h : Handshake} {session : Session} {count : Nat}
    (hserving : h.Serving sha256 hashes session count) (keys : SessionKeys) :
    h.Serving sha256 hashes (session.finish sha256 keys) count := { hserving with }

end

/-! ## What the peer answers -/

section

variable {sha256 : Bytes → Block 32} {decapsulate : Block 768 → Block 32}
  {application : Application} {serverNonce : Block 16} {server : Server} {frame : Bytes}
  {header : Header}

theorem serveFrame_hello {response : Bytes} {peer : Peer}
    (hheader : ReferencePeer.decodeHeader frame = .ok header) (htype : header.type = frameHello)
    (hresult : handleHello sha256 server.1 serverNonce.val frame = (.ok response, peer)) :
    serveFrame sha256 decapsulate application serverNonce server frame
      = (some response, (peer, server.2)) := by
  simp only [serveFrame, handleFrame, hheader, htype, if_true, asFrameResult, hresult,
    Option.toList_none, List.append_nil]
  rfl

theorem serveFrame_fragment {response : Bytes} {peer : Peer}
    (hheader : ReferencePeer.decodeHeader frame = .ok header)
    (htype : header.type = frameCiphertextFragment)
    (hresult : handleFragment sha256 server.1 frame header = (.ok response, peer)) :
    serveFrame sha256 decapsulate application serverNonce server frame
      = (some response, (peer, server.2)) := by
  have hnotHello : frameCiphertextFragment ≠ frameHello := by decide
  simp only [serveFrame, handleFrame, hheader, htype, if_neg hnotHello, if_true, asFrameResult,
    hresult, Option.toList_none, List.append_nil]
  rfl

theorem serveFrame_finished {response : Bytes} {peer : Peer}
    (hheader : ReferencePeer.decodeHeader frame = .ok header)
    (htype : header.type = frameDeviceFinished)
    (hresult : finishSession sha256 decapsulate server.1 frame header = (.ok response, peer)) :
    serveFrame sha256 decapsulate application serverNonce server frame
      = (some response, (peer, server.2)) := by
  have hnotHello : frameDeviceFinished ≠ frameHello := by decide
  have hnotFragment : frameDeviceFinished ≠ frameCiphertextFragment := by decide
  simp only [serveFrame, handleFrame, hheader, htype, if_neg hnotHello, if_neg hnotFragment,
    if_true, asFrameResult, hresult, Option.toList_none, List.append_nil]
  rfl

end

/-! ## The answers of a handshake -/

/-- The peer is provisioned for the client: it knows the device and the session is new. The
key pair of the peer is the one of the public key. -/
structure Provisioned (hashes : Fips203.Hashes) (decapsulate : Block 768 → Block 32)
    (h : Handshake) (peer : Peer) : Prop where
  device : lookupDevice peer h.client.config.deviceId = .ok (some h.device)
  epoch : peer.epoch = h.client.config.epoch.toNat
  keyId : peer.keyId = h.client.config.publicKeyId
  fresh : peer.sessions h.sessionId = none
  canonical : Fips203.Canonical h.publicKey
  decapsulates : decapsulate (h.ciphertext hashes) = h.sharedSecret hashes

section

variable (sha256 : Bytes → Block 32) {hashes : Fips203.Hashes}
  {decapsulate : Block 768 → Block 32} {application : Application} (h : Handshake)
  {start : Server}

theorem decodeHeader_hello : ReferencePeer.decodeHeader (h.helloFrame sha256)
    = .ok { type := frameHello, flags := 0, payloadLength := 50, sessionId := h.sessionId } := by
  rw [Handshake.helloFrame, decodeHeader_eq, decodeHeader_helloFrame]
  rfl

theorem parseHello_hello {peer : Peer}
    (hdevice : lookupDevice peer h.client.config.deviceId = .ok (some h.device)) :
    parseHello sha256 (h.helloFrame sha256) (lookupDevice peer)
      = .ok (parsedHello h.hello h.sessionId h.device) := by
  have hsuite : h.hello.suite = suiteMlkem512HkdfSha256Ascon128 := rfl
  have hlookup : lookupDevice peer h.hello.deviceId = .ok (some h.device) := hdevice
  have hframe : h.helloFrame sha256
      = (C0PQLink.helloFrame sha256 h.sessionId h.hello h.device.psk).val := rfl
  rw [hframe]
  exact parseHello_helloFrame sha256 hsuite hlookup

theorem encodeChallenge_challenge :
    ReferencePeer.encodeChallenge sha256 h.sessionId h.client.config.psk
        h.client.config.epoch.toNat h.client.config.publicKeyId h.deviceNonce h.serverNonce
      = .ok (h.challengeFrame sha256, h.authKey sha256) :=
  encodeChallenge_eq_client sha256 h.sessionId h.challenge h.client.config.psk rfl

variable {h} in
/-- The hello of a session that the peer has. -/
theorem serve_hello_again {peer : Peer} {session : Session} {count : Nat}
    (hserving : h.Serving sha256 hashes session count)
    (hdevice : lookupDevice peer h.client.config.deviceId = .ok (some h.device))
    (handed : List Bytes) :
    serveFrame sha256 decapsulate application h.serverNonce
        (peer.setSession h.sessionId session, handed) (h.helloFrame sha256)
      = (some (h.challengeFrame sha256), (peer.setSession h.sessionId session, handed)) := by
  refine serveFrame_hello (decodeHeader_hello sha256 h) rfl ?_
  rw [← lookupDevice_eq (peer.setSession_devices h.sessionId session)] at hdevice
  have hparsed := parseHello_hello sha256 h hdevice
  have hknown : (peer.setSession h.sessionId session).sessions
      (parsedHello h.hello h.sessionId h.device).header.sessionId = some session :=
    peer.setSession_same h.sessionId session
  have hcore : session.helloCore = slice (h.helloFrame sha256) 0 44 := by
    rw [hserving.helloCore]
    exact (slice_self_append (length_helloCore h.sessionId h.hello)).symm
  simp only [handleHello, hparsed, hknown, hcore, hserving.challengeFrame, ne_eq, not_true,
    if_false]

variable {h} in
theorem serves_hello (hprovisioned : Provisioned hashes decapsulate h start.1) :
    Serves (serveFrame sha256 decapsulate application h.serverNonce) (h.helloFrame sha256)
      (h.challengeFrame sha256) start
      (start.1.setSession h.sessionId (h.sessionAt sha256 hashes 0), start.2) := by
  refine ⟨serveFrame_hello (decodeHeader_hello sha256 h) rfl ?_, serve_hello_again sha256
    (serving_sessionAt sha256 hashes h (Nat.zero_le 16)) hprovisioned.device start.2⟩
  have hparsed := parseHello_hello sha256 h hprovisioned.device
  have hlength : h.serverNonce.val.length = 16 := h.serverNonce.property
  have hfresh : start.1.sessions (parsedHello h.hello h.sessionId h.device).header.sessionId
      = none := hprovisioned.fresh
  have hepoch : (parsedHello h.hello h.sessionId h.device).epoch = start.1.epoch :=
    hprovisioned.epoch.symm
  have hchallenge : ReferencePeer.encodeChallenge sha256
      (parsedHello h.hello h.sessionId h.device).header.sessionId
      (parsedHello h.hello h.sessionId h.device).device.psk start.1.epoch start.1.keyId
      (parsedHello h.hello h.sessionId h.device).deviceNonce ⟨h.serverNonce.val, hlength⟩
      = .ok (h.challengeFrame sha256, h.authKey sha256) := by
    rw [hprovisioned.epoch, hprovisioned.keyId]
    exact encodeChallenge_challenge sha256 h
  simp only [handleHello, hparsed, hfresh, hepoch, ne_eq, not_true, if_false, dif_pos hlength,
    hchallenge]
  rfl

variable (hashes)

/-- A fragment of the handshake in any of its sessions. -/
theorem handleFragment_serving {session : Session} {count k : Nat}
    (hserving : h.Serving sha256 hashes session count) (hk : k < 16) (peer : Peer) :
    handleFragment sha256 (peer.setSession h.sessionId session)
        (fragmentFrame sha256 (h.authKey sha256) h.sessionId (UInt8.ofNat k) (h.chunk hashes k).val)
        ⟨frameCiphertextFragment, 0, 67, h.sessionId⟩
      = (.ok (ackFrame sha256 (h.authKey sha256) h.sessionId (UInt8.ofNat k)),
        peer.setSession h.sessionId
          (session.store (UInt8.ofNat k) (h.chunk hashes k).val)) := by
  have hstored := handleFragment_frame sha256 (peer.setSession_same h.sessionId session)
    (ofNat_lt hk) (h.chunk hashes k)
    (by rw [toNat_ofNat_lt hk]; exact hserving.holds k hk)
    ⟨frameCiphertextFragment, 0, 67, h.sessionId⟩ ⟨rfl, rfl⟩
  rw [hserving.sessionAuthKey, hserving.sessionId] at hstored
  rw [hstored, Peer.setSession, Peer.setSession, Peer.setSession, Function.update_idem]

/-- A chunk that is stored already changes nothing. -/
theorem store_again {session : Session} {count k : Nat}
    (hserving : h.Serving sha256 hashes session count) (hk : k < 16) (hcount : k < count) :
    session.store (UInt8.ofNat k) (h.chunk hashes k).val = session := by
  have hreceived := hserving.received k hcount
  have hsame : copyChunk session.ciphertext (h.chunk hashes k).val (k * 48)
      = session.ciphertext :=
    copyChunk_same (Block.length_val _) (by omega) (hserving.holds k hk hreceived)
  rw [Session.store, toNat_ofNat_lt hk, hsame]
  have hupdate : Function.update session.received k true = session.received := by
    rw [Function.update_eq_self_iff, hreceived]
  rw [hupdate]

variable {h hashes} in
/-- A fragment that the session has. -/
theorem serve_fragment_again {session : Session} {count k : Nat}
    (hserving : h.Serving sha256 hashes session count) (hk : k < 16) (hcount : k < count)
    (peer : Peer) (handed : List Bytes) :
    serveFrame sha256 decapsulate application h.serverNonce
        (peer.setSession h.sessionId session, handed)
        (fragmentFrame sha256 (h.authKey sha256) h.sessionId (UInt8.ofNat k) (h.chunk hashes k).val)
      = (some (ackFrame sha256 (h.authKey sha256) h.sessionId (UInt8.ofNat k)),
        (peer.setSession h.sessionId session, handed)) := by
  have hhandled := handleFragment_serving sha256 hashes h hserving hk peer
  rw [store_again sha256 hashes h hserving hk hcount] at hhandled
  exact serveFrame_fragment (decodeHeader_fragmentFrame sha256 (h.authKey sha256) h.sessionId
    (UInt8.ofNat k) (h.chunk hashes k)) rfl hhandled

theorem serves_fragment {k : Nat} (hk : k < 16) (peer : Peer) (handed : List Bytes) :
    Serves (serveFrame sha256 decapsulate application h.serverNonce)
      (fragmentFrame sha256 (h.authKey sha256) h.sessionId (UInt8.ofNat k) (h.chunk hashes k).val)
      (ackFrame sha256 (h.authKey sha256) h.sessionId (UInt8.ofNat k))
      (peer.setSession h.sessionId (h.sessionAt sha256 hashes k), handed)
      (peer.setSession h.sessionId (h.sessionAt sha256 hashes (k + 1)), handed) where
  first := serveFrame_fragment (decodeHeader_fragmentFrame sha256 (h.authKey sha256) h.sessionId
    (UInt8.ofNat k) (h.chunk hashes k)) rfl (handleFragment_serving sha256 hashes h
      (serving_sessionAt sha256 hashes h (Nat.le_of_lt hk)) hk peer)
  again := serve_fragment_again sha256 (serving_sessionAt sha256 hashes h hk) hk
    (Nat.lt_succ_self k) peer handed

/-! ### Finished -/

variable {keys : SessionKeys}

theorem verified_finishedFrame (keys : SessionKeys) (sessionId : UInt32)
    (transcriptHash : Block 32) :
    VerifiedFinished sha256 keys sessionId transcriptHash
      (finishedFrame sha256 keys.deviceFinishedKey frameDeviceFinished sessionId
        transcriptHash) := by
  have hframe : writeHeader frameDeviceFinished 0 16 sessionId
      = headerBytes frameDeviceFinished 0 16 sessionId :=
    writeHeader_of_le (show (16 : UInt16) ≤ 255 by decide)
  refine ⟨⟨⟨frameDeviceFinished, 0, 16, sessionId⟩, ?_, rfl, rfl, rfl, rfl⟩,
    length_finishedFrame .., ?_⟩
  · rw [finishedFrame, hframe]
    exact ReferencePeer.decodeHeader_headerBytes frameDeviceFinished 0 sessionId
      (Block.length_val _)
  · rw [finishedFrame, hframe, List.drop_left' (length_headerBytes ..)]

/-- The first Finished of a session that has its whole ciphertext. -/
theorem finishSession_first {peer : Peer} {session : Session} {frame : Bytes} {header : Header}
    (hheader : ReferencePeer.decodeHeader frame = .ok header)
    (hsession : peer.sessions header.sessionId = some session)
    (hid : session.sessionId = header.sessionId) (hnone : session.serverFinishedFrame = none)
    (hreceived : ∀ i < 16, session.received i = true)
    (hderives : session.Derives sha256 decapsulate keys)
    (hverified : VerifiedFinished sha256 keys header.sessionId (sessionTranscript sha256 session)
      frame) :
    finishSession sha256 decapsulate peer frame header
      = (.ok (serverFinished sha256 keys header.sessionId (sessionTranscript sha256 session)),
        peer.setSession header.sessionId (session.finish sha256 keys)) := by
  obtain ⟨header', hheader', -, hflags, hpayload, -⟩ := hverified.header
  obtain rfl := Except.ok.inj (hheader.symm.trans hheader')
  have hderived : ReferencePeer.deriveSessionKeys sha256 session.device.psk
      (decapsulate session.ciphertext) (sessionTranscript sha256 session) = .ok keys := hderives
  simp only [finishSession, hsession, hflags, hpayload, hverified.length, hnone, hid,
    finishedTag_eq_client, hderived]
  rw [if_neg (by simp), if_neg (not_not.mpr hreceived), if_neg (not_not.mpr hverified.tag)]
  simp only [encodeHeader_of_le frameServerFinished 0 header.sessionId (by decide : 16 ≤ 255),
    except_ok_bind, except_pure, Session.finish, hid]
  rfl

/-- The Finished of a session that has its whole ciphertext, any number of times. -/
theorem serves_finish {session : Session} {sessionId : UInt32} (peer : Peer)
    (handed : List Bytes) (hid : session.sessionId = sessionId)
    (hnone : session.serverFinishedFrame = none)
    (hreceived : ∀ i < 16, session.received i = true)
    (hderives : session.Derives sha256 decapsulate keys) (application : Application)
    (serverNonce : Block 16) :
    Serves (serveFrame sha256 decapsulate application serverNonce)
      (finishedFrame sha256 keys.deviceFinishedKey frameDeviceFinished sessionId
        (sessionTranscript sha256 session))
      (serverFinished sha256 keys sessionId (sessionTranscript sha256 session))
      (peer.setSession sessionId session, handed)
      (peer.setSession sessionId (session.finish sha256 keys), handed) := by
  have hverified := verified_finishedFrame sha256 keys sessionId
    (sessionTranscript sha256 session)
  obtain ⟨header, hheader, htype, -, -, rfl⟩ := hverified.header
  refine ⟨serveFrame_finished hheader htype ?_, serveFrame_finished hheader htype ?_⟩
  · rw [finishSession_first sha256 hheader (peer.setSession_same _ session) hid hnone hreceived
      hderives hverified]
    simp only [Peer.setSession, Function.update_idem]
  · have hknown := peer.setSession_same header.sessionId (session.finish sha256 keys)
    rw [finishSession_repeated sha256 decapsulate hheader hknown hid rfl rfl rfl hverified, hid]

theorem serves_finished (peer : Peer) (handed : List Bytes)
    (hdecapsulates : decapsulate (h.ciphertext hashes) = h.sharedSecret hashes)
    (hkeys : ReferencePeer.deriveSessionKeys sha256 h.client.config.psk (h.sharedSecret hashes)
      (sha256 (h.transcript hashes)) = .ok keys) :
    Serves (serveFrame sha256 decapsulate application h.serverNonce)
      (finishedFrame sha256 keys.deviceFinishedKey frameDeviceFinished h.sessionId
        (sha256 (h.transcript hashes)))
      (serverFinished sha256 keys h.sessionId (sha256 (h.transcript hashes)))
      (peer.setSession h.sessionId (h.sessionAt sha256 hashes 16), handed)
      (peer.setSession h.sessionId ((h.sessionAt sha256 hashes 16).finish sha256 keys),
        handed) := by
  obtain ⟨hid, hdevice, -, -, hnone, -⟩ := sessionAt_fixed sha256 hashes h 16
  have hreceived := received_sessionAt sha256 hashes h (Nat.le_refl 16)
  have htranscript := sessionTranscript_sessionAt sha256 hashes h
  have hciphertext := ciphertext_sessionAt sha256 hashes h
  generalize h.sessionAt sha256 hashes 16 = session at *
  have hderives : session.Derives sha256 decapsulate keys := by
    rw [Session.Derives, hdevice, hciphertext, hdecapsulates, htranscript]
    exact hkeys
  have hserves := serves_finish sha256 peer handed hid hnone
    (fun i hi => by rw [hreceived]; simpa using hi) hderives application h.serverNonce
  rwa [htranscript] at hserves

/-! ## The conversation -/

variable {h} in
/-- The requests of a handshake are answered one after another. -/
theorem serves_request (hprovisioned : Provisioned hashes decapsulate h start.1)
    (hkeys : ReferencePeer.deriveSessionKeys sha256 h.client.config.psk (h.sharedSecret hashes)
      (sha256 (h.transcript hashes)) = .ok keys) (i : Nat) (hi : i < 18) :
    Serves (serveFrame sha256 decapsulate application h.serverNonce)
      (h.request sha256 hashes keys i)
      (h.answer sha256 hashes keys i) (h.serverAt sha256 hashes keys start i)
      (h.serverAt sha256 hashes keys start (i + 1)) := by
  cases i with
  | zero => exact serves_hello sha256 hprovisioned
  | succ k =>
    by_cases hk : k < 16
    · simp only [Handshake.request, Handshake.answer, Handshake.serverAt, if_pos hk,
        if_pos (show k < 17 by omega), if_pos (show k + 1 < 17 by omega)]
      exact serves_fragment sha256 hashes h hk start.1 start.2
    · obtain rfl : k = 16 := by omega
      simp only [Handshake.request, Handshake.answer, Handshake.serverAt, if_neg hk,
        if_pos (show 16 < 17 by decide), if_neg (show ¬ 16 + 1 < 17 by decide)]
      exact serves_finished sha256 hashes h start.1 start.2 hprovisioned.decapsulates hkeys

variable {h} in
/-- The peer answers every request that it has answered before in the same way, without a
change of its state. -/
theorem serve_earlier (hprovisioned : Provisioned hashes decapsulate h start.1)
    (hkeys : ReferencePeer.deriveSessionKeys sha256 h.client.config.psk (h.sharedSecret hashes)
      (sha256 (h.transcript hashes)) = .ok keys) {i j : Nat} (hi : i < 18) (hj : j ≤ i) :
    serveFrame sha256 decapsulate application h.serverNonce
        (h.serverAt sha256 hashes keys start (i + 1)) (h.request sha256 hashes keys j)
      = (some (h.answer sha256 hashes keys j), h.serverAt sha256 hashes keys start (i + 1)) := by
  obtain ⟨session, hserver, hserving⟩ : ∃ session,
      h.serverAt sha256 hashes keys start (i + 1)
        = (start.1.setSession h.sessionId session, start.2) ∧
      h.Serving sha256 hashes session (min i 16) := by
    by_cases hlast : i < 17
    · refine ⟨h.sessionAt sha256 hashes i, if_pos hlast, ?_⟩
      rw [Nat.min_eq_left (by omega)]
      exact serving_sessionAt sha256 hashes h (by omega)
    · refine ⟨(h.sessionAt sha256 hashes 16).finish sha256 keys, if_neg hlast, ?_⟩
      rw [Nat.min_eq_right (by omega)]
      exact (serving_sessionAt sha256 hashes h (Nat.le_refl 16)).finish sha256 hashes keys
  cases j with
  | zero =>
    rw [hserver]
    exact serve_hello_again sha256 hserving hprovisioned.device start.2
  | succ k =>
    by_cases hk : k < 16
    · rw [hserver, h.request_fragment sha256 hashes keys hk,
        h.answer_fragment sha256 hashes keys hk]
      exact serve_fragment_again sha256 hserving hk (by omega) start.1 start.2
    · obtain ⟨rfl, rfl⟩ : k = 16 ∧ i = 17 := by omega
      exact (serves_request sha256 hashes hprovisioned hkeys 17 hi).again

variable {h} in
/-- The handshake as a conversation. -/
def Handshake.conversation (application : Application)
    (hprovisioned : Provisioned hashes decapsulate h start.1)
    (hkeys : ReferencePeer.deriveSessionKeys sha256 h.client.config.psk (h.sharedSecret hashes)
      (sha256 (h.transcript hashes)) = .ok keys) :
    Conversation Server Bytes Bytes (serveFrame sha256 decapsulate application h.serverNonce) 18 where
  request := h.request sha256 hashes keys
  answer := h.answer sha256 hashes keys
  server := h.serverAt sha256 hashes keys start
  answers := serves_request sha256 hashes hprovisioned hkeys

end

end C0PQLink.Link
