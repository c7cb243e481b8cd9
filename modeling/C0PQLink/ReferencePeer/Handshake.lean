import C0PQLink.ReferencePeer.Peer
import C0PQLink.Session.Exchange

/-!
# The peer and the frames of the client

What the handlers of the peer do with the frames the client encodes.

* `handleFragment_frame`: a fragment of the session is stored and acknowledged, the first
  time and every time again.
* `handleHello_known`: a hello of a known session is answered with its challenge.
-/

namespace C0PQLink.ReferencePeer

open Foundation

variable (sha256 : Bytes → Block 32)

/-! ## Headers -/

theorem decodeHeader_headerBytes (type flags : UInt8) {payloadLength : UInt8} (sessionId : UInt32)
    {payload : Bytes} (h : payload.length = payloadLength.toNat) :
    decodeHeader (headerBytes type flags payloadLength sessionId ++ payload)
      = .ok { type, flags, payloadLength := payloadLength.toNat, sessionId } := by
  rw [decodeHeader_eq, C0PQLink.decodeHeader_headerBytes type flags sessionId h]
  simp only [UInt8.toNat_toUInt16]

/-! ## Acknowledgments -/

def ackCore (sessionId : UInt32) (index : UInt8) : Bytes :=
  headerBytes frameCiphertextAck 0 18 sessionId ++ [index, 0]

/-- The acknowledgment of fragment `index`. -/
def ackFrame (sessionAuthKey : Block 32) (sessionId : UInt32) (index : UInt8) : Bytes :=
  ackCore sessionId index
    ++ (C0PQLink.authTag sha256 sessionAuthKey "C0PQ/1 ciphertext ack"
      (ackCore sessionId index)).val

@[simp] theorem length_ackCore (sessionId : UInt32) (index : UInt8) :
    (ackCore sessionId index).length = 12 := rfl

@[simp] theorem length_ackFrame (sessionAuthKey : Block 32) (sessionId : UInt32) (index : UInt8) :
    (ackFrame sha256 sessionAuthKey sessionId index).length = 28 := by
  simp [ackFrame]

theorem encodeAck_eq (session : Session) (index : UInt8) :
    encodeAck sha256 session index
      = .ok (ackFrame sha256 session.sessionAuthKey session.sessionId index) := by
  simp only [encodeAck, encodeHeader_of_le frameCiphertextAck 0 session.sessionId
    (by decide : 18 ≤ 255), except_ok_bind, except_pure]
  rfl

theorem byteAt_ackFrame (sessionAuthKey : Block 32) (sessionId : UInt32) (index : UInt8) :
    byteAt (ackFrame sha256 sessionAuthKey sessionId index) 10 = index
      ∧ byteAt (ackFrame sha256 sessionAuthKey sessionId index) 11 = 0 := ⟨rfl, rfl⟩

theorem ackFrame_inj {sessionAuthKey : Block 32} {sessionId : UInt32} {i j : UInt8}
    (h : ackFrame sha256 sessionAuthKey sessionId i = ackFrame sha256 sessionAuthKey sessionId j) :
    i = j := congrArg (byteAt · 10) h

theorem decodeHeader_ackFrame (sessionAuthKey : Block 32) (sessionId : UInt32) (index : UInt8) :
    C0PQLink.decodeHeader (ackFrame sha256 sessionAuthKey sessionId index)
      = .ok { type := frameCiphertextAck, flags := 0, payloadLength := 18, sessionId } := by
  rw [ackFrame, ackCore, List.append_assoc]
  exact C0PQLink.decodeHeader_headerBytes frameCiphertextAck 0 sessionId (by simp)

theorem slice_ackFrame (sessionAuthKey : Block 32) (sessionId : UInt32) (index : UInt8) :
    slice (ackFrame sha256 sessionAuthKey sessionId index) 0 12 = ackCore sessionId index
      ∧ slice (ackFrame sha256 sessionAuthKey sessionId index) 12 16
        = (C0PQLink.authTag sha256 sessionAuthKey "C0PQ/1 ciphertext ack"
          (ackCore sessionId index)).val := by
  constructor
  · rw [ackFrame, slice_append_left (by simp), slice_self _ (by simp)]
  · exact slice_last (by simp) (by simp)

/-- The check of an acknowledgment in the client. -/
theorem checkAck_ackFrame (sessionAuthKey : Block 32) (sessionId : UInt32) (index j : UInt8) :
    checkAck sha256 sessionAuthKey index (ackFrame sha256 sessionAuthKey sessionId j)
      = if j = index then .ok else .errState := by
  obtain ⟨hindex, hstatus⟩ := byteAt_ackFrame sha256 sessionAuthKey sessionId j
  obtain ⟨hcore, htag⟩ := slice_ackFrame sha256 sessionAuthKey sessionId j
  simp only [checkAck, decodeHeader_ackFrame, hindex, hstatus, hcore, htag]
  by_cases hj : j = index
  · simp [hj, verifyAuthTag]
  · simp [hj]

/-! ## Fragments -/

/-- The session after fragment `index` was stored. -/
def Session.store (session : Session) (index : UInt8) (chunk : Bytes) : Session :=
  { session with
    ciphertext := copyChunk session.ciphertext chunk (index.toNat * 48)
    received := Function.update session.received index.toNat true }

theorem decodeHeader_fragmentFrame (sessionAuthKey : Block 32) (sessionId : UInt32)
    (index : UInt8) (chunk : Block 48) :
    decodeHeader (fragmentFrame sha256 sessionAuthKey sessionId index chunk.val)
      = .ok { type := frameCiphertextFragment, flags := 0, payloadLength := 67, sessionId } := by
  obtain ⟨hheader, -⟩ :=
    fields_fragmentFrame sha256 sessionAuthKey sessionId index (Block.length_val chunk).le
  rw [decodeHeader_eq, hheader, Block.length_val]
  rfl

/-- The fields of a fragment with a whole chunk, as the peer reads them. -/
theorem fields_chunkFrame (sessionAuthKey : Block 32) (sessionId : UInt32) (index : UInt8)
    (chunk : Block 48) :
    let frame := fragmentFrame sha256 sessionAuthKey sessionId index chunk.val
    frame.length = 77 ∧ byteAt frame 10 = index ∧ byteAt frame 11 = 16 ∧ byteAt frame 12 = 48
      ∧ slice frame 0 61 = fragmentCore sessionId index chunk.val
      ∧ slice frame 13 48 = chunk.val
      ∧ frame.drop 61 = (C0PQLink.authTag sha256 sessionAuthKey "C0PQ/1 ciphertext fragment"
          (fragmentCore sessionId index chunk.val)).val := by
  have hchunk : chunk.val.length = 48 := Block.length_val chunk
  have hlength : (fragmentFrame sha256 sessionAuthKey sessionId index chunk.val).length = _ :=
    length_fragmentFrame sha256 sessionAuthKey hchunk.le
  obtain ⟨-, hindex, hcount, hpayload, hslice, hcore, htag⟩ :=
    fields_fragmentFrame sha256 sessionAuthKey sessionId index hchunk.le
  rw [hchunk] at hlength hpayload hslice hcore htag
  exact ⟨hlength, hindex, hcount, UInt8.toNat_inj.mp hpayload, hcore, hslice, htag⟩

theorem handleFragment_frame {peer : Peer} {session : Session} {sessionId : UInt32}
    (hsession : peer.sessions sessionId = some session) {index : UInt8} (hindex : index < 16)
    (chunk : Block 48)
    (hreplay : session.received index.toNat = true →
      slice session.ciphertext.val (index.toNat * 48) 48 = chunk.val)
    (header : Header) (hheader : header.sessionId = sessionId ∧ header.flags = 0) :
    handleFragment sha256 peer
        (fragmentFrame sha256 session.sessionAuthKey sessionId index chunk.val) header
      = (.ok (ackFrame sha256 session.sessionAuthKey session.sessionId index),
        peer.setSession sessionId (session.store index chunk.val)) := by
  obtain ⟨hlength, h10, h11, h12, hcore, hchunk, htag⟩ :=
    fields_chunkFrame sha256 session.sessionAuthKey sessionId index chunk
  obtain ⟨hid, hflags⟩ := hheader
  have hnotge : ¬ index ≥ 16 := UInt8.not_le.mpr hindex
  have h48 : (48 : UInt8).toNat = 48 := rfl
  have hconflict : ¬ (session.received index.toNat = true
      ∧ slice session.ciphertext.val (index.toNat * 48) 48 ≠ chunk.val) :=
    fun h => h.2 (hreplay h.1)
  simp only [handleFragment, hid, hsession, hflags, hlength, h10, h11, h12, h48, hchunk]
  rw [if_neg (by simp), if_neg (by simp [hnotge]), hcore, htag, if_neg (by simp [authTag_eq]),
    if_neg hconflict, encodeAck_eq]
  rfl

section

variable {ciphertext : Block 768} {chunk : Bytes} {offset : Nat}

theorem copyChunk_val (h : offset + chunk.length ≤ 768) :
    (copyChunk ciphertext chunk offset).val
      = ciphertext.val.take offset ++ chunk ++ ciphertext.val.drop (offset + chunk.length) := by
  refine List.take_of_length_le ?_
  simp only [List.length_append, List.length_take, List.length_drop, Block.length_val]
  omega

theorem slice_copyChunk_same (h : offset + chunk.length ≤ 768) :
    slice (copyChunk ciphertext chunk offset).val offset chunk.length = chunk := by
  rw [copyChunk_val h]
  refine slice_field ?_ rfl
  rw [List.length_take, Block.length_val]
  omega

theorem slice_copyChunk_other (h : offset + chunk.length ≤ 768) {start length : Nat}
    (hdisjoint : start + length ≤ offset ∨ offset + chunk.length ≤ start) :
    slice (copyChunk ciphertext chunk offset).val start length
      = slice ciphertext.val start length := by
  have htake : (ciphertext.val.take offset).length = offset := by
    rw [List.length_take, Block.length_val]
    omega
  rw [copyChunk_val h]
  rcases hdisjoint with hbefore | hafter
  · rw [List.append_assoc, slice_append_left (by omega), slice, slice, List.drop_take,
      List.take_take, Nat.min_eq_left (by omega)]
  · rw [slice_append_right (by rw [List.length_append]; omega), slice, slice, List.drop_drop,
      List.length_append, htake]
    congr 2
    omega

end

/-- What the peer has stored agrees with the chunks of one ciphertext. -/
def Session.Holds (session : Session) (chunks : Nat → Block 48) : Prop :=
  ∀ j < 16, session.received j = true → slice session.ciphertext.val (j * 48) 48 = (chunks j).val

@[simp] theorem Session.store_received (session : Session) (index : UInt8) (chunk : Bytes) :
    (session.store index chunk).received = Function.update session.received index.toNat true := rfl

@[simp] theorem Session.store_ciphertext (session : Session) (index : UInt8) (chunk : Bytes) :
    (session.store index chunk).ciphertext
      = copyChunk session.ciphertext chunk (index.toNat * 48) := rfl

theorem Session.Holds.store {session : Session} {chunks : Nat → Block 48}
    (h : session.Holds chunks) {index : UInt8} (hindex : index < 16) :
    (session.store index (chunks index.toNat).val).Holds chunks := by
  have hlt : index.toNat < 16 := UInt8.lt_iff_toNat_lt.mp hindex
  have hfit : index.toNat * 48 + (chunks index.toNat).val.length ≤ 768 := by
    rw [Block.length_val]
    omega
  intro j hj hreceived
  rcases Nat.lt_trichotomy j index.toNat with hlt' | rfl | hgt
  · rw [Session.store_received, Function.update_of_ne (by omega)] at hreceived
    rw [Session.store_ciphertext, slice_copyChunk_other hfit (by omega)]
    exact h j hj hreceived
  · have hsame := @slice_copyChunk_same session.ciphertext _ _ hfit
    rwa [Block.length_val] at hsame
  · rw [Session.store_received, Function.update_of_ne (by omega)] at hreceived
    rw [Session.store_ciphertext, slice_copyChunk_other hfit (by rw [Block.length_val]; omega)]
    exact h j hj hreceived

/-! ## Hello -/

/-- What a hello is that `parseHello` accepts. -/
structure HelloAccepted (frame : Bytes) (lookup : Block 8 → Except PeerError (Option Device))
    (parsed : ParsedHello) : Prop where
  header : decodeHeader frame = .ok parsed.header
  length : frame.length = 60
  type : parsed.header.type = frameHello
  flags : parsed.header.flags = 0
  suite : UInt16.ofNat (beNat (slice frame 10 2)) = suiteMlkem512HkdfSha256Ascon128
  deviceId : parsed.deviceId.val = slice frame 12 8
  epoch : parsed.epoch = beNat (slice frame 20 8)
  deviceNonce : parsed.deviceNonce.val = slice frame 28 16
  device : lookup parsed.deviceId = .ok (some parsed.device)
  tag : (C0PQLink.authTag sha256 (C0PQLink.deriveHelloKey sha256 parsed.device.psk)
    "C0PQ/1 hello frame" (slice frame 0 44)).val = frame.drop 44

theorem parseHello_ok {frame : Bytes} {lookup : Block 8 → Except PeerError (Option Device)}
    {parsed : ParsedHello} (h : parseHello sha256 frame lookup = .ok parsed) :
    HelloAccepted sha256 frame lookup parsed := by
  unfold parseHello at h
  cases hheader : decodeHeader frame with
  | error error => simp [hheader] at h
  | ok header =>
    simp only [hheader, except_ok_bind] at h
    split at h
    · rename_i hshape
      obtain ⟨hlength, htype, hflags, hpayload⟩ := hshape
      cases hdevice : lookup (blockAt frame 12 8 (by omega)) with
      | error error => simp [hdevice] at h
      | ok found =>
        simp only [hdevice, except_ok_bind] at h
        cases found with
        | none => cases h
        | some device =>
          simp only [deriveHelloKey_eq_client, except_ok_bind] at h
          split at h
          · cases h
          rename_i hsuite
          simp only [except_pure] at h
          split at h
          · cases h
          rename_i htag
          simp only [Except.ok.injEq] at h
          subst h
          exact
            { header := hheader, length := hlength, type := htype, flags := hflags,
              suite := not_not.mp hsuite, deviceId := rfl, epoch := rfl, deviceNonce := rfl,
              device := hdevice, tag := not_not.mp htag }
    · cases h

/-- A hello of a session the peer holds does not change the peer, and its response, if
there is one, is the challenge of the session. -/
theorem handleHello_known {peer : Peer} {session : Session} (random : Bytes) {frame : Bytes}
    {header : Header} (hheader : decodeHeader frame = .ok header)
    (hsession : peer.sessions header.sessionId = some session) :
    (∃ error, handleHello sha256 peer random frame = (.error error, peer))
      ∨ handleHello sha256 peer random frame = (.ok session.challengeFrame, peer) := by
  unfold handleHello
  cases hparsed : parseHello sha256 frame (lookupDevice peer) with
  | error error => exact .inl ⟨error, rfl⟩
  | ok parsed =>
    have hsame : header = parsed.header :=
      Except.ok.inj (hheader.symm.trans (parseHello_ok sha256 hparsed).header)
    simp only [← hsame, hsession]
    split
    · exact .inl ⟨_, rfl⟩
    · exact .inr rfl

end C0PQLink.ReferencePeer
