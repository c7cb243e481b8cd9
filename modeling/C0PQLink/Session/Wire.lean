import C0PQLink.Core.Integers

/-!
# Wire encoding

The constants of `c0pqlink/protocol.h` and the common frame header of
`session/preflight.c`.

* `decodeHeader_headerBytes`: the header of an encoded frame is read back.
* `frame_of_decodeHeader`: a frame that has a header is that header's encoding, followed
  by a payload of the length the header states.
-/

namespace C0PQLink

open Foundation

/-! ## Protocol constants -/

def suiteMlkem512HkdfSha256Ascon128 : UInt16 := 0x0001
def fragmentPayloadBytes : Nat := 48
def fragmentCount : UInt8 := 16
def recordPlaintextMax : Nat := 48

/-! Frame types, as they stand in byte 3 of a frame. -/

def frameHello : UInt8 := 1
def frameChallenge : UInt8 := 2
def frameCiphertextFragment : UInt8 := 3
def frameCiphertextAck : UInt8 := 4
def frameDeviceFinished : UInt8 := 5
def frameServerFinished : UInt8 := 6
def frameData : UInt8 := 7

/-! ## The frame header -/

structure FrameHeader where
  type : UInt8
  flags : UInt8
  payloadLength : UInt16
  sessionId : UInt32
  deriving DecidableEq, Repr

/-- The ten bytes `c0pq_encode_header` writes. -/
def headerBytes (type flags payloadLength : UInt8) (sessionId : UInt32) : Bytes :=
  [0x43, 0x30, 1, type, flags, payloadLength] ++ store32BE sessionId

@[simp] theorem length_headerBytes (type flags payloadLength : UInt8) (sessionId : UInt32) :
    (headerBytes type flags payloadLength sessionId).length = 10 := rfl

def encodeHeader (type flags : UInt8) (payloadLength : UInt16) (sessionId : UInt32) :
    Except Status Bytes :=
  if payloadLength > 255 then .error .errArgument
  else .ok (headerBytes type flags payloadLength.toUInt8 sessionId)

/-- A call of `c0pq_encode_header` whose status is discarded, as all its callers do. -/
def writeHeader (type flags : UInt8) (payloadLength : UInt16) (sessionId : UInt32) : Bytes :=
  match encodeHeader type flags payloadLength sessionId with
  | .ok header => header
  | .error _ => []

theorem writeHeader_of_le {type flags : UInt8} {payloadLength : UInt16} {sessionId : UInt32}
    (h : payloadLength ≤ 255) :
    writeHeader type flags payloadLength sessionId
      = headerBytes type flags payloadLength.toUInt8 sessionId := by
  have hn : ¬ payloadLength > 255 := UInt16.not_lt.mpr h
  simp [writeHeader, encodeHeader, hn]

def decodeHeader (frame : Bytes) : Except Status FrameHeader :=
  if frame.length < 10 then .error .errArgument
  else if byteAt frame 0 ≠ 0x43 ∨ byteAt frame 1 ≠ 0x30 ∨ byteAt frame 2 ≠ 1 then
    .error .errState
  else
    let header : FrameHeader :=
      { type := byteAt frame 3
        flags := byteAt frame 4
        payloadLength := (byteAt frame 5).toUInt16
        sessionId := load32BE (slice frame 6 4) }
    if header.payloadLength.toNat + 10 ≠ frame.length then .error .errState
    else .ok header

/-! ## Encoding and decoding -/

theorem byteAt_headerBytes (type flags payloadLength : UInt8) (sessionId : UInt32)
    (payload : Bytes) :
    let frame := headerBytes type flags payloadLength sessionId ++ payload
    byteAt frame 0 = 0x43 ∧ byteAt frame 1 = 0x30 ∧ byteAt frame 2 = 1 ∧ byteAt frame 3 = type
      ∧ byteAt frame 4 = flags ∧ byteAt frame 5 = payloadLength :=
  ⟨rfl, rfl, rfl, rfl, rfl, rfl⟩

theorem slice_headerBytes (type flags payloadLength : UInt8) (sessionId : UInt32)
    (payload : Bytes) :
    slice (headerBytes type flags payloadLength sessionId ++ payload) 6 4
      = store32BE sessionId := rfl

theorem decodeHeader_headerBytes (type flags : UInt8) {payloadLength : UInt8} (sessionId : UInt32)
    {payload : Bytes} (h : payload.length = payloadLength.toNat) :
    decodeHeader (headerBytes type flags payloadLength sessionId ++ payload)
      = .ok { type, flags, payloadLength := payloadLength.toUInt16, sessionId } := by
  obtain ⟨h0, h1, h2, h3, h4, h5⟩ := byteAt_headerBytes type flags payloadLength sessionId payload
  have hlength : (headerBytes type flags payloadLength sessionId ++ payload).length
      = 10 + payloadLength.toNat := by
    rw [List.length_append, length_headerBytes, h]
  rw [decodeHeader, if_neg (by omega), if_neg (by simp [h0, h1, h2])]
  simp only [h3, h4, h5, slice_headerBytes, load32BE_store32BE, UInt8.toNat_toUInt16]
  rw [if_neg (by omega)]

theorem frame_of_decodeHeader {frame : Bytes} {header : FrameHeader}
    (h : decodeHeader frame = .ok header) :
    frame = headerBytes header.type header.flags header.payloadLength.toUInt8 header.sessionId
        ++ frame.drop 10
      ∧ header.payloadLength.toNat + 10 = frame.length := by
  unfold decodeHeader at h
  split at h
  · cases h
  rename_i hshort
  split at h
  · cases h
  rename_i hmagic
  simp only [not_or, not_not] at hmagic
  simp only at h
  split at h
  · cases h
  rename_i hlength
  have hlength := not_not.mp hlength
  obtain ⟨h0, h1, h2⟩ := hmagic
  have hheader := (Except.ok.inj h).symm
  subst hheader
  refine ⟨?_, hlength⟩
  have hten : 10 ≤ frame.length := Nat.not_lt.mp hshort
  have hslice : (slice frame 6 4).length = 4 := by
    rw [length_slice]
    omega
  have hsix : frame.take 6 = [byteAt frame 0, byteAt frame 1, byteAt frame 2, byteAt frame 3,
      byteAt frame 4, byteAt frame 5] := by
    match frame, hten with
    | a :: b :: c :: d :: e :: f :: rest, _ => rfl
  have hparts : frame = frame.take 6 ++ slice frame 6 4 ++ frame.drop 10 := by
    have hdrop : frame.drop 10 = (frame.drop 6).drop 4 := by rw [List.drop_drop]
    rw [slice, List.append_assoc, hdrop, List.take_append_drop, List.take_append_drop]
  conv_lhs => rw [hparts, hsix, h0, h1, h2]
  simp only [headerBytes, store32BE_load32BE hslice, UInt8.toUInt8_toUInt16]

end C0PQLink
