import C0PQLink.Session.Fragment

/-!
# One frame exchange

`send_and_receive` against a transport that answers attempt after attempt by a given
script.

* `exchangeAttempts_run`: the first attempt that passes the filter decides the exchange.
-/

namespace C0PQLink

open Foundation

variable (sha256 : Bytes → Block 32)

/-! ## The frames of the client -/

@[simp] theorem length_finishedFrame (finishedKey : Block 32) (frameType : UInt8)
    (sessionId : UInt32) (transcriptHash : Block 32) :
    (finishedFrame sha256 finishedKey frameType sessionId transcriptHash).length = 26 := by
  simp [finishedFrame, writeHeader_of_le (show (16 : UInt16) ≤ 255 by decide)]

theorem fragmentPayloadLength_le {payload : Bytes} (h : payload.length ≤ fragmentPayloadBytes) :
    UInt16.ofNat (3 + payload.length + 16) ≤ 255 := by
  have hpayload : payload.length ≤ 48 := h
  rw [UInt16.le_iff_toNat_le, UInt16.toNat_ofNat']
  show (3 + payload.length + 16) % 65536 ≤ 255
  omega

theorem fragmentCore_eq (sessionId : UInt32) (index : UInt8) {payload : Bytes}
    (h : payload.length ≤ fragmentPayloadBytes) :
    fragmentCore sessionId index payload
      = headerBytes frameCiphertextFragment 0 (UInt8.ofNat (19 + payload.length)) sessionId
          ++ [index, 16, UInt8.ofNat payload.length] ++ payload := by
  have hlength : 3 + payload.length + 16 = 19 + payload.length := by omega
  rw [fragmentCore, writeHeader_of_le (fragmentPayloadLength_le h), hlength, UInt16.toUInt8_ofNat']
  rfl

theorem length_fragmentCore {sessionId : UInt32} {index : UInt8} {payload : Bytes}
    (h : payload.length ≤ fragmentPayloadBytes) :
    (fragmentCore sessionId index payload).length = 13 + payload.length := by
  rw [fragmentCore_eq sessionId index h]
  simp
  omega

theorem length_fragmentFrame (sessionAuthKey : Block 32) {sessionId : UInt32} {index : UInt8}
    {payload : Bytes} (h : payload.length ≤ fragmentPayloadBytes) :
    (fragmentFrame sha256 sessionAuthKey sessionId index payload).length
      = 29 + payload.length := by
  rw [fragmentFrame, List.length_append, length_fragmentCore h, Block.length_val]
  omega

/-- The fields of a fragment: its header, index, count and length, its payload and its tag. -/
theorem fields_fragmentFrame (sessionAuthKey : Block 32) (sessionId : UInt32) (index : UInt8)
    {payload : Bytes} (h : payload.length ≤ fragmentPayloadBytes) :
    let frame := fragmentFrame sha256 sessionAuthKey sessionId index payload
    decodeHeader frame = .ok ⟨frameCiphertextFragment, 0, UInt16.ofNat (19 + payload.length),
        sessionId⟩
      ∧ byteAt frame 10 = index ∧ byteAt frame 11 = 16
      ∧ (byteAt frame 12).toNat = payload.length ∧ slice frame 13 payload.length = payload
      ∧ slice frame 0 (13 + payload.length) = fragmentCore sessionId index payload
      ∧ frame.drop (13 + payload.length)
        = (authTag sha256 sessionAuthKey "C0PQ/1 ciphertext fragment"
          (fragmentCore sessionId index payload)).val := by
  have hle : payload.length ≤ 48 := h
  have hcore : (fragmentCore sessionId index payload).length = 13 + payload.length :=
    length_fragmentCore h
  refine ⟨?_, ?_, ?_, ?_, ?_, ?_, ?_⟩
  · have hpayload : (UInt8.ofNat (19 + payload.length)).toNat = 19 + payload.length := by
      rw [UInt8.toNat_ofNat', Nat.mod_eq_of_lt (by omega)]
    have hwide : (UInt8.ofNat (19 + payload.length)).toUInt16
        = UInt16.ofNat (19 + payload.length) := by
      rw [← UInt16.toNat_inj, UInt8.toNat_toUInt16, hpayload, UInt16.toNat_ofNat',
        Nat.mod_eq_of_lt (by omega)]
    rw [fragmentFrame, fragmentCore_eq sessionId index h, List.append_assoc, List.append_assoc,
      ← hwide]
    refine decodeHeader_headerBytes frameCiphertextFragment 0 sessionId ?_
    rw [hpayload]
    simp
    omega
  · rw [fragmentFrame, fragmentCore_eq sessionId index h]
    rfl
  · rw [fragmentFrame, fragmentCore_eq sessionId index h]
    rfl
  · have hbyte : byteAt (fragmentFrame sha256 sessionAuthKey sessionId index payload) 12
        = UInt8.ofNat payload.length := by
      rw [fragmentFrame, fragmentCore_eq sessionId index h]
      rfl
    rw [hbyte, UInt8.toNat_ofNat', Nat.mod_eq_of_lt (by omega)]
  · rw [fragmentFrame, fragmentCore_eq sessionId index h]
    exact slice_field (by simp) rfl
  · rw [fragmentFrame, slice_append_left (by omega), slice_self _ hcore]
  · rw [fragmentFrame, List.drop_left' hcore]

/-- What the first attempt sends is what was written into the buffer. -/
theorem FrameBuffer.take_write (stack : FrameBuffer) {frame : Bytes} (h : frame.length ≤ 96) :
    (stack.write frame).val.take frame.length = frame := by
  simp [FrameBuffer.write, List.take_take, Nat.min_eq_left h]

/-! ## Answers of the transport -/

/-- The answers to one attempt; `received` is used when the frame was sent. -/
structure AttemptResult where
  sendStatus : Int
  received : Received

/-- The attempt ends the exchange. -/
def AttemptResult.ends (result : AttemptResult) (sessionId : UInt32) (expectedType : UInt8)
    (expectedLength : Nat) : Prop :=
  result.sendStatus = 0 ∧ result.received.accepted sessionId expectedType expectedLength = true

/-- A transport that answers attempt `k` by `results k`; its state is what was sent. -/
def scriptAnswer (results : Nat → AttemptResult) :
    (call : ClientCall) → List Bytes → ClientReply call × List Bytes
  | .randomBytes length, sent => ((0, Block.zero length), sent)
  | .readPublicKey _, sent => (0, sent)
  | .sendFrame frame, sent => ((results sent.length).sendStatus, sent ++ [frame])
  | .receiveFrame _, sent => ((results (sent.length - 1)).received, sent)

section

variable {results : Nat → AttemptResult} {sent : List Bytes}

theorem run_sendFrame_bind {α : Type} (frame : Bytes) (f : Int → ClientProgram α) :
    (sendFrame frame >>= f).run (scriptAnswer results) sent
      = (f (results sent.length).sendStatus).run (scriptAnswer results) (sent ++ [frame]) := rfl

theorem run_receiveFrame_bind {α : Type} (frame : Bytes) (buffer : FrameBuffer)
    (f : Received → ClientProgram α) :
    (receiveFrame buffer >>= f).run (scriptAnswer results) (sent ++ [frame])
      = (f (results sent.length).received).run (scriptAnswer results) (sent ++ [frame]) := by
  have hlength : (sent ++ [frame]).length - 1 = sent.length := by simp
  show (f (results ((sent ++ [frame]).length - 1)).received).run (scriptAnswer results)
    (sent ++ [frame]) = _
  rw [hlength]

end

/-! ## The outcome -/

section

variable (results : Nat → AttemptResult) (sessionId : UInt32) (expectedType : UInt8)
  (expectedLength : Nat)

/-- The outcome of the attempts from `first` on: that of the first one that ends the
exchange, or a failure when none does. -/
def DecidedBy (first attempts : Nat) (outcome : Status × FrameBuffer) : Prop :=
  (∃ k < attempts,
      (∀ j < k, ¬ (results (first + j)).ends sessionId expectedType expectedLength)
      ∧ (results (first + k)).ends sessionId expectedType expectedLength
      ∧ outcome = (.ok, (results (first + k)).received.buffer))
    ∨ (∀ k < attempts, ¬ (results (first + k)).ends sessionId expectedType expectedLength)
      ∧ outcome.1 = .errIo

variable {results sessionId expectedType expectedLength}

theorem DecidedBy.later {first attempts : Nat} {outcome : Status × FrameBuffer}
    (hfirst : ¬ (results first).ends sessionId expectedType expectedLength)
    (h : DecidedBy results sessionId expectedType expectedLength (first + 1) attempts outcome) :
    DecidedBy results sessionId expectedType expectedLength first (attempts + 1) outcome := by
  have hshift (j : Nat) : first + 1 + j = first + (j + 1) := by omega
  simp only [DecidedBy, hshift] at h
  rcases h with ⟨k, hk, hbefore, hends, houtcome⟩ | ⟨hnone, houtcome⟩
  · refine .inl ⟨k + 1, by omega, ?_, hends, houtcome⟩
    intro j hj
    cases j with
    | zero => exact hfirst
    | succ j => exact hbefore j (by omega)
  · refine .inr ⟨?_, houtcome⟩
    intro k hk
    cases k with
    | zero => exact hfirst
    | succ k => exact hnone k (by omega)

/-- The attempt that decides an exchange is the first one that ends it. -/
theorem DecidedBy.eq {first attempts k : Nat} {outcome : Status × FrameBuffer}
    (h : DecidedBy results sessionId expectedType expectedLength first attempts outcome)
    (hk : k < attempts)
    (hbefore : ∀ j < k, ¬ (results (first + j)).ends sessionId expectedType expectedLength)
    (hends : (results (first + k)).ends sessionId expectedType expectedLength) :
    outcome = (.ok, (results (first + k)).received.buffer) := by
  rcases h with ⟨k', hk', hbefore', hends', houtcome⟩ | ⟨hnone, -⟩
  · rcases Nat.lt_trichotomy k k' with hlt | rfl | hgt
    · exact absurd hends (hbefore' k hlt)
    · exact houtcome
    · exact absurd hends' (hbefore k' hgt)
  · exact absurd hends (hnone k hk)

variable (results sessionId expectedType expectedLength) in
/-- An exchange ends with the first attempt that ends it, or fails after all attempts. -/
theorem exchangeAttempts_run (outgoingLength attempts : Nat) (buffer : FrameBuffer)
    (sent : List Bytes) :
    DecidedBy results sessionId expectedType expectedLength sent.length attempts
      ((exchangeAttempts sessionId outgoingLength expectedType expectedLength attempts
        buffer).run (scriptAnswer results) sent).1 := by
  induction attempts generalizing buffer sent with
  | zero => exact .inr ⟨fun k hk => absurd hk (Nat.not_lt_zero k), rfl⟩
  | succ attempts ih =>
    have hnext (buffer' : FrameBuffer) := ih buffer' (sent ++ [buffer.val.take outgoingLength])
    simp only [List.length_append, List.length_singleton] at hnext
    rw [exchangeAttempts, run_sendFrame_bind]
    by_cases hsend : (results sent.length).sendStatus = 0
    · rw [if_neg (not_not.mpr hsend), run_receiveFrame_bind]
      by_cases haccepted : (results sent.length).received.accepted sessionId expectedType
          expectedLength = true
      · rw [if_pos haccepted]
        exact .inl ⟨0, by omega, fun j hj => absurd hj (Nat.not_lt_zero j), ⟨hsend, haccepted⟩,
          rfl⟩
      · rw [if_neg haccepted]
        exact (hnext _).later fun h => haccepted h.2
    · rw [if_pos hsend]
      exact (hnext _).later fun h => hsend h.1

end

end C0PQLink
