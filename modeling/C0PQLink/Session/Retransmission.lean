import C0PQLink.Session.Exchange

/-!
# Retransmissions

The frames one call of `send_and_receive` hands to `send_frame`, for every sequence of
answers of the transport. The three callers pass one buffer for both directions, so a
receive that fails after writing, or that delivers a frame the filter refuses, changes
what the next attempt sends.

* `sent_iff`: all frames sent are the first one exactly when no attempt before the last
  leaves other bytes in the buffer.
* `retransmits_iff`: the same for the exchanges of the handshake.
-/

namespace C0PQLink

open Foundation

variable (sha256 : Bytes → Block 32)

/-! ## The exchanges of the handshake -/

/-- A request of the handshake, with what its caller encodes into it. -/
inductive HandshakeRequest where
  | hello (fields : Hello)
  | fragment (sessionAuthKey : Block 32) (index : UInt8)
      (payload : { p : Bytes // p.length ≤ fragmentPayloadBytes })
  | finished (deviceFinishedKey transcriptHash : Block 32)

namespace HandshakeRequest

/-- The frame the caller encodes. -/
def frame (client : Client) : HandshakeRequest → Bytes
  | .hello fields => (helloFrame sha256 client.sessionId fields client.config.psk).val
  | .fragment sessionAuthKey index payload =>
    fragmentFrame sha256 sessionAuthKey client.sessionId index payload.val
  | .finished deviceFinishedKey transcriptHash =>
    finishedFrame sha256 deviceFinishedKey frameDeviceFinished client.sessionId transcriptHash

def responseType : HandshakeRequest → UInt8
  | .hello _ => frameChallenge
  | .fragment _ _ _ => frameCiphertextAck
  | .finished _ _ => frameServerFinished

def responseLength : HandshakeRequest → Nat
  | .hello _ => 84
  | .fragment _ _ _ => 28
  | .finished _ _ => 26

/-- The call of `send_and_receive` for a request, with the frame in the stack buffer. -/
def exchange (client : Client) (request : HandshakeRequest) (stack : FrameBuffer) :
    ClientProgram (Status × FrameBuffer) :=
  sendAndReceive client (request.frame sha256 client).length request.responseType
    request.responseLength (stack.write (request.frame sha256 client))

end HandshakeRequest

theorem HandshakeRequest.length_frame_le (client : Client) (request : HandshakeRequest) :
    (request.frame sha256 client).length ≤ 96 := by
  cases request with
  | hello fields => simp [frame]
  | fragment sessionAuthKey index payload =>
    have hpayload : payload.val.length ≤ 48 := payload.property
    rw [frame, length_fragmentFrame sha256 sessionAuthKey payload.property]
    omega
  | finished deviceFinishedKey transcriptHash => simp [frame]

/-! ## The frames sent -/

/-- The frames sent by the attempts of an exchange, after those of `sent`. -/
def framesSent (client : Client) (outgoingLength : Nat) (expectedType : UInt8)
    (expectedLength attempts : Nat) (buffer : FrameBuffer) (results : Nat → AttemptResult)
    (sent : List Bytes) : List Bytes :=
  ((exchangeAttempts client.sessionId outgoingLength expectedType expectedLength attempts
    buffer).run (scriptAnswer results) sent).2

section

variable (client : Client) (outgoingLength : Nat) (expectedType : UInt8) (expectedLength : Nat)
  (results : Nat → AttemptResult)

/-- The first attempt of an exchange, and what the attempts after it start from. -/
theorem framesSent_succ (attempts : Nat) (buffer : FrameBuffer) (sent : List Bytes) :
    framesSent client outgoingLength expectedType expectedLength (attempts + 1) buffer results sent
      = let result := results sent.length
        let sent' := sent ++ [buffer.val.take outgoingLength]
        if result.sendStatus ≠ 0 then
          framesSent client outgoingLength expectedType expectedLength attempts buffer results sent'
        else if result.received.accepted client.sessionId expectedType expectedLength then sent'
        else
          framesSent client outgoingLength expectedType expectedLength attempts
            result.received.buffer results sent' := by
  rw [framesSent, exchangeAttempts, run_sendFrame_bind]
  by_cases hsend : (results sent.length).sendStatus = 0
  · simp only [hsend, ne_eq, not_true_eq_false, if_false]
    rw [run_receiveFrame_bind]
    split <;> rfl
  · simp only [ne_eq, hsend, not_false_eq_true, if_true]
    rfl

theorem length_framesSent_le (attempts : Nat) (buffer : FrameBuffer) (sent : List Bytes) :
    (framesSent client outgoingLength expectedType expectedLength attempts buffer results
      sent).length ≤ sent.length + attempts := by
  induction attempts generalizing buffer sent with
  | zero => exact Nat.le_refl _
  | succ attempts ih =>
    have hnext (buffer' : FrameBuffer) := ih buffer' (sent ++ [buffer.val.take outgoingLength])
    simp only [List.length_append, List.length_singleton] at hnext
    rw [framesSent_succ]
    dsimp only
    split
    · have h := hnext buffer
      omega
    · split
      · simp
      · have h := hnext (results sent.length).received.buffer
        omega

/-- No attempt before the last changes the outgoing bytes of the buffer, as long as the
exchange goes on. Attempts are counted from `first`. -/
def KeepsRequest (frame : Bytes) (first attempts : Nat) : Prop :=
  ∀ k, k + 1 < attempts →
    (∀ j ≤ k, ¬ (results (first + j)).ends client.sessionId expectedType expectedLength) →
    (results (first + k)).sendStatus = 0 →
    (results (first + k)).received.buffer.val.take outgoingLength = frame

variable {client expectedType expectedLength results}

theorem keepsRequest_of_ends (frame : Bytes) {first : Nat} (attempts : Nat)
    (h : (results first).ends client.sessionId expectedType expectedLength) :
    KeepsRequest client outgoingLength expectedType expectedLength results frame first
      attempts := by
  intro k _ hends _
  exact absurd h (hends 0 (Nat.zero_le k))

variable {outgoingLength}

/-- The condition on the first attempt, and the condition on the others. -/
theorem keepsRequest_succ {frame : Bytes} {first attempts : Nat}
    (h : ¬ (results first).ends client.sessionId expectedType expectedLength) :
    KeepsRequest client outgoingLength expectedType expectedLength results frame first
        (attempts + 1)
      ↔ (0 < attempts → (results first).sendStatus = 0 →
          (results first).received.buffer.val.take outgoingLength = frame)
        ∧ KeepsRequest client outgoingLength expectedType expectedLength results frame (first + 1)
          attempts := by
  constructor
  · intro hkeeps
    refine ⟨fun hpos hsend => hkeeps 0 (by omega) ?_ hsend, ?_⟩
    · intro j hj
      obtain rfl : j = 0 := by omega
      exact h
    · intro k hk hends hsend
      have hshift (j : Nat) : first + (j + 1) = first + 1 + j := by omega
      have hk' := hkeeps (k + 1) (by omega)
      rw [hshift] at hk'
      refine hk' ?_ hsend
      intro j hj
      cases j with
      | zero => exact h
      | succ j =>
        rw [hshift]
        exact hends j (by omega)
  · rintro ⟨hfirst, hrest⟩ k hk hends hsend
    cases k with
    | zero => exact hfirst (by omega) hsend
    | succ k =>
      have hshift (j : Nat) : first + (j + 1) = first + 1 + j := by omega
      rw [hshift] at hsend ⊢
      refine hrest k (by omega) ?_ hsend
      intro j hj
      rw [← hshift]
      exact hends (j + 1) (by omega)

variable (client outgoingLength expectedType expectedLength results)

/-- All frames sent are `frame` exactly when the first attempt sends it and no attempt
before the last changes it. -/
theorem sent_iff (frame : Bytes) (attempts : Nat) (buffer : FrameBuffer) (sent : List Bytes) :
    (∀ f ∈ framesSent client outgoingLength expectedType expectedLength attempts buffer results
        sent, f = frame)
      ↔ (∀ f ∈ sent, f = frame) ∧ (0 < attempts → buffer.val.take outgoingLength = frame)
        ∧ KeepsRequest client outgoingLength expectedType expectedLength results frame sent.length
          attempts := by
  induction attempts generalizing buffer sent with
  | zero =>
    constructor
    · exact fun h => ⟨h, by omega, fun k hk => by omega⟩
    · exact fun h => h.1
  | succ attempts ih =>
    rw [framesSent_succ]
    dsimp only
    have hsent : (∀ f ∈ sent ++ [buffer.val.take outgoingLength], f = frame)
        ↔ (∀ f ∈ sent, f = frame) ∧ buffer.val.take outgoingLength = frame := by
      simp [or_imp, forall_and]
    have hlength : (sent ++ [buffer.val.take outgoingLength]).length = sent.length + 1 := by simp
    by_cases hsend : (results sent.length).sendStatus = 0
    · by_cases haccepted :
          (results sent.length).received.accepted client.sessionId expectedType expectedLength
      · have hends := keepsRequest_of_ends outgoingLength frame (attempts + 1) ⟨hsend, haccepted⟩
        simp only [hsend, ne_eq, not_true_eq_false, if_false, haccepted, if_true]
        rw [hsent]
        simp [hends]
      · have hends : ¬ (results sent.length).ends client.sessionId expectedType expectedLength :=
          fun h => haccepted h.2
        simp only [hsend, ne_eq, not_true_eq_false, if_false, haccepted]
        rw [if_neg (by simp), ih, hsent, hlength, keepsRequest_succ hends]
        simp only [hsend, forall_const, Nat.succ_pos]
        tauto
    · have hends : ¬ (results sent.length).ends client.sessionId expectedType expectedLength :=
        fun h => hsend h.1
      simp only [ne_eq, hsend, not_false_eq_true, if_true]
      rw [ih, hsent, hlength, keepsRequest_succ hends]
      simp only [hsend, false_imp_iff, implies_true, true_and, Nat.succ_pos, forall_const]
      tauto

end

/-! ## The handshake -/

/-- What a retransmission is: the exchange sends nothing but the frame its caller encoded,
and at most once more than `maximum_retries`. -/
def Retransmits (client : Client) (request : HandshakeRequest) (stack : FrameBuffer)
    (results : Nat → AttemptResult) : Prop :=
  let sent := ((request.exchange sha256 client stack).run (scriptAnswer results) []).2
  (∀ frame ∈ sent, frame = request.frame sha256 client)
    ∧ sent.length ≤ client.config.maximumRetries.toNat + 1

/-- While the exchange goes on, each receive that is followed by a further attempt leaves
the outgoing bytes of the buffer as the caller encoded them. -/
def LeavesRequest (client : Client) (request : HandshakeRequest)
    (results : Nat → AttemptResult) : Prop :=
  ∀ k < client.config.maximumRetries.toNat,
    (∀ j ≤ k, ¬ (results j).ends client.sessionId request.responseType request.responseLength) →
    (results k).sendStatus = 0 →
    (results k).received.buffer.val.take (request.frame sha256 client).length
      = request.frame sha256 client

/-- The frames sent in an exchange of the handshake, by the general result. -/
theorem request_sent_iff (client : Client) (request : HandshakeRequest) (stack : FrameBuffer)
    (results : Nat → AttemptResult) :
    (∀ frame ∈ ((request.exchange sha256 client stack).run (scriptAnswer results) []).2,
        frame = request.frame sha256 client)
      ↔ LeavesRequest sha256 client request results := by
  have hfirst := stack.take_write (request.length_frame_le sha256 client)
  have hsent := sent_iff client (request.frame sha256 client).length request.responseType
    request.responseLength results (request.frame sha256 client)
    (client.config.maximumRetries.toNat + 1) (stack.write (request.frame sha256 client)) []
  simp only [List.not_mem_nil, false_imp_iff, implies_true, hfirst, true_and, List.length_nil,
    KeepsRequest, Nat.zero_add, Nat.add_lt_add_iff_right] at hsent
  exact hsent

theorem retransmits_iff (client : Client) (request : HandshakeRequest) (stack : FrameBuffer)
    (results : Nat → AttemptResult) :
    Retransmits sha256 client request stack results
      ↔ LeavesRequest sha256 client request results := by
  have hbound := length_framesSent_le client (request.frame sha256 client).length
    request.responseType request.responseLength results (client.config.maximumRetries.toNat + 1)
    (stack.write (request.frame sha256 client)) []
  rw [List.length_nil, Nat.zero_add] at hbound
  constructor
  · intro h
    exact (request_sent_iff sha256 client request stack results).mp h.1
  · intro h
    exact ⟨(request_sent_iff sha256 client request stack results).mpr h, hbound⟩

/-! A duplicated challenge that arrives while the client waits for the acknowledgment of
the first fragment is refused by the filter, and its bytes are sent at the next attempt. -/

def retryClient : Client where
  config :=
    { deviceId := Block.zero 8
      psk := Block.replicate 32 1
      epoch := 0
      publicKeyId := Block.replicate 16 1
      mode := fullPqEachSession
      timeoutMs := 3000
      maximumRetries := 1 }
  state := .connecting
  sessionId := 1
  sendSecret := Block.zero 32
  receiveSecret := Block.zero 32
  sendNonceBase := Block.zero 16
  receiveNonceBase := Block.zero 16
  sendSequence := 0
  receiveSequence := 0

def firstFragment : HandshakeRequest :=
  .fragment (Block.zero 32) 0 ⟨List.replicate 48 0, Nat.le_refl 48⟩

def duplicatedChallenge : AttemptResult where
  sendStatus := 0
  received :=
    { status := 0
      buffer := FrameBuffer.write (Block.zero 96)
        (challengeFrame sha256 1
          ⟨1, 0, retryClient.config.publicKeyId, Block.zero 16, Block.zero 16⟩
          retryClient.config.psk).val
      length := 84 }

theorem refusedFrame_sent :
    ¬ ∃ sha256, Retransmits sha256 retryClient firstFragment (Block.zero 96)
      fun _ => duplicatedChallenge sha256 := by
  rintro ⟨sha256, hall, -⟩
  have hleaves := (request_sent_iff sha256 _ _ _ _).mp hall 0 (by decide)
    (fun _ _ hends => by simpa [Received.accepted, duplicatedChallenge, firstFragment,
      HandshakeRequest.responseLength] using hends.2) rfl
  have hlength : (firstFragment.frame sha256 retryClient).length = 77 :=
    length_fragmentFrame sha256 (Block.zero 32) (Nat.le_refl 48)
  rw [hlength] at hleaves
  -- byte 3 is the frame type: a challenge is sent where the fragment should be
  have htype : frameChallenge = frameCiphertextFragment := congrArg (byteAt · 3) hleaves
  exact absurd htype (by decide)

end C0PQLink
