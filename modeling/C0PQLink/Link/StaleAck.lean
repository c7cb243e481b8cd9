import C0PQLink.ReferencePeer.Handshake
import C0PQLink.Session.Retransmission

/-!
# Late acknowledgments

The ciphertext phase between the client and the reference peer, over a network that loses,
delays and duplicates the frames of the session.

* `Served.responses`: the peer answers the frames of the phase with its challenge and with
  acknowledgments of the fragments sent so far.
* `flush_ok_iff`: a flush whose acknowledgment arrives succeeds exactly when no
  acknowledgment of an earlier fragment arrives before it.
-/

namespace C0PQLink

open Foundation ReferencePeer

variable (sha256 : Bytes → Block 32)

/-! ## The phase -/

/-- The two ends while the client has fragment `fragmentIndex` of the ciphertext `chunks`
in its buffer: they share the session, and the peer holds no other ciphertext. -/
structure CiphertextPhase (client : Client) (writer : CiphertextWriter) (hello : Bytes)
    (chunks : Nat → Block 48) (peer : Peer) (session : Session) : Prop where
  pending : writer.pending = (chunks writer.fragmentIndex.toNat).val
  index : writer.fragmentIndex < fragmentCount
  known : peer.sessions client.sessionId = some session
  sessionId : session.sessionId = client.sessionId
  sessionAuthKey : session.sessionAuthKey = writer.sessionAuthKey
  challenge : session.challengeFrame.length = 84
  holds : session.Holds chunks
  hello : ∃ header, ReferencePeer.decodeHeader hello = .ok header ∧ header.type = frameHello
    ∧ header.sessionId = client.sessionId

/-- The frames the client has sent in the session so far. -/
def ClientFrame (client : Client) (writer : CiphertextWriter) (hello : Bytes)
    (chunks : Nat → Block 48) (frame : Bytes) : Prop :=
  frame = hello ∨ ∃ j ≤ writer.fragmentIndex,
    frame = fragmentFrame sha256 writer.sessionAuthKey client.sessionId j (chunks j.toNat).val

variable (decapsulate : Block 768 → Block 32)

/-- The frames a handler sends. -/
def emitted (result : Except PeerError (Option Bytes)) : List Bytes :=
  match result with
  | .ok (some response) => [response]
  | _ => []

/-- The peer after it handled frames of the client, each any number of times and in any
order, and the responses it sent. -/
inductive Served (client : Client) (writer : CiphertextWriter) (hello : Bytes)
    (chunks : Nat → Block 48) (peer : Peer) : Peer → List Bytes → Prop where
  | start : Served client writer hello chunks peer peer []
  | handle {peer' : Peer} {responses : List Bytes} {frame : Bytes} (application : Application)
      (random : Bytes) (before : Served client writer hello chunks peer peer' responses)
      (sent : ClientFrame sha256 client writer hello chunks frame) :
      Served client writer hello chunks peer
        (handleFrame sha256 decapsulate application peer' random frame).2.1
        (responses ++ emitted (handleFrame sha256 decapsulate application peer' random frame).1)

variable {sha256 decapsulate} {client : Client} {writer : CiphertextWriter} {hello : Bytes}
  {chunks : Nat → Block 48} {peer : Peer} {session : Session}

/-- A frame the peer sends in this phase. -/
def PeerFrame (sha256 : Bytes → Block 32) (client : Client) (writer : CiphertextWriter)
    (challengeFrame frame : Bytes) : Prop :=
  frame = challengeFrame ∨ ∃ j ≤ writer.fragmentIndex,
    frame = ackFrame sha256 writer.sessionAuthKey client.sessionId j

variable (sha256 decapsulate) in
/-- A fragment is acknowledged, whether or not it was handled before. -/
theorem CiphertextPhase.handleFrame_fragment
    (h : CiphertextPhase client writer hello chunks peer session) (application : Application)
    (random : Bytes) {j : UInt8} (hj : j ≤ writer.fragmentIndex) :
    handleFrame sha256 decapsulate application peer random
        (fragmentFrame sha256 writer.sessionAuthKey client.sessionId j (chunks j.toNat).val)
      = (.ok (some (ackFrame sha256 writer.sessionAuthKey client.sessionId j)),
        peer.setSession client.sessionId (session.store j (chunks j.toNat).val), none) := by
  have hindex : j < 16 := UInt8.lt_of_le_of_lt hj h.index
  have hstored := handleFragment_frame sha256 h.known hindex (chunks j.toNat)
    (fun hreceived => h.holds j.toNat (UInt8.lt_iff_toNat_lt.mp hindex) hreceived)
    ⟨frameCiphertextFragment, 0, 67, client.sessionId⟩ ⟨rfl, rfl⟩
  rw [h.sessionAuthKey, h.sessionId] at hstored
  rw [ReferencePeer.handleFrame, decodeHeader_fragmentFrame]
  have hnot : frameCiphertextFragment ≠ frameHello := by decide
  simp only [hnot, if_false, if_true, asFrameResult, hstored]
  rfl

theorem CiphertextPhase.store (h : CiphertextPhase client writer hello chunks peer session)
    {j : UInt8} (hj : j ≤ writer.fragmentIndex) :
    CiphertextPhase client writer hello chunks
      (peer.setSession client.sessionId (session.store j (chunks j.toNat).val))
      (session.store j (chunks j.toNat).val) :=
  { h with
    known := Peer.setSession_same ..
    sessionId := h.sessionId
    sessionAuthKey := h.sessionAuthKey
    challenge := h.challenge
    holds := h.holds.store (UInt8.lt_of_le_of_lt hj h.index) }

variable (decapsulate) in
/-- One frame of the client keeps the phase, and is answered with a frame of the phase. -/
theorem CiphertextPhase.handleFrame (h : CiphertextPhase client writer hello chunks peer session)
    (application : Application) (random : Bytes) {frame : Bytes}
    (hframe : ClientFrame sha256 client writer hello chunks frame) :
    (∃ session', session'.challengeFrame = session.challengeFrame ∧
        CiphertextPhase client writer hello chunks
          (handleFrame sha256 decapsulate application peer random frame).2.1 session')
      ∧ ∀ response ∈ emitted (handleFrame sha256 decapsulate application peer random frame).1,
        PeerFrame sha256 client writer session.challengeFrame response := by
  rcases hframe with rfl | ⟨j, hj, rfl⟩
  · obtain ⟨header, hheader, htype, hid⟩ := h.hello
    rw [ReferencePeer.handleFrame, hheader]
    simp only [htype, if_true, asFrameResult]
    rcases handleHello_known sha256 random hheader (hid ▸ h.known) with ⟨error, hresult⟩ | hresult
    · rw [hresult]
      refine ⟨⟨session, rfl, h⟩, fun response hresponse => ?_⟩
      simp [emitted, Except.map] at hresponse
    · rw [hresult]
      refine ⟨⟨session, rfl, h⟩, fun response hresponse => .inl ?_⟩
      simpa [emitted, Except.map] using hresponse
  · rw [h.handleFrame_fragment sha256 decapsulate application random hj]
    refine ⟨⟨session.store j (chunks j.toNat).val, rfl, h.store hj⟩, fun response hresponse => ?_⟩
    exact .inr ⟨j, hj, by simpa [emitted] using hresponse⟩

/-- A fragment handled after others. -/
theorem Served.fragment {peer' : Peer} {responses : List Bytes} {session' : Session}
    (hserved : Served sha256 decapsulate client writer hello chunks peer peer' responses)
    (h : CiphertextPhase client writer hello chunks peer' session') {j : UInt8}
    (hj : j ≤ writer.fragmentIndex) :
    Served sha256 decapsulate client writer hello chunks peer
      (peer'.setSession client.sessionId (session'.store j (chunks j.toNat).val))
      (responses ++ [ackFrame sha256 writer.sessionAuthKey client.sessionId j]) := by
  have hnext := hserved.handle (fun _ => .ok none) [] (.inr ⟨j, hj, rfl⟩)
  rwa [h.handleFrame_fragment sha256 decapsulate _ _ hj] at hnext

theorem Served.responses {peer' : Peer} {responses : List Bytes}
    (hserved : Served sha256 decapsulate client writer hello chunks peer peer' responses)
    (h : CiphertextPhase client writer hello chunks peer session) :
    (∃ session', session'.challengeFrame = session.challengeFrame ∧
        CiphertextPhase client writer hello chunks peer' session')
      ∧ ∀ response ∈ responses, PeerFrame sha256 client writer session.challengeFrame response := by
  induction hserved with
  | start => exact ⟨⟨session, rfl, h⟩, fun response hresponse => by simp at hresponse⟩
  | handle application random before sent ih =>
    obtain ⟨⟨session', hchallenge, hphase⟩, hbefore⟩ := ih
    obtain ⟨⟨session'', hchallenge', hphase'⟩, hlast⟩ :=
      hphase.handleFrame decapsulate application random sent
    refine ⟨⟨session'', hchallenge'.trans hchallenge, hphase'⟩, ?_⟩
    intro response hresponse
    rcases List.mem_append.mp hresponse with hold | hnew
    · exact hbefore response hold
    · exact hchallenge ▸ hlast response hnew

/-! ## Schedules -/

/-- The receive of attempt `k` returns the frame. -/
def Arrives (results : Nat → AttemptResult) (k : Nat) (frame : Bytes) : Prop :=
  (results k).sendStatus = 0 ∧ (results k).received.status = 0
    ∧ (results k).received.length = frame.length
    ∧ (results k).received.buffer.val.take frame.length = frame

/-- Every receive that succeeds returns one of the given frames. -/
def Delivers (results : Nat → AttemptResult) (frames : List Bytes) : Prop :=
  ∀ k, (results k).sendStatus = 0 → (results k).received.status = 0 →
    ∃ frame ∈ frames, Arrives results k frame

theorem Arrives.unique {results : Nat → AttemptResult} {k : Nat} {frame frame' : Bytes}
    (h : Arrives results k frame) (h' : Arrives results k frame') : frame = frame' := by
  obtain ⟨-, -, hlength, htake⟩ := h
  obtain ⟨-, -, hlength', htake'⟩ := h'
  rw [← htake, ← htake', ← hlength, ← hlength']

/-- An acknowledgment that arrives passes the filter, whatever fragment it is for. -/
theorem Arrives.ends_ack {results : Nat → AttemptResult} {k : Nat} {j : UInt8}
    (h : Arrives results k (ackFrame sha256 writer.sessionAuthKey client.sessionId j)) :
    (results k).ends client.sessionId frameCiphertextAck 28 := by
  obtain ⟨hsend, hstatus, hlength, htake⟩ := h
  rw [length_ackFrame] at hlength htake
  refine ⟨hsend, ?_⟩
  simp [Received.accepted, hstatus, hlength, htake, acceptsFrame, decodeHeader_ackFrame]

/-- In a schedule of the phase, only acknowledgments end an exchange of fragments. -/
theorem ack_of_ends {results : Nat → AttemptResult} {responses : List Bytes} {k : Nat}
    {challengeFrame : Bytes} (hchallenge : challengeFrame.length = 84)
    (hresponses : ∀ response ∈ responses, PeerFrame sha256 client writer challengeFrame response)
    (hdelivers : Delivers results responses)
    (hends : (results k).ends client.sessionId frameCiphertextAck 28) :
    ∃ j ≤ writer.fragmentIndex,
      Arrives results k (ackFrame sha256 writer.sessionAuthKey client.sessionId j) := by
  obtain ⟨hsend, haccepted⟩ := hends
  simp only [Received.accepted, decide_eq_true_eq] at haccepted
  obtain ⟨hstatus, hlength, -⟩ := haccepted
  obtain ⟨frame, hmem, harrives⟩ := hdelivers k hsend hstatus
  rcases hresponses frame hmem with rfl | ⟨j, hj, rfl⟩
  · have hwrong := harrives.2.2.1
    omega
  · exact ⟨j, hj, harrives⟩

/-! ## The flush -/

/-- The flush when an acknowledgment is the first frame that ends its exchange. -/
theorem flush_run {results : Nat → AttemptResult} (stack : FrameBuffer)
    (hpending : writer.pending.length ≠ 0) (hindex : writer.fragmentIndex < fragmentCount)
    {k : Nat} (hk : k ≤ client.config.maximumRetries.toNat) {j : UInt8}
    (hfirst : ∀ i < k, ¬ (results i).ends client.sessionId frameCiphertextAck 28)
    (harrives : Arrives results k (ackFrame sha256 writer.sessionAuthKey client.sessionId j)) :
    ((flushCiphertextFragment sha256 client writer stack).run (scriptAnswer results) []).1
      = if j = writer.fragmentIndex then
          (.ok, { writer with fragmentIndex := writer.fragmentIndex + 1, pending := [] })
        else (.errState, writer) := by
  have hnot : ¬ (writer.pending.length = 0 ∨ writer.fragmentIndex ≥ fragmentCount) := by
    rintro (h | h)
    · exact hpending h
    · exact UInt8.not_le.mpr hindex h
  let frame := fragmentFrame sha256 writer.sessionAuthKey client.sessionId writer.fragmentIndex
    writer.pending
  have hdecided := exchangeAttempts_run results client.sessionId frameCiphertextAck 28
    frame.length (client.config.maximumRetries.toNat + 1) (stack.write frame) []
  simp only [List.length_nil] at hdecided
  have houtcome := hdecided.eq (show k < client.config.maximumRetries.toNat + 1 by omega)
    (by simpa using hfirst) (by simpa using harrives.ends_ack)
  rw [Nat.zero_add] at houtcome
  have htake : (results k).received.buffer.val.take 28
      = ackFrame sha256 writer.sessionAuthKey client.sessionId j := by
    have h := harrives.2.2.2
    rwa [length_ackFrame] at h
  rw [flushCiphertextFragment, if_neg hnot]
  simp only [sendAndReceive, Program.run_bind, frame] at houtcome ⊢
  rw [houtcome]
  by_cases hj : j = writer.fragmentIndex
  · simp only [ne_eq, not_true_eq_false, if_false, htake, checkAck_ackFrame, hj, if_true]
    rfl
  · simp only [ne_eq, not_true_eq_false, if_false, htake, checkAck_ackFrame, hj]
    rfl

/-- When the acknowledgment of the fragment arrives, the flush succeeds exactly when no
acknowledgment of an earlier fragment arrives before it. -/
theorem flush_ok_iff (stack : FrameBuffer) {peer' : Peer} {responses : List Bytes}
    {results : Nat → AttemptResult}
    (hphase : CiphertextPhase client writer hello chunks peer session)
    (hserved : Served sha256 decapsulate client writer hello chunks peer peer' responses)
    (hdelivers : Delivers results responses)
    (harrives : ∃ k ≤ client.config.maximumRetries.toNat, Arrives results k
      (ackFrame sha256 writer.sessionAuthKey client.sessionId writer.fragmentIndex)) :
    ((flushCiphertextFragment sha256 client writer stack).run (scriptAnswer results) []).1
        = (.ok, { writer with fragmentIndex := writer.fragmentIndex + 1, pending := [] })
      ↔ ∀ k, ∀ j < writer.fragmentIndex,
          Arrives results k (ackFrame sha256 writer.sessionAuthKey client.sessionId j) →
          ∃ k' < k, Arrives results k'
            (ackFrame sha256 writer.sessionAuthKey client.sessionId writer.fragmentIndex) := by
  have hpending : writer.pending.length ≠ 0 := by
    rw [hphase.pending, Block.length_val]
    decide
  have hresponses := (hserved.responses hphase).2
  obtain ⟨last, hlast, hlastArrives⟩ := harrives
  -- the first attempt that ends the exchange, and the acknowledgment it receives
  obtain ⟨k, hends, hfirst⟩ : ∃ k, (results k).ends client.sessionId frameCiphertextAck 28
      ∧ ∀ i < k, ¬ (results i).ends client.sessionId frameCiphertextAck 28 := by
    classical
    have hsome : ∃ k, (results k).ends client.sessionId frameCiphertextAck 28 :=
      ⟨last, hlastArrives.ends_ack⟩
    exact ⟨Nat.find hsome, Nat.find_spec hsome, fun i hi => Nat.find_min hsome hi⟩
  have hk : k ≤ client.config.maximumRetries.toNat := by
    by_contra hgt
    exact hfirst last (by omega) hlastArrives.ends_ack
  obtain ⟨j, hj, hjArrives⟩ := ack_of_ends hphase.challenge hresponses hdelivers hends
  rw [flush_run stack hpending hphase.index hk hfirst hjArrives]
  constructor
  · intro h i stale hstale hstaleArrives
    have hsame : j = writer.fragmentIndex := by
      by_contra hne
      rw [if_neg hne] at h
      cases h
    subst hsame
    refine ⟨k, ?_, hjArrives⟩
    rcases Nat.lt_trichotomy k i with hlt | rfl | hgt
    · exact hlt
    · have hindex := ackFrame_inj sha256 (hjArrives.unique hstaleArrives)
      exact absurd hindex.symm (UInt8.ne_of_lt hstale)
    · exact absurd hstaleArrives.ends_ack (hfirst i hgt)
  · intro h
    have hsame : j = writer.fragmentIndex := by
      by_contra hne
      have hlt : j < writer.fragmentIndex := UInt8.lt_of_le_of_ne hj hne
      obtain ⟨k', hk', harrives'⟩ := h k j hlt hjArrives
      exact hfirst k' hk' harrives'.ends_ack
    rw [if_pos hsame]

/-! ## A duplicated acknowledgment

Fragment 0 was retransmitted, so that the peer has acknowledged it twice. The second
acknowledgment arrives while the client waits for that of fragment 1. The digest is the
constant one, which makes all keys and tags zero. -/

def zeroKem (_ : Block 768) : Block 32 := Block.zero 32

def zeroChunks (_ : Nat) : Block 48 := Block.zero 48

def secondFragment : CiphertextWriter where
  transcript := transcriptInit
  sessionAuthKey := Block.zero 32
  pending := List.replicate 48 0
  fragmentIndex := 1
  failure := .ok

def exampleHello : Bytes :=
  (helloFrame zeroDigest 1 ⟨1, Block.zero 8, 0, Block.zero 16⟩ retryClient.config.psk).val

def exampleSession : Session where
  sessionId := 1
  device := ⟨retryClient.config.psk, fullPqEachSession⟩
  helloCore := exampleHello.take 44
  challengeCore := challengeCore 1 ⟨1, 0, retryClient.config.publicKeyId, Block.zero 16,
    Block.zero 16⟩
  challengeFrame := (challengeFrame zeroDigest 1 ⟨1, 0, retryClient.config.publicKeyId,
    Block.zero 16, Block.zero 16⟩ retryClient.config.psk).val
  sessionAuthKey := Block.zero 32
  ciphertext := Block.zero 768
  received := fun _ => false
  established := false
  sendSequence := 0
  receiveSequence := 0
  keys := none
  transcriptHash := none
  serverFinishedFrame := none
  lastClientFrame := none
  lastResponseFrame := none

def examplePeer : Peer where
  epoch := 0
  keyId := retryClient.config.publicKeyId
  devices := fun _ => none
  sessions := fun sessionId => if sessionId = 1 then some exampleSession else none

def exampleAck (index : UInt8) : Bytes :=
  ackFrame zeroDigest secondFragment.sessionAuthKey retryClient.sessionId index

/-- The answers to an attempt that receives an acknowledgment. -/
def receivedAck (index : UInt8) : AttemptResult where
  sendStatus := 0
  received := ⟨0, FrameBuffer.write (Block.zero 96) (exampleAck index), 28⟩

theorem examplePhase :
    CiphertextPhase retryClient secondFragment exampleHello zeroChunks examplePeer
      exampleSession where
  pending := rfl
  index := by decide
  known := rfl
  sessionId := rfl
  sessionAuthKey := rfl
  challenge := by simp [exampleSession]
  holds := fun _ _ h => by cases h
  hello := ⟨⟨frameHello, 0, 50, 1⟩, by decide +kernel, rfl, rfl⟩

/-- Fragment 0 is handled twice, then fragment 1. -/
theorem exampleServed :
    ∃ peer', Served zeroDigest zeroKem retryClient secondFragment exampleHello zeroChunks
      examplePeer peer' [exampleAck 0, exampleAck 0, exampleAck 1] := by
  have hzero : (0 : UInt8) ≤ secondFragment.fragmentIndex := by decide
  have hone : (1 : UInt8) ≤ secondFragment.fragmentIndex := by decide
  have hphase := examplePhase.store hzero
  exact ⟨_, ((Served.start.fragment examplePhase hzero).fragment hphase hzero).fragment
    (hphase.store hzero) hone⟩

theorem arrives_receivedAck {results : Nat → AttemptResult} {k : Nat} {index : UInt8}
    (h : results k = receivedAck index) : Arrives results k (exampleAck index) := by
  have hlength : (exampleAck index).length = 28 := length_ackFrame ..
  refine ⟨by rw [h]; rfl, by rw [h]; rfl, by rw [h, hlength]; rfl, ?_⟩
  rw [h]
  exact FrameBuffer.take_write (Block.zero 96) (by omega)

/-- The schedule of a flush that receives acknowledgments for the given fragments. -/
theorem delivers_receivedAck {results : Nat → AttemptResult}
    (h : ∀ k, results k = receivedAck 0 ∨ results k = receivedAck 1) :
    Delivers results [exampleAck 0, exampleAck 0, exampleAck 1] := by
  intro k _ _
  rcases h k with h | h
  · exact ⟨exampleAck 0, by simp, arrives_receivedAck h⟩
  · exact ⟨exampleAck 1, by simp, arrives_receivedAck h⟩

/-- The first attempt receives the second acknowledgment of fragment 0, the others that of
fragment 1. -/
def lateAckResults (k : Nat) : AttemptResult := if k = 0 then receivedAck 0 else receivedAck 1

theorem lateAck_failsFlush :
    CiphertextPhase retryClient secondFragment exampleHello zeroChunks examplePeer exampleSession
      ∧ (∃ peer', Served zeroDigest zeroKem retryClient secondFragment exampleHello zeroChunks
        examplePeer peer' [exampleAck 0, exampleAck 0, exampleAck 1])
      ∧ Delivers lateAckResults [exampleAck 0, exampleAck 0, exampleAck 1]
      ∧ 1 ≤ retryClient.config.maximumRetries.toNat ∧ Arrives lateAckResults 1 (exampleAck 1)
      ∧ ((flushCiphertextFragment zeroDigest retryClient secondFragment (Block.zero 96)).run
          (scriptAnswer lateAckResults) []).1 = (.errState, secondFragment) := by
  have harrives : Arrives lateAckResults 0 (exampleAck 0) := arrives_receivedAck rfl
  refine ⟨examplePhase, exampleServed, delivers_receivedAck ?_, by decide, arrives_receivedAck rfl,
    ?_⟩
  · intro k
    by_cases hk : k = 0
    · exact .inl (by simp [lateAckResults, hk])
    · exact .inr (by simp [lateAckResults, hk])
  · exact flush_run (Block.zero 96) (by decide) (by decide) (Nat.zero_le _)
      (fun i hi => absurd hi (Nat.not_lt_zero i)) harrives

theorem flush_ok_iff_timely :
    ((flushCiphertextFragment zeroDigest retryClient secondFragment (Block.zero 96)).run
        (scriptAnswer fun _ => receivedAck 1) []).1
      = (.ok, { secondFragment with fragmentIndex := 2, pending := [] }) := by
  obtain ⟨peer', hserved⟩ := exampleServed
  have harrives (k : Nat) : Arrives (fun _ => receivedAck 1) k (exampleAck 1) :=
    arrives_receivedAck rfl
  have hiff := flush_ok_iff (Block.zero 96) examplePhase hserved
    (delivers_receivedAck fun _ => .inr rfl) ⟨0, Nat.zero_le _, harrives 0⟩
  refine hiff.mpr fun k j hj hstale => ?_
  -- every receive returns the acknowledgment of fragment 1
  have hindex : j = 1 := ackFrame_inj zeroDigest (hstale.unique (harrives k))
  exact absurd hindex (UInt8.ne_of_lt hj)

end C0PQLink
