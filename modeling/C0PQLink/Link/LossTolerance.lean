import C0PQLink.Core.MlKem512Flash
import C0PQLink.Link.Handshake
import C0PQLink.Link.RecordChannel
import C0PQLink.Session.Lifecycle

/-!
# Loss tolerance of the handshake

`c0pq_client_connect` over a link that loses requests and responses. Every phase of the
connect follows the conversation of the handshake until an exchange gets no answer.

* `requestChallenge_lossy`, `sendCiphertext_lossy`, `exchangeFinished_lossy`: the phases.
* `Streaming`: where the ciphertext writer stands in the conversation.
* `lossyConnect_outcome`: the connect ends with both ends established if every exchange has
  an attempt that goes through, and fails at the first one that has none.
* `connect_lossTolerant`: with it the frames that are sent, and the states of the peer.
-/

namespace C0PQLink.Link

open Foundation ReferencePeer

section

variable (sha256 : Bytes → Block 32) (hashes : Fips203.Hashes)
  {decapsulate : Block 768 → Block 32} (application : Application) {h : Handshake}
  {start : Server} {keys : SessionKeys} (fates : Nat → Nat → Fate)
  {random : (length : Nat) → Block length}
  (hprovisioned : Provisioned hashes decapsulate h start.1)
  (hkeys : ReferencePeer.deriveSessionKeys sha256 h.client.config.psk (h.sharedSecret hashes)
    (sha256 (h.transcript hashes)) = .ok keys)

/-! ## Where the client stands -/

/-- The client in the callbacks of the connect. -/
def Handshake.connecting (h : Handshake) : Client := h.client.connecting h.deviceNonce

/-- The attempts of one exchange. -/
def Handshake.attempts (h : Handshake) : Nat := h.client.config.maximumRetries.toNat + 1

/-- The client has the answers of the first `i` exchanges. -/
abbrev Handshake.Reached (i : Nat) (link : FrameLink) : Prop :=
  (h.conversation sha256 hashes application hprovisioned hkeys).Reached fates h.attempts i link

/-- Exchange `i` has got no answer. -/
abbrev Handshake.Broken (i : Nat) (link : FrameLink) : Prop :=
  (h.conversation sha256 hashes application hprovisioned hkeys).Broken fates h.attempts i link

/-- The callbacks of the handshake. -/
abbrev Handshake.environment (decapsulate : Block 768 → Block 32) (h : Handshake)
    (random : (length : Nat) → Block length) :=
  lossyAnswer (serveFrame sha256 decapsulate application h.serverNonce) fates random h.publicKey

theorem acceptsFrame_of_decodeHeader {frame : Bytes} {type flags : UInt8}
    {payloadLength : UInt16} {sessionId : UInt32}
    (hheader : C0PQLink.decodeHeader frame = .ok ⟨type, flags, payloadLength, sessionId⟩) :
    acceptsFrame sessionId type frame.length frame = true := by
  simp [acceptsFrame, hheader]

/-! ## One exchange -/

variable {sha256 hashes application fates hprovisioned hkeys}
variable {link : FrameLink} {i : Nat}

/-- An exchange of the handshake, for a request and an answer that are known. -/
theorem exchange_lossy
    (hreached : h.Reached sha256 hashes application fates hprovisioned hkeys i link) (hi : i < 18)
    {request answer : Bytes} {type flags : UInt8} {payloadLength : UInt16} {n m : Nat}
    (hrequest : h.request sha256 hashes keys i = request)
    (hanswer : h.answer sha256 hashes keys i = answer) (hn : request.length = n)
    (hm : answer.length = m) (hsent : n ≤ 96) (hfits : m ≤ 96)
    (hheader : C0PQLink.decodeHeader answer = .ok ⟨type, flags, payloadLength, h.sessionId⟩)
    (random : (length : Nat) → Block length) (stack : FrameBuffer) :
    (∃ next buffer, (sendAndReceive h.connecting n type m (stack.write request)).run
          (h.environment sha256 application fates decapsulate random) link
          = ((.ok, buffer), next) ∧
        buffer.val.take m = answer ∧
        h.Reached sha256 hashes application fates hprovisioned hkeys (i + 1) next) ∨
      ∃ next buffer, (sendAndReceive h.connecting n type m (stack.write request)).run
          (h.environment sha256 application fates decapsulate random) link
          = ((.errIo, buffer), next) ∧
        h.Broken sha256 hashes application fates hprovisioned hkeys i next := by
  subst hrequest hanswer hn hm
  have hreached' : (h.conversation sha256 hashes application hprovisioned hkeys).Reached fates
      (h.connecting.config.maximumRetries.toNat + 1) i link := hreached
  exact sendAndReceive_lossy hreached' hi hsent hfits (acceptsFrame_of_decodeHeader hheader) stack

/-! ## Hello -/

/-- The transcript after the challenge. -/
def Handshake.preflight (h : Handshake) : Transcript :=
  ascii "C0PQ/1 transcript" ++ helloCore h.sessionId h.hello
    ++ challengeCore h.sessionId h.challenge

theorem requestChallenge_lossy
    (hreached : h.Reached sha256 hashes application fates hprovisioned hkeys 0 link)
    (stack : FrameBuffer) :
    (∃ next, (requestChallenge sha256 h.connecting h.deviceNonce stack).run
          (h.environment sha256 application fates decapsulate random) link
          = (.ok (h.challenge, h.preflight), next) ∧
        h.Reached sha256 hashes application fates hprovisioned hkeys 1 next) ∨
      ∃ next, (requestChallenge sha256 h.connecting h.deviceNonce stack).run
          (h.environment sha256 application fates decapsulate random) link
          = (.error .errIo, next) ∧
        h.Broken sha256 hashes application fates hprovisioned hkeys 0 next := by
  have hencoded : encodeHello sha256 h.connecting.sessionId h.hello h.connecting.config.psk
      = .ok (C0PQLink.helloFrame sha256 h.sessionId h.hello h.client.config.psk) := rfl
  have hexchange := exchange_lossy hreached (by decide)
    (rfl : _ = (C0PQLink.helloFrame sha256 h.sessionId h.hello h.client.config.psk).val)
    (rfl : _ = h.challengeFrame sha256) (Block.length_val _) (Block.length_val _)
    (by decide) (by decide)
    (decodeHeader_challengeFrame sha256 h.sessionId h.challenge h.client.config.psk) random stack
  have hhello : ({ suite := suiteMlkem512HkdfSha256Ascon128
                   deviceId := h.connecting.config.deviceId
                   epoch := h.connecting.config.epoch
                   deviceNonce := h.deviceNonce } : Hello) = h.hello := rfl
  unfold requestChallenge
  simp only [hhello, hencoded]
  rcases hexchange with ⟨next, buffer, hrun, htake, hnext⟩ | ⟨next, buffer, hrun, hbroken⟩
  · refine .inl ⟨next, ?_, hnext⟩
    have hdecoded : decodeVerifyChallenge sha256 h.connecting.sessionId (h.challengeFrame sha256)
        h.connecting.config.psk = .ok h.challenge :=
      (decodeVerifyChallenge_iff sha256).mpr ⟨rfl, rfl⟩
    have hmatches : verifyChallengeMatches h.connecting h.challenge h.deviceNonce = .ok := by
      simp [verifyChallengeMatches, Handshake.challenge, Handshake.connecting, Client.connecting]
    have htranscript : transcriptAddChallenge (transcriptAddHello transcriptInit
        (C0PQLink.helloFrame sha256 h.sessionId h.hello h.client.config.psk).val)
        (h.challengeFrame sha256) = h.preflight := by
      rw [transcriptAddChallenge, transcriptAddHello]
      have hhelloCore : slice (C0PQLink.helloFrame sha256 h.sessionId h.hello
          h.client.config.psk).val 0 44 = helloCore h.sessionId h.hello :=
        slice_self_append (length_helloCore h.sessionId h.hello)
      have hchallengeCore : slice (h.challengeFrame sha256) 0 68
          = challengeCore h.sessionId h.challenge :=
        slice_self_append (length_challengeCore h.sessionId h.challenge)
      rw [hhelloCore, hchallengeCore]
      rfl
    rw [Program.run_bind_of hrun]
    simp only [ne_eq, not_true, if_false, htake, hdecoded, hmatches, htranscript]
    rfl
  · refine .inr ⟨next, ?_, hbroken⟩
    rw [Program.run_bind_of hrun]
    rfl

/-! ## The ciphertext -/

/-- One fragment, whose 48 bytes are in the buffer of the writer. -/
theorem flush_lossy {j : Nat} (hj : j < 16) {writer : CiphertextWriter}
    (hauth : writer.sessionAuthKey = h.authKey sha256)
    (hindex : writer.fragmentIndex = UInt8.ofNat j)
    (hpending : writer.pending = (h.chunk hashes j).val)
    (hreached : h.Reached sha256 hashes application fates hprovisioned hkeys (j + 1) link)
    (random : (length : Nat) → Block length) (stack : FrameBuffer) :
    (∃ next, (flushCiphertextFragment sha256 h.connecting writer stack).run
          (h.environment sha256 application fates decapsulate random) link
          = ((.ok, { writer with fragmentIndex := writer.fragmentIndex + 1, pending := [] }),
              next) ∧
        h.Reached sha256 hashes application fates hprovisioned hkeys (j + 1 + 1) next) ∨
      ∃ next, (flushCiphertextFragment sha256 h.connecting writer stack).run
          (h.environment sha256 application fates decapsulate random) link
          = ((.errIo, writer), next) ∧
        h.Broken sha256 hashes application fates hprovisioned hkeys (j + 1) next := by
  have hlength : (h.chunk hashes j).val.length = 48 := Block.length_val _
  have hframe : (fragmentFrame sha256 (h.authKey sha256) h.sessionId (UInt8.ofNat j)
      (h.chunk hashes j).val).length = 29 + 48 :=
    (length_fragmentFrame sha256 (h.authKey sha256) hlength.le).trans (by rw [hlength])
  have hexchange := exchange_lossy hreached (by omega)
    (h.request_fragment sha256 hashes keys hj) (h.answer_fragment sha256 hashes keys hj)
    hframe (length_ackFrame ..) (by decide) (by decide) (decodeHeader_ackFrame ..) random stack
  have hnot : ¬ (writer.pending.length = 0 ∨ writer.fragmentIndex ≥ fragmentCount) := by
    rw [hpending, hlength, hindex]
    rintro (h | h)
    · omega
    · exact UInt8.not_le.mpr (ofNat_lt hj) h
  have hid : h.connecting.sessionId = h.sessionId := rfl
  rw [flushCiphertextFragment, if_neg hnot]
  simp only [hauth, hindex, hpending, hid, hframe]
  rcases hexchange with ⟨next, buffer, hrun, htake, hnext⟩ | ⟨next, buffer, hrun, hbroken⟩
  · refine .inl ⟨next, ?_, hnext⟩
    rw [Program.run_bind_of hrun]
    simp only [ne_eq, not_true, if_false, htake, checkAck_ackFrame, if_true]
    rfl
  · refine .inr ⟨next, ?_, hbroken⟩
    rw [Program.run_bind_of hrun]
    rfl

variable (sha256 hashes application fates hprovisioned hkeys) in
/-- The writer has sent `j` fragments and has `p` bytes of the next one. -/
structure Streaming (j p : Nat) (writer : CiphertextWriter) (link : FrameLink) : Prop where
  le : 48 * j + p ≤ 768
  lt : p < 48
  authKey : writer.sessionAuthKey = h.authKey sha256
  failure : writer.failure = .ok
  index : writer.fragmentIndex = UInt8.ofNat j
  pending : writer.pending = slice (h.ciphertext hashes).val (48 * j) p
  reached : h.Reached sha256 hashes application fates hprovisioned hkeys (j + 1) link

variable (sha256 hashes application fates hprovisioned hkeys) in
/-- How a write ends that brings the stream to `n` bytes. -/
def Written (n : Nat) (transcript : Transcript)
    (outcome : (Status × CiphertextWriter) × FrameLink) : Prop :=
  (outcome.1.1 = .ok ∧ outcome.1.2.transcript = transcript ∧
      ∃ j p, 48 * j + p = n ∧
        Streaming sha256 hashes application fates hprovisioned hkeys j p outcome.1.2 outcome.2) ∨
    outcome.1.1 = .errIo ∧
      ∃ i, h.Broken sha256 hashes application fates hprovisioned hkeys i outcome.2

variable {j p : Nat} {writer : CiphertextWriter}

/-- The next bytes of the ciphertext, and what is in the buffer with them. -/
theorem Streaming.take (hstream : Streaming sha256 hashes application fates hprovisioned hkeys j p
      writer link) {data : Bytes}
    (hdata : data = slice (h.ciphertext hashes).val (48 * j + p) data.length) (n : Nat) :
    writer.pending ++ data.take n
      = slice (h.ciphertext hashes).val (48 * j) (p + min n data.length) := by
  have htake : data.take n
      = slice (h.ciphertext hashes).val (48 * j + p) (min n data.length) := by
    conv_lhs => rw [hdata, slice, List.take_take]
    rfl
  rw [hstream.pending, htake, slice_append_slice]

theorem drop_slice {b data : Bytes} {start : Nat} (hdata : data = slice b start data.length)
    (n : Nat) : data.drop n = slice b (start + n) (data.drop n).length := by
  conv_lhs => rw [hdata, slice, List.drop_take, List.drop_drop]
  rw [List.length_drop]
  rfl

theorem writeLoop_lossy (random : (length : Nat) → Block length) (stack : FrameBuffer)
    (turns : Nat) (data : Bytes) (hturns : data.length ≤ turns)
    (hstream : Streaming sha256 hashes application fates hprovisioned hkeys j p writer link)
    (hdata : data = slice (h.ciphertext hashes).val (48 * j + p) data.length)
    (hle : 48 * j + p + data.length ≤ 768) :
    Written sha256 hashes application fates hprovisioned hkeys (48 * j + p + data.length)
      writer.transcript ((writeLoop sha256 h.connecting stack turns writer data).run
        (h.environment sha256 application fates decapsulate random) link) := by
  induction turns generalizing data j p writer link with
  | zero =>
    obtain rfl := List.eq_nil_of_length_eq_zero (Nat.le_zero.mp hturns)
    exact .inl ⟨rfl, rfl, j, p, rfl, hstream⟩
  | succ turns ih =>
    unfold writeLoop
    by_cases hempty : data.length = 0
    · rw [if_pos hempty, hempty]
      exact .inl ⟨rfl, rfl, j, p, rfl, hstream⟩
    rw [if_neg hempty]
    have hlt := hstream.lt
    have hplength : writer.pending.length = p := by
      rw [hstream.pending, length_slice, Block.length_val]
      omega
    have hspace : fragmentPayloadBytes - writer.pending.length = 48 - p := by
      rw [hplength]
      rfl
    generalize hcount : min data.length (48 - p) = count
    have hcountLe : count ≤ data.length := by omega
    have htaken := hstream.take hdata count
    rw [Nat.min_eq_left hcountLe] at htaken
    have hrest := drop_slice hdata count
    have hdropLength : (data.drop count).length = data.length - count := List.length_drop
    have hlength : (slice (h.ciphertext hashes).val (48 * j) (p + count)).length = p + count := by
      rw [length_slice, Block.length_val]
      omega
    simp only [hspace, hcount, htaken, hlength]
    have hpayload : fragmentPayloadBytes = 48 := rfl
    rw [hpayload]
    by_cases hfull : p + count = 48
    · have hj : j < 16 := by omega
      have hpending : slice (h.ciphertext hashes).val (48 * j) (p + count)
          = (h.chunk hashes j).val := by
        rw [hfull, h.chunk_val hashes hj]
      rw [if_pos hfull]
      have hflush := @flush_lossy sha256 hashes decapsulate application h start keys fates
        hprovisioned hkeys link j hj
        { writer with pending := slice (h.ciphertext hashes).val (48 * j) (p + count) }
        hstream.authKey hstream.index hpending hstream.reached random stack
      rcases hflush with ⟨next, hrun, hnext⟩ | ⟨next, hrun, hbroken⟩
      · rw [Program.run_bind_of hrun]
        simp only [ne_eq, not_true, if_false]
        have hindex : writer.fragmentIndex + 1 = UInt8.ofNat (j + 1) := by
          rw [hstream.index, UInt8.ofNat_add]
          rfl
        have hempty' : ([] : Bytes) = slice (h.ciphertext hashes).val (48 * (j + 1)) 0 := by
          rw [slice, List.take_zero]
        have hstream' : Streaming sha256 hashes application fates hprovisioned hkeys (j + 1) 0
            { writer with fragmentIndex := writer.fragmentIndex + 1, pending := [], failure := .ok }
            next :=
          ⟨by omega, by decide, hstream.authKey, rfl, hindex, hempty', hnext⟩
        have hfinal := ih (data.drop count) (by omega) hstream'
          (by rw [show 48 * (j + 1) + 0 = 48 * j + p + count by omega]; exact hrest) (by omega)
        rw [show 48 * (j + 1) + 0 + (data.drop count).length = 48 * j + p + data.length by omega]
          at hfinal
        exact hfinal
      · rw [Program.run_bind_of hrun]
        exact .inr ⟨rfl, _, hbroken⟩
    · rw [if_neg hfull]
      have hstream' : Streaming sha256 hashes application fates hprovisioned hkeys j (p + count)
          { writer with pending := slice (h.ciphertext hashes).val (48 * j) (p + count) } link :=
        ⟨by omega, by omega, hstream.authKey, hstream.failure, hstream.index, rfl,
          hstream.reached⟩
      have hfinal := ih (data.drop count) (by omega) hstream'
        (by rw [← Nat.add_assoc]; exact hrest) (by omega)
      rw [show 48 * j + (p + count) + (data.drop count).length = 48 * j + p + data.length by omega]
        at hfinal
      exact hfinal

theorem writeCiphertext_lossy (random : (length : Nat) → Block length) (stack : FrameBuffer)
    {data : Bytes}
    (hstream : Streaming sha256 hashes application fates hprovisioned hkeys j p writer link)
    (hdata : data = slice (h.ciphertext hashes).val (48 * j + p) data.length)
    (hle : 48 * j + p + data.length ≤ 768) :
    Written sha256 hashes application fates hprovisioned hkeys (48 * j + p + data.length)
      (writer.transcript ++ data) ((writeCiphertext sha256 h.connecting stack writer data).run
        (h.environment sha256 application fates decapsulate random) link) := by
  rw [writeCiphertext, if_neg (not_not.mpr hstream.failure)]
  have hstream' : Streaming sha256 hashes application fates hprovisioned hkeys j p
      { writer with transcript := writer.transcript ++ data } link := { hstream with }
  exact writeLoop_lossy random stack data.length data (Nat.le_refl _) hstream' hdata hle

/-- The writer callback, with the writer and the link as its state. -/
def Handshake.writeChunk (sha256 : Bytes → Block 32) (application : Application)
    (fates : Nat → Nat → Fate) (decapsulate : Block 768 → Block 32) (h : Handshake)
    (random : (length : Nat) → Block length) (stack : FrameBuffer) (data : Bytes) :
    StateM (CiphertextWriter × FrameLink) Status :=
  (MonadMap.runState CiphertextWriter
    (h.environment sha256 application fates decapsulate random)).map
    fun writer => writeCiphertext sha256 h.connecting stack writer data

theorem writeChunk_run (random : (length : Nat) → Block length) (stack : FrameBuffer)
    (data : Bytes) {outcome : (Status × CiphertextWriter) × FrameLink}
    (hrun : (writeCiphertext sha256 h.connecting stack writer data).run
      (h.environment sha256 application fates decapsulate random) link = outcome) :
    (h.writeChunk sha256 application fates decapsulate random stack data).run (writer, link)
      = (outcome.1.1, (outcome.1.2, outcome.2)) := by
  subst hrun
  rfl

/-- The writes of the chunks of the ciphertext that come next. -/
theorem writeEach_lossy (random : (length : Nat) → Block length) (stack : FrameBuffer)
    (chunks : List Bytes)
    (hstream : Streaming sha256 hashes application fates hprovisioned hkeys j p writer link)
    (hdata : chunks.flatten
      = slice (h.ciphertext hashes).val (48 * j + p) chunks.flatten.length)
    (hle : 48 * j + p + chunks.flatten.length ≤ 768) :
    ∃ status writer' next,
      (writeEach (h.writeChunk sha256 application fates decapsulate random stack) chunks).run
          (writer, link) = (status, (writer', next)) ∧
        Written sha256 hashes application fates hprovisioned hkeys
          (48 * j + p + chunks.flatten.length) (writer.transcript ++ chunks.flatten)
          ((status, writer'), next) := by
  induction chunks generalizing j p writer link with
  | nil =>
    exact ⟨.ok, writer, link, rfl, .inl ⟨rfl, (List.append_nil _).symm, j, p, rfl, hstream⟩⟩
  | cons chunk rest ih =>
    rw [List.flatten_cons, List.length_append] at hdata hle ⊢
    have hchunk : chunk = slice (h.ciphertext hashes).val (48 * j + p) chunk.length := by
      have htake := congrArg (List.take chunk.length) hdata
      rw [List.take_left' rfl, slice, List.take_take, Nat.min_eq_left (Nat.le_add_right _ _)]
        at htake
      exact htake
    have hrest := drop_slice (by rw [List.length_append]; exact hdata) chunk.length
    rw [List.drop_left' rfl] at hrest
    have hwritten := writeCiphertext_lossy random stack hstream hchunk (by omega)
    generalize hrun : (writeCiphertext sha256 h.connecting stack writer chunk).run
      (h.environment sha256 application fates decapsulate random) link = outcome at hwritten
    obtain ⟨⟨status, writer'⟩, next⟩ := outcome
    have hcall := writeChunk_run random stack chunk hrun
    rw [writeEach, stateT_run_bind hcall]
    rcases hwritten with ⟨rfl, htranscript, j', p', hsum, hstream'⟩ | ⟨rfl, hbroken⟩
    · rw [if_neg (by simp)]
      obtain ⟨status, writer'', last, hloop, hwritten⟩ := ih hstream'
        (by rw [hsum]; exact hrest) (by omega)
      refine ⟨status, writer'', last, hloop, ?_⟩
      dsimp only at htranscript
      rw [hsum, htranscript, List.append_assoc, Nat.add_assoc] at hwritten
      exact hwritten
    · rw [if_pos (by simp)]
      exact ⟨_, _, _, rfl, .inr ⟨rfl, hbroken⟩⟩

/-! ## The encapsulation -/

theorem readPublicKey_lossy (random : (length : Nat) → Block length) (offset : UInt16) :
    (MonadMap.runState CiphertextWriter
        (h.environment sha256 application fates decapsulate random)).map (readPublicKey offset)
      = pureReader h.publicKey offset := rfl

theorem encapsulationRandom_lossy (random : (length : Nat) → Block length) :
    (MonadMap.runState CiphertextWriter
        (h.environment sha256 application fates decapsulate random)).map encapsulationRandom
      = pure (0, random 32) := rfl

/-- The encapsulation from the first byte of the ciphertext on. -/
theorem encapsulate_lossy (hrandom : random 32 = h.randomness) (stack : FrameBuffer)
    (hstream : Streaming sha256 hashes application fates hprovisioned hkeys 0 0 writer link) :
    ∃ result writer' next,
      (encapsulate hashes readPublicKey
          (fun data writer => writeCiphertext sha256 h.connecting stack writer data) loadZeta
          encapsulationRandom writer).run
          (h.environment sha256 application fates decapsulate random) link
        = ((result, writer'), next) ∧
      ((result = .ok (h.sharedSecret hashes) ∧
          writer'.transcript = writer.transcript ++ (h.ciphertext hashes).val ∧
          Streaming sha256 hashes application fates hprovisioned hkeys 16 0 writer' next) ∨
        result = .error .errIo ∧
          ∃ i, h.Broken sha256 hashes application fates hprovisioned hkeys i next) := by
  have hflatten : (chunksWith hashes h.publicKey h.randomness loadZeta).flatten
      = (h.ciphertext hashes).val :=
    chunksWith_loadZeta hashes h.publicKey h.randomness hprovisioned.canonical
  have hlength : (chunksWith hashes h.publicKey h.randomness loadZeta).flatten.length = 768 := by
    rw [hflatten, Block.length_val]
  have hmap := encapsulate_map hashes (MonadMap.runState CiphertextWriter
      (h.environment sha256 application fates decapsulate random)) readPublicKey
    (fun data writer => writeCiphertext sha256 h.connecting stack writer data) loadZeta
    encapsulationRandom
  simp only [readPublicKey_lossy, encapsulationRandom_lossy, hrandom] at hmap
  have hpure := encapsulate_pureReader hashes h.publicKey
    (h.writeChunk sha256 application fates decapsulate random stack) loadZeta
    hprovisioned.canonical h.randomness
  obtain ⟨status, writer', next, hwrites, hwritten⟩ := writeEach_lossy random stack
    (chunksWith hashes h.publicKey h.randomness loadZeta) hstream
    (by rw [hlength, hflatten]; exact (slice_self _ (Block.length_val _)).symm) (by omega)
  rw [hlength, hflatten] at hwritten
  have hrun := congrArg (fun p => p.run (writer, link)) (hmap.trans hpure)
  rw [stateT_run_bind hwrites] at hrun
  rcases hwritten with ⟨rfl, htranscript, j, p, hsum, hend⟩ | ⟨rfl, hbroken⟩
  · rw [if_neg (by simp)] at hrun
    have hend' : j = 16 ∧ p = 0 := by
      have := hend.lt
      omega
    obtain ⟨rfl, rfl⟩ := hend'
    have hfinal := MonadMap.run_of_runState hrun
    exact ⟨_, writer', next, hfinal, .inl ⟨rfl, htranscript, hend⟩⟩
  · rw [if_pos (by simp)] at hrun
    have hfinal := MonadMap.run_of_runState hrun
    exact ⟨_, writer', next, hfinal, .inr ⟨rfl, hbroken⟩⟩

/-- The ciphertext phase, from the challenge on. -/
theorem sendCiphertext_lossy (hrandom : random 32 = h.randomness) (stack : FrameBuffer)
    (hreached : h.Reached sha256 hashes application fates hprovisioned hkeys 1 link) :
    (∃ next, (sendCiphertext sha256 hashes loadZeta h.connecting h.challenge h.preflight stack).run
          (h.environment sha256 application fates decapsulate random) link
          = (.ok (h.sharedSecret hashes, sha256 (h.transcript hashes)), next) ∧
        h.Reached sha256 hashes application fates hprovisioned hkeys 17 next) ∨
      ∃ next, (sendCiphertext sha256 hashes loadZeta h.connecting h.challenge h.preflight stack).run
          (h.environment sha256 application fates decapsulate random) link
          = (.error .errIo, next) ∧
        ∃ i, h.Broken sha256 hashes application fates hprovisioned hkeys i next := by
  have hstream : Streaming sha256 hashes application fates hprovisioned hkeys 0 0
      (newWriter sha256 h.connecting h.challenge h.preflight) link :=
    ⟨by decide, by decide, rfl, rfl, rfl, by rw [slice, List.take_zero]; rfl, hreached⟩
  obtain ⟨result, writer, next, hrun, hresult⟩ := encapsulate_lossy hrandom stack hstream
  unfold sendCiphertext
  rw [Program.run_bind_of hrun]
  rcases hresult with ⟨rfl, htranscript, hend⟩ | ⟨rfl, hbroken⟩
  · refine .inl ⟨next, ?_, hend.reached⟩
    have hpending : writer.pending.length = 0 := by
      rw [hend.pending, slice, List.take_zero]
      rfl
    have hcount : ¬ (writer.fragmentIndex ≠ fragmentCount ∨ writer.failure ≠ .ok) := by
      rw [hend.index, hend.failure]
      decide
    simp only [flushPending, hpending, ne_eq, not_true, if_false, pure_bind, hcount,
      htranscript, Except.map]
    rfl
  · exact .inr ⟨next, rfl, hbroken⟩

/-! ## Finished -/

theorem exchangeFinished_lossy (random : (length : Nat) → Block length) (stack : FrameBuffer)
    (hreached : h.Reached sha256 hashes application fates hprovisioned hkeys 17 link) :
    (∃ next, (exchangeFinished sha256 h.connecting keys (sha256 (h.transcript hashes)) stack).run
          (h.environment sha256 application fates decapsulate random) link = (.ok, next) ∧
        h.Reached sha256 hashes application fates hprovisioned hkeys 18 next) ∨
      ∃ next, (exchangeFinished sha256 h.connecting keys (sha256 (h.transcript hashes)) stack).run
          (h.environment sha256 application fates decapsulate random) link = (.errIo, next) ∧
        h.Broken sha256 hashes application fates hprovisioned hkeys 17 next := by
  have htag := C0PQLink.finishedTag sha256 keys.serverFinishedKey frameServerFinished h.sessionId
    (sha256 (h.transcript hashes))
  have hanswer : (serverFinished sha256 keys h.sessionId (sha256 (h.transcript hashes))).length
      = 26 := by
    rw [serverFinished, List.length_append, length_headerBytes, Block.length_val]
  have hheader : C0PQLink.decodeHeader
      (serverFinished sha256 keys h.sessionId (sha256 (h.transcript hashes)))
      = .ok ⟨frameServerFinished, 0, 16, h.sessionId⟩ :=
    C0PQLink.decodeHeader_headerBytes frameServerFinished 0 h.sessionId (Block.length_val _)
  have hexchange := exchange_lossy hreached (by decide)
    (h.request_finished sha256 hashes keys) (h.answer_finished sha256 hashes keys)
    (length_finishedFrame ..) hanswer (by decide) (by decide) hheader random stack
  have hid : h.connecting.sessionId = h.sessionId := rfl
  have hslice : slice (serverFinished sha256 keys h.sessionId (sha256 (h.transcript hashes))) 10 16
      = (C0PQLink.finishedTag sha256 keys.serverFinishedKey frameServerFinished h.sessionId
        (sha256 (h.transcript hashes))).val :=
    slice_last (length_headerBytes ..) (Block.length_val _)
  unfold exchangeFinished
  rw [hid]
  rcases hexchange with ⟨next, buffer, hrun, htake, hnext⟩ | ⟨next, buffer, hrun, hbroken⟩
  · refine .inl ⟨next, ?_, hnext⟩
    rw [Program.run_bind_of hrun]
    simp only [ne_eq, not_true, if_false, htake, checkFinished, hheader, hslice, or_self, if_true]
    rfl
  · refine .inr ⟨next, ?_, hbroken⟩
    rw [Program.run_bind_of hrun]
    rfl

/-! ## The connect -/

theorem handshake_lossy (hrandom : random 32 = h.randomness) (stack : FrameBuffer)
    (hreached : h.Reached sha256 hashes application fates hprovisioned hkeys 0 link) :
    (∃ next, (handshake sha256 hashes loadZeta h.connecting h.deviceNonce stack).run
          (h.environment sha256 application fates decapsulate random) link = (.ok keys, next) ∧
        h.Reached sha256 hashes application fates hprovisioned hkeys 18 next) ∨
      ∃ next, (handshake sha256 hashes loadZeta h.connecting h.deviceNonce stack).run
          (h.environment sha256 application fates decapsulate random) link
          = (.error .errIo, next) ∧
        ∃ i, h.Broken sha256 hashes application fates hprovisioned hkeys i next := by
  unfold handshake
  rcases requestChallenge_lossy hreached stack with ⟨first, hrun, hfirst⟩ | ⟨next, hrun, hbroken⟩
  swap
  · refine .inr ⟨next, ?_, 0, hbroken⟩
    rw [Program.run_bind_of hrun]
    rfl
  rw [Program.run_bind_of hrun]
  simp only
  rcases sendCiphertext_lossy hrandom stack hfirst with
    ⟨second, hrun, hsecond⟩ | ⟨next, hrun, hbroken⟩
  swap
  · refine .inr ⟨next, ?_, hbroken⟩
    rw [Program.run_bind_of hrun]
    rfl
  rw [Program.run_bind_of hrun]
  obtain ⟨keys', hpeerKeys, hclientKeys⟩ := deriveSessionKeys_eq_client sha256
    h.client.config.psk (h.sharedSecret hashes) (sha256 (h.transcript hashes))
  obtain rfl := Except.ok.inj (hkeys.symm.trans hpeerKeys)
  have hpsk : h.connecting.config.psk = h.client.config.psk := rfl
  simp only [hpsk, hclientKeys]
  rcases exchangeFinished_lossy random stack hsecond with
    ⟨next, hrun, hnext⟩ | ⟨next, hrun, hbroken⟩
  · refine .inl ⟨next, ?_, hnext⟩
    rw [Program.run_bind_of hrun]
    rfl
  · refine .inr ⟨next, ?_, 17, hbroken⟩
    rw [Program.run_bind_of hrun]
    rfl

theorem connect_lossy (hready : h.client.state = .ready) (hnonce : random 16 = h.deviceNonce)
    (hrandom : random 32 = h.randomness) (workspace : Workspace) (stack : FrameBuffer)
    (hreached : h.Reached sha256 hashes application fates hprovisioned hkeys 0 link) :
    (∃ next, (connect sha256 hashes loadZeta h.client workspace stack).run
          (h.environment sha256 application fates decapsulate random) link
          = (⟨.ok, h.connecting.establish keys, Block.zero 1344⟩, next) ∧
        h.Reached sha256 hashes application fates hprovisioned hkeys 18 next) ∨
      ∃ next, (connect sha256 hashes loadZeta h.client workspace stack).run
          (h.environment sha256 application fates decapsulate random) link
          = (⟨.errIo, h.connecting.fail, Block.zero 1344⟩, next) ∧
        ∃ i, h.Broken sha256 hashes application fates hprovisioned hkeys i next := by
  have hdraw (f : Int × Block 16 → ClientProgram ConnectResult) :
      (Program.perform (ClientCall.randomBytes 16) >>= f).run
          (h.environment sha256 application fates decapsulate random) link
        = (f (0, h.deviceNonce)).run (h.environment sha256 application fates decapsulate random)
            link := by
    rw [← hnonce]
    rfl
  have hclient : h.client.connecting h.deviceNonce = h.connecting := rfl
  unfold connect
  rw [if_neg (not_not.mpr hready), hdraw]
  simp only [ne_eq, not_true, if_false, hclient]
  rcases handshake_lossy hrandom stack hreached with ⟨next, hrun, hnext⟩ | ⟨next, hrun, hbroken⟩
  · refine .inl ⟨next, ?_, hnext⟩
    rw [Program.run_bind_of hrun]
    rfl
  · refine .inr ⟨next, ?_, hbroken⟩
    rw [Program.run_bind_of hrun]
    rfl

end

/-! ## The whole connect -/

section

variable (sha256 : Bytes → Block 32) (hashes : Fips203.Hashes)
  {decapsulate : Block 768 → Block 32} (application : Application) (client : Client)
  (publicKey : Block 800) (serverNonce : Block 16) (random : (length : Nat) → Block length)

/-- The requests of a handshake differ from each other. -/
theorem request_ne (h : Handshake) (keys : SessionKeys) {i j : Nat} (hj : j < i) (hi : i < 18) :
    h.request sha256 hashes keys j ≠ h.request sha256 hashes keys i := by
  have hhello : (h.request sha256 hashes keys 0).length = 60 := Block.length_val _
  have hfragment (k : Nat) (hk : k < 16) : (h.request sha256 hashes keys (k + 1)).length = 77 ∧
      byteAt (h.request sha256 hashes keys (k + 1)) 10 = UInt8.ofNat k := by
    obtain ⟨hlength, hindex, -⟩ := fields_chunkFrame sha256 (h.authKey sha256) h.sessionId
      (UInt8.ofNat k) (h.chunk hashes k)
    rw [h.request_fragment sha256 hashes keys hk]
    exact ⟨hlength, hindex⟩
  have hfinished : (h.request sha256 hashes keys 17).length = 26 := length_finishedFrame ..
  intro heq
  obtain ⟨k, rfl⟩ : ∃ k, i = k + 1 := ⟨i - 1, by omega⟩
  have hlength := congrArg List.length heq
  by_cases hk : k < 16
  · obtain ⟨hlast, hlastIndex⟩ := hfragment k hk
    cases j with
    | zero => omega
    | succ j =>
      obtain ⟨-, hindex⟩ := hfragment j (by omega)
      have hsame := congrArg (fun frame => (byteAt frame 10).toNat) heq
      simp only [hindex, hlastIndex, toNat_ofNat_lt hk, toNat_ofNat_lt (show j < 16 by omega)]
        at hsame
      omega
  · obtain rfl : k = 16 := by omega
    rw [hfinished] at hlength
    cases j with
    | zero => omega
    | succ j =>
      obtain ⟨hfirst, -⟩ := hfragment j (by omega)
      omega

/-- The handshake of a client with its random source. -/
def handshakeOf : Handshake := ⟨client, publicKey, random 16, serverNonce, random 32⟩

/-- A connect over the lossy link to a peer. -/
def lossyConnect (decapsulate : Block 768 → Block 32) (fates : Nat → Nat → Fate) (peer : Peer)
    (workspace : Workspace) (stack : FrameBuffer) : ConnectResult × FrameLink :=
  (connect sha256 hashes loadZeta client workspace stack).run
    (lossyAnswer (serveFrame sha256 decapsulate application serverNonce) fates random publicKey)
    (.start (peer, []))

variable {client publicKey serverNonce random} {peer : Peer}

/-- The two ends after the first Finished of a session. -/
theorem establishedPair_finish {h : Handshake} {session : Session} (keys : SessionKeys)
    (peer : Peer) (hid : session.sessionId = h.sessionId) (hdevice : session.device = h.device)
    (hsend : session.sendSequence = 0) (hreceive : session.receiveSequence = 0)
    (hlast : session.lastClientFrame = none) :
    EstablishedPair (h.connecting.establish keys)
      (peer.setSession h.sessionId (session.finish sha256 keys)) (session.finish sha256 keys)
      keys where
  state := rfl
  known := peer.setSession_same h.sessionId _
  sessionId := hid
  established := rfl
  mode := congrArg Device.mode hdevice
  sessionKeys := rfl
  sendSecret := secretOf_establish h.client.config.mode _ _
  receiveSecret := secretOf_establish h.client.config.mode _ _
  sendNonceBase := rfl
  receiveNonceBase := rfl
  sendSequence := ⟨rfl, hsend⟩
  receiveSequence := ⟨rfl, hreceive⟩
  lastClientFrame := hlast

/-- The callbacks have no other effects: the connect has all answers, or it is stopped at an
exchange that gets none. -/
theorem lossyConnect_cases (hready : client.state = .ready)
    (hprovisioned : Provisioned hashes decapsulate
      (handshakeOf client publicKey serverNonce random) ((peer, []) : Server).1)
    {keys : SessionKeys} (hkeys : ReferencePeer.deriveSessionKeys sha256 client.config.psk
      ((handshakeOf client publicKey serverNonce random).sharedSecret hashes)
      (sha256 ((handshakeOf client publicKey serverNonce random).transcript hashes)) = .ok keys)
    (fates : Nat → Nat → Fate) (workspace : Workspace) (stack : FrameBuffer) :
    let h := handshakeOf client publicKey serverNonce random
    let outcome := lossyConnect sha256 hashes application client publicKey serverNonce random
      decapsulate fates peer workspace stack
    (outcome.1.status = .ok ∧ outcome.1.client = h.connecting.establish keys ∧
        h.Reached sha256 hashes application fates hprovisioned hkeys 18 outcome.2) ∨
      (outcome.1.status = .errIo ∧ outcome.1.client = h.connecting.fail ∧
        ∃ i, h.Broken sha256 hashes application fates hprovisioned hkeys i outcome.2) := by
  intro h outcome
  have hstart : h.Reached sha256 hashes application fates hprovisioned hkeys 0
      (.start (peer, [])) := Conversation.reached_start _ rfl
  have houtcome : outcome = (connect sha256 hashes loadZeta h.client workspace stack).run
      (h.environment sha256 application fates decapsulate random) (.start (peer, [])) := rfl
  rcases connect_lossy hready rfl rfl workspace stack hstart with
    ⟨next, hrun, hend⟩ | ⟨next, hrun, hbroken⟩
  · rw [houtcome, hrun]
    exact .inl ⟨rfl, rfl, hend⟩
  · rw [houtcome, hrun]
    exact .inr ⟨rfl, rfl, hbroken⟩

variable {sha256 hashes application} in
theorem established_of_reached {h : Handshake} {start : Server} {keys : SessionKeys}
    {hprovisioned : Provisioned hashes decapsulate h start.1}
    {hkeys : ReferencePeer.deriveSessionKeys sha256 h.client.config.psk (h.sharedSecret hashes)
      (sha256 (h.transcript hashes)) = .ok keys} {fates : Nat → Nat → Fate} {link : FrameLink}
    (hend : h.Reached sha256 hashes application fates hprovisioned hkeys 18 link) :
    ∃ session, EstablishedPair (h.connecting.establish keys) link.server.1 session keys := by
  obtain ⟨hid, hdevice, -, -, -, -, -, hsend, hreceive, hlast⟩ :=
    sessionAt_fixed sha256 hashes h 16
  have hserver : link.server.1 = start.1.setSession h.sessionId
      ((h.sessionAt sha256 hashes 16).finish sha256 keys) := congrArg Prod.fst hend.server
  refine ⟨(h.sessionAt sha256 hashes 16).finish sha256 keys, ?_⟩
  rw [hserver]
  exact establishedPair_finish sha256 keys start.1 hid hdevice hsend hreceive hlast

variable {sha256 hashes application} in
/-- The exchange that gets no answer has sent its request in every attempt. -/
theorem count_of_broken {h : Handshake} {start : Server} {keys : SessionKeys}
    {hprovisioned : Provisioned hashes decapsulate h start.1}
    {hkeys : ReferencePeer.deriveSessionKeys sha256 h.client.config.psk (h.sharedSecret hashes)
      (sha256 (h.transcript hashes)) = .ok keys} {fates : Nat → Nat → Fate} {link : FrameLink}
    {i : Nat} (hbroken : h.Broken sha256 hashes application fates hprovisioned hkeys i link) :
    link.sent.count (h.request sha256 hashes keys i) = h.attempts :=
  hbroken.count_request fun _ hlt => request_ne sha256 hashes h keys hlt hbroken.lt

/-- A connect succeeds if every exchange has an attempt that goes through, and fails with
`C0PQLINK_ERR_IO` at the first exchange that has none. -/
theorem lossyConnect_outcome (hready : client.state = .ready)
    (hprovisioned : Provisioned hashes decapsulate
      (handshakeOf client publicKey serverNonce random) peer)
    (fates : Nat → Nat → Fate) (workspace : Workspace) (stack : FrameBuffer) :
    let h := handshakeOf client publicKey serverNonce random
    let attempts := client.config.maximumRetries.toNat + 1
    let outcome := lossyConnect sha256 hashes application client publicKey serverNonce random
      decapsulate fates peer workspace stack
    ∃ keys, C0PQLink.deriveSessionKeys sha256 client.config.psk (h.sharedSecret hashes)
        (sha256 (h.transcript hashes)) = .ok keys ∧
      (SucceedsBefore fates attempts 18 →
        outcome.1.status = .ok ∧ outcome.1.client.state = .established ∧
          ∃ session, EstablishedPair outcome.1.client outcome.2.server.1 session keys) ∧
      (¬ SucceedsBefore fates attempts 18 →
        outcome.1.status = .errIo ∧ ∃ i < 18, SucceedsBefore fates attempts i ∧
          ¬ Succeeds (fates i) 0 attempts ∧
          outcome.2.sent.count (h.request sha256 hashes keys i) = attempts) := by
  intro h attempts outcome
  obtain ⟨keys, hkeys, hclientKeys⟩ := deriveSessionKeys_eq_client sha256 client.config.psk
    (h.sharedSecret hashes) (sha256 (h.transcript hashes))
  refine ⟨keys, hclientKeys, ?_⟩
  obtain ⟨hstatus, hclient, hend⟩ | ⟨hstatus, -, i, hbroken⟩ := lossyConnect_cases sha256 hashes
    application hready hprovisioned hkeys fates workspace stack
  · obtain ⟨session, hpair⟩ := established_of_reached hend
    rw [← hclient] at hpair
    exact ⟨fun _ => ⟨hstatus, hpair.state, session, hpair⟩,
      fun hfails => absurd hend.succeeds hfails⟩
  · exact ⟨fun hall => absurd hall (hbroken.not_succeedsBefore hbroken.lt),
      fun _ => ⟨hstatus, i, hbroken.lt, hbroken.succeeds, hbroken.fails, count_of_broken hbroken⟩⟩

/-- What is sent and what the peer holds, whatever is lost: each request as often as the losses
ask for. At any point the peer answers every request that it has answered before, and stays
as it is. -/
theorem connect_lossTolerant (hready : client.state = .ready)
    (hprovisioned : Provisioned hashes decapsulate
      (handshakeOf client publicKey serverNonce random) peer)
    (fates : Nat → Nat → Fate) (workspace : Workspace) (stack : FrameBuffer) :
    let h := handshakeOf client publicKey serverNonce random
    let outcome := lossyConnect sha256 hashes application client publicKey serverNonce random
      decapsulate fates peer workspace stack
    ∃ keys, C0PQLink.deriveSessionKeys sha256 client.config.psk (h.sharedSecret hashes)
        (sha256 (h.transcript hashes)) = .ok keys ∧
      (∀ i < 18, Serves (serveFrame sha256 decapsulate application serverNonce)
          (h.request sha256 hashes keys i) (h.answer sha256 hashes keys i)
          (h.serverAt sha256 hashes keys (peer, []) i)
          (h.serverAt sha256 hashes keys (peer, []) (i + 1)) ∧
        ∀ j ≤ i, serveFrame sha256 decapsulate application serverNonce
            (h.serverAt sha256 hashes keys (peer, []) (i + 1)) (h.request sha256 hashes keys j)
          = (some (h.answer sha256 hashes keys j),
              h.serverAt sha256 hashes keys (peer, []) (i + 1))) ∧
      (SucceedsBefore fates h.attempts 18 →
        outcome.1.status = .ok ∧
          (∃ session, EstablishedPair outcome.1.client outcome.2.server.1 session keys) ∧
          outcome.2.server = h.serverAt sha256 hashes keys (peer, []) 18 ∧
          outcome.2.sent = (List.range 18).flatMap fun i =>
            List.replicate (attemptsMade (fates i) 0 h.attempts)
              (h.request sha256 hashes keys i)) ∧
      ∀ i < 18, SucceedsBefore fates h.attempts i → ¬ Succeeds (fates i) 0 h.attempts →
        outcome.1.status = .errIo ∧ outcome.1.client = h.connecting.fail ∧
          outcome.2.sent.count (h.request sha256 hashes keys i) = h.attempts := by
  intro h outcome
  have hprovisioned' : Provisioned hashes decapsulate h ((peer, []) : Server).1 := hprovisioned
  obtain ⟨keys, hkeys, hclientKeys⟩ := deriveSessionKeys_eq_client sha256 client.config.psk
    (h.sharedSecret hashes) (sha256 (h.transcript hashes))
  refine ⟨keys, hclientKeys, fun i hi => ⟨serves_request sha256 hashes hprovisioned' hkeys i hi,
    fun j hj => serve_earlier sha256 hashes hprovisioned' hkeys hi hj⟩, ?_⟩
  obtain ⟨hstatus, hclient, hend⟩ | ⟨hstatus, hclient, i, hbroken⟩ := lossyConnect_cases sha256
    hashes application hready hprovisioned' hkeys fates workspace stack
  · obtain ⟨session, hpair⟩ := established_of_reached hend
    rw [← hclient] at hpair
    exact ⟨fun _ => ⟨hstatus, ⟨session, hpair⟩, hend.server, hend.sent⟩,
      fun i hi _ hfails => absurd (hend.succeeds i hi) hfails⟩
  · refine ⟨fun hall => absurd hall (hbroken.not_succeedsBefore hbroken.lt),
      fun j _ hbefore hfails => ⟨hstatus, hclient, ?_⟩⟩
    obtain rfl := hbroken.eq_of_first hbefore hfails
    exact count_of_broken hbroken

end

/-! A connect that loses the first answer of every exchange and repeats each request once. -/

def losesFirst (_ attempt : Nat) : Fate := if attempt = 0 then .answerLost else .delivered

def readyClient : Client := { retryClient with state := .ready }

def provisionedPeer : Peer where
  epoch := 0
  keyId := readyClient.config.publicKeyId
  devices := fun _ => some ⟨readyClient.config.psk.val, some fullPqEachSession⟩
  sessions := fun _ => none

def zeroHandshake : Handshake :=
  handshakeOf readyClient (Block.zero 800) (Block.zero 16) fun length => Block.zero length

theorem zeroHandshake_provisioned :
    Provisioned zeroHashes (fun _ => Block.zero 32) zeroHandshake provisionedPeer where
  device := by decide
  epoch := rfl
  keyId := rfl
  fresh := rfl
  canonical := demo_canonical
  decapsulates := Subtype.ext (by
    simp [Handshake.sharedSecret, Fips203.encapsInternal, zeroHashes, blockAt, slice, Block.zero])

theorem lossyConnect_losesFirst :
    let outcome := lossyConnect zeroDigest zeroHashes (fun _ => .ok none) readyClient
      (Block.zero 800) (Block.zero 16) (fun length => Block.zero length) (fun _ => Block.zero 32)
      losesFirst provisionedPeer (Block.zero 1344) (Block.zero 96)
    outcome.1.status = .ok ∧ outcome.1.client.state = .established := by
  obtain ⟨keys, -, hall, -⟩ := lossyConnect_outcome zeroDigest zeroHashes (fun _ => .ok none) rfl
    zeroHandshake_provisioned losesFirst (Block.zero 1344) (Block.zero 96)
  obtain ⟨hstatus, hstate, -⟩ := hall fun _ _ => ⟨1, by decide, rfl⟩
  exact ⟨hstatus, hstate⟩

theorem connect_losesFirst :
    let outcome := lossyConnect zeroDigest zeroHashes (fun _ => .ok none) readyClient
      (Block.zero 800) (Block.zero 16) (fun length => Block.zero length) (fun _ => Block.zero 32)
      losesFirst provisionedPeer (Block.zero 1344) (Block.zero 96)
    outcome.1.status = .ok ∧
      ∃ session keys, EstablishedPair outcome.1.client outcome.2.server.1 session keys := by
  obtain ⟨keys, -, -, hall, -⟩ := connect_lossTolerant zeroDigest zeroHashes (fun _ => .ok none) rfl
    zeroHandshake_provisioned losesFirst (Block.zero 1344) (Block.zero 96)
  obtain ⟨hstatus, ⟨session, hpair⟩, -⟩ := hall fun _ _ => ⟨1, by decide, rfl⟩
  exact ⟨hstatus, session, keys, hpair⟩

end C0PQLink.Link
