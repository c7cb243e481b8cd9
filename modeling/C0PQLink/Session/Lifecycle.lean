import C0PQLink.Session.Fragmentation
import C0PQLink.Session.Ratchet

/-!
# The life of a client

Any sequence of `c0pq_client_init`, `c0pq_client_connect`, `c0pq_client_seal_record`,
`c0pq_client_open_record` and `c0pq_client_close`, with any answers of the callbacks.

* `connect_wp`: how a connect ends, with the calls that it made.
* `lifecycle_safe`: a client that is not established has no secrets, and a connect
  establishes it only behind the acknowledgments of all fragments and the Finished of the
  peer.
-/

namespace C0PQLink

open Foundation Fips203

variable (sha256 : Bytes → Block 32)

/-! ## The fragments -/

/-- Among the calls are the exchanges of the fragments with these payloads, each acknowledged. -/
def FragmentsAcknowledged (client : Client) (sessionAuthKey : Block 32) (payloads : List Bytes)
    (log : List CallRecord) : Prop :=
  ∀ i payload, payloads[i]? = some payload → ∃ calls : List CallRecord,
    calls.reverse <:+: log ∧
      AcknowledgedExchange sha256 client sessionAuthKey (UInt8.ofNat i) payload calls

/-- The writer of a connect: as long as no write has failed, its transcript holds the
acknowledged payloads, the bytes that are pending, and the rest of the current write. -/
structure Sending (client : Client) (transcript : Transcript) (sessionAuthKey : Block 32)
    (writer : CiphertextWriter) (rest : Bytes) (log : List CallRecord) : Prop where
  sessionAuthKey_eq : writer.sessionAuthKey = sessionAuthKey
  fragmentIndex_le : writer.fragmentIndex.toNat ≤ 16
  pending_le : writer.pending.length ≤ 48
  written : writer.failure = .ok → ∃ payloads : List Bytes,
    payloads.length = writer.fragmentIndex.toNat ∧
    writer.transcript = transcript ++ payloads.flatten ++ writer.pending ++ rest ∧
    FragmentsAcknowledged sha256 client sessionAuthKey payloads log

/-- The writer between two writes. -/
structure Acknowledged (client : Client) (transcript : Transcript) (sessionAuthKey : Block 32)
    (writer : CiphertextWriter) (log : List CallRecord) : Prop where
  sending : Sending sha256 client transcript sessionAuthKey writer [] log
  pending_lt : writer.failure = .ok → writer.pending.length < 48

section

variable {sha256} {client : Client} {transcript : Transcript} {sessionAuthKey : Block 32}
  {payloads : List Bytes} {writer : CiphertextWriter} {rest : Bytes} {log log' : List CallRecord}

theorem FragmentsAcknowledged.mono
    (h : FragmentsAcknowledged sha256 client sessionAuthKey payloads log) (hsuffix : log <:+ log') :
    FragmentsAcknowledged sha256 client sessionAuthKey payloads log' := by
  intro i payload hpayload
  obtain ⟨calls, hinfix, hexchange⟩ := h i payload hpayload
  exact ⟨calls, hinfix.trans hsuffix.isInfix, hexchange⟩

theorem FragmentsAcknowledged.append
    (h : FragmentsAcknowledged sha256 client sessionAuthKey payloads log) {payload : Bytes}
    {calls : List CallRecord} (hcalls : AcknowledgedExchange sha256 client sessionAuthKey
      (UInt8.ofNat payloads.length) payload calls) :
    FragmentsAcknowledged sha256 client sessionAuthKey (payloads ++ [payload])
      (calls.reverse ++ log) := by
  intro i payload' hpayload
  rcases Nat.lt_or_ge i payloads.length with hi | hi
  · rw [List.getElem?_append_left hi] at hpayload
    exact h.mono (List.suffix_append _ _) i payload' hpayload
  · rw [List.getElem?_append_right hi, List.getElem?_singleton] at hpayload
    split at hpayload
    · rename_i hlast
      obtain rfl : i = payloads.length := by omega
      cases hpayload
      exact ⟨calls, (List.prefix_append _ _).isInfix, hcalls⟩
    · cases hpayload

theorem Sending.mono
    (h : Sending sha256 client transcript sessionAuthKey writer rest log)
    (hsuffix : log <:+ log') :
    Sending sha256 client transcript sessionAuthKey writer rest log' := by
  refine { h with written := fun hok => ?_ }
  obtain ⟨payloads, hlength, htranscript, hacks⟩ := h.written hok
  exact ⟨payloads, hlength, htranscript, hacks.mono hsuffix⟩

/-- The acknowledgment of the fragment that is pending. -/
theorem Sending.next
    (h : Sending sha256 client transcript sessionAuthKey writer rest log)
    (hlt : writer.fragmentIndex.toNat < 16) {calls : List CallRecord}
    (hcalls : AcknowledgedExchange sha256 client writer.sessionAuthKey writer.fragmentIndex
      writer.pending calls) :
    Sending sha256 client transcript sessionAuthKey
      { writer with fragmentIndex := writer.fragmentIndex + 1, pending := [] } rest
      (calls.reverse ++ log) := by
  have hsucc : (writer.fragmentIndex + 1).toNat = writer.fragmentIndex.toNat + 1 := by
    rw [UInt8.toNat_add]
    exact Nat.mod_eq_of_lt (by simp; omega)
  refine ⟨h.sessionAuthKey_eq, hsucc.trans_le hlt, Nat.zero_le _, fun hok => ?_⟩
  obtain ⟨payloads, hlength, htranscript, hacks⟩ := h.written hok
  refine ⟨payloads ++ [writer.pending], ?_, ?_, hacks.append ?_⟩
  · rw [List.length_append, List.length_singleton, hlength]
    exact hsucc.symm
  · rw [List.flatten_append, List.flatten_singleton, ← List.append_assoc, List.append_nil]
    exact htranscript
  · rw [hlength, UInt8.ofNat_toNat, ← h.sessionAuthKey_eq]
    exact hcalls

/-- What a piece of the current write adds to the bytes that are pending. -/
theorem Sending.take {data : Bytes}
    (h : Sending sha256 client transcript sessionAuthKey writer data log) {n : Nat}
    (hn : writer.pending.length + n ≤ 48) :
    Sending sha256 client transcript sessionAuthKey
      { writer with pending := writer.pending ++ data.take n } (data.drop n) log := by
  refine ⟨h.sessionAuthKey_eq, h.fragmentIndex_le, ?_, fun hok => ?_⟩
  · rw [List.length_append, List.length_take]
    omega
  · obtain ⟨payloads, hlength, htranscript, hacks⟩ := h.written hok
    refine ⟨payloads, hlength, ?_, hacks⟩
    rw [htranscript, List.append_assoc _ (_ ++ _), List.append_assoc writer.pending,
      List.take_append_drop, ← List.append_assoc]

theorem flushCiphertextFragment_wp
    (h : Sending sha256 client transcript sessionAuthKey writer rest log)
    (hpending : writer.pending.length ≠ 0) (stack : FrameBuffer) :
    (flushCiphertextFragment sha256 client writer stack).wp logStep (fun outcome log' =>
      Sending sha256 client transcript sessionAuthKey outcome.2 rest log' ∧
        outcome.2.failure = writer.failure ∧ (outcome.1 = .ok → outcome.2.pending = [])) log := by
  refine Program.wp_mono (fun outcome log' hflushed => ?_)
    (flushCiphertextFragment_calls writer stack (Nat.pos_of_ne_zero hpending) h.pending_le
      h.fragmentIndex_le)
  obtain ⟨result, flushed⟩ := outcome
  rcases hflushed with ⟨-, hlt, rfl, calls, rfl, hcalls⟩ | ⟨hfailure, rfl, hfails⟩
  · exact ⟨h.next hlt hcalls, rfl, fun _ => rfl⟩
  · refine ⟨h.mono ?_, rfl, fun hok => absurd hok hfailure⟩
    rcases hfails with ⟨-, -, rfl⟩ | ⟨-, -, calls, rfl, -⟩
    · exact List.suffix_refl _
    · exact List.suffix_append _ _

theorem writeLoop_wp (stack : FrameBuffer) (turns : Nat) (data : Bytes)
    (hturns : data.length ≤ turns) (hok : writer.failure = .ok)
    (hpending : writer.pending.length < 48)
    (h : Sending sha256 client transcript sessionAuthKey writer data log) :
    (writeLoop sha256 client stack turns writer data).wp logStep (fun outcome =>
      Acknowledged sha256 client transcript sessionAuthKey outcome.2) log := by
  have hdone (hempty : data.length = 0) :
      Acknowledged sha256 client transcript sessionAuthKey writer log := by
    obtain rfl := List.eq_nil_of_length_eq_zero hempty
    exact ⟨h, fun _ => hpending⟩
  induction turns generalizing writer data log with
  | zero => exact hdone (by omega)
  | succ turns ih =>
    unfold writeLoop
    split
    · rename_i hempty
      exact hdone hempty
    rename_i hdata
    have hspace : fragmentPayloadBytes = 48 := rfl
    obtain ⟨take, htake⟩ :
        ∃ take, take = min data.length (fragmentPayloadBytes - writer.pending.length) := ⟨_, rfl⟩
    simp only [← htake]
    have htaken := h.take (show writer.pending.length + take ≤ 48 by omega)
    have hrest : (data.drop take).length = data.length - take := List.length_drop
    -- the loop goes on with a writer whose fragment is open
    have hagain {writer' : CiphertextWriter} {log' : List CallRecord}
        (hok' : writer'.failure = .ok) (hlt : writer'.pending.length < 48)
        (hsending : Sending sha256 client transcript sessionAuthKey writer' (data.drop take) log') :
        (writeLoop sha256 client stack turns writer' (data.drop take)).wp logStep (fun outcome =>
          Acknowledged sha256 client transcript sessionAuthKey outcome.2) log' := by
      refine ih (data.drop take) (by omega) hok' hlt hsending fun hempty => ?_
      rw [List.eq_nil_of_length_eq_zero hempty] at hsending
      exact ⟨hsending, fun _ => hlt⟩
    split
    · rename_i hfull
      rw [Program.wp_bind]
      refine Program.wp_mono (fun outcome log' hflushed => ?_) (flushCiphertextFragment_wp htaken
        (fun hempty => by rw [hempty] at hfull; cases hfull) stack)
      obtain ⟨failure, flushed⟩ := outcome
      obtain ⟨hsending, hsame, hempty⟩ := hflushed
      dsimp only at hempty ⊢
      split
      · rename_i hfailed
        refine ⟨{ hsending with written := fun h => absurd h hfailed }, fun h => absurd h hfailed⟩
      · rename_i hflushed
        have hflushed : failure = .ok := not_not.mp hflushed
        have hkept : { flushed with failure := failure } = flushed := by
          rw [hflushed, ← hok, ← hsame]
        rw [hkept]
        exact hagain (hsame.trans hok) (by rw [hempty hflushed]; decide) hsending
    · rename_i hopen
      refine hagain hok ?_ htaken
      have hlength := htaken.pending_le
      dsimp only at hlength ⊢
      omega

theorem writeCiphertext_wp (stack : FrameBuffer) (data : Bytes)
    (h : Acknowledged sha256 client transcript sessionAuthKey writer log) :
    (writeCiphertext sha256 client stack writer data).wp logStep (fun outcome =>
      Acknowledged sha256 client transcript sessionAuthKey outcome.2) log := by
  unfold writeCiphertext
  split
  · exact h
  · rename_i hok
    have hok := not_not.mp hok
    refine writeLoop_wp stack _ data (Nat.le_refl _) hok (h.pending_lt hok)
      { h.sending with written := fun _ => ?_ }
    obtain ⟨payloads, hlength, htranscript, hacks⟩ := h.sending.written hok
    exact ⟨payloads, hlength, by rw [htranscript, List.append_nil], hacks⟩

variable (sha256 client transcript sessionAuthKey)

/-- A part of the encapsulation that keeps the writer of the connect. -/
def KeepsAcknowledged (α : Type) (p : EncapsulationProgram α) (Q : α → Prop) : Prop :=
  ∀ writer log, Acknowledged sha256 client transcript sessionAuthKey writer log →
    (p writer).wp logStep (fun outcome log' =>
      Acknowledged sha256 client transcript sessionAuthKey outcome.2 log' ∧ Q outcome.1) log

theorem keepsAcknowledged_compositional :
    Compositional (KeepsAcknowledged sha256 client transcript sessionAuthKey) := by
  refine ⟨fun ha writer log h => ⟨h, ha⟩, fun hp hf writer log h => ?_⟩
  exact Program.wp_bind .. |>.mpr (Program.wp_mono
    (fun outcome log' h' => hf outcome.1 h'.2 _ _ h'.1) (hp writer log h))

theorem encapsulate_wp (hashes : Hashes) (zetaData : Nat → Int16) (stack : FrameBuffer) :
    KeepsAcknowledged sha256 client transcript sessionAuthKey _
      (encapsulate hashes readPublicKey
        (fun data writer => writeCiphertext sha256 client stack writer data) zetaData
        encapsulationRandom) ReportsFailure := by
  refine encapsulate_keeps hashes (keepsAcknowledged_compositional ..) (fun offset => ?_)
    (fun data writer log h => ?_) zetaData ?_
  · rintro writer log h reply log' rfl
    exact ⟨⟨h.sending.mono (List.suffix_cons _ _), h.pending_lt⟩, trivial⟩
  · exact Program.wp_mono (fun _ _ h' => ⟨h', trivial⟩) (writeCiphertext_wp stack data h)
  · rintro writer log h reply log' rfl
    exact ⟨⟨h.sending.mono (List.suffix_cons _ _), h.pending_lt⟩, trivial⟩

end

/-! ## The handshake -/

/-- The transcript of a connect up to its challenge. -/
def challengeTranscript (client : Client) (deviceNonce : Block 16) (challengeFrame : Bytes) :
    Transcript :=
  transcriptAddChallenge (transcriptAddHello transcriptInit
    (helloFrame sha256 client.sessionId
      { suite := suiteMlkem512HkdfSha256Ascon128
        deviceId := client.config.deviceId
        epoch := client.config.epoch
        deviceNonce := deviceNonce } client.config.psk).val) challengeFrame

/-- A challenge that a call has received, with the transcript up to it. -/
def Challenged (client : Client) (deviceNonce : Block 16) (challenge : Challenge)
    (transcript : Transcript) (log : List CallRecord) : Prop :=
  ∃ record ∈ log, ∃ received, record.received = some received ∧
    received.accepted client.sessionId frameChallenge 84 = true ∧
    decodeVerifyChallenge sha256 client.sessionId (received.buffer.val.take 84) client.config.psk
      = .ok challenge ∧
    verifyChallengeMatches client challenge deviceNonce = .ok ∧
    transcript = challengeTranscript sha256 client deviceNonce (received.buffer.val.take 84)

theorem Challenged.mono {client : Client} {deviceNonce : Block 16} {challenge : Challenge}
    {transcript : Transcript} {log log' : List CallRecord}
    (h : Challenged sha256 client deviceNonce challenge transcript log) (hsuffix : log <:+ log') :
    Challenged sha256 client deviceNonce challenge transcript log' := by
  obtain ⟨record, hmem, hreceived⟩ := h
  exact ⟨record, hsuffix.subset hmem, hreceived⟩

/-- The 16 fragments of the ciphertext, each sent and acknowledged. -/
def AllAcknowledged (client : Client) (challenge : Challenge) (ciphertext : Bytes)
    (log : List CallRecord) : Prop :=
  ∃ payloads : List Bytes, payloads.length = 16 ∧ payloads.flatten = ciphertext ∧
    FragmentsAcknowledged sha256 client (challengeAuthKey sha256 client.config.psk challenge)
      payloads log

/-- A handshake that ends with session keys: behind the challenge and the acknowledgments of
the ciphertext, its last call has received the Finished of the peer. -/
def Confirmed (client : Client) (deviceNonce : Block 16) (keys : SessionKeys)
    (log : List CallRecord) : Prop :=
  ∃ challenge transcript ciphertext sharedSecret finished older,
    Challenged sha256 client deviceNonce challenge transcript older ∧
    deriveSessionKeys sha256 client.config.psk sharedSecret (sha256 (transcript ++ ciphertext))
      = .ok keys ∧
    log = finished :: older ∧
    finished.IsServerFinished sha256 keys client.sessionId (sha256 (transcript ++ ciphertext)) ∧
    AllAcknowledged sha256 client challenge ciphertext older

theorem decodeVerifyChallenge_reports (sessionId : UInt32) (frame : Bytes) (psk : Block 32) :
    ReportsFailure (decodeVerifyChallenge sha256 sessionId frame psk) := by
  unfold decodeVerifyChallenge ReportsFailure
  split
  · intro heq
    cases heq
  split
  · intro heq
    cases heq
  split
  · intro heq
    cases heq
  simp only
  split
  · intro heq
    cases heq
  split
  · intro heq
    cases heq
  · rename_i hfailure
    exact fun heq => hfailure (Except.error.inj heq)

theorem requestChallenge_wp (client : Client) (deviceNonce : Block 16) (stack : FrameBuffer)
    (log : List CallRecord) :
    (requestChallenge sha256 client deviceNonce stack).wp logStep
      (fun result log' => ReportsFailure result ∧ ∀ challenge transcript,
        result = .ok (challenge, transcript) →
          Challenged sha256 client deviceNonce challenge transcript log') log := by
  unfold requestChallenge
  simp only [encodeHello, ne_eq, not_true, if_false]
  rw [Program.wp_bind]
  have hexchange := sendAndReceive_wp client 60 frameChallenge 84 (stack.write
    (helloFrame sha256 client.sessionId
      { suite := suiteMlkem512HkdfSha256Ascon128
        deviceId := client.config.deviceId
        epoch := client.config.epoch
        deviceNonce := deviceNonce } client.config.psk).val) log
  refine Program.wp_mono (fun outcome log' hexchanged => ?_) hexchange
  split
  · rename_i hfailed
    exact ⟨fun heq => hfailed (Except.error.inj heq), nofun⟩
  rename_i hok
  obtain ⟨record, older, received, rfl, -, hrecord, haccepted, hbuffer⟩ :=
    hexchanged.2 (not_not.mp hok)
  rw [hbuffer]
  split
  · rename_i failure hfailed
    refine ⟨fun heq => ?_, nofun⟩
    exact decodeVerifyChallenge_reports sha256 _ _ _
      (hfailed.trans (congrArg _ (Except.error.inj heq)))
  rename_i challenge hchallenge
  split
  · rename_i hmatches
    refine ⟨nofun, fun challenge' transcript' heq => ?_⟩
    cases heq
    exact ⟨record, List.mem_cons_self, received, hrecord, haccepted, hchallenge, hmatches, rfl⟩
  · rename_i hfailed
    exact ⟨fun heq => hfailed (Except.error.inj heq), nofun⟩

theorem sendCiphertext_wp (hashes : Hashes) (zetaData : Nat → Int16) (client : Client)
    (challenge : Challenge) (transcript : Transcript) (stack : FrameBuffer)
    (log : List CallRecord) :
    (sendCiphertext sha256 hashes zetaData client challenge transcript stack).wp logStep
      (fun result log' => ReportsFailure result ∧ ∀ sharedSecret transcriptHash,
        result = .ok (sharedSecret, transcriptHash) →
          ∃ ciphertext, transcriptHash = sha256 (transcript ++ ciphertext) ∧
            AllAcknowledged sha256 client challenge ciphertext log') log := by
  have hnew : Acknowledged sha256 client transcript
      (challengeAuthKey sha256 client.config.psk challenge)
      (newWriter sha256 client challenge transcript) log := by
    refine ⟨⟨rfl, Nat.zero_le _, Nat.zero_le _, fun _ => ⟨[], rfl, ?_, nofun⟩⟩,
      fun _ => Nat.zero_lt_succ _⟩
    simp [newWriter]
  unfold sendCiphertext
  rw [Program.wp_bind]
  refine Program.wp_mono (fun encapsulated log' hencapsulated => ?_)
    (encapsulate_wp sha256 client transcript _ hashes zetaData stack _ log hnew)
  obtain ⟨encapsulated, writer⟩ := encapsulated
  obtain ⟨hacked, hreports⟩ := hencapsulated
  have hflush : (flushPending sha256 client stack encapsulated writer).wp logStep
      (fun outcome log'' => Sending sha256 client transcript
        (challengeAuthKey sha256 client.config.psk challenge) outcome.2 [] log'' ∧
          (outcome.1 = .ok → outcome.2.pending = [] ∧ ∃ secret, encapsulated = .ok secret))
        log' := by
    unfold flushPending
    split
    · exact ⟨hacked.sending, fun hok => absurd (congrArg Except.error hok) hreports⟩
    · split
      · rename_i hpending
        exact Program.wp_mono (fun _ _ h => ⟨h.1, fun hok => ⟨h.2.2 hok, _, rfl⟩⟩)
          (flushCiphertextFragment_wp hacked.sending hpending stack)
      · rename_i hpending
        exact ⟨hacked.sending,
          fun _ => ⟨List.eq_nil_of_length_eq_zero (not_not.mp hpending), _, rfl⟩⟩
  simp only
  rw [Program.wp_bind]
  refine Program.wp_mono (fun flushed log'' hflushed => ?_) hflush
  obtain ⟨result, writer'⟩ := flushed
  obtain ⟨hacked', hsecret⟩ := hflushed
  split
  · rename_i hfailed
    exact ⟨fun heq => hfailed (Except.error.inj heq), nofun⟩
  rename_i hok
  split
  · exact ⟨nofun, nofun⟩
  rename_i hcomplete
  simp only [not_or, not_not] at hcomplete
  obtain ⟨hpending, secret, rfl⟩ := hsecret (not_not.mp hok)
  obtain ⟨payloads, hlength, htranscript, hacks⟩ := hacked'.written hcomplete.2
  dsimp only at hpending
  refine ⟨nofun, fun sharedSecret transcriptHash heq => ?_⟩
  cases heq
  rw [hpending, List.append_nil, List.append_nil] at htranscript
  rw [hcomplete.1] at hlength
  exact ⟨payloads.flatten, congrArg sha256 htranscript, payloads, hlength, rfl, hacks⟩

theorem exchangeFinished_wp (client : Client) (keys : SessionKeys) (transcriptHash : Block 32)
    (stack : FrameBuffer) (log : List CallRecord) :
    (exchangeFinished sha256 client keys transcriptHash stack).wp logStep
      (fun status log' => status = .ok → ∃ record older, log' = record :: older ∧ log <:+ older ∧
        record.IsServerFinished sha256 keys client.sessionId transcriptHash) log := by
  unfold exchangeFinished
  simp only
  rw [Program.wp_bind]
  have hexchange := sendAndReceive_wp client 26 frameServerFinished 26 (stack.write
    (finishedFrame sha256 keys.deviceFinishedKey frameDeviceFinished client.sessionId
      transcriptHash)) log
  refine Program.wp_mono (fun outcome log' hexchanged => ?_) hexchange
  split
  · rename_i hfailed
    exact fun hok => absurd hok hfailed
  rename_i hok
  obtain ⟨record, older, received, hlog, holder, hrecord, haccepted, hbuffer⟩ :=
    hexchanged.2 (not_not.mp hok)
  rw [hbuffer]
  exact fun hfinished => ⟨record, older, hlog, holder, received, hrecord, haccepted, hfinished⟩

theorem handshake_wp (hashes : Hashes) (zetaData : Nat → Int16) (client : Client)
    (deviceNonce : Block 16) (stack : FrameBuffer) (log : List CallRecord) :
    (handshake sha256 hashes zetaData client deviceNonce stack).wp logStep
      (fun result log' => ReportsFailure result ∧ ∀ keys, result = .ok keys →
        Confirmed sha256 client deviceNonce keys log') log := by
  unfold handshake
  rw [Program.wp_bind]
  refine Program.wp_mono (fun requested log1 hrequested => ?_)
    (requestChallenge_wp sha256 client deviceNonce stack log)
  split
  · exact ⟨fun heq => hrequested.1 (congrArg _ (Except.error.inj heq)), nofun⟩
  rename_i challenge transcript
  have hchallenged := hrequested.2 challenge transcript rfl
  rw [Program.wp_bind]
  refine Program.wp_mono (fun sent log2 hsent => ?_) (Program.wp_and
    (sendCiphertext_wp sha256 hashes zetaData client challenge transcript stack log1)
    (log_suffix _ log1))
  split
  · exact ⟨fun heq => hsent.1.1 (congrArg _ (Except.error.inj heq)), nofun⟩
  rename_i sharedSecret transcriptHash
  obtain ⟨ciphertext, hhash, payloads, hcount, hflatten, hacks⟩ :=
    hsent.1.2 sharedSecret transcriptHash rfl
  obtain ⟨keys, hkeys⟩ : ∃ keys, deriveSessionKeys sha256 client.config.psk sharedSecret
      transcriptHash = .ok keys := ⟨_, deriveSessionKeys_eq ..⟩
  simp only [hkeys]
  rw [Program.wp_bind]
  refine Program.wp_mono (fun status log3 hfinished => ?_)
    (exchangeFinished_wp sha256 client keys transcriptHash stack log2)
  split
  · obtain ⟨finished, older, hlog, hsuffix, hserver⟩ := hfinished rfl
    refine ⟨nofun, fun keys' heq => ?_⟩
    cases heq
    rw [hhash] at hkeys hserver
    exact ⟨challenge, transcript, ciphertext, sharedSecret, finished, older,
      hchallenged.mono sha256 (hsent.2.trans hsuffix), hkeys, hlog, hserver, payloads, hcount,
      hflatten, hacks.mono hsuffix⟩
  · rename_i hfailed
    exact ⟨fun heq => hfailed (Except.error.inj heq), nofun⟩

/-! ## The connect -/

/-- No secret of a session is left in the client. -/
structure Client.NoSecrets (client : Client) : Prop where
  sendSecret : client.sendSecret = Block.zero 32
  receiveSecret : client.receiveSecret = Block.zero 32
  sendNonceBase : client.sendNonceBase = Block.zero 16
  receiveNonceBase : client.receiveNonceBase = Block.zero 16

theorem Client.fail_noSecrets (client : Client) : client.fail.NoSecrets := ⟨rfl, rfl, rfl, rfl⟩

/-- How a connect that passed its check can end. -/
structure ConnectOutcome (client : Client) (result : ConnectResult) (log : List CallRecord) :
    Prop where
  workspace : result.workspace = Block.zero 1344
  config : result.client.config = client.config
  ended : (result.status = .ok ∧ result.client.state = .established ∧ ∃ deviceNonce keys,
      result.client = (client.connecting deviceNonce).establish keys ∧
      Confirmed sha256 (client.connecting deviceNonce) deviceNonce keys log) ∨
    (result.status ≠ .ok ∧ result.client.state = .failed ∧ result.client.NoSecrets)

theorem connect_wp (hashes : Hashes) (zetaData : Nat → Int16) {client : Client}
    (hready : client.state = .ready) (workspace : Workspace) (stack : FrameBuffer)
    (log : List CallRecord) :
    (connect sha256 hashes zetaData client workspace stack).wp logStep
      (ConnectOutcome sha256 client) log := by
  unfold connect
  rw [if_neg (not_not.mpr hready)]
  simp only [Program.wp_bind, Program.wp_perform]
  intro random log1 _
  obtain ⟨status, deviceNonce⟩ := random
  dsimp only
  split
  · exact ⟨rfl, rfl, .inr ⟨show Status.errRng ≠ .ok by decide, rfl, Client.fail_noSecrets _⟩⟩
  rw [Program.wp_bind]
  refine Program.wp_mono (fun result log2 hresult => ?_)
    (handshake_wp sha256 hashes zetaData (client.connecting deviceNonce) deviceNonce stack log1)
  split
  · rename_i failure
    exact ⟨rfl, rfl, .inr ⟨reportsFailure_error.mp hresult.1, rfl, Client.fail_noSecrets _⟩⟩
  · rename_i keys
    exact ⟨rfl, rfl, .inl ⟨rfl, rfl, deviceNonce, keys, rfl, hresult.2 keys rfl⟩⟩

/-! ## Sequences of calls -/

/-- Callbacks that answer by the calls that the connect has made so far. -/
abbrev Answers := (call : ClientCall) → List CallRecord → ClientReply call

/-- A call of the interface of the client. -/
inductive ClientOp where
  | init (config : ClientConfig)
  | connect (workspace : Workspace) (stack : FrameBuffer) (answers : Answers)
  | sealRecord (plaintext : Bytes) (frameCapacity : Nat)
  | openRecord (frame : Bytes) (plaintextCapacity : Nat)
  | close

variable (hashes : Hashes) (zetaData : Nat → Int16)

/-- The result of a connect and its calls, the last one first. -/
def connectRun (client : Client) (workspace : Workspace) (stack : FrameBuffer)
    (answers : Answers) : ConnectResult × List CallRecord :=
  (connect sha256 hashes zetaData client workspace stack).run
    (fun call log => (answers call log, ⟨call, answers call log⟩ :: log)) []

def Client.after (client : Client) : ClientOp → Client
  | .init config =>
    match clientInit config with
    | .ok client => client
    | .error _ => client
  | .connect workspace stack answers =>
    (connectRun sha256 hashes zetaData client workspace stack answers).1.client
  | .sealRecord plaintext frameCapacity =>
    (C0PQLink.sealRecord sha256 client plaintext frameCapacity).2
  | .openRecord frame plaintextCapacity =>
    (C0PQLink.openRecord sha256 client frame plaintextCapacity).2
  | .close => clientClose client

/-- The client after some calls. -/
def Client.afterOps (client : Client) (ops : List ClientOp) : Client :=
  ops.foldl (Client.after sha256 hashes zetaData) client

/-- What the claim on the life of a client says of a client that some calls have led to. -/
structure LifecycleSafe (client : Client) : Prop where
  noSecrets : client.state ≠ .established → client.NoSecrets
  connecting : client.state = .ready → ∀ deviceNonce, (client.connecting deviceNonce).NoSecrets
  connected : client.state = .ready → ∀ workspace stack answers,
    let outcome := connectRun sha256 hashes zetaData client workspace stack answers
    ConnectOutcome sha256 client outcome.1 outcome.2
  establishedBy : ∀ op, client.state ≠ .established →
    (client.after sha256 hashes zetaData op).state = .established →
    client.state = .ready ∧ ∃ workspace stack answers, op = .connect workspace stack answers

theorem connectRun_outcome {client : Client} (hready : client.state = .ready)
    (workspace : Workspace) (stack : FrameBuffer) (answers : Answers) :
    ConnectOutcome sha256 client
      (connectRun sha256 hashes zetaData client workspace stack answers).1
      (connectRun sha256 hashes zetaData client workspace stack answers).2 :=
  wp_logged (connect_wp sha256 hashes zetaData hready workspace stack []) answers

/-- A connect whose check fails. -/
theorem connectRun_refused {client : Client} (hready : client.state ≠ .ready)
    (workspace : Workspace) (stack : FrameBuffer) (answers : Answers) :
    connectRun sha256 hashes zetaData client workspace stack answers
      = (⟨.errState, client, workspace⟩, []) := by
  rw [connectRun, connect, if_pos hready]
  rfl

theorem clientInit_ready {config : ClientConfig} {client : Client}
    (h : clientInit config = .ok client) : client.state = .ready ∧ client.NoSecrets := by
  unfold clientInit at h
  split at h
  · cases h
  · obtain rfl := Except.ok.inj h
    exact ⟨rfl, rfl, rfl, rfl, rfl⟩

theorem sealRecord_state (client : Client) (plaintext : Bytes) (frameCapacity : Nat) :
    (C0PQLink.sealRecord sha256 client plaintext frameCapacity).2.state = client.state := by
  rcases sealRecord_cases sha256 client plaintext frameCapacity with ⟨_, h⟩ | ⟨-, -, h⟩ <;> rw [h]
  rfl

theorem openRecord_state (client : Client) (frame : Bytes) (plaintextCapacity : Nat) :
    (C0PQLink.openRecord sha256 client frame plaintextCapacity).2.state = client.state := by
  rcases openRecord_cases sha256 client frame plaintextCapacity with ⟨_, h⟩ | ⟨_, -, h⟩ <;> rw [h]
  rfl

/-- A record call of a client without a session leaves it as it is. -/
theorem sealRecord_refused {client : Client} (h : client.state ≠ .established) (plaintext : Bytes)
    (frameCapacity : Nat) :
    (C0PQLink.sealRecord sha256 client plaintext frameCapacity).2 = client := by
  rw [C0PQLink.sealRecord, if_pos h]

theorem openRecord_refused {client : Client} (h : client.state ≠ .established) (frame : Bytes)
    (plaintextCapacity : Nat) :
    (C0PQLink.openRecord sha256 client frame plaintextCapacity).2 = client := by
  rw [C0PQLink.openRecord, if_pos h]

/-- A client that is not established has no secrets. -/
def Client.Clean (client : Client) : Prop := client.state ≠ .established → client.NoSecrets

theorem Client.Clean.after {client : Client} (h : client.Clean) (op : ClientOp) :
    (client.after sha256 hashes zetaData op).Clean := by
  intro hstate
  cases op with
  | init config =>
    cases hinit : clientInit config with
    | ok started =>
      simp only [Client.after, hinit]
      exact (clientInit_ready hinit).2
    | error failure =>
      simp only [Client.after, hinit] at hstate ⊢
      exact h hstate
  | connect workspace stack answers =>
    simp only [Client.after] at hstate ⊢
    by_cases hready : client.state = .ready
    · rcases (connectRun_outcome sha256 hashes zetaData hready workspace stack answers).ended with
        ⟨-, hestablished, -⟩ | ⟨-, -, hclean⟩
      · exact absurd hestablished hstate
      · exact hclean
    · rw [connectRun_refused sha256 hashes zetaData hready] at hstate ⊢
      exact h hstate
  | sealRecord plaintext frameCapacity =>
    have hsame := sealRecord_state sha256 client plaintext frameCapacity
    simp only [Client.after] at hstate ⊢
    rw [hsame] at hstate
    rw [sealRecord_refused sha256 hstate]
    exact h hstate
  | openRecord frame plaintextCapacity =>
    have hsame := openRecord_state sha256 client frame plaintextCapacity
    simp only [Client.after] at hstate ⊢
    rw [hsame] at hstate
    rw [openRecord_refused sha256 hstate]
    exact h hstate
  | close => exact ⟨rfl, rfl, rfl, rfl⟩

theorem Client.Clean.afterOps {client : Client} (h : client.Clean) (ops : List ClientOp) :
    (client.afterOps sha256 hashes zetaData ops).Clean := by
  induction ops generalizing client with
  | nil => exact h
  | cons op ops ih => exact ih (h.after sha256 hashes zetaData op)

theorem Client.Clean.lifecycleSafe {client : Client} (h : client.Clean) :
    LifecycleSafe sha256 hashes zetaData client := by
  refine ⟨h, fun hready deviceNonce => ?_, fun hready workspace stack answers =>
    connectRun_outcome sha256 hashes zetaData hready workspace stack answers,
    fun op hstate hafter => ?_⟩
  · obtain ⟨h1, h2, h3, h4⟩ := h (by rw [hready]; nofun)
    exact ⟨h1, h2, h3, h4⟩
  · cases op with
    | init config =>
      cases hinit : clientInit config with
      | ok started =>
        simp only [Client.after, hinit, (clientInit_ready hinit).1] at hafter
        cases hafter
      | error failure =>
        simp only [Client.after, hinit] at hafter
        exact absurd hafter hstate
    | connect workspace stack answers =>
      by_cases hready : client.state = .ready
      · exact ⟨hready, workspace, stack, answers, rfl⟩
      · simp only [Client.after, connectRun_refused sha256 hashes zetaData hready] at hafter
        exact absurd hafter hstate
    | sealRecord plaintext frameCapacity =>
      simp only [Client.after, sealRecord_state] at hafter
      exact absurd hafter hstate
    | openRecord frame plaintextCapacity =>
      simp only [Client.after, openRecord_state] at hafter
      exact absurd hafter hstate
    | close => cases hafter

/-- The client after a successful `c0pq_client_init` and any calls behind it. -/
theorem lifecycle_safe {config : ClientConfig} {client : Client}
    (hinit : clientInit config = .ok client) (ops : List ClientOp) :
    LifecycleSafe sha256 hashes zetaData (client.afterOps sha256 hashes zetaData ops) :=
  Client.Clean.lifecycleSafe sha256 hashes zetaData
    (Client.Clean.afterOps sha256 hashes zetaData (fun _ => (clientInit_ready hinit).2) ops)

/-- Constant hash functions, for examples with fixed inputs. -/
def zeroHashes : Hashes where
  hashH := fun _ => Block.zero 32
  hashG := fun _ => Block.zero 64
  prf := fun _ _ => 0
  xof := fun _ _ => 0
  finishes := fun _ k => ⟨0, by simp [candidate]⟩

def exampleConfig : ClientConfig where
  deviceId := Block.zero 8
  psk := ⟨List.replicate 32 1, rfl⟩
  epoch := 7
  publicKeyId := ⟨List.replicate 16 2, rfl⟩
  mode := pqBootstrapRatchet
  timeoutMs := 0
  maximumRetries := 3

/-- A connect whose random source fails, and a close. -/
theorem failedConnect_safe : ∃ client, clientInit exampleConfig = .ok client ∧
    LifecycleSafe zeroDigest zeroHashes loadZeta (client.afterOps zeroDigest zeroHashes loadZeta
      [.connect (Block.zero 1344) (Block.zero 96) fun
          | .randomBytes length, _ => (-1, Block.zero length)
          | .readPublicKey _, _ => 0
          | .sendFrame _, _ => 0
          | .receiveFrame buffer, _ => ⟨0, buffer, 0⟩,
        .close]) :=
  ⟨_, rfl, lifecycle_safe zeroDigest zeroHashes loadZeta
    (show clientInit exampleConfig = .ok _ from rfl) _⟩

end C0PQLink
