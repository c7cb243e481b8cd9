import C0PQLink.Core.MlKem512Callbacks
import C0PQLink.Foundation.Histories
import C0PQLink.Session.Lifecycle

/-!
# The transcript of a connect

What the transcript of a connect holds, whatever is received: the hello, a challenge that
verifies, and the ciphertext of an encapsulation for the public key.

* `sendTranscript`: the ciphertext phase with its transcript in place of the hash of it.
* `requestChallenge_returns`, `sendTranscript_returns`: the transcript after each phase.
-/

namespace C0PQLink

open Foundation

variable (sha256 : Bytes → Block 32)

/-! ## The writes -/

section

variable {σ : Type} {step : (call : ClientCall) → σ → ClientReply call → σ → Prop}
  (client : Client) (stack : FrameBuffer)

theorem flushCiphertextFragment_transcript (writer : CiphertextWriter) (s : σ) :
    (flushCiphertextFragment sha256 client writer stack).wp step
      (fun outcome _ => outcome.2.transcript = writer.transcript) s := by
  unfold flushCiphertextFragment
  split
  · rfl
  simp only
  rw [Program.wp_bind]
  refine Program.wp_mono (fun outcome s' _ => ?_) (Program.wp_true _ s)
  split
  · rfl
  split <;> rfl

theorem writeLoop_transcript (turns : Nat) (writer : CiphertextWriter) (data : Bytes) (s : σ) :
    (writeLoop sha256 client stack turns writer data).wp step
      (fun outcome _ => outcome.2.transcript = writer.transcript) s := by
  induction turns generalizing writer data s with
  | zero => rfl
  | succ turns ih =>
    unfold writeLoop
    split
    · rfl
    simp only
    split
    · rw [Program.wp_bind]
      refine Program.wp_mono (fun outcome s' hflushed => ?_)
        (flushCiphertextFragment_transcript sha256 client stack _ s)
      simp only at hflushed ⊢
      split
      · exact hflushed
      · exact Program.wp_mono (fun last _ hlast => hlast.trans hflushed) (ih _ _ s')
    · exact ih _ _ s

/-- A write that succeeds has added its bytes to the transcript. -/
theorem writeCiphertext_transcript (writer : CiphertextWriter) (data : Bytes) (s : σ) :
    (writeCiphertext sha256 client stack writer data).wp step
      (fun outcome _ => outcome.1 = .ok → outcome.2.transcript = writer.transcript ++ data) s := by
  unfold writeCiphertext
  split
  · rename_i hfailed
    exact fun hok => absurd hok hfailed
  · exact Program.wp_mono (fun outcome _ hwritten _ => hwritten)
      (writeLoop_transcript sha256 client stack data.length _ data s)

end

/-! ## The encapsulation -/

/-- The answers of a client that holds the public key. -/
def KeyReply (publicKey : Block 800) : (call : ClientCall) → ClientReply call → Prop
  | .readPublicKey offset, value => value = byteAt publicKey.val offset.toNat
  | _, _ => True

/-- The programs of the encapsulation as transformers, with the public key read. -/
def keyTransformer (publicKey : Block 800) :
    MonadMap EncapsulationProgram (Transformer (CiphertextWriter × Unit)) :=
  .wp CiphertextWriter fun call _ reply _ => KeyReply publicKey call reply

theorem readPublicKey_keyTransformer (publicKey : Block 800) (offset : UInt16) :
    (keyTransformer publicKey).map (readPublicKey offset) = pureReader publicKey offset := by
  funext states Q
  refine propext ⟨fun h => h _ () rfl, ?_⟩
  rintro h reply _ rfl
  exact h

/-- Any answer of the random source. -/
def anyRandom : Transformer (CiphertextWriter × Unit) (Int × Block 32) :=
  fun states Q => ∀ random, Q random states

theorem encapsulationRandom_keyTransformer (publicKey : Block 800) :
    (keyTransformer publicKey).map encapsulationRandom = anyRandom := by
  funext states Q
  exact propext ⟨fun h random => h random () trivial, fun h random _ _ => h random⟩

section

variable (publicKey : Block 800) (client : Client) (stack : FrameBuffer)

/-- The writer callback as a transformer. -/
def writeTransformer (data : Bytes) : Transformer (CiphertextWriter × Unit) Status :=
  (keyTransformer publicKey).map fun writer => writeCiphertext sha256 client stack writer data

theorem writeEach_transcript (chunks : List Bytes) (writer : CiphertextWriter)
    {transcript : Transcript} (htranscript : writer.transcript ++ chunks.flatten = transcript)
    {Q : Status → CiphertextWriter × Unit → Prop}
    (hQ : ∀ status states, (status = .ok → states.1.transcript = transcript) → Q status states) :
    Transformer.Leads (writeEach (writeTransformer sha256 publicKey client stack) chunks)
      (writer, ()) Q := by
  induction chunks generalizing writer with
  | nil =>
    refine Transformer.leads_pure (hQ _ _ fun _ => ?_)
    exact (List.append_nil _).symm.trans htranscript
  | cons chunk rest ih =>
    rw [writeEach, Transformer.leads_bind, Transformer.leads_iff]
    refine Program.wp_mono (fun outcome _ hwritten => ?_)
      (writeCiphertext_transcript sha256 client stack writer chunk ())
    obtain ⟨status, writer'⟩ := outcome
    by_cases hok : status = .ok
    · subst hok
      refine ih writer' ?_
      rw [hwritten rfl, List.append_assoc]
      exact htranscript
    · simp only [ne_eq, hok, not_false_eq_true, if_true]
      refine Transformer.leads_pure (hQ _ _ fun h => ?_)
      cases h

/-- The shared secret and the ciphertext of an encapsulation for the public key. -/
def Encapsulated (hashes : Fips203.Hashes) (transcript : Transcript) (sharedSecret : Block 32)
    (transcript' : Transcript) : Prop :=
  ∃ randomness, sharedSecret = (Fips203.encapsInternal hashes publicKey randomness).1 ∧
    transcript' = transcript ++ (Fips203.encapsInternal hashes publicKey randomness).2

variable {publicKey}

/-- With the key read and the randomness drawn, what is left is the loop of writes. -/
theorem encapsulateDerand_transcript (hashes : Fips203.Hashes) (randomness : Block 32)
    (writer : CiphertextWriter) :
    Transformer.Leads (encapsulateDerand hashes (pureReader publicKey)
        (writeTransformer sha256 publicKey client stack) loadZeta randomness) (writer, ())
      fun result states => ∀ sharedSecret, result = .ok sharedSecret →
        Encapsulated publicKey hashes writer.transcript sharedSecret states.1.transcript := by
  by_cases hcanonical : Fips203.Canonical publicKey
  swap
  · rw [encapsulateDerand_pureReader_rejected hashes publicKey _ _ hcanonical]
    refine Transformer.leads_pure fun sharedSecret hresult => ?_
    cases hresult
  have hflatten : (chunksWith hashes publicKey randomness loadZeta).flatten
      = (Fips203.encapsInternal hashes publicKey randomness).2 :=
    chunksWith_loadZeta hashes publicKey randomness hcanonical
  have hsecret : (secretAndCoins hashes publicKey randomness).1
      = (Fips203.encapsInternal hashes publicKey randomness).1 := by
    rw [encapsInternal_eq]
  rw [encapsulateDerand_pureReader hashes publicKey _ _ hcanonical, Transformer.leads_bind]
  refine writeEach_transcript sha256 publicKey client stack
    (chunksWith hashes publicKey randomness loadZeta) writer rfl fun status states htranscript => ?_
  by_cases hok : status = .ok
  · simp only [ne_eq, hok, not_true, if_false]
    refine Transformer.leads_pure fun sharedSecret hresult => ⟨randomness, ?_, ?_⟩
    · rw [← hsecret]
      exact (Except.ok.inj hresult).symm
    · rw [htranscript hok, hflatten]
  · simp only [ne_eq, hok, not_false_eq_true, if_true]
    refine Transformer.leads_pure fun sharedSecret hresult => ?_
    cases hresult

theorem encapsulate_returns (hashes : Fips203.Hashes) (writer : CiphertextWriter) :
    (encapsulate hashes readPublicKey
        (fun data writer => writeCiphertext sha256 client stack writer data) loadZeta
        encapsulationRandom writer).Returns (KeyReply publicKey) fun outcome =>
      ∀ sharedSecret, outcome.1 = .ok sharedSecret →
        Encapsulated publicKey hashes writer.transcript sharedSecret outcome.2.transcript := by
  have hmap : (keyTransformer publicKey).map (encapsulate hashes readPublicKey
      (fun data writer => writeCiphertext sha256 client stack writer data) loadZeta
      encapsulationRandom)
      = encapsulate hashes (pureReader publicKey)
        (writeTransformer sha256 publicKey client stack) loadZeta anyRandom := by
    rw [encapsulate_map]
    simp only [readPublicKey_keyTransformer, encapsulationRandom_keyTransformer]
    rfl
  have hrun : Transformer.Leads (encapsulate hashes (pureReader publicKey)
      (writeTransformer sha256 publicKey client stack) loadZeta anyRandom) (writer, ())
      fun result states => ∀ sharedSecret, result = .ok sharedSecret →
        Encapsulated publicKey hashes writer.transcript sharedSecret states.1.transcript := by
    rw [encapsulate, Transformer.leads_bind, Transformer.leads_iff]
    rintro ⟨status, randomness⟩
    dsimp only
    by_cases hstatus : status = 0
    · rw [if_neg (not_not.mpr hstatus)]
      exact encapsulateDerand_transcript sha256 client stack hashes randomness writer
    · rw [if_pos hstatus]
      refine Transformer.leads_pure fun sharedSecret h => ?_
      cases h
  rw [← hmap] at hrun
  exact hrun.holds

/-! ## The ciphertext phase -/

/-- `sendCiphertext` with the transcript itself in place of its hash. -/
def sendTranscript (hashes : Fips203.Hashes) (zetaData : Nat → Int16) (client : Client)
    (challenge : Challenge) (transcript : Transcript) (stack : FrameBuffer) :
    ClientProgram (Except Status (Block 32 × Transcript)) := do
  let (encapsulated, writer) ←
    encapsulate hashes readPublicKey
      (fun data writer => writeCiphertext sha256 client stack writer data) zetaData
      encapsulationRandom (newWriter sha256 client challenge transcript)
  let (result, writer) ← flushPending sha256 client stack encapsulated writer
  if result ≠ .ok then return .error result
  if writer.fragmentIndex ≠ fragmentCount ∨ writer.failure ≠ .ok then return .error .errIo
  return encapsulated.map fun sharedSecret => (sharedSecret, writer.transcript)

theorem sendCiphertext_eq (hashes : Fips203.Hashes) (zetaData : Nat → Int16)
    (challenge : Challenge) (transcript : Transcript) :
    sendCiphertext sha256 hashes zetaData client challenge transcript stack = (do
      let sent ← sendTranscript sha256 hashes zetaData client challenge transcript stack
      return sent.map fun sent => (sent.1, sha256 sent.2)) := by
  rw [sendCiphertext, sendTranscript, bind_assoc]
  refine bind_congr fun encapsulated => ?_
  rw [bind_assoc]
  refine bind_congr fun flushed => ?_
  obtain ⟨result, writer⟩ := flushed
  dsimp only
  split
  · rfl
  split
  · rfl
  · rcases encapsulated with ⟨failure | sharedSecret, writer⟩ <;> rfl

theorem flushPending_returns {ok : (call : ClientCall) → ClientReply call → Prop}
    (encapsulated : Except Status (Block 32)) (writer : CiphertextWriter) :
    (flushPending sha256 client stack encapsulated writer).Returns ok fun outcome =>
      outcome.2.transcript = writer.transcript := by
  unfold flushPending
  split
  · rfl
  · split
    · exact flushCiphertextFragment_transcript sha256 client stack writer ()
    · rfl

/-- A ciphertext phase that succeeds has sent an encapsulation for the public key. -/
theorem sendTranscript_returns (hashes : Fips203.Hashes) (challenge : Challenge)
    (transcript : Transcript) :
    (sendTranscript sha256 hashes loadZeta client challenge transcript stack).Returns
      (KeyReply publicKey) fun result => ∀ sharedSecret transcript',
        result = .ok (sharedSecret, transcript') →
          Encapsulated publicKey hashes transcript sharedSecret transcript' := by
  refine (encapsulate_returns sha256 client stack hashes
    (newWriter sha256 client challenge transcript)).bind fun encapsulated hencapsulated => ?_
  obtain ⟨encapsulated, writer⟩ := encapsulated
  refine (flushPending_returns sha256 client stack encapsulated writer).bind
    fun flushed hflushed => ?_
  obtain ⟨result, writer'⟩ := flushed
  have hfailed (failure : Status) : ∀ sharedSecret transcript',
      (.error failure : Except Status (Block 32 × Transcript)) = .ok (sharedSecret, transcript') →
        Encapsulated publicKey hashes transcript sharedSecret transcript' :=
    fun _ _ h => by cases h
  dsimp only at hflushed ⊢
  split
  · exact hfailed _
  split
  · exact hfailed _
  cases encapsulated with
  | error failure => exact hfailed failure
  | ok sharedSecret =>
    intro sharedSecret' transcript' h
    cases h
    rw [hflushed]
    exact hencapsulated sharedSecret rfl

/-- A challenge that is accepted answers the hello, and the transcript holds both. -/
theorem requestChallenge_returns {ok : (call : ClientCall) → ClientReply call → Prop}
    (deviceNonce : Block 16) :
    (requestChallenge sha256 client deviceNonce stack).Returns ok fun result =>
      ∀ challenge transcript, result = .ok (challenge, transcript) →
        challenge.suite = suiteMlkem512HkdfSha256Ascon128 ∧
        challenge.epoch = client.config.epoch ∧ challenge.keyId = client.config.publicKeyId ∧
        challenge.deviceNonce = deviceNonce ∧
        transcript = ascii "C0PQ/1 transcript"
          ++ helloCore client.sessionId
            { suite := suiteMlkem512HkdfSha256Ascon128
              deviceId := client.config.deviceId
              epoch := client.config.epoch
              deviceNonce := deviceNonce }
          ++ challengeCore client.sessionId challenge := by
  have hlogged : (requestChallenge sha256 client deviceNonce stack).wp logStep
      (fun result _ => ∀ challenge transcript, result = .ok (challenge, transcript) →
        ∃ log, Challenged sha256 client deviceNonce challenge transcript log) [] :=
    Program.wp_mono (fun _ log h challenge transcript hok => ⟨log, h.2 challenge transcript hok⟩)
      (requestChallenge_wp sha256 client deviceNonce stack [])
  have hany : ∀ call log (reply : ClientReply call), ok call reply →
      ∃ log', logStep call log reply log' := fun _ _ _ _ => ⟨_, rfl⟩
  refine (Program.returns_of_wp hany hlogged).mono fun result hresult challenge transcript hok => ?_
  obtain ⟨-, -, -, received, -, -, hframe, hmatches, rfl⟩ := hresult challenge transcript hok
  obtain ⟨hsuite, hbytes⟩ := (decodeVerifyChallenge_iff sha256).mp hframe
  unfold verifyChallengeMatches at hmatches
  split at hmatches
  · cases hmatches
  rename_i hfields
  simp only [not_or, not_not] at hfields
  refine ⟨hsuite, hfields.2.1, hfields.2.2.1, hfields.2.2.2, ?_⟩
  rw [challengeTranscript, hbytes, transcriptAddChallenge, transcriptAddHello]
  congr 1
  · congr 1
    exact slice_self_append (length_helloCore _ _)
  · exact slice_self_append (length_challengeCore _ _)

end

end C0PQLink
