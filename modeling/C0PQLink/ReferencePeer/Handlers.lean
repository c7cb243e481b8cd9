import C0PQLink.ReferencePeer.Handshake
import C0PQLink.ReferencePeer.Records

/-!
# The handlers of the peer

What each handler can do to the sessions, with the conditions under which it does so.

* `handleHello_cases`, `handleFragment_cases`, `finishSession_cases`: one lemma for each handler
  of the handshake.
* `handleRecord_outcomes`: how a record frame ends.
-/

namespace C0PQLink.ReferencePeer

open Foundation

variable (sha256 : Bytes → Block 32)

/-! ## Hello -/

/-- A hello is refused, answered with the challenge of its session, or starts a session. -/
theorem handleHello_cases (peer : Peer) (random frame : Bytes) :
    (∃ error, handleHello sha256 peer random frame = (.error error, peer)) ∨
      ∃ parsed, parseHello sha256 frame (lookupDevice peer) = .ok parsed ∧
        ((∃ session, peer.sessions parsed.header.sessionId = some session ∧
            session.helloCore = slice frame 0 44 ∧
            handleHello sha256 peer random frame = (.ok session.challengeFrame, peer)) ∨
          ∃ challengeFrame sessionAuthKey, peer.sessions parsed.header.sessionId = none ∧
            handleHello sha256 peer random frame = (.ok challengeFrame,
              peer.setSession parsed.header.sessionId
                (newSession parsed frame challengeFrame sessionAuthKey))) := by
  unfold handleHello
  cases hparsed : parseHello sha256 frame (lookupDevice peer) with
  | error error => exact .inl ⟨error, rfl⟩
  | ok parsed =>
    simp only
    split
    · rename_i session hsession
      split
      · exact .inl ⟨_, rfl⟩
      · rename_i hcore
        exact .inr ⟨parsed, rfl, .inl ⟨session, hsession, not_not.mp hcore, rfl⟩⟩
    · rename_i hnone
      split
      · exact .inl ⟨_, rfl⟩
      split
      · split
        · exact .inl ⟨_, rfl⟩
        · exact .inr ⟨parsed, rfl, .inr ⟨_, _, hnone, rfl⟩⟩
      · exact .inl ⟨_, rfl⟩

/-! ## Fragments -/

/-- A fragment frame of the session with the given index and payload, whose tag verifies. -/
structure AuthenticFragment (sessionAuthKey : Block 32) (sessionId : UInt32) (index : Nat)
    (chunk frame : Bytes) : Prop where
  header : ∃ header, decodeHeader frame = .ok header ∧ header.type = frameCiphertextFragment ∧
    header.flags = 0 ∧ header.sessionId = sessionId
  shape : frame.length = 77 ∧ byteAt frame 11 = 16 ∧ byteAt frame 12 = 48
  index : (byteAt frame 10).toNat = index
  payload : slice frame 13 48 = chunk
  tag : (C0PQLink.authTag sha256 sessionAuthKey "C0PQ/1 ciphertext fragment"
    (slice frame 0 61)).val = frame.drop 61

/-- A fragment is refused, or it is authentic, agrees with what is stored, and is stored. -/
theorem handleFragment_cases (peer : Peer) {frame : Bytes} {header : Header}
    (hheader : decodeHeader frame = .ok header) (htype : header.type = frameCiphertextFragment) :
    (∃ error, handleFragment sha256 peer frame header = (.error error, peer)) ∨
      ∃ session index chunk, peer.sessions header.sessionId = some session ∧
        index < (16 : UInt8) ∧ chunk.length = 48 ∧
        AuthenticFragment sha256 session.sessionAuthKey header.sessionId index.toNat chunk frame ∧
        (session.received index.toNat = true →
          slice session.ciphertext.val (index.toNat * 48) 48 = chunk) ∧
        handleFragment sha256 peer frame header
          = (.ok (ackFrame sha256 session.sessionAuthKey session.sessionId index),
            peer.setSession header.sessionId (session.store index chunk)) := by
  unfold handleFragment
  split
  · exact .inl ⟨_, rfl⟩
  rename_i session hsession
  split
  · exact .inl ⟨_, rfl⟩
  rename_i hflags
  simp only
  split
  · exact .inl ⟨_, rfl⟩
  rename_i hshape
  simp only [not_or, not_not] at hflags hshape
  obtain ⟨htotal, hindex, hlength, hframe⟩ := hshape
  rw [hlength] at hframe
  split
  · exact .inl ⟨_, rfl⟩
  rename_i htag
  split
  · exact .inl ⟨_, rfl⟩
  rename_i hconflict
  rw [hlength] at htag hconflict
  refine .inr ⟨session, byteAt frame 10, slice frame 13 48, hsession, ?_, ?_, ?_, ?_, ?_⟩
  · rw [htotal] at hindex
    exact UInt8.not_le.mp hindex
  · rw [length_slice, hframe]
    rfl
  · exact
      { header := ⟨header, hheader, htype, hflags.1, rfl⟩
        shape := ⟨hframe, htotal, UInt8.toNat_inj.mp hlength⟩
        index := rfl
        payload := rfl
        tag := not_not.mp htag }
  · intro hreceived
    by_contra hne
    exact hconflict ⟨hreceived, hne⟩
  · rw [encodeAck_eq, hlength]
    rfl

/-- An authentic fragment that agrees with what is stored is acknowledged. -/
theorem handleFragment_authentic {peer : Peer} {session : Session} {index : UInt8}
    {chunk frame : Bytes} {header : Header} (hheader : decodeHeader frame = .ok header)
    (hsession : peer.sessions header.sessionId = some session) (hindex : index < 16)
    (hfragment : AuthenticFragment sha256 session.sessionAuthKey header.sessionId index.toNat chunk
      frame)
    (hreplay : session.received index.toNat = true →
      slice session.ciphertext.val (index.toNat * 48) 48 = chunk) :
    handleFragment sha256 peer frame header
      = (.ok (ackFrame sha256 session.sessionAuthKey session.sessionId index),
        peer.setSession header.sessionId (session.store index chunk)) := by
  obtain ⟨header', hheader', -, hflags, -⟩ := hfragment.header
  obtain rfl := Except.ok.inj (hheader.symm.trans hheader')
  obtain ⟨hlength, htotal, hpayload⟩ := hfragment.shape
  have h48 : (48 : UInt8).toNat = 48 := rfl
  have hbyte : byteAt frame 10 = index := UInt8.toNat_inj.mp hfragment.index
  have hnotge : ¬ index ≥ 16 := UInt8.not_le.mpr hindex
  have hconflict : ¬ (session.received index.toNat = true
      ∧ slice session.ciphertext.val (index.toNat * 48) 48 ≠ chunk) :=
    fun h => h.2 (hreplay h.1)
  have hcore : 13 + 48 = 61 := rfl
  simp only [handleFragment, hsession, hflags, hlength, hbyte, htotal, hpayload, h48, hcore,
    authTag_eq, hfragment.payload]
  rw [if_neg (by simp), if_neg (by simp [hnotge]), if_neg (not_not.mpr hfragment.tag),
    if_neg hconflict, encodeAck_eq]
  rfl

/-! ## Finished -/

variable (decapsulate : Block 768 → Block 32)

/-- The keys that the ciphertext and the transcript of a session give. -/
def Session.Derives (session : Session) (keys : SessionKeys) : Prop :=
  deriveSessionKeys sha256 session.device.psk (decapsulate session.ciphertext)
    (sessionTranscript sha256 session) = .ok keys

/-- A Device Finished frame of the session whose tag verifies. -/
structure VerifiedFinished (keys : SessionKeys) (sessionId : UInt32) (transcriptHash : Block 32)
    (frame : Bytes) : Prop where
  header : ∃ header, decodeHeader frame = .ok header ∧ header.type = frameDeviceFinished ∧
    header.flags = 0 ∧ header.payloadLength = 16 ∧ header.sessionId = sessionId
  length : frame.length = 26
  tag : (C0PQLink.finishedTag sha256 keys.deviceFinishedKey frameDeviceFinished sessionId
    transcriptHash).val = frame.drop 10

def serverFinished (keys : SessionKeys) (sessionId : UInt32) (transcriptHash : Block 32) : Bytes :=
  headerBytes frameServerFinished 0 16 sessionId
    ++ (C0PQLink.finishedTag sha256 keys.serverFinishedKey frameServerFinished sessionId
      transcriptHash).val

/-- The session after a failed Finished. -/
def Session.unfinished (session : Session) : Session :=
  { session with keys := none, transcriptHash := some (sessionTranscript sha256 session) }

/-- The session after its first verified Finished. -/
def Session.finish (session : Session) (keys : SessionKeys) : Session :=
  { session with
    keys := some keys
    transcriptHash := some (sessionTranscript sha256 session)
    established := true
    serverFinishedFrame := some
      (serverFinished sha256 keys session.sessionId (sessionTranscript sha256 session)) }

/-- A Finished is refused, fails the check of its tag, repeats the one that was accepted, or
establishes the session. -/
theorem finishSession_cases (peer : Peer) {frame : Bytes} {header : Header}
    (hheader : decodeHeader frame = .ok header) (htype : header.type = frameDeviceFinished)
    (hid : ∀ session, peer.sessions header.sessionId = some session →
      session.sessionId = header.sessionId) :
    (∃ error, finishSession sha256 decapsulate peer frame header = (.error error, peer)) ∨
      ∃ session, peer.sessions header.sessionId = some session ∧
        ((session.serverFinishedFrame = none ∧
            ∃ error, finishSession sha256 decapsulate peer frame header
              = (.error error, peer.setSession header.sessionId (session.unfinished sha256))) ∨
          (∃ response keys transcriptHash, session.serverFinishedFrame = some response ∧
            session.keys = some keys ∧ session.transcriptHash = some transcriptHash ∧
            VerifiedFinished sha256 keys header.sessionId transcriptHash frame ∧
            finishSession sha256 decapsulate peer frame header = (.ok response, peer)) ∨
          ∃ keys, session.serverFinishedFrame = none ∧ (∀ i < 16, session.received i = true) ∧
            session.Derives sha256 decapsulate keys ∧
            VerifiedFinished sha256 keys header.sessionId (sessionTranscript sha256 session)
              frame ∧
            finishSession sha256 decapsulate peer frame header
              = (.ok (serverFinished sha256 keys header.sessionId
                  (sessionTranscript sha256 session)),
                peer.setSession header.sessionId (session.finish sha256 keys))) := by
  unfold finishSession
  cases hsession : peer.sessions header.sessionId with
  | none => exact .inl ⟨_, rfl⟩
  | some session =>
    have hsessionId := hid session hsession
    simp only [hsessionId, finishedTag_eq_client]
    split
    · exact .inl ⟨_, rfl⟩
    rename_i hshape
    simp only [not_or, not_not] at hshape
    obtain ⟨hflags, hpayload, hlength⟩ := hshape
    have hverified {keys : SessionKeys} {transcriptHash : Block 32}
        (htag : ¬ (C0PQLink.finishedTag sha256 keys.deviceFinishedKey frameDeviceFinished
          header.sessionId transcriptHash).val ≠ frame.drop 10) :
        VerifiedFinished sha256 keys header.sessionId transcriptHash frame :=
      ⟨⟨header, hheader, htype, hflags, hpayload, rfl⟩, hlength, not_not.mp htag⟩
    cases hfinished : session.serverFinishedFrame with
    | some response =>
      simp only
      split
      · rename_i keys transcriptHash hkeys htranscript
        split
        · exact .inl ⟨_, rfl⟩
        · rename_i htag
          exact .inr ⟨session, rfl, .inr (.inl ⟨response, keys, transcriptHash, hfinished, hkeys,
            htranscript, hverified htag, rfl⟩)⟩
      · exact .inl ⟨_, rfl⟩
    | none =>
      obtain ⟨keys, hkeys, -⟩ := deriveSessionKeys_eq_client sha256 session.device.psk
        (decapsulate session.ciphertext) (sessionTranscript sha256 session)
      simp only
      split
      · exact .inl ⟨_, rfl⟩
      rename_i hreceived
      simp only [hkeys]
      split
      · refine .inr ⟨session, rfl, .inl ⟨hfinished, .deviceFinishedFailed, ?_⟩⟩
        simp only [Session.unfinished, hsessionId, hfinished]
      · rename_i htag
        refine .inr ⟨session, rfl, .inr (.inr ⟨keys, hfinished, not_not.mp hreceived, hkeys,
          hverified htag, ?_⟩)⟩
        simp only [encodeHeader_of_le frameServerFinished 0 header.sessionId
          (by decide : 16 ≤ 255), except_ok_bind, except_pure, Session.finish, hsessionId]
        rfl

/-- A Finished of an established session gets the response of the first one. -/
theorem finishSession_repeated {peer : Peer} {session : Session} {keys : SessionKeys}
    {transcriptHash : Block 32} {response frame : Bytes} {header : Header}
    (hheader : decodeHeader frame = .ok header)
    (hsession : peer.sessions header.sessionId = some session)
    (hid : session.sessionId = header.sessionId)
    (hresponse : session.serverFinishedFrame = some response) (hkeys : session.keys = some keys)
    (htranscript : session.transcriptHash = some transcriptHash)
    (hverified : VerifiedFinished sha256 keys header.sessionId transcriptHash frame) :
    finishSession sha256 decapsulate peer frame header = (.ok response, peer) := by
  obtain ⟨header', hheader', -, hflags, hpayload, -⟩ := hverified.header
  obtain rfl := Except.ok.inj (hheader.symm.trans hheader')
  simp only [finishSession, hsession, hflags, hpayload, hverified.length, hresponse, hkeys,
    htranscript, hid, finishedTag_eq_client]
  rw [if_neg (by simp), if_neg (not_not.mpr hverified.tag)]

/-! ## Records -/

/-- Why a record that was opened gets no response: the application throws, or its message
cannot be sealed. -/
def AnswerFails (answer : Except Unit (Option Bytes)) (sendSequence : Nat) : Prop :=
  answer = .error () ∨
    ∃ message, answer = .ok (some message) ∧
      (recordPlaintextMax < message.length ∨ 2 ^ 64 ≤ sendSequence)

theorem sealRecord_failed {session : Session} {keys : SessionKeys} {message : Bytes}
    (hkeys : session.keys = some keys)
    (h : recordPlaintextMax < message.length ∨ 2 ^ 64 ≤ session.sendSequence) :
    ∃ error, sealRecord sha256 session message = (.error error, session) := by
  by_cases hlength : message.length > 48
  · exact ⟨_, by rw [sealRecord, if_pos hlength]⟩
  · have hsequence : ¬ session.sendSequence < 2 ^ 64 := by
      rcases h with h | h
      · exact absurd h hlength
      · exact Nat.not_lt.mpr h
    have hpayload : 8 + message.length + 16 ≤ 255 := by omega
    have hu64 : u64 session.sendSequence = .error .valueOutOfRange := by
      rw [u64, if_neg hsequence]
    refine ⟨.valueOutOfRange, ?_⟩
    simp only [sealRecord, if_neg hlength, hkeys,
      encodeHeader_of_le frameData 1 session.sessionId hpayload, hu64, except_ok_bind,
      except_error_bind]

theorem openRecord_unkeyed {session : Session} (hkeys : session.keys = none) (frame : Bytes)
    (header : Header) :
    ∃ error, openRecord sha256 session frame header = (.error error, session) := by
  unfold openRecord
  split
  · exact ⟨_, rfl⟩
  simp only
  split
  · exact ⟨_, rfl⟩
  split
  · exact ⟨_, rfl⟩
  · rw [hkeys]
    exact ⟨_, rfl⟩

theorem openRecord_established {session opened : Session} {frame plaintext : Bytes}
    {header : Header} (h : openRecord sha256 session frame header = (.ok plaintext, opened)) :
    session.established = true := by
  by_contra hne
  rw [openRecord, if_pos (.inl hne)] at h
  cases h

/-- A data frame is answered from the cache or refused; or it is opened, and then it is
answered, or its answer fails after the session has advanced. -/
theorem handleRecord_outcomes (application : Application) (session : Session) {frame : Bytes}
    {header : Header} (hheader : decodeHeader frame = .ok header) :
    (session.lastClientFrame = some frame ∧
        handleRecord sha256 application session frame header
          = ⟨.ok session.lastResponseFrame, session, none⟩) ∨
      (∃ error, handleRecord sha256 application session frame header
        = ⟨.error error, session, none⟩) ∨
      ∃ keys plaintext, session.keys = some keys ∧ session.established = true ∧
        session.lastClientFrame ≠ some frame ∧
        openRecord sha256 session frame header
          = (.ok plaintext, session.afterOpen sha256 keys) ∧
        ((AnswerFails (application plaintext) session.sendSequence ∧
            ∃ error, handleRecord sha256 application session frame header
              = ⟨.error error, session.afterOpen sha256 keys, some plaintext⟩) ∨
          ∃ answer, ¬ AnswerFails (application plaintext) session.sendSequence ∧
            let answered := (session.afterOpen sha256 keys).answer sha256
              (openedKeys sha256 session.device.mode keys) answer
            handleRecord sha256 application session frame header
              = ⟨.ok answered.1, answered.2.remember frame answered.1, some plaintext⟩) := by
  by_cases hcached : session.lastClientFrame = some frame
  · exact .inl ⟨hcached, by rw [handleRecord, if_pos hcached]⟩
  cases hkeys : session.keys with
  | none =>
    obtain ⟨error, hopen⟩ := openRecord_unkeyed sha256 hkeys frame header
    exact .inr (.inl ⟨error, by rw [handleRecord, if_neg hcached, hopen]⟩)
  | some keys =>
    rcases openRecord_cases sha256 session hkeys hheader with
      ⟨error, hopen⟩ | ⟨plaintext, -, hopen⟩
    · exact .inr (.inl ⟨error, by rw [handleRecord, if_neg hcached, hopen]⟩)
    refine .inr (.inr ⟨keys, plaintext, rfl, openRecord_established sha256 hopen, hcached, hopen,
      ?_⟩)
    rw [handleRecord, if_neg hcached, hopen]
    simp only
    cases hanswer : application plaintext with
    | error failure => exact .inl ⟨.inl rfl, _, rfl⟩
    | ok answer =>
      cases answer with
      | none =>
        refine .inr ⟨none, ?_, rfl⟩
        rintro (h | ⟨message, h, -⟩)
        · cases h
        · cases h
      | some message =>
        by_cases hfails : recordPlaintextMax < message.length ∨ 2 ^ 64 ≤ session.sendSequence
        · obtain ⟨error, hseal⟩ := sealRecord_failed sha256
            (show (session.afterOpen sha256 keys).keys = _ from rfl) hfails
          refine .inl ⟨.inr ⟨message, rfl, hfails⟩, error, ?_⟩
          simp only [hseal]
        · rw [not_or, Nat.not_lt, Nat.not_le] at hfails
          have hseal := sealRecord_eq sha256 hfails.1
            (show (session.afterOpen sha256 keys).keys = _ from rfl) hfails.2
          refine .inr ⟨some message, ?_, ?_⟩
          · rintro (h | ⟨message', h, h'⟩)
            · cases h
            · cases h
              omega
          · simp only [hseal]
            rfl

end C0PQLink.ReferencePeer
