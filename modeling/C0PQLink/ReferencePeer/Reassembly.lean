import C0PQLink.ReferencePeer.Handlers

/-!
# Reassembly at the peer

A peer that starts without sessions and is given any frames, in any order and any number of
times, with any answers of its random source and of its application.

* `SessionInvariant`: what is true of every session of such a peer.
* `Session.Grows`: what no later frame undoes.
* `reassembly_safe`: the bytes of a received fragment never change, keys stand for the whole
  ciphertext, and a frame of the handshake that was accepted once gets the same response
  again.
-/

namespace C0PQLink.ReferencePeer

open Foundation

variable (sha256 : Bytes → Block 32) (decapsulate : Block 768 → Block 32)

/-! ## Runs -/

/-- A frame, with what the random source and the application would answer. -/
structure Input where
  application : Application
  random : Bytes
  frame : Bytes

def respond (peer : Peer) (input : Input) : Except PeerError (Option Bytes) :=
  (handleFrame sha256 decapsulate input.application peer input.random input.frame).1

def afterFrame (peer : Peer) (input : Input) : Peer :=
  (handleFrame sha256 decapsulate input.application peer input.random input.frame).2.1

def afterFrames (peer : Peer) (inputs : List Input) : Peer :=
  inputs.foldl (afterFrame sha256 decapsulate) peer

/-- A peer as its constructor leaves it. -/
def startPeer (epoch : Nat) (keyId : Block 16) (devices : Block 8 → Option DeviceEntry) : Peer where
  epoch := epoch
  keyId := keyId
  devices := devices
  sessions := fun _ => none

/-- The handler that a frame goes to, if any. -/
theorem handleFrame_cases (peer : Peer) (input : Input) :
    (∃ error, respond sha256 decapsulate peer input = .error error ∧
        afterFrame sha256 decapsulate peer input = peer) ∨
      ∃ header, decodeHeader input.frame = .ok header ∧
        ((header.type = frameHello ∧
            respond sha256 decapsulate peer input
              = (handleHello sha256 peer input.random input.frame).1.map some ∧
            afterFrame sha256 decapsulate peer input
              = (handleHello sha256 peer input.random input.frame).2) ∨
          (header.type = frameCiphertextFragment ∧
            respond sha256 decapsulate peer input
              = (handleFragment sha256 peer input.frame header).1.map some ∧
            afterFrame sha256 decapsulate peer input
              = (handleFragment sha256 peer input.frame header).2) ∨
          (header.type = frameDeviceFinished ∧
            respond sha256 decapsulate peer input
              = (finishSession sha256 decapsulate peer input.frame header).1.map some ∧
            afterFrame sha256 decapsulate peer input
              = (finishSession sha256 decapsulate peer input.frame header).2) ∨
          (header.type = frameData ∧
            respond sha256 decapsulate peer input
              = (handleData sha256 input.application peer input.frame header).1 ∧
            afterFrame sha256 decapsulate peer input
              = (handleData sha256 input.application peer input.frame header).2.1)) := by
  unfold respond afterFrame handleFrame
  cases hheader : decodeHeader input.frame with
  | error error => exact .inl ⟨error, rfl, rfl⟩
  | ok header =>
    simp only
    split
    · exact .inr ⟨header, rfl, .inl ⟨‹_›, rfl, rfl⟩⟩
    split
    · exact .inr ⟨header, rfl, .inr (.inl ⟨‹_›, rfl, rfl⟩)⟩
    split
    · exact .inr ⟨header, rfl, .inr (.inr (.inl ⟨‹_›, rfl, rfl⟩))⟩
    split
    · exact .inr ⟨header, rfl, .inr (.inr (.inr ⟨‹_›, rfl, rfl⟩))⟩
    · exact .inl ⟨_, rfl, rfl⟩

/-- What a frame can lead to: the response, and the peer after it. -/
inductive FrameOutcome (peer : Peer) (input : Input) :
    Except PeerError (Option Bytes) → Peer → Prop where
  | refused (error : PeerError) : FrameOutcome peer input (.error error) peer
  | helloKnown {parsed : ParsedHello} {session : Session}
      (hparsed : parseHello sha256 input.frame (lookupDevice peer) = .ok parsed)
      (hsession : peer.sessions parsed.header.sessionId = some session)
      (hcore : session.helloCore = slice input.frame 0 44) :
      FrameOutcome peer input (.ok (some session.challengeFrame)) peer
  | helloNew {parsed : ParsedHello} {challengeFrame : Bytes} {sessionAuthKey : Block 32}
      (hparsed : parseHello sha256 input.frame (lookupDevice peer) = .ok parsed)
      (hnone : peer.sessions parsed.header.sessionId = none) :
      FrameOutcome peer input (.ok (some challengeFrame))
        (peer.setSession parsed.header.sessionId
          (newSession parsed input.frame challengeFrame sessionAuthKey))
  | fragment {sessionId : UInt32} {session : Session} {index : UInt8} {chunk : Bytes}
      (hsession : peer.sessions sessionId = some session) (hindex : index < 16)
      (hlength : chunk.length = 48)
      (hfragment : AuthenticFragment sha256 session.sessionAuthKey sessionId index.toNat chunk
        input.frame)
      (hreplay : session.received index.toNat = true →
        slice session.ciphertext.val (index.toNat * 48) 48 = chunk) :
      FrameOutcome peer input
        (.ok (some (ackFrame sha256 session.sessionAuthKey session.sessionId index)))
        (peer.setSession sessionId (session.store index chunk))
  | failedFinish {sessionId : UInt32} {session : Session}
      (hsession : peer.sessions sessionId = some session)
      (hnone : session.serverFinishedFrame = none) (error : PeerError) :
      FrameOutcome peer input (.error error)
        (peer.setSession sessionId (session.unfinished sha256))
  | finishedAgain {sessionId : UInt32} {session : Session} {response : Bytes}
      {keys : SessionKeys} {transcriptHash : Block 32}
      (hsession : peer.sessions sessionId = some session)
      (hresponse : session.serverFinishedFrame = some response)
      (hkeys : session.keys = some keys) (htranscript : session.transcriptHash = some transcriptHash)
      (hverified : VerifiedFinished sha256 keys sessionId transcriptHash input.frame) :
      FrameOutcome peer input (.ok (some response)) peer
  | finish {sessionId : UInt32} {session : Session} {keys : SessionKeys}
      (hsession : peer.sessions sessionId = some session)
      (hnone : session.serverFinishedFrame = none)
      (hreceived : ∀ i < 16, session.received i = true)
      (hderives : session.Derives sha256 decapsulate keys)
      (hverified : VerifiedFinished sha256 keys sessionId (sessionTranscript sha256 session)
        input.frame) :
      FrameOutcome peer input
        (.ok (some (serverFinished sha256 keys sessionId (sessionTranscript sha256 session))))
        (peer.setSession sessionId (session.finish sha256 keys))
  | dataAgain {header : Header} {session : Session}
      (hheader : decodeHeader input.frame = .ok header) (htype : header.type = frameData)
      (hsession : peer.sessions header.sessionId = some session)
      (hcached : session.lastClientFrame = some input.frame) :
      FrameOutcome peer input (.ok session.lastResponseFrame) peer
  | failedAnswer {header : Header} {session : Session} {keys : SessionKeys} {plaintext : Bytes}
      (hheader : decodeHeader input.frame = .ok header) (htype : header.type = frameData)
      (hsession : peer.sessions header.sessionId = some session)
      (hkeys : session.keys = some keys) (hestablished : session.established = true)
      (hfresh : session.lastClientFrame ≠ some input.frame)
      (hopen : openRecord sha256 session input.frame header
        = (.ok plaintext, session.afterOpen sha256 keys))
      (hfails : AnswerFails (input.application plaintext) session.sendSequence)
      (error : PeerError) :
      FrameOutcome peer input (.error error)
        (peer.setSession header.sessionId (session.afterOpen sha256 keys))
  | answered {header : Header} {session : Session} {keys : SessionKeys} {plaintext : Bytes}
      (hheader : decodeHeader input.frame = .ok header) (htype : header.type = frameData)
      (hsession : peer.sessions header.sessionId = some session)
      (hkeys : session.keys = some keys) (hestablished : session.established = true)
      (hfresh : session.lastClientFrame ≠ some input.frame)
      (hopen : openRecord sha256 session input.frame header
        = (.ok plaintext, session.afterOpen sha256 keys))
      (hfits : ¬ AnswerFails (input.application plaintext) session.sendSequence)
      {answer response : Option Bytes} {answeredSession : Session}
      (hanswer : (session.afterOpen sha256 keys).answer sha256
        (openedKeys sha256 session.device.mode keys) answer = (response, answeredSession)) :
      FrameOutcome peer input (.ok response)
        (peer.setSession header.sessionId (answeredSession.remember input.frame response))

/-- Every session stands under its own identifier. -/
def Peer.Keyed (peer : Peer) : Prop :=
  ∀ sessionId session, peer.sessions sessionId = some session → session.sessionId = sessionId

theorem frame_outcome {peer : Peer} (hkeyed : peer.Keyed) (input : Input) :
    FrameOutcome sha256 decapsulate peer input (respond sha256 decapsulate peer input)
      (afterFrame sha256 decapsulate peer input) := by
  rcases handleFrame_cases sha256 decapsulate peer input with
    ⟨error, hrespond, hafter⟩ | ⟨header, hheader, hhandler⟩
  · rw [hrespond, hafter]
    exact .refused error
  rcases hhandler with ⟨-, hrespond, hafter⟩ | ⟨htype, hrespond, hafter⟩ |
    ⟨htype, hrespond, hafter⟩ | ⟨htype, hrespond, hafter⟩ <;> rw [hrespond, hafter]
  · rcases handleHello_cases sha256 peer input.random input.frame with
      ⟨error, hresult⟩ | ⟨parsed, hparsed, ⟨session, hsession, hcore, hresult⟩ |
        ⟨challenge, key, hnone, hresult⟩⟩ <;> rw [hresult]
    · exact .refused error
    · exact .helloKnown hparsed hsession hcore
    · exact .helloNew hparsed hnone
  · rcases handleFragment_cases sha256 peer hheader htype with
      ⟨error, hresult⟩ | ⟨session, index, chunk, hsession, hindex, hlength, hfragment, hreplay,
        hresult⟩ <;> rw [hresult]
    · exact .refused error
    · exact .fragment hsession hindex hlength hfragment hreplay
  · rcases finishSession_cases sha256 decapsulate peer hheader htype
        (fun session hsession => hkeyed _ session hsession) with
      ⟨error, hresult⟩ | ⟨session, hsession, ⟨hnone, error, hresult⟩ |
        ⟨response, keys, transcriptHash, hfinished, hkeys, htranscript, hverified, hresult⟩ |
        ⟨keys, hnone, hreceived, hderives, hverified, hresult⟩⟩ <;> rw [hresult]
    · exact .refused error
    · exact .failedFinish hsession hnone error
    · exact .finishedAgain hsession hfinished hkeys htranscript hverified
    · exact .finish hsession hnone hreceived hderives hverified
  · unfold handleData
    split
    · exact .refused .unknownDataSession
    rename_i session hsession
    have hself := Peer.setSession_self hsession
    rcases handleRecord_outcomes sha256 input.application session hheader with
      ⟨hcached, hresult⟩ | ⟨error, hresult⟩ |
        ⟨keys, plaintext, hkeys, hestablished, hfresh, hopen, hanswer⟩
    · simp only [hresult, hself]
      exact .dataAgain hheader htype hsession hcached
    · simp only [hresult, hself]
      exact .refused error
    · rcases hanswer with ⟨hfails, error, hresult⟩ | ⟨answer, hfits, hresult⟩
      · simp only [hresult]
        exact .failedAnswer hheader htype hsession hkeys hestablished hfresh hopen hfails error
      · simp only [hresult]
        exact .answered hheader htype hsession hkeys hestablished hfresh hopen hfits rfl

/-! ## The keys after some records -/

/-- The keys after `received` records were opened and `sent` records sealed. -/
def advancedKeys (mode : Int) (keys : SessionKeys) (received sent : Nat) : SessionKeys :=
  { keys with
    clientChainKey := (nextChainKey sha256 mode)^[received] keys.clientChainKey
    serverChainKey := (nextChainKey sha256 mode)^[sent] keys.serverChainKey }

theorem openedKeys_advanced (mode : Int) (keys : SessionKeys) (received sent : Nat) :
    openedKeys sha256 mode (advancedKeys sha256 mode keys received sent)
      = advancedKeys sha256 mode keys (received + 1) sent := by
  simp only [openedKeys, advancedKeys, Function.iterate_succ_apply']

theorem sealedKeys_advanced (mode : Int) (keys : SessionKeys) (received sent : Nat) :
    sealedKeys sha256 mode (advancedKeys sha256 mode keys received sent)
      = advancedKeys sha256 mode keys received (sent + 1) := by
  simp only [sealedKeys, advancedKeys, Function.iterate_succ_apply']

/-! ## The invariant of a session -/

/-- What an accepted Finished leaves in a session. -/
structure FinishedSession (inputs : List Input) (sessionId : UInt32) (session : Session)
    (keys : SessionKeys) (response : Bytes) : Prop where
  received : ∀ i < 16, session.received i = true
  derives : session.Derives sha256 decapsulate keys
  keys_eq : session.keys = some (advancedKeys sha256 session.device.mode keys
    session.receiveSequence session.sendSequence)
  transcriptHash_eq : session.transcriptHash = some (sessionTranscript sha256 session)
  response_eq : response
    = serverFinished sha256 keys sessionId (sessionTranscript sha256 session)
  verified : ∃ input ∈ inputs,
    VerifiedFinished sha256 keys sessionId (sessionTranscript sha256 session) input.frame

/-- What is true of the session `sessionId` after the frames `inputs`. -/
structure SessionInvariant (inputs : List Input) (sessionId : UInt32) (session : Session) :
    Prop where
  sessionId_eq : session.sessionId = sessionId
  fragments : ∀ i < 16, session.received i = true → ∃ input ∈ inputs,
    AuthenticFragment sha256 session.sessionAuthKey sessionId i
      (slice session.ciphertext.val (i * 48) 48) input.frame
  unfinished : session.serverFinishedFrame = none → session.keys = none ∧
    session.established = false ∧ session.receiveSequence = 0 ∧ session.sendSequence = 0
  finished : ∀ response, session.serverFinishedFrame = some response →
    ∃ keys, FinishedSession sha256 decapsulate inputs sessionId session keys response

def PeerInvariant (inputs : List Input) (peer : Peer) : Prop :=
  ∀ sessionId session, peer.sessions sessionId = some session →
    SessionInvariant sha256 decapsulate inputs sessionId session

variable {sha256 decapsulate}

theorem PeerInvariant.set {inputs : List Input} {peer : Peer} {sessionId : UInt32}
    {session : Session} (h : PeerInvariant sha256 decapsulate inputs peer)
    (hsession : SessionInvariant sha256 decapsulate inputs sessionId session) :
    PeerInvariant sha256 decapsulate inputs (peer.setSession sessionId session) := by
  intro other session' hother
  by_cases heq : other = sessionId
  · subst heq
    rw [Peer.setSession_same] at hother
    obtain rfl := Option.some.inj hother
    exact hsession
  · rw [Peer.setSession_other peer session heq] at hother
    exact h other session' hother

theorem SessionInvariant.mono {inputs inputs' : List Input} {sessionId : UInt32}
    {session : Session} (h : SessionInvariant sha256 decapsulate inputs sessionId session)
    (hsubset : inputs ⊆ inputs') :
    SessionInvariant sha256 decapsulate inputs' sessionId session := by
  refine ⟨h.sessionId_eq, fun i hi hreceived => ?_, h.unfinished, fun response hresponse => ?_⟩
  · obtain ⟨input, hmem, hfragment⟩ := h.fragments i hi hreceived
    exact ⟨input, hsubset hmem, hfragment⟩
  · obtain ⟨keys, hfinished⟩ := h.finished response hresponse
    obtain ⟨input, hmem, hverified⟩ := hfinished.verified
    exact ⟨keys, { hfinished with verified := ⟨input, hsubset hmem, hverified⟩ }⟩

theorem SessionInvariant.new (inputs : List Input) (parsed : ParsedHello)
    (frame challengeFrame : Bytes) (sessionAuthKey : Block 32) :
    SessionInvariant sha256 decapsulate inputs parsed.header.sessionId
      (newSession parsed frame challengeFrame sessionAuthKey) where
  sessionId_eq := rfl
  fragments := fun _ _ => nofun
  unfinished := fun _ => ⟨rfl, rfl, rfl, rfl⟩
  finished := nofun

/-- Storing a chunk that is already there. -/
theorem copyChunk_same {ciphertext : Block 768} {chunk : Bytes} {offset : Nat}
    (hlength : chunk.length = 48) (hfit : offset + 48 ≤ 768)
    (h : slice ciphertext.val offset 48 = chunk) :
    copyChunk ciphertext chunk offset = ciphertext := by
  apply Block.ext
  rw [copyChunk_val (by omega), hlength, ← h, slice, List.append_assoc, ← List.drop_drop,
    List.take_append_drop, List.take_append_drop]

section

variable {inputs : List Input} {sessionId : UInt32} {session : Session}

theorem SessionInvariant.store
    (h : SessionInvariant sha256 decapsulate inputs sessionId session) {index : UInt8}
    {chunk : Bytes} {input : Input} (hinput : input ∈ inputs) (hindex : index < 16)
    (hlength : chunk.length = 48)
    (hfragment : AuthenticFragment sha256 session.sessionAuthKey sessionId index.toNat chunk
      input.frame)
    (hreplay : session.received index.toNat = true →
      slice session.ciphertext.val (index.toNat * 48) 48 = chunk) :
    SessionInvariant sha256 decapsulate inputs sessionId (session.store index chunk) := by
  have hlt : index.toNat < 16 := UInt8.lt_iff_toNat_lt.mp hindex
  have hfit : index.toNat * 48 + chunk.length ≤ 768 := by omega
  refine ⟨h.sessionId_eq, fun i hi hreceived => ?_, h.unfinished, fun response hresponse => ?_⟩
  · by_cases heq : i = index.toNat
    · subst heq
      have hsame := @slice_copyChunk_same session.ciphertext _ _ hfit
      rw [hlength] at hsame
      refine ⟨input, hinput, ?_⟩
      rw [Session.store_ciphertext, hsame]
      exact hfragment
    · rw [Session.store_received, Function.update_of_ne heq] at hreceived
      obtain ⟨input', hmem, hold⟩ := h.fragments i hi hreceived
      refine ⟨input', hmem, ?_⟩
      rw [Session.store_ciphertext, slice_copyChunk_other hfit (by omega)]
      exact hold
  · -- a complete ciphertext does not change any more
    obtain ⟨keys, hfinished⟩ := h.finished response hresponse
    have hreceived := hfinished.received index.toNat hlt
    have hsame : session.store index chunk = session := by
      rw [Session.store, copyChunk_same hlength (by omega) (hreplay hreceived),
        ← hreceived, Function.update_eq_self]
    rw [hsame]
    exact ⟨keys, hfinished⟩

theorem SessionInvariant.failedFinish
    (h : SessionInvariant sha256 decapsulate inputs sessionId session)
    (hnone : session.serverFinishedFrame = none) :
    SessionInvariant sha256 decapsulate inputs sessionId (session.unfinished sha256) where
  sessionId_eq := h.sessionId_eq
  fragments := h.fragments
  unfinished := fun _ => ⟨rfl, (h.unfinished hnone).2⟩
  finished := fun response hresponse => by
    rw [Session.unfinished, hnone] at hresponse
    cases hresponse

theorem SessionInvariant.finish
    (h : SessionInvariant sha256 decapsulate inputs sessionId session) {keys : SessionKeys}
    {input : Input} (hinput : input ∈ inputs) (hnone : session.serverFinishedFrame = none)
    (hreceived : ∀ i < 16, session.received i = true)
    (hderives : session.Derives sha256 decapsulate keys)
    (hverified : VerifiedFinished sha256 keys sessionId (sessionTranscript sha256 session)
      input.frame) :
    SessionInvariant sha256 decapsulate inputs sessionId (session.finish sha256 keys) := by
  obtain ⟨-, -, hreceive, hsend⟩ := h.unfinished hnone
  refine ⟨h.sessionId_eq, h.fragments, nofun, fun response hresponse => ⟨keys, ?_⟩⟩
  have hkeys : (session.finish sha256 keys).keys
      = some (advancedKeys sha256 session.device.mode keys (session.finish sha256 keys).receiveSequence
        (session.finish sha256 keys).sendSequence) := by
    change some keys = some (advancedKeys sha256 _ keys session.receiveSequence session.sendSequence)
    rw [hreceive, hsend]
    rfl
  have hresponse : serverFinished sha256 keys session.sessionId _ = response :=
    Option.some.inj hresponse
  rw [h.sessionId_eq] at hresponse
  exact
    { received := hreceived
      derives := hderives
      keys_eq := hkeys
      transcriptHash_eq := rfl
      response_eq := hresponse.symm
      verified := ⟨input, hinput, hverified⟩ }

/-- A change of the record state that keeps step with the keys. -/
theorem SessionInvariant.record
    (h : SessionInvariant sha256 decapsulate inputs sessionId session) {session' : Session}
    (hsame : session' = { session with
      keys := session'.keys
      receiveSequence := session'.receiveSequence
      sendSequence := session'.sendSequence
      lastClientFrame := session'.lastClientFrame
      lastResponseFrame := session'.lastResponseFrame })
    (hestablished : session.established = true)
    (hkeys : ∀ keys, session.keys = some (advancedKeys sha256 session.device.mode keys
        session.receiveSequence session.sendSequence) →
      session'.keys = some (advancedKeys sha256 session.device.mode keys
        session'.receiveSequence session'.sendSequence)) :
    SessionInvariant sha256 decapsulate inputs sessionId session' := by
  rw [hsame]
  refine ⟨h.sessionId_eq, h.fragments, fun hnone => ?_, fun response hresponse => ?_⟩
  · have := (h.unfinished hnone).2.1
    rw [hestablished] at this
    cases this
  · obtain ⟨keys, hfinished⟩ := h.finished response hresponse
    exact ⟨keys, { hfinished with keys_eq := hkeys keys hfinished.keys_eq }⟩

end

/-! ## One frame -/

theorem PeerInvariant.keyed {inputs : List Input} {peer : Peer}
    (h : PeerInvariant sha256 decapsulate inputs peer) : peer.Keyed :=
  fun sessionId session hsession => (h sessionId session hsession).sessionId_eq

/-- The keys and the counters of an opened record, before and after its answer. -/
theorem SessionInvariant.opened {inputs : List Input} {sessionId : UInt32} {session : Session}
    (h : SessionInvariant sha256 decapsulate inputs sessionId session) {keys : SessionKeys}
    (hkeys : session.keys = some keys) (hestablished : session.established = true) :
    SessionInvariant sha256 decapsulate inputs sessionId (session.afterOpen sha256 keys) := by
  refine h.record rfl hestablished fun keys' hkeys' => congrArg some ?_
  rw [hkeys] at hkeys'
  rw [Option.some.inj hkeys']
  exact openedKeys_advanced sha256 ..

theorem SessionInvariant.sealed {inputs : List Input} {sessionId : UInt32} {session : Session}
    (h : SessionInvariant sha256 decapsulate inputs sessionId session) {keys : SessionKeys}
    (hkeys : session.keys = some keys) (hestablished : session.established = true) :
    SessionInvariant sha256 decapsulate inputs sessionId (session.afterSeal sha256 keys) := by
  refine h.record rfl hestablished fun keys' hkeys' => congrArg some ?_
  rw [hkeys] at hkeys'
  rw [Option.some.inj hkeys']
  exact sealedKeys_advanced sha256 ..

theorem SessionInvariant.remember {inputs : List Input} {sessionId : UInt32} {session : Session}
    (h : SessionInvariant sha256 decapsulate inputs sessionId session) (frame : Bytes)
    (response : Option Bytes) :
    SessionInvariant sha256 decapsulate inputs sessionId (session.remember frame response) :=
  ⟨h.sessionId_eq, h.fragments, h.unfinished, fun response' hresponse => by
    obtain ⟨keys, hfinished⟩ := h.finished response' hresponse
    exact ⟨keys, { hfinished with }⟩⟩

theorem PeerInvariant.afterFrame {inputs : List Input} {peer : Peer}
    (h : PeerInvariant sha256 decapsulate inputs peer) (input : Input) :
    PeerInvariant sha256 decapsulate (inputs ++ [input])
      (afterFrame sha256 decapsulate peer input) := by
  have hmono : PeerInvariant sha256 decapsulate (inputs ++ [input]) peer :=
    fun sessionId session hsession => (h sessionId session hsession).mono (by simp)
  have hinput : input ∈ inputs ++ [input] := by simp
  have houtcome := frame_outcome sha256 decapsulate h.keyed input
  generalize respond sha256 decapsulate peer input = response,
    ReferencePeer.afterFrame sha256 decapsulate peer input = peer' at houtcome ⊢
  cases houtcome with
  | refused error => exact hmono
  | helloKnown => exact hmono
  | helloNew hparsed hnone => exact hmono.set (SessionInvariant.new _ _ _ _ _)
  | fragment hsession hindex hlength hfragment hreplay =>
    exact hmono.set ((hmono _ _ hsession).store hinput hindex hlength hfragment hreplay)
  | failedFinish hsession hnone => exact hmono.set ((hmono _ _ hsession).failedFinish hnone)
  | finishedAgain => exact hmono
  | finish hsession hnone hreceived hderives hverified =>
    exact hmono.set ((hmono _ _ hsession).finish hinput hnone hreceived hderives hverified)
  | dataAgain => exact hmono
  | failedAnswer hheader htype hsession hkeys hestablished =>
    exact hmono.set ((hmono _ _ hsession).opened hkeys hestablished)
  | @answered _ _ _ _ _ _ hsession hkeys hestablished _ _ _ answer _ _ hanswer =>
    have hopened := (hmono _ _ hsession).opened hkeys hestablished
    cases answer with
    | none =>
      cases hanswer
      exact hmono.set (hopened.remember _ _)
    | some message =>
      cases hanswer
      exact hmono.set ((hopened.sealed rfl hestablished).remember _ _)

theorem startPeer_invariant (epoch : Nat) (keyId : Block 16)
    (devices : Block 8 → Option DeviceEntry) :
    PeerInvariant sha256 decapsulate [] (startPeer epoch keyId devices) := fun _ _ => nofun

theorem PeerInvariant.afterFrames {before : List Input} {peer : Peer}
    (h : PeerInvariant sha256 decapsulate before peer) (inputs : List Input) :
    PeerInvariant sha256 decapsulate (before ++ inputs)
      (afterFrames sha256 decapsulate peer inputs) := by
  induction inputs generalizing before peer with
  | nil => rwa [List.append_nil]
  | cons input inputs ih =>
    have hrest := ih (h.afterFrame input)
    rwa [List.append_assoc] at hrest

/-! ## What no frame undoes -/

/-- The second session is the first one after some frames. -/
structure Session.Grows (session session' : Session) : Prop where
  fixed : session'.sessionId = session.sessionId ∧ session'.device = session.device ∧
    session'.helloCore = session.helloCore ∧ session'.challengeCore = session.challengeCore ∧
    session'.challengeFrame = session.challengeFrame ∧
    session'.sessionAuthKey = session.sessionAuthKey
  received : ∀ i < 16, session.received i = true → session'.received i = true ∧
    slice session'.ciphertext.val (i * 48) 48 = slice session.ciphertext.val (i * 48) 48
  finished : ∀ response, session.serverFinishedFrame = some response →
    session'.serverFinishedFrame = some response ∧
      session'.transcriptHash = session.transcriptHash ∧
      session'.keys.map SessionKeys.deviceFinishedKey
        = session.keys.map SessionKeys.deviceFinishedKey

theorem Session.Grows.refl (session : Session) : session.Grows session :=
  ⟨⟨rfl, rfl, rfl, rfl, rfl, rfl⟩, fun _ _ h => ⟨h, rfl⟩, fun _ h => ⟨h, rfl, rfl⟩⟩

theorem Session.Grows.trans {s s' s'' : Session} (h : s.Grows s') (h' : s'.Grows s'') :
    s.Grows s'' := by
  obtain ⟨h1, h2, h3, h4, h5, h6⟩ := h.fixed
  obtain ⟨h1', h2', h3', h4', h5', h6'⟩ := h'.fixed
  refine ⟨⟨h1'.trans h1, h2'.trans h2, h3'.trans h3, h4'.trans h4, h5'.trans h5, h6'.trans h6⟩,
    fun i hi hreceived => ?_, fun response hresponse => ?_⟩
  · obtain ⟨hmid, hslice⟩ := h.received i hi hreceived
    obtain ⟨hlast, hslice'⟩ := h'.received i hi hmid
    exact ⟨hlast, hslice'.trans hslice⟩
  · obtain ⟨hmid, htranscript, hkey⟩ := h.finished response hresponse
    obtain ⟨hlast, htranscript', hkey'⟩ := h'.finished response hmid
    exact ⟨hlast, htranscript'.trans htranscript, hkey'.trans hkey⟩

/-- Every session of the first peer stands in the second one, grown; the devices are the same. -/
structure Peer.Grows (peer peer' : Peer) : Prop where
  devices : peer'.devices = peer.devices
  sessions : ∀ sessionId session, peer.sessions sessionId = some session →
    ∃ session', peer'.sessions sessionId = some session' ∧ session.Grows session'

theorem Peer.Grows.refl (peer : Peer) : peer.Grows peer :=
  ⟨rfl, fun _ session h => ⟨session, h, .refl session⟩⟩

theorem Peer.Grows.trans {peer peer' peer'' : Peer} (h : peer.Grows peer')
    (h' : peer'.Grows peer'') : peer.Grows peer'' := by
  refine ⟨h'.devices.trans h.devices, fun sessionId session hsession => ?_⟩
  obtain ⟨session', hsession', hgrows⟩ := h.sessions sessionId session hsession
  obtain ⟨session'', hsession'', hgrows'⟩ := h'.sessions sessionId session' hsession'
  exact ⟨session'', hsession'', hgrows.trans hgrows'⟩

theorem Peer.Grows.set {peer : Peer} {sessionId : UInt32} {session' : Session}
    (h : ∀ session, peer.sessions sessionId = some session → session.Grows session') :
    peer.Grows (peer.setSession sessionId session') := by
  refine ⟨rfl, fun other session hsession => ?_⟩
  by_cases heq : other = sessionId
  · subst heq
    exact ⟨session', Peer.setSession_same .., h session hsession⟩
  · rw [Peer.setSession_other peer session' heq]
    exact ⟨session, hsession, .refl session⟩

theorem Session.Grows.store {session : Session} {index : UInt8} {chunk : Bytes}
    (hindex : index < 16) (hlength : chunk.length = 48)
    (hreplay : session.received index.toNat = true →
      slice session.ciphertext.val (index.toNat * 48) 48 = chunk) :
    session.Grows (session.store index chunk) := by
  have hlt : index.toNat < 16 := UInt8.lt_iff_toNat_lt.mp hindex
  have hfit : index.toNat * 48 + chunk.length ≤ 768 := by omega
  refine ⟨⟨rfl, rfl, rfl, rfl, rfl, rfl⟩, fun i hi hreceived => ?_, fun _ h => ⟨h, rfl, rfl⟩⟩
  by_cases heq : i = index.toNat
  · subst heq
    refine ⟨Function.update_self .., ?_⟩
    rw [Session.store_ciphertext, copyChunk_same hlength (by omega) (hreplay hreceived)]
  · refine ⟨?_, slice_copyChunk_other hfit (by omega)⟩
    rw [Session.store_received, Function.update_of_ne heq]
    exact hreceived

/-- A change of the record state. -/
theorem Session.Grows.record {session session' : Session}
    (hsame : session' = { session with
      keys := session'.keys
      receiveSequence := session'.receiveSequence
      sendSequence := session'.sendSequence
      lastClientFrame := session'.lastClientFrame
      lastResponseFrame := session'.lastResponseFrame })
    (hkeys : session'.keys.map SessionKeys.deviceFinishedKey
      = session.keys.map SessionKeys.deviceFinishedKey) : session.Grows session' := by
  rw [hsame]
  exact ⟨⟨rfl, rfl, rfl, rfl, rfl, rfl⟩, fun _ _ h => ⟨h, rfl⟩, fun _ h => ⟨h, rfl, hkeys⟩⟩

theorem Peer.Grows.setSession {peer : Peer} {sessionId : UInt32} {session session' : Session}
    (hsession : peer.sessions sessionId = some session) (h : session.Grows session') :
    peer.Grows (peer.setSession sessionId session') := by
  refine .set fun other hother => ?_
  obtain rfl := Option.some.inj (hsession.symm.trans hother)
  exact h

/-- A session without an accepted Finished may change its keys and its Finished. -/
theorem Session.Grows.finish {session session' : Session}
    (hsame : session' = { session with
      keys := session'.keys
      transcriptHash := session'.transcriptHash
      established := session'.established
      serverFinishedFrame := session'.serverFinishedFrame })
    (hnone : session.serverFinishedFrame = none) : session.Grows session' := by
  rw [hsame]
  refine ⟨⟨rfl, rfl, rfl, rfl, rfl, rfl⟩, fun _ _ h => ⟨h, rfl⟩, fun response hresponse => ?_⟩
  rw [hnone] at hresponse
  cases hresponse

theorem afterFrame_grows {peer : Peer} (hkeyed : peer.Keyed) (input : Input) :
    peer.Grows (ReferencePeer.afterFrame sha256 decapsulate peer input) := by
  have houtcome := frame_outcome sha256 decapsulate hkeyed input
  generalize respond sha256 decapsulate peer input = response,
    ReferencePeer.afterFrame sha256 decapsulate peer input = peer' at houtcome ⊢
  cases houtcome with
  | refused error => exact .refl peer
  | helloKnown => exact .refl peer
  | helloNew hparsed hnone =>
    refine .set fun session hsession => ?_
    rw [hnone] at hsession
    cases hsession
  | fragment hsession hindex hlength hfragment hreplay =>
    exact .setSession hsession (.store hindex hlength hreplay)
  | failedFinish hsession hnone => exact .setSession hsession (.finish rfl hnone)
  | finishedAgain => exact .refl peer
  | finish hsession hnone => exact .setSession hsession (.finish rfl hnone)
  | dataAgain => exact .refl peer
  | failedAnswer hheader htype hsession hkeys =>
    refine .setSession hsession (.record rfl ?_)
    rw [hkeys]
    rfl
  | @answered _ _ _ _ _ _ hsession hkeys _ _ _ _ answer _ _ hanswer =>
    cases answer with
    | none =>
      cases hanswer
      refine .setSession hsession (.record rfl ?_)
      rw [hkeys]
      rfl
    | some message =>
      cases hanswer
      refine .setSession hsession (.record rfl ?_)
      rw [hkeys]
      rfl

theorem afterFrames_grows {before : List Input} {peer : Peer}
    (h : PeerInvariant sha256 decapsulate before peer) (inputs : List Input) :
    peer.Grows (ReferencePeer.afterFrames sha256 decapsulate peer inputs) := by
  induction inputs generalizing before peer with
  | nil => exact .refl peer
  | cons input inputs ih => exact (afterFrame_grows h.keyed input).trans (ih (h.afterFrame input))

/-! ## Fragments that arrive -/

/-- A fragment that was not received before the frame is the one in the frame. -/
theorem afterFrame_received {peer : Peer} (hkeyed : peer.Keyed) {input : Input}
    {sessionId : UInt32} {session' : Session} {i : Nat}
    (hafter : (ReferencePeer.afterFrame sha256 decapsulate peer input).sessions sessionId
      = some session')
    (hi : i < 16) (hreceived : session'.received i = true)
    (hnew : ∀ session, peer.sessions sessionId = some session → session.received i = false) :
    AuthenticFragment sha256 session'.sessionAuthKey sessionId i
      (slice session'.ciphertext.val (i * 48) 48) input.frame := by
  have hold {session : Session} (hsession : peer.sessions sessionId = some session)
      (h : session.received i = true) : False := by
    rw [hnew session hsession] at h
    cases h
  -- a frame that writes a session of which it keeps what was received
  have hset {id : UInt32} {session session'' : Session} (hsession : peer.sessions id = some session)
      (hafter : (peer.setSession id session'').sessions sessionId = some session')
      (hkept : session''.received = session.received) : False := by
    by_cases heq : sessionId = id
    · subst heq
      rw [Peer.setSession_same] at hafter
      obtain rfl := Option.some.inj hafter
      rw [hkept] at hreceived
      exact hold hsession hreceived
    · rw [Peer.setSession_other peer _ heq] at hafter
      exact hold hafter hreceived
  have houtcome := frame_outcome sha256 decapsulate hkeyed input
  generalize respond sha256 decapsulate peer input = response,
    ReferencePeer.afterFrame sha256 decapsulate peer input = peer' at houtcome hafter
  cases houtcome with
  | refused error => exact (hold hafter hreceived).elim
  | helloKnown => exact (hold hafter hreceived).elim
  | @helloNew parsed _ _ hparsed hnone =>
    by_cases heq : sessionId = parsed.header.sessionId
    · subst heq
      rw [Peer.setSession_same] at hafter
      obtain rfl := Option.some.inj hafter
      cases hreceived
    · rw [Peer.setSession_other peer _ heq] at hafter
      exact (hold hafter hreceived).elim
  | @fragment id session index chunk hsession hindex hlength hfragment hreplay =>
    by_cases heq : sessionId = id
    · subst heq
      rw [Peer.setSession_same] at hafter
      obtain rfl := Option.some.inj hafter
      by_cases hsame : i = index.toNat
      · subst hsame
        have hslice := @slice_copyChunk_same session.ciphertext chunk (index.toNat * 48) (by omega)
        rw [hlength] at hslice
        rw [Session.store_ciphertext, hslice]
        exact hfragment
      · rw [Session.store_received, Function.update_of_ne hsame] at hreceived
        exact (hold hsession hreceived).elim
    · rw [Peer.setSession_other peer _ heq] at hafter
      exact (hold hafter hreceived).elim
  | failedFinish hsession => exact (hset hsession hafter rfl).elim
  | finishedAgain => exact (hold hafter hreceived).elim
  | finish hsession => exact (hset hsession hafter rfl).elim
  | dataAgain => exact (hold hafter hreceived).elim
  | failedAnswer _ _ hsession => exact (hset hsession hafter rfl).elim
  | @answered _ _ _ _ _ _ hsession _ _ _ _ _ answer _ _ hanswer =>
    cases answer with
    | none =>
      cases hanswer
      exact (hset hsession hafter rfl).elim
    | some message =>
      cases hanswer
      exact (hset hsession hafter rfl).elim

/-! ## Repeated frames -/

/-- A frame that goes to one of the three handlers of the handshake. -/
def HandshakeFrame (frame : Bytes) : Prop :=
  ∃ header, decodeHeader frame = .ok header ∧ header.type ≠ frameData

theorem lookupDevice_eq {peer peer' : Peer} (h : peer'.devices = peer.devices) :
    lookupDevice peer' = lookupDevice peer := by
  funext deviceId
  simp only [lookupDevice, h]

theorem respond_hello {peer : Peer} {parsed : ParsedHello} {session : Session} {input : Input}
    (hparsed : parseHello sha256 input.frame (lookupDevice peer) = .ok parsed)
    (hsession : peer.sessions parsed.header.sessionId = some session)
    (hcore : session.helloCore = slice input.frame 0 44) :
    respond sha256 decapsulate peer input = .ok (some session.challengeFrame) := by
  have haccepted := parseHello_ok sha256 hparsed
  simp only [respond, handleFrame, haccepted.header, haccepted.type, if_true, handleHello,
    hparsed, hsession, hcore, ne_eq, not_true, if_false]
  rfl

theorem respond_fragment {peer : Peer} {sessionId : UInt32} {session : Session} {index : UInt8}
    {chunk : Bytes} {input : Input} (hsession : peer.sessions sessionId = some session)
    (hindex : index < 16)
    (hfragment : AuthenticFragment sha256 session.sessionAuthKey sessionId index.toNat chunk
      input.frame)
    (hstored : slice session.ciphertext.val (index.toNat * 48) 48 = chunk) :
    respond sha256 decapsulate peer input
      = .ok (some (ackFrame sha256 session.sessionAuthKey session.sessionId index)) := by
  obtain ⟨header, hheader, htype, -, hid⟩ := hfragment.header
  subst hid
  have hresult := handleFragment_authentic sha256 hheader hsession hindex hfragment fun _ => hstored
  have hnotHello : frameCiphertextFragment ≠ frameHello := by decide
  simp only [respond, handleFrame, hheader, htype, if_neg hnotHello, if_true, hresult]
  rfl

theorem respond_finished {peer : Peer} {sessionId : UInt32} {session : Session}
    {keys : SessionKeys} {transcriptHash : Block 32} {response : Bytes} {input : Input}
    (hkeyed : peer.Keyed) (hsession : peer.sessions sessionId = some session)
    (hresponse : session.serverFinishedFrame = some response) (hkeys : session.keys = some keys)
    (htranscript : session.transcriptHash = some transcriptHash)
    (hverified : VerifiedFinished sha256 keys sessionId transcriptHash input.frame) :
    respond sha256 decapsulate peer input = .ok (some response) := by
  obtain ⟨header, hheader, htype, -, -, hid⟩ := hverified.header
  subst hid
  have hresult := finishSession_repeated sha256 decapsulate hheader hsession
    (hkeyed _ _ hsession) hresponse hkeys htranscript hverified
  have hnotHello : frameDeviceFinished ≠ frameHello := by decide
  have hnotFragment : frameDeviceFinished ≠ frameCiphertextFragment := by decide
  simp only [respond, handleFrame, hheader, htype, if_neg hnotHello, if_neg hnotFragment, if_true,
    hresult]
  rfl

/-- A verified Finished is verified under any keys with the same Device Finished key. -/
theorem VerifiedFinished.of_key {keys keys' : SessionKeys} {sessionId : UInt32}
    {transcriptHash : Block 32} {frame : Bytes}
    (h : VerifiedFinished sha256 keys sessionId transcriptHash frame)
    (hkey : keys'.deviceFinishedKey = keys.deviceFinishedKey) :
    VerifiedFinished sha256 keys' sessionId transcriptHash frame :=
  ⟨h.header, h.length, by rw [hkey]; exact h.tag⟩

/-- The session that a Finished was accepted for, and any later one, answer it again. -/
theorem finished_again {peer : Peer} {sessionId : UInt32} {session session' : Session}
    {keys : SessionKeys} {transcriptHash : Block 32} {response : Bytes} {input : Input}
    (hkeyed : peer.Keyed) (hgrows : session.Grows session')
    (hsession : peer.sessions sessionId = some session')
    (hresponse : session.serverFinishedFrame = some response) (hkeys : session.keys = some keys)
    (htranscript : session.transcriptHash = some transcriptHash)
    (hverified : VerifiedFinished sha256 keys sessionId transcriptHash input.frame) :
    respond sha256 decapsulate peer input = .ok (some response) := by
  obtain ⟨hresponse', htranscript', hkey⟩ := hgrows.finished response hresponse
  rw [hkeys, Option.map_some, Option.map_eq_some_iff] at hkey
  obtain ⟨keys', hkeys', hkey⟩ := hkey
  exact respond_finished hkeyed hsession hresponse' hkeys' (htranscript'.trans htranscript)
    (hverified.of_key hkey)

theorem respond_again {peer later : Peer} (hkeyed : peer.Keyed) (hkeyed' : later.Keyed)
    {input input' : Input} {response : Option Bytes}
    (hgrows : (ReferencePeer.afterFrame sha256 decapsulate peer input).Grows later)
    (hhandshake : HandshakeFrame input.frame) (hframe : input'.frame = input.frame)
    (hrespond : respond sha256 decapsulate peer input = .ok response) :
    respond sha256 decapsulate later input' = .ok response := by
  obtain ⟨header, hheader, htype⟩ := hhandshake
  have hdevices := hgrows.devices.trans (afterFrame_grows hkeyed input).devices
  have hlookup := lookupDevice_eq hdevices
  have houtcome := frame_outcome sha256 decapsulate hkeyed input
  rw [hrespond] at houtcome
  generalize ReferencePeer.afterFrame sha256 decapsulate peer input = peer' at houtcome hgrows
  have hnotData {header' : Header} (hheader' : decodeHeader input.frame = .ok header')
      (htype' : header'.type = frameData) : False := by
    obtain rfl := Except.ok.inj (hheader.symm.trans hheader')
    exact htype htype'
  cases houtcome with
  | helloKnown hparsed hsession hcore =>
    obtain ⟨session', hsession', hgrown⟩ := hgrows.sessions _ _ hsession
    obtain ⟨-, -, hhello, -, hchallenge, -⟩ := hgrown.fixed
    rw [← hlookup, ← hframe] at hparsed
    rw [← hchallenge]
    refine respond_hello hparsed hsession' ?_
    rw [hhello, hcore, hframe]
  | helloNew hparsed hnone =>
    obtain ⟨session', hsession', hgrown⟩ := hgrows.sessions _ _ (Peer.setSession_same ..)
    obtain ⟨-, -, hhello, -, hchallenge, -⟩ := hgrown.fixed
    rw [← hlookup, ← hframe] at hparsed
    have hresult : respond sha256 decapsulate later input' = .ok (some session'.challengeFrame) :=
      respond_hello hparsed hsession' (by rw [hhello, hframe]; rfl)
    rw [hresult, hchallenge]
    rfl
  | @fragment sessionId session index chunk hsession hindex hlength hfragment hreplay =>
    have hlt : index.toNat < 16 := UInt8.lt_iff_toNat_lt.mp hindex
    obtain ⟨session', hsession', hgrown⟩ := hgrows.sessions _ _ (Peer.setSession_same ..)
    obtain ⟨hid, -, -, -, -, hkey⟩ := hgrown.fixed
    obtain ⟨-, hstored⟩ := hgrown.received index.toNat hlt
      (by rw [Session.store_received, Function.update_self])
    have hslice := @slice_copyChunk_same session.ciphertext chunk (index.toNat * 48) (by omega)
    rw [hlength] at hslice
    rw [Session.store_ciphertext, hslice] at hstored
    have hkey' : session'.sessionAuthKey = session.sessionAuthKey := hkey
    have hid' : session'.sessionId = session.sessionId := hid
    rw [← hkey', ← hid']
    rw [← hkey', ← hframe] at hfragment
    exact respond_fragment hsession' hindex hfragment hstored
  | finishedAgain hsession hresponse hkeys htranscript hverified =>
    obtain ⟨session', hsession', hgrown⟩ := hgrows.sessions _ _ hsession
    rw [← hframe] at hverified
    exact finished_again hkeyed' hgrown hsession' hresponse hkeys htranscript
      hverified
  | @finish sessionId session keys hsession hnone hreceived hderives hverified =>
    obtain ⟨session', hsession', hgrown⟩ := hgrows.sessions _ _ (Peer.setSession_same ..)
    rw [← hframe] at hverified
    have hid := hkeyed sessionId session hsession
    exact finished_again hkeyed' hgrown hsession'
      (by rw [← hid]; rfl) rfl rfl hverified
  | dataAgain hheader' htype' => exact (hnotData hheader' htype').elim
  | answered hheader' htype' => exact (hnotData hheader' htype').elim

/-! ## The reassembly -/

variable (sha256 decapsulate)

/-- What holds of a peer that started as `start` and was given the frames `inputs`. -/
structure ReassemblySafe (start : Peer) (inputs : List Input) : Prop where
  writeOnce : ∀ (later : List Input) (sessionId : UInt32) (session : Session), ∀ i < 16,
    (afterFrames sha256 decapsulate start inputs).sessions sessionId = some session →
    session.received i = true →
    ∃ session', (afterFrames sha256 decapsulate start (inputs ++ later)).sessions sessionId
        = some session' ∧
      session'.received i = true ∧
      slice session'.ciphertext.val (i * 48) 48 = slice session.ciphertext.val (i * 48) 48
  authentic : ∀ (input : Input) (sessionId : UInt32) (session' : Session), ∀ i < 16,
    (afterFrames sha256 decapsulate start (inputs ++ [input])).sessions sessionId
      = some session' →
    session'.received i = true →
    (∀ session, (afterFrames sha256 decapsulate start inputs).sessions sessionId = some session →
      session.received i = false) →
    AuthenticFragment sha256 session'.sessionAuthKey sessionId i
      (slice session'.ciphertext.val (i * 48) 48) input.frame
  keys : ∀ (sessionId : UInt32) (session : Session) (keys : SessionKeys),
    (afterFrames sha256 decapsulate start inputs).sessions sessionId = some session →
    session.keys = some keys →
    (∀ i < 16, session.received i = true) ∧
      ∃ derived, session.Derives sha256 decapsulate derived ∧
        keys = advancedKeys sha256 session.device.mode derived session.receiveSequence
          session.sendSequence
  established : ∀ (sessionId : UInt32) (session : Session),
    (afterFrames sha256 decapsulate start inputs).sessions sessionId = some session →
    session.established = true →
    (∀ i < 16, session.received i = true) ∧
      ∃ derived, session.Derives sha256 decapsulate derived ∧
        session.keys = some (advancedKeys sha256 session.device.mode derived
          session.receiveSequence session.sendSequence) ∧
        ∃ input ∈ inputs, VerifiedFinished sha256 derived sessionId
          (sessionTranscript sha256 session) input.frame
  repeated : ∀ (input input' : Input) (later : List Input) (response : Option Bytes),
    HandshakeFrame input.frame → input'.frame = input.frame →
    respond sha256 decapsulate (afterFrames sha256 decapsulate start inputs) input
      = .ok response →
    respond sha256 decapsulate (afterFrames sha256 decapsulate start (inputs ++ input :: later))
      input' = .ok response

variable {sha256 decapsulate}

theorem SessionInvariant.finished_of {inputs : List Input} {sessionId : UInt32}
    {session : Session} (h : SessionInvariant sha256 decapsulate inputs sessionId session)
    (hfinished : session.keys ≠ none ∨ session.established = true) :
    ∃ keys response, FinishedSession sha256 decapsulate inputs sessionId session keys
      response := by
  cases hresponse : session.serverFinishedFrame with
  | none =>
    obtain ⟨hkeys, hestablished, -⟩ := h.unfinished hresponse
    rw [hkeys, hestablished] at hfinished
    simp at hfinished
  | some response =>
    obtain ⟨keys, hsession⟩ := h.finished response hresponse
    exact ⟨keys, response, hsession⟩

theorem afterFrames_append (peer : Peer) (inputs later : List Input) :
    afterFrames sha256 decapsulate peer (inputs ++ later)
      = afterFrames sha256 decapsulate (afterFrames sha256 decapsulate peer inputs) later :=
  List.foldl_append ..

variable (sha256 decapsulate)

/-- Whatever frames the peer is given, in any order. -/
theorem reassembly_safe (epoch : Nat) (keyId : Block 16) (devices : Block 8 → Option DeviceEntry)
    (inputs : List Input) :
    ReassemblySafe sha256 decapsulate (startPeer epoch keyId devices) inputs := by
  have hinvariant : PeerInvariant sha256 decapsulate ([] ++ inputs)
      (afterFrames sha256 decapsulate (startPeer epoch keyId devices) inputs) :=
    (startPeer_invariant epoch keyId devices).afterFrames inputs
  rw [List.nil_append] at hinvariant
  refine ⟨fun later sessionId session i hi hsession hreceived => ?_,
    fun input sessionId session' i hi hafter hreceived hnew => ?_,
    fun sessionId session keys hsession hkeys => ?_, fun sessionId session hsession hest => ?_,
    fun input input' later response hhandshake hframe hrespond => ?_⟩
  · obtain ⟨session', hsession', hgrows⟩ :=
      (afterFrames_grows hinvariant later).sessions sessionId session hsession
    rw [← afterFrames_append] at hsession'
    exact ⟨session', hsession', hgrows.received i hi hreceived⟩
  · rw [afterFrames_append] at hafter
    exact afterFrame_received hinvariant.keyed hafter hi hreceived hnew
  · obtain ⟨derived, _, hfinished⟩ :=
      (hinvariant sessionId session hsession).finished_of (.inl (by simp [hkeys]))
    refine ⟨hfinished.received, derived, hfinished.derives, ?_⟩
    exact Option.some.inj (hkeys.symm.trans hfinished.keys_eq)
  · obtain ⟨derived, _, hfinished⟩ :=
      (hinvariant sessionId session hsession).finished_of (.inr hest)
    exact ⟨hfinished.received, derived, hfinished.derives, hfinished.keys_eq, hfinished.verified⟩
  · have hnext := hinvariant.afterFrame input
    rw [afterFrames_append]
    exact respond_again hinvariant.keyed (hnext.afterFrames later).keyed
      (afterFrames_grows hnext later) hhandshake hframe hrespond

end C0PQLink.ReferencePeer
