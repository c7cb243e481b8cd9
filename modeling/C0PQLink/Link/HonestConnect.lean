import C0PQLink.Link.Agreement
import C0PQLink.Link.LossTolerance

/-!
# A connect that nobody disturbs

A provisioned client over a link that delivers every frame, as a run of the network of
`HandshakeRuns`: both ends establish the session, and every mark on the way is allowed.

* `quiet_steps`: calls that send no frame of the length of a Finished.
* `finished_steps`: the exchange of the Finished frames.
* `honest_reached`: the pool after the connect.
-/

namespace C0PQLink.Link

open Foundation ReferencePeer
open Program hiding bind_assoc

/-- A link that loses nothing. -/
def deliversAll (_ _ : Nat) : Fate := .delivered

section

variable (sha256 : Bytes → Block 32) (hashes : Fips203.Hashes)
  (decapsulate : Block 768 → Block 32) (Secret : Block 32 → Prop) (deployment : Deployment)

/-! ## Steps of one client -/

/-- The first client has the rest `p` of its connect to do; no other one has begun. -/
def connectPool (p : MarkedClient ConnectResult) (network : Network) : HandshakePool :=
  ⟨Function.update deployment.idle.threads (.client 0) p, network⟩

variable {sha256 hashes decapsulate Secret deployment}

theorem start_step {client : Client} (hprovisioned : deployment.Provisions client.config)
    (workspace : Workspace) (stack : FrameBuffer) :
    Steps sha256 hashes decapsulate Secret deployment deployment.idle
      (connectPool deployment (markedConnect sha256 hashes loadZeta 0 client workspace stack)
        ⟨deployment.start, [.started 0]⟩) := by
  have hstarted : handshakeStart sha256 hashes decapsulate Secret deployment (.client 0)
      deployment.idle.state (markedConnect sha256 hashes loadZeta 0 client workspace stack)
      ⟨deployment.start, [.started 0]⟩ :=
    ⟨List.not_mem_nil, rfl, client, workspace, stack, hprovisioned, rfl⟩
  exact .single (.start hstarted)

theorem connectPool_client (p : MarkedClient ConnectResult) (network : Network) :
    (connectPool deployment p network).threads (.client 0) = p := by
  simp only [connectPool, Function.update_self]

theorem connectPool_update (p q : MarkedClient ConnectResult) (network network' : Network) :
    (⟨Function.update (connectPool deployment p network).threads (.client 0) q, network'⟩
      : HandshakePool) = connectPool deployment q network' := by
  simp only [connectPool, Function.update_idem]

/-- A call or a mark of the client. -/
theorem client_step {e : ClientCall ⊕ HandshakeMark}
    {next : MarkedReply ClientReply HandshakeMark e → MarkedClient ConnectResult}
    {reply : MarkedReply ClientReply HandshakeMark e} {network network' : Network}
    (hanswered : clientStep sha256 Secret deployment e network reply network') :
    Steps sha256 hashes decapsulate Secret deployment
      (connectPool deployment (.call e next) network)
      (connectPool deployment (next reply) network') := by
  have hstep : PoolStep (handshakeStep sha256 Secret deployment)
      (handshakeStart sha256 hashes decapsulate Secret deployment)
      (connectPool deployment (.call e next) network)
      ⟨Function.update (connectPool deployment (.call e next) network).threads (.client 0)
        (next reply), network'⟩ := .call (connectPool_client _ network) hanswered
  rw [connectPool_update] at hstep
  exact .single hstep

theorem mark_step {m : HandshakeMark} {f : Unit → MarkedClient ConnectResult} {network : Network}
    (hallowed : MarkAllowed sha256 Secret network.history m) :
    Steps sha256 hashes decapsulate Secret deployment
      (connectPool deployment (mark m >>= f) network)
      (connectPool deployment (f ()) { network with history := m :: network.history }) :=
  client_step ⟨hallowed, rfl⟩

theorem deliver_step {p : MarkedClient ConnectResult} {network : Network} (input : Input)
    (hallowed : MarksAllowed sha256 Secret network.history
      (peerMarks sha256 decapsulate network.peer input.frame)) :
    Steps sha256 hashes decapsulate Secret deployment (connectPool deployment p network)
      (connectPool deployment p (network.deliver sha256 decapsulate input)) := by
  have hstarted : handshakeStart sha256 hashes decapsulate Secret deployment .peer network
      (pure ()) (network.deliver sha256 decapsulate input) := ⟨rfl, input, hallowed, rfl⟩
  have hstep : PoolStep (handshakeStep sha256 Secret deployment)
      (handshakeStart sha256 hashes decapsulate Secret deployment)
      (connectPool deployment p network)
      ⟨Function.update (connectPool deployment p network).threads .peer (pure ()),
        network.deliver sha256 decapsulate input⟩ := .start hstarted
  have hidle : (connectPool deployment p network).threads .peer = pure () := by
    simp only [connectPool, Function.update_of_ne (show HandshakeThread.peer ≠ .client 0 by simp)]
    rfl
  rw [← hidle, Function.update_eq_self] at hstep
  exact .single hstep

/-! ## Calls over the link -/

variable {application : Application} {serverNonce : Block 16}
  {random : (length : Nat) → Block length}

/-- The callbacks of a client whose frames are all delivered. -/
abbrev honestAnswer (sha256 : Bytes → Block 32) (decapsulate : Block 768 → Block 32)
    (deployment : Deployment) (application : Application) (serverNonce : Block 16)
    (random : (length : Nat) → Block length) :=
  lossyAnswer (serveFrame sha256 decapsulate application serverNonce) deliversAll random
    deployment.publicKey

/-- The marks of the peer when it is handed the frame of a call. -/
def sentMarks (sha256 : Bytes → Block 32) (decapsulate : Block 768 → Block 32) (peer : Peer) :
    ClientCall → List HandshakeMark
  | .sendFrame frame => peerMarks sha256 decapsulate peer frame
  | _ => []

theorem honest_step {α : Type} {e : ClientCall} {next : ClientReply e → ClientProgram α}
    {f : α → MarkedClient ConnectResult} {link : FrameLink} {history : History}
    (hallowed : MarksAllowed sha256 Secret history (sentMarks sha256 decapsulate link.server.1 e)) :
    let answer := honestAnswer sha256 decapsulate deployment application serverNonce random e link
    Steps sha256 hashes decapsulate Secret deployment
      (connectPool deployment (onClient (.call e next) >>= f) ⟨link.server.1, history⟩)
      (connectPool deployment (onClient (next answer.1) >>= f)
        ⟨answer.2.server.1, sentMarks sha256 decapsulate link.server.1 e ++ history⟩) := by
  cases e with
  | randomBytes | readPublicKey => exact client_step ⟨by trivial, rfl⟩
  | receiveFrame buffer =>
    have hserver : (link.receive).2.server = link.server := by
      rw [Link.receive]
      split <;> rfl
    simp only [lossyAnswer, hserver]
    exact client_step ⟨trivial, rfl⟩
  | sendFrame frame =>
    refine Relation.ReflTransGen.trans
      (deliver_step ⟨application, serverNonce.val, frame⟩ hallowed) ?_
    exact client_step ⟨trivial, rfl⟩

/-- A frame that has not the length of a Finished leaves no marks. -/
theorem peerMarks_of_length {frame : Bytes} (h : frame.length ≠ 26) (peer : Peer) :
    peerMarks sha256 decapsulate peer frame = [] := by
  have hfinishing : finishing sha256 decapsulate peer frame = none := by
    unfold finishing
    split
    · rfl
    · rw [if_neg fun hshape => h hshape.2.2.2]
  rw [peerMarks, hfinishing]

/-- What a call adds to the frames that were sent. -/
theorem honestAnswer_sent (e : ClientCall) (link : FrameLink) :
    (honestAnswer sha256 decapsulate deployment application serverNonce random e link).2.sent
      = link.sent ++ match e with | .sendFrame frame => [frame] | _ => [] := by
  cases e with
  | randomBytes | readPublicKey => exact (List.append_nil _).symm
  | receiveFrame buffer =>
    have hsent : link.receive.2.sent = link.sent := by
      rw [Link.receive]
      split <;> rfl
    exact hsent.trans (List.append_nil _).symm
  | sendFrame frame => rfl

theorem sent_prefix {α : Type} {p : ClientProgram α} {link next : FrameLink} {a : α}
    (hrun : p.run (honestAnswer sha256 decapsulate deployment application serverNonce random) link
      = (a, next)) : link.sent <+: next.sent := by
  induction p generalizing link with
  | done b =>
    obtain ⟨-, rfl⟩ := Prod.mk.inj hrun
    exact List.prefix_refl _
  | call e cont ih =>
    refine List.IsPrefix.trans ?_ (ih _ hrun)
    rw [honestAnswer_sent]
    exact List.prefix_append ..

/-- Calls that send no frame of the length of a Finished. -/
theorem quiet_steps {α : Type} (p : ClientProgram α) {f : α → MarkedClient ConnectResult}
    {link next : FrameLink} {history : History} {a : α}
    (hrun : p.run (honestAnswer sha256 decapsulate deployment application serverNonce random) link
      = (a, next)) (hquiet : ∀ frame ∈ next.sent.drop link.sent.length, frame.length ≠ 26) :
    Steps sha256 hashes decapsulate Secret deployment
      (connectPool deployment (onClient p >>= f) ⟨link.server.1, history⟩)
      (connectPool deployment (f a) ⟨next.server.1, history⟩) := by
  induction p generalizing link with
  | done b =>
    obtain ⟨rfl, rfl⟩ := Prod.mk.inj hrun
    exact .refl
  | call e cont ih =>
    have hsent : (honestAnswer sha256 decapsulate deployment application serverNonce random e
      link).2.sent = _ := honestAnswer_sent e link
    obtain ⟨later, hlater⟩ := sent_prefix (p := cont _) hrun
    rw [hsent, List.append_assoc] at hlater
    rw [← hlater, List.drop_left] at hquiet
    have hmarks : sentMarks sha256 decapsulate link.server.1 e = [] := by
      cases e with
      | sendFrame frame => exact peerMarks_of_length (hquiet frame (by simp)) _
      | _ => rfl
    have hallowed : MarksAllowed sha256 Secret history
        (sentMarks sha256 decapsulate link.server.1 e) := by
      rw [hmarks]
      trivial
    have hstep := @honest_step sha256 hashes decapsulate Secret deployment application serverNonce
      random α e cont f link history hallowed
    rw [hmarks] at hstep
    refine hstep.trans (ih _ hrun fun frame hframe => hquiet frame (List.mem_append_right _ ?_))
    rw [← hlater, hsent, ← List.append_assoc, List.drop_left] at hframe
    exact hframe

/-- Calls of which only the first one sends a frame. -/
theorem sending_steps {α : Type} {frame : Bytes} {cont : Int → ClientProgram α}
    {f : α → MarkedClient ConnectResult} {link next : FrameLink} {history : History} {a : α}
    (hrun : (Program.call (.sendFrame frame) cont).run
      (honestAnswer sha256 decapsulate deployment application serverNonce random) link
      = (a, next)) (hsent : next.sent = link.sent ++ [frame])
    (hallowed : MarksAllowed sha256 Secret history
      (peerMarks sha256 decapsulate link.server.1 frame)) :
    Steps sha256 hashes decapsulate Secret deployment
      (connectPool deployment (onClient (.call (.sendFrame frame) cont) >>= f)
        ⟨link.server.1, history⟩)
      (connectPool deployment (f a)
        ⟨next.server.1, peerMarks sha256 decapsulate link.server.1 frame ++ history⟩) := by
  have hstep := @honest_step sha256 hashes decapsulate Secret deployment application serverNonce
    random α (.sendFrame frame) cont f link history hallowed
  have hadded : (honestAnswer sha256 decapsulate deployment application serverNonce random
      (.sendFrame frame) link).2.sent = link.sent ++ [frame] := honestAnswer_sent _ link
  refine hstep.trans (quiet_steps _ hrun fun other hother => ?_)
  rw [hadded, ← hsent, List.drop_length] at hother
  cases hother

/-! ## The phases of a connect -/

variable {h : Handshake} {start : Server} {keys : SessionKeys}
  {hprovisioned : Provisioned hashes decapsulate h start.1}
  {hkeys : ReferencePeer.deriveSessionKeys sha256 h.client.config.psk (h.sharedSecret hashes)
    (sha256 (h.transcript hashes)) = .ok keys} {link : FrameLink}

/-- Every exchange is answered. -/
theorem not_broken {i : Nat} : ¬ h.Broken sha256 hashes application deliversAll hprovisioned hkeys
    i link := by
  intro hbroken
  refine hbroken.not_succeedsBefore hbroken.lt fun j _ => ⟨0, Nat.succ_pos _, rfl⟩

/-- The ciphertext phase with its transcript. -/
theorem sendTranscript_honest (hrandom : random 32 = h.randomness) (stack : FrameBuffer)
    (hreached : h.Reached sha256 hashes application deliversAll hprovisioned hkeys 1 link) :
    ∃ next, (sendTranscript sha256 hashes loadZeta h.connecting h.challenge h.preflight stack).run
        (h.environment sha256 application deliversAll decapsulate random) link
        = (.ok (h.sharedSecret hashes, h.transcript hashes), next) ∧
      h.Reached sha256 hashes application deliversAll hprovisioned hkeys 17 next := by
  have hstream : Streaming sha256 hashes application deliversAll hprovisioned hkeys 0 0
      (newWriter sha256 h.connecting h.challenge h.preflight) link :=
    ⟨by decide, by decide, rfl, rfl, rfl, by rw [slice, List.take_zero]; rfl, hreached⟩
  obtain ⟨result, writer, next, hrun, hresult⟩ := encapsulate_lossy hrandom stack hstream
  obtain ⟨rfl, htranscript, hend⟩ | ⟨-, i, hbroken⟩ := hresult
  swap
  · exact absurd hbroken not_broken
  refine ⟨next, ?_, hend.reached⟩
  unfold sendTranscript
  rw [Program.run_bind_of hrun]
  have hpending : writer.pending.length = 0 := by
    rw [hend.pending, slice, List.take_zero]
    rfl
  have hcount : ¬ (writer.fragmentIndex ≠ fragmentCount ∨ writer.failure ≠ .ok) := by
    rw [hend.index, hend.failure]
    decide
  simp only [flushPending, hpending, ne_eq, not_true, if_false, pure_bind, hcount,
    htranscript, Except.map]
  rfl

/-! ## What is sent -/

variable (sha256 hashes) in
/-- The requests before the Finished have other lengths. -/
theorem length_request (h : Handshake) (keys : SessionKeys) {i : Nat} (hi : i < 17) :
    (h.request sha256 hashes keys i).length ≠ 26 := by
  cases i with
  | zero =>
    have hhello : (h.request sha256 hashes keys 0).length = 60 := Block.length_val _
    omega
  | succ k =>
    obtain ⟨hlength, -⟩ := fields_chunkFrame sha256 (h.authKey sha256) h.sessionId
      (UInt8.ofNat k) (h.chunk hashes k)
    rw [h.request_fragment sha256 hashes keys (by omega), hlength]
    decide

theorem sent_honest {i : Nat}
    (hreached : h.Reached sha256 hashes application deliversAll hprovisioned hkeys i link) :
    link.sent = (List.range i).map (h.request sha256 hashes keys) := by
  have hone (j : Nat) : attemptsMade (deliversAll j) 0 h.attempts = 1 := rfl
  rw [hreached.sent, Conversation.sentBefore]
  simp only [hone, List.replicate_one]
  exact List.map_eq_flatMap.symm

/-! ## The whole connect -/

/-- What the peer does with the Finished of the client. -/
def finishedMarks (sha256 : Bytes → Block 32) (hashes : Fips203.Hashes) (h : Handshake)
    (keys : SessionKeys) : List HandshakeMark :=
  [.peerFinished h.sessionId h.device (h.transcript hashes) keys,
    .presented h.client.config.psk ((h.request sha256 hashes keys 17).drop 10)
      keys.deviceFinishedKey
      (finishedMessage frameDeviceFinished h.sessionId (sha256 (h.transcript hashes))),
    .hashed (h.transcript hashes)]

variable (sha256 hashes h) in
theorem sessionInput_sessionAt : sessionInput (h.sessionAt sha256 hashes 16)
    = h.transcript hashes := by
  obtain ⟨-, -, -, -, -, hhello, hchallenge, -⟩ := sessionAt_fixed sha256 hashes h 16
  rw [sessionInput, hhello, hchallenge, ciphertext_sessionAt]
  rfl

theorem peerMarks_finished
    (hdecapsulates : decapsulate (h.ciphertext hashes) = h.sharedSecret hashes)
    (hkeys : ReferencePeer.deriveSessionKeys sha256 h.client.config.psk (h.sharedSecret hashes)
      (sha256 (h.transcript hashes)) = .ok keys) (peer : Peer) :
    peerMarks sha256 decapsulate
        (peer.setSession h.sessionId (h.sessionAt sha256 hashes 16))
        (h.request sha256 hashes keys 17)
      = finishedMarks sha256 hashes h keys := by
  obtain ⟨hid, hdevice, -, -, hnone, -⟩ := sessionAt_fixed sha256 hashes h 16
  have hreceived := received_sessionAt sha256 hashes h (Nat.le_refl 16)
  have htranscript := sessionTranscript_sessionAt sha256 hashes h
  have hinput := sessionInput_sessionAt sha256 hashes h
  have hciphertext := ciphertext_sessionAt sha256 hashes h
  generalize h.sessionAt sha256 hashes 16 = session at *
  have hverified := verified_finishedFrame sha256 keys h.sessionId (sha256 (h.transcript hashes))
  have hderives : session.Derives sha256 decapsulate keys := by
    rw [Session.Derives, hdevice, hciphertext, hdecapsulates, htranscript]
    exact hkeys
  have hfinishing := finishing_of_verified (peer.setSession_same h.sessionId session) hnone
    (fun i hi => by rw [hreceived]; simpa using hi) hderives hverified
  rw [h.request_finished sha256 hashes keys, peerMarks, hfinishing]
  simp only [hid, htranscript, hdevice, hinput]
  rw [if_pos hverified.tag]
  rfl

/-- The first call of an exchange sends its frame. -/
theorem sendAndReceive_call (client : Client) (type : UInt8) (expectedLength : Nat)
    (stack : FrameBuffer) {frame : Bytes} (hfits : frame.length ≤ 96) :
    ∃ cont, sendAndReceive client frame.length type expectedLength (stack.write frame)
      = .call (.sendFrame frame) cont := by
  rw [sendAndReceive, exchangeAttempts, take_write stack hfits]
  exact ⟨_, rfl⟩

/-- The Server Finished of the handshake. -/
def Handshake.serverFinished (sha256 : Bytes → Block 32) (hashes : Fips203.Hashes) (h : Handshake)
    (keys : SessionKeys) : Bytes :=
  ReferencePeer.serverFinished sha256 keys h.sessionId (sha256 (h.transcript hashes))

variable (sha256 hashes h keys) in
theorem serverFinished_fields :
    (h.serverFinished sha256 hashes keys).length = 26 ∧
      C0PQLink.decodeHeader (h.serverFinished sha256 hashes keys)
        = .ok ⟨frameServerFinished, 0, 16, h.sessionId⟩ ∧
      slice (h.serverFinished sha256 hashes keys) 10 16
        = (C0PQLink.finishedTag sha256 keys.serverFinishedKey frameServerFinished h.sessionId
          (sha256 (h.transcript hashes))).val := by
  refine ⟨?_, C0PQLink.decodeHeader_headerBytes frameServerFinished 0 h.sessionId
    (Block.length_val _), slice_last (length_headerBytes ..) (Block.length_val _)⟩
  rw [Handshake.serverFinished, ReferencePeer.serverFinished, List.length_append,
    length_headerBytes, Block.length_val]

variable (Secret) in
/-- The Finished exchange, with the marks of both ends. -/
theorem finished_steps (history : History)
    (hnew : ∀ input, .hashed input ∈ history → sha256 input = sha256 (h.transcript hashes) →
      input = h.transcript hashes) (stack : FrameBuffer)
    (hkey : h.publicKey = deployment.publicKey) (random : (length : Nat) → Block length)
    (hreached : h.Reached sha256 hashes application deliversAll hprovisioned hkeys 17 link) :
    ∃ peer, ∀ f : Status → MarkedClient ConnectResult,
      Steps sha256 hashes decapsulate Secret deployment
      (connectPool deployment
        (markedFinished sha256 0 h.connecting keys (h.transcript hashes) stack >>= f)
        ⟨link.server.1, history⟩)
      (connectPool deployment (f .ok) ⟨peer,
        .presented h.client.config.psk (slice (h.serverFinished sha256 hashes keys) 10 16)
          keys.serverFinishedKey
          (finishedMessage frameServerFinished h.sessionId (sha256 (h.transcript hashes)))
          :: (finishedMarks sha256 hashes h keys
            ++ .deviceFinished 0 h.connecting (h.transcript hashes) keys :: history)⟩) := by
  have hanswer : h.answer sha256 hashes keys 17 = h.serverFinished sha256 hashes keys :=
    h.answer_finished sha256 hashes keys
  obtain ⟨hfits, hheader, hslice⟩ := serverFinished_fields sha256 hashes h keys
  have hlength : (h.request sha256 hashes keys 17).length = 26 := length_finishedFrame ..
  have hexchange := exchange_lossy hreached (by decide) rfl hanswer hlength hfits (by decide)
    (by decide) hheader random stack
  obtain ⟨next, buffer, hrun, htake, hnext⟩ | ⟨next, buffer, -, hbroken⟩ := hexchange
  swap
  · exact absurd hbroken not_broken
  have hserver : link.server.1 = start.1.setSession h.sessionId (h.sessionAt sha256 hashes 16) :=
    congrArg Prod.fst hreached.server
  have hmarks := peerMarks_finished hprovisioned.decapsulates hkeys start.1
  rw [← hserver] at hmarks
  have hsent : next.sent = link.sent ++ [h.request sha256 hashes keys 17] := by
    rw [sent_honest hnext, sent_honest hreached, List.range_succ, List.map_append]
    rfl
  obtain ⟨cont, hcont⟩ := sendAndReceive_call h.connecting frameServerFinished 26 stack
    (show (h.request sha256 hashes keys 17).length ≤ 96 by omega)
  rw [hlength] at hcont
  rw [hcont, Handshake.environment, hkey] at hrun
  have hallowed : MarksAllowed sha256 Secret
      (.deviceFinished 0 h.connecting (h.transcript hashes) keys :: history)
      (peerMarks sha256 decapsulate link.server.1 (h.request sha256 hashes keys 17)) := by
    rw [hmarks]
    refine ⟨trivial, fun _ _ => ⟨_, List.mem_cons_of_mem _ List.mem_cons_self,
      List.mem_singleton_self _⟩, fun input hinput hdigest => ?_, trivial⟩
    rcases List.mem_cons.mp hinput with heq | hinput
    · cases heq
    · exact hnew input hinput hdigest
  have htag : checkFinished sha256 keys.serverFinishedKey h.sessionId (sha256 (h.transcript hashes))
      (h.serverFinished sha256 hashes keys) = .ok := by
    simp only [checkFinished, hheader, hslice, ne_eq, not_true, or_self, if_false, if_true]
  have hid : h.connecting.sessionId = h.sessionId := rfl
  have hpsk : h.connecting.config.psk = h.client.config.psk := rfl
  refine ⟨next.server.1, fun f => ?_⟩
  unfold markedFinished
  simp only [bind_assoc]
  refine Relation.ReflTransGen.trans (mark_step trivial) ?_
  rw [hid, hpsk, ← h.request_finished sha256 hashes keys, hcont]
  refine Relation.ReflTransGen.trans (sending_steps hrun hsent hallowed) ?_
  simp only [htake, htag, ne_eq, not_true, if_false, pure_bind, bind_assoc]
  rw [hmarks]
  refine mark_step fun _ _ => ⟨_, List.mem_cons_self, ?_⟩
  exact List.mem_singleton_self _

/-- What has happened after the connect. -/
def honestHistory (sha256 : Bytes → Block 32) (hashes : Fips203.Hashes) (h : Handshake)
    (keys : SessionKeys) : History :=
  .clientEstablished 0 (h.connecting.establish keys) (h.transcript hashes)
    :: .presented h.client.config.psk (slice (h.serverFinished sha256 hashes keys) 10 16)
      keys.serverFinishedKey
      (finishedMessage frameServerFinished h.sessionId (sha256 (h.transcript hashes)))
    :: (finishedMarks sha256 hashes h keys
      ++ [.deviceFinished 0 h.connecting (h.transcript hashes) keys,
        .hashed (h.transcript hashes), .drawn 0 h.deviceNonce, .started 0])

theorem quiet_before {i n : Nat} (hi : i ≤ 17)
    (hreached : h.Reached sha256 hashes application deliversAll hprovisioned hkeys i link) :
    ∀ frame ∈ link.sent.drop n, frame.length ≠ 26 := by
  intro frame hframe
  have hmem := List.mem_of_mem_drop hframe
  rw [sent_honest hreached] at hmem
  obtain ⟨j, hj, rfl⟩ := List.mem_map.mp hmem
  exact length_request sha256 hashes h keys (by have := List.mem_range.mp hj; omega)

variable (Secret) in
/-- The handshake after the nonce. -/
theorem handshake_steps (hkey : h.publicKey = deployment.publicKey)
    (hrandom : random 32 = h.randomness) (stack : FrameBuffer)
    (hreached : h.Reached sha256 hashes application deliversAll hprovisioned hkeys 0 link) :
    ∃ peer, ∀ f : Except Status SessionKeys → MarkedClient ConnectResult,
      Steps sha256 hashes decapsulate Secret deployment
      (connectPool deployment
        (markedHandshake sha256 hashes loadZeta 0 h.connecting h.deviceNonce stack >>= f)
        ⟨link.server.1, [.drawn 0 h.deviceNonce, .started 0]⟩)
      (connectPool deployment (f (.ok keys)) ⟨peer, honestHistory sha256 hashes h keys⟩) := by
  obtain ⟨next, hrequest, hnext⟩ | ⟨next, -, hbroken⟩ :=
    @requestChallenge_lossy sha256 hashes decapsulate application h start keys deliversAll random
      hprovisioned hkeys link hreached stack
  swap
  · exact absurd hbroken not_broken
  obtain ⟨last, hsend, hlast⟩ := sendTranscript_honest hrandom stack hnext
  rw [Handshake.environment, hkey] at hrequest hsend
  obtain ⟨keys', hpeerKeys, hclientKeys⟩ := deriveSessionKeys_eq_client sha256
    h.client.config.psk (h.sharedSecret hashes) (sha256 (h.transcript hashes))
  obtain rfl := Except.ok.inj (hkeys.symm.trans hpeerKeys)
  have hpsk : h.connecting.config.psk = h.client.config.psk := rfl
  have hfresh : MarkAllowed sha256 Secret [.drawn 0 h.deviceNonce, .started 0]
      (.hashed (h.transcript hashes)) := by
    intro input hinput
    simp at hinput
  obtain ⟨peer, hfinished⟩ := finished_steps Secret
    [.hashed (h.transcript hashes), .drawn 0 h.deviceNonce, .started 0]
    (fun input hinput _ => by simpa using hinput) stack hkey random hlast
  refine ⟨peer, fun f => ?_⟩
  unfold markedHandshake
  rw [bind_assoc]
  refine Relation.ReflTransGen.trans (quiet_steps _ hrequest (quiet_before (by decide) hnext)) ?_
  dsimp only
  rw [bind_assoc]
  refine Relation.ReflTransGen.trans (quiet_steps _ hsend (quiet_before (by decide) hlast)) ?_
  dsimp only
  rw [bind_assoc]
  refine Relation.ReflTransGen.trans (mark_step hfresh) ?_
  simp only [hpsk, hclientKeys]
  rw [bind_assoc]
  refine (hfinished _).trans ?_
  dsimp only
  rw [bind_assoc]
  exact mark_step trivial

variable (Secret) in
/-- The connect of a provisioned client that nobody disturbs is a run of the network. -/
theorem honest_reached (hready : h.client.state = .ready)
    (hprovides : deployment.Provisions h.client.config)
    (hkey : h.publicKey = deployment.publicKey) (random : (length : Nat) → Block length)
    (hnonce : random 16 = h.deviceNonce)
    (hrandom : random 32 = h.randomness)
    (hprovisioned : Provisioned hashes decapsulate h deployment.start)
    (hkeys : ReferencePeer.deriveSessionKeys sha256 h.client.config.psk (h.sharedSecret hashes)
      (sha256 (h.transcript hashes)) = .ok keys) (workspace : Workspace) (stack : FrameBuffer) :
    ∃ pool, Steps sha256 hashes decapsulate Secret deployment deployment.idle pool ∧
      pool.threads (.client 0) = .done ⟨.ok, h.connecting.establish keys, Block.zero 1344⟩ ∧
      pool.state.history = honestHistory sha256 hashes h keys := by
  have hprovisioned' : Provisioned hashes decapsulate h ((deployment.start, []) : Server).1 :=
    hprovisioned
  let application : Application := fun _ => .ok none
  have hstart : h.Reached sha256 hashes application deliversAll hprovisioned' hkeys 0
      (.start (deployment.start, [])) := Conversation.reached_start _ rfl
  have hdraw : (Program.perform (ClientCall.randomBytes 16)).run
      (honestAnswer sha256 decapsulate deployment application h.serverNonce random)
      (.start (deployment.start, [])) = ((0, h.deviceNonce), .start (deployment.start, [])) := by
    rw [← hnonce]
    rfl
  have hfresh : MarkAllowed sha256 Secret [.started 0] (.drawn 0 h.deviceNonce) := by
    intro run hdrawn
    simp at hdrawn
  obtain ⟨peer, hhandshake⟩ := handshake_steps Secret hkey hrandom stack hstart
  have hclient : h.client.connecting h.deviceNonce = h.connecting := rfl
  let last : HandshakePool := connectPool deployment
    (pure ⟨.ok, h.connecting.establish keys, Block.zero 1344⟩)
    ⟨peer, honestHistory sha256 hashes h keys⟩
  refine ⟨last, (start_step hprovides workspace stack).trans ?_, connectPool_client _ _, rfl⟩
  unfold markedConnect
  rw [if_neg (not_not.mpr hready)]
  refine Relation.ReflTransGen.trans (quiet_steps _ hdraw fun _ hframe => nomatch hframe) ?_
  simp only [ne_eq, not_true, if_false, hclient]
  refine (mark_step hfresh).trans ?_
  exact hhandshake _

end

/-! The connect of a client whose PSK is secret. -/

def readyDeployment : Deployment :=
  ⟨0, readyClient.config.publicKeyId, provisionedPeer.devices, Block.zero 800⟩

theorem sharedSecret_zeroHashes (h : Handshake) : h.sharedSecret zeroHashes = Block.zero 32 :=
  Subtype.ext (by
    simp [Handshake.sharedSecret, Fips203.encapsInternal, zeroHashes, blockAt, slice, Block.zero])

theorem exists_honestPool : ∃ keys pool,
    Steps zeroDigest zeroHashes (fun _ => Block.zero 32) (fun _ => True) readyDeployment
      readyDeployment.idle pool ∧
    pool.threads (.client 0)
      = .done ⟨.ok, zeroHandshake.connecting.establish keys, Block.zero 1344⟩ ∧
    .clientEstablished 0 (zeroHandshake.connecting.establish keys)
      (zeroHandshake.transcript zeroHashes) ∈ pool.state.history := by
  obtain ⟨keys, hkeys, -⟩ := deriveSessionKeys_eq_client zeroDigest zeroHandshake.client.config.psk
    (zeroHandshake.sharedSecret zeroHashes) (zeroDigest (zeroHandshake.transcript zeroHashes))
  have hprovides : readyDeployment.Provisions zeroHandshake.client.config :=
    zeroHandshake_provisioned.device
  obtain ⟨pool, hreached, hdone, hhistory⟩ := honest_reached (fun _ => True) rfl hprovides
    rfl (fun length => Block.zero length) rfl rfl zeroHandshake_provisioned hkeys
    (Block.zero 1344) (Block.zero 96)
  refine ⟨keys, pool, hreached, hdone, ?_⟩
  rw [hhistory]
  exact List.mem_cons_self

theorem honest_agreement : ∃ network run client transcript,
    NetworkReached zeroDigest zeroHashes (fun _ => Block.zero 32) (fun _ => True) readyDeployment
      network ∧
    .clientEstablished run client transcript ∈ network.history ∧
    HandshakeAgreement zeroDigest zeroHashes (fun _ => True) network := by
  obtain ⟨keys, pool, hreached, -, hmem⟩ := exists_honestPool
  have hnetwork : NetworkReached zeroDigest zeroHashes (fun _ => Block.zero 32) (fun _ => True)
      readyDeployment pool.state := ⟨pool, rfl, hreached⟩
  exact ⟨pool.state, 0, _, _, hnetwork, hmem,
    handshake_agreement zeroDigest zeroHashes (fun _ => Block.zero 32) (fun _ => True)
      readyDeployment hnetwork fun h _ _ _ _ _ => (sharedSecret_zeroHashes h).symm⟩

theorem honest_connectAgreement : ∃ pool result,
    Steps zeroDigest zeroHashes (fun _ => Block.zero 32) (fun _ => True) readyDeployment
      readyDeployment.idle pool ∧
    pool.threads (.client 0) = .done result ∧ result.status = .ok ∧
    result.client.state = .established ∧
    ConnectAgreement zeroDigest zeroHashes (fun _ => True) pool := by
  obtain ⟨keys, pool, hreached, hdone, -⟩ := exists_honestPool
  exact ⟨pool, _, hreached, hdone, rfl, rfl,
    connect_agreement zeroDigest zeroHashes (fun _ => Block.zero 32) (fun _ => True)
      readyDeployment hreached fun h _ _ _ _ _ => (sharedSecret_zeroHashes h).symm⟩

end C0PQLink.Link
