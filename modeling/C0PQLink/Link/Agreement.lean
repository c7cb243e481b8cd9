import C0PQLink.Link.HandshakeRuns
import C0PQLink.Link.RecordChannel

/-!
# Agreement of the C0-PQLink handshake

What each end knows when it has finished the handshake, over any number of connects of any
clients, in any order of the steps and with any frames on the network.

* `Justified`: what has to precede a mark.
* `NetworkSound`: the invariant of the network, which ties the sessions of the peer to the
  marks.
* `markedConnect_doesItsPart`, `NetworkSound.deliver`: both ends keep it.
* `handshake_agreement`: agreement in every reachable network.
* `connect_agreement`: agreement of the clients that connects have returned with the sessions
  of the peer.
-/

namespace C0PQLink.Link

open Foundation ReferencePeer
open Program hiding bind_assoc

variable (sha256 : Bytes → Block 32) (hashes : Fips203.Hashes)
  (decapsulate : Block 768 → Block 32) (Secret : Block 32 → Prop) (deployment : Deployment)

/-! ## What precedes a mark -/

/-- A client that sends its Finished has the transcript of a handshake with the nonce of its
connect, and the keys of that handshake. -/
structure SentFinished (history : History) (run : Nat) (client : Client)
    (transcript : Transcript) (keys : SessionKeys) (h : Handshake) : Prop where
  config : h.client.config = client.config
  sessionId : client.sessionId = h.sessionId
  publicKey : h.publicKey = deployment.publicKey
  provisioned : deployment.Provisions client.config
  transcript_eq : transcript = h.transcript hashes
  drawn : .drawn run h.deviceNonce ∈ history
  hashed : .hashed transcript ∈ history
  keys_eq : deriveSessionKeys sha256 client.config.psk (h.sharedSecret hashes) (sha256 transcript)
    = .ok keys

def Justified (history : History) : HandshakeMark → Prop
  | .drawn _ deviceNonce => ∀ run, .drawn run deviceNonce ∉ history
  | .hashed input => ∀ input', .hashed input' ∈ history → sha256 input' = sha256 input →
      input' = input
  | .deviceFinished run client transcript keys =>
    ∃ h, SentFinished sha256 hashes deployment history run client transcript keys h
  | .clientEstablished run client transcript =>
    ∃ connecting keys, client = connecting.establish keys ∧
      .deviceFinished run connecting transcript keys ∈ history ∧
      (Secret client.config.psk → ∃ device keys',
        .peerFinished client.sessionId device transcript keys' ∈ history)
  | .peerFinished sessionId device transcript _ =>
    .hashed transcript ∈ history ∧ (Secret device.psk → ∃ run client keys,
      .deviceFinished run client transcript keys ∈ history ∧ client.sessionId = sessionId)
  | _ => True

abbrev Sound (history : History) : Prop :=
  SoundHistory (Justified sha256 hashes Secret deployment) history

section

variable {sha256 hashes Secret deployment} {history : History}

theorem Sound.hashed_inj (h : Sound sha256 hashes Secret deployment history) {input input' : Bytes}
    (hinput : .hashed input ∈ history) (hinput' : .hashed input' ∈ history)
    (hdigest : sha256 input = sha256 input') : input = input' := by
  refine SoundHistory.inj (g := HandshakeMark.hashed) (f := sha256)
    (fun _ _ => HandshakeMark.hashed.inj) ?_ h hinput hinput' hdigest
  exact fun earlier input hjustified => hjustified

theorem Sound.drawn_inj (h : Sound sha256 hashes Secret deployment history) {run run' : Nat}
    {deviceNonce : Block 16} (hrun : .drawn run deviceNonce ∈ history)
    (hrun' : .drawn run' deviceNonce ∈ history) : run = run' := by
  have hsame : (run, deviceNonce) = (run', deviceNonce) := by
    refine SoundHistory.inj (g := fun drawn : Nat × Block 16 => .drawn drawn.1 drawn.2)
      (f := Prod.snd) ?_ ?_ h hrun hrun' rfl
    · rintro ⟨run, nonce⟩ ⟨run', nonce'⟩ heq
      exact Prod.ext (HandshakeMark.drawn.inj heq).1 (HandshakeMark.drawn.inj heq).2
    · rintro earlier ⟨run, nonce⟩ hjustified ⟨run', nonce'⟩ hmem heq
      obtain rfl : nonce' = nonce := heq
      exact absurd hmem (hjustified run')
  exact (Prod.mk.inj hsame).1

/-! ## What an accepted Finished tells -/

/-- A Finished tag is released by the end that makes Finished frames of its type. -/
theorem released_finished {m : HandshakeMark} {key : Block 32} {frameType : UInt8}
    {sessionId : UInt32} {transcriptHash : Block 32}
    (h : (key, finishedMessage frameType sessionId transcriptHash) ∈ released sha256 m) :
    (frameType = frameDeviceFinished ∧ ∃ run client transcript keys,
        m = .deviceFinished run client transcript keys ∧ client.sessionId = sessionId ∧
          sha256 transcript = transcriptHash) ∨
      (frameType = frameServerFinished ∧ ∃ device transcript keys,
        m = .peerFinished sessionId device transcript keys ∧
          sha256 transcript = transcriptHash) := by
  cases m with
  | deviceFinished run client transcript keys =>
    rw [released, List.mem_singleton, Prod.mk.injEq] at h
    obtain ⟨rfl, rfl, rfl⟩ := finishedMessage_inj h.2
    exact .inl ⟨rfl, run, client, transcript, keys, rfl, rfl, rfl⟩
  | peerFinished sessionId' device transcript keys =>
    rw [released, List.mem_singleton, Prod.mk.injEq] at h
    obtain ⟨rfl, rfl, rfl⟩ := finishedMessage_inj h.2
    exact .inr ⟨rfl, device, transcript, keys, rfl, rfl⟩
  | _ => cases h

theorem accepted_serverFinished {psk key : Block 32} {tag : Bytes} {sessionId : UInt32}
    {transcript : Transcript} (hsound : Sound sha256 hashes Secret deployment history)
    (hhashed : .hashed transcript ∈ history)
    (hallowed : MarkAllowed sha256 Secret history (.presented psk tag key
      (finishedMessage frameServerFinished sessionId (sha256 transcript))))
    (hsecret : Secret psk)
    (htag : (C0PQLink.finishedTag sha256 key frameServerFinished sessionId
      (sha256 transcript)).val = tag) :
    ∃ device keys, .peerFinished sessionId device transcript keys ∈ history := by
  rw [finishedTag_message] at htag
  obtain ⟨m, hm, hreleased⟩ := hallowed hsecret htag
  rcases released_finished hreleased with ⟨htype, -⟩ | ⟨-, device, transcript', keys, rfl, hdigest⟩
  · exact absurd htype (by decide)
  · obtain ⟨earlier, hsuffix, hhashed', -⟩ := hsound.of_mem hm
    obtain rfl := hsound.hashed_inj (hsuffix.subset hhashed') hhashed hdigest
    exact ⟨device, keys, hm⟩

theorem accepted_deviceFinished {psk key : Block 32} {tag : Bytes} {sessionId : UInt32}
    {transcript : Transcript} (hsound : Sound sha256 hashes Secret deployment history)
    (hhashed : .hashed transcript ∈ history)
    (hallowed : MarkAllowed sha256 Secret history (.presented psk tag key
      (finishedMessage frameDeviceFinished sessionId (sha256 transcript))))
    (hsecret : Secret psk)
    (htag : (C0PQLink.finishedTag sha256 key frameDeviceFinished sessionId
      (sha256 transcript)).val = tag) :
    ∃ run client keys, .deviceFinished run client transcript keys ∈ history ∧
      client.sessionId = sessionId := by
  rw [finishedTag_message] at htag
  obtain ⟨m, hm, hreleased⟩ := hallowed hsecret htag
  rcases released_finished hreleased with ⟨-, run, client, transcript', keys, rfl, hid, hdigest⟩ |
    ⟨htype, -⟩
  · obtain ⟨earlier, hsuffix, h, hsent⟩ := hsound.of_mem hm
    obtain rfl := hsound.hashed_inj (hsuffix.subset hsent.hashed) hhashed hdigest
    exact ⟨run, client, keys, hm, hid⟩
  · exact absurd htype (by decide)

end

/-! ## The invariant of the network -/

/-- The device of a session is the one that its hello names. -/
def KnownDevice (session : Session) : Prop :=
  ∃ deviceId : Block 8, session.helloCore.length = 44 ∧
    slice session.helloCore 12 8 = deviceId.val ∧
    lookupDevice deployment.start deviceId = .ok (some session.device)

/-- The mark of the peer. -/
def HandshakeMark.ofPeer : HandshakeMark → Bool
  | .peerFinished .. => true
  | _ => false

/-- The sessions of the peer and the marks of its Finished frames belong together. -/
structure NetworkSound (network : Network) : Prop where
  devices : network.peer.devices = deployment.devices
  sessions : ∃ inputs, PeerInvariant sha256 decapsulate inputs network.peer
  known : ∀ sessionId session, network.peer.sessions sessionId = some session →
    KnownDevice deployment session
  history : Sound sha256 hashes Secret deployment network.history
  marked : ∀ sessionId session, network.peer.sessions sessionId = some session →
    session.established = true → ∃ keys,
      .peerFinished sessionId session.device (sessionInput session) keys ∈ network.history
  standing : ∀ sessionId device transcript keys,
    .peerFinished sessionId device transcript keys ∈ network.history →
      ∃ session, network.peer.sessions sessionId = some session ∧ session.established = true ∧
        session.device = device ∧ sessionInput session = transcript

def Network.Grows (network network' : Network) : Prop := network.history <:+ network'.history

theorem Network.grows_refl (network : Network) : network.Grows network :=
  List.suffix_refl network.history

theorem Network.grows_trans (network network' network'' : Network) (h : network.Grows network')
    (h' : network'.Grows network'') : network.Grows network'' := List.IsSuffix.trans h h'

/-- The rest of a connect only makes justified marks, whatever else happens on the network. -/
def DoesItsPart {α : Type} (p : MarkedClient α) (Q : α → Network → Prop) (network : Network) :
    Prop :=
  p.wpShared (clientStep sha256 Secret deployment) Network.Grows
    (NetworkSound sha256 hashes decapsulate Secret deployment) Q network

section

variable {sha256 hashes decapsulate Secret deployment} {network : Network}

/-- A mark that is not one of the peer. -/
theorem NetworkSound.mark (h : NetworkSound sha256 hashes decapsulate Secret deployment network)
    {m : HandshakeMark} (hjustified : Justified sha256 hashes Secret deployment network.history m)
    (hclient : m.ofPeer = false) :
    NetworkSound sha256 hashes decapsulate Secret deployment
      { network with history := m :: network.history } where
  devices := h.devices
  sessions := h.sessions
  known := h.known
  history := ⟨hjustified, h.history⟩
  marked := fun sessionId session hsession hestablished => by
    obtain ⟨keys, hmem⟩ := h.marked sessionId session hsession hestablished
    exact ⟨keys, List.mem_cons_of_mem _ hmem⟩
  standing := fun sessionId device transcript keys hmem => by
    rcases List.mem_cons.mp hmem with rfl | hmem
    · cases hclient
    · exact h.standing sessionId device transcript keys hmem

/-- A mark of a client, which has to be justified, and what follows it. -/
theorem mark_doesItsPart {α : Type} {m : HandshakeMark} {f : Unit → MarkedClient α}
    {Q : α → Network → Prop}
    (hclient : m.ofPeer = false)
    (h : ∀ s : Network, network.history <:+ s.history →
      NetworkSound sha256 hashes decapsulate Secret deployment s →
      MarkAllowed sha256 Secret s.history m →
      Justified sha256 hashes Secret deployment s.history m ∧
        (NetworkSound sha256 hashes decapsulate Secret deployment
            { s with history := m :: s.history } →
          DoesItsPart sha256 hashes decapsulate Secret deployment (f ()) Q
            { s with history := m :: s.history })) :
    DoesItsPart sha256 hashes decapsulate Secret deployment (mark m >>= f) Q network := by
  rintro s hs hsound reply s' ⟨hallowed, rfl⟩
  obtain ⟨hjustified, hrest⟩ := h s hs hsound hallowed
  have hsound' := hsound.mark hjustified hclient
  exact ⟨List.suffix_cons m s.history, hsound', hrest hsound'⟩

/-- Calls of a client, by the values that they can return, and what follows them. -/
theorem calls_doesItsPart {α β : Type} {p : ClientProgram α} {P : α → Prop}
    {f : α → MarkedClient β} {Q : β → Network → Prop}
    (hp : p.Returns (KeyReply deployment.publicKey) P)
    (hsound : NetworkSound sha256 hashes decapsulate Secret deployment network)
    (h : ∀ a (s : Network), P a → network.history <:+ s.history →
      NetworkSound sha256 hashes decapsulate Secret deployment s →
      DoesItsPart sha256 hashes decapsulate Secret deployment (f a) Q s) :
    DoesItsPart sha256 hashes decapsulate Secret deployment (onClient p >>= f) Q network :=
  lift_wpShared Network.grows_refl Network.grows_trans (fun _ _ _ _ hstep => hstep) hp h hsound

/-! ## The client -/

theorem SentFinished.mono {history history' : History} {run : Nat} {client : Client}
    {transcript : Transcript} {keys : SessionKeys} {h : Handshake}
    (hsent : SentFinished sha256 hashes deployment history run client transcript keys h)
    (hsuffix : history <:+ history') :
    SentFinished sha256 hashes deployment history' run client transcript keys h :=
  { hsent with
    drawn := hsuffix.subset hsent.drawn
    hashed := hsuffix.subset hsent.hashed }

theorem checkFinished_tag {serverFinishedKey : Block 32} {sessionId : UInt32}
    {transcriptHash : Block 32} {frame : Bytes}
    (h : checkFinished sha256 serverFinishedKey sessionId transcriptHash frame = .ok) :
    (C0PQLink.finishedTag sha256 serverFinishedKey frameServerFinished sessionId
      transcriptHash).val = slice frame 10 16 := by
  unfold checkFinished at h
  split at h
  · cases h
  split at h
  · cases h
  split at h
  · assumption
  · cases h

/-- The Finished exchange of a client that has everything to send its Finished. -/
theorem markedFinished_doesItsPart {run : Nat} {client : Client} {transcript : Transcript}
    {keys : SessionKeys} {h : Handshake} (stack : FrameBuffer)
    (hsent : SentFinished sha256 hashes deployment network.history run client transcript keys h) :
    DoesItsPart sha256 hashes decapsulate Secret deployment
      (markedFinished sha256 run client keys transcript stack)
      (fun status s => .deviceFinished run client transcript keys ∈ s.history ∧
        (status = .ok → Secret client.config.psk → ∃ device keys',
          .peerFinished client.sessionId device transcript keys' ∈ s.history)) network := by
  refine mark_doesItsPart rfl fun s1 h1 _ _ => ⟨⟨h, hsent.mono h1⟩, fun hsound1 => ?_⟩
  refine calls_doesItsPart (Program.wp_true _ ()) hsound1 fun outcome s2 _ h2 hsound2 => ?_
  obtain ⟨result, buffer⟩ := outcome
  have hfinished2 : .deviceFinished run client transcript keys ∈ s2.history :=
    h2.subset List.mem_cons_self
  have hhashed2 : .hashed transcript ∈ s2.history :=
    h2.subset (List.mem_cons_of_mem _ (h1.subset hsent.hashed))
  dsimp only
  split
  · rename_i hfailed
    exact wpShared_pure fun s3 h3 _ => ⟨h3.subset hfinished2, fun hok => absurd hok hfailed⟩
  refine mark_doesItsPart rfl fun s3 h3 hsound3 hallowed3 => ⟨trivial, fun _ => ?_⟩
  refine wpShared_pure fun s4 h4 _ => ?_
  have hgrows := (List.suffix_cons _ s3.history).trans h4
  refine ⟨hgrows.subset (h3.subset hfinished2), fun hok hsecret => ?_⟩
  obtain ⟨device, keys', hpeer⟩ := accepted_serverFinished hsound3.history (h3.subset hhashed2)
    hallowed3 hsecret (checkFinished_tag hok)
  exact ⟨device, keys', hgrows.subset hpeer⟩

theorem markedHandshake_doesItsPart {run : Nat} {client : Client} {deviceNonce : Block 16}
    (stack : FrameBuffer) (hprovisioned : deployment.Provisions client.config)
    (hid : client.sessionId = sessionIdOf deviceNonce)
    (hsound : NetworkSound sha256 hashes decapsulate Secret deployment network)
    (hdrawn : .drawn run deviceNonce ∈ network.history) :
    DoesItsPart sha256 hashes decapsulate Secret deployment
      (markedHandshake sha256 hashes loadZeta run client deviceNonce stack)
      (fun result s => ∀ keys, result = .ok keys → ∃ transcript,
        .clientEstablished run (client.establish keys) transcript ∈ s.history) network := by
  have hfailed (failure : Status) (s : Network) : DoesItsPart sha256 hashes decapsulate Secret
      deployment (pure (Except.error failure)) (fun (result : Except Status SessionKeys) s =>
        ∀ keys, result = .ok keys → ∃ transcript,
          .clientEstablished run (client.establish keys) transcript ∈ s.history) s :=
    wpShared_pure fun _ _ _ _ heq => by cases heq
  refine calls_doesItsPart (requestChallenge_returns sha256 client stack deviceNonce) hsound
    fun requested s1 hrequested h1 hsound1 => ?_
  rcases requested with failure | ⟨challenge, transcript⟩
  · exact hfailed failure s1
  obtain ⟨hsuite, hepoch, hkeyId, hnonce, htranscript⟩ := hrequested challenge transcript rfl
  refine calls_doesItsPart
    (sendTranscript_returns sha256 client stack hashes challenge transcript) hsound1
    fun sent s2 hsent h2 hsound2 => ?_
  rcases sent with failure | ⟨sharedSecret, transcript'⟩
  · exact hfailed failure s2
  obtain ⟨randomness, hsecret, htranscript'⟩ := hsent sharedSecret transcript' rfl
  -- the handshake that the transcript belongs to
  let h : Handshake :=
    ⟨client, deployment.publicKey, deviceNonce, challenge.serverNonce, randomness⟩
  have hchallenge : challenge = h.challenge := by
    obtain ⟨suite, epoch, keyId, nonce, serverNonce⟩ := challenge
    simp only at hsuite hepoch hkeyId hnonce
    subst hsuite hepoch hkeyId hnonce
    rfl
  have hwhole : transcript' = h.transcript hashes := by
    rw [htranscript', htranscript, hchallenge, hid]
    rfl
  refine mark_doesItsPart rfl fun s3 h3 _ hallowed3 => ⟨hallowed3, fun hsound3 => ?_⟩
  cases hkeys : deriveSessionKeys sha256 client.config.psk sharedSecret (sha256 transcript') with
  | error failure => exact hfailed failure _
  | ok keys =>
    have hgrows := h1.trans (h2.trans (h3.trans
      (List.suffix_cons (.hashed transcript') s3.history)))
    have hfinished : SentFinished sha256 hashes deployment
        (.hashed transcript' :: s3.history) run client transcript' keys h :=
      { config := rfl
        sessionId := hid
        publicKey := rfl
        provisioned := hprovisioned
        transcript_eq := hwhole
        drawn := hgrows.subset hdrawn
        hashed := List.mem_cons_self
        keys_eq := by
          rw [← hkeys, hsecret]
          rfl }
    refine wpShared_bind Network.grows_refl hsound3 (Program.wpShared_mono ?_
      (markedFinished_doesItsPart stack hfinished))
    rintro status s4 hsound4 ⟨hsent4, haccepted4⟩
    cases status with
    | ok =>
      refine mark_doesItsPart rfl fun s5 h5 _ _ => ⟨⟨client, keys, rfl, h5.subset hsent4, ?_⟩, ?_⟩
      · intro hpsk
        obtain ⟨device, keys', hpeer⟩ := haccepted4 rfl hpsk
        exact ⟨device, keys', h5.subset hpeer⟩
      · refine fun _ => wpShared_pure fun s6 h6 _ keys' heq => ?_
        cases heq
        exact ⟨transcript', h6.subset List.mem_cons_self⟩
    | _ => exact hfailed _ s4

/-- A connect that has succeeded has left its mark. -/
def Reports : (i : HandshakeThread) → i.Result → Network → Prop
  | .client run, result, network => result.status = .ok → result.client.state = .established →
      ∃ transcript, .clientEstablished run result.client transcript ∈ network.history
  | .peer, _, _ => True

theorem markedConnect_doesItsPart (run : Nat) {client : Client} (workspace : Workspace)
    (stack : FrameBuffer) (hprovisioned : deployment.Provisions client.config)
    (hsound : NetworkSound sha256 hashes decapsulate Secret deployment network) :
    DoesItsPart sha256 hashes decapsulate Secret deployment
      (markedConnect sha256 hashes loadZeta run client workspace stack) (Reports (.client run))
      network := by
  unfold markedConnect
  split
  · exact wpShared_pure fun _ _ _ hok => by cases hok
  refine calls_doesItsPart (Program.wp_true _ ()) hsound fun random s1 _ _ hsound1 => ?_
  obtain ⟨status, deviceNonce⟩ := random
  dsimp only
  split
  · exact wpShared_pure fun _ _ _ hok => by cases hok
  refine mark_doesItsPart rfl fun s2 _ _ hallowed2 => ⟨hallowed2, fun hsound2 => ?_⟩
  refine wpShared_bind Network.grows_refl hsound2 (Program.wpShared_mono ?_
    (markedHandshake_doesItsPart stack hprovisioned rfl hsound2 List.mem_cons_self))
  rintro (failure | keys) s3 _ hestablished
  · exact wpShared_pure fun _ _ _ _ hstate => by cases hstate
  · obtain ⟨transcript, hmem⟩ := hestablished keys rfl
    exact wpShared_pure fun s4 h4 _ _ _ => ⟨transcript, h4.subset hmem⟩

/-! ## The peer -/

/-- What the peer has looked at before it checks the tag of a first Finished. -/
theorem finishing_cases {peer : Peer} {frame : Bytes} {session : Session} {keys : SessionKeys}
    (h : finishing sha256 decapsulate peer frame = some (session, keys)) :
    ∃ header, ReferencePeer.decodeHeader frame = .ok header ∧ header.type = frameDeviceFinished ∧
      header.flags = 0 ∧ header.payloadLength = 16 ∧ frame.length = 26 ∧
      peer.sessions header.sessionId = some session ∧ session.serverFinishedFrame = none ∧
      (∀ i < 16, session.received i = true) ∧ session.Derives sha256 decapsulate keys := by
  unfold finishing at h
  split at h
  · cases h
  rename_i header hheader
  split at h
  swap
  · cases h
  rename_i hshape
  split at h
  · cases h
  rename_i session' hsession
  split at h
  swap
  · cases h
  rename_i hready
  split at h
  · cases h
  rename_i keys' hderives
  cases h
  exact ⟨header, hheader, hshape.1, hshape.2.1, hshape.2.2.1, hshape.2.2.2, hsession, hready.1,
    hready.2, hderives⟩

/-- A first Finished that verifies is one that the peer checks. -/
theorem finishing_of_verified {peer : Peer} {frame : Bytes} {session : Session}
    {keys : SessionKeys} {sessionId : UInt32} {transcriptHash : Block 32}
    (hsession : peer.sessions sessionId = some session)
    (hnone : session.serverFinishedFrame = none) (hreceived : ∀ i < 16, session.received i = true)
    (hderives : session.Derives sha256 decapsulate keys)
    (hverified : VerifiedFinished sha256 keys sessionId transcriptHash frame) :
    finishing sha256 decapsulate peer frame = some (session, keys) := by
  obtain ⟨header, hheader, htype, hflags, hpayload, rfl⟩ := hverified.header
  have hderived : ReferencePeer.deriveSessionKeys sha256 session.device.psk
      (decapsulate session.ciphertext) (sessionTranscript sha256 session) = .ok keys := hderives
  have hready : session.serverFinishedFrame = none ∧ ∀ i < 16, session.received i = true :=
    ⟨hnone, hreceived⟩
  simp only [finishing, hheader, htype, hflags, hpayload, hverified.length, hsession, hderived,
    and_self, if_true, if_pos hready]

/-- What a frame can do to the sessions of the peer: nothing, begin one, let one grow, or
accept the first Finished of one. -/
theorem afterFrame_change {peer : Peer} (hkeyed : peer.Keyed) (input : Input) :
    afterFrame sha256 decapsulate peer input = peer ∨
      (∃ parsed challengeFrame sessionAuthKey,
        parseHello sha256 input.frame (lookupDevice peer) = .ok parsed ∧
        peer.sessions parsed.header.sessionId = none ∧
        afterFrame sha256 decapsulate peer input = peer.setSession parsed.header.sessionId
          (newSession parsed input.frame challengeFrame sessionAuthKey)) ∨
      (∃ sessionId session session', peer.sessions sessionId = some session ∧
        afterFrame sha256 decapsulate peer input = peer.setSession sessionId session' ∧
        session.Grows session' ∧ session'.established = session.established) ∨
      ∃ session keys, finishing sha256 decapsulate peer input.frame = some (session, keys) ∧
        (C0PQLink.finishedTag sha256 keys.deviceFinishedKey frameDeviceFinished session.sessionId
          (sessionTranscript sha256 session)).val = input.frame.drop 10 := by
  have houtcome := frame_outcome sha256 decapsulate hkeyed input
  generalize respond sha256 decapsulate peer input = response,
    afterFrame sha256 decapsulate peer input = peer' at houtcome ⊢
  cases houtcome with
  | refused | helloKnown | finishedAgain | dataAgain => exact .inl rfl
  | helloNew hparsed hnone => exact .inr (.inl ⟨_, _, _, hparsed, hnone, rfl⟩)
  | fragment hsession hindex hlength _ hreplay =>
    exact .inr (.inr (.inl ⟨_, _, _, hsession, rfl, .store hindex hlength hreplay, rfl⟩))
  | failedFinish hsession hnone =>
    exact .inr (.inr (.inl ⟨_, _, _, hsession, rfl, .finish rfl hnone, rfl⟩))
  | finish hsession hnone hreceived hderives hverified =>
    have hfinishing := finishing_of_verified hsession hnone hreceived hderives hverified
    refine .inr (.inr (.inr ⟨_, _, hfinishing, ?_⟩))
    rw [hkeyed _ _ hsession]
    exact hverified.tag
  | failedAnswer _ _ hsession hkeys =>
    refine .inr (.inr (.inl ⟨_, _, _, hsession, rfl, .record rfl ?_, rfl⟩))
    rw [hkeys]
    rfl
  | @answered _ _ _ _ _ _ hsession hkeys _ _ _ _ answer _ _ hanswer =>
    cases answer with
    | none =>
      cases hanswer
      refine .inr (.inr (.inl ⟨_, _, _, hsession, rfl, .record rfl ?_, rfl⟩))
      rw [hkeys]
      rfl
    | some message =>
      cases hanswer
      refine .inr (.inr (.inl ⟨_, _, _, hsession, rfl, .record rfl ?_, rfl⟩))
      rw [hkeys]
      rfl

/-- The first Finished of a session, once its tag verifies. -/
theorem afterFrame_finish {peer : Peer} (hkeyed : peer.Keyed) {input : Input} {session : Session}
    {keys : SessionKeys}
    (hfinishing : finishing sha256 decapsulate peer input.frame = some (session, keys))
    (htag : (C0PQLink.finishedTag sha256 keys.deviceFinishedKey frameDeviceFinished
      session.sessionId (sessionTranscript sha256 session)).val = input.frame.drop 10) :
    peer.sessions session.sessionId = some session ∧ session.serverFinishedFrame = none ∧
      (∀ i < 16, session.received i = true) ∧
      afterFrame sha256 decapsulate peer input
        = peer.setSession session.sessionId (session.finish sha256 keys) := by
  obtain ⟨header, hheader, htype, hflags, hpayload, hlength, hsession, hnone, hreceived,
    hderives⟩ := finishing_cases hfinishing
  have hid := hkeyed _ _ hsession
  rw [hid] at htag ⊢
  have hresult := finishSession_first sha256 hheader hsession hid hnone hreceived hderives
    ⟨⟨header, hheader, htype, hflags, hpayload, rfl⟩, hlength, htag⟩
  have hnotHello : frameDeviceFinished ≠ frameHello := by decide
  have hnotFragment : frameDeviceFinished ≠ frameCiphertextFragment := by decide
  refine ⟨hsession, hnone, hreceived, ?_⟩
  simp only [afterFrame, handleFrame, hheader, htype, if_neg hnotHello, if_neg hnotFragment,
    if_true, hresult]
  rfl

/-- A session that has its whole ciphertext keeps the input of its transcript hash. -/
theorem sessionInput_grows {session session' : Session} (hgrows : session.Grows session')
    (hreceived : ∀ i < 16, session.received i = true) :
    sessionInput session' = sessionInput session := by
  obtain ⟨-, -, hhello, hchallenge, -⟩ := hgrows.fixed
  have hciphertext : session'.ciphertext.val = session.ciphertext.val := by
    refine eq_of_slices (show _ = 48 * 16 from Block.length_val _)
      (show _ = 48 * 16 from Block.length_val _) fun j hj => ?_
    rw [Nat.mul_comm]
    exact (hgrows.received j hj (hreceived j hj)).2
  rw [sessionInput, sessionInput, hhello, hchallenge, hciphertext]

/-- The device of a session that a hello begins. -/
theorem knownDevice_new {peer : Peer} {frame challengeFrame : Bytes} {sessionAuthKey : Block 32}
    {parsed : ParsedHello} (hdevices : peer.devices = deployment.devices)
    (hparsed : parseHello sha256 frame (lookupDevice peer) = .ok parsed) :
    KnownDevice deployment (newSession parsed frame challengeFrame sessionAuthKey) := by
  have haccepted := parseHello_ok sha256 hparsed
  refine ⟨parsed.deviceId, ?_, ?_, ?_⟩
  · change (slice frame 0 44).length = 44
    rw [length_slice, haccepted.length]
    rfl
  · change slice (slice frame 0 44) 12 8 = _
    rw [slice_slice frame 0 (by decide), haccepted.deviceId]
  · rw [← lookupDevice_eq (show peer.devices = deployment.start.devices from hdevices)]
    exact haccepted.device

theorem KnownDevice.grows {session session' : Session} (h : KnownDevice deployment session)
    (hgrows : session.Grows session') : KnownDevice deployment session' := by
  obtain ⟨-, hdevice, hhello, -⟩ := hgrows.fixed
  obtain ⟨deviceId, hlength, hslice, hlookup⟩ := h
  exact ⟨deviceId, by rw [hhello, hlength], by rw [hhello, hslice], by rw [hdevice, hlookup]⟩

/-- An established session has its whole ciphertext. -/
theorem NetworkSound.received
    (h : NetworkSound sha256 hashes decapsulate Secret deployment network) {sessionId : UInt32}
    {session : Session} (hsession : network.peer.sessions sessionId = some session)
    (hestablished : session.established = true) : ∀ i < 16, session.received i = true := by
  obtain ⟨inputs, hinvariant⟩ := h.sessions
  obtain ⟨keys, response, hfinished⟩ :=
    (hinvariant sessionId session hsession).finished_of (.inr hestablished)
  exact hfinished.received

/-- A frame that establishes no session: the established ones were so before it, and stay. -/
theorem afterFrame_other (h : NetworkSound sha256 hashes decapsulate Secret deployment network)
    {input : Input} (hother : ∀ session keys,
      finishing sha256 decapsulate network.peer input.frame = some (session, keys) →
      (C0PQLink.finishedTag sha256 keys.deviceFinishedKey frameDeviceFinished session.sessionId
        (sessionTranscript sha256 session)).val ≠ input.frame.drop 10)
    (sessionId : UInt32) :
    (∀ session', (afterFrame sha256 decapsulate network.peer input).sessions sessionId
        = some session' → KnownDevice deployment session' ∧ (session'.established = true →
          ∃ session, network.peer.sessions sessionId = some session ∧
            session.established = true ∧ session.Grows session')) ∧
      ∀ session, network.peer.sessions sessionId = some session → session.established = true →
        ∃ session', (afterFrame sha256 decapsulate network.peer input).sessions sessionId
          = some session' ∧ session'.established = true ∧ session.Grows session' := by
  obtain ⟨inputs, hinvariant⟩ := h.sessions
  have hsame (session : Session) (hsession : network.peer.sessions sessionId = some session) :
      KnownDevice deployment session ∧ (session.established = true →
        ∃ before, network.peer.sessions sessionId = some before ∧ before.established = true ∧
          before.Grows session) :=
    ⟨h.known _ _ hsession, fun hestablished => ⟨session, hsession, hestablished, .refl session⟩⟩
  rcases afterFrame_change hinvariant.keyed input with hafter |
    ⟨parsed, challengeFrame, sessionAuthKey, hparsed, hnone, hafter⟩ |
    ⟨id, session, session', hsession, hafter, hgrows, hestablished⟩ |
    ⟨session, keys, hfinishing, htag⟩
  · rw [hafter]
    exact ⟨hsame, fun session hsession hest => ⟨session, hsession, hest, .refl session⟩⟩
  · rw [hafter]
    by_cases hid : sessionId = parsed.header.sessionId
    · subst hid
      rw [Peer.setSession_same]
      refine ⟨fun session' heq => ?_, fun session hsession => ?_⟩
      · obtain rfl := Option.some.inj heq
        exact ⟨knownDevice_new h.devices hparsed, fun hest => by cases hest⟩
      · rw [hnone] at hsession
        cases hsession
    · rw [Peer.setSession_other _ _ hid]
      exact ⟨hsame, fun session hsession hest => ⟨session, hsession, hest, .refl session⟩⟩
  · rw [hafter]
    by_cases hid : sessionId = id
    · subst hid
      rw [Peer.setSession_same]
      refine ⟨fun other heq => ?_, fun other hother hest => ?_⟩
      · obtain rfl := Option.some.inj heq
        refine ⟨(h.known _ _ hsession).grows hgrows, fun hest => ⟨session, hsession, ?_, hgrows⟩⟩
        rw [← hestablished]
        exact hest
      · obtain rfl := Option.some.inj (hsession.symm.trans hother)
        exact ⟨session', rfl, hestablished.trans hest, hgrows⟩
    · rw [Peer.setSession_other _ _ hid]
      exact ⟨hsame, fun session hsession hest => ⟨session, hsession, hest, .refl session⟩⟩
  · exact absurd htag (hother session keys hfinishing)

theorem NetworkSound.afterFrame_other
    (h : NetworkSound sha256 hashes decapsulate Secret deployment network) {input : Input}
    (hother : ∀ session keys,
      finishing sha256 decapsulate network.peer input.frame = some (session, keys) →
      (C0PQLink.finishedTag sha256 keys.deviceFinishedKey frameDeviceFinished session.sessionId
        (sessionTranscript sha256 session)).val ≠ input.frame.drop 10) :
    NetworkSound sha256 hashes decapsulate Secret deployment
      { network with peer := afterFrame sha256 decapsulate network.peer input } := by
  obtain ⟨inputs, hinvariant⟩ := h.sessions
  have hchange := Link.afterFrame_other h hother
  refine ⟨(afterFrame_grows hinvariant.keyed input).devices.trans h.devices,
    ⟨_, hinvariant.afterFrame input⟩, fun sessionId session' hsession' => ?_, h.history,
    fun sessionId session' hsession' hestablished => ?_,
    fun sessionId device transcript keys hmem => ?_⟩
  · exact ((hchange sessionId).1 session' hsession').1
  · obtain ⟨session, hsession, hest, hgrows⟩ :=
      ((hchange sessionId).1 session' hsession').2 hestablished
    obtain ⟨keys, hmem⟩ := h.marked sessionId session hsession hest
    refine ⟨keys, ?_⟩
    rw [hgrows.fixed.2.1, sessionInput_grows hgrows (h.received hsession hest)]
    exact hmem
  · obtain ⟨session, hsession, hest, rfl, rfl⟩ := h.standing sessionId device transcript keys hmem
    obtain ⟨session', hsession', hest', hgrows⟩ := (hchange sessionId).2 session hsession hest
    exact ⟨session', hsession', hest', hgrows.fixed.2.1,
      sessionInput_grows hgrows (h.received hsession hest)⟩

/-- The first Finished of a session, behind the marks of its check. -/
theorem NetworkSound.afterFrame_finish
    (h : NetworkSound sha256 hashes decapsulate Secret deployment network) {input : Input}
    {session : Session} {keys : SessionKeys}
    (hfinishing : finishing sha256 decapsulate network.peer input.frame = some (session, keys))
    (htag : (C0PQLink.finishedTag sha256 keys.deviceFinishedKey frameDeviceFinished
      session.sessionId (sessionTranscript sha256 session)).val = input.frame.drop 10)
    (hhashed : .hashed (sessionInput session) ∈ network.history)
    (hclient : Secret session.device.psk → ∃ run client keys,
      .deviceFinished run client (sessionInput session) keys ∈ network.history ∧
        client.sessionId = session.sessionId) :
    NetworkSound sha256 hashes decapsulate Secret deployment
      ⟨afterFrame sha256 decapsulate network.peer input,
        .peerFinished session.sessionId session.device (sessionInput session) keys
          :: network.history⟩ := by
  obtain ⟨inputs, hinvariant⟩ := h.sessions
  obtain ⟨hsession, hnone, hreceived, hafter⟩ :=
    Link.afterFrame_finish hinvariant.keyed hfinishing htag
  have hnot : session.established ≠ true := by
    have hunfinished := ((hinvariant _ _ hsession).unfinished hnone).2.1
    rw [hunfinished]
    exact Bool.false_ne_true
  have hinvariant' := hinvariant.afterFrame input
  rw [hafter] at hinvariant' ⊢
  refine ⟨h.devices, ⟨_, hinvariant'⟩, fun sessionId other hother => ?_,
    ⟨⟨hhashed, hclient⟩, h.history⟩, fun sessionId other hother hestablished => ?_,
    fun sessionId device transcript keys' hmem => ?_⟩
  · by_cases hid : sessionId = session.sessionId
    · subst hid
      rw [Peer.setSession_same] at hother
      obtain rfl := Option.some.inj hother
      have hknown := h.known _ _ hsession
      exact hknown
    · rw [Peer.setSession_other _ _ hid] at hother
      exact h.known _ _ hother
  · by_cases hid : sessionId = session.sessionId
    · subst hid
      rw [Peer.setSession_same] at hother
      obtain rfl := Option.some.inj hother
      exact ⟨keys, List.mem_cons_self⟩
    · rw [Peer.setSession_other _ _ hid] at hother
      obtain ⟨keys', hmem⟩ := h.marked _ _ hother hestablished
      exact ⟨keys', List.mem_cons_of_mem _ hmem⟩
  · rcases List.mem_cons.mp hmem with heq | hmem
    · obtain ⟨rfl, rfl, rfl, rfl⟩ := HandshakeMark.peerFinished.inj heq
      exact ⟨session.finish sha256 keys', Peer.setSession_same .., rfl, rfl, rfl⟩
    · obtain ⟨other, hother, hestablished, hdevice, htranscript⟩ := h.standing _ _ _ _ hmem
      have hid : sessionId ≠ session.sessionId := by
        rintro rfl
        obtain rfl := Option.some.inj (hsession.symm.trans hother)
        exact hnot hestablished
      exact ⟨other, (Peer.setSession_other _ _ hid).trans hother, hestablished, hdevice,
        htranscript⟩

/-- Any frame, with what the peer checks of it. -/
theorem NetworkSound.deliver
    (h : NetworkSound sha256 hashes decapsulate Secret deployment network) {input : Input}
    (hallowed : MarksAllowed sha256 Secret network.history
      (peerMarks sha256 decapsulate network.peer input.frame)) :
    NetworkSound sha256 hashes decapsulate Secret deployment
      (network.deliver sha256 decapsulate input) := by
  unfold Network.deliver
  unfold peerMarks at hallowed ⊢
  rcases hfinishing : finishing sha256 decapsulate network.peer input.frame with _ | ⟨session, keys⟩
  · refine h.afterFrame_other fun session keys hsome => ?_
    rw [hfinishing] at hsome
    cases hsome
  · rw [hfinishing] at hallowed
    have hchecked (hhashed : MarkAllowed sha256 Secret network.history
        (.hashed (sessionInput session))) :=
      (h.mark (m := .hashed (sessionInput session)) hhashed rfl).mark
        (m := .presented session.device.psk (input.frame.drop 10) keys.deviceFinishedKey
          (finishedMessage frameDeviceFinished session.sessionId
            (sessionTranscript sha256 session)))
        trivial rfl
    simp only at hallowed ⊢
    split at hallowed
    · rename_i htag
      rw [if_pos htag]
      obtain ⟨-, hpresented, hhashed, -⟩ := hallowed
      have hmem : HandshakeMark.hashed (sessionInput session)
          ∈ HandshakeMark.hashed (sessionInput session) :: network.history := List.mem_cons_self
      refine (hchecked hhashed).afterFrame_finish hfinishing htag (List.mem_cons_of_mem _ hmem)
        fun hsecret => ?_
      have hsound := h.mark (m := .hashed (sessionInput session)) hhashed rfl
      obtain ⟨run, client, keys', hsent, hid⟩ :=
        accepted_deviceFinished hsound.history hmem hpresented hsecret htag
      exact ⟨run, client, keys', List.mem_cons_of_mem _ hsent, hid⟩
    · rename_i htag
      rw [if_neg htag]
      obtain ⟨-, hhashed, -⟩ := hallowed
      refine (hchecked hhashed).afterFrame_other fun session' keys' hsome => ?_
      obtain ⟨rfl, rfl⟩ := Prod.mk.inj (Option.some.inj (hfinishing.symm.trans hsome))
      exact htag

end

/-! ## Any order of steps -/

section

variable {sha256 hashes decapsulate Secret deployment} {network : Network}

theorem handshakeStart_doesItsPart (i : HandshakeThread) (s : Network)
    (p : Program i.Call i.Reply i.Result) (s' : Network)
    (hsound : NetworkSound sha256 hashes decapsulate Secret deployment s)
    (hstart : handshakeStart sha256 hashes decapsulate Secret deployment i s p s') :
    s.Grows s' ∧ NetworkSound sha256 hashes decapsulate Secret deployment s' ∧
      p.wpShared (handshakeStep sha256 Secret deployment i) Network.Grows
        (NetworkSound sha256 hashes decapsulate Secret deployment) (Reports i) s' := by
  cases i with
  | client run =>
    obtain ⟨-, rfl, client, workspace, stack, hprovisioned, rfl⟩ := hstart
    have hsound' := hsound.mark (m := .started run) trivial rfl
    exact ⟨List.suffix_cons _ s.history, hsound',
      markedConnect_doesItsPart run workspace stack hprovisioned hsound'⟩
  | peer =>
    obtain ⟨rfl, input, hallowed, rfl⟩ := hstart
    exact ⟨List.suffix_append _ s.history, hsound.deliver hallowed,
      wpShared_pure fun _ _ _ => trivial⟩

theorem idle_sound : NetworkSound sha256 hashes decapsulate Secret deployment
    ⟨deployment.start, []⟩ where
  devices := rfl
  sessions := ⟨[], startPeer_invariant _ _ _⟩
  known := fun sessionId session hsession => by cases hsession
  history := trivial
  marked := fun sessionId session hsession => by cases hsession
  standing := fun sessionId device transcript keys hmem => by cases hmem

theorem Steps.safe {pool : HandshakePool}
    (hreached : Steps sha256 hashes decapsulate Secret deployment deployment.idle pool) :
    pool.Safe (handshakeStep sha256 Secret deployment) Network.Grows
      (NetworkSound sha256 hashes decapsulate Secret deployment) Reports := by
  refine Pool.invariant Network.grows_refl Network.grows_trans
    handshakeStart_doesItsPart hreached ⟨idle_sound, fun i => ?_⟩
  cases i with
  | client run => exact fun _ _ _ hok => by cases hok
  | peer => exact fun _ _ _ => trivial

theorem NetworkReached.sound
    (h : NetworkReached sha256 hashes decapsulate Secret deployment network) :
    NetworkSound sha256 hashes decapsulate Secret deployment network := by
  obtain ⟨pool, rfl, hreached⟩ := h
  exact (Steps.safe hreached).invariant

end

/-! ## Agreement -/

/-- A session of the peer and a client that connects have the same handshake: identifier,
device, transcript and keys, of which the peer has used some for records. -/
structure SessionAgrees (session : Session) (connecting : Client) (h : Handshake)
    (keys : SessionKeys) : Prop where
  established : session.established = true
  config : h.client.config = connecting.config
  sessionId : connecting.sessionId = h.sessionId ∧ session.sessionId = h.sessionId
  device : session.device = ⟨connecting.config.psk, connecting.config.mode⟩
  helloCore : session.helloCore = helloCore h.sessionId h.hello
  challengeCore : session.challengeCore = challengeCore h.sessionId h.challenge
  ciphertext : session.ciphertext = h.ciphertext hashes
  derived : deriveSessionKeys sha256 connecting.config.psk (h.sharedSecret hashes)
    (sha256 (h.transcript hashes)) = .ok keys
  keys_eq : session.keys = some (advancedKeys sha256 connecting.config.mode keys
    session.receiveSequence session.sendSequence)

/-- What each end knows of the other one. -/
structure HandshakeAgreement (network : Network) : Prop where
  client : ∀ run client transcript, .clientEstablished run client transcript ∈ network.history →
    Secret client.config.psk → ∃ session connecting h keys,
      network.peer.sessions client.sessionId = some session ∧
        client = connecting.establish keys ∧ transcript = h.transcript hashes ∧
        SessionAgrees sha256 hashes session connecting h keys
  peer : ∀ sessionId session, network.peer.sessions sessionId = some session →
    session.established = true → Secret session.device.psk → ∃ run connecting h keys,
      .deviceFinished run connecting (h.transcript hashes) keys ∈ network.history ∧
        SessionAgrees sha256 hashes session connecting h keys ∧
        ∀ run' connecting' keys',
          .deviceFinished run' connecting' (h.transcript hashes) keys' ∈ network.history →
            run' = run
  oneRun : ∀ run run' client client' transcript transcript',
    .clientEstablished run client transcript ∈ network.history →
    .clientEstablished run' client' transcript' ∈ network.history →
    Secret client.config.psk → Secret client'.config.psk →
    client.sessionId = client'.sessionId → run = run'

section

variable {sha256 hashes decapsulate Secret deployment} {network : Network}

/-- The input of the transcript hash of a session, taken apart. -/
theorem sessionInput_transcript {session : Session} {h : Handshake}
    (hknown : KnownDevice deployment session) (hsame : sessionInput session = h.transcript hashes) :
    session.helloCore = helloCore h.sessionId h.hello ∧
      session.challengeCore = challengeCore h.sessionId h.challenge ∧
      session.ciphertext = h.ciphertext hashes := by
  obtain ⟨deviceId, hlength, -⟩ := hknown
  obtain ⟨hcores, hciphertext⟩ := List.append_inj' hsame (by simp only [Block.length_val])
  rw [List.append_assoc, List.append_assoc] at hcores
  obtain ⟨hhello, hchallenge⟩ := List.append_inj (List.append_cancel_left hcores)
    (by rw [hlength, length_helloCore])
  exact ⟨hhello, hchallenge, Block.ext hciphertext⟩

/-- The device that a hello names. -/
theorem slice_helloCore_deviceId (sessionId : UInt32) (hello : Hello) :
    slice (helloCore sessionId hello) 12 8 = hello.deviceId.val := by
  rw [helloCore, writeHeader_of_le (show (50 : UInt16) ≤ 255 by decide), List.append_assoc]
  exact slice_field rfl (Block.length_val _)

/-- An established session and a client that sent its Finished for the same transcript. -/
theorem sessionAgrees_of_transcript
    (hsound : NetworkSound sha256 hashes decapsulate Secret deployment network)
    {sessionId : UInt32} {session : Session} {history : History} {run : Nat} {connecting : Client}
    {keys : SessionKeys} {h : Handshake}
    (hinverts : decapsulate (h.ciphertext hashes) = h.sharedSecret hashes)
    (hsession : network.peer.sessions sessionId = some session)
    (hestablished : session.established = true) (hid : connecting.sessionId = sessionId)
    (hsent : SentFinished sha256 hashes deployment history run connecting (sessionInput session)
      keys h) : SessionAgrees sha256 hashes session connecting h keys := by
  obtain ⟨inputs, hinvariant⟩ := hsound.sessions
  have hinvariant := hinvariant sessionId session hsession
  obtain ⟨derived, response, hfinished⟩ := hinvariant.finished_of (.inr hestablished)
  have hknown := hsound.known sessionId session hsession
  obtain ⟨hhello, hchallenge, hciphertext⟩ := sessionInput_transcript hknown hsent.transcript_eq
  have hdevice : session.device = ⟨connecting.config.psk, connecting.config.mode⟩ := by
    obtain ⟨deviceId, -, hslice, hlookup⟩ := hknown
    rw [hhello, slice_helloCore_deviceId] at hslice
    obtain rfl : connecting.config.deviceId = deviceId := by
      rw [← hsent.config]
      exact Block.ext hslice
    exact Option.some.inj (Except.ok.inj (hlookup.symm.trans hsent.provisioned))
  have hkeys := hsent.keys_eq
  have hsame : derived = keys := by
    have hderives := hfinished.derives
    rw [Session.Derives, hciphertext, hinverts, hdevice] at hderives
    obtain ⟨keys', hpeer, hclient⟩ := deriveSessionKeys_eq_client sha256 connecting.config.psk
      (h.sharedSecret hashes) (sha256 (sessionInput session))
    have hpeer' := Except.ok.inj (hpeer.symm.trans hderives)
    have hclient' := Except.ok.inj (hclient.symm.trans hkeys)
    exact hpeer'.symm.trans hclient'
  rw [hsent.transcript_eq] at hkeys
  have hadvanced := hfinished.keys_eq
  rw [hsame, hdevice] at hadvanced
  exact
    { established := hestablished
      config := hsent.config
      sessionId := ⟨hsent.sessionId, hinvariant.sessionId_eq.trans (hid.symm.trans hsent.sessionId)⟩
      device := hdevice
      helloCore := hhello
      challengeCore := hchallenge
      ciphertext := hciphertext
      derived := hkeys
      keys_eq := hadvanced }

/-- Two connects that send a Finished for one transcript are the same one. -/
theorem SentFinished.same_run {earlier earlier' history : History} {run run' : Nat}
    {client client' : Client} {transcript : Transcript} {keys keys' : SessionKeys}
    {h h' : Handshake} (hsound : Sound sha256 hashes Secret deployment history)
    (hsent : SentFinished sha256 hashes deployment earlier run client transcript keys h)
    (hsent' : SentFinished sha256 hashes deployment earlier' run' client' transcript keys' h')
    (hsuffix : earlier <:+ history) (hsuffix' : earlier' <:+ history) : run' = run := by
  have hsame := hsent.transcript_eq.symm.trans hsent'.transcript_eq
  have hnonce : h.deviceNonce = h'.deviceNonce := by
    obtain ⟨hcores, -⟩ := List.append_inj' hsame (by simp only [Block.length_val])
    obtain ⟨hhello, -⟩ := List.append_inj' hcores (by simp only [length_challengeCore])
    obtain ⟨-, hnonce⟩ := List.append_inj' (List.append_cancel_left hhello)
      (by simp only [Block.length_val])
    exact Block.ext hnonce
  have hdrawn := hsuffix'.subset hsent'.drawn
  rw [← hnonce] at hdrawn
  exact hsound.drawn_inj hdrawn (hsuffix.subset hsent.drawn)

/-- The session at the peer of a client that a connect has established. -/
theorem NetworkSound.session_of_client
    (hsound : NetworkSound sha256 hashes decapsulate Secret deployment network)
    (hinverts : ∀ (h : Handshake) run client keys, h.publicKey = deployment.publicKey →
      .deviceFinished run client (h.transcript hashes) keys ∈ network.history →
      decapsulate (h.ciphertext hashes) = h.sharedSecret hashes)
    {run : Nat} {client : Client} {transcript : Transcript}
    (hmem : .clientEstablished run client transcript ∈ network.history)
    (hsecret : Secret client.config.psk) : ∃ session connecting h keys earlier,
      network.peer.sessions client.sessionId = some session ∧
        sessionInput session = transcript ∧ client = connecting.establish keys ∧
        .deviceFinished run connecting transcript keys ∈ network.history ∧
        earlier <:+ network.history ∧
        SentFinished sha256 hashes deployment earlier run connecting transcript keys h ∧
        SessionAgrees sha256 hashes session connecting h keys := by
  obtain ⟨earlier, hsuffix, connecting, keys, rfl, hmem', hpeer⟩ := hsound.history.of_mem hmem
  obtain ⟨device, keys', hfinished⟩ := hpeer hsecret
  obtain ⟨session, hsession, hestablished, -, rfl⟩ :=
    hsound.standing _ device transcript keys' (hsuffix.subset hfinished)
  have hmem' := hsuffix.subset hmem'
  obtain ⟨before, hbefore, h, hsent⟩ := hsound.history.of_mem hmem'
  have hfinishedClient := hmem'
  rw [hsent.transcript_eq] at hfinishedClient
  exact ⟨session, connecting, h, keys, before, hsession, rfl, rfl, hmem', hbefore, hsent,
    sessionAgrees_of_transcript hsound (hinverts h run connecting keys hsent.publicKey
      hfinishedClient) hsession hestablished rfl hsent⟩

/-- The connect that an established session of the peer belongs to. -/
theorem NetworkSound.client_of_session
    (hsound : NetworkSound sha256 hashes decapsulate Secret deployment network)
    (hinverts : ∀ (h : Handshake) run client keys, h.publicKey = deployment.publicKey →
      .deviceFinished run client (h.transcript hashes) keys ∈ network.history →
      decapsulate (h.ciphertext hashes) = h.sharedSecret hashes)
    {sessionId : UInt32} {session : Session}
    (hsession : network.peer.sessions sessionId = some session)
    (hestablished : session.established = true) (hsecret : Secret session.device.psk) :
    ∃ run connecting h keys,
      .deviceFinished run connecting (h.transcript hashes) keys ∈ network.history ∧
        SessionAgrees sha256 hashes session connecting h keys ∧
        ∀ run' connecting' keys',
          .deviceFinished run' connecting' (h.transcript hashes) keys' ∈ network.history →
            run' = run := by
  obtain ⟨keys', hmem⟩ := hsound.marked sessionId session hsession hestablished
  obtain ⟨earlier, hsuffix, -, hclient⟩ := hsound.history.of_mem hmem
  obtain ⟨run, connecting, keys, hfinished, hid⟩ := hclient hsecret
  obtain ⟨before, hbefore, h, hsent⟩ := hsound.history.of_mem (hsuffix.subset hfinished)
  have hfinished' := hsuffix.subset hfinished
  have htranscript := hsent.transcript_eq
  rw [htranscript] at hfinished'
  have hagrees := sessionAgrees_of_transcript hsound
    (hinverts h run connecting keys hsent.publicKey hfinished') hsession hestablished hid hsent
  rw [htranscript] at hsent
  refine ⟨run, connecting, h, keys, hfinished', hagrees, fun run' connecting' keys'' hother => ?_⟩
  obtain ⟨before', hbefore', h', hsent'⟩ := hsound.history.of_mem hother
  exact hsent.same_run hsound.history hsent' hbefore hbefore'

end

/-- Agreement in every network that connects and frames can lead to, if the peer has the key
pair of the public key: `decapsulate` inverts the encapsulations of the clients. -/
theorem handshake_agreement {network : Network}
    (hreached : NetworkReached sha256 hashes decapsulate Secret deployment network)
    (hinverts : ∀ (h : Handshake) run client keys, h.publicKey = deployment.publicKey →
      .deviceFinished run client (h.transcript hashes) keys ∈ network.history →
      decapsulate (h.ciphertext hashes) = h.sharedSecret hashes) :
    HandshakeAgreement sha256 hashes Secret network := by
  have hsound := hreached.sound
  refine ⟨fun run client transcript hmem hsecret => ?_,
    fun sessionId session hsession hestablished hsecret =>
      hsound.client_of_session hinverts hsession hestablished hsecret,
    fun run run' client client' transcript transcript' hmem hmem' hsecret hsecret' hid => ?_⟩
  · obtain ⟨session, connecting, h, keys, earlier, hsession, -, hestablish, -, -, hsent, hagrees⟩ :=
      hsound.session_of_client hinverts hmem hsecret
    exact ⟨session, connecting, h, keys, hsession, hestablish, hsent.transcript_eq, hagrees⟩
  · obtain ⟨session, connecting, h, keys, earlier, hsession, hinput, -, -, hsuffix, hsent, -⟩ :=
      hsound.session_of_client hinverts hmem hsecret
    obtain ⟨session', connecting', h', keys', earlier', hsession', hinput', -, -, hsuffix', hsent',
      -⟩ := hsound.session_of_client hinverts hmem' hsecret'
    rw [hid] at hsession
    obtain rfl := Option.some.inj (hsession.symm.trans hsession')
    rw [← hinput] at hsent
    rw [← hinput'] at hsent'
    exact (hsent.same_run hsound.history hsent' hsuffix hsuffix').symm

/-! ## The results of the connects -/

/-- The secrets of an established client are the keys of the session at the peer, in the form
that the mode gives them. The chain keys of the peer go on from there with its records. -/
structure SharesKeys (client : Client) (session : Session) (keys : SessionKeys) : Prop where
  sendSecret : SecretOf client.config.mode client.sendSecret keys.clientTrafficKey
    keys.clientChainKey
  receiveSecret : SecretOf client.config.mode client.receiveSecret keys.serverTrafficKey
    keys.serverChainKey
  sendNonceBase : client.sendNonceBase = keys.clientNonceBase
  receiveNonceBase : client.receiveNonceBase = keys.serverNonceBase
  atPeer : session.keys = some (advancedKeys sha256 client.config.mode keys
    session.receiveSequence session.sendSequence)
  beforeRecords : session.receiveSequence = 0 → session.sendSequence = 0 → session.keys = some keys

/-- What the ends of the handshakes know: a client that has returned established, and an
established session of the peer. -/
structure ConnectAgreement (pool : HandshakePool) : Prop where
  client : ∀ run result, pool.threads (.client run) = .done result → result.status = .ok →
    result.client.state = .established → Secret result.client.config.psk →
    ∃ session connecting h keys,
      pool.state.peer.sessions result.client.sessionId = some session ∧
        .deviceFinished run connecting (h.transcript hashes) keys ∈ pool.state.history ∧
        result.client = connecting.establish keys ∧
        SessionAgrees sha256 hashes session connecting h keys ∧
        SharesKeys sha256 result.client session keys
  peer : ∀ sessionId session, pool.state.peer.sessions sessionId = some session →
    session.established = true → Secret session.device.psk → ∃ run connecting h keys,
      .deviceFinished run connecting (h.transcript hashes) keys ∈ pool.state.history ∧
        connecting.sessionId = sessionId ∧
        SessionAgrees sha256 hashes session connecting h keys ∧
        SharesKeys sha256 (connecting.establish keys) session keys ∧
        ∀ run' connecting' keys', .deviceFinished run' connecting' (h.transcript hashes) keys'
          ∈ pool.state.history → run' = run

section

variable {sha256 hashes}

theorem SessionAgrees.sharesKeys {session : Session} {connecting : Client} {h : Handshake}
    {keys : SessionKeys} (hagrees : SessionAgrees sha256 hashes session connecting h keys) :
    SharesKeys sha256 (connecting.establish keys) session keys where
  sendSecret := secretOf_establish connecting.config.mode _ _
  receiveSecret := secretOf_establish connecting.config.mode _ _
  sendNonceBase := rfl
  receiveNonceBase := rfl
  atPeer := hagrees.keys_eq
  beforeRecords := fun hreceive hsend => by
    rw [hagrees.keys_eq, hreceive, hsend]
    rfl

end

/-- Agreement for the clients that connects have returned, in every order of the steps. -/
theorem connect_agreement {pool : HandshakePool}
    (hreached : Steps sha256 hashes decapsulate Secret deployment deployment.idle pool)
    (hinverts : ∀ (h : Handshake) run client keys, h.publicKey = deployment.publicKey →
      .deviceFinished run client (h.transcript hashes) keys ∈ pool.state.history →
      decapsulate (h.ciphertext hashes) = h.sharedSecret hashes) :
    ConnectAgreement sha256 hashes Secret pool := by
  have hsafe := Steps.safe hreached
  have hsound := hsafe.invariant
  constructor
  · intro run result hdone hok hstate hsecret
    obtain ⟨transcript, hmem⟩ := hsafe.result Network.grows_refl hdone hok hstate
    obtain ⟨session, connecting, h, keys, earlier, hsession, -, hestablish, hfinished, -, hsent,
      hagrees⟩ := hsound.session_of_client hinverts hmem hsecret
    rw [hsent.transcript_eq] at hfinished
    refine ⟨session, connecting, h, keys, hsession, hfinished, hestablish, hagrees, ?_⟩
    rw [hestablish]
    exact hagrees.sharesKeys
  · intro sessionId session hsession hestablished hsecret
    obtain ⟨run, connecting, h, keys, hfinished, hagrees, hone⟩ :=
      hsound.client_of_session hinverts hsession hestablished hsecret
    obtain ⟨inputs, hinvariant⟩ := hsound.sessions
    have hid := (hinvariant sessionId session hsession).sessionId_eq
    exact ⟨run, connecting, h, keys, hfinished,
      hagrees.sessionId.1.trans (hagrees.sessionId.2.symm.trans hid), hagrees,
      hagrees.sharesKeys, hone⟩

end C0PQLink.Link
