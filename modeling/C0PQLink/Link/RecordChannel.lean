import Mathlib.Data.List.Nodup
import C0PQLink.ReferencePeer.Records
import C0PQLink.Session.Retransmission

/-!
# The record channel between client and peer

An established client and a peer session, an attacker who delivers any frame to either
end, and the records sealed so far. Ascon is used through two facts: decryption inverts
encryption, and a frame that is no forgery has its parts from an earlier encryption under
the key of the receiver.

* `Reachable.invariant`: each end stays in step with the records of the two directions.
* `reachable_recordsSafe`: requests reach the application once and in order, the last one
  is answered from the cache, and so are the responses for the client.
-/

namespace C0PQLink

open Foundation ReferencePeer

variable (sha256 : Bytes → Block 32)

/-! ## One direction -/

/-- What the handshake fixes for one direction. -/
structure Direction where
  mode : Int
  trafficKey : Block 16
  chainKey : Block 32
  nonceBase : Block 16
  sessionId : UInt32
  flags : UInt8

namespace Direction

/-- The chain key after `n` records; without the ratchet it stays as it is. -/
def chainAt (d : Direction) : Nat → Block 32
  | 0 => d.chainKey
  | n + 1 => nextChainKey sha256 d.mode (d.chainAt n)

/-- The record number `n` of the direction. -/
def record (d : Direction) (n : Nat) (plaintext : Bytes) : SealedRecord where
  key := messageKey sha256 d.mode d.trafficKey (d.chainAt sha256 n)
  nonce := makeRecordNonce d.nonceBase (UInt64.ofNat n)
  associatedData := recordData d.flags plaintext.length d.sessionId (UInt64.ofNat n)
  plaintext := plaintext

/-- The records sealed in the direction, the first one first. -/
structure Records (d : Direction) (sealed : List SealedRecord) : Prop where
  lt : sealed.length < 2 ^ 64
  eq : ∀ (n : Nat) (r : SealedRecord), sealed[n]? = some r → r = d.record sha256 n r.plaintext
  length : ∀ (n : Nat) (r : SealedRecord), sealed[n]? = some r →
    r.plaintext.length ≤ recordPlaintextMax

variable {sha256} {d : Direction} {sealed : List SealedRecord}

theorem Records.nil (d : Direction) : d.Records sha256 [] :=
  ⟨Nat.two_pow_pos 64, nofun, nofun⟩

theorem Records.append (h : d.Records sha256 sealed) {plaintext : Bytes}
    (hlength : plaintext.length ≤ recordPlaintextMax) (hlt : sealed.length + 1 < 2 ^ 64) :
    d.Records sha256 (sealed ++ [d.record sha256 sealed.length plaintext]) := by
  have hcases : ∀ n r, (sealed ++ [d.record sha256 sealed.length plaintext])[n]? = some r →
      sealed[n]? = some r ∨ n = sealed.length ∧ r = d.record sha256 sealed.length plaintext := by
    intro n r hr
    rcases Nat.lt_trichotomy n sealed.length with hn | rfl | hn
    · rw [List.getElem?_append_left hn] at hr
      exact .inl hr
    · rw [List.getElem?_append_right (Nat.le_refl _), Nat.sub_self] at hr
      exact .inr ⟨rfl, (Option.some.inj hr).symm⟩
    · rw [List.getElem?_eq_none (by simp; omega)] at hr
      cases hr
  refine ⟨by simpa using hlt, fun n r hr => ?_, fun n r hr => ?_⟩
  · rcases hcases n r hr with hold | ⟨rfl, rfl⟩
    · exact h.eq n r hold
    · rfl
  · rcases hcases n r hr with hold | ⟨rfl, rfl⟩
    · exact h.length n r hold
    · exact hlength

theorem Records.wellFormed (h : d.Records sha256 sealed) {n : Nat} {r : SealedRecord}
    (hr : sealed[n]? = some r) : r.WellFormed d.flags d.sessionId (UInt64.ofNat n) := by
  refine ⟨h.length n r hr, ?_⟩
  rw [h.eq n r hr]
  rfl

/-- A record of the direction is found by the flags and the number in its header. -/
theorem Records.flags_sequence (h : d.Records sha256 sealed) {n : Nat} {r : SealedRecord}
    (hr : sealed[n]? = some r) :
    byteAt r.frame 4 = d.flags ∧ load64BE (slice r.frame 10 8) = UInt64.ofNat n := by
  have hform := h.wellFormed hr
  refine ⟨?_, hform.sequence_frame⟩
  rw [SealedRecord.frame, hform.associatedData, recordData_eq d.flags hform.length]
  rfl

theorem Records.flags_of_mem (h : d.Records sha256 sealed) {r : SealedRecord} (hr : r ∈ sealed) :
    byteAt r.frame 4 = d.flags := by
  obtain ⟨n, hn, hget⟩ := List.getElem_of_mem hr
  exact (h.flags_sequence (by rw [List.getElem?_eq_getElem hn, hget])).1

/-- The number in its header tells which record of the direction a frame is. -/
theorem Records.getElem_of_sequence (h : d.Records sha256 sealed) {r : SealedRecord}
    (hr : r ∈ sealed) {n : Nat} (hsequence : load64BE (slice r.frame 10 8) = UInt64.ofNat n)
    (hn : n < 2 ^ 64) : sealed[n]? = some r := by
  obtain ⟨m, hm, hget⟩ := List.getElem_of_mem hr
  have hrecord : sealed[m]? = some r := by rw [List.getElem?_eq_getElem hm, hget]
  have hlt := h.lt
  have hnumber := congrArg UInt64.toNat ((h.flags_sequence hrecord).2.symm.trans hsequence)
  rw [UInt64.toNat_ofNat', UInt64.toNat_ofNat', Nat.mod_eq_of_lt (by omega),
    Nat.mod_eq_of_lt hn] at hnumber
  rw [← hnumber]
  exact hrecord

theorem Records.frames_nodup (h : d.Records sha256 sealed) :
    (sealed.map SealedRecord.frame).Nodup := by
  have hnumbers : (sealed.map fun r => load64BE (slice r.frame 10 8))
      = (List.range sealed.length).map UInt64.ofNat :=
    map_eq_map_range UInt64.ofNat fun n r hr => (h.flags_sequence hr).2
  have hnodup : ((List.range sealed.length).map UInt64.ofNat).Nodup := by
    refine List.Nodup.map_on ?_ List.nodup_range
    intro i hi j hj heq
    have hlt := h.lt
    rw [List.mem_range] at hi hj
    have htoNat := congrArg UInt64.toNat heq
    rwa [UInt64.toNat_ofNat', UInt64.toNat_ofNat', Nat.mod_eq_of_lt (by omega),
      Nat.mod_eq_of_lt (by omega)] at htoNat
  rw [← hnumbers] at hnodup
  have hcomp : (sealed.map fun r => load64BE (slice r.frame 10 8))
      = (sealed.map SealedRecord.frame).map fun frame => load64BE (slice frame 10 8) := by
    rw [List.map_map]
    rfl
  rw [hcomp] at hnodup
  exact List.Nodup.of_map _ hnodup

end Direction

/-! ## The ends of a direction -/

/-- The secret of the client holds the chain key with the ratchet, the traffic key without. -/
def SecretOf (mode : Int) (secret : Block 32) (trafficKey : Block 16) (chainKey : Block 32) :
    Prop :=
  if mode = pqBootstrapRatchet then secret = chainKey else secret.val.take 16 = trafficKey.val

theorem secretOf_establish (mode : Int) (trafficKey : Block 16) (chainKey : Block 32) :
    SecretOf mode
      (if mode = pqBootstrapRatchet then chainKey
        else ⟨trafficKey.val ++ List.replicate 16 0, by simp⟩) trafficKey chainKey := by
  unfold SecretOf
  split
  · rfl
  · exact List.take_left' trafficKey.property

theorem SecretOf.key {mode : Int} {secret chainKey : Block 32} {trafficKey : Block 16}
    (h : SecretOf mode secret trafficKey chainKey) :
    (selectKey sha256 mode secret).1 = messageKey sha256 mode trafficKey chainKey := by
  unfold SecretOf at h
  by_cases hmode : mode = pqBootstrapRatchet
  · rw [if_pos hmode] at h
    rw [selectKey, if_pos hmode, messageKey, if_pos hmode, h]
  · rw [if_neg hmode] at h
    rw [selectKey, if_neg hmode, messageKey, if_neg hmode]
    exact Block.ext h

theorem SecretOf.next {mode : Int} {secret chainKey : Block 32} {trafficKey : Block 16}
    (h : SecretOf mode secret trafficKey chainKey) :
    SecretOf mode
      (if mode = pqBootstrapRatchet then (selectKey sha256 mode secret).2 else secret)
      trafficKey (nextChainKey sha256 mode chainKey) := by
  unfold SecretOf at h ⊢
  by_cases hmode : mode = pqBootstrapRatchet
  · rw [if_pos hmode] at h
    rw [if_pos hmode, if_pos hmode, selectKey, if_pos hmode, nextChainKey, if_pos hmode, h]
  · rw [if_neg hmode] at h
    rw [if_neg hmode, if_neg hmode]
    exact h

/-- The client has sealed `n` records. -/
structure ClientSends (d : Direction) (client : Client) (n : Nat) : Prop where
  mode : client.config.mode = d.mode
  sessionId : client.sessionId = d.sessionId
  sequence : client.sendSequence = UInt64.ofNat n
  secret : SecretOf d.mode client.sendSecret d.trafficKey (d.chainAt sha256 n)
  nonceBase : client.sendNonceBase = d.nonceBase

/-- The client has opened `n` records. -/
structure ClientReceives (d : Direction) (client : Client) (n : Nat) : Prop where
  mode : client.config.mode = d.mode
  sessionId : client.sessionId = d.sessionId
  state : client.state = .established
  sequence : client.receiveSequence = UInt64.ofNat n
  secret : SecretOf d.mode client.receiveSecret d.trafficKey (d.chainAt sha256 n)
  nonceBase : client.receiveNonceBase = d.nonceBase

/-- The peer has opened `n` records. -/
structure PeerReceives (d : Direction) (session : Session) (keys : SessionKeys) (n : Nat) :
    Prop where
  mode : session.device.mode = d.mode
  sequence : session.receiveSequence = n
  trafficKey : keys.clientTrafficKey = d.trafficKey
  chainKey : keys.clientChainKey = d.chainAt sha256 n
  nonceBase : keys.clientNonceBase = d.nonceBase

/-- The peer has sealed `n` records. -/
structure PeerSends (d : Direction) (session : Session) (keys : SessionKeys) (n : Nat) :
    Prop where
  mode : session.device.mode = d.mode
  sessionId : session.sessionId = d.sessionId
  flags : d.flags = 1
  sequence : session.sendSequence = n
  trafficKey : keys.serverTrafficKey = d.trafficKey
  chainKey : keys.serverChainKey = d.chainAt sha256 n
  nonceBase : keys.serverNonceBase = d.nonceBase

section

variable {sha256} {d : Direction} {client : Client} {session : Session} {keys : SessionKeys}
  {n : Nat}

theorem ClientSends.nextRecord (h : ClientSends sha256 d client n) (hflags : d.flags = 0)
    (plaintext : Bytes) : client.nextRecord sha256 plaintext = d.record sha256 n plaintext := by
  have hkey := h.secret.key sha256
  rw [← h.mode] at hkey
  rw [Client.nextRecord, hkey, Direction.record, h.mode, h.sequence, h.nonceBase, h.sessionId,
    hflags]

theorem ClientSends.afterSeal (h : ClientSends sha256 d client n) :
    ClientSends sha256 d (client.afterSeal sha256) (n + 1) := by
  refine ⟨h.mode, h.sessionId, ?_, ?_, h.nonceBase⟩
  · rw [UInt64.ofNat_add]
    exact congrArg (· + 1) h.sequence
  · simp only [Client.afterSeal, h.mode]
    exact h.secret.next sha256

theorem ClientSends.afterOpen (h : ClientSends sha256 d client n) :
    ClientSends sha256 d (client.afterOpen sha256) n :=
  ⟨h.mode, h.sessionId, h.sequence, h.secret, h.nonceBase⟩

theorem ClientReceives.afterSeal (h : ClientReceives sha256 d client n) :
    ClientReceives sha256 d (client.afterSeal sha256) n :=
  ⟨h.mode, h.sessionId, h.state, h.sequence, h.secret, h.nonceBase⟩

theorem ClientReceives.afterOpen (h : ClientReceives sha256 d client n) :
    ClientReceives sha256 d (client.afterOpen sha256) (n + 1) := by
  refine ⟨h.mode, h.sessionId, h.state, ?_, ?_, h.nonceBase⟩
  · rw [UInt64.ofNat_add]
    exact congrArg (· + 1) h.sequence
  · simp only [Client.afterOpen, h.mode]
    exact h.secret.next sha256

theorem PeerReceives.afterOpen (h : PeerReceives sha256 d session keys n) :
    PeerReceives sha256 d (session.afterOpen sha256 keys)
      (openedKeys sha256 session.device.mode keys) (n + 1) := by
  refine ⟨h.mode, congrArg (· + 1) h.sequence, h.trafficKey, ?_, h.nonceBase⟩
  rw [openedKeys, h.chainKey, h.mode, Direction.chainAt]

theorem PeerReceives.afterSeal (h : PeerReceives sha256 d session keys n) :
    PeerReceives sha256 d (session.afterSeal sha256 keys)
      (sealedKeys sha256 session.device.mode keys) n :=
  ⟨h.mode, h.sequence, h.trafficKey, h.chainKey, h.nonceBase⟩

theorem PeerReceives.remember (h : PeerReceives sha256 d session keys n) (frame : Bytes)
    (response : Option Bytes) : PeerReceives sha256 d (session.remember frame response) keys n :=
  ⟨h.mode, h.sequence, h.trafficKey, h.chainKey, h.nonceBase⟩

theorem PeerSends.nextRecord (h : PeerSends sha256 d session keys n) (message : Bytes) :
    session.nextRecord sha256 keys message = d.record sha256 n message := by
  rw [Session.nextRecord, Direction.record, h.mode, h.trafficKey, h.chainKey, h.nonceBase,
    h.sequence, h.sessionId, h.flags]

theorem PeerSends.afterOpen (h : PeerSends sha256 d session keys n) :
    PeerSends sha256 d (session.afterOpen sha256 keys)
      (openedKeys sha256 session.device.mode keys) n :=
  ⟨h.mode, h.sessionId, h.flags, h.sequence, h.trafficKey, h.chainKey, h.nonceBase⟩

theorem PeerSends.afterSeal (h : PeerSends sha256 d session keys n) :
    PeerSends sha256 d (session.afterSeal sha256 keys)
      (sealedKeys sha256 session.device.mode keys) (n + 1) := by
  refine ⟨h.mode, h.sessionId, h.flags, congrArg (· + 1) h.sequence, h.trafficKey, ?_, h.nonceBase⟩
  rw [sealedKeys, h.chainKey, h.mode, Direction.chainAt]

theorem PeerSends.remember (h : PeerSends sha256 d session keys n) (frame : Bytes)
    (response : Option Bytes) : PeerSends sha256 d (session.remember frame response) keys n :=
  ⟨h.mode, h.sessionId, h.flags, h.sequence, h.trafficKey, h.chainKey, h.nonceBase⟩

end

/-! ## The channel -/

/-- Client and peer, and what happened in the session of the client: the frames the client
sealed with their plaintexts, the plaintexts the application was called with, the last
accepted request with the response to it, the frames the peer sealed with their plaintexts,
and the frames the client accepted with theirs. `requests` and `responses` are the inputs
of all Ascon encryptions. -/
structure Channel where
  client : Client
  peer : Peer
  sent : List (Bytes × Bytes)
  calls : List Bytes
  lastAccepted : Option (Bytes × Option Bytes)
  answered : List (Bytes × Bytes)
  accepted : List (Bytes × Bytes)
  requests : List SealedRecord
  responses : List SealedRecord

namespace Channel

def sealRequest (c : Channel) (plaintext : Bytes) (frameCapacity : Nat) : Channel :=
  match sealRecord sha256 c.client plaintext frameCapacity with
  | (.error _, client) => { c with client }
  | (.ok frame, client) =>
    { c with
      client
      sent := c.sent ++ [(frame, plaintext)]
      requests := c.requests ++ [c.client.nextRecord sha256 plaintext] }

/-- The record that answers a plaintext, if the application answers it. -/
def responseRecords (session : Session) (keys : SessionKeys) (answer : Option Bytes) :
    List SealedRecord :=
  match answer with
  | some message =>
    [(session.afterOpen sha256 keys).nextRecord sha256
      (openedKeys sha256 session.device.mode keys) message]
  | none => []

/-- The answer of an application that does not throw. -/
def answerOf (answer : Except Unit (Option Bytes)) : Option Bytes :=
  match answer with
  | .ok answer => answer
  | .error _ => none

/-- What is recorded when the application was called. -/
def recordCall (c : Channel) (application : Application) (session : Session) (keys : SessionKeys)
    (frame plaintext : Bytes) (response : Option Bytes) : Channel :=
  let answer := answerOf (application plaintext)
  { c with
    calls := c.calls ++ [plaintext]
    lastAccepted := some (frame, response)
    answered := c.answered ++ (response.toList.zip answer.toList)
    responses := c.responses ++ responseRecords sha256 session keys answer }

/-- A frame on its way to `handleData`. What happens in other sessions is not recorded. -/
def deliverRequest (c : Channel) (application : Application) (frame : Bytes) : Channel :=
  match ReferencePeer.decodeHeader frame with
  | .error _ => c
  | .ok header =>
    if header.type ≠ frameData then c
    else
      let (response, peer, plaintext) := handleData sha256 application c.peer frame header
      if header.sessionId ≠ c.client.sessionId then { c with peer }
      else
        match c.peer.sessions header.sessionId, response, plaintext with
        | some session, .ok response, some plaintext =>
          match session.keys with
          | some keys =>
            { c.recordCall sha256 application session keys frame plaintext response with peer }
          | none => { c with peer }
        | _, _, _ => { c with peer }

def deliverResponse (c : Channel) (frame : Bytes) (plaintextCapacity : Nat) : Channel :=
  match openRecord sha256 c.client frame plaintextCapacity with
  | (.error _, client) => { c with client }
  | (.ok plaintext, client) => { c with client, accepted := c.accepted ++ [(frame, plaintext)] }

/-- If Ascon accepts the parts of the frame under this key and nonce, an end of the channel
produced them under that key. -/
def NotForged (c : Channel) (key nonce : Block 16) (frame : Bytes) : Prop :=
  ∀ ciphertext tag, frame = slice frame 0 18 ++ ciphertext ++ tag.val →
    asconAead128Decrypt key nonce (slice frame 0 18) ciphertext tag ≠ none →
      ∃ r ∈ c.requests ++ c.responses, r.key = key ∧ r.nonce = nonce
        ∧ r.associatedData = slice frame 0 18 ∧ r.sealed = (ciphertext, tag)

/-- The frame is no forgery under the key and the nonce of the peer session. -/
def RequestNotForged (c : Channel) (frame : Bytes) : Prop :=
  ∀ session keys, c.peer.sessions c.client.sessionId = some session → session.keys = some keys →
    c.NotForged (messageKey sha256 session.device.mode keys.clientTrafficKey keys.clientChainKey)
      (makeRecordNonce keys.clientNonceBase (UInt64.ofNat session.receiveSequence)) frame

/-- The frame is no forgery under the key and the nonce of the client. -/
def ResponseNotForged (c : Channel) (frame : Bytes) : Prop :=
  c.NotForged (selectKey sha256 c.client.config.mode c.client.receiveSecret).1
    (makeRecordNonce c.client.receiveNonceBase c.client.receiveSequence) frame

end Channel

/-- The two ends after a handshake: the session keys are the same, in the form that the
mode of both gives them. -/
structure EstablishedPair (client : Client) (peer : Peer) (session : Session)
    (keys : SessionKeys) : Prop where
  state : client.state = .established
  known : peer.sessions client.sessionId = some session
  sessionId : session.sessionId = client.sessionId
  established : session.established = true
  mode : session.device.mode = client.config.mode
  sessionKeys : session.keys = some keys
  sendSecret : SecretOf client.config.mode client.sendSecret keys.clientTrafficKey
    keys.clientChainKey
  receiveSecret : SecretOf client.config.mode client.receiveSecret keys.serverTrafficKey
    keys.serverChainKey
  sendNonceBase : client.sendNonceBase = keys.clientNonceBase
  receiveNonceBase : client.receiveNonceBase = keys.serverNonceBase
  sendSequence : client.sendSequence = 0 ∧ session.sendSequence = 0
  receiveSequence : client.receiveSequence = 0 ∧ session.receiveSequence = 0
  lastClientFrame : session.lastClientFrame = none

/-- The reachable states of an established pair: any seals of the client, and any
deliveries of frames that are no forgeries. -/
inductive ChannelReachable (client : Client) (peer : Peer) : Channel → Prop where
  | established : ChannelReachable client peer ⟨client, peer, [], [], none, [], [], [], []⟩
  | sealRequest {c : Channel} (plaintext : Bytes) (frameCapacity : Nat)
      (h : ChannelReachable client peer c) :
      ChannelReachable client peer (c.sealRequest sha256 plaintext frameCapacity)
  | deliverRequest {c : Channel} {application : Application} (frame : Bytes)
      (h : ChannelReachable client peer c) (fits : FittingApplication application)
      (genuine : c.RequestNotForged sha256 frame) :
      ChannelReachable client peer (c.deliverRequest sha256 application frame)
  | deliverResponse {c : Channel} (frame : Bytes) (plaintextCapacity : Nat)
      (h : ChannelReachable client peer c) (genuine : c.ResponseNotForged sha256 frame) :
      ChannelReachable client peer (c.deliverResponse sha256 frame plaintextCapacity)

/-! ## The invariant -/

/-- The session of the client at the peer. -/
structure SessionInStep (up down : Direction) (c : Channel) (session : Session)
    (keys : SessionKeys) : Prop where
  known : c.peer.sessions c.client.sessionId = some session
  sessionKeys : session.keys = some keys
  receives : PeerReceives sha256 up session keys c.calls.length
  sends : PeerSends sha256 down session keys c.responses.length
  lastFrame : session.lastClientFrame = c.lastAccepted.map Prod.fst
  lastResponse : ∀ frame response, c.lastAccepted = some (frame, response) →
    session.lastResponseFrame = response

structure Channel.Invariant (up down : Direction) (c : Channel) : Prop where
  upFlags : up.flags = 0
  downFlags : down.flags = 1
  upId : up.sessionId = c.client.sessionId
  requests : up.Records sha256 c.requests
  responses : down.Records sha256 c.responses
  sends : ClientSends sha256 up c.client c.requests.length
  receives : ClientReceives sha256 down c.client c.accepted.length
  session : ∃ session keys, SessionInStep sha256 up down c session keys
  sent : c.sent = c.requests.map fun r => (r.frame, r.plaintext)
  answered : c.answered = c.responses.map fun r => (r.frame, r.plaintext)
  calls : c.calls <+: c.requests.map SealedRecord.plaintext
  accepted : c.accepted <+: c.responses.map fun r => (r.frame, r.plaintext)
  responses_le : c.responses.length ≤ c.calls.length
  lastAccepted : ∀ frame response, c.lastAccepted = some (frame, response) →
    ∃ header, ReferencePeer.decodeHeader frame = .ok header
      ∧ header.sessionId = c.client.sessionId

namespace Channel.Invariant

variable {sha256} {up down : Direction} {c : Channel} (h : c.Invariant sha256 up down)

include h

theorem calls_le : c.calls.length ≤ c.requests.length := by
  have hle := h.calls.length_le
  rwa [List.length_map] at hle

theorem accepted_le : c.accepted.length ≤ c.responses.length := by
  have hle := h.accepted.length_le
  rwa [List.length_map] at hle

end Channel.Invariant

/-- A frame that was sealed under the key and the nonce is no forgery. -/
theorem Channel.notForged_frame {c : Channel} {r : SealedRecord}
    (hmem : r ∈ c.requests ++ c.responses) (hlength : r.associatedData.length = 18) :
    c.NotForged r.key r.nonce r.frame := by
  intro ciphertext tag hframe _
  have had : slice r.frame 0 18 = r.associatedData := by
    rw [SealedRecord.frame, List.append_assoc, slice_append_left hlength.ge, slice_self _ hlength]
  rw [had, SealedRecord.frame, List.append_assoc, List.append_assoc] at hframe
  obtain ⟨hciphertext, htag⟩ := List.append_inj' (List.append_cancel_left hframe)
    (by rw [Block.length_val, Block.length_val])
  exact ⟨r, hmem, rfl, rfl, had.symm, Prod.ext hciphertext (Block.ext htag)⟩

/-- A frame that is accepted and no forgery is one that an end of the channel sealed. -/
theorem Channel.NotForged.opened {c : Channel} {key nonce tag : Block 16}
    {frame ciphertext plaintext : Bytes} (hgenuine : c.NotForged key nonce frame)
    (hframe : frame = slice frame 0 18 ++ ciphertext ++ tag.val)
    (hdecrypt : asconAead128Decrypt key nonce (slice frame 0 18) ciphertext tag = some plaintext) :
    ∃ r ∈ c.requests ++ c.responses, frame = r.frame ∧ plaintext = r.plaintext := by
  obtain ⟨r, hmem, hkey, hnonce, had, hsealed⟩ := hgenuine ciphertext tag hframe
    (by rw [hdecrypt]; simp)
  refine ⟨r, hmem, ?_, ?_⟩
  · rw [SealedRecord.frame, had, hsealed]
    exact hframe
  · have hround := r.decrypt_sealed
    rw [hsealed, hkey, hnonce, had, hdecrypt] at hround
    exact Option.some.inj hround

namespace Channel.Invariant

variable {sha256} {up down : Direction} {c : Channel} (h : c.Invariant sha256 up down)

include h

/-- A genuine frame that the peer opens is the next request. -/
theorem opened_request {session : Session} {keys : SessionKeys} {frame plaintext : Bytes}
    (hsession : SessionInStep sha256 up down c session keys)
    (hgenuine : c.RequestNotForged sha256 frame)
    (hopens : session.Opens sha256 keys frame plaintext) :
    ∃ r, c.requests[c.calls.length]? = some r ∧ frame = r.frame ∧ plaintext = r.plaintext := by
  obtain ⟨⟨ciphertext, tag, hframe, hdecrypt⟩, hflags, hsequence⟩ := hopens
  obtain ⟨r, hmem, hr, hplaintext⟩ :=
    (hgenuine session keys hsession.known hsession.sessionKeys).opened hframe hdecrypt
  refine ⟨r, ?_, hr, hplaintext⟩
  have hle := h.calls_le
  have hlt := h.requests.lt
  rcases List.mem_append.mp hmem with hrequest | hresponse
  · refine h.requests.getElem_of_sequence hrequest ?_ (by omega)
    have height : (slice frame 10 8).length = 8 := by
      have htag := tag.property
      have hlength := congrArg List.length hframe
      simp only [List.length_append, length_slice, htag] at hlength ⊢
      omega
    rw [← hr, ← UInt64.toNat_inj, toNat_load64BE height, hsequence, hsession.receives.sequence,
      UInt64.toNat_ofNat', Nat.mod_eq_of_lt (by omega)]
  · have hone := h.responses.flags_of_mem hresponse
    rw [← hr, hflags, h.downFlags] at hone
    exact absurd hone (by decide)

/-- A genuine frame that the client opens is the next response. -/
theorem opened_response {frame plaintext : Bytes} (hgenuine : c.ResponseNotForged sha256 frame)
    (hopens : c.client.Opens sha256 frame plaintext) :
    ∃ r, c.responses[c.accepted.length]? = some r ∧ frame = r.frame ∧ plaintext = r.plaintext := by
  obtain ⟨⟨ciphertext, tag, hframe, hdecrypt⟩, ⟨header, hheader, -, hflags, -⟩, hsequence⟩ := hopens
  obtain ⟨r, hmem, hr, hplaintext⟩ := hgenuine.opened hframe hdecrypt
  refine ⟨r, ?_, hr, hplaintext⟩
  have hle := h.accepted_le
  have hlt := h.responses.lt
  rcases List.mem_append.mp hmem with hrequest | hresponse
  · have hzero := h.requests.flags_of_mem hrequest
    have hbyte : byteAt frame 4 = header.flags := by
      conv_lhs => rw [(frame_of_decodeHeader hheader).1]
      rfl
    rw [← hr, hbyte, hflags, h.upFlags] at hzero
    exact absurd hzero (by decide)
  · refine h.responses.getElem_of_sequence hresponse ?_ (by omega)
    rw [← hr, hsequence, h.receives.sequence]

theorem sealRequest (plaintext : Bytes) (frameCapacity : Nat) :
    (c.sealRequest sha256 plaintext frameCapacity).Invariant sha256 up down := by
  unfold Channel.sealRequest
  obtain ⟨failure, hseal⟩ | ⟨hlength, hmax, hseal⟩ :=
    sealRecord_cases sha256 c.client plaintext frameCapacity
  · simp only [hseal]
    exact h
  · simp only [hseal]
    have hnext := h.sends.nextRecord h.upFlags plaintext
    have hlt : c.requests.length + 1 < 2 ^ 64 := by
      have hlt := h.requests.lt
      have hne : c.requests.length ≠ 2 ^ 64 - 1 := fun heq => hmax (by
        rw [h.sends.sequence, heq]
        rfl)
      omega
    obtain ⟨session, keys, hsession⟩ := h.session
    exact
      { h with
        requests := by
          rw [hnext]
          exact h.requests.append hlength hlt
        sends := by
          rw [List.length_append]
          exact h.sends.afterSeal
        receives := h.receives.afterSeal
        session := ⟨session, keys, { hsession with known := hsession.known }⟩
        sent := by
          rw [List.map_append, h.sent]
          rfl
        calls := by
          rw [List.map_append]
          exact h.calls.trans (List.prefix_append _ _) }

theorem deliverResponse {frame : Bytes} (plaintextCapacity : Nat)
    (hgenuine : c.ResponseNotForged sha256 frame) :
    (c.deliverResponse sha256 frame plaintextCapacity).Invariant sha256 up down := by
  unfold Channel.deliverResponse
  obtain ⟨failure, hopen⟩ | ⟨plaintext, hopens, hopen⟩ :=
    openRecord_cases sha256 c.client frame plaintextCapacity
  · simp only [hopen]
    exact h
  · simp only [hopen]
    obtain ⟨r, hr, rfl, rfl⟩ := h.opened_response hgenuine hopens
    obtain ⟨session, keys, hsession⟩ := h.session
    exact
      { h with
        sends := h.sends.afterOpen
        receives := by
          rw [List.length_append]
          exact h.receives.afterOpen
        session := ⟨session, keys, { hsession with known := hsession.known }⟩
        accepted := by
          refine prefix_append_getElem h.accepted ?_
          rw [List.getElem?_map, hr]
          rfl }

/-- The peer may change in other sessions. -/
theorem otherSession {peer : Peer}
    (hpeer : peer.sessions c.client.sessionId = c.peer.sessions c.client.sessionId) :
    ({ c with peer } : Channel).Invariant sha256 up down := by
  obtain ⟨session, keys, hsession⟩ := h.session
  exact
    { h with
      session := ⟨session, keys, { hsession with known := hpeer.trans hsession.known }⟩ }

/-- The invariant after a request was accepted and answered. -/
theorem recordCall {session : Session} {keys : SessionKeys} {application : Application}
    {frame plaintext : Bytes} {answer : Option Bytes} {header : Header}
    (hsession : SessionInStep sha256 up down c session keys)
    (hheader : ReferencePeer.decodeHeader frame = .ok header)
    (hid : header.sessionId = c.client.sessionId)
    (hrequest : ∃ r, c.requests[c.calls.length]? = some r ∧ plaintext = r.plaintext)
    (hanswer : application plaintext = .ok answer)
    (hlength : ∀ message, answer = some message → message.length ≤ recordPlaintextMax) :
    let opened := session.afterOpen sha256 keys
    let keys' := openedKeys sha256 session.device.mode keys
    let answered := opened.answer sha256 keys' answer
    ({ c.recordCall sha256 application session keys frame plaintext answered.1 with
      peer := c.peer.setSession header.sessionId (answered.2.remember frame answered.1) } :
      Channel).Invariant sha256 up down := by
  have hreceives := hsession.receives.afterOpen
  have hsends := hsession.sends.afterOpen
  have hcalls : c.calls ++ [plaintext] <+: c.requests.map SealedRecord.plaintext := by
    obtain ⟨r, hr, rfl⟩ := hrequest
    refine prefix_append_getElem h.calls ?_
    rw [List.getElem?_map, hr]
    rfl
  have hlt : c.responses.length + 1 < 2 ^ 64 := by
    have hle := hcalls.length_le
    have hbound := h.requests.lt
    have hresponses := h.responses_le
    rw [List.length_append, List.length_singleton, List.length_map] at hle
    omega
  cases answer with
  | none =>
    simp only [Channel.recordCall, hanswer, Channel.answerOf, Session.answer,
      Channel.responseRecords, Option.toList, List.zip_nil_left, List.append_nil]
    exact
      { h with
        session := ⟨_, _,
          { known := by rw [hid]; exact Peer.setSession_same ..
            sessionKeys := rfl
            receives := by
              rw [List.length_append]
              exact hreceives.remember frame none
            sends := hsends.remember frame none
            lastFrame := rfl
            lastResponse := fun _ _ heq => by cases heq; rfl }⟩
        calls := hcalls
        responses_le := by
          have hle := h.responses_le
          simp only [List.length_append, List.length_singleton]
          omega
        lastAccepted := fun _ _ heq => by
          cases heq
          exact ⟨header, hheader, hid⟩ }
  | some message =>
    have hnext := hsends.nextRecord message
    simp only [Channel.recordCall, hanswer, Channel.answerOf, Session.answer,
      Channel.responseRecords, Option.toList, List.zip_cons_cons, List.zip_nil_left]
    exact
      { h with
        responses := by
          rw [hnext]
          exact h.responses.append (hlength message rfl) hlt
        session := ⟨_, _,
          { known := by rw [hid]; exact Peer.setSession_same ..
            sessionKeys := rfl
            receives := by
              rw [List.length_append]
              exact hreceives.afterSeal.remember frame _
            sends := by
              rw [List.length_append]
              exact hsends.afterSeal.remember frame _
            lastFrame := rfl
            lastResponse := fun _ _ heq => by cases heq; rfl }⟩
        answered := by
          rw [List.map_append, h.answered]
          rfl
        calls := hcalls
        accepted := by
          rw [List.map_append]
          exact h.accepted.trans (List.prefix_append _ _)
        responses_le := by
          have hle := h.responses_le
          simp only [List.length_append, List.length_singleton]
          omega
        lastAccepted := fun _ _ heq => by
          cases heq
          exact ⟨header, hheader, hid⟩ }

theorem deliverRequest {application : Application} {frame : Bytes}
    (hfits : FittingApplication application) (hgenuine : c.RequestNotForged sha256 frame) :
    (c.deliverRequest sha256 application frame).Invariant sha256 up down := by
  unfold Channel.deliverRequest
  cases hheader : ReferencePeer.decodeHeader frame with
  | error error => exact h
  | ok header =>
    simp only
    split
    · exact h
    obtain ⟨session, keys, hsession⟩ := h.session
    by_cases hid : header.sessionId = c.client.sessionId
    · rw [if_neg (not_not.mpr hid)]
      have hknown : c.peer.sessions header.sessionId = some session := hid ▸ hsession.known
      have hlt : session.sendSequence < 2 ^ 64 := by
        rw [hsession.sends.sequence]
        exact h.responses.lt
      simp only [handleData, hknown]
      rcases handleRecord_cases sha256 hfits session hsession.sessionKeys hlt hheader with
        ⟨-, hresult⟩ | ⟨error, hresult⟩ | ⟨plaintext, answer, hopens, hanswer, hlength, hresult⟩
      · simp only [hresult, Peer.setSession_self hknown]
        exact h
      · simp only [hresult, Peer.setSession_self hknown]
        exact h
      · obtain ⟨r, hr, -, hplaintext⟩ := h.opened_request hsession hgenuine hopens
        simp only [hresult, hsession.sessionKeys]
        exact h.recordCall hsession hheader hid ⟨r, hr, hplaintext⟩ hanswer hlength
    · rw [if_pos hid]
      refine h.otherSession ?_
      simp only [handleData]
      split
      · rfl
      · exact Peer.setSession_other _ _ (Ne.symm hid)

end Channel.Invariant

/-! ## Safety -/

/-- The two directions of an established pair. -/
def upDirection (client : Client) (keys : SessionKeys) : Direction where
  mode := client.config.mode
  trafficKey := keys.clientTrafficKey
  chainKey := keys.clientChainKey
  nonceBase := keys.clientNonceBase
  sessionId := client.sessionId
  flags := 0

def downDirection (client : Client) (keys : SessionKeys) : Direction where
  mode := client.config.mode
  trafficKey := keys.serverTrafficKey
  chainKey := keys.serverChainKey
  nonceBase := keys.serverNonceBase
  sessionId := client.sessionId
  flags := 1

variable {sha256} {client : Client} {peer : Peer} {session : Session} {keys : SessionKeys}

theorem EstablishedPair.invariant (h : EstablishedPair client peer session keys) :
    (⟨client, peer, [], [], none, [], [], [], []⟩ : Channel).Invariant sha256
      (upDirection client keys) (downDirection client keys) where
  upFlags := rfl
  downFlags := rfl
  upId := rfl
  requests := .nil _
  responses := .nil _
  sends := ⟨rfl, rfl, h.sendSequence.1, h.sendSecret, h.sendNonceBase⟩
  receives := ⟨rfl, rfl, h.state, h.receiveSequence.1, h.receiveSecret, h.receiveNonceBase⟩
  session := ⟨session, keys,
    { known := h.known
      sessionKeys := h.sessionKeys
      receives := ⟨h.mode, h.receiveSequence.2, rfl, rfl, rfl⟩
      sends := ⟨h.mode, h.sessionId, rfl, h.sendSequence.2, rfl, rfl, rfl⟩
      lastFrame := h.lastClientFrame
      lastResponse := nofun }⟩
  sent := rfl
  answered := rfl
  calls := List.nil_prefix
  accepted := List.nil_prefix
  responses_le := Nat.le_refl _
  lastAccepted := nofun

theorem ChannelReachable.invariant {c : Channel} (hpair : EstablishedPair client peer session keys)
    (h : ChannelReachable sha256 client peer c) :
    c.Invariant sha256 (upDirection client keys) (downDirection client keys) := by
  induction h with
  | established => exact hpair.invariant
  | sealRequest plaintext frameCapacity _ ih => exact ih.sealRequest plaintext frameCapacity
  | deliverRequest frame _ fits genuine ih => exact ih.deliverRequest fits genuine
  | deliverResponse frame plaintextCapacity _ genuine ih =>
    exact ih.deliverResponse plaintextCapacity genuine

variable (sha256) in
structure RecordsSafe (c : Channel) : Prop where
  /-- The frames that the ends sealed are those of the Ascon encryptions. -/
  sent_frames : c.sent = c.requests.map fun r => (r.frame, r.plaintext)
  answered_frames : c.answered = c.responses.map fun r => (r.frame, r.plaintext)
  /-- The application was called with the first plaintexts sealed, with each of them once. -/
  calls_prefix : c.calls <+: c.sent.map Prod.snd
  /-- The last accepted request is answered again with the same response. -/
  cached : ∀ frame response, c.lastAccepted = some (frame, response) →
    ∃ header, ReferencePeer.decodeHeader frame = .ok header ∧ ∀ application,
      handleData sha256 application c.peer frame header = (.ok response, c.peer, none)
  accepted_prefix : c.accepted <+: c.answered
  accepted_once : (c.accepted.map Prod.fst).Nodup
  /-- The first response that was not accepted is accepted when it is delivered. -/
  accepted_next : ∀ frame message, c.answered[c.accepted.length]? = some (frame, message) →
    ∀ plaintextCapacity, message.length ≤ plaintextCapacity →
      (openRecord sha256 c.client frame plaintextCapacity).1 = .ok message

theorem Channel.Invariant.recordsSafe {up down : Direction} {c : Channel}
    (h : c.Invariant sha256 up down) : RecordsSafe sha256 c where
  sent_frames := h.sent
  answered_frames := h.answered
  calls_prefix := by
    rw [h.sent, List.map_map]
    exact h.calls
  cached := by
    intro frame response hlast
    obtain ⟨header, hheader, hid⟩ := h.lastAccepted frame response hlast
    obtain ⟨session, keys, hsession⟩ := h.session
    have hknown : c.peer.sessions header.sessionId = some session := hid ▸ hsession.known
    have hframe : session.lastClientFrame = some frame := by rw [hsession.lastFrame, hlast]; rfl
    refine ⟨header, hheader, fun application => ?_⟩
    simp only [handleData, hknown, handleRecord, hframe, if_true,
      hsession.lastResponse frame response hlast, Peer.setSession_self hknown]
  accepted_prefix := by
    rw [h.answered]
    exact h.accepted
  accepted_once := by
    have hsub := (h.accepted.map Prod.fst).sublist
    rw [List.map_map] at hsub
    exact h.responses.frames_nodup.sublist hsub
  accepted_next := by
    intro frame message hnext plaintextCapacity hcapacity
    rw [h.answered, List.getElem?_map, Option.map_eq_some_iff] at hnext
    obtain ⟨r, hr, heq⟩ := hnext
    cases heq
    have hform := h.responses.wellFormed hr
    have hrecord := h.responses.eq _ r hr
    have hkey := h.receives.secret.key sha256
    rw [h.downFlags, ← h.receives.sessionId, ← h.receives.sequence] at hform
    rw [openRecord_record sha256 h.receives.state hform ?_ ?_ hcapacity]
    · rw [hrecord, Direction.record, h.receives.mode, hkey]
    · rw [hrecord, Direction.record, h.receives.nonceBase, h.receives.sequence]

theorem reachable_recordsSafe {c : Channel} (hpair : EstablishedPair client peer session keys)
    (h : ChannelReachable sha256 client peer c) : RecordsSafe sha256 c :=
  (h.invariant hpair).recordsSafe

/-! A pair with the session keys zero, after one request that was sealed and delivered. -/

def pairClient : Client := { retryClient with state := .established }

def zeroKeys : SessionKeys where
  deviceFinishedKey := Block.zero 32
  serverFinishedKey := Block.zero 32
  clientTrafficKey := Block.zero 16
  serverTrafficKey := Block.zero 16
  clientNonceBase := Block.zero 16
  serverNonceBase := Block.zero 16
  clientChainKey := Block.zero 32
  serverChainKey := Block.zero 32

def pairSession : Session where
  sessionId := 1
  device := ⟨retryClient.config.psk, fullPqEachSession⟩
  helloCore := []
  challengeCore := []
  challengeFrame := []
  sessionAuthKey := Block.zero 32
  ciphertext := Block.zero 768
  received := fun _ => true
  established := true
  sendSequence := 0
  receiveSequence := 0
  keys := some zeroKeys
  transcriptHash := some (Block.zero 32)
  serverFinishedFrame := some []
  lastClientFrame := none
  lastResponseFrame := none

def pairPeer : Peer where
  epoch := 0
  keyId := retryClient.config.publicKeyId
  devices := fun _ => none
  sessions := fun sessionId => if sessionId = 1 then some pairSession else none

def pairRequest : SealedRecord := pairClient.nextRecord zeroDigest [1, 2, 3]

theorem pairClient_established : EstablishedPair pairClient pairPeer pairSession zeroKeys where
  state := rfl
  known := rfl
  sessionId := rfl
  established := rfl
  mode := rfl
  sessionKeys := rfl
  sendSecret := rfl
  receiveSecret := rfl
  sendNonceBase := rfl
  receiveNonceBase := rfl
  sendSequence := ⟨rfl, rfl⟩
  receiveSequence := ⟨rfl, rfl⟩
  lastClientFrame := rfl

/-- The channel after the request was sealed. -/
def pairSealed : Channel :=
  ⟨pairClient.afterSeal zeroDigest, pairPeer, [(pairRequest.frame, [1, 2, 3])], [], none, [], [],
    [pairRequest], []⟩

theorem pairSealed_reachable : ChannelReachable zeroDigest pairClient pairPeer pairSealed :=
  .sealRequest [1, 2, 3] 96 .established

theorem pairRequest_notForged : pairSealed.RequestNotForged zeroDigest pairRequest.frame := by
  intro session keys hknown hkeys
  cases hknown
  cases hkeys
  exact Channel.notForged_frame (by simp [pairSealed]) (length_recordData 0 (by decide) _ _)

theorem pairRequest_recordsSafe :
    RecordsSafe zeroDigest
      (pairSealed.deliverRequest zeroDigest (fun _ => .ok (some [4, 5])) pairRequest.frame) := by
  have hfits : FittingApplication fun _ => .ok (some [4, 5]) :=
    fun _ => ⟨some [4, 5], rfl, fun message heq => by cases heq; decide⟩
  exact reachable_recordsSafe pairClient_established
    (pairSealed_reachable.deliverRequest pairRequest.frame hfits pairRequest_notForged)

end C0PQLink
