import C0PQLink.ReferencePeer.Reassembly

/-!
# Rejected frames

What a frame that is answered with an error leaves behind. `openRecord` commits the sequence
and the chain key before the application and `sealRecord` run, so that an answer that fails
leaves the session advanced.

* `Peer.Unchanged`: what a rejected frame has to leave as it was.
* `Undeliverable`: a fresh record that is opened and whose answer fails.
* `rejected_unchanged_iff`: a rejected frame leaves the peer as it was exactly when it is no
  such record.
-/

namespace C0PQLink.ReferencePeer

open Foundation

/-! ## Unchanged sessions -/

/-- All of a session but its transcript hash and its handshake, which no frame changes. -/
structure Session.Unchanged (session session' : Session) : Prop where
  ciphertext : session'.ciphertext = session.ciphertext
  received : session'.received = session.received
  established : session'.established = session.established
  keys : session'.keys = session.keys
  sendSequence : session'.sendSequence = session.sendSequence
  receiveSequence : session'.receiveSequence = session.receiveSequence
  lastClientFrame : session'.lastClientFrame = session.lastClientFrame
  lastResponseFrame : session'.lastResponseFrame = session.lastResponseFrame

theorem Session.Unchanged.refl (session : Session) : session.Unchanged session :=
  ⟨rfl, rfl, rfl, rfl, rfl, rfl, rfl, rfl⟩

/-- The same sessions, each of them unchanged. -/
def Peer.Unchanged (peer peer' : Peer) : Prop :=
  ∀ sessionId, Option.Rel Session.Unchanged (peer.sessions sessionId) (peer'.sessions sessionId)

theorem Peer.Unchanged.refl (peer : Peer) : peer.Unchanged peer := by
  intro sessionId
  cases peer.sessions sessionId with
  | none => exact .none
  | some session => exact .some (.refl session)

theorem Peer.Unchanged.set {peer : Peer} {sessionId : UInt32} {session session' : Session}
    (hsession : peer.sessions sessionId = some session) (h : session.Unchanged session') :
    peer.Unchanged (peer.setSession sessionId session') := by
  intro other
  by_cases heq : other = sessionId
  · subst heq
    rw [Peer.setSession_same, hsession]
    exact .some h
  · rw [Peer.setSession_other peer session' heq]
    exact Peer.Unchanged.refl peer other

theorem Peer.Unchanged.session {peer peer' : Peer} (h : peer.Unchanged peer') {sessionId : UInt32}
    {session session' : Session} (hsession : peer.sessions sessionId = some session)
    (hsession' : peer'.sessions sessionId = some session') : session.Unchanged session' := by
  have hrel := h sessionId
  rw [hsession, hsession'] at hrel
  cases hrel with
  | some hrel => exact hrel

/-! ## Records that are opened -/

variable (sha256 : Bytes → Block 32) (decapsulate : Block 768 → Block 32)

/-- A record of the next sequence that decrypts to the plaintext. -/
structure Session.Accepts (session : Session) (keys : SessionKeys) (header : Header)
    (frame plaintext : Bytes) : Prop where
  established : session.established = true
  keys_eq : session.keys = some keys
  flags : header.flags = 0
  payloadLength : 24 ≤ header.payloadLength ∧ header.payloadLength - 24 ≤ 48
  sequence : beNat (slice frame 10 8) = session.receiveSequence
  decrypted : ReferencePeer.asconDecrypt
    (messageKey sha256 session.device.mode keys.clientTrafficKey keys.clientChainKey)
    (makeRecordNonce keys.clientNonceBase (UInt64.ofNat session.receiveSequence))
    (slice frame 0 18) (slice frame 18 (header.payloadLength - 24))
    (frame.drop (18 + (header.payloadLength - 24))) = some plaintext

/-- The message key and the advanced keys, as `openRecord` computes them. -/
theorem openRecord_keys (mode : Int) (keys : SessionKeys) :
    (if mode = pqBootstrapRatchet then
        ((ratchetStep sha256 keys.clientChainKey).1,
          some (ratchetStep sha256 keys.clientChainKey).2)
      else (keys.clientTrafficKey, none))
      = (messageKey sha256 mode keys.clientTrafficKey keys.clientChainKey,
        if mode = pqBootstrapRatchet then some (nextChainKey sha256 mode keys.clientChainKey)
        else none) := by
  unfold messageKey nextChainKey
  split
  · rw [ratchetStep_eq_client]
  · rfl

/-- The sequence of a record fits in its eight bytes. -/
theorem sequence_lt {sequence : Nat} {header : Header} {frame : Bytes}
    (hheader : decodeHeader frame = .ok header) (hpayload : 24 ≤ header.payloadLength)
    (h : beNat (slice frame 10 8) = sequence) : sequence < 2 ^ 64 := by
  obtain ⟨hlength, -⟩ := fields_of_decodeHeader hheader
  have hbound := beNat_lt (slice frame 10 8)
  have height : (slice frame 10 8).length = 8 := by
    rw [length_slice]
    omega
  rw [height, h] at hbound
  exact hbound

theorem openRecord_of_accepts {session : Session} {keys : SessionKeys} {header : Header}
    {frame plaintext : Bytes} (hheader : decodeHeader frame = .ok header)
    (h : session.Accepts sha256 keys header frame plaintext) :
    openRecord sha256 session frame header = (.ok plaintext, session.afterOpen sha256 keys) := by
  obtain ⟨hestablished, hkeys, hflags, ⟨hmin, hmax⟩, hsequence, hdecrypted⟩ := h
  have hlt := sequence_lt hheader (by omega) hsequence
  have hshape : ¬ (¬ session.established = true ∨ header.flags ≠ 0 ∨ header.payloadLength < 24) := by
    rintro (h | h | h)
    · exact h hestablished
    · exact h hflags
    · omega
  rw [openRecord, if_neg hshape]
  simp only [hsequence, ne_eq, not_true, if_false, if_neg (Nat.not_lt.mpr hmax), hkeys,
    openRecord_keys, recordNonce_eq _ hlt, hdecrypted]
  simp only [Session.afterOpen, openedKeys, nextChainKey]
  split
  · rfl
  · rfl

theorem accepts_of_openRecord {session : Session} {keys : SessionKeys} {header : Header}
    {frame plaintext : Bytes} (hheader : decodeHeader frame = .ok header)
    (hkeys : session.keys = some keys)
    (h : openRecord sha256 session frame header = (.ok plaintext, session.afterOpen sha256 keys)) :
    session.Accepts sha256 keys header frame plaintext := by
  unfold openRecord at h
  split at h
  · cases h
  rename_i hshape
  simp only [not_or, not_not, Nat.not_lt] at hshape
  obtain ⟨hestablished, hflags, hpayload⟩ := hshape
  simp only at h
  split at h
  · cases h
  rename_i hsequence
  have hsequence := not_not.mp hsequence
  split at h
  · cases h
  rename_i hmax
  have hlt := sequence_lt hheader (by omega) hsequence
  simp only [hkeys, hsequence, openRecord_keys, recordNonce_eq _ hlt] at h
  split at h
  · cases h
  rename_i hdecrypted
  obtain rfl := Except.ok.inj (congrArg Prod.fst h)
  exact ⟨hestablished, hkeys, hflags, ⟨hpayload, Nat.not_lt.mp hmax⟩, hsequence, hdecrypted⟩

/-! ## Records that cannot be answered -/

/-- A record that is fresh for its session and is opened, and whose answer fails: the
application throws, its message is longer than a record, or the sequence of the sender is
used up. -/
def Undeliverable (peer : Peer) (input : Input) : Prop :=
  ∃ header session keys plaintext, decodeHeader input.frame = .ok header ∧
    header.type = frameData ∧ peer.sessions header.sessionId = some session ∧
    session.lastClientFrame ≠ some input.frame ∧
    session.Accepts sha256 keys header input.frame plaintext ∧
    AnswerFails (input.application plaintext) session.sendSequence

theorem handleRecord_failed {application : Application} {session : Session} {keys : SessionKeys}
    {header : Header} {frame plaintext : Bytes}
    (hfresh : session.lastClientFrame ≠ some frame)
    (hopen : openRecord sha256 session frame header
      = (.ok plaintext, session.afterOpen sha256 keys))
    (hfails : AnswerFails (application plaintext) session.sendSequence) :
    ∃ error, handleRecord sha256 application session frame header
      = ⟨.error error, session.afterOpen sha256 keys, some plaintext⟩ := by
  rw [handleRecord, if_neg hfresh, hopen]
  rcases hfails with hthrows | ⟨message, hanswer, hseal⟩
  · exact ⟨.applicationFailed, by simp only [hthrows]⟩
  · obtain ⟨error, hsealed⟩ := sealRecord_failed sha256
      (show (session.afterOpen sha256 keys).keys = _ from rfl) hseal
    exact ⟨error, by simp only [hanswer, hsealed]⟩

/-- The session of an undeliverable record has advanced, and the response is an error. -/
theorem undeliverable_advances {peer : Peer} {input : Input}
    (h : Undeliverable sha256 peer input) :
    ∃ error sessionId session session', respond sha256 decapsulate peer input = .error error ∧
      peer.sessions sessionId = some session ∧
      (afterFrame sha256 decapsulate peer input).sessions sessionId = some session' ∧
      session'.receiveSequence = session.receiveSequence + 1 := by
  obtain ⟨header, session, keys, plaintext, hheader, htype, hsession, hfresh, haccepts, hfails⟩ := h
  obtain ⟨error, hrecord⟩ := handleRecord_failed sha256 hfresh
    (openRecord_of_accepts sha256 hheader haccepts) hfails
  have hframe : handleFrame sha256 decapsulate input.application peer input.random input.frame
      = (.error error, peer.setSession header.sessionId (session.afterOpen sha256 keys),
        some plaintext) := by
    have hnotHello : frameData ≠ frameHello := by decide
    have hnotFragment : frameData ≠ frameCiphertextFragment := by decide
    have hnotFinished : frameData ≠ frameDeviceFinished := by decide
    simp only [handleFrame, hheader, htype, if_neg hnotHello, if_neg hnotFragment,
      if_neg hnotFinished, if_true, handleData, hsession, hrecord]
  refine ⟨error, header.sessionId, session, session.afterOpen sha256 keys, ?_, hsession, ?_, rfl⟩
  · rw [respond, hframe]
  · rw [afterFrame, hframe, Peer.setSession_same]

/-- A rejected frame that is no undeliverable record. -/
theorem rejected_unchanged {inputs : List Input} {peer : Peer}
    (hinvariant : PeerInvariant sha256 decapsulate inputs peer) {input : Input}
    (hdeliverable : ¬ Undeliverable sha256 peer input) {error : PeerError}
    (herror : respond sha256 decapsulate peer input = .error error) :
    peer.Unchanged (afterFrame sha256 decapsulate peer input) := by
  have houtcome := frame_outcome sha256 decapsulate hinvariant.keyed input
  rw [herror] at houtcome
  generalize afterFrame sha256 decapsulate peer input = peer' at houtcome ⊢
  cases houtcome with
  | refused => exact .refl peer
  | @failedFinish sessionId session hsession hnone =>
    -- a failed Finished resets the keys of a session that has none
    obtain ⟨hkeys, -⟩ := (hinvariant sessionId session hsession).unfinished hnone
    exact .set hsession ⟨rfl, rfl, rfl, hkeys.symm, rfl, rfl, rfl, rfl⟩
  | failedAnswer hheader htype hsession hkeys hestablished hfresh hopen hfails =>
    exact (hdeliverable ⟨_, _, _, _, hheader, htype, hsession, hfresh,
      accepts_of_openRecord sha256 hheader hkeys hopen, hfails⟩).elim

/-- A frame that is rejected by a peer that any frames have led to. -/
theorem rejected_unchanged_iff (epoch : Nat) (keyId : Block 16)
    (devices : Block 8 → Option DeviceEntry) (inputs : List Input) (input : Input) :
    let peer := afterFrames sha256 decapsulate (startPeer epoch keyId devices) inputs
    (∀ error, respond sha256 decapsulate peer input = .error error →
        peer.Unchanged (afterFrame sha256 decapsulate peer input)) ↔
      ¬ Undeliverable sha256 peer input := by
  have hinvariant : PeerInvariant sha256 decapsulate ([] ++ inputs)
      (afterFrames sha256 decapsulate (startPeer epoch keyId devices) inputs) :=
    (startPeer_invariant epoch keyId devices).afterFrames inputs
  constructor
  · intro hunchanged hundeliverable
    obtain ⟨error, sessionId, session, session', herror, hsession, hsession', hsequence⟩ :=
      undeliverable_advances sha256 decapsulate hundeliverable
    have hsame := ((hunchanged error herror).session hsession hsession').receiveSequence
    omega
  · intro hdeliverable error herror
    exact rejected_unchanged sha256 decapsulate hinvariant hdeliverable herror

/-! ## A record with a long answer -/

def longAnswer (_ : Bytes) : Except Unit (Option Bytes) := .ok (some (List.replicate 49 0x41))

/-- A frame of session 1 and of an all-zero device, under the constant digest. -/
def zeroFrame (type payloadLength : UInt8) (payload : Bytes) : Input where
  application := longAnswer
  random := List.replicate 16 0
  frame := headerBytes type 0 payloadLength 1 ++ payload

def zeroHandshake : List Input :=
  [zeroFrame frameHello 50
    (u16 suiteMlkem512HkdfSha256Ascon128 ++ List.replicate 48 0)]
  ++ (List.range 16).map (fun i =>
    zeroFrame frameCiphertextFragment 67 ([UInt8.ofNat i, 16, 48] ++ List.replicate 64 0))
  ++ [zeroFrame frameDeviceFinished 16 (List.replicate 16 0)]

/-- The record of the plaintext `01 02 03` after `zeroHandshake`. -/
def zeroRecord : SealedRecord where
  key := Block.zero 16
  nonce := Block.zero 16
  associatedData := recordData 0 3 1 0
  plaintext := [1, 2, 3]

def zeroPeer : Peer :=
  afterFrames zeroDigest (fun _ => Block.zero 32)
    (startPeer 0 (Block.zero 16) fun _ => some ⟨List.replicate 32 1, none⟩) zeroHandshake

theorem zeroRecord_advances :
    respond zeroDigest (fun _ => Block.zero 32) zeroPeer ⟨longAnswer, [], zeroRecord.frame⟩
        = .error .plaintextTooLarge ∧
      ¬ zeroPeer.Unchanged (afterFrame zeroDigest (fun _ => Block.zero 32) zeroPeer
        ⟨longAnswer, [], zeroRecord.frame⟩) := by
  refine ⟨by decide +kernel, fun hunchanged => ?_⟩
  have hbefore : (zeroPeer.sessions 1).map Session.receiveSequence = some 0 := by decide +kernel
  have hafter : ((afterFrame zeroDigest (fun _ => Block.zero 32) zeroPeer
      ⟨longAnswer, [], zeroRecord.frame⟩).sessions 1).map Session.receiveSequence = some 1 := by
    decide +kernel
  rw [Option.map_eq_some_iff] at hbefore hafter
  obtain ⟨session, hsession, hzero⟩ := hbefore
  obtain ⟨session', hsession', hone⟩ := hafter
  have hsame := (hunchanged.session hsession hsession').receiveSequence
  omega

end C0PQLink.ReferencePeer
