import Mathlib.Data.List.Nodup
import C0PQLink.Core.SealedRecord
import C0PQLink.NanoPQ.Protocol

/-!
# The NanoPQ record channel

Two sessions derived from one handshake, an attacker who delivers any frame to either end,
and the records sealed so far. Ascon is used through two facts: decryption inverts
encryption, and a frame that is no forgery has its parts from an earlier seal.

* `npqSeal_cases`, `npqOpen_cases`: what a seal and an open do to a session.
* `Reachable.invariant`: both directions stay in step with the records sealed.
* `reachable_channelSafe`: the accepted plaintexts are a prefix of the sealed ones.
-/

namespace C0PQLink.NanoPQ

open Foundation

variable (sha256 : Bytes → Block 32)

/-! ## One record -/

/-- The record number `n` of a direction, under the chain key that the ratchet has
reached there. -/
def record (chain : Block 32) (nonceBase : Block 16) (sessionId sequence : UInt32)
    (plaintext : Bytes) : SealedRecord :=
  { key := (ratchetMaterial sha256 chain sequence).1
    nonce := makeNonce nonceBase sequence
    associatedData := dataCore sessionId sequence (UInt8.ofNat plaintext.length)
    plaintext := plaintext }

/-- The record that a seal of the session encrypts. -/
def NpqSession.nextRecord (session : NpqSession) (plaintext : Bytes) : SealedRecord :=
  record sha256 session.sendChain session.sendNonceBase session.sessionId session.sendSequence
    plaintext

def NpqSession.afterSeal (session : NpqSession) : NpqSession :=
  { session with
    sendChain := (ratchetMaterial sha256 session.sendChain session.sendSequence).2
    sendSequence := session.sendSequence + 1 }

def NpqSession.afterOpen (session : NpqSession) : NpqSession :=
  { session with
    receiveChain := (ratchetMaterial sha256 session.receiveChain session.receiveSequence).2
    receiveSequence := session.receiveSequence + 1 }

theorem npqSeal_cases (session : NpqSession) (plaintext : Bytes) :
    (∃ failure, npqSeal sha256 session plaintext = (.error failure, session)) ∨
      (plaintext.length ≤ npqDataMaxBytes ∧ session.sendSequence ≠ 0xffffffff ∧
        npqSeal sha256 session plaintext
          = (.ok (session.nextRecord sha256 plaintext).frame, session.afterSeal sha256)) := by
  unfold npqSeal
  split
  · exact .inl ⟨_, rfl⟩
  rename_i hlength
  split
  · exact .inl ⟨_, rfl⟩
  rename_i hstate
  exact .inr ⟨Nat.not_lt.mp hlength, fun h => hstate (.inr h), rfl⟩

/-- What an accepted frame is, for the session that accepts it. -/
structure Opens (session : NpqSession) (frame plaintext : Bytes) : Prop where
  decrypted : ∃ ciphertext tag, frame = slice frame 0 npqDataCoreBytes ++ ciphertext ++ tag.val ∧
    asconAead128Decrypt (ratchetMaterial sha256 session.receiveChain session.receiveSequence).1
      (makeNonce session.receiveNonceBase session.receiveSequence)
      (slice frame 0 npqDataCoreBytes) ciphertext tag = some plaintext
  sequence : load32BE (slice frame 8 4) = session.receiveSequence

theorem npqOpen_cases (session : NpqSession) (frame : Bytes) :
    (∃ failure, npqOpen sha256 session frame = (.error failure, session)) ∨
      ∃ plaintext, Opens sha256 session frame plaintext ∧
        npqOpen sha256 session frame = (.ok plaintext, session.afterOpen sha256) := by
  unfold npqOpen
  split
  · exact .inl ⟨_, rfl⟩
  rename_i hshort
  simp only [not_or, Nat.not_lt] at hshort
  simp only
  split
  · exact .inl ⟨_, rfl⟩
  rename_i hlength
  split
  · exact .inl ⟨_, rfl⟩
  rename_i hstate
  split
  · exact .inl ⟨_, rfl⟩
  rename_i plaintext hdecrypt
  obtain ⟨-, hsequence⟩ := not_or.mp hstate
  have hsequence := not_not.mp hsequence
  have hsize : frame.length = npqDataOverheadBytes + (byteAt frame 12).toNat := by
    simp only [not_or, not_not] at hlength
    exact hlength.2.1
  have hparts : frame = slice frame 0 npqDataCoreBytes
      ++ slice frame npqDataCoreBytes (byteAt frame 12).toNat
      ++ slice frame (npqDataCoreBytes + (byteAt frame 12).toNat) 16 := by
    refine (slice_three ?_).symm
    simp only [npqDataCoreBytes, npqDataOverheadBytes] at *
    omega
  rw [hsequence] at hdecrypt
  refine .inr ⟨plaintext, ⟨⟨_, _, hparts, hdecrypt⟩, hsequence⟩, ?_⟩
  rw [hsequence]
  rfl

/-! ### Nonces and headers -/

theorem makeNonce_inj {base : Block 16} {m n : UInt32} (h : makeNonce base m = makeNonce base n) :
    m = n := by
  have hval : (makeNonce base m).val = (makeNonce base n).val := by rw [h]
  have hxor := List.append_cancel_left hval
  have hstore := xorBytes_inj (by simp) (by simp) hxor
  rw [← load32BE_store32BE m, hstore, load32BE_store32BE]

theorem makeNonce_base_inj {base base' : Block 16} {n : UInt32}
    (h : makeNonce base n = makeNonce base' n) : base = base' := by
  have hval : (makeNonce base n).val = (makeNonce base' n).val := by rw [h]
  obtain ⟨hhead, htail⟩ := List.append_inj hval (by simp)
  rw [xorBytes_comm, xorBytes_comm (base'.val.drop 12)] at htail
  have hdrop := xorBytes_inj (by simp) (by simp) htail
  apply Block.ext
  rw [← List.take_append_drop 12 base.val, hhead, hdrop, List.take_append_drop]

@[simp] theorem length_dataCore (sessionId sequence : UInt32) (length : UInt8) :
    (dataCore sessionId sequence length).length = npqDataCoreBytes := rfl

theorem sequence_dataCore (sessionId sequence : UInt32) (length : UInt8) (rest : Bytes) :
    load32BE (slice (dataCore sessionId sequence length ++ rest) 8 4) = sequence := by
  have hfield : slice (dataCore sessionId sequence length) 8 4 = store32BE sequence :=
    slice_field (by simp [makeHeader]) (by simp)
  rw [slice_append_left (by simp [npqDataCoreBytes]), hfield, load32BE_store32BE]

/-! ## The channel -/

inductive Role where
  | device
  | server
  deriving DecidableEq

def Role.peer : Role → Role
  | .device => .server
  | .server => .device

/-- The two sessions, and for each end the records it sealed with the frames that the seals
returned, and the frames it accepted with their plaintexts, the first one first. -/
structure Channel where
  session : Role → NpqSession
  sealed : Role → List SealedRecord
  sent : Role → List Bytes
  accepted : Role → List (Bytes × Bytes)

/-- The channel between two sessions in their first state. -/
def Channel.established (device server : NpqSession) : Channel :=
  ⟨fun | .device => device | .server => server, fun _ => [], fun _ => [], fun _ => []⟩

def Channel.sealRecord (c : Channel) (role : Role) (plaintext : Bytes) : Channel :=
  match npqSeal sha256 (c.session role) plaintext with
  | (.error _, session) => { c with session := Function.update c.session role session }
  | (.ok frame, session) =>
    { c with
      session := Function.update c.session role session
      sealed := Function.update c.sealed role
        (c.sealed role ++ [(c.session role).nextRecord sha256 plaintext])
      sent := Function.update c.sent role (c.sent role ++ [frame]) }

def Channel.deliver (c : Channel) (role : Role) (frame : Bytes) : Channel :=
  match npqOpen sha256 (c.session role) frame with
  | (.error _, session) => { c with session := Function.update c.session role session }
  | (.ok plaintext, session) =>
    { c with
      session := Function.update c.session role session
      accepted := Function.update c.accepted role
        (c.accepted role ++ [(frame, plaintext)]) }

@[simp] theorem Channel.deliver_sealed (c : Channel) (role : Role) (frame : Bytes) :
    (c.deliver sha256 role frame).sealed = c.sealed := by
  unfold Channel.deliver
  split <;> rfl

/-- The frame is no forgery at this end: if Ascon accepts its parts under the key and the
nonce of the receiver, a seal of either end produced them under that key. -/
def Channel.NotForged (c : Channel) (role : Role) (frame : Bytes) : Prop :=
  let session := c.session role
  let key := (ratchetMaterial sha256 session.receiveChain session.receiveSequence).1
  let nonce := makeNonce session.receiveNonceBase session.receiveSequence
  ∀ ciphertext tag, frame = slice frame 0 npqDataCoreBytes ++ ciphertext ++ tag.val →
    asconAead128Decrypt key nonce (slice frame 0 npqDataCoreBytes) ciphertext tag ≠ none →
      ∃ sender, ∃ r ∈ c.sealed sender, r.key = key ∧ r.nonce = nonce ∧
        r.associatedData = slice frame 0 npqDataCoreBytes ∧ r.sealed = (ciphertext, tag)

/-- The reachable states, for the sessions of a handshake: any seals, and any deliveries
of frames that are no forgeries. -/
inductive Reachable (device server : NpqSession) : Channel → Prop where
  | established : Reachable device server (.established device server)
  | sealRecord {c : Channel} (role : Role) (plaintext : Bytes) (h : Reachable device server c) :
      Reachable device server (c.sealRecord sha256 role plaintext)
  | deliver {c : Channel} (role : Role) (frame : Bytes) (h : Reachable device server c)
      (genuine : c.NotForged sha256 role frame) :
      Reachable device server (c.deliver sha256 role frame)

/-! ## The invariant -/

/-- The chain key of a direction after `n` records. -/
def chainAt (chain : Block 32) : Nat → Block 32
  | 0 => chain
  | n + 1 => (ratchetMaterial sha256 (chainAt chain n) (UInt32.ofNat n)).2

/-- What the handshake fixes for one direction. -/
structure Direction where
  chain : Block 32
  nonceBase : Block 16
  sessionId : UInt32

def Direction.record (d : Direction) (n : Nat) (plaintext : Bytes) : SealedRecord :=
  NanoPQ.record sha256 (chainAt sha256 d.chain n) d.nonceBase d.sessionId (UInt32.ofNat n)
    plaintext

/-- One direction of the channel: the sender is in step with the records it sealed, the
receiver with those it accepted, which are the first ones sealed. -/
structure InStep (d : Direction) (sender receiver : NpqSession) (sealed : List SealedRecord)
    (accepted : List (Bytes × Bytes)) : Prop where
  sealed_lt : sealed.length < 2 ^ 32
  sent : sender.sendSequence = UInt32.ofNat sealed.length
  sendChain : sender.sendChain = chainAt sha256 d.chain sealed.length
  sendBase : sender.sendNonceBase = d.nonceBase
  sendId : sender.sessionId = d.sessionId
  records : ∀ n r, sealed[n]? = some r → r = d.record sha256 n r.plaintext
  received : receiver.receiveSequence = UInt32.ofNat accepted.length
  receiveChain : receiver.receiveChain = chainAt sha256 d.chain accepted.length
  receiveBase : receiver.receiveNonceBase = d.nonceBase
  accepted_eq : accepted <+: sealed.map fun r => (r.frame, r.plaintext)

variable {d : Direction} {sender receiver : NpqSession} {sealed : List SealedRecord}
  {accepted : List (Bytes × Bytes)}

theorem InStep.accepted_le (h : InStep sha256 d sender receiver sealed accepted) :
    accepted.length ≤ sealed.length := by
  have hle := h.accepted_eq.length_le
  rwa [List.length_map] at hle

theorem InStep.nextRecord_eq (h : InStep sha256 d sender receiver sealed accepted)
    (plaintext : Bytes) :
    sender.nextRecord sha256 plaintext = d.record sha256 sealed.length plaintext := by
  rw [NpqSession.nextRecord, h.sent, h.sendChain, h.sendBase, h.sendId]
  rfl

theorem InStep.afterSeal (h : InStep sha256 d sender receiver sealed accepted)
    (plaintext : Bytes) (hmax : sender.sendSequence ≠ 0xffffffff) :
    InStep sha256 d (sender.afterSeal sha256) receiver
      (sealed ++ [sender.nextRecord sha256 plaintext]) accepted := by
  have hlt : sealed.length + 1 < 2 ^ 32 := by
    have hlt := h.sealed_lt
    have hne : sealed.length ≠ 2 ^ 32 - 1 := fun heq => hmax (by rw [h.sent, heq]; rfl)
    omega
  refine ⟨?_, ?_, ?_, h.sendBase, h.sendId, ?_, h.received, h.receiveChain, h.receiveBase, ?_⟩
  · rwa [List.length_append]
  · rw [List.length_append, List.length_singleton, UInt32.ofNat_add]
    exact congrArg (· + 1) h.sent
  · rw [List.length_append, List.length_singleton, chainAt, ← h.sendChain, ← h.sent]
    rfl
  · intro n r hr
    rcases Nat.lt_trichotomy n sealed.length with hn | rfl | hn
    · rw [List.getElem?_append_left hn] at hr
      exact h.records n r hr
    · rw [List.getElem?_append_right (Nat.le_refl _), Nat.sub_self] at hr
      cases hr
      rw [h.nextRecord_eq]
      rfl
    · rw [List.getElem?_eq_none (by simp; omega)] at hr
      cases hr
  · rw [List.map_append]
    exact h.accepted_eq.trans (List.prefix_append _ _)

theorem InStep.receiver_afterSeal (h : InStep sha256 d sender receiver sealed accepted) :
    InStep sha256 d sender (receiver.afterSeal sha256) sealed accepted :=
  ⟨h.sealed_lt, h.sent, h.sendChain, h.sendBase, h.sendId, h.records, h.received,
    h.receiveChain, h.receiveBase, h.accepted_eq⟩

theorem InStep.sender_afterOpen (h : InStep sha256 d sender receiver sealed accepted) :
    InStep sha256 d (sender.afterOpen sha256) receiver sealed accepted :=
  ⟨h.sealed_lt, h.sent, h.sendChain, h.sendBase, h.sendId, h.records, h.received,
    h.receiveChain, h.receiveBase, h.accepted_eq⟩

theorem InStep.afterOpen (h : InStep sha256 d sender receiver sealed accepted)
    {r : SealedRecord} (hr : sealed[accepted.length]? = some r) :
    InStep sha256 d sender (receiver.afterOpen sha256) sealed
      (accepted ++ [(r.frame, r.plaintext)]) := by
  refine ⟨h.sealed_lt, h.sent, h.sendChain, h.sendBase, h.sendId, h.records, ?_, ?_,
    h.receiveBase, ?_⟩
  · rw [List.length_append, List.length_singleton, UInt32.ofNat_add]
    exact congrArg (· + 1) h.received
  · rw [List.length_append, List.length_singleton, chainAt, ← h.receiveChain, ← h.received]
    rfl
  · refine prefix_append_getElem h.accepted_eq ?_
    rw [List.getElem?_map, hr]
    rfl

/-- Both directions of a channel. -/
def Channel.Invariant (directions : Role → Direction) (c : Channel) : Prop :=
  ∀ role, InStep sha256 (directions role) (c.session role) (c.session role.peer)
    (c.sealed role) (c.accepted role.peer)

/-- The number of a sealed record is the one in the header of its frame. -/
theorem InStep.sequence_frame (h : InStep sha256 d sender receiver sealed accepted) {n : Nat}
    {r : SealedRecord} (hr : sealed[n]? = some r) :
    load32BE (slice r.frame 8 4) = UInt32.ofNat n := by
  have had : r.associatedData = dataCore d.sessionId (UInt32.ofNat n)
      (UInt8.ofNat r.plaintext.length) := by
    rw [h.records n r hr]
    rfl
  rw [SealedRecord.frame, had, List.append_assoc, sequence_dataCore]

/-- A genuine frame that an end opens is the next one that its peer sealed. -/
theorem Channel.Invariant.opened {directions : Role → Direction} {c : Channel}
    (h : c.Invariant sha256 directions)
    (hbase : (directions .device).nonceBase ≠ (directions .server).nonceBase) {role : Role}
    {frame plaintext : Bytes} (hgenuine : c.NotForged sha256 role.peer frame)
    (hopens : Opens sha256 (c.session role.peer) frame plaintext) :
    ∃ r, (c.sealed role)[(c.accepted role.peer).length]? = some r ∧ frame = r.frame ∧
      plaintext = r.plaintext := by
  obtain ⟨⟨ciphertext, tag, hframe, hdecrypt⟩, hsequence⟩ := hopens
  obtain ⟨origin, r, hmem, hkey, hnonce, had, hsealed⟩ := hgenuine ciphertext tag hframe
    (by rw [hdecrypt]; simp)
  obtain ⟨n, hn, hr⟩ := List.getElem_of_mem hmem
  have hr : (c.sealed origin)[n]? = some r := by rw [List.getElem?_eq_getElem hn, hr]
  have hframe' : frame = r.frame := by
    rw [SealedRecord.frame, had, hsealed]
    exact hframe
  have hplaintext : plaintext = r.plaintext := by
    have hround := r.decrypt_sealed
    rw [hsealed, hkey, hnonce, had, hdecrypt] at hround
    exact Option.some.inj hround
  have hnumber : UInt32.ofNat n = UInt32.ofNat (c.accepted role.peer).length := by
    rw [← (h origin).sequence_frame sha256 hr, ← hframe', hsequence, (h role).received]
  have hn' : n = (c.accepted role.peer).length := by
    have hlt := (h role).sealed_lt
    have hle := (h role).accepted_le
    have hlt' := (h origin).sealed_lt
    have heq := congrArg UInt32.toNat hnumber
    rw [UInt32.toNat_ofNat', UInt32.toNat_ofNat', Nat.mod_eq_of_lt (by omega),
      Nat.mod_eq_of_lt (by omega)] at heq
    exact heq
  have horigin : origin = role := by
    have hnonce' : r.nonce = makeNonce (directions origin).nonceBase (UInt32.ofNat n) := by
      rw [(h origin).records n r hr]
      rfl
    rw [hnonce', (h role).receiveBase, (h role).received, ← hn'] at hnonce
    have hbases := makeNonce_base_inj hnonce
    cases origin <;> cases role
    · rfl
    · exact absurd hbases hbase
    · exact absurd hbases.symm hbase
    · rfl
  subst horigin
  exact ⟨r, hn' ▸ hr, hframe', hplaintext⟩

theorem Channel.Invariant.sealRecord {directions : Role → Direction} {c : Channel}
    (h : c.Invariant sha256 directions) (role : Role) (plaintext : Bytes) :
    (c.sealRecord sha256 role plaintext).Invariant sha256 directions := by
  unfold Channel.sealRecord
  obtain ⟨failure, hseal⟩ | ⟨-, hmax, hseal⟩ := npqSeal_cases sha256 (c.session role) plaintext
  · simp only [hseal, Function.update_eq_self]
    exact h
  · simp only [hseal]
    intro sender
    rcases eq_or_ne sender role with rfl | hsender
    · have hpeer : sender.peer ≠ sender := by cases sender <;> decide
      simp only [Function.update_self, Function.update_of_ne hpeer]
      exact (h sender).afterSeal sha256 plaintext hmax
    · obtain rfl : role = sender.peer := by
        cases role <;> cases sender <;> first | rfl | contradiction
      simp only [Function.update_self, Function.update_of_ne hsender]
      exact (h sender).receiver_afterSeal sha256

theorem Channel.Invariant.deliver {directions : Role → Direction} {c : Channel}
    (h : c.Invariant sha256 directions)
    (hbase : (directions .device).nonceBase ≠ (directions .server).nonceBase) {role : Role}
    {frame : Bytes} (hgenuine : c.NotForged sha256 role frame) :
    (c.deliver sha256 role frame).Invariant sha256 directions := by
  unfold Channel.deliver
  obtain ⟨failure, hopen⟩ | ⟨plaintext, hopens, hopen⟩ :=
    npqOpen_cases sha256 (c.session role) frame
  · simp only [hopen, Function.update_eq_self]
    exact h
  · simp only [hopen]
    intro sender
    rcases eq_or_ne sender.peer role with rfl | hsender
    · have hpeer : sender ≠ sender.peer := by cases sender <;> decide
      obtain ⟨r, hr, hframe, hplaintext⟩ := h.opened sha256 hbase hgenuine hopens
      simp only [Function.update_self, Function.update_of_ne hpeer, hframe, hplaintext]
      exact (h sender).afterOpen sha256 hr
    · obtain rfl : role = sender := by cases role <;> cases sender <;> first | rfl | contradiction
      simp only [Function.update_self, Function.update_of_ne hsender]
      exact (h role).sender_afterOpen sha256

/-! ## The sessions of a handshake -/

/-- The two sessions of one handshake, in their first state. -/
structure Mirrored (device server : NpqSession) : Prop where
  clientChain : server.receiveChain = device.sendChain
  serverChain : device.receiveChain = server.sendChain
  clientBase : server.receiveNonceBase = device.sendNonceBase
  serverBase : device.receiveNonceBase = server.sendNonceBase
  deviceSent : device.sendSequence = 0
  deviceReceived : device.receiveSequence = 0
  serverSent : server.sendSequence = 0
  serverReceived : server.receiveSequence = 0

/-- The HMAC input of a call of `hkdf_expand_label`. -/
def expandInput (label : String) (transcript : Block 32) : Bytes :=
  ascii label ++ [0] ++ transcript.val ++ [1]

/-- Under one key, the given inputs have HMACs that differ in their first 16 bytes. -/
def HmacOutputsDiffer (key : Block 32) (inputs : List Bytes) : Prop :=
  ∀ a ∈ inputs, ∀ b ∈ inputs, a ≠ b →
    digest16 (hmacSha256 sha256 key.val a) ≠ digest16 (hmacSha256 sha256 key.val b)

/-- The inputs from which a handshake derives its two nonce bases. -/
def nonceBaseInputs (hello : Block 48) (challenge : Block 60) : List Bytes :=
  [expandInput "NPQ/1 client nonce" (transcriptHash sha256 hello challenge),
    expandInput "NPQ/1 server nonce" (transcriptHash sha256 hello challenge)]

variable {rootKey : Block 32} {hello : Block 48} {challenge : Block 60}
  {device server : NpqSession}

theorem hkdfExpandLabel_ok (prk : Block 32) {label : String} (h : (ascii label).length ≤ 24)
    (transcript : Block 32) : hkdfExpandLabel sha256 prk label transcript
      = .ok (hmacSha256 sha256 prk.val (expandInput label transcript)) := by
  simp only [hkdfExpandLabel, Nat.not_lt.mpr h, if_false]
  rfl

theorem deriveTranscriptPrk_ok {transcript prk : Block 32}
    (h : deriveTranscriptPrk sha256 rootKey hello challenge = .ok (transcript, prk)) :
    transcript = transcriptHash sha256 hello challenge ∧
      prk = sessionPrk sha256 rootKey transcript := by
  unfold deriveTranscriptPrk at h
  split at h
  · split at h
    · cases h
      exact ⟨rfl, rfl⟩
    · cases h
  · cases h

/-- The material that a handshake derives: for each end, its chain and its nonce base. -/
structure Derived (device server : NpqSession) (prk transcript : Block 32) : Prop where
  mirrored : Mirrored device server
  clientBase : device.sendNonceBase
    = digest16 (hmacSha256 sha256 prk.val (expandInput "NPQ/1 client nonce" transcript))
  serverBase : server.sendNonceBase
    = digest16 (hmacSha256 sha256 prk.val (expandInput "NPQ/1 server nonce" transcript))

theorem npqDeriveSession_derived
    (hdevice : npqDeriveSession sha256 npqRoleDevice rootKey hello challenge = .ok device)
    (hserver : npqDeriveSession sha256 npqRoleServer rootKey hello challenge = .ok server) :
    Derived sha256 device server
      (sessionPrk sha256 rootKey (transcriptHash sha256 hello challenge))
      (transcriptHash sha256 hello challenge) := by
  unfold npqDeriveSession at hdevice hserver
  cases hprk : deriveTranscriptPrk sha256 rootKey hello challenge with
  | error failure => simp [hprk, npqRoleDevice] at hdevice
  | ok derived =>
    obtain ⟨transcript, prk⟩ := derived
    obtain ⟨rfl, rfl⟩ := deriveTranscriptPrk_ok sha256 hprk
    have hroles : ¬ (npqRoleServer = npqRoleDevice) := by decide
    simp (disch := decide) only [hprk, hroles, hkdfExpandLabel_ok, discardNpq, ne_eq, not_true,
      false_and, and_false, if_true, if_false, Except.ok.injEq] at hdevice hserver
    subst hdevice hserver
    exact ⟨⟨rfl, rfl, rfl, rfl, rfl, rfl, rfl, rfl⟩, rfl, rfl⟩

theorem Derived.nonceBase_ne
    (h : Derived sha256 device server
      (sessionPrk sha256 rootKey (transcriptHash sha256 hello challenge))
      (transcriptHash sha256 hello challenge))
    (hdiffer : HmacOutputsDiffer sha256
      (sessionPrk sha256 rootKey (transcriptHash sha256 hello challenge))
      (nonceBaseInputs sha256 hello challenge)) :
    device.sendNonceBase ≠ server.sendNonceBase := by
  rw [h.clientBase, h.serverBase]
  refine hdiffer _ (by simp [nonceBaseInputs]) _ (by simp [nonceBaseInputs]) fun heq => ?_
  unfold expandInput at heq
  simp only [List.append_assoc] at heq
  have hlabels : ascii "NPQ/1 client nonce" ≠ ascii "NPQ/1 server nonce" := by decide
  exact hlabels (List.append_inj heq (by decide)).1

/-! ## Safety of the channel -/

/-- The two directions of the channel between two sessions in their first state. -/
def directionsOf (device server : NpqSession) : Role → Direction
  | .device => ⟨device.sendChain, device.sendNonceBase, device.sessionId⟩
  | .server => ⟨server.sendChain, server.sendNonceBase, server.sessionId⟩

theorem Mirrored.invariant (h : Mirrored device server) :
    (Channel.established device server).Invariant sha256 (directionsOf device server) := by
  intro role
  cases role with
  | device =>
    exact ⟨Nat.two_pow_pos 32, h.deviceSent, rfl, rfl, rfl, nofun, h.serverReceived, h.clientChain,
      h.clientBase, List.nil_prefix⟩
  | server =>
    exact ⟨Nat.two_pow_pos 32, h.serverSent, rfl, rfl, rfl, nofun, h.deviceReceived, h.serverChain,
      h.serverBase, List.nil_prefix⟩

theorem Reachable.invariant {c : Channel} (h : Reachable sha256 device server c)
    (hmirrored : Mirrored device server)
    (hbase : device.sendNonceBase ≠ server.sendNonceBase) :
    c.Invariant sha256 (directionsOf device server) := by
  induction h with
  | established => exact hmirrored.invariant sha256
  | sealRecord role plaintext _ ih => exact ih.sealRecord sha256 role plaintext
  | deliver role frame _ genuine ih => exact ih.deliver sha256 hbase genuine

theorem nodup_map_range {α : Type} {n : Nat} (hn : n ≤ 2 ^ 32) {g : UInt32 → α}
    (hg : Function.Injective g) : ((List.range n).map fun i => g (UInt32.ofNat i)).Nodup := by
  refine List.Nodup.map_on ?_ List.nodup_range
  intro i hi j hj heq
  have heq := congrArg UInt32.toNat (hg heq)
  rw [List.mem_range] at hi hj
  rwa [UInt32.toNat_ofNat', UInt32.toNat_ofNat', Nat.mod_eq_of_lt (by omega),
    Nat.mod_eq_of_lt (by omega)] at heq

theorem InStep.nonces_nodup (h : InStep sha256 d sender receiver sealed accepted) :
    (sealed.map SealedRecord.nonce).Nodup := by
  rw [map_eq_map_range (fun n => makeNonce d.nonceBase (UInt32.ofNat n))
    fun n r hr => by rw [h.records n r hr]; rfl]
  exact nodup_map_range h.sealed_lt.le fun _ _ => makeNonce_inj

theorem InStep.frames_nodup (h : InStep sha256 d sender receiver sealed accepted) :
    (sealed.map SealedRecord.frame).Nodup := by
  have hsequences : (sealed.map fun r => load32BE (slice r.frame 8 4)).Nodup := by
    rw [map_eq_map_range UInt32.ofNat fun n r hr => h.sequence_frame sha256 hr]
    exact nodup_map_range h.sealed_lt.le fun _ _ => id
  have hcomp : (sealed.map fun r => load32BE (slice r.frame 8 4))
      = (sealed.map SealedRecord.frame).map fun frame => load32BE (slice frame 8 4) := by
    rw [List.map_map]
    rfl
  rw [hcomp] at hsequences
  exact List.Nodup.of_map _ hsequences

/-- The frames that the seals returned are those of the records sealed. -/
theorem Reachable.sent_eq {c : Channel} (h : Reachable sha256 device server c) (role : Role) :
    c.sent role = (c.sealed role).map SealedRecord.frame := by
  induction h with
  | established => rfl
  | @sealRecord c sender plaintext _ ih =>
    unfold Channel.sealRecord
    obtain ⟨failure, hseal⟩ | ⟨-, -, hseal⟩ := npqSeal_cases sha256 (c.session sender) plaintext
    · simp only [hseal]
      exact ih
    · simp only [hseal]
      by_cases hrole : role = sender
      · subst hrole
        rw [Function.update_self, Function.update_self, List.map_append, ih]
        rfl
      · rw [Function.update_of_ne hrole, Function.update_of_ne hrole]
        exact ih
  | @deliver c receiver frame _ _ ih =>
    unfold Channel.deliver
    obtain ⟨failure, hopen⟩ | ⟨plaintext, -, hopen⟩ :=
      npqOpen_cases sha256 (c.session receiver) frame
    · simp only [hopen]
      exact ih
    · simp only [hopen]
      exact ih

structure ChannelSafe (c : Channel) : Prop where
  /-- Each seal returned the frame of the record it encrypted. -/
  sent_eq : ∀ role, c.sent role = (c.sealed role).map SealedRecord.frame
  /-- The frames an end accepted, with their plaintexts, are the first ones its peer sealed. -/
  accepted_prefix : ∀ role : Role,
    c.accepted role <+: (c.sealed role.peer).map fun r => (r.frame, r.plaintext)
  accepted_once : ∀ role, ((c.accepted role).map Prod.fst).Nodup
  sealed_once : ∀ role, ((c.sealed role).map fun r => (r.key, r.nonce)).Nodup
  open_failed : ∀ role frame failure,
    (npqOpen sha256 (c.session role) frame).1 = .error failure →
      (npqOpen sha256 (c.session role) frame).2 = c.session role
  seal_exhausted : ∀ role plaintext, (c.session role).sendSequence = 0xffffffff →
    ∃ failure, npqSeal sha256 (c.session role) plaintext = (.error failure, c.session role)

theorem npqOpen_failed {session : NpqSession} {frame : Bytes} {failure : NpqStatus}
    (h : (npqOpen sha256 session frame).1 = .error failure) :
    (npqOpen sha256 session frame).2 = session := by
  obtain ⟨other, hopen⟩ | ⟨plaintext, -, hopen⟩ := npqOpen_cases sha256 session frame
  · rw [hopen]
  · rw [hopen] at h
    cases h

theorem Channel.Invariant.safe {directions : Role → Direction} {c : Channel}
    (h : c.Invariant sha256 directions)
    (hsent : ∀ role, c.sent role = (c.sealed role).map SealedRecord.frame) :
    ChannelSafe sha256 c := by
  have hpeer : ∀ role : Role, role.peer.peer = role := fun role => by cases role <;> rfl
  have hpreceding : ∀ role : Role,
      c.accepted role <+: (c.sealed role.peer).map fun r => (r.frame, r.plaintext) := by
    intro role
    have := (h role.peer).accepted_eq
    rwa [hpeer role] at this
  refine ⟨hsent, hpreceding, fun role => ?_, fun role => ?_,
    fun _ _ _ hfailed => npqOpen_failed sha256 hfailed, fun role plaintext hmax => ?_⟩
  · have hframes := (h role.peer).frames_nodup sha256
    have hsub := ((hpreceding role).map Prod.fst).sublist
    rw [List.map_map] at hsub
    exact hframes.sublist hsub
  · have hnonces := (h role).nonces_nodup sha256
    have hcomp : (c.sealed role).map SealedRecord.nonce
        = ((c.sealed role).map fun r => (r.key, r.nonce)).map Prod.snd := by
      rw [List.map_map]
      rfl
    rw [hcomp] at hnonces
    exact List.Nodup.of_map _ hnonces
  · obtain hfailed | ⟨-, hne, -⟩ := npqSeal_cases sha256 (c.session role) plaintext
    · exact hfailed
    · exact absurd hmax hne

theorem reachable_channelSafe {c : Channel}
    (hdevice : npqDeriveSession sha256 npqRoleDevice rootKey hello challenge = .ok device)
    (hserver : npqDeriveSession sha256 npqRoleServer rootKey hello challenge = .ok server)
    (hdiffer : HmacOutputsDiffer sha256
      (sessionPrk sha256 rootKey (transcriptHash sha256 hello challenge))
      (nonceBaseInputs sha256 hello challenge))
    (h : Reachable sha256 device server c) : ChannelSafe sha256 c := by
  have hderived := npqDeriveSession_derived sha256 hdevice hserver
  exact (h.invariant sha256 hderived.mirrored (hderived.nonceBase_ne sha256 hdiffer)).safe sha256
    (h.sent_eq sha256)

/-! A handshake with the sum of the bytes as the hash function. -/

def byteSum (b : Bytes) : Block 32 := ⟨b.foldl (· + ·) 0 :: List.replicate 31 0, by simp⟩

def exampleHello : Block 48 :=
  match npqMakeHello byteSum (Block.zero 32) (Block.zero 8) 1 with
  | .ok hello => hello
  | .error _ => Block.zero 48

def exampleChallenge : Block 60 :=
  match npqMakeChallenge byteSum (Block.zero 32) exampleHello (Block.zero 16) with
  | .ok challenge => challenge
  | .error _ => Block.zero 60

def exampleSession (role : UInt8) : NpqSession :=
  match npqDeriveSession byteSum role (Block.zero 32) exampleHello exampleChallenge with
  | .ok session => session
  | .error _ => npqClose

/-- The frame of a record is no forgery if the receiver does not accept it as its next one, or
if an end sealed it under the key and the nonce of the receiver. -/
theorem Channel.notForged_record {c : Channel} {role : Role} {r : SealedRecord}
    (hlength : r.associatedData.length = npqDataCoreBytes)
    (h : let session := c.session role
      let key := (ratchetMaterial sha256 session.receiveChain session.receiveSequence).1
      let nonce := makeNonce session.receiveNonceBase session.receiveSequence
      asconAead128Decrypt key nonce r.associatedData r.sealed.1 r.sealed.2 = none ∨
        (∃ sender, r ∈ c.sealed sender) ∧ r.key = key ∧ r.nonce = nonce) :
    c.NotForged sha256 role r.frame := by
  intro ciphertext tag hframe haccepted
  have had : slice r.frame 0 npqDataCoreBytes = r.associatedData := by
    rw [SealedRecord.frame, List.append_assoc, slice_append_left hlength.ge, slice_self _ hlength]
  rw [had] at haccepted ⊢
  rw [had, SealedRecord.frame, List.append_assoc, List.append_assoc] at hframe
  obtain ⟨hciphertext, htag⟩ := List.append_inj' (List.append_cancel_left hframe)
    (by rw [Block.length_val, Block.length_val])
  obtain rfl := Block.ext htag
  subst hciphertext
  rcases h with hrejected | ⟨⟨sender, hmem⟩, hkey, hnonce⟩
  · exact absurd hrejected haccepted
  · exact ⟨sender, r, hmem, hkey, hnonce, rfl, rfl⟩

/-- The device has sealed two records. -/
def exampleSealed : Channel :=
  ((Channel.established (exampleSession npqRoleDevice) (exampleSession npqRoleServer)).sealRecord
    byteSum .device [1, 2, 3]).sealRecord byteSum .device [4]

def exampleRecord (n : Nat) : SealedRecord :=
  (exampleSealed.sealed .device).getD n
    ((exampleSession npqRoleDevice).nextRecord byteSum [1, 2, 3])

/-- Both records are delivered, the first one is replayed and sent back to the device. -/
def exampleDelivered : Channel :=
  (((exampleSealed.deliver byteSum .server (exampleRecord 0).frame).deliver byteSum .server
    (exampleRecord 1).frame).deliver byteSum .server (exampleRecord 0).frame).deliver byteSum
    .device (exampleRecord 0).frame

theorem exampleSession_channelSafe :
    ∃ c, Reachable byteSum (exampleSession npqRoleDevice) (exampleSession npqRoleServer) c ∧
      (c.accepted .server).map Prod.snd = [[1, 2, 3], [4]] ∧ ChannelSafe byteSum c := by
  have hdevice : npqDeriveSession byteSum npqRoleDevice (Block.zero 32) exampleHello
      exampleChallenge = .ok (exampleSession npqRoleDevice) := by decide +kernel
  have hserver : npqDeriveSession byteSum npqRoleServer (Block.zero 32) exampleHello
      exampleChallenge = .ok (exampleSession npqRoleServer) := by decide +kernel
  have hdiffer : HmacOutputsDiffer byteSum
      (sessionPrk byteSum (Block.zero 32) (transcriptHash byteSum exampleHello exampleChallenge))
      (nonceBaseInputs byteSum exampleHello exampleChallenge) := by
    unfold HmacOutputsDiffer
    decide +kernel
  have hsealed : Reachable byteSum (exampleSession npqRoleDevice) (exampleSession npqRoleServer)
      exampleSealed := .sealRecord .device [4] (.sealRecord .device [1, 2, 3] .established)
  have hrecord : (exampleRecord 0).associatedData.length = npqDataCoreBytes ∧
      (exampleRecord 1).associatedData.length = npqDataCoreBytes := by decide +kernel
  have hmem : exampleRecord 0 ∈ exampleSealed.sealed .device ∧
      exampleRecord 1 ∈ exampleSealed.sealed .device := by decide +kernel
  have hfirst := hsealed.deliver .server (exampleRecord 0).frame
    (Channel.notForged_record byteSum hrecord.1 (.inr ⟨⟨.device, hmem.1⟩, by decide +kernel⟩))
  have hmemSecond : exampleRecord 1 ∈
      (exampleSealed.deliver byteSum .server (exampleRecord 0).frame).sealed .device := by
    rw [Channel.deliver_sealed]
    exact hmem.2
  have hsecond := hfirst.deliver .server (exampleRecord 1).frame
    (Channel.notForged_record byteSum hrecord.2 (.inr ⟨⟨.device, hmemSecond⟩, by decide +kernel⟩))
  have hreplayed := hsecond.deliver .server (exampleRecord 0).frame
    (Channel.notForged_record byteSum hrecord.1 (.inl (by decide +kernel)))
  have hreachable : Reachable byteSum (exampleSession npqRoleDevice)
      (exampleSession npqRoleServer) exampleDelivered :=
    hreplayed.deliver .device (exampleRecord 0).frame
      (Channel.notForged_record byteSum hrecord.1 (.inl (by decide +kernel)))
  exact ⟨exampleDelivered, hreachable, by decide +kernel,
    reachable_channelSafe byteSum hdevice hserver hdiffer hreachable⟩

end C0PQLink.NanoPQ
