import C0PQLink.ReferencePeer.Peer
import C0PQLink.Session.Ratchet

/-!
# The records of the peer

What `openRecord`, `sealRecord` and the response cache of `handleData` do to a session, in
the terms of the records of the client.

* `sealRecord_eq`: a seal encrypts the next record of the session.
* `openRecord_cases`: an open accepts a record of the current number, or changes nothing.
* `handleRecord_cases`: a frame is refused, answered from the cache, or accepted.
-/

namespace C0PQLink.ReferencePeer

open Foundation

variable (sha256 : Bytes → Block 32)

theorem ratchetStep_eq_client : ratchetStep = C0PQLink.ratchetStep := rfl

theorem recordNonce_eq (base : Block 16) {sequence : Nat} (h : sequence < 2 ^ 64) :
    recordNonce base sequence = .ok (makeRecordNonce base (UInt64.ofNat sequence)) := by
  have hsequence : (UInt64.ofNat sequence).toNat = sequence := by
    rw [UInt64.toNat_ofNat', Nat.mod_eq_of_lt h]
  have hencoded := u64_toNat (UInt64.ofNat sequence)
  rw [hsequence] at hencoded
  simp only [recordNonce, hencoded, except_ok_bind, except_pure]
  rfl

/-- The message key of a direction, from its traffic key and its chain key. -/
def messageKey (mode : Int) (trafficKey : Block 16) (chainKey : Block 32) : Block 16 :=
  if mode = pqBootstrapRatchet then (C0PQLink.ratchetStep sha256 chainKey).1 else trafficKey

def nextChainKey (mode : Int) (chainKey : Block 32) : Block 32 :=
  if mode = pqBootstrapRatchet then (C0PQLink.ratchetStep sha256 chainKey).2 else chainKey

/-! ## Sealing -/

/-- The record that a seal of the session encrypts. -/
def Session.nextRecord (session : Session) (keys : SessionKeys) (message : Bytes) :
    SealedRecord where
  key := messageKey sha256 session.device.mode keys.serverTrafficKey keys.serverChainKey
  nonce := makeRecordNonce keys.serverNonceBase (UInt64.ofNat session.sendSequence)
  associatedData := recordData 1 message.length session.sessionId
    (UInt64.ofNat session.sendSequence)
  plaintext := message

def sealedKeys (mode : Int) (keys : SessionKeys) : SessionKeys :=
  { keys with serverChainKey := nextChainKey sha256 mode keys.serverChainKey }

def Session.afterSeal (session : Session) (keys : SessionKeys) : Session :=
  { session with
    keys := some (sealedKeys sha256 session.device.mode keys)
    sendSequence := session.sendSequence + 1 }

theorem sealRecord_eq {session : Session} {keys : SessionKeys} {message : Bytes}
    (hlength : message.length ≤ recordPlaintextMax) (hkeys : session.keys = some keys)
    (hsequence : session.sendSequence < 2 ^ 64) :
    sealRecord sha256 session message
      = (.ok (session.nextRecord sha256 keys message).frame, session.afterSeal sha256 keys) := by
  have hmax : message.length ≤ 48 := hlength
  have htoNat : (UInt64.ofNat session.sendSequence).toNat = session.sendSequence := by
    rw [UInt64.toNat_ofNat', Nat.mod_eq_of_lt hsequence]
  have hencoded := u64_toNat (UInt64.ofNat session.sendSequence)
  rw [htoNat] at hencoded
  have hpayload : 8 + message.length + 16 ≤ 255 := by omega
  simp only [sealRecord, Nat.not_lt.mpr hmax, if_false, hkeys,
    encodeHeader_of_le frameData 1 session.sessionId hpayload, hencoded,
    recordNonce_eq _ hsequence, except_ok_bind, except_pure, asconEncrypt_eq]
  by_cases hmode : session.device.mode = pqBootstrapRatchet
  · simp only [hmode, if_true, SealedRecord.frame, SealedRecord.sealed, Session.nextRecord,
      Session.afterSeal, sealedKeys, messageKey, nextChainKey, recordData_eq 1 hlength,
      Option.getD_some]
    rfl
  · simp only [hmode, if_false, SealedRecord.frame, SealedRecord.sealed, Session.nextRecord,
      Session.afterSeal, sealedKeys, messageKey, nextChainKey, recordData_eq 1 hlength,
      Option.getD_none]

/-! ## Opening -/

def openedKeys (mode : Int) (keys : SessionKeys) : SessionKeys :=
  { keys with clientChainKey := nextChainKey sha256 mode keys.clientChainKey }

def Session.afterOpen (session : Session) (keys : SessionKeys) : Session :=
  { session with
    keys := some (openedKeys sha256 session.device.mode keys)
    receiveSequence := session.receiveSequence + 1 }

/-- What an accepted frame is, for the session that accepts it. -/
structure Session.Opens (session : Session) (keys : SessionKeys) (frame plaintext : Bytes) :
    Prop where
  decrypted : ∃ ciphertext tag, frame = slice frame 0 18 ++ ciphertext ++ tag.val ∧
    asconAead128Decrypt
      (messageKey sha256 session.device.mode keys.clientTrafficKey keys.clientChainKey)
      (makeRecordNonce keys.clientNonceBase (UInt64.ofNat session.receiveSequence))
      (slice frame 0 18) ciphertext tag = some plaintext
  flags : byteAt frame 4 = 0
  sequence : beNat (slice frame 10 8) = session.receiveSequence

/-- The header of the frame and its fields. -/
theorem fields_of_decodeHeader {frame : Bytes} {header : Header}
    (h : decodeHeader frame = .ok header) :
    header.payloadLength + 10 = frame.length ∧ header.flags = byteAt frame 4
      ∧ header.type = byteAt frame 3 := by
  unfold decodeHeader at h
  split at h
  · cases h
  rename_i hvalid
  simp only [not_or, not_not] at hvalid
  have hheader := Except.ok.inj h
  subst hheader
  exact ⟨hvalid.2.2.2.2, rfl, rfl⟩

theorem openRecord_cases (session : Session) {keys : SessionKeys} (hkeys : session.keys = some keys)
    {frame : Bytes} {header : Header} (hheader : decodeHeader frame = .ok header) :
    (∃ error, openRecord sha256 session frame header = (.error error, session)) ∨
      ∃ plaintext, session.Opens sha256 keys frame plaintext ∧
        openRecord sha256 session frame header = (.ok plaintext, session.afterOpen sha256 keys) := by
  obtain ⟨hlength, hflagsByte, -⟩ := fields_of_decodeHeader hheader
  unfold openRecord
  split
  · exact .inl ⟨_, rfl⟩
  rename_i hshape
  simp only [not_or, not_not, Nat.not_lt] at hshape
  obtain ⟨-, hflags, hpayload⟩ := hshape
  simp only
  split
  · exact .inl ⟨_, rfl⟩
  rename_i hsequence
  have hsequence := not_not.mp hsequence
  split
  · exact .inl ⟨_, rfl⟩
  have hlt : session.receiveSequence < 2 ^ 64 := by
    rw [← hsequence]
    have hbound := beNat_lt (slice frame 10 8)
    have height : (slice frame 10 8).length = 8 := by
      rw [length_slice]
      omega
    rw [height] at hbound
    exact hbound
  obtain ⟨tag, htag⟩ : ∃ tag : Block 16,
      tag.val = frame.drop (18 + (header.payloadLength - 24)) := by
    refine ⟨⟨frame.drop (18 + (header.payloadLength - 24)), ?_⟩, rfl⟩
    rw [List.length_drop]
    omega
  have hparts : frame = slice frame 0 18 ++ slice frame 18 (header.payloadLength - 24)
      ++ tag.val := by
    rw [htag, slice, List.drop_zero, slice, List.append_assoc, ← List.drop_drop,
      List.take_append_drop, List.take_append_drop]
  simp only [hkeys, hsequence, recordNonce_eq _ hlt, ← htag, asconDecrypt_eq]
  by_cases hmode : session.device.mode = pqBootstrapRatchet
  · simp only [hmode, if_true]
    split
    · exact .inl ⟨_, rfl⟩
    rename_i plaintext hdecrypt
    refine .inr ⟨plaintext, ⟨⟨_, tag, hparts, ?_⟩, hflagsByte ▸ hflags, hsequence⟩, ?_⟩
    · simpa only [messageKey, hmode, if_true, ← ratchetStep_eq_client] using hdecrypt
    · simp only [Session.afterOpen, openedKeys, nextChainKey, hmode, if_true, Option.getD_some]
      rfl
  · simp only [hmode, if_false]
    split
    · exact .inl ⟨_, rfl⟩
    rename_i plaintext hdecrypt
    refine .inr ⟨plaintext, ⟨⟨_, tag, hparts, ?_⟩, hflagsByte ▸ hflags, hsequence⟩, ?_⟩
    · simpa only [messageKey, hmode, if_false] using hdecrypt
    · simp only [Session.afterOpen, openedKeys, nextChainKey, hmode, if_false, Option.getD_none]

/-- The next record of the client is opened by the session. -/
theorem openRecord_next {session : Session} {keys : SessionKeys}
    (hkeys : session.keys = some keys) (hestablished : session.established = true)
    (hlt : session.receiveSequence < 2 ^ 64) {r : SealedRecord} {sessionId : UInt32}
    (hform : r.WellFormed 0 sessionId (UInt64.ofNat session.receiveSequence))
    (hkey : r.key = messageKey sha256 session.device.mode keys.clientTrafficKey
      keys.clientChainKey)
    (hnonce : r.nonce = makeRecordNonce keys.clientNonceBase
      (UInt64.ofNat session.receiveSequence))
    {header : Header} (hheader : decodeHeader r.frame = .ok header) :
    openRecord sha256 session r.frame header
      = (.ok r.plaintext, session.afterOpen sha256 keys) := by
  obtain ⟨hpayload, hflags, -⟩ := fields_of_decodeHeader hheader
  have hmax : r.plaintext.length ≤ 48 := hform.length
  have hframe : r.frame.length = 34 + r.plaintext.length := by
    simp only [SealedRecord.frame, List.length_append, hform.length_associatedData,
      r.length_sealed, Block.length_val]
    omega
  have hzero : byteAt r.frame 4 = 0 := by
    rw [SealedRecord.frame, hform.associatedData, recordData_eq 0 hform.length]
    rfl
  have hlength : header.payloadLength - 24 = r.plaintext.length := by omega
  have hshape : ¬ (¬ session.established = true ∨ header.flags ≠ 0 ∨ header.payloadLength < 24) := by
    rw [hflags, hzero]
    rintro (h | h | h)
    · exact h hestablished
    · exact h rfl
    · omega
  have hsequence : beNat (slice r.frame 10 8) = session.receiveSequence := by
    have height : (slice r.frame 10 8).length = 8 := by
      rw [length_slice]
      omega
    rw [← toNat_load64BE height, hform.sequence_frame, UInt64.toNat_ofNat', Nat.mod_eq_of_lt hlt]
  have htag : r.frame.drop (18 + r.plaintext.length) = r.sealed.2.val := by
    refine List.drop_left' ?_
    rw [List.length_append, hform.length_associatedData, r.length_sealed]
  have hdecrypt := r.decrypt_sealed
  rw [hkey, hnonce, messageKey] at hdecrypt
  rw [openRecord, if_neg hshape]
  simp only [hsequence, ne_eq, not_true_eq_false, if_false, hlength, Nat.not_lt.mpr hmax, hkeys,
    recordNonce_eq _ hlt, hform.slice_associatedData, hform.slice_ciphertext, htag,
    asconDecrypt_eq]
  by_cases hmode : session.device.mode = pqBootstrapRatchet
  · rw [if_pos hmode] at hdecrypt
    simp only [hmode, if_true, ratchetStep_eq_client, hdecrypt, Session.afterOpen, openedKeys,
      nextChainKey, Option.getD_some]
  · rw [if_neg hmode] at hdecrypt
    simp only [hmode, if_false, hdecrypt, Session.afterOpen, openedKeys, nextChainKey,
      Option.getD_none]

/-! ## The response cache -/

/-- An application that does not throw and answers with at most 48 bytes. -/
def FittingApplication (application : Application) : Prop :=
  ∀ plaintext, ∃ answer, application plaintext = .ok answer
    ∧ ∀ message, answer = some message → message.length ≤ recordPlaintextMax

/-- What the session is after a frame was accepted and answered. -/
def Session.remember (session : Session) (frame : Bytes) (response : Option Bytes) : Session :=
  { session with lastClientFrame := some frame, lastResponseFrame := response }

/-- The response to an accepted record and the session it leaves. -/
def Session.answer (session : Session) (keys : SessionKeys) :
    Option Bytes → Option Bytes × Session
  | none => (none, session)
  | some message =>
    (some (session.nextRecord sha256 keys message).frame, session.afterSeal sha256 keys)

/-- A frame is answered from the cache, refused, or accepted and answered. -/
theorem handleRecord_cases {application : Application} (hfits : FittingApplication application)
    (session : Session) {keys : SessionKeys} (hkeys : session.keys = some keys)
    (hsequence : session.sendSequence < 2 ^ 64) {frame : Bytes} {header : Header}
    (hheader : decodeHeader frame = .ok header) :
    (session.lastClientFrame = some frame ∧
        handleRecord sha256 application session frame header
          = ⟨.ok session.lastResponseFrame, session, none⟩)
      ∨ (∃ error, handleRecord sha256 application session frame header
          = ⟨.error error, session, none⟩)
      ∨ ∃ plaintext answer, session.Opens sha256 keys frame plaintext
          ∧ application plaintext = .ok answer
          ∧ (∀ message, answer = some message → message.length ≤ recordPlaintextMax)
          ∧ let opened := session.afterOpen sha256 keys
            let keys' := openedKeys sha256 session.device.mode keys
            handleRecord sha256 application session frame header
              = ⟨.ok (opened.answer sha256 keys' answer).1,
                (opened.answer sha256 keys' answer).2.remember frame
                  (opened.answer sha256 keys' answer).1, some plaintext⟩ := by
  by_cases hcached : session.lastClientFrame = some frame
  · refine .inl ⟨hcached, ?_⟩
    rw [handleRecord, if_pos hcached]
  rcases openRecord_cases sha256 session hkeys hheader with
    ⟨error, hopen⟩ | ⟨plaintext, hopens, hopen⟩
  · refine .inr (.inl ⟨error, ?_⟩)
    rw [handleRecord, if_neg hcached, hopen]
  · obtain ⟨answer, hanswer, hlength⟩ := hfits plaintext
    refine .inr (.inr ⟨plaintext, answer, hopens, hanswer, hlength, ?_⟩)
    rw [handleRecord, if_neg hcached, hopen]
    simp only [hanswer]
    cases answer with
    | none => rfl
    | some message =>
      have hseal : sealRecord sha256 (session.afterOpen sha256 keys) message = _ :=
        sealRecord_eq sha256 (hlength message rfl) rfl hsequence
      simp only [hseal]
      rfl

end C0PQLink.ReferencePeer
