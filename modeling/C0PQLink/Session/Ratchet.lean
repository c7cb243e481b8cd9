import C0PQLink.Core.SealedRecord
import C0PQLink.Session.Client

/-!
# Application records

`session/ratchet.c`: the symmetric ratchet and the records of an established client. A call
returns the record or the status of its failure, and the client after it.

* `sealRecord_cases`, `openRecord_cases`: what a call does to the client.
-/

namespace C0PQLink

open Foundation

variable (sha256 : Bytes → Block 32)

/-- The message key and the next chain key. -/
def ratchetStep (chainKey : Block 32) : Block 16 × Block 32 :=
  (hmacPrefix sha256 16 tag_le_digest chainKey.val (ascii "C0PQ/1 ratchet message"),
    hmacSha256 sha256 chainKey.val (ascii "C0PQ/1 ratchet next"))

def makeRecordNonce (base : Block 16) (sequence : UInt64) : Block 16 :=
  ⟨base.val.take 8 ++ xorBytes (base.val.drop 8) (store64BE sequence), by simp⟩

/-- `select_send_key` and `select_receive_key`, which differ in the secret they read. -/
def selectKey (mode : Int) (secret : Block 32) : Block 16 × Block 32 :=
  if mode = pqBootstrapRatchet then ratchetStep sha256 secret
  else (secret.first 16 tag_le_digest, Block.zero 32)

/-- The header and the sequence number of a record. -/
def recordData (flags : UInt8) (plaintextLength : Nat) (sessionId : UInt32) (sequence : UInt64) :
    Bytes :=
  writeHeader frameData flags (UInt16.ofNat (8 + plaintextLength + 16)) sessionId
    ++ store64BE sequence

def sealRecord (client : Client) (plaintext : Bytes) (frameCapacity : Nat) :
    Except Status Bytes × Client :=
  if client.state ≠ .established then (.error .errState, client)
  else if plaintext.length > recordPlaintextMax
      ∨ 10 + 8 + plaintext.length + 16 > frameCapacity then (.error .errCapacity, client)
  else if client.sendSequence = 0xffffffffffffffff then (.error .errExpired, client)
  else
    let associatedData := recordData 0 plaintext.length client.sessionId client.sendSequence
    let (messageKey, nextChainKey) := selectKey sha256 client.config.mode client.sendSecret
    let nonce := makeRecordNonce client.sendNonceBase client.sendSequence
    let (ciphertext, tag) := asconAead128Encrypt messageKey nonce associatedData plaintext
    (.ok (associatedData ++ ciphertext ++ tag.val),
      { client with
        sendSecret :=
          if client.config.mode = pqBootstrapRatchet then nextChainKey else client.sendSecret
        sendSequence := client.sendSequence + 1 })

/-- The tag of a record stands behind its ciphertext. -/
theorem tag_fits {frame : Bytes} {header : FrameHeader} (hheader : decodeHeader frame = .ok header)
    (hpayload : ¬ header.payloadLength < 24) :
    18 + (header.payloadLength.toNat - 24) + 16 ≤ frame.length := by
  have hlength := (frame_of_decodeHeader hheader).2
  have hle : 24 ≤ header.payloadLength.toNat := UInt16.le_iff_toNat_le.mp (UInt16.not_lt.mp hpayload)
  omega

def openRecord (client : Client) (frame : Bytes) (plaintextCapacity : Nat) :
    Except Status Bytes × Client :=
  if client.state ≠ .established then (.error .errState, client)
  else
    match hheader : decodeHeader frame with
    | .error _ => (.error .errState, client)
    | .ok header =>
      if hshape : header.type ≠ frameData ∨ header.flags ≠ 1 ∨ header.sessionId ≠ client.sessionId
          ∨ header.payloadLength < 24 then (.error .errState, client)
      else
        let ciphertextLength := header.payloadLength.toNat - 24
        if ciphertextLength > recordPlaintextMax ∨ ciphertextLength > plaintextCapacity then
          (.error .errCapacity, client)
        else
          let sequence := load64BE (slice frame 10 8)
          if sequence ≠ client.receiveSequence then (.error .errReplay, client)
          else
            let (messageKey, nextChainKey) :=
              selectKey sha256 client.config.mode client.receiveSecret
            let nonce := makeRecordNonce client.receiveNonceBase sequence
            let tag := blockAt frame (18 + ciphertextLength) 16
              (tag_fits hheader fun h => hshape (.inr (.inr (.inr h))))
            match asconAead128Decrypt messageKey nonce (slice frame 0 18)
                (slice frame 18 ciphertextLength) tag with
            | none => (.error .errAuth, client)
            | some plaintext =>
              (.ok plaintext,
                { client with
                  receiveSecret :=
                    if client.config.mode = pqBootstrapRatchet then nextChainKey
                    else client.receiveSecret
                  receiveSequence := client.receiveSequence + 1 })

/-! ## What a call does -/

/-- The record that a seal of the client encrypts. -/
def Client.nextRecord (client : Client) (plaintext : Bytes) : SealedRecord where
  key := (selectKey sha256 client.config.mode client.sendSecret).1
  nonce := makeRecordNonce client.sendNonceBase client.sendSequence
  associatedData := recordData 0 plaintext.length client.sessionId client.sendSequence
  plaintext := plaintext

def Client.afterSeal (client : Client) : Client :=
  { client with
    sendSecret :=
      if client.config.mode = pqBootstrapRatchet then
        (selectKey sha256 client.config.mode client.sendSecret).2 else client.sendSecret
    sendSequence := client.sendSequence + 1 }

def Client.afterOpen (client : Client) : Client :=
  { client with
    receiveSecret :=
      if client.config.mode = pqBootstrapRatchet then
        (selectKey sha256 client.config.mode client.receiveSecret).2 else client.receiveSecret
    receiveSequence := client.receiveSequence + 1 }

theorem sealRecord_cases (client : Client) (plaintext : Bytes) (frameCapacity : Nat) :
    (∃ failure, sealRecord sha256 client plaintext frameCapacity = (.error failure, client)) ∨
      (plaintext.length ≤ recordPlaintextMax ∧ client.sendSequence ≠ 0xffffffffffffffff ∧
        sealRecord sha256 client plaintext frameCapacity
          = (.ok (client.nextRecord sha256 plaintext).frame, client.afterSeal sha256)) := by
  unfold sealRecord
  split
  · exact .inl ⟨_, rfl⟩
  split
  · exact .inl ⟨_, rfl⟩
  rename_i hcapacity
  split
  · exact .inl ⟨_, rfl⟩
  rename_i hexpired
  refine .inr ⟨?_, hexpired, rfl⟩
  exact Nat.not_lt.mp fun h => hcapacity (.inl h)

/-- What an accepted frame is, for the client that accepts it. -/
structure Client.Opens (client : Client) (frame plaintext : Bytes) : Prop where
  decrypted : ∃ ciphertext tag, frame = slice frame 0 18 ++ ciphertext ++ tag.val ∧
    asconAead128Decrypt (selectKey sha256 client.config.mode client.receiveSecret).1
      (makeRecordNonce client.receiveNonceBase client.receiveSequence)
      (slice frame 0 18) ciphertext tag = some plaintext
  header : ∃ header, decodeHeader frame = .ok header ∧ header.type = frameData
    ∧ header.flags = 1 ∧ header.sessionId = client.sessionId
  sequence : load64BE (slice frame 10 8) = client.receiveSequence

theorem openRecord_cases (client : Client) (frame : Bytes) (plaintextCapacity : Nat) :
    (∃ failure, openRecord sha256 client frame plaintextCapacity = (.error failure, client)) ∨
      ∃ plaintext, client.Opens sha256 frame plaintext ∧
        openRecord sha256 client frame plaintextCapacity
          = (.ok plaintext, client.afterOpen sha256) := by
  unfold openRecord
  split
  · exact .inl ⟨_, rfl⟩
  split
  · exact .inl ⟨_, rfl⟩
  rename_i header hheader
  split
  · exact .inl ⟨_, rfl⟩
  rename_i hshape
  simp only
  split
  · exact .inl ⟨_, rfl⟩
  split
  · exact .inl ⟨_, rfl⟩
  rename_i hsequence
  have hsequence := not_not.mp hsequence
  split
  · exact .inl ⟨_, rfl⟩
  rename_i plaintext hdecrypt
  simp only [not_or, not_not] at hshape
  obtain ⟨htype, hflags, hid, hpayload⟩ := hshape
  have hfits := tag_fits hheader hpayload
  have hlength := (frame_of_decodeHeader hheader).2
  have hparts : frame = slice frame 0 18 ++ slice frame 18 (header.payloadLength.toNat - 24)
      ++ slice frame (18 + (header.payloadLength.toNat - 24)) 16 :=
    (slice_three (by omega)).symm
  rw [hsequence] at hdecrypt
  exact .inr ⟨plaintext,
    ⟨⟨_, _, hparts, hdecrypt⟩, ⟨header, hheader, htype, hflags, hid⟩, hsequence⟩, rfl⟩

/-! ## Frames of records -/

theorem recordData_eq (flags : UInt8) {length : Nat} (h : length ≤ recordPlaintextMax)
    (sessionId : UInt32) (sequence : UInt64) :
    recordData flags length sessionId sequence
      = headerBytes frameData flags (UInt8.ofNat (8 + length + 16)) sessionId
        ++ store64BE sequence := by
  have hmax : length ≤ 48 := h
  have hpayload : (UInt16.ofNat (8 + length + 16)).toNat = 8 + length + 16 := by
    rw [UInt16.toNat_ofNat']
    omega
  have hsmall : UInt16.ofNat (8 + length + 16) ≤ 255 := by
    rw [UInt16.le_iff_toNat_le, hpayload]
    show 8 + length + 16 ≤ 255
    omega
  have hbyte : (UInt16.ofNat (8 + length + 16)).toUInt8 = UInt8.ofNat (8 + length + 16) := by
    apply UInt8.toNat_inj.mp
    rw [UInt16.toNat_toUInt8, hpayload, UInt8.toNat_ofNat']
  rw [recordData, writeHeader_of_le hsmall, hbyte]

theorem length_recordData (flags : UInt8) {length : Nat} (h : length ≤ recordPlaintextMax)
    (sessionId : UInt32) (sequence : UInt64) :
    (recordData flags length sessionId sequence).length = 18 := by
  rw [recordData_eq flags h]
  simp

/-- A record with the header of a session. -/
structure SealedRecord.WellFormed (r : SealedRecord) (flags : UInt8) (sessionId : UInt32)
    (sequence : UInt64) : Prop where
  length : r.plaintext.length ≤ recordPlaintextMax
  associatedData : r.associatedData = recordData flags r.plaintext.length sessionId sequence

namespace SealedRecord.WellFormed

variable {r : SealedRecord} {flags : UInt8} {sessionId : UInt32} {sequence : UInt64}
  (h : r.WellFormed flags sessionId sequence)

include h

theorem length_associatedData : r.associatedData.length = 18 := by
  rw [h.associatedData, length_recordData flags h.length]

theorem decodeHeader_frame :
    decodeHeader r.frame
      = .ok { type := frameData, flags,
              payloadLength := (UInt8.ofNat (8 + r.plaintext.length + 16)).toUInt16, sessionId } := by
  have hmax : r.plaintext.length ≤ 48 := h.length
  rw [SealedRecord.frame, h.associatedData, recordData_eq flags h.length, List.append_assoc,
    List.append_assoc]
  refine decodeHeader_headerBytes frameData flags sessionId ?_
  simp only [List.length_append, length_store64BE, SealedRecord.length_sealed, Block.length_val,
    UInt8.toNat_ofNat']
  omega

theorem payloadLength :
    (UInt8.ofNat (8 + r.plaintext.length + 16)).toUInt16.toNat = 24 + r.plaintext.length := by
  have hmax : r.plaintext.length ≤ 48 := h.length
  rw [UInt8.toNat_toUInt16, UInt8.toNat_ofNat']
  omega

theorem slice_associatedData : slice r.frame 0 18 = r.associatedData := by
  rw [SealedRecord.frame, List.append_assoc, slice_append_left h.length_associatedData.ge,
    slice_self _ h.length_associatedData]

theorem slice_ciphertext : slice r.frame 18 r.plaintext.length = r.sealed.1 :=
  slice_field h.length_associatedData r.length_sealed

theorem slice_tag : slice r.frame (18 + r.plaintext.length) 16 = r.sealed.2.val := by
  refine slice_last ?_ r.sealed.2.property
  rw [List.length_append, h.length_associatedData, r.length_sealed]

theorem sequence_frame : load64BE (slice r.frame 10 8) = sequence := by
  have hfield : slice r.frame 10 8 = store64BE sequence := by
    rw [SealedRecord.frame, h.associatedData, recordData_eq flags h.length, List.append_assoc]
    exact slice_field (by simp) (by simp)
  rw [hfield, load64BE_store64BE]

end SealedRecord.WellFormed

/-- The next record of the session is opened by the client. -/
theorem openRecord_record {client : Client} {r : SealedRecord} {plaintextCapacity : Nat}
    (hstate : client.state = .established)
    (hform : r.WellFormed 1 client.sessionId client.receiveSequence)
    (hkey : r.key = (selectKey sha256 client.config.mode client.receiveSecret).1)
    (hnonce : r.nonce = makeRecordNonce client.receiveNonceBase client.receiveSequence)
    (hcapacity : r.plaintext.length ≤ plaintextCapacity) :
    openRecord sha256 client r.frame plaintextCapacity
      = (.ok r.plaintext, client.afterOpen sha256) := by
  unfold openRecord
  rw [if_neg (not_not.mpr hstate)]
  split
  · rename_i error hheader
    rw [hform.decodeHeader_frame] at hheader
    cases hheader
  rename_i header hheader
  have hsame := Except.ok.inj (hform.decodeHeader_frame.symm.trans hheader)
  subst hsame
  have hpayload := hform.payloadLength
  have hshape : ¬ ((UInt8.ofNat (8 + r.plaintext.length + 16)).toUInt16 < 24) := by
    rw [UInt16.lt_iff_toNat_lt, hpayload]
    show ¬ 24 + r.plaintext.length < 24
    omega
  have hlength : (UInt8.ofNat (8 + r.plaintext.length + 16)).toUInt16.toNat - 24
      = r.plaintext.length := by
    omega
  have hcap : ¬ (r.plaintext.length > recordPlaintextMax
      ∨ r.plaintext.length > plaintextCapacity) := by
    have hmax := hform.length
    omega
  have hdecrypt := r.decrypt_sealed
  rw [hkey, hnonce] at hdecrypt
  rw [dif_neg fun h => by
    rcases h with h | h | h | h
    · exact h rfl
    · exact h rfl
    · exact h rfl
    · exact hshape h]
  simp only [hlength, hcap, if_false, hform.sequence_frame, ne_eq, not_true_eq_false,
    hform.slice_associatedData, hform.slice_ciphertext]
  have htag (hfits : 18 + r.plaintext.length + 16 ≤ r.frame.length) :
      blockAt r.frame (18 + r.plaintext.length) 16 hfits = r.sealed.2 :=
    Block.ext hform.slice_tag
  simp only [htag, hdecrypt]
  rfl

end C0PQLink
