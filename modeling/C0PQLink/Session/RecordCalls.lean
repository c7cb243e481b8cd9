import C0PQLink.Session.Ratchet

/-!
# The record calls and their buffers

`c0pq_client_seal_record` and `c0pq_client_open_record` with the pointers they are called
with: null pointers are refused, a call that succeeds fills its output buffer, and an open
that fails at the tag leaves zeros there.

* `openRecord_error`, `openRecord_failsTag`: which opens fail at the tag.
* `recordCalls_transactional`: what a call may change.
-/

namespace C0PQLink

open Foundation

variable (sha256 : Bytes → Block 32)

/-! ## Pointers -/

/-- A pointer argument with its length: null, or the bytes it points to. An output buffer
is as long as its capacity. -/
inductive Span where
  | null (length : Nat)
  | bytes (contents : Bytes)
  deriving DecidableEq

def Span.length : Span → Nat
  | .null length => length
  | .bytes contents => contents.length

def Span.isNull : Span → Bool
  | .null _ => true
  | .bytes _ => false

/-- The bytes read through the pointer; none are read through a null pointer of length zero. -/
def Span.contents : Span → Bytes
  | .null _ => []
  | .bytes contents => contents

@[simp] theorem Span.contents_bytes (contents : Bytes) : (Span.bytes contents).contents = contents :=
  rfl

/-- A buffer whose first bytes are written. -/
def overwrite (buffer written : Bytes) : Bytes := written ++ buffer.drop written.length

/-! ## The calls -/

structure SealArguments where
  plaintext : Span
  frame : Span
  frameLength : Option Nat

structure OpenArguments where
  frame : Span
  plaintext : Span
  plaintextLength : Option Nat

/-- `c0pq_client_seal_record` on a client: the status, the client and the memory behind the
arguments after the call. -/
def sealCall (client : Client) (call : SealArguments) : Status × Client × SealArguments :=
  match call.frame, call.frameLength with
  | .bytes frame, some _ =>
    if call.plaintext.isNull ∧ call.plaintext.length ≠ 0 then (.errArgument, client, call)
    else
      match sealRecord sha256 client call.plaintext.contents frame.length with
      | (.error failure, client) => (failure, client, call)
      | (.ok record, client) =>
        (.ok, client,
          { call with
            frame := .bytes (overwrite frame record)
            frameLength := some (10 + 8 + call.plaintext.length + 16) })
  | _, _ => (.errArgument, client, call)

/-- The length of the ciphertext in a record, by its header. -/
def ciphertextLength (frame : Bytes) : Nat :=
  match decodeHeader frame with
  | .ok header => header.payloadLength.toNat - 24
  | .error _ => 0

/-- `c0pq_client_open_record` on a client. The decryption has filled the output buffer when
the tag turns out wrong, and then clears what it wrote. -/
def openCall (client : Client) (call : OpenArguments) : Status × Client × OpenArguments :=
  match call.frame, call.plaintext, call.plaintextLength with
  | .bytes frame, .bytes buffer, some _ =>
    match openRecord sha256 client frame buffer.length with
    | (.ok plaintext, client) =>
      (.ok, client,
        { call with
          plaintext := .bytes (overwrite buffer plaintext)
          plaintextLength := some plaintext.length })
    | (.error .errAuth, client) =>
      (.errAuth, client,
        { call with
          plaintext := .bytes (overwrite buffer (List.replicate (ciphertextLength frame) 0))
          plaintextLength := some 0 })
    | (.error failure, client) => (failure, client, call)
  | _, _, _ => (.errArgument, client, call)

def clientSealRecord (client : Option Client) (call : SealArguments) :
    Status × Option Client × SealArguments :=
  match client with
  | none => (.errArgument, none, call)
  | some client =>
    let (status, client, call) := sealCall sha256 client call
    (status, some client, call)

def clientOpenRecord (client : Option Client) (call : OpenArguments) :
    Status × Option Client × OpenArguments :=
  match client with
  | none => (.errArgument, none, call)
  | some client =>
    let (status, client, call) := openCall sha256 client call
    (status, some client, call)

/-! ## The failures of a call -/

/-- Whether the session has room for the plaintext and the frame buffer for the record. -/
def SealFits (plaintextLength frameCapacity : Nat) : Prop :=
  plaintextLength ≤ recordPlaintextMax ∧ 10 + 8 + plaintextLength + 16 ≤ frameCapacity

instance (plaintextLength frameCapacity : Nat) :
    Decidable (SealFits plaintextLength frameCapacity) :=
  inferInstanceAs (Decidable (_ ∧ _))

/-- The status of a seal, and the record and the client of one that succeeds. -/
theorem sealRecord_eq (client : Client) (plaintext : Bytes) (frameCapacity : Nat) :
    sealRecord sha256 client plaintext frameCapacity
      = if client.state ≠ .established then (.error .errState, client)
        else if ¬ SealFits plaintext.length frameCapacity then (.error .errCapacity, client)
        else if client.sendSequence = 0xffffffffffffffff then (.error .errExpired, client)
        else (.ok (client.nextRecord sha256 plaintext).frame, client.afterSeal sha256) := by
  have hfits : (plaintext.length > recordPlaintextMax
      ∨ 10 + 8 + plaintext.length + 16 > frameCapacity)
      ↔ ¬ SealFits plaintext.length frameCapacity := by
    unfold SealFits
    omega
  unfold sealRecord
  simp only [hfits]
  rfl

theorem sealRecord_error {client : Client} {plaintext : Bytes} {frameCapacity : Nat}
    {failure : Status} {after : Client}
    (h : sealRecord sha256 client plaintext frameCapacity = (.error failure, after)) :
    after = client ∧ failure ≠ .ok := by
  rw [sealRecord_eq] at h
  split at h
  · cases h
    exact ⟨rfl, by simp⟩
  split at h
  · cases h
    exact ⟨rfl, by simp⟩
  split at h
  · cases h
    exact ⟨rfl, by simp⟩
  · cases h

theorem sealRecord_ok {client : Client} {plaintext frame : Bytes} {frameCapacity : Nat}
    {after : Client}
    (h : sealRecord sha256 client plaintext frameCapacity = (.ok frame, after)) :
    client.sendSequence ≠ 0xffffffffffffffff ∧ SealFits plaintext.length frameCapacity
      ∧ frame = (client.nextRecord sha256 plaintext).frame
      ∧ after = client.afterSeal sha256 := by
  rw [sealRecord_eq] at h
  split at h
  · cases h
  split at h
  · cases h
  rename_i hfits
  split at h
  · cases h
  rename_i hexpired
  cases h
  exact ⟨hexpired, not_not.mp hfits, rfl, rfl⟩

/-- The checks before the tag, and a tag that does not verify. -/
structure Client.FailsTag (client : Client) (frame : Bytes) (plaintextCapacity : Nat) : Prop where
  established : client.state = .established
  header : ∃ header, decodeHeader frame = .ok header ∧ header.type = frameData
    ∧ header.flags = 1 ∧ header.sessionId = client.sessionId ∧ 24 ≤ header.payloadLength
  capacity : ciphertextLength frame ≤ recordPlaintextMax
    ∧ ciphertextLength frame ≤ plaintextCapacity
  sequence : load64BE (slice frame 10 8) = client.receiveSequence
  tag : ∃ tag : Block 16, tag.val = slice frame (18 + ciphertextLength frame) 16 ∧
    asconAead128Decrypt (selectKey sha256 client.config.mode client.receiveSecret).1
      (makeRecordNonce client.receiveNonceBase client.receiveSequence) (slice frame 0 18)
      (slice frame 18 (ciphertextLength frame)) tag = none

theorem openRecord_error {client : Client} {frame : Bytes} {plaintextCapacity : Nat}
    {failure : Status} {after : Client}
    (h : openRecord sha256 client frame plaintextCapacity = (.error failure, after)) :
    after = client ∧ failure ≠ .ok ∧
      (failure = .errAuth → client.FailsTag sha256 frame plaintextCapacity) := by
  unfold openRecord at h
  split at h
  · cases h
    exact ⟨rfl, by simp, by simp⟩
  rename_i hstate
  split at h
  · cases h
    exact ⟨rfl, by simp, by simp⟩
  rename_i header hheader
  have hlength : ciphertextLength frame = header.payloadLength.toNat - 24 := by
    rw [ciphertextLength, hheader]
  split at h
  · cases h
    exact ⟨rfl, by simp, by simp⟩
  rename_i hshape
  simp only [← hlength] at h
  split at h
  · cases h
    exact ⟨rfl, by simp, by simp⟩
  rename_i hcapacity
  split at h
  · cases h
    exact ⟨rfl, by simp, by simp⟩
  rename_i hsequence
  have hsequence := not_not.mp hsequence
  split at h
  · rename_i hdecrypt
    cases h
    simp only [not_or, not_not, UInt16.not_lt] at hshape
    rw [hsequence] at hdecrypt
    refine ⟨rfl, by simp, fun _ => ?_⟩
    exact ⟨not_not.mp hstate, ⟨header, hheader, hshape⟩, by omega, hsequence, _, rfl, hdecrypt⟩
  · cases h

theorem openRecord_failsTag {client : Client} {frame : Bytes} {plaintextCapacity : Nat}
    (h : client.FailsTag sha256 frame plaintextCapacity) :
    openRecord sha256 client frame plaintextCapacity = (.error .errAuth, client) := by
  obtain ⟨header, hheader, htype, hflags, hid, hpayload⟩ := h.header
  obtain ⟨tag, htag, hdecrypt⟩ := h.tag
  have hlength : ciphertextLength frame = header.payloadLength.toNat - 24 := by
    rw [ciphertextLength, hheader]
  unfold openRecord
  rw [if_neg (not_not.mpr h.established)]
  split
  · rename_i hfailed
    rw [hheader] at hfailed
    cases hfailed
  rename_i header' hheader'
  cases hheader.symm.trans hheader'
  have hshape : ¬ (header.type ≠ frameData ∨ header.flags ≠ 1
      ∨ header.sessionId ≠ client.sessionId ∨ header.payloadLength < 24) := by
    simp only [not_or, not_not, UInt16.not_lt]
    exact ⟨htype, hflags, hid, hpayload⟩
  have hcapacity : ¬ (ciphertextLength frame > recordPlaintextMax
      ∨ ciphertextLength frame > plaintextCapacity) := by
    have := h.capacity
    omega
  rw [dif_neg hshape]
  simp only [← hlength]
  rw [if_neg hcapacity, if_neg (not_not.mpr h.sequence), h.sequence]
  have hblock (hfits : 18 + ciphertextLength frame + 16 ≤ frame.length) :
      blockAt frame (18 + ciphertextLength frame) 16 hfits = tag := Block.ext htag.symm
  simp only [hblock, hdecrypt]

theorem openRecord_ok {client : Client} {frame plaintext : Bytes} {plaintextCapacity : Nat}
    {after : Client}
    (h : openRecord sha256 client frame plaintextCapacity = (.ok plaintext, after)) :
    client.Opens sha256 frame plaintext ∧ after = client.afterOpen sha256 := by
  rcases openRecord_cases sha256 client frame plaintextCapacity with
    ⟨failure, hfail⟩ | ⟨opened, hopens, hok⟩
  · cases h.symm.trans hfail
  · cases h.symm.trans hok
    exact ⟨hopens, rfl⟩

/-! ## What a call may change -/

/-- A failed seal leaves the client alone; a seal that succeeds advances its sending side. -/
structure SealTransactional (client : Option Client) (call : SealArguments) (status : Status)
    (after : Option Client) (done : SealArguments) : Prop where
  failed : status ≠ .ok → after = client
  succeeded : status = .ok → ∃ before, client = some before
    ∧ after = some
        { before with
          sendSecret :=
            if before.config.mode = pqBootstrapRatchet then
              (ratchetStep sha256 before.sendSecret).2 else before.sendSecret
          sendSequence := before.sendSequence + 1 }
    ∧ (before.sendSequence + 1).toNat = before.sendSequence.toNat + 1
    ∧ done.frameLength = some (34 + call.plaintext.length)

/-- A failed open leaves the client alone, and zeros where a plaintext without a valid tag
was; an open that succeeds advances the receiving side of the client. -/
structure OpenTransactional (client : Option Client) (call : OpenArguments) (status : Status)
    (after : Option Client) (done : OpenArguments) : Prop where
  failed : status ≠ .ok → after = client
  unauthenticated : ∀ before frame buffer length, client = some before →
    call = ⟨.bytes frame, .bytes buffer, some length⟩ →
    before.FailsTag sha256 frame buffer.length →
      status = .errAuth ∧ ciphertextLength frame ≤ buffer.length
      ∧ done.plaintext = .bytes (List.replicate (ciphertextLength frame) 0
          ++ buffer.drop (ciphertextLength frame))
      ∧ done.plaintextLength = some 0
  succeeded : status = .ok → ∃ before, client = some before
    ∧ after = some
        { before with
          receiveSecret :=
            if before.config.mode = pqBootstrapRatchet then
              (ratchetStep sha256 before.receiveSecret).2 else before.receiveSecret
          receiveSequence := before.receiveSequence + 1 }

variable {sha256}

theorem selectKey_next {mode : Int} {secret : Block 32} :
    (if mode = pqBootstrapRatchet then (selectKey sha256 mode secret).2 else secret)
      = if mode = pqBootstrapRatchet then (ratchetStep sha256 secret).2 else secret := by
  by_cases hmode : mode = pqBootstrapRatchet
  · rw [if_pos hmode, if_pos hmode, selectKey, if_pos hmode]
  · rw [if_neg hmode, if_neg hmode]

theorem toNat_succ_of_ne_last {x : UInt64} (h : x ≠ 0xffffffffffffffff) :
    (x + 1).toNat = x.toNat + 1 := by
  have hlt := x.toNat_lt
  have hne : x.toNat ≠ 2 ^ 64 - 1 := by
    intro heq
    exact h (UInt64.toNat_inj.mp heq)
  rw [UInt64.toNat_add]
  exact Nat.mod_eq_of_lt (show x.toNat + 1 < 2 ^ 64 by omega)

variable (sha256) in
theorem sealCall_cases (client : Client) (call : SealArguments) :
    (∃ failure, failure ≠ .ok ∧ sealCall sha256 client call = (failure, client, call)) ∨
      ∃ buffer length plaintext, call.frame = .bytes buffer ∧ call.frameLength = some length
        ∧ plaintext = call.plaintext.contents ∧ plaintext.length = call.plaintext.length
        ∧ client.sendSequence ≠ 0xffffffffffffffff ∧ SealFits plaintext.length buffer.length
        ∧ sealCall sha256 client call
          = (.ok, client.afterSeal sha256,
              { call with
                frame := .bytes (overwrite buffer (client.nextRecord sha256 plaintext).frame)
                frameLength := some (10 + 8 + call.plaintext.length + 16) }) := by
  obtain ⟨plaintext, frame, frameLength⟩ := call
  unfold sealCall
  simp only
  split
  · rename_i buffer length
    split
    · exact .inl ⟨.errArgument, by simp, rfl⟩
    rename_i hnull
    have hlength : plaintext.contents.length = plaintext.length := by
      cases plaintext with
      | bytes contents => rfl
      | null length =>
        have hzero : length = 0 := by
          by_contra hne
          exact hnull ⟨rfl, hne⟩
        subst hzero
        rfl
    split
    · rename_i failure after hseal
      obtain ⟨rfl, hok⟩ := sealRecord_error sha256 hseal
      exact .inl ⟨failure, hok, rfl⟩
    · rename_i record after hseal
      obtain ⟨hexpired, hfits, rfl, rfl⟩ := sealRecord_ok sha256 hseal
      exact .inr ⟨buffer, length, _, rfl, rfl, rfl, hlength, hexpired, hfits, rfl⟩
  · exact .inl ⟨.errArgument, by simp, rfl⟩

variable (sha256) in
theorem openCall_cases (client : Client) (call : OpenArguments) :
    (∃ status done, status ≠ .ok ∧ openCall sha256 client call = (status, client, done)) ∨
      ∃ frame plaintext done, call.frame = .bytes frame ∧ client.Opens sha256 frame plaintext
        ∧ openCall sha256 client call = (.ok, client.afterOpen sha256, done) := by
  obtain ⟨frame, plaintext, plaintextLength⟩ := call
  unfold openCall
  simp only
  split
  · rename_i frame buffer length
    split
    · rename_i opened after hopen
      obtain ⟨hopens, rfl⟩ := openRecord_ok sha256 hopen
      exact .inr ⟨frame, opened, _, rfl, hopens, rfl⟩
    · rename_i after hopen
      obtain ⟨rfl, -, -⟩ := openRecord_error sha256 hopen
      exact .inl ⟨.errAuth, _, by simp, rfl⟩
    · rename_i failure after hne hopen
      obtain ⟨rfl, hok, -⟩ := openRecord_error sha256 hopen
      exact .inl ⟨failure, _, hok, rfl⟩
  · exact .inl ⟨.errArgument, _, by simp, rfl⟩

theorem openCall_failsTag {client : Client} {frame buffer : Bytes} {length : Nat}
    (h : client.FailsTag sha256 frame buffer.length) :
    openCall sha256 client ⟨.bytes frame, .bytes buffer, some length⟩
      = (.errAuth, client,
          ⟨.bytes frame, .bytes (overwrite buffer (List.replicate (ciphertextLength frame) 0)),
            some 0⟩) := by
  simp only [openCall, openRecord_failsTag sha256 h]

variable (sha256)

theorem clientSealRecord_transactional (client : Option Client) (call : SealArguments) :
    SealTransactional sha256 client call (clientSealRecord sha256 client call).1
      (clientSealRecord sha256 client call).2.1 (clientSealRecord sha256 client call).2.2 := by
  cases client with
  | none =>
    refine ⟨fun _ => rfl, fun hstatus => ?_⟩
    cases hstatus
  | some client =>
    rcases sealCall_cases sha256 client call with
      ⟨failure, hfailure, hcall⟩ | ⟨buffer, length, plaintext, -, -, -, -, hexpired, -, hcall⟩
    · simp only [clientSealRecord, hcall]
      exact ⟨fun _ => rfl, fun h => absurd h hfailure⟩
    · simp only [clientSealRecord, hcall]
      refine ⟨fun h => absurd rfl h, fun _ => ⟨client, rfl, ?_, toNat_succ_of_ne_last hexpired, ?_⟩⟩
      · rw [Client.afterSeal, selectKey_next]
      · exact congrArg some (by omega)

theorem clientOpenRecord_transactional (client : Option Client) (call : OpenArguments) :
    OpenTransactional sha256 client call (clientOpenRecord sha256 client call).1
      (clientOpenRecord sha256 client call).2.1 (clientOpenRecord sha256 client call).2.2 := by
  cases client with
  | none =>
    refine ⟨fun _ => rfl, fun _ _ _ _ hclient => ?_, fun hstatus => ?_⟩
    · cases hclient
    · cases hstatus
  | some client =>
    have hauth : ∀ before frame buffer length, some client = some before →
        call = ⟨.bytes frame, .bytes buffer, some length⟩ →
        before.FailsTag sha256 frame buffer.length →
          (clientOpenRecord sha256 (some client) call).1 = .errAuth
          ∧ ciphertextLength frame ≤ buffer.length
          ∧ (clientOpenRecord sha256 (some client) call).2.2.plaintext
              = .bytes (List.replicate (ciphertextLength frame) 0
                ++ buffer.drop (ciphertextLength frame))
          ∧ (clientOpenRecord sha256 (some client) call).2.2.plaintextLength = some 0 := by
      intro before frame buffer length hclient hargs hfails
      cases hclient
      subst hargs
      simp only [clientOpenRecord, openCall_failsTag hfails, overwrite, List.length_replicate]
      exact ⟨trivial, hfails.capacity.2, trivial, trivial⟩
    refine ⟨fun hstatus => ?_, hauth, fun hstatus => ?_⟩
    · rcases openCall_cases sha256 client call with
        ⟨status, done, -, hcall⟩ | ⟨frame, plaintext, done, -, -, hcall⟩
      · simp only [clientOpenRecord, hcall]
      · simp only [clientOpenRecord, hcall] at hstatus
        exact absurd rfl hstatus
    · rcases openCall_cases sha256 client call with
        ⟨status, done, hfailed, hcall⟩ | ⟨frame, plaintext, done, -, -, hcall⟩
      · simp only [clientOpenRecord, hcall] at hstatus
        exact absurd hstatus hfailed
      · simp only [clientOpenRecord, hcall]
        refine ⟨client, rfl, ?_⟩
        rw [Client.afterOpen, selectKey_next]

theorem recordCalls_transactional (client : Option Client) :
    (∀ call, SealTransactional sha256 client call (clientSealRecord sha256 client call).1
      (clientSealRecord sha256 client call).2.1 (clientSealRecord sha256 client call).2.2)
    ∧ ∀ call, OpenTransactional sha256 client call (clientOpenRecord sha256 client call).1
      (clientOpenRecord sha256 client call).2.1 (clientOpenRecord sha256 client call).2.2 :=
  ⟨clientSealRecord_transactional sha256 client, clientOpenRecord_transactional sha256 client⟩

end C0PQLink
