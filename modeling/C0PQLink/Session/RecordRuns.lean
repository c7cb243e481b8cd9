import Mathlib.Data.List.Nodup
import C0PQLink.Session.RecordCalls
import C0PQLink.Session.Retransmission

/-!
# Runs of record calls

The seals and opens of one session, in any order. Seals number their records upwards and
stop at the last sequence number. Opens accept the numbers in the order of the seals, but an
open at the last number brings the counter back to zero.

* `SendInvariant.step`, `ReceiveInvariant.step`: what one call keeps.
* `nonces_unique`: no two seals of a run encrypt under one nonce.
* `replayProtection_iff`: where an accepted record cannot be accepted again.
-/

namespace C0PQLink

open Foundation

variable (sha256 : Bytes → Block 32)

/-! ## Histories -/

def lastSequence : UInt64 := 0xffffffffffffffff

/-- The sequence number in a record. -/
def carriedSequence (frame : Bytes) : UInt64 := load64BE (slice frame 10 8)

inductive RecordCall where
  | sealing (call : SealArguments)
  | opening (call : OpenArguments)

/-- A client and what its record calls have done so far: what the successful seals encrypted,
with the frames they returned, and the frames the opens accepted. -/
structure RecordHistory where
  client : Client
  sealed : List (SealedRecord × Bytes)
  accepted : List Bytes

namespace RecordHistory

def start (client : Client) : RecordHistory := ⟨client, [], []⟩

def step (history : RecordHistory) : RecordCall → RecordHistory
  | .sealing call =>
    match sealCall sha256 history.client call with
    | (.ok, client, done) =>
      { history with
        client
        sealed := history.sealed ++
          [(history.client.nextRecord sha256 call.plaintext.contents,
            done.frame.contents.take (done.frameLength.getD 0))] }
    | (_, client, _) => { history with client }
  | .opening call =>
    match openCall sha256 history.client call with
    | (.ok, client, _) =>
      { history with
        client
        accepted := history.accepted ++ [call.frame.contents] }
    | (_, client, _) => { history with client }

end RecordHistory

/-- A run of calls, each of which `allowed` lets a client make. -/
inductive RecordRun (allowed : Client → RecordCall → Prop) (first : RecordHistory) :
    RecordHistory → Prop
  | refl : RecordRun allowed first first
  | call (call : RecordCall) {history : RecordHistory} :
      RecordRun allowed first history → allowed history.client call →
        RecordRun allowed first (history.step sha256 call)

theorem RecordRun.foldl (first : RecordHistory) (calls : List RecordCall) :
    RecordRun sha256 (fun _ _ => True) first (calls.foldl (·.step sha256) first) := by
  induction calls using List.reverseRecOn with
  | nil => exact .refl
  | append_singleton calls call ih =>
    rw [List.foldl_append]
    exact .call call ih trivial

/-- The record that the client would open next, with an empty plaintext. -/
def Client.nextIncoming (client : Client) : SealedRecord where
  key := (selectKey sha256 client.config.mode client.receiveSecret).1
  nonce := makeRecordNonce client.receiveNonceBase client.receiveSequence
  associatedData := recordData 1 0 client.sessionId client.receiveSequence
  plaintext := []

theorem openCall_nextIncoming {client : Client} (hstate : client.state = .established) :
    openCall sha256 client ⟨.bytes (client.nextIncoming sha256).frame, .bytes [], some 0⟩
      = (.ok, client.afterOpen sha256,
          ⟨.bytes (client.nextIncoming sha256).frame, .bytes [], some 0⟩) := by
  have hopen := openRecord_record sha256 hstate
    (r := client.nextIncoming sha256) ⟨Nat.zero_le _, rfl⟩ rfl rfl (Nat.le_refl 0)
  simp only [openCall, List.length_nil, hopen]
  rfl

/-! ## Seals -/

theorem makeRecordNonce_injective {base : Block 16} {a b : UInt64}
    (h : makeRecordNonce base a = makeRecordNonce base b) : a = b := by
  have hval := congrArg Subtype.val h
  have hmasked := List.append_cancel_left hval
  exact store64BE_injective (xorBytes_inj (by simp) (by simp) hmasked)

theorem Client.wellFormed_nextRecord (client : Client) {plaintext : Bytes}
    (h : plaintext.length ≤ recordPlaintextMax) :
    (client.nextRecord sha256 plaintext).WellFormed 0 client.sessionId client.sendSequence :=
  ⟨h, rfl⟩

theorem Client.length_nextRecord (client : Client) {plaintext : Bytes}
    (h : plaintext.length ≤ recordPlaintextMax) :
    (client.nextRecord sha256 plaintext).frame.length = 10 + 8 + plaintext.length + 16 := by
  have hform := client.wellFormed_nextRecord sha256 h
  rw [SealedRecord.frame, List.length_append, List.length_append, hform.length_associatedData,
    SealedRecord.length_sealed, Block.length_val]
  rfl

/-- What one call adds to the records sealed. -/
theorem RecordHistory.step_sealed (history : RecordHistory) (call : RecordCall) :
    ((history.step sha256 call).sealed = history.sealed
        ∧ (history.step sha256 call).client.sendSequence = history.client.sendSequence
        ∧ (history.step sha256 call).client.sendNonceBase = history.client.sendNonceBase) ∨
      ∃ plaintext : Bytes, plaintext.length ≤ recordPlaintextMax
        ∧ history.client.sendSequence ≠ lastSequence
        ∧ (history.step sha256 call).client = history.client.afterSeal sha256
        ∧ (history.step sha256 call).sealed = history.sealed ++
          [(history.client.nextRecord sha256 plaintext,
            (history.client.nextRecord sha256 plaintext).frame)] := by
  cases call with
  | sealing call =>
    rcases sealCall_cases sha256 history.client call with
      ⟨failure, hfailure, hcall⟩ | ⟨buffer, length, plaintext, -, -, rfl, hlength, hexpired,
        hfits, hcall⟩
    · refine .inl ?_
      rw [RecordHistory.step, hcall]
      cases failure <;> first | exact absurd rfl hfailure | exact ⟨rfl, rfl, rfl⟩
    · refine .inr ⟨_, hfits.1, hexpired, ?_, ?_⟩
      · rw [RecordHistory.step, hcall]
      · rw [RecordHistory.step, hcall]
        simp only [Span.contents_bytes, Option.getD_some, overwrite]
        rw [← hlength, List.take_left' (history.client.length_nextRecord sha256 hfits.1)]
  | opening call =>
    refine .inl ?_
    rcases openCall_cases sha256 history.client call with
      ⟨status, done, hstatus, hcall⟩ | ⟨frame, plaintext, done, -, -, hcall⟩
    · rw [RecordHistory.step, hcall]
      cases status <;> first | exact absurd rfl hstatus | exact ⟨rfl, rfl, rfl⟩
    · rw [RecordHistory.step, hcall]
      exact ⟨rfl, rfl, rfl⟩

/-- The numbers of the records sealed so far rise, and stand below the next one. -/
structure SendInvariant (base : Block 16) (history : RecordHistory) : Prop where
  nonceBase : history.client.sendNonceBase = base
  frames : ∀ s ∈ history.sealed, s.2 = s.1.frame
  nonces : ∀ s ∈ history.sealed, s.1.nonce = makeRecordNonce base (carriedSequence s.2)
  below : ∀ s ∈ history.sealed, carriedSequence s.2 < history.client.sendSequence
  increasing : history.sealed.Pairwise fun s t => carriedSequence s.2 < carriedSequence t.2

variable {sha256} {base : Block 16} {first history : RecordHistory}

theorem SendInvariant.start (client : Client) :
    SendInvariant client.sendNonceBase (RecordHistory.start client) where
  nonceBase := rfl
  frames := fun _ hs => absurd hs List.not_mem_nil
  nonces := fun _ hs => absurd hs List.not_mem_nil
  below := fun _ hs => absurd hs List.not_mem_nil
  increasing := .nil

theorem lt_succ_of_ne_last {x : UInt64} (h : x ≠ lastSequence) : x < x + 1 := by
  rw [UInt64.lt_iff_toNat_lt, toNat_succ_of_ne_last h]
  exact Nat.lt_succ_self _

theorem SendInvariant.step (h : SendInvariant base history) (call : RecordCall) :
    SendInvariant base (history.step sha256 call) := by
  rcases history.step_sealed sha256 call with
    ⟨hsealed, hsequence, hbase⟩ | ⟨plaintext, hlength, hlast, hclient, hsealed⟩
  · refine ⟨hbase.trans h.nonceBase, ?_, ?_, ?_, ?_⟩
    · rw [hsealed]
      exact h.frames
    · rw [hsealed]
      exact h.nonces
    · rw [hsealed, hsequence]
      exact h.below
    · rw [hsealed]
      exact h.increasing
  · have hcarried : carriedSequence (history.client.nextRecord sha256 plaintext).frame
        = history.client.sendSequence :=
      (history.client.wellFormed_nextRecord sha256 hlength).sequence_frame
    have hnext : history.client.sendSequence < (history.step sha256 call).client.sendSequence := by
      rw [hclient]
      exact lt_succ_of_ne_last hlast
    refine ⟨by rw [hclient]; exact h.nonceBase, ?_, ?_, ?_, ?_⟩
    · intro s hs
      rw [hsealed, List.mem_append, List.mem_singleton] at hs
      rcases hs with hs | rfl
      · exact h.frames s hs
      · rfl
    · intro s hs
      rw [hsealed, List.mem_append, List.mem_singleton] at hs
      rcases hs with hs | rfl
      · exact h.nonces s hs
      · rw [hcarried, ← h.nonceBase]
        rfl
    · intro s hs
      rw [hsealed, List.mem_append, List.mem_singleton] at hs
      rcases hs with hs | rfl
      · exact UInt64.lt_trans (h.below s hs) hnext
      · rw [hcarried]
        exact hnext
    · rw [hsealed, List.pairwise_append]
      refine ⟨h.increasing, List.pairwise_singleton _ _, fun s hs t ht => ?_⟩
      rw [List.mem_singleton] at ht
      subst ht
      rw [hcarried]
      exact h.below s hs

theorem RecordRun.sendInvariant {allowed : Client → RecordCall → Prop}
    (h : RecordRun sha256 allowed first history) (hfirst : SendInvariant base first) :
    SendInvariant base history := by
  induction h with
  | refl => exact hfirst
  | call call _ _ ih => exact ih.step call

theorem SendInvariant.nonces_nodup (h : SendInvariant base history) :
    (history.sealed.map fun s => s.1.nonce).Nodup := by
  rw [List.Nodup, List.pairwise_map]
  refine h.increasing.imp_of_mem fun {s t} hs ht hlt heq => ?_
  rw [h.nonces s hs, h.nonces t ht] at heq
  rw [makeRecordNonce_injective heq] at hlt
  exact UInt64.lt_irrefl _ hlt

/-- Nothing is sealed any more once the last number is reached. -/
theorem RecordRun.sealed_of_last {allowed : Client → RecordCall → Prop}
    (h : RecordRun sha256 allowed first history)
    (hlast : first.client.sendSequence = lastSequence) :
    history.sealed = first.sealed ∧ history.client.sendSequence = lastSequence := by
  induction h with
  | refl => exact ⟨rfl, hlast⟩
  | @call call history _ _ ih =>
    rcases history.step_sealed sha256 call with
      ⟨hsealed, hsequence, -⟩ | ⟨plaintext, -, hne, -, -⟩
    · exact ⟨hsealed.trans ih.1, hsequence.trans ih.2⟩
    · exact absurd ih.2 hne

/-- A seal that passes the checks of its arguments, of the state and of the capacities. -/
structure SealArguments.Admitted (call : SealArguments) (client : Client) : Prop where
  established : client.state = .established
  plaintext : ¬ (call.plaintext.isNull ∧ call.plaintext.length ≠ 0)
  frameLength : call.frameLength.isSome
  frame : ∃ buffer, call.frame = .bytes buffer ∧
    SealFits call.plaintext.contents.length buffer.length

theorem sealCall_expired {client : Client} {call : SealArguments} (h : call.Admitted client)
    (hlast : client.sendSequence = lastSequence) :
    sealCall sha256 client call = (.errExpired, client, call) := by
  obtain ⟨plaintext, frame, frameLength⟩ := call
  obtain ⟨hestablished, hplaintext, hsome, buffer, hframe, hfits⟩ := h
  obtain ⟨length, hlength⟩ := Option.isSome_iff_exists.mp hsome
  simp only at hplaintext hlength hframe hfits
  subst hframe hlength
  simp only [sealCall]
  rw [if_neg hplaintext, sealRecord_eq, if_neg (not_not.mpr hestablished),
    if_neg (not_not.mpr hfits),
    if_pos (show client.sendSequence = 0xffffffffffffffff from hlast)]

theorem sealCall_last {client : Client} (call : SealArguments)
    (hlast : client.sendSequence = lastSequence) : (sealCall sha256 client call).1 ≠ .ok := by
  rcases sealCall_cases sha256 client call with
    ⟨failure, hfailure, hcall⟩ | ⟨_, _, _, -, -, -, -, hexpired, -, -⟩
  · rw [hcall]
    exact hfailure
  · exact absurd hlast hexpired

variable (sha256) in
/-- The nonces of a session whose client was `client` at first, and the frames that its seals
returned. -/
structure NoncesUnique (client : Client) (history : RecordHistory) : Prop where
  frames : ∀ s ∈ history.sealed, s.2 = s.1.frame
  nodup : (history.sealed.map fun s => s.1.nonce).Nodup
  carried : ∀ s ∈ history.sealed,
    s.1.nonce = makeRecordNonce client.sendNonceBase (carriedSequence s.2)
  exhausted : history.client.sendSequence = lastSequence →
    ∀ later, RecordRun sha256 (fun _ _ => True) history later →
      later.sealed = history.sealed ∧ ∀ call,
        (sealCall sha256 later.client call).1 ≠ .ok ∧
          (call.Admitted later.client → (sealCall sha256 later.client call).1 = .errExpired)

theorem nonces_unique {client : Client}
    (h : RecordRun sha256 (fun _ _ => True) (.start client) history) :
    NoncesUnique sha256 client history := by
  have hinvariant := h.sendInvariant (.start client)
  refine ⟨hinvariant.frames, hinvariant.nonces_nodup, hinvariant.nonces,
    fun hlast later hlater => ?_⟩
  obtain ⟨hsealed, hstill⟩ := hlater.sealed_of_last hlast
  refine ⟨hsealed, fun call => ⟨sealCall_last call hstill, fun hadmitted => ?_⟩⟩
  rw [sealCall_expired hadmitted hstill]

/-! A client that seals two records and opens one between them. -/

def establishedClient : Client := { retryClient with state := .established }

def sealThree : RecordCall :=
  .sealing ⟨.bytes [1, 2, 3], .bytes (List.replicate 96 0), some 0⟩

def openEmpty : RecordCall :=
  .opening ⟨.bytes (establishedClient.nextIncoming zeroDigest).frame, .bytes [], some 0⟩

def twoSeals : RecordHistory :=
  [sealThree, openEmpty, sealThree].foldl (·.step zeroDigest) (.start establishedClient)

theorem sealThree_noncesUnique :
    NoncesUnique zeroDigest establishedClient twoSeals ∧
      twoSeals.sealed.map (fun s => carriedSequence s.2) = [0, 1] ∧
      twoSeals.accepted.map carriedSequence = [0] :=
  ⟨nonces_unique (RecordRun.foldl zeroDigest ..), by decide +kernel, by decide +kernel⟩

/-- With the last number reached, a seal without room for the record still fails by its
capacity. -/
theorem exhausted_errCapacity :
    ¬ ∀ client : Client, client.sendSequence = lastSequence → ∀ call,
      (sealCall zeroDigest client call).1 = .errExpired := by
  intro h
  have hexpired := h { establishedClient with sendSequence := lastSequence } rfl
    ⟨.bytes [], .bytes [], some 0⟩
  have hcapacity : (sealCall zeroDigest { establishedClient with sendSequence := lastSequence }
      ⟨.bytes [], .bytes [], some 0⟩).1 = .errCapacity := rfl
  rw [hcapacity] at hexpired
  cases hexpired

/-! ## Opens -/

variable (sha256) in
/-- What one call adds to the records accepted. -/
theorem RecordHistory.step_accepted (history : RecordHistory) (call : RecordCall) :
    ((history.step sha256 call).accepted = history.accepted
        ∧ (history.step sha256 call).client.receiveSequence = history.client.receiveSequence) ∨
      ∃ opening frame plaintext, call = .opening opening
        ∧ history.client.Opens sha256 frame plaintext
        ∧ (history.step sha256 call).client = history.client.afterOpen sha256
        ∧ (history.step sha256 call).accepted = history.accepted ++ [frame] := by
  cases call with
  | sealing call =>
    refine .inl ?_
    rcases sealCall_cases sha256 history.client call with
      ⟨failure, hfailure, hcall⟩ | ⟨_, _, _, -, -, -, -, -, -, hcall⟩
    · rw [RecordHistory.step, hcall]
      cases failure <;> first | exact absurd rfl hfailure | exact ⟨rfl, rfl⟩
    · rw [RecordHistory.step, hcall]
      exact ⟨rfl, rfl⟩
  | opening call =>
    rcases openCall_cases sha256 history.client call with
      ⟨status, done, hstatus, hcall⟩ | ⟨frame, plaintext, done, hframe, hopens, hcall⟩
    · refine .inl ?_
      rw [RecordHistory.step, hcall]
      cases status <;> first | exact absurd rfl hstatus | exact ⟨rfl, rfl⟩
    · refine .inr ⟨call, frame, plaintext, rfl, hopens, ?_, ?_⟩
      · rw [RecordHistory.step, hcall]
      · rw [RecordHistory.step, hcall, hframe]
        rfl

/-- The accepted numbers count up from zero, modulo `2 ^ 64`. -/
structure ReceiveInvariant (history : RecordHistory) : Prop where
  next : history.client.receiveSequence = UInt64.ofNat history.accepted.length
  numbers : history.accepted.map carriedSequence
    = (List.range history.accepted.length).map UInt64.ofNat

theorem ReceiveInvariant.start {client : Client} (h : client.receiveSequence = 0) :
    ReceiveInvariant (RecordHistory.start client) := ⟨h, rfl⟩

theorem ReceiveInvariant.step (h : ReceiveInvariant history) (call : RecordCall) :
    ReceiveInvariant (history.step sha256 call) := by
  rcases history.step_accepted sha256 call with
    ⟨haccepted, hsequence⟩ | ⟨-, frame, plaintext, -, hopens, hclient, haccepted⟩
  · refine ⟨?_, ?_⟩
    · rw [hsequence, haccepted]
      exact h.next
    · rw [haccepted]
      exact h.numbers
  · refine ⟨?_, ?_⟩
    · rw [hclient, haccepted, List.length_append, List.length_singleton, UInt64.ofNat_add]
      exact congrArg (· + 1) h.next
    · rw [haccepted, List.map_append, h.numbers, List.length_append, List.length_singleton,
        List.range_succ, List.map_append, List.map_singleton, List.map_singleton]
      exact congrArg (fun sequence => _ ++ [sequence]) (hopens.sequence.trans h.next)

theorem RecordRun.receiveInvariant {allowed : Client → RecordCall → Prop}
    (h : RecordRun sha256 allowed first history) (hfirst : ReceiveInvariant first) :
    ReceiveInvariant history := by
  induction h with
  | refl => exact hfirst
  | call call _ _ ih => exact ih.step call

/-- An open finds the counter below the last number. -/
def OpensBelowLast (client : Client) : RecordCall → Prop
  | .sealing _ => True
  | .opening _ => client.receiveSequence ≠ lastSequence

instance (client : Client) : (call : RecordCall) → Decidable (OpensBelowLast client call)
  | .sealing _ => inferInstanceAs (Decidable True)
  | .opening _ => inferInstanceAs (Decidable (client.receiveSequence ≠ lastSequence))

/-- A run whose opens all find the counter below the last number accepts less than `2 ^ 64`
records. -/
theorem RecordRun.accepted_lt (h : RecordRun sha256 OpensBelowLast first history)
    (hfirst : ReceiveInvariant first) (hlt : first.accepted.length < 2 ^ 64) :
    history.accepted.length < 2 ^ 64 := by
  induction h with
  | refl => exact hlt
  | @call call history hrun hallowed ih =>
    rcases history.step_accepted sha256 call with
      ⟨haccepted, -⟩ | ⟨opening, frame, plaintext, rfl, -, -, haccepted⟩
    · rw [haccepted]
      exact ih
    · have hnext := toNat_succ_of_ne_last hallowed
      have hcount := (hrun.receiveInvariant hfirst).next
      have hsum := ((history.client.receiveSequence) + 1).toNat_lt
      rw [hnext, hcount, UInt64.toNat_ofNat', Nat.mod_eq_of_lt ih] at hsum
      rw [haccepted, List.length_append, List.length_singleton]
      exact hsum

variable (sha256) in
/-- Whether every record the client accepts is behind its counter afterwards. -/
def Client.PassesAccepted (client : Client) : Prop :=
  ∀ call after done, openCall sha256 client call = (.ok, after, done) →
    carriedSequence call.frame.contents < after.receiveSequence

variable (sha256) in
structure ReplayFree (history : RecordHistory) : Prop where
  numbers : history.accepted.map (fun frame => (carriedSequence frame).toNat)
    = List.range history.accepted.length
  nodup : (history.accepted.map carriedSequence).Nodup
  fresh : ∀ call after done, openCall sha256 history.client call = (.ok, after, done) →
    carriedSequence call.frame.contents ∉ history.accepted.map carriedSequence

theorem openCall_ok {client after : Client} {call done : OpenArguments}
    (h : openCall sha256 client call = (.ok, after, done)) :
    carriedSequence call.frame.contents = client.receiveSequence
      ∧ after = client.afterOpen sha256 := by
  rcases openCall_cases sha256 client call with
    ⟨status, done, hstatus, hcall⟩ | ⟨frame, plaintext, done, hframe, hopens, hcall⟩
  · cases h.symm.trans hcall
    exact absurd rfl hstatus
  · cases h.symm.trans hcall
    rw [hframe]
    exact ⟨hopens.sequence, rfl⟩

variable (sha256) in
theorem passesAccepted_iff {client : Client} (hstate : client.state = .established) :
    client.PassesAccepted sha256 ↔ client.receiveSequence ≠ lastSequence := by
  constructor
  · intro h hlast
    have hpassed := h _ _ _ (openCall_nextIncoming sha256 hstate)
    rw [(openCall_ok (openCall_nextIncoming sha256 hstate)).1, Client.afterOpen, hlast] at hpassed
    have hwrapped : ¬ lastSequence < lastSequence + 1 := by decide
    exact hwrapped hpassed
  · intro h call after done hcall
    obtain ⟨hcarried, rfl⟩ := openCall_ok hcall
    rw [hcarried]
    exact lt_succ_of_ne_last h

theorem ReceiveInvariant.replayFree (h : ReceiveInvariant history)
    (hlt : history.accepted.length < 2 ^ 64) : ReplayFree sha256 history := by
  have hnumbers : history.accepted.map (fun frame => (carriedSequence frame).toNat)
      = List.range history.accepted.length := by
    have hmap := congrArg (List.map UInt64.toNat) h.numbers
    rw [List.map_map, List.map_map] at hmap
    refine hmap.trans ?_
    conv_rhs => rw [← List.map_id (List.range history.accepted.length)]
    refine List.map_congr_left fun n hn => ?_
    have hn := List.mem_range.mp hn
    exact (UInt64.toNat_ofNat').trans (Nat.mod_eq_of_lt (by omega))
  refine ⟨hnumbers, ?_, ?_⟩
  · have hnodup : (history.accepted.map fun frame => (carriedSequence frame).toNat).Nodup := by
      rw [hnumbers]
      exact List.nodup_range
    refine List.Nodup.of_map UInt64.toNat ?_
    rw [List.map_map]
    exact hnodup
  · intro call after done hcall hmem
    obtain ⟨hcarried, -⟩ := openCall_ok hcall
    rw [hcarried, h.numbers, List.mem_map] at hmem
    obtain ⟨n, hn, heq⟩ := hmem
    have hn := List.mem_range.mp hn
    have hnext := congrArg UInt64.toNat (heq.trans h.next)
    rw [UInt64.toNat_ofNat', UInt64.toNat_ofNat', Nat.mod_eq_of_lt (by omega),
      Nat.mod_eq_of_lt hlt] at hnext
    omega

variable (sha256) in
/-- An established client passes every record it accepts unless its counter stands at the
last number, and a run that never opens a record there accepts the numbers from zero on. -/
theorem replayProtection_iff {client : Client} (hstate : client.state = .established) :
    (client.PassesAccepted sha256 ↔ client.receiveSequence ≠ lastSequence)
    ∧ (client.receiveSequence = 0 → ∀ history,
        RecordRun sha256 OpensBelowLast (.start client) history →
          ReplayFree sha256 history) := by
  refine ⟨passesAccepted_iff sha256 hstate, fun hzero history hrun => ?_⟩
  have hfirst := ReceiveInvariant.start hzero
  exact (hrun.receiveInvariant hfirst).replayFree (hrun.accepted_lt hfirst (Nat.two_pow_pos 64))

/-- The second record that the client opens. -/
def openSecond : RecordCall :=
  .opening ⟨.bytes ((establishedClient.afterOpen zeroDigest).nextIncoming zeroDigest).frame,
    .bytes [], some 0⟩

/-- Two records are opened, the first one is replayed. -/
def replayed : RecordHistory :=
  [openEmpty, openSecond, openEmpty].foldl (·.step zeroDigest) (.start establishedClient)

theorem establishedClient_replayFree :
    establishedClient.PassesAccepted zeroDigest ∧ ReplayFree zeroDigest replayed ∧
      replayed.accepted.map carriedSequence = [0, 1] := by
  have h := replayProtection_iff zeroDigest
    (show establishedClient.state = .established from rfl)
  have hrun : RecordRun zeroDigest OpensBelowLast (.start establishedClient) replayed :=
    .call openEmpty (.call openSecond (.call openEmpty .refl (by decide +kernel))
      (by decide +kernel)) (by decide +kernel)
  exact ⟨h.1.mpr (by decide), h.2 rfl _ hrun, by decide +kernel⟩

/-- At the last number an accepted record brings the counter back to zero. -/
def wrappingClient : Client := { establishedClient with receiveSequence := lastSequence }

theorem wrappingClient_wraps :
    ∃ call after done, openCall zeroDigest wrappingClient call = (.ok, after, done)
      ∧ carriedSequence call.frame.contents = lastSequence ∧ after.receiveSequence = 0
      ∧ ¬ carriedSequence call.frame.contents < after.receiveSequence := by
  have hcall := openCall_nextIncoming zeroDigest
    (show wrappingClient.state = .established from rfl)
  obtain ⟨hcarried, hafter⟩ := openCall_ok hcall
  refine ⟨_, _, _, hcall, hcarried, rfl, ?_⟩
  rw [hcarried]
  decide

end C0PQLink
