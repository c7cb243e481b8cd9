import C0PQLink.Core.MlKem512Flash
import C0PQLink.Session.Lifecycle
import C0PQLink.Session.Retransmission

/-!
# How a connect reports its failures

The progress of a connect, read off the calls it made: which frame it waits for, how often
it has sent its own, and which frame ended the last exchange. Every way in which a connect
can fail is told by its progress and its status.

* `ConnectFails`: the ways to fail.
* `connectRun_ends`: how a connect ends, whatever its callbacks answer.
* `failuresReported_iff`: when a tag that does not verify is reported as such.
-/

namespace C0PQLink

open Foundation Fips203

variable (sha256 : Bytes → Block 32)

/-! ## Progress -/

/-- The frame that a connect waits for. -/
inductive Awaited where
  | challenge
  | ack (sessionAuthKey : Block 32) (index : UInt8)
  | finished
  deriving DecidableEq

namespace Awaited

def frameType : Awaited → UInt8
  | .challenge => frameChallenge
  | .ack _ _ => frameCiphertextAck
  | .finished => frameServerFinished

def frameLength : Awaited → Nat
  | .challenge => 84
  | .ack _ _ => 28
  | .finished => 26

/-- The acknowledgment of a fragment, or what follows the last one. -/
def fragment (sessionAuthKey : Block 32) (index : UInt8) : Awaited :=
  if index = fragmentCount then .finished else .ack sessionAuthKey index

end Awaited

/-- The session auth key of the fields in a challenge frame. -/
def frameAuthKey (psk : Block 32) (frame : Bytes) : Block 32 :=
  if h : frame.length = 84 then challengeAuthKey sha256 psk (challengeFields frame h)
  else Block.zero 32

/-- What a connect waits for after a frame that it waited for. -/
def Awaited.next (psk : Block 32) (frame : Bytes) : Awaited → Awaited
  | .challenge => .ack (frameAuthKey sha256 psk frame) 0
  | .ack sessionAuthKey index => .fragment sessionAuthKey (index + 1)
  | .finished => .finished

/-- What is waited for, the frames sent since then, and the frame that ended the exchange
before. -/
structure Progress where
  awaited : Awaited
  attempts : Nat
  last : Option (Awaited × Bytes)
  deriving DecidableEq

namespace Progress

def start : Progress := ⟨.challenge, 0, none⟩

def after (client : Client) (progress : Progress) (record : CallRecord) : Progress :=
  match record with
  | ⟨.sendFrame _, _⟩ => { progress with attempts := progress.attempts + 1 }
  | ⟨.receiveFrame _, received⟩ =>
    if received.accepted client.sessionId progress.awaited.frameType
        progress.awaited.frameLength then
      let frame := received.buffer.val.take received.length
      ⟨progress.awaited.next sha256 client.config.psk frame, 0, some (progress.awaited, frame)⟩
    else progress
  | _ => progress

/-- The progress after some calls, the last one first. -/
def of (client : Client) (log : List CallRecord) : Progress :=
  log.foldr (fun record progress => progress.after sha256 client record) start

end Progress

/-! ## Frames that are refused -/

/-- The header and the suite of a challenge. -/
def ChallengeExpected (sessionId : UInt32) (frame : Bytes) : Prop :=
  load16BE (slice frame 10 2) = suiteMlkem512HkdfSha256Ascon128 ∧
    ∃ header, decodeHeader frame = .ok header ∧ header.type = frameChallenge
      ∧ header.flags = 0 ∧ header.sessionId = sessionId ∧ header.payloadLength = 74

def ChallengeTagVerifies (psk : Block 32) (frame : Bytes) : Prop :=
  verifyAuthTag sha256 (slice frame 68 16) (frameAuthKey sha256 psk frame)
    "C0PQ/1 challenge frame" (slice frame 0 68) = .ok

/-- The header, the index and the status of an acknowledgment. -/
def AckExpected (index : UInt8) (frame : Bytes) : Prop :=
  byteAt frame 10 = index ∧ byteAt frame 11 = 0 ∧
    ∃ header, decodeHeader frame = .ok header ∧ header.flags = 0 ∧ header.payloadLength = 18

def AckTagVerifies (sessionAuthKey : Block 32) (frame : Bytes) : Prop :=
  verifyAuthTag sha256 (slice frame 12 16) sessionAuthKey "C0PQ/1 ciphertext ack"
    (slice frame 0 12) = .ok

/-- The header of a Server Finished. -/
def FinishedExpected (frame : Bytes) : Prop :=
  ∃ header, decodeHeader frame = .ok header ∧ header.flags = 0 ∧ header.payloadLength = 16

/-- A connect fails at a frame which is as expected but for its tag. The tag is all that is
left to check in a Server Finished with the expected header. -/
def Progress.TagRejected (client : Client) (progress : Progress) (status : Status) : Prop :=
  match progress.last with
  | some (.challenge, frame) =>
    ChallengeExpected client.sessionId frame ∧ ¬ ChallengeTagVerifies sha256 client.config.psk frame
  | some (.ack sessionAuthKey index, frame) =>
    AckExpected index frame ∧ ¬ AckTagVerifies sha256 sessionAuthKey frame
  | some (.finished, frame) => FinishedExpected frame ∧ status ≠ .ok
  | none => False

/-- All attempts of the exchange were in vain. -/
def Progress.OutOfRetries (client : Client) (progress : Progress) : Prop :=
  progress.attempts = client.config.maximumRetries.toNat + 1

/-- The exchange of a fragment ended with a frame that is no acknowledgment of it. -/
def Progress.AckRejected (progress : Progress) : Prop :=
  ∃ sessionAuthKey index frame, progress.last = some (.ack sessionAuthKey index, frame) ∧
    checkAck sha256 sessionAuthKey index frame ≠ .ok

/-- The frame that ended the last exchange has passed its checks. -/
def Progress.Passed (client : Client) (progress : Progress) : Prop :=
  match progress.last with
  | some (.challenge, frame) => ChallengeTagVerifies sha256 client.config.psk frame
  | some (.ack sessionAuthKey index, frame) => checkAck sha256 sessionAuthKey index frame = .ok
  | some (.finished, _) => False
  | none => True

/-- The ways in which a connect can fail. -/
inductive ConnectFails (client : Client) (progress : Progress) : Status → Prop
  | retries : progress.OutOfRetries client → progress.Passed sha256 client →
      ConnectFails client progress .errIo
  | challenge {frame : Bytes} {failure : Status} :
      progress.last = some (.challenge, frame) → failure ≠ .ok → failure ≠ .errIo →
        (ChallengeExpected client.sessionId frame → failure = .errAuth) →
          ConnectFails client progress failure
  | ack : progress.AckRejected sha256 → progress.attempts = 0 → ConnectFails client progress .errIo
  | finished {frame : Bytes} {failure : Status} :
      progress.last = some (.finished, frame) → failure ≠ .ok → failure ≠ .errIo →
        (FinishedExpected frame → failure = .errAuth) → ConnectFails client progress failure
  | before {failure : Status} : progress.Passed sha256 client → failure ≠ .ok →
      failure ≠ .errIo → ConnectFails client progress failure

variable {sha256} {client : Client} {log : List CallRecord}

/-! ## Exchanges -/

theorem Progress.of_cons (record : CallRecord) (log : List CallRecord) :
    Progress.of sha256 client (record :: log)
      = (Progress.of sha256 client log).after sha256 client record := rfl

variable (sha256 client) in
/-- How an exchange that starts with some progress ends. -/
def ExchangeEnds (awaited : Awaited) (last : Option (Awaited × Bytes))
    (outcome : Status × FrameBuffer)
    (log' : List CallRecord) : Prop :=
  (outcome.1 = .ok ∧
      let frame := outcome.2.val.take awaited.frameLength
      Progress.of sha256 client log'
        = ⟨awaited.next sha256 client.config.psk frame, 0, some (awaited, frame)⟩)
    ∨ (outcome.1 = .errIo ∧
      Progress.of sha256 client log' = ⟨awaited, client.config.maximumRetries.toNat + 1, last⟩)

theorem exchangeAttempts_progress {awaited : Awaited} {last : Option (Awaited × Bytes)}
    (outgoingLength attempts done : Nat) (buffer : FrameBuffer)
    (hdone : done + attempts = client.config.maximumRetries.toNat + 1)
    (hlog : Progress.of sha256 client log = ⟨awaited, done, last⟩) :
    (exchangeAttempts client.sessionId outgoingLength awaited.frameType awaited.frameLength attempts
      buffer).wp logStep (ExchangeEnds sha256 client awaited last) log := by
  induction attempts generalizing buffer log done with
  | zero =>
    refine .inr ⟨rfl, ?_⟩
    rw [hlog, ← hdone]
    rfl
  | succ attempts ih =>
    simp only [exchangeAttempts, sendFrame, receiveFrame, Program.wp_bind, Program.wp_perform]
    rintro sent log1 rfl
    have hsent : Progress.of sha256 client
        (⟨.sendFrame (buffer.val.take outgoingLength), sent⟩ :: log) = ⟨awaited, done + 1, last⟩ := by
      rw [Progress.of_cons, hlog]
      rfl
    split
    · exact ih (done + 1) buffer (by omega) hsent
    · simp only [Program.wp_bind, Program.wp_perform]
      rintro received log2 rfl
      have hreceived : Progress.of sha256 client
          (⟨.receiveFrame buffer, received⟩ ::
            ⟨.sendFrame (buffer.val.take outgoingLength), sent⟩ :: log)
          = Progress.after sha256 client ⟨awaited, done + 1, last⟩
              ⟨.receiveFrame buffer, received⟩ := by
        rw [Progress.of_cons, hsent]
      simp only [Progress.after] at hreceived
      split
      · rename_i haccepted
        refine .inl ⟨rfl, ?_⟩
        have hlength : received.length = awaited.frameLength := by
          have := haccepted
          simp only [Received.accepted, decide_eq_true_eq] at this
          exact this.2.1
        rw [if_pos haccepted, hlength] at hreceived
        exact hreceived
      · rename_i haccepted
        rw [if_neg haccepted] at hreceived
        exact ih (done + 1) received.buffer (by omega) hreceived

theorem sendAndReceive_progress (awaited : Awaited) {last : Option (Awaited × Bytes)}
    (outgoingLength : Nat) (buffer : FrameBuffer)
    (hlog : Progress.of sha256 client log = ⟨awaited, 0, last⟩) :
    (sendAndReceive client outgoingLength awaited.frameType awaited.frameLength buffer).wp logStep
      (ExchangeEnds sha256 client awaited last) log :=
  exchangeAttempts_progress outgoingLength _ 0 buffer (by omega) hlog

/-! ## The challenge -/

variable (sha256) in
theorem verifyAuthTag_cases (tag : Bytes) (key : Block 32) (label : String) (data : Bytes) :
    verifyAuthTag sha256 tag key label data = .ok ∨
      verifyAuthTag sha256 tag key label data = .errAuth := by
  unfold verifyAuthTag
  split
  · exact .inl rfl
  · exact .inr rfl

variable (sha256) in
theorem frameAuthKey_eq (psk : Block 32) {frame : Bytes} (h : frame.length = 84) :
    frameAuthKey sha256 psk frame = challengeAuthKey sha256 psk (challengeFields frame h) :=
  dif_pos h

theorem decodeVerifyChallenge_ok {sessionId : UInt32} {frame : Bytes} {psk : Block 32}
    {challenge : Challenge}
    (h : decodeVerifyChallenge sha256 sessionId frame psk = .ok challenge) :
    ChallengeTagVerifies sha256 psk frame
      ∧ frameAuthKey sha256 psk frame = challengeAuthKey sha256 psk challenge := by
  unfold decodeVerifyChallenge at h
  split at h
  · cases h
  rename_i hlength
  have hkey := frameAuthKey_eq sha256 psk (not_not.mp hlength)
  split at h
  · cases h
  split at h
  · cases h
  simp only at h
  split at h
  · cases h
  split at h
  · rename_i htag
    cases h
    refine ⟨?_, hkey⟩
    rw [ChallengeTagVerifies, hkey]
    exact htag
  · cases h

theorem decodeVerifyChallenge_error {sessionId : UInt32} {frame : Bytes} {psk : Block 32}
    {failure : Status} (hlength : frame.length = 84)
    (h : decodeVerifyChallenge sha256 sessionId frame psk = .error failure) :
    failure ≠ .ok ∧ failure ≠ .errIo ∧
      (ChallengeExpected sessionId frame → failure = .errAuth) := by
  unfold decodeVerifyChallenge at h
  rw [dif_neg (not_not.mpr hlength)] at h
  split at h
  · rename_i hheader
    cases h
    refine ⟨by simp, by simp, fun hexpected => ?_⟩
    obtain ⟨-, header, hok, -⟩ := hexpected
    rw [hheader] at hok
    cases hok
  rename_i header hheader
  split at h
  · rename_i hshape
    cases h
    refine ⟨by simp, by simp, fun hexpected => ?_⟩
    obtain ⟨-, header', hok, htype, hflags, hid, hpayload⟩ := hexpected
    cases hheader.symm.trans hok
    rcases hshape with hne | hne | hne | hne
    · exact absurd htype hne
    · exact absurd hflags hne
    · exact absurd hid hne
    · exact absurd hpayload hne
  simp only at h
  split at h
  · rename_i hsuite
    cases h
    exact ⟨by simp, by simp, fun hexpected => absurd hexpected.1 hsuite⟩
  split at h
  · cases h
  · rename_i hfailed
    cases h
    rcases verifyAuthTag_cases sha256 (slice frame 68 16)
      (challengeAuthKey sha256 psk (challengeFields frame hlength)) "C0PQ/1 challenge frame"
      (slice frame 0 68) with hok | hauth
    · exact absurd hok hfailed
    · rw [hauth]
      exact ⟨by simp, by simp, fun _ => rfl⟩

theorem requestChallenge_progress (deviceNonce : Block 16) (stack : FrameBuffer)
    (hlog : Progress.of sha256 client log = Progress.start) :
    (requestChallenge sha256 client deviceNonce stack).wp logStep
      (fun result log' =>
        match result with
        | .error failure => ConnectFails sha256 client (Progress.of sha256 client log') failure
        | .ok (challenge, _) => ∃ last, Progress.of sha256 client log'
              = ⟨.ack (challengeAuthKey sha256 client.config.psk challenge) 0, 0, last⟩
            ∧ (Progress.of sha256 client log').Passed sha256 client) log := by
  unfold requestChallenge
  simp only [encodeHello, ne_eq, not_true, if_false]
  rw [Program.wp_bind]
  refine Program.wp_mono (fun outcome log' hended => ?_)
    (sendAndReceive_progress .challenge 60 _ hlog)
  obtain ⟨result, buffer⟩ := outcome
  rcases hended with ⟨hresult, hprogress⟩ | ⟨hresult, hprogress⟩
  · simp only at hresult hprogress
    subst hresult
    have hlength : (buffer.val.take 84).length = 84 := by
      rw [List.length_take, Block.length_val]
      rfl
    rw [if_neg (by simp)]
    split
    · rename_i failure hfailed
      obtain ⟨hok, hio, hauth⟩ := decodeVerifyChallenge_error hlength hfailed
      exact .challenge (congrArg Progress.last hprogress) hok hio hauth
    rename_i challenge hchallenge
    obtain ⟨htag, hkey⟩ := decodeVerifyChallenge_ok hchallenge
    split
    · refine ⟨some (.challenge, buffer.val.take 84), ?_, ?_⟩
      · rw [hprogress, ← hkey]
        rfl
      · rw [hprogress]
        exact htag
    · rename_i hfailed
      have hmismatch : verifyChallengeMatches client challenge deviceNonce = .errAuth := by
        unfold verifyChallengeMatches at hfailed ⊢
        split
        · rfl
        · rename_i hsame
          exact absurd (if_neg hsame) hfailed
      rw [hmismatch]
      exact .challenge (congrArg Progress.last hprogress) (by simp) (by simp) fun _ => rfl
  · simp only at hresult hprogress
    subst hresult
    rw [if_pos (by simp)]
    refine .retries ?_ ?_
    · rw [hprogress]
      rfl
    · rw [hprogress]
      trivial

/-! ## The fragments -/

/-- The acknowledgments so far are valid, and `count` bytes of the ciphertext are written. -/
structure FragmentsSent (sha256 : Bytes → Block 32) (client : Client)
    (sessionAuthKey : Block 32) (count : Nat)
    (writer : CiphertextWriter) (progress : Progress) : Prop where
  failure : writer.failure = .ok
  sessionAuthKey_eq : writer.sessionAuthKey = sessionAuthKey
  awaited : progress.awaited = .fragment sessionAuthKey writer.fragmentIndex
  attempts : progress.attempts = 0
  passed : progress.Passed sha256 client
  count_eq : 48 * writer.fragmentIndex.toNat + writer.pending.length = count
  pending_lt : writer.pending.length < 48
  count_le : count ≤ 768

section

variable {sessionAuthKey : Block 32} {count : Nat} {writer : CiphertextWriter}

/-- How a write ends that makes `count` bytes written. -/
structure WriteEnds (sha256 : Bytes → Block 32) (client : Client) (sessionAuthKey : Block 32)
    (count : Nat) (status : Status) (writer : CiphertextWriter) (progress : Progress) : Prop where
  sent : status = .ok → FragmentsSent sha256 client sessionAuthKey count writer progress
  failed : status ≠ .ok → ConnectFails sha256 client progress .errIo

theorem Progress.eq_of {progress : Progress} {awaited : Awaited} {attempts : Nat}
    (hawaited : progress.awaited = awaited) (hattempts : progress.attempts = attempts) :
    progress = ⟨awaited, attempts, progress.last⟩ := by
  subst hawaited hattempts
  rfl

theorem fragment_of_lt {index : UInt8} (h : index.toNat < 16) :
    Awaited.fragment sessionAuthKey index = .ack sessionAuthKey index := by
  refine if_neg fun heq => ?_
  rw [heq] at h
  exact Nat.lt_irrefl 16 h

/-- A flush of a full buffer. -/
theorem flushCiphertextFragment_progress (writer : CiphertextWriter) (stack : FrameBuffer)
    (hkey : writer.sessionAuthKey = sessionAuthKey) (hindex : writer.fragmentIndex.toNat < 16)
    (hpending : writer.pending.length = 48) {last : Option (Awaited × Bytes)}
    (hlog : Progress.of sha256 client log = ⟨.ack sessionAuthKey writer.fragmentIndex, 0, last⟩)
    (hpassed : (Progress.of sha256 client log).Passed sha256 client) :
    (flushCiphertextFragment sha256 client writer stack).wp logStep
      (fun outcome log' => WriteEnds sha256 client sessionAuthKey
        (48 * (writer.fragmentIndex.toNat + 1)) outcome.1 { outcome.2 with failure := outcome.1 }
        (Progress.of sha256 client log')) log := by
  unfold flushCiphertextFragment
  have hbounds : ¬ (writer.pending.length = 0 ∨ writer.fragmentIndex ≥ fragmentCount) := by
    rintro (hempty | hfull)
    · omega
    · exact absurd (UInt8.le_iff_toNat_le.mp hfull) (by show ¬ 16 ≤ _; omega)
  rw [if_neg hbounds]
  simp only [Program.wp_bind]
  refine Program.wp_mono (fun outcome log' hended => ?_)
    (sendAndReceive_progress (.ack sessionAuthKey writer.fragmentIndex) _ _ hlog)
  obtain ⟨result, buffer⟩ := outcome
  rcases hended with ⟨hresult, hprogress⟩ | ⟨hresult, hprogress⟩
  · simp only at hresult hprogress
    subst hresult
    rw [if_neg (by simp)]
    have hsucc : (writer.fragmentIndex + 1).toNat = writer.fragmentIndex.toNat + 1 := by
      rw [UInt8.toNat_add]
      exact Nat.mod_eq_of_lt (show writer.fragmentIndex.toNat + 1 < 256 by omega)
    split
    · rename_i hack
      rw [hkey] at hack
      refine ⟨fun _ => ?_, fun hfailed => absurd rfl hfailed⟩
      refine ⟨rfl, hkey, ?_, ?_, ?_, ?_, ?_, ?_⟩
      · rw [hprogress]
        rfl
      · rw [hprogress]
      · rw [hprogress]
        exact hack
      · simp only [hsucc, List.length_nil, Nat.add_zero]
      · simp
      · omega
    · rename_i hfailed
      refine ⟨fun hok => absurd hok hfailed, fun _ => .ack ?_ ?_⟩
      · rw [hkey] at hfailed
        refine ⟨sessionAuthKey, writer.fragmentIndex, buffer.val.take 28, ?_, hfailed⟩
        rw [hprogress]
        rfl
      · rw [hprogress]
  · simp only at hresult hprogress
    subst hresult
    rw [if_pos (by simp)]
    have hretries : ConnectFails sha256 client (Progress.of sha256 client log') .errIo := by
      refine .retries ?_ ?_
      · rw [hprogress]
        rfl
      · rw [hlog] at hpassed
        rw [hprogress]
        exact hpassed
    refine ⟨fun hok => ?_, fun _ => hretries⟩
    cases hok

theorem writeLoop_progress (stack : FrameBuffer) (turns : Nat) (data : Bytes)
    (hturns : data.length ≤ turns) (hcount : count + data.length ≤ 768)
    (h : FragmentsSent sha256 client sessionAuthKey count writer (Progress.of sha256 client log)) :
    (writeLoop sha256 client stack turns writer data).wp logStep
      (fun outcome log' => WriteEnds sha256 client sessionAuthKey (count + data.length) outcome.1
        outcome.2 (Progress.of sha256 client log')) log := by
  induction turns generalizing writer data log count with
  | zero =>
    have hempty : data.length = 0 := by omega
    refine ⟨fun _ => ?_, fun hfailed => absurd rfl hfailed⟩
    rw [hempty]
    exact h
  | succ turns ih =>
    unfold writeLoop
    split
    · rename_i hempty
      refine ⟨fun _ => ?_, fun hfailed => absurd rfl hfailed⟩
      rw [hempty]
      exact h
    rename_i hdata
    have hpending := h.pending_lt
    have hfifty := h.count_eq
    have hspace : (48 : Nat) - writer.pending.length = fragmentPayloadBytes - writer.pending.length :=
      rfl
    simp only [← hspace]
    obtain ⟨take, htake⟩ : ∃ take, take = min data.length (48 - writer.pending.length) := ⟨_, rfl⟩
    simp only [← htake]
    have hlength : (writer.pending ++ data.take take).length = writer.pending.length + take := by
      rw [List.length_append, List.length_take]
      omega
    have hrest : (data.drop take).length = data.length - take := List.length_drop
    split
    · rename_i hfull
      have hfull : writer.pending.length + take = 48 := by
        rw [← hlength]
        exact hfull
      have hindex : writer.fragmentIndex.toNat < 16 := by omega
      have hlast := Progress.eq_of (h.awaited.trans (fragment_of_lt hindex)) h.attempts
      rw [Program.wp_bind]
      refine Program.wp_mono (fun outcome log' hended => ?_)
        (flushCiphertextFragment_progress
          { writer with pending := writer.pending ++ data.take take } stack
          h.sessionAuthKey_eq hindex (hlength.trans hfull) hlast h.passed)
      obtain ⟨failure, flushed⟩ := outcome
      split
      · rename_i hfailed
        exact ⟨fun hok => absurd hok hfailed, hended.failed⟩
      · rename_i hok
        have hsent : FragmentsSent sha256 client sessionAuthKey
            (48 * (writer.fragmentIndex.toNat + 1)) { flushed with failure }
            (Progress.of sha256 client log') :=
          hended.sent (not_not.mp hok)
        have hnext := ih (data.drop take) (by omega) (by omega) hsent
        have hsum : 48 * (writer.fragmentIndex.toNat + 1) + (data.drop take).length
            = count + data.length := by
          omega
        rw [hsum] at hnext
        exact hnext
    · rename_i hfull
      have hfull : writer.pending.length + take ≠ 48 := by
        rw [← hlength]
        exact hfull
      have hsent : FragmentsSent sha256 client sessionAuthKey (count + take)
          { writer with pending := writer.pending ++ data.take take }
          (Progress.of sha256 client log) :=
        { h with
          count_eq := by simp only [hlength]; omega
          pending_lt := by simp only [hlength]; omega
          count_le := by omega }
      have hnext := ih (data.drop take) (by omega) (by omega) hsent
      have hsum : count + take + (data.drop take).length = count + data.length := by omega
      rw [hsum] at hnext
      exact hnext

theorem writeCiphertext_progress (stack : FrameBuffer) (data : Bytes)
    (hcount : count + data.length ≤ 768)
    (h : FragmentsSent sha256 client sessionAuthKey count writer (Progress.of sha256 client log)) :
    (writeCiphertext sha256 client stack writer data).wp logStep
      (fun outcome log' => WriteEnds sha256 client sessionAuthKey (count + data.length) outcome.1
        outcome.2 (Progress.of sha256 client log')) log := by
  unfold writeCiphertext
  rw [if_neg (not_not.mpr h.failure)]
  exact writeLoop_progress stack _ data (Nat.le_refl _) hcount
    { h with }

end

/-! ## The encapsulation -/

section

variable (client) (sessionAuthKey : Block 32) (stack : FrameBuffer)

/-- The ciphertext callback of a connect. -/
def ciphertextCallback (sha256 : Bytes → Block 32) (client : Client) (stack : FrameBuffer)
    (data : Bytes) : EncapsulationProgram Status :=
  fun writer => writeCiphertext sha256 client stack writer data

/-- What every run of a part of the encapsulation ensures. -/
structure Ensures {α : Type} (p : EncapsulationProgram α) (writer : CiphertextWriter)
    (log : List CallRecord) (Q : α → CiphertextWriter → List CallRecord → Prop) : Prop where
  wp : (p writer).wp logStep (fun outcome => Q outcome.1 outcome.2) log

theorem Ensures.pure {α : Type} {a : α} {writer : CiphertextWriter} {log : List CallRecord}
    {Q : α → CiphertextWriter → List CallRecord → Prop} (h : Q a writer log) :
    Ensures (pure a) writer log Q := ⟨h⟩

theorem Ensures.bind {α β : Type} {p : EncapsulationProgram α} {f : α → EncapsulationProgram β}
    {writer : CiphertextWriter} {log : List CallRecord}
    {P : α → CiphertextWriter → List CallRecord → Prop}
    {Q : β → CiphertextWriter → List CallRecord → Prop} (hp : Ensures p writer log P)
    (hf : ∀ a writer' log', P a writer' log' → Ensures (f a) writer' log' Q) :
    Ensures (p >>= f) writer log Q := by
  refine ⟨(Program.wp_bind ..).mpr (Program.wp_mono (fun outcome log' h => ?_) hp.wp)⟩
  exact (hf outcome.1 outcome.2 log' h).wp

variable (sha256) in
/-- A part of the encapsulation that writes nothing. -/
def KeepsSent (count : Nat) (α : Type) (p : EncapsulationProgram α) (Q : α → Prop) : Prop :=
  ∀ writer log,
    FragmentsSent sha256 client sessionAuthKey count writer (Progress.of sha256 client log) →
    Ensures p writer log fun a writer' log' =>
      FragmentsSent sha256 client sessionAuthKey count writer' (Progress.of sha256 client log') ∧ Q a

variable (sha256) in
/-- A part of the encapsulation that makes `count` bytes written from `before` on. -/
def WritesUpTo (before count : Nat) (p : EncapsulationProgram Status) : Prop :=
  ∀ writer log,
    FragmentsSent sha256 client sessionAuthKey before writer (Progress.of sha256 client log) →
    Ensures p writer log fun status writer' log' =>
      WriteEnds sha256 client sessionAuthKey count status writer' (Progress.of sha256 client log')
        ∧ (status ≠ .ok → status = .errIo)

variable {client sessionAuthKey stack}

theorem keepsSent_compositional (count : Nat) :
    Compositional (KeepsSent sha256 client sessionAuthKey count) where
  pure ha _ _ h := .pure ⟨h, ha⟩
  bind hp hf _ _ h := (hp _ _ h).bind fun _ _ _ h' => hf _ h'.2 _ _ h'.1

theorem readPublicKey_keepsSent (count : Nat) (offset : UInt16) :
    KeepsSent sha256 client sessionAuthKey count UInt8 (readPublicKey offset) fun _ => True := by
  refine fun writer log h => ⟨?_⟩
  rintro reply log' rfl
  exact ⟨h, trivial⟩

theorem validateAndHashPublicKey_keepsSent (hashes : Hashes) (count : Nat) :
    KeepsSent sha256 client sessionAuthKey count _ (validateAndHashPublicKey hashes readPublicKey)
      (fun result => ∀ failure, result = .error failure → failure = .errKeyEncoding) :=
  validateAndHashPublicKey_keeps hashes (keepsSent_compositional count)
    (readPublicKey_keepsSent count)

theorem readKeyBytes_keepsSent (count start length : Nat) :
    KeepsSent sha256 client sessionAuthKey count _ (readKeyBytes readPublicKey start length)
      fun _ => True :=
  (keepsSent_compositional count).mapM (fun _ => readPublicKey_keepsSent count _) _

theorem WritesUpTo.done {count : Nat} :
    WritesUpTo sha256 client sessionAuthKey count count (pure .ok) := by
  intro writer log h
  exact .pure ⟨⟨fun _ => h, fun hfailed => absurd rfl hfailed⟩, fun hfailed => absurd rfl hfailed⟩

theorem WritesUpTo.ite_bind {before middle count : Nat} {p q : EncapsulationProgram Status}
    (hp : WritesUpTo sha256 client sessionAuthKey before middle p)
    (hq : WritesUpTo sha256 client sessionAuthKey middle count q) :
    WritesUpTo sha256 client sessionAuthKey before count
      (p >>= fun status => if status ≠ .ok then return status else q) := by
  intro writer log h
  refine (hp writer log h).bind fun status writer' log' hended => ?_
  split
  · rename_i hfailed
    exact .pure ⟨⟨fun hok => absurd hok hfailed, hended.1.failed⟩, hended.2⟩
  · rename_i hok
    exact hq _ _ (hended.1.sent (not_not.mp hok))

theorem writeEach_upTo (size : Nat) (chunks : List Bytes)
    (hsize : ∀ chunk ∈ chunks, chunk.length = size) {before : Nat}
    (hcount : before + size * chunks.length ≤ 768) :
    WritesUpTo sha256 client sessionAuthKey before (before + size * chunks.length)
      (writeEach (ciphertextCallback sha256 client stack) chunks) := by
  induction chunks generalizing before with
  | nil => exact .done
  | cons chunk rest ih =>
    intro writer log h
    have hchunk : chunk.length = size := hsize chunk List.mem_cons_self
    have hsum : before + size * (chunk :: rest).length = before + size + size * rest.length := by
      rw [List.length_cons, Nat.mul_add, Nat.mul_one]
      omega
    have hwritten : Ensures (ciphertextCallback sha256 client stack chunk) writer log
        fun status writer' log' => WriteEnds sha256 client sessionAuthKey (before + size) status
          writer' (Progress.of sha256 client log') := by
      rw [← hchunk]
      exact ⟨writeCiphertext_progress stack chunk (by omega) h⟩
    refine hwritten.bind fun status writer' log' hended => ?_
    split
    · rename_i hfailed
      exact .pure ⟨⟨fun hok => absurd hok (by simp), fun _ => hended.failed hfailed⟩, fun _ => rfl⟩
    · rename_i hok
      rw [hsum] at hcount ⊢
      exact ih (fun chunk hmem => hsize chunk (List.mem_cons_of_mem _ hmem)) hcount _ _
        (hended.sent (not_not.mp hok))

theorem writeCompressedU_upTo (polynomial : Polynomial) {before : Nat} (hcount : before + 320 ≤ 768) :
    WritesUpTo sha256 client sessionAuthKey before (before + 320)
      (writeCompressedU (ciphertextCallback sha256 client stack) polynomial) := by
  refine writeEach_upTo 5 ((List.range 64).map (packU polynomial)) (fun chunk hmem => ?_)
    hcount
  obtain ⟨block, -, rfl⟩ := List.mem_map.mp hmem
  rfl

theorem writeCompressedV_upTo (polynomial : Polynomial) (message : Bytes) {before : Nat}
    (hcount : before + 128 ≤ 768) :
    WritesUpTo sha256 client sessionAuthKey before (before + 128)
      (writeCompressedV (ciphertextCallback sha256 client stack) polynomial message) := by
  refine writeEach_upTo 1 ((List.range 128).map (packV polynomial message))
    (fun chunk hmem => ?_) hcount
  obtain ⟨block, -, rfl⟩ := List.mem_map.mp hmem
  rfl

theorem writeRows_upTo (hashes : Hashes) (zetaData : Nat → Int16) (rho coins : Bytes) :
    WritesUpTo sha256 client sessionAuthKey 0 640
      (writeRows hashes (ciphertextCallback sha256 client stack) zetaData rho coins [0, 1]) := by
  have hrow {before : Nat} (polynomial : Polynomial) (hcount : before + 320 ≤ 768) :
      WritesUpTo sha256 client sessionAuthKey before (before + 320)
        (writeCompressedU (ciphertextCallback sha256 client stack) polynomial) :=
    writeCompressedU_upTo polynomial hcount
  have hfirst : WritesUpTo sha256 client sessionAuthKey 0 320 _ :=
    hrow (rowPolynomial hashes zetaData rho coins 0) (by omega)
  have hsecond : WritesUpTo sha256 client sessionAuthKey 320 640 _ :=
    hrow (rowPolynomial hashes zetaData rho coins 1) (by omega)
  simp only [writeRows]
  exact hfirst.ite_bind (hsecond.ite_bind .done)

variable (sha256 client sessionAuthKey) in
/-- How the encapsulation of a connect ends. -/
def EncapsulationEnds (result : Except Status (Block 32)) (writer : CiphertextWriter)
    (progress : Progress) : Prop :=
  match result with
  | .ok _ => FragmentsSent sha256 client sessionAuthKey 768 writer progress
  | .error failure => ConnectFails sha256 client progress failure

theorem encapsulateDerand_progress (hashes : Hashes) (zetaData : Nat → Int16)
    (randomness : Block 32) {writer : CiphertextWriter}
    (h : FragmentsSent sha256 client sessionAuthKey 0 writer (Progress.of sha256 client log)) :
    Ensures (encapsulateDerand hashes readPublicKey (ciphertextCallback sha256 client stack) zetaData
      randomness) writer log fun result writer' log' =>
        EncapsulationEnds sha256 client sessionAuthKey result writer'
          (Progress.of sha256 client log') := by
  refine (validateAndHashPublicKey_keepsSent hashes 0 writer log h).bind ?_
  intro validated writer1 log1 hvalidated
  cases validated with
  | error failure =>
    rw [hvalidated.2 failure rfl]
    exact .pure (.before hvalidated.1.passed (by simp) (by simp))
  | ok validated =>
    obtain ⟨publicKeyHash, rho⟩ := validated
    refine (writeRows_upTo hashes zetaData rho _ writer1 log1 hvalidated.1).bind ?_
    intro status writer2 log2 hwritten
    split
    · rename_i hfailed
      rw [hwritten.2 hfailed]
      exact .pure (hwritten.1.failed hfailed)
    rename_i hok
    refine (readKeyBytes_keepsSent 640 0 384 _ _ (hwritten.1.sent (not_not.mp hok))).bind ?_
    intro encoded0 writer3 log3 hread3
    refine (readKeyBytes_keepsSent 640 384 384 _ _ hread3.1).bind ?_
    intro encoded1 writer4 log4 hread4
    refine (writeCompressedV_upTo _ _ (by omega) _ _ hread4.1).bind ?_
    intro status' writer5 log5 hwritten5
    split
    · rename_i hfailed
      rw [hwritten5.2 hfailed]
      exact .pure (hwritten5.1.failed hfailed)
    · rename_i hok'
      exact .pure (hwritten5.1.sent (not_not.mp hok'))

theorem encapsulate_progress (stack : FrameBuffer) (hashes : Hashes) (zetaData : Nat → Int16)
    {writer : CiphertextWriter}
    (h : FragmentsSent sha256 client sessionAuthKey 0 writer (Progress.of sha256 client log)) :
    Ensures (encapsulate hashes readPublicKey (ciphertextCallback sha256 client stack) zetaData
      encapsulationRandom) writer log fun result writer' log' =>
        EncapsulationEnds sha256 client sessionAuthKey result writer'
          (Progress.of sha256 client log') := by
  have hrandom : Ensures encapsulationRandom writer log fun _ writer' log' =>
      FragmentsSent sha256 client sessionAuthKey 0 writer' (Progress.of sha256 client log') := by
    refine ⟨?_⟩
    rintro reply log' rfl
    exact h
  refine hrandom.bind fun random writer' log' hsent => ?_
  obtain ⟨status, randomness⟩ := random
  dsimp only
  split
  · exact .pure (.before hsent.passed (by simp) (by simp))
  · exact encapsulateDerand_progress hashes zetaData randomness hsent

end

/-! ## The handshake -/

theorem fragmentsSent_newWriter {challenge : Challenge} {last : Option (Awaited × Bytes)}
    (transcript : Transcript)
    (hlog : Progress.of sha256 client log
      = ⟨.ack (challengeAuthKey sha256 client.config.psk challenge) 0, 0, last⟩)
    (hpassed : (Progress.of sha256 client log).Passed sha256 client) :
    FragmentsSent sha256 client (challengeAuthKey sha256 client.config.psk challenge) 0
      (newWriter sha256 client challenge transcript) (Progress.of sha256 client log) where
  failure := rfl
  sessionAuthKey_eq := rfl
  awaited := congrArg Progress.awaited hlog
  attempts := congrArg Progress.attempts hlog
  passed := hpassed
  count_eq := rfl
  pending_lt := Nat.zero_lt_succ 47
  count_le := Nat.zero_le 768

/-- All fragments of a complete ciphertext are acknowledged. -/
theorem FragmentsSent.complete {sessionAuthKey : Block 32} {writer : CiphertextWriter}
    {progress : Progress} (h : FragmentsSent sha256 client sessionAuthKey 768 writer progress) :
    writer.fragmentIndex = fragmentCount ∧ writer.pending.length = 0 := by
  have hcount := h.count_eq
  have hpending := h.pending_lt
  refine ⟨UInt8.toNat_inj.mp ?_, by omega⟩
  show writer.fragmentIndex.toNat = 16
  omega

theorem ConnectFails.ne_ok {progress : Progress} {failure : Status}
    (h : ConnectFails sha256 client progress failure) : failure ≠ .ok := by
  cases h with
  | retries hattempts hpassed => simp
  | challenge hlast hok hio hauth => exact hok
  | ack hrejected hattempts => simp
  | finished hlast hok hio hauth => exact hok
  | before hpassed hok hio => exact hok

variable (sha256 client) in
/-- How a handshake ends, by its status and its progress. -/
def HandshakeEnds (status : Status) (progress : Progress) : Prop :=
  if status = .ok then ∃ frame, progress.last = some (.finished, frame)
  else ConnectFails sha256 client progress status

theorem ConnectFails.ends {progress : Progress} {failure : Status}
    (h : ConnectFails sha256 client progress failure) :
    HandshakeEnds sha256 client failure progress := by
  rw [HandshakeEnds, if_neg h.ne_ok]
  exact h

theorem sendCiphertext_progress (hashes : Hashes) (zetaData : Nat → Int16)
    {challenge : Challenge} {last : Option (Awaited × Bytes)} (transcript : Transcript)
    (stack : FrameBuffer)
    (hlog : Progress.of sha256 client log
      = ⟨.ack (challengeAuthKey sha256 client.config.psk challenge) 0, 0, last⟩)
    (hpassed : (Progress.of sha256 client log).Passed sha256 client) :
    (sendCiphertext sha256 hashes zetaData client challenge transcript stack).wp logStep
      (fun result log' =>
        match result with
        | .error failure => ConnectFails sha256 client (Progress.of sha256 client log') failure
        | .ok _ => (∃ last, Progress.of sha256 client log' = ⟨.finished, 0, last⟩)
            ∧ (Progress.of sha256 client log').Passed sha256 client) log := by
  unfold sendCiphertext
  rw [Program.wp_bind]
  refine Program.wp_mono (fun outcome log' hended => ?_)
    (encapsulate_progress stack hashes zetaData
      (fragmentsSent_newWriter transcript hlog hpassed)).wp
  obtain ⟨encapsulated, writer⟩ := outcome
  cases encapsulated with
  | error failure =>
    have hfails : ConnectFails sha256 client (Progress.of sha256 client log') failure := hended
    simp only [flushPending, pure_bind, if_pos hfails.ne_ok]
    exact hfails
  | ok sharedSecret =>
    have hsent : FragmentsSent sha256 client _ 768 writer (Progress.of sha256 client log') := hended
    obtain ⟨hindex, hpending⟩ := hsent.complete
    have hcomplete : ¬ (writer.fragmentIndex ≠ fragmentCount ∨ writer.failure ≠ .ok) := by
      rintro (hne | hne)
      · exact hne hindex
      · exact hne hsent.failure
    simp only [flushPending, hpending, ne_eq, not_true, if_false, pure_bind]
    rw [if_neg hcomplete]
    refine ⟨⟨_, Progress.eq_of ?_ hsent.attempts⟩, hsent.passed⟩
    rw [hsent.awaited, hindex]
    rfl

theorem checkFinished_error {serverFinishedKey : Block 32} {sessionId : UInt32}
    {transcriptHash : Block 32} {frame : Bytes}
    (h : checkFinished sha256 serverFinishedKey sessionId transcriptHash frame ≠ .ok) :
    checkFinished sha256 serverFinishedKey sessionId transcriptHash frame ≠ .errIo ∧
      (FinishedExpected frame →
        checkFinished sha256 serverFinishedKey sessionId transcriptHash frame = .errAuth) := by
  unfold checkFinished at h ⊢
  split
  · rename_i hheader
    refine ⟨by simp, fun hexpected => ?_⟩
    obtain ⟨header, hok, -⟩ := hexpected
    rw [hheader] at hok
    cases hok
  rename_i header hheader
  rw [hheader] at h
  simp only at h
  split
  · rename_i hshape
    refine ⟨by simp, fun hexpected => ?_⟩
    obtain ⟨header', hok, hflags, hpayload⟩ := hexpected
    cases hheader.symm.trans hok
    rcases hshape with hne | hne
    · exact absurd hflags hne
    · exact absurd hpayload hne
  rename_i hshape
  rw [if_neg hshape] at h
  split
  · rename_i htag
    exact absurd (if_pos htag) h
  · exact ⟨by simp, fun _ => rfl⟩

theorem exchangeFinished_progress (keys : SessionKeys) (transcriptHash : Block 32)
    (stack : FrameBuffer) {last : Option (Awaited × Bytes)}
    (hlog : Progress.of sha256 client log = ⟨.finished, 0, last⟩)
    (hpassed : (Progress.of sha256 client log).Passed sha256 client) :
    (exchangeFinished sha256 client keys transcriptHash stack).wp logStep
      (fun status log' => HandshakeEnds sha256 client status (Progress.of sha256 client log'))
      log := by
  unfold exchangeFinished
  simp only
  rw [Program.wp_bind]
  refine Program.wp_mono (fun outcome log' hended => ?_)
    (sendAndReceive_progress .finished 26 _ hlog)
  obtain ⟨result, buffer⟩ := outcome
  rcases hended with ⟨hresult, hprogress⟩ | ⟨hresult, hprogress⟩
  · simp only at hresult hprogress
    subst hresult
    rw [if_neg (by simp)]
    have hlast := congrArg Progress.last hprogress
    rw [Program.wp_pure, HandshakeEnds]
    split
    · exact ⟨_, hlast⟩
    · rename_i hfailed
      obtain ⟨hio, hauth⟩ := checkFinished_error hfailed
      exact .finished hlast hfailed hio hauth
  · simp only at hresult hprogress
    subst hresult
    rw [if_pos (by simp), Program.wp_pure]
    refine ConnectFails.ends (.retries ?_ ?_)
    · rw [hprogress]
      rfl
    · rw [hlog] at hpassed
      rw [hprogress]
      exact hpassed

theorem handshake_progress (hashes : Hashes) (zetaData : Nat → Int16) (deviceNonce : Block 16)
    (stack : FrameBuffer) (hlog : Progress.of sha256 client log = Progress.start) :
    (handshake sha256 hashes zetaData client deviceNonce stack).wp logStep
      (fun result log' => HandshakeEnds sha256 client (statusOf result)
        (Progress.of sha256 client log')) log := by
  unfold handshake
  rw [Program.wp_bind]
  refine Program.wp_mono (fun requested log1 hrequested => ?_)
    (requestChallenge_progress deviceNonce stack hlog)
  cases requested with
  | error failure => exact ConnectFails.ends hrequested
  | ok requested =>
    obtain ⟨challenge, transcript⟩ := requested
    obtain ⟨⟨last, hprogress⟩, hpassed⟩ : (∃ last, Progress.of sha256 client log1
          = ⟨.ack (challengeAuthKey sha256 client.config.psk challenge) 0, 0, last⟩)
        ∧ (Progress.of sha256 client log1).Passed sha256 client := by
      obtain ⟨last, hprogress, hpassed⟩ := hrequested
      exact ⟨⟨last, hprogress⟩, hpassed⟩
    simp only [Program.wp_bind]
    refine Program.wp_mono (fun sent log2 hsent => ?_)
      (sendCiphertext_progress hashes zetaData transcript stack hprogress hpassed)
    cases sent with
    | error failure => exact ConnectFails.ends hsent
    | ok sent =>
      obtain ⟨sharedSecret, transcriptHash⟩ := sent
      obtain ⟨⟨last2, hprogress2⟩, hpassed2⟩ := hsent
      obtain ⟨keys, hkeys⟩ : ∃ keys, deriveSessionKeys sha256 client.config.psk sharedSecret
          transcriptHash = .ok keys := ⟨_, deriveSessionKeys_eq ..⟩
      simp only [hkeys, Program.wp_bind]
      refine Program.wp_mono (fun status log3 hfinished => ?_)
        (exchangeFinished_progress keys transcriptHash stack hprogress2 hpassed2)
      split
      · exact hfinished
      · exact hfinished

/-! ## The reports -/

variable (sha256 client) in
/-- A tag that does not verify is reported as such, and a failure of the transport is one. -/
structure FailuresReported (status : Status) (progress : Progress) : Prop where
  tag : progress.TagRejected sha256 client status → status = .errAuth
  transport : status = .errIo → progress.OutOfRetries client

theorem not_reported_of_errIo {status : Status} {progress : Progress}
    (hrejected : progress.TagRejected sha256 client status) (hstatus : status = .errIo) :
    ¬ FailuresReported sha256 client status progress := by
  intro h
  have hauth := h.tag hrejected
  rw [hstatus] at hauth
  cases hauth

theorem ackTagVerifies_of_checkAck {sessionAuthKey : Block 32} {index : UInt8} {frame : Bytes}
    (h : checkAck sha256 sessionAuthKey index frame = .ok) :
    AckTagVerifies sha256 sessionAuthKey frame := by
  unfold checkAck at h
  split at h
  · cases h
  split at h
  · cases h
  · exact h

theorem Progress.Passed.not_rejected {progress : Progress} (h : progress.Passed sha256 client)
    (status : Status) :
    ¬ progress.TagRejected sha256 client status ∧ ¬ progress.AckRejected sha256 := by
  obtain ⟨awaited, attempts, last⟩ := progress
  rcases last with - | ⟨accepted, frame⟩
  · refine ⟨id, fun ⟨_, _, _, hlast, _⟩ => ?_⟩
    cases hlast
  cases accepted with
  | challenge =>
    refine ⟨fun hrejected => hrejected.2 h, fun ⟨_, _, _, hlast, _⟩ => ?_⟩
    cases hlast
  | ack sessionAuthKey index =>
    refine ⟨fun hrejected => hrejected.2 (ackTagVerifies_of_checkAck h), ?_⟩
    rintro ⟨_, _, _, hlast, hrejected⟩
    cases hlast
    exact hrejected h
  | finished => exact absurd h id

theorem HandshakeEnds.reported_iff {status : Status} {progress : Progress}
    (h : HandshakeEnds sha256 client status progress) :
    FailuresReported sha256 client status progress ↔ ¬ progress.AckRejected sha256 := by
  have hack {accepted : Awaited} {frame : Bytes} (hlast : progress.last = some (accepted, frame))
      (hother : ∀ sessionAuthKey index, accepted ≠ .ack sessionAuthKey index) :
      ¬ progress.AckRejected sha256 := by
    rintro ⟨sessionAuthKey, index, _, hlast', -⟩
    cases hlast.symm.trans hlast'
    exact hother _ _ rfl
  unfold HandshakeEnds at h
  split at h
  · rename_i hok
    obtain ⟨frame, hlast⟩ := h
    refine iff_of_true ⟨fun hrejected => ?_, fun hio => ?_⟩ (hack hlast (by simp))
    · rw [Progress.TagRejected, hlast] at hrejected
      exact absurd hok hrejected.2
    · rw [hok] at hio
      cases hio
  cases h with
  | retries hattempts hpassed =>
    have hnot := hpassed.not_rejected .errIo
    exact iff_of_true ⟨fun hrejected => absurd hrejected hnot.1, fun _ => hattempts⟩ hnot.2
  | challenge hlast hok hio hauth =>
    refine iff_of_true ⟨fun hrejected => ?_, fun heq => absurd heq hio⟩ (hack hlast (by simp))
    rw [Progress.TagRejected, hlast] at hrejected
    exact hauth hrejected.1
  | ack hrejected hattempts =>
    refine iff_of_false (fun hreported => ?_) (not_not.mpr hrejected)
    have hout : progress.attempts = client.config.maximumRetries.toNat + 1 := hreported.transport rfl
    omega
  | finished hlast hok hio hauth =>
    refine iff_of_true ⟨fun hrejected => ?_, fun heq => absurd heq hio⟩ (hack hlast (by simp))
    rw [Progress.TagRejected, hlast] at hrejected
    exact hauth hrejected.1
  | before hpassed hok hio =>
    have hnot := hpassed.not_rejected status
    exact iff_of_true ⟨fun hrejected => absurd hrejected hnot.1, fun heq => absurd heq hio⟩ hnot.2

variable (sha256) (hashes : Hashes) (zetaData : Nat → Int16)

/-- The client in the callbacks of a connect with these answers. -/
def connectingClient (client : Client) (answers : Answers) : Client :=
  client.connecting (answers (.randomBytes 16) []).2

def connectProgress (client : Client) (workspace : Workspace) (stack : FrameBuffer)
    (answers : Answers) : Progress :=
  Progress.of sha256 (connectingClient client answers)
    (connectRun sha256 hashes zetaData client workspace stack answers).2

theorem connectRun_ends (client : Client) (workspace : Workspace) (stack : FrameBuffer)
    (answers : Answers) (hready : client.state = .ready) :
    HandshakeEnds sha256 (connectingClient client answers)
      (connectRun sha256 hashes zetaData client workspace stack answers).1.status
      (connectProgress sha256 hashes zetaData client workspace stack answers) := by
  have hwp : (connect sha256 hashes zetaData client workspace stack).wp
      (fun call log reply log' => (answers call log, CallRecord.mk call (answers call log) :: log)
        = (reply, log'))
      (fun result log => HandshakeEnds sha256 (connectingClient client answers) result.status
        (Progress.of sha256 (connectingClient client answers) log)) [] := by
    unfold connect
    rw [if_neg (not_not.mpr hready)]
    simp only [Program.wp_bind, Program.wp_perform]
    rintro ⟨status, deviceNonce⟩ log hfirst
    obtain ⟨hreply, hfirst⟩ := Prod.mk.inj hfirst
    have hnonce : (answers (.randomBytes 16) []).2 = deviceNonce := congrArg Prod.snd hreply
    have hlog : Progress.of sha256 (connectingClient client answers) log = Progress.start := by
      rw [← hfirst]
      rfl
    dsimp only
    split
    · refine ConnectFails.ends (.before ?_ (by simp) (by simp))
      rw [hlog]
      trivial
    · rw [Program.wp_bind, ← hnonce]
      refine Program.wp_mono (fun result log' hended => ?_) (Program.wp_of_step ?_
        (handshake_progress hashes zetaData _ stack hlog))
      · cases result with
        | error failure => exact hended
        | ok keys => exact hended
      · intro call log reply log' hstep
        obtain ⟨hreply, hlog'⟩ := Prod.mk.inj hstep
        rw [logStep, ← hreply, ← hlog']
  exact Program.wp_run.mp hwp

/-- A connect reports its failures as documented unless the exchange of a fragment ends with a
frame that fails the checks of an acknowledgment. -/
theorem failuresReported_iff (client : Client) (workspace : Workspace) (stack : FrameBuffer)
    (answers : Answers) :
    FailuresReported sha256 (connectingClient client answers)
        (connectRun sha256 hashes zetaData client workspace stack answers).1.status
        (connectProgress sha256 hashes zetaData client workspace stack answers)
      ↔ ¬ (connectProgress sha256 hashes zetaData client workspace stack answers).AckRejected
          sha256 := by
  by_cases hready : client.state = .ready
  · exact (connectRun_ends sha256 hashes zetaData client workspace stack answers hready).reported_iff
  · have hrun : connectRun sha256 hashes zetaData client workspace stack answers
        = (⟨.errState, client, workspace⟩, []) := by
      rw [connectRun, connect, if_pos hready]
      rfl
    rw [connectProgress, hrun]
    refine iff_of_true ⟨fun hrejected => absurd hrejected id, fun hio => ?_⟩ ?_
    · cases hio
    · rintro ⟨_, _, _, hlast, -⟩
      cases hlast

/-! A peer that acknowledges the first fragment with a wrong tag. -/

def refusedClient : Client := { retryClient with state := .ready }

def refusedChallenge : Received where
  status := 0
  buffer := FrameBuffer.write (Block.zero 96)
    (challengeFrame zeroDigest 0xc0505101
      ⟨1, 0, retryClient.config.publicKeyId, Block.zero 16, Block.zero 16⟩
      retryClient.config.psk).val
  length := 84

def refusedAckFrame : Bytes :=
  headerBytes frameCiphertextAck 0 18 0xc0505101 ++ [0, 0] ++ List.replicate 16 1

def refusedAck : Received where
  status := 0
  buffer := FrameBuffer.write (Block.zero 96) refusedAckFrame
  length := 28

def refusedAnswers : Answers
  | .randomBytes length, _ => (0, Block.zero length)
  | .readPublicKey _, _ => 0
  | .sendFrame _, _ => 0
  | .receiveFrame _, log => if log.length = 2 then refusedChallenge else refusedAck

@[irreducible] def refusedStatus : Status :=
  (connectRun zeroDigest demoHashes loadZeta refusedClient (Block.zero 1344) (Block.zero 96)
    refusedAnswers).1.status

@[irreducible] def refusedProgress : Progress :=
  connectProgress zeroDigest demoHashes loadZeta refusedClient (Block.zero 1344) (Block.zero 96)
    refusedAnswers

theorem refusedAck_errIo :
    refusedProgress.TagRejected zeroDigest (connectingClient refusedClient refusedAnswers)
        refusedStatus
      ∧ refusedStatus = .errIo
      ∧ ¬ FailuresReported zeroDigest (connectingClient refusedClient refusedAnswers)
          refusedStatus refusedProgress := by
  have hstatus : refusedStatus = .errIo := by decide +kernel
  have hlast : refusedProgress.last = some (.ack (Block.zero 32) 0, refusedAckFrame) := by
    decide +kernel
  have hrejected : refusedProgress.TagRejected zeroDigest
      (connectingClient refusedClient refusedAnswers) refusedStatus := by
    rw [Progress.TagRejected, hlast]
    refine ⟨⟨rfl, rfl, ⟨frameCiphertextAck, 0, 18, 0xc0505101⟩, by decide +kernel, rfl, rfl⟩, ?_⟩
    unfold AckTagVerifies
    decide +kernel
  exact ⟨hrejected, hstatus, not_reported_of_errIo hrejected hstatus⟩

end C0PQLink
