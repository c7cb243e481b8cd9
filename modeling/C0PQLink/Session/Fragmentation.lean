import C0PQLink.Foundation.Blocks
import C0PQLink.Session.CallLog
import C0PQLink.Session.Connect
import C0PQLink.Session.Exchange

/-!
# The ciphertext in fragments

Any sequence of calls of `write_ciphertext` on one writer, with any answers of the
callbacks. The calls may cut the ciphertext in any way: what is sent is its blocks of 48
bytes, and the first flush that fails ends the sending.

* `exchangeAttempts_calls`: the first frame that the transport takes in an exchange is the
  one that the exchange was started with.
* `writeCiphertext_ends`: what one more call sends, from what was written before.
* `writeAll_ends`: what a sequence of calls sends.
* `Fragmented.frame`: what a fragment that was sent holds, read out of its frame.
-/

namespace C0PQLink

open Foundation

variable (sha256 : Bytes → Block 32)

/-! ## The calls of an exchange -/

/-- A frame that the transport took. -/
def CallRecord.delivered (record : CallRecord) : Option Bytes :=
  match record with
  | ⟨.sendFrame frame, status⟩ => if status = 0 then some frame else none
  | _ => none

/-- A call of `send_frame`. -/
def CallRecord.isSend (record : CallRecord) : Bool :=
  match record.call with
  | .sendFrame _ => true
  | _ => false

/-- A call of `receive_frame`. -/
def CallRecord.isReceive (record : CallRecord) : Bool :=
  match record.call with
  | .receiveFrame _ => true
  | _ => false

/-- The calls of an exchange of `frame`, in their order. -/
structure ExchangeCalls (attempts : Nat) (frame : Bytes) (calls : List CallRecord) : Prop where
  transport : ∀ record ∈ calls, record.isSend = true ∨ record.isReceive = true
  attempts_le : calls.countP CallRecord.isSend ≤ attempts
  first_delivered : ∀ sent ∈ (calls.filterMap CallRecord.delivered).head?, sent = frame

/-- The calls of an exchange that has the acknowledgment of fragment `index`. -/
structure AcknowledgedExchange (client : Client) (sessionAuthKey : Block 32) (index : UInt8)
    (payload : Bytes) (calls : List CallRecord) : Prop where
  exchange : ExchangeCalls (client.config.maximumRetries.toNat + 1)
    (fragmentFrame sha256 sessionAuthKey client.sessionId index payload) calls
  delivered : (calls.filterMap CallRecord.delivered).head?
    = some (fragmentFrame sha256 sessionAuthKey client.sessionId index payload)
  acknowledged : ∃ record ∈ calls, record.IsAck sha256 sessionAuthKey client.sessionId index

/-- How the calls of an exchange decide its outcome. -/
structure ExchangeOutcome (sessionId : UInt32) (expectedType : UInt8) (expectedLength : Nat)
    (frame : Bytes) (calls : List CallRecord) (outcome : Status × FrameBuffer) : Prop where
  answered : outcome.1 = .ok → ∃ record ∈ calls, ∃ received, record.received = some received ∧
    received.accepted sessionId expectedType expectedLength = true ∧ outcome.2 = received.buffer
  delivered : outcome.1 = .ok → (calls.filterMap CallRecord.delivered).head? = some frame

theorem ExchangeCalls.nil (attempts : Nat) (frame : Bytes) : ExchangeCalls attempts frame [] where
  transport := nofun
  attempts_le := Nat.zero_le _
  first_delivered := nofun

section

variable {attempts : Nat} {frame : Bytes} {calls : List CallRecord}

/-- An attempt whose frame was refused comes before the others. -/
theorem ExchangeCalls.refused (h : ExchangeCalls attempts frame calls) {status : Int}
    (hrefused : status ≠ 0) :
    ExchangeCalls (attempts + 1) frame (⟨.sendFrame frame, status⟩ :: calls) where
  transport := by
    intro record hmem
    rcases List.mem_cons.mp hmem with rfl | hmem
    · exact .inl rfl
    · exact h.transport record hmem
  attempts_le := by
    have hle := h.attempts_le
    simp only [List.countP_cons, CallRecord.isSend, if_true]
    omega
  first_delivered := by
    have hnone : CallRecord.delivered ⟨.sendFrame frame, status⟩ = none := if_neg hrefused
    rw [List.filterMap_cons_none hnone]
    exact h.first_delivered

/-- An attempt whose frame was taken comes before the others, whatever these send. -/
theorem ExchangeCalls.taken {frame' : Bytes} (h : ExchangeCalls attempts frame' calls)
    (buffer : FrameBuffer) (received : Received) :
    ExchangeCalls (attempts + 1) frame
      (⟨.sendFrame frame, (0 : Int)⟩ :: ⟨.receiveFrame buffer, received⟩ :: calls) where
  transport := by
    intro record hmem
    rcases List.mem_cons.mp hmem with rfl | hmem
    · exact .inl rfl
    · rcases List.mem_cons.mp hmem with rfl | hmem
      · exact .inr rfl
      · exact h.transport record hmem
  attempts_le := by
    have hle := h.attempts_le
    simp only [List.countP_cons, CallRecord.isSend, if_true]
    simp only [Bool.false_eq_true, if_false]
    omega
  first_delivered := by
    have hsome : CallRecord.delivered ⟨.sendFrame frame, (0 : Int)⟩ = some frame := rfl
    rw [List.filterMap_cons_some hsome]
    intro sent hmem
    exact (Option.some.inj hmem).symm

theorem head_delivered_taken (frame : Bytes) (calls : List CallRecord) :
    ((⟨.sendFrame frame, (0 : Int)⟩ :: calls : List CallRecord).filterMap
      CallRecord.delivered).head? = some frame := by
  have hsome : CallRecord.delivered ⟨.sendFrame frame, (0 : Int)⟩ = some frame := rfl
  rw [List.filterMap_cons_some hsome]
  rfl

end

theorem exchangeAttempts_calls (sessionId : UInt32) (outgoingLength : Nat) (expectedType : UInt8)
    (expectedLength attempts : Nat) (buffer : FrameBuffer) (log : List CallRecord) :
    (exchangeAttempts sessionId outgoingLength expectedType expectedLength attempts buffer).wp
      logStep (fun outcome log' => ∃ calls, log' = calls.reverse ++ log ∧
        ExchangeCalls attempts (buffer.val.take outgoingLength) calls ∧
        ExchangeOutcome sessionId expectedType expectedLength (buffer.val.take outgoingLength)
          calls outcome) log := by
  induction attempts generalizing buffer log with
  | zero => exact ⟨[], rfl, .nil _ _, nofun, nofun⟩
  | succ attempts ih =>
    simp only [exchangeAttempts, sendFrame, receiveFrame, Program.wp_bind, Program.wp_perform]
    rintro sent log1 rfl
    split
    · rename_i hrefused
      refine Program.wp_mono (fun outcome log' hcalls => ?_) (ih buffer _)
      obtain ⟨calls, rfl, hexchange, houtcome⟩ := hcalls
      refine ⟨_ :: calls, by simp, hexchange.refused hrefused, fun hok => ?_, fun hok => ?_⟩
      · obtain ⟨record, hmem, hanswer⟩ := houtcome.answered hok
        exact ⟨record, List.mem_cons_of_mem _ hmem, hanswer⟩
      · have hnone : CallRecord.delivered ⟨.sendFrame (buffer.val.take outgoingLength), sent⟩
            = none := if_neg hrefused
        rw [List.filterMap_cons_none hnone]
        exact houtcome.delivered hok
    · rename_i htaken
      obtain rfl : sent = 0 := not_not.mp htaken
      simp only [Program.wp_bind, Program.wp_perform]
      rintro received log2 rfl
      split
      · rename_i haccepted
        refine ⟨[_, ⟨.receiveFrame buffer, received⟩], rfl, (ExchangeCalls.nil attempts
          (buffer.val.take outgoingLength)).taken buffer received, fun _ => ?_, fun _ => ?_⟩
        · exact ⟨⟨.receiveFrame buffer, received⟩, by simp, received, rfl, haccepted, rfl⟩
        · exact head_delivered_taken _ _
      · refine Program.wp_mono (fun outcome log' hcalls => ?_) (ih received.buffer _)
        obtain ⟨calls, rfl, hexchange, houtcome⟩ := hcalls
        refine ⟨_ :: _ :: calls, by simp, hexchange.taken buffer received, fun hok => ?_,
          fun _ => head_delivered_taken _ _⟩
        obtain ⟨record, hmem, hanswer⟩ := houtcome.answered hok
        exact ⟨record, List.mem_cons_of_mem _ (List.mem_cons_of_mem _ hmem), hanswer⟩

/-! ## One flush -/

/-- The acknowledged exchanges of the fragments with these payloads, after the calls `start`. -/
def FragmentsExchanged (client : Client) (sessionAuthKey : Block 32) (start : List CallRecord)
    (payloads : List Bytes) (log : List CallRecord) : Prop :=
  ∃ exchanges : List (List CallRecord), exchanges.length = payloads.length ∧
    log = exchanges.flatten.reverse ++ start ∧
    ∀ i payload calls, payloads[i]? = some payload → exchanges[i]? = some calls →
      AcknowledgedExchange sha256 client sessionAuthKey (UInt8.ofNat i) payload calls

/-- A flush that failed: there was no seventeenth fragment to send, or the exchange of the
fragment failed. -/
def FlushFails (client : Client) (sessionAuthKey : Block 32) (index : Nat) (payload : Bytes)
    (failure : Status) (log log' : List CallRecord) : Prop :=
  (index = 16 ∧ failure = .errState ∧ log' = log) ∨
    (index < 16 ∧ failure ≠ .ok ∧ ∃ calls, log' = calls.reverse ++ log ∧
      ExchangeCalls (client.config.maximumRetries.toNat + 1)
        (fragmentFrame sha256 sessionAuthKey client.sessionId (UInt8.ofNat index) payload) calls)

section

variable {sha256} {client : Client} {sessionAuthKey : Block 32} {start log : List CallRecord}
  {payloads : List Bytes}

theorem FragmentsExchanged.nil : FragmentsExchanged sha256 client sessionAuthKey start [] start :=
  ⟨[], rfl, rfl, nofun⟩

theorem FragmentsExchanged.append
    (h : FragmentsExchanged sha256 client sessionAuthKey start payloads log) {payload : Bytes}
    {calls : List CallRecord} (hcalls : AcknowledgedExchange sha256 client sessionAuthKey
      (UInt8.ofNat payloads.length) payload calls) :
    FragmentsExchanged sha256 client sessionAuthKey start (payloads ++ [payload])
      (calls.reverse ++ log) := by
  obtain ⟨exchanges, hlength, rfl, hexchanges⟩ := h
  refine ⟨exchanges ++ [calls], by simp [hlength], by simp, fun i payload' calls' hp hc => ?_⟩
  by_cases hi : i < payloads.length
  · rw [List.getElem?_append_left hi] at hp
    rw [List.getElem?_append_left (by omega)] at hc
    exact hexchanges i payload' calls' hp hc
  · rw [List.getElem?_append_right (by omega)] at hp hc
    obtain ⟨hi', rfl⟩ := List.getElem?_eq_some_iff.mp hp
    have hlast : i = payloads.length := by
      rw [List.length_singleton] at hi'
      omega
    subst hlast
    simp only [hlength, Nat.sub_self, List.getElem?_cons_zero, Option.some.injEq] at hc
    subst hc
    simpa using hcalls

theorem flushCiphertextFragment_calls (writer : CiphertextWriter) (stack : FrameBuffer)
    (hpos : 0 < writer.pending.length) (hpending : writer.pending.length ≤ 48)
    (hindex : writer.fragmentIndex.toNat ≤ 16) :
    (flushCiphertextFragment sha256 client writer stack).wp logStep (fun outcome log' =>
      (outcome.1 = .ok ∧ writer.fragmentIndex.toNat < 16 ∧
        outcome.2 = { writer with fragmentIndex := writer.fragmentIndex + 1, pending := [] } ∧
        ∃ calls, log' = calls.reverse ++ log ∧ AcknowledgedExchange sha256 client
          writer.sessionAuthKey writer.fragmentIndex writer.pending calls) ∨
      (outcome.1 ≠ .ok ∧ outcome.2 = writer ∧
        FlushFails sha256 client writer.sessionAuthKey writer.fragmentIndex.toNat writer.pending
          outcome.1 log log')) log := by
  unfold flushCiphertextFragment
  have hofNat : UInt8.ofNat writer.fragmentIndex.toNat = writer.fragmentIndex := UInt8.ofNat_toNat
  split
  · rename_i hbounds
    have hcount : (16 : Nat) ≤ writer.fragmentIndex.toNat := by
      rcases hbounds with hempty | hbounds
      · omega
      · exact UInt8.le_iff_toNat_le.mp hbounds
    exact .inr ⟨nofun, rfl, .inl ⟨by omega, rfl, rfl⟩⟩
  rename_i hbounds
  simp only [not_or, UInt8.not_le] at hbounds
  have hlt : writer.fragmentIndex.toNat < 16 := UInt8.lt_iff_toNat_lt.mp hbounds.2
  have hframe : (fragmentFrame sha256 writer.sessionAuthKey client.sessionId
      writer.fragmentIndex writer.pending).length = _ :=
    length_fragmentFrame sha256 writer.sessionAuthKey hpending
  have htake : (stack.write (fragmentFrame sha256 writer.sessionAuthKey client.sessionId
      writer.fragmentIndex writer.pending)).val.take _ = _ := stack.take_write (by omega)
  have hexchange := exchangeAttempts_calls client.sessionId
    (fragmentFrame sha256 writer.sessionAuthKey client.sessionId writer.fragmentIndex
      writer.pending).length frameCiphertextAck 28 (client.config.maximumRetries.toNat + 1)
    (stack.write (fragmentFrame sha256 writer.sessionAuthKey client.sessionId
      writer.fragmentIndex writer.pending)) log
  rw [htake] at hexchange
  simp only [Program.wp_bind]
  refine Program.wp_mono (fun outcome log' hended => ?_) hexchange
  obtain ⟨result, buffer⟩ := outcome
  obtain ⟨calls, rfl, hcalls, houtcome⟩ := hended
  have hfails {failure : Status} (hfailure : failure ≠ .ok) :
      FlushFails sha256 client writer.sessionAuthKey writer.fragmentIndex.toNat writer.pending
        failure log (calls.reverse ++ log) := by
    refine .inr ⟨hlt, hfailure, calls, rfl, ?_⟩
    rw [hofNat]
    exact hcalls
  simp only
  split
  · rename_i hfailed
    exact .inr ⟨hfailed, rfl, hfails hfailed⟩
  rename_i hok
  have hok : result = .ok := not_not.mp hok
  obtain ⟨record, hmem, received, hrecord, haccepted, rfl⟩ := houtcome.answered hok
  split
  · rename_i hack
    exact .inl ⟨rfl, hlt, rfl, calls, rfl, hcalls, houtcome.delivered hok, record, hmem, received,
      hrecord, haccepted, hack⟩
  · rename_i failure hfailure
    exact .inr ⟨hfailure, rfl, hfails hfailure⟩

end

/-! ## One write -/

/-- The writer of a connect after `stream`, when no flush has failed. -/
structure Fragmented (client : Client) (sessionAuthKey : Block 32) (start : List CallRecord)
    (stream : Bytes) (writer : CiphertextWriter) (log : List CallRecord) : Prop where
  sessionAuthKey_eq : writer.sessionAuthKey = sessionAuthKey
  failure : writer.failure = .ok
  length_lt : stream.length < 816
  fragmentIndex_eq : writer.fragmentIndex.toNat = stream.length / 48
  pending_eq : writer.pending = unfinished 48 stream
  exchanged : FragmentsExchanged sha256 client sessionAuthKey start (fullBlocks 48 stream) log

/-- The writer after the flush of a full block of `stream` has failed. -/
structure Stopped (client : Client) (sessionAuthKey : Block 32) (start : List CallRecord)
    (stream : Bytes) (failure : Status) (writer : CiphertextWriter) (log : List CallRecord) :
    Prop where
  failure_eq : writer.failure = failure
  failure_ne : failure ≠ .ok
  flushed : ∃ payloads payload before, payloads ++ [payload] <+: fullBlocks 48 stream ∧
    FragmentsExchanged sha256 client sessionAuthKey start payloads before ∧
    FlushFails sha256 client sessionAuthKey payloads.length payload failure before log

/-- How a write ends that makes the bytes written `stream`. -/
def Written (client : Client) (sessionAuthKey : Block 32) (start : List CallRecord)
    (stream : Bytes) (status : Status) (writer : CiphertextWriter) (log : List CallRecord) :
    Prop :=
  (status = .ok ∧ Fragmented sha256 client sessionAuthKey start stream writer log) ∨
    Stopped sha256 client sessionAuthKey start stream status writer log

section

variable {sha256} {client : Client} {sessionAuthKey : Block 32} {start log : List CallRecord}
  {stream : Bytes} {writer : CiphertextWriter}

theorem Stopped.append {failure : Status}
    (h : Stopped sha256 client sessionAuthKey start stream failure writer log) (more : Bytes) :
    Stopped sha256 client sessionAuthKey start (stream ++ more) failure writer log := by
  obtain ⟨payloads, payload, before, hinitial, hsent⟩ := h.flushed
  exact ⟨h.failure_eq, h.failure_ne, payloads, payload, before,
    hinitial.trans (fullBlocks_initial 48 stream more), hsent⟩

theorem Fragmented.pending_lt
    (h : Fragmented sha256 client sessionAuthKey start stream writer log) :
    writer.pending.length < 48 := by
  rw [h.pending_eq]
  exact unfinished_lt (by omega) stream

theorem Fragmented.length_eq
    (h : Fragmented sha256 client sessionAuthKey start stream writer log) :
    stream.length = 48 * writer.fragmentIndex.toNat + writer.pending.length := by
  rw [h.fragmentIndex_eq, h.pending_eq, length_unfinished, Nat.div_add_mod]

/-- A piece that leaves the next fragment open. -/
theorem Fragmented.fill (h : Fragmented sha256 client sessionAuthKey start stream writer log)
    {piece : Bytes} (hpiece : writer.pending.length + piece.length < 48) :
    Fragmented sha256 client sessionAuthKey start (stream ++ piece)
      { writer with pending := writer.pending ++ piece } log := by
  have hlength := h.length_eq
  have hindex := h.fragmentIndex_eq
  have hlt := h.length_lt
  have hcut : fullBlocks 48 (stream ++ piece) = _ ∧ unfinished 48 (stream ++ piece) = _ :=
    fullBlocks_append_short (by rw [← h.pending_eq]; exact hpiece)
  refine ⟨h.sessionAuthKey_eq, h.failure, ?_, ?_, ?_, ?_⟩
  · rw [List.length_append]
    omega
  · rw [List.length_append]
    show writer.fragmentIndex.toNat = _
    omega
  · rw [hcut.2, ← h.pending_eq]
  · rw [hcut.1]
    exact h.exchanged

/-- The acknowledgment of the fragment that a piece completes. -/
theorem Fragmented.next (h : Fragmented sha256 client sessionAuthKey start stream writer log)
    {piece : Bytes} (hpiece : writer.pending.length + piece.length = 48)
    (hindex : writer.fragmentIndex.toNat < 16) {calls : List CallRecord}
    (hcalls : AcknowledgedExchange sha256 client writer.sessionAuthKey writer.fragmentIndex
      (writer.pending ++ piece) calls) :
    Fragmented sha256 client sessionAuthKey start (stream ++ piece)
      { writer with
        fragmentIndex := writer.fragmentIndex + 1
        pending := []
        failure := .ok } (calls.reverse ++ log) := by
  have hlength := h.length_eq
  have hcut : fullBlocks 48 (stream ++ piece) = _ ∧ unfinished 48 (stream ++ piece) = _ :=
    fullBlocks_append_full (by omega) (by rw [← h.pending_eq]; exact hpiece)
  have hsucc : (writer.fragmentIndex + 1).toNat = writer.fragmentIndex.toNat + 1 := by
    rw [UInt8.toNat_add]
    exact Nat.mod_eq_of_lt (by simp; omega)
  have hofNat : UInt8.ofNat (fullBlocks 48 stream).length = writer.fragmentIndex := by
    rw [length_fullBlocks, ← h.fragmentIndex_eq, UInt8.ofNat_toNat]
  refine ⟨h.sessionAuthKey_eq, rfl, ?_, ?_, hcut.2.symm, ?_⟩
  · rw [List.length_append]
    omega
  · rw [List.length_append]
    show (writer.fragmentIndex + 1).toNat = _
    omega
  · rw [hcut.1]
    refine h.exchanged.append ?_
    rw [hofNat, ← h.sessionAuthKey_eq, ← h.pending_eq]
    exact hcalls

/-- The failed flush of the fragment that a piece completes. -/
theorem Fragmented.stop (h : Fragmented sha256 client sessionAuthKey start stream writer log)
    {piece : Bytes} (hpiece : writer.pending.length + piece.length = 48) {failure : Status}
    {log' : List CallRecord} (hfailure : failure ≠ .ok)
    (hfails : FlushFails sha256 client writer.sessionAuthKey writer.fragmentIndex.toNat
      (writer.pending ++ piece) failure log log') :
    Stopped sha256 client sessionAuthKey start (stream ++ piece) failure
      { writer with
        pending := writer.pending ++ piece
        failure := failure } log' := by
  have hcut : fullBlocks 48 (stream ++ piece) = _ ∧ unfinished 48 (stream ++ piece) = _ :=
    fullBlocks_append_full (by omega) (by rw [← h.pending_eq]; exact hpiece)
  refine ⟨rfl, hfailure, fullBlocks 48 stream, writer.pending ++ piece, log, ?_, h.exchanged, ?_⟩
  · rw [hcut.1, ← h.pending_eq]
  · rw [length_fullBlocks, ← h.fragmentIndex_eq, ← h.sessionAuthKey_eq]
    exact hfails

/-- The loop takes the bytes in pieces that end at the boundaries of the fragments. -/
theorem writeLoop_ends (stack : FrameBuffer) (turns : Nat) (data : Bytes)
    (hturns : data.length ≤ turns)
    (h : Fragmented sha256 client sessionAuthKey start stream writer log) :
    (writeLoop sha256 client stack turns writer data).wp logStep (fun outcome log' =>
      outcome.2.transcript = writer.transcript ∧
        Written sha256 client sessionAuthKey start (stream ++ data) outcome.1 outcome.2 log')
      log := by
  have hdone (hempty : data.length = 0) :
      Written sha256 client sessionAuthKey start (stream ++ data) .ok writer log := by
    rw [List.eq_nil_of_length_eq_zero hempty, List.append_nil]
    exact .inl ⟨rfl, h⟩
  induction turns generalizing writer stream data log with
  | zero => exact ⟨rfl, hdone (by omega)⟩
  | succ turns ih =>
    unfold writeLoop
    split
    · rename_i hempty
      exact ⟨rfl, hdone hempty⟩
    rename_i hdata
    have hpending := h.pending_lt
    have hspace : (48 : Nat) - writer.pending.length = fragmentPayloadBytes - writer.pending.length :=
      rfl
    simp only [← hspace]
    obtain ⟨take, htake⟩ : ∃ take, take = min data.length (48 - writer.pending.length) := ⟨_, rfl⟩
    simp only [← htake]
    have hpiece : (data.take take).length = take := by
      rw [List.length_take]
      omega
    have hrest : (data.drop take).length = data.length - take := List.length_drop
    have hwhole : stream ++ data.take take ++ data.drop take = stream ++ data := by
      rw [List.append_assoc, List.take_append_drop]
    rw [← hwhole]
    split
    · rename_i hfull
      have hlength : (writer.pending ++ data.take take).length = 48 := hfull
      have hfull : writer.pending.length + (data.take take).length = 48 := by
        rw [← List.length_append]
        exact hfull
      have hindex : writer.fragmentIndex.toNat ≤ 16 := by
        have hlength := h.length_eq
        have hlt := h.length_lt
        omega
      rw [Program.wp_bind]
      refine Program.wp_mono (fun outcome log' hflushed => ?_)
        (flushCiphertextFragment_calls { writer with pending := writer.pending ++ data.take take }
          stack (by rw [hlength]; decide) hlength.le hindex)
      obtain ⟨failure, flushed⟩ := outcome
      rcases hflushed with ⟨rfl, hlt, rfl, calls, rfl, hcalls⟩ | ⟨hfailure, rfl, hfails⟩
      · rw [if_neg (by simp)]
        have hnext := h.next hfull hlt hcalls
        exact ih (data.drop take) (by omega) hnext fun hempty => by
          rw [List.eq_nil_of_length_eq_zero hempty, List.append_nil]
          exact .inl ⟨rfl, hnext⟩
      · rw [if_pos hfailure]
        exact ⟨rfl, .inr ((h.stop hfull hfailure hfails).append _)⟩
    · rename_i hopen
      have hopen : writer.pending.length + (data.take take).length < 48 := by
        have hne : writer.pending.length + (data.take take).length ≠ 48 := by
          rw [← List.length_append]
          exact hopen
        omega
      have hnext := h.fill hopen
      exact ih (data.drop take) (by omega) hnext fun hempty => by
        rw [List.eq_nil_of_length_eq_zero hempty, List.append_nil]
        exact .inl ⟨rfl, hnext⟩

theorem writeCiphertext_ends (stack : FrameBuffer) (data : Bytes)
    (h : Fragmented sha256 client sessionAuthKey start stream writer log) :
    (writeCiphertext sha256 client stack writer data).wp logStep (fun outcome log' =>
      outcome.2.transcript = writer.transcript ++ data ∧
        Written sha256 client sessionAuthKey start (stream ++ data) outcome.1 outcome.2 log')
      log := by
  unfold writeCiphertext
  rw [if_neg (not_not.mpr h.failure)]
  exact writeLoop_ends stack data.length data (Nat.le_refl _) { h with }

end

/-! ## A sequence of writes -/

/-- Calls of `write_ciphertext`, one for each chunk: their results, and the writer after
them. -/
def writeAll (client : Client) (stack : FrameBuffer) :
    CiphertextWriter → List Bytes → ClientProgram (List Status × CiphertextWriter)
  | writer, [] => return ([], writer)
  | writer, chunk :: chunks => do
    let (status, writer) ← writeCiphertext sha256 client stack writer chunk
    let (statuses, writer) ← writeAll client stack writer chunks
    return (status :: statuses, writer)

/-- The writer before the first byte of the ciphertext. -/
def emptyWriter (transcript : Transcript) (sessionAuthKey : Block 32) : CiphertextWriter where
  transcript := transcript
  sessionAuthKey := sessionAuthKey
  pending := []
  fragmentIndex := 0
  failure := .ok

/-- How the writes of `chunks` end that follow those of `stream`: all of them succeed, or
one of them and every later one return the failure of its flush. -/
def WritesEnd (client : Client) (sessionAuthKey : Block 32) (start : List CallRecord)
    (stream : Bytes) (transcript : Transcript) (chunks : List Bytes) (statuses : List Status)
    (writer : CiphertextWriter) (log : List CallRecord) : Prop :=
  (statuses = List.replicate chunks.length .ok ∧
    writer.transcript = transcript ++ chunks.flatten ∧
    Fragmented sha256 client sessionAuthKey start (stream ++ chunks.flatten) writer log) ∨
  ∃ before chunk after failure, chunks = before ++ chunk :: after ∧
    statuses = List.replicate before.length .ok ++ List.replicate (after.length + 1) failure ∧
    writer.transcript = transcript ++ (before ++ [chunk]).flatten ∧
    Stopped sha256 client sessionAuthKey start (stream ++ (before ++ [chunk]).flatten) failure
      writer log

section

variable {sha256} {client : Client} {sessionAuthKey : Block 32} {start log : List CallRecord}
  {stream : Bytes} {writer : CiphertextWriter}

variable (sha256 client) in
/-- The calls after the first failed flush. -/
theorem writeAll_failed (stack : FrameBuffer) (hfailed : writer.failure ≠ .ok)
    (chunks : List Bytes) : writeAll sha256 client stack writer chunks
      = pure (List.replicate chunks.length writer.failure, writer) := by
  induction chunks with
  | nil => rfl
  | cons chunk chunks ih =>
    have hcall : writeCiphertext sha256 client stack writer chunk
        = pure (writer.failure, writer) := if_pos hfailed
    rw [writeAll, hcall, pure_bind]
    simp only [ih, pure_bind]
    rfl

theorem WritesEnd.cons {chunk : Bytes} {chunks : List Bytes} {transcript : Transcript}
    {statuses : List Status} (h : WritesEnd sha256 client sessionAuthKey start (stream ++ chunk)
      (transcript ++ chunk) chunks statuses writer log) :
    WritesEnd sha256 client sessionAuthKey start stream transcript (chunk :: chunks)
      (.ok :: statuses) writer log := by
  rcases h with ⟨rfl, htranscript, hsent⟩ | ⟨before, stopping, after, failure, rfl, rfl,
    htranscript, hstopped⟩
  · refine .inl ⟨rfl, ?_, ?_⟩
    · rw [htranscript, List.flatten_cons, List.append_assoc]
    · rw [List.flatten_cons, ← List.append_assoc]
      exact hsent
  · refine .inr ⟨chunk :: before, stopping, after, failure, rfl, rfl, ?_, ?_⟩
    · rw [htranscript, List.cons_append, List.flatten_cons, List.append_assoc]
    · rw [List.cons_append, List.flatten_cons, ← List.append_assoc]
      exact hstopped

theorem writeAll_from (stack : FrameBuffer) (chunks : List Bytes)
    (h : Fragmented sha256 client sessionAuthKey start stream writer log) :
    (writeAll sha256 client stack writer chunks).wp logStep (fun outcome log' =>
      WritesEnd sha256 client sessionAuthKey start stream writer.transcript chunks outcome.1
        outcome.2 log') log := by
  induction chunks generalizing stream writer log with
  | nil =>
    refine .inl ⟨rfl, (List.append_nil _).symm, ?_⟩
    rw [List.flatten_nil, List.append_nil]
    exact h
  | cons chunk chunks ih =>
    unfold writeAll
    rw [Program.wp_bind]
    refine Program.wp_mono (fun outcome log' hwritten => ?_) (writeCiphertext_ends stack chunk h)
    obtain ⟨status, writer'⟩ := outcome
    obtain ⟨htranscript, ⟨rfl, hsent⟩ | hstopped⟩ := hwritten
    · rw [Program.wp_bind]
      refine Program.wp_mono (fun rest log'' hrest => ?_) (ih hsent)
      rw [htranscript] at hrest
      exact hrest.cons
    · have hfailed : writer'.failure ≠ .ok := by
        rw [hstopped.failure_eq]
        exact hstopped.failure_ne
      simp only
      rw [writeAll_failed sha256 client stack hfailed, pure_bind, hstopped.failure_eq]
      refine .inr ⟨[], chunk, chunks, status, rfl, rfl, ?_, ?_⟩
      · simpa using htranscript
      · simpa using hstopped

theorem fragmented_emptyWriter (client : Client) (transcript : Transcript)
    (sessionAuthKey : Block 32) (log : List CallRecord) :
    Fragmented sha256 client sessionAuthKey log [] (emptyWriter transcript sessionAuthKey) log where
  sessionAuthKey_eq := rfl
  failure := rfl
  length_lt := by simp
  fragmentIndex_eq := rfl
  pending_eq := rfl
  exchanged := .nil

end

/-- The connect starts with the empty writer. -/
theorem newWriter_eq (client : Client) (challenge : Challenge) (transcript : Transcript) :
    newWriter sha256 client challenge transcript
      = emptyWriter transcript (challengeAuthKey sha256 client.config.psk challenge) := rfl

/-- However a stream is cut into calls, the fragments that are sent are its blocks of 48
bytes, up to the first flush that fails. -/
theorem writeAll_ends (client : Client) (stack : FrameBuffer) (transcript : Transcript)
    (sessionAuthKey : Block 32) (chunks : List Bytes) (log : List CallRecord) :
    (writeAll sha256 client stack (emptyWriter transcript sessionAuthKey) chunks).wp logStep
      (fun outcome log' => WritesEnd sha256 client sessionAuthKey log [] transcript chunks
        outcome.1 outcome.2 log') log :=
  writeAll_from stack chunks (fragmented_emptyWriter client transcript sessionAuthKey log)

/-- What the receiver of fragment `i` reads: index, count, length and block `i` of the stream. -/
theorem Fragmented.frame {sha256 : Bytes → Block 32} {client : Client} {sessionAuthKey : Block 32}
    {start log : List CallRecord} {stream : Bytes} {writer : CiphertextWriter}
    (h : Fragmented sha256 client sessionAuthKey start stream writer log) {i : Nat}
    (hi : i < stream.length / 48) :
    ∃ (calls : List CallRecord) (frame : Bytes), calls.reverse <:+: log ∧
      (calls.filterMap CallRecord.delivered).head? = some frame ∧
      decodeHeader frame = .ok ⟨frameCiphertextFragment, 0, 67, client.sessionId⟩ ∧
      (byteAt frame 10).toNat = i ∧ byteAt frame 11 = 16 ∧ byteAt frame 12 = 48 ∧
      slice frame 13 48 = slice stream (48 * i) 48 := by
  obtain ⟨exchanges, hlength, rfl, hexchanges⟩ := h.exchanged
  have hlt : stream.length < 816 := h.length_lt
  have hblock : (fullBlocks 48 stream)[i]? = some (slice stream (48 * i) 48) := by
    rw [fullBlocks, List.getElem?_map, List.getElem?_range hi]
    rfl
  have hpayload : (slice stream (48 * i) 48).length = 48 :=
    length_of_mem_fullBlocks (List.mem_of_getElem? hblock)
  have hcount : i < exchanges.length := by
    rw [hlength, length_fullBlocks]
    exact hi
  have hcalls := hexchanges i _ exchanges[i] hblock (List.getElem?_eq_getElem hcount)
  obtain ⟨hheader, hindex, hfragments, hbytes, hslice, -⟩ := fields_fragmentFrame sha256
    sessionAuthKey client.sessionId (UInt8.ofNat i) hpayload.le
  rw [hpayload] at hheader hbytes hslice
  refine ⟨exchanges[i], _, ?_, hcalls.delivered, hheader, ?_, hfragments,
    UInt8.toNat_inj.mp hbytes, hslice⟩
  · refine List.IsInfix.trans ?_ (List.prefix_append _ start).isInfix
    exact List.reverse_infix.mpr (List.infix_of_mem_flatten (List.getElem_mem hcount))
  · rw [hindex, UInt8.toNat_ofNat', Nat.mod_eq_of_lt (by omega)]

end C0PQLink
