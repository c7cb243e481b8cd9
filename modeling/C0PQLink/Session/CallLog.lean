import C0PQLink.Session.Fragment

/-!
# The calls of the callbacks

The log of what a client asked its callbacks and what they answered, the last call first.

* `wp_logged`: what holds for all answers, for answers that are a function of the log.
* `log_suffix`: a log only grows.
* `sendAndReceive_wp`: how an exchange ends, by its last call.
-/

namespace C0PQLink

open Foundation

/-! ## The calls of a connect -/

/-- A call of a callback with its answer. -/
structure CallRecord where
  call : ClientCall
  reply : ClientReply call

/-- Callbacks that answer anything; the calls so far, the last one first. -/
def logStep (call : ClientCall) (log : List CallRecord) (reply : ClientReply call)
    (log' : List CallRecord) : Prop :=
  log' = ⟨call, reply⟩ :: log

/-- The frame that a `receive_frame` delivered. -/
def CallRecord.received (record : CallRecord) : Option Received :=
  match record with
  | ⟨.receiveFrame _, received⟩ => some received
  | _ => none

variable (sha256 : Bytes → Block 32)

/-- The acknowledgment of a fragment, with a valid tag. -/
def CallRecord.IsAck (sessionAuthKey : Block 32) (sessionId : UInt32) (index : UInt8)
    (record : CallRecord) : Prop :=
  ∃ received, record.received = some received ∧
    received.accepted sessionId frameCiphertextAck 28 = true ∧
    checkAck sha256 sessionAuthKey index (received.buffer.val.take 28) = .ok

/-- The Server Finished with the expected tag. -/
def CallRecord.IsServerFinished (keys : SessionKeys) (sessionId : UInt32)
    (transcriptHash : Block 32) (record : CallRecord) : Prop :=
  ∃ received, record.received = some received ∧
    received.accepted sessionId frameServerFinished 26 = true ∧
    checkFinished sha256 keys.serverFinishedKey sessionId transcriptHash
      (received.buffer.val.take 26) = .ok

/-- What a wp proves about a run against callbacks that are functions of the calls so far. -/
theorem wp_logged {α : Type} {p : ClientProgram α} {Q : α → List CallRecord → Prop}
    {log : List CallRecord} (h : p.wp logStep Q log)
    (answers : (call : ClientCall) → List CallRecord → ClientReply call) :
    let outcome := p.run (fun call log => (answers call log, ⟨call, answers call log⟩ :: log)) log
    Q outcome.1 outcome.2 :=
  Program.wp_iff.mp h _ _ (Program.Outcome.of_run id (fun _ _ => rfl) p log)

theorem log_suffix {α : Type} (p : ClientProgram α) (log : List CallRecord) :
    p.wp logStep (fun _ log' => log <:+ log') log := by
  induction p generalizing log with
  | done a => exact List.suffix_refl log
  | call e next ih =>
    rintro reply log' rfl
    exact Program.wp_mono (fun _ _ h => (List.suffix_cons _ log).trans h) (ih reply _)

/-! ## The exchanges -/

/-- An exchange that succeeds returns the buffer of its last call. -/
def Exchanged (sessionId : UInt32) (expectedType : UInt8) (expectedLength : Nat)
    (log : List CallRecord) (outcome : Status × FrameBuffer) (log' : List CallRecord) : Prop :=
  log <:+ log' ∧ (outcome.1 = .ok → ∃ record older received, log' = record :: older ∧
    log <:+ older ∧ record.received = some received ∧
    received.accepted sessionId expectedType expectedLength = true ∧ outcome.2 = received.buffer)

theorem Exchanged.later {sessionId : UInt32} {expectedType : UInt8} {expectedLength : Nat}
    {log log' log'' : List CallRecord} {outcome : Status × FrameBuffer} (hsuffix : log <:+ log')
    (h : Exchanged sessionId expectedType expectedLength log' outcome log'') :
    Exchanged sessionId expectedType expectedLength log outcome log'' := by
  refine ⟨hsuffix.trans h.1, fun hok => ?_⟩
  obtain ⟨record, older, received, hlog, holder, hreceived⟩ := h.2 hok
  exact ⟨record, older, received, hlog, hsuffix.trans holder, hreceived⟩

theorem exchangeAttempts_wp (sessionId : UInt32) (outgoingLength : Nat) (expectedType : UInt8)
    (expectedLength attempts : Nat) (buffer : FrameBuffer) (log : List CallRecord) :
    (exchangeAttempts sessionId outgoingLength expectedType expectedLength attempts buffer).wp
      logStep (Exchanged sessionId expectedType expectedLength log) log := by
  induction attempts generalizing buffer log with
  | zero => exact ⟨List.suffix_refl log, nofun⟩
  | succ attempts ih =>
    simp only [exchangeAttempts, sendFrame, receiveFrame, Program.wp_bind, Program.wp_perform]
    rintro sent log1 rfl
    have hsent := List.suffix_cons (CallRecord.mk _ sent) log
    split
    · exact Program.wp_mono (fun _ _ h => h.later hsent) (ih buffer _)
    · simp only [Program.wp_bind, Program.wp_perform]
      rintro received log2 rfl
      have hreceived := hsent.trans
        (List.suffix_cons (CallRecord.mk (.receiveFrame buffer) received) _)
      split
      · rename_i haccepted
        exact ⟨hreceived, fun _ => ⟨_, _, received, rfl, hsent, rfl, haccepted, rfl⟩⟩
      · exact Program.wp_mono (fun _ _ h => h.later hreceived) (ih received.buffer _)

theorem sendAndReceive_wp (client : Client) (outgoingLength : Nat) (expectedType : UInt8)
    (expectedLength : Nat) (buffer : FrameBuffer) (log : List CallRecord) :
    (sendAndReceive client outgoingLength expectedType expectedLength buffer).wp logStep
      (Exchanged client.sessionId expectedType expectedLength log) log :=
  exchangeAttempts_wp ..

end C0PQLink
