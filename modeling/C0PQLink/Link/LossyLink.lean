import C0PQLink.Foundation.StopAndWait
import C0PQLink.ReferencePeer.Handshake

/-!
# The client and the peer over a lossy link

The callbacks of the client against a link that hands its frames to `handleFrame` of the
peer and brings the responses back, or loses the one or the other. A receive that brings no
frame returns nonzero and leaves the buffer alone.

* `lossyAnswer`: the callbacks.
* `sendAndReceive_lossy`: one exchange of the client is one exchange of the conversation.
-/

namespace C0PQLink.Link

open Foundation ReferencePeer

/-! ## The two ends of the link -/

/-- The peer, and the plaintexts that it has handed to its application. -/
abbrev Server := Peer × List Bytes

/-- The frame that a handler sends: an error sends none. -/
def responseOf (result : Except PeerError (Option Bytes)) : Option Bytes := result.toOption.join

section

variable (sha256 : Bytes → Block 32) (decapsulate : Block 768 → Block 32)
  (application : Application) (serverNonce : Block 16)

/-- The peer draws `serverNonce` when it draws a nonce. It draws one for every session that it
starts, and the client of this link starts one session. -/
def serveFrame (server : Server) (frame : Bytes) : Option Bytes × Server :=
  let (response, peer, plaintext) :=
    handleFrame sha256 decapsulate application server.1 serverNonce.val frame
  (responseOf response, (peer, server.2 ++ plaintext.toList))

end

abbrev FrameLink := Foundation.Link Server Bytes Bytes

section

variable (serve : Server → Bytes → Option Bytes × Server) (fates : Nat → Nat → Fate)
  (random : (length : Nat) → Block length) (publicKey : Block 800)

/-- What `receive_frame` leaves behind. -/
def receivedFrame (buffer : FrameBuffer) : Option Bytes → Received
  | none => ⟨-1, buffer, 0⟩
  | some frame => ⟨0, buffer.write frame, frame.length⟩

/-- The callbacks of the client. A connect asks for random bytes twice, for 16 and for 32. -/
def lossyAnswer : (call : ClientCall) → FrameLink → ClientReply call × FrameLink
  | .randomBytes length, link => ((0, random length), link)
  | .readPublicKey offset, link => (byteAt publicKey.val offset.toNat, link)
  | .sendFrame frame, link =>
    (if (link.send serve fates frame).1 then 0 else -1, (link.send serve fates frame).2)
  | .receiveFrame buffer, link => (receivedFrame buffer link.receive.1, link.receive.2)

section

variable {serve fates random publicKey} {α : Type}

theorem run_sendFrame (frame : Bytes) (f : Int → ClientProgram α) (link : FrameLink) :
    (sendFrame frame >>= f).run (lossyAnswer serve fates random publicKey) link
      = (f (if (link.send serve fates frame).1 then 0 else -1)).run
          (lossyAnswer serve fates random publicKey) (link.send serve fates frame).2 := rfl

theorem run_receiveFrame (buffer : FrameBuffer) (f : Received → ClientProgram α)
    (link : FrameLink) :
    (receiveFrame buffer >>= f).run (lossyAnswer serve fates random publicKey) link
      = (f (receivedFrame buffer link.receive.1)).run
          (lossyAnswer serve fates random publicKey) link.receive.2 := rfl

end

/-! ## One exchange -/

/-- How `send_and_receive` ends with the answer of the link. -/
def exchangeOutcome (buffer : FrameBuffer) : Option Bytes → Status × FrameBuffer
  | none => (.errIo, buffer)
  | some answer => (.ok, buffer.write answer)

variable {serve fates random publicKey}

/-- A frame that fits is read back from the buffer. -/
theorem take_write (buffer : FrameBuffer) {frame : Bytes} (h : frame.length ≤ 96) :
    (buffer.write frame).val.take frame.length = frame := buffer.take_write h

theorem receivedFrame_none (buffer : FrameBuffer) (sessionId : UInt32) (type : UInt8)
    (length : Nat) : (receivedFrame buffer none).accepted sessionId type length = false := by
  simp [receivedFrame, Received.accepted]

theorem receivedFrame_some (buffer : FrameBuffer) {sessionId : UInt32} {type : UInt8}
    {answer : Bytes} (hfits : answer.length ≤ 96)
    (haccepts : acceptsFrame sessionId type answer.length answer = true) :
    (receivedFrame buffer (some answer)).accepted sessionId type answer.length = true := by
  simp [receivedFrame, Received.accepted, take_write buffer hfits, haccepts]

variable {before after : Server} {frame answer : Bytes} {sessionId : UInt32} {type : UInt8}

/-- The attempts of `send_and_receive` are those of the link. -/
theorem exchangeAttempts_lossy (h : Serves serve frame answer before after)
    (hfits : answer.length ≤ 96)
    (haccepts : acceptsFrame sessionId type answer.length answer = true)
    {buffer : FrameBuffer} {outgoingLength : Nat}
    (hbuffer : buffer.val.take outgoingLength = frame) (attempts : Nat) (link : FrameLink)
    (hserver : link.server = before ∨ link.server = after) :
    (exchangeAttempts sessionId outgoingLength type answer.length attempts buffer).run
        (lossyAnswer serve fates random publicKey) link
      = (exchangeOutcome buffer (link.exchangeWith serve fates frame attempts).1,
          (link.exchangeWith serve fates frame attempts).2) := by
  induction attempts generalizing link with
  | zero => rfl
  | succ attempts ih =>
    rw [exchangeAttempts, hbuffer, run_sendFrame]
    by_cases hfate : fates link.exchange link.attempt = .delivered
    · have honce := Link.once_delivered h hserver hfate
      have htaken : (link.send serve fates frame).1 = true := by simp [Link.send, hfate]
      simp only [Link.once, htaken, if_true] at honce
      simp only [htaken, if_true, ne_eq, not_true, if_false, run_receiveFrame, honce,
        receivedFrame_some buffer hfits haccepts, Link.exchangeWith, Link.once]
      rfl
    · obtain ⟨server, hnext, -, honce⟩ := Link.once_lost h hserver hfate
      rw [Link.exchangeWith, honce]
      simp only [Link.once] at honce
      cases htaken : (link.send serve fates frame).1 with
      | true =>
        simp only [htaken, if_true] at honce
        simp only [if_true, ne_eq, not_true, if_false, run_receiveFrame, honce,
          receivedFrame_none]
        exact ih _ hnext
      | false =>
        simp only [htaken, Bool.false_eq_true, if_false, Prod.mk.injEq, true_and] at honce
        simp only [Bool.false_eq_true, if_false, ne_eq, honce]
        exact ih _ hnext

section

variable {count : Nat} {conversation : Conversation Server Bytes Bytes serve count}
  {client : Client} {i : Nat} {link : FrameLink}

/-- An exchange of the client in a conversation: it gets the answer, or it is stopped. -/
theorem sendAndReceive_lossy
    (hreached : conversation.Reached fates (client.config.maximumRetries.toNat + 1) i link)
    (hi : i < count) (hsent : (conversation.request i).length ≤ 96)
    (hfits : (conversation.answer i).length ≤ 96)
    (haccepts : acceptsFrame client.sessionId type (conversation.answer i).length
      (conversation.answer i) = true) (stack : FrameBuffer) :
    (∃ next buffer, (sendAndReceive client (conversation.request i).length type
          (conversation.answer i).length (stack.write (conversation.request i))).run
          (lossyAnswer serve fates random publicKey) link = ((.ok, buffer), next) ∧
        buffer.val.take (conversation.answer i).length = conversation.answer i ∧
        conversation.Reached fates (client.config.maximumRetries.toNat + 1) (i + 1) next) ∨
      ∃ next buffer, (sendAndReceive client (conversation.request i).length type
          (conversation.answer i).length (stack.write (conversation.request i))).run
          (lossyAnswer serve fates random publicKey) link = ((.errIo, buffer), next) ∧
        conversation.Broken fates (client.config.maximumRetries.toNat + 1) i next := by
  rw [sendAndReceive, exchangeAttempts_lossy (conversation.answers i hi) hfits haccepts
    (take_write stack hsent) (client.config.maximumRetries.toNat + 1) link (.inl hreached.server)]
  rcases hreached.exchangeWith hi with ⟨next, hexchange, hnext⟩ | ⟨next, hexchange, hbroken⟩
  · rw [hexchange]
    exact .inl ⟨next, _, rfl, take_write _ hfits, hnext⟩
  · rw [hexchange]
    exact .inr ⟨next, _, rfl, hbroken⟩

end

end

end C0PQLink.Link
