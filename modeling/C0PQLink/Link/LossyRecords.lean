import C0PQLink.Link.LossTolerance
import C0PQLink.Session.RecordCalls

/-!
# Sessions over a lossy link

A whole session as `tests/session_interop_cli.c` runs it: a connect, and messages that are
sealed once and whose frames are sent again until the response comes. The peer answers a
repeated frame from its cache and does not call the application again.

* `recordAttempts`, `exchangeRecord`, `exchangeRecords`: the calls of the program.
* `recordState`: the session of the peer after each record, and `serves_record`.
* `session_exactlyOnce`: the application is called once for each message, in order, and a
  message whose exchange fails has reached it exactly when one of its frames has arrived.
-/

namespace C0PQLink.Link

open Foundation ReferencePeer

/-! ## The program -/

section

variable (sha256 : Bytes → Block 32)

/-- The attempts that are left for a sealed record. What is opened ends them. -/
def recordAttempts (client : Client) (outgoing : Bytes) :
    Nat → FrameBuffer → ClientProgram (Except Status Bytes × Client)
  | 0, _ => return (.error .errIo, client)
  | attempts + 1, incoming => do
    let sent ← sendFrame outgoing
    if sent ≠ 0 then recordAttempts client outgoing attempts incoming
    else
      let received ← receiveFrame incoming
      if received.status ≠ 0 then recordAttempts client outgoing attempts received.buffer
      else
        return C0PQLink.openRecord sha256 client (received.buffer.val.take received.length)
          recordPlaintextMax

def exchangeRecord (client : Client) (message : Bytes) (incoming : FrameBuffer) :
    ClientProgram (Except Status Bytes × Client) :=
  match C0PQLink.sealRecord sha256 client message 96 with
  | (.error status, client) => return (.error status, client)
  | (.ok outgoing, client) =>
    recordAttempts sha256 client outgoing (client.config.maximumRetries.toNat + 1) incoming

/-- The messages one after another, until one fails: the status and the responses. -/
def exchangeRecords (incoming : FrameBuffer) : List Bytes → Client →
    ClientProgram (Status × List Bytes)
  | [], _ => return (.ok, [])
  | message :: messages, client => do
    let (result, client) ← exchangeRecord sha256 client message incoming
    match result with
    | .error status => return (status, [])
    | .ok response =>
      let (status, responses) ← exchangeRecords incoming messages client
      return (status, response :: responses)

/-- A connect, and the messages behind it. -/
def runSession (hashes : Fips203.Hashes) (client : Client) (workspace : Workspace)
    (stack incoming : FrameBuffer) (messages : List Bytes) :
    ClientProgram (Status × List Bytes) := do
  let connected ← connect sha256 hashes loadZeta client workspace stack
  if connected.status ≠ .ok then return (connected.status, [])
  else exchangeRecords sha256 incoming messages connected.client

end

/-! ## The peer -/

/-- An application that answers every message with at most 48 bytes. -/
structure Replies (application : Application) (reply : Bytes → Bytes) : Prop where
  answers : ∀ plaintext, application plaintext = .ok (some (reply plaintext))
  fits : ∀ plaintext, (reply plaintext).length ≤ recordPlaintextMax

section

variable (sha256 : Bytes → Block 32)

/-- The session after a record that was opened, answered and remembered. -/
def afterExchange (session : Session) (keys : SessionKeys) (frame response : Bytes) :
    Session × SessionKeys :=
  let openedKeys := openedKeys sha256 session.device.mode keys
  (((session.afterOpen sha256 keys).afterSeal sha256 openedKeys).remember frame (some response),
    sealedKeys sha256 session.device.mode openedKeys)

variable {sha256} {application : Application} {reply : Bytes → Bytes}

/-- The next record of a session is opened, handed to the application and answered. -/
theorem handleRecord_next (hreplies : Replies application reply) {session : Session}
    {keys : SessionKeys} (hkeys : session.keys = some keys)
    (hestablished : session.established = true) (hreceive : session.receiveSequence < 2 ^ 64)
    (hsend : session.sendSequence < 2 ^ 64) {r : SealedRecord} {sessionId : UInt32}
    (hform : r.WellFormed 0 sessionId (UInt64.ofNat session.receiveSequence))
    (hkey : r.key = messageKey sha256 session.device.mode keys.clientTrafficKey
      keys.clientChainKey)
    (hnonce : r.nonce = makeRecordNonce keys.clientNonceBase
      (UInt64.ofNat session.receiveSequence))
    (hnew : session.lastClientFrame ≠ some r.frame) {header : Header}
    (hheader : ReferencePeer.decodeHeader r.frame = .ok header) {response : Bytes}
    (hresponse : ((session.afterOpen sha256 keys).nextRecord sha256
      (openedKeys sha256 session.device.mode keys) (reply r.plaintext)).frame = response) :
    handleRecord sha256 application session r.frame header
      = ⟨.ok (some response), (afterExchange sha256 session keys r.frame response).1,
          some r.plaintext⟩ := by
  subst hresponse
  have hopen := openRecord_next sha256 hkeys hestablished hreceive hform hkey hnonce hheader
  have hseal : ReferencePeer.sealRecord sha256 (session.afterOpen sha256 keys) (reply r.plaintext)
      = _ := ReferencePeer.sealRecord_eq sha256 (hreplies.fits _) rfl hsend
  rw [handleRecord, if_neg hnew, hopen]
  simp only [hreplies.answers, hseal]
  rfl

theorem serveFrame_data {decapsulate : Block 768 → Block 32} {serverNonce : Block 16}
    {server : Server} {frame response : Bytes} {header : Header} {session session' : Session}
    {plaintext : Option Bytes} (hheader : ReferencePeer.decodeHeader frame = .ok header)
    (htype : header.type = frameData) (hsession : server.1.sessions header.sessionId = some session)
    (hresult : handleRecord sha256 application session frame header
      = ⟨.ok (some response), session', plaintext⟩) :
    serveFrame sha256 decapsulate application serverNonce server frame
      = (some response,
        (server.1.setSession header.sessionId session', server.2 ++ plaintext.toList)) := by
  have hnotHello : frameData ≠ frameHello := by decide
  have hnotFragment : frameData ≠ frameCiphertextFragment := by decide
  have hnotFinished : frameData ≠ frameDeviceFinished := by decide
  simp only [serveFrame, handleFrame, hheader, htype, if_neg hnotHello, if_neg hnotFragment,
    if_neg hnotFinished, if_true, handleData, hsession, hresult]
  rfl

/-! ### The records of a session -/

variable (sha256) in
/-- The session stands at the record number `n` of both directions. -/
structure InStep (up down : Direction) (n : Nat) (session : Session) (keys : SessionKeys) :
    Prop where
  established : session.established = true
  sessionKeys : session.keys = some keys
  receives : PeerReceives sha256 up session keys n
  sends : PeerSends sha256 down session keys n

theorem InStep.afterExchange {up down : Direction} {n : Nat} {session : Session}
    {keys : SessionKeys} (h : InStep sha256 up down n session keys) (frame response : Bytes) :
    InStep sha256 up down (n + 1) (afterExchange sha256 session keys frame response).1
      (afterExchange sha256 session keys frame response).2 where
  established := h.established
  sessionKeys := rfl
  receives := (h.receives.afterOpen.afterSeal).remember frame (some response)
  sends := (h.sends.afterOpen.afterSeal).remember frame (some response)

end

/-- The two directions of a session, the messages of the client and the replies to them. -/
structure Exchanges where
  up : Direction
  down : Direction
  session : Session
  keys : SessionKeys
  messages : List Bytes
  reply : Bytes → Bytes

namespace Exchanges

variable (sha256 : Bytes → Block 32) (e : Exchanges)

def message (i : Nat) : Bytes := e.messages.getD i []

def request (i : Nat) : SealedRecord := e.up.record sha256 i (e.message i)

def response (i : Nat) : SealedRecord := e.down.record sha256 i (e.reply (e.message i))

/-- The session of the peer after `n` records. -/
def recordState : Nat → Session × SessionKeys
  | 0 => (e.session, e.keys)
  | n + 1 => afterExchange sha256 (recordState n).1 (recordState n).2 (e.request sha256 n).frame
      (e.response sha256 n).frame

/-- The state of the server before record `n`. -/
def serverAt (start : Server) (n : Nat) : Server :=
  (start.1.setSession e.up.sessionId (e.recordState sha256 n).1, start.2 ++ e.messages.take n)

/-- The session is new, and the messages and the replies fit into records. -/
structure Fits : Prop where
  upFlags : e.up.flags = 0
  sameId : e.down.sessionId = e.up.sessionId
  lt : e.messages.length < 2 ^ 64
  messages : ∀ message ∈ e.messages, message.length ≤ recordPlaintextMax
  replies : ∀ message, (e.reply message).length ≤ recordPlaintextMax
  inStep : InStep sha256 e.up e.down 0 e.session e.keys
  lastClientFrame : e.session.lastClientFrame = none

end Exchanges

theorem Exchanges.message_mem (e : Exchanges) {i : Nat} (hi : i < e.messages.length) :
    e.message i ∈ e.messages := by
  rw [Exchanges.message, List.getD_eq_getElem?_getD, List.getElem?_eq_getElem hi]
  exact List.getElem_mem hi

section

variable {sha256 : Bytes → Block 32} {e : Exchanges} (hfits : e.Fits sha256)

include hfits

theorem Exchanges.Fits.inStep_recordState (n : Nat) :
    InStep sha256 e.up e.down n (e.recordState sha256 n).1 (e.recordState sha256 n).2 := by
  induction n with
  | zero => exact hfits.inStep
  | succ n ih => exact ih.afterExchange _ _

theorem Exchanges.Fits.request_wellFormed {i : Nat} (hi : i < e.messages.length) :
    (e.request sha256 i).WellFormed 0 e.up.sessionId (UInt64.ofNat i) :=
  ⟨hfits.messages _ (e.message_mem hi), by rw [← hfits.upFlags]; rfl⟩

theorem Exchanges.Fits.response_wellFormed (i : Nat) :
    (e.response sha256 i).WellFormed 1 e.up.sessionId (UInt64.ofNat i) :=
  ⟨hfits.replies _, by rw [← hfits.sameId, ← hfits.inStep.sends.flags]; rfl⟩

/-- The frame that the session remembers is not the next one. -/
theorem Exchanges.Fits.request_new {i : Nat} (hi : i < e.messages.length) :
    (e.recordState sha256 i).1.lastClientFrame ≠ some (e.request sha256 i).frame := by
  cases i with
  | zero =>
    rw [Exchanges.recordState, hfits.lastClientFrame]
    intro h
    cases h
  | succ i =>
    intro h
    have hframe : (e.request sha256 i).frame = (e.request sha256 (i + 1)).frame := Option.some.inj h
    have hlt := hfits.lt
    have hsequence :=
      (hfits.request_wellFormed (show i < e.messages.length by omega)).sequence_frame
    rw [hframe, (hfits.request_wellFormed hi).sequence_frame, ← UInt64.toNat_inj,
      UInt64.toNat_ofNat', UInt64.toNat_ofNat'] at hsequence
    omega

/-- Every record is answered, and answered again from the cache. -/
theorem Exchanges.Fits.serves_record {application : Application}
    (hreplies : Replies application e.reply) (decapsulate : Block 768 → Block 32)
    (serverNonce : Block 16) (start : Server) {i : Nat} (hi : i < e.messages.length) :
    Serves (serveFrame sha256 decapsulate application serverNonce) (e.request sha256 i).frame
      (e.response sha256 i).frame (e.serverAt sha256 start i)
      (e.serverAt sha256 start (i + 1)) := by
  have hform := hfits.request_wellFormed hi
  have hstep := hfits.inStep_recordState i
  have hnew := hfits.request_new hi
  have hlt := hfits.lt
  have hresponse := hstep.sends.afterOpen.nextRecord (e.reply (e.message i))
  have hheader : ReferencePeer.decodeHeader (e.request sha256 i).frame = .ok
      ⟨frameData, 0, (UInt8.ofNat (8 + (e.request sha256 i).plaintext.length + 16)).toNat,
        e.up.sessionId⟩ := by
    rw [ReferencePeer.decodeHeader_eq, hform.decodeHeader_frame]
    simp
  have hrecord := handleRecord_next hreplies hstep.sessionKeys hstep.established
    (by rw [hstep.receives.sequence]; omega) (by rw [hstep.sends.sequence]; omega)
    (by rw [hstep.receives.sequence]; exact hform)
    (by rw [hstep.receives.mode, hstep.receives.trafficKey, hstep.receives.chainKey]; rfl)
    (by rw [hstep.receives.nonceBase, hstep.receives.sequence]; rfl) hnew hheader
    (congrArg SealedRecord.frame hresponse)
  have htake : e.messages.take (i + 1) = e.messages.take i ++ [e.message i] := by
    rw [List.take_succ_eq_append_getElem hi, Exchanges.message, List.getD_eq_getElem?_getD,
      List.getElem?_eq_getElem hi]
    rfl
  constructor
  · rw [serveFrame_data hheader rfl (Peer.setSession_same ..) hrecord]
    simp only [Exchanges.serverAt, Peer.setSession, Function.update_idem, htake, List.append_assoc]
    rfl
  · have hlast : (e.recordState sha256 (i + 1)).1.lastClientFrame
        = some (e.request sha256 i).frame := rfl
    have hcached : handleRecord sha256 application (e.recordState sha256 (i + 1)).1
        (e.request sha256 i).frame ⟨frameData, 0, (UInt8.ofNat
          (8 + (e.request sha256 i).plaintext.length + 16)).toNat, e.up.sessionId⟩
        = ⟨.ok (some (e.response sha256 i).frame), (e.recordState sha256 (i + 1)).1, none⟩ := by
      rw [handleRecord, if_pos hlast]
      rfl
    rw [serveFrame_data hheader rfl (Peer.setSession_same ..) hcached]
    simp only [Exchanges.serverAt, Peer.setSession, Function.update_idem, Option.toList_none,
      List.append_nil]

/-- The records of a session, one exchange for each. -/
def Exchanges.Fits.conversation {application : Application}
    (hreplies : Replies application e.reply) (decapsulate : Block 768 → Block 32)
    (serverNonce : Block 16) (start : Server) :
    Conversation Server Bytes Bytes (serveFrame sha256 decapsulate application serverNonce)
      e.messages.length where
  request i := (e.request sha256 i).frame
  answer i := (e.response sha256 i).frame
  server := e.serverAt sha256 start
  answers _ := hfits.serves_record hreplies decapsulate serverNonce start

end

/-! ## The client -/

section

variable {sha256 : Bytes → Block 32} {serve : Server → Bytes → Option Bytes × Server}
  {fates : Nat → Nat → Fate} {random : (length : Nat) → Block length} {publicKey : Block 800}
  {client : Client} {frame answer : Bytes} {before after : Server}

variable (sha256 client) in
/-- How the attempts end with the answer of the link. -/
def openOutcome : Option Bytes → Except Status Bytes × Client
  | none => (.error .errIo, client)
  | some answer => C0PQLink.openRecord sha256 client answer recordPlaintextMax

/-- The attempts for a record are those of the link. -/
theorem recordAttempts_lossy (h : Serves serve frame answer before after)
    (hfits : answer.length ≤ 96) (incoming : FrameBuffer) (attempts : Nat) (link : FrameLink)
    (hserver : link.server = before ∨ link.server = after) :
    (recordAttempts sha256 client frame attempts incoming).run
        (lossyAnswer serve fates random publicKey) link
      = (openOutcome sha256 client (link.exchangeWith serve fates frame attempts).1,
          (link.exchangeWith serve fates frame attempts).2) := by
  induction attempts generalizing link with
  | zero => rfl
  | succ attempts ih =>
    rw [recordAttempts, run_sendFrame]
    by_cases hfate : fates link.exchange link.attempt = .delivered
    · have honce := Link.once_delivered h hserver hfate
      have htaken : (link.send serve fates frame).1 = true := by simp [Link.send, hfate]
      simp only [Link.once, htaken, if_true] at honce
      have hread : (incoming.write answer).val.take answer.length = answer :=
        take_write incoming hfits
      simp only [htaken, if_true, ne_eq, not_true, if_false, run_receiveFrame, honce,
        receivedFrame, hread, Link.exchangeWith, Link.once]
      rfl
    · obtain ⟨server, hnext, -, honce⟩ := Link.once_lost h hserver hfate
      rw [Link.exchangeWith, honce]
      simp only [Link.once] at honce
      cases htaken : (link.send serve fates frame).1 with
      | true =>
        simp only [htaken, if_true] at honce
        have hnone : (receivedFrame incoming none).status ≠ 0 := show (-1 : Int) ≠ 0 by decide
        simp only [if_true, ne_eq, not_true, if_false, run_receiveFrame, honce]
        rw [if_pos hnone]
        exact ih _ hnext
      | false =>
        simp only [htaken, Bool.false_eq_true, if_false, Prod.mk.injEq, true_and] at honce
        simp only [Bool.false_eq_true, if_false, ne_eq, honce]
        exact ih _ hnext

variable (sha256) in
/-- The client stands at record `n` of both directions. -/
structure ClientInStep (up down : Direction) (attempts n : Nat) (client : Client) : Prop where
  sends : ClientSends sha256 up client n
  receives : ClientReceives sha256 down client n
  attempts : client.config.maximumRetries.toNat + 1 = attempts

theorem ClientInStep.next {up down : Direction} {attempts n : Nat}
    (h : ClientInStep sha256 up down attempts n client) :
    ClientInStep sha256 up down attempts (n + 1)
      ((client.afterSeal sha256).afterOpen sha256) :=
  ⟨h.sends.afterSeal.afterOpen, h.receives.afterSeal.afterOpen, h.attempts⟩

variable {e : Exchanges} {attempts count i m : Nat} {link : FrameLink}
  {conversation : Conversation Server Bytes Bytes serve count}

theorem sealRecord_next (hfits : e.Fits sha256) (hi : i < e.messages.length)
    (hclient : ClientInStep sha256 e.up e.down attempts i client) :
    C0PQLink.sealRecord sha256 client (e.message i) 96
      = (.ok (e.request sha256 i).frame, client.afterSeal sha256) := by
  have hlength : (e.message i).length ≤ 48 := hfits.messages _ (e.message_mem hi)
  have hseals : SealFits (e.message i).length 96 := by
    unfold SealFits recordPlaintextMax
    omega
  have hsequence : client.sendSequence ≠ 0xffffffffffffffff := by
    rw [hclient.sends.sequence]
    intro h
    have hlt := hfits.lt
    have htoNat := congrArg UInt64.toNat h
    rw [UInt64.toNat_ofNat', Nat.mod_eq_of_lt (by omega)] at htoNat
    have hmax : (0xffffffffffffffff : UInt64).toNat = 2 ^ 64 - 1 := rfl
    omega
  rw [C0PQLink.sealRecord_eq, if_neg (not_not.mpr hclient.receives.state),
    if_neg (not_not.mpr hseals), if_neg hsequence,
    hclient.sends.nextRecord hfits.upFlags (e.message i)]
  rfl

theorem openRecord_response (hfits : e.Fits sha256)
    (hclient : ClientInStep sha256 e.up e.down attempts i client) :
    C0PQLink.openRecord sha256 (client.afterSeal sha256) (e.response sha256 i).frame
        recordPlaintextMax
      = (.ok (e.reply (e.message i)), (client.afterSeal sha256).afterOpen sha256) := by
  have hreceives := hclient.receives.afterSeal
  have hsession : (client.afterSeal sha256).sessionId = e.up.sessionId :=
    hreceives.sessionId.trans hfits.sameId
  have hkey := hreceives.secret.key sha256
  rw [← hreceives.mode] at hkey
  refine openRecord_record sha256 hreceives.state ?_ ?_ ?_ (hfits.replies _)
  · rw [hsession, hreceives.sequence]
    exact hfits.response_wellFormed i
  · rw [hkey, hreceives.mode]
    rfl
  · rw [hreceives.nonceBase, hreceives.sequence]
    rfl

/-- One message, whose exchange is number `m` of the conversation. -/
theorem exchangeRecord_lossy (hfits : e.Fits sha256) (hi : i < e.messages.length)
    (hclient : ClientInStep sha256 e.up e.down attempts i client)
    (hreached : conversation.Reached fates attempts m link) (hm : m < count)
    (hrequest : conversation.request m = (e.request sha256 i).frame)
    (hanswer : conversation.answer m = (e.response sha256 i).frame) (incoming : FrameBuffer) :
    (∃ next, (exchangeRecord sha256 client (e.message i) incoming).run
          (lossyAnswer serve fates random publicKey) link
          = ((.ok (e.reply (e.message i)), (client.afterSeal sha256).afterOpen sha256), next) ∧
        conversation.Reached fates attempts (m + 1) next) ∨
      ∃ next, (exchangeRecord sha256 client (e.message i) incoming).run
          (lossyAnswer serve fates random publicKey) link
          = ((.error .errIo, client.afterSeal sha256), next) ∧
        conversation.Broken fates attempts m next := by
  have hlength : (conversation.answer m).length ≤ 96 := by
    have hform := hfits.response_wellFormed i
    have hmax : (e.response sha256 i).plaintext.length ≤ 48 := hform.length
    rw [hanswer]
    simp only [SealedRecord.frame, List.length_append, hform.length_associatedData,
      SealedRecord.length_sealed, Block.length_val]
    omega
  have hattempts : (client.afterSeal sha256).config.maximumRetries.toNat + 1 = attempts :=
    hclient.attempts
  rw [exchangeRecord, sealRecord_next hfits hi hclient]
  simp only [hattempts]
  rw [← hrequest, recordAttempts_lossy (conversation.answers m hm) hlength incoming attempts link
    (.inl hreached.server)]
  rcases hreached.exchangeWith hm with ⟨next, hexchange, hnext⟩ | ⟨next, hexchange, hbroken⟩
  · refine .inl ⟨next, ?_, hnext⟩
    rw [hexchange]
    simp only [openOutcome, hanswer, openRecord_response hfits hclient]
  · refine .inr ⟨next, ?_, hbroken⟩
    rw [hexchange]
    rfl

/-- The messages from number `i` on, whose exchanges stand from number `base` on in the
conversation. -/
theorem exchangeRecords_lossy (hfits : e.Fits sha256) {base : Nat}
    (hcount : base + e.messages.length = count)
    (hrequest : ∀ i < e.messages.length,
      conversation.request (base + i) = (e.request sha256 i).frame)
    (hanswer : ∀ i < e.messages.length,
      conversation.answer (base + i) = (e.response sha256 i).frame)
    (incoming : FrameBuffer) (rest : List Bytes) (hrest : e.messages.drop i = rest)
    (hclient : ClientInStep sha256 e.up e.down attempts i client)
    (hreached : conversation.Reached fates attempts (base + i) link) :
    (∃ next, (exchangeRecords sha256 incoming rest client).run
          (lossyAnswer serve fates random publicKey) link = ((.ok, rest.map e.reply), next) ∧
        conversation.Reached fates attempts (base + (i + rest.length)) next) ∨
      ∃ k next, (exchangeRecords sha256 incoming rest client).run
          (lossyAnswer serve fates random publicKey) link
          = ((.errIo, (rest.take k).map e.reply), next) ∧
        conversation.Broken fates attempts (base + (i + k)) next := by
  induction rest generalizing i client link with
  | nil => exact .inl ⟨link, rfl, hreached⟩
  | cons message rest ih =>
    have hi : i < e.messages.length := by
      have hlength := congrArg List.length hrest
      rw [List.length_drop, List.length_cons] at hlength
      omega
    have hmessage : e.message i = message := by
      rw [Exchanges.message, List.getD_eq_getElem?_getD, ← List.head?_drop, hrest]
      rfl
    have hdrop : e.messages.drop (i + 1) = rest := by
      rw [← List.tail_drop, hrest, List.tail_cons]
    rw [exchangeRecords, ← hmessage]
    rcases exchangeRecord_lossy hfits hi hclient hreached (by omega) (hrequest i hi)
        (hanswer i hi) incoming with ⟨next, hrun, hnext⟩ | ⟨next, hrun, hbroken⟩
    · rw [Program.run_bind_of hrun]
      simp only
      rcases ih hdrop hclient.next hnext with ⟨last, hlast, hend⟩ | ⟨k, last, hlast, hbroken⟩
      · refine .inl ⟨last, ?_, ?_⟩
        · rw [Program.run_bind_of hlast]
          rfl
        · rwa [List.length_cons, Nat.add_comm rest.length 1, ← Nat.add_assoc i]
      · refine .inr ⟨k + 1, last, ?_, ?_⟩
        · rw [Program.run_bind_of hlast]
          rfl
        · rwa [Nat.add_comm k 1, ← Nat.add_assoc i]
    · refine .inr ⟨0, next, ?_, hbroken⟩
      rw [Program.run_bind_of hrun]
      rfl

end

/-! ## The whole session -/

section

variable {sha256 : Bytes → Block 32} {client : Client} {peer : Peer} {session : Session}
  {keys : SessionKeys} {messages : List Bytes} {reply : Bytes → Bytes}

/-- The exchanges of an established pair. -/
def pairExchanges (client : Client) (session : Session) (keys : SessionKeys)
    (messages : List Bytes) (reply : Bytes → Bytes) : Exchanges where
  up := upDirection client keys
  down := downDirection client keys
  session := session
  keys := keys
  messages := messages
  reply := reply

theorem fits_pairExchanges (h : EstablishedPair client peer session keys)
    (hlt : messages.length < 2 ^ 64)
    (hmessages : ∀ message ∈ messages, message.length ≤ recordPlaintextMax)
    (hreplies : ∀ message, (reply message).length ≤ recordPlaintextMax) :
    (pairExchanges client session keys messages reply).Fits sha256 where
  upFlags := rfl
  sameId := rfl
  lt := hlt
  messages := hmessages
  replies := hreplies
  inStep :=
    { established := h.established
      sessionKeys := h.sessionKeys
      receives := ⟨h.mode, h.receiveSequence.2, rfl, rfl, rfl⟩
      sends := ⟨h.mode, h.sessionId, rfl, h.sendSequence.2, rfl, rfl, rfl⟩ }
  lastClientFrame := h.lastClientFrame

theorem clientInStep_pairExchanges (h : EstablishedPair client peer session keys) :
    ClientInStep sha256 (upDirection client keys) (downDirection client keys)
      (client.config.maximumRetries.toNat + 1) 0 client :=
  ⟨⟨rfl, rfl, h.sendSequence.1, h.sendSecret, h.sendNonceBase⟩,
    ⟨rfl, rfl, h.state, h.receiveSequence.1, h.receiveSecret, h.receiveNonceBase⟩, rfl⟩

end

section

variable (sha256 : Bytes → Block 32) (hashes : Fips203.Hashes)
  {decapsulate : Block 768 → Block 32} {application : Application} {h : Handshake}
  {start : Server} {keys : SessionKeys} {messages : List Bytes} {reply : Bytes → Bytes}

/-- The exchanges behind a handshake. -/
def Handshake.exchanges (h : Handshake) (keys : SessionKeys) (messages : List Bytes)
    (reply : Bytes → Bytes) : Exchanges :=
  pairExchanges (h.connecting.establish keys) ((h.sessionAt sha256 hashes 16).finish sha256 keys)
    keys messages reply

theorem Handshake.establishedPair (h : Handshake) (keys : SessionKeys) (peer : Peer) :
    EstablishedPair (h.connecting.establish keys)
      (peer.setSession h.sessionId ((h.sessionAt sha256 hashes 16).finish sha256 keys))
      ((h.sessionAt sha256 hashes 16).finish sha256 keys) keys := by
  obtain ⟨hid, hdevice, -, -, -, -, -, hsend, hreceive, hlast⟩ :=
    sessionAt_fixed sha256 hashes h 16
  exact establishedPair_finish sha256 keys peer hid hdevice hsend hreceive hlast

variable {sha256 hashes}

theorem server_exchanges (hprovisioned : Provisioned hashes decapsulate h start.1)
    (hkeys : ReferencePeer.deriveSessionKeys sha256 h.client.config.psk (h.sharedSecret hashes)
      (sha256 (h.transcript hashes)) = .ok keys) :
    (h.conversation sha256 hashes application hprovisioned hkeys).server 18
      = (h.exchanges sha256 hashes keys messages reply).serverAt sha256 start 0 :=
  Prod.ext rfl (List.append_nil _).symm

/-- The handshake and the records as one conversation. -/
def Handshake.wholeConversation (hreplies : Replies application reply)
    (hprovisioned : Provisioned hashes decapsulate h start.1)
    (hkeys : ReferencePeer.deriveSessionKeys sha256 h.client.config.psk (h.sharedSecret hashes)
      (sha256 (h.transcript hashes)) = .ok keys)
    (hfits : (h.exchanges sha256 hashes keys messages reply).Fits sha256) :
    Conversation Server Bytes Bytes (serveFrame sha256 decapsulate application h.serverNonce)
      (18 + messages.length) :=
  (h.conversation sha256 hashes application hprovisioned hkeys).append
    (hfits.conversation hreplies decapsulate h.serverNonce start)
    (server_exchanges hprovisioned hkeys)

section

variable (hreplies : Replies application reply)
  (hprovisioned : Provisioned hashes decapsulate h start.1)
  (hkeys : ReferencePeer.deriveSessionKeys sha256 h.client.config.psk (h.sharedSecret hashes)
    (sha256 (h.transcript hashes)) = .ok keys)
  (hfits : (h.exchanges sha256 hashes keys messages reply).Fits sha256)

/-- The plaintexts that the application has got before exchange `i`. -/
theorem handed_wholeConversation (i : Nat) :
    ((h.wholeConversation hreplies hprovisioned hkeys hfits).server i).2
      = start.2 ++ messages.take (i - 18) := by
  by_cases hi : i ≤ 18
  · have hserver : (h.wholeConversation hreplies hprovisioned hkeys hfits).server i
        = h.serverAt sha256 hashes keys start i := Conversation.append_server_left hi
    rw [hserver, Nat.sub_eq_zero_of_le hi, List.take_zero, List.append_nil]
    cases i with
    | zero => rfl
    | succ k =>
      rw [Handshake.serverAt]
      split <;> rfl
  · obtain ⟨k, rfl⟩ : ∃ k, i = 18 + k := ⟨i - 18, by omega⟩
    have hserver : (h.wholeConversation hreplies hprovisioned hkeys hfits).server (18 + k)
        = (h.exchanges sha256 hashes keys messages reply).serverAt sha256 start k :=
      Conversation.append_server_right k
    rw [hserver, Nat.add_sub_cancel_left]
    rfl

variable {fates : Nat → Nat → Fate} {random : (length : Nat) → Block length} {link : FrameLink}

/-- The session gets through all exchanges, or is stopped at one of them. -/
theorem runSession_lossy (hready : h.client.state = .ready) (hnonce : random 16 = h.deviceNonce)
    (hrandom : random 32 = h.randomness) (workspace : Workspace) (stack incoming : FrameBuffer)
    (hreached : h.Reached sha256 hashes application fates hprovisioned hkeys 0 link) :
    (∃ next, (runSession sha256 hashes h.client workspace stack incoming messages).run
          (h.environment sha256 application fates decapsulate random) link
          = ((.ok, messages.map reply), next) ∧
        (h.wholeConversation hreplies hprovisioned hkeys hfits).Reached fates h.attempts
          (18 + messages.length) next) ∨
      ∃ i next, (runSession sha256 hashes h.client workspace stack incoming messages).run
          (h.environment sha256 application fates decapsulate random) link
          = ((.errIo, (messages.take (i - 18)).map reply), next) ∧
        (h.wholeConversation hreplies hprovisioned hkeys hfits).Broken fates h.attempts i next := by
  unfold runSession
  rcases connect_lossy hready hnonce hrandom workspace stack hreached with
    ⟨middle, hrun, hmiddle⟩ | ⟨next, hrun, i, hbroken⟩
  · rw [Program.run_bind_of hrun]
    simp only [ne_eq, not_true, if_false]
    have hclient : ClientInStep sha256 (h.exchanges sha256 hashes keys messages reply).up
        (h.exchanges sha256 hashes keys messages reply).down h.attempts 0
        (h.connecting.establish keys) :=
      clientInStep_pairExchanges (h.establishedPair sha256 hashes keys start.1)
    have hwhole : (h.wholeConversation hreplies hprovisioned hkeys hfits).Reached fates h.attempts
        (18 + 0) middle := hmiddle.append (Nat.le_refl 18)
    rcases exchangeRecords_lossy hfits rfl
        (fun i _ => Conversation.append_request_right i)
        (fun i _ => Conversation.append_answer_right i) incoming messages rfl hclient hwhole with
      ⟨next, hlast, hend⟩ | ⟨k, next, hlast, hbroken⟩
    · refine .inl ⟨next, hlast, ?_⟩
      rwa [Nat.zero_add] at hend
    · refine .inr ⟨18 + k, next, ?_, ?_⟩
      · rw [Nat.add_sub_cancel_left]
        exact hlast
      · rwa [Nat.zero_add] at hbroken
  · refine .inr ⟨i, next, ?_, hbroken.append⟩
    have hlt := hbroken.lt
    rw [Program.run_bind_of hrun, Nat.sub_eq_zero_of_le (Nat.le_of_lt hlt)]
    rfl

end

end

section

variable (sha256 : Bytes → Block 32) (hashes : Fips203.Hashes) (client : Client)
  (publicKey : Block 800) (serverNonce : Block 16) (random : (length : Nat) → Block length)

/-- A whole session over the lossy link to a peer. -/
def lossySession (application : Application) (decapsulate : Block 768 → Block 32)
    (fates : Nat → Nat → Fate) (peer : Peer) (workspace : Workspace)
    (stack incoming : FrameBuffer) (messages : List Bytes) : (Status × List Bytes) × FrameLink :=
  (runSession sha256 hashes client workspace stack incoming messages).run
    (lossyAnswer (serveFrame sha256 decapsulate application serverNonce) fates random publicKey)
    (.start (peer, []))

variable {hashes client publicKey serverNonce random} {decapsulate : Block 768 → Block 32}
  {peer : Peer} {application : Application} {reply : Bytes → Bytes} {messages : List Bytes}

/-- If every exchange has an attempt that goes through, the client gets the replies to all
messages, and the application was called once for each of them, in order. Else the session
fails at the first exchange without one, and the application was called for the messages
before it, and for its own message exactly when one of its frames has arrived. -/
theorem session_exactlyOnce (hready : client.state = .ready)
    (hprovisioned : Provisioned hashes decapsulate
      (handshakeOf client publicKey serverNonce random) peer)
    (hreplies : Replies application reply) (hlt : messages.length < 2 ^ 64)
    (hmessages : ∀ message ∈ messages, message.length ≤ recordPlaintextMax)
    (fates : Nat → Nat → Fate) (workspace : Workspace) (stack incoming : FrameBuffer) :
    let attempts := client.config.maximumRetries.toNat + 1
    let outcome := lossySession sha256 hashes client publicKey serverNonce random application
      decapsulate fates peer workspace stack incoming messages
    (SucceedsBefore fates attempts (18 + messages.length) →
        outcome.1 = (.ok, messages.map reply) ∧ outcome.2.server.2 = messages) ∧
      ∀ i < 18 + messages.length, SucceedsBefore fates attempts i →
        ¬ Succeeds (fates i) 0 attempts →
          outcome.1 = (.errIo, (messages.take (i - 18)).map reply) ∧
            outcome.2.server.2
              = messages.take (if Arrives (fates i) 0 attempts then i - 17 else i - 18) := by
  intro attempts outcome
  generalize hh : handshakeOf client publicKey serverNonce random = h at hprovisioned
  have hprovisioned' : Provisioned hashes decapsulate h ((peer, []) : Server).1 := hprovisioned
  obtain ⟨keys, hkeys, -⟩ := deriveSessionKeys_eq_client sha256 h.client.config.psk
    (h.sharedSecret hashes) (sha256 (h.transcript hashes))
  have hfits : (h.exchanges sha256 hashes keys messages reply).Fits sha256 :=
    fits_pairExchanges (h.establishedPair sha256 hashes keys peer) hlt hmessages hreplies.fits
  have hstart : h.Reached sha256 hashes application fates hprovisioned' hkeys 0
      (.start (peer, [])) := Conversation.reached_start _ rfl
  have houtcome : outcome
      = (runSession sha256 hashes h.client workspace stack incoming messages).run
      (h.environment sha256 application fates decapsulate random) (.start (peer, [])) := by
    subst hh
    rfl
  have hrun := runSession_lossy hreplies hprovisioned' hkeys hfits (by subst hh; exact hready)
    (by subst hh; rfl) (by subst hh; rfl) workspace stack incoming hstart
  have hattempts : h.attempts = attempts := by
    subst hh
    rfl
  rw [hattempts] at hrun
  have hhanded := handed_wholeConversation hreplies hprovisioned' hkeys hfits
  simp only [List.nil_append] at hhanded
  rcases hrun with ⟨next, hrun, hend⟩ | ⟨i, next, hrun, hbroken⟩
  · rw [houtcome, hrun]
    refine ⟨fun _ => ⟨rfl, ?_⟩, fun i hi _ hfails => absurd (hend.succeeds i hi) hfails⟩
    rw [hend.server, hhanded, Nat.add_sub_cancel_left, List.take_length]
  · rw [houtcome, hrun]
    refine ⟨fun hall => absurd hall (hbroken.not_succeedsBefore hbroken.lt),
      fun j _ hbefore hfails => ?_⟩
    obtain rfl := hbroken.eq_of_first hbefore hfails
    refine ⟨rfl, ?_⟩
    rw [hbroken.server]
    split
    · rw [hhanded, show i + 1 - 18 = i - 17 by omega]
    · exact hhanded i

end

/-! Two messages to an application that echoes them, where every first answer is lost. -/

def echo : Application := fun plaintext => .ok (some (plaintext.take 48))

theorem echo_replies : Replies echo fun plaintext => plaintext.take 48 :=
  ⟨fun _ => rfl, fun _ => List.length_take_le ..⟩

def twoMessages : List Bytes := [[1], [2, 3]]

theorem session_losesFirst :
    let outcome := lossySession zeroDigest zeroHashes readyClient (Block.zero 800) (Block.zero 16)
      (fun length => Block.zero length) echo (fun _ => Block.zero 32) losesFirst provisionedPeer
      (Block.zero 1344) (Block.zero 96) (Block.zero 96) twoMessages
    outcome.1 = (.ok, twoMessages) ∧ outcome.2.server.2 = twoMessages := by
  obtain ⟨hall, -⟩ := session_exactlyOnce zeroDigest rfl zeroHandshake_provisioned echo_replies
    (show twoMessages.length < 2 ^ 64 by decide) (by decide) losesFirst (Block.zero 1344)
    (Block.zero 96) (Block.zero 96)
  exact hall fun _ _ => ⟨1, by decide, rfl⟩

end C0PQLink.Link
