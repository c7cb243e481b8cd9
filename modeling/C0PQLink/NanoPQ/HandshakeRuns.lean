import C0PQLink.Foundation.Interleaving
import C0PQLink.Foundation.Tracing
import C0PQLink.NanoPQ.Handshake
import C0PQLink.NanoPQ.HostPeer

/-!
# Boots and runs over one link

The `establish_session` of the firmware and that of the host peer, with marks at the
frames they make and the tags they check, and their interleaving over a link on which an
attacker decides what every read yields.

* `markedDevice_erase`, `markedPeer_erase`: without the marks they are the functions of
  `Firmware` and `HostPeer`.
* `released`: the HMACs whose outputs the frames of a mark carry.
* `MarkAllowed`: HMAC-SHA-256 as an ideal function, SHA-256 without collisions.
* `HandshakeReached`: the histories that boots and runs can produce, in any order.
-/

namespace C0PQLink.NanoPQ

open Foundation Program

variable (sha256 : Bytes → Block 32)

/-! ## Marks -/

/-- What the two ends do, apart from their calls. The device marks carry the epoch of the
boot, the peer marks the number of the run. `presented` is a received tag that is about to
be compared with the HMAC of a message, `hashed` an input of SHA-256. -/
inductive HandshakeMark where
  | boot (bootEpoch : UInt32)
  | run (number : Nat)
  | presented (tag : Bytes) (key : Block 32) (message : Bytes)
  | hashed (input : Bytes)
  | deviceHello (bootEpoch : UInt32) (hello : Block 48)
  | deviceFinished (bootEpoch : UInt32) (hello : Block 48) (challenge : Block 60)
      (finished : Block 24)
  | deviceEstablished (bootEpoch : UInt32) (hello : Block 48) (challenge : Block 60)
      (session : NpqSession)
  | peerChallenge (number : Nat) (hello : Block 48) (challenge : Block 60)
  | peerSession (number : Nat) (hello : Block 48) (challenge : Block 60) (session : NpqSession)
  | peerAccepted (number : Nat) (hello : Block 48) (challenge : Block 60) (finished : Block 24)
  | peerStored (number : Nat) (bootEpoch : UInt32)
  | peerFinished (number : Nat) (hello : Block 48) (challenge : Block 60)
  | peerEstablished (number : Nat) (bootEpoch : UInt32) (hello : Block 48) (challenge : Block 60)
      (session : NpqSession)
  deriving DecidableEq

/-- The message of an HMAC with a label. -/
def macMessage (label : String) (data : Bytes) : Bytes := ascii label ++ [0] ++ data

def transcriptInput (hello : Block 48) (challenge : Block 60) : Bytes :=
  ascii "NPQ/1 transcript" ++ hello.val ++ challenge.val

/-- The message of the tag in a Finished frame. -/
def finishedMessage (frameType : UInt8) (hello : Block 48) (challenge : Block 60) : Bytes :=
  macMessage (finishedTagLabel frameType)
    (finishedCore frameType challenge ++ (transcriptHash sha256 hello challenge).val)

/-! ## The device -/

abbrev MarkedDevice := Program (BoardCall ⊕ HandshakeMark) (MarkedReply BoardReply HandshakeMark)

abbrev onDevice {α : Type} (p : Firmware α) : MarkedDevice α := p.lift HandshakeMark

def markedDevice (flash : Provisioning) (bootEpoch : UInt32) :
    MarkedDevice (Option NpqSession) := do
  onDevice (.perform (BoardCall.makeHello bootEpoch))
  match npqMakeHello sha256 flash.deviceRoot flash.deviceId bootEpoch with
  | .error _ => return none
  | .ok hello =>
    mark (.deviceHello bootEpoch hello)
    onDevice (uartSendFrame hello.val)
    let frame := (← onDevice uartReadFrame).getD []
    if hchallenge : frame.length = 60 then
      let challenge : Block 60 := ⟨frame, hchallenge⟩
      mark (.presented (slice frame 44 16) flash.deviceRoot
        (macMessage "NPQ/1 challenge" (slice frame 0 44)))
      if npqVerifyChallenge sha256 challenge flash.deviceRoot hello ≠ .ok then return none
      mark (.hashed (transcriptInput hello challenge))
      match npqDeriveSession sha256 npqRoleDevice flash.deviceRoot hello challenge,
          npqMakeFinished sha256 npqFrameClientFinished flash.deviceRoot hello challenge with
      | .ok session, .ok finished =>
        mark (.deviceFinished bootEpoch hello challenge finished)
        onDevice (uartSendFrame finished.val)
        let frame := (← onDevice uartReadFrame).getD []
        if hfinished : frame.length = 24 then
          mark (.presented (slice frame 8 16)
            (finishedKey sha256 npqFrameServerFinished flash.deviceRoot hello challenge)
            (finishedMessage sha256 npqFrameServerFinished hello challenge))
          if npqVerifyFinished sha256 ⟨frame, hfinished⟩ npqFrameServerFinished flash.deviceRoot
              hello challenge ≠ .ok then return none
          mark (.deviceEstablished bootEpoch hello challenge session)
          return some session
        else return none
      | _, _ => return none
    else return none

theorem markedDevice_erase (flash : Provisioning) (bootEpoch : UInt32) :
    (markedDevice sha256 flash bootEpoch).erase = establishSession sha256 flash bootEpoch := by
  unfold markedDevice establishSession handshake
  rw [erase_bind, erase_lift]
  congr 1
  funext _
  cases npqMakeHello sha256 flash.deviceRoot flash.deviceId bootEpoch with
  | error failure => rfl
  | ok hello =>
    simp only [erase_bind, erase_mark, erase_lift, erase_dite, erase_ite, erase_pure, pure_bind]
    congr 1
    funext _
    congr 1
    funext frame
    congr 1
    funext hchallenge
    congr 1
    rcases npqDeriveSession sha256 npqRoleDevice flash.deviceRoot hello
      ⟨frame.getD [], hchallenge⟩ with failure | session
    · rfl
    rcases npqMakeFinished sha256 npqFrameClientFinished flash.deviceRoot hello
      ⟨frame.getD [], hchallenge⟩ with failure | finished
    · rfl
    simp only [erase_bind, erase_mark, erase_lift, erase_dite, erase_ite, erase_pure, pure_bind]

/-! ## The peer -/

abbrev MarkedPeer := Program (PeerCall ⊕ HandshakeMark) (MarkedReply PeerReply HandshakeMark)

abbrev onPeer {α : Type} (p : HostPeer α) : MarkedPeer α := p.lift HandshakeMark

def markedConfirm (number : Nat) (options : PeerOptions) (hello : Block 48) (bootEpoch : UInt32) :
    MarkedPeer (Option NpqSession) := do
  match ← onPeer (.perform (PeerCall.random 16)) with
  | none => return none
  | some serverNonce =>
    match npqMakeChallenge sha256 demoRootKey hello serverNonce with
    | .error _ => return none
    | .ok challenge =>
      mark (.peerChallenge number hello challenge)
      if ← onPeer (writeFrame challenge.val) then
        mark (.hashed (transcriptInput hello challenge))
        match npqDeriveSession sha256 npqRoleServer demoRootKey hello challenge with
        | .error _ => return none
        | .ok session =>
          mark (.peerSession number hello challenge session)
          let frame := (← onPeer readProtocolFrame).getD []
          if hfinished : frame.length = 24 then
            mark (.presented (slice frame 8 16)
              (finishedKey sha256 npqFrameClientFinished demoRootKey hello challenge)
              (finishedMessage sha256 npqFrameClientFinished hello challenge))
            if npqVerifyFinished sha256 ⟨frame, hfinished⟩ npqFrameClientFinished demoRootKey
                hello challenge ≠ .ok then return none
            mark (.peerAccepted number hello challenge ⟨frame, hfinished⟩)
            if ← onPeer (storeLatestEpoch options bootEpoch) then
              mark (.peerStored number bootEpoch)
              match npqMakeFinished sha256 npqFrameServerFinished demoRootKey hello challenge with
              | .error _ => return none
              | .ok finished =>
                onPeer (.perform (PeerCall.serverFinished bootEpoch))
                mark (.peerFinished number hello challenge)
                if ← onPeer (writeFrame finished.val) then
                  onPeer (.perform (PeerCall.established bootEpoch))
                  mark (.peerEstablished number bootEpoch hello challenge session)
                  return some session
                else return none
            else return none
          else return none
      else return none

theorem markedConfirm_erase (number : Nat) (options : PeerOptions) (hello : Block 48)
    (bootEpoch : UInt32) : (markedConfirm sha256 number options hello bootEpoch).erase
      = confirmSession sha256 options hello bootEpoch := by
  unfold markedConfirm confirmSession
  rw [erase_bind, erase_lift]
  congr 1
  funext nonce
  cases nonce with
  | none => rfl
  | some serverNonce =>
    simp only
    cases npqMakeChallenge sha256 demoRootKey hello serverNonce with
    | error failure => rfl
    | ok challenge =>
      simp only [erase_bind, erase_mark, erase_lift, erase_ite, erase_pure, pure_bind]
      congr 1
      funext written
      congr 1
      cases npqDeriveSession sha256 npqRoleServer demoRootKey hello challenge with
      | error failure => rfl
      | ok session =>
        simp only [erase_bind, erase_mark, erase_lift, erase_dite, erase_ite, erase_pure, pure_bind]
        congr 1
        funext frame
        congr 1
        funext hfinished
        congr 1
        congr 1
        funext stored
        congr 1
        cases npqMakeFinished sha256 npqFrameServerFinished demoRootKey hello challenge with
        | error failure => rfl
        | ok finished =>
          simp only [erase_bind, erase_mark, erase_lift, erase_ite, erase_pure, pure_bind]

def markedPeer (number : Nat) (options : PeerOptions) (hello : Block 48) :
    MarkedPeer (Option NpqSession) := do
  mark (.presented (slice hello.val 32 16) demoRootKey
    (macMessage "NPQ/1 hello" (slice hello.val 0 32)))
  if npqVerifyHello sha256 hello demoRootKey ≠ .ok
      ∨ slice hello.val 4 8 ≠ demoDeviceId.val then return none
  let bootEpoch := load32BE (slice hello.val 12 4)
  onPeer (.perform (PeerCall.hello bootEpoch))
  let latestEpoch ← onPeer loadLatestEpoch
  if bootEpoch ≤ latestEpoch then return none
  markedConfirm sha256 number options hello bootEpoch

theorem markedPeer_erase (number : Nat) (options : PeerOptions) (hello : Block 48) :
    (markedPeer sha256 number options hello).erase = establishPeerSession sha256 options hello := by
  unfold markedPeer establishPeerSession
  simp only [erase_bind, erase_mark, erase_lift, erase_ite, erase_pure, pure_bind,
    markedConfirm_erase]

/-! ## The link -/

/-- The HMACs, as key and message, whose outputs an end puts into the frame of a mark. -/
def released (flash : Provisioning) : HandshakeMark → List (Block 32 × Bytes)
  | .deviceHello bootEpoch hello =>
    [(flash.deviceRoot, macMessage "NPQ/1 client nonce" (flash.deviceId.val ++ store32BE bootEpoch)),
      (flash.deviceRoot, macMessage "NPQ/1 hello" (slice hello.val 0 32))]
  | .deviceFinished _ hello challenge _ =>
    [(finishedKey sha256 npqFrameClientFinished flash.deviceRoot hello challenge,
      finishedMessage sha256 npqFrameClientFinished hello challenge)]
  | .peerChallenge _ _ challenge =>
    [(demoRootKey, macMessage "NPQ/1 session id" (slice challenge.val 0 40)),
      (demoRootKey, macMessage "NPQ/1 challenge" (slice challenge.val 0 44))]
  | .peerFinished _ hello challenge =>
    [(finishedKey sha256 npqFrameServerFinished demoRootKey hello challenge,
      finishedMessage sha256 npqFrameServerFinished hello challenge)]
  | _ => []

/-- What has happened, the last mark first. -/
abbrev History := List HandshakeMark

/-- A tag is only presented for a message whose HMAC an end has released, and no two
hashed inputs have one digest. -/
def MarkAllowed (flash : Provisioning) (history : History) : HandshakeMark → Prop
  | .presented tag key message =>
    tag = (digest16 (hmacSha256 sha256 key.val message)).val →
      ∃ earlier ∈ history, (key, message) ∈ released sha256 flash earlier
  | .hashed input => ∀ input', .hashed input' ∈ history → sha256 input' = sha256 input →
      input' = input
  | _ => True

/-- The answers on the device. Every boot has an epoch of its own. -/
def deviceStep (flash : Provisioning) : (e : BoardCall ⊕ HandshakeMark) → History →
    MarkedReply BoardReply HandshakeMark e → History → Prop
  | .inl (.makeHello bootEpoch), history, _, history' =>
    .boot bootEpoch ∉ history ∧ history' = .boot bootEpoch :: history
  | .inl _, history, _, history' => history' = history
  | .inr mark, history, _, history' =>
    MarkAllowed sha256 flash history mark ∧ history' = mark :: history

def peerStep (flash : Provisioning) : (e : PeerCall ⊕ HandshakeMark) → History →
    MarkedReply PeerReply HandshakeMark e → History → Prop
  | .inl _, history, _, history' => history' = history
  | .inr mark, history, _, history' =>
    MarkAllowed sha256 flash history mark ∧ history' = mark :: history

/-- The device, and any number of runs of the peer. -/
inductive HandshakeThread where
  | device
  | peer (number : Nat)
  deriving DecidableEq

abbrev HandshakeThread.Call : HandshakeThread → Type
  | .device => BoardCall ⊕ HandshakeMark
  | .peer _ => PeerCall ⊕ HandshakeMark

abbrev HandshakeThread.Reply : (i : HandshakeThread) → i.Call → Type
  | .device => MarkedReply BoardReply HandshakeMark
  | .peer _ => MarkedReply PeerReply HandshakeMark

def handshakeStep (flash : Provisioning) : (i : HandshakeThread) → (e : i.Call) → History →
    i.Reply e → History → Prop
  | .device => deviceStep sha256 flash
  | .peer _ => peerStep sha256 flash

/-- A boot enters `establish_session`, at any time and with any epoch; a run of the peer has
read any hello. -/
def handshakeStart (flash : Provisioning) : (i : HandshakeThread) → History →
    Program i.Call i.Reply (Option NpqSession) → History → Prop
  | .device, history, p, history' =>
    history' = history ∧ ∃ bootEpoch, p = markedDevice sha256 flash bootEpoch
  | .peer number, history, p, history' =>
    .run number ∉ history ∧ history' = .run number :: history ∧
      ∃ options hello, p = markedPeer sha256 number options hello

abbrev HandshakePool := Pool HandshakeThread.Reply (fun _ => Option NpqSession) History

def idlePool : HandshakePool := ⟨fun _ => .done none, []⟩

def HandshakeReached (flash : Provisioning) (history : History) : Prop :=
  ∃ pool : HandshakePool, pool.state = history ∧
    Relation.ReflTransGen (PoolStep (handshakeStep sha256 flash) (handshakeStart sha256 flash))
      idlePool pool

end C0PQLink.NanoPQ
