import C0PQLink.NanoPQ.Protocol

/-!
# The NanoPQ handshake

The make and verify functions of the handshake, matched with each other.

* `npqMakeHello_eq`, `npqMakeChallenge_eq`, `npqMakeFinished_eq`: the frames as
  concatenations of their fields.
* `npqVerifyHello_iff`, `npqVerifyChallenge_iff`, `npqVerifyFinished_iff`: what a frame that
  is accepted looks like.
* `npqHandshake_complete`: the honest handshake goes through, and both roles derive the same
  session.
-/

namespace C0PQLink.NanoPQ

open Foundation

variable (sha256 : Bytes → Block 32)

/-! ## Tags -/

/-- The 16 bytes of a tag under a label. -/
def labelTag (key : Block 32) (label : String) (data : Bytes) : Block 16 :=
  digest16 (hmacSha256 sha256 key.val (ascii label ++ [0] ++ data))

theorem hmacLabel_eq (key : Block 32) {label : String} {data : Bytes}
    (hlabel : (ascii label).length ≤ 24) (hdata : data.length ≤ 64) :
    hmacLabel sha256 key label data
      = .ok (hmacSha256 sha256 key.val (ascii label ++ [0] ++ data)) := by
  have hfits : ¬ ((ascii label).length > 24 ∨ data.length > npqFrameMaxBytes) := by
    simp only [npqFrameMaxBytes]
    omega
  rw [hmacLabel, if_neg hfits]

theorem hmacLabel_tag (key : Block 32) {label : String} {data : Bytes}
    (hlabel : (ascii label).length ≤ 24) (hdata : data.length ≤ 64) :
    (discardNpq (hmacLabel sha256 key label data)).val.take 16
      = (labelTag sha256 key label data).val := by
  rw [hmacLabel_eq sha256 key hlabel hdata]
  rfl

theorem verifyMac16_iff (tag : Bytes) (key : Block 32) {label : String} {data : Bytes}
    (hlabel : (ascii label).length ≤ 24) (hdata : data.length ≤ 64) :
    verifyMac16 sha256 tag key label data = .ok ↔ tag = (labelTag sha256 key label data).val := by
  rw [verifyMac16, hmacLabel_eq sha256 key hlabel hdata]
  change (if tag = (labelTag sha256 key label data).val then NpqStatus.ok else .errAuth) = .ok ↔ _
  split
  · simp_all
  · simp_all

theorem validHeader_iff {frame : Bytes} {type : UInt8} (h : 4 ≤ frame.length) :
    validHeader frame type = true ↔ slice frame 0 4 = makeHeader type := by
  match frame, h with
  | a :: b :: c :: d :: rest, _ =>
    simp [validHeader, makeHeader, slice, byteAt]

/-- A byte string that begins with two fields of known lengths. -/
theorem slice_head {a b : Bytes} {n : Nat} (h : a.length = n) : slice (a ++ b) 0 n = a := by
  rw [slice_append_left (by omega), slice_self a h]

/-! ## The hello -/

def clientNonce (rootKey : Block 32) (deviceId : Block 8) (bootEpoch : UInt32) : Block 16 :=
  labelTag sha256 rootKey "NPQ/1 client nonce" (deviceId.val ++ store32BE bootEpoch)

def helloCore (deviceId : Block 8) (bootEpoch : UInt32) (nonce : Block 16) : Block 32 :=
  ⟨makeHeader npqFrameHello ++ deviceId.val ++ store32BE bootEpoch ++ nonce.val, by
    simp [makeHeader]⟩

/-- The hello that the device makes in the boot with the given epoch. -/
def deviceHello (rootKey : Block 32) (deviceId : Block 8) (bootEpoch : UInt32) : Block 48 :=
  let core := helloCore deviceId bootEpoch (clientNonce sha256 rootKey deviceId bootEpoch)
  ⟨core.val ++ (labelTag sha256 rootKey "NPQ/1 hello" core.val).val, by simp⟩

theorem npqMakeHello_eq (rootKey : Block 32) (deviceId : Block 8) {bootEpoch : UInt32}
    (h : bootEpoch ≠ 0) :
    npqMakeHello sha256 rootKey deviceId bootEpoch
      = .ok (deviceHello sha256 rootKey deviceId bootEpoch) := by
  have hnonce := hmacLabel_tag sha256 rootKey
    (show (ascii "NPQ/1 client nonce").length ≤ 24 by decide)
    (show (deviceId.val ++ store32BE bootEpoch).length ≤ 64 by simp)
  have htag := hmacLabel_tag sha256 rootKey (show (ascii "NPQ/1 hello").length ≤ 24 by decide)
    (show (helloCore deviceId bootEpoch (clientNonce sha256 rootKey deviceId bootEpoch)).val.length
      ≤ 64 by simp)
  rw [npqMakeHello, if_neg h]
  refine congrArg Except.ok (Block.ext ?_)
  simp only [hnonce]
  exact congrArg (_ ++ ·) htag

/-- The fields of a hello. -/
def helloEpoch (hello : Block 48) : UInt32 := load32BE (slice hello.val 12 4)

def helloNonce (hello : Block 48) : Bytes := slice hello.val 16 16

theorem npqVerifyHello_iff (hello : Block 48) (rootKey : Block 32) :
    npqVerifyHello sha256 hello rootKey = .ok ↔
      slice hello.val 0 4 = makeHeader npqFrameHello ∧ helloEpoch hello ≠ 0 ∧
        slice hello.val 32 16
          = (labelTag sha256 rootKey "NPQ/1 hello" (slice hello.val 0 32)).val := by
  have hmac := verifyMac16_iff sha256 (slice hello.val 32 16) rootKey
    (show (ascii "NPQ/1 hello").length ≤ 24 by decide)
    (show (slice hello.val 0 32).length ≤ 64 by simp)
  have hheader : validHeader hello.val npqFrameHello = true ↔ _ := validHeader_iff (by simp)
  unfold npqVerifyHello
  split
  · rename_i h
    refine ⟨nofun, fun hok => ?_⟩
    rcases h with h | h
    · exact absurd (hheader.mpr hok.1) h
    · exact absurd h hok.2.1
  · rename_i h
    rw [not_or, not_not] at h
    rw [hmac]
    exact ⟨fun hok => ⟨hheader.mp h.1, h.2, hok⟩, fun hok => hok.2.2⟩

section

variable (rootKey : Block 32) (deviceId : Block 8) (bootEpoch : UInt32)

theorem deviceHello_core :
    slice (deviceHello sha256 rootKey deviceId bootEpoch).val 0 32
      = (helloCore deviceId bootEpoch (clientNonce sha256 rootKey deviceId bootEpoch)).val :=
  slice_head (Block.length_val _)

theorem deviceHello_epoch_bytes :
    slice (deviceHello sha256 rootKey deviceId bootEpoch).val 12 4 = store32BE bootEpoch := by
  rw [deviceHello, slice_append_left (by simp), helloCore]
  exact slice_field (by simp [makeHeader]) (by simp)

theorem deviceHello_epoch :
    helloEpoch (deviceHello sha256 rootKey deviceId bootEpoch) = bootEpoch := by
  rw [helloEpoch, deviceHello_epoch_bytes, load32BE_store32BE]

theorem deviceHello_verified (h : bootEpoch ≠ 0) :
    npqVerifyHello sha256 (deviceHello sha256 rootKey deviceId bootEpoch) rootKey = .ok := by
  rw [npqVerifyHello_iff, deviceHello_epoch, deviceHello_core]
  refine ⟨?_, h, slice_last (Block.length_val _) (Block.length_val _)⟩
  rw [deviceHello, slice_append_left (by simp), helloCore]
  simp only [List.append_assoc]
  exact slice_head rfl

end

/-! ## The challenge -/

/-- The first 40 bytes of the challenge for a hello. -/
def challengeHead (hello : Block 48) (serverNonce : Block 16) : Bytes :=
  makeHeader npqFrameChallenge ++ slice hello.val 12 4 ++ slice hello.val 16 16 ++ serverNonce.val

def challengeSessionId (rootKey : Block 32) (hello : Block 48) (serverNonce : Block 16) : Bytes :=
  (labelTag sha256 rootKey "NPQ/1 session id" (challengeHead hello serverNonce)).val.take 4

/-- The challenge that the peer makes for a hello. -/
def peerChallenge (rootKey : Block 32) (hello : Block 48) (serverNonce : Block 16) : Block 60 :=
  let core := challengeHead hello serverNonce ++ challengeSessionId sha256 rootKey hello serverNonce
  ⟨core ++ (labelTag sha256 rootKey "NPQ/1 challenge" core).val, by
    simp [core, challengeHead, challengeSessionId, makeHeader]⟩

theorem npqMakeChallenge_eq {rootKey : Block 32} {hello : Block 48}
    (h : npqVerifyHello sha256 hello rootKey = .ok) (serverNonce : Block 16) :
    npqMakeChallenge sha256 rootKey hello serverNonce
      = .ok (peerChallenge sha256 rootKey hello serverNonce) := by
  have hlength : (challengeHead hello serverNonce).length = 40 := by
    simp [challengeHead, makeHeader]
  have hid := hmacLabel_tag sha256 rootKey
    (show (ascii "NPQ/1 session id").length ≤ 24 by decide)
    (show (challengeHead hello serverNonce).length ≤ 64 by omega)
  have htag := hmacLabel_tag sha256 rootKey (show (ascii "NPQ/1 challenge").length ≤ 24 by decide)
    (show (challengeHead hello serverNonce
      ++ challengeSessionId sha256 rootKey hello serverNonce).length ≤ 64 by
      simp [challengeSessionId, hlength])
  have htake : (discardNpq (hmacLabel sha256 rootKey "NPQ/1 session id"
      (challengeHead hello serverNonce))).val.take 4
      = challengeSessionId sha256 rootKey hello serverNonce := by
    rw [challengeSessionId, ← hid, List.take_take]
    rfl
  rw [npqMakeChallenge, h]
  refine congrArg Except.ok (Block.ext ?_)
  have hhead : makeHeader npqFrameChallenge ++ slice hello.val 12 4 ++ slice hello.val 16 16
      ++ serverNonce.val = challengeHead hello serverNonce := rfl
  simp only [hhead, htake, htag]
  rfl

theorem npqMakeChallenge_failed {rootKey : Block 32} {hello : Block 48}
    (h : npqVerifyHello sha256 hello rootKey ≠ .ok) (serverNonce : Block 16) :
    npqMakeChallenge sha256 rootKey hello serverNonce
      = .error (npqVerifyHello sha256 hello rootKey) := by
  rw [npqMakeChallenge]
  split
  · contradiction
  · rfl

theorem npqVerifyChallenge_iff (challenge : Block 60) (rootKey : Block 32) (hello : Block 48) :
    npqVerifyChallenge sha256 challenge rootKey hello = .ok ↔
      slice challenge.val 0 4 = makeHeader npqFrameChallenge ∧
        slice challenge.val 4 4 = slice hello.val 12 4 ∧
        slice challenge.val 8 16 = slice hello.val 16 16 ∧
        slice challenge.val 44 16
          = (labelTag sha256 rootKey "NPQ/1 challenge" (slice challenge.val 0 44)).val := by
  have hmac := verifyMac16_iff sha256 (slice challenge.val 44 16) rootKey
    (show (ascii "NPQ/1 challenge").length ≤ 24 by decide)
    (show (slice challenge.val 0 44).length ≤ 64 by simp)
  have hheader : validHeader challenge.val npqFrameChallenge = true ↔ _ :=
    validHeader_iff (by simp)
  unfold npqVerifyChallenge
  split
  · rename_i h
    refine ⟨nofun, fun hok => ?_⟩
    rcases h with h | h | h
    · exact absurd (hheader.mpr hok.1) h
    · exact absurd hok.2.1 h
    · exact absurd hok.2.2.1 h
  · rename_i h
    rw [not_or, not_or, not_not, not_not, not_not] at h
    rw [hmac]
    exact ⟨fun hok => ⟨hheader.mp h.1, h.2.1, h.2.2, hok⟩, fun hok => hok.2.2.2⟩

theorem length_challengeHead (hello : Block 48) (serverNonce : Block 16) :
    (challengeHead hello serverNonce).length = 40 := by
  simp [challengeHead, makeHeader]

theorem length_challengeSessionId (rootKey : Block 32) (hello : Block 48)
    (serverNonce : Block 16) :
    (challengeSessionId sha256 rootKey hello serverNonce).length = 4 := by
  simp [challengeSessionId]

section

variable (rootKey : Block 32) (hello : Block 48) (serverNonce : Block 16)

theorem peerChallenge_core :
    slice (peerChallenge sha256 rootKey hello serverNonce).val 0 44
      = challengeHead hello serverNonce ++ challengeSessionId sha256 rootKey hello serverNonce :=
  slice_head (by rw [List.length_append, length_challengeHead, length_challengeSessionId])

theorem peerChallenge_head {start len : Nat} (h : start + len ≤ 40) :
    slice (peerChallenge sha256 rootKey hello serverNonce).val start len
      = slice (challengeHead hello serverNonce) start len := by
  have hhead := length_challengeHead hello serverNonce
  have hval : (peerChallenge sha256 rootKey hello serverNonce).val
      = challengeHead hello serverNonce ++ (_ ++ _) := List.append_assoc ..
  rw [hval, slice_append_left (by omega)]

theorem challengeHead_echo :
    slice (challengeHead hello serverNonce) 0 4 = makeHeader npqFrameChallenge ∧
      slice (challengeHead hello serverNonce) 4 4 = slice hello.val 12 4 ∧
      slice (challengeHead hello serverNonce) 8 16 = slice hello.val 16 16 ∧
      slice (challengeHead hello serverNonce) 24 16 = serverNonce.val := by
  refine ⟨?_, ?_, ?_, ?_⟩
  · simp only [challengeHead, List.append_assoc]
    exact slice_head rfl
  · rw [challengeHead, slice_append_left (by simp [makeHeader])]
    exact slice_field rfl (by simp)
  · rw [challengeHead]
    exact slice_field (by simp [makeHeader]) (by simp)
  · exact slice_last (by simp [makeHeader]) (by simp)

theorem peerChallenge_verified :
    npqVerifyChallenge sha256 (peerChallenge sha256 rootKey hello serverNonce) rootKey hello
      = .ok := by
  obtain ⟨hheader, hepoch, hnonce, -⟩ := challengeHead_echo hello serverNonce
  rw [npqVerifyChallenge_iff, peerChallenge_core, peerChallenge_head sha256 _ _ _ (by omega),
    peerChallenge_head sha256 _ _ _ (by omega), peerChallenge_head sha256 _ _ _ (by omega)]
  refine ⟨hheader, hepoch, hnonce, slice_last ?_ (Block.length_val _)⟩
  rw [List.length_append, length_challengeHead, length_challengeSessionId]

end

/-! ## The derived session and Finished -/

theorem deriveTranscriptPrk_eq {rootKey : Block 32} {hello : Block 48} {challenge : Block 60}
    (hhello : npqVerifyHello sha256 hello rootKey = .ok)
    (hchallenge : npqVerifyChallenge sha256 challenge rootKey hello = .ok) :
    deriveTranscriptPrk sha256 rootKey hello challenge
      = .ok (transcriptHash sha256 hello challenge,
          sessionPrk sha256 rootKey (transcriptHash sha256 hello challenge)) := by
  rw [deriveTranscriptPrk, hhello]
  simp only [hchallenge]

/-- A hello and a challenge that are not both accepted give no session. -/
theorem deriveTranscriptPrk_failed {rootKey : Block 32} {hello : Block 48} {challenge : Block 60}
    (h : ¬ (npqVerifyHello sha256 hello rootKey = .ok ∧
      npqVerifyChallenge sha256 challenge rootKey hello = .ok)) :
    ∃ failure, failure ≠ .ok ∧
      deriveTranscriptPrk sha256 rootKey hello challenge = .error failure := by
  unfold deriveTranscriptPrk
  split
  · rename_i hhello
    split
    · rename_i hchallenge
      exact absurd ⟨hhello, hchallenge⟩ h
    · rename_i hchallenge
      exact ⟨_, hchallenge, rfl⟩
  · rename_i hhello
    exact ⟨_, hhello, rfl⟩

/-- The session of the device, from an accepted hello and challenge. -/
def deviceSession (rootKey : Block 32) (hello : Block 48) (challenge : Block 60) : NpqSession :=
  let transcript := transcriptHash sha256 hello challenge
  let prk := sessionPrk sha256 rootKey transcript
  let expand := fun label => discardNpq (hkdfExpandLabel sha256 prk label transcript)
  { sendChain := expand "NPQ/1 client chain"
    receiveChain := expand "NPQ/1 server chain"
    sendNonceBase := digest16 (expand "NPQ/1 client nonce")
    receiveNonceBase := digest16 (expand "NPQ/1 server nonce")
    sessionId := load32BE (slice challenge.val 40 4)
    bootEpoch := helloEpoch hello
    sendSequence := 0
    receiveSequence := 0
    established := 1 }

/-- The session of the other end. -/
def NpqSession.mirrored (session : NpqSession) : NpqSession :=
  { session with
    sendChain := session.receiveChain
    receiveChain := session.sendChain
    sendNonceBase := session.receiveNonceBase
    receiveNonceBase := session.sendNonceBase }

section

variable (session : NpqSession)

@[simp] theorem mirrored_sessionId : session.mirrored.sessionId = session.sessionId := rfl

@[simp] theorem mirrored_bootEpoch : session.mirrored.bootEpoch = session.bootEpoch := rfl

@[simp] theorem mirrored_chains : session.mirrored.sendChain = session.receiveChain ∧
    session.mirrored.receiveChain = session.sendChain := ⟨rfl, rfl⟩

@[simp] theorem mirrored_nonceBases :
    session.mirrored.sendNonceBase = session.receiveNonceBase ∧
      session.mirrored.receiveNonceBase = session.sendNonceBase := ⟨rfl, rfl⟩

@[simp] theorem mirrored_sequences :
    session.mirrored.sendSequence = session.sendSequence ∧
      session.mirrored.receiveSequence = session.receiveSequence := ⟨rfl, rfl⟩

end

section

variable {rootKey : Block 32} {hello : Block 48} {challenge : Block 60}

@[simp] theorem deviceSession_bootEpoch :
    (deviceSession sha256 rootKey hello challenge).bootEpoch = helloEpoch hello := rfl

@[simp] theorem deviceSession_sequences :
    (deviceSession sha256 rootKey hello challenge).sendSequence = 0 ∧
      (deviceSession sha256 rootKey hello challenge).receiveSequence = 0 := ⟨rfl, rfl⟩

variable (hhello : npqVerifyHello sha256 hello rootKey = .ok)
variable (hchallenge : npqVerifyChallenge sha256 challenge rootKey hello = .ok)
include hhello hchallenge

theorem npqDeriveSession_device :
    npqDeriveSession sha256 npqRoleDevice rootKey hello challenge
      = .ok (deviceSession sha256 rootKey hello challenge) := by
  rw [npqDeriveSession, if_neg (by decide), deriveTranscriptPrk_eq sha256 hhello hchallenge]
  rfl

theorem npqDeriveSession_server :
    npqDeriveSession sha256 npqRoleServer rootKey hello challenge
      = .ok (deviceSession sha256 rootKey hello challenge).mirrored := by
  rw [npqDeriveSession, if_neg (by decide), deriveTranscriptPrk_eq sha256 hhello hchallenge]
  rfl

end

/-- The first eight bytes of a Finished frame. -/
def finishedCore (frameType : UInt8) (challenge : Block 60) : Bytes :=
  makeHeader frameType ++ slice challenge.val 40 4

def finishedKey (frameType : UInt8) (rootKey : Block 32) (hello : Block 48)
    (challenge : Block 60) : Block 32 :=
  let transcript := transcriptHash sha256 hello challenge
  discardNpq (hkdfExpandLabel sha256 (sessionPrk sha256 rootKey transcript)
    (finishedKeyLabel frameType) transcript)

/-- The Finished frame of the given type. -/
def finishedFrame (frameType : UInt8) (rootKey : Block 32) (hello : Block 48)
    (challenge : Block 60) : Block 24 :=
  let core := finishedCore frameType challenge
  ⟨core ++ (labelTag sha256 (finishedKey sha256 frameType rootKey hello challenge)
    (finishedTagLabel frameType)
    (core ++ (transcriptHash sha256 hello challenge).val)).val, by
    simp [core, finishedCore, makeHeader]⟩

theorem length_finishedCore (frameType : UInt8) (challenge : Block 60) :
    (finishedCore frameType challenge).length = 8 := by
  simp [finishedCore, makeHeader]

theorem npqMakeFinished_eq {frameType : UInt8} {rootKey : Block 32} {hello : Block 48}
    {challenge : Block 60}
    (htype : frameType = npqFrameClientFinished ∨ frameType = npqFrameServerFinished)
    (hhello : npqVerifyHello sha256 hello rootKey = .ok)
    (hchallenge : npqVerifyChallenge sha256 challenge rootKey hello = .ok) :
    npqMakeFinished sha256 frameType rootKey hello challenge
      = .ok (finishedFrame sha256 frameType rootKey hello challenge) := by
  have hlabel : (ascii (finishedTagLabel frameType)).length ≤ 24 := by
    rcases htype with rfl | rfl <;> decide
  have htag := hmacLabel_tag sha256 (finishedKey sha256 frameType rootKey hello challenge) hlabel
    (show (finishedCore frameType challenge
      ++ (transcriptHash sha256 hello challenge).val).length ≤ 64 by
      simp [length_finishedCore])
  have hknown : ¬ (frameType ≠ npqFrameClientFinished ∧ frameType ≠ npqFrameServerFinished) := by
    rcases htype with h | h
    · exact fun hne => hne.1 h
    · exact fun hne => hne.2 h
  rw [npqMakeFinished, if_neg hknown, deriveTranscriptPrk_eq sha256 hhello hchallenge]
  refine congrArg Except.ok (Block.ext ?_)
  exact congrArg (finishedCore frameType challenge ++ ·) htag

theorem npqMakeFinished_cases (frameType : UInt8) (rootKey : Block 32) (hello : Block 48)
    (challenge : Block 60) :
    (npqVerifyHello sha256 hello rootKey = .ok ∧
        npqVerifyChallenge sha256 challenge rootKey hello = .ok ∧
        npqMakeFinished sha256 frameType rootKey hello challenge
          = .ok (finishedFrame sha256 frameType rootKey hello challenge)) ∨
      ∃ failure, failure ≠ .ok ∧
        npqMakeFinished sha256 frameType rootKey hello challenge = .error failure := by
  by_cases htype : frameType = npqFrameClientFinished ∨ frameType = npqFrameServerFinished
  · by_cases h : npqVerifyHello sha256 hello rootKey = .ok ∧
        npqVerifyChallenge sha256 challenge rootKey hello = .ok
    · exact .inl ⟨h.1, h.2, npqMakeFinished_eq sha256 htype h.1 h.2⟩
    · obtain ⟨failure, hne, hfailed⟩ := deriveTranscriptPrk_failed sha256 h
      refine .inr ⟨failure, hne, ?_⟩
      rw [npqMakeFinished, if_neg (by tauto), hfailed]
  · refine .inr ⟨.errArgument, nofun, ?_⟩
    rw [npqMakeFinished, if_pos (not_or.mp htype)]

/-- A Finished frame is accepted if and only if it is the one that is made. -/
theorem npqVerifyFinished_iff (frame : Block 24) (expectedType : UInt8) (rootKey : Block 32)
    (hello : Block 48) (challenge : Block 60) :
    npqVerifyFinished sha256 frame expectedType rootKey hello challenge = .ok ↔
      npqMakeFinished sha256 expectedType rootKey hello challenge = .ok frame := by
  have hheader : validHeader frame.val expectedType = true ↔ _ := validHeader_iff (by simp)
  have hsplit : frame.val = slice frame.val 0 4 ++ slice frame.val 4 4 ++ slice frame.val 8 16 :=
    (slice_three (by simp)).symm
  rcases npqMakeFinished_cases sha256 expectedType rootKey hello challenge with
    ⟨-, -, hmake⟩ | ⟨failure, hne, hmake⟩
  · have hcore := length_finishedCore expectedType challenge
    have hexpected : (finishedFrame sha256 expectedType rootKey hello challenge).val
        = makeHeader expectedType ++ slice challenge.val 40 4
          ++ slice (finishedFrame sha256 expectedType rootKey hello challenge).val 8 16 := by
      rw [finishedFrame, slice_last hcore (Block.length_val _)]
      rfl
    have hverify : npqVerifyFinished sha256 frame expectedType rootKey hello challenge
        = if ¬ validHeader frame.val expectedType ∨ slice frame.val 4 4 ≠ slice challenge.val 40 4
          then .errFormat
          else if slice frame.val 8 16
            ≠ slice (finishedFrame sha256 expectedType rootKey hello challenge).val 8 16
          then .errAuth else .ok := by
      rw [npqVerifyFinished, hmake]
    rw [hverify, hmake, Except.ok.injEq]
    constructor
    · intro h
      split at h
      · cases h
      rename_i hstart
      simp only [not_or, not_not] at hstart
      split at h
      · cases h
      rename_i htag
      rw [not_not] at htag
      apply Block.ext
      rw [hexpected, hsplit, hheader.mp hstart.1, hstart.2, htag]
    · rintro rfl
      rw [if_neg, if_neg (not_not.mpr rfl)]
      rw [not_or, not_not, not_not, hheader]
      refine ⟨?_, ?_⟩
      · rw [hexpected]
        simp only [List.append_assoc]
        exact slice_head rfl
      · rw [hexpected]
        exact slice_field rfl (by simp)
  · rw [hmake]
    refine ⟨fun h => ?_, nofun⟩
    rw [npqVerifyFinished, hmake] at h
    split at h
    · cases h
    · exact absurd h hne

/-- A Finished frame of one type is no Finished frame of the other. -/
theorem finished_type {type type' : UInt8} {rootKey rootKey' : Block 32} {hello hello' : Block 48}
    {challenge challenge' : Block 60} {frame : Block 24}
    (h : npqMakeFinished sha256 type rootKey hello challenge = .ok frame)
    (h' : npqMakeFinished sha256 type' rootKey' hello' challenge' = .ok frame) : type = type' := by
  have hframe {type : UInt8} {rootKey : Block 32} {hello : Block 48} {challenge : Block 60}
      (h : npqMakeFinished sha256 type rootKey hello challenge = .ok frame) :
      byteAt frame.val 3 = type := by
    rcases npqMakeFinished_cases sha256 type rootKey hello challenge with
      ⟨-, -, hmake⟩ | ⟨failure, -, hmake⟩
    · rw [hmake] at h
      obtain rfl := Except.ok.inj h
      rfl
    · rw [hmake] at h
      cases h
  rw [← hframe h, hframe h']

/-! ## The honest handshake -/

/-- What the honest handshake of a boot has to give: every frame is made and accepted, and
the two roles derive one session from both ends. -/
structure HandshakeComplete (rootKey : Block 32) (deviceId : Block 8) (bootEpoch : UInt32)
    (serverNonce : Block 16) (hello : Block 48) (challenge : Block 60)
    (device server : NpqSession) : Prop where
  makeHello : npqMakeHello sha256 rootKey deviceId bootEpoch = .ok hello
  verifyHello : npqVerifyHello sha256 hello rootKey = .ok
  makeChallenge : npqMakeChallenge sha256 rootKey hello serverNonce = .ok challenge
  verifyChallenge : npqVerifyChallenge sha256 challenge rootKey hello = .ok
  deriveDevice : npqDeriveSession sha256 npqRoleDevice rootKey hello challenge = .ok device
  deriveServer : npqDeriveSession sha256 npqRoleServer rootKey hello challenge = .ok server
  sessionId : device.sessionId = server.sessionId
  bootEpoch : device.bootEpoch = bootEpoch ∧ server.bootEpoch = bootEpoch
  deviceToServer : device.sendChain = server.receiveChain ∧
    device.sendNonceBase = server.receiveNonceBase
  serverToDevice : server.sendChain = device.receiveChain ∧
    server.sendNonceBase = device.receiveNonceBase
  deviceCounters : device.sendSequence = 0 ∧ device.receiveSequence = 0
  serverCounters : server.sendSequence = 0 ∧ server.receiveSequence = 0
  finished : ∀ type, type = npqFrameClientFinished ∨ type = npqFrameServerFinished →
    ∃ frame, npqMakeFinished sha256 type rootKey hello challenge = .ok frame

theorem handshakeComplete (rootKey : Block 32) (deviceId : Block 8) {bootEpoch : UInt32}
    (h : bootEpoch ≠ 0) (serverNonce : Block 16) :
    let hello := deviceHello sha256 rootKey deviceId bootEpoch
    let challenge := peerChallenge sha256 rootKey hello serverNonce
    let device := deviceSession sha256 rootKey hello challenge
    HandshakeComplete sha256 rootKey deviceId bootEpoch serverNonce hello challenge device
      device.mirrored := by
  intro hello challenge device
  have hhello := deviceHello_verified sha256 rootKey deviceId bootEpoch h
  have hchallenge := peerChallenge_verified sha256 rootKey hello serverNonce
  exact
    { makeHello := npqMakeHello_eq sha256 rootKey deviceId h
      verifyHello := hhello
      makeChallenge := npqMakeChallenge_eq sha256 hhello serverNonce
      verifyChallenge := hchallenge
      deriveDevice := npqDeriveSession_device sha256 hhello hchallenge
      deriveServer := npqDeriveSession_server sha256 hhello hchallenge
      sessionId := (mirrored_sessionId device).symm
      bootEpoch := by
        rw [mirrored_bootEpoch, deviceSession_bootEpoch, deviceHello_epoch]
        exact ⟨rfl, rfl⟩
      deviceToServer := ⟨(mirrored_chains device).2.symm, (mirrored_nonceBases device).2.symm⟩
      serverToDevice := ⟨(mirrored_chains device).1, (mirrored_nonceBases device).1⟩
      deviceCounters := deviceSession_sequences sha256
      serverCounters := by
        rw [(mirrored_sequences device).1, (mirrored_sequences device).2]
        exact deviceSession_sequences sha256
      finished := fun _ htype => ⟨_, npqMakeFinished_eq sha256 htype hhello hchallenge⟩ }

/-- A challenge that echoes another epoch or another client nonce. -/
theorem npqVerifyChallenge_other {rootKey rootKey' : Block 32} {hello hello' : Block 48}
    {serverNonce : Block 16} {challenge frame : Block 60}
    (hmake : npqMakeChallenge sha256 rootKey hello serverNonce = .ok challenge)
    (hcore : slice frame.val 0 44 = slice challenge.val 0 44)
    (hother : helloEpoch hello ≠ helloEpoch hello' ∨ helloNonce hello ≠ helloNonce hello') :
    npqVerifyChallenge sha256 frame rootKey' hello' ≠ .ok := by
  intro hverify
  obtain ⟨-, hepoch, hnonce, -⟩ := (npqVerifyChallenge_iff sha256 _ _ _).mp hverify
  have hhello : npqVerifyHello sha256 hello rootKey = .ok := by
    by_contra hne
    rw [npqMakeChallenge_failed sha256 hne] at hmake
    cases hmake
  rw [npqMakeChallenge_eq sha256 hhello] at hmake
  obtain rfl := Except.ok.inj hmake
  have hfield {start len : Nat} (hle : start + len ≤ 40) :
      slice frame.val start len = slice (challengeHead hello serverNonce) start len := by
    have hslice (b : Bytes) : slice b start len = slice (slice b 0 44) start len := by
      simp only [slice, List.drop_zero, List.drop_take, List.take_take]
      rw [Nat.min_eq_left (by omega)]
    rw [hslice, hcore, ← hslice, peerChallenge_head sha256 _ _ _ hle]
  obtain ⟨-, hepoch', hnonce', -⟩ := challengeHead_echo hello serverNonce
  rw [hfield (by omega), hepoch'] at hepoch
  rw [hfield (by omega), hnonce'] at hnonce
  rcases hother with hne | hne
  · exact hne (congrArg load32BE hepoch)
  · exact hne hnonce

/-- The handshake is complete, and its frames are good for one type, one epoch and one client
nonce only. -/
theorem npqHandshake_complete (rootKey : Block 32) (deviceId : Block 8) (bootEpoch : UInt32)
    (serverNonce : Block 16) (h : bootEpoch ≠ 0) :
    (∃ hello challenge device server, HandshakeComplete sha256 rootKey deviceId bootEpoch
      serverNonce hello challenge device server) ∧
    (∀ type hello challenge frame,
      npqVerifyFinished sha256 frame type rootKey hello challenge = .ok ↔
        npqMakeFinished sha256 type rootKey hello challenge = .ok frame) ∧
    (∀ type type' hello challenge frame, type ≠ type' →
      npqMakeFinished sha256 type' rootKey hello challenge = .ok frame →
      npqVerifyFinished sha256 frame type rootKey hello challenge ≠ .ok) ∧
    (∀ hello hello' challenge frame,
      npqMakeChallenge sha256 rootKey hello serverNonce = .ok challenge →
      slice frame.val 0 44 = slice challenge.val 0 44 →
      helloEpoch hello ≠ helloEpoch hello' ∨ helloNonce hello ≠ helloNonce hello' →
      npqVerifyChallenge sha256 frame rootKey hello' ≠ .ok) := by
  refine ⟨⟨_, _, _, _, handshakeComplete sha256 rootKey deviceId h serverNonce⟩, ?_, ?_, ?_⟩
  · intro type hello challenge frame
    exact npqVerifyFinished_iff sha256 frame type rootKey hello challenge
  · intro type type' hello challenge frame hne hmake hverify
    exact hne (finished_type sha256 ((npqVerifyFinished_iff sha256 ..).mp hverify) hmake)
  · intro hello hello' challenge frame hmake hcore hother
    exact npqVerifyChallenge_other sha256 hmake hcore hother

/-- The first boot of a device whose key and identifier are zero. -/
theorem npqHandshake_firstBoot :
    ∃ hello challenge device server, HandshakeComplete zeroDigest (Block.zero 32) (Block.zero 8) 1
      (Block.zero 16) hello challenge device server :=
  (npqHandshake_complete zeroDigest (Block.zero 32) (Block.zero 8) 1 (Block.zero 16)
    (by decide)).1

end C0PQLink.NanoPQ
