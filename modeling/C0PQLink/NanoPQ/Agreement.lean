import C0PQLink.NanoPQ.HandshakeRuns

/-!
# Agreement of the NanoPQ handshake

What each end knows when it has finished the handshake, over any number of boots and of
runs of the peer, in any order of their steps and with any frames on the link.

* `Justified`: what has to precede a mark.
* `markedDevice_doesItsPart`, `markedPeer_doesItsPart`: the two ends only make justified marks.
* `reached_agreement`: agreement in every reachable history.
-/

namespace C0PQLink.NanoPQ

open Foundation Program

variable (sha256 : Bytes → Block 32) (flash : Provisioning)

/-! ## Agreement -/

/-- What a device knows that has finished in the boot with the given epoch: one run of the
peer made the challenge for its hello, derived the mirrored session, accepted its Client
Finished and stored the epoch. -/
def DeviceAgreed (history : History) (bootEpoch : UInt32) (hello : Block 48)
    (challenge : Block 60) (session : NpqSession) : Prop :=
  ∃ number finished, .deviceFinished bootEpoch hello challenge finished ∈ history ∧
    .peerChallenge number hello challenge ∈ history ∧
    .peerSession number hello challenge session.mirrored ∈ history ∧
    .peerAccepted number hello challenge finished ∈ history ∧
    .peerStored number bootEpoch ∈ history

/-- What a run of the peer knows that has finished with the given epoch: the device sent the
hello and the Client Finished that the run accepted in the boot with this epoch. -/
def PeerAgreed (history : History) (number : Nat) (bootEpoch : UInt32) (hello : Block 48)
    (challenge : Block 60) : Prop :=
  .boot bootEpoch ∈ history ∧ .deviceHello bootEpoch hello ∈ history ∧ ∃ finished,
    .deviceFinished bootEpoch hello challenge finished ∈ history ∧
    .peerAccepted number hello challenge finished ∈ history

/-- What precedes a mark. -/
def Justified (history : History) : HandshakeMark → Prop
  | .hashed input => ∀ input', .hashed input' ∈ history → sha256 input' = sha256 input →
      input' = input
  | .deviceHello bootEpoch hello =>
    .boot bootEpoch ∈ history ∧
      npqMakeHello sha256 flash.deviceRoot flash.deviceId bootEpoch = .ok hello
  | .deviceFinished bootEpoch hello challenge finished =>
    .deviceHello bootEpoch hello ∈ history ∧ .hashed (transcriptInput hello challenge) ∈ history ∧
      npqMakeFinished sha256 npqFrameClientFinished flash.deviceRoot hello challenge = .ok finished
  | .deviceEstablished bootEpoch hello challenge session =>
    DeviceAgreed history bootEpoch hello challenge session
  | .peerFinished number hello challenge =>
    .hashed (transcriptInput hello challenge) ∈ history ∧
      .peerChallenge number hello challenge ∈ history ∧
      .peerStored number (helloEpoch hello) ∈ history ∧
      ∃ session finished, .peerSession number hello challenge session ∈ history ∧
        .peerAccepted number hello challenge finished ∈ history ∧
        npqDeriveSession sha256 npqRoleServer demoRootKey hello challenge = .ok session ∧
        npqMakeFinished sha256 npqFrameClientFinished demoRootKey hello challenge = .ok finished
  | .peerEstablished number bootEpoch hello challenge _ =>
    PeerAgreed history number bootEpoch hello challenge
  | _ => True

/-- Every mark of the history is justified by what precedes it. -/
def Sound : History → Prop
  | [] => True
  | m :: history => Justified sha256 flash history m ∧ Sound history

variable {sha256 flash} {history history' : History}

theorem Sound.split {later earlier : History} {m : HandshakeMark}
    (h : Sound sha256 flash (later ++ m :: earlier)) : Justified sha256 flash earlier m := by
  induction later with
  | nil => exact h.1
  | cons _ _ ih => exact ih h.2

theorem Sound.of_mem {m : HandshakeMark} (h : Sound sha256 flash history) (hm : m ∈ history) :
    ∃ earlier, earlier <:+ history ∧ Justified sha256 flash earlier m := by
  obtain ⟨later, earlier, rfl⟩ := List.append_of_mem hm
  exact ⟨earlier, ⟨later ++ [m], by simp⟩, h.split⟩

/-- No two inputs that were hashed have one digest. -/
theorem Sound.hashed_inj {input input' : Bytes} (h : Sound sha256 flash history)
    (hinput : .hashed input ∈ history) (hinput' : .hashed input' ∈ history)
    (hdigest : sha256 input = sha256 input') : input = input' := by
  induction history with
  | nil => cases hinput
  | cons m history ih =>
    rcases List.mem_cons.mp hinput with rfl | hin
    · rcases List.mem_cons.mp hinput' with heq | hin'
      · cases heq
        rfl
      · exact (h.1 input' hin' hdigest.symm).symm
    · rcases List.mem_cons.mp hinput' with rfl | hin'
      · exact h.1 input hin hdigest
      · exact ih h.2 hin hin'

/-! ## Messages -/

/-- A label without a zero byte can be read off a message. -/
theorem macMessage_inj {label label' : String} {data data' : Bytes} (h : 0 ∉ ascii label)
    (h' : 0 ∉ ascii label') (heq : macMessage label data = macMessage label' data') :
    ascii label = ascii label' ∧ data = data' := by
  have htake (label : String) (data : Bytes) (h : 0 ∉ ascii label) :
      (macMessage label data).takeWhile (· != 0) = ascii label := by
    rw [macMessage, List.append_assoc, List.takeWhile_append_of_pos]
    · simp
    · intro a ha
      simp only [bne_iff_ne, ne_eq]
      rintro rfl
      exact h ha
  have hlabel : ascii label = ascii label' := by
    rw [← htake label data h, heq, htake label' data' h']
  refine ⟨hlabel, ?_⟩
  rw [macMessage, macMessage, hlabel] at heq
  exact List.append_cancel_left heq

theorem transcriptInput_inj {hello hello' : Block 48} {challenge challenge' : Block 60}
    (h : transcriptInput hello challenge = transcriptInput hello' challenge') :
    hello = hello' ∧ challenge = challenge' := by
  simp only [transcriptInput, List.append_assoc] at h
  obtain ⟨hhello, hchallenge⟩ := List.append_inj (List.append_cancel_left h) (by simp)
  exact ⟨Block.ext hhello, Block.ext hchallenge⟩

/-! ## Where a released HMAC comes from -/

theorem released_hello {m : HandshakeMark} {key : Block 32} {data : Bytes}
    (h : (key, macMessage "NPQ/1 hello" data) ∈ released sha256 flash m) :
    ∃ bootEpoch hello, m = .deviceHello bootEpoch hello ∧ key = flash.deviceRoot ∧
      data = slice hello.val 0 32 := by
  have hother {label : String} {data' : Bytes} (hlabel : 0 ∉ ascii label)
      (hne : ascii "NPQ/1 hello" ≠ ascii label) :
      macMessage "NPQ/1 hello" data ≠ macMessage label data' :=
    fun heq => hne (macMessage_inj (by decide) hlabel heq).1
  cases m with
  | deviceHello bootEpoch hello =>
    simp only [released, List.mem_cons, List.not_mem_nil, or_false, Prod.mk.injEq] at h
    rcases h with ⟨-, heq⟩ | ⟨hkey, heq⟩
    · exact absurd heq (hother (by decide) (by decide))
    · exact ⟨bootEpoch, hello, rfl, hkey, (macMessage_inj (by decide) (by decide) heq).2⟩
  | deviceFinished | peerFinished =>
    simp only [released, List.mem_singleton, Prod.mk.injEq] at h
    exact absurd h.2 (hother (by decide) (by decide))
  | peerChallenge =>
    simp only [released, List.mem_cons, List.not_mem_nil, or_false, Prod.mk.injEq] at h
    rcases h with ⟨-, heq⟩ | ⟨-, heq⟩ <;> exact absurd heq (hother (by decide) (by decide))
  | _ => cases h

theorem released_challenge {m : HandshakeMark} {key : Block 32} {data : Bytes}
    (h : (key, macMessage "NPQ/1 challenge" data) ∈ released sha256 flash m) :
    key = demoRootKey := by
  have hother {label : String} {data' : Bytes} (hlabel : 0 ∉ ascii label)
      (hne : ascii "NPQ/1 challenge" ≠ ascii label) :
      macMessage "NPQ/1 challenge" data ≠ macMessage label data' :=
    fun heq => hne (macMessage_inj (by decide) hlabel heq).1
  cases m with
  | deviceHello =>
    simp only [released, List.mem_cons, List.not_mem_nil, or_false, Prod.mk.injEq] at h
    rcases h with ⟨-, heq⟩ | ⟨-, heq⟩ <;> exact absurd heq (hother (by decide) (by decide))
  | deviceFinished | peerFinished =>
    simp only [released, List.mem_singleton, Prod.mk.injEq] at h
    exact absurd h.2 (hother (by decide) (by decide))
  | peerChallenge =>
    simp only [released, List.mem_cons, List.not_mem_nil, or_false, Prod.mk.injEq] at h
    rcases h with ⟨hkey, -⟩ | ⟨hkey, -⟩ <;> exact hkey
  | _ => cases h

theorem finishedMessage_transcript {frameType : UInt8} {hello hello' : Block 48}
    {challenge challenge' : Block 60} (hlabel : 0 ∉ ascii (finishedTagLabel frameType))
    (h : finishedMessage sha256 frameType hello challenge
      = finishedMessage sha256 frameType hello' challenge') :
    sha256 (transcriptInput hello challenge) = sha256 (transcriptInput hello' challenge') := by
  have hdata := (macMessage_inj hlabel hlabel h).2
  exact Block.ext (List.append_inj' hdata (by simp)).2

theorem released_clientFinished {m : HandshakeMark} {key : Block 32} {hello : Block 48}
    {challenge : Block 60}
    (h : (key, finishedMessage sha256 npqFrameClientFinished hello challenge)
      ∈ released sha256 flash m) :
    ∃ bootEpoch hello' challenge' finished,
      m = .deviceFinished bootEpoch hello' challenge' finished ∧
        sha256 (transcriptInput hello challenge) = sha256 (transcriptInput hello' challenge') := by
  have hother {label : String} {data : Bytes} (hlabel : 0 ∉ ascii label)
      (hne : ascii "NPQ/1 client proof" ≠ ascii label) :
      finishedMessage sha256 npqFrameClientFinished hello challenge ≠ macMessage label data :=
    fun heq => hne (macMessage_inj (by decide) hlabel heq).1
  cases m with
  | deviceHello | peerChallenge =>
    simp only [released, List.mem_cons, List.not_mem_nil, or_false, Prod.mk.injEq] at h
    rcases h with ⟨-, heq⟩ | ⟨-, heq⟩ <;> exact absurd heq (hother (by decide) (by decide))
  | deviceFinished bootEpoch hello' challenge' finished =>
    simp only [released, List.mem_singleton, Prod.mk.injEq] at h
    exact ⟨bootEpoch, hello', challenge', finished, rfl,
      finishedMessage_transcript (by decide) h.2⟩
  | peerFinished =>
    simp only [released, List.mem_singleton, Prod.mk.injEq] at h
    exact absurd h.2 (hother (by decide) (by decide))
  | _ => cases h

theorem released_serverFinished {m : HandshakeMark} {key : Block 32} {hello : Block 48}
    {challenge : Block 60}
    (h : (key, finishedMessage sha256 npqFrameServerFinished hello challenge)
      ∈ released sha256 flash m) :
    ∃ number hello' challenge', m = .peerFinished number hello' challenge' ∧
      sha256 (transcriptInput hello challenge) = sha256 (transcriptInput hello' challenge') := by
  have hother {label : String} {data : Bytes} (hlabel : 0 ∉ ascii label)
      (hne : ascii "NPQ/1 server proof" ≠ ascii label) :
      finishedMessage sha256 npqFrameServerFinished hello challenge ≠ macMessage label data :=
    fun heq => hne (macMessage_inj (by decide) hlabel heq).1
  cases m with
  | deviceHello | peerChallenge =>
    simp only [released, List.mem_cons, List.not_mem_nil, or_false, Prod.mk.injEq] at h
    rcases h with ⟨-, heq⟩ | ⟨-, heq⟩ <;> exact absurd heq (hother (by decide) (by decide))
  | deviceFinished =>
    simp only [released, List.mem_singleton, Prod.mk.injEq] at h
    exact absurd h.2 (hother (by decide) (by decide))
  | peerFinished number hello' challenge' =>
    simp only [released, List.mem_singleton, Prod.mk.injEq] at h
    exact ⟨number, hello', challenge', rfl, finishedMessage_transcript (by decide) h.2⟩
  | _ => cases h

/-! ## What an accepted frame tells -/

theorem npqMakeHello_ok {rootKey : Block 32} {deviceId : Block 8} {bootEpoch : UInt32}
    {hello : Block 48} (h : npqMakeHello sha256 rootKey deviceId bootEpoch = .ok hello) :
    hello = deviceHello sha256 rootKey deviceId bootEpoch ∧ helloEpoch hello = bootEpoch ∧
      npqVerifyHello sha256 hello rootKey = .ok := by
  by_cases hzero : bootEpoch = 0
  · rw [npqMakeHello, if_pos hzero] at h
    cases h
  · rw [npqMakeHello_eq sha256 rootKey deviceId hzero] at h
    obtain rfl := Except.ok.inj h
    exact ⟨rfl, deviceHello_epoch sha256 rootKey deviceId bootEpoch,
      deviceHello_verified sha256 rootKey deviceId bootEpoch hzero⟩

/-- A tag that is presented and right was released. -/
theorem presented_released {tag : Bytes} {key : Block 32} {message : Bytes}
    (hallowed : MarkAllowed sha256 flash history (.presented tag key message))
    (htag : tag = (digest16 (hmacSha256 sha256 key.val message)).val) :
    ∃ m ∈ history, (key, message) ∈ released sha256 flash m := hallowed htag

/-- An accepted hello is the one that the device made in the boot with its epoch. -/
theorem accepted_hello {hello : Block 48} (hsound : Sound sha256 flash history)
    (hallowed : MarkAllowed sha256 flash history (.presented (slice hello.val 32 16) demoRootKey
      (macMessage "NPQ/1 hello" (slice hello.val 0 32))))
    (hverify : npqVerifyHello sha256 hello demoRootKey = .ok) :
    .deviceHello (helloEpoch hello) hello ∈ history ∧ .boot (helloEpoch hello) ∈ history ∧
      demoRootKey = flash.deviceRoot := by
  have htag := ((npqVerifyHello_iff sha256 hello demoRootKey).mp hverify).2.2
  obtain ⟨m, hm, hreleased⟩ := presented_released hallowed htag
  obtain ⟨bootEpoch, hello', rfl, hkey, hcore⟩ := released_hello hreleased
  obtain ⟨earlier, hsuffix, hboot, hmake⟩ := hsound.of_mem hm
  obtain ⟨-, hepoch, hverify'⟩ := npqMakeHello_ok hmake
  have htag' := ((npqVerifyHello_iff sha256 hello' flash.deviceRoot).mp hverify').2.2
  obtain rfl : hello = hello' := by
    apply Block.ext
    have hsplit (hello : Block 48) : hello.val = slice hello.val 0 32 ++ slice hello.val 32 16 := by
      have hall := slice_append_slice hello.val 0 32 16
      rw [Nat.zero_add] at hall
      rw [hall, slice_self _ (Block.length_val _)]
    rw [hsplit hello, hsplit hello', htag, htag', hkey, hcore]
  rw [hepoch]
  exact ⟨hm, hsuffix.subset hboot, hkey⟩

/-- An accepted challenge was made under the root key of the peer. -/
theorem accepted_challenge {hello : Block 48} {challenge : Block 60}
    (hallowed : MarkAllowed sha256 flash history (.presented (slice challenge.val 44 16)
      flash.deviceRoot (macMessage "NPQ/1 challenge" (slice challenge.val 0 44))))
    (hverify : npqVerifyChallenge sha256 challenge flash.deviceRoot hello = .ok) :
    flash.deviceRoot = demoRootKey := by
  have htag := ((npqVerifyChallenge_iff sha256 challenge flash.deviceRoot hello).mp hverify).2.2.2
  obtain ⟨m, -, hreleased⟩ := presented_released hallowed htag
  exact released_challenge hreleased

/-- The tag of an accepted Finished frame. -/
theorem finished_tag {frameType : UInt8} {rootKey : Block 32} {hello : Block 48}
    {challenge : Block 60} {frame : Block 24}
    (h : npqMakeFinished sha256 frameType rootKey hello challenge = .ok frame) :
    slice frame.val 8 16 = (digest16 (hmacSha256 sha256
      (finishedKey sha256 frameType rootKey hello challenge).val
      (finishedMessage sha256 frameType hello challenge))).val := by
  rcases npqMakeFinished_cases sha256 frameType rootKey hello challenge with
    ⟨-, -, hmake⟩ | ⟨failure, -, hmake⟩
  · rw [hmake] at h
    obtain rfl := Except.ok.inj h
    exact slice_last (length_finishedCore frameType challenge) (Block.length_val _)
  · rw [hmake] at h
    cases h

/-- An accepted Client Finished is the one that the device made for this challenge. -/
theorem accepted_clientFinished {hello : Block 48} {challenge : Block 60} {frame : Block 24}
    (hsound : Sound sha256 flash history) (hroot : demoRootKey = flash.deviceRoot)
    (hhashed : .hashed (transcriptInput hello challenge) ∈ history)
    (hallowed : MarkAllowed sha256 flash history (.presented (slice frame.val 8 16)
      (finishedKey sha256 npqFrameClientFinished demoRootKey hello challenge)
      (finishedMessage sha256 npqFrameClientFinished hello challenge)))
    (hmake : npqMakeFinished sha256 npqFrameClientFinished demoRootKey hello challenge
      = .ok frame) :
    .deviceFinished (helloEpoch hello) hello challenge frame ∈ history := by
  obtain ⟨m, hm, hreleased⟩ := presented_released hallowed (finished_tag hmake)
  obtain ⟨bootEpoch, hello', challenge', frame', rfl, hdigest⟩ := released_clientFinished hreleased
  obtain ⟨earlier, hsuffix, hhello, hhashed', hmake'⟩ := hsound.of_mem hm
  obtain ⟨rfl, rfl⟩ := transcriptInput_inj
    (hsound.hashed_inj hhashed (hsuffix.subset hhashed') hdigest)
  rw [← hroot, hmake] at hmake'
  obtain rfl := Except.ok.inj hmake'
  obtain ⟨earlier', -, -, hmakeHello⟩ := hsound.of_mem (hsuffix.subset hhello)
  rw [(npqMakeHello_ok hmakeHello).2.1]
  exact hm

/-- An accepted Server Finished tells that a run of the peer finished with this challenge. -/
theorem accepted_serverFinished {hello : Block 48} {challenge : Block 60} {frame : Block 24}
    (hsound : Sound sha256 flash history)
    (hhashed : .hashed (transcriptInput hello challenge) ∈ history)
    (hallowed : MarkAllowed sha256 flash history (.presented (slice frame.val 8 16)
      (finishedKey sha256 npqFrameServerFinished flash.deviceRoot hello challenge)
      (finishedMessage sha256 npqFrameServerFinished hello challenge)))
    (hmake : npqMakeFinished sha256 npqFrameServerFinished flash.deviceRoot hello challenge
      = .ok frame) :
    ∃ number, .peerChallenge number hello challenge ∈ history ∧
      .peerStored number (helloEpoch hello) ∈ history ∧
      ∃ session finished, .peerSession number hello challenge session ∈ history ∧
        .peerAccepted number hello challenge finished ∈ history ∧
        npqDeriveSession sha256 npqRoleServer demoRootKey hello challenge = .ok session ∧
        npqMakeFinished sha256 npqFrameClientFinished demoRootKey hello challenge
          = .ok finished := by
  obtain ⟨m, hm, hreleased⟩ := presented_released hallowed (finished_tag hmake)
  obtain ⟨number, hello', challenge', rfl, hdigest⟩ := released_serverFinished hreleased
  obtain ⟨earlier, hsuffix, hhashed', hchallenge, hstored, session, finished, hsession, haccepted,
    hderive, hfinished⟩ := hsound.of_mem hm
  obtain ⟨rfl, rfl⟩ := transcriptInput_inj
    (hsound.hashed_inj hhashed (hsuffix.subset hhashed') hdigest)
  exact ⟨number, hsuffix.subset hchallenge, hsuffix.subset hstored, session, finished,
    hsuffix.subset hsession, hsuffix.subset haccepted, hderive, hfinished⟩

/-! ## The two ends -/

section Threads

variable {E : Type} {R : E → Type} {α β : Type}
  {step : (e : E ⊕ HandshakeMark) → History → MarkedReply R HandshakeMark e → History → Prop}

variable (sha256 flash) in
/-- The rest of a thread only makes justified marks, whatever the other threads do. -/
def DoesItsPart (step : (e : E ⊕ HandshakeMark) → History → MarkedReply R HandshakeMark e →
    History → Prop) (p : Program (E ⊕ HandshakeMark) (MarkedReply R HandshakeMark) α)
    (history : History) : Prop :=
  p.wpShared step (· <:+ ·) (Sound sha256 flash) (fun _ _ => True) history

theorem pure_doesItsPart (a : α) :
    DoesItsPart sha256 flash step (pure a : Program _ (MarkedReply R HandshakeMark) α) history :=
  fun _ _ _ => trivial

/-- A mark, which has to be justified, and what follows it. -/
theorem mark_doesItsPart {m : HandshakeMark}
    {f : Unit → Program (E ⊕ HandshakeMark) (MarkedReply R HandshakeMark) β}
    (hstep : ∀ m s r s', step (.inr m) s r s' → MarkAllowed sha256 flash s m ∧ s' = m :: s)
    (h : ∀ s, history <:+ s → Sound sha256 flash s → MarkAllowed sha256 flash s m →
      Justified sha256 flash s m ∧
        (Sound sha256 flash (m :: s) → DoesItsPart sha256 flash step (f ()) (m :: s))) :
    DoesItsPart sha256 flash step (mark m >>= f) history := by
  intro s hs hsound r s' hs'
  obtain ⟨hallowed, rfl⟩ := hstep m s r s' hs'
  obtain ⟨hjustified, hrest⟩ := h s hs hsound hallowed
  have hsound' : Sound sha256 flash (m :: s) := ⟨hjustified, hsound⟩
  exact ⟨List.suffix_cons m s, hsound', hrest hsound'⟩

/-- Calls without a mark, and what follows them. -/
theorem silent_doesItsPart {p : Program E R α} {P : E → Prop}
    {f : α → Program (E ⊕ HandshakeMark) (MarkedReply R HandshakeMark) β}
    (hp : p.Only P) (hstep : ∀ e s r s', P e → step (.inl e) s r s' → s' = s)
    (hsound : Sound sha256 flash history)
    (h : ∀ a s, history <:+ s → Sound sha256 flash s → DoesItsPart sha256 flash step (f a) s) :
    DoesItsPart sha256 flash step (p.lift HandshakeMark >>= f) history := by
  refine wpShared_bind List.suffix_refl hsound (hp.lift.wpShared List.suffix_refl
    (fun _ _ _ => List.IsSuffix.trans) (fun e s r s' he hs' => ?_) h)
  cases e with
  | inl e => exact hstep e s r s' he hs'
  | inr m => exact he.elim

end Threads

/-- The session that the peer derives where the device derives one. -/
theorem npqDeriveSession_mirrored {rootKey : Block 32} {hello : Block 48} {challenge : Block 60}
    {session : NpqSession}
    (h : npqDeriveSession sha256 npqRoleDevice rootKey hello challenge = .ok session) :
    npqDeriveSession sha256 npqRoleServer rootKey hello challenge = .ok session.mirrored := by
  by_cases hverify : npqVerifyHello sha256 hello rootKey = .ok ∧
      npqVerifyChallenge sha256 challenge rootKey hello = .ok
  · rw [npqDeriveSession_device sha256 hverify.1 hverify.2] at h
    obtain rfl := Except.ok.inj h
    exact npqDeriveSession_server sha256 hverify.1 hverify.2
  · obtain ⟨failure, -, hfailed⟩ := deriveTranscriptPrk_failed sha256 hverify
    rw [npqDeriveSession, if_neg (by decide), hfailed] at h
    cases h

theorem deviceStep_plain (e : BoardCall) (s : History)
    (r : MarkedReply BoardReply HandshakeMark (.inl e)) (s' : History) (he : PlainCall e)
    (hs : deviceStep sha256 flash (.inl e) s r s') : s' = s := by
  cases e with
  | makeHello => exact he.elim
  | eepromRead | eepromUpdate | uartGet | uartPut | verifySignature | adcRead | ledSet => exact hs

theorem deviceStep_mark (m : HandshakeMark) (s : History)
    (r : MarkedReply BoardReply HandshakeMark (.inr m)) (s' : History)
    (hs : deviceStep sha256 flash (.inr m) s r s') :
    MarkAllowed sha256 flash s m ∧ s' = m :: s := hs

theorem markedDevice_doesItsPart (bootEpoch : UInt32) :
    DoesItsPart sha256 flash (deviceStep sha256 flash) (markedDevice sha256 flash bootEpoch)
      history := by
  rintro s0 - hsound0 r s1 ⟨-, rfl⟩
  have hsound1 : Sound sha256 flash (.boot bootEpoch :: s0) := ⟨trivial, hsound0⟩
  refine ⟨List.suffix_cons _ _, hsound1, ?_⟩
  change DoesItsPart sha256 flash (deviceStep sha256 flash) _ _
  rcases hmakeHello : npqMakeHello sha256 flash.deviceRoot flash.deviceId bootEpoch with
    failure | hello
  · exact pure_doesItsPart none
  obtain ⟨-, hepoch, -⟩ := npqMakeHello_ok hmakeHello
  refine mark_doesItsPart deviceStep_mark fun s2 h2 _ _ =>
    ⟨⟨h2.subset List.mem_cons_self, hmakeHello⟩, fun hsound2 => ?_⟩
  refine silent_doesItsPart (uartSendFrame_plain _) deviceStep_plain hsound2
    fun _ s3 h3 hsound3 => ?_
  refine silent_doesItsPart uartReadFrame_plain deviceStep_plain hsound3
    fun frame s4 h4 hsound4 => ?_
  have hhello4 : .deviceHello bootEpoch hello ∈ s4 := h4.subset (h3.subset List.mem_cons_self)
  simp only
  split
  swap
  · exact pure_doesItsPart none
  rename_i hlength
  generalize hframe : (⟨frame.getD [], hlength⟩ : Block 60) = challenge
  have hslice (start len : Nat) :
      slice (frame.getD []) start len = slice challenge.val start len := by
    rw [← hframe]
  rw [hslice, hslice]
  refine mark_doesItsPart deviceStep_mark fun s5 h5 _ hallowed5 => ⟨trivial, fun hsound5 => ?_⟩
  split
  · exact pure_doesItsPart none
  rename_i hverify
  have hroot := accepted_challenge hallowed5 (not_not.mp hverify)
  refine mark_doesItsPart deviceStep_mark fun s6 h6 hsound6 hallowed6 =>
    ⟨hallowed6, fun hsound7 => ?_⟩
  have hhello7 : .deviceHello bootEpoch hello ∈ .hashed (transcriptInput hello challenge) :: s6 :=
    List.mem_cons_of_mem _ (h6.subset (List.mem_cons_of_mem _ (h5.subset hhello4)))
  rcases hderive : npqDeriveSession sha256 npqRoleDevice flash.deviceRoot hello challenge with
    failure | session
  · exact pure_doesItsPart none
  rcases hmake : npqMakeFinished sha256 npqFrameClientFinished flash.deviceRoot hello challenge with
    failure | finished
  · exact pure_doesItsPart none
  refine mark_doesItsPart deviceStep_mark fun s8 h8 _ _ =>
    ⟨⟨h8.subset hhello7, h8.subset List.mem_cons_self, hmake⟩, fun hsound8 => ?_⟩
  refine silent_doesItsPart (uartSendFrame_plain _) deviceStep_plain hsound8
    fun _ s9 h9 hsound9 => ?_
  refine silent_doesItsPart uartReadFrame_plain deviceStep_plain hsound9
    fun frame s10 h10 hsound10 => ?_
  have hgrows10 := h9.trans h10
  have hfinished10 := hgrows10.subset List.mem_cons_self
  have hhashed10 : .hashed (transcriptInput hello challenge) ∈ s10 :=
    hgrows10.subset (List.mem_cons_of_mem _ (h8.subset List.mem_cons_self))
  split
  swap
  · exact pure_doesItsPart none
  rename_i hlength
  refine mark_doesItsPart deviceStep_mark fun s11 h11 hsound11 hallowed11 =>
    ⟨trivial, fun hsound12 => ?_⟩
  split
  · exact pure_doesItsPart none
  rename_i hverify
  have hserver := (npqVerifyFinished_iff sha256 _ _ _ _ _).mp (not_not.mp hverify)
  obtain ⟨number, hchallenge, hstored, session', finished', hsession, haccepted, hderive', hmake'⟩ :=
    accepted_serverFinished hsound11 (h11.subset hhashed10) hallowed11 hserver
  rw [← hroot] at hderive' hmake'
  rw [npqDeriveSession_mirrored hderive] at hderive'
  obtain rfl := Except.ok.inj hderive'
  rw [hmake] at hmake'
  obtain rfl := Except.ok.inj hmake'
  rw [hepoch] at hstored
  refine mark_doesItsPart deviceStep_mark fun s12 h12 _ _ => ⟨?_, fun _ => pure_doesItsPart _⟩
  have hgrows12 := (List.suffix_cons _ s11).trans h12
  exact ⟨number, finished, (h11.trans hgrows12).subset hfinished10, hgrows12.subset hchallenge,
    hgrows12.subset hsession, hgrows12.subset haccepted, hgrows12.subset hstored⟩

theorem peerStep_silent (e : PeerCall) (s : History)
    (r : MarkedReply PeerReply HandshakeMark (.inl e)) (s' : History) (_ : True)
    (hs : peerStep sha256 flash (.inl e) s r s') : s' = s := hs

theorem peerStep_mark (m : HandshakeMark) (s : History)
    (r : MarkedReply PeerReply HandshakeMark (.inr m)) (s' : History)
    (hs : peerStep sha256 flash (.inr m) s r s') :
    MarkAllowed sha256 flash s m ∧ s' = m :: s := hs

/-- Calls of the peer, and what follows them. -/
theorem peer_doesItsPart {α β : Type} {p : HostPeer α} {f : α → MarkedPeer β}
    (hsound : Sound sha256 flash history)
    (h : ∀ a s, history <:+ s → Sound sha256 flash s →
      DoesItsPart sha256 flash (peerStep sha256 flash) (f a) s) :
    DoesItsPart sha256 flash (peerStep sha256 flash) (onPeer p >>= f) history :=
  silent_doesItsPart (only_true p) peerStep_silent hsound h

theorem markedConfirm_doesItsPart (number : Nat) (options : PeerOptions) {hello : Block 48}
    (hsound : Sound sha256 flash history) (hroot : demoRootKey = flash.deviceRoot)
    (hboot : .boot (helloEpoch hello) ∈ history)
    (hhello : .deviceHello (helloEpoch hello) hello ∈ history) :
    DoesItsPart sha256 flash (peerStep sha256 flash)
      (markedConfirm sha256 number options hello (helloEpoch hello)) history := by
  refine peer_doesItsPart hsound fun nonce s1 h1 hsound1 => ?_
  cases nonce with
  | none => exact pure_doesItsPart none
  | some serverNonce =>
    simp only
    rcases npqMakeChallenge sha256 demoRootKey hello serverNonce with failure | challenge
    · exact pure_doesItsPart none
    refine mark_doesItsPart peerStep_mark fun s2 h2 _ _ => ⟨trivial, fun hsound2 => ?_⟩
    refine peer_doesItsPart hsound2 fun written s3 h3 hsound3 => ?_
    split
    swap
    · exact pure_doesItsPart none
    refine mark_doesItsPart peerStep_mark fun s4 h4 _ hallowed4 =>
      ⟨hallowed4, fun hsound4 => ?_⟩
    rcases hderive : npqDeriveSession sha256 npqRoleServer demoRootKey hello challenge with
      failure | session
    · exact pure_doesItsPart none
    refine mark_doesItsPart peerStep_mark fun s5 h5 _ _ => ⟨trivial, fun hsound5 => ?_⟩
    refine peer_doesItsPart hsound5 fun frame s6 h6 hsound6 => ?_
    have hsession6 := h6.subset List.mem_cons_self
    have hgrows6 := (List.suffix_cons _ s5).trans h6
    have hhashed6 := hgrows6.subset (h5.subset List.mem_cons_self)
    have hgrows6 := h4.trans ((List.suffix_cons _ s4).trans (h5.trans hgrows6))
    have hchallenge6 := hgrows6.subset (h3.subset List.mem_cons_self)
    have hgrows6 := h1.trans (h2.trans ((List.suffix_cons _ s2).trans (h3.trans hgrows6)))
    split
    swap
    · exact pure_doesItsPart none
    rename_i hlength
    refine mark_doesItsPart peerStep_mark fun s7 h7 hsound7 hallowed7 =>
      ⟨trivial, fun hsound8 => ?_⟩
    split
    · exact pure_doesItsPart none
    rename_i hverify
    have hmake := (npqVerifyFinished_iff sha256 _ _ _ _ _).mp (not_not.mp hverify)
    have hdevice7 := accepted_clientFinished hsound7 hroot (h7.subset hhashed6) hallowed7 hmake
    generalize (⟨frame.getD [], hlength⟩ : Block 24) = finished at hmake hdevice7
    refine mark_doesItsPart peerStep_mark fun s8 h8 _ _ => ⟨trivial, fun hsound8 => ?_⟩
    have hgrows8 : s6 <:+ .peerAccepted number hello challenge finished :: s8 :=
      h7.trans ((List.suffix_cons _ s7).trans (h8.trans (List.suffix_cons _ s8)))
    refine peer_doesItsPart hsound8 fun stored s9 h9 hsound9 => ?_
    split
    swap
    · exact pure_doesItsPart none
    refine mark_doesItsPart peerStep_mark fun s10 h10 _ _ => ⟨trivial, fun hsound10 => ?_⟩
    rcases npqMakeFinished sha256 npqFrameServerFinished demoRootKey hello challenge with
      failure | serverFinished
    · exact pure_doesItsPart none
    refine peer_doesItsPart hsound10 fun _ s11 h11 hsound11 => ?_
    have hgrows11 := h9.trans (h10.trans ((List.suffix_cons _ s10).trans h11))
    have haccepted11 := hgrows11.subset List.mem_cons_self
    have hdevice11 := hgrows11.subset (List.mem_cons_of_mem _
      (h8.subset (List.mem_cons_of_mem _ hdevice7)))
    have hgrows11 := hgrows8.trans hgrows11
    refine mark_doesItsPart peerStep_mark fun s12 h12 _ _ => ⟨⟨?_, ?_, ?_, session, finished, ?_, ?_,
      hderive, hmake⟩, fun hsound12 => ?_⟩
    · exact h12.subset (hgrows11.subset hhashed6)
    · exact h12.subset (hgrows11.subset hchallenge6)
    · exact h12.subset (h11.subset List.mem_cons_self)
    · exact h12.subset (hgrows11.subset hsession6)
    · exact h12.subset haccepted11
    refine peer_doesItsPart hsound12 fun sent s13 h13 hsound13 => ?_
    split
    swap
    · exact pure_doesItsPart none
    refine peer_doesItsPart hsound13 fun _ s14 h14 hsound14 => ?_
    have hgrows14 := h12.trans ((List.suffix_cons _ s12).trans (h13.trans h14))
    have hgrows := hgrows6.trans (hgrows11.trans hgrows14)
    refine mark_doesItsPart peerStep_mark fun s15 h15 _ _ =>
      ⟨⟨?_, ?_, finished, ?_, ?_⟩, fun _ => pure_doesItsPart _⟩
    · exact h15.subset (hgrows.subset hboot)
    · exact h15.subset (hgrows.subset hhello)
    · exact h15.subset (hgrows14.subset hdevice11)
    · exact h15.subset (hgrows14.subset haccepted11)

theorem markedPeer_doesItsPart (number : Nat) (options : PeerOptions) (hello : Block 48) :
    DoesItsPart sha256 flash (peerStep sha256 flash) (markedPeer sha256 number options hello)
      history := by
  refine mark_doesItsPart peerStep_mark fun s1 _ hsound1 hallowed => ⟨trivial, fun hsound2 => ?_⟩
  split
  · exact pure_doesItsPart none
  rename_i hverify
  rw [not_or, not_not, not_not] at hverify
  obtain ⟨hhello, hboot, hroot⟩ := accepted_hello hsound1 hallowed hverify.1
  refine peer_doesItsPart hsound2 fun _ s3 h3 hsound3 => ?_
  refine peer_doesItsPart hsound3 fun latestEpoch s4 h4 hsound4 => ?_
  have hgrows := (List.suffix_cons _ s1).trans (h3.trans h4)
  split
  · exact pure_doesItsPart none
  · exact markedConfirm_doesItsPart number options hsound4 hroot (hgrows.subset hboot)
      (hgrows.subset hhello)

/-! ## Any order of steps -/

theorem handshakeStart_doesItsPart (i : HandshakeThread) (s : History)
    (p : Program i.Call i.Reply (Option NpqSession)) (s' : History) (hsound : Sound sha256 flash s)
    (hstart : handshakeStart sha256 flash i s p s') :
    s <:+ s' ∧ Sound sha256 flash s' ∧ p.wpShared (handshakeStep sha256 flash i) (· <:+ ·)
      (Sound sha256 flash) (fun _ _ => True) s' := by
  cases i with
  | device =>
    obtain ⟨rfl, bootEpoch, rfl⟩ := hstart
    exact ⟨List.suffix_refl s', hsound, markedDevice_doesItsPart bootEpoch⟩
  | peer number =>
    obtain ⟨-, rfl, options, hello, rfl⟩ := hstart
    exact ⟨List.suffix_cons _ s, ⟨trivial, hsound⟩, markedPeer_doesItsPart number options hello⟩

theorem HandshakeReached.sound (h : HandshakeReached sha256 flash history) :
    Sound sha256 flash history := by
  obtain ⟨pool, rfl, hreached⟩ := h
  have hsafe : pool.Safe (handshakeStep sha256 flash) (· <:+ ·) (Sound sha256 flash)
      (fun _ _ _ => True) := by
    refine Pool.invariant List.suffix_refl (fun _ _ _ => List.IsSuffix.trans) ?_ hreached
      ⟨trivial, fun _ _ _ _ => trivial⟩
    exact handshakeStart_doesItsPart
  exact hsafe.invariant

/-- Both ends agree, at the moment at which they finish. -/
structure HandshakeAgreement (history : History) : Prop where
  device : ∀ later bootEpoch hello challenge session earlier,
    history = later ++ .deviceEstablished bootEpoch hello challenge session :: earlier →
      DeviceAgreed earlier bootEpoch hello challenge session
  peer : ∀ later number bootEpoch hello challenge session earlier,
    history = later ++ .peerEstablished number bootEpoch hello challenge session :: earlier →
      PeerAgreed earlier number bootEpoch hello challenge

theorem reached_agreement (h : HandshakeReached sha256 flash history) :
    HandshakeAgreement history := by
  have hsound := h.sound
  constructor
  · rintro later bootEpoch hello challenge session earlier rfl
    exact hsound.split
  · rintro later number bootEpoch hello challenge session earlier rfl
    exact hsound.split

/-! ### A run with a constant digest -/

/-- A device that shares the root key with the peer. -/
def demoProvisioning : Provisioning :=
  ⟨demoRootKey, demoDeviceId, Block.zero 16, Block.zero 16, .slhdsa⟩

def markCheck (history : History) : HandshakeMark → Bool
  | .presented tag key message =>
    tag ≠ (digest16 (hmacSha256 zeroDigest key.val message)).val ||
      history.any fun m => (key, message) ∈ released zeroDigest demoProvisioning m
  | .hashed input => history.all fun
    | .hashed input' => input' = input
    | _ => true
  | _ => true

theorem markCheck_allowed {m : HandshakeMark} (h : markCheck history m = true) :
    MarkAllowed zeroDigest demoProvisioning history m := by
  cases m with
  | presented tag key message =>
    intro htag
    simp only [markCheck, Bool.or_eq_true, decide_eq_true_eq, List.any_eq_true] at h
    exact h.resolve_left fun hne => hne htag
  | hashed input =>
    intro input' hinput' _
    have := (List.all_eq_true.mp h) _ hinput'
    simpa using this
  | _ => trivial

/-- A device on whose UART the given bytes arrive; it waits when there are none left. -/
def deviceReply : (e : BoardCall ⊕ HandshakeMark) → History × Bytes →
    Option (MarkedReply BoardReply HandshakeMark e × (History × Bytes))
  | .inl (.makeHello bootEpoch), (history, input) =>
    if .boot bootEpoch ∈ history then none else some ((), (.boot bootEpoch :: history, input))
  | .inl .uartGet, (history, input) =>
    input.head?.map fun value => (some value, (history, input.tail))
  | .inl (.uartPut _), t => some ((), t)
  | .inl _, _ => none
  | .inr m, (history, input) => if markCheck history m then some ((), (m :: history, input)) else none

theorem deviceReply_step (e : BoardCall ⊕ HandshakeMark) (t : History × Bytes)
    (r : MarkedReply BoardReply HandshakeMark e) (t' : History × Bytes)
    (h : deviceReply e t = some (r, t')) :
    deviceStep zeroDigest demoProvisioning e t.1 r t'.1 := by
  obtain ⟨history, input⟩ := t
  rcases e with e | m
  · cases e with
    | makeHello bootEpoch =>
      simp only [deviceReply, Option.ite_none_left_eq_some, Option.some.injEq, Prod.mk.injEq] at h
      obtain ⟨hnew, -, rfl⟩ := h
      exact ⟨hnew, rfl⟩
    | uartGet =>
      simp only [deviceReply, Option.map_eq_some_iff, Prod.mk.injEq] at h
      obtain ⟨value, -, -, rfl⟩ := h
      rfl
    | uartPut value =>
      simp only [deviceReply, Option.some.injEq, Prod.mk.injEq] at h
      obtain ⟨-, rfl⟩ := h
      rfl
    | _ => cases h
  · simp only [deviceReply, Option.ite_none_right_eq_some, Option.some.injEq, Prod.mk.injEq] at h
    obtain ⟨hcheck, -, rfl⟩ := h
    exact ⟨markCheck_allowed hcheck, rfl⟩

/-- A peer to which the given bytes arrive and for which everything else succeeds. -/
def peerReply : (e : PeerCall ⊕ HandshakeMark) → History × Bytes →
    Option (MarkedReply PeerReply HandshakeMark e × (History × Bytes))
  | .inl (.read length), (history, input) =>
    if h : (input.take length).length = length then
      some (some ⟨input.take length, h⟩, (history, input.drop length))
    else none
  | .inl (.write _), t => some (true, t)
  | .inl (.random length), t => some (some (Block.zero length), t)
  | .inl .openState, t => some (false, t)
  | .inl (.writeTemporary _), t => some (true, t)
  | .inl .rename, t => some (true, t)
  | .inl (.hello _), t => some ((), t)
  | .inl (.serverFinished _), t => some ((), t)
  | .inl (.established _), t => some ((), t)
  | .inl _, _ => none
  | .inr m, (history, input) => if markCheck history m then some ((), (m :: history, input)) else none

theorem peerReply_step (e : PeerCall ⊕ HandshakeMark) (t : History × Bytes)
    (r : MarkedReply PeerReply HandshakeMark e) (t' : History × Bytes)
    (h : peerReply e t = some (r, t')) : peerStep zeroDigest demoProvisioning e t.1 r t'.1 := by
  obtain ⟨history, input⟩ := t
  rcases e with e | m
  · cases e with
    | read length =>
      simp only [peerReply] at h
      split at h
      · cases h
        rfl
      · cases h
    | openSerial | readFile | scanState => cases h
    | _ =>
      cases h
      rfl
  · simp only [peerReply, Option.ite_none_right_eq_some, Option.some.injEq, Prod.mk.injEq] at h
    obtain ⟨hcheck, -, rfl⟩ := h
    exact ⟨markCheck_allowed hcheck, rfl⟩

/-- The thread makes calls until it waits for more bytes than the given ones. -/
def HandshakePool.feed (pool : HandshakePool) : HandshakeThread → Bytes → HandshakePool
  | .device, input =>
    let rest := (pool.threads .device).runFor deviceReply 400 (pool.state, input)
    ⟨Function.update pool.threads .device rest.1, rest.2.1⟩
  | .peer number, input =>
    let rest := (pool.threads (.peer number)).runFor peerReply 400 (pool.state, input)
    ⟨Function.update pool.threads (.peer number) rest.1, rest.2.1⟩

theorem feed_reached (pool : HandshakePool) (i : HandshakeThread) (input : Bytes) :
    Relation.ReflTransGen (PoolStep (handshakeStep zeroDigest demoProvisioning)
      (handshakeStart zeroDigest demoProvisioning)) pool (pool.feed i input) := by
  cases i with
  | device => exact PoolStep.of_runFor Prod.fst deviceReply_step 400 rfl
  | peer number => exact PoolStep.of_runFor Prod.fst peerReply_step 400 rfl

def demoHello : Block 48 := deviceHello zeroDigest demoRootKey demoDeviceId 1

def demoChallenge : Block 60 := peerChallenge zeroDigest demoRootKey demoHello (Block.zero 16)

def demoFinished (frameType : UInt8) : Block 24 :=
  finishedFrame zeroDigest frameType demoRootKey demoHello demoChallenge

/-- A boot with the epoch 1 that has sent its hello, and a run that has read it. -/
def demoStart : HandshakePool :=
  let booted : HandshakePool :=
    ⟨Function.update idlePool.threads .device (markedDevice zeroDigest demoProvisioning 1), []⟩
  let sent := booted.feed .device []
  ⟨Function.update sent.threads (.peer 0)
    (markedPeer zeroDigest 0 ⟨[], none, [], 1, 0⟩ demoHello), .run 0 :: sent.state⟩

/-- The frames of the two ends delivered in turn. -/
def demoEnd : HandshakePool :=
  (((demoStart.feed (.peer 0) []).feed .device (60 :: demoChallenge.val)).feed (.peer 0)
    (24 :: (demoFinished npqFrameClientFinished).val)).feed .device
      (24 :: (demoFinished npqFrameServerFinished).val)

theorem demoEnd_reached : HandshakeReached zeroDigest demoProvisioning demoEnd.state := by
  have hstart : Relation.ReflTransGen (PoolStep (handshakeStep zeroDigest demoProvisioning)
      (handshakeStart zeroDigest demoProvisioning)) idlePool demoStart := by
    refine .head (.start (show handshakeStart zeroDigest demoProvisioning .device [] _ [] from
      ⟨rfl, 1, rfl⟩)) ?_
    refine .tail (feed_reached _ .device []) ?_
    exact .start (show handshakeStart zeroDigest demoProvisioning (.peer 0) _ _ _ from
      ⟨by decide +kernel, rfl, ⟨[], none, [], 1, 0⟩, demoHello, rfl⟩)
  exact ⟨demoEnd, rfl, (((hstart.trans (feed_reached _ _ _)).trans (feed_reached _ _ _)).trans
    (feed_reached _ _ _)).trans (feed_reached _ _ _)⟩

theorem demoEnd_agreement :
    (∃ session, .deviceEstablished 1 demoHello demoChallenge session ∈ demoEnd.state ∧
      .peerEstablished 0 1 demoHello demoChallenge session.mirrored ∈ demoEnd.state) ∧
    HandshakeAgreement demoEnd.state :=
  ⟨⟨deviceSession zeroDigest demoRootKey demoHello demoChallenge, by decide +kernel⟩,
    reached_agreement demoEnd_reached⟩

end C0PQLink.NanoPQ
