import C0PQLink.Foundation.Interaction
import C0PQLink.NanoPQ.Firmware

/-!
# The host peer of the Nano

`host/nanopq_peer.c`: one run of the program, as calls to the serial line, to the random
source and to the state file. The text of the state file is a list of characters.

* `scanEpoch_print`: what `load_latest_epoch` reads in a file that `store_latest_epoch`
  wrote.
-/

namespace C0PQLink.NanoPQ

open Foundation

variable (sha256 : Bytes → Block 32)

def demoRootKey : Block 32 :=
  ⟨[0x1b, 0x47, 0x6c, 0xe0, 0x0b, 0x45, 0x87, 0x91,
    0x7e, 0xc4, 0xee, 0x14, 0xa2, 0x5e, 0x1a, 0xf6,
    0xb5, 0x3a, 0xb3, 0x39, 0x6d, 0x6c, 0x28, 0x1f,
    0x5a, 0x7a, 0x84, 0xc7, 0x16, 0x67, 0x33, 0x42], rfl⟩

def demoDeviceId : Block 8 := ⟨[0x03, 0xaf, 0xe9, 0xd9, 0x89, 0x40, 0xf1, 0xd2], rfl⟩

def pathMax : Nat := 4096

/-- The options that a run uses, after `parse_options`. -/
structure PeerOptions where
  manifest : List Char
  signature : Option (List Char)
  state : List Char
  led : UInt8
  tamperDemo : UInt8

/-! ## The state file -/

/-- `fprintf` with `"%" PRIu32 "\n"`. -/
def printEpoch (epoch : UInt32) : List Char := Nat.toDigits 10 epoch.toNat ++ ['\n']

/-- `isspace` in the C locale. -/
def isSpace (c : Char) : Bool := c = ' ' || (9 ≤ c.toNat && c.toNat ≤ 13)

/-- The number that `strtoul` makes of a sign and digits, with an `unsigned long` of 64 bits:
the largest one where the digits say more. -/
def unsignedLong (negative : Bool) (number : Nat) : UInt64 :=
  if number < 2 ^ 64 then if negative then 0 - UInt64.ofNat number else UInt64.ofNat number
  else 0xffffffffffffffff

/-- `fscanf` with `"%" SCNu32`: white space, a sign and digits. The C standard leaves open what a
number that does not fit yields; glibc keeps the low 32 bits of the `unsigned long`. -/
def scanEpoch (text : List Char) : Option UInt32 :=
  let text := text.dropWhile isSpace
  let (negative, text) :=
    match text with
    | '-' :: rest => (true, rest)
    | '+' :: rest => (false, rest)
    | _ => (false, text)
  let digits := text.takeWhile Char.isDigit
  if digits = [] then none
  else some (unsignedLong negative (Nat.ofDigitChars 10 digits 0)).toUInt32

theorem digit_facts {c : Char} (h : c.isDigit = true) :
    isSpace c = false ∧ c ≠ '-' ∧ c ≠ '+' := by
  simp only [Char.isDigit, Bool.and_eq_true, decide_eq_true_eq] at h
  have hlow : 48 ≤ c.toNat := h.1
  refine ⟨?_, ?_, ?_⟩
  · have hspace : c ≠ ' ' := by
      rintro rfl
      exact absurd hlow (by decide)
    simp only [isSpace, hspace, decide_false, Bool.false_or, Bool.and_eq_false_iff,
      decide_eq_false_iff_not]
    exact .inr (by omega)
  · rintro rfl
    exact absurd hlow (by decide)
  · rintro rfl
    exact absurd hlow (by decide)

/-- A number of 32 bits is read back. -/
theorem unsignedLong_of_toNat (epoch : UInt32) :
    (unsignedLong false epoch.toNat).toUInt32 = epoch := by
  have hlt := epoch.toNat_lt
  rw [unsignedLong, if_pos (by omega), if_neg Bool.false_ne_true]
  apply UInt32.toNat_inj.mp
  rw [UInt64.toNat_toUInt32, UInt64.toNat_ofNat', Nat.mod_mod_of_dvd _ (by decide),
    Nat.mod_eq_of_lt hlt]

theorem scanEpoch_print (epoch : UInt32) : scanEpoch (printEpoch epoch) = some epoch := by
  have hdigits : ∀ c ∈ Nat.toDigits 10 epoch.toNat, c.isDigit = true :=
    fun c hc => Nat.isDigit_of_mem_toDigits (by decide) (by decide) hc
  have htake : (printEpoch epoch).takeWhile Char.isDigit = Nat.toDigits 10 epoch.toNat := by
    rw [printEpoch, List.takeWhile_append_of_pos hdigits]
    simp
  obtain ⟨c, rest, hcons⟩ := List.exists_cons_of_ne_nil (@Nat.toDigits_ne_nil epoch.toNat 10)
  have htext : printEpoch epoch = c :: (rest ++ ['\n']) := by rw [printEpoch, hcons]; rfl
  have hfirst : c ∈ Nat.toDigits 10 epoch.toNat := by
    rw [hcons]
    exact List.mem_cons_self
  obtain ⟨hblank, hminus, hplus⟩ := digit_facts (hdigits c hfirst)
  have hdrop : (printEpoch epoch).dropWhile isSpace = printEpoch epoch := by
    rw [htext, List.dropWhile_cons, hblank]
    rfl
  unfold scanEpoch
  rw [hdrop]
  simp only
  split
  · rename_i heq
    rw [htext] at heq
    cases heq
    exact absurd rfl hminus
  · rename_i heq
    rw [htext] at heq
    cases heq
    exact absurd rfl hplus
  · simp only [htake, if_neg (@Nat.toDigits_ne_nil epoch.toNat 10), Nat.ofDigitChars_ten_toDigits,
      unsignedLong_of_toNat]

/-- White space of every kind is skipped, and a number of more than 64 bits is the largest. -/
example : scanEpoch "\n\t\x0b\x0c\r +7x".toList = some 7 ∧
    scanEpoch "18446744073709551616".toList = some 0xffffffff := by decide

/-! ## The calls of a run -/

/-- `openState` and `scanState` are the `fopen` and the `fscanf` of `load_latest_epoch`;
`writeTemporary` is `store_latest_epoch` up to its `fclose`. Three calls mark a place only:
`hello` a verified hello, `serverFinished` the send of the Server Finished, and `established`
the line that is printed behind it. -/
inductive PeerCall where
  | openSerial
  | read (length : Nat)
  | write (bytes : Bytes)
  | readFile (path : List Char) (length : Nat)
  | random (length : Nat)
  | openState
  | scanState
  | writeTemporary (text : List Char)
  | rename
  | hello (bootEpoch : UInt32)
  | serverFinished (bootEpoch : UInt32)
  | established (bootEpoch : UInt32)

abbrev PeerReply : PeerCall → Type
  | .openSerial => Bool
  | .read length => Option (Block length)
  | .write _ => Bool
  | .readFile _ length => Option (Block length)
  | .random length => Option (Block length)
  | .openState => Bool
  | .scanState => Option UInt32
  | .writeTemporary _ => Bool
  | .rename => Bool
  | .hello _ => Unit
  | .serverFinished _ => Unit
  | .established _ => Unit

abbrev HostPeer := Program PeerCall PeerReply

/-! ## Frames -/

def readFrame : HostPeer (Option Bytes) := do
  match ← .perform (PeerCall.read 1) with
  | none => return none
  | some lengthByte =>
    let length := (byteAt lengthByte.val 0).toNat
    if length = 0 ∨ length > npqFrameMaxBytes then return none
    match ← .perform (PeerCall.read length) with
    | none => return none
    | some frame => return some frame.val

/-- The loop of `read_protocol_frame`. -/
def readProtocolFrameFrom : Nat → HostPeer (Option Bytes)
  | 0 => return none
  | attempts + 1 => do
    match ← readFrame with
    | none => return none
    | some frame =>
      if frame.length ≥ 4 ∧ byteAt frame 0 = 0x4e ∧ byteAt frame 1 = 0x51
          ∧ byteAt frame 2 = 1 then return some frame
      else readProtocolFrameFrom attempts

def readProtocolFrame : HostPeer (Option Bytes) := readProtocolFrameFrom 8

def writeFrame (frame : Bytes) : HostPeer Bool := do
  if ← .perform (PeerCall.write [UInt8.ofNat frame.length]) then
    .perform (PeerCall.write frame)
  else return false

/-! ## The latest epoch -/

def loadLatestEpoch : HostPeer UInt32 := do
  if ← .perform PeerCall.openState then
    match ← .perform PeerCall.scanState with
    | some epoch => return epoch
    | none => return 0
  else return 0

def storeLatestEpoch (options : PeerOptions) (epoch : UInt32) : HostPeer Bool := do
  if options.state.length + 4 ≥ pathMax then return false
  if ← .perform (PeerCall.writeTemporary (printEpoch epoch)) then
    .perform PeerCall.rename
  else return false

/-! ## Enrollment -/

def npqFrameEnrollChunkReady : UInt8 := 9

def signatureFile (options : PeerOptions) (algorithmId : UInt8) : Option (List Char × Nat) :=
  if algorithmId = 1 then
    some (options.signature.getD "tests/vectors/slhdsa_signature.bin".toList, 7856)
  else if algorithmId = 2 then
    some (options.signature.getD "tests/vectors/lms_w4_signature.bin".toList, 2348)
  else if algorithmId = 3 then
    some (options.signature.getD "tests/vectors/lms_w8_signature.bin".toList, 1292)
  else none

/-- The loop of `run_enrollment`, for at most `requests` frames. -/
def serveSignature (signature : Bytes) : Nat → Nat → HostPeer Bool
  | 0, _ => return false
  | requests + 1, offset => do
    match ← readProtocolFrame with
    | none => return false
    | some frame =>
      if byteAt frame 3 = npqFrameEnrollChunkReady ∧ frame.length = 6 then
        let requested := beNat (slice frame 4 2)
        if requested = 0 ∨ requested > signature.length - offset then return false
        if ← .perform (PeerCall.write (slice signature offset requested)) then
          serveSignature signature requests (offset + requested)
        else return false
      else if byteAt frame 3 = npqFrameEnrollResult ∧ frame.length = 5 then
        return byteAt frame 4 = 1 ∧ offset = signature.length
      else return false

def runEnrollment (options : PeerOptions) (algorithmId : UInt8) : HostPeer Bool := do
  let manifest ← .perform (PeerCall.readFile options.manifest npqPolicyManifestBytes)
  match signatureFile options algorithmId with
  | none => return false
  | some (path, length) =>
    match manifest, ← .perform (PeerCall.readFile path length) with
    | some manifest, some signature =>
      if ← writeFrame ([0x4e, 0x51, 1, npqFrameEnrollBegin] ++ manifest.val) then
        serveSignature signature.val (length + 1) 0
      else return false
    | _, _ => return false

/-! ## The session -/

/-- `establish_session` of the peer, from `fill_random` on. -/
def confirmSession (options : PeerOptions) (hello : Block 48) (bootEpoch : UInt32) :
    HostPeer (Option NpqSession) := do
  match ← .perform (PeerCall.random 16) with
  | none => return none
  | some serverNonce =>
    match npqMakeChallenge sha256 demoRootKey hello serverNonce with
    | .error _ => return none
    | .ok challenge =>
      if ← writeFrame challenge.val then
        match npqDeriveSession sha256 npqRoleServer demoRootKey hello challenge with
        | .error _ => return none
        | .ok session =>
          let frame := (← readProtocolFrame).getD []
          if hfinished : frame.length = 24 then
            if npqVerifyFinished sha256 ⟨frame, hfinished⟩ npqFrameClientFinished demoRootKey
                hello challenge ≠ .ok then return none
            if ← storeLatestEpoch options bootEpoch then
              match npqMakeFinished sha256 npqFrameServerFinished demoRootKey hello challenge with
              | .error _ => return none
              | .ok finished =>
                .perform (PeerCall.serverFinished bootEpoch)
                if ← writeFrame finished.val then
                  .perform (PeerCall.established bootEpoch)
                  return some session
                else return none
            else return none
          else return none
      else return none

def establishPeerSession (options : PeerOptions) (hello : Block 48) :
    HostPeer (Option NpqSession) := do
  if npqVerifyHello sha256 hello demoRootKey ≠ .ok
      ∨ slice hello.val 4 8 ≠ demoDeviceId.val then return none
  let bootEpoch := load32BE (slice hello.val 12 4)
  .perform (PeerCall.hello bootEpoch)
  let latestEpoch ← loadLatestEpoch
  if bootEpoch ≤ latestEpoch then return none
  confirmSession sha256 options hello bootEpoch

/-! ## The demonstration -/

/-- The plaintext of the next frame, if it opens, and the session after it. -/
def receivePlaintext (session : NpqSession) : HostPeer (Option Bytes × NpqSession) := do
  match ← readProtocolFrame with
  | none => return (none, session)
  | some frame =>
    match npqOpen sha256 session frame with
    | (.ok plaintext, session) => return (some plaintext, session)
    | (.error _, session) => return (none, session)

/-- The session after a status with the expected verdict; `none` for any other record. -/
def requireStatus (session : NpqSession) (expectedAccepted : UInt8) :
    HostPeer (Option NpqSession) := do
  match ← receivePlaintext sha256 session with
  | (some plaintext, session) =>
    if plaintext.length = 3 ∧ byteAt plaintext 0 = npqPayloadStatus
        ∧ byteAt plaintext 1 = expectedAccepted then return some session
    else return none
  | (none, _) => return none

def receiveSensor (session : NpqSession) : HostPeer (Option NpqSession) := do
  match ← receivePlaintext sha256 session with
  | (some plaintext, session) =>
    if plaintext.length = 7 ∧ byteAt plaintext 0 = npqPayloadSensor then return some session
    else return none
  | (none, _) => return none

/-- Sends a frame and waits for a status. -/
def sendCommand (session : NpqSession) (frame : Bytes) (expectedAccepted : UInt8) :
    HostPeer (Option NpqSession) := do
  if ← writeFrame frame then requireStatus sha256 session expectedAccepted else return none

/-- The frame with its last bit flipped. -/
def tampered (frame : Bytes) : Bytes :=
  frame.set (frame.length - 1) (byteAt frame (frame.length - 1) ^^^ 1)

/-- The part of `run_live_demo` in front of the command, if the options ask for it. -/
def tamperDemo (options : PeerOptions) (session : NpqSession) (commandFrame : Bytes) :
    HostPeer (Option NpqSession) := do
  if options.tamperDemo ≠ 0 then
    match ← sendCommand sha256 session (tampered commandFrame) 0 with
    | none => return none
    | some session => receiveSensor sha256 session
  else return some session

/-- The part of `run_live_demo` behind the command. -/
def replayDemo (options : PeerOptions) (session : NpqSession) (commandFrame : Bytes) :
    HostPeer Bool := do
  if options.tamperDemo ≠ 0 then
    match ← receiveSensor sha256 session with
    | none => return false
    | some session => return (← sendCommand sha256 session commandFrame 0).isSome
  else return true

def runLiveDemo (options : PeerOptions) (session : NpqSession) : HostPeer Bool := do
  match ← receiveSensor sha256 session with
  | none => return false
  | some session =>
    match npqSeal sha256 session [npqPayloadCommand, options.led] with
    | (.error _, _) => return false
    | (.ok commandFrame, session) =>
      match ← tamperDemo sha256 options session commandFrame with
      | none => return false
      | some session =>
        match ← sendCommand sha256 session commandFrame 1 with
        | none => return false
        | some session => replayDemo sha256 options session commandFrame

/-! ## A run -/

/-- The hello of a run, behind the enrollment that the Nano may ask for. -/
def awaitHello (options : PeerOptions) (first : Bytes) : HostPeer (Option Bytes) := do
  if byteAt first 3 = npqFrameEnrollRequired then
    if first.length ≠ 5 then return none
    if ← runEnrollment options (byteAt first 4) then readProtocolFrame else return none
  else return some first

/-- `main` of the peer, behind `parse_options`; whether the run succeeded. -/
def peerMain (options : PeerOptions) : HostPeer Bool := do
  if ← .perform PeerCall.openSerial then
    match ← readProtocolFrame with
    | none => return false
    | some first =>
      match ← awaitHello options first with
      | none => return false
      | some first =>
        if hlength : byteAt first 3 = npqFrameHello ∧ first.length = 48 then
          match ← establishPeerSession sha256 options ⟨first, hlength.2⟩ with
          | none => return false
          | some session => runLiveDemo sha256 options session
        else return false
  else return false

end C0PQLink.NanoPQ
