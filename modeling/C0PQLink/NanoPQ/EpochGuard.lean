import Mathlib.Data.List.Pairwise
import C0PQLink.NanoPQ.HostPeer

/-!
# The epoch guard of the host peer

The boot epochs that the peer accepts over all its runs, each of which may be killed at any
moment. `load_latest_epoch` returns 0 for a file that it fails to open or to parse, as for
a file that does not exist.

* `peerMain_wpCut`: a run keeps every epoch that was used at most the stored one.
* `reached_epochsGuarded`: as long as no run fails to read an epoch that its hello does not
  exceed, the accepted epochs increase.
-/

namespace C0PQLink.NanoPQ

open Foundation

variable (sha256 : Bytes → Block 32)

/-! ## The host -/

inductive PeerEvent where
  | started
  | hello (bootEpoch : UInt32)
  | serverFinished (bootEpoch : UInt32)
  | established (bootEpoch : UInt32)
  deriving DecidableEq

/-- The text of the state file and of the temporary file next to it, and the events of all
runs so far, the last one first. -/
structure PeerHost where
  state : Option (List Char)
  temporary : Option (List Char)
  events : List PeerEvent

def PeerHost.log (s : PeerHost) (event : PeerEvent) : PeerHost :=
  { s with events := event :: s.events }

/-- The epoch that a read of the state file yields. -/
def PeerHost.stored (s : PeerHost) : UInt32 := (s.state.bind scanEpoch).getD 0

/-- The answers of the host. A read of the state file that would succeed fails only when
`MayFail`; everything else may always fail, and the serial line delivers anything. -/
def hostStep (MayFail : PeerHost → Prop) :
    (e : PeerCall) → PeerHost → PeerReply e → PeerHost → Prop
  | .openSerial, s, _, s' => s' = s.log .started
  | .openState, s, opened, s' =>
    s' = s ∧ (opened = true → s.state ≠ none) ∧ (opened = false → s.state = none ∨ MayFail s)
  | .scanState, s, epoch, s' =>
    s' = s ∧ (epoch = s.state.bind scanEpoch ∨ epoch = none ∧ MayFail s)
  | .writeTemporary text, s, written, s' =>
    ∃ temporary, s' = { s with temporary } ∧ (written = true → temporary = some text)
  | .rename, s, renamed, s' =>
    if renamed = true then s' = { s with state := s.temporary, temporary := none } else s' = s
  | .hello bootEpoch, s, _, s' => s' = s.log (.hello bootEpoch)
  | .serverFinished bootEpoch, s, _, s' => s' = s.log (.serverFinished bootEpoch)
  | .established bootEpoch, s, _, s' => s' = s.log (.established bootEpoch)
  | _, s, _, s' => s' = s

/-- What a call that does not return leaves behind: the rename is atomic. -/
def hostInterrupt : PeerCall → PeerHost → PeerHost → Prop
  | .writeTemporary _, s, s' => ∃ temporary, s' = { s with temporary }
  | .rename, s, s' => s' = s ∨ s' = { s with state := s.temporary, temporary := none }
  | _, s, s' => s' = s

/-- The hosts that runs of the peer lead to, with any options in each run. -/
inductive PeerReached (MayFail : PeerHost → Prop) : PeerHost → Prop where
  | start (state temporary : Option (List Char)) : PeerReached MayFail ⟨state, temporary, []⟩
  | run {s s' : PeerHost} (options : PeerOptions) (reached : PeerReached MayFail s)
      (cut : Program.Cut (hostStep MayFail) hostInterrupt (peerMain sha256 options) s s') :
      PeerReached MayFail s'

/-- The epochs with which `establish_session` returned 1, the last one first. -/
def PeerHost.accepted (s : PeerHost) : List UInt32 :=
  s.events.filterMap fun
    | .established bootEpoch => some bootEpoch
    | _ => none

/-- The law of the claim that an epoch is accepted once. -/
structure EpochsGuarded (s : PeerHost) : Prop where
  increasing : s.accepted.Pairwise (· > ·)
  afterFinished : ∀ later earlier epoch epoch', s.events = later ++ .started :: earlier →
    .serverFinished epoch ∈ earlier → .established epoch' ∈ later → epoch < epoch'

/-! ## Calls that leave the host alone -/

/-- The calls to the serial line, to the random source and to the files of the enrollment. -/
def QuietPeerCall : PeerCall → Prop
  | .read _ | .write _ | .readFile _ _ | .random _ => True
  | _ => False

theorem quietPeer_wpCut {α : Type} {MayFail : PeerHost → Prop} {p : HostPeer α}
    {I : PeerHost → Prop} {Q : α → PeerHost → Prop} {s : PeerHost} (h : p.Only QuietPeerCall)
    (hs : I s) (hq : ∀ a, Q a s) : p.wpCut (hostStep MayFail) hostInterrupt I Q s := by
  have hsame : p.wpCut (hostStep MayFail) hostInterrupt (· = s) (fun _ s' => s' = s) s := by
    refine h.wpCut rfl (fun e t t' he ht hinterrupt => ?_) (fun e t r t' he ht hstep => ?_)
    · cases e with
      | read | write | readFile | random =>
        obtain rfl := hinterrupt
        exact ht
      | _ => exact he.elim
    · cases e with
      | read | write | readFile | random =>
        obtain rfl := hstep
        exact ht
      | _ => exact he.elim
  refine Program.wpCut_mono (fun s' hs' => ?_) (fun a s' _ hs' => ?_) hsame
  · rw [hs']
    exact hs
  · rw [hs']
    exact hq a

theorem readFrame_quiet : readFrame.Only QuietPeerCall := by
  refine Program.only_bind (Program.only_perform trivial) fun length => ?_
  cases length with
  | none => exact Program.only_pure _
  | some length =>
    simp only
    split
    · exact Program.only_pure _
    · refine Program.only_bind (Program.only_perform trivial) fun frame => ?_
      cases frame <;> exact Program.only_pure _

theorem readProtocolFrame_quiet : readProtocolFrame.Only QuietPeerCall := by
  have hfrom (attempts : Nat) : (readProtocolFrameFrom attempts).Only QuietPeerCall := by
    induction attempts with
    | zero => exact Program.only_pure _
    | succ attempts ih =>
      refine Program.only_bind readFrame_quiet fun frame => ?_
      cases frame with
      | none => exact Program.only_pure _
      | some frame =>
        simp only
        split
        · exact Program.only_pure _
        · exact ih
  exact hfrom 8

theorem writeFrame_quiet (frame : Bytes) : (writeFrame frame).Only QuietPeerCall := by
  refine Program.only_bind (Program.only_perform trivial) fun written => ?_
  split
  · exact Program.only_perform trivial
  · exact Program.only_pure _

theorem serveSignature_quiet (signature : Bytes) (requests offset : Nat) :
    (serveSignature signature requests offset).Only QuietPeerCall := by
  induction requests generalizing offset with
  | zero => exact Program.only_pure _
  | succ requests ih =>
    refine Program.only_bind readProtocolFrame_quiet fun frame => ?_
    cases frame with
    | none => exact Program.only_pure _
    | some frame =>
      simp only
      split
      · split
        · exact Program.only_pure _
        · refine Program.only_bind (Program.only_perform trivial) fun written => ?_
          split
          · exact ih _
          · exact Program.only_pure _
      · split <;> exact Program.only_pure _

theorem runEnrollment_quiet (options : PeerOptions) (algorithmId : UInt8) :
    (runEnrollment options algorithmId).Only QuietPeerCall := by
  refine Program.only_bind (Program.only_perform trivial) fun manifest => ?_
  split
  · exact Program.only_pure _
  · refine Program.only_bind (Program.only_perform trivial) fun signature => ?_
    split
    · refine Program.only_bind (writeFrame_quiet _) fun written => ?_
      split
      · exact serveSignature_quiet _ _ _
      · exact Program.only_pure _
    · exact Program.only_pure _

theorem receivePlaintext_quiet (session : NpqSession) :
    (receivePlaintext sha256 session).Only QuietPeerCall := by
  refine Program.only_bind readProtocolFrame_quiet fun frame => ?_
  cases frame with
  | none => exact Program.only_pure _
  | some frame =>
    simp only
    split <;> exact Program.only_pure _

theorem requireStatus_quiet (session : NpqSession) (expectedAccepted : UInt8) :
    (requireStatus sha256 session expectedAccepted).Only QuietPeerCall := by
  refine Program.only_bind (receivePlaintext_quiet sha256 session) fun received => ?_
  split
  · split <;> exact Program.only_pure _
  · exact Program.only_pure _

theorem receiveSensor_quiet (session : NpqSession) :
    (receiveSensor sha256 session).Only QuietPeerCall := by
  refine Program.only_bind (receivePlaintext_quiet sha256 session) fun received => ?_
  split
  · split <;> exact Program.only_pure _
  · exact Program.only_pure _

theorem sendCommand_quiet (session : NpqSession) (frame : Bytes) (expectedAccepted : UInt8) :
    (sendCommand sha256 session frame expectedAccepted).Only QuietPeerCall := by
  refine Program.only_bind (writeFrame_quiet frame) fun written => ?_
  split
  · exact requireStatus_quiet sha256 _ _
  · exact Program.only_pure _

theorem tamperDemo_quiet (options : PeerOptions) (session : NpqSession) (commandFrame : Bytes) :
    (tamperDemo sha256 options session commandFrame).Only QuietPeerCall := by
  unfold tamperDemo
  split
  · refine Program.only_bind (sendCommand_quiet sha256 _ _ _) fun session => ?_
    cases session with
    | none => exact Program.only_pure _
    | some session => exact receiveSensor_quiet sha256 session
  · exact Program.only_pure _

theorem replayDemo_quiet (options : PeerOptions) (session : NpqSession) (commandFrame : Bytes) :
    (replayDemo sha256 options session commandFrame).Only QuietPeerCall := by
  unfold replayDemo
  split
  · refine Program.only_bind (receiveSensor_quiet sha256 _) fun session => ?_
    cases session with
    | none => exact Program.only_pure _
    | some session =>
      exact Program.only_bind (sendCommand_quiet sha256 _ _ _) fun _ => Program.only_pure _
  · exact Program.only_pure _

theorem runLiveDemo_quiet (options : PeerOptions) (session : NpqSession) :
    (runLiveDemo sha256 options session).Only QuietPeerCall := by
  refine Program.only_bind (receiveSensor_quiet sha256 session) fun sensor => ?_
  cases sensor with
  | none => exact Program.only_pure _
  | some session =>
    simp only
    split
    · exact Program.only_pure _
    · refine Program.only_bind (tamperDemo_quiet sha256 _ _ _) fun session => ?_
      cases session with
      | none => exact Program.only_pure _
      | some session =>
        refine Program.only_bind (sendCommand_quiet sha256 _ _ _) fun session => ?_
        cases session with
        | none => exact Program.only_pure _
        | some session => exact replayDemo_quiet sha256 _ _ _

theorem awaitHello_quiet (options : PeerOptions) (first : Bytes) :
    (awaitHello options first).Only QuietPeerCall := by
  unfold awaitHello
  split
  · split
    · exact Program.only_pure _
    · refine Program.only_bind (runEnrollment_quiet options _) fun enrolled => ?_
      split
      · exact readProtocolFrame_quiet
      · exact Program.only_pure _
  · exact Program.only_pure _

/-! ## The invariant -/

/-- The epochs of the Server Finished that were sent and of the sessions, the last one first. -/
def PeerHost.used (s : PeerHost) : List UInt32 :=
  s.events.filterMap fun
    | .serverFinished bootEpoch => some bootEpoch
    | .established bootEpoch => some bootEpoch
    | _ => none

theorem mem_used {s : PeerHost} {epoch : UInt32} :
    epoch ∈ s.used ↔ .serverFinished epoch ∈ s.events ∨ .established epoch ∈ s.events := by
  unfold PeerHost.used
  rw [List.mem_filterMap]
  constructor
  · rintro ⟨event, hmem, hevent⟩
    cases event with
    | started => cases hevent
    | hello => cases hevent
    | serverFinished =>
      cases hevent
      exact .inl hmem
    | established =>
      cases hevent
      exact .inr hmem
  · rintro (h | h)
    · exact ⟨_, h, rfl⟩
    · exact ⟨_, h, rfl⟩

theorem mem_accepted {s : PeerHost} {epoch : UInt32} :
    epoch ∈ s.accepted ↔ .established epoch ∈ s.events := by
  unfold PeerHost.accepted
  rw [List.mem_filterMap]
  constructor
  · rintro ⟨event, hmem, hevent⟩
    cases event with
    | established =>
      cases hevent
      exact hmem
    | _ => cases hevent
  · exact fun h => ⟨_, h, rfl⟩

structure HostInvariant (s : PeerHost) : Prop where
  used : ∀ epoch ∈ s.used, epoch ≤ s.stored
  guarded : EpochsGuarded s

theorem HostInvariant.start (state temporary : Option (List Char)) :
    HostInvariant ⟨state, temporary, []⟩ := by
  refine ⟨nofun, .nil, fun later earlier _ _ hevents => ?_⟩
  cases later with
  | nil => cases hevents
  | cons event later => cases hevents

/-- The invariant only needs the stored epoch to be large enough. -/
theorem HostInvariant.of_stored {s s' : PeerHost} (h : HostInvariant s)
    (hevents : s'.events = s.events) (hstored : s.stored ≤ s'.stored) : HostInvariant s' := by
  refine ⟨fun epoch hused => ?_, ?_, ?_⟩
  · rw [PeerHost.used, hevents] at hused
    exact UInt32.le_trans (h.used epoch hused) hstored
  · rw [PeerHost.accepted, hevents]
    exact h.guarded.increasing
  · rw [hevents]
    exact h.guarded.afterFinished

/-- An event that is no acceptance. -/
theorem EpochsGuarded.log {s : PeerHost} (h : EpochsGuarded s) {event : PeerEvent}
    (hevent : ∀ epoch, event ≠ .established epoch) : EpochsGuarded (s.log event) := by
  constructor
  · have hsame : (s.log event).accepted = s.accepted := by
      cases event with
      | established epoch => exact absurd rfl (hevent epoch)
      | _ => rfl
    rw [hsame]
    exact h.increasing
  · intro later earlier epoch epoch' hevents hfinished hestablished
    cases later with
    | nil => cases hestablished
    | cons first later =>
      obtain ⟨hfirst, hrest⟩ := List.cons.inj hevents
      rcases List.mem_cons.mp hestablished with heq | hmem
      · exact absurd (hfirst.trans heq.symm) (hevent epoch')
      · exact h.afterFinished later earlier epoch epoch' hrest hfinished hmem

theorem HostInvariant.log {s : PeerHost} (h : HostInvariant s) {event : PeerEvent}
    (hevent : ∀ epoch, event ≠ .established epoch)
    (hfinished : ∀ epoch, event = .serverFinished epoch → epoch ≤ s.stored) :
    HostInvariant (s.log event) := by
  refine ⟨fun epoch hused => ?_, h.guarded.log hevent⟩
  rcases mem_used.mp hused with hmem | hmem
  · rcases List.mem_cons.mp hmem with heq | hmem
    · exact hfinished epoch heq.symm
    · exact h.used epoch (mem_used.mpr (.inl hmem))
  · rcases List.mem_cons.mp hmem with heq | hmem
    · exact absurd heq.symm (hevent epoch)
    · exact h.used epoch (mem_used.mpr (.inr hmem))

/-- The acceptance of an epoch that is newer than everything before its run. -/
theorem HostInvariant.established {s : PeerHost} {old : List PeerEvent} {bootEpoch : UInt32}
    (h : HostInvariant s) (hstored : s.stored = bootEpoch)
    (hevents : s.events = .serverFinished bootEpoch :: .hello bootEpoch :: .started :: old)
    (hnewer : ∀ epoch, .serverFinished epoch ∈ old ∨ .established epoch ∈ old →
      epoch < bootEpoch) :
    HostInvariant (s.log (.established bootEpoch)) := by
  refine ⟨fun epoch hused => ?_, ?_, fun later earlier epoch epoch' hsplit hfinished hmem => ?_⟩
  · rcases mem_used.mp hused with hmem | hmem
    · rcases List.mem_cons.mp hmem with heq | hmem
      · cases heq
      · exact h.used epoch (mem_used.mpr (.inl hmem))
    · rcases List.mem_cons.mp hmem with heq | hmem
      · cases heq
        exact hstored ▸ UInt32.le_refl _
      · exact h.used epoch (mem_used.mpr (.inr hmem))
  · refine List.pairwise_cons.mpr ⟨fun epoch hmem => ?_, h.guarded.increasing⟩
    have hmem := mem_accepted.mp hmem
    rw [hevents] at hmem
    simp only [List.mem_cons, reduceCtorEq, false_or] at hmem
    exact hnewer epoch (.inr hmem)
  · cases later with
    | nil => cases hmem
    | cons first later =>
      obtain ⟨hfirst, hrest⟩ := List.cons.inj hsplit
      change s.events = later ++ PeerEvent.started :: earlier at hrest
      rcases List.mem_cons.mp hmem with heq | hmem
      · -- the start of a run that lies before the acceptance is at most the one of its own run
        have hepoch : epoch' = bootEpoch := by
          have := hfirst.trans heq.symm
          cases this
          rfl
        subst hepoch
        refine hnewer epoch (.inl ?_)
        rw [hevents] at hrest
        rcases later with - | ⟨_, - | ⟨_, - | ⟨_, later⟩⟩⟩
        · cases hrest
        · cases hrest
        · cases hrest
          exact hfinished
        · simp only [List.cons_append, List.cons.injEq] at hrest
          obtain ⟨-, -, -, hold⟩ := hrest
          rw [hold]
          exact List.mem_append_right _ (List.mem_cons_of_mem _ hfinished)
      · exact h.guarded.afterFinished later earlier epoch epoch' hrest hfinished hmem

/-! ## One run -/

/-- What a run whose read of the state file fails needs to know: the epoch of its hello is
newer than the one it does not read. -/
def NewerHello (s : PeerHost) : Prop :=
  ∀ bootEpoch rest, s.events = .hello bootEpoch :: rest → s.stored < bootEpoch

/-- A run behind its hello, before anything is stored: everything used is older. -/
structure AfterHello (bootEpoch : UInt32) (s : PeerHost) : Prop where
  invariant : HostInvariant s
  events : ∃ old, s.events = .hello bootEpoch :: .started :: old

variable {s : PeerHost}

theorem loadLatestEpoch_wpCut {bootEpoch : UInt32} {Q : UInt32 → PeerHost → Prop}
    (h : AfterHello bootEpoch s)
    (hq : ∀ latestEpoch, latestEpoch < bootEpoch → s.stored < bootEpoch → Q latestEpoch s)
    (hq' : ∀ latestEpoch, bootEpoch ≤ latestEpoch → Q latestEpoch s) :
    loadLatestEpoch.wpCut (hostStep NewerHello) hostInterrupt HostInvariant Q s := by
  have hdone {latestEpoch : UInt32}
      (hread : latestEpoch = s.stored ∨ NewerHello s) : Q latestEpoch s := by
    rcases UInt32.lt_or_le latestEpoch bootEpoch with hlt | hle
    · refine hq latestEpoch hlt ?_
      rcases hread with heq | hnewer
      · exact heq ▸ hlt
      · obtain ⟨old, hold⟩ := h.events
        exact hnewer bootEpoch _ hold
    · exact hq' latestEpoch hle
  refine Program.wpCut_bind (Program.wpCut_perform h.invariant (fun s' hs' => hs' ▸ h.invariant)
    fun opened s1 hopened => ?_)
  obtain ⟨rfl, hexists, habsent⟩ := hopened
  refine ⟨h.invariant, ?_⟩
  cases opened with
  | false =>
    refine ⟨h.invariant, hdone ?_⟩
    rcases habsent rfl with hnone | hfailed
    · left
      rw [PeerHost.stored, hnone]
      rfl
    · exact .inr hfailed
  | true =>
    refine Program.wpCut_bind (Program.wpCut_perform h.invariant
      (fun s' hs' => hs' ▸ h.invariant) fun scanned s2 hscanned => ?_)
    obtain ⟨rfl, hscanned⟩ := hscanned
    refine ⟨h.invariant, ?_⟩
    have hread : scanned.getD 0 = s2.stored ∨ NewerHello s2 := by
      rcases hscanned with heq | ⟨-, hfailed⟩
      · exact .inl (by rw [heq]; rfl)
      · exact .inr hfailed
    cases scanned with
    | none => exact ⟨h.invariant, hdone hread⟩
    | some epoch => exact ⟨h.invariant, hdone hread⟩

theorem storeLatestEpoch_wpCut {options : PeerOptions} {bootEpoch : UInt32}
    {Q : Bool → PeerHost → Prop} (h : HostInvariant s) (hnewer : s.stored < bootEpoch)
    (hq : ∀ s', s'.events = s.events → s'.stored = bootEpoch → Q true s')
    (hq' : ∀ s', HostInvariant s' → Q false s') :
    (storeLatestEpoch options bootEpoch).wpCut (hostStep NewerHello) hostInterrupt HostInvariant
      Q s := by
  have hother (temporary : Option (List Char)) : HostInvariant { s with temporary } :=
    h.of_stored rfl (UInt32.le_refl _)
  unfold storeLatestEpoch
  split
  · exact ⟨h, hq' s h⟩
  refine Program.wpCut_bind (Program.wpCut_perform h ?_ fun written s1 hwritten => ?_)
  · rintro s1 ⟨temporary, rfl⟩
    exact hother temporary
  obtain ⟨temporary, rfl, hwritten⟩ := hwritten
  refine ⟨hother temporary, ?_⟩
  cases written with
  | false => exact ⟨hother temporary, hq' _ (hother temporary)⟩
  | true =>
    obtain rfl := hwritten rfl
    have hstored :
        (⟨some (printEpoch bootEpoch), none, s.events⟩ : PeerHost).stored = bootEpoch := by
      rw [PeerHost.stored, Option.bind_some, scanEpoch_print]
      rfl
    have hrenamed : HostInvariant ⟨some (printEpoch bootEpoch), none, s.events⟩ :=
      h.of_stored rfl (by rw [hstored]; exact UInt32.le_of_lt hnewer)
    refine Program.wpCut_perform (hother _) ?_ fun renamed s2 hs2 => ?_
    · rintro s2 (rfl | rfl)
      · exact hother _
      · exact hrenamed
    · cases renamed with
      | true =>
        obtain rfl : s2 = ⟨some (printEpoch bootEpoch), none, s.events⟩ := hs2
        exact ⟨hrenamed, hq _ rfl hstored⟩
      | false =>
        obtain rfl : s2 = { s with temporary := some (printEpoch bootEpoch) } := hs2
        exact ⟨hother _, hq' _ (hother _)⟩

/-- What was used before a run is older than an epoch above the stored one. -/
theorem AfterHello.older {bootEpoch : UInt32} (h : AfterHello bootEpoch s)
    (hnewer : s.stored < bootEpoch) :
    ∃ old, s.events = .hello bootEpoch :: .started :: old ∧
      ∀ epoch, .serverFinished epoch ∈ old ∨ .established epoch ∈ old → epoch < bootEpoch := by
  obtain ⟨old, hold⟩ := h.events
  refine ⟨old, hold, fun epoch hepoch => ?_⟩
  have hused : epoch ∈ s.used := by
    rw [mem_used, hold]
    exact hepoch.imp (fun hmem => by simp [hmem]) (fun hmem => by simp [hmem])
  exact UInt32.lt_of_le_of_lt (h.invariant.used epoch hused) hnewer

theorem confirmSession_wpCut {options : PeerOptions} {hello : Block 48} {bootEpoch : UInt32}
    (h : AfterHello bootEpoch s) (hnewer : s.stored < bootEpoch) :
    (confirmSession sha256 options hello bootEpoch).wpCut (hostStep NewerHello) hostInterrupt
      HostInvariant (fun _ => HostInvariant) s := by
  obtain ⟨old, hold, holder⟩ := h.older hnewer
  have hstop {α : Type} (a : α) : (pure a : HostPeer α).wpCut (hostStep NewerHello) hostInterrupt
      HostInvariant (fun _ => HostInvariant) s := ⟨h.invariant, h.invariant⟩
  unfold confirmSession
  refine Program.wpCut_bind (quietPeer_wpCut (Program.only_perform trivial) h.invariant
    fun random => ?_)
  split
  · exact hstop _
  split
  · exact hstop _
  refine Program.wpCut_bind (quietPeer_wpCut (writeFrame_quiet _) h.invariant fun written => ?_)
  split
  swap
  · exact hstop _
  split
  · exact hstop _
  refine Program.wpCut_bind (quietPeer_wpCut readProtocolFrame_quiet h.invariant fun frame => ?_)
  simp only
  split
  swap
  · exact hstop _
  split
  · exact hstop _
  refine Program.wpCut_bind (storeLatestEpoch_wpCut h.invariant hnewer
    (fun s' hevents hstored => ?_) (fun s' hs' => ⟨hs', hs'⟩))
  have hinvariant : HostInvariant s' := h.invariant.of_stored hevents
    (by rw [hstored]; exact UInt32.le_of_lt hnewer)
  simp only [if_true]
  split
  · exact ⟨hinvariant, hinvariant⟩
  have hfinished : HostInvariant (s'.log (.serverFinished bootEpoch)) :=
    hinvariant.log (fun _ => nofun) fun epoch hepoch => by
      cases hepoch
      rw [hstored]
      exact UInt32.le_refl _
  refine Program.wpCut_bind (Program.wpCut_perform hinvariant (fun s1 hs1 => hs1 ▸ hinvariant)
    fun _ s1 hs1 => ?_)
  obtain rfl : s1 = s'.log (.serverFinished bootEpoch) := hs1
  refine ⟨hfinished, Program.wpCut_bind (quietPeer_wpCut (writeFrame_quiet _) hfinished
    fun sent => ?_)⟩
  split
  swap
  · exact ⟨hfinished, hfinished⟩
  have hestablished : HostInvariant ((s'.log (.serverFinished bootEpoch)).log
      (.established bootEpoch)) :=
    hfinished.established hstored (by rw [← hold, ← hevents]; rfl) holder
  refine Program.wpCut_bind (Program.wpCut_perform hfinished (fun s2 hs2 => hs2 ▸ hfinished)
    fun _ s2 hs2 => ?_)
  obtain rfl : s2 = (s'.log (.serverFinished bootEpoch)).log (.established bootEpoch) := hs2
  exact ⟨hestablished, hestablished, hestablished⟩

theorem establishPeerSession_wpCut {options : PeerOptions} {hello : Block 48}
    (h : HostInvariant s) (hstarted : ∃ old, s.events = .started :: old) :
    (establishPeerSession sha256 options hello).wpCut (hostStep NewerHello) hostInterrupt
      HostInvariant (fun _ => HostInvariant) s := by
  unfold establishPeerSession
  split
  · exact ⟨h, h⟩
  simp only
  refine Program.wpCut_bind (Program.wpCut_perform h (fun s' hs' => hs' ▸ h) fun _ s' hs' => ?_)
  obtain rfl : s' = s.log (.hello (load32BE (slice hello.val 12 4))) := hs'
  obtain ⟨old, hold⟩ := hstarted
  have hhello : AfterHello (load32BE (slice hello.val 12 4))
      (s.log (.hello (load32BE (slice hello.val 12 4)))) :=
    ⟨h.log (fun _ => nofun) fun _ => nofun, old, congrArg _ hold⟩
  refine ⟨hhello.invariant, Program.wpCut_bind (loadLatestEpoch_wpCut hhello
    (fun latestEpoch hlt hnewer => ?_) fun latestEpoch hle => ?_)⟩
  · rw [if_neg (UInt32.not_le.mpr hlt)]
    exact confirmSession_wpCut sha256 hhello hnewer
  · rw [if_pos hle]
    exact ⟨hhello.invariant, hhello.invariant⟩

theorem peerMain_wpCut (h : HostInvariant s) (options : PeerOptions) :
    (peerMain sha256 options).wpCut (hostStep NewerHello) hostInterrupt HostInvariant
      (fun _ => HostInvariant) s := by
  refine Program.wpCut_bind (Program.wpCut_perform h (fun s' hs' => hs' ▸ h)
    fun opened s' hs' => ?_)
  obtain rfl : s' = s.log .started := hs'
  have hstarted : HostInvariant (s.log .started) := h.log (fun _ => nofun) fun _ => nofun
  refine ⟨hstarted, ?_⟩
  split
  swap
  · exact ⟨hstarted, hstarted⟩
  refine Program.wpCut_bind (quietPeer_wpCut readProtocolFrame_quiet hstarted fun first => ?_)
  split
  · exact ⟨hstarted, hstarted⟩
  refine Program.wpCut_bind (quietPeer_wpCut (awaitHello_quiet options _) hstarted fun hello => ?_)
  split
  · exact ⟨hstarted, hstarted⟩
  split
  swap
  · exact ⟨hstarted, hstarted⟩
  refine Program.wpCut_bind (Program.wpCut_mono (fun _ hi => hi) (fun session s' _ hs' => ?_)
    (establishPeerSession_wpCut sha256 hstarted ⟨s.events, rfl⟩))
  split
  · exact ⟨hs', hs'⟩
  · exact quietPeer_wpCut (runLiveDemo_quiet sha256 options _) hs' fun _ => hs'

/-! ## Results -/

theorem PeerReached.invariant (h : PeerReached sha256 NewerHello s) : HostInvariant s := by
  induction h with
  | start state temporary => exact .start state temporary
  | run options _ cut ih => exact cut.invariant (peerMain_wpCut sha256 ih options)

/-- As long as a run fails to read the state file only with a newer hello. -/
theorem reached_epochsGuarded (h : PeerReached sha256 NewerHello s) : EpochsGuarded s :=
  h.invariant.guarded

/-! ### Runs with a constant digest -/

/-- What the serial line delivers to a run: a hello of the epoch and a Client Finished. -/
def zeroSerial (bootEpoch : UInt32) : List Bytes :=
  [[48], makeHeader npqFrameHello ++ demoDeviceId.val ++ store32BE bootEpoch
      ++ List.replicate 32 0,
    [24], makeHeader npqFrameClientFinished ++ List.replicate 20 0]

/-- A host on which everything succeeds, up to the `fopen` of the state file if it is not
`readable`; the bytes that the serial line still has to deliver go with it. -/
def zeroReply (readable : Bool) (bootEpoch : UInt32) :
    (e : PeerCall) → PeerHost × List Bytes → PeerReply e × (PeerHost × List Bytes)
  | .openSerial, (s, _) => (true, (s.log .started, zeroSerial bootEpoch))
  | .read _, (s, []) => (none, (s, []))
  | .read length, (s, bytes :: rest) =>
    (if h : bytes.length = length then some ⟨bytes, h⟩ else none, (s, rest))
  | .write _, t => (true, t)
  | .readFile _ _, t => (none, t)
  | .random length, t => (some (Block.zero length), t)
  | .openState, t => (readable && t.1.state.isSome, t)
  | .scanState, t => (t.1.state.bind scanEpoch, t)
  | .writeTemporary text, (s, rest) => (true, ({ s with temporary := some text }, rest))
  | .rename, (s, rest) => (true, ({ s with state := s.temporary, temporary := none }, rest))
  | .hello bootEpoch, (s, rest) => ((), (s.log (.hello bootEpoch), rest))
  | .serverFinished bootEpoch, (s, rest) => ((), (s.log (.serverFinished bootEpoch), rest))
  | .established bootEpoch, (s, rest) => ((), (s.log (.established bootEpoch), rest))

theorem zeroReply_step {MayFail : PeerHost → Prop} {readable : Bool}
    (h : readable = true ∨ ∀ s, MayFail s) (bootEpoch : UInt32) (e : PeerCall)
    (t : PeerHost × List Bytes) :
    hostStep MayFail e t.1 (zeroReply readable bootEpoch e t).1
      (zeroReply readable bootEpoch e t).2.1 := by
  obtain ⟨s, rest⟩ := t
  cases e with
  | openState =>
    refine ⟨rfl, fun hopened => ?_, fun hfailed => ?_⟩
    · intro hnone
      have hstate : s.state = none := hnone
      simp [zeroReply, hstate] at hopened
    · rcases h with hreadable | hmay
      · left
        simpa [zeroReply, hreadable] using hfailed
      · exact .inr (hmay s)
  | scanState => exact ⟨rfl, .inl rfl⟩
  | writeTemporary text => exact ⟨some text, rfl, fun _ => rfl⟩
  | rename => rfl
  | read length => cases rest <;> rfl
  | _ => rfl

def zeroOptions : PeerOptions := ⟨[], none, [], 1, 0⟩

/-- The host after a run that receives a hello of the epoch. -/
def zeroRun (readable : Bool) (bootEpoch : UInt32) (s : PeerHost) : PeerHost :=
  ((peerMain zeroDigest zeroOptions).run (zeroReply readable bootEpoch) (s, [])).2.1

theorem zeroRun_reached {MayFail : PeerHost → Prop} (h : PeerReached zeroDigest MayFail s)
    {readable : Bool} (hreads : readable = true ∨ ∀ s, MayFail s) (bootEpoch : UInt32) :
    PeerReached zeroDigest MayFail (zeroRun readable bootEpoch s) :=
  h.run zeroOptions
    (Program.Outcome.of_run Prod.fst (zeroReply_step hreads bootEpoch) _ (s, [])).cut

/-- Two runs, with the epochs 1 and 2. -/
theorem twoRuns_epochsGuarded :
    (zeroRun true 2 (zeroRun true 1 ⟨none, none, []⟩)).accepted = [2, 1] ∧
    EpochsGuarded (zeroRun true 2 (zeroRun true 1 ⟨none, none, []⟩)) :=
  ⟨by decide +kernel, reached_epochsGuarded zeroDigest
    (zeroRun_reached (zeroRun_reached (.start none none) (.inl rfl) 1) (.inl rfl) 2)⟩

/-- The second run fails to open the state file and accepts the hello of the first one. -/
theorem epoch_acceptedTwice :
    ¬ ∀ s, PeerReached zeroDigest (fun _ => True) s → EpochsGuarded s := by
  intro hguarded
  have hreached : PeerReached zeroDigest (fun _ => True)
      (zeroRun false 1 (zeroRun true 1 ⟨none, none, []⟩)) :=
    zeroRun_reached (zeroRun_reached (.start none none) (.inl rfl) 1) (.inr fun _ => trivial) 1
  have hincreasing := (hguarded _ hreached).increasing
  have haccepted : (zeroRun false 1 (zeroRun true 1 ⟨none, none, []⟩)).accepted = [1, 1] := by
    decide +kernel
  rw [haccepted, List.pairwise_cons] at hincreasing
  exact UInt32.lt_irrefl _ (hincreasing.1 1 List.mem_cons_self)

end C0PQLink.NanoPQ
