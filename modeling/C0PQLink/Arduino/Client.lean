import C0PQLink.Session.Lifecycle

/-!
# The Arduino client

The class `C0PQLink::Client` of `C0PQLink.cpp` around the client of `session/fragment.c`.
The adapters are objects of arbitrary types; a pointer to one is `none` until a `begin` sets
it. The callbacks are set together, by the `c0pq_client_init` that copies them.

* `Proper`: the calls that keep a usable client one that a `begin` has validated.
* `validated_iff`: a sequence of calls only ever has such clients exactly when all its calls
  are proper.
-/

namespace C0PQLink.Arduino

open Foundation Fips203

variable {K R T : Type}

/-! ## The class -/

/-- The arguments of `begin`. -/
structure BeginArguments (K R T : Type) where
  config : ClientConfig
  publicKey : K
  random : R
  transport : T

/-- An object of the class. `callbacks` tells whether the callbacks of its configuration are
set; they are null otherwise. -/
structure ArduinoClient (K R T : Type) where
  publicKey : Option K
  random : Option R
  transport : Option T
  callbacks : Bool
  client : C0PQLink.Client

/-- The constructor. -/
def newClient : ArduinoClient K R T := ⟨none, none, none, false, zeroClient⟩

/-- The status of `begin`, and the object after it: the adapters are stored before the
configuration is checked. -/
def ArduinoClient.begin (object : ArduinoClient K R T) (arguments : BeginArguments K R T) :
    Status × ArduinoClient K R T :=
  let object := { object with
    publicKey := some arguments.publicKey
    random := some arguments.random
    transport := some arguments.transport }
  match clientInit arguments.config with
  | .ok client => (.ok, { object with client, callbacks := true })
  | .error failure => (failure, object)

/-- What the adapters answer to the callbacks of a connect. -/
abbrev AdapterAnswers (K R T : Type) := K → R → T → Answers

/-- The calls of a program; `connect` comes with what the adapters answer. -/
inductive ArduinoCall (K R T : Type) where
  | begin (arguments : BeginArguments K R T)
  | connect (workspace : Workspace) (stack : FrameBuffer) (answers : AdapterAnswers K R T)
  | sealRecord (plaintext : Bytes) (frameCapacity : Nat)
  | openRecord (frame : Bytes) (plaintextCapacity : Nat)
  | close

variable (sha256 : Bytes → Block 32) (hashes : Hashes) (zetaData : Nat → Int16)

/-- The object after a connect; `none` when it calls a null callback or uses a null adapter. -/
def ArduinoClient.connect (object : ArduinoClient K R T) (workspace : Workspace)
    (stack : FrameBuffer) (answers : AdapterAnswers K R T) : Option (ArduinoClient K R T) :=
  if object.client.state ≠ .ready then some object
  else if object.callbacks = false then none
  else
    match object.publicKey, object.random, object.transport with
    | some publicKey, some random, some transport =>
      let outcome := connectRun sha256 hashes zetaData object.client workspace stack
        (answers publicKey random transport)
      some { object with client := outcome.1.client }
    | _, _, _ => none

def ArduinoClient.after (object : ArduinoClient K R T) :
    ArduinoCall K R T → Option (ArduinoClient K R T)
  | .begin arguments => some (object.begin arguments).2
  | .connect workspace stack answers => object.connect sha256 hashes zetaData workspace stack answers
  | .sealRecord plaintext frameCapacity =>
    some { object with
      client := (C0PQLink.sealRecord sha256 object.client plaintext frameCapacity).2 }
  | .openRecord frame plaintextCapacity =>
    some { object with
      client := (C0PQLink.openRecord sha256 object.client frame plaintextCapacity).2 }
  | .close => some { object with client := clientClose object.client }

/-! ## Validated clients -/

def Usable (state : ClientState) : Prop := state = .ready ∨ state = .connecting ∨ state = .established

/-- The adapters of the object are those of the arguments. -/
def HasAdapters (object : ArduinoClient K R T) (arguments : BeginArguments K R T) : Prop :=
  object.publicKey = some arguments.publicKey ∧ object.random = some arguments.random ∧
    object.transport = some arguments.transport

/-- The configuration of the object is the one that `begin` sets up for the arguments. -/
def HasConfig (object : ArduinoClient K R T) (arguments : BeginArguments K R T) : Prop :=
  object.callbacks = true ∧
    ∃ client, clientInit arguments.config = .ok client ∧ object.client.config = client.config

/-- A usable object belongs to the last `begin` that succeeded, whose arguments are
`accepted`. -/
def Validated (object : ArduinoClient K R T) (accepted : Option (BeginArguments K R T)) : Prop :=
  Usable object.client.state →
    ∃ arguments, accepted = some arguments ∧ HasConfig object arguments ∧
      HasAdapters object arguments

/-- The arguments of the last `begin` that succeeded, after a call. -/
def acceptedAfter (accepted : Option (BeginArguments K R T)) :
    ArduinoCall K R T → Option (BeginArguments K R T)
  | .begin arguments =>
    match clientInit arguments.config with
    | .ok _ => some arguments
    | .error _ => accepted
  | _ => accepted

/-- The object that the callbacks of a connect see. -/
def ArduinoClient.connecting (object : ArduinoClient K R T) : ArduinoClient K R T :=
  { object with client := { object.client with state := .connecting } }

/-- Every object that the calls lead to is validated, also while a connect runs, and no
connect uses a null pointer. -/
def AlwaysValidated : ArduinoClient K R T → Option (BeginArguments K R T) →
    List (ArduinoCall K R T) → Prop
  | object, accepted, [] => Validated object accepted
  | object, accepted, call :: calls =>
    Validated object accepted ∧
      (∀ workspace stack answers, call = .connect workspace stack answers →
        object.client.state = .ready → Validated object.connecting accepted) ∧
      ∃ object', object.after sha256 hashes zetaData call = some object' ∧
        AlwaysValidated object' (acceptedAfter accepted call) calls

/-- A `close` is proper when the adapters are those of the last `begin` that succeeded, and
so is a rejected `begin` when it leaves them so or the object is not usable. -/
def Proper (object : ArduinoClient K R T) (accepted : Option (BeginArguments K R T)) :
    ArduinoCall K R T → Prop
  | .close => ∃ arguments, accepted = some arguments ∧ HasAdapters object arguments
  | .begin arguments =>
    (∀ client, clientInit arguments.config ≠ .ok client) → Usable object.client.state →
      ∃ accepted', accepted = some accepted' ∧ arguments.publicKey = accepted'.publicKey ∧
        arguments.random = accepted'.random ∧ arguments.transport = accepted'.transport
  | _ => True

/-- All calls of a sequence are proper where they are made. -/
def AllProper : ArduinoClient K R T → Option (BeginArguments K R T) → List (ArduinoCall K R T) →
    Prop
  | _, _, [] => True
  | object, accepted, call :: calls =>
    Proper object accepted call ∧
      ∀ object', object.after sha256 hashes zetaData call = some object' →
        AllProper object' (acceptedAfter accepted call) calls

/-! ## One call -/

variable {object object' : ArduinoClient K R T} {accepted : Option (BeginArguments K R T)}

/-- The configuration is the one of the last `begin` that succeeded. -/
def Configured (object : ArduinoClient K R T) (accepted : Option (BeginArguments K R T)) : Prop :=
  ∀ arguments, accepted = some arguments → HasConfig object arguments

/-- Another client context with the same configuration. -/
theorem HasConfig.client {arguments : BeginArguments K R T} (h : HasConfig object arguments)
    {client : C0PQLink.Client} (hconfig : client.config = object.client.config) :
    HasConfig { object with client } arguments := by
  obtain ⟨hcallbacks, started, hinit, hsame⟩ := h
  exact ⟨hcallbacks, started, hinit, hconfig.trans hsame⟩

/-- What a call does, but for a `begin` and a `close`: it keeps the adapters and the
configuration, and it makes an object usable only if it was. -/
structure KeepsConfig (object object' : ArduinoClient K R T) : Prop where
  client_eq : object' = { object with client := object'.client }
  config_eq : object'.client.config = object.client.config
  usable : Usable object'.client.state → Usable object.client.state

theorem Validated.keepsConfig (h : Validated object accepted) (hkeeps : KeepsConfig object object') :
    Validated object' accepted := by
  intro husable
  obtain ⟨arguments, haccepted, hconfig, hadapters⟩ := h (hkeeps.usable husable)
  rw [hkeeps.client_eq]
  exact ⟨arguments, haccepted, hconfig.client hkeeps.config_eq, hadapters⟩

theorem Configured.keepsConfig (h : Configured object accepted)
    (hkeeps : KeepsConfig object object') : Configured object' accepted := by
  intro arguments haccepted
  rw [hkeeps.client_eq]
  exact (h arguments haccepted).client hkeeps.config_eq

theorem sealRecord_keepsConfig (object : ArduinoClient K R T) (plaintext : Bytes)
    (frameCapacity : Nat) :
    KeepsConfig object
      { object with client := (sealRecord sha256 object.client plaintext frameCapacity).2 } := by
  refine ⟨rfl, ?_, fun h => by rwa [sealRecord_state] at h⟩
  rcases sealRecord_cases sha256 object.client plaintext frameCapacity with ⟨_, h⟩ | ⟨-, -, h⟩
  · rw [h]
  · rw [h]
    rfl

theorem openRecord_keepsConfig (object : ArduinoClient K R T) (frame : Bytes)
    (plaintextCapacity : Nat) :
    KeepsConfig object
      { object with client := (openRecord sha256 object.client frame plaintextCapacity).2 } := by
  refine ⟨rfl, ?_, fun h => by rwa [openRecord_state] at h⟩
  rcases openRecord_cases sha256 object.client frame plaintextCapacity with ⟨_, h⟩ | ⟨_, -, h⟩
  · rw [h]
  · rw [h]
    rfl

/-- A connect of a validated object uses no null pointer. -/
theorem connect_keepsConfig (h : Validated object accepted) (workspace : Workspace)
    (stack : FrameBuffer) (answers : AdapterAnswers K R T) :
    ∃ object', object.connect sha256 hashes zetaData workspace stack answers = some object' ∧
      KeepsConfig object object' := by
  unfold ArduinoClient.connect
  by_cases hready : object.client.state = .ready
  · obtain ⟨arguments, -, ⟨hcallbacks, -⟩, hpublicKey, hrandom, htransport⟩ := h (.inl hready)
    rw [if_neg (not_not.mpr hready), if_neg (by simp [hcallbacks]), hpublicKey, hrandom,
      htransport]
    refine ⟨_, rfl, ?_, (connectRun_outcome sha256 hashes zetaData hready workspace stack _).config,
      fun _ => .inl hready⟩
    simp only [hpublicKey, hrandom, htransport]
  · rw [if_pos hready]
    exact ⟨object, rfl, rfl, rfl, id⟩

theorem Validated.connecting (h : Validated object accepted) (hready : object.client.state = .ready) :
    Validated object.connecting accepted := by
  intro _
  obtain ⟨arguments, haccepted, hconfig, hadapters⟩ := h (.inl hready)
  exact ⟨arguments, haccepted, hconfig.client rfl, hadapters⟩

/-- A proper call of a validated object. -/
theorem Proper.after {call : ArduinoCall K R T} (hproper : Proper object accepted call)
    (h : Validated object accepted) (hconfigured : Configured object accepted) :
    ∃ object', object.after sha256 hashes zetaData call = some object' ∧
      Validated object' (acceptedAfter accepted call) ∧
      Configured object' (acceptedAfter accepted call) := by
  cases call with
  | begin arguments =>
    refine ⟨_, rfl, ?_⟩
    cases hinit : clientInit arguments.config with
    | ok client =>
      simp only [ArduinoClient.begin, acceptedAfter, hinit]
      have hconfig : HasConfig (⟨some arguments.publicKey, some arguments.random,
          some arguments.transport, true, client⟩ : ArduinoClient K R T) arguments :=
        ⟨rfl, client, hinit, rfl⟩
      refine ⟨fun _ => ⟨arguments, rfl, hconfig, rfl, rfl, rfl⟩, fun arguments' heq => ?_⟩
      obtain rfl := Option.some.inj heq
      exact hconfig
    | error failure =>
      simp only [ArduinoClient.begin, acceptedAfter, hinit]
      have hrejected : ∀ client, clientInit arguments.config ≠ .ok client := by
        rw [hinit]
        exact nofun
      refine ⟨fun husable => ?_, hconfigured⟩
      obtain ⟨accepted', haccepted, hpublicKey, hrandom, htransport⟩ := hproper hrejected husable
      exact ⟨accepted', haccepted, hconfigured accepted' haccepted,
        congrArg some hpublicKey, congrArg some hrandom, congrArg some htransport⟩
  | connect workspace stack answers =>
    obtain ⟨object', hafter, hkeeps⟩ := connect_keepsConfig sha256 hashes zetaData h workspace stack
      answers
    exact ⟨object', hafter, h.keepsConfig hkeeps, hconfigured.keepsConfig hkeeps⟩
  | sealRecord plaintext frameCapacity =>
    have hkeeps := sealRecord_keepsConfig sha256 object plaintext frameCapacity
    exact ⟨_, rfl, h.keepsConfig hkeeps, hconfigured.keepsConfig hkeeps⟩
  | openRecord frame plaintextCapacity =>
    have hkeeps := openRecord_keepsConfig sha256 object frame plaintextCapacity
    exact ⟨_, rfl, h.keepsConfig hkeeps, hconfigured.keepsConfig hkeeps⟩
  | close =>
    obtain ⟨arguments, haccepted, hadapters⟩ := hproper
    refine ⟨_, rfl, fun _ => ⟨arguments, haccepted, ?_, hadapters⟩, fun arguments' haccepted' => ?_⟩
    · exact (hconfigured arguments haccepted).client rfl
    · exact (hconfigured arguments' haccepted').client rfl

/-- A call that leads to a validated object was proper. -/
theorem proper_of_after {call : ArduinoCall K R T}
    (hafter : object.after sha256 hashes zetaData call = some object')
    (h : Validated object' (acceptedAfter accepted call)) : Proper object accepted call := by
  cases call with
  | begin arguments =>
    intro hrejected husable
    obtain rfl := Option.some.inj hafter
    cases hinit : clientInit arguments.config with
    | ok client => exact absurd hinit (hrejected client)
    | error failure =>
      simp only [ArduinoClient.begin, acceptedAfter, hinit] at h
      obtain ⟨accepted', haccepted, -, hpublicKey, hrandom, htransport⟩ := h husable
      exact ⟨accepted', haccepted, Option.some.inj hpublicKey, Option.some.inj hrandom,
        Option.some.inj htransport⟩
  | close =>
    obtain rfl := Option.some.inj hafter
    obtain ⟨arguments, haccepted, -, hadapters⟩ := h (.inl rfl)
    exact ⟨arguments, haccepted, hadapters⟩
  | connect => trivial
  | sealRecord => trivial
  | openRecord => trivial

/-! ## Sequences of calls -/

theorem alwaysValidated_iff (h : Validated object accepted) (hconfigured : Configured object accepted)
    (calls : List (ArduinoCall K R T)) :
    AlwaysValidated sha256 hashes zetaData object accepted calls ↔
      AllProper sha256 hashes zetaData object accepted calls := by
  induction calls generalizing object accepted with
  | nil => exact ⟨fun _ => trivial, fun _ => h⟩
  | cons call calls ih =>
    constructor
    · rintro ⟨-, -, object', hafter, hrest⟩
      have hvalidated : Validated object' (acceptedAfter accepted call) := by
        cases calls with
        | nil => exact hrest
        | cons => exact hrest.1
      have hproper := proper_of_after sha256 hashes zetaData hafter hvalidated
      refine ⟨hproper, fun object'' hafter' => ?_⟩
      obtain ⟨next, hnext, -, hconfigured'⟩ := hproper.after sha256 hashes zetaData h hconfigured
      obtain rfl := Option.some.inj (hafter.symm.trans hnext)
      obtain rfl := Option.some.inj (hafter.symm.trans hafter')
      exact (ih hvalidated hconfigured').mp hrest
    · rintro ⟨hproper, hrest⟩
      obtain ⟨next, hnext, hvalidated, hconfigured'⟩ :=
        hproper.after sha256 hashes zetaData h hconfigured
      exact ⟨h, fun _ _ _ _ hready => h.connecting hready, next, hnext,
        (ih hvalidated hconfigured').mpr (hrest next hnext)⟩

/-- Every sequence of calls from the constructor on. -/
theorem validated_iff (calls : List (ArduinoCall K R T)) :
    AlwaysValidated sha256 hashes zetaData newClient none calls ↔
      AllProper sha256 hashes zetaData newClient none calls := by
  refine alwaysValidated_iff sha256 hashes zetaData (fun husable => ?_) (fun _ h => ?_) calls
  · rcases husable with h | h | h <;> cases h
  · cases h

/-! ### Calls that are not proper -/

/-- Arguments with the adapters numbered `adapter`. -/
def exampleArguments (config : ClientConfig) (adapter : Nat) : BeginArguments Nat Nat Nat :=
  ⟨config, adapter, adapter, adapter⟩

/-- A `close` of a new object makes it usable without a `begin`, and a rejected `begin`
leaves a usable object with the adapters of the rejected arguments. -/
theorem close_notValidated :
    ¬ AlwaysValidated zeroDigest zeroHashes loadZeta (newClient : ArduinoClient Nat Nat Nat) none
        [.close] ∧
      ¬ AlwaysValidated zeroDigest zeroHashes loadZeta (newClient : ArduinoClient Nat Nat Nat) none
        [.begin (exampleArguments exampleConfig 1),
          .begin (exampleArguments { exampleConfig with psk := Block.zero 32 } 2)] := by
  constructor
  · rintro ⟨-, -, object', hafter, hvalidated⟩
    obtain rfl := Option.some.inj hafter
    obtain ⟨_, haccepted, -⟩ := hvalidated (.inl rfl)
    cases haccepted
  · rintro ⟨-, -, first, hfirst, -, -, second, hsecond, hvalidated⟩
    obtain rfl := Option.some.inj hfirst
    obtain rfl := Option.some.inj hsecond
    obtain ⟨arguments, haccepted, -, hpublicKey, -⟩ := hvalidated (.inl rfl)
    obtain rfl := Option.some.inj haccepted
    exact absurd (Option.some.inj hpublicKey) (by decide)

end C0PQLink.Arduino
