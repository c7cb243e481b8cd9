import C0PQLink.Foundation.Readings
import C0PQLink.NanoPQ.Lms

/-!
# The LMS verifier and the standard

What the streaming verifier decides when its reader delivers the signature.

* `Consumes`, `Rejects`, `Decides`: what a part of the verifier does with the bytes of the
  signature from a position on.
* `verifyStream_ok_iff`: the verifier accepts exactly what Algorithm 6 accepts.
-/

namespace C0PQLink.NanoPQ

open Foundation Rfc8554

variable (sha256 : Bytes → Block 32)

/-! ## A reader that delivers the signature -/

/-- A reader that hands out, piece after piece, what remains of a byte string. -/
structure OrderedReader (σ : Type) where
  read : (length : Nat) → σ → Option (Block length) × σ
  remaining : σ → Bytes
  delivers : ∀ length s (h : length ≤ (remaining s).length),
    (read length s).1 = some (blockAt (remaining s) 0 length (by omega))
  advances : ∀ length s, length ≤ (remaining s).length →
    remaining (read length s).2 = (remaining s).drop length

section

variable {σ α β : Type} (reader : OrderedReader σ) (signature : Bytes)

/-- The part reads the bytes of the signature from `start` to `stop` and returns `a`. -/
def Consumes (p : LmsReading σ α) (start stop : Nat) (a : α) : Prop :=
  ∀ s, reader.remaining s = signature.drop start →
    ∃ s', p (s, start) = (.ok a, (s', stop)) ∧ reader.remaining s' = signature.drop stop

/-- The part, started at byte `start`, ends the verification with a failure. -/
def Rejects (p : LmsReading σ α) (start : Nat) : Prop :=
  ∀ s, reader.remaining s = signature.drop start →
    ∃ result rest, p (s, start) = (.error result, rest) ∧ result ≠ .ok

variable {reader signature}

theorem Consumes.bind {p : LmsReading σ α} {f : α → LmsReading σ β} {start mid stop : Nat}
    {a : α} {b : β} (h : Consumes reader signature p start mid a)
    (hf : Consumes reader signature (f a) mid stop b) :
    Consumes reader signature (p >>= f) start stop b := by
  intro s hs
  obtain ⟨s', hp, hs'⟩ := h s hs
  obtain ⟨s'', hq, hs''⟩ := hf s' hs'
  exact ⟨s'', by rw [reading_bind, hp]; exact hq, hs''⟩

theorem Consumes.rejects {p : LmsReading σ α} {f : α → LmsReading σ β} {start mid : Nat}
    {a : α} (h : Consumes reader signature p start mid a)
    (hf : Rejects reader signature (f a) mid) : Rejects reader signature (p >>= f) start := by
  intro s hs
  obtain ⟨s', hp, hs'⟩ := h s hs
  obtain ⟨result, rest, hq, hne⟩ := hf s' hs'
  exact ⟨result, rest, by rw [reading_bind, hp]; exact hq, hne⟩

/-- The rest of the verification, started at byte `start`, accepts if and only if `C`, and
then it reads the whole signature. -/
def Decides (reader : OrderedReader σ) (signature : Bytes) (p : LmsReading σ Unit) (start : Nat)
    (C : Prop) : Prop :=
  (C → Consumes reader signature p start signature.length ()) ∧
    (¬ C → Rejects reader signature p start)

theorem Decides.after {p : LmsReading σ α} {f : α → LmsReading σ Unit} {start mid : Nat} {a : α}
    {C : Prop} (hf : Decides reader signature (f a) mid C)
    (h : Consumes reader signature p start mid a) : Decides reader signature (p >>= f) start C :=
  ⟨fun hC => h.bind (hf.1 hC), fun hC => h.rejects (hf.2 hC)⟩

theorem Decides.congr {p : LmsReading σ Unit} {start : Nat} {C C' : Prop}
    (h : Decides reader signature p start C) (hC : C' ↔ C) :
    Decides reader signature p start C' := by
  rwa [propext hC]

theorem consumes_pure (a : α) (start : Nat) :
    Consumes reader signature (pure a) start start a := fun s hs => ⟨s, rfl, hs⟩

theorem rejects_throw {result : LmsResult} (h : result ≠ .ok) (start : Nat) :
    Rejects reader signature (throw result : LmsReading σ α) start :=
  fun s _ => ⟨result, (s, start), rfl, h⟩

theorem rejects_throw_bind {result : LmsResult} (h : result ≠ .ok) (f : α → LmsReading σ β)
    (start : Nat) : Rejects reader signature (throw result >>= f) start :=
  fun s _ => ⟨result, (s, start), rfl, h⟩

theorem readPart_consumes (failure : LmsResult) {start length : Nat}
    (h : start + length ≤ signature.length) :
    Consumes reader signature (readPart reader.read failure length) start (start + length)
      (blockAt signature start length h) := by
  intro s hs
  have hlength : length ≤ (reader.remaining s).length := by
    rw [hs, List.length_drop]
    omega
  have hread := reader.delivers length s hlength
  have hblock : blockAt (reader.remaining s) 0 length (by omega)
      = blockAt signature start length h := by
    apply Block.ext
    change slice (reader.remaining s) 0 length = slice signature start length
    rw [hs, slice, slice, List.drop_zero]
  rw [hblock] at hread
  refine ⟨(reader.read length s).2, ?_, ?_⟩
  · rcases hr : reader.read length s with ⟨output, rest⟩
    rw [hr] at hread
    simp only at hread
    subst hread
    simp only [readPart, hr]
  · rw [reader.advances length s hlength, hs, List.drop_drop]

/-- A check before the rest of the verification. -/
theorem Decides.guard {p t : LmsReading σ Unit} {start : Nat} {C bad : Prop} [Decidable bad]
    (h : Decides reader signature p start C) (ht : Rejects reader signature t start) :
    Decides reader signature (if bad then t else p) start (¬ bad ∧ C) := by
  by_cases hbad : bad
  · rw [if_pos hbad]
    exact ⟨fun hC => absurd hbad hC.1, fun _ => ht⟩
  · rw [if_neg hbad]
    exact h.congr (and_iff_right hbad)

theorem decides_done : Decides reader signature (pure ()) signature.length True :=
  ⟨fun _ => consumes_pure () _, fun h => absurd trivial h⟩

end

/-! ## The parts of the verifier -/

section

variable {σ : Type} (reader : OrderedReader σ) {signature : Bytes} {profile : LmsProfile}
variable (hprofile : profile.Known)
include hprofile

theorem readChains_consumes {identifier encodedQ messageHash checksumBytes : Bytes}
    (hhash : messageHash.length = 32) (count chainIndex : Nat) (hashed : Bytes)
    (hcount : chainIndex + count ≤ 67) {start : Nat}
    (hlength : start + 32 * count ≤ signature.length) :
    Consumes reader signature (readChains sha256 reader.read profile identifier encodedQ messageHash
        checksumBytes count chainIndex hashed) start (start + 32 * count)
      (hashed ++ (List.range' chainIndex count).flatMap fun i =>
        chainEnd sha256 identifier encodedQ profile.width.toNat i
          (coef (messageHash ++ checksumBytes) i profile.width.toNat)
          (slice signature (start + 32 * (i - chainIndex)) 32)) := by
  induction count generalizing chainIndex hashed start with
  | zero =>
    rw [List.range'_zero, List.flatMap_nil, List.append_nil]
    exact consumes_pure hashed start
  | succ count ih =>
    have hsibling : start + 32 ≤ signature.length := by omega
    refine (readPart_consumes .ioError hsibling).bind ?_
    have hrest := ih (chainIndex + 1)
      (hashed ++ (runChain sha256 identifier encodedQ (UInt16.ofNat chainIndex) profile.chainLimit
        (coefficientAt messageHash checksumBytes (UInt16.ofNat chainIndex) profile.width)
        (blockAt signature start 32 (by omega))).val) (by omega)
      (show start + 32 + 32 * count ≤ signature.length by omega)
    have hstop : start + 32 + 32 * count = start + 32 * (count + 1) := by omega
    rw [hstop] at hrest
    have hvalue := runChain_eq sha256 hprofile identifier encodedQ
      (show chainIndex < 65536 by omega)
      (coefficientAt messageHash checksumBytes (UInt16.ofNat chainIndex) profile.width)
      (blockAt signature start 32 (by omega))
    rw [coefficientAt_toNat hhash hprofile.width (by omega)] at hvalue
    have hfirst : slice signature (start + 32 * (chainIndex - chainIndex)) 32
        = (blockAt signature start 32 (by omega)).val := by
      rw [Nat.sub_self]
      rfl
    have hothers : ∀ i ∈ List.range' (chainIndex + 1) count,
        start + 32 * (i - chainIndex) = start + 32 + 32 * (i - (chainIndex + 1)) := by
      intro i hi
      have := (List.mem_range'_1.mp hi).1
      omega
    rw [List.range'_succ, List.flatMap_cons, hfirst, ← hvalue, ← List.append_assoc,
      List.flatMap_congr fun i hi => by rw [hothers i hi]]
    exact hrest

theorem readOtsKey_consumes (identifier encodedQ message randomizer : Bytes) {start : Nat}
    (hlength : start + 32 * profile.p ≤ signature.length) :
    Consumes reader signature
      (readOtsKey sha256 reader.read profile identifier encodedQ message randomizer) start
      (start + 32 * profile.p)
      (otsCandidate sha256 profile.parameters identifier encodedQ message randomizer
        fun i => slice signature (start + 32 * i) 32) := by
  have hp : 0 + profile.p ≤ 67 := by
    rcases hprofile with rfl | rfl <;> decide
  have hdigest := Block.length_val
    (sha256 (identifier ++ encodedQ ++ [0x81, 0x81] ++ randomizer ++ message))
  refine (readChains_consumes sha256 reader hprofile hdigest profile.p 0
    (identifier ++ encodedQ ++ [0x80, 0x80]) hp hlength).bind ?_
  rw [checksumBytes_eq hprofile]
  have hkey : otsCandidate sha256 profile.parameters identifier encodedQ message randomizer
      (fun i => slice signature (start + 32 * i) 32) = sha256 _ := rfl
  rw [hkey, List.range_eq_range']
  exact consumes_pure _ _

omit hprofile in
theorem hashLmsNode_leaf (identifier : Bytes) (nodeNumber : UInt32) (key : Block 32) :
    hashLmsNode sha256 identifier nodeNumber 0x8282 key none
      = sha256 (identifier ++ u32str nodeNumber.toNat ++ u16str dLeaf ++ key.val) := by
  rw [hashLmsNode, store32BE_eq, store16BE_eq]
  simp [u32str, u16str, dLeaf]

omit hprofile in
theorem hashLmsNode_inner (identifier : Bytes) (nodeNumber : UInt32) (left right : Block 32) :
    hashLmsNode sha256 identifier (nodeNumber / 2) 0x8383 left (some right)
      = sha256 (identifier ++ u32str (nodeNumber.toNat / 2) ++ u16str dIntr ++ left.val
          ++ right.val) := by
  have hhalf : (nodeNumber / 2).toNat = nodeNumber.toNat / 2 := UInt32.toNat_div ..
  rw [hashLmsNode, store32BE_eq, store16BE_eq, hhalf]
  rfl

omit hprofile in
theorem readPath_consumes (identifier : Bytes) (levels : Nat) (nodeNumber : UInt32)
    (chainValue : Block 32) {start : Nat} (hlength : start + 32 * levels ≤ signature.length) :
    ∃ root, Consumes reader signature
        (readPath sha256 reader.read identifier levels nodeNumber chainValue) start
        (start + 32 * levels) root ∧
      root.val = climb sha256 identifier
        ((List.range levels).map fun i => slice signature (start + 32 * i) 32) nodeNumber.toNat
        chainValue.val := by
  induction levels generalizing nodeNumber chainValue start with
  | zero => exact ⟨chainValue, consumes_pure chainValue start, rfl⟩
  | succ levels ih =>
    have hsibling : start + 32 ≤ signature.length := by omega
    have hpath : (List.range (levels + 1)).map (fun i => slice signature (start + 32 * i) 32)
        = slice signature start 32 ::
          (List.range levels).map fun i => slice signature (start + 32 + 32 * i) 32 := by
      rw [List.range_succ_eq_map, List.map_cons, List.map_map]
      congr 1
      refine List.map_congr_left fun i _ => ?_
      change slice signature (start + 32 * (i + 1)) 32 = _
      rw [show start + 32 * (i + 1) = start + 32 + 32 * i by ring]
    have hstop : start + 32 + 32 * levels = start + 32 * (levels + 1) := by ring
    have hhalf : (nodeNumber / 2).toNat = nodeNumber.toNat / 2 := UInt32.toNat_div ..
    have hparity : nodeNumber &&& 1 ≠ 0 ↔ nodeNumber.toNat % 2 = 1 := by
      have hone : (1 : UInt32).toNat = 2 ^ 1 - 1 := rfl
      rw [Ne, ← UInt32.toNat_inj, UInt32.toNat_and, hone, Nat.and_two_pow_sub_one_eq_mod]
      change ¬ nodeNumber.toNat % 2 = 0 ↔ _
      omega
    have hstep (node : Block 32) :=
      ih (nodeNumber / 2) node (show start + 32 + 32 * levels ≤ signature.length by omega)
    simp only [hstop, hhalf] at hstep
    by_cases hodd : nodeNumber.toNat % 2 = 1
    · obtain ⟨root, hroot, hvalue⟩ := hstep (hashLmsNode sha256 identifier (nodeNumber / 2) 0x8383
        (blockAt signature start 32 hsibling) (some chainValue))
      refine ⟨root, (readPart_consumes .ioError hsibling).bind ?_, ?_⟩
      · simp only [if_pos (hparity.mpr hodd)]
        exact hroot
      · rw [hvalue, hpath, climb, if_pos hodd, hashLmsNode_inner]
        rfl
    · obtain ⟨root, hroot, hvalue⟩ := hstep (hashLmsNode sha256 identifier (nodeNumber / 2) 0x8383
        chainValue (some (blockAt signature start 32 hsibling)))
      refine ⟨root, (readPart_consumes .ioError hsibling).bind ?_, ?_⟩
      · simp only [if_neg (mt hparity.mp hodd)]
        exact hroot
      · rw [hvalue, hpath, climb, if_neg hodd, hashLmsNode_inner]
        rfl

omit hprofile in
theorem load32BE_inj {a b : Bytes} (ha : a.length = 4) (hb : b.length = 4) :
    load32BE a = load32BE b ↔ a = b := by
  constructor
  · intro h
    apply beNat_inj (ha.trans hb.symm)
    rw [← toNat_load32BE ha, ← toNat_load32BE hb, h]
  · exact fun h => h ▸ rfl

/-- What the parts of a signature have to satisfy, apart from their lengths. -/
def PartsValid (profile : LmsProfile) (publicKey : Block 56) (message signature : Bytes) : Prop :=
  slice signature 4 4 = slice publicKey.val 4 4 ∧ beNat (slice signature 0 4) < 2 ^ 5 ∧
    load32BE (slice signature (40 + 32 * profile.p) 4) = 5 ∧
    rootCandidate sha256 profile.parameters 5 (slice publicKey.val 8 16) message signature
      = slice publicKey.val 24 32

variable (publicKey : Block 56) (message : Bytes)

theorem readSignature_decides (hlength : signature.length = 204 + 32 * profile.p) :
    Decides reader signature (readSignature sha256 reader.read profile publicKey message
      (load32BE (slice publicKey.val 4 4))) 0
      (PartsValid sha256 profile publicKey message signature) := by
  have hq4 : 0 + 4 ≤ signature.length := by omega
  have ht4 : 0 + 4 + 4 ≤ signature.length := by omega
  have hr32 : 0 + 4 + 4 + 32 ≤ signature.length := by omega
  have hots : 0 + 4 + 4 + 32 + 32 * profile.p ≤ signature.length := by omega
  have hl4 : 0 + 4 + 4 + 32 + 32 * profile.p + 4 ≤ signature.length := by omega
  have hpath : 0 + 4 + 4 + 32 + 32 * profile.p + 4 + 32 * 5 = signature.length := by omega
  unfold readSignature
  have hq : (load32BE (blockAt signature 0 4 hq4).val).toNat = beNat (slice signature 0 4) :=
    toNat_load32BE (Block.length_val _)
  have hread := readOtsKey_consumes sha256 reader hprofile (slice publicKey.val 8 16)
    (slice signature 0 4) message (slice signature 8 32) hots
  have htype : load32BE (blockAt signature (0 + 4) 4 ht4).val
      = load32BE (slice publicKey.val 4 4) ↔ slice signature 4 4 = slice publicKey.val 4 4 :=
    load32BE_inj (Block.length_val _) (by simp)
  obtain ⟨root, hclimb, hroot⟩ := readPath_consumes sha256 reader
    (slice publicKey.val 8 16) 5 (32 + load32BE (blockAt signature 0 4 hq4).val)
    (hashLmsNode sha256 (slice publicKey.val 8 16)
      (32 + load32BE (blockAt signature 0 4 hq4).val) 0x8282
      (otsCandidate sha256 profile.parameters (slice publicKey.val 8 16) (slice signature 0 4)
        message (slice signature 8 32) fun i => slice signature (40 + 32 * i) 32) none)
    hpath.le
  rw [hpath] at hclimb
  rw [hashLmsNode_leaf] at hroot
  have hne : LmsResult.badSignature ≠ .ok := nofun
  have hdecides : Decides reader signature (readSignature sha256 reader.read profile publicKey
      message (load32BE (slice publicKey.val 4 4))) 0
      (¬ (32 ≤ load32BE (blockAt signature 0 4 hq4).val ∨
          load32BE (blockAt signature (0 + 4) 4 ht4).val ≠ load32BE (slice publicKey.val 4 4)) ∧
        ¬ (load32BE (blockAt signature (0 + 4 + 4 + 32 + 32 * profile.p) 4 hl4).val ≠ 5) ∧
        ¬ (root.val ≠ slice publicKey.val 24 32) ∧ True) := by
    refine Decides.after ?_ (readPart_consumes .ioError hq4)
    refine Decides.after ?_ (readPart_consumes .ioError ht4)
    refine Decides.after ?_ (readPart_consumes .ioError hr32)
    refine Decides.guard ?_ (rejects_throw_bind hne _ _)
    refine Decides.after ?_ hread
    refine Decides.after ?_ (readPart_consumes .badSignature hl4)
    refine Decides.guard ?_ (rejects_throw_bind hne _ _)
    refine Decides.after ?_ hclimb
    exact Decides.guard decides_done (rejects_throw hne _)
  refine hdecides.congr ?_
  have hsmall : ¬ 32 ≤ load32BE (blockAt signature 0 4 hq4).val ↔
      beNat (slice signature 0 4) < 2 ^ 5 := by
    rw [UInt32.le_iff_toNat_le, hq]
    exact Nat.not_le
  have hnode (hleaf : beNat (slice signature 0 4) < 2 ^ 5) :
      (32 + load32BE (blockAt signature 0 4 hq4).val).toNat
        = 2 ^ 5 + beNat (slice signature 0 4) := by
    rw [UInt32.toNat_add, hq]
    exact Nat.mod_eq_of_lt (by simp; omega)
  have hlms : 0 + 4 + 4 + 32 + 32 * profile.p = 40 + 32 * profile.p := by omega
  have hcandidate (hleaf : beNat (slice signature 0 4) < 2 ^ 5) :
      root.val = rootCandidate sha256 profile.parameters 5 (slice publicKey.val 8 16) message
        signature := by
    have hpathStart : 12 + 32 * (profile.parameters.p + 1) = 0 + 4 + 4 + 32 + 32 * profile.p + 4 := by
      change 12 + 32 * (profile.p + 1) = _
      ring
    rw [hroot, hnode hleaf, rootCandidate, hpathStart]
  constructor
  · rintro ⟨hots', hleaf, hsigtype, hvalid⟩
    refine ⟨?_, ?_, ?_, trivial⟩
    · rw [not_or, hsmall, Classical.not_not, htype]
      exact ⟨hleaf, hots'⟩
    · rw [Classical.not_not]
      change load32BE (slice signature _ 4) = 5
      rw [hlms, hsigtype]
    · rw [Classical.not_not, hcandidate hleaf, hvalid]
  · rintro ⟨hstart, hsigtype, hvalid, -⟩
    rw [not_or, hsmall, Classical.not_not, htype] at hstart
    rw [Classical.not_not] at hsigtype hvalid
    refine ⟨hstart.2, hstart.1, ?_, ?_⟩
    · change load32BE (slice signature _ 4) = 5 at hsigtype
      rwa [hlms] at hsigtype
    · rw [← hcandidate hstart.1, hvalid]

end

/-! ## The verifier and the standard -/

/-- The typecodes of a key that the verifier supports: LMS_SHA256_M32_H5 with
LMOTS_SHA256_N32_W4 or LMOTS_SHA256_N32_W8. -/
def SupportedKey (publicKey : Bytes) : Prop :=
  beNat (slice publicKey 0 4) = 5 ∧
    (beNat (slice publicKey 4 4) = 3 ∨ beNat (slice publicKey 4 4) = 4)

theorem LmsProfile.Known.length {profile : LmsProfile} (h : profile.Known) :
    profile.signatureLength = 204 + 32 * profile.p := by
  rcases h with rfl | rfl <;> rfl

theorem lmsProfile_eq_some {otsType : UInt32} {profile : LmsProfile}
    (h : lmsProfile otsType = some profile) : profile.Known ∧
      lmotsParameters otsType.toNat = some profile.parameters ∧
      (otsType.toNat = 3 ∧ profile.signatureLength = 2348 ∨
        otsType.toNat = 4 ∧ profile.signatureLength = 1292) := by
  unfold lmsProfile at h
  split at h
  · obtain rfl := (Option.some.inj h).symm
    subst otsType
    exact ⟨.inl rfl, rfl, .inl ⟨rfl, rfl⟩⟩
  split at h
  · obtain rfl := (Option.some.inj h).symm
    subst otsType
    exact ⟨.inr rfl, rfl, .inr ⟨rfl, rfl⟩⟩
  · cases h

theorem lmsProfile_eq_none {otsType : UInt32} (h : lmsProfile otsType = none) :
    otsType.toNat ≠ 3 ∧ otsType.toNat ≠ 4 := by
  unfold lmsProfile at h
  split at h
  · cases h
  split at h
  · cases h
  · rename_i h3 h4
    exact ⟨fun h => h3 (UInt32.toNat_inj.mp h), fun h => h4 (UInt32.toNat_inj.mp h)⟩

/-- The parts and the lengths that Algorithm 6 asks for. -/
theorem valid_iff {profile : LmsProfile} (hprofile : profile.Known) (publicKey : Block 56)
    (message signature : Bytes) (hkey : load32BE (slice publicKey.val 0 4) = 5) :
    Valid sha256 profile.parameters 5 publicKey.val message signature ↔
      signature.length = profile.signatureLength ∧
        PartsValid sha256 profile publicKey message signature := by
  have hoffset : 8 + 32 * (profile.parameters.p + 1) = 40 + 32 * profile.p := by
    change 8 + 32 * (profile.p + 1) = _
    ring
  have htotal : 12 + 32 * (profile.parameters.p + 1) + 32 * 5 = profile.signatureLength := by
    rw [hprofile.length]
    change 12 + 32 * (profile.p + 1) + 32 * 5 = _
    ring
  have hlmsType (hlength : signature.length = profile.signatureLength) :
      slice signature (40 + 32 * profile.p) 4 = slice publicKey.val 0 4 ↔
        load32BE (slice signature (40 + 32 * profile.p) 4) = 5 := by
    rw [← hkey]
    refine (load32BE_inj ?_ (by simp)).symm
    rw [length_slice, hlength, hprofile.length]
    omega
  constructor
  · rintro ⟨-, hots, hlms, hleaf, hlength, hroot⟩
    rw [hoffset] at hlms
    rw [htotal] at hlength
    exact ⟨hlength, hots, hleaf, (hlmsType hlength).mp hlms, hroot⟩
  · rintro ⟨hlength, hots, hleaf, hlms, hroot⟩
    refine ⟨Block.length_val _, hots, ?_, hleaf, ?_, hroot⟩
    · rw [hoffset]
      exact (hlmsType hlength).mpr hlms
    · rw [htotal, hlength]

/-- A signature of valid parts is read to its end and accepted. -/
theorem verifyStream_of_parts {σ : Type} (reader : OrderedReader σ) (publicKey : Block 56)
    (message : Bytes) (state : σ) {profile : LmsProfile}
    (hprofile : lmsProfile (load32BE (slice publicKey.val 4 4)) = some profile)
    (htype : load32BE (slice publicKey.val 0 4) = 5)
    (hsize : (reader.remaining state).length = profile.signatureLength)
    (hparts : PartsValid sha256 profile publicKey message (reader.remaining state)) :
    ∃ rest, verifyStream sha256 reader.read publicKey message (reader.remaining state).length state
      = (.ok, (reader.remaining state).length, rest) := by
  have hknown := (lmsProfile_eq_some hprofile).1
  have hdecides := readSignature_decides sha256 reader hknown publicKey message
    (hsize.trans hknown.length)
  have hstart : reader.remaining state = (reader.remaining state).drop 0 := (List.drop_zero).symm
  obtain ⟨rest, hread, -⟩ := hdecides.1 hparts state hstart
  refine ⟨rest, ?_⟩
  simp only [verifyStream, hprofile, hread, hsize, htype, ne_eq, not_true, if_false]

/-- The verifier accepts exactly the signatures that the standard accepts for the supported
keys, and then it has read the whole signature. -/
theorem verifyStream_ok_iff {σ : Type} (reader : OrderedReader σ) (publicKey : Block 56)
    (message : Bytes) (state : σ) :
    let signature := reader.remaining state
    let result := verifyStream sha256 reader.read publicKey message signature.length state
    (result.1 = .ok ↔
      SupportedKey publicKey.val ∧ accepts sha256 publicKey.val message signature) ∧
    (result.1 = .ok → result.2.1 = signature.length ∧
      (beNat (slice publicKey.val 4 4) = 3 ∧ signature.length = 2348 ∨
        beNat (slice publicKey.val 4 4) = 4 ∧ signature.length = 1292)) := by
  intro signature result
  have hlength (start : Nat) (h : start + 4 ≤ 56) : (slice publicKey.val start 4).length = 4 := by
    rw [length_slice, Block.length_val]
    omega
  have hots := toNat_load32BE (hlength 4 (by omega))
  have hlms := toNat_load32BE (hlength 0 (by omega))
  rcases hprofile : lmsProfile (load32BE (slice publicKey.val 4 4)) with _ | profile
  · have hresult : result.1 = .badParameter := by
      simp only [result, verifyStream, hprofile]
    obtain ⟨h3, h4⟩ := lmsProfile_eq_none hprofile
    rw [hots] at h3 h4
    rw [hresult]
    refine ⟨⟨nofun, fun h => ?_⟩, nofun⟩
    rcases h.1.2 with h | h
    · exact absurd h h3
    · exact absurd h h4
  obtain ⟨hknown, hparameters, htypes⟩ := lmsProfile_eq_some hprofile
  rw [hots] at hparameters htypes
  have hheight (h : beNat (slice publicKey.val 0 4) = 5) :
      accepts sha256 publicKey.val message signature ↔
        signature.length = profile.signatureLength ∧
          PartsValid sha256 profile publicKey message signature := by
    rw [← valid_iff sha256 hknown publicKey message signature
      (UInt32.toNat_inj.mp (hlms.trans h)), accepts, h, hparameters]
    rfl
  by_cases hsize : signature.length = profile.signatureLength
  · by_cases htype : load32BE (slice publicKey.val 0 4) = 5
    · have htype' : beNat (slice publicKey.val 0 4) = 5 := by
        rw [← hlms, htype]
        rfl
      have hdecides := readSignature_decides sha256 reader hknown publicKey message
        (hsize.trans hknown.length)
      have hstart : reader.remaining state = signature.drop 0 := (List.drop_zero).symm
      by_cases hparts : PartsValid sha256 profile publicKey message signature
      · obtain ⟨rest, hverify⟩ := verifyStream_of_parts sha256 reader publicKey message state
          hprofile htype hsize hparts
        have hresult : result = (.ok, signature.length, rest) := hverify
        rw [hresult]
        refine ⟨⟨fun _ => ⟨⟨htype', htypes.imp And.left And.left⟩,
          (hheight htype').mpr ⟨hsize, hparts⟩⟩, fun _ => rfl⟩, fun _ => ⟨rfl, ?_⟩⟩
        rw [hsize]
        exact htypes
      · obtain ⟨failure, rest, hread, hne⟩ := hdecides.2 hparts state hstart
        have hresult : result.1 = failure := by
          simp only [result, verifyStream, hprofile, hread, hsize, htype, ne_eq, not_true, if_false]
        rw [hresult]
        exact ⟨⟨fun h => absurd h hne, fun h => absurd ((hheight htype').mp h.2).2 hparts⟩,
          fun h => absurd h hne⟩
    · have hresult : result.1 = .badParameter := by
        simp only [result, verifyStream, hprofile, hsize, htype, ne_eq, not_true, not_false_eq_true,
          if_true, if_false]
      rw [hresult]
      refine ⟨⟨nofun, fun h => absurd (UInt32.toNat_inj.mp ?_) htype⟩, nofun⟩
      rw [hlms, h.1.1]
      rfl
  · have hresult : result.1 = .badLength := by
      simp only [result, verifyStream, hprofile, hsize, ne_eq, not_false_eq_true, if_true]
    rw [hresult]
    exact ⟨⟨nofun, fun h => absurd ((hheight h.1.1).mp h.2).1 hsize⟩, nofun⟩

end C0PQLink.NanoPQ
