import C0PQLink.NanoPQ.SlhDsaVerification

/-!
# Signatures that end too early

What the two streaming verifiers return when a read fails.

* `readSignature_endsAt`: a read of the LMS verifier that fails ends it with an input error,
  except the one of the type word behind the chains.
* `truncated_signatures`: both verifiers.
-/

namespace C0PQLink.NanoPQ

open Foundation

variable (sha256 : Bytes → Block 32)

/-! ## The reads of the LMS verifier -/

/-- The length that the read `i` of an LMS signature with `p` chains asks for. -/
def lmsLengths (p i : Nat) : Nat := if i < 2 ∨ i = p + 3 then 4 else 32

section

variable {σ : Type} {reader : Reader σ} {lengths : Nat → Nat} {start : σ}

theorem readPart_reads (failure : LmsResult) {length first : Nat}
    (hlength : lengths first = length) :
    Reads reader lengths start (readPart reader failure length) first (first + 1) failure
      fun piece => piece.val = (pieceAt reader lengths start first).val :=
  reads_piece hlength

theorem readChains_reads (profile : LmsProfile)
    (identifier encodedQ messageHash checksumBytes : Bytes) (count chainIndex : Nat)
    (hashed : Bytes) {first : Nat}
    (hlengths : ∀ i, first ≤ i → i < first + count → lengths i = 32) :
    Reads reader lengths start (readChains sha256 reader profile identifier encodedQ messageHash
      checksumBytes count chainIndex hashed) first (first + count) .ioError fun _ => True := by
  induction count generalizing chainIndex hashed first with
  | zero => exact reads_pure trivial first
  | succ count ih =>
    refine (readPart_reads .ioError (hlengths first (by omega) (by omega))).bind
      (fun chainValue _ => ?_) (by omega)
    rw [show first + (count + 1) = first + 1 + count by omega]
    exact ih _ _ fun i hfirst hlast => hlengths i (by omega) (by omega)

theorem readOtsKey_reads (profile : LmsProfile) (identifier encodedQ message randomizer : Bytes)
    {first : Nat} (hlengths : ∀ i, first ≤ i → i < first + profile.p → lengths i = 32) :
    Reads reader lengths start
      (readOtsKey sha256 reader profile identifier encodedQ message randomizer) first
      (first + profile.p) .ioError fun _ => True :=
  (readChains_reads sha256 profile identifier encodedQ _ _ profile.p 0 _ hlengths).bind
    (fun _ _ => reads_pure trivial _) (Nat.le_refl _)

theorem readPath_reads (identifier : Bytes) (levels : Nat) (nodeNumber : UInt32)
    (chainValue : Block 32) {first : Nat}
    (hlengths : ∀ i, first ≤ i → i < first + levels → lengths i = 32) :
    Reads reader lengths start (readPath sha256 reader identifier levels nodeNumber chainValue)
      first (first + levels) .ioError fun _ => True := by
  induction levels generalizing nodeNumber chainValue first with
  | zero => exact reads_pure trivial first
  | succ levels ih =>
    refine (readPart_reads .ioError (hlengths first (by omega) (by omega))).bind
      (fun sibling _ => ?_) (by omega)
    rw [show first + (levels + 1) = first + 1 + levels by omega]
    exact ih _ _ fun i hfirst hlast => hlengths i (by omega) (by omega)

end

/-- The leaf index is in range and the type words are the right ones, as far as they are among
the first `k` pieces. -/
def WellTyped {σ : Type} (reader : Reader σ) (state : σ) (p : Nat) (otsType : UInt32) (k : Nat) :
    Prop :=
  (0 < k → load32BE (pieceAt reader (lmsLengths p) state 0).val < 32)
    ∧ (1 < k → load32BE (pieceAt reader (lmsLengths p) state 1).val = otsType)
    ∧ (p + 3 < k → load32BE (pieceAt reader (lmsLengths p) state (p + 3)).val = 5)

theorem readSignature_endsAt {σ : Type} {reader : Reader σ} {state : σ} {profile : LmsProfile}
    (publicKey : Block 56) (message : Bytes) {otsType : UInt32} {k : Nat} (hk : k < profile.p + 9)
    (hfails : FailsAt reader (lmsLengths profile.p) state k)
    (htyped : WellTyped reader state profile.p otsType k) :
    EndsAt reader (lmsLengths profile.p) state
      (readSignature sha256 reader profile publicKey message otsType) 0 k
      (if k = profile.p + 3 then .badSignature else .ioError) := by
  have hword : ∀ i, i < 2 ∨ i = profile.p + 3 → lmsLengths profile.p i = 4 := fun i hi => if_pos hi
  have hblock : ∀ i, ¬ (i < 2 ∨ i = profile.p + 3) → lmsLengths profile.p i = 32 :=
    fun i hi => if_neg hi
  obtain ⟨hleaf, hots, hlms⟩ := htyped
  unfold readSignature
  rcases Nat.lt_or_ge k 1 with hlt | hge
  · rw [if_neg (by omega)]
    exact (readPart_reads .ioError (hword 0 (by omega))).endsAt_left _ (by omega) hlt hfails
  refine (readPart_reads .ioError (hword 0 (by omega))).endsAt_right hge hfails
    fun encodedQ hencodedQ => ?_
  rcases Nat.lt_or_ge k 2 with hlt | hge
  · rw [if_neg (by omega)]
    exact (readPart_reads .ioError (hword 1 (by omega))).endsAt_left _ (by omega) hlt hfails
  refine (readPart_reads .ioError (hword 1 (by omega))).endsAt_right hge hfails
    fun encodedType hencodedType => ?_
  rcases Nat.lt_or_ge k 3 with hlt | hge
  · rw [if_neg (by omega)]
    exact (readPart_reads .ioError (hblock 2 (by omega))).endsAt_left _ (by omega) hlt hfails
  refine (readPart_reads .ioError (hblock 2 (by omega))).endsAt_right hge hfails
    fun randomizer _ => ?_
  have hcheck : ¬ ((32 : UInt32) ≤ load32BE encodedQ.val ∨ load32BE encodedType.val ≠ otsType) := by
    rw [hencodedQ, hencodedType, not_or, not_not]
    exact ⟨UInt32.not_le.mpr (hleaf (by omega)), hots (by omega)⟩
  dsimp only
  rw [if_neg hcheck]
  have hchains : Reads reader (lmsLengths profile.p) state (readOtsKey sha256 reader profile
      (slice publicKey.val 8 16) encodedQ.val message randomizer.val) 3 (3 + profile.p) .ioError
      fun _ => True :=
    readOtsKey_reads sha256 profile _ _ _ _ fun i hfirst hlast => hblock i (by omega)
  rcases Nat.lt_or_ge k (3 + profile.p) with hlt | hge
  · rw [if_neg (by omega)]
    exact hchains.endsAt_left _ hge hlt hfails
  refine hchains.endsAt_right hge hfails fun candidateOtsKey _ => ?_
  rw [Nat.add_comm 3 profile.p] at hge ⊢
  rcases Nat.lt_or_ge k (profile.p + 3 + 1) with hlt | hge
  · rw [if_pos (by omega)]
    exact (readPart_reads .badSignature (hword _ (.inr rfl))).endsAt_left _ hge hlt hfails
  rw [if_neg (by omega)]
  refine (readPart_reads .badSignature (hword _ (.inr rfl))).endsAt_right hge hfails
    fun encodedType hencodedType => ?_
  have htype : ¬ load32BE encodedType.val ≠ 5 := by
    rw [hencodedType]
    exact not_not.mpr (hlms hge)
  rw [if_neg htype]
  exact (readPath_reads sha256 _ 5 _ _ fun i hfirst hlast => hblock i (by omega)).endsAt_left _ hge
    (by omega) hfails

theorem verifyStream_endsAt {σ : Type} {reader : Reader σ} {state : σ} {publicKey : Block 56}
    (message : Bytes) {profile : LmsProfile} {k : Nat}
    (hprofile : lmsProfile (load32BE (slice publicKey.val 4 4)) = some profile)
    (htype : load32BE (slice publicKey.val 0 4) = 5) (hk : k < profile.p + 9)
    (hfails : FailsAt reader (lmsLengths profile.p) state k)
    (htyped : WellTyped reader state profile.p (load32BE (slice publicKey.val 4 4)) k) :
    verifyStream sha256 reader publicKey message profile.signatureLength state
      = (if k = profile.p + 3 then .badSignature else .ioError,
        countAt (lmsLengths profile.p) k, stateAt reader (lmsLengths profile.p) state (k + 1)) := by
  have hends : readSignature sha256 reader profile publicKey message
      (load32BE (slice publicKey.val 4 4)) (state, 0) = _ :=
    readSignature_endsAt sha256 publicKey message hk hfails htyped
  simp only [verifyStream, hprofile, htype, hends, ne_eq, not_true, if_false]

/-! ## Truncated signatures -/

/-- A read that fails is an input error with the number of bytes before it, except for the type
word behind the chains of an LMS signature. -/
theorem truncated_signatures (build : Ablation) (layout : WordLayout) (unused : Block 64) :
    (∀ (σ : Type) (reader : Reader σ) (state : σ) (publicKey : Block 56) (message : Bytes)
      (profile : LmsProfile) (k : Nat),
      lmsProfile (load32BE (slice publicKey.val 4 4)) = some profile →
      load32BE (slice publicKey.val 0 4) = 5 → k < profile.p + 9 →
      FailsAt reader (lmsLengths profile.p) state k →
      WellTyped reader state profile.p (load32BE (slice publicKey.val 4 4)) k →
      ((∃ rest, verifyStream sha256 reader publicKey message profile.signatureLength state
          = (.ioError, countAt (lmsLengths profile.p) k, rest)) ↔ k ≠ profile.p + 3))
    ∧ ∀ (σ : Type) (reader : Reader σ) (state : σ) (publicKey : Block 32)
      (message context : Bytes) (k : Nat),
      context.length ≤ 255 → k < 491 → FailsAt reader (fun _ => 16) state k →
      ∃ rest, SlhDsa.verifyStream build layout unused reader publicKey message context 7856 state
        = (.ioError, 16 * k, rest) := by
  refine ⟨?_, ?_⟩
  · intro σ reader state publicKey message profile k hprofile htype hk hfails htyped
    rw [verifyStream_endsAt sha256 message hprofile htype hk hfails htyped]
    constructor
    · rintro ⟨rest, hresult⟩ rfl
      rw [if_pos rfl] at hresult
      cases congrArg Prod.fst hresult
    · intro hne
      exact ⟨_, by rw [if_neg hne]⟩
  · intro σ reader state publicKey message context k hcontext hk hfails
    exact ⟨_, SlhDsa.verifyStream_fails build layout unused publicKey message hcontext hk hfails⟩

/-- A reader that stops before the type word behind 34 chains. -/
def stopAtType : Reader Nat := fun length n =>
  if n = 37 then (none, n + 1)
  else (some ⟨beBytes length (if n = 1 then 4 else 0), length_beBytes _ _⟩, n + 1)

/-- The typecodes of a key with 34 chains, with an identifier and a root of zeros. -/
def zeroKey : Block 56 := ⟨beBytes 4 5 ++ beBytes 4 4 ++ List.replicate 48 0, rfl⟩

theorem stateAt_stopAtType (lengths : Nat → Nat) (i : Nat) :
    stateAt stopAtType lengths 0 i = i := by
  induction i with
  | zero => rfl
  | succ i ih =>
    rw [stateAt, ih, stopAtType]
    split
    · rfl
    · rfl

/-- The bytes before the type word are as they should be, and the result is a bad signature. -/
theorem stopAtType_badSignature :
    FailsAt stopAtType (lmsLengths 34) 0 37
      ∧ WellTyped stopAtType 0 34 (load32BE (slice zeroKey.val 4 4)) 37
      ∧ verifyStream (fun _ => Block.zero 32) stopAtType zeroKey [] 1292 0
        = (.badSignature, 1128, 38) := by
  have hfails : FailsAt stopAtType (lmsLengths 34) 0 37 := by
    refine ⟨fun i hi => ?_, ?_⟩
    · rw [answerAt, stateAt_stopAtType, stopAtType, if_neg (by omega)]
      rfl
    · rw [answerAt, stateAt_stopAtType]
      rfl
  have htyped : WellTyped stopAtType 0 34 (load32BE (slice zeroKey.val 4 4)) 37 :=
    ⟨fun _ => by decide, fun _ => by decide, fun h => absurd h (by omega)⟩
  have hprofile : lmsProfile (load32BE (slice zeroKey.val 4 4)) = some ⟨8, 34, 0, 1292⟩ := rfl
  have htype : load32BE (slice zeroKey.val 0 4) = 5 := by decide
  have hrun := verifyStream_endsAt (fun _ => Block.zero 32) [] hprofile htype (by decide) hfails
    htyped
  have hcount : countAt (lmsLengths 34) 37 = 1128 := by decide
  rw [stateAt_stopAtType] at hrun
  dsimp only at hrun
  rw [hcount] at hrun
  exact ⟨hfails, htyped, hrun⟩

end C0PQLink.NanoPQ
