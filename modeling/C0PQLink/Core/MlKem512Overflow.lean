import C0PQLink.Core.MlKem512Flash
import C0PQLink.Core.MlKem512Ranges

/-!
# The product that leaves the range of an int

`montgomery_reduce` multiplies two values of the type `uint16_t`. Where an `int` has 32
bits, both are promoted to it, and the product is signed. It is in range as long as the low
half of the argument is at most 34520; every other operation always is.

* `Overflows`: an operation of a run leaves the range; `no_overflow_iff` states exactly when
  no operation does.
* `overflows_of_noise`: one positive coefficient of the noise is enough, for every key.
-/

namespace C0PQLink.WithNotes

open Foundation
open Noted (mem_left mem_right)

theorem toNat_lowHalf (value : Int32) : ((lowHalf value).toNat : Int) = value.toInt % 65536 := by
  have hhalf := toInt_toUInt16 value.toInt16
  have hlt := value.toInt16.toUInt16.toNat_lt
  rw [Int32.toInt_toInt16, Int.bmod_def] at hhalf
  rw [lowHalf]
  split at hhalf <;> omega

/-- The product with the constant is an `int` exactly below this bound. -/
theorem inInt_lowProduct (low : UInt16) :
    InInt (low.toNat * mlkemQinv.toNat : Int) ↔ low.toNat ≤ 34520 := by
  have hqinv : mlkemQinv.toNat = 62209 := rfl
  rw [hqinv]
  constructor
  · rintro ⟨-, hhigh⟩
    omega
  · intro hlow
    exact ⟨by omega, by omega⟩

section

variable (hashes : Fips203.Hashes) (zetaData : Nat → Int16) (randomness : Block 32) {σ : Type}
  (answer : (e : Kem.Call) → σ → e.Reply × σ) (s : σ)

/-- An operation of the run has a result that an `int` cannot hold. -/
def Overflows : Prop :=
  ∃ m ∈ operations hashes zetaData randomness answer s, ∃ result, m.result = some result ∧
    ¬ InInt result

/-- No operation of a run overflows exactly when every call of `montgomery_reduce` gets an
argument whose low half is at most 34520. -/
theorem no_overflow_iff : ¬ Overflows hashes zetaData randomness answer s ↔
    ∀ value, .reduces value ∈ operations hashes zetaData randomness answer s →
      (lowHalf value).toNat ≤ 34520 := by
  have hallowed := operations_allowed hashes zetaData randomness answer s
  constructor
  · intro hnone value hvalue
    by_contra hlarge
    have hproduct := mt (inInt_lowProduct (lowHalf value)).mp hlarge
    exact hnone ⟨_, hvalue, _, rfl, hproduct⟩
  · rintro hsmall ⟨m, hm, result, hresult, hout⟩
    have h := hallowed m hm
    cases m with
    | signed result' =>
      cases hresult
      exact hout h
    | stored result' =>
      cases hresult
      exact hout ⟨by have := h.1; omega, by have := h.2; omega⟩
    | reduces value =>
      cases hresult
      exact hout ((inInt_lowProduct _).mpr (hsmall value hm))
    | multiplies _ => cases hresult
    | inverts _ => cases hresult

/-! ## Noise that overflows -/

/-- The reduction in a product. -/
theorem reduces_mem_fqmul (a b : Int16) :
    .reduces (C0PQLink.multiplyS16ConstantSchedule a b) ∈ (fqmul a b).notes :=
  mem_right (mem_left (mem_left (List.mem_singleton.mpr rfl)))

/-- The first product of the transform. -/
theorem reduces_mem_ntt (p : Polynomial) :
    .reduces (C0PQLink.multiplyS16ConstantSchedule (loadZeta 1) (p 128)) ∈ (ntt p).notes :=
  mem_left (Noted.mem_notedLayers_first (by decide) (by decide)
    (mem_left (reduces_mem_fqmul (loadZeta 1) (p 128))))

/-- The first product of the first row. -/
theorem reduces_mem_rowPolynomial (rho coins : Bytes) (row : Nat) :
    .reduces (C0PQLink.multiplyS16ConstantSchedule (loadZeta 1)
        (C0PQLink.sampleCbd hashes coins 0 3 128))
      ∈ (rowPolynomial hashes zetaData rho coins row).notes := by
  have hntt := reduces_mem_ntt (C0PQLink.sampleCbd hashes coins 0 3)
  have hrange : List.range 2 = [0, 1] := rfl
  rw [rowPolynomial, hrange, List.foldlM_cons]
  refine mem_left (mem_left (mem_right (mem_left ?_)))
  rw [value_sampleCbd]
  exact hntt

/-- The first root times a positive coefficient of the noise. -/
theorem lowHalf_first {a : Int16} (hpositive : 0 < a.toInt) (hsmall : a.toInt ≤ 3) :
    34520 < (lowHalf (C0PQLink.multiplyS16ConstantSchedule (loadZeta 1) a)).toNat := by
  have hhalf := toNat_lowHalf (C0PQLink.multiplyS16ConstantSchedule (loadZeta 1) a)
  have hzeta : (loadZeta 1).toInt = -758 := rfl
  rw [multiplyS16ConstantSchedule_toInt, hzeta] at hhalf
  obtain h | h | h : a.toInt = 1 ∨ a.toInt = 2 ∨ a.toInt = 3 := by omega
  · rw [h] at hhalf
    omega
  · rw [h] at hhalf
    omega
  · rw [h] at hhalf
    omega

/-- Whatever the table holds and whatever the writes return: with a key that is accepted, a
positive coefficient in the noise makes the first reduction overflow. -/
theorem overflows_of_noise {publicKeyHash : Block 32} {rho : Bytes} {s' : σ}
    (hkey : (C0PQLink.validateAndHashPublicKey hashes Kem.readPublicKey).run answer s
      = (.ok (publicKeyHash, rho), s'))
    (hnoise : 0 < (C0PQLink.sampleCbd hashes
      (C0PQLink.deriveKAndCoins hashes randomness publicKeyHash).2.val 0 3 128).toInt) :
    Overflows hashes zetaData randomness answer s := by
  have hvalidate : (validateAndHashPublicKey hashes).erase.run answer s
      = (.ok (publicKeyHash, rho), s') := by
    rw [erase_validateAndHashPublicKey]
    exact hkey
  have hderive : (Program.emit (deriveKAndCoins hashes randomness publicKeyHash) :
      KemProgram (Block 32 × Block 32)).erase.run answer s'
      = (C0PQLink.deriveKAndCoins hashes randomness publicKeyHash, s') := by
    rw [Program.erase_emit]
    rfl
  generalize C0PQLink.deriveKAndCoins hashes randomness publicKeyHash = secretAndCoins
    at hderive hnoise
  obtain ⟨secret, coins⟩ := secretAndCoins
  have hsmall := (sampleCbd_within hashes coins.val 0 128).1.high
  have hlarge := lowHalf_first hnoise hsmall
  refine ⟨.reduces _, ?_, _, rfl, mt (inInt_lowProduct _).mp (Nat.not_le.mpr hlarge)⟩
  rw [operations, encapsulateDerand]
  refine Program.mem_marks_right hvalidate ?_
  refine Program.mem_marks_right hderive (Program.mem_marks_left ?_)
  rw [writeRows]
  refine Program.mem_marks_left ?_
  rw [Program.marks_emit]
  exact reduces_mem_rowPolynomial hashes zetaData rho coins.val 0

end

/-! ## A run that overflows -/

/-- Stand-ins for the hash functions whose streams consist of ones. -/
def oneHashes : Fips203.Hashes where
  hashH _ := Block.zero 32
  hashG _ := Block.zero 64
  prf _ _ := 1
  xof _ _ := 1
  finishes := ones_finish

/-- A key of zeros, and writes that do not fail. -/
def zeroAnswer : (e : Kem.Call) → Unit → e.Reply × Unit
  | .readPublicKey _, () => (0, ())
  | .writeCiphertext _, () => (.ok, ())

theorem zeroAnswer_readKeyBytes (start count : Nat) :
    (C0PQLink.readKeyBytes Kem.readPublicKey start count).run zeroAnswer ()
      = (List.replicate count 0, ()) := by
  have hlist (as : List Nat) :
      (as.mapM fun i => Kem.readPublicKey (UInt16.ofNat (start + i))).run zeroAnswer ()
        = (List.replicate as.length 0, ()) := by
    induction as with
    | nil => rfl
    | cons a as ih =>
      have hread : (Kem.readPublicKey (UInt16.ofNat (start + a))).run zeroAnswer () = (0, ()) := rfl
      rw [List.mapM_cons, Program.run_bind_of hread, Program.run_bind_of ih]
      rfl
  have h := hlist (List.range count)
  rwa [List.length_range] at h

theorem zeroAnswer_checkTriples (count offset : Nat) :
    (C0PQLink.checkTriples Kem.readPublicKey count offset).run zeroAnswer () = (true, ()) := by
  induction count generalizing offset with
  | zero => rfl
  | succ count ih =>
    have hread (i : Nat) : (Kem.readPublicKey (UInt16.ofNat i)).run zeroAnswer () = (0, ()) := rfl
    rw [C0PQLink.checkTriples, Program.run_bind_of (hread _), Program.run_bind_of (hread _),
      Program.run_bind_of (hread _), if_neg (by decide)]
    exact ih _

theorem zeroAnswer_validate (hashes : Fips203.Hashes) :
    (C0PQLink.validateAndHashPublicKey hashes Kem.readPublicKey).run zeroAnswer ()
      = (.ok (hashes.hashH (List.replicate 800 0), List.replicate 32 0), ()) := by
  rw [C0PQLink.validateAndHashPublicKey, Program.run_bind_of (zeroAnswer_readKeyBytes 0 800),
    Program.run_bind_of (zeroAnswer_checkTriples 256 0), if_neg (by decide),
    Program.run_bind_of (zeroAnswer_readKeyBytes 768 32)]
  rfl

theorem oneHashes_overflows : Overflows oneHashes loadZeta (Block.zero 32) zeroAnswer () := by
  refine overflows_of_noise oneHashes loadZeta (Block.zero 32) zeroAnswer ()
    (zeroAnswer_validate oneHashes) ?_
  have hnoise : (C0PQLink.sampleCbd3 (fun _ => 1) 128).toInt = 1 := by decide
  exact hnoise.symm ▸ Int.one_pos

end C0PQLink.WithNotes
