import Mathlib.Data.ZMod.Basic
import Mathlib.Algebra.BigOperators.Group.Finset.Basic
import Mathlib.Algebra.Field.Rat
import Mathlib.Algebra.Order.Round
import Mathlib.Data.Rat.Floor
import C0PQLink.Foundation.Bytes
import C0PQLink.Foundation.Butterflies

/-!
# ML-KEM-512 encapsulation

The deterministic encapsulation `ML-KEM.Encaps_internal` of FIPS 203 for ML-KEM-512, over
the integers modulo 3329. The four functions of the SHA-3 family are parameters. An array
of 256 coefficients is the function of its entries.

* `nttLayers`, `inverseNttLayers`: the loops of the transforms, over arbitrary butterflies.
* `sampleNTT`, `samplePolyCBD`: the two ways to sample a polynomial.
* `encapsInternal`: the shared secret and the ciphertext.
-/

namespace Fips203

open Foundation

abbrev q : Nat := 3329

abbrev Zq : Type := ZMod 3329

/-- The coefficients of a polynomial, or of its transform. -/
abbrev Poly : Type := Nat → Zq

/-! ## The functions of the SHA-3 family -/

/-- The candidate number `k` that rejection sampling reads from a byte stream: two of them
in every three bytes. -/
def candidate (stream : Nat → UInt8) (k : Nat) : Nat :=
  let c0 := (stream (3 * (k / 2))).toNat
  let c1 := (stream (3 * (k / 2) + 1)).toNat
  let c2 := (stream (3 * (k / 2) + 2)).toNat
  if k % 2 = 0 then c0 + 256 * (c1 % 16) else c1 / 16 + 16 * c2

/-- SHA3-256, SHA3-512 and the output streams of SHAKE256 and SHAKE128, with the assumption
that rejection sampling from SHAKE128 always finds a next coefficient. -/
structure Hashes where
  hashH : Bytes → Block 32
  hashG : Bytes → Block 64
  prf : Bytes → Nat → UInt8
  xof : Bytes → Nat → UInt8
  finishes : ∀ seed k, ∃ n, candidate (xof seed) (k + n) < q

/-! ## Sampling -/

/-- The number of the candidate that becomes coefficient `j`: the first one below `q`, and
after each the next one below `q`. -/
def Hashes.accepted (hashes : Hashes) (seed : Bytes) : Nat → Nat
  | 0 => Nat.find (hashes.finishes seed 0)
  | j + 1 =>
    let k := hashes.accepted seed j + 1
    k + Nat.find (hashes.finishes seed k)

/-- Algorithm 7. -/
def Hashes.sampleNTT (hashes : Hashes) (seed : Bytes) : Poly :=
  fun j => candidate (hashes.xof seed) (hashes.accepted seed j)

/-- The bit `n` of a byte string, the lowest bit of its first byte being the first. -/
def bitOf (bytes : Nat → UInt8) (n : Nat) : Nat := (bytes (n / 8)).toNat / 2 ^ (n % 8) % 2

/-- Algorithm 8. -/
def samplePolyCBD (eta : Nat) (bytes : Nat → UInt8) : Poly := fun i =>
  (∑ j ∈ Finset.range eta, bitOf bytes (2 * i * eta + j) : Nat)
    - (∑ j ∈ Finset.range eta, bitOf bytes (2 * i * eta + eta + j) : Nat)

/-! ## The transform -/

/-- The seven bits of `k` in reverse order. -/
def bitRev7 (k : Nat) : Nat :=
  (List.range 7).foldl (fun reversed i => 2 * reversed + k / 2 ^ i % 2) 0

/-- The primitive 256th root of unity. -/
def zeta : Zq := 17

section

variable {α : Type} (butterfly : Nat → α → α → α × α)

/-- The loops of Algorithm 9; the butterfly of a block gets the number of the block. -/
def nttLayers (f : Nat → α) : Nat → α :=
  ([128, 64, 32, 16, 8, 4, 2].foldl
    (fun state length => butterflyLayer butterfly (· + 1) 256 length state) (f, 1)).1

/-- The loops of Algorithm 10, with the blocks numbered backwards. -/
def inverseNttLayers (f : Nat → α) : Nat → α :=
  ([2, 4, 8, 16, 32, 64, 128].foldl
    (fun state length => butterflyLayer butterfly (· - 1) 256 length state) (f, 127)).1

end

/-- Algorithm 9. -/
def ntt (f : Poly) : Poly :=
  nttLayers (fun k x y => (x + zeta ^ bitRev7 k * y, x - zeta ^ bitRev7 k * y)) f

/-- Algorithm 10. -/
def inverseNtt (f : Poly) : Poly := fun i =>
  inverseNttLayers (fun k x y => (x + y, zeta ^ bitRev7 k * (y - x))) f i * 3303

/-- Algorithms 11 and 12. -/
def multiplyNTTs (f g : Poly) : Poly := fun i =>
  if i % 2 = 0 then f i * g i + f (i + 1) * g (i + 1) * zeta ^ (2 * bitRev7 (i / 2) + 1)
  else f (i - 1) * g i + f i * g (i - 1)

/-! ## Encoding and compression -/

/-- Algorithm 5, for 256 integers of `d` bits. -/
def byteEncode (d : Nat) (f : Nat → Nat) : Bytes :=
  (List.range (32 * d)).map fun k =>
    UInt8.ofNat (∑ t ∈ Finset.range 8, f ((8 * k + t) / d) / 2 ^ ((8 * k + t) % d) % 2 * 2 ^ t)

/-- Algorithm 6. -/
def byteDecode (d : Nat) (bytes : Nat → UInt8) : Nat → Nat :=
  fun i => ∑ j ∈ Finset.range d, bitOf bytes (d * i + j) * 2 ^ j

/-- `2 ^ d / q * x`, rounded to the nearest integer, modulo `2 ^ d`. -/
def compress (d : Nat) (x : Zq) : Nat :=
  (round ((2 ^ d : ℚ) / q * x.val)).toNat % 2 ^ d

/-- `q / 2 ^ d * y`, rounded to the nearest integer. -/
def decompress (d : Nat) (y : Nat) : Zq := round ((q : ℚ) / 2 ^ d * y)

/-! ## Encryption and encapsulation -/

/-- The public vector of an encapsulation key. -/
def publicVector (ek : Block 800) (i : Nat) : Poly :=
  fun n => byteDecode 12 (fun k => byteAt ek.val (384 * i + k)) n

/-- The seed of the public matrix. -/
def matrixSeed (ek : Block 800) : Bytes := ek.val.drop 768

section

variable (hashes : Hashes) (ek : Block 800) (m r : Block 32)

/-- The entry of the public matrix in row `i` and column `j`. -/
def matrixEntry (i j : Nat) : Poly :=
  hashes.sampleNTT (matrixSeed ek ++ [UInt8.ofNat j, UInt8.ofNat i])

/-- The polynomial that is sampled from the coins with a nonce. -/
def noise (eta nonce : Nat) : Poly :=
  samplePolyCBD eta (hashes.prf (r.val ++ [UInt8.ofNat nonce]))

/-- The transform of the ephemeral vector. -/
def ephemeral (j : Nat) : Poly := ntt (noise hashes r 3 j)

def encryptU (i : Nat) : Poly := fun n =>
  inverseNtt (fun n => multiplyNTTs (matrixEntry hashes ek 0 i) (ephemeral hashes r 0) n
      + multiplyNTTs (matrixEntry hashes ek 1 i) (ephemeral hashes r 1) n) n
    + noise hashes r 2 (2 + i) n

def encryptV : Poly := fun n =>
  inverseNtt (fun n => multiplyNTTs (publicVector ek 0) (ephemeral hashes r 0) n
      + multiplyNTTs (publicVector ek 1) (ephemeral hashes r 1) n) n
    + noise hashes r 2 4 n + decompress 1 (byteDecode 1 (byteAt m.val) n)

/-- Algorithm 14. -/
def encrypt : Bytes :=
  byteEncode 10 (fun n => compress 10 (encryptU hashes ek r 0 n))
    ++ byteEncode 10 (fun n => compress 10 (encryptU hashes ek r 1 n))
    ++ byteEncode 4 (fun n => compress 4 (encryptV hashes ek m r n))

/-- Algorithm 17: the shared secret and the ciphertext. -/
def encapsInternal : Block 32 × Bytes :=
  let keyAndCoins := hashes.hashG (m.val ++ (hashes.hashH ek.val).val)
  (blockAt keyAndCoins.val 0 32 (by simp),
    encrypt hashes ek m (blockAt keyAndCoins.val 32 32 (by simp)))

end

/-- The modulus check of the standard: every encoded coefficient is below `q`. -/
def Canonical (ek : Block 800) : Prop :=
  ∀ i < 2, ∀ n < 256, byteDecode 12 (fun k => byteAt ek.val (384 * i + k)) n < q

instance (ek : Block 800) : Decidable (Canonical ek) := by
  unfold Canonical
  infer_instance

end Fips203
