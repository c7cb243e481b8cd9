import Mathlib.Data.Fin.Basic
import C0PQLink.Foundation.Blocks
import C0PQLink.Foundation.Bytes

/-!
# SHA-3 of FIPS 202

The permutation, the sponge construction and the hash and extendable-output functions of the
standard, on strings of bits. The width is 1600 bits, and the coordinates of a state array
are numbers modulo 5 and 64.

* `keccakP`: Algorithm 7 with 24 rounds.
* `sponge`: Algorithm 8.
* `Algorithm.output`: SHA3-256, SHA3-512, SHAKE128 and SHAKE256.
-/

namespace Fips202

open Foundation

abbrev Bits := List Bool

/-! ## State arrays -/

abbrev StateArray := Fin 5 → Fin 5 → Fin 64 → Bool

/-- Section 3.1.2. -/
def toArray (s : Bits) : StateArray := fun x y z => s.getD (64 * (5 * y + x) + z) false

/-- Section 3.1.3: the lanes of the plane 0, then those of the plane 1 and so on. -/
def toString (a : StateArray) : Bits :=
  (List.finRange 5).flatMap fun y => (List.finRange 5).flatMap fun x =>
    (List.finRange 64).map fun z => a x y z

/-! ## Step mappings -/

instance neZero_five : NeZero 5 := ⟨Nat.succ_ne_zero 4⟩

def columnParity (a : StateArray) (x : Fin 5) (z : Fin 64) : Bool :=
  a x 0 z ^^ a x 1 z ^^ a x 2 z ^^ a x 3 z ^^ a x 4 z

def theta (a : StateArray) : StateArray := fun x y z =>
  a x y z ^^ (columnParity a (x - 1) z ^^ columnParity a (x + 1) (z - 1))

/-- The coordinates in step 3 of Algorithm 2, for every `t`. -/
def rhoLane : Nat → Fin 5 × Fin 5
  | 0 => (1, 0)
  | t + 1 => ((rhoLane t).2, 2 * (rhoLane t).1 + 3 * (rhoLane t).2)

/-- The offset of a lane: that of the `t` at which Algorithm 2 comes to it. -/
def rhoOffset (x y : Fin 5) : Nat :=
  match (List.range 24).find? fun t => rhoLane t = (x, y) with
  | some t => (t + 1) * (t + 2) / 2
  | none => 0

def rho (a : StateArray) : StateArray := fun x y z => a x y (z - Fin.ofNat 64 (rhoOffset x y))

def pi (a : StateArray) : StateArray := fun x y z => a (x + 3 * y) x z

def chi (a : StateArray) : StateArray := fun x y z =>
  a x y z ^^ ((a (x + 1) y z ^^ true) && a (x + 2) y z)

/-- One step of the shift register of Algorithm 5. -/
def lfsrStep (r : Bits) : Bits :=
  let r := false :: r
  let last := r.getD 8 false
  let r := r.set 0 (r.getD 0 false ^^ last)
  let r := r.set 4 (r.getD 4 false ^^ last)
  let r := r.set 5 (r.getD 5 false ^^ last)
  let r := r.set 6 (r.getD 6 false ^^ last)
  r.take 8

/-- Algorithm 5. -/
def rc (t : Nat) : Bool :=
  (lfsrStep^[t % 255] [true, false, false, false, false, false, false, false]).getD 0 false

/-- The bit of the round constant of Algorithm 6 at a position. -/
def roundConstantBit (ir : Nat) (z : Fin 64) : Bool :=
  match (List.range 7).find? fun j => 2 ^ j - 1 = z.val with
  | some j => rc (j + 7 * ir)
  | none => false

def iota (a : StateArray) (ir : Nat) : StateArray := fun x y z =>
  if x = 0 ∧ y = 0 then a x y z ^^ roundConstantBit ir z else a x y z

def rnd (a : StateArray) (ir : Nat) : StateArray := iota (chi (pi (rho (theta a)))) ir

/-- `KECCAK-p[1600, 24]`. -/
def keccakP (s : Bits) : Bits := toString ((List.range 24).foldl rnd (toArray s))

/-! ## The sponge -/

/-- The rule `pad10*1`. -/
def pad (x m : Nat) : Bits := [true] ++ List.replicate ((x - (m + 2) % x) % x) false ++ [true]

def xorBits (a b : Bits) : Bits := List.zipWith (· ^^ ·) a b

/-- The string `Trunc_r(S) ‖ Trunc_r(f(S)) ‖ …`, cut to `d` bits. -/
def squeeze (f : Bits → Bits) (r : Nat) (s : Bits) (d : Nat) : Bits :=
  ((List.range (d / r + 1)).flatMap fun i => (f^[i] s).take r).take d

/-- Algorithm 8 for the width 1600. -/
def sponge (f : Bits → Bits) (r : Nat) (n : Bits) (d : Nat) : Bits :=
  let p := n ++ pad r n.length
  let s := (fullBlocks r p).foldl
    (fun s block => f (xorBits s (block ++ List.replicate (1600 - r) false)))
    (List.replicate 1600 false)
  squeeze f r s d

/-- `KECCAK[c]`. -/
def keccak (c : Nat) (n : Bits) (d : Nat) : Bits := sponge keccakP (1600 - c) n d

/-! ## The functions -/

inductive Algorithm where
  | sha3_256
  | sha3_512
  | shake128
  | shake256

def Algorithm.capacity : Algorithm → Nat
  | .sha3_256 => 512
  | .sha3_512 => 1024
  | .shake128 => 256
  | .shake256 => 512

/-- The bits that are appended to a message. -/
def Algorithm.suffix : Algorithm → Bits
  | .sha3_256 | .sha3_512 => [false, true]
  | .shake128 | .shake256 => [true, true, true, true]

/-- The first `d` bits of output for a message; `d` is 256 and 512 for the two hash functions. -/
def Algorithm.output (algorithm : Algorithm) (message : Bits) (d : Nat) : Bits :=
  keccak algorithm.capacity (message ++ algorithm.suffix) d

/-- The bits of a byte string, the lowest of a byte first (Appendix B.1). -/
def bitsOf (b : Bytes) : Bits := b.flatMap fun x => (List.range 8).map fun i => x.toNat.testBit i

end Fips202
