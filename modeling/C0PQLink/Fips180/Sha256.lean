import Mathlib.Data.Nat.NthRoot.Defs
import C0PQLink.Foundation.Blocks
import C0PQLink.Foundation.Bytes

/-!
# SHA-256 of FIPS 180-4

The hash function of the standard for messages of whole bytes. The standard defines it for
less than `2 ^ 61` bytes; beyond, the length field of the padding keeps the low 64 bits.

* `sha256`: the hash computation of section 6.2.2.
* `fullBlocks_pad_short`, `fullBlocks_pad_long`: the blocks of a padded message, by the fill
  level of the last block.
-/

namespace Fips180

open Foundation

/-! ## Functions and constants -/

def rotr (n x : UInt32) : UInt32 := (x >>> n) ||| (x <<< (32 - n))

def ch (x y z : UInt32) : UInt32 := (x &&& y) ^^^ (~~~x &&& z)
def maj (x y z : UInt32) : UInt32 := (x &&& y) ^^^ (x &&& z) ^^^ (y &&& z)
def bigSigma0 (x : UInt32) : UInt32 := rotr 2 x ^^^ rotr 13 x ^^^ rotr 22 x
def bigSigma1 (x : UInt32) : UInt32 := rotr 6 x ^^^ rotr 11 x ^^^ rotr 25 x
def smallSigma0 (x : UInt32) : UInt32 := rotr 7 x ^^^ rotr 18 x ^^^ (x >>> 3)
def smallSigma1 (x : UInt32) : UInt32 := rotr 17 x ^^^ rotr 19 x ^^^ (x >>> 10)

/-- The first sixty-four prime numbers. -/
def primes : List Nat :=
  [2, 3, 5, 7, 11, 13, 17, 19, 23, 29, 31, 37, 41, 43, 47, 53, 59, 61, 67, 71, 73, 79, 83, 89,
    97, 101, 103, 107, 109, 113, 127, 131, 137, 139, 149, 151, 157, 163, 167, 173, 179, 181,
    191, 193, 197, 199, 211, 223, 227, 229, 233, 239, 241, 251, 257, 263, 269, 271, 277, 281,
    283, 293, 307, 311]

/-- The first 32 bits of the fractional part of the cube root of the prime number `t`. -/
def constant (t : Nat) : UInt32 := UInt32.ofNat (Nat.nthRoot 3 (primes.getD t 0 * 2 ^ 96))

/-- The first 32 bits of the fractional part of the square root of the prime number `i`. -/
def initialWord (i : Nat) : UInt32 := UInt32.ofNat (Nat.nthRoot 2 (primes.getD i 0 * 2 ^ 64))

/-! ## The hash computation -/

/-- A hash value, or the eight working variables. -/
@[ext]
structure HashValue where
  a : UInt32
  b : UInt32
  c : UInt32
  d : UInt32
  e : UInt32
  f : UInt32
  g : UInt32
  h : UInt32
  deriving DecidableEq

def initialHash : HashValue :=
  ⟨initialWord 0, initialWord 1, initialWord 2, initialWord 3, initialWord 4, initialWord 5,
    initialWord 6, initialWord 7⟩

/-- The word `t` of a block. -/
def messageWord (block : Bytes) (t : Nat) : UInt32 := UInt32.ofNat (beNat (slice block (4 * t) 4))

/-- The message schedule `W`. -/
def schedule (block : Bytes) (t : Nat) : UInt32 :=
  if t < 16 then messageWord block t
  else smallSigma1 (schedule block (t - 2)) + schedule block (t - 7)
    + smallSigma0 (schedule block (t - 15)) + schedule block (t - 16)
termination_by t

def round (block : Bytes) (v : HashValue) (t : Nat) : HashValue :=
  let t1 := v.h + bigSigma1 v.e + ch v.e v.f v.g + constant t + schedule block t
  let t2 := bigSigma0 v.a + maj v.a v.b v.c
  { a := t1 + t2, b := v.a, c := v.b, d := v.c, e := v.d + t1, f := v.e, g := v.f, h := v.g }

/-- The hash value after one more block. -/
def compress (hash : HashValue) (block : Bytes) : HashValue :=
  let v := (List.range 64).foldl (round block) hash
  { a := v.a + hash.a, b := v.b + hash.b, c := v.c + hash.c, d := v.d + hash.d
    e := v.e + hash.e, f := v.f + hash.f, g := v.g + hash.g, h := v.h + hash.h }

/-- The number of zero bytes between the bit 1 and the length. -/
def paddingZeros (length : Nat) : Nat := (119 - length % 64) % 64

def pad (message : Bytes) : Bytes :=
  message ++ [0x80] ++ List.replicate (paddingZeros message.length) 0
    ++ beBytes 8 (8 * message.length)

def wordBytes (word : UInt32) : Bytes := beBytes 4 word.toNat

def digest (hash : HashValue) : Block 32 :=
  ⟨wordBytes hash.a ++ wordBytes hash.b ++ wordBytes hash.c ++ wordBytes hash.d
    ++ wordBytes hash.e ++ wordBytes hash.f ++ wordBytes hash.g ++ wordBytes hash.h,
    by simp [wordBytes]⟩

def sha256 (message : Bytes) : Block 32 :=
  digest ((fullBlocks 64 (pad message)).foldl compress initialHash)

/-! ## Padded messages -/

/-- What the padding puts behind the complete blocks. -/
def lastBytes (message : Bytes) : Bytes :=
  unfinished 64 message ++ [0x80] ++ List.replicate (paddingZeros message.length) 0
    ++ beBytes 8 (8 * message.length)

theorem pad_eq (message : Bytes) :
    pad message = (fullBlocks 64 message).flatten ++ lastBytes message := by
  have hwhole := fullBlocks_append_unfinished 64 message
  rw [lastBytes, ← List.append_assoc, ← List.append_assoc, ← List.append_assoc, hwhole, pad]

theorem paddingZeros_eq (message : Bytes) :
    paddingZeros message.length = (119 - (unfinished 64 message).length) % 64 := by
  rw [paddingZeros, length_unfinished]

/-- A message whose last block has room for the padding. -/
theorem fullBlocks_pad_short {message : Bytes} (h : (unfinished 64 message).length ≤ 55) :
    fullBlocks 64 (pad message) = fullBlocks 64 message ++ [unfinished 64 message ++ [0x80]
      ++ List.replicate (55 - (unfinished 64 message).length) 0
      ++ beBytes 8 (8 * message.length)] := by
  have hzeros : paddingZeros message.length = 55 - (unfinished 64 message).length := by
    rw [paddingZeros_eq]
    omega
  have hlast : lastBytes message = [unfinished 64 message ++ [0x80]
      ++ List.replicate (55 - (unfinished 64 message).length) 0
      ++ beBytes 8 (8 * message.length)].flatten := by
    rw [lastBytes, hzeros, List.flatten_singleton]
  rw [pad_eq, hlast]
  refine fullBlocks_append_blocks (by omega) message fun block hmem => ?_
  rw [List.mem_singleton.mp hmem]
  simp only [List.length_append, List.length_singleton, List.length_replicate, length_beBytes]
  omega

/-- A message whose padding goes on in one more block. -/
theorem fullBlocks_pad_long {message : Bytes} (h : 55 < (unfinished 64 message).length) :
    fullBlocks 64 (pad message) = fullBlocks 64 message ++ [unfinished 64 message ++ [0x80]
      ++ List.replicate (63 - (unfinished 64 message).length) 0,
      List.replicate 56 0 ++ beBytes 8 (8 * message.length)] := by
  have hlt := unfinished_lt (show 0 < 64 by decide) message
  have hzeros : paddingZeros message.length
      = (63 - (unfinished 64 message).length) + 56 := by
    rw [paddingZeros_eq]
    omega
  have hlast : lastBytes message = [unfinished 64 message ++ [0x80]
      ++ List.replicate (63 - (unfinished 64 message).length) 0,
      List.replicate 56 0 ++ beBytes 8 (8 * message.length)].flatten := by
    rw [lastBytes, hzeros, List.replicate_add]
    simp only [List.flatten_cons, List.flatten_nil, List.append_nil, List.append_assoc]
  rw [pad_eq, hlast]
  refine fullBlocks_append_blocks (by omega) message fun block hmem => ?_
  rcases List.mem_cons.mp hmem with rfl | hmem
  · simp only [List.length_append, List.length_singleton, List.length_replicate]
    omega
  · rw [List.mem_singleton.mp hmem]
    simp

end Fips180
