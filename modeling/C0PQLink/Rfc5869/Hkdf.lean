import C0PQLink.Foundation.Bytes

/-!
# HMAC and HKDF of RFC 2104 and RFC 5869

Over a hash function with blocks of 64 bytes and digests of 32 bytes, which is a parameter.

* `hmac`: the code of RFC 2104.
* `extract`, `expand`: the two steps of RFC 5869.
-/

namespace Rfc5869

open Foundation

variable (hash : Bytes → Block 32)

/-- The key, hashed if it is longer than a block, with zeros up to the length of a block. -/
def paddedKey (key : Bytes) : Bytes :=
  let k := if key.length > 64 then (hash key).val else key
  k ++ List.replicate (64 - k.length) 0

def ipad : Bytes := List.replicate 64 0x36
def opad : Bytes := List.replicate 64 0x5c

def hmac (key text : Bytes) : Block 32 :=
  hash (xorBytes (paddedKey hash key) opad
    ++ (hash (xorBytes (paddedKey hash key) ipad ++ text)).val)

/-- A salt that is not provided is a string of 32 zeros. -/
def extract (salt : Option Bytes) (ikm : Bytes) : Block 32 :=
  hmac hash (salt.getD (List.replicate 32 0)) ikm

/-- The strings `T(i)`. -/
def t (prk info : Bytes) : Nat → Bytes
  | 0 => []
  | i + 1 => (hmac hash prk (t prk info i ++ info ++ [UInt8.ofNat (i + 1)])).val

/-- The first `length` octets of `T(1)`, `T(2)` and so on. -/
def expand (prk info : Bytes) (length : Nat) : Bytes :=
  ((List.range ((length + 31) / 32)).flatMap fun i => t hash prk info (i + 1)).take length

end Rfc5869
