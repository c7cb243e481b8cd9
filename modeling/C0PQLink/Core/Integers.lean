import C0PQLink.Core.Common

/-!
# Big-endian integers

The integer codecs of `session/crypto.c`. `npq_store_u32_be` and `npq_load_u32_be` of the
NanoPQ firmware have the same bodies as the 32-bit ones.

* `load32BE_store32BE`, `store32BE_load32BE` and their 16-bit and 64-bit siblings: the
  codecs are inverse to each other.
-/

namespace C0PQLink

open Foundation

def store16BE (value : UInt16) : Bytes := [(value >>> 8).toUInt8, value.toUInt8]

def store32BE (value : UInt32) : Bytes :=
  [(value >>> 24).toUInt8, (value >>> 16).toUInt8, (value >>> 8).toUInt8, value.toUInt8]

/-- `c0pq_store64_be` fills the output from its last byte. -/
def store64BE (value : UInt64) : Bytes :=
  ((List.range 8).foldl (fun (p : Bytes × UInt64) _ => (p.2.toUInt8 :: p.1, p.2 >>> 8))
    ([], value)).1

def load16BE (input : Bytes) : UInt16 :=
  ((byteAt input 0).toUInt16 <<< 8) ||| (byteAt input 1).toUInt16

def load32BE (input : Bytes) : UInt32 :=
  ((byteAt input 0).toUInt32 <<< 24) ||| ((byteAt input 1).toUInt32 <<< 16)
    ||| ((byteAt input 2).toUInt32 <<< 8) ||| (byteAt input 3).toUInt32

def load64BE (input : Bytes) : UInt64 :=
  (List.range 8).foldl (fun value i => (value <<< 8) ||| (byteAt input i).toUInt64) 0

theorem store16BE_eq (value : UInt16) : store16BE value = beBytes 2 value.toNat := by
  simp [store16BE, beBytes, ← UInt8.toNat_inj, Nat.shiftRight_eq_div_pow]

theorem store32BE_eq (value : UInt32) : store32BE value = beBytes 4 value.toNat := by
  simp [store32BE, beBytes, ← UInt8.toNat_inj, Nat.shiftRight_eq_div_pow, Nat.div_div_eq_div_mul]

theorem store64BE_eq (value : UInt64) : store64BE value = beBytes 8 value.toNat := by
  simp [store64BE, beBytes, List.range, List.range.loop, ← UInt8.toNat_inj,
    Nat.shiftRight_eq_div_pow, Nat.div_div_eq_div_mul]

theorem or_eq_add_of_lt {x y k : Nat} (h : y < 2 ^ k) : x * 2 ^ k ||| y = x * 2 ^ k + y := by
  rw [Nat.mul_comm x, Nat.two_pow_add_eq_or_of_lt h]

theorem toNat_load16BE {input : Bytes} (h : input.length = 2) :
    (load16BE input).toNat = beNat input := by
  obtain ⟨a, b, rfl⟩ := List.length_eq_two.mp h
  have ha := a.toNat_lt
  have hb := b.toNat_lt
  have hor := or_eq_add_of_lt (x := a.toNat) (k := 8) hb
  simp only [load16BE, byteAt, List.getD_cons_zero, List.getD_cons_succ, UInt16.toNat_or,
    UInt16.toNat_shiftLeft, UInt8.toNat_toUInt16, beNat, List.foldl_cons, List.foldl_nil,
    Nat.shiftLeft_eq]
  have hs : a.toNat * 2 ^ (UInt16.toNat 8 % 16) % 2 ^ 16 = a.toNat * 2 ^ 8 := by
    simp; omega
  rw [hs, hor]
  omega

theorem toNat_load32BE {input : Bytes} (h : input.length = 4) :
    (load32BE input).toNat = beNat input := by
  obtain ⟨a, b, c, d, rfl⟩ : ∃ a b c d, input = [a, b, c, d] := by
    match input, h with
    | [a, b, c, d], _ => exact ⟨a, b, c, d, rfl⟩
  have ha := a.toNat_lt
  have hb := b.toNat_lt
  have hc := c.toNat_lt
  have hd := d.toNat_lt
  have hab : a.toNat * 2 ^ 24 ||| b.toNat * 2 ^ 16 = (a.toNat * 256 + b.toNat) * 2 ^ 16 := by
    rw [or_eq_add_of_lt (by omega)]
    omega
  have habc : (a.toNat * 256 + b.toNat) * 2 ^ 16 ||| c.toNat * 2 ^ 8
      = ((a.toNat * 256 + b.toNat) * 256 + c.toNat) * 2 ^ 8 := by
    rw [or_eq_add_of_lt (by omega)]
    omega
  have hd' : ((a.toNat * 256 + b.toNat) * 256 + c.toNat) * 2 ^ 8 ||| d.toNat
      = ((a.toNat * 256 + b.toNat) * 256 + c.toNat) * 2 ^ 8 + d.toNat := or_eq_add_of_lt hd
  have hs24 : a.toNat * 2 ^ 24 % 2 ^ 32 = a.toNat * 2 ^ 24 :=
    Nat.mod_eq_of_lt (by omega)
  have hs16 : b.toNat * 2 ^ 16 % 2 ^ 32 = b.toNat * 2 ^ 16 :=
    Nat.mod_eq_of_lt (by omega)
  have hs8 : c.toNat * 2 ^ 8 % 2 ^ 32 = c.toNat * 2 ^ 8 :=
    Nat.mod_eq_of_lt (by omega)
  have hshift : (load32BE [a, b, c, d]).toNat = a.toNat * 2 ^ 24 % 2 ^ 32
      ||| b.toNat * 2 ^ 16 % 2 ^ 32 ||| c.toNat * 2 ^ 8 % 2 ^ 32 ||| d.toNat := by
    simp [load32BE, byteAt, Nat.shiftLeft_eq]
  rw [hshift, hs24, hs16, hs8, hab, habc, hd']
  simp only [beNat, List.foldl_cons, List.foldl_nil]
  omega

theorem toUInt64_or_byte (v : UInt64) (x : UInt8) :
    ((v <<< 8) ||| x.toUInt64).toNat = (v.toNat * 256 + x.toNat) % 2 ^ 64 := by
  have hx := x.toNat_lt
  have hor := or_eq_add_of_lt (x := v.toNat * 256 % 2 ^ 64 / 256) (k := 8) hx
  simp only [UInt64.toNat_or, UInt64.toNat_shiftLeft, UInt8.toNat_toUInt64, Nat.shiftLeft_eq]
  have hs : v.toNat * 2 ^ (UInt64.toNat 8 % 64) % 2 ^ 64
      = v.toNat * 256 % 2 ^ 64 / 256 * 2 ^ 8 := by
    simp; omega
  rw [hs, hor]
  omega

theorem toNat_foldl_bytes (b : Bytes) (v : UInt64) :
    (b.foldl (fun (value : UInt64) x => (value <<< 8) ||| x.toUInt64) v).toNat
      = b.foldl (fun value x => value * 256 + x.toNat) v.toNat % 2 ^ 64 := by
  have hmod : ∀ (b : Bytes) (m n : Nat), m % 2 ^ 64 = n % 2 ^ 64 →
      b.foldl (fun value x => value * 256 + x.toNat) m % 2 ^ 64
        = b.foldl (fun value x => value * 256 + x.toNat) n % 2 ^ 64 := by
    intro b
    induction b with
    | nil => exact fun _ _ h => h
    | cons x b ih =>
      intro m n h
      simp only [List.foldl_cons]
      exact ih _ _ (by omega)
  induction b generalizing v with
  | nil =>
    have := v.toNat_lt
    simp only [List.foldl_nil]
    omega
  | cons x b ih =>
    simp only [List.foldl_cons]
    rw [ih, toUInt64_or_byte]
    exact hmod b _ _ (Nat.mod_mod _ _)

theorem toNat_load64BE {input : Bytes} (h : input.length = 8) :
    (load64BE input).toNat = beNat input := by
  have hfold : load64BE input
      = input.foldl (fun (value : UInt64) x => (value <<< 8) ||| x.toUInt64) 0 := by
    match input, h with
    | [_, _, _, _, _, _, _, _], _ => rfl
  have hlt := beNat_lt input
  rw [hfold, toNat_foldl_bytes]
  exact Nat.mod_eq_of_lt (by rw [h] at hlt; exact hlt)

theorem load16BE_store16BE (value : UInt16) : load16BE (store16BE value) = value := by
  apply UInt16.toNat_inj.mp
  rw [store16BE_eq, toNat_load16BE (length_beBytes _ _), beNat_beBytes_of_lt value.toNat_lt]

theorem load32BE_store32BE (value : UInt32) : load32BE (store32BE value) = value := by
  apply UInt32.toNat_inj.mp
  rw [store32BE_eq, toNat_load32BE (length_beBytes _ _), beNat_beBytes_of_lt value.toNat_lt]

theorem load64BE_store64BE (value : UInt64) : load64BE (store64BE value) = value := by
  apply UInt64.toNat_inj.mp
  rw [store64BE_eq, toNat_load64BE (length_beBytes _ _), beNat_beBytes_of_lt value.toNat_lt]

theorem store16BE_injective : Function.Injective store16BE :=
  Function.LeftInverse.injective load16BE_store16BE

theorem store32BE_injective : Function.Injective store32BE :=
  Function.LeftInverse.injective load32BE_store32BE

theorem store64BE_injective : Function.Injective store64BE :=
  Function.LeftInverse.injective load64BE_store64BE

theorem store16BE_load16BE {input : Bytes} (h : input.length = 2) :
    store16BE (load16BE input) = input := by
  rw [store16BE_eq, toNat_load16BE h, ← h, beBytes_beNat]

theorem store32BE_load32BE {input : Bytes} (h : input.length = 4) :
    store32BE (load32BE input) = input := by
  rw [store32BE_eq, toNat_load32BE h, ← h, beBytes_beNat]

theorem store64BE_load64BE {input : Bytes} (h : input.length = 8) :
    store64BE (load64BE input) = input := by
  rw [store64BE_eq, toNat_load64BE h, ← h, beBytes_beNat]

@[simp] theorem length_store16BE (value : UInt16) : (store16BE value).length = 2 := rfl

@[simp] theorem length_store32BE (value : UInt32) : (store32BE value).length = 4 := rfl

@[simp] theorem length_store64BE (value : UInt64) : (store64BE value).length = 8 := rfl

end C0PQLink
