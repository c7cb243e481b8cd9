import Mathlib.Data.List.Basic
import Mathlib.Data.List.Induction
import Mathlib.Tactic.Ring

/-!
# Byte strings

Byte strings are lists of `UInt8`, and a C array parameter of a fixed length is a
`Block`. Frames and records are concatenations of fields, so the facts used about
them are how `slice` reads a field back from a concatenation, and how a number is
read back from its big-endian bytes.

* `slice_append_right`, `slice_append_left`: a slice of a concatenation.
* `beNat_beBytes`, `beBytes_beNat`: the big-endian encoding and its inverse.
* `xorBytes_cancel`: masking twice with one mask gives the original string.
-/

namespace Foundation

abbrev Bytes := List UInt8

/-- A byte string of a fixed length. -/
abbrev Block (n : Nat) := { b : Bytes // b.length = n }

@[simp] theorem Block.length_val {n : Nat} (b : Block n) : b.val.length = n := b.property

theorem Block.ext {n : Nat} {a b : Block n} (h : a.val = b.val) : a = b := Subtype.ext h

/-- The block in which every byte is `x`. -/
def Block.replicate (n : Nat) (x : UInt8) : Block n := ⟨List.replicate n x, List.length_replicate⟩

/-- The first `n` bytes of a block. -/
def Block.first {m : Nat} (b : Block m) (n : Nat) (h : n ≤ m) : Block n :=
  ⟨b.val.take n, by simp [h]⟩

/-- The all-zero block, as left by a `memset` to zero. -/
def Block.zero (n : Nat) : Block n := ⟨List.replicate n 0, List.length_replicate⟩

/-- The bytes of an ASCII text, without a terminating zero. -/
def ascii (s : String) : Bytes := s.toList.map fun c => UInt8.ofNat c.toNat

/-! ## Slices -/

/-- The `len` bytes of `b` from position `start`. -/
def slice (b : Bytes) (start len : Nat) : Bytes := (b.drop start).take len

@[simp] theorem length_slice (b : Bytes) (start len : Nat) :
    (slice b start len).length = min len (b.length - start) := by
  simp [slice]

theorem slice_append_right {a b : Bytes} {start : Nat} (h : a.length ≤ start) (len : Nat) :
    slice (a ++ b) start len = slice b (start - a.length) len := by
  simp [slice, List.drop_append, List.drop_of_length_le h]

theorem slice_append_left {a b : Bytes} {start len : Nat} (h : start + len ≤ a.length) :
    slice (a ++ b) start len = slice a start len := by
  have hd : start - a.length = 0 := by omega
  have ht : len ≤ (a.drop start).length := by simp; omega
  simp [slice, List.drop_append, hd, List.take_append_of_le_length ht]

theorem slice_self (a : Bytes) {n : Nat} (h : a.length = n) : slice a 0 n = a := by
  simp [slice, ← h]

theorem slice_self_append {a b : Bytes} {n : Nat} (h : a.length = n) : slice (a ++ b) 0 n = a := by
  rw [slice_append_left (by omega), slice_self a h]

/-- The last field of a concatenation. -/
theorem slice_last {a b : Bytes} {start len : Nat} (ha : a.length = start) (hb : b.length = len) :
    slice (a ++ b) start len = b := by
  rw [slice_append_right ha.le, ha, Nat.sub_self, slice_self b hb]

/-- A field of a concatenation, given what stands before it. -/
theorem slice_field {a b c : Bytes} {start len : Nat} (ha : a.length = start)
    (hb : b.length = len) : slice (a ++ b ++ c) start len = b := by
  rw [slice_append_left (by rw [List.length_append]; omega), slice_last ha hb]

theorem slice_append_slice (b : Bytes) (start m n : Nat) :
    slice b start m ++ slice b (start + m) n = slice b start (m + n) := by
  simp [slice, List.take_add, List.drop_drop]

theorem slice_slice (b : Bytes) (outer : Nat) {start len n : Nat} (h : start + len ≤ n) :
    slice (slice b outer n) start len = slice b (outer + start) len := by
  rw [slice, slice, slice, List.drop_take, List.take_take, List.drop_drop, Nat.min_eq_left]
  omega

/-- A byte string of three fields is the concatenation of their slices. -/
theorem slice_three {b : Bytes} {m n k : Nat} (h : b.length = m + n + k) :
    slice b 0 m ++ slice b m n ++ slice b (m + n) k = b := by
  have hmn := slice_append_slice b 0 m n
  have hall := slice_append_slice b 0 (m + n) k
  simp only [Nat.zero_add] at hmn hall
  rw [hmn, hall, slice_self b h]

/-- A part of a concatenation of parts of one length, and of what follows. -/
theorem slice_flatten {parts : List Bytes} {n : Nat} (hparts : ∀ part ∈ parts, part.length = n)
    (rest : Bytes) {i : Nat} (hi : i < parts.length) :
    slice (parts.flatten ++ rest) (n * i) n = parts[i] := by
  induction parts generalizing i with
  | nil => simp at hi
  | cons part parts ih =>
    have hlength := hparts part List.mem_cons_self
    rw [List.flatten_cons, List.append_assoc]
    cases i with
    | zero => exact slice_self_append hlength
    | succ i =>
      have hnext := ih (fun other hmem => hparts other (List.mem_cons_of_mem _ hmem))
        (Nat.lt_of_succ_lt_succ hi)
      rw [slice_append_right (by rw [hlength, Nat.mul_succ]; omega), hlength, Nat.mul_succ,
        Nat.add_sub_cancel]
      exact hnext

theorem length_flatten {parts : List Bytes} {n : Nat} (hparts : ∀ part ∈ parts, part.length = n) :
    parts.flatten.length = n * parts.length := by
  induction parts with
  | nil => rfl
  | cons part parts ih =>
    rw [List.flatten_cons, List.length_append, hparts part List.mem_cons_self,
      ih fun other hmem => hparts other (List.mem_cons_of_mem _ hmem), List.length_cons]
    ring

/-- Byte strings of whole parts are equal when their parts are. -/
theorem eq_of_slices {a b : Bytes} {n count : Nat} (ha : a.length = n * count)
    (hb : b.length = n * count) (h : ∀ j < count, slice a (n * j) n = slice b (n * j) n) :
    a = b := by
  have hprefix : ∀ j ≤ count, slice a 0 (n * j) = slice b 0 (n * j) := by
    intro j hj
    induction j with
    | zero => rfl
    | succ j ih =>
      have hleft := slice_append_slice a 0 (n * j) n
      have hright := slice_append_slice b 0 (n * j) n
      rw [Nat.zero_add] at hleft hright
      rw [Nat.mul_succ, ← hleft, ← hright, ih (by omega), h j (by omega)]
  have hall := hprefix count (Nat.le_refl count)
  rwa [slice_self a ha, slice_self b hb] at hall

/-- A slice of a byte string that is long enough, as a block. -/
def blockAt (b : Bytes) (start len : Nat) (h : start + len ≤ b.length) : Block len :=
  ⟨slice b start len, by simp; omega⟩

/-! ## Single bytes -/

/-- A byte of a buffer; bytes past its end read as zero. -/
def byteAt (b : Bytes) (i : Nat) : UInt8 := b.getD i 0

theorem byteAt_append_left {a b : Bytes} {i : Nat} (h : i < a.length) :
    byteAt (a ++ b) i = byteAt a i := by
  simp [byteAt, List.getElem?_append_left h]

theorem byteAt_append_right {a b : Bytes} {i : Nat} (h : a.length ≤ i) :
    byteAt (a ++ b) i = byteAt b (i - a.length) := by
  simp [byteAt, List.getElem?_append_right h]

/-! ## Big-endian numbers -/

/-- The number a big-endian byte string encodes. -/
def beNat (b : Bytes) : Nat := b.foldl (fun v x => v * 256 + x.toNat) 0

/-- The low `n` bytes of `v`, most significant first. -/
def beBytes : Nat → Nat → Bytes
  | 0, _ => []
  | n + 1, v => beBytes n (v / 256) ++ [UInt8.ofNat v]

@[simp] theorem length_beBytes (n v : Nat) : (beBytes n v).length = n := by
  induction n generalizing v with
  | zero => rfl
  | succ n ih => simp [beBytes, ih]

theorem beNat_append_singleton (b : Bytes) (x : UInt8) :
    beNat (b ++ [x]) = beNat b * 256 + x.toNat := by
  simp [beNat]

theorem beNat_beBytes (n v : Nat) : beNat (beBytes n v) = v % 256 ^ n := by
  induction n generalizing v with
  | zero => simp [beBytes, beNat, Nat.mod_one]
  | succ n ih =>
    have hx : (UInt8.ofNat v).toNat = v % 256 := UInt8.toNat_ofNat'
    rw [beBytes, beNat_append_singleton, ih, hx, Nat.pow_succ, Nat.mul_comm (256 ^ n),
      Nat.mod_mul]
    omega

theorem beNat_beBytes_of_lt {n v : Nat} (h : v < 256 ^ n) : beNat (beBytes n v) = v := by
  rw [beNat_beBytes, Nat.mod_eq_of_lt h]

theorem beNat_lt (b : Bytes) : beNat b < 256 ^ b.length := by
  induction b using List.reverseRecOn with
  | nil => simp [beNat]
  | append_singleton b x ih =>
    have hx := x.toNat_lt
    rw [beNat_append_singleton, List.length_append, List.length_singleton, pow_succ]
    omega

theorem beBytes_beNat (b : Bytes) : beBytes b.length (beNat b) = b := by
  induction b using List.reverseRecOn with
  | nil => rfl
  | append_singleton b x ih =>
    have hx := x.toNat_lt
    have hq : (beNat b * 256 + x.toNat) / 256 = beNat b := by omega
    have hr : UInt8.ofNat (beNat b * 256 + x.toNat) = x := by
      apply UInt8.toNat_inj.mp
      rw [UInt8.toNat_ofNat']
      omega
    rw [List.length_append, List.length_singleton, beNat_append_singleton, beBytes, hq, hr, ih]

theorem beNat_append (a b : Bytes) : beNat (a ++ b) = beNat a * 256 ^ b.length + beNat b := by
  induction b using List.reverseRecOn with
  | nil => simp [beNat]
  | append_singleton b x ih =>
    rw [← List.append_assoc, beNat_append_singleton, ih, beNat_append_singleton,
      List.length_append, List.length_singleton, Nat.pow_succ]
    ring

theorem beNat_take (b : Bytes) (n : Nat) :
    beNat (b.take n) = beNat b / 256 ^ (b.length - n) := by
  have hsplit := beNat_append (b.take n) (b.drop n)
  have hlt := beNat_lt (b.drop n)
  rw [List.take_append_drop, List.length_drop] at hsplit
  rw [List.length_drop] at hlt
  rw [hsplit, Nat.mul_comm, Nat.mul_add_div (Nat.pow_pos (by decide)), Nat.div_eq_of_lt hlt,
    Nat.add_zero]

theorem beNat_drop (b : Bytes) (n : Nat) :
    beNat (b.drop n) = beNat b % 256 ^ (b.length - n) := by
  have hsplit := beNat_append (b.take n) (b.drop n)
  have hlt := beNat_lt (b.drop n)
  rw [List.take_append_drop, List.length_drop] at hsplit
  rw [List.length_drop] at hlt
  rw [hsplit, Nat.mul_comm, Nat.mul_add_mod, Nat.mod_eq_of_lt hlt]

theorem beNat_slice {b : Bytes} {start len : Nat} (h : start + len ≤ b.length) :
    beNat (slice b start len) = beNat b / 256 ^ (b.length - (start + len)) % 256 ^ len := by
  have hlength : b.length - start - len = b.length - (start + len) := by omega
  have hpow : 256 ^ (b.length - start) = 256 ^ (b.length - (start + len)) * 256 ^ len := by
    rw [← Nat.pow_add]
    congr 1
    omega
  rw [slice, beNat_take, List.length_drop, beNat_drop, hlength,
    hpow, Nat.mod_mul_right_div_self]

theorem toNat_byteAt {b : Bytes} {i : Nat} (h : i < b.length) :
    (byteAt b i).toNat = beNat b / 256 ^ (b.length - (i + 1)) % 256 := by
  have hbyte : slice b i 1 = [byteAt b i] := by
    rw [slice, List.drop_eq_getElem_cons h, byteAt, List.getD_eq_getElem?_getD,
      List.getElem?_eq_getElem h]
    rfl
  have hslice := beNat_slice (show i + 1 ≤ b.length from h)
  rw [hbyte, pow_one] at hslice
  rw [← hslice]
  simp [beNat]

theorem beBytes_add (m n v : Nat) : beBytes (m + n) v = beBytes m (v / 256 ^ n) ++ beBytes n v := by
  induction n generalizing v with
  | zero => simp [beBytes]
  | succ n ih =>
    rw [← Nat.add_assoc, beBytes, ih, beBytes, Nat.div_div_eq_div_mul, ← Nat.pow_succ',
      List.append_assoc]

theorem beNat_inj {a b : Bytes} (hl : a.length = b.length) (h : beNat a = beNat b) : a = b := by
  rw [← beBytes_beNat a, ← beBytes_beNat b, hl, h]

/-! ## Masks -/

/-- Bytewise exclusive or; the shorter string is not extended. -/
def xorBytes (a b : Bytes) : Bytes := List.zipWith (· ^^^ ·) a b

@[simp] theorem length_xorBytes (a b : Bytes) :
    (xorBytes a b).length = min a.length b.length := by
  simp [xorBytes]

theorem xorBytes_comm (a b : Bytes) : xorBytes a b = xorBytes b a :=
  List.zipWith_comm_of_comm UInt8.xor_comm

theorem xorBytes_cancel {a b : Bytes} (h : b.length ≤ a.length) :
    xorBytes a (xorBytes a b) = b := by
  induction b generalizing a with
  | nil => simp [xorBytes]
  | cons y b ih =>
    cases a with
    | nil => simp at h
    | cons x a =>
      have hrest : xorBytes a (xorBytes a b) = b := ih (by simpa using h)
      have hxy : x ^^^ (x ^^^ y) = y := by
        rw [← UInt8.xor_assoc, UInt8.xor_self, UInt8.zero_xor]
      simp only [xorBytes, List.zipWith_cons_cons] at hrest ⊢
      rw [hrest, hxy]

theorem xorBytes_inj {a b c : Bytes} (hb : b.length ≤ a.length) (hc : c.length ≤ a.length)
    (h : xorBytes a b = xorBytes a c) : b = c := by
  rw [← xorBytes_cancel hb, ← xorBytes_cancel hc, h]

end Foundation
