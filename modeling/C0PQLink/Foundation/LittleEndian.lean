import C0PQLink.Foundation.Bytes

/-!
# Little-endian words

A 64-bit word is loaded from at most 8 bytes, stored to at most 8 bytes, and its low
bytes are cleared, as in byte-oriented ciphers that work on words. Each operation is
written with shifts and masks; its meaning is stated with the number `leNat` of a
little-endian byte string.

* `toNat_loadLittleEndian`, `storeLittleEndian_eq`, `toNat_clearLowBytes`: the meaning.
* `store_xor_cancel`, `clear_or_load`: masking a partial word and masking it back.
-/

namespace Foundation

/-! ## Little-endian numbers -/

/-- The number a little-endian byte string encodes. -/
def leNat : Bytes → Nat
  | [] => 0
  | x :: b => x.toNat + 256 * leNat b

/-- The low `n` bytes of `v`, least significant first. -/
def leBytes : Nat → Nat → Bytes
  | 0, _ => []
  | n + 1, v => UInt8.ofNat v :: leBytes n (v / 256)

@[simp] theorem length_leBytes (n v : Nat) : (leBytes n v).length = n := by
  induction n generalizing v with
  | zero => rfl
  | succ n ih => simp [leBytes, ih]

theorem leNat_leBytes (n v : Nat) : leNat (leBytes n v) = v % 256 ^ n := by
  induction n generalizing v with
  | zero => simp [leBytes, leNat, Nat.mod_one]
  | succ n ih =>
    have hx : (UInt8.ofNat v).toNat = v % 256 := UInt8.toNat_ofNat'
    rw [leBytes, leNat, ih, hx, Nat.pow_succ, Nat.mul_comm (256 ^ n), Nat.mod_mul]

theorem leNat_lt (b : Bytes) : leNat b < 256 ^ b.length := by
  induction b with
  | nil => simp [leNat]
  | cons x b ih =>
    have hx := x.toNat_lt
    rw [leNat, List.length_cons, pow_succ]
    omega

theorem leBytes_leNat (b : Bytes) : leBytes b.length (leNat b) = b := by
  induction b with
  | nil => rfl
  | cons x b ih =>
    have hx := x.toNat_lt
    have hq : (x.toNat + 256 * leNat b) / 256 = leNat b := by omega
    have hr : UInt8.ofNat (x.toNat + 256 * leNat b) = x := by
      apply UInt8.toNat_inj.mp
      rw [UInt8.toNat_ofNat']
      omega
    rw [List.length_cons, leNat, leBytes, hq, hr, ih]

theorem leNat_append (a b : Bytes) : leNat (a ++ b) = leNat a + 256 ^ a.length * leNat b := by
  induction a with
  | nil => simp [leNat]
  | cons x a ih =>
    rw [List.cons_append, leNat, leNat, ih, List.length_cons, pow_succ]
    ring

theorem xor_div_256 (x y : Nat) : (x ^^^ y) / 256 = x / 256 ^^^ y / 256 := by
  have h : (256 : Nat) = 2 ^ 8 := rfl
  rw [h, ← Nat.shiftRight_eq_div_pow, ← Nat.shiftRight_eq_div_pow, ← Nat.shiftRight_eq_div_pow,
    Nat.shiftRight_xor_distrib]

theorem leBytes_xor (n x y : Nat) :
    leBytes n (x ^^^ y) = xorBytes (leBytes n x) (leBytes n y) := by
  induction n generalizing x y with
  | zero => rfl
  | succ n ih =>
    have hhead : UInt8.ofNat (x ^^^ y) = UInt8.ofNat x ^^^ UInt8.ofNat y := by
      apply UInt8.toNat_inj.mp
      rw [UInt8.toNat_xor, UInt8.toNat_ofNat', UInt8.toNat_ofNat', UInt8.toNat_ofNat']
      exact Nat.xor_mod_two_pow
    rw [leBytes, xor_div_256, ih, hhead]
    rfl

/-- Masking a number with a short byte string changes its low bytes only. -/
theorem xor_leNat (x : Nat) (b : Bytes) :
    x ^^^ leNat b = x / 256 ^ b.length * 256 ^ b.length + (x ^^^ leNat b) % 256 ^ b.length := by
  have hpow : (256 : Nat) ^ b.length = 2 ^ (8 * b.length) := by
    rw [show (256 : Nat) = 2 ^ 8 from rfl, ← pow_mul]
  have hzero : leNat b / 256 ^ b.length = 0 := Nat.div_eq_of_lt (leNat_lt b)
  have hdiv : (x ^^^ leNat b) / 256 ^ b.length = x / 256 ^ b.length := by
    rw [hpow, ← Nat.shiftRight_eq_div_pow, Nat.shiftRight_xor_distrib,
      Nat.shiftRight_eq_div_pow, Nat.shiftRight_eq_div_pow, ← hpow, hzero, Nat.xor_zero]
  have hmod := Nat.div_add_mod (x ^^^ leNat b) (256 ^ b.length)
  rw [hdiv] at hmod
  rw [Nat.mul_comm]
  exact hmod.symm

/-! ## Words -/

/-- The word in the first `length` bytes, the first one least significant. -/
def loadLittleEndian (bytes : Bytes) (length : Nat) : UInt64 :=
  (List.range length).foldl
    (fun value i => value ||| (byteAt bytes i).toUInt64 <<< UInt64.ofNat (8 * i)) 0

/-- The low `length` bytes of a word, the least significant one first. -/
def storeLittleEndian (value : UInt64) (length : Nat) : Bytes :=
  (List.range length).map fun i => (value >>> UInt64.ofNat (8 * i)).toUInt8

def clearLowBytes (value : UInt64) (length : Nat) : UInt64 :=
  (List.range length).foldl (fun v i => v &&& ~~~(0xff <<< UInt64.ofNat (8 * i))) value

@[simp] theorem length_storeLittleEndian (value : UInt64) (length : Nat) :
    (storeLittleEndian value length).length = length := by
  simp [storeLittleEndian]

theorem toNat_shift_amount {i : Nat} (h : i < 8) : (UInt64.ofNat (8 * i)).toNat % 64 = 8 * i := by
  rw [UInt64.toNat_ofNat']
  omega

theorem byteAt_take {b : Bytes} {i n : Nat} (h : i < n) : byteAt (b.take n) i = byteAt b i := by
  simp [byteAt, h]

theorem leNat_take_succ (b : Bytes) (n : Nat) :
    leNat (b.take (n + 1)) = leNat (b.take n) + 256 ^ n * (byteAt b n).toNat := by
  rcases Nat.lt_or_ge n b.length with hn | hn
  · have hbyte : byteAt b n = b[n] := by simp [byteAt, hn]
    rw [List.take_succ_eq_append_getElem hn, leNat_append, List.length_take, Nat.min_eq_left hn.le,
      hbyte]
    simp [leNat]
  · have hbyte : byteAt b n = 0 := by simp [byteAt, hn]
    rw [List.take_of_length_le hn, List.take_of_length_le (by omega), hbyte]
    simp

theorem pow_256 (n : Nat) : (256 : Nat) ^ n = 2 ^ (8 * n) := by
  rw [show (256 : Nat) = 2 ^ 8 from rfl, ← pow_mul]

theorem toNat_loadLittleEndian {bytes : Bytes} {length : Nat} (h : length ≤ 8) :
    (loadLittleEndian bytes length).toNat = leNat (bytes.take length) := by
  induction length with
  | zero => rfl
  | succ n ih =>
    have hn : n < 8 := h
    have hlow := leNat_lt (bytes.take n)
    have hlow' : leNat (bytes.take n) < 2 ^ (8 * n) := by
      refine lt_of_lt_of_le hlow ?_
      rw [pow_256]
      exact Nat.pow_le_pow_right (by omega) (by simp)
    have hbyte := (byteAt bytes n).toNat_lt
    have hshift : (byteAt bytes n).toNat <<< (8 * n) < 2 ^ 64 := by
      rw [Nat.shiftLeft_eq]
      calc (byteAt bytes n).toNat * 2 ^ (8 * n) < 2 ^ 8 * 2 ^ (8 * n) :=
            Nat.mul_lt_mul_of_pos_right hbyte (Nat.two_pow_pos _)
        _ = 2 ^ (8 + 8 * n) := by rw [← pow_add]
        _ ≤ 2 ^ 64 := Nat.pow_le_pow_right (by omega) (by omega)
    rw [loadLittleEndian, List.range_succ, List.foldl_append, List.foldl_cons, List.foldl_nil,
      UInt64.toNat_or, UInt64.toNat_shiftLeft, toNat_shift_amount hn]
    rw [show (List.foldl _ 0 (List.range n)) = loadLittleEndian bytes n from rfl, ih hn.le,
      leNat_take_succ, UInt8.toNat_toUInt64, Nat.mod_eq_of_lt hshift, Nat.shiftLeft_eq,
      Nat.or_comm, Nat.mul_comm, ← Nat.two_pow_add_eq_or_of_lt hlow', pow_256]
    omega

theorem storeLittleEndian_eq {value : UInt64} {length : Nat} (h : length ≤ 8) :
    storeLittleEndian value length = leBytes length value.toNat := by
  have hbyte : ∀ i < length, (value >>> UInt64.ofNat (8 * i)).toUInt8
      = UInt8.ofNat (value.toNat / 256 ^ i) := by
    intro i hi
    apply UInt8.toNat_inj.mp
    rw [UInt64.toNat_toUInt8, UInt64.toNat_shiftRight, toNat_shift_amount (by omega),
      Nat.shiftRight_eq_div_pow, UInt8.toNat_ofNat', pow_256]
  have hbytes : ∀ n v, (List.range n).map (fun i => UInt8.ofNat (v / 256 ^ i)) = leBytes n v := by
    intro n
    induction n with
    | zero => intro v; rfl
    | succ n ih =>
      intro v
      rw [List.range_succ_eq_map, List.map_cons, List.map_map, leBytes, ← ih (v / 256)]
      simp [Function.comp_def, Nat.div_div_eq_div_mul, pow_succ, Nat.mul_comm]
  rw [← hbytes, storeLittleEndian]
  refine List.map_congr_left fun i hi => hbyte i (List.mem_range.mp hi)

theorem shiftLeft_shiftRight (x k : Nat) : x / 2 ^ k * 2 ^ k = (x >>> k) <<< k := by
  rw [Nat.shiftRight_eq_div_pow, Nat.shiftLeft_eq]

theorem toNat_clearLowBytes {value : UInt64} {length : Nat} (h : length ≤ 8) :
    (clearLowBytes value length).toNat = value.toNat / 256 ^ length * 256 ^ length := by
  induction length with
  | zero => simp [clearLowBytes]
  | succ n ih =>
    have hn : n < 8 := h
    rw [clearLowBytes, List.range_succ, List.foldl_append, List.foldl_cons, List.foldl_nil,
      show (List.foldl _ value (List.range n)) = clearLowBytes value n from rfl,
      UInt64.toNat_and, UInt64.toNat_not, UInt64.toNat_shiftLeft, toNat_shift_amount hn, ih hn.le,
      pow_256, pow_256, shiftLeft_shiftRight, shiftLeft_shiftRight]
    have hmask : UInt64.toNat 0xff <<< (8 * n) % 2 ^ 64 < 2 ^ 64 := Nat.mod_lt _ (by omega)
    have hsize : UInt64.size - 1 - UInt64.toNat 0xff <<< (8 * n) % 2 ^ 64
        = 2 ^ 64 - (UInt64.toNat 0xff <<< (8 * n) % 2 ^ 64 + 1) := by
      rw [Nat.sub_sub, Nat.add_comm]
      rfl
    have hff : UInt64.toNat 0xff = 2 ^ 8 - 1 := rfl
    apply Nat.eq_of_testBit_eq
    intro j
    rw [hsize, Nat.testBit_and, Nat.testBit_two_pow_sub_succ hmask]
    simp only [Nat.testBit_shiftLeft, Nat.testBit_shiftRight, Nat.testBit_mod_two_pow, hff,
      Nat.testBit_two_pow_sub_one]
    rcases Nat.lt_or_ge j 64 with hj | hj
    · by_cases h1 : 8 * n ≤ j <;> by_cases h2 : 8 * (n + 1) ≤ j
      · have h3 : ¬ j - 8 * n < 8 := by omega
        simp [h1, h2, h3, hj, show 8 * n + (j - 8 * n) = j by omega,
          show 8 * (n + 1) + (j - 8 * (n + 1)) = j by omega]
      · have h3 : j - 8 * n < 8 := by omega
        simp [h1, h2, h3, hj]
      · omega
      · simp [h1, h2]
    · have hv : value.toNat.testBit j = false :=
        Nat.testBit_lt_two_pow (lt_of_lt_of_le value.toNat_lt (Nat.pow_le_pow_right (by omega) hj))
      have h1 : 8 * (n + 1) ≤ j := by omega
      simp [Nat.not_lt.mpr hj, hv, show 8 * (n + 1) + (j - 8 * (n + 1)) = j by omega]

theorem loadLittleEndian_take (b : Bytes) (n : Nat) :
    loadLittleEndian (b.take n) n = loadLittleEndian b n := by
  unfold loadLittleEndian
  refine List.foldl_ext _ _ _ fun value i hi => ?_
  rw [byteAt_take (List.mem_range.mp hi)]

theorem loadLittleEndian_append {a : Bytes} {n : Nat} (b : Bytes) (h : a.length = n) :
    loadLittleEndian (a ++ b) n = loadLittleEndian a n := by
  rw [← loadLittleEndian_take, List.take_append_of_le_length h.ge, loadLittleEndian_take]

/-- A whole word is read back from its bytes. -/
theorem load_store (x : UInt64) : loadLittleEndian (storeLittleEndian x 8) 8 = x := by
  apply UInt64.toNat_inj.mp
  rw [toNat_loadLittleEndian (Nat.le_refl 8), List.take_of_length_le (by simp),
    storeLittleEndian_eq (Nat.le_refl 8), leNat_leBytes]
  exact Nat.mod_eq_of_lt x.toNat_lt

theorem store_load {b : Bytes} {n : Nat} (h : n ≤ 8) (hb : n ≤ b.length) :
    storeLittleEndian (loadLittleEndian b n) n = b.take n := by
  have hlen : (b.take n).length = n := by simp [hb]
  rw [storeLittleEndian_eq h, toNat_loadLittleEndian h]
  conv_lhs => rw [← hlen]
  rw [hlen]
  have := leBytes_leNat (b.take n)
  rwa [hlen] at this

/-! ## Partial blocks -/

variable (x : UInt64) {b : Bytes}

theorem toNat_xor_load (hb : b.length ≤ 8) :
    (x ^^^ loadLittleEndian b b.length).toNat = x.toNat ^^^ leNat b := by
  rw [UInt64.toNat_xor, toNat_loadLittleEndian hb, List.take_length]

theorem store_xor_load (hb : b.length ≤ 8) :
    storeLittleEndian (x ^^^ loadLittleEndian b b.length) b.length
      = xorBytes (leBytes b.length x.toNat) b := by
  rw [storeLittleEndian_eq hb, toNat_xor_load x hb, leBytes_xor, leBytes_leNat]

/-- Masking the masked bytes with the same word gives the bytes back. -/
theorem store_xor_cancel (hb : b.length ≤ 8) :
    storeLittleEndian (x ^^^ loadLittleEndian
      (storeLittleEndian (x ^^^ loadLittleEndian b b.length) b.length) b.length) b.length = b := by
  have h := store_xor_load x (show (storeLittleEndian (x ^^^ loadLittleEndian b b.length)
    b.length).length ≤ 8 by simpa using hb)
  rw [length_storeLittleEndian] at h
  rw [h, store_xor_load x hb, xorBytes_cancel (by simp)]

/-- Replacing the low bytes of a word by the masked bytes is the same as masking it. -/
theorem clear_or_load (hb : b.length ≤ 8) :
    clearLowBytes x b.length ||| loadLittleEndian
      (storeLittleEndian (x ^^^ loadLittleEndian b b.length) b.length) b.length
      = x ^^^ loadLittleEndian b b.length := by
  have hlow : (x.toNat ^^^ leNat b) % 2 ^ (8 * b.length) < 2 ^ (8 * b.length) :=
    Nat.mod_lt _ (Nat.two_pow_pos _)
  apply UInt64.toNat_inj.mp
  rw [UInt64.toNat_or, toNat_clearLowBytes hb, toNat_loadLittleEndian hb,
    List.take_of_length_le (by simp), storeLittleEndian_eq hb, leNat_leBytes, toNat_xor_load x hb,
    xor_leNat, pow_256, Nat.mul_comm, Nat.two_pow_add_eq_or_of_lt hlow]
  congr 1
  rw [← Nat.two_pow_add_eq_or_of_lt hlow, Nat.mul_comm, ← pow_256, ← xor_leNat, pow_256]

end Foundation
