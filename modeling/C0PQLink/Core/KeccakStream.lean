import C0PQLink.Core.KeccakPermutation
import C0PQLink.Foundation.LittleEndian
import C0PQLink.Foundation.Sponge

/-!
# The incremental Keccak sponge

The contexts of `core/keccak.c`. A byte goes into or out of the lane at the position, and the
permutation is applied as soon as a block is full.

* `KeccakAbsorbing.absorbByte`, `KeccakSqueezing.squeezeByte`: one byte more.
* `KeccakAbsorbing.finalize`: the padding in the last block.
* `KeccakAbsorbing.run`: the output of any sequence of calls.
-/

namespace C0PQLink

open Foundation

/-! ## Contexts -/

structure KeccakCtx where
  state : List UInt64
  rate : Nat
  position : Nat
  domain : UInt8
  squeezing : Bool
  deriving DecidableEq

def keccakInit (rate : Nat) (domain : UInt8) : KeccakCtx where
  state := List.replicate 25 0
  rate := rate
  position := 0
  domain := domain
  squeezing := false

def sha3_256Init : KeccakCtx := keccakInit 136 0x06
def sha3_512Init : KeccakCtx := keccakInit 72 0x06
def shake128Init : KeccakCtx := keccakInit 168 0x1f
def shake256Init : KeccakCtx := keccakInit 136 0x1f

/-- A byte added to the lane at a position. -/
def xorByte (state : List UInt64) (position : Nat) (byte : UInt8) : List UInt64 :=
  let lane := position >>> 3
  let shift := 8 * (position &&& 7)
  state.set lane (state.getD lane 0 ^^^ byte.toUInt64 <<< UInt64.ofNat shift)

/-- The position moves on, and the permutation is applied at the end of a block. -/
def KeccakCtx.step (ctx : KeccakCtx) : KeccakCtx :=
  let position := ctx.position + 1
  if position = ctx.rate then { ctx with state := keccakF1600 ctx.state, position := 0 }
  else { ctx with position }

def keccakAbsorb (ctx : KeccakCtx) (input : Bytes) : KeccakCtx :=
  if ctx.squeezing then ctx
  else input.foldl
    (fun ctx byte => { ctx with state := xorByte ctx.state ctx.position byte }.step) ctx

def keccakFinalize (ctx : KeccakCtx) : KeccakCtx :=
  if ctx.squeezing then ctx
  else
    let state := xorByte ctx.state ctx.position ctx.domain
    let state := xorByte state (ctx.rate - 1) 0x80
    { ctx with state := keccakF1600 state, position := 0, squeezing := true }

def squeezeByte (ctx : KeccakCtx) : UInt8 :=
  let lane := ctx.position >>> 3
  let shift := 8 * (ctx.position &&& 7)
  (ctx.state.getD lane 0 >>> UInt64.ofNat shift).toUInt8

/-- The loop of `c0_keccak_squeeze`. -/
def squeezeLoop (ctx : KeccakCtx) : Nat → Bytes × KeccakCtx
  | 0 => ([], ctx)
  | length + 1 =>
    let rest := squeezeLoop ctx.step length
    (squeezeByte ctx :: rest.1, rest.2)

def keccakSqueeze (ctx : KeccakCtx) (length : Nat) : Bytes × KeccakCtx :=
  let ctx := if ctx.squeezing then ctx else keccakFinalize ctx
  squeezeLoop ctx length

/-! ## The bytes of a state -/

def stateBytes (state : List UInt64) : Bytes := state.flatMap fun lane => storeLittleEndian lane 8

/-- The lanes of 200 bytes. -/
def lanesOf (b : Bytes) : List UInt64 :=
  (List.range 25).map fun i => loadLittleEndian (b.drop (8 * i)) 8

/-- The permutation on bytes. -/
def keccakBytes (b : Bytes) : Bytes := stateBytes (keccakF1600 (lanesOf b))

theorem length_store (lane : UInt64) : (storeLittleEndian lane 8).length = 8 :=
  length_storeLittleEndian lane 8

theorem length_stateBytes {state : List UInt64} (h : state.length = 25) :
    (stateBytes state).length = 200 := by
  rw [stateBytes, length_flatMap_encode length_store, h]

theorem lanesOf_stateBytes {state : List UInt64} (h : state.length = 25) :
    lanesOf (stateBytes state) = state := by
  refine List.ext_getElem (by simp [lanesOf, h]) fun i _ hi => ?_
  simp only [lanesOf, List.getElem_map, List.getElem_range, stateBytes]
  rw [drop_flatMap_encode length_store, List.drop_eq_getElem_cons hi, List.flatMap_cons,
    loadLittleEndian_append _ (length_store _), load_store]

theorem stateBytes_lanesOf {b : Bytes} (h : b.length = 200) : stateBytes (lanesOf b) = b := by
  have hblocks : b = (fullBlocks 8 b).flatten := by
    rw [flatten_fullBlocks, h, List.take_of_length_le (by rw [h])]
  conv_rhs => rw [hblocks]
  rw [stateBytes, lanesOf, fullBlocks, h, List.flatMap_map, ← List.flatMap_def]
  refine List.flatMap_congr fun i hi => ?_
  have hi : i < 25 := List.mem_range.mp hi
  rw [store_load (Nat.le_refl 8) (by rw [List.length_drop]; omega)]

theorem keccakBytes_stateBytes {state : List UInt64} (h : state.length = 25) :
    keccakBytes (stateBytes state) = stateBytes (keccakF1600 state) := by
  rw [keccakBytes, lanesOf_stateBytes h]

theorem keccakBytes_keepsWidth : KeepsWidth keccakBytes 200 := by
  intro b _
  refine length_stateBytes (keccakF1600_array ?_).1
  simp [lanesOf]

/-! ## One byte of a state -/

theorem shift_3 (n : Nat) : n >>> 3 = n / 8 := Nat.shiftRight_eq_div_pow n 3

theorem and_7 (n : Nat) : n &&& 7 = n % 8 := Nat.and_two_pow_sub_one_eq_mod n 3

theorem getD_store (lane : UInt64) {j : Nat} (hj : j < 8) :
    (storeLittleEndian lane 8).getD j 0 = (lane >>> UInt64.ofNat (8 * j)).toUInt8 := by
  rw [storeLittleEndian, List.getD_eq_getElem?_getD, List.getElem?_map, List.getElem?_range hj]
  rfl

/-- A byte at one place of a word, read at another or at the same place. -/
theorem shifted_byte (b : UInt8) {j k : Nat} (hj : j < 8) (hk : k < 8) :
    ((b.toUInt64 <<< UInt64.ofNat (8 * k)) >>> UInt64.ofNat (8 * j)).toUInt8
      = if k = j then b else 0 := by
  have hb : b.toNat < 2 ^ 8 := b.toNat_lt
  have hbits : (((b.toUInt64 <<< UInt64.ofNat (8 * k)) >>> UInt64.ofNat (8 * j)).toUInt8).toNat
      = if k = j then b.toNat else 0 := by
    rw [UInt64.toNat_toUInt8, UInt64.toNat_shiftRight, UInt64.toNat_shiftLeft,
      toNat_shift_amount hj, toNat_shift_amount hk, UInt8.toNat_toUInt64]
    apply Nat.eq_of_testBit_eq
    intro i
    rw [Nat.testBit_mod_two_pow, Nat.testBit_shiftRight, Nat.testBit_mod_two_pow,
      Nat.testBit_shiftLeft]
    have hhigh (n : Nat) (hn : 8 ≤ n) : b.toNat.testBit n = false :=
      Nat.testBit_lt_two_pow (lt_of_lt_of_le hb (Nat.pow_le_pow_right (by omega) hn))
    rcases Nat.lt_trichotomy k j with hlt | rfl | hgt
    · rw [if_neg (by omega), hhigh (8 * j + i - 8 * k) (by omega)]
      simp
    · rw [if_pos rfl, Nat.add_sub_cancel_left]
      by_cases hi : i < 8
      · simp [hi, show 8 * k + i < 64 by omega]
      · rw [hhigh i (by omega)]
        simp
    · rw [if_neg (by omega)]
      by_cases hi : i < 8
      · simp [show ¬ 8 * k ≤ 8 * j + i by omega]
      · simp [hi]
  apply UInt8.toNat_inj.mp
  rw [hbits]
  split <;> rfl

theorem byte_xor (lane : UInt64) (b : UInt8) {j k : Nat} (hj : j < 8) (hk : k < 8) :
    ((lane ^^^ b.toUInt64 <<< UInt64.ofNat (8 * k)) >>> UInt64.ofNat (8 * j)).toUInt8
      = (lane >>> UInt64.ofNat (8 * j)).toUInt8 ^^^ (if k = j then b else 0) := by
  rw [UInt64.shiftRight_xor, UInt64.toUInt8_xor, shifted_byte b hj hk]

theorem ext_getD {a b : Bytes} (hlength : a.length = b.length)
    (h : ∀ i < a.length, a.getD i 0 = b.getD i 0) : a = b := by
  refine List.ext_getElem hlength fun i hi hi' => ?_
  have hget := h i hi
  rwa [List.getD_eq_getElem _ _ hi, List.getD_eq_getElem _ _ hi'] at hget

theorem getD_modify {b : Bytes} (i : Nat) (f : UInt8 → UInt8) {j : Nat} (hj : j < b.length) :
    (b.modify i f).getD j 0 = if i = j then f (b.getD j 0) else b.getD j 0 := by
  rw [List.getD_eq_getElem?_getD, List.getElem?_modify, List.getD_eq_getElem?_getD,
    List.getElem?_eq_getElem hj]
  split <;> rfl

theorem stateBytes_getD {state : List UInt64} (h : state.length = 25) {i : Nat} (hi : i < 200) :
    (stateBytes state).getD i 0
      = (state.getD (i / 8) 0 >>> UInt64.ofNat (8 * (i % 8))).toUInt8 := by
  have hlt : i / 8 < state.length := by omega
  have hmod : i % 8 < 8 := Nat.mod_lt _ (by decide)
  have hget := getD_flatMap_encode length_store hlt hmod 0
  rw [Nat.div_add_mod] at hget
  rw [stateBytes, hget, getD_store _ hmod, List.getD_eq_getElem _ _ hlt]
  rfl

theorem squeezeByte_eq {ctx : KeccakCtx} (h : ctx.state.length = 25)
    (hposition : ctx.position < 200) :
    squeezeByte ctx = (stateBytes ctx.state).getD ctx.position 0 := by
  rw [stateBytes_getD h hposition, squeezeByte, shift_3, and_7]

theorem xorByte_eq {state : List UInt64} (h : state.length = 25) {position : Nat}
    (hposition : position < 200) (byte : UInt8) :
    (xorByte state position byte).length = 25
      ∧ stateBytes (xorByte state position byte)
        = (stateBytes state).modify position (· ^^^ byte) := by
  have hset : (xorByte state position byte).length = 25 := by
    rw [xorByte, List.length_set, h]
  refine ⟨hset, ext_getD ?_ fun i hi => ?_⟩
  · rw [List.length_modify, length_stateBytes hset, length_stateBytes h]
  · rw [length_stateBytes hset] at hi
    rw [stateBytes_getD hset hi, getD_modify _ _ (by rw [length_stateBytes h]; exact hi),
      stateBytes_getD h hi, xorByte, shift_3, and_7, getD_set (by omega)]
    split
    · rename_i hlane
      rw [hlane, byte_xor _ _ (Nat.mod_lt _ (by decide)) (Nat.mod_lt _ (by decide))]
      by_cases hsame : position = i
      · rw [if_pos (by omega), if_pos hsame]
      · rw [if_neg (by omega), if_neg hsame, UInt8.xor_zero]
    · rename_i hlane
      rw [if_neg (by omega)]

/-! ## The calls -/

/-- The bytes of the state and the position. -/
def KeccakCtx.cursor (ctx : KeccakCtx) : Cursor UInt8 := ⟨stateBytes ctx.state, ctx.position⟩

theorem KeccakCtx.step_full {ctx : KeccakCtx} (h : ctx.position + 1 = ctx.rate) :
    ctx.step = { ctx with state := keccakF1600 ctx.state, position := 0 } := if_pos h

theorem KeccakCtx.step_open {ctx : KeccakCtx} (h : ¬ ctx.position + 1 = ctx.rate) :
    ctx.step = { ctx with position := ctx.position + 1 } := if_neg h

/-- What stays the same in a context. -/
structure KeccakShape (rate : Nat) (domain : UInt8) (squeezing : Bool) (ctx : KeccakCtx) :
    Prop where
  length_state : ctx.state.length = 25
  rate_eq : ctx.rate = rate
  domain_eq : ctx.domain = domain
  squeezing_eq : ctx.squeezing = squeezing

/-- Another state and another position. -/
theorem KeccakShape.moved {rate : Nat} {domain : UInt8} {squeezing : Bool} {ctx : KeccakCtx}
    (h : KeccakShape rate domain squeezing ctx) {state : List UInt64} (hlength : state.length = 25)
    (position : Nat) {flag next : Bool} (hflag : flag = next) :
    KeccakShape rate domain next { ctx with state, position, squeezing := flag }
      ∧ ({ ctx with state, position, squeezing := flag } : KeccakCtx).cursor
        = ⟨stateBytes state, position⟩ :=
  ⟨⟨hlength, h.rate_eq, h.domain_eq, hflag⟩, rfl⟩

theorem KeccakShape.step {rate : Nat} {domain : UInt8} {squeezing : Bool} {ctx : KeccakCtx}
    (h : KeccakShape rate domain squeezing ctx) :
    KeccakShape rate domain squeezing ctx.step
      ∧ ctx.step.cursor = ctx.cursor.advance keccakBytes rate := by
  have hcursor : ctx.cursor.advance keccakBytes rate
      = if ctx.position + 1 = ctx.rate then ⟨keccakBytes (stateBytes ctx.state), 0⟩
        else ⟨stateBytes ctx.state, ctx.position + 1⟩ := by
    rw [h.rate_eq]
    rfl
  rw [hcursor]
  by_cases hfull : ctx.position + 1 = ctx.rate
  · rw [KeccakCtx.step_full hfull, if_pos hfull, keccakBytes_stateBytes h.length_state]
    exact h.moved (keccakF1600_array h.length_state).1 0 h.squeezing_eq
  · rw [KeccakCtx.step_open hfull, if_neg hfull]
    exact h.moved h.length_state _ h.squeezing_eq

/-- A context that has absorbed a message. -/
structure KeccakAbsorbing (rate : Nat) (domain : UInt8) (ctx : KeccakCtx) (message : Bytes) :
    Prop where
  shape : KeccakShape rate domain false ctx
  absorbing : Absorbing (· ^^^ ·) keccakBytes rate (List.replicate 200 0) ctx.cursor message

/-- A context that has given out `count` bytes. -/
structure KeccakSqueezing (rate : Nat) (domain : UInt8) (start : Bytes) (ctx : KeccakCtx)
    (count : Nat) : Prop where
  shape : KeccakShape rate domain true ctx
  squeezing : Squeezing keccakBytes rate start ctx.cursor count

theorem keccakInit_absorbing (rate : Nat) (domain : UInt8) :
    KeccakAbsorbing rate domain (keccakInit rate domain) [] := by
  refine ⟨⟨List.length_replicate, rfl, rfl, rfl⟩, ?_⟩
  have hzero : stateBytes (List.replicate 25 0) = List.replicate 200 0 := by
    decide +kernel
  have hcursor : (keccakInit rate domain).cursor = ⟨List.replicate 200 0, 0⟩ := by
    rw [← hzero]
    rfl
  rw [hcursor]
  exact absorbing_start _ rate _

section

variable {rate : Nat} {domain : UInt8} {ctx : KeccakCtx} {message : Bytes}

theorem KeccakAbsorbing.absorbByte (h : KeccakAbsorbing rate domain ctx message)
    (hrate : 0 < rate) (hwidth : rate ≤ 200) (byte : UInt8) :
    KeccakAbsorbing rate domain
      ({ ctx with state := xorByte ctx.state ctx.position byte } : KeccakCtx).step
      (message ++ [byte]) := by
  have hposition : ctx.position < rate := h.absorbing.position_lt hrate
  obtain ⟨hlength, hbytes⟩ := xorByte_eq h.shape.length_state
    (show ctx.position < 200 by omega) byte
  obtain ⟨hmoved, hcursor⟩ := h.shape.moved hlength ctx.position h.shape.squeezing_eq
  obtain ⟨hshape, hstep⟩ := hmoved.step
  refine ⟨hshape, ?_⟩
  rw [hstep, hcursor, hbytes]
  exact h.absorbing.absorb keccakBytes_keepsWidth hrate hwidth List.length_replicate byte

theorem KeccakAbsorbing.absorb (h : KeccakAbsorbing rate domain ctx message)
    (hrate : 0 < rate) (hwidth : rate ≤ 200) (input : Bytes) :
    KeccakAbsorbing rate domain (keccakAbsorb ctx input) (message ++ input) := by
  rw [keccakAbsorb, if_neg (by rw [h.shape.squeezing_eq]; decide)]
  induction input generalizing ctx message with
  | nil => rwa [List.append_nil]
  | cons byte input ih =>
    rw [List.foldl_cons, List.append_cons]
    exact ih (h.absorbByte hrate hwidth byte)

/-- The bytes behind a message: the domain, and the bit that ends the last block. -/
def keccakPadding (domain : UInt8) (length : Nat) : Bytes :=
  (domain :: List.replicate (length - 1) 0).modify (length - 1) (· ^^^ 0x80)

/-- The state behind a padded message. -/
def keccakPadded (rate : Nat) (domain : UInt8) (message : Bytes) : Bytes :=
  absorbed (· ^^^ ·) keccakBytes rate (List.replicate 200 0)
    (message ++ keccakPadding domain (rate - message.length % rate))

theorem KeccakAbsorbing.finalize (h : KeccakAbsorbing rate domain ctx message)
    (hrate : 0 < rate) (hwidth : rate ≤ 200) :
    KeccakSqueezing rate domain (keccakPadded rate domain message) (keccakFinalize ctx) 0 := by
  have hposition : ctx.position < rate := h.absorbing.position_lt hrate
  have hmod : ctx.position = message.length % rate := by
    rw [← length_unfinished]
    exact h.absorbing.position
  obtain ⟨hfirst, hdomain⟩ := xorByte_eq h.shape.length_state
    (show ctx.position < 200 by omega) ctx.domain
  obtain ⟨hsecond, hlast⟩ := xorByte_eq hfirst (show ctx.rate - 1 < 200 by
    rw [h.shape.rate_eq]
    omega) 0x80
  obtain ⟨hmoved, hcursor⟩ := h.shape.moved (keccakF1600_array hsecond).1 0 (Eq.refl true)
  have hpadded := h.absorbing.pad (fun x y z => (UInt8.xor_assoc x y z).symm)
    (fun x => UInt8.xor_zero) keccakBytes_keepsWidth hwidth List.length_replicate
    (show ctx.position + (rate - message.length % rate - 1) + 1 = rate by omega) domain 0x80
  have hfinal : ctx.position + (rate - message.length % rate - 1) = ctx.rate - 1 := by
    rw [h.shape.rate_eq]
    omega
  have hstate : stateBytes (keccakF1600 (xorByte (xorByte ctx.state ctx.position ctx.domain)
      (ctx.rate - 1) 0x80)) = keccakPadded rate domain message := by
    rw [← keccakBytes_stateBytes hsecond, hlast, hdomain, h.shape.domain_eq, ← hfinal]
    exact hpadded.symm
  rw [hstate] at hcursor
  rw [keccakFinalize, if_neg (by rw [h.shape.squeezing_eq]; decide)]
  refine ⟨hmoved, ?_⟩
  rw [hcursor]
  exact squeezing_start rate _

theorem KeccakSqueezing.squeezeByte {start : Bytes} {count : Nat}
    (h : KeccakSqueezing rate domain start ctx count) (hrate : 0 < rate) (hwidth : rate ≤ 200) :
    squeezeByte ctx = outputAt keccakBytes rate start count
      ∧ KeccakSqueezing rate domain start ctx.step (count + 1) := by
  have hposition : ctx.position < rate := by
    have hmod : ctx.position = count % rate := h.squeezing.position
    rw [hmod]
    exact Nat.mod_lt _ hrate
  obtain ⟨hshape, hstep⟩ := h.shape.step
  refine ⟨?_, hshape, ?_⟩
  · rw [squeezeByte_eq h.shape.length_state (by omega), ← h.squeezing.output]
    rfl
  · rw [hstep]
    exact h.squeezing.squeeze hrate

theorem KeccakSqueezing.squeezeLoop {start : Bytes} {count : Nat}
    (h : KeccakSqueezing rate domain start ctx count) (hrate : 0 < rate) (hwidth : rate ≤ 200)
    (length : Nat) :
    (squeezeLoop ctx length).1
        = (List.range' count length).map (outputAt keccakBytes rate start)
      ∧ KeccakSqueezing rate domain start (squeezeLoop ctx length).2 (count + length) := by
  induction length generalizing ctx count with
  | zero => exact ⟨rfl, h⟩
  | succ length ih =>
    obtain ⟨hbyte, hnext⟩ := h.squeezeByte hrate hwidth
    obtain ⟨hrest, hlast⟩ := ih hnext
    have hcount : count + 1 + length = count + (length + 1) := by omega
    rw [hcount] at hlast
    refine ⟨?_, hlast⟩
    rw [C0PQLink.squeezeLoop]
    dsimp only
    rw [hbyte, hrest, List.range'_succ, List.map_cons]

theorem KeccakSqueezing.squeeze {start : Bytes} {count : Nat}
    (h : KeccakSqueezing rate domain start ctx count) (hrate : 0 < rate) (hwidth : rate ≤ 200)
    (length : Nat) :
    (keccakSqueeze ctx length).1
        = (List.range' count length).map (outputAt keccakBytes rate start)
      ∧ KeccakSqueezing rate domain start (keccakSqueeze ctx length).2 (count + length) := by
  rw [keccakSqueeze, if_pos h.shape.squeezing_eq]
  exact h.squeezeLoop hrate hwidth length

theorem keccakAbsorb_squeezing (h : ctx.squeezing = true) (input : Bytes) :
    keccakAbsorb ctx input = ctx := if_pos h

theorem keccakFinalize_squeezing (h : ctx.squeezing = true) : keccakFinalize ctx = ctx := if_pos h

end

/-! ## Sequences of calls -/

inductive KeccakCall where
  | absorb (input : Bytes)
  | finalize
  | squeeze (length : Nat)
  deriving DecidableEq

/-- The output of a call and the context after it. -/
def KeccakCall.run (ctx : KeccakCtx) : KeccakCall → Bytes × KeccakCtx
  | absorb input => ([], keccakAbsorb ctx input)
  | finalize => ([], keccakFinalize ctx)
  | squeeze length => keccakSqueeze ctx length

/-- The output of all calls together and the context after them. -/
def keccakRun (ctx : KeccakCtx) : List KeccakCall → Bytes × KeccakCtx
  | [] => ([], ctx)
  | call :: calls =>
    let first := call.run ctx
    let rest := keccakRun first.2 calls
    (first.1 ++ rest.1, rest.2)

/-- What is absorbed before the first of the other calls. -/
def absorbedMessage : List KeccakCall → Bytes
  | [] => []
  | .absorb input :: calls => input ++ absorbedMessage calls
  | .finalize :: _ => []
  | .squeeze _ :: _ => []

/-- The number of bytes that are asked for. -/
def requested : List KeccakCall → Nat
  | [] => 0
  | .absorb _ :: calls => requested calls
  | .finalize :: calls => requested calls
  | .squeeze length :: calls => length + requested calls

theorem keccakRun_cons (ctx : KeccakCtx) (call : KeccakCall) (calls : List KeccakCall) :
    keccakRun ctx (call :: calls)
      = ((call.run ctx).1 ++ (keccakRun (call.run ctx).2 calls).1,
          (keccakRun (call.run ctx).2 calls).2) := rfl

theorem squeezeLoop_squeezing (ctx : KeccakCtx) (length : Nat) :
    (squeezeLoop ctx length).2.squeezing = ctx.squeezing := by
  induction length generalizing ctx with
  | zero => rfl
  | succ length ih =>
    have hstep : ctx.step.squeezing = ctx.squeezing := by
      rw [KeccakCtx.step]
      split <;> rfl
    rw [squeezeLoop]
    exact (ih ctx.step).trans hstep

theorem keccakFinalize_flag (ctx : KeccakCtx) : (keccakFinalize ctx).squeezing = true := by
  rw [keccakFinalize]
  split
  · assumption
  · rfl

theorem keccakSqueeze_flag (ctx : KeccakCtx) (length : Nat) :
    (keccakSqueeze ctx length).2.squeezing = true := by
  rw [keccakSqueeze, squeezeLoop_squeezing]
  split
  · assumption
  · exact keccakFinalize_flag ctx

/-- A context that squeezes goes on squeezing. -/
theorem squeezing_run {ctx : KeccakCtx} (h : ctx.squeezing = true) (calls : List KeccakCall) :
    (keccakRun ctx calls).2.squeezing = true := by
  induction calls generalizing ctx with
  | nil => exact h
  | cons call calls ih =>
    rw [keccakRun_cons]
    refine ih ?_
    cases call with
    | absorb input =>
      rw [KeccakCall.run, keccakAbsorb_squeezing h]
      exact h
    | finalize => exact keccakFinalize_flag ctx
    | squeeze length => exact keccakSqueeze_flag ctx length

theorem squeezing_of_mem {ctx : KeccakCtx} {calls : List KeccakCall} {length : Nat}
    (h : KeccakCall.squeeze length ∈ calls) : (keccakRun ctx calls).2.squeezing = true := by
  induction calls generalizing ctx with
  | nil => simp at h
  | cons call calls ih =>
    rw [keccakRun_cons]
    rcases List.mem_cons.mp h with rfl | hrest
    · exact squeezing_run (keccakSqueeze_flag ctx length) calls
    · exact ih hrest

section

variable {rate : Nat} {domain : UInt8} {ctx : KeccakCtx}

theorem KeccakSqueezing.run {start : Bytes} {count : Nat}
    (h : KeccakSqueezing rate domain start ctx count) (hrate : 0 < rate) (hwidth : rate ≤ 200)
    (calls : List KeccakCall) :
    (keccakRun ctx calls).1
        = (List.range' count (requested calls)).map (outputAt keccakBytes rate start) := by
  induction calls generalizing ctx count with
  | nil => rfl
  | cons call calls ih =>
    rw [keccakRun_cons]
    cases call with
    | absorb input =>
      rw [KeccakCall.run, keccakAbsorb_squeezing h.shape.squeezing_eq]
      exact ih h
    | finalize =>
      rw [KeccakCall.run, keccakFinalize_squeezing h.shape.squeezing_eq]
      exact ih h
    | squeeze length =>
      obtain ⟨hbytes, hnext⟩ := h.squeeze hrate hwidth length
      rw [KeccakCall.run]
      dsimp only
      rw [hbytes, ih hnext, ← List.map_append, List.range'_append_1]
      rfl

/-- The output of calls on a context that has not been finalized. -/
theorem KeccakAbsorbing.run {message : Bytes} (h : KeccakAbsorbing rate domain ctx message)
    (hrate : 0 < rate) (hwidth : rate ≤ 200) (calls : List KeccakCall) :
    (keccakRun ctx calls).1
      = (List.range (requested calls)).map (outputAt keccakBytes rate
          (keccakPadded rate domain (message ++ absorbedMessage calls))) := by
  induction calls generalizing ctx message with
  | nil => rfl
  | cons call calls ih =>
    cases call with
    | absorb input =>
      have hrest := ih (h.absorb hrate hwidth input)
      rw [List.append_assoc] at hrest
      exact hrest
    | finalize =>
      rw [absorbedMessage, List.append_nil, List.range_eq_range']
      exact (h.finalize hrate hwidth).run hrate hwidth calls
    | squeeze length =>
      -- a squeeze on a context that still absorbs finalizes it first
      have hfinal := h.finalize hrate hwidth
      have hsame : keccakRun ctx (.squeeze length :: calls)
          = keccakRun (keccakFinalize ctx) (.squeeze length :: calls) := by
        rw [keccakRun_cons, keccakRun_cons, KeccakCall.run, keccakSqueeze,
          if_neg (by rw [h.shape.squeezing_eq]; decide), KeccakCall.run, keccakSqueeze,
          if_pos hfinal.shape.squeezing_eq]
      rw [hsame, absorbedMessage, List.append_nil, List.range_eq_range']
      exact hfinal.run hrate hwidth (.squeeze length :: calls)

end

end C0PQLink
