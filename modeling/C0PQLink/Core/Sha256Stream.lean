import C0PQLink.Core.Integers
import C0PQLink.Fips180.Sha256

/-!
# The streaming SHA-256

The contexts of `core/sha256.c` up to `c0_sha256`. A block is compressed as soon as it is
complete, and the message schedule is a window of 16 words.

* `sha256Transform_eq`: a call of `sha256_transform` is one step of the hash computation.
* `Absorbed.update`: what a context holds of the bytes it was fed, in any pieces.
* `Absorbed.final`: the digest of a context is the hash of these bytes.
-/

namespace C0PQLink

open Foundation

open Fips180 (HashValue)

/-! ## The compression -/

def roundConstants : List UInt32 :=
  [0x428a2f98, 0x71374491, 0xb5c0fbcf, 0xe9b5dba5, 0x3956c25b, 0x59f111f1, 0x923f82a4,
    0xab1c5ed5, 0xd807aa98, 0x12835b01, 0x243185be, 0x550c7dc3, 0x72be5d74, 0x80deb1fe,
    0x9bdc06a7, 0xc19bf174, 0xe49b69c1, 0xefbe4786, 0x0fc19dc6, 0x240ca1cc, 0x2de92c6f,
    0x4a7484aa, 0x5cb0a9dc, 0x76f988da, 0x983e5152, 0xa831c66d, 0xb00327c8, 0xbf597fc7,
    0xc6e00bf3, 0xd5a79147, 0x06ca6351, 0x14292967, 0x27b70a85, 0x2e1b2138, 0x4d2c6dfc,
    0x53380d13, 0x650a7354, 0x766a0abb, 0x81c2c92e, 0x92722c85, 0xa2bfe8a1, 0xa81a664b,
    0xc24b8b70, 0xc76c51a3, 0xd192e819, 0xd6990624, 0xf40e3585, 0x106aa070, 0x19a4c116,
    0x1e376c08, 0x2748774c, 0x34b0bcb5, 0x391c0cb3, 0x4ed8aa4a, 0x5b9cca4f, 0x682e6ff3,
    0x748f82ee, 0x78a5636f, 0x84c87814, 0x8cc70208, 0x90befffa, 0xa4506ceb, 0xbef9a3f7,
    0xc67178f2]

def rotateRight32 (value count : UInt32) : UInt32 := (value >>> count) ||| (value <<< (32 - count))

/-- The array `schedule` and the words `a` to `h`. -/
structure TransformState where
  schedule : List UInt32
  words : HashValue

def sha256Round (state : TransformState) (round : Nat) : TransformState :=
  let schedule :=
    if round ≥ 16 then
      let x := state.schedule.getD ((round - 15) &&& 15) 0
      let y := state.schedule.getD ((round - 2) &&& 15) 0
      let sigma0 := rotateRight32 x 7 ^^^ rotateRight32 x 18 ^^^ (x >>> 3)
      let sigma1 := rotateRight32 y 17 ^^^ rotateRight32 y 19 ^^^ (y >>> 10)
      state.schedule.set (round &&& 15) (state.schedule.getD (round &&& 15) 0
        + (sigma0 + state.schedule.getD ((round - 7) &&& 15) 0 + sigma1))
    else state.schedule
  let ⟨a, b, c, d, e, f, g, h⟩ := state.words
  let word := schedule.getD (round &&& 15) 0
  let sum1 := rotateRight32 e 6 ^^^ rotateRight32 e 11 ^^^ rotateRight32 e 25
  let choice := (e &&& f) ^^^ (~~~e &&& g)
  let temp1 := h + sum1 + choice + roundConstants.getD round 0 + word
  let sum0 := rotateRight32 a 2 ^^^ rotateRight32 a 13 ^^^ rotateRight32 a 22
  let majority := (a &&& b) ^^^ (a &&& c) ^^^ (b &&& c)
  let temp2 := sum0 + majority
  { schedule
    words := { a := temp1 + temp2, b := a, c := b, d := c, e := d + temp1, f := e, g := f, h := g } }

/-- The first loop of `sha256_transform`. -/
def loadSchedule (block : Bytes) : List UInt32 :=
  (List.range 16).map fun round => load32BE (slice block (4 * round) 4)

/-- `sha256_transform` on the words of a context. -/
def sha256Transform (state : HashValue) (block : Bytes) : HashValue :=
  let v := ((List.range 64).foldl sha256Round ⟨loadSchedule block, state⟩).words
  { a := state.a + v.a, b := state.b + v.b, c := state.c + v.c, d := state.d + v.d
    e := state.e + v.e, f := state.f + v.f, g := state.g + v.g, h := state.h + v.h }

/-! ## Contexts -/

/-- `buffered` is a `uint8_t`; it never exceeds 64. -/
structure Sha256Ctx where
  state : HashValue
  totalBytes : UInt64
  buffer : Bytes
  buffered : Nat
  deriving DecidableEq

/-- A `memcpy` or `memset` into a buffer. -/
def writeAt (buffer : Bytes) (offset : Nat) (data : Bytes) : Bytes :=
  buffer.take offset ++ data ++ buffer.drop (offset + data.length)

def sha256Init : Sha256Ctx where
  state := ⟨0x6a09e667, 0xbb67ae85, 0x3c6ef372, 0xa54ff53a, 0x510e527f, 0x9b05688c, 0x1f83d9ab,
    0x5be0cd19⟩
  totalBytes := 0
  buffer := List.replicate 64 0
  buffered := 0

/-- The loop of `c0_sha256_update` over complete blocks, and the copy of what is left. -/
def sha256UpdateBlocks (ctx : Sha256Ctx) (input : Bytes) : Sha256Ctx :=
  if 64 ≤ input.length then
    sha256UpdateBlocks { ctx with state := sha256Transform ctx.state (input.take 64) } (input.drop 64)
  else if 0 < input.length then
    { ctx with buffer := writeAt ctx.buffer 0 input, buffered := input.length }
  else ctx
termination_by input.length
decreasing_by simp; omega

def sha256Update (ctx : Sha256Ctx) (input : Bytes) : Sha256Ctx :=
  if input.length = 0 then ctx
  else
    let ctx := { ctx with totalBytes := ctx.totalBytes + UInt64.ofNat input.length }
    if ctx.buffered ≠ 0 then
      let available := 64 - ctx.buffered
      let take := if input.length < available then input.length else available
      let buffer := writeAt ctx.buffer ctx.buffered (input.take take)
      let buffered := ctx.buffered + take
      if buffered = 64 then
        sha256UpdateBlocks
          { ctx with state := sha256Transform ctx.state buffer, buffer, buffered := 0 }
          (input.drop take)
      else sha256UpdateBlocks { ctx with buffer, buffered } (input.drop take)
    else sha256UpdateBlocks ctx input

/-- The digest; the context is then cleared. -/
def sha256Final (ctx : Sha256Ctx) : Block 32 :=
  let totalBits := ctx.totalBytes * 8
  let buffer := writeAt ctx.buffer ctx.buffered [0x80]
  let buffered := ctx.buffered + 1
  let ctx := { ctx with buffer, buffered }
  let ctx :=
    if ctx.buffered > 56 then
      let buffer := writeAt ctx.buffer ctx.buffered (List.replicate (64 - ctx.buffered) 0)
      { ctx with state := sha256Transform ctx.state buffer, buffer, buffered := 0 }
    else ctx
  let buffer := writeAt ctx.buffer ctx.buffered (List.replicate (56 - ctx.buffered) 0)
  let buffer := writeAt buffer 56 (store64BE totalBits)
  let state := sha256Transform ctx.state buffer
  ⟨store32BE state.a ++ store32BE state.b ++ store32BE state.c ++ store32BE state.d
    ++ store32BE state.e ++ store32BE state.f ++ store32BE state.g ++ store32BE state.h, by simp⟩

def c0Sha256 (input : Bytes) : Block 32 := sha256Final (sha256Update sha256Init input)

/-! ## The message schedule -/

theorem roundConstants_eq : ∀ t < 64, roundConstants.getD t 0 = Fips180.constant t := by
  decide +kernel

theorem sha256Init_state : sha256Init.state = Fips180.initialHash := by decide +kernel

theorem and_15 (n : Nat) : n &&& 15 = n % 16 := Nat.and_two_pow_sub_one_eq_mod n 4

/-- The window holds the last 16 words of the schedule that are known before a round. -/
structure Window (block : Bytes) (schedule : List UInt32) (round : Nat) : Prop where
  length_eq : schedule.length = 16
  word : ∀ t, t < max round 16 → max round 16 ≤ t + 16 →
    schedule.getD (t % 16) 0 = Fips180.schedule block t

theorem load32BE_eq_messageWord {block : Bytes} (h : block.length = 64) {t : Nat} (ht : t < 16) :
    load32BE (slice block (4 * t) 4) = Fips180.messageWord block t := by
  have hlength : (slice block (4 * t) 4).length = 4 := by
    rw [length_slice]
    omega
  rw [Fips180.messageWord, ← toNat_load32BE hlength, UInt32.ofNat_toNat]

theorem window_start {block : Bytes} (h : block.length = 64) :
    Window block (loadSchedule block) 0 := by
  refine ⟨by simp [loadSchedule], fun t ht _ => ?_⟩
  have ht : t < 16 := by omega
  rw [Nat.mod_eq_of_lt ht, Fips180.schedule, if_pos ht, ← load32BE_eq_messageWord h ht]
  simp [loadSchedule, List.getD_eq_getElem?_getD, ht]

/-- The window after the schedule part of a round. -/
def nextSchedule (schedule : List UInt32) (round : Nat) : List UInt32 :=
  if round ≥ 16 then
    schedule.set (round &&& 15) (schedule.getD (round &&& 15) 0
      + (Fips180.smallSigma0 (schedule.getD ((round - 15) &&& 15) 0)
        + schedule.getD ((round - 7) &&& 15) 0
        + Fips180.smallSigma1 (schedule.getD ((round - 2) &&& 15) 0)))
  else schedule

theorem Window.next_word {block : Bytes} {schedule : List UInt32} {round : Nat}
    (hwindow : Window block schedule round) :
    (nextSchedule schedule round).getD (round % 16) 0 = Fips180.schedule block round := by
  rw [nextSchedule]
  split
  · rename_i hround
    have hmax : max round 16 = round := by omega
    have hread {k : Nat} (h1 : 1 ≤ k) (h16 : k ≤ 16) :
        schedule.getD ((round - k) % 16) 0 = Fips180.schedule block (round - k) :=
      hwindow.word (round - k) (by omega) (by omega)
    have hself : round % 16 = (round - 16) % 16 := by omega
    have hlt : round % 16 < schedule.length := by rw [hwindow.length_eq]; omega
    have hfips : Fips180.schedule block round
        = Fips180.smallSigma1 (Fips180.schedule block (round - 2))
          + Fips180.schedule block (round - 7)
          + Fips180.smallSigma0 (Fips180.schedule block (round - 15))
          + Fips180.schedule block (round - 16) := by
      rw [Fips180.schedule, if_neg (by omega)]
    simp only [and_15]
    rw [hread (by omega) (by omega), hread (by omega) (by omega), hread (by omega) (by omega),
      List.getD_eq_getElem?_getD, List.getElem?_set_self hlt, Option.getD_some, hself,
      hread (by omega) (by omega), hfips]
    ac_rfl
  · rename_i hround
    exact hwindow.word round (by omega) (by omega)

theorem Window.next {block : Bytes} {schedule : List UInt32} {round : Nat}
    (hwindow : Window block schedule round) :
    Window block (nextSchedule schedule round) (round + 1) := by
  have hself := hwindow.next_word
  refine ⟨?_, fun t ht hle => ?_⟩
  · rw [nextSchedule]
    split <;> simp [hwindow.length_eq]
  · rcases Nat.lt_or_ge round 16 with hround | hround
    · rw [nextSchedule, if_neg (by omega)]
      exact hwindow.word t (by omega) (by omega)
    · rcases Nat.eq_or_lt_of_le (show t ≤ round by omega) with rfl | hlt
      · exact hself
      · have hne : round % 16 ≠ t % 16 := by omega
        rw [nextSchedule, if_pos hround, and_15, List.getD_eq_getElem?_getD,
          List.getElem?_set_ne hne, ← List.getD_eq_getElem?_getD]
        exact hwindow.word t (by omega) (by omega)

/-! ## The rounds -/

theorem sha256Round_eq (state : TransformState) {block : Bytes} {round : Nat} (h64 : round < 64)
    (hwindow : Window block state.schedule round) :
    sha256Round state round
      = ⟨nextSchedule state.schedule round, Fips180.round block state.words round⟩ := by
  have hword := hwindow.next_word
  have hconstant := roundConstants_eq round h64
  rw [← and_15] at hword
  rw [Fips180.round, ← hword, ← hconstant]
  rfl

/-- After `n` rounds, the words are the working variables and the window has moved on. -/
theorem rounds_eq {block : Bytes} {start : TransformState}
    (hstart : Window block start.schedule 0) {n : Nat} (hn : n ≤ 64) :
    ((List.range n).foldl sha256Round start).words
        = (List.range n).foldl (Fips180.round block) start.words
      ∧ Window block ((List.range n).foldl sha256Round start).schedule n := by
  induction n with
  | zero => exact ⟨rfl, hstart⟩
  | succ n ih =>
    obtain ⟨hwords, hwindow⟩ := ih (by omega)
    simp only [List.range_succ, List.foldl_append, List.foldl_cons, List.foldl_nil]
    rw [sha256Round_eq _ (by omega) hwindow, hwords]
    exact ⟨rfl, hwindow.next⟩

theorem sha256Transform_eq {block : Bytes} (h : block.length = 64) (state : HashValue) :
    sha256Transform state block = Fips180.compress state block := by
  have hstart : Window block (TransformState.mk (loadSchedule block) state).schedule 0 :=
    window_start h
  have hwords := (rounds_eq hstart (Nat.le_refl 64)).1
  rw [sha256Transform, Fips180.compress, hwords]
  simp only [UInt32.add_comm]

/-! ## Buffers -/

theorem length_writeAt {buffer data : Bytes} {offset : Nat}
    (h : offset + data.length ≤ buffer.length) :
    (writeAt buffer offset data).length = buffer.length := by
  simp only [writeAt, List.length_append, List.length_take, List.length_drop]
  omega

theorem take_writeAt {buffer data : Bytes} {offset : Nat}
    (h : offset + data.length ≤ buffer.length) :
    (writeAt buffer offset data).take (offset + data.length) = buffer.take offset ++ data := by
  refine List.take_left' ?_
  rw [List.length_append, List.length_take]
  omega

/-- Writing up to the end of a buffer. -/
theorem writeAt_end {buffer data : Bytes} {offset : Nat}
    (h : offset + data.length = buffer.length) :
    writeAt buffer offset data = buffer.take offset ++ data := by
  rw [writeAt, h, List.drop_length, List.append_nil]

/-- Two writes next to each other are one. -/
theorem writeAt_writeAt {buffer x y : Bytes} {offset next : Nat}
    (h : offset + x.length ≤ buffer.length) (hnext : next = offset + x.length) :
    writeAt (writeAt buffer offset x) next y = writeAt buffer offset (x ++ y) := by
  have htake : (writeAt buffer offset x).take next = buffer.take offset ++ x := by
    rw [hnext, take_writeAt h]
  have hlength : (buffer.take offset ++ x).length = next := by
    rw [List.length_append, List.length_take]
    omega
  have hdrop : (writeAt buffer offset x).drop (next + y.length)
      = buffer.drop (offset + (x ++ y).length) := by
    rw [← List.drop_drop, writeAt, List.drop_left' hlength, List.drop_drop, List.length_append,
      Nat.add_assoc]
  rw [writeAt, htake, hdrop, writeAt]
  simp only [List.append_assoc]

/-! ## What a context holds -/

/-- The hash value of the complete blocks, and the bytes behind them. -/
structure Holds (ctx : Sha256Ctx) (message : Bytes) : Prop where
  state : ctx.state = (fullBlocks 64 message).foldl Fips180.compress Fips180.initialHash
  buffered : ctx.buffered = (unfinished 64 message).length
  buffer : ctx.buffer.take ctx.buffered = unfinished 64 message
  length_buffer : ctx.buffer.length = 64

structure Absorbed (ctx : Sha256Ctx) (message : Bytes) : Prop extends Holds ctx message where
  total : ctx.totalBytes = UInt64.ofNat message.length

section

variable {ctx : Sha256Ctx} {message : Bytes}

theorem Holds.buffered_lt (h : Holds ctx message) : ctx.buffered < 64 := by
  rw [h.buffered]
  exact unfinished_lt (by decide) message

theorem Holds.write (h : Holds ctx message) {piece : Bytes}
    (hroom : ctx.buffered + piece.length ≤ 64) :
    (writeAt ctx.buffer ctx.buffered piece).take (ctx.buffered + piece.length)
        = unfinished 64 message ++ piece
      ∧ (writeAt ctx.buffer ctx.buffered piece).length = 64 := by
  rw [take_writeAt (by rw [h.length_buffer]; exact hroom), h.buffer,
    length_writeAt (by rw [h.length_buffer]; exact hroom), h.length_buffer]
  exact ⟨rfl, rfl⟩

/-- A piece that leaves the block open is kept in the buffer. -/
theorem Holds.extend (h : Holds ctx message) {piece : Bytes}
    (hroom : ctx.buffered + piece.length < 64) :
    Holds { ctx with
      buffer := writeAt ctx.buffer ctx.buffered piece
      buffered := ctx.buffered + piece.length } (message ++ piece) := by
  obtain ⟨htake, hlength⟩ := h.write hroom.le
  have hopen : (unfinished 64 message).length + piece.length < 64 := by
    rw [← h.buffered]
    exact hroom
  obtain ⟨hblocks, hrest⟩ := fullBlocks_append_short hopen
  refine ⟨?_, ?_, ?_, hlength⟩
  · rw [hblocks]
    exact h.state
  · rw [hrest, List.length_append, ← h.buffered]
  · rw [hrest]
    exact htake

/-- A piece that completes the block is compressed with what was kept. -/
theorem Holds.complete (h : Holds ctx message) {piece block buffer : Bytes}
    (hfull : ctx.buffered + piece.length = 64) (hblock : block = unfinished 64 message ++ piece)
    (hbuffer : buffer.length = 64) :
    Holds { ctx with state := sha256Transform ctx.state block, buffer, buffered := 0 }
      (message ++ piece) := by
  have hclosed : (unfinished 64 message).length + piece.length = 64 := by
    rw [← h.buffered]
    exact hfull
  obtain ⟨hblocks, hrest⟩ := fullBlocks_append_full (show 0 < 64 by decide) hclosed
  have hlength : block.length = 64 := by
    rw [hblock, List.length_append, ← h.buffered]
    exact hfull
  refine ⟨?_, ?_, ?_, hbuffer⟩
  · rw [hblocks, List.foldl_append, ← h.state, ← hblock]
    exact sha256Transform_eq hlength ctx.state
  · rw [hrest]
    rfl
  · rw [hrest]
    rfl

end

theorem updateBlocks_holds {ctx : Sha256Ctx} {message : Bytes} (h : Holds ctx message)
    (input : Bytes) (hempty : input = [] ∨ ctx.buffered = 0) :
    Holds (sha256UpdateBlocks ctx input) (message ++ input)
      ∧ (sha256UpdateBlocks ctx input).totalBytes = ctx.totalBytes := by
  fun_induction sha256UpdateBlocks ctx input generalizing message with
  | case1 ctx input h64 ih =>
    have hzero : ctx.buffered = 0 := by
      rcases hempty with rfl | hzero
      · simp at h64
      · exact hzero
    have hnone : unfinished 64 message = [] := by
      rw [← List.length_eq_zero_iff, ← h.buffered, hzero]
    have htake : (input.take 64).length = 64 := by
      rw [List.length_take]
      omega
    have hblock : input.take 64 = unfinished 64 message ++ input.take 64 := by
      rw [hnone]
      rfl
    have hnext := h.complete (by rw [hzero, htake]) hblock h.length_buffer
    rw [← hzero] at hnext
    obtain ⟨hholds, htotal⟩ := ih hnext (.inr hzero)
    rw [List.append_assoc, List.take_append_drop] at hholds
    exact ⟨hholds, htotal⟩
  | case2 ctx input h64 hpos =>
    have hzero : ctx.buffered = 0 := by
      rcases hempty with rfl | hzero
      · simp at hpos
      · exact hzero
    have hnext := h.extend (show ctx.buffered + input.length < 64 by omega)
    rw [hzero, Nat.zero_add] at hnext
    exact ⟨hnext, rfl⟩
  | case3 ctx input h64 hpos =>
    have hnil : input = [] := List.eq_nil_of_length_eq_zero (by omega)
    rw [hnil, List.append_nil]
    exact ⟨h, rfl⟩

theorem sha256Init_absorbed : Absorbed sha256Init [] where
  state := sha256Init_state
  buffered := rfl
  buffer := rfl
  length_buffer := rfl
  total := rfl

theorem Absorbed.update {ctx : Sha256Ctx} {message : Bytes} (h : Absorbed ctx message)
    (input : Bytes) : Absorbed (sha256Update ctx input) (message ++ input) := by
  have hlt := h.buffered_lt
  have htotal : ctx.totalBytes + UInt64.ofNat input.length
      = UInt64.ofNat (message ++ input).length := by
    rw [h.total, List.length_append, UInt64.ofNat_add]
  have hholds : Holds { ctx with totalBytes := ctx.totalBytes + UInt64.ofNat input.length }
      message := ⟨h.state, h.buffered, h.buffer, h.length_buffer⟩
  rw [sha256Update]
  split
  · rename_i hnil
    rw [List.eq_nil_of_length_eq_zero hnil, List.append_nil]
    exact h
  rename_i hpos
  simp only
  split
  · rename_i hopen
    have hif : (if input.length < 64 - ctx.buffered then input.length else 64 - ctx.buffered)
        = min input.length (64 - ctx.buffered) := by
      split <;> omega
    rw [hif]
    generalize htake : min input.length (64 - ctx.buffered) = take
    have hlength : (input.take take).length = take := by
      rw [List.length_take]
      omega
    split
    · rename_i hfull
      have hroom : ctx.buffered + (input.take take).length = 64 := by
        rw [hlength]
        exact hfull
      obtain ⟨hblock, hbuffer⟩ := hholds.write hroom.le
      rw [hroom, List.take_of_length_le hbuffer.le] at hblock
      have hnext := hholds.complete hroom hblock hbuffer
      obtain ⟨hdone, hsame⟩ := updateBlocks_holds hnext (input.drop take) (.inr rfl)
      rw [List.append_assoc, List.take_append_drop] at hdone
      exact ⟨hdone, hsame.trans htotal⟩
    · rename_i hshort
      have hall : input.length ≤ take := by omega
      have hroom : ctx.buffered + (input.take take).length < 64 := by
        rw [hlength]
        omega
      have hnext := hholds.extend hroom
      obtain ⟨hdone, hsame⟩ := updateBlocks_holds hnext (input.drop take)
        (.inl (List.drop_eq_nil_of_le hall))
      rw [List.append_assoc, List.take_append_drop, hlength] at hdone
      rw [hlength] at hsame
      exact ⟨hdone, hsame.trans htotal⟩
  · rename_i hzero
    obtain ⟨hdone, hsame⟩ := updateBlocks_holds hholds input (.inr (not_not.mp hzero))
    exact ⟨hdone, hsame.trans htotal⟩

/-! ## The digest -/

theorem beBytes_mod (n v : Nat) : beBytes n (v % 256 ^ n) = beBytes n v := by
  refine beNat_inj (by simp) ?_
  rw [beNat_beBytes, beNat_beBytes, Nat.mod_mod]

/-- The length field, also where the number of bits does not fit. -/
theorem Absorbed.lengthField {ctx : Sha256Ctx} {message : Bytes} (h : Absorbed ctx message) :
    store64BE (ctx.totalBytes * 8) = beBytes 8 (8 * message.length) := by
  rw [store64BE_eq, h.total, ← beBytes_mod 8 (8 * message.length), UInt64.toNat_mul,
    UInt64.toNat_ofNat', Nat.mod_mul_mod, Nat.mul_comm]
  rfl

theorem Absorbed.final {ctx : Sha256Ctx} {message : Bytes} (h : Absorbed ctx message) :
    sha256Final ctx = Fips180.sha256 message := by
  have hlt := h.buffered_lt
  have hlength := h.length_buffer
  have hfield := h.lengthField
  have hmarker (zeros : Bytes) :
      writeAt (writeAt ctx.buffer ctx.buffered [0x80]) (ctx.buffered + 1) zeros
        = writeAt ctx.buffer ctx.buffered ([0x80] ++ zeros) :=
    writeAt_writeAt (by rw [List.length_singleton, hlength]; omega) rfl
  apply Block.ext
  rw [sha256Final, Fips180.sha256, Fips180.digest]
  simp only [Fips180.wordBytes, ← store32BE_eq]
  rcases Nat.lt_or_ge 55 ctx.buffered with hlong | hshort
  · have hrest : 55 < (unfinished 64 message).length := h.buffered ▸ hlong
    have hfirst : writeAt (writeAt ctx.buffer ctx.buffered [0x80]) (ctx.buffered + 1)
        (List.replicate (64 - (ctx.buffered + 1)) 0)
        = unfinished 64 message ++ [0x80]
          ++ List.replicate (63 - (unfinished 64 message).length) 0 := by
      rw [hmarker, writeAt_end (by simp [hlength]; omega), h.buffer, ← h.buffered,
        ← List.append_assoc]
      congr 2
      omega
    have hfirstLength : (unfinished 64 message ++ [0x80]
        ++ List.replicate (63 - (unfinished 64 message).length) (0 : UInt8)).length = 64 := by
      simp only [List.length_append, List.length_singleton, List.length_replicate]
      have hlast := unfinished_lt (show 0 < 64 by decide) message
      omega
    have hsecond (buffer : Bytes) (hbuffer : buffer.length = 64) :
        writeAt (writeAt buffer 0 (List.replicate 56 0)) 56 (store64BE (ctx.totalBytes * 8))
          = List.replicate 56 0 ++ beBytes 8 (8 * message.length) := by
      rw [writeAt_writeAt (by simp [hbuffer]) (by simp), writeAt_end (by simp [hbuffer]), hfield]
      rfl
    rw [Fips180.fullBlocks_pad_long hrest, List.foldl_append, ← h.state, if_pos (by omega)]
    simp only [hfirst, Nat.sub_zero, hsecond _ hfirstLength, List.foldl_cons, List.foldl_nil]
    rw [sha256Transform_eq hfirstLength, sha256Transform_eq (by simp)]
  · have hrest : (unfinished 64 message).length ≤ 55 := h.buffered ▸ hshort
    have hblock : writeAt (writeAt (writeAt ctx.buffer ctx.buffered [0x80]) (ctx.buffered + 1)
        (List.replicate (56 - (ctx.buffered + 1)) 0)) 56 (store64BE (ctx.totalBytes * 8))
        = unfinished 64 message ++ [0x80]
          ++ List.replicate (55 - (unfinished 64 message).length) 0
          ++ beBytes 8 (8 * message.length) := by
      rw [hmarker, writeAt_writeAt (by simp [hlength]; omega) (by simp; omega),
        writeAt_end (by simp [hlength]; omega), h.buffer, ← h.buffered, hfield,
        ← List.append_assoc, ← List.append_assoc]
      congr 3
      omega
    have hblockLength : (unfinished 64 message ++ [0x80]
        ++ List.replicate (55 - (unfinished 64 message).length) 0
        ++ beBytes 8 (8 * message.length)).length = 64 := by
      simp only [List.length_append, List.length_singleton, List.length_replicate,
        length_beBytes]
      omega
    rw [Fips180.fullBlocks_pad_short hrest, List.foldl_append, ← h.state, if_neg (by omega)]
    simp only [hblock, List.foldl_cons, List.foldl_nil]
    rw [sha256Transform_eq hblockLength]

theorem foldl_update_absorbed {ctx : Sha256Ctx} {message : Bytes} (h : Absorbed ctx message)
    (pieces : List Bytes) : Absorbed (pieces.foldl sha256Update ctx) (message ++ pieces.flatten) := by
  induction pieces generalizing ctx message with
  | nil => simpa using h
  | cons piece pieces ih =>
    rw [List.flatten_cons, ← List.append_assoc]
    exact ih (h.update piece)

/-- The digest of a message that arrives in any pieces. -/
theorem sha256Final_pieces (pieces : List Bytes) :
    sha256Final (pieces.foldl sha256Update sha256Init) = Fips180.sha256 pieces.flatten :=
  (foldl_update_absorbed sha256Init_absorbed pieces).final

theorem c0Sha256_eq (input : Bytes) : c0Sha256 input = Fips180.sha256 input := by
  have hpieces := sha256Final_pieces [input]
  rwa [List.flatten_singleton] at hpieces

end C0PQLink
