import C0PQLink.Core.Sha256Stream
import C0PQLink.Foundation.LittleEndian
import C0PQLink.Foundation.Loops

/-!
# The compact SHA-256

`nanopq_secure_link/sha256.c` up to `qp_sha256`, with the switches of its builds. The block of
a context is a union of bytes and words; the default build reads the words of a block in place
and lets the rolling schedule overwrite them. The order of the bytes of a word in memory is a
parameter.

* `transformSchedule_eq`: a schedule of 16 or of 64 words gives one step of the standard.
* `Absorbs.update`: what a context holds of the bytes it was fed, in any pieces.
* `Absorbs.final`: the digest depends on these bytes only, not on the build.
* `qpHash_eq`: below `2 ^ 32` bytes it is the hash function of the standard.
-/

namespace C0PQLink.NanoPQ

open Foundation

open Fips180 (HashValue)

/-- The switches `QP_ABLATION_*` that a build may set. -/
structure Ablation where
  fullAddress : Bool
  fullSeededContext : Bool
  fullHashDigest : Bool
  materializedState : Bool
  sha256W64 : Bool
  separateShaSchedule : Bool
  hmacBuffers : Bool
  deriving DecidableEq

/-- The build with no switch set. -/
def Ablation.default : Ablation where
  fullAddress := false
  fullSeededContext := false
  fullHashDigest := false
  materializedState := false
  sha256W64 := false
  separateShaSchedule := false
  hmacBuffers := false

/-! ## Words in memory -/

/-- How the processor keeps a `uint32_t` in four bytes. -/
structure WordLayout where
  store : UInt32 → Bytes
  load : Bytes → UInt32
  length_store : ∀ word, (store word).length = 4
  load_store : ∀ word, load (store word) = word

/-- The layout of the AVR and of the hosts. -/
def littleEndian : WordLayout where
  store word := storeLittleEndian word.toUInt64 4
  load bytes := (loadLittleEndian bytes 4).toUInt32
  length_store word := length_storeLittleEndian word.toUInt64 4
  load_store word := by
    have hstore : storeLittleEndian word.toUInt64 4 = leBytes 4 word.toUInt64.toNat :=
      storeLittleEndian_eq (by omega)
    have hload : (loadLittleEndian (leBytes 4 word.toUInt64.toNat) 4).toNat
        = leNat ((leBytes 4 word.toUInt64.toNat).take 4) := toNat_loadLittleEndian (by omega)
    have hlt := word.toNat_lt
    rw [List.take_of_length_le (by simp), leNat_leBytes, UInt32.toNat_toUInt64] at hload
    apply UInt32.toNat_inj.mp
    rw [UInt64.toNat_toUInt32, hstore, UInt32.toNat_toUInt64, hload]
    omega

/-- The words of a buffer. -/
def wordsOf (layout : WordLayout) (bytes : Bytes) : List UInt32 :=
  (fullBlocks 4 bytes).map layout.load

def bytesOf (layout : WordLayout) (words : List UInt32) : Bytes :=
  (words.map layout.store).flatten

/-! ## The compression -/

def qpK : List UInt32 :=
  [0x428a2f98, 0x71374491, 0xb5c0fbcf, 0xe9b5dba5, 0x3956c25b, 0x59f111f1, 0x923f82a4,
    0xab1c5ed5, 0xd807aa98, 0x12835b01, 0x243185be, 0x550c7dc3, 0x72be5d74, 0x80deb1fe,
    0x9bdc06a7, 0xc19bf174, 0xe49b69c1, 0xefbe4786, 0x0fc19dc6, 0x240ca1cc, 0x2de92c6f,
    0x4a7484aa, 0x5cb0a9dc, 0x76f988da, 0x983e5152, 0xa831c66d, 0xb00327c8, 0xbf597fc7,
    0xc6e00bf3, 0xd5a79147, 0x06ca6351, 0x14292967, 0x27b70a85, 0x2e1b2138, 0x4d2c6dfc,
    0x53380d13, 0x650a7354, 0x766a0abb, 0x81c2c92e, 0x92722c85, 0xa2bfe8a1, 0xa81a664b,
    0xc24b8b70, 0xc76c51a3, 0xd192e819, 0xd6990624, 0xf40e3585, 0x106aa070, 0x19a4c116,
    0x1e376c08, 0x2748774c, 0x34b0bcb5, 0x391c0cb3, 0x4ed8aa4a, 0x5b9cca4f, 0x682e6ff3,
    0x748f82ee, 0x78a5636f, 0x84c87814, 0x8cc70208, 0x90befffa, 0xa4506ceb, 0xbef9a3f7,
    0xc67178f2]

def rotr32 (x n : UInt32) : UInt32 := (x >>> n) ||| (x <<< (32 - n))

def readBe32 (p : Bytes) : UInt32 :=
  ((byteAt p 0).toUInt32 <<< 24) ||| ((byteAt p 1).toUInt32 <<< 16)
    ||| ((byteAt p 2).toUInt32 <<< 8) ||| (byteAt p 3).toUInt32

/-- A turn of the first loop of `transform_schedule`, with `QP_ABLATION_SHA256_W64`. -/
def expandTurn (w : List UInt32) (i : Nat) : List UInt32 :=
  let w15 := w.getD (i - 15) 0
  let w2 := w.getD (i - 2) 0
  let s0 := rotr32 w15 7 ^^^ rotr32 w15 18 ^^^ (w15 >>> 3)
  let s1 := rotr32 w2 17 ^^^ rotr32 w2 19 ^^^ (w2 >>> 10)
  w.set i (w.getD (i - 16) 0 + s0 + w.getD (i - 7) 0 + s1)

def expandSchedule (w : List UInt32) : List UInt32 := (List.range' 16 48).foldl expandTurn w

/-- The schedule part of a turn in the other builds. -/
def rollSchedule (w : List UInt32) (i : Nat) : List UInt32 :=
  if i ≥ 16 then
    let w15 := w.getD ((i + 1) &&& 15) 0
    let w2 := w.getD ((i + 14) &&& 15) 0
    let s0 := rotr32 w15 7 ^^^ rotr32 w15 18 ^^^ (w15 >>> 3)
    let s1 := rotr32 w2 17 ^^^ rotr32 w2 19 ^^^ (w2 >>> 10)
    w.set (i &&& 15) (w.getD (i &&& 15) 0 + (s0 + w.getD ((i + 9) &&& 15) 0 + s1))
  else w

/-- The rest of a turn, on the words `a` to `h`. -/
def scheduleRound (v : HashValue) (i : Nat) (word : UInt32) : HashValue :=
  let s1 := rotr32 v.e 6 ^^^ rotr32 v.e 11 ^^^ rotr32 v.e 25
  let ch := (v.e &&& v.f) ^^^ (~~~v.e &&& v.g)
  let t1 := v.h + s1 + ch + qpK.getD i 0 + word
  let s0 := rotr32 v.a 2 ^^^ rotr32 v.a 13 ^^^ rotr32 v.a 22
  let maj := (v.a &&& v.b) ^^^ (v.a &&& v.c) ^^^ (v.b &&& v.c)
  let t2 := s0 + maj
  { a := t1 + t2, b := v.a, c := v.b, d := v.c, e := v.d + t1, f := v.e, g := v.f, h := v.g }

def scheduleTurn (build : Ablation) (s : TransformState) (i : Nat) : TransformState :=
  if build.sha256W64 then
    { schedule := s.schedule, words := scheduleRound s.words i (s.schedule.getD i 0) }
  else
    let w := rollSchedule s.schedule i
    { schedule := w, words := scheduleRound s.words i (w.getD (i &&& 15) 0) }

/-- The state and the schedule after `transform_schedule`. -/
def transformSchedule (build : Ablation) (state : HashValue) (w : List UInt32) :
    TransformState :=
  let w := if build.sha256W64 then expandSchedule w else w
  let s := (List.range 64).foldl (scheduleTurn build) ⟨w, state⟩
  { schedule := s.schedule
    words :=
      { a := state.a + s.words.a, b := state.b + s.words.b, c := state.c + s.words.c
        d := state.d + s.words.d, e := state.e + s.words.e, f := state.f + s.words.f
        g := state.g + s.words.g, h := state.h + s.words.h } }

/-! ## Contexts -/

/-- The union is the bytes of `block`; `blockLen` is a `uint8_t` that never exceeds 64. -/
structure QpSha256Ctx where
  block : Bytes
  state : HashValue
  totalBytes : UInt32
  blockLen : Nat
  deriving DecidableEq

/-- The number of words of the local array `w`. -/
def scheduleWords (build : Ablation) : Nat := if build.sha256W64 then 64 else 16

/-- The words of a block in the local array `w`. -/
def localSchedule (build : Ablation) (block : Bytes) : List UInt32 :=
  (List.range 16).foldl (fun w i => w.set i (readBe32 (slice block (4 * i) 4)))
    (List.replicate (scheduleWords build) 0)

/-- The words of a block in its own place. -/
def inPlaceSchedule (layout : WordLayout) (block : Bytes) : Bytes :=
  (List.range 16).foldl (fun block i =>
    writeAt block (4 * i) (layout.store (readBe32 (slice block (4 * i) 4)))) block

section

variable (build : Ablation) (layout : WordLayout)

def transform (ctx : QpSha256Ctx) : QpSha256Ctx :=
  if build.sha256W64 || build.separateShaSchedule then
    { ctx with state := (transformSchedule build ctx.state (localSchedule build ctx.block)).words }
  else
    let words := wordsOf layout (inPlaceSchedule layout ctx.block)
    let s := transformSchedule build ctx.state words
    { ctx with state := s.words, block := bytesOf layout s.schedule }

def initialState : HashValue :=
  ⟨0x6a09e667, 0xbb67ae85, 0x3c6ef372, 0xa54ff53a, 0x510e527f, 0x9b05688c, 0x1f83d9ab,
    0x5be0cd19⟩

/-- The block keeps what it held. -/
def qpSha256Init (ctx : QpSha256Ctx) : QpSha256Ctx :=
  { ctx with state := initialState, totalBytes := 0, blockLen := 0 }

/-- The hash state after a block of the seed and 48 zero bytes. -/
def qpSha256Fips205Seed (pkSeed : Block 16) : HashValue :=
  let w := (List.range 4).foldl (fun w i => w.set i (readBe32 (slice pkSeed.val (4 * i) 4)))
    (List.replicate (scheduleWords build) 0)
  let w := (List.range' 4 12).foldl (fun w i => w.set i 0) w
  (transformSchedule build initialState w).words

/-- A turn of `qp_sha256_update`, which copies `piece`. -/
def updateTurn (ctx : QpSha256Ctx) (piece : Bytes) : QpSha256Ctx :=
  let ctx := { ctx with
    block := writeAt ctx.block ctx.blockLen piece
    blockLen := ctx.blockLen + piece.length
    totalBytes := ctx.totalBytes + UInt32.ofNat piece.length }
  if ctx.blockLen = 64 then { transform build layout ctx with blockLen := 0 } else ctx

/-- At most `turns` turns. -/
def updateLoop : Nat → QpSha256Ctx → Bytes → QpSha256Ctx
  | 0, ctx, _ => ctx
  | turns + 1, ctx, data =>
    if data.length ≠ 0 then
      let room := 64 - ctx.blockLen
      let take := if data.length < room then data.length else room
      updateLoop turns (updateTurn build layout ctx (data.take take)) (data.drop take)
    else ctx

/-- Each turn copies at least one byte. -/
def qpSha256Update (ctx : QpSha256Ctx) (data : Bytes) : QpSha256Ctx :=
  updateLoop build layout data.length ctx data

/-- The bytes 56 to 63 of the last block. -/
def lengthField (totalBytes : UInt32) : Bytes :=
  let lowBits := totalBytes <<< 3
  let highBits := totalBytes >>> 29
  [(highBits >>> 24).toUInt8, (highBits >>> 16).toUInt8, (highBits >>> 8).toUInt8,
    highBits.toUInt8, (lowBits >>> 24).toUInt8, (lowBits >>> 16).toUInt8,
    (lowBits >>> 8).toUInt8, lowBits.toUInt8]

def finalTransform (ctx : QpSha256Ctx) : QpSha256Ctx :=
  let field := lengthField ctx.totalBytes
  let ctx := { ctx with
    block := writeAt ctx.block ctx.blockLen [0x80]
    blockLen := ctx.blockLen + 1 }
  let ctx :=
    if ctx.blockLen > 56 then
      let block := writeAt ctx.block ctx.blockLen (List.replicate (64 - ctx.blockLen) 0)
      { transform build layout { ctx with block, blockLen := 64 } with blockLen := 0 }
    else ctx
  let block := writeAt ctx.block ctx.blockLen (List.replicate (56 - ctx.blockLen) 0)
  transform build layout { ctx with block := writeAt block 56 field, blockLen := 56 }

end

/-- The first words of the state, as `write_digest_words` stores them. -/
def writeDigestWords (ctx : QpSha256Ctx) (words : Nat) : Bytes :=
  (List.range words).flatMap fun i =>
    let word := [ctx.state.a, ctx.state.b, ctx.state.c, ctx.state.d, ctx.state.e, ctx.state.f,
      ctx.state.g, ctx.state.h].getD i 0
    [(word >>> 24).toUInt8, (word >>> 16).toUInt8, (word >>> 8).toUInt8, word.toUInt8]

theorem length_writeDigestWords (ctx : QpSha256Ctx) (words : Nat) :
    (writeDigestWords ctx words).length = 4 * words := by
  simp [writeDigestWords]
  omega

section

variable (build : Ablation) (layout : WordLayout)

def qpSha256Final (ctx : QpSha256Ctx) : Block 32 :=
  ⟨writeDigestWords (finalTransform build layout ctx) 8, length_writeDigestWords _ 8⟩

def qpSha256Final16 (ctx : QpSha256Ctx) : Block 16 :=
  ⟨writeDigestWords (finalTransform build layout ctx) 4, length_writeDigestWords _ 4⟩

/-- `ctx` is the local context before its initialization. -/
def qpSha256 (ctx : QpSha256Ctx) (data : Bytes) : Block 32 :=
  qpSha256Final build layout (qpSha256Update build layout (qpSha256Init ctx) data)

end

/-! ## The schedule -/

theorem readBe32_eq (p : Bytes) : readBe32 p = load32BE p := rfl

theorem scheduleRound_eq {block : Bytes} {v : HashValue} {i : Nat} (hi : i < 64) {word : UInt32}
    (hword : word = Fips180.schedule block i) :
    scheduleRound v i word = Fips180.round block v i := by
  have hconstant := roundConstants_eq i hi
  rw [Fips180.round, ← hword, ← hconstant]
  rfl

theorem rollSchedule_eq (w : List UInt32) (i : Nat) : rollSchedule w i = nextSchedule w i := by
  rw [rollSchedule, nextSchedule]
  split
  · rename_i hi
    have hfirst : (i + 1) &&& 15 = (i - 15) &&& 15 := by
      rw [and_15, and_15]
      omega
    have hlast : (i + 14) &&& 15 = (i - 2) &&& 15 := by
      rw [and_15, and_15]
      omega
    have hmiddle : (i + 9) &&& 15 = (i - 7) &&& 15 := by
      rw [and_15, and_15]
      omega
    rw [hfirst, hlast, hmiddle]
    rfl
  · rfl

theorem length_expandSchedule (w : List UInt32) : (expandSchedule w).length = w.length := by
  rw [expandSchedule]
  generalize List.range' 16 48 = turns
  induction turns generalizing w with
  | nil => rfl
  | cons i turns ih => rw [List.foldl_cons, ih, expandTurn, List.length_set]

theorem expandTurn_word {block : Bytes} {w : List UInt32} {i : Nat} (hi : 16 ≤ i)
    (hlength : i < w.length) (hwords : ∀ t < i, w.getD t 0 = Fips180.schedule block t) :
    ∀ t < i + 1, (expandTurn w i).getD t 0 = Fips180.schedule block t := by
  intro t ht
  rw [expandTurn, List.getD_eq_getElem?_getD]
  rcases Nat.lt_or_ge t i with hlt | hge
  · rw [List.getElem?_set_ne (by omega), ← List.getD_eq_getElem?_getD]
    exact hwords t hlt
  · have heq : t = i := by omega
    have hfips : Fips180.schedule block i
        = Fips180.smallSigma1 (Fips180.schedule block (i - 2)) + Fips180.schedule block (i - 7)
          + Fips180.smallSigma0 (Fips180.schedule block (i - 15))
          + Fips180.schedule block (i - 16) := by
      rw [Fips180.schedule, if_neg (by omega)]
    rw [heq, List.getElem?_set_self hlength, Option.getD_some, hwords (i - 15) (by omega),
      hwords (i - 2) (by omega), hwords (i - 16) (by omega), hwords (i - 7) (by omega), hfips]
    change _ + Fips180.smallSigma0 _ + _ + Fips180.smallSigma1 _ = _
    ac_rfl

/-- The array `w[64]` after the first loop. -/
theorem expandSchedule_word {block : Bytes} {w : List UInt32} (hlength : w.length = 64)
    (hwords : ∀ t < 16, w.getD t 0 = Fips180.schedule block t) :
    ∀ t < 64, (expandSchedule w).getD t 0 = Fips180.schedule block t := by
  have hloop : ((List.range 48).foldl (fun w n => expandTurn w (16 + n)) w).length = 64
      ∧ ∀ t < 16 + 48, ((List.range 48).foldl (fun w n => expandTurn w (16 + n)) w).getD t 0
        = Fips180.schedule block t := by
    refine foldl_range_invariant
      (fun n (w : List UInt32) => w.length = 64
        ∧ ∀ t < 16 + n, w.getD t 0 = Fips180.schedule block t) ⟨hlength, hwords⟩ ?_
    intro n hn w ⟨hw, hknown⟩
    have hlt : 16 + n < w.length := by omega
    refine ⟨?_, expandTurn_word (Nat.le_add_right 16 n) hlt hknown⟩
    rw [expandTurn, List.length_set, hw]
  have hturns : List.range' 16 48 = (List.range 48).map fun n => 16 + n :=
    List.range'_eq_map_range
  rw [expandSchedule, hturns, List.foldl_map]
  exact hloop.2

/-- What the schedule has to hold before turn `i`, to give the words of a block. -/
def Supplies (build : Ablation) (block : Bytes) (w : List UInt32) (i : Nat) : Prop :=
  if build.sha256W64 then ∀ t < 64, w.getD t 0 = Fips180.schedule block t
  else Window block w i

theorem scheduleTurn_eq {build : Ablation} {block : Bytes} {s : TransformState} {i : Nat}
    (hi : i < 64) (hsupplies : Supplies build block s.schedule i) :
    (scheduleTurn build s i).words = Fips180.round block s.words i
      ∧ Supplies build block (scheduleTurn build s i).schedule (i + 1) := by
  rw [Supplies] at hsupplies ⊢
  rw [scheduleTurn]
  split at hsupplies
  · rename_i hwide
    rw [if_pos hwide, if_pos hwide]
    exact ⟨scheduleRound_eq hi (hsupplies i hi), hsupplies⟩
  · rename_i hrolling
    have hword := hsupplies.next_word
    rw [← and_15] at hword
    rw [if_neg hrolling, if_neg hrolling, rollSchedule_eq]
    exact ⟨scheduleRound_eq hi hword, hsupplies.next⟩

/-- The first sixteen words of a schedule of the length that the build uses. -/
structure Loaded (build : Ablation) (block : Bytes) (w : List UInt32) : Prop where
  length_eq : w.length = scheduleWords build
  word : ∀ t < 16, w.getD t 0 = Fips180.messageWord block t

theorem Loaded.supplies {build : Ablation} {block : Bytes} {w : List UInt32}
    (h : Loaded build block w) :
    Supplies build block (if build.sha256W64 then expandSchedule w else w) 0 := by
  have hlength := h.length_eq
  have hwords (t : Nat) (ht : t < 16) : w.getD t 0 = Fips180.schedule block t := by
    rw [h.word t ht, Fips180.schedule, if_pos ht]
  rw [scheduleWords] at hlength
  rw [Supplies]
  split at hlength
  · rename_i hwide
    rw [if_pos hwide, if_pos hwide]
    exact expandSchedule_word hlength hwords
  · rename_i hrolling
    rw [if_neg hrolling, if_neg hrolling]
    refine ⟨hlength, fun t ht _ => ?_⟩
    rw [Nat.mod_eq_of_lt (by omega)]
    exact hwords t (by omega)

/-- Both schedules give one step of the hash computation. -/
theorem transformSchedule_eq {build : Ablation} {block : Bytes} {w : List UInt32}
    (h : Loaded build block w) (state : HashValue) :
    (transformSchedule build state w).words = Fips180.compress state block := by
  generalize hstart : (if build.sha256W64 then expandSchedule w else w) = start
  have hready : Supplies build block start 0 := hstart ▸ h.supplies
  have hloop : ((List.range 64).foldl (scheduleTurn build) ⟨start, state⟩).words
        = (List.range 64).foldl (Fips180.round block) state
      ∧ Supplies build block ((List.range 64).foldl (scheduleTurn build) ⟨start, state⟩).schedule
        64 := by
    refine foldl_range_invariant
      (fun n (s : TransformState) => s.words = (List.range n).foldl (Fips180.round block) state
        ∧ Supplies build block s.schedule n) ⟨rfl, hready⟩ ?_
    intro n hn s ⟨hwords, hsupplies⟩
    obtain ⟨hround, hnext⟩ := scheduleTurn_eq hn hsupplies
    refine ⟨?_, hnext⟩
    rw [hround, hwords, List.range_succ, List.foldl_append]
    rfl
  rw [transformSchedule, Fips180.compress, hstart, hloop.1]
  simp only [UInt32.add_comm]

/-! ## One block -/

theorem getD_foldl_set (f : Nat → UInt32) (turns : List Nat) (w : List UInt32) {t : Nat}
    (ht : t < w.length) :
    (turns.foldl (fun w i => w.set i (f i)) w).getD t 0
      = if t ∈ turns then f t else w.getD t 0 := by
  induction turns generalizing w with
  | nil => rfl
  | cons i turns ih =>
    rw [List.foldl_cons, ih _ (by rwa [List.length_set])]
    rcases eq_or_ne t i with rfl | hne
    · simp [ht]
    · simp [hne, List.getElem?_set_ne hne.symm]

theorem length_foldl_set (f : Nat → UInt32) (turns : List Nat) (w : List UInt32) :
    (turns.foldl (fun w i => w.set i (f i)) w).length = w.length := by
  induction turns generalizing w with
  | nil => rfl
  | cons i turns ih => rw [List.foldl_cons, ih, List.length_set]

theorem scheduleWords_ge (build : Ablation) : 16 ≤ scheduleWords build := by
  rw [scheduleWords]
  split <;> omega

theorem localSchedule_loaded (build : Ablation) {block : Bytes} (h : block.length = 64) :
    Loaded build block (localSchedule build block) := by
  have hwords := scheduleWords_ge build
  refine ⟨?_, fun t ht => ?_⟩
  · rw [localSchedule, length_foldl_set, List.length_replicate]
  · rw [localSchedule, getD_foldl_set _ _ _ (by rw [List.length_replicate]; omega),
      if_pos (List.mem_range.mpr ht)]
    exact load32BE_eq_messageWord h ht

theorem wordsOf_bytesOf (layout : WordLayout) (words : List UInt32) :
    wordsOf layout (bytesOf layout words) = words := by
  have hblocks : ∀ block ∈ words.map layout.store, block.length = 4 := by
    intro block hmem
    obtain ⟨word, _, rfl⟩ := List.mem_map.mp hmem
    exact layout.length_store word
  have hfull := (fullBlocks_unique hblocks (show ([] : Bytes).length < 4 by decide)).1
  rw [List.append_nil] at hfull
  rw [wordsOf, bytesOf, hfull, List.map_map]
  exact List.map_id'' layout.load_store words

theorem length_bytesOf (layout : WordLayout) (words : List UInt32) :
    (bytesOf layout words).length = 4 * words.length := by
  induction words with
  | nil => rfl
  | cons word words ih =>
    rw [bytesOf, List.map_cons, List.flatten_cons, List.length_append, layout.length_store,
      ← bytesOf, ih, List.length_cons]
    omega

/-- A write behind the first part of a buffer. -/
theorem writeAt_append {first rest data : Bytes} {offset : Nat} (h : first.length = offset) :
    writeAt (first ++ rest) offset data = first ++ data ++ rest.drop data.length := by
  rw [writeAt, List.take_left' h, ← List.drop_drop, List.drop_left' h]

/-- Before turn `n` the first `n` words are in place and the rest of the block is as it was. -/
theorem inPlaceSchedule_eq (layout : WordLayout) {block : Bytes} (h : block.length = 64) :
    inPlaceSchedule layout block = bytesOf layout (loadSchedule block) := by
  have hloop : inPlaceSchedule layout block = bytesOf layout ((List.range 16).map fun i =>
      load32BE (slice block (4 * i) 4)) ++ block.drop (4 * 16) := by
    refine foldl_range_invariant (fun n (b : Bytes) => b = bytesOf layout ((List.range n).map
      fun i => load32BE (slice block (4 * i) 4)) ++ block.drop (4 * n)) rfl ?_
    intro n hn b hb
    generalize hdone : bytesOf layout ((List.range n).map fun i =>
      load32BE (slice block (4 * i) 4)) = done at hb
    have hlength : done.length = 4 * n := by
      rw [← hdone, length_bytesOf, List.length_map, List.length_range]
    have hread : slice b (4 * n) 4 = slice block (4 * n) 4 := by
      rw [hb, slice_append_right hlength.le, hlength, Nat.sub_self, slice, slice, List.drop_zero]
    have hstore := layout.length_store (load32BE (slice block (4 * n) 4))
    have hnext : bytesOf layout ((List.range (n + 1)).map fun i =>
        load32BE (slice block (4 * i) 4))
        = done ++ layout.store (load32BE (slice block (4 * n) 4)) := by
      rw [← hdone, bytesOf, bytesOf, List.range_succ]
      simp only [List.map_append, List.flatten_append, List.map_cons, List.map_nil,
        List.flatten_singleton]
    rw [hread, readBe32_eq, hnext, hb, writeAt_append hlength, hstore, List.drop_drop]
    rfl
  rw [hloop, List.drop_of_length_le (by omega), List.append_nil]
  rfl

theorem rolling_loaded {build : Ablation} (hrolling : ¬ build.sha256W64) {block : Bytes}
    (h : block.length = 64) : Loaded build block (loadSchedule block) := by
  refine ⟨?_, fun t ht => ?_⟩
  · rw [scheduleWords, if_neg hrolling, loadSchedule, List.length_map, List.length_range]
  · rw [← load32BE_eq_messageWord h ht]
    simp [loadSchedule, ht]

theorem length_scheduleTurn (build : Ablation) (s : TransformState) (i : Nat) :
    (scheduleTurn build s i).schedule.length = s.schedule.length := by
  rw [scheduleTurn, rollSchedule]
  split
  · rfl
  · split
    · exact List.length_set
    · rfl

theorem length_turns (build : Ablation) (s : TransformState) (turns : List Nat) :
    (turns.foldl (scheduleTurn build) s).schedule.length = s.schedule.length := by
  induction turns generalizing s with
  | nil => rfl
  | cons i turns ih => rw [List.foldl_cons, ih, length_scheduleTurn]

theorem length_schedule (build : Ablation) (state : HashValue) (w : List UInt32) :
    (transformSchedule build state w).schedule.length = w.length := by
  simp only [transformSchedule, length_turns]
  split
  · exact length_expandSchedule w
  · rfl

/-- A block becomes one step of the hash computation; what the block holds afterwards differs
with the build. -/
theorem transform_eq (build : Ablation) (layout : WordLayout) (ctx : QpSha256Ctx)
    (h : ctx.block.length = 64) :
    ∃ block : Bytes, block.length = 64 ∧ transform build layout ctx
      = { ctx with state := Fips180.compress ctx.state ctx.block, block } := by
  rw [transform]
  split
  · refine ⟨ctx.block, h, ?_⟩
    rw [transformSchedule_eq (localSchedule_loaded build h)]
  · rename_i hplace
    have hrolling : ¬ build.sha256W64 := fun hwide => hplace (by simp [hwide])
    have hloaded := rolling_loaded hrolling h
    have hlength := hloaded.length_eq
    rw [scheduleWords, if_neg hrolling] at hlength
    refine ⟨bytesOf layout
      (transformSchedule build ctx.state (loadSchedule ctx.block)).schedule, ?_, ?_⟩
    · rw [length_bytesOf, length_schedule, hlength]
    · rw [inPlaceSchedule_eq layout h, wordsOf_bytesOf]
      simp only [transformSchedule_eq hloaded]

/-! ## What a context holds -/

/-- The block and the state, as the other implementation keeps them. -/
def QpSha256Ctx.kept (ctx : QpSha256Ctx) : Sha256Ctx where
  state := ctx.state
  totalBytes := 0
  buffer := ctx.block
  buffered := ctx.blockLen

structure Absorbs (ctx : QpSha256Ctx) (message : Bytes) : Prop where
  kept : Holds ctx.kept message
  total : ctx.totalBytes = UInt32.ofNat message.length

theorem initialState_eq : initialState = Fips180.initialHash := sha256Init_state

/-- Whatever the block held before. -/
theorem qpSha256Init_absorbs {ctx : QpSha256Ctx} (h : ctx.block.length = 64) :
    Absorbs (qpSha256Init ctx) [] where
  kept := ⟨initialState_eq, rfl, rfl, h⟩
  total := rfl

section

variable {ctx : QpSha256Ctx} {message : Bytes}

theorem Absorbs.blockLen_lt (h : Absorbs ctx message) : ctx.blockLen < 64 := h.kept.buffered_lt

theorem Absorbs.length_block (h : Absorbs ctx message) : ctx.block.length = 64 :=
  h.kept.length_buffer

theorem Absorbs.total_append (h : Absorbs ctx message) (piece : Bytes) :
    ctx.totalBytes + UInt32.ofNat piece.length = UInt32.ofNat (message ++ piece).length := by
  rw [h.total, List.length_append, UInt32.ofNat_add]

theorem Absorbs.turn (build : Ablation) (layout : WordLayout) (h : Absorbs ctx message)
    {piece : Bytes} (hroom : ctx.blockLen + piece.length ≤ 64) :
    Absorbs (updateTurn build layout ctx piece) (message ++ piece) := by
  have htotal := h.total_append piece
  rw [updateTurn]
  simp only
  split
  · rename_i hfull
    obtain ⟨hblock, hlength⟩ := h.kept.write hroom
    have hroom64 : ctx.kept.buffered + piece.length = 64 := hfull
    rw [hroom64, List.take_of_length_le hlength.le] at hblock
    obtain ⟨block, hlast, htransform⟩ := transform_eq build layout
      { ctx with
        block := writeAt ctx.block ctx.blockLen piece
        blockLen := ctx.blockLen + piece.length
        totalBytes := ctx.totalBytes + UInt32.ofNat piece.length } hlength
    have hnext := h.kept.complete hroom64 hblock hlast
    rw [sha256Transform_eq hlength] at hnext
    rw [htransform]
    exact ⟨hnext, htotal⟩
  · rename_i hopen
    exact ⟨h.kept.extend (lt_of_le_of_ne hroom hopen), htotal⟩

theorem updateLoop_absorbs (build : Ablation) (layout : WordLayout) {turns : Nat}
    (h : Absorbs ctx message) {data : Bytes} (hturns : data.length ≤ turns) :
    Absorbs (updateLoop build layout turns ctx data) (message ++ data) := by
  induction turns generalizing ctx message data with
  | zero =>
    have hnil : data = [] := List.eq_nil_of_length_eq_zero (by omega)
    rw [hnil, List.append_nil]
    exact h
  | succ turns ih =>
    have hlt := h.blockLen_lt
    rw [updateLoop]
    split
    · rename_i hpos
      simp only
      generalize htake : (if data.length < 64 - ctx.blockLen then data.length
        else 64 - ctx.blockLen) = take
      have htaken : 0 < take ∧ take ≤ 64 - ctx.blockLen ∧ take ≤ data.length := by
        rw [← htake]
        split <;> omega
      have hpiece : (data.take take).length = take := by
        rw [List.length_take]
        omega
      have hturn : Absorbs (updateTurn build layout ctx (data.take take))
          (message ++ data.take take) := h.turn build layout (by omega)
      have hrest : (data.drop take).length ≤ turns := by
        rw [List.length_drop]
        omega
      have hnext := ih hturn hrest
      rw [List.append_assoc, List.take_append_drop] at hnext
      exact hnext
    · rename_i hzero
      rw [List.eq_nil_of_length_eq_zero (not_not.mp hzero), List.append_nil]
      exact h

theorem Absorbs.update (build : Ablation) (layout : WordLayout) (h : Absorbs ctx message)
    (data : Bytes) : Absorbs (qpSha256Update build layout ctx data) (message ++ data) :=
  updateLoop_absorbs build layout h (Nat.le_refl data.length)

theorem Absorbs.updates (build : Ablation) (layout : WordLayout) (h : Absorbs ctx message)
    (pieces : List Bytes) :
    Absorbs (pieces.foldl (qpSha256Update build layout) ctx) (message ++ pieces.flatten) := by
  induction pieces generalizing ctx message with
  | nil =>
    rw [List.flatten_nil, List.append_nil]
    exact h
  | cons piece pieces ih =>
    rw [List.flatten_cons, ← List.append_assoc]
    exact ih (h.update build layout piece)

end

/-! ## The digest -/

/-- The blocks of the padding, behind the bytes `rest` of an open block. -/
def lastBlocks (rest field : Bytes) : List Bytes :=
  if rest.length ≤ 55 then
    [rest ++ [0x80] ++ List.replicate (55 - rest.length) 0 ++ field]
  else
    [rest ++ [0x80] ++ List.replicate (63 - rest.length) 0, List.replicate 56 0 ++ field]

/-- The hash value of a message with the length field that a counter of 32 bits gives. -/
def qpHashValue (message : Bytes) : HashValue :=
  (fullBlocks 64 message ++ lastBlocks (unfinished 64 message)
    (lengthField (UInt32.ofNat message.length))).foldl Fips180.compress Fips180.initialHash

/-- The hash function of all builds. -/
def qpHash (message : Bytes) : Block 32 := Fips180.digest (qpHashValue message)

theorem lengthField_eq (total : UInt32) : lengthField total = beBytes 8 (8 * total.toNat) := by
  have hlt := total.toNat_lt
  have hlow : (total <<< 3).toNat = 8 * total.toNat % 2 ^ 32 := by
    rw [UInt32.toNat_shiftLeft, Nat.shiftLeft_eq, Nat.mul_comm]
    rfl
  have hhigh : (total >>> 29).toNat = 8 * total.toNat / 2 ^ 32 := by
    rw [UInt32.toNat_shiftRight, Nat.shiftRight_eq_div_pow]
    change total.toNat / 2 ^ 29 = _
    omega
  have hsplit : lengthField total = store32BE (total >>> 29) ++ store32BE (total <<< 3) := rfl
  rw [hsplit, store32BE_eq, store32BE_eq, hlow, hhigh, show (2 : Nat) ^ 32 = 256 ^ 4 from rfl,
    beBytes_mod]
  exact (beBytes_add 4 4 (8 * total.toNat)).symm

theorem qpHash_eq {message : Bytes} (h : message.length < 2 ^ 32) :
    qpHash message = Fips180.sha256 message := by
  have hfield : lengthField (UInt32.ofNat message.length) = beBytes 8 (8 * message.length) := by
    rw [lengthField_eq, UInt32.toNat_ofNat', Nat.mod_eq_of_lt h]
  rw [qpHash, qpHashValue, Fips180.sha256, lastBlocks, hfield]
  split
  · rename_i hshort
    rw [Fips180.fullBlocks_pad_short hshort]
  · rename_i hlong
    rw [Fips180.fullBlocks_pad_long (not_le.mp hlong)]

theorem writeDigestWords_eq (ctx : QpSha256Ctx) :
    writeDigestWords ctx 8 = (Fips180.digest ctx.state).val := by
  simp only [Fips180.digest, Fips180.wordBytes, ← store32BE_eq]
  rfl

theorem writeDigestWords_take (ctx : QpSha256Ctx) :
    writeDigestWords ctx 4 = (writeDigestWords ctx 8).take 16 := rfl

section

variable {ctx : QpSha256Ctx} {message : Bytes}

theorem transform_state (build : Ablation) (layout : WordLayout) {ctx : QpSha256Ctx}
    (h : ctx.block.length = 64) :
    (transform build layout ctx).state = Fips180.compress ctx.state ctx.block := by
  obtain ⟨block, _, htransform⟩ := transform_eq build layout ctx h
  rw [htransform]

theorem length_transform (build : Ablation) (layout : WordLayout) {ctx : QpSha256Ctx}
    (h : ctx.block.length = 64) : (transform build layout ctx).block.length = 64 := by
  obtain ⟨block, hblock, htransform⟩ := transform_eq build layout ctx h
  rw [htransform]
  exact hblock

theorem Absorbs.length_final (build : Ablation) (layout : WordLayout) (h : Absorbs ctx message) :
    (finalTransform build layout ctx).block.length = 64 := by
  have hlt := h.blockLen_lt
  have hmarker : (writeAt ctx.block ctx.blockLen [0x80]).length = 64 := by
    rw [length_writeAt (by rw [h.length_block, List.length_singleton]; omega), h.length_block]
  have hzeros (block : Bytes) (len count : Nat) (hblock : block.length = 64)
      (hcount : len + count ≤ 64) : (writeAt block len (List.replicate count 0)).length = 64 := by
    rw [length_writeAt (by rw [hblock, List.length_replicate]; omega), hblock]
  have hlast (block : Bytes) (hblock : block.length = 64) :
      (writeAt block 56 (lengthField ctx.totalBytes)).length = 64 := by
    rw [length_writeAt (by rw [hblock]; rfl), hblock]
  rw [finalTransform]
  refine length_transform build layout (hlast _ ?_)
  split
  · rename_i hlong
    refine hzeros _ _ _ ?_ (by simp)
    exact length_transform build layout
      (hzeros _ _ _ hmarker (by simp only; omega))
  · rename_i hshort
    exact hzeros _ _ _ hmarker (by simp only at hshort ⊢; omega)

theorem Absorbs.finalState (build : Ablation) (layout : WordLayout) (h : Absorbs ctx message) :
    (finalTransform build layout ctx).state = qpHashValue message := by
  have hlt := h.blockLen_lt
  have hlength := h.length_block
  have htotal := h.total
  have hrest : ctx.block.take ctx.blockLen = unfinished 64 message := h.kept.buffer
  have hopen : (unfinished 64 message).length = ctx.blockLen := h.kept.buffered.symm
  have hstate : ctx.state = (fullBlocks 64 message).foldl Fips180.compress Fips180.initialHash :=
    h.kept.state
  have hfield : (lengthField ctx.totalBytes).length = 8 := rfl
  have hmarker (zeros : Bytes) :
      writeAt (writeAt ctx.block ctx.blockLen [0x80]) (ctx.blockLen + 1) zeros
        = writeAt ctx.block ctx.blockLen ([0x80] ++ zeros) :=
    writeAt_writeAt (by rw [List.length_singleton, hlength]; omega) rfl
  rw [qpHashValue, List.foldl_append, ← hstate, ← htotal, lastBlocks, hopen, finalTransform]
  simp only
  rcases Nat.lt_or_ge 55 ctx.blockLen with hlong | hshort
  · have hfirst : writeAt (writeAt ctx.block ctx.blockLen [0x80]) (ctx.blockLen + 1)
        (List.replicate (64 - (ctx.blockLen + 1)) 0)
        = unfinished 64 message ++ [0x80] ++ List.replicate (63 - ctx.blockLen) 0 := by
      rw [hmarker, writeAt_end (by simp [hlength]; omega), hrest, ← List.append_assoc]
      congr 2
      omega
    have hfirstLength : (unfinished 64 message ++ [0x80]
        ++ List.replicate (63 - ctx.blockLen) (0 : UInt8)).length = 64 := by
      simp only [List.length_append, List.length_singleton, List.length_replicate]
      omega
    have hsecond (buffer : Bytes) (hbuffer : buffer.length = 64) :
        writeAt (writeAt buffer 0 (List.replicate 56 0)) 56 (lengthField ctx.totalBytes)
          = List.replicate 56 0 ++ lengthField ctx.totalBytes := by
      rw [writeAt_writeAt (by simp [hbuffer]) (by simp), writeAt_end (by simp [hbuffer, hfield])]
      rfl
    rw [if_pos (show ctx.blockLen + 1 > 56 by omega),
      if_neg (show ¬ ctx.blockLen ≤ 55 by omega), hfirst]
    obtain ⟨block, hblock, htransform⟩ := transform_eq build layout
      { ctx with
        block := unfinished 64 message ++ [0x80] ++ List.replicate (63 - ctx.blockLen) 0
        blockLen := 64 } hfirstLength
    rw [htransform]
    simp only [Nat.sub_zero, hsecond block hblock, List.foldl_cons, List.foldl_nil]
    exact transform_state build layout rfl
  · have hblock : writeAt (writeAt (writeAt ctx.block ctx.blockLen [0x80]) (ctx.blockLen + 1)
        (List.replicate (56 - (ctx.blockLen + 1)) 0)) 56 (lengthField ctx.totalBytes)
        = unfinished 64 message ++ [0x80] ++ List.replicate (55 - ctx.blockLen) 0
          ++ lengthField ctx.totalBytes := by
      rw [hmarker, writeAt_writeAt (by simp [hlength]; omega) (by simp; omega),
        writeAt_end (by simp [hlength, hfield]; omega), hrest, ← List.append_assoc,
        ← List.append_assoc]
      congr 3
      omega
    have hblockLength : (unfinished 64 message ++ [0x80]
        ++ List.replicate (55 - ctx.blockLen) (0 : UInt8)
        ++ lengthField ctx.totalBytes).length = 64 := by
      simp only [List.length_append, List.length_singleton, List.length_replicate, hfield]
      omega
    rw [if_neg (show ¬ ctx.blockLen + 1 > 56 by omega), if_pos hshort]
    simp only [hblock, List.foldl_cons, List.foldl_nil]
    exact transform_state build layout hblockLength

theorem Absorbs.final (build : Ablation) (layout : WordLayout) (h : Absorbs ctx message) :
    qpSha256Final build layout ctx = qpHash message
      ∧ (qpSha256Final16 build layout ctx).val = (qpHash message).val.take 16 := by
  have hdigest : writeDigestWords (finalTransform build layout ctx) 8 = (qpHash message).val := by
    rw [writeDigestWords_eq, h.finalState, qpHash]
  refine ⟨Block.ext hdigest, ?_⟩
  rw [← hdigest, ← writeDigestWords_take]
  rfl

end

/-! ## The seeded state -/

/-- The padded seed of FIPS 205. -/
def seedBlock (pkSeed : Block 16) : Bytes := pkSeed.val ++ List.replicate 48 0

theorem length_seedBlock (pkSeed : Block 16) : (seedBlock pkSeed).length = 64 := by
  simp [seedBlock]

theorem seedWords_loaded (build : Ablation) (pkSeed : Block 16) :
    Loaded build (seedBlock pkSeed) ((List.range' 4 12).foldl (fun w i => w.set i 0)
      ((List.range 4).foldl (fun w i => w.set i (readBe32 (slice pkSeed.val (4 * i) 4)))
        (List.replicate (scheduleWords build) 0))) := by
  have hwords := scheduleWords_ge build
  have hlength := length_foldl_set (fun i => readBe32 (slice pkSeed.val (4 * i) 4))
    (List.range 4) (List.replicate (scheduleWords build) 0)
  rw [List.length_replicate] at hlength
  refine ⟨?_, fun t ht => ?_⟩
  · rw [length_foldl_set (fun _ => 0), hlength]
  · rw [← load32BE_eq_messageWord (length_seedBlock pkSeed) ht,
      getD_foldl_set (fun _ => 0) _ _ (by omega)]
    rcases Nat.lt_or_ge t 4 with hseed | hzero
    · rw [if_neg (by rw [List.mem_range'_1]; omega),
        getD_foldl_set _ _ _ (by rw [List.length_replicate]; omega),
        if_pos (List.mem_range.mpr hseed), seedBlock, slice_append_left (by simp; omega)]
      rfl
    · have hzeros : slice (seedBlock pkSeed) (4 * t) 4 = [0, 0, 0, 0] := by
        rw [seedBlock, slice_append_right (by simp; omega), Block.length_val, slice,
          List.drop_replicate, List.take_replicate, Nat.min_eq_left (by omega)]
        rfl
      rw [if_pos (by rw [List.mem_range'_1]; omega), hzeros]
      rfl

theorem qpSha256Fips205Seed_eq (build : Ablation) (pkSeed : Block 16) :
    qpSha256Fips205Seed build pkSeed
      = Fips180.compress Fips180.initialHash (seedBlock pkSeed) := by
  rw [qpSha256Fips205Seed, ← initialState_eq]
  exact transformSchedule_eq (seedWords_loaded build pkSeed) initialState

/-- A context that continues from the state of the seed. -/
theorem seeded_absorbs (build : Ablation) (pkSeed : Block 16) {block : Bytes}
    (h : block.length = 64) :
    Absorbs ⟨block, qpSha256Fips205Seed build pkSeed, 64, 0⟩ (seedBlock pkSeed) := by
  have hlength := length_seedBlock pkSeed
  have hblocks : ∀ b ∈ [seedBlock pkSeed], b.length = 64 := fun b hmem => by
    rw [List.mem_singleton.mp hmem, hlength]
  obtain ⟨hfull, hrest⟩ := fullBlocks_unique hblocks (show ([] : Bytes).length < 64 by decide)
  rw [List.flatten_singleton, List.append_nil] at hfull hrest
  refine ⟨⟨?_, ?_, ?_, h⟩, ?_⟩
  · rw [hfull]
    exact qpSha256Fips205Seed_eq build pkSeed
  · rw [hrest]
    rfl
  · rw [hrest]
    rfl
  · rw [hlength]
    rfl

theorem qpSha256_eq (build : Ablation) (layout : WordLayout) {ctx : QpSha256Ctx}
    (h : ctx.block.length = 64) (data : Bytes) : qpSha256 build layout ctx data = qpHash data :=
  (((qpSha256Init_absorbs h).update build layout data).final build layout).1

end C0PQLink.NanoPQ
