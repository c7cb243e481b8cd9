import C0PQLink.Fips205.Sha2128s
import C0PQLink.NanoPQ.SlhDsa

/-!
# Addresses, hashes and digits of the SLH-DSA verifier

In every build the address of a context stands for an address of the standard, and the hashes
under this address are those of the standard, over the hash function `qpHash`. The digits and
indices that are computed at their point of use are those of its lists.

* `Located.setLayer` and the others: what a write does to the address.
* `Located.hashF`, `Located.hashH`, `Located.chain`: the hashes.
* `wotsDigitAt_eq`, `forsIndexAt_eq`: the digits and the indices.
-/

namespace C0PQLink.NanoPQ.SlhDsa

open Foundation

open Fips205 (Adrs toByte sha2_128s)

/-! ## Addresses -/

/-- What a build stores for an address. -/
def stored (build : Ablation) (adrs : Adrs) : Bytes :=
  if build.fullAddress then adrs.bytes else adrs.compressed

/-- The context holds an address, and the hash state of a seed in both forms. -/
structure Located (build : Ablation) (pkSeed : Block 16) (ctx : SlhVerifyCtx) (adrs : Adrs) :
    Prop where
  address : ctx.address = stored build adrs
  context : Absorbs ctx.seededSha256 (seedBlock pkSeed)
  state : ctx.seededSha256State = qpSha256Fips205Seed build pkSeed

theorem writeBe32_eq (value : UInt32) : writeBe32 value = toByte value.toNat 4 :=
  store32BE_eq value

theorem writeBe64_eq (value : UInt64) : writeBe64 value = toByte value.toNat 8 :=
  store64BE_eq value

theorem toUInt8_eq (value : UInt32) : value.toUInt8 = UInt8.ofNat value.toNat := rfl

@[simp] theorem length_toByte (value n : Nat) : (toByte value n).length = n :=
  length_beBytes n value

/-- A write over whole fields. -/
theorem writeAt_fields (before olds news after : List Bytes) {place : Nat}
    (hplace : before.flatten.length = place)
    (hlength : olds.flatten.length = news.flatten.length) :
    writeAt (before ++ olds ++ after).flatten place news.flatten
      = (before ++ news ++ after).flatten := by
  rw [List.flatten_append, List.flatten_append, List.append_assoc, writeAt_append hplace,
    ← hlength, List.drop_left, List.flatten_append, List.flatten_append]

theorem writeAt_field (before : List Bytes) (old new : Bytes) (after : List Bytes) {place : Nat}
    (hplace : before.flatten.length = place) (hlength : old.length = new.length) :
    writeAt (before ++ [old] ++ after).flatten place new
      = (before ++ [new] ++ after).flatten := by
  have hfields := writeAt_fields before [old] [new] after hplace
    (by rw [List.flatten_singleton, List.flatten_singleton, hlength])
  rwa [List.flatten_singleton] at hfields

section

variable {build : Ablation} {pkSeed : Block 16} {ctx : SlhVerifyCtx} {adrs : Adrs}

theorem Located.write {adrs' : Adrs} {fullPlace place : Nat} {full compact : Bytes}
    (h : Located build pkSeed ctx adrs)
    (hfull : writeAt adrs.bytes fullPlace full = adrs'.bytes)
    (hcompact : writeAt adrs.compressed place compact = adrs'.compressed) :
    Located build pkSeed (setAddress build ctx fullPlace place full compact) adrs' := by
  refine ⟨?_, h.context, h.state⟩
  have haddress := h.address
  rw [stored] at haddress ⊢
  rw [setAddress]
  split at haddress
  · rename_i hbuild
    simp only [if_pos hbuild, haddress, hfull]
  · rename_i hbuild
    simp only [if_neg hbuild, haddress, hcompact]

theorem Located.zero (h : Located build pkSeed ctx adrs) :
    Located build pkSeed (addressZero build ctx) Adrs.zero := by
  refine ⟨?_, h.context, h.state⟩
  rw [addressZero, stored]
  split
  · rfl
  · rfl

theorem Located.setLayer (h : Located build pkSeed ctx adrs) (layer : UInt32) :
    Located build pkSeed (addressSetLayer build ctx layer)
      (adrs.setLayerAddress layer.toNat) := by
  refine h.write ?_ ?_
  · rw [writeBe32_eq, Adrs.bytes_eq, Adrs.bytes_eq]
    exact writeAt_field [] _ _ _ rfl (by simp)
  · rw [toUInt8_eq, Adrs.compressed_eq, Adrs.compressed_eq]
    exact writeAt_field [] _ _ _ rfl (by simp)

theorem Located.setTree (h : Located build pkSeed ctx adrs) (tree : UInt64) :
    Located build pkSeed (addressSetTree build ctx tree) (adrs.setTreeAddress tree.toNat) := by
  have htree : List.replicate 4 0 ++ toByte tree.toNat 8 = toByte tree.toNat 12 := by
    have hlt := tree.toNat_lt
    have hsplit : toByte tree.toNat 12 = toByte (tree.toNat / 256 ^ 8) 4 ++ toByte tree.toNat 8 :=
      beBytes_add 4 8 tree.toNat
    rw [hsplit, Nat.div_eq_of_lt (by omega)]
    rfl
  refine h.write ?_ ?_
  · rw [writeBe64_eq, htree, Adrs.bytes_eq, Adrs.bytes_eq]
    exact writeAt_field [toByte adrs.layer 4] _ _ _ (by simp) (by simp)
  · rw [writeBe64_eq, Adrs.compressed_eq, Adrs.compressed_eq]
    exact writeAt_field [[UInt8.ofNat adrs.layer]] _ _ _ (by simp) (by simp)

theorem Located.setTypeAndClear (h : Located build pkSeed ctx adrs) (type : UInt32) :
    Located build pkSeed (addressSetTypeAndClear build ctx type)
      (adrs.setTypeAndClear type.toNat) := by
  refine h.write ?_ ?_
  · rw [writeBe32_eq, Adrs.bytes_eq, Adrs.bytes_eq]
    exact writeAt_fields [toByte adrs.layer 4, toByte adrs.tree 12]
      [toByte adrs.type 4, toByte adrs.word1 4, toByte adrs.word2 4, toByte adrs.word3 4]
      [toByte type.toNat 4, toByte 0 4, toByte 0 4, toByte 0 4] [] (by simp) (by simp)
  · rw [toUInt8_eq, Adrs.compressed_eq, Adrs.compressed_eq]
    exact writeAt_fields [[UInt8.ofNat adrs.layer], toByte adrs.tree 8]
      [[UInt8.ofNat adrs.type], toByte adrs.word1 4, toByte adrs.word2 4, toByte adrs.word3 4]
      [[UInt8.ofNat type.toNat], toByte 0 4, toByte 0 4, toByte 0 4] [] (by simp) (by simp)

theorem Located.setTypeAndClearNotKeypair (h : Located build pkSeed ctx adrs) (type : UInt32) :
    Located build pkSeed (addressSetTypeAndClearNotKeypair build ctx type)
      ((adrs.setTypeAndClear type.toNat).setKeyPairAddress adrs.getKeyPairAddress) := by
  have htype : Located build pkSeed (setAddress build ctx 16 9 (writeBe32 type) [type.toUInt8])
      { adrs with type := type.toNat } := by
    refine h.write ?_ ?_
    · rw [writeBe32_eq, Adrs.bytes_eq, Adrs.bytes_eq]
      exact writeAt_field [toByte adrs.layer 4, toByte adrs.tree 12] _ _ _ (by simp) (by simp)
    · rw [toUInt8_eq, Adrs.compressed_eq, Adrs.compressed_eq]
      exact writeAt_field [[UInt8.ofNat adrs.layer], toByte adrs.tree 8] _ _ _ (by simp) (by simp)
  refine htype.write ?_ ?_
  · rw [Adrs.bytes_eq, Adrs.bytes_eq]
    exact writeAt_fields [toByte adrs.layer 4, toByte adrs.tree 12, toByte type.toNat 4,
      toByte adrs.word1 4] [toByte adrs.word2 4, toByte adrs.word3 4] [toByte 0 4, toByte 0 4] []
      (by simp) (by simp)
  · rw [Adrs.compressed_eq, Adrs.compressed_eq]
    exact writeAt_fields [[UInt8.ofNat adrs.layer], toByte adrs.tree 8, [UInt8.ofNat type.toNat],
      toByte adrs.word1 4] [toByte adrs.word2 4, toByte adrs.word3 4] [toByte 0 4, toByte 0 4] []
      (by simp) (by simp)

theorem Located.setKeypair (h : Located build pkSeed ctx adrs) (keypair : UInt32) :
    Located build pkSeed (addressSetKeypair build ctx keypair)
      (adrs.setKeyPairAddress keypair.toNat) := by
  refine h.write ?_ ?_
  · rw [writeBe32_eq, Adrs.bytes_eq, Adrs.bytes_eq]
    exact writeAt_field [toByte adrs.layer 4, toByte adrs.tree 12, toByte adrs.type 4] _ _ _
      (by simp) (by simp)
  · rw [writeBe32_eq, Adrs.compressed_eq, Adrs.compressed_eq]
    exact writeAt_field [[UInt8.ofNat adrs.layer], toByte adrs.tree 8, [UInt8.ofNat adrs.type]]
      _ _ _ (by simp) (by simp)

/-- `setTreeHeight` of the standard writes the same word. -/
theorem Located.setChainOrHeight (h : Located build pkSeed ctx adrs) (value : UInt32) :
    Located build pkSeed (addressSetChainOrHeight build ctx value)
      (adrs.setChainAddress value.toNat) := by
  refine h.write ?_ ?_
  · rw [writeBe32_eq, Adrs.bytes_eq, Adrs.bytes_eq]
    exact writeAt_field [toByte adrs.layer 4, toByte adrs.tree 12, toByte adrs.type 4,
      toByte adrs.word1 4] _ _ _ (by simp) (by simp)
  · rw [writeBe32_eq, Adrs.compressed_eq, Adrs.compressed_eq]
    exact writeAt_field [[UInt8.ofNat adrs.layer], toByte adrs.tree 8, [UInt8.ofNat adrs.type],
      toByte adrs.word1 4] _ _ _ (by simp) (by simp)

/-- `setTreeIndex` of the standard writes the same word. -/
theorem Located.setHashOrIndex (h : Located build pkSeed ctx adrs) (value : UInt32) :
    Located build pkSeed (addressSetHashOrIndex build ctx value)
      (adrs.setHashAddress value.toNat) := by
  refine h.write ?_ ?_
  · rw [writeBe32_eq, Adrs.bytes_eq, Adrs.bytes_eq]
    exact writeAt_field [toByte adrs.layer 4, toByte adrs.tree 12, toByte adrs.type 4,
      toByte adrs.word1 4, toByte adrs.word2 4] _ _ [] (by simp) (by simp)
  · rw [writeBe32_eq, Adrs.compressed_eq, Adrs.compressed_eq]
    exact writeAt_field [[UInt8.ofNat adrs.layer], toByte adrs.tree 8, [UInt8.ofNat adrs.type],
      toByte adrs.word1 4, toByte adrs.word2 4] _ _ [] (by simp) (by simp)

end

/-! ## Hashes -/

section

variable {build : Ablation} (layout : WordLayout) (unused : Block 64) {pkSeed : Block 16}
variable {ctx : SlhVerifyCtx} {adrs : Adrs}

/-- The function T_l of the standard, under the hash function of the builds. -/
abbrev tweakedHash (pkSeed : Block 16) (adrs : Adrs) (input : Bytes) : Bytes :=
  Fips205.tl sha2_128s qpHash pkSeed.val adrs input

theorem addressCompress_eq (adrs : Adrs) : addressCompress adrs.bytes = adrs.compressed := by
  have hbyte : [byteAt adrs.bytes 3] = slice adrs.bytes 3 1 := rfl
  rw [addressCompress, hbyte, ← slice_append_slice adrs.bytes 19 1 12, ← List.append_assoc]
  rfl

/-- The context of a hash, after the padded seed and the address. -/
theorem Located.hashStart (h : Located build pkSeed ctx adrs) :
    Absorbs (hashStart build layout unused ctx) (seedBlock pkSeed ++ adrs.compressed) := by
  have hseed : Absorbs (if build.fullSeededContext then ctx.seededSha256
      else { block := unused.val, state := ctx.seededSha256State, totalBytes := 64, blockLen := 0 })
      (seedBlock pkSeed) := by
    split
    · exact h.context
    · rw [h.state]
      exact seeded_absorbs build pkSeed unused.property
  have haddress : (if build.fullAddress then addressCompress ctx.address else ctx.address)
      = adrs.compressed := by
    rw [h.address, stored]
    split
    · exact addressCompress_eq adrs
    · rfl
  rw [SlhDsa.hashStart, haddress]
  exact hseed.update build layout adrs.compressed

theorem hashFinishN_eq (build : Ablation) {hash : QpSha256Ctx} {input : Bytes}
    (h : Absorbs hash (seedBlock pkSeed ++ adrs.compressed ++ input)) :
    (hashFinishN build layout hash).val = tweakedHash pkSeed adrs input := by
  obtain ⟨hfinal, hshort⟩ := h.final build layout
  have hinitial : (hashFinishN build layout hash).val
      = (qpHash (seedBlock pkSeed ++ adrs.compressed ++ input)).val.take 16 := by
    rw [hashFinishN]
    split
    · rw [hfinal]
      rfl
    · exact hshort
  rw [hinitial]
  rfl

theorem Located.hashF (h : Located build pkSeed ctx adrs) (input : Block 16) :
    (hashF build layout unused ctx input).val = tweakedHash pkSeed adrs input.val :=
  hashFinishN_eq layout build ((h.hashStart layout unused).update build layout input.val)

theorem Located.hashH (h : Located build pkSeed ctx adrs) (left right : Block 16) :
    (hashH build layout unused ctx left right).val
      = tweakedHash pkSeed adrs (left.val ++ right.val) := by
  have hstart := ((h.hashStart layout unused).update build layout left.val).update build layout
    right.val
  rw [List.append_assoc _ left.val] at hstart
  exact hashFinishN_eq layout build hstart

/-- Each turn replaces the hash address, whatever it was. -/
theorem Located.chainLoop {turns : List Nat} (hturns : ∀ j ∈ turns, j < 2 ^ 32)
    (h : ∃ w, Located build pkSeed ctx (adrs.setHashAddress w)) (value : Block 16) :
    let r := turns.foldl (fun (s : SlhVerifyCtx × Block 16) j =>
      let ctx := addressSetHashOrIndex build s.1 (UInt32.ofNat j)
      (ctx, SlhDsa.hashF build layout unused ctx s.2)) (ctx, value)
    r.2.val = turns.foldl (fun tmp j => tweakedHash pkSeed (adrs.setHashAddress j) tmp) value.val
      ∧ ∃ w, Located build pkSeed r.1 (adrs.setHashAddress w) := by
  induction turns generalizing ctx value with
  | nil => exact ⟨rfl, h⟩
  | cons j turns ih =>
    obtain ⟨w, hw⟩ := h
    have hj : (UInt32.ofNat j).toNat = j := by
      rw [UInt32.toNat_ofNat']
      exact Nat.mod_eq_of_lt (hturns j List.mem_cons_self)
    have hturn : Located build pkSeed (addressSetHashOrIndex build ctx (UInt32.ofNat j))
        (adrs.setHashAddress j) := by
      have hset := hw.setHashOrIndex (UInt32.ofNat j)
      rwa [hj] at hset
    have hrest := ih (fun i hi => hturns i (List.mem_cons_of_mem j hi)) ⟨j, hturn⟩
      (SlhDsa.hashF build layout unused (addressSetHashOrIndex build ctx (UInt32.ofNat j)) value)
    rw [hturn.hashF layout unused value] at hrest
    exact hrest

theorem Located.chain (h : Located build pkSeed ctx adrs) (value : Block 16) (digit : UInt8) :
    let r := SlhDsa.chain build layout unused ctx value digit (15 - digit)
    r.2.val = Fips205.chain sha2_128s qpHash value.val digit.toNat (15 - digit.toNat) pkSeed.val
        adrs
      ∧ ∃ w, Located build pkSeed r.1 (adrs.setHashAddress w) := by
  have hstop : (digit + (15 - digit)).toNat = 15 := by
    rw [UInt8.add_comm, UInt8.sub_add_cancel]
    rfl
  have hturns : ∀ j ∈ List.range' digit.toNat (15 - digit.toNat), j < 2 ^ 32 := by
    intro j hj
    have := List.mem_range'_1.mp hj
    omega
  have hloop := Located.chainLoop layout unused hturns ⟨adrs.word3, h⟩ value
  rw [SlhDsa.chain, hstop]
  exact hloop

end

/-! ## The digest of the message -/

theorem hMessage_eq (build : Ablation) (layout : WordLayout) (unused : Block 64)
    (ctx : SlhVerifyCtx) (randomizer : Block 16) (message : Bytes) {context : Bytes}
    (hcontext : context.length ≤ 255) :
    (hMessage build layout unused ctx randomizer message context).val.take 30
      = Fips205.hMsg sha2_128s qpHash randomizer.val ctx.pkSeed.val ctx.pkRoot.val
        (toByte 0 1 ++ toByte context.length 1 ++ context ++ message) := by
  have hinit : Absorbs (qpSha256Init ⟨unused.val, initialState, 0, 0⟩) [] :=
    qpSha256Init_absorbs unused.property
  have hdomain := (((hinit.update build layout randomizer.val).update build layout
    ctx.pkSeed.val).update build layout ctx.pkRoot.val).update build layout
    [0, UInt8.ofNat context.length]
  rw [hMessage]
  generalize qpSha256Update build layout _ [0, UInt8.ofNat context.length] = hash
    at hdomain ⊢
  have hoptional : Absorbs (if UInt8.ofNat context.length ≠ 0
      then qpSha256Update build layout hash context else hash)
      ([] ++ randomizer.val ++ ctx.pkSeed.val ++ ctx.pkRoot.val ++ [0, UInt8.ofNat context.length]
        ++ context) := by
    split
    · exact hdomain.update build layout context
    · rename_i hempty
      have hzero : context.length % 256 = 0 := UInt8.toNat_inj.mpr (not_not.mp hempty)
      obtain rfl := List.eq_nil_of_length_eq_zero (show context.length = 0 by omega)
      rw [List.append_nil]
      exact hdomain
  have hwhole := hoptional.update build layout message
  generalize qpSha256Update build layout _ message = hash at hwhole ⊢
  have hagain : Absorbs (qpSha256Init (finalTransform build layout hash)) [] :=
    qpSha256Init_absorbs (hwhole.length_final build layout)
  have hinner := (((hagain.update build layout randomizer.val).update build layout
    ctx.pkSeed.val).update build layout (qpSha256Final build layout hash).val).update build layout
    [0, 0, 0, 0]
  have hmask (seed : Bytes) :
      Fips205.mgf1 qpHash seed 30 = (qpHash (seed ++ toByte 0 4)).val.take 30 := by
    change ([0].flatMap fun c => (qpHash (seed ++ toByte c 4)).val).take 30 = _
    rw [List.flatMap_singleton]
  have hbytes : [0, UInt8.ofNat context.length] = toByte 0 1 ++ toByte context.length 1 := rfl
  have hcounter : [0, 0, 0, 0] = toByte 0 4 := rfl
  rw [(hinner.final build layout).1, (hwhole.final build layout).1, Fips205.hMsg, hbytes, hcounter]
  change _ = Fips205.mgf1 qpHash _ 30
  simp only [hmask, List.nil_append, List.append_assoc]

/-! ## Digits -/

theorem lowNibble_toNat (x : UInt8) : (x &&& 0x0f).toNat = x.toNat % 16 := by
  rw [UInt8.toNat_and]
  exact Nat.and_two_pow_sub_one_eq_mod x.toNat 4

theorem highNibble_toNat (x : UInt8) : (x >>> 4).toNat = x.toNat / 16 := by
  rw [UInt8.toNat_shiftRight]
  exact Nat.shiftRight_eq_div_pow x.toNat 4

theorem odd_iff (i : Nat) : i &&& 1 ≠ 0 ↔ i % 2 = 1 := by
  rw [Nat.and_one_is_mod]
  omega

/-- Bits of a number, from its quotient by a power of 256. -/
theorem div_two_pow_eq (value : Nat) {e bytes bits : Nat} (h : e = 8 * bytes + bits) :
    value / 2 ^ e = value / 256 ^ bytes / 2 ^ bits := by
  rw [h, Nat.pow_add, Nat.pow_mul, Nat.div_div_eq_div_mul]

/-- The nibble of a message that stands at a place. -/
def messageDigit (message : Bytes) (i : Nat) : Nat :=
  beNat message / 2 ^ (128 - (i + 1) * 4) % 2 ^ 4

theorem nibble_eq (message : Block 16) {i : Nat} (hi : i < 32) :
    (if i &&& 1 ≠ 0 then byteAt message.val (i >>> 1) &&& 0x0f
      else byteAt message.val (i >>> 1) >>> 4).toNat = messageDigit message.val i := by
  have hhalf : i >>> 1 = i / 2 := Nat.shiftRight_eq_div_pow i 1
  have hbyte : (byteAt message.val (i / 2)).toNat
      = beNat message.val / 256 ^ (16 - (i / 2 + 1)) % 256 := by
    have h := toNat_byteAt (show i / 2 < message.val.length by rw [Block.length_val]; omega)
    rwa [Block.length_val] at h
  rw [hhalf, messageDigit]
  split
  · rename_i hodd
    have hparity := (odd_iff i).mp hodd
    rw [lowNibble_toNat, hbyte, div_two_pow_eq (beNat message.val)
      (show 128 - (i + 1) * 4 = 8 * (16 - (i / 2 + 1)) + 0 by omega)]
    omega
  · rename_i heven
    have hparity := (odd_iff i).not.mp heven
    rw [highNibble_toNat, hbyte, div_two_pow_eq (beNat message.val)
      (show 128 - (i + 1) * 4 = 8 * (16 - (i / 2 + 1)) + 4 by omega)]
    omega

/-- What the checksum of a message counts. -/
def checksumValue (message : Bytes) (n : Nat) : Nat :=
  ((List.range n).map fun i => 15 - messageDigit message i).sum

theorem checksumValue_le (message : Bytes) (n : Nat) : checksumValue message n ≤ 15 * n := by
  induction n with
  | zero => exact Nat.le_refl 0
  | succ n ih =>
    rw [checksumValue, List.range_succ, List.map_append, List.sum_append, List.map_singleton,
      List.sum_singleton, ← checksumValue]
    omega

theorem wotsChecksum_toNat (message : Block 16) :
    (wotsChecksum message).toNat = checksumValue message.val 32 * 16 := by
  have hloop : ((List.range 32).foldl (fun (checksum : UInt16) i =>
      checksum + (15 : UInt16) - (if i &&& 1 ≠ 0 then byteAt message.val (i >>> 1) &&& 0x0f
        else byteAt message.val (i >>> 1) >>> 4).toUInt16) 0).toNat
      = checksumValue message.val 32 := by
    refine foldl_range_invariant
      (fun n (checksum : UInt16) => checksum.toNat = checksumValue message.val n) rfl ?_
    intro n hn checksum hchecksum
    have hle := checksumValue_le message.val n
    have hdigit := nibble_eq message hn
    have hsmall : messageDigit message.val n < 16 := Nat.mod_lt _ (by decide)
    have hnext : checksumValue message.val (n + 1)
        = checksumValue message.val n + (15 - messageDigit message.val n) := by
      rw [checksumValue, List.range_succ, List.map_append, List.sum_append, List.map_singleton,
        List.sum_singleton, ← checksumValue]
    rw [UInt16.toNat_sub, UInt16.toNat_add, UInt8.toNat_toUInt16, hdigit, hchecksum, hnext]
    change (2 ^ 16 - messageDigit message.val n
      + (checksumValue message.val n + 15) % 2 ^ 16) % 2 ^ 16 = _
    omega
  have hle := checksumValue_le message.val 32
  rw [wotsChecksum, UInt16.toNat_shiftLeft, hloop, Nat.shiftLeft_eq]
  change _ * 2 ^ 4 % 2 ^ 16 = _
  omega

theorem wotsDigits_eq (message : Block 16) :
    Fips205.wotsDigits sha2_128s message.val
      = (List.range 32).map (messageDigit message.val) ++ (List.range 3).map fun t =>
        checksumValue message.val 32 * 16 / 2 ^ (12 - 4 * t) % 16 := by
  have hle := checksumValue_le message.val 32
  have hmessage : Fips205.base2b message.val 4 32
      = (List.range 32).map (messageDigit message.val) := by
    rw [Fips205.base2b_eq (by rw [Block.length_val]), Block.length_val]
    rfl
  have hsum : (((List.range 32).map (messageDigit message.val)).map fun x => 15 - x).sum
      = checksumValue message.val 32 := by
    rw [List.map_map]
    rfl
  have hchecksum (value : Nat) (hvalue : value < 65536) : Fips205.base2b (toByte value 2) 4 3
      = (List.range 3).map fun t => value / 2 ^ (12 - 4 * t) % 16 := by
    have hbytes : beNat (toByte value 2) = value := beNat_beBytes_of_lt hvalue
    rw [Fips205.base2b_eq (by rw [length_toByte]; decide), length_toByte, hbytes]
    refine List.map_congr_left fun t ht => ?_
    have hlt := List.mem_range.mp ht
    have hplace : 8 * 2 - (t + 1) * 4 = 12 - 4 * t := by omega
    rw [hplace]
    rfl
  have hlgw : sha2_128s.lgw = 4 := rfl
  have hw : sha2_128s.w - 1 = 15 := by decide
  have hlen1 : sha2_128s.len1 = 32 := by decide
  have hlen2 : sha2_128s.len2 = 3 := by decide
  simp only [Fips205.wotsDigits, hlgw, hw, hlen1, hlen2, hmessage, hsum, Nat.reduceMul,
    Nat.reduceMod, Nat.reduceSub, Nat.reduceAdd, Nat.reduceDiv, Nat.reducePow]
  rw [hchecksum _ (by omega)]

/-- The digits at their point of use are those of the list. -/
theorem wotsDigitAt_eq (message : Block 16) {i : Nat} (hi : i < 35) :
    (wotsDigitAt message (wotsChecksum message) i).toNat
      = (Fips205.wotsDigits sha2_128s message.val).getD i 0 := by
  rw [wotsDigits_eq, List.getD_eq_getElem?_getD, wotsDigitAt]
  split
  · rename_i hmessage
    rw [nibble_eq message hmessage, List.getElem?_append_left (by simpa using hmessage),
      List.getElem?_map, List.getElem?_range hmessage]
    rfl
  · rename_i hchecksum
    have hlength : ((List.range 32).map (messageDigit message.val)).length = 32 := by simp
    have hplace : (UInt16.ofNat (12 - 4 * (i - 32))).toNat = 12 - 4 * (i - 32) := by
      rw [UInt16.toNat_ofNat']
      exact Nat.mod_eq_of_lt (by omega)
    rw [List.getElem?_append_right (by omega), hlength, List.getElem?_map,
      List.getElem?_range (by omega), UInt16.toNat_toUInt8, UInt16.toNat_and,
      UInt16.toNat_shiftRight, hplace, wotsChecksum_toNat, Nat.shiftRight_eq_div_pow]
    have hshift : (12 - 4 * (i - 32)) % 16 = 12 - 4 * (i - 32) := by omega
    have hmask (value : Nat) : (value &&& UInt16.toNat 15) % 2 ^ 8 = value % 16 := by
      have hand : value &&& UInt16.toNat 15 = value % 2 ^ 4 :=
        Nat.and_two_pow_sub_one_eq_mod value 4
      rw [hand]
      omega
    rw [hshift, hmask]
    rfl

/-! ## Indices -/

theorem forsIndexAt_eq {md : Bytes} (h : 21 ≤ md.length) {i : Nat} (hi : i < 14) :
    (forsIndexAt md i).toNat = (Fips205.base2b (slice md 0 21) 12 14).getD i 0 := by
  have hlength : (slice md 0 21).length = 21 := by
    rw [length_slice]
    omega
  have hbyte {k : Nat} (hk : k < 21) : (byteAt md k).toNat
      = beNat (slice md 0 21) / 256 ^ (20 - k) % 256 := by
    have hslice := toNat_byteAt (show k < (slice md 0 21).length by omega)
    rw [hlength] at hslice
    have hstep : 21 - (k + 1) = 20 - k := by omega
    rw [hstep] at hslice
    rw [← byteAt_take hk]
    exact hslice
  have hindex : (Fips205.base2b (slice md 0 21) 12 14).getD i 0
      = beNat (slice md 0 21) / 2 ^ (168 - (i + 1) * 12) % 2 ^ 12 := by
    rw [Fips205.base2b_eq (by rw [hlength]), hlength, List.getD_eq_getElem?_getD,
      List.getElem?_map, List.getElem?_range hi]
    rfl
  have hplace : (i * 12) >>> 3 = i * 12 / 8 := Nat.shiftRight_eq_div_pow _ 3
  have hfirst := hbyte (show i * 12 / 8 < 21 by omega)
  have hsecond := hbyte (show i * 12 / 8 + 1 < 21 by omega)
  have hfar : beNat (slice md 0 21) / 256 ^ (20 - i * 12 / 8)
      = beNat (slice md 0 21) / 256 ^ (20 - (i * 12 / 8 + 1)) / 256 := by
    rw [Nat.div_div_eq_div_mul, ← Nat.pow_succ]
    congr 2
    omega
  rw [hfar] at hfirst
  rw [hindex, forsIndexAt]
  simp only [hplace]
  split
  · rename_i heven
    have hparity : ¬ i % 2 = 1 := (odd_iff i).not.mp (not_not.mpr heven)
    rw [div_two_pow_eq (beNat (slice md 0 21))
      (show 168 - (i + 1) * 12 = 8 * (20 - (i * 12 / 8 + 1)) + 4 by omega)]
    generalize beNat (slice md 0 21) / 256 ^ (20 - (i * 12 / 8 + 1)) = value at hfirst hsecond ⊢
    have hhigh : ((byteAt md (i * 12 / 8)).toUInt16 <<< 4).toNat = value / 256 % 256 * 2 ^ 4 := by
      rw [UInt16.toNat_shiftLeft, UInt8.toNat_toUInt16, hfirst, Nat.shiftLeft_eq]
      exact Nat.mod_eq_of_lt (by simp; omega)
    rw [UInt16.toNat_or, hhigh, UInt8.toNat_toUInt16, highNibble_toNat, hsecond,
      or_eq_add_of_lt (by omega)]
    omega
  · rename_i hodd
    have hparity : i % 2 = 1 := (odd_iff i).mp hodd
    rw [div_two_pow_eq (beNat (slice md 0 21))
      (show 168 - (i + 1) * 12 = 8 * (20 - (i * 12 / 8 + 1)) + 0 by omega)]
    generalize beNat (slice md 0 21) / 256 ^ (20 - (i * 12 / 8 + 1)) = value at hfirst hsecond ⊢
    have hlow : ((byteAt md (i * 12 / 8)).toUInt16 &&& 0x0f).toNat = value / 256 % 256 % 16 := by
      rw [UInt16.toNat_and, UInt8.toNat_toUInt16, hfirst]
      exact Nat.and_two_pow_sub_one_eq_mod _ 4
    have hhigh : (((byteAt md (i * 12 / 8)).toUInt16 &&& 0x0f) <<< 8).toNat
        = value / 256 % 256 % 16 * 2 ^ 8 := by
      rw [UInt16.toNat_shiftLeft, hlow, Nat.shiftLeft_eq]
      exact Nat.mod_eq_of_lt (by simp; omega)
    rw [UInt16.toNat_or, hhigh, UInt8.toNat_toUInt16, hsecond, or_eq_add_of_lt (by omega)]
    omega

theorem readBeUint_toNat {input : Bytes} (h : input.length ≤ 8) :
    (readBeUint input).toNat = beNat input := by
  have hlt : beNat input < 256 ^ 8 :=
    lt_of_lt_of_le (beNat_lt input) (Nat.pow_le_pow_right (by decide) h)
  have hfold : (readBeUint input).toNat = beNat input % 2 ^ 64 := toNat_foldl_bytes input 0
  rw [hfold]
  exact Nat.mod_eq_of_lt hlt

/-- The index of a tree, of 54 bits. -/
theorem treeIndex_toNat {input : Bytes} (h : input.length = 7) :
    (readBeUint input &&& (((1 : UInt64) <<< 54) - 1)).toNat = beNat input % 2 ^ 54 := by
  rw [UInt64.toNat_and, readBeUint_toNat (by omega)]
  exact Nat.and_two_pow_sub_one_eq_mod (beNat input) 54

theorem leafIndex_toNat {input : Bytes} (h : input.length = 2) :
    ((readBeUint input).toUInt32 &&& 0x1ff).toNat = beNat input % 2 ^ 9 := by
  have hlt := beNat_lt input
  rw [h] at hlt
  rw [UInt32.toNat_and, UInt64.toNat_toUInt32, readBeUint_toNat (by omega),
    Nat.mod_eq_of_lt (by omega)]
  exact Nat.and_two_pow_sub_one_eq_mod (beNat input) 9

end C0PQLink.NanoPQ.SlhDsa
