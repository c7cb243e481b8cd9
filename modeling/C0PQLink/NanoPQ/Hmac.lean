import C0PQLink.NanoPQ.Sha256
import C0PQLink.Core.HkdfStream

/-!
# The compact HMAC

`qp_hmac_sha256_32` of `nanopq_secure_link/sha256.c`, on a memory that the key, the message and
the tag share. The default build keeps the inner digest where the tag goes, and reads the key a
second time after it is written; the other build has buffers of its own.

* `qpHmacSha256_eq`: what a call leaves in memory, for any places of the message.
* `compactHashes`: SHA-256 and HMAC of the NanoPQ firmware are those of their standards.
-/

namespace C0PQLink.NanoPQ

open Foundation

/-! ## Memory -/

abbrev ByteMemory := Nat → UInt8

def readBytes (memory : ByteMemory) (address length : Nat) : Bytes :=
  (List.range length).map fun i => memory (address + i)

def writeBytes (memory : ByteMemory) (address : Nat) (data : Bytes) : ByteMemory := fun i =>
  if address ≤ i ∧ i < address + data.length then byteAt data (i - address) else memory i

@[simp] theorem length_readBytes (memory : ByteMemory) (address length : Nat) :
    (readBytes memory address length).length = length := by
  simp [readBytes]

theorem readBytes_succ (memory : ByteMemory) (address length : Nat) :
    readBytes memory address (length + 1)
      = readBytes memory address length ++ [memory (address + length)] := by
  rw [readBytes, List.range_succ, List.map_append, ← readBytes]
  rfl

theorem readBytes_write (memory : ByteMemory) (address : Nat) (data : Bytes) :
    readBytes (writeBytes memory address data) address data.length = data := by
  refine List.ext_getElem (by simp) fun i _ hi => ?_
  have hin : address ≤ address + i ∧ address + i < address + data.length := by omega
  simp only [readBytes, writeBytes, List.getElem_map, List.getElem_range, if_pos hin,
    Nat.add_sub_cancel_left, byteAt, List.getD_eq_getElem?_getD, List.getElem?_eq_getElem hi,
    Option.getD_some]

/-- Bytes that a write does not reach. -/
theorem readBytes_disjoint (memory : ByteMemory) {address length start : Nat} {data : Bytes}
    (h : address + length ≤ start ∨ start + data.length ≤ address) :
    readBytes (writeBytes memory start data) address length = readBytes memory address length := by
  refine List.map_congr_left fun i hi => ?_
  have hi := List.mem_range.mp hi
  rw [writeBytes, if_neg (by omega)]

theorem writeBytes_write (memory : ByteMemory) (address : Nat) {x y : Bytes}
    (h : x.length = y.length) :
    writeBytes (writeBytes memory address x) address y = writeBytes memory address y := by
  funext i
  simp only [writeBytes, h]
  split
  · rfl
  · rfl

/-! ## The two builds -/

section

variable (build : Ablation) (layout : WordLayout)

/-- `hmac_prefix` for the key at an address. -/
def qpHmacPrefix (memory : ByteMemory) (ctx : QpSha256Ctx) (key : Nat) (padByte : UInt8) :
    QpSha256Ctx :=
  let ctx := qpSha256Init ctx
  let block := (List.range 32).foldl
    (fun block i => writeAt block i [memory (key + i) ^^^ padByte]) ctx.block
  let block := writeAt block 32 (List.replicate 32 padByte)
  transform build layout { ctx with block, totalBytes := 64 }

/-- The array `pad` of the build with buffers. -/
def padBuffer (memory : ByteMemory) (key : Nat) (padByte : UInt8) : Bytes :=
  (List.range 32).foldl (fun pad i => pad.set i (byteAt pad i ^^^ memory (key + i)))
    (List.replicate 64 padByte)

/-- The memory after the call. The arguments are addresses, and `ctx` is the local context
before its initialization. -/
def qpHmacSha256 (ctx : QpSha256Ctx) (memory : ByteMemory) (key message messageLen tag : Nat) :
    ByteMemory :=
  if build.hmacBuffers then
    let ctx := qpSha256Update build layout (qpSha256Init ctx) (padBuffer memory key 0x36)
    let ctx := qpSha256Update build layout ctx (readBytes memory message messageLen)
    let inner := qpSha256Final build layout ctx
    let ctx := qpSha256Init (finalTransform build layout ctx)
    let ctx := qpSha256Update build layout ctx (padBuffer memory key 0x5c)
    let ctx := qpSha256Update build layout ctx inner.val
    writeBytes memory tag (qpSha256Final build layout ctx).val
  else
    let ctx := qpHmacPrefix build layout memory ctx key 0x36
    let ctx := qpSha256Update build layout ctx (readBytes memory message messageLen)
    let memory := writeBytes memory tag (qpSha256Final build layout ctx).val
    let ctx := qpHmacPrefix build layout memory (finalTransform build layout ctx) key 0x5c
    let ctx := qpSha256Update build layout ctx (readBytes memory tag 32)
    writeBytes memory tag (qpSha256Final build layout ctx).val

end

/-! ## Pads -/

/-- The key block of HMAC under a pad byte. -/
def padKey (key : Bytes) (padByte : UInt8) : Bytes :=
  xorBytes (Rfc5869.paddedKey qpHash key) (List.replicate 64 padByte)

theorem padKey_eq {key : Bytes} (h : key.length = 32) (padByte : UInt8) :
    padKey key padByte = key.map (· ^^^ padByte) ++ List.replicate 32 padByte := by
  have hkey : Rfc5869.paddedKey qpHash key = key ++ List.replicate 32 0 := by
    rw [Rfc5869.paddedKey]
    simp [h]
  have hlength : (key ++ List.replicate 32 (0 : UInt8)).length = 64 := by simp [h]
  rw [padKey, hkey, ← map_xor_eq hlength, List.map_append, List.map_replicate,
    UInt8.zero_xor]

theorem length_padKey (key : Bytes) (padByte : UInt8) : (padKey key padByte).length = 64 := by
  rw [padKey, length_xorBytes, length_paddedKey, List.length_replicate, Nat.min_self]

/-- Before turn `n` the first `n` bytes of the key are in place. -/
theorem padBuffer_eq (memory : ByteMemory) (key : Nat) (padByte : UInt8) :
    padBuffer memory key padByte = padKey (readBytes memory key 32) padByte := by
  have hloop : padBuffer memory key padByte
      = (readBytes memory key 32).map (· ^^^ padByte) ++ List.replicate (64 - 32) padByte := by
    refine foldl_range_invariant (fun n (pad : Bytes) => pad
      = (readBytes memory key n).map (· ^^^ padByte) ++ List.replicate (64 - n) padByte) rfl ?_
    intro n hn pad hpad
    have hlength : ((readBytes memory key n).map (· ^^^ padByte)).length = n := by simp
    have hopen : List.replicate (64 - n) padByte
        = padByte :: List.replicate (64 - (n + 1)) padByte := by
      rw [← List.replicate_succ]
      congr 1
      omega
    have hbyte : byteAt pad n = padByte := by
      rw [hpad, byteAt_append_right hlength.le, hlength, Nat.sub_self, hopen]
      rfl
    rw [hbyte, hpad, hopen, List.set_append_right n _ hlength.le, hlength, Nat.sub_self,
      readBytes_succ, List.map_append, List.append_assoc, UInt8.xor_comm]
    rfl
  rw [hloop, padKey_eq (length_readBytes memory key 32)]

theorem hmacPrefix_block (memory : ByteMemory) (key : Nat) (padByte : UInt8) {block : Bytes}
    (h : block.length = 64) :
    writeAt ((List.range 32).foldl
        (fun block i => writeAt block i [memory (key + i) ^^^ padByte]) block) 32
        (List.replicate 32 padByte)
      = padKey (readBytes memory key 32) padByte := by
  have hloop : (List.range 32).foldl
        (fun block i => writeAt block i [memory (key + i) ^^^ padByte]) block
      = (readBytes memory key 32).map (· ^^^ padByte) ++ block.drop 32 := by
    refine foldl_range_invariant (fun n (b : Bytes) => b
      = (readBytes memory key n).map (· ^^^ padByte) ++ block.drop n) rfl ?_
    intro n hn b hb
    have hlength : ((readBytes memory key n).map (· ^^^ padByte)).length = n := by simp
    rw [hb, writeAt_append hlength, List.drop_drop, readBytes_succ, List.map_append]
    rfl
  have hlength : ((readBytes memory key 32).map (· ^^^ padByte)).length = 32 := by simp
  rw [hloop, padKey_eq (length_readBytes memory key 32), writeAt_append hlength,
    List.drop_drop, List.length_replicate, List.drop_of_length_le (by omega), List.append_nil]

/-! ## The digest -/

section

variable (build : Ablation) (layout : WordLayout)

theorem qpHmacPrefix_absorbs {ctx : QpSha256Ctx} (h : ctx.block.length = 64)
    (memory : ByteMemory) (key : Nat) (padByte : UInt8) :
    Absorbs (qpHmacPrefix build layout memory ctx key padByte)
      (padKey (readBytes memory key 32) padByte) := by
  have hblock := hmacPrefix_block memory key padByte h
  have hlength := length_padKey (readBytes memory key 32) padByte
  obtain ⟨block, hlast, htransform⟩ := transform_eq build layout
    { qpSha256Init ctx with
      block := padKey (readBytes memory key 32) padByte
      totalBytes := 64 } hlength
  have hfull : (qpSha256Init ctx).kept.buffered + (padKey (readBytes memory key 32) padByte).length
      = 64 := by rw [hlength]; rfl
  have hnone : padKey (readBytes memory key 32) padByte
      = unfinished 64 [] ++ padKey (readBytes memory key 32) padByte := by
    rw [unfinished_nil, List.nil_append]
  have hnext := (qpSha256Init_absorbs h).kept.complete hfull hnone hlast
  rw [sha256Transform_eq hlength, List.nil_append] at hnext
  have hinitial : qpHmacPrefix build layout memory ctx key padByte
      = transform build layout { qpSha256Init ctx with
        block := padKey (readBytes memory key 32) padByte
        totalBytes := 64 } := by
    rw [← hblock]
    rfl
  rw [hinitial, htransform]
  refine ⟨hnext, ?_⟩
  rw [hlength]
  rfl

theorem padBuffer_absorbs {ctx : QpSha256Ctx} (h : ctx.block.length = 64)
    (memory : ByteMemory) (key : Nat) (padByte : UInt8) :
    Absorbs (qpSha256Update build layout (qpSha256Init ctx) (padBuffer memory key padByte))
      (padKey (readBytes memory key 32) padByte) := by
  have hupdate := (qpSha256Init_absorbs h).update build layout (padBuffer memory key padByte)
  rw [List.nil_append, padBuffer_eq memory key padByte] at hupdate
  rw [padBuffer_eq memory key padByte]
  exact hupdate

/-- One of the two hashes of HMAC, and the context that it leaves. -/
theorem Absorbs.half {ctx : QpSha256Ctx} {pad : Bytes} (h : Absorbs ctx pad) (text : Bytes) :
    qpSha256Final build layout (qpSha256Update build layout ctx text) = qpHash (pad ++ text)
      ∧ (finalTransform build layout (qpSha256Update build layout ctx text)).block.length = 64 :=
  ⟨((h.update build layout text).final build layout).1,
    (h.update build layout text).length_final build layout⟩

/-- Both builds leave the HMAC where the tag goes, over the hash function of the code. -/
theorem qpHmacSha256_eq {ctx : QpSha256Ctx} (h : ctx.block.length = 64) (memory : ByteMemory)
    {key tag : Nat} (hkey : key + 32 ≤ tag ∨ tag + 32 ≤ key) (message messageLen : Nat) :
    qpHmacSha256 build layout ctx memory key message messageLen tag
      = writeBytes memory tag (Rfc5869.hmac qpHash (readBytes memory key 32)
        (readBytes memory message messageLen)).val := by
  have hhmac : Rfc5869.hmac qpHash (readBytes memory key 32) (readBytes memory message messageLen)
      = qpHash (padKey (readBytes memory key 32) 0x5c
        ++ (qpHash (padKey (readBytes memory key 32) 0x36
          ++ readBytes memory message messageLen)).val) := rfl
  rw [hhmac, qpHmacSha256]
  generalize readBytes memory message messageLen = text
  split
  · obtain ⟨hinner, hblock⟩ := (padBuffer_absorbs build layout h memory key 0x36).half
      build layout text
    obtain ⟨houter, _⟩ := (padBuffer_absorbs build layout hblock memory key 0x5c).half
      build layout (qpHash (padKey (readBytes memory key 32) 0x36 ++ text)).val
    simp only [hinner, houter]
  · obtain ⟨hinner, hblock⟩ := (qpHmacPrefix_absorbs build layout h memory key 0x36).half
      build layout text
    simp only [hinner]
    generalize hdigest : qpHash (padKey (readBytes memory key 32) 0x36 ++ text) = digest
    have hsame : readBytes (writeBytes memory tag digest.val) key 32 = readBytes memory key 32 :=
      readBytes_disjoint memory (by rw [Block.length_val]; exact hkey)
    have hread : readBytes (writeBytes memory tag digest.val) tag 32 = digest.val := by
      have hwritten := readBytes_write memory tag digest.val
      rwa [Block.length_val] at hwritten
    obtain ⟨houter, _⟩ := (qpHmacPrefix_absorbs build layout hblock
      (writeBytes memory tag digest.val) key 0x5c).half build layout digest.val
    rw [hsame] at houter
    rw [hread, houter, writeBytes_write memory tag (by simp only [Block.length_val])]

end

theorem hmac_qpHash {key text : Bytes} (hkey : key.length = 32)
    (htext : 64 + text.length < 2 ^ 32) :
    Rfc5869.hmac qpHash key text = Rfc5869.hmac Fips180.sha256 key text := by
  have hpadded : Rfc5869.paddedKey qpHash key = Rfc5869.paddedKey Fips180.sha256 key := by
    simp [Rfc5869.paddedKey, hkey]
  have hlength := length_paddedKey Fips180.sha256 key
  rw [Rfc5869.hmac, Rfc5869.hmac, hpadded, qpHash_eq, qpHash_eq]
  · simp only [List.length_append, length_xorBytes, hlength, Rfc5869.ipad, List.length_replicate,
      Nat.min_self]
    exact htext
  · simp only [List.length_append, length_xorBytes, hlength, Rfc5869.opad, List.length_replicate,
      Nat.min_self, Block.length_val]
    omega

/-- SHA-256 and HMAC of all builds are those of their standards as long as the hashed bytes are
below `2 ^ 32`, in any pieces; a state of the seed and the two passes of HMAC continue the same
hash function for any length. -/
theorem compactHashes (build : Ablation) (layout : WordLayout) :
    (∀ (ctx : QpSha256Ctx) (pieces : List Bytes), ctx.block.length = 64 →
      pieces.flatten.length < 2 ^ 32 →
      qpSha256Final build layout (pieces.foldl (qpSha256Update build layout) (qpSha256Init ctx))
          = Fips180.sha256 pieces.flatten
        ∧ (qpSha256Final16 build layout
            (pieces.foldl (qpSha256Update build layout) (qpSha256Init ctx))).val
          = (Fips180.sha256 pieces.flatten).val.take 16)
      ∧ (∀ (ctx : QpSha256Ctx) (data : Bytes), ctx.block.length = 64 → data.length < 2 ^ 32 →
        qpSha256 build layout ctx data = Fips180.sha256 data)
      ∧ (∀ (ctx : QpSha256Ctx) (pkSeed : Block 16) (pieces : List Bytes) (message : Bytes),
        ctx.block.length = 64 → ctx.state = qpSha256Fips205Seed build pkSeed →
        ctx.totalBytes = 64 → ctx.blockLen = 0 →
        message = pkSeed.val ++ List.replicate 48 0 ++ pieces.flatten →
        qpSha256Final build layout (pieces.foldl (qpSha256Update build layout) ctx)
            = qpSha256 build layout ctx message
          ∧ (qpSha256Final16 build layout (pieces.foldl (qpSha256Update build layout) ctx)).val
            = (qpSha256 build layout ctx message).val.take 16
          ∧ (message.length < 2 ^ 32 → qpSha256 build layout ctx message
            = Fips180.sha256 message))
      ∧ ∀ (ctx : QpSha256Ctx) (memory : ByteMemory) (key message messageLen tag : Nat),
        ctx.block.length = 64 → key + 32 ≤ tag ∨ tag + 32 ≤ key →
        qpHmacSha256 build layout ctx memory key message messageLen tag
            = writeBytes memory tag (Rfc5869.hmac (qpSha256 build layout ctx)
              (readBytes memory key 32) (readBytes memory message messageLen)).val
          ∧ (64 + messageLen < 2 ^ 32 →
            qpHmacSha256 build layout ctx memory key message messageLen tag
              = writeBytes memory tag (Rfc5869.hmac Fips180.sha256 (readBytes memory key 32)
                (readBytes memory message messageLen)).val) := by
  refine ⟨fun ctx pieces hblock hlength => ?_, fun ctx data hblock hlength => ?_,
    fun ctx pkSeed pieces message hblock hstate htotal hlen hmessage => ?_,
    fun ctx memory key message messageLen tag hblock hkey => ⟨?_, fun hlength => ?_⟩⟩
  · have hfinal := ((qpSha256Init_absorbs hblock).updates build layout pieces).final build layout
    rwa [List.nil_append, qpHash_eq hlength] at hfinal
  · rw [qpSha256_eq build layout hblock, qpHash_eq hlength]
  · have hctx : ctx = ⟨ctx.block, qpSha256Fips205Seed build pkSeed, 64, 0⟩ := by
      rw [← hstate, ← htotal, ← hlen]
    have hseeded := seeded_absorbs build pkSeed hblock
    rw [← hctx] at hseeded
    obtain ⟨hfinal, hfinal16⟩ := (hseeded.updates build layout pieces).final build layout
    rw [seedBlock, ← hmessage] at hfinal hfinal16
    rw [qpSha256_eq build layout hblock]
    exact ⟨hfinal, hfinal16, fun hlt => qpHash_eq hlt⟩
  · have hhash : qpSha256 build layout ctx = qpHash :=
      funext fun data => qpSha256_eq build layout hblock data
    rw [hhash]
    exact qpHmacSha256_eq build layout hblock memory hkey message messageLen
  · rw [qpHmacSha256_eq build layout hblock memory hkey message messageLen, hmac_qpHash]
    · exact length_readBytes memory key 32
    · rw [length_readBytes]
      exact hlength

end C0PQLink.NanoPQ
