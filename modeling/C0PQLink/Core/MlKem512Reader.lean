import C0PQLink.Core.MlKem512Sampling

/-!
# The streamed samplers

`sample_ntt_reader` draws three bytes at a time and gives out their two 12-bit numbers, over
which it keeps two counters, also from one call to the next. `sample_cbd` fills an array
from a stream of bytes, block after block.

* `ReaderAt.turn`: the reader goes on to the next number of the stream.
* `ReaderAt.reads`: the values of several calls.
* `fillCbd_apply`: the array after the loop of `sample_cbd`.
* `samplers_follow`: both against the standard.
-/

namespace C0PQLink

open Foundation

/-! ## The reader -/

/-- The reader, and how many bytes have been squeezed for it. -/
structure SampleNttReader where
  squeezed : Nat
  bytes : UInt8 × UInt8 × UInt8
  available : Nat
  next : Nat

/-- The reader after `sample_ntt_reader_init`; its three bytes are not set. -/
def sampleNttReaderInit (bytes : UInt8 × UInt8 × UInt8) : SampleNttReader where
  squeezed := 0
  bytes := bytes
  available := 0
  next := 0

section

variable (stream : Nat → UInt8)

def SampleNttReader.refill (reader : SampleNttReader) : SampleNttReader :=
  if reader.available = 0 then
    { squeezed := reader.squeezed + 3
      bytes := (stream reader.squeezed, stream (reader.squeezed + 1), stream (reader.squeezed + 2))
      available := 2
      next := 0 }
  else reader

/-- The value that a turn of the loop of `sample_ntt_next` looks at. -/
def SampleNttReader.turn (reader : SampleNttReader) : UInt16 × SampleNttReader :=
  let reader := reader.refill stream
  if reader.next = 0 then (decodeFirst reader.bytes.1 reader.bytes.2.1, { reader with next := 1 })
  else (decodeSecond reader.bytes.2.1 reader.bytes.2.2, { reader with available := 0 })

/-- `sample_ntt_next` with a bound on the turns of its loop. -/
def sampleNttNextWithin : Nat → SampleNttReader → Option (UInt16 × SampleNttReader)
  | 0, _ => none
  | fuel + 1, reader =>
    let turn := reader.turn stream
    if turn.1.toNat < 3329 then some turn else sampleNttNextWithin fuel turn.2

/-- The values of `count` calls. -/
def sampleNttReads (fuel : Nat) : Nat → SampleNttReader → Option (List UInt16)
  | 0, _ => some []
  | count + 1, reader => do
    let first ← sampleNttNextWithin stream fuel reader
    let rest ← sampleNttReads fuel count first.2
    return first.1 :: rest

/-! ## Where the reader stands -/

/-- A reader that has looked at `k` numbers of the stream: between two groups of three bytes,
or in the middle of one. -/
structure ReaderAt (reader : SampleNttReader) (k : Nat) : Prop where
  between : k % 2 = 0 → reader.available = 0 ∧ reader.squeezed = 3 * (k / 2)
  middle : k % 2 = 1 → reader.available ≠ 0 ∧ reader.next = 1
    ∧ reader.squeezed = 3 * (k / 2) + 3
    ∧ reader.bytes = (stream (3 * (k / 2)), stream (3 * (k / 2) + 1), stream (3 * (k / 2) + 2))

variable {stream} {reader : SampleNttReader} {k : Nat}

theorem readerAt_init (bytes : UInt8 × UInt8 × UInt8) :
    ReaderAt stream (sampleNttReaderInit bytes) 0 := by
  refine ⟨fun _ => ⟨rfl, rfl⟩, fun h => ?_⟩
  simp at h

theorem ReaderAt.turn (h : ReaderAt stream reader k) :
    (reader.turn stream).1 = readerValue stream k
      ∧ ReaderAt stream (reader.turn stream).2 (k + 1) := by
  rcases Nat.mod_two_eq_zero_or_one k with heven | hodd
  · obtain ⟨hempty, hsqueezed⟩ := h.between heven
    rw [SampleNttReader.turn, SampleNttReader.refill, if_pos hempty, if_pos rfl, hsqueezed]
    refine ⟨?_, fun hnext => ?_, fun _ => ⟨Nat.succ_ne_zero 1, rfl, ?_, ?_⟩⟩
    · rw [readerValue, if_pos heven]
    · omega
    · rw [show (k + 1) / 2 = k / 2 by omega]
    · rw [show (k + 1) / 2 = k / 2 by omega]
  · obtain ⟨hfull, hnext, hsqueezed, hbytes⟩ := h.middle hodd
    rw [SampleNttReader.turn, SampleNttReader.refill, if_neg hfull, if_neg (by omega), hbytes]
    refine ⟨?_, fun _ => ⟨rfl, ?_⟩, fun hnext => ?_⟩
    · rw [readerValue, if_neg (by omega)]
    · change reader.squeezed = _
      omega
    · omega

/-- A call passes over the rejected numbers. -/
theorem ReaderAt.next (h : ReaderAt stream reader k) {fuel skipped : Nat} (hfuel : skipped < fuel)
    (hrejected : ∀ n < skipped, ¬ (readerValue stream (k + n)).toNat < 3329)
    (haccepted : (readerValue stream (k + skipped)).toNat < 3329) :
    ∃ reader', sampleNttNextWithin stream fuel reader
        = some (readerValue stream (k + skipped), reader')
      ∧ ReaderAt stream reader' (k + skipped + 1) := by
  induction skipped generalizing reader k fuel with
  | zero =>
    obtain ⟨fuel, rfl⟩ : ∃ n, fuel = n + 1 := ⟨fuel - 1, by omega⟩
    obtain ⟨hvalue, hturn⟩ := h.turn
    rw [Nat.add_zero] at haccepted
    refine ⟨(reader.turn stream).2, ?_, hturn⟩
    rw [sampleNttNextWithin, hvalue, if_pos haccepted, Nat.add_zero, ← hvalue]
  | succ skipped ih =>
    obtain ⟨fuel, rfl⟩ : ∃ n, fuel = n + 1 := ⟨fuel - 1, by omega⟩
    obtain ⟨hvalue, hturn⟩ := h.turn
    have hshift (n : Nat) : k + (n + 1) = k + 1 + n := by omega
    have hfirst := hrejected 0 (by omega)
    rw [Nat.add_zero] at hfirst
    rw [hshift skipped] at haccepted ⊢
    have hrest := ih hturn (show skipped < fuel by omega) (fun n hn => by
      rw [← hshift]
      exact hrejected (n + 1) (by omega)) haccepted
    rw [sampleNttNextWithin, hvalue, if_neg hfirst]
    exact hrest

/-! ## Several calls -/

/-- The numbers below the modulus among those from `start` to `start + n - 1`. -/
def acceptedFrom (stream : Nat → UInt8) (start n : Nat) : List UInt16 :=
  ((List.range' start n).map (readerValue stream)).filter fun value => value.toNat < 3329

theorem acceptedFrom_succ (stream : Nat → UInt8) (start n : Nat) :
    acceptedFrom stream start (n + 1)
      = if (readerValue stream start).toNat < 3329 then
          readerValue stream start :: acceptedFrom stream (start + 1) n
        else acceptedFrom stream (start + 1) n := by
  rw [acceptedFrom, List.range'_succ, List.map_cons, List.filter_cons]
  simp only [decide_eq_true_eq]
  rfl

/-- The first accepted number, and those that are rejected before it. -/
theorem acceptedFrom_cons {start n : Nat} {value : UInt16} {rest : List UInt16}
    (h : acceptedFrom stream start n = value :: rest) :
    ∃ skipped < n, (∀ m < skipped, ¬ (readerValue stream (start + m)).toNat < 3329)
      ∧ (readerValue stream (start + skipped)).toNat < 3329
      ∧ value = readerValue stream (start + skipped)
      ∧ rest = acceptedFrom stream (start + skipped + 1) (n - skipped - 1) := by
  induction n generalizing start with
  | zero => cases h
  | succ n ih =>
    rw [acceptedFrom_succ] at h
    by_cases haccepted : (readerValue stream start).toNat < 3329
    · rw [if_pos haccepted, List.cons.injEq] at h
      refine ⟨0, Nat.succ_pos n, fun m hm => by omega, haccepted, h.1.symm, ?_⟩
      rw [← h.2]
      rfl
    · rw [if_neg haccepted] at h
      obtain ⟨skipped, hlt, hrejected, hfirst, hvalue, hrest⟩ := ih h
      have hshift (m : Nat) : start + 1 + m = start + (m + 1) := by omega
      rw [hshift] at hfirst hvalue hrest
      refine ⟨skipped + 1, by omega, fun m hm => ?_, hfirst, hvalue, ?_⟩
      · cases m with
        | zero => exact haccepted
        | succ m =>
          rw [← hshift]
          exact hrejected m (by omega)
      · rw [hrest, show n + 1 - (skipped + 1) - 1 = n - skipped - 1 by omega]

theorem ReaderAt.reads (h : ReaderAt stream reader k) {fuel n count : Nat} (hfuel : n ≤ fuel)
    (hcount : count ≤ (acceptedFrom stream k n).length) :
    sampleNttReads stream fuel count reader = some ((acceptedFrom stream k n).take count) := by
  induction count generalizing reader k n with
  | zero => rfl
  | succ count ih =>
    cases haccepted : acceptedFrom stream k n with
    | nil =>
      rw [haccepted] at hcount
      simp at hcount
    | cons value rest =>
      obtain ⟨skipped, hlt, hrejected, hfirst, hvalue, hrest⟩ := acceptedFrom_cons haccepted
      obtain ⟨reader', hnext, hreader⟩ := h.next (show skipped < fuel by omega) hrejected hfirst
      rw [haccepted, List.length_cons] at hcount
      have hreads := ih hreader (show n - skipped - 1 ≤ fuel by omega)
        (by rw [← hrest]; omega)
      rw [sampleNttReads, hnext, List.take_succ_cons, hvalue, hrest, ← hvalue]
      simp only [Option.bind_eq_bind, Option.bind_some, hreads, Option.pure_def, hvalue]

/-- The calls of the encapsulation, which goes on where the call before has stopped. -/
theorem ReaderAt.sampleNttNext {hashes : Fips203.Hashes} {seed : Bytes}
    (h : ReaderAt (hashes.xof seed) reader k) :
    ∃ fuel reader', sampleNttNextWithin (hashes.xof seed) fuel reader
        = some ((sampleNttNext hashes seed k).1, reader')
      ∧ ReaderAt (hashes.xof seed) reader' (sampleNttNext hashes seed k).2 := by
  obtain ⟨reader', hnext, hreader⟩ := h.next (Nat.lt_succ_self _)
    (fun n hn => Nat.find_min (readerValue_finishes hashes seed k) hn)
    (Nat.find_spec (readerValue_finishes hashes seed k))
  exact ⟨_, reader', hnext, hreader⟩

end

/-! ## The array of `sample_cbd` -/

/-- The entry of the inner loop for `eta` 2, from the byte that was squeezed last. -/
def cbd2Entry (bytes : Nat → UInt8) (half : Nat) : Int16 :=
  let nibble := bytes 0 >>> UInt8.ofNat (4 * half)
  Int16.ofNat (popcount2 nibble).toNat - Int16.ofNat (popcount2 (nibble >>> 2)).toNat

/-- The entry of the inner loop for `eta` 3, from the three bytes that were squeezed last. -/
def cbd3Entry (bytes : Nat → UInt8) (i : Nat) : Int16 :=
  let word := (bytes 0).toUInt32 ||| ((bytes 1).toUInt32 <<< 8) ||| ((bytes 2).toUInt32 <<< 16)
  let mask : UInt32 := 0x00249249
  let sums := (word &&& mask) + ((word >>> 1) &&& mask) + ((word >>> 2) &&& mask)
  let a := Int16.ofNat ((sums >>> (6 * UInt32.ofNat i)) &&& (7 : UInt32)).toNat
  let b := Int16.ofNat ((sums >>> (6 * UInt32.ofNat i + 3)) &&& (7 : UInt32)).toNat
  a - b

/-- The `while` loop: a turn squeezes `width` bytes and writes `entries` entries. -/
def fillCbd (entry : (Nat → UInt8) → Nat → Int16) (width entries : Nat) (stream : Nat → UInt8) :
    Nat → Polynomial → Nat → Nat → Polynomial
  | 0, polynomial, _, _ => polynomial
  | turns + 1, polynomial, position, squeezed =>
    if position < 256 then
      let written := (List.range entries).foldl (fun polynomial i => Function.update polynomial
        (position + i) (entry (fun n => stream (squeezed + n)) i)) polynomial
      fillCbd entry width entries stream turns written (position + entries) (squeezed + width)
    else polynomial

/-- `sample_cbd` on an array with any contents; its loops end after at most 256 turns. -/
def sampleCbdInto (stream : Nat → UInt8) (eta : Nat) (polynomial : Polynomial) : Polynomial :=
  if eta = 2 then fillCbd cbd2Entry 1 2 stream 256 polynomial 0 0
  else fillCbd cbd3Entry 3 4 stream 256 polynomial 0 0

theorem writeEntries_apply (value : Nat → Int16) (polynomial : Polynomial) (position entries : Nat)
    (i : Nat) :
    (List.range entries).foldl
        (fun polynomial i => Function.update polynomial (position + i) (value i)) polynomial i
      = if position ≤ i ∧ i < position + entries then value (i - position) else polynomial i := by
  induction entries with
  | zero => rw [if_neg (by omega)]; rfl
  | succ entries ih =>
    rw [List.range_succ, List.foldl_append, List.foldl_cons, List.foldl_nil]
    by_cases hi : i = position + entries
    · subst hi
      rw [Function.update_self, if_pos (by omega), Nat.add_sub_cancel_left]
    · rw [Function.update_of_ne hi, ih]
      exact if_congr (by omega) rfl rfl

/-- The turns of the loop that are left to do. -/
theorem fillCbd_apply (entry : (Nat → UInt8) → Nat → Int16) (width : Nat) {entries : Nat}
    (hentries : 0 < entries) (stream : Nat → UInt8) {turns block : Nat}
    (hturns : 256 ≤ entries * (turns + block)) (polynomial : Polynomial) {i : Nat} (hi : i < 256) :
    fillCbd entry width entries stream turns polynomial (entries * block) (width * block) i
      = if entries * block ≤ i then
          entry (fun n => stream (width * (i / entries) + n)) (i % entries)
        else polynomial i := by
  induction turns generalizing block polynomial with
  | zero =>
    rw [Nat.zero_add] at hturns
    rw [if_neg (by omega)]
    rfl
  | succ turns ih =>
    rw [fillCbd]
    by_cases hposition : entries * block < 256
    · rw [if_pos hposition]
      have hnext := ih (show 256 ≤ entries * (turns + (block + 1)) by
        rw [Nat.add_succ, ← Nat.succ_add]
        exact hturns)
      rw [Nat.mul_succ, Nat.mul_succ] at hnext
      rw [hnext, writeEntries_apply]
      by_cases hlater : entries * block + entries ≤ i
      · rw [if_pos hlater, if_pos (by omega)]
      · rw [if_neg hlater]
        by_cases hwritten : entries * block ≤ i
        · have hquotient : i / entries = block :=
            Nat.div_eq_of_lt_le (by rw [Nat.mul_comm]; exact hwritten)
              (by rw [Nat.succ_mul, Nat.mul_comm]; omega)
          have hrest : i % entries = i - entries * block := by
            have hdiv := Nat.div_add_mod i entries
            rw [hquotient] at hdiv
            omega
          rw [if_pos (by omega), if_pos hwritten, hquotient, hrest]
        · rw [if_neg (by omega), if_neg hwritten]
    · rw [if_neg hposition, if_neg (by omega)]

/-- Whatever the array held before, its entries are those of the model of the encapsulation. -/
theorem sampleCbdInto_apply (stream : Nat → UInt8) (polynomial : Polynomial) {i : Nat}
    (hi : i < 256) :
    sampleCbdInto stream 2 polynomial i = sampleCbd2 stream i
      ∧ sampleCbdInto stream 3 polynomial i = sampleCbd3 stream i := by
  have htwo := fillCbd_apply cbd2Entry 1 (show 0 < 2 by decide) stream
    (show 256 ≤ 2 * (256 + 0) by decide) polynomial hi
  have hthree := fillCbd_apply cbd3Entry 3 (show 0 < 4 by decide) stream
    (show 256 ≤ 4 * (256 + 0) by decide) polynomial hi
  rw [if_pos (by omega)] at htwo hthree
  constructor
  · rw [sampleCbdInto, if_pos rfl]
    refine htwo.trans ?_
    simp only [cbd2Entry, sampleCbd2, Nat.one_mul, Nat.add_zero]
  · rw [sampleCbdInto, if_neg (by decide)]
    refine hthree.trans ?_
    simp only [cbd3Entry, sampleCbd3, Nat.add_zero]

/-! ## Both samplers -/

/-- The values of the calls are the numbers below the modulus in the order of the stream, as
soon as there are enough of them, and the array of `sample_cbd` holds the distribution of the
standard. -/
theorem samplers_follow :
    (∀ (stream : Nat → UInt8) (bytes : UInt8 × UInt8 × UInt8) (n count : Nat),
      count ≤ (((List.range n).map (Fips203.candidate stream)).filter (· < 3329)).length →
        ∀ fuel, n ≤ fuel →
          (sampleNttReads stream fuel count (sampleNttReaderInit bytes)).map
              (List.map UInt16.toNat)
            = some ((((List.range n).map (Fips203.candidate stream)).filter (· < 3329)).take count))
    ∧ ∀ (stream : Nat → UInt8) (polynomial : Polynomial), ∀ i < 256,
      ((sampleCbdInto stream 2 polynomial i).toInt : Fips203.Zq)
          = Fips203.samplePolyCBD 2 stream i
        ∧ ((sampleCbdInto stream 3 polynomial i).toInt : Fips203.Zq)
          = Fips203.samplePolyCBD 3 stream i := by
  refine ⟨fun stream bytes n count hcount fuel hfuel => ?_, fun stream polynomial i hi => ?_⟩
  · have hvalues : (acceptedFrom stream 0 n).map UInt16.toNat
        = ((List.range n).map (Fips203.candidate stream)).filter (· < 3329) := by
      rw [acceptedFrom, List.filter_map, List.map_map, List.filter_map, List.range_eq_range']
      refine (List.map_congr_left fun k _ => readerValue_toNat stream k).trans ?_
      congr 2
      funext k
      simp only [Function.comp_apply, readerValue_toNat]
    rw [← hvalues, List.length_map] at hcount
    rw [(readerAt_init bytes).reads hfuel hcount, Option.map_some, List.map_take, hvalues]
  · obtain ⟨htwo, hthree⟩ := sampleCbdInto_apply stream polynomial hi
    rw [htwo, hthree]
    exact ⟨(sampleCbd2_represents stream i).value, (sampleCbd3_represents stream i).value⟩

end C0PQLink
