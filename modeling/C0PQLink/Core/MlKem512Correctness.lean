import C0PQLink.Core.MlKem512Transform
import C0PQLink.Core.MlKem512Sampling
import C0PQLink.Core.MlKem512Coding

/-!
# The encapsulation is that of the standard

The code streams the public matrix and computes the ephemeral vector once for every row and
once more for the public vector. What it writes is the ciphertext of the standard, for every
key that passes the modulus check.

* `rowPolynomial_represents`: a row of the first part, for any contents of the table.
* `messagePolynomial_represents`: the second part, up to the message.
* `encapsulation`: the run with a reader that returns the bytes of a key and a writer that
  never fails; `encapsulation_exact` compares it with `ML-KEM.Encaps_internal`.
-/

namespace C0PQLink

open Foundation

/-! ## The two parts of the ciphertext -/

section

variable (hashes : Fips203.Hashes) (ek : Block 800) (r : Block 32)

/-- A row of the first part with a table of factors. -/
def rowWith (table : Nat → Fips203.Zq) (row : Nat) : Fips203.Poly := fun n =>
  Fips203.inverseNtt (fun n =>
      productWith table (Fips203.matrixEntry hashes ek 0 row) (Fips203.ephemeral hashes r 0) n
        + productWith table (Fips203.matrixEntry hashes ek 1 row) (Fips203.ephemeral hashes r 1) n) n
    + Fips203.noise hashes r 2 (2 + row) n

theorem rowWith_gammas (row : Nat) :
    rowWith hashes ek r gammas row = Fips203.encryptU hashes ek r row := rfl

/-- The ephemeral vector that the code regenerates. -/
theorem ephemeral_represents (column : Nat) :
    ∀ i < 256, Represents 23299
      (ntt (sampleCbd hashes r.val (UInt8.ofNat column) 3) i)
      (Fips203.ephemeral hashes r column i) :=
  ntt_represents fun i _ => (sampleCbd_represents hashes r.val (UInt8.ofNat column) i).1

/-- The sum of two products, reduced, transformed back and with noise added. -/
theorem accumulator_represents {product : Polynomial} {f0 f1 : Fips203.Poly} (nonce : Nat)
    (hproduct : ∀ i < 256, Represents 13312 (product i) (0 + f0 i * 169 + f1 i * 169)) :
    ∀ i < 256, Represents 3330
      (inverseNtt (fun i => barrettReduce (product i)) i
        + sampleCbd hashes r.val (UInt8.ofNat nonce) 2 i)
      (Fips203.inverseNtt (fun n => f0 n + f1 n) i + Fips203.noise hashes r 2 nonce i) := by
  have hreduced : ∀ i < 256,
      Represents 3328 (barrettReduce (product i)) ((f0 i + f1 i) * 169) := by
    intro i hi
    have h := (barrettReduce_represents (hproduct i hi)).mono (show (1664 : Int) ≤ 3328 by decide)
    rwa [zero_add, ← add_mul] at h
  intro i hi
  exact (inverseNtt_represents hreduced i hi).add
    (sampleCbd_represents hashes r.val (UInt8.ofNat nonce) i).2 (by decide)

theorem represents_zero : Represents 0 0 0 := ⟨by decide, by decide, by decide⟩

theorem rowPolynomial_represents {zetaData : Nat → Int16} {table : Nat → Fips203.Zq}
    (htable : ∀ n < 128, factors zetaData n = table n) (row : Nat) :
    ∀ i < 256, Represents 3330
      (rowPolynomial hashes zetaData (Fips203.matrixSeed ek) r.val row i)
      (rowWith hashes ek r table row i) := by
  have hzero : ∀ i < 256, Represents 0 ((fun _ => 0 : Polynomial) i)
      ((fun _ => 0 : Fips203.Poly) i) := fun _ _ => represents_zero
  have hentry (column : Nat) : ∀ i < 256, Represents 3328
      (sampleNttValues hashes
        (Fips203.matrixSeed ek ++ [UInt8.ofNat row, UInt8.ofNat column]) i)
      (Fips203.matrixEntry hashes ek column row i) :=
    fun i _ => sampleNttValues_represents hashes _ i
  have hfirst := multiplyAdd_represents htable hzero (hentry 0) (ephemeral_represents hashes r 0)
    (by decide)
  have hboth := multiplyAdd_represents htable hfirst (hentry 1) (ephemeral_represents hashes r 1)
    (by decide)
  exact accumulator_represents hashes r (2 + row) hboth

/-- A candidate reads three bytes of a half of the public vector. -/
theorem candidate_congr {stream stream' : Nat → UInt8} (h : ∀ k < 384, stream k = stream' k)
    {n : Nat} (hn : n < 256) : Fips203.candidate stream n = Fips203.candidate stream' n := by
  rw [Fips203.candidate, Fips203.candidate, h _ (by omega), h _ (by omega), h _ (by omega)]

theorem keyCoefficients_publicVector (hcanonical : Fips203.Canonical ek) {column : Nat}
    (hcolumn : column < 2) {encoded : Bytes}
    (hencoded : ∀ k < 384, byteAt encoded k = byteAt ek.val (384 * column + k)) :
    ∀ i < 256, Represents 3328 (keyCoefficients encoded i)
      (Fips203.publicVector ek column i) := by
  intro i hi
  have hdecode : Fips203.byteDecode 12 (byteAt encoded) i
      = Fips203.byteDecode 12 (fun k => byteAt ek.val (384 * column + k)) i := by
    rw [byteDecode_candidate, byteDecode_candidate]
    exact candidate_congr hencoded hi
  have h := keyCoefficients_represents (by rw [hdecode]; exact hcanonical column hcolumn i hi)
  rw [hdecode] at h
  exact h

/-- The second part before the message is added. -/
def messageValue : Fips203.Poly := fun n =>
  Fips203.inverseNtt (fun n =>
      Fips203.multiplyNTTs (Fips203.publicVector ek 0) (Fips203.ephemeral hashes r 0) n
        + Fips203.multiplyNTTs (Fips203.publicVector ek 1) (Fips203.ephemeral hashes r 1) n) n
    + Fips203.noise hashes r 2 4 n

theorem encryptV_eq (message : Block 32) (n : Nat) :
    Fips203.encryptV hashes ek message r n = messageValue hashes ek r n
      + Fips203.decompress 1 (Fips203.byteDecode 1 (byteAt message.val) n) := rfl

theorem messagePolynomial_represents (hcanonical : Fips203.Canonical ek) {encoded : Nat → Bytes}
    (hencoded : ∀ column < 2, ∀ k < 384,
      byteAt (encoded column) k = byteAt ek.val (384 * column + k)) :
    ∀ i < 256, Represents 3330 (messagePolynomial hashes r.val encoded i)
      (messageValue hashes ek r i) := by
  have hzero : ∀ i < 256, Represents 0 ((fun _ => 0 : Polynomial) i)
      ((fun _ => 0 : Fips203.Poly) i) := fun _ _ => represents_zero
  have htable : ∀ n < 128, factors loadZeta n = gammas n := fun n hn => factors_loadZeta hn
  have hkey (column : Nat) (hcolumn : column < 2) :=
    keyCoefficients_publicVector ek hcanonical hcolumn (hencoded column hcolumn)
  have hfirst := multiplyAdd_represents htable hzero (hkey 0 (by decide))
    (ephemeral_represents hashes r 0) (by decide)
  have hboth := multiplyAdd_represents htable hfirst (hkey 1 (by decide))
    (ephemeral_represents hashes r 1) (by decide)
  exact accumulator_represents hashes r 4 hboth

end

/-! ## The callbacks -/

/-- `read_public_key` for the bytes of a key. -/
def keyReader (ek : Block 800) (offset : UInt16) : StateM (List Bytes) UInt8 :=
  pure (byteAt ek.val offset.toNat)

/-- `write_ciphertext` that keeps every chunk and always returns 0. -/
def chunkWriter (data : Bytes) : StateM (List Bytes) Status := do
  modify (· ++ [data])
  return .ok

/-- The result of the encapsulation and the chunks that it wrote. -/
def encapsulation (hashes : Fips203.Hashes) (zetaData : Nat → Int16) (ek : Block 800)
    (randomness : Block 32) : Except Status (Block 32) × List Bytes :=
  (encapsulateDerand hashes (keyReader ek) chunkWriter zetaData randomness).run []

theorem byteAt_slice {b : Bytes} {start len k : Nat} (hk : k < len) :
    byteAt (slice b start len) k = byteAt b (start + k) := by
  simp [byteAt, slice, hk]

theorem keyReader_ofNat (ek : Block 800) {offset : Nat} (h : offset < 800) :
    keyReader ek (UInt16.ofNat offset) = pure (byteAt ek.val offset) := by
  rw [keyReader, UInt16.toNat_ofNat', Nat.mod_eq_of_lt (by omega)]

theorem mapM_eq_pure {m : Type → Type} [Monad m] [LawfulMonad m] {α β : Type} {f : α → m β}
    {g : α → β} {as : List α} (h : ∀ a ∈ as, f a = pure (g a)) :
    as.mapM f = pure (as.map g) := by
  induction as with
  | nil => rw [List.mapM_nil, List.map_nil]
  | cons a as ih =>
    rw [List.mapM_cons, h a (List.mem_cons_self ..), ih fun b hb => h b (List.mem_cons_of_mem _ hb),
      pure_bind, pure_bind, List.map_cons]

theorem readKeyBytes_keyReader (ek : Block 800) {start count : Nat} (h : start + count ≤ 800) :
    readKeyBytes (keyReader ek) start count = pure (slice ek.val start count) := by
  have hlist : (List.range count).map (fun i => byteAt ek.val (start + i))
      = slice ek.val start count := by
    apply List.ext_getElem
    · simp
      omega
    · intro i hi _
      rw [List.length_map, List.length_range] at hi
      simp [byteAt, slice, show start + i < 800 by omega]
  rw [readKeyBytes, ← hlist]
  apply mapM_eq_pure
  intro i hi
  rw [List.mem_range] at hi
  exact keyReader_ofNat ek (by omega)

/-- The first two candidates are the numbers in the next three bytes. -/
theorem candidate_shift (stream : Nat → UInt8) (n : Nat) :
    Fips203.candidate stream (n + 2) = Fips203.candidate (fun k => stream (3 + k)) n := by
  rw [Fips203.candidate, Fips203.candidate, show (n + 2) / 2 = n / 2 + 1 by omega,
    show (n + 2) % 2 = n % 2 by omega, show 3 * (n / 2 + 1) = 3 + 3 * (n / 2) by omega,
    Nat.add_assoc 3, Nat.add_assoc 3]

/-- The loop finds the first number that is not below the modulus. -/
theorem checkTriples_keyReader (ek : Block 800) {count offset : Nat}
    (h : offset + 3 * count ≤ 800) :
    checkTriples (keyReader ek) count offset
      = pure (decide (∀ n < 2 * count,
          Fips203.candidate (fun k => byteAt ek.val (offset + k)) n < 3329)) := by
  induction count generalizing offset with
  | zero => simp [checkTriples]
  | succ count ih =>
    generalize hstream : (fun k => byteAt ek.val (offset + k)) = stream at ih
    have hfirst : (decodeFirst (stream 0) (stream 1)).toNat = Fips203.candidate stream 0 :=
      readerValue_toNat stream 0
    have hsecond : (decodeSecond (stream 1) (stream 2)).toNat = Fips203.candidate stream 1 :=
      readerValue_toNat stream 1
    have hrest : (fun k => byteAt ek.val (offset + 3 + k)) = fun k => stream (3 + k) := by
      funext k
      rw [← hstream, Nat.add_assoc]
    have hstep : checkTriples (keyReader ek) (count + 1) offset
        = if 3329 ≤ (decodeFirst (stream 0) (stream 1)).toNat
            ∨ 3329 ≤ (decodeSecond (stream 1) (stream 2)).toNat then pure false
          else checkTriples (keyReader ek) count (offset + 3) := by
      rw [checkTriples, keyReader_ofNat ek (by omega), keyReader_ofNat ek (by omega),
        keyReader_ofNat ek (by omega), pure_bind, pure_bind, pure_bind, ← hstream]
      rfl
    rw [hstep, hfirst, hsecond, ih (by omega), hrest]
    split
    · rename_i hbad
      congr 1
      symm
      rw [decide_eq_false_iff_not]
      intro hall
      rcases hbad with hbad | hbad
      · exact absurd (hall 0 (by omega)) (by omega)
      · exact absurd (hall 1 (by omega)) (by omega)
    · rename_i hgood
      congr 1
      rw [decide_eq_decide]
      constructor
      · intro hall n hn
        match n with
        | 0 => omega
        | 1 => omega
        | n + 2 =>
          rw [candidate_shift]
          exact hall n (by omega)
      · intro hall n hn
        rw [← candidate_shift]
        exact hall (n + 2) (by omega)

/-- The halves of the public vector follow each other. -/
theorem canonical_iff (ek : Block 800) : Fips203.Canonical ek ↔
    ∀ n < 2 * 256, Fips203.candidate (fun k => byteAt ek.val (0 + k)) n < 3329 := by
  have hhalf (i n : Nat) : Fips203.byteDecode 12 (fun k => byteAt ek.val (384 * i + k)) n
      = Fips203.candidate (fun k => byteAt ek.val (0 + k)) (256 * i + n) := by
    rw [byteDecode_candidate, Fips203.candidate, Fips203.candidate,
      show (256 * i + n) / 2 = 128 * i + n / 2 by omega,
      show (256 * i + n) % 2 = n % 2 by omega]
    simp only [show 384 * i + 3 * (n / 2) = 0 + 3 * (128 * i + n / 2) by omega,
      show 384 * i + (3 * (n / 2) + 1) = 0 + (3 * (128 * i + n / 2) + 1) by omega,
      show 384 * i + (3 * (n / 2) + 2) = 0 + (3 * (128 * i + n / 2) + 2) by omega]
  constructor
  · intro hcanonical n hn
    have h := hcanonical (n / 256) (by omega) (n % 256) (by omega)
    rwa [hhalf, Nat.div_add_mod] at h
  · intro hall i hi n hn
    rw [hhalf]
    exact hall _ (by omega)

theorem stateT_run_bind {σ α β : Type} {x : StateM σ α} {s s' : σ} {a : α}
    (h : x.run s = (a, s')) (f : α → StateM σ β) : (x >>= f).run s = (f a).run s' := by
  rw [StateT.run_bind, h]
  rfl

theorem writeEach_chunkWriter (chunks log : List Bytes) :
    (writeEach chunkWriter chunks).run log = (.ok, log ++ chunks) := by
  induction chunks generalizing log with
  | nil => simp [writeEach]; rfl
  | cons chunk rest ih =>
    have hstep : (writeEach chunkWriter (chunk :: rest)).run log
        = (writeEach chunkWriter rest).run (log ++ [chunk]) := rfl
    rw [hstep, ih, List.append_assoc]
    rfl

/-! ## The whole encapsulation -/

/-- The key as the standard reads it. -/
theorem validateAndHashPublicKey_keyReader (hashes : Fips203.Hashes) (ek : Block 800) :
    validateAndHashPublicKey hashes (keyReader ek)
      = if Fips203.Canonical ek then pure (.ok (hashes.hashH ek.val, Fips203.matrixSeed ek))
        else pure (.error .errKeyEncoding) := by
  have hseed : slice ek.val 768 32 = Fips203.matrixSeed ek := by
    apply List.take_of_length_le
    simp
  have hkey : slice ek.val 0 800 = ek.val := slice_self _ ek.property
  have hchecked := checkTriples_keyReader ek (show 0 + 3 * 256 ≤ 800 by decide)
  simp only [← canonical_iff] at hchecked
  rw [validateAndHashPublicKey, readKeyBytes_keyReader ek (by decide), pure_bind, hkey, hchecked,
    pure_bind, readKeyBytes_keyReader ek (by decide), hseed]
  split
  · rename_i hbad
    rw [if_neg (by simpa using hbad)]
  · rename_i hgood
    rw [if_pos (by simpa using hgood), pure_bind]

section

variable (hashes : Fips203.Hashes) (ek : Block 800) (randomness : Block 32)

/-- The shared secret and the coins of the standard. -/
def secretAndCoins : Block 32 × Block 32 :=
  deriveKAndCoins hashes randomness (hashes.hashH ek.val)

theorem encapsInternal_eq : Fips203.encapsInternal hashes ek randomness
    = ((secretAndCoins hashes ek randomness).1,
        Fips203.encrypt hashes ek randomness (secretAndCoins hashes ek randomness).2) := rfl

theorem writeRows_run (zetaData : Nat → Int16) (rho coins : Bytes) (rows : List Nat)
    (log : List Bytes) :
    (writeRows hashes chunkWriter zetaData rho coins rows).run log
      = (.ok, log ++ rows.flatMap fun row =>
          (List.range 64).map (packU (rowPolynomial hashes zetaData rho coins row))) := by
  induction rows generalizing log with
  | nil => simp [writeRows]; rfl
  | cons row rest ih =>
    have hrow := writeEach_chunkWriter
      ((List.range 64).map (packU (rowPolynomial hashes zetaData rho coins row))) log
    have hstep : (writeRows hashes chunkWriter zetaData rho coins (row :: rest)).run log
        = (writeRows hashes chunkWriter zetaData rho coins rest).run
          (log ++ (List.range 64).map (packU (rowPolynomial hashes zetaData rho coins row))) := by
      rw [writeRows, StateT.run_bind, writeCompressedU, hrow]
      rfl
    rw [hstep, ih, List.flatMap_cons, List.append_assoc]

/-- The halves of the encoded public vector. -/
def encodedHalf (column : Nat) : Bytes :=
  if column = 0 then slice ek.val 0 384 else slice ek.val 384 384

/-- What the encapsulation writes for a key that passes the check. -/
def chunksWith (zetaData : Nat → Int16) : List Bytes :=
  let coins := (secretAndCoins hashes ek randomness).2.val
  ([0, 1].flatMap fun row => (List.range 64).map
      (packU (rowPolynomial hashes zetaData (Fips203.matrixSeed ek) coins row)))
    ++ (List.range 128).map
      (packV (messagePolynomial hashes coins (encodedHalf ek)) randomness.val)

theorem encapsulation_canonical (zetaData : Nat → Int16) (hcanonical : Fips203.Canonical ek) :
    encapsulation hashes zetaData ek randomness
      = (.ok (secretAndCoins hashes ek randomness).1,
          chunksWith hashes ek randomness zetaData) := by
  have hrows := writeRows_run hashes zetaData (Fips203.matrixSeed ek)
    (secretAndCoins hashes ek randomness).2.val [0, 1] []
  have hmessage := writeEach_chunkWriter ((List.range 128).map
    (packV (messagePolynomial hashes (secretAndCoins hashes ek randomness).2.val (encodedHalf ek))
      randomness.val))
  rw [encapsulation, encapsulateDerand, validateAndHashPublicKey_keyReader, if_pos hcanonical,
    pure_bind]
  dsimp only
  rw [show deriveKAndCoins hashes randomness (hashes.hashH ek.val)
    = secretAndCoins hashes ek randomness from rfl, stateT_run_bind hrows,
    if_neg (by simp), readKeyBytes_keyReader ek (by decide), pure_bind,
    readKeyBytes_keyReader ek (by decide), pure_bind]
  have hhalves : (fun column => if column = 0 then slice ek.val 0 384 else slice ek.val 384 384)
      = encodedHalf ek := rfl
  rw [hhalves, writeCompressedV, stateT_run_bind (hmessage _), if_neg (by simp), StateT.run_pure,
    List.nil_append, chunksWith]
  rfl

theorem encapsulation_rejected (zetaData : Nat → Int16) (hcanonical : ¬ Fips203.Canonical ek) :
    encapsulation hashes zetaData ek randomness = (.error .errKeyEncoding, []) := by
  rw [encapsulation, encapsulateDerand, validateAndHashPublicKey_keyReader, if_neg hcanonical,
    pure_bind]
  rfl

theorem compress_lt (d : Nat) (x : Fips203.Zq) : Fips203.compress d x < 2 ^ d :=
  Nat.mod_lt _ (Nat.two_pow_pos d)

theorem encodedHalf_byteAt {column : Nat} (hcolumn : column < 2) {k : Nat} (hk : k < 384) :
    byteAt (encodedHalf ek column) k = byteAt ek.val (384 * column + k) := by
  rw [encodedHalf]
  split
  · rename_i hzero
    rw [byteAt_slice hk, hzero]
  · rename_i hone
    rw [byteAt_slice hk, show column = 1 by omega]

/-- The bytes of a row with a table of factors. -/
def rowBytes (table : Nat → Fips203.Zq) (row : Nat) : Bytes :=
  Fips203.byteEncode 10 fun n => Fips203.compress 10
    (rowWith hashes ek (secretAndCoins hashes ek randomness).2 table row n)

/-- The bytes of the second part. -/
def messageBytes : Bytes :=
  Fips203.byteEncode 4 fun n => Fips203.compress 4
    (Fips203.encryptV hashes ek randomness (secretAndCoins hashes ek randomness).2 n)

/-- The bytes that the encapsulation writes, for any contents of the table. -/
theorem chunksWith_flatten {zetaData : Nat → Int16} {table : Nat → Fips203.Zq}
    (htable : ∀ n < 128, factors zetaData n = table n) (hcanonical : Fips203.Canonical ek) :
    (chunksWith hashes ek randomness zetaData).flatten
      = rowBytes hashes ek randomness table 0 ++ rowBytes hashes ek randomness table 1
        ++ messageBytes hashes ek randomness := by
  unfold rowBytes messageBytes
  generalize hcoins : (secretAndCoins hashes ek randomness).2 = r
  have hrow (row : Nat) := flatten_packU
    (fun i hi => compress10_toNat (rowPolynomial_represents hashes ek r htable row i hi))
    (fun n => compress_lt 10 (rowWith hashes ek r table row n))
  have hvalue := messagePolynomial_represents hashes ek r hcanonical
    fun column hcolumn k hk => encodedHalf_byteAt ek hcolumn hk
  have hmessage := flatten_packV
    (fun i hi => compress4_toNat ((hvalue i hi).add
      (messageCoefficient_represents randomness.val i) (by decide)))
    (fun n => compress_lt 4 _)
  rw [chunksWith, hcoins]
  simp only [List.flatMap_cons, List.flatMap_nil, List.append_nil, List.flatten_append,
    encryptV_eq]
  rw [hrow 0, hrow 1, hmessage]

theorem chunksWith_loadZeta (hcanonical : Fips203.Canonical ek) :
    (chunksWith hashes ek randomness loadZeta).flatten
      = (Fips203.encapsInternal hashes ek randomness).2 := by
  rw [chunksWith_flatten hashes ek randomness (fun _ hn => factors_loadZeta hn) hcanonical,
    encapsInternal_eq]
  simp only [rowBytes, messageBytes, Fips203.encrypt, rowWith_gammas]

/-- The encapsulation of the code is `ML-KEM.Encaps_internal`, for every key that passes the
modulus check; any other key is rejected before anything is written. -/
theorem encapsulation_exact :
    (statusOf (encapsulation hashes loadZeta ek randomness).1 = .ok ↔ Fips203.Canonical ek)
      ∧ (Fips203.Canonical ek →
        (encapsulation hashes loadZeta ek randomness).1
            = .ok (Fips203.encapsInternal hashes ek randomness).1
          ∧ (encapsulation hashes loadZeta ek randomness).2.flatten
            = (Fips203.encapsInternal hashes ek randomness).2
          ∧ (Fips203.encapsInternal hashes ek randomness).2.length = 768)
      ∧ (¬ Fips203.Canonical ek →
        encapsulation hashes loadZeta ek randomness = (.error .errKeyEncoding, [])) := by
  by_cases hcanonical : Fips203.Canonical ek
  · rw [encapsulation_canonical hashes ek randomness loadZeta hcanonical]
    refine ⟨⟨fun _ => hcanonical, fun _ => rfl⟩, fun _ => ⟨rfl, ?_, ?_⟩,
      fun h => absurd hcanonical h⟩
    · exact chunksWith_loadZeta hashes ek randomness hcanonical
    · simp [Fips203.encapsInternal, Fips203.encrypt, Fips203.byteEncode]
  · rw [encapsulation_rejected hashes ek randomness loadZeta hcanonical]
    refine ⟨⟨?_, fun h => absurd h hcanonical⟩, fun h => absurd h hcanonical, fun _ => rfl⟩
    intro h
    exact absurd h (by decide)

end

end C0PQLink
