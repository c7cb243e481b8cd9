import C0PQLink.Fips202.Keccak
import C0PQLink.Foundation.Loops

/-!
# The Keccak permutation

`keccak_f1600` of `core/keccak.c`. The state is updated in place: θ column by column, ρ and π
in one walk over the lanes 1 to 24 and χ row by row.

* `thetaLoop_lane`, `rhoPiLoop_lane`, `chiLoop_lane`: the lanes behind each of the loops.
* `keccakF1600_array`: the state array after the permutation is the one of the standard.
-/

namespace C0PQLink

open Foundation

/-! ## The loops -/

def rotateLeft64 (value : UInt64) (count : Nat) : UInt64 :=
  (value <<< UInt64.ofNat count) ||| (value >>> UInt64.ofNat (64 - count))

def keccakRoundConstants : List UInt64 :=
  [0x0000000000000001, 0x0000000000008082, 0x800000000000808a, 0x8000000080008000,
    0x000000000000808b, 0x0000000080000001, 0x8000000080008081, 0x8000000000008009,
    0x000000000000008a, 0x0000000000000088, 0x0000000080008009, 0x000000008000000a,
    0x000000008000808b, 0x800000000000008b, 0x8000000000008089, 0x8000000000008003,
    0x8000000000008002, 0x8000000000000080, 0x000000000000800a, 0x800000008000000a,
    0x8000000080008081, 0x8000000000008080, 0x0000000080000001, 0x8000000080008008]

def keccakRotation : List Nat :=
  [1, 3, 6, 10, 15, 21, 28, 36, 45, 55, 2, 14, 27, 41, 56, 8, 25, 43, 62, 18, 39, 61, 20, 44]

def keccakPiLane : List Nat :=
  [10, 7, 11, 17, 18, 3, 5, 16, 8, 21, 24, 4, 15, 23, 19, 13, 12, 2, 20, 14, 22, 9, 6, 1]

/-- The array `bc` of θ. -/
def columnParities (state : List UInt64) : List UInt64 :=
  (List.range 5).map fun i => state.getD i 0 ^^^ state.getD (i + 5) 0 ^^^ state.getD (i + 10) 0
    ^^^ state.getD (i + 15) 0 ^^^ state.getD (i + 20) 0

/-- The inner loop of θ; `j` counts its turns. -/
def thetaColumn (theta : UInt64) (i : Nat) (state : List UInt64) : List UInt64 :=
  (List.range 5).foldl
    (fun state j => state.set (5 * j + i) (state.getD (5 * j + i) 0 ^^^ theta)) state

def thetaLoop (state : List UInt64) : List UInt64 :=
  let bc := columnParities state
  (List.range 5).foldl (fun state i =>
    thetaColumn (bc.getD ((i + 4) % 5) 0 ^^^ rotateLeft64 (bc.getD ((i + 1) % 5) 0) 1) i state)
    state

/-- One turn of the loop of ρ and π, on the state and the variable `current`. -/
def rhoPiStep (walk : List UInt64 × UInt64) (i : Nat) : List UInt64 × UInt64 :=
  let lane := keccakPiLane.getD i 0
  (walk.1.set lane (rotateLeft64 walk.2 (keccakRotation.getD i 0)), walk.1.getD lane 0)

def rhoPiLoop (state : List UInt64) : List UInt64 :=
  ((List.range 24).foldl rhoPiStep (state, state.getD 1 0)).1

/-- One turn of the loop of χ, with its two inner loops; `j` counts the turns. -/
def chiRow (state : List UInt64) (j : Nat) : List UInt64 :=
  let bc := (List.range 5).map fun i => state.getD (5 * j + i) 0
  (List.range 5).foldl (fun state i => state.set (5 * j + i)
    (bc.getD i 0 ^^^ (~~~bc.getD ((i + 1) % 5) 0 &&& bc.getD ((i + 2) % 5) 0))) state

def chiLoop (state : List UInt64) : List UInt64 := (List.range 5).foldl chiRow state

def keccakRound (state : List UInt64) (round : Nat) : List UInt64 :=
  let state := chiLoop (rhoPiLoop (thetaLoop state))
  state.set 0 (state.getD 0 0 ^^^ keccakRoundConstants.getD round 0)

def keccakF1600 (state : List UInt64) : List UInt64 := (List.range 24).foldl keccakRound state

/-! ## Lanes -/

/-- The lane of a state at the coordinates of the standard. -/
def lane (state : List UInt64) (x y : Fin 5) : UInt64 := state.getD (5 * y + x) 0

theorem getD_set {state : List UInt64} {i : Nat} (hi : i < state.length) (j : Nat) (v : UInt64) :
    (state.set i v).getD j 0 = if i = j then v else state.getD j 0 := by
  rw [List.getD_eq_getElem?_getD, List.getElem?_set, List.getD_eq_getElem?_getD]
  split <;> rfl

/-- A write to one lane. -/
theorem lane_set {state : List UInt64} (h : state.length = 25) (i j : Fin 5) (v : UInt64)
    (x y : Fin 5) :
    lane (state.set (5 * j + i) v) x y = if x = i ∧ y = j then v else lane state x y := by
  rw [lane, lane, getD_set (by omega)]
  exact if_congr (by omega) rfl rfl

/-! ## θ -/

/-- The lane of `bc` in θ. -/
def columnLane (state : List UInt64) (x : Fin 5) : UInt64 :=
  lane state x 0 ^^^ lane state x 1 ^^^ lane state x 2 ^^^ lane state x 3 ^^^ lane state x 4

theorem columnParities_getD (state : List UInt64) (x : Fin 5) :
    (columnParities state).getD x 0 = columnLane state x := by
  rw [columnParities, List.getD_eq_getElem?_getD, List.getElem?_map, List.getElem?_range x.isLt]
  simp only [Option.map_some, Option.getD_some, columnLane, lane, Nat.add_comm _ x.val]
  rfl

theorem thetaColumn_lane {state : List UInt64} (h : state.length = 25) (theta : UInt64)
    (i : Fin 5) :
    (thetaColumn theta i state).length = 25 ∧ ∀ x y : Fin 5,
      lane (thetaColumn theta i state) x y
        = if x = i then lane state x y ^^^ theta else lane state x y := by
  obtain ⟨hlength, hlanes⟩ := foldl_range_owned
    (fun state j => state.set (5 * j + i) (state.getD (5 * j + i) 0 ^^^ theta)) state 5
    (fun _ state => state.length = 25)
    (fun state (p : Fin 5 × Fin 5) => lane state p.1 p.2) (fun p => if p.1 = i then p.2.val else 5)
    (fun p => lane state p.1 p.2 ^^^ theta) h (by
      intro n hn s hs hparts
      refine ⟨by rw [List.length_set, hs], fun ⟨x, y⟩ => ?_⟩
      have hold := hparts (x, y)
      rw [lane_set hs i ⟨n, hn⟩]
      dsimp only at hold ⊢
      by_cases hi : x = i
      · rw [if_pos hi] at hold ⊢
        by_cases hy : y.val = n
        · rw [if_neg (by omega)] at hold
          rw [if_pos ⟨hi, Fin.ext hy⟩, if_pos hy, ← hold, ← hy, ← hi]
          rfl
        · rw [if_neg (fun hboth => hy (congrArg Fin.val hboth.2)), if_neg hy]
      · rw [if_neg (fun hboth => hi hboth.1), if_neg hi, if_neg (by omega)])
  refine ⟨hlength, fun x y => ?_⟩
  have hlane := hlanes (x, y)
  dsimp only at hlane
  rw [thetaColumn, hlane]
  by_cases hi : x = i
  · rw [if_pos hi, if_pos hi, if_pos (by omega)]
  · rw [if_neg hi, if_neg hi, if_neg (by omega)]

/-- The word that θ adds to the lanes of a column. -/
def thetaWord (state : List UInt64) (x : Fin 5) : UInt64 :=
  columnLane state (x - 1) ^^^ rotateLeft64 (columnLane state (x + 1)) 1

theorem thetaWord_eq (state : List UInt64) (x : Fin 5) :
    (columnParities state).getD ((x + 4) % 5) 0
        ^^^ rotateLeft64 ((columnParities state).getD ((x + 1) % 5) 0) 1
      = thetaWord state x := by
  have hleft : (x.val + 4) % 5 = (x - 1).val := by
    rw [Fin.val_sub]
    simp only [Fin.val_one]
    omega
  have hright : (x.val + 1) % 5 = (x + 1).val := by
    rw [Fin.val_add, Fin.val_one]
  rw [hleft, hright, columnParities_getD, columnParities_getD, thetaWord]

theorem thetaLoop_lane {state : List UInt64} (h : state.length = 25) :
    (thetaLoop state).length = 25 ∧ ∀ x y : Fin 5,
      lane (thetaLoop state) x y = lane state x y ^^^ thetaWord state x := by
  obtain ⟨hlength, hlanes⟩ := foldl_range_owned
    (fun s i => thetaColumn ((columnParities state).getD ((i + 4) % 5) 0
      ^^^ rotateLeft64 ((columnParities state).getD ((i + 1) % 5) 0) 1) i s) state 5
    (fun _ s => s.length = 25)
    (fun s (p : Fin 5 × Fin 5) => lane s p.1 p.2) (fun p => p.1.val)
    (fun p => lane state p.1 p.2 ^^^ thetaWord state p.1) h (by
      intro n hn s hs hparts
      obtain ⟨hnext, hcolumn⟩ := thetaColumn_lane hs (thetaWord state ⟨n, hn⟩) ⟨n, hn⟩
      rw [← thetaWord_eq] at hnext hcolumn
      refine ⟨hnext, fun ⟨x, y⟩ => ?_⟩
      have hold := hparts (x, y)
      dsimp only at hold hcolumn ⊢
      rw [hcolumn x y, thetaWord_eq state ⟨n, hn⟩]
      by_cases hx : x.val = n
      · rw [if_neg (by omega)] at hold
        rw [if_pos (Fin.ext hx), if_pos hx, hold, show x = ⟨n, hn⟩ from Fin.ext hx]
      · rw [if_neg (fun heq => hx (congrArg Fin.val heq)), if_neg hx])
  refine ⟨hlength, fun x y => ?_⟩
  have hlane := hlanes (x, y)
  dsimp only at hlane
  rw [if_pos x.isLt] at hlane
  exact hlane

/-! ## ρ and π -/

/-- The lane that is moved in a turn of the walk: the target of the turn before. -/
def walkSource : Nat → Nat
  | 0 => 1
  | n + 1 => keccakPiLane.getD n 0

theorem rhoPiLoop_getD {state : List UInt64} (h : state.length = 25) :
    (rhoPiLoop state).length = 25 ∧ ∀ q : Fin 25, (rhoPiLoop state).getD q 0
      = if keccakPiLane.idxOf q.val < 24 then
          rotateLeft64 (state.getD (walkSource (keccakPiLane.idxOf q.val)) 0)
            (keccakRotation.getD (keccakPiLane.idxOf q.val) 0)
        else state.getD q 0 := by
  have hturn : ∀ n < 24, keccakPiLane.getD n 0 < 25
      ∧ ∀ q : Fin 25, keccakPiLane.idxOf q.val = n ↔ keccakPiLane.getD n 0 = q := by decide
  obtain ⟨⟨hlength, -⟩, hparts⟩ := foldl_range_owned rhoPiStep (state, state.getD 1 0) 24
    (fun n walk => walk.1.length = 25 ∧ walk.2 = state.getD (walkSource n) 0)
    (fun walk (q : Fin 25) => walk.1.getD q 0) (fun q => keccakPiLane.idxOf q.val)
    (fun q => rotateLeft64 (state.getD (walkSource (keccakPiLane.idxOf q.val)) 0)
      (keccakRotation.getD (keccakPiLane.idxOf q.val) 0)) ⟨h, rfl⟩ (by
      intro n hn walk ⟨hwalk, hcurrent⟩ hold
      obtain ⟨hlt, hindex⟩ := hturn n hn
      -- the lane under the walk has not been written yet
      have htarget := hold ⟨keccakPiLane.getD n 0, hlt⟩
      dsimp only at htarget
      rw [(hindex ⟨keccakPiLane.getD n 0, hlt⟩).mpr rfl, if_neg (Nat.lt_irrefl n)] at htarget
      refine ⟨⟨?_, htarget⟩, fun q => ?_⟩
      · rw [rhoPiStep, List.length_set, hwalk]
      · rw [rhoPiStep, getD_set (by rw [hwalk]; exact hlt)]
        by_cases hq : keccakPiLane.idxOf q.val = n
        · rw [if_pos ((hindex q).mp hq), if_pos hq, hq, hcurrent]
        · rw [if_neg (fun heq => hq ((hindex q).mpr heq)), if_neg hq])
  exact ⟨hlength, hparts⟩

/-- The walk is the 24-cycle of π, and it rotates each lane by its offset of ρ. -/
theorem walk_eq_pi : ∀ x y : Fin 5,
    (keccakPiLane.idxOf (5 * y.val + x.val) < 24 →
      walkSource (keccakPiLane.idxOf (5 * y.val + x.val)) = 5 * x.val + (x + 3 * y).val
        ∧ keccakRotation.getD (keccakPiLane.idxOf (5 * y.val + x.val)) 0
          = Fips202.rhoOffset (x + 3 * y) x % 64
        ∧ 0 < Fips202.rhoOffset (x + 3 * y) x % 64)
      ∧ (¬ keccakPiLane.idxOf (5 * y.val + x.val) < 24 → x = 0 ∧ y = 0) := by
  decide +kernel

theorem rhoPiLoop_lane {state : List UInt64} (h : state.length = 25) :
    (rhoPiLoop state).length = 25 ∧ ∀ x y : Fin 5, lane (rhoPiLoop state) x y
      = if x = 0 ∧ y = 0 then lane state 0 0
        else rotateLeft64 (lane state (x + 3 * y) x) (Fips202.rhoOffset (x + 3 * y) x % 64) := by
  obtain ⟨hlength, hparts⟩ := rhoPiLoop_getD h
  refine ⟨hlength, fun x y => ?_⟩
  have hlane := hparts ⟨5 * y + x, by omega⟩
  obtain ⟨hmoved, hfixed⟩ := walk_eq_pi x y
  rw [lane, hlane]
  dsimp only
  split
  · rename_i hindex
    obtain ⟨hsource, hrotation, -⟩ := hmoved hindex
    have hne : ¬ (x = 0 ∧ y = 0) := by
      rintro ⟨rfl, rfl⟩
      revert hindex
      decide
    rw [if_neg hne, hsource, hrotation]
    rfl
  · rename_i hindex
    obtain ⟨rfl, rfl⟩ := hfixed hindex
    rfl

/-! ## χ -/

theorem chiRow_lane {state : List UInt64} (h : state.length = 25) (j : Fin 5) :
    (chiRow state j).length = 25 ∧ ∀ x y : Fin 5, lane (chiRow state j) x y
      = if y = j then lane state x y ^^^ (~~~lane state (x + 1) y &&& lane state (x + 2) y)
        else lane state x y := by
  have hbc (i : Fin 5) : ((List.range 5).map fun i => state.getD (5 * j + i) 0).getD i 0
      = lane state i j := by
    rw [List.getD_eq_getElem?_getD, List.getElem?_map, List.getElem?_range i.isLt]
    rfl
  obtain ⟨hlength, hlanes⟩ := foldl_range_owned
    (fun s i => s.set (5 * j + i)
      (((List.range 5).map fun i => state.getD (5 * j + i) 0).getD i 0
        ^^^ (~~~((List.range 5).map fun i => state.getD (5 * j + i) 0).getD ((i + 1) % 5) 0
          &&& ((List.range 5).map fun i => state.getD (5 * j + i) 0).getD ((i + 2) % 5) 0)))
    state 5 (fun _ s => s.length = 25)
    (fun s (p : Fin 5 × Fin 5) => lane s p.1 p.2) (fun p => if p.2 = j then p.1.val else 5)
    (fun p => lane state p.1 j ^^^ (~~~lane state (p.1 + 1) j &&& lane state (p.1 + 2) j)) h (by
      intro n hn s hs hparts
      refine ⟨by rw [List.length_set, hs], fun ⟨x, y⟩ => ?_⟩
      have h0 := hbc ⟨n, hn⟩
      have h1 := hbc (⟨n, hn⟩ + 1)
      have h2 := hbc (⟨n, hn⟩ + 2)
      rw [Fin.val_add] at h1 h2
      dsimp only at h0 h1 h2 ⊢
      rw [lane_set hs ⟨n, hn⟩ j]
      by_cases hy : y = j
      · rw [if_pos hy]
        by_cases hx : x.val = n
        · rw [if_pos ⟨Fin.ext hx, hy⟩, if_pos hx, show x = ⟨n, hn⟩ from Fin.ext hx, ← h0, ← h1,
            ← h2]
          rfl
        · rw [if_neg (fun hboth => hx (congrArg Fin.val hboth.1)), if_neg hx]
      · rw [if_neg (fun hboth => hy hboth.2), if_neg hy, if_neg (by omega)])
  refine ⟨hlength, fun x y => ?_⟩
  have hlane := hlanes (x, y)
  dsimp only at hlane
  rw [chiRow, hlane]
  by_cases hy : y = j
  · rw [if_pos hy, if_pos hy, if_pos x.isLt, hy]
  · rw [if_neg hy, if_neg hy, if_neg (by omega)]

theorem chiLoop_lane {state : List UInt64} (h : state.length = 25) :
    (chiLoop state).length = 25 ∧ ∀ x y : Fin 5, lane (chiLoop state) x y
      = lane state x y ^^^ (~~~lane state (x + 1) y &&& lane state (x + 2) y) := by
  obtain ⟨hlength, hlanes⟩ := foldl_range_owned chiRow state 5 (fun _ s => s.length = 25)
    (fun s (p : Fin 5 × Fin 5) => lane s p.1 p.2) (fun p => p.2.val)
    (fun p => lane state p.1 p.2
      ^^^ (~~~lane state (p.1 + 1) p.2 &&& lane state (p.1 + 2) p.2)) h (by
      intro n hn s hs hparts
      obtain ⟨hnext, hrow⟩ := chiRow_lane hs ⟨n, hn⟩
      refine ⟨hnext, fun ⟨x, y⟩ => ?_⟩
      dsimp only at hparts hrow ⊢
      rw [hrow x y]
      by_cases hy : y.val = n
      · have hold (x' : Fin 5) : lane s x' y = lane state x' y := by
          have hpart := hparts (x', y)
          rwa [if_neg (by dsimp only; omega)] at hpart
        rw [if_pos (Fin.ext hy), if_pos hy, hold, hold, hold]
      · rw [if_neg (fun heq => hy (congrArg Fin.val heq)), if_neg hy])
  refine ⟨hlength, fun x y => ?_⟩
  have hlane := hlanes (x, y)
  dsimp only at hlane
  rw [if_pos y.isLt] at hlane
  exact hlane

/-! ## Bits -/

def laneBit (v : UInt64) (z : Fin 64) : Bool := v.toBitVec.getLsbD z

/-- The state array of the standard. -/
def stateArray (state : List UInt64) : Fips202.StateArray := fun x y z =>
  laneBit (lane state x y) z

@[simp] theorem laneBit_xor (v w : UInt64) (z : Fin 64) :
    laneBit (v ^^^ w) z = (laneBit v z ^^ laneBit w z) := by
  simp [laneBit]

@[simp] theorem laneBit_and (v w : UInt64) (z : Fin 64) :
    laneBit (v &&& w) z = (laneBit v z && laneBit w z) := by
  simp [laneBit]

@[simp] theorem laneBit_not (v : UInt64) (z : Fin 64) : laneBit (~~~v) z = !laneBit v z := by
  simp [laneBit]

theorem laneBit_rotateLeft64 (v : UInt64) {count : Nat} (hpos : 0 < count) (hlt : count < 64)
    (z : Fin 64) : laneBit (rotateLeft64 v count) z = laneBit v (z - Fin.ofNat 64 count) := by
  have hleft : (UInt64.ofNat count).toNat % 64 = count := by
    rw [UInt64.toNat_ofNat']
    omega
  have hright : (UInt64.ofNat (64 - count)).toNat % 64 = 64 - count := by
    rw [UInt64.toNat_ofNat']
    omega
  have hz : (z - Fin.ofNat 64 count).val = (64 - count + z.val) % 64 := by
    rw [Fin.val_sub, Fin.val_ofNat, Nat.mod_eq_of_lt hlt]
  have hbits (w : UInt64) (i : Nat) : w.toBitVec.getLsbD i = w.toNat.testBit i := rfl
  rw [laneBit, laneBit, hz, hbits, hbits, rotateLeft64, UInt64.toNat_or, UInt64.toNat_shiftLeft,
    UInt64.toNat_shiftRight, hleft, hright, Nat.testBit_or, Nat.testBit_mod_two_pow,
    Nat.testBit_shiftLeft, Nat.testBit_shiftRight]
  have hover (i : Nat) (hi : 64 ≤ i) : v.toNat.testBit i = false :=
    Nat.testBit_lt_two_pow (lt_of_lt_of_le v.toNat_lt (Nat.pow_le_pow_right (by omega) hi))
  rcases Nat.lt_or_ge z.val count with hlow | hhigh
  · rw [Nat.mod_eq_of_lt (by omega)]
    simp [hlow]
  · have hwrap : (64 - count + z.val) % 64 = z.val - count := by omega
    rw [hwrap, hover (64 - count + z.val) (by omega)]
    simp [hhigh]

theorem columnLane_bit (state : List UInt64) (x : Fin 5) (z : Fin 64) :
    laneBit (columnLane state x) z = Fips202.columnParity (stateArray state) x z := by
  simp only [columnLane, laneBit_xor]
  rfl

theorem thetaLoop_array {state : List UInt64} (h : state.length = 25) :
    stateArray (thetaLoop state) = Fips202.theta (stateArray state) := by
  funext x y z
  rw [stateArray, (thetaLoop_lane h).2, thetaWord, laneBit_xor, laneBit_xor, columnLane_bit,
    laneBit_rotateLeft64 _ (by decide) (by decide), columnLane_bit]
  rfl

theorem rhoPiLoop_array {state : List UInt64} (h : state.length = 25) :
    stateArray (rhoPiLoop state) = Fips202.pi (Fips202.rho (stateArray state)) := by
  funext x y z
  rw [stateArray, (rhoPiLoop_lane h).2, Fips202.pi, Fips202.rho]
  split
  · rename_i horigin
    obtain ⟨rfl, rfl⟩ := horigin
    have hoffset : z - Fin.ofNat 64 (Fips202.rhoOffset (0 + 3 * 0) 0) = z := by
      revert z
      decide
    rw [hoffset]
    rfl
  · rename_i hmoved
    have hindex : keccakPiLane.idxOf (5 * y.val + x.val) < 24 := by
      by_contra hfixed
      exact hmoved ((walk_eq_pi x y).2 hfixed)
    have hpos := ((walk_eq_pi x y).1 hindex).2.2
    have hoffset : Fin.ofNat 64 (Fips202.rhoOffset (x + 3 * y) x % 64)
        = Fin.ofNat 64 (Fips202.rhoOffset (x + 3 * y) x) := Fin.ext (Nat.mod_mod _ _)
    rw [laneBit_rotateLeft64 _ hpos (Nat.mod_lt _ (by decide)), hoffset]
    rfl

theorem chiLoop_array {state : List UInt64} (h : state.length = 25) :
    stateArray (chiLoop state) = Fips202.chi (stateArray state) := by
  funext x y z
  rw [stateArray, (chiLoop_lane h).2, laneBit_xor, laneBit_and, laneBit_not, Fips202.chi,
    Bool.xor_true]
  rfl

theorem roundConstant_bit : ∀ ir < 24, ∀ z : Fin 64,
    laneBit (keccakRoundConstants.getD ir 0) z = Fips202.roundConstantBit ir z := by
  decide +kernel

theorem keccakRound_array {state : List UInt64} (h : state.length = 25) {round : Nat}
    (hround : round < 24) :
    (keccakRound state round).length = 25
      ∧ stateArray (keccakRound state round) = Fips202.rnd (stateArray state) round := by
  have htheta := (thetaLoop_lane h).1
  have hpi := (rhoPiLoop_lane htheta).1
  have hchi := (chiLoop_lane hpi).1
  refine ⟨by rw [keccakRound, List.length_set, hchi], ?_⟩
  rw [Fips202.rnd, ← thetaLoop_array h, ← rhoPiLoop_array htheta, ← chiLoop_array hpi]
  funext x y z
  have hset := lane_set hchi 0 0 ((chiLoop (rhoPiLoop (thetaLoop state))).getD 0 0
    ^^^ keccakRoundConstants.getD round 0) x y
  have hround' : lane (keccakRound state round) x y
      = if x = 0 ∧ y = 0 then (chiLoop (rhoPiLoop (thetaLoop state))).getD 0 0
          ^^^ keccakRoundConstants.getD round 0
        else lane (chiLoop (rhoPiLoop (thetaLoop state))) x y := hset
  rw [stateArray, hround', Fips202.iota, stateArray]
  split
  · rename_i horigin
    obtain ⟨rfl, rfl⟩ := horigin
    rw [laneBit_xor, roundConstant_bit round hround z]
    rfl
  · rfl

theorem keccakF1600_array {state : List UInt64} (h : state.length = 25) :
    (keccakF1600 state).length = 25
      ∧ stateArray (keccakF1600 state) = (List.range 24).foldl Fips202.rnd (stateArray state) := by
  have hrounds : ∀ n ≤ 24, ((List.range n).foldl keccakRound state).length = 25
      ∧ stateArray ((List.range n).foldl keccakRound state)
        = (List.range n).foldl Fips202.rnd (stateArray state) := by
    intro n
    induction n with
    | zero => exact fun _ => ⟨h, rfl⟩
    | succ n ih =>
      intro hn
      obtain ⟨hlength, harray⟩ := ih (by omega)
      obtain ⟨hnext, hround⟩ := keccakRound_array hlength (show n < 24 by omega)
      simp only [List.range_succ, List.foldl_append, List.foldl_cons, List.foldl_nil]
      rw [← harray]
      exact ⟨hnext, hround⟩
  exact hrounds 24 (Nat.le_refl 24)

end C0PQLink
