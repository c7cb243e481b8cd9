import Mathlib.Data.List.Basic
import Mathlib.Logic.Function.Iterate
import Mathlib.Tactic.Ring

/-!
# Butterflies in place

The loops of a number-theoretic transform that works in place. An array is the function of
its entries. In each layer two entries that stand `length` apart are replaced by what a
butterfly makes of them, block after block, with a parameter that is stepped once a block.

* `butterflyBlock_apply`, `butterflyLayer_apply`: no entry is read after it was written, so
  a layer acts on all pairs of entries at once.
* `butterflyLayers_related`: a relation between two butterflies carries over to the layers.
* `butterflyLayers_injective`: layers of injective butterflies are injective.
-/

namespace Foundation

variable {α κ : Type}

/-- The butterfly on the entries `j` and `j + length`. -/
def butterflyAt (f : α → α → α × α) (length : Nat) (p : Nat → α) (j : Nat) : Nat → α :=
  Function.update (Function.update p (j + length) (f (p j) (p (j + length))).2) j
    (f (p j) (p (j + length))).1

/-- The loop over `j` from `start` to `start + length - 1`. -/
def butterflyBlock (f : α → α → α × α) (length : Nat) (p : Nat → α) (start : Nat) : Nat → α :=
  (List.range' start length).foldl (butterflyAt f length) p

/-- The loop over the starts of the first `count` blocks. -/
def butterflyBlocks (f : κ → α → α → α × α) (next : κ → κ) (length count : Nat)
    (state : (Nat → α) × κ) : (Nat → α) × κ :=
  (List.range' 0 count (2 * length)).foldl
    (fun state start => (butterflyBlock (f state.2) length state.1 start, next state.2)) state

/-- The loop over the starts of the blocks below `size`. -/
def butterflyLayer (f : κ → α → α → α × α) (next : κ → κ) (size length : Nat)
    (state : (Nat → α) × κ) : (Nat → α) × κ :=
  butterflyBlocks f next length (size / (2 * length)) state

/-- What the first `count` turns of the loop do to the entry `i`. -/
theorem butterflyTurns_apply (f : α → α → α × α) (length : Nat) (p : Nat → α) (start : Nat)
    {count : Nat} (hcount : count ≤ length) (i : Nat) :
    (List.range' start count).foldl (butterflyAt f length) p i =
      if start ≤ i ∧ i < start + count then (f (p i) (p (i + length))).1
      else if start + length ≤ i ∧ i < start + length + count then (f (p (i - length)) (p i)).2
      else p i := by
  induction count generalizing i with
  | zero =>
    rw [if_neg (by omega), if_neg (by omega)]
    rfl
  | succ count ih =>
    have hbefore : ∀ k, ¬ (start ≤ k ∧ k < start + count) →
        ¬ (start + length ≤ k ∧ k < start + length + count) →
        (List.range' start count).foldl (butterflyAt f length) p k = p k := by
      intro k hfirst hsecond
      rw [ih (by omega) k, if_neg hfirst, if_neg hsecond]
    have hlow := hbefore (start + count) (by omega) (by omega)
    have hhigh := hbefore (start + count + length) (by omega) (by omega)
    rw [List.range'_1_concat, List.foldl_append, List.foldl_cons, List.foldl_nil, butterflyAt, hlow,
      hhigh]
    rcases Nat.lt_trichotomy i (start + count) with hi | rfl | hi
    · rw [Function.update_of_ne (by omega), Function.update_of_ne (by omega), ih (by omega) i]
      by_cases hstart : start ≤ i
      · rw [if_pos (by omega), if_pos (by omega)]
      · rw [if_neg (by omega), if_neg (by omega), if_neg (by omega), if_neg (by omega)]
    · rw [Function.update_self, if_pos (by omega)]
    · rw [Function.update_of_ne (by omega), if_neg (by omega)]
      by_cases hlast : i = start + count + length
      · subst hlast
        rw [Function.update_self, if_pos (by omega), Nat.add_sub_cancel]
      · rw [Function.update_of_ne (by omega), ih (by omega) i, if_neg (by omega)]
        by_cases hsecond : start + length ≤ i ∧ i < start + length + count
        · rw [if_pos hsecond, if_pos (by omega)]
        · rw [if_neg hsecond, if_neg (by omega)]

/-- What a block does to the entry `i`. -/
theorem butterflyBlock_apply (f : α → α → α × α) (length : Nat) (p : Nat → α) (start i : Nat) :
    butterflyBlock f length p start i =
      if start ≤ i ∧ i < start + length then (f (p i) (p (i + length))).1
      else if start + length ≤ i ∧ i < start + 2 * length then (f (p (i - length)) (p i)).2
      else p i := by
  rw [butterflyBlock, butterflyTurns_apply f length p start (Nat.le_refl _), show start + length
    + length = start + 2 * length by omega]

/-- What a layer does to the entry `i` of a block, with the parameter of the block. -/
def layerEntry (f : κ → α → α → α × α) (next : κ → κ) (length : Nat) (parameter : κ)
    (p : Nat → α) (i : Nat) : α :=
  let k := next^[i / (2 * length)] parameter
  if i % (2 * length) < length then (f k (p i) (p (i + length))).1
  else (f k (p (i - length)) (p i)).2

theorem butterflyBlocks_succ (f : κ → α → α → α × α) (next : κ → κ) (length count : Nat)
    (state : (Nat → α) × κ) :
    butterflyBlocks f next length (count + 1) state =
      let before := butterflyBlocks f next length count state
      (butterflyBlock (f before.2) length before.1 (count * (2 * length)), next before.2) := by
  have hstart : 0 + 2 * length * count = count * (2 * length) := by ring
  rw [butterflyBlocks, List.range'_concat, List.foldl_append, List.foldl_cons, List.foldl_nil,
    hstart]
  rfl

theorem butterflyBlocks_snd (f : κ → α → α → α × α) (next : κ → κ) (length count : Nat)
    (p : Nat → α) (parameter : κ) :
    (butterflyBlocks f next length count (p, parameter)).2 = next^[count] parameter := by
  induction count with
  | zero => rfl
  | succ count ih => rw [butterflyBlocks_succ, Function.iterate_succ_apply', ← ih]

theorem butterflyBlocks_fst (f : κ → α → α → α × α) (next : κ → κ) {length : Nat}
    (hlength : 0 < length) (count : Nat) (p : Nat → α) (parameter : κ) (i : Nat) :
    (butterflyBlocks f next length count (p, parameter)).1 i
      = if i < count * (2 * length) then layerEntry f next length parameter p i else p i := by
  induction count generalizing i with
  | zero => simp [butterflyBlocks]
  | succ count ih =>
    have hnext : (count + 1) * (2 * length) = count * (2 * length) + 2 * length := by ring
    rw [butterflyBlocks_succ, hnext]
    simp only [butterflyBlocks_snd, butterflyBlock_apply]
    rcases Nat.lt_or_ge i (count * (2 * length)) with hbefore | hfrom
    · rw [if_neg (by omega), if_neg (by omega), ih, if_pos hbefore, if_pos (by omega)]
    · have hsame (k : Nat) (hk : count * (2 * length) ≤ k) :
          (butterflyBlocks f next length count (p, parameter)).1 k = p k := by
        rw [ih, if_neg (by omega)]
      rcases Nat.lt_or_ge i (count * (2 * length) + 2 * length) with hin | hafter
      · have hquotient : i / (2 * length) = count :=
          Nat.div_eq_of_lt_le (by omega) (by omega)
        have hremainder : i % (2 * length) = i - count * (2 * length) := by
          have hdiv := Nat.div_add_mod i (2 * length)
          rw [hquotient, Nat.mul_comm] at hdiv
          omega
        rw [if_pos hin, layerEntry, hquotient, hremainder]
        by_cases hhalf : i < count * (2 * length) + length
        · rw [if_pos (by omega), if_pos (by omega), hsame i hfrom, hsame (i + length) (by omega)]
        · rw [if_neg (by omega), if_pos (by omega), if_neg (by omega), hsame i hfrom,
            hsame (i - length) (by omega)]
      · rw [if_neg (by omega), if_neg (by omega), if_neg (by omega), hsame i hfrom]

theorem butterflyLayer_snd (f : κ → α → α → α × α) (next : κ → κ) (size length : Nat)
    (p : Nat → α) (parameter : κ) :
    (butterflyLayer f next size length (p, parameter)).2
      = next^[size / (2 * length)] parameter :=
  butterflyBlocks_snd ..

/-- A layer acts on the pairs of entries below `size` at once. -/
theorem butterflyLayer_apply (f : κ → α → α → α × α) (next : κ → κ) {size length : Nat}
    (hlength : 0 < length) (hsize : size / (2 * length) * (2 * length) = size) (p : Nat → α)
    (parameter : κ) (i : Nat) :
    (butterflyLayer f next size length (p, parameter)).1 i
      = if i < size then layerEntry f next length parameter p i else p i := by
  rw [butterflyLayer, butterflyBlocks_fst f next hlength, hsize]

/-! ## Several layers -/

/-- The layers with the given lengths, one after the other. -/
def butterflyLayers (f : κ → α → α → α × α) (next : κ → κ) (size : Nat) (lengths : List Nat)
    (state : (Nat → α) × κ) : (Nat → α) × κ :=
  lengths.foldl (fun state length => butterflyLayer f next size length state) state

/-- How many blocks the layers have in total. -/
def blockCount (size : Nat) (lengths : List Nat) : Nat :=
  (lengths.map fun length => size / (2 * length)).sum

/-- The size is a multiple of the size of a block in every layer. -/
def Fits (size : Nat) (lengths : List Nat) : Prop :=
  ∀ length ∈ lengths, 0 < length ∧ size / (2 * length) * (2 * length) = size

instance (size : Nat) (lengths : List Nat) : Decidable (Fits size lengths) :=
  inferInstanceAs (Decidable (∀ length ∈ lengths, _))

variable {β : Type} {f : κ → α → α → α × α} {g : κ → β → β → β × β} {next : κ → κ}
  {size length : Nat}

theorem block_lt (hsize : size / (2 * length) * (2 * length) = size) {i : Nat} (hi : i < size) :
    i / (2 * length) < size / (2 * length) := by
  apply Nat.div_lt_of_lt_mul
  rwa [Nat.mul_comm, hsize]

/-- The other entry of a pair is below `size` too. -/
theorem partner_lt (hsize : size / (2 * length) * (2 * length) = size) {i : Nat} (hi : i < size)
    (hhalf : i % (2 * length) < length) : i + length < size := by
  have hquotient := block_lt hsize hi
  have hdiv := Nat.div_add_mod i (2 * length)
  have hnext := Nat.mul_le_mul_left (2 * length) (Nat.succ_le_of_lt hquotient)
  rw [Nat.mul_comm (2 * length) (size / (2 * length)), hsize, Nat.mul_succ] at hnext
  omega

theorem butterflyLayers_cons (f : κ → α → α → α × α) (next : κ → κ) (size length : Nat)
    (rest : List Nat) (p : Nat → α) (parameter : κ) :
    butterflyLayers f next size (length :: rest) (p, parameter)
      = butterflyLayers f next size rest ((butterflyLayer f next size length (p, parameter)).1,
          next^[size / (2 * length)] parameter) := by
  rw [← butterflyLayer_snd f next size length p]
  rfl

theorem blockCount_cons (size length : Nat) (rest : List Nat) :
    blockCount size (length :: rest) = size / (2 * length) + blockCount size rest := by
  simp [blockCount]

theorem butterflyLayer_related {Rel Rel' : α → β → Prop} (hlength : 0 < length)
    (hsize : size / (2 * length) * (2 * length) = size) {p : Nat → α} {p' : Nat → β}
    {parameter : κ} (hp : ∀ i < size, Rel (p i) (p' i))
    (hfg : ∀ count < size / (2 * length), ∀ x y x' y', Rel x x' → Rel y y' →
      Rel' (f (next^[count] parameter) x y).1 (g (next^[count] parameter) x' y').1
        ∧ Rel' (f (next^[count] parameter) x y).2 (g (next^[count] parameter) x' y').2) :
    ∀ i < size, Rel' ((butterflyLayer f next size length (p, parameter)).1 i)
      ((butterflyLayer g next size length (p', parameter)).1 i) := by
  intro i hi
  have hquotient := block_lt hsize hi
  rw [butterflyLayer_apply f next hlength hsize, butterflyLayer_apply g next hlength hsize,
    if_pos hi, if_pos hi, layerEntry, layerEntry]
  by_cases hhalf : i % (2 * length) < length
  · rw [if_pos hhalf, if_pos hhalf]
    exact (hfg _ hquotient _ _ _ _ (hp i hi) (hp _ (partner_lt hsize hi hhalf))).1
  · rw [if_neg hhalf, if_neg hhalf]
    exact (hfg _ hquotient _ _ _ _ (hp _ (by omega)) (hp i hi)).2

theorem butterflyLayer_keeps {Bound Bound' : α → Prop} (hlength : 0 < length)
    (hsize : size / (2 * length) * (2 * length) = size) {p : Nat → α} {parameter : κ}
    (hp : ∀ i < size, Bound (p i))
    (hf : ∀ count < size / (2 * length), ∀ x y, Bound x → Bound y →
      Bound' (f (next^[count] parameter) x y).1 ∧ Bound' (f (next^[count] parameter) x y).2) :
    ∀ i < size, Bound' ((butterflyLayer f next size length (p, parameter)).1 i) :=
  @butterflyLayer_related _ _ Unit f (fun _ _ _ => ((), ())) next size length
    (fun x _ => Bound x) (fun x _ => Bound' x) hlength hsize p (fun _ => ()) parameter hp
    fun count hcount x y _ _ hx hy => hf count hcount x y hx hy

/-- `Rel n` relates the entries after `n` layers, and `Valid` holds of the parameters. -/
theorem butterflyLayers_related (Rel : Nat → α → β → Prop) (Valid : κ → Prop)
    (f : κ → α → α → α × α) (g : κ → β → β → β × β) {bound : Nat}
    (hfg : ∀ n < bound, ∀ k, Valid k → ∀ x y x' y', Rel n x x' → Rel n y y' →
      Rel (n + 1) (f k x y).1 (g k x' y').1 ∧ Rel (n + 1) (f k x y).2 (g k x' y').2)
    {lengths : List Nat} (hfits : Fits size lengths) {n : Nat} (hn : n + lengths.length ≤ bound)
    {parameter : κ} (hvalid : ∀ count < blockCount size lengths, Valid (next^[count] parameter))
    {p : Nat → α} {p' : Nat → β} (hp : ∀ i < size, Rel n (p i) (p' i)) :
    ∀ i < size, Rel (n + lengths.length)
      ((butterflyLayers f next size lengths (p, parameter)).1 i)
      ((butterflyLayers g next size lengths (p', parameter)).1 i) := by
  induction lengths generalizing n parameter p p' with
  | nil => exact hp
  | cons length rest ih =>
    obtain ⟨hlength, hsize⟩ := hfits length (List.mem_cons_self ..)
    rw [blockCount_cons] at hvalid
    rw [List.length_cons] at hn
    have hlayer := butterflyLayer_related hlength hsize hp fun count hcount =>
      hfg n (by omega) _ (hvalid count (by omega))
    have hrestValid : ∀ count < blockCount size rest,
        Valid (next^[count] (next^[size / (2 * length)] parameter)) := by
      intro count hcount
      rw [← Function.iterate_add_apply]
      exact hvalid _ (by omega)
    have hrest := ih (fun l hl => hfits l (List.mem_cons_of_mem _ hl))
      (show n + 1 + rest.length ≤ bound by omega) hrestValid hlayer
    rw [butterflyLayers_cons, butterflyLayers_cons, List.length_cons,
      show n + (rest.length + 1) = n + 1 + rest.length by omega]
    exact hrest

theorem butterflyLayers_keeps (Bound : Nat → α → Prop) (Valid : κ → Prop)
    (f : κ → α → α → α × α) {bound : Nat}
    (hf : ∀ n < bound, ∀ k, Valid k → ∀ x y, Bound n x → Bound n y →
      Bound (n + 1) (f k x y).1 ∧ Bound (n + 1) (f k x y).2)
    {lengths : List Nat} (hfits : Fits size lengths) {n : Nat} (hn : n + lengths.length ≤ bound)
    {parameter : κ} (hvalid : ∀ count < blockCount size lengths, Valid (next^[count] parameter))
    {p : Nat → α} (hp : ∀ i < size, Bound n (p i)) :
    ∀ i < size, Bound (n + lengths.length)
      ((butterflyLayers f next size lengths (p, parameter)).1 i) :=
  @butterflyLayers_related _ _ Unit next size (fun n x _ => Bound n x) Valid f
    (fun _ _ _ => ((), ())) bound (fun n hn k hk x y _ _ hx hy => hf n hn k hk x y hx hy) lengths
    hfits n hn parameter hvalid p (fun _ => ()) hp

/-- Both entries of a pair are determined by what the butterfly makes of them. -/
theorem butterflyLayer_injective (hlength : 0 < length)
    (hsize : size / (2 * length) * (2 * length) = size) {p p' : Nat → α} {parameter : κ}
    (hf : ∀ count < size / (2 * length), ∀ x y x' y',
      f (next^[count] parameter) x y = f (next^[count] parameter) x' y' → x = x' ∧ y = y')
    (h : ∀ i < size, (butterflyLayer f next size length (p, parameter)).1 i
      = (butterflyLayer f next size length (p', parameter)).1 i) :
    ∀ i < size, p i = p' i := by
  have hpair : ∀ i < size, i % (2 * length) < length →
      p i = p' i ∧ p (i + length) = p' (i + length) := by
    intro i hi hhalf
    have hpartner := partner_lt hsize hi hhalf
    have hmod : (i + length) % (2 * length) = i % (2 * length) + length := by
      rw [Nat.add_mod, Nat.mod_eq_of_lt (show length < 2 * length by omega),
        Nat.mod_eq_of_lt (by omega)]
    have hdiv : (i + length) / (2 * length) = i / (2 * length) := by
      have h1 := Nat.div_add_mod i (2 * length)
      have h2 := Nat.div_add_mod (i + length) (2 * length)
      rw [hmod] at h2
      exact Nat.eq_of_mul_eq_mul_left (show 0 < 2 * length by omega) (by omega)
    have hfirst := h i hi
    have hsecond := h (i + length) hpartner
    rw [butterflyLayer_apply f next hlength hsize, butterflyLayer_apply f next hlength hsize]
      at hfirst hsecond
    simp only [if_pos hi, if_pos hpartner, layerEntry, hmod, hdiv, if_pos hhalf,
      if_neg (show ¬ i % (2 * length) + length < length by omega), Nat.add_sub_cancel]
      at hfirst hsecond
    exact hf _ (block_lt hsize hi) _ _ _ _ (Prod.ext hfirst hsecond)
  intro i hi
  by_cases hhalf : i % (2 * length) < length
  · exact (hpair i hi hhalf).1
  · -- the entry is the second one of the pair that starts `length` before it
    have hlow : length ≤ i := (Nat.le_of_not_lt hhalf).trans (Nat.mod_le ..)
    have hmod : (i - length) % (2 * length) = i % (2 * length) - length := by
      have hdiv := Nat.div_add_mod i (2 * length)
      have hlt := Nat.mod_lt i (show 0 < 2 * length by omega)
      rw [show i - length = i % (2 * length) - length + 2 * length * (i / (2 * length)) by omega,
        Nat.add_mul_mod_self_left, Nat.mod_eq_of_lt (by omega)]
    have hlt := Nat.mod_lt i (show 0 < 2 * length by omega)
    have h := (hpair (i - length) (by omega) (by omega)).2
    rwa [Nat.sub_add_cancel hlow] at h

theorem butterflyLayers_injective (Valid : κ → Prop)
    (hf : ∀ k, Valid k → ∀ x y x' y', f k x y = f k x' y' → x = x' ∧ y = y')
    {lengths : List Nat} (hfits : Fits size lengths) {parameter : κ}
    (hvalid : ∀ count < blockCount size lengths, Valid (next^[count] parameter))
    {p p' : Nat → α} (h : ∀ i < size, (butterflyLayers f next size lengths (p, parameter)).1 i
      = (butterflyLayers f next size lengths (p', parameter)).1 i) :
    ∀ i < size, p i = p' i := by
  induction lengths generalizing parameter p p' with
  | nil => exact h
  | cons length rest ih =>
    obtain ⟨hlength, hsize⟩ := hfits length (List.mem_cons_self ..)
    rw [blockCount_cons] at hvalid
    have hrestValid : ∀ count < blockCount size rest,
        Valid (next^[count] (next^[size / (2 * length)] parameter)) := by
      intro count hcount
      rw [← Function.iterate_add_apply]
      exact hvalid _ (by omega)
    rw [butterflyLayers_cons, butterflyLayers_cons] at h
    exact butterflyLayer_injective hlength hsize
      (fun count hcount => hf _ (hvalid count (by omega)))
      (ih (fun l hl => hfits l (List.mem_cons_of_mem _ hl)) hrestValid h)

end Foundation
