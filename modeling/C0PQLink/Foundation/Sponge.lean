import Mathlib.Data.List.GetD
import Mathlib.Logic.Function.Iterate
import C0PQLink.Foundation.Blocks

/-!
# Sponges

A state of `width` elements takes in a stream by blocks of `rate` elements, with a function
`f` behind each block, and gives out its first `rate` elements between two applications of
`f`. An implementation that works element by element keeps a position in the state.

* `Absorbing.absorb`: an element more, taken in at the position.
* `Absorbing.pad`: a last block that is completed at the position.
* `Squeezing.squeeze`: an element more, given out at the position.
* `absorbed_encode`, `squeezed_encode`: the sponge over encoded elements.
-/

namespace Foundation

variable {α : Type} (add : α → α → α) (f : List α → List α) (rate : Nat)

/-! ## States and streams -/

/-- A piece added to the first elements of a state. -/
def addFront (state piece : List α) : List α :=
  List.zipWith add state piece ++ state.drop piece.length

/-- The state behind the complete blocks of a stream. -/
def absorbed (start stream : List α) : List α :=
  (fullBlocks rate stream).foldl (fun state block => f (addFront add state block)) start

/-- The first `count` elements that a state gives out. -/
def squeezed (state : List α) (count : Nat) : List α :=
  ((List.range (count / rate + 1)).flatMap fun i => (f^[i] state).take rate).take count

/-- A function that keeps the length of the state. -/
def KeepsWidth (width : Nat) : Prop := ∀ state : List α, state.length = width →
  (f state).length = width

@[simp] theorem addFront_nil (state : List α) : addFront add state [] = state := by
  simp [addFront]

theorem length_addFront {state piece : List α} (h : piece.length ≤ state.length) :
    (addFront add state piece).length = state.length := by
  simp only [addFront, List.length_append, List.length_zipWith, List.length_drop]
  omega

theorem addFront_cons (x y : α) (state piece : List α) :
    addFront add (x :: state) (y :: piece) = add x y :: addFront add state piece := rfl

/-- One more element of the piece. -/
theorem addFront_append_singleton {state piece : List α} (h : piece.length < state.length)
    (y : α) : addFront add state (piece ++ [y])
      = (addFront add state piece).modify piece.length (add · y) := by
  induction piece generalizing state with
  | nil =>
    cases state with
    | nil => simp at h
    | cons x state => simp [addFront]
  | cons z piece ih =>
    cases state with
    | nil => simp at h
    | cons x state =>
      rw [List.cons_append, addFront_cons, addFront_cons, List.length_cons,
        List.modify_succ_cons, ih (by simpa using h)]

/-- A change of one element of the piece. -/
theorem addFront_modify (hassoc : ∀ x y z, add x (add y z) = add (add x y) z)
    {state piece : List α} (h : piece.length ≤ state.length) (i : Nat) (hi : i < piece.length)
    (y : α) : addFront add state (piece.modify i (add · y))
      = (addFront add state piece).modify i (add · y) := by
  induction piece generalizing state i with
  | nil => simp at hi
  | cons z piece ih =>
    cases state with
    | nil => simp at h
    | cons x state =>
      cases i with
      | zero =>
        rw [List.modify_zero_cons, addFront_cons, addFront_cons, List.modify_zero_cons, hassoc]
      | succ i =>
        rw [List.modify_succ_cons, addFront_cons, addFront_cons, List.modify_succ_cons,
          ih (by simpa using h) i (by simpa using hi)]

/-- Neutral elements behind the piece. -/
theorem addFront_append_replicate {zero : α} (hzero : ∀ x, add x zero = x)
    {state piece : List α} {n : Nat} (h : piece.length + n ≤ state.length) :
    addFront add state (piece ++ List.replicate n zero) = addFront add state piece := by
  induction n generalizing piece with
  | zero => simp
  | succ n ih =>
    rw [List.replicate_succ', ← List.append_assoc, addFront_append_singleton add (by simp; omega),
      ih (by omega)]
    simp only [hzero]
    exact List.modify_id _ _

variable {f} {width : Nat}

theorem KeepsWidth.iterate (hf : KeepsWidth f width) {state : List α} (h : state.length = width)
    (n : Nat) : (f^[n] state).length = width := by
  induction n with
  | zero => exact h
  | succ n ih =>
    rw [Function.iterate_succ_apply']
    exact hf _ ih

theorem length_absorbed {rate : Nat} (hf : KeepsWidth f width) (hrate : rate ≤ width)
    {start : List α} (hstart : start.length = width) (stream : List α) :
    (absorbed add f rate start stream).length = width := by
  rw [absorbed]
  have hblocks : ∀ block ∈ fullBlocks rate stream, block.length = rate :=
    fun block hmem => length_of_mem_fullBlocks hmem
  generalize fullBlocks rate stream = blocks at hblocks
  induction blocks generalizing start with
  | nil => exact hstart
  | cons block blocks ih =>
    have hblock := hblocks block List.mem_cons_self
    refine ih (hf _ ?_) fun other hmem => hblocks other (List.mem_cons_of_mem _ hmem)
    rw [length_addFront add (by omega), hstart]

/-! ## Element by element -/

/-- A state and the position of the next element. -/
structure Cursor (α : Type) where
  state : List α
  position : Nat

variable (f) in
/-- The position moves on, and `f` is applied at the end of a block. -/
def Cursor.advance (rate : Nat) (c : Cursor α) : Cursor α :=
  if c.position + 1 = rate then ⟨f c.state, 0⟩ else ⟨c.state, c.position + 1⟩

/-- A cursor that has taken in a stream. -/
structure Absorbing (f : List α → List α) (rate : Nat) (start : List α) (c : Cursor α)
    (stream : List α) : Prop where
  state : c.state = addFront add (absorbed add f rate start stream) (unfinished rate stream)
  position : c.position = (unfinished rate stream).length

theorem absorbing_start (rate : Nat) (start : List α) :
    Absorbing add f rate start ⟨start, 0⟩ [] := by
  refine ⟨?_, ?_⟩
  · simp [absorbed]
  · simp

section

variable {add} {rate : Nat} {start : List α} {c : Cursor α} {stream : List α}

theorem Absorbing.position_lt (h : Absorbing add f rate start c stream) (hrate : 0 < rate) :
    c.position < rate := by
  rw [h.position]
  exact unfinished_lt hrate stream

theorem Absorbing.absorb (h : Absorbing add f rate start c stream) (hf : KeepsWidth f width)
    (hrate : 0 < rate) (hwidth : rate ≤ width) (hstart : start.length = width) (x : α) :
    Absorbing add f rate start
      (Cursor.advance f rate ⟨c.state.modify c.position (add · x), c.position⟩)
      (stream ++ [x]) := by
  have hlength := length_absorbed add hf hwidth hstart stream
  have hlt := unfinished_lt hrate stream
  have hadd : c.state.modify c.position (add · x)
      = addFront add (absorbed add f rate start stream) (unfinished rate stream ++ [x]) := by
    rw [addFront_append_singleton add (by omega), h.state, h.position]
  rw [hadd, Cursor.advance]
  split
  · rename_i hfull
    have hclosed : (unfinished rate stream).length + [x].length = rate := by
      rw [← h.position]
      exact hfull
    obtain ⟨hblocks, hrest⟩ := fullBlocks_append_full hrate hclosed
    refine ⟨?_, ?_⟩
    · rw [hrest, addFront_nil]
      conv_rhs => rw [absorbed, hblocks, List.foldl_append]
      rfl
    · rw [hrest]
      rfl
  · rename_i hshort
    have hopen : (unfinished rate stream).length + [x].length < rate := by
      rw [← h.position, List.length_singleton]
      have hposition := h.position
      simp only at hshort
      omega
    obtain ⟨hblocks, hrest⟩ := fullBlocks_append_short hopen
    refine ⟨?_, ?_⟩
    · rw [hrest]
      conv_rhs => rw [absorbed, hblocks]
      rfl
    · rw [hrest, List.length_append, ← h.position]
      rfl

/-- A last block that is completed by `x` and neutral elements, with `y` added to the last one. -/
theorem Absorbing.pad (h : Absorbing add f rate start c stream)
    (hassoc : ∀ x y z, add x (add y z) = add (add x y) z) {zero : α} (hzero : ∀ x, add x zero = x)
    (hf : KeepsWidth f width) (hwidth : rate ≤ width) (hstart : start.length = width) {n : Nat}
    (hn : c.position + n + 1 = rate) (x y : α) :
    absorbed add f rate start (stream ++ (x :: List.replicate n zero).modify n (add · y))
      = f ((c.state.modify c.position (add · x)).modify (c.position + n) (add · y)) := by
  have hlength := length_absorbed add hf hwidth hstart stream
  have hposition := h.position
  have hfull : (unfinished rate stream).length
      + ((x :: List.replicate n zero).modify n (add · y)).length = rate := by
    rw [List.length_modify, List.length_cons, List.length_replicate]
    omega
  have hblock : unfinished rate stream ++ (x :: List.replicate n zero).modify n (add · y)
      = (unfinished rate stream ++ [x] ++ List.replicate n zero).modify (c.position + n)
          (add · y) := by
    rw [List.append_assoc, List.singleton_append, hposition]
    exact (List.modifyTailIdx_add _ _ _ _).symm
  have hfront : (unfinished rate stream ++ [x]).length + n = rate := by
    rw [List.length_append, List.length_singleton]
    omega
  have hstate : addFront add (absorbed add f rate start stream)
      (unfinished rate stream ++ [x] ++ List.replicate n zero)
        = c.state.modify c.position (add · x) := by
    rw [addFront_append_replicate add hzero (by omega),
      addFront_append_singleton add (by omega), h.state, hposition]
  rw [absorbed, (fullBlocks_append_full (by omega) hfull).1, List.foldl_append, List.foldl_cons,
    List.foldl_nil, hblock, ← hstate]
  congr 1
  refine addFront_modify add hassoc ?_ _ ?_ y
  · rw [List.length_append, List.length_replicate, hfront]
    exact le_of_le_of_eq hwidth hlength.symm
  · rw [List.length_append, List.length_replicate]
    omega

end

/-! ## Output -/

/-- A cursor that has given out `count` elements. -/
structure Squeezing (f : List α → List α) (rate : Nat) (start : List α) (c : Cursor α)
    (count : Nat) : Prop where
  state : c.state = f^[count / rate] start
  position : c.position = count % rate

theorem squeezing_start (rate : Nat) (start : List α) : Squeezing f rate start ⟨start, 0⟩ 0 := by
  refine ⟨?_, ?_⟩
  · rw [Nat.zero_div]
    rfl
  · rw [Nat.zero_mod]

section

variable {rate : Nat} {start : List α} {c : Cursor α} {count : Nat}

theorem Squeezing.squeeze (h : Squeezing f rate start c count) (hrate : 0 < rate) :
    Squeezing f rate start (c.advance f rate) (count + 1) := by
  have hlt := Nat.mod_lt count hrate
  have hdiv := Nat.div_add_mod count rate
  rw [Cursor.advance]
  split
  · rename_i hfull
    rw [h.position] at hfull
    have hcount : count + 1 = rate * (count / rate + 1) := by
      rw [Nat.mul_succ]
      omega
    refine ⟨?_, ?_⟩
    · rw [hcount, Nat.mul_div_cancel_left _ hrate, Function.iterate_succ_apply', h.state]
    · rw [hcount, Nat.mul_mod_right]
  · rename_i hshort
    rw [h.position] at hshort
    have hcount : count + 1 = (count % rate + 1) + rate * (count / rate) := by omega
    have hopen : count % rate + 1 < rate := by omega
    refine ⟨?_, ?_⟩
    · rw [hcount, Nat.add_mul_div_left _ _ hrate, Nat.div_eq_of_lt hopen, Nat.zero_add, h.state]
    · rw [hcount, Nat.add_mul_mod_self_left, Nat.mod_eq_of_lt hopen, h.position]

variable [Inhabited α]

/-- The element `t` that a state gives out. -/
def outputAt (f : List α → List α) (rate : Nat) (state : List α) (t : Nat) : α :=
  (f^[t / rate] state).getD (t % rate) default

theorem Squeezing.output (h : Squeezing f rate start c count) :
    c.state.getD c.position default = outputAt f rate start count := by
  rw [h.state, h.position, outputAt]

theorem squeezed_eq_map (hf : KeepsWidth f width) (hrate : 0 < rate) (hwidth : rate ≤ width)
    (hstart : start.length = width) (count : Nat) :
    squeezed f rate start count = (List.range count).map (outputAt f rate start) := by
  have hblocks (blocks : Nat) : ((List.range blocks).flatMap fun i => (f^[i] start).take rate)
      = (List.range (rate * blocks)).map (outputAt f rate start) := by
    induction blocks with
    | zero => simp
    | succ blocks ih =>
      have hlength := hf.iterate hstart blocks
      rw [List.range_succ, List.flatMap_append, ih, Nat.mul_succ, List.range_add, List.map_append,
        List.flatMap_singleton, List.map_map]
      congr 1
      refine List.ext_getElem (by simp; omega) fun i hi _ => ?_
      have hi : i < rate := by
        rw [List.length_take] at hi
        omega
      have hdiv : (rate * blocks + i) / rate = blocks := by
        rw [Nat.mul_add_div hrate, Nat.div_eq_of_lt hi, Nat.add_zero]
      have hmod : (rate * blocks + i) % rate = i := by
        rw [Nat.mul_add_mod, Nat.mod_eq_of_lt hi]
      simp only [List.getElem_take, List.getElem_map, List.getElem_range, Function.comp_apply,
        outputAt, hdiv, hmod]
      rw [List.getD_eq_getElem _ _ (by omega)]
  have hle : count ≤ rate * (count / rate + 1) := by
    have hdiv := Nat.div_add_mod count rate
    have hlt := Nat.mod_lt count hrate
    rw [Nat.mul_succ]
    omega
  rw [squeezed, hblocks, ← List.map_take, List.take_range, Nat.min_eq_left hle]

end

/-! ## Encoded elements -/

section

variable {β : Type} {encode : α → List β} {k : Nat}

theorem length_flatMap_encode (hencode : ∀ x, (encode x).length = k) (l : List α) :
    (l.flatMap encode).length = k * l.length := by
  induction l with
  | nil => rfl
  | cons x l ih =>
    rw [List.flatMap_cons, List.length_append, ih, hencode, List.length_cons, Nat.mul_succ,
      Nat.add_comm]

theorem drop_flatMap_encode (hencode : ∀ x, (encode x).length = k) (l : List α) (n : Nat) :
    (l.flatMap encode).drop (k * n) = (l.drop n).flatMap encode := by
  induction l generalizing n with
  | nil => simp
  | cons x l ih =>
    cases n with
    | zero => simp
    | succ n =>
      rw [List.drop_succ_cons, ← ih n, List.flatMap_cons, Nat.mul_succ, Nat.add_comm,
        ← List.drop_drop, List.drop_left' (hencode x)]

theorem getD_flatMap_encode (hencode : ∀ x, (encode x).length = k) {l : List α} {i j : Nat}
    (hi : i < l.length) (hj : j < k) (d : β) :
    (l.flatMap encode).getD (k * i + j) d = (encode (l.get ⟨i, hi⟩)).getD j d := by
  have hdrop : (l.flatMap encode).getD (k * i + j) d
      = ((l.flatMap encode).drop (k * i)).getD j d := by
    rw [List.getD_eq_getElem?_getD, List.getD_eq_getElem?_getD, List.getElem?_drop]
  rw [hdrop, drop_flatMap_encode hencode, List.drop_eq_getElem_cons hi, List.flatMap_cons,
    List.getD_append _ _ _ _ (by rw [hencode]; exact hj)]
  rfl

theorem take_flatMap_encode (hencode : ∀ x, (encode x).length = k) (l : List α) (n : Nat) :
    (l.flatMap encode).take (k * n) = (l.take n).flatMap encode := by
  induction l generalizing n with
  | nil => simp
  | cons x l ih =>
    cases n with
    | zero => simp
    | succ n =>
      have hle : (encode x).length ≤ k * (n + 1) := by
        rw [hencode, Nat.mul_succ]
        omega
      have hrest : k * (n + 1) - (encode x).length = k * n := by
        rw [hencode, Nat.mul_succ]
        omega
      rw [List.take_succ_cons, List.flatMap_cons, List.flatMap_cons, ← ih n, List.take_append,
        List.take_of_length_le hle, hrest]

theorem fullBlocks_flatMap_encode (hencode : ∀ x, (encode x).length = k) (hk : 0 < k) (n : Nat)
    (l : List α) :
    fullBlocks (k * n) (l.flatMap encode) = (fullBlocks n l).map (List.flatMap encode) := by
  rw [fullBlocks, fullBlocks, length_flatMap_encode hencode, Nat.mul_div_mul_left _ _ hk,
    List.map_map]
  refine List.map_congr_left fun i _ => ?_
  rw [Function.comp_apply, Nat.mul_assoc, drop_flatMap_encode hencode, take_flatMap_encode hencode]

variable {add} {add' : β → β → β}

theorem zipWith_flatMap_encode (hencode : ∀ x, (encode x).length = k)
    (hadd : ∀ x y, encode (add x y) = List.zipWith add' (encode x) (encode y)) (a b : List α) :
    (List.zipWith add a b).flatMap encode
      = List.zipWith add' (a.flatMap encode) (b.flatMap encode) := by
  induction a generalizing b with
  | nil => simp
  | cons x a ih =>
    cases b with
    | nil => simp
    | cons y b =>
      rw [List.zipWith_cons_cons, List.flatMap_cons, List.flatMap_cons, List.flatMap_cons, ih,
        List.zipWith_append (by rw [hencode, hencode]), hadd]

theorem addFront_encode (hencode : ∀ x, (encode x).length = k)
    (hadd : ∀ x y, encode (add x y) = List.zipWith add' (encode x) (encode y))
    (state piece : List α) :
    (addFront add state piece).flatMap encode
      = addFront add' (state.flatMap encode) (piece.flatMap encode) := by
  rw [addFront, addFront, List.flatMap_append, zipWith_flatMap_encode hencode hadd,
    length_flatMap_encode hencode, drop_flatMap_encode hencode]

variable {f' : List β → List β}

theorem absorbed_encode (hencode : ∀ x, (encode x).length = k) (hk : 0 < k)
    (hadd : ∀ x y, encode (add x y) = List.zipWith add' (encode x) (encode y))
    (hf : KeepsWidth f width)
    (hcode : ∀ state : List α, state.length = width →
      (f state).flatMap encode = f' (state.flatMap encode))
    {rate : Nat} (hwidth : rate ≤ width) {start : List α} (hstart : start.length = width)
    (stream : List α) :
    (absorbed add f rate start stream).flatMap encode
      = absorbed add' f' (k * rate) (start.flatMap encode) (stream.flatMap encode) := by
  rw [absorbed, absorbed, fullBlocks_flatMap_encode hencode hk]
  have hblocks : ∀ block ∈ fullBlocks rate stream, block.length = rate :=
    fun block hmem => length_of_mem_fullBlocks hmem
  generalize fullBlocks rate stream = blocks at hblocks
  induction blocks generalizing start with
  | nil => rfl
  | cons block blocks ih =>
    have hblock := hblocks block List.mem_cons_self
    have hlength : (addFront add start block).length = width := by
      rw [length_addFront add (by omega), hstart]
    rw [List.foldl_cons, List.map_cons, List.foldl_cons, ← addFront_encode hencode hadd,
      ← hcode _ hlength]
    exact ih (hf _ hlength) fun other hmem => hblocks other (List.mem_cons_of_mem _ hmem)

theorem iterate_encode (hf : KeepsWidth f width)
    (hcode : ∀ state : List α, state.length = width →
      (f state).flatMap encode = f' (state.flatMap encode))
    {start : List α} (hstart : start.length = width) (n : Nat) :
    (f^[n] start).flatMap encode = f'^[n] (start.flatMap encode) := by
  induction n with
  | zero => rfl
  | succ n ih =>
    rw [Function.iterate_succ_apply', Function.iterate_succ_apply', hcode _ (hf.iterate hstart n),
      ih]

theorem squeezed_encode (hencode : ∀ x, (encode x).length = k) (hk : 0 < k)
    (hf : KeepsWidth f width)
    (hcode : ∀ state : List α, state.length = width →
      (f state).flatMap encode = f' (state.flatMap encode))
    (rate : Nat) {start : List α} (hstart : start.length = width) (count : Nat) :
    (squeezed f rate start count).flatMap encode
      = squeezed f' (k * rate) (start.flatMap encode) (k * count) := by
  rw [squeezed, squeezed, ← take_flatMap_encode hencode, List.flatMap_assoc,
    Nat.mul_div_mul_left _ _ hk]
  congr 2
  funext i
  rw [← take_flatMap_encode hencode, iterate_encode hf hcode hstart]

end

end Foundation
