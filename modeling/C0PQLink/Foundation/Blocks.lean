import Mathlib.Data.List.Basic
import Mathlib.Data.List.Infix
import Mathlib.Tactic.Ring

/-!
# Streams cut into blocks

A stream that arrives in pieces of any length and is handed on in blocks of `n`. What a
consumer has to hold is the blocks that are complete and the elements behind them.

* `fullBlocks_unique`: the blocks and the rest of a stream are determined by their lengths.
* `fullBlocks_append_short`, `fullBlocks_append_full`: a piece that leaves the last block
  open, and one that completes it.
* `fullBlocks_initial`: the blocks of a stream are those of what arrived first, and more.
-/

namespace Foundation

variable {α : Type}

/-- The complete blocks of `n` elements. -/
def fullBlocks (n : Nat) (stream : List α) : List (List α) :=
  (List.range (stream.length / n)).map fun i => (stream.drop (n * i)).take n

/-- The elements behind the last complete block. -/
def unfinished (n : Nat) (stream : List α) : List α := stream.drop (n * (stream.length / n))

@[simp] theorem length_fullBlocks (n : Nat) (stream : List α) :
    (fullBlocks n stream).length = stream.length / n := by
  simp [fullBlocks]

@[simp] theorem length_unfinished (n : Nat) (stream : List α) :
    (unfinished n stream).length = stream.length % n := by
  have hdiv := Nat.div_add_mod stream.length n
  rw [unfinished, List.length_drop]
  omega

theorem unfinished_lt {n : Nat} (hn : 0 < n) (stream : List α) :
    (unfinished n stream).length < n := by
  rw [length_unfinished]
  exact Nat.mod_lt _ hn

@[simp] theorem fullBlocks_nil (n : Nat) : fullBlocks n ([] : List α) = [] := by
  simp [fullBlocks]

@[simp] theorem unfinished_nil (n : Nat) : unfinished n ([] : List α) = [] := by
  simp [unfinished]

theorem length_of_mem_fullBlocks {n : Nat} {stream block : List α}
    (h : block ∈ fullBlocks n stream) : block.length = n := by
  obtain ⟨i, hi, rfl⟩ := List.mem_map.mp h
  have hi : i < stream.length / n := List.mem_range.mp hi
  have hblock : n * (i + 1) ≤ n * (stream.length / n) := Nat.mul_le_mul_left n hi
  have hdiv := Nat.mul_div_le stream.length n
  rw [List.length_take, List.length_drop]
  have hsucc : n * (i + 1) = n * i + n := by ring
  omega

/-- A first block is taken off the stream. -/
theorem fullBlocks_block_append {n : Nat} (hn : 0 < n) {block : List α} (hblock : block.length = n)
    (rest : List α) : fullBlocks n (block ++ rest) = block :: fullBlocks n rest := by
  have hcount : (block ++ rest).length / n = rest.length / n + 1 := by
    rw [List.length_append, hblock, Nat.add_div_left _ hn]
  rw [fullBlocks, hcount, List.range_succ_eq_map, List.map_cons, List.map_map]
  congr 1
  · simp [← hblock]
  · refine List.map_congr_left fun i _ => ?_
    have hsucc : n * (i + 1) = block.length + n * i := by rw [hblock]; ring
    simp only [Function.comp_apply, Nat.succ_eq_add_one, hsucc]
    rw [List.drop_append, List.drop_of_length_le (by omega), List.nil_append]
    congr 2
    omega

theorem unfinished_block_append {n : Nat} (hn : 0 < n) {block : List α} (hblock : block.length = n)
    (rest : List α) : unfinished n (block ++ rest) = unfinished n rest := by
  have hcount : (block ++ rest).length / n = rest.length / n + 1 := by
    rw [List.length_append, hblock, Nat.add_div_left _ hn]
  have hsucc : n * (rest.length / n + 1) = block.length + n * (rest.length / n) := by
    rw [hblock]
    ring
  rw [unfinished, hcount, hsucc, List.drop_append, List.drop_of_length_le (by omega),
    List.nil_append, unfinished]
  congr 1
  omega

theorem fullBlocks_of_lt {n : Nat} {stream : List α} (h : stream.length < n) :
    fullBlocks n stream = [] := by
  rw [fullBlocks, Nat.div_eq_of_lt h]
  rfl

theorem unfinished_of_lt {n : Nat} {stream : List α} (h : stream.length < n) :
    unfinished n stream = stream := by
  rw [unfinished, Nat.div_eq_of_lt h]
  rfl

/-- The blocks and the rest of a stream are determined by their lengths. -/
theorem fullBlocks_unique {n : Nat} {blocks : List (List α)} {rest : List α}
    (hblocks : ∀ block ∈ blocks, block.length = n) (hrest : rest.length < n) :
    fullBlocks n (blocks.flatten ++ rest) = blocks
      ∧ unfinished n (blocks.flatten ++ rest) = rest := by
  have hn : 0 < n := by omega
  induction blocks with
  | nil => exact ⟨fullBlocks_of_lt hrest, unfinished_of_lt hrest⟩
  | cons block blocks ih =>
    have hblock := hblocks block List.mem_cons_self
    have hnext := ih fun other hmem => hblocks other (List.mem_cons_of_mem _ hmem)
    rw [List.flatten_cons, List.append_assoc, fullBlocks_block_append hn hblock,
      unfinished_block_append hn hblock, hnext.1, hnext.2]
    exact ⟨rfl, rfl⟩

theorem flatten_fullBlocks_take (n count : Nat) (stream : List α) :
    ((List.range count).map fun i => (stream.drop (n * i)).take n).flatten
      = stream.take (n * count) := by
  induction count with
  | zero => simp
  | succ count ih =>
    rw [List.range_succ, List.map_append, List.flatten_append, ih, Nat.mul_succ, List.take_add]
    simp

theorem flatten_fullBlocks (n : Nat) (stream : List α) :
    (fullBlocks n stream).flatten = stream.take (n * (stream.length / n)) :=
  flatten_fullBlocks_take n _ stream

theorem fullBlocks_append_unfinished (n : Nat) (stream : List α) :
    (fullBlocks n stream).flatten ++ unfinished n stream = stream := by
  rw [flatten_fullBlocks, unfinished, List.take_append_drop]

/-- Blocks that follow the complete ones. -/
theorem fullBlocks_append_blocks {n : Nat} (hn : 0 < n) (stream : List α)
    {blocks : List (List α)} (hblocks : ∀ block ∈ blocks, block.length = n) :
    fullBlocks n ((fullBlocks n stream).flatten ++ blocks.flatten)
      = fullBlocks n stream ++ blocks := by
  have hall : ∀ block ∈ fullBlocks n stream ++ blocks, block.length = n := by
    intro block hmem
    rcases List.mem_append.mp hmem with hmem | hmem
    · exact length_of_mem_fullBlocks hmem
    · exact hblocks block hmem
  have hunique := (fullBlocks_unique hall (show ([] : List α).length < n from hn)).1
  rwa [List.append_nil, List.flatten_append] at hunique

section

variable {n : Nat} {stream piece : List α}

/-- A piece that leaves the last block open. -/
theorem fullBlocks_append_short (h : (unfinished n stream).length + piece.length < n) :
    fullBlocks n (stream ++ piece) = fullBlocks n stream
      ∧ unfinished n (stream ++ piece) = unfinished n stream ++ piece := by
  have hwhole : stream ++ piece
      = (fullBlocks n stream).flatten ++ (unfinished n stream ++ piece) := by
    rw [← List.append_assoc, fullBlocks_append_unfinished]
  rw [hwhole]
  refine fullBlocks_unique (fun block hmem => length_of_mem_fullBlocks hmem) ?_
  rw [List.length_append]
  exact h

/-- A piece that completes the last block. -/
theorem fullBlocks_append_full (hn : 0 < n)
    (h : (unfinished n stream).length + piece.length = n) :
    fullBlocks n (stream ++ piece) = fullBlocks n stream ++ [unfinished n stream ++ piece]
      ∧ unfinished n (stream ++ piece) = [] := by
  have hwhole : stream ++ piece
      = (fullBlocks n stream ++ [unfinished n stream ++ piece]).flatten ++ [] := by
    rw [List.append_nil, List.flatten_append, List.flatten_singleton, ← List.append_assoc,
      fullBlocks_append_unfinished]
  rw [hwhole]
  refine fullBlocks_unique (fun block hmem => ?_) hn
  rcases List.mem_append.mp hmem with hmem | hmem
  · exact length_of_mem_fullBlocks hmem
  · rw [List.mem_singleton.mp hmem, List.length_append]
    exact h

theorem fullBlocks_initial (n : Nat) (stream more : List α) :
    fullBlocks n stream <+: fullBlocks n (stream ++ more) := by
  rcases Nat.eq_zero_or_pos n with rfl | hn
  · simp [fullBlocks]
  · have hwhole : stream ++ more
        = (fullBlocks n stream ++ fullBlocks n (unfinished n stream ++ more)).flatten
          ++ unfinished n (unfinished n stream ++ more) := by
      rw [List.flatten_append, List.append_assoc, fullBlocks_append_unfinished, ← List.append_assoc,
        fullBlocks_append_unfinished]
    have hunique : fullBlocks n ((fullBlocks n stream
        ++ fullBlocks n (unfinished n stream ++ more)).flatten
        ++ unfinished n (unfinished n stream ++ more)) = _ ∧ _ = _ :=
      fullBlocks_unique ?_ (unfinished_lt hn _)
    · rw [← hwhole] at hunique
      rw [hunique.1]
      exact List.prefix_append _ _
    · intro block hmem
      rcases List.mem_append.mp hmem with hmem | hmem
      · exact length_of_mem_fullBlocks hmem
      · exact length_of_mem_fullBlocks hmem

end

end Foundation
