import Mathlib.Data.Nat.Bitwise
import Mathlib.Data.List.Basic

/-!
# Hash trees

A complete binary tree whose nodes are numbered from the root 1 on, the children of `r` being
`2 * r` and `2 * r + 1`. The nodes are of any type, and the function that makes a node of its
children may depend on its number.

* `sibling_parent`: a node, its sibling and the node above them.
* `climbTree_siblings`: from a node with the siblings on its way, the root is computed.
-/

namespace Foundation

variable {α : Type} {inner : Nat → α → α → α} {height : Nat} {node : Nat → α}

/-- The nodes above the last level are made of their children. -/
def HashTree (inner : Nat → α → α → α) (height : Nat) (node : Nat → α) : Prop :=
  ∀ r, 0 < r → r < 2 ^ height → node r = inner r (node (2 * r)) (node (2 * r + 1))

/-- From a node towards the root, with one sibling a level. -/
def climbTree (inner : Nat → α → α → α) : List α → Nat → α → α
  | [], _, value => value
  | sibling :: path, r, value =>
    climbTree inner path (r / 2)
      (if r % 2 = 1 then inner (r / 2) sibling value else inner (r / 2) value sibling)

/-- A node and its sibling, in their order, make the node above them. -/
theorem sibling_parent (htree : HashTree inner height node) {r : Nat} (hroot : 1 < r)
    (hr : r < 2 ^ (height + 1)) :
    (if r % 2 = 1 then inner (r / 2) (node (r ^^^ 1)) (node r)
      else inner (r / 2) (node r) (node (r ^^^ 1))) = node (r / 2) := by
  have hpow : 2 ^ (height + 1) = 2 * 2 ^ height := Nat.pow_succ'
  have hparent := htree (r / 2) (by omega) (by omega)
  rw [hparent]
  split
  · rename_i hodd
    have hleft : 2 * (r / 2) = r - 1 := by omega
    have hright : 2 * (r / 2) + 1 = r := by omega
    rw [Nat.xor_one_of_odd (Nat.odd_iff.mpr hodd), hright, hleft]
  · rename_i heven
    have hleft : 2 * (r / 2) = r := by omega
    rw [Nat.xor_one_of_even (Nat.even_iff.mpr (by omega)), hleft]

/-- The siblings on the way from a node to the node `levels` above it. -/
def siblings (node : Nat → α) (levels r : Nat) : List α :=
  (List.range levels).map fun i => node (r / 2 ^ i ^^^ 1)

theorem siblings_succ (node : Nat → α) (levels r : Nat) :
    siblings node (levels + 1) r = node (r ^^^ 1) :: siblings node levels (r / 2) := by
  rw [siblings, List.range_succ_eq_map, List.map_cons, List.map_map, siblings, Nat.pow_zero,
    Nat.div_one]
  congr 1
  refine List.map_congr_left fun i _ => ?_
  change node (r / 2 ^ (i + 1) ^^^ 1) = _
  rw [Nat.pow_succ', Nat.div_div_eq_div_mul]

theorem climbTree_siblings (htree : HashTree inner height node) {levels r : Nat}
    (hlevels : 2 ^ levels ≤ r) (hr : r < 2 ^ (height + 1)) :
    climbTree inner (siblings node levels r) r (node r) = node (r / 2 ^ levels) := by
  induction levels generalizing r with
  | zero =>
    rw [Nat.pow_zero, Nat.div_one]
    rfl
  | succ levels ih =>
    have hpow : 2 ^ (levels + 1) = 2 * 2 ^ levels := Nat.pow_succ'
    have hpos := Nat.two_pow_pos levels
    rw [siblings_succ, climbTree, sibling_parent htree (by omega) hr,
      ih (by omega) (by omega), Nat.div_div_eq_div_mul, ← hpow]

end Foundation
