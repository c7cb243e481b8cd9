import Mathlib.Logic.Function.Basic
import Mathlib.Order.Basic

/-!
# Two-slot journals

A journal with two slots keeps its current record in one slot while the next one is
written to the other. A slot that cannot be read as a record counts as empty. Records
carry a generation number `gen`, and the current record is the one with the largest
generation; slot `false` wins a tie.

* `newest_spec`: the current record is in its slot and no other record is newer.
* `newest_update_newer`, `newest_update_older`: what a write to the other slot does.
* `Adjacent.update`: writing the successor of a record to the other slot, or making that
  slot unreadable, keeps the two generations one apart.
-/

namespace Foundation.TwoSlot

variable {α : Type} (gen : α → Nat)

/-- The readable records of the two slots. -/
abbrev Slots (α : Type) := Bool → Option α

/-- The current record and its slot. -/
def newest (s : Slots α) : Option (Bool × α) :=
  match s false, s true with
  | none, none => none
  | some v, none => some (false, v)
  | none, some w => some (true, w)
  | some v, some w => if gen v < gen w then some (true, w) else some (false, v)

variable {gen}

theorem newest_eq_none {s : Slots α} : newest gen s = none ↔ s false = none ∧ s true = none := by
  unfold newest
  split <;> simp_all
  split <;> simp

theorem newest_spec {s : Slots α} {i : Bool} {v : α} (h : newest gen s = some (i, v)) :
    s i = some v ∧ ∀ j w, s j = some w → gen w ≤ gen v := by
  unfold newest at h
  split at h
  · cases h
  · rename_i u hf ht
    cases h
    refine ⟨hf, fun j w hj => ?_⟩
    cases j <;> simp_all
  · rename_i u hf ht
    cases h
    refine ⟨ht, fun j w hj => ?_⟩
    cases j <;> simp_all
  · rename_i u w hf ht
    split at h
    · rename_i hlt
      cases h
      refine ⟨ht, fun j x hj => ?_⟩
      cases j
      · rw [hf] at hj; cases hj; omega
      · rw [ht] at hj; cases hj; exact Nat.le_refl _
    · rename_i hge
      cases h
      refine ⟨hf, fun j x hj => ?_⟩
      cases j
      · rw [hf] at hj; cases hj; exact Nat.le_refl _
      · rw [ht] at hj; cases hj; omega

theorem newest_isSome {s : Slots α} {j : Bool} {w : α} (h : s j = some w) :
    ∃ i v, newest gen s = some (i, v) := by
  cases hn : newest gen s with
  | none =>
    have hnone := newest_eq_none.mp hn
    cases j <;> simp_all
  | some p => exact ⟨p.1, p.2, rfl⟩

/-- A record that is alone, or strictly newer than the other slot's, is the current one. -/
theorem newest_of_lt {s : Slots α} {i : Bool} {v : α} (hi : s i = some v)
    (hother : ∀ w, s (!i) = some w → gen w < gen v) : newest gen s = some (i, v) := by
  unfold newest
  cases i with
  | false =>
    cases ht : s true with
    | none => simp [hi]
    | some w =>
      have := hother w ht
      have hlt : ¬ gen v < gen w := by omega
      simp [hi, hlt]
  | true =>
    cases hf : s false with
    | none => simp [hi]
    | some w =>
      have := hother w hf
      simp [hi, this]

theorem newest_update_newer {s : Slots α} {i : Bool} {v w : α}
    (hi : s i = some v) (hlt : gen v < gen w) :
    newest gen (Function.update s (!i) (some w)) = some (!i, w) := by
  refine newest_of_lt (by simp) fun u hu => ?_
  have hne : i ≠ !i := by cases i <;> decide
  rw [Bool.not_not, Function.update_of_ne hne, hi] at hu
  cases hu
  exact hlt

theorem newest_update_older {s : Slots α} {i : Bool} {v : α} {x : Option α}
    (h : newest gen s = some (i, v)) (hlt : ∀ w, x = some w → gen w < gen v) :
    newest gen (Function.update s (!i) x) = some (i, v) := by
  have hi : i ≠ !i := by cases i <;> decide
  refine newest_of_lt ?_ fun u hu => ?_
  · rw [Function.update_of_ne hi, (newest_spec h).1]
  · rw [Function.update_self] at hu
    exact hlt u hu

variable (gen) in
/-- When both slots hold a record, their generations are one apart. -/
def Adjacent (s : Slots α) : Prop :=
  ∀ v w, s false = some v → s true = some w → gen v + 1 = gen w ∨ gen w + 1 = gen v

theorem Adjacent.lt_newest {s : Slots α} {i : Bool} {v w : α} (ha : Adjacent gen s)
    (h : newest gen s = some (i, v)) (hw : s (!i) = some w) : gen w + 1 = gen v := by
  obtain ⟨hi, hle⟩ := newest_spec h
  have := hle _ _ hw
  cases i with
  | false => have := ha v w hi hw; omega
  | true => have := ha w v hw hi; omega

/-- The other slot of a record may be written with its successor or become unreadable. -/
theorem Adjacent.update {s : Slots α} {i : Bool} {v : α} {x : Option α}
    (hi : s i = some v) (hx : ∀ w, x = some w → gen w = gen v + 1) :
    Adjacent gen (Function.update s (!i) x) := by
  intro a b ha hb
  cases i with
  | false =>
    rw [Function.update_of_ne (by decide), hi] at ha
    rw [Bool.not_false, Function.update_self] at hb
    cases ha
    have := hx b hb
    omega
  | true =>
    rw [Bool.not_true, Function.update_self] at ha
    rw [Function.update_of_ne (by decide), hi] at hb
    cases hb
    have := hx a ha
    omega

end Foundation.TwoSlot
