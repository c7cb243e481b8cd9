import Mathlib.Data.List.Basic

/-!
# Loops over the parts of a state

A loop whose turn `n` gives the parts that belong to it their final values and leaves the
other ones alone.

* `foldl_range_invariant`: what every turn keeps, up to the end of the loop.
* `foldlM_range'_invariant`: the same for turns that may fail, and do not.
* `foldl_range_owned`: the parts after the loop, from what one turn does to them.
-/

namespace Foundation

variable {σ ι ν : Type}

theorem foldl_range_invariant {step : σ → Nat → σ} {start : σ} {turns : Nat}
    (Inv : Nat → σ → Prop) (hstart : Inv 0 start)
    (hstep : ∀ n < turns, ∀ s, Inv n s → Inv (n + 1) (step s n)) :
    Inv turns ((List.range turns).foldl step start) := by
  have hinitial : ∀ n ≤ turns, Inv n ((List.range n).foldl step start) := by
    intro n
    induction n with
    | zero => exact fun _ => hstart
    | succ n ih =>
      intro hn
      rw [List.range_succ, List.foldl_append]
      exact hstep n hn _ (ih (by omega))
  exact hinitial turns (Nat.le_refl turns)

theorem foldlM_range'_invariant {ε : Type} {step : σ → Nat → Except ε σ} {first turns : Nat}
    (Inv : Nat → σ → Prop) {start : σ} (hstart : Inv first start)
    (hstep : ∀ n, first ≤ n → n < first + turns → ∀ s, Inv n s →
      ∃ s', step s n = .ok s' ∧ Inv (n + 1) s') :
    ∃ s, (List.range' first turns).foldlM step start = .ok s ∧ Inv (first + turns) s := by
  induction turns generalizing first start with
  | zero => exact ⟨start, rfl, hstart⟩
  | succ turns ih =>
    obtain ⟨s, hturn, hinv⟩ := hstep first (Nat.le_refl first) (by omega) start hstart
    obtain ⟨s', hloop, hend⟩ := ih hinv fun n hfirst hlast => hstep n (by omega) (by omega)
    refine ⟨s', ?_, ?_⟩
    · rw [List.range'_succ, List.foldlM_cons, hturn]
      exact hloop
    · rwa [show first + (turns + 1) = first + 1 + turns by omega]

theorem foldlM_range_invariant {ε : Type} {step : σ → Nat → Except ε σ} {turns : Nat}
    (Inv : Nat → σ → Prop) {start : σ} (hstart : Inv 0 start)
    (hstep : ∀ n < turns, ∀ s, Inv n s → ∃ s', step s n = .ok s' ∧ Inv (n + 1) s') :
    ∃ s, (List.range turns).foldlM step start = .ok s ∧ Inv turns s := by
  have hloop : ∃ s, (List.range' 0 turns).foldlM step start = .ok s ∧ Inv (0 + turns) s :=
    foldlM_range'_invariant Inv hstart fun n _ hn => hstep n (by omega)
  rwa [← List.range_eq_range', Nat.zero_add] at hloop

/-- The turn `n` works on a state in which the parts of earlier turns have their final
values, and the others are as at the start. -/
theorem foldl_range_owned (step : σ → Nat → σ) (start : σ) (turns : Nat) (Inv : Nat → σ → Prop)
    (part : σ → ι → ν) (owner : ι → Nat) (final : ι → ν) (hstart : Inv 0 start)
    (hstep : ∀ n < turns, ∀ s, Inv n s →
      (∀ i, part s i = if owner i < n then final i else part start i) →
      Inv (n + 1) (step s n)
        ∧ ∀ i, part (step s n) i = if owner i = n then final i else part s i) :
    Inv turns ((List.range turns).foldl step start)
      ∧ ∀ i, part ((List.range turns).foldl step start) i
        = if owner i < turns then final i else part start i := by
  refine foldl_range_invariant (fun n s => Inv n s
    ∧ ∀ i, part s i = if owner i < n then final i else part start i)
    ⟨hstart, fun i => by rw [if_neg (by omega)]⟩ ?_
  intro n hn s ⟨hinv, hparts⟩
  obtain ⟨hnext, hsame⟩ := hstep n hn s hinv hparts
  refine ⟨hnext, fun i => ?_⟩
  rw [hsame i, hparts i]
  rcases Nat.lt_trichotomy (owner i) n with hlt | heq | hgt
  · rw [if_neg (by omega), if_pos hlt, if_pos (by omega)]
  · rw [if_pos heq, if_pos (by omega)]
  · rw [if_neg (by omega), if_neg (by omega), if_neg (by omega)]

end Foundation
