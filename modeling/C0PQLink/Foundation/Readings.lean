import Mathlib.Algebra.BigOperators.Group.Finset.Basic
import Mathlib.Algebra.Group.Action.Defs
import C0PQLink.Foundation.Bytes

/-!
# Programs that read a stream

A program gets its input in pieces from a callback with a state of its own, counts the bytes
that it got, and ends with a result of its own as soon as the callback fails. A sequence of
lengths fixes what the callback is asked for.

* `Reads`: a part of a program that asks for the pieces `first` to `last`, and for nothing else.
* `Reads.bind`, `reads_piece`, `reads_loop`, `reads_each`: how such parts are put together.
-/

namespace Foundation

variable {σ ρ α β : Type}

/-- The callback: a piece of the length it is asked for, or a failure. -/
abbrev Reader (σ : Type) : Type := (length : Nat) → σ → Option (Block length) × σ

/-- A part of a program, on the state of the callback and the number of bytes so far. -/
abbrev Reading (ρ σ α : Type) : Type := ExceptT ρ (StateM (σ × Nat)) α

/-- One piece; a failure ends the program with the given result. -/
def readPiece (reader : Reader σ) (failure : ρ) (length : Nat) : Reading ρ σ (Block length) :=
  fun state =>
    match reader length state.1 with
    | (some piece, rest) => (.ok piece, (rest, state.2 + length))
    | (none, rest) => (.error failure, (rest, state.2))

theorem reading_bind (p : Reading ρ σ α) (f : α → Reading ρ σ β) (state : σ × Nat) :
    (p >>= f) state = match p state with
      | (.ok a, rest) => f a rest
      | (.error result, rest) => (.error result, rest) := by
  rcases h : p state with ⟨result, rest⟩
  cases result with
  | ok a =>
    simp only [bind, ExceptT.bind, ExceptT.mk, StateT.bind, h]
    rfl
  | error result =>
    simp only [bind, ExceptT.bind, ExceptT.mk, StateT.bind, h]
    rfl

/-! ## What a callback answers -/

section

variable (reader : Reader σ) (lengths : Nat → Nat) (start : σ)

/-- The state of the callback before the read `i`. -/
def stateAt : Nat → σ
  | 0 => start
  | i + 1 => (reader (lengths i) (stateAt i)).2

/-- The answer to the read `i`. -/
def answerAt (i : Nat) : Option (Block (lengths i)) :=
  (reader (lengths i) (stateAt reader lengths start i)).1

/-- The piece of the read `i`, if there is one. -/
def pieceAt (i : Nat) : Block (lengths i) :=
  (answerAt reader lengths start i).getD (Block.zero (lengths i))

/-- The number of bytes of the first `i` reads. -/
def countAt (lengths : Nat → Nat) (i : Nat) : Nat := ∑ j ∈ Finset.range i, lengths j

/-- The first `k` reads are answered. -/
def Answers (k : Nat) : Prop := ∀ i < k, (answerAt reader lengths start i).isSome

/-- The first `k` reads are answered and the next one fails. -/
def FailsAt (k : Nat) : Prop :=
  Answers reader lengths start k ∧ answerAt reader lengths start k = none

/-- The part, from the read `first` on, ends with a result at the read `k`, which fails; the
bytes before it are counted. -/
def EndsAt (p : Reading ρ σ α) (first k : Nat) (result : ρ) : Prop :=
  p (stateAt reader lengths start first, countAt lengths first)
    = (.error result, (stateAt reader lengths start (k + 1), countAt lengths k))

/-- The part asks for the pieces from `first` to before `last`. If all are answered it returns a
value with `Q`; if one fails, it ends with `failure`. -/
structure Reads (p : Reading ρ σ α) (first last : Nat) (failure : ρ) (Q : α → Prop) : Prop where
  le : first ≤ last
  answered : Answers reader lengths start last → ∃ a, Q a ∧
    p (stateAt reader lengths start first, countAt lengths first)
      = (.ok a, (stateAt reader lengths start last, countAt lengths last))
  fails : ∀ k, first ≤ k → k < last → FailsAt reader lengths start k →
    EndsAt reader lengths start p first k failure

end

section

variable {reader : Reader σ} {lengths : Nat → Nat} {start : σ}

theorem countAt_succ (i : Nat) : countAt lengths (i + 1) = countAt lengths i + lengths i :=
  Finset.sum_range_succ lengths i

theorem countAt_const (length i : Nat) : countAt (fun _ => length) i = length * i := by
  rw [countAt, Finset.sum_const, Finset.card_range, smul_eq_mul, Nat.mul_comm]

theorem Answers.mono {k n : Nat} (h : Answers reader lengths start n) (hk : k ≤ n) :
    Answers reader lengths start k := fun i hi => h i (by omega)

/-- Either the first `n` reads are answered, or one of them is the first that fails. -/
theorem answers_or_fails (reader : Reader σ) (lengths : Nat → Nat) (start : σ) (n : Nat) :
    Answers reader lengths start n ∨ ∃ k < n, FailsAt reader lengths start k := by
  induction n with
  | zero => exact .inl nofun
  | succ n ih =>
    rcases ih with hall | ⟨k, hk, hfails⟩
    · rcases hanswer : answerAt reader lengths start n with _ | piece
      · exact .inr ⟨n, by omega, hall, hanswer⟩
      · refine .inl fun i hi => ?_
        rcases Nat.eq_or_lt_of_le (Nat.le_of_lt_succ hi) with rfl | hlt
        · rw [hanswer]
          rfl
        · exact hall i hlt
    · exact .inr ⟨k, by omega, hfails⟩

theorem reads_pure {failure : ρ} {Q : α → Prop} {a : α} (h : Q a) (first : Nat) :
    Reads reader lengths start (pure a : Reading ρ σ α) first first failure Q :=
  ⟨Nat.le_refl _, fun _ => ⟨a, h, rfl⟩, fun k hfirst hlast => absurd hlast (by omega)⟩

theorem Reads.mono {p : Reading ρ σ α} {first last : Nat} {failure : ρ} {Q R : α → Prop}
    (h : Reads reader lengths start p first last failure Q) (hQR : ∀ a, Q a → R a) :
    Reads reader lengths start p first last failure R := by
  refine ⟨h.le, fun hall => ?_, h.fails⟩
  obtain ⟨a, ha, hp⟩ := h.answered hall
  exact ⟨a, hQR a ha, hp⟩

/-- A read of the first part fails. -/
theorem Reads.endsAt_left {p : Reading ρ σ α} {first mid k : Nat} {failure : ρ} {Q : α → Prop}
    (h : Reads reader lengths start p first mid failure Q) (f : α → Reading ρ σ β)
    (hfirst : first ≤ k) (hmid : k < mid) (hfails : FailsAt reader lengths start k) :
    EndsAt reader lengths start (p >>= f) first k failure := by
  rw [EndsAt, reading_bind, h.fails k hfirst hmid hfails]

/-- A read after the first part fails. -/
theorem Reads.endsAt_right {p : Reading ρ σ α} {f : α → Reading ρ σ β} {first mid k : Nat}
    {failure result : ρ} {Q : α → Prop} (h : Reads reader lengths start p first mid failure Q)
    (hmid : mid ≤ k) (hfails : FailsAt reader lengths start k)
    (hf : ∀ a, Q a → EndsAt reader lengths start (f a) mid k result) :
    EndsAt reader lengths start (p >>= f) first k result := by
  obtain ⟨a, ha, hp⟩ := h.answered (hfails.1.mono hmid)
  rw [EndsAt, reading_bind, hp]
  exact hf a ha

theorem Reads.bind {p : Reading ρ σ α} {f : α → Reading ρ σ β} {first mid last : Nat}
    {failure : ρ} {Q : α → Prop} {R : β → Prop}
    (h : Reads reader lengths start p first mid failure Q)
    (hf : ∀ a, Q a → Reads reader lengths start (f a) mid last failure R) (hle : mid ≤ last) :
    Reads reader lengths start (p >>= f) first last failure R := by
  refine ⟨h.le.trans hle, fun hall => ?_, fun k hfirst hlast hfails => ?_⟩
  · obtain ⟨a, ha, hp⟩ := h.answered (hall.mono hle)
    obtain ⟨b, hb, hq⟩ := (hf a ha).answered hall
    refine ⟨b, hb, ?_⟩
    rw [reading_bind, hp]
    exact hq
  · rcases Nat.lt_or_ge k mid with hmid | hmid
    · exact h.endsAt_left f hfirst hmid hfails
    · exact h.endsAt_right hmid hfails fun a ha => (hf a ha).fails k hmid hlast hfails

theorem reads_piece {failure : ρ} {length first : Nat} (hlength : lengths first = length) :
    Reads reader lengths start (readPiece reader failure length) first (first + 1) failure
      fun piece => piece.val = (pieceAt reader lengths start first).val := by
  subst hlength
  have hrun : readPiece reader failure (lengths first)
      (stateAt reader lengths start first, countAt lengths first)
      = match answerAt reader lengths start first with
        | some piece => (.ok piece, (stateAt reader lengths start (first + 1),
            countAt lengths first + lengths first))
        | none => (.error failure, (stateAt reader lengths start (first + 1),
            countAt lengths first)) := by
    rw [readPiece, answerAt, stateAt]
    rcases reader (lengths first) (stateAt reader lengths start first) with ⟨answer, rest⟩
    cases answer with
    | none => rfl
    | some piece => rfl
  refine ⟨Nat.le_succ first, fun hall => ?_, fun k hfirst hlast hfails => ?_⟩
  · obtain ⟨piece, hpiece⟩ := Option.isSome_iff_exists.mp (hall first (Nat.lt_succ_self first))
    refine ⟨piece, ?_, ?_⟩
    · rw [pieceAt, hpiece]
      rfl
    · rw [hrun, hpiece, countAt_succ]
  · obtain rfl : k = first := by omega
    rw [EndsAt, hrun, hfails.2]

/-- The first `n` pieces, when all of them have one length. -/
def delivered (reader : Reader σ) (length : Nat) (start : σ) (n : Nat) : Bytes :=
  ((List.range n).map fun i => (pieceAt reader (fun _ => length) start i).val).flatten

theorem slice_delivered (reader : Reader σ) {length n i : Nat} (start : σ) (hi : i < n) :
    slice (delivered reader length start n) (length * i) length
      = (pieceAt reader (fun _ => length) start i).val := by
  have hparts : ∀ part ∈ (List.range n).map fun i =>
      (pieceAt reader (fun _ => length) start i).val, part.length = length := by
    intro part hmem
    obtain ⟨j, _, rfl⟩ := List.mem_map.mp hmem
    exact Block.length_val _
  have hpiece := slice_flatten hparts [] (show i < _ by simpa using hi)
  rw [List.append_nil] at hpiece
  rw [delivered, hpiece, List.getElem_map, List.getElem_range]

/-- A loop whose turns ask for `m` pieces each. -/
theorem reads_loop {step : β → Nat → Reading ρ σ β} {first m turns : Nat} {failure : ρ}
    (Inv : Nat → β → Prop) {init : β} (hinit : Inv 0 init)
    (hstep : ∀ n < turns, ∀ b, Inv n b →
      Reads reader lengths start (step b n) (first + m * n) (first + m * (n + 1)) failure
        (Inv (n + 1))) :
    Reads reader lengths start ((List.range turns).foldlM step init) first (first + m * turns)
      failure (Inv turns) := by
  have hinitial : ∀ n ≤ turns, Reads reader lengths start ((List.range n).foldlM step init) first
      (first + m * n) failure (Inv n) := by
    intro n
    induction n with
    | zero => exact fun _ => reads_pure hinit first
    | succ n ih =>
      intro hn
      rw [List.range_succ, List.foldlM_append]
      refine (ih (by omega)).bind (fun b hb => ?_) (by rw [Nat.mul_succ]; omega)
      rw [List.foldlM_cons]
      refine (hstep n hn b hb).bind (fun b' hb' => ?_) (Nat.le_refl _)
      exact reads_pure hb' _
  exact hinitial turns (Nat.le_refl turns)

/-- A loop whose turns ask for one piece each. -/
theorem reads_each {step : β → Nat → Reading ρ σ β} {first turns : Nat} {failure : ρ}
    (Inv : Nat → β → Prop) {init : β} (hinit : Inv 0 init)
    (hstep : ∀ n < turns, ∀ b, Inv n b →
      Reads reader lengths start (step b n) (first + n) (first + (n + 1)) failure (Inv (n + 1))) :
    Reads reader lengths start ((List.range turns).foldlM step init) first (first + turns) failure
      (Inv turns) := by
  have hloop := reads_loop (m := 1) Inv hinit fun n hn b hb => by
    rw [Nat.one_mul, Nat.one_mul]
    exact hstep n hn b hb
  rwa [Nat.one_mul] at hloop

end

end Foundation
