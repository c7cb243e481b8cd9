import C0PQLink.Foundation.Butterflies
import C0PQLink.Foundation.Tracing

/-!
# Computations that take notes

A computation that returns a value and the notes it took on the way, and programs whose
marks are the notes of such computations.

* `Noted`: a value with notes; `Noted.All` states a property of all notes, with a rule for
  each way to build a computation.
* `entries`: an array that is computed entry by entry.
* `notedLayers`: layers of butterflies that take notes; `notedLayers_all` gives the notes of
  all layers from what one butterfly notes on entries that satisfy a bound.
* `Program.emit`, `Program.marks`: notes as marks of a program, and the marks of a run.
-/

namespace Foundation

variable {M α β κ : Type}

/-- A value and the notes that were taken while it was computed. -/
@[ext] structure Noted (M : Type) (α : Type) where
  value : α
  notes : List M

namespace Noted

instance : Monad (Noted M) where
  pure a := ⟨a, []⟩
  bind x f := ⟨(f x.value).value, x.notes ++ (f x.value).notes⟩

instance : LawfulMonad (Noted M) :=
  LawfulMonad.mk' (Noted M)
    (fun x => Noted.ext rfl (List.append_nil x.notes))
    (fun _ _ => rfl)
    (fun _ _ _ => Noted.ext rfl (List.append_assoc ..))

def note (m : M) : Noted M Unit := ⟨(), [m]⟩

@[simp] theorem value_pure (a : α) : (pure a : Noted M α).value = a := rfl

@[simp] theorem value_bind (x : Noted M α) (f : α → Noted M β) :
    (x >>= f).value = (f x.value).value := rfl

@[simp] theorem notes_pure (a : α) : (pure a : Noted M α).notes = [] := rfl

@[simp] theorem notes_bind (x : Noted M α) (f : α → Noted M β) :
    (x >>= f).notes = x.notes ++ (f x.value).notes := rfl

@[simp] theorem notes_note (m : M) : (note m).notes = [m] := rfl

/-- The value of a loop is that of the loop over the values of its turns. -/
@[simp] theorem value_foldlM (f : β → α → Noted M β) (as : List α) (b : β) :
    (as.foldlM f b).value = as.foldl (fun b a => (f b a).value) b := by
  induction as generalizing b with
  | nil => rfl
  | cons a as ih => exact ih _

/-- The array of the given entries; the notes are those of the first `count` of them. -/
def entries (count : Nat) (f : Nat → Noted M α) : Noted M (Nat → α) :=
  ⟨fun i => (f i).value, (List.range count).flatMap fun i => (f i).notes⟩

@[simp] theorem value_entries (count : Nat) (f : Nat → Noted M α) (i : Nat) :
    (entries count f).value i = (f i).value := rfl

/-! ## All notes -/

variable {P : M → Prop}

/-- Every note satisfies `P`. -/
def All (P : M → Prop) (x : Noted M α) : Prop := ∀ m ∈ x.notes, P m

theorem all_pure (a : α) : All P (pure a : Noted M α) := nofun

theorem all_note {m : M} (h : P m) : All P (note m) := by
  intro m' hm'
  rw [notes_note, List.mem_singleton] at hm'
  rwa [hm']

theorem all_bind {x : Noted M α} {f : α → Noted M β} (hx : All P x) (hf : All P (f x.value)) :
    All P (x >>= f) := by
  intro m hm
  rcases List.mem_append.mp hm with hm | hm
  · exact hx m hm
  · exact hf m hm

theorem all_entries {count : Nat} {f : Nat → Noted M α} (h : ∀ i < count, All P (f i)) :
    All P (entries count f) := by
  intro m hm
  obtain ⟨i, hi, hm⟩ := List.mem_flatMap.mp hm
  exact h i (List.mem_range.mp hi) m hm

theorem mem_left {x : Noted M α} {f : α → Noted M β} {m : M} (h : m ∈ x.notes) :
    m ∈ (x >>= f).notes :=
  List.mem_append_left _ h

theorem mem_right {x : Noted M α} {f : α → Noted M β} {m : M} (h : m ∈ (f x.value).notes) :
    m ∈ (x >>= f).notes :=
  List.mem_append_right _ h

/-! ## Butterflies -/

def notedButterflyAt (f : α → α → Noted M (α × α)) (length : Nat) (p : Nat → α) (j : Nat) :
    Noted M (Nat → α) := do
  let pair ← f (p j) (p (j + length))
  return Function.update (Function.update p (j + length) pair.2) j pair.1

def notedBlock (f : α → α → Noted M (α × α)) (length : Nat) (p : Nat → α) (start : Nat) :
    Noted M (Nat → α) :=
  (List.range' start length).foldlM (notedButterflyAt f length) p

def notedBlocks (f : κ → α → α → Noted M (α × α)) (next : κ → κ) (length count : Nat)
    (state : (Nat → α) × κ) : Noted M ((Nat → α) × κ) :=
  (List.range' 0 count (2 * length)).foldlM
    (fun state start => do
      let p ← notedBlock (f state.2) length state.1 start
      return (p, next state.2)) state

def notedLayer (f : κ → α → α → Noted M (α × α)) (next : κ → κ) (size length : Nat)
    (state : (Nat → α) × κ) : Noted M ((Nat → α) × κ) :=
  notedBlocks f next length (size / (2 * length)) state

def notedLayers (f : κ → α → α → Noted M (α × α)) (next : κ → κ) (size : Nat)
    (lengths : List Nat) (state : (Nat → α) × κ) : Noted M ((Nat → α) × κ) :=
  lengths.foldlM (fun state length => notedLayer f next size length state) state

theorem value_notedBlock (f : α → α → Noted M (α × α)) (length : Nat) (p : Nat → α) (start : Nat) :
    (notedBlock f length p start).value
      = butterflyBlock (fun x y => (f x y).value) length p start :=
  value_foldlM ..

theorem value_notedBlocks (f : κ → α → α → Noted M (α × α)) (next : κ → κ) (length count : Nat)
    (state : (Nat → α) × κ) :
    (notedBlocks f next length count state).value
      = butterflyBlocks (fun k x y => (f k x y).value) next length count state := by
  rw [notedBlocks, value_foldlM, butterflyBlocks]
  simp only [value_bind, value_pure, value_notedBlock]

/-- The values of layers that take notes are those of the layers without notes. -/
theorem value_notedLayers (f : κ → α → α → Noted M (α × α)) (next : κ → κ) (size : Nat)
    (lengths : List Nat) (state : (Nat → α) × κ) :
    (notedLayers f next size lengths state).value
      = butterflyLayers (fun k x y => (f k x y).value) next size lengths state := by
  rw [notedLayers, value_foldlM, butterflyLayers]
  simp only [notedLayer, value_notedBlocks, butterflyLayer]

/-- The butterflies of a block get the entries that it started with. -/
theorem notedBlock_all {f : α → α → Noted M (α × α)} {length : Nat} {p : Nat → α} {start : Nat}
    (h : ∀ j, start ≤ j → j < start + length → All P (f (p j) (p (j + length)))) :
    All P (notedBlock f length p start) := by
  suffices hturns : ∀ count ≤ length,
      All P ((List.range' start count).foldlM (notedButterflyAt f length) p) from
    hturns length (Nat.le_refl _)
  intro count hcount
  induction count with
  | zero => exact all_pure p
  | succ count ih =>
    have hsame (k : Nat) (hfirst : ¬ (start ≤ k ∧ k < start + count))
        (hsecond : ¬ (start + length ≤ k ∧ k < start + length + count)) :
        ((List.range' start count).foldlM (notedButterflyAt f length) p).value k = p k := by
      have hturns := butterflyTurns_apply (fun x y => (f x y).value) length p start
        (show count ≤ length by omega) k
      rw [if_neg hfirst, if_neg hsecond] at hturns
      rw [value_foldlM]
      exact hturns
    rw [List.range'_1_concat, List.foldlM_append]
    refine all_bind (ih (by omega)) (all_bind (all_bind ?_ (all_pure _)) (all_pure _))
    rw [hsame (start + count) (by omega) (by omega),
      hsame (start + count + length) (by omega) (by omega)]
    exact h _ (by omega) (by omega)

/-- The butterflies of a layer get the entries that it started with, pair after pair. -/
theorem notedLayer_all {f : κ → α → α → Noted M (α × α)} {next : κ → κ} {size length : Nat}
    {p : Nat → α} {parameter : κ} (hlength : 0 < length)
    (hsize : size / (2 * length) * (2 * length) = size)
    (h : ∀ count < size / (2 * length), ∀ i < size, ∀ i' < size,
      All P (f (next^[count] parameter) (p i) (p i'))) :
    All P (notedLayer f next size length (p, parameter)) := by
  suffices hblocks : ∀ count ≤ size / (2 * length),
      All P (notedBlocks f next length count (p, parameter)) from hblocks _ (Nat.le_refl _)
  intro count hcount
  induction count with
  | zero => exact all_pure _
  | succ count ih =>
    have hvalue := value_notedBlocks f next length count (p, parameter)
    have hnext := butterflyBlocks_snd (fun k x y => (f k x y).value) next length count p parameter
    have hsame (k : Nat) (hk : count * (2 * length) ≤ k) :
        (butterflyBlocks (fun k x y => (f k x y).value) next length count (p, parameter)).1 k
          = p k := by
      rw [butterflyBlocks_fst _ next hlength, if_neg (by omega)]
    have hend : (count + 1) * (2 * length) ≤ size := by
      rw [← hsize]
      exact Nat.mul_le_mul_right _ hcount
    rw [Nat.add_mul, Nat.one_mul] at hend
    have hstart : 0 + 2 * length * count = count * (2 * length) := by ring
    have hbefore := ih (by omega)
    rw [notedBlocks] at hvalue hbefore ⊢
    rw [List.range'_concat, List.foldlM_append, hstart]
    refine all_bind hbefore (all_bind (all_bind ?_ (all_pure _)) (all_pure _))
    rw [hvalue, hnext]
    apply notedBlock_all
    intro j hlow hhigh
    rw [hsame j hlow, hsame (j + length) (by omega)]
    exact h count (by omega) j (by omega) (j + length) (by omega)

/-- `Bound n` holds of the entries after `n` layers, and `Valid` of the parameters. -/
theorem notedLayers_all (Bound : Nat → α → Prop) (Valid : κ → Prop)
    (f : κ → α → α → Noted M (α × α)) {next : κ → κ} {size bound : Nat}
    (hf : ∀ n < bound, ∀ k, Valid k → ∀ x y, Bound n x → Bound n y →
      All P (f k x y) ∧ Bound (n + 1) (f k x y).value.1 ∧ Bound (n + 1) (f k x y).value.2)
    {lengths : List Nat} (hfits : Fits size lengths) {n : Nat} (hn : n + lengths.length ≤ bound)
    {parameter : κ} (hvalid : ∀ count < blockCount size lengths, Valid (next^[count] parameter))
    {p : Nat → α} (hp : ∀ i < size, Bound n (p i)) :
    All P (notedLayers f next size lengths (p, parameter)) := by
  induction lengths generalizing n parameter p with
  | nil => exact all_pure _
  | cons length rest ih =>
    obtain ⟨hlength, hsize⟩ := hfits length (List.mem_cons_self ..)
    rw [blockCount_cons] at hvalid
    rw [List.length_cons] at hn
    have hlayer := notedLayer_all hlength hsize fun count hcount i hi i' hi' =>
      (hf n (by omega) _ (hvalid count (by omega)) _ _ (hp i hi) (hp i' hi')).1
    have hbound : ∀ i < size, Bound (n + 1)
        ((butterflyLayer (fun k x y => (f k x y).value) next size length (p, parameter)).1 i) :=
      butterflyLayer_keeps hlength hsize hp fun count hcount x y hx hy =>
        (hf n (by omega) _ (hvalid count (by omega)) x y hx hy).2
    have hvalue : (notedLayer f next size length (p, parameter)).value
        = ((butterflyLayer (fun k x y => (f k x y).value) next size length (p, parameter)).1,
            next^[size / (2 * length)] parameter) := by
      rw [notedLayer, value_notedBlocks, ← butterflyLayer_snd (fun k x y => (f k x y).value) next
        size length p]
      rfl
    have hrestValid : ∀ count < blockCount size rest,
        Valid (next^[count] (next^[size / (2 * length)] parameter)) := by
      intro count hcount
      rw [← Function.iterate_add_apply]
      exact hvalid _ (by omega)
    rw [notedLayers, List.foldlM_cons]
    refine all_bind hlayer ?_
    rw [hvalue]
    exact ih (fun l hl => hfits l (List.mem_cons_of_mem _ hl))
      (show n + 1 + rest.length ≤ bound by omega) hrestValid hbound

/-- The first butterfly of the first layer gets the entries that the layers start with. -/
theorem mem_notedLayers_first {f : κ → α → α → Noted M (α × α)} {next : κ → κ}
    {size length : Nat} {rest : List Nat} {p : Nat → α} {parameter : κ} {m : M}
    (hlength : 0 < length) (hsize : 0 < size / (2 * length))
    (h : m ∈ (f parameter (p 0) (p length)).notes) :
    m ∈ (notedLayers f next size (length :: rest) (p, parameter)).notes := by
  obtain ⟨turns, rfl⟩ : ∃ turns, length = turns + 1 := ⟨length - 1, by omega⟩
  obtain ⟨blocks, hblocks⟩ : ∃ blocks, size / (2 * (turns + 1)) = blocks + 1 :=
    ⟨size / (2 * (turns + 1)) - 1, by omega⟩
  rw [notedLayers, List.foldlM_cons]
  refine mem_left ?_
  rw [notedLayer, notedBlocks, hblocks, List.range'_succ, List.foldlM_cons]
  refine mem_left (mem_left ?_)
  rw [notedBlock, List.range'_succ, List.foldlM_cons]
  refine mem_left (mem_left ?_)
  rwa [Nat.zero_add]

end Noted

/-! ## Notes as marks -/

namespace Program

variable {E : Type} {R : E → Type} {σ : Type}

/-- The notes of a computation as marks of a program. -/
def emit (x : Noted M α) : Program (E ⊕ M) (MarkedReply R M) α :=
  x.notes.foldr (fun m rest => .call (.inr m) fun _ => rest) (.done x.value)

/-- The marks that a run against a functional environment passes. -/
def marks (answer : (e : E) → σ → R e × σ) : Program (E ⊕ M) (MarkedReply R M) α → σ → List M
  | .done _, _ => []
  | .call (.inl e) next, s => (next (answer e s).1).marks answer (answer e s).2
  | .call (.inr m) next, s => m :: (next ()).marks answer s

variable {answer : (e : E) → σ → R e × σ}

@[simp] theorem erase_emit (x : Noted M α) :
    (emit x : Program (E ⊕ M) (MarkedReply R M) α).erase = pure x.value := by
  rw [emit]
  induction x.notes with
  | nil => rfl
  | cons m rest ih => exact ih

@[simp] theorem marks_emit (x : Noted M α) (s : σ) :
    (emit x : Program (E ⊕ M) (MarkedReply R M) α).marks answer s = x.notes := by
  rw [emit]
  induction x.notes with
  | nil => rfl
  | cons m rest ih => exact congrArg (m :: ·) ih

theorem marks_bind (p : Program (E ⊕ M) (MarkedReply R M) α)
    (f : α → Program (E ⊕ M) (MarkedReply R M) β) (s : σ) :
    (p >>= f).marks answer s = p.marks answer s
      ++ (f (p.erase.run answer s).1).marks answer (p.erase.run answer s).2 := by
  induction p generalizing s with
  | done a => rfl
  | call e next ih =>
    cases e with
    | inl e => exact ih _ _
    | inr m => exact congrArg (m :: ·) (ih () s)

/-- A mark of the first part of a sequence. -/
theorem mem_marks_left {p : Program (E ⊕ M) (MarkedReply R M) α}
    {f : α → Program (E ⊕ M) (MarkedReply R M) β} {s : σ} {m : M}
    (h : m ∈ p.marks answer s) : m ∈ (p >>= f).marks answer s := by
  rw [marks_bind]
  exact List.mem_append_left _ h

/-- A mark of the second part of a sequence. -/
theorem mem_marks_right {p : Program (E ⊕ M) (MarkedReply R M) α}
    {f : α → Program (E ⊕ M) (MarkedReply R M) β} {s s' : σ} {a : α} {m : M}
    (hp : p.erase.run answer s = (a, s')) (h : m ∈ (f a).marks answer s') :
    m ∈ (p >>= f).marks answer s := by
  rw [marks_bind, hp]
  exact List.mem_append_right _ h

variable {P : M → Prop}

theorem only_emit_bind {x : Noted M α} {f : α → Program (E ⊕ M) (MarkedReply R M) β}
    (h : x.All P) (hf : (f x.value).Only (Sum.elim (fun _ => True) P)) :
    (emit x >>= f).Only (Sum.elim (fun _ => True) P) := by
  obtain ⟨value, notes⟩ := x
  induction notes with
  | nil => exact hf
  | cons m rest ih =>
    exact ⟨h m (List.mem_cons_self ..),
      fun _ => ih (fun m' hm' => h m' (List.mem_cons_of_mem _ hm')) hf⟩

theorem Only.marks {p : Program (E ⊕ M) (MarkedReply R M) α} {s : σ}
    (h : p.Only (Sum.elim (fun _ => True) P)) : ∀ m ∈ p.marks answer s, P m := by
  induction p generalizing s with
  | done a => nofun
  | call e next ih =>
    cases e with
    | inl e => exact ih _ (h.2 _)
    | inr m =>
      intro m' hm'
      rcases List.mem_cons.mp hm' with rfl | hm'
      · exact h.1
      · exact ih () (h.2 ()) m' hm'

end Program

end Foundation
