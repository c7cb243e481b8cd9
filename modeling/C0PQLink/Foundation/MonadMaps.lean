import C0PQLink.Foundation.Interaction
import Mathlib.Control.Basic

/-!
# Maps between monads

A `MonadMap` carries computations of one monad to computations of another one, and returns
and sequences to returns and sequences. A computation that is written for any monad is
carried to itself, with its callbacks carried along.

* `MonadMap.mapM`: a loop over a list.
* `MonadMap.ofId`: the values as computations.
* `MonadMap.runState`: programs with a state of their own, run against an environment.
* `MonadMap.wp`: such programs as transformers of postconditions.
-/

namespace Foundation

structure MonadMap (m n : Type → Type) [Monad m] [Monad n] where
  map : {α : Type} → m α → n α
  map_pure : ∀ {α : Type} (a : α), map (pure a : m α) = pure a
  map_bind : ∀ {α β : Type} (p : m α) (f : α → m β), map (p >>= f) = map p >>= fun a => map (f a)

namespace MonadMap

variable {m n : Type → Type} [Monad m] [Monad n] (φ : MonadMap m n) {α β : Type}

theorem map_ite (c : Prop) [Decidable c] (p q : m α) :
    φ.map (if c then p else q) = if c then φ.map p else φ.map q := by
  split <;> rfl

theorem mapM [LawfulMonad m] [LawfulMonad n] (f : α → m β) (as : List α) :
    φ.map (as.mapM f) = as.mapM fun a => φ.map (f a) := by
  induction as with
  | nil => rw [List.mapM_nil, List.mapM_nil, φ.map_pure]
  | cons a as ih =>
    rw [List.mapM_cons, List.mapM_cons, φ.map_bind]
    refine bind_congr fun b => ?_
    rw [φ.map_bind, ih]
    exact bind_congr fun bs => φ.map_pure _

/-- Values as computations. -/
def ofId (n : Type → Type) [Monad n] [LawfulMonad n] : MonadMap Id n where
  map a := pure a.run
  map_pure _ := rfl
  map_bind p f := (pure_bind p.run fun a => pure (f a).run).symm

/-- A program with a state of its own, run against an environment with a state. -/
def runState {E : Type} {R : E → Type} {σ : Type} (τ : Type)
    (answer : (e : E) → σ → R e × σ) : MonadMap (StateT τ (Program E R)) (StateM (τ × σ)) where
  map p := fun states =>
    let outcome := (p.run states.1).run answer states.2
    (outcome.1.1, (outcome.1.2, outcome.2))
  map_pure _ := rfl
  map_bind p f := by
    funext states
    simp only [StateT.run_bind, Program.run_bind]
    rfl

theorem runState_map {E : Type} {R : E → Type} {σ τ : Type} {answer : (e : E) → σ → R e × σ}
    (p : StateT τ (Program E R) α) (t : τ) (s : σ) :
    ((runState τ answer).map p).run (t, s)
      = (((p.run t).run answer s).1.1, (((p.run t).run answer s).1.2, ((p.run t).run answer s).2)) :=
  rfl

/-- The program itself, from a run of what it is carried to. -/
theorem run_of_runState {E : Type} {R : E → Type} {σ τ : Type} {answer : (e : E) → σ → R e × σ}
    {p : StateT τ (Program E R) α} {t t' : τ} {s s' : σ} {a : α}
    (h : ((runState τ answer).map p).run (t, s) = (a, (t', s'))) :
    (p t).run answer s = ((a, t'), s') := by
  rw [runState_map] at h
  obtain ⟨ha, hrest⟩ := Prod.mk.inj h
  obtain ⟨ht, hs⟩ := Prod.mk.inj hrest
  exact Prod.ext (Prod.ext ha ht) hs

end MonadMap

/-! ## Predicate transformers -/

/-- What has to hold of a state for a postcondition of the value and the state after it. -/
def Transformer (σ α : Type) : Type := σ → (α → σ → Prop) → Prop

instance (σ : Type) : Monad (Transformer σ) where
  pure a := fun s Q => Q a s
  bind p f := fun s Q => p s fun a s' => f a s' Q

instance (σ : Type) : LawfulMonad (Transformer σ) :=
  LawfulMonad.mk' (Transformer σ) (fun _ => rfl) (fun _ _ => rfl) (fun _ _ _ => rfl)

/-- The computation leads from the state to the postcondition. -/
structure Transformer.Leads {σ α : Type} (p : Transformer σ α) (s : σ) (Q : α → σ → Prop) :
    Prop where
  holds : p s Q

theorem Transformer.leads_iff {σ α : Type} {p : Transformer σ α} {s : σ} {Q : α → σ → Prop} :
    p.Leads s Q ↔ p s Q := ⟨Leads.holds, Leads.mk⟩

theorem Transformer.leads_pure {σ α : Type} {a : α} {s : σ} {Q : α → σ → Prop} (h : Q a s) :
    Leads (pure a) s Q := ⟨h⟩

theorem Transformer.leads_bind {σ α β : Type} {p : Transformer σ α} {f : α → Transformer σ β}
    {s : σ} {Q : β → σ → Prop} :
    Leads (p >>= f) s Q ↔ Leads p s fun a s' => Leads (f a) s' Q := by
  have hrest : (fun a s' => Leads (f a) s' Q) = fun a s' => f a s' Q := by
    funext a s'
    exact propext leads_iff
  rw [hrest, leads_iff, leads_iff]
  rfl

/-- A program with a state of its own, by its weakest preconditions. -/
def MonadMap.wp {E : Type} {R : E → Type} {σ : Type} (τ : Type)
    (step : (e : E) → σ → R e → σ → Prop) :
    MonadMap (StateT τ (Program E R)) (Transformer (τ × σ)) where
  map p := fun states Q =>
    (p.run states.1).wp step (fun outcome s => Q outcome.1 (outcome.2, s)) states.2
  map_pure _ := rfl
  map_bind p f := by
    funext states Q
    simp only [StateT.run_bind, Program.wp_bind]
    rfl

end Foundation
