import Mathlib.Logic.Basic

/-!
# Programs that call their environment

A `Program` is a computation that calls functions it does not define: callbacks, a
storage driver, a transport. Each call of `e` is answered by a value of type `R e`.

* `run`: the environment is a function on a state of its own.
* `Outcome`: the environment is a relation, so that one call may have several answers
  (a read that may fail, a receive that may return any bytes).
* `wp`: what has to hold before a program so that every outcome satisfies a
  postcondition; `wp_iff` states that it says exactly that.
* `Cut`: an execution that is stopped before a call, during one, or at the end, as by a
  loss of power; `wpCut` is the precondition for an invariant to hold whenever it stops.
* `Only`: programs that only make some of the calls.
* `Compositional`: properties that hold of returns and of sequences.
-/

namespace Foundation

/-- A computation with calls `e : E`, each answered by a value of type `R e`. -/
inductive Program (E : Type) (R : E → Type) (α : Type) where
  | done (a : α) : Program E R α
  | call (e : E) (next : R e → Program E R α) : Program E R α

namespace Program

variable {E : Type} {R : E → Type} {α β σ : Type}

protected def bind : Program E R α → (α → Program E R β) → Program E R β
  | .done a, f => f a
  | .call e next, f => .call e fun r => (next r).bind f

instance : Monad (Program E R) where
  pure := .done
  bind := Program.bind

/-- The single call of `e`, returning its answer. -/
def perform (e : E) : Program E R (R e) := .call e .done

theorem bind_done (p : Program E R α) : p.bind .done = p := by
  induction p with
  | done a => rfl
  | call e next ih => simp only [Program.bind, ih]

theorem bind_assoc {γ : Type} (p : Program E R α) (f : α → Program E R β)
    (g : β → Program E R γ) : (p.bind f).bind g = p.bind fun a => (f a).bind g := by
  induction p with
  | done a => rfl
  | call e next ih => simp only [Program.bind, ih]

instance : LawfulMonad (Program E R) :=
  LawfulMonad.mk' (Program E R) bind_done (fun _ _ => rfl) bind_assoc

/-! ## A functional environment -/

/-- Runs a program against an environment with the state `σ`. -/
def run (answer : (e : E) → σ → R e × σ) : Program E R α → σ → α × σ
  | .done a, s => (a, s)
  | .call e next, s => (next (answer e s).1).run answer (answer e s).2

variable {answer : (e : E) → σ → R e × σ}

@[simp] theorem run_pure (a : α) (s : σ) : (pure a : Program E R α).run answer s = (a, s) := rfl

@[simp] theorem run_perform (e : E) (s : σ) :
    (perform e : Program E R (R e)).run answer s = answer e s := rfl

theorem run_bind (p : Program E R α) (f : α → Program E R β) (s : σ) :
    (p >>= f).run answer s = (f (p.run answer s).1).run answer (p.run answer s).2 := by
  induction p generalizing s with
  | done a => rfl
  | call e next ih => exact ih _ _

/-- Running a first part whose result is known. -/
theorem run_bind_of {p : Program E R α} {s s' : σ} {a : α} (h : p.run answer s = (a, s'))
    (f : α → Program E R β) : (p >>= f).run answer s = (f a).run answer s' := by
  rw [run_bind, h]

@[simp] theorem run_ite (c : Prop) [Decidable c] (p q : Program E R α) (s : σ) :
    (if c then p else q).run answer s = if c then p.run answer s else q.run answer s := by
  split <;> rfl

/-! ## A relational environment -/

/-- `Outcome step p s a s'`: the program `p`, started in the environment state `s`, can
return `a` and leave the environment in `s'`. -/
inductive Outcome (step : (e : E) → σ → R e → σ → Prop) :
    Program E R α → σ → α → σ → Prop where
  | done (a : α) (s : σ) : Outcome step (.done a) s a s
  | call {e : E} {next : R e → Program E R α} {s : σ} {r : R e} {s' s'' : σ} {a : α}
      (answered : step e s r s') (rest : Outcome step (next r) s' a s'') :
      Outcome step (.call e next) s a s''

/-- Every outcome of the program from the given state satisfies `Q`. -/
def wp (step : (e : E) → σ → R e → σ → Prop) : Program E R α → (α → σ → Prop) → σ → Prop
  | .done a, Q, s => Q a s
  | .call e next, Q, s => ∀ r s', step e s r s' → (next r).wp step Q s'

variable {step : (e : E) → σ → R e → σ → Prop}

@[simp] theorem wp_pure (a : α) (Q : α → σ → Prop) (s : σ) :
    (pure a : Program E R α).wp step Q s ↔ Q a s := Iff.rfl

@[simp] theorem wp_perform (e : E) (Q : R e → σ → Prop) (s : σ) :
    (perform e : Program E R (R e)).wp step Q s ↔ ∀ r s', step e s r s' → Q r s' := Iff.rfl

@[simp] theorem wp_bind (p : Program E R α) (f : α → Program E R β) (Q : β → σ → Prop) (s : σ) :
    (p >>= f).wp step Q s ↔ p.wp step (fun a => (f a).wp step Q) s := by
  induction p generalizing s with
  | done a => rfl
  | call e next ih =>
    constructor
    · exact fun h r s' hs => (ih r s').mp (h r s' hs)
    · exact fun h r s' hs => (ih r s').mpr (h r s' hs)

theorem wp_mono {p : Program E R α} {P Q : α → σ → Prop} {s : σ}
    (hpq : ∀ a s', P a s' → Q a s') (h : p.wp step P s) : p.wp step Q s := by
  induction p generalizing s with
  | done a => exact hpq a s h
  | call e next ih => exact fun r s' hs => ih r (h r s' hs)

theorem wp_true (p : Program E R α) (s : σ) : p.wp step (fun _ _ => True) s := by
  induction p generalizing s with
  | done a => trivial
  | call e next ih => exact fun r s' _ => ih r s'

/-- What holds in an environment holds in one that gives fewer answers. -/
theorem wp_of_step {step' : (e : E) → σ → R e → σ → Prop} {p : Program E R α}
    {Q : α → σ → Prop} {s : σ} (hstep : ∀ e s r s', step' e s r s' → step e s r s')
    (h : p.wp step Q s) : p.wp step' Q s := by
  induction p generalizing s with
  | done a => exact h
  | call e next ih => exact fun r s' hs => ih r (h r s' (hstep e s r s' hs))

theorem wp_iff {p : Program E R α} {Q : α → σ → Prop} {s : σ} :
    p.wp step Q s ↔ ∀ a s', Outcome step p s a s' → Q a s' := by
  constructor
  · intro h a s' ho
    induction ho with
    | done a s => exact h
    | call answered _ ih => exact ih (h _ _ answered)
  · intro h
    induction p generalizing s with
    | done a => exact h a s (.done a s)
    | call e next ih => exact fun r s' hs => ih r fun a s'' ho => h a s'' (.call hs ho)

theorem wp_and {p : Program E R α} {P Q : α → σ → Prop} {s : σ} (hp : p.wp step P s)
    (hq : p.wp step Q s) : p.wp step (fun a s' => P a s' ∧ Q a s') s :=
  wp_iff.mpr fun a s' h => ⟨wp_iff.mp hp a s' h, wp_iff.mp hq a s' h⟩

/-- A functional environment is the relational one in which every call has one answer. -/
theorem wp_run {p : Program E R α} {Q : α → σ → Prop} {s : σ} :
    p.wp (fun e s r s' => answer e s = (r, s')) Q s ↔ Q (p.run answer s).1 (p.run answer s).2 := by
  induction p generalizing s with
  | done a => rfl
  | call e next ih =>
    constructor
    · exact fun h => ih _ |>.mp (h _ _ rfl)
    · rintro h r s' hs
      have hr : (answer e s).1 = r := by rw [hs]
      have hs' : (answer e s).2 = s' := by rw [hs]
      subst hr hs'
      exact (ih _).mpr h

/-! ## Interrupted executions -/

/-- `Cut step interrupt p s s'`: an execution of `p` from `s` that stops at any moment can
leave the environment in `s'`. `interrupt e` is what a call of `e` can leave behind when
it does not return. -/
inductive Cut (step : (e : E) → σ → R e → σ → Prop) (interrupt : E → σ → σ → Prop) :
    Program E R α → σ → σ → Prop where
  | stop (p : Program E R α) (s : σ) : Cut step interrupt p s s
  | during {e : E} {next : R e → Program E R α} {s s' : σ} (interrupted : interrupt e s s') :
      Cut step interrupt (.call e next) s s'
  | call {e : E} {next : R e → Program E R α} {s : σ} {r : R e} {s' s'' : σ}
      (answered : step e s r s') (rest : Cut step interrupt (next r) s' s'') :
      Cut step interrupt (.call e next) s s''

/-- `I` holds whenever the program is stopped, and `Q` when it returns. -/
def wpCut (step : (e : E) → σ → R e → σ → Prop) (interrupt : E → σ → σ → Prop) (I : σ → Prop) :
    Program E R α → (α → σ → Prop) → σ → Prop
  | .done a, Q, s => I s ∧ Q a s
  | .call e next, Q, s =>
    I s ∧ (∀ s', interrupt e s s' → I s') ∧
      ∀ r s', step e s r s' → (next r).wpCut step interrupt I Q s'

variable {interrupt : E → σ → σ → Prop} {I : σ → Prop}

theorem wpCut_start {p : Program E R α} {Q : α → σ → Prop} {s : σ}
    (h : p.wpCut step interrupt I Q s) : I s := by
  cases p with
  | done a => exact h.1
  | call e next => exact h.1

theorem wpCut_perform {e : E} {Q : R e → σ → Prop} {s : σ} (hs : I s)
    (hi : ∀ s', interrupt e s s' → I s') (hr : ∀ r s', step e s r s' → I s' ∧ Q r s') :
    (perform e : Program E R (R e)).wpCut step interrupt I Q s :=
  ⟨hs, hi, hr⟩

theorem wpCut_bind {p : Program E R α} {f : α → Program E R β} {Q : β → σ → Prop} {s : σ}
    (h : p.wpCut step interrupt I (fun a => (f a).wpCut step interrupt I Q) s) :
    (p >>= f).wpCut step interrupt I Q s := by
  induction p generalizing s with
  | done a => exact h.2
  | call e next ih => exact ⟨h.1, h.2.1, fun r s' hs => ih r (h.2.2 r s' hs)⟩

theorem wpCut_mono {I' : σ → Prop} {p : Program E R α} {P Q : α → σ → Prop} {s : σ}
    (hi : ∀ s', I s' → I' s') (hpq : ∀ a s', I s' → P a s' → Q a s')
    (h : p.wpCut step interrupt I P s) : p.wpCut step interrupt I' Q s := by
  induction p generalizing s with
  | done a => exact ⟨hi s h.1, hpq a s h.1 h.2⟩
  | call e next ih =>
    exact ⟨hi s h.1, fun s' hs => hi s' (h.2.1 s' hs), fun r s' hs => ih r (h.2.2 r s' hs)⟩

theorem Cut.invariant {p : Program E R α} {Q : α → σ → Prop} {s s' : σ}
    (hcut : Cut step interrupt p s s') (h : p.wpCut step interrupt I Q s) : I s' := by
  induction hcut with
  | stop p s => exact wpCut_start h
  | during interrupted => exact h.2.1 _ interrupted
  | call answered _ ih => exact ih (h.2.2 _ _ answered)

/-- An execution that is stopped in its first part. -/
theorem Cut.bind {p : Program E R α} {s s' : σ} (h : Cut step interrupt p s s')
    (f : α → Program E R β) : Cut step interrupt (p >>= f) s s' := by
  induction h with
  | stop p s => exact .stop _ s
  | during interrupted => exact .during interrupted
  | call answered _ ih => exact .call answered ih

/-- An execution that is stopped in its second part. -/
theorem Outcome.cut_bind {p : Program E R α} {f : α → Program E R β} {s s' s'' : σ} {a : α}
    (h : Outcome step p s a s') (hcut : Cut step interrupt (f a) s' s'') :
    Cut step interrupt (p >>= f) s s'' := by
  induction h with
  | done a s => exact hcut
  | call answered _ ih => exact .call answered (ih hcut)

theorem Outcome.bind {p : Program E R α} {f : α → Program E R β} {s s' s'' : σ} {a : α} {b : β}
    (h : Outcome step p s a s') (hrest : Outcome step (f a) s' b s'') :
    Outcome step (p >>= f) s b s'' := by
  induction h with
  | done a s => exact hrest
  | call answered _ ih => exact .call answered (ih hrest)

theorem Outcome.cut {p : Program E R α} {s s' : σ} {a : α} (h : Outcome step p s a s') :
    Cut step interrupt p s s' := by
  induction h with
  | done a s => exact .stop _ s
  | call answered _ ih => exact .call answered ih

/-- The run against a functional environment whose answers the relational one allows, under
a projection of its states. -/
theorem Outcome.of_run {τ : Type} {reply : (e : E) → τ → R e × τ} (project : τ → σ)
    (h : ∀ e t, step e (project t) (reply e t).1 (project (reply e t).2)) (p : Program E R α)
    (t : τ) : Outcome step p (project t) (p.run reply t).1 (project (p.run reply t).2) := by
  induction p generalizing t with
  | done a => exact .done a _
  | call e next ih => exact .call (h e t) (ih _ _)

theorem Outcome.perform {e : E} {r : R e} {s s' : σ} (h : step e s r s') :
    Outcome step (perform e : Program E R (R e)) s r s' :=
  .call h (.done r s')

/-! ## Programs that only make some calls -/

/-- All calls of the program, whatever the answers, satisfy `P`. -/
def Only (P : E → Prop) : Program E R α → Prop
  | .done _ => True
  | .call e next => P e ∧ ∀ r, (next r).Only P

variable {P : E → Prop}

theorem only_pure (a : α) : (pure a : Program E R α).Only P := trivial

theorem only_perform {e : E} (h : P e) : (perform e : Program E R (R e)).Only P :=
  ⟨h, fun _ => trivial⟩

theorem only_bind {p : Program E R α} {f : α → Program E R β} (hp : p.Only P)
    (hf : ∀ a, (f a).Only P) : (p >>= f).Only P := by
  induction p with
  | done a => exact hf a
  | call e next ih => exact ⟨hp.1, fun r => ih r (hp.2 r)⟩

theorem only_ite {c : Prop} [Decidable c] {p q : Program E R α} (hp : p.Only P) (hq : q.Only P) :
    (if c then p else q).Only P := by
  split
  · exact hp
  · exact hq

theorem Only.mono {P' : E → Prop} {p : Program E R α} (h : p.Only P) (hp : ∀ e, P e → P' e) :
    p.Only P' := by
  induction p with
  | done a => trivial
  | call e next ih => exact ⟨hp e h.1, fun r => ih r (h.2 r)⟩

theorem only_true (p : Program E R α) : p.Only fun _ => True := by
  induction p with
  | done a => trivial
  | call e next ih => exact ⟨trivial, ih⟩

/-- Calls that keep `I` keep it in every interrupted execution. -/
theorem Only.wpCut {p : Program E R α} {s : σ} (h : p.Only P) (hs : I s)
    (hinterrupt : ∀ e s s', P e → I s → interrupt e s s' → I s')
    (hstep : ∀ e s r s', P e → I s → step e s r s' → I s') :
    p.wpCut step interrupt I (fun _ => I) s := by
  induction p generalizing s with
  | done a => exact ⟨hs, hs⟩
  | call e next ih =>
    exact ⟨hs, fun s' hs' => hinterrupt e s s' h.1 hs hs',
      fun r s' hs' => ih r (h.2 r) (hstep e s r s' h.1 hs hs')⟩

end Program

/-! ## Properties of every computation -/

/-- A property of computations, and of what they return, that holds of returns and of
sequences of computations that have it. -/
structure Compositional {m : Type → Type} [Monad m]
    (P : (α : Type) → m α → (α → Prop) → Prop) : Prop where
  pure : ∀ {α : Type} {a : α} {Q : α → Prop}, Q a → P α (pure a) Q
  bind : ∀ {α β : Type} {p : m α} {f : α → m β} {Q : α → Prop} {Q' : β → Prop},
    P α p Q → (∀ a, Q a → P β (f a) Q') → P β (p >>= f) Q'

theorem Compositional.mapM {m : Type → Type} [Monad m] [LawfulMonad m]
    {P : (α : Type) → m α → (α → Prop) → Prop} (h : Compositional P) {α β : Type} {f : α → m β}
    (hf : ∀ a, P β (f a) fun _ => True) (as : List α) :
    P (List β) (as.mapM f) fun _ => True := by
  induction as with
  | nil =>
    rw [List.mapM_nil]
    exact h.pure trivial
  | cons a as ih =>
    rw [List.mapM_cons]
    exact h.bind (hf a) fun b _ => h.bind ih fun bs _ => h.pure trivial

end Foundation
