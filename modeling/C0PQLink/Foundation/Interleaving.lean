import Mathlib.Logic.Function.Basic
import Mathlib.Logic.Relation
import C0PQLink.Foundation.Interaction

/-!
# Programs that run side by side

Threads that share a state: a step of the system is one call of one thread, or the start
of a program on a thread, which ends what ran there. What a thread knows of the shared
state has to survive the calls of the others.

* `wpShared`: what has to hold so that a program does its part: each of its calls keeps
  the invariant and lets the state grow, whatever growth happened before the call.
* `Pool.invariant`: threads that do their part keep the invariant in every reachable pool,
  and `Pool.Safe.result` says what those that have ended have established.
* `runFor`: the first calls of a program, executed against a functional environment.
-/

namespace Foundation.Program

variable {E : Type} {R : E → Type} {α β σ : Type}

/-! ## One thread -/

/-- Between the calls of the program the state grows and keeps `I`; each call lets it grow
and keeps `I`, and `Q` holds from the end on. -/
def wpShared (step : (e : E) → σ → R e → σ → Prop) (grows : σ → σ → Prop) (I : σ → Prop) :
    Program E R α → (α → σ → Prop) → σ → Prop
  | .done a, Q, s => ∀ s', grows s s' → I s' → Q a s'
  | .call e next, Q, s => ∀ s1, grows s s1 → I s1 → ∀ r s2, step e s1 r s2 →
      grows s1 s2 ∧ I s2 ∧ (next r).wpShared step grows I Q s2

variable {step : (e : E) → σ → R e → σ → Prop} {grows : σ → σ → Prop} {I : σ → Prop}

theorem wpShared_pure {a : α} {Q : α → σ → Prop} {s : σ}
    (h : ∀ s', grows s s' → I s' → Q a s') :
    (pure a : Program E R α).wpShared step grows I Q s := h

theorem wpShared_grows (htrans : ∀ s1 s2 s3, grows s1 s2 → grows s2 s3 → grows s1 s3)
    {p : Program E R α} {Q : α → σ → Prop} {s s' : σ} (h : p.wpShared step grows I Q s)
    (hs : grows s s') : p.wpShared step grows I Q s' := by
  cases p with
  | done a => exact fun s1 h1 => h s1 (htrans _ _ _ hs h1)
  | call e next => exact fun s1 h1 => h s1 (htrans _ _ _ hs h1)

theorem wpShared_bind (hrefl : ∀ s, grows s s) {p : Program E R α} {f : α → Program E R β}
    {Q : β → σ → Prop} {s : σ} (hs : I s)
    (h : p.wpShared step grows I (fun a => (f a).wpShared step grows I Q) s) :
    (p >>= f).wpShared step grows I Q s := by
  induction p generalizing s with
  | done a => exact h s (hrefl s) hs
  | call e next ih =>
    intro s1 h1 hI1 r s2 hstep
    obtain ⟨hgrows, hI2, hrest⟩ := h s1 h1 hI1 r s2 hstep
    exact ⟨hgrows, hI2, ih r hI2 hrest⟩

theorem wpShared_mono {p : Program E R α} {P Q : α → σ → Prop} {s : σ}
    (hpq : ∀ a s', I s' → P a s' → Q a s') (h : p.wpShared step grows I P s) :
    p.wpShared step grows I Q s := by
  induction p generalizing s with
  | done a => exact fun s' hs hI => hpq a s' hI (h s' hs hI)
  | call e next ih =>
    intro s1 h1 hI1 r s2 hstep
    obtain ⟨hgrows, hI2, hrest⟩ := h s1 h1 hI1 r s2 hstep
    exact ⟨hgrows, hI2, ih r hrest⟩

/-- Calls that leave the shared state alone. -/
theorem Only.wpShared (hrefl : ∀ s, grows s s)
    (htrans : ∀ s1 s2 s3, grows s1 s2 → grows s2 s3 → grows s1 s3) {P : E → Prop}
    (hstep : ∀ e s r s', P e → step e s r s' → s' = s) {p : Program E R α} (h : p.Only P)
    {Q : α → σ → Prop} {s : σ} (hq : ∀ a s', grows s s' → I s' → Q a s') :
    p.wpShared step grows I Q s := by
  induction p generalizing s with
  | done a => exact hq a
  | call e next ih =>
    intro s1 h1 hI1 r s2 hs2
    obtain rfl := hstep e s1 r s2 h.1 hs2
    exact ⟨hrefl s2, hI1, ih r (h.2 r) fun a s' hs' => hq a s' (htrans _ _ _ h1 hs')⟩

/-! ## Pools of threads -/

section Pools

variable {ι : Type} [DecidableEq ι] {E : ι → Type} {R : (i : ι) → E i → Type} {A : ι → Type}

/-- What remains to do on each thread, and the shared state. -/
structure Pool {ι : Type} {E : ι → Type} (R : (i : ι) → E i → Type) (A : ι → Type) (σ : Type) where
  threads : (i : ι) → Program (E i) (R i) (A i)
  state : σ

inductive PoolStep (step : (i : ι) → (e : E i) → σ → R i e → σ → Prop)
    (start : (i : ι) → σ → Program (E i) (R i) (A i) → σ → Prop) : Pool R A σ → Pool R A σ → Prop
  where
  | call {pool : Pool R A σ} {i : ι} {e : E i} {next : R i e → Program (E i) (R i) (A i)} {r : R i e}
      {s' : σ} (running : pool.threads i = .call e next) (answered : step i e pool.state r s') :
      PoolStep step start pool ⟨Function.update pool.threads i (next r), s'⟩
  | start {pool : Pool R A σ} {i : ι} {p : Program (E i) (R i) (A i)} {s' : σ}
      (started : start i pool.state p s') :
      PoolStep step start pool ⟨Function.update pool.threads i p, s'⟩

variable {step : (i : ι) → (e : E i) → σ → R i e → σ → Prop}
  {start : (i : ι) → σ → Program (E i) (R i) (A i) → σ → Prop}

/-- All threads do their part, and `Q` holds of the result of each one that has ended. -/
structure Pool.Safe (step : (i : ι) → (e : E i) → σ → R i e → σ → Prop) (grows : σ → σ → Prop)
    (I : σ → Prop) (Q : (i : ι) → A i → σ → Prop) (pool : Pool R A σ) : Prop where
  invariant : I pool.state
  threads : ∀ i, (pool.threads i).wpShared (step i) grows I (Q i) pool.state

variable {Q : (i : ι) → A i → σ → Prop}

theorem Pool.Safe.update (htrans : ∀ s1 s2 s3, grows s1 s2 → grows s2 s3 → grows s1 s3)
    {pool : Pool R A σ} (h : pool.Safe step grows I Q) {s' : σ} (hgrows : grows pool.state s')
    (hs' : I s') {i : ι} {p : Program (E i) (R i) (A i)}
    (hp : p.wpShared (step i) grows I (Q i) s') :
    Pool.Safe step grows I Q ⟨Function.update pool.threads i p, s'⟩ := by
  refine ⟨hs', fun j => ?_⟩
  change (Function.update pool.threads i p j).wpShared (step j) grows I (Q j) s'
  rcases eq_or_ne j i with rfl | hne
  · rw [Function.update_self]
    exact hp
  · rw [Function.update_of_ne hne]
    exact wpShared_grows htrans (h.threads j) hgrows

omit [DecidableEq ι] in
/-- What a thread that has ended has established. -/
theorem Pool.Safe.result (hrefl : ∀ s, grows s s) {pool : Pool R A σ}
    (h : pool.Safe step grows I Q) {i : ι} {a : A i} (hdone : pool.threads i = .done a) :
    Q i a pool.state := by
  have hthread := h.threads i
  rw [hdone] at hthread
  exact hthread pool.state (hrefl _) h.invariant

/-- Threads that do their part keep the invariant, in any order of their calls. -/
theorem Pool.invariant (hrefl : ∀ s, grows s s)
    (htrans : ∀ s1 s2 s3, grows s1 s2 → grows s2 s3 → grows s1 s3)
    (hstart : ∀ i s p s', I s → start i s p s' → grows s s' ∧ I s' ∧
      p.wpShared (step i) grows I (Q i) s')
    {pool pool' : Pool R A σ} (h : Relation.ReflTransGen (PoolStep step start) pool pool')
    (hpool : pool.Safe step grows I Q) : pool'.Safe step grows I Q := by
  induction h with
  | refl => exact hpool
  | tail _ hstep ih =>
    cases hstep with
    | @call i e next r s' running answered =>
      have hthread := ih.threads i
      rw [running] at hthread
      obtain ⟨hgrows, hI, hrest⟩ := hthread _ (hrefl _) ih.invariant r s' answered
      exact ih.update htrans hgrows hI hrest
    | start started =>
      obtain ⟨hgrows, hI, hp⟩ := hstart _ _ _ _ ih.invariant started
      exact ih.update htrans hgrows hI hp

/-! ## Schedules -/

/-- Runs a program until it has made the given number of calls or a call is refused. -/
def runFor {E : Type} {R : E → Type} {α τ : Type} (answer : (e : E) → τ → Option (R e × τ)) :
    Nat → Program E R α → τ → Program E R α × τ
  | calls + 1, .call e next, s =>
    match answer e s with
    | some (r, s') => (next r).runFor answer calls s'
    | none => (.call e next, s)
  | _, p, s => (p, s)

/-- Lets a thread make some calls. -/
theorem PoolStep.of_runFor {τ : Type} (project : τ → σ) {i : ι}
    {answer : (e : E i) → τ → Option (R i e × τ)}
    (h : ∀ e t r t', answer e t = some (r, t') → step i e (project t) r (project t'))
    (calls : Nat) {pool : Pool R A σ} {t : τ} (hstate : pool.state = project t) :
    Relation.ReflTransGen (PoolStep step start) pool
      ⟨Function.update pool.threads i ((pool.threads i).runFor answer calls t).1,
        project ((pool.threads i).runFor answer calls t).2⟩ := by
  induction calls generalizing pool t with
  | zero =>
    have hdone : ((pool.threads i).runFor answer 0 t) = (pool.threads i, t) := by
      cases pool.threads i <;> rfl
    rw [hdone, Function.update_eq_self, ← hstate]
  | succ calls ih =>
    rcases hthread : pool.threads i with a | ⟨e, next⟩
    · have hdone : (Program.done a : Program (E i) (R i) (A i)).runFor answer (calls + 1) t
          = (.done a, t) := rfl
      rw [hdone, ← hthread, Function.update_eq_self, ← hstate]
    · rcases hanswer : answer e t with _ | ⟨r, t'⟩
      · have hdone : (Program.call e next : Program (E i) (R i) (A i)).runFor answer (calls + 1) t
            = (.call e next, t) := by rw [runFor, hanswer]
        rw [hdone, ← hthread, Function.update_eq_self, ← hstate]
      · have hrest : (Program.call e next : Program (E i) (R i) (A i)).runFor answer (calls + 1) t
            = (next r).runFor answer calls t' := by rw [runFor, hanswer]
        rw [hrest]
        refine .head (.call hthread (hstate ▸ h e t r t' hanswer)) ?_
        have hlater := @ih ⟨Function.update pool.threads i (next r), project t'⟩ t' rfl
        simpa only [Function.update_self, Function.update_idem] using hlater

end Pools

end Foundation.Program
