import C0PQLink.Foundation.Interaction

/-!
# The moments of an execution

What an execution passes through, call after call, and programs with marks: calls without
an effect on the environment that say what the program is about to do.

* `Trace`: the states after the calls of an execution that stops at any moment.
* `wpSteps`: what has to hold before a program so that every one of its calls satisfies
  a relation between the states before and after it.
* `Arrives`: the programs that are left to run at the moments of an execution.
* `lift`, `mark`, `erase`: a program without marks as one with them, a single mark, and
  the program that is left when the marks are taken away.
-/

namespace Foundation.Program

variable {E : Type} {R : E → Type} {α β σ : Type}

/-! ## Steps of executions -/

/-- `Trace step interrupt p s trace`: an execution of `p` from `s` that stops at any moment
can pass through the states of `trace`, the last one first. -/
inductive Trace (step : (e : E) → σ → R e → σ → Prop) (interrupt : E → σ → σ → Prop) :
    Program E R α → σ → List σ → Prop where
  | stop (p : Program E R α) (s : σ) : Trace step interrupt p s []
  | during {e : E} {next : R e → Program E R α} {s s' : σ} (interrupted : interrupt e s s') :
      Trace step interrupt (.call e next) s [s']
  | call {e : E} {next : R e → Program E R α} {s : σ} {r : R e} {s' : σ} {trace : List σ}
      (answered : step e s r s') (rest : Trace step interrupt (next r) s' trace) :
      Trace step interrupt (.call e next) s (trace ++ [s'])

/-- What every call does, whether it returns or not, satisfies `T`; `Q` holds at the end. -/
def wpSteps (step : (e : E) → σ → R e → σ → Prop) (interrupt : E → σ → σ → Prop)
    (T : σ → σ → Prop) : Program E R α → (α → σ → Prop) → σ → Prop
  | .done a, Q, s => Q a s
  | .call e next, Q, s =>
    (∀ s', interrupt e s s' → T s s') ∧
      ∀ r s', step e s r s' → T s s' ∧ (next r).wpSteps step interrupt T Q s'

variable {step : (e : E) → σ → R e → σ → Prop} {interrupt : E → σ → σ → Prop}
  {T : σ → σ → Prop} {I : σ → Prop}

theorem wpSteps_perform {e : E} {Q : R e → σ → Prop} {s : σ}
    (hi : ∀ s', interrupt e s s' → T s s') (hr : ∀ r s', step e s r s' → T s s' ∧ Q r s') :
    (perform e : Program E R (R e)).wpSteps step interrupt T Q s :=
  ⟨hi, hr⟩

theorem wpSteps_bind {p : Program E R α} {f : α → Program E R β} {Q : β → σ → Prop} {s : σ}
    (h : p.wpSteps step interrupt T (fun a => (f a).wpSteps step interrupt T Q) s) :
    (p >>= f).wpSteps step interrupt T Q s := by
  induction p generalizing s with
  | done a => exact h
  | call e next ih =>
    exact ⟨h.1, fun r s' hs => ⟨(h.2 r s' hs).1, ih r (h.2 r s' hs).2⟩⟩

theorem Outcome.of_wpSteps {p : Program E R α} {Q : α → σ → Prop} {s s' : σ} {a : α}
    (h : p.wpSteps step interrupt T Q s) (houtcome : Outcome step p s a s') : Q a s' := by
  induction houtcome with
  | done a s => exact h
  | call answered _ ih => exact ih (h.2 _ _ answered).2

/-- A property of the states passed so far that every step keeps. -/
theorem Trace.extends {p : Program E R α} {Q : α → σ → Prop} {s : σ} {trace before : List σ}
    {H : List σ → Prop} (htrace : Trace step interrupt p s trace)
    (h : p.wpSteps step interrupt T Q s) (hs : H (s :: before))
    (hstep : ∀ s s' before, H (s :: before) → T s s' → H (s' :: s :: before)) :
    H (trace ++ s :: before) := by
  induction htrace generalizing before with
  | stop p s => exact hs
  | during interrupted => exact hstep _ _ _ hs (h.1 _ interrupted)
  | @call e next s r s' trace answered _ ih =>
    obtain ⟨hT, hrest⟩ := h.2 _ _ answered
    rw [List.append_assoc]
    exact ih hrest (hstep _ _ _ hs hT)

/-- A relation that holds of all steps turns an invariant into one of the cut program. -/
theorem wpCut_of_wpSteps {p : Program E R α} {Q : α → σ → Prop} {s : σ}
    (h : p.wpSteps step interrupt T Q s) (hkeeps : ∀ s s', T s s' → I s → I s') (hs : I s) :
    p.wpCut step interrupt I Q s := by
  induction p generalizing s with
  | done a => exact ⟨hs, h⟩
  | call e next ih =>
    refine ⟨hs, fun s' hs' => hkeeps s s' (h.1 s' hs') hs, fun r s' hs' => ?_⟩
    obtain ⟨hstep, hrest⟩ := h.2 r s' hs'
    exact ih r hrest (hkeeps s s' hstep hs)

/-- Calls that keep `I` and satisfy `T` as long as it holds. -/
theorem Only.wpSteps {P : E → Prop} {p : Program E R α} {Q : α → σ → Prop} {s : σ}
    (h : p.Only P) (hs : I s) (hinterrupt : ∀ e s s', P e → I s → interrupt e s s' → T s s')
    (hstep : ∀ e s r s', P e → I s → step e s r s' → T s s' ∧ I s')
    (hq : ∀ a s', I s' → Q a s') : p.wpSteps step interrupt T Q s := by
  induction p generalizing s with
  | done a => exact hq a s hs
  | call e next ih =>
    refine ⟨fun s' hs' => hinterrupt e s s' h.1 hs hs', fun r s' hs' => ?_⟩
    obtain ⟨hT, hI⟩ := hstep e s r s' h.1 hs hs'
    exact ⟨hT, ih r (h.2 r) hI⟩

/-- Every moment of a trace is one at which the execution can be cut off. -/
theorem Trace.cut {p : Program E R α} {s s' : σ} {trace : List σ}
    (h : Trace step interrupt p s trace) (hs' : s' ∈ trace) : Cut step interrupt p s s' := by
  induction h with
  | stop p s => cases hs'
  | during interrupted =>
    rw [List.mem_singleton] at hs'
    subst hs'
    exact .during interrupted
  | call answered _ ih =>
    rcases List.mem_append.mp hs' with hs' | hs'
    · exact .call answered (ih hs')
    · rw [List.mem_singleton] at hs'
      subst hs'
      exact .call answered (.stop _ _)

/-- The states after the calls of a run against a functional environment, the last one
first. -/
def traceRun (answer : (e : E) → σ → R e × σ) : Program E R α → σ → List σ
  | .done _, _ => []
  | .call e next, s =>
    traceRun answer (next (answer e s).1) (answer e s).2 ++ [(answer e s).2]

theorem Trace.of_run {τ : Type} {reply : (e : E) → τ → R e × τ} (project : τ → σ)
    (h : ∀ e t, step e (project t) (reply e t).1 (project (reply e t).2)) (p : Program E R α)
    (t : τ) : Trace step interrupt p (project t) ((p.traceRun reply t).map project) := by
  induction p generalizing t with
  | done a => exact .stop _ _
  | call e next ih =>
    rw [traceRun, List.map_append]
    exact .call (h e t) (ih _ _)

/-! ## Arrivals -/

/-- `Arrives step p s q s'`: an execution of `p` from `s` comes to a moment at which `q` is
left to run, with the environment in `s'`. -/
inductive Arrives (step : (e : E) → σ → R e → σ → Prop) :
    Program E R α → σ → Program E R α → σ → Prop where
  | here (p : Program E R α) (s : σ) : Arrives step p s p s
  | call {e : E} {next : R e → Program E R α} {s : σ} {r : R e} {s' s'' : σ} {q : Program E R α}
      (answered : step e s r s') (rest : Arrives step (next r) s' q s'') :
      Arrives step (.call e next) s q s''

/-- The moments of a sequence: those before a call of its first part, and those of its
second part. -/
theorem Arrives.of_bind {p : Program E R α} {f : α → Program E R β} {q : Program E R β} {s s' : σ}
    (h : Arrives step (p >>= f) s q s') :
    (∃ e next, Arrives step p s (.call e next) s' ∧ q = .call e fun r => next r >>= f) ∨
      ∃ a s1, Outcome step p s a s1 ∧ Arrives step (f a) s1 q s' := by
  induction p generalizing s with
  | done a => exact .inr ⟨a, s, .done a s, h⟩
  | call e next ih =>
    cases h with
    | here => exact .inl ⟨e, next, .here _ _, rfl⟩
    | call answered rest =>
      rcases ih _ rest with ⟨e', next', hp, hq⟩ | ⟨a, s1, hp, hrest⟩
      · exact .inl ⟨e', next', .call answered hp, hq⟩
      · exact .inr ⟨a, s1, .call answered hp, hrest⟩

theorem Outcome.arrives {p : Program E R α} {f : α → Program E R β} {q : Program E R β}
    {s s' s'' : σ} {a : α} (h : Outcome step p s a s') (hrest : Arrives step (f a) s' q s'') :
    Arrives step (p >>= f) s q s'' := by
  induction h with
  | done a s => exact hrest
  | call answered _ ih => exact .call answered (ih hrest)

theorem Arrives.cut {p q : Program E R α} {s s' : σ} (h : Arrives step p s q s') :
    Cut step interrupt p s s' := by
  induction h with
  | here p s => exact .stop p s
  | call answered _ ih => exact .call answered ih

theorem Only.arrives {P : E → Prop} {p : Program E R α} {e : E} {next : R e → Program E R α}
    {s s' : σ} (h : p.Only P) (harrives : Arrives step p s (.call e next) s') : P e := by
  induction p generalizing s with
  | done a => cases harrives
  | call e' next' ih =>
    cases harrives with
    | here => exact h.1
    | call answered rest => exact ih _ (h.2 _) rest

/-! ## Marks -/

variable {M : Type}

/-- The answers to the calls of `E` and to the marks of `M`, which have none. -/
abbrev MarkedReply (R : E → Type) (M : Type) : E ⊕ M → Type
  | .inl e => R e
  | .inr _ => Unit

def lift (M : Type) : Program E R α → Program (E ⊕ M) (MarkedReply R M) α
  | .done a => .done a
  | .call e next => .call (.inl e) fun r => (next r).lift M

def mark (m : M) : Program (E ⊕ M) (MarkedReply R M) Unit := .call (.inr m) .done

def erase : Program (E ⊕ M) (MarkedReply R M) α → Program E R α
  | .done a => .done a
  | .call (.inl e) next => .call e fun r => (next r).erase
  | .call (.inr _) next => (next ()).erase

@[simp] theorem erase_pure (a : α) :
    (pure a : Program (E ⊕ M) (MarkedReply R M) α).erase = pure a := rfl

@[simp] theorem erase_lift (p : Program E R α) : (p.lift M).erase = p := by
  induction p with
  | done a => rfl
  | call e next ih => simp only [lift, erase, ih]

@[simp] theorem erase_mark (m : M) :
    (mark m : Program (E ⊕ M) (MarkedReply R M) Unit).erase = pure () := rfl

@[simp] theorem erase_bind (p : Program (E ⊕ M) (MarkedReply R M) α)
    (f : α → Program (E ⊕ M) (MarkedReply R M) β) :
    (p >>= f).erase = p.erase >>= fun a => (f a).erase := by
  induction p with
  | done a => rfl
  | call e next ih =>
    cases e with
    | inl e => exact congrArg (Program.call e) (funext fun r => ih r)
    | inr m => exact ih ()

@[simp] theorem erase_map (f : α → β) (p : Program (E ⊕ M) (MarkedReply R M) α) :
    (f <$> p).erase = f <$> p.erase := by
  rw [← bind_pure_comp, ← bind_pure_comp]
  exact erase_bind p _

@[simp] theorem erase_ite (c : Prop) [Decidable c] (p q : Program (E ⊕ M) (MarkedReply R M) α) :
    (if c then p else q).erase = if c then p.erase else q.erase := by
  split <;> rfl

@[simp] theorem erase_dite (c : Prop) [Decidable c]
    (p : c → Program (E ⊕ M) (MarkedReply R M) α) (q : ¬ c → Program (E ⊕ M) (MarkedReply R M) α) :
    (if h : c then p h else q h).erase = if h : c then (p h).erase else (q h).erase := by
  split <;> rfl

@[simp] theorem erase_mapM (f : α → Program (E ⊕ M) (MarkedReply R M) β) (as : List α) :
    (as.mapM f).erase = as.mapM fun a => (f a).erase := by
  induction as with
  | nil => rfl
  | cons a as ih => simp only [List.mapM_cons, erase_bind, erase_pure, ih]

theorem Only.lift {P : E → Prop} {p : Program E R α} (h : p.Only P) :
    (p.lift M).Only (Sum.elim P fun _ => False) := by
  induction p with
  | done a => trivial
  | call e next ih => exact ⟨h.1, fun r => ih r (h.2 r)⟩

section Projection

variable {τ : Type} {step' : (e : E ⊕ M) → τ → MarkedReply R M e → τ → Prop}
  {interrupt' : E ⊕ M → τ → τ → Prop} {project : τ → σ}

/-- The calls of an execution without its marks, in an environment of which the marks
only change what the calls do not see. -/
theorem Cut.erase {p : Program (E ⊕ M) (MarkedReply R M) α} {t t' : τ}
    (h : Cut step' interrupt' p t t')
    (hstep : ∀ e t r t', step' (.inl e) t r t' → step e (project t) r (project t'))
    (hinterrupt : ∀ e t t', interrupt' (.inl e) t t' → interrupt e (project t) (project t'))
    (hmark : ∀ m t r t', step' (.inr m) t r t' → project t' = project t)
    (hmarking : ∀ m t t', interrupt' (.inr m) t t' → project t' = project t) :
    Cut step interrupt p.erase (project t) (project t') := by
  induction h with
  | stop p t => exact .stop _ _
  | @during e next t t' interrupted =>
    cases e with
    | inl e => exact .during (hinterrupt e t t' interrupted)
    | inr m =>
      rw [hmarking m t t' interrupted]
      exact .stop _ _
  | @call e next t r t' t'' answered _ ih =>
    cases e with
    | inl e => exact .call (hstep e t r t' answered) ih
    | inr m =>
      rw [hmark m t r t' answered] at ih
      exact ih

/-- An execution of a program without its marks is one of the program with them. -/
theorem Cut.of_erase {p : Program (E ⊕ M) (MarkedReply R M) α} {t : τ} {s' : σ}
    (h : Cut step interrupt p.erase (project t) s')
    (hstep : ∀ e t r s', step e (project t) r s' → ∃ t', step' (.inl e) t r t' ∧ project t' = s')
    (hinterrupt : ∀ e t s', interrupt e (project t) s' →
      ∃ t', interrupt' (.inl e) t t' ∧ project t' = s')
    (hmark : ∀ m t, ∃ t', step' (.inr m) t () t' ∧ project t' = project t) :
    ∃ trace t' rest, Trace step' interrupt' p t trace ∧ trace ++ [t] = t' :: rest ∧
      project t' = s' := by
  induction p generalizing t with
  | done a =>
    cases h
    exact ⟨[], t, [], .stop _ _, rfl, rfl⟩
  | call e next ih =>
    cases e with
    | inr m =>
      obtain ⟨t1, ht1, hproject⟩ := hmark m t
      rw [← hproject] at h
      obtain ⟨trace, t', rest, htrace, heq, hs'⟩ := ih () h
      exact ⟨trace ++ [t1], t', rest ++ [t], .call ht1 htrace, by rw [heq]; rfl, hs'⟩
    | inl e =>
      cases h with
      | stop => exact ⟨[], t, [], .stop _ _, rfl, rfl⟩
      | during interrupted =>
        obtain ⟨t', ht', hs'⟩ := hinterrupt e t _ interrupted
        exact ⟨[t'], t', [t], .during ht', rfl, hs'⟩
      | call answered rest =>
        obtain ⟨t1, ht1, rfl⟩ := hstep e t _ _ answered
        obtain ⟨trace, t', before, htrace, heq, hs'⟩ := ih _ rest
        exact ⟨trace ++ [t1], t', before ++ [t], .call ht1 htrace, by rw [heq]; rfl, hs'⟩

/-- The steps of a program without marks, as a part of one with them. -/
theorem lift_wpSteps {T : τ → τ → Prop} {p : Program E R α} {Q : α → τ → Prop} {s : σ}
    (embed : σ → τ)
    (hstep : ∀ e s r t', step' (.inl e) (embed s) r t' → ∃ s', step e s r s' ∧ t' = embed s')
    (hinterrupt : ∀ e s t', interrupt' (.inl e) (embed s) t' →
      ∃ s', interrupt e s s' ∧ t' = embed s')
    (h : p.wpSteps step interrupt (fun s s' => T (embed s) (embed s'))
      (fun a s' => Q a (embed s')) s) :
    (p.lift M).wpSteps step' interrupt' T Q (embed s) := by
  induction p generalizing s with
  | done a => exact h
  | call e next ih =>
    refine ⟨fun t' ht' => ?_, fun r t' ht' => ?_⟩
    · obtain ⟨s', hs', rfl⟩ := hinterrupt e s t' ht'
      exact h.1 s' hs'
    · obtain ⟨s', hs', rfl⟩ := hstep e s r t' ht'
      obtain ⟨hT, hrest⟩ := h.2 r s' hs'
      exact ⟨hT, ih r hrest⟩

end Projection

end Foundation.Program
