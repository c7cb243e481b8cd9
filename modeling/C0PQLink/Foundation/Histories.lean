import C0PQLink.Foundation.Interleaving
import C0PQLink.Foundation.Tracing

/-!
# Histories of marks

Threads that leave marks in one history, the last one first, and whose other calls do not
change the shared state.

* `Program.Returns`: the values that a program can return, under a condition on the answers.
* `SoundHistory`: every mark is justified by the marks before it.
* `lift_wpShared`: calls of a thread between its marks, in any interleaving.
-/

namespace Foundation

/-! ## The values of a program -/

namespace Program

variable {E : Type} {R : E → Type} {α β σ : Type}

/-- Every value that the program can return satisfies `Q`, if the answers satisfy `ok`. -/
def Returns (ok : (e : E) → R e → Prop) (p : Program E R α) (Q : α → Prop) : Prop :=
  p.wp (fun e (_ : Unit) r _ => ok e r) (fun a _ => Q a) ()

variable {ok : (e : E) → R e → Prop} {Q : α → Prop}

theorem Returns.mono {Q' : α → Prop} {p : Program E R α} (h : p.Returns ok Q)
    (hq : ∀ a, Q a → Q' a) : p.Returns ok Q' := wp_mono (fun a _ => hq a) h

theorem Returns.bind {Q' : β → Prop} {p : Program E R α} {f : α → Program E R β}
    (h : p.Returns ok Q) (hf : ∀ a, Q a → (f a).Returns ok Q') : (p >>= f).Returns ok Q' := by
  rw [Returns, wp_bind]
  exact wp_mono (fun a _ ha => hf a ha) h

/-- What holds of every outcome in an environment that gives at least these answers. -/
theorem returns_of_wp {step : (e : E) → σ → R e → σ → Prop}
    (hstep : ∀ e s r, ok e r → ∃ s', step e s r s') {p : Program E R α} {s : σ}
    (h : p.wp step (fun a _ => Q a) s) : p.Returns ok Q := by
  induction p generalizing s with
  | done a => exact h
  | call e next ih =>
    intro r _ hr
    obtain ⟨s', hs'⟩ := hstep e s r hr
    exact ih r (h r s' hs')

/-! ## Calls and marks in an interleaving -/

variable {M : Type} {step : (e : E ⊕ M) → σ → MarkedReply R M e → σ → Prop}
  {grows : σ → σ → Prop} {I : σ → Prop}

/-- Calls that leave the shared state alone, and what follows the value that they return. -/
theorem lift_wpShared (hrefl : ∀ s, grows s s)
    (htrans : ∀ s1 s2 s3, grows s1 s2 → grows s2 s3 → grows s1 s3)
    (hstep : ∀ e s r s', step (.inl e) s r s' → ok e r ∧ s' = s) {p : Program E R α}
    (hp : p.Returns ok Q) {f : α → Program (E ⊕ M) (MarkedReply R M) β} {Q' : β → σ → Prop}
    {s : σ} (h : ∀ a s', Q a → grows s s' → I s' → (f a).wpShared step grows I Q' s') (hs : I s) :
    (p.lift M >>= f).wpShared step grows I Q' s := by
  induction p generalizing s with
  | done a => exact h a s hp (hrefl s) hs
  | call e next ih =>
    intro s1 h1 hI1 r s2 hs2
    obtain ⟨hr, rfl⟩ := hstep e s1 r s2 hs2
    exact ⟨hrefl s2, hI1, ih r (hp r () hr) (fun a s' ha hs' => h a s' ha (htrans _ _ _ h1 hs'))
      hI1⟩

end Program

/-! ## Justified marks -/

section

variable {M : Type} (Justified : List M → M → Prop)

/-- Every mark of the history is justified by what precedes it. -/
def SoundHistory : List M → Prop
  | [] => True
  | m :: history => Justified history m ∧ SoundHistory history

variable {Justified} {history : List M} {m : M}

theorem SoundHistory.of_mem (h : SoundHistory Justified history) (hm : m ∈ history) :
    ∃ earlier, earlier <:+ history ∧ Justified earlier m := by
  induction history with
  | nil => cases hm
  | cons first history ih =>
    rcases List.mem_cons.mp hm with rfl | hm
    · exact ⟨history, List.suffix_cons _ _, h.1⟩
    · obtain ⟨earlier, hsuffix, hjustified⟩ := ih h.2 hm
      exact ⟨earlier, hsuffix.trans (List.suffix_cons _ _), hjustified⟩

/-- Marks of one kind that are new in the value of `f` are told apart by it. -/
theorem SoundHistory.inj {α β : Type} {g : α → M} (hg : Function.Injective g) {f : α → β}
    (hnew : ∀ earlier a, Justified earlier (g a) → ∀ a', g a' ∈ earlier → f a' = f a →
      a' = a) (h : SoundHistory Justified history) {a a' : α} (ha : g a ∈ history)
    (ha' : g a' ∈ history) (heq : f a = f a') : a = a' := by
  induction history with
  | nil => cases ha
  | cons first history ih =>
    rcases List.mem_cons.mp ha with hfirst | hearlier
    · rcases List.mem_cons.mp ha' with hfirst' | hearlier'
      · exact hg (hfirst.trans hfirst'.symm)
      · rw [← hfirst] at h
        exact (hnew history a h.1 a' hearlier' heq.symm).symm
    · rcases List.mem_cons.mp ha' with hfirst' | hearlier'
      · rw [← hfirst'] at h
        exact hnew history a' h.1 a hearlier heq
      · exact ih h.2 hearlier hearlier'

end

end Foundation
