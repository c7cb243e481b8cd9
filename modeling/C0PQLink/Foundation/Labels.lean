import Mathlib.Data.List.Infix
import Mathlib.Logic.Function.Basic

/-!
# Labelled encodings

Byte strings that begin with a text label and go on with encoded fields, without a separator
between the two. They can be told apart when no label is the beginning of another one.

* `PrefixFree.labelled_injective`: the label and the fields can be read off such a string.
-/

namespace Foundation

variable {ι α : Type} {β : ι → Type}

/-- No label is the beginning of another one. -/
def PrefixFree (label : ι → List α) : Prop := ∀ i j, label i <+: label j → i = j

theorem PrefixFree.append_inj {label : ι → List α} (h : PrefixFree label) {i j : ι}
    {a b : List α} (heq : label i ++ a = label j ++ b) : i = j ∧ a = b := by
  have hi : label i <+: label i ++ a := List.prefix_append ..
  have hj : label j <+: label i ++ a := heq ▸ List.prefix_append ..
  have hij : i = j := by
    rcases List.prefix_or_prefix_of_prefix hi hj with hle | hle
    · exact h i j hle
    · exact (h j i hle).symm
  subst hij
  exact ⟨rfl, List.append_cancel_left heq⟩

/-- The label of a value of the family, followed by the encoding of its fields. -/
def labelled (label : ι → List α) (encode : ∀ i, β i → List α) (x : Sigma β) : List α :=
  label x.1 ++ encode x.1 x.2

theorem PrefixFree.labelled_injective {label : ι → List α} {encode : ∀ i, β i → List α}
    (h : PrefixFree label) (hencode : ∀ i, Function.Injective (encode i)) :
    Function.Injective (labelled label encode) := by
  rintro ⟨i, x⟩ ⟨j, y⟩ heq
  obtain ⟨rfl, hfields⟩ := h.append_inj heq
  obtain rfl := hencode i hfields
  rfl

end Foundation
