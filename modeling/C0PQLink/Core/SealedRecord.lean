import Mathlib.Data.List.Basic
import C0PQLink.Core.Ascon

/-!
# Sealed records

What one Ascon encryption of a record channel is applied to, and the lists of records that
the proofs about such channels compare.

* `SealedRecord.decrypt_sealed`: a sealed record decrypts to its plaintext.
-/

namespace C0PQLink

open Foundation

/-- The inputs of one Ascon encryption. -/
structure SealedRecord where
  key : Block 16
  nonce : Block 16
  associatedData : Bytes
  plaintext : Bytes
  deriving DecidableEq

def SealedRecord.sealed (r : SealedRecord) : Bytes × Block 16 :=
  asconAead128Encrypt r.key r.nonce r.associatedData r.plaintext

def SealedRecord.frame (r : SealedRecord) : Bytes :=
  r.associatedData ++ r.sealed.1 ++ r.sealed.2.val

@[simp] theorem SealedRecord.length_sealed (r : SealedRecord) :
    r.sealed.1.length = r.plaintext.length :=
  length_asconAead128Encrypt ..

theorem SealedRecord.decrypt_sealed (r : SealedRecord) :
    asconAead128Decrypt r.key r.nonce r.associatedData r.sealed.1 r.sealed.2
      = some r.plaintext :=
  asconDecrypt_encrypt ..

/-! ## Lists of records -/

theorem prefix_append_getElem {α : Type} {a b : List α} {x : α} (h : a <+: b)
    (hx : b[a.length]? = some x) : a ++ [x] <+: b := by
  obtain ⟨rest, rfl⟩ := h
  rw [List.getElem?_append_right (Nat.le_refl _), Nat.sub_self] at hx
  cases rest with
  | nil => cases hx
  | cons y rest =>
    cases hx
    exact ⟨rest, by simp⟩

theorem map_eq_map_range {α β : Type} {l : List α} {f : α → β} (g : Nat → β)
    (hfg : ∀ n x, l[n]? = some x → f x = g n) : l.map f = (List.range l.length).map g := by
  refine List.ext_getElem (by simp) fun n hn hn' => ?_
  rw [List.length_map] at hn
  rw [List.getElem_map, List.getElem_map, List.getElem_range]
  exact hfg n _ (List.getElem?_eq_getElem hn)

end C0PQLink
