import Mathlib

/-!
# Ledgers

Accounts `f : α → ℕ`, only finitely many of them not empty, against what has come in and gone out.
-/

namespace ZwsChain.Lib

open Finset

variable {α : Type*} {f f' : α → ℕ} {paidIn paidOut i o : ℕ}

/-- Finitely many accounts are not empty, and they add up to what has come in and not gone out. -/
def Balanced (f : α → ℕ) (paidIn paidOut : ℕ) : Prop :=
  ∃ A : Finset α, (∀ a ∉ A, f a = 0) ∧ ∑ a ∈ A, f a + paidOut = paidIn

/-- Empty books balance. -/
lemma balanced_zero : Balanced (fun _ : α => 0) 0 0 :=
  ⟨∅, fun _ _ => rfl, rfl⟩

/-- The sum does not depend on the set of accounts that is taken. -/
lemma Balanced.sum_add (h : Balanced f paidIn paidOut) (A : Finset α) (hA : ∀ a ∉ A, f a = 0) :
    ∑ a ∈ A, f a + paidOut = paidIn := by
  classical
  obtain ⟨B, hB, hsum⟩ := h
  rw [← hsum, sum_subset subset_union_left fun a _ ha => hA a ha,
    sum_subset (subset_union_right : B ⊆ A ∪ B) fun a _ ha => hB a ha]

/-- A transaction that changes one account keeps the books balanced. -/
lemma Balanced.step [DecidableEq α] (h : Balanced f paidIn paidOut)
    (a : α) (hother : ∀ b ≠ a, f' b = f b) (ha : f' a + o = f a + i) :
    Balanced f' (paidIn + i) (paidOut + o) := by
  obtain ⟨A, hA, -⟩ := id h
  have hzero : ∀ b ∉ insert a A, f b = 0 := fun b hb => hA b fun hmem => hb (mem_insert_of_mem hmem)
  have hsum := h.sum_add _ hzero
  refine ⟨insert a A, fun b hb => ?_, ?_⟩
  · rw [hother b fun heq => hb (heq ▸ mem_insert_self a A), hzero b hb]
  have hsame : ∑ b ∈ (insert a A).erase a, f' b = ∑ b ∈ (insert a A).erase a, f b :=
    sum_congr rfl fun b hb => hother b (ne_of_mem_erase hb)
  rw [← add_sum_erase _ _ (mem_insert_self a A)] at hsum ⊢
  omega

end ZwsChain.Lib
