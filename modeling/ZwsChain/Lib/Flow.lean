import Mathlib

/-!
# Sets that steps take from and add to

Step `i` takes the elements of `S i` out of a set and then adds those of `C i`. `Present U S C i`
says of an element, without following the steps, that it is there after the first `i` of them:
it was in `U` or a step added it, and no step has taken it since.
-/

namespace ZwsChain.Lib

variable {α : Type} {U : Set α} {S C : ℕ → Set α}

/-- What is there after the first `i` steps. -/
def Present (U : Set α) (S C : ℕ → Set α) (i : ℕ) (a : α) : Prop :=
  (a ∈ U ∧ ∀ j < i, a ∉ S j) ∨ ∃ j < i, a ∈ C j ∧ ∀ l, j < l → l < i → a ∉ S l

@[simp] lemma present_zero {a : α} : Present U S C 0 a ↔ a ∈ U := by
  simp [Present]

lemma present_succ {i : ℕ} {a : α} :
    Present U S C (i + 1) a ↔ (Present U S C i a ∧ a ∉ S i) ∨ a ∈ C i := by
  constructor
  · rintro (⟨hU, hS⟩ | ⟨j, hj, hC, hS⟩)
    · exact .inl ⟨.inl ⟨hU, fun j hj => hS j (by omega)⟩, hS i (by omega)⟩
    rcases Nat.lt_succ_iff_lt_or_eq.1 hj with hlt | rfl
    · exact .inl ⟨.inr ⟨j, hlt, hC, fun l h h' => hS l h (by omega)⟩, hS i hlt (by omega)⟩
    · exact .inr hC
  rintro (⟨⟨hU, hS⟩ | ⟨j, hj, hC, hS⟩, hi⟩ | hC)
  · refine .inl ⟨hU, fun j hj => ?_⟩
    rcases Nat.lt_succ_iff_lt_or_eq.1 hj with hlt | rfl
    · exact hS j hlt
    · exact hi
  · refine .inr ⟨j, by omega, hC, fun l hl hl' => ?_⟩
    rcases Nat.lt_succ_iff_lt_or_eq.1 hl' with hlt | rfl
    · exact hS l hl hlt
    · exact hi
  · exact .inr ⟨i, by omega, hC, fun l h h' => absurd h (by omega)⟩

end ZwsChain.Lib
