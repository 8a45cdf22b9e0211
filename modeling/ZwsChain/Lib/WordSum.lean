import Mathlib

/-!
# Sums of 64-bit words

A sum of machine words wraps around; the exact sum is taken in the natural numbers. The wrapped
sum is never above the exact one (`toNat_sum_le`), so a test `outputs ≤ inputs` is sound as soon
as the output side does not wrap. An accumulator that is compared with its last summand detects
a wrap (`toNat_add_of_not_lt`).
-/

namespace ZwsChain.Lib.WordSum

/-- The exact sum of a list of words. -/
def exact (l : List UInt64) : Nat :=
  (l.map UInt64.toNat).sum

@[simp] lemma exact_nil : exact [] = 0 := rfl

@[simp] lemma exact_cons (a : UInt64) (l : List UInt64) :
    exact (a :: l) = a.toNat + exact l := by
  simp [exact]

lemma toNat_add_le (a b : UInt64) : (a + b).toNat ≤ a.toNat + b.toNat := by
  exact Nat.mod_le _ _

/-- The wrapped sum is at most the exact one. -/
lemma toNat_sum_le : ∀ l : List UInt64, l.sum.toNat ≤ exact l
  | [] => le_rfl
  | a :: l => by
      rw [List.sum_cons, exact_cons]
      exact (toNat_add_le a l.sum).trans (Nat.add_le_add_left (toNat_sum_le l) _)

/-- A sum whose exact value fits has not wrapped. -/
lemma toNat_sum_of_lt : ∀ {l : List UInt64}, exact l < 2 ^ 64 → l.sum.toNat = exact l
  | [], _ => rfl
  | a :: l, h => by
      rw [exact_cons] at h
      rw [List.sum_cons, exact_cons, UInt64.toNat_add, toNat_sum_of_lt (by omega)]
      exact Nat.mod_eq_of_lt h

/-- The wrapped sum is the remainder of the exact one. -/
lemma toNat_sum : ∀ l : List UInt64, l.sum.toNat = exact l % 2 ^ 64
  | [] => rfl
  | a :: l => by
      rw [List.sum_cons, exact_cons, UInt64.toNat_add, toNat_sum l, Nat.add_mod_mod]

lemma toNat_sum_eq_exact_iff (l : List UInt64) : l.sum.toNat = exact l ↔ exact l < 2 ^ 64 := by
  rw [toNat_sum]
  exact Nat.mod_eq_iff_lt (by decide)

lemma exact_append (l l' : List UInt64) : exact (l ++ l') = exact l + exact l' := by
  simp [exact]

variable {α : Type}

/-- Selections from a list have the same sum if they differ at words that are zero. -/
lemma exact_filter_congr {l : List α} {p q : α → Bool} {f : α → UInt64}
    (h : ∀ a ∈ l, p a = q a ∨ f a = 0) :
    exact ((l.filter p).map f) = exact ((l.filter q).map f) := by
  induction l with
  | nil => rfl
  | cons a l ih =>
    have hl := ih fun b hb => h b (List.mem_cons_of_mem _ hb)
    rcases h a List.mem_cons_self with heq | hzero
    · cases hp : p a <;> simp [← heq, hp, hl]
    · cases hp : p a <;> cases hq : q a <;> simp [hp, hq, hzero, hl]

/-- A selection and the selection of the others make up the whole. -/
lemma exact_filter_add (l : List α) (p : α → Bool) (f : α → UInt64) :
    exact ((l.filter p).map f) + exact ((l.filter fun a => !p a).map f) = exact (l.map f) := by
  induction l with
  | nil => rfl
  | cons a l ih => cases hp : p a <;> simp [hp] <;> omega

lemma exact_filter_le (l : List α) (p : α → Bool) (f : α → UInt64) :
    exact ((l.filter p).map f) ≤ exact (l.map f) :=
  exact_filter_add l p f ▸ Nat.le_add_right _ _

lemma toNat_le_exact {l : List UInt64} {a : UInt64} (h : a ∈ l) : a.toNat ≤ exact l :=
  List.le_sum_of_mem (List.mem_map_of_mem h)

/-- A sum that is not below a summand has not wrapped. -/
lemma toNat_add_of_not_lt {a b : UInt64} (h : ¬ a + b < b) :
    (a + b).toNat = a.toNat + b.toNat := by
  have ha := a.toNat_lt
  rw [UInt64.lt_iff_toNat_lt, UInt64.toNat_add] at h
  rw [UInt64.toNat_add]
  omega

end ZwsChain.Lib.WordSum
