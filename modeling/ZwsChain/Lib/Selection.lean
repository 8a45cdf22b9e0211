import Mathlib

/-!
# Permuting, partitioning and selecting in place

A `Slice` is a list of a fixed length that algorithms change by exchanging two values. What they
do is said of the function on indexes that it stands for: the values at the indexes of a range
`[a, b)` are permuted.

* `PermOn a b d d'`: `d'` is `d` with its values permuted inside `[a, b)`.
* `Partitioned d a b p`: the values of `[a, b)` below the index `p` are at most `d p`, those above
  it at least `d p`.
* `Bracketed d A B a b`: inside `[A, B)`, what stands below, in and above `[a, b)` is in order. It
  is kept by permuting inside `[a, b)`, and a partition of `[a, b)` narrows it on either side
  (`Bracketed.left`, `Bracketed.right`) until `[A, B)` is partitioned around the index that is
  looked for (`Bracketed.partitioned`).
* `Partitioned.le_countP`: from the index that a slice is partitioned around, no value is less.
-/

open List

namespace ZwsChain.Lib.Selection

variable {α : Type} (d : ℕ → α)

/-- The slice with the values at `i` and `j` exchanged. -/
def swap (i j : ℕ) : ℕ → α :=
  fun x => if x = i then d j else if x = j then d i else d x

lemma swap_eq_comp (i j : ℕ) : swap d i j = d ∘ Equiv.swap i j := by
  funext x
  simp only [swap, Function.comp_apply, Equiv.swap_apply_def]
  split_ifs <;> rfl

@[simp] lemma swap_left (i j : ℕ) : swap d i j i = d j := by
  simp [swap]

@[simp] lemma swap_right (i j : ℕ) : swap d i j j = d i := by
  simp only [swap]
  split_ifs with h
  · rw [h]
  · rfl

lemma swap_of_ne {i j x : ℕ} (hi : x ≠ i) (hj : x ≠ j) : swap d i j x = d x := by
  simp [swap, hi, hj]

section

variable {d : ℕ → α} {P : α → Prop} {i j : ℕ} (hij : i < j)
include hij

/-- A range below `i` grows by the value from `j`. -/
lemma forall_swap_left {a : ℕ} (h : ∀ x, a ≤ x → x < i → P (d x)) (hj : P (d j)) :
    ∀ x, a ≤ x → x < i + 1 → P (swap d i j x) := by
  intro x hx hxi
  rcases Nat.eq_or_lt_of_le (Nat.lt_succ_iff.1 hxi) with rfl | hlt
  · rwa [swap_left]
  · rw [swap_of_ne _ (by omega) (by omega)]
    exact h x hx hlt

/-- A range above `j` grows by the value from `i`. -/
lemma forall_swap_right {b : ℕ} (h : ∀ x, j < x → x < b → P (d x)) (hi : P (d i)) :
    ∀ x, j - 1 < x → x < b → P (swap d i j x) := by
  intro x hx hxb
  rcases Nat.eq_or_lt_of_le (show j ≤ x by omega) with rfl | hlt
  · rwa [swap_right]
  · rw [swap_of_ne _ (by omega) (by omega)]
    exact h x hlt hxb

end

/-! ### Slices -/

/-- A list of `n` values. -/
abbrev Slice (α : Type) (n : ℕ) : Type :=
  {l : List α // l.length = n}

namespace Slice

/-- All of a list. -/
def ofList (data : List α) : Slice α data.length :=
  ⟨data, rfl⟩

variable {n : ℕ} [Inhabited α]

/-- The value at an index. -/
def value (d : Slice α n) (i : ℕ) : α :=
  d.val.getD i default

instance : CoeFun (Slice α n) fun _ => ℕ → α :=
  ⟨Slice.value⟩

/-- The slice with the values at `i` and `j` exchanged. -/
def swap (d : Slice α n) (i j : ℕ) : Slice α n :=
  ⟨(d.val.set i (d j)).set j (d i), by simp [d.property]⟩

lemma value_swap (d : Slice α n) {i j : ℕ} (hi : i < n) (hj : j < n) :
    (d.swap i j : ℕ → α) = Selection.swap d i j := by
  funext x
  have hlen := d.property
  show ((d.val.set i (d j)).set j (d i)).getD x default = _
  rw [getD_eq_getElem?_getD, getElem?_set, getElem?_set, length_set, hlen]
  by_cases hxj : x = j
  · subst hxj
    rw [if_pos rfl, if_pos hj, swap_right]
    rfl
  rw [if_neg (Ne.symm hxj)]
  by_cases hxi : x = i
  · subst hxi
    rw [if_pos rfl, if_pos hi, swap_left]
    rfl
  · rw [if_neg (Ne.symm hxi), swap_of_ne _ hxi hxj, ← getD_eq_getElem?_getD]
    rfl

lemma val_eq_map_range (d : Slice α n) : d.val = (List.range n).map d := by
  apply ext_getElem
  · simp [d.property]
  · intro i h1 h2
    simp [Slice.value, getD_eq_getElem?_getD, getElem?_eq_getElem h1]

end Slice

lemma map_getD_range [Inhabited α] (l : List α) :
    ((List.range l.length).map fun i => l.getD i default) = l :=
  (Slice.val_eq_map_range ⟨l, rfl⟩).symm

/-! ### Permutations inside a range -/

/-- `d'` has the values of `d`, permuted inside `[a, b)`. -/
def PermOn (a b : ℕ) (d d' : ℕ → α) : Prop :=
  ∃ σ : Equiv.Perm ℕ, (∀ x, x < a ∨ b ≤ x → σ x = x) ∧ d' = d ∘ σ

namespace PermOn

variable {a b a' b' : ℕ} {d d' d'' : ℕ → α}

@[simp] lemma refl (a b : ℕ) (d : ℕ → α) : PermOn a b d d :=
  ⟨Equiv.refl ℕ, fun _ _ => rfl, rfl⟩

lemma trans (h : PermOn a b d d') (h' : PermOn a b d' d'') : PermOn a b d d'' := by
  obtain ⟨σ, hσ, rfl⟩ := h
  obtain ⟨τ, hτ, rfl⟩ := h'
  refine ⟨τ.trans σ, ?_, rfl⟩
  intro x hx
  simp [hτ x hx, hσ x hx]

lemma mono (h : PermOn a b d d') (ha : a' ≤ a) (hb : b ≤ b') : PermOn a' b' d d' := by
  obtain ⟨σ, hσ, rfl⟩ := h
  refine ⟨σ, ?_, rfl⟩
  intro x hx
  apply hσ
  omega

lemma swap {i j : ℕ} (hi : a ≤ i ∧ i < b) (hj : a ≤ j ∧ j < b) : PermOn a b d (swap d i j) := by
  refine ⟨Equiv.swap i j, ?_, swap_eq_comp d i j⟩
  intro x hx
  apply Equiv.swap_apply_of_ne_of_ne <;> omega

lemma apply_of_outside (h : PermOn a b d d') {x : ℕ} (hx : x < a ∨ b ≤ x) : d' x = d x := by
  obtain ⟨σ, hσ, rfl⟩ := h
  rw [Function.comp_apply, hσ x hx]

/-- What holds of all values in the range still does. -/
lemma forall_mem (h : PermOn a b d d') {P : α → Prop} (hP : ∀ x, a ≤ x → x < b → P (d x)) :
    ∀ x, a ≤ x → x < b → P (d' x) := by
  obtain ⟨σ, hσ, rfl⟩ := h
  intro x hax hxb
  have hin : ¬(σ x < a ∨ b ≤ σ x) := by
    intro hout
    have hfix : σ x = x := σ.injective (hσ _ hout)
    omega
  exact hP (σ x) (by omega) (by omega)

/-- The slice as a list is permuted. -/
lemma perm_map_range {n : ℕ} (h : PermOn 0 n d d') :
    ((List.range n).map d').Perm ((List.range n).map d) := by
  obtain ⟨σ, hσ, rfl⟩ := h
  rw [← List.map_map]
  apply List.Perm.map
  have hnodup : ((List.range n).map σ).Nodup := List.Nodup.map σ.injective nodup_range
  rw [perm_ext_iff_of_nodup hnodup nodup_range]
  intro x
  simp only [List.mem_map, mem_range]
  constructor
  · rintro ⟨y, hy, rfl⟩
    by_contra hx
    have hfix : σ y = y := σ.injective (hσ _ (by omega))
    omega
  intro hx
  refine ⟨σ.symm x, ?_, by simp⟩
  by_contra hy
  have hfix := hσ (σ.symm x) (by omega)
  rw [Equiv.apply_symm_apply] at hfix
  omega

end PermOn

/-- Exchanging two values of the range permutes it. -/
lemma Slice.permOn_swap [Inhabited α] {n a b i j : ℕ} (d : Slice α n) (hb : b ≤ n)
    (hi : a ≤ i ∧ i < b) (hj : a ≤ j ∧ j < b) : PermOn a b d (d.swap i j) := by
  rw [d.value_swap (by omega) (by omega)]
  exact PermOn.swap hi hj

/-! ### Partitions and ranks -/

section Order

variable [Preorder α] {d d' : ℕ → α} {n A B a b p k : ℕ}

/-- The range is partitioned around the value at `p`. -/
structure Partitioned (d : ℕ → α) (a b p : ℕ) : Prop where
  mem : a ≤ p ∧ p < b
  le_pivot : ∀ i, a ≤ i → i < p → d i ≤ d p
  pivot_le : ∀ i, p < i → i < b → d p ≤ d i

/-- Inside `[A, B)`, the values below `[a, b)` are at most those in it and above it, and these are
at most the ones above it. -/
structure Bracketed (d : ℕ → α) (A B a b : ℕ) : Prop where
  range : A ≤ a ∧ b ≤ B
  le_left : ∀ i j, A ≤ i → i < a → a ≤ j → j < B → d i ≤ d j
  le_right : ∀ i j, A ≤ i → i < b → b ≤ j → j < B → d i ≤ d j

lemma bracketed_all (d : ℕ → α) (A B : ℕ) : Bracketed d A B A B where
  range := ⟨le_rfl, le_rfl⟩
  le_left := by intro i j _ hi; omega
  le_right := by intro i j _ _ h1 h2; omega

namespace Bracketed

/-- Permuting inside the range keeps it. -/
lemma permOn (h : Bracketed d A B a b) (hp : PermOn a b d d') : Bracketed d' A B a b where
  range := h.range
  le_left := by
    intro i j hAi hi hj hjB
    rw [hp.apply_of_outside (.inl hi)]
    by_cases hjb : j < b
    · refine hp.forall_mem (P := fun y => d i ≤ y) ?_ j hj hjb
      intro x hx hxb
      exact h.le_left i x hAi hi hx (by have := h.range; omega)
    · rw [hp.apply_of_outside (.inr (by omega))]
      exact h.le_left i j hAi hi hj hjB
  le_right := by
    intro i j hAi hi hj hjB
    rw [hp.apply_of_outside (x := j) (.inr hj)]
    by_cases hia : i < a
    · rw [hp.apply_of_outside (.inl hia)]
      exact h.le_right i j hAi hi hj hjB
    refine hp.forall_mem (P := fun y => y ≤ d j) ?_ i (by omega) hi
    intro x hx hxb
    exact h.le_right x j (by have := h.range; omega) hxb hj hjB

section

variable (h : Bracketed d A B a b) (hp : Partitioned d a b p)
include h hp

/-- What is below the pivot. -/
lemma left : Bracketed d A B a p where
  range := by have := h.range; have := hp.mem; omega
  le_left := h.le_left
  le_right := by
    intro i j hAi hi hj hjB
    have hrange := h.range
    have hmem := hp.mem
    have hip : d i ≤ d p := by
      by_cases hia : i < a
      · exact h.le_left i p hAi hia hmem.1 (by omega)
      · exact hp.le_pivot i (by omega) hi
    refine hip.trans ?_
    rcases Nat.lt_or_ge j b with hjb | hjb
    · rcases Nat.eq_or_lt_of_le hj with rfl | hpj
      · exact le_rfl
      · exact hp.pivot_le j hpj hjb
    · exact h.le_right p j (by omega) hmem.2 hjb hjB

/-- What is above the pivot. -/
lemma right : Bracketed d A B (p + 1) b where
  range := by have := h.range; have := hp.mem; omega
  le_right := h.le_right
  le_left := by
    intro i j hAi hi hj hjB
    have hrange := h.range
    have hmem := hp.mem
    have hpj : d p ≤ d j := by
      by_cases hjb : j < b
      · exact hp.pivot_le j (by omega) hjb
      · exact h.le_right p j (by omega) hmem.2 (by omega) hjB
    refine le_trans ?_ hpj
    rcases Nat.lt_or_ge i a with hia | hia
    · exact h.le_left i p hAi hia hmem.1 (by omega)
    rcases Nat.eq_or_lt_of_le (Nat.lt_succ_iff.1 hi) with rfl | hip
    · exact le_rfl
    · exact hp.le_pivot i hia hip

/-- The whole range is partitioned around the pivot. -/
lemma partitioned : Partitioned d A B p where
  mem := by have := h.range; have := hp.mem; omega
  le_pivot := by
    intro i hAi hi
    have hrange := h.range
    have hmem := hp.mem
    exact (h.left hp).le_right i p hAi hi le_rfl (by omega)
  pivot_le := by
    intro i hi hiB
    have hrange := h.range
    have hmem := hp.mem
    exact (h.right hp).le_left p i (by omega) (by omega) (by omega) hiB

end

end Bracketed

/-- From the index `k` on, no value is less than the one at `k`. -/
lemma Partitioned.le_countP [DecidableLE α] (h : Partitioned d 0 n k) {x : α} (hx : x ≤ d k) :
    n - k ≤ ((List.range n).map d).countP (fun y => x ≤ y) := by
  have hlt := h.mem.2
  have hsplit : List.range n = List.range' 0 k ++ List.range' k (n - k) := by
    rw [range_eq_range', show n = k + (n - k) by omega, ← List.range'_append_1]
    simp
  have hall : ((List.range' k (n - k)).map d).countP (fun y => x ≤ y) = n - k := by
    rw [countP_eq_length.2, length_map, length_range']
    intro y hy
    obtain ⟨i, hi, rfl⟩ := List.mem_map.1 hy
    rw [List.mem_range'_1] at hi
    rcases Nat.eq_or_lt_of_le hi.1 with rfl | hki
    · simpa using hx
    · simpa using hx.trans (h.pivot_le i hki (by omega))
  rw [hsplit, map_append, countP_append, hall]
  omega

end Order

end ZwsChain.Lib.Selection
