import Mathlib

/-!
# Registers that remember the last places

Places are numbered; the last one reached is `h`. A register of `w` bits remembers which of the
last `w` places were marked: bit `j` stands for the place `h - j`, and places before the first one
count as marked. Going `n` places on and marking the place reached is a shift by `n` and a one in
bit 0, for every `n`, also beyond the width (`Records.push`).
-/

namespace ZwsChain.Lib

open BitVec

variable {w h n : ℕ} {r : BitVec w} {marked : Set ℕ}

/-- The register holds the marks of the last places up to `h`. -/
def Records (r : BitVec w) (h : ℕ) (marked : Set ℕ) : Prop :=
  ∀ j < w, r.getLsbD j = true ↔ h < j ∨ h - j ∈ marked

/-- At the first place, which is marked, all bits are one. -/
lemma records_allOnes : Records (allOnes w) 0 {0} := by
  intro j hj
  simp [hj]

lemma getLsbD_shiftLeft_or_one (r : BitVec w) (n j : ℕ) (hn : 0 < n) (hj : j < w) :
    (r <<< n + 1#w).getLsbD j = true ↔ j = 0 ∨ n ≤ j ∧ r.getLsbD (j - n) = true := by
  have hzero : r <<< n &&& 1#w = 0#w := by
    ext i hi
    simp only [getElem_and, getElem_shiftLeft, getElem_one,
      getElem_zero, Bool.and_eq_false_imp, Bool.and_eq_true, Bool.not_eq_true',
      decide_eq_false_iff_not, not_lt, and_imp]
    intro hle _
    omega
  rw [add_eq_or_of_and_eq_zero _ _ hzero, getLsbD_or, getLsbD_shiftLeft, getLsbD_one]
  by_cases hj0 : j = 0
  · simp [hj0]
    omega
  · simp [hj0, hj, not_lt]

lemma Records.push (hr : Records r h marked) (hle : ∀ s ∈ marked, s ≤ h) (hn : 0 < n) :
    Records (r <<< n + 1#w) (h + n) (insert (h + n) marked) := by
  intro j hj
  rw [getLsbD_shiftLeft_or_one r n j hn hj, Set.mem_insert_iff]
  by_cases hjn : n ≤ j
  · rw [hr (j - n) (by omega)]
    have hsub : h + n - j = h - (j - n) := by omega
    rw [hsub]
    constructor
    · rintro (rfl | ⟨-, hlt | hmem⟩)
      · omega
      · exact .inl (by omega)
      · exact .inr (.inr hmem)
    rintro (hlt | heq | hmem)
    · exact .inr ⟨hjn, .inl (by omega)⟩
    · omega
    · exact .inr ⟨hjn, .inr hmem⟩
  have hbig : h + n - j ∉ marked := fun hmem => by
    have := hle _ hmem
    omega
  constructor
  · rintro (rfl | ⟨hle, -⟩)
    · exact .inr (.inl rfl)
    · omega
  rintro (hlt | heq | hmem)
  · omega
  · exact .inl (by omega)
  · exact absurd hmem hbig

end ZwsChain.Lib
