import ZwsChain.Common.Nth

/-!
# What the selection of the n-th element guarantees

* `element_isSome`: the loops of `element` end, and it permutes the slice.
* `element_partitioned`: the value of rank `n` stands at `n` unless an extension of the run moves
  the pivot past a value of its part that is on the other side (`elementKeeps`). This never
  happens in slices of fewer than 24 elements or for ranks from 7/16 of the length on
  (`elementKeeps_of_short`).

Each partition function is given one lemma about a range: `hoarePartition_spec` and
`simplePartition_spec` partition it. `expandPartition` does if its pivot is not moved past such a
value (`expandPartition_partitioned`). Otherwise all that is left is that the range is permuted and
the result is an index of it (`expandPartition_mem`).
-/

set_option linter.unusedSectionVars false

open Option Nat

namespace ZwsChain.Nth

open Lib.Selection

/-! ### The loops over indexes -/

variable {α : Type} [Inhabited α] [Preorder α] [DecidableLT α]
  [Std.Total (fun x y : α => x ≤ y)] {m : ℕ}

lemma le_of_not_less {x y : α} (h : ¬x < y) : y ≤ x := by
  rcases Std.Total.total (r := fun x y : α => x ≤ y) x y with hxy | hyx
  · by_contra hyx
    exact h (lt_of_le_not_ge hxy hyx)
  · exact hyx

lemma scanUp_spec (d : Slice α m) (p n a : ℕ) :
    a ≤ scanUp d p n a ∧ scanUp d p n a ≤ a + n ∧
      (∀ i, a ≤ i → i < scanUp d p n a → d i < d p) ∧
      (scanUp d p n a < a + n → ¬d (scanUp d p n a) < d p) := by
  induction n generalizing a with
  | zero =>
    unfold scanUp
    refine ⟨le_rfl, le_rfl, ?_, ?_⟩ <;> intros <;> omega
  | succ n ih =>
    unfold scanUp
    split_ifs with h
    · obtain ⟨h1, h2, h3, h4⟩ := ih (a + 1)
      refine ⟨by omega, by omega, ?_, ?_⟩
      · intro i hi hlt
        rcases Nat.eq_or_lt_of_le hi with rfl | hai
        · exact h
        · exact h3 i hai hlt
      · intro hlt
        exact h4 (by omega)
    refine ⟨le_rfl, by omega, ?_, ?_⟩
    · intros
      omega
    · intro _
      exact h

variable {b p stop a n k : ℕ} {pick3 : Slice α m → ℕ → ℕ → ℕ → Slice α m} {d d' : Slice α m}

lemma scanDown_spec (d : Slice α m) (hpb : p ≤ b) :
    p ≤ scanDown d p b ∧ scanDown d p b ≤ b ∧
      (∀ i, scanDown d p b < i → i ≤ b → d p < d i) ∧ ¬d p < d (scanDown d p b) := by
  induction b with
  | zero =>
    obtain rfl : p = 0 := by omega
    refine ⟨le_rfl, le_rfl, ?_, lt_irrefl _⟩
    intros
    omega
  | succ b ih =>
    unfold scanDown
    split_ifs with h
    · have hne : p ≠ b + 1 := by
        rintro rfl
        exact lt_irrefl _ h
      obtain ⟨h1, h2, h3, h4⟩ := ih (by omega)
      refine ⟨h1, by omega, ?_, h4⟩
      intro i hi hib
      rcases Nat.eq_or_lt_of_le hib with rfl | hlt
      · exact h
      · exact h3 i hi (by omega)
    refine ⟨hpb, le_rfl, ?_, h⟩
    intros
    omega

lemma skipNotLess_spec (d : Slice α m) (p n j : ℕ) (hn : n ≤ j) :
    j - n ≤ skipNotLess d p n j ∧ skipNotLess d p n j ≤ j ∧
      (∀ i, skipNotLess d p n j < i → i ≤ j → ¬d i < d p) ∧
      (j - n < skipNotLess d p n j → d (skipNotLess d p n j) < d p) := by
  induction n generalizing j with
  | zero =>
    unfold skipNotLess
    refine ⟨by omega, le_rfl, ?_, ?_⟩ <;> intros <;> omega
  | succ n ih =>
    unfold skipNotLess
    split_ifs with h
    · refine ⟨by omega, le_rfl, ?_, ?_⟩
      · intros
        omega
      · intro _
        exact h
    obtain ⟨h1, h2, h3, h4⟩ := ih (j - 1) (by omega)
    refine ⟨by omega, by omega, ?_, ?_⟩
    · intro i hi hij
      rcases Nat.eq_or_lt_of_le hij with rfl | hlt
      · exact h
      · exact h3 i hi (by omega)
    · intro hlt
      exact h4 (by omega)

/-! ### Hoare's partition -/

/-- The loop keeps what is at most the pivot below `a` and what is at least the pivot above `b`,
until the two meet. -/
lemma hoareLoop_spec (start : ℕ) (hstop : stop ≤ m) (fuel : ℕ) (d : Slice α m) (a b : ℕ)
    (ha : start < a) (hab : a ≤ b + 1) (hb : b < stop) (hfuel : b + 1 - a ≤ fuel)
    (hlow : ∀ i, start < i → i < a → d i ≤ d start)
    (hhigh : ∀ i, b < i → i < stop → d start ≤ d i) :
    PermOn (start + 1) stop d (hoareLoop start fuel d a b).1 ∧
      start < (hoareLoop start fuel d a b).2 ∧ (hoareLoop start fuel d a b).2 ≤ stop ∧
      (∀ i, start < i → i < (hoareLoop start fuel d a b).2 →
        (hoareLoop start fuel d a b).1 i ≤ d start) ∧
      (∀ i, (hoareLoop start fuel d a b).2 ≤ i → i < stop →
        d start ≤ (hoareLoop start fuel d a b).1 i) := by
  induction fuel generalizing d a b with
  | zero =>
    unfold hoareLoop
    refine ⟨.refl _ _ _, ha, by omega, hlow, ?_⟩
    intro i hi
    exact hhigh i (by omega)
  | succ fuel ih =>
    unfold hoareLoop
    obtain ⟨hup, hup', hless, hstopped⟩ := scanUp_spec d start (b + 1 - a) a
    generalize scanUp d start (b + 1 - a) a = a' at hup hup' hless hstopped
    have hlow' : ∀ i, start < i → i < a' → d i ≤ d start := by
      intro i hi hia
      rcases lt_or_ge i a with h | h
      · exact hlow i hi h
      · exact (hless i h hia).le
    obtain ⟨hdown, hdown', hgreater, hnot⟩ := scanDown_spec d (p := start) (b := b) (by omega)
    generalize scanDown d start b = b' at hdown hdown' hgreater hnot
    have hhigh' : ∀ i, b' < i → i < stop → d start ≤ d i := by
      intro i hi hi'
      rcases lt_or_ge b i with h | h
      · exact hhigh i h hi'
      · exact (hgreater i hi h).le
    simp only
    split_ifs with hab' hmeet
    · refine ⟨.refl _ _ _, by omega, by omega, hlow', ?_⟩
      intro i hi
      exact hhigh i (by omega)
    · refine ⟨.refl _ _ _, by omega, by omega, hlow', ?_⟩
      intro i hi hi'
      rcases Nat.eq_or_lt_of_le hi with rfl | h
      · exact le_of_not_less (hstopped (by omega))
      · exact hhigh' i (by omega) hi'
    have hswap := d.value_swap (i := a') (j := b') (by omega) (by omega)
    have hstart : (d.swap a' b') start = d start := by
      rw [hswap, swap_of_ne _ (by omega) (by omega)]
    have key := ih (d.swap a' b') (a' + 1) (b' - 1) (by omega) (by omega) (by omega) (by omega)
      ?_ ?_
    · rw [hstart] at key
      exact ⟨(d.permOn_swap hstop (by omega) (by omega)).trans key.1, key.2⟩
    · rw [hstart, hswap]
      exact forall_swap_left (P := (· ≤ d start)) (not_le.1 hmeet) hlow' (le_of_not_less hnot)
    · rw [hstart, hswap]
      exact forall_swap_right (not_le.1 hmeet) hhigh' (le_of_not_less (hstopped (by omega)))

/-- The range is partitioned around the value that was at `p`. -/
lemma hoarePartition_spec (d : Slice α m) (p start stop : ℕ) (hp : p < m) (hlt : start < stop)
    (hstop : stop ≤ m) :
    PermOn start stop (d.swap p start) (hoarePartition d p start stop).1 ∧
      Partitioned (hoarePartition d p start stop).1 start stop (hoarePartition d p start stop).2 ∧
      (hoarePartition d p start stop).1 (hoarePartition d p start stop).2 = d p := by
  unfold hoarePartition
  obtain ⟨hperm, h1, h2, hlow, hhigh⟩ := hoareLoop_spec start hstop (stop - start)
    (d.swap p start) (start + 1) (stop - 1) (by omega) (by omega) (by omega) (by omega)
    (by intros; omega)
    (by intros; omega)
  have hpivot : (d.swap p start) start = d p := by
    rw [d.value_swap hp (hlt.trans_le hstop), swap_right]
  have hstart := hperm.apply_of_outside (.inl (lt_succ_self start))
  rw [hpivot] at hlow hhigh hstart
  generalize hoareLoop start (stop - start) (d.swap p start) (start + 1) (stop - 1) = r at *
  obtain ⟨d', a⟩ := r
  simp only at *
  have hswap := d'.value_swap (i := start) (j := a - 1) (by omega) (by omega)
  have hat : (d'.swap start (a - 1)) (a - 1) = d p := by
    rw [hswap, swap_right, hstart]
  refine ⟨(hperm.mono (le_succ start) le_rfl).trans (d'.permOn_swap hstop (by omega) (by omega)),
    ⟨by omega, ?_, ?_⟩, hat⟩
  · intro i hi hia
    rw [hat, hswap]
    rcases Nat.eq_or_lt_of_le hi with rfl | h
    · rw [swap_left]
      exact hlow (a - 1) (by omega) (by omega)
    · rw [swap_of_ne _ (by omega) (by omega)]
      exact hlow i h (by omega)
  intro i hi hi'
  rw [hat, hswap, swap_of_ne _ (by omega) (by omega)]
  exact hhigh i (by omega) hi'

/-- With the pivot taken from the range itself. -/
lemma hoarePartition_mem (d : Slice α m) (p start stop : ℕ) (hp : start ≤ p ∧ p < stop)
    (hstop : stop ≤ m) :
    PermOn start stop d (hoarePartition d p start stop).1 ∧
      Partitioned (hoarePartition d p start stop).1 start stop
        (hoarePartition d p start stop).2 := by
  obtain ⟨hperm, hpart, -⟩ := hoarePartition_spec d p start stop (by omega) (by omega) hstop
  exact ⟨(d.permOn_swap hstop hp (by omega)).trans hperm, hpart⟩

/-! ### Partition by exchanges -/

lemma simpleLoop_spec (hb : b ≤ m) (n : ℕ) (d : Slice α m) (p i : ℕ) (hap : a ≤ p) (hpi : p < i)
    (hn : i + n = b) (hlow : ∀ x, a ≤ x → x < p → d x ≤ d p)
    (hhigh : ∀ x, p < x → x < i → d p ≤ d x) :
    PermOn a b d (simpleLoop n d p i).1 ∧
      Partitioned (simpleLoop n d p i).1 a b (simpleLoop n d p i).2 := by
  induction n generalizing d p i with
  | zero =>
    unfold simpleLoop
    obtain rfl : i = b := by omega
    exact ⟨.refl _ _ _, ⟨by omega, hlow, hhigh⟩⟩
  | succ n ih =>
    unfold simpleLoop
    split_ifs with h
    · have hswap := d.value_swap (i := p) (j := i) (by omega) (by omega)
      have hswap' := (d.swap p i).value_swap (i := p + 1) (j := i) (by omega) (by omega)
      rw [hswap] at hswap'
      -- the pivot goes one up, the smaller value takes its place, the next one goes to `i`
      have hpivot : ((d.swap p i).swap (p + 1) i) (p + 1) = d p := by
        rw [hswap', swap_left, swap_right]
      have key := ih ((d.swap p i).swap (p + 1) i) (p + 1) (i + 1) (by omega) (by omega)
        (by omega) ?_ ?_
      · exact ⟨((d.permOn_swap hb (by omega) (by omega)).trans
          (Slice.permOn_swap _ hb (by omega) (by omega))).trans key.1, key.2⟩
      · intro x hx hxp
        rw [hpivot, hswap', swap_of_ne _ (by omega) (by omega)]
        exact forall_swap_left (P := (· ≤ d p)) hpi hlow h.le x hx hxp
      intro x hx hxi
      rw [hpivot, hswap']
      rcases Nat.eq_or_lt_of_le (Nat.lt_succ_iff.1 hxi) with rfl | hlt
      · rw [swap_right]
        rcases Nat.eq_or_lt_of_le (show p + 1 ≤ x by omega) with heq | hne
        · omega
        · rw [swap_of_ne _ (by omega) (by omega)]
          exact hhigh (p + 1) (by omega) (by omega)
      · rw [swap_of_ne _ (by omega) (by omega), swap_of_ne _ (by omega) (by omega)]
        exact hhigh x (by omega) hlt
    refine ih d p (i + 1) hap (by omega) (by omega) hlow ?_
    intro x hx hxi
    rcases Nat.eq_or_lt_of_le (Nat.lt_succ_iff.1 hxi) with rfl | hlt
    · exact le_of_not_less h
    · exact hhigh x hx hlt

lemma simplePartition_spec (d : Slice α m) (hab : a < b) (hb : b ≤ m) :
    PermOn a b d (simplePartition d a b).1 ∧
      Partitioned (simplePartition d a b).1 a b (simplePartition d a b).2 := by
  exact simpleLoop_spec hb _ d a (a + 1) le_rfl (by omega) (by omega) (by intros; omega)
    (by intros; omega)

/-! ### Extension of a partition -/

/-- The loop exchanges values outside `[a, b]` only. It ends with one side done; on the other the
value it stopped at is not less than the pivot. -/
lemma expandLoop_spec (start : ℕ) (hap : a ≤ p) (hpb : p ≤ b) (hstop : stop ≤ m) (fuel : ℕ)
    (d : Slice α m) (i j : ℕ) (hsi : start ≤ i) (hia : i ≤ a) (hbj : b ≤ j) (hj : j < stop)
    (hfuel : a - i < fuel) (hlow : ∀ x, start ≤ x → x < i → d x ≤ d p)
    (hhigh : ∀ x, j < x → x < stop → d p ≤ d x) :
    ∃ d' i' j', expandLoop a p b fuel d i j = (d', i', j') ∧ PermOn start stop d d' ∧
      (∀ x, a ≤ x → x ≤ b → d' x = d x) ∧ i ≤ i' ∧ i' ≤ a ∧ b ≤ j' ∧ j' ≤ j ∧
      (i' = a ∨ j' = b) ∧ (i' ≠ a → d p ≤ d' i') ∧
      (∀ x, start ≤ x → x < i' → d' x ≤ d p) ∧ (∀ x, j' < x → x < stop → d p ≤ d' x) := by
  induction fuel generalizing d i j with
  | zero => omega
  | succ fuel ih =>
    unfold expandLoop skipLess
    obtain ⟨hup, hup', hless, hstopped⟩ := scanUp_spec d p (a - i) i
    obtain ⟨hdown, hdown', hnot, hstopped'⟩ := skipNotLess_spec d p (j - b) j (by omega)
    generalize scanUp d p (a - i) i = i' at *
    generalize skipNotLess d p (j - b) j = j' at *
    have hlow' : ∀ x, start ≤ x → x < i' → d x ≤ d p := by
      intro x hx hxi
      rcases lt_or_ge x i with h | h
      · exact hlow x hx h
      · exact (hless x h hxi).le
    have hhigh' : ∀ x, j' < x → x < stop → d p ≤ d x := by
      intro x hx hxs
      rcases lt_or_ge j x with h | h
      · exact hhigh x h hxs
      · exact le_of_not_less (hnot x hx h)
    simp only
    split_ifs with hdone
    · refine ⟨d, i', j', rfl, .refl _ _ _, fun _ _ _ => rfl, hup, by omega, by omega, hdown',
        hdone, ?_, hlow', hhigh'⟩
      intro hne
      exact le_of_not_less (hstopped (by omega))
    have hswap := d.value_swap (i := i') (j := j') (by omega) (by omega)
    have hinner : ∀ x, a ≤ x → x ≤ b → (d.swap i' j') x = d x := by
      intro x hx hxb
      rw [hswap, swap_of_ne _ (by omega) (by omega)]
    have hp := hinner p hap hpb
    have key := ih (d.swap i' j') (i' + 1) (j' - 1) (by omega) (by omega) (by omega) (by omega)
      (by omega) ?_ ?_
    · obtain ⟨d', i'', j'', hrun, hperm, hsame, h1, h2, h3, h4, h5, h6, h7, h8⟩ := key
      rw [hp] at h6 h7 h8
      refine ⟨d', i'', j'', hrun, (d.permOn_swap hstop (by omega) (by omega)).trans hperm, ?_,
        by omega, h2, h3, by omega, h5, h6, h7, h8⟩
      intro x hx hxb
      rw [hsame x hx hxb, hinner x hx hxb]
    · rw [hp, hswap]
      exact forall_swap_left (P := (· ≤ d p)) (by omega) hlow' (hstopped' (by omega)).le
    · rw [hp, hswap]
      exact forall_swap_right (by omega) hhigh' (le_of_not_less (hstopped (by omega)))

/-- The result of the extension is inside the range. -/
lemma expandPartition_mem (d : Slice α m) (a p b start stop : ℕ) (hsa : start ≤ a) (hap : a ≤ p)
    (hpb : p ≤ b) (hb : b < stop) (hstop : stop ≤ m) :
    PermOn start stop d (expandPartition d a p b start stop).1 ∧
      start ≤ (expandPartition d a p b start stop).2 ∧
      (expandPartition d a p b start stop).2 < stop := by
  unfold expandPartition
  obtain ⟨d', i, j, hrun, hperm, -, hi, hia, hbj, hj, -, -, -, -⟩ :=
    expandLoop_spec start hap hpb hstop (a - start + 1) d start (stop - 1) le_rfl hsa (by omega)
      (by omega) (by omega) (by intros; omega) (by intros; omega)
  have hinside : ∀ x y, start ≤ x → x < y → y ≤ stop →
      PermOn start stop d (hoarePartition d' p x y).1 ∧ start ≤ (hoarePartition d' p x y).2 ∧
        (hoarePartition d' p x y).2 < stop := by
    intro x y hx hxy hy
    obtain ⟨hperm', hpart, -⟩ := hoarePartition_spec d' p x y (by omega) hxy (by omega)
    refine ⟨hperm.trans ((d'.permOn_swap hstop (by omega) (by omega)).trans
      (hperm'.mono hx hy)), ?_, ?_⟩ <;> have := hpart.mem <;> omega
  rw [hrun]
  simp only
  split_ifs with h1 h2
  · exact hinside i a hi (by omega) (by omega)
  · exact hinside b (j + 1) (by omega) (by omega) (by omega)
  · exact ⟨hperm, by omega, by omega⟩

/-- The call of `hoarePartition` for the side that is left over moves the pivot to that side. No
value of the part in between is on the other side of the pivot. -/
def expandKeeps (d : Slice α m) (a p b start stop : ℕ) : Bool :=
  let (_, i, j) := expandLoop a p b (a - start + 1) d start (stop - 1)
  if i ≠ a then (List.range' a (p - a)).all fun x => ¬d x < d p
  else j = b || (List.range' (p + 1) (b - p)).all fun x => ¬d p < d x

/-- The extension of a partition is one of the range, if the pivot is moved past equal values. -/
lemma expandPartition_partitioned {d : Slice α m} {start : ℕ} (hin : Partitioned d a (b + 1) p)
    (hsa : start ≤ a) (hb : b < stop) (hstop : stop ≤ m)
    (hkeep : expandKeeps d a p b start stop = true) :
    Partitioned (expandPartition d a p b start stop).1 start stop
      (expandPartition d a p b start stop).2 := by
  obtain ⟨hap, hpb⟩ := hin.mem
  unfold expandKeeps at hkeep
  unfold expandPartition
  obtain ⟨d', i, j, hrun, -, hsame, hi, hia, hbj, hj, hdone, hnotless, hlow, hhigh⟩ :=
    expandLoop_spec start hap (Nat.lt_succ_iff.1 hpb) hstop (a - start + 1) d start (stop - 1)
      le_rfl hsa (by omega) (by omega) (by omega) (by intros; omega) (by intros; omega)
  have hvalue := hsame p hap (by omega)
  have hbelow : i = a → ∀ x, start ≤ x → x < p → d' x ≤ d p := by
    intro hi x hx hxp
    rcases Nat.lt_or_ge x a with hxa | hxa
    · exact hlow x hx (by omega)
    · rw [hsame x hxa (by omega)]
      exact hin.le_pivot x hxa hxp
  have habove : j = b → ∀ x, p < x → x < stop → d p ≤ d' x := by
    intro hj x hx hxs
    rcases Nat.lt_or_ge b x with hbx | hbx
    · exact hhigh x (by omega) hxs
    · rw [hsame x (by omega) hbx]
      exact hin.pivot_le x hx (by omega)
  rw [hrun] at hkeep ⊢
  simp only at hkeep ⊢
  split_ifs at hkeep ⊢ with h1 h2
  · -- the value the loop stopped at goes to `p`, which is above the new range
    obtain ⟨hperm, hpart, hpivot⟩ := hoarePartition_spec d' p i a (by omega) (by omega) (by omega)
    have hmem := hpart.mem
    have hswap := d'.value_swap (i := p) (j := i) (by omega) (by omega)
    have hbetween : ∀ x, a ≤ x → x < p → d p ≤ d x := by
      intro x hx hxp
      have hnot := List.all_eq_true.1 hkeep x (List.mem_range'_1.2 (by omega))
      exact le_of_not_less (of_decide_eq_true hnot)
    refine ⟨by omega, ?_, ?_⟩
    · intro x hx hxp
      rcases lt_or_ge x i with h | h
      · rw [hpivot, hperm.apply_of_outside (.inl h), hswap, swap_of_ne _ (by omega) (by omega),
          hvalue]
        exact hlow x hx h
      · exact hpart.le_pivot x h hxp
    intro x hx hxs
    rcases lt_or_ge x a with h | h
    · exact hpart.pivot_le x hx h
    rw [hpivot, hperm.apply_of_outside (.inr h), hswap, hvalue]
    rcases lt_trichotomy x p with hlt | rfl | hgt
    · rw [swap_of_ne _ (by omega) (by omega), hsame x h (by omega)]
      exact hbetween x h hlt
    · rw [swap_left]
      exact hnotless (by omega)
    · rw [swap_of_ne _ (by omega) (by omega)]
      exact habove (by omega) x hgt hxs
  · -- the last value of the part goes to `p`, which is below the new range
    obtain ⟨hperm, hpart, hpivot⟩ := hoarePartition_spec d' p b (j + 1) (by omega) (by omega)
      (by omega)
    have hmem := hpart.mem
    have hswap := d'.value_swap (i := p) (j := b) (by omega) (by omega)
    have hbetween : ∀ x, p < x → x ≤ b → d' x ≤ d p := by
      intro x hx hxb
      rw [decide_eq_false h2, Bool.false_or] at hkeep
      have hnot := List.all_eq_true.1 hkeep x (List.mem_range'_1.2 (by omega))
      rw [hsame x (by omega) hxb]
      exact le_of_not_less (of_decide_eq_true hnot)
    refine ⟨by omega, ?_, ?_⟩
    · intro x hx hxp
      rcases lt_or_ge x b with h | h
      · rw [hpivot, hperm.apply_of_outside (.inl h), hswap, hvalue]
        rcases lt_trichotomy x p with hlt | rfl | hgt
        · rw [swap_of_ne _ (by omega) (by omega)]
          exact hbelow (by omega) x hx hlt
        · rw [swap_left]
          exact hbetween b h le_rfl
        · rw [swap_of_ne _ (by omega) (by omega)]
          exact hbetween x hgt h.le
      · exact hpart.le_pivot x h hxp
    intro x hx hxs
    rcases lt_or_ge x (j + 1) with h | h
    · exact hpart.pivot_le x hx h
    · rw [hpivot, hperm.apply_of_outside (.inr h), hswap, swap_of_ne _ (by omega) (by omega),
        hvalue]
      exact hhigh x (by omega) hxs
  -- both sides are done
  refine ⟨by omega, ?_, ?_⟩ <;> rw [hvalue]
  · exact hbelow (by omega)
  · exact habove (by omega)

/-- A part that is its pivot alone has no values in between. -/
lemma expandKeeps_single (d : Slice α m) (start stop : ℕ) :
    expandKeeps d p p p start stop = true := by
  simp [expandKeeps]

/-! ### Medians -/

section Medians

variable {a b i j k : ℕ} (hb : b ≤ m) (d : Slice α m) (hi : a ≤ i ∧ i < b) (hj : a ≤ j ∧ j < b)
include hb hi hj

lemma order_permOn : PermOn a b d (order d i j) := by
  unfold order
  split_ifs
  · exact d.permOn_swap hb hj hi
  · exact .refl _ _ _

lemma median3_permOn (hk : a ≤ k ∧ k < b) : PermOn a b d (median3 d i j k) := by
  unfold median3
  have hij := order_permOn hb d hi hj
  simp only
  split_ifs
  · exact (hij.trans (Slice.permOn_swap _ hb hk hj)).trans (order_permOn hb _ hi hj)
  · exact hij

lemma lowerMedian4_permOn {e : ℕ} (hk : a ≤ k ∧ k < b) (he : a ≤ e ∧ e < b) :
    PermOn a b d (lowerMedian4 d i j k e) := by
  unfold lowerMedian4
  have hijk := median3_permOn hb d hi hj hk
  simp only
  split_ifs
  · exact (hijk.trans (Slice.permOn_swap _ hb he hj)).trans (order_permOn hb _ hi hj)
  · exact hijk

lemma least3_permOn (hk : a ≤ k ∧ k < b) : PermOn a b d (least3 d i j k) := by
  exact (order_permOn hb d hi hj).trans (order_permOn hb _ hi hk)

end Medians

/-- A function on three indexes permutes every range that contains them. -/
def PermutesInside (pick3 : Slice α m → ℕ → ℕ → ℕ → Slice α m) : Prop :=
  ∀ (a b : ℕ) (d : Slice α m) (i j k : ℕ), b ≤ m → a ≤ i ∧ i < b → a ≤ j ∧ j < b → a ≤ k ∧ k < b →
    PermOn a b d (pick3 d i j k)

lemma foldl_permOn {g : Slice α m → ℕ → Slice α m}
    (hg : ∀ (d : Slice α m) t, t < n → PermOn a b d (g d t)) (d : Slice α m) :
    PermOn a b d ((List.range n).foldl g d : Slice α m) := by
  induction n generalizing d with
  | zero => simp
  | succ n ih =>
    rw [List.range_succ, List.foldl_append]
    exact (ih (fun d t ht => hg d t (by omega)) d).trans (hg _ n (by omega))

/-! ### The selection loop -/

variable (part : Slice α m → ℕ → ℕ → ℕ → Option (Slice α m × ℕ))

/-- A result of a partition function: an index of the range, which is permuted. -/
def StaysInside (k a b : ℕ) : Prop :=
  ∀ d : Slice α m, ∃ (d' : Slice α m) (p : ℕ), part d k a b = some (d', p) ∧
    (a ≤ p ∧ p < b) ∧ PermOn a b d d'

/-- With enough fuel the loop ends, as each round leaves a smaller range. -/
lemma quickSelect_isSome (k : ℕ)
    (fuel : ℕ) (d : Slice α m) (hk : a ≤ k ∧ k < b) (hfuel : b - a ≤ fuel)
    (hpart : ∀ a' b', a ≤ a' → b' ≤ b → a' ≤ k → k < b' → StaysInside part k a' b') :
    ∃ d' : Slice α m, quickSelect part fuel d k a b = some d' ∧ PermOn a b d d' := by
  induction fuel generalizing d a b with
  | zero => omega
  | succ fuel ih =>
    obtain ⟨d', p, hrun, hp, hperm⟩ := hpart a b le_rfl le_rfl hk.1 hk.2 d
    unfold quickSelect
    rw [hrun, bind_eq_bind, bind_some]
    simp only
    split_ifs with heq hgt
    · exact ⟨d', rfl, hperm⟩
    · obtain ⟨d'', hrun', hperm'⟩ := ih d' (a := a) (b := p) ⟨hk.1, hgt⟩ (by omega)
        fun a' b' ha hb => hpart a' b' ha (by omega)
      exact ⟨d'', hrun', hperm.trans (hperm'.mono le_rfl hp.2.le)⟩
    obtain ⟨d'', hrun', hperm'⟩ := ih d' (a := p + 1) (b := b) (by omega) (by omega)
      fun a' b' ha hb => hpart a' b' (by omega) hb
    exact ⟨d'', hrun', hperm.trans (hperm'.mono (by omega) le_rfl)⟩

/-- Every call of the partition function in the loop is one that `keeps` accepts. -/
def quickSelectKeeps (keeps : Slice α m → ℕ → ℕ → ℕ → Bool) :
    ℕ → Slice α m → ℕ → ℕ → ℕ → Bool
  | 0, _, _, _, _ => true
  | fuel + 1, d, k, a, b =>
    keeps d k a b && (part d k a b).all fun (d, p) =>
      if p = k then true
      else if p > k then quickSelectKeeps keeps fuel d k a p
      else quickSelectKeeps keeps fuel d k (p + 1) b

variable {part} {keeps : Slice α m → ℕ → ℕ → ℕ → Bool}

/-- If every accepted call is a partition, the loop ends with the range partitioned at `k`. -/
lemma quickSelect_partitioned {A B : ℕ} (fuel : ℕ) (d : Slice α m)
    (hpart : ∀ (d : Slice α m) a' b' (d' : Slice α m) p, a ≤ a' → b' ≤ b → a' ≤ k → k < b' →
      keeps d k a' b' = true → part d k a' b' = some (d', p) →
        PermOn a' b' d d' ∧ Partitioned d' a' b' p)
    (hk : a ≤ k ∧ k < b) (hd : Bracketed d A B a b)
    (hkeep : quickSelectKeeps part keeps fuel d k a b = true)
    (hrun : quickSelect part fuel d k a b = some d') : Partitioned d' A B k := by
  induction fuel generalizing d a b with
  | zero => simp [quickSelect] at hrun
  | succ fuel ih =>
    obtain ⟨⟨d₁, p⟩, hpartrun, hrun⟩ := bind_eq_some_iff.1 hrun
    rw [quickSelectKeeps, hpartrun, Bool.and_eq_true, Option.all_some] at hkeep
    obtain ⟨hperm, hp⟩ := hpart d a b d₁ p le_rfl le_rfl hk.1 hk.2 hkeep.1 hpartrun
    have hkeep := hkeep.2
    have hd₁ := hd.permOn hperm
    have hmem := hp.mem
    simp only at hrun hkeep
    split_ifs at hrun hkeep with heq hgt
    · obtain rfl := some.inj hrun
      rw [← heq]
      exact hd₁.partitioned hp
    · refine ih d₁ (a := a) (b := p) ?_ ⟨hk.1, hgt⟩ (hd₁.left hp) hkeep hrun
      intro d a' b' d' q ha hb
      exact hpart d a' b' d' q ha (by omega)
    refine ih d₁ (a := p + 1) (b := b) ?_ ⟨by omega, hk.2⟩ (hd₁.right hp) hkeep hrun
    intro d a' b' d' q ha hb
    exact hpart d a' b' d' q (by omega) hb

/-- A loop all of whose possible calls are accepted. -/
lemma quickSelectKeeps_of_forall (fuel : ℕ) (d : Slice α m)
    (hkeeps : ∀ (d : Slice α m) a' b', a ≤ a' → b' ≤ b → a' ≤ k → k < b' →
      keeps d k a' b' = true)
    (hpart : ∀ a' b', a ≤ a' → b' ≤ b → a' ≤ k → k < b' → StaysInside part k a' b')
    (hk : a ≤ k ∧ k < b) : quickSelectKeeps part keeps fuel d k a b = true := by
  induction fuel generalizing d a b with
  | zero => rfl
  | succ fuel ih =>
    obtain ⟨d', p, hrun, hp, -⟩ := hpart a b le_rfl le_rfl hk.1 hk.2 d
    rw [quickSelectKeeps, hrun, hkeeps d a b le_rfl le_rfl hk.1 hk.2, Bool.true_and,
      Option.all_some]
    simp only
    split_ifs with heq hgt
    · rfl
    · exact ih d' (a := a) (b := p) (fun d a' b' ha hb => hkeeps d a' b' ha (by omega))
        (fun a' b' ha hb => hpart a' b' ha (by omega)) ⟨hk.1, hgt⟩
    · exact ih d' (a := p + 1) (b := b) (fun d a' b' ha hb => hkeeps d a' b' (by omega) hb)
        (fun a' b' ha hb => hpart a' b' (by omega) hb) ⟨by omega, hk.2⟩

/-- Medians are moved inside the range only. -/
lemma collectMedians_permOn (hpick : PermutesInside pick3) (hb : b ≤ m) (d : Slice α m) :
    PermOn a b d (collectMedians d pick3 a (b - a)) := by
  unfold collectMedians
  simp only
  generalize hfv : (b - a) / 4 = f
  generalize hgv : f / 3 = g
  have hperm₁ := foldl_permOn (a := a) (b := b) (n := f)
    (g := fun d t => lowerMedian4 d (a + t) (a + t + f) (a + t + 2 * f) (a + t + 3 * f))
    (fun d t ht => lowerMedian4_permOn hb d (by omega) (by omega) (by omega) (by omega)) d
  exact hperm₁.trans (foldl_permOn
    (fun d t ht => hpick a b d _ _ _ hb (by omega) (by omega) (by omega)) _)

/-- The selected index is one of the collected medians. -/
lemma medianRank_mem (hk : a ≤ k ∧ k < b) (hl : ¬b - a < 12) :
    a + (b - a) / 4 ≤ medianRank k a (b - a) ∧
      medianRank k a (b - a) < a + (b - a) / 4 + (b - a) / 4 / 3 := by
  have hq : (k - a) * ((b - a) / 4 / 3) / (b - a) < (b - a) / 4 / 3 := by
    apply Nat.div_lt_of_lt_mul
    apply Nat.mul_lt_mul_of_pos_right <;> omega
  exact ⟨Nat.le_add_right _ _, Nat.add_lt_add_left hq _⟩

/-- The step permutes its range and returns an index of it. -/
lemma repeatedStep_isSome (hpick : PermutesInside pick3) (fuel : ℕ) (k a b : ℕ)
    (hk : a ≤ k ∧ k < b) (hb : b ≤ m) (hfuel : b - a ≤ fuel) :
    StaysInside (repeatedStep pick3 fuel) k a b := by
  induction fuel generalizing k a b with
  | zero => omega
  | succ fuel ih =>
    intro d
    unfold repeatedStep
    simp only
    split_ifs with hl
    · obtain ⟨hperm, hpart⟩ := hoarePartition_mem d (a + (b - a) / 2) a b (by omega) hb
      exact ⟨_, _, rfl, hpart.mem, hperm⟩
    have hp := medianRank_mem hk hl
    obtain ⟨d₃, hrun, hperm₃⟩ := quickSelect_isSome (repeatedStep pick3 fuel)
      (medianRank k a (b - a)) ((b - a) / 4 / 3) (collectMedians d pick3 a (b - a)) hp (by omega)
      fun a' b' ha hb' hka hkb => ih _ a' b' ⟨hka, hkb⟩ (by omega) (by omega)
    rw [hrun]
    obtain ⟨hperm₄, hmem⟩ := expandPartition_mem d₃ (a + (b - a) / 4) (medianRank k a (b - a))
      (a + (b - a) / 4 + (b - a) / 4 / 3 - 1) a b (by omega) (by omega) (by omega) (by omega) hb
    exact ⟨_, _, rfl, hmem, (collectMedians_permOn hpick hb d).trans
      ((hperm₃.mono (by omega) (by omega)).trans hperm₄)⟩

/-- Every extension in the step, those of the selection of its pivot included, keeps the values of
its part on their side. -/
def repeatedStepKeeps (pick3 : Slice α m → ℕ → ℕ → ℕ → Slice α m) :
    ℕ → Slice α m → ℕ → ℕ → ℕ → Bool
  | 0, _, _, _, _ => true
  | fuel + 1, d, k, a, b =>
    let l := b - a
    if l < 12 then true
    else
      let f2 := l / 4 / 3
      let newA := a + l / 4
      let p := medianRank k a l
      let d := collectMedians d pick3 a l
      quickSelectKeeps (repeatedStep pick3 fuel) (repeatedStepKeeps pick3 fuel) f2 d p newA
          (newA + f2) &&
        (quickSelect (repeatedStep pick3 fuel) f2 d p newA (newA + f2)).all fun d =>
          expandKeeps d newA p (newA + f2 - 1) a b

/-- Such a step is a partition of its range. -/
lemma repeatedStep_partitioned (hpick : PermutesInside pick3) {fuel : ℕ} (hk : a ≤ k ∧ k < b)
    (hb : b ≤ m) (hfuel : b - a ≤ fuel) (hkeep : repeatedStepKeeps pick3 fuel d k a b = true)
    (hrun : repeatedStep pick3 fuel d k a b = some (d', p)) : Partitioned d' a b p := by
  induction fuel generalizing d d' k a b p with
  | zero => omega
  | succ fuel ih =>
    unfold repeatedStep at hrun
    unfold repeatedStepKeeps at hkeep
    simp only at hrun hkeep
    split_ifs at hrun hkeep with hl
    · cases hrun
      exact (hoarePartition_mem d (a + (b - a) / 2) a b (by omega) hb).2
    have hp := medianRank_mem hk hl
    obtain ⟨d₃, hselect, hrun⟩ := bind_eq_some_iff.1 hrun
    rw [hselect, Bool.and_eq_true, Option.all_some] at hkeep
    obtain ⟨rfl, rfl⟩ := Prod.mk.inj (some.inj hrun)
    have hend : a + (b - a) / 4 + (b - a) / 4 / 3 - 1 + 1 = a + (b - a) / 4 + (b - a) / 4 / 3 := by
      omega
    refine expandPartition_partitioned ?_ (by omega) (by omega) hb hkeep.2
    rw [hend]
    -- the part is partitioned by the selection of the pivot, whose calls are on shorter ranges
    refine quickSelect_partitioned _ _ ?_ hp (bracketed_all _ _ _) hkeep.1 hselect
    intro d a' b' d' q ha hb' hka hkb hkeep' hrun'
    obtain ⟨d'', q', hrun'', -, hperm⟩ := repeatedStep_isSome hpick fuel _ a' b' ⟨hka, hkb⟩
      (by omega) (by omega) d
    obtain ⟨rfl, rfl⟩ := Prod.mk.inj (some.inj (hrun''.symm.trans hrun'))
    exact ⟨hperm, ih ⟨hka, hkb⟩ (by omega) (by omega) hkeep' hrun'⟩

/-- Below 24 elements the part that the pivot is selected in is a single element. -/
lemma repeatedStepKeeps_of_short (fuel : ℕ) (d : Slice α m) (hk : a ≤ k ∧ k < b)
    (hsmall : b - a < 24) : repeatedStepKeeps pick3 fuel d k a b = true := by
  cases fuel with
  | zero => rfl
  | succ fuel =>
    unfold repeatedStepKeeps
    simp only
    split_ifs with hl
    · rfl
    have hone : (b - a) / 4 / 3 = 1 := by omega
    have hp := medianRank_mem hk hl
    have hrank : medianRank k a (b - a) = a + (b - a) / 4 := by omega
    rw [hrank, hone, Nat.add_sub_cancel, Bool.and_eq_true]
    constructor
    · -- the loop makes one call, on a range of one element
      have hcall : ∀ d : Slice α m, repeatedStepKeeps pick3 fuel d (a + (b - a) / 4)
          (a + (b - a) / 4) (a + (b - a) / 4 + 1) = true := by
        intro d
        cases fuel <;> simp [repeatedStepKeeps]
      simp [quickSelectKeeps, hcall]
    · rw [Option.all_eq_true]
      intro d' _
      exact expandKeeps_single d' a b

lemma permutesInside_least3 : PermutesInside (least3 (α := α) (m := m)) :=
  fun _ _ d _ _ _ hb hi hj hk => least3_permOn hb d hi hj hk

lemma permutesInside_median3 : PermutesInside (median3 (α := α) (m := m)) :=
  fun _ _ d _ _ _ hb hi hj hk => median3_permOn hb d hi hj hk

lemma adaptivePartition_isSome (k a b : ℕ) (hk : a ≤ k ∧ k < b) (hb : b ≤ m) :
    StaysInside (adaptivePartition (α := α) (m := m)) k a b := by
  intro d
  unfold adaptivePartition
  simp only
  split_ifs with h1 h2 h3
  · obtain ⟨hperm, hpart⟩ := hoarePartition_mem d (a + (b - a) / 2) a b (by omega) hb
    exact ⟨_, _, rfl, hpart.mem, hperm⟩
  · exact repeatedStep_isSome permutesInside_least3 _ k a b hk hb le_rfl d
  · exact repeatedStep_isSome permutesInside_median3 _ k a b hk hb le_rfl d
  · obtain ⟨hperm, hpart⟩ := simplePartition_spec d (a := a) (b := b) (by omega) hb
    exact ⟨_, _, rfl, hpart.mem, hperm⟩

/-- Every extension in a round of `quickSelectAdaptive` keeps the values of its part on their
side. -/
def adaptiveKeeps (d : Slice α m) (k a b : ℕ) : Bool :=
  let l := b - a
  if l < 12 then true
  else if 16 * k < 7 * l then
    if 12 * k < l then repeatedStepKeeps least3 l d k a b else repeatedStepKeeps median3 l d k a b
  else true

lemma adaptivePartition_partitioned (hk : a ≤ k ∧ k < b) (hb : b ≤ m)
    (hkeep : adaptiveKeeps d k a b = true) (hrun : adaptivePartition d k a b = some (d', p)) :
    PermOn a b d d' ∧ Partitioned d' a b p := by
  obtain ⟨d'', p', hrun', -, hperm⟩ := adaptivePartition_isSome k a b hk hb d
  obtain ⟨rfl, rfl⟩ := Prod.mk.inj (some.inj (hrun'.symm.trans hrun))
  refine ⟨hperm, ?_⟩
  unfold adaptivePartition at hrun
  unfold adaptiveKeeps at hkeep
  simp only at hrun hkeep
  split_ifs at hrun hkeep with h1 h2 h3
  · cases hrun
    exact (hoarePartition_mem d (a + (b - a) / 2) a b (by omega) hb).2
  · exact repeatedStep_partitioned permutesInside_least3 hk hb le_rfl hkeep hrun
  · exact repeatedStep_partitioned permutesInside_median3 hk hb le_rfl hkeep hrun
  · obtain ⟨rfl, rfl⟩ := Prod.mk.inj (some.inj hrun)
    exact (simplePartition_spec d (by omega) hb).2

/-! ### The element of a rank -/

/-- The selection ends and permutes the slice. -/
lemma element_isSome (data : List α) (n : ℕ) :
    ∃ data', element data n = some data' ∧ data'.Perm data := by
  unfold element
  split_ifs with h
  · exact ⟨data, rfl, .refl _⟩
  obtain ⟨d, hrun, hperm⟩ := quickSelect_isSome adaptivePartition n data.length
    (Slice.ofList data) (a := 0) (b := data.length) (by omega) (by omega)
    fun a' b' _ hb ha hk => adaptivePartition_isSome n a' b' ⟨ha, hk⟩ hb
  refine ⟨d.val, ?_, ?_⟩
  · unfold quickSelectAdaptive
    rw [Nat.sub_zero, hrun]
    rfl
  have hdata := Slice.val_eq_map_range (Slice.ofList data)
  exact (List.Perm.of_eq d.val_eq_map_range).trans (hperm.perm_map_range.trans (.of_eq hdata.symm))

/-- No extension in the run of `element` moves its pivot past a value of its part that is less or
greater than it: each keeps the values of its part on their side. -/
def elementKeeps (data : List α) (n : ℕ) : Bool :=
  quickSelectKeeps adaptivePartition adaptiveKeeps data.length (Slice.ofList data) n
    0 data.length

/-- Slices of fewer than 24 elements, and ranks that are not far left. -/
lemma elementKeeps_of_short {data : List α} (hn : n < data.length)
    (hgood : data.length < 24 ∨ 7 * data.length ≤ 16 * n) : elementKeeps data n = true := by
  refine quickSelectKeeps_of_forall _ _ ?_
    (fun a' b' _ hb ha hk => adaptivePartition_isSome n a' b' ⟨ha, hk⟩ hb) (by omega)
  intro d a' b' _ hb ha hk
  unfold adaptiveKeeps
  simp only
  split_ifs with h1 h2 h3
  · rfl
  · exact repeatedStepKeeps_of_short _ d ⟨ha, hk⟩ (by omega)
  · exact repeatedStepKeeps_of_short _ d ⟨ha, hk⟩ (by omega)
  · rfl

/-- The element of rank `n` stands at `n`. -/
lemma element_partitioned {data data' : List α} (hn : n < data.length)
    (hkeep : elementKeeps data n = true) (hrun : element data n = some data') :
    Partitioned (fun i => data'.getD i default) 0 data.length n := by
  unfold element at hrun
  rw [if_neg (by omega)] at hrun
  obtain ⟨d, hselect, rfl⟩ := map_eq_some_iff.1 hrun
  refine quickSelect_partitioned _ _ ?_ (by omega) (bracketed_all _ _ _) hkeep hselect
  intro d a' b' d' p _ hb ha hk hkeep' hpart
  exact adaptivePartition_partitioned ⟨ha, hk⟩ hb hkeep' hpart

end ZwsChain.Nth
