import Mathlib

/-!
# Picking from a sorted list

A sort that need not be stable may return any permutation of its input with falling keys. The first
`n` elements are the same for all of them exactly if the first `n + 1` keys fall strictly.

* `map_eq_of_perm`: the keys themselves are always the same.
* `take_le_drop_iff`: the first elements are the least only if all keys are the same.
* `take_eq_of_perm`, `exists_other_take`: the two directions.
* `sum_le_sum_take`: the first elements have the greatest sum.
* `length_le_one_of_reverse`, `eq_of_head?_eq_getLast?`: what two opposite orders of a list without
  repetitions both have in the same order, or both begin with, is all there is.
-/

open List

namespace ZwsChain.Lib.SortedPick

variable {α κ : Type} [LinearOrder κ] {key : α → κ} {l l' : List α}

/-- The keys never rise. -/
def Falling (key : α → κ) (l : List α) : Prop :=
  l.Pairwise fun a b => key b ≤ key a

lemma map_eq_of_perm (hl : Falling key l) (hl' : Falling key l') (h : l.Perm l') :
    l.map key = l'.map key := by
  apply @List.Perm.eq_of_pairwise _ (fun a b : κ => b ≤ a)
  · intro a b _ _ hab hba
    exact le_antisymm hba hab
  · exact pairwise_map.2 hl
  · exact pairwise_map.2 hl'
  · exact h.map key

/-- None of the first `n` keys is above one of the rest only if all keys are the same. -/
lemma take_le_drop_iff {n : Nat} (hl : Falling key l) :
    (∀ x ∈ l.take n, ∀ y ∈ l.drop n, key x ≤ key y) ↔
      n = 0 ∨ l.length ≤ n ∨ ∀ x ∈ l, ∀ y ∈ l, key x = key y := by
  constructor
  · intro h
    by_contra hne
    push Not at hne
    obtain ⟨hpos, hlt, x, hx, y, hy, hxy⟩ := hne
    obtain ⟨a, ha⟩ := exists_mem_of_length_pos (show 0 < (l.take n).length by simp; omega)
    obtain ⟨b, hb⟩ := exists_mem_of_length_pos (show 0 < (l.drop n).length by simp; omega)
    have hcross : ∀ x ∈ l.take n, ∀ y ∈ l.drop n, key x = key y := by
      rw [Falling, ← take_append_drop n l, pairwise_append] at hl
      exact fun x hx y hy => le_antisymm (h x hx y hy) (hl.2.2 x hx y hy)
    have hsame : ∀ z ∈ l, key z = key b := by
      intro z hz
      rw [← take_append_drop n l, mem_append] at hz
      rcases hz with hz | hz
      · exact hcross z hz b hb
      · rw [← hcross a ha z hz, hcross a ha b hb]
    exact hxy ((hsame x hx).trans (hsame y hy).symm)
  rintro (rfl | hle | hsame) x hx y hy
  · cases hx
  · rw [drop_eq_nil_of_le hle] at hy
    cases hy
  · exact (hsame x (mem_of_mem_take hx) y (mem_of_mem_drop hy)).le

lemma take_eq_of_perm {n : Nat} (hl : Falling key l) (hl' : Falling key l') (h : l.Perm l')
    (hstrict : ((l.map key).take (n + 1)).Pairwise (· > ·)) : l.take n = l'.take n := by
  induction n generalizing l l' with
  | zero => rfl
  | succ n ih =>
    have hkeys := map_eq_of_perm hl hl' h
    match l, l' with
    | [], [] => rfl
    | [], b :: t' => cases hkeys
    | a :: t, [] => cases hkeys
    | a :: t, b :: t' =>
      obtain ⟨hab, htail⟩ := List.cons.inj hkeys
      have hfall := (pairwise_cons.1 hl).2
      have hfall' := (pairwise_cons.1 hl').2
      rw [map_cons, take_succ_cons, pairwise_cons] at hstrict
      have hfirst : a = b := by
        rcases mem_cons.1 (h.mem_iff.1 mem_cons_self) with heq | hmem
        · exact heq
        -- the second key would not be below the first
        match t', t, htail with
        | c :: t'', d :: t₂, htail =>
          have hca : key a ≤ key c := by
            rcases mem_cons.1 hmem with heq | hmem
            · exact le_of_eq (heq ▸ rfl)
            · exact (pairwise_cons.1 hfall').1 a hmem
          have hlt := hstrict.1 (key d) (by simp)
          rw [(List.cons.inj htail).1] at hlt
          exact absurd hca (not_le.2 hlt)
      subst hfirst
      rw [take_succ_cons, take_succ_cons, ih hfall hfall' h.cons_inv hstrict.2]

lemma exists_other_take {n : Nat} (hl : Falling key l) (hnodup : l.Nodup)
    (hnot : ¬ ((l.map key).take (n + 1)).Pairwise (· > ·)) :
    ∃ l', l'.Perm l ∧ Falling key l' ∧ l'.take n ≠ l.take n := by
  induction n generalizing l with
  | zero =>
    exfalso
    apply hnot
    cases l <;> simp
  | succ n ih =>
    match l with
    | [] => exact absurd (by simp) hnot
    | [a] => exact absurd (by simp) hnot
    | a :: b :: t =>
      obtain ⟨hhead, htail⟩ := pairwise_cons.1 hl
      rcases (hhead b mem_cons_self).eq_or_lt with heq | hlt
      · -- two equal keys can be exchanged
        refine ⟨b :: a :: t, .swap a b t, ?_, ?_⟩
        · refine pairwise_cons.2 ⟨?_, pairwise_cons.2 ⟨?_, ?_⟩⟩
          · intro c hc
            rcases mem_cons.1 hc with rfl | hc
            · exact heq.ge
            · exact (pairwise_cons.1 htail).1 c hc
          · exact fun c hc => hhead c (mem_cons_of_mem _ hc)
          · exact (pairwise_cons.1 htail).2
        intro h
        have hne : a ≠ b := (nodup_cons.1 hnodup).1 |> fun hmem hab =>
          hmem (hab ▸ mem_cons_self)
        exact hne (List.cons.inj h).1.symm
      have hrest : ¬ (((b :: t).map key).take (n + 1)).Pairwise (· > ·) := by
        intro hp
        apply hnot
        rw [map_cons, take_succ_cons, pairwise_cons]
        refine ⟨?_, hp⟩
        intro k hk
        obtain ⟨c, hc, rfl⟩ := List.mem_map.1 (mem_of_mem_take hk)
        rcases mem_cons.1 hc with rfl | hc
        · exact hlt
        · exact lt_of_le_of_lt ((pairwise_cons.1 htail).1 c hc) hlt
      obtain ⟨t', hperm, hfall, hne⟩ := ih htail (nodup_cons.1 hnodup).2 hrest
      refine ⟨a :: t', hperm.cons a, ?_, ?_⟩
      · exact pairwise_cons.2 ⟨fun c hc => hhead c (hperm.mem_iff.1 hc), hfall⟩
      · rw [take_succ_cons, take_succ_cons]
        exact fun h => hne (List.cons.inj h).2

/-! ### Opposite orders -/

lemma not_sublist_swap {x y : α} {N : List α} (hN : N.Nodup) (h : [x, y].Sublist N) :
    ¬ [y, x].Sublist N := by
  induction N with
  | nil => cases h
  | cons c N ih =>
    obtain ⟨hc, hN⟩ := nodup_cons.1 hN
    intro h'
    cases h with
    | cons _ h =>
      cases h' with
      | cons _ h' => exact ih hN h h'
      | cons_cons _ h' => exact hc (h.subset (by simp))
    | cons_cons _ h =>
      cases h' with
      | cons _ h' => exact hc (h'.subset (by simp))
      | cons_cons _ h' => exact hc (h.subset (by simp))

lemma length_le_one_of_reverse {L N : List α} (hN : N.Nodup) (h : L.Sublist N)
    (h' : L.reverse.Sublist N) : L.length ≤ 1 := by
  match L with
  | [] => simp
  | [_] => simp
  | x :: y :: L =>
    have hxy : [x, y].Sublist (x :: y :: L) := by simp
    exact absurd (hxy.reverse.trans h') (not_sublist_swap hN (hxy.trans h))

lemma eq_of_head?_eq_getLast? {L : List α} (hL : L.Nodup) (h : L.head? = L.getLast?) {a b : α}
    (ha : a ∈ L) (hb : b ∈ L) : a = b := by
  match L with
  | [x] => rw [mem_singleton.1 ha, mem_singleton.1 hb]
  | x :: y :: L =>
    rw [head?_cons, getLast?_cons_cons] at h
    exact absurd (mem_of_getLast? h.symm) (nodup_cons.1 hL).1

section Sums

variable {α : Type} {key : α → ℕ} {l s : List α} {n : ℕ}

lemma sum_take_le_cons {a : α} (h : ∀ b ∈ l, key b ≤ key a) :
    ((l.take n).map key).sum ≤ (((a :: l).take n).map key).sum := by
  cases n with
  | zero => rfl
  | succ n =>
    rw [take_add_one, take_succ_cons, map_append, sum_append, map_cons, sum_cons, Nat.add_comm]
    refine Nat.add_le_add_right ?_ _
    cases hb : l[n]? with
    | none => exact Nat.zero_le _
    | some b => simpa using h b (mem_of_getElem? hb)

/-- No `n` elements have more than the first ones. -/
lemma sum_le_sum_take (hl : Falling key l) (hs : s <+~ l) (hn : s.length ≤ n) :
    (s.map key).sum ≤ ((l.take n).map key).sum := by
  obtain ⟨s', hperm, hsub⟩ := hs
  rw [← (hperm.map key).sum_nat]
  rw [← hperm.length_eq] at hn
  clear hperm
  induction hsub generalizing n with
  | slnil => exact Nat.zero_le _
  | cons a _ ih =>
    obtain ⟨ha, hl⟩ := pairwise_cons.1 hl
    exact (ih hl hn).trans (sum_take_le_cons ha)
  | cons_cons a _ ih =>
    obtain ⟨n, rfl⟩ := Nat.exists_eq_succ_of_ne_zero (Nat.ne_zero_of_lt hn)
    simpa using ih (pairwise_cons.1 hl).2 (Nat.le_of_succ_le_succ hn)

end Sums

end ZwsChain.Lib.SortedPick
