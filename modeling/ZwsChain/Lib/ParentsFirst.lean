import Mathlib

/-!
# Lists with parents first

Elements have a key and the keys of their parents. `ParentsFirst key parents base l`: the parents
of each element are in `base` or are keys in front of it. Such lists can be appended, and
`firsts`, which keeps the first element of each key, keeps the order as long as it drops no parent.
-/

open List

namespace ZwsChain.Lib

variable {α κ : Type} {key : α → κ} {parents : α → Set κ} {base base' : Set κ} {l l' : List α}

/-- The parents of each element are in `base` or have their keys in front of it. -/
def ParentsFirst (key : α → κ) (parents : α → Set κ) : Set κ → List α → Prop
  | _, [] => True
  | base, a :: l => parents a ⊆ base ∧ ParentsFirst key parents (insert (key a) base) l

/-- The keys of a list. -/
def keys (key : α → κ) (l : List α) : Set κ :=
  {k | k ∈ l.map key}

lemma keys_append : keys key (l ++ l') = keys key l ∪ keys key l' := by
  ext k
  simp [keys]

lemma keys_singleton {a : α} : keys key [a] = {key a} := by
  simp [keys]

namespace ParentsFirst

section

variable (h : ParentsFirst key parents base l)
include h

lemma mono (hbase : base ⊆ base') :
    ParentsFirst key parents base' l := by
  induction l generalizing base base' with
  | nil => trivial
  | cons a l ih => exact ⟨h.1.trans hbase, ih h.2 (Set.insert_subset_insert hbase)⟩

lemma append
    (h' : ParentsFirst key parents (base ∪ keys key l) l') :
    ParentsFirst key parents base (l ++ l') := by
  induction l generalizing base with
  | nil => exact h'.mono (by simp [keys])
  | cons a l ih =>
    refine ⟨h.1, ih h.2 (h'.mono ?_)⟩
    rintro k (hk | hk)
    · exact .inl (.inr hk)
    rcases mem_cons.1 hk with rfl | hk
    · exact .inl (.inl rfl)
    · exact .inr hk

lemma snoc {a : α} (ha : parents a ⊆ base ∪ keys key l) :
    ParentsFirst key parents base (l ++ [a]) :=
  h.append ⟨ha, trivial⟩

end

/-- Where the parents are. -/
lemma before {pre post : List α} {a : α}
    (h : ParentsFirst key parents base (pre ++ a :: post)) : parents a ⊆ base ∪ keys key pre := by
  induction pre generalizing base with
  | nil => exact fun k hk => .inl (h.1 hk)
  | cons b pre ih =>
    intro k hk
    rcases ih h.2 hk with (rfl | hbase) | hpre
    · exact .inr mem_cons_self
    · exact .inl hbase
    · exact .inr (mem_cons_of_mem _ hpre)

/-- Elements may be replaced by others with the same key and parents. -/
lemma map {f : α → α} (hkey : ∀ a ∈ l, key (f a) = key a)
    (hparents : ∀ a ∈ l, parents (f a) = parents a) (h : ParentsFirst key parents base l) :
    ParentsFirst key parents base (l.map f) := by
  induction l generalizing base with
  | nil => trivial
  | cons a l ih =>
    rw [map_cons, ParentsFirst, hkey a mem_cons_self, hparents a mem_cons_self]
    exact ⟨h.1, ih (fun b hb => hkey b (mem_cons_of_mem _ hb))
      (fun b hb => hparents b (mem_cons_of_mem _ hb)) h.2⟩

end ParentsFirst

variable [DecidableEq κ] {keep : κ → Bool} {seen : List κ}

/-- The first element of each key that is kept and not seen before. -/
def firsts (key : α → κ) (keep : κ → Bool) : List α → List κ → List α
  | [], _ => []
  | a :: l, seen =>
    if key a ∈ seen then firsts key keep l seen
    else if keep (key a) then a :: firsts key keep l (key a :: seen)
    else firsts key keep l (key a :: seen)

lemma firsts_subset : firsts key keep l seen ⊆ l := by
  induction l generalizing seen with
  | nil => exact List.Subset.refl _
  | cons a l ih =>
    unfold firsts
    split_ifs
    · exact subset_cons_of_subset a ih
    · exact cons_subset_cons a ih
    · exact subset_cons_of_subset a ih

lemma keep_of_mem_firsts {a : α} (h : a ∈ firsts key keep l seen) : keep (key a) := by
  induction l generalizing seen with
  | nil => cases h
  | cons b l ih =>
    unfold firsts at h
    split_ifs at h with hseen hkeep
    · exact ih h
    · rcases mem_cons.1 h with rfl | h
      · exact hkeep
      · exact ih h
    · exact ih h

lemma nodup_firsts : (firsts key keep l seen).map key |>.Nodup := by
  suffices h : ((firsts key keep l seen).map key).Nodup ∧
      ∀ k ∈ (firsts key keep l seen).map key, k ∉ seen from h.1
  induction l generalizing seen with
  | nil => exact ⟨nodup_nil, fun k hk => absurd hk not_mem_nil⟩
  | cons a l ih =>
    obtain ⟨hnodup, hseen⟩ := @ih (key a :: seen)
    have hseen' : ∀ k ∈ (firsts key keep l (key a :: seen)).map key, k ∉ seen :=
      fun k hk hks => hseen k hk (mem_cons_of_mem _ hks)
    unfold firsts
    split_ifs with ha
    · exact ih
    · rw [map_cons]
      refine ⟨nodup_cons.2 ⟨fun hmem => hseen _ hmem mem_cons_self, hnodup⟩, ?_⟩
      intro k hk
      rcases mem_cons.1 hk with rfl | hk
      · exact ha
      · exact hseen' k hk
    · exact ⟨hnodup, hseen'⟩

/-- The first places are still behind the parents, if every parent is kept. -/
lemma ParentsFirst.firsts (h : ParentsFirst key parents base l)
    (hkeep : ∀ a ∈ l, ∀ k ∈ parents a, keep k) (hbase : ∀ k ∈ base, keep k → k ∈ base')
    (hseen : ∀ k ∈ seen, keep k → k ∈ base') :
    ParentsFirst key parents base' (Lib.firsts key keep l seen) := by
  induction l generalizing base base' seen with
  | nil => trivial
  | cons a l ih =>
    have hkeep' : ∀ b ∈ l, ∀ k ∈ parents b, keep k :=
      fun b hb => hkeep b (mem_cons_of_mem _ hb)
    unfold Lib.firsts
    split_ifs with hmem hk
    · refine ih h.2 hkeep' ?_ hseen
      rintro k (rfl | hk)
      · exact hseen _ hmem
      · exact hbase k hk
    · refine ⟨fun k hk => hbase k (h.1 hk) (hkeep a mem_cons_self k hk), ?_⟩
      refine ih h.2 hkeep' ?_ ?_
      · rintro k (rfl | hk) hkept
        · exact .inl rfl
        · exact .inr (hbase k hk hkept)
      intro k hk hkept
      rcases mem_cons.1 hk with rfl | hk
      · exact .inl rfl
      · exact .inr (hseen k hk hkept)
    refine ih h.2 hkeep' ?_ ?_
    · rintro k (rfl | hk') hkept
      · exact absurd hkept hk
      · exact hbase k hk' hkept
    intro k hk' hkept
    rcases mem_cons.1 hk' with rfl | hk'
    · exact absurd hkept hk
    · exact hseen k hk' hkept

end ZwsChain.Lib
