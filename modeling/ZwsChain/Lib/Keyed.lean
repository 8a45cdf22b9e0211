import Mathlib

/-!
# Lists of entries with keys

Two lists of entries can be compared by their keys first. Lists with the same keys, whose entries
of one key agree, are permutations of each other (`perm_of_map_perm`); and a list is known up to
order from its entries of each key (`perm_of_filter_perm`). `perm_of_agree` joins the two for
lists that were compared at some of their keys only. `length_eq_sum_iff` is about entries in
groups by key, when only their number is compared, and `sum_map_ite_key` about tables. `total` is
the sum of a weight over a table; one entry changes it by the difference of two weights
(`total_insert`, `total_erase`). A loop of insertions leaves the last entry of each key
(`lookup_foldl_insert`), a loop of erasures the other keys (`lookup_foldl_erase`).
-/

open List Option

namespace ZwsChain.Lib.Keyed

variable {α κ : Type} {key : α → κ} {l l' : List α}

/-! ### Equality up to order -/

section Perm

variable [DecidableEq α]

/-- Lists with the same keys whose entries agree are permutations of each other. -/
lemma perm_of_map_perm (hkeys : (l.map key).Perm (l'.map key))
    (hagree : ∀ a ∈ l, ∀ b ∈ l', key a = key b → a = b) : l.Perm l' := by
  induction l generalizing l' with
  | nil =>
    obtain rfl : l' = [] := map_eq_nil_iff.1 (nil_perm.1 hkeys)
    exact .nil
  | cons a l ih =>
    have hkey : key a ∈ l'.map key := hkeys.subset mem_cons_self
    obtain ⟨b, hb, hkb⟩ := List.mem_map.1 hkey
    obtain rfl := hagree a mem_cons_self b hb hkb.symm
    have herase := perm_cons_erase hb
    have hrest : (l.map key).Perm ((l'.erase a).map key) :=
      (hkeys.trans (herase.map key)).cons_inv
    have hagree' : ∀ c ∈ l, ∀ d ∈ l'.erase a, key c = key d → c = d :=
      fun c hc d hd => hagree c (mem_cons_of_mem _ hc) d (mem_of_mem_erase hd)
    exact ((ih hrest hagree').cons a).trans herase.symm

/-- Lists with the same entries of each key, up to order, are permutations of each other. -/
lemma perm_of_filter_perm [DecidableEq κ] (key : α → κ)
    (h : ∀ k, (l.filter fun a => key a = k).Perm (l'.filter fun a => key a = k)) :
    l.Perm l' := by
  refine perm_iff_count.2 fun a => ?_
  have hcount := (h (key a)).count_eq a
  rwa [count_filter (by simp), count_filter (by simp)] at hcount

/-- Lists with the same keys, whose entries agree at the keys of a kind and are the same at each
other key, are permutations of each other. -/
lemma perm_of_agree [DecidableEq κ] (kind : κ → Prop) (hkeys : (l.map key).Perm (l'.map key))
    (hagree : ∀ a ∈ l, ∀ b ∈ l', kind (key a) → key a = key b → a = b)
    (hother : ∀ k, ¬ kind k → (l.filter fun a => key a = k).Perm (l'.filter fun a => key a = k)) :
    l.Perm l' := by
  refine perm_of_filter_perm key fun k => ?_
  by_cases hk : kind k
  · have hfilter : ∀ l : List α, (l.filter fun a => key a = k).map key =
        (l.map key).filter fun x => x = k := by
      intro l
      rw [List.filter_map]
      rfl
    refine perm_of_map_perm (by rw [hfilter, hfilter]; exact hkeys.filter _) ?_
    intro a ha b hb hab
    obtain ⟨ha, hak⟩ := mem_filter.1 ha
    exact hagree a ha b (mem_filter.1 hb).1 (by simp_all) hab
  · exact hother k hk

end Perm

/-! ### Counting -/

/-- Numbers from one on sum up to their number iff all are one. -/
lemma sum_le_length_iff {l : List Nat} (h : ∀ x ∈ l, 1 ≤ x) :
    l.sum ≤ l.length ↔ ∀ x ∈ l, x = 1 := by
  induction l with
  | nil => simp
  | cons x l ih =>
    have hx := h x mem_cons_self
    have hl : ∀ y ∈ l, 1 ≤ y := fun y hy => h y (mem_cons_of_mem _ hy)
    have hle := length_le_sum_of_one_le l hl
    rw [sum_cons, length_cons, forall_mem_cons, ← ih hl]
    omega

/-- Groups of entries, none of them empty, have together as many entries as there are keys in a
list without repetitions of some of their keys, iff the keys are the same and each group has one
entry. -/
lemma length_eq_sum_iff {β : Type} {keys : List κ} {groups : List (Σ _ : κ, List β)}
    (hkeys : keys.Nodup) (hgroups : (groups.map Sigma.fst).Nodup)
    (hsub : keys ⊆ groups.map Sigma.fst) (hne : ∀ g ∈ groups, g.2 ≠ []) :
    keys.length = (groups.map fun g => g.2.length).sum ↔
      groups.map Sigma.fst ⊆ keys ∧ ∀ g ∈ groups, g.2.length = 1 := by
  have hone : ∀ x ∈ groups.map fun g => g.2.length, 1 ≤ x := by
    intro x hx
    obtain ⟨g, hg, rfl⟩ := List.mem_map.1 hx
    exact length_pos_iff.2 (hne g hg)
  have hsubperm := hkeys.subperm hsub
  have hle := hsubperm.length_le
  have hsum := length_le_sum_of_one_le _ hone
  rw [length_map] at hle hsum
  constructor
  · intro h
    refine ⟨(hsubperm.perm_of_length_le (by rw [length_map]; omega)).symm.subset, ?_⟩
    have hall := (sum_le_length_iff hone).1 (by rw [length_map]; omega)
    exact fun g hg => hall _ (List.mem_map_of_mem hg)
  rintro ⟨hsup, hall⟩
  have hge := (hgroups.subperm hsup).length_le
  have hall' : ∀ x ∈ groups.map fun g => g.2.length, x = 1 := by
    intro x hx
    obtain ⟨g, hg, rfl⟩ := List.mem_map.1 hx
    exact hall g hg
  have hsum' := (sum_le_length_iff hone).2 hall'
  rw [length_map] at hge hsum'
  omega

/-- A key without repetitions has one entry. -/
lemma filter_key_eq_singleton [DecidableEq κ] {a : α} (h : (l.map key).Nodup) (ha : a ∈ l) :
    (l.filter fun b => key b = key a) = [a] := by
  induction l with
  | nil => cases ha
  | cons b l ih =>
    obtain ⟨hb, hl⟩ := nodup_cons.1 h
    rcases mem_cons.1 ha with rfl | ha
    · rw [filter_cons_of_pos (by simp), filter_eq_nil_iff.2]
      exact fun c hc heq => hb (List.mem_map.2 ⟨c, hc, of_decide_eq_true heq⟩)
    have hne : key b ≠ key a := fun heq => hb (heq ▸ List.mem_map_of_mem ha)
    rw [filter_cons_of_neg (by simpa using hne)]
    exact ih hl ha

/-- In a table, the entries of a key are what a lookup finds. -/
lemma sum_map_ite_key [DecidableEq κ] {β : Type} {l : List (Σ _ : κ, β)} (h : l.NodupKeys)
    (k : κ) (f : β → Nat) :
    (l.map fun e => if e.1 = k then f e.2 else 0).sum = ((l.dlookup k).map f).getD 0 := by
  induction l with
  | nil => rfl
  | cons e l ih =>
    obtain ⟨hnot, hl⟩ := nodupKeys_cons.1 h
    rw [map_cons, sum_cons, ih hl]
    by_cases he : e.1 = k
    · subst he
      rw [if_pos rfl, dlookup_cons_eq, dlookup_eq_none.2 hnot]
      rfl
    · rw [if_neg he, dlookup_cons_ne _ _ (Ne.symm he), Nat.zero_add]

/-! ### Totals of a table -/

section Total

variable [DecidableEq κ] {β : Type} (f : (Σ _ : κ, β) → Nat) (t : AList fun _ : κ => β)

/-- The sum of a weight over the entries of a table. -/
def total : Nat :=
  (t.entries.map f).sum

/-- The weight of the entry of a key. -/
def weightAt (k : κ) : Nat :=
  ((t.lookup k).map fun v => f ⟨k, v⟩).getD 0

lemma sum_kerase {l : List (Σ _ : κ, β)} (hl : l.NodupKeys) (k : κ) :
    ((l.kerase k).map f).sum + ((l.dlookup k).map fun v => f ⟨k, v⟩).getD 0 = (l.map f).sum := by
  induction l with
  | nil => rfl
  | cons e l ih =>
    obtain ⟨-, hl⟩ := nodupKeys_cons.1 hl
    by_cases he : k = e.1
    · subst he
      rw [kerase_cons_eq rfl, dlookup_cons_eq]
      simp [Nat.add_comm]
    rw [kerase_cons_ne he, dlookup_cons_ne _ _ he]
    simp only [map_cons, sum_cons]
    rw [Nat.add_assoc, ih hl]

lemma total_erase (k : κ) :
    total f (t.erase k) + weightAt f t k = total f t :=
  sum_kerase f t.nodupKeys k

lemma total_insert (k : κ) (v : β) :
    total f (t.insert k v) + weightAt f t k = f ⟨k, v⟩ + total f t := by
  rw [← total_erase f t k]
  show ((⟨k, v⟩ :: t.entries.kerase k).map f).sum + _ = _
  rw [map_cons, sum_cons, Nat.add_assoc]
  rfl

end Total

/-! ### Insertions and erasures -/

section Loops

variable {α K V : Type} [DecidableEq K]

section One

variable {t : AList fun _ : K => V} {k k' : K} {v v' : V}

lemma lookup_of_erase (h : (t.erase k).lookup k' = some v) :
    k' ≠ k ∧ t.lookup k' = some v := by
  rcases eq_or_ne k' k with rfl | hne
  · simp at h
  · exact ⟨hne, by rwa [AList.lookup_erase_ne hne] at h⟩

lemma lookup_of_insert (h : (t.insert k v).lookup k' = some v') :
    (k' = k ∧ v' = v) ∨ (k' ≠ k ∧ t.lookup k' = some v') := by
  rcases eq_or_ne k' k with rfl | hne
  · rw [AList.lookup_insert, some.injEq] at h
    exact .inl ⟨rfl, h.symm⟩
  · rw [AList.lookup_insert_ne hne] at h
    exact .inr ⟨hne, h⟩

end One

/-- A table after some insertions: the last one of a key counts. -/
lemma lookup_foldl_insert (cond : α → Prop) [DecidablePred cond] (key : α → K) (val : α → V)
    (l : List α) (t : AList fun _ : K => V) (k : K) :
    (l.foldl (fun t a => if cond a then t.insert (key a) (val a) else t) t).lookup k =
      ((l.reverse.find? fun a => cond a ∧ key a = k).map val).or (t.lookup k) := by
  induction l using List.reverseRecOn with
  | nil => rfl
  | append_singleton l a ih =>
    rw [foldl_append, foldl_cons, foldl_nil, reverse_append,
      reverse_singleton, singleton_append, find?_cons]
    by_cases hcond : cond a
    · by_cases hkey : key a = k
      · subst hkey
        simp [hcond]
      · rw [if_pos hcond, AList.lookup_insert_ne (Ne.symm hkey), ih]
        simp [hkey]
    · rw [if_neg hcond, ih]
      simp [hcond]

/-- With distinct keys every pair counts. -/
lemma lookup_foldl_insert_pairs (p : K → Prop) [DecidablePred p] {l : List (K × V)}
    (hl : (l.map Prod.fst).Nodup) {t : AList fun _ : K => V} {k : K} {v : V} :
    (l.foldl (fun t e => if p e.1 then t.insert e.1 e.2 else t) t).lookup k = some v ↔
      p k ∧ (k, v) ∈ l ∨ (p k → k ∉ l.map Prod.fst) ∧ t.lookup k = some v := by
  induction l generalizing t with
  | nil => simp
  | cons e l ih =>
    obtain ⟨k', v'⟩ := e
    rw [map_cons, nodup_cons] at hl
    rw [foldl_cons, ih hl.2]
    have hmem : (k', v) ∉ l := fun hmem => hl.1 (List.mem_map.2 ⟨_, hmem, rfl⟩)
    rcases eq_or_ne k k' with rfl | hne
    · by_cases hp : p k <;> simp [hp, hl.1, hmem, eq_comm]
    · by_cases hp : p k' <;> simp [hp, hne]

lemma lookup_foldl_erase (cond : K → Prop) [DecidablePred cond] (ks : List K)
    (t : AList fun _ : K => V) (k : K) :
    (ks.foldl (fun t a => if cond a then t.erase a else t) t).lookup k =
      if k ∈ ks ∧ cond k then none else t.lookup k := by
  induction ks generalizing t with
  | nil => simp
  | cons a ks ih =>
    rw [foldl_cons, ih]
    by_cases hk : k = a
    · subst hk
      by_cases hcond : cond k <;> simp [hcond]
    · by_cases hcond : cond a <;> simp [hcond, hk]

end Loops

/-- What is found does not depend on the order if there is one such element at most. -/
lemma find?_eq_of_perm {p : α → Bool} (h : l.Perm l')
    (huniq : ∀ a ∈ l, ∀ b ∈ l, p a → p b → a = b) : l.find? p = l'.find? p := by
  cases hfind : l.find? p with
  | none =>
    symm
    rw [find?_eq_none] at hfind ⊢
    exact fun a ha => hfind a (h.mem_iff.2 ha)
  | some a =>
    obtain ⟨b, hb⟩ : ∃ b, l'.find? p = some b := by
      rw [← isSome_iff_exists, find?_isSome]
      exact ⟨a, h.mem_iff.1 (mem_of_find?_eq_some hfind), find?_some hfind⟩
    rw [hb, huniq a (mem_of_find?_eq_some hfind) b
      (h.mem_iff.2 (mem_of_find?_eq_some hb)) (find?_some hfind) (find?_some hb)]

end ZwsChain.Lib.Keyed
