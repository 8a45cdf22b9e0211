import ZwsChain.Lib.Keyed
import ZwsChain.Lib.Runs
import ZwsChain.Memunit.MemDag

/-!
# Paths through the units, and what pruning leaves of them

A `Path` leads from a root through units of a table, each the child of the one before. Pruning
removes subtrees: what it leaves is a part of the table (`Part`) in which no unit has lost its
parent, and a unit is only removed if one of its ancestors is.
-/

open List Option AList

namespace ZwsChain.Memunit

open Lib (foldlM_preserves foldlM_visits)
open Lib.Keyed (lookup_foldl_erase lookup_of_erase lookup_of_insert)

variable {U H : Type} [DecidableEq H]

/-- The unit of a table under a hash. -/
def unitAt (units : Units U H) (h : H) : Option U :=
  (units.lookup h).bind ChainTempDb.unit

variable {h k : H} {u : U} {units : Units U H} {hs : List H} {p : H → Prop} {β : Type}

lemma unitAt_eq_some :
    unitAt units h = some u ↔ ∃ ct, units.lookup h = some ct ∧ ct.unit = some u :=
  bind_eq_some_iff

lemma mem_of_unitAt (hu : unitAt units h = some u) : h ∈ units := by
  obtain ⟨ct, hct, -⟩ := unitAt_eq_some.1 hu
  exact lookup_isSome.1 (by simp [hct])

@[simp] lemma unitAt_insert (units : Units U H) (h : H) (ct : ChainTempDb U) :
    unitAt (units.insert h ct) h = ct.unit := by
  simp [unitAt]

lemma unitAt_insert_of_ne {ct : ChainTempDb U} (hk : k ≠ h) :
    unitAt (units.insert h ct) k = unitAt units k := by
  simp [unitAt, lookup_insert_ne hk]

lemma unitAt_of_insert {ct : ChainTempDb U} (hu : unitAt (units.insert h ct) k = some u) :
    (k = h ∧ ct.unit = some u) ∨ unitAt units k = some u := by
  obtain ⟨ct', hct', hunit⟩ := unitAt_eq_some.1 hu
  obtain ⟨rfl, rfl⟩ | ⟨-, hct'⟩ := lookup_of_insert hct'
  · exact .inl ⟨rfl, hunit⟩
  · exact .inr (unitAt_eq_some.2 ⟨ct', hct', hunit⟩)

@[simp] lemma unitAt_erase (units : Units U H) (h : H) : unitAt (units.erase h) h = none := by
  simp [unitAt]

lemma lookup_of_singleton {ct ct' : ChainTempDb U}
    (hct : (singleton h ct : Units U H).lookup k = some ct') : k = h ∧ ct = ct' := by
  rw [← insert_empty] at hct
  obtain ⟨rfl, rfl⟩ | ⟨-, hct⟩ := lookup_of_insert hct
  · exact ⟨rfl, rfl⟩
  · simp at hct

lemma unitAt_of_singleton {r : ℕ} {v : U}
    (hu : unitAt (singleton h ⟨r, some v⟩ : Units U H) k = some u) : k = h ∧ v = u := by
  obtain ⟨ct, hct, hunit⟩ := unitAt_eq_some.1 hu
  obtain ⟨rfl, rfl⟩ := lookup_of_singleton hct
  exact ⟨rfl, some.inj hunit⟩

variable {t : AList fun _ : H => β}

/-- Erasing keys one after the other leaves no new entries. -/
lemma lookup_of_foldl_erase [DecidablePred p] {b : β}
    (h : (hs.foldl (fun t h => if p h then t else t.erase h) t).lookup k = some b) :
    t.lookup k = some b := by
  have hlookup := lookup_foldl_erase (fun h => ¬p h) hs t k
  simp only [ite_not] at hlookup
  rw [hlookup, ite_none_left_eq_some] at h
  exact h.2

lemma lookup_foldl_erase_of_notMem [DecidablePred p] {b : β}
    (hk : k ∈ hs → p k) (h : t.lookup k = some b) :
    (hs.foldl (fun t h => if p h then t else t.erase h) t).lookup k = some b := by
  have hlookup := lookup_foldl_erase (fun h => ¬p h) hs t k
  simp only [ite_not] at hlookup
  rw [hlookup, if_neg fun hmem => hmem.2 (hk hmem.1), h]

/-! ### Parts of a table -/

/-- The entries of `units` are entries of `all`. -/
def Part (units all : Units U H) : Prop :=
  ∀ h ct, units.lookup h = some ct → all.lookup h = some ct

namespace Part

variable {units units' all : Units U H}

lemma refl (units : Units U H) : Part units units := fun _ _ h => h

lemma trans (h : Part units units') (h' : Part units' all) : Part units all :=
  fun k ct hk => h' k ct (h k ct hk)

lemma erase (units : Units U H) (h : H) : Part (units.erase h) units := by
  intro k ct hk
  exact (lookup_of_erase hk).2

lemma insert (units : Units U H) (ct : ChainTempDb U) (hh : h ∉ units) :
    Part units (units.insert h ct) := by
  intro k ct' hk
  have hkh : k ≠ h := by
    rintro rfl
    exact hh (lookup_isSome.1 (by simp [hk]))
  rwa [lookup_insert_ne hkh]

variable {k : H}

lemma unitAt (h : Part units all) (hu : unitAt units k = some u) :
    Memunit.unitAt all k = some u := by
  obtain ⟨ct, hct, hunit⟩ := unitAt_eq_some.1 hu
  exact unitAt_eq_some.2 ⟨ct, h k ct hct, hunit⟩

lemma mem (h : Part units all) (hk : k ∈ units) : k ∈ all := by
  obtain ⟨ct, hct⟩ := isSome_iff_exists.1 (lookup_isSome.2 hk)
  exact lookup_isSome.1 (by simp [h k ct hct])

end Part

/-! ### Paths -/

/-- The units, oldest first, lead from the root to the hash. -/
inductive Path (N : Node U H) (units : Units U H) (root : H) : List U → H → Prop
  | nil : Path N units root [] root
  | snoc {us : List U} {u : U} : Path N units root us (N.parent u) →
      unitAt units (N.hash u) = some u → Path N units root (us ++ [u]) (N.hash u)

namespace Path

variable {N : Node U H} {units all : Units U H} {root h : H} {us us' : List U}

lemma mono (hpart : Part units all) (hpath : Path N units root us h) : Path N all root us h := by
  induction hpath with
  | nil => exact .nil
  | snoc _ hu ih => exact .snoc ih (hpart.unitAt hu)

lemma unitAt_of_mem (hpath : Path N units root us h) (hu : u ∈ us) :
    unitAt units (N.hash u) = some u := by
  induction hpath with
  | nil => simp at hu
  | snoc _ hlast ih =>
    rcases mem_append.1 hu with hu | hu
    · exact ih hu
    · obtain rfl := mem_singleton.1 hu
      exact hlast

lemma eq_root (hpath : Path N units root [] h) : h = root := by
  generalize hus : [] = us at hpath
  cases hpath with
  | nil => rfl
  | snoc => simp at hus

/-- A path that is not empty ends in the unit of its hash. -/
lemma exists_last (hpath : Path N units root us h) (hne : us ≠ []) :
    ∃ us₁ u, us = us₁ ++ [u] ∧ N.hash u = h ∧ unitAt units h = some u ∧
      Path N units root us₁ (N.parent u) := by
  cases hpath with
  | nil => exact absurd rfl hne
  | @snoc us u hpath hu => exact ⟨us, u, rfl, rfl, hu, hpath⟩

/-- The code's walk up from a unit finds the path. -/
lemma forkUnits (hpath : Path N units root us h) :
    MemDag.forkUnits N units us.length h = some us := by
  induction hpath with
  | nil => rfl
  | snoc _ hu ih =>
    obtain ⟨ct, hct, hunit⟩ := unitAt_eq_some.1 hu
    rw [length_append, length_singleton, MemDag.forkUnits]
    simp [hct, hunit, ih]

lemma append {mid : H} (hpath : Path N units root us mid) (hpath' : Path N units mid us' h) :
    Path N units root (us ++ us') h := by
  induction hpath' with
  | nil => rwa [append_nil]
  | snoc _ hu ih =>
    rw [← append_assoc]
    exact .snoc ih hu

/-- Every unit of a path is on the way: the path up to it, and from it. -/
lemma split (hpath : Path N units root us h) {v : U} (hv : v ∈ us) :
    ∃ us₁ us₂, us = us₁ ++ us₂ ∧ Path N units root us₁ (N.hash v) ∧
      Path N units (N.hash v) us₂ h := by
  induction hpath with
  | nil => simp at hv
  | @snoc us u hpath hu ih =>
    rcases mem_append.1 hv with hv | hv
    · obtain ⟨us₁, us₂, rfl, h₁, h₂⟩ := ih hv
      exact ⟨us₁, us₂ ++ [u], append_assoc us₁ us₂ [u], h₁, .snoc h₂ hu⟩
    · obtain rfl := mem_singleton.1 hv
      exact ⟨us ++ [v], [], (append_nil _).symm, .snoc hpath hu, .nil⟩

end Path

/-! ### Pruning -/

namespace MemDag

variable {N : Node U H} {units left : Units U H}
variable {root k hash : H} {fuel height : ℕ} {snapshot : Units U H}

/-- A visited entry stays, or is the root and goes, or is a child of the root. -/
lemma removeVisit_cases {removeChild : H → Units U H → Option (Units U H)}
    (hvisit : removeVisit N removeChild root units h = some left) :
    (left = units ∧ ∀ u, unitAt units h = some u → N.number u ≠ 0 → h ≠ root ∧ N.parent u ≠ root) ∨
    (h = root ∧ (unitAt units root).isSome ∧ left = units.erase root) ∨
    ∃ u, unitAt units h = some u ∧ N.parent u = root ∧ removeChild h units = some left := by
  unfold removeVisit at hvisit
  unfold unitAt
  split at hvisit
  · rename_i hlookup
    simp only [hlookup, bind_none, reduceCtorEq, false_implies, implies_true, and_true]
    exact .inl (some.inj hvisit).symm
  rename_i ct hlookup
  obtain ⟨u, hu, hbody⟩ := do_eq_some.1 hvisit
  simp only [hlookup, bind_some, hu, some.injEq, forall_eq', exists_eq_left']
  split_ifs at hbody with hzero hroot hparent
  · exact .inl ⟨(some.inj hbody).symm, fun h => absurd hzero h⟩
  · subst hroot
    exact .inr (.inl ⟨rfl, by simp [hlookup, hu], (some.inj hbody).symm⟩)
  · exact .inr (.inr ⟨hparent, hbody⟩)
  · exact .inl ⟨(some.inj hbody).symm, fun _ => ⟨hroot, hparent⟩⟩

lemma mem_range_of_unitAt (hu : unitAt units k = some u) : k ∈ N.range units.keys :=
  (N.range_perm _).mem_iff.2 (mem_of_unitAt hu)

/-- A removal leaves a part of the table, without the root; no unit that is left, except the
genesis unit, was a child of the root or of anything else that was removed. -/
lemma removeUnitAndChildren_spec (h : removeUnitAndChildren N fuel root units = some left) :
    Part left units ∧ ∀ k u, unitAt left k = some u → N.number u ≠ 0 →
      k ≠ root ∧ N.parent u ≠ root ∧ (N.parent u ∈ units → N.parent u ∈ left) := by
  induction fuel generalizing root units left with
  | zero => simp [removeUnitAndChildren] at h
  | succ fuel ih =>
    let I : Units U H → Prop := fun c => Part c units ∧
      ∀ k u, unitAt c k = some u → N.number u ≠ 0 → N.parent u ∈ units →
        N.parent u ∈ c ∨ N.parent u = root
    -- what a visit leaves at its key
    let Q : H → Units U H → Prop := fun k c =>
      ∀ u, unitAt c k = some u → N.number u ≠ 0 → k ≠ root ∧ N.parent u ≠ root
    have hmono : ∀ {c c'}, Part c' c → ∀ k, Q k c → Q k c' := fun hsub k hk u hu =>
      hk u (hsub.unitAt hu)
    have hstep : ∀ k c c', I c → removeVisit N (removeUnitAndChildren N fuel) root c k = some c' →
        I c' ∧ Q k c' ∧ ∀ k', Q k' c → Q k' c' := by
      rintro k c c' ⟨hpart, hclosed⟩ hvisit
      obtain ⟨rfl, hstay⟩ | ⟨rfl, -, rfl⟩ | ⟨u, hu, hparent, hrec⟩ := removeVisit_cases hvisit
      · exact ⟨⟨hpart, hclosed⟩, hstay, fun _ hk => hk⟩
      · have hsub := Part.erase c k
        refine ⟨⟨hsub.trans hpart, ?_⟩, fun u hu => by simp at hu, hmono hsub⟩
        intro k' u hu hzero hmem
        rcases hclosed k' u (hsub.unitAt hu) hzero hmem with h | h
        · by_cases hk : N.parent u = k
          · exact .inr hk
          · exact .inl (mem_erase.2 ⟨hk, h⟩)
        · exact .inr h
      obtain ⟨hsub, hleft⟩ := ih hrec
      refine ⟨⟨hsub.trans hpart, ?_⟩, fun v hv hzero => absurd rfl (hleft k v hv hzero).1,
        hmono hsub⟩
      intro k' v hv hzero hmem
      rcases hclosed k' v (hsub.unitAt hv) hzero hmem with h | h
      · exact .inl ((hleft k' v hv hzero).2.2 h)
      · exact .inr h
    obtain ⟨⟨hpart, hclosed⟩, hvisited⟩ := foldlM_visits hstep
      ⟨Part.refl units, fun k u _ _ hmem => .inl hmem⟩ h
    refine ⟨hpart, ?_⟩
    intro k u hu hzero
    obtain ⟨hk, hparent⟩ := hvisited k (mem_range_of_unitAt (hpart.unitAt hu)) u hu hzero
    refine ⟨hk, hparent, ?_⟩
    intro hmem
    exact (hclosed k u hu hzero hmem).resolve_right hparent

/-- A removal keeps entries that do not hang on its root. -/
lemma removeUnitAndChildren_keeps {K : H → Prop}
    (hK : ∀ k u, K k → unitAt units k = some u →
      k ≠ root ∧ N.parent u ≠ root ∧ (N.parent u ∈ units → K (N.parent u)))
    (h : removeUnitAndChildren N fuel root units = some left) :
    ∀ k, K k → left.lookup k = units.lookup k := by
  induction fuel generalizing root units left with
  | zero => simp [removeUnitAndChildren] at h
  | succ fuel ih =>
    refine (foldlM_preserves (I := fun c => Part c units ∧ ∀ k, K k →
      c.lookup k = units.lookup k) ?_ ⟨Part.refl units, fun _ _ => rfl⟩ h).2
    rintro k - c c' ⟨hpart, hkeep⟩ hvisit
    obtain ⟨rfl, -⟩ | ⟨rfl, hroot, rfl⟩ | ⟨u, hu, hparent, hrec⟩ := removeVisit_cases hvisit
    · exact ⟨hpart, hkeep⟩
    · refine ⟨(Part.erase c k).trans hpart, ?_⟩
      intro k' hk'
      have hk : k' ≠ k := by
        rintro rfl
        obtain ⟨u, hu⟩ := isSome_iff_exists.1 hroot
        exact (hK k' u hk' (hpart.unitAt hu)).1 rfl
      rw [lookup_erase_ne hk]
      exact hkeep k' hk'
    have hk : ¬K k := fun hk => (hK k u hk (hpart.unitAt hu)).2.1 hparent
    refine ⟨(removeUnitAndChildren_spec hrec).1.trans hpart, ?_⟩
    intro k' hk'
    rw [ih ?_ hrec k' hk']
    · exact hkeep k' hk'
    intro j v hj hv
    obtain ⟨-, -, hmem⟩ := hK j v hj (hpart.unitAt hv)
    refine ⟨?_, ?_, fun h => hmem (hpart.mem h)⟩
    · rintro rfl
      exact hk hj
    · rintro rfl
      exact hk (hmem (hpart.mem (mem_of_unitAt hu)))

lemma removeFork_cases (hfork : removeFork N hash height snapshot units k = some left) :
    (left = units ∧ ∀ f, unitAt snapshot k = some f → N.number f ≤ height → N.hash f = hash) ∨
    ∃ f, unitAt snapshot k = some f ∧ N.number f ≤ height ∧ N.hash f ≠ hash ∧
      removeUnitAndChildren N (depth N units + 2) (N.hash f) units = some left := by
  unfold removeFork at hfork
  unfold unitAt
  split at hfork
  · rename_i hlookup
    simp only [hlookup, bind_none, reduceCtorEq, false_implies, implies_true, and_true]
    exact .inl (some.inj hfork).symm
  rename_i ct hlookup
  obtain ⟨f, hf, hbody⟩ := do_eq_some.1 hfork
  simp only [hlookup, bind_some, hf, some.injEq, forall_eq', exists_eq_left']
  split_ifs at hbody with hlow
  · exact .inr ⟨hlow.1, hlow.2, hbody⟩
  refine .inl ⟨(some.inj hbody).symm, ?_⟩
  intro hle
  by_contra hne
  exact hlow ⟨hle, hne⟩

/-- Pruning leaves a part of the table, without the units of the snapshot that are not above the
new stable unit; no unit that is left, except the genesis unit, has lost its parent. -/
lemma removeForks_spec (h : removeForks N hash height snapshot units = some left) :
    Part left units ∧
    (∀ k f, unitAt snapshot k = some f → N.number f ≤ height → N.hash f ≠ hash →
      ∀ u, unitAt left (N.hash f) = some u → N.number u = 0) ∧
    ∀ k u, unitAt left k = some u → N.number u ≠ 0 → N.parent u ∈ units → N.parent u ∈ left := by
  let I : Units U H → Prop := fun c => Part c units ∧
    ∀ k u, unitAt c k = some u → N.number u ≠ 0 → N.parent u ∈ units → N.parent u ∈ c
  let Q : H → Units U H → Prop := fun k c =>
    ∀ f, unitAt snapshot k = some f → N.number f ≤ height → N.hash f ≠ hash →
      ∀ u, unitAt c (N.hash f) = some u → N.number u = 0
  have hstep : ∀ k c c', I c → removeFork N hash height snapshot c k = some c' →
      I c' ∧ Q k c' ∧ ∀ k', Q k' c → Q k' c' := by
    rintro k c c' ⟨hpart, hclosed⟩ hfork
    obtain ⟨rfl, hstay⟩ | ⟨f, hf, hle, hne, hremove⟩ := removeFork_cases hfork
    · exact ⟨⟨hpart, hclosed⟩, fun f hf hle hne => absurd (hstay f hf hle) hne, fun _ hk => hk⟩
    obtain ⟨hsub, hleft⟩ := removeUnitAndChildren_spec hremove
    refine ⟨⟨hsub.trans hpart, ?_⟩, ?_, ?_⟩
    · intro k' u hu hzero hmem
      exact (hleft k' u hu hzero).2.2 (hclosed k' u (hsub.unitAt hu) hzero hmem)
    · intro g hg _ _ u hu
      obtain rfl : f = g := some.inj (hf.symm.trans hg)
      by_contra hzero
      exact (hleft _ u hu hzero).1 rfl
    · exact fun k' hk' g hg hgle hgne u hu => hk' g hg hgle hgne u (hsub.unitAt hu)
  obtain ⟨⟨hpart, hclosed⟩, hvisited⟩ := foldlM_visits hstep
    ⟨Part.refl units, fun k u _ _ hmem => hmem⟩ h
  exact ⟨hpart, fun k f hf => hvisited k (mem_range_of_unitAt hf) f hf, hclosed⟩

/-- Pruning keeps entries that hang on none of the units that go. -/
lemma removeForks_keeps {K : H → Prop}
    (hK : ∀ k u, K k → unitAt units k = some u → (N.parent u ∈ units → K (N.parent u)) ∧
      ∀ f, N.number f ≤ height → N.hash f ≠ hash → k ≠ N.hash f ∧ N.parent u ≠ N.hash f)
    (h : removeForks N hash height snapshot units = some left) :
    ∀ k, K k → left.lookup k = units.lookup k := by
  refine (foldlM_preserves (I := fun c => Part c units ∧ ∀ k, K k →
    c.lookup k = units.lookup k) ?_ ⟨Part.refl units, fun _ _ => rfl⟩ h).2
  rintro k - c c' ⟨hpart, hkeep⟩ hfork
  obtain ⟨rfl, -⟩ | ⟨f, hf, hle, hne, hremove⟩ := removeFork_cases hfork
  · exact ⟨hpart, hkeep⟩
  refine ⟨(removeUnitAndChildren_spec hremove).1.trans hpart, ?_⟩
  intro k' hk'
  rw [removeUnitAndChildren_keeps ?_ hremove k' hk']
  · exact hkeep k' hk'
  intro j v hj hv
  obtain ⟨hmem, hroot⟩ := hK j v hj (hpart.unitAt hv)
  exact ⟨(hroot f hle hne).1, (hroot f hle hne).2, fun h => hmem (hpart.mem h)⟩

end MemDag

end ZwsChain.Memunit
