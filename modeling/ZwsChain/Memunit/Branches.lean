import ZwsChain.Memunit.Irreversible

/-!
# Branches over the stable unit and their temporary databases

As long as no save fails, everything in the mem DAG except the genesis unit is on a path from the
stable unit (`Rooted.exists_path`), and the temporary database of a branch lies directly over the
stable database and is shared with no other branch (`Branches`).

`Branches` is stated for any property `Q` of the units of a branch and its overlay. `attach_cases`
says what attaching a unit does to it if saving a unit keeps `Q`, and `Branches.advance` what
becomes of it when the stable unit advances.
-/

open List Option AList

namespace ZwsChain.Memunit

open MemDag
open Lib (Overlay applyWrites)
open Lib.Keyed (lookup_of_insert)

variable {U H : Type} [DecidableEq H]

omit [DecidableEq H] in
lemma Node.Chained.hash_ne_parent {N : Node U H} (hN : N.Chained) (u : U) :
    N.hash u ≠ N.parent u := by
  intro h
  have := hN.number_parent u u h.symm
  omega

/-! ### Numbers along a path -/

namespace Path

variable {N : Node U H} {units : Units U H} {root h : H} {us us' : List U} {r : U}

section

variable (hN : N.Chained) (hr : N.hash r = root)
include hN hr

/-- The end of a path is numbered by its length. -/
lemma exists_number (hpath : Path N units root us h) :
    ∃ w, N.hash w = h ∧ N.number w = N.number r + us.length := by
  induction hpath with
  | nil => exact ⟨r, hr, rfl⟩
  | @snoc us u _ hu ih =>
    obtain ⟨w, hw, hnumber⟩ := ih
    refine ⟨u, rfl, ?_⟩
    rw [hN.number_parent u w hw.symm, hnumber, length_append, length_singleton]
    rfl

variable {u v : U}

lemma number_eq (hpath : Path N units root us h)
    (hu : N.hash u = h) : N.number u = N.number r + us.length := by
  obtain ⟨w, hw, hnumber⟩ := hpath.exists_number hN hr
  rw [hN.number_hash u w (hu.trans hw.symm), hnumber]

lemma number_parent_eq
    (hpath : Path N units root us (N.parent u)) : N.number u = N.number r + us.length + 1 := by
  obtain ⟨w, hw, hnumber⟩ := hpath.exists_number hN hr
  rw [hN.number_parent u w hw.symm, hnumber]

lemma number_of_mem (hpath : Path N units root us h)
    (hv : v ∈ us) : N.number r < N.number v ∧ N.number v ≤ N.number r + us.length := by
  induction hpath with
  | nil => simp at hv
  | @snoc us u hpath _ ih =>
    rw [length_append, length_singleton]
    rcases mem_append.1 hv with hv | hv
    · have := ih hv
      omega
    obtain rfl := mem_singleton.1 hv
    have := hpath.number_parent_eq hN hr
    omega

/-- There is one path from the root to a hash. -/
lemma unique (hpath : Path N units root us h)
    (hpath' : Path N units root us' h) : us = us' := by
  obtain ⟨w, hw, hnumber⟩ := hpath.exists_number hN hr
  have hnumber' := hpath'.number_eq hN hr hw
  have hlength : us.length = us'.length := by omega
  have hforks := hpath.forkUnits
  rw [hlength, hpath'.forkUnits] at hforks
  exact (some.inj hforks).symm

end

lemma of_prefix (hpath : Path N units root us h) {pre : List U} (hpre : pre ++ [v] <+: us) :
    Path N units root pre (N.parent v) ∧ unitAt units (N.hash v) = some v := by
  induction hpath with
  | nil => simp at hpre
  | @snoc us u hpath hu ih =>
    rcases prefix_concat_iff.1 hpre with heq | hpre
    · obtain ⟨rfl, hv⟩ := append_inj' heq rfl
      obtain rfl : v = u := by simpa using hv
      exact ⟨hpath, hu⟩
    · exact ih hpre

end Path

/-! ### Rooted mem DAGs -/

/-- What holds between the calls if no save failed, beside `Irreversible`. -/
structure Rooted (N : Node U H) (s : MemDag U H) : Prop where
  /-- Only the stable unit and the genesis unit are not above the stable unit. -/
  low : ∀ k u, unitAt s.chainUnits k = some u → s.stableUnitHeight < N.number u ∨
    k = s.stableUnitHash ∨ (N.number u = 0 ∧ 0 < s.stableUnitHeight)
  orphanKey : ∀ k w, s.orphanUnits.lookup k = some w → N.hash w = k
  /-- What waits for a hash is a child of it. -/
  waiting : ∀ k h, s.orphanUnitsParants.lookup k = some h → ∃ w, N.hash w = h ∧ N.parent w = k
  heights : ∀ n hs, s.heightHashs.lookup n = some hs → ∀ h ∈ hs, ∃ w, N.hash w = h ∧ N.number w = n
  goroutines : ∀ n, .delHeightUnitsAndTemp n ∈ s.goroutines → n ≤ s.stableUnitHeight

variable {N : Node U H} {S : U} {s s' : MemDag U H} {u : U} {ok : Bool}

lemma Irreversible.exists_stable (h : Irreversible N S s) :
    ∃ r, N.hash r = s.stableUnitHash ∧ N.number r = s.stableUnitHeight := by
  obtain ⟨r, -, hr⟩ := h.stable
  exact ⟨r, hr⟩

lemma Irreversible.attachable (h : Irreversible N S s) {k : H}
    (hu : unitAt s.chainUnits k = some u) (hnumber : s.stableUnitHeight < N.number u) :
    s.Attachable N u :=
  (h.linked k u hu).imp_right fun hlow => hlow.resolve_right (by omega)

namespace Rooted

/-- A unit that can be attached has a path to its parent. -/
lemma exists_path_parent (hN : N.Chained) (h : Irreversible N S s) (hs : Rooted N s)
    (hparent : s.Attachable N u) (hnumber : s.stableUnitHeight < N.number u) :
    ∃ us, Path N s.chainUnits s.stableUnitHash us (N.parent u) := by
  induction hn : N.number u generalizing u with
  | zero => omega
  | succ n ih =>
    rcases hparent with hmem | hparent
    · obtain ⟨v, hv⟩ := h.exists_unit hmem
      have hhash := (h.unit hv).1
      have hv' := hN.number_parent u v hhash.symm
      rw [← hhash] at hv ⊢
      rcases hs.low _ v hv with hlow | hstable | ⟨hzero, hpos⟩
      · obtain ⟨us, hpath⟩ := ih (h.attachable hv hlow) hlow (by omega)
        exact ⟨us ++ [v], .snoc hpath hv⟩
      · exact ⟨[], hstable ▸ .nil⟩
      · omega
    · exact ⟨[], hparent ▸ .nil⟩

/-- Every unit above the stable one is on a path from it. -/
lemma exists_path (hN : N.Chained) (h : Irreversible N S s) (hs : Rooted N s) {k : H}
    (hu : unitAt s.chainUnits k = some u) (hnumber : s.stableUnitHeight < N.number u) :
    ∃ us, Path N s.chainUnits s.stableUnitHash us k := by
  obtain ⟨rfl, -⟩ := h.unit hu
  obtain ⟨us, hpath⟩ := hs.exists_path_parent hN h (h.attachable hu hnumber) hnumber
  exact ⟨us ++ [u], .snoc hpath hu⟩

end Rooted

/-! ### Temporary databases -/

/-- A temporary database directly over the stable one. -/
def MemDag.Overlaid (s : MemDag U H) (r : ℕ) (ov : Overlay (Key H) (Value U H)) : Prop :=
  s.temps[r]? = some ⟨ov, none⟩

variable {ov : Overlay (Key H) (Value U H)} {r : ℕ} {us : List U}

omit [DecidableEq H] in
lemma MemDag.Overlaid.view (h : s.Overlaid r ov) : s.view r = ov.get s.db := by
  have hlt : r < s.temps.length := (List.getElem?_eq_some_iff.1 h).1
  obtain ⟨n, hn⟩ : ∃ n, s.temps.length = n + 1 := ⟨s.temps.length - 1, by omega⟩
  unfold MemDag.view
  rw [hn, MemDag.viewFrom, h]

/-- A write to the temporary database changes its overlay and no other temporary database. -/
lemma MemDag.Overlaid.writeTemp (h : s.Overlaid r ov) (ws : Writes U H) :
    (s.writeTemp r ws).Overlaid r (ov.writes ws) ∧
      (s.writeTemp r ws).temps.length = s.temps.length ∧
      ∀ j, j ≠ r → (s.writeTemp r ws).temps[j]? = s.temps[j]? := by
  unfold MemDag.Overlaid at h ⊢
  unfold MemDag.writeTemp
  refine ⟨?_, by simp, ?_⟩
  · simp [h]
  · intro j hj
    simp [hj.symm]

/-- Units saved to a temporary database one after the other: a property of the units and the
overlay that each of the saves keeps. -/
lemma MemDag.Overlaid.replay {Q : List U → Overlay (Key H) (Value U H) → Prop}
    {ct ct' : ChainTempDb U} {vs : List U}
    (h : s.Overlaid ct.tempdb ov) (hov : Q us ov)
    (hQ : ∀ pre v, pre ++ [v] <+: vs → ∀ ov ok ws, Q (us ++ pre) ov →
      N.saveUnitToDb (ov.get s.db) v = some (ok, ws) → Q (us ++ (pre ++ [v])) (ov.writes ws))
    (hreplay : replay N ct vs s = some (s', ct')) :
    ct'.tempdb = ct.tempdb ∧ ∃ ov', s'.Overlaid ct.tempdb ov' ∧ Q (us ++ vs) ov' ∧
      s'.temps.length = s.temps.length ∧ ∀ j, j ≠ ct.tempdb → s'.temps[j]? = s.temps[j]? := by
  induction vs generalizing us ov s ct with
  | nil =>
    cases hreplay
    refine ⟨rfl, ov, h, ?_, rfl, fun j _ => rfl⟩
    rwa [append_nil]
  | cons v vs ih =>
    obtain ⟨⟨s₁, ct₁, ok⟩, hadd, hreplay⟩ := do_eq_some.1 hreplay
    obtain ⟨ws, hsave, rfl, rfl⟩ := tempAddUnit_eq_some hadd
    rw [h.view] at hsave
    obtain ⟨hov₁, hlength₁, hother₁⟩ := h.writeTemp ws
    have hct : (if ok then (⟨ct.tempdb, some v⟩ : ChainTempDb U) else ct).tempdb = ct.tempdb := by
      split_ifs <;> rfl
    have hQ₁ : Q (us ++ [v]) (ov.writes ws) := by
      refine hQ [] v ⟨vs, rfl⟩ ov ok ws ?_ hsave
      rwa [append_nil]
    have hov₂ : (s.writeTemp ct.tempdb ws).Overlaid
        (if ok then (⟨ct.tempdb, some v⟩ : ChainTempDb U) else ct).tempdb (ov.writes ws) := by
      rwa [hct]
    have key := ih hov₂ hQ₁ ?_ hreplay
    · obtain ⟨hct', ov', hov', hQ', hlength', hother'⟩ := key
      rw [hct] at hct' hov' hother'
      refine ⟨hct', ov', hov', ?_, hlength'.trans hlength₁, ?_⟩
      · simpa using hQ'
      · intro j hj
        rw [hother' j hj, hother₁ j hj]
    intro pre w hpre ov ok ws hov hsave
    have hstep := hQ (v :: pre) w (by simpa using hpre) ov ok ws (by simpa using hov) hsave
    simpa using hstep

/-! ### Branches -/

/-- The temporary database of a branch lies over the stable one, satisfies `Q` with the units of
the branch, and is shared with no other branch; the main chain has one. -/
structure Branches (N : Node U H) (s : MemDag U H)
    (Q : List U → Overlay (Key H) (Value U H) → Prop) : Prop where
  ref_lt : ∀ h ct, s.tempdb.lookup h = some ct → ct.tempdb < s.temps.length
  ref_inj : ∀ h h' ct ct', s.tempdb.lookup h = some ct → s.tempdb.lookup h' = some ct' →
    ct.tempdb = ct'.tempdb → h = h'
  tip : ∀ h ct us, s.tempdb.lookup h = some ct → Path N s.chainUnits s.stableUnitHash us h →
    ∃ ov, s.Overlaid ct.tempdb ov ∧ Q us ov
  main : ∀ us, Path N s.chainUnits s.stableUnitHash us (N.hash s.lastMainChainUnit) →
    ∃ ct, s.tempdb.lookup (N.hash s.lastMainChainUnit) = some ct

/-- Saving a unit to the temporary database of its parent's branch keeps `Q`, if the save succeeds
or the unit is one of the mem DAG. -/
def Keeps (N : Node U H) (s : MemDag U H) (Q : List U → Overlay (Key H) (Value U H) → Prop) :
    Prop :=
  ∀ us v ov ok ws, Path N s.chainUnits s.stableUnitHash us (N.parent v) →
    (ok = true ∨ unitAt s.chainUnits (N.hash v) = some v) → Q us ov →
      N.saveUnitToDb (ov.get s.db) v = some (ok, ws) → Q (us ++ [v]) (ov.writes ws)

/-- The temporary database `r` of `s₁` is that of the parent in `s`, or a new one if there was
none. -/
structure Source (s : MemDag U H) (parent : H) (s₁ : MemDag U H) (r : ℕ) : Prop where
  temps : ∃ temps, s₁ = { s with temps }
  length : s.temps.length ≤ s₁.temps.length
  other : ∀ j, j < s.temps.length → j ≠ r → s₁.temps[j]? = s.temps[j]?
  ref : (∃ ct, s.tempdb.lookup parent = some ct ∧ ct.tempdb = r) ∨
    (s.tempdb.lookup parent = none ∧ s.temps.length ≤ r)

namespace Branches

variable {Q : List U → Overlay (Key H) (Value U H) → Prop}
variable {ct : ChainTempDb U} {s₁ : MemDag U H} {us : List U} {ov : Overlay (Key H) (Value U H)}
  {r : ℕ} {k : H}

section

variable (hN : N.Chained) (h : Irreversible N S s) (hnumber : s.stableUnitHeight < N.number u)
  (hfresh : N.hash u ∉ s.chainUnits)
include hN h hnumber hfresh

/-- No unit of the mem DAG is a child of a unit that is new. -/
lemma parent_ne_of_fresh {w : U}
    (hw : unitAt s.chainUnits k = some w) : N.parent w ≠ N.hash u := by
  intro hparent
  have hw' := hN.number_parent w u hparent
  obtain ⟨r, hr, hr'⟩ := h.exists_stable
  rcases h.linked k w hw with hmem | hstable | hle
  · rw [hparent] at hmem
    exact hfresh hmem
  · have := hN.number_hash u r (hparent.symm.trans (hstable.trans hr.symm))
    omega
  · omega

/-- After a unit was attached, the paths that do not end in it are the old ones. -/
lemma path_of_grown
    (hk : k ≠ N.hash u) (hpath : Path N (s.chainUnits.insert (N.hash u) ct) s.stableUnitHash us k) :
    Path N s.chainUnits s.stableUnitHash us k := by
  induction hpath with
  | nil => exact .nil
  | @snoc us v _ hv ih =>
    rw [unitAt_insert_of_ne hk] at hv
    exact .snoc (ih (parent_ne_of_fresh hN h hnumber hfresh hv)) hv

end

/-- The unit is attached to the mem DAG `s`, with the temporary database `r`; units may become
stable after it only if it is the end of the main chain. -/
structure Grown (N : Node U H) (s : MemDag U H) (u : U) (r : ℕ) (s₁ : MemDag U H) : Prop where
  fields : ∃ temps tempdb, s₁ = { s with
    temps, tempdb
    chainUnits := s.chainUnits.insert (N.hash u) ⟨r, some u⟩
    lastMainChainUnit := s₁.lastMainChainUnit }
  self : s₁.tempdb.lookup (N.hash u) = some ⟨r, some u⟩
  last : (s₁.lastMainChainUnit = u ∧ (N.parent u = N.hash s.lastMainChainUnit ∨
      N.number s.lastMainChainUnit < N.number u)) ∨
    (s₁.lastMainChainUnit = s.lastMainChainUnit ∧ N.number u ≤ N.number s.lastMainChainUnit)

lemma Grown.keeps_irreversible (h : Irreversible N S s) (hu : N.getAssetId u = N.token)
    (hparent : s.Attachable N u) (hgrown : Grown N s u r s₁) : Irreversible N S s₁ := by
  obtain ⟨⟨temps, tempdb, hs₁⟩, -, -⟩ := hgrown
  rw [hs₁]
  exact h.grow hu hparent temps tempdb _ rfl

lemma Grown.stable (hgrown : Grown N s u r s₁) :
    s₁.db = s.db ∧ s₁.stableUnitHash = s.stableUnitHash ∧
      s₁.stableUnitHeight = s.stableUnitHeight ∧
      s₁.chainUnits = s.chainUnits.insert (N.hash u) ⟨r, some u⟩ := by
  obtain ⟨⟨temps, tempdb, hs₁⟩, -, -⟩ := hgrown
  rw [hs₁]
  exact ⟨rfl, rfl, rfl, rfl⟩

/-- The other units were there before. -/
lemma Grown.unitAt_of_ne (hgrown : Grown N s u r s₁) (k : H) (w : U)
    (hw : unitAt s₁.chainUnits k = some w) (hk : k ≠ N.hash u) :
    unitAt s.chainUnits k = some w := by
  rwa [hgrown.stable.2.2.2, unitAt_insert_of_ne hk] at hw

variable (hN : N.Chained) (h : Irreversible N S s) (hB : Branches N s Q)
include hB

/-- A temporary database that is not used changes nothing. -/
lemma of_source (hsource : Source s (N.parent u) s₁ r) (hov : s₁.Overlaid r ov) (hQ : Q us ov)
    (hpath : ∀ us', Path N s.chainUnits s.stableUnitHash us' (N.parent u) → us' = us) :
    Branches N s₁ Q := by
  obtain ⟨⟨temps, rfl⟩, hlength, hother, href⟩ := hsource
  refine { hB with ref_lt := ?_, tip := ?_ }
  · intro h ct hct
    exact Nat.lt_of_lt_of_le (hB.ref_lt h ct hct) hlength
  intro h ct us' hct hpath'
  by_cases hr : ct.tempdb = r
  · rw [hr]
    rcases href with ⟨ct₀, hct₀, hr₀⟩ | ⟨-, hr₀⟩
    · obtain rfl := hB.ref_inj h (N.parent u) ct ct₀ hct hct₀ (hr.trans hr₀.symm)
      obtain rfl := hpath us' hpath'
      exact ⟨ov, hov, hQ⟩
    · have := hB.ref_lt h ct hct
      omega
  obtain ⟨ov', hov', hQ'⟩ := hB.tip h ct us' hct hpath'
  refine ⟨ov', ?_, hQ'⟩
  unfold MemDag.Overlaid at hov' ⊢
  rw [hother _ (hB.ref_lt h ct hct) hr]
  exact hov'

/-- The stable unit advances along a path. -/
lemma advance {t : H} {us₁ : List U}
    (hpath : Path N s.chainUnits s.stableUnitHash us₁ t) (hframe : MemDag.Frame s s')
    (hpart : Part s'.chainUnits s.chainUnits) (hstable : s'.stableUnitHash = t)
    {Q' : List U → Overlay (Key H) (Value U H) → Prop}
    (hQ : ∀ us₂ h ov, Path N s.chainUnits t us₂ h → Q (us₁ ++ us₂) ov → Q' us₂ ov) :
    Branches N s' Q' := by
  subst hstable
  refine ⟨?_, ?_, ?_, ?_⟩
  · rw [hframe.temps, hframe.tempdb]
    exact hB.ref_lt
  · rw [hframe.tempdb]
    exact hB.ref_inj
  · rw [hframe.tempdb]
    intro h ct us₂ hct hpath₂
    have hpath₂' := hpath₂.mono hpart
    obtain ⟨ov, hov, hQov⟩ := hB.tip h ct _ hct (hpath.append hpath₂')
    refine ⟨ov, ?_, hQ us₂ h ov hpath₂' hQov⟩
    unfold MemDag.Overlaid at hov ⊢
    rw [hframe.temps]
    exact hov
  rw [hframe.tempdb, hframe.lastMainChainUnit]
  intro us₂ hpath₂
  exact hB.main _ (hpath.append (hpath₂.mono hpart))

include hN h

/-- The temporary database for a fork unit has `Q` with the units up to the parent. -/
lemma forkTemp (hnil : Q [] .empty) (hQ : Keeps N s Q)
    (hpath : Path N s.chainUnits s.stableUnitHash us (N.parent u))
    (htemp : s.forkTemp N u = some (s₁, ct)) :
    Source s (N.parent u) s₁ ct.tempdb ∧ ∃ ov, s₁.Overlaid ct.tempdb ov ∧ Q us ov := by
  unfold MemDag.forkTemp at htemp
  split at htemp
  · rename_i ct₀ hct₀
    obtain ⟨rfl, rfl⟩ := Prod.mk.inj (some.inj htemp)
    exact ⟨⟨⟨s.temps, rfl⟩, le_rfl, fun _ _ _ => rfl, .inl ⟨ct₀, hct₀, rfl⟩⟩,
      hB.tip _ ct₀ us hct₀ hpath⟩
  rename_i hnone
  obtain ⟨forks, hforks, htemp⟩ := do_eq_some.1 htemp
  -- the walk of `getForkUnits` is the path to the parent
  obtain ⟨r, hr, hr'⟩ := h.exists_stable
  have hlength : N.number u - s.stableUnitHeight - 1 = us.length := by
    have := hpath.number_parent_eq hN hr
    omega
  unfold getForkUnits at hforks
  rw [hlength, hpath.forkUnits] at hforks
  obtain rfl := some.inj hforks
  have hfresh : (s.newChainTempDb none).1.Overlaid s.temps.length .empty := by
    simp [MemDag.Overlaid, newChainTempDb]
  obtain ⟨htemps, -⟩ := replay_frame htemp
  have hnew : (s.newChainTempDb none).1.Overlaid
      (⟨s.temps.length, none⟩ : ChainTempDb U).tempdb .empty := hfresh
  have key := hnew.replay (Q := Q) hnil ?_ htemp
  · obtain ⟨hct, ov, hov, hQ', hlen, hother⟩ := key
    rw [hct]
    have hlen' : s₁.temps.length = s.temps.length + 1 := by
      rw [hlen]
      simp [newChainTempDb]
    refine ⟨⟨?_, by omega, ?_, .inr ⟨hnone, le_rfl⟩⟩, ov, hov, hQ'⟩
    · obtain ⟨temps, rfl⟩ := htemps
      exact ⟨temps, rfl⟩
    intro j hj hne
    rw [hother j hne]
    simp [newChainTempDb, getElem?_append_left hj]
  intro pre v hpre ov ok ws hov hsave
  obtain ⟨hpath', hv⟩ := hpath.of_prefix hpre
  exact hQ pre v ov ok ws hpath' (.inr hv) hov hsave

/-- A new unit extends the branch of its parent, or starts one of its own. -/
lemma grow (hnumber : s.stableUnitHeight < N.number u) (hfresh : N.hash u ∉ s.chainUnits)
    (hpath : Path N s.chainUnits s.stableUnitHash us (N.parent u))
    (hsource : Source s (N.parent u) s₁ r) (hov : s₁.Overlaid r ov) {ws : Writes U H}
    (hQ : Q (us ++ [u]) (ov.writes ws)) {tempdb : Units U H}
    (hself : tempdb.lookup (N.hash u) = some ⟨r, some u⟩)
    (hparent : tempdb.lookup (N.parent u) = none)
    (hrest : ∀ k, k ≠ N.hash u → k ≠ N.parent u → tempdb.lookup k = s.tempdb.lookup k) {last : U}
    (hlast : last = u ∨ (last = s.lastMainChainUnit ∧ N.parent u ≠ N.hash s.lastMainChainUnit)) :
    Branches N { s₁.writeTemp r ws with
      tempdb
      chainUnits := s.chainUnits.insert (N.hash u) ⟨r, some u⟩
      lastMainChainUnit := last } Q := by
  obtain ⟨root, hroot, hroot'⟩ := h.exists_stable
  obtain ⟨hov', hlength', hother'⟩ := hov.writeTemp ws
  have hr : r < s₁.temps.length := (List.getElem?_eq_some_iff.1 hov).1
  obtain ⟨⟨temps, rfl⟩, hlength, hother, href⟩ := hsource
  -- the other references are those of other branches of `s`
  have hold : ∀ k ct, tempdb.lookup k = some ct → k = N.hash u ∧ ct = ⟨r, some u⟩ ∨
      k ≠ N.hash u ∧ s.tempdb.lookup k = some ct ∧ ct.tempdb < s.temps.length ∧ ct.tempdb ≠ r := by
    intro k ct hct
    by_cases hk : k = N.hash u
    · subst hk
      exact .inl ⟨rfl, some.inj (hct.symm.trans hself)⟩
    have hkp : k ≠ N.parent u := by
      rintro rfl
      simp [hparent] at hct
    rw [hrest k hk hkp] at hct
    have hlt := hB.ref_lt k ct hct
    refine .inr ⟨hk, hct, hlt, ?_⟩
    rintro rfl
    rcases href with ⟨ct₀, hct₀, hr₀⟩ | ⟨-, hr₀⟩
    · exact hkp (hB.ref_inj k (N.parent u) ct ct₀ hct hct₀ hr₀.symm)
    · omega
  refine ⟨?_, ?_, ?_, ?_⟩
  · intro k ct hct
    rw [hlength']
    obtain ⟨-, rfl⟩ | ⟨-, -, hlt, -⟩ := hold k ct hct
    · exact hr
    · exact hlt.trans_le hlength
  · intro k k' ct ct' hct hct' heq
    obtain ⟨rfl, rfl⟩ | ⟨-, hct, -, hne⟩ := hold k ct hct <;>
      obtain ⟨rfl, rfl⟩ | ⟨-, hct', -, hne'⟩ := hold k' ct' hct'
    · rfl
    · exact absurd heq.symm hne'
    · exact absurd heq hne
    · exact hB.ref_inj k k' ct ct' hct hct' heq
  · intro k ct us' hct hpath'
    obtain ⟨rfl, rfl⟩ | ⟨hk, hct, hlt, hne⟩ := hold k ct hct
    · have hus : us' = us ++ [u] := by
        refine hpath'.unique hN hroot (.snoc ?_ (by simp))
        exact hpath.mono (Part.insert _ _ hfresh)
      rw [hus]
      exact ⟨ov.writes ws, hov', hQ⟩
    obtain ⟨ov₀, hov₀, hQ₀⟩ := hB.tip k ct us' hct (path_of_grown hN h hnumber hfresh hk hpath')
    refine ⟨ov₀, ?_, hQ₀⟩
    change (MemDag.writeTemp _ r ws).temps[ct.tempdb]? = _
    rw [hother' _ hne, hother _ hlt hne]
    exact hov₀
  intro us' hpath'
  by_cases hk : N.hash last = N.hash u
  · exact ⟨_, hk ▸ hself⟩
  rcases hlast with rfl | ⟨rfl, hne⟩
  · exact absurd rfl hk
  · obtain ⟨ct, hct⟩ := hB.main us' (path_of_grown hN h hnumber hfresh hk hpath')
    exact ⟨ct, (hrest _ hk hne.symm).trans hct⟩

/-- What attaching a unit does if its save does not fail. -/
lemma attach_cases (hR : Rooted N s) (hnil : Q [] .empty) (hQ : Keeps N s Q)
    (hpre : s.Attachable N u → s.stableUnitHeight < N.number u ∧ N.hash u ∉ s.chainUnits)
    {isGenerate : Bool} {added : MemDag.Added}
    (hattach : s.attach N u isGenerate = some (s', added))
    (hmain : .mainFailed u ∉ s'.history) (hfork : .forkFailed u ∉ s'.history) :
    (added = .orphan ∧ ¬s.Attachable N u ∧ s' = s.addOrphan N u) ∨
    (added = .error ∧ (∃ temps, s' = { s with temps }) ∧ Branches N s' Q) ∨
    (added = .attached ∧ s.Attachable N u ∧ ∃ us ov ws r s₁,
      Path N s.chainUnits s.stableUnitHash us (N.parent u) ∧ Q us ov ∧
      N.saveUnitToDb (ov.get s.db) u = some (true, ws) ∧ Grown N s u r s₁ ∧ Branches N s₁ Q ∧
      (s' = s₁ ∨ (s₁.lastMainChainUnit = u ∧
        ∃ b, s₁.checkStableCondition N ⟨r, some u⟩ u = some (s', b)))) := by
  have hne := hN.hash_ne_parent u
  unfold MemDag.attach at hattach
  split_ifs at hattach with hparent hlast
  · -- the end of the main chain has a temporary database
    obtain ⟨hnumber, hfresh⟩ := hpre hparent
    obtain ⟨us, hpath⟩ := hR.exists_path_parent hN h hparent hnumber
    obtain ⟨ct, hct⟩ := hB.main us (hlast ▸ hpath)
    rw [← hlast] at hct
    obtain ⟨ov, hov, hQov⟩ := hB.tip _ ct us hct hpath
    obtain ⟨ct', hct', htemp⟩ | ⟨hnone, -⟩ := mainTemp_cases (s := s) (N.parent u)
    · obtain rfl : ct = ct' := some.inj (hct.symm.trans hct')
      obtain ⟨rfl, rfl⟩ | ⟨-, ws, -, rfl⟩ | ⟨rfl, ws, hsave, ⟨hfalse, -⟩ | ⟨-, b, hcheck⟩⟩ :=
        addMainUnit_cases htemp hattach
      · exact .inr (.inl ⟨rfl, ⟨s'.temps, rfl⟩, hB⟩)
      · simp at hmain
      · simp at hfalse
      rw [hov.view] at hsave
      refine .inr (.inr ⟨rfl, hparent, us, ov, ws, ct.tempdb, _, hpath, hQov, hsave, ?_, ?_,
        .inr ⟨rfl, b, hcheck⟩⟩)
      · exact ⟨⟨_, _, rfl⟩, by simp [lookup_erase_ne hne], .inl ⟨rfl, .inl hlast⟩⟩
      exact hB.grow hN h hnumber hfresh hpath
        ⟨⟨s.temps, rfl⟩, le_rfl, fun _ _ _ => rfl, .inl ⟨ct, hct, rfl⟩⟩ hov
        (hQ us u ov true ws hpath (.inl rfl) hQov hsave)
        (by simp [lookup_erase_ne hne]) (by simp)
        (fun k hk hk' => by simp [lookup_erase_ne hk', lookup_insert_ne hk])
        (.inl rfl)
    · simp [hct] at hnone
  · obtain ⟨hnumber, hfresh⟩ := hpre hparent
    obtain ⟨us, hpath⟩ := hR.exists_path_parent hN h hparent hnumber
    obtain ⟨s₁, ct, htemp, hcases⟩ := addForkUnit_cases hattach
    obtain ⟨hsource, ov, hov, hQov⟩ := hB.forkTemp hN h hnil hQ hpath htemp
    obtain ⟨root, hroot, -⟩ := h.exists_stable
    obtain ⟨rfl, rfl⟩ | ⟨rfl, ok, ws, hsave, rfl⟩ := hcases
    · exact .inr (.inl ⟨rfl, hsource.temps, hB.of_source hsource hov hQov
        fun us' hpath' => hpath'.unique hN hroot hpath⟩)
    cases ok with
    | false => simp at hfork
    | true =>
      obtain ⟨temps, rfl⟩ := hsource.temps
      rw [hov.view] at hsave
      refine .inr (.inr ⟨rfl, hparent, us, ov, ws, ct.tempdb, _, hpath, hQov, hsave, ?_, ?_,
        .inl rfl⟩)
      · refine ⟨⟨_, _, rfl⟩, by simp, ?_⟩
        dsimp only
        split_ifs with hhigh
        · exact .inl ⟨rfl, .inr hhigh⟩
        · exact .inr ⟨rfl, not_lt.1 hhigh⟩
      refine hB.grow hN h hnumber hfresh hpath hsource hov
        (hQ us u ov true ws hpath (.inl rfl) hQov hsave) (by simp)
        (by simp [lookup_insert_ne hne.symm])
        (fun k hk hk' => by simp [lookup_erase_ne hk', lookup_insert_ne hk]) ?_
      split_ifs
      · exact .inl rfl
      · exact .inr ⟨rfl, hlast⟩
  · cases hattach
    exact .inl ⟨rfl, hparent, rfl⟩

/-- Deleting the temporary databases of low units leaves that of the main chain. -/
lemma delHeightUnitsAndTemp (hR : Rooted N s) {height : ℕ} (hheight : height ≤ s.stableUnitHeight) :
    Branches N (s.delHeightUnitsAndTemp height) Q := by
  obtain ⟨root, hroot, hroot'⟩ := h.exists_stable
  refine ⟨?_, ?_, ?_, ?_⟩
  · intro k ct hct
    exact hB.ref_lt k ct (lookup_of_foldl_erase hct)
  · intro k k' ct ct' hct hct'
    exact hB.ref_inj k k' ct ct' (lookup_of_foldl_erase hct) (lookup_of_foldl_erase hct')
  · intro k ct us hct hpath
    exact hB.tip k ct us (lookup_of_foldl_erase hct) hpath
  intro us hpath
  obtain ⟨ct, hct⟩ := hB.main us hpath
  refine ⟨ct, lookup_foldl_erase_of_notMem ?_ hct⟩
  intro hmem
  by_contra hne
  -- what is erased has a number up to the stable one
  obtain ⟨e, he, hmem⟩ := mem_flatMap.1 hmem
  rw [mem_filter] at he
  obtain ⟨w, hw, hnumber⟩ := hR.heights e.1 e.2 (mem_lookup_iff.2 he.1) _ hmem
  have hlow : e.1 ≤ height := by simpa using he.2
  have hlast := hpath.number_eq hN hroot hw
  cases us with
  | nil => exact hne hpath.eq_root
  | cons v us =>
    simp only [length_cons] at hlast
    omega

end Branches

/-! ### Rooted mem DAGs stay rooted -/

/-- If the unit can be attached, it is above the stable unit and new. -/
def Fresh (N : Node U H) (s : MemDag U H) (u : U) : Prop :=
  s.Attachable N u → s.stableUnitHeight < N.number u ∧ N.hash u ∉ s.chainUnits

namespace Rooted

lemma newMemDag (N : Node U H) (db : Kv U H) (S : U) : Rooted N (Memunit.newMemDag N db S) where
  low := by
    intro k u hu
    exact .inr (.inl (unitAt_of_singleton hu).1)
  orphanKey := by simp [Memunit.newMemDag]
  waiting := by simp [Memunit.newMemDag]
  heights := by simp [Memunit.newMemDag]
  goroutines := by simp [Memunit.newMemDag]

variable (hs : Rooted N s)
include hs

lemma of_temps (temps : List (Tempdb U H)) : Rooted N { s with temps } :=
  { hs with }

lemma addOrphan (u : U) : Rooted N (s.addOrphan N u) := by
  refine { hs with orphanKey := ?_, waiting := ?_ }
  · intro k w hw
    obtain ⟨rfl, rfl⟩ | ⟨-, hw⟩ := lookup_of_insert hw
    · rfl
    · exact hs.orphanKey k w hw
  intro k h hh
  obtain ⟨rfl, rfl⟩ | ⟨-, hh⟩ := lookup_of_insert hh
  · exact ⟨u, rfl, rfl⟩
  · exact hs.waiting k h hh

lemma takeOrphan (hash : H) : Rooted N (s.takeOrphan hash).1 := by
  obtain ⟨orphanUnits, orphanUnitsParants, heq, horphans, hwaiting⟩ := takeOrphan_frame s hash
  rw [heq]
  exact { hs with
    orphanKey := fun k w hw => hs.orphanKey k w (horphans k w hw)
    waiting := fun k h hh => hs.waiting k h (hwaiting k h hh) }

lemma addUnitHeight (u : U) : Rooted N (s.addUnitHeight N u) := by
  refine { hs with heights := ?_ }
  intro n hs' hlookup h hh
  by_cases hn : n = N.number u
  · subst hn
    simp only [MemDag.addUnitHeight, lookup_insert, some.injEq] at hlookup
    subst hlookup
    rcases mem_append.1 hh with hh | hh
    · cases hold : s.heightHashs.lookup (N.number u) with
      | none => simp [hold] at hh
      | some hs₀ =>
        rw [hold] at hh
        exact hs.heights _ hs₀ hold h hh
    · exact ⟨u, (mem_singleton.1 hh).symm, rfl⟩
  · simp only [MemDag.addUnitHeight, lookup_insert_ne hn] at hlookup
    exact hs.heights n hs' hlookup h hh

lemma runGoroutine (g : Goroutine) : Rooted N (s.runGoroutine N g) := by
  cases g with
  | delHeightUnitsAndTemp height =>
    refine { hs with heights := ?_ }
    intro n hs' hlookup
    exact hs.heights n hs' (lookup_of_foldl_erase (p := fun _ => False) hlookup)
  | removeLowOrphanUnit lessThan =>
    refine { hs with orphanKey := ?_ }
    intro k w hw
    exact hs.orphanKey k w (lookup_of_foldl_erase (p := fun _ => False) hw)

lemma eraseGoroutine (i : ℕ) :
    Rooted N { s with goroutines := s.goroutines.eraseIdx i } :=
  { hs with goroutines := fun n hn => hs.goroutines n (mem_of_mem_eraseIdx hn) }

variable {s₁ : MemDag U H}

lemma grow (hnumber : s.stableUnitHeight < N.number u)
    (hgrown : Branches.Grown N s u r s₁) : Rooted N s₁ := by
  obtain ⟨⟨temps, tempdb, hs₁⟩, -, -⟩ := hgrown
  rw [hs₁]
  refine { hs with low := ?_ }
  intro k w hw
  obtain ⟨-, hw⟩ | hw := unitAt_of_insert hw
  · obtain rfl := some.inj hw
    exact .inl hnumber
  · exact hs.low k w hw

variable (hN : N.Chained) (h : Irreversible N S s)
include hN h

lemma setStableUnit {v : U}
    (hstable : s.setStableUnit N (N.hash v) (N.number v) = some (s', true)) : Rooted N s' := by
  obtain ⟨-, hpruned⟩ := h.setStableUnit hN hstable
  obtain ⟨hhash, hheight, -, habove⟩ := hpruned rfl
  obtain ⟨hframe, -, hgo⟩ := setStableUnit_frame hstable
  have hlt : s.stableUnitHeight < N.number v := by
    obtain ⟨-, hfalse⟩ | ⟨w, s₁, hlt, -⟩ := setStableUnit_cases hstable
    · simp at hfalse
    · exact hlt
  refine ⟨?_, ?_, ?_, ?_, ?_⟩
  · intro k w hw
    rw [hheight]
    by_cases hzero : N.number w = 0
    · exact .inr (.inr ⟨hzero, by omega⟩)
    · exact .inl (habove k w hw hzero)
  · rw [hframe.orphanUnits]
    exact hs.orphanKey
  · rw [hframe.orphanUnitsParants]
    exact hs.waiting
  · rw [hframe.heightHashs]
    exact hs.heights
  intro n hn
  rw [hheight]
  rcases hgo n hn with hn | ⟨-, rfl⟩
  · have := hs.goroutines n hn
    omega
  · exact le_rfl

omit hs in
/-- The orphan that waits for a unit that was just attached is new. -/
lemma fresh_next (hnumber : s.stableUnitHeight < N.number u) (hfresh : N.hash u ∉ s.chainUnits)
    {s₂ : MemDag U H} (h₁ : Irreversible N S s₁) (hs₁ : Rooted N s₁)
    (hsub : ∀ k w, unitAt s₁.chainUnits k = some w → k ≠ N.hash u → ∃ w', N.hash w' = k ∧
      unitAt s.chainUnits k = some w') {w : U}
    (htaken : s₁.takeOrphan (N.hash u) = (s₂, some w)) : Fresh N s₂ w := by
  obtain ⟨next, hnext, hw, rfl⟩ := takeOrphan_some htaken
  obtain ⟨w₀, hw₀, hparent₀⟩ := hs₁.waiting _ _ hnext
  have hparent : N.parent w = N.hash u :=
    (hN.parent_hash w w₀ ((hs₁.orphanKey _ w hw).trans hw₀.symm)).trans hparent₀
  have hnumber' := hN.number_parent w u hparent
  intro hattach
  change N.parent w ∈ s₁.chainUnits ∨ N.parent w = s₁.stableUnitHash at hattach
  change s₁.stableUnitHeight < N.number w ∧ N.hash w ∉ s₁.chainUnits
  obtain ⟨r, hr, hr'⟩ := h₁.exists_stable
  refine ⟨?_, ?_⟩
  · rw [hparent] at hattach
    have hstable : N.hash u = s₁.stableUnitHash → s₁.stableUnitHeight < N.number w := by
      intro heq
      have := hN.number_hash u r (heq.trans hr.symm)
      omega
    rcases hattach with hmem | heq
    · obtain ⟨u', hu'⟩ := h₁.exists_unit hmem
      have := hN.number_hash u' u (h₁.unit hu').1
      rcases hs₁.low _ u' hu' with hlow | heq | ⟨hzero, -⟩
      · omega
      · exact hstable heq
      · omega
    · exact hstable heq
  intro hmem
  obtain ⟨w', hw'⟩ := h₁.exists_unit hmem
  have hne : N.hash w ≠ N.hash u := by
    intro heq
    have := hN.number_hash w u heq
    omega
  obtain ⟨w'', hhash, hw''⟩ := hsub _ w' hw' hne
  exact Branches.parent_ne_of_fresh hN h hnumber hfresh hw''
    ((hN.parent_hash w'' w hhash).trans hparent)

end Rooted

/-- What attaching a new unit keeps is kept by `AddUnit`. -/
lemma MemDag.addUnit_preserves (hN : N.Chained) {I : MemDag U H → Prop} {isGenerate : Bool}
    (hirr : ∀ t, I t → Irreversible N S t) (hrooted : ∀ t, I t → Rooted N t)
    (hattach : ∀ t v t' added, I t → N.getAssetId v = N.token → Fresh N t v →
      t.attach N v isGenerate = some (t', added) → t'.history <:+ s'.history →
      I t' ∧ ∀ k w, unitAt t'.chainUnits k = some w → k ≠ N.hash v →
        unitAt t.chainUnits k = some w)
    (htake : ∀ t hash, I t → I (t.takeOrphan hash).1)
    (hheight : ∀ t v, I t → I (t.addUnitHeight N v))
    (hs : I s) (hu : N.getAssetId u = N.token) (hadd : s.addUnit N u isGenerate = some s') :
    I s' := by
  obtain rfl | ⟨added, hnumber, hmem, hfrom⟩ := addUnit_cases hadd
  · exact hs
  refine addUnitFrom_preserves_of_history
    (P := fun t v => N.getAssetId v = N.token ∧ Fresh N t v) ?_ ?_ htake hheight hs
    ⟨hu, fun _ => ⟨hnumber, hmem⟩⟩ hfrom
  · rintro t v t' a ht ⟨hv, hfresh⟩ hadded hsuffix
    exact (hattach t v t' a ht hv hfresh hadded hsuffix).1
  rintro t v t₁ t₂ w ht ⟨hv, hfresh⟩ hadded hsuffix htaken
  obtain ⟨ht₁, hold⟩ := hattach t v t₁ _ ht hv hfresh hadded hsuffix
  have hirr₁ := hirr t₁ ht₁
  obtain ⟨hv', hmem'⟩ := hfresh (attachable_of_attach hadded)
  refine ⟨?_, Rooted.fresh_next hN (hirr t ht) hv' hmem' hirr₁ (hrooted t₁ ht₁) ?_ htaken⟩
  · obtain ⟨next, -, hw, -⟩ := takeOrphan_some htaken
    exact hirr₁.orphans next w hw
  · intro k x hx hk
    exact ⟨x, (hirr₁.unit hx).1, hold k x hx hk⟩

/-- In a new mem DAG the stable unit is the only branch. -/
lemma path_newMemDag (hN : N.Chained) {db : Kv U H} {k : H}
    (hpath : Path N (newMemDag N db S).chainUnits (N.hash S) us k) : us = [] ∧ k = N.hash S := by
  have hus : us = [] := by
    by_contra hne
    obtain ⟨us₁, u, -, -, hu, -⟩ := hpath.exists_last hne
    have := hpath.number_eq hN rfl (unitAt_of_singleton hu).1.symm
    exact hne (length_eq_zero_iff.1 (by omega))
  subst hus
  exact ⟨rfl, hpath.eq_root⟩

namespace Branches

variable {Q : List U → Overlay (Key H) (Value U H) → Prop}

lemma newMemDag (hN : N.Chained) (db : Kv U H) (hnil : Q [] .empty) :
    Branches N (Memunit.newMemDag N db S) Q := by
  refine ⟨?_, ?_, ?_, ?_⟩
  · intro k ct hct
    obtain ⟨-, rfl⟩ := lookup_of_singleton hct
    exact Nat.zero_lt_one
  · intro k k' ct ct' hct hct' _
    rw [(lookup_of_singleton hct).1, (lookup_of_singleton hct').1]
  · intro k ct us hct hpath
    obtain ⟨-, rfl⟩ := lookup_of_singleton hct
    obtain ⟨rfl, -⟩ := path_newMemDag hN hpath
    exact ⟨.empty, rfl, hnil⟩
  · intro us _
    exact ⟨⟨0, some S⟩, by simp [Memunit.newMemDag, ← insert_empty]⟩

/-- A goroutine leaves the branches as they are. -/
lemma goroutine (hN : N.Chained) (h : Irreversible N S s) (hR : Rooted N s) (hB : Branches N s Q)
    {g : Goroutine} (hg : g ∈ s.goroutines) (i : ℕ) :
    let t := ({ s with goroutines := s.goroutines.eraseIdx i } : MemDag U H).runGoroutine N g
    Irreversible N S t ∧ Rooted N t ∧ Branches N t Q := by
  have herased : Irreversible N S { s with goroutines := s.goroutines.eraseIdx i } := { h with }
  have hrooted := hR.eraseGoroutine i
  refine ⟨herased.runGoroutine g, hrooted.runGoroutine g, ?_⟩
  cases g with
  | delHeightUnitsAndTemp height =>
    have hbranches : Branches N { s with goroutines := s.goroutines.eraseIdx i } Q := { hB with }
    exact hbranches.delHeightUnitsAndTemp hN herased hrooted (hR.goroutines height hg)
  | removeLowOrphanUnit lessThan => exact { hB with }

end Branches

end ZwsChain.Memunit
