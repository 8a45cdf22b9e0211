import ZwsChain.Memunit.Branches

/-!
# The state of a branch

What is read through the temporary database of a branch is the stable database after the units of
the branch were saved to it (`MemDag.fork_state`), over every run of `AddUnit` in which no save
failed. The temporary database was written when the stable unit was an older one: it still holds
what the units that have become stable since wrote, which is what they wrote to the stable database
as well, because saving a unit is a function of the store and the unit.
-/

open List Option

namespace ZwsChain.Memunit

open MemDag
open Lib (Overlay applyWrites)

variable {U H : Type} [DecidableEq H]

/-- A store after a unit was saved to it. -/
def Node.savedUnit (N : Node U H) (kv : Kv U H) (u : U) : Option (Kv U H) := do
  let (ok, ws) ← N.saveUnitToDb kv u
  if ok then some (applyWrites kv ws) else none

/-- A store after units were saved to it, one after the other. -/
def Node.savedUnits (N : Node U H) (kv : Kv U H) (us : List U) : Option (Kv U H) :=
  us.foldlM N.savedUnit kv

/-! ### The writes of a branch -/

/-- The writes so far, and those of one more unit. -/
def Node.moreWrites (N : Node U H) (kv : Kv U H) (ws : Writes U H) (u : U) :
    Option (Writes U H) := do
  let (ok, ws') ← N.saveUnitToDb (applyWrites kv ws) u
  if ok then some (ws ++ ws') else none

/-- The writes of units that are saved to a store one after the other. -/
def Node.branchWrites (N : Node U H) (kv : Kv U H) (us : List U) : Option (Writes U H) :=
  us.foldlM (N.moreWrites kv) []

namespace Node

variable {N : Node U H} {kv : Kv U H} {us us' : List U} {u : U} {ws ws' : Writes U H}

lemma moreWrites_eq_some : N.moreWrites kv ws u = some ws' ↔
    ∃ more, N.saveUnitToDb (applyWrites kv ws) u = some (true, more) ∧ ws' = ws ++ more := by
  unfold moreWrites
  constructor
  · intro h
    obtain ⟨⟨ok, more⟩, hsave, h⟩ := do_eq_some.1 h
    cases ok with
    | false => simp at h
    | true => exact ⟨more, hsave, (some.inj h).symm⟩
  · rintro ⟨more, hsave, rfl⟩
    simp [hsave]

lemma branchWrites_snoc : N.branchWrites kv (us ++ [u]) = some ws' ↔
    ∃ ws more, N.branchWrites kv us = some ws ∧
      N.saveUnitToDb (applyWrites kv ws) u = some (true, more) ∧ ws' = ws ++ more := by
  simp only [branchWrites, Lib.foldlM_concat_eq_some, moreWrites_eq_some, exists_and_left]

/-- The writes of a longer branch, seen from the store after the shorter one. -/
lemma branchWrites_append (hws : N.branchWrites kv us = some ws)
    (hall : N.branchWrites kv (us ++ us') = some ws') :
    ∃ more, ws' = ws ++ more ∧ N.branchWrites (applyWrites kv ws) us' = some more := by
  induction us' using List.reverseRecOn generalizing ws' with
  | nil =>
    rw [append_nil, hws] at hall
    exact ⟨[], by simpa using (some.inj hall).symm, rfl⟩
  | append_singleton us' u ih =>
    rw [← append_assoc] at hall
    obtain ⟨ws₁, more, hws₁, hsave, rfl⟩ := branchWrites_snoc.1 hall
    obtain ⟨more₁, rfl, hmore₁⟩ := ih hws₁
    rw [Lib.applyWrites_append] at hsave
    exact ⟨more₁ ++ more, append_assoc ws more₁ more,
      branchWrites_snoc.2 ⟨more₁, more, hmore₁, hsave, rfl⟩⟩

/-- Saving the units is applying their writes. -/
lemma savedUnits_of_branchWrites (hws : N.branchWrites kv us = some ws) :
    N.savedUnits kv us = some (applyWrites kv ws) := by
  induction us using List.reverseRecOn generalizing ws with
  | nil =>
    obtain rfl := some.inj hws
    rfl
  | append_singleton us u ih =>
    obtain ⟨ws₁, more, hws₁, hsave, rfl⟩ := branchWrites_snoc.1 hws
    unfold savedUnits at ih ⊢
    rw [foldlM_append, ih hws₁, Lib.applyWrites_append]
    simp [savedUnit, hsave]

end Node

open Node

/-- What is read through the overlay is the store after the units were saved to it; the overlay has
all that they write. -/
def Reflects (N : Node U H) (db : Kv U H) (us : List U) (ov : Overlay (Key H) (Value U H)) : Prop :=
  ∃ ws, N.branchWrites db us = some ws ∧ ov.get db = applyWrites db ws ∧
    ∀ k ∈ ws.map Prod.fst, ov.Mentions k

/-- What holds between the calls if no unit failed to be saved to its temporary database. -/
structure Faithful (N : Node U H) (S : U) (s : MemDag U H) : Prop where
  irreversible : Irreversible N S s
  rooted : Rooted N s
  branches : Branches N s (Reflects N s.db)
  /-- The units of every branch can be saved to the stable database. -/
  saves : ∀ us h, Path N s.chainUnits s.stableUnitHash us h → ∃ ws, N.branchWrites s.db us = some ws

variable {N : Node U H} {S : U} {s s' : MemDag U H} {u : U} {ok : Bool}

lemma Reflects.nil (db : Kv U H) : Reflects N db [] .empty :=
  ⟨[], rfl, Overlay.get_empty db, by simp⟩

variable {db : Kv U H} {ov : Overlay (Key H) (Value U H)} {us : List U}

lemma Reflects.snoc (h : Reflects N db us ov) {more : Writes U H}
    (hsave : N.saveUnitToDb (ov.get db) u = some (true, more)) :
    Reflects N db (us ++ [u]) (ov.writes more) := by
  obtain ⟨ws, hws, hget, hmentions⟩ := h
  rw [hget] at hsave
  refine ⟨ws ++ more, branchWrites_snoc.2 ⟨ws, more, hws, hsave, rfl⟩, ?_, ?_⟩
  · rw [Overlay.get_writes, hget, Lib.applyWrites_append]
  intro k hk
  rw [Overlay.mentions_writes]
  rw [map_append, mem_append] at hk
  exact hk.imp_left (hmentions k)

/-- When units become stable, their writes go to the stable database and are hidden by the
overlay. -/
lemma Reflects.advance {us' : List U} (h : Reflects N db (us ++ us') ov) {ws : Writes U H}
    (hws : N.branchWrites db us = some ws) : Reflects N (applyWrites db ws) us' ov := by
  obtain ⟨all, hall, hget, hmentions⟩ := h
  obtain ⟨more, rfl, hmore⟩ := branchWrites_append hws hall
  refine ⟨more, hmore, ?_, ?_⟩
  · rw [Overlay.get_applyWrites, hget, Lib.applyWrites_append]
    intro k hk
    exact hmentions k (by rw [map_append]; exact mem_append_left _ hk)
  · intro k hk
    exact hmentions k (by rw [map_append]; exact mem_append_right _ hk)

namespace Faithful

lemma keeps (h : Faithful N S s) : Keeps N s (Reflects N s.db) := by
  intro us v ov ok more hpath hok hov hsave
  rcases hok with rfl | hv
  · exact hov.snoc hsave
  -- a unit of the mem DAG could be saved before, and saving it is a function of the store
  obtain ⟨ws, hws⟩ := h.saves _ _ (.snoc hpath hv)
  obtain ⟨ws₁, more₁, hws₁, hsave₁, -⟩ := branchWrites_snoc.1 hws
  obtain ⟨ws₂, hws₂, hget, -⟩ := id hov
  obtain rfl : ws₁ = ws₂ := some.inj (hws₁.symm.trans hws₂)
  rw [← hget, hsave] at hsave₁
  cases hsave₁
  exact hov.snoc hsave

/-! ### Making units stable -/

variable {v : U} {ws : Writes U H} {isGenerate : Bool}

lemma saveStable {s₁ : MemDag U H} {more : Writes U H} (hdb : s₁.db = applyWrites s.db ws)
    (hmore : N.saveUnitToDb (applyWrites s.db ws) v = some (true, more))
    (hstable : s₁.saveStable N v = some (s', ok)) :
    ok = true ∧ s'.db = applyWrites s.db (ws ++ more) := by
  rw [← hdb] at hmore
  obtain ⟨ws', hws', hcases⟩ := saveStable_cases hstable
  rw [hmore] at hws'
  cases hws'
  obtain ⟨⟨⟩, -⟩ | ⟨-, rfl⟩ := hcases
  rw [Lib.applyWrites_append, ← hdb]
  exact ⟨rfl, rfl⟩

/-- A unit whose branch can be saved becomes stable, and the stable database gets the writes of the
branch. -/
lemma setNextStableUnit (hN : N.Chained) (h : Irreversible N S s)
    (hpath : Path N s.chainUnits s.stableUnitHash us (N.parent v))
    (hws : N.branchWrites s.db (us ++ [v]) = some ws) {fuel : ℕ}
    (hnext : setNextStableUnit N s.chainUnits fuel v s = some (s', ok)) :
    ok = true ∧ s'.db = applyWrites s.db ws := by
  obtain ⟨root, hroot, -⟩ := h.exists_stable
  induction us using List.reverseRecOn generalizing v fuel s' ok ws with
  | nil =>
    obtain ⟨ws₁, more, hws₁, hmore, rfl⟩ := branchWrites_snoc.1 hws
    obtain rfl := some.inj hws₁
    obtain ⟨heq, -⟩ | ⟨-, -, hstable⟩ | ⟨_, w, s₁, b, -, -, hw, hrec, hstable⟩ :=
      setNextStableUnit_cases hnext
    · exact absurd (heq.trans hpath.eq_root.symm) (hN.hash_ne_parent v)
    · exact saveStable rfl hmore hstable
    -- the parent is the stable unit, which is not saved again
    have hw' : N.hash w = s.stableUnitHash := (h.unit hw).1.trans hpath.eq_root
    obtain ⟨-, rfl, -⟩ | ⟨hne, -⟩ | ⟨_, _, _, _, -, hne, -⟩ :=
      setNextStableUnit_cases hrec
    · exact saveStable rfl hmore hstable
    · exact absurd hw' hne
    · exact absurd hw' hne
  | append_singleton us p ih =>
    obtain ⟨ws₁, more, hws₁, hmore, rfl⟩ := branchWrites_snoc.1 hws
    have hnumber := hpath.number_parent_eq hN hroot
    obtain ⟨us₁, p', heq, -, hp, hpath'⟩ := hpath.exists_last (by simp)
    obtain ⟨rfl, hp'⟩ := append_inj' heq rfl
    obtain rfl : p = p' := by simpa using hp'
    obtain ⟨heq, -⟩ | ⟨-, hmem, -⟩ | ⟨_, w, s₁, b, -, -, hw, hrec, hstable⟩ :=
      setNextStableUnit_cases hnext
    · have := hN.number_hash v root (heq.trans hroot.symm)
      omega
    · exact absurd (mem_of_unitAt hp) hmem
    · obtain rfl : p = w := some.inj (hp.symm.trans hw)
      exact saveStable (ih hpath' hws₁ hrec).2 hmore hstable

section

variable (hN : N.Chained) (h : Faithful N S s)
include hN h

/-- Making a unit stable keeps the invariant. -/
lemma setStableUnit
    (hstable : s.setStableUnit N (N.hash v) (N.number v) = some (s', ok)) : Faithful N S s' := by
  have hirr := h.irreversible
  obtain ⟨rfl, -⟩ | ⟨w, s₁, hheight, hw, hnext, hprune⟩ := setStableUnit_cases hstable
  · exact h
  obtain ⟨hhash, -⟩ := hirr.unit hw
  have hnumber := hN.number_hash w v hhash
  obtain ⟨us, hpath⟩ := h.rooted.exists_path hN hirr hw (by omega)
  obtain ⟨ws, hws⟩ := h.saves us _ hpath
  have hne : us ≠ [] := by
    rintro rfl
    obtain ⟨root, hroot, hroot'⟩ := hirr.exists_stable
    have := hN.number_hash v root (hpath.eq_root.trans hroot.symm)
    omega
  obtain ⟨us₁, w', rfl, hhash', hw', hpath₁⟩ := hpath.exists_last hne
  obtain rfl : w = w' := some.inj (hw.symm.trans hw')
  obtain ⟨rfl, hdb⟩ := setNextStableUnit hN hirr hpath₁ hws hnext
  obtain ⟨hfalse, -⟩ | ⟨-, left, -, hs'⟩ := hprune
  · simp at hfalse
  obtain ⟨hirr', hstable'⟩ := hirr.setStableUnit hN hstable
  obtain ⟨hhash'', -⟩ := hstable' rfl
  obtain ⟨hframe, hpart, -⟩ := setStableUnit_frame hstable
  have hdb' : s'.db = applyWrites s.db ws := by
    rw [hs']
    exact hdb
  refine ⟨hirr', h.rooted.setStableUnit hN hirr hstable, ?_, ?_⟩
  · refine h.branches.advance hpath hframe hpart hhash'' ?_
    intro us₂ k ov _ hov
    rw [hdb']
    exact hov.advance hws
  intro us₂ k hpath₂
  rw [hhash''] at hpath₂
  obtain ⟨all, hall⟩ := h.saves _ k (hpath.append (hpath₂.mono hpart))
  obtain ⟨more, -, hmore⟩ := branchWrites_append hws hall
  rw [hdb']
  exact ⟨more, hmore⟩

lemma checkStableCondition {tempDB : ChainTempDb U}
    (hcheck : s.checkStableCondition N tempDB u = some (s', ok)) :
    Faithful N S s' := by
  obtain rfl | ⟨v, -, hstable⟩ := checkStableCondition_cases hcheck
  · exact h
  · exact h.setStableUnit hN hstable

/-! ### Adding units -/

/-- Attaching a unit keeps the invariant and brings no other unit into the mem DAG. -/
lemma attach (hu : N.getAssetId u = N.token)
    (hfresh : Fresh N s u) {added : MemDag.Added}
    (hattach : s.attach N u isGenerate = some (s', added)) (hmain : .mainFailed u ∉ s'.history)
    (hfork : .forkFailed u ∉ s'.history) :
    Faithful N S s' ∧ ∀ k w, unitAt s'.chainUnits k = some w → k ≠ N.hash u →
      unitAt s.chainUnits k = some w := by
  have hirr := h.irreversible
  obtain ⟨root, hroot, hroot'⟩ := hirr.exists_stable
  obtain ⟨-, -, rfl⟩ | ⟨-, ⟨temps, rfl⟩, hB⟩ |
    ⟨-, hparent, us, ov, more, r, s₁, hpath, hov, hsave, hgrown, hB, hs'⟩ :=
      h.branches.attach_cases hN hirr h.rooted (Reflects.nil s.db) h.keeps hfresh hattach
        hmain hfork
  · exact ⟨⟨hirr.addOrphan hu, h.rooted.addOrphan u, { h.branches with }, h.saves⟩,
      fun k w hw _ => hw⟩
  · exact ⟨⟨{ hirr with }, h.rooted.of_temps temps, hB, h.saves⟩, fun k w hw _ => hw⟩
  obtain ⟨hnumber, hmem⟩ := hfresh hparent
  obtain ⟨hdb, hhash, -, hunits⟩ := hgrown.stable
  have hs₁ : Faithful N S s₁ := by
    refine ⟨hgrown.keeps_irreversible hirr hu hparent, h.rooted.grow hnumber hgrown, ?_, ?_⟩
    · rwa [hdb]
    intro us' k hpath'
    rw [hunits, hhash] at hpath'
    rw [hdb]
    by_cases hk : k = N.hash u
    · subst hk
      have hpath₁ : Path N (s.chainUnits.insert (N.hash u) ⟨r, some u⟩) s.stableUnitHash
          (us ++ [u]) (N.hash u) :=
        .snoc (hpath.mono (Part.insert _ _ hmem)) (by simp)
      obtain rfl := hpath'.unique hN hroot hpath₁
      obtain ⟨ws, hws, -⟩ := hov.snoc hsave
      exact ⟨ws, hws⟩
    · exact h.saves us' k (Branches.path_of_grown hN hirr hnumber hmem hk hpath')
  obtain rfl | ⟨-, b, hcheck⟩ := hs'
  · exact ⟨hs₁, hgrown.unitAt_of_ne⟩
  · have hpart := checkStableCondition_part hcheck
    exact ⟨hs₁.checkStableCondition hN hcheck,
      fun k w hw => hgrown.unitAt_of_ne k w (hpart.unitAt hw)⟩

end

lemma takeOrphan (h : Faithful N S s) (hash : H) : Faithful N S (s.takeOrphan hash).1 := by
  have hirr := h.irreversible.takeOrphan hash
  have hrooted := h.rooted.takeOrphan hash
  obtain ⟨orphanUnits, orphanUnitsParants, heq, -⟩ := takeOrphan_frame s hash
  rw [heq] at hirr hrooted ⊢
  exact ⟨hirr, hrooted, { h.branches with }, h.saves⟩

lemma addUnitHeight (h : Faithful N S s) (u : U) : Faithful N S (s.addUnitHeight N u) :=
  ⟨{ h.irreversible with }, h.rooted.addUnitHeight u, { h.branches with }, h.saves⟩

lemma addUnit (hN : N.Chained) (h : Faithful N S s) (hu : N.getAssetId u = N.token)
    (hadd : s.addUnit N u isGenerate = some s') (hmain : ∀ w, .mainFailed w ∉ s'.history)
    (hfork : ∀ w, .forkFailed w ∉ s'.history) : Faithful N S s' := by
  refine addUnit_preserves hN (fun t ht => ht.irreversible) (fun t ht => ht.rooted)
    ?_ ?_ ?_ h hu hadd
  · intro t v t' added ht hv hfresh hattach hsuffix
    exact ht.attach hN hv hfresh hattach (fun hw => hmain v (hsuffix.subset hw))
      fun hw => hfork v (hsuffix.subset hw)
  · exact fun t hash ht => ht.takeOrphan hash
  · exact fun t v ht => ht.addUnitHeight v

/-! ### Runs -/

lemma newMemDag (hN : N.Chained) (hS : N.getAssetId S = N.token)
    (hdb : getNewestUnit db N.token = some (N.hash S, N.number S)) :
    Faithful N S (Memunit.newMemDag N db S) := by
  refine ⟨Irreversible.newMemDag hS hdb, Rooted.newMemDag N db S,
    Branches.newMemDag hN db (Reflects.nil db), ?_⟩
  intro us k hpath
  obtain ⟨rfl, -⟩ := path_newMemDag hN hpath
  exact ⟨[], rfl⟩

end Faithful

/-- A unit of the chain's token is added, or a goroutine runs. -/
def Op.Adds (N : Node U H) : Op U H → Prop
  | .addUnit u _ => N.getAssetId u = N.token
  | .goroutine _ => True
  | _ => False

lemma Faithful.step (hN : N.Chained) (h : Faithful N S s) {op : Op U H} (hop : op.Adds N)
    (hstep : s.step N op = some s') (hmain : ∀ w, .mainFailed w ∉ s'.history)
    (hfork : ∀ w, .forkFailed w ∉ s'.history) : Faithful N S s' := by
  cases op with
  | addUnit u isGenerate => exact h.addUnit hN hop hstep hmain hfork
  | setUnitGroupSign | saveHeader | addStableUnit => exact hop.elim
  | goroutine i =>
    obtain rfl | ⟨g, hg, rfl⟩ := step_goroutine_cases hstep
    · exact h
    obtain ⟨hirr, hrooted, hbranches⟩ := h.branches.goroutine hN h.irreversible h.rooted hg i
    cases g with
    | delHeightUnitsAndTemp | removeLowOrphanUnit => exact ⟨hirr, hrooted, hbranches, h.saves⟩

/-- In every state that `AddUnit` reaches without a failed save, what is read through the temporary
database of a branch is the stable database after the units from the stable unit to the end of the
branch were saved to it. -/
theorem MemDag.fork_state (hN : N.Chained) {db : Kv U H} (hS : N.getAssetId S = N.token)
    (hdb : getNewestUnit db N.token = some (N.hash S, N.number S)) {ops : List (Op U H)}
    (hops : ∀ op ∈ ops, op.Adds N) (hrun : (newMemDag N db S).run N ops = some s')
    (hmain : ∀ w, .mainFailed w ∉ s'.history) (hfork : ∀ w, .forkFailed w ∉ s'.history)
    {h : H} {ct : ChainTempDb U} (hct : s'.tempdb.lookup h = some ct)
    (hbranch : h = s'.stableUnitHash ∨
      ∃ u, unitAt s'.chainUnits h = some u ∧ s'.stableUnitHeight < N.number u) :
    ∃ us, Path N s'.chainUnits s'.stableUnitHash us h ∧
      N.savedUnits s'.db us = some (s'.view ct.tempdb) := by
  have hs' : Faithful N S s' := by
    refine run_preserves ?_ (Faithful.newMemDag hN hS hdb) hrun
    intro op hop t t' ht hstep hsuffix
    exact ht.step hN (hops op hop) hstep (fun w hw => hmain w (hsuffix.subset hw))
      fun w hw => hfork w (hsuffix.subset hw)
  obtain ⟨us, hpath⟩ : ∃ us, Path N s'.chainUnits s'.stableUnitHash us h := by
    rcases hbranch with rfl | ⟨u, hu, hnumber⟩
    · exact ⟨[], .nil⟩
    · exact hs'.rooted.exists_path hN hs'.irreversible hu hnumber
  obtain ⟨ov, hov, ws, hws, hget, -⟩ := hs'.branches.tip h ct us hct hpath
  refine ⟨us, hpath, ?_⟩
  rw [hov.view, hget]
  exact savedUnits_of_branchWrites hws

/-! ### Two branches over a unit that has become stable -/

namespace TwoBranches

open SmallDag

/-- A full node. -/
def full : Node Block BlockHash :=
  node false 0 []

/-- A unit after the stable unit with number 1. -/
def block (path : List ℕ) : Block :=
  { path := path ++ [5] }

/-- Two branches over unit 6. Unit 8, with a group signature, makes itself stable with units 6 and 7
and is followed by another two branches. -/
def ops : List (Op Block BlockHash) :=
  [.addUnit (block [6]) false, .addUnit (block [7, 6]) false, .addUnit (block [70, 6]) false,
    .addUnit { block [8, 7, 6] with groupSign := [1] } false, .goroutine 0,
    .addUnit (block [9, 8, 7, 6]) false, .addUnit (block [90, 8, 7, 6]) false,
    .addUnit (block [91, 90, 8, 7, 6]) false]

/-- The temporary database of unit 91 is that of units 90 and 91 over unit 8. -/
theorem branch_state : ∃ s' ct, (newMemDag full (store (block [])) (block [])).run full ops =
    some s' ∧ s'.stableUnitHash = full.hash (block [8, 7, 6]) ∧
    s'.tempdb.lookup (full.hash (block [91, 90, 8, 7, 6])) = some ct ∧
    ∃ us, Path full s'.chainUnits s'.stableUnitHash us (full.hash (block [91, 90, 8, 7, 6])) ∧
      full.savedUnits s'.db us = some (s'.view ct.tempdb) := by
  have hrun : ((newMemDag full (store (block [])) (block [])).run full ops).map
      (fun s => (s.history.filterMap Event.failed?, s.stableUnitHash, s.stableUnitHeight,
        (s.tempdb.lookup (full.hash (block [91, 90, 8, 7, 6]))).isSome,
        unitAt s.chainUnits (full.hash (block [91, 90, 8, 7, 6])))) =
      some ([], full.hash (block [8, 7, 6]), 4, true, some (block [91, 90, 8, 7, 6])) := by
    decide +kernel
  obtain ⟨s', hs', hresult⟩ := map_eq_some_iff.1 hrun
  simp only [Prod.mk.injEq] at hresult
  obtain ⟨hfailed, hhash, hheight, htip, hunit⟩ := hresult
  obtain ⟨ct, hct⟩ := isSome_iff_exists.1 htip
  refine ⟨s', ct, hs', hhash, hct, ?_⟩
  refine fork_state (SmallDag.chained false 0 []) rfl (by decide +kernel) ?_ hs'
    (fun w => notMem_of_failed hfailed rfl) (fun w => notMem_of_failed hfailed rfl) hct
    (.inr ⟨_, hunit, ?_⟩)
  · simp [ops, Op.Adds, node, block]
  · rw [hheight]
    decide

end TwoBranches

end ZwsChain.Memunit
