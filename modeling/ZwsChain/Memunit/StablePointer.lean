import ZwsChain.Memunit.Calls

/-!
# The stable pointer and the newest unit of the database

The mem DAG keeps the hash and the height of the stable unit in memory, next to the record of the
newest unit in the stable database. Making units stable and `AddStableUnit` update the pointer
after the save succeeded. `SaveHeader` updates it first and then tries to save, so a header that is
refused leaves the two apart (`HeaderRefused.pointer_ahead`).

`MemDag.stable_pointer_iff`: over a run with units of the chain's token, the two agree in every
state exactly if every header that `SaveHeader` was called with was saved or was the stable one.
-/

open List Option

namespace ZwsChain.Memunit

open MemDag
open Lib (applyWrites forall_prefix_iff)
open Lib.Keyed (lookup_of_insert)

variable {U H : Type} [DecidableEq H]

/-- The pointer in memory is the newest unit of the database. -/
def MemDag.Agrees (N : Node U H) (s : MemDag U H) : Prop :=
  Node.getNewestUnit s.db N.token = some (s.stableUnitHash, s.stableUnitHeight)

/-- The units that a call brings are of the chain's token. -/
def Op.OfToken (N : Node U H) : Op U H → Prop
  | .addUnit u _ => N.getAssetId u = N.token
  | .setUnitGroupSign _ _ => True
  | .saveHeader header => N.getAssetId header = N.token
  | .addStableUnit u => N.getAssetId u = N.token
  | .goroutine _ => True

/-- A header that `SaveHeader` is called with is saved or is the stable one already. -/
def Op.HeaderSaved (N : Node U H) (s : MemDag U H) : Op U H → Prop
  | .saveHeader header => (N.saveNewestHeader s.db header).1 = true ∨
      (N.hash header = s.stableUnitHash ∧ N.number header = s.stableUnitHeight)
  | _ => True

/-- The units of the mem DAG are of its token, and the pointer agrees with the database. -/
structure PointerInv (N : Node U H) (s : MemDag U H) : Prop where
  known : ∀ v, s.Known v → N.getAssetId v = N.token
  orphans : ∀ k v, s.orphanUnits.lookup k = some v → N.getAssetId v = N.token
  agrees : Node.getNewestUnit s.db N.token = some (s.stableUnitHash, s.stableUnitHeight)

namespace PointerInv

variable {N : Node U H} {s s' : MemDag U H} {u : U} {ok : Bool}

/-! ### Making units stable -/

section

variable (h : PointerInv N s)
include h

lemma saveStable (hu : N.getAssetId u = N.token)
    (hsave : s.saveStable N u = some (s', ok)) : PointerInv N s' := by
  obtain ⟨ws, hws, ⟨rfl, rfl⟩ | ⟨rfl, rfl⟩⟩ := saveStable_cases hsave
  · exact { h with agrees := (Node.getNewestUnit_of_save_false hws N.token).trans h.agrees }
  refine { h with known := ?_, agrees := hu ▸ Node.getNewestUnit_of_save hws }
  rintro v (⟨k, hv⟩ | ⟨k, hv⟩)
  · exact h.known v (.inl ⟨k, (Part.erase _ _).unitAt hv⟩)
  · exact h.known v (.inr ⟨k, hv⟩)

lemma setStableUnit {hash : H} {height : ℕ}
    (hstable : s.setStableUnit N hash height = some (s', ok)) : PointerInv N s' := by
  obtain ⟨rfl, -⟩ | ⟨v, s₁, -, hv, hnext, hprune⟩ := setStableUnit_cases hstable
  · exact h
  have hs₁ : PointerInv N s₁ := by
    refine setNextStableUnit_preserves (D := fun v => N.getAssetId v = N.token)
      (fun t t' w b ht hw hsave => ht.saveStable hw hsave) ?_ (h.known v (.inl ⟨_, hv⟩)) h hnext
    intro k w hw
    exact h.known w (.inl ⟨k, hw⟩)
  obtain ⟨-, rfl⟩ | ⟨-, left, hleft, rfl⟩ := hprune
  · exact hs₁
  refine { hs₁ with known := ?_ }
  rintro w (⟨k, hw⟩ | ⟨k, hw⟩)
  · exact hs₁.known w (.inl ⟨k, (removeForks_spec hleft).1.unitAt hw⟩)
  · exact hs₁.known w (.inr ⟨k, hw⟩)

/-! ### Adding units -/

lemma attach (hu : N.getAssetId u = N.token) {isGenerate : Bool}
    {added : MemDag.Added} (hattach : s.attach N u isGenerate = some (s', added)) :
    PointerInv N s' := by
  obtain ⟨-, -, rfl⟩ | ⟨-, temps, history, rfl, -⟩ |
    ⟨-, -, temps, tempdb, ct, last, history, s₁, rfl, htempdb, hct, h'⟩ :=
      attach_cases hattach
  · refine { h with orphans := ?_ }
    intro k v hv
    obtain ⟨-, rfl⟩ | ⟨-, hv⟩ := lookup_of_insert hv
    · exact hu
    · exact h.orphans k v hv
  · exact { h with }
  have hunit : ∀ v, ct.unit = some v → N.getAssetId v = N.token := by
    intro v hv
    obtain ⟨hct, -⟩ | ⟨hct, -⟩ := hct
    · obtain rfl : u = v := some.inj (hct.symm.trans hv)
      exact hu
    · exact h.known v (hct v hv)
  have hs₁ : PointerInv N { s with
      temps, tempdb, history
      chainUnits := s.chainUnits.insert (N.hash u) ct
      lastMainChainUnit := last } := by
    refine { h with known := ?_ }
    rintro v (⟨k, hv⟩ | ⟨k, hv⟩)
    · obtain ⟨-, hv⟩ | hv := unitAt_of_insert hv
      · exact hunit v hv
      · exact h.known v (.inl ⟨k, hv⟩)
    obtain ⟨ct', hct', hv'⟩ := unitAt_eq_some.1 hv
    rcases htempdb k ct' hct' with hold | rfl
    · exact h.known v (.inr ⟨k, unitAt_eq_some.2 ⟨ct', hold, hv'⟩⟩)
    · exact hunit v hv'
  obtain rfl | ⟨tempDB, b, hcheck⟩ := h'
  · exact hs₁
  obtain rfl | ⟨v, -, hstable⟩ := checkStableCondition_cases hcheck
  · exact hs₁
  · exact hs₁.setStableUnit hstable

lemma takeOrphan (hash : H) : PointerInv N (s.takeOrphan hash).1 := by
  obtain ⟨orphanUnits, orphanUnitsParants, heq, horphans, -⟩ := takeOrphan_frame s hash
  rw [heq]
  exact { h with orphans := fun k w hw => h.orphans k w (horphans k w hw) }

/-! ### The calls -/

lemma addUnit (hu : N.getAssetId u = N.token) {isGenerate : Bool}
    (hadd : s.addUnit N u isGenerate = some s') : PointerInv N s' := by
  obtain rfl | ⟨added, -, -, hfrom⟩ := addUnit_cases hadd
  · exact h
  refine addUnitFrom_preserves (P := fun _ v => N.getAssetId v = N.token)
    (fun t v t' a ht hv hattach => ht.attach hv hattach) ?_
    (fun t hash ht => ht.takeOrphan hash) (fun t v ht => { ht with }) h hu hfrom
  intro t v t₁ t₂ w ht hv hattach htaken
  obtain ⟨next, -, hw, -⟩ := takeOrphan_some htaken
  exact (ht.attach hv hattach).orphans next w hw

lemma addStableUnit (hu : N.getAssetId u = N.token)
    (hadd : s.addStableUnit N u = some s') : PointerInv N s' := by
  unfold MemDag.addStableUnit at hadd
  split_ifs at hadd
  · exact (some.inj hadd) ▸ h
  obtain ⟨⟨ok, ws⟩, hws, hadd⟩ := do_eq_some.1 hadd
  cases ok with
  | false =>
    obtain rfl := some.inj hadd
    exact { h with agrees := (Node.getNewestUnit_of_save_false hws N.token).trans h.agrees }
  | true =>
    obtain rfl := some.inj hadd
    exact { h with agrees := hu ▸ Node.getNewestUnit_of_save hws }

/-- After `SaveHeader` the two agree exactly if the header was saved or was the stable one. -/
lemma agrees_saveHeader_iff (hu : N.getAssetId u = N.token) :
    (s.saveHeader N u).Agrees N ↔ (Op.saveHeader u : Op U H).HeaderSaved N s := by
  have hsave : N.saveNewestHeader s.db u =
      if N.Follows (s.stableUnitHash, s.stableUnitHeight) u then
        (true, N.saveHeader u ++ N.setNewestUnit u) else (false, []) := by
    unfold Node.saveNewestHeader
    rw [hu, h.agrees]
  unfold MemDag.Agrees saveHeader Op.HeaderSaved
  simp only [hsave]
  split_ifs
  · rw [Lib.applyWrites_append]
    simp [Node.setNewestUnit, Node.getNewestUnit, hu]
  · simp only [Lib.applyWrites_nil, h.agrees, false_or, some.injEq, Prod.mk.injEq]
    exact and_congr eq_comm eq_comm

lemma step {op : Op U H} (hop : op.OfToken N)
    (hstep : s.step N op = some s') (hgood : op.HeaderSaved N s) : PointerInv N s' := by
  cases op with
  | addUnit u isGenerate => exact h.addUnit hop hstep
  | setUnitGroupSign uHash groupSign =>
    obtain ⟨rfl, -⟩ | ⟨v, s₁, ok, hv, -, hstable, h'⟩ := setUnitGroupSign_cases hstep
    · exact h
    have hs₁ := h.setStableUnit hstable
    obtain ⟨-, rfl⟩ | ⟨-, rfl⟩ := h'
    · exact hs₁
    · exact { hs₁ with
        agrees := (Node.getNewestUnit_saveHeader_only _ _ _).trans hs₁.agrees }
  | saveHeader header =>
    obtain rfl := some.inj hstep
    exact { h with agrees := (h.agrees_saveHeader_iff hop).2 hgood }
  | addStableUnit u => exact h.addStableUnit hop hstep
  | goroutine i =>
    obtain rfl | ⟨g, -, rfl⟩ := step_goroutine_cases hstep
    · exact h
    cases g with
    | delHeightUnitsAndTemp height =>
      refine { h with known := ?_ }
      rintro v (⟨k, hv⟩ | ⟨k, hv⟩)
      · exact h.known v (.inl ⟨k, hv⟩)
      obtain ⟨ct, hct, hv'⟩ := unitAt_eq_some.1 hv
      refine h.known v (.inr ⟨k, unitAt_eq_some.2 ⟨ct, ?_, hv'⟩⟩)
      exact lookup_of_foldl_erase hct
    | removeLowOrphanUnit lessThan =>
      exact { h with
        orphans := fun k u hu =>
          h.orphans k u (lookup_of_foldl_erase (p := fun _ => False) hu) }

end

lemma newMemDag {S : U} {db : Kv U H} (hS : N.getAssetId S = N.token)
    (hdb : Node.getNewestUnit db N.token = some (N.hash S, N.number S)) :
    PointerInv N (Memunit.newMemDag N db S) where
  known := by
    rintro v (⟨k, hv⟩ | ⟨k, hv⟩)
    · exact (unitAt_of_singleton hv).2 ▸ hS
    · exact (unitAt_of_singleton hv).2 ▸ hS
  orphans := by simp [Memunit.newMemDag]
  agrees := hdb

end PointerInv

/-- Over every run with units of the chain's token, the pointer in memory agrees with the newest
unit of the database in all states exactly if each header that `SaveHeader` was called with was
saved or was the stable one. -/
theorem MemDag.stable_pointer_iff {N : Node U H} {S : U} {db : Kv U H} {ops : List (Op U H)}
    (hS : N.getAssetId S = N.token)
    (hdb : Node.getNewestUnit db N.token = some (N.hash S, N.number S))
    (hops : ∀ op ∈ ops, op.OfToken N) :
    (∀ pre, pre <+: ops → ∀ s', (newMemDag N db S).run N pre = some s' → s'.Agrees N) ↔
      ∀ pre op, pre ++ [op] <+: ops → ∀ s₁ s', (newMemDag N db S).run N pre = some s₁ →
        s₁.step N op = some s' → op.HeaderSaved N s₁ := by
  refine forall_prefix_iff (I := PointerInv N) (V := fun _ => True) (fun _ _ _ _ => trivial)
    (fun s hs => hs.agrees) ?_ ?_ (PointerInv.newMemDag hS hdb)
  · intro op hop s s' hs hstep _ hgood
    exact hs.step (hops op hop) hstep hgood
  intro op hop s s' hs hstep _ hagrees
  cases op with
  | saveHeader header =>
    obtain rfl := some.inj hstep
    exact (hs.agrees_saveHeader_iff (hops _ hop)).1 hagrees
  | _ => trivial

/-! ### A header that is refused -/

namespace HeaderRefused

open SmallDag

/-- A light node. -/
def light : Node Block BlockHash :=
  node true 0 []

/-- The stable unit. -/
def stable : Block :=
  { path := [5] }

/-- A header with number 4, two after a child of the stable unit. -/
def ahead : Block :=
  { path := [9, 8, 7, 5] }

/-- The pointer is at the header, the newest unit of the database is the stable unit. -/
theorem pointer_ahead : ∃ s', (newMemDag light (store stable) stable).run light
    [.saveHeader ahead] = some s' ∧
      (s'.stableUnitHash, s'.stableUnitHeight) = (light.hash ahead, 4) ∧
      Node.getNewestUnit s'.db light.token = some (light.hash stable, 1) :=
  ⟨_, rfl, rfl, by decide +kernel⟩

/-- A header after the stable unit, then a unit after the header; the header comes again. -/
def ops : List (Op Block BlockHash) :=
  [.saveHeader { path := [6, 5] }, .saveHeader { path := [6, 5] },
    .addStableUnit { path := [7, 6, 5] }]

/-- The pointer and the database agree at the end of this run, at unit 7. -/
theorem pointers_agree : ∃ s', (newMemDag light (store stable) stable).run light ops = some s' ∧
    s'.stableUnitHash = some [7, 6, 5] ∧ s'.Agrees light := by
  have hrun : ((newMemDag light (store stable) stable).run light ops).map
      stableUnitHash = some (some [7, 6, 5]) := by decide +kernel
  obtain ⟨s', hs', hhash⟩ := map_eq_some_iff.1 hrun
  refine ⟨s', hs', hhash, ?_⟩
  refine (stable_pointer_iff rfl (by decide +kernel) ?_).2 ?_ ops prefix_rfl s' hs'
  · simp [ops, Op.OfToken, light, node]
  intro pre op hpre s₁ s₂ hs₁ _
  rcases pre with _ | ⟨first, _ | ⟨second, pre⟩⟩
  · obtain rfl : op = .saveHeader { path := [6, 5] } := by simpa [ops] using hpre
    obtain rfl := some.inj hs₁
    exact .inl (by decide +kernel)
  · obtain ⟨rfl, rfl⟩ : first = .saveHeader { path := [6, 5] } ∧
        op = .saveHeader { path := [6, 5] } := by simpa [ops] using hpre
    obtain rfl := some.inj hs₁
    exact .inr (by decide +kernel)
  obtain ⟨-, -, hpre⟩ : first = .saveHeader { path := [6, 5] } ∧
      second = .saveHeader { path := [6, 5] } ∧
        pre ++ [op] <+: [.addStableUnit { path := [7, 6, 5] }] := by
    simpa [ops] using hpre
  obtain ⟨rfl, rfl⟩ : pre = [] ∧ op = .addStableUnit { path := [7, 6, 5] } := by
    cases pre with
    | nil => simpa using hpre
    | cons third pre => simp at hpre
  trivial

end HeaderRefused

end ZwsChain.Memunit
