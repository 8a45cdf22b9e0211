import ZwsChain.Memunit.Calls

/-!
# Irreversible units and pruning

Over every run, the units saved to the stable database form one chain after the first stable unit,
and whenever a unit is made stable only its strict descendants stay in the mem DAG, apart from the
genesis unit (`MemDag.irreversible`). Saves may fail on the way, also in the middle of a chain of
ancestors: the next saves then fail as well, because a unit is only saved after its parent.

The exception are forks: `addUnit` ignores that a fork unit could not be saved and keeps it in the
mem DAG under its own hash with another unit in its place. In `ForkLeftBehind.left_behind` such an
entry survives the pruning.
-/

open List Option AList

namespace ZwsChain.Memunit

open MemDag
open Lib (applyWrites)
open Lib.Keyed (lookup_of_insert)

variable {U H : Type} [DecidableEq H]

/-- A hash fixes the number and the parent of a unit, and the number is the parent's plus one. -/
structure Node.Chained (N : Node U H) : Prop where
  number_hash : ∀ u v, N.hash u = N.hash v → N.number u = N.number v
  parent_hash : ∀ u v, N.hash u = N.hash v → N.parent u = N.parent v
  number_parent : ∀ u v, N.parent u = N.hash v → N.number u = N.number v + 1

/-- The unit that an event saved to the stable database. -/
def Event.persisted? : Event U H → Option U
  | .persisted u => some u
  | _ => none

/-- The units that were saved to the stable database, latest first. -/
def MemDag.persistedUnits (s : MemDag U H) : List U :=
  s.history.filterMap Event.persisted?

/-- Everything but the genesis unit is a strict descendant of the unit. -/
def Pruned (N : Node U H) (hash : H) (left : Units U H) : Prop :=
  ∀ k ct, left.lookup k = some ct → ∃ u, ct.unit = some u ∧
    (N.number u = 0 ∨ ∃ us, us ≠ [] ∧ Path N left hash us k)

/-- What holds between the calls if no fork unit failed to be saved; `S` is the first stable
unit. -/
structure Irreversible (N : Node U H) (S : U) (s : MemDag U H) : Prop where
  keyed : ∀ k ct, s.chainUnits.lookup k = some ct →
    ∃ u, ct.unit = some u ∧ N.hash u = k ∧ N.getAssetId u = N.token
  orphans : ∀ k u, s.orphanUnits.lookup k = some u → N.getAssetId u = N.token
  /-- A unit above the stable one has not lost its parent. -/
  linked : ∀ k u, unitAt s.chainUnits k = some u → N.parent u ∈ s.chainUnits ∨
    N.parent u = s.stableUnitHash ∨ N.number u ≤ s.stableUnitHeight
  newest : Node.getNewestUnit s.db N.token = some (s.stableUnitHash, s.stableUnitHeight)
  chain : (s.persistedUnits ++ [S]).IsChain fun later earlier =>
    N.Follows (N.hash earlier, N.number earlier) later
  stable : ∃ v, (s.persistedUnits ++ [S]).head? = some v ∧ N.hash v = s.stableUnitHash ∧
    N.number v = s.stableUnitHeight
  pruned : ∀ hash left, .stabilised hash left ∈ s.history → Pruned N hash left

namespace Irreversible

variable {N : Node U H} {S : U} {s s' : MemDag U H} {u : U} {ok : Bool}
variable {k : H} {v : U} {fuel : ℕ} {added : MemDag.Added} {isGenerate : Bool}

/-- What is left over a stable unit is made of paths from it. -/
lemma exists_path_of_linked {left : Units U H} {hash : H} {height : ℕ} (hN : N.Chained)
    (hpos : 0 < height)
    (hkeyed : ∀ k w, unitAt left k = some w → N.hash w = k)
    (hunits : ∀ k, k ∈ left → ∃ w, unitAt left k = some w)
    (hleft : ∀ k w, unitAt left k = some w → N.number w ≠ 0 →
      height < N.number w ∧ (N.parent w = hash ∨ N.parent w ∈ left))
    {w : U} (hw : unitAt left k = some w) (hzero : N.number w ≠ 0) :
    ∃ us, us ≠ [] ∧ Path N left hash us k := by
  induction hn : N.number w generalizing k w with
  | zero => exact absurd hn hzero
  | succ n ih =>
    obtain ⟨hheight, hparent⟩ := hleft k w hw hzero
    obtain rfl := hkeyed k w hw
    rcases hparent with hparent | hparent
    · refine ⟨[] ++ [w], by simp, .snoc ?_ hw⟩
      rw [hparent]
      exact .nil
    obtain ⟨v, hv⟩ := hunits _ hparent
    have hnumber := hN.number_parent w v (hkeyed _ v hv).symm
    obtain ⟨us, -, hpath⟩ := ih hv (by omega) (by omega)
    exact ⟨us ++ [w], by simp, .snoc hpath hw⟩

variable (hN : N.Chained) (h : Irreversible N S s)
include h

lemma unit (hv : unitAt s.chainUnits k = some v) :
    N.hash v = k ∧ N.getAssetId v = N.token := by
  obtain ⟨ct, hct, hunit⟩ := unitAt_eq_some.1 hv
  obtain ⟨w, hw, hkey, htoken⟩ := h.keyed k ct hct
  obtain rfl : v = w := some.inj (hunit.symm.trans hw)
  exact ⟨hkey, htoken⟩

lemma exists_unit (hk : k ∈ s.chainUnits) :
    ∃ v, unitAt s.chainUnits k = some v := by
  obtain ⟨ct, hct⟩ := isSome_iff_exists.1 (lookup_isSome.2 hk)
  obtain ⟨v, hv, -⟩ := h.keyed k ct hct
  exact ⟨v, unitAt_eq_some.2 ⟨ct, hct, hv⟩⟩

lemma takeOrphan (hash : H) : Irreversible N S (s.takeOrphan hash).1 := by
  obtain ⟨orphanUnits, orphanUnitsParants, heq, horphans, -⟩ := takeOrphan_frame s hash
  rw [heq]
  exact { h with orphans := fun k w hw => h.orphans k w (horphans k w hw) }

variable (hu : N.getAssetId u = N.token)
include hu

lemma addOrphan : Irreversible N S (s.addOrphan N u) := by
  refine { h with orphans := ?_ }
  intro k w hw
  obtain ⟨-, rfl⟩ | ⟨-, hw⟩ := lookup_of_insert hw
  · exact hu
  · exact h.orphans k w hw

/-- A unit is attached to the mem DAG. -/
lemma grow (hparent : s.Attachable N u) (temps : List (Tempdb U H)) (tempdb : Units U H) (last : U)
    {ct : ChainTempDb U} (hct : ct.unit = some u) :
    Irreversible N S { s with
      temps, tempdb
      chainUnits := s.chainUnits.insert (N.hash u) ct
      lastMainChainUnit := last } := by
  refine { h with keyed := ?_, linked := ?_ }
  · intro k ct' hk
    obtain ⟨rfl, rfl⟩ | ⟨-, hk⟩ := lookup_of_insert hk
    · exact ⟨u, hct, rfl, hu⟩
    · exact h.keyed k ct' hk
  · intro k w hw
    obtain ⟨-, hw⟩ | hw := unitAt_of_insert hw
    · obtain rfl := some.inj (hw.symm.trans hct)
      exact hparent.imp (fun hmem => (mem_insert _).2 (.inr hmem)) .inl
    · exact (h.linked k w hw).imp_left fun hmem => (mem_insert _).2 (.inr hmem)

/-! ### Making units stable -/

/-- A unit that becomes stable is a child of the stable unit. -/
lemma follows {ws : Writes U H} (hsave : N.saveUnitToDb s.db u = some (true, ws)) :
    N.Follows (s.stableUnitHash, s.stableUnitHeight) u := by
  obtain ⟨newest, data, hnewest, hfollows, -⟩ := Node.saveUnitToDb_eq_true hsave
  rw [hu, h.newest] at hnewest
  obtain rfl := some.inj hnewest
  exact hfollows

include hN

lemma saveStable (hsave : s.saveStable N u = some (s', ok)) : Irreversible N S s' := by
  obtain ⟨ws, hws, ⟨rfl, rfl⟩ | ⟨rfl, rfl⟩⟩ := saveStable_cases hsave
  · exact { h with
      newest := (Node.getNewestUnit_of_save_false hws N.token).trans h.newest
      pruned := fun hash left hmem => h.pruned hash left (by simpa using hmem) }
  have hfollows := h.follows hu hws
  obtain ⟨v, hhead, hhash, hnumber⟩ := h.stable
  have hpart := Part.erase s.chainUnits (N.hash u)
  exact { h with
    keyed := fun k ct hct => h.keyed k ct (hpart k ct hct)
    linked := by
      intro k w hw
      rcases h.linked k w (hpart.unitAt hw) with hmem | hstable | hle
      · by_cases hparent : N.parent w = N.hash u
        · exact .inr (.inl hparent)
        · exact .inl (mem_erase.2 ⟨hparent, hmem⟩)
      · have hw := hN.number_parent w v (hstable.trans hhash.symm)
        exact .inr (.inr (by rw [hw, hnumber, ← hfollows.2]))
      · exact .inr (.inr (by rw [hfollows.2]; exact Nat.le_succ_of_le hle))
    newest := hu ▸ Node.getNewestUnit_of_save hws
    chain := by
      refine isChain_cons.2 ⟨?_, h.chain⟩
      intro w hw
      obtain rfl : v = w := some.inj (hhead.symm.trans hw)
      rw [hhash, hnumber]
      exact hfollows
    stable := ⟨u, rfl, rfl, rfl⟩
    pruned := fun hash left hmem => h.pruned hash left (by simpa using hmem) }

lemma setNextStableUnit
    (hnext : setNextStableUnit N s.chainUnits fuel u s = some (s', ok)) :
    Irreversible N S s' ∧ Part s'.chainUnits s.chainUnits := by
  refine ⟨setNextStableUnit_preserves (D := fun v => N.getAssetId v = N.token) ?_
    (fun k v hv => (h.unit hv).2) hu h hnext, (setNextStableUnit_frame hnext).2.1⟩
  intro t t' v b ht hv hsave
  exact ht.saveStable hN hv hsave

omit hu in
/-- Saving the ancestors of a unit and pruning keep the invariant. If the unit became stable, what
is left is above it. -/
lemma setStableUnit
    (hstable : s.setStableUnit N (N.hash v) (N.number v) = some (s', ok)) :
    Irreversible N S s' ∧ (ok = true → s'.stableUnitHash = N.hash v ∧
      s'.stableUnitHeight = N.number v ∧ Pruned N (N.hash v) s'.chainUnits ∧
      ∀ k w, unitAt s'.chainUnits k = some w → N.number w ≠ 0 → N.number v < N.number w) := by
  obtain ⟨rfl, rfl⟩ | ⟨w, s₁, hheight, hw, hnext, hprune⟩ := setStableUnit_cases hstable
  · exact ⟨h, by simp⟩
  obtain ⟨hhash, htoken⟩ := h.unit hw
  have hnumber := hN.number_hash w v hhash
  obtain ⟨hs₁, hpart⟩ := h.setNextStableUnit hN htoken hnext
  obtain ⟨rfl, rfl⟩ | ⟨rfl, left, hleft, rfl⟩ := hprune
  · exact ⟨hs₁, by simp⟩
  obtain ⟨s₀, hlast⟩ := saveStable_of_setNextStableUnit hnext
  obtain ⟨ws, -, ⟨⟨⟩, -⟩ | ⟨-, rfl⟩⟩ := saveStable_cases hlast
  obtain ⟨hsub, hlow, hclosed⟩ := removeForks_spec hleft
  -- what is left is above the stable unit and has kept its parent
  have habove : ∀ k x, unitAt left k = some x → N.number x ≠ 0 →
      N.number v < N.number x ∧ (N.parent x = N.hash v ∨ N.parent x ∈ left) := by
    intro k x hx hzero
    have hx₁ := hsub.unitAt hx
    have hkey := (hs₁.unit hx₁).1
    have hne : N.hash x ≠ N.hash v := by
      intro heq
      rw [← hkey, heq, ← hhash] at hx₁
      simp at hx₁
    have hgt : N.number v < N.number x := by
      by_contra hle
      refine hzero (hlow k x (hpart.unitAt hx₁) (by omega) hne x ?_)
      rwa [hkey]
    refine ⟨hgt, ?_⟩
    rcases hs₁.linked k x hx₁ with hmem | hparent | hle
    · exact .inr (hclosed k x hx hzero hmem)
    · exact .inl (hparent.trans hhash)
    · simp only at hle
      omega
  have hkeyed : ∀ k ct, left.lookup k = some ct →
      ∃ u, ct.unit = some u ∧ N.hash u = k ∧ N.getAssetId u = N.token :=
    fun k ct hct => hs₁.keyed k ct (hsub k ct hct)
  have hpruned : Pruned N (N.hash v) left := by
    intro k ct hct
    obtain ⟨x, hx, -⟩ := hkeyed k ct hct
    refine ⟨x, hx, ?_⟩
    by_cases hzero : N.number x = 0
    · exact .inl hzero
    refine .inr (exists_path_of_linked hN (Nat.zero_lt_of_lt hheight)
      (fun k w hw => (hs₁.unit (hsub.unitAt hw)).1) ?_ habove
      (unitAt_eq_some.2 ⟨ct, hct, hx⟩) hzero)
    intro k hk
    obtain ⟨ct, hct⟩ := isSome_iff_exists.1 (lookup_isSome.2 hk)
    obtain ⟨x, hx, -⟩ := hkeyed k ct hct
    exact ⟨x, unitAt_eq_some.2 ⟨ct, hct, hx⟩⟩
  refine ⟨?_, fun _ => ⟨hhash, hnumber, hpruned, fun k w hw hzero => (habove k w hw hzero).1⟩⟩
  exact { hs₁ with
    keyed := hkeyed
    linked := by
      intro k x hx
      by_cases hzero : N.number x = 0
      · exact .inr (.inr (by rw [hzero]; exact Nat.zero_le _))
      rcases (habove k x hx hzero).2 with hparent | hmem
      · exact .inr (.inl (hparent.trans hhash.symm))
      · exact .inl hmem
    pruned := by
      intro hash left' hmem
      rcases mem_cons.1 hmem with heq | hmem
      · obtain ⟨rfl, rfl⟩ := Event.stabilised.inj heq
        exact hpruned
      · exact hs₁.pruned hash left' hmem }

omit hu in
lemma checkStableCondition {tempDB : ChainTempDb U}
    (hcheck : s.checkStableCondition N tempDB u = some (s', ok)) : Irreversible N S s' := by
  obtain rfl | ⟨v, -, hstable⟩ := checkStableCondition_cases hcheck
  · exact h
  · exact (h.setStableUnit hN hstable).1

/-! ### Adding units -/

lemma attach (hattach : s.attach N u isGenerate = some (s', added))
    (hfork : ∀ w, .forkFailed w ∉ s'.history) : Irreversible N S s' := by
  obtain ⟨-, -, rfl⟩ | ⟨-, temps, history, rfl, rfl | rfl⟩ |
    ⟨-, hparent, temps, tempdb, ct, last, history, s₁, rfl, -, hhistory, h'⟩ :=
      attach_cases hattach
  · exact h.addOrphan hu
  · exact { h with }
  · exact { h with pruned := fun hash left hmem => h.pruned hash left (by simpa using hmem) }
  obtain ⟨hct, rfl⟩ | ⟨-, rfl⟩ := hhistory
  · have hgrow := h.grow hu hparent temps tempdb last hct
    obtain rfl | ⟨tempDB, b, hcheck⟩ := h'
    · exact hgrow
    · exact hgrow.checkStableCondition hN hcheck
  refine absurd ?_ (hfork u)
  obtain rfl | ⟨tempDB, b, hcheck⟩ := h'
  · simp
  · exact (checkStableCondition_history hcheck).subset (by simp)

lemma addUnitFrom
    (hfrom : addUnitFrom N isGenerate fuel u s = some (s', added))
    (hfork : ∀ w, .forkFailed w ∉ s'.history) : Irreversible N S s' := by
  refine addUnitFrom_preserves_of_history (P := fun _ v => N.getAssetId v = N.token)
    ?_ ?_ (fun t hash ht => ht.takeOrphan hash) (fun t v ht => { ht with }) h hu hfrom
  · intro t v t' a ht hv hattach hsuffix
    exact ht.attach hN hv hattach fun w hw => hfork w (hsuffix.subset hw)
  intro t v t₁ t₂ w ht hv hattach hsuffix htaken
  have ht₁ := ht.attach hN hv hattach fun w hw => hfork w (hsuffix.subset hw)
  obtain ⟨next, -, hw, -⟩ := takeOrphan_some htaken
  exact ht₁.orphans next w hw

/-! ### Runs -/

end Irreversible

/-- A call of the mem DAG's own: a unit of its token is added, a group signature arrives, or a
goroutine runs. -/
def Op.Own (N : Node U H) : Op U H → Prop
  | .addUnit u _ => N.getAssetId u = N.token
  | .setUnitGroupSign _ _ => True
  | .goroutine _ => True
  | _ => False

namespace Irreversible

variable {N : Node U H} {S : U} {s s' : MemDag U H}

lemma runGoroutine (h : Irreversible N S s) (g : Goroutine) :
    Irreversible N S (s.runGoroutine N g) := by
  cases g with
  | delHeightUnitsAndTemp height => exact { h with }
  | removeLowOrphanUnit lessThan =>
    exact { h with
      orphans := fun k u hu => h.orphans k u (lookup_of_foldl_erase (p := fun _ => False) hu) }

lemma step (hN : N.Chained) (h : Irreversible N S s) {op : Op U H} (hop : op.Own N)
    (hstep : s.step N op = some s') (hfork : ∀ w, .forkFailed w ∉ s'.history) :
    Irreversible N S s' := by
  cases op with
  | addUnit u isGenerate =>
    obtain rfl | ⟨added, -, -, hfrom⟩ := addUnit_cases hstep
    · exact h
    · exact h.addUnitFrom hN hop hfrom hfork
  | setUnitGroupSign uHash groupSign =>
    obtain ⟨rfl, -⟩ | ⟨v, s₁, ok, hv, -, hstable, h'⟩ := setUnitGroupSign_cases hstep
    · exact h
    obtain ⟨rfl, -⟩ := h.unit hv
    have hs₁ := (h.setStableUnit hN hstable).1
    obtain ⟨-, rfl⟩ | ⟨-, rfl⟩ := h'
    · exact hs₁
    · exact { hs₁ with
        newest := (Node.getNewestUnit_saveHeader_only _ _ _).trans hs₁.newest }
  | saveHeader | addStableUnit => exact hop.elim
  | goroutine i =>
    obtain rfl | ⟨g, -, rfl⟩ := step_goroutine_cases hstep
    · exact h
    · refine runGoroutine ?_ g
      exact { h with }

lemma newMemDag {db : Kv U H} (hS : N.getAssetId S = N.token)
    (hdb : Node.getNewestUnit db N.token = some (N.hash S, N.number S)) :
    Irreversible N S (Memunit.newMemDag N db S) where
  keyed := by
    intro k ct hct
    obtain ⟨rfl, rfl⟩ := lookup_of_singleton hct
    exact ⟨S, rfl, rfl, hS⟩
  orphans := by simp [Memunit.newMemDag]
  linked := by
    intro k u hu
    obtain ⟨-, rfl⟩ := unitAt_of_singleton hu
    exact .inr (.inr le_rfl)
  newest := hdb
  chain := isChain_singleton S
  stable := ⟨S, rfl, rfl, rfl⟩
  pruned := by simp [Memunit.newMemDag]

end Irreversible

/-- Over every run from a stable unit, the persisted units form one chain above it, each a child of
the one before with the next number; and whenever a unit was made stable, everything that was left
in the mem DAG, except the genesis unit, was a strict descendant of it. No fork unit may have failed
to be saved. -/
theorem MemDag.irreversible {N : Node U H} {S : U} {db : Kv U H} {ops : List (Op U H)}
    {s' : MemDag U H} (hN : N.Chained) (hS : N.getAssetId S = N.token)
    (hdb : Node.getNewestUnit db N.token = some (N.hash S, N.number S))
    (hops : ∀ op ∈ ops, op.Own N) (hrun : (newMemDag N db S).run N ops = some s')
    (hfork : ∀ w, .forkFailed w ∉ s'.history) :
    (s'.persistedUnits ++ [S]).IsChain
        (fun later earlier => N.hash earlier ∈ N.parentHash later ∧
          N.number later = N.number earlier + 1) ∧
      ∀ hash left, .stabilised hash left ∈ s'.history → Pruned N hash left := by
  have h : Irreversible N S s' := by
    refine run_preserves ?_ (Irreversible.newMemDag hS hdb) hrun
    intro op hop t t' ht hstep hsuffix
    exact ht.step hN (hops op hop) hstep fun w hw => hfork w (hsuffix.subset hw)
  exact ⟨h.chain, h.pruned⟩

/-! ### A fork that pruning leaves behind -/

lemma SmallDag.chained (saveHeaderOnly : Bool) (threshold : ℕ) (confirmed : List ℕ) :
    (node saveHeaderOnly threshold confirmed).Chained where
  number_hash u v h := by
    obtain h : u.path = v.path := some.inj h
    simp [node, h]
  parent_hash u v h := by
    obtain h : u.path = v.path := some.inj h
    simp [node, h]
  number_parent u v h := by
    change u.path.tail? = some v.path at h
    cases hu : u.path with
    | nil => simp [hu] at h
    | cons x path =>
      rw [hu] at h
      obtain rfl : path = v.path := some.inj h
      simp [node, hu]

/-- The unit of an event that could not be saved. -/
def Event.failed? : Event U H → Option U
  | .stableFailed u => some u
  | .mainFailed u => some u
  | .forkFailed u => some u
  | _ => none

omit [DecidableEq H] in
/-- If no unit failed to be saved, the history has none of the events. -/
lemma notMem_of_failed {history : List (Event U H)} (h : history.filterMap Event.failed? = [])
    {e : Event U H} (he : e.failed?.isSome) : e ∉ history := by
  intro hmem
  rw [filterMap_eq_nil_iff.1 h e hmem] at he
  simp at he

/-- What an event made stable, with the unit that it left under a hash. -/
def Event.leftAt (h : H) : Event U H → Option (H × Option U)
  | .stabilised hash left => some (hash, unitAt left h)
  | _ => none

namespace ForkLeftBehind

open SmallDag

/-- A light node. -/
def light : Node Block BlockHash :=
  node true 0 []

/-- A unit after the stable unit with number 1. -/
def block (path : List ℕ) : Block :=
  { path := path ++ [5] }

/-- A unit of another token on unit 7. -/
def foreign : Block :=
  { block [80, 7, 6] with token := ⟨List.replicate 16 7, rfl⟩ }

/-- Units 6, 7 and 8 extend the main chain and unit 6 becomes stable. A fork on unit 7 cannot be
saved, for there is no newest unit of its token. Then unit 7 becomes stable. -/
def ops : List (Op Block BlockHash) :=
  [.addUnit (block [6]) false, .addUnit (block [7, 6]) false, .addUnit (block [8, 7, 6]) false,
    .setUnitGroupSign (light.hash (block [6])) [1], .addUnit foreign false,
    .setUnitGroupSign (light.hash (block [7, 6])) [1]]

/-- Unit 7 has been made stable and is still in the mem DAG, under the hash of the fork. -/
theorem left_behind : ∃ s' left, (newMemDag light (store (block [])) (block [])).run light ops =
    some s' ∧ .stabilised (light.hash (block [7, 6])) left ∈ s'.history ∧
      ¬Pruned light (light.hash (block [7, 6])) left := by
  have hleft : ((newMemDag light (store (block [])) (block [])).run light ops).map
      (fun s => s.history.head?.bind (Event.leftAt (light.hash foreign))) =
        some (some (light.hash (block [7, 6]), some (block [7, 6]))) := by decide +kernel
  obtain ⟨s', hs', hevent⟩ := map_eq_some_iff.1 hleft
  obtain ⟨event, hhead, hevent⟩ := do_eq_some.1 hevent
  cases event with
  | stabilised hash left =>
    obtain ⟨rfl, hunit⟩ := Prod.mk.inj (some.inj hevent)
    refine ⟨s', left, hs', mem_of_mem_head? hhead, ?_⟩
    intro hpruned
    obtain ⟨ct, hct, hseven⟩ := unitAt_eq_some.1 hunit
    obtain ⟨u, hu, hzero | ⟨us, hne, hpath⟩⟩ := hpruned _ ct hct
    · obtain rfl : block [7, 6] = u := some.inj (hseven.symm.trans hu)
      simp [light, node, block] at hzero
    obtain ⟨us₁, v, -, hhash, hv, -⟩ := hpath.exists_last hne
    obtain rfl : block [7, 6] = v := some.inj (hunit.symm.trans hv)
    simp [light, node, block, foreign] at hhash
  | _ => simp [Event.leftAt] at hevent

/-- With a fork of the chain's own token, unit 6 and then unit 7 are persisted, and of the units 7,
8 and 60 only 8 is left. -/
theorem persisted_chain : ∃ s', (newMemDag light (store (block [])) (block [])).run light
      [.addUnit (block [6]) false, .addUnit (block [7, 6]) false, .addUnit (block [8, 7, 6]) false,
        .addUnit (block [60]) false, .setUnitGroupSign (light.hash (block [7, 6])) [1]] = some s' ∧
    s'.persistedUnits = [block [7, 6], block [6]] ∧
    s'.chainUnits.keys = [light.hash (block [8, 7, 6])] ∧
    ((s'.persistedUnits ++ [block []]).IsChain
        (fun later earlier => light.hash earlier ∈ light.parentHash later ∧
          light.number later = light.number earlier + 1) ∧
      ∀ hash left, .stabilised hash left ∈ s'.history → Pruned light hash left) := by
  have hrun : ((newMemDag light (store (block [])) (block [])).run light
      [.addUnit (block [6]) false, .addUnit (block [7, 6]) false, .addUnit (block [8, 7, 6]) false,
        .addUnit (block [60]) false, .setUnitGroupSign (light.hash (block [7, 6])) [1]]).map
      (fun s => (s.persistedUnits, s.chainUnits.keys, s.history.filterMap Event.failed?)) =
        some ([block [7, 6], block [6]], [light.hash (block [8, 7, 6])], []) := by
    decide +kernel
  obtain ⟨s', hs', hresult⟩ := map_eq_some_iff.1 hrun
  simp only [Prod.mk.injEq] at hresult
  obtain ⟨hpersisted, hkeys, hfork⟩ := hresult
  refine ⟨s', hs', hpersisted, hkeys, ?_⟩
  refine irreversible (SmallDag.chained true 0 []) rfl (by decide +kernel) ?_ hs' ?_
  · simp [Op.Own, light, node, block]
  · exact fun w => notMem_of_failed hfork rfl

end ForkLeftBehind

end ZwsChain.Memunit
