import ZwsChain.Memunit.Tree

/-!
# What the operations of the mem DAG can do

One inversion lemma for each operation, and induction rules for the two recursions: what saving one
unit preserves is preserved by `setNextStableUnit`, and what attaching one unit preserves is
preserved by `addUnitFrom`.
-/

open List Option

namespace ZwsChain.Memunit.MemDag

open Lib (applyWrites)
open Lib.Keyed (lookup_of_erase lookup_of_insert)

variable {U H : Type} [DecidableEq H]
variable {N : Node U H} {s s' : MemDag U H} {u : U} {ok : Bool}

/-! ### Making a unit stable -/

lemma saveStable_cases (h : s.saveStable N u = some (s', ok)) :
    ∃ ws, N.saveUnitToDb s.db u = some (ok, ws) ∧
      ((ok = false ∧ s' =
        { s with db := applyWrites s.db ws, history := .stableFailed u :: s.history }) ∨
      (ok = true ∧ s' = { s with
        db := applyWrites s.db ws
        chainUnits := s.chainUnits.erase (N.hash u)
        stableUnitHash := N.hash u
        stableUnitHeight := N.number u
        history := .persisted u :: s.history })) := by
  obtain ⟨⟨ok, ws⟩, hsave, h⟩ := do_eq_some.1 h
  cases ok with
  | false =>
    cases h
    exact ⟨ws, hsave, .inl ⟨rfl, rfl⟩⟩
  | true =>
    cases h
    exact ⟨ws, hsave, .inr ⟨rfl, rfl⟩⟩

variable {chainUnits : Units U H} {fuel height : ℕ} {I : MemDag U H → Prop} {hash uHash : H}
  {v : U} {tempDB ct ct' : ChainTempDb U} {added : Added} {isGenerate : Bool} {us : List U}
  {groupSign : Bytes}

/-- The last unit that is saved is the one that was asked for. -/
lemma setNextStableUnit_cases (h : setNextStableUnit N chainUnits fuel u s = some (s', ok)) :
    (N.hash u = s.stableUnitHash ∧ s' = s ∧ ok = false) ∨
    (N.hash u ≠ s.stableUnitHash ∧ N.parent u ∉ chainUnits ∧ s.saveStable N u = some (s', ok)) ∨
    ∃ fuel' v s₁ b, fuel = fuel' + 1 ∧ N.hash u ≠ s.stableUnitHash ∧
      unitAt chainUnits (N.parent u) = some v ∧
      setNextStableUnit N chainUnits fuel' v s = some (s₁, b) ∧
      s₁.saveStable N u = some (s', ok) := by
  cases fuel with
  | zero => simp [setNextStableUnit] at h
  | succ fuel =>
    unfold setNextStableUnit at h
    split_ifs at h with hstable
    · cases h
      exact .inl ⟨hstable, rfl, rfl⟩
    split at h
    · rename_i hlookup
      exact .inr (.inl ⟨hstable, AList.lookup_eq_none.1 hlookup, h⟩)
    rename_i ct hlookup
    obtain ⟨v, hv, h⟩ := do_eq_some.1 h
    obtain ⟨⟨s₁, b⟩, hrec, h⟩ := do_eq_some.1 h
    exact .inr (.inr ⟨fuel, v, s₁, b, rfl, hstable, unitAt_eq_some.2 ⟨ct, hlookup, hv⟩, hrec, h⟩)

lemma saveStable_of_setNextStableUnit
    (h : setNextStableUnit N chainUnits fuel u s = some (s', true)) :
    ∃ s₀, saveStable N s₀ u = some (s', true) := by
  obtain ⟨-, -, h⟩ | ⟨-, -, h⟩ | ⟨-, -, s₁, -, -, -, -, -, h⟩ := setNextStableUnit_cases h
  · simp at h
  · exact ⟨s, h⟩
  · exact ⟨s₁, h⟩

/-- What holds after each save holds after all of them. -/
lemma setNextStableUnit_preserves {D : U → Prop}
    (hsave : ∀ s s' u ok, I s → D u → s.saveStable N u = some (s', ok) → I s')
    (hD : ∀ h v, unitAt chainUnits h = some v → D v) (hu : D u) (hs : I s)
    (h : setNextStableUnit N chainUnits fuel u s = some (s', ok)) : I s' := by
  induction fuel generalizing u s' ok with
  | zero => simp [setNextStableUnit] at h
  | succ fuel ih =>
    obtain ⟨-, rfl, -⟩ | ⟨-, -, h⟩ | ⟨fuel', v, s₁, b, hfuel, -, hv, hrec, h⟩ :=
      setNextStableUnit_cases h
    · exact hs
    · exact hsave s s' u ok hs hu h
    · obtain rfl : fuel = fuel' := Nat.succ.inj hfuel
      exact hsave s₁ s' u ok (ih (hD _ v hv) hrec) hu h

/-- Nothing becomes stable; or the unit is saved with its ancestors, and if that succeeds the mem
DAG is pruned. -/
lemma setStableUnit_cases (h : s.setStableUnit N hash height = some (s', ok)) :
    (s' = s ∧ ok = false) ∨
    ∃ v s₁, s.stableUnitHeight < height ∧ unitAt s.chainUnits hash = some v ∧
      setNextStableUnit N s.chainUnits (depth N s.chainUnits + N.number v + 1) v s =
        some (s₁, ok) ∧
      ((ok = false ∧ s' = s₁) ∨ (ok = true ∧ ∃ left,
        removeForks N hash height s.chainUnits s₁.chainUnits = some left ∧
        s' = { s₁ with
          chainUnits := left
          goroutines := s₁.goroutines ++
            [.delHeightUnitsAndTemp height, .removeLowOrphanUnit height]
          history := .stabilised hash left :: s₁.history })) := by
  unfold setStableUnit at h
  split_ifs at h with hheight
  · split at h
    · cases h
      exact .inl ⟨rfl, rfl⟩
    rename_i ct hlookup
    obtain ⟨v, hv, h⟩ := do_eq_some.1 h
    obtain ⟨⟨s₁, b⟩, hnext, h⟩ := do_eq_some.1 h
    refine .inr ⟨v, s₁, hheight, unitAt_eq_some.2 ⟨ct, hlookup, hv⟩, ?_⟩
    cases b with
    | false =>
      cases h
      exact ⟨hnext, .inl ⟨rfl, rfl⟩⟩
    | true =>
      obtain ⟨left, hleft, h⟩ := do_eq_some.1 h
      cases h
      exact ⟨hnext, .inr ⟨rfl, left, hleft, rfl⟩⟩
  · cases h
    exact .inl ⟨rfl, rfl⟩

lemma setNextStableUnit_false
    (h : setNextStableUnit N chainUnits fuel u s = some (s', false)) :
    N.hash u = s.stableUnitHash ∧ s' = s ∨ ∃ w, .stableFailed w ∈ s'.history := by
  obtain ⟨heq, rfl, -⟩ | ⟨-, -, hsave⟩ | ⟨-, -, s₂, -, -, -, -, -, hsave⟩ :=
    setNextStableUnit_cases h
  · exact .inl ⟨heq, rfl⟩
  all_goals
    obtain ⟨ws, -, ⟨-, rfl⟩ | ⟨⟨⟩, -⟩⟩ := saveStable_cases hsave
    exact .inr ⟨u, by simp⟩

/-- If nothing became stable although no save failed, nothing happened. -/
lemma setStableUnit_false (h : s.setStableUnit N hash height = some (s', false)) :
    s' = s ∨ ∃ w, .stableFailed w ∈ s'.history := by
  obtain ⟨rfl, -⟩ | ⟨v, s₁, -, -, hnext, ⟨-, rfl⟩ | ⟨hfalse, -⟩⟩ := setStableUnit_cases h
  · exact .inl rfl
  · exact (setNextStableUnit_false hnext).imp_left And.right
  · simp at hfalse

/-- A unit above the stable one does not become stable only if a save fails. -/
lemma exists_stableFailed (hv : unitAt s.chainUnits hash = some v)
    (hlt : s.stableUnitHeight < height) (hne : N.hash v ≠ s.stableUnitHash)
    (h : s.setStableUnit N hash height = some (s', false)) : ∃ w, .stableFailed w ∈ s'.history := by
  obtain ⟨ct, hct, hunit⟩ := unitAt_eq_some.1 hv
  unfold setStableUnit at h
  rw [if_neg (by simpa using hlt)] at h
  simp only [hct, hunit, do_some] at h
  obtain ⟨⟨s₁, ok⟩, hnext, h⟩ := do_eq_some.1 h
  cases ok with
  | true =>
    obtain ⟨left, -, h⟩ := do_eq_some.1 h
    simp at h
  | false =>
    obtain rfl : s₁ = s' := (Prod.mk.inj (some.inj h)).1
    exact (setNextStableUnit_false hnext).resolve_left fun heq => hne heq.1

/-- The temporary databases, the orphans and the main chain are the same. -/
structure Frame (s t : MemDag U H) : Prop where
  temps : t.temps = s.temps
  tempdb : t.tempdb = s.tempdb
  orphanUnits : t.orphanUnits = s.orphanUnits
  orphanUnitsParants : t.orphanUnitsParants = s.orphanUnitsParants
  heightHashs : t.heightHashs = s.heightHashs
  lastMainChainUnit : t.lastMainChainUnit = s.lastMainChainUnit

lemma saveStable_frame (h : s.saveStable N u = some (s', ok)) :
    Frame s s' ∧ Part s'.chainUnits s.chainUnits ∧ s'.goroutines = s.goroutines := by
  obtain ⟨ws, -, ⟨-, rfl⟩ | ⟨-, rfl⟩⟩ := saveStable_cases h
  · exact ⟨⟨rfl, rfl, rfl, rfl, rfl, rfl⟩, Part.refl _, rfl⟩
  · exact ⟨⟨rfl, rfl, rfl, rfl, rfl, rfl⟩, Part.erase _ _, rfl⟩

lemma setNextStableUnit_frame (h : setNextStableUnit N chainUnits fuel u s = some (s', ok)) :
    Frame s s' ∧ Part s'.chainUnits s.chainUnits ∧ s'.goroutines = s.goroutines := by
  refine setNextStableUnit_preserves
    (I := fun t => Frame s t ∧ Part t.chainUnits s.chainUnits ∧ t.goroutines = s.goroutines)
    (D := fun _ => True) ?_ (fun _ _ _ => trivial) trivial
    ⟨⟨rfl, rfl, rfl, rfl, rfl, rfl⟩, Part.refl _, rfl⟩ h
  rintro t t' v b ⟨ht, hpart, hgo⟩ - hsave
  obtain ⟨ht', hpart', hgo'⟩ := saveStable_frame hsave
  exact ⟨⟨ht'.temps.trans ht.temps, ht'.tempdb.trans ht.tempdb,
    ht'.orphanUnits.trans ht.orphanUnits, ht'.orphanUnitsParants.trans ht.orphanUnitsParants,
    ht'.heightHashs.trans ht.heightHashs, ht'.lastMainChainUnit.trans ht.lastMainChainUnit⟩,
    hpart'.trans hpart, hgo'.trans hgo⟩

lemma setStableUnit_frame (h : s.setStableUnit N hash height = some (s', ok)) :
    Frame s s' ∧ Part s'.chainUnits s.chainUnits ∧ ∀ n, .delHeightUnitsAndTemp n ∈ s'.goroutines →
      .delHeightUnitsAndTemp n ∈ s.goroutines ∨ (ok = true ∧ n = height) := by
  obtain ⟨rfl, -⟩ | ⟨v, s₁, -, -, hnext, h⟩ := setStableUnit_cases h
  · exact ⟨⟨rfl, rfl, rfl, rfl, rfl, rfl⟩, Part.refl _, fun n hn => .inl hn⟩
  obtain ⟨hframe, hpart, hgo⟩ := setNextStableUnit_frame hnext
  obtain ⟨-, rfl⟩ | ⟨rfl, left, hleft, rfl⟩ := h
  · exact ⟨hframe, hpart, fun n hn => .inl (hgo ▸ hn)⟩
  refine ⟨⟨hframe.temps, hframe.tempdb, hframe.orphanUnits, hframe.orphanUnitsParants,
    hframe.heightHashs, hframe.lastMainChainUnit⟩, (removeForks_spec hleft).1.trans hpart, ?_⟩
  intro n hn
  rcases mem_append.1 hn with hn | hn
  · exact .inl (hgo ▸ hn)
  simp only [mem_cons, Goroutine.delHeightUnitsAndTemp.injEq, reduceCtorEq,
    not_mem_nil, or_false] at hn
  exact .inr ⟨rfl, hn⟩

/-- Nothing happens, or the new unit or the header that is stored under some number above the
stable one is made stable. -/
lemma checkStableCondition_cases (h : s.checkStableCondition N tempDB u = some (s', ok)) :
    s' = s ∨ ∃ v, (v = u ∨ ∃ n, s.stableUnitHeight < n ∧
        Node.getHeaderByNumber (s.view tempDB.tempdb) (N.getAssetId u) n = some v) ∧
      s.setStableUnit N (N.hash v) (N.number v) = some (s', ok) := by
  unfold checkStableCondition at h
  split_ifs at h
  · exact .inr ⟨u, .inl rfl, h⟩
  split at h
  · exact .inl (Prod.mk.inj (some.inj h)).1.symm
  rename_i n _
  split_ifs at h with hn
  · split at h
    · exact .inl (Prod.mk.inj (some.inj h)).1.symm
    · rename_i header hheader
      exact .inr ⟨header, .inr ⟨n, hn, hheader⟩, h⟩
  · exact .inl (Prod.mk.inj (some.inj h)).1.symm

lemma checkStableCondition_part (h : s.checkStableCondition N tempDB u = some (s', ok)) :
    Part s'.chainUnits s.chainUnits := by
  obtain rfl | ⟨v, -, hstable⟩ := checkStableCondition_cases h
  · exact Part.refl _
  · exact (setStableUnit_frame hstable).2.1

/-! ### Attaching a unit -/

lemma tempAddUnit_eq_some (h : s.tempAddUnit N ct u = some (s', ct', ok)) :
    ∃ ws, N.saveUnitToDb (s.view ct.tempdb) u = some (ok, ws) ∧ s' = s.writeTemp ct.tempdb ws ∧
      ct' = if ok then ⟨ct.tempdb, some u⟩ else ct := by
  obtain ⟨⟨b, ws⟩, hsave, h⟩ := do_eq_some.1 h
  obtain ⟨rfl, rfl, rfl⟩ := h
  exact ⟨ws, hsave, rfl, rfl⟩

lemma mainTemp_cases (parentHash : H) :
    (∃ ct, s.tempdb.lookup parentHash = some ct ∧ s.mainTemp parentHash = (s, ct, true)) ∨
    (s.tempdb.lookup parentHash = none ∧ s.mainTemp parentHash =
      ({ s with temps := s.temps ++
          [⟨.empty, (s.chainUnits.lookup parentHash).map ChainTempDb.tempdb⟩] },
        ⟨s.temps.length, none⟩, false)) := by
  unfold mainTemp
  cases s.tempdb.lookup parentHash with
  | none => exact .inr ⟨rfl, rfl⟩
  | some ct => exact .inl ⟨ct, rfl, rfl⟩

/-- The unit is refused; or it cannot be saved; or it is attached, and if the end of the main chain
had a temporary database it becomes the end of the main chain and may make units stable. -/
lemma addMainUnit_cases {s₁ : MemDag U H} {has : Bool}
    (htemp : s.mainTemp (N.parent u) = (s₁, ct, has))
    (h : s.addMainUnit N u isGenerate = some (s', added)) :
    (added = .error ∧ s' = s₁) ∨
    (added = .error ∧ ∃ ws, N.saveUnitToDb (s₁.view ct.tempdb) u = some (false, ws) ∧
      s' = { s₁.writeTemp ct.tempdb ws with history := .mainFailed u :: s₁.history }) ∨
    (added = .attached ∧ ∃ ws, N.saveUnitToDb (s₁.view ct.tempdb) u = some (true, ws) ∧
      ((has = false ∧ s' = { s₁.writeTemp ct.tempdb ws with
          tempdb := s₁.tempdb.insert (N.hash u) ⟨ct.tempdb, some u⟩
          chainUnits := s₁.chainUnits.insert (N.hash u) ⟨ct.tempdb, some u⟩ }) ∨
      (has = true ∧ ∃ b, ({ s₁.writeTemp ct.tempdb ws with
          tempdb := (s₁.tempdb.insert (N.hash u) ⟨ct.tempdb, some u⟩).erase (N.parent u)
          chainUnits := s₁.chainUnits.insert (N.hash u) ⟨ct.tempdb, some u⟩
          lastMainChainUnit := u } : MemDag U H).checkStableCondition N ⟨ct.tempdb, some u⟩ u =
            some (s', b)))) := by
  unfold addMainUnit at h
  rw [htemp] at h
  simp only at h
  split at h
  · cases h
    exact .inl ⟨rfl, rfl⟩
  obtain ⟨⟨s₂, ct', ok⟩, hadd, h⟩ := do_eq_some.1 h
  obtain ⟨ws, hsave, rfl, rfl⟩ := tempAddUnit_eq_some hadd
  cases ok with
  | false =>
    cases h
    exact .inr (.inl ⟨rfl, ws, hsave, rfl⟩)
  | true =>
    cases has with
    | false =>
      cases h
      exact .inr (.inr ⟨rfl, ws, hsave, .inl ⟨rfl, rfl⟩⟩)
    | true =>
      obtain ⟨⟨s₃, b⟩, hcheck, h⟩ := do_eq_some.1 h
      cases h
      exact .inr (.inr ⟨rfl, ws, hsave, .inr ⟨rfl, b, hcheck⟩⟩)

/-- The unit is refused, or attached whether it could be saved or not. -/
lemma addForkUnit_cases (h : s.addForkUnit N u isGenerate = some (s', added)) :
    ∃ s₁ ct, s.forkTemp N u = some (s₁, ct) ∧
    ((added = .error ∧ s' = s₁) ∨
    (added = .attached ∧ ∃ ok ws, N.saveUnitToDb (s₁.view ct.tempdb) u = some (ok, ws) ∧
      s' = { s₁.writeTemp ct.tempdb ws with
        tempdb := (s₁.tempdb.erase (N.parent u)).insert (N.hash u)
          (if ok then ⟨ct.tempdb, some u⟩ else ct)
        chainUnits := s₁.chainUnits.insert (N.hash u) (if ok then ⟨ct.tempdb, some u⟩ else ct)
        lastMainChainUnit :=
          if N.number u > N.number s₁.lastMainChainUnit then u else s₁.lastMainChainUnit
        history := if ok then s₁.history else .forkFailed u :: s₁.history })) := by
  obtain ⟨⟨s₁, ct⟩, htemp, h⟩ := do_eq_some.1 h
  refine ⟨s₁, ct, htemp, ?_⟩
  simp only at h
  split_ifs at h with hvalid
  · cases h
    exact .inl ⟨rfl, rfl⟩
  obtain ⟨⟨s₂, ct', ok⟩, hadd, h⟩ := do_eq_some.1 h
  obtain ⟨ws, hsave, rfl, rfl⟩ := tempAddUnit_eq_some hadd
  have hlast : (s₁.writeTemp ct.tempdb ws).lastMainChainUnit = s₁.lastMainChainUnit := rfl
  simp only [hlast] at h
  refine .inr ?_
  by_cases hhigh : N.number u > N.number s₁.lastMainChainUnit
  · rw [if_pos hhigh] at h
    obtain ⟨us, -, h⟩ := do_eq_some.1 h
    cases h
    refine ⟨rfl, ok, ws, hsave, ?_⟩
    rw [if_pos hhigh]
    rfl
  rw [if_neg hhigh] at h
  cases h
  refine ⟨rfl, ok, ws, hsave, ?_⟩
  rw [if_neg hhigh]
  rfl

/-- The temporary databases before and after units were saved to one of them; the reference stays,
and the last unit of the list is the one it now has. -/
lemma replay_frame (h : replay N ct us s = some (s', ct')) :
    (∃ temps, s' = { s with temps }) ∧ ct'.tempdb = ct.tempdb ∧
      ∀ v, ct'.unit = some v → ct.unit = some v ∨ v ∈ us := by
  induction us generalizing ct s with
  | nil =>
    obtain ⟨rfl, rfl⟩ := Prod.mk.inj (some.inj h)
    exact ⟨⟨s.temps, rfl⟩, rfl, fun v hv => .inl hv⟩
  | cons u us ih =>
    obtain ⟨⟨s₁, ct₁, ok⟩, hadd, h⟩ := do_eq_some.1 h
    obtain ⟨ws, -, rfl, rfl⟩ := tempAddUnit_eq_some hadd
    obtain ⟨⟨temps, rfl⟩, hct, hunit⟩ := ih h
    refine ⟨⟨temps, rfl⟩, ?_, ?_⟩
    · rw [hct]
      split_ifs <;> rfl
    intro v hv
    rcases hunit v hv with h | h
    · split_ifs at h
      · obtain rfl : u = v := some.inj h
        exact .inr (by simp)
      · exact .inl h
    · exact .inr (mem_cons_of_mem u h)

lemma unitAt_of_mem_forkUnits {units : Units U H} {n : ℕ} {h : H}
    (hus : forkUnits N units n h = some us) (hv : v ∈ us) : ∃ k, unitAt units k = some v := by
  induction n generalizing h us with
  | zero =>
    obtain rfl : [] = us := some.inj hus
    simp at hv
  | succ n ih =>
    obtain ⟨ct, hct, hus⟩ := do_eq_some.1 hus
    obtain ⟨u, hu, hus⟩ := do_eq_some.1 hus
    obtain ⟨us', hus', hus⟩ := do_eq_some.1 hus
    obtain rfl : us' ++ [u] = us := some.inj hus
    rcases mem_append.1 hv with hv | hv
    · exact ih hus' hv
    · obtain rfl := mem_singleton.1 hv
      exact ⟨h, unitAt_eq_some.2 ⟨ct, hct, hu⟩⟩

/-- A unit that a branch has or that a temporary database was last extended by. -/
def Known (s : MemDag U H) (v : U) : Prop :=
  (∃ k, unitAt s.chainUnits k = some v) ∨ ∃ k, unitAt s.tempdb k = some v

lemma forkTemp_frame (h : s.forkTemp N u = some (s', ct)) :
    (∃ temps, s' = { s with temps }) ∧ ∀ v, ct.unit = some v → s.Known v := by
  unfold forkTemp at h
  split at h
  · rename_i ct₀ hlookup
    obtain ⟨rfl, rfl⟩ := Prod.mk.inj (some.inj h)
    exact ⟨⟨s.temps, rfl⟩, fun v hv => .inr ⟨_, unitAt_eq_some.2 ⟨ct₀, hlookup, hv⟩⟩⟩
  obtain ⟨forks, hforks, h⟩ := do_eq_some.1 h
  obtain ⟨⟨temps, rfl⟩, -, hunit⟩ := replay_frame h
  refine ⟨⟨temps, rfl⟩, ?_⟩
  intro v hv
  rcases hunit v hv with h | h
  · simp at h
  · exact .inl (unitAt_of_mem_forkUnits hforks h)

/-- The parent of the unit is in the mem DAG or is the stable unit. -/
def Attachable (N : Node U H) (s : MemDag U H) (u : U) : Prop :=
  N.parent u ∈ s.chainUnits ∨ N.parent u = s.stableUnitHash

/-- The unit waits for its parent. -/
abbrev addOrphan (N : Node U H) (s : MemDag U H) (u : U) : MemDag U H :=
  { s with
    orphanUnits := s.orphanUnits.insert (N.hash u) u
    orphanUnitsParants := s.orphanUnitsParants.insert (N.parent u) (N.hash u) }

/-- The unit becomes an orphan; or it is refused, which leaves the tables as they are; or it is
attached, after which units may become stable. -/
lemma attach_cases (h : s.attach N u isGenerate = some (s', added)) :
    (added = .orphan ∧ ¬s.Attachable N u ∧ s' = s.addOrphan N u) ∨
    (added = .error ∧ ∃ temps history, s' = { s with temps, history } ∧
      (history = s.history ∨ history = .mainFailed u :: s.history)) ∨
    (added = .attached ∧ s.Attachable N u ∧ ∃ temps tempdb ct last history, ∃ s₁ : MemDag U H,
      s₁ = { s with
        temps, tempdb, history
        chainUnits := s.chainUnits.insert (N.hash u) ct
        lastMainChainUnit := last } ∧
      (∀ k ct', tempdb.lookup k = some ct' → s.tempdb.lookup k = some ct' ∨ ct' = ct) ∧
      ((ct.unit = some u ∧ history = s.history) ∨
        ((∀ v, ct.unit = some v → s.Known v) ∧ history = .forkFailed u :: s.history)) ∧
      (s' = s₁ ∨ ∃ tempDB b, s₁.checkStableCondition N tempDB u = some (s', b))) := by
  have hinsert : ∀ (tempdb : Units U H) (k : H) (ct ct' : ChainTempDb U),
      (tempdb.insert (N.hash u) ct).lookup k = some ct' →
        tempdb.lookup k = some ct' ∨ ct' = ct := by
    intro tempdb k ct ct' hk
    exact (lookup_of_insert hk).symm.imp And.right And.right
  unfold attach at h
  split_ifs at h with hparent hlast
  · refine .inr ?_
    rcases htemp : s.mainTemp (N.parent u) with ⟨s₁, ct, has⟩
    obtain ⟨temps, rfl⟩ : ∃ temps, s₁ = { s with temps } := by
      obtain ⟨ct', -, heq⟩ | ⟨-, heq⟩ := mainTemp_cases (s := s) (N.parent u)
      · exact ⟨s.temps, congrArg Prod.fst (htemp.symm.trans heq)⟩
      · exact ⟨_, congrArg Prod.fst (htemp.symm.trans heq)⟩
    obtain ⟨rfl, rfl⟩ | ⟨rfl, ws, -, rfl⟩ | ⟨rfl, ws, -, ⟨-, rfl⟩ | ⟨-, b, hcheck⟩⟩ :=
      addMainUnit_cases htemp h
    · exact .inl ⟨rfl, _, _, rfl, .inl rfl⟩
    · exact .inl ⟨rfl, _, _, rfl, .inr rfl⟩
    · exact .inr ⟨rfl, hparent, _, _, _, _, _, _, rfl, fun k ct' hk => hinsert _ k _ ct' hk,
        .inl ⟨rfl, rfl⟩, .inl rfl⟩
    refine .inr ⟨rfl, hparent, _, _, _, _, _, _, rfl, ?_, .inl ⟨rfl, rfl⟩, .inr ⟨_, b, hcheck⟩⟩
    intro k ct' hk
    exact hinsert s.tempdb k _ ct' (Part.erase _ _ k ct' hk)
  · refine .inr ?_
    obtain ⟨s₁, ct, htemp, h⟩ := addForkUnit_cases h
    obtain ⟨⟨temps, rfl⟩, hknown⟩ := forkTemp_frame htemp
    obtain ⟨rfl, rfl⟩ | ⟨rfl, ok, ws, hsave, rfl⟩ := h
    · exact .inl ⟨rfl, _, _, rfl, .inl rfl⟩
    refine .inr ⟨rfl, hparent, _, _, _, _, _, _, rfl, ?_, ?_, .inl rfl⟩
    · intro k ct' hk
      rcases hinsert _ k _ ct' hk with h | h
      · exact .inl (Part.erase _ _ k ct' h)
      · exact .inr h
    cases ok with
    | false => exact .inr ⟨hknown, rfl⟩
    | true => exact .inl ⟨rfl, rfl⟩
  · cases h
    exact .inl ⟨rfl, hparent, rfl⟩

lemma attachable_of_attach (h : s.attach N u isGenerate = some (s', .attached)) :
    s.Attachable N u := by
  obtain ⟨hfalse, -⟩ | ⟨hfalse, -⟩ | ⟨-, hparent, -⟩ := attach_cases h
  · simp at hfalse
  · simp at hfalse
  · exact hparent

/-! ### Orphans -/

/-- An orphan that is taken waited for the hash. -/
lemma takeOrphan_some (h : s.takeOrphan hash = (s', some v)) :
    ∃ next, s.orphanUnitsParants.lookup hash = some next ∧ s.orphanUnits.lookup next = some v ∧
      s' = { s with
        orphanUnitsParants := s.orphanUnitsParants.erase hash
        orphanUnits := s.orphanUnits.erase next } := by
  unfold takeOrphan at h
  split at h
  · simp at h
  rename_i next hnext
  simp only at h
  split at h
  · simp at h
  rename_i w hw
  obtain ⟨rfl, hv⟩ := Prod.mk.inj h
  obtain rfl := some.inj hv
  exact ⟨next, hnext, hw, rfl⟩

lemma takeOrphan_none (h : s.takeOrphan hash = (s', none)) :
    s' = { s with orphanUnitsParants := s.orphanUnitsParants.erase hash } ∨ s' = s := by
  unfold takeOrphan at h
  split at h
  · exact .inr (Prod.mk.inj h).1.symm
  simp only at h
  split at h
  · exact .inl (Prod.mk.inj h).1.symm
  · simp at h

/-- Taking an orphan leaves no new entries. -/
lemma takeOrphan_frame (s : MemDag U H) (hash : H) :
    ∃ orphanUnits orphanUnitsParants,
      (s.takeOrphan hash).1 = { s with orphanUnits, orphanUnitsParants } ∧
      (∀ k w, orphanUnits.lookup k = some w → s.orphanUnits.lookup k = some w) ∧
      ∀ k h, orphanUnitsParants.lookup k = some h → s.orphanUnitsParants.lookup k = some h := by
  cases htaken : s.takeOrphan hash with
  | mk s₁ next =>
    cases next with
    | none =>
      obtain rfl | rfl := takeOrphan_none htaken
      · exact ⟨_, _, rfl, fun _ _ hw => hw, fun _ _ hh => (lookup_of_erase hh).2⟩
      · exact ⟨_, _, rfl, fun _ _ hw => hw, fun _ _ hh => hh⟩
    | some v =>
      obtain ⟨next, -, -, rfl⟩ := takeOrphan_some htaken
      exact ⟨_, _, rfl, fun _ _ hw => (lookup_of_erase hw).2, fun _ _ hh => (lookup_of_erase hh).2⟩

variable {P : MemDag U H → U → Prop}

/-- What attaching a unit preserves, adding a unit with the orphans that waited for it does. `P`
is what is known of the unit that is attached. -/
lemma addUnitFrom_preserves
    (hattach : ∀ s u s' added, I s → P s u → s.attach N u isGenerate = some (s', added) → I s')
    (hnext : ∀ s u s₁ s₂ v, I s → P s u → s.attach N u isGenerate = some (s₁, .attached) →
      s₁.takeOrphan (N.hash u) = (s₂, some v) → P s₂ v)
    (htake : ∀ s hash, I s → I (s.takeOrphan hash).1)
    (hheight : ∀ s u, I s → I (s.addUnitHeight N u))
    (hs : I s) (hu : P s u)
    (h : addUnitFrom N isGenerate fuel u s = some (s', added)) : I s' := by
  induction fuel generalizing u s s' added with
  | zero => simp [addUnitFrom] at h
  | succ fuel ih =>
    obtain ⟨⟨s₁, a⟩, hs₁, h⟩ := do_eq_some.1 h
    have hI := hattach s u s₁ a hs hu hs₁
    cases a with
    | error =>
      cases h
      exact hI
    | orphan =>
      cases h
      exact hheight s₁ u hI
    | attached =>
      have hI' := htake s₁ (N.hash u) hI
      cases htaken : s₁.takeOrphan (N.hash u) with
      | mk s₂ next =>
        rw [htaken] at hI'
        simp only [htaken] at h
        cases next with
        | none =>
          cases h
          exact hheight s₂ u hI'
        | some v =>
          obtain ⟨⟨s₃, b⟩, hrec, h⟩ := do_eq_some.1 h
          cases h
          exact hheight s₃ u (ih hI' (hnext s u s₁ s₂ v hs hu hs₁ htaken) hrec)

/-! ### The calls -/

lemma addUnit_cases (h : s.addUnit N u isGenerate = some s') :
    s' = s ∨ ∃ added, s.stableUnitHeight < N.number u ∧ N.hash u ∉ s.chainUnits ∧
      addUnitFrom N isGenerate (s.orphanUnits.keys.length + 1) u s = some (s', added) := by
  unfold addUnit at h
  split_ifs at h with hnumber hmem
  · exact .inl (some.inj h).symm
  · obtain ⟨⟨s₁, added⟩, hfrom, rfl⟩ := map_eq_some_iff.1 h
    exact .inr ⟨added, hnumber, hmem, hfrom⟩
  · exact .inl (some.inj h).symm

lemma setUnitGroupSign_cases (h : s.setUnitGroupSign N uHash groupSign = some s') :
    (s' = s ∧ ∀ v, unitAt s.chainUnits uHash = some v → ¬s.stableUnitHeight < N.number v) ∨
    ∃ v s₁ ok, unitAt s.chainUnits uHash = some v ∧ s.stableUnitHeight < N.number v ∧
      s.setStableUnit N uHash (N.number v) = some (s₁, ok) ∧
      ((ok = false ∧ s' = s₁) ∨ (ok = true ∧ s' =
        { s₁ with db := applyWrites s₁.db (N.saveHeader (N.setGroupSign v groupSign)) })) := by
  unfold setUnitGroupSign at h
  unfold unitAt
  split at h
  · rename_i hlookup
    exact .inl ⟨(some.inj h).symm, by simp [hlookup]⟩
  rename_i ct hlookup
  obtain ⟨v, hv, h⟩ := do_eq_some.1 h
  split_ifs at h with hnumber
  · obtain ⟨⟨s₁, ok⟩, hstable, h⟩ := do_eq_some.1 h
    refine .inr ⟨v, s₁, ok, unitAt_eq_some.2 ⟨ct, hlookup, hv⟩, hnumber, hstable, ?_⟩
    cases ok with
    | false => exact .inl ⟨rfl, (some.inj h).symm⟩
    | true => exact .inr ⟨rfl, (some.inj h).symm⟩
  · exact .inl ⟨(some.inj h).symm, by simpa [hlookup, hv] using hnumber⟩

lemma step_goroutine_cases {i : ℕ} (h : s.step N (.goroutine i) = some s') :
    s' = s ∨ ∃ g ∈ s.goroutines,
      s' = ({ s with goroutines := s.goroutines.eraseIdx i } : MemDag U H).runGoroutine N g := by
  simp only [step] at h
  split at h
  · exact .inl (some.inj h).symm
  · rename_i g hg
    exact .inr ⟨g, mem_of_getElem? hg, (some.inj h).symm⟩

/-! ### The history only grows -/

lemma saveStable_history (h : s.saveStable N u = some (s', ok)) : s.history <:+ s'.history := by
  obtain ⟨ws, -, ⟨-, rfl⟩ | ⟨-, rfl⟩⟩ := saveStable_cases h
  · exact suffix_cons _ _
  · exact suffix_cons _ _

lemma setStableUnit_history (h : s.setStableUnit N hash height = some (s', ok)) :
    s.history <:+ s'.history := by
  obtain ⟨rfl, -⟩ | ⟨v, s₁, -, -, hnext, h⟩ := setStableUnit_cases h
  · exact suffix_rfl
  have hsuffix : s.history <:+ s₁.history := by
    refine setNextStableUnit_preserves (I := fun t => s.history <:+ t.history)
      (D := fun _ => True) ?_ (fun _ _ _ => trivial) trivial suffix_rfl hnext
    intro t t' w ok ht _ hsave
    exact ht.trans (saveStable_history hsave)
  obtain ⟨-, rfl⟩ | ⟨-, left, -, rfl⟩ := h
  · exact hsuffix
  · exact hsuffix.trans (suffix_cons _ _)

lemma checkStableCondition_history (h : s.checkStableCondition N tempDB u = some (s', ok)) :
    s.history <:+ s'.history := by
  obtain rfl | ⟨v, -, h⟩ := checkStableCondition_cases h
  · exact suffix_rfl
  · exact setStableUnit_history h

lemma attach_history (h : s.attach N u isGenerate = some (s', added)) :
    s.history <:+ s'.history := by
  obtain ⟨-, -, rfl⟩ | ⟨-, temps, history, rfl, rfl | rfl⟩ |
    ⟨-, -, temps, tempdb, ct, last, history, s₁, rfl, -, hhistory, h⟩ := attach_cases h
  · exact suffix_rfl
  · exact suffix_rfl
  · exact suffix_cons _ _
  have hsuffix : s.history <:+ history := by
    obtain ⟨-, rfl⟩ | ⟨-, rfl⟩ := hhistory
    · exact suffix_rfl
    · exact suffix_cons _ _
  obtain rfl | ⟨tempDB, b, hcheck⟩ := h
  · exact hsuffix
  · exact hsuffix.trans (checkStableCondition_history hcheck)

lemma takeOrphan_history (hash : H) : (s.takeOrphan hash).1.history = s.history := by
  obtain ⟨orphanUnits, orphanUnitsParants, heq, -⟩ := takeOrphan_frame s hash
  rw [heq]

/-- As `addUnitFrom_preserves`, where the events of each state on the way are among those of the
last one. -/
lemma addUnitFrom_preserves_of_history
    (hattach : ∀ t v t' added, I t → P t v → t.attach N v isGenerate = some (t', added) →
      t'.history <:+ s'.history → I t')
    (hnext : ∀ t v t₁ t₂ w, I t → P t v → t.attach N v isGenerate = some (t₁, .attached) →
      t₁.history <:+ s'.history → t₁.takeOrphan (N.hash v) = (t₂, some w) → P t₂ w)
    (htake : ∀ t hash, I t → I (t.takeOrphan hash).1)
    (hheight : ∀ t v, I t → I (t.addUnitHeight N v))
    (hs : I s) (hu : P s u)
    (h : addUnitFrom N isGenerate fuel u s = some (s', added)) : I s' := by
  refine addUnitFrom_preserves (I := fun t => t.history <:+ s'.history → I t)
    (P := fun t v => t.history <:+ s'.history → P t v) ?_ ?_ ?_ ?_
    (fun _ => hs) (fun _ => hu) h suffix_rfl
  · intro t v t' a ht hv ht' hsuffix
    have hsuffix' := (attach_history ht').trans hsuffix
    exact hattach t v t' a (ht hsuffix') (hv hsuffix') ht' hsuffix
  · intro t v t₁ t₂ w ht hv ht₁ ht₂ hsuffix
    have hhistory := takeOrphan_history (s := t₁) (N.hash v)
    rw [ht₂] at hhistory
    rw [hhistory] at hsuffix
    have hsuffix' := (attach_history ht₁).trans hsuffix
    exact hnext t v t₁ t₂ w (ht hsuffix') (hv hsuffix') ht₁ hsuffix ht₂
  · intro t hash ht hsuffix
    rw [takeOrphan_history] at hsuffix
    exact htake t hash (ht hsuffix)
  · intro t v ht hsuffix
    exact hheight t v (ht hsuffix)

lemma runGoroutine_history (g : Goroutine) : (s.runGoroutine N g).history = s.history := by
  cases g <;> rfl

lemma step_history {op : Op U H} (h : s.step N op = some s') : s.history <:+ s'.history := by
  cases op with
  | addUnit u isGenerate =>
    obtain rfl | ⟨added, -, -, hfrom⟩ := addUnit_cases h
    · exact suffix_rfl
    refine addUnitFrom_preserves (I := fun t => s.history <:+ t.history)
      (P := fun _ _ => True) ?_ (fun _ _ _ _ _ _ _ _ _ => trivial) ?_ ?_
      suffix_rfl trivial hfrom
    · intro t v t' added ht _ hattach
      exact ht.trans (attach_history hattach)
    · intro t hash ht
      rwa [takeOrphan_history]
    · intro t v ht
      exact ht
  | setUnitGroupSign uHash groupSign =>
    obtain ⟨rfl, -⟩ | ⟨v, s₁, ok, -, -, hstable, ⟨-, rfl⟩ | ⟨-, rfl⟩⟩ := setUnitGroupSign_cases h
    · exact suffix_rfl
    · exact setStableUnit_history hstable
    · have hsuffix := setStableUnit_history hstable
      exact hsuffix
  | saveHeader header =>
    obtain rfl := some.inj h
    exact suffix_rfl
  | addStableUnit u =>
    change s.addStableUnit N u = some s' at h
    unfold addStableUnit at h
    split_ifs at h
    · exact (some.inj h) ▸ suffix_rfl
    obtain ⟨⟨ok, ws⟩, -, h⟩ := do_eq_some.1 h
    simp only at h
    split_ifs at h <;> exact (some.inj h) ▸ suffix_rfl
  | goroutine i =>
    obtain rfl | ⟨g, -, rfl⟩ := step_goroutine_cases h
    · exact suffix_rfl
    · exact (congrArg (s.history <:+ ·) (runGoroutine_history g)).mpr suffix_rfl

/-- What each call preserves a run preserves; the events of each state on the way are among those of
the last one. -/
lemma run_preserves {ops : List (Op U H)}
    (hstep : ∀ op ∈ ops, ∀ t t', I t → t.step N op = some t' → t'.history <:+ s'.history → I t')
    (hs : I s) (hrun : s.run N ops = some s') : I s' := by
  refine Lib.foldlM_preserves (I := fun t => t.history <:+ s'.history → I t) ?_
    (fun _ => hs) hrun suffix_rfl
  intro op hop t t' ht ht' hsuffix
  exact hstep op hop t t' (ht ((step_history ht').trans hsuffix)) ht' hsuffix

end ZwsChain.Memunit.MemDag
