import ZwsChain.Contracts.SysConfig

/-!
# Changes of the chain parameters at maintenance

`UpdateSysParams` applies the changes that wait in the system-parameter contract. Each was checked
alone, as a number of 64 bits and against the parameters in force then; it is stored cut to the
width of its field, next to other changes of the same maintenance. So the constraints on the
parameters can be lost: `NewChain.wide_interval` is such a run. `valid_of_careful`: they are kept by
every run in which accepted values fit their fields and values that depend on each other are
changed together.

The poll has no part in this: it is stored as one record and read back as another, which has no
results (`getSysParamsWithVote_eq`).
-/

open List Option

namespace ZwsChain.SysConfig

open ZwsChain.Core

/-! ### Applying the changes -/

/-- Source: `dag/modules/message.go`, `SysSupportResult` -/
structure SysSupportResult where
  topicTitle : String
  voteResults : List SysVoteResult

/-- Source: `dag/modules/message.go`, `SysTokenIDInfo` -/
structure SysTokenIDInfo where
  createAddr : Bytes
  totalSupply : UInt64
  leastNum : UInt64
  createTime : ℤ
  isVoteEnd : Bool
  supportResults : List SysSupportResult

/-- The JSON of the stored poll read as a `SysTokenIDInfo`: fields of the same name are taken,
the others stay zero.
Source: `dag/storage/statedb_config.go`, `GetSysParamsWithVotes` -/
def getSysParamsWithVotes (info : SysTokenInfo) : SysTokenIDInfo where
  createAddr := info.createAddr
  totalSupply := info.totalSupply
  leastNum := info.leastNum
  createTime := 0
  isVoteEnd := false
  supportResults := []

/-- Source: `dag/common/unit_produce_repository.go`, `getSysParamsWithVote` -/
def getSysParamsWithVote (st : State) : AList fun _ : String => Bytes :=
  match st.withVote.map getSysParamsWithVotes with
  | none => ∅
  | some info =>
    if info.isVoteEnd then
      info.supportResults.foldl (fun res v1 =>
        match v1.voteResults.find? fun v2 => v2.num ≥ info.leastNum with
        | some v2 => res.insert v1.topicTitle v2.selectOption
        | none => res) ∅
    else ∅

lemma getSysParamsWithVote_eq (st : State) : getSysParamsWithVote st = ∅ := by
  rw [getSysParamsWithVote]
  cases st.withVote <;> rfl

/-- The order in which Go ranges over a map. -/
structure MapOrder where
  order : List (Sigma fun _ : String => Bytes) → List (Sigma fun _ : String => Bytes)
  perm : ∀ l, (order l).Perm l

section

variable (parseFloat : Bytes → Except NumError UInt64)

/-- A change that fails is logged and left out.
Source: `dag/common/unit_produce_repository.go`, `UpdateSysParams` -/
def applyModify (cp : ChainParameters) (m : Sigma fun _ : String => Bytes) : ChainParameters :=
  match updateChainParameter parseFloat cp m.1 m.2 with
  | .ok cp' => cp'
  | .error _ => cp

/-- The parameters in force and the state of the contract. -/
structure ParamState where
  gp : GlobalProp
  contract : State

/-- Source: `dag/common/unit_produce_repository.go`, `UpdateSysParams` -/
def updateSysParams (ord : MapOrder) (s : ParamState) : ParamState :=
  let modifies := s.contract.withoutVote
  let infos := getSysParamsWithVote s.contract
  let cp := (ord.order modifies.entries).foldl (applyModify parseFloat) s.gp.chainParameters
  { gp := { s.gp with
      chainParameters := (ord.order infos.entries).foldl (applyModify parseFloat) cp }
    contract := ⟨∅, if infos.entries = [] then s.contract.withVote else none⟩ }

/-- What can happen to the parameters. -/
inductive ParamCall where
  | updateSysParamWithoutVote (mediatorCount : ℕ) (createAddr : Bytes) (field : String)
      (value : Bytes)
  | createVotesTokens (c : CreateVotes)
  | nodesVote (c : VoteCall)
  | updateSysParams (ord : MapOrder)

/-- A call that fails or panics leaves the contract as it was. -/
def ParamState.save (s : ParamState) : Option (Except Error State) → ParamState
  | some (.ok st) => ⟨s.gp, st⟩
  | _ => s

/-- One call. -/
def paramStep (s : ParamState) : ParamCall → ParamState
  | .updateSysParamWithoutVote mediatorCount createAddr field value =>
    s.save (SysConfig.updateSysParamWithoutVote parseFloat s.gp mediatorCount createAddr field
      value s.contract)
  | .createVotesTokens c => s.save (SysConfig.createVotesTokens parseFloat s.gp c s.contract)
  | .nodesVote c => s.save (SysConfig.nodesVote c s.contract)
  | .updateSysParams ord => SysConfig.updateSysParams parseFloat ord s

end

/-! ### Fields after the changes -/

/-- The number that a text stands for. -/
def numeral (value : Bytes) : ℕ :=
  (parseUint 64 value).1

/-- The value of an unsigned field as a number. -/
def natOf : (k : Kind) → k.Value → ℕ
  | .uint8, x => x.toNat
  | .uint32, x => x.toNat
  | .uint64, x => x.toNat
  | _, _ => 0

/-- The bits of an unsigned kind. -/
def width : Kind → ℕ
  | .uint8 => 8
  | .uint32 => 32
  | .uint64 => 64
  | _ => 0

section

variable {parseFloat : Bytes → Except NumError UInt64}
variable {value : Bytes} {f : Field} {cp : ChainParameters}
  {l : List (Sigma fun _ : String => Bytes)}

lemma parseUint64_eq {n : ℕ} (h : Kind.parse.parseUint64 value = .ok n) :
    parseUint 64 value = (n, none) := by
  rw [Kind.parse.parseUint64] at h
  split at h
  · rename_i m hm
    rw [hm, Except.ok.inj h]
  · cases h

/-- An unsigned field holds the low bits of the number. -/
lemma natOf_parse {k : Kind} (hk : 0 < width k) {x : k.Value}
    (h : k.parse parseFloat value = .ok x) :
    parseUint 64 value = (numeral value, none) ∧ natOf k x = numeral value % 2 ^ width k := by
  have hread {α : Type} {f : ℕ → α} {y : α} (hy : (Kind.parse.parseUint64 value).map f = .ok y) :
      parseUint 64 value = (numeral value, none) ∧ f (numeral value) = y := by
    cases hn : Kind.parse.parseUint64 value with
    | error e =>
      rw [hn] at hy
      cases hy
    | ok n =>
      have hparse := parseUint64_eq hn
      rw [hn] at hy
      rw [numeral, hparse]
      exact ⟨rfl, Except.ok.inj hy⟩
  cases k with
  | uint8 | uint32 | uint64 =>
    obtain ⟨hparse, rfl⟩ := hread h
    exact ⟨hparse, rfl⟩
  | int | int64 | bool | string | float64 => cases hk

lemma fieldByName_name (f : Field) : fieldByName f.name = some f := by
  cases f <;> decide +kernel

lemma name_of_fieldByName {field : String} (h : fieldByName field = some f) : f.name = field := by
  simpa using find?_some h

/-- A change touches its own field only. -/
lemma applyModify_of_ne {m : Sigma fun _ : String => Bytes} (hne : f.name ≠ m.1) :
    applyModify parseFloat cp m f = cp f := by
  rw [applyModify, updateChainParameter]
  cases hf : fieldByName m.1 with
  | none => rfl
  | some g =>
    have hgf : f ≠ g := fun h => hne (h ▸ name_of_fieldByName hf)
    cases hparse : g.kind.parse parseFloat m.2 with
    | error e => simp [hparse, Except.mapError, Except.map]
    | ok x =>
      simp only [hparse, Except.mapError, Except.map]
      exact Function.update_of_ne hgf x cp

lemma applyModify_of_parse {x : f.kind.Value} (h : f.kind.parse parseFloat value = .ok x) :
    applyModify parseFloat cp ⟨f.name, value⟩ f = x := by
  simp only [applyModify, updateChainParameter, fieldByName_name, h, Except.mapError, Except.map]
  exact Function.update_self f x cp

lemma foldl_applyModify_of_notMem (hl : f.name ∉ l.keys) (cp : ChainParameters) :
    l.foldl (applyModify parseFloat) cp f = cp f := by
  induction l generalizing cp with
  | nil => rfl
  | cons m l ih =>
    rw [keys_cons, mem_cons, not_or] at hl
    rw [foldl_cons, ih hl.2, applyModify_of_ne hl.1]

lemma foldl_applyModify_of_lookup (hl : l.NodupKeys) (hlookup : l.dlookup f.name = some value)
    {x : f.kind.Value} (h : f.kind.parse parseFloat value = .ok x) (cp : ChainParameters) :
    l.foldl (applyModify parseFloat) cp f = x := by
  induction l generalizing cp with
  | nil => cases hlookup
  | cons m l ih =>
    obtain ⟨hm, hl'⟩ := nodupKeys_cons.1 hl
    by_cases hname : f.name = m.1
    · obtain ⟨key, v⟩ := m
      obtain rfl : f.name = key := hname
      rw [dlookup_cons_eq] at hlookup
      obtain rfl := some.inj hlookup
      rw [foldl_cons, foldl_applyModify_of_notMem hm, applyModify_of_parse h]
    · rw [dlookup_cons_ne _ _ hname] at hlookup
      exact ih hl' hlookup _

end

/-! ### Runs that keep the constraints -/

/-- The fields with constraints. -/
def constrained : List Field :=
  [.activeMediatorCount, .mediatorInterval, .maintenanceInterval, .maintenanceSkipSlots]

lemma width_pos : ∀ f ∈ constrained, 0 < width f.kind := by
  decide

/-- The value fits its field, and is not zero for the mediator interval. -/
def Fits (field : String) (value : Bytes) : Prop :=
  ∀ f ∈ constrained, f.name = field →
    numeral value < 2 ^ width f.kind ∧ (f = .mediatorInterval → 0 < numeral value)

namespace ParamState

variable (s : ParamState)

/-- The change of a field that waits. -/
def pending (f : Field) : Option Bytes :=
  s.contract.withoutVote.lookup f.name

/-- The number that a field will hold after the changes that wait. -/
def proposed (f : Field) : ℕ :=
  match s.pending f with
  | some value => numeral value
  | none => natOf f.kind (s.gp.chainParameters f)

/-- The changes that wait go together: with a new mediator interval or new skip slots, the three
intervals fit each other; a new maintenance interval alone was checked against a product that is
below 256. -/
structure Coupled : Prop where
  together : s.pending .mediatorInterval ≠ none ∨ s.pending .maintenanceSkipSlots ≠ none →
    s.proposed .mediatorInterval ∣ s.proposed .maintenanceInterval ∧
    s.proposed .mediatorInterval * s.proposed .maintenanceSkipSlots <
      s.proposed .maintenanceInterval
  alone : s.pending .maintenanceInterval ≠ none →
    s.pending .mediatorInterval = none → s.pending .maintenanceSkipSlots = none →
    s.gp.chainParameters.mediatorInterval.toNat *
      s.gp.chainParameters.maintenanceSkipSlots.toNat < 256

variable (parseFloat : Bytes → Except NumError UInt64)

/-- What is asked of a call. -/
def Careful : ParamCall → Prop
  | .updateSysParamWithoutVote mediatorCount createAddr field value =>
    (∃ st, SysConfig.updateSysParamWithoutVote parseFloat s.gp mediatorCount createAddr field
      value s.contract = some (.ok st)) → Fits field value
  | .updateSysParams _ => s.Coupled
  | _ => True

/-- What is asked of a run. -/
def CarefulRun : ParamState → List ParamCall → Prop
  | _, [] => True
  | s, c :: calls => s.Careful parseFloat c ∧ CarefulRun (paramStep parseFloat s c) calls

/-- What a careful run keeps: the constraints, and that the changes that wait passed the checks
against the parameters in force and fit their fields. -/
structure Sound : Prop where
  valid : s.gp.chainParameters.Valid s.gp.immutableParameters
  checked : ∀ field value, s.contract.withoutVote.lookup field = some value → Fits field value ∧
    ∃ mediatorCount, checkChange parseFloat s.gp mediatorCount field value = some (.ok ())

variable {s parseFloat}
variable {f : Field} {value : Bytes}

lemma checkChange_ok {gp : GlobalProp} {n : ℕ}
    (h : checkChange parseFloat gp n f.name value = some (.ok ())) :
    (∃ x, f.kind.parse parseFloat value = .ok x) ∧
      checkChainParameterValue f.name value gp.immutableParameters gp.chainParameters n =
        some (.ok ()) := by
  rw [checkChange, checkSysConfigArgType, fieldByName_name] at h
  cases hparse : f.kind.parse parseFloat value with
  | error e => simp [hparse, Except.mapError, Except.map] at h
  | ok x =>
    refine ⟨⟨x, rfl⟩, ?_⟩
    simp only [hparse, Except.mapError, Except.map] at h
    obtain ⟨r, hr, hmap⟩ := map_eq_some_iff.1 h
    cases r with
    | error e => cases hmap
    | ok u => exact hr

section

variable (hs : s.Sound parseFloat)
include hs

/-- After the changes a field with constraints holds what was proposed. -/
lemma Sound.natOf_updated (ord : MapOrder) (hf : f ∈ constrained) :
    natOf f.kind ((updateSysParams parseFloat ord s).gp.chainParameters f) = s.proposed f := by
  have hperm := ord.perm s.contract.withoutVote.entries
  have hnodup := (perm_nodupKeys hperm).2 s.contract.withoutVote.nodupKeys
  have hvotes : ord.order (getSysParamsWithVote s.contract).entries = [] := by
    rw [getSysParamsWithVote_eq]
    exact (ord.perm _).eq_nil
  rw [updateSysParams]
  simp only [hvotes, foldl_nil]
  rw [proposed]
  cases hpending : s.pending f with
  | none =>
    rw [foldl_applyModify_of_notMem]
    intro hmem
    have hkeys : f.name ∈ s.contract.withoutVote.entries.keys :=
      (hperm.map Sigma.fst).mem_iff.1 hmem
    exact AList.lookup_eq_none.1 hpending hkeys
  | some value =>
    have hlookup : (ord.order s.contract.withoutVote.entries).dlookup f.name = some value := by
      rw [perm_dlookup f.name hnodup hperm]
      exact hpending
    obtain ⟨hfits, n, hcheck⟩ := hs.checked f.name value hpending
    obtain ⟨⟨x, hx⟩, -⟩ := checkChange_ok hcheck
    rw [foldl_applyModify_of_lookup hnodup hlookup hx, (natOf_parse (width_pos f hf) hx).2]
    exact Nat.mod_eq_of_lt (hfits f hf rfl).1

/-- A change that waits, with its checks. -/
lemma Sound.of_pending (hf : f ∈ constrained)
    (h : s.pending f = some value) :
    parseUint 64 value = (numeral value, none) ∧ numeral value < 2 ^ width f.kind ∧
      (f = .mediatorInterval → 0 < numeral value) ∧
      ∃ n, checkChainParameterValue f.name value s.gp.immutableParameters s.gp.chainParameters n =
        some (.ok ()) := by
  obtain ⟨hfits, n, hcheck⟩ := hs.checked f.name value h
  obtain ⟨⟨x, hx⟩, hvalue⟩ := checkChange_ok hcheck
  obtain ⟨hlt, hpos⟩ := hfits f hf rfl
  exact ⟨(natOf_parse (width_pos f hf) hx).1, hlt, hpos, n, hvalue⟩

lemma Sound.proposed_interval :
    0 < s.proposed .mediatorInterval ∧
      s.gp.immutableParameters.minMediatorInterval.toNat ≤ s.proposed .mediatorInterval := by
  rw [proposed]
  cases hpending : s.pending .mediatorInterval with
  | none => exact ⟨hs.valid.interval_pos, hs.valid.interval_min⟩
  | some value =>
    obtain ⟨-, -, hpos, n, hcheck⟩ := hs.of_pending (by decide) hpending
    refine ⟨hpos rfl, ?_⟩
    rw [checkChainParameterValue, fieldByName_name] at hcheck
    dsimp only at hcheck
    split_ifs at hcheck with hless
    · cases hcheck
    · exact Nat.not_lt.1 hless

lemma Sound.proposed_skipSlots :
    s.gp.immutableParameters.minMaintSkipSlots.toNat ≤ s.proposed .maintenanceSkipSlots := by
  rw [proposed]
  cases hpending : s.pending .maintenanceSkipSlots with
  | none => exact hs.valid.skipSlots_min
  | some value =>
    obtain ⟨-, -, -, n, hcheck⟩ := hs.of_pending (by decide) hpending
    rw [checkChainParameterValue, fieldByName_name] at hcheck
    dsimp only at hcheck
    split_ifs at hcheck with hless
    · cases hcheck
    · exact Nat.not_lt.1 hless

lemma Sound.proposed_active :
    s.proposed .activeMediatorCount % 2 = 1 ∧
      s.gp.immutableParameters.minimumMediatorCount.toNat ≤ s.proposed .activeMediatorCount := by
  rw [proposed]
  cases hpending : s.pending .activeMediatorCount with
  | none => exact ⟨hs.valid.active_odd, hs.valid.active_min⟩
  | some value =>
    obtain ⟨hparse, hlt, -, n, hcheck⟩ := hs.of_pending (by decide) hpending
    -- read with 16 bits the number is the same
    have hnarrow : (parseUint 16 value).1 = numeral value := by
      rw [parseUint_narrow hparse]
      exact min_eq_left (Nat.le_trans hlt.le (by decide))
    rw [checkChainParameterValue, fieldByName_name] at hcheck
    dsimp only at hcheck
    rw [hnarrow] at hcheck
    split_ifs at hcheck with heven hless hmore
    · cases hcheck
    · cases hcheck
    · cases hcheck
    · exact ⟨Nat.mod_two_ne_zero.1 heven, Nat.not_lt.1 hless⟩

lemma Sound.proposed_maintenance (hc : s.Coupled) :
    s.proposed .mediatorInterval ∣ s.proposed .maintenanceInterval ∧
    s.proposed .mediatorInterval * s.proposed .maintenanceSkipSlots <
      s.proposed .maintenanceInterval := by
  by_cases htogether : s.pending .mediatorInterval ≠ none ∨ s.pending .maintenanceSkipSlots ≠ none
  · exact hc.together htogether
  obtain ⟨hinterval, hskip⟩ := not_or.1 htogether
  rw [not_not] at hinterval hskip
  rw [proposed, proposed, proposed, hinterval, hskip]
  cases hpending : s.pending .maintenanceInterval with
  | none => exact ⟨hs.valid.maintenance_dvd, hs.valid.maintenance_gt⟩
  | some value =>
    obtain ⟨-, -, -, n, hcheck⟩ := hs.of_pending (by decide) hpending
    have hproduct := hc.alone (by simp [hpending]) hinterval hskip
    rw [checkChainParameterValue, fieldByName_name] at hcheck
    dsimp only at hcheck
    rw [UInt8.toNat_mul, Nat.mod_eq_of_lt hproduct] at hcheck
    split_ifs at hcheck with hlarger hzero hdvd
    · cases hcheck
    · exact ⟨Nat.dvd_of_mod_eq_zero (not_not.1 hdvd), hlarger⟩
    · cases hcheck

lemma Sound.valid_updated (hc : s.Coupled) (ord : MapOrder) :
    (updateSysParams parseFloat ord s).gp.chainParameters.Valid s.gp.immutableParameters := by
  set cp := (updateSysParams parseFloat ord s).gp.chainParameters
  have hinterval : cp.mediatorInterval.toNat = s.proposed .mediatorInterval :=
    hs.natOf_updated (f := .mediatorInterval) ord (by decide)
  have hskip : cp.maintenanceSkipSlots.toNat = s.proposed .maintenanceSkipSlots :=
    hs.natOf_updated (f := .maintenanceSkipSlots) ord (by decide)
  have hmaintenance : cp.maintenanceInterval.toNat = s.proposed .maintenanceInterval :=
    hs.natOf_updated (f := .maintenanceInterval) ord (by decide)
  have hactive : cp.activeMediatorCount.toNat = s.proposed .activeMediatorCount :=
    hs.natOf_updated (f := .activeMediatorCount) ord (by decide)
  obtain ⟨hdvd, hlt⟩ := hs.proposed_maintenance hc
  constructor
  · rw [hinterval]
    exact hs.proposed_interval.1
  · rw [hinterval]
    exact hs.proposed_interval.2
  · rw [hskip]
    exact hs.proposed_skipSlots
  · rw [hinterval, hmaintenance]
    exact hdvd
  · rw [hmaintenance]
    exact Nat.zero_lt_of_lt hlt
  · rw [hinterval, hskip, hmaintenance]
    exact hlt
  · rw [hactive]
    exact hs.proposed_active.1
  · rw [hactive]
    exact hs.proposed_active.2

lemma Sound.save {r : Option (Except Error State)}
    (hr : ∀ st, r = some (.ok st) → ∀ field value, st.withoutVote.lookup field = some value →
      s.contract.withoutVote.lookup field = some value ∨ Fits field value ∧
        ∃ n, checkChange parseFloat s.gp n field value = some (.ok ())) :
    (s.save r).Sound parseFloat := by
  unfold ParamState.save
  split
  · rename_i st
    refine ⟨hs.valid, fun field value hlookup => ?_⟩
    rcases hr st rfl field value hlookup with hold | hnew
    · exact hs.checked field value hold
    · exact hnew
  · exact hs

lemma Sound.step {c : ParamCall} (hc : s.Careful parseFloat c) :
    (paramStep parseFloat s c).Sound parseFloat := by
  cases c with
  | updateSysParamWithoutVote n createAddr field value =>
    apply hs.save
    intro st hst key v hlookup
    obtain ⟨checked, hcheck, hrest⟩ := Option.map_eq_some_iff.1 hst
    rcases checked with e | u
    · cases hrest
    split_ifs at hrest
    obtain rfl := Except.ok.inj hrest
    by_cases hkey : key = field
    · rw [hkey, AList.lookup_insert] at hlookup
      obtain rfl := some.inj hlookup
      rw [hkey]
      exact .inr ⟨hc ⟨_, hst⟩, n, hcheck⟩
    · rw [AList.lookup_insert_ne hkey] at hlookup
      exact .inl hlookup
  | createVotesTokens c =>
    apply hs.save
    intro st hst key v hlookup
    obtain ⟨topics, endTime, supports, assetID, hsupports, rfl⟩ := createVotesTokens_ok hst
    exact .inl hlookup
  | nodesVote c =>
    apply hs.save
    intro st hst key v hlookup
    obtain ⟨voteNum, text, info, requests, topics, -, -, -, -, rfl⟩ := nodesVote_ok hst
    exact .inl hlookup
  | updateSysParams ord =>
    refine ⟨hs.valid_updated hc ord, fun field value hlookup => ?_⟩
    cases hlookup

lemma Sound.run {calls : List ParamCall}
    (hcareful : CarefulRun parseFloat s calls) :
    (calls.foldl (paramStep parseFloat) s).Sound parseFloat := by
  induction calls generalizing s with
  | nil => exact hs
  | cons c calls ih => exact ih (hs.step hcareful.1) hcareful.2

end

/-- The constraints hold again after every careful run. -/
theorem valid_of_careful (hvalid : s.gp.chainParameters.Valid s.gp.immutableParameters)
    (hpending : s.contract.withoutVote = ∅) (calls : List ParamCall)
    (hcareful : CarefulRun parseFloat s calls) :
    (calls.foldl (paramStep parseFloat) s).gp.chainParameters.Valid
      (calls.foldl (paramStep parseFloat) s).gp.immutableParameters := by
  have hstart : s.Sound parseFloat :=
    ⟨hvalid, fun field value hlookup => by rw [hpending] at hlookup; cases hlookup⟩
  exact (hstart.run hcareful).valid

end ParamState

/-! ### Two changes of a new chain -/

namespace NewChain

/-- No text is a number with a fraction here. -/
def noFloat (_ : Bytes) : Except NumError UInt64 :=
  .error .invalidSyntax

/-- A new chain with its default parameters. -/
def start : ParamState where
  gp := ⟨newImmutChainParams, newChainParams⟩
  contract := ⟨∅, none⟩

/-- The foundation changes one field, then comes a maintenance. -/
def change (field : String) (value : String) : List ParamCall :=
  [.updateSysParamWithoutVote 5 newChainParams.foundationAddress field (ascii value),
    .updateSysParams ⟨id, .refl⟩]

/-- A longer maintenance interval. -/
theorem longer_maintenance :
    ((change "MaintenanceInterval" "600").foldl (paramStep noFloat) start).gp.chainParameters.Valid
      ((change "MaintenanceInterval" "600").foldl (paramStep noFloat)
        start).gp.immutableParameters := by
  refine ParamState.valid_of_careful newChainParams_valid rfl _ ⟨fun _ => ?_, ⟨?_, ?_⟩, trivial⟩
  · unfold Fits
    decide +kernel
  · intro hchanged
    exact absurd hchanged (by decide +kernel)
  · exact fun _ _ _ => by decide +kernel

/-- The mediator interval 256 passes both checks and is stored as zero. -/
theorem wide_interval :
    newChainParams.Valid newImmutChainParams ∧
    ((change "MediatorInterval" "256").foldl (paramStep noFloat)
      start).gp.chainParameters.mediatorInterval = 0 ∧
    ¬ ((change "MediatorInterval" "256").foldl (paramStep noFloat) start).gp.chainParameters.Valid
      newImmutChainParams := by
  have hzero : ((change "MediatorInterval" "256").foldl (paramStep noFloat)
      start).gp.chainParameters.mediatorInterval = 0 := by decide +kernel
  refine ⟨newChainParams_valid, hzero, fun hvalid => ?_⟩
  have hpos := hvalid.interval_pos
  exact absurd hpos (by decide)

end NewChain

end ZwsChain.SysConfig
