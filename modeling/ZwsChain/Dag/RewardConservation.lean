import Mathlib
import ZwsChain.Dag.Coinbase
import ZwsChain.Dag.SaveTx
import ZwsChain.Lib.Keyed
import ZwsChain.Validator.Validate

/-!
# No reward is lost

A run produces units one after the other: each time `CreateCoinbase` is called with the additions
of the unit, and the coinbase is saved. For each address and asset, what the outputs of the
coinbases paid and what is still recorded in the state of the coinbase contract should make up
what was added.

Between payouts this needs that a unit has one addition at most for an address:
`createCoinbaseState` computes the entry for each addition from the database, and the last entry of
an address replaces the others.

* `conserved_step`: a unit under the conditions `UnitOk` keeps the balance and the form of the
  state.
* `rewards_conserved`: so does every run of such units.
* `second_asset_lost`: a unit with two additions for one address, after which one is missing.
-/

open List Option

namespace ZwsChain

open Producer UnitRepository

/-! ### Sums by asset -/

/-- The sum of the entries of an asset. -/
def sumOf (s : Asset) (income : List AmountAsset) : Nat :=
  ((amountsOf s income).map fun aa => aa.amount.toNat).sum

/-- The sum of the additions of an asset. -/
def addedOf (s : Asset) (ads : List Addition) : Nat :=
  ((ads.filter fun ad => ad.asset = s).map fun ad => ad.amount.toNat).sum

lemma addedOf_cons (s : Asset) (ad : Addition) (ads : List Addition) :
    addedOf s (ad :: ads) = (if ad.asset = s then ad.amount.toNat else 0) + addedOf s ads := by
  rw [addedOf, addedOf, filter_cons]
  by_cases h : ad.asset = s <;> simp [h]

/-- No asset has two entries. -/
def OneEach (income : List AmountAsset) : Prop :=
  (income.map AmountAsset.asset).Nodup

variable {income aa : List AmountAsset} {s : Asset} {ads : List Addition}
  {ws : List ContractWriteSet} {addr : Address} {rewards : Rewards}

lemma OneEach.addIncome (h : OneEach income) (newAmount : UInt64) (asset : Asset) :
    OneEach (ZwsChain.addIncome income newAmount asset) := by
  have hmap : (income.map fun aa =>
      if aa.asset = asset then { aa with amount := aa.amount + newAmount } else aa).map
      AmountAsset.asset = income.map AmountAsset.asset := by
    rw [List.map_map]
    refine map_congr_left fun aa _ => ?_
    rw [Function.comp_apply]
    split <;> rfl
  rw [OneEach, ZwsChain.addIncome]
  split
  · rwa [hmap]
  rename_i hany
  rw [map_append, hmap, map_singleton]
  refine h.append (nodup_singleton _) ?_
  simpa [disjoint_singleton] using hany

/-- An asset has one entry at most. -/
lemma OneEach.amountsOf (h : OneEach income) (s : Asset) :
    amountsOf s income = [] ∨ ∃ m, amountsOf s income = [⟨m, s⟩] := by
  rcases eq_or_ne (ZwsChain.amountsOf s income) [] with hnil | hne
  · exact .inl hnil
  · obtain ⟨e, he⟩ := exists_mem_of_ne_nil _ hne
    obtain ⟨hmem, rfl⟩ : e ∈ income ∧ e.asset = s := by simpa [ZwsChain.amountsOf] using he
    exact .inr ⟨e.amount, Lib.Keyed.filter_key_eq_singleton h hmem⟩

/-- Without overflow, an addition adds its amount to the sum of its asset. -/
lemma sumOf_addIncome (h : OneEach income) {newAmount : UInt64} {asset : Asset}
    (hfits : sumOf s income + (if asset = s then newAmount.toNat else 0) < 2 ^ 64) :
    sumOf s (addIncome income newAmount asset) =
      sumOf s income + if asset = s then newAmount.toNat else 0 := by
  by_cases hs : asset = s
  · subst hs
    rw [sumOf, amountsOf_addIncome_self, sumOf]
    rcases h.amountsOf asset with hnil | ⟨m, hm⟩
    · rw [hnil]
      simp [addIncome]
    rw [sumOf, hm] at hfits
    rw [hm]
    have hlt : m.toNat + newAmount.toNat < 2 ^ 64 := by simpa using hfits
    simpa [addIncome, UInt64.toNat_add] using hlt
  · rw [if_neg hs, sumOf, amountsOf_addIncome_of_ne hs]
    rfl

lemma sumOf_addIncomes (h : OneEach income) (hfits : sumOf s income + addedOf s ads < 2 ^ 64) :
    sumOf s (addIncomes income ads) = sumOf s income + addedOf s ads := by
  induction ads generalizing income with
  | nil => rfl
  | cons ad ads ih =>
    rw [addedOf_cons] at hfits ⊢
    have hstep : sumOf s (addIncome income ad.amount ad.asset) = _ :=
      sumOf_addIncome h (by omega)
    rw [addIncomes_cons, ih (h.addIncome ad.amount ad.asset) (by omega), hstep]
    omega

/-! ### The recorded rewards -/

variable (P : Primitives)

/-- Rewards are recorded under texts of addresses of known types, with one entry at most for an
asset. -/
def RewardsOk (db : Db) : Prop :=
  ∀ key v, rewardAddressPrefix <+: key → db.getContractState coinbaseContractId key = some v →
    ∃ addr : Address, addr.hasKnownType ∧ key = rewardKey P addr ∧
      ∃ income, decodeIncome v.value = some income ∧ OneEach income

lemma rewardsOk_of_empty {P : Primitives} {db : Db}
    (h : ∀ key, rewardAddressPrefix <+: key →
      db.getContractState coinbaseContractId key = none) : RewardsOk P db := by
  intro key v hkey hv
  rw [h key hkey] at hv
  cases hv

section Recorded

variable {R : Producer} {db : Db}

lemma RewardsOk.incomeOf (h : RewardsOk R.P db) (addr : Address) :
    OneEach (R.incomeOf db addr) := by
  rw [Producer.incomeOf]
  rcases hv : db.getContractState coinbaseContractId (rewardKey R.P addr) with _ | v
  · exact nodup_nil
  obtain ⟨-, -, -, income, hincome, hone⟩ := h _ v (prefix_append _ _) hv
  rw [storedIncome, hincome]
  exact hone

variable {addrMap : List (Bytes × ContractStateValue)} {rep : UnitRepository} {tx : Transaction}
  {db' : Db} {ads : List Addition}

/-- At a payout the stored rewards of an address are those recorded for it. -/
lemma RewardsOk.getD_storedRewards (h : RewardsOk R.P db) (h58 : R.P.Base58RoundTrip)
    (haddr : db.getContractStatesByPrefix coinbaseContractId rewardAddressPrefix = some addrMap)
    (addr : Address) :
    ((storedRewards R.P R.ofMalformed addrMap).lookup addr).getD [] = R.incomeOf db addr := by
  have hmem := Db.mem_getContractStatesByPrefix (by decide) haddr
  cases haa : (storedRewards R.P R.ofMalformed addrMap).lookup addr with
  | some aa =>
    -- what is stored for the address is its own field
    obtain ⟨e, he, rfl, rfl, -⟩ := exists_of_lookup_storedRewards haa
    obtain ⟨hunder, hv⟩ := (hmem e).1 he
    obtain ⟨b, hb, hkey, -⟩ := h _ _ hunder hv
    rw [hkey, incomeAddr_rewardKey h58 hb, Producer.incomeOf, ← hkey, hv]
    rfl
  | none =>
    rcases hv : db.getContractState coinbaseContractId (rewardKey R.P addr) with _ | v
    · rw [Producer.incomeOf, hv]
      rfl
    obtain ⟨b, hb, hkey, -⟩ := h _ _ (prefix_append _ _) hv
    obtain rfl := rewardKey_injective h58 hkey
    by_contra hne
    have hne : storedIncome R.ofMalformed (some v) ≠ [] := by
      rw [← hv]
      exact fun hnil => hne hnil.symm
    have hsome := isSome_lookup_storedRewards (P := R.P)
      ((hmem (rewardKey R.P addr, v)).2 ⟨prefix_append _ _, hv⟩)
      (incomeAddr_rewardKey h58 hb) hne
    rw [haa] at hsome
    cases hsome

/-! ### Saving a coinbase -/

lemma writeUtxo_contractState (rep : UnitRepository) (txHash : Hash) (msgIndex : Nat)
    (lockTime : UInt32) (txouts : List Output) (db : Db) :
    (rep.writeUtxo txHash msgIndex lockTime txouts db).contractState = db.contractState := by
  rw [writeUtxo]
  induction txouts.zipIdx generalizing db with
  | nil => rfl
  | cons x rest ih =>
    rw [foldl_cons, ih]
    dsimp only
    split <;> rfl

variable {unit : UnitInfo}

/-- Saving a coinbase saves the messages one after the other. -/
lemma saveMsgs_of_saveTx4Unit (h : rep.saveTx4Unit unit 0 tx db = some (true, db')) :
    ∃ txHash msgs s, tx.txMessages = some msgs ∧ s.db = db' ∧
      rep.saveMsgs unit 0 tx txHash (FixedBytes.zero 21) msgs.zipIdx ⟨db, [], none⟩ =
        some (true, s) := by
  obtain ⟨txHash, -, h⟩ := bind_eq_some_iff.1 h
  obtain ⟨-, -, h⟩ := bind_eq_some_iff.1 h
  obtain ⟨msgs, hmsgs, h⟩ := bind_eq_some_iff.1 h
  obtain ⟨⟨ok, s⟩, hs, h⟩ := bind_eq_some_iff.1 h
  obtain ⟨rfl, hdb⟩ := Prod.mk.inj (some.inj h)
  exact ⟨txHash, msgs, s, hmsgs, hdb, hs⟩

/-- A message of a legal transaction that is saved. -/
lemma saveMsgs_cons {txIndex : Nat} {txHash : Hash} {requester : Address}
    {msg : Message} {i : Nat} {s s₁ : UnitRepository.SaveState} (hlegal : tx.illegal = false)
    (hsave : rep.saveMsg unit txIndex tx txHash requester i msg s = some (true, s₁))
    (rest : List (Message × Nat)) :
    rep.saveMsgs unit txIndex tx txHash requester ((msg, i) :: rest) s =
      rep.saveMsgs unit txIndex tx txHash requester rest s₁ := by
  rw [saveMsgs, skipsMsg, hlegal, hsave]
  rfl

/-- Saving the coinbase of the state form saves its write set. -/
lemma saveTx4Unit_state
    (h : rep.saveTx4Unit unit 0 (R.createCoinbaseState db ads).1 db = some (true, db')) :
    db' = db.saveContractStates coinbaseContractId (ads.map (R.stateWrite db))
      ⟨some unit.number, 0⟩ := by
  obtain ⟨txHash, msgs, s, hmsgs, rfl, hs⟩ := saveMsgs_of_saveTx4Unit h
  obtain ⟨readSet, rfl⟩ : ∃ readSet, msgs = [.contractInvoke ⟨coinbaseContractId, [], readSet,
      ads.map (R.stateWrite db), [], ⟨0, []⟩⟩] :=
    ⟨_, (some.inj hmsgs).symm⟩
  rw [zipIdx_cons, zipIdx_nil,
    saveMsgs_cons rfl (by
      rfl)] at hs
  obtain rfl := congrArg Prod.snd (some.inj hs)
  rfl

/-- Saving the coinbase of the payment form saves the write set that clears the rewards, after
the outputs. -/
lemma saveTx4Unit_payment {total : UInt64}
    (haddr : db.getContractStatesByPrefix coinbaseContractId rewardAddressPrefix = some addrMap)
    (htx : R.createCoinbasePayment db ads = .ok (tx, total))
    (h : rep.saveTx4Unit unit 0 tx db = some (true, db')) :
    ∃ db₁ : Db, db₁.contractState = db.contractState ∧
      db' = db₁.saveContractStates coinbaseContractId
        (R.clearPayload db (R.paymentRewards addrMap ads)).writeSet ⟨some unit.number, 0⟩ := by
  rw [createCoinbasePayment, haddr] at htx
  obtain rfl := (Prod.mk.inj (Except.ok.inj htx)).1
  obtain ⟨txHash, msgs, s, hmsgs, rfl, hs⟩ := saveMsgs_of_saveTx4Unit h
  obtain ⟨readSet, rfl⟩ : ∃ readSet, msgs =
      [R.createCoinbasePaymentMsg (R.paymentRewards addrMap ads),
        .contractInvoke { R.clearPayload db (R.paymentRewards addrMap ads) with readSet }] :=
    ⟨_, (some.inj hmsgs).symm⟩
  rw [zipIdx_cons, zipIdx_cons, zipIdx_nil, saveMsgs_cons rfl rfl,
    saveMsgs_cons rfl (by
      rfl)] at hs
  obtain rfl := congrArg Prod.snd (some.inj hs)
  exact ⟨_, writeUtxo_contractState rep .., rfl⟩

end Recorded

/-! ### What a write set leaves -/

/-- Entries as a coinbase writes them: no deletions, and no contract of their own. -/
def PlainWrites (ws : List ContractWriteSet) : Prop :=
  ∀ w ∈ ws, w.isDelete = false ∧ w.contractId = []

/-- If all entries for a field hold one list, this is what they leave there. -/
lemma recordedAfter_plain {ofMalformed : Bytes → List AmountAsset} (hplain : PlainWrites ws)
    {key : Bytes} (hall : ∀ w ∈ ws, w.key = key → decodeIncome w.value = some aa)
    (income : List AmountAsset) :
    recordedAfter ofMalformed key income (ws.map fun w => (coinbaseContractId, w)) =
      if ∃ w ∈ ws, w.key = key then aa else income := by
  induction ws generalizing income with
  | nil => simp [recordedAfter]
  | cons w ws ih =>
    obtain ⟨hdelete, hcontract⟩ := hplain w mem_cons_self
    have hplain' : PlainWrites ws := fun w' hw' => hplain w' (mem_cons_of_mem _ hw')
    have hall' := fun w' hw' => hall w' (mem_cons_of_mem _ hw')
    have htarget : Db.contractStateKey (Db.writeTarget coinbaseContractId w) w.key =
        Db.contractStateKey coinbaseContractId key ↔ w.key = key := by
      rw [Db.writeTarget, hcontract]
      exact ⟨fun h => append_cancel_left h, fun h => by rw [h]; rfl⟩
    rw [recordedAfter, map_cons, foldl_cons, ← recordedAfter, ih hplain' hall']
    dsimp only
    by_cases hkey : w.key = key
    · have hvalue := hall w mem_cons_self hkey
      rw [if_pos (htarget.2 hkey)]
      simp [hkey, hdelete, hvalue]
    · rw [if_neg fun h => hkey (htarget.1 h)]
      simp [hkey]

variable {R : Producer} {db db₁ : Db}

/-- The income of an address after a coinbase's write set. -/
lemma incomeOf_saveContractStates (hstate : db₁.contractState = db.contractState)
    (hplain : PlainWrites ws)
    (hall : ∀ w ∈ ws, w.key = rewardKey R.P addr → decodeIncome w.value = some aa)
    (version : StateVersion) :
    R.incomeOf (db₁.saveContractStates coinbaseContractId ws version) addr =
      if ∃ w ∈ ws, w.key = rewardKey R.P addr then aa else R.incomeOf db addr := by
  rw [Producer.incomeOf, storedIncome_saveContractStates, recordedAfter_plain hplain hall,
    Producer.incomeOf, Db.getContractState, hstate]
  rfl

/-- A coinbase's write set keeps the form of the recorded rewards. -/
lemma RewardsOk.saveContractStates (h : RewardsOk R.P db)
    (hstate : db₁.contractState = db.contractState)
    (hplain : PlainWrites ws)
    (hws : ∀ w ∈ ws, ∃ addr : Address, addr.hasKnownType ∧ w.key = rewardKey R.P addr ∧
      ∃ income, decodeIncome w.value = some income ∧ OneEach income) (version : StateVersion) :
    RewardsOk R.P (db₁.saveContractStates coinbaseContractId ws version) := by
  intro key v hkey hv
  rcases Db.lookup_saveContractStates hv with hold | ⟨w, hw, heq, hvalue⟩
  · exact h key v hkey (by rwa [Db.getContractState, ← hstate])
  rw [Db.writeTarget, (hplain w hw).2] at heq
  obtain rfl : key = w.key := append_cancel_left heq
  rw [hvalue]
  exact hws w hw

lemma plainWrites_state (ads : List Addition) : PlainWrites (ads.map (R.stateWrite db)) := by
  intro w hw
  obtain ⟨ad, -, rfl⟩ := List.mem_map.1 hw
  exact ⟨rfl, rfl⟩

lemma plainWrites_clear (rewards : Rewards) :
    PlainWrites (R.clearPayload db rewards).writeSet := by
  intro w hw
  obtain ⟨e, -, rfl⟩ := List.mem_map.1 hw
  exact ⟨rfl, rfl⟩

lemma decodeIncome_nil : decodeIncome (encodeIncome []) = some [] :=
  decodeIncome_encodeIncome (by decide)

/-- The income of an address after the state form, if the entries of the address hold one list. -/
lemma incomeOf_stateWrites (h58 : R.P.Base58RoundTrip)
    (hfits : ∀ ad ∈ ads, (R.stateWrite db ad).value.length < 2 ^ 64)
    (haa : ∀ ad ∈ ads, ad.addr = addr → addIncome (R.incomeOf db addr) ad.amount ad.asset = aa)
    (version : StateVersion) :
    R.incomeOf (db.saveContractStates coinbaseContractId (ads.map (R.stateWrite db)) version)
        addr =
      if ∃ ad ∈ ads, ad.addr = addr then aa else R.incomeOf db addr := by
  have hkey : ∀ ad, (R.stateWrite db ad).key = rewardKey R.P addr ↔ ad.addr = addr :=
    fun ad => (rewardKey_injective h58).eq_iff
  have hall : ∀ w ∈ ads.map (R.stateWrite db), w.key = rewardKey R.P addr →
      decodeIncome w.value = some aa := by
    intro w hw hwkey
    obtain ⟨ad, had, rfl⟩ := List.mem_map.1 hw
    obtain rfl := (hkey ad).1 hwkey
    rw [← haa ad had rfl]
    exact decodeIncome_encodeIncome (hfits ad had)
  rw [incomeOf_saveContractStates rfl (plainWrites_state ads) hall]
  simp [hkey]

lemma mem_clearPayload {w : ContractWriteSet} :
    w ∈ (R.clearPayload db rewards).writeSet ↔
      ∃ addr ∈ rewards.keys, w = ⟨false, rewardKey R.P addr, encodeIncome [], []⟩ := by
  have hperm := R.clearOrder.perm rewards
  constructor
  · intro hw
    obtain ⟨e, he, rfl⟩ := List.mem_map.1 hw
    exact ⟨e.1, List.mem_map_of_mem (hperm.mem_iff.1 he), rfl⟩
  rintro ⟨addr, haddr, rfl⟩
  obtain ⟨e, he, rfl⟩ := List.mem_map.1 haddr
  exact List.mem_map.2 ⟨e, hperm.mem_iff.2 he, rfl⟩

/-- The payment form clears the addresses that it pays. -/
lemma incomeOf_clearWrites (h58 : R.P.Base58RoundTrip)
    (hstate : db₁.contractState = db.contractState) (rewards : Rewards) (addr : Address)
    (version : StateVersion) :
    R.incomeOf (db₁.saveContractStates coinbaseContractId (R.clearPayload db rewards).writeSet
        version) addr =
      if addr ∈ rewards.keys then [] else R.incomeOf db addr := by
  have hall : ∀ w ∈ (R.clearPayload db rewards).writeSet, w.key = rewardKey R.P addr →
      decodeIncome w.value = some [] := by
    intro w hw _
    obtain ⟨_, -, rfl⟩ := mem_clearPayload.1 hw
    exact decodeIncome_nil
  have hcleared : (∃ w ∈ (R.clearPayload db rewards).writeSet, w.key = rewardKey R.P addr) ↔
      addr ∈ rewards.keys := by
    constructor
    · rintro ⟨w, hw, hkey⟩
      obtain ⟨addr', haddr', rfl⟩ := mem_clearPayload.1 hw
      obtain rfl : addr' = addr := rewardKey_injective h58 hkey
      exact haddr'
    · intro haddr
      exact ⟨_, mem_clearPayload.2 ⟨addr, haddr, rfl⟩, rfl⟩
  rw [incomeOf_saveContractStates hstate (plainWrites_clear rewards) hall]
  simp only [hcleared]

/-! ### What the outputs pay -/

variable (addr : Address) (s : Asset)

/-- What the outputs pay to an address in an asset. -/
def paidTo (outputs : List Output) : Nat :=
  ((outputs.filter fun out =>
    (TxScript.getAddressFromScript P out.pkScript).getD (FixedBytes.zero 21) = addr ∧
      out.asset = s).map fun out => out.value.toNat).sum

lemma paidTo_append (l l' : List Output) :
    paidTo P addr s (l ++ l') = paidTo P addr s l + paidTo P addr s l' := by
  simp [paidTo]

lemma paidTo_flatMap {α : Type} (f : α → List Output) (l : List α) :
    paidTo P addr s (l.flatMap f) = (l.map fun x => paidTo P addr s (f x)).sum := by
  induction l with
  | nil => rfl
  | cons x l ih => rw [flatMap_cons, paidTo_append, ih, map_cons, sum_cons]

lemma paidTo_rewardOutputs {e : Σ _ : Address, List AmountAsset} (hknown : e.1.hasKnownType) :
    paidTo P addr s (rewardOutputs e) = if e.1 = addr then sumOf s e.2 else 0 := by
  have haddr := TxScript.getAddressFromScript_generateLockScript P hknown
  rw [paidTo, rewardOutputs, List.filter_map, List.map_map]
  split
  · rename_i heq
    subst heq
    rw [sumOf, amountsOf]
    simp [Function.comp_def, haddr]
  · rename_i hne
    simp [Function.comp_def, haddr, hne]

/-- The outputs of a coinbase pay an address what its table has for it. -/
lemma paidTo_rewards (hknown : ∀ addr ∈ rewards.keys, addr.hasKnownType) (addr : Address)
    (s : Asset) :
    paidTo R.P addr s ((R.outputOrder.toList rewards).flatMap rewardOutputs) =
      sumOf s ((rewards.lookup addr).getD []) := by
  have hperm := R.outputOrder.perm rewards
  calc paidTo R.P addr s ((R.outputOrder.toList rewards).flatMap rewardOutputs)
      = ((R.outputOrder.toList rewards).map fun e =>
          if e.1 = addr then sumOf s e.2 else 0).sum := by
        rw [paidTo_flatMap]
        refine congrArg List.sum (map_congr_left fun e he => ?_)
        exact paidTo_rewardOutputs _ _ _ (hknown _ (List.mem_map_of_mem (hperm.mem_iff.1 he)))
    _ = (rewards.entries.map fun e => if e.1 = addr then sumOf s e.2 else 0).sum :=
        (hperm.map _).sum_nat
    _ = ((rewards.lookup addr).map (sumOf s)).getD 0 :=
        Lib.Keyed.sum_map_ite_key rewards.nodupKeys addr (sumOf s)
    _ = sumOf s ((rewards.lookup addr).getD []) := by
        cases rewards.lookup addr <;> rfl

/-! ### Runs -/

/-- A chain: its repository, and what the producers of its units share. -/
structure RewardChain where
  rep : UnitRepository
  /-- What a failed decoding of a list of amounts leaves in the list. -/
  ofMalformed : Bytes → List AmountAsset
  /-- `parameter.CurrentSysParameters.RewardHeight`. -/
  rewardHeight : UInt64

/-- A unit to be produced: its number and time, the additions given to `CreateCoinbase`, and the
orders in which the maps happen to be iterated. -/
structure RewardUnit where
  info : UnitInfo
  ads : List Addition
  outputOrder : Iteration Address (List AmountAsset)
  clearOrder : Iteration Address (List AmountAsset)

/-- The database, with all outputs of coinbases and all additions so far. -/
structure RewardState where
  db : Db
  outputs : List Output
  added : List Addition

/-- What was added for an address in an asset. -/
def addedTo (ads : List Addition) : Nat :=
  addedOf s (ads.filter fun ad => ad.addr = addr)

lemma addedTo_append (l l' : List Addition) :
    addedTo addr s (l ++ l') = addedTo addr s l + addedTo addr s l' := by
  simp [addedTo, addedOf]

namespace RewardChain

variable (c : RewardChain)

/-- The producer of a unit. -/
def producer (u : RewardUnit) : Producer :=
  ⟨c.rep.P, c.ofMalformed, c.rewardHeight, u.outputOrder, u.clearOrder⟩

/-- Creates the coinbase of a unit and saves it. -/
def produce (u : RewardUnit) (s : RewardState) : Option RewardState := do
  match ← (c.producer u).createCoinbase s.db u.ads u.info.number.index with
  | .error _ => none
  | .ok (tx, _) =>
    match ← c.rep.saveTx4Unit u.info 0 tx s.db with
    | (false, _) => none
    | (true, db) =>
      some ⟨db, s.outputs ++ tx.messages.flatMap Message.outputs, s.added ++ u.ads⟩

/-- What is recorded for an address. -/
def incomeOf (db : Db) (addr : Address) : List AmountAsset :=
  storedIncome c.ofMalformed (db.getContractState coinbaseContractId (rewardKey c.rep.P addr))

/-- For each address and asset, the outputs of the coinbases and the recorded income make up what
was added. -/
def Conserved (s : RewardState) : Prop :=
  ∀ addr asset, paidTo c.rep.P addr asset s.outputs + sumOf asset (c.incomeOf s.db addr) =
    addedTo addr asset s.added

/-- A unit that loses nothing. -/
structure UnitOk (u : RewardUnit) (s : RewardState) : Prop where
  /-- The addresses can be paid to. -/
  known : ∀ ad ∈ u.ads, ad.addr.hasKnownType
  /-- Except at a payout height, an address has one addition at most. -/
  distinct : u.info.number.index % c.rewardHeight ≠ 0 → (u.ads.map Addition.addr).Nodup
  /-- No sum overflows. -/
  fits : ∀ addr asset, sumOf asset (c.incomeOf s.db addr) + addedTo addr asset u.ads < 2 ^ 64
  /-- The encoded entries fit in a slice. -/
  encodable : ∀ ad ∈ u.ads,
    (encodeIncome (addIncome (c.incomeOf s.db ad.addr) ad.amount ad.asset)).length < 2 ^ 64

/-- A run of units that lose nothing. -/
inductive Run : RewardState → List RewardUnit → RewardState → Prop
  | nil (s : RewardState) : Run s [] s
  | cons {s s₁ s' : RewardState} {u : RewardUnit} {us : List RewardUnit} (hu : c.UnitOk u s)
      (hstep : c.produce u s = some s₁) (hrest : Run s₁ us s') : Run s (u :: us) s'

variable {c} {u : RewardUnit} {s s' : RewardState}

/-- What producing a unit does. -/
lemma produce_cases (h : c.produce u s = some s') :
    ∃ tx total, (c.producer u).createCoinbase s.db u.ads u.info.number.index =
        some (.ok (tx, total)) ∧
      c.rep.saveTx4Unit u.info 0 tx s.db = some (true, s'.db) ∧
      s'.outputs = s.outputs ++ tx.messages.flatMap Message.outputs ∧
      s'.added = s.added ++ u.ads := by
  obtain ⟨r, hr, h⟩ := bind_eq_some_iff.1 h
  rcases r with e | ⟨tx, total⟩
  · cases h
  obtain ⟨⟨ok, db⟩, hdb, h⟩ := bind_eq_some_iff.1 h
  cases ok with
  | false => cases h
  | true =>
    obtain rfl := some.inj h
    exact ⟨tx, total, hr, hdb, rfl, rfl⟩

section

variable (h58 : c.rep.P.Base58RoundTrip) (hok : RewardsOk c.rep.P s.db)
include h58 hok

/-- Between payouts: the state form. -/
lemma step_state
    (hu : c.UnitOk u s) (hpay : u.info.number.index % c.rewardHeight ≠ 0) {db' : Db}
    (hsave : c.rep.saveTx4Unit u.info 0 ((c.producer u).createCoinbaseState s.db u.ads).1 s.db =
      some (true, db')) :
    RewardsOk c.rep.P db' ∧ ∀ addr asset, sumOf asset (c.incomeOf db' addr) =
      sumOf asset (c.incomeOf s.db addr) + addedTo addr asset u.ads := by
  let R := c.producer u
  have hdb := saveTx4Unit_state hsave
  have hone : ∀ addr, OneEach (c.incomeOf s.db addr) := RewardsOk.incomeOf (R := R) hok
  refine ⟨?_, fun addr asset => ?_⟩
  · rw [hdb]
    refine RewardsOk.saveContractStates (R := R) hok rfl (plainWrites_state u.ads) ?_ _
    intro w hw
    obtain ⟨ad, had, rfl⟩ := List.mem_map.1 hw
    exact ⟨ad.addr, hu.known ad had, rfl, _, decodeIncome_encodeIncome (hu.encodable ad had),
      (hone ad.addr).addIncome _ _⟩
  have hincome : ∀ aa, (∀ ad ∈ u.ads, ad.addr = addr →
      addIncome (c.incomeOf s.db addr) ad.amount ad.asset = aa) →
      c.incomeOf db' addr =
        if ∃ ad ∈ u.ads, ad.addr = addr then aa else c.incomeOf s.db addr := by
    intro aa haa
    rw [hdb]
    exact incomeOf_stateWrites (R := R) h58 hu.encodable haa _
  by_cases hmem : ∃ ad ∈ u.ads, ad.addr = addr
  · obtain ⟨ad, had, rfl⟩ := hmem
    -- the only addition of the address
    have honly : (u.ads.filter fun x => x.addr = ad.addr) = [ad] :=
      Lib.Keyed.filter_key_eq_singleton (hu.distinct hpay) had
    have haa : ∀ x ∈ u.ads, x.addr = ad.addr →
        addIncome (c.incomeOf s.db ad.addr) x.amount x.asset =
          addIncome (c.incomeOf s.db ad.addr) ad.amount ad.asset := by
      intro x hx hxaddr
      rw [inj_on_of_nodup_map (hu.distinct hpay) hx had hxaddr]
    have hadded : addedTo ad.addr asset u.ads =
        if ad.asset = asset then ad.amount.toNat else 0 := by
      rw [addedTo, honly, addedOf_cons]
      rfl
    have hfits := hu.fits ad.addr asset
    rw [hadded] at hfits ⊢
    rw [hincome _ haa, if_pos ⟨ad, had, rfl⟩]
    exact sumOf_addIncome (hone ad.addr) hfits
  have hnil : (u.ads.filter fun x => x.addr = addr) = [] :=
    filter_eq_nil_iff.2 fun x hx => by simpa using fun h => hmem ⟨x, hx, h⟩
  rw [hincome [] fun ad had h => absurd ⟨ad, had, h⟩ hmem, if_neg hmem, addedTo, hnil]
  rfl

variable {db' : Db}

/-- At a payout: the payment form. It pays what is recorded and what is added, and clears it. -/
lemma step_payment
    (hu : c.UnitOk u s) {tx : Transaction} {total : UInt64}
    (htx : (c.producer u).createCoinbasePayment s.db u.ads = .ok (tx, total))
    (hsave : c.rep.saveTx4Unit u.info 0 tx s.db = some (true, db')) :
    RewardsOk c.rep.P db' ∧ ∀ addr asset,
      paidTo c.rep.P addr asset (tx.messages.flatMap Message.outputs) +
        sumOf asset (c.incomeOf db' addr) =
      sumOf asset (c.incomeOf s.db addr) + addedTo addr asset u.ads := by
  let R := c.producer u
  rcases haddr : s.db.getContractStatesByPrefix coinbaseContractId rewardAddressPrefix with
    _ | addrMap
  · rw [createCoinbasePayment, haddr] at htx
    cases htx
  obtain ⟨db₁, hstate, hdb⟩ := saveTx4Unit_payment haddr htx hsave
  have hkeys : ∀ addr ∈ (R.paymentRewards addrMap u.ads).keys, addr.hasKnownType :=
    fun addr hmem => hasKnownType_of_rewarded (fun _ _ => storedRewards_lookup) hu.known
      (mem_keys_addRewards.1 hmem)
  refine ⟨?_, fun addr asset => ?_⟩
  · rw [hdb]
    refine RewardsOk.saveContractStates (R := R) hok hstate (plainWrites_clear _) ?_ _
    intro w hw
    obtain ⟨addr, hmem, rfl⟩ := mem_clearPayload.1 hw
    exact ⟨addr, hkeys addr hmem, rfl, [], decodeIncome_nil, nodup_nil⟩
  have hstored : ((storedRewards R.P R.ofMalformed addrMap).lookup addr).getD [] =
      c.incomeOf s.db addr := RewardsOk.getD_storedRewards (R := R) hok h58 haddr addr
  have hcleared : c.incomeOf db' addr = [] := by
    rw [hdb]
    refine (incomeOf_clearWrites (R := R) h58 hstate _ addr _).trans ?_
    split
    · rfl
    -- an address that is not cleared has nothing recorded
    rename_i hnot
    refine hstored.symm.trans ?_
    rcases hlookup : (storedRewards R.P R.ofMalformed addrMap).lookup addr with _ | aa
    · rfl
    · exact absurd (mem_keys_addRewards.2 (.inl (by rw [hlookup]; rfl))) hnot
  have hrewards : ((R.paymentRewards addrMap u.ads).lookup addr).getD [] =
      addIncomes (c.incomeOf s.db addr) (u.ads.filter fun ad => ad.addr = addr) := by
    rw [← hstored, paymentRewards, lookup_addRewards]
    split
    · rename_i hnil
      rw [hnil, addIncomes_nil]
    · rfl
  have hpaid : paidTo c.rep.P addr asset (tx.messages.flatMap Message.outputs) =
      sumOf asset (c.incomeOf s.db addr) + addedTo addr asset u.ads := by
    rw [createCoinbasePayment, haddr] at htx
    rw [← (Prod.mk.inj (Except.ok.inj htx)).1]
    refine (congrArg _ (append_nil _)).trans ?_
    refine (paidTo_rewards (R := R) hkeys addr asset).trans ?_
    rw [hrewards]
    exact sumOf_addIncomes (RewardsOk.incomeOf (R := R) hok addr) (hu.fits addr asset)
  rw [hpaid, hcleared]
  rfl

/-- A unit under these conditions keeps the balance and the form of the state. -/
lemma conserved_step
    (hcons : c.Conserved s) (hu : c.UnitOk u s) (hstep : c.produce u s = some s') :
    RewardsOk c.rep.P s'.db ∧ c.Conserved s' := by
  obtain ⟨tx, total, htx, hsave, houtputs, hadded⟩ := produce_cases hstep
  have hbalance : RewardsOk c.rep.P s'.db ∧ ∀ addr asset,
      paidTo c.rep.P addr asset (tx.messages.flatMap Message.outputs) +
        sumOf asset (c.incomeOf s'.db addr) =
      sumOf asset (c.incomeOf s.db addr) + addedTo addr asset u.ads := by
    rw [createCoinbase] at htx
    split at htx
    · cases htx
    split at htx
    · exact step_payment h58 hok hu (some.inj htx) hsave
    rename_i hpay
    obtain rfl := (Prod.mk.inj (Except.ok.inj (some.inj htx))).1
    obtain ⟨hok', hsum⟩ := step_state h58 hok hu hpay hsave
    refine ⟨hok', fun addr asset => ?_⟩
    rw [hsum addr asset]
    exact Nat.zero_add _
  refine ⟨hbalance.1, fun addr asset => ?_⟩
  have hbefore := hcons addr asset
  have hafter := hbalance.2 addr asset
  rw [houtputs, hadded, paidTo_append, addedTo_append]
  omega

end

/-- Before the first unit: no rewards are recorded, nothing is paid or added. -/
def start (db : Db) : RewardState :=
  ⟨db, [], []⟩

/-- A run keeps the balance. -/
lemma Run.conserved (h58 : c.rep.P.Base58RoundTrip) {us : List RewardUnit} (hrun : c.Run s us s')
    (hok : RewardsOk c.rep.P s.db) (hcons : c.Conserved s) : c.Conserved s' := by
  induction hrun with
  | nil => exact hcons
  | cons hu hstep _ ih =>
    obtain ⟨hok', hcons'⟩ := conserved_step h58 hok hcons hu hstep
    exact ih hok' hcons'

/-- Every run of such units from a state without recorded rewards keeps the balance, for each
address and asset. -/
theorem rewards_conserved (h58 : c.rep.P.Base58RoundTrip) {db : Db}
    (hempty : ∀ key, rewardAddressPrefix <+: key →
      db.getContractState coinbaseContractId key = none)
    {us : List RewardUnit} (hrun : c.Run (start db) us s) : c.Conserved s := by
  refine hrun.conserved h58 (rewardsOk_of_empty hempty) fun addr asset => ?_
  have hnone : c.incomeOf db addr = [] := by
    rw [incomeOf, hempty (rewardKey c.rep.P addr) (prefix_append _ _)]
    rfl
  rw [start, hnone]
  rfl

/-- Sums do not overflow as long as all additions so far sum up to less. -/
lemma fits_of_total (hcons : c.Conserved s)
    (htotal : ((s.added ++ u.ads).map fun ad => ad.amount.toNat).sum < 2 ^ 64) (addr : Address)
    (asset : Asset) :
    sumOf asset (c.incomeOf s.db addr) + addedTo addr asset u.ads < 2 ^ 64 := by
  have hle : addedTo addr asset (s.added ++ u.ads) ≤
      ((s.added ++ u.ads).map fun ad => ad.amount.toNat).sum :=
    List.Sublist.sum_le_sum (((filter_sublist.trans filter_sublist).map _)) fun _ _ => Nat.zero_le _
  have hbefore := hcons addr asset
  rw [addedTo_append] at hle
  omega

/-! ### Two assets for one address -/

namespace TwoUnits

/-- A chain that pays out at every second height. -/
def chain : RewardChain :=
  ⟨⟨SmallNode.primitives, fun _ _ => none, fun _ _ => false⟩, fun _ => [], 2⟩

/-- The author of the units. -/
def mediator : Address :=
  ⟨List.replicate 20 3 ++ [0], rfl⟩

/-- A juror. -/
def juror : Address :=
  ⟨List.replicate 20 4 ++ [0], rfl⟩

/-- An asset other than PTN. -/
def otherAsset : Asset :=
  ⟨ptnCoin, ⟨List.replicate 15 0 ++ [1], rfl⟩⟩

/-- A unit with additions. -/
def unit (height : UInt64) (ads : List Addition) : RewardUnit :=
  ⟨⟨⟨ptnCoin, height⟩, 0⟩, ads, .listed _ _, .listed _ _⟩

/-- Rewards for two addresses. -/
def first : RewardUnit :=
  unit 1 [⟨mediator, 5, newPTNAsset⟩, ⟨juror, 7, newPTNAsset⟩]

/-- At the payout, rewards in two assets for one address. -/
def second : RewardUnit :=
  unit 2 [⟨mediator, 3, newPTNAsset⟩, ⟨mediator, 2, otherAsset⟩]

/-- Between payouts, rewards in two assets for one address. -/
def mixed : RewardUnit :=
  unit 1 [⟨mediator, 5, newPTNAsset⟩, ⟨mediator, 7, otherAsset⟩]

/-- The state after the first unit. -/
def afterFirst : RewardState :=
  (chain.produce first (start .empty)).get (by decide +kernel)

lemma produce_first : chain.produce first (start .empty) = some afterFirst :=
  (some_get _).symm

lemma conserved_start : chain.Conserved (start .empty) :=
  fun _ _ => rfl

lemma firstOk : chain.UnitOk first (start .empty) where
  known := by decide +kernel
  distinct _ := by decide +kernel
  fits := fits_of_total conserved_start (by decide)
  encodable := by decide +kernel

lemma secondOk : chain.UnitOk second afterFirst where
  known := by decide +kernel
  distinct h := absurd (by decide) h
  fits := fits_of_total (conserved_step SmallNode.base58RoundTrip
    (rewardsOk_of_empty fun _ _ => rfl) conserved_start firstOk produce_first).2 (by decide +kernel)
  encodable := by decide +kernel

/-- Eight tokens are earned and paid out. -/
theorem rewards_conserved_payout :
    ∃ s, chain.Run (start .empty) [first, second] s ∧ chain.Conserved s ∧
      paidTo SmallNode.primitives mediator newPTNAsset s.outputs = 8 := by
  have hsome : (chain.produce second afterFirst).isSome := by decide +kernel
  obtain ⟨s, hs⟩ := isSome_iff_exists.1 hsome
  have hrun : chain.Run (start .empty) [first, second] s :=
    .cons firstOk produce_first (.cons secondOk hs (.nil s))
  refine ⟨s, hrun, rewards_conserved SmallNode.base58RoundTrip (fun _ _ => rfl) hrun, ?_⟩
  have hpaid : (chain.produce second afterFirst).map
      (fun s => paidTo SmallNode.primitives mediator newPTNAsset s.outputs) = some 8 := by
    decide +kernel
  rw [hs] at hpaid
  exact some.inj hpaid

/-- The state after the unit with two assets for one address. -/
def afterMixed : RewardState :=
  (chain.produce mixed (start .empty)).get (by decide +kernel)

/-- A unit between payouts that adds two assets for one address: the first is gone. -/
theorem second_asset_lost :
    chain.produce mixed (start .empty) = some afterMixed ∧ ¬ chain.Conserved afterMixed := by
  refine ⟨(some_get _).symm, fun h => ?_⟩
  exact absurd (h mediator newPTNAsset) (by decide +kernel)

end TwoUnits

end RewardChain

end ZwsChain
