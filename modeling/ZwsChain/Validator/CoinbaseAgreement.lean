import Mathlib
import ZwsChain.Dag.Coinbase
import ZwsChain.Validator.CoinbaseSound

/-!
# The producer's coinbase before the validator

The producer of a unit and its validators compute the coinbase apart from each other, each from
its own list of additions. When is the coinbase built from one list accepted by the check against
another one?

* `validateCoinbase_state_iff`: for the state form, each addition of the producer is compatible
  with the last one that the validator has for its address.
* `validateCoinbase_payment_iff`: for the payment form, both sides reward the same addresses, each
  in one asset and in the same amount.
-/

namespace ZwsChain

open AList Producer

/-! ### Matching additions -/

/-- An addition of the producer and one of the validator lead from the recorded income to lists
in which no asset has two amounts. -/
structure Compatible (income : List AmountAsset) (p v : Addition) : Prop where
  consistent : ∀ e ∈ income, ∀ e' ∈ income, e.asset = e'.asset → e.amount = e'.amount
  same : p.asset = v.asset → p.amount = v.amount
  other : p.asset ≠ v.asset → ∀ e ∈ income,
    (e.asset = p.asset → p.amount = 0) ∧ (e.asset = v.asset → v.amount = 0)

instance (income : List AmountAsset) (p v : Addition) : Decidable (Compatible income p v) :=
  decidable_of_iff
    ((∀ e ∈ income, ∀ e' ∈ income, e.asset = e'.asset → e.amount = e'.amount) ∧
      (p.asset = v.asset → p.amount = v.amount) ∧ (p.asset ≠ v.asset → ∀ e ∈ income,
        (e.asset = p.asset → p.amount = 0) ∧ (e.asset = v.asset → v.amount = 0)))
    ⟨fun h => ⟨h.1, h.2.1, h.2.2⟩, fun h => ⟨h.consistent, h.same, h.other⟩⟩

variable {income : List AmountAsset}

/-- How an entry of the recorded income appears after an addition. -/
lemma mem_addIncome_of_mem {e : AmountAsset} (he : e ∈ income) (newAmount : UInt64)
    (asset : Asset) :
    ⟨if e.asset = asset then e.amount + newAmount else e.amount, e.asset⟩ ∈
      addIncome income newAmount asset := by
  rw [mem_addIncome]
  by_cases h : e.asset = asset
  · rw [if_pos h]
    exact .inr ⟨h, .inl ⟨e, he, h, rfl⟩⟩
  · rw [if_neg h]
    exact .inl ⟨h, he⟩

/-- Lists after two additions agree iff the additions are compatible. -/
lemma addIncome_agree_iff {p v : Addition} :
    (∀ a ∈ addIncome income v.amount v.asset, ∀ b ∈ addIncome income p.amount p.asset,
      a.asset = b.asset → a.amount = b.amount) ↔ Compatible income p v := by
  constructor
  · intro h
    have hentries : ∀ e ∈ income, ∀ e' ∈ income, e.asset = e'.asset →
        (if e.asset = v.asset then e.amount + v.amount else e.amount) =
          if e'.asset = p.asset then e'.amount + p.amount else e'.amount :=
      fun e he e' he' hee' =>
        h _ (mem_addIncome_of_mem he _ _) _ (mem_addIncome_of_mem he' _ _) hee'
    refine ⟨fun e he e' he' hee' => ?_, fun hsame => ?_, fun hne e he => ?_⟩
    · have h₁ := hentries e he e' he' hee'
      grind
    · by_cases hold : ∃ e ∈ income, e.asset = p.asset
      · obtain ⟨e, he, hep⟩ := hold
        have h₁ := hentries e he e he rfl
        grind
      push Not at hold
      exact (h ⟨v.amount, v.asset⟩ (mem_addIncome.2 (.inr ⟨rfl, .inr ⟨hsame ▸ hold, rfl⟩⟩))
        ⟨p.amount, p.asset⟩ (mem_addIncome.2 (.inr ⟨rfl, .inr ⟨hold, rfl⟩⟩)) hsame.symm).symm
    have h₁ := hentries e he e he rfl
    constructor
    · intro hep
      grind
    intro hev
    grind
  intro ⟨hcons, hsame, hother⟩ a ha b hb hab
  rw [mem_addIncome] at ha hb
  grind

/-! ### One asset for each address -/

/-- The sum of the additions of an asset. -/
def totalOf (asset : Asset) (ads : List Addition) : UInt64 :=
  ((ads.filter fun ad => ad.asset = asset).map Addition.amount).sum

/-- The recorded income of an address and the producer's additions to it are of one asset, with
one recorded entry at most, and the validator adds as much of this asset. -/
def PaysSame (income : List AmountAsset) (ads ads' : List Addition) : Prop :=
  ∃ asset, income.length ≤ 1 ∧ (∀ e ∈ income, e.asset = asset) ∧ (∀ p ∈ ads, p.asset = asset) ∧
    (income ≠ [] ∨ (∃ v ∈ ads', v.asset = asset) → totalOf asset ads' = totalOf asset ads)

/-- The entries of the only asset of an income after additions. -/
lemma amountsOf_addIncomes_single {asset : Asset} (hlen : income.length ≤ 1)
    (hincome : ∀ e ∈ income, e.asset = asset) (ads : List Addition) :
    (income = [] ∧ (∀ ad ∈ ads, ad.asset ≠ asset) ∧ amountsOf asset (addIncomes income ads) = []) ∨
    ((income ≠ [] ∨ ∃ ad ∈ ads, ad.asset = asset) ∧
      amountsOf asset (addIncomes income ads) =
        [⟨(income.map AmountAsset.amount).sum + totalOf asset ads, asset⟩]) := by
  have hself : amountsOf asset income = income :=
    List.filter_eq_self.2 fun e he => by simpa using hincome e he
  have hall : ∀ ad ∈ ads.filter fun ad => ad.asset = asset, ad.asset = asset :=
    fun ad had => by simpa using (List.mem_filter.1 had).2
  rw [amountsOf_addIncomes, hself, totalOf]
  match income, hlen with
  | [e], _ =>
    obtain ⟨amount, s⟩ := e
    obtain rfl : s = asset := hincome _ List.mem_cons_self
    refine .inr ⟨.inl (List.cons_ne_nil _ _), ?_⟩
    rw [addIncomes_singleton hall]
    simp
  | [], _ =>
    cases hads : ads.filter fun ad => ad.asset = asset with
    | nil =>
      refine .inl ⟨rfl, fun ad had heq => ?_, rfl⟩
      have hmem : ad ∈ ads.filter fun ad => ad.asset = asset :=
        List.mem_filter.2 ⟨had, by simpa using heq⟩
      rw [hads] at hmem
      cases hmem
    | cons ad rest =>
      rw [hads] at hall
      have had : ad ∈ ads.filter fun ad => ad.asset = asset := hads ▸ List.mem_cons_self
      have hasset := hall ad List.mem_cons_self
      refine .inr ⟨.inr ⟨ad, (List.mem_filter.1 had).1, hasset⟩, ?_⟩
      have hfirst : addIncome [] ad.amount ad.asset = [⟨ad.amount, asset⟩] := by
        simp [addIncome, hasset]
      rw [addIncomes_cons, hfirst,
        addIncomes_singleton fun x hx => hall x (List.mem_cons_of_mem _ hx)]
      simp

/-- One output that agrees with what the validator expects, iff both sides pay the same. -/
lemma addIncomes_single_iff {ads ads' : List Addition} (hne : income ≠ [] ∨ ads ≠ []) :
    ((addIncomes income ads).length = 1 ∧
      ∀ x ∈ addIncomes income ads', ∀ y ∈ addIncomes income ads,
        x.asset = y.asset → x.amount = y.amount) ↔ PaysSame income ads ads' := by
  constructor
  · rintro ⟨hlen, hagree⟩
    obtain ⟨⟨amount, asset⟩, hsingle⟩ := List.length_eq_one_iff.1 hlen
    have hassets : ∀ s, ((∃ e ∈ income, e.asset = s) ∨ ∃ ad ∈ ads, ad.asset = s) → s = asset := by
      intro s hs
      obtain ⟨e, he, rfl⟩ := exists_asset_addIncomes.2 hs
      rw [hsingle, List.mem_singleton] at he
      rw [he]
    have hincome : ∀ e ∈ income, e.asset = asset := fun e he => hassets _ (.inl ⟨e, he, rfl⟩)
    have hads : ∀ p ∈ ads, p.asset = asset := fun p hp => hassets _ (.inr ⟨p, hp, rfl⟩)
    have hlen' : income.length ≤ 1 := hlen ▸ length_le_addIncomes income ads
    refine ⟨asset, hlen', hincome, hads, fun hpaid => ?_⟩
    rcases amountsOf_addIncomes_single hlen' hincome ads' with ⟨hnil, hno, -⟩ | ⟨-, hv⟩
    · rcases hpaid with hpaid | ⟨v, hv, hasset⟩
      · exact absurd hnil hpaid
      · exact absurd hasset (hno v hv)
    rcases amountsOf_addIncomes_single hlen' hincome ads with ⟨hnil, hno, -⟩ | ⟨-, hp⟩
    · obtain ⟨p, hp⟩ := List.exists_mem_of_ne_nil _ (hne.resolve_left (not_not.2 hnil))
      exact absurd (hads p hp) (hno p hp)
    have hx := (List.mem_filter.1 (hv ▸ List.mem_singleton_self _ : _ ∈ amountsOf _ _)).1
    have hy := (List.mem_filter.1 (hp ▸ List.mem_singleton_self _ : _ ∈ amountsOf _ _)).1
    have hamount := hagree _ hx _ hy rfl
    exact (UInt64.add_right_inj _).1 hamount
  rintro ⟨asset, hlen, hincome, hads, hpaid⟩
  rcases amountsOf_addIncomes_single hlen hincome ads with ⟨hnil, hno, -⟩ | ⟨-, hp⟩
  · obtain ⟨p, hp⟩ := List.exists_mem_of_ne_nil _ (hne.resolve_left (not_not.2 hnil))
    exact absurd (hads p hp) (hno p hp)
  have hself : amountsOf asset (addIncomes income ads) = addIncomes income ads := by
    refine List.filter_eq_self.2 fun e he => ?_
    rcases exists_asset_addIncomes.1 ⟨e, he, rfl⟩ with ⟨e', he', h⟩ | ⟨p, hp, h⟩
    · simpa [← h] using hincome e' he'
    · simpa [← h] using hads p hp
  rw [hself] at hp
  refine ⟨by rw [hp]; rfl, fun x hx y hy hxy => ?_⟩
  rw [hp, List.mem_singleton] at hy
  subst hy
  have hx : x ∈ amountsOf asset (addIncomes income ads') :=
    List.mem_filter.2 ⟨hx, by simpa using hxy⟩
  rcases amountsOf_addIncomes_single hlen hincome ads' with ⟨-, -, hv⟩ | ⟨hv, hv'⟩
  · rw [hv] at hx
    cases hx
  · rw [hv', List.mem_singleton] at hx
    rw [hx, hpaid hv]

namespace Validate

variable {V : Validate} {R : Producer} {db : Db} {ads ads' : List Addition}

/-! ### The state form -/

section

variable (h58 : R.P.Base58RoundTrip) (hP : V.P = R.P)
include h58 hP

/-- What the comparison of an address asks of the producer's write set. -/
lemma rewardExist_stateWrite_iff
    (hfits : ∀ p ∈ ads, (R.stateWrite db p).value.length < 2 ^ 64) (addr : Address)
    (aa : List AmountAsset) :
    (V.onDb db).rewardExist addr aa (ads.map (R.stateWrite db)) = true ↔
      ∀ p ∈ ads, p.addr = addr → ∀ a ∈ aa,
        ∀ b ∈ addIncome (R.incomeOf db addr) p.amount p.asset,
          a.asset = b.asset → a.amount = b.amount := by
  rw [rewardExist, List.all_map, List.all_eq_true]
  refine forall₂_congr fun p hp => ?_
  have hkey : (R.stateWrite db p).key = rewardKey (V.onDb db).P addr ↔ p.addr = addr := by
    show rewardKey R.P p.addr = rewardKey V.P addr ↔ _
    rw [hP]
    exact (rewardKey_injective h58).eq_iff
  by_cases haddr : p.addr = addr
  · have hdecode : decodeIncome (R.stateWrite db p).value =
        some (addIncome (R.incomeOf db addr) p.amount p.asset) := by
      rw [← haddr]
      exact decodeIncome_encodeIncome (hfits p hp)
    simp only [Function.comp_apply, hkey.2 haddr, ne_eq, not_true_eq_false, decide_false,
      Bool.false_or, hdecode, List.all_eq_true, haddr, forall_const]
    refine forall₄_congr fun a _ b _ => ?_
    simp [imp_iff_not_or]
  have hne : (R.stateWrite db p).key ≠ rewardKey (V.onDb db).P addr :=
    fun h => haddr (hkey.1 h)
  simp [Function.comp_apply, hne, haddr]

/-- The state form is accepted iff each addition of the producer is compatible with the last one
that the validator has for its address. -/
lemma validateCoinbase_state_iff
    (hfits : ∀ p ∈ ads, (R.stateWrite db p).value.length < 2 ^ 64) :
    (V.onDb db).validateCoinbase R.ofMalformed (R.createCoinbaseState db ads).1 ads' =
        some .valid ↔
      ∀ p ∈ ads, ∀ v, (ads'.filter fun ad => ad.addr = p.addr).getLast? = some v →
        Compatible (R.incomeOf db p.addr) p v := by
  have hincome : ∀ addr, (V.onDb db).incomeOf R.ofMalformed addr = R.incomeOf db addr := by
    intro addr
    rw [incomeOf, Producer.incomeOf, ← hP]
    rfl
  have hcode : (V.onDb db).validateCoinbase R.ofMalformed (R.createCoinbaseState db ads).1 ads' =
      some .valid ↔ (V.onDb db).compareRewardAndWriteset
        ((V.onDb db).stateRewards R.ofMalformed ads') (ads.map (R.stateWrite db)) = true := by
    show some ((V.onDb db).validateCoinbaseState R.ofMalformed _ ads') = some .valid ↔ _
    simp [validateCoinbaseState]
  rw [hcode, compareRewardAndWriteset, List.all_eq_true]
  constructor
  · intro h p hp v hlast
    have hlookup : ((V.onDb db).stateRewards R.ofMalformed ads').lookup p.addr = some _ :=
      (lookup_stateRewards p.addr).trans (by rw [hlast, Option.map_some])
    have hexist := h _ (mem_lookup_iff.1 hlookup)
    rw [rewardExist_stateWrite_iff h58 hP hfits] at hexist
    rw [← addIncome_agree_iff, ← hincome]
    simpa only [hincome] using hexist p hp rfl
  rintro h ⟨addr, aa⟩ he
  have hlookup := mem_lookup_iff.2 he
  rw [lookup_stateRewards] at hlookup
  obtain ⟨v, hlast, rfl⟩ := Option.map_eq_some_iff.1 hlookup
  rw [rewardExist_stateWrite_iff h58 hP hfits]
  rintro p hp rfl
  rw [hincome]
  exact addIncome_agree_iff.2 (h p hp v hlast)

/-! ### The payment form -/

lemma clearCount_clearPayload (rewards : Rewards)
    (addr : Address) :
    (V.onDb db).clearCount addr (R.clearPayload db rewards).writeSet =
      if addr ∈ rewards.keys then 1 else 0 := by
  have hpred : ∀ e : Σ _ : Address, List AmountAsset,
      (decide ((R.clearWrite e).key = rewardKey (V.onDb db).P addr) &&
        decide ((R.clearWrite e).value = encodeIncome [])) = (e.1 == addr) := by
    intro e
    show (decide (rewardKey R.P e.1 = rewardKey V.P addr) && decide (_ = _)) = _
    rw [hP, beq_eq_decide]
    simp only [clearWrite, decide_true, Bool.and_true, decide_eq_decide]
    exact (rewardKey_injective h58).eq_iff
  calc (V.onDb db).clearCount addr (R.clearPayload db rewards).writeSet
      = (R.clearOrder.toList rewards).countP fun e => e.1 == addr := by
        rw [clearCount, clearPayload, List.countP_map]
        exact List.countP_congr fun e _ => by rw [Function.comp_apply, hpred]
    _ = rewards.entries.countP fun e => e.1 == addr := (R.clearOrder.perm rewards).countP_eq _
    _ = rewards.keys.count addr := by
        rw [keys, List.keys, List.count, List.countP_map]
        rfl
    _ = _ := rewards.keys_nodup.count

/-- The clearing is accepted iff the producer clears every address that the validator expects. -/
lemma compareRewardAndStateClear_iff
    (expected rewards : Rewards) :
    (V.onDb db).compareRewardAndStateClear expected (R.clearPayload db rewards).writeSet =
      true ↔ expected.keys ⊆ rewards.keys := by
  have hsum : ∀ keys : List Address,
      (keys.map fun addr => if addr ∈ rewards.keys then 1 else 0).sum =
        keys.countP fun addr => addr ∈ rewards.keys := by
    intro keys
    induction keys with
    | nil => rfl
    | cons addr keys ih =>
      rw [List.map_cons, List.sum_cons, ih, List.countP_cons, add_comm]
      simp
  simp only [compareRewardAndStateClear, clearCount_clearPayload h58 hP, decide_eq_true_eq, hsum,
    List.countP_eq_length]
  rfl

end

/-- An address' outputs are accepted iff they agree with what the validator expects. -/
lemma rewardExistInOutputs_iff {rewards : Rewards}
    (hknown : ∀ addr ∈ rewards.keys, addr.hasKnownType) (addr : Address) (aa : List AmountAsset) :
    (V.onDb db).rewardExistInOutputs addr aa
        ((R.outputOrder.toList rewards).flatMap rewardOutputs) = true ↔
      ∀ paid, rewards.lookup addr = some paid → ∀ x ∈ aa, ∀ y ∈ paid,
        x.asset = y.asset → x.amount = y.amount := by
  have hmem : ∀ e, e ∈ R.outputOrder.toList rewards ↔ rewards.lookup e.1 = some e.2 :=
    fun e => ((R.outputOrder.perm rewards).mem_iff).trans mem_lookup_iff.symm
  have haddr : ∀ e ∈ R.outputOrder.toList rewards,
      TxScript.getAddressFromScript (V.onDb db).P (TxScript.generateLockScript e.1) =
        some e.1 := by
    intro e he
    refine TxScript.getAddressFromScript_generateLockScript _ (hknown _ ?_)
    exact mem_keys.1 (lookup_isSome.1 (by rw [(hmem e).1 he]; rfl))
  simp only [rewardExistInOutputs, List.all_eq_true, List.mem_flatMap, rewardOutputs, List.mem_map]
  constructor
  · intro h paid hpaid x hx y hy hxy
    have he : (⟨addr, paid⟩ : Σ _ : Address, List AmountAsset) ∈ R.outputOrder.toList rewards :=
      (hmem _).2 hpaid
    have hout := h _ ⟨_, he, y, hy, rfl⟩
    simp only [haddr _ he, Option.getD_some, ne_eq, not_true_eq_false, decide_false,
      Bool.false_or, List.all_eq_true] at hout
    have hx := hout x hx
    simpa [hxy] using hx
  rintro h out ⟨e, he, y, hy, rfl⟩
  by_cases heq : e.1 = addr
  · subst heq
    simp only [haddr _ he, Option.getD_some, ne_eq, not_true_eq_false, decide_false,
      Bool.false_or, List.all_eq_true]
    intro x hx
    by_cases hxy : x.asset = y.asset
    · simp [hxy, h _ ((hmem e).1 he) x hx y hy hxy]
    · simp [hxy]
  · simp [haddr _ he, heq]

variable {addrMap : List (Bytes × ContractStateValue)} {total : UInt64} {tx : Transaction}
  {l l' : List Addition}

/-- The coinbase of the payment form is accepted iff its outputs agree with the expected rewards,
there are as many outputs as expected addresses, and each of these is cleared. -/
lemma validateCoinbase_payment
    (haddr : db.getContractStatesByPrefix coinbaseContractId rewardAddressPrefix = some addrMap)
    (hP : V.P = R.P) (htx : R.createCoinbasePayment db ads = .ok (tx, total)) :
    (V.onDb db).validateCoinbase R.ofMalformed tx ads' = some .valid ↔
      (V.onDb db).compareRewardAndOutput (R.paymentRewards addrMap ads')
          ((R.outputOrder.toList (R.paymentRewards addrMap ads)).flatMap rewardOutputs) =
        true ∧
      (V.onDb db).compareRewardAndStateClear (R.paymentRewards addrMap ads')
        (R.clearPayload db (R.paymentRewards addrMap ads)).writeSet = true := by
  have hexpected : (V.onDb db).paymentRewards R.ofMalformed addrMap ads' =
      R.paymentRewards addrMap ads' := by
    rw [paymentRewards, Producer.paymentRewards, ← hP]
    rfl
  have hlen : addrMap.length > 0 :=
    List.length_pos_iff.2 (Db.getContractStatesByPrefix_ne_nil (by decide) haddr)
  rw [createCoinbasePayment, haddr] at htx
  obtain rfl := (Prod.mk.inj (Except.ok.inj htx)).1
  show (V.onDb db).validateCoinbasePayment R.ofMalformed ⟨[], _, 0⟩ [.contractInvoke _] ads' =
    some .valid ↔ _
  have hquery : (V.onDb db).getContractStatesByPrefix coinbaseContractId rewardAddressPrefix =
      some addrMap := haddr
  simp only [validateCoinbasePayment, hquery, hexpected, if_pos hlen]
  split
  · rename_i h
    simp_all
  split
  · rename_i hid
    exact absurd rfl hid
  split
  · rename_i h'
    simp_all
  · rename_i h'
    simp_all

lemma length_rewardOutputs (rewards : Rewards) :
    ((R.outputOrder.toList rewards).flatMap rewardOutputs).length =
      (rewards.entries.map fun g => g.2.length).sum := by
  rw [List.length_flatMap]
  simp only [rewardOutputs, List.length_map]
  exact ((R.outputOrder.perm rewards).map _).sum_eq

/-- Both sides reward the same addresses, each in one asset and in the same amount. -/
structure PaymentAgrees (stored : Rewards) (ads ads' : List Addition) : Prop where
  addresses : ∀ addr, Rewarded stored ads addr ↔ Rewarded stored ads' addr
  amounts : ∀ addr, Rewarded stored ads addr → PaysSame ((stored.lookup addr).getD [])
    (ads.filter fun ad => ad.addr = addr) (ads'.filter fun ad => ad.addr = addr)

/-- The payment form is accepted iff both sides reward the same addresses, each in one asset and
in the same amount. -/
lemma validateCoinbase_payment_iff
    (haddr : db.getContractStatesByPrefix coinbaseContractId rewardAddressPrefix = some addrMap)
    (h58 : R.P.Base58RoundTrip) (hP : V.P = R.P) (hknown : ∀ p ∈ ads, p.addr.hasKnownType)
    (htx : R.createCoinbasePayment db ads = .ok (tx, total)) :
    (V.onDb db).validateCoinbase R.ofMalformed tx ads' = some .valid ↔
      PaymentAgrees (storedRewards R.P R.ofMalformed addrMap) ads ads' := by
  rw [validateCoinbase_payment haddr hP htx, compareRewardAndStateClear_iff h58 hP,
    Producer.paymentRewards, Producer.paymentRewards]
  generalize hstored : storedRewards R.P R.ofMalformed addrMap = stored
  have hlookup : ∀ addr aa, stored.lookup addr = some aa → aa ≠ [] ∧ addr.hasKnownType :=
    fun addr aa haa => storedRewards_lookup (hstored ▸ haa)
  have hne : ∀ addr, Rewarded stored ads addr → _ := fun addr => ne_nil_of_rewarded hlookup
  have hkeys : ∀ addr ∈ (addRewards stored ads).keys, addr.hasKnownType := fun addr hmem =>
    hasKnownType_of_rewarded hlookup hknown (mem_keys_addRewards.1 hmem)
  have hgroups : ∀ g ∈ (addRewards stored ads).entries, g.2 ≠ [] := fun g =>
    ne_nil_of_mem_addRewards hlookup
  have hentries : (addRewards stored ads').entries.length = (addRewards stored ads').keys.length :=
    (List.length_map ..).symm
  rw [compareRewardAndOutput, Bool.and_eq_true, List.all_eq_true, decide_eq_true_eq,
    length_rewardOutputs, hentries]
  constructor
  · rintro ⟨⟨hexist, hlen⟩, hsub⟩
    obtain ⟨hsup, hone⟩ := (Lib.Keyed.length_eq_sum_iff (addRewards stored ads').keys_nodup
      (addRewards stored ads).keys_nodup hsub hgroups).1 hlen
    refine ⟨fun addr => ?_, fun addr hrewarded => ?_⟩
    · rw [← mem_keys_addRewards, ← mem_keys_addRewards]
      exact ⟨fun h => hsup h, fun h => hsub h⟩
    have hpaid := lookup_addRewards_eq_some.2 ⟨hrewarded, rfl⟩
    have hrewarded' := mem_keys_addRewards.1 (hsup (mem_keys_addRewards.2 hrewarded))
    have hexpected := lookup_addRewards_eq_some.2 ⟨hrewarded', rfl⟩
    refine (addIncomes_single_iff (hne addr hrewarded)).1 ⟨?_, ?_⟩
    · exact hone _ (mem_lookup_iff.1 hpaid)
    · exact (rewardExistInOutputs_iff hkeys _ _).1 (hexist _ (mem_lookup_iff.1 hexpected)) _ hpaid
  rintro ⟨haddresses, hamounts⟩
  have hsub : (addRewards stored ads').keys ⊆ (addRewards stored ads).keys := fun addr h =>
    mem_keys_addRewards.2 ((haddresses addr).2 (mem_keys_addRewards.1 h))
  have hsup : (addRewards stored ads).keys ⊆ (addRewards stored ads').keys := fun addr h =>
    mem_keys_addRewards.2 ((haddresses addr).1 (mem_keys_addRewards.1 h))
  refine ⟨⟨fun e he => ?_, ?_⟩, hsub⟩
  · obtain ⟨hrewarded', hexpected⟩ :=
      lookup_addRewards_eq_some.1 (mem_lookup_iff.2 he)
    rw [rewardExistInOutputs_iff hkeys]
    intro paid hpaid
    obtain ⟨hrewarded, rfl⟩ := lookup_addRewards_eq_some.1 hpaid
    rw [hexpected]
    exact ((addIncomes_single_iff (hne _ hrewarded)).2 (hamounts _ hrewarded)).2
  refine (Lib.Keyed.length_eq_sum_iff (addRewards stored ads').keys_nodup
    (addRewards stored ads).keys_nodup hsub hgroups).2 ⟨hsup, fun g hg => ?_⟩
  obtain ⟨hrewarded, heq⟩ := lookup_addRewards_eq_some.1 (mem_lookup_iff.2 hg)
  rw [heq]
  exact ((addIncomes_single_iff (hne _ hrewarded)).2 (hamounts _ hrewarded)).1

lemma totalOf_perm (h : l.Perm l') (asset : Asset) : totalOf asset l = totalOf asset l' :=
  ((h.filter _).map _).sum_eq

lemma rewarded_perm (h : l.Perm l') (stored : Rewards) (addr : Address) :
    Rewarded stored l addr ↔ Rewarded stored l' addr := by
  refine or_congr_right (not_congr ?_)
  rw [← List.length_eq_zero_iff, (h.filter _).length_eq, List.length_eq_zero_iff]

/-- The order of additions does not matter in the payment form. -/
lemma PaymentAgrees.perm {stored : Rewards} {m m' : List Addition} (h : PaymentAgrees stored l m)
    (hl : l.Perm l') (hm : m.Perm m') : PaymentAgrees stored l' m' := by
  refine ⟨fun addr => ?_, fun addr hrewarded => ?_⟩
  · rw [← rewarded_perm hl, ← rewarded_perm hm]
    exact h.addresses addr
  obtain ⟨asset, hlen, hincome, hads, hpaid⟩ :=
    h.amounts addr ((rewarded_perm hl stored addr).2 hrewarded)
  have hl' := hl.filter fun ad => ad.addr = addr
  have hm' := hm.filter fun ad => ad.addr = addr
  refine ⟨asset, hlen, hincome, fun p hp => hads p (hl'.mem_iff.2 hp), fun hor => ?_⟩
  rw [← totalOf_perm hl', ← totalOf_perm hm']
  refine hpaid (hor.imp_right ?_)
  rintro ⟨v, hv, hasset⟩
  exact ⟨v, hm'.mem_iff.2 hv, hasset⟩

end Validate

end ZwsChain
