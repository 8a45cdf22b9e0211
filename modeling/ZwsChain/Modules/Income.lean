import Mathlib
import ZwsChain.Dag.StateDb

/-!
# Rewards that wait in the coinbase contract's state

Between two payout heights the rewards of an address are kept in the state of the coinbase
contract, as the RLP list of its amounts per asset under a key made of its text. The producer of
a unit and its validators use these functions on both sides; `addIncome` and
`arrangeAdditionFeeList` exist twice in the source with one body.

* `decodeIncome_encodeIncome`: a list within the length limit of RLP reads back.
* `rewardKey_injective`: keys tell addresses apart.
-/

open List AList

namespace ZwsChain

open AmountAsset
open Lib.Rlp (Item encode)

/-- Source: `core/contractPub/syscontract`, `CoinbaseContractAddress` -/
def coinbaseContractId : Bytes :=
  List.replicate 19 0 ++ [5]

/-- Source: `dag/constants/prefix_info.go`, `RewardAddressPrefix` -/
def rewardAddressPrefix : Bytes :=
  ascii "Addr:"

/-- The field of the coinbase contract that holds the rewards of an address. -/
def rewardKey (P : Primitives) (addr : Address) : Bytes :=
  rewardAddressPrefix ++ addr.str P

variable {P : Primitives} {income : List AmountAsset} {asset s : Asset} {newAmount : UInt64}
  {ads : List Addition} {addr : Address} {stored : Rewards}

lemma rewardKey_injective (h58 : P.Base58RoundTrip) : Function.Injective (rewardKey P) :=
  fun _ _ h => Address.str_injective P h58 (append_cancel_left h)

/-! ### Lists of amounts -/

/-- Source: Go's `rlp` of `AmountAsset` -/
def AmountAsset.rlpItem (a : AmountAsset) : Item :=
  .list [.ofUInt64 a.amount, Message.assetItem a.asset]

/-- Source: Go's `rlp` of `AmountAsset` -/
def AmountAsset.ofItem : Item → Option AmountAsset
  | .list [amount, .list [.str assetId, .str uniqueId]] => do
      let amount ← amount.toUInt64
      if h : assetId.length = 16 ∧ uniqueId.length = 16 then
        some ⟨amount, ⟨⟨assetId, h.1⟩, ⟨uniqueId, h.2⟩⟩⟩
      else none
  | _ => none

/-- Source: `rlp.EncodeToBytes` of a list of amounts -/
def encodeIncome (income : List AmountAsset) : Bytes :=
  encode (.list (income.map rlpItem))

/-- `none` is a decoding error.
Source: `rlp.DecodeBytes` into a list of amounts -/
def decodeIncome (b : Bytes) : Option (List AmountAsset) :=
  match Lib.Rlp.decode b with
  | some (.list items) => items.mapM ofItem
  | _ => none

@[simp] lemma AmountAsset.ofItem_rlpItem (a : AmountAsset) : ofItem a.rlpItem = some a := by
  have hid := a.asset.assetId.property
  have hunique := a.asset.uniqueId.property
  simp [rlpItem, ofItem, Message.assetItem, hid, hunique]

lemma decodeIncome_encodeIncome (h : (encodeIncome income).length < 2 ^ 64) :
    decodeIncome (encodeIncome income) = some income := by
  have hitems : ∀ l : List AmountAsset,
      (l.map rlpItem).mapM ofItem = some l := by
    intro l
    induction l with
    | nil => rfl
    | cons a l ih => simp [ih]
  rw [decodeIncome, encodeIncome, Lib.Rlp.decode_encode _ h]
  exact hitems income

variable (ofMalformed : Bytes → List AmountAsset)

/-- The rewards of an address in the state: none if there is no entry. A value that does not
decode leaves in the list what was read before the error, which is the parameter `ofMalformed`.
Source: `dag/common/unit_repository.go`, `createCoinbaseState`; `validator/validate_tx.go`,
`validateCoinbase` -/
def storedIncome : Option ContractStateValue →
    List AmountAsset
  | none => []
  | some v => (decodeIncome v.value).getD (ofMalformed v.value)

/-- The rewards under a field of the coinbase contract after entries of write sets, each given
with the contract of its result, from those before. -/
def recordedAfter (key : Bytes)
    (income : List AmountAsset) (writes : List (Bytes × ContractWriteSet)) : List AmountAsset :=
  writes.foldl (fun income (id, w) =>
    if Db.contractStateKey (Db.writeTarget id w) w.key = Db.contractStateKey coinbaseContractId key
    then if w.isDelete then [] else (decodeIncome w.value).getD (ofMalformed w.value)
    else income) income

/-- `recordedAfter` is what the saved write set leaves in the database. -/
lemma storedIncome_saveContractStates (id key : Bytes)
    (version : StateVersion) (wset : List ContractWriteSet) (db : Db) :
    storedIncome ofMalformed
        ((db.saveContractStates id wset version).getContractState coinbaseContractId key) =
      recordedAfter ofMalformed key
        (storedIncome ofMalformed (db.getContractState coinbaseContractId key))
        (wset.map fun w => (id, w)) := by
  induction wset generalizing db with
  | nil => rfl
  | cons w wset ih =>
    rw [Db.saveContractStates, foldl_cons, ← Db.saveContractStates, ih, recordedAfter,
      recordedAfter, map_cons, foldl_cons]
    dsimp only [Db.getContractState, Db.saveContractState]
    by_cases hkey : Db.contractStateKey (Db.writeTarget id w) w.key =
        Db.contractStateKey coinbaseContractId key
    · by_cases hdel : w.isDelete = true
      · simp [hkey, hdel, storedIncome]
      · simp [hkey, hdel, storedIncome]
    split
    · rw [lookup_erase_ne (Ne.symm hkey)]
    · rw [lookup_insert_ne (Ne.symm hkey)]

/-- Adds an amount to the entries of its asset, or appends an entry.
Source: `dag/common/unit_repository.go` and `validator/validate_tx.go`, `addIncome` -/
def addIncome (income : List AmountAsset) (newAmount : UInt64) (asset : Asset) :
    List AmountAsset :=
  let newValue := income.map fun aa =>
    if aa.asset = asset then { aa with amount := aa.amount + newAmount } else aa
  if income.any fun aa => aa.asset = asset then newValue else newValue ++ [⟨newAmount, asset⟩]

/-- The entries after an addition. -/
lemma mem_addIncome {x : AmountAsset} : x ∈ addIncome income newAmount asset ↔
      (x.asset ≠ asset ∧ x ∈ income) ∨
      (x.asset = asset ∧ ((∃ e ∈ income, e.asset = asset ∧ x.amount = e.amount + newAmount) ∨
        ((∀ e ∈ income, e.asset ≠ asset) ∧ x.amount = newAmount))) := by
  have hmap : x ∈ (income.map fun aa =>
      if aa.asset = asset then { aa with amount := aa.amount + newAmount } else aa) ↔
      (x.asset ≠ asset ∧ x ∈ income) ∨
        (x.asset = asset ∧ ∃ e ∈ income, e.asset = asset ∧ x.amount = e.amount + newAmount) := by
    rw [List.mem_map]
    constructor
    · rintro ⟨e, he, rfl⟩
      by_cases hasset : e.asset = asset
      · exact .inr (by rw [if_pos hasset]; exact ⟨hasset, e, he, hasset, rfl⟩)
      · exact .inl (by rw [if_neg hasset]; exact ⟨hasset, he⟩)
    rintro (⟨hne, hx⟩ | ⟨hasset, e, he, heasset, hamount⟩)
    · exact ⟨x, hx, if_neg hne⟩
    refine ⟨e, he, ?_⟩
    cases x
    simp_all
  rw [addIncome]
  split
  · rename_i hany
    obtain ⟨e, he, heasset⟩ := List.any_eq_true.1 hany
    grind
  rename_i hany
  cases x
  grind

/-- The entries of one asset. -/
def amountsOf (asset : Asset) (income : List AmountAsset) : List AmountAsset :=
  income.filter fun aa => aa.asset = asset

lemma amountsOf_map_add (income : List AmountAsset) (newAmount : UInt64) (asset s : Asset) :
    amountsOf s (income.map fun aa =>
      if aa.asset = asset then { aa with amount := aa.amount + newAmount } else aa) =
    (amountsOf s income).map fun aa =>
      if aa.asset = asset then { aa with amount := aa.amount + newAmount } else aa := by
  rw [amountsOf, amountsOf, List.filter_map]
  congr 1
  refine filter_congr fun aa _ => ?_
  rw [Function.comp_apply]
  split <;> rfl

/-- Adding an asset leaves the entries of the others. -/
lemma amountsOf_addIncome_of_ne (h : asset ≠ s) :
    amountsOf s (addIncome income newAmount asset) = amountsOf s income := by
  have hmap : amountsOf s (income.map fun aa =>
      if aa.asset = asset then { aa with amount := aa.amount + newAmount } else aa) =
      amountsOf s income := by
    rw [amountsOf_map_add]
    refine (map_congr_left fun aa haa => ?_).trans (List.map_id _)
    have hs : aa.asset = s := by simpa using (mem_filter.1 haa).2
    rw [if_neg (hs ▸ h.symm)]
    rfl
  rw [addIncome]
  split
  · exact hmap
  · rw [amountsOf, filter_append, ← amountsOf, hmap]
    simp [h]

/-- The entries of the added asset depend on its own entries only. -/
lemma amountsOf_addIncome_self (income : List AmountAsset) (newAmount : UInt64) (asset : Asset) :
    amountsOf asset (addIncome income newAmount asset) =
      addIncome (amountsOf asset income) newAmount asset := by
  have hany : ((amountsOf asset income).any fun aa => aa.asset = asset) =
      income.any fun aa => aa.asset = asset := by
    simp [amountsOf, List.any_filter]
  rw [addIncome, addIncome, hany]
  split
  · exact amountsOf_map_add ..
  · rw [amountsOf, filter_append, ← amountsOf, amountsOf_map_add]
    simp

/-- Adds the amounts of several additions. -/
def addIncomes (income : List AmountAsset) (ads : List Addition) : List AmountAsset :=
  ads.foldl (fun income ad => addIncome income ad.amount ad.asset) income

@[simp] lemma addIncomes_nil (income : List AmountAsset) : addIncomes income [] = income :=
  rfl

@[simp] lemma addIncomes_cons (income : List AmountAsset) (ad : Addition) (ads : List Addition) :
    addIncomes income (ad :: ads) = addIncomes (addIncome income ad.amount ad.asset) ads :=
  rfl

/-- The entries of an asset depend on its own entries and additions only. -/
lemma amountsOf_addIncomes (s : Asset) (income : List AmountAsset) (ads : List Addition) :
    amountsOf s (addIncomes income ads) =
      addIncomes (amountsOf s income) (ads.filter fun ad => ad.asset = s) := by
  induction ads generalizing income with
  | nil => rfl
  | cons ad ads ih =>
    rw [addIncomes_cons, ih]
    by_cases hs : ad.asset = s
    · rw [filter_cons_of_pos (by simpa using hs), addIncomes_cons, hs, amountsOf_addIncome_self]
    · rw [filter_cons_of_neg (by simpa using hs), amountsOf_addIncome_of_ne hs]

lemma exists_asset_addIncomes :
    (∃ e ∈ addIncomes income ads, e.asset = s) ↔
      (∃ e ∈ income, e.asset = s) ∨ ∃ ad ∈ ads, ad.asset = s := by
  induction ads generalizing income with
  | nil => simp
  | cons ad ads ih =>
    rw [addIncomes_cons, ih, exists_mem_cons_iff, ← or_assoc]
    refine or_congr_left ?_
    by_cases hs : ad.asset = s
    · refine iff_of_true ?_ (.inr hs)
      by_cases hold : ∃ e ∈ income, e.asset = s
      · obtain ⟨e, he, hes⟩ := hold
        exact ⟨⟨e.amount + ad.amount, s⟩,
          mem_addIncome.2 (.inr ⟨hs.symm, .inl ⟨e, he, hes.trans hs.symm, rfl⟩⟩), rfl⟩
      · push Not at hold
        exact ⟨⟨ad.amount, s⟩, mem_addIncome.2 (.inr ⟨hs.symm, .inr ⟨hs ▸ hold, rfl⟩⟩), rfl⟩
    constructor
    · rintro ⟨e, he, rfl⟩
      rcases mem_addIncome.1 he with ⟨-, he⟩ | ⟨heq, -⟩
      · exact .inl ⟨e, he, rfl⟩
      · exact absurd heq.symm hs
    rintro (⟨e, he, rfl⟩ | heq)
    · exact ⟨e, mem_addIncome.2 (.inl ⟨Ne.symm hs, he⟩), rfl⟩
    · exact absurd heq hs

/-- Additions of one asset to its only entry. -/
lemma addIncomes_singleton (h : ∀ ad ∈ ads, ad.asset = s) (m : UInt64) :
    addIncomes [⟨m, s⟩] ads = [⟨m + (ads.map Addition.amount).sum, s⟩] := by
  induction ads generalizing m with
  | nil => simp
  | cons ad ads ih =>
    have hadd : addIncome [⟨m, s⟩] ad.amount ad.asset = [⟨m + ad.amount, s⟩] := by
      simp [addIncome, h ad mem_cons_self]
    rw [addIncomes_cons, hadd, ih fun x hx => h x (mem_cons_of_mem _ hx), map_cons,
      sum_cons, UInt64.add_assoc]

lemma length_le_addIncomes (income : List AmountAsset) (ads : List Addition) :
    income.length ≤ (addIncomes income ads).length := by
  induction ads generalizing income with
  | nil => exact le_rfl
  | cons ad ads ih =>
    have hadd : income.length ≤ (addIncome income ad.amount ad.asset).length := by
      rw [addIncome]
      split <;> simp
    exact hadd.trans (ih _)

/-! ### Rewards by address -/

/-- The amounts each address is to get.
Source: `createCoinbasePayment` and `validateCoinbase`, the variable `rewards` -/
abbrev Rewards := Table Address (List AmountAsset)

/-- The address that a field of the coinbase contract is about, the zero address if it does not
parse.
Source: `createCoinbasePayment` and `validateCoinbase`, the variable `incomeAddr` -/
def incomeAddr (P : Primitives) (key : Bytes) : Address :=
  (stringToAddress P (key.drop rewardAddressPrefix.length)).getD (FixedBytes.zero 21)

/-- The rewards in the state.
Source: `createCoinbasePayment` and `validateCoinbase`, the loop over `addrMap` -/
def storedRewards (P : Primitives) (ofMalformed : Bytes → List AmountAsset)
    (addrMap : List (Bytes × ContractStateValue)) : Rewards :=
  addrMap.foldl (fun rewards (key, v) =>
    let aa := storedIncome ofMalformed (some v)
    if aa.length > 0 then rewards.insert (incomeAddr P key) aa else rewards) ∅

lemma incomeAddr_rewardKey (h58 : P.Base58RoundTrip) (h : addr.hasKnownType) :
    incomeAddr P (rewardKey P addr) = addr := by
  rw [incomeAddr, rewardKey, drop_left, stringToAddress_str P h58 h, Option.getD_some]

section StoredRewards

variable {P : Primitives} {ofMalformed : Bytes → List AmountAsset}
  {addrMap : List (Bytes × ContractStateValue)} {addr : Address}

lemma storedRewards_append (e : Bytes × ContractStateValue) :
    storedRewards P ofMalformed (addrMap ++ [e]) =
      if (storedIncome ofMalformed (some e.2)).length > 0 then
        (storedRewards P ofMalformed addrMap).insert (incomeAddr P e.1)
          (storedIncome ofMalformed (some e.2))
      else storedRewards P ofMalformed addrMap := by
  rw [storedRewards, foldl_append]
  rfl

variable {aa : List AmountAsset}

/-- What is stored comes from a field of the address and is not empty. -/
lemma exists_of_lookup_storedRewards
    (h : (storedRewards P ofMalformed addrMap).lookup addr = some aa) :
    ∃ e ∈ addrMap, incomeAddr P e.1 = addr ∧ aa = storedIncome ofMalformed (some e.2) ∧
      aa ≠ [] := by
  induction addrMap using List.reverseRecOn with
  | nil => cases h
  | append_singleton addrMap e ih =>
    rw [storedRewards_append] at h
    have hold : (storedRewards P ofMalformed addrMap).lookup addr = some aa →
        ∃ e' ∈ addrMap ++ [e], incomeAddr P e'.1 = addr ∧
          aa = storedIncome ofMalformed (some e'.2) ∧ aa ≠ [] := by
      intro hlookup
      obtain ⟨e', he', hrest⟩ := ih hlookup
      exact ⟨e', mem_append_left _ he', hrest⟩
    split at h
    · rename_i hlen
      by_cases haddr : addr = incomeAddr P e.1
      · rw [haddr, lookup_insert] at h
        obtain rfl := Option.some.inj h
        exact ⟨e, by simp, haddr.symm, rfl, length_pos_iff.1 hlen⟩
      · rw [lookup_insert_ne haddr] at h
        exact hold h
    · exact hold h

/-- Whatever a field of an address records, if anything, something is stored for it. -/
lemma isSome_lookup_storedRewards {e : Bytes × ContractStateValue} (he : e ∈ addrMap)
    (haddr : incomeAddr P e.1 = addr) (hne : storedIncome ofMalformed (some e.2) ≠ []) :
    ((storedRewards P ofMalformed addrMap).lookup addr).isSome := by
  induction addrMap using List.reverseRecOn with
  | nil => cases he
  | append_singleton addrMap e' ih =>
    rw [storedRewards_append]
    rcases mem_append.1 he with he | he
    · split
      · by_cases haddr' : addr = incomeAddr P e'.1
        · rw [haddr', lookup_insert]
          rfl
        · rw [lookup_insert_ne haddr']
          exact ih he
      · exact ih he
    obtain rfl := mem_singleton.1 he
    rw [if_pos (length_pos_iff.2 hne), haddr, lookup_insert]
    rfl

/-- No stored list is empty, and the stored addresses are of known types. -/
lemma storedRewards_lookup (h : (storedRewards P ofMalformed addrMap).lookup addr = some aa) :
    aa ≠ [] ∧ addr.hasKnownType := by
  obtain ⟨e, -, rfl, -, hne⟩ := exists_of_lookup_storedRewards h
  exact ⟨hne, Address.hasKnownType_stringToAddress _ _⟩

end StoredRewards

/-- Source: `createCoinbasePayment` and `validateCoinbase`, the loop over `ads` -/
def addRewards (rewards : Rewards) (ads : List Addition) : Rewards :=
  ads.foldl (fun rewards ad =>
    rewards.insert ad.addr
      (addIncome ((rewards.lookup ad.addr).getD []) ad.amount ad.asset)) rewards

lemma lookup_addRewards (rewards : Rewards) (ads : List Addition) (addr : Address) :
    (addRewards rewards ads).lookup addr =
      if (ads.filter fun ad => ad.addr = addr) = [] then rewards.lookup addr
      else some (addIncomes ((rewards.lookup addr).getD [])
        (ads.filter fun ad => ad.addr = addr)) := by
  induction ads generalizing rewards with
  | nil => rfl
  | cons ad ads ih =>
    rw [addRewards, foldl_cons, ← addRewards, ih]
    by_cases haddr : ad.addr = addr
    · rw [filter_cons_of_pos (by simpa using haddr), if_neg (cons_ne_nil _ _),
        addIncomes_cons, haddr, lookup_insert, Option.getD_some]
      split
      · rename_i hnil
        rw [hnil, addIncomes_nil]
      · rfl
    · rw [filter_cons_of_neg (by simpa using haddr), lookup_insert_ne (Ne.symm haddr)]

/-- The rewards of an address with additions. -/
lemma lookup_addRewards_eq_some {aa : List AmountAsset} :
    (addRewards stored ads).lookup addr = some aa ↔
      ((stored.lookup addr).isSome ∨ (ads.filter fun ad => ad.addr = addr) ≠ []) ∧
        aa = addIncomes ((stored.lookup addr).getD []) (ads.filter fun ad => ad.addr = addr) := by
  rw [lookup_addRewards]
  split
  · rename_i hnil
    rw [hnil]
    cases stored.lookup addr <;> simp [eq_comm]
  rename_i hne
  rw [Option.some.injEq]
  exact ⟨fun h => ⟨.inr hne, h.symm⟩, fun h => h.2.symm⟩

/-- An address gets something: rewards are recorded for it or added. -/
def Rewarded (stored : Rewards) (ads : List Addition) (addr : Address) : Prop :=
  (stored.lookup addr).isSome ∨ (ads.filter fun ad => ad.addr = addr) ≠ []

lemma mem_keys_addRewards : addr ∈ (addRewards stored ads).keys ↔ Rewarded stored ads addr := by
  rw [← AList.mem_keys, ← AList.lookup_isSome, Option.isSome_iff_exists]
  constructor
  · rintro ⟨aa, haa⟩
    exact (lookup_addRewards_eq_some.1 haa).1
  · exact fun h => ⟨_, lookup_addRewards_eq_some.2 ⟨h, rfl⟩⟩

section Rewarded

variable {stored : Rewards} {ads : List Addition}
  (hstored : ∀ addr aa, stored.lookup addr = some aa → aa ≠ [] ∧ addr.hasKnownType)

include hstored

variable {addr : Address}

lemma ne_nil_of_rewarded (h : Rewarded stored ads addr) :
    (stored.lookup addr).getD [] ≠ [] ∨ (ads.filter fun ad => ad.addr = addr) ≠ [] := by
  refine h.imp_left fun hsome => ?_
  obtain ⟨aa, haa⟩ := Option.isSome_iff_exists.1 hsome
  rw [haa]
  exact (hstored addr aa haa).1

lemma hasKnownType_of_rewarded (hknown : ∀ p ∈ ads, p.addr.hasKnownType)
    (h : Rewarded stored ads addr) : addr.hasKnownType := by
  rcases h with hsome | hads
  · obtain ⟨aa, haa⟩ := Option.isSome_iff_exists.1 hsome
    exact (hstored addr aa haa).2
  obtain ⟨p, hp⟩ := exists_mem_of_ne_nil _ hads
  obtain ⟨hp, heq⟩ := mem_filter.1 hp
  exact of_decide_eq_true heq ▸ hknown p hp

/-- Every rewarded address gets an output. -/
lemma ne_nil_of_mem_addRewards {g : Σ _ : Address, List AmountAsset}
    (hg : g ∈ (addRewards stored ads).entries) : g.2 ≠ [] := by
  obtain ⟨hrewarded, heq⟩ := lookup_addRewards_eq_some.1 (mem_lookup_iff.2 hg)
  rw [heq]
  rcases ne_nil_of_rewarded hstored hrewarded with hincome | hads
  · exact length_pos_iff.1 ((length_pos_iff.2 hincome).trans_le (length_le_addIncomes _ _))
  obtain ⟨p, hp⟩ := exists_mem_of_ne_nil _ hads
  obtain ⟨e, he, -⟩ := exists_asset_addIncomes.2 (.inr ⟨p, hp, rfl⟩)
  exact ne_nil_of_mem he

end Rewarded

/-- Whether two additions are of one address and asset.
Source: `dag/modules/transaction.go`, `Addition.Key`, compared -/
def Addition.sameKey (a b : Addition) : Bool :=
  a.addr = b.addr && a.asset = b.asset

/-- Source: `arrangeAdditionFeeList`, loop body -/
def mergeAddition (out : List Addition) (a : Addition) : List Addition :=
  if out.any fun b => b.sameKey a then
    out.map fun b => if b.sameKey a then { b with amount := b.amount + a.amount } else b
  else out ++ [a]

/-- Merges the amounts of one address and asset, in the order of first occurrence; the order in
which the code returns them is that of a Go map.
Source: `dag/common/unit_repository.go` and `validator/validator.go`, `arrangeAdditionFeeList` -/
def arrangeAdditionFeeList (ads : List Addition) : List Addition :=
  ads.foldl mergeAddition []

end ZwsChain
