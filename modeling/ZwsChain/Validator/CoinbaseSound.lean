import ZwsChain.Lib.Keyed
import ZwsChain.Validator.Coinbase

/-!
# What an accepted coinbase credits

A coinbase should credit what is owed, and nothing else (`CreditsExactly`): in the payment form
the outputs pay the accumulated rewards and the additions, and the accumulated rewards are
cleared; in the state form the write set records, for each address with additions, its
accumulated rewards with these additions.

The comparisons of `validateCoinbase` look for an amount that differs, and take a reward or an
output without counterpart for a match. So what they leave open is who is credited and in which
asset (`CreditsSamePairs`); in the state form, moreover, an addition is forgotten when a later
one of its address is added.

* `credits_exactly_iff`: an accepted coinbase credits exactly what is owed iff it credits the
  owed pairs of address and asset, with the owed amounts where nothing was compared.
* `stranger_paid`: an accepted coinbase that pays a stranger instead of the owner of the rewards.
-/

open List Option

namespace ZwsChain

open Lib.Keyed SmallNode

/-- The entries of the write sets of a message, each with the contract of the result. -/
def Message.stateWrites : Message → List (Bytes × ContractWriteSet)
  | .contractDeploy p => p.writeSet.map fun w => (p.contractId, w)
  | .contractInvoke p => p.writeSet.map fun w => (p.contractId, w)
  | .contractStop p => p.writeSet.map fun w => (p.contractId, w)
  | _ => []

/-- Who is credited, and in which asset. -/
def Addition.pair (ad : Addition) : Address × Asset :=
  (ad.addr, ad.asset)

/-- The amounts of a table of rewards, one by one. -/
def creditsOf (rewards : Rewards) : List Addition :=
  rewards.entries.flatMap fun e => e.2.map fun aa => ⟨e.1, aa.amount, aa.asset⟩

/-- The income that the last entry for a field leaves there; `none` if there is no such entry, it
deletes the field, or its value does not decode. -/
def writtenIncome (writes : List (Bytes × ContractWriteSet)) (key : Bytes) :
    Option (List AmountAsset) :=
  match (writes.filter fun x => x.2.key = key).getLast? with
  | none => none
  | some (_, w) => if w.isDelete then none else decodeIncome w.value

namespace Validate

variable (V : Validate) (ofMalformed : Bytes → List AmountAsset)

/-- What an output credits. -/
def outputCredit (out : Output) : Addition :=
  ⟨(TxScript.getAddressFromScript V.P out.pkScript).getD (FixedBytes.zero 21), out.value, out.asset⟩

/-! ### What is owed -/

/-- What the outputs of messages credit. -/
def paidCredits (msgs : List Message) : List Addition :=
  (msgs.flatMap Message.outputs).map V.outputCredit

/-- The accumulated rewards under a field of the coinbase contract. -/
def accumulated (addrMap : List (Bytes × ContractStateValue)) (key : Bytes) : List AmountAsset :=
  storedIncome ofMalformed ((addrMap.find? fun e => e.1 = key).map Prod.snd)

/-- After the write sets of the messages no rewards are accumulated. -/
def Cleared (addrMap : List (Bytes × ContractStateValue)) (msgs : List Message) : Prop :=
  ∀ key, rewardAddressPrefix <+: key →
    recordedAfter ofMalformed key (accumulated ofMalformed addrMap key)
      (msgs.flatMap Message.stateWrites) = []

/-- The rewards of an address with its additions. -/
def owedIncome (ads : List Addition) (addr : Address) : List AmountAsset :=
  addIncomes (V.incomeOf ofMalformed addr) (ads.filter fun ad => ad.addr = addr)

/-- The messages have no outputs and write rewards of addresses with additions only. -/
structure TouchesRewardsOnly (msgs : List Message) (ads : List Addition) : Prop where
  outputs : msgs.flatMap Message.outputs = []
  writes : ∀ x ∈ msgs.flatMap Message.stateWrites,
    Db.writeTarget x.1 x.2 = coinbaseContractId ∧ ∃ ad ∈ ads, x.2.key = rewardKey V.P ad.addr

/-- The transaction credits exactly what is owed. One that is of neither form must credit
nothing, and nothing may be owed. -/
def CreditsExactly (ads : List Addition) : List Message → Prop
  | .payment payment :: rest => ∃ addrMap,
      V.getContractStatesByPrefix coinbaseContractId rewardAddressPrefix = some addrMap ∧
      (V.paidCredits (.payment payment :: rest)).Perm
        (creditsOf (V.paymentRewards ofMalformed addrMap ads)) ∧
      Cleared ofMalformed addrMap (.payment payment :: rest)
  | .contractInvoke invoke :: rest =>
    V.TouchesRewardsOnly (.contractInvoke invoke :: rest) ads ∧
    ∀ ad ∈ ads, ∃ income,
      writtenIncome ((Message.contractInvoke invoke :: rest).flatMap Message.stateWrites)
        (rewardKey V.P ad.addr) = some income ∧
      income.Perm (V.owedIncome ofMalformed ads ad.addr)
  | msgs => ads = [] ∧ msgs.flatMap Message.outputs = [] ∧ msgs.flatMap Message.stateWrites = []

/-! ### What the comparisons leave open -/

/-- Whether the amounts of an asset of an address go into the state without a comparison: a
message after the first writes them, or the asset is that of an addition of the address that has
a later one behind it. -/
def NotCompared (rest : List Message) (ads : List Addition) (addr : Address) (asset : Asset) :
    Prop :=
  (∃ x ∈ rest.flatMap Message.stateWrites, x.2.key = rewardKey V.P addr) ∨
    asset ∈ ((ads.filter fun ad => ad.addr = addr).dropLast).map Addition.asset

/-- The transaction credits the owed pairs of address and asset, and the owed amounts where the
check compares none: outputs and write sets of messages after the first, and additions of an
address with a later addition. -/
def CreditsSamePairs (ads : List Addition) : List Message → Prop
  | .payment payment :: rest => ∃ addrMap,
      V.getContractStatesByPrefix coinbaseContractId rewardAddressPrefix = some addrMap ∧
      ((V.paidCredits (.payment payment :: rest)).map Addition.pair).Perm
        ((creditsOf (V.paymentRewards ofMalformed addrMap ads)).map Addition.pair) ∧
      (∀ c ∈ V.paidCredits rest,
        ((V.paidCredits (.payment payment :: rest)).filter fun d => d.pair = c.pair).Perm
          ((creditsOf (V.paymentRewards ofMalformed addrMap ads)).filter
            fun d => d.pair = c.pair)) ∧
      Cleared ofMalformed addrMap (.payment payment :: rest)
  | .contractInvoke invoke :: rest =>
    V.TouchesRewardsOnly (.contractInvoke invoke :: rest) ads ∧
    ∀ ad ∈ ads, ∃ income,
      writtenIncome ((Message.contractInvoke invoke :: rest).flatMap Message.stateWrites)
        (rewardKey V.P ad.addr) = some income ∧
      (income.map AmountAsset.asset).Perm
        ((V.owedIncome ofMalformed ads ad.addr).map AmountAsset.asset) ∧
      ∀ asset, V.NotCompared rest ads ad.addr asset →
        (amountsOf asset income).Perm (amountsOf asset (V.owedIncome ofMalformed ads ad.addr))
  | msgs => ads = [] ∧ msgs.flatMap Message.outputs = [] ∧ msgs.flatMap Message.stateWrites = []

variable {V ofMalformed} {ads : List Addition}

/-! ### The payment form -/

/-- An output of the compared payment has the amount that is owed to its address in its asset. -/
lemma outputCredit_eq_of_compared {rewards : Rewards} {outputs : List Output}
    (h : V.compareRewardAndOutput rewards outputs = true) {c d : Addition}
    (hc : c ∈ outputs.map V.outputCredit) (hd : d ∈ creditsOf rewards) (hpair : c.pair = d.pair) :
    c = d := by
  obtain ⟨out, hout, rfl⟩ := List.mem_map.1 hc
  obtain ⟨e, he, hd⟩ := mem_flatMap.1 hd
  obtain ⟨aa, haa, rfl⟩ := List.mem_map.1 hd
  rw [compareRewardAndOutput, Bool.and_eq_true, List.all_eq_true] at h
  have hexist := List.all_eq_true.1 (h.1 e he) out hout
  obtain ⟨haddr, hasset⟩ := Prod.mk.inj hpair
  simp only [outputCredit] at haddr hasset
  simp only [haddr, ne_eq, not_true_eq_false, decide_false, Bool.false_or,
    List.all_eq_true] at hexist
  have hamount := hexist aa haa
  simp only [hasset, decide_true, Bool.true_and, Bool.not_eq_true', decide_eq_false_iff_not,
    not_not] at hamount
  simp [outputCredit, haddr, hasset, hamount]

variable {payment : PaymentPayload} {rest : List Message} {addr : Address}
  {income : List AmountAsset} {invoke : ContractInvokePayload}

section

variable (h : V.validateCoinbasePayment ofMalformed payment rest ads = some .valid)
include h

lemma credits_payment_iff :
    V.CreditsExactly ofMalformed ads (.payment payment :: rest) ↔
      V.CreditsSamePairs ofMalformed ads (.payment payment :: rest) := by
  rw [validateCoinbasePayment] at h
  split at h
  · cases h
  rename_i addrMap haddr
  have hcompare : V.compareRewardAndOutput (V.paymentRewards ofMalformed addrMap ads)
      payment.outputs = true := by
    by_contra hcompare
    rw [Bool.not_eq_true] at hcompare
    simp [hcompare] at h
  constructor
  · rintro ⟨addrMap', haddr', hpaid, hcleared⟩
    exact ⟨addrMap', haddr', hpaid.map _, fun c _ => hpaid.filter _, hcleared⟩
  rintro ⟨addrMap', haddr', hpairs, hlater, hcleared⟩
  obtain rfl := some.inj (haddr.symm.trans haddr')
  refine ⟨addrMap, haddr', ?_, hcleared⟩
  -- pairs that only the first payment pays were compared
  refine perm_of_agree (fun k => ∀ c ∈ V.paidCredits rest, c.pair ≠ k) hpairs ?_ ?_
  · intro c hc d hd honly hpair
    rw [paidCredits, flatMap_cons, map_append] at hc
    rcases mem_append.1 hc with hc | hc
    · exact outputCredit_eq_of_compared hcompare hc hd hpair
    · exact absurd rfl (honly c hc)
  intro k hk
  push Not at hk
  obtain ⟨c, hc, rfl⟩ := hk
  exact hlater c hc

end

/-! ### The state form -/

/-- The compared rewards of an address are its accumulated ones with its last addition. -/
lemma lookup_stateRewards (addr : Address) :
    (V.stateRewards ofMalformed ads).lookup addr =
      (ads.filter fun ad => ad.addr = addr).getLast?.map fun last =>
        addIncome (V.incomeOf ofMalformed addr) last.amount last.asset := by
  induction ads using List.reverseRecOn with
  | nil => rfl
  | append_singleton ads ad ih =>
    rw [stateRewards, foldl_append, foldl_cons, foldl_nil, ← stateRewards]
    by_cases haddr : ad.addr = addr
    · subst haddr
      simp [filter_append]
    · rw [AList.lookup_insert_ne (Ne.symm haddr), ih]
      simp [filter_append, haddr]

/-- Of an asset that no earlier addition of the address has, what is owed is what the check
compares with. -/
lemma amountsOf_owedIncome {init : List Addition} {last : Addition}
    (hads : (ads.filter fun ad => ad.addr = addr) = init ++ [last]) {asset : Asset}
    (hasset : asset ∉ init.map Addition.asset) :
    amountsOf asset (V.owedIncome ofMalformed ads addr) =
      amountsOf asset (addIncome (V.incomeOf ofMalformed addr) last.amount last.asset) := by
  have hinit : init.filter (fun ad => ad.asset = asset) = [] :=
    filter_eq_nil_iff.2 fun ad had heq =>
      hasset (List.mem_map.2 ⟨ad, had, of_decide_eq_true heq⟩)
  have hlast : addIncome (V.incomeOf ofMalformed addr) last.amount last.asset =
      addIncomes (V.incomeOf ofMalformed addr) [last] := rfl
  rw [owedIncome, hads, hlast, amountsOf_addIncomes, amountsOf_addIncomes, filter_append,
    hinit, nil_append]

/-- If no later message writes a field, the first one's last entry does. -/
lemma exists_of_writtenIncome {key : Bytes}
    (h : writtenIncome ((Message.contractInvoke invoke :: rest).flatMap Message.stateWrites) key =
      some income)
    (hrest : ∀ x ∈ rest.flatMap Message.stateWrites, x.2.key ≠ key) :
    ∃ w ∈ invoke.writeSet, w.key = key ∧ decodeIncome w.value = some income := by
  rw [writtenIncome] at h
  split at h
  · cases h
  rename_i id w hlast
  obtain ⟨hmem, hkey⟩ := mem_filter.1 (mem_of_getLast? hlast)
  have hkey : w.key = key := by simpa using hkey
  rw [flatMap_cons, mem_append] at hmem
  rcases hmem with hmem | hmem
  · obtain ⟨w', hw, heq⟩ := List.mem_map.1 hmem
    obtain rfl : w' = w := congrArg Prod.snd heq
    split at h
    · cases h
    · exact ⟨w', hw, hkey, h⟩
  · exact absurd hkey (hrest _ hmem)

lemma credits_state_iff (h : V.validateCoinbaseState ofMalformed invoke ads = .valid) :
    V.CreditsExactly ofMalformed ads (.contractInvoke invoke :: rest) ↔
      V.CreditsSamePairs ofMalformed ads (.contractInvoke invoke :: rest) := by
  have hcompare : V.compareRewardAndWriteset (V.stateRewards ofMalformed ads) invoke.writeSet =
      true := by
    by_contra hcompare
    simp [validateCoinbaseState, hcompare] at h
  constructor
  · rintro ⟨htouch, hsets⟩
    refine ⟨htouch, fun ad had => ?_⟩
    obtain ⟨income, hincome, hperm⟩ := hsets ad had
    exact ⟨income, hincome, hperm.map _, fun asset _ => hperm.filter _⟩
  rintro ⟨htouch, hsets⟩
  refine ⟨htouch, fun ad had => ?_⟩
  obtain ⟨income, hincome, hassets, hother⟩ := hsets ad had
  refine ⟨income, hincome, ?_⟩
  refine perm_of_agree (fun asset => ¬ V.NotCompared rest ads ad.addr asset) hassets ?_
    fun asset hasset => hother asset (not_not.1 hasset)
  intro a ha b hb hkind hab
  obtain ⟨hrest, hinit⟩ := not_or.1 hkind
  push Not at hrest
  obtain ⟨w, hw, hkey, hdecode⟩ := exists_of_writtenIncome hincome hrest
  -- the compared rewards are those of the last addition
  have hne : (ads.filter fun x => x.addr = ad.addr) ≠ [] :=
    ne_nil_of_mem (mem_filter.2 ⟨had, by simp⟩)
  have hsplit := (dropLast_append_getLast hne).symm
  have hlookup : (V.stateRewards ofMalformed ads).lookup ad.addr = some _ :=
    (lookup_stateRewards ad.addr).trans (by rw [getLast?_eq_some_getLast hne]; rfl)
  have hexist := List.all_eq_true.1 hcompare _ (AList.mem_lookup_iff.1 hlookup)
  have hb' : b ∈ addIncome (V.incomeOf ofMalformed ad.addr) (List.getLast _ hne).amount
      (List.getLast _ hne).asset := by
    have hmem : b ∈ amountsOf a.asset (V.owedIncome ofMalformed ads ad.addr) :=
      mem_filter.2 ⟨hb, by simpa using hab.symm⟩
    rw [amountsOf_owedIncome hsplit hinit] at hmem
    exact (mem_filter.1 hmem).1
  have hentry := List.all_eq_true.1 hexist w hw
  simp only [hkey, ne_eq, not_true_eq_false, decide_false, Bool.false_or, hdecode] at hentry
  have hamount := List.all_eq_true.1 (List.all_eq_true.1 hentry b hb') a ha
  have heq : b.amount = a.amount := by simpa [hab] using hamount
  cases a
  cases b
  cases hab
  cases heq
  rfl

/-- An accepted coinbase credits exactly what is owed iff it credits the owed pairs of address
and asset, with the owed amounts where the check compares none. -/
theorem credits_exactly_iff {tx : Transaction} {msgs : List Message}
    (hmsgs : tx.txMessages = some msgs)
    (h : V.validateCoinbase ofMalformed tx ads = some .valid) :
    V.CreditsExactly ofMalformed ads msgs ↔ V.CreditsSamePairs ofMalformed ads msgs := by
  simp only [validateCoinbase, hmsgs, bind_eq_bind, bind_some] at h
  split at h
  · cases h
  · exact credits_payment_iff h
  · exact credits_state_iff (some.inj h)
  · rename_i m rest hpayment hinvoke
    cases m <;> first | exact absurd rfl (hpayment _) | exact absurd rfl (hinvoke _) | exact Iff.rfl

/-! ### A coinbase that pays a stranger -/

namespace StrangerPaid

/-- The owner of the rewards. -/
def owner : Address :=
  ⟨List.replicate 20 7 ++ [0], rfl⟩

/-- An address that nothing is owed to. -/
def stranger : Address :=
  ⟨List.replicate 20 9 ++ [0], rfl⟩

/-- 100 are accumulated for the owner. -/
def db : Db :=
  Db.saveContractStates coinbaseContractId
    [⟨false, rewardKey primitives owner, encodeIncome [⟨100, newPTNAsset⟩], []⟩]
    ⟨none, 0⟩ .empty

/-- The payment of an amount to an address, and the clearing of the owner's rewards. -/
def coinbase (addr : Address) (amount : UInt64) : List Message :=
  [.payment ⟨[], [⟨amount, TxScript.generateLockScript addr, newPTNAsset⟩], 0⟩,
    .contractInvoke ⟨coinbaseContractId, [], [],
      [⟨false, rewardKey primitives owner, encodeIncome [], []⟩], [], ⟨0, []⟩⟩]

/-- The unit adds 10 to the owner's rewards. -/
def additions : List Addition :=
  [⟨owner, 10, newPTNAsset⟩]

/-- The validator over this database. -/
def validator : Validate :=
  node.onDb db

/-- Nothing in the database is malformed. -/
def noMalformed : Bytes → List AmountAsset :=
  fun _ => []

lemma stored_rewards :
    validator.getContractStatesByPrefix coinbaseContractId rewardAddressPrefix =
      some [(rewardKey primitives owner, ⟨encodeIncome [⟨100, newPTNAsset⟩], ⟨none, 0⟩⟩)] := by
  decide +kernel

/-- The owner is paid the stored reward and the new one. -/
theorem credits_exactly_owner :
    validator.validateCoinbase noMalformed ⟨coinbase owner 110, [], false⟩ additions =
      some .valid ∧
    validator.CreditsExactly noMalformed additions (coinbase owner 110) := by
  have hvalid : validator.validateCoinbase noMalformed ⟨coinbase owner 110, [], false⟩ additions =
      some .valid := by decide +kernel
  refine ⟨hvalid, (credits_exactly_iff (by decide +kernel) hvalid).2 ?_⟩
  refine ⟨_, stored_rewards, by decide +kernel, by decide +kernel, ?_⟩
  intro key _
  by_cases hkey : rewardKey primitives owner = key
  · subst hkey
    decide +kernel
  have hne : Db.contractStateKey coinbaseContractId (rewardKey primitives owner) ≠
      Db.contractStateKey coinbaseContractId key :=
    fun heq => hkey (append_cancel_left heq)
  simp [Message.stateWrites, recordedAfter, Db.writeTarget, hne, accumulated, hkey, storedIncome]

/-- The owner of the rewards gets nothing, a stranger gets a million, and the check accepts. -/
theorem stranger_paid :
    (additions.map Addition.pair).Nodup ∧
    validator.validateCoinbase noMalformed ⟨coinbase stranger 1000000, [], false⟩ additions =
      some .valid ∧
    ¬ validator.CreditsExactly noMalformed additions (coinbase stranger 1000000) := by
  refine ⟨by decide +kernel, by decide +kernel, ?_⟩
  rintro ⟨addrMap, haddr, hpaid, -⟩
  obtain rfl := some.inj (stored_rewards.symm.trans haddr)
  revert hpaid
  decide +kernel

end StrangerPaid

end Validate

end ZwsChain
