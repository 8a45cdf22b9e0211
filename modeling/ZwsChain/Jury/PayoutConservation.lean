import ZwsChain.Jury.InvokeResult
import ZwsChain.Lib.Runs

/-!
# Conservation of what a contract pays out

The payments of a result should move exactly what the contract asked to pay: one payment per asset,
of outputs the contract has, with each payee's sum and the rest back to the contract (`Conserves`,
`Conserved`). Sums here are exact; the code adds 64-bit words. The payouts of an asset are assumed
to fit in a word, the outputs that the contract has are not.

* `worth_group`: grouping by asset and payee keeps every payee's sum.
* `picked`: what is spent for an asset, the 500 largest outputs that the contract has of it.
* `conserved_iff`: the payments conserve exactly if what is spent for each asset is worth less than
  2^64 and no payout goes to an address of an unknown type, for which there is no lock script.
-/

open List Option AList

namespace ZwsChain.Jury

open UtxoWithOutPoint AddrAmount
open RwSet (TokenPayOut)
open TxScript (generateLockScript getAddressFromScript)
open Lib.WordSum

/-! ### Grouping -/

/-- The exact sum of the entries whose payee is of a kind. -/
def worth (kind : Address → Bool) (aa : List AddrAmount) : Nat :=
  exact ((aa.filter fun a => kind a.address).map amount)

/-- The exact sum of the payouts of an asset to payees of a kind. -/
def owed (payouts : List TokenPayOut) (asset : Asset) (kind : Address → Bool) : Nat :=
  exact ((payouts.filter fun p => p.asset = asset && kind p.payTo).map TokenPayOut.amount)

/-- All payees. -/
def everyone : Address → Bool := fun _ => true

lemma worth_everyone (aa : List AddrAmount) :
    worth everyone aa = exact (aa.map amount) := by
  simp [worth, everyone]

variable {aa : List AddrAmount} {asset : Asset} {payouts : List TokenPayOut}

lemma worth_addPayout (kind : Address → Bool) {payout : TokenPayOut}
    (hfit : worth everyone aa + payout.amount.toNat < 2 ^ 64) :
    worth kind (addPayout payout aa) =
      worth kind aa + if kind payout.payTo then payout.amount.toNat else 0 := by
  induction aa with
  | nil => cases hk : kind payout.payTo <;> simp [worth, addPayout, hk]
  | cons a aa ih =>
    have hhead : ∀ b : AddrAmount, worth everyone (b :: aa) = b.amount.toNat + worth everyone aa :=
      fun b => by simp [worth_everyone]
    rw [hhead] at hfit
    rw [addPayout]
    split
    · next haddr =>
        have hsum : (a.amount + payout.amount).toNat = a.amount.toNat + payout.amount.toNat := by
          rw [UInt64.toNat_add]
          exact Nat.mod_eq_of_lt (by omega)
        cases hk : kind payout.payTo <;> simp [worth, haddr, hk, hsum]
        omega
    have hrest := ih (by omega)
    cases hk : kind a.address <;> simp only [worth, filter_cons, hk, if_true,
      Bool.false_eq_true, if_false, map_cons, exact_cons] at hrest ⊢ <;> omega

lemma owed_concat (payouts : List TokenPayOut) (p : TokenPayOut) (asset : Asset)
    (kind : Address → Bool) :
    owed (payouts ++ [p]) asset kind =
      owed payouts asset kind + if p.asset = asset ∧ kind p.payTo then p.amount.toNat else 0 := by
  by_cases h : p.asset = asset ∧ kind p.payTo
  · simp [owed, exact_append, h.1, h.2]
  · have hf : (decide (p.asset = asset) && kind p.payTo) = false := by simpa using h
    simp [owed, hf, h]

lemma tokenPayOutGroupByAsset_concat (payouts : List TokenPayOut) (p : TokenPayOut) :
    tokenPayOutGroupByAsset (payouts ++ [p]) =
      (tokenPayOutGroupByAsset payouts).insert p.asset
        (addPayout p (((tokenPayOutGroupByAsset payouts).lookup p.asset).getD [])) := by
  simp [tokenPayOutGroupByAsset]

/-- The entries of an asset sum up what the payouts owe, payee by payee. -/
lemma worth_group (hfit : owed payouts asset everyone < 2 ^ 64) (kind : Address → Bool) :
    worth kind (((tokenPayOutGroupByAsset payouts).lookup asset).getD []) =
      owed payouts asset kind := by
  induction payouts using List.reverseRecOn generalizing kind with
  | nil => rfl
  | append_singleton payouts p ih =>
    rw [owed_concat] at hfit
    rw [owed_concat, tokenPayOutGroupByAsset_concat]
    by_cases hasset : p.asset = asset
    · subst hasset
      simp only [everyone, true_and, if_true] at hfit
      have hone := ih (by omega)
      rw [lookup_insert, getD_some, worth_addPayout, hone]
      · simp
      · rw [hone]
        exact hfit
    · rw [lookup_insert_ne (Ne.symm hasset), ih (by omega)]
      simp [hasset]

lemma addPayout_ne_nil (p : TokenPayOut) (aa : List AddrAmount) : addPayout p aa ≠ [] := by
  cases aa with
  | nil => simp [addPayout]
  | cons a aa => rw [addPayout]; split <;> simp

/-- An asset has an entry iff something of it is paid out. -/
lemma mem_group_iff : asset ∈ tokenPayOutGroupByAsset payouts ↔ ∃ p ∈ payouts, p.asset = asset := by
  induction payouts using List.reverseRecOn with
  | nil => simp [tokenPayOutGroupByAsset]
  | append_singleton payouts p ih =>
    rw [tokenPayOutGroupByAsset_concat, mem_insert, ih]
    simp [or_comm, eq_comm]

lemma ne_nil_of_lookup_group (h : (tokenPayOutGroupByAsset payouts).lookup asset = some aa) :
    aa ≠ [] := by
  induction payouts using List.reverseRecOn with
  | nil => simp [tokenPayOutGroupByAsset] at h
  | append_singleton payouts p ih =>
    rw [tokenPayOutGroupByAsset_concat] at h
    by_cases hasset : p.asset = asset
    · subst hasset
      rw [lookup_insert, some.injEq] at h
      exact h ▸ addPayout_ne_nil _ _
    · rw [lookup_insert_ne (Ne.symm hasset)] at h
      exact ih h

/-! ### Lock scripts -/

/-- The address that an output locked for an address pays to: one of an unknown type has no lock
script, and the empty script is read as the zero address. -/
def landing (y : Address) : Address :=
  if y.hasKnownType then y else FixedBytes.zero 21

lemma hasKnownType_landing (y : Address) : (landing y).hasKnownType := by
  rw [landing]
  split
  · assumption
  · decide

lemma getAddressFromScript_lock (P : Primitives) (y : Address) :
    getAddressFromScript P (generateLockScript y) = some (landing y) := by
  rw [landing]
  split
  · next hknown => exact TxScript.getAddressFromScript_generateLockScript P hknown
  rename_i hknown
  have hnil : generateLockScript y = [] := by
    unfold Address.hasKnownType at hknown
    push Not at hknown
    simp [generateLockScript, AddressType.toByte, hknown]
  rw [hnil]
  rfl

/-! ### Payments -/

variable (P : Primitives)

/-- The exact sum of the outputs that pay to an address. -/
def paidTo (x : Address) (outs : List Output) : Nat :=
  exact ((outs.filter fun o => getAddressFromScript P o.pkScript = some x).map Output.value)

/-- A payment of an asset that spends outputs of a contract and conserves. -/
structure Conserves (holds : OutPoint → Option Utxo) (addr : Address) (payouts : List TokenPayOut)
    (asset : Asset) (spent : List UtxoWithOutPoint) (payment : PaymentPayload) : Prop where
  inputs : payment.inputs = txIns spent
  distinct : (spent.map outPoint).Nodup
  held : ∀ s ∈ spent, holds s.outPoint = some s.utxo ∧ s.utxo.asset = asset
  outputs : ∀ o ∈ payment.outputs, o.asset = asset
  balanced : exact (spent.map getAmount) = exact (payment.outputs.map Output.value)
  payees : ∀ x, x ≠ addr → paidTo P x payment.outputs = owed payouts asset (· = x)
  /-- The contract has what it pays to itself, and all that nobody else is paid. -/
  rest : paidTo P addr payment.outputs + owed payouts asset (· ≠ addr) =
    exact (spent.map getAmount)

/-- The address of the contract of a result. -/
def contractAddress (result : RwSet.ContractInvokeResult) : Address :=
  newAddress result.contractId .contractHash

/-- The payments of a result conserve: there is one for each asset that is paid out; without
payouts there is at most one, which pays back to the contract. -/
structure Conserved (paytoContractUtxo utxos : Table OutPoint Utxo)
    (result : RwSet.ContractInvokeResult) (payments : List PaymentPayload) : Prop where
  paid : result.tokenPayOut ≠ [] → ∃ assets : List Asset, assets.Nodup ∧
    (∀ a, a ∈ assets ↔ ∃ p ∈ result.tokenPayOut, p.asset = a) ∧
    List.Forall₂ (fun asset payment => ∃ spent,
      Conserves P (holding P (contractAddress result) asset paytoContractUtxo utxos)
        (contractAddress result) result.tokenPayOut asset spent payment) assets payments
  merged : result.tokenPayOut = [] → payments.length ≤ 1 ∧ ∀ payment ∈ payments, ∃ asset spent,
    Conserves P (fun op => utxos.lookup op) (contractAddress result) [] asset spent payment

/-- The payment of some amounts out of some outputs. -/
def payment (addr : Address) (asset : Asset) (aa : List AddrAmount)
    (selected : List UtxoWithOutPoint) (change : UInt64) : PaymentPayload where
  inputs := txIns selected
  outputs := (aa.map fun a => ⟨a.amount, generateLockScript a.address, asset⟩) ++
    if 0 < change then [⟨change, generateLockScript addr, asset⟩] else []
  lockTime := 0

variable {P} {addr : Address} {asset : Asset} {aa : List AddrAmount}
  {selected : List UtxoWithOutPoint} {change : UInt64}

lemma asset_of_mem_outputs {o : Output}
    (h : o ∈ (payment addr asset aa selected change).outputs) : o.asset = asset := by
  rcases mem_append.1 h with h | h
  · obtain ⟨a, -, rfl⟩ := List.mem_map.1 h
    rfl
  split at h
  · rw [mem_singleton.1 h]
  · cases h

lemma exact_outputs (addr : Address) (asset : Asset) (aa : List AddrAmount)
    (selected : List UtxoWithOutPoint) (change : UInt64) :
    exact ((payment addr asset aa selected change).outputs.map Output.value) =
      worth everyone aa + change.toNat := by
  rw [payment, map_append, exact_append, List.map_map, worth_everyone]
  congr 1
  split
  · simp
  next h =>
    obtain rfl : change = 0 := by simpa using h
    rfl

lemma paidTo_outputs (addr : Address) (asset : Asset) (aa : List AddrAmount)
    (selected : List UtxoWithOutPoint) (change : UInt64) (hknown : addr.hasKnownType)
    (x : Address) :
    paidTo P x (payment addr asset aa selected change).outputs =
      worth (landing · = x) aa + if x = addr then change.toNat else 0 := by
  rw [paidTo, payment, filter_append, map_append, exact_append]
  congr 1
  · rw [List.filter_map, List.map_map, worth]
    simp [Function.comp_def, getAddressFromScript_lock]
  have hland : landing addr = addr := if_pos hknown
  by_cases hx : x = addr
  · subst hx
    split
    · simp [getAddressFromScript_lock, hland]
    next h =>
      obtain rfl : change = 0 := by simpa using h
      simp
  · split <;> simp [getAddressFromScript_lock, hland, Ne.symm hx]

/-- Outputs that a contract has are known from the inputs that spend them. -/
lemma eq_of_txIns {holds : OutPoint → Option Utxo} {a b : List UtxoWithOutPoint}
    (ha : ∀ s ∈ a, holds s.outPoint = some s.utxo) (hb : ∀ s ∈ b, holds s.outPoint = some s.utxo)
    (h : txIns a = txIns b) : a = b := by
  induction a generalizing b with
  | nil => exact (map_eq_nil_iff.1 h.symm).symm
  | cons s a ih =>
    cases b with
    | nil => cases h
    | cons s' b =>
      simp only [txIns, map_cons, List.cons.injEq, Input.mk.injEq, true_and, some.injEq] at h
      obtain ⟨hop, h⟩ := h
      have hs := ha s mem_cons_self
      have hhead : s = s' := by
        cases s
        cases s'
        simp_all
      rw [hhead, ih (fun x hx => ha x (mem_cons_of_mem _ hx))
        (fun x hx => hb x (mem_cons_of_mem _ hx)) h]

lemma contractAddress_hasKnownType (result : RwSet.ContractInvokeResult) :
    (contractAddress result).hasKnownType :=
  .inr (.inr (Address.getType_newAddress _ _))

/-- Payouts to addresses of known types land where they should. -/
lemma owed_landing {x : Address}
    (h : ∀ p ∈ payouts, p.asset = asset → p.payTo.hasKnownType ∨ p.amount = 0) :
    owed payouts asset (landing · = x) = owed payouts asset (· = x) := by
  apply exact_filter_congr
  intro p hp
  by_cases hasset : p.asset = asset
  · rcases h p hp hasset with hknown | hzero
    · left
      simp only [landing, if_pos hknown]
    · exact .inr hzero
  · simp [hasset]

lemma owed_add (payouts : List TokenPayOut) (asset : Asset) (x : Address) :
    owed payouts asset (· = x) + owed payouts asset (· ≠ x) = owed payouts asset everyone := by
  have hadd := exact_filter_add (payouts.filter fun p => p.asset = asset) (fun p => p.payTo = x)
    TokenPayOut.amount
  simpa [owed, everyone, Bool.and_comm] using hadd

section

variable {holds : OutPoint → Option Utxo} {payouts : List TokenPayOut}
  (hknown : addr.hasKnownType) (hfit : owed payouts asset everyone < 2 ^ 64)
  (hworth : ∀ kind, worth kind aa = owed payouts asset kind)
  (hdistinct : (selected.map outPoint).Nodup)
  (hheld : ∀ s ∈ selected, holds s.outPoint = some s.utxo ∧ s.utxo.asset = asset)
  (henough : ¬ (selected.map getAmount).sum < (aa.map amount).sum)
  (hchange : change = (selected.map getAmount).sum - (aa.map amount).sum)

include hfit hworth henough hchange in
/-- The outputs are worth what the code takes for the value of the inputs. -/
lemma owed_add_change : owed payouts asset everyone + change.toNat =
    (selected.map getAmount).sum.toNat := by
  have htotal : (aa.map amount).sum.toNat = owed payouts asset everyone := by
    rw [← hworth, worth_everyone]
    apply toNat_sum_of_lt
    rwa [← worth_everyone, hworth]
  have hle := UInt64.not_lt.1 henough
  rw [hchange, UInt64.toNat_sub_of_le _ _ hle, htotal]
  rw [UInt64.le_iff_toNat_le, htotal] at hle
  omega

include hknown hfit hworth hdistinct hheld henough hchange in
/-- One payment conserves iff its inputs fit in a word and its payees can be paid. -/
lemma exists_conserves_iff :
    (∃ spent, Conserves P holds addr payouts asset spent
        (payment addr asset aa selected change)) ↔
      exact (selected.map getAmount) < 2 ^ 64 ∧
        ∀ p ∈ payouts, p.asset = asset → p.payTo.hasKnownType ∨ p.amount = 0 := by
  have hout := owed_add_change hfit hworth henough hchange
  constructor
  · rintro ⟨spent, h⟩
    obtain rfl : selected = spent :=
      eq_of_txIns (fun s hs => (hheld s hs).1) (fun s hs => (h.held s hs).1) h.inputs
    constructor
    · rw [← toNat_sum_eq_exact_iff, h.balanced, exact_outputs, hworth, hout]
    intro p hp hasset
    by_contra hcon
    push Not at hcon
    -- no output pays to an address of an unknown type
    have hne : p.payTo ≠ addr := fun heq => hcon.1 (heq ▸ hknown)
    have hpaid := h.payees p.payTo hne
    have hnone : worth (landing · = p.payTo) aa = 0 := by
      have hfalse : ∀ y, ¬ landing y = p.payTo := fun y hy =>
        hcon.1 (hy ▸ hasKnownType_landing y)
      simp [worth, hfalse]
    rw [paidTo_outputs _ _ _ _ _ hknown, hnone, if_neg hne] at hpaid
    have hle : p.amount.toNat ≤ owed payouts asset (· = p.payTo) :=
      toNat_le_exact (List.mem_map_of_mem (mem_filter.2 ⟨hp, by simp [hasset]⟩))
    exact hcon.2 (UInt64.toNat_inj.1 (Nat.le_zero.1 (hle.trans hpaid.symm.le)))
  rintro ⟨hlt, hpayees⟩
  rw [toNat_sum_of_lt hlt] at hout
  refine ⟨selected, rfl, hdistinct, hheld, fun o ho => asset_of_mem_outputs ho, ?_, ?_, ?_⟩
  · rw [exact_outputs, hworth, hout]
  · intro x hx
    rw [paidTo_outputs _ _ _ _ _ hknown, hworth, owed_landing hpayees, if_neg hx, Nat.add_zero]
  rw [paidTo_outputs _ _ _ _ _ hknown, hworth, owed_landing hpayees, if_pos rfl, ← hout,
    ← owed_add payouts asset addr]
  omega

end

/-! ### The payments of a result -/

/-- What can be spent for an asset, as the sort leaves it. -/
def candidates (P : Primitives) (R : Runtime) (addr : Address)
    (paytoContractUtxo utxos : Table OutPoint Utxo) (asset : Asset) : List UtxoWithOutPoint :=
  R.sort (convertMapUtxo R (addPaytoContractUtxo P R addr asset paytoContractUtxo
    (tableFilter (fun utxo => utxo.asset = asset) utxos)))

/-- What is spent for an asset. -/
def picked (P : Primitives) (R : Runtime) (addr : Address)
    (paytoContractUtxo utxos : Table OutPoint Utxo) (asset : Asset) : List UtxoWithOutPoint :=
  (candidates P R addr paytoContractUtxo utxos asset).take 500

variable {R : Runtime} {dag : IDag} {paytoContractUtxo utxos : Table OutPoint Utxo}

lemma payAsset_eq_ok_iff (hutxos : dag.addrUtxos addr = .ok utxos) {pay : PaymentPayload} :
    payAsset P R dag addr paytoContractUtxo asset aa = .ok pay ↔
      ¬ ((picked P R addr paytoContractUtxo utxos asset).map getAmount).sum <
          (aa.map amount).sum ∧
        pay = payment addr asset aa (picked P R addr paytoContractUtxo utxos asset)
          (((picked P R addr paytoContractUtxo utxos asset).map getAmount).sum -
            (aa.map amount).sum) := by
  simp only [payAsset, IDag.getAddr1TokenUtxos, hutxos, Except.map, bind, Except.bind]
  cases hsel : selectUtxoGreedy R (convertMapUtxo R (addPaytoContractUtxo P R addr asset
    paytoContractUtxo (tableFilter (fun utxo => utxo.asset = asset) utxos)))
    (aa.map amount).sum with
  | error e =>
    simp only [reduceCtorEq, false_iff, not_and]
    intro henough hpay
    have hok := selectUtxoGreedy_eq_ok_iff.2 ⟨rfl, henough, rfl⟩
    rw [hsel] at hok
    cases hok
  | ok r =>
    obtain ⟨selected, change⟩ := r
    obtain ⟨rfl, henough, rfl⟩ := selectUtxoGreedy_eq_ok_iff.1 hsel
    exact ⟨fun h => ⟨henough, (Except.ok.inj h).symm⟩, fun h => congrArg Except.ok h.2.symm⟩

lemma nodup_candidates (P : Primitives) (R : Runtime) (addr : Address)
    (paytoContractUtxo utxos : Table OutPoint Utxo) (asset : Asset) :
    ((candidates P R addr paytoContractUtxo utxos asset).map outPoint).Nodup := by
  rw [candidates, ((R.sort_perm _).map _).nodup_iff,
    (map_outPoint_convertMapUtxo_perm R _).nodup_iff]
  exact keys_nodup _

/-- What is spent is held by the contract and of the asset. -/
lemma held_of_mem_picked {txHash : Hash} (hown : ∀ e ∈ rows paytoContractUtxo, e.1.txHash = txHash)
    {s : UtxoWithOutPoint} (hs : s ∈ picked P R addr paytoContractUtxo utxos asset) :
    holding P addr asset paytoContractUtxo utxos s.outPoint = some s.utxo ∧
      s.utxo.asset = asset := by
  have hmem := mem_convertMapUtxo.1 ((R.sort_perm _).mem_iff.1 (mem_of_mem_take hs))
  rw [lookup_addPaytoContractUtxo hown, holding] at hmem
  cases hself : ownOutput P addr asset paytoContractUtxo s.outPoint with
  | some u =>
    rw [hself, some_or, some.injEq] at hmem
    subst hmem
    refine ⟨by rw [holding, hself, some_or], ?_⟩
    obtain ⟨e, he, heq⟩ := map_eq_some_iff.1 hself
    have hfound := find?_some he
    rw [← heq]
    exact (of_decide_eq_true hfound).1.1
  | none =>
    rw [hself, none_or, lookup_tableFilter_eq_some] at hmem
    exact ⟨by rw [holding, hself, none_or, hmem.1], of_decide_eq_true hmem.2⟩

/-- A merging payment conserves iff its inputs fit in a word. -/
lemma exists_conserves_merge_iff (hknown : addr.hasKnownType)
    (hdistinct : (selected.map outPoint).Nodup)
    (hheld : ∀ s ∈ selected, utxos.lookup s.outPoint = some s.utxo ∧ s.utxo.asset = asset) :
    (∃ a spent, Conserves P (fun op => utxos.lookup op) addr [] a spent
        ⟨txIns selected, [⟨(selected.map getAmount).sum, generateLockScript addr, asset⟩], 0⟩) ↔
      exact (selected.map getAmount) < 2 ^ 64 := by
  have howed : ∀ kind, owed [] asset kind = 0 := fun _ => rfl
  have hland : landing addr = addr := if_pos hknown
  constructor
  · rintro ⟨a, spent, h⟩
    obtain rfl : selected = spent := @eq_of_txIns (fun op => utxos.lookup op) _ _
      (fun s hs => (hheld s hs).1) (fun s hs => (h.held s hs).1) h.inputs
    rw [← toNat_sum_eq_exact_iff, h.balanced]
    simp
  intro hlt
  refine ⟨asset, selected, rfl, hdistinct, hheld, ?_, ?_, ?_, ?_⟩
  · intro o ho
    rw [mem_singleton.1 ho]
  · simp [toNat_sum_of_lt hlt]
  · intro x hx
    simp [paidTo, getAddressFromScript_lock, hland, Ne.symm hx, howed]
  · simp [paidTo, getAddressFromScript_lock, hland, howed, toNat_sum_of_lt hlt]

lemma held_of_selectUtxo {num : Nat} (h : selectUtxo R utxos num = some (asset, selected)) :
    (selected.map outPoint).Nodup ∧
      ∀ s ∈ selected, utxos.lookup s.outPoint = some s.utxo ∧ s.utxo.asset = asset := by
  obtain ⟨-, mid, hmid, rfl⟩ := selectUtxo_eq_some h
  constructor
  · rw [collect, List.map_map]
    apply List.Nodup.sublist ((filter_sublist.trans hmid.sublist).map _)
    rw [((R.rangeUtxos_perm _).map _).nodup_iff]
    exact map_fst_rows utxos ▸ keys_nodup utxos
  intro s hs
  obtain ⟨e, he, rfl⟩ := List.mem_map.1 hs
  obtain ⟨he, hasset⟩ := mem_filter.1 he
  refine ⟨mem_rows.1 ?_, of_decide_eq_true hasset⟩
  exact (R.rangeUtxos_perm _).mem_iff.1 (hmid.subset he)

/-- What is spent for each asset that is paid out, or merged, fits in a word. -/
structure InputsFit (P : Primitives) (R : Runtime) (paytoContractUtxo utxos : Table OutPoint Utxo)
    (result : RwSet.ContractInvokeResult) : Prop where
  paid : ∀ p ∈ result.tokenPayOut,
    exact ((picked P R (contractAddress result) paytoContractUtxo utxos p.asset).map
      getAmount) < 2 ^ 64
  merged : result.tokenPayOut = [] → ∀ asset selected,
    selectUtxo R utxos maxNumberMergeUtxos = some (asset, selected) →
    exact (selected.map getAmount) < 2 ^ 64

section

variable {requestTx : Option Transaction} {result : RwSet.ContractInvokeResult}
  {payments : List PaymentPayload}
  (hpay : paytoContractUtxos P requestTx = some paytoContractUtxo)
  (hutxos : dag.addrUtxos (contractAddress result) = .ok utxos)
  (h : resultToContractPayments P R dag requestTx result = some (.ok payments))

include hpay hutxos in
/-- Without payouts there is the merging payment, if there is any. -/
lemma resultToContractPayments_of_empty (hempty : result.tokenPayOut = []) (R : Runtime) :
    resultToContractPayments P R dag requestTx result =
      some (.ok (mergeUtxo R (contractAddress result) utxos maxNumberMergeUtxos).toList) := by
  simp only [contractAddress] at hutxos
  simp [resultToContractPayments, hpay, hempty, IDag.getAddr1TokenUtxos, hutxos, contractAddress]

include hpay in
/-- With payouts there is one payment for each asset, in the order of the map. -/
lemma resultToContractPayments_eq_iff (hne : result.tokenPayOut ≠ [])
    {pays : List PaymentPayload} :
    resultToContractPayments P R dag requestTx result = some (.ok pays) ↔
      List.Forall₂ (fun e pay =>
          payAsset P R dag (contractAddress result) paytoContractUtxo e.1 e.2 = .ok pay)
        (R.rangePayouts (rows (tokenPayOutGroupByAsset result.tokenPayOut))) pays := by
  have hempty : result.tokenPayOut.isEmpty = false := by simpa using hne
  simp only [resultToContractPayments, hpay, do_some, hempty, Bool.false_eq_true, if_false,
    some.injEq]
  exact Lib.mapM_eq_ok_iff

include hpay hutxos h in
lemma conserved_iff_of_empty (hempty : result.tokenPayOut = []) :
    Conserved P paytoContractUtxo utxos result payments ↔
      ∀ asset selected, selectUtxo R utxos maxNumberMergeUtxos = some (asset, selected) →
        exact (selected.map getAmount) < 2 ^ 64 := by
  have hnone : ∀ P : Prop, result.tokenPayOut ≠ [] → P := fun _ hne => absurd hempty hne
  rw [resultToContractPayments_of_empty hpay hutxos hempty, some.injEq,
    Except.ok.injEq, mergeUtxo] at h
  subst h
  cases hsel : selectUtxo R utxos maxNumberMergeUtxos with
  | none => exact iff_of_true ⟨hnone _, fun _ => ⟨by simp, by simp⟩⟩ nofun
  | some r =>
    obtain ⟨asset, selected⟩ := r
    obtain ⟨hdistinct, hheld⟩ := held_of_selectUtxo hsel
    have hmerge := exists_conserves_merge_iff (P := P) (contractAddress_hasKnownType result)
      hdistinct hheld
    constructor
    · rintro hc _ _ ⟨⟩
      exact hmerge.1 ((hc.merged hempty).2 _ (by simp))
    intro hlt
    refine ⟨hnone _, fun _ => ⟨by simp, ?_⟩⟩
    intro pay hmem
    obtain rfl : pay = _ := by simpa using hmem
    exact hmerge.2 (hlt asset selected rfl)

variable {pay : PaymentPayload}

include hutxos in
/-- A payment has an output of its asset. -/
lemma exists_output_of_payAsset
    (haa : (tokenPayOutGroupByAsset result.tokenPayOut).lookup asset = some aa)
    (hok : payAsset P R dag (contractAddress result) paytoContractUtxo asset aa = .ok pay) :
    ∃ o ∈ pay.outputs, o.asset = asset := by
  obtain ⟨-, rfl⟩ := (payAsset_eq_ok_iff hutxos).1 hok
  obtain ⟨a, ha⟩ := exists_mem_of_ne_nil _ (ne_nil_of_lookup_group haa)
  exact ⟨_, mem_append_left _ (List.mem_map_of_mem ha), rfl⟩

include hpay hutxos in
/-- The payment of one asset. -/
lemma payAsset_conserves_iff (hfit : owed result.tokenPayOut asset everyone < 2 ^ 64)
    (haa : (tokenPayOutGroupByAsset result.tokenPayOut).lookup asset = some aa)
    (hok : payAsset P R dag (contractAddress result) paytoContractUtxo asset aa = .ok pay) :
    (∃ spent, Conserves P (holding P (contractAddress result) asset paytoContractUtxo utxos)
        (contractAddress result) result.tokenPayOut asset spent pay) ↔
      exact ((picked P R (contractAddress result) paytoContractUtxo utxos asset).map
          getAmount) < 2 ^ 64 ∧
        ∀ p ∈ result.tokenPayOut, p.asset = asset → p.payTo.hasKnownType ∨ p.amount = 0 := by
  obtain ⟨txHash, hown⟩ := txHash_of_paytoContractUtxos hpay
  obtain ⟨henough, rfl⟩ := (payAsset_eq_ok_iff hutxos).1 hok
  have hworth : ∀ kind, worth kind aa = owed result.tokenPayOut asset kind := by
    intro kind
    rw [← worth_group hfit, haa, getD_some]
  exact exists_conserves_iff (contractAddress_hasKnownType result) hfit hworth
    ((nodup_candidates ..).sublist ((take_sublist _ _).map _))
    (fun s hs => held_of_mem_picked hown hs) henough rfl

include hpay hutxos h in
lemma conserved_iff_of_payouts (hne : result.tokenPayOut ≠ [])
    (hfit : ∀ asset, owed result.tokenPayOut asset everyone < 2 ^ 64) :
    Conserved P paytoContractUtxo utxos result payments ↔
      ∀ p ∈ result.tokenPayOut,
        exact ((picked P R (contractAddress result) paytoContractUtxo utxos p.asset).map
            getAmount) < 2 ^ 64 ∧
          (p.payTo.hasKnownType ∨ p.amount = 0) := by
  have hall := (resultToContractPayments_eq_iff hpay hne).1 h
  have hrows : ∀ e, e ∈ R.rangePayouts (rows (tokenPayOutGroupByAsset result.tokenPayOut)) →
      (tokenPayOutGroupByAsset result.tokenPayOut).lookup e.1 = some e.2 :=
    fun e he => mem_rows.1 ((R.rangePayouts_perm _).mem_iff.1 he)
  constructor
  · intro hc p hp
    have hmem := lookup_isSome.2 (mem_group_iff.2 ⟨p, hp, rfl⟩)
    obtain ⟨aa, haa⟩ := isSome_iff_exists.1 hmem
    obtain ⟨pay, hpaym, hok⟩ := Lib.exists_of_forall₂ hall
      ((R.rangePayouts_perm _).mem_iff.2 (mem_rows.2 haa))
    obtain ⟨o, ho, hasset⟩ := exists_output_of_payAsset hutxos haa hok
    obtain ⟨assets, -, -, hpaid⟩ := hc.paid hne
    obtain ⟨a, -, spent, hcons⟩ := Lib.exists_of_forall₂ hpaid.flip hpaym
    -- an output of the payment tells the asset it is for
    obtain rfl : a = p.asset := (hcons.outputs o ho).symm.trans hasset
    obtain ⟨hlt, hknown⟩ :=
      (payAsset_conserves_iff hpay hutxos (hfit p.asset) haa hok).1 ⟨spent, hcons⟩
    exact ⟨hlt, hknown p hp rfl⟩
  intro hc
  refine ⟨fun _ => ⟨(R.rangePayouts (rows (tokenPayOutGroupByAsset result.tokenPayOut))).map
    Prod.fst, ?_, ?_, ?_⟩, fun hempty => absurd hempty hne⟩
  · rw [((R.rangePayouts_perm _).map _).nodup_iff, map_fst_rows]
    exact keys_nodup _
  · intro a
    rw [← mem_group_iff, AList.mem_keys, ← map_fst_rows]
    exact ((R.rangePayouts_perm _).map _).mem_iff
  rw [forall₂_map_left_iff]
  apply ((forall₂_and_left _ _).2 ⟨hrows, hall⟩).imp
  rintro ⟨asset, aa⟩ pay ⟨haa, hok⟩
  have hiff := payAsset_conserves_iff hpay hutxos (hfit asset) haa hok
  have hmem : asset ∈ tokenPayOutGroupByAsset result.tokenPayOut :=
    lookup_isSome.1 (haa.symm ▸ rfl)
  obtain ⟨p, hp, rfl⟩ := mem_group_iff.1 hmem
  exact hiff.2 ⟨(hc p hp).1, fun q hq _ => (hc q hq).2⟩

end

/-- For every result whose payouts of each asset fit in a word, and every set of outputs that the
contract has: the payments conserve exactly if what is spent fits in a word too, and no amount is
paid to an address of an unknown type. -/
theorem conserved_iff {requestTx : Option Transaction} {result : RwSet.ContractInvokeResult}
    {payments : List PaymentPayload}
    (hpay : paytoContractUtxos P requestTx = some paytoContractUtxo)
    (hutxos : dag.addrUtxos (contractAddress result) = .ok utxos)
    (hfit : ∀ asset, owed result.tokenPayOut asset everyone < 2 ^ 64)
    (h : resultToContractPayments P R dag requestTx result = some (.ok payments)) :
    Conserved P paytoContractUtxo utxos result payments ↔
      InputsFit P R paytoContractUtxo utxos result ∧
        ∀ p ∈ result.tokenPayOut, p.payTo.hasKnownType ∨ p.amount = 0 := by
  by_cases hempty : result.tokenPayOut = []
  · rw [conserved_iff_of_empty hpay hutxos h hempty]
    constructor
    · intro hmerged
      exact ⟨⟨by simp [hempty], fun _ => hmerged⟩, by simp [hempty]⟩
    · intro hc
      exact hc.1.merged hempty
  rw [conserved_iff_of_payouts hpay hutxos h hempty hfit]
  constructor
  · intro hc
    exact ⟨⟨fun p hp => (hc p hp).1, fun hnil => absurd hnil hempty⟩, fun p hp => (hc p hp).2⟩
  · rintro ⟨hin, hknown⟩ p hp
    exact ⟨hin.paid p hp, hknown p hp⟩

/-! ### Two outputs of a contract -/

namespace TwoOutputs

open SmallNode

def alice : Address := newAddress [1] .publicKeyHash

def bob : Address := newAddress [2] .publicKeyHash

/-- The contract pays to two payees, to one of them twice. -/
def result : RwSet.ContractInvokeResult where
  contractId := [9]
  requestId := FixedBytes.zero 32
  args := []
  readSet := []
  writeSet := []
  payload := []
  tokenPayOut := [⟨newPTNAsset, 3, alice, 0⟩, ⟨newPTNAsset, 1, bob, 0⟩, ⟨newPTNAsset, 2, alice, 0⟩]
  tokenSupply := []
  tokenDefine := none

/-- The contract has two outputs. -/
def outputs (a b : UInt64) : Table OutPoint Utxo :=
  let utxo (amount : UInt64) : Utxo :=
    ⟨amount, newPTNAsset, generateLockScript (contractAddress result), 0⟩
  tableOf [(⟨FixedBytes.zero 32, 0, 0⟩, utxo a), (⟨FixedBytes.zero 32, 0, 1⟩, utxo b)]

def chain (a b : UInt64) : IDag :=
  ⟨fun _ => .ok (outputs a b)⟩

/-- The payment that spends both. -/
def paid (a b change : UInt64) : PaymentPayload :=
  payment (contractAddress result) newPTNAsset [⟨alice, 5⟩, ⟨bob, 1⟩]
    (picked primitives .plain (contractAddress result) ∅ (outputs a b) newPTNAsset) change

lemma run_small : resultToContractPayments primitives .plain (chain 5 4) none result =
    some (.ok [paid 5 4 3]) := by
  decide +kernel

/-- The amounts sum up to 10 in a word. -/
lemma run_large : resultToContractPayments primitives .plain (chain (2 ^ 63) (2 ^ 63 + 10)) none
    result = some (.ok [paid (2 ^ 63) (2 ^ 63 + 10) 4]) := by
  decide +kernel

lemma owed_lt (asset : Asset) : owed result.tokenPayOut asset everyone < 2 ^ 64 :=
  lt_of_le_of_lt (exact_filter_le _ _ _) (by decide)

end TwoOutputs

open TwoOutputs SmallNode in
/-- Two outputs that are worth more than a word: the contract pays 6 and gets 4 back. -/
theorem TwoOutputs.lost :
    resultToContractPayments primitives .plain (chain (2 ^ 63) (2 ^ 63 + 10)) none result =
        some (.ok [paid (2 ^ 63) (2 ^ 63 + 10) 4]) ∧
      (∀ asset, owed result.tokenPayOut asset everyone < 2 ^ 64) ∧
      ¬ Conserved primitives ∅ (outputs (2 ^ 63) (2 ^ 63 + 10)) result
        [paid (2 ^ 63) (2 ^ 63 + 10) 4] := by
  refine ⟨run_large, owed_lt, ?_⟩
  rw [conserved_iff_of_payouts rfl rfl run_large (by decide) owed_lt]
  intro h
  have hlt := (h ⟨newPTNAsset, 3, alice, 0⟩ (by decide +kernel)).1
  exact absurd hlt (by decide +kernel)

open TwoOutputs SmallNode in
/-- Two outputs of 5 and 4: the contract pays 6 and gets 3 back. -/
theorem TwoOutputs.conserved_of_fitting :
    Conserved primitives ∅ (outputs 5 4) result [paid 5 4 3] := by
  rw [conserved_iff rfl rfl owed_lt run_small]
  refine ⟨⟨?_, ?_⟩, ?_⟩
  · decide +kernel
  · intro hnil
    cases hnil
  · decide +kernel

end ZwsChain.Jury
