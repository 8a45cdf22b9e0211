import ZwsChain.Jury.PayoutConservation

/-!
# Whether two jurors make the same payments

Jurors sign the transaction that a result becomes, so all of them have to make the same list of
payments. What their runtimes do differently is a `Runtime` each. The list depends on it in three
ways: payments come in the order in which the map of assets is iterated, outputs of one amount are
spent in the order in which `sort.Sort` leaves them, and the outputs that are merged without payouts
are those the iteration comes to first.

* `juryPayments`: the list a juror makes, `Deterministic`: all jurors make the same.
* `OneOrder`: none of the three matters.
* `deterministic_iff`: all jurors make the same list exactly if none of the three matters or there
  is no list.
-/

open List Option

namespace ZwsChain.Jury

open Jury.Runtime
open RwSet (TokenPayOut)
open TxScript (generateLockScript)
open Lib.SortedPick

/-! ### Lists of payments -/

section

variable (P : Primitives) (dag : IDag) (json : TokenJson) (requestTx : Option Transaction)
  (result : RwSet.ContractInvokeResult)

/-- The payouts or the merging payment, and the minting payments; `none` if there is an error.
Source: `consensus/jury/common.go`, `runContractCmd`, case `APP_CONTRACT_INVOKE_REQUEST` -/
def juryPayments (R : Runtime) : Option (List PaymentPayload) :=
  match resultToContractPayments P R dag requestTx result, resultToCoinbase json result with
  | some (.ok toContractPayments), some (.ok cs) => some (toContractPayments ++ cs)
  | _, _ => none

/-- All jurors make the same list. -/
def Deterministic : Prop :=
  ∀ R R' : Runtime, juryPayments P dag json requestTx result R =
    juryPayments P dag json requestTx result R'

end

variable {P : Primitives} {dag : IDag} {json : TokenJson} {requestTx : Option Transaction}
  {result : RwSet.ContractInvokeResult} {R R' : Runtime} {addr : Address} {asset : Asset}
  {paytoContractUtxo utxos : Table OutPoint Utxo} {aa : List AddrAmount}

lemma juryPayments_eq_some_iff {l : List PaymentPayload} :
    juryPayments P dag json requestTx result R = some l ↔
      ∃ pays cs, resultToContractPayments P R dag requestTx result = some (.ok pays) ∧
        resultToCoinbase json result = some (.ok cs) ∧ l = pays ++ cs := by
  rw [juryPayments]
  split
  · next pays cs hpays hcs => simp [hpays, hcs, eq_comm]
  next hnone =>
    simp only [reduceCtorEq, false_iff, not_exists, not_and]
    intro pays cs hpays hcs
    exact absurd hcs (hnone pays cs hpays)

/-! ### Sorted outputs -/

/-- The amount of an output. -/
def amountOf (u : UtxoWithOutPoint) : Nat :=
  u.getAmount.toNat

lemma candidates_falling (P : Primitives) (R : Runtime) (addr : Address)
    (paytoContractUtxo utxos : Table OutPoint Utxo) (asset : Asset) :
    Falling amountOf (candidates P R addr paytoContractUtxo utxos asset) :=
  (R.sort_sorted _).imp fun h => UInt64.le_iff_toNat_le.1 h

/-- All runtimes sort the same outputs. -/
lemma candidates_perm {txHash : Hash} (hown : ∀ e ∈ rows paytoContractUtxo, e.1.txHash = txHash)
    (R R' : Runtime) :
    (candidates P R addr paytoContractUtxo utxos asset).Perm
      (candidates P R' addr paytoContractUtxo utxos asset) := by
  refine (R.sort_perm _).trans (List.Perm.trans ?_ (R'.sort_perm _).symm)
  refine (convertMapUtxo_perm R _).trans (List.Perm.trans ?_ (convertMapUtxo_perm R' _).symm)
  apply List.Perm.map
  apply rows_perm
  intro op
  rw [lookup_addPaytoContractUtxo hown, lookup_addPaytoContractUtxo hown]

/-- What is spent is worth the same for all runtimes. -/
lemma map_getAmount_picked {txHash : Hash}
    (hown : ∀ e ∈ rows paytoContractUtxo, e.1.txHash = txHash) (R R' : Runtime) :
    (picked P R addr paytoContractUtxo utxos asset).map UtxoWithOutPoint.getAmount =
      (picked P R' addr paytoContractUtxo utxos asset).map UtxoWithOutPoint.getAmount := by
  have hkeys := map_eq_of_perm (candidates_falling P R addr paytoContractUtxo utxos asset)
    (candidates_falling P R' addr paytoContractUtxo utxos asset) (candidates_perm hown R R')
  have hinj : Function.Injective (List.map UInt64.toNat) :=
    map_injective_iff.2 fun _ _ h => UInt64.toNat_inj.1 h
  apply hinj
  rw [List.map_map, List.map_map]
  show ((candidates P R addr paytoContractUtxo utxos asset).take 500).map amountOf =
    ((candidates P R' addr paytoContractUtxo utxos asset).take 500).map amountOf
  rw [map_take, hkeys, ← map_take]

/-! ### One order -/

/-- No order of the runtime matters: nothing is merged; there is one asset, and the outputs of it
that are spent, and the next one, have different amounts. -/
structure OneOrder (P : Primitives) (paytoContractUtxo utxos : Table OutPoint Utxo)
    (result : RwSet.ContractInvokeResult) : Prop where
  merged : result.tokenPayOut = [] → ∀ a, (collect a (rows utxos)).length < maxNumberMergeUtxos
  asset : ∀ p ∈ result.tokenPayOut, ∀ q ∈ result.tokenPayOut, p.asset = q.asset
  amounts : ∀ p ∈ result.tokenPayOut,
    (((candidates P .plain (contractAddress result) paytoContractUtxo utxos p.asset).map
      amountOf).take 501).Pairwise (· > ·)

lemma length_collect_rangeUtxos (R : Runtime) (utxos : Table OutPoint Utxo) (a : Asset) :
    (collect a (R.rangeUtxos (rows utxos))).length = (collect a (rows utxos)).length :=
  (((R.rangeUtxos_perm _).filter _).map _).length_eq

/-- The map of payouts of one asset has one entry. -/
lemma exists_rows_eq_singleton (hne : result.tokenPayOut ≠ [])
    (hasset : ∀ p ∈ result.tokenPayOut, ∀ q ∈ result.tokenPayOut, p.asset = q.asset) :
    ∃ p ∈ result.tokenPayOut, ∃ aa,
      rows (tokenPayOutGroupByAsset result.tokenPayOut) = [(p.asset, aa)] := by
  obtain ⟨p, hp⟩ := exists_mem_of_ne_nil _ hne
  have hkeys : (tokenPayOutGroupByAsset result.tokenPayOut).keys = [p.asset] := by
    apply perm_singleton.1
    apply (perm_ext_iff_of_nodup (AList.keys_nodup _) (nodup_singleton _)).2
    intro a
    rw [← AList.mem_keys, mem_group_iff, mem_singleton]
    constructor
    · rintro ⟨q, hq, rfl⟩
      exact hasset q hq p hp
    · rintro rfl
      exact ⟨p, hp, rfl⟩
  rw [← map_fst_rows] at hkeys
  obtain ⟨⟨a, aa⟩, hrows, ha⟩ := map_eq_singleton_iff.1 hkeys
  exact ⟨p, hp, aa, hrows.trans (by rw [← ha])⟩

lemma rangePayouts_singleton (R : Runtime) (e : Asset × List AddrAmount) :
    R.rangePayouts [e] = [e] :=
  perm_singleton.1 (R.rangePayouts_perm [e])

section

variable (hpay : paytoContractUtxos P requestTx = some paytoContractUtxo)
  (hutxos : dag.addrUtxos (contractAddress result) = .ok utxos)
include hpay hutxos

/-- A list of payouts is made by all runtimes or by none. -/
lemma exists_resultToContractPayments {pays : List PaymentPayload}
    (h : resultToContractPayments P R dag requestTx result = some (.ok pays)) (R' : Runtime) :
    ∃ pays', resultToContractPayments P R' dag requestTx result = some (.ok pays') := by
  obtain ⟨txHash, hown⟩ := txHash_of_paytoContractUtxos hpay
  by_cases hempty : result.tokenPayOut = []
  · exact ⟨_, resultToContractPayments_of_empty hpay hutxos hempty R'⟩
  rw [resultToContractPayments_eq_iff hpay hempty] at h
  have hall : ∀ e ∈ R'.rangePayouts (rows (tokenPayOutGroupByAsset result.tokenPayOut)),
      ∃ pay', payAsset P R' dag (contractAddress result) paytoContractUtxo e.1 e.2 = .ok pay' := by
    intro e he
    obtain ⟨pay, -, hok⟩ := Lib.exists_of_forall₂ h
      ((R.rangePayouts_perm _).mem_iff.2 ((R'.rangePayouts_perm _).mem_iff.1 he))
    rw [payAsset_eq_ok_iff hutxos, map_getAmount_picked hown R R'] at hok
    exact ⟨_, (payAsset_eq_ok_iff hutxos).2 ⟨hok.1, rfl⟩⟩
  obtain ⟨pays', hpays'⟩ := Lib.exists_forall₂ hall
  exact ⟨pays', (resultToContractPayments_eq_iff hpay hempty).2 hpays'⟩

/-- If no order matters, all runtimes make the same payments. -/
lemma OneOrder.payments_eq (h : OneOrder P paytoContractUtxo utxos result)
    {pays pays' : List PaymentPayload}
    (hpays : resultToContractPayments P R dag requestTx result = some (.ok pays))
    (hpays' : resultToContractPayments P R' dag requestTx result = some (.ok pays')) :
    pays = pays' := by
  obtain ⟨txHash, hown⟩ := txHash_of_paytoContractUtxos hpay
  by_cases hempty : result.tokenPayOut = []
  · have hmerge : ∀ R : Runtime,
        mergeUtxo R (contractAddress result) utxos maxNumberMergeUtxos = none := by
      intro R
      rw [mergeUtxo, map_eq_none_iff, selectUtxo_eq_none (by decide)]
      intro a
      rw [length_collect_rangeUtxos]
      exact h.merged hempty a
    rw [resultToContractPayments_of_empty hpay hutxos hempty, hmerge] at hpays hpays'
    exact Except.ok.inj (some.inj (hpays.symm.trans hpays'))
  obtain ⟨p, hp, aa, hrows⟩ := exists_rows_eq_singleton hempty h.asset
  rw [resultToContractPayments_eq_iff hpay hempty, hrows, rangePayouts_singleton] at hpays hpays'
  obtain ⟨pay, _, hok, hnil, rfl⟩ := forall₂_cons_left_iff.1 hpays
  obtain ⟨pay', _, hok', hnil', rfl⟩ := forall₂_cons_left_iff.1 hpays'
  rw [forall₂_nil_left_iff.1 hnil, forall₂_nil_left_iff.1 hnil']
  have hpicked : ∀ R : Runtime, picked P .plain (contractAddress result) paytoContractUtxo utxos
      p.asset = picked P R (contractAddress result) paytoContractUtxo utxos p.asset :=
    fun R => take_eq_of_perm (candidates_falling ..) (candidates_falling ..)
      (candidates_perm hown .plain R) (h.amounts p hp)
  rw [payAsset_eq_ok_iff hutxos, ← hpicked R, hpicked R', ← payAsset_eq_ok_iff hutxos] at hok
  rw [Except.ok.inj (hok.symm.trans hok')]

end

/-! ### Where an order matters -/

/-- Outputs in the opposite order. -/
def Runtime.reversedUtxos : Runtime :=
  { plain with rangeUtxos := List.reverse, rangeUtxos_perm := reverse_perm }

/-- Assets in the opposite order. -/
def Runtime.reversedPayouts : Runtime :=
  { plain with rangePayouts := List.reverse, rangePayouts_perm := reverse_perm }

/-- Another order of the elements of one list. -/
def Runtime.resorted (l s : List UtxoWithOutPoint) (hperm : s.Perm l)
    (hsorted : s.Pairwise fun a b => b.getAmount ≤ a.getAmount) : Runtime :=
  { plain with
    sort := fun l' => if l' = l then s else plain.sort l'
    sort_perm := by
      intro l'
      split
      · next h => exact h ▸ hperm
      · exact plain.sort_perm l'
    sort_sorted := by
      intro l'
      split
      · exact hsorted
      · exact plain.sort_sorted l' }

section

variable (hpay : paytoContractUtxos P requestTx = some paytoContractUtxo)
  (hutxos : dag.addrUtxos (contractAddress result) = .ok utxos)
  (hsame : ∀ R R' : Runtime, resultToContractPayments P R dag requestTx result =
    resultToContractPayments P R' dag requestTx result)
include hpay hutxos hsame

/-- Opposite orders merge different lists. -/
lemma merged_of_same (hempty : result.tokenPayOut = []) (a : Asset) :
    (collect a (rows utxos)).length < maxNumberMergeUtxos := by
  by_contra hlen
  have hsome : ∀ R : Runtime, ∃ r, selectUtxo R utxos maxNumberMergeUtxos = some r := by
    intro R
    rw [← ne_none_iff_exists', Ne, selectUtxo_eq_none (by decide)]
    intro hall
    exact hlen (length_collect_rangeUtxos R utxos a ▸ hall a)
  obtain ⟨⟨a₁, l₁⟩, h₁⟩ := hsome .plain
  obtain ⟨⟨a₂, l₂⟩, h₂⟩ := hsome .reversedUtxos
  have hlists := hsame .plain .reversedUtxos
  simp only [resultToContractPayments_of_empty hpay hutxos hempty, mergeUtxo, h₁, h₂,
    map_some, toList_some, some.injEq, Except.ok.injEq, List.cons.injEq,
    PaymentPayload.mk.injEq] at hlists
  obtain rfl : l₁ = l₂ := @eq_of_txIns (fun op => utxos.lookup op) _ _
    (fun s hs => ((held_of_selectUtxo h₁).2 s hs).1)
    (fun s hs => ((held_of_selectUtxo h₂).2 s hs).1) hlists.1.1
  -- the list is in both orders of the entries
  let toUtxo : OutPoint × Utxo → UtxoWithOutPoint := fun e => ⟨e.2, e.1⟩
  have hnodup : ((rows utxos).map toUtxo).Nodup :=
    (nodup_rows utxos).map fun x y h => by cases x; cases y; simp_all [toUtxo]
  obtain ⟨hlong, mid₁, hmid₁, hl₁⟩ := selectUtxo_eq_some h₁
  obtain ⟨-, mid₂, hmid₂, hl₂⟩ := selectUtxo_eq_some h₂
  have hsub₁ : l₁.Sublist ((rows utxos).map toUtxo) :=
    hl₁ ▸ (filter_sublist.trans hmid₁.sublist).map toUtxo
  have hsub₂ : l₁.Sublist ((rows utxos).reverse.map toUtxo) :=
    hl₂ ▸ (filter_sublist.trans hmid₂.sublist).map toUtxo
  have hrev : l₁.reverse.Sublist ((rows utxos).map toUtxo) := by
    have := hsub₂.reverse
    rwa [map_reverse, reverse_reverse] at this
  have hshort := length_le_one_of_reverse hnodup hsub₁ hrev
  exact absurd (hlong.trans hshort) (by decide)

/-- Opposite orders of two assets give different lists. -/
lemma asset_of_same {pays : List PaymentPayload}
    (hpays : resultToContractPayments P .plain dag requestTx result = some (.ok pays))
    {p q : TokenPayOut} (hp : p ∈ result.tokenPayOut) (hq : q ∈ result.tokenPayOut) :
    p.asset = q.asset := by
  have hne : result.tokenPayOut ≠ [] := ne_nil_of_mem hp
  have hpays' := (hsame .reversedPayouts .plain).trans hpays
  rw [resultToContractPayments_eq_iff hpay hne] at hpays hpays'
  change List.Forall₂ _ (rows _) pays at hpays
  change List.Forall₂ _ (rows _).reverse pays at hpays'
  have hmem : ∀ p ∈ result.tokenPayOut,
      p.asset ∈ (rows (tokenPayOutGroupByAsset result.tokenPayOut)).map Prod.fst := by
    intro p hp
    rw [map_fst_rows]
    exact AList.mem_keys.1 (mem_group_iff.2 ⟨p, hp, rfl⟩)
  have hnodup : ((rows (tokenPayOutGroupByAsset result.tokenPayOut)).map Prod.fst).Nodup :=
    map_fst_rows (tokenPayOutGroupByAsset result.tokenPayOut) ▸ AList.keys_nodup _
  refine eq_of_head?_eq_getLast? hnodup ?_ (hmem p hp) (hmem q hq)
  rw [head?_map, getLast?_map, ← head?_reverse]
  -- the first payment is for the first asset, and for the last one
  cases hes : rows (tokenPayOutGroupByAsset result.tokenPayOut) with
  | nil => rfl
  | cons e es =>
    cases hes' : (e :: es).reverse with
    | nil => simp at hes'
    | cons e' es' =>
      rw [hes] at hpays hpays'
      rw [hes'] at hpays'
      obtain ⟨pay, _, hok, -, rfl⟩ := forall₂_cons_left_iff.1 hpays
      obtain ⟨pay', _, hok', -, heq⟩ := forall₂_cons_left_iff.1 hpays'
      cases heq
      have hlook : (tokenPayOutGroupByAsset result.tokenPayOut).lookup e.1 = some e.2 :=
        mem_rows.1 (hes ▸ mem_cons_self)
      obtain ⟨o, ho, hasset⟩ := exists_output_of_payAsset hutxos hlook hok
      obtain ⟨-, rfl⟩ := (payAsset_eq_ok_iff hutxos).1 hok'
      exact congrArg some (hasset.symm.trans (asset_of_mem_outputs ho))

/-- Two orders of outputs of one amount give different lists. -/
lemma amounts_of_same {pays : List PaymentPayload}
    (hpays : resultToContractPayments P .plain dag requestTx result = some (.ok pays))
    {p : TokenPayOut} (hp : p ∈ result.tokenPayOut) :
    (((candidates P .plain (contractAddress result) paytoContractUtxo utxos p.asset).map
      amountOf).take 501).Pairwise (· > ·) := by
  by_contra hnot
  have hne : result.tokenPayOut ≠ [] := ne_nil_of_mem hp
  obtain ⟨txHash, hown⟩ := txHash_of_paytoContractUtxos hpay
  obtain ⟨s, hperm, hfall, htake⟩ := exists_other_take (candidates_falling ..)
    (.of_map _ (nodup_candidates ..)) hnot
  set R := resorted _ s (hperm.trans (plain.sort_perm _))
    (hfall.imp fun h => UInt64.le_iff_toNat_le.2 h) with hR
  have hpicked : picked P R (contractAddress result) paytoContractUtxo utxos p.asset =
      s.take 500 := by
    rw [picked, candidates]
    congr 1
    exact if_pos rfl
  have hpays' := (hsame R .plain).trans hpays
  obtain ⟨p', hp', aa, hrows⟩ := exists_rows_eq_singleton hne
    fun p hp q hq => asset_of_same hpay hutxos hsame hpays hp hq
  rw [asset_of_same hpay hutxos hsame hpays hp' hp] at hrows
  rw [resultToContractPayments_eq_iff hpay hne, hrows, rangePayouts_singleton] at hpays hpays'
  obtain ⟨pay, _, hok, -, rfl⟩ := forall₂_cons_left_iff.1 hpays
  obtain ⟨pay', _, hok', -, heq⟩ := forall₂_cons_left_iff.1 hpays'
  cases heq
  obtain ⟨-, hpay₁⟩ := (payAsset_eq_ok_iff hutxos).1 hok
  obtain ⟨-, hpay₂⟩ := (payAsset_eq_ok_iff hutxos).1 hok'
  have hins : txIns (picked P R (contractAddress result) paytoContractUtxo utxos p.asset) =
      txIns (picked P .plain (contractAddress result) paytoContractUtxo utxos p.asset) :=
    congrArg PaymentPayload.inputs (hpay₂.symm.trans hpay₁)
  have heq := eq_of_txIns (fun s hs => (held_of_mem_picked hown hs).1)
    (fun s hs => (held_of_mem_picked hown hs).1) hins
  exact htake (hpicked.symm.trans heq)

end

/-- A list of payouts needs the outputs of the request and of the contract. -/
lemma exists_utxos_of_ok {pays : List PaymentPayload}
    (h : resultToContractPayments P R dag requestTx result = some (.ok pays)) :
    ∃ paytoContractUtxo utxos, paytoContractUtxos P requestTx = some paytoContractUtxo ∧
      dag.addrUtxos (contractAddress result) = .ok utxos := by
  cases hpay : paytoContractUtxos P requestTx with
  | none => simp [resultToContractPayments, hpay] at h
  | some paytoContractUtxo =>
    cases hutxos : dag.addrUtxos (contractAddress result) with
    | ok utxos => exact ⟨paytoContractUtxo, utxos, rfl, rfl⟩
    | error err =>
      exfalso
      by_cases hempty : result.tokenPayOut = []
      · simp only [contractAddress] at hutxos
        simp [resultToContractPayments, hpay, hempty, IDag.getAddr1TokenUtxos, hutxos] at h
      rw [resultToContractPayments_eq_iff hpay hempty] at h
      obtain ⟨p, hp⟩ := exists_mem_of_ne_nil _ hempty
      have hmem := AList.lookup_isSome.2 (mem_group_iff.2 ⟨p, hp, rfl⟩)
      obtain ⟨aa, haa⟩ := isSome_iff_exists.1 hmem
      obtain ⟨pay, -, hok⟩ := Lib.exists_of_forall₂ h
        ((R.rangePayouts_perm _).mem_iff.2 (mem_rows.2 haa))
      simp [payAsset, IDag.getAddr1TokenUtxos, hutxos, Except.map, bind, Except.bind] at hok

/-- If all jurors make the same list, no order matters. -/
lemma Deterministic.oneOrder (h : Deterministic P dag json requestTx result)
    (hpay : paytoContractUtxos P requestTx = some paytoContractUtxo)
    (hutxos : dag.addrUtxos (contractAddress result) = .ok utxos)
    (hsome : (juryPayments P dag json requestTx result .plain).isSome) :
    OneOrder P paytoContractUtxo utxos result := by
  obtain ⟨l, hl⟩ := isSome_iff_exists.1 hsome
  obtain ⟨pays, cs, hpays, hcs, rfl⟩ := juryPayments_eq_some_iff.1 hl
  have hsame : ∀ R, resultToContractPayments P R dag requestTx result = some (.ok pays) := by
    intro R
    obtain ⟨pays', cs', hpays', hcs', heq⟩ := juryPayments_eq_some_iff.1 ((h R .plain).trans hl)
    obtain rfl := Except.ok.inj (some.inj (hcs.symm.trans hcs'))
    rwa [append_cancel_right heq]
  have hsame' := fun R R' => (hsame R).trans (hsame R').symm
  exact ⟨fun hempty a => merged_of_same hpay hutxos hsame' hempty a,
    fun p hp q hq => asset_of_same hpay hutxos hsame' hpays hp hq,
    fun p hp => amounts_of_same hpay hutxos hsame' hpays hp⟩

/-- For every result and every set of outputs: all jurors make the same list of payments exactly if
they make none or no order matters. -/
theorem deterministic_iff :
    Deterministic P dag json requestTx result ↔
      ∀ paytoContractUtxo utxos, paytoContractUtxos P requestTx = some paytoContractUtxo →
        dag.addrUtxos (contractAddress result) = .ok utxos →
        (juryPayments P dag json requestTx result .plain).isSome →
        OneOrder P paytoContractUtxo utxos result := by
  constructor
  · intro h paytoContractUtxo utxos hpay hutxos hsome
    exact h.oneOrder hpay hutxos hsome
  intro h
  have hkey : ∀ R R' l, juryPayments P dag json requestTx result R = some l →
      juryPayments P dag json requestTx result R' = some l := by
    intro R R' l hl
    obtain ⟨pays, cs, hpays, hcs, rfl⟩ := juryPayments_eq_some_iff.1 hl
    obtain ⟨paytoContractUtxo, utxos, hpay, hutxos⟩ := exists_utxos_of_ok hpays
    obtain ⟨pays₀, hpays₀⟩ := exists_resultToContractPayments hpay hutxos hpays .plain
    obtain ⟨pays', hpays'⟩ := exists_resultToContractPayments hpay hutxos hpays R'
    have hone := h _ _ hpay hutxos
      (isSome_iff_exists.2 ⟨_, juryPayments_eq_some_iff.2 ⟨pays₀, cs, hpays₀, hcs, rfl⟩⟩)
    rw [hone.payments_eq hpay hutxos hpays hpays']
    exact juryPayments_eq_some_iff.2 ⟨pays', cs, hpays', hcs, rfl⟩
  intro R R'
  exact ext fun l => ⟨hkey R R' l, hkey R' R l⟩

/-! ### Two jurors -/

namespace TwoJurors

open SmallNode

/-- A result that pays to one payee in two assets. -/
def payingOut (asset asset' : Asset) : RwSet.ContractInvokeResult where
  contractId := [9]
  requestId := FixedBytes.zero 32
  args := []
  readSet := []
  writeSet := []
  payload := []
  tokenPayOut := [⟨asset, 3, newAddress [1] .publicKeyHash, 0⟩,
    ⟨asset', 1, newAddress [1] .publicKeyHash, 0⟩]
  tokenSupply := []
  tokenDefine := none

def token : Asset := ⟨FixedBytes.zero 16, FixedBytes.zero 16⟩

/-- The contract has two outputs of the gas token of one amount, and one of a token. -/
def chain : IDag where
  addrUtxos _ := .ok <| tableOf
    [(⟨FixedBytes.zero 32, 0, 0⟩, ⟨5, newPTNAsset, [], 0⟩),
      (⟨FixedBytes.zero 32, 0, 1⟩, ⟨5, newPTNAsset, [], 0⟩),
      (⟨FixedBytes.zero 32, 0, 2⟩, ⟨5, token, [], 0⟩)]

def noTokens : TokenJson :=
  ⟨fun _ => .error [], fun _ => .error [], fun _ => .error []⟩

/-- The bytes of the payments that a juror makes. -/
def bytes (asset asset' : Asset) (R : Runtime) : Option (List Bytes) :=
  (juryPayments primitives chain noTokens none (payingOut asset asset') R).map
    (List.map fun p => Lib.Rlp.encode (Message.paymentItem p))

end TwoJurors

open TwoJurors in
/-- The order of assets shows in the payments, and so does that of outputs of one amount. -/
theorem TwoJurors.differ :
    bytes newPTNAsset token .plain ≠ bytes newPTNAsset token .reversedPayouts ∧
      bytes newPTNAsset newPTNAsset .plain ≠ bytes newPTNAsset newPTNAsset .reversedUtxos := by
  decide +kernel

end ZwsChain.Jury
