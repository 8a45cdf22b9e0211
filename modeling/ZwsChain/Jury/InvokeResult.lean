import ZwsChain.Lib.Keyed
import ZwsChain.Lib.SortedPick
import ZwsChain.Lib.WordSum
import ZwsChain.Modules.AssetText
import ZwsChain.RwSet.Invocations

/-!
# The payments of a contract's result

`consensus/jury/invokeresult.go`: every juror turns the result of an execution into payments. What
the contract pays out becomes one payment per asset (`resultToContractPayments`), with unspent
outputs of the contract as inputs; a result without payouts merges outputs of the contract instead.
Tokens that are defined or supplied become payments without inputs (`resultToCoinbase`).

Go leaves two things to the runtime of a juror: the order in which a map is iterated, and the order
in which `sort.Sort` leaves equal elements. A `Runtime` is a choice of both, as functions of the
list. The outputs of the request are iterated once for each asset, but they only fill a map, in
whatever order (`lookup_addPaytoContractUtxo`); the other lists of one run are of different assets.

`none` is a runtime panic, an error return is its text.
Sources without a file are in `consensus/jury/invokeresult.go`.
-/

open List Option

namespace ZwsChain.Jury

open RwSet (TokenPayOut TokenSupply TokenDefine)
open TxScript (generateLockScript getAddressFromScript)
open Lib.WordSum

/-- Source: `dag/modules/utxo.go`, `UtxoWithOutPoint` -/
structure UtxoWithOutPoint where
  utxo : Utxo
  outPoint : OutPoint
  deriving DecidableEq

open UtxoWithOutPoint

/-- Source: `dag/modules/utxo.go`, `GetAmount` -/
def UtxoWithOutPoint.getAmount (u : UtxoWithOutPoint) : UInt64 :=
  u.utxo.amount

/-- Source: `addrAmount` -/
structure AddrAmount where
  address : Address
  amount : UInt64
  deriving DecidableEq

/-- The orders of maps and of equal elements. -/
structure Runtime where
  rangePayouts : List (Asset × List AddrAmount) → List (Asset × List AddrAmount)
  rangeUtxos : List (OutPoint × Utxo) → List (OutPoint × Utxo)
  /-- `sort.Sort`, by falling amounts. -/
  sort : List UtxoWithOutPoint → List UtxoWithOutPoint
  rangePayouts_perm : ∀ l, (rangePayouts l).Perm l
  rangeUtxos_perm : ∀ l, (rangeUtxos l).Perm l
  sort_perm : ∀ l, (sort l).Perm l
  sort_sorted : ∀ l, (sort l).Pairwise fun a b => b.getAmount ≤ a.getAmount

/-- The order of `core.Utxos`.
Source: `core/utxo_pickup.go`, `Less` -/
def falling (a b : UtxoWithOutPoint) : Prop :=
  b.getAmount ≤ a.getAmount

instance : DecidableRel falling :=
  fun a b => inferInstanceAs (Decidable (b.getAmount ≤ a.getAmount))

instance : Std.Total falling :=
  ⟨fun a b => UInt64.le_total b.getAmount a.getAmount⟩

instance : IsTrans UtxoWithOutPoint falling :=
  ⟨fun _ _ _ hab hbc => UInt64.le_trans hbc hab⟩

/-- Maps in the order of their entries, equal elements in the order they had. -/
def Runtime.plain : Runtime where
  rangePayouts l := l
  rangeUtxos l := l
  sort := List.insertionSort falling
  rangePayouts_perm _ := .rfl
  rangeUtxos_perm _ := .rfl
  sort_perm := perm_insertionSort falling
  sort_sorted := pairwise_insertionSort falling

/-! ### Maps -/

section

variable {K V : Type}

/-- The entries of a map. -/
def rows (t : Table K V) : List (K × V) :=
  t.entries.map fun e => (e.1, e.2)

/-- The entries of a map with a property. -/
def tableFilter (p : V → Bool) (t : Table K V) : Table K V :=
  ⟨t.entries.filter fun e => p e.2, t.nodupKeys.sublist filter_sublist⟩

lemma map_fst_rows (t : Table K V) : (rows t).map Prod.fst = t.keys := by
  rw [rows, List.map_map]
  rfl

lemma nodup_rows (t : Table K V) : (rows t).Nodup := by
  apply List.Nodup.of_map Prod.fst
  rw [map_fst_rows]
  exact t.keys_nodup

variable [DecidableEq K]

/-- The map with the given entries; a later one replaces an earlier one of the same key. -/
def tableOf (l : List (K × V)) : Table K V :=
  l.foldl (fun t e => t.insert e.1 e.2) ∅

variable {k : K} {t : Table K V} {v : V}

lemma mem_rows : (k, v) ∈ rows t ↔ t.lookup k = some v := by
  rw [← mem_def, AList.mem_lookup_iff, rows, List.mem_map]
  constructor
  · rintro ⟨⟨k', v'⟩, hmem, heq⟩
    cases heq
    exact hmem
  · intro hmem
    exact ⟨⟨k, v⟩, hmem, rfl⟩

lemma lookup_tableFilter_eq_some {p : V → Bool} :
    (tableFilter p t).lookup k = some v ↔ t.lookup k = some v ∧ p v = true := by
  rw [← mem_def, AList.mem_lookup_iff, ← mem_def, AList.mem_lookup_iff]
  exact mem_filter

/-- Tables with the same lookups have the same entries. -/
lemma rows_perm {t' : Table K V} (h : ∀ k, t.lookup k = t'.lookup k) : (rows t).Perm (rows t') := by
  apply List.Perm.map
  apply lookup_ext t.nodupKeys t'.nodupKeys
  intro k v
  exact (h k ▸ Iff.rfl : v ∈ t.lookup k ↔ v ∈ t'.lookup k)

end

/-! ### The chain -/

/-- The unspent outputs of each address.
Source: `consensus/jury/service.go`, `iDag` -/
structure IDag where
  addrUtxos : Address → Except Bytes (Table OutPoint Utxo)

/-- The unspent outputs of an address; those of one asset, or all of them.
Source: `dag/dag.go`, `GetAddr1TokenUtxos`; `dag/storage/utxodb.go`, `GetAddrUtxos` -/
def IDag.getAddr1TokenUtxos (dag : IDag) (addr : Address) :
    Option Asset → Except Bytes (Table OutPoint Utxo)
  | none => dag.addrUtxos addr
  | some asset => (dag.addrUtxos addr).map (tableFilter fun utxo => utxo.asset = asset)

/-! ### Picking unspent outputs -/

/-- `i` outputs have been taken, worth `accum`.
Source: `core/utxo_pickup.go`, `Select_utxo_Greedy`, loop and what follows it -/
def selectLoop (amount : UInt64) : List UtxoWithOutPoint → Nat → List UtxoWithOutPoint → UInt64 →
    Except Bytes (List UtxoWithOutPoint × UInt64)
  | [], _, taken, accum =>
    if accum < amount then .error (ascii "Amount Not Enough to pay")
    else .ok (taken, accum - amount)
  | utxo :: utxos, i, taken, accum =>
    let accum := accum + utxo.getAmount
    let taken := taken ++ [utxo]
    if 499 ≤ i then
      if accum < amount then
        .error (ascii "Utxo Fragment More 500,Please Decrease Amount To Pay")
      else .ok (taken, accum - amount)
    else selectLoop amount utxos (i + 1) taken accum

/-- Takes the largest outputs, 500 at most, whatever they are worth, and returns them with the
change.
Source: `core/utxo_pickup.go`, `Select_utxo_Greedy` -/
def selectUtxoGreedy (R : Runtime) (utxos : List UtxoWithOutPoint) (amount : UInt64) :
    Except Bytes (List UtxoWithOutPoint × UInt64) :=
  selectLoop amount (R.sort utxos) 0 [] 0

variable {amount change : UInt64} {selected us uos : List UtxoWithOutPoint} {R : Runtime}
  {t : Table OutPoint Utxo} {asset : Asset} {l pre : List (OutPoint × Utxo)} {num : Nat}

lemma selectLoop_eq_ok_iff {i : Nat} (hi : i ≤ 499) {taken : List UtxoWithOutPoint}
    {accum : UInt64} :
    selectLoop amount us i taken accum = .ok (selected, change) ↔
      selected = taken ++ us.take (500 - i) ∧
        ¬ accum + ((us.take (500 - i)).map getAmount).sum < amount ∧
        change = accum + ((us.take (500 - i)).map getAmount).sum - amount := by
  have hend : ∀ (taken : List UtxoWithOutPoint) (accum : UInt64) (text : Bytes),
      (if accum < amount then .error text else .ok (taken, accum - amount) :
        Except Bytes (List UtxoWithOutPoint × UInt64)) = .ok (selected, change) ↔
      selected = taken ∧ ¬ accum < amount ∧ change = accum - amount := by
    intro taken accum text
    split
    · simp_all
    · simp_all [eq_comm]
  induction us generalizing i taken accum with
  | nil => simpa [selectLoop] using hend taken accum _
  | cons u us ih =>
    obtain ⟨n, hn⟩ : ∃ n, 500 - i = n + 1 := ⟨499 - i, by omega⟩
    have htaken : taken ++ (u :: us).take (n + 1) = taken ++ [u] ++ us.take n := by simp
    have hsum : accum + (((u :: us).take (n + 1)).map getAmount).sum =
        accum + u.getAmount + ((us.take n).map getAmount).sum := by
      simp [UInt64.add_assoc]
    rw [hn, htaken, hsum, selectLoop]
    by_cases hlast : 499 ≤ i
    · obtain rfl : n = 0 := by omega
      simpa [hlast] using hend (taken ++ [u]) (accum + u.getAmount) _
    simp only [hlast, if_false]
    obtain rfl : n = 500 - (i + 1) := by omega
    exact ih (by omega)

/-- What is taken are the 500 first outputs of the sorted list, whatever the amount. -/
lemma selectUtxoGreedy_eq_ok_iff :
    selectUtxoGreedy R us amount = .ok (selected, change) ↔
      selected = (R.sort us).take 500 ∧
        ¬ (selected.map getAmount).sum < amount ∧
        change = (selected.map getAmount).sum - amount := by
  rw [selectUtxoGreedy, selectLoop_eq_ok_iff (by decide)]
  simp only [nil_append, UInt64.zero_add, Nat.sub_zero]
  constructor
  · rintro ⟨rfl, h⟩
    exact ⟨rfl, h⟩
  · rintro ⟨rfl, h⟩
    exact ⟨rfl, h⟩

/-- If all outputs together fit in 64 bits, outputs of the list are returned, 500 at most, that are
worth the amount and the change; it fails exactly if no 500 outputs are worth the amount. -/
theorem selects_exactly (hfits : exact (us.map getAmount) < 2 ^ 64) (amount : UInt64) :
    (∀ selected change, selectUtxoGreedy R us amount = .ok (selected, change) →
      selected <+~ us ∧ selected.length ≤ 500 ∧
        exact (selected.map getAmount) = amount.toNat + change.toNat) ∧
    ((∃ text, selectUtxoGreedy R us amount = .error text) ↔
      ∀ l, l <+~ us → l.length ≤ 500 → exact (l.map getAmount) < amount.toNat) := by
  have hfalling : Lib.SortedPick.Falling (fun u => u.getAmount.toNat) (R.sort us) :=
    (R.sort_sorted us).imp UInt64.le_iff_toNat_le.1
  have hmax : ∀ l n, l <+~ us → l.length ≤ n →
      exact (l.map getAmount) ≤ exact (((R.sort us).take n).map getAmount) := by
    intro l n hl hn
    have hle := Lib.SortedPick.sum_le_sum_take hfalling (hl.trans (R.sort_perm us).symm.subperm) hn
    simpa [exact, Function.comp_def] using hle
  have hsub : (R.sort us).take 500 <+~ us :=
    (take_sublist _ _).subperm.trans (R.sort_perm us).subperm
  have hsum : (((R.sort us).take 500).map getAmount).sum.toNat =
      exact (((R.sort us).take 500).map getAmount) := by
    refine toNat_sum_of_lt (lt_of_le_of_lt (hmax _ us.length hsub hsub.length_le) ?_)
    rw [take_of_length_le (R.sort_perm us).length_eq.le, exact,
      (((R.sort_perm us).map getAmount).map UInt64.toNat).sum_eq]
    exact hfits
  constructor
  · intro selected change h
    obtain ⟨rfl, hle, rfl⟩ := selectUtxoGreedy_eq_ok_iff.1 h
    refine ⟨hsub, length_take_le _ _, ?_⟩
    rw [UInt64.not_lt] at hle
    rw [UInt64.toNat_sub_of_le _ _ hle, ← hsum]
    have hle := UInt64.le_iff_toNat_le.1 hle
    omega
  constructor
  · rintro ⟨text, h⟩ l hl hlength
    refine lt_of_le_of_lt (hmax l 500 hl hlength) ?_
    by_contra hle
    rw [← hsum, ← UInt64.lt_iff_toNat_lt] at hle
    cases h.symm.trans (selectUtxoGreedy_eq_ok_iff.2 ⟨rfl, hle, rfl⟩)
  · intro h
    rcases hresult : selectUtxoGreedy R us amount with text | ⟨selected, change⟩
    · exact ⟨text, rfl⟩
    · obtain ⟨rfl, hle, -⟩ := selectUtxoGreedy_eq_ok_iff.1 hresult
      have hlt := h _ hsub (length_take_le _ _)
      rw [← hsum, ← UInt64.lt_iff_toNat_lt] at hlt
      exact absurd hlt hle

/-- 500 outputs of 1, and one of 10 behind them. -/
def coins : List UtxoWithOutPoint :=
  let coin n : UtxoWithOutPoint := ⟨⟨n, newPTNAsset, [], 0⟩, ⟨FixedBytes.zero 32, 0, 0⟩⟩
  replicate 500 (coin 1) ++ [coin 10]

/-- The output of 10 and 499 others are taken, and 500 of them are worth no more than that. -/
theorem selects_exactly_coins :
    (∃ selected, selectUtxoGreedy .plain coins 509 = .ok (selected, 0) ∧ selected.length ≤ 500 ∧
      exact (selected.map getAmount) = 509) ∧
    ∀ l, l <+~ coins → l.length ≤ 500 → exact (l.map getAmount) < 510 := by
  have hfits : exact (coins.map getAmount) < 2 ^ 64 := by decide +kernel
  have hrun : selectUtxoGreedy .plain coins 509 = .ok ((Runtime.plain.sort coins).take 500, 0) :=
    selectUtxoGreedy_eq_ok_iff.2 ⟨rfl, by decide +kernel, by decide +kernel⟩
  have hfail : selectUtxoGreedy .plain coins 510 =
      .error (ascii "Utxo Fragment More 500,Please Decrease Amount To Pay") := by decide +kernel
  obtain ⟨-, hlength, hsum⟩ := (selects_exactly hfits 509).1 _ _ hrun
  exact ⟨⟨_, hrun, hlength, hsum⟩, (selects_exactly hfits 510).2.1 ⟨_, hfail⟩⟩

/-- Source: `convertMapUtxo` -/
def convertMapUtxo (R : Runtime) (utxos : Table OutPoint Utxo) : List UtxoWithOutPoint :=
  (R.rangeUtxos (rows utxos)).map fun e => ⟨e.2, e.1⟩

lemma convertMapUtxo_perm (R : Runtime) (t : Table OutPoint Utxo) :
    (convertMapUtxo R t).Perm ((rows t).map fun e => ⟨e.2, e.1⟩) :=
  (R.rangeUtxos_perm _).map _

lemma map_outPoint_convertMapUtxo_perm (R : Runtime) (t : Table OutPoint Utxo) :
    ((convertMapUtxo R t).map outPoint).Perm t.keys := by
  rw [← map_fst_rows]
  refine ((convertMapUtxo_perm R t).map _).trans ?_
  rw [List.map_map]
  rfl

lemma mem_convertMapUtxo {u : UtxoWithOutPoint} :
    u ∈ convertMapUtxo R t ↔ t.lookup u.outPoint = some u.utxo := by
  rw [(convertMapUtxo_perm R t).mem_iff, List.mem_map, ← mem_rows]
  constructor
  · rintro ⟨e, he, rfl⟩
    exact he
  · intro h
    exact ⟨_, h, rfl⟩

/-- Source: `selectUtxo`, loop -/
def selectUtxoLoop (num : Nat) : List (OutPoint × Utxo) → (Asset → List UtxoWithOutPoint) →
    Option (Asset × List UtxoWithOutPoint)
  | [], _ => none
  | (o, u) :: rest, mAssets =>
    let uos := mAssets u.asset ++ [⟨u, o⟩]
    if num ≤ uos.length then some (u.asset, uos)
    else selectUtxoLoop num rest (Function.update mAssets u.asset uos)

/-- The outputs of the asset that is the first to have `num` of them in the iteration.
Source: `selectUtxo` -/
def selectUtxo (R : Runtime) (mUtxos : Table OutPoint Utxo) (num : Nat) :
    Option (Asset × List UtxoWithOutPoint) :=
  selectUtxoLoop num (R.rangeUtxos (rows mUtxos)) fun _ => []

/-- The outputs of an asset among some entries, in their order. -/
def collect (asset : Asset) (l : List (OutPoint × Utxo)) : List UtxoWithOutPoint :=
  (l.filter fun e => e.2.asset = asset).map fun e => ⟨e.2, e.1⟩

lemma update_collect (pre : List (OutPoint × Utxo)) (o : OutPoint) (u : Utxo) :
    Function.update (fun a => collect a pre) u.asset (collect u.asset pre ++ [⟨u, o⟩]) =
      fun a => collect a (pre ++ [(o, u)]) := by
  funext a
  by_cases ha : a = u.asset
  · subst ha
    simp [collect]
  · simp [collect, Function.update_of_ne ha, Ne.symm ha]

/-- The loop returns the outputs of one asset in the entries it has seen. -/
lemma selectUtxoLoop_eq_some
    (h : selectUtxoLoop num l (fun a => collect a pre) = some (asset, uos)) :
    num ≤ uos.length ∧ ∃ mid, mid <+: l ∧ uos = collect asset (pre ++ mid) := by
  induction l generalizing pre with
  | nil => cases h
  | cons e l ih =>
    obtain ⟨o, u⟩ := e
    simp only [selectUtxoLoop, update_collect] at h
    split at h
    · next hlen =>
        cases h
        exact ⟨hlen, [(o, u)], ⟨l, rfl⟩, by simp [collect]⟩
    · obtain ⟨hlen, mid, hmid, rfl⟩ := ih h
      exact ⟨hlen, (o, u) :: mid, cons_prefix_cons.2 ⟨rfl, hmid⟩, by simp⟩

/-- The loop returns nothing iff no asset has enough outputs. -/
lemma selectUtxoLoop_eq_none (hpre : ∀ a, (collect a pre).length < num) :
    selectUtxoLoop num l (fun a => collect a pre) = none ↔
      ∀ a, (collect a (pre ++ l)).length < num := by
  induction l generalizing pre with
  | nil => simpa [selectUtxoLoop] using hpre
  | cons e l ih =>
    obtain ⟨o, u⟩ := e
    have hseen : collect u.asset pre ++ [⟨u, o⟩] = collect u.asset (pre ++ [(o, u)]) := by
      simp [collect]
    have happend : pre ++ (o, u) :: l = pre ++ [(o, u)] ++ l := by simp
    simp only [selectUtxoLoop, update_collect]
    split
    · next hlen =>
        simp only [reduceCtorEq, false_iff, not_forall, not_lt]
        refine ⟨u.asset, hlen.trans ?_⟩
        simp [collect]
    rename_i hlen
    rw [happend]
    apply ih
    intro a
    by_cases ha : a = u.asset
    · rw [ha, ← hseen]
      exact Nat.lt_of_not_le hlen
    have hskip : collect a (pre ++ [(o, u)]) = collect a pre := by
      simp [collect, Ne.symm ha]
    rw [hskip]
    exact hpre a

lemma selectUtxo_eq_some (h : selectUtxo R t num = some (asset, uos)) :
    num ≤ uos.length ∧ ∃ mid, mid <+: R.rangeUtxos (rows t) ∧ uos = collect asset mid :=
  @selectUtxoLoop_eq_some uos asset _ [] num h

lemma selectUtxo_eq_none (hnum : 0 < num) :
    selectUtxo R t num = none ↔ ∀ a, (collect a (R.rangeUtxos (rows t))).length < num :=
  @selectUtxoLoop_eq_none _ [] num fun _ => hnum

/-! ### Payouts -/

/-- The inputs that spend some outputs. -/
def txIns (selected : List UtxoWithOutPoint) : List Input :=
  selected.map fun s => ⟨[], [], some s.outPoint⟩

/-- Source: `mergeUtxo` -/
def mergeUtxo (R : Runtime) (addr : Address) (utxos : Table OutPoint Utxo) (limitNum : Nat) :
    Option PaymentPayload :=
  (selectUtxo R utxos limitNum).map fun (asset, selected) =>
    { inputs := txIns selected
      outputs := [⟨(selected.map getAmount).sum, generateLockScript addr, asset⟩]
      lockTime := 0 }

/-- Adds a payout to those of its asset: to the entry of the payee, or as a new one.
Source: `tokenPayOutGroupByAsset`, the inner loop -/
def addPayout (payout : TokenPayOut) : List AddrAmount → List AddrAmount
  | [] => [⟨payout.payTo, payout.amount⟩]
  | a :: aa =>
    if a.address = payout.payTo then { a with amount := a.amount + payout.amount } :: aa
    else a :: addPayout payout aa

/-- Source: `tokenPayOutGroupByAsset` -/
def tokenPayOutGroupByAsset (payouts : List TokenPayOut) : Table Asset (List AddrAmount) :=
  payouts.foldl
    (fun result payout =>
      result.insert payout.asset (addPayout payout ((result.lookup payout.asset).getD [])))
    ∅

variable (P : Primitives) (R : Runtime) (dag : IDag)

/-- What the request itself pays to the contract can be spent at once, under the hash that stands
for the transaction.
Source: `resultToContractPayments`, loop over
`paytoContractUtxo` -/
def addPaytoContractUtxo (addr : Address) (asset : Asset)
    (paytoContractUtxo utxos : Table OutPoint Utxo) : Table OutPoint Utxo :=
  (R.rangeUtxos (rows paytoContractUtxo)).foldl
    (fun utxos (out, utxo) =>
      let toAddr := (getAddressFromScript P utxo.pkScript).getD (FixedBytes.zero 21)
      if utxo.asset = asset ∧ toAddr = addr then
        utxos.insert { out with txHash := newSelfHash } utxo
      else utxos)
    utxos

/-- Source: `resultToContractPayments`, body of the loop over
assets -/
def payAsset (addr : Address) (paytoContractUtxo : Table OutPoint Utxo) (asset : Asset)
    (aa : List AddrAmount) : Except Bytes PaymentPayload := do
  let utxos ← dag.getAddr1TokenUtxos addr (some asset)
  let us := convertMapUtxo R (addPaytoContractUtxo P R addr asset paytoContractUtxo utxos)
  let totalPayAmt := (aa.map AddrAmount.amount).sum
  let (selected, change) ← selectUtxoGreedy R us totalPayAmt
  let pays := aa.map fun a => ⟨a.amount, generateLockScript a.address, asset⟩
  let back := if 0 < change then [⟨change, generateLockScript addr, asset⟩] else []
  .ok { inputs := txIns selected, outputs := pays ++ back, lockTime := 0 }

/-- Source: `consensus/jury/config.go`, `MaxNumberMergeUtxos` -/
def maxNumberMergeUtxos : Nat := 500

/-- The outputs that a request transaction creates, as a map.
Source: `resultToContractPayments`, `paytoContractUtxo` -/
def paytoContractUtxos : Option Transaction → Option (Table OutPoint Utxo)
  | none => some ∅
  | some requestTx => (requestTx.getNewUtxos P).map tableOf

/-- Source: `resultToContractPayments` -/
def resultToContractPayments (requestTx : Option Transaction)
    (result : RwSet.ContractInvokeResult) : Option (Except Bytes (List PaymentPayload)) := do
  let addr := newAddress result.contractId .contractHash
  let paytoContractUtxo ← paytoContractUtxos P requestTx
  if result.tokenPayOut.isEmpty then
    match dag.getAddr1TokenUtxos addr none with
    | .error err => some (.error (ascii "mergeUtxo, address:" ++ addr.str P ++
        ascii ", GetAddr1TokenUtxos err:" ++ err))
    | .ok utxos => some (.ok (mergeUtxo R addr utxos maxNumberMergeUtxos).toList)
  else
    let payouts := tokenPayOutGroupByAsset result.tokenPayOut
    some ((R.rangePayouts (rows payouts)).mapM fun (asset, aa) =>
      payAsset P R dag addr paytoContractUtxo asset aa)

/-! ### What a contract can spend -/

/-- The output of the request that an outpoint stands for, if it pays to the contract. -/
def ownOutput (addr : Address) (asset : Asset) (paytoContractUtxo : Table OutPoint Utxo)
    (op : OutPoint) : Option Utxo :=
  ((rows paytoContractUtxo).find? fun e =>
    (e.2.asset = asset ∧ (getAddressFromScript P e.2.pkScript).getD (FixedBytes.zero 21) = addr) ∧
      ({ e.1 with txHash := newSelfHash } : OutPoint) = op).map Prod.snd

/-- What the contract can spend: outputs of the request and those it has. -/
def holding (addr : Address) (asset : Asset) (paytoContractUtxo utxos : Table OutPoint Utxo)
    (op : OutPoint) : Option Utxo :=
  (ownOutput P addr asset paytoContractUtxo op).or (utxos.lookup op)

section

variable {P} {R : Runtime} {addr : Address} {asset : Asset}
  {paytoContractUtxo utxos : Table OutPoint Utxo} {txHash : Hash}

lemma lookup_addPaytoContractUtxo (hown : ∀ e ∈ rows paytoContractUtxo, e.1.txHash = txHash)
    (op : OutPoint) :
    (addPaytoContractUtxo P R addr asset paytoContractUtxo utxos).lookup op =
      holding P addr asset paytoContractUtxo utxos op := by
  have hfold := Lib.Keyed.lookup_foldl_insert
    (fun e : OutPoint × Utxo => e.2.asset = asset ∧
      (getAddressFromScript P e.2.pkScript).getD (FixedBytes.zero 21) = addr)
    (fun e => ({ e.1 with txHash := newSelfHash } : OutPoint)) Prod.snd
    (R.rangeUtxos (rows paytoContractUtxo)) utxos op
  refine Eq.trans hfold ?_
  rw [holding, ownOutput, Lib.Keyed.find?_eq_of_perm ((reverse_perm _).trans (R.rangeUtxos_perm _))]
  rintro ⟨⟨h₁, m₁, o₁⟩, u₁⟩ he₁ ⟨⟨h₂, m₂, o₂⟩, u₂⟩ he₂ hp₁ hp₂
  have hmem : ∀ e, e ∈ (R.rangeUtxos (rows paytoContractUtxo)).reverse →
      e ∈ rows paytoContractUtxo :=
    fun e he => (R.rangeUtxos_perm _).mem_iff.1 (mem_reverse.1 he)
  -- outputs of one transaction with the same place are the same entry
  have hkey : (⟨h₁, m₁, o₁⟩ : OutPoint) = ⟨h₂, m₂, o₂⟩ := by
    have heq := (of_decide_eq_true hp₁).2.trans (of_decide_eq_true hp₂).2.symm
    have hhash : h₁ = h₂ := (hown _ (hmem _ he₁)).trans (hown _ (hmem _ he₂)).symm
    obtain ⟨-, hm, ho⟩ := OutPoint.mk.inj heq
    exact OutPoint.mk.injEq .. ▸ ⟨hhash, hm, ho⟩
  have hu := mem_rows.1 (hmem _ he₁)
  rw [hkey, mem_rows.1 (hmem _ he₂)] at hu
  rw [hkey, some.inj hu]

lemma txHash_of_mem_tableOf (h : ∀ e ∈ l, e.1.txHash = txHash) :
    ∀ e ∈ rows (tableOf l), e.1.txHash = txHash := by
  induction l using List.reverseRecOn with
  | nil => intro e he; cases he
  | append_singleton l a ih =>
    rintro ⟨op, u⟩ he
    rw [mem_rows, tableOf, foldl_append, foldl_cons, foldl_nil] at he
    by_cases hop : op = a.1
    · subst hop
      exact h a (by simp)
    · rw [AList.lookup_insert_ne hop] at he
      exact ih (fun e he => h e (by simp [he])) (op, u) (mem_rows.2 he)

lemma txHash_of_paytoContractUtxos {requestTx : Option Transaction}
    (h : paytoContractUtxos P requestTx = some paytoContractUtxo) :
    ∃ txHash, ∀ e ∈ rows paytoContractUtxo, e.1.txHash = txHash := by
  cases requestTx with
  | none =>
    obtain rfl : ∅ = paytoContractUtxo := some.inj h
    exact ⟨newSelfHash, fun e he => by cases he⟩
  | some tx =>
    simp only [paytoContractUtxos, Transaction.getNewUtxos, map_eq_some_iff,
      bind_eq_bind, bind_eq_some_iff, some.injEq] at h
    obtain ⟨_, ⟨txHash, -, rfl⟩, rfl⟩ := h
    refine ⟨txHash, txHash_of_mem_tableOf fun e he => ?_⟩
    obtain ⟨⟨m, i⟩, -, he⟩ := mem_flatMap.1 he
    cases m with
    | payment p =>
      obtain ⟨x, -, rfl⟩ := List.mem_map.1 he
      rfl
    | _ => cases he

end

/-! ### Minting -/

/-- Source: `dag/modules/token.go`, `FungibleToken`, `VoteToken` -/
structure FungibleToken where
  symbol : Bytes
  decimals : UInt8
  totalSupply : UInt64

/-- Source: `dag/modules/token.go`, `NonFungibleToken` -/
structure NonFungibleToken where
  symbol : Bytes
  type : UInt8
  totalSupply : UInt64
  /-- The fields `UniqueBytes`. -/
  nonFungibleData : List Bytes

/-- `json.Unmarshal` of token definitions. A vote token is read as one without decimals. -/
structure TokenJson where
  fungible : Bytes → Except Bytes FungibleToken
  nonFungible : Bytes → Except Bytes NonFungibleToken
  vote : Bytes → Except Bytes FungibleToken

/-- An asset of a new token; an error of `NewAssetId` is ignored. -/
def newTokenAsset (symbol : Bytes) (assetType : AssetType) (decimals : UInt8) (requestId : Hash)
    (uniqueIdType : UInt8) (uniqueId : UniqueId) : Option Asset := do
  let id ← newAssetId symbol assetType.code decimals requestId.val uniqueIdType
  match id with
  | .error _ => some ⟨FixedBytes.zero 16, uniqueId⟩
  | .ok assetId => some ⟨assetId, uniqueId⟩

/-- One output for all of the supply.
Source: `resultToCoinbase`, token types 0 and 2 -/
def fungibleOutputs (assetType : AssetType) (requestId : Hash) (creator : Address)
    (token : FungibleToken) : Option (List Output) := do
  let asset ← newTokenAsset token.symbol assetType token.decimals requestId
    UniqueIdType.null.code (FixedBytes.zero 16)
  some [⟨token.totalSupply, generateLockScript creator, asset⟩]

/-- One output for each of the next `n` tokens. There may be fewer data than tokens, which is an
index out of range.
Source: `resultToCoinbase`, token type 1, loop -/
def nonFungibleOutputs (token : NonFungibleToken) (requestId : Hash) (creator : Address) :
    Nat → List Bytes → Option (Except Bytes (List Output))
  | 0, _ => some (.ok [])
  | _ + 1, [] => none
  | n + 1, uniqueBytes :: rest =>
    if uniqueBytes.length < 16 then
      some (.error (ascii "UniqueBytes's len must bigger than 16"))
    else do
      let asset ← newTokenAsset token.symbol .nonFungibleToken 0 requestId token.type
        (UniqueId.setBytes uniqueBytes)
      let outs ← nonFungibleOutputs token requestId creator n rest
      some (outs.map (⟨1, generateLockScript creator, asset⟩ :: ·))

/-- The outputs for a new token; another token type has none.
Source: `resultToCoinbase`, `result.TokenDefine` -/
def tokenDefineOutputs (json : TokenJson) (requestId : Hash) (d : TokenDefine) :
    Option (Except Bytes (List Output)) :=
  if d.tokenType = 0 then
    match json.fungible d.tokenDefineJson with
    | .error err => some (.error err)
    | .ok token => (fungibleOutputs .fungibleToken requestId d.creator token).map .ok
  else if d.tokenType = 1 then
    match json.nonFungible d.tokenDefineJson with
    | .error err => some (.error err)
    | .ok token =>
      nonFungibleOutputs token requestId d.creator token.totalSupply.toNat token.nonFungibleData
  else if d.tokenType = 2 then
    match json.vote d.tokenDefineJson with
    | .error err => some (.error err)
    | .ok token =>
      (fungibleOutputs .voteToken requestId d.creator { token with decimals := 0 }).map .ok
  else some (.ok [])

/-- Source: `resultToCoinbase`, `result.TokenSupply` -/
def tokenSupplyOutput (s : TokenSupply) : Output :=
  ⟨s.amount, generateLockScript s.creator,
    ⟨UniqueId.setBytes s.assetId, UniqueId.setBytes s.uniqueId⟩⟩

/-- A payment without inputs. -/
def coinbasePayment (outputs : List Output) : PaymentPayload :=
  ⟨[], outputs, 0⟩

/-- Source: `resultToCoinbase` -/
def resultToCoinbase (json : TokenJson) (result : RwSet.ContractInvokeResult) :
    Option (Except Bytes (List PaymentPayload)) := do
  let defined ← match result.tokenDefine with
    | none => some (.ok [])
    | some d =>
      (tokenDefineOutputs json result.requestId d).map (Except.map ([coinbasePayment ·]))
  let supplied := if result.tokenSupply.isEmpty then []
    else [coinbasePayment (result.tokenSupply.map tokenSupplyOutput)]
  some (defined.map (· ++ supplied))

end ZwsChain.Jury
