import ZwsChain.Dag.UtxoLifeCycle
import ZwsChain.Lib.Keyed

/-!
# The balance of an address

`UpdateUtxo` keeps the gas-token balance of an address as a running sum: an output adds to it when
it is created and subtracts when it is spent. A call that fails has done both for the same inputs
and outputs, so nothing is lost (`Change.balanced`).

The balance is stored under the 20 bytes of the address, without its type, and is therefore the sum
over all addresses of these bytes (`Numbered.balanced`). `UtxoRepository.balance_iff` says when it
is the sum of the address alone; a payment to the script hash of the same bytes breaks it
(`SharedHash.balance_off`).
-/

open List Option

namespace ZwsChain

open Store
open Lib.Keyed (total weightAt total_insert total_erase)

namespace UtxoRepository

variable {rep : UtxoRepository} {s s' : Store} {pays : Address → Bool}

/-! ### Unspent amounts -/

variable (rep) in
/-- The output is in the gas token and pays one of the addresses. -/
def PaysGas (pays : Address → Bool) (utxo : Utxo) : Bool :=
  utxo.asset.assetId = rep.gasToken && pays (rep.addressOf utxo.pkScript)

variable (rep) in
/-- The exact sum of the unspent outputs in the gas token that pay one of the addresses. -/
def unspentAmount (pays : Address → Bool) (s : Store) : Nat :=
  ((s.getAllUtxos.filter fun x => rep.PaysGas pays x.2).map fun x => x.2.amount.toNat).sum

variable (rep) in
/-- What an entry of the store adds to the sum. -/
def weight (pays : Address → Bool) (e : Σ _ : Bytes, StoredValue) : Nat :=
  match e.2 with
  | .utxo utxo => if rep.PaysGas pays utxo then utxo.amount.toNat else 0
  | _ => 0

/-- The sum over `GetAllUtxos` is a sum over the entries of the store. -/
lemma unspentAmount_eq_total (h : s.WellFormed) :
    rep.unspentAmount pays s = total (rep.weight pays) s := by
  have hentries : ∀ e ∈ s.entries, ∃ k : Key, e.1 = k.bytes ∧ k.Holds e.2 := by
    intro e he
    have hlookup : s.lookup e.1 = some e.2 := AList.mem_lookup_iff.2 he
    obtain ⟨k, hk, -, -, hholds⟩ := h.exists_key nil_prefix hlookup
    exact ⟨k, hk, hholds⟩
  unfold unspentAmount total getAllUtxos getPrefix
  revert hentries
  generalize s.entries = l
  intro hentries
  induction l with
  | nil => rfl
  | cons e l ih =>
    have ih := ih fun e' he' => hentries e' (mem_cons_of_mem e he')
    obtain ⟨k, hk, hholds⟩ := hentries e mem_cons_self
    obtain ⟨key, v⟩ := e
    rw [map_cons, sum_cons, ← ih]
    cases v with
    | utxo utxo =>
      cases k with
      | utxo op =>
        obtain rfl : key = op.toKey := hk
        have hpre : (ascii "uo").isPrefixOf op.toKey = true :=
          isPrefixOf_iff_prefix.2 (prefix_append _ _)
        simp only [filter_cons, hpre, if_true, map_cons, filterMap_cons,
          keyToOutpoint_toKey, map_some, weight]
        split_ifs <;> simp
      | _ => exact absurd hholds id
    | _ =>
      simp only [filter_cons, weight, Nat.zero_add]
      split_ifs <;> simp

/-! ### Totals and writes -/

variable {k : Key} {op : OutPoint} {utxo : Utxo}

/-- An entry that is not an unspent output has no weight. -/
lemma weight_eq_zero (hk : ∀ op, k ≠ .utxo op) {v : StoredValue} (hv : k.Holds v) :
    rep.weight pays ⟨k.bytes, v⟩ = 0 := by
  cases v with
  | utxo utxo =>
    cases k with
    | utxo op => exact absurd rfl (hk op)
    | _ => exact absurd hv id
  | _ => rfl

lemma weightAt_eq_zero (h : s.WellFormed) (hk : ∀ op, k ≠ .utxo op) :
    weightAt (rep.weight pays) s k.bytes = 0 := by
  unfold weightAt
  cases hlookup : s.lookup k.bytes with
  | none => rfl
  | some v => exact weight_eq_zero hk (h.typed k v hlookup)

lemma total_put (h : s.WellFormed) (hk : ∀ op, k ≠ .utxo op) {v : StoredValue} (hv : k.Holds v) :
    total (rep.weight pays) (s.put k v) = total (rep.weight pays) s := by
  have htotal := total_insert (rep.weight pays) s k.bytes v
  rwa [weightAt_eq_zero h hk, weight_eq_zero hk hv, Nat.add_zero, Nat.zero_add] at htotal

lemma total_delete (h : s.WellFormed) (hk : ∀ op, k ≠ .utxo op) :
    total (rep.weight pays) (s.delete k) = total (rep.weight pays) s := by
  have htotal := total_erase (rep.weight pays) s k.bytes
  rwa [weightAt_eq_zero h hk, Nat.add_zero] at htotal

/-- The update of a balance changes no total. -/
lemma total_gas (h : s.WellFormed) (utxo : Utxo) (addr : Address) (addAmount : UInt64) :
    total (rep.weight pays) (if utxo.asset.assetId = rep.gasToken then
        s.updateAccountBalance addr addAmount else s) = total (rep.weight pays) s := by
  split_ifs
  · exact total_put h (by simp) trivial
  · rfl

variable (rep) in
/-- What an output adds to the sum. -/
def amountOf (pays : Address → Bool) (utxo : Utxo) : Nat :=
  if rep.PaysGas pays utxo then utxo.amount.toNat else 0

/-- The entry of an unspent output weighs what the output adds. -/
lemma weightAt_utxo (h : s.WellFormed) (op : OutPoint) :
    weightAt (rep.weight pays) s (Key.utxo op).bytes =
      ((s.getUtxoEntry op).map (rep.amountOf pays)).getD 0 := by
  show ((s.read (.utxo op)).map _).getD 0 = _
  unfold getUtxoEntry
  cases hread : s.read (.utxo op) with
  | none => rfl
  | some v =>
    have hholds := h.typed _ v hread
    cases v with
    | utxo utxo => rfl
    | _ => exact absurd hholds id

variable (rep pays) in
lemma total_saveUtxoEntity (h : s.WellFormed) (hnew : s.getUtxoEntry op = none) (utxo : Utxo) :
    total (rep.weight pays) (rep.saveUtxoEntity op utxo s) =
      rep.amountOf pays utxo + total (rep.weight pays) s := by
  have hput : (s.put (.utxo op) (.utxo utxo)).WellFormed := h.put trivial
  have haddr : ((s.put (.utxo op) (.utxo utxo)).put (.outpointAddr op)
      (.address ((rep.addressOf utxo.pkScript).str rep.P))).WellFormed := hput.put trivial
  have htotal := total_insert (rep.weight pays) s (Key.utxo op).bytes (.utxo utxo)
  rw [weightAt_utxo h, hnew] at htotal
  refine (total_put haddr (by simp) ?_).trans ((total_put hput (by simp) ?_).trans htotal)
  · rfl
  · trivial

variable (rep pays) in
lemma total_deleteUtxo (h : s.WellFormed) (hutxo : s.getUtxoEntry op = some utxo) (txid : Hash)
    (unitTime : UInt64) :
    total (rep.weight pays) (rep.deleteUtxo op utxo txid unitTime s) + rep.amountOf pays utxo =
      total (rep.weight pays) s := by
  have hdelete : (s.delete (.utxo op)).WellFormed := h.delete
  have hstxo : ((s.delete (.utxo op)).put (.stxo op)
      (.stxo ⟨utxo, txid, unitTime⟩)).WellFormed := hdelete.put trivial
  have htotal := total_erase (rep.weight pays) s (Key.utxo op).bytes
  rw [weightAt_utxo h, hutxo] at htotal
  rw [deleteUtxo, total_delete hstxo (by simp), total_put hdelete (by simp) (by trivial)]
  exact htotal

/-! ### Balances -/

lemma getAccountBalance_congr {addr : Address}
    (h : s.read (.balance addr.hash160) = s'.read (.balance addr.hash160)) :
    s.getAccountBalance addr = s'.getAccountBalance addr := by
  unfold getAccountBalance
  rw [h]

variable (rep) in
/-- The output is in the gas token and pays an address with the bytes of `addr`. -/
def Shares (addr : Address) (utxo : Utxo) : Bool :=
  rep.PaysGas (fun a => a.hash160 = addr.hash160) utxo

/-- The update of a balance that an output of the gas token makes. -/
lemma getAccountBalance_gas (utxo : Utxo) (addAmount : UInt64) (addr : Address) :
    (if utxo.asset.assetId = rep.gasToken then
        s.updateAccountBalance (rep.addressOf utxo.pkScript) addAmount else s).getAccountBalance
      addr = s.getAccountBalance addr + if rep.Shares addr utxo then addAmount else 0 := by
  unfold Shares PaysGas
  by_cases hgas : utxo.asset.assetId = rep.gasToken
  · rw [if_pos hgas, getAccountBalance, updateAccountBalance, read_put]
    by_cases haddr : addr.hash160 = (rep.addressOf utxo.pkScript).hash160
    · simp [hgas, haddr, getAccountBalance]
    · simp [haddr, Ne.symm haddr, getAccountBalance]
  · simp [hgas]

variable (rep) in
/-- Every balance is, up to wrapping, the sum over the addresses of its 20 bytes. -/
def Balanced (s : Store) : Prop :=
  ∀ addr : Address, (s.getAccountBalance addr).toNat =
    total (rep.weight fun a => a.hash160 = addr.hash160) s % 2 ^ 64

/-- A change keeps the balances. -/
lemma Change.balanced {txHash : Hash} (h : rep.Change txHash s s') (hwf : s.WellFormed)
    (hs : rep.Balanced s) : rep.Balanced s' := by
  intro addr
  have hbalance := hs addr
  cases h with
  | spend op utxo unitTime hutxo =>
    have hsame : (rep.deleteUtxo op utxo txHash unitTime s).getAccountBalance addr =
        s.getAccountBalance addr := by
      apply getAccountBalance_congr
      simp [deleteUtxo, read_put, read_delete]
    have htotal :=
      total_deleteUtxo rep (fun a => a.hash160 = addr.hash160) hwf hutxo txHash unitTime
    rw [UtxoRepository.spend, getAccountBalance_gas, hsame,
      total_gas (Coherent.wellFormed_deleteUtxo rep hwf op utxo txHash unitTime)]
    unfold amountOf at htotal
    unfold Shares
    have hamount := utxo.amount.toNat_lt
    split_ifs at htotal ⊢ with hpays
    · rw [UInt64.toNat_add, UInt64.toNat_neg, UInt64.size]
      omega
    · rw [UInt64.add_zero]
      omega
  | create op utxo hnew hop haddr =>
    have hnone : s.getUtxoEntry op = none := by
      simpa using fun hsome => hnew (.inl hsome)
    have hsame : (rep.saveUtxoEntity op utxo s).getAccountBalance addr =
        s.getAccountBalance addr := by
      apply getAccountBalance_congr
      simp [saveUtxoEntity, read_put]
    have htotal := total_saveUtxoEntity rep (fun a => a.hash160 = addr.hash160) hwf hnone utxo
    rw [UtxoRepository.create, getAccountBalance_gas, hsame,
      total_gas (Coherent.wellFormed_saveUtxoEntity rep hwf op utxo)]
    unfold amountOf at htotal
    unfold Shares
    split_ifs at htotal ⊢ with hpays
    · rw [UInt64.toNat_add]
      omega
    · rw [UInt64.add_zero]
      omega

/-- After every run a balance is the sum over all addresses of its 20 bytes. -/
lemma Numbered.balanced {calls : List Call} (h : Numbered calls) :
    rep.Balanced (rep.run calls) := by
  have hboth : rep.Coherent (rep.run calls) ∧ rep.Balanced (rep.run calls) := by
    refine h.invariant (I := fun s => rep.Coherent s ∧ rep.Balanced s) nil_prefix
      ⟨.empty, fun addr => ?_⟩ ?_
    · rfl
    · intro txHash s s' hchange hs
      exact ⟨hchange.coherent hs.1, hchange.balanced hs.1.wellFormed hs.2⟩
  exact hboth.2

/-- The sum over the addresses of 20 bytes is that of one address and that of the others. -/
lemma total_split (addr : Address) (s : Store) :
    total (rep.weight fun a => a.hash160 = addr.hash160) s =
      total (rep.weight fun a => a = addr) s +
        total (rep.weight fun a => a ≠ addr ∧ a.hash160 = addr.hash160) s := by
  unfold total
  rw [← sum_map_add]
  congr 1
  refine map_congr_left fun e _ => ?_
  unfold weight
  cases e.2 with
  | utxo utxo =>
    by_cases haddr : rep.addressOf utxo.pkScript = addr
    · simp [PaysGas, haddr]
    · simp [PaysGas, haddr]
  | _ => rfl

variable (rep) in
/-- Over every run of calls for different transactions of at most 2³² outputs, failing ones
included, the balance of an address is the sum of the unspent outputs that pay it, modulo 2⁶⁴,
exactly if those that pay other addresses of the same 20 bytes sum to a multiple of 2⁶⁴. -/
theorem balance_iff (calls : List Call) (h : Numbered calls) (addr : Address) :
    ((rep.run calls).getAccountBalance addr).toNat =
        rep.unspentAmount (· = addr) (rep.run calls) % 2 ^ 64 ↔
      rep.unspentAmount (fun a => a ≠ addr ∧ a.hash160 = addr.hash160) (rep.run calls) %
        2 ^ 64 = 0 := by
  have hwf := (h.coherent rep).wellFormed
  rw [h.balanced addr, total_split, unspentAmount_eq_total hwf, unspentAmount_eq_total hwf]
  omega

end UtxoRepository

namespace SharedHash

open SmallNode SmallUtxos UtxoRepository

/-- The script hash of the same 20 bytes as the first address. -/
def script : Address := newAddress (List.replicate 20 3) .scriptHash

/-- A payment of 10 to the address and one of 5 to the script hash. -/
def calls : List Call :=
  [⟨0, (outPoint 1).txHash, ⟨[], [pay 10 alice], 0⟩, 0⟩,
    ⟨1, (outPoint 2).txHash, ⟨[], [pay 5 script], 0⟩, 0⟩]

end SharedHash

open SharedHash SmallNode SmallUtxos in
/-- The balance of the address is 15, and it owns 10. -/
theorem SharedHash.balance_off :
    (calls.map UtxoRepository.Call.txHash).Nodup ∧
      (rep.run calls).getAccountBalance alice = 15 ∧
      rep.unspentAmount (· = alice) (rep.run calls) = 10 := by
  decide +kernel

open SmallUtxos in
/-- In the run with the spent coinbase the addresses do not share their bytes. -/
theorem SmallUtxos.balance_alice :
    rep.unspentAmount (fun a => a ≠ alice ∧ a.hash160 = alice.hash160) (rep.run calls) % 2 ^ 64 =
        0 ∧
      ((rep.run calls).getAccountBalance alice).toNat =
        rep.unspentAmount (· = alice) (rep.run calls) % 2 ^ 64 := by
  have hshared : rep.unspentAmount (fun a => a ≠ alice ∧ a.hash160 = alice.hash160)
      (rep.run calls) % 2 ^ 64 = 0 := by decide +kernel
  exact ⟨hshared, (UtxoRepository.balance_iff rep calls numbered alice).2 hshared⟩

end ZwsChain
