import Mathlib
import ZwsChain.TxScript.Script

/-!
# The database of a node

One key-value store holds everything; each kind of entry has a two-letter prefix of its own. The
model has one table for each prefix that a modelled function reads. Within a table keys are flat
byte strings, as in the code: the state of a contract is at its id followed by the field name,
and the jury of a contract at its id, next to the contracts of a juror at the juror's hash
followed by the contract's id.

A contract's record is stored under the contract's own id; this is a field of `Db`.
Sources without a file are in `dag/storage/statedb_contract.go`.
-/

open List Option AList

namespace ZwsChain

/-- The entries of one prefix. -/
abbrev Table (K V : Type) := AList fun _ : K => V

/-- Source: `dag/modules/contract.go`, `Contract` -/
structure Contract where
  contractId : Bytes
  templateId : Bytes
  name : Bytes
  status : UInt8
  creator : Bytes
  creationTime : UInt64
  duringTime : UInt64
  version : Bytes
  deriving DecidableEq

/-- Source: `dag/modules/contract_tpl.go`, `ContractTemplate` -/
structure ContractTemplate where
  tplId : Bytes
  tplName : Bytes
  tplDescription : Bytes
  path : Bytes
  version : Bytes
  abi : Bytes
  language : Bytes
  addrHash : List Hash
  size : UInt16
  creator : Bytes
  deriving DecidableEq

/-- An entry of the prefix `cj`: the jury of a contract, or the contract of a juror. -/
inductive JuryEntry where
  | jury (node : ElectionNode) (version : StateVersion)
  | contract (c : Contract)
  deriving DecidableEq

/-- The database.
Source: `dag/constants/prefix_info.go`; `dag/storage/statedb.go`, `utxodb.go` -/
structure Db where
  /-- Prefix `cs`. -/
  contractState : Table Bytes ContractStateValue
  /-- Prefix `co`. -/
  contracts : Table Bytes Contract
  /-- Prefix `cj`. -/
  juries : Table Bytes JuryEntry
  /-- Prefix `ct`. -/
  templates : Table Bytes ContractTemplate
  /-- Prefix `uo`. -/
  utxos : Table OutPoint Utxo
  /-- Prefix `us`: the transaction that spent an output. -/
  stxos : Table OutPoint Hash
  ownRecords : ∀ id c, contracts.lookup id = some c → c.contractId = id

namespace Db

/-- A database without entries. -/
def empty : Db where
  contractState := ∅
  contracts := ∅
  juries := ∅
  templates := ∅
  utxos := ∅
  stxos := ∅
  ownRecords _ _ h := by simp at h

/-! ### Contract state -/

/-- Source: `getContractStateKey`, behind the prefix -/
def contractStateKey (id field : Bytes) : Bytes :=
  id ++ field

variable (db : Db)

/-- Source: `GetContractState` -/
def getContractState (id field : Bytes) : Option ContractStateValue :=
  db.contractState.lookup (contractStateKey id field)

/-- The fields of a contract whose names start with `field`, by name; an error if there is none.
Source: `GetContractStatesByPrefix` -/
def getContractStatesByPrefix (id field : Bytes) :
    Option (List (Bytes × ContractStateValue)) :=
  let key := contractStateKey id field
  let data := db.contractState.entries.filter fun e => key.isPrefixOf e.1
  if data.isEmpty then none
  else some ((data.map fun e => (e.1.drop id.length, e.2)).filter fun e => e.1 ≠ [])

/-- The fields that a query finds; a field without a name is left out. -/
lemma mem_statesByPrefix (id field : Bytes) (e : Bytes × ContractStateValue) :
    e ∈ (db.getContractStatesByPrefix id field).getD [] ↔
      field <+: e.1 ∧ e.1 ≠ [] ∧ db.getContractState id e.1 = some e.2 := by
  have hrows : (db.getContractStatesByPrefix id field).getD [] =
      ((db.contractState.entries.filter fun x => (contractStateKey id field).isPrefixOf x.1).map
        fun x => (x.1.drop id.length, x.2)).filter fun x => x.1 ≠ [] := by
    simp only [getContractStatesByPrefix]
    split
    · next hnil => simp [List.isEmpty_iff.1 hnil]
    · rfl
  rw [hrows, getContractState, contractStateKey, contractStateKey]
  simp only [mem_filter, List.mem_map, isPrefixOf_iff_prefix, decide_eq_true_eq]
  constructor
  · rintro ⟨⟨x, ⟨hx, rest, hrest⟩, rfl⟩, hne⟩
    have hdrop : x.1.drop id.length = field ++ rest := by
      rw [← hrest, append_assoc, drop_left]
    refine ⟨hdrop ▸ prefix_append _ _, hne, ?_⟩
    rw [hdrop, ← append_assoc, hrest]
    exact mem_lookup_iff.2 hx
  rintro ⟨⟨rest, hrest⟩, hne, hlookup⟩
  refine ⟨⟨⟨id ++ e.1, e.2⟩, ⟨mem_lookup_iff.1 hlookup, rest, ?_⟩, ?_⟩, hne⟩
  · rw [append_assoc, hrest]
  · simp

/-- A query finds a field once. -/
lemma nodup_statesByPrefix (id field : Bytes) :
    (((db.getContractStatesByPrefix id field).getD []).map Prod.fst).Nodup := by
  simp only [getContractStatesByPrefix]
  split
  · exact nodup_nil
  apply List.Nodup.sublist (filter_sublist.map _)
  rw [List.map_map]
  have hnodup : ((db.contractState.entries.filter fun x =>
      (contractStateKey id field).isPrefixOf x.1).map Sigma.fst).Nodup :=
    List.Nodup.sublist (filter_sublist.map _) db.contractState.nodupKeys
  -- put the id back in front of the field names
  apply List.Nodup.of_map (id ++ ·)
  rw [List.map_map]
  convert hnodup using 1
  apply map_congr_left
  intro x hx
  obtain ⟨rest, hrest⟩ := isPrefixOf_iff_prefix.1 (mem_filter.1 hx).2
  rw [contractStateKey, append_assoc] at hrest
  simp only [Function.comp_apply]
  rw [← hrest, drop_left]

variable {addrMap : List (Bytes × ContractStateValue)} {db : Db} {field id : Bytes}

section

variable (hfield : field ≠ []) (h : db.getContractStatesByPrefix id field = some addrMap)
include hfield h

/-- The fields that a query returns. -/
lemma mem_getContractStatesByPrefix (e : Bytes × ContractStateValue) :
    e ∈ addrMap ↔ field <+: e.1 ∧ db.getContractState id e.1 = some e.2 := by
  have hmem := mem_statesByPrefix db id field e
  rw [h, getD_some] at hmem
  rw [hmem]
  constructor
  · rintro ⟨hstart, -, hlookup⟩
    exact ⟨hstart, hlookup⟩
  rintro ⟨hstart, hlookup⟩
  refine ⟨hstart, ?_, hlookup⟩
  rintro hnil
  rw [hnil] at hstart
  exact hfield (prefix_nil.1 hstart)

/-- A query that succeeds finds a field. -/
lemma getContractStatesByPrefix_ne_nil : addrMap ≠ [] := by
  have hmem := mem_getContractStatesByPrefix hfield h
  simp only [getContractStatesByPrefix, List.isEmpty_iff] at h
  split at h
  · cases h
  rename_i hdata
  obtain ⟨e, he⟩ := exists_mem_of_ne_nil _ hdata
  obtain ⟨he, hkey⟩ := mem_filter.1 he
  obtain ⟨rest, hrest⟩ := isPrefixOf_iff_prefix.1 hkey
  refine ne_nil_of_mem ((hmem (field ++ rest, e.2)).2 ⟨prefix_append _ _, ?_⟩)
  rw [getContractState, contractStateKey, ← append_assoc]
  exact mem_lookup_iff.2 (hrest ▸ he)

end

/-- The contract that an entry of the write set of `id` writes to: its own, if it names one.
Source: `SaveContractStates`, the variable `cid` -/
def writeTarget (id : Bytes) (write : ContractWriteSet) : Bytes :=
  if write.contractId.length ≠ 0 then write.contractId else id

/-- One entry of a write set.
Source: `SaveContractStates`, loop body -/
def saveContractState (id : Bytes) (version : StateVersion) (db : Db)
    (write : ContractWriteSet) : Db :=
  let key := contractStateKey (writeTarget id write) write.key
  if write.isDelete then { db with contractState := db.contractState.erase key }
  else { db with contractState := db.contractState.insert key ⟨write.value, version⟩ }

/-- Source: `SaveContractStates` -/
def saveContractStates (id : Bytes) (wset : List ContractWriteSet) (version : StateVersion)
    (db : Db) : Db :=
  wset.foldl (saveContractState id version) db

/-- An entry after a write set is an old one or one of the write set. -/
lemma lookup_saveContractStates {key : Bytes} {wset : List ContractWriteSet}
    {version : StateVersion} {v : ContractStateValue}
    (h : (db.saveContractStates id wset version).contractState.lookup key = some v) :
    db.contractState.lookup key = some v ∨
      ∃ w ∈ wset, key = contractStateKey (writeTarget id w) w.key ∧ v.value = w.value := by
  induction wset generalizing db with
  | nil => exact .inl h
  | cons w wset ih =>
    rcases ih h with hold | ⟨w', hw', hkey, hvalue⟩
    · dsimp only [saveContractState] at hold
      by_cases hkey : key = contractStateKey (writeTarget id w) w.key
      · subst hkey
        split at hold
        · rw [lookup_erase] at hold
          cases hold
        · rw [lookup_insert] at hold
          exact .inr ⟨w, mem_cons_self, rfl, by rw [← some.inj hold]⟩
      split at hold
      · exact .inl (by rwa [lookup_erase_ne hkey] at hold)
      · exact .inl (by rwa [lookup_insert_ne hkey] at hold)
    · exact .inr ⟨w', mem_cons_of_mem _ hw', hkey, hvalue⟩

lemma templates_saveContractStates (id : Bytes) (wset : List ContractWriteSet)
    (version : StateVersion) (db : Db) :
    (db.saveContractStates id wset version).templates = db.templates := by
  induction wset generalizing db with
  | nil => rfl
  | cons w wset ih =>
    rw [saveContractStates, foldl_cons, ← saveContractStates, ih, saveContractState]
    split <;> rfl

/-! ### Contracts and juries -/

/-- Source: `GetContract` -/
def getContract (id : Bytes) : Option Contract :=
  db.contracts.lookup id

/-- Source: `SaveContract` -/
def saveContract (contract : Contract) (db : Db) : Db where
  contractState := db.contractState
  contracts := db.contracts.insert contract.contractId contract
  juries := db.juries
  templates := db.templates
  utxos := db.utxos
  stxos := db.stxos
  ownRecords id c h := by
    by_cases hid : id = contract.contractId
    · rw [hid, lookup_insert] at h
      rw [hid, ← some.inj h]
    · rw [lookup_insert_ne hid] at h
      exact db.ownRecords id c h

/-- An entry that is not a jury cannot be read as one.
Source: `GetContractJury` -/
def getContractJury (contractId : Bytes) : Option ElectionNode :=
  match db.juries.lookup contractId with
  | some (.jury node _) => some node
  | _ => none

/-- Source: `SaveContractJury` -/
def saveContractJury (contractId : Bytes) (jury : ElectionNode) (version : StateVersion)
    (db : Db) : Db :=
  { db with juries := db.juries.insert contractId (.jury jury version) }

/-- Source: `SaveContractWithJuryAddr` -/
def saveContractWithJuryAddr (addr : Hash) (contract : Contract) (db : Db) : Db :=
  { db with juries := db.juries.insert (addr.val ++ contract.contractId) (.contract contract) }

/-! ### Templates and outputs -/

/-- Source: `dag/storage/statedb_tpl.go`, `GetContractTpl` -/
def getContractTpl (tplId : Bytes) : Option ContractTemplate :=
  db.templates.lookup tplId

/-- Source: `dag/storage/statedb_tpl.go`, `SaveContractTpl` -/
def saveContractTpl (tpl : ContractTemplate) (db : Db) : Db :=
  { db with templates := db.templates.insert tpl.tplId tpl }

/-- Source: `dag/storage/utxodb.go`, `GetUtxoEntry` -/
def getUtxoEntry (op : OutPoint) : Option Utxo :=
  db.utxos.lookup op

/-- Source: `dag/storage/utxodb.go`, `SaveUtxoEntity` -/
def saveUtxoEntity (op : OutPoint) (utxo : Utxo) (db : Db) : Db :=
  { db with utxos := db.utxos.insert op utxo }

/-- Moves an output to the spent table.
Source: `dag/storage/utxodb.go`, `DeleteUtxo` -/
def deleteUtxo (op : OutPoint) (spentTxId : Hash) (db : Db) : Db :=
  { db with utxos := db.utxos.erase op, stxos := db.stxos.insert op spentTxId }

end Db

end ZwsChain
