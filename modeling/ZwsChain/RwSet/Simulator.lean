import Mathlib
import ZwsChain.Dag.StateDb

/-!
# The simulator of contract execution

`dag/rwset`: while a contract runs, its calls go to an `RwSetTxSimulator`. Writes are kept in a
cache in front of the database, and everything is recorded by namespace, the name of the running
contract, for the result of the execution: what was read with its version, what was written, and
the tokens paid out, defined and supplied.

Values and deletions are told apart as in Go: `none` is `nil`. Go iterates maps in an order of its
own; a `MapOrder` is what the runtime does in one call. The simulator here is in use: what the
methods of a simulator do after `Done` is not modelled.
Sources without a file are in `dag/rwset/rwsetbuilder.go`.
-/

open List Option

namespace ZwsChain.RwSet

/-! ### Records -/

/-- Source: `dag/rwset/kvrwset.go`, `KVRead` -/
structure KVRead where
  contractId : Bytes
  key : Bytes
  version : Option StateVersion
  deriving DecidableEq

/-- Source: `dag/rwset/kvrwset.go`, `KVWrite` -/
structure KVWrite where
  contractId : Bytes
  key : Bytes
  isDelete : Bool
  value : Option Bytes
  deriving DecidableEq

/-- Source: `dag/rwset/kvrwset.go`, `newKVWrite` -/
def newKVWrite (contractId key : Bytes) (value : Option Bytes) : KVWrite :=
  ⟨contractId, key, value.isNone, value⟩

/-- Source: `dag/modules/message.go`, `TokenPayOut` -/
structure TokenPayOut where
  asset : Asset
  amount : UInt64
  payTo : Address
  lockTime : UInt32
  deriving DecidableEq

/-- Source: `dag/modules/token.go`, `TokenSupply` -/
structure TokenSupply where
  assetId : Bytes
  uniqueId : Bytes
  amount : UInt64
  creator : Address
  deriving DecidableEq

/-- Source: `dag/modules/token.go`, `TokenDefine` -/
structure TokenDefine where
  tokenType : Int
  tokenDefineJson : Bytes
  creator : Address
  deriving DecidableEq

/-- What is recorded in one namespace.
Source: `nsPubRwBuilder` -/
structure NsPubRwBuilder where
  readMap : Table Bytes KVRead
  writeMap : Table Bytes KVWrite
  tokenPayOut : List TokenPayOut
  tokenSupply : List TokenSupply
  tokenDefine : Option TokenDefine

/-- Source: `newNsPubRwBuilder` -/
def newNsPubRwBuilder : NsPubRwBuilder :=
  ⟨∅, ∅, [], [], none⟩

/-- The order in which the runtime iterates the maps of one call. -/
structure MapOrder where
  reads : List KVRead → List KVRead
  rows : List (Bytes × ContractStateValue) → List (Bytes × ContractStateValue)
  reads_perm : ∀ l, (reads l).Perm l
  rows_perm : ∀ l, (rows l).Perm l

/-- Maps in the order of their entries. -/
def MapOrder.plain : MapOrder :=
  ⟨id, id, fun _ => .rfl, fun _ => .rfl⟩

/-- Maps in the opposite order. -/
def MapOrder.reversed : MapOrder :=
  ⟨List.reverse, List.reverse, reverse_perm, reverse_perm⟩

namespace NsPubRwBuilder

/-- The version a read is recorded with. One without a version takes that recorded for the key, or
that of the record the iteration comes to first.
Source: `AddToReadSet`, the variable `version` -/
def readVersion (o : MapOrder) (key : Bytes) (b : NsPubRwBuilder) :
    Option StateVersion → Option StateVersion
  | some v => some v
  | none => match b.readMap.lookup key with
    | some kvread => kvread.version
    | none => (o.reads (b.readMap.entries.map Sigma.snd)).head?.bind KVRead.version

/-- Source: `AddToReadSet` -/
def addToReadSet (o : MapOrder) (contractId key : Bytes) (version : Option StateVersion)
    (b : NsPubRwBuilder) : NsPubRwBuilder :=
  { b with readMap := b.readMap.insert key ⟨contractId, key, b.readVersion o key version⟩ }

/-- Source: `AddToWriteSet` -/
def addToWriteSet (contractId key : Bytes) (value : Option Bytes) (b : NsPubRwBuilder) :
    NsPubRwBuilder :=
  { b with writeMap := b.writeMap.insert key (newKVWrite contractId key value) }

/-- Source: `AddTokenPayOut` -/
def addTokenPayOut (pay : TokenPayOut) (b : NsPubRwBuilder) : NsPubRwBuilder :=
  { b with tokenPayOut := b.tokenPayOut ++ [pay] }

/-- Source: `DefineToken` -/
def defineToken (define : TokenDefine) (b : NsPubRwBuilder) : NsPubRwBuilder :=
  { b with tokenDefine := some define }

/-- Source: `AddSupplyToken` -/
def addSupplyToken (supply : TokenSupply) (b : NsPubRwBuilder) : NsPubRwBuilder :=
  { b with tokenSupply := b.tokenSupply ++ [supply] }

end NsPubRwBuilder

/-! ### The simulator -/

/-- A namespace that has not been used has the builder that would be created for it.
Source: `dag/rwset/rwsetTxSimulator.go`, `RwSetTxSimulator` -/
structure RwSetTxSimulator where
  txid : Hash
  pubRwBuilderMap : Bytes → NsPubRwBuilder
  /-- Written values by key, `some none` for a deletion. -/
  writeCache : Bytes → Option (Option Bytes)
  dag : Db

/-- The calls of a contract.
Source: `dag/rwset/rwset_interface.go`, `TxSimulator` -/
inductive Call where
  | getState (contractId ns key : Bytes)
  | getStatesByPrefix (contractId ns start : Bytes)
  | setState (contractId ns key : Bytes) (value : Option Bytes)
  | deleteState (contractId ns key : Bytes)
  | payOutToken (ns address : Bytes) (token : Asset) (amount : UInt64) (lockTime : UInt32)
  | defineToken (ns : Bytes) (tokenType : Int) (define creator : Bytes)
  | supplyToken (ns assetId uniqueId : Bytes) (amt : UInt64) (creator : Bytes)
  deriving DecidableEq

/-- The namespace of a call, which is the name of the contract that makes it. -/
def Call.ns : Call → Bytes
  | .getState _ ns _ => ns
  | .getStatesByPrefix _ ns _ => ns
  | .setState _ ns _ _ => ns
  | .deleteState _ ns _ => ns
  | .payOutToken ns _ _ _ _ => ns
  | .defineToken ns _ _ _ => ns
  | .supplyToken ns _ _ _ _ => ns

/-- What a call returns. -/
inductive Reply where
  | value (v : Option Bytes)
  | rows (l : List (Bytes × Bytes))
  | ok
  deriving DecidableEq

namespace RwSetTxSimulator

/-- Source: `dag/rwset/rwsetTxSimulator.go`, `NewBasedTxSimulator` -/
def newBasedTxSimulator (dag : Db) (hash : Hash) : RwSetTxSimulator :=
  ⟨hash, fun _ => newNsPubRwBuilder, fun _ => none, dag⟩

/-- A change of what is recorded in a namespace. -/
def record (ns : Bytes) (f : NsPubRwBuilder → NsPubRwBuilder) (s : RwSetTxSimulator) :
    RwSetTxSimulator :=
  { s with pubRwBuilderMap := Function.update s.pubRwBuilderMap ns (f (s.pubRwBuilderMap ns)) }

/-- A key the database has not is not recorded.
Source: `dag/rwset/rwsetTxSimulator.go`, `GetState` -/
def getState (o : MapOrder) (contractId ns key : Bytes) (s : RwSetTxSimulator) :
    Reply × RwSetTxSimulator :=
  match s.writeCache key with
  | some value => (.value value, s.record ns (.addToReadSet o contractId key none))
  | none =>
    match s.dag.getContractState contractId key with
    | none => (.value none, s)
    | some row =>
      (.value (some row.value), s.record ns (.addToReadSet o contractId key (some row.version)))

/-- Source: `dag/rwset/rwsetTxSimulator.go`, `GetStatesByPrefix` -/
def getStatesByPrefix (o : MapOrder) (contractId ns start : Bytes) (s : RwSetTxSimulator) :
    Reply × RwSetTxSimulator :=
  match s.dag.getContractStatesByPrefix contractId start with
  | none => (.rows [], s)
  | some data =>
    let data := o.rows data
    (.rows (data.map fun row => (row.1, row.2.value)),
      s.record ns fun b => data.foldl
        (fun b row => b.addToReadSet o contractId row.1 (some row.2.version)) b)

/-- Source: `dag/rwset/rwsetTxSimulator.go`, `SetState` -/
def setState (contractId ns key : Bytes) (value : Option Bytes) (s : RwSetTxSimulator) :
    RwSetTxSimulator :=
  { s.record ns (.addToWriteSet contractId key value) with
    writeCache := Function.update s.writeCache key (some value) }

/-- Source: `dag/rwset/rwsetTxSimulator.go`, `DeleteState` -/
def deleteState (contractId ns key : Bytes) (s : RwSetTxSimulator) : RwSetTxSimulator :=
  s.setState contractId ns key none

variable (P : Primitives)

/-- An address that does not parse is the zero address. -/
def addressOf (text : Bytes) : Address :=
  (stringToAddress P text).getD (FixedBytes.zero 21)

/-- One call. The last three are `PayOutToken`, `DefineToken` and `SupplyToken`.
Source: `dag/rwset/rwsetTxSimulator.go` -/
def step (o : MapOrder) (s : RwSetTxSimulator) : Call → Reply × RwSetTxSimulator
  | .getState contractId ns key => s.getState o contractId ns key
  | .getStatesByPrefix contractId ns start => s.getStatesByPrefix o contractId ns start
  | .setState contractId ns key value => (.ok, s.setState contractId ns key value)
  | .deleteState contractId ns key => (.ok, s.deleteState contractId ns key)
  | .payOutToken ns address token amount lockTime =>
    (.ok, s.record ns (.addTokenPayOut ⟨token, amount, addressOf P address, lockTime⟩))
  | .defineToken ns tokenType define creator =>
    (.ok, s.record ns (.defineToken ⟨tokenType, define, addressOf P creator⟩))
  | .supplyToken ns assetId uniqueId amt creator =>
    (.ok, s.record ns (.addSupplyToken ⟨assetId, uniqueId, amt, addressOf P creator⟩))

/-- The simulator after a sequence of calls; `orders i` is what the runtime does in call `i`. -/
def run (orders : Nat → MapOrder) (calls : List Call) (s : RwSetTxSimulator) : RwSetTxSimulator :=
  calls.zipIdx.foldl (fun s (c, i) => (s.step P (orders i) c).2) s

/-- The values of a map in the order of their keys.
Source: `dag/rwset/rwsetTxSimulator.go`, `convertReadMap2Slice` and `convertWriteMap2Slice` -/
def convertMap2Slice {α : Type} (m : Table Bytes α) : List α :=
  (m.keys.insertionSort (· ≤ ·)).filterMap m.lookup

/-- Source: `dag/rwset/rwsetTxSimulator.go`, `GetRwData` -/
def getRwData (ns : Bytes) (s : RwSetTxSimulator) : List KVRead × List KVWrite :=
  let b := s.pubRwBuilderMap ns
  (convertMap2Slice b.readMap, convertMap2Slice b.writeMap)

/-! ### Runs and slices -/

lemma run_concat (orders : Nat → MapOrder) (calls : List Call) (c : Call) (s : RwSetTxSimulator) :
    s.run P orders (calls ++ [c]) = ((s.run P orders calls).step P (orders calls.length) c).2 := by
  simp [run, zipIdx_append]

variable {α : Type}

lemma mem_convertMap2Slice {m : Table Bytes α} {r : α} :
    r ∈ convertMap2Slice m ↔ ∃ k, m.lookup k = some r := by
  simp only [convertMap2Slice, mem_filterMap, mem_insertionSort]
  constructor
  · rintro ⟨k, -, hk⟩
    exact ⟨k, hk⟩
  rintro ⟨k, hk⟩
  refine ⟨k, ?_, hk⟩
  exact AList.mem_keys.1 (AList.lookup_isSome.1 (isSome_of_eq_some hk))

/-- A slice has one value for each key, if the values stand under their own keys. -/
lemma nodup_convertMap2Slice {m : Table Bytes α} {key : α → Bytes}
    (h : ∀ k r, m.lookup k = some r → key r = k) : ((convertMap2Slice m).map key).Nodup := by
  rw [convertMap2Slice, map_filterMap]
  apply List.Nodup.filterMap
  · intro k k' x hx hx'
    obtain ⟨r, hr, rfl⟩ := map_eq_some_iff.1 hx
    obtain ⟨r', hr', heq⟩ := map_eq_some_iff.1 hx'
    rw [← h k r hr, ← h k' r' hr', heq]
  · exact (perm_insertionSort _ _).nodup_iff.2 m.keys_nodup

/-- The slice of a map depends on its entries only. -/
lemma convertMap2Slice_congr {m m' : Table Bytes α}
    (h : ∀ k, m.lookup k = m'.lookup k) : convertMap2Slice m = convertMap2Slice m' := by
  have hmem : ∀ k, k ∈ m.keys ↔ k ∈ m'.keys := by
    intro k
    rw [← AList.mem_keys, ← AList.mem_keys, ← AList.lookup_isSome, ← AList.lookup_isSome, h k]
  have hkeys : m.keys.insertionSort (· ≤ ·) = m'.keys.insertionSort (· ≤ ·) := by
    apply @List.Perm.eq_of_pairwise _ (· ≤ ·)
    · intro a b _ _ hab hba
      exact Std.Antisymm.antisymm a b hab hba
    · exact pairwise_insertionSort (· ≤ ·) _
    · exact pairwise_insertionSort (· ≤ ·) _
    · refine (perm_insertionSort _ _).trans (.trans ?_ (perm_insertionSort _ _).symm)
      exact (perm_ext_iff_of_nodup m.keys_nodup m'.keys_nodup).2 hmem
  rw [convertMap2Slice, convertMap2Slice, hkeys]
  exact filterMap_congr fun k _ => h k

end RwSetTxSimulator

end ZwsChain.RwSet
