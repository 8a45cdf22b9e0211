import ZwsChain.Dag.Coinbase
import ZwsChain.Lib.Overlay
import ZwsChain.Lib.Runs
import ZwsChain.Modules.Unit
import ZwsChain.Validator.Validate

/-!
# Building a unit

`CreateUnit` of `dag/common/unit_repository.go` puts a coinbase and the transactions of the pool
into a unit, and marks the results of user contracts illegal whose read set does not have the
versions of the state (`markTxIllegal`).

Every transaction is checked against the state before the unit; the writes of the transactions in
front of it are not looked at. A transaction can therefore stay legal although a legal transaction
before it in the unit overwrites what it read (`StaleRead.both_legal`).
And it looks at the reads of the last result only, all of them as reads of the contract of that
result, although a read can name another contract. `UnitCreator.serializable_iff` says when the unit
is serializable: what a legal transaction reads is not written before it in the unit, or the last
write leaves the version that was read; and the reads that are not looked at have the versions of
the state.
Sources without a file are in `dag/common/unit_repository.go`.
-/

open List Option

namespace ZwsChain

open Transaction Message Lib.Rlp Db
open Lib (applyWrites)

/-! ### Read sets -/

/-- Versions are compared by their encodings.
Source: `dag/modules/message.go`, `StateVersion.Equal` -/
def StateVersion.equal (version : StateVersion) (other : Option StateVersion) : Bool :=
  encode (versionItem (some version)) == encode (versionItem other)

/-- Source: `checkReadSetIsValid` -/
def checkReadSetIsValid (db : Db) (contractId : Bytes) (readSet : List ContractReadSet) : Bool :=
  readSet.all fun rd =>
    match db.getContractState contractId rd.key with
    | none => false
    | some v => v.version.equal rd.version

/-- The contract and the read set of the last result of a contract.
Source: `markTxIllegal`, loop over messages -/
def Transaction.lastReadSet (tx : Transaction) : Bytes × List ContractReadSet :=
  tx.messages.foldl (fun acc msg =>
    match msg with
    | .contractDeploy p => (p.contractId, p.readSet)
    | .contractInvoke p => (p.contractId, p.readSet)
    | .contractStop p => (p.contractId, p.readSet)
    | _ => acc) ([], [])

/-- A transaction of a user contract.
Source: `markTxIllegal`, first tests -/
def Transaction.isUserContract (tx : Transaction) : Bool :=
  tx.isContractTx && !tx.isSystemContract

/-- Setting the mark computes the hash again, which can panic.
Source: `markTxIllegal`; `dag/modules/transaction.go`,
`SetIllegal` -/
def markTxIllegal (P : Primitives) (db : Db) (tx : Transaction) : Option Transaction :=
  if !tx.isContractTx then some tx
  else if tx.isSystemContract then some tx
  else
    let (contractId, readSet) := tx.lastReadSet
    let valid := checkReadSetIsValid db contractId readSet
    (tx.hash P).map fun _ => { tx with illegal := !valid }

/-! ### The unit -/

/-- What a producer reads besides the database and the pool. The fees are merged into a Go map;
`arrange` is its order.
Source: `CreateUnit` -/
structure UnitCreator extends Producer where
  fl : Float64
  juryPercent : fl.F
  getSigner : Transaction → Nat → Nat → Option (List Address)
  getJurorReward : Address → Address
  gasToken : AssetId
  generateUnitReward : UInt64
  arrange : List Addition → List Addition
  deriveSha : List Transaction → Hash
  /-- `GetNewestUnit`; `none` is an error. -/
  newest : Option (Hash × ChainIndex)

/-- The error returns of `CreateUnit`. -/
inductive CreateError where
  | fees (e : Transaction.FeeError)
  | coinbase (e : CoinbaseError)

namespace UnitCreator

variable (R : UnitCreator)

/-- The parent and the number of the unit. -/
def chainIndex : Hash × ChainIndex :=
  match R.newest with
  | none => (FixedBytes.zero 32, ⟨R.gasToken, 2⟩)
  | some (phash, i) => (phash, { i with index := i.index + 1 })

/-- One transaction of the pool.
Source: `CreateUnit`, loop over `poolTxs` -/
def markPoolTx (db : Db) (tx : Transaction) : Option Transaction := do
  let _ ← tx.requestHash R.P
  let t ← markTxIllegal R.P db tx
  if t.illegal then (t.hash R.P).map fun _ => t else some t

/-- The coinbase, if there is something to reward.
Source: `CreateUnit`, steps 5 and 6 -/
def coinbaseOf (db : Db) (mediatorReward : Address) (poolTxs : List Transaction) :
    Option (Except CreateError (List Transaction)) := do
  let fees ← computeTxFeesAllocate R.P db.getUtxoEntry R.fl R.juryPercent R.getSigner
    mediatorReward R.getJurorReward poolTxs []
  match fees with
  | .error e => some (.error (.fees e))
  | .ok ads => do
      let outAds := R.arrange (producerAdditions mediatorReward R.generateUnitReward R.gasToken ads)
      match ← R.createCoinbase db outAds R.chainIndex.2.index with
      | .error e => some (.error (.coinbase e))
      | .ok (coinbase, _) =>
        if outAds.length > 0 then (coinbase.hash R.P).map fun _ => .ok [coinbase]
        else some (.ok [])

/-- Builds a unit from the sorted transactions of the pool.
Source: `CreateUnit` -/
def createUnit (db : Db) (mediatorReward : Address) (poolTxs : List Transaction) (when : Int) :
    Option (Except CreateError ChainUnit) := do
  match ← R.coinbaseOf db mediatorReward poolTxs with
  | .error e => some (.error e)
  | .ok coinbase => do
      let marked ← poolTxs.mapM (R.markPoolTx db)
      let txs := coinbase ++ marked
      let illegalTxs := (marked.zipIdx.filter fun x => x.1.illegal).map fun x => UInt16.ofNat x.2
      let header : Header :=
        { parentsHash := [R.chainIndex.1], authors := ⟨[], []⟩, txRoot := R.deriveSha txs,
          txsIllegal := illegalTxs, number := some R.chainIndex.2, extra := [], time := when,
          cryptoLib := [], groupSign := [], groupPubKey := [] }
      some (.ok ⟨header, txs⟩)

end UnitCreator

/-! ### Write sets in unit order -/

/-- The read set of a result, with its contract. -/
def Message.readSet? : Message → Option (Bytes × List ContractReadSet)
  | .contractDeploy p => some (p.contractId, p.readSet)
  | .contractInvoke p => some (p.contractId, p.readSet)
  | .contractStop p => some (p.contractId, p.readSet)
  | _ => none

/-- The write set of a result, with its contract. -/
def Message.writeSet? : Message → Option (Bytes × List ContractWriteSet)
  | .contractDeploy p => some (p.contractId, p.writeSet)
  | .contractInvoke p => some (p.contractId, p.writeSet)
  | .contractStop p => some (p.contractId, p.writeSet)
  | _ => none

variable (number : ChainIndex)

/-- The database after the write sets of a transaction at a place of the unit. -/
def applyWriteSets (db : Db) (tx : Transaction × Nat) : Db :=
  (tx.1.messages.filterMap writeSet?).foldl
    (fun db w => db.saveContractStates w.1 w.2 ⟨some number, UInt32.ofNat tx.2⟩) db

namespace ChainUnit

/-- The legal transactions in front of a place of the unit. -/
def legalBefore (u : ChainUnit) (i : Nat) : List (Transaction × Nat) :=
  (u.txs.zipIdx.take i).filter fun x => !x.1.illegal

/-- The database after the write sets of the legal transactions in front of a place. -/
def stateBefore (u : ChainUnit) (number : ChainIndex) (db : Db) (i : Nat) : Db :=
  (u.legalBefore i).foldl (applyWriteSets number) db

end ChainUnit

open ChainUnit

/-- The version of an entry of the contract state. -/
def Db.versionAt (db : Db) (key : Bytes) : Option StateVersion :=
  (db.contractState.lookup key).map ContractStateValue.version

/-- The contract that an entry of the read set of `id` was read from: its own, if it names one. -/
def readTarget (id : Bytes) (read : ContractReadSet) : Bytes :=
  if read.contractId.length ≠ 0 then read.contractId else id

/-- What the results of a transaction have read: the entries of the state, with their versions. -/
def Transaction.reads (tx : Transaction) : List (Bytes × Option StateVersion) :=
  (tx.messages.filterMap readSet?).flatMap fun rs => rs.2.map fun rd =>
    (contractStateKey (readTarget rs.1 rd) rd.key, rd.version)

/-- What is compared with the state for the mark: the reads of the last result, as reads of its own
contract. -/
def Transaction.checkedReads (tx : Transaction) : List (Bytes × Option StateVersion) :=
  tx.lastReadSet.2.map fun rd => (contractStateKey tx.lastReadSet.1 rd.key, rd.version)

/-- A read has the version that is there. -/
def ReadMatches (versions : Bytes → Option StateVersion) (read : Bytes × Option StateVersion) :
    Prop :=
  ∃ v, versions read.1 = some v ∧ read.2 = some v

/-- The versions of the reads are those of the database. -/
def Transaction.ReadsMatch (tx : Transaction) (db : Db) : Prop :=
  ∀ read ∈ tx.reads, ReadMatches db.versionAt read

variable (u : ChainUnit)

/-- Every legal transaction of a user contract has read what the legal transactions in front of it
leave. -/
def ChainUnit.Serializable (db : Db) : Prop :=
  ∀ number, u.unitHeader.number = some number → ∀ i (tx : Transaction), u.txs[i]? = some tx →
    tx.isUserContract = true → tx.illegal = false → tx.ReadsMatch (u.stateBefore number db i)

/-! ### Versions -/

/-- What a transaction writes: the keys, with the version or a deletion. -/
def writesOf (tx : Transaction × Nat) :
    List (Bytes × Option StateVersion) :=
  (tx.1.messages.filterMap writeSet?).flatMap fun ws => ws.2.map fun w =>
    (contractStateKey (writeTarget ws.1 w) w.key,
      if w.isDelete then none else some ⟨some number, UInt32.ofNat tx.2⟩)

/-- What the legal transactions in front of a place write. -/
def ChainUnit.writesBefore (number : ChainIndex) (i : Nat) :
    List (Bytes × Option StateVersion) :=
  (u.legalBefore i).flatMap (writesOf number)

lemma versionAt_saveContractState (id : Bytes) (version : StateVersion) (db : Db)
    (w : ContractWriteSet) :
    (db.saveContractState id version w).versionAt = Function.update db.versionAt
      (contractStateKey (writeTarget id w) w.key)
      (if w.isDelete then none else some version) := by
  funext key
  unfold versionAt saveContractState
  by_cases hkey : key = contractStateKey (writeTarget id w) w.key
  · subst hkey
    split_ifs <;> simp
  rw [Function.update_of_ne hkey]
  split_ifs
  · rw [AList.lookup_erase_ne hkey]
  · rw [AList.lookup_insert_ne hkey]

lemma versionAt_saveContractStates (id : Bytes) (wset : List ContractWriteSet)
    (version : StateVersion) (db : Db) :
    (db.saveContractStates id wset version).versionAt = applyWrites db.versionAt
      (wset.map fun w => (contractStateKey (writeTarget id w) w.key,
        if w.isDelete then none else some version)) := by
  induction wset generalizing db with
  | nil => rfl
  | cons w wset ih =>
    rw [saveContractStates, foldl_cons, ← saveContractStates, ih, versionAt_saveContractState]
    rfl

lemma versionAt_applyWriteSets (db : Db) (tx : Transaction × Nat) :
    (applyWriteSets number db tx).versionAt = applyWrites db.versionAt (writesOf number tx) := by
  unfold applyWriteSets writesOf
  induction tx.1.messages.filterMap writeSet? generalizing db with
  | nil => rfl
  | cons w ws ih =>
    rw [foldl_cons, ih, versionAt_saveContractStates, flatMap_cons, Lib.applyWrites_append]

/-- The versions in front of a place come from the writes in front of it. -/
lemma ChainUnit.versionAt_stateBefore (number : ChainIndex) (db : Db) (i : Nat) :
    (u.stateBefore number db i).versionAt = applyWrites db.versionAt (u.writesBefore number i) := by
  unfold stateBefore writesBefore
  induction u.legalBefore i generalizing db with
  | nil => rfl
  | cons x l ih =>
    rw [foldl_cons, ih, versionAt_applyWriteSets, flatMap_cons, Lib.applyWrites_append]

/-! ### Marking -/

/-- The encoding of a version is short. -/
lemma encode_versionItem_length_lt (version : StateVersion) :
    (encode (versionItem (some version))).length < 2 ^ 64 := by
  have hnat : ∀ n : Nat, (encode (.str (putint n))).length ≤ 17 := fun n =>
    (encode_str_length_le _).trans (Nat.add_le_add_right (putint_length_le n) 9)
  have hheight : (encodeList (heightItems version.height)).length ≤ 51 := by
    cases version.height with
    | none => simp [heightItems]
    | some h =>
      have hasset := encode_str_length_le h.assetID.val
      rw [h.assetID.property] at hasset
      have hindex := hnat h.index.toNat
      have hlist := encode_list_length_le [.str h.assetID.val, .ofUInt64 h.index]
      simp only [encodeList_cons, encodeList_nil, append_nil,
        length_append, Lib.Rlp.Item.ofUInt64] at hlist
      simp only [heightItems, encodeList_cons, encodeList_nil, append_nil, Lib.Rlp.Item.ofUInt64]
      omega
  have hindex := hnat version.txIndex.toNat
  have hlist := encode_list_length_le
    (heightItems version.height ++ [natItem version.txIndex.toNat])
  rw [encodeList_append, length_append] at hlist
  simp only [encodeList_cons, encodeList_nil, append_nil] at hlist
  rw [natItem] at hlist
  rw [versionItem, natItem]
  omega

/-- The comparison of versions is equality. -/
lemma StateVersion.equal_iff (version : StateVersion) (other : Option StateVersion) :
    version.equal other = true ↔ other = some version := by
  rw [equal, beq_iff_eq]
  constructor
  · intro h
    have hitem := encode_injective (encode_versionItem_length_lt version) h
    exact (versionItem_injective hitem).symm
  · rintro rfl
    rfl

lemma checkReadSetIsValid_iff (db : Db) (tx : Transaction) :
    checkReadSetIsValid db tx.lastReadSet.1 tx.lastReadSet.2 = true ↔
      ∀ read ∈ tx.checkedReads, ReadMatches db.versionAt read := by
  unfold checkReadSetIsValid Transaction.checkedReads ReadMatches versionAt getContractState
  rw [List.all_eq_true, List.forall_mem_map]
  refine forall₂_congr fun rd _ => ?_
  cases db.contractState.lookup (contractStateKey tx.lastReadSet.1 rd.key) with
  | none => simp
  | some v => simp [StateVersion.equal_iff]

/-- What is compared for a transaction of a user contract that stays legal matches the state. -/
lemma checkedReads_of_markTxIllegal {P : Primitives} {db : Db} {tx t : Transaction}
    (h : markTxIllegal P db tx = some t) (huser : t.isUserContract = true)
    (hlegal : t.illegal = false) : ∀ read ∈ t.checkedReads, ReadMatches db.versionAt read := by
  unfold markTxIllegal at h
  split_ifs at h with hcontract hsystem
  · obtain rfl := some.inj h
    simp [isUserContract] at huser hcontract
    simp [hcontract] at huser
  · obtain rfl := some.inj h
    simp [isUserContract, hsystem] at huser
  obtain ⟨hash, -, rfl⟩ := map_eq_some_iff.1 h
  have hvalid : (!checkReadSetIsValid db tx.lastReadSet.1 tx.lastReadSet.2) = false := hlegal
  exact (checkReadSetIsValid_iff db tx).1 (by simpa using hvalid)

namespace UnitCreator

variable {R : UnitCreator} {db : Db}

lemma markTxIllegal_of_markPoolTx {tx t : Transaction} (h : R.markPoolTx db tx = some t) :
    markTxIllegal R.P db tx = some t := by
  unfold markPoolTx at h
  simp only [do_eq_some] at h
  obtain ⟨-, -, t', ht', h⟩ := h
  split_ifs at h
  · obtain ⟨-, -, rfl⟩ := map_eq_some_iff.1 h
    exact ht'
  · obtain rfl := some.inj h
    exact ht'

variable {mediatorReward : Address}

/-- The coinbase is not a user contract's transaction. -/
lemma not_isUserContract_of_coinbaseOf {poolTxs coinbase : List Transaction}
    (h : R.coinbaseOf db mediatorReward poolTxs = some (.ok coinbase)) :
    ∀ tx ∈ coinbase, tx.isUserContract = false := by
  unfold coinbaseOf at h
  simp only [do_eq_some] at h
  obtain ⟨fees, -, h⟩ := h
  cases fees with
  | error e => simp at h
  | ok ads =>
    simp only [do_eq_some] at h
    obtain ⟨result, hresult, h⟩ := h
    cases result with
    | error e => simp at h
    | ok pair =>
      obtain ⟨tx, amount⟩ := pair
      have huser : tx.isUserContract = false := by
        unfold Producer.createCoinbase Producer.createCoinbasePayment at hresult
        split_ifs at hresult
        · cases hstates : db.getContractStatesByPrefix coinbaseContractId
              rewardAddressPrefix with
          | none => simp [hstates] at hresult
          | some addrMap =>
            simp only [hstates, some.injEq, Except.ok.injEq, Prod.mk.injEq] at hresult
            rw [← hresult.1]
            rfl
        simp only [some.injEq, Except.ok.injEq, Producer.createCoinbaseState,
          Prod.mk.injEq] at hresult
        rw [← hresult.1]
        rfl
      split_ifs at h
      · obtain ⟨-, -, hcoinbase⟩ := map_eq_some_iff.1 h
        obtain rfl := Except.ok.inj hcoinbase
        simpa using huser
      · obtain rfl : [] = coinbase := by simpa using h
        simp

/-- What is compared for a legal transaction of a user contract in a unit matches the state before
the unit. -/
lemma checkedReads_of_createUnit {poolTxs : List Transaction} {when : Int}
    {u : ChainUnit} (h : R.createUnit db mediatorReward poolTxs when = some (.ok u)) :
    ∀ tx ∈ u.txs, tx.isUserContract = true → tx.illegal = false →
      ∀ read ∈ tx.checkedReads, ReadMatches db.versionAt read := by
  unfold createUnit at h
  simp only [do_eq_some] at h
  obtain ⟨coinbase, hcoinbase, h⟩ := h
  cases coinbase with
  | error e => simp at h
  | ok coinbase =>
    simp only [do_eq_some, some.injEq, Except.ok.injEq] at h
    obtain ⟨marked, hmarked, rfl⟩ := h
    intro tx htx huser hlegal
    rcases mem_append.1 htx with htx | htx
    · rw [not_isUserContract_of_coinbaseOf hcoinbase tx htx] at huser
      cases huser
    obtain ⟨i, hi⟩ := mem_iff_getElem?.1 htx
    rw [Lib.getElem?_of_forall₂ (Lib.forall₂_of_mapM hmarked)] at hi
    obtain ⟨t, -, ht⟩ := do_eq_some.1 hi
    exact checkedReads_of_markTxIllegal (markTxIllegal_of_markPoolTx ht) huser hlegal

/-- The unit is serializable exactly if a legal transaction of a user contract has read, of each
entry that is written in front of it, the version of the last of these writes, and of each other
entry that is not looked at for the mark, the version before the unit. -/
theorem serializable_iff {mediatorReward : Address} {poolTxs : List Transaction} {when : Int}
    {u : ChainUnit} (h : R.createUnit db mediatorReward poolTxs when = some (.ok u)) :
    u.Serializable db ↔ ∀ number, u.unitHeader.number = some number →
      ∀ i (tx : Transaction), u.txs[i]? = some tx → tx.isUserContract = true → tx.illegal = false →
        ∀ read ∈ tx.reads,
          (read.1 ∈ (u.writesBefore number i).map Prod.fst →
            ReadMatches (applyWrites (fun _ => none) (u.writesBefore number i)) read) ∧
          (read.1 ∉ (u.writesBefore number i).map Prod.fst → read ∉ tx.checkedReads →
            ReadMatches db.versionAt read) := by
  refine forall₂_congr fun number _ => forall₂_congr fun i tx => ?_
  refine forall₃_congr fun htx huser hlegal => forall₂_congr fun read _ => ?_
  have hchecked := checkedReads_of_createUnit h tx (mem_of_getElem? htx) huser hlegal read
  rw [u.versionAt_stateBefore]
  by_cases hkey : read.1 ∈ (u.writesBefore number i).map Prod.fst
  · have hlast : applyWrites db.versionAt (u.writesBefore number i) read.1 =
        applyWrites (fun _ => none) (u.writesBefore number i) read.1 := Lib.applyWrites_of_mem hkey
    simp only [ReadMatches, hlast, hkey, forall_const, not_true_eq_false, false_imp_iff, and_true]
  · simp only [ReadMatches, Lib.applyWrites_of_notMem hkey, hkey, false_imp_iff, true_and,
      not_false_eq_true, forall_const]
    exact ⟨fun hread _ => hread, fun hread => by_contra fun hno =>
      hno (hread fun hmem => hno (hchecked hmem))⟩

end UnitCreator

/-! ### Two reads of one version -/

namespace StaleRead

open SmallNode

/-- A producer without rewards. -/
def creator : UnitCreator where
  P := primitives
  ofMalformed _ := []
  rewardHeight := 100
  outputOrder := .listed _ _
  clearOrder := .listed _ _
  fl := float64
  juryPercent := (6 / 10 : Rat)
  getSigner _ _ _ := some []
  getJurorReward a := a
  gasToken := ptnCoin
  generateUnitReward := 0
  arrange := id
  deriveSha _ := (outPoint 8).txHash
  newest := some ((outPoint 9).txHash, ⟨ptnCoin, 6⟩)

/-- A user contract. -/
def contractId : Bytes := List.replicate 20 3

/-- The version of its entry `k`. -/
def version : StateVersion := ⟨some ⟨ptnCoin, 5⟩, 1⟩

/-- Two unspent outputs and the entry `k` of the contract. -/
def db : Db :=
  { empty with
    utxos := ((∅ : Table OutPoint Utxo).insert (outPoint 1) (openUtxo 10)).insert (outPoint 2)
      (openUtxo 10)
    contractState := (∅ : Table Bytes ContractStateValue).insert
      (contractStateKey contractId [107]) ⟨[0], version⟩ }

/-- An invocation, paid from the `n`-th output, that reads an entry and writes `k`. -/
def tx (n : UInt8) (reads : List ContractReadSet) : Transaction :=
  ⟨[.payment ⟨[openInput (outPoint n)], [⟨10, [0x51], newPTNAsset⟩], 0⟩,
    .contractInvokeRequest ⟨contractId, [], 0⟩,
    .contractInvoke ⟨contractId, [], reads, [⟨false, [107], [n], []⟩], [], ⟨0, []⟩⟩], [], false⟩

/-- The read of `k` before the unit. -/
def read : ContractReadSet := ⟨[107], some version, []⟩

/-- What a unit holds. -/
def content : Except CreateError ChainUnit → Option (Option ChainIndex × List Transaction)
  | .error _ => none
  | .ok u => some (u.unitHeader.number, u.txs)

/-- A unit is built of its content. -/
lemma exists_of_content (poolTxs txs : List Transaction)
    (h : (creator.createUnit db (FixedBytes.zero 21) poolTxs 0).bind content =
      some (some ⟨ptnCoin, 7⟩, txs)) :
    ∃ u, creator.createUnit db (FixedBytes.zero 21) poolTxs 0 = some (.ok u) ∧
      u.unitHeader.number = some ⟨ptnCoin, 7⟩ ∧ u.txs = txs := by
  obtain ⟨result, hresult, hcontent⟩ := do_eq_some.1 h
  cases result with
  | error e => simp [content] at hcontent
  | ok u =>
    simp only [content, some.injEq, Prod.mk.injEq] at hcontent
    exact ⟨u, hresult, hcontent⟩

end StaleRead

open StaleRead SmallNode in
/-- Both transactions read the entry in the version before the unit, and both write it. The
second stays legal behind the first. -/
theorem StaleRead.both_legal :
    ∃ u, creator.createUnit db (FixedBytes.zero 21) [tx 1 [read], tx 2 [read]] 0 = some (.ok u) ∧
      u.txs = [tx 1 [read], tx 2 [read]] ∧ ¬ u.Serializable db := by
  obtain ⟨u, hu, hnumber, htxs⟩ := exists_of_content [tx 1 [read], tx 2 [read]]
    [tx 1 [read], tx 2 [read]] (by decide +kernel)
  refine ⟨u, hu, htxs, fun hserial => ?_⟩
  have hreads := hserial _ hnumber 1 (tx 2 [read]) (by rw [htxs]; rfl) (by decide +kernel) rfl
  obtain ⟨v, hversion, hread⟩ := hreads (contractStateKey contractId [107], some version)
    (by decide +kernel)
  rw [← hread, versionAt_stateBefore] at hversion
  unfold writesBefore legalBefore at hversion
  rw [htxs] at hversion
  revert hversion
  decide +kernel

open StaleRead SmallNode in
/-- With a second transaction that reads nothing the unit is serializable. -/
theorem StaleRead.serializable_single :
    ∃ u, creator.createUnit db (FixedBytes.zero 21) [tx 1 [read], tx 2 []] 0 = some (.ok u) ∧
      u.txs = [tx 1 [read], tx 2 []] ∧ u.Serializable db := by
  obtain ⟨u, hu, hnumber, htxs⟩ := exists_of_content [tx 1 [read], tx 2 []]
    [tx 1 [read], tx 2 []] (by decide +kernel)
  refine ⟨u, hu, htxs, (UnitCreator.serializable_iff hu).2 ?_⟩
  intro number hnum i t ht huser hlegal rd hrd
  rw [htxs] at ht
  match i with
  | 0 =>
    obtain rfl : tx 1 [read] = t := by simpa using ht
    have hall : ∀ rd ∈ (tx 1 [read]).reads, rd ∈ (tx 1 [read]).checkedReads := by decide +kernel
    exact ⟨by simp [writesBefore, legalBefore], fun _ hno => absurd (hall rd hrd) hno⟩
  | 1 =>
    obtain rfl : tx 2 [] = t := by simpa using ht
    simp [tx, reads, readSet?] at hrd
  | i + 2 => simp at ht

end ZwsChain
