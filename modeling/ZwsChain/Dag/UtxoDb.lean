import ZwsChain.Dag.SaveTx

/-!
# The store of unspent outputs

`UpdateUtxo` of `dag/common/utxo_repository.go` keeps five kinds of records in one key-value store:
unspent outputs, spent outputs, the outpoints of an address, the address of an outpoint, and the
gas-token balance of an address. Their keys are byte strings: a prefix of two letters, 20 bytes of
an address, the bytes of an outpoint.

* `Key.bytes_injective`: keys of different records differ, and `keyToOutpoint_toKey` reads an
  outpoint back from its key.
* `Store.read_put`, `Store.read_delete`: so a record is changed only by a write to it.
* `UtxoRepository.updateUtxo_refines`: the outputs are those of the database of tables.

Sources without a file are in `dag/storage/utxodb.go`.
-/

open List Option AList

namespace ZwsChain

open TxScript (getAddressFromScript)

/-! ### Keys -/

/-- Source: `common/bytes.go`, `EncodeNumberUint32` -/
def encodeNumberUint32 (number : UInt32) : Bytes :=
  [UInt8.ofNat (number.toNat / 2 ^ 24), UInt8.ofNat (number.toNat / 2 ^ 16),
    UInt8.ofNat (number.toNat / 2 ^ 8), UInt8.ofNat number.toNat]

/-- The first four bytes; fewer are a panic.
Source: `common/bytes.go`, `DecodeNumberUint32` -/
def decodeNumberUint32 : Bytes → Option UInt32
  | b₀ :: b₁ :: b₂ :: b₃ :: _ =>
    some (UInt32.ofNat (b₀.toNat * 2 ^ 24 + b₁.toNat * 2 ^ 16 + b₂.toNat * 2 ^ 8 + b₃.toNat))
  | _ => none

lemma decodeNumberUint32_encode (n : UInt32) :
    decodeNumberUint32 (encodeNumberUint32 n) = some n := by
  have hn := n.toNat_lt
  simp only [decodeNumberUint32, encodeNumberUint32, UInt8.toNat_ofNat', some.injEq]
  apply UInt32.toNat.inj
  rw [UInt32.toNat_ofNat']
  omega

/-- The last 32 bytes, padded with zeros on the left.
Source: `common/hash.go`, `SetBytes` on a zero hash -/
def bytesToHash (b : Bytes) : Hash :=
  ⟨List.replicate (32 - b.length) 0 ++ b.drop (b.length - 32), by simp; omega⟩

lemma bytesToHash_val (h : Hash) : bytesToHash h.val = h := by
  simp [bytesToHash, h.property]

namespace OutPoint

/-- Source: `dag/modules/utxo.go`, `OutPoint.Bytes` -/
def bytes (op : OutPoint) : Bytes :=
  op.txHash.val ++ encodeNumberUint32 op.messageIndex ++ encodeNumberUint32 op.outIndex

/-- Source: `dag/modules/utxo.go`, `OutPoint.ToKey` -/
def toKey (op : OutPoint) : Bytes :=
  ascii "uo" ++ op.bytes

end OutPoint

open OutPoint

/-- A key that is too short for the two numbers is a panic.
Source: `dag/modules/utxo.go`, `KeyToOutpoint` -/
def keyToOutpoint (key : Bytes) : Option OutPoint := do
  let sTxHash := (key.take (key.length - 8)).drop 2
  let sMessage := (key.take (key.length - 4)).drop 34
  let sIndex := key.drop 38
  let messageIndex ← decodeNumberUint32 sMessage
  let outIndex ← decodeNumberUint32 sIndex
  some ⟨bytesToHash sTxHash, messageIndex, outIndex⟩

/-- The key of an outpoint reads back as the outpoint. -/
lemma keyToOutpoint_toKey (op : OutPoint) : keyToOutpoint op.toKey = some op := by
  have htxHash : (ascii "uo" ++ op.txHash.val).length = 34 := by
    rw [length_append, op.txHash.property]
    rfl
  have hkey : op.toKey = (ascii "uo" ++ op.txHash.val) ++
      (encodeNumberUint32 op.messageIndex ++ encodeNumberUint32 op.outIndex) := by
    simp [toKey, bytes]
  have hlen : op.toKey.length = 42 := by
    rw [hkey, length_append, htxHash]
    rfl
  have hhash : (op.toKey.take 34).drop 2 = op.txHash.val := by
    rw [hkey, take_left' htxHash]
    rfl
  have hmessage : (op.toKey.take 38).drop 34 = encodeNumberUint32 op.messageIndex := by
    rw [drop_take, hkey, drop_left' htxHash]
    rfl
  have hindex : op.toKey.drop 38 = encodeNumberUint32 op.outIndex := by
    rw [show 38 = 34 + 4 from rfl, ← drop_drop, hkey, drop_left' htxHash]
    rfl
  simp [keyToOutpoint, hlen, hhash, hmessage, hindex, decodeNumberUint32_encode, bytesToHash_val]

lemma OutPoint.toKey_injective : Function.Injective toKey := by
  intro op op' h
  have hread := keyToOutpoint_toKey op
  rw [h, keyToOutpoint_toKey] at hread
  exact (some.inj hread).symm

/-- The 20 bytes that records of an address are stored under. -/
def Address.hash160 (a : Address) : FixedBytes 20 :=
  ⟨a.bytes, a.bytes_length⟩

/-- The records of the store and their keys.
Source: `dag/constants/prefix_info.go`; `dag/storage/utxodb.go`, `statedb_account.go` -/
inductive Key where
  | utxo (op : OutPoint)
  | stxo (op : OutPoint)
  | addrOutpoint (addr : FixedBytes 20) (op : OutPoint)
  | outpointAddr (op : OutPoint)
  | balance (addr : FixedBytes 20)
  deriving DecidableEq

namespace Key

/-- The bytes that a record is stored under.
Source: `saveUtxoOutpoint`, `SaveUtxoEntity`, `SaveStxoEntry`;
`statedb_account.go`, `ptnBalanceKey` -/
def bytes : Key → Bytes
  | utxo op => op.toKey
  | stxo op => ascii "us" ++ op.toKey
  | addrOutpoint addr op => ascii "ap" ++ addr.val ++ op.bytes
  | outpointAddr op => ascii "pa" ++ op.toKey
  | balance addr => ascii "ab" ++ addr.val

/-- The prefix of a record's key. -/
def tag : Key → Bytes
  | utxo _ => ascii "uo"
  | stxo _ => ascii "us"
  | addrOutpoint _ _ => ascii "ap"
  | outpointAddr _ => ascii "pa"
  | balance _ => ascii "ab"

lemma take_bytes (k : Key) : k.bytes.take 2 = k.tag := by
  cases k <;> rfl

/-- Different records have different keys. -/
lemma bytes_injective : Function.Injective Key.bytes := by
  intro k k' h
  have htag : k.tag = k'.tag := by rw [← take_bytes, ← take_bytes, h]
  cases k <;> cases k' <;> try (simp [tag, ascii] at htag; done)
  case utxo.utxo op op' => rw [toKey_injective h]
  case stxo.stxo op op' => rw [toKey_injective (append_cancel_left h)]
  case addrOutpoint.addrOutpoint addr op addr' op' =>
      simp only [bytes, append_assoc] at h
      obtain ⟨haddr, hop⟩ := append_inj (append_cancel_left h)
        (addr.property.trans addr'.property.symm)
      rw [Subtype.ext haddr, toKey_injective (congrArg (ascii "uo" ++ ·) hop)]
  case outpointAddr.outpointAddr op op' =>
      rw [toKey_injective (append_cancel_left h)]
  case balance.balance addr addr' => rw [Subtype.ext (append_cancel_left h)]

end Key

/-! ### The store -/

/-- Source: `dag/modules/utxo.go`, `Stxo` -/
structure Stxo where
  utxo : Utxo
  spentByTxId : Hash
  spentTime : UInt64
  deriving DecidableEq

/-- The values of the store. -/
inductive StoredValue where
  | utxo (utxo : Utxo)
  | stxo (stxo : Stxo)
  | outPoint (op : OutPoint)
  | address (text : Bytes)
  | balance (balance : UInt64)
  deriving DecidableEq

/-- The key-value store. -/
abbrev Store := Table Bytes StoredValue

namespace Store

variable (s : Store) (k : Key)

/-- The value of a record. -/
def read : Option StoredValue :=
  s.lookup k.bytes

/-- Writes a record. -/
def put (v : StoredValue) (s : Store) : Store :=
  s.insert k.bytes v

/-- Deletes a record. -/
def delete (s : Store) : Store :=
  s.erase k.bytes

@[simp] lemma read_empty : read ∅ k = none :=
  lookup_empty _

lemma read_put (k k' : Key) (v : StoredValue) :
    (s.put k v).read k' = if k' = k then some v else s.read k' := by
  split_ifs with h
  · rw [h]
    exact lookup_insert s
  · exact lookup_insert_ne (Key.bytes_injective.ne h)

lemma read_delete (k k' : Key) :
    (s.delete k).read k' = if k' = k then none else s.read k' := by
  split_ifs with h
  · rw [h]
    exact lookup_erase _ s
  · exact lookup_erase_ne (Key.bytes_injective.ne h)

/-- An unspent output; an error if there is none.
Source: `GetUtxoEntry` -/
def getUtxoEntry (op : OutPoint) : Option Utxo :=
  match s.read (.utxo op) with
  | some (.utxo utxo) => some utxo
  | _ => none

/-- Source: `IsUtxoSpent` -/
def isUtxoSpent (op : OutPoint) : Bool :=
  (s.read (.stxo op)).isSome

/-- The transaction that a spent output records. -/
def spentBy (op : OutPoint) : Option Hash :=
  match s.read (.stxo op) with
  | some (.stxo stxo) => some stxo.spentByTxId
  | _ => none

/-- The entries whose keys start with a prefix.
Source: `dag/storage/getor.go`, `getprefix` -/
def getPrefix (pre : Bytes) : List (Bytes × StoredValue) :=
  (s.entries.filter fun e => pre.isPrefixOf e.1).map fun e => (e.1, e.2)

variable (addr : Address)

/-- The outpoints that the index lists for an address.
Source: `GetAddrOutpoints` -/
def getAddrOutpoints : List OutPoint :=
  (s.getPrefix (ascii "ap" ++ addr.bytes)).filterMap fun e =>
    match e.2 with
    | .outPoint op => some op
    | _ => none

/-- Source: `GetAddrUtxos` for all assets -/
def getAddrUtxos : List (OutPoint × Utxo) :=
  (s.getAddrOutpoints addr).filterMap fun op => (s.getUtxoEntry op).map (op, ·)

/-- Source: `GetAllUtxos` -/
def getAllUtxos : List (OutPoint × Utxo) :=
  (s.getPrefix (ascii "uo")).filterMap fun e =>
    match e.2 with
    | .utxo utxo => (keyToOutpoint e.1).map (·, utxo)
    | _ => none

/-- Source: `dag/storage/statedb_account.go`, `GetAccountBalance` -/
def getAccountBalance : UInt64 :=
  match s.read (.balance addr.hash160) with
  | some (.balance balance) => balance
  | _ => 0

/-- `addAmount` is an `int64`, given by its bits: the sum wraps around.
Source: `dag/storage/statedb_account.go`, `UpdateAccountBalance` -/
def updateAccountBalance (addAmount : UInt64) (s : Store) : Store :=
  s.put (.balance addr.hash160) (.balance (s.getAccountBalance addr + addAmount))

end Store

open Store

/-- A repository with the gas token of the node.
Source: `dag/common/utxo_repository.go`, `UtxoRepository` -/
structure UtxoRepository where
  P : Primitives
  gasToken : AssetId

namespace UtxoRepository

variable (rep : UtxoRepository)

/-- The address of a lock script, the zero address if it has none. -/
def addressOf (pkScript : Bytes) : Address :=
  (getAddressFromScript rep.P pkScript).getD (FixedBytes.zero 21)

variable (op : OutPoint) (utxo : Utxo)

/-- Source: `SaveUtxoEntity` and `saveUtxoOutpoint` -/
def saveUtxoEntity (s : Store) : Store :=
  let address := rep.addressOf utxo.pkScript
  s.put (.utxo op) (.utxo utxo)
    |>.put (.outpointAddr op) (.address (address.str rep.P))
    |>.put (.addrOutpoint address.hash160 op) (.outPoint op)

/-- Moves an unspent output to the spent ones.
Source: `DeleteUtxo` -/
def deleteUtxo (spentTxId : Hash) (spentTime : UInt64)
    (s : Store) : Store :=
  s.delete (.utxo op)
    |>.put (.stxo op) (.stxo ⟨utxo, spentTxId, spentTime⟩)
    |>.delete (.addrOutpoint (rep.addressOf utxo.pkScript).hash160 op)

/-- Source: `dag/common/utxo_repository.go`, `writeUtxo`, loop body behind the test of the
address -/
def create (s : Store) : Store :=
  let s := rep.saveUtxoEntity op utxo s
  if utxo.asset.assetId = rep.gasToken then
    s.updateAccountBalance (rep.addressOf utxo.pkScript) utxo.amount
  else s

/-- Source: `dag/common/utxo_repository.go`, `destroyUtxo`, loop body behind the lookup -/
def spend (txid : Hash) (unitTime : UInt64) (s : Store) : Store :=
  let s := rep.deleteUtxo op utxo txid unitTime s
  if utxo.asset.assetId = rep.gasToken then
    s.updateAccountBalance (rep.addressOf utxo.pkScript) (-utxo.amount)
  else s

/-- Source: `dag/common/utxo_repository.go`, `destroyUtxo` -/
def destroyUtxo (txid : Hash) (unitTime : UInt64) : List Input → Store → Bool × Store
  | [], s => (true, s)
  | txin :: rest, s =>
    match txin.previousOutPoint with
    | none => destroyUtxo txid unitTime rest s
    | some op =>
      let op := if op.txHash.isSelfHash then { op with txHash := txid } else op
      match s.getUtxoEntry op with
      | none => (false, s)
      | some utxo => destroyUtxo txid unitTime rest (rep.spend op utxo txid unitTime s)

/-- One output; an output to the zero address is destroyed.
Source: `dag/common/utxo_repository.go`, `writeUtxo`, loop body -/
def writeOutput (txHash : Hash) (msgIndex lockTime : UInt32) (s : Store) (out : Output × Nat) :
    Store :=
  if rep.addressOf out.1.pkScript = FixedBytes.zero 21 then s
  else rep.create ⟨txHash, msgIndex, UInt32.ofNat out.2⟩ (Transaction.utxoOfOutput lockTime out.1) s

/-- Source: `dag/common/utxo_repository.go`, `writeUtxo` -/
def writeUtxo (txHash : Hash) (msgIndex lockTime : UInt32) (txouts : List Output) (s : Store) :
    Store :=
  txouts.zipIdx.foldl (rep.writeOutput txHash msgIndex lockTime) s

/-- The arguments of a call of `UpdateUtxo`. -/
structure Call where
  unitTime : UInt64
  txHash : Hash
  payment : PaymentPayload
  msgIndex : UInt32

/-- Whether the call succeeds, and the store.
Source: `dag/common/utxo_repository.go`, `UpdateUtxo` -/
def updateUtxo (s : Store) (c : Call) : Bool × Store :=
  match rep.destroyUtxo c.txHash c.unitTime c.payment.inputs s with
  | (false, s) => (false, s)
  | (true, s) =>
    (true, rep.writeUtxo c.txHash c.msgIndex c.payment.lockTime c.payment.outputs s)

/-! ### What one output changes -/

section Steps

variable {rep} {s : Store} {op op' : OutPoint} {utxo : Utxo} {txid : Hash} {unitTime : UInt64}

/-- Balances do not change other records. -/
lemma read_create (k : Key) (hk : ∀ addr, k ≠ .balance addr) :
    (rep.create op utxo s).read k = (rep.saveUtxoEntity op utxo s).read k := by
  unfold create
  split_ifs
  · exact (read_put ..).trans (if_neg (hk _))
  · rfl

lemma read_spend (k : Key) (hk : ∀ addr, k ≠ .balance addr) :
    (rep.spend op utxo txid unitTime s).read k =
      (rep.deleteUtxo op utxo txid unitTime s).read k := by
  unfold spend
  split_ifs
  · exact (read_put ..).trans (if_neg (hk _))
  · rfl

@[simp] lemma read_create_utxo :
    (rep.create op utxo s).read (.utxo op') =
      if op' = op then some (.utxo utxo) else s.read (.utxo op') := by
  rw [read_create _ (by simp)]
  simp [saveUtxoEntity, read_put]

@[simp] lemma read_create_stxo :
    (rep.create op utxo s).read (.stxo op') = s.read (.stxo op') := by
  rw [read_create _ (by simp)]
  simp [saveUtxoEntity, read_put]

@[simp] lemma read_create_addrOutpoint (addr : FixedBytes 20) :
    (rep.create op utxo s).read (.addrOutpoint addr op') =
      if addr = (rep.addressOf utxo.pkScript).hash160 ∧ op' = op then some (.outPoint op)
      else s.read (.addrOutpoint addr op') := by
  rw [read_create _ (by simp)]
  simp [saveUtxoEntity, read_put]

@[simp] lemma read_spend_utxo :
    (rep.spend op utxo txid unitTime s).read (.utxo op') =
      if op' = op then none else s.read (.utxo op') := by
  rw [read_spend _ (by simp)]
  simp [deleteUtxo, read_put, read_delete]

@[simp] lemma read_spend_stxo :
    (rep.spend op utxo txid unitTime s).read (.stxo op') =
      if op' = op then some (.stxo ⟨utxo, txid, unitTime⟩) else s.read (.stxo op') := by
  rw [read_spend _ (by simp)]
  simp [deleteUtxo, read_put, read_delete]

@[simp] lemma read_spend_addrOutpoint (addr : FixedBytes 20) :
    (rep.spend op utxo txid unitTime s).read (.addrOutpoint addr op') =
      if addr = (rep.addressOf utxo.pkScript).hash160 ∧ op' = op then none
      else s.read (.addrOutpoint addr op') := by
  rw [read_spend _ (by simp)]
  simp [deleteUtxo, read_put, read_delete]

@[simp] lemma getUtxoEntry_create :
    (rep.create op utxo s).getUtxoEntry op' =
      if op' = op then some utxo else s.getUtxoEntry op' := by
  unfold getUtxoEntry
  rw [read_create_utxo]
  split_ifs <;> rfl

@[simp] lemma getUtxoEntry_spend :
    (rep.spend op utxo txid unitTime s).getUtxoEntry op' =
      if op' = op then none else s.getUtxoEntry op' := by
  unfold getUtxoEntry
  rw [read_spend_utxo]
  split_ifs <;> rfl

end Steps

/-! ### The tables of the database -/

/-- The store has the unspent and spent outputs of the tables. -/
structure Refines (s : Store) (db : Db) : Prop where
  unspent : ∀ op, s.getUtxoEntry op = db.getUtxoEntry op
  spent : ∀ op, s.spentBy op = db.stxos.lookup op

namespace Refines

variable {rep} {s : Store} {db : Db}

lemma spend (h : Refines s db) (op : OutPoint) (utxo : Utxo) (txid : Hash) (unitTime : UInt64) :
    Refines (rep.spend op utxo txid unitTime s) (db.deleteUtxo op txid) := by
  constructor
  · intro op'
    rw [getUtxoEntry_spend, h.unspent]
    simp only [Db.getUtxoEntry, Db.deleteUtxo]
    split_ifs with hop
    · rw [hop, lookup_erase]
    · rw [lookup_erase_ne hop]
  intro op'
  have hspent := h.spent op'
  unfold spentBy at hspent ⊢
  rw [read_spend_stxo]
  simp only [Db.deleteUtxo]
  split_ifs with hop
  · rw [hop, lookup_insert]
  · rw [lookup_insert_ne hop]
    exact hspent

lemma create (h : Refines s db) (op : OutPoint) (utxo : Utxo) :
    Refines (rep.create op utxo s) (db.saveUtxoEntity op utxo) := by
  constructor
  · intro op'
    rw [getUtxoEntry_create, h.unspent]
    simp only [Db.getUtxoEntry, Db.saveUtxoEntity]
    split_ifs with hop
    · rw [hop, lookup_insert]
    · rw [lookup_insert_ne hop]
  intro op'
  have hspent := h.spent op'
  unfold spentBy at hspent ⊢
  rwa [read_create_stxo]

variable (rep) in
lemma destroyUtxo (h : Refines s db) (txid : Hash) (unitTime : UInt64) (inputs : List Input) :
    (rep.destroyUtxo txid unitTime inputs s).1 = (UnitRepository.destroyUtxo txid inputs db).1 ∧
      Refines (rep.destroyUtxo txid unitTime inputs s).2
        (UnitRepository.destroyUtxo txid inputs db).2 := by
  induction inputs generalizing s db with
  | nil => exact ⟨rfl, h⟩
  | cons txin rest ih =>
    rw [UtxoRepository.destroyUtxo, UnitRepository.destroyUtxo]
    cases txin.previousOutPoint with
    | none => exact ih h
    | some op =>
      simp only [h.unspent]
      cases db.getUtxoEntry
          (if op.txHash.isSelfHash then { op with txHash := txid } else op) with
      | none => exact ⟨rfl, h⟩
      | some utxo => exact ih (h.spend ..)

lemma writeUtxo {unitRep : UnitRepository} (hP : unitRep.P = rep.P) (h : Refines s db)
    (txHash : Hash) (msgIndex : Nat) (lockTime : UInt32) (txouts : List Output) :
    Refines (rep.writeUtxo txHash (UInt32.ofNat msgIndex) lockTime txouts s)
      (unitRep.writeUtxo txHash msgIndex lockTime txouts db) := by
  unfold UtxoRepository.writeUtxo UnitRepository.writeUtxo
  induction txouts.zipIdx generalizing s db with
  | nil => exact h
  | cons out rest ih =>
    apply ih
    have haddr : (getAddressFromScript unitRep.P out.1.pkScript).getD (FixedBytes.zero 21) =
        rep.addressOf out.1.pkScript := by rw [hP]; rfl
    rw [writeOutput]
    simp only [haddr]
    split_ifs
    · exact h
    · exact h.create ..

end Refines

/-- `UpdateUtxo` does to the store what it does to the tables. -/
theorem updateUtxo_refines {unitRep : UnitRepository} (hP : unitRep.P = rep.P) {s : Store} {db : Db}
    (h : Refines s db) (unitTime : UInt64) (txHash : Hash) (msgIndex : Nat)
    (payment : PaymentPayload) :
    let c : Call := ⟨unitTime, txHash, payment, UInt32.ofNat msgIndex⟩
    (rep.updateUtxo s c).1 = (unitRep.updateUtxo txHash msgIndex payment db).1 ∧
      Refines (rep.updateUtxo s c).2 (unitRep.updateUtxo txHash msgIndex payment db).2 := by
  obtain ⟨hok, hrefines⟩ := h.destroyUtxo rep txHash unitTime payment.inputs
  unfold updateUtxo UnitRepository.updateUtxo
  dsimp only
  match hstore : rep.destroyUtxo txHash unitTime payment.inputs s,
    hdb : UnitRepository.destroyUtxo txHash payment.inputs db with
  | (false, s'), (false, db') =>
    rw [hstore, hdb] at hrefines
    exact ⟨rfl, hrefines⟩
  | (true, s'), (true, db') =>
    rw [hstore, hdb] at hrefines
    exact ⟨rfl, hrefines.writeUtxo hP ..⟩
  | (true, s'), (false, db') => simp [hstore, hdb] at hok
  | (false, s'), (true, db') => simp [hstore, hdb] at hok

end UtxoRepository

end ZwsChain
