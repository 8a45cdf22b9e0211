import ZwsChain.Validator.Tx

/-!
# The transaction pool

The state of the pool and the functions that keep its tables. A pool transaction is an object
that several tables point to: the fields that never change are `TxPoolTransaction`, which stands
for the pointer, and the fields that change are in `Pool.status`. Two objects for one transaction
have different ids.

The tables are `all` and `orphans` by hash, `outpoints` (which outpoint is spent by which object)
and `outputs` (the outputs of the objects), the queue `sequenTxs` and the priority list `items`.
`none` is a nil-pointer panic or a recursion that does not end. Calls that the code starts as
goroutines are left in `goroutines` and run later, in any order.

What the pool reads from outside at a call is an `Env`: the ledger, the validator, the clock, and
the orders in which maps are ranged over and equal keys are sorted.
Sources without a file are in `txspool/txpool.go`.
-/

namespace ZwsChain.TxsPool

/-! ### Objects -/

/-- A pool transaction, up to the fields that change: an object of the pool.
Source: `txspool/types.go`, `TxPoolTransaction` -/
structure TxPoolTransaction (P : Primitives) where
  /-- Tells the objects of one transaction apart. -/
  id : Nat
  tx : Transaction
  /-- `Tx.Hash()`. -/
  hash : Hash
  /-- `Tx.TxMessages()`. -/
  msgs : List Message
  /-- In seconds. -/
  creationDate : Nat
  hash_eq : tx.hash P = some hash
  msgs_eq : tx.txMessages = some msgs
  deriving DecidableEq

/-- The fields of a pool transaction that change.
Source: `txspool/types.go`, `TxPoolTransaction` -/
structure Status where
  pending : Bool
  confirmed : Bool
  isOrphan : Bool
  discarded : Bool
  unitHash : Hash
  unitIndex : Nat
  index : Nat
  txFee : Option (List Addition)
  /-- `Priority_lvl` as `ParseFloat` reads it; the empty text is zero. -/
  priorityLvl : Rat
  expiration : Nat
  deriving DecidableEq

/-- The fields of a new object. -/
def Status.new : Status :=
  ⟨false, false, false, false, FixedBytes.zero 32, 0, 0, none, 0, 0⟩

namespace TxPoolTransaction

variable {P : Primitives} (t : TxPoolTransaction P)

/-- The outpoints of the inputs; `none` is a nil pointer. -/
def previousOutPoints : List (Option OutPoint) :=
  t.msgs.flatMap fun m => m.inputs.map Input.previousOutPoint

/-- The outpoints that are not nil. -/
def inputs : List OutPoint :=
  t.previousOutPoints.reduceOption

/-- The outpoints, by a loop that dereferences each of them. -/
def derefInputs : Option (List OutPoint) :=
  t.previousOutPoints.mapM fun op => op

/-- The outputs with their outpoints, without lock time.
Source: `addCache` -/
def newOutputs : List (OutPoint × Utxo) :=
  t.msgs.zipIdx.flatMap fun (m, i) => m.outputs.zipIdx.map fun (out, j) =>
    (⟨t.hash, UInt32.ofNat i, UInt32.ofNat j⟩, Transaction.utxoOfOutput 0 out)

end TxPoolTransaction

/-- Source: `txspool/config.go`, `TxPoolConfig` -/
structure Config where
  globalSlots : Nat
  globalQueue : Nat
  lifetime : Nat
  removetime : Nat
  orphanTTL : Nat
  maxOrphanTxs : Int

/-- What the pool reads at a call. -/
structure Env (P : Primitives) where
  /-- `unit.GetUtxoEntry`. -/
  getUtxoEntry : OutPoint → Option Utxo
  /-- `unit.IsTransactionExist`. -/
  isTransactionExist : Hash → Bool
  /-- `txValidator.ValidateTx`, for a query of unspent outputs. -/
  validateTx : (OutPoint → Option Utxo) → Transaction → Option (ValidationCode × List Addition)
  now : Nat
  /-- The level that `GetPriorityLvl` computes from fee, size and age. -/
  level : TxPoolTransaction P → Option (List Addition) → Rat
  /-- `sort.Sort` by descending priority. -/
  sortItems : (TxPoolTransaction P → Rat) → List (TxPoolTransaction P) → List (TxPoolTransaction P)
  /-- `sort.Sort` by creation date. -/
  sortOrphans : List (TxPoolTransaction P) → List (TxPoolTransaction P)
  /-- The order in which a map is ranged over. -/
  range : List (TxPoolTransaction P) → List (TxPoolTransaction P)
  unitMaxSize : Nat
  /-- The passes that `GetSortedTxs` makes over the priority list before its time is up. -/
  passes : Nat
  sortItems_perm : ∀ lvl l, (sortItems lvl l).Perm l
  sortItems_sorted : ∀ lvl l, (sortItems lvl l).Pairwise fun t u => lvl u ≤ lvl t
  sortOrphans_perm : ∀ l, (sortOrphans l).Perm l
  sortOrphans_sorted : ∀ l, (sortOrphans l).Pairwise fun t u => t.creationDate ≤ u.creationDate
  range_perm : ∀ l, (range l).Perm l

/-- A call that was started as a goroutine. -/
inductive Task (P : Primitives) where
  | put (t : TxPoolTransaction P)
  | removeTransaction (t : TxPoolTransaction P) (removeRedeemers : Bool)
  | removeTx (hash : Hash)
  | deleteTxByHash (hash : Hash)
  | promoteTx (unitHash : Hash) (t : TxPoolTransaction P) (number index : Nat)

/-- Source: `TxPool`; `txspool/txlist.go`, `txPrioritiedList` -/
structure Pool (P : Primitives) where
  all : Table Hash (TxPoolTransaction P)
  outpoints : Table OutPoint (TxPoolTransaction P)
  orphans : Table Hash (TxPoolTransaction P)
  outputs : Table OutPoint Utxo
  sequenTxs : List (TxPoolTransaction P)
  items : List (TxPoolTransaction P)
  stales : Int
  status : TxPoolTransaction P → Status
  nextId : Nat
  nextExpireScan : Nat
  goroutines : List (Task P)

variable {P : Primitives}

/-- Source: `NewTxPool4DI` -/
def newTxPool (nextExpireScan : Nat) : Pool P where
  all := ∅
  outpoints := ∅
  orphans := ∅
  outputs := ∅
  sequenTxs := []
  items := []
  stales := 0
  status := fun _ => Status.new
  nextId := 0
  nextExpireScan := nextExpireScan
  goroutines := []

namespace Pool

/-- The objects of a table. -/
def values {K : Type} (table : Table K (TxPoolTransaction P)) : List (TxPoolTransaction P) :=
  table.entries.map Sigma.snd

variable (s : Pool P) (t : TxPoolTransaction P)

/-- Assigns the fields of an object. -/
def set (f : Status → Status) : Pool P :=
  { s with status := Function.update s.status t (f (s.status t)) }

/-- Starts a goroutine. -/
def go (task : Task P) : Pool P :=
  { s with goroutines := s.goroutines ++ [task] }

variable (e : Env P)

/-- Source: `TxtoTxpoolTx` -/
def txtoTxpoolTx (s : Pool P) (tx : Transaction) :
    Option (TxPoolTransaction P × Pool P) :=
  match hhash : tx.hash P, hmsgs : tx.txMessages with
  | some hash, some msgs =>
    some (⟨s.nextId, tx, hash, msgs, e.now, hhash, hmsgs⟩, { s with nextId := s.nextId + 1 })
  | _, _ => none

/-- Source: `GetUtxoEntry` -/
def getUtxoEntry (e : Env P) (s : Pool P) (op : OutPoint) : Option Utxo :=
  (s.outputs.lookup op).or (e.getUtxoEntry op)

/-! ### The priority list -/

/-- Source: `txspool/txlist.go`, `Put`, `Push` -/
def put (s : Pool P) (t : TxPoolTransaction P) : Pool P :=
  { s with items := e.sortItems (fun t => (s.status t).priorityLvl) (s.items ++ [t]) }

/-- Takes the first object that is in the pool, not pending and not discarded. -/
def getFrom (s : Pool P) : List (TxPoolTransaction P) →
    Option (TxPoolTransaction P) × List (TxPoolTransaction P)
  | [] => (none, [])
  | t :: items =>
    if t.hash ∉ s.all || (s.status t).pending || (s.status t).discarded then s.getFrom items
    else (some t, items)

/-- Source: `txspool/txlist.go`, `Get` -/
def get : Option (TxPoolTransaction P) × Pool P :=
  ((s.getFrom s.items).1, { s with items := (s.getFrom s.items).2 })

/-- Counts a transaction that left; the list is made anew when a fifth of it may be stale.
Source: `txspool/txlist.go`, `Removed` -/
def removed (s : Pool P) : Pool P :=
  if s.stales + 1 ≤ s.items.length / 5 then { s with stales := s.stales + 1 }
  else
    { s with
      stales := 0
      items := e.sortItems (fun t => (s.status t).priorityLvl) <| (e.range (values s.all)).filter
        fun t => !(s.status t).pending && !(s.status t).discarded }

/-- Drops the objects at the head that are not in the pool, counting each as no longer stale. -/
def dropStale (s : Pool P) : List (TxPoolTransaction P) → Int → List (TxPoolTransaction P) × Int
  | [], stales => ([], stales)
  | t :: items, stales =>
    if t.hash ∈ s.all then (t :: items, stales) else s.dropStale items (stales - 1)

/-- Whether the head of the list is at least as good as a transaction.
Source: `txspool/txlist.go`, `Underpriced` -/
def underpriced : Bool × Pool P :=
  if t.hash ∈ s.all then (false, s)
  else
    let (items, stales) := s.dropStale s.items s.stales
    (match items with
      | [] => false
      | cheapest :: _ => (s.status cheapest).priorityLvl ≥ (s.status t).priorityLvl,
     { s with items, stales })

/-- Takes `count` objects of the pool from the list. -/
def discardFrom (s : Pool P) : Nat → List (TxPoolTransaction P) → Int →
    List (TxPoolTransaction P) × List (TxPoolTransaction P) × Int
  | 0, items, stales => ([], items, stales)
  | _ + 1, [], stales => ([], [], stales)
  | count + 1, t :: items, stales =>
    if t.hash ∈ s.all then
      let (drop, rest) := s.discardFrom count items stales
      (t :: drop, rest)
    else s.discardFrom (count + 1) items (stales - 1)

/-- Source: `txspool/txlist.go`, `Discard` -/
def discard (count : Nat) : List (TxPoolTransaction P) × Pool P :=
  let (drop, items, stales) := s.discardFrom count s.items s.stales
  (drop, { s with items, stales })

/-! ### Inputs and outputs -/

/-- Unmarks outpoints. -/
def unmark (ops : List OutPoint) : Pool P :=
  { s with outpoints := ops.foldl (fun table op => table.erase op) s.outpoints }

/-- Forgets outputs. -/
def deleteOutputs (ops : List OutPoint) : Pool P :=
  { s with outputs := ops.foldl (fun table op => table.erase op) s.outputs }

/-- Stores the outputs of an object. -/
def storeOutputs : Pool P :=
  { s with outputs := t.newOutputs.foldl (fun table out => table.insert out.1 out.2) s.outputs }

/-- Marks the outpoints an object spends and stores its outputs.
Source: `addCache` -/
def addCache : Pool P :=
  { s with
    outpoints := t.inputs.foldl (fun table op => table.insert op t) s.outpoints }.storeOutputs t

/-- Source: `deletePoolUtxos` -/
def deletePoolUtxos : Option (Pool P) :=
  t.derefInputs.map s.deleteOutputs

/-- Whether an outpoint is marked; an own output never is.
Source: `OutPointIsSpend` -/
def outPointIsSpend (op : OutPoint) : Bool :=
  !op.txHash.isSelfHash && op ∈ s.outpoints

/-- Whether no input is marked. The first one that is ends the loop, and a nil outpoint before it
is a panic.
Source: `checkPoolDoubleSpend` -/
def checkInputs (s : Pool P) : List (Option OutPoint) → Option Bool
  | [] => some true
  | none :: _ => none
  | some op :: ops => if s.outPointIsSpend op then some false else s.checkInputs ops

/-- Source: `checkPoolDoubleSpend` -/
def checkPoolDoubleSpend : Option Bool :=
  s.checkInputs t.previousOutPoints

/-- The results of `ValidateOrphanTx`: an error, an orphan, or neither.
Source: `ValidateOrphanTx` -/
inductive OrphanCheck where
  | noMessages | orphan | known
  deriving DecidableEq

/-- Looks for an input whose output is not known. -/
def findUnknown (e : Env P) (s : Pool P) : List (Option OutPoint) → Option OrphanCheck
  | [] => some .known
  | none :: _ => none
  | some op :: ops =>
    if (s.getUtxoEntry e op).isNone then some .orphan else s.findUnknown e ops

/-- Source: `ValidateOrphanTx` -/
def validateOrphanTx (s : Pool P) (t : TxPoolTransaction P) : Option OrphanCheck :=
  if t.tx.messages.isEmpty then some .noMessages else s.findUnknown e t.previousOutPoints

/-! ### Orphans -/

/-- Keeps an orphan, unless the pool keeps none. Its inputs are not marked.
Source: `addOrphan` -/
def addOrphan (c : Config) (s : Pool P) (t : TxPoolTransaction P) : Pool P :=
  if c.maxOrphanTxs ≤ 0 then s
  else
    ({ s with orphans := s.orphans.insert t.hash t }.set t fun st =>
      { st with expiration := t.creationDate + c.orphanTTL, isOrphan := true }).storeOutputs t

/-- Source: `removeOrphan` -/
def removeOrphan (reRedeemers : Bool) : Option (Pool P) :=
  match s.orphans.lookup t.hash with
  | none => some s
  | some otx => do
      let s := s.deleteOutputs (← otx.derefInputs)
      let s := if reRedeemers then s.deleteOutputs (t.newOutputs.map Prod.fst) else s
      some { s with orphans := s.orphans.erase t.hash }

/-! ### Removal -/

/-- Removes a transaction with its marks and outputs.
Source: `DeleteTxByHash` -/
def deleteTxByHash (s : Pool P) (hash : Hash) : Pool P :=
  match s.all.lookup hash with
  | none => s
  | some t =>
    let s := { s with all := s.all.erase hash, orphans := s.orphans.erase hash }.removed e
    (s.unmark t.inputs).deleteOutputs (t.newOutputs.map Prod.fst)

/-- Marks a transaction confirmed and removes its marks and outputs; it stays in the pool.
Source: `removeTx` -/
def removeTx (hash : Hash) : Pool P :=
  match s.all.lookup hash with
  | none => s
  | some t =>
    let s := { s with all := s.all.insert hash t }.set t fun st => { st with confirmed := true }
    (s.unmark t.inputs).deleteOutputs (t.newOutputs.map Prod.fst)

/-- The end of `removeTransaction`: what is stored under the hash loses its marks, and the object
is stored there as discarded. -/
def discardStored : Option (Pool P) :=
  match s.all.lookup t.hash with
  | none => some s
  | some pooltx => pooltx.derefInputs.map fun ops =>
    { (s.unmark ops).set t fun st => { st with discarded := true } with
      all := s.all.insert t.hash t }

/-- Discards a transaction and removes its marks, after those that spend its outputs.
Source: `removeTransaction` -/
def removeTransaction : Nat → Pool P → TxPoolTransaction P → Bool → Option (Pool P)
  | 0, _, _, _ => none
  | fuel + 1, s, t, removeRedeemers =>
    let outputs := if removeRedeemers then t.newOutputs.map Prod.fst else []
    (outputs.foldlM (fun (s : Pool P) (op : OutPoint) => match s.outpoints.lookup op with
      | none => some s
      | some redeemer => removeTransaction fuel s redeemer true) s).bind (discardStored · t)

/-- A chain of redeemers without a repetition is not longer than the table of marks. -/
def removeFuel : Nat :=
  s.outpoints.entries.length + 2

/-- Source: `discardTx`, the orphan pool -/
def discardOrphan (hash : Hash) : Pool P :=
  match s.orphans.lookup hash with
  | none => s
  | some otx => { s with orphans := s.orphans.insert hash otx }.set otx fun st =>
    { st with discarded := true }

/-- Source: `discardTx` -/
def discardTx (hash : Hash) : Pool P :=
  match (s.discardOrphan hash).all.lookup hash with
  | none => s.discardOrphan hash
  | some t => { s.discardOrphan hash with all := (s.discardOrphan hash).all.insert hash t }.set t
      fun st => { st with discarded := true }

/-- Deletes what is discarded, confirmed for long, or old.
Source: `DeleteTx` -/
def deleteTx (c : Config) (e : Env P) (s : Pool P) : Pool P :=
  (e.range (values s.all)).foldl (fun s t =>
    let st := s.status t
    if st.discarded || st.confirmed && t.creationDate + c.removetime < e.now ||
        t.creationDate + c.lifetime < e.now then s.deleteTxByHash e t.hash
    else s) s

/-! ### Pending marks -/

/-- Source: `txspool/types.go`, `GetPriorityLvl`; `txspool/txpool.go`, `setPriorityLvl` -/
def setPriorityLvl (s : Pool P) (t : TxPoolTransaction P) : Pool P :=
  s.set t fun st => { st with
    priorityLvl := if 0 < st.priorityLvl then st.priorityLvl else e.level t st.txFee }

/-- The fee that `promoteTx` fills in for an object without one. -/
def fillTxFee (s : Pool P) (t : TxPoolTransaction P) : Option (Pool P) :=
  match (s.status t).txFee with
  | some _ => some s
  | none => (t.tx.getTxFee (s.getUtxoEntry e)).map fun
      | .error _ => s
      | .ok fee => s.set t fun st =>
        { st with txFee := some [⟨FixedBytes.zero 21, fee.amount, fee.asset⟩] }

/-- The end of `promoteTx`: the object is stored as pending in a unit. -/
def storePending (unitHash : Hash) (t : TxPoolTransaction P) (number index : Nat) :
    Option (Pool P) :=
  let s := s.set t fun st => { st with
    pending := true, discarded := false, confirmed := false
    unitHash, unitIndex := number, index }
  (s.deletePoolUtxos t).map fun s => { s with all := s.all.insert t.hash t }

/-- Stores an object as pending. If the one in the pool is pending or confirmed already, that one
is discarded instead.
Source: `promoteTx` -/
def promoteTx (s : Pool P) (unitHash : Hash) (t : TxPoolTransaction P)
    (number index : Nat) : Option (Pool P) := do
  let s := (← s.fillTxFee e t).setPriorityLvl e t
  match s.all.lookup t.hash with
  | none => s.storePending unitHash t number index
  | some this =>
    if (s.status this).pending || (s.status this).confirmed then
      let s := s.set this fun st => { st with pending := true, discarded := true }
      { s with all := s.all.insert t.hash this }.deletePoolUtxos t
    else s.storePending unitHash t number index

/-- Source: `setPendingTx` -/
def setPendingTx (s : Pool P) (unitHash : Hash) (tx : Transaction)
    (number index : Nat) : Option (Pool P) := do
  match s.all.lookup (← tx.hash P) with
  | some t => some ({ s with all := s.all.insert t.hash t }.set t fun st =>
    { st with pending := true, confirmed := false, discarded := false, index })
  | none => do
      let (t, s) ← s.txtoTxpoolTx e tx
      (s.addCache t).promoteTx e unitHash t number index

end Pool

end ZwsChain.TxsPool
