import ZwsChain.TxsPool.Pool

/-!
# The calls of the pool

The ways a transaction enters the pool, the list of transactions for a new unit, and the runs of
the pool. `add` has no check against the marked outpoints; `ProcessTransaction` and `AddSequenTx`
make it before. A call for several transactions is a loop over them, and a run goes through
the single steps (`Op`).
Sources without a file are in `txspool/txpool.go`.
-/

namespace ZwsChain.TxsPool.Pool

variable {P : Primitives}

/-! ### Adding -/

/-- The error returns of `add` and of the calls that use it.
Source: `add`, `checkPoolDoubleSpend`, `CheckTransactionSanity` -/
inductive AddError where
  | known | knownOrphan | packaged
  | invalid (code : ValidationCode)
  | underpriced
  | doubleSpend
  | notSane
  deriving DecidableEq

/-- Keeps the fees that validation allocates; an empty list is appended to nil as nil. -/
def setTxFee (s : Pool P) (t : TxPoolTransaction P) (addition : List Addition) : Pool P :=
  s.set t fun st => { st with
    txFee := if st.txFee.isNone && addition.isEmpty then none else some addition }

variable (c : Config)

/-- Makes room in a full pool; `false` if the transaction is not worth it.
Source: `add`, the test of the pool's length -/
def makeRoom (s : Pool P) (t : TxPoolTransaction P) : Option (Bool × Pool P) :=
  let length := s.all.entries.length
  if length ≥ c.globalSlots + c.globalQueue then
    let (under, s) := s.underpriced t
    if under then some (false, s)
    else
      let (drop, s) := s.discard (length + 1 - (c.globalSlots + c.globalQueue))
      (drop.foldlM (fun s tx => removeTransaction s.removeFuel s tx true) s).map (true, ·)
  else some (true, s)

/-- Stores a validated object with its marks. -/
def store (s : Pool P) (t : TxPoolTransaction P) : Pool P :=
  ({ s with all := s.all.insert t.hash t }.addCache t).go (.put t)

variable (e : Env P)

/-- Adds an object. It returns `true` exactly without an error.
Source: `add` -/
def add (s : Pool P) (t : TxPoolTransaction P) :
    Option (Except AddError Unit × Pool P) :=
  match t.msgs with
  | .payment payload :: _ =>
    if payload.isCoinbase then some (.ok (), s)
    else if t.hash ∈ s.all then some (.error .known, s)
    else if t.hash ∈ s.orphans then some (.error .knownOrphan, s)
    else if e.isTransactionExist t.hash then some (.error .packaged, s)
    else do
      let (code, addition) ← e.validateTx (s.getUtxoEntry e) t.tx
      if code = .valid then do
        let s := (s.setTxFee t addition).setPriorityLvl e t
        let (room, s) ← s.makeRoom c t
        if room then some (.ok (), s.store t) else some (.error .underpriced, s)
      else if code = .orphan then do
        match ← s.validateOrphanTx e t with
        | .orphan => some (.ok (), s.addOrphan c t)
        | _ => some (.error (.invalid code), s)
      else some (.error (.invalid code), s)
  -- an index out of range, or a type assertion that fails
  | _ => none

/-- Whether the last message is a request; `none` without messages.
Source: `dag/modules/transaction.go`, `IsNewContractInvokeRequest` -/
def isNewContractInvokeRequest (tx : Transaction) : Option Bool :=
  tx.messages.getLast?.map Message.isRequest

/-- Makes an object of a transaction and adds it. -/
def addNew (s : Pool P) (tx : Transaction) :
    Option (Except AddError Unit × Pool P) := do
  let (t, s) ← s.txtoTxpoolTx e tx
  s.add c e t

/-- Adds a transaction that is not a mere request. The promotion behind `add` is not reached: it
returns `true` or an error.
Source: `AddLocal`, `addTx` -/
def addLocal (s : Pool P) (tx : Transaction) :
    Option (Except AddError Unit × Pool P) := do
  if ← isNewContractInvokeRequest tx then some (.ok (), s) else s.addNew c e tx

/-- Source: `AddRemote` -/
def addRemote (s : Pool P) (tx : Transaction) :
    Option (Except AddError Unit × Pool P) := do
  if ← isNewContractInvokeRequest tx then some (.ok (), s)
  else match ← tx.txMessages with
    | .payment payload :: _ =>
      if payload.isCoinbase then some (.ok (), s) else s.addNew c e tx
    | _ => none

/-! ### Promotion of the executable transactions -/

/-- Deletes the offenders, counting each down, until few enough are counted as pending. A negative
count is converted to a large unsigned one. -/
def reduce (c : Config) (e : Env P) (offenders : List Hash) : Nat → Int → Pool P →
    Option (Int × Pool P)
  | 0, _, _ => none
  | fuel + 1, pending, s =>
    if c.globalSlots < pending || pending < 0 then
      reduce c e offenders fuel (pending - offenders.length)
        (offenders.foldl (fun s hash => { s with all := s.all.erase hash }.removed e) s)
    else some (pending, s)

/-- Pops the spammers one by one, and reduces all but the last one popped. -/
def equalize (c : Config) (e : Env P) (fuel : Nat) : List Hash → List Hash → Int → Pool P →
    Option (List Hash × Int × Pool P)
  | [], offenders, pending, s => some (offenders, pending, s)
  | offender :: spammers, offenders, pending, s =>
    if c.globalSlots < pending || pending < 0 then
      -- those popped before are reduced, once there are two
      if offenders.isEmpty then equalize c e fuel spammers [offender] pending s
      else do
        let (pending, s) ← reduce c e offenders fuel pending s
        equalize c e fuel spammers (offenders ++ [offender]) pending s
    else some (offenders, pending, s)

/-- Drops transactions that are not pending when there are too many. The spammers come in the
order of the map, and the last one is popped first.
Source: `promoteExecutables` -/
def promoteExecutables (s : Pool P) : Option (Pool P) :=
  let pendingTxs := (e.range (values s.all)).filter fun t => !(s.status t).pending
  let pending := pendingTxs.length
  if c.globalSlots < pending then do
    let spammers := (pendingTxs.map TxPoolTransaction.hash).reverse
    let (offenders, pending, s) ← equalize c e (pending + 1) spammers [] pending s
    if (c.globalSlots < pending || pending < 0) && !offenders.isEmpty then
      (reduce c e offenders (pendingTxs.length + 1) pending s).map Prod.snd
    else some s
  else some s

/-! ### Batches -/

/-- The objects of a list of transactions. -/
def txsToTxpoolTxs (e : Env P) : Pool P → List Transaction →
    Option (List (TxPoolTransaction P) × Pool P)
  | s, [] => some ([], s)
  | s, tx :: txs => do
      let (t, s) ← s.txtoTxpoolTx e tx
      let (ts, s) ← txsToTxpoolTxs e s txs
      some (t :: ts, s)

/-- Adds one after the other up to the first error; then, or without transactions, promotes.
Source: `addTxsLocked` -/
def addTxsLocked (c : Config) (e : Env P) : Pool P → List (TxPoolTransaction P) →
    Option (Except AddError Unit × Pool P)
  | s, [] => (s.promoteExecutables c e).map (.ok (), ·)
  | s, t :: ts => do
      match ← s.add c e t with
      | (.error err, s) => (s.promoteExecutables c e).map (.error err, ·)
      | (.ok (), s) => if ts.isEmpty then some (.ok (), s) else addTxsLocked c e s ts

/-- Source: `AddLocals`, `AddRemotes`, `addTxs` -/
def addTxs (s : Pool P) (txs : List Transaction) :
    Option (Except AddError Unit × Pool P) := do
  let (ts, s) ← s.txsToTxpoolTxs e txs
  s.addTxsLocked c e ts

/-! ### Checked additions -/

/-- Whether a transaction has messages, is not too big and spends nothing twice in one payment.
Source: `txspool/utxoviewpoint.go`, `CheckTransactionSanity` -/
def checkTransactionSanity (tx : Transaction) : Option Bool := do
  let msgs ← tx.txMessages
  let size ← tx.size
  some (!msgs.isEmpty && size ≤ 100 * 1024 &&
    msgs.all fun m => decide (m.inputs.map Input.previousOutPoint).reduceOption.Nodup)

/-- Source: `IsCoinBase` -/
def isCoinBase : List Message → Bool
  | [.payment payload] => payload.isCoinbase
  | _ => false

/-- Adds a transaction none of whose inputs is marked.
Source: `ProcessTransaction`, `maybeAcceptTransaction` -/
def processTransaction (s : Pool P) (tx : Transaction) :
    Option (Except AddError Unit × Pool P) := do
  let hash ← tx.hash P
  if hash ∈ s.all || hash ∈ s.orphans then some (.ok (), s)
  else if !(← checkTransactionSanity tx) then some (.error .notSane, s)
  else if isCoinBase (← tx.txMessages) then some (.ok (), s)
  else do
    let (t, s) ← s.txtoTxpoolTx e tx
    if ← s.checkPoolDoubleSpend t then s.add c e t else some (.error .doubleSpend, s)

/-- Adds a transaction to the queue of sequential ones, if none of its inputs is marked.
Source: `AddSequenTx`, `addSequenTx` -/
def addSequenTx (s : Pool P) (tx : Transaction) :
    Option (Except AddError Unit × Pool P) := do
  let (t, s) ← s.txtoTxpoolTx e tx
  if e.isTransactionExist t.hash || t.hash ∈ s.all || t.hash ∈ s.orphans then some (.ok (), s)
  else do
    let (code, addition) ← e.validateTx (s.getUtxoEntry e) tx
    if code ≠ .valid then some (.error (.invalid code), s)
    else
      let s := s.setTxFee t addition
      if ← s.checkPoolDoubleSpend t then
        let s := s.setPriorityLvl e t
        some (.ok (), { s with
          sequenTxs := s.sequenTxs ++ [t], all := s.all.insert t.hash t }.addCache t)
      else some (.error .doubleSpend, s)

/-- Source: `AddSequenTxs` -/
def addSequenTxs (e : Env P) : Pool P → List Transaction → Option (Except AddError Unit × Pool P)
  | s, [] => some (.ok (), s)
  | s, tx :: txs => do
      match ← s.addSequenTx e tx with
      | (.error err, s) => some (.error err, s)
      | (.ok (), s) => addSequenTxs e s txs

/-! ### Units -/

/-- Marks the transactions of a unit pending, except the coinbase.
Source: `SetPendingTxs` -/
def setPendingTxs (s : Pool P) (unitHash : Hash) (num : Nat)
    (txs : List Transaction) : Option (Pool P) := do
  let s ← txs.zipIdx.tail.foldlM (fun s (tx, i) => s.setPendingTx e unitHash tx num i) s
  some (if txs.isEmpty then s else s.removed e)

/-- Source: `resetPendingTx` -/
def resetPendingTx (s : Pool P) (tx : Transaction) : Option (Pool P) := do
  let hash ← tx.hash P
  ((s.deleteTxByHash e hash).addNew c e tx).map Prod.snd

/-- Source: `ResetPendingTxs` -/
def resetPendingTxs (s : Pool P) (txs : List Transaction) :
    Option (Pool P) :=
  txs.tail.foldlM (fun s tx => s.resetPendingTx c e tx) s

/-- Source: `DiscardTxs` -/
def discardTxs (s : Pool P) (hashs : List Hash) : Pool P :=
  hashs.foldl discardTx s

/-- Source: `SendStoredTxs`, `RemoveTxs` -/
def sendStoredTxs (s : Pool P) (hashs : List Hash) : Pool P :=
  hashs.foldl removeTx s

/-- Source: `RemoveTransaction` -/
def removeTransactionByHash (s : Pool P) (hash : Hash) (removeRedeemers : Bool) : Pool P :=
  match s.all.lookup hash with
  | some t => s.go (.removeTransaction t removeRedeemers)
  | none => s.go (.removeTx hash)

/-- Starts the removal of all that spends an outpoint of a transaction.
Source: `RemoveDoubleSpends` -/
def removeDoubleSpends (s : Pool P) (tx : Transaction) : Option (Pool P) := do
  let msgs ← tx.txMessages
  let ops ← (msgs.flatMap fun m => m.inputs.map Input.previousOutPoint).mapM fun op => op
  some (ops.foldl (fun s op => match s.outpoints.lookup op with
    | none => s
    | some t => s.go (.removeTransaction t true)) s)

/-- One orphan of the scan: it goes if it is expired, and is added if it is ready. `add` refuses
it unless it has just gone. -/
def scanOrphan (s : Pool P) (t : TxPoolTransaction P) :
    Option (Pool P) :=
  (if (s.status t).expiration < e.now then s.removeOrphan t true else some s).bind fun s =>
    (s.validateOrphanTx e t).bind fun
      | .known => (s.add c e t).map Prod.snd
      | _ => some s

/-- The scan of the orphans, when it is time.
Source: `limitNumberOrphans`, first part -/
def scanOrphans (s : Pool P) : Option (Pool P) :=
  if s.nextExpireScan < e.now then
    ((e.range (values s.orphans)).foldlM (scanOrphan c e) s).map fun s =>
      { s with nextExpireScan := e.now + c.orphanTTL }
  else some s

/-- Removes the expired orphans, and one of those there were if there are too many.
Source: `limitNumberOrphans` -/
def limitNumberOrphans (s : Pool P) : Option (Pool P) :=
  (s.scanOrphans c e).bind fun s' =>
    if s'.orphans.entries.length + 1 ≤ c.maxOrphanTxs then some s'
    else match e.range (values s.orphans) with
      | [] => some s'
      | t :: _ => s'.removeOrphan t false

/-! ### The transactions for a new unit -/

/-- The pool transactions whose outputs a transaction spends, each behind its own ones. An input
whose output the ledger has, or whose transaction is unknown or pending, is passed over.
Source: `getPrecusorTxs` -/
def getPrecusorTxs (e : Env P) (s : Pool P) : Nat → TxPoolTransaction P →
    Option (List (TxPoolTransaction P))
  | 0, _ => none
  | fuel + 1, t => t.inputs.foldlM (fun pretxs op =>
    if (e.getUtxoEntry op).isSome then some pretxs
    else match (s.all.lookup op.txHash).or (s.orphans.lookup op.txHash) with
      | none => some pretxs
      | some queueTx =>
        if (s.status queueTx).pending then some pretxs
        else (getPrecusorTxs e s fuel queueTx).map fun list => pretxs ++ list ++ [queueTx]) []

/-- A chain of precursors without a repetition is not longer than the pool. -/
def precusorFuel (s : Pool P) : Nat :=
  s.all.entries.length + s.orphans.entries.length + 1

/-- The sizes of some transactions. -/
def sizes (ts : List (TxPoolTransaction P)) : Option Nat :=
  (ts.mapM fun t : TxPoolTransaction P => t.tx.size).map List.sum

/-- The loop over the priority list; `start` is the pool at the start of the call, whose tables
are read. The loop ends when its time is up, the unit is full or the list is empty.
Source: `GetSortedTxs`, first loop -/
def takeItems (e : Env P) (start : Pool P) : Nat → Pool P → List (TxPoolTransaction P) → Nat →
    Option (Pool P × List (TxPoolTransaction P) × Nat)
  | 0, s, list, total => some (s, list, total)
  | passes + 1, s, list, total =>
    if total ≥ e.unitMaxSize then some (s, list, total)
    else match s.get with
      | (none, s) => some (s, list, total)
      | (some t, s) =>
        if e.isTransactionExist t.hash then takeItems e start passes s list total
        else do
          let pretxs ← start.getPrecusorTxs e start.precusorFuel t
          let size ← sizes (pretxs ++ [t])
          takeItems e start passes s (list ++ pretxs ++ [t]) (total + size)

/-- The loop over the orphans: those that are ready are taken into the pool and the list.
Source: `GetSortedTxs`, second loop -/
def takeOrphans (e : Env P) (unitHash : Hash) (index : Nat) : List (TxPoolTransaction P) →
    Pool P → List (TxPoolTransaction P) → Nat →
    Option (Pool P × List (TxPoolTransaction P) × Nat)
  | [], s, list, total => some (s, list, total)
  | t :: orphans, s, list, total =>
    if e.isTransactionExist t.hash then
      takeOrphans e unitHash index orphans { s with orphans := s.orphans.erase t.hash } list total
    else do
      match ← s.validateOrphanTx e t with
      | .known => do
          let s := s.set t fun st =>
            { st with pending := true, unitHash, unitIndex := index, isOrphan := false }
          let s := { s with all := s.all.insert t.hash t, orphans := s.orphans.erase t.hash }
          let size ← t.tx.size
          if total + size > e.unitMaxSize then some (s, list ++ [t], total + size)
          else takeOrphans e unitHash index orphans s (list ++ [t]) (total + size)
      | _ => takeOrphans e unitHash index orphans s list total

/-- The object that stands for a hash: the last one of the list. -/
def lastOf (list : List (TxPoolTransaction P)) (t : TxPoolTransaction P) : TxPoolTransaction P :=
  (list.reverse.find? fun t' => t'.hash = t.hash).getD t

-- pins the instance that decides `∈`
local instance : LawfulBEq Hash := inferInstance

/-- Keeps the first place of each hash. What the ledger has is left out and deleted, the rest is
promoted, both later.
Source: `GetSortedTxs`, the loops behind `m` and `indexL` -/
def distinctTxs (e : Env P) (unitHash : Hash) (number : Nat) (list : List (TxPoolTransaction P)) :
    List (TxPoolTransaction P × Nat) → List Hash → Pool P → List (TxPoolTransaction P) × Pool P
  | [], _, s => ([], s)
  | (t, i) :: rest, seen, s =>
    if t.hash ∈ seen then distinctTxs e unitHash number list rest seen s
    else if e.isTransactionExist t.hash then
      distinctTxs e unitHash number list rest (t.hash :: seen) (s.go (.deleteTxByHash t.hash))
    else
      let t := lastOf list t
      let (txs, s) := distinctTxs e unitHash number list rest (t.hash :: seen)
        (s.go (.promoteTx unitHash t number i))
      (t :: txs, s)

/-- Numbers the objects of the list. -/
def setIndexes (s : Pool P) (list : List (TxPoolTransaction P)) : Pool P :=
  list.zipIdx.foldl (fun s (t, i) => s.set t fun st => { st with index := i }) s

/-- The transactions to put in a unit: the sequential ones, those of the priority list behind
their precursors, and the orphans that are ready.
Source: `GetSortedTxs` -/
def getSortedTxs (s : Pool P) (unitHash : Hash) (index : Nat) :
    Option ((List (TxPoolTransaction P) × Nat) × Pool P) := do
  let total ← sizes s.sequenTxs
  let (s', list, total) ← takeItems e s e.passes { s with sequenTxs := [] } s.sequenTxs total
  let orList := e.sortOrphans (e.range (values s.orphans))
  let (s', list, total) ← takeOrphans e unitHash index orList s' list total
  let (txs, s') := distinctTxs e unitHash index list list.zipIdx [] (s'.setIndexes list)
  some ((txs, total), s')

/-- Counting the sequential transactions takes them from their queue.
Source: `stats`; `txspool/types.go`, `All` -/
def stats (s : Pool P) : Pool P :=
  { s with sequenTxs := [] }

/-! ### Runs -/

/-- Runs a goroutine. -/
def runTask (s : Pool P) : Task P → Option (Pool P)
  | .put t => some (s.put e t)
  | .removeTransaction t removeRedeemers => removeTransaction s.removeFuel s t removeRedeemers
  | .removeTx hash => some (s.removeTx hash)
  | .deleteTxByHash hash => some (s.deleteTxByHash e hash)
  | .promoteTx unitHash t number index => s.promoteTx e unitHash t number index

end ZwsChain.TxsPool.Pool

namespace ZwsChain.TxsPool

variable {P : Primitives}

/-- The calls of the pool, its timers, and the goroutines it has started. -/
inductive Op (P : Primitives) where
  | addLocal (tx : Transaction)
  | addRemote (tx : Transaction)
  /-- `AddLocals` and `AddRemotes`. -/
  | addTxs (txs : List Transaction)
  | processTransaction (tx : Transaction)
  /-- `AddSequenTx` and `AddSequenTxs`. -/
  | addSequenTxs (txs : List Transaction)
  | setPendingTxs (unitHash : Hash) (num : Nat) (txs : List Transaction)
  | resetPendingTxs (txs : List Transaction)
  | discardTxs (hashs : List Hash)
  | sendStoredTxs (hashs : List Hash)
  | removeTransaction (hash : Hash) (removeRedeemers : Bool)
  | removeDoubleSpends (tx : Transaction)
  | removeOrphan (t : TxPoolTransaction P)
  | deleteTxByHash (hash : Hash)
  | deleteTx
  | limitNumberOrphans
  | getSortedTxs (unitHash : Hash) (index : Nat)
  /-- `Stats`, and the timer of the report. -/
  | stats
  /-- Runs the goroutine at a place of the list. -/
  | goroutine (i : Nat)

namespace Pool

/-- One call; a goroutine that does not exist changes nothing. -/
def step (c : Config) (e : Env P) (s : Pool P) : Op P → Option (Pool P)
  | .addLocal tx => (s.addLocal c e tx).map Prod.snd
  | .addRemote tx => (s.addRemote c e tx).map Prod.snd
  | .addTxs txs => (s.addTxs c e txs).map Prod.snd
  | .processTransaction tx => (s.processTransaction c e tx).map Prod.snd
  | .addSequenTxs txs => (s.addSequenTxs e txs).map Prod.snd
  | .setPendingTxs unitHash num txs => s.setPendingTxs e unitHash num txs
  | .resetPendingTxs txs => s.resetPendingTxs c e txs
  | .discardTxs hashs => some (s.discardTxs hashs)
  | .sendStoredTxs hashs => some (s.sendStoredTxs hashs)
  | .removeTransaction hash removeRedeemers => some (s.removeTransactionByHash hash removeRedeemers)
  | .removeDoubleSpends tx => s.removeDoubleSpends tx
  | .removeOrphan t => s.removeOrphan t false
  | .deleteTxByHash hash => some (s.deleteTxByHash e hash)
  | .deleteTx => some (s.deleteTx c e)
  | .limitNumberOrphans => s.limitNumberOrphans c e
  | .getSortedTxs unitHash index => (s.getSortedTxs e unitHash index).map Prod.snd
  | .stats => some s.stats
  | .goroutine i => match s.goroutines[i]? with
    | none => some s
    | some task => { s with goroutines := s.goroutines.eraseIdx i }.runTask e task

/-- A run of calls, each with what the pool reads at it. -/
def run (c : Config) (s : Pool P) (calls : List (Env P × Op P)) : Option (Pool P) :=
  calls.foldlM (fun s call => s.step c call.1 call.2) s

end Pool

end ZwsChain.TxsPool
