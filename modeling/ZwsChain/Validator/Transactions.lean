import ZwsChain.Validator.Coinbase
import ZwsChain.Validator.Tx

/-!
# Validation of the transactions of a unit

`validator/validator.go`, `validateTransactions`. The first transaction is the coinbase, which is
checked last against the fees of the others. Each other transaction is validated on the store
with the outputs of its predecessors laid over it, unless the validator's cache knows its id;
then the outpoints it spends are compared with those spent before.

That comparison is by identity: the map `spendOutpointMap` has pointers as keys. An outpoint of
an input is identified by the transaction object it belongs to and its place there (`Ref`); an
outpoint in place of the own-hash mark is built anew for each call and equals none.
Sources without a file are in `validator/validator.go`.
-/

namespace ZwsChain

open TxScript (SigState)

/-- The cached verdicts: the fee allocations of transactions found valid, as the cache returns
them.
Source: `validator/validator_cache.go`, `ValidatorCache`, prefix `VT` -/
abbrev ValidatorCache := Hash → Option (List Addition)

/-- The identity of the outpoint of an input: the transaction object and the place among the
outpoints it spends. -/
abbrev Ref := Nat × Nat

/-- What the validation of a unit depends on besides the queries of the validator. -/
structure UnitContext where
  /-- `parameter.CurrentSysParameters.GenerateUnitReward`. -/
  generateUnitReward : UInt64
  /-- What a failed decoding of a list of amounts leaves in the list. -/
  ofMalformed : Bytes → List AmountAsset
  /-- A fee allocation after a round trip through JSON; `none` if it cannot be read. -/
  reread : List Addition → Option (List Addition)
  /-- The order in which a Go map of additions is iterated. -/
  iterate : List Addition → List Addition
  /-- The transaction object at an index of the list. -/
  object : Nat → Nat

/-- The variables of the loop over transactions, with the validator's caches.
Source: `validateTransactions` -/
structure UnitState where
  ads : List Addition
  /-- The latest entry of an outpoint comes first. -/
  unitUtxo : List (OutPoint × Utxo)
  spendOutpointMap : List Ref
  cache : ValidatorCache
  sigs : SigState

/-- The outpoints that the inputs of a message name. -/
def Message.outPoints : Message → List OutPoint
  | .payment p => p.inputs.filterMap Input.previousOutPoint
  | _ => []

namespace Validate

variable (V : Validate) (C : UnitContext)

/-- The validator with the outputs of the unit laid over the store.
Source: `newUtxoQuery` -/
def withUnitUtxo (unitUtxo : List (OutPoint × Utxo)) : Validate :=
  { V with getUtxoEntry := fun op => (unitUtxo.lookup op).or (V.getUtxoEntry op) }

/-- Source: `validateTxAndCache` of a full transaction -/
def validateTxAndCache (tx : Transaction) (cache : ValidatorCache) (sigs : SigState) :
    Option (TxResult × ValidatorCache) := do
  let txId ← tx.hash V.P
  match cache txId with
  | some add => some (⟨.valid, add, sigs⟩, cache)
  | none => do
      let r ← V.validateTx tx true sigs
      if r.code = .valid then some (r, Function.update cache txId (C.reread r.txFee))
      else some (r, cache)

/-- The identities of the outpoints a transaction spends, with their values.
Source: `dag/modules/transaction.go`, `GetSpendOutpoints` -/
def spendRefs (tx : Transaction) (txIndex : Nat) (ops : List OutPoint) :
    List (Option Ref × OutPoint) :=
  ((tx.messages.flatMap Message.outPoints).zipIdx.map fun (op, place) =>
    if op.txHash.isSelfHash then none else some (C.object txIndex, place)).zip ops

/-- Source: `validateTransactions`, the loop for double spends -/
def checkSpends : List (Option Ref × OutPoint) → List Ref → Except ValidationCode (List Ref)
  | [], spent => .ok spent
  | (ref, op) :: rest, spent =>
    if ref.any fun r => spent.contains r then .error .invalidDoubleSpend
    else if (V.getStxoEntry op).isSome then .error .invalidDoubleSpend
    else checkSpends rest (ref.toList ++ spent)

/-- The mediator's part of a fee goes to the author of the unit.
Source: `validateTransactions` -/
def toAuthor (unitAuthor : Address) (a : Addition) : Addition :=
  if a.addr = FixedBytes.zero 21 then { a with addr := unitAuthor } else a

/-- A transaction that is not the coinbase.
Source: `validateTransactions`, loop body -/
def validateUnitTx (unitAuthor : Address) (tx : Transaction) (txIndex : Nat) (s : UnitState) :
    Option (Except ValidationCode UnitState) := do
  let (r, cache) ← (V.withUnitUtxo s.unitUtxo).validateTxAndCache C tx s.cache s.sigs
  if r.code ≠ .valid then some (.error r.code)
  else do
    let ops ← tx.getSpendOutpoints V.P
    match V.checkSpends (spendRefs C tx txIndex ops) s.spendOutpointMap with
    | .error code => some (.error code)
    | .ok spendOutpointMap => do
        let newUtxos ← tx.getNewUtxos V.P
        some <| .ok {
          ads := s.ads ++ r.txFee.map (toAuthor unitAuthor)
          unitUtxo := newUtxos.reverse ++ s.unitUtxo
          spendOutpointMap
          cache
          sigs := r.sigs }

/-- The loop over the transactions.
Source: `validateTransactions`, loop -/
def validateUnitTxs (unitAuthor : Address) :
    List (Transaction × Nat) → UnitState → Option (Except ValidationCode UnitState)
  | [], s => some (.ok s)
  | (tx, txIndex) :: rest, s => do
      let _ ← tx.hash V.P
      let isExist ← V.checkTxIsExist tx
      if isExist then some (.error .duplicateTxid)
      else if txIndex = 0 then validateUnitTxs unitAuthor rest s
      else do
        match ← V.validateUnitTx C unitAuthor tx txIndex s with
        | .error code => some (.error code)
        | .ok s => validateUnitTxs unitAuthor rest s

/-- What the coinbase is compared with: the fees and the reward for the unit.
Source: `validateTransactions`, after the loop -/
def unitAdditions (unitAuthor : Address) (ads : List Addition) : List Addition :=
  C.iterate (arrangeAdditionFeeList (ads ++ [⟨unitAuthor, C.generateUnitReward, newPTNAsset⟩]))

/-- The time of the main net upgrade; coinbases of older units are not checked. -/
def mainNetUpgrade : Int :=
  1564675200

/-- Source: `validateTransactions` -/
def validateTransactions (txs : List Transaction) (unitTime : Int) (unitAuthor : Address)
    (cache : ValidatorCache) (sigs : SigState) : Option ValidationCode := do
  match ← V.validateUnitTxs C unitAuthor txs.zipIdx ⟨[], [], [], cache, sigs⟩ with
  | .error code => some code
  | .ok s =>
    match txs with
    | [] => some .valid
    | coinbase :: _ =>
      if unitTime > mainNetUpgrade then
        V.validateCoinbase C.ofMalformed coinbase (unitAdditions C unitAuthor s.ads)
      else some .valid

end Validate

end ZwsChain
