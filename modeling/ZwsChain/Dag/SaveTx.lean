import ZwsChain.Dag.StateDb

/-!
# Saving a transaction

`saveTx4Unit` of `dag/common/unit_repository.go`: it applies the messages of a transaction to the
database, one after the other. An error ends it, and what was written before stays written.

A result is a pair of the code's success and the database; `none` is a runtime panic (a template
without an install request, a system contract's result whose first request is not an invocation).
Sources without a file are in `dag/common/unit_repository.go`.
-/

namespace ZwsChain

open TxScript (getAddressFromScript)

/-- The deposit contract.
Source: `contracts/syscontract/syscontract.go`, `DepositContractAddress` -/
def depositContractAddress : Address :=
  newAddress (List.replicate 19 0 ++ [1]) .contractHash

/-- The unit a transaction is saved in.
Source: `dag/modules/unit.go`, `Unit` -/
structure UnitInfo where
  number : ChainIndex
  timestamp : UInt64

/-- A repository: the primitives, the juror record that an application of a mediator of the first
version makes (from its argument and the time: the address text and the record), and whether the
empty contract id of a deploy result is a nil slice, as in the result of a failed deployment that
this node has made. The wire format does not tell the two apart.
Source: `UnitRepository`; `dag/storage/statedb_contract.go`,
`UpdateStateByContractInvoke` -/
structure UnitRepository where
  P : Primitives
  oldMediatorJuror : Bytes → UInt64 → Option (Bytes × Bytes)
  nilContractId : Transaction → Nat → Bool

namespace UnitRepository

variable (rep : UnitRepository)

/-! ### Payments -/

/-- Source: `dag/common/utxo_repository.go`, `destroyUtxo` -/
def destroyUtxo (txid : Hash) : List Input → Db → Bool × Db
  | [], db => (true, db)
  | txin :: rest, db =>
    match txin.previousOutPoint with
    | none => destroyUtxo txid rest db
    | some op =>
      let op := if op.txHash.isSelfHash then { op with txHash := txid } else op
      match db.getUtxoEntry op with
      | none => (false, db)
      | some _ => destroyUtxo txid rest (db.deleteUtxo op txid)

/-- An output to the zero address is destroyed.
Source: `dag/common/utxo_repository.go`, `writeUtxo` -/
def writeUtxo (txHash : Hash) (msgIndex : Nat) (lockTime : UInt32) (txouts : List Output)
    (db : Db) : Db :=
  txouts.zipIdx.foldl (fun db (txout, outIndex) =>
    let sAddr := (getAddressFromScript rep.P txout.pkScript).getD (FixedBytes.zero 21)
    if sAddr = FixedBytes.zero 21 then db
    else db.saveUtxoEntity ⟨txHash, UInt32.ofNat msgIndex, UInt32.ofNat outIndex⟩
      (Transaction.utxoOfOutput lockTime txout)) db

/-- Source: `dag/common/utxo_repository.go`, `UpdateUtxo` -/
def updateUtxo (txHash : Hash) (msgIndex : Nat) (payment : PaymentPayload) (db : Db) :
    Bool × Db :=
  match destroyUtxo txHash payment.inputs db with
  | (false, db) => (false, db)
  | (true, db) => (true, rep.writeUtxo txHash msgIndex payment.lockTime payment.outputs db)

/-! ### Contract results -/

/-- The variables of the loop over messages. -/
structure SaveState where
  db : Db
  templateId : Bytes
  installReq : Option ContractInstallRequestPayload

/-- Source: `dag/modules/contract.go`, `NewContract` -/
def newContract (templateId : Bytes) (deploy : ContractDeployPayload) (creator : Address)
    (unitTime : UInt64) (version : Bytes) : Contract where
  contractId := deploy.contractId
  templateId := templateId
  name := deploy.name
  status := 1
  creator := creator.bytes
  creationTime := unitTime
  duringTime := deploy.duringTime
  version := version

/-- Source: `saveContractInitPayload` -/
def saveContractInitPayload (isNil : Bool) (unit : UnitInfo) (txIndex : UInt32)
    (templateId : Bytes) (payload : ContractDeployPayload) (requester : Address) (db : Db) :
    Bool × Db :=
  if payload.contractId = [] ∧ isNil then (true, db) else
  let version : StateVersion := ⟨some unit.number, txIndex⟩
  let db := db.saveContractStates payload.contractId payload.writeSet version
  let tplVersion : Option Bytes :=
    if templateId.length = 0 then some []
    else (db.getContractTpl templateId).map ContractTemplate.version
  match tplVersion with
  | none => (false, db)
  | some v =>
    let contract := newContract templateId payload requester unit.timestamp v
    let db := db.saveContract contract
    if payload.eleNode.eleList.isEmpty then (true, db)
    else
      let db := db.saveContractJury payload.contractId payload.eleNode version
      (true, payload.eleNode.eleList.foldl
        (fun db node => db.saveContractWithJuryAddr node.addrHash contract) db)

/-- Applications of old mediators write their juror record into the deposit contract's state.
Source: `dag/storage/statedb_contract.go`, `UpdateStateByContractInvoke` -/
def updateStateByContractInvoke (invoke : ContractInvokeRequestPayload) (unitTime : UInt64)
    (version : StateVersion) (db : Db) : Option Db :=
  if newAddress invoke.contractId .contractHash ≠ depositContractAddress then some db
  else match invoke.args with
    | [] => none
    | fn :: args =>
      if fn = ascii "ApplyBecomeMediator" then
        match args with
        | [] => none
        | arg :: _ =>
          match rep.oldMediatorJuror arg unitTime with
          | none => some db
          | some (addr, juror) => some <| db.saveContractState depositContractAddress.bytes
              version ⟨false, ascii "djbp" ++ addr, juror, []⟩
      else if fn = ascii "UpdateMediatorInfo" ∧ args.isEmpty then none
      else some db

variable (tx : Transaction)

/-- Source: `saveContractInvokePayload` -/
def saveContractInvokePayload (unit : UnitInfo) (txIndex : UInt32)
    (payload : ContractInvokePayload) (db : Db) : Option (Bool × Db) :=
  let version : StateVersion := ⟨some unit.number, txIndex⟩
  let db := db.saveContractStates payload.contractId payload.writeSet version
  if isSystemContractId payload.contractId && payload.errMsg.code = 0 then
    match tx.getRequestMsgIndex with
    -- a result without a request: the genesis transaction
    | none => some (true, db)
    | some reqIndex =>
      match tx.messages[reqIndex]? with
      | some (.contractInvokeRequest invoke) =>
        (rep.updateStateByContractInvoke invoke unit.timestamp version db).map (true, ·)
      | _ => none
  else some (true, db)

/-- A stopped contract's record gets the status 0.
Source: `saveContractStop` -/
def saveContractStop (stop : ContractStopPayload) (db : Db) : Bool × Db :=
  match db.getContract stop.contractId with
  | none => (false, db)
  | some contract => (true, db.saveContract { contract with status := 0 })

/-- Source: `dag/modules/contract_tpl.go`, `NewContractTemplate` -/
def newContractTemplate (req : ContractInstallRequestPayload) (tpl : ContractTplPayload) :
    ContractTemplate where
  tplId := tpl.templateId
  tplName := req.tplName
  tplDescription := req.tplDescription
  path := req.path
  version := req.version
  abi := req.abi
  language := req.language
  addrHash := req.addrHash
  size := UInt16.ofNat tpl.byteCode.length
  creator := req.creator

/-! ### The loop over messages -/

/-- One message.
Source: `saveTx4Unit`, loop body -/
def saveMsg (unit : UnitInfo) (txIndex : Nat) (tx : Transaction) (txHash : Hash)
    (requester : Address) (msgIndex : Nat) (msg : Message) (s : SaveState) :
    Option (Bool × SaveState) :=
  match msg with
  | .payment p =>
    let (ok, db) := rep.updateUtxo txHash msgIndex p s.db
    some (ok, { s with db })
  | .contractTpl p => s.installReq.map fun req =>
    (true, { s with db := s.db.saveContractTpl (newContractTemplate req p) })
  | .contractDeploy p =>
    let (ok, db) := saveContractInitPayload (rep.nilContractId tx msgIndex) unit
      (UInt32.ofNat txIndex) s.templateId p requester s.db
    some (ok, { s with db })
  | .contractInvoke p =>
    (rep.saveContractInvokePayload tx unit (UInt32.ofNat txIndex) p s.db).map fun (ok, db) =>
      (ok, { s with db })
  | .contractStop p =>
    let (ok, db) := saveContractStop p s.db
    some (ok, { s with db })
  | .contractTplRequest p => some (true, { s with installReq := some p })
  | .contractDeployRequest p => some (true, { s with templateId := p.templateId })
  -- these are stored in tables of their own that the modelled functions do not read
  | .contractInvokeRequest _ | .contractStopRequest _ | .signature _ | .data _
  | .accountUpdate _ => some (true, s)
  | .unknown _ => some (false, s)

/-- The messages of an illegal transaction are only saved up to its request.
Source: `saveTx4Unit`, the test in front of the switch -/
def skipsMsg (msgIndex : Nat) : Bool :=
  tx.illegal && !tx.getRequestMsgIndex.any (msgIndex ≤ ·)

/-- The loop over messages.
Source: `saveTx4Unit` -/
def saveMsgs (unit : UnitInfo) (txIndex : Nat) (tx : Transaction) (txHash : Hash)
    (requester : Address) : List (Message × Nat) → SaveState → Option (Bool × SaveState)
  | [], s => some (true, s)
  | (msg, msgIndex) :: rest, s =>
    if skipsMsg tx msgIndex then some (true, s)
    else match rep.saveMsg unit txIndex tx txHash requester msgIndex msg s with
      | none => none
      | some (false, s) => some (false, s)
      | some (true, s) => saveMsgs unit txIndex tx txHash requester rest s

/-- Source: `GetTxRequesterAddress` -/
def getTxRequesterAddress (db : Db) : Option (Option Address) :=
  TxScript.getTxRequesterAddress rep.P db.getUtxoEntry tx

/-- The coinbase transaction at index 0 has no requester.
Source: `saveTx4Unit`, first lines -/
def requesterOf (txIndex : Nat) (tx : Transaction) (db : Db) : Option (Option Address) :=
  if txIndex > 0 then rep.getTxRequesterAddress tx db else some (some (FixedBytes.zero 21))

/-- Saves a transaction of a unit.
Source: `saveTx4Unit` -/
def saveTx4Unit (unit : UnitInfo) (txIndex : Nat) (tx : Transaction) (db : Db) :
    Option (Bool × Db) := do
  match ← rep.requesterOf txIndex tx db with
  | none => some (false, db)
  | some requester => do
      let txHash ← tx.hash rep.P
      let _ ← tx.requestHash rep.P
      let msgs ← tx.txMessages
      let (ok, s) ← rep.saveMsgs unit txIndex tx txHash requester msgs.zipIdx ⟨db, [], none⟩
      some (ok, s.db)

end UnitRepository

end ZwsChain
