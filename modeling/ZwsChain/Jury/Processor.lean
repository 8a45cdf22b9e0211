import ZwsChain.Validator.Tx

/-!
# Running contract requests again

`consensus/jury`: the processor of a node runs the request of a transaction (`runContractCmd`),
builds the transaction that the run results in (`genContractTransaction`) and, as part of
validation on a mediator's node, compares a received result with its own
(`contractTxCheckForValidator`).

Contract code itself is not modelled: what an execution returns is a function of the arguments it
is given, one field of `Processor` per kind of request. The field `mtx` is the processor's cache
of results by request id, which is the only state the check changes.

`none` is a runtime panic, `CmdError` an error return.
Sources without a file are in `consensus/jury/common.go`.
-/

namespace ZwsChain

/-! ### Requests and results -/

/-- Source: `dag/modules/message.go`, `InvokeTokens` -/
structure InvokeTokens where
  amount : UInt64
  asset : Asset
  address : Bytes

/-- Source: `dag/modules/message.go`, `InvokeInfo` -/
structure InvokeInfo where
  invokeAddress : Address
  invokeTokens : List InvokeTokens
  invokeFees : Option AmountAsset

/-- What running an invoke request gives. An error is its text.
Source: `dag/modules/message.go`, `ContractInvokeResult` -/
structure ContractInvokeResult where
  contractId : Bytes
  readSet : List ContractReadSet
  writeSet : List ContractWriteSet
  payload : Bytes
  /-- The payouts of the result for a request transaction.
  Source: `consensus/jury/invokeresult.go`, `resultToContractPayments` -/
  contractPayments : Transaction → Except Bytes (List PaymentPayload)
  /-- The minting payments of the result.
  Source: `consensus/jury/invokeresult.go`, `resultToCoinbase` -/
  coinbases : Except Bytes (List PaymentPayload)

/-- The error returns of the functions below. -/
inductive CmdError where
  | emptyTx
  | noRequest
  | addrByOutPoint
  | lockScript
  | txFee (e : Transaction.FeeError)
  | reqArgs
  /-- A failed execution, when error messages are not enabled. -/
  | execution (text : Bytes)
  /-- A transaction of fewer than two messages, or no messages to add. -/
  | genContractTransction
  deriving DecidableEq

/-- The cached results of requests, by request id.
Source: `consensus/jury/service.go`, `Processor.mtx`, the fields `rstTx` -/
abbrev Cache := Hash → Option Transaction

/-- The processor of a node.
Source: `consensus/jury/service.go`, `Processor` -/
structure Processor where
  V : Validate
  localHaveActiveMediator : Bool
  errMsgEnable : Bool
  getTxHashByReqId : Hash → Option Hash
  /-- The unspent outputs of the node's own chain state. -/
  getUtxoEntry : OutPoint → Option Utxo
  install : ContractInstallRequestPayload → Except Bytes ContractTplPayload
  /-- Template, request id, arguments and timeout. -/
  deploy : Bytes → Hash → List Bytes → UInt32 → Except Bytes ContractDeployPayload
  /-- Contract, request id, arguments and timeout. -/
  invoke : Bytes → Hash → List Bytes → UInt32 → Except Bytes ContractInvokeResult
  /-- Contract, request id and whether the image goes. -/
  stop : Bytes → Hash → Bool → Except Bytes ContractStopPayload
  /-- `json.Marshal` of the information about the caller. -/
  marshalInvokeInfo : InvokeInfo → Bytes
  getAddressFromUnlockScript : Bytes → Option Address
  /-- The time a deployed contract is paid for; `none` is an error.
  Source: `calculateContractDeployDuringTime` -/
  calculateContractDeployDuringTime : Transaction → Option UInt64
  mtx : Cache

/-- Whether a message is one of the four contract requests. -/
def Message.isContractRequest (m : Message) : Bool :=
  100 ≤ m.app && m.app ≤ 103

/-- The payload of an invoke result. -/
def Message.invokePayload : Message → Option ContractInvokePayload
  | .contractInvoke p => some p
  | _ => none

namespace Processor

/-- Source: `getContractTxType` -/
def getContractTxType (tx : Transaction) : Option UInt8 :=
  (tx.messages.find? Message.isContractRequest).map Message.app

variable (Q : Processor)

/-! ### Error results -/

variable (tx : Transaction)

/-- The result message of a failed request. For a template the code puts the request into the
result message, whose first copy is a nil-pointer panic.
Source: `createContractErrorPayloadMsg` -/
def createContractErrorPayloadMsg (errIn : Bytes) : Option Message := do
  let reqType ← getContractTxType tx
  let msgs ← tx.txMessages
  match msgs.find? fun m => m.app = reqType with
  | some (.contractDeployRequest _) =>
    some (.contractDeploy ⟨[], [], [], [], ⟨0, []⟩, [], [], 0, ⟨500, errIn⟩⟩)
  | some (.contractInvokeRequest req) =>
    some (.contractInvoke ⟨req.contractId, [], [], [], [], ⟨500, errIn⟩⟩)
  | some (.contractStopRequest req) =>
    some (.contractStop ⟨req.contractId, [], [], ⟨500, errIn⟩⟩)
  | _ => none

/-- The refund of one output in front of the request; `some none` is the code's `return nil`.
Source: `contractPayBack`, inner loop body -/
def payBackOutput (addr : Bytes) (msgIdx : Nat) (payment : PaymentPayload) (out : Output)
    (outIdx : Nat) : Option (Option (List Message)) :=
  match TxScript.getAddressFromScript Q.V.P out.pkScript with
  | none => some none
  | some toAddr =>
    if toAddr.bytes ≠ addr then some (some [])
    else match payment.inputs with
      | [] => none
      | input :: _ =>
        some <| (Q.getAddressFromUnlockScript input.signatureScript).map fun fromAddr =>
          [.payment {
            inputs :=
              [⟨[], [], some ⟨newSelfHash, UInt32.ofNat msgIdx, UInt32.ofNat outIdx⟩⟩]
            outputs := [⟨out.value, TxScript.generateLockScript fromAddr, out.asset⟩]
            lockTime := 0 }]

/-- Source: `contractPayBack`, inner loop -/
def payBackOutputs (addr : Bytes) (msgIdx : Nat) (payment : PaymentPayload) :
    List (Output × Nat) → Option (Option (List Message))
  | [] => some (some [])
  | (out, outIdx) :: rest => do
      match ← Q.payBackOutput addr msgIdx payment out outIdx with
      | none => some none
      | some messages => do
          let more ← payBackOutputs addr msgIdx payment rest
          some (more.map (messages ++ ·))

/-- Source: `contractPayBack`, outer loop -/
def payBackMsgs (addr : Bytes) : List (Message × Nat) → Option (Option (List Message))
  | [] => some (some [])
  | (msg, msgIdx) :: rest =>
    if msg.isRequest then some (some [])
    else match msg with
      | .payment payment => do
          match ← Q.payBackOutputs addr msgIdx payment payment.outputs.zipIdx with
          | none => some none
          | some messages => do
              let more ← payBackMsgs addr rest
              some (more.map (messages ++ ·))
      | _ => payBackMsgs addr rest

/-- The refunds of what the payments in front of the request paid to the contract.
Source: `contractPayBack` -/
def contractPayBack (addr : Bytes) : Option (List Message) := do
  let msgs ← tx.txMessages
  let messages ← Q.payBackMsgs addr msgs.zipIdx
  some (messages.getD [])

/-- Source: `genContractErrorMsg` -/
def genContractErrorMsg (errIn : Bytes) (errMsgEnable : Bool) :
    Option (Except CmdError (List Message)) :=
  if !errMsgEnable then some (.error (.execution errIn))
  else do
    let errMsg ← createContractErrorPayloadMsg tx errIn
    let addr ← tx.getContractId Q.V.P
    let paybacks ← Q.contractPayBack tx addr
    some (.ok (errMsg :: paybacks))

/-! ### Arguments -/

/-- Source: `dag/dag.go`, `GetAddrByOutPoint` -/
def getAddrByOutPoint (outPoint : OutPoint) : Option Address := do
  let utxo ← Q.getUtxoEntry outPoint
  TxScript.getAddressFromScript Q.V.P utxo.pkScript

/-- The outputs that do not go back to the caller; `none` if a lock script does not parse.
Source: `handleMsg0`, loop -/
def invokeTokens (invokeAddr : Address) (outputs : List Output) : Option (List InvokeTokens) := do
  let addressed ← outputs.mapM fun output =>
    (TxScript.getAddressFromScript Q.V.P output.pkScript).map fun addr => (addr, output)
  some <| (addressed.filter fun x => x.1 ≠ invokeAddr).map fun (addr, output) =>
    ⟨output.value, output.asset, addr.str Q.V.P⟩

/-- Puts the information about the caller in front of the arguments. The outputs are those of
all payments of the transaction, the ones of its result included.
Source: `handleMsg0` -/
def handleMsg0 (reqArgs : List Bytes) :
    Option (Except CmdError (List Bytes)) := do
  let msgs ← tx.txMessages
  match msgs with
  | [] => some (.ok (Q.marshalInvokeInfo ⟨FixedBytes.zero 21, [], none⟩ :: reqArgs))
  | .payment ⟨⟨_, _, some outPoint⟩ :: _, _, _⟩ :: _ =>
    match Q.getAddrByOutPoint outPoint with
    | none => some (.error .addrByOutPoint)
    | some invokeAddr =>
      match Q.invokeTokens invokeAddr (msgs.flatMap Message.outputs) with
      | none => some (.error .lockScript)
      | some invokeTokens => do
          match ← tx.getTxFee Q.getUtxoEntry with
          | .error e => some (.error (.txFee e))
          | .ok invokeFees =>
            some (.ok (Q.marshalInvokeInfo ⟨invokeAddr, invokeTokens, some invokeFees⟩ :: reqArgs))
  -- message 0 is no payment, has no input or its input has no outpoint
  | _ => none

/-- Puts the certificate id behind the first argument.
Source: `handleArg1` -/
def handleArg1 : List Bytes → Except CmdError (List Bytes)
  | arg0 :: arg1 :: rest => .ok (arg0 :: tx.certId :: arg1 :: rest)
  | _ => .error .reqArgs

/-! ### Running a request -/

/-- Source: `runContractCmd`, case `APP_CONTRACT_TPL_REQUEST` -/
def runInstall (reqPay : ContractInstallRequestPayload) :
    Option (Except CmdError (List Message)) :=
  match Q.install reqPay with
  | .error err => Q.genContractErrorMsg tx err Q.errMsgEnable
  | .ok payload => some (.ok [.contractTpl payload])

/-- Source: `runContractCmd`, case `APP_CONTRACT_DEPLOY_REQUEST` -/
def runDeploy (ele : Option ElectionNode) (reqPay : ContractDeployRequestPayload)
    (reqId : Hash) : Option (Except CmdError (List Message)) := do
  match ← Q.handleMsg0 tx reqPay.args with
  | .error e => some (.error e)
  | .ok args =>
    match Q.deploy reqPay.templateId reqId args reqPay.timeout with
    | .error err => Q.genContractErrorMsg tx err Q.errMsgEnable
    | .ok payload =>
      some (.ok [.contractDeploy { payload with eleNode := ele.getD payload.eleNode }])

/-- The messages of an invoke result: the result itself, its payouts, its minting payments.
Source: `runContractCmd`, case `APP_CONTRACT_INVOKE_REQUEST` -/
def invokeMessages (result : ContractInvokeResult) :
    Option (Except CmdError (List Message)) := do
  let requestTx ← tx.getRequestTx
  match result.contractPayments requestTx with
  | .error err => Q.genContractErrorMsg tx err Q.errMsgEnable
  | .ok toContractPayments =>
    match result.coinbases with
    | .error err => Q.genContractErrorMsg tx err Q.errMsgEnable
    | .ok cs =>
      let payload : ContractInvokePayload :=
        ⟨result.contractId, [], result.readSet, result.writeSet, result.payload, ⟨0, []⟩⟩
      some (.ok (.contractInvoke payload :: (toContractPayments ++ cs).map .payment))

/-- Source: `runContractCmd`, case `APP_CONTRACT_INVOKE_REQUEST` -/
def runInvoke (reqPay : ContractInvokeRequestPayload) (reqId : Hash) :
    Option (Except CmdError (List Message)) := do
  match ← Q.handleMsg0 tx reqPay.args with
  | .error e => some (.error e)
  | .ok fullArgs =>
    match handleArg1 tx fullArgs with
    | .error e => some (.error e)
    | .ok newFullArgs =>
      match Q.invoke reqPay.contractId reqId newFullArgs reqPay.timeout with
      | .error err => Q.genContractErrorMsg tx err Q.errMsgEnable
      | .ok result => Q.invokeMessages tx result

/-- Source: `runContractCmd`, case `APP_CONTRACT_STOP_REQUEST` -/
def runStop (reqPay : ContractStopRequestPayload) (reqId : Hash) :
    Option (Except CmdError (List Message)) :=
  match Q.stop reqPay.contractId reqId reqPay.deleteImage with
  | .error err => Q.genContractErrorMsg tx err Q.errMsgEnable
  | .ok payload => some (.ok [.contractStop payload])

/-- Runs the first contract request of a transaction.
Source: `runContractCmd` -/
def runContractCmd (ele : Option ElectionNode) :
    Option (Except CmdError (List Message)) :=
  if tx.messages.isEmpty then some (.error .emptyTx)
  else do
    let msgs ← tx.txMessages
    let reqId ← tx.requestHash Q.V.P
    match msgs.find? Message.isContractRequest with
    | some (.contractTplRequest reqPay) => Q.runInstall tx reqPay
    | some (.contractDeployRequest reqPay) => Q.runDeploy tx ele reqPay reqId
    | some (.contractInvokeRequest reqPay) => Q.runInvoke tx reqPay reqId
    | some (.contractStopRequest reqPay) => Q.runStop tx reqPay reqId
    | _ => some (.error .noRequest)

/-! ### The transaction of a result -/

/-- Source: `core/gen/genesis.go`, `GenContractTransction` -/
def genContractTransction (orgTx : Transaction) (msgs : List Message) :
    Option (Except CmdError Transaction) :=
  if orgTx.messages.length < 2 then some (.error .genContractTransction)
  else do
    let orgMsgs ← orgTx.txMessages
    some (.ok ⟨orgMsgs ++ msgs, orgTx.certId, orgTx.illegal⟩)

/-- The number of inputs of the payouts of a system contract.
Source: `getContractInvokeMulPaymentInputNum`, loop -/
def payInputNum : Bool → List Message → Nat
  | _, [] => 0
  | _, .contractInvokeRequest p :: ms => payInputNum (isSystemContractId p.contractId) ms
  | isSysContract, .payment p :: ms =>
    (if !p.isCoinbase && isSysContract then p.inputs.length else 0) + payInputNum isSysContract ms
  | isSysContract, _ :: ms => payInputNum isSysContract ms

/-- Writes the paid time into the deploy result; a deploy request without a deploy result is a
nil-pointer panic.
Source: `addContractDeployDuringTime` -/
def addContractDeployDuringTime : Option Transaction :=
  if getContractTxType tx ≠ some 101 then some tx
  else match Q.calculateContractDeployDuringTime tx with
    | none => some tx
    | some duringTime => do
        let msgs ← tx.txMessages
        let index ← msgs.findIdx? fun m => m.app = 2
        match msgs[index]? with
        | some (.contractDeploy p) =>
          some { tx with
            messages := tx.messages.set index (.contractDeploy { p with duringTime }) }
        | _ => none

/-- Whether the fee pays for a transaction with room for its signatures.
Source: `consensus/jury/service.go`, `GenContractTransaction`, the test of the fee -/
def feeEnough : Option Bool := do
  let msgs ← tx.txMessages
  let extSize := Q.V.fl.add (Q.V.fl.ofNat 256)
    (Q.V.fl.mul (Q.V.fl.ofNat 256) (Q.V.fl.ofNat (payInputNum false msgs)))
  Q.V.validateTxFeeEnough tx extSize (Q.V.fl.ofNat 0)

/-- The transaction of a request and its result; a result that the fee does not pay for is
replaced by an error result.
Source: `consensus/jury/service.go`, `GenContractTransaction` -/
def genContractTransaction (orgTx : Transaction) (msgs : List Message) :
    Option (Except CmdError Transaction) :=
  if msgs.isEmpty then some (.error .genContractTransction)
  else do
    match ← genContractTransction orgTx msgs with
    | .error e => some (.error e)
    | .ok tx => do
        let enough ← Q.feeEnough tx
        if enough then do
          let tx ← Q.addContractDeployDuringTime tx
          some (.ok tx)
        else do
          match ← Q.genContractErrorMsg tx (ascii "tx fee is invalid") true with
          | .error e => some (.error e)
          | .ok msgs => do
              let reqTx ← orgTx.getRequestTx
              genContractTransction reqTx msgs

/-! ### The check -/

/-- Source: `checkTxReqIdIsExist` -/
def checkTxReqIdIsExist (reqId : Hash) : Bool :=
  match Q.getTxHashByReqId reqId with
  | none => false
  | some id => id ≠ FixedBytes.zero 32

/-- The last invoke result.
Source: `msgsCompareInvoke`, the loops -/
def lastInvoke (msgs : List Message) : Option ContractInvokePayload :=
  (msgs.filterMap Message.invokePayload).getLast?

/-- Whether both lists have an invoke result and the last ones have the same wire form.
Source: `msgsCompareInvoke`; `dag/modules/message.go`,
`ContractInvokePayload.Equal` -/
def msgsCompareInvoke (msgsA msgsB : List Message) : Bool :=
  match lastInvoke msgsA, lastInvoke msgsB with
  | some a, some b =>
    Lib.Rlp.encode (Message.invokeItem a) = Lib.Rlp.encode (Message.invokeItem b)
  | _, _ => false

/-- Runs the request and compares; the own result is cached. The cache after the check is
returned with the verdict.
Source: `consensus/jury/service.go`, `ContractTxCheckForValidator`, the part after the cache -/
def compareWithRun (msgs : List Message) (reqId : Hash) :
    Option (Bool × Cache) := do
  match ← Q.runContractCmd tx none with
  | .error _ => some (false, Q.mtx)
  | .ok run => do
      let reqTx ← tx.getRequestTx
      match ← Q.genContractTransaction reqTx run with
      | .error _ => some (false, Q.mtx)
      | .ok txTmp => do
          let tmpMsgs ← txTmp.txMessages
          some (msgsCompareInvoke tmpMsgs msgs, Function.update Q.mtx reqId (some txTmp))

/-- The part of the check that looks at the result.
Source: `consensus/jury/service.go`, `ContractTxCheckForValidator`, from `getContractTxType` on -/
def checkResult (reqId : Hash) : Option (Bool × Cache) :=
  if (getContractTxType tx).any (· ≠ 102) then some (true, Q.mtx)
  else do
    let msgs ← tx.txMessages
    if (lastInvoke msgs).isNone then some (true, Q.mtx)
    else match Q.mtx reqId with
      | some rstTx => do
          let rstMsgs ← rstTx.txMessages
          some (msgsCompareInvoke msgs rstMsgs, Q.mtx)
      | none => Q.compareWithRun tx msgs reqId

/-- The check of a transaction that validation calls.
Source: `consensus/jury/service.go`, `ContractTxCheckForValidator` -/
def contractTxCheckForValidator : Option (Bool × Cache) := do
  let reqId ← tx.requestHash Q.V.P
  if !tx.isSystemContract then some (true, Q.mtx)
  else if !Q.localHaveActiveMediator then some (true, Q.mtx)
  else if Q.checkTxReqIdIsExist reqId then some (false, Q.mtx)
  else do
    let isExist ← Q.V.checkTxIsExist tx
    if isExist then some (false, Q.mtx) else Q.checkResult tx reqId

end Processor

end ZwsChain
