import ZwsChain.Validator.Payment

/-!
# Validation of a transaction

`validator/validate_tx.go` and `validate_contract.go`. `validateTx` checks the fee, the size and,
for a transaction with contract results, that something after the request is a signature or a
payment; then it walks the messages. The walk is `validateMsgs`, one message at a time by
`validateMsg`, over an explicit `LoopState`.

An account-update message ends the walk with its own verdict: `Verdict.stop`. Nothing behind it
is looked at, and a missing output found in front of it is forgotten.
Sources without a file are in `validator/validate_tx.go`.
-/

namespace ZwsChain

open TxScript (SigState)

namespace Validate

variable (V : Validate)

/-! ### Fees -/

/-- What the fee depends on besides the size.
Source: `ValidateTxFeeEnough`, the variables of its loop -/
structure FeeParts (fl : Float64) where
  onlyPayment : Bool
  opFee : fl.F
  timeout : Nat
  accountUpdateFee : fl.F
  appDataFee : fl.F

/-- Source: `ValidateTxFeeEnough`, loop body -/
def feeParts (txSize extSize : V.fl.F) (s : FeeParts V.fl) : Message → FeeParts V.fl
  | .contractTplRequest _ =>
    { s with onlyPayment := false, opFee := V.chainParameters.contractTxInstallFeeLevel }
  | .contractDeployRequest _ =>
    { s with onlyPayment := false, opFee := V.chainParameters.contractTxDeployFeeLevel }
  | .contractInvokeRequest p =>
    { s with
      onlyPayment := false
      opFee := V.chainParameters.contractTxInvokeFeeLevel
      timeout := p.timeout.toNat }
  | .contractStopRequest _ =>
    { s with onlyPayment := false, opFee := V.chainParameters.contractTxStopFeeLevel }
  | .data _ =>
    { s with
      onlyPayment := false
      appDataFee := V.fl.mul (V.fl.ofNat V.chainParameters.transferPtnPricePerKByte.toNat)
        (V.fl.div (V.fl.add txSize extSize) (V.fl.ofNat 1024)) }
  | .accountUpdate _ =>
    { s with
      onlyPayment := false
      accountUpdateFee := V.fl.ofNat V.chainParameters.accountUpdateFee.toNat }
  | _ => s

variable (tx : Transaction)

/-- Whether the fee covers what the messages ask for.
Source: `ValidateTxFeeEnough` -/
def validateTxFeeEnough (extSize extTime : V.fl.F) : Option Bool :=
  if !V.enableTxFeeCheck then some true
  else do
    let _ ← tx.requestHash V.P
    let size ← tx.size
    let txSize := V.fl.ofNat size
    let msgs ← tx.txMessages
    match ← tx.getTxFee V.getUtxoEntry with
    | .error _ => some false
    | .ok fees =>
      let zero := V.fl.ofNat 0
      let s := msgs.foldl (V.feeParts txSize extSize) ⟨true, zero, 0, zero, zero⟩
      let timeUnitFee := V.fl.ofNat V.chainParameters.contractTxTimeoutUnitFee.toNat
      let sizeUnitFee := V.fl.ofNat V.chainParameters.contractTxSizeUnitFee.toNat
      let sizeFee := V.fl.mul (V.fl.mul s.opFee sizeUnitFee) (V.fl.add txSize extSize)
      let timeFee := V.fl.mul (V.fl.mul s.opFee timeUnitFee)
        (V.fl.add (V.fl.ofNat s.timeout) extTime)
      let allFee :=
        if s.onlyPayment then V.fl.ofNat V.chainParameters.transferPtnBaseFee.toNat
        else V.fl.add (V.fl.add (V.fl.add sizeFee timeFee) s.accountUpdateFee) s.appDataFee
      let amount := V.fl.ofNat fees.amount.toNat
      some (V.fl.beq (V.fl.max amount allFee) amount)

/-- Source: `tokenengine/api.go`, `GetScriptSigners` -/
abbrev getScriptSigners : Transaction → Nat → Nat → Option (List Address) :=
  TxScript.getScriptSigners V.P

/-- Whether all fees are in the gas token; the texts of the assets are compared.
Source: `validateTxFeeValid`, the two loops -/
def checkGasToken : List Addition → Option Bool
  | [] => some true
  | a :: rest => do
      let assetStr ← a.asset.string
      let gasStr ← AssetId.string V.gasToken
      if assetStr ≠ gasStr then some false else checkGasToken rest

/-- The verdict on an allocation. The text for an error has the id of the transaction.
Source: `validateTxFeeValid` -/
def checkFeeAllocate : Except Transaction.FeeError (List Addition) → Option (Bool × List Addition)
  | .error _ => (tx.hash V.P).map fun _ => (false, [])
  | .ok feeAllocate => (V.checkGasToken feeAllocate).map fun ok => (ok, feeAllocate)

/-- Whether the fee is paid and in the gas token, with its allocation.
Source: `validateTxFeeValid` -/
def validateTxFeeValid : Option (Bool × List Addition) := do
  let _ ← tx.requestHash V.P
  if V.enableTxFeeCheck then do
    if !(← V.validateTxFeeEnough tx (V.fl.ofNat 0) (V.fl.ofNat 0)) then
      (tx.hash V.P).map fun _ => (false, [])
    else do
      let allocation ← tx.getTxFeeAllocate V.P V.getUtxoEntry V.fl V.contractFeeJuryPercent
        V.getScriptSigners (FixedBytes.zero 21) V.getJurorReward
      V.checkFeeAllocate tx allocation
  else do
    let allocation ← tx.getTxFeeAllocateLegacyV1 V.P V.getUtxoEntry V.fl V.contractFeeJuryPercent
      V.getScriptSigners (FixedBytes.zero 21)
    V.checkFeeAllocate tx allocation

/-! ### Contract results -/

/-- The jury of the last deploy result and the contract of the last invoke or stop request.
Source: `validator/validate_contract.go`, `validateContractSignature`, first loop -/
def signatureSubject (msgs : List Message) : Option ElectionNode × Bytes :=
  msgs.foldl (fun s m => match m with
    | .contractDeploy p => (some p.eleNode, s.2)
    | .contractInvokeRequest p => (s.1, p.contractId)
    | .contractStopRequest p => (s.1, p.contractId)
    | _ => s) (none, [])

/-- The jury signatures are checked against: the recorded one of a user contract that is called,
else the one in a deploy result, else none. `none` outside is an error of the query.
Source: `validator/validate_contract.go`, `validateContractSignature` -/
def signatureJury (msgs : List Message) : Option (Option ElectionNode) :=
  if isUserContractId (signatureSubject msgs).2 then
    (V.getContractJury (signatureSubject msgs).2).map some
  else some (signatureSubject msgs).1

/-- Whether every signer is one of the jury.
Source: `validator/validate_contract.go`, `validateContractSignature`, second loop -/
def signersInJury (jury : ElectionNode) (signatures : List SignatureSet) : Bool :=
  signatures.all fun s => jury.eleList.any fun node =>
    rlpHashBytes V.P (pubkeyBytesToAddress V.P s.pubKey) = node.addrHash

/-- The number of signatures that verify; `none` when a verification returns an error.
Source: `validator/validate_contract.go`, `validateContractSignature`, third loop -/
def passCount (txBytes : Bytes) (signatures : List SignatureSet) : Option Nat := do
  let passes ← signatures.mapM fun s => V.P.verify s.pubKey s.signature txBytes
  some (passes.count true)

/-- Source: `validator/validate_contract.go`, `validateContractSignature` -/
def validateContractSignature (signatures : List SignatureSet) (tx : Transaction)
    (isFullTx : Bool) : Option ValidationCode := do
  let _ ← tx.hash V.P
  let msgs ← tx.txMessages
  match V.signatureJury msgs with
  | none => some .invalidContractSign
  | some jury =>
    if !(jury.all fun jury => V.signersInJury jury signatures) then some .invalidContractSign
    else do
      let tx4Sign ← tx.getResultRawTx
      let txBytes ← tx4Sign.encodeRLP
      let needSign := match jury with
        | none => 1
        | some jury => jurySignCount jury.eleList.length
      match V.passCount txBytes signatures with
      | none => some .invalidContractSign
      | some passCount =>
        if isFullTx ∧ passCount < needSign then some .invalidContractSign else some .valid

/-- The votes of an account update: only the write sets of the key for mediators are read.
Source: `validateVoteMediatorTx` -/
def validateVoteMediatorTx (accountUpdate : AccountStateUpdatePayload) : ValidationCode :=
  let ok := accountUpdate.writeSet.all fun writeSet =>
    if writeSet.key ≠ ascii "VotedMediators" then true
    else match V.unmarshalMediators writeSet.value with
      | none => false
      | some mediators =>
        mediators.length ≤ V.chainParameters.maximumMediatorCount &&
          mediators.all fun (mediatorStr, ok) =>
            ok && match stringToAddress V.P mediatorStr with
              | none => false
              | some mediator => V.getMediators mediator
  if ok then .valid else .unsupportedTxPayload

/-- Whether something after the first request is a signature or a payment.
Source: `validateTx`, the scan for `hasSignMsg` -/
def hasSignMsg : Bool → List Message → Bool
  | _, [] => false
  | isResultMsg, m :: ms =>
    if m.isRequest then hasSignMsg true ms
    else (isResultMsg && (m.isSignature || m.isPayment)) || hasSignMsg isResultMsg ms

/-! ### The walk over the messages -/

/-- The variables of the walk.
Source: `validateTx` -/
structure LoopState where
  hasRequestMsg : Bool
  requestMsgIndex : Nat
  isSysContractCall : Bool
  usedUtxo : List OutPoint
  isOrphanTx : Bool
  sigs : SigState

/-- What a message does to the walk: let it go on, or end it with a code. -/
inductive Verdict where
  | go (s : LoopState)
  | stop (code : ValidationCode) (sigs : SigState)

/-- Goes on if a code is `valid`. -/
def goIfValid (code : ValidationCode) (s : LoopState) : Verdict :=
  if code = .valid then .go s else .stop code s.sigs

/-- A payment of the walk. Payments of a contract result are only checked in a full transaction;
a payment that mints must come after the request of a system contract.
Source: `validateTx`, case `APP_PAYMENT` -/
def validatePaymentMsg (isFullTx : Bool) (msgIdx : Nat)
    (payment : PaymentPayload) (s : LoopState) : Option Verdict :=
  if msgIdx > s.requestMsgIndex ∧ !isFullTx then some (.go s)
  else do
    let r ← V.validatePaymentPayload tx msgIdx payment s.usedUtxo s.sigs
    if r.code ≠ .valid ∧ r.code ≠ .orphan then some (.stop r.code r.sigs)
    else if msgIdx ≠ 0 ∧ payment.isCoinbase ∧ !s.isSysContractCall then
      some (.stop .invalidCoinbase r.sigs)
    else some <| .go { s with
      usedUtxo := r.usedUtxo
      isOrphanTx := s.isOrphanTx || r.code = .orphan
      sigs := r.sigs }

/-- A template, deploy or invoke request: only one of them may be in a transaction.
Source: `validateTx`, the cases of these requests -/
def validateRequestMsg (msgIdx : Nat) (s : LoopState)
    (check : ValidationCode) (isSysContractCall : Bool) : Verdict :=
  if s.hasRequestMsg then .stop .invalidMsg s.sigs
  else goIfValid check { s with
    hasRequestMsg := true
    requestMsgIndex := msgIdx
    isSysContractCall := s.isSysContractCall || isSysContractCall }

/-- The check of a template request.
Source: `validateTx`, case `APP_CONTRACT_TPL_REQUEST` -/
def checkTplRequest (p : ContractInstallRequestPayload) : Option ValidationCode :=
  if p.tplName = [] ∨ p.path = [] ∨ p.version = [] then some .invalidContract
  else (TxScript.getTxRequesterAddress V.P V.getDagUtxoEntry tx).map fun reqAddr =>
    match reqAddr with
    | none => .invalidContract
    | some reqAddr =>
      if V.enableDeveloperCheck ∧ !V.isContractDeveloper reqAddr then .notTplDeveloper
      else .valid

/-- A template request, behind another request not even looked at.
Source: `validateTx`, case `APP_CONTRACT_TPL_REQUEST` -/
def validateTplRequest (msgIdx : Nat) (p : ContractInstallRequestPayload) (s : LoopState) :
    Option Verdict :=
  if s.hasRequestMsg then some (.stop .invalidMsg s.sigs)
  else (V.checkTplRequest tx p).map fun check => validateRequestMsg msgIdx s check false

/-- One message of the walk.
Source: `validateTx`, loop body -/
def validateMsg (isFullTx : Bool) (msgIdx : Nat) (msg : Message)
    (s : LoopState) : Option Verdict :=
  match msg with
  | .payment payment => V.validatePaymentMsg tx isFullTx msgIdx payment s
  | .contractTpl p =>
    some (goIfValid (if V.getContractTpl p.templateId then .invalidContractTemplate else .valid) s)
  -- `validateContractState` accepts every result
  | .contractDeploy _ => some (.go s)
  | .contractInvoke _ => some (.go s)
  | .contractStop _ => some (.go s)
  | .contractTplRequest p => V.validateTplRequest tx msgIdx p s
  | .contractDeployRequest p =>
    some (validateRequestMsg msgIdx s
      (if p.templateId.length = 0 then .invalidContract else .valid) false)
  | .contractInvokeRequest p =>
    some (validateRequestMsg msgIdx s
      (if p.contractId.length = 0 then .invalidContract else .valid)
      (isSystemContractId p.contractId))
  | .contractStopRequest p =>
    some (goIfValid (if p.contractId.length = 0 then .invalidContract else .valid)
      { s with requestMsgIndex := msgIdx })
  | .signature p => do
      let code ← V.validateContractSignature p.signatures tx isFullTx
      some (goIfValid code s)
  | .data p =>
    some (goIfValid (if p.mainData.length = 0 then .invalidDataPayload else .valid) s)
  | .accountUpdate p => some (.stop (V.validateVoteMediatorTx p) s.sigs)
  | .unknown _ => some (.stop .unknownTxType s.sigs)

/-- The walk over the messages.
Source: `validateTx`, loop -/
def validateMsgs (tx : Transaction) (isFullTx : Bool) :
    List (Message × Nat) → LoopState → Option (ValidationCode × SigState)
  | [], s => some (if s.isOrphanTx then .orphan else .valid, s.sigs)
  | (msg, msgIdx) :: rest, s => do
      match ← V.validateMsg tx isFullTx msgIdx msg s with
      | .stop code sigs => some (code, sigs)
      | .go s => validateMsgs tx isFullTx rest s

/-- The outcome of a transaction's validation. -/
structure TxResult where
  code : ValidationCode
  txFee : List Addition
  sigs : SigState

/-- The checks in front of the walk that concern contract results.
Source: `validateTx` -/
def checkContractTx (isFullTx : Bool) (msgs : List Message) : ValidationCode :=
  if V.enableContractSignCheck && isFullTx && tx.isContractTx then
    if V.enableContractRwSetCheck && !V.contractTxCheck tx then .invalidContract
    else if !hasSignMsg false msgs then .invalidContractSign
    else .valid
  else .valid

/-- The state the walk starts in. -/
def startState (sigs : SigState) : LoopState :=
  ⟨false, 9999, false, [], false, sigs⟩

/-- Validates a transaction.
Source: `validateTx` -/
def validateTx (isFullTx : Bool) (sigs : SigState) : Option TxResult := do
  let _ ← tx.requestHash V.P
  let msgs ← tx.txMessages
  match msgs with
  | .payment _ :: _ => do
      let (txFeePass, txFee) ← V.validateTxFeeValid tx
      if !txFeePass then some ⟨.invalidFee, [], sigs⟩
      else do
        let size ← tx.size
        if size > 256 * 1024 then some ⟨.notCompareSize, txFee, sigs⟩
        else
          let code := V.checkContractTx tx isFullTx msgs
          if code ≠ .valid then some ⟨code, txFee, sigs⟩
          else do
            let (code, sigs) ← V.validateMsgs tx isFullTx msgs.zipIdx (startState sigs)
            some ⟨code, txFee, sigs⟩
  | _ => some ⟨.invalidMsg, [], sigs⟩

/-- Whether a transaction of more than two messages is stored already.
Source: `validator/validator.go`, `checkTxIsExist` -/
def checkTxIsExist : Option Bool := do
  let msgs ← tx.txMessages
  if msgs.length > 2 then (tx.hash V.P).map V.isTransactionExist else some false

end Validate

end ZwsChain
