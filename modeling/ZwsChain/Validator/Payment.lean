import Mathlib
import ZwsChain.TxScript.ScriptBuilder
import ZwsChain.Validator.Validate

/-!
# Validation of a payment message

`validator/validate_payment.go` with the script check it calls. The loop over inputs collects
assets, amounts and lock scripts; the scripts of the message are then run; the loop over outputs
compares assets and adds up amounts. Message 0 is exempt from the comparison of amounts (the fee
check covers it), and a missing output makes the transaction an orphan.

`none` is a runtime panic: an index out of range in a reference of a transaction to its own
outputs, or a failed copy.
Sources without a file are in `validator/validate_payment.go`.
-/

namespace ZwsChain

open TxScript (SigState ScriptErr Target Engine ScriptBuilder getAddressFromScript)

namespace Validate

variable (V : Validate)

/-! ### Jury scripts -/

/-- Keys in descending order.
Source: `tokenengine/api.go`, `PubKey4Sort` -/
def sortPubKeys (pubKeys : List Bytes) : List Bytes :=
  pubKeys.insertionSort fun a b => bytesLt a b = false

/-- Source: `tokenengine/api.go`, `GenerateRedeemScript` -/
def generateRedeemScript (needed : UInt8) (pubKeys : List Bytes) : Bytes :=
  if needed = 0 then []
  else match pubKeys with
    | [pubKey] => ((ScriptBuilder.new.addData pubKey).addOp 0xac).script
    | _ =>
      let builder := (sortPubKeys pubKeys).foldl ScriptBuilder.addData
        (ScriptBuilder.new.addOp (needed + 80))
      ((builder.addOp (UInt8.ofNat (pubKeys.length + 80))).addOp 0xae).script

/-- Source: `generateJuryRedeemScript` -/
def generateJuryRedeemScript (jury : ElectionNode) : Option Bytes := do
  let needed := UInt8.ofNat (jurySignCount jury.eleList.length)
  let pubKeys ← jury.eleList.mapM fun ju => V.getJurorByAddrHash ju.addrHash
  some (generateRedeemScript needed pubKeys)

/-- Source: `pickJuryFn` -/
def pickJuryFn (contractAddr : Address) : Option Bytes :=
  if contractAddr.isSystemContractAddress then some []
  else do
    let jury ← V.getContractJury contractAddr.bytes
    V.generateJuryRedeemScript jury

/-! ### Scripts of a message -/

/-- The transaction a payment in front of the request is signed over: the part up to the request,
once there is a contract result.
Source: `tokenengine/api.go`, `ScriptValidate1Msg`, choice of `txCopy` -/
def signedPart (tx : Transaction) (msgIdx : Nat) : Option Transaction :=
  if tx.isContractTx && !(tx.messages.take (msgIdx + 1)).any Message.isRequest then
    tx.getRequestTx
  else some tx

/-- Runs the scripts of the inputs in turn.
Source: `tokenengine/api.go`, `ScriptValidate1Msg`, loop -/
def runInputs (utxoLockScripts : OutPoint → Bytes) (txCopy : Transaction) (msgIdx : Nat) :
    List (Input × Nat) → SigState → SigState × Option ScriptErr
  | [], sigs => (sigs, none)
  | (input, inputIndex) :: rest, sigs =>
    match input.previousOutPoint with
    | none => (sigs, some .panic)
    | some op =>
      match Engine.run V.P ⟨⟨txCopy, msgIdx, inputIndex⟩, V.pickJuryFn⟩
        (utxoLockScripts op) sigs with
      | (sigs, some e) => (sigs, some e)
      | (sigs, none) => runInputs utxoLockScripts txCopy msgIdx rest sigs

/-- Source: `tokenengine/api.go`, `ScriptValidate1Msg` -/
def scriptValidate1Msg (utxoLockScripts : OutPoint → Bytes) (tx : Transaction) (msgIdx : Nat)
    (sigs : SigState) : SigState × Option ScriptErr :=
  match tx.hash V.P, signedPart tx msgIdx, tx.messages[msgIdx]? with
  | some _, some txCopy, some (.payment pay) =>
    V.runInputs utxoLockScripts txCopy msgIdx pay.inputs.zipIdx sigs
  | _, _, _ => (sigs, some .panic)

/-! ### Inputs -/

/-- The status of the token under its symbol in the registry. -/
def tokenStatus (symbol : Bytes) : ValidationCode :=
  match V.getContractState globalStateContractId (ascii "Tokens_" ++ symbol) with
  | none => .invalidAsset
  | some result =>
    match V.unmarshalTokenStatus result.value with
    | none => .invalidAsset
    | some status => if status ≠ 0 then .invalidTokenStatus else .valid

/-- Source: `checkTokenStatus` -/
def checkTokenStatus (asset : Asset) : Option ValidationCode :=
  asset.assetId.getSymbol.map V.tokenStatus

/-- The status of a token that is to be checked; others pass. -/
def statusOf (checkStatus : Bool) (asset : Asset) : Option ValidationCode :=
  if checkStatus then V.checkTokenStatus asset else some .valid

/-- The output an outpoint stands for: one of the transaction's own, or one of the store.
Source: `validatePaymentPayload` -/
def utxoOf (tx : Transaction) (op : OutPoint) : Option (Option Utxo) :=
  if op.txHash.isSelfHash then
    match tx.messages[op.messageIndex.toNat]? with
    | some (.payment p) => (p.outputs[op.outIndex.toNat]?).map fun output =>
      some ⟨output.value, output.asset, output.pkScript, 0⟩
    | _ => none
  else some (V.getUtxoEntry op)

/-- What the loop over inputs has collected. -/
structure InputState where
  asset : Option Asset
  statusValid : Bool
  totalInput : UInt64
  usedUtxo : List OutPoint
  utxoScripts : List (OutPoint × Bytes)

/-- The checks on one input that has its output, after that of the token's status.
Source: `validatePaymentPayload`, second half of the loop -/
def checkInput (msgIdx : Nat) (op : OutPoint) (utxo : Utxo) (s : InputState) :
    Option (Except ValidationCode InputState) :=
  let asset := s.asset.getD utxo.asset
  if asset ≠ utxo.asset then some (.error .invalidAsset)
  else do
    let checkStatus := msgIdx ≠ 0 && !s.statusValid && asset.assetId ≠ V.gasToken
    let status ← V.statusOf checkStatus asset
    if status ≠ .valid then some (.error status)
    else
      let fromAddr := (getAddressFromScript V.P utxo.pkScript).getD (FixedBytes.zero 21)
      if V.getBlacklistAddress.contains fromAddr then some (.error .addressInBlacklist)
      else some (.ok { s with
        asset := some asset
        statusValid := s.statusValid || checkStatus
        totalInput := s.totalInput + utxo.amount
        utxoScripts := (op, utxo.pkScript) :: s.utxoScripts })

/-- The loop over inputs. An error carries the outpoints marked as used, which the following
messages see: a missing output does not end the transaction's validation.
Source: `validatePaymentPayload`, the loop over inputs -/
def validateInputs (tx : Transaction) (txId : Hash) (msgIdx : Nat) :
    List Input → InputState → Option (Except (ValidationCode × List OutPoint) InputState)
  | [], s => some (.ok s)
  | input :: rest, s =>
    match input.previousOutPoint with
    | none => some (.error (.invalidPaymentInput, s.usedUtxo))
    | some op =>
      if s.usedUtxo.contains op then some (.error (.invalidDoubleSpend, s.usedUtxo))
      else
        let s := { s with usedUtxo := op :: s.usedUtxo }
        match V.utxoOf tx op with
        | none => none
        | some none =>
          if (V.getStxoEntry op).any (· ≠ txId) then
            some (.error (.invalidDoubleSpend, s.usedUtxo))
          else some (.error (.orphan, s.usedUtxo))
        | some (some utxo) =>
          match V.checkInput msgIdx op utxo s with
          | none => none
          | some (.error code) => some (.error (code, s.usedUtxo))
          | some (.ok s) => validateInputs tx txId msgIdx rest s

/-! ### Outputs -/

/-- Whether an output has the asset it should have. Without inputs the payment may mint
non-fungible tokens, so only the asset id of the first output counts.
Source: `validatePaymentPayload` -/
def sameAsset (asset : Option Asset) (asset0 outAsset : Asset) : Bool :=
  match asset with
  | none => asset0.assetId = outAsset.assetId
  | some asset => asset = outAsset

/-- The loop over outputs; `asset` is that of the inputs, `none` without inputs.
Source: `validatePaymentPayload`, the loop over outputs -/
def validateOutputs (asset : Option Asset) (asset0 : Asset) :
    List Output → UInt64 → Except ValidationCode UInt64
  | [], totalOutput => .ok totalOutput
  | out :: rest, totalOutput =>
    if !sameAsset asset asset0 out.asset then .error .invalidAsset
    else
      let totalOutput := totalOutput + out.value
      if totalOutput < out.value ∨ out.value = 0 then .error .invalidAmount
      else
        let toAddr := (getAddressFromScript V.P out.pkScript).getD (FixedBytes.zero 21)
        if V.getBlacklistAddress.contains toAddr then .error .addressInBlacklist
        else validateOutputs asset asset0 rest totalOutput

/-- The checks on the outputs of a payment with what its inputs gave.
Source: `validatePaymentPayload`, second part -/
def checkOutputs (msgIdx : Nat) (payment : PaymentPayload) (asset : Option Asset)
    (totalInput : UInt64) : ValidationCode :=
  match payment.outputs with
  | [] => .valid
  | out0 :: _ =>
    match V.validateOutputs asset out0.asset payment.outputs 0 with
    | .error code => code
    | .ok totalOutput =>
      if asset.isSome ∧ msgIdx ≠ 0 ∧ totalOutput > totalInput then .invalidAmount
      else .valid

/-- The transaction whose scripts are run for a payment: the part up to the invoke request for a
payment in front of it, the whole transaction otherwise.
Source: `validatePaymentPayload`, choice of `txForSign` -/
def txForSign (tx : Transaction) (msgIdx : Nat) : Option Transaction :=
  if tx.getContractInvokeReqMsgIdx.any (msgIdx < ·) then tx.getRequestTx else tx.clone

/-- The lock script of an outpoint among those collected. -/
def lockScriptOf (scripts : List (OutPoint × Bytes)) (op : OutPoint) : Bytes :=
  (scripts.lookup op).getD []

/-- The outcome of a payment's validation. -/
structure PaymentResult where
  code : ValidationCode
  usedUtxo : List OutPoint
  sigs : SigState

/-- Validates a payment message.
Source: `validatePaymentPayload` -/
def validatePaymentPayload (tx : Transaction) (msgIdx : Nat) (payment : PaymentPayload)
    (usedUtxo : List OutPoint) (sigs : SigState) : Option PaymentResult := do
  let txId ← tx.hash V.P
  if payment.inputs.length > 1000 then some ⟨.invalidPaymentInputCount, usedUtxo, sigs⟩
  else if payment.inputs.isEmpty then
    some ⟨V.checkOutputs msgIdx payment none 0, usedUtxo, sigs⟩
  else do
    match ← V.validateInputs tx txId msgIdx payment.inputs ⟨none, false, 0, usedUtxo, []⟩ with
    | .error (code, usedUtxo) => some ⟨code, usedUtxo, sigs⟩
    | .ok s =>
      let signTx ← txForSign tx msgIdx
      match V.scriptValidate1Msg (lockScriptOf s.utxoScripts) signTx msgIdx sigs with
      | (_, some .panic) => none
      | (sigs, some _) => some ⟨.invalidPaymentInput, s.usedUtxo, sigs⟩
      | (sigs, none) =>
        some ⟨V.checkOutputs msgIdx payment s.asset s.totalInput, s.usedUtxo, sigs⟩

end Validate

end ZwsChain
