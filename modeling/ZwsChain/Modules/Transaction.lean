import ZwsChain.Modules.Message

/-!
# Transactions

A transaction is a list of messages with a certificate id and the mark a producer sets on a
contract transaction that lost a conflict. The functions here are those of
`dag/modules/transaction.go` that validation and storage rest on: hashes over the wire form, the
request part, the result part that a jury signs, the outputs created and spent, and the fee with
its split between jury and mediator.

`none` is a runtime panic; an error return is an `Except`. Fees are split in `float64`
arithmetic, which is the parameter `Float64`.
Sources without a file are in `dag/modules/transaction.go`.
-/

namespace ZwsChain

open Lib.Rlp (Item)

/-- Source: `transaction_sdw` -/
structure Transaction where
  messages : List Message
  certId : Bytes
  illegal : Bool
  deriving DecidableEq

/-- An unspent output.
Source: `dag/modules/utxo.go`, `Utxo` -/
structure Utxo where
  amount : UInt64
  asset : Asset
  pkScript : Bytes
  lockTime : UInt32
  deriving DecidableEq

/-- The IEEE arithmetic that fees are computed in. -/
structure Float64 where
  F : Type
  ofNat : Nat → F
  add : F → F → F
  mul : F → F → F
  div : F → F → F
  max : F → F → F
  beq : F → F → Bool
  /-- Conversion to `uint64`. -/
  toUInt64 : F → UInt64

namespace Transaction

variable (P : Primitives)

/-! ### Copies and parts -/

/-- The deep copies of all messages.
Source: `TxMessages` -/
def txMessages (tx : Transaction) : Option (List Message) :=
  tx.messages.mapM copyMessage

/-- The messages up to the first request, the request included; all of them without one. -/
def upToRequest : List Message → List Message
  | [] => []
  | m :: ms => if m.isRequest then [m] else m :: upToRequest ms

lemma upToRequest_prefix : ∀ msgs : List Message, upToRequest msgs <+: msgs
  | [] => List.prefix_rfl
  | m :: ms => by
      rw [upToRequest]
      split
      · exact ⟨ms, rfl⟩
      · exact List.cons_prefix_cons.2 ⟨rfl, upToRequest_prefix ms⟩

/-- Source: `GetRequestTx` -/
def getRequestTx (tx : Transaction) : Option Transaction := do
  let msgs ← tx.txMessages
  some ⟨upToRequest msgs, tx.certId, false⟩

/-- The messages a jury signs: signature messages are dropped, and the unlocking scripts of
payments from the first request on are emptied. -/
def resultMessages : Bool → List Message → List Message
  | _, [] => []
  | isResultMsg, m :: ms =>
    let isResultMsg := isResultMsg || m.isRequest
    match m with
    | .signature _ => resultMessages isResultMsg ms
    | .payment p =>
      (if isResultMsg then
        .payment { p with inputs := p.inputs.map fun i => { i with signatureScript := [] } }
       else .payment p) :: resultMessages isResultMsg ms
    | m => m :: resultMessages isResultMsg ms

/-- Source: `GetResultRawTx` -/
def getResultRawTx (tx : Transaction) : Option Transaction := do
  let msgs ← tx.txMessages
  some ⟨resultMessages false msgs, tx.certId, tx.illegal⟩

/-- Source: `GetRequestMsgIndex`; `none` is the code's `-1` -/
def getRequestMsgIndex (tx : Transaction) : Option Nat :=
  tx.messages.findIdx? Message.isRequest

/-- Source: `GetContractInvokeReqMsgIdx`; `none` is the code's
`-1` -/
def getContractInvokeReqMsgIdx (tx : Transaction) : Option Nat :=
  tx.messages.findIdx? fun m => m.app = 102

/-- Source: `IsContractTx` -/
def isContractTx (tx : Transaction) : Bool :=
  tx.messages.any Message.isContractMsg

/-- The test of the first message that decides; a transaction without one counts as a system
contract's.
Source: `IsSystemContract` -/
def isSystemContractMsgs : List Message → Bool
  | [] => true
  | .contractInvokeRequest p :: _ =>
    (newAddress p.contractId .contractHash).isSystemContractAddress
  | .contractTplRequest _ :: _ => true
  | m :: ms => if 101 ≤ m.app then false else isSystemContractMsgs ms

/-- Source: `IsSystemContract` -/
def isSystemContract (tx : Transaction) : Bool :=
  isSystemContractMsgs tx.messages

/-! ### Wire form and hashes -/

/-- Source: `dag/modules/transaction_rlp.go`, `tx2Temp`, one message -/
def messageTemp (m : Message) : Option Item := do
  let d ← m.rlpItem
  some (.list [Message.natItem m.app.toNat, .str (Lib.Rlp.encode d)])

/-- Source: `dag/modules/transaction_rlp.go`, `tx2Temp` -/
def rlpItem (tx : Transaction) : Option Item := do
  let msgs ← tx.messages.mapM messageTemp
  some (.list [.list msgs, .str tx.certId, Message.boolItem tx.illegal])

/-- Source: `dag/modules/transaction_rlp.go`, `EncodeRLP` -/
def encodeRLP (tx : Transaction) : Option Bytes :=
  tx.rlpItem.map Lib.Rlp.encode

/-- Source: `common/util/rlphash.go`, `RlpHash` of a transaction -/
def rlpHash (tx : Transaction) : Option Hash :=
  tx.encodeRLP.map P.sha3

/-- The transaction id, which does not depend on the illegal mark.
Source: `Hash` -/
def hash (tx : Transaction) : Option Hash :=
  { tx with illegal := false }.rlpHash P

/-- Source: `Size` -/
def size (tx : Transaction) : Option Nat :=
  tx.encodeRLP.map List.length

/-- The hash of the messages up to the request.
Source: `RequestHash` -/
def requestHash (tx : Transaction) : Option Hash := do
  let msgs ← tx.txMessages
  (Transaction.mk (upToRequest msgs) [] false).rlpHash P

/-- The id of the contract the first contract request is about.
Source: `GetContractId` -/
def contractIdOf (requestHash : Option Hash) : List Message → Option Bytes
  | [] => some []
  | .contractDeployRequest _ :: _ =>
    requestHash.map fun h => (requestIdToContractAddress P h).bytes
  | .contractInvokeRequest p :: _ => some p.contractId
  | .contractStopRequest p :: _ => some p.contractId
  | _ :: ms => contractIdOf requestHash ms

/-- Source: `GetContractId` -/
def getContractId (tx : Transaction) : Option Bytes :=
  contractIdOf P (tx.requestHash P) tx.messages

/-- Encoding and decoding a message: an outpoint of the zero hash is read back as none, a system
contract's deploy result loses the fields its format has not, and a version without a height
cannot be read back.
Source: `dag/modules/transaction_rlp.go`, `EncodeRLP` and `DecodeRLP` -/
def cloneMessage : Message → Option Message
  | .payment p => some <| .payment { p with inputs := p.inputs.map fun i =>
    { i with previousOutPoint := i.previousOutPoint.filter fun op => !emptyHash op.txHash } }
  | .contractDeploy p =>
    if p.readSet.all fun r => r.version.all fun v => v.height.isSome then
      some <| .contractDeploy <|
        if isSystemContractId p.contractId then
          { p with eleNode := { p.eleNode with juryCount := 0 }, duringTime := 0 }
        else p
    else none
  | .contractInvoke p =>
    if p.readSet.all fun r => r.version.all fun v => v.height.isSome then
      some (.contractInvoke p)
    else none
  | .contractStop p =>
    if p.readSet.all fun r => r.version.all fun v => v.height.isSome then
      some (.contractStop p)
    else none
  | .unknown _ => none
  | m => some m

/-- A deep copy through the wire form; a transaction that cannot be read back is `none` (the
code goes on with an empty transaction and panics at its first message).
Source: `Clone` -/
def clone (tx : Transaction) : Option Transaction := do
  let msgs ← tx.messages.mapM cloneMessage
  some { tx with messages := msgs }

/-! ### Outputs created and spent -/

/-- The outpoints a message spends; `txHash` is the transaction's own id.
Source: `GetSpendOutpoints`, one message -/
def spendOutpoints (txHash : Hash) : Message → List OutPoint
  | .payment p => p.inputs.filterMap fun input => input.previousOutPoint.map fun op =>
    if op.txHash.isSelfHash then { op with txHash } else op
  | _ => []

/-- Source: `GetSpendOutpoints` -/
def getSpendOutpoints (tx : Transaction) : Option (List OutPoint) := do
  let txHash ← tx.hash P
  some (tx.messages.flatMap (spendOutpoints txHash))

/-- The unspent output of an output of a payment. -/
def utxoOfOutput (lockTime : UInt32) (txout : Output) : Utxo :=
  ⟨txout.value, txout.asset, txout.pkScript, lockTime⟩

/-- The unspent outputs that one message creates.
Source: `GetNewUtxos`, one message -/
def newUtxos (txHash : Hash) (msgIndex : Nat) : Message → List (OutPoint × Utxo)
  | .payment p => p.outputs.zipIdx.map fun (txout, outIndex) =>
    (⟨txHash, UInt32.ofNat msgIndex, UInt32.ofNat outIndex⟩, utxoOfOutput p.lockTime txout)
  | _ => []

/-- The unspent outputs the transaction creates when it is saved.
Source: `GetNewUtxos` -/
def getNewUtxos (tx : Transaction) : Option (List (OutPoint × Utxo)) := do
  let txHash ← tx.hash P
  some (tx.messages.zipIdx.flatMap fun (m, msgIndex) => newUtxos txHash msgIndex m)

/-! ### Fees -/

/-- The error returns of `GetTxFee` and of the fee allocation.
Source: `GetTxFee`, `GetTxFeeAllocate` -/
inductive FeeError where
  | firstNotPayment
  | utxoEmpty (op : OutPoint)
  | txinOverflow
  | txoutOverflow
  | txinLessThanTxout
  deriving DecidableEq

variable (queryUtxo : OutPoint → Option Utxo)

/-- The 64-bit sum of the amounts the inputs spend, with the asset of the last one.
Source: `GetTxFee`, first loop -/
def feeInputs : List Input → UInt64 → Option Asset → Except FeeError (UInt64 × Option Asset)
  | [], inAmount, feeAsset => .ok (inAmount, feeAsset)
  | txin :: rest, inAmount, feeAsset =>
    match txin.previousOutPoint with
    -- a payment with such an input mints, and its fee is not computed from inputs
    | none => feeInputs rest inAmount feeAsset
    | some op =>
      match queryUtxo op with
      | none => .error (.utxoEmpty op)
      | some utxo =>
        -- the comparison is made after the wrap, so it never holds
        if (inAmount + utxo.amount).toNat > 2 ^ 64 - 1 then .error .txinOverflow
        else feeInputs rest (inAmount + utxo.amount) (some utxo.asset)

/-- The 64-bit sum of the outputs.
Source: `GetTxFee`, second loop -/
def feeOutputs : List Output → UInt64 → Except FeeError UInt64
  | [], outAmount => .ok outAmount
  | txout :: rest, outAmount =>
    if (outAmount + txout.value).toNat > 2 ^ 64 - 1 then .error .txoutOverflow
    else feeOutputs rest (outAmount + txout.value)

/-- What a payment takes in, with the asset of its last input, and what it pays out.
Source: `GetTxFee`, the two loops -/
def feeAmounts (payload : PaymentPayload) :
    Except FeeError (UInt64 × Option Asset × UInt64) := do
  let (inAmount, feeAsset) ← feeInputs queryUtxo payload.inputs 0 none
  let outAmount ← feeOutputs payload.outputs 0
  .ok (inAmount, feeAsset, outAmount)

/-- The fee of a transaction: what message 0 takes in and does not pay out.
Source: `GetTxFee` -/
def getTxFee (tx : Transaction) : Option (Except FeeError AmountAsset) :=
  match tx.messages with
  | [] => none
  | .payment payload :: _ =>
    if payload.isCoinbase then some (.ok ⟨0, newPTNAsset⟩)
    else match feeAmounts queryUtxo payload with
      | .error e => some (.error e)
      | .ok (inAmount, feeAsset, outAmount) =>
        -- the text of this error has the id of the transaction
        if inAmount < outAmount then tx.encodeRLP.map fun _ => .error .txinLessThanTxout
        else some (.ok ⟨inAmount - outAmount, feeAsset.getD newPTNAsset⟩)
  | _ :: _ => some (.error .firstNotPayment)

variable (fl : Float64) (juryPercent : fl.F)
variable (getSigner : Transaction → Nat → Nat → Option (List Address))

/-- The jurors a fee is shared among: the signers of signature messages, replaced by the signers
of the first input of each contract payout. `getSigner` returns no error; `none` is a panic of it.
Source: `GetTxFeeAllocate`, the loop over messages -/
def feeJury (starts : Message → Bool) (tx : Transaction) :
    List (Message × Nat) → Bool → List Address → Option (Bool × List Address)
  | [], inside, jury => some (inside, jury)
  | (msg, msgIdx) :: rest, inside, jury =>
    if starts msg then feeJury starts tx rest true jury
    else if inside then
      match msg with
      | .signature p => feeJury starts tx rest inside
          (jury ++ p.signatures.map fun s => pubkeyBytesToAddress P s.pubKey)
      | .payment p =>
        if p.isCoinbase then feeJury starts tx rest inside jury
        else match getSigner tx msgIdx 0 with
          | none => none
          | some jury => feeJury starts tx rest inside jury
      | _ => feeJury starts tx rest inside jury
    else feeJury starts tx rest inside jury

/-- The split of a fee: an equal share of the jury's part for each juror, the rest for the
mediator. `starts` tells the requests that involve a jury, `jurorReward` the address a juror is
paid at.
Source: `GetTxFeeAllocate` and `GetTxFeeAllocateLegacyV1` -/
def feeAllocate (starts : Message → Bool) (jurorReward : Address → Address)
    (mediatorReward : Address) (tx : Transaction) :
    Option (Except FeeError (List Addition)) := do
  let feeResult ← tx.getTxFee queryUtxo
  match feeResult with
  | .error e => some (.error e)
  | .ok fee =>
    if fee.amount = 0 then some (.ok [])
    else do
      let msgs ← tx.txMessages
      let (inside, jury) ← feeJury P getSigner starts tx msgs.zipIdx false []
      let share := fl.toUInt64
        (fl.div (fl.mul (fl.ofNat fee.amount.toNat) juryPercent) (fl.ofNat jury.length))
      let jurors := if inside then
        jury.map fun juror => Addition.mk (jurorReward juror) share fee.asset else []
      let allocated := (jurors.map Addition.amount).sum
      some (.ok (jurors ++ [⟨mediatorReward, fee.amount - allocated, fee.asset⟩]))

/-- Source: `GetTxFeeAllocateLegacyV1` -/
def getTxFeeAllocateLegacyV1 (mediatorReward : Address) (tx : Transaction) :
    Option (Except FeeError (List Addition)) :=
  feeAllocate P queryUtxo fl juryPercent getSigner Message.isRequest id mediatorReward tx

/-- Source: `GetTxFeeAllocate` -/
def getTxFeeAllocate (mediatorReward : Address) (getJurorReward : Address → Address)
    (tx : Transaction) : Option (Except FeeError (List Addition)) :=
  feeAllocate P queryUtxo fl juryPercent getSigner
    (fun m => m.app = 101 || m.app = 102 || m.app = 103) getJurorReward mediatorReward tx

end Transaction

end ZwsChain
