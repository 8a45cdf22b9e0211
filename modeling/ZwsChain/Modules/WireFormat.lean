import ZwsChain.Lib.RlpReader
import ZwsChain.Lib.Runs
import ZwsChain.Modules.Transaction

/-!
# Reading transactions back

Decoding a transaction reads its messages as pairs of an application code and data, and the data
by the payload type of the code. Two conventions stand in for nil pointers: an input without an
outpoint is written with the zero hash, and a read-set version that is missing is the empty list.
Both have an exception. An outpoint whose hash is zero is read back as none, so its indexes are
lost; and a version without a height is written without the field, so it is not read back at all.

* `Transaction.decodeRLP`: the decoder.
* `decodeRLP_encodeRLP`: what is read back from a transaction's bytes is its `clone`.
* `roundTrip_iff`: the transactions whose bytes, hash and request hash survive are those without
  such outpoints and versions.
* `copyMessage_iff`: the messages whose deep copy is written alike are those with all versions.

Sources without a file are in `dag/modules/transaction_rlp.go`.
-/

open List Option

namespace ZwsChain

open Transaction Message Lib.Rlp Item
open Lib.Rlp (Item)

namespace Message

/-! ### Fields -/

/-- Source: Go's `rlp` of `uint8` -/
def readUInt8 (i : Item) : Option UInt8 :=
  (i.toNat 1).map UInt8.ofNat

/-- Source: Go's `rlp` of `uint16` -/
def readUInt16 (i : Item) : Option UInt16 :=
  (i.toNat 2).map UInt16.ofNat

/-- Source: Go's `rlp` of `uint32` -/
def readUInt32 (i : Item) : Option UInt32 :=
  (i.toNat 4).map UInt32.ofNat

@[simp] lemma readUInt8_natItem (n : UInt8) : readUInt8 (natItem n.toNat) = some n := by
  rw [readUInt8, natItem, toNat_putint (by decide) n.toNat_lt, map_some, UInt8.ofNat_toNat]

@[simp] lemma readUInt16_natItem (n : UInt16) : readUInt16 (natItem n.toNat) = some n := by
  rw [readUInt16, natItem, toNat_putint (by decide) n.toNat_lt, map_some, UInt16.ofNat_toNat]

@[simp] lemma readUInt32_natItem (n : UInt32) : readUInt32 (natItem n.toNat) = some n := by
  rw [readUInt32, natItem, toNat_putint (by decide) n.toNat_lt, map_some, UInt32.ofNat_toNat]

@[simp] lemma toBool_boolItem (b : Bool) : (boolItem b).toBool = some b := by
  cases b <;> rfl

/-- Source: Go's `rlp` of `[][]byte` -/
def readArgs : Item → Option (List Bytes) :=
  toList toStr

@[simp] lemma readArgs_argsItem (args : List Bytes) : readArgs (argsItem args) = some args := by
  apply toList_map_some
  exact toStr_str

/-! ### Records -/

/-- Source: Go's `rlp` of `Asset` -/
def readAsset : Item → Option Asset
  | .list [assetId, uniqueId] => do
      some ⟨← assetId.toArray 16, ← uniqueId.toArray 16⟩
  | _ => none

/-- An outpoint of the zero hash is none.
Source: `Input.DecodeRLP` -/
def readInput : Item → Option Input
  | .list [script, extra, txHash, messageIndex, outIndex] => do
      let script ← script.toStr
      let extra ← extra.toStr
      let txHash ← txHash.toArray 32
      let messageIndex ← readUInt32 messageIndex
      let outIndex ← readUInt32 outIndex
      some ⟨script, extra, if emptyHash txHash then none else some ⟨txHash, messageIndex, outIndex⟩⟩
  | _ => none

/-- Source: Go's `rlp` of `Output` -/
def readOutput : Item → Option Output
  | .list [value, pkScript, asset] => do
      some ⟨← value.toUInt64, ← pkScript.toStr, ← readAsset asset⟩
  | _ => none

/-- Source: Go's `rlp` of `ContractError` -/
def readErr : Item → Option ContractError
  | .list [code, message] => do some ⟨← readUInt32 code, ← message.toStr⟩
  | _ => none

/-- Source: `dag/modules/unit.go`, `ChainIndex.DecodeRLP` -/
def readHeight : Item → Option ChainIndex
  | .list [assetID, index] => do some ⟨← assetID.toArray 16, ← index.toUInt64⟩
  | _ => none

/-- An empty item is a missing version; the height of one that is there is required.
Source: Go's `rlp` of `*StateVersion` with the tag `nil` -/
def readVersion : Item → Option (Option StateVersion)
  | .list [] => some none
  | .str [] => some none
  | .list [height, txIndex] => do
      some (some ⟨some (← readHeight height), ← readUInt32 txIndex⟩)
  | _ => none

/-- Source: Go's `rlp` of `ContractReadSet` -/
def readRead : Item → Option ContractReadSet
  | .list [key, version, contractId] => do
      some ⟨← key.toStr, ← readVersion version, ← contractId.toStr⟩
  | _ => none

/-- Source: Go's `rlp` of `ContractWriteSet` -/
def readWrite : Item → Option ContractWriteSet
  | .list [isDelete, key, value, contractId] => do
      some ⟨← isDelete.toBool, ← key.toStr, ← value.toStr, ← contractId.toStr⟩
  | _ => none

/-- Source: Go's `rlp` of `ElectionInf` -/
def readElection : Item → Option ElectionInf
  | .list [eType, addrHash, proof, publicKey] => do
      some ⟨← readUInt8 eType, ← addrHash.toArray 32, ← proof.toStr, ← publicKey.toStr⟩
  | _ => none

/-- Source: Go's `rlp` of `ElectionNode` -/
def readEleNode : Item → Option ElectionNode
  | .list [juryCount, eleList] => do
      some ⟨← juryCount.toUInt64, ← eleList.toList readElection⟩
  | _ => none

/-- Source: Go's `rlp` of `SignatureSet` -/
def readSignature : Item → Option SignatureSet
  | .list [pubKey, sig] => do some ⟨← pubKey.toStr, ← sig.toStr⟩
  | _ => none

/-- Source: Go's `rlp` of `AccountStateWriteSet` -/
def readAccountWrite : Item → Option AccountStateWriteSet
  | .list [isDelete, key, value] => do
      some ⟨← isDelete.toBool, ← key.toStr, ← value.toStr⟩
  | _ => none

/-! ### Payloads -/

/-- Source: Go's `rlp` of `PaymentPayload` -/
def readPayment : Item → Option PaymentPayload
  | .list [inputs, outputs, lockTime] => do
      some ⟨← inputs.toList readInput, ← outputs.toList readOutput, ← readUInt32 lockTime⟩
  | _ => none

/-- Source: Go's `rlp` of `ContractTplPayload` -/
def readTpl : Item → Option ContractTplPayload
  | .list [templateId, size, byteCode, errMsg] => do
      some ⟨← templateId.toStr, ← readUInt16 size, ← byteCode.toStr, ← readErr errMsg⟩
  | _ => none

/-- The format with the election node and the duration.
Source: Go's `rlp` of `ContractDeployPayload` -/
def readDeploy : Item → Option ContractDeployPayload
  | .list [templateId, contractId, name, args, eleNode, readSet, writeSet, duringTime, errMsg] => do
      some ⟨← templateId.toStr, ← contractId.toStr, ← name.toStr, ← readArgs args,
        ← readEleNode eleNode, ← readSet.toList readRead, ← writeSet.toList readWrite,
        ← duringTime.toUInt64, ← readErr errMsg⟩
  | _ => none

/-- The first format, whose missing fields stay zero.
Source: `dag/modules/message_rlp.go`, `ContractDeployPayloadV1`;
`dag/modules/transaction_rlp.go`, `temp2Tx`, case `APP_CONTRACT_DEPLOY` -/
def readDeployV1 : Item → Option ContractDeployPayload
  | .list [templateId, contractId, name, args, eleList, readSet, writeSet, errMsg] => do
      some ⟨← templateId.toStr, ← contractId.toStr, ← name.toStr, ← readArgs args,
        ⟨0, ← eleList.toList readElection⟩, ← readSet.toList readRead,
        ← writeSet.toList readWrite, 0, ← readErr errMsg⟩
  | _ => none

/-- Source: Go's `rlp` of `ContractInvokePayload` -/
def readInvoke : Item → Option ContractInvokePayload
  | .list [contractId, args, readSet, writeSet, payload, errMsg] => do
      some ⟨← contractId.toStr, ← readArgs args, ← readSet.toList readRead,
        ← writeSet.toList readWrite, ← payload.toStr, ← readErr errMsg⟩
  | _ => none

/-- Source: Go's `rlp` of `ContractStopPayload` -/
def readStop : Item → Option ContractStopPayload
  | .list [contractId, readSet, writeSet, errMsg] => do
      some ⟨← contractId.toStr, ← readSet.toList readRead, ← writeSet.toList readWrite,
        ← readErr errMsg⟩
  | _ => none

/-- Source: Go's `rlp` of `SignaturePayload` -/
def readSignatures : Item → Option SignaturePayload
  | .list [signatures] => do some ⟨← signatures.toList readSignature⟩
  | _ => none

/-- Source: Go's `rlp` of `DataPayload` -/
def readData : Item → Option DataPayload
  | .list [mainData, extraData, reference] => do
      some ⟨← mainData.toStr, ← extraData.toStr, ← reference.toStr⟩
  | _ => none

/-- Source: Go's `rlp` of `AccountStateUpdatePayload` -/
def readAccountUpdate : Item → Option AccountStateUpdatePayload
  | .list [writeSet] => do some ⟨← writeSet.toList readAccountWrite⟩
  | _ => none

/-- Source: Go's `rlp` of `ContractInstallRequestPayload` -/
def readTplRequest : Item → Option ContractInstallRequestPayload
  | .list [tplName, tplDescription, path, version, abi, language, addrHash, creator] => do
      some ⟨← tplName.toStr, ← tplDescription.toStr, ← path.toStr, ← version.toStr, ← abi.toStr,
        ← language.toStr, ← addrHash.toList (toArray 32), ← creator.toStr⟩
  | _ => none

/-- Source: Go's `rlp` of `ContractDeployRequestPayload` -/
def readDeployRequest : Item → Option ContractDeployRequestPayload
  | .list [templateId, args, extData, timeout] => do
      some ⟨← templateId.toStr, ← readArgs args, ← extData.toStr, ← readUInt32 timeout⟩
  | _ => none

/-- Source: Go's `rlp` of `ContractInvokeRequestPayload` -/
def readInvokeRequest : Item → Option ContractInvokeRequestPayload
  | .list [contractId, args, timeout] => do
      some ⟨← contractId.toStr, ← readArgs args, ← readUInt32 timeout⟩
  | _ => none

/-- Source: Go's `rlp` of `ContractStopRequestPayload` -/
def readStopRequest : Item → Option ContractStopRequestPayload
  | .list [contractId, txid, deleteImage] => do
      some ⟨← contractId.toStr, ← txid.toStr, ← deleteImage.toBool⟩
  | _ => none

/-! ### Messages -/

/-- The payload of a deploy result in the newest format, or else in the first one.
Source: `temp2Tx`, case `APP_CONTRACT_DEPLOY` -/
def readDeployAny (i : Item) : Option ContractDeployPayload :=
  (readDeploy i).or (readDeployV1 i)

/-- The message of a known application code.
Source: `temp2Tx`, one message -/
def ofItem (app : UInt8) (i : Item) : Option Message :=
  match app with
  | 0 => (readPayment i).map .payment
  | 1 => (readTpl i).map .contractTpl
  | 2 => (readDeployAny i).map .contractDeploy
  | 3 => (readInvoke i).map .contractInvoke
  | 4 => (readStop i).map .contractStop
  | 5 => (readSignatures i).map .signature
  | 6 => (readData i).map .data
  | 7 => (readAccountUpdate i).map .accountUpdate
  | 100 => (readTplRequest i).map .contractTplRequest
  | 101 => (readDeployRequest i).map .contractDeployRequest
  | 102 => (readInvokeRequest i).map .contractInvokeRequest
  | _ => (readStopRequest i).map .contractStopRequest

/-- A code without a payload type is only reported, and its data are not looked at.
Source: `temp2Tx`, one message -/
def ofData (app : UInt8) (data : Bytes) : Option Message :=
  if h : knownApp app = false then some (.unknown ⟨app, h⟩)
  else (decode data).bind (ofItem app)

/-- Source: `messageTemp`, `temp2Tx` -/
def ofTemp : Item → Option Message
  | .list [app, body] => do ofData (← readUInt8 app) (← body.toStr)
  | _ => none

end Message

/-- Source: `DecodeRLP` -/
def Transaction.decodeRLP (b : Bytes) : Option Transaction := do
  match ← decode b with
  | .list [msgs, certId, illegal] =>
    some ⟨← msgs.toList ofTemp, ← certId.toStr, ← illegal.toBool⟩
  | _ => none

namespace Message

/-! ### What is read back -/

@[simp] lemma readAsset_assetItem (a : Asset) : readAsset (assetItem a) = some a := by
  simp [readAsset, assetItem]

@[simp] lemma readOutput_outputItem (o : Output) : readOutput (outputItem o) = some o := by
  simp [readOutput, outputItem]

@[simp] lemma readErr_errItem (e : ContractError) : readErr (errItem e) = some e := by
  simp [readErr, errItem]

@[simp] lemma readWrite_writeItem (w : ContractWriteSet) : readWrite (writeItem w) = some w := by
  simp [readWrite, writeItem]

@[simp] lemma readElection_electionItem (e : ElectionInf) :
    readElection (electionItem e) = some e := by
  simp [readElection, electionItem]

/-- An input as it is read back: without an outpoint of the zero hash. -/
def wireInput (i : Input) : Input :=
  { i with previousOutPoint := i.previousOutPoint.filter fun op => !emptyHash op.txHash }

lemma readInput_inputItem (i : Input) : readInput (inputItem i) = some (wireInput i) := by
  obtain ⟨script, extra, op⟩ := i
  cases op with
  | none =>
    have hzero : readUInt32 (natItem 0) = some 0 := readUInt32_natItem 0
    simp [readInput, inputItem, wireInput, emptyHash, hzero]
  | some op =>
    cases hz : emptyHash op.txHash <;>
      simp [readInput, inputItem, wireInput, hz, Option.filter]

/-- Whether a version of a read set has its height. -/
def hasHeight (r : ContractReadSet) : Bool :=
  r.version.all fun v => v.height.isSome

lemma readVersion_versionItem (v : Option StateVersion) :
    readVersion (versionItem v) = if v.all (fun v => v.height.isSome) then some v else none := by
  match v with
  | none => rfl
  | some ⟨none, t⟩ => simp [versionItem, heightItems, readVersion]
  | some ⟨some h, t⟩ => simp [versionItem, heightItems, readVersion, readHeight]

lemma readRead_readItem (r : ContractReadSet) :
    readRead (readItem r) = if hasHeight r then some r else none := by
  have hv := readVersion_versionItem r.version
  cases hr : hasHeight r <;> simp_all [readRead, readItem, hasHeight]

@[simp] lemma toList_readRead (l : List ContractReadSet) :
    (list (l.map readItem)).toList readRead = if l.all hasHeight then some l else none :=
  toList_map readRead_readItem l

@[simp] lemma toList_readWrite (l : List ContractWriteSet) :
    (list (l.map writeItem)).toList readWrite = some l :=
  toList_map_some readWrite_writeItem l

@[simp] lemma toList_readElection (l : List ElectionInf) :
    (list (l.map electionItem)).toList readElection = some l :=
  toList_map_some readElection_electionItem l

lemma readPayment_paymentItem (p : PaymentPayload) :
    readPayment (paymentItem p) = some { p with inputs := p.inputs.map wireInput } := by
  have hin := toList_map_pure readInput_inputItem p.inputs
  have hout := toList_map_some readOutput_outputItem p.outputs
  simp [readPayment, paymentItem, hin, hout]

variable {d : Item} {m m' : Message}

/-- The payload of a message is read as the clone of the message. -/
lemma ofItem_rlpItem (h : m.rlpItem = some d) : ofItem m.app d = cloneMessage m := by
  cases m with
  | payment p =>
    cases h
    show (readPayment (paymentItem p)).map _ = _
    rw [readPayment_paymentItem]
    rfl
  | contractDeploy p =>
    cases h
    -- the first format is not the newest one, and only system contracts are written in it
    show (readDeployAny (deployItem p)).map _ = if p.readSet.all hasHeight then _ else none
    rw [deployItem]
    cases isSystemContractId p.contractId <;> cases hr : p.readSet.all hasHeight <;>
      simp [readDeployAny, readDeploy, readDeployV1, readEleNode, hr]
  | contractInvoke p =>
    cases h
    show (readInvoke (invokeItem p)).map _ = if p.readSet.all hasHeight then _ else none
    cases hr : p.readSet.all hasHeight <;> simp [readInvoke, invokeItem, hr]
  | contractStop p =>
    cases h
    show (readStop _).map _ = if p.readSet.all hasHeight then _ else none
    cases hr : p.readSet.all hasHeight <;> simp [readStop, hr]
  | signature p =>
    cases h
    show ((toList readSignature _).bind _).map _ = _
    rw [toList_map_some fun s => by simp [readSignature]]
    rfl
  | accountUpdate p =>
    cases h
    show ((toList readAccountWrite _).bind _).map _ = _
    rw [toList_map_some fun w => by simp [readAccountWrite]]
    rfl
  | contractTplRequest p =>
    cases h
    show ((toList (toArray 32) _).bind _).map _ = _
    rw [toList_map_some toArray_str]
    rfl
  | contractTpl p | data p | contractDeployRequest p | contractInvokeRequest p
  | contractStopRequest p =>
    cases h
    simp [app, ofItem, cloneMessage, readTpl, readData, readDeployRequest, readInvokeRequest,
      readStopRequest]
  | unknown app => cases h

lemma known_of_rlpItem (h : m.rlpItem = some d) : knownApp m.app = true := by
  cases m with
  | unknown app => cases h
  | _ => rfl

/-- A message is read back from its pair of code and data as its clone. -/
lemma ofTemp_messageTemp {i : Item} (h : messageTemp m = some i)
    (hsize : (encode i).length < 2 ^ 64) : ofTemp i = cloneMessage m := by
  obtain ⟨d, hd, rfl⟩ : ∃ d, m.rlpItem = some d ∧
      list [natItem m.app.toNat, .str (encode d)] = i := by
    simpa [messageTemp, bind_eq_some_iff] using h
  have hdata : (encode d).length < 2 ^ 64 :=
    (length_le_encode_of_str_mem (by simp)).trans_lt hsize
  show ((readUInt8 (natItem m.app.toNat)).bind fun app => ofData app (encode d)) = _
  rw [readUInt8_natItem, bind_some, ofData, dif_neg (by simp [known_of_rlpItem hd]),
    decode_encode d hdata, bind_some]
  exact ofItem_rlpItem hd

/-! ### What survives -/

/-- The read set of a contract result. -/
def readSet : Message → List ContractReadSet
  | .contractDeploy p => p.readSet
  | .contractInvoke p => p.readSet
  | .contractStop p => p.readSet
  | _ => []

/-- The outpoint of an input, if its hash is zero, has no indexes to lose. -/
def PlainOutpoint (i : Input) : Prop :=
  ∀ op, i.previousOutPoint = some op → emptyHash op.txHash →
    op.messageIndex = 0 ∧ op.outIndex = 0

lemma inputItem_wireInput_iff (i : Input) :
    inputItem (wireInput i) = inputItem i ↔ PlainOutpoint i := by
  obtain ⟨script, extra, op⟩ := i
  cases op with
  | none => simp [wireInput, PlainOutpoint]
  | some op =>
    cases hz : emptyHash op.txHash with
    | false => simp [wireInput, PlainOutpoint, hz, Option.filter]
    | true =>
      obtain ⟨txHash, messageIndex, outIndex⟩ := op
      obtain rfl : txHash = FixedBytes.zero 32 := by simpa [emptyHash] using hz
      have hindex : ∀ n : UInt32, natItem 0 = natItem n.toNat ↔ n = 0 := by
        intro n
        constructor
        · intro h
          exact (natItem_toNat_injective (m := 0) h).symm
        · rintro rfl
          rfl
      have hwire : wireInput ⟨script, extra, some ⟨FixedBytes.zero 32, messageIndex, outIndex⟩⟩ =
          ⟨script, extra, none⟩ := by
        simp [wireInput, emptyHash]
      rw [hwire]
      simp [PlainOutpoint, inputItem, hz, hindex]

/-- A message can be read back if every version of its read set has its height. -/
lemma isSome_cloneMessage_iff (h : knownApp m.app = true) :
    (cloneMessage m).isSome ↔ ∀ r ∈ m.readSet, hasHeight r := by
  have hall : ∀ (rs : List ContractReadSet) (m' : Message),
      (if rs.all hasHeight then some m' else none).isSome ↔ ∀ r ∈ rs, hasHeight r := by
    intro rs m'
    rw [← List.all_eq_true]
    cases rs.all hasHeight <;> simp
  cases m with
  | contractDeploy p | contractInvoke p | contractStop p => exact hall p.readSet _
  | unknown app => exact absurd (app.property.symm.trans h) Bool.false_ne_true
  | _ => simp [cloneMessage, readSet]

/-- A clone is the message itself, but for the inputs of a payment and a system contract's deploy
result. -/
lemma cloneMessage_cases (h : cloneMessage m = some m') :
    (m' = m ∧ m.inputs = []) ∨
    (∃ p, m = .payment p ∧ m' = .payment { p with inputs := p.inputs.map wireInput }) ∨
    ∃ p, m = .contractDeploy p ∧ isSystemContractId p.contractId ∧ m' = .contractDeploy
      { p with eleNode := { p.eleNode with juryCount := 0 }, duringTime := 0 } := by
  cases m with
  | payment p =>
    cases h
    exact .inr (.inl ⟨p, rfl, rfl⟩)
  | contractDeploy p =>
    obtain ⟨-, ⟨⟩⟩ := ite_none_right_eq_some.1 h
    split
    · rename_i hs
      exact .inr (.inr ⟨p, rfl, hs, rfl⟩)
    · exact .inl ⟨rfl, rfl⟩
  | contractInvoke p | contractStop p =>
    obtain ⟨-, ⟨⟩⟩ := ite_none_right_eq_some.1 h
    exact .inl ⟨rfl, rfl⟩
  | unknown app => cases h
  | _ =>
    cases h
    exact .inl ⟨rfl, rfl⟩

/-- The clone of a message is written as the message if no outpoint loses its indexes. -/
lemma rlpItem_cloneMessage_iff (h : cloneMessage m = some m') :
    m'.rlpItem = m.rlpItem ↔ ∀ i ∈ m.inputs, PlainOutpoint i := by
  rcases cloneMessage_cases h with ⟨rfl, hnil⟩ | ⟨p, rfl, rfl⟩ | ⟨p, rfl, hs, rfl⟩
  · simp [hnil]
  · simp [rlpItem, paymentItem, inputs, inputItem_wireInput_iff]
  · simp [rlpItem, deployItem, inputs, hs]

/-- What the wire form of a message is made of. -/
def wire (m : Message) : UInt8 × Option Item :=
  (m.app, m.rlpItem)

lemma app_cloneMessage (h : cloneMessage m = some m') : m'.app = m.app := by
  rcases cloneMessage_cases h with ⟨rfl, -⟩ | ⟨p, rfl, rfl⟩ | ⟨p, rfl, -, rfl⟩ <;> rfl

/-- The deep copies of a message and of its clone are written alike. -/
lemma wire_copyMessage_clone (h : cloneMessage m = some m')
    (hwire : m'.rlpItem = m.rlpItem) : (copyMessage m').map wire = (copyMessage m).map wire := by
  rcases cloneMessage_cases h with ⟨rfl, -⟩ | ⟨p, rfl, rfl⟩ | ⟨p, rfl, hs, rfl⟩
  · rfl
  · exact congrArg (fun d => some ((0 : UInt8), d)) hwire
  · simp only [copyMessage]
    cases copyReadSet p.readSet with
    | none => rfl
    | some rs => simp [wire, app, rlpItem, deployItem, hs]

end Message

namespace Transaction

open Message (wire)

variable {m m' : Message} {msgs msgs' : List Message} {b : Bytes} {tx tx' : Transaction}
  {i : Item} {l : List Item}

lemma map_wire_upToRequest (h : msgs'.map wire = msgs.map wire) :
    (upToRequest msgs').map wire = (upToRequest msgs).map wire := by
  induction msgs generalizing msgs' with
  | nil => rw [map_eq_nil_iff.1 h]
  | cons m msgs ih =>
    obtain ⟨m', msgs', rfl, hm, hms⟩ := map_eq_cons_iff.1 h
    have hreq : m'.isRequest = m.isRequest := by
      rw [isRequest, isRequest, (Prod.mk.inj hm).1]
    rw [upToRequest, upToRequest, hreq]
    split
    · rw [map_cons, map_cons, hm]
    · rw [map_cons, map_cons, hm, ih hms]

/-- The bytes of a transaction depend on the wire form of its messages only. -/
lemma encodeRLP_congr (h : msgs'.map wire = msgs.map wire) (certId : Bytes) (illegal : Bool) :
    (Transaction.mk msgs' certId illegal).encodeRLP =
      (Transaction.mk msgs certId illegal).encodeRLP := by
  -- The item of a message is computed from its wire form.
  have htemp : messageTemp = (fun w : UInt8 × Option Item => w.2.bind fun d =>
      some (.list [natItem w.1.toNat, .str (encode d)])) ∘ wire := rfl
  show ((msgs'.mapM messageTemp).bind _).map _ = ((msgs.mapM messageTemp).bind _).map _
  rw [htemp, ← mapM_map, h, mapM_map]

lemma encodeRLP_eq_some (h : tx.encodeRLP = some b) :
    ∃ l, tx.messages.mapM messageTemp = some l ∧
      b = encode (.list [.list l, .str tx.certId, boolItem tx.illegal]) := by
  simp only [encodeRLP, rlpItem, map_eq_some_iff, do_eq_some, some.injEq] at h
  obtain ⟨_, ⟨l, hl, rfl⟩, rfl⟩ := h
  exact ⟨l, hl, rfl⟩

/-- The messages of a transaction that has bytes are no longer than the bytes. -/
lemma length_encode_le {rest : List Item} (h : i ∈ l) :
    (encode i).length ≤ (encode (.list (.list l :: rest))).length :=
  (encode_length_le_of_mem h).trans (encode_length_le_of_mem mem_cons_self)

lemma mapM_ofTemp (h : List.Forall₂ (messageTemp · = some ·) msgs l)
    (hsize : ∀ i ∈ l, (encode i).length < 2 ^ 64) :
    l.mapM ofTemp = msgs.mapM cloneMessage := by
  induction h with
  | nil => rfl
  | cons hm _ ih =>
    rw [mapM_cons, mapM_cons, ofTemp_messageTemp hm (hsize _ mem_cons_self),
      ih fun i hi => hsize i (mem_cons_of_mem _ hi)]

/-- What is read back from the bytes of a transaction is its clone. -/
theorem decodeRLP_encodeRLP (h : tx.encodeRLP = some b) (hsize : b.length < 2 ^ 64) :
    decodeRLP b = tx.clone := by
  obtain ⟨l, hl, rfl⟩ := encodeRLP_eq_some h
  have hread : l.mapM ofTemp = tx.messages.mapM cloneMessage := by
    apply mapM_ofTemp (Lib.forall₂_of_mapM hl)
    intro i hi
    exact (length_encode_le hi).trans_lt hsize
  rw [decodeRLP, decode_encode _ hsize]
  show ((l.mapM ofTemp).bind fun msgs => (some tx.certId).bind fun certId =>
    (boolItem tx.illegal).toBool.bind fun illegal =>
      some (Transaction.mk msgs certId illegal)) = _
  rw [hread, toBool_boolItem]
  rfl

/-! ### Round trips -/

/-- The bytes of a transaction can be read, and what is read has the same bytes and hashes. -/
def RoundTrips (tx : Transaction) : Prop :=
  ∃ b tx', tx.encodeRLP = some b ∧ decodeRLP b = some tx' ∧ tx'.encodeRLP = some b ∧
    ∀ P, tx'.hash P = tx.hash P ∧ tx'.requestHash P = tx.requestHash P

lemma exists_encodeRLP (h : ∀ m ∈ tx.messages, knownApp m.app = true) :
    ∃ b, tx.encodeRLP = some b := by
  have htemp : ∀ m ∈ tx.messages, ∃ i, messageTemp m = some i := by
    intro m hm
    have hknown := h m hm
    cases m with
    | unknown app => exact absurd (app.property.symm.trans hknown) Bool.false_ne_true
    | _ => exact ⟨_, rfl⟩
  obtain ⟨l, hl⟩ := Lib.exists_mapM htemp
  exact ⟨_, congrArg (fun msgs => (Option.bind msgs _).map encode) hl⟩

lemma rlpItem_of_messageTemp (h : messageTemp m = some i) (h' : messageTemp m' = some i)
    (hsize : (encode i).length < 2 ^ 64) : m'.rlpItem = m.rlpItem := by
  simp only [messageTemp, do_eq_some, some.injEq] at h h'
  obtain ⟨d, hd, rfl⟩ := h
  obtain ⟨d', hd', heq⟩ := h'
  simp only [list.injEq, List.cons.injEq, str.injEq, and_true] at heq
  have hdata : (encode d).length < 2 ^ 64 :=
    (length_le_encode_of_str_mem (by simp)).trans_lt hsize
  rw [hd, hd', encode_injective hdata heq.2.symm]

/-- Messages written as the same items have payloads written as the same items. -/
lemma rlpItems_of_mapM {R : Message → Message → Prop} (h : List.Forall₂ R msgs msgs')
    (hl : msgs.mapM messageTemp = some l) (hl' : msgs'.mapM messageTemp = some l)
    (hsize : ∀ i ∈ l, (encode i).length < 2 ^ 64) :
    List.Forall₂ (fun m m' => R m m' ∧ m'.rlpItem = m.rlpItem) msgs msgs' := by
  have hz := Lib.forall₂_of_mapM hl
  have hz' := Lib.forall₂_of_mapM hl'
  clear hl hl'
  induction h generalizing l with
  | nil => exact .nil
  | cons hR _ ih =>
    cases hz with
    | cons hm hms =>
      cases hz' with
      | cons hm' hms' =>
        refine .cons ⟨hR, rlpItem_of_messageTemp hm hm' (hsize _ mem_cons_self)⟩ ?_
        exact ih (fun i hi => hsize i (mem_cons_of_mem _ hi)) hms hms'

section

variable (h : List.Forall₂ (fun m m' => cloneMessage m = some m' ∧ m'.rlpItem = m.rlpItem)
  msgs msgs')
include h

lemma map_wire_clones :
    msgs'.map wire = msgs.map wire := by
  induction h with
  | nil => rfl
  | cons hm _ ih =>
    rw [map_cons, map_cons, ih]
    exact congrArg (· :: _) (Prod.ext (app_cloneMessage hm.1) hm.2)

/-- The deep copies of messages and of their clones are written alike. -/
lemma map_wire_txMessages :
    (msgs'.mapM copyMessage).map (List.map wire) = (msgs.mapM copyMessage).map (List.map wire) := by
  induction h with
  | nil => rfl
  | @cons m m' msgs msgs' hm _ ih =>
    have hcopy := wire_copyMessage_clone hm.1 hm.2
    rw [mapM_cons, mapM_cons]
    cases hc : copyMessage m <;> cases hc' : copyMessage m' <;>
      simp only [hc, hc', map_some, map_none, reduceCtorEq, some.injEq] at hcopy
    · rfl
    · cases hcs : msgs.mapM copyMessage <;> cases hcs' : msgs'.mapM copyMessage <;>
        simp_all

end

lemma requestHash_congr (P : Primitives)
    (h : tx'.txMessages.map (List.map wire) = tx.txMessages.map (List.map wire)) :
    tx'.requestHash P = tx.requestHash P := by
  rw [requestHash, requestHash]
  cases hc : tx.txMessages <;> cases hc' : tx'.txMessages <;>
    simp only [hc, hc', map_some, map_none, reduceCtorEq, some.injEq] at h
  · rfl
  rename_i msgs msgs'
  show (Transaction.mk (upToRequest msgs') [] false).encodeRLP.map P.sha3 =
    (Transaction.mk (upToRequest msgs) [] false).encodeRLP.map P.sha3
  rw [encodeRLP_congr (map_wire_upToRequest h)]

/-- The messages of a clone with the same bytes are written as the messages of the
transaction. -/
lemma clone_of_encodeRLP (hb : tx.encodeRLP = some b) (hsize : b.length < 2 ^ 64)
    (hclone : tx.clone = some tx') (hb' : tx'.encodeRLP = some b) :
    ∀ m ∈ tx.messages, ∃ m', cloneMessage m = some m' ∧ m'.rlpItem = m.rlpItem := by
  simp only [clone, do_eq_some, some.injEq] at hclone
  obtain ⟨msgs', hmsgs', rfl⟩ := hclone
  obtain ⟨l, hl, rfl⟩ := encodeRLP_eq_some hb
  obtain ⟨l', hl', heq⟩ := encodeRLP_eq_some hb'
  have hitem := encode_injective hsize heq
  obtain ⟨rfl, -⟩ := hitem
  have hclones := rlpItems_of_mapM (Lib.forall₂_of_mapM hmsgs') hl hl' fun i hi =>
    (length_encode_le hi).trans_lt hsize
  have hall := hclones.imp (S := fun m _ =>
    (∃ m', cloneMessage m = some m' ∧ m'.rlpItem = m.rlpItem) ∧ True)
    fun m m' hm => ⟨⟨m', hm⟩, trivial⟩
  exact ((forall₂_and_left _ _).1 hall).1

/-- A transaction of messages with known codes survives its wire form, bytes and hashes, exactly
if every version in its read sets has a height and no outpoint of the zero hash has indexes. -/
theorem roundTrip_iff (tx : Transaction) (hknown : ∀ m ∈ tx.messages, knownApp m.app = true)
    (hsize : ∀ b, tx.encodeRLP = some b → b.length < 2 ^ 64) :
    tx.RoundTrips ↔ ∀ m ∈ tx.messages,
      (∀ r ∈ m.readSet, ∀ v, r.version = some v → v.height.isSome) ∧
      ∀ i ∈ m.inputs, ∀ op, i.previousOutPoint = some op → emptyHash op.txHash →
        op.messageIndex = 0 ∧ op.outIndex = 0 := by
  have hheight : ∀ m : Message, (∀ r ∈ m.readSet, ∀ v, r.version = some v → v.height.isSome) ↔
      ∀ r ∈ m.readSet, hasHeight r := by
    intro m
    refine forall₂_congr fun r _ => ?_
    rw [hasHeight, Option.all_eq_true]
  constructor
  · rintro ⟨b, tx', hb, hread, hb', -⟩ m hm
    rw [decodeRLP_encodeRLP hb (hsize b hb)] at hread
    obtain ⟨m', hclone, hitem⟩ := clone_of_encodeRLP hb (hsize b hb) hread hb' m hm
    refine ⟨?_, (rlpItem_cloneMessage_iff hclone).1 hitem⟩
    rw [hheight, ← isSome_cloneMessage_iff (hknown m hm), hclone]
    rfl
  intro h
  obtain ⟨b, hb⟩ := exists_encodeRLP hknown
  have hclone : ∀ m ∈ tx.messages, ∃ m', cloneMessage m = some m' := by
    intro m hm
    rw [← isSome_iff_exists, isSome_cloneMessage_iff (hknown m hm), ← hheight]
    exact (h m hm).1
  obtain ⟨msgs', hmsgs'⟩ := Lib.exists_mapM hclone
  have hplain := forall₂_and_left _ _ |>.2 ⟨fun m hm => (h m hm).2, Lib.forall₂_of_mapM hmsgs'⟩
  have hclones : List.Forall₂ (fun m m' => cloneMessage m = some m' ∧ m'.rlpItem = m.rlpItem)
      tx.messages msgs' :=
    hplain.imp fun m m' hm => ⟨hm.2, (rlpItem_cloneMessage_iff hm.2).2 hm.1⟩
  have hwire := map_wire_clones hclones
  refine ⟨b, { tx with messages := msgs' }, hb, ?_, ?_, fun P => ⟨?_, ?_⟩⟩
  · rw [decodeRLP_encodeRLP hb (hsize b hb), clone, hmsgs']
    rfl
  · exact (encodeRLP_congr hwire tx.certId tx.illegal).trans hb
  · exact congrArg (Option.map P.sha3) (encodeRLP_congr hwire tx.certId false)
  · exact requestHash_congr P (map_wire_txMessages hclones)

/-! ### Deep copies -/

lemma map_wire_copies (h : ∀ m ∈ tx.messages, (copyMessage m).map wire = some m.wire) :
    ∃ msgs, tx.txMessages = some msgs ∧ msgs.map wire = tx.messages.map wire := by
  unfold txMessages
  generalize tx.messages = msgs at h
  induction msgs with
  | nil => exact ⟨[], rfl, rfl⟩
  | cons m msgs ih =>
    obtain ⟨m', hcopy, hwire⟩ := map_eq_some_iff.1 (h m mem_cons_self)
    obtain ⟨msgs', hcopies, hwires⟩ := ih fun m hm => h m (mem_cons_of_mem _ hm)
    exact ⟨m' :: msgs', by simp [mapM_cons, hcopy, hcopies], by simp [hwire, hwires]⟩

/-- A message can be copied and its copy is written as the message exactly if each of its reads has
a version. A transaction of such messages has the encoding and the request hash of its copies. -/
theorem copyMessage_iff (m : Message) :
    ((copyMessage m).map wire = some m.wire ↔ ∀ r ∈ m.readSet, r.version.isSome) ∧
      ∀ tx : Transaction, (∀ m ∈ tx.messages, (copyMessage m).map wire = some m.wire) →
        ∃ msgs, tx.txMessages = some msgs ∧
          { tx with messages := msgs }.encodeRLP = tx.encodeRLP ∧
          ∀ P,
            tx.requestHash P = (Transaction.mk (upToRequest tx.messages) [] false).rlpHash P := by
  refine ⟨?_, fun tx h => ?_⟩
  · cases m with
    | contractDeploy p | contractStop p =>
      simp [copyMessage, copyReadSet_eq_some_iff, bind_eq_some_iff, readSet]
    | contractInvoke p =>
      constructor
      · intro h r (hr : r ∈ p.readSet)
        have hreads : copyInvokeReadSet p.readSet = p.readSet :=
          congrArg (·.readSet) (invokeItem_injective (some.inj (Prod.mk.inj (some.inj h)).2))
        rw [← hreads] at hr
        obtain ⟨r, -, rfl⟩ := mem_map.1 hr
        rfl
      · intro h
        have hreads : copyInvokeReadSet p.readSet = p.readSet := by
          apply (map_congr_left _).trans (map_id _)
          rintro ⟨key, _ | version, contractId⟩ hr
          · cases h _ hr
          · rfl
        rw [copyMessage, hreads, map_some]
    | _ => simp [copyMessage, readSet]
  · obtain ⟨msgs, hcopies, hwire⟩ := map_wire_copies h
    refine ⟨msgs, hcopies, encodeRLP_congr hwire _ _, fun P => ?_⟩
    rw [requestHash, hcopies]
    exact congrArg (Option.map P.sha3) (encodeRLP_congr (map_wire_upToRequest hwire) _ _)

end Transaction

/-! ### An absent key

A contract that reads a key no one has written records the read without a version. The transaction
survives its wire form. The deep copy of its messages has an empty version there, which does
not. -/

namespace AbsentKey

/-- An invoke result with a read of the given version, after a minting payment. -/
def result (version : Option StateVersion) : Transaction :=
  ⟨[.payment ⟨[⟨[], [], none⟩], [⟨1, [], newPTNAsset⟩], 0⟩,
    .contractInvoke ⟨[1], [], [⟨[2], version, [1]⟩], [], [], ⟨0, []⟩⟩], [], false⟩

/-- A read without a version is written and read back. -/
theorem round_trips : (result none).RoundTrips := by
  apply ((result none).roundTrip_iff (by decide) _).2
  · simp [result, readSet, inputs]
  intro b hb
  have hlength : (result none).encodeRLP.all (fun b => b.length < 2 ^ 64) := by decide +kernel
  rw [hb] at hlength
  exact of_decide_eq_true hlength

/-- The copy of the messages has a version without a height, which cannot be read back. -/
theorem copy_unreadable :
    (result none).txMessages = some (result (some ⟨none, 0⟩)).messages ∧
      (result (some ⟨none, 0⟩)).encodeRLP.map decodeRLP = some none ∧
      ¬ (result (some ⟨none, 0⟩)).RoundTrips := by
  have hnone : (result (some ⟨none, 0⟩)).encodeRLP.map decodeRLP = some none := by
    decide +kernel
  refine ⟨rfl, hnone, ?_⟩
  rintro ⟨b, tx', hb, hread, -⟩
  rw [hb, map_some, hread] at hnone
  cases hnone

/-- A read without a version in the result of a stopped contract crashes the copy; in the result of
an invoked one it changes the encoding. -/
theorem copies_differ :
    copyMessage (.contractStop ⟨[1], [⟨[2], none, [1]⟩], [], ⟨0, []⟩⟩) = none ∧
      ((result none).txMessages.bind fun msgs => { result none with messages := msgs }.encodeRLP) ≠
        (result none).encodeRLP := by
  decide +kernel

end AbsentKey

end ZwsChain
