import ZwsChain.Common.Address

/-!
# Messages of a transaction

The payloads a transaction is made of, as `dag/modules` declares them, with their wire form and
their deep copy. A message is one inductive type: decoding picks the payload type by the
application code, so a code and a payload of another type cannot meet. A code that is not in the
list has no payload; encoding such a message is a nil-pointer panic in Go and `none` here.

* `Message.app`, `Message.isRequest`: the application codes.
* `Message.rlpItem`: what `EncodeRLP` writes.
* `copyMessage`: the deep copy, which dereferences a missing read-set version of a deploy or stop
  result (`none`) and replaces one of an invoke result by an empty version.

Sources without a file are in `dag/modules/message.go`.
-/

open List Option

namespace ZwsChain

open Lib.Rlp (Item)

/-! ### Assets and outpoints -/

/-- Source: `dag/modules/assetId.go`, `AssetId` -/
abbrev AssetId := FixedBytes 16

/-- Source: `dag/modules/asset.go`, `Asset` -/
structure Asset where
  assetId : AssetId
  uniqueId : FixedBytes 16
  deriving DecidableEq

/-- Source: `dag/modules/assetId.go`, `PTNCOIN` -/
def ptnCoin : AssetId :=
  ⟨[0x40, 0x00, 0x82, 0xBB, 0x08, 0, 0, 0, 0, 0, 0, 0, 0, 0, 0, 0], rfl⟩

/-- The asset of an id without a unique id.
Source: `dag/modules/assetId.go`, `ToAsset` -/
def AssetId.toAsset (id : AssetId) : Asset :=
  ⟨id, FixedBytes.zero 16⟩

/-- Source: `dag/modules/asset.go`, `NewPTNAsset` -/
def newPTNAsset : Asset :=
  AssetId.toAsset ptnCoin

/-- Source: `dag/modules/amount_asset.go`, `AmountAsset` -/
structure AmountAsset where
  amount : UInt64
  asset : Asset
  deriving DecidableEq

/-- Source: `dag/modules/transaction.go`, `Addition` -/
structure Addition where
  addr : Address
  amount : UInt64
  asset : Asset
  deriving DecidableEq

/-- Source: `dag/modules/transaction.go`, `OutPoint` -/
structure OutPoint where
  txHash : Hash
  messageIndex : UInt32
  outIndex : UInt32
  deriving DecidableEq

/-! ### Payloads -/

/-- Source: `dag/modules/payment.go`, `Input` -/
structure Input where
  signatureScript : Bytes
  extra : Bytes
  /-- `none` in a minting payment. -/
  previousOutPoint : Option OutPoint
  deriving DecidableEq

/-- Source: `dag/modules/payment.go`, `Output` -/
structure Output where
  value : UInt64
  pkScript : Bytes
  asset : Asset
  deriving DecidableEq

/-- Source: `dag/modules/payment.go`, `PaymentPayload` -/
structure PaymentPayload where
  inputs : List Input
  outputs : List Output
  lockTime : UInt32
  deriving DecidableEq

/-- A payment that mints: no inputs, or an input that spends nothing.
Source: `dag/modules/payment.go`, `IsCoinbase` -/
def PaymentPayload.isCoinbase (pay : PaymentPayload) : Bool :=
  pay.inputs.isEmpty || pay.inputs.any fun input => input.previousOutPoint.isNone

/-- Source: `ContractError` -/
structure ContractError where
  code : UInt32
  message : Bytes
  deriving DecidableEq

/-- Source: `dag/modules/unit.go`, `ChainIndex` -/
structure ChainIndex where
  assetID : AssetId
  index : UInt64
  deriving DecidableEq

/-- Source: `StateVersion` -/
structure StateVersion where
  height : Option ChainIndex
  txIndex : UInt32
  deriving DecidableEq

/-- A value of the contract state with its version.
Source: `ContractStateValue` -/
structure ContractStateValue where
  value : Bytes
  version : StateVersion
  deriving DecidableEq

/-- Source: `ContractReadSet` -/
structure ContractReadSet where
  key : Bytes
  version : Option StateVersion
  contractId : Bytes
  deriving DecidableEq

/-- Source: `ContractWriteSet` -/
structure ContractWriteSet where
  isDelete : Bool
  key : Bytes
  value : Bytes
  contractId : Bytes
  deriving DecidableEq

/-- Source: `ElectionInf` -/
structure ElectionInf where
  eType : UInt8
  addrHash : Hash
  proof : Bytes
  publicKey : Bytes
  deriving DecidableEq

/-- Source: `ElectionNode` -/
structure ElectionNode where
  juryCount : UInt64
  eleList : List ElectionInf
  deriving DecidableEq

/-- Source: `ContractTplPayload` -/
structure ContractTplPayload where
  templateId : Bytes
  size : UInt16
  byteCode : Bytes
  errMsg : ContractError
  deriving DecidableEq

/-- Source: `ContractDeployPayload` -/
structure ContractDeployPayload where
  templateId : Bytes
  contractId : Bytes
  name : Bytes
  args : List Bytes
  eleNode : ElectionNode
  readSet : List ContractReadSet
  writeSet : List ContractWriteSet
  duringTime : UInt64
  errMsg : ContractError
  deriving DecidableEq

/-- Source: `ContractInvokePayload` -/
structure ContractInvokePayload where
  contractId : Bytes
  args : List Bytes
  readSet : List ContractReadSet
  writeSet : List ContractWriteSet
  payload : Bytes
  errMsg : ContractError
  deriving DecidableEq

/-- Source: `ContractStopPayload` -/
structure ContractStopPayload where
  contractId : Bytes
  readSet : List ContractReadSet
  writeSet : List ContractWriteSet
  errMsg : ContractError
  deriving DecidableEq

/-- Source: `SignatureSet` -/
structure SignatureSet where
  pubKey : Bytes
  signature : Bytes
  deriving DecidableEq

/-- Source: `SignaturePayload` -/
structure SignaturePayload where
  signatures : List SignatureSet
  deriving DecidableEq

/-- Source: `DataPayload` -/
structure DataPayload where
  mainData : Bytes
  extraData : Bytes
  reference : Bytes
  deriving DecidableEq

/-- Source: `AccountStateWriteSet` -/
structure AccountStateWriteSet where
  isDelete : Bool
  key : Bytes
  value : Bytes
  deriving DecidableEq

/-- Source: `AccountStateUpdatePayload` -/
structure AccountStateUpdatePayload where
  writeSet : List AccountStateWriteSet
  deriving DecidableEq

/-- Source: `ContractInstallRequestPayload` -/
structure ContractInstallRequestPayload where
  tplName : Bytes
  tplDescription : Bytes
  path : Bytes
  version : Bytes
  abi : Bytes
  language : Bytes
  addrHash : List Hash
  creator : Bytes
  deriving DecidableEq

/-- Source: `ContractDeployRequestPayload` -/
structure ContractDeployRequestPayload where
  templateId : Bytes
  args : List Bytes
  extData : Bytes
  timeout : UInt32
  deriving DecidableEq

/-- Source: `ContractInvokeRequestPayload` -/
structure ContractInvokeRequestPayload where
  contractId : Bytes
  args : List Bytes
  timeout : UInt32
  deriving DecidableEq

/-- Source: `ContractStopRequestPayload` -/
structure ContractStopRequestPayload where
  contractId : Bytes
  txid : Bytes
  deleteImage : Bool
  deriving DecidableEq

/-! ### Messages -/

/-- The application codes that decode to a payload.
Source: `MessageType` -/
def knownApp (app : UInt8) : Bool :=
  app ≤ 7 || (100 ≤ app && app ≤ 103)

/-- A message: its application code with the payload of that code.
Source: `Message`; `dag/modules/transaction_rlp.go`, `temp2Tx` -/
inductive Message where
  | payment (p : PaymentPayload)
  | contractTpl (p : ContractTplPayload)
  | contractDeploy (p : ContractDeployPayload)
  | contractInvoke (p : ContractInvokePayload)
  | contractStop (p : ContractStopPayload)
  | signature (p : SignaturePayload)
  | data (p : DataPayload)
  | accountUpdate (p : AccountStateUpdatePayload)
  | contractTplRequest (p : ContractInstallRequestPayload)
  | contractDeployRequest (p : ContractDeployRequestPayload)
  | contractInvokeRequest (p : ContractInvokeRequestPayload)
  | contractStopRequest (p : ContractStopRequestPayload)
  /-- A code without a payload type; the payload stays nil. -/
  | unknown (app : {a : UInt8 // knownApp a = false})
  deriving DecidableEq

/-- Source: `dag/modules/message.go`, the constants `APP_…` -/
def Message.app : Message → UInt8
  | .payment _ => 0
  | .contractTpl _ => 1
  | .contractDeploy _ => 2
  | .contractInvoke _ => 3
  | .contractStop _ => 4
  | .signature _ => 5
  | .data _ => 6
  | .accountUpdate _ => 7
  | .contractTplRequest _ => 100
  | .contractDeployRequest _ => 101
  | .contractInvokeRequest _ => 102
  | .contractStopRequest _ => 103
  | .unknown app => app

/-- Source: `IsRequest` -/
def Message.isRequest (m : Message) : Bool :=
  m.app > 99

/-- The contract result codes and the signature code, as `IsContractTx` tests them. -/
def Message.isContractMsg (m : Message) : Bool :=
  1 ≤ m.app && m.app ≤ 5

/-- Whether a message is a payment. -/
def Message.isPayment : Message → Bool
  | .payment _ => true
  | _ => false

/-- The inputs of a payment. -/
def Message.inputs : Message → List Input
  | .payment p => p.inputs
  | _ => []

/-- The outputs of a payment. -/
def Message.outputs : Message → List Output
  | .payment p => p.outputs
  | _ => []

/-- Whether a message is a signature message. -/
def Message.isSignature : Message → Bool
  | .signature _ => true
  | _ => false

/-! ### Wire form -/

namespace Message

/-- Source: Go's `rlp` of a `bool` -/
def boolItem (b : Bool) : Item :=
  .str (if b then [1] else [])

/-- Source: Go's `rlp` of an unsigned integer -/
def natItem (n : Nat) : Item :=
  .str (Lib.Rlp.putint n)

/-- Source: Go's `rlp` of a list of byte slices -/
def argsItem (args : List Bytes) : Item :=
  .list (args.map .str)

/-- Source: Go's `rlp` of `Asset` -/
def assetItem (a : Asset) : Item :=
  .list [.str a.assetId.val, .str a.uniqueId.val]

/-- An input without an outpoint is written with the zero outpoint.
Source: `dag/modules/transaction_rlp.go`, `Input.EncodeRLP` -/
def inputItem (i : Input) : Item :=
  let op := i.previousOutPoint.getD ⟨FixedBytes.zero 32, 0, 0⟩
  .list [.str i.signatureScript, .str i.extra, .str op.txHash.val,
    natItem op.messageIndex.toNat, natItem op.outIndex.toNat]

/-- Source: Go's `rlp` of `Output` -/
def outputItem (o : Output) : Item :=
  .list [.ofUInt64 o.value, .str o.pkScript, assetItem o.asset]

/-- Source: Go's `rlp` of `ContractError` -/
def errItem (e : ContractError) : Item :=
  .list [natItem e.code.toNat, .str e.message]

/-- A missing height writes nothing.
Source: `dag/modules/unit.go`, `ChainIndex.EncodeRLP` -/
def heightItems : Option ChainIndex → List Item
  | none => []
  | some h => [.list [.str h.assetID.val, .ofUInt64 h.index]]

/-- A missing version is the empty list.
Source: Go's `rlp` of `*StateVersion` -/
def versionItem : Option StateVersion → Item
  | none => .list []
  | some v => .list (heightItems v.height ++ [natItem v.txIndex.toNat])

/-- Source: Go's `rlp` of `ContractReadSet` -/
def readItem (r : ContractReadSet) : Item :=
  .list [.str r.key, versionItem r.version, .str r.contractId]

/-- Source: Go's `rlp` of `ContractWriteSet` -/
def writeItem (w : ContractWriteSet) : Item :=
  .list [boolItem w.isDelete, .str w.key, .str w.value, .str w.contractId]

/-- Source: Go's `rlp` of `ElectionInf` -/
def electionItem (e : ElectionInf) : Item :=
  .list [natItem e.eType.toNat, .str e.addrHash.val, .str e.proof, .str e.publicKey]

/-- A system contract's deploy result is written in the first format, without the jury count and
the duration.
Source: `dag/modules/message_rlp.go`, `ContractDeployPayload.EncodeRLP` -/
def deployItem (p : ContractDeployPayload) : Item :=
  if isSystemContractId p.contractId then
    .list [.str p.templateId, .str p.contractId, .str p.name, argsItem p.args,
      .list (p.eleNode.eleList.map electionItem), .list (p.readSet.map readItem),
      .list (p.writeSet.map writeItem), errItem p.errMsg]
  else
    .list [.str p.templateId, .str p.contractId, .str p.name, argsItem p.args,
      .list [.ofUInt64 p.eleNode.juryCount, .list (p.eleNode.eleList.map electionItem)],
      .list (p.readSet.map readItem), .list (p.writeSet.map writeItem),
      .ofUInt64 p.duringTime, errItem p.errMsg]

/-- Source: Go's `rlp` of `ContractInvokePayload` -/
def invokeItem (p : ContractInvokePayload) : Item :=
  .list [.str p.contractId, argsItem p.args, .list (p.readSet.map readItem),
    .list (p.writeSet.map writeItem), .str p.payload, errItem p.errMsg]

/-- Source: Go's `rlp` of `PaymentPayload` -/
def paymentItem (p : PaymentPayload) : Item :=
  .list [.list (p.inputs.map inputItem), .list (p.outputs.map outputItem), natItem p.lockTime.toNat]

/-- The payload of a message as an item; `none` for a message without a payload.
Source: Go's `rlp` of the payload types -/
def rlpItem : Message → Option Item
  | .payment p => some (paymentItem p)
  | .contractTpl p => some <| .list [.str p.templateId, natItem p.size.toNat, .str p.byteCode,
      errItem p.errMsg]
  | .contractDeploy p => some (deployItem p)
  | .contractInvoke p => some (invokeItem p)
  | .contractStop p => some <| .list [.str p.contractId, .list (p.readSet.map readItem),
      .list (p.writeSet.map writeItem), errItem p.errMsg]
  | .signature p => some <| .list [.list (p.signatures.map fun s =>
    .list [.str s.pubKey, .str s.signature])]
  | .data p => some <| .list [.str p.mainData, .str p.extraData, .str p.reference]
  | .accountUpdate p => some <| .list [.list (p.writeSet.map fun w =>
    .list [boolItem w.isDelete, .str w.key, .str w.value])]
  | .contractTplRequest p => some <| .list [.str p.tplName, .str p.tplDescription, .str p.path,
      .str p.version, .str p.abi, .str p.language, .list (p.addrHash.map fun h => .str h.val),
      .str p.creator]
  | .contractDeployRequest p => some <| .list [.str p.templateId, argsItem p.args,
      .str p.extData, natItem p.timeout.toNat]
  | .contractInvokeRequest p => some <| .list [.str p.contractId, argsItem p.args,
      natItem p.timeout.toNat]
  | .contractStopRequest p => some <| .list [.str p.contractId, .str p.txid, boolItem p.deleteImage]
  | .unknown _ => none

/-! ### The wire form of an invoke result determines it -/

lemma natItem_toNat_injective {m n : UInt32} (h : natItem m.toNat = natItem n.toNat) : m = n := by
  have hm := m.toNat_lt
  have hn := n.toNat_lt
  have heq := congrArg Lib.Rlp.ofBE (Item.str.inj h)
  rw [Lib.Rlp.ofBE_putint (by omega), Lib.Rlp.ofBE_putint (by omega)] at heq
  exact UInt32.toNat_inj.1 heq

lemma boolItem_injective : Function.Injective boolItem := by
  intro a b h
  cases a <;> cases b <;> first | rfl | simp [boolItem] at h

lemma argsItem_injective : Function.Injective argsItem := by
  intro a b h
  have hstr : Function.Injective Item.str := fun _ _ => Item.str.inj
  exact map_injective_iff.2 hstr (Item.list.inj h)

lemma errItem_injective : Function.Injective errItem := by
  rintro ⟨c, m⟩ ⟨c', m'⟩ h
  simp only [errItem, Item.list.injEq, List.cons.injEq, Item.str.injEq, and_true] at h
  obtain ⟨hc, rfl⟩ := h
  rw [natItem_toNat_injective hc]

lemma versionItem_injective : Function.Injective versionItem := by
  intro v w h
  match v, w with
  | none, none => rfl
  | none, some ⟨none, _⟩ | none, some ⟨some _, _⟩ => simp [versionItem, heightItems] at h
  | some ⟨none, _⟩, none | some ⟨some _, _⟩, none => simp [versionItem, heightItems] at h
  | some ⟨none, t⟩, some ⟨none, t'⟩ =>
    simp only [versionItem, heightItems, nil_append, Item.list.injEq, List.cons.injEq,
      and_true] at h
    rw [natItem_toNat_injective h]
  | some ⟨none, _⟩, some ⟨some _, _⟩ | some ⟨some _, _⟩, some ⟨none, _⟩ =>
    simp [versionItem, heightItems] at h
  | some ⟨some ⟨a, i⟩, t⟩, some ⟨some ⟨a', i'⟩, t'⟩ =>
    simp only [versionItem, heightItems, cons_append, nil_append, Item.list.injEq,
      List.cons.injEq, Item.str.injEq, and_true] at h
    obtain ⟨⟨ha, hi⟩, ht⟩ := h
    rw [natItem_toNat_injective ht, Lib.Rlp.ofUInt64_injective hi, Subtype.ext ha]

lemma readItem_injective : Function.Injective readItem := by
  rintro ⟨k, v, c⟩ ⟨k', v', c'⟩ h
  simp only [readItem, Item.list.injEq, List.cons.injEq, Item.str.injEq, and_true] at h
  obtain ⟨rfl, hv, rfl⟩ := h
  rw [versionItem_injective hv]

lemma writeItem_injective : Function.Injective writeItem := by
  rintro ⟨d, k, v, c⟩ ⟨d', k', v', c'⟩ h
  simp only [writeItem, Item.list.injEq, List.cons.injEq, Item.str.injEq, and_true] at h
  obtain ⟨hd, rfl, rfl, rfl⟩ := h
  rw [boolItem_injective hd]

lemma invokeItem_injective : Function.Injective invokeItem := by
  rintro ⟨c, a, r, w, p, e⟩ ⟨c', a', r', w', p', e'⟩ h
  simp only [invokeItem, Item.list.injEq, List.cons.injEq, Item.str.injEq, and_true] at h
  obtain ⟨rfl, ha, hr, hw, rfl, he⟩ := h
  rw [argsItem_injective ha, map_injective_iff.2 readItem_injective hr,
    map_injective_iff.2 writeItem_injective hw, errItem_injective he]

end Message

/-! ### Deep copy -/

/-- The read set of a deploy or stop result is copied through its version pointer, so a missing
version is a nil-pointer panic.
Source: `CopyMessage`, cases `APP_CONTRACT_DEPLOY` and
`APP_CONTRACT_STOP` -/
def copyReadSet (readSet : List ContractReadSet) : Option (List ContractReadSet) :=
  if readSet.all fun rs => rs.version.isSome then some readSet else none

/-- The read set of an invoke result is copied with an empty version in place of a missing one.
Source: `CopyMessage`, case `APP_CONTRACT_INVOKE` -/
def copyInvokeReadSet (readSet : List ContractReadSet) : List ContractReadSet :=
  readSet.map fun rs => { rs with version := some (rs.version.getD ⟨none, 0⟩) }

/-- The deep copy of a message.
Source: `CopyMessage` -/
def copyMessage : Message → Option Message
  | .contractDeploy p => do
      let readSet ← copyReadSet p.readSet
      some (.contractDeploy { p with readSet })
  | .contractStop p => do
      let readSet ← copyReadSet p.readSet
      some (.contractStop { p with readSet })
  | .contractInvoke p => some (.contractInvoke { p with readSet := copyInvokeReadSet p.readSet })
  | m => some m

lemma copyReadSet_eq_some_iff {rs rs' : List ContractReadSet} :
    copyReadSet rs = some rs' ↔ (∀ r ∈ rs, r.version.isSome) ∧ rs' = rs := by
  rw [copyReadSet, ← List.all_eq_true]
  cases rs.all fun r => r.version.isSome <;> simp [eq_comm]

variable {m m' : Message}

/-- A copy is the message itself, but for the missing versions of an invoke result. -/
lemma copyMessage_eq_some (h : copyMessage m = some m') :
    m' = m ∨ ∃ p, m = .contractInvoke p ∧
      m' = .contractInvoke { p with readSet := copyInvokeReadSet p.readSet } := by
  cases m with
  | contractDeploy p | contractStop p =>
    obtain ⟨rs, hrs, h⟩ := bind_eq_some_iff.1 h
    rw [(copyReadSet_eq_some_iff.1 hrs).2] at h
    exact .inl (some.inj h).symm
  | contractInvoke p => exact .inr ⟨p, rfl, (some.inj h).symm⟩
  | _ => exact .inl (some.inj h).symm

/-- A copy agrees with the message on what does not look into the read set of an invoke result. -/
lemma copyMessage_congr {β : Type} (f : Message → β)
    (hf : ∀ p readSet, f (.contractInvoke { p with readSet }) = f (.contractInvoke p))
    (h : copyMessage m = some m') : f m' = f m := by
  rcases copyMessage_eq_some h with rfl | ⟨p, rfl, rfl⟩
  · rfl
  · exact hf p _

/-- A copy keeps the application code. -/
lemma app_of_copyMessage (h : copyMessage m = some m') : m'.app = m.app :=
  copyMessage_congr Message.app (fun _ _ => rfl) h

end ZwsChain
