import ZwsChain.Dag.StateDb
import ZwsChain.Modules.AssetText
import ZwsChain.TxScript.Engine

/-!
# What a validator reads

`Validate` is the validator with the queries it makes: unspent and spent outputs, contract state,
juries, chain parameters. A query that returns an error is `none`. The texts of assets, the JSON
of votes and token records and the split of a payout's unlocking script into its signers are
fields too, as the validator only passes them on.
-/

namespace ZwsChain

/-- The validation codes the modelled functions return.
Source: `validator/errors.go`, `ValidationCode` -/
inductive ValidationCode where
  | valid | orphan
  | invalidMsg | invalidFee | notCompareSize | unknownTxType | unsupportedTxPayload
  | invalidContract | invalidContractSign | invalidContractTemplate | notTplDeveloper
  | invalidDataPayload | invalidCoinbase | stateDataNotFound
  | invalidPaymentInputCount | invalidPaymentInput | invalidDoubleSpend | invalidAsset
  | invalidTokenStatus | addressInBlacklist | invalidAmount
  | duplicateTxid
  deriving DecidableEq, Repr

/-- The chain parameters that validation reads.
Source: `core/chain_parameters.go`, `ChainParameters` -/
structure ChainParameters (fl : Float64) where
  transferPtnBaseFee : UInt64
  transferPtnPricePerKByte : UInt64
  accountUpdateFee : UInt64
  contractTxTimeoutUnitFee : UInt64
  contractTxSizeUnitFee : UInt64
  contractTxInstallFeeLevel : fl.F
  contractTxDeployFeeLevel : fl.F
  contractTxInvokeFeeLevel : fl.F
  contractTxStopFeeLevel : fl.F
  maximumMediatorCount : Nat

/-- A validator and what its queries return.
Source: `validator/validator.go`, `Validate`; `validator/dependency.go` -/
structure Validate where
  P : Primitives
  fl : Float64
  /-- `parameter.CurrentSysParameters.ContractFeeJuryPercent`. -/
  contractFeeJuryPercent : fl.F
  chainParameters : ChainParameters fl
  /-- `dagconfig.DagConfig.GetGasToken`. -/
  gasToken : AssetId
  enableTxFeeCheck : Bool
  enableContractSignCheck : Bool
  enableDeveloperCheck : Bool
  enableContractRwSetCheck : Bool
  getUtxoEntry : OutPoint → Option Utxo
  /-- The outputs that the queries of the dag see: those of a unit under validation are not among
  them. -/
  getDagUtxoEntry : OutPoint → Option Utxo
  /-- The id of the transaction that spent an output. -/
  getStxoEntry : OutPoint → Option Hash
  getContractTpl : Bytes → Bool
  getContractJury : Bytes → Option ElectionNode
  getContractState : Bytes → Bytes → Option ContractStateValue
  getContractStatesByPrefix : Bytes → Bytes → Option (List (Bytes × ContractStateValue))
  getMediators : Address → Bool
  getBlacklistAddress : List Address
  /-- The public key of a juror. -/
  getJurorByAddrHash : Hash → Option Bytes
  getJurorReward : Address → Address
  isContractDeveloper : Address → Bool
  isTransactionExist : Hash → Bool
  /-- `ContractCheckFun`, set by the jury processor. -/
  contractTxCheck : Transaction → Bool
  /-- The votes in a write set: address texts with their flags. -/
  unmarshalMediators : Bytes → Option (List (Bytes × Bool))
  /-- The status field of a token record. -/
  unmarshalTokenStatus : Bytes → Option Nat

/-- A validator whose queries a database answers. -/
def Validate.onDb (V : Validate) (db : Db) : Validate :=
  { V with
    getUtxoEntry := db.getUtxoEntry
    getDagUtxoEntry := db.getUtxoEntry
    getStxoEntry := fun op => db.stxos.lookup op
    getContractTpl := fun tplId => (db.getContractTpl tplId).isSome
    getContractJury := db.getContractJury
    getContractState := db.getContractState
    getContractStatesByPrefix := db.getContractStatesByPrefix }

/-- The contract whose state is the token registry. -/
def globalStateContractId : Bytes :=
  List.replicate 20 0

/-- The number of jurors that must sign: the ceiling of `(2 n + 1) / 3`.
Source: `validator/validate_contract.go` and `validate_payment.go`,
`math.Ceil((float64(n)*2 + 1) / 3)` -/
def jurySignCount (n : Nat) : Nat :=
  (2 * n + 3) / 3

/-! ### A small node

A concrete validator to evaluate the model on: fees are free, the store is empty. Its primitives
stand in for the real ones: hashes are polynomial sums, the text of an address is its bytes. -/

namespace SmallNode

/-- The `n` low bytes of a polynomial in the bytes of `b`. -/
def digest (n : Nat) (b : Bytes) : FixedBytes n :=
  let h := b.foldl (fun h x => (h * 257 + x.toNat + 1) % 2 ^ 256) 1
  ⟨(List.range n).map fun i => UInt8.ofNat (h / 256 ^ i), by simp⟩

/-- A signature is the signed data behind its public key. -/
def primitives : Primitives where
  sha3 := digest 32
  hash160 := digest 20
  ripemd160 b := (digest 20 b).val
  sha1 b := (digest 20 b).val
  verify pk sig data := some (sig == pk ++ data)
  checkEncode b version := b ++ [version]
  checkDecode text := if text.length = 21 then some (text.take 20, text.getD 20 0) else none
  cryptoHash b := b

lemma base58RoundTrip : primitives.Base58RoundTrip := by
  intro b version hlen
  show (if (b ++ [version]).length = 21 then
    some ((b ++ [version]).take 20, (b ++ [version]).getD 20 0) else none) = _
  simp [← hlen]

/-- Exact arithmetic, which `float64` agrees with on the small integers of the examples. -/
def float64 : Float64 where
  F := Rat
  ofNat n := n
  add := (· + ·)
  mul := (· * ·)
  div := (· / ·)
  max := max
  beq a b := a == b
  toUInt64 x := UInt64.ofNat x.floor.toNat

/-- All checks are on, all fees are zero, nothing is stored. -/
def node : Validate where
  P := primitives
  fl := float64
  contractFeeJuryPercent := (6 / 10 : Rat)
  chainParameters := ⟨0, 0, 0, 0, 0, (0 : Rat), (0 : Rat), (0 : Rat), (0 : Rat), 21⟩
  gasToken := ptnCoin
  enableTxFeeCheck := true
  enableContractSignCheck := true
  enableDeveloperCheck := true
  enableContractRwSetCheck := true
  getUtxoEntry _ := none
  getDagUtxoEntry _ := none
  getStxoEntry _ := none
  getContractTpl _ := false
  getContractJury _ := none
  getContractState _ _ := none
  getContractStatesByPrefix _ _ := none
  getMediators _ := false
  getBlacklistAddress := []
  getJurorByAddrHash _ := none
  getJurorReward a := a
  isContractDeveloper _ := false
  isTransactionExist _ := false
  contractTxCheck _ := true
  unmarshalMediators _ := none
  unmarshalTokenStatus _ := some 0

/-- The node with unspent outputs. -/
def withUtxos (utxos : List (OutPoint × Utxo)) : Validate :=
  { node with getUtxoEntry := fun op => utxos.lookup op }

/-- The first output of the first message of a transaction whose id ends in `n`. -/
def outPoint (n : UInt8) : OutPoint :=
  ⟨⟨List.replicate 31 0 ++ [n], rfl⟩, 0, 0⟩

/-- An output in the gas token that anyone can spend: its lock script is `OP_1`. -/
def openUtxo (amount : UInt64) : Utxo :=
  ⟨amount, newPTNAsset, [0x51], 0⟩

/-- An input without an unlocking script. -/
def openInput (op : OutPoint) : Input :=
  ⟨[], [], some op⟩

/-- No signature has been checked before. -/
def noSigs : TxScript.SigState :=
  ⟨none, []⟩

end SmallNode

end ZwsChain
