import ZwsChain.Modules.Income
import ZwsChain.Validator.Validate

/-!
# The check of a coinbase transaction

`validator/validate_tx.go`, `validateCoinbase`. A coinbase comes in two forms. At a payout height
its first message is a payment of everything that is owed, followed by an invoke result that
clears the coinbase contract's state (`validateCoinbasePayment`); at any other height it is an
invoke result that writes the new totals into that state (`validateCoinbaseState`).

`none` is a runtime panic. The comparisons are the loops of the source: each looks for a
disagreement between what is owed and what is there, and counts.
Sources without a file are in `validator/validate_tx.go`.
-/

namespace ZwsChain

namespace Validate

variable (V : Validate) (ofMalformed : Bytes → List AmountAsset)

/-! ### Comparisons -/

/-- No output to the address has one of its assets in another amount.
Source: `rewardExistInOutputs` -/
def rewardExistInOutputs (addr : Address) (aa : List AmountAsset) (outputs : List Output) : Bool :=
  outputs.all fun out =>
    let outAddr := (TxScript.getAddressFromScript V.P out.pkScript).getD (FixedBytes.zero 21)
    outAddr ≠ addr || aa.all fun a => !(a.asset = out.asset && a.amount ≠ out.value)

/-- Source: `compareRewardAndOutput` -/
def compareRewardAndOutput (rewards : Rewards) (outputs : List Output) : Bool :=
  (rewards.entries.all fun e => V.rewardExistInOutputs e.1 e.2 outputs) &&
    rewards.entries.length = outputs.length

/-- The entries of a write set that clear the rewards of an address.
Source: `compareRewardAndStateClear`, inner loop -/
def clearCount (addr : Address) (writeset : List ContractWriteSet) : Nat :=
  writeset.countP fun w => w.key = rewardKey V.P addr && w.value = encodeIncome []

/-- Source: `compareRewardAndStateClear` -/
def compareRewardAndStateClear (rewards : Rewards) (writeset : List ContractWriteSet) : Bool :=
  (rewards.keys.map fun addr => V.clearCount addr writeset).sum = rewards.keys.length

/-- No entry of the write set for the address has one of its assets in another amount.
Source: `rewardExist` -/
def rewardExist (addr : Address) (aa : List AmountAsset) (writeset : List ContractWriteSet) :
    Bool :=
  writeset.all fun w =>
    w.key ≠ rewardKey V.P addr || match decodeIncome w.value with
      | none => false
      | some dbAa => aa.all fun a => dbAa.all fun b => !(a.asset = b.asset && a.amount ≠ b.amount)

/-- Source: `compareRewardAndWriteset` -/
def compareRewardAndWriteset (rewards : Rewards) (writeset : List ContractWriteSet) : Bool :=
  rewards.entries.all fun e => V.rewardExist e.1 e.2 writeset

/-! ### The two forms -/

/-- What each address is to get at a payout height.
Source: `validateCoinbase`, the variable `rewards` of the payment
form -/
def paymentRewards (addrMap : List (Bytes × ContractStateValue)) (ads : List Addition) : Rewards :=
  addRewards (storedRewards V.P ofMalformed addrMap) ads

/-- Source: `validateCoinbase`, case `APP_PAYMENT` -/
def validateCoinbasePayment (payment : PaymentPayload) (rest : List Message)
    (ads : List Addition) : Option ValidationCode :=
  match V.getContractStatesByPrefix coinbaseContractId rewardAddressPrefix with
  | none => some .stateDataNotFound
  | some addrMap =>
    let rewards := V.paymentRewards ofMalformed addrMap ads
    if !V.compareRewardAndOutput rewards payment.outputs then some .invalidCoinbase
    else if addrMap.length > 0 then
      match rest with
      | .contractInvoke clearStateInvoke :: _ =>
        if clearStateInvoke.contractId ≠ coinbaseContractId then some .invalidCoinbase
        else if !V.compareRewardAndStateClear rewards clearStateInvoke.writeSet then
          some .invalidCoinbase
        else some .valid
      | _ => none
    else some .valid

/-- The rewards of an address in the state.
Source: `validateCoinbase`, the variable `income` -/
def incomeOf (addr : Address) : List AmountAsset :=
  storedIncome ofMalformed (V.getContractState coinbaseContractId (rewardKey V.P addr))

/-- What the state is to hold after the unit: for each addition, the stored rewards of its
address with this addition. A second addition of an address replaces the first.
Source: `validateCoinbase`, the variable `rewards` of the state
form -/
def stateRewards (ads : List Addition) : Rewards :=
  ads.foldl (fun rewards v =>
    rewards.insert v.addr (addIncome (V.incomeOf ofMalformed v.addr) v.amount v.asset)) ∅

/-- Source: `validateCoinbase`, case `APP_CONTRACT_INVOKE` -/
def validateCoinbaseState (invoke : ContractInvokePayload) (ads : List Addition) :
    ValidationCode :=
  if invoke.contractId ≠ coinbaseContractId then .invalidCoinbase
  else if V.compareRewardAndWriteset (V.stateRewards ofMalformed ads) invoke.writeSet then .valid
  else .invalidCoinbase

/-- Source: `validateCoinbase` -/
def validateCoinbase (tx : Transaction) (ads : List Addition) : Option ValidationCode := do
  let msgs ← tx.txMessages
  match msgs with
  | [] => none
  | .payment payment :: rest => V.validateCoinbasePayment ofMalformed payment rest ads
  | .contractInvoke invoke :: _ => some (V.validateCoinbaseState ofMalformed invoke ads)
  | _ :: _ => some .valid

end Validate

end ZwsChain
