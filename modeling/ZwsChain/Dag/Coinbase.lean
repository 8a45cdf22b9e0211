import ZwsChain.Modules.Income

/-!
# The coinbase of a unit's producer

`dag/common/unit_repository.go`, `CreateUnit`: the producer shares out the fees of the
transactions, adds the reward for the unit, merges the amounts of one address and asset, and
builds the coinbase. At heights divisible by `rewardHeight` it pays everything out
(`createCoinbasePayment`), at the others it writes the new totals into the state of the coinbase
contract (`createCoinbaseState`).

The order in which Go iterates a map is not determined; it is an `Iteration`.
Sources without a file are in `dag/common/unit_repository.go`.
-/

namespace ZwsChain

/-- An order in which a Go map is iterated. -/
structure Iteration (K V : Type) where
  toList : Table K V → List (Σ _ : K, V)
  perm : ∀ table, (toList table).Perm table.entries

/-- The order of the model's tables. -/
def Iteration.listed (K V : Type) : Iteration K V where
  toList := AList.entries
  perm _ := .refl _

/-- What the producer reads besides the database. -/
structure Producer where
  P : Primitives
  /-- What a failed decoding of a list of amounts leaves in the list. -/
  ofMalformed : Bytes → List AmountAsset
  /-- `parameter.CurrentSysParameters.RewardHeight`. -/
  rewardHeight : UInt64
  /-- The iteration of `rewards` that writes the outputs. -/
  outputOrder : Iteration Address (List AmountAsset)
  /-- The iteration of `rewards` that clears the state. -/
  clearOrder : Iteration Address (List AmountAsset)

/-- The error return of `CreateCoinbase`: the coinbase contract has no state yet. -/
inductive CoinbaseError where
  | statesNotFound
  deriving DecidableEq

namespace Producer

variable (R : Producer)

/-! ### The state form -/

variable (db : Db)

/-- The rewards of an address in the state.
Source: `createCoinbaseState`, the variable `income` -/
def incomeOf (addr : Address) : List AmountAsset :=
  storedIncome R.ofMalformed (db.getContractState coinbaseContractId (rewardKey R.P addr))

/-- Source: `createCoinbaseState`, the variable `rs`; there is none without an entry -/
def stateRead (v : Addition) : Option ContractReadSet :=
  (db.getContractState coinbaseContractId (rewardKey R.P v.addr)).map fun s =>
    ⟨rewardKey R.P v.addr, some s.version, []⟩

/-- Source: `createCoinbaseState`, the variable `ws` -/
def stateWrite (v : Addition) : ContractWriteSet :=
  ⟨false, rewardKey R.P v.addr,
    encodeIncome (addIncome (R.incomeOf db v.addr) v.amount v.asset), []⟩

variable (ads : List Addition)

/-- The coinbase and the sum of the additions. Each addition starts from the database, so a
second one of an address does not see the first.
Source: `createCoinbaseState` -/
def createCoinbaseState : Transaction × UInt64 :=
  let payload : ContractInvokePayload :=
    ⟨coinbaseContractId, [], ads.filterMap (R.stateRead db), ads.map (R.stateWrite db), [], ⟨0, []⟩⟩
  (⟨[.contractInvoke payload], [], false⟩, (ads.map Addition.amount).sum)

/-! ### The payment form -/

variable (e : Σ _ : Address, List AmountAsset)

/-- The outputs for the rewards of an address.
Source: `createCoinbasePaymentMsg`, loop body -/
def rewardOutputs : List Output :=
  e.2.map fun reward => ⟨reward.amount, TxScript.generateLockScript e.1, reward.asset⟩

/-- Source: `createCoinbasePaymentMsg` -/
def createCoinbasePaymentMsg (rewards : Rewards) : Message :=
  .payment ⟨[], (R.outputOrder.toList rewards).flatMap rewardOutputs, 0⟩

/-- Source: `createCoinbasePayment`, the variable `rs` of the last loop -/
def clearRead : ContractReadSet :=
  ⟨rewardKey R.P e.1,
    (db.getContractState coinbaseContractId (rewardKey R.P e.1)).map fun s => s.version, []⟩

/-- Source: `createCoinbasePayment`, the variable `ws` of the last loop -/
def clearWrite : ContractWriteSet :=
  ⟨false, rewardKey R.P e.1, encodeIncome [], []⟩

/-- What each address is to get.
Source: `createCoinbasePayment`, the variable `rewards` -/
def paymentRewards (addrMap : List (Bytes × ContractStateValue)) (ads : List Addition) : Rewards :=
  addRewards (storedRewards R.P R.ofMalformed addrMap) ads

/-- Source: `createCoinbasePayment`, the variable `payload` -/
def clearPayload (rewards : Rewards) : ContractInvokePayload :=
  let entries := R.clearOrder.toList rewards
  ⟨coinbaseContractId, [], entries.map (R.clearRead db), entries.map R.clearWrite, [], ⟨0, []⟩⟩

/-- Source: `createCoinbasePayment` -/
def createCoinbasePayment :
    Except CoinbaseError (Transaction × UInt64) :=
  match db.getContractStatesByPrefix coinbaseContractId rewardAddressPrefix with
  | none => .error .statesNotFound
  | some addrMap =>
    let rewards := R.paymentRewards addrMap ads
    .ok (⟨[R.createCoinbasePaymentMsg rewards, .contractInvoke (R.clearPayload db rewards)],
      [], false⟩, (ads.map Addition.amount).sum)

/-- A division by zero panics.
Source: `CreateCoinbase` -/
def createCoinbase (height : UInt64) :
    Option (Except CoinbaseError (Transaction × UInt64)) :=
  if R.rewardHeight = 0 then none
  else if height % R.rewardHeight = 0 then some (R.createCoinbasePayment db ads)
  else some (.ok (R.createCoinbaseState db ads))

end Producer

/-! ### The additions of a unit -/

/-- What the producer rewards: the fees, and the reward for the unit unless it is zero. The code
returns them in the order of a Go map.
Source: `CreateUnit`, the variable `outAds` -/
def producerAdditions (mediatorReward : Address) (generateUnitReward : UInt64) (gasToken : AssetId)
    (ads : List Addition) : List Addition :=
  arrangeAdditionFeeList (ads ++
    if generateUnitReward > 0 then [⟨mediatorReward, generateUnitReward, gasToken.toAsset⟩] else [])

/-- The fee of a transaction as it is shared out, without the address of the mediator; a
transaction without fee has no mediator's part. -/
structure FeeShare where
  jurors : List Addition
  mediator : Option AmountAsset

/-- The fee allocation for a mediator's address. -/
def FeeShare.additions (mediatorReward : Address) (share : FeeShare) : List Addition :=
  share.jurors ++ share.mediator.toList.map fun aa => ⟨mediatorReward, aa.amount, aa.asset⟩

namespace Transaction

variable (P : Primitives) (queryUtxo : OutPoint → Option Utxo)
variable (fl : Float64) (juryPercent : fl.F)
variable (getSigner : Transaction → Nat → Nat → Option (List Address))

/-- A fee allocation is a share, with the mediator's address filled in. -/
lemma exists_share_of_feeAllocate {starts : Message → Bool} {jurorReward : Address → Address}
    {tx : Transaction} {mediatorReward : Address} {ads : List Addition}
    (h : feeAllocate P queryUtxo fl juryPercent getSigner starts jurorReward mediatorReward tx =
      some (.ok ads)) :
    ∃ share : FeeShare, ∀ mediatorReward,
      feeAllocate P queryUtxo fl juryPercent getSigner starts jurorReward mediatorReward tx =
        some (.ok (share.additions mediatorReward)) := by
  simp only [feeAllocate, Option.bind_eq_bind] at h ⊢
  rcases hfee : tx.getTxFee queryUtxo with _ | e | fee
  · simp [hfee] at h
  · simp [hfee] at h
  simp only [hfee, Option.bind_some] at h ⊢
  by_cases hzero : fee.amount = 0
  · exact ⟨⟨[], none⟩, fun _ => by rw [if_pos hzero]; rfl⟩
  rw [if_neg hzero] at h
  simp only [if_neg hzero]
  rcases hmsgs : tx.txMessages with _ | msgs
  · simp [hmsgs] at h
  simp only [hmsgs, Option.bind_some] at h ⊢
  rcases hjury : feeJury P getSigner starts tx msgs.zipIdx false [] with e | ⟨inside, jury⟩
  · rw [hjury] at h
    cases h
  · exact ⟨⟨_, some ⟨_, fee.asset⟩⟩, fun _ => rfl⟩

/-- The fee allocations of the transactions of a unit. The outputs of a transaction are laid over
the store before its own fee is computed.
Source: `ComputeTxFeesAllocate` -/
def computeTxFeesAllocate (mediatorReward : Address) (getJurorReward : Address → Address) :
    List Transaction → List (OutPoint × Utxo) → Option (Except FeeError (List Addition))
  | [], _ => some (.ok [])
  | tx :: rest, allUtxo => do
      let utxos ← tx.getNewUtxos P
      let allUtxo := utxos.reverse ++ allUtxo
      let allocate ← tx.getTxFeeAllocate P (fun op => (allUtxo.lookup op).or (queryUtxo op)) fl
        juryPercent getSigner mediatorReward getJurorReward
      match allocate with
      | .error e => some (.error e)
      | .ok ads => do
          let more ← computeTxFeesAllocate mediatorReward getJurorReward rest allUtxo
          some (more.map (ads ++ ·))

end Transaction

end ZwsChain
