import ZwsChain.Dag.RewardConservation
import ZwsChain.Dag.StateIsolation
import ZwsChain.Jury.ResultCheck
import ZwsChain.TxScript.SigCacheSound
import ZwsChain.Validator.Conservation
import ZwsChain.Validator.SystemFunds
import ZwsChain.Validator.UnitAgreement
import ZwsChain.Validator.Unit
import ZwsChain.Memunit.StableCondition
import ZwsChain.Memunit.StablePointer
import ZwsChain.Memunit.MainChain
import ZwsChain.Memunit.Delivery
import ZwsChain.Dag.Balance
import ZwsChain.Contracts.VoteWeight
import ZwsChain.Dag.SysParams
import ZwsChain.TxsPool.Eviction
import ZwsChain.Validator.IllegalMark
import ZwsChain.TxScript.Commitment
import ZwsChain.RwSet.ReadSet
import ZwsChain.Jury.JurorDeterminism
import ZwsChain.Jury.Election
import ZwsChain.Jury.Refund
import ZwsChain.Validator.RequestSignature
import ZwsChain.Contracts.DepositRecovery
import ZwsChain.Dag.VoteTally
import ZwsChain.Contracts.Exchange
import ZwsChain.Dag.Slots
import ZwsChain.Memunit.TempDatabase
import ZwsChain.Validator.DeveloperGate
import ZwsChain.Consensus.GroupSign
