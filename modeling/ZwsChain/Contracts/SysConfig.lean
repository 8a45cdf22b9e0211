import Mathlib
import ZwsChain.Core.ChainParameters
import ZwsChain.Modules.AssetText

/-!
# The system-parameter contract

The state of the contract is what it keeps under its two keys: the changes of the foundation that
wait for the next maintenance, and the poll. A function returns the new state or an error, with
which the state stays as it was; `none` is a panic. What the contract stores as JSON is kept as the
value itself, and arguments that are JSON texts come parsed, `none` for a text that is not valid.

* `updateSysParamWithoutVote`: a change by the foundation.
* `createVotesTokens`, `nodesVote`: the poll and its votes.

Sources without a file are in `contracts/syscontract/sysconfigcc/sysconfigcc.go`.
-/

namespace ZwsChain.SysConfig

open ZwsChain.Core

/-! ### State -/

/-- Source: `SysVoteResult` -/
structure SysVoteResult where
  selectOption : Bytes
  num : UInt64
  deriving DecidableEq

/-- Source: `contracts/syscontract/sysconfigcc/definiton.go`, `SysTopicSupports` -/
structure SysTopicSupports where
  topicTitle : String
  voteResults : List SysVoteResult
  selectMax : UInt64
  deriving DecidableEq

/-- The end of the vote in seconds.
Source: `contracts/syscontract/sysconfigcc/definiton.go`, `SysTokenInfo` -/
structure SysTokenInfo where
  name : Bytes
  symbol : Bytes
  createAddr : Bytes
  leastNum : UInt64
  totalSupply : UInt64
  voteEndTime : ℤ
  voteContent : List SysTopicSupports
  assetID : AssetId
  deriving DecidableEq

/-- What the contract keeps under `desiredSysParamsWithoutVote` and `desiredSysParamsWithVote`. -/
structure State where
  withoutVote : AList fun _ : String => Bytes
  withVote : Option SysTokenInfo
  deriving DecidableEq

/-- The parameters in force.
Source: `dag/modules/global_property.go`, `GlobalPropBase` -/
structure GlobalProp where
  immutableParameters : ImmutableChainParameters
  chainParameters : ChainParameters

/-- An error of the contract with its text, or one of a check. -/
inductive Error where
  | msg (text : String)
  | param (e : ParamError)
  deriving DecidableEq

/-- The error of a call that only the foundation may make. -/
def onlyFoundation : Error :=
  .msg "\x7b\"Error\":\"Only foundation can call this function\"\x7d"

section Changes

variable (parseFloat : Bytes → Except NumError UInt64) (gp : GlobalProp)

/-- The two checks of a change, in their order. -/
def checkChange (mediatorCount : ℕ) (field : String) (value : Bytes) :
    Option (Except Error Unit) :=
  match checkSysConfigArgType parseFloat field value with
  | .error e => some (.error (.param e))
  | .ok _ =>
    (checkChainParameterValue field value gp.immutableParameters gp.chainParameters
      mediatorCount).map (Except.mapError .param)

/-- Source: `UpdateSysParamWithoutVote` -/
def updateSysParamWithoutVote (mediatorCount : ℕ) (createAddr : Bytes)
    (field : String) (value : Bytes) (st : State) : Option (Except Error State) :=
  (checkChange parseFloat gp mediatorCount field value).map fun checked =>
    match checked with
    | .error e => .error e
    | .ok _ =>
      if createAddr ≠ gp.chainParameters.foundationAddress then .error onlyFoundation
      else .ok { st with withoutVote := st.withoutVote.insert field value }

/-! ### The poll -/

/-- Source: `contracts/syscontract/sysconfigcc/definiton.go`, `SysVoteTopic` -/
structure SysVoteTopic where
  topicTitle : String
  selectOptions : List Bytes
  selectMax : UInt64

/-- The options of a topic, each checked like a change, with no votes yet. -/
def newVoteResults (gp : GlobalProp) (mediatorCount : ℕ) (topicTitle : String) :
    List Bytes → Option (Except Error (List SysVoteResult))
  | [] => some (.ok [])
  | oneOption :: rest =>
    match checkChange parseFloat gp mediatorCount topicTitle oneOption with
    | none => none
    | some (.error e) => some (.error e)
    | some (.ok _) =>
      (newVoteResults gp mediatorCount topicTitle rest).map
        (Except.map fun results => ⟨oneOption, 0⟩ :: results)

/-- The topics of a new poll. -/
def newSupports (gp : GlobalProp) (mediatorCount : ℕ) :
    List SysVoteTopic → Option (Except Error (List SysTopicSupports))
  | [] => some (.ok [])
  | oneTopic :: rest =>
    match newVoteResults parseFloat gp mediatorCount oneTopic.topicTitle
      oneTopic.selectOptions with
    | none => none
    | some (.error e) => some (.error e)
    | some (.ok results) =>
      (newSupports gp mediatorCount rest).map
        (Except.map fun supports => ⟨oneTopic.topicTitle, results, oneTopic.selectMax⟩ :: supports)

/-- The arguments of a call of `CreateVotesTokens`, parsed. -/
structure CreateVotes where
  createAddr : Bytes
  mediatorCount : ℕ
  name : Bytes
  totalSupply : UInt64
  leastNum : UInt64
  voteEndTime : Option ℤ
  voteTopics : Option (List SysVoteTopic)
  txid : Hash

/-- The id of the vote token; an error of `NewAssetId` is ignored.
Source: `CreateVotesTokens` -/
def voteAssetID (txid : Hash) : Option AssetId :=
  (newAssetId (ascii "SVOTE") AssetType.voteToken.code 0 txid.val UniqueIdType.null.code).map
    fun r => r.toOption.getD (FixedBytes.zero 16)

/-- Source: `CreateVotesTokens` -/
def createVotesTokens (c : CreateVotes) (st : State) :
    Option (Except Error State) :=
  if c.createAddr ≠ gp.chainParameters.foundationAddress then some (.error onlyFoundation)
  else if c.name.length > 1024 then
    some (.error (.msg "\x7b\"Error\":\"Name length should not be greater than 1024\"\x7d"))
  else
    match c.voteEndTime, c.voteTopics with
    | none, _ => some (.error (.msg "\x7b\"Error\":\"No vote end time\"\x7d"))
    | _, none => some (.error (.msg "\x7b\"Error\":\"VoteContent format invalid\"\x7d"))
    | some endTime, some voteTopics =>
      match newSupports parseFloat gp c.mediatorCount voteTopics, voteAssetID c.txid with
      | none, _ => none
      | some (.error e), _ => some (.error e)
      | _, none => none
      | some (.ok supports), some assetID =>
        if st.withVote.isSome then
          some (.error (.msg "\x7b\"Error\":\"Repeat AssetID\"\x7d"))
        else
          some (.ok { st with withVote := some ⟨c.name, ascii "SVOTE", c.createAddr, c.leastNum,
            c.totalSupply, endTime, supports, assetID⟩ })

end Changes

/-! ### What a call that succeeds has done -/

section Ok

variable {parseFloat : Bytes → Except NumError UInt64} {gp : GlobalProp} {st st' : State}

lemma createVotesTokens_ok {c : CreateVotes}
    (h : createVotesTokens parseFloat gp c st = some (.ok st')) :
    ∃ topics endTime supports assetID,
      newSupports parseFloat gp c.mediatorCount topics = some (.ok supports) ∧
      st' = { st with withVote := some ⟨c.name, ascii "SVOTE", c.createAddr, c.leastNum,
        c.totalSupply, endTime, supports, assetID⟩ } := by
  rw [createVotesTokens] at h
  split at h
  · cases h
  split at h
  · cases h
  split at h
  · cases h
  · cases h
  rename_i endTime topics hend htopics
  split at h
  · cases h
  · cases h
  · cases h
  rename_i supports assetID hsupports hasset
  split_ifs at h
  · cases h
  · exact ⟨topics, endTime, supports, assetID, hsupports, (Except.ok.inj (Option.some.inj h)).symm⟩

end Ok

/-! ### Votes -/

/-- Source: `dag/modules/message.go`, `InvokeTokens` -/
structure InvokeTokens where
  amount : UInt64
  asset : Asset
  address : String
  deriving DecidableEq

/-- The text of the destroy address. -/
def destroyAddress : String :=
  "P1111111111111111111114oLvT2"

/-- The scan of the tokens sent with a call: the first one sent to the destroy address that is not
the gas token gives the text that the later ones are compared with.
Source: `NodesVote` -/
def scanTokens : List InvokeTokens → UInt64 → Bytes → Option (UInt64 × Bytes)
  | [], voteNum, assetIDStr => some (voteNum, assetIDStr)
  | token :: tokens, voteNum, assetIDStr =>
    if token.asset.assetId = ptnCoin then scanTokens tokens voteNum assetIDStr
    else if token.address = destroyAddress then
      if assetIDStr = [] then
        match token.asset.string with
        | none => none
        | some text => scanTokens tokens (voteNum + token.amount) text
      else
        match AssetId.string token.asset.assetId with
        | none => none
        | some text =>
          if text = assetIDStr then scanTokens tokens (voteNum + token.amount) assetIDStr
          else scanTokens tokens voteNum assetIDStr
    else scanTokens tokens voteNum assetIDStr

/-- Source: `contracts/syscontract/sysconfigcc/definiton.go`, `SysSupportRequest` -/
structure SysSupportRequest where
  topicIndex : UInt64
  selectIndexs : List UInt64
  deriving DecidableEq

/-- The votes for the options of one topic: a repeated index ends the loop.
Source: `NodesVote` -/
def supportOptions (voteNum : UInt64) :
    List UInt64 → List UInt64 → List SysVoteResult → List SysVoteResult
  | [], _, results => results
  | index :: rest, selIndexHistory, results =>
    let selectIndex := index - 1
    if selectIndex ∈ selIndexHistory then results
    else
      supportOptions voteNum rest (selectIndex :: selIndexHistory)
        (results.modify selectIndex.toNat fun r => { r with num := r.num + voteNum })

/-- The votes of a call; `none` for a repeated topic.
Source: `NodesVote` -/
def supportTopics (voteNum : UInt64) :
    List SysSupportRequest → List UInt64 → List SysTopicSupports → Option (List SysTopicSupports)
  | [], _, topics => some topics
  | oneSupport :: rest, indexHistory, topics =>
    let topicIndex := oneSupport.topicIndex - 1
    if topicIndex ∈ indexHistory then none
    else
      supportTopics voteNum rest (topicIndex :: indexHistory)
        (topics.modify topicIndex.toNat fun topic =>
          if oneSupport.selectIndexs.length ≤ topic.selectMax.toNat then
            { topic with voteResults :=
                supportOptions voteNum oneSupport.selectIndexs [] topic.voteResults }
          else topic)

/-- A call of `NodesVote` with its parsed argument, the tokens sent with it and the time of the
header, if there is one. -/
structure VoteCall where
  invokeTokens : List InvokeTokens
  supportRequests : Option (List SysSupportRequest)
  headerTime : Option ℤ

/-- Source: `NodesVote` -/
def nodesVote (c : VoteCall) (st : State) : Option (Except Error State) :=
  match scanTokens c.invokeTokens 0 [] with
  | none => none
  | some (voteNum, assetIDStr) =>
    if voteNum = 0 ∨ assetIDStr = [] then some (.error (.msg "Vote token empty"))
    else
      match st.withVote, c.supportRequests, c.headerTime with
      | none, _, _ => some (.error (.msg "Token not exist"))
      | _, none, _ => some (.error (.msg "SupportRequestJson format invalid"))
      | _, _, none => some (.error (.msg "GetTxTimestamp invalid, Error!!!"))
      | some tkInfo, some supportRequests, some headerTime =>
        if headerTime > tkInfo.voteEndTime then some (.error (.msg "Vote is over"))
        else
          match supportTopics voteNum supportRequests [] tkInfo.voteContent with
          | none => some (.error (.msg "Repeat index of select option "))
          | some topics =>
            some (.ok { st with withVote := some { tkInfo with voteContent := topics } })

/-- What a call that succeeds has done. -/
lemma nodesVote_ok {c : VoteCall} {st st' : State} (h : nodesVote c st = some (.ok st')) :
    ∃ voteNum assetIDStr info requests topics,
      scanTokens c.invokeTokens 0 [] = some (voteNum, assetIDStr) ∧ st.withVote = some info ∧
      c.supportRequests = some requests ∧
      supportTopics voteNum requests [] info.voteContent = some topics ∧
      st' = { st with withVote := some { info with voteContent := topics } } := by
  rw [nodesVote] at h
  cases hscan : scanTokens c.invokeTokens 0 [] with
  | none =>
    rw [hscan] at h
    cases h
  | some scan =>
    rw [hscan] at h
    dsimp only at h
    split_ifs at h
    · cases h
    split at h
    · cases h
    · cases h
    · cases h
    rename_i info requests time hinfo hrequests htime
    split_ifs at h
    · cases h
    split at h
    · cases h
    rename_i topics htopics
    exact ⟨scan.1, scan.2, info, requests, topics, rfl, hinfo, hrequests, htopics,
      (Except.ok.inj (Option.some.inj h)).symm⟩

end ZwsChain.SysConfig
