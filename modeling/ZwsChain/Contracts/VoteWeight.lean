import Mathlib
import ZwsChain.Contracts.SysConfig

/-!
# The weight of the votes on system parameters

A vote is paid with tokens sent to the destroy address: what `NodesVote` counts for a topic should
never exceed the vote token of the poll that was sent there. The code does not see to this: the
scan takes the first token it meets for the vote token, whichever it is, and the whole amount is
added to every option that a request selects. `votes_le_sent` is the bound for the calls that
count only the poll's own token and one option of a topic; `SmallPoll` has a run that breaks it.
-/

open List Option Nat

namespace ZwsChain.SysConfig

open SysTopicSupports

/-! ### What a call counts -/

/-- The votes of a topic over its options. -/
def SysTopicSupports.votes (topic : SysTopicSupports) : ℕ :=
  (topic.voteResults.map fun r => r.num.toNat).sum

/-- The amount of a list of tokens. -/
def amount (tokens : List InvokeTokens) : ℕ :=
  (tokens.map fun token => token.amount.toNat).sum

/-- The amount of a token that a call sends to the destroy address. -/
def VoteCall.sent (assetID : AssetId) (c : VoteCall) : ℕ :=
  amount (c.invokeTokens.filter fun token =>
    token.address = destroyAddress ∧ token.asset.assetId = assetID)

/-- The tokens whose amounts the scan adds. -/
def countedTokens : List InvokeTokens → Bytes → List InvokeTokens
  | [], _ => []
  | token :: tokens, assetIDStr =>
    if token.asset.assetId = ptnCoin then countedTokens tokens assetIDStr
    else if token.address = destroyAddress then
      if assetIDStr = [] then token :: countedTokens tokens (token.asset.string.getD [])
      else if AssetId.string token.asset.assetId = some assetIDStr then
        token :: countedTokens tokens assetIDStr
      else countedTokens tokens assetIDStr
    else countedTokens tokens assetIDStr

/-- How many of `n` options a request counts. -/
def countedOptions (n : ℕ) : List UInt64 → List UInt64 → ℕ
  | [], _ => 0
  | index :: rest, selIndexHistory =>
    let selectIndex := index - 1
    if selectIndex ∈ selIndexHistory then 0
    else (if selectIndex.toNat < n then 1 else 0) +
      countedOptions n rest (selectIndex :: selIndexHistory)

/-- The request counts at most one option of its topic. -/
def SingleChoice (topics : List SysTopicSupports) (r : SysSupportRequest) : Prop :=
  ∀ topic, topics[(r.topicIndex - 1).toNat]? = some topic →
    r.selectIndexs.length ≤ topic.selectMax.toNat →
    countedOptions topic.voteResults.length r.selectIndexs [] ≤ 1

/-- The call counts only the poll's own token, and one option of a topic. -/
structure VoteCall.Fair (info : SysTokenInfo) (c : VoteCall) : Prop where
  own : ∀ token ∈ countedTokens c.invokeTokens [], token.asset.assetId = info.assetID
  single : ∀ requests, c.supportRequests = some requests →
    ∀ r ∈ requests, SingleChoice info.voteContent r

/-! ### The scan -/

lemma toNat_add_le (a b : UInt64) : (a + b).toNat ≤ a.toNat + b.toNat := by
  exact mod_le _ _

@[simp] lemma amount_cons (token : InvokeTokens) (tokens : List InvokeTokens) :
    amount (token :: tokens) = token.amount.toNat + amount tokens :=
  rfl

variable {n voteNum : UInt64} {s : Bytes} {c : VoteCall} {r : SysSupportRequest}
  {topics topics' : List SysTopicSupports} {limit : ℕ} {st : State}

lemma scanTokens_le {tokens : List InvokeTokens} {n' : UInt64} {s' : Bytes}
    (h : scanTokens tokens n s = some (n', s')) :
    n'.toNat ≤ n.toNat + amount (countedTokens tokens s) := by
  induction tokens generalizing n s with
  | nil =>
    obtain rfl : n = n' := congrArg Prod.fst (some.inj h)
    exact Nat.le_add_right _ _
  | cons token tokens ih =>
    have hadd := toNat_add_le n token.amount
    rw [scanTokens] at h
    rw [countedTokens]
    split_ifs at h ⊢ with hptn haddr hs hsame
    · exact ih h
    · -- the first token sent to the destroy address
      cases htext : token.asset.string with
      | none =>
        rw [htext] at h
        cases h
      | some text =>
        rw [htext] at h
        have hrest := ih h
        rw [getD_some, amount_cons]
        omega
    · rw [hsame] at h
      dsimp only at h
      rw [if_pos rfl] at h
      have hrest := ih h
      rw [amount_cons]
      omega
    · cases htext : AssetId.string token.asset.assetId with
      | none =>
        rw [htext] at h
        cases h
      | some text =>
        rw [htext] at h hsame
        dsimp only at h
        rw [if_neg fun heq => hsame (congrArg some heq)] at h
        exact ih h
    · exact ih h

lemma countedTokens_sublist (tokens : List InvokeTokens) (s : Bytes) :
    (countedTokens tokens s).Sublist
      (tokens.filter fun token => token.address = destroyAddress) := by
  induction tokens generalizing s with
  | nil => exact List.Sublist.slnil
  | cons token tokens ih =>
    have hskip (s : Bytes) : (countedTokens tokens s).Sublist
        ((token :: tokens).filter fun token => token.address = destroyAddress) :=
      (ih s).trans ((sublist_cons_self token tokens).filter _)
    have htake (haddr : token.address = destroyAddress) (s : Bytes) :
        (token :: countedTokens tokens s).Sublist
          ((token :: tokens).filter fun token => token.address = destroyAddress) := by
      rw [filter_cons_of_pos (by simpa using haddr)]
      exact (ih s).cons_cons token
    rw [countedTokens]
    split_ifs with hptn haddr hs hsame
    · exact hskip s
    · exact htake haddr _
    · exact htake haddr s
    · exact hskip s
    · exact hskip s

/-- The scan of a call that counts only the poll's own token. -/
lemma VoteCall.Fair.scan_le {info : SysTokenInfo} (hc : c.Fair info)
    (h : scanTokens c.invokeTokens 0 [] = some (n, s)) : n.toNat ≤ c.sent info.assetID := by
  have hown : (countedTokens c.invokeTokens []).filter
      (fun token => token.asset.assetId = info.assetID) = countedTokens c.invokeTokens [] :=
    filter_eq_self.2 fun token ht => decide_eq_true (hc.own token ht)
  have hsub := (countedTokens_sublist c.invokeTokens []).filter
    fun token => token.asset.assetId = info.assetID
  rw [hown, List.filter_filter] at hsub
  calc n.toNat ≤ (0 : UInt64).toNat + amount (countedTokens c.invokeTokens []) := scanTokens_le h
    _ = amount (countedTokens c.invokeTokens []) := zero_add _
    _ ≤ c.sent info.assetID := by
        refine ((hsub.map _).sum_le_sum fun _ _ => zero_le _).trans (le_of_eq ?_)
        simp [VoteCall.sent, amount, Bool.and_comm]

/-! ### The options of a topic -/

lemma sum_modify_le (voteNum : UInt64) (results : List SysVoteResult) (i : ℕ) :
    ((results.modify i fun r => { r with num := r.num + voteNum }).map fun r => r.num.toNat).sum ≤
      (results.map fun r => r.num.toNat).sum + if i < results.length then voteNum.toNat else 0 := by
  induction results generalizing i with
  | nil => simp
  | cons r results ih =>
    cases i with
    | zero =>
      have hadd := toNat_add_le r.num voteNum
      simp only [modify_zero_cons, map_cons, sum_cons, length_cons, zero_lt_succ, if_true]
      omega
    | succ i =>
      have hrest := ih i
      simp only [modify_succ_cons, map_cons, sum_cons, length_cons, add_lt_add_iff_right]
      omega

/-- One request adds the votes once for each option it counts. -/
lemma supportOptions_spec (voteNum : UInt64) (indexs history : List UInt64)
    (results : List SysVoteResult) :
    (supportOptions voteNum indexs history results).length = results.length ∧
    ((supportOptions voteNum indexs history results).map fun r => r.num.toNat).sum ≤
      (results.map fun r => r.num.toNat).sum +
        voteNum.toNat * countedOptions results.length indexs history := by
  induction indexs generalizing history results with
  | nil => exact ⟨rfl, Nat.le_add_right _ _⟩
  | cons index rest ih =>
    rw [supportOptions, countedOptions]
    by_cases hrepeat : index - 1 ∈ history
    · rw [if_pos hrepeat, if_pos hrepeat]
      exact ⟨rfl, Nat.le_add_right _ _⟩
    rw [if_neg hrepeat, if_neg hrepeat, mul_add, mul_ite, mul_one, mul_zero]
    obtain ⟨hlen, hsum⟩ := ih ((index - 1) :: history)
      (results.modify (index - 1).toNat fun r => { r with num := r.num + voteNum })
    rw [length_modify] at hlen hsum
    have hone := sum_modify_le voteNum results (index - 1).toNat
    exact ⟨hlen, by omega⟩

/-! ### The topics of a call -/

/-- What no vote changes of a topic: how many options it has and how many may be selected. -/
def SysTopicSupports.shape (topic : SysTopicSupports) : UInt64 × ℕ :=
  (topic.selectMax, topic.voteResults.length)

lemma SingleChoice.congr (h : SingleChoice topics r)
    (hshape : topics'.map shape = topics.map shape) :
    SingleChoice topics' r := by
  intro topic' htopic' hmax
  have hget := congrArg (fun l => l[(r.topicIndex - 1).toNat]?) hshape
  simp only [getElem?_map, htopic', map_some] at hget
  obtain ⟨topic, htopic, heq⟩ := map_eq_some_iff.1 hget.symm
  obtain ⟨hsel, hlen⟩ := Prod.mk.inj heq
  rw [← hlen]
  exact h topic htopic (hsel ▸ hmax)

/-- The votes of one request for a topic. -/
def addSupport (voteNum : UInt64) (r : SysSupportRequest) (topic : SysTopicSupports) :
    SysTopicSupports :=
  if r.selectIndexs.length ≤ topic.selectMax.toNat then
    { topic with voteResults := supportOptions voteNum r.selectIndexs [] topic.voteResults }
  else topic

lemma shape_addSupport (voteNum : UInt64) (r : SysSupportRequest) (topic : SysTopicSupports) :
    (addSupport voteNum r topic).shape = topic.shape := by
  rw [addSupport]
  split_ifs
  · exact congrArg (Prod.mk _) (supportOptions_spec _ _ _ _).1
  · rfl

lemma votes_addSupport_le {topic : SysTopicSupports}
    (h : r.selectIndexs.length ≤ topic.selectMax.toNat →
      countedOptions topic.voteResults.length r.selectIndexs [] ≤ 1) :
    (addSupport voteNum r topic).votes ≤ topic.votes + voteNum.toNat := by
  rw [addSupport]
  split_ifs with hmax
  · refine (supportOptions_spec voteNum r.selectIndexs [] topic.voteResults).2.trans ?_
    have hone := mul_le_mul_left voteNum.toNat (h hmax)
    rw [mul_one] at hone
    exact Nat.add_le_add_left hone _
  · exact Nat.le_add_right _ _

lemma shape_modify (voteNum : UInt64) (r : SysSupportRequest) (topics : List SysTopicSupports)
    (i : ℕ) : (topics.modify i (addSupport voteNum r)).map shape = topics.map shape := by
  apply ext_getElem?
  intro j
  rw [getElem?_map, getElem?_map, getElem?_modify]
  cases topics[j]? with
  | none => rfl
  | some topic =>
    by_cases hij : i = j
    · simp [hij, shape_addSupport]
    · simp [hij]

/-- A call adds its votes at most once to every topic. -/
lemma supportTopics_spec {requests : List SysSupportRequest} {history : List UInt64}
    (h : supportTopics voteNum requests history topics = some topics')
    (hsingle : ∀ r ∈ requests, SingleChoice topics r) :
    topics'.map shape = topics.map shape ∧
    ∀ (i : ℕ) (topic topic' : SysTopicSupports), topics[i]? = some topic →
      topics'[i]? = some topic' →
      topic'.votes ≤ topic.votes +
        if i ∈ history.map UInt64.toNat then 0 else voteNum.toNat := by
  induction requests generalizing history topics with
  | nil =>
    obtain rfl : topics = topics' := some.inj h
    refine ⟨rfl, fun i topic topic' htopic htopic' => ?_⟩
    rw [some.inj (htopic.symm.trans htopic')]
    exact Nat.le_add_right _ _
  | cons r rest ih =>
    rw [supportTopics] at h
    split_ifs at h with hrepeat
    change supportTopics voteNum rest ((r.topicIndex - 1) :: history)
      (topics.modify (r.topicIndex - 1).toNat (addSupport voteNum r)) = some topics' at h
    have hmod := shape_modify voteNum r topics (r.topicIndex - 1).toNat
    obtain ⟨hshape, hvotes⟩ := ih h fun r' hr' =>
      (hsingle r' (mem_cons_of_mem _ hr')).congr hmod
    refine ⟨hshape.trans hmod, fun i topic topic' htopic htopic' => ?_⟩
    by_cases hi : (r.topicIndex - 1).toNat = i
    · -- this topic has its votes now, and no later request may name it
      have hfresh : i ∉ history.map UInt64.toNat := by
        rintro hmem
        obtain ⟨k, hk, hki⟩ := List.mem_map.1 hmem
        exact hrepeat (UInt64.toNat_inj.1 (hki.trans hi.symm) ▸ hk)
      have hnext := hvotes i (addSupport voteNum r topic) topic' (by simp [htopic, hi]) htopic'
      rw [if_pos (by simp [hi])] at hnext
      rw [if_neg hfresh]
      exact hnext.trans (votes_addSupport_le (hsingle r mem_cons_self topic (hi ▸ htopic)))
    have hnext := hvotes i topic topic' (by simp [htopic, hi]) htopic'
    simpa only [map_cons, mem_cons, Ne.symm hi, false_or] using hnext

/-! ### Runs of votes -/

/-- The state after a call: only a call that succeeds saves the poll. -/
def afterVote (st : State) (c : VoteCall) : State :=
  match nodesVote c st with
  | some (.ok st') => st'
  | _ => st

/-- The amount of a token that calls send to the destroy address. -/
def totalSent (assetID : AssetId) (calls : List VoteCall) : ℕ :=
  (calls.map (VoteCall.sent assetID)).sum

/-- What a run of votes keeps: the token of the poll and the shape of its topics, and that no topic
has more votes than `limit`. -/
structure Weighed (info : SysTokenInfo) (limit : ℕ) (st : State) : Prop where
  exists_info : ∃ info', st.withVote = some info' ∧ info'.assetID = info.assetID ∧
    info'.voteContent.map shape = info.voteContent.map shape ∧
    ∀ topic ∈ info'.voteContent, topic.votes ≤ limit

lemma Weighed.afterVote {info : SysTokenInfo} (h : Weighed info limit st) (hc : c.Fair info) :
    Weighed info (limit + c.sent info.assetID) (afterVote st c) := by
  obtain ⟨info', hinfo', hasset, hshape, hvotes⟩ := h.exists_info
  rw [SysConfig.afterVote]
  split
  · rename_i st' hok
    obtain ⟨n, s, old, requests, topics, hscan, hold, hrequests, htopics, rfl⟩ := nodesVote_ok hok
    obtain rfl : info' = old := some.inj (hinfo'.symm.trans hold)
    obtain ⟨hshape', hadd⟩ := supportTopics_spec htopics fun r hr =>
      (hc.single requests hrequests r hr).congr hshape
    refine ⟨_, rfl, hasset, hshape'.trans hshape, fun topic' htopic' => ?_⟩
    obtain ⟨i, hi⟩ := mem_iff_getElem?.1 htopic'
    obtain ⟨topic, htopic, -⟩ : ∃ topic, info'.voteContent[i]? = some topic ∧
        topic.shape = topic'.shape := by
      have hget := congrArg (fun l => l[i]?) hshape'
      simp only [getElem?_map, hi, map_some] at hget
      exact map_eq_some_iff.1 hget.symm
    calc topic'.votes ≤ topic.votes + n.toNat := hadd i topic topic' htopic hi
      _ ≤ limit + c.sent info.assetID :=
          Nat.add_le_add (hvotes topic (mem_of_getElem? htopic)) (hc.scan_le hscan)
  · exact ⟨info', hinfo', hasset, hshape, fun topic htopic =>
      (hvotes topic htopic).trans (Nat.le_add_right _ _)⟩

lemma Weighed.run {info : SysTokenInfo} (h : Weighed info limit st) {calls : List VoteCall}
    (hcalls : ∀ c ∈ calls, c.Fair info) :
    Weighed info (limit + totalSent info.assetID calls) (calls.foldl SysConfig.afterVote st) := by
  induction calls generalizing limit st with
  | nil => exact h
  | cons c calls ih =>
    have hnext := ih (h.afterVote (hcalls c mem_cons_self))
      fun c' hc' => hcalls c' (mem_cons_of_mem _ hc')
    rw [add_assoc] at hnext
    exact hnext

/-! ### New polls -/

section Poll

variable {parseFloat : Bytes → Except Core.NumError UInt64} {gp : GlobalProp}
variable {n : ℕ}

lemma newVoteResults_zero {title : String} {options : List Bytes} {results : List SysVoteResult}
    (h : newVoteResults parseFloat gp n title options = some (.ok results)) :
    ∀ r ∈ results, r.num = 0 := by
  induction options generalizing results with
  | nil =>
    obtain rfl : [] = results := Except.ok.inj (some.inj h)
    exact nofun
  | cons option rest ih =>
    rw [newVoteResults] at h
    split at h
    · cases h
    · cases h
    obtain ⟨r, hr, hmap⟩ := map_eq_some_iff.1 h
    cases r with
    | error e => cases hmap
    | ok tail =>
      obtain rfl : ⟨option, 0⟩ :: tail = results := Except.ok.inj hmap
      exact forall_mem_cons.2 ⟨rfl, ih hr⟩

lemma newSupports_zero {topics : List SysVoteTopic} {supports : List SysTopicSupports}
    (h : newSupports parseFloat gp n topics = some (.ok supports)) :
    ∀ topic ∈ supports, topic.votes = 0 := by
  induction topics generalizing supports with
  | nil =>
    obtain rfl : [] = supports := Except.ok.inj (some.inj h)
    exact nofun
  | cons topic rest ih =>
    rw [newSupports] at h
    split at h
    · cases h
    · cases h
    rename_i results hresults
    obtain ⟨r, hr, hmap⟩ := map_eq_some_iff.1 h
    cases r with
    | error e => cases hmap
    | ok tail =>
      obtain rfl : ⟨topic.topicTitle, results, topic.selectMax⟩ :: tail = supports :=
        Except.ok.inj hmap
      refine forall_mem_cons.2 ⟨?_, ih hr⟩
      refine sum_eq_zero fun n hn => ?_
      obtain ⟨r, hmem, rfl⟩ := List.mem_map.1 hn
      rw [newVoteResults_zero hresults r hmem]
      rfl

/-- Over every run of calls that count only the poll's own token and one option of a topic, no
topic has more votes than the amount of that token sent to the destroy address. -/
theorem votes_le_sent {c : CreateVotes} {st₀ st : State} {info : SysTokenInfo}
    (hnew : createVotesTokens parseFloat gp c st₀ = some (.ok st))
    (hinfo : st.withVote = some info) (calls : List VoteCall) (hfair : ∀ c ∈ calls, c.Fair info) :
    ∃ info', (calls.foldl afterVote st).withVote = some info' ∧ info'.assetID = info.assetID ∧
      ∀ topic ∈ info'.voteContent, topic.votes ≤ totalSent info.assetID calls ∧
        (totalSent info.assetID calls ≤ info.totalSupply.toNat →
          topic.votes ≤ info.totalSupply.toNat) := by
  have hstart : Weighed info 0 st := by
    refine ⟨info, hinfo, rfl, rfl, fun topic htopic => ?_⟩
    -- a new poll has no votes
    obtain ⟨topics, endTime, supports, assetID, hsupports, rfl⟩ := createVotesTokens_ok hnew
    obtain rfl := some.inj hinfo
    exact (newSupports_zero hsupports topic htopic).le
  obtain ⟨info', hinfo', hasset, -, hvotes⟩ := (hstart.run hfair).exists_info
  rw [zero_add] at hvotes
  exact ⟨info', hinfo', hasset, fun topic htopic =>
    ⟨hvotes topic htopic, fun hsupply => (hvotes topic htopic).trans hsupply⟩⟩

end Poll

/-! ### A poll and two kinds of votes -/

namespace SmallPoll

/-- The parameters of a new chain. -/
def gp : GlobalProp :=
  ⟨Core.newImmutChainParams, Core.newChainParams⟩

/-- No text is a number with a fraction here. -/
def parseFloat (_ : Bytes) : Except Core.NumError UInt64 :=
  .error .invalidSyntax

/-- A poll about the mediator interval. -/
def args : CreateVotes where
  createAddr := gp.chainParameters.foundationAddress
  mediatorCount := 5
  name := ascii "interval"
  totalSupply := 1000
  leastNum := 500
  voteEndTime := some 100
  voteTopics := some [⟨"MediatorInterval", [ascii "3", ascii "4"], 2⟩]
  txid := FixedBytes.zero 32

/-- The id of its token. -/
def token : AssetId :=
  packAssetId (Base36.decodeToBytes (ascii "SVOTE")) AssetType.voteToken.code 0
    (List.replicate 32 0) UniqueIdType.null.code

/-- The poll. -/
def info : SysTokenInfo where
  name := args.name
  symbol := ascii "SVOTE"
  createAddr := args.createAddr
  leastNum := 500
  totalSupply := 1000
  voteEndTime := 100
  voteContent := [⟨"MediatorInterval", [⟨ascii "3", 0⟩, ⟨ascii "4", 0⟩], 2⟩]
  assetID := token

lemma created : createVotesTokens parseFloat gp args ⟨∅, none⟩ = some (.ok ⟨∅, some info⟩) := by
  rfl

/-- A token of somebody else. -/
def otherToken : AssetId :=
  packAssetId (Base36.decodeToBytes (ascii "ABC")) AssetType.fungibleToken.code 0
    (List.replicate 32 7) UniqueIdType.null.code

/-- A vote with 10 of a token. -/
def vote (assetId : AssetId) (selectIndexs : List UInt64) : VoteCall where
  invokeTokens := [⟨10, ⟨assetId, FixedBytes.zero 16⟩, destroyAddress⟩]
  supportRequests := some [⟨1, selectIndexs⟩]
  headerTime := some 50

/-- A vote for one option with the poll's own token. -/
theorem own_vote :
    ∃ info', ([vote token [1]].foldl afterVote ⟨∅, some info⟩).withVote = some info' ∧
      info'.assetID = token ∧ ∀ topic ∈ info'.voteContent,
        topic.votes ≤ totalSent token [vote token [1]] ∧
        (totalSent token [vote token [1]] ≤ 1000 → topic.votes ≤ 1000) := by
  apply votes_le_sent created rfl [vote token [1]]
  intro c hc
  obtain rfl := mem_singleton.1 hc
  refine ⟨by decide +kernel, ?_⟩
  rintro requests hrequests r hr
  obtain rfl := some.inj hrequests
  obtain rfl := mem_singleton.1 hr
  intro topic htopic _
  obtain rfl := some.inj htopic
  decide

/-- Ten of another token count ten votes, and ten of the poll's token count twenty if both options
are selected. -/
theorem overcounted :
    totalSent token [vote otherToken [1]] = 0 ∧
    ([vote otherToken [1]].foldl afterVote ⟨∅, some info⟩).withVote.map
      (fun i => i.voteContent.map votes) = some [10] ∧
    totalSent token [vote token [1, 2]] = 10 ∧
    ([vote token [1, 2]].foldl afterVote ⟨∅, some info⟩).withVote.map
      (fun i => i.voteContent.map votes) = some [20] := by
  refine ⟨?_, ?_, ?_, ?_⟩ <;> decide +kernel

end SmallPoll

end ZwsChain.SysConfig
