import Mathlib
import ZwsChain.Jury.Processor
import ZwsChain.Lib.Runs

/-!
# Which lists of jurors are accepted

`consensus/jury`: the jurors of a contract are elected. A juror proves with a verifiable random
function that it is elected, a node collects the proofs (`processElectionResultEvent`) and asks the
mediators to sign the list (`processElectionSigRequestEvent`); later a list is validated with the
request it belongs to (`isValidateElection`). Entries may also be assigned: their type is 1 and they
have no proof.

A list should name at least the configured number of jurors, all different, each with its public key
and a proof for the contract, assigned ones of the foundation apart (`ProperJury`).

* `properJury_iff`: exactly when an accepted list is proper. Neither way compares entries with each
  other, requests of the type invoke may have assigned entries of anybody, and a mediator who signs
  looks at proofs only.
* `collected_run`: what a node collects is without repetitions and proved, over every sequence of
  received proofs.
* `completed_iff`: when the list that a node proposes has the missing jurors, if there are enough.

`none` is a runtime panic.
Sources without a file are in `consensus/jury/election.go`.
-/

open List Option

namespace ZwsChain.Jury

open SmallNode ElectionInf

/-- What the election reads of the processor, its keys and the chain. -/
structure Electorate where
  P : Primitives
  /-- The field `ContractElectionNum` of the chain parameters. -/
  contractElectionNum : Int
  /-- The field `FoundationAddress` of the chain parameters, a text. -/
  foundationAddress : Bytes
  isActiveJury : Address → Bool
  getTxRequesterAddress : Transaction → Option Address
  /-- Public key, message and proof; `none` is an error.
  Source: `consensus/jury/vrf/vrf.go`, `VrfVerify` -/
  vrfVerify : Bytes → Bytes → Bytes → Option (Bool × Bytes)
  /-- Source: `consensus/jury/vrf/algorithm/probability.go`, `Selected` -/
  selected : UInt64 → UInt64 → UInt64 → Bytes → Int
  /-- The address of the first local juror. -/
  getLocalJuryAccount : Option Address
  /-- The local mediators that are active. -/
  getLocalActiveMediators : List Address
  /-- The key store has a public key of the address and signs with it. -/
  canSign : Address → Bool
  /-- The foundation has assigned a juror to a contract in a request. -/
  assigned : Bytes → Hash → Bool

/-- Source: `consensus/jury/event.go`, `ElectionSigRequestEvent` -/
structure ElectionSigRequestEvent where
  reqId : Hash
  juryCount : UInt64
  ele : List ElectionInf

/-- Source: `consensus/jury/event.go`, `ElectionResultEvent` -/
structure ElectionResultEvent where
  reqId : Hash
  juryCount : UInt64
  ele : ElectionInf

namespace Electorate

variable (N : Electorate)

/-- Source: `consensus/jury/common.go`, `getSysCfgContractElectionNum` -/
def getSysCfgContractElectionNum : Nat :=
  if N.contractElectionNum < 1 then 4 else N.contractElectionNum.toNat

/-- Source: `consensus/jury/common.go`, `electionWeightValue` -/
def electionWeightValue (total : UInt64) : UInt64 :=
  if total ≤ 20 then 4 else if total ≤ 50 then 7 else if total ≤ 100 then 8
  else if total ≤ 200 then 15 else if total ≤ 500 then 17 else 20

/-- Source: `newElector` and `verifyVrf` -/
def verifyVrf (total : UInt64) (proof data pubKey : Bytes) : Option Bool :=
  match N.vrfVerify pubKey data proof with
  | none => none
  | some (ok, vrfValue) => some <| ok && decide (0 < vrfValue.length) &&
      decide (0 < N.selected (UInt64.ofNat N.getSysCfgContractElectionNum)
        (electionWeightValue total) total vrfValue)

/-- Source: `consensus/jury/common.go`, `getElectionSeedData` -/
def getElectionSeedData (reqId : Hash) : Bytes :=
  (requestIdToContractAddress N.P reqId).bytes

/-! ### Validating a list with its request -/

/-- An entry of type 0: the public key fits the hash of the address, belongs to an active juror and
the proof verifies.
Source: `consensus/jury/service.go`, `isValidateElection`, end of the loop body -/
def isValidateEntry (juryCount : UInt64) (contractId : Bytes) (e : ElectionInf) : Bool :=
  let addr := pubkeyBytesToAddress N.P e.publicKey
  e.addrHash = rlpHashBytes N.P addr && N.isActiveJury addr &&
    N.verifyVrf juryCount e.proof contractId e.publicKey = some true

/-- Whether the local juror is in the list, as far as it has been looked at.
Source: `consensus/jury/service.go`, `isValidateElection`, begin of the loop body -/
def seesLocalJury (checkExit isExit : Bool) (e : ElectionInf) : Option Bool :=
  if checkExit && !isExit then
    N.getLocalJuryAccount.map fun jury => decide (e.addrHash = rlpHashBytes N.P jury)
  else some isExit

/-- `some none` is the return of false.
Source: `consensus/jury/service.go`, `isValidateElection`, loop -/
def validateLoop (juryCount : UInt64) (contractId : Bytes) (cType : UInt8) (reqAddr : Address)
    (checkExit : Bool) : List ElectionInf → Bool → Option (Option Bool)
  | [], isExit => some (some isExit)
  | e :: es, isExit => do
      let isExit ← N.seesLocalJury checkExit isExit e
      if e.eType = 1 then
        if cType = 102 then validateLoop juryCount contractId cType reqAddr checkExit es isExit
        else if N.foundationAddress = reqAddr.str N.P then
          validateLoop juryCount contractId cType reqAddr checkExit es isExit
        else some none
      else if N.isValidateEntry juryCount contractId e then
        validateLoop juryCount contractId cType reqAddr checkExit es isExit
      else some none

/-- Source: `consensus/jury/service.go`, `isValidateElection` -/
def isValidateElection (tx : Transaction) (ele : ElectionNode) (checkExit : Bool) :
    Option Bool := do
  let _ ← tx.requestHash N.P
  if ele.eleList.length < N.getSysCfgContractElectionNum then some false
  else
    let contractId ← tx.getContractId N.P
    match N.getTxRequesterAddress tx, Processor.getContractTxType tx with
    | some reqAddr, some cType => do
        let loop ← N.validateLoop ele.juryCount contractId cType reqAddr checkExit ele.eleList false
        match loop with
        | none => some false
        | some isExit => some (!checkExit || isExit)
    | _, _ => some false

/-! ### Signing a list -/

variable (evt : ElectionSigRequestEvent)

/-- Source: `checkElectionSigRequestEventValid` -/
def checkElectionSigRequestEventValid : Bool :=
  evt.ele.length = N.getSysCfgContractElectionNum && evt.ele.all fun e =>
    e.eType = 1 || N.verifyVrf evt.juryCount e.proof (N.getElectionSeedData evt.reqId) e.publicKey =
      some true

/-- The mediators that sign the list. A key that fails ends the loop.
Source: `processElectionSigRequestEvent` -/
def processElectionSigRequestEvent : List Address :=
  if N.getLocalActiveMediators.isEmpty then []
  else if !N.checkElectionSigRequestEventValid evt then []
  else N.getLocalActiveMediators.takeWhile N.canSign

/-! ### Proper lists -/

/-- An active juror, named by the hash of its address, that is elected for the contract. -/
structure Elected (juryCount : UInt64) (contractId : Bytes) (e : ElectionInf) : Prop where
  addrHash : e.addrHash = rlpHashBytes N.P (pubkeyBytesToAddress N.P e.publicKey)
  active : N.isActiveJury (pubkeyBytesToAddress N.P e.publicKey) = true
  verifies : N.verifyVrf juryCount e.proof contractId e.publicKey = some true

/-- What an accepted list should be; `exempt` are the entries that the foundation has assigned. -/
structure ProperJury (juryCount : UInt64) (contractId : Bytes) (exempt : ElectionInf → Prop)
    (l : List ElectionInf) : Prop where
  enough : N.getSysCfgContractElectionNum ≤ l.length
  distinct : (l.map addrHash).Nodup
  jurors : ∀ e ∈ l, N.Elected juryCount contractId e ∨ exempt e

/-- An entry that the foundation has assigned in the request or before. -/
def Exempt (contractId : Bytes) (tx : Transaction) (e : ElectionInf) : Prop :=
  e.eType = 1 ∧ ((N.getTxRequesterAddress tx).map (·.str N.P) = some N.foundationAddress ∨
    N.assigned contractId e.addrHash = true)

variable {N} {juryCount : UInt64} {contractId : Bytes} {tx : Transaction} {ele : ElectionNode}

/-- What the loop has checked of every entry. -/
lemma entries_of_validateLoop {cType : UInt8} {reqAddr : Address} {checkExit isExit seen : Bool}
    {l : List ElectionInf}
    (h : N.validateLoop juryCount contractId cType reqAddr checkExit l isExit = some (some seen)) :
    ∀ e ∈ l, e.eType = 1 ∧ (cType = 102 ∨ N.foundationAddress = reqAddr.str N.P) ∨
      N.Elected juryCount contractId e := by
  induction l generalizing isExit with
  | nil => exact fun _ he => absurd he not_mem_nil
  | cons e es ih =>
    simp only [validateLoop, do_eq_some] at h
    obtain ⟨isExit', -, h⟩ := h
    rw [forall_mem_cons]
    split at h
    · next htype =>
        split at h
        · next hinvoke => exact ⟨.inl ⟨htype, .inl hinvoke⟩, ih h⟩
        split at h
        · next hjjh => exact ⟨.inl ⟨htype, .inr hjjh⟩, ih h⟩
        · cases h
    split at h
    · next hentry =>
        simp only [isValidateEntry, Bool.and_eq_true, decide_eq_true_eq] at hentry
        exact ⟨.inr ⟨hentry.1.1, hentry.1.2, hentry.2⟩, ih h⟩
    · cases h

/-- What an accepted list has been checked for. -/
lemma of_isValidateElection {checkExit : Bool}
    (h : N.isValidateElection tx ele checkExit = some true)
    (hid : tx.getContractId N.P = some contractId) :
    N.getSysCfgContractElectionNum ≤ ele.eleList.length ∧
      ∀ e ∈ ele.eleList, N.Elected ele.juryCount contractId e ∨
        e.eType = 1 ∧ (Processor.getContractTxType tx = some 102 ∨ N.Exempt contractId tx e) := by
  simp only [isValidateElection, do_eq_some] at h
  obtain ⟨_, -, h⟩ := h
  split at h
  · cases h
  rename_i hlen
  refine ⟨Nat.le_of_not_lt hlen, ?_⟩
  rw [hid, do_some] at h
  split at h
  · next reqAddr cType hreq hctype =>
      obtain ⟨loop, hloop, h⟩ := do_eq_some.1 h
      cases loop with
      | none => cases h
      | some seen =>
        intro e he
        rcases entries_of_validateLoop hloop e he with ⟨htype, hwhy⟩ | helected
        · refine .inr ⟨htype, hwhy.imp (fun hc => hctype.trans (congrArg some hc)) ?_⟩
          intro hjjh
          exact ⟨htype, .inl (by rw [hreq, map_some, hjjh])⟩
        · exact .inl helected
  · cases h

/-- What a signed list has been checked for. -/
lemma of_signed {evt : ElectionSigRequestEvent} (h : N.processElectionSigRequestEvent evt ≠ []) :
    evt.ele.length = N.getSysCfgContractElectionNum ∧ ∀ e ∈ evt.ele, e.eType = 1 ∨
      N.verifyVrf evt.juryCount e.proof (N.getElectionSeedData evt.reqId) e.publicKey =
        some true := by
  have hcheck : N.checkElectionSigRequestEventValid evt = true := by
    by_contra hfalse
    apply h
    simp [processElectionSigRequestEvent, hfalse]
  simpa [checkElectionSigRequestEventValid] using hcheck

/-- For every state of the chain: a list that is accepted with its request is proper exactly if no
juror is in it twice and assigned entries of an invoke request are those of the foundation (or
elected all the same). A list that a mediator signs is proper exactly if moreover the other entries
are active jurors under their own public keys. -/
theorem properJury_iff (N : Electorate) (tx : Transaction) (ele : ElectionNode) (checkExit : Bool)
    (evt : ElectionSigRequestEvent) :
    (N.isValidateElection tx ele checkExit = some true →
      ∀ contractId, tx.getContractId N.P = some contractId →
      (N.ProperJury ele.juryCount contractId (N.Exempt contractId tx) ele.eleList ↔
        (ele.eleList.map addrHash).Nodup ∧
        (Processor.getContractTxType tx = some 102 → ∀ e ∈ ele.eleList, e.eType = 1 →
          N.Exempt contractId tx e ∨ N.Elected ele.juryCount contractId e))) ∧
    (N.processElectionSigRequestEvent evt ≠ [] →
      (N.ProperJury evt.juryCount (N.getElectionSeedData evt.reqId)
          (fun e => e.eType = 1 ∧ N.assigned (N.getElectionSeedData evt.reqId) e.addrHash = true)
          evt.ele ↔
        (evt.ele.map addrHash).Nodup ∧
        (∀ e ∈ evt.ele, e.eType = 1 →
          N.assigned (N.getElectionSeedData evt.reqId) e.addrHash = true ∨
            N.Elected evt.juryCount (N.getElectionSeedData evt.reqId) e) ∧
        ∀ e ∈ evt.ele, e.eType ≠ 1 →
          e.addrHash = rlpHashBytes N.P (pubkeyBytesToAddress N.P e.publicKey) ∧
            N.isActiveJury (pubkeyBytesToAddress N.P e.publicKey) = true)) := by
  constructor
  · intro h contractId hid
    obtain ⟨henough, hentries⟩ := of_isValidateElection h hid
    constructor
    · intro hp
      exact ⟨hp.distinct, fun _ e he _ => (hp.jurors e he).symm⟩
    rintro ⟨hdistinct, hinvoke⟩
    refine ⟨henough, hdistinct, fun e he => ?_⟩
    rcases hentries e he with helected | ⟨htype, hctype | hexempt⟩
    · exact .inl helected
    · exact (hinvoke hctype e he htype).symm
    · exact .inr hexempt
  intro h
  obtain ⟨hlen, hentries⟩ := of_signed h
  constructor
  · intro hp
    refine ⟨hp.distinct, fun e he htype => ?_, fun e he htype => ?_⟩
    · exact (hp.jurors e he).symm.imp_left fun hexempt => hexempt.2
    rcases hp.jurors e he with helected | hexempt
    · exact ⟨helected.addrHash, helected.active⟩
    · exact absurd hexempt.1 htype
  rintro ⟨hdistinct, hassigned, hothers⟩
  refine ⟨hlen.ge, hdistinct, fun e he => ?_⟩
  by_cases htype : e.eType = 1
  · exact (hassigned e he htype).symm.imp_right fun hassigned => ⟨htype, hassigned⟩
  · obtain ⟨haddr, hactive⟩ := hothers e he htype
    exact .inl ⟨haddr, hactive, (hentries e he).resolve_left htype⟩

/-! ### Four seats -/

namespace FourSeats

/-- A proof is the message behind the public key; every proof is elected. -/
def electorate : Electorate where
  P := primitives
  contractElectionNum := 0
  foundationAddress := (pubkeyBytesToAddress primitives [7]).str primitives
  isActiveJury a := a ∈ [[1], [2], [3], [4]].map (pubkeyBytesToAddress primitives)
  getTxRequesterAddress _ := some (pubkeyBytesToAddress primitives [9])
  vrfVerify pubKey data proof := some (proof == pubKey ++ data, [1])
  selected _ _ _ _ := 1
  getLocalJuryAccount := none
  getLocalActiveMediators := [pubkeyBytesToAddress primitives [5]]
  canSign _ := true
  assigned _ _ := false

/-- The request that deployed the contract. -/
def deployId : Hash := digest 32 [1]

/-- The contract. -/
def contract : Bytes := electorate.getElectionSeedData deployId

/-- An entry of a juror with its proof. -/
def juror (pubKey : Bytes) : ElectionInf :=
  ⟨0, rlpHashBytes primitives (pubkeyBytesToAddress primitives pubKey), pubKey ++ contract, pubKey⟩

/-- An entry that says of itself that it is assigned. -/
def madeUp (n : UInt8) : ElectionInf := ⟨1, digest 32 [n], [], []⟩

/-- An invoke request of somebody who is not the foundation. -/
def request : Transaction := ⟨[.contractInvokeRequest ⟨contract, [], 0⟩], [], false⟩

lemma getContractId_request : request.getContractId electorate.P = some contract := rfl

/-- Four different active jurors with proofs are accepted, signed and proper. -/
theorem properJury_of_four :
    electorate.isValidateElection request ⟨4, [[1], [2], [3], [4]].map juror⟩ false = some true ∧
    electorate.processElectionSigRequestEvent ⟨deployId, 4, [[1], [2], [3], [4]].map juror⟩ ≠ [] ∧
    electorate.ProperJury 4 contract (electorate.Exempt contract request)
      ([[1], [2], [3], [4]].map juror) := by
  have haccepted : electorate.isValidateElection request ⟨4, [[1], [2], [3], [4]].map juror⟩ false =
      some true := by decide +kernel
  refine ⟨haccepted, by decide +kernel, ?_⟩
  apply ((properJury_iff electorate request ⟨4, [[1], [2], [3], [4]].map juror⟩ false
    ⟨deployId, 4, []⟩).1 haccepted contract getContractId_request).2
  have hproved : ∀ e ∈ [[1], [2], [3], [4]].map juror, e.eType ≠ 1 := by decide +kernel
  exact ⟨by decide +kernel, fun _ e he htype => absurd htype (hproved e he)⟩

/-- One juror on all four seats is accepted and signed, and so are four made-up names in a request
that is not the foundation's; neither list is proper. -/
theorem not_properJury :
    (electorate.isValidateElection request ⟨4, List.replicate 4 (juror [1])⟩ false = some true ∧
      electorate.processElectionSigRequestEvent ⟨deployId, 4, List.replicate 4 (juror [1])⟩ ≠ [] ∧
      ¬ electorate.ProperJury 4 contract (electorate.Exempt contract request)
        (List.replicate 4 (juror [1]))) ∧
    electorate.isValidateElection request ⟨4, [1, 2, 3, 4].map madeUp⟩ false = some true ∧
      electorate.processElectionSigRequestEvent ⟨deployId, 4, [1, 2, 3, 4].map madeUp⟩ ≠ [] ∧
      ¬ electorate.ProperJury 4 contract (electorate.Exempt contract request)
        ([1, 2, 3, 4].map madeUp) := by
  refine ⟨⟨by decide +kernel, by decide +kernel, ?_⟩, by decide +kernel, by decide +kernel, ?_⟩
  · intro h
    exact absurd h.distinct (by decide +kernel)
  intro h
  rcases h.jurors (madeUp 1) (by decide +kernel) with helected | hexempt
  · exact absurd helected.active (by decide +kernel)
  · exact absurd hexempt.2 (by decide +kernel)

end FourSeats

/-! ### Collecting proofs -/

/-- What is collected for a request.
Source: `consensus/jury/service.go`, `electionVrf` -/
structure ElectionVrf where
  rcvEle : List ElectionInf
  juryCnt : UInt64

/-- A proof for a request that is not in the map is a nil-pointer panic.
Source: `processElectionResultEvent` -/
def processElectionResultEvent (N : Electorate) (mel : Hash → Option ElectionVrf)
    (evt : ElectionResultEvent) : Option (Hash → Option ElectionVrf) :=
  match mel evt.reqId with
  | none => none
  | some v =>
    if N.getSysCfgContractElectionNum * 2 ≤ v.rcvEle.length then some mel
    else if v.rcvEle.any fun ele => evt.ele.addrHash = ele.addrHash then some mel
    else match N.verifyVrf evt.juryCount evt.ele.proof (N.getElectionSeedData evt.reqId)
        evt.ele.publicKey with
      | some true =>
        some (Function.update mel evt.reqId (some ⟨v.rcvEle ++ [evt.ele], evt.juryCount⟩))
      | _ => some mel

/-- What is collected for each request: different jurors, each with a proof. -/
def Collected (N : Electorate) (mel : Hash → Option ElectionVrf) : Prop :=
  ∀ reqId v, mel reqId = some v → (v.rcvEle.map addrHash).Nodup ∧
    v.rcvEle.length ≤ N.getSysCfgContractElectionNum * 2 ∧
    ∀ e ∈ v.rcvEle, ∃ juryCount,
      N.verifyVrf juryCount e.proof (N.getElectionSeedData reqId) e.publicKey = some true

variable {mel mel' : Hash → Option ElectionVrf}

lemma Collected.step {evt : ElectionResultEvent}
    (h : Collected N mel) (hstep : processElectionResultEvent N mel evt = some mel') :
    Collected N mel' := by
  unfold processElectionResultEvent at hstep
  split at hstep
  · cases hstep
  rename_i v hv
  split at hstep
  · exact some.inj hstep ▸ h
  split at hstep
  · exact some.inj hstep ▸ h
  rename_i hnew
  split at hstep
  · next hvrf =>
      obtain rfl := some.inj hstep
      obtain ⟨hdistinct, -, hproofs⟩ := h _ _ hv
      intro reqId w hw
      by_cases hreq : reqId = evt.reqId
      · subst hreq
        rw [Function.update_self] at hw
        obtain rfl := some.inj hw
        refine ⟨?_, ?_, ?_⟩
        · rw [map_append, nodup_append]
          refine ⟨hdistinct, nodup_singleton _, ?_⟩
          rintro a ha b hb rfl
          obtain ⟨e, he, heq⟩ := List.mem_map.1 ha
          apply hnew
          rw [List.any_eq_true]
          exact ⟨e, he, decide_eq_true ((mem_singleton.1 hb).symm.trans heq.symm)⟩
        · rw [length_append, length_singleton]
          omega
        intro e he
        rcases mem_append.1 he with he | he
        · exact hproofs e he
        · rw [mem_singleton.1 he]
          exact ⟨_, hvrf⟩
      · rw [Function.update_of_ne hreq] at hw
        exact h _ _ hw
  · exact some.inj hstep ▸ h

/-- Whatever proofs a node receives, what it collects are different jurors with proofs. -/
theorem collected_run {evts : List ElectionResultEvent}
    (h : Collected N mel) (hrun : evts.foldlM (processElectionResultEvent N) mel = some mel') :
    Collected N mel' :=
  Lib.foldlM_preserves (fun _ _ _ _ hs hstep => Collected.step hs hstep) h hrun

open FourSeats in
/-- A juror whose proof is received twice is collected once. -/
theorem collected_twice : ∃ mel,
    (replicate 2 ⟨deployId, 4, juror [1]⟩).foldlM (processElectionResultEvent electorate)
      (fun _ => some ⟨[], 0⟩) = some mel ∧
    (mel deployId).map ElectionVrf.rcvEle = some [juror [1]] ∧ Collected electorate mel := by
  have hrun : ((replicate 2 ⟨deployId, 4, juror [1]⟩).foldlM (processElectionResultEvent electorate)
      (fun _ => some ⟨[], 0⟩)).any fun mel =>
        (mel deployId).map ElectionVrf.rcvEle = some [juror [1]] := by
    decide +kernel
  obtain ⟨mel, hrun, hone⟩ := (any_eq_true _ _).1 hrun
  refine ⟨mel, hrun, of_decide_eq_true hone, collected_run ?_ hrun⟩
  rintro _ _ ⟨⟩
  simp

/-- The list that a node proposes; an entry that is there already is left out without a
replacement.
Source: `selectElectionInf` -/
def selectElectionInf (own recv : List ElectionInf) (num : Nat) : Option (List ElectionInf) :=
  if own.length + recv.length < num then none
  else if num ≤ own.length then some (own.take num)
  else
    let eels := own ++ (recv.take (num - own.length)).filter fun r =>
      own.all fun l => l.addrHash ≠ r.addrHash
    if eels.length < num then none else some eels

variable {own recv l : List ElectionInf} {num : Nat}

/-- The received entries that are looked at must all be new. -/
lemma selectElectionInf_eq_some_iff :
    selectElectionInf own recv num = some l ↔ num ≤ own.length + recv.length ∧
      (∀ r ∈ recv.take (num - own.length), ∀ o ∈ own, o.addrHash ≠ r.addrHash) ∧
      l = own.take num ++ recv.take (num - own.length) := by
  unfold selectElectionInf
  split_ifs with hshort hlong
  · simp [hshort]
  · simp [Nat.sub_eq_zero_of_le hlong, not_lt.1 hshort, eq_comm]
  set taken := recv.take (num - own.length) with htaken
  have hlength : taken.length = num - own.length := by
    rw [htaken, length_take]
    omega
  have hall : (own ++ taken.filter fun r => own.all fun o => o.addrHash ≠ r.addrHash).length <
      num ↔ ¬ ∀ r ∈ taken, ∀ o ∈ own, o.addrHash ≠ r.addrHash := by
    have hfilter := length_filter_eq_length_iff (l := taken)
      (p := fun r => own.all fun o => o.addrHash ≠ r.addrHash)
    have hle := length_filter_le (fun r => own.all fun o => o.addrHash ≠ r.addrHash) taken
    simp only [List.all_eq_true, decide_eq_true_eq] at hfilter
    rw [← hfilter, length_append]
    omega
  rw [take_of_length_le (by omega)]
  dsimp only
  split_ifs with hless
  · simp [hall.1 hless]
  · have hnew := not_not.1 (hall.not.1 hless)
    rw [filter_eq_self.2 fun r hr => List.all_eq_true.2 fun o ho => decide_eq_true (hnew r hr o ho)]
    exact ⟨fun h => ⟨not_lt.1 hshort, hnew, (some.inj h).symm⟩, fun h => congrArg some h.2.2.symm⟩

/-- The number of different jurors in two lists. -/
def different (own recv : List ElectionInf) : Nat :=
  ((own ++ recv).map addrHash).dedup.length

/-- The list is completed whenever there are enough different jurors, with different ones, and
begins with the assigned ones. -/
structure Completed (own recv : List ElectionInf) (num : Nat) : Prop where
  succeeds : (∃ l, selectElectionInf own recv num = some l) ↔ num ≤ different own recv
  proper : ∀ l, selectElectionInf own recv num = some l → l.length = num ∧
    (l.map addrHash).Nodup ∧ own.take num <+: l ∧ ∀ e ∈ l.drop own.length, e ∈ recv

/-- No more received entries are looked at than are missing. So the list is completed exactly if
these are new and different, or if there are not enough different jurors and one of them is
assigned already, or the lists are too short. -/
theorem completed_iff (hown : (own.map addrHash).Nodup) : Completed own recv num ↔
    ((own ++ recv.take (num - own.length)).map addrHash).Nodup ∨
      different own recv < num ∧ (own.length + recv.length < num ∨
        ∃ r ∈ recv.take (num - own.length), ∃ o ∈ own, o.addrHash = r.addrHash) := by
  have hle : different own recv ≤ own.length + recv.length :=
    (dedup_sublist _).length_le.trans (by simp)
  have hnodup : ((own ++ recv.take (num - own.length)).map addrHash).Nodup ↔
      ((own.take num ++ recv.take (num - own.length)).map addrHash).Nodup := by
    rcases le_total num own.length with hlong | hlong
    · simpa [Nat.sub_eq_zero_of_le hlong, hown] using hown.sublist ((take_sublist _ _).map _)
    · rw [take_of_length_le hlong]
  constructor
  · rintro ⟨hsucceeds, hproper⟩
    by_cases hsome : ∃ l, selectElectionInf own recv num = some l
    · obtain ⟨l, hl⟩ := hsome
      obtain ⟨-, -, rfl⟩ := selectElectionInf_eq_some_iff.1 hl
      exact .inl (hnodup.2 (hproper _ hl).2.1)
    refine .inr ⟨not_le.1 (hsucceeds.not.1 hsome), ?_⟩
    by_contra hnone
    push Not at hnone
    exact hsome ⟨_, selectElectionInf_eq_some_iff.2 ⟨hnone.1, fun r hr o ho =>
      hnone.2 r hr o ho, rfl⟩⟩
  rintro (h | ⟨hfew, hnone⟩)
  · have hnew : ∀ r ∈ recv.take (num - own.length), ∀ o ∈ own, o.addrHash ≠ r.addrHash := by
      rw [map_append, nodup_append] at h
      exact fun r hr o ho => h.2.2 _ (mem_map_of_mem ho) _ (mem_map_of_mem hr)
    refine ⟨⟨?_, fun hnum => ⟨_, selectElectionInf_eq_some_iff.2 ⟨hnum.trans hle, hnew, rfl⟩⟩⟩, ?_⟩
    · rintro ⟨l, hl⟩
      obtain ⟨hnum, -, rfl⟩ := selectElectionInf_eq_some_iff.1 hl
      have hsub : (own.take num ++ recv.take (num - own.length)).map addrHash ⊆
          ((own ++ recv).map addrHash).dedup := by
        intro a ha
        rw [mem_dedup]
        exact ((take_sublist _ _).append (take_sublist _ _)).map _ |>.subset ha
      have hlength := (subperm_of_subset (hnodup.1 h) hsub).length_le
      simp only [length_map, length_append, length_take] at hlength
      rw [different]
      omega
    · intro l hl
      obtain ⟨hnum, -, rfl⟩ := selectElectionInf_eq_some_iff.1 hl
      refine ⟨?_, hnodup.1 h, ⟨_, rfl⟩, fun e he => ?_⟩
      · simp only [length_append, length_take]
        omega
      · rw [drop_append, drop_eq_nil_of_le (length_take_le' _ _), nil_append] at he
        exact mem_of_mem_take (mem_of_mem_drop he)
  · have hno : ∀ l, selectElectionInf own recv num ≠ some l := by
      intro l hl
      obtain ⟨hnum, hnew, -⟩ := selectElectionInf_eq_some_iff.1 hl
      rcases hnone with hshort | ⟨r, hr, o, ho, heq⟩
      · omega
      · exact hnew r hr o ho heq
    exact ⟨⟨fun ⟨l, hl⟩ => absurd hl (hno l), fun hnum => absurd hnum (not_le.2 hfew)⟩,
      fun l hl => absurd hl (hno l)⟩

/-- A juror is missing, and a new one was received. -/
theorem completed_by_new : Completed [FourSeats.madeUp 1] [FourSeats.madeUp 2] 2 :=
  (completed_iff (by decide +kernel)).2 (.inl (by decide +kernel))

/-- The assigned juror was received before the new one. -/
theorem not_completed_by_second :
    ¬ Completed [FourSeats.madeUp 1] [FourSeats.madeUp 1, FourSeats.madeUp 2] 2 := by
  intro h
  obtain ⟨l, hl⟩ := h.succeeds.2 (by decide +kernel)
  have hnone : selectElectionInf [FourSeats.madeUp 1] [FourSeats.madeUp 1, FourSeats.madeUp 2] 2 =
      none := by
    decide +kernel
  cases hnone.symm.trans hl

end Electorate

end ZwsChain.Jury
