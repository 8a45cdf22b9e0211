import ZwsChain.RwSet.OwnWrites

/-!
# Invocations that share a simulator

`contracts/manger` runs every invocation of a contract with the simulator that the manager
(`RwSetTxMgr`) has for the chain. The simulator is made for the first invocation and stays until
`CloseTxSimulator`; the result of an invocation is what has been recorded for the contract's name
since then, by any invocation, and a failed invocation is not taken back.

A contract is a `Program`: it makes calls, sees the replies and ends with a response.

* `OwnResult`: a result holds what the invocation itself wrote, paid out, defined and supplied.
* `Apart`: an earlier invocation of the same contract has made no calls, and what a failed one has
  written is not read later.
* `RwSetTxMgr.isolated`: invocations that are apart have their own results, and failed ones among
  them have no effect.

Sources without a file are in `contracts/manger/support.go`.
-/

open List Option Function

namespace ZwsChain.RwSet

/-! ### Contracts -/

/-- What a contract asks for. The handler adds the contract's name as namespace.
Source: `contracts/core/handler.go` -/
inductive Request where
  | getState (contractId key : Bytes)
  | getStateByPrefix (contractId start : Bytes)
  | putState (contractId key : Bytes) (value : Option Bytes)
  | delState (contractId key : Bytes)
  | payOutToken (address : Bytes) (asset : Asset) (amount : UInt64) (locktime : UInt32)
  | defineToken (tokenType : Int) (define creator : Bytes)
  | supplyToken (assetId uniqueId : Bytes) (amount : UInt64) (creator : Bytes)

/-- The call that a request makes. -/
def Request.call (ns : Bytes) : Request → Call
  | .getState id key => .getState id ns key
  | .getStateByPrefix id start => .getStatesByPrefix id ns start
  | .putState id key value => .setState id ns key value
  | .delState id key => .deleteState id ns key
  | .payOutToken address asset amount locktime => .payOutToken ns address asset amount locktime
  | .defineToken tokenType define creator => .defineToken ns tokenType define creator
  | .supplyToken assetId uniqueId amount creator => .supplyToken ns assetId uniqueId amount creator

/-- How the execution of a contract ends: with an error of the execution, without a response, or
with one. -/
inductive Exit where
  | error
  | nilResponse
  | response (status : Int) (payload : Bytes)
  deriving DecidableEq

/-- A running contract. -/
inductive Program where
  | exit (e : Exit)
  | request (r : Request) (next : Reply → Program)

/-- An executed contract: how it ended, its calls with their replies, and the simulator. -/
structure Execution where
  exit : Exit
  trace : List (Call × Reply)
  sim : RwSetTxSimulator

/-- `orders i` is what the runtime does with maps in call `i`.
Source: `Execute` -/
def Program.exec (P : Primitives) (ns : Bytes) (orders : Nat → MapOrder) :
    Program → Nat → RwSetTxSimulator → Execution
  | .exit e, _, s => ⟨e, [], s⟩
  | .request r next, i, s =>
    let (reply, s) := s.step P (orders i) (r.call ns)
    let x := (next reply).exec P ns orders (i + 1) s
    { x with trace := (r.call ns, reply) :: x.trace }

/-! ### Results -/

/-- Source: `dag/modules/message.go`, `ContractInvokeResult` -/
structure ContractInvokeResult where
  contractId : Bytes
  requestId : Hash
  args : List Bytes
  readSet : List ContractReadSet
  writeSet : List ContractWriteSet
  payload : Bytes
  tokenPayOut : List TokenPayOut
  tokenSupply : List TokenSupply
  tokenDefine : Option TokenDefine
  deriving DecidableEq

/-- Source: `RwTxResult2DagInvokeUnit`, the read set -/
def KVRead.toContractReadSet (r : KVRead) : ContractReadSet :=
  ⟨r.key, r.version, r.contractId⟩

/-- Source: `RwTxResult2DagInvokeUnit`, the write set -/
def KVWrite.toContractWriteSet (w : KVWrite) : ContractWriteSet :=
  ⟨w.isDelete, w.key, w.value.getD [], w.contractId⟩

/-- An invocation of a contract.
Source: `contracts/manger/ccapi.go`, `Invoke`, the arguments of `ProcessProposal` -/
structure Invocation where
  name : Bytes
  deployId : Bytes
  txid : Bytes
  args : List Bytes
  program : Program
  orders : Nat → MapOrder

/-- What is recorded in the contract's namespace. The request id is filled in later.
Source: `RwTxResult2DagInvokeUnit` -/
def rwTxResult2DagInvokeUnit (tx : RwSetTxSimulator) (inv : Invocation) (payload : Bytes) :
    ContractInvokeResult :=
  let (rd, wt) := tx.getRwData inv.name
  let b := tx.pubRwBuilderMap inv.name
  { contractId := inv.deployId
    requestId := FixedBytes.zero 32
    args := inv.args
    readSet := rd.map KVRead.toContractReadSet
    writeSet := wt.map KVWrite.toContractWriteSet
    payload
    tokenPayOut := b.tokenPayOut
    tokenSupply := b.tokenSupply
    tokenDefine := b.tokenDefine }

/-- What came of an invocation; a failed one has no result. -/
structure Outcome where
  name : Bytes
  trace : List (Call × Reply)
  result : Option ContractInvokeResult

/-- The result of an execution. Failed is a response from status 500 on.
Source: `contracts/manger/endorser.go`, `ProcessProposal`, behind `simulateProposal` -/
def Execution.result (x : Execution) (inv : Invocation) : Option ContractInvokeResult :=
  match x.exit with
  | .error => none
  | .nilResponse => none
  | .response status payload =>
    if 500 ≤ status then none else some (rwTxResult2DagInvokeUnit x.sim inv payload)

/-! ### The manager -/

/-- The simulators by chain id, and by chain id and transaction id.
Source: `dag/rwset/rwsetTxMgr.go`, `RwSetTxMgr` -/
structure RwSetTxMgr where
  baseTxSim : Bytes → Option RwSetTxSimulator

namespace RwSetTxMgr

/-- The simulator is kept at the given place. -/
def keep (m : RwSetTxMgr) (place : Bytes) (s : RwSetTxSimulator) : RwSetTxMgr :=
  ⟨update m.baseTxSim place (some s)⟩

variable (hexToHash : Bytes → Hash)

/-- Source: `dag/rwset/rwsetTxMgr.go`, `NewTxSimulator` -/
def newTxSimulator (idag : Db) (chainid txid : Bytes) (isSys : Bool) (m : RwSetTxMgr) :
    RwSetTxSimulator × RwSetTxMgr :=
  let hash := hexToHash txid
  let fresh (place : Bytes) :=
    let t := RwSetTxSimulator.newBasedTxSimulator idag hash
    (t, m.keep place t)
  if isSys then
    match m.baseTxSim chainid with
    | some ts => (ts, m)
    | none => fresh chainid
  else
    match m.baseTxSim (chainid ++ txid) with
    | some ts => if ts.txid = hash then (ts, m) else fresh (chainid ++ txid)
    | none => fresh (chainid ++ txid)

/-- Source: `GetTxSimulator` -/
def getTxSimulator (idag : Db) (chainid txid : Bytes) (m : RwSetTxMgr) :
    RwSetTxSimulator × RwSetTxMgr :=
  m.newTxSimulator hexToHash idag chainid txid true

variable (P : Primitives) (idag : Db) (chainID : Bytes)

/-- One invocation. The simulator is the manager's own, so its changes stay, whatever comes of the
invocation.
Source: `contracts/manger/endorser.go`, `ProcessProposal` -/
def processProposal (inv : Invocation) (m : RwSetTxMgr) : Outcome × RwSetTxMgr :=
  let (txsim, m) := m.getTxSimulator hexToHash idag chainID inv.txid
  let x := inv.program.exec P inv.name inv.orders 0 txsim
  (⟨inv.name, x.trace, x.result inv⟩, m.keep chainID x.sim)

/-- Invocations one after the other. -/
def invokeAll : List Invocation → RwSetTxMgr → List Outcome × RwSetTxMgr
  | [], m => ([], m)
  | inv :: invs, m =>
    let (o, m) := m.processProposal hexToHash P idag chainID inv
    let (os, m) := invokeAll invs m
    (o :: os, m)

end RwSetTxMgr

/-! ### What an execution records -/

@[simp] lemma Request.ns_call (ns : Bytes) (r : Request) : (r.call ns).ns = ns := by
  cases r <;> rfl

section Tokens

variable (P : Primitives)

/-- The payout of a call. -/
def Call.payOut? : Call → Option TokenPayOut
  | .payOutToken _ address token amount lockTime =>
    some ⟨token, amount, RwSetTxSimulator.addressOf P address, lockTime⟩
  | _ => none

/-- The token definition of a call. -/
def Call.define? : Call → Option TokenDefine
  | .defineToken _ tokenType define creator =>
    some ⟨tokenType, define, RwSetTxSimulator.addressOf P creator⟩
  | _ => none

/-- The supply of a call. -/
def Call.supply? : Call → Option TokenSupply
  | .supplyToken _ assetId uniqueId amt creator =>
    some ⟨assetId, uniqueId, amt, RwSetTxSimulator.addressOf P creator⟩
  | _ => none

/-- A result holds what some calls write, pay out, define and supply, and nothing else: of each key
the last write, of the definitions the last one. -/
structure OwnResult (calls : List Call) (r : ContractInvokeResult) : Prop where
  writes : ∀ w, w ∈ r.writeSet ↔ ∃ id value, lastWrite calls w.key = some (id, value) ∧
    w = (newKVWrite id w.key value).toContractWriteSet
  once : (r.writeSet.map ContractWriteSet.key).Nodup
  payOuts : r.tokenPayOut = calls.filterMap (Call.payOut? P)
  supplies : r.tokenSupply = calls.filterMap (Call.supply? P)
  defines : r.tokenDefine = (calls.filterMap (Call.define? P)).getLast?

/-- The second builder is the first with some calls recorded, reads apart. -/
structure Records (calls : List Call) (b b' : NsPubRwBuilder) : Prop where
  writeMap : ∀ key, b'.writeMap.lookup key =
    ((lastWrite calls key).map fun w => newKVWrite w.1 key w.2).or (b.writeMap.lookup key)
  tokenPayOut : b'.tokenPayOut = b.tokenPayOut ++ calls.filterMap (Call.payOut? P)
  tokenSupply : b'.tokenSupply = b.tokenSupply ++ calls.filterMap (Call.supply? P)
  tokenDefine : b'.tokenDefine = (calls.filterMap (Call.define? P)).getLast?.or b.tokenDefine

variable {P}

lemma Records.nil (b : NsPubRwBuilder) : Records P [] b b where
  writeMap _ := rfl
  tokenPayOut := by simp
  tokenSupply := by simp
  tokenDefine := rfl

lemma lastWrite_cons (c : Call) (calls : List Call) (key : Bytes) :
    lastWrite (c :: calls) key = (lastWrite calls key).or (c.writeTo key) := by
  simp [lastWrite]

lemma Records.cons {c : Call} {calls : List Call} {b b' b'' : NsPubRwBuilder}
    (h : Records P [c] b b') (h' : Records P calls b' b'') : Records P (c :: calls) b b'' where
  writeMap key := by
    rw [h'.writeMap, h.writeMap, lastWrite_cons, lastWrite_cons, lastWrite_nil, none_or,
      map_or, Option.or_assoc]
  tokenPayOut := by
    rw [h'.tokenPayOut, h.tokenPayOut, append_assoc, ← filterMap_append]
    rfl
  tokenSupply := by
    rw [h'.tokenSupply, h.tokenSupply, append_assoc, ← filterMap_append]
    rfl
  tokenDefine := by
    have hsplit : (c :: calls).filterMap (Call.define? P) =
        [c].filterMap (Call.define? P) ++ calls.filterMap (Call.define? P) := by
      rw [← filterMap_append]
      rfl
    rw [h'.tokenDefine, h.tokenDefine, hsplit, getLast?_append, Option.or_assoc]

end Tokens

namespace NsPubRwBuilder

variable (o : MapOrder) (id : Bytes)

lemma records_addToReadSet (P : Primitives) (key : Bytes) (version : Option StateVersion)
    (b : NsPubRwBuilder) : Records P [] b (b.addToReadSet o id key version) :=
  { Records.nil b with }

lemma records_foldl_addToReadSet (P : Primitives) (data : List (Bytes × ContractStateValue))
    (b : NsPubRwBuilder) : Records P [] b
      (data.foldl (fun b row => b.addToReadSet o id row.1 (some row.2.version)) b) := by
  induction data generalizing b with
  | nil => exact .nil b
  | cons row data ih =>
    have h := ih (b.addToReadSet o id row.1 (some row.2.version))
    exact { h with }

lemma records_addToWriteSet (P : Primitives) (key : Bytes) (value : Option Bytes)
    (b : NsPubRwBuilder) {c : Call} (hc : c.write? = some (id, key, value))
    (hpay : c.payOut? P = none) (hsupply : c.supply? P = none) (hdefine : c.define? P = none) :
    Records P [c] b (b.addToWriteSet id key value) where
  writeMap key' := by
    rw [lastWrite_cons, lastWrite_nil, none_or, Call.writeTo, hc]
    by_cases hkey : key' = key
    · subst hkey
      simp [addToWriteSet]
    · simp [addToWriteSet, AList.lookup_insert_ne hkey, Ne.symm hkey]
  tokenPayOut := by simp [addToWriteSet, hpay]
  tokenSupply := by simp [addToWriteSet, hsupply]
  tokenDefine := by simp [addToWriteSet, hdefine]

end NsPubRwBuilder

open NsPubRwBuilder

/-- A call without effects records nothing but reads. -/
lemma Records.of_read {P : Primitives} {c : Call} {b b' : NsPubRwBuilder} (h : Records P [] b b')
    (hwrite : c.write? = none) (hpay : c.payOut? P = none) (hsupply : c.supply? P = none)
    (hdefine : c.define? P = none) : Records P [c] b b' where
  writeMap key := by
    rw [h.writeMap, lastWrite_cons, Call.writeTo, hwrite]
    rfl
  tokenPayOut := by simpa [hpay] using h.tokenPayOut
  tokenSupply := by simpa [hsupply] using h.tokenSupply
  tokenDefine := by simpa [hdefine] using h.tokenDefine

namespace RwSetTxSimulator

variable (P : Primitives) (o : MapOrder) (s : RwSetTxSimulator)

lemma builder_record_self (ns : Bytes) (f : NsPubRwBuilder → NsPubRwBuilder) :
    (s.record ns f).pubRwBuilderMap ns = f (s.pubRwBuilderMap ns) :=
  update_self ..

lemma builder_record_of_ne {ns ns' : Bytes} (h : ns' ≠ ns)
    (f : NsPubRwBuilder → NsPubRwBuilder) :
    (s.record ns f).pubRwBuilderMap ns' = s.pubRwBuilderMap ns' :=
  update_of_ne h ..

/-- A call records itself in its namespace. -/
lemma records_step (c : Call) :
    Records P [c] (s.pubRwBuilderMap c.ns) ((s.step P o c).2.pubRwBuilderMap c.ns) := by
  cases c with
  | getState id ns key =>
    apply Records.of_read _ rfl rfl rfl rfl
    simp only [step, getState, Call.ns]
    split
    · rw [builder_record_self]
      exact records_addToReadSet o id P key none _
    split
    · exact .nil _
    · rw [builder_record_self]
      exact records_addToReadSet o id P key _ _
  | getStatesByPrefix id ns start =>
    apply Records.of_read _ rfl rfl rfl rfl
    simp only [step, getStatesByPrefix, Call.ns]
    split
    · exact .nil _
    · rw [builder_record_self]
      exact records_foldl_addToReadSet o id P _ _
  | setState id ns key value =>
    show Records P _ _ ((s.record ns _).pubRwBuilderMap ns)
    rw [builder_record_self]
    exact records_addToWriteSet id P key value _ rfl rfl rfl rfl
  | deleteState id ns key =>
    show Records P _ _ ((s.record ns _).pubRwBuilderMap ns)
    rw [builder_record_self]
    exact records_addToWriteSet id P key none _ rfl rfl rfl rfl
  | payOutToken ns address token amount lockTime | defineToken ns tokenType define creator
  | supplyToken ns assetId uniqueId amt creator =>
    simp only [step, Call.ns, builder_record_self]
    constructor
    · intro key
      rfl
    all_goals simp [addTokenPayOut, defineToken,
      addSupplyToken, Call.payOut?, Call.define?, Call.supply?]

/-- A call does not touch other namespaces. -/
lemma builder_step_of_ne {c : Call} {ns : Bytes} (h : ns ≠ c.ns) :
    (s.step P o c).2.pubRwBuilderMap ns = s.pubRwBuilderMap ns := by
  cases c with
  | getState id ns' key =>
    simp only [step, getState]
    split
    · exact builder_record_of_ne s h _
    split
    · rfl
    · exact builder_record_of_ne s h _
  | getStatesByPrefix id ns' start =>
    have hne : ns ≠ ns' := h
    simp only [step, getStatesByPrefix]
    split
    · rfl
    · dsimp only
      rw [builder_record_of_ne s hne]
  | _ => exact builder_record_of_ne s h _

end RwSetTxSimulator

open RwSetTxSimulator

namespace Program

variable (P : Primitives) (ns : Bytes) (orders : Nat → MapOrder)

/-- An execution records its calls in the contract's namespace. -/
lemma records_exec (p : Program) (i : Nat) (s : RwSetTxSimulator) :
    Records P ((p.exec P ns orders i s).trace.map Prod.fst) (s.pubRwBuilderMap ns)
      ((p.exec P ns orders i s).sim.pubRwBuilderMap ns) := by
  induction p generalizing i s with
  | exit e => exact .nil _
  | request r next ih =>
    have hstep := s.records_step P (orders i) (r.call ns)
    rw [Request.ns_call] at hstep
    exact hstep.cons (ih _ (i + 1) _)

/-- It does not touch other namespaces. -/
lemma builder_exec_of_ne {ns' : Bytes} (h : ns' ≠ ns) (p : Program) (i : Nat)
    (s : RwSetTxSimulator) :
    (p.exec P ns orders i s).sim.pubRwBuilderMap ns' = s.pubRwBuilderMap ns' := by
  induction p generalizing i s with
  | exit e => rfl
  | request r next ih =>
    refine (ih _ (i + 1) _).trans ?_
    apply builder_step_of_ne
    rwa [Request.ns_call]

lemma dag_exec (p : Program) (i : Nat) (s : RwSetTxSimulator) :
    (p.exec P ns orders i s).sim.dag = s.dag := by
  induction p generalizing i s with
  | exit e => rfl
  | request r next ih => exact (ih _ (i + 1) _).trans (dag_step P ..)

/-- The cache has the last writes of an execution. -/
lemma writeCache_exec (p : Program) (i : Nat) (s : RwSetTxSimulator) (key : Bytes) :
    (p.exec P ns orders i s).sim.writeCache key =
      ((lastWrite ((p.exec P ns orders i s).trace.map Prod.fst) key).map Prod.snd).or
        (s.writeCache key) := by
  induction p generalizing i s with
  | exit e => rfl
  | request r next ih =>
    simp only [exec, map_cons]
    rw [ih, writeCache_step, lastWrite_cons, map_or, Option.or_assoc]

/-- An execution without calls leaves the simulator as it was. -/
lemma sim_exec_of_nil {p : Program} {i : Nat} {s : RwSetTxSimulator}
    (h : (p.exec P ns orders i s).trace = []) : (p.exec P ns orders i s).sim = s := by
  cases p with
  | exit e => rfl
  | request r next => cases h

end Program

open Program

/-- On a namespace that has not been used, a result holds what the invocation itself did. -/
lemma ownResult_of_exec {P : Primitives} {inv : Invocation} {s : RwSetTxSimulator}
    (hnew : s.pubRwBuilderMap inv.name = newNsPubRwBuilder) {r : ContractInvokeResult}
    (h : (inv.program.exec P inv.name inv.orders 0 s).result inv = some r) :
    OwnResult P ((inv.program.exec P inv.name inv.orders 0 s).trace.map Prod.fst) r := by
  have hrec := records_exec P inv.name inv.orders inv.program 0 s
  rw [hnew] at hrec
  generalize inv.program.exec P inv.name inv.orders 0 s = x at h hrec
  obtain ⟨payload, rfl⟩ : ∃ payload, r = rwTxResult2DagInvokeUnit x.sim inv payload := by
    unfold Execution.result at h
    split at h
    · cases h
    · cases h
    next status payload _ =>
      obtain ⟨-, heq⟩ := ite_none_left_eq_some.1 h
      exact ⟨payload, (some.inj heq).symm⟩
  have hlookup : ∀ key, (x.sim.pubRwBuilderMap inv.name).writeMap.lookup key =
      (lastWrite (x.trace.map Prod.fst) key).map fun w => newKVWrite w.1 key w.2 := by
    intro key
    rw [hrec.writeMap]
    exact or_none
  constructor
  · intro w
    show w ∈ (convertMap2Slice
      (x.sim.pubRwBuilderMap inv.name).writeMap).map KVWrite.toContractWriteSet ↔ _
    simp only [List.mem_map, mem_convertMap2Slice, hlookup, map_eq_some_iff, Prod.exists]
    constructor
    · rintro ⟨kv, ⟨key, id, value, hlast, rfl⟩, rfl⟩
      exact ⟨id, value, hlast, rfl⟩
    · rintro ⟨id, value, hlast, hw⟩
      exact ⟨_, ⟨w.key, id, value, hlast, rfl⟩, hw.symm⟩
  · show ((convertMap2Slice
      (x.sim.pubRwBuilderMap inv.name).writeMap).map KVWrite.toContractWriteSet |>.map
        ContractWriteSet.key).Nodup
    rw [List.map_map]
    apply nodup_convertMap2Slice
    intro key kv hkv
    rw [hlookup] at hkv
    obtain ⟨w, -, rfl⟩ := map_eq_some_iff.1 hkv
    rfl
  · exact hrec.tokenPayOut
  · exact hrec.tokenSupply
  · exact hrec.tokenDefine.trans or_none

/-! ### Simulators that look alike -/

/-- Two simulators are alike but for some namespaces and some keys of the cache. -/
structure Alike (N K : Bytes → Prop) (s s' : RwSetTxSimulator) : Prop where
  dag : s'.dag = s.dag
  builders : ∀ ns, ¬ N ns → s'.pubRwBuilderMap ns = s.pubRwBuilderMap ns
  cache : ∀ key, ¬ K key → s'.writeCache key = s.writeCache key

/-- The call reads the state at the key. -/
def Call.Reads (key : Bytes) (c : Call) : Prop :=
  ∃ id ns, c = .getState id ns key

namespace Alike

variable {P : Primitives} {N K : Bytes → Prop} {s s' : RwSetTxSimulator}

lemma record (h : Alike N K s s') (ns : Bytes) (f : NsPubRwBuilder → NsPubRwBuilder)
    (hns : ¬ N ns) : Alike N K (s.record ns f) (s'.record ns f) where
  dag := h.dag
  builders ns' hns' := by
    simp only [RwSetTxSimulator.record, h.builders ns hns]
    by_cases heq : ns' = ns
    · subst heq
      simp
    · rw [update_of_ne heq, update_of_ne heq, h.builders ns' hns']
  cache := h.cache

lemma setState (h : Alike N K s s') (id ns key : Bytes) (value : Option Bytes) (hns : ¬ N ns) :
    Alike N K (s.setState id ns key value) (s'.setState id ns key value) where
  dag := h.dag
  builders := (h.record ns (.addToWriteSet id key value) hns).builders
  cache key' hkey' := by
    simp only [RwSetTxSimulator.setState]
    by_cases heq : key' = key
    · subst heq
      simp
    · rw [update_of_ne heq, update_of_ne heq, h.cache key' hkey']

/-- A call in a namespace that is alike, of a key that is alike, has the same reply. -/
lemma step (h : Alike N K s s') (o : MapOrder) {c : Call} (hns : ¬ N c.ns)
    (hkey : ∀ key, c.Reads key → ¬ K key) :
    (s'.step P o c).1 = (s.step P o c).1 ∧ Alike N K (s.step P o c).2 (s'.step P o c).2 := by
  cases c with
  | getState id ns key =>
    simp only [RwSetTxSimulator.step, RwSetTxSimulator.getState, h.dag,
      h.cache key (hkey key ⟨id, ns, rfl⟩)]
    split
    · exact ⟨rfl, h.record ns _ hns⟩
    split
    · exact ⟨rfl, h⟩
    · exact ⟨rfl, h.record ns _ hns⟩
  | getStatesByPrefix id ns start =>
    simp only [RwSetTxSimulator.step, RwSetTxSimulator.getStatesByPrefix, h.dag]
    split
    · exact ⟨rfl, h⟩
    refine ⟨rfl, ?_⟩
    dsimp only
    exact h.record ns _ hns
  | setState id ns key value => exact ⟨rfl, h.setState id ns key value hns⟩
  | deleteState id ns key => exact ⟨rfl, h.setState id ns key none hns⟩
  | _ => exact ⟨rfl, h.record _ _ hns⟩

/-- A contract that does not read where they differ runs alike on both. -/
lemma exec (h : Alike N K s s') {ns : Bytes} (hns : ¬ N ns) (orders : Nat → MapOrder)
    {p : Program} {i : Nat}
    (hreads : ∀ c ∈ (p.exec P ns orders i s').trace.map Prod.fst, ∀ key, c.Reads key → ¬ K key) :
    (p.exec P ns orders i s').exit = (p.exec P ns orders i s).exit ∧
      (p.exec P ns orders i s').trace = (p.exec P ns orders i s).trace ∧
      Alike N K (p.exec P ns orders i s).sim (p.exec P ns orders i s').sim := by
  induction p generalizing i s s' with
  | exit e => exact ⟨rfl, rfl, h⟩
  | request r next ih =>
    have hfirst : ∀ key, (r.call ns).Reads key → ¬ K key :=
      hreads (r.call ns) mem_cons_self
    obtain ⟨hreply, hsim⟩ := h.step (P := P) (orders i) (by rwa [Request.ns_call]) hfirst
    simp only [exec] at hreads ⊢
    rw [hreply] at hreads ⊢
    obtain ⟨hexit, htrace, hrest⟩ := ih _ hsim fun c hc => hreads c (mem_cons_of_mem _ hc)
    exact ⟨hexit, by rw [htrace], hrest⟩

/-- The results are the same, too. -/
lemma result {x x' : Execution} {inv : Invocation} (hexit : x'.exit = x.exit)
    (h : Alike N K x.sim x'.sim) (hns : ¬ N inv.name) : x'.result inv = x.result inv := by
  simp [Execution.result, hexit, rwTxResult2DagInvokeUnit, getRwData, h.builders inv.name hns]

end Alike

/-! ### Isolation -/

/-- What one outcome has to do with a later one, for invocations to be isolated: an invocation of
the same contract made no calls, and a failed one did not write a key that is read later. -/
def Apart (o o' : Outcome) : Prop :=
  (o.name = o'.name → o.trace = []) ∧
    (o.result = none → ∀ key, (lastWrite (o.trace.map Prod.fst) key).isSome →
      ∀ c ∈ o'.trace.map Prod.fst, ¬ c.Reads key)

namespace RwSetTxMgr

variable (hexToHash : Bytes → Hash) (P : Primitives) (idag : Db) (chainID : Bytes)

/-- The simulator of the chain; `hash` is used if it has to be made. -/
def current (hash : Hash) (m : RwSetTxMgr) : RwSetTxSimulator :=
  (m.baseTxSim chainID).getD (.newBasedTxSimulator idag hash)

/-- The execution of an invocation. -/
def execution (inv : Invocation) (m : RwSetTxMgr) : Execution :=
  inv.program.exec P inv.name inv.orders 0 (m.current idag chainID (hexToHash inv.txid))

lemma processProposal_eq (inv : Invocation) (m : RwSetTxMgr) :
    m.processProposal hexToHash P idag chainID inv =
      (⟨inv.name, (m.execution hexToHash P idag chainID inv).trace,
        (m.execution hexToHash P idag chainID inv).result inv⟩,
        m.keep chainID (m.execution hexToHash P idag chainID inv).sim) := by
  simp only [processProposal, getTxSimulator, newTxSimulator, execution, current, if_true]
  cases m.baseTxSim chainID with
  | some ts => rfl
  | none => simp [keep]

@[simp] lemma current_keep (hash : Hash) (m : RwSetTxMgr) (s : RwSetTxSimulator) :
    (m.keep chainID s).current idag chainID hash = s := by
  simp [current, keep]

/-- The outcomes of invocations. -/
def outcomes (invs : List Invocation) (m : RwSetTxMgr) : List Outcome :=
  (m.invokeAll hexToHash P idag chainID invs).1

/-- The manager after invocations. -/
def afterwards (invs : List Invocation) (m : RwSetTxMgr) : RwSetTxMgr :=
  (m.invokeAll hexToHash P idag chainID invs).2

lemma outcomes_cons (inv : Invocation) (invs : List Invocation) (m : RwSetTxMgr) :
    m.outcomes hexToHash P idag chainID (inv :: invs) =
      (m.processProposal hexToHash P idag chainID inv).1 ::
        (m.processProposal hexToHash P idag chainID inv).2.outcomes hexToHash P idag chainID
          invs := rfl

lemma afterwards_cons (inv : Invocation) (invs : List Invocation) (m : RwSetTxMgr) :
    m.afterwards hexToHash P idag chainID (inv :: invs) =
      (m.processProposal hexToHash P idag chainID inv).2.afterwards hexToHash P idag chainID
        invs := rfl

lemma outcomes_append (invs invs' : List Invocation) (m : RwSetTxMgr) :
    m.outcomes hexToHash P idag chainID (invs ++ invs') =
      m.outcomes hexToHash P idag chainID invs ++
        (m.afterwards hexToHash P idag chainID invs).outcomes hexToHash P idag chainID invs' := by
  induction invs generalizing m with
  | nil => rfl
  | cons inv invs ih => rw [cons_append, outcomes_cons, outcomes_cons, ih, afterwards_cons,
      cons_append]

/-- Every result is that of the invocation itself, and a failed invocation does not change what
comes of the later ones. -/
structure Isolated (invs : List Invocation) (m : RwSetTxMgr) : Prop where
  own : ∀ o ∈ m.outcomes hexToHash P idag chainID invs, ∀ r, o.result = some r →
    OwnResult P (o.trace.map Prod.fst) r
  failed : ∀ before inv later, invs = before ++ inv :: later →
    let m' := m.afterwards hexToHash P idag chainID before
    (m'.processProposal hexToHash P idag chainID inv).1.result = none →
      (m'.processProposal hexToHash P idag chainID inv).2.outcomes hexToHash P idag chainID later =
        m'.outcomes hexToHash P idag chainID later

variable {hexToHash P idag chainID}

lemma own_of_apart {invs : List Invocation} {m : RwSetTxMgr}
    (hapart : (m.outcomes hexToHash P idag chainID invs).Pairwise Apart)
    (hnew : ∀ o ∈ m.outcomes hexToHash P idag chainID invs, ∀ hash,
      (m.current idag chainID hash).pubRwBuilderMap o.name = newNsPubRwBuilder) :
    ∀ o ∈ m.outcomes hexToHash P idag chainID invs, ∀ r, o.result = some r →
      OwnResult P (o.trace.map Prod.fst) r := by
  induction invs generalizing m with
  | nil =>
    intro o ho
    cases ho
  | cons inv invs ih =>
    rw [outcomes_cons, processProposal_eq] at hapart hnew ⊢
    rw [pairwise_cons] at hapart
    rw [forall_mem_cons] at hnew ⊢
    constructor
    · intro r hr
      exact ownResult_of_exec (hnew.1 _) hr
    apply ih hapart.2
    intro o ho hash
    rw [current_keep]
    -- either the namespace is another one, or nothing was called
    by_cases hname : o.name = inv.name
    · have hsim := sim_exec_of_nil P inv.name inv.orders
        ((hapart.1 o ho).1 hname.symm)
      rw [execution, hsim]
      exact hnew.2 o ho _
    · rw [execution, builder_exec_of_ne P inv.name inv.orders hname]
      exact hnew.2 o ho _

/-- Managers whose simulators are alike where later invocations look have the same outcomes. -/
lemma outcomes_of_alike {N K : Bytes → Prop} {later : List Invocation} {m m' : RwSetTxMgr}
    (h : ∀ hash hash', Alike N K (m.current idag chainID hash) (m'.current idag chainID hash'))
    (hother : ∀ o ∈ m'.outcomes hexToHash P idag chainID later, ¬ N o.name ∧
      ∀ c ∈ o.trace.map Prod.fst, ∀ key, c.Reads key → ¬ K key) :
    m'.outcomes hexToHash P idag chainID later = m.outcomes hexToHash P idag chainID later := by
  induction later generalizing m m' with
  | nil => rfl
  | cons inv later ih =>
    rw [outcomes_cons, processProposal_eq, forall_mem_cons] at hother
    obtain ⟨⟨hname, hreads⟩, hother⟩ := hother
    obtain ⟨hexit, htrace, hsim⟩ := (h (hexToHash inv.txid) (hexToHash inv.txid)).exec hname
      inv.orders hreads
    have hresult : (m'.execution hexToHash P idag chainID inv).result inv =
        (m.execution hexToHash P idag chainID inv).result inv := hsim.result hexit hname
    have htrace' : (m'.execution hexToHash P idag chainID inv).trace =
        (m.execution hexToHash P idag chainID inv).trace := htrace
    rw [outcomes_cons, outcomes_cons, processProposal_eq, processProposal_eq, hresult, htrace']
    congr 1
    apply ih _ hother
    intro hash hash'
    rw [current_keep, current_keep]
    exact hsim

/-- An execution changes what its calls say: the contract's namespace and the keys written. -/
lemma alike_execution (m : RwSetTxMgr) (inv : Invocation) (hash : Hash) :
    Alike (fun ns => ns = inv.name ∧ (m.execution hexToHash P idag chainID inv).trace ≠ [])
      (fun key => (lastWrite ((m.execution hexToHash P idag chainID inv).trace.map Prod.fst)
        key).isSome)
      (m.current idag chainID hash) (m.execution hexToHash P idag chainID inv).sim := by
  have hcurrent : Alike (fun _ => False) (fun _ => False) (m.current idag chainID hash)
      (m.current idag chainID (hexToHash inv.txid)) := by
    -- a simulator that has to be made is the same, whatever the transaction
    unfold current
    cases m.baseTxSim chainID with
    | some | none => exact ⟨rfl, fun _ _ => rfl, fun _ _ => rfl⟩
  unfold execution
  refine ⟨(dag_exec ..).trans hcurrent.dag, fun ns hns => ?_, fun key hkey => ?_⟩
  · rw [← hcurrent.builders ns not_false]
    by_cases hname : ns = inv.name
    · rw [sim_exec_of_nil P inv.name inv.orders (not_not.1 fun hne => hns ⟨hname, hne⟩)]
    · rw [builder_exec_of_ne P inv.name inv.orders hname]
  · rw [← hcurrent.cache key not_false, writeCache_exec, not_isSome_iff_eq_none.1 hkey]
    rfl

lemma failed_of_apart {invs before later : List Invocation} {inv : Invocation} {m : RwSetTxMgr}
    (hapart : (m.outcomes hexToHash P idag chainID invs).Pairwise Apart)
    (hinvs : invs = before ++ inv :: later)
    (hfailed : ((m.afterwards hexToHash P idag chainID before).processProposal hexToHash P idag
      chainID inv).1.result = none) :
    ((m.afterwards hexToHash P idag chainID before).processProposal hexToHash P idag chainID
        inv).2.outcomes hexToHash P idag chainID later =
      (m.afterwards hexToHash P idag chainID before).outcomes hexToHash P idag chainID later := by
  rw [hinvs, outcomes_append, outcomes_cons, pairwise_append, pairwise_cons] at hapart
  have hlater := hapart.2.1.1
  generalize m.afterwards hexToHash P idag chainID before = m' at hfailed hlater ⊢
  apply outcomes_of_alike
  · intro hash hash'
    rw [processProposal_eq, current_keep]
    exact m'.alike_execution inv hash
  intro o ho
  have ho' := hlater o ho
  rw [processProposal_eq] at ho' hfailed
  constructor
  · rintro ⟨hname, hne⟩
    exact hne (ho'.1 hname.symm)
  · intro c hc key hreads hwritten
    exact ho'.2 hfailed key hwritten c hc hreads

/-- Invocations with the simulator made for the first of them are isolated, if of any two the
earlier one is of another contract or made no calls, and, if it failed, wrote no key that the later
one reads. -/
theorem isolated {invs : List Invocation} {m : RwSetTxMgr} (hm : m.baseTxSim chainID = none)
    (hapart : (m.outcomes hexToHash P idag chainID invs).Pairwise Apart) :
    m.Isolated hexToHash P idag chainID invs where
  own := by
    apply own_of_apart hapart
    intro o _ hash
    rw [current, hm]
    rfl
  failed _ _ _ hinvs hfailed := failed_of_apart hapart hinvs hfailed

end RwSetTxMgr

/-! ### Two invocations of one contract -/

namespace Repeated

open SmallNode

/-- An invocation of the contract of the given name, in the order of map entries. -/
def invocation (name : UInt8) (program : Program) : Invocation :=
  ⟨[name], [name], [], [], program, fun _ => .plain⟩

def ok : Program := .exit (.response 200 [])

def fail : Program := .exit (.response 500 [])

/-- Writes a key and pays out. -/
def pay : Program :=
  .request (.putState [1] [7] (some [5])) fun _ =>
    .request (.payOutToken [] newPTNAsset 3 0) fun _ => ok

/-- Writes a key and fails. -/
def writeAndFail : Program :=
  .request (.putState [1] [7] (some [5])) fun _ => fail

/-- Reads the key. -/
def read : Program :=
  .request (.getState [2] [7]) fun _ => ok

/-- The outcomes of some invocations with a new simulator. -/
def outcomes (invs : List Invocation) : List Outcome :=
  (RwSetTxMgr.mk fun _ => none).outcomes (digest 32) primitives Db.empty [1] invs

end Repeated

open Repeated SmallNode in
/-- The second invocation of a contract has the payout of the first in its result, and what a failed
invocation wrote is read by another contract. -/
theorem Repeated.not_isolated :
    ¬ (RwSetTxMgr.mk fun _ => none).Isolated (digest 32) primitives Db.empty [1]
        [invocation 10 pay, invocation 10 ok] ∧
      ¬ (RwSetTxMgr.mk fun _ => none).Isolated (digest 32) primitives Db.empty [1]
        [invocation 10 writeAndFail, invocation 20 read] := by
  constructor
  · intro h
    have hown : ∀ o ∈ outcomes [invocation 10 pay, invocation 10 ok], o.result.all fun r =>
        r.tokenPayOut = (o.trace.map Prod.fst).filterMap (Call.payOut? primitives) := by
      intro o ho
      rw [Option.all_eq_true]
      intro r hr
      exact decide_eq_true (h.own o ho r hr).payOuts
    exact absurd hown (by decide +kernel)
  intro h
  have hfailed := h.failed [] (invocation 10 writeAndFail) [invocation 20 read] rfl rfl
  have htrace := congrArg (List.map Outcome.trace) hfailed
  exact absurd htrace (by decide +kernel)

open Repeated SmallNode in
/-- A failed invocation and one of another contract, which does not read. -/
theorem Repeated.of_two_contracts :
    (RwSetTxMgr.mk fun _ => none).Isolated (digest 32) primitives Db.empty [1]
      [invocation 10 writeAndFail, invocation 20 pay] := by
  apply RwSetTxMgr.isolated rfl
  show (outcomes [invocation 10 writeAndFail, invocation 20 pay]).Pairwise Apart
  apply pairwise_pair.2
  constructor
  · intro hname
    exact absurd hname (by decide)
  rintro - key - c hc ⟨id, ns, rfl⟩
  have hcalls : Call.getState id ns key ∈
      [Call.setState [1] [20] [7] (some [5]), .payOutToken [20] [] newPTNAsset 3 0] := hc
  simp at hcalls

end ZwsChain.RwSet
