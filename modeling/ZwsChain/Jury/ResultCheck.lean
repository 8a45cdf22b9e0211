import ZwsChain.Jury.Processor
import ZwsChain.Validator.Accepted

/-!
# What the check of a system contract's result compares

Validation on a mediator's node runs a system contract again and compares. The results here say
how much of a received result that comparison covers.

* `Transaction.received`, `Processor.rerun`: the result a transaction carries and the result of
  running its request, in the form a jury signs (no signature messages, no unlocking scripts).
* `eq_iff_hideLastInvoke`: two results are equal iff they agree outside the last invoke result
  and have the same last invoke result. The check compares the second half only.
* `ComparedWithRun`: when the check compares with the node's own run of the request at all.
* `results_equal_iff`: for an accepted transaction, the exact condition under which its result is
  that of the run.
* `Mint`: a transaction whose result has a minting payment that the run does not have.
-/

open List Option

namespace ZwsChain

open Transaction Message Lib.Rlp SmallNode
open TxScript (SigState)
open Lib.Rlp (encode)

/-! ### Lists with a last invoke result -/

namespace Processor

/-- An invoke result without content. -/
def blankInvoke : Message :=
  .contractInvoke ⟨[], [], [], [], [], ⟨0, []⟩⟩

/-- Blanks the first invoke result. -/
def hideFirstInvoke : List Message → List Message
  | [] => []
  | m :: ms => if m.invokePayload.isSome then blankInvoke :: ms else m :: hideFirstInvoke ms

/-- Blanks the last invoke result. -/
def hideLastInvoke (msgs : List Message) : List Message :=
  (hideFirstInvoke msgs.reverse).reverse

variable {p : ContractInvokePayload} {l l' : List Message}

lemma eq_of_invokePayload {m m' : Message} (h : m.invokePayload = some p)
    (h' : m'.invokePayload = some p) : m = m' := by
  cases m <;> cases m' <;> simp_all [invokePayload]

lemma eq_iff_hideFirstInvoke :
    l = l' ↔ hideFirstInvoke l = hideFirstInvoke l' ∧
      l.findSome? invokePayload = l'.findSome? invokePayload := by
  refine ⟨fun h => h ▸ ⟨rfl, rfl⟩, ?_⟩
  rintro ⟨hhide, hfirst⟩
  induction l generalizing l' with
  | nil =>
    cases l' with
    | nil => rfl
    | cons m' ms' => unfold hideFirstInvoke at hhide; split at hhide <;> cases hhide
  | cons m ms ih =>
    cases l' with
    | nil => unfold hideFirstInvoke at hhide; split at hhide <;> cases hhide
    | cons m' ms' =>
      simp only [hideFirstInvoke, findSome?_cons] at hhide hfirst
      rcases hm : m.invokePayload with _ | p
      · rcases hm' : m'.invokePayload with _ | p'
        · simp only [hm, hm', isSome_none, Bool.false_eq_true, if_false,
            List.cons.injEq] at hhide hfirst
          rw [hhide.1, ih hhide.2 hfirst]
        -- a blanked message is an invoke result, the other head is none
        simp only [hm, hm', isSome_none, isSome_some, Bool.false_eq_true,
          if_false, if_true, List.cons.injEq] at hhide
        rw [hhide.1] at hm
        cases hm
      rcases hm' : m'.invokePayload with _ | p'
      · simp only [hm, hm', isSome_none, isSome_some, Bool.false_eq_true,
          if_false, if_true, List.cons.injEq] at hhide
        rw [← hhide.1] at hm'
        cases hm'
      simp only [hm, hm', isSome_some, if_true, List.cons.injEq, true_and,
        some.injEq] at hhide hfirst
      rw [hhide, eq_of_invokePayload hm (hfirst ▸ hm')]

lemma lastInvoke_eq_findSome? (l : List Message) :
    lastInvoke l = l.reverse.findSome? invokePayload := by
  rw [lastInvoke, getLast?_eq_head?_reverse, ← filterMap_reverse, head?_filterMap]

/-- Two lists are equal iff they agree outside the last invoke result and have the same one. -/
lemma eq_iff_hideLastInvoke :
    l = l' ↔ hideLastInvoke l = hideLastInvoke l' ∧ lastInvoke l = lastInvoke l' := by
  rw [lastInvoke_eq_findSome?, lastInvoke_eq_findSome?, hideLastInvoke, hideLastInvoke,
    reverse_inj, ← eq_iff_hideFirstInvoke, reverse_inj]

lemma isSome_findSome?_hideFirstInvoke (l : List Message) :
    ((hideFirstInvoke l).findSome? invokePayload).isSome = (l.findSome? invokePayload).isSome := by
  induction l with
  | nil => rfl
  | cons m ms ih =>
    rw [hideFirstInvoke]
    split
    · next hm =>
        obtain ⟨p, hp⟩ := isSome_iff_exists.1 hm
        rw [findSome?_cons, findSome?_cons, hp]
        rfl
    next hm =>
      have hnone : m.invokePayload = none := by simpa using hm
      simpa [findSome?_cons, hnone] using ih

/-- Lists that agree outside the last invoke result both have one or both have none. -/
lemma isSome_lastInvoke_of_hideLastInvoke (h : hideLastInvoke l = hideLastInvoke l') :
    (lastInvoke l).isSome = (lastInvoke l').isSome := by
  have hhide := reverse_inj.1 h
  rw [lastInvoke_eq_findSome?, lastInvoke_eq_findSome?, ← isSome_findSome?_hideFirstInvoke, hhide,
    isSome_findSome?_hideFirstInvoke]

lemma lastInvoke_append (a b : List Message) :
    lastInvoke (a ++ b) = (lastInvoke b).or (lastInvoke a) := by
  simp [lastInvoke, getLast?_append]

lemma mem_of_lastInvoke (h : lastInvoke l = some p) : .contractInvoke p ∈ l := by
  obtain ⟨m, hm, hp⟩ := mem_filterMap.1 (mem_of_getLast? h)
  cases m with
  | contractInvoke q => rwa [some.inj hp] at hm
  | _ => cases hp

end Processor

/-! ### Results -/

namespace Transaction

/-- The messages behind the first request. -/
def afterRequest : List Message → List Message
  | [] => []
  | m :: ms => if m.isRequest then ms else afterRequest ms

lemma upToRequest_append_afterRequest (msgs : List Message) :
    upToRequest msgs ++ afterRequest msgs = msgs := by
  induction msgs with
  | nil => rfl
  | cons m ms ih =>
    rw [upToRequest, afterRequest]
    split
    · rfl
    · rw [cons_append, ih]

lemma filterMap_invokePayload_resultMessages (b : Bool) (l : List Message) :
    (resultMessages b l).filterMap invokePayload = l.filterMap invokePayload := by
  induction l generalizing b with
  | nil => rfl
  | cons m ms ih =>
    cases m with
    | payment p =>
      rw [resultMessages]
      split <;> simp [filterMap_cons, invokePayload, ih]
    | _ => simp [resultMessages, filterMap_cons, invokePayload, ih]

/-- What the form a jury signs leaves out does not concern invoke results. -/
lemma lastInvoke_resultMessages (b : Bool) (l : List Message) :
    Processor.lastInvoke (resultMessages b l) = Processor.lastInvoke l := by
  rw [Processor.lastInvoke, filterMap_invokePayload_resultMessages, Processor.lastInvoke]

/-- The result a transaction carries: the messages behind the request, in the form a jury signs. -/
def received (tx : Transaction) : Option (List Message) :=
  tx.txMessages.map fun msgs => resultMessages true (afterRequest msgs)

end Transaction

namespace Processor

/-- The messages that running the request of a transaction returns. -/
def rerun (Q : Processor) (tx : Transaction) : Option (List Message) := do
  let reqTx ← tx.getRequestTx
  match ← Q.runContractCmd reqTx none with
  | .error _ => none
  | .ok run => some run

/-- Copies of the messages of a run, in the form a jury signs. -/
def resultOf (run : List Message) : Option (List Message) :=
  (run.mapM copyMessage).map (resultMessages true)

/-- The result a transaction carries is that of running its request. -/
def ResultsEqual (Q : Processor) (tx : Transaction) : Prop :=
  ∃ run result, Q.rerun tx = some run ∧ resultOf run = some result ∧ tx.received = some result

instance (Q : Processor) (tx : Transaction) : Decidable (ResultsEqual Q tx) :=
  decidable_of_iff (((Q.rerun tx).bind resultOf).isSome ∧ (Q.rerun tx).bind resultOf = tx.received)
    <| by
      constructor
      · rintro ⟨hsome, heq⟩
        obtain ⟨result, hresult⟩ := isSome_iff_exists.1 hsome
        obtain ⟨run, hrun, hof⟩ := do_eq_some.1 hresult
        exact ⟨run, result, hrun, hof, heq ▸ hresult⟩
      rintro ⟨run, result, hrun, hof, hreceived⟩
      rw [hreceived, hrun, bind_some, hof]
      exact ⟨rfl, rfl⟩

/-- When the check compares the result with the node's own run of the request. -/
structure ComparedWithRun (Q : Processor) (tx : Transaction) (run : List Message) : Prop where
  system : tx.isSystemContract = true
  invokes : getContractTxType tx = some 102
  result : ∃ msgs, tx.txMessages = some msgs ∧ (lastInvoke msgs).isSome = true
  notCached : ∃ reqId, tx.requestHash Q.V.P = some reqId ∧ Q.mtx reqId = none
  /-- The check runs the whole transaction; this gives what running the request gives. -/
  wholeTx : Q.runContractCmd tx none = some (.ok run)
  feeEnough : ∃ reqTx tmp, tx.getRequestTx = some reqTx ∧
    genContractTransction reqTx run = some (.ok tmp) ∧ Q.feeEnough tmp = some true

end Processor

/-! ### The wire form of an invoke result in a transaction -/

lemma readItem_copy_length_le (r : ContractReadSet) :
    (encode (readItem { r with version := some (r.version.getD ⟨none, 0⟩) })).length ≤
      11 * (encode (readItem r)).length := by
  rcases r with ⟨key, _ | v, contractId⟩
  · -- a missing version is one byte on the wire, an empty one is two
    refine le_trans (encode_list_length_le _) ?_
    have hbody := encodeList_length_le [.str key, versionItem none, .str contractId]
    have hnone : (encode (versionItem none)).length = 1 := rfl
    have hempty : (encode (versionItem (some ⟨none, 0⟩))).length = 2 := by decide
    simp only [encodeList_cons, encodeList_nil, length_append,
      length_nil, getD_none, hnone, hempty, readItem] at hbody ⊢
    omega
  · simp only [getD_some]
    omega

/-- Copying an invoke result makes its wire form longer by a bounded factor at most. -/
lemma invokeItem_copy_length_le (p : ContractInvokePayload) :
    (encode (invokeItem { p with readSet := copyInvokeReadSet p.readSet })).length ≤
      11 * (encode (invokeItem p)).length + 18 := by
  refine le_trans (encode_list_length_le _) ?_
  have hreads := encodeList_map_length_le readItem_copy_length_le p.readSet
  have hcopy := encode_list_length_le ((copyInvokeReadSet p.readSet).map readItem)
  have hlist := encodeList_length_le (p.readSet.map readItem)
  have hbody := encodeList_length_le [.str p.contractId, argsItem p.args,
    .list (p.readSet.map readItem), .list (p.writeSet.map writeItem),
    .str p.payload, errItem p.errMsg]
  simp only [encodeList_cons, encodeList_nil, length_append,
    length_nil, invokeItem, copyInvokeReadSet, List.map_map, Function.comp_def]
    at hbody hcopy hreads ⊢
  omega

namespace Transaction

variable {n : Nat} {tx : Transaction}

/-- A payload is not longer than the transaction it is in. -/
lemma encode_length_le_size (hsize : tx.size = some n) {m : Message} (hm : m ∈ tx.messages)
    {d : Lib.Rlp.Item} (hd : m.rlpItem = some d) : (encode d).length ≤ n := by
  simp only [size, encodeRLP, rlpItem, map_eq_some_iff, do_eq_some, some.injEq] at hsize
  obtain ⟨b, ⟨item, ⟨msgs, hmsgs, rfl⟩, rfl⟩, rfl⟩ := hsize
  obtain ⟨i, hi⟩ := mem_iff_getElem?.1 hm
  have hget := Lib.getElem?_of_forall₂ (Lib.forall₂_of_mapM hmsgs) i
  simp only [hi, bind_some, messageTemp, hd, do_some] at hget
  calc (encode d).length
      ≤ (encode (.list [natItem m.app.toNat, .str (encode d)])).length :=
        length_le_encode_of_str_mem (by simp)
    _ ≤ (encode (.list msgs)).length :=
        encode_length_le_of_mem (mem_of_getElem? hget)
    _ ≤ _ := encode_length_le_of_mem (by simp)

/-- An invoke result of a transaction within the size limit is determined by its wire form. -/
lemma eq_of_encode_invokeItem (hsize : tx.size = some n) (hn : n ≤ 256 * 1024)
    {msgs : List Message} (hmsgs : tx.txMessages = some msgs) {a b : ContractInvokePayload}
    (ha : .contractInvoke a ∈ msgs)
    (hab : encode (invokeItem a) = encode (invokeItem b)) : a = b := by
  obtain ⟨m, hm, hcopy⟩ := exists_of_mem_txMessages hmsgs ha
  have hbound : (encode (invokeItem a)).length < 2 ^ 64 := by
    rcases copyMessage_eq_some hcopy with rfl | ⟨p, rfl, hp⟩
    · have := encode_length_le_size hsize hm rfl
      omega
    have := encode_length_le_size hsize hm rfl
    have hgrow := invokeItem_copy_length_le p
    obtain rfl := contractInvoke.inj hp
    omega
  exact invokeItem_injective (encode_injective hbound hab)

end Transaction

/-! ### What the check has compared -/

namespace Processor

variable {Q : Processor} {tx : Transaction}

lemma filterMap_invokePayload_set {l l₀ l₁ : List Message} {i : Nat} {p p' : ContractDeployPayload}
    (h₀ : l.mapM copyMessage = some l₀) (hi : l₀[i]? = some (.contractDeploy p))
    (h₁ : (l.set i (.contractDeploy p')).mapM copyMessage = some l₁) :
    l₁.filterMap invokePayload = l₀.filterMap invokePayload := by
  induction l generalizing l₀ l₁ i with
  | nil =>
    obtain rfl : l₀ = [] := by simpa using h₀.symm
    cases hi
  | cons m ms ih =>
    simp only [mapM_cons, do_eq_some, Option.pure_def, some.injEq] at h₀
    obtain ⟨m₀, hm₀, ms₀, hms₀, rfl⟩ := h₀
    cases i with
    | zero =>
      simp only [set_cons_zero, mapM_cons, hms₀, do_eq_some, Option.pure_def, some.injEq] at h₁
      obtain ⟨m₁, hm₁, _, rfl, rfl⟩ := h₁
      obtain rfl : m₀ = .contractDeploy p := by simpa using hi
      rw [copyMessage_of_ne hm₁ nofun]
      rfl
    | succ i =>
      simp only [set_cons_succ, mapM_cons, hm₀, do_eq_some, Option.pure_def, some.injEq] at h₁
      obtain ⟨_, rfl, ms₁, hms₁, rfl⟩ := h₁
      rw [filterMap_cons, filterMap_cons, ih hms₀ (by simpa using hi) hms₁]

variable {msgs run : List Message} {tmp : Transaction}

/-- Writing the paid time into a deploy result does not concern invoke results. -/
lemma lastInvoke_addContractDeployDuringTime {tmp' : Transaction} {msgs' : List Message}
    (h : Q.addContractDeployDuringTime tmp = some tmp') (hmsgs : tmp.txMessages = some msgs)
    (hmsgs' : tmp'.txMessages = some msgs') : lastInvoke msgs' = lastInvoke msgs := by
  have hsame : tmp' = tmp → lastInvoke msgs' = lastInvoke msgs := by
    rintro rfl
    rw [some.inj (hmsgs'.symm.trans hmsgs)]
  unfold addContractDeployDuringTime at h
  split at h
  · exact hsame (some.inj h).symm
  split at h
  · exact hsame (some.inj h).symm
  simp only [hmsgs, do_some, do_eq_some] at h
  obtain ⟨i, -, h⟩ := h
  split at h
  · next hi =>
      obtain rfl := some.inj h
      rw [lastInvoke, filterMap_invokePayload_set hmsgs hi hmsgs', lastInvoke]
  · cases h

/-- With a fee that is enough, the built transaction is the request with the run behind it, as
far as invoke results go. -/
lemma lastInvoke_genContractTransaction {reqTx built : Transaction}
    (htmp : genContractTransction reqTx run = some (.ok tmp)) (hfee : Q.feeEnough tmp = some true)
    (h : Q.genContractTransaction reqTx run = some (.ok built))
    (hmsgs : built.txMessages = some msgs) :
    ∃ reqMsgs runMsgs, run.mapM copyMessage = some runMsgs ∧
      lastInvoke msgs = lastInvoke (reqMsgs ++ runMsgs) := by
  unfold genContractTransaction at h
  split at h
  · cases h
  simp only [htmp, hfee, do_some, if_true, do_eq_some, some.injEq, Except.ok.injEq] at h
  obtain ⟨_, hadd, rfl⟩ := h
  obtain ⟨tmpMsgs, htmpMsgs, -⟩ := do_eq_some.1 hfee
  have hlast := lastInvoke_addContractDeployDuringTime hadd htmpMsgs hmsgs
  unfold genContractTransction at htmp
  split at htmp
  · cases htmp
  simp only [do_eq_some, some.injEq, Except.ok.injEq] at htmp
  obtain ⟨orgMsgs, -, rfl⟩ := htmp
  simp only [txMessages, mapM_append, do_eq_some, Option.pure_def, some.injEq] at htmpMsgs
  obtain ⟨reqMsgs, -, runMsgs, hrun, rfl⟩ := htmpMsgs
  exact ⟨reqMsgs, runMsgs, hrun, hlast⟩

section

variable (h : ComparedWithRun Q tx run) (hactive : Q.localHaveActiveMediator = true)
  (hcheck : (Q.contractTxCheckForValidator tx).map Prod.fst = some true)
include h hactive hcheck

/-- The check went to the end and compared the wire forms of two invoke results. -/
lemma ComparedWithRun.compare :
    ∃ msgs reqMsgs runMsgs, tx.txMessages = some msgs ∧ run.mapM copyMessage = some runMsgs ∧
      ∃ a b, lastInvoke (reqMsgs ++ runMsgs) = some a ∧ lastInvoke msgs = some b ∧
        encode (invokeItem a) = encode (invokeItem b) := by
  obtain ⟨⟨ok, mtx⟩, hc, hok⟩ := map_eq_some_iff.1 hcheck
  obtain ⟨msgs, hmsgs, hresult⟩ := h.result
  obtain ⟨reqId, hreqId, hcache⟩ := h.notCached
  obtain ⟨reqTx, tmp, hreqTx, htmp, hfee⟩ := h.feeEnough
  have hnone : (lastInvoke msgs).isNone = false := by simpa using hresult
  simp only [contractTxCheckForValidator, hreqId, do_some, h.system, hactive, Bool.not_true,
    Bool.false_eq_true, if_false] at hc
  split at hc
  · obtain rfl := (Prod.mk.inj (some.inj hc)).1
    cases hok
  obtain ⟨isExist, -, hc⟩ := do_eq_some.1 hc
  split at hc
  · obtain rfl := (Prod.mk.inj (some.inj hc)).1
    cases hok
  simp only [checkResult, h.invokes, hmsgs, hnone, hcache, compareWithRun, h.wholeTx, hreqTx,
    any_some, ne_eq, not_true_eq_false, decide_false, Bool.false_eq_true, if_false, do_some] at hc
  obtain ⟨gen, hgen, hc⟩ := do_eq_some.1 hc
  cases gen with
  | error e =>
    obtain rfl := (Prod.mk.inj (some.inj hc)).1
    cases hok
  | ok built =>
    obtain ⟨tmpMsgs, htmpMsgs, hc⟩ := do_eq_some.1 hc
    obtain ⟨reqMsgs, runMsgs, hrun, hlast⟩ :=
      lastInvoke_genContractTransaction htmp hfee hgen htmpMsgs
    refine ⟨msgs, reqMsgs, runMsgs, hmsgs, hrun, ?_⟩
    have hcompare := ((Prod.mk.inj (some.inj hc)).1).trans hok
    rw [← hlast]
    unfold msgsCompareInvoke at hcompare
    split at hcompare
    · next a b ha hb => exact ⟨a, b, ha, hb, by simpa using hcompare⟩
    · cases hcompare

/-- A comparison with the run leaves only the last invoke result settled: it is that of the run
if the results agree elsewhere. -/
lemma ComparedWithRun.lastInvoke_eq {result res : List Message} {n : Nat}
    (hsize : tx.size = some n) (hn : n ≤ 256 * 1024) (hrun : resultOf run = some result)
    (hres : tx.received = some res) (hhide : hideLastInvoke res = hideLastInvoke result) :
    lastInvoke res = lastInvoke result := by
  obtain ⟨msgs, reqMsgs, runMsgs, hmsgs, hrunMsgs, a, b, ha, hb, hab⟩ := h.compare hactive hcheck
  have hsome := isSome_lastInvoke_of_hideLastInvoke hhide
  simp only [resultOf, hrunMsgs, received, hmsgs, map_some, some.injEq] at hrun hres
  obtain rfl := hrun
  obtain rfl := hres
  rw [lastInvoke_resultMessages, lastInvoke_resultMessages] at hsome ⊢
  rw [lastInvoke_append] at ha
  rw [← upToRequest_append_afterRequest msgs, lastInvoke_append] at hb
  rcases hrest : lastInvoke (afterRequest msgs) with _ | b'
  · rw [hrest] at hsome
    exact (not_isSome_iff_eq_none.1 (by simp [← hsome])).symm
  obtain ⟨a', ha'⟩ := isSome_iff_exists.1 (hsome.symm.trans (by rw [hrest]; rfl))
  rw [ha'] at ha ⊢
  rw [hrest] at hb
  obtain rfl := some.inj ha
  obtain rfl := some.inj hb
  have hmem : .contractInvoke b' ∈ msgs := by
    rw [← upToRequest_append_afterRequest msgs]
    exact mem_append_right _ (mem_of_lastInvoke hrest)
  rw [eq_of_encode_invokeItem hsize hn hmsgs hmem hab.symm]

end

/-- For a transaction that validation and the check on a mediator's node accept: its result is
that of running the request iff it agrees with the run outside the last invoke result, and the
last invoke results agree wherever the check has not compared them with the run. -/
theorem results_equal_iff {sigs : SigState} (haccepts : Validate.Accepts Q.V tx sigs)
    (hactive : Q.localHaveActiveMediator = true)
    (hcheck : (Q.contractTxCheckForValidator tx).map Prod.fst = some true) :
    ResultsEqual Q tx ↔ ∃ run result res, Q.rerun tx = some run ∧ resultOf run = some result ∧
      tx.received = some res ∧ hideLastInvoke res = hideLastInvoke result ∧
      (ComparedWithRun Q tx run ∨ lastInvoke res = lastInvoke result) := by
  obtain ⟨msgs, s', hacc⟩ := haccepts.accepted
  obtain ⟨n, hsize, hn⟩ := hacc.size
  constructor
  · rintro ⟨run, result, hrerun, hresult, hreceived⟩
    exact ⟨run, result, result, hrerun, hresult, hreceived, rfl, .inr rfl⟩
  rintro ⟨run, result, res, hrerun, hresult, hreceived, hhide, hlast⟩
  have heq : lastInvoke res = lastInvoke result := by
    rcases hlast with hcmp | hlast
    · exact hcmp.lastInvoke_eq hactive hcheck hsize hn hresult hreceived hhide
    · exact hlast
  obtain rfl := eq_iff_hideLastInvoke.2 ⟨hhide, heq⟩
  exact ⟨run, res, hrerun, hresult, hreceived⟩

/-! ### A payout and a minting payment -/

namespace Mint

/-- A system contract. -/
def contractId : Bytes :=
  List.replicate 19 0 ++ [1]

/-- What the contract pays out when it is called. -/
def payout : PaymentPayload :=
  ⟨[openInput (outPoint 2)], [⟨5, [0x51], newPTNAsset⟩], 0⟩

/-- The store has an output of the caller and one of the contract. -/
def utxos : List (OutPoint × Utxo) :=
  [(outPoint 1, openUtxo 10), (outPoint 2, openUtxo 5)]

/-- A mediator's node with nothing cached. Calling the contract makes it pay out and mint
nothing. -/
def processor : Processor where
  V := withUtxos utxos
  localHaveActiveMediator := true
  errMsgEnable := true
  getTxHashByReqId _ := none
  getUtxoEntry op := utxos.lookup op
  install _ := .error []
  deploy _ _ _ _ := .error []
  invoke contractId _ _ _ := .ok ⟨contractId, [], [], [], fun _ => .ok [payout], .ok []⟩
  stop _ _ _ := .error []
  marshalInvokeInfo _ := []
  getAddressFromUnlockScript _ := none
  calculateContractDeployDuringTime _ := none
  mtx _ := none

/-- The call, with the fee payment in front of it. -/
def request : List Message :=
  [.payment ⟨[openInput (outPoint 1)], [⟨10, [0x51], newPTNAsset⟩], 0⟩,
    .contractInvokeRequest ⟨contractId, [[1]], 0⟩]

/-- What the contract returns. -/
def result : List Message :=
  [.contractInvoke ⟨contractId, [], [], [], [], ⟨0, []⟩⟩, .payment payout]

/-- The call with its result. -/
def honest : Transaction :=
  ⟨request ++ result, [], false⟩

/-- The call with its result and a payment of new money behind it. -/
def minting : Transaction :=
  ⟨request ++ result ++ [.payment ⟨[], [⟨1000, [0x51], newPTNAsset⟩], 0⟩], [], false⟩

lemma compared : ComparedWithRun processor honest result where
  system := by decide
  invokes := by decide
  result := ⟨request ++ result, by decide +kernel, by decide +kernel⟩
  notCached := by
    have hreq : (honest.requestHash processor.V.P).isSome = true := by decide +kernel
    obtain ⟨reqId, hreqId⟩ := isSome_iff_exists.1 hreq
    exact ⟨reqId, hreqId, rfl⟩
  wholeTx := by decide +kernel
  feeEnough := ⟨⟨request, [], false⟩, honest, by decide +kernel, by decide +kernel,
    by decide +kernel⟩

end Mint

open Mint

/-- An honest result is the node's own. -/
theorem results_equal_honest :
    Validate.Accepts processor.V honest noSigs ∧
      ResultsEqual processor honest := by
  have haccepts : Validate.Accepts processor.V honest noSigs := by
    decide +kernel
  refine ⟨haccepts, (results_equal_iff haccepts rfl (by decide +kernel)).2
    ⟨result, result, result, ?_, ?_, ?_, rfl, .inl compared⟩⟩
  all_goals decide +kernel

/-- Validation and the check accept a payment that the contract did not make: only the last
invoke results were compared. -/
theorem minting_accepted :
    Validate.Accepts processor.V minting noSigs ∧
      processor.localHaveActiveMediator = true ∧
      isSystemContractId contractId = true ∧
      (processor.contractTxCheckForValidator minting).map Prod.fst = some true ∧
      ¬ ResultsEqual processor minting := by
  refine ⟨?_, rfl, ?_, ?_, ?_⟩ <;> decide +kernel

end Processor

end ZwsChain
