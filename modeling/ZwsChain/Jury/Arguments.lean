import ZwsChain.Dag.ApplyPayments
import ZwsChain.Jury.Processor

/-!
# The arguments of a contract that is run again

The producer runs a request and appends the result to it; a validator runs the completed
transaction. `handleMsg0` lists the outputs of all payments as tokens of the caller, so the payouts
of the result, and change that goes back to the contract, reach the contract as tokens it was paid
(`ChangeAsPayment.change_presented`).

`same_arguments_iff`: the arguments are the same exactly if the result pays nobody but the caller.
-/

open List Option

namespace ZwsChain

open Transaction Message
open TxScript (getAddressFromScript)

/-- A request with the messages of its result.
Source: `core/gen/genesis.go`, `GenContractTransction` -/
def Transaction.complete (req : Transaction) (results : List Message) : Transaction :=
  { req with messages := req.messages ++ results }

namespace Processor

variable {Q : Processor} {req : Transaction} {results : List Message} {reqArgs args : List Bytes}

/-! ### Arguments -/

/-- Source: `consensus/jury/common.go`, `runContractCmd`, the arguments of an invoke request -/
def invokeArgs (Q : Processor) (tx : Transaction) (reqArgs : List Bytes) :
    Option (Except CmdError (List Bytes)) :=
  (Q.handleMsg0 tx reqArgs).map fun fullArgs => fullArgs.bind (handleArg1 tx)

/-- The arguments that the contract of a transaction is run with; the install and stop requests have
none.
Source: `consensus/jury/common.go`, `runContractCmd` -/
def contractArgs (Q : Processor) (tx : Transaction) : Option (Except CmdError (List Bytes)) := do
  let msgs ← tx.txMessages
  match msgs.find? isContractRequest with
  | some (.contractDeployRequest reqPay) => Q.handleMsg0 tx reqPay.args
  | some (.contractInvokeRequest reqPay) => Q.invokeArgs tx reqPay.args
  | some _ => some (.ok [])
  | none => some (.error .noRequest)

/-- The address that the first input of the transaction spends from.
Source: `consensus/jury/common.go`, `handleMsg0`, `invokeAddr` -/
def invoker (Q : Processor) (tx : Transaction) : Option Address := do
  match ← tx.txMessages with
  | .payment ⟨⟨_, _, some outPoint⟩ :: _, _, _⟩ :: _ => Q.getAddrByOutPoint outPoint
  | _ => none

/-- The tokens and the fee that the contract is told of. -/
def attached (Q : Processor) (tx : Transaction) (invokeAddr : Address) :
    Option (List InvokeTokens × AmountAsset) := do
  let msgs ← tx.txMessages
  let tokens ← Q.invokeTokens invokeAddr (msgs.flatMap Message.outputs)
  let fees ← (tx.getTxFee Q.getUtxoEntry).bind Except.toOption
  some (tokens, fees)

/-- When arguments are built, and which. -/
lemma handleMsg0_eq_ok (hne : req.messages ≠ []) :
    Q.handleMsg0 req reqArgs = some (.ok args) ↔
      ∃ addr tokens fees, Q.invoker req = some addr ∧ Q.attached req addr = some (tokens, fees) ∧
        args = Q.marshalInvokeInfo ⟨addr, tokens, some fees⟩ :: reqArgs := by
  unfold handleMsg0 invoker attached
  cases hmsgs : req.txMessages with
  | none => simp
  | some msgs =>
    have hmsgsne : msgs ≠ [] := by
      rintro rfl
      have hlength := (Lib.forall₂_of_mapM hmsgs).length_eq
      exact hne (length_eq_zero_iff.1 hlength)
    simp only [do_some]
    split
    · exact absurd rfl hmsgsne
    · rename_i _ signatureScript extra outPoint inputs outputs lockTime rest
      constructor
      · intro h
        split at h
        · cases h
        rename_i addr haddr
        split at h
        · cases h
        rename_i tokens htokens
        obtain ⟨fee, hfee, h⟩ := do_eq_some.1 h
        cases fee with
        | error e => cases h
        | ok fees =>
          cases h
          exact ⟨addr, tokens, fees, haddr, by rw [htokens, hfee]; rfl, rfl⟩
      rintro ⟨addr, tokens, fees, haddr, hattached, rfl⟩
      have haddr : Q.getAddrByOutPoint outPoint = some addr := haddr
      obtain ⟨tokens', htokens, hattached⟩ := do_eq_some.1 hattached
      obtain ⟨fees', hfees, ⟨⟩⟩ := do_eq_some.1 hattached
      obtain ⟨fee, hfee, hok⟩ := bind_eq_some_iff.1 hfees
      cases fee with
      | error e => cases hok
      | ok fees' =>
        cases hok
        rw [haddr]
        dsimp only
        rw [htokens, hfee]
        rfl
    rename_i hnot
    constructor
    · intro h
      cases h
    rintro ⟨addr, tokens, fees, haddr, -⟩
    split at haddr
    · exact (hnot _ _ _ _ _ _ _ rfl).elim
    · cases haddr

/-- The certificate comes before the arguments of the request, which must not be empty. -/
lemma invokeArgs_eq_ok (hne : req.messages ≠ []) :
    Q.invokeArgs req reqArgs = some (.ok args) ↔
      reqArgs ≠ [] ∧ Q.handleMsg0 req (req.certId :: reqArgs) = some (.ok args) := by
  rw [handleMsg0_eq_ok hne, invokeArgs, map_eq_some_iff]
  constructor
  · rintro ⟨full, hfull, hargs⟩
    cases full with
    | error e => cases hargs
    | ok full =>
      obtain ⟨addr, tokens, fees, haddr, hattached, rfl⟩ := (handleMsg0_eq_ok hne).1 hfull
      cases reqArgs with
      | nil => cases hargs
      | cons arg rest =>
        cases hargs
        exact ⟨cons_ne_nil _ _, addr, tokens, fees, haddr, hattached, rfl⟩
  · rintro ⟨hargs, addr, tokens, fees, haddr, hattached, rfl⟩
    refine ⟨_, (handleMsg0_eq_ok hne).2 ⟨addr, tokens, fees, haddr, hattached, rfl⟩, ?_⟩
    cases reqArgs with
    | nil => exact absurd rfl hargs
    | cons arg rest => rfl

/-! ### The completed transaction -/

variable {addr : Address} {outs : List Output} {copies msgs : List Message} {args' : List Bytes}
  {tx : Transaction}

/-- The request's own part of what the contract is told is read from the completed transaction as
well. -/
lemma txMessages_complete (req : Transaction) (hcopy : (results.mapM copyMessage).isSome) :
    ∃ copies, copies.flatMap Message.outputs = results.flatMap Message.outputs ∧
      (req.complete results).txMessages = req.txMessages.map (· ++ copies) := by
  obtain ⟨copies, hcopies⟩ := isSome_iff_exists.1 hcopy
  refine ⟨copies, ?_, ?_⟩
  · rw [flatMap_def, flatMap_def, map_copies Message.outputs (fun _ _ => rfl) hcopies]
  rw [txMessages, complete, mapM_append, hcopies]
  show (req.txMessages.bind fun msgs => some (msgs ++ copies)) = _
  rw [map_eq_bind]
  rfl

lemma getTxFee_complete (hne : req.messages ≠ []) :
    ((req.complete results).getTxFee Q.getUtxoEntry).bind Except.toOption =
      (req.getTxFee Q.getUtxoEntry).bind Except.toOption := by
  have herror : ∀ x : Option Bytes,
      ((x.map fun _ => (.error .txinLessThanTxout : Except FeeError AmountAsset)).bind
        Except.toOption) = none := by
    intro x
    cases x <;> rfl
  cases hmsgs : req.messages with
  | nil => exact absurd hmsgs hne
  | cons m msgs =>
    have hcomplete : (req.complete results).messages = m :: (msgs ++ results) := by
      rw [complete, hmsgs, cons_append]
    rw [getTxFee, getTxFee, hcomplete, hmsgs]
    cases m with
    | payment p =>
      dsimp only
      split
      · rfl
      split
      · rfl
      split
      · rw [herror, herror]
      · rfl
    | _ => rfl

/-- Tokens of more outputs. -/
lemma invokeTokens_append {outs' : List Output} :
    Q.invokeTokens addr (outs ++ outs') = (Q.invokeTokens addr outs).bind fun tokens =>
      (Q.invokeTokens addr outs').map (tokens ++ ·) := by
  simp only [invokeTokens, mapM_append, bind_eq_bind, Option.pure_def]
  cases outs.mapM fun output : Output =>
      (getAddressFromScript Q.V.P output.pkScript).map fun addr => (addr, output) with
  | none => rfl
  | some addressed =>
    cases outs'.mapM fun output : Output =>
        (getAddressFromScript Q.V.P output.pkScript).map fun addr => (addr, output) with
    | none => rfl
    | some addressed' => simp

/-- Outputs that are no tokens. -/
lemma invokeTokens_eq_nil :
    Q.invokeTokens addr outs = some [] ↔
      ∀ out ∈ outs, getAddressFromScript Q.V.P out.pkScript = some addr := by
  induction outs with
  | nil => simp [invokeTokens]
  | cons out outs ih =>
    rw [← singleton_append, invokeTokens_append, forall_mem_append, ← ih]
    cases hout : getAddressFromScript Q.V.P out.pkScript with
    | none => simp [invokeTokens, hout]
    | some a =>
      by_cases ha : a = addr
      · subst ha
        simp [invokeTokens, hout]
      · cases hrest : Q.invokeTokens addr outs <;> simp [invokeTokens, hout, ha]

/-! ### When the arguments are the same -/

/-- The same arguments are built from the completed transaction and from the request. -/
def SameArguments (Q : Processor) (req : Transaction) (results : List Message) : Prop :=
  ∀ args, Q.contractArgs (req.complete results) = some (.ok args) ↔
    Q.contractArgs req = some (.ok args)

/-- Whether the first contract request is a deploy or an invoke request. -/
def takesArguments (req : Transaction) : Bool :=
  (req.messages.find? isContractRequest).any fun
    | .contractDeployRequest _ | .contractInvokeRequest _ => true
    | _ => false

/-- Every output of the result goes to the caller. -/
def PaysInvoker (Q : Processor) (req : Transaction) (results : List Message) : Prop :=
  ∀ out ∈ results.flatMap Message.outputs,
    getAddressFromScript Q.V.P out.pkScript = Q.invoker req

/-- A text of more tokens is another text, as in JSON. -/
def TokensInText (Q : Processor) : Prop :=
  ∀ addr tokens more fees, Q.marshalInvokeInfo ⟨addr, tokens ++ more, fees⟩ =
    Q.marshalInvokeInfo ⟨addr, tokens, fees⟩ → more = []

section

variable (hne : req.messages ≠ []) (hcopy : (results.mapM copyMessage).isSome)
include hne hcopy

lemma invoker_complete : Q.invoker (req.complete results) = Q.invoker req := by
  obtain ⟨copies, -, hmsgs⟩ := txMessages_complete req hcopy
  unfold invoker
  rw [hmsgs]
  cases hreq : req.txMessages with
  | none => rfl
  | some msgs =>
    have hlength := (Lib.forall₂_of_mapM hreq).length_eq
    cases msgs with
    | nil => exact absurd (length_eq_zero_iff.1 hlength) hne
    | cons m msgs =>
      cases m with
      | payment p =>
        obtain ⟨inputs, outputs, lockTime⟩ := p
        cases inputs with
        | nil => rfl
        | cons input inputs =>
          obtain ⟨signatureScript, extra, outPoint⟩ := input
          cases outPoint <;> rfl
      | _ => rfl

/-- The tokens of the result come behind those of the request. -/
lemma attached_complete (addr : Address) :
    Q.attached (req.complete results) addr = (Q.attached req addr).bind fun (tokens, fees) =>
      (Q.invokeTokens addr (results.flatMap Message.outputs)).map fun more =>
        (tokens ++ more, fees) := by
  obtain ⟨copies, houts, hmsgs⟩ := txMessages_complete req hcopy
  unfold attached
  rw [hmsgs, getTxFee_complete hne]
  cases req.txMessages with
  | none => rfl
  | some msgs =>
    simp only [map_some, do_some, flatMap_append, houts, invokeTokens_append]
    cases Q.invokeTokens addr (msgs.flatMap Message.outputs) with
    | none => rfl
    | some tokens =>
      cases Q.invokeTokens addr (results.flatMap Message.outputs) with
      | none | some more => cases (req.getTxFee Q.getUtxoEntry).bind Except.toOption <;> rfl

lemma handleMsg0_complete_eq_ok :
    Q.handleMsg0 (req.complete results) reqArgs = some (.ok args) ↔ ∃ addr tokens fees more,
      Q.invoker req = some addr ∧ Q.attached req addr = some (tokens, fees) ∧
      Q.invokeTokens addr (results.flatMap Message.outputs) = some more ∧
      args = Q.marshalInvokeInfo ⟨addr, tokens ++ more, some fees⟩ :: reqArgs := by
  rw [handleMsg0_eq_ok (by simp [complete, hne])]
  simp only [invoker_complete hne hcopy, attached_complete hne hcopy]
  constructor
  · rintro ⟨addr, tokens, fees, haddr, hattached, rfl⟩
    obtain ⟨⟨tokens, fees⟩, hreq, hmap⟩ := do_eq_some.1 hattached
    obtain ⟨more, hmore, ⟨⟩⟩ := map_eq_some_iff.1 hmap
    exact ⟨addr, tokens, fees, more, haddr, hreq, hmore, rfl⟩
  · rintro ⟨addr, tokens, fees, more, haddr, hattached, hmore, rfl⟩
    exact ⟨addr, tokens ++ more, fees, haddr, by simp [hattached, hmore], rfl⟩

lemma handleMsg0_of_complete
    (h : Q.handleMsg0 (req.complete results) reqArgs = some (.ok args')) :
    ∃ args, Q.handleMsg0 req reqArgs = some (.ok args) := by
  obtain ⟨addr, tokens, fees, -, haddr, hattached, -⟩ := (handleMsg0_complete_eq_ok hne hcopy).1 h
  exact ⟨_, (handleMsg0_eq_ok hne).2 ⟨addr, tokens, fees, haddr, hattached, rfl⟩⟩

/-- The information about the caller is the same exactly if the result pays the caller only. -/
lemma handleMsg0_complete_iff (htext : Q.TokensInText)
    (h : Q.handleMsg0 req reqArgs = some (.ok args)) :
    Q.handleMsg0 (req.complete results) reqArgs = some (.ok args) ↔ Q.PaysInvoker req results := by
  obtain ⟨addr, tokens, fees, haddr, hattached, rfl⟩ := (handleMsg0_eq_ok hne).1 h
  rw [handleMsg0_complete_eq_ok hne hcopy, PaysInvoker, haddr, ← invokeTokens_eq_nil]
  constructor
  · rintro ⟨addr', tokens', fees', more, ⟨⟩, hattached', hmore, heq⟩
    cases hattached.symm.trans hattached'
    obtain rfl := htext addr tokens more (some fees) (List.cons.inj heq).1.symm
    exact hmore
  · intro hnil
    exact ⟨addr, tokens, fees, [], rfl, hattached, hnil, by rw [append_nil]⟩

end

/-- Two partial results that are defined together, and equal exactly under a condition. -/
lemma forall_ok_iff {x y : Option (Except CmdError (List Bytes))} {C : Prop}
    (hdefined : ∀ args, x = some (.ok args) → ∃ args, y = some (.ok args))
    (heq : ∀ args, y = some (.ok args) → (x = some (.ok args) ↔ C)) :
    (∀ args, x = some (.ok args) ↔ y = some (.ok args)) ↔ ∀ args, y = some (.ok args) → C := by
  constructor
  · intro h args hy
    exact (heq args hy).1 ((h args).2 hy)
  intro h args
  constructor
  · intro hx
    obtain ⟨args', hy⟩ := hdefined args hx
    have hx' := (heq args' hy).2 (h args' hy)
    rwa [hx.symm.trans hx']
  · intro hy
    exact (heq args hy).2 (h args hy)

/-- Requests are copied as they are. -/
lemma find_copies (h : msgs.mapM copyMessage = some copies) :
    copies.find? isContractRequest = msgs.find? isContractRequest := by
  have hmap := map_copies (Option.guard isContractRequest) (fun _ _ => rfl) h
  rw [← findSome?_guard, ← findSome?_guard, ← Function.id_comp (guard isContractRequest),
    ← findSome?_map, ← findSome?_map, hmap]

/-- The arguments built from a completed transaction are those of the request exactly if no
arguments are built, or the result pays nobody but the caller. -/
theorem same_arguments_iff (htext : Q.TokensInText)
    (hreq : (req.messages.find? isContractRequest).isSome)
    (hcopy : (results.mapM copyMessage).isSome) :
    Q.SameArguments req results ↔ ∀ args, Q.contractArgs req = some (.ok args) →
      takesArguments req → Q.PaysInvoker req results := by
  have hne : req.messages ≠ [] := by
    rintro hnil
    rw [hnil] at hreq
    cases hreq
  obtain ⟨copies, -, hmsgs⟩ := txMessages_complete req hcopy
  unfold SameArguments contractArgs takesArguments
  rw [hmsgs]
  cases hcopies : req.txMessages with
  | none => simp
  | some msgs =>
    obtain ⟨m, hm⟩ := isSome_iff_exists.1 hreq
    have hfind : msgs.find? isContractRequest = some m := (find_copies hcopies).trans hm
    simp only [map_some, do_some, find?_append, hfind, hm, some_or, any_some]
    have hiff := fun reqArgs => forall_ok_iff (x := Q.handleMsg0 (req.complete results) reqArgs)
      (fun _ => handleMsg0_of_complete hne hcopy) fun _ => handleMsg0_complete_iff hne hcopy htext
    cases m with
    | contractDeployRequest reqPay =>
      rw [hiff]
      simp
    | contractInvokeRequest reqPay =>
      have hne' : (req.complete results).messages ≠ [] := by simp [complete, hne]
      simp only [invokeArgs_eq_ok hne, invokeArgs_eq_ok hne']
      rcases eq_or_ne reqPay.args [] with hnil | hargs
      · simp [hnil]
      · simp only [and_iff_right hargs]
        rw [show (req.complete results).certId = req.certId from rfl, hiff]
        simp
    | _ => simp

/-! ### Change that goes back to the contract -/

namespace ChangeAsPayment

open SmallNode
open SelfPaid (anyone)

/-- A system contract. -/
def contractId : Bytes := List.replicate 19 0 ++ [1]

def contractAddr : Address := newAddress contractId .contractHash

def payee : Address := newAddress (List.replicate 20 7) .publicKeyHash

def payTo (addr : Address) (amount : UInt64) : Output :=
  ⟨amount, TxScript.generateLockScript addr, newPTNAsset⟩

/-- The store has an output of the caller and one of the contract. -/
def utxos : List (OutPoint × Utxo) :=
  [(outPoint 1, utxoOfOutput 0 (payTo anyone 10)),
    (outPoint 2, utxoOfOutput 0 (payTo contractAddr 5))]

/-- A text in the order of the fields, with one entry for each token. -/
def marshal (info : InvokeInfo) : Bytes :=
  info.invokeAddress.val ++ ascii ",[" ++
    info.invokeTokens.flatMap (fun t => ascii "," ++ t.address ++ t.asset.assetId.val) ++ ascii "]"

/-- Calling the contract makes it pay 3 of its 5 to somebody; the rest is change. -/
def processor : Processor where
  V := withUtxos utxos
  localHaveActiveMediator := true
  errMsgEnable := true
  getTxHashByReqId _ := none
  getUtxoEntry op := utxos.lookup op
  install _ := .error []
  deploy _ _ _ _ := .error []
  invoke contractId _ _ _ := .ok ⟨contractId, [], [], [], fun _ => .ok [], .ok []⟩
  stop _ _ _ := .error []
  marshalInvokeInfo := marshal
  getAddressFromUnlockScript _ := none
  calculateContractDeployDuringTime _ := none
  mtx _ := none

lemma tokensInText : processor.TokensInText := by
  intro addr tokens more fees h
  have hlength : (marshal ⟨addr, tokens ++ more, fees⟩).length =
      (marshal ⟨addr, tokens, fees⟩).length := congrArg List.length h
  simp only [marshal, length_append, flatMap_append] at hlength
  cases more with
  | nil => rfl
  | cons t more =>
    rw [flatMap_cons, length_append, length_append, length_append] at hlength
    have hcomma : (ascii ",").length = 1 := by decide
    omega

/-- The caller pays the fee and calls the contract. -/
def request : Transaction :=
  ⟨[.payment ⟨[SelfPaid.input (outPoint 1)], [payTo anyone 9], 0⟩,
    .contractInvokeRequest ⟨contractId, [[1]], 0⟩], [], false⟩

/-- The result with one payout. -/
def result (outputs : List Output) : List Message :=
  [.contractInvoke ⟨contractId, [], [], [], [], ⟨0, []⟩⟩,
    .payment ⟨[⟨[], [], some (outPoint 2)⟩], outputs, 0⟩]

/-- The tokens that the contract is told of. -/
def tokensTold (tx : Transaction) : Option (List (Bytes × UInt64)) :=
  (processor.attached tx anyone).map fun (tokens, _) => tokens.map fun t => (t.address, t.amount)

/-- The arguments, if they are built. -/
def built (tx : Transaction) : Option (List Bytes) :=
  (processor.contractArgs tx).bind Except.toOption

lemma built_eq_some :
    built tx = some args ↔ processor.contractArgs tx = some (.ok args) := by
  unfold built
  cases processor.contractArgs tx with
  | none => simp
  | some result => cases result <;> simp [Except.toOption]

end ChangeAsPayment

open ChangeAsPayment SelfPaid SmallNode in
/-- The producer's contract is told of no tokens. The validator's is told that 3 went to the payee
and 2 to the contract itself: the payout and the change of its own result. -/
theorem ChangeAsPayment.change_presented :
    tokensTold request = some [] ∧
      tokensTold (request.complete (result [payTo payee 3, payTo contractAddr 2])) =
        some [(payee.str primitives, 3), (contractAddr.str primitives, 2)] ∧
      ¬ processor.SameArguments request (result [payTo payee 3, payTo contractAddr 2]) := by
  refine ⟨by decide +kernel, by decide +kernel, ?_⟩
  intro hsame
  have hdiffer : (built request).isSome ∧ built request ≠
      built (request.complete (result [payTo payee 3, payTo contractAddr 2])) := by
    decide +kernel
  obtain ⟨args, hargs⟩ := isSome_iff_exists.1 hdiffer.1
  have hcomplete := built_eq_some.2 ((hsame args).2 (built_eq_some.1 hargs))
  exact hdiffer.2 (hargs.trans hcomplete.symm)

open ChangeAsPayment SelfPaid SmallNode in
/-- A result that pays the caller changes nothing. -/
theorem ChangeAsPayment.refund_not_presented :
    (built request).isSome ∧ processor.SameArguments request (result [payTo anyone 5]) := by
  refine ⟨by decide +kernel, ?_⟩
  refine (same_arguments_iff tokensInText (by decide) (by decide)).2 fun _ _ _ => ?_
  have hpays : ∀ out ∈ (result [payTo anyone 5]).flatMap Message.outputs,
      getAddressFromScript processor.V.P out.pkScript = processor.invoker request := by
    decide +kernel
  exact hpays

end Processor

end ZwsChain
