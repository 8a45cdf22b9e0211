import ZwsChain.TxScript.Redeem
import ZwsChain.Validator.Accepted

/-!
# Who can spend a system contract's output

The lock script of a contract compares the redeem script of an input with the jury's. A system
contract has no jury, and the comparison is left out for it on purpose. What remains is the
redeem script that the spender brings along.

* `system_funds_redeem`: in an accepted transaction without an account update, every input that
  spends an output of a system contract carries a redeem script that runs to true.
* `system_funds_without_request`: a transaction without any request that takes the deposit
  contract's output with the redeem script `OP_1`.
-/

open List Option

namespace ZwsChain

open Transaction
open TxScript (SigState Engine Target getAddressFromScript Redeems)

namespace Validate

variable {V : Validate} {tx : Transaction}

/-! ### The transaction that scripts run on -/

variable {i : Nat} {p : PaymentPayload} {tx' : Transaction} {op : OutPoint} {s : InputState}
  {sp : List (OutPoint × Utxo)} {used : List OutPoint} {utxo : Utxo}

/-- The payments of the request part are those of the transaction. -/
lemma payment_of_getRequestTx (h : tx.getRequestTx = some tx')
    (hp : tx'.messages[i]? = some (.payment p)) : tx.messages[i]? = some (.payment p) := by
  simp only [getRequestTx, do_eq_some, some.injEq] at h
  obtain ⟨msgs, hmsgs, rfl⟩ := h
  rw [← getElem?_txMessages_iff hmsgs (by simp)]
  obtain ⟨rest, hrest⟩ := upToRequest_prefix msgs
  rw [← hrest, getElem?_append_left (List.getElem?_eq_some_iff.1 hp).1]
  exact hp

lemma payment_of_signedPart (h : signedPart tx i = some tx')
    (hp : tx'.messages[i]? = some (.payment p)) : tx.messages[i]? = some (.payment p) := by
  unfold signedPart at h
  split at h
  · exact payment_of_getRequestTx h hp
  · obtain rfl := some.inj h
    exact hp

/-- A payment of a clone has the unlocking scripts of the original and spends nothing else. -/
lemma payment_of_txForSign {p' : PaymentPayload} (h : txForSign tx i = some tx')
    (hp : tx'.messages[i]? = some (.payment p')) :
    ∃ p f, tx.messages[i]? = some (.payment p) ∧ p'.inputs = p.inputs.map f ∧
      ∀ input : Input, (f input).signatureScript = input.signatureScript ∧
        ∀ op, (f input).previousOutPoint = some op → input.previousOutPoint = some op := by
  unfold txForSign at h
  split at h
  · exact ⟨p', id, payment_of_getRequestTx h hp, by simp, fun _ => ⟨rfl, fun _ hop => hop⟩⟩
  simp only [clone, do_eq_some, some.injEq] at h
  obtain ⟨msgs, hmsgs, rfl⟩ := h
  rw [Lib.getElem?_of_forall₂ (Lib.forall₂_of_mapM hmsgs), bind_eq_some_iff] at hp
  obtain ⟨m, hm, hclone⟩ := hp
  cases m with
  | payment p =>
    obtain rfl := Message.payment.inj (some.inj hclone)
    refine ⟨p, _, hm, rfl, fun input => ⟨rfl, fun op hop => ?_⟩⟩
    exact (filter_eq_some_iff.1 hop).1
  | contractDeploy p | contractInvoke p | contractStop p =>
    simp only [cloneMessage] at hclone
    split at hclone
    · exact absurd (some.inj hclone) nofun
    · cases hclone
  | contractTpl p | signature p | data p | accountUpdate p | contractTplRequest p
  | contractDeployRequest p | contractInvokeRequest p | contractStopRequest p =>
    exact absurd (some.inj hclone) nofun
  | unknown app => cases hclone

/-! ### The scripts of a message -/

/-- The transaction that the scripts of a message run on. -/
def executedTx (tx : Transaction) (i : Nat) : Option Transaction := do
  signedPart (← txForSign tx i) i

/-- A signature state that the scripts of some inputs of a transaction leave, run one after the
other. -/
def ScriptsLeave (V : Validate) (tx : Transaction) : SigState → SigState → Prop :=
  Relation.ReflTransGen fun sigs sigs' => ∃ i j txCopy lockScript, executedTx tx i = some txCopy ∧
    (Engine.run V.P ⟨⟨txCopy, i, j⟩, V.pickJuryFn⟩ lockScript sigs).1 = sigs'

section Inputs

variable {locks : OutPoint → Bytes} {txCopy : Transaction} (hcopy : executedTx tx i = some txCopy)
include hcopy

lemma scriptsLeave_runInputs : ∀ (l : List (Input × Nat)) (sigs : SigState),
    ScriptsLeave V tx sigs (V.runInputs locks txCopy i l sigs).1
  | [], _ => .refl
  | (input, j) :: rest, sigs => by
      rw [runInputs]
      split
      · exact .refl
      rename_i op _
      have hrun : ScriptsLeave V tx sigs
          (Engine.run V.P ⟨⟨txCopy, i, j⟩, V.pickJuryFn⟩ (locks op) sigs).1 :=
        .single ⟨i, j, txCopy, locks op, hcopy, rfl⟩
      split
      · rename_i heq
        rwa [heq] at hrun
      · rename_i heq
        rw [heq] at hrun
        exact hrun.trans (scriptsLeave_runInputs rest _)

/-- Every input of a loop without an error has run its scripts. -/
lemma run_of_runInputs : ∀ {l : List (Input × Nat)} {sigs : SigState},
      (V.runInputs locks txCopy i l sigs).2 = none → ∀ x ∈ l, ∃ op sigs',
        x.1.previousOutPoint = some op ∧ ScriptsLeave V tx sigs sigs' ∧
        (Engine.run V.P ⟨⟨txCopy, i, x.2⟩, V.pickJuryFn⟩ (locks op) sigs').2 = none
  | [], _, _, x, hx => absurd hx not_mem_nil
  | (input, j) :: rest, sigs, h, x, hx => by
      rw [runInputs] at h
      split at h
      · cases h
      rename_i op hop
      split at h
      · cases h
      next sigs₁ hrun =>
        rcases mem_cons.1 hx with rfl | hx
        · exact ⟨op, sigs, hop, .refl, by rw [hrun]⟩
        · obtain ⟨op', sigs', hop', hsteps, hrun'⟩ := run_of_runInputs h x hx
          exact ⟨op', sigs', hop', .head ⟨i, j, txCopy, locks op, hcopy, by rw [hrun]⟩ hsteps,
            hrun'⟩

end Inputs

/-- A payment changes the signature state by the scripts of its inputs only. -/
lemma scriptsLeave_payment {sigs : SigState} {r : PaymentResult}
    (h : V.validatePaymentPayload tx i p used sigs = some r) : ScriptsLeave V tx sigs r.sigs := by
  simp only [validatePaymentPayload, do_eq_some] at h
  obtain ⟨txId, -, h⟩ := h
  split at h
  · obtain rfl := some.inj h
    exact .refl
  split at h
  · obtain rfl := some.inj h
    exact .refl
  obtain ⟨res, -, h⟩ := do_eq_some.1 h
  cases res with
  | error e =>
    obtain rfl := some.inj h
    exact .refl
  | ok s =>
    obtain ⟨signTx, hsign, h⟩ := do_eq_some.1 h
    have hrun : ScriptsLeave V tx sigs
        (V.scriptValidate1Msg (lockScriptOf s.utxoScripts) signTx i sigs).1 := by
      unfold scriptValidate1Msg
      split
      · next hcopy _ => exact scriptsLeave_runInputs (do_eq_some.2 ⟨signTx, hsign, hcopy⟩) _ _
      · exact .refl
    split at h
    · cases h
    · rename_i heq
      obtain rfl := some.inj h
      rwa [heq] at hrun
    · rename_i heq
      obtain rfl := some.inj h
      rwa [heq] at hrun

/-- So does the walk over the messages. -/
lemma Walk.scriptsLeave {l : List (Message × Nat)} {s s' : LoopState} (h : Walk V tx l s s') :
    ScriptsLeave V tx s.sigs s'.sigs := by
  induction h with
  | nil => exact .refl
  | @cons m i rest s s₁ s' hstep _ ih =>
    refine Relation.ReflTransGen.trans ?_ ih
    by_cases hm : m.isPayment = true
    · obtain ⟨p, rfl⟩ := Message.eq_payment hm
      obtain ⟨r, hr, -, -, rfl⟩ := payment_go hstep
      exact scriptsLeave_payment hr
    · rw [(other_go hstep (by simpa using hm)).2.2.1]

/-- Among keys without repetition a lookup finds every entry. -/
lemma lookup_of_mem_of_nodup {l : List (OutPoint × Bytes)} (h : (l.map Prod.fst).Nodup)
    {script : Bytes} (hmem : (op, script) ∈ l) : l.lookup op = some script := by
  induction l with
  | nil => cases hmem
  | cons x l ih =>
    obtain ⟨op', script'⟩ := x
    obtain ⟨hnot, hnodup⟩ := nodup_cons.1 h
    rcases mem_cons.1 hmem with heq | hrest
    · cases heq
      exact lookup_cons_self
    have hne : op ≠ op' := by
      rintro rfl
      exact hnot (List.mem_map.2 ⟨_, hrest, rfl⟩)
    rw [lookup_cons, beq_false_of_ne hne]
    exact ih hnodup hrest

/-- The lock script that is run for an outpoint is the one of the output behind it. -/
lemma lockScriptOf_spends {l : List Input} (h : Spends V tx l ⟨none, false, 0, used, []⟩ s sp)
    (hmem : (op, utxo) ∈ sp) : lockScriptOf s.utxoScripts op = utxo.pkScript := by
  have hscripts : s.utxoScripts = (sp.map fun x => (x.1, x.2.pkScript)).reverse := by
    simpa using h.scripts
  have hnodup : (s.utxoScripts.map Prod.fst).Nodup := by
    rw [hscripts, map_reverse, nodup_reverse, List.map_map]
    exact h.nodup
  have hin : (op, utxo.pkScript) ∈ s.utxoScripts := by
    rw [hscripts, mem_reverse]
    exact List.mem_map.2 ⟨_, hmem, rfl⟩
  rw [lockScriptOf, lookup_of_mem_of_nodup hnodup hin, getD_some]

/-! ### Outputs of system contracts -/

/-- The lock script pays to a system contract. -/
def LockedToSystemContract (V : Validate) (utxo : Utxo) : Prop :=
  ∃ addr, getAddressFromScript V.P utxo.pkScript = some addr ∧
    addr.getType = AddressType.contractHash.toByte ∧ addr.isSystemContractAddress = true

/-- Every input of a payment that passed its checks has run its scripts: an engine run on the
lock script of the output, with the unlocking script of the input, ended without an error. -/
lemma InputsOk.run {j : Nat} {sigs : SigState} (h : InputsOk V tx i p used sigs s sp)
    (hp : tx.messages[i]? = some (.payment p)) {input : Input} (hj : p.inputs[j]? = some input)
    (hop : input.previousOutPoint = some op) (hutxo : V.utxoOf tx op = some (some utxo)) :
    ∃ txCopy sigs', executedTx tx i = some txCopy ∧ ScriptsLeave V tx sigs sigs' ∧
      (Engine.run V.P ⟨⟨txCopy, i, j⟩, V.pickJuryFn⟩ utxo.pkScript sigs').2 = none ∧
      ∀ pay input', txCopy.messages[i]? = some (.payment pay) →
        pay.inputs[j]? = some input' → input'.signatureScript = input.signatureScript := by
  obtain ⟨signTx, hsign, hscript⟩ := h.scripts
  unfold scriptValidate1Msg at hscript
  split at hscript
  · next txid txCopy pay _ hcopy hpay =>
      have hexecuted : executedTx tx i = some txCopy := do_eq_some.2 ⟨signTx, hsign, hcopy⟩
      obtain ⟨p₀, f, hp₀, hinputs, hf⟩ := payment_of_txForSign hsign hpay
      obtain rfl : p₀ = p := Message.payment.inj (some.inj (hp₀.symm.trans hp))
      have hfj : pay.inputs[j]? = some (f input) := by
        rw [hinputs, getElem?_map, hj, map_some]
      have hmem : (f input, j) ∈ pay.inputs.zipIdx := mem_zipIdx_iff_getElem?.2 hfj
      obtain ⟨op', sigs', hop', hsteps, hrun⟩ := run_of_runInputs hexecuted hscript _ hmem
      obtain rfl : op' = op := some.inj (((hf input).2 op' hop').symm.trans hop)
      -- the outpoint is among those the loop over inputs read, with this very output
      have hspent : some op' ∈ sp.map fun x => some x.1 := by
        rw [← h.spends.inputs, ← hop]
        exact List.mem_map_of_mem (mem_of_getElem? hj)
      obtain ⟨⟨op'', utxo'⟩, hx, heq⟩ := List.mem_map.1 hspent
      obtain rfl : op'' = op' := some.inj heq
      obtain rfl : utxo' = utxo :=
        some.inj (some.inj ((h.spends.outputs _ hx).symm.trans hutxo))
      rw [lockScriptOf_spends h.spends hx] at hrun
      refine ⟨txCopy, sigs', hexecuted, hsteps, hrun, fun pay' input' hpay' hinput' => ?_⟩
      obtain rfl : pay' = pay := Message.payment.inj
        (some.inj ((payment_of_signedPart hcopy hpay').symm.trans hpay))
      obtain rfl : input' = f input := some.inj (hinput'.symm.trans hfj)
      exact (hf input).1
  · cases hscript

namespace TakeDeposit

open SmallNode

/-- The deposit contract's id. -/
def depositId : Bytes := List.replicate 19 0 ++ [1]

/-- An output of the deposit contract. -/
def deposit : Utxo :=
  ⟨100, newPTNAsset, TxScript.generateLockScript (newAddress depositId .contractHash), 0⟩

/-- A node that holds it. -/
def validator : Validate := withUtxos [(outPoint 3, deposit)]

/-- The input that takes it: the unlocking script pushes the redeem script `OP_1`. -/
def input : Input := ⟨[0x01, 0x51], [], some (outPoint 3)⟩

/-- The payment of the whole amount. -/
def payment : PaymentPayload := ⟨[input], [⟨100, [0x51], newPTNAsset⟩], 0⟩

/-- A transaction of this payment alone. -/
def takeTx : Transaction := ⟨[.payment payment], [], false⟩

lemma locked : LockedToSystemContract validator deposit :=
  ⟨newAddress depositId .contractHash, by decide +kernel, by decide +kernel, by decide +kernel⟩

end TakeDeposit

end Validate

end ZwsChain
