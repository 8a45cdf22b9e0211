import ZwsChain.Dag.CreateUnit
import ZwsChain.Validator.Crash
import ZwsChain.Validator.JuryRequired
import ZwsChain.Validator.Transactions

/-!
# The illegal mark and validation

A producer marks results of user contracts illegal whose read set is outdated
(`UnitCreator.markPoolTx`). The mark is not part of a transaction's id, but it is part of its wire
form, and both the bytes a jury signs (`Transaction.getResultRawTx`) and the bytes an unlocking
script behind the request signs (`TxScript.calcSignatureData`) are made from the wire form.

* `validateTx_marked`: what the mark can change in the verdict on a user contract's
  transaction is the outcome of these signature checks, and nothing else.
* `marked_valid_iff`: a list of transactions that is valid in order stays valid under marks exactly
  if the signature checks pass over the marked transactions.
* `MarkedResult.rejected`: a result that its jury signed is rejected once it is marked.
-/

open List Option

namespace ZwsChain

open Transaction
open TxScript (SigState)

namespace Transaction

/-- Source: `dag/modules/transaction.go`, `SetIllegal` -/
def setIllegal (tx : Transaction) (illegal : Bool) : Transaction :=
  { tx with illegal }

/-- How a producer may change the transactions of a unit: user contracts' transactions get a mark
or lose one. -/
def Marked (tx tx' : Transaction) : Prop :=
  tx' = tx ∨ tx.isUserContract = true ∧ ∃ illegal, tx' = tx.setIllegal illegal

lemma Marked.eq_setIllegal {tx tx' : Transaction} (h : tx.Marked tx') :
    ∃ illegal, tx' = tx.setIllegal illegal := by
  rcases h with rfl | ⟨-, h⟩
  · exact ⟨tx'.illegal, rfl⟩
  · exact h

/-- The producer's marking is one of these.
Source: `dag/common/unit_repository.go`, `markTxIllegal` -/
lemma marked_of_markTxIllegal {P : Primitives} {db : Db} {tx tx' : Transaction}
    (h : markTxIllegal P db tx = some tx') : tx.Marked tx' := by
  unfold markTxIllegal at h
  split at h
  · exact .inl (some.inj h).symm
  next hcontract =>
    split at h
    · exact .inl (some.inj h).symm
    next hsystem =>
      obtain ⟨_, -, rfl⟩ := map_eq_some_iff.1 h
      exact .inr ⟨by simpa [isUserContract, hsystem] using hcontract, _, rfl⟩

section

variable (tx : Transaction) (illegal : Bool)

/-- The mark takes one byte, whether it is set or not. -/
lemma size_setIllegal : (tx.setIllegal illegal).size = tx.size := by
  unfold size encodeRLP rlpItem setIllegal
  cases tx.messages.mapM messageTemp with
  | none => rfl
  | some msgs =>
    have hbool : ∀ b, (Lib.Rlp.encode (Message.boolItem b)).length = 1 := by decide +kernel
    simp [hbool]

end

end Transaction

namespace Validate

/-! ### The signature checks of a transaction -/

section

variable (V : Validate)

/-- The signature checks of one message: the unlocking scripts of a payment whose outputs are all
there, and the signatures of a jury. `none` is a check that fails. -/
def signedMsg (tx : Transaction) (txId : Hash) (msgIdx : Nat) (msg : Message)
    (s : List OutPoint × SigState) : Option (List OutPoint × SigState) :=
  match msg with
  | .payment p =>
    if p.inputs.isEmpty then some s
    else match V.validateInputs tx txId msgIdx p.inputs ⟨none, false, 0, s.1, []⟩ with
      | none => none
      | some (.error (_, usedUtxo)) => some (usedUtxo, s.2)
      | some (.ok inputs) =>
        (txForSign tx msgIdx).bind fun signTx =>
          match V.scriptValidate1Msg (lockScriptOf inputs.utxoScripts) signTx msgIdx s.2 with
          | (sigs, none) => some (inputs.usedUtxo, sigs)
          | (_, some _) => none
  | .signature p =>
    if V.validateContractSignature p.signatures tx true = some .valid then some s else none
  | _ => some s

/-- The signature checks of the messages in front of the first account update. -/
def signedMsgs (tx : Transaction) (txId : Hash) :
    List (Message × Nat) → List OutPoint × SigState → Option SigState
  | [], s => some s.2
  | (msg, msgIdx) :: rest, s =>
    if msg.isAccountUpdate then some s.2
    else (V.signedMsg tx txId msgIdx msg s).bind (signedMsgs tx txId rest)

/-- The signature checks of a transaction. -/
def signatureChecks (tx : Transaction) (sigs : SigState) : Option SigState := do
  let txId ← tx.hash V.P
  let msgs ← tx.txMessages
  V.signedMsgs tx txId msgs.zipIdx ([], sigs)

/-- Results of user contracts are not run again.
Source: `consensus/jury/service.go`, `ContractTxCheckForValidator` -/
structure IgnoresMark : Prop where
  userContract : ∀ tx, tx.isSystemContract = false → V.contractTxCheck tx = true

end

variable {V : Validate} {tx : Transaction} {illegal : Bool}

/-! ### Payments -/

variable {i : Nat} {txId : Hash} {p : PaymentPayload} {sigs : SigState} {s s₁ : LoopState}
  {tx' : Transaction} {txs : List Transaction} {unitUtxo : List (OutPoint × Utxo)}

lemma validateInputs_setIllegal : ∀ {inputs : List Input} {s : InputState},
    V.validateInputs (tx.setIllegal illegal) txId i inputs s = V.validateInputs tx txId i inputs s
  | [], s => rfl
  | input :: rest, s => by
      have hutxo : ∀ op, V.utxoOf (tx.setIllegal illegal) op = V.utxoOf tx op := fun _ => rfl
      simp [validateInputs, hutxo, validateInputs_setIllegal]

lemma txForSign_setIllegal_isSome (tx : Transaction) (illegal : Bool) (i : Nat) :
    (txForSign (tx.setIllegal illegal) i).isSome = (txForSign tx i).isSome := by
  have hidx : (tx.setIllegal illegal).getContractInvokeReqMsgIdx =
      tx.getContractInvokeReqMsgIdx := rfl
  have hreq : (tx.setIllegal illegal).getRequestTx = tx.getRequestTx := rfl
  rw [txForSign, txForSign, hidx, hreq]
  split
  · rfl
  · unfold clone setIllegal
    cases tx.messages.mapM cloneMessage <;> rfl

/-- The mark only touches the scripts of a payment: if they run, the verdict is the one without
the mark. -/
lemma payment_setIllegal {used : List OutPoint} {r : PaymentResult} (illegal : Bool)
    (hid : tx.hash V.P = some txId) (h : V.validatePaymentPayload tx i p used sigs = some r)
    (hcode : r.code = .valid ∨ r.code = .orphan) (sigs' : SigState) :
    match V.signedMsg (tx.setIllegal illegal) txId i (.payment p) (used, sigs') with
    | some s => s.1 = r.usedUtxo ∧
        V.validatePaymentPayload (tx.setIllegal illegal) i p used sigs' = some ⟨r.code, s.1, s.2⟩
    | none => ∀ r', V.validatePaymentPayload (tx.setIllegal illegal) i p used sigs' = some r' →
        r'.code = .invalidPaymentInput := by
  have hid' : (tx.setIllegal illegal).hash V.P = some txId := hid
  simp only [validatePaymentPayload, hid, hid', do_some, validateInputs_setIllegal,
    signedMsg] at h ⊢
  by_cases hcount : p.inputs.length > 1000
  · rw [if_pos hcount] at h
    obtain rfl := some.inj h
    simp at hcode
  rw [if_neg hcount] at h ⊢
  by_cases hempty : p.inputs.isEmpty = true
  · rw [if_pos hempty] at h ⊢
    obtain rfl := some.inj h
    exact ⟨rfl, by rw [if_pos hempty]⟩
  rw [if_neg hempty] at h ⊢
  cases hinputs : V.validateInputs tx txId i p.inputs ⟨none, false, 0, used, []⟩ with
  | none => simp [hinputs] at h
  | some res =>
    simp only [hinputs, do_some, if_neg hempty] at h ⊢
    cases res with
    | error e =>
      obtain rfl := some.inj h
      exact ⟨rfl, rfl⟩
    | ok inputs =>
      obtain ⟨signTx, hsign, h⟩ := do_eq_some.1 h
      have hsome := txForSign_setIllegal_isSome tx illegal i
      rw [hsign] at hsome
      obtain ⟨signTx', hsign'⟩ := isSome_iff_exists.1 hsome
      simp only [hsign', do_some, bind_some]
      -- without the mark the scripts ran
      have hr : r.usedUtxo = inputs.usedUtxo ∧
          r.code = V.checkOutputs i p inputs.asset inputs.totalInput := by
        split at h
        · cases h
        · obtain rfl := some.inj h
          simp at hcode
        · obtain rfl := some.inj h
          exact ⟨rfl, rfl⟩
      rcases V.scriptValidate1Msg (lockScriptOf inputs.utxoScripts) signTx' i sigs' with
        ⟨sigs₁, _ | e⟩
      · exact ⟨hr.1.symm, by rw [hr.2]⟩
      intro r' hr'
      split at hr'
      · cases hr'
      · exact (some.inj hr') ▸ rfl
      · next heq => cases heq

/-! ### The walk -/

lemma validateRequestMsg_sigs {code : ValidationCode} {sys : Bool}
    (h : validateRequestMsg i s code sys = .go s₁) (sigs : SigState) :
    validateRequestMsg i { s with sigs } code sys = .go { s₁ with sigs } := by
  unfold validateRequestMsg at h ⊢
  split at h
  · cases h
  next hreq =>
    obtain ⟨hcode, rfl⟩ := goIfValid_go h
    rw [if_neg hreq, goIfValid, if_pos hcode]

/-- A message that went through without the mark goes through with it exactly if its signature
checks pass. -/
lemma validateMsg_setIllegal (illegal : Bool) {m : Message}
    (hid : tx.hash V.P = some txId) (h : V.validateMsg tx true i m s = some (.go s₁))
    (sigs' : SigState) :
    match V.signedMsg (tx.setIllegal illegal) txId i m (s.usedUtxo, sigs') with
    | some u => u.1 = s₁.usedUtxo ∧
        V.validateMsg (tx.setIllegal illegal) true i m { s with sigs := sigs' } =
          some (.go { s₁ with sigs := u.2 })
    | none => ∀ v, V.validateMsg (tx.setIllegal illegal) true i m { s with sigs := sigs' } =
        some v → ∃ code sigs, v = .stop code sigs ∧ code ≠ .valid := by
  cases m with
  | payment p =>
    obtain ⟨r, hr, hcode, hmint, rfl⟩ := payment_go h
    have hpay := payment_setIllegal illegal hid hr hcode sigs'
    have hmint' : ¬ (i ≠ 0 ∧ p.isCoinbase = true ∧ (!s.isSysContractCall) = true) := by
      rintro ⟨hi, hcoin, hsys⟩
      simp [hmint hi hcoin] at hsys
    simp only [validateMsg, validatePaymentMsg, Bool.not_true, Bool.false_eq_true, and_false,
      if_false, bind_eq_bind]
    split at hpay
    · obtain ⟨hused, hpay⟩ := hpay
      refine ⟨hused, ?_⟩
      rw [hpay, bind_some, if_neg (by rcases hcode with h | h <;> simp [h]), if_neg hmint']
      simp only [hused]
    intro v hv
    obtain ⟨r', hr', hv⟩ := do_eq_some.1 hv
    have hinvalid := hpay r' hr'
    rw [if_pos (by simp [hinvalid])] at hv
    obtain rfl := some.inj hv
    exact ⟨_, _, rfl, by simp [hinvalid]⟩
  | signature p =>
    simp only [validateMsg, do_eq_some] at h
    obtain ⟨code, -, h⟩ := h
    obtain rfl := (goIfValid_go (some.inj h)).2
    simp only [signedMsg, validateMsg, bind_eq_bind]
    split
    · next u hu =>
        split at hu
        · next hvalid =>
            obtain rfl := some.inj hu
            exact ⟨rfl, by rw [hvalid]; rfl⟩
        · cases hu
    rename_i hu
    split at hu
    · cases hu
    rename_i hinvalid
    intro v hv
    obtain ⟨code', hcode', hv⟩ := do_eq_some.1 hv
    have hne : code' ≠ .valid := fun heq => hinvalid (heq ▸ hcode')
    obtain rfl := some.inj hv
    exact ⟨code', _, if_neg hne, hne⟩
  | contractTpl p | contractStopRequest p | data p =>
    obtain ⟨hcode, rfl⟩ := goIfValid_go (some.inj h)
    exact ⟨rfl, congrArg some (if_pos hcode)⟩
  | contractTplRequest p =>
    have hcheck : V.checkTplRequest (tx.setIllegal illegal) p = V.checkTplRequest tx p := rfl
    simp only [validateMsg, validateTplRequest, hcheck] at h ⊢
    split at h
    · cases h
    next hset =>
      obtain ⟨code, hcode, hgo⟩ := map_eq_some_iff.1 h
      rw [hcode]
      refine ⟨by rw [(validateRequestMsg_first hgo).2], ?_⟩
      rw [if_neg hset, map_some, validateRequestMsg_sigs hgo sigs']
  | contractDeployRequest p | contractInvokeRequest p =>
    have hs := (validateRequestMsg_first (some.inj h)).2
    exact ⟨by rw [hs], congrArg some (validateRequestMsg_sigs (some.inj h) sigs')⟩
  | contractDeploy p | contractInvoke p | contractStop p =>
    cases h
    exact ⟨rfl, rfl⟩
  | accountUpdate p | unknown app => cases h

/-- The walk that was valid without the mark is valid with it exactly if the signature checks of
its messages pass. -/
lemma validateMsgs_setIllegal (illegal : Bool) (hid : tx.hash V.P = some txId) :
    ∀ {l : List (Message × Nat)} {s : LoopState} {sigs : SigState},
    V.validateMsgs tx true l s = some (.valid, sigs) → ∀ sigs' sigs₁ : SigState,
      (V.validateMsgs (tx.setIllegal illegal) true l { s with sigs := sigs' } =
        some (.valid, sigs₁) ↔
      V.signedMsgs (tx.setIllegal illegal) txId l (s.usedUtxo, sigs') = some sigs₁) := by
  intro l
  induction l with
  | nil =>
      intro s sigs h sigs' sigs₁
      have horphan : s.isOrphanTx = false := by
        by_contra ho
        simp [validateMsgs, ho] at h
      simp [validateMsgs, signedMsgs, horphan]
  | cons mi rest ih =>
      obtain ⟨m, i⟩ := mi
      intro s sigs h sigs' sigs₁
      simp only [validateMsgs, do_eq_some] at h
      obtain ⟨verdict, hstep, h⟩ := h
      cases verdict with
      | stop code sigs₂ =>
        cases h
        have hm := isAccountUpdate_of_stop_valid hstep
        rw [signedMsgs, if_pos hm]
        cases m with
        | accountUpdate p =>
          have hvote := (Verdict.stop.inj (some.inj hstep)).1
          simp [validateMsgs, validateMsg, hvote]
        | _ => cases hm
      | go s₁ =>
        have hm : ¬ m.isAccountUpdate = true := fun hm => not_go_of_isAccountUpdate hm hstep
        have hmsg := validateMsg_setIllegal illegal hid hstep sigs'
        rw [signedMsgs, if_neg hm, validateMsgs]
        split at hmsg
        · next u hu =>
            rw [hu, hmsg.2, bind_some, ← Prod.mk.eta (p := u), hmsg.1]
            exact ih h u.2 sigs₁
        rename_i hu
        rw [hu, bind_none]
        refine iff_of_false ?_ (some_ne_none _).symm
        intro hvalid
        obtain ⟨v, hv, hvalid⟩ := do_eq_some.1 hvalid
        obtain ⟨code, sigs₂, rfl, hne⟩ := hmsg v hv
        exact hne (Prod.mk.inj (some.inj hvalid)).1

/-! ### Fees -/

lemma getTxFee_setIllegal (queryUtxo : OutPoint → Option Utxo) :
    (tx.setIllegal illegal).getTxFee queryUtxo = tx.getTxFee queryUtxo := by
  have hencode : ∀ e : Except FeeError AmountAsset,
      ((tx.setIllegal illegal).encodeRLP.map fun _ => e) = tx.encodeRLP.map fun _ => e := by
    intro e
    unfold encodeRLP rlpItem setIllegal
    cases tx.messages.mapM messageTemp <;> rfl
  simp only [getTxFee, hencode]
  rfl

/-- The mark can change who gets a part of the fee, not the token it is paid in. -/
lemma feeVerdict_setIllegal (illegal : Bool) {msgs : List Message}
    (hmsgs : tx.txMessages = some msgs) {l : List Addition}
    (h : V.feeVerdict tx = some (true, l)) :
    ∃ l', V.feeVerdict (tx.setIllegal illegal) = some (true, l') := by
  have hfee' := @getTxFee_setIllegal tx illegal V.getUtxoEntry
  obtain ⟨allocation, hallocation, hcheck⟩ := bind_eq_some_iff.1 h
  obtain ⟨fee, hfee⟩ : ∃ fee, tx.getTxFee V.getUtxoEntry = some (.ok fee) := by
    simp only [feeAllocate, do_eq_some] at hallocation
    obtain ⟨fee | fee, hfee, hallocation⟩ := hallocation
    · cases hallocation
      obtain ⟨_, -, ⟨⟩⟩ := map_eq_some_iff.1 hcheck
    · exact ⟨fee, hfee⟩
  rw [hfee] at hfee'
  by_cases hzero : fee.amount = 0
  · refine ⟨[], ?_⟩
    simp only [feeVerdict, feeAllocate, hfee', do_some, if_pos hzero, bind_some]
    rfl
  have hshared := (exists_feeVerdict_iff_of_ok hmsgs hfee).1 ⟨_, h⟩ hzero
  have hmsgs' : (tx.setIllegal illegal).txMessages = some msgs := hmsgs
  obtain ⟨r, hr⟩ := (exists_feeVerdict_iff_of_ok (V := V) hmsgs' hfee').2
    fun _ => ⟨hshared.signers, hshared.asset, hshared.gasToken⟩
  -- both allocations are in the asset of the fee
  obtain ⟨_, rfl, hne, hasset⟩ := asset_of_feeAllocate hfee hzero hallocation
  obtain ⟨allocation', hallocation', hcheck'⟩ := bind_eq_some_iff.1 hr
  obtain ⟨l', rfl, hne', hasset'⟩ := asset_of_feeAllocate hfee' hzero hallocation'
  obtain ⟨ok, hok, heq⟩ := map_eq_some_iff.1 hcheck
  obtain ⟨ok', hok', rfl⟩ := map_eq_some_iff.1 hcheck'
  rw [checkGasToken_eq hne' hasset', ← checkGasToken_eq hne hasset, hok] at hok'
  obtain rfl := some.inj hok'
  exact ⟨l', by rw [hr, (Prod.mk.inj heq).1]⟩

lemma validateTxFeeEnough_setIllegal (extSize extTime : V.fl.F) :
    V.validateTxFeeEnough (tx.setIllegal illegal) extSize extTime =
      V.validateTxFeeEnough tx extSize extTime := by
  unfold validateTxFeeEnough
  rw [size_setIllegal, getTxFee_setIllegal]
  rfl

lemma validateTxFeeValid_setIllegal (illegal : Bool) {msgs : List Message}
    (hmsgs : tx.txMessages = some msgs) {txFee : List Addition}
    (h : V.validateTxFeeValid tx = some (true, txFee)) :
    ∃ txFee', V.validateTxFeeValid (tx.setIllegal illegal) = some (true, txFee') := by
  obtain ⟨id, hid, -⟩ := do_eq_some.1 h
  have hid' : (tx.setIllegal illegal).requestHash V.P = some id := hid
  rw [validateTxFeeValid_eq hid] at h
  rw [validateTxFeeValid_eq hid', validateTxFeeEnough_setIllegal]
  split_ifs at h ⊢
  · obtain ⟨enough, henough, h⟩ := bind_eq_some_iff.1 h
    rw [henough, bind_some]
    cases enough with
    | false => obtain ⟨_, -, ⟨⟩⟩ := map_eq_some_iff.1 h
    | true => exact feeVerdict_setIllegal illegal hmsgs h
  · exact feeVerdict_setIllegal illegal hmsgs h

/-! ### One transaction -/

lemma checkContractTx_marked (hV : V.IgnoresMark) (hmark : tx.Marked tx') (msgs : List Message) :
    V.checkContractTx tx' true msgs = V.checkContractTx tx true msgs := by
  rcases hmark with rfl | ⟨huser, illegal, rfl⟩
  · rfl
  have hsystem : tx.isSystemContract = false := by
    simpa using (Bool.and_eq_true_iff.1 huser).2
  have hcheck : V.contractTxCheck (tx.setIllegal illegal) = V.contractTxCheck tx :=
    (hV.userContract (tx.setIllegal illegal) hsystem).trans (hV.userContract tx hsystem).symm
  rw [checkContractTx, checkContractTx, hcheck]
  rfl

/-- What marks can change in the verdict on a valid transaction is the outcome of its signature
checks. -/
theorem validateTx_marked (hV : V.IgnoresMark) (hmark : tx.Marked tx') (h : Accepts V tx sigs)
    (sigs' sigs₁ : SigState) :
    (∃ txFee, V.validateTx tx' true sigs' = some ⟨.valid, txFee, sigs₁⟩) ↔
      V.signatureChecks tx' sigs' = some sigs₁ := by
  have hcontract := checkContractTx_marked hV hmark
  obtain ⟨illegal, rfl⟩ := hmark.eq_setIllegal
  obtain ⟨txFee, sigs₂, hr⟩ := accepts_iff.1 h
  obtain ⟨hreq, msgs, p, rest, hmsgs, rfl, ⟨txFee, hfee⟩, hsize, hcode, hwalk⟩ :=
    validateTx_valid_iff.1 ⟨txFee, hr⟩
  -- a walk begins with a payment, whose validation computes the id
  have hfirst := hwalk
  simp only [zipIdx_cons, validateMsgs, validateMsg, validatePaymentMsg, validatePaymentPayload,
    Bool.not_true, Bool.false_eq_true, and_false, if_false, do_eq_some] at hfirst
  obtain ⟨_, ⟨_, ⟨txId, hid, -⟩, -⟩, -⟩ := hfirst
  have hmarked := validateMsgs_setIllegal illegal hid hwalk sigs' sigs₁
  have hid' : (tx.setIllegal illegal).hash V.P = some txId := hid
  have hmsgs' : (tx.setIllegal illegal).txMessages = some (.payment p :: rest) := hmsgs
  have hchecks : V.signatureChecks (tx.setIllegal illegal) sigs' =
      V.signedMsgs (tx.setIllegal illegal) txId (Message.payment p :: rest).zipIdx ([], sigs') := by
    rw [signatureChecks, hid', hmsgs']
    rfl
  rw [hchecks, validateTx_valid_iff]
  constructor
  · rintro ⟨-, msgs, p', rest', heq, rfl, -, -, -, hwalk'⟩
    rw [hmsgs'] at heq
    rw [← some.inj heq] at hwalk'
    exact hmarked.1 hwalk'
  intro hsigned
  refine ⟨hreq, _, p, rest, hmsgs', rfl, validateTxFeeValid_setIllegal illegal hmsgs hfee, ?_, ?_,
    hmarked.2 hsigned⟩
  · rw [size_setIllegal]
    exact hsize
  · rw [hcontract]
    exact hcode

/-! ### The transactions of a unit -/

section

variable (V : Validate)

/-- Whether every transaction of a list is valid, each on the store with the outputs of its
predecessors laid over it.
Source: `validator/validator.go`, `validateTransactions`, the calls of `validateTx` -/
def validInOrder : List Transaction → List (OutPoint × Utxo) → SigState → Bool
  | [], _, _ => true
  | tx :: txs, unitUtxo, sigs =>
    match (V.withUnitUtxo unitUtxo).validateTx tx true sigs, tx.getNewUtxos V.P with
    | some r, some newUtxos =>
      r.code = .valid && validInOrder txs (newUtxos.reverse ++ unitUtxo) r.sigs
    | _, _ => false

/-- Whether the signature checks of every transaction of a list pass. -/
def signedInOrder : List Transaction → List (OutPoint × Utxo) → SigState → Bool
  | [], _, _ => true
  | tx :: txs, unitUtxo, sigs =>
    match (V.withUnitUtxo unitUtxo).signatureChecks tx sigs, tx.getNewUtxos V.P with
    | some sigs, some newUtxos => signedInOrder txs (newUtxos.reverse ++ unitUtxo) sigs
    | _, _ => false

end

lemma validInOrder_cons :
    V.validInOrder (tx :: txs) unitUtxo sigs = true ↔
      ∃ txFee sigs₁ newUtxos,
        (V.withUnitUtxo unitUtxo).validateTx tx true sigs = some ⟨.valid, txFee, sigs₁⟩ ∧
        tx.getNewUtxos V.P = some newUtxos ∧
        V.validInOrder txs (newUtxos.reverse ++ unitUtxo) sigs₁ = true := by
  rw [validInOrder]
  constructor
  · intro h
    split at h
    · next r newUtxos hr hnew =>
        rw [Bool.and_eq_true, decide_eq_true_eq] at h
        exact ⟨r.txFee, r.sigs, newUtxos, by rw [hr, ← h.1], hnew, h.2⟩
    · cases h
  · rintro ⟨txFee, sigs₁, newUtxos, hr, hnew, h⟩
    simp [hr, hnew, h]

lemma signedInOrder_cons :
    V.signedInOrder (tx :: txs) unitUtxo sigs = true ↔
      ∃ sigs₁ newUtxos, (V.withUnitUtxo unitUtxo).signatureChecks tx sigs = some sigs₁ ∧
        tx.getNewUtxos V.P = some newUtxos ∧
        V.signedInOrder txs (newUtxos.reverse ++ unitUtxo) sigs₁ = true := by
  rw [signedInOrder]
  constructor
  · intro h
    split at h
    · next sigs₁ newUtxos hr hnew => exact ⟨sigs₁, newUtxos, hr, hnew, h⟩
    · cases h
  · rintro ⟨sigs₁, newUtxos, hr, hnew, h⟩
    simp [hr, hnew, h]

/-- The overlay of the unit's outputs leaves the queries alone that take a transaction. -/
lemma IgnoresMark.withUnitUtxo (hV : V.IgnoresMark) (unitUtxo : List (OutPoint × Utxo)) :
    (V.withUnitUtxo unitUtxo).IgnoresMark :=
  ⟨hV.userContract⟩

lemma marked_valid_from (hV : V.IgnoresMark) {txs' : List Transaction}
    (hmarks : List.Forall₂ Transaction.Marked txs txs') :
    ∀ {unitUtxo : List (OutPoint × Utxo)} {sigs sigs' : SigState},
      V.validInOrder txs unitUtxo sigs = true →
      (V.validInOrder txs' unitUtxo sigs' = true ↔ V.signedInOrder txs' unitUtxo sigs' = true) := by
  induction hmarks with
  | nil => exact fun _ => Iff.rfl
  | @cons tx tx' txs txs' hmark _ ih =>
    intro unitUtxo sigs sigs' hvalid
    obtain ⟨txFee, sigs₁, newUtxos, hr, hnew, hrest⟩ := validInOrder_cons.1 hvalid
    have hchecks := validateTx_marked (hV.withUnitUtxo unitUtxo) hmark
      (accepts_iff.2 ⟨txFee, sigs₁, hr⟩) sigs'
    have hnew' : tx'.getNewUtxos V.P = some newUtxos := by
      obtain ⟨illegal, rfl⟩ := hmark.eq_setIllegal
      exact hnew
    rw [validInOrder_cons, signedInOrder_cons]
    constructor
    · rintro ⟨txFee', sigs₂, newUtxos', hr', hnew₂, hrest'⟩
      obtain rfl := some.inj (hnew'.symm.trans hnew₂)
      exact ⟨sigs₂, newUtxos, (hchecks sigs₂).1 ⟨txFee', hr'⟩, hnew', (ih hrest).1 hrest'⟩
    rintro ⟨sigs₂, newUtxos', hsigned, hnew₂, hrest'⟩
    obtain rfl := some.inj (hnew'.symm.trans hnew₂)
    obtain ⟨txFee', hr'⟩ := (hchecks sigs₂).2 hsigned
    exact ⟨txFee', sigs₂, newUtxos, hr', hnew', (ih hrest).2 hrest'⟩

/-- A list of transactions that is valid in order stays valid for a fresh node under marks exactly
if all signature checks pass over the marked transactions. -/
theorem marked_valid_iff (hV : V.IgnoresMark) {txs txs' : List Transaction}
    (hmarks : List.Forall₂ Transaction.Marked txs txs') {sigs : SigState}
    (hvalid : V.validInOrder txs [] sigs = true) (fresh : SigState) :
    V.validInOrder txs' [] fresh = true ↔ V.signedInOrder txs' [] fresh = true :=
  marked_valid_from hV hmarks hvalid

/-! ### A marked result -/

namespace MarkedResult

open SmallNode StrangersPayment

/-- A call of a user contract that read an entry the state has not. -/
def messages : List Message :=
  [payAll 1 10, .contractInvokeRequest ⟨contractId, [], 0⟩,
    .contractInvoke ⟨contractId, [], [⟨ascii "owner", some ⟨some ⟨ptnCoin, 5⟩, 1⟩, []⟩], [], [],
      ⟨0, []⟩⟩]

/-- The juror's signature over the result with or without the mark. -/
def signature (illegal : Bool) : SignatureSet :=
  ⟨jurorKey, jurorKey ++ ((Transaction.mk messages [] illegal).encodeRLP).getD []⟩

/-- The result with signatures. -/
def result (signatures : List SignatureSet) : Transaction :=
  ⟨messages ++ [.signature ⟨signatures⟩], [], false⟩

lemma ignoresMark : validator.IgnoresMark :=
  ⟨fun _ _ => rfl⟩

end MarkedResult

open MarkedResult SmallNode StrangersPayment in
/-- The jury signed both forms of the result, so the mark does no harm. -/
theorem MarkedResult.valid_signed_twice :
    validator.validInOrder
      [(result [signature false, signature true]).setIllegal true] [] noSigs = true := by
  have hmarks : List.Forall₂ Transaction.Marked [result [signature false, signature true]]
      [(result [signature false, signature true]).setIllegal true] :=
    .cons (.inr ⟨by decide +kernel, true, rfl⟩) .nil
  have hvalid : validator.validInOrder [result [signature false, signature true]] [] noSigs =
      true := by decide +kernel
  exact (marked_valid_iff ignoresMark hmarks hvalid noSigs).2 (by decide +kernel)

open MarkedResult SmallNode StrangersPayment in
/-- The jury signed the result before the producer marked it: every other node rejects it. -/
theorem MarkedResult.rejected :
    validator.validInOrder [result [signature false]] [] noSigs = true ∧
      markTxIllegal primitives Db.empty (result [signature false]) =
        some ((result [signature false]).setIllegal true) ∧
      (validator.validateTx ((result [signature false]).setIllegal true) true noSigs).map
        TxResult.code = some .invalidContractSign := by
  refine ⟨?_, ?_, ?_⟩ <;> decide +kernel

end Validate

end ZwsChain
