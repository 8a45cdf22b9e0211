import ZwsChain.Lib.Runs
import ZwsChain.Validator.PaymentFacts
import ZwsChain.Validator.Tx

/-!
# What an accepted transaction went through

Inversion of `validateTx`. Later modules never unfold it: they start from `Accepts`, take an
`Accepted` out of it (`Accepts.accepted`) and look a message up in its walk.

* `Walk`: a run of the message loop in which every message lets it go on.
* `checkedPart`: the messages in front of the first account update. These are the ones that a
  verdict of `valid` says anything about (`walk_of_valid`).
* `Walk.of_mem`: the step a message of the walk took.
* `payment_go`, `other_go`: what a step of the walk did.
-/

open List Option

namespace ZwsChain

open TxScript (SigState)

/-! ### Copies of messages -/

/-- Whether a message is an account update. -/
def Message.isAccountUpdate : Message → Bool
  | .accountUpdate _ => true
  | _ => false

variable {m m' : Message}

lemma Message.eq_payment (h : m.isPayment = true) : ∃ p, m = .payment p := by
  cases m with
  | payment p => exact ⟨p, rfl⟩
  | _ => cases h

lemma copyMessage_of_ne (h : copyMessage m = some m') (hm : ∀ p, m ≠ .contractInvoke p) :
    m' = m := by
  rcases copyMessage_eq_some h with rfl | ⟨p, rfl, -⟩
  · rfl
  · exact absurd rfl (hm p)

lemma isAccountUpdate_of_copyMessage (h : copyMessage m = some m') :
    m'.isAccountUpdate = m.isAccountUpdate :=
  copyMessage_congr Message.isAccountUpdate (fun _ _ => rfl) h

lemma map_copies {msgs copies : List Message} {β : Type} (f : Message → β)
    (hf : ∀ p readSet, f (.contractInvoke { p with readSet }) = f (.contractInvoke p))
    (h : msgs.mapM copyMessage = some copies) : copies.map f = msgs.map f := by
  have h2 := Lib.forall₂_of_mapM h
  clear h
  induction h2 with
  | nil => rfl
  | cons hm _ ih => rw [map_cons, map_cons, ih, copyMessage_congr f hf hm]

namespace Transaction

variable {msgs : List Message} {tx : Transaction}

section

variable (h : tx.txMessages = some msgs)
include h

lemma txMessages_forall₂ :
    List.Forall₂ (copyMessage · = some ·) tx.messages msgs :=
  Lib.forall₂_of_mapM h

lemma exists_of_mem_txMessages (hm' : m' ∈ msgs) :
    ∃ m ∈ tx.messages, copyMessage m = some m' :=
  Lib.exists_of_mem_mapM h hm'

/-- The copy at an index is the copy of the message at that index. -/
lemma getElem?_txMessages (i : Nat) :
    msgs[i]? = tx.messages[i]?.bind copyMessage :=
  Lib.getElem?_of_forall₂ (txMessages_forall₂ h) i

/-- Messages other than invoke results are where they are in the copy. -/
lemma getElem?_txMessages_iff
    (hm : ∀ p, m ≠ .contractInvoke p) (i : Nat) : msgs[i]? = some m ↔ tx.messages[i]? = some m := by
  constructor
  · intro hi
    rw [getElem?_txMessages h, bind_eq_some_iff] at hi
    obtain ⟨m', hm', hc⟩ := hi
    rcases copyMessage_eq_some hc with rfl | ⟨p, -, rfl⟩
    · exact hm'
    · exact absurd rfl (hm _)
  intro hi
  have hlen := (txMessages_forall₂ h).length_eq
  obtain ⟨hlt, -⟩ := List.getElem?_eq_some_iff.1 hi
  have hget := getElem?_txMessages h i
  rw [hi, getElem?_eq_getElem (hlen ▸ hlt)] at hget
  rw [getElem?_eq_getElem (hlen ▸ hlt)]
  exact congrArg some (copyMessage_of_ne hget.symm hm)

end

/-- Whether no account update stands at an index or in front of it. -/
def reaches (tx : Transaction) (i : Nat) : Bool :=
  (tx.messages.take (i + 1)).all fun m => !m.isAccountUpdate

lemma reaches_of_txMessages (h : tx.txMessages = some msgs) (i : Nat) :
    tx.reaches i = (msgs.take (i + 1)).all fun m => !m.isAccountUpdate := by
  have h2 := txMessages_forall₂ h
  rw [reaches]
  clear h
  generalize tx.messages = l at h2
  induction h2 generalizing i with
  | nil => rfl
  | @cons m m' l l' hm _ ih =>
    rw [take_succ_cons, take_succ_cons, all_cons, all_cons, isAccountUpdate_of_copyMessage hm]
    cases i with
    | zero => rfl
    | succ i => rw [ih i]

end Transaction

namespace Validate

variable {V : Validate} {tx : Transaction}

/-! ### The walk -/

/-- The messages in front of the first account update, with their indices. -/
def checkedPart (msgs : List (Message × Nat)) : List (Message × Nat) :=
  msgs.takeWhile fun x => !x.1.isAccountUpdate

variable {i : Nat} {m : Message} {msgs : List Message} {code : ValidationCode} {s s' : LoopState}
  {sigs : SigState} {sys : Bool} {l : List (Message × Nat)} {p : PaymentPayload}

lemma mem_checkedPart_zipIdx {m : Message} {i : Nat} : ∀ {msgs : List Message} {k : Nat},
    (m, k + i) ∈ checkedPart (msgs.zipIdx k) ↔
      msgs[i]? = some m ∧ (msgs.take (i + 1)).all (fun m => !m.isAccountUpdate) = true
  | [], k => by simp [checkedPart]
  | m' :: msgs, k => by
      rw [checkedPart, zipIdx_cons, takeWhile_cons, take_succ_cons, all_cons]
      by_cases hm' : m'.isAccountUpdate = true
      · simp [hm']
      rw [if_pos (by simpa using hm'), mem_cons]
      cases i with
      | zero =>
        have hnot : (m, k) ∉ checkedPart (msgs.zipIdx (k + 1)) := by
          intro hmem
          have := le_snd_of_mem_zipIdx ((takeWhile_sublist _).mem hmem)
          simp at this
        rw [checkedPart] at hnot
        simp [hnot, hm', eq_comm]
      | succ i =>
        have ih := @mem_checkedPart_zipIdx m i msgs (k + 1)
        rw [checkedPart, Nat.add_right_comm] at ih
        simpa [hm', Nat.add_assoc] using ih

/-- The checked part of a transaction: the messages that an account update does not shield. -/
lemma mem_checkedPart (h : tx.txMessages = some msgs) :
    (m, i) ∈ checkedPart msgs.zipIdx ↔ msgs[i]? = some m ∧ tx.reaches i = true := by
  have := @mem_checkedPart_zipIdx m i msgs 0
  rw [Nat.zero_add] at this
  rw [this, Transaction.reaches_of_txMessages h]

/-- A run of the message loop of a full transaction in which every message lets it go on. -/
inductive Walk (V : Validate) (tx : Transaction) :
    List (Message × Nat) → LoopState → LoopState → Prop
  | nil (s : LoopState) : Walk V tx [] s s
  | cons {m : Message} {i : Nat} {rest : List (Message × Nat)} {s s₁ s' : LoopState}
      (hstep : V.validateMsg tx true i m s = some (.go s₁)) (hrest : Walk V tx rest s₁ s') :
      Walk V tx ((m, i) :: rest) s s'

lemma goIfValid_ne_stop_valid : goIfValid code s ≠ .stop .valid sigs := by
  unfold goIfValid
  split
  · exact nofun
  · next h => exact fun heq => h (Verdict.stop.inj heq).1

lemma validateRequestMsg_ne_stop_valid : validateRequestMsg i s code sys ≠ .stop .valid sigs := by
  unfold validateRequestMsg
  split
  · exact nofun
  · exact goIfValid_ne_stop_valid

/-- A template request is a request like the others, with a check that can crash. -/
lemma exists_of_validateTplRequest {p : ContractInstallRequestPayload} {v : Verdict}
    (h : V.validateTplRequest tx i p s = some v) :
    ∃ code, validateRequestMsg i s code false = v ∧
      (s.hasRequestMsg = false → V.checkTplRequest tx p = some code) := by
  unfold validateTplRequest at h
  split at h
  · next hset =>
      refine ⟨.valid, ?_, fun hnot => by simp [hnot] at hset⟩
      rw [validateRequestMsg, if_pos hset, some.inj h]
  · obtain ⟨code, hcode, hv⟩ := map_eq_some_iff.1 h
    exact ⟨code, hv, fun _ => hcode⟩

/-- Only an account update ends the walk with `valid`. -/
lemma isAccountUpdate_of_stop_valid {isFullTx : Bool}
    (h : V.validateMsg tx isFullTx i m s = some (.stop .valid sigs)) :
    m.isAccountUpdate = true := by
  cases m with
  | accountUpdate p => rfl
  | payment p =>
    rw [validateMsg, validatePaymentMsg] at h
    split at h
    · cases h
    obtain ⟨r, -, h⟩ := do_eq_some.1 h
    split at h
    · next hc => exact absurd (Verdict.stop.inj (some.inj h)).1 hc.1
    · split at h <;> cases h
  | signature p =>
    simp only [validateMsg, do_eq_some] at h
    obtain ⟨code, -, h⟩ := h
    exact absurd (some.inj h) goIfValid_ne_stop_valid
  | contractTpl p | contractStopRequest p | data p =>
    exact absurd (some.inj h) goIfValid_ne_stop_valid
  | contractTplRequest p =>
    obtain ⟨code, hcode, -⟩ := exists_of_validateTplRequest h
    exact absurd hcode validateRequestMsg_ne_stop_valid
  | contractDeployRequest p | contractInvokeRequest p =>
    exact absurd (some.inj h) validateRequestMsg_ne_stop_valid
  | contractDeploy p | contractInvoke p | contractStop p | unknown app =>
    exact absurd (some.inj h) nofun

lemma not_go_of_isAccountUpdate (hm : m.isAccountUpdate = true) :
    V.validateMsg tx true i m s ≠ some (.go s') := by
  cases m with
  | accountUpdate p => exact nofun
  | _ => cases hm

/-- A verdict of `valid` says that the walk went through the checked part and, if that is all
there is, met no missing output. -/
lemma walk_of_valid : ∀ {l : List (Message × Nat)} {s : LoopState},
    V.validateMsgs tx true l s = some (.valid, sigs) →
      ∃ s', Walk V tx (checkedPart l) s s' ∧
        ((∀ x ∈ l, x.1.isAccountUpdate = false) → s'.isOrphanTx = false)
  | [], s, h => by
      refine ⟨s, .nil s, fun _ => ?_⟩
      by_contra ho
      simp [validateMsgs, ho] at h
  | (m, i) :: rest, s, h => by
      simp only [validateMsgs, do_eq_some] at h
      obtain ⟨verdict, hstep, h⟩ := h
      cases verdict with
      | stop code sigs' =>
        cases h
        have hm := isAccountUpdate_of_stop_valid hstep
        refine ⟨s, ?_, fun hall => ?_⟩
        · simpa [checkedPart, hm] using Walk.nil s
        · exact absurd (hall _ mem_cons_self) (by simp [hm])
      | go s₁ =>
        have hm : m.isAccountUpdate = false := by
          by_contra hm
          exact not_go_of_isAccountUpdate (by simpa using hm) hstep
        obtain ⟨s', hwalk, horphan⟩ := walk_of_valid h
        refine ⟨s', ?_, fun hall => horphan fun x hx => hall x (mem_cons_of_mem _ hx)⟩
        rw [checkedPart, takeWhile_cons_of_pos (by simp [hm])]
        exact .cons hstep hwalk

/-- The step that a message of the walk took, with the walks around it. -/
lemma Walk.of_mem (h : Walk V tx l s s') {x : Message × Nat} (hx : x ∈ l) :
    ∃ pre post s₁ s₂, l = pre ++ x :: post ∧ Walk V tx pre s s₁ ∧
      V.validateMsg tx true x.2 x.1 s₁ = some (.go s₂) ∧ Walk V tx post s₂ s' := by
  induction h with
  | nil => cases hx
  | @cons m i rest s s₁ s' hstep hrest ih =>
    rcases mem_cons.1 hx with rfl | hx
    · exact ⟨[], rest, s, s₁, rfl, .nil s, hstep, hrest⟩
    · obtain ⟨pre, post, t₁, t₂, rfl, hpre, hx, hpost⟩ := ih hx
      exact ⟨(m, i) :: pre, post, t₁, t₂, rfl, .cons hstep hpre, hx, hpost⟩

/-! ### Steps of the walk -/

/-- A payment of the walk is valid or misses an output; one that mints and is not message 0 has a
call of a system contract in front of it. -/
lemma payment_go (h : V.validateMsg tx true i (.payment p) s = some (.go s')) :
    ∃ r, V.validatePaymentPayload tx i p s.usedUtxo s.sigs = some r ∧
      (r.code = .valid ∨ r.code = .orphan) ∧
      (i ≠ 0 → p.isCoinbase = true → s.isSysContractCall = true) ∧
      s' = { s with
        usedUtxo := r.usedUtxo
        isOrphanTx := s.isOrphanTx || r.code = .orphan
        sigs := r.sigs } := by
  simp only [validateMsg, validatePaymentMsg, Bool.not_true, Bool.false_eq_true, and_false,
    if_false, do_eq_some] at h
  obtain ⟨r, hr, h⟩ := h
  refine ⟨r, hr, ?_⟩
  split at h
  · cases h
  rename_i hcode
  split at h
  · cases h
  rename_i hmint
  refine ⟨?_, ?_, (Verdict.go.inj (some.inj h)).symm⟩
  · by_contra hne
    exact hcode (not_or.1 hne)
  intro hi hcoin
  by_contra hsys
  exact hmint ⟨hi, hcoin, by simpa using hsys⟩

lemma goIfValid_go (h : goIfValid code s = .go s') : code = .valid ∧ s' = s := by
  unfold goIfValid at h
  split at h
  · next hc => exact ⟨hc, (Verdict.go.inj h).symm⟩
  · cases h

/-- A request that goes through is the first one. -/
lemma validateRequestMsg_first (h : validateRequestMsg i s code sys = .go s') :
    s.hasRequestMsg = false ∧ s' = { s with
      hasRequestMsg := true
      requestMsgIndex := i
      isSysContractCall := s.isSysContractCall || sys } := by
  unfold validateRequestMsg at h
  split at h
  · cases h
  next hset => exact ⟨by simpa using hset, (goIfValid_go h).2⟩

/-- A message that is no payment leaves the marked outpoints, the orphan flag and the signature
state alone; the flag of a system contract's call is only set by a request. -/
lemma other_go (h : V.validateMsg tx true i m s = some (.go s')) (hm : m.isPayment = false) :
    s'.usedUtxo = s.usedUtxo ∧ s'.isOrphanTx = s.isOrphanTx ∧ s'.sigs = s.sigs ∧
      (m.isRequest = false → s'.isSysContractCall = s.isSysContractCall) := by
  cases m with
  | payment p => cases hm
  | contractTpl p | contractStopRequest p | data p =>
    obtain rfl := (goIfValid_go (some.inj h)).2
    exact ⟨rfl, rfl, rfl, fun _ => rfl⟩
  | contractTplRequest p =>
    obtain ⟨code, hcode, -⟩ := exists_of_validateTplRequest h
    obtain rfl := (validateRequestMsg_first hcode).2
    exact ⟨rfl, rfl, rfl, nofun⟩
  | contractDeployRequest p | contractInvokeRequest p =>
    obtain rfl := (validateRequestMsg_first (some.inj h)).2
    exact ⟨rfl, rfl, rfl, nofun⟩
  | contractDeploy p | contractInvoke p | contractStop p =>
    cases h
    exact ⟨rfl, rfl, rfl, fun _ => rfl⟩
  | signature p =>
    simp only [validateMsg, do_eq_some] at h
    obtain ⟨code, -, h⟩ := h
    obtain rfl := (goIfValid_go (some.inj h)).2
    exact ⟨rfl, rfl, rfl, fun _ => rfl⟩
  | accountUpdate p | unknown app => cases h

/-- A signature message of the walk has passed its check. -/
lemma signature_go {p : SignaturePayload}
    (h : V.validateMsg tx true i (.signature p) s = some (.go s')) :
    V.validateContractSignature p.signatures tx true = some .valid := by
  simp only [validateMsg, do_eq_some] at h
  obtain ⟨code, hcode, h⟩ := h
  rw [hcode, (goIfValid_go (some.inj h)).1]

/-- A missing output is not forgotten along a walk. -/
lemma Walk.isOrphanTx_mono (h : Walk V tx l s s') (hs : s.isOrphanTx = true) :
    s'.isOrphanTx = true := by
  induction h with
  | nil => exact hs
  | @cons m i rest s s₁ s' hstep _ ih =>
    apply ih
    by_cases hm : m.isPayment = true
    · obtain ⟨p, rfl⟩ := Message.eq_payment hm
      obtain ⟨r, -, -, -, rfl⟩ := payment_go hstep
      simp [hs]
    · rw [(other_go hstep (by simpa using hm)).2.1, hs]

/-- Without a request no system contract is called. -/
lemma Walk.isSysContractCall_of_no_request (h : Walk V tx l s s')
    (hl : ∀ x ∈ l, x.1.isRequest = false) (hs : s.isSysContractCall = false) :
    s'.isSysContractCall = false := by
  induction h with
  | nil => exact hs
  | @cons m i rest s s₁ s' hstep _ ih =>
    refine ih (fun x hx => hl x (mem_cons_of_mem _ hx)) ?_
    by_cases hm : m.isPayment = true
    · obtain ⟨p, rfl⟩ := Message.eq_payment hm
      obtain ⟨r, -, -, -, rfl⟩ := payment_go hstep
      exact hs
    · rw [(other_go hstep (by simpa using hm)).2.2.2 (hl _ mem_cons_self), hs]

/-! ### Fees -/

/-- A fee is valid if it is high enough and its allocation, by the rule in force, is in the gas
token. -/
lemma validateTxFeeValid_eq_some_iff {txFee : List Addition} :
    V.validateTxFeeValid tx = some (true, txFee) ↔ (tx.requestHash V.P).isSome ∧
      (V.enableTxFeeCheck → V.validateTxFeeEnough tx (V.fl.ofNat 0) (V.fl.ofNat 0) = some true) ∧
      (if V.enableTxFeeCheck then
        tx.getTxFeeAllocate V.P V.getUtxoEntry V.fl V.contractFeeJuryPercent V.getScriptSigners
          (FixedBytes.zero 21) V.getJurorReward
      else
        tx.getTxFeeAllocateLegacyV1 V.P V.getUtxoEntry V.fl V.contractFeeJuryPercent
          V.getScriptSigners (FixedBytes.zero 21)) = some (.ok txFee) ∧
      V.checkGasToken txFee = some true := by
  have hallocation : ∀ allocation, V.checkFeeAllocate tx allocation = some (true, txFee) ↔
      allocation = .ok txFee ∧ V.checkGasToken txFee = some true := by
    intro allocation
    cases allocation with
    | error e => simp [checkFeeAllocate]
    | ok allocation =>
      simp only [checkFeeAllocate, map_eq_some_iff, Prod.mk.injEq, Except.ok.injEq]
      constructor
      · rintro ⟨_, hok, rfl, rfl⟩
        exact ⟨rfl, hok⟩
      · rintro ⟨rfl, hok⟩
        exact ⟨true, hok, rfl, rfl⟩
  unfold validateTxFeeValid
  cases tx.requestHash V.P with
  | none => simp
  | some reqHash =>
    split_ifs with hcheck
    · rcases V.validateTxFeeEnough tx _ _ with _ | _ | _ <;>
        rcases tx.getTxFeeAllocate _ _ _ _ _ _ _ with _ | allocation <;> simp [hcheck, hallocation]
    · rcases tx.getTxFeeAllocateLegacyV1 _ _ _ _ _ _ with _ | allocation <;>
        simp [hcheck, hallocation]

/-! ### Acceptance -/

/-- The verdict on a full transaction is `valid`. -/
def Accepts (V : Validate) (tx : Transaction) (sigs : SigState) : Prop :=
  (V.validateTx tx true sigs).map TxResult.code = some .valid

instance (V : Validate) (tx : Transaction) (sigs : SigState) : Decidable (Accepts V tx sigs) :=
  inferInstanceAs (Decidable (_ = _))

/-- What an accepted transaction passed; `msgs` are its messages as copied. -/
structure Accepted (V : Validate) (tx : Transaction) (sigs : SigState) (msgs : List Message)
    (s' : LoopState) : Prop where
  copies : tx.txMessages = some msgs
  first : ∃ p, msgs[0]? = some (.payment p)
  fee : ∃ txFee, V.validateTxFeeValid tx = some (true, txFee)
  size : ∃ n, tx.size = some n ∧ n ≤ 256 * 1024
  results : V.checkContractTx tx true msgs = .valid
  walk : Walk V tx (checkedPart msgs.zipIdx) (startState sigs) s'
  noOrphan : (∀ m ∈ msgs, m.isAccountUpdate = false) → s'.isOrphanTx = false

/-- What a verdict of `valid` says, check by check. -/
lemma validateTx_valid_iff {isFullTx : Bool} {sigs₁ : SigState} :
    (∃ txFee, V.validateTx tx isFullTx sigs = some ⟨.valid, txFee, sigs₁⟩) ↔
      (tx.requestHash V.P).isSome ∧ ∃ msgs p rest, tx.txMessages = some msgs ∧
        msgs = .payment p :: rest ∧ (∃ txFee, V.validateTxFeeValid tx = some (true, txFee)) ∧
        (∃ n, tx.size = some n ∧ n ≤ 256 * 1024) ∧ V.checkContractTx tx isFullTx msgs = .valid ∧
        V.validateMsgs tx isFullTx msgs.zipIdx (startState sigs) = some (.valid, sigs₁) := by
  constructor
  · rintro ⟨txFee, hr⟩
    simp only [validateTx, do_eq_some] at hr
    obtain ⟨reqHash, hreq, msgs, hmsgs, hr⟩ := hr
    refine ⟨hreq ▸ rfl, ?_⟩
    split at hr
    · next p rest =>
        obtain ⟨⟨pass, txFee'⟩, hfee, hr⟩ := do_eq_some.1 hr
        by_cases hpass : pass = true
        · simp only [hpass, Bool.not_true, Bool.false_eq_true, if_false, do_eq_some] at hr
          obtain ⟨n, hn, hr⟩ := hr
          split at hr
          · cases hr
          rename_i hsize
          split at hr
          · next hcode => exact absurd (congrArg TxResult.code (some.inj hr)) hcode
          rename_i hcode
          obtain ⟨⟨code, sigs'⟩, hwalk, hr⟩ := do_eq_some.1 hr
          obtain ⟨rfl, -, rfl⟩ := TxResult.mk.inj (some.inj hr)
          exact ⟨_, p, rest, hmsgs, rfl, ⟨txFee', hpass ▸ hfee⟩, ⟨n, hn, not_lt.1 hsize⟩,
            not_not.1 hcode, hwalk⟩
        · simp only [hpass, Bool.not_false, if_true] at hr
          cases hr
    · cases hr
  rintro ⟨hreq, msgs, p, rest, hmsgs, rfl, ⟨txFee, hfee⟩, ⟨n, hn, hsize⟩, hcode, hwalk⟩
  obtain ⟨reqHash, hreq⟩ := isSome_iff_exists.1 hreq
  refine ⟨txFee, ?_⟩
  simp only [validateTx, hreq, hmsgs, hfee, hn, hcode, hwalk, do_some, Bool.not_true,
    Bool.false_eq_true, if_false, not_lt.2 hsize, gt_iff_lt, ne_eq, not_true_eq_false]

lemma accepts_iff :
    Accepts V tx sigs ↔
      ∃ txFee sigs₁, V.validateTx tx true sigs = some ⟨.valid, txFee, sigs₁⟩ := by
  rw [Accepts, map_eq_some_iff]
  constructor
  · rintro ⟨⟨code, txFee, sigs₁⟩, hr, rfl⟩
    exact ⟨txFee, sigs₁, hr⟩
  · rintro ⟨txFee, sigs₁, hr⟩
    exact ⟨_, hr, rfl⟩

lemma Accepts.accepted (h : Accepts V tx sigs) : ∃ msgs s', Accepted V tx sigs msgs s' := by
  obtain ⟨txFee, sigs₁, hr⟩ := accepts_iff.1 h
  obtain ⟨-, msgs, p, rest, hmsgs, hfirst, hfee, hsize, hcode, hwalk⟩ :=
    validateTx_valid_iff.1 ⟨txFee, hr⟩
  obtain ⟨s', hs', horphan⟩ := walk_of_valid hwalk
  refine ⟨msgs, s', hmsgs, ⟨p, hfirst ▸ rfl⟩, hfee, hsize, hcode, hs', fun hall => ?_⟩
  exact horphan fun x hx => hall x.1 (fst_mem_of_mem_zipIdx hx)

/-- The step of a payment in front of the account updates. -/
lemma Accepted.payment_step (h : Accepted V tx sigs msgs s')
    (hp : tx.messages[i]? = some (.payment p)) (hi : tx.reaches i = true) :
    ∃ pre post s₁ s₂, checkedPart msgs.zipIdx = pre ++ (.payment p, i) :: post ∧
      Walk V tx pre (startState sigs) s₁ ∧
      V.validateMsg tx true i (.payment p) s₁ = some (.go s₂) ∧ Walk V tx post s₂ s' := by
  have hp' := (Transaction.getElem?_txMessages_iff h.copies (by simp) i).2 hp
  exact h.walk.of_mem ((mem_checkedPart h.copies).2 ⟨hp', hi⟩)

/-- Without account updates every payment of an accepted transaction is valid. -/
lemma Accepts.payment_valid (h : Accepts V tx sigs)
    (hno : ∀ m ∈ tx.messages, m.isAccountUpdate = false)
    (hp : tx.messages[i]? = some (.payment p)) :
    ∃ pre s₁ r, Walk V tx pre (startState sigs) s₁ ∧
      V.validatePaymentPayload tx i p s₁.usedUtxo s₁.sigs = some r ∧ r.code = .valid := by
  obtain ⟨msgs, s', hacc⟩ := h.accepted
  have hreach : tx.reaches i = true := by
    refine List.all_eq_true.2 fun m hm => ?_
    rw [hno m (mem_of_mem_take hm), Bool.not_false]
  obtain ⟨pre, _, s₁, s₂, _, hpre, hstep, hpost⟩ := hacc.payment_step hp hreach
  obtain ⟨r, hr, hcode, -, rfl⟩ := payment_go hstep
  refine ⟨pre, s₁, r, hpre, hr, hcode.resolve_right fun horphan => ?_⟩
  have hmono := hpost.isOrphanTx_mono (by simp [horphan])
  have hfalse := hacc.noOrphan fun m hm => by
    obtain ⟨m₀, hm₀, hcopy⟩ := Transaction.exists_of_mem_txMessages hacc.copies hm
    rw [isAccountUpdate_of_copyMessage hcopy]
    exact hno m₀ hm₀
  exact absurd (hmono.symm.trans hfalse) nofun

end Validate

end ZwsChain
