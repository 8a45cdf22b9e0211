import ZwsChain.Modules.WireFormat
import ZwsChain.Validator.Accepted

/-!
# Where validation crashes

`validateTx` on a transaction that anyone may send: what is decoded can have messages without a
payload, reads without a version, and references to outputs of its own that do not exist. The code
hashes and copies such a transaction before it looks at the messages, indexes with what the
references say, and runs scripts over a shortened copy.

* `Validate.validateTx_isSome_iff`: validation ends with a code exactly if the messages can be
  copied and encoded, the fee can be shared out, and each payment that the walk comes to names
  outputs that exist and is in the copy that its scripts are run over.
* `HostileTx.crashes`: a reference to a message that is not there.
-/

open List Option

namespace ZwsChain

open SmallNode
open TxScript (SigState ScriptErr)

/-! ### Texts of assets -/

namespace AssetId

/-- The symbol is not longer than the bytes it is in. -/
def Readable (id : AssetId) : Prop :=
  id.val.headD 0 >>> 5 ≤ 4

variable (id : AssetId)

lemma exists_parseAssetId_iff : (∃ p, parseAssetId id = some p) ↔ id.Readable := by
  rw [parseAssetId, Readable, ← UInt8.not_lt]
  by_cases (4 : UInt8) < id.val.headD 0 >>> 5 <;> simp

lemma exists_getSymbol_iff : (∃ symbol, id.getSymbol = some symbol) ↔ id.Readable := by
  rw [← exists_parseAssetId_iff, getSymbol]
  cases parseAssetId id <;> simp

lemma exists_string_iff : (∃ text, AssetId.string id = some text) ↔ id.Readable := by
  by_cases hptn : id = ptnCoin
  · exact iff_of_true ⟨ptn, if_pos hptn⟩ (hptn ▸ by unfold AssetId.Readable; decide)
  rw [← exists_parseAssetId_iff, AssetId.string, if_neg hptn]
  cases parseAssetId id <;> simp

end AssetId

lemma Asset.exists_string_iff (asset : Asset) :
    (∃ text, asset.string = some text) ↔ asset.assetId.Readable := by
  by_cases hptn : asset.assetId = ptnCoin
  · exact iff_of_true ⟨ptn, if_pos hptn⟩ (hptn ▸ by unfold AssetId.Readable; decide)
  rw [Asset.string, if_neg hptn]
  constructor
  · rintro ⟨text, htext⟩
    obtain ⟨p, hp, -⟩ := do_eq_some.1 htext
    exact asset.assetId.exists_parseAssetId_iff.1 ⟨p, hp⟩
  · intro h
    obtain ⟨p, hp⟩ := asset.assetId.exists_parseAssetId_iff.2 h
    obtain ⟨text, htext⟩ := asset.assetId.exists_string_iff.2 h
    rw [hp, htext]
    simp only [do_some]
    split <;> exact ⟨_, rfl⟩

/-! ### Copies and encodings -/

namespace Message

/-- The reads that a deep copy looks into. -/
def copiedReads : Message → List ContractReadSet
  | .contractDeploy p => p.readSet
  | .contractStop p => p.readSet
  | _ => []

/-- Every such read has a version. -/
def Copyable (m : Message) : Prop :=
  ∀ r ∈ m.copiedReads, r.version.isSome

lemma exists_copyMessage_iff (m : Message) : (∃ m', copyMessage m = some m') ↔ m.Copyable := by
  cases m with
  | contractDeploy p | contractStop p =>
    simp [copyMessage, bind_eq_some_iff, copyReadSet_eq_some_iff, Copyable, copiedReads]
  | _ => simp [copyMessage, Copyable, copiedReads]

end Message

namespace Transaction

lemma knownApp_of_encodeRLP {tx : Transaction} {b : Bytes} (h : tx.encodeRLP = some b) {m : Message}
    (hm : m ∈ tx.messages) : knownApp m.app = true := by
  obtain ⟨items, hitems, -⟩ := encodeRLP_eq_some h
  obtain ⟨i, -, hi⟩ := Lib.exists_of_mapM hitems hm
  simp only [messageTemp, do_eq_some] at hi
  obtain ⟨d, hd, -⟩ := hi
  exact Message.known_of_rlpItem hd

/-- A transaction is encoded iff every message has a payload. -/
lemma exists_encodeRLP_iff (tx : Transaction) :
    (∃ b, tx.encodeRLP = some b) ↔ ∀ m ∈ tx.messages, knownApp m.app = true :=
  ⟨fun ⟨_, h⟩ _ hm => knownApp_of_encodeRLP h hm, exists_encodeRLP⟩

lemma exists_hash_iff {tx : Transaction} (P : Primitives) :
    (∃ txId, tx.hash P = some txId) ↔ ∀ m ∈ tx.messages, knownApp m.app = true := by
  rw [← exists_encodeRLP_iff { tx with illegal := false }, hash, rlpHash]
  cases encodeRLP _ <;> simp

lemma exists_txMessages_iff (tx : Transaction) :
    (∃ msgs, tx.txMessages = some msgs) ↔ ∀ m ∈ tx.messages, m.Copyable := by
  constructor
  · rintro ⟨msgs, hmsgs⟩ m hm
    obtain ⟨m', -, hcopy⟩ := Lib.exists_of_mapM hmsgs hm
    exact m.exists_copyMessage_iff.1 ⟨m', hcopy⟩
  · intro h
    exact Lib.exists_mapM fun m hm => m.exists_copyMessage_iff.2 (h m hm)

section Copies

variable {tx : Transaction} {copies : List Message} (hcopies : tx.txMessages = some copies)
include hcopies

/-- Copies have payloads where the messages have. -/
lemma known_copies_iff :
    (∀ m ∈ copies, knownApp m.app = true) ↔ ∀ m ∈ tx.messages, knownApp m.app = true := by
  constructor
  · intro h m hm
    obtain ⟨m', hm', hcopy⟩ := Lib.exists_of_mapM hcopies hm
    exact app_of_copyMessage hcopy ▸ h m' hm'
  intro h m' hm'
  obtain ⟨m, hm, hcopy⟩ := Lib.exists_of_mem_mapM hcopies hm'
  exact app_of_copyMessage hcopy ▸ h m hm

lemma upToRequest_copies :
    List.Forall₂ (copyMessage · = some ·) (upToRequest tx.messages) (upToRequest copies) := by
  have hall := Lib.forall₂_of_mapM hcopies
  clear hcopies
  generalize tx.messages = msgs at hall
  induction hall with
  | nil => exact .nil
  | @cons m m' _ _ hcopy _ ih =>
    have hrequest := copyMessage_congr Message.isRequest (fun _ _ => rfl) hcopy
    rw [upToRequest, upToRequest, hrequest]
    split
    · exact .cons hcopy .nil
    · exact .cons hcopy ih

lemma exists_requestHash_iff (P : Primitives) :
    (∃ h, tx.requestHash P = some h) ↔ ∀ m ∈ upToRequest tx.messages, knownApp m.app = true := by
  have hhash : tx.requestHash P =
      (Transaction.mk (upToRequest copies) [] false).encodeRLP.map P.sha3 := by
    rw [requestHash, hcopies]
    rfl
  have hencode := exists_encodeRLP_iff ⟨upToRequest copies, [], false⟩
  rw [hhash]
  simp only [map_eq_some_iff]
  constructor
  · rintro ⟨_, b, hb, -⟩ m hm
    obtain ⟨m', hm', hcopy⟩ := Lib.exists_of_forall₂ (upToRequest_copies hcopies) hm
    exact app_of_copyMessage hcopy ▸ hencode.1 ⟨b, hb⟩ m' hm'
  intro h
  obtain ⟨b, hb⟩ := hencode.2 fun m' hm' => by
    obtain ⟨m, hm, hcopy⟩ := Lib.exists_of_forall₂ (upToRequest_copies hcopies).flip hm'
    exact app_of_copyMessage hcopy ▸ h m hm
  exact ⟨_, b, hb, rfl⟩

end Copies

lemma known_resultMessages (isResultMsg : Bool) {msgs : List Message}
    (h : ∀ m ∈ msgs, knownApp m.app = true) :
    ∀ m ∈ resultMessages isResultMsg msgs, knownApp m.app = true := by
  induction msgs generalizing isResultMsg with
  | nil => exact h
  | cons m msgs ih =>
    obtain ⟨hm, hmsgs⟩ := forall_mem_cons.1 h
    cases m with
    | signature p => exact ih _ hmsgs
    | payment p =>
      refine forall_mem_cons.2 ⟨?_, ih _ hmsgs⟩
      split <;> rfl
    | _ => exact forall_mem_cons.2 ⟨hm, ih _ hmsgs⟩

/-- An outpoint names an output of the transaction. -/
def HasOutput (tx : Transaction) (op : OutPoint) : Prop :=
  ∃ p output, tx.messages[op.messageIndex.toNat]? = some (.payment p) ∧
    p.outputs[op.outIndex.toNat]? = some output

end Transaction

open Transaction

namespace Validate

variable {V : Validate} {tx : Transaction} {isFullTx : Bool}

/-! ### Payments -/

lemma utxoOf_eq_none_iff (op : OutPoint) :
    V.utxoOf tx op = none ↔ op.txHash.isSelfHash = true ∧ ¬ tx.HasOutput op := by
  rw [utxoOf]
  by_cases hself : op.txHash.isSelfHash = true
  · rw [if_pos hself, and_iff_right hself, Transaction.HasOutput]
    cases tx.messages[op.messageIndex.toNat]? with
    | none => simp
    | some m =>
      cases m with
      | payment p => cases hoverride : p.outputs[op.outIndex.toNat]? <;> simp [hoverride]
      | _ => simp
  · rw [if_neg hself]
    simp [hself]

/-- The input names an output that exists, if it is one of the transaction itself, and a token whose
status is looked up has a symbol. -/
def Resolves (V : Validate) (tx : Transaction) (msgIdx : Nat) (s : InputState) (input : Input) :
    Prop :=
  ∀ op, input.previousOutPoint = some op → op ∉ s.usedUtxo →
    (op.txHash.isSelfHash = true → tx.HasOutput op) ∧
    ∀ utxo, V.utxoOf tx op = some (some utxo) → s.asset.getD utxo.asset = utxo.asset →
      msgIdx ≠ 0 → s.statusValid = false → utxo.asset.assetId ≠ V.gasToken →
      utxo.asset.assetId.Readable

/-- Every input that the loop comes to resolves. -/
def RefersToOutputs (V : Validate) (tx : Transaction) (txId : Hash) (msgIdx : Nat) :
    List Input → InputState → Prop
  | [], _ => True
  | input :: rest, s => V.Resolves tx msgIdx s input ∧
    ∀ s', V.validateInputs tx txId msgIdx [input] s = some (.ok s') →
      RefersToOutputs V tx txId msgIdx rest s'

variable {msgIdx : Nat} {txId id : Hash} {copies rest : List Message} {payment : PaymentPayload}

lemma exists_checkInput_iff (op : OutPoint) (utxo : Utxo) (s : InputState) :
    (∃ r, V.checkInput msgIdx op utxo s = some r) ↔
      (s.asset.getD utxo.asset = utxo.asset → msgIdx ≠ 0 → s.statusValid = false →
        utxo.asset.assetId ≠ V.gasToken → utxo.asset.assetId.Readable) := by
  rw [checkInput]
  by_cases hasset : s.asset.getD utxo.asset = utxo.asset
  · rw [hasset, if_neg (not_not.2 rfl), forall_prop_of_true rfl]
    have hstatus : (∃ status, V.statusOf
        (msgIdx ≠ 0 && !s.statusValid && utxo.asset.assetId ≠ V.gasToken) utxo.asset =
          some status) ↔
        (msgIdx ≠ 0 → s.statusValid = false → utxo.asset.assetId ≠ V.gasToken →
          utxo.asset.assetId.Readable) := by
      rw [← AssetId.exists_getSymbol_iff, statusOf, checkTokenStatus]
      by_cases hmsg : msgIdx = 0 <;> by_cases hgas : utxo.asset.assetId = V.gasToken <;>
        cases s.statusValid <;> simp [hmsg, hgas]
    rw [← hstatus]
    constructor
    · rintro ⟨r, hr⟩
      obtain ⟨status, hstatus, -⟩ := do_eq_some.1 hr
      exact ⟨status, hstatus⟩
    · rintro ⟨status, hstatus⟩
      simp only [hstatus, do_some]
      split_ifs <;> exact ⟨_, rfl⟩
  · rw [if_pos hasset]
    exact iff_of_true ⟨_, rfl⟩ fun h => absurd h hasset

lemma exists_validateInputs_iff (inputs : List Input) (s : InputState) :
    (∃ r, V.validateInputs tx txId msgIdx inputs s = some r) ↔
      V.RefersToOutputs tx txId msgIdx inputs s := by
  induction inputs generalizing s with
  | nil => exact iff_of_true ⟨_, rfl⟩ trivial
  | cons input rest ih =>
    simp only [RefersToOutputs, Resolves, validateInputs]
    cases input.previousOutPoint with
    | none => simp
    | some op =>
      by_cases hused : s.usedUtxo.contains op = true
      · have hmem : op ∈ s.usedUtxo := by simpa using hused
        simp [hmem]
      have hmem : op ∉ s.usedUtxo := by simpa using hused
      have hnone := @utxoOf_eq_none_iff V tx op
      simp only [if_neg hused, some.injEq, forall_eq', hmem, not_false_eq_true, forall_const]
      cases hutxo : V.utxoOf tx op with
      | none =>
        obtain ⟨hself, hno⟩ := hnone.1 hutxo
        exact iff_of_false (by rintro ⟨_, ⟨⟩⟩) fun h => hno (h.1.1 hself)
      | some utxo =>
        -- the reference is to an output, so only its token and the rest matter
        have hrefers : op.txHash.isSelfHash = true → tx.HasOutput op := by
          intro hself
          by_contra hno
          rw [hnone.2 ⟨hself, hno⟩] at hutxo
          cases hutxo
        rw [and_iff_right hrefers]
        cases utxo with
        | none =>
          dsimp only
          split <;> simp
        | some utxo =>
          simp only [some.injEq, forall_eq', ← exists_checkInput_iff op utxo
            { s with usedUtxo := op :: s.usedUtxo }]
          split
          · simp_all
          · simp_all
          rename_i s' hcheck
          simp only [ih, hcheck, some.injEq, exists_eq', true_and, Except.ok.injEq, forall_eq']

/-- The copy that the scripts of a payment are run over has the payment, and no script makes the
engine crash. -/
def ScriptsRun (V : Validate) (tx : Transaction) (msgIdx : Nat) (lockScripts : OutPoint → Bytes)
    (sigs : SigState) : Prop :=
  ∃ signTx txCopy pay, txForSign tx msgIdx = some signTx ∧ signedPart signTx msgIdx = some txCopy ∧
    signTx.messages[msgIdx]? = some (.payment pay) ∧ (∃ id, signTx.hash V.P = some id) ∧
    (V.runInputs lockScripts txCopy msgIdx pay.inputs.zipIdx sigs).2 ≠ some .panic

/-- The check of a payment comes to an end. -/
def PaymentEnds (V : Validate) (tx : Transaction) (txId : Hash) (msgIdx : Nat)
    (payment : PaymentPayload) (usedUtxo : List OutPoint) (sigs : SigState) : Prop :=
  payment.inputs.length ≤ 1000 → payment.inputs ≠ [] →
    V.RefersToOutputs tx txId msgIdx payment.inputs ⟨none, false, 0, usedUtxo, []⟩ ∧
    ∀ s, V.validateInputs tx txId msgIdx payment.inputs ⟨none, false, 0, usedUtxo, []⟩ =
      some (.ok s) → V.ScriptsRun tx msgIdx (lockScriptOf s.utxoScripts) sigs

lemma scriptValidate1Msg_ne_panic_iff {lockScripts : OutPoint → Bytes} {sigs : SigState}
    {signTx : Transaction} (hsign : txForSign tx msgIdx = some signTx) :
    (V.scriptValidate1Msg lockScripts signTx msgIdx sigs).2 ≠ some .panic ↔
      V.ScriptsRun tx msgIdx lockScripts sigs := by
  rw [ScriptsRun, hsign, scriptValidate1Msg]
  constructor
  · intro h
    split at h
    · rename_i id txCopy pay hid hpart hpay
      exact ⟨signTx, txCopy, pay, rfl, hpart, hpay, ⟨id, hid⟩, h⟩
    · exact absurd rfl h
  rintro ⟨_, txCopy, pay, ⟨⟩, hpart, hpay, ⟨id, hid⟩, hrun⟩
  rw [hid, hpart, hpay]
  exact hrun

lemma exists_validatePaymentPayload_iff (hid : tx.hash V.P = some txId) (msgIdx : Nat)
    (payment : PaymentPayload) (usedUtxo : List OutPoint) (sigs : SigState) :
    (∃ r, V.validatePaymentPayload tx msgIdx payment usedUtxo sigs = some r) ↔
      V.PaymentEnds tx txId msgIdx payment usedUtxo sigs := by
  rw [PaymentEnds, ← exists_validateInputs_iff]
  simp only [validatePaymentPayload, hid, do_some]
  by_cases hlong : payment.inputs.length > 1000
  · rw [if_pos hlong]
    exact iff_of_true ⟨_, rfl⟩ fun h => absurd h (by omega)
  by_cases hempty : payment.inputs = []
  · simp [hempty]
  rw [if_neg hlong, if_neg (by simpa using hempty)]
  simp only [Nat.not_lt.1 hlong, hempty, not_false_eq_true, ne_eq, forall_const]
  cases hinputs : V.validateInputs tx txId msgIdx payment.inputs ⟨none, false, 0, usedUtxo, []⟩ with
  | none => simp
  | some r =>
    cases r with
    | error e => simp
    | ok s =>
      simp only [do_some, some.injEq, Except.ok.injEq, exists_eq', true_and, forall_eq']
      cases hsign : txForSign tx msgIdx with
      | none =>
        refine iff_of_false (by rintro ⟨_, ⟨⟩⟩) ?_
        rintro ⟨_, _, _, h, -⟩
        rw [hsign] at h
        cases h
      | some signTx =>
        rw [← scriptValidate1Msg_ne_panic_iff hsign]
        simp only [do_some]
        split <;> simp_all

/-! ### The walk over the messages -/

/-- The messages that the walk comes to, each with the state in front of it. -/
def visited (V : Validate) (tx : Transaction) (isFullTx : Bool) :
    List (Message × Nat) → LoopState → List (Message × Nat × LoopState)
  | [], _ => []
  | (msg, msgIdx) :: rest, s =>
    (msg, msgIdx, s) :: match V.validateMsg tx isFullTx msgIdx msg s with
      | some (.go s') => visited V tx isFullTx rest s'
      | _ => []

lemma exists_validateMsgs_iff (msgs : List (Message × Nat)) (s : LoopState) :
    (∃ r, V.validateMsgs tx isFullTx msgs s = some r) ↔
      ∀ x ∈ V.visited tx isFullTx msgs s,
        ∃ v, V.validateMsg tx isFullTx x.2.1 x.1 x.2.2 = some v := by
  induction msgs generalizing s with
  | nil => exact iff_of_true ⟨_, rfl⟩ fun _ h => absurd h not_mem_nil
  | cons x rest ih =>
    obtain ⟨msg, msgIdx⟩ := x
    rw [visited, forall_mem_cons, validateMsgs]
    cases V.validateMsg tx isFullTx msgIdx msg s with
    | none => simp
    | some v =>
      cases v with
      | stop code sigs => simp
      | go s' => simpa using ih s'

/-- A payment of a contract result is skipped if the transaction is not full. -/
def Checked (isFullTx : Bool) (msgIdx : Nat) (s : LoopState) : Prop :=
  isFullTx = true ∨ msgIdx ≤ s.requestMsgIndex

/-- A message for which the owner of the first input is looked up. -/
def AsksRequester (s : LoopState) : Message → Prop
  | .contractTplRequest p =>
    s.hasRequestMsg = false ∧ ¬ (p.tplName = [] ∨ p.path = [] ∨ p.version = [])
  | _ => False

/-- The check of a message of the walk, in a transaction that starts with the payment `first`, comes
to an end. -/
structure MessageEnds (V : Validate) (tx : Transaction) (txId : Hash) (first : PaymentPayload)
    (isFullTx : Bool) (msgIdx : Nat) (msg : Message) (s : LoopState) : Prop where
  payment : ∀ payment, msg = .payment payment → Checked isFullTx msgIdx s →
    V.PaymentEnds tx txId msgIdx payment s.usedUtxo s.sigs
  requester : AsksRequester s msg → first.inputs ≠ []

section Encoded

variable {first : PaymentPayload} (hcopies : tx.txMessages = some (.payment first :: copies))
  (hid : tx.hash V.P = some txId)
include hcopies hid

lemma exists_validateContractSignature
    (hknown : ∀ m ∈ tx.messages, knownApp m.app = true) (signatures : List SignatureSet) :
    ∃ code, V.validateContractSignature signatures tx isFullTx = some code := by
  have hraw : tx.getResultRawTx =
      some ⟨resultMessages false (.payment first :: copies), tx.certId, tx.illegal⟩ := by
    rw [getResultRawTx, hcopies]
    rfl
  obtain ⟨b, hb⟩ := (exists_encodeRLP_iff
    ⟨resultMessages false (.payment first :: copies), tx.certId, tx.illegal⟩).2
      (known_resultMessages false ((known_copies_iff hcopies).2 hknown))
  simp only [validateContractSignature, hid, hcopies, hraw, hb, do_some]
  split
  · exact ⟨_, rfl⟩
  split
  · exact ⟨_, rfl⟩
  split
  · exact ⟨_, rfl⟩
  · split <;> split <;> exact ⟨_, rfl⟩

omit hid in
lemma exists_validateTplRequest_iff (p : ContractInstallRequestPayload) (s : LoopState) :
    (∃ v, V.validateTplRequest tx msgIdx p s = some v) ↔
      (AsksRequester s (.contractTplRequest p) → first.inputs ≠ []) := by
  have hrequester : (∃ r, TxScript.getTxRequesterAddress V.P V.getDagUtxoEntry tx = some r) ↔
      first.inputs ≠ [] := by
    simp only [TxScript.getTxRequesterAddress, hcopies, do_some]
    cases first.inputs <;> simp
  rw [validateTplRequest, checkTplRequest, AsksRequester]
  by_cases hset : s.hasRequestMsg = true
  · simp [hset]
  by_cases hempty : p.tplName = [] ∨ p.path = [] ∨ p.version = []
  · simp [hset, hempty]
  rw [if_neg hset, if_neg hempty, ← hrequester]
  cases TxScript.getTxRequesterAddress V.P V.getDagUtxoEntry tx with
  | none => simp [hset, hempty]
  | some r => simp

/-- Of the messages payments and template requests can end the validation without a code. -/
lemma exists_validateMsg_iff (hknown : ∀ m ∈ tx.messages, knownApp m.app = true) (msgIdx : Nat)
    (msg : Message) (s : LoopState) :
    (∃ v, V.validateMsg tx isFullTx msgIdx msg s = some v) ↔
      V.MessageEnds tx txId first isFullTx msgIdx msg s := by
  suffices (∃ v, V.validateMsg tx isFullTx msgIdx msg s = some v) ↔
      (∀ payment, msg = .payment payment → Checked isFullTx msgIdx s →
        V.PaymentEnds tx txId msgIdx payment s.usedUtxo s.sigs) ∧
      (AsksRequester s msg → first.inputs ≠ []) from
    this.trans ⟨fun h => ⟨h.1, h.2⟩, fun h => ⟨h.payment, h.requester⟩⟩
  cases msg with
  | payment payment =>
    simp only [validateMsg, validatePaymentMsg, Message.payment.injEq, forall_eq', AsksRequester,
      ← exists_validatePaymentPayload_iff hid, false_imp_iff, and_true]
    by_cases hskip : msgIdx > s.requestMsgIndex ∧ (!isFullTx) = true
    · rw [if_pos hskip]
      refine iff_of_true ⟨_, rfl⟩ ?_
      rintro (hfull | hle)
      · simp [hfull] at hskip
      · omega
    have hchecked : Checked isFullTx msgIdx s := by
      rw [not_and_or] at hskip
      rcases hskip with hle | hfull
      · exact .inr (Nat.not_lt.1 hle)
      · exact .inl (by simpa using hfull)
    rw [if_neg hskip, forall_prop_of_true hchecked]
    cases V.validatePaymentPayload tx msgIdx payment s.usedUtxo s.sigs with
    | none => simp
    | some r =>
      simp only [do_some, some.injEq, exists_eq', iff_true]
      split
      · exact ⟨_, rfl⟩
      · split <;> exact ⟨_, rfl⟩
  | contractTplRequest p =>
    simpa [validateMsg] using exists_validateTplRequest_iff hcopies p s
  | signature p =>
    obtain ⟨code, hcode⟩ : ∃ code,
        V.validateContractSignature p.signatures tx isFullTx = some code :=
      exists_validateContractSignature hcopies hid hknown p.signatures
    simp [validateMsg, hcode, AsksRequester]
  | _ => simp [validateMsg, AsksRequester]

end Encoded

/-! ### Fees -/

section Signers

open TxScript

/-- The signers of the first input of a payment can be read: of the fields of its unlocking script
only the last one and `0` may be without bytes, and the data that its redeem script's signatures are
over can be made, which takes a copy of the transaction unless the last signature is of its own
message only or of an output that is not there. -/
def SignersReadable (tx : Transaction) (payment : PaymentPayload) : Prop :=
  ∀ input, payment.inputs[0]? = some input →
    (∀ op ∈ (disasmFields input.signatureScript).dropLast, op ≠ .zero → op.bytes ≠ []) ∧
    ∀ signatures, scriptSignatures (disasmFields input.signatureScript) = some signatures →
      (parseScript (redeemOf (disasmFields input.signatureScript))).isSome = true →
      hashTypeOf signatures &&& 0x40 = 0x40 ∨
        hashTypeOf signatures &&& 0x1f = 3 ∧ payment.outputs = [] ∨
        ∀ m ∈ tx.messages, ∃ m', cloneMessage m = some m'

lemma exists_scriptSignatures_iff (fields : List Field) :
    (∃ signatures, scriptSignatures fields = some signatures) ↔
      ∀ op ∈ fields.dropLast, op ≠ .zero → op.bytes ≠ [] := by
  have hlast : ∀ op : Field, op.bytes ≠ [] ↔ ∃ s, (op.bytes.getLast?.map fun hashType =>
      (op.bytes.dropLast, hashType)) = some s := by
    intro op
    rw [← isSome_iff_exists, isSome_map, isSome_iff_ne_none, Ne, Ne, getLast?_eq_none_iff]
  constructor
  · rintro ⟨signatures, h⟩ op hop hzero
    obtain ⟨s, -, hs⟩ := Lib.exists_of_mapM h (mem_filter.2 ⟨hop, by simpa using hzero⟩)
    exact (hlast op).2 ⟨s, hs⟩
  · intro h
    refine Lib.exists_mapM fun op hop => (hlast op).1 ?_
    obtain ⟨hop, hzero⟩ := mem_filter.1 hop
    exact h op hop (by simpa using hzero)

/-- What is signed can be encoded if the messages can be read back. -/
lemma exists_signatureData_iff {i j : Nat} (hmsg : tx.messages[i]? = some (.payment payment))
    (script : List ParsedOpcode) (hashType : UInt8) :
    (∃ data, signatureData script hashType tx i j = some data) ↔
      hashType &&& 0x1f = 3 ∧ payment.outputs.length ≤ j ∨
        ∀ m ∈ tx.messages, ∃ m', cloneMessage m = some m' := by
  simp only [signatureData, hmsg, do_some, Bool.and_eq_true, decide_eq_true_eq]
  split
  · next hout => exact iff_of_true ⟨_, rfl⟩ (.inl hout)
  rename_i hout
  rw [or_iff_right hout]
  constructor
  · rintro ⟨data, h⟩ m hm
    obtain ⟨txCopy, hclone, -⟩ := do_eq_some.1 h
    obtain ⟨msgs, hmsgs, -⟩ := do_eq_some.1 hclone
    obtain ⟨m', -, hm'⟩ := Lib.exists_of_mapM hmsgs hm
    exact ⟨m', hm'⟩
  intro h
  obtain ⟨msgs, hmsgs⟩ := Lib.exists_mapM h
  simp only [Transaction.clone, hmsgs, do_some]
  have hknown : ∀ m ∈ msgs, knownApp m.app = true := by
    intro m' hm'
    obtain ⟨m, -, hm⟩ := Lib.exists_of_mem_mapM hmsgs hm'
    rw [Message.app_cloneMessage hm]
    cases m with
    | unknown app => cases hm
    | _ => rfl
  -- blanking and cutting changes payments only, into payments
  refine exists_encodeRLP fun m hm => ?_
  obtain ⟨⟨m₁, k⟩, hm₁, rfl⟩ := List.mem_map.1 hm
  obtain ⟨⟨m₂, l⟩, hm₂, rfl⟩ := List.mem_map.1 (fst_mem_of_mem_zipIdx hm₁)
  have hm₂ := hknown m₂ (fst_mem_of_mem_zipIdx hm₂)
  cases m₂ with
  | payment p =>
    dsimp only [blankScripts]
    split_ifs <;> rfl
  | _ => exact hm₂

variable {i j : Nat} (hmsg : tx.messages[i]? = some (.payment payment))
include hmsg

lemma exists_calcSignatureData_iff (script : List ParsedOpcode) (hashType : UInt8) :
    (∃ data, calcSignatureData script hashType tx i j = some data) ↔
      hashType &&& 0x40 = 0x40 ∨ hashType &&& 0x1f = 3 ∧ payment.outputs.length ≤ j ∨
        ∀ m ∈ tx.messages, ∃ m', cloneMessage m = some m' := by
  rw [calcSignatureData]
  by_cases hone : hashType &&& 0x40 = 0x40
  · rw [if_pos hone, hmsg]
    refine iff_of_true ?_ (.inl hone)
    have hcopied : (Transaction.mk [.payment payment] [] false).messages[0]? =
        some (.payment payment) := rfl
    exact (exists_signatureData_iff hcopied script hashType).2
      (.inr fun m hm => mem_singleton.1 hm ▸ ⟨_, rfl⟩)
  · rw [if_neg hone, or_iff_right hone]
    exact exists_signatureData_iff hmsg script hashType

lemma exists_getScriptSigners_iff (P : Primitives) {input : Input}
    (hinput : payment.inputs[0]? = some input) :
    (∃ signers, TxScript.getScriptSigners P tx i 0 = some signers) ↔
      SignersReadable tx payment := by
  simp only [TxScript.getScriptSigners, hmsg, hinput, do_some, SignersReadable, some.injEq,
    forall_eq']
  rw [← exists_scriptSignatures_iff]
  cases scriptSignatures (disasmFields input.signatureScript) with
  | none => simp
  | some signatures =>
    simp only [do_some, some.injEq, exists_eq', true_and, forall_eq']
    cases hparse : parseScript (redeemOf (disasmFields input.signatureScript)) with
    | none => simp
    | some script =>
      have hdata := exists_calcSignatureData_iff hmsg (j := 0) script (hashTypeOf signatures)
      rw [Nat.le_zero, length_eq_zero_iff] at hdata
      rw [isSome_some, forall_prop_of_true rfl, ← hdata]
      dsimp only
      cases calcSignatureData script (hashTypeOf signatures) tx i 0 <;> simp

end Signers

/-- The messages from the first one on that starts the part with the jury's work. -/
def juryPart (starts : Message → Bool) (msgs : List Message) : List (Message × Nat) :=
  msgs.zipIdx.dropWhile fun x => !starts x.1

section

variable {P : Primitives} {queryUtxo : OutPoint → Option Utxo} {fl : Float64} {juryPercent : fl.F}
variable {getSigner : Transaction → Nat → Nat → Option (List Address)} {starts : Message → Bool}
variable {jurorReward : Address → Address} {mediatorReward : Address} {fee : AmountAsset}

section

variable (hstarts : ∀ p, starts (.payment p) = false)
include hstarts

/-- The loop over the messages needs the signers of each payment behind a request. -/
lemma exists_feeJury_iff (l : List (Message × Nat)) (inside : Bool) (jury : List Address) :
    (∃ r, feeJury P getSigner starts tx l inside jury = some r) ↔
      ∀ x ∈ (if inside then l else l.dropWhile fun x => !starts x.1), ∀ p,
        x.1 = .payment p → p.isCoinbase = false → ∃ signers, getSigner tx x.2 0 = some signers := by
  induction l generalizing inside jury with
  | nil => simp [feeJury]
  | cons x rest ih =>
    obtain ⟨m, i⟩ := x
    unfold feeJury
    by_cases hm : starts m = true
    · have hhead : ∀ p, m ≠ .payment p := by
        rintro p rfl
        rw [hstarts] at hm
        cases hm
      rw [if_pos hm, ih true]
      cases inside <;> simp [hm, hhead]
    · rw [if_neg hm]
      cases inside with
      | false => simpa [hm] using ih false jury
      | true =>
        simp only [if_true, forall_mem_cons]
        cases m with
        | payment p =>
          cases hcoin : p.isCoinbase with
          | true => simpa [hcoin] using ih true jury
          | false =>
            cases hsigner : getSigner tx i 0 with
            | none => simp [hcoin]
            | some signers => simpa [hcoin, hsigner] using ih true signers
        | signature p => simpa using ih true _
        | _ => simpa using ih true jury

/-- A fee that is not zero is shared out if all signers can be read. -/
lemma exists_feeAllocate_iff (hcopies : tx.txMessages = some copies)
    (hfee : tx.getTxFee queryUtxo = some (.ok fee)) (hamount : fee.amount ≠ 0) :
    (∃ r, tx.feeAllocate P queryUtxo fl juryPercent getSigner starts jurorReward mediatorReward =
      some r) ↔
      ∀ x ∈ juryPart starts copies, ∀ p, x.1 = .payment p → p.isCoinbase = false →
        ∃ signers, getSigner tx x.2 0 = some signers := by
  have hjury : (∃ r, feeJury P getSigner starts tx copies.zipIdx false [] = some r) ↔ _ :=
    exists_feeJury_iff hstarts copies.zipIdx false []
  rw [if_neg Bool.false_ne_true] at hjury
  rw [juryPart, ← hjury]
  simp only [feeAllocate, hfee, hcopies, do_some, if_neg hamount]
  cases feeJury P getSigner starts tx copies.zipIdx false [] <;> simp

end

/-- The parts of a fee are in the asset of the fee, and there is one at least. -/
lemma asset_of_feeAllocate {r : Except FeeError (List Addition)}
    (hfee : tx.getTxFee queryUtxo = some (.ok fee)) (hamount : fee.amount ≠ 0)
    (h : tx.feeAllocate P queryUtxo fl juryPercent getSigner starts jurorReward mediatorReward =
      some r) : ∃ l, r = .ok l ∧ l ≠ [] ∧ ∀ a ∈ l, a.asset = fee.asset := by
  simp only [feeAllocate, hfee, do_some, if_neg hamount, do_eq_some] at h
  obtain ⟨msgs, -, ⟨inside, jury⟩, -, h⟩ := h
  refine ⟨_, (some.inj h).symm, by simp, fun a ha => ?_⟩
  rcases mem_append.1 ha with ha | ha
  · split at ha
    · obtain ⟨juror, -, rfl⟩ := List.mem_map.1 ha
      rfl
    · cases ha
  · rw [mem_singleton.1 ha]

end

/-- The gas token is compared with the one asset of the parts. -/
lemma checkGasToken_eq {asset : Asset} {l : List Addition} (hne : l ≠ [])
    (h : ∀ a ∈ l, a.asset = asset) : V.checkGasToken l =
      asset.string.bind fun text => (AssetId.string V.gasToken).map (text == ·) := by
  induction l with
  | nil => exact absurd rfl hne
  | cons a rest ih =>
    obtain ⟨ha, hrest⟩ := forall_mem_cons.1 h
    rw [checkGasToken, ha]
    cases htext : asset.string with
    | none => rfl
    | some text =>
      cases hgas : AssetId.string V.gasToken with
      | none => rfl
      | some gas =>
        simp only [do_some, bind_some, map_some]
        by_cases heq : text = gas
        · rw [if_neg (not_not.2 heq)]
          cases rest with
          | nil => simp [checkGasToken, heq]
          | cons b rest => rw [ih (cons_ne_nil b rest) hrest, htext, hgas]; rfl
        · rw [if_pos heq, beq_false_of_ne heq]

/-- The requests from which on a fee is shared with the jury. -/
def feeStarts (V : Validate) : Message → Bool :=
  if V.enableTxFeeCheck then fun m => m.app = 101 || m.app = 102 || m.app = 103
  else Message.isRequest

/-- Who gets a part of the fee and in which token can be found out. -/
structure Shareable (V : Validate) (tx : Transaction) (copies : List Message) (fee : AmountAsset) :
    Prop where
  signers : ∀ x ∈ juryPart V.feeStarts copies, ∀ p, x.1 = .payment p → p.isCoinbase = false →
    SignersReadable tx p
  asset : fee.asset.assetId.Readable
  gasToken : V.gasToken.Readable

/-- The check of the fee comes to an end: where the transaction is measured, or its id is put into a
text, all messages have payloads; and a fee that is there and enough can be shared out. -/
structure FeeEnds (V : Validate) (tx : Transaction) (copies : List Message) : Prop where
  encoded : (V.enableTxFeeCheck = true ∨ ∀ fee, tx.getTxFee V.getUtxoEntry ≠ some (.ok fee)) →
    ∀ m ∈ tx.messages, knownApp m.app = true
  shared : ∀ fee, tx.getTxFee V.getUtxoEntry = some (.ok fee) → fee.amount ≠ 0 →
    (V.enableTxFeeCheck = true →
      V.validateTxFeeEnough tx (V.fl.ofNat 0) (V.fl.ofNat 0) = some true) →
    V.Shareable tx copies fee

/-- The allocation that is computed, and the verdict on it. -/
def feeVerdict (V : Validate) (tx : Transaction) : Option (Bool × List Addition) :=
  (tx.feeAllocate V.P V.getUtxoEntry V.fl V.contractFeeJuryPercent V.getScriptSigners V.feeStarts
    (if V.enableTxFeeCheck then V.getJurorReward else fun a => a) (FixedBytes.zero 21)).bind
    (V.checkFeeAllocate tx)

lemma validateTxFeeValid_eq (hrequest : tx.requestHash V.P = some id) : V.validateTxFeeValid tx =
    if V.enableTxFeeCheck then
      (V.validateTxFeeEnough tx (V.fl.ofNat 0) (V.fl.ofNat 0)).bind fun enough =>
        if enough then V.feeVerdict tx else (tx.hash V.P).map fun _ => (false, [])
    else V.feeVerdict tx := by
  rw [validateTxFeeValid, feeVerdict, feeStarts, hrequest]
  cases V.enableTxFeeCheck with
  | false => rfl
  | true =>
    simp only [do_some, if_true]
    refine congrArg (Option.bind _) (funext fun enough => ?_)
    cases enough <;> rfl

section

variable (hfirst : tx.messages = .payment payment :: rest) (hcopies : tx.txMessages = some copies)
include hcopies

/-- A computed fee that is not zero ends in a verdict if it can be shared out. -/
lemma exists_feeVerdict_iff_of_ok {fee : AmountAsset}
    (hfee : tx.getTxFee V.getUtxoEntry = some (.ok fee)) :
    (∃ r, V.feeVerdict tx = some r) ↔ (fee.amount ≠ 0 → V.Shareable tx copies fee) := by
  rw [feeVerdict]
  by_cases hamount : fee.amount = 0
  · refine iff_of_true ?_ fun h => absurd hamount h
    simp only [feeAllocate, hfee, do_some, if_pos hamount, bind_some]
    exact ⟨_, rfl⟩
  rw [forall_prop_of_true hamount]
  have hstarts : ∀ p, V.feeStarts (.payment p) = false := by
    intro p
    rw [feeStarts]
    split <;> rfl
  have hsigners : ∀ x ∈ juryPart V.feeStarts copies, ∀ p, x.1 = .payment p → p.isCoinbase = false →
      ((∃ signers, V.getScriptSigners tx x.2 0 = some signers) ↔ SignersReadable tx p) := by
    rintro ⟨m, i⟩ hx p rfl hcoin
    have hget : tx.messages[i]? = some (.payment p) :=
      (getElem?_txMessages_iff hcopies (by simp) i).1 (mem_zipIdx_iff_getElem?.1
        ((dropWhile_sublist _).subset hx))
    cases hinputs : p.inputs with
    | nil => simp [PaymentPayload.isCoinbase, hinputs] at hcoin
    | cons input inputs => exact exists_getScriptSigners_iff hget V.P (by rw [hinputs]; rfl)
  constructor
  · rintro ⟨r, hr⟩
    obtain ⟨allocation, hallocation, hr⟩ := bind_eq_some_iff.1 hr
    obtain ⟨l, rfl, hne, hasset⟩ := asset_of_feeAllocate hfee hamount hallocation
    obtain ⟨ok, hok, -⟩ := map_eq_some_iff.1 hr
    rw [checkGasToken_eq hne hasset] at hok
    obtain ⟨text, htext, hok⟩ := bind_eq_some_iff.1 hok
    obtain ⟨gas, hgas, -⟩ := map_eq_some_iff.1 hok
    refine ⟨fun x hx p hp hcoin => (hsigners x hx p hp hcoin).1 ?_,
      fee.asset.exists_string_iff.1 ⟨text, htext⟩, V.gasToken.exists_string_iff.1 ⟨gas, hgas⟩⟩
    exact (exists_feeAllocate_iff hstarts hcopies hfee hamount).1 ⟨_, hallocation⟩ x hx p hp hcoin
  · intro h
    obtain ⟨allocation, hallocation⟩ : ∃ r, tx.feeAllocate V.P V.getUtxoEntry V.fl
        V.contractFeeJuryPercent V.getScriptSigners V.feeStarts
        (if V.enableTxFeeCheck then V.getJurorReward else fun a => a) (FixedBytes.zero 21) =
          some r :=
      (exists_feeAllocate_iff hstarts hcopies hfee hamount).2
        fun x hx p hp hcoin => (hsigners x hx p hp hcoin).2 (h.signers x hx p hp hcoin)
    obtain ⟨l, rfl, hne, hasset⟩ := asset_of_feeAllocate hfee hamount hallocation
    obtain ⟨text, htext⟩ := fee.asset.exists_string_iff.2 h.asset
    obtain ⟨gas, hgas⟩ := V.gasToken.exists_string_iff.2 h.gasToken
    refine ⟨(text == gas, l), ?_⟩
    rw [hallocation, bind_some, checkFeeAllocate, checkGasToken_eq hne hasset, htext, hgas]
    rfl

include hfirst

omit hcopies in
/-- A fee is computed, or an error is returned, or the transaction cannot be encoded for one. -/
lemma getTxFee_ends (queryUtxo : OutPoint → Option Utxo) :
    (∃ fee, tx.getTxFee queryUtxo = some (.ok fee)) ∨
      (∃ e, tx.getTxFee queryUtxo = some (.error e)) ∨
      tx.getTxFee queryUtxo = none ∧ tx.encodeRLP = none := by
  rw [getTxFee, hfirst]
  dsimp only
  split
  · exact .inl ⟨_, rfl⟩
  split
  · exact .inr (.inl ⟨_, rfl⟩)
  split
  · cases tx.encodeRLP with
    | none => exact .inr (.inr ⟨rfl, rfl⟩)
    | some b => exact .inr (.inl ⟨_, rfl⟩)
  · exact .inl ⟨_, rfl⟩

lemma exists_feeVerdict_iff : (∃ r, V.feeVerdict tx = some r) ↔
    ((∀ fee, tx.getTxFee V.getUtxoEntry ≠ some (.ok fee)) →
      ∀ m ∈ tx.messages, knownApp m.app = true) ∧
    ∀ fee, tx.getTxFee V.getUtxoEntry = some (.ok fee) → fee.amount ≠ 0 →
      V.Shareable tx copies fee := by
  rcases getTxFee_ends hfirst V.getUtxoEntry with ⟨fee, hfee⟩ | ⟨e, he⟩ | ⟨hnone, hencode⟩
  · rw [exists_feeVerdict_iff_of_ok hcopies hfee]
    simp [hfee]
  · -- the text of the error has the id
    rw [← exists_hash_iff V.P, feeVerdict]
    simp only [feeAllocate, he, do_some, bind_some, checkFeeAllocate]
    cases tx.hash V.P <;> simp
  · have hknown := exists_encodeRLP_iff tx
    rw [hencode] at hknown
    simp [feeVerdict, feeAllocate, hnone, ← hknown]

/-- The fee check encodes the whole transaction. -/
lemma exists_validateTxFeeEnough_iff (hrequest : tx.requestHash V.P = some id)
    (hcheck : V.enableTxFeeCheck = true) (extSize extTime : V.fl.F) :
    (∃ r, V.validateTxFeeEnough tx extSize extTime = some r) ↔
      ∀ m ∈ tx.messages, knownApp m.app = true := by
  rw [← exists_encodeRLP_iff, validateTxFeeEnough, hcheck]
  simp only [hrequest, hcopies, size, do_some, Bool.not_true, Bool.false_eq_true, if_false]
  rcases getTxFee_ends hfirst V.getUtxoEntry with ⟨fee, hfee⟩ | ⟨e, hfee⟩ | ⟨-, hencode⟩
  · cases tx.encodeRLP <;> simp [hfee]
  · cases tx.encodeRLP <;> simp [hfee]
  · simp [hencode]

lemma exists_validateTxFeeValid_iff (hrequest : tx.requestHash V.P = some id) :
    (∃ r, V.validateTxFeeValid tx = some r) ↔ V.FeeEnds tx copies := by
  have hverdict := exists_feeVerdict_iff (V := V) hfirst hcopies
  rw [validateTxFeeValid_eq hrequest]
  by_cases hcheck : V.enableTxFeeCheck = true
  · have henough := exists_validateTxFeeEnough_iff hfirst hcopies hrequest hcheck (V.fl.ofNat 0)
      (V.fl.ofNat 0)
    rw [if_pos hcheck]
    cases hr : V.validateTxFeeEnough tx (V.fl.ofNat 0) (V.fl.ofNat 0) with
    | none =>
      rw [hr] at henough
      exact iff_of_false (by simp) fun h => by simpa using henough.2 (h.encoded (.inl hcheck))
    | some enough =>
      have hknown := henough.1 ⟨enough, hr⟩
      rw [bind_some]
      cases enough with
      | false =>
        obtain ⟨txId, hid⟩ := (exists_hash_iff V.P).2 hknown
        refine iff_of_true ⟨_, by rw [hid]; rfl⟩ ⟨fun _ => hknown, fun _ _ _ h => ?_⟩
        have := h hcheck
        rw [hr] at this
        cases this
      | true =>
        rw [if_pos rfl, hverdict]
        exact ⟨fun h => ⟨fun _ => hknown, fun fee hfee hne _ => h.2 fee hfee hne⟩,
          fun h => ⟨fun _ => hknown, fun fee hfee hne => h.shared fee hfee hne fun _ => hr⟩⟩
  · rw [if_neg hcheck, hverdict]
    exact ⟨fun h => ⟨fun hor => h.1 (hor.resolve_left hcheck),
        fun fee hfee hne _ => h.2 fee hfee hne⟩,
      fun h => ⟨fun hfails => h.encoded (.inr hfails),
        fun fee hfee hne => h.shared fee hfee hne fun h => absurd h hcheck⟩⟩

end

/-! ### Transactions -/

/-- The checks in front of the walk are passed. -/
structure Walks (V : Validate) (tx : Transaction) (isFullTx : Bool) (copies : List Message) :
    Prop where
  fee : ∃ txFee, V.validateTxFeeValid tx = some (true, txFee)
  size : ∀ n, tx.size = some n → n ≤ 256 * 1024
  contract : V.checkContractTx tx isFullTx copies = .valid

/-- The check of each message that the walk comes to ends. -/
def WalkEnds (V : Validate) (tx : Transaction) (first : PaymentPayload) (isFullTx : Bool)
    (copies : List Message) (sigs : SigState) : Prop :=
  ∀ txId, tx.hash V.P = some txId →
    ∀ x ∈ V.visited tx isFullTx copies.zipIdx (startState sigs),
      V.MessageEnds tx txId first isFullTx x.2.1 x.1 x.2.2

lemma exists_validateMsgs_iff_walkEnds (hcopies : tx.txMessages = some (.payment payment :: copies))
    (hknown : ∀ m ∈ tx.messages, knownApp m.app = true) (sigs : SigState) :
    (∃ r, V.validateMsgs tx isFullTx (Message.payment payment :: copies).zipIdx (startState sigs) =
      some r) ↔ V.WalkEnds tx payment isFullTx (.payment payment :: copies) sigs := by
  obtain ⟨txId, hid⟩ := (exists_hash_iff V.P).2 hknown
  rw [exists_validateMsgs_iff, WalkEnds]
  simp only [hid, some.injEq, forall_eq']
  exact forall₂_congr fun x _ => exists_validateMsg_iff hcopies hid hknown _ _ _

/-- The walk is over the copies of the messages, which start with a payment iff the messages do. -/
lemma copies_cases (hcopies : tx.txMessages = some copies) :
    (∃ payment rest rest', tx.messages = .payment payment :: rest ∧
      copies = .payment payment :: rest') ∨
    (∀ payment rest, tx.messages ≠ .payment payment :: rest) ∧
      ∀ payment rest, copies ≠ .payment payment :: rest := by
  rw [txMessages] at hcopies
  cases hmsgs : tx.messages with
  | nil =>
    rw [hmsgs] at hcopies
    obtain rfl : copies = [] := (some.inj hcopies).symm
    exact .inr ⟨nofun, nofun⟩
  | cons m rest =>
    rw [hmsgs, mapM_cons] at hcopies
    obtain ⟨m', hcopy, hcopies⟩ := do_eq_some.1 hcopies
    obtain ⟨rest', -, hcopies⟩ := do_eq_some.1 hcopies
    obtain rfl := some.inj hcopies
    rcases copyMessage_eq_some hcopy with rfl | ⟨p, rfl, rfl⟩
    · cases m' with
      | payment p => exact .inl ⟨p, rest, rest', rfl, rfl⟩
      | _ => exact .inr ⟨nofun, nofun⟩
    · exact .inr ⟨nofun, nofun⟩

lemma exists_validateTx_iff_of_payment {rest' : List Message}
    (hfirst : tx.messages = .payment payment :: rest)
    (hcopies : tx.txMessages = some (.payment payment :: rest'))
    (hrequest : tx.requestHash V.P = some id) (sigs : SigState) :
    (∃ r, V.validateTx tx isFullTx sigs = some r) ↔
      V.FeeEnds tx (.payment payment :: rest') ∧
      ((∃ txFee, V.validateTxFeeValid tx = some (true, txFee)) →
        ∀ m ∈ tx.messages, knownApp m.app = true) ∧
      (V.Walks tx isFullTx (.payment payment :: rest') →
        V.WalkEnds tx payment isFullTx (.payment payment :: rest') sigs) := by
  rw [← exists_validateTxFeeValid_iff hfirst hcopies hrequest]
  simp only [validateTx, hcopies, hrequest, do_some]
  cases hfee : V.validateTxFeeValid tx with
  | none => simp
  | some r =>
    obtain ⟨pass, txFee⟩ := r
    rw [and_iff_right ⟨_, rfl⟩]
    cases pass with
    | false =>
      refine iff_of_true ⟨_, rfl⟩ ⟨by simp, fun hwalks => ?_⟩
      obtain ⟨_, h⟩ := hwalks.fee
      rw [hfee] at h
      cases h
    | true =>
      have hsize := exists_encodeRLP_iff tx
      rw [forall_prop_of_true ⟨txFee, rfl⟩]
      by_cases hknown : ∀ m ∈ tx.messages, knownApp m.app = true
      · obtain ⟨b, hb⟩ := hsize.2 hknown
        have hlength : tx.size = some b.length := by
          rw [size, hb, map_some]
        rw [and_iff_right hknown,
          ← @exists_validateMsgs_iff_walkEnds V tx isFullTx _ _ hcopies hknown sigs]
        simp only [Bool.not_true, Bool.false_eq_true, if_false, hlength, do_some]
        by_cases hlong : b.length > 256 * 1024
        · rw [if_pos hlong]
          exact iff_of_true ⟨_, rfl⟩ fun hwalks =>
            absurd (hwalks.size _ hlength) (Nat.not_le.2 hlong)
        rw [if_neg hlong]
        by_cases hcontract : V.checkContractTx tx isFullTx (.payment payment :: rest') = .valid
        · have hwalks : V.Walks tx isFullTx (.payment payment :: rest') :=
            ⟨⟨txFee, hfee⟩, fun n hn => by
              rw [hlength] at hn
              exact some.inj hn ▸ Nat.not_lt.1 hlong, hcontract⟩
          rw [if_neg (not_not.2 hcontract), forall_prop_of_true hwalks]
          cases V.validateMsgs tx isFullTx _ _ <;> simp
        · rw [if_pos hcontract]
          exact iff_of_true ⟨_, rfl⟩ fun hwalks => absurd hwalks.contract hcontract
      refine iff_of_false ?_ fun h => hknown h.1
      have hnone : tx.size = none := by
        rw [size, map_eq_none_iff]
        exact eq_none_iff_forall_ne_some.2 fun b hb => hknown (hsize.1 ⟨b, hb⟩)
      simp [hnone]

end Validate

/-! ### A reference to a message that is not there -/

namespace HostileTx

/-- A store with one output. -/
def validator : Validate :=
  withUtxos [(outPoint 1, openUtxo 10)]

/-- A payment of the output, and one of an output of the transaction's own message 7. -/
def tx : Transaction :=
  ⟨[.payment ⟨[openInput (outPoint 1)], [⟨10, [0x51], newPTNAsset⟩], 0⟩,
    .payment ⟨[openInput ⟨newSelfHash, 7, 0⟩], [⟨10, [0x51], newPTNAsset⟩], 0⟩], [],
    false⟩

end HostileTx

end ZwsChain
