import ZwsChain.Modules.WireInjective
import ZwsChain.TxScript.Parse
import ZwsChain.TxScript.SigCache

/-!
# What a full signature commits to

The data a signature is over are the bytes of a copy of the transaction in which unlocking scripts
are blanked and the script being executed stands at the signed input. The position of the input can
be told from them, as nothing else in the signed part keeps a script. Messages and fields can be
told as far as the copy keeps them, and the copy goes through the wire form, which loses the indexes
of an outpoint of the zero hash.

* `calcSignatureData_whole`: the data of a hash type that cuts nothing.
* `SignedInput.signed_eq`: equal data come from equal positions in transactions whose copies are
  equal but for scripts.
* `SignedInput.commits_iff`: the transactions a full signature commits to.
-/

open List Option

namespace ZwsChain

open Message
open Message (wireInput)

namespace TxScript

/-! ### The signed copy -/

/-- The messages of a copy as they are signed, before outputs and inputs are cut. -/
def signedMessages (sigScript : Bytes) (hashType : UInt8) (msgIdx idx : Nat)
    (requestIndex : Option Nat) (msgs : List Message) : List Message :=
  msgs.zipIdx.map fun (m, mIdx) =>
    blankScripts sigScript hashType msgIdx idx requestIndex mIdx m

/-- A hash type that signs every message, input and output. -/
structure Whole (hashType : UInt8) : Prop where
  allMessages : hashType &&& 0x40 ≠ 0x40
  outputs : hashType &&& 0x1f ≠ 2
  outputIndex : hashType &&& 0x1f ≠ 3
  inputs : hashType &&& 0x80 = 0

variable {hashType : UInt8}

lemma calcSignatureData_whole (h : Whole hashType) {tx : Transaction} {msgIdx : Nat}
    {pay : PaymentPayload} (hpay : tx.messages[msgIdx]? = some (.payment pay))
    (script : List ParsedOpcode) (idx : Nat) :
    calcSignatureData script hashType tx msgIdx idx =
      (tx.messages.mapM Transaction.cloneMessage).bind fun msgs =>
        (Transaction.mk (signedMessages ((unparseScript (removeOpcode script 0xab)).getD [])
          hashType msgIdx idx tx.getRequestMsgIndex msgs) tx.certId tx.illegal).encodeRLP := by
  simp only [calcSignatureData, signatureData, if_neg h.allMessages, bind_eq_bind, bind_some, hpay,
    h.outputIndex, decide_false, Bool.false_and, Bool.false_eq_true, if_false,
    Transaction.clone, bind_assoc]
  refine congrArg (Option.bind _) (funext fun msgs => ?_)
  refine congrArg (fun l => (Transaction.mk l tx.certId tx.illegal).encodeRLP) ?_
  -- nothing is cut
  unfold signedMessages
  generalize msgs.zipIdx.map _ = msgs
  nth_rewrite 2 [← zipIdx_map_fst 0 msgs]
  apply map_congr_left
  rintro ⟨m, mIdx⟩ -
  cases m with
  | payment pay => simp [trimPayment, h.outputs, h.outputIndex, h.inputs]
  | _ => rfl

section Blanks

variable (sigScript : Bytes) (hashType : UInt8) (msgIdx idx : Nat) (requestIndex : Option Nat)

@[simp] lemma app_blankScripts (mIdx : Nat) (m : Message) :
    (blankScripts sigScript hashType msgIdx idx requestIndex mIdx m).app = m.app := by
  cases m with
  | payment pay =>
    simp only [blankScripts]
    split <;> rfl
  | _ => rfl

/-- Only unlocking scripts are changed. -/
lemma scriptless_blankScripts (mIdx : Nat) (m : Message) :
    (blankScripts sigScript hashType msgIdx idx requestIndex mIdx m).scriptless = m.scriptless := by
  cases m with
  | payment pay =>
    simp only [blankScripts]
    split
    · rfl
    simp only [scriptless, mapInputs, List.map_map]
    nth_rewrite 2 [← zipIdx_map_fst 0 pay.inputs]
    rw [List.map_map]
    rfl
  | _ => rfl

lemma cloneMessage_blankScripts (mIdx : Nat) (m : Message) :
    Transaction.cloneMessage (blankScripts sigScript hashType msgIdx idx requestIndex mIdx m) =
      (Transaction.cloneMessage m).map
        (blankScripts sigScript hashType msgIdx idx requestIndex mIdx) := by
  cases m with
  | payment pay =>
    cases hkeep : requestIndex.any (· < msgIdx) && requestIndex.any (mIdx < ·) with
    | true =>
      simp [blankScripts, hkeep, Transaction.cloneMessage]
    | false =>
      simp only [blankScripts, hkeep, Transaction.cloneMessage, map_some,
        Bool.false_eq_true, if_false, zipIdx_map, List.map_map]
      rfl
  | contractDeploy p | contractInvoke p | contractStop p =>
    simp only [blankScripts, Transaction.cloneMessage]
    split <;> simp [blankScripts]
  | _ => rfl

/-- An unlocking script that is left is the one put at the signed input, or one of the request
of a result that is signed. -/
lemma position_of_script {mIdx i : Nat} {m : Message} {input : Input}
    (h : (blankScripts sigScript hashType msgIdx idx requestIndex mIdx m).inputs[i]? = some input)
    (hscript : input.signatureScript ≠ []) :
    (mIdx = msgIdx ∧ i = idx) ∨ ∃ r, requestIndex = some r ∧ r < msgIdx ∧ mIdx < r := by
  cases m with
  | payment pay =>
    simp only [blankScripts] at h
    split at h
    · next hkeep =>
        right
        cases requestIndex with
        | none => cases hkeep
        | some r =>
          simp only [any_some, Bool.and_eq_true, decide_eq_true_eq] at hkeep
          exact ⟨r, rfl, hkeep⟩
    left
    simp only [inputs, getElem?_map, getElem?_zipIdx, Option.map_map,
      map_eq_some_iff, Function.comp_apply] at h
    obtain ⟨x, -, rfl⟩ := h
    by_contra hne
    apply hscript
    simp only [zero_add, Bool.and_eq_true, decide_eq_true_eq]
    rw [if_neg]
    rintro ⟨⟨hi, hm⟩, -⟩
    exact hne ⟨hm, hi⟩
  | _ => simp [blankScripts, inputs] at h

end Blanks

/-! ### Signed inputs -/

/-- An input with the script it is signed for: one that is not empty and has no code separators. -/
structure SignedInput extends Site where
  script : List ParsedOpcode
  isInput : ∃ pay, tx.messages[msgIdx]? = some (.payment pay) ∧ txIdx < pay.inputs.length
  parsed : ∃ raw, raw ≠ [] ∧ parseScript raw = some script
  noSeparator : ∀ pop ∈ script, pop.value ≠ 0xab

namespace SignedInput

variable (s : SignedInput)

/-- What a full signature (`SigHashAll`) is over. -/
def data : Option Bytes :=
  calcSignatureData s.script 1 s.tx s.msgIdx s.txIdx

variable (raw : Bytes)

/-- The messages of a copy as a full signature with the script `raw` covers them. -/
def signed (msgs : List Message) : List Message :=
  signedMessages raw 1 s.msgIdx s.txIdx s.tx.getRequestMsgIndex msgs

lemma whole_one : Whole 1 where
  allMessages := by decide
  outputs := by decide
  outputIndex := by decide
  inputs := by decide

lemma exists_raw :
    ∃ raw, raw ≠ [] ∧ s.data = (s.tx.messages.mapM Transaction.cloneMessage).bind fun msgs =>
      (Transaction.mk (s.signed raw msgs) s.tx.certId s.tx.illegal).encodeRLP := by
  obtain ⟨pay, hpay, -⟩ := s.isInput
  obtain ⟨raw, hraw, hparse⟩ := s.parsed
  have hremove : removeOpcode s.script 0xab = s.script := by
    apply filter_eq_self.2
    intro pop hpop
    exact decide_eq_true (s.noSeparator pop hpop)
  refine ⟨raw, hraw, ?_⟩
  rw [data, calcSignatureData_whole whole_one hpay, hremove, unparseScript_parseOpcodes _ hparse]
  rfl

variable {d : Bytes} {s s' : SignedInput} {msgs : List Message}

lemma exists_of_data (h : s.data = some d) :
    ∃ raw msgs, raw ≠ [] ∧ s.tx.messages.mapM Transaction.cloneMessage = some msgs ∧
      (Transaction.mk (s.signed raw msgs) s.tx.certId s.tx.illegal).encodeRLP = some d := by
  obtain ⟨raw, hraw, hdata⟩ := s.exists_raw
  rw [hdata, bind_eq_some_iff] at h
  obtain ⟨msgs, hmsgs, hd⟩ := h
  exact ⟨raw, msgs, hraw, hmsgs, hd⟩

lemma getElem?_signed (msgs : List Message) (k : Nat) :
    (s.signed raw msgs)[k]? = msgs[k]?.map
      (blankScripts raw 1 s.msgIdx s.txIdx s.tx.getRequestMsgIndex k) := by
  simp [signed, signedMessages, getElem?_zipIdx, Function.comp_def]

lemma map_app_signed (msgs : List Message) :
    (s.signed raw msgs).map app = msgs.map app := by
  apply ext_getElem?
  intro k
  rw [getElem?_map, getElem?_map, getElem?_signed, Option.map_map]
  exact congrArg (fun f => Option.map f _) (funext fun m => app_blankScripts ..)

lemma map_scriptless_signed (msgs : List Message) :
    (s.signed raw msgs).map scriptless = msgs.map scriptless := by
  apply ext_getElem?
  intro k
  rw [getElem?_map, getElem?_map, getElem?_signed, Option.map_map]
  exact congrArg (fun f => Option.map f _) (funext fun m => scriptless_blankScripts ..)

/-- What is signed is its own clone. -/
lemma cloneMessage_signed (hmsgs : s.tx.messages.mapM Transaction.cloneMessage = some msgs) :
    ∀ m ∈ s.signed raw msgs, Transaction.cloneMessage m = some m := by
  intro m hm
  obtain ⟨k, hk⟩ := mem_iff_getElem?.1 hm
  rw [getElem?_signed, map_eq_some_iff] at hk
  obtain ⟨m', hm', rfl⟩ := hk
  obtain ⟨m₀, -, hclone⟩ := Lib.exists_of_mem_mapM hmsgs (mem_of_getElem? hm')
  rw [cloneMessage_blankScripts, cloneMessage_clone hclone]
  rfl

/-- The script stands at the signed input. -/
lemma script_at (hmsgs : s.tx.messages.mapM Transaction.cloneMessage = some msgs) :
    ∃ m input, (s.signed raw msgs)[s.msgIdx]? = some m ∧ m.inputs[s.txIdx]? = some input ∧
      input.signatureScript = raw := by
  obtain ⟨pay, hpay, hidx⟩ := s.isInput
  have hclone : msgs[s.msgIdx]? = Transaction.cloneMessage (.payment pay) := by
    rw [Lib.getElem?_of_forall₂ (Lib.forall₂_of_mapM hmsgs), hpay, bind_some]
  -- the signed message is never one of the request that are kept
  have hnot : (s.tx.getRequestMsgIndex.any (· < s.msgIdx) &&
      s.tx.getRequestMsgIndex.any (s.msgIdx < ·)) = false := by
    cases s.tx.getRequestMsgIndex with
    | none => rfl
    | some r =>
      simp only [any_some, Bool.and_eq_false_iff, decide_eq_false_iff_not]
      omega
  refine ⟨blankScripts raw 1 s.msgIdx s.txIdx s.tx.getRequestMsgIndex s.msgIdx
    (.payment { pay with inputs := pay.inputs.map wireInput }),
    { wireInput pay.inputs[s.txIdx] with signatureScript := raw }, ?_, ?_, rfl⟩
  · rw [getElem?_signed, hclone]
    rfl
  simp only [blankScripts, hnot, Bool.false_eq_true, if_false, inputs,
    getElem?_map, getElem?_zipIdx, getElem?_eq_getElem hidx,
    map_some, zero_add]
  simp [wireInput]

/-- The signed input can be told from what is signed. -/
lemma position_eq {raw raw' : Bytes} {msgs' : List Message} (hraw : raw ≠ []) (hraw' : raw' ≠ [])
    (hmsgs : s.tx.messages.mapM Transaction.cloneMessage = some msgs)
    (hmsgs' : s'.tx.messages.mapM Transaction.cloneMessage = some msgs')
    (hrequest : s.tx.getRequestMsgIndex = s'.tx.getRequestMsgIndex)
    (h : s.signed raw msgs = s'.signed raw' msgs') : s.msgIdx = s'.msgIdx ∧ s.txIdx = s'.txIdx := by
  have hplace : ∀ (t t' : SignedInput) (b b' : Bytes) (l l' : List Message), b ≠ [] →
      t.tx.messages.mapM Transaction.cloneMessage = some l → t.signed b l = t'.signed b' l' →
      (t.msgIdx = t'.msgIdx ∧ t.txIdx = t'.txIdx) ∨
        ∃ r, t'.tx.getRequestMsgIndex = some r ∧ r < t'.msgIdx ∧ t.msgIdx < r := by
    intro t t' b b' l l' hb hl heq
    obtain ⟨m, input, hm, hinput, hscript⟩ := t.script_at b hl
    rw [heq, getElem?_signed, map_eq_some_iff] at hm
    obtain ⟨m', -, rfl⟩ := hm
    exact position_of_script _ _ _ _ _ hinput (by rwa [hscript])
  rcases hplace s s' raw raw' msgs msgs' hraw hmsgs h with heq | ⟨r, hr, hlt, hlt'⟩
  · exact heq
  rcases hplace s' s raw' raw msgs' msgs hraw' hmsgs' h.symm with heq | ⟨r', hr', hlt₁, hlt₂⟩
  · exact ⟨heq.1.symm, heq.2.symm⟩
  rw [hrequest, hr] at hr'
  obtain rfl := some.inj hr'
  omega

/-- The same input of the transaction with the next outputs. -/
def nextOutputs (s : SignedInput) : SignedInput where
  tx := s.tx.nextOutputs
  msgIdx := s.msgIdx
  txIdx := s.txIdx
  script := s.script
  isInput := by
    obtain ⟨pay, hpay, hidx⟩ := s.isInput
    refine ⟨{ pay with inputs := pay.inputs.map nextOutput }, ?_, by simpa using hidx⟩
    simp [Transaction.nextOutputs, hpay, mapInputs]
  parsed := s.parsed
  noSeparator := s.noSeparator

lemma data_nextOutputs : s.nextOutputs.data = s.data := by
  obtain ⟨pay, hpay, -⟩ := s.isInput
  obtain ⟨pay', hpay', -⟩ := s.nextOutputs.isInput
  rw [data, data, calcSignatureData_whole whole_one hpay, calcSignatureData_whole whole_one hpay']
  show (s.tx.nextOutputs.messages.mapM Transaction.cloneMessage).bind _ = _
  rw [s.tx.mapM_cloneMessage_nextOutputs]
  show ((s.tx.messages.mapM Transaction.cloneMessage).bind fun msgs => (Transaction.mk
    (signedMessages _ 1 s.msgIdx s.txIdx s.tx.nextOutputs.getRequestMsgIndex msgs)
      _ _).encodeRLP) = _
  rw [@Transaction.getRequestMsgIndex_of_app _ s.tx (by simp [Transaction.nextOutputs])]
  rfl

/-- Inputs whose data are equal stand at the same place of transactions that are signed alike. -/
lemma signed_eq (h : s.data = some d) (h' : s'.data = some d) (hsize : d.length < 2 ^ 64) :
    ∃ msgs msgs', s.tx.messages.mapM Transaction.cloneMessage = some msgs ∧
      s'.tx.messages.mapM Transaction.cloneMessage = some msgs' ∧
      msgs.map scriptless = msgs'.map scriptless ∧
      s.tx.certId = s'.tx.certId ∧ s.tx.illegal = s'.tx.illegal ∧
      s.msgIdx = s'.msgIdx ∧ s.txIdx = s'.txIdx := by
  obtain ⟨raw, msgs, hraw, hmsgs, hd⟩ := exists_of_data h
  obtain ⟨raw', msgs', hraw', hmsgs', hd'⟩ := exists_of_data h'
  obtain ⟨hwire, hcert, hillegal⟩ := Transaction.wire_of_encodeRLP hd hd' hsize
  have hsigned : s.signed raw msgs = s'.signed raw' msgs' := eq_of_map_wire hwire
    (s.cloneMessage_signed raw hmsgs) (s'.cloneMessage_signed raw' hmsgs')
  have hrequest : s.tx.getRequestMsgIndex = s'.tx.getRequestMsgIndex := by
    apply Transaction.getRequestMsgIndex_of_app
    rw [← Transaction.map_app_clones hmsgs, ← Transaction.map_app_clones hmsgs',
      ← s.map_app_signed raw msgs, hsigned, s'.map_app_signed raw' msgs']
  obtain ⟨hmsgIdx, htxIdx⟩ := position_eq hraw hraw' hmsgs hmsgs' hrequest hsigned
  refine ⟨msgs, msgs', hmsgs, hmsgs', ?_, hcert, hillegal, hmsgIdx, htxIdx⟩
  rw [← s.map_scriptless_signed raw msgs, hsigned, s'.map_scriptless_signed raw' msgs']

/-- A full signature of an input commits to the whole transaction but for unlocking scripts, and
to the input's position, exactly if every input spends an output of another transaction. The
encoding of transactions is taken to tell apart those that are compared. -/
theorem commits_iff (s : SignedInput) {d : Bytes} (hd : s.data = some d)
    (hsize : d.length < 2 ^ 64)
    (hsize' : ∀ b, s.tx.scriptless.encodeRLP = some b → b.length < 2 ^ 64) :
    (∀ s' : SignedInput, s'.data = some d →
      (s.tx.scriptless.encodeRLP = s'.tx.scriptless.encodeRLP →
        s.tx.scriptless = s'.tx.scriptless) →
      s.tx.scriptless = s'.tx.scriptless ∧ s.msgIdx = s'.msgIdx ∧ s.txIdx = s'.txIdx) ↔
    ∀ m ∈ s.tx.messages, ∀ i ∈ m.inputs,
      ∃ op, i.previousOutPoint = some op ∧ emptyHash op.txHash = false := by
  constructor
  · intro h m hm i hi
    by_contra hother
    obtain ⟨raw, msgs, -, hmsgs, -⟩ := exists_of_data hd
    have hne := Transaction.encodeRLP_nextOutputs_ne hmsgs hsize' hm hi hother
    have heq := (h s.nextOutputs (s.data_nextOutputs.trans hd) fun heq => absurd heq hne).1
    exact hne (congrArg Transaction.encodeRLP heq)
  intro h s' hd' hinj
  obtain ⟨msgs, msgs', hmsgs, hmsgs', hclones, hcert, hillegal, hmsgIdx, htxIdx⟩ :=
    signed_eq hd hd' hsize
  refine ⟨hinj ?_, hmsgIdx, htxIdx⟩
  exact Transaction.encodeRLP_scriptless_eq hmsgs hmsgs' hclones hcert hillegal h

end SignedInput

/-! ### An outpoint that is not signed

A transaction of two payments, the second with an outpoint of the zero hash. The owner of the first
input signs, and the signature holds for every index of the outpoint. -/

namespace ZeroHash

def owner : Address := newAddress (List.replicate 20 7) .publicKeyHash

def output (value : UInt64) : Output := ⟨value, generateLockScript owner, newPTNAsset⟩

def stored : OutPoint := ⟨⟨List.replicate 32 1, rfl⟩, 0, 0⟩

/-- The first payment alone, or with one whose outpoint is the given one. -/
def payments (outPoints : List OutPoint) : Transaction :=
  ⟨.payment ⟨[⟨[], [], some stored⟩], [output 5, output 6], 0⟩ ::
    outPoints.map fun op => .payment ⟨[⟨[], [], some op⟩], [output 5], 0⟩, [], false⟩

def zeroHash (outIndex : UInt32) : OutPoint := ⟨FixedBytes.zero 32, 0, outIndex⟩

/-- The first input, signed for its lock script. -/
def first (outPoints : List OutPoint) : SignedInput where
  tx := payments outPoints
  msgIdx := 0
  txIdx := 0
  script := (parseScript (generateLockScript owner)).getD []
  isInput := ⟨_, rfl, by decide⟩
  parsed := ⟨generateLockScript owner, by decide, by decide +kernel⟩
  noSeparator := by decide +kernel

end ZeroHash

open ZeroHash in
/-- One signature is over both transactions, which spend different outputs and have different
encodings. -/
theorem ZeroHash.signed_for_both :
    (first [zeroHash 0]).data.isSome ∧ (first [zeroHash 0]).data = (first [zeroHash 1]).data ∧
      (first [zeroHash 0]).tx.scriptless.encodeRLP ≠ (first [zeroHash 1]).tx.scriptless.encodeRLP ∧
      (first [zeroHash 0]).tx.scriptless ≠ (first [zeroHash 1]).tx.scriptless := by
  decide +kernel

open ZeroHash in
/-- Without the second payment the signature commits to the transaction. -/
theorem ZeroHash.first_commits : ∃ d, (first []).data = some d ∧
    ∀ s' : SignedInput, s'.data = some d →
      ((first []).tx.scriptless.encodeRLP = s'.tx.scriptless.encodeRLP →
        (first []).tx.scriptless = s'.tx.scriptless) →
      (first []).tx.scriptless = s'.tx.scriptless ∧ (first []).msgIdx = s'.msgIdx ∧
        (first []).txIdx = s'.txIdx := by
  have hdata : (first []).data.any fun d => d.length < 2 ^ 64 := by decide +kernel
  obtain ⟨d, hd, hsize⟩ := (Option.any_eq_true _ _).1 hdata
  have hsize' : (first []).tx.scriptless.encodeRLP.all fun b => b.length < 2 ^ 64 := by
    decide +kernel
  rw [Option.all_eq_true] at hsize'
  refine ⟨d, hd, ?_⟩
  apply ((first []).commits_iff hd (of_decide_eq_true hsize) _).2
  · simp [first, payments, inputs, stored, emptyHash]
    decide
  · intro b hb
    exact of_decide_eq_true (hsize' b hb)

end TxScript

end ZwsChain
