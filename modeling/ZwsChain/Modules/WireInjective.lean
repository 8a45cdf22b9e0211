import ZwsChain.Modules.WireFormat

/-!
# What the bytes of a transaction tell

The encoding of transactions is injective up to the wire form of messages
(`Transaction.wire_of_encodeRLP`), and messages that have been read back are equal if they are
written alike (`Message.eq_of_map_wire`). A deep copy through the wire form loses the indexes of an
outpoint of the zero hash, so transactions that differ there only have the same copy
(`Transaction.nextOutputs`), while their own bytes differ (`Transaction.encodeRLP_nextOutputs_ne`).
-/

open List Option

namespace ZwsChain

open Transaction
open Lib.Rlp (Item)

namespace Message

/-! ### Messages with other inputs -/

/-- A message with every input of its payment changed. -/
def mapInputs (f : Input → Input) : Message → Message
  | .payment p => .payment { p with inputs := p.inputs.map f }
  | m => m

/-- A message without unlocking scripts. -/
def scriptless : Message → Message :=
  mapInputs fun i => { i with signatureScript := [] }

@[simp] lemma app_mapInputs (f : Input → Input) (m : Message) : (m.mapInputs f).app = m.app := by
  cases m <;> rfl

@[simp] lemma inputs_mapInputs (f : Input → Input) (m : Message) :
    (m.mapInputs f).inputs = m.inputs.map f := by
  cases m <;> rfl

/-- Changes of inputs that the wire form does not see do not change the clone. -/
lemma cloneMessage_mapInputs {f g : Input → Input} (h : ∀ i, wireInput (f i) = g (wireInput i))
    (m : Message) :
    cloneMessage (m.mapInputs f) = (cloneMessage m).map (mapInputs g) := by
  cases m with
  | payment p =>
    show some (Message.payment ⟨(p.inputs.map f).map wireInput, p.outputs, p.lockTime⟩) =
      some (Message.payment ⟨(p.inputs.map wireInput).map g, p.outputs, p.lockTime⟩)
    rw [List.map_map, List.map_map]
    exact congrArg (fun l => some (Message.payment ⟨l, p.outputs, p.lockTime⟩))
      (map_congr_left fun i _ => h i)
  | contractDeploy p | contractInvoke p | contractStop p =>
    simp only [mapInputs, cloneMessage]
    split <;> simp [mapInputs]
  | _ => rfl

/-! ### Clones -/

variable {m m' : Message}

/-- A message that is its own clone is read back from its wire form. -/
lemma ofItem_wire (h : cloneMessage m = some m) :
    (wire m).2.bind (ofItem (wire m).1) = some m := by
  cases hd : m.rlpItem with
  | none =>
    cases m with
    | unknown app => cases h
    | _ => cases hd
  | some d => rw [wire, hd, bind_some, ofItem_rlpItem hd, h]

/-- Messages that are their own clones and are written alike are equal. -/
lemma eq_of_map_wire {msgs msgs' : List Message} (h : msgs.map wire = msgs'.map wire)
    (hm : ∀ m ∈ msgs, cloneMessage m = some m)
    (hm' : ∀ m ∈ msgs', cloneMessage m = some m) : msgs = msgs' := by
  have hread : ∀ l : List Message, (∀ m ∈ l, cloneMessage m = some m) →
      (l.map wire).map (fun w => w.2.bind (ofItem w.1)) = l.map some := by
    intro l hl
    rw [List.map_map]
    exact map_congr_left fun m hm => ofItem_wire (hl m hm)
  apply map_injective_iff.2 (some_injective Message)
  rw [← hread msgs hm, ← hread msgs' hm', h]

lemma map_inputs_cloneMessage (h : cloneMessage m = some m') :
    m'.inputs = m.inputs.map wireInput := by
  rcases cloneMessage_cases h with ⟨rfl, hnil⟩ | ⟨p, rfl, rfl⟩ | ⟨p, rfl, -, rfl⟩
  · rw [hnil, map_nil]
  · rfl
  · rfl

/-- A clone is its own clone. -/
lemma cloneMessage_clone (h : cloneMessage m = some m') :
    cloneMessage m' = some m' := by
  rcases cloneMessage_cases h with ⟨rfl, -⟩ | ⟨p, rfl, rfl⟩ | ⟨p, rfl, hs, rfl⟩
  · exact h
  · show some (Message.payment ⟨(p.inputs.map wireInput).map wireInput, p.outputs, p.lockTime⟩) =
      some (Message.payment ⟨p.inputs.map wireInput, p.outputs, p.lockTime⟩)
    rw [List.map_map]
    exact congrArg (fun l => some (Message.payment ⟨l, p.outputs, p.lockTime⟩))
      (map_congr_left fun i _ => by simp [wireInput])
  · obtain ⟨hall, -⟩ := ite_none_right_eq_some.1 h
    simp [cloneMessage, hs, hall]

end Message

namespace Transaction

open Message (wire)

/-! ### Bytes -/

lemma wire_of_messageTemp {m m' : Message} {i : Item} (h : messageTemp m = some i)
    (h' : messageTemp m' = some i) (hsize : (Lib.Rlp.encode i).length < 2 ^ 64) :
    wire m = wire m' := by
  have hitem := rlpItem_of_messageTemp h h' hsize
  simp only [messageTemp, do_eq_some, some.injEq] at h h'
  obtain ⟨d, -, rfl⟩ := h
  obtain ⟨d', -, heq⟩ := h'
  simp only [Item.list.injEq, List.cons.injEq] at heq
  have happ := congrArg Message.readUInt8 heq.1
  simp only [Message.readUInt8_natItem, some.injEq] at happ
  exact Prod.ext happ.symm hitem.symm

lemma map_wire_of_messageTemp {msgs msgs' : List Message} {l : List Item}
    (h : List.Forall₂ (messageTemp · = some ·) msgs l)
    (h' : List.Forall₂ (messageTemp · = some ·) msgs' l)
    (hsize : ∀ i ∈ l, (Lib.Rlp.encode i).length < 2 ^ 64) : msgs.map wire = msgs'.map wire := by
  induction h generalizing msgs' with
  | nil =>
    cases h'
    rfl
  | cons hm _ ih =>
    cases h' with
    | cons hm' hms' =>
      rw [map_cons, map_cons, wire_of_messageTemp hm hm' (hsize _ mem_cons_self),
        ih hms' fun i hi => hsize i (mem_cons_of_mem _ hi)]

/-- Transactions of the same bytes have the same fields and messages written alike. -/
lemma wire_of_encodeRLP {tx tx' : Transaction} {b : Bytes} (h : tx.encodeRLP = some b)
    (h' : tx'.encodeRLP = some b) (hsize : b.length < 2 ^ 64) :
    tx.messages.map wire = tx'.messages.map wire ∧ tx.certId = tx'.certId ∧
      tx.illegal = tx'.illegal := by
  obtain ⟨l, hl, rfl⟩ := encodeRLP_eq_some h
  obtain ⟨l', hl', heq⟩ := encodeRLP_eq_some h'
  have hitem := Lib.Rlp.encode_injective hsize heq
  simp only [Item.list.injEq, List.cons.injEq, Item.str.injEq, and_true] at hitem
  obtain ⟨rfl, hcert, hillegal⟩ := hitem
  have hbool := congrArg Item.toBool hillegal
  simp only [Message.toBool_boolItem, some.injEq] at hbool
  refine ⟨?_, hcert, hbool⟩
  exact map_wire_of_messageTemp (Lib.forall₂_of_mapM hl) (Lib.forall₂_of_mapM hl') fun i hi =>
    (length_encode_le hi).trans_lt hsize

/-- What is read from the bytes of a transaction can be written, and is then read as it is: the
nodes behind the first one of a relay have the same transaction. -/
theorem relayed_unchanged {tx tx' : Transaction} {b : Bytes} (h : tx.encodeRLP = some b)
    (hsize : b.length < 2 ^ 64) (hread : decodeRLP b = some tx') :
    ∃ b', tx'.encodeRLP = some b' ∧ (b'.length < 2 ^ 64 → decodeRLP b' = some tx') := by
  rw [decodeRLP_encodeRLP h hsize] at hread
  obtain ⟨msgs, hmsgs, heq⟩ := do_eq_some.1 hread
  obtain rfl := some.inj heq
  have hself : ∀ m ∈ msgs, cloneMessage m = some m := by
    intro m hm
    obtain ⟨m₀, -, hclone⟩ := Lib.exists_of_mem_mapM hmsgs hm
    exact Message.cloneMessage_clone hclone
  have hclone : msgs.mapM cloneMessage = some msgs := by
    clear hmsgs hread heq
    induction msgs with
    | nil => rfl
    | cons m msgs ih =>
      rw [forall_mem_cons] at hself
      rw [mapM_cons, hself.1, ih hself.2]
      rfl
  obtain ⟨b', hb'⟩ : ∃ b', ({ tx with messages := msgs } : Transaction).encodeRLP = some b' := by
    refine exists_encodeRLP fun m hm => ?_
    cases m with
    | unknown app => cases hself _ hm
    | _ => rfl
  refine ⟨b', hb', fun hsize' => ?_⟩
  rw [decodeRLP_encodeRLP hb' hsize', clone, hclone]
  rfl

end Transaction

/-- The result of the call is relayed. -/
theorem AbsentKey.result_relayed : ∃ b tx' b', (result none).encodeRLP = some b ∧
    decodeRLP b = some tx' ∧ tx'.encodeRLP = some b' ∧
      (b'.length < 2 ^ 64 → decodeRLP b' = some tx') := by
  have hread : (result none).encodeRLP.any fun b => b.length < 2 ^ 64 ∧ (decodeRLP b).isSome := by
    decide +kernel
  obtain ⟨b, hb, hread⟩ := (Option.any_eq_true _ _).1 hread
  obtain ⟨hsize, hread⟩ := of_decide_eq_true hread
  obtain ⟨tx', hread⟩ := isSome_iff_exists.1 hread
  obtain ⟨b', hrelayed⟩ := relayed_unchanged hb hsize hread
  exact ⟨b, tx', b', hb, hread, hrelayed⟩

/-! ### Inputs that spend outputs of other transactions -/

/-- The input spends an output of another transaction: it has an outpoint, whose hash is not
zero. -/
def Input.SpendsOther (i : Input) : Prop :=
  ∃ op, i.previousOutPoint = some op ∧ emptyHash op.txHash = false

namespace Message

lemma spendsOther_wireInput_iff (i : Input) : (wireInput i).SpendsOther ↔ i.SpendsOther := by
  simp only [Input.SpendsOther, wireInput, filter_eq_some_iff, Bool.not_eq_true']
  exact exists_congr fun op => ⟨fun h => ⟨h.1.1, h.2⟩, fun h => ⟨⟨h.1, h.2⟩, h.2⟩⟩

variable {i : Input} {m m' : Message}

lemma plainOutpoint_of_spendsOther (h : i.SpendsOther) : PlainOutpoint i := by
  obtain ⟨op, hop, hhash⟩ := h
  intro op' hop' hzero
  rw [hop] at hop'
  obtain rfl := some.inj hop'
  rw [hhash] at hzero
  cases hzero

lemma spendsOther_scriptless (h : m.scriptless = m'.scriptless)
    (hm : ∀ i ∈ m.inputs, i.SpendsOther) : ∀ i ∈ m'.inputs, i.SpendsOther := by
  intro i hi
  have hmem : { i with signatureScript := [] } ∈ m.scriptless.inputs := by
    rw [h, scriptless, inputs_mapInputs]
    exact List.mem_map_of_mem hi
  rw [scriptless, inputs_mapInputs, List.mem_map] at hmem
  obtain ⟨i', hi', heq⟩ := hmem
  obtain ⟨op, hop, hhash⟩ := hm i' hi'
  exact ⟨op, (congrArg Input.previousOutPoint heq).symm.trans hop, hhash⟩

/-- A clone spends the outputs of other transactions that the message spends. -/
lemma spendsOther_clone (h : cloneMessage m = some m') :
    (∀ i ∈ m'.inputs, i.SpendsOther) ↔ ∀ i ∈ m.inputs, i.SpendsOther := by
  rw [map_inputs_cloneMessage h, List.forall_mem_map]
  exact forall₂_congr fun i _ => spendsOther_wireInput_iff i

lemma cloneMessage_scriptless (h : cloneMessage m = some m') :
    cloneMessage m.scriptless = some m'.scriptless := by
  rw [scriptless, cloneMessage_mapInputs (g := fun i => { i with signatureScript := [] }) _ m, h]
  · rfl
  · intro i
    rfl

/-- Without scripts, a message whose inputs all spend outputs of other transactions is written as
its clone. -/
lemma wire_scriptless_clone (h : cloneMessage m = some m')
    (hm : ∀ i ∈ m.inputs, i.SpendsOther) : wire m'.scriptless = wire m.scriptless := by
  have hclone := cloneMessage_scriptless h
  refine Prod.ext (app_cloneMessage hclone) ((rlpItem_cloneMessage_iff hclone).2 ?_)
  rw [scriptless, inputs_mapInputs, List.forall_mem_map]
  intro i hi
  exact plainOutpoint_of_spendsOther (hm i hi)

/-- The input with an outpoint of the zero hash that the wire form does not show, if it does not
spend an output of another transaction: the next output of what it names. -/
def nextOutput (i : Input) : Input :=
  if (wireInput i).previousOutPoint.isSome then i
  else
    let op := i.previousOutPoint.getD ⟨FixedBytes.zero 32, 0, 0⟩
    { i with previousOutPoint := some ⟨FixedBytes.zero 32, op.messageIndex, op.outIndex + 1⟩ }

lemma wireInput_nextOutput (i : Input) : wireInput (nextOutput i) = wireInput i := by
  unfold nextOutput
  split
  · rfl
  rename_i h
  rw [not_isSome_iff_eq_none] at h
  simp only [wireInput] at h ⊢
  rw [h]
  simp [emptyHash]

lemma inputItem_nextOutput_ne (h : ¬ i.SpendsOther) :
    inputItem { i with signatureScript := [] } ≠
      inputItem { nextOutput i with signatureScript := [] } := by
  have hnone : ¬ (wireInput i).previousOutPoint.isSome := by
    intro hsome
    obtain ⟨op, hop⟩ := isSome_iff_exists.1 hsome
    simp only [wireInput, filter_eq_some_iff, Bool.not_eq_true'] at hop
    exact h ⟨op, hop⟩
  intro heq
  simp only [nextOutput, if_neg hnone, inputItem, getD_some, Lib.Rlp.Item.list.injEq,
    List.cons.injEq, and_true] at heq
  have hindex := natItem_toNat_injective heq.2.2.2.2
  have hlt := congrArg UInt32.toNat hindex
  simp at hlt
  omega

end Message

namespace Transaction

open Message (wire)

/-- A transaction without unlocking scripts. -/
def scriptless (tx : Transaction) : Transaction :=
  { tx with messages := tx.messages.map Message.scriptless }

/-- The transaction with the next output in place of what the wire form does not show. -/
def nextOutputs (tx : Transaction) : Transaction :=
  { tx with messages := tx.messages.map (Message.mapInputs Message.nextOutput) }

variable {tx tx' : Transaction} {msgs : List Message}

lemma getRequestMsgIndex_of_app (h : tx.messages.map Message.app = tx'.messages.map Message.app) :
    tx.getRequestMsgIndex = tx'.getRequestMsgIndex := by
  have happ : ∀ l : List Message,
      l.findIdx? Message.isRequest = (l.map Message.app).findIdx? (· > 99) := by
    intro l
    rw [findIdx?_map]
    rfl
  rw [getRequestMsgIndex, getRequestMsgIndex, happ, happ, h]

lemma map_app_clones {l l' : List Message} (h : l.mapM cloneMessage = some l') :
    l'.map Message.app = l.map Message.app := by
  have hforall := Lib.forall₂_of_mapM h
  clear h
  induction hforall with
  | nil => rfl
  | cons hm _ ih => rw [map_cons, map_cons, ih, Message.app_cloneMessage hm]

lemma mapM_cloneMessage_nextOutputs (tx : Transaction) :
    tx.nextOutputs.messages.mapM cloneMessage = tx.messages.mapM cloneMessage := by
  have hmessage : ∀ m : Message,
      cloneMessage (m.mapInputs Message.nextOutput) = cloneMessage m := by
    intro m
    rw [Message.cloneMessage_mapInputs (g := id) Message.wireInput_nextOutput]
    have hid : Message.mapInputs id = id := by
      funext m
      cases m <;> simp [Message.mapInputs]
    rw [hid, Option.map_id, id]
  rw [nextOutputs, mapM_map]
  exact congrArg (List.mapM · tx.messages) (funext hmessage)

/-- The encoding tells the two apart, if an input does not spend an output of another
transaction. -/
lemma encodeRLP_nextOutputs_ne (hmsgs : tx.messages.mapM cloneMessage = some msgs)
    (hsize : ∀ b, tx.scriptless.encodeRLP = some b → b.length < 2 ^ 64) {m : Message}
    (hm : m ∈ tx.messages) {i : Input} (hi : i ∈ m.inputs) (h : ¬ i.SpendsOther) :
    tx.scriptless.encodeRLP ≠ tx.nextOutputs.scriptless.encodeRLP := by
  have hknown : ∀ m ∈ tx.scriptless.messages, knownApp m.app = true := by
    intro m' hm'
    obtain ⟨m₀, hm₀, rfl⟩ := List.mem_map.1 hm'
    obtain ⟨m', -, hclone⟩ := Lib.exists_of_mapM hmsgs hm₀
    cases m₀ with
    | unknown app => cases hclone
    | _ => rfl
  obtain ⟨b, hb⟩ := exists_encodeRLP hknown
  intro heq
  have hwire := (wire_of_encodeRLP hb (heq ▸ hb) (hsize b hb)).1
  simp only [scriptless, nextOutputs, List.map_map, map_inj_left, Function.comp_apply] at hwire
  have hitem := congrArg Prod.snd (hwire m hm)
  cases m with
  | payment p =>
    simp only [wire, Message.scriptless, Message.mapInputs, Message.rlpItem, Message.paymentItem,
      some.injEq, Lib.Rlp.Item.list.injEq, List.cons.injEq, List.map_map,
      map_inj_left, Function.comp_apply, and_true] at hitem
    exact Message.inputItem_nextOutput_ne h (hitem i hi)
  | _ => cases hi

/-- Transactions whose clones are equal without scripts, the inputs of one spending outputs of
other transactions, have the same encoding without scripts. -/
lemma encodeRLP_scriptless_eq {msgs' : List Message}
    (hmsgs : tx.messages.mapM cloneMessage = some msgs)
    (hmsgs' : tx'.messages.mapM cloneMessage = some msgs')
    (hclones : msgs.map Message.scriptless = msgs'.map Message.scriptless)
    (hcert : tx.certId = tx'.certId) (hillegal : tx.illegal = tx'.illegal)
    (h : ∀ m ∈ tx.messages, ∀ i ∈ m.inputs, i.SpendsOther) :
    tx.scriptless.encodeRLP = tx'.scriptless.encodeRLP := by
  have hspends' : ∀ m ∈ tx'.messages, ∀ i ∈ m.inputs, i.SpendsOther := by
    intro m hm
    obtain ⟨c, hc, hclone⟩ := Lib.exists_of_mapM hmsgs' hm
    have hmem : c.scriptless ∈ msgs.map Message.scriptless := by
      rw [hclones]
      exact List.mem_map_of_mem hc
    obtain ⟨c₀, hc₀, heq⟩ := List.mem_map.1 hmem
    obtain ⟨m₀, hm₀, hclone₀⟩ := Lib.exists_of_mem_mapM hmsgs hc₀
    apply (Message.spendsOther_clone hclone).1
    exact Message.spendsOther_scriptless heq ((Message.spendsOther_clone hclone₀).2 (h m₀ hm₀))
  have hwire : ∀ {l l' : List Message}, l.mapM cloneMessage = some l' →
      (∀ m ∈ l, ∀ i ∈ m.inputs, i.SpendsOther) →
      (l.map Message.scriptless).map wire = (l'.map Message.scriptless).map wire := by
    intro l l' hl hinputs
    have hforall := Lib.forall₂_of_mapM hl
    clear hl
    induction hforall with
    | nil => rfl
    | cons hm _ ih =>
      rw [forall_mem_cons] at hinputs
      simp [ih hinputs.2, Message.wire_scriptless_clone hm hinputs.1]
  show (Transaction.mk (tx.messages.map Message.scriptless) tx.certId tx.illegal).encodeRLP =
    (Transaction.mk (tx'.messages.map Message.scriptless) tx'.certId tx'.illegal).encodeRLP
  rw [hcert, hillegal]
  apply encodeRLP_congr
  rw [hwire hmsgs h, hwire hmsgs' hspends', hclones]

end Transaction

end ZwsChain
