import ZwsChain.Jury.Arguments

/-!
# Refunds of a failed request

When a request fails, `contractPayBack` returns what the payments in front of the request paid to
the contract. Whom a payment came from is read off the unlocking script of its first input, not
off the output that is spent there, and the scan gives up all refunds at the first lock script
that does not parse, whoever it pays.

* `refunded_iff`: when all that the contract was paid goes back to its payers.
* `KeptPayment.not_refunded`: a payment that is kept because of another output.
-/

open List Option

namespace ZwsChain

open TxScript (getAddressFromScript generateLockScript)

namespace TxScript

/-- What decoding a word of the disassembly as hexadecimal gives: the data of a push, and a byte
for the numbers `10` to `16`.
Source: `txscript/script.go`, `DisasmString` -/
def wordBytes (pop : ParsedOpcode) : Bytes :=
  if opcodeLength pop.value ≠ 1 then pop.data
  else if 0x5a ≤ pop.value ∧ pop.value ≤ 0x60 then [pop.value - 0x4a] else []

/-- Two words are a signature and a key; the last of more words is a redeem script.
Source: `tokenengine/api.go`, `GetAddressFromUnlockScript` -/
def getAddressFromUnlockScript (P : Primitives) (unlockScript : Bytes) : Option Address := do
  match (← parseScript unlockScript).reverse with
  | [pubKey, _] => some (pubkeyBytesToAddress P (wordBytes pubKey))
  | redeem :: _ :: _ => some (newAddress (P.hash160 (wordBytes redeem)).val .scriptHash)
  | _ => none

end TxScript

/-- An output of a payment, with its place in the transaction. -/
structure Paid where
  msgIdx : Nat
  payment : PaymentPayload
  out : Output
  outIdx : Nat

/-- The outputs of a message. -/
def Message.paid (i : Nat) : Message → List Paid
  | .payment p => p.outputs.zipIdx.map fun (out, j) => ⟨i, p, out, j⟩
  | _ => []

/-- The outputs in front of the request. -/
def paidBefore : List (Message × Nat) → List Paid
  | [] => []
  | (m, i) :: ms => if m.isRequest then [] else m.paid i ++ paidBefore ms

/-- The message that spends the output and pays it to an address. -/
def Paid.refund (x : Paid) (addr : Address) : Message :=
  .payment ⟨[⟨[], [], some ⟨newSelfHash, UInt32.ofNat x.msgIdx, UInt32.ofNat x.outIdx⟩⟩],
    [⟨x.out.value, generateLockScript addr, x.out.asset⟩], 0⟩

namespace Processor

variable (Q : Processor) (addr : Bytes) (tx : Transaction)

/-- Whether an output has an address with the bytes of the contract id. -/
def namesContract (x : Paid) : Bool :=
  (getAddressFromScript Q.V.P x.out.pkScript).any fun a => a.bytes = addr

/-- Whether an output pays the contract. -/
def paysContract (x : Paid) : Bool :=
  Q.namesContract addr x && (getAddressFromScript Q.V.P x.out.pkScript).any fun a =>
    a.getType = AddressType.contractHash.toByte

/-- The owner of the first input. -/
def payer (p : PaymentPayload) : Option Address := do
  Q.getAddrByOutPoint (← (← p.inputs.head?).previousOutPoint)

/-- The owner of the first input according to the unlocking script. -/
def unlocker (p : PaymentPayload) : Option Address := do
  Q.getAddressFromUnlockScript (← p.inputs.head?).signatureScript

/-- A message spends an output, whose place fits in an outpoint, and pays it to its payer. -/
def Repays (x : Paid) (m : Message) : Prop :=
  x.msgIdx < 2 ^ 32 ∧ x.outIdx < 2 ^ 32 ∧ ∃ a, Q.payer x.payment = some a ∧ m = x.refund a

/-- The result of the failed request gives each output that pays the contract back, once, and
spends nothing else. -/
def Refunded (errIn : Bytes) : Prop :=
  ∃ addr msgs errMsg refunds, tx.getContractId Q.V.P = some addr ∧ tx.txMessages = some msgs ∧
    Q.genContractErrorMsg tx errIn true = some (.ok (errMsg :: refunds)) ∧
    Forall₂ Q.Repays ((paidBefore msgs.zipIdx).filter (Q.paysContract addr)) refunds

/-- The lock script parses. If it has the bytes of the contract id, it is the contract's, and the
unlocking script names the payer. -/
def Repayable (x : Paid) : Prop :=
  (getAddressFromScript Q.V.P x.out.pkScript).isSome ∧ (Q.namesContract addr x →
    Q.paysContract addr x ∧ ∃ a, Q.unlocker x.payment = some a ∧ Q.Repays x (x.refund a))

/-- The scan gets past an output: the lock script parses and, if it has the bytes of the contract
id, the unlocking script has an address. -/
def Passes (x : Paid) : Prop :=
  (getAddressFromScript Q.V.P x.out.pkScript).isSome ∧
    (Q.namesContract addr x → (Q.unlocker x.payment).isSome)

/-- The scan gives up at an output, without a panic: the lock script does not parse, or it has the
bytes of the contract id and there is a first input, whose unlocking script has no address. -/
def GivesUp (x : Paid) : Prop :=
  getAddressFromScript Q.V.P x.out.pkScript = none ∨
    Q.namesContract addr x ∧ x.payment.inputs ≠ [] ∧ Q.unlocker x.payment = none

/-- The scan gives up at one of the outputs and gets past those before it. -/
def GivenUp (l : List Paid) : Prop :=
  ∃ l₁ x l₂, l = l₁ ++ x :: l₂ ∧ (∀ y ∈ l₁, Q.Passes addr y) ∧ Q.GivesUp addr x

/-- The scan gets past all outputs, with these refunds. -/
def Scanned (l : List Paid) (ms : List Message) : Prop :=
  (∀ x ∈ l, Q.Passes addr x) ∧ (l.filter (Q.namesContract addr)).map
    (fun x => x.refund ((Q.unlocker x.payment).getD (FixedBytes.zero 21))) = ms

variable {Q addr tx} {ms : List Message}

lemma scanned_append {l l' : List Paid} : Q.Scanned addr (l ++ l') ms ↔
    ∃ ms₁ ms₂, Q.Scanned addr l ms₁ ∧ Q.Scanned addr l' ms₂ ∧ ms₁ ++ ms₂ = ms := by
  simp only [Scanned, forall_mem_append, filter_append, map_append, and_assoc, exists_and_left,
    exists_eq_left', and_left_comm]

@[simp]
lemma not_givenUp_nil : ¬ Q.GivenUp addr [] := by
  simp [GivenUp]

lemma givenUp_cons {x : Paid} {l : List Paid} :
    Q.GivenUp addr (x :: l) ↔ Q.GivesUp addr x ∨ Q.Passes addr x ∧ Q.GivenUp addr l := by
  constructor
  · rintro ⟨_ | ⟨y, l₁⟩, x', l₂, heq, hpass, hup⟩ <;> cases heq
    · exact .inl hup
    · rw [forall_mem_cons] at hpass
      exact .inr ⟨hpass.1, l₁, x', l₂, rfl, hpass.2, hup⟩
  · rintro (hup | ⟨hx, l₁, x', l₂, rfl, hpass, hup⟩)
    · exact ⟨[], x, l, rfl, nofun, hup⟩
    · exact ⟨x :: l₁, x', l₂, rfl, forall_mem_cons.2 ⟨hx, hpass⟩, hup⟩

/-- Where the scan stands after some outputs. -/
structure Outcome (Q : Processor) (addr : Bytes) (r : Option (Option (List Message)))
    (l : List Paid) : Prop where
  scanned : ∀ {ms}, r = some (some ms) ↔ Q.Scanned addr l ms
  givenUp : r = some none ↔ Q.GivenUp addr l

lemma outcome_nil : Outcome Q addr (some (some [])) [] :=
  ⟨by simp [Scanned], by simp⟩

/-- The outcome for one output. -/
lemma outcome_payBackOutput (i j : Nat) (p : PaymentPayload) (out : Output) :
    Outcome Q addr (Q.payBackOutput addr i p out j) [⟨i, p, out, j⟩] := by
  constructor
  on_goal 2 => rw [givenUp_cons]
  all_goals
    unfold payBackOutput
    simp only [Scanned, Passes, GivesUp]
    unfold namesContract unlocker
    cases ha : getAddressFromScript Q.V.P out.pkScript with
    | none => simp [ha]
    | some a =>
      by_cases hname : a.bytes = addr
      · rcases hp : p.inputs with _ | ⟨input, rest⟩
        · simp [ha, hp, hname]
        cases hu : Q.getAddressFromUnlockScript input.signatureScript <;>
          simp [ha, hp, hu, hname, Paid.refund]
      · simp [ha, hname]

/-- A step of one of the two loops. -/
lemma Outcome.append {r r' : Option (Option (List Message))} {l l' : List Paid}
    (h : Outcome Q addr r l) (h' : Outcome Q addr r' l') :
    Outcome Q addr (do
      match ← r with
      | none => some none
      | some messages => do
          let more ← r'
          some (more.map (messages ++ ·))) (l ++ l') := by
  constructor
  · intro ms
    simp only [scanned_append, ← h.scanned, ← h'.scanned]
    rcases r with _ | _ | l <;> rcases r' with _ | _ | l' <;> simp
  · have hpass : (∀ x ∈ l, Q.Passes addr x) ↔ ∃ ms, r = some (some ms) := by
      simp [h.scanned, Scanned]
    have happend : Q.GivenUp addr (l ++ l') ↔
        Q.GivenUp addr l ∨ (∀ x ∈ l, Q.Passes addr x) ∧ Q.GivenUp addr l' := by
      clear h hpass
      induction l with
      | nil => simp
      | cons x l ih => simp only [cons_append, givenUp_cons, ih, forall_mem_cons]; tauto
    rw [happend, hpass, ← h.givenUp, ← h'.givenUp]
    rcases r with _ | _ | l <;> rcases r' with _ | _ | l' <;> simp

/-- The outcome of the inner loop. -/
lemma outcome_payBackOutputs (i : Nat) (p : PaymentPayload) (outs : List (Output × Nat)) :
    Outcome Q addr (Q.payBackOutputs addr i p outs)
      (outs.map fun (out, j) => ⟨i, p, out, j⟩) := by
  induction outs with
  | nil => exact outcome_nil
  | cons x outs ih => exact (outcome_payBackOutput i x.2 p x.1).append ih

variable {msgs : List (Message × Nat)}

/-- The outcome of the outer loop. -/
lemma outcome_payBackMsgs :
    Outcome Q addr (Q.payBackMsgs addr msgs) (paidBefore msgs) := by
  induction msgs with
  | nil => exact outcome_nil
  | cons x msgs ih =>
    obtain ⟨m, i⟩ := x
    rw [paidBefore]
    cases m with
    | payment p => exact (outcome_payBackOutputs i p _).append ih
    | _ =>
      unfold payBackMsgs
      split
      · exact outcome_nil
      · exact ih

lemma namesContract_of_paysContract {x : Paid} (h : Q.paysContract addr x) :
    Q.namesContract addr x :=
  (Bool.and_eq_true_iff.1 h).1

/-- The refunds are those of the contract iff each output that the scan takes is its own. -/
lemma forall₂_repays_iff {l : List Paid} (h : Q.Scanned addr l ms) :
    Forall₂ Q.Repays (l.filter (Q.paysContract addr)) ms ↔ ∀ x ∈ l, Q.Repayable addr x := by
  obtain ⟨hpass, rfl⟩ := h
  rw [forall₂_map_right_iff]
  constructor
  · intro hrepays
    have hsub : l.filter (Q.paysContract addr) <+ l.filter (Q.namesContract addr) :=
      monotone_filter_right l fun _ => namesContract_of_paysContract
    have heq := hsub.eq_of_length hrepays.length_eq
    rw [heq, forall₂_same] at hrepays
    intro x hx
    refine ⟨(hpass x hx).1, fun hname => ?_⟩
    have hmem := mem_filter.2 ⟨hx, hname⟩
    obtain ⟨a, ha⟩ := isSome_iff_exists.1 ((hpass x hx).2 hname)
    have hrepay := hrepays x hmem
    rw [ha] at hrepay
    rw [← heq] at hmem
    exact ⟨(mem_filter.1 hmem).2, a, ha, hrepay⟩
  · intro hall
    have heq : l.filter (Q.paysContract addr) = l.filter (Q.namesContract addr) :=
      filter_congr fun x hx => Bool.eq_iff_iff.2
        ⟨namesContract_of_paysContract, fun hname => ((hall x hx).2 hname).1⟩
    rw [heq, forall₂_same]
    intro x hx
    obtain ⟨hx, hname⟩ := mem_filter.1 hx
    obtain ⟨-, a, ha, hrepay⟩ := (hall x hx).2 hname
    rwa [ha]

lemma payBackMsgs_repays_iff :
    (∃ r, Q.payBackMsgs addr msgs = some r ∧
      Forall₂ Q.Repays ((paidBefore msgs).filter (Q.paysContract addr)) (r.getD [])) ↔
      (∀ x ∈ paidBefore msgs, Q.Repayable addr x) ∨
        (∀ x ∈ paidBefore msgs, ¬ Q.paysContract addr x) ∧
          Q.GivenUp addr (paidBefore msgs) := by
  rw [← outcome_payBackMsgs.givenUp]
  have hrun (h : ∀ x ∈ paidBefore msgs, Q.Repayable addr x) :
      ∃ ms, Q.payBackMsgs addr msgs = some (some ms) := by
    refine ⟨_, outcome_payBackMsgs.scanned.2 ⟨fun x hx => ⟨(h x hx).1, fun hname => ?_⟩, rfl⟩⟩
    obtain ⟨-, a, ha, -⟩ := (h x hx).2 hname
    exact isSome_of_eq_some ha
  rcases hscan : Q.payBackMsgs addr msgs with _ | _ | ms
  · simpa [hscan] using hrun
  · have hnot : ¬ ∀ x ∈ paidBefore msgs, Q.Repayable addr x := by simpa [hscan] using hrun
    simp [hnot]
  · simpa using forall₂_repays_iff (outcome_payBackMsgs.scanned.1 hscan)

/-- All that the contract was paid goes back iff there is a result for the request and the lock
scripts of all outputs parse, those that have the bytes of its id are its own and the unlocking
scripts name their payers, or there is nothing to pay back and the scan is given up. -/
theorem refunded_iff {errIn : Bytes} : Q.Refunded tx errIn ↔
    (createContractErrorPayloadMsg tx errIn).isSome ∧
    ∃ addr msgs, tx.getContractId Q.V.P = some addr ∧ tx.txMessages = some msgs ∧
      ((∀ x ∈ paidBefore msgs.zipIdx, Q.Repayable addr x) ∨
        (∀ x ∈ paidBefore msgs.zipIdx, ¬ Q.paysContract addr x) ∧
          Q.GivenUp addr (paidBefore msgs.zipIdx)) := by
  simp only [Refunded, genContractErrorMsg, contractPayBack, ← payBackMsgs_repays_iff]
  cases createContractErrorPayloadMsg tx errIn with
  | none => simp
  | some errMsg =>
    cases tx.getContractId Q.V.P <;> cases tx.txMessages <;> simp [bind_eq_some_iff]

/-! ### An output that does not parse -/

namespace KeptPayment

open SmallNode ChangeAsPayment

def owner : Address := pubkeyBytesToAddress primitives [7]

/-- All outputs are the owner's. -/
def processor : Processor :=
  { ChangeAsPayment.processor with
    getUtxoEntry := fun _ => some (Transaction.utxoOfOutput 0 (payTo owner 10))
    getAddressFromUnlockScript := TxScript.getAddressFromUnlockScript primitives }

def payment (outputs : List Output) : PaymentPayload :=
  ⟨[⟨[1, 9, 1, 7], [], some (outPoint 1)⟩], outputs, 0⟩

/-- The owner pays with a signature and a key, and calls the contract. -/
def request (outputs : List Output) : Transaction :=
  ⟨[.payment (payment outputs), .contractInvokeRequest ⟨contractId, [[1]], 0⟩], [], false⟩

def failed : Message := .contractInvoke ⟨contractId, [], [], [], [], ⟨500, []⟩⟩

/-- What the contract is paid goes back, but not if another output has a push without data. -/
theorem not_refunded :
    processor.Refunded (request [payTo contractAddr 5]) [] ∧
      ¬ processor.Refunded (request [payTo contractAddr 5, ⟨1, [0x4c], newPTNAsset⟩]) [] := by
  constructor
  · exact ⟨contractId, _, failed, [Paid.refund ⟨0, payment _, payTo contractAddr 5, 0⟩ owner], rfl,
      rfl, by decide +kernel, .cons ⟨by decide, by decide, owner, by decide +kernel, rfl⟩ .nil⟩
  · rintro ⟨addr, msgs, errMsg, refunds, haddr, hmsgs, hresult, hrepays⟩
    obtain rfl := some.inj haddr
    obtain rfl := some.inj hmsgs
    have hkept := hresult.symm.trans (show _ = some (.ok [failed]) by decide +kernel)
    obtain ⟨-, rfl⟩ := cons.inj (Except.ok.inj (some.inj hkept))
    exact absurd hrepays.length_eq (by decide +kernel)

end KeptPayment

end Processor

end ZwsChain
