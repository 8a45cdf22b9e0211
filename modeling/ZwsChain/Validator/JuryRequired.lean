import ZwsChain.Validator.Accepted

/-!
# Contract results and the jury

The comment in `validateTx` says that a contract result needs the signature of its jury. The
code asks for less: something after the request must be a signature message *or a payment*
(`hasSignMsg`), and the jury that a signature message is checked against is that of the last
request, whatever contract the result names.

* `results_need_jury_iff`: for accepted transactions, exactly when every result is signed by the
  jury of its contract or comes with a payout of that contract.
* `result_without_jury`: an accepted transaction with a user contract's result, no signature and
  one payment between strangers.
* `enoughJurors_iff`: when enough different jurors have signed, and `counted_twice`.
* `structured_iff`: when the messages are in the documented order, and `result_before_request`.
-/

open List Option

namespace ZwsChain

open Message
open TxScript (SigState getAddressFromScript)

/-- The contract a deploy, invoke or stop result is for. -/
def Message.resultContract : Message → Option Bytes
  | .contractDeploy p => some p.contractId
  | .contractInvoke p => some p.contractId
  | .contractStop p => some p.contractId
  | _ => none

/-- The contract an invoke or stop request is for. -/
def Message.requestedId : Message → Option Bytes
  | .contractInvokeRequest p => some p.contractId
  | .contractStopRequest p => some p.contractId
  | _ => none

/-- The jury in a deploy result. -/
def Message.deployJury : Message → Option ElectionNode
  | .contractDeploy p => some p.eleNode
  | _ => none

namespace Validate

variable (V : Validate) (tx : Transaction)

/-! ### The jury a signature message is checked against -/

/-- The contract of the last invoke or stop request; the empty id without one. -/
def requestedContract (msgs : List Message) : Bytes :=
  (msgs.filterMap requestedId).getLast?.getD []

/-- The jury in the last deploy result. -/
def deployedJury (msgs : List Message) : Option ElectionNode :=
  (msgs.filterMap deployJury).getLast?

lemma signatureSubject_eq (msgs : List Message) :
    signatureSubject msgs = (deployedJury msgs, requestedContract msgs) := by
  induction msgs using List.reverseRecOn with
  | nil => rfl
  | append_singleton msgs m ih =>
    rw [signatureSubject] at ih
    rw [signatureSubject, foldl_append, ih]
    cases m <;>
      simp [deployedJury, requestedContract, deployJury, requestedId]

variable {msgs : List Message}

/-- The last request decides if it is for a user contract, otherwise the last deploy result. -/
lemma signatureJury_eq_some_iff {jury : ElectionNode} :
    V.signatureJury msgs = some (some jury) ↔
      if isUserContractId (requestedContract msgs) then
        V.getContractJury (requestedContract msgs) = some jury
      else deployedJury msgs = some jury := by
  rw [signatureJury, signatureSubject_eq]
  split <;> simp

lemma filterMap_txMessages {β : Type} {f : Message → Option β}
    (hf : ∀ p p', f (.contractInvoke p) = f (.contractInvoke p')) (h : tx.txMessages = some msgs) :
    msgs.filterMap f = tx.messages.filterMap f := by
  have hmap := map_copies f (fun p _ => hf _ p) h
  rw [← Function.id_comp f, ← filterMap_map, ← filterMap_map, hmap]

lemma requestedContract_txMessages (h : tx.txMessages = some msgs) :
    requestedContract msgs = requestedContract tx.messages := by
  rw [requestedContract, requestedContract, filterMap_txMessages tx (fun _ _ => rfl) h]

lemma deployedJury_txMessages (h : tx.txMessages = some msgs) :
    deployedJury msgs = deployedJury tx.messages := by
  rw [deployedJury, deployedJury, filterMap_txMessages tx (fun _ _ => rfl) h]

/-! ### Signed results -/

/-- The jury that has to sign a result: the one in a deploy result, the recorded one of the
contract otherwise. -/
def juryOfResult : Message → Option ElectionNode
  | .contractDeploy p => some p.eleNode
  | .contractInvoke p => V.getContractJury p.contractId
  | .contractStop p => V.getContractJury p.contractId
  | _ => none

/-- All signers are jurors, and enough of their signatures of the result are good. -/
structure SignedByJury (jury : ElectionNode) (p : SignaturePayload) : Prop where
  signers : V.signersInJury jury p.signatures = true
  count : ∃ tx4Sign txBytes n, tx.getResultRawTx = some tx4Sign ∧
    tx4Sign.encodeRLP = some txBytes ∧ V.passCount txBytes p.signatures = some n ∧
    jurySignCount jury.eleList.length ≤ n

/-- A signature message of the transaction was checked against a jury and passed: the walk
reached it, and the jury is the one that `validateContractSignature` looked up. -/
def CheckedAgainst (jury : ElectionNode) : Prop :=
  ∃ i p, tx.messages[i]? = some (.signature p) ∧ tx.reaches i = true ∧
    (∃ msgs, tx.txMessages = some msgs ∧ V.signatureJury msgs = some (some jury)) ∧
    SignedByJury V tx jury p

/-- Some payment of the transaction spends an output locked to a contract. -/
def SpendsFrom (contractId : Bytes) : Prop :=
  ∃ p, payment p ∈ tx.messages ∧ ∃ input ∈ p.inputs, ∃ op utxo addr,
    input.previousOutPoint = some op ∧ V.utxoOf tx op = some (some utxo) ∧
    getAddressFromScript V.P utxo.pkScript = some addr ∧
    addr.getType = AddressType.contractHash.toByte ∧ addr.bytes = contractId

/-- Whether a signature message stands in front of every account update. -/
def HasCheckedSignature : Prop :=
  ∃ i p, tx.messages[i]? = some (.signature p) ∧ tx.reaches i = true

/-- The last request, if it is for a user contract, has the result's jury; otherwise the last
deploy result has it. -/
def NamesJuryOf (result : Message) : Prop :=
  ∃ jury, V.juryOfResult result = some jury ∧
    if isUserContractId (requestedContract tx.messages) then
      V.getContractJury (requestedContract tx.messages) = some jury
    else deployedJury tx.messages = some jury

variable {V tx}

/-- A check against a jury that passed. -/
lemma signedByJury_of_valid {jury : ElectionNode} {p : SignaturePayload}
    (hmsgs : tx.txMessages = some msgs) (hjury : V.signatureJury msgs = some (some jury))
    (h : V.validateContractSignature p.signatures tx true = some .valid) :
    SignedByJury V tx jury p := by
  simp only [validateContractSignature, hmsgs, do_some, do_eq_some, hjury, all_some] at h
  obtain ⟨-, -, h⟩ := h
  split at h
  · exact absurd (some.inj h) nofun
  rename_i hsigners
  simp only [do_eq_some] at h
  obtain ⟨tx4Sign, htx, txBytes, hbytes, h⟩ := h
  refine ⟨by simpa using hsigners, tx4Sign, txBytes, ?_⟩
  split at h
  · exact absurd (some.inj h) nofun
  next n hn =>
    split at h
    · exact absurd (some.inj h) nofun
    · next hle => exact ⟨n, htx, hbytes, hn, not_lt.1 fun hlt => hle ⟨trivial, hlt⟩⟩

/-- In an accepted transaction a signature message in front of the account updates was checked
against the jury that the requests and deploy results name. -/
lemma checkedAgainst_of_names {sigs : SigState} (h : Accepts V tx sigs)
    (hsig : HasCheckedSignature tx) {m : Message} {jury : ElectionNode}
    (hm : V.juryOfResult m = some jury) (hnames : NamesJuryOf V tx m) :
    CheckedAgainst V tx jury := by
  obtain ⟨msgs, s', hacc⟩ := h.accepted
  obtain ⟨i, p, hp, hi⟩ := hsig
  obtain ⟨jury', hm', hif⟩ := hnames
  obtain rfl : jury' = jury := some.inj (hm' ▸ hm)
  have hjury : V.signatureJury msgs = some (some jury') := by
    rw [signatureJury_eq_some_iff, requestedContract_txMessages tx hacc.copies,
      deployedJury_txMessages tx hacc.copies]
    exact hif
  have hp' := (Transaction.getElem?_txMessages_iff hacc.copies (by simp) i).2 hp
  obtain ⟨-, -, s₁, s₂, -, -, hstep, -⟩ :=
    hacc.walk.of_mem ((mem_checkedPart hacc.copies).2 ⟨hp', hi⟩)
  exact ⟨i, p, hp, hi, ⟨msgs, hacc.copies, hjury⟩,
    signedByJury_of_valid hacc.copies hjury (signature_go hstep)⟩

/-- An accepted transaction's results for contracts other than the system's are all signed by
their jury or come with a payout of their contract, exactly when each result without such a
payout has a signature message in front of the account updates and the jury of the last request
(or, if that is not for a user contract, of the last deploy result). -/
theorem results_need_jury_iff {sigs : SigState} (h : Accepts V tx sigs) :
    (∀ m ∈ tx.messages, ∀ c, m.resultContract = some c → isSystemContractId c = false →
      (∃ jury, V.juryOfResult m = some jury ∧ CheckedAgainst V tx jury) ∨ SpendsFrom V tx c) ↔
    ∀ m ∈ tx.messages, ∀ c, m.resultContract = some c → isSystemContractId c = false →
      ¬ SpendsFrom V tx c → HasCheckedSignature tx ∧ NamesJuryOf V tx m := by
  constructor
  · intro hall m hm c hc hsys hspend
    rcases hall m hm c hc hsys with ⟨jury, hjury, i, p, hp, hi, ⟨msgs, hmsgs, hsj⟩, -⟩ | hs
    · rw [signatureJury_eq_some_iff, requestedContract_txMessages tx hmsgs,
        deployedJury_txMessages tx hmsgs] at hsj
      exact ⟨⟨i, p, hp, hi⟩, jury, hjury, hsj⟩
    · exact absurd hs hspend
  intro hall m hm c hc hsys
  by_cases hspend : SpendsFrom V tx c
  · exact .inr hspend
  obtain ⟨hsig, hnames⟩ := hall m hm c hc hsys hspend
  obtain ⟨jury, hjury, -⟩ := id hnames
  exact .inl ⟨jury, hjury, checkedAgainst_of_names h hsig hjury hnames⟩

/-! ### A result with a payment between strangers -/

namespace StrangersPayment

open SmallNode

/-- A user contract. -/
def contractId : Bytes := List.replicate 20 7

/-- The public key of its only juror. -/
def jurorKey : Bytes := [9]

/-- Its recorded jury. -/
def jury : ElectionNode :=
  ⟨1, [⟨0, rlpHashBytes primitives (pubkeyBytesToAddress primitives jurorKey), [], jurorKey⟩]⟩

/-- A node that knows the contract's jury and two outputs that anyone can spend. -/
def validator : Validate :=
  { withUtxos [(outPoint 1, openUtxo 10), (outPoint 2, openUtxo 5)] with
    getContractJury := fun c => if c = contractId then some jury else none }

/-- A payment of a whole open output to an open output. -/
def payAll (n : UInt8) (amount : UInt64) : Message :=
  .payment ⟨[openInput (outPoint n)], [⟨amount, [0x51], newPTNAsset⟩], 0⟩

/-- A request with a result that makes up a new owner of the contract. -/
def requestAndResult : List Message :=
  [payAll 1 10, .contractInvokeRequest ⟨contractId, [], 0⟩,
    .contractInvoke ⟨contractId, [], [], [⟨false, ascii "owner", ascii "me", []⟩], [], ⟨0, []⟩⟩]

/-- The result with the payment behind it and no signature. -/
def unsigned : Transaction :=
  ⟨requestAndResult ++ [payAll 2 5], [], false⟩

/-- What the juror signs: the transaction without the signature. -/
def signedBytes : Bytes :=
  ((Transaction.mk requestAndResult [] false).encodeRLP).getD []

/-- The result with the juror's signature. -/
def signed : Transaction :=
  ⟨requestAndResult ++ [.signature ⟨[⟨jurorKey, jurorKey ++ signedBytes⟩]⟩], [], false⟩

end StrangersPayment

open StrangersPayment SmallNode in
/-- The signed result is accepted, and its signature was checked against the contract's jury. -/
theorem results_need_jury_signed :
    Accepts validator signed noSigs ∧
      ((∃ jury, validator.juryOfResult requestAndResult[2] = some jury ∧
        CheckedAgainst validator signed jury) ∨ SpendsFrom validator signed contractId) := by
  have h : Accepts validator signed noSigs := by decide +kernel
  refine ⟨h, (results_need_jury_iff h).2 ?_ _ (by decide +kernel) _ rfl (by decide +kernel)⟩
  intro m hm c hc _ _
  have hjury : ∀ m ∈ signed.messages, m.resultContract.isSome →
      validator.juryOfResult m = some jury := by decide +kernel
  exact ⟨⟨3, ⟨[⟨jurorKey, jurorKey ++ signedBytes⟩]⟩, rfl, by decide +kernel⟩, jury,
    hjury m hm (by rw [hc]; rfl), by decide +kernel⟩

open StrangersPayment SmallNode in
/-- A user contract's result is accepted without a signature of its jury and without a payout of
the contract, because a payment between strangers follows it. -/
theorem result_without_jury :
    Accepts validator unsigned noSigs ∧
      requestAndResult[2] ∈ unsigned.messages ∧
      requestAndResult[2].resultContract = some contractId ∧
      isSystemContractId contractId = false ∧ isUserContractId contractId = true ∧
      validator.juryOfResult requestAndResult[2] = some jury ∧
      ¬ CheckedAgainst validator unsigned jury ∧ ¬ SpendsFrom validator unsigned contractId := by
  refine ⟨by decide +kernel, by decide +kernel, rfl, by decide +kernel, by decide +kernel,
    by decide +kernel, ?_, ?_⟩
  · rintro ⟨i, p, hp, -⟩
    have hno : ∀ m ∈ unsigned.messages, m.isSignature = false := by decide +kernel
    exact absurd (hno _ (mem_of_getElem? hp)) (by simp [isSignature])
  rintro ⟨p, hp, input, hinput, op, utxo, addr, hop, hutxo, haddr, htype, -⟩
  -- no output that a payment spends is locked to any contract
  have hno : ∀ m ∈ unsigned.messages, ∀ input ∈ m.inputs, ∀ op ∈ input.previousOutPoint,
      (((validator.utxoOf unsigned op).join.bind fun utxo =>
        getAddressFromScript validator.P utxo.pkScript).map Address.getType) = some 0 := by
    decide +kernel
  have := hno _ hp input hinput op hop
  simp [hutxo, haddr, htype, AddressType.toByte] at this

/-! ### Different jurors -/

/-- The juror that a public key belongs to. -/
def juror (V : Validate) (s : SignatureSet) : Hash :=
  rlpHashBytes V.P (pubkeyBytesToAddress V.P s.pubKey)

/-- A signature of the transaction without its signatures that verifies. -/
def verifies (V : Validate) (tx : Transaction) (s : SignatureSet) : Bool :=
  (do V.P.verify s.pubKey s.signature (← (← tx.getResultRawTx).encodeRLP)) = some true

/-- The jurors whose signatures verify, as often as they have signed. -/
def passing (V : Validate) (tx : Transaction) (signatures : List SignatureSet) : List Hash :=
  (signatures.filter (V.verifies tx)).map V.juror

/-- How many entries of a list are there again. -/
def repeats {α : Type} [DecidableEq α] : List α → Nat
  | [] => 0
  | j :: jurors => (if j ∈ jurors then 1 else 0) + repeats jurors

lemma repeats_add_length {α : Type} [DecidableEq α] (jurors : List α) :
    repeats jurors + jurors.dedup.length = jurors.length := by
  induction jurors with
  | nil => rfl
  | cons j jurors ih =>
    by_cases hj : j ∈ jurors
    · simp only [repeats, if_pos hj, dedup_cons_of_mem hj, length_cons]
      omega
    · simp only [repeats, if_neg hj, dedup_cons_of_notMem hj, length_cons]
      omega

/-- Enough pairwise different jurors have each contributed a signature that verifies. -/
def EnoughJurors (V : Validate) (tx : Transaction) (jury : ElectionNode)
    (signatures : List SignatureSet) : Prop :=
  ∃ jurors : List Hash, jurors.Nodup ∧ jurySignCount jury.eleList.length ≤ jurors.length ∧
    ∀ j ∈ jurors, (∃ node ∈ jury.eleList, node.addrHash = j) ∧ ∃ s ∈ signatures,
      V.juror s = j ∧ V.verifies tx s = true

/-- What is counted are the signatures that verify. -/
lemma passCount_eq {txBytes : Bytes} {signatures : List SignatureSet} {n : Nat}
    (h : V.passCount txBytes signatures = some n) :
    (signatures.filter fun s => V.P.verify s.pubKey s.signature txBytes = some true).length =
      n := by
  obtain ⟨passes, hpasses, hn⟩ := do_eq_some.1 h
  rw [← some.inj hn]
  have hall := Lib.forall₂_of_mapM hpasses
  clear h hpasses hn
  induction hall with
  | nil => rfl
  | @cons s pass _ _ hpass _ ih => cases pass <;> simp [hpass, ih]

/-- Where signatures are accepted, enough different jurors have signed iff the signatures of jurors
that have another one are no more than those above the threshold. -/
theorem enoughJurors_iff {signatures : List SignatureSet} {jury : ElectionNode}
    (hmsgs : tx.txMessages = some msgs) (hjury : V.signatureJury msgs = some (some jury))
    (h : V.validateContractSignature signatures tx true = some .valid) :
    EnoughJurors V tx jury signatures ↔ repeats (V.passing tx signatures) ≤
      (V.passing tx signatures).length - jurySignCount jury.eleList.length := by
  obtain ⟨hall, tx4Sign, txBytes, n, htx, hbytes, hn, hle⟩ :=
    @signedByJury_of_valid V tx msgs jury ⟨signatures⟩ hmsgs hjury h
  have hcounted : jurySignCount jury.eleList.length ≤ (V.passing tx signatures).length := by
    have hverifies : V.verifies tx = fun s =>
        decide (V.P.verify s.pubKey s.signature txBytes = some true) := by
      funext s
      simp only [verifies, htx, hbytes, do_some]
    rw [passing, length_map, hverifies, passCount_eq hn]
    exact hle
  have hsigners : ∀ s ∈ signatures, ∃ node ∈ jury.eleList, node.addrHash = V.juror s := by
    intro s hs
    obtain ⟨node, hnode, heq⟩ := List.any_eq_true.1 (List.all_eq_true.1 hall s hs)
    exact ⟨node, hnode, (of_decide_eq_true heq).symm⟩
  have hmem : ∀ j, j ∈ V.passing tx signatures ↔ ∃ s ∈ signatures, V.juror s = j ∧
      V.verifies tx s = true := by
    intro j
    simp only [passing, List.mem_map, mem_filter]
    exact exists_congr fun s => and_assoc.trans (and_congr_right fun _ => and_comm)
  have hdistinct := repeats_add_length (V.passing tx signatures)
  constructor
  · rintro ⟨jurors, hnodup, hcount, hjurors⟩
    have hsub := (hnodup.subperm fun j hj => mem_dedup.2 ((hmem j).2 (hjurors j hj).2)).length_le
    omega
  intro hrepeats
  refine ⟨_, nodup_dedup (V.passing tx signatures), by omega, fun j hj => ?_⟩
  obtain ⟨s, hs, rfl, hpass⟩ := (hmem j).1 (mem_dedup.1 hj)
  exact ⟨hsigners s hs, s, hs, rfl, hpass⟩

namespace StrangersPayment

open SmallNode

/-- The node with a jury of two. -/
def twoJurors : Validate :=
  { validator with getContractJury := fun _ => some ⟨2, jury.eleList ++
      [⟨0, rlpHashBytes primitives (pubkeyBytesToAddress primitives [8]), [], [8]⟩]⟩ }

/-- A juror's signature. -/
def signature (key : Bytes) : SignatureSet :=
  ⟨key, key ++ signedBytes⟩

end StrangersPayment

open StrangersPayment SmallNode in
/-- Both jurors have signed, one of them twice. -/
theorem enough_of_both : ∃ jury, jury.eleList.length = 2 ∧ EnoughJurors twoJurors signed jury
    [signature jurorKey, signature [8], signature jurorKey] := by
  refine ⟨_, by decide, (@enoughJurors_iff twoJurors signed _ _ _ rfl rfl ?_).2 ?_⟩ <;>
    decide +kernel

open StrangersPayment SmallNode in
/-- One juror signs twice, which is enough for a jury of two. -/
theorem counted_twice : ∃ jury, twoJurors.getContractJury contractId = some jury ∧
    twoJurors.validateContractSignature [signature jurorKey, signature jurorKey] signed true =
      some .valid ∧
    ¬ EnoughJurors twoJurors signed jury [signature jurorKey, signature jurorKey] := by
  refine ⟨_, rfl, by decide +kernel, ?_⟩
  rintro ⟨jurors, hnodup, hcount, hjurors⟩
  have hsub : jurors ⊆ [twoJurors.juror (signature jurorKey)] := fun j hj => by
    obtain ⟨-, s, hs, rfl, -⟩ := hjurors j hj
    obtain rfl : s = signature jurorKey := by simpa using hs
    exact mem_cons_self
  exact absurd (hcount.trans (hnodup.subperm hsub).length_le) (by decide)

/-! ### Requests and results -/

/-- The codes of contract requests. -/
def requestApps : List UInt8 := [100, 101, 102, 103]

/-- A result answers a request of its kind, a signature any request. -/
def answers (result request : UInt8) : Bool :=
  request ∈ requestApps && (result = 5 || request = result + 99)

/-- Every result and every signature comes after the request it answers. -/
def ResultsFollow (apps : List UInt8) : Prop :=
  ∀ x ∈ apps.zipIdx, 1 ≤ x.1 ∧ x.1 ≤ 5 → ∃ r ∈ apps.take x.2, answers x.1 r

/-- The documented order of the messages, by their codes. -/
structure Structured (apps : List UInt8) : Prop where
  payment : apps.head? = some 0
  request : apps.countP (· ∈ requestApps) ≤ 1
  results : ResultsFollow apps

variable {i : Nat} {m : Message} {s s' : LoopState} {isFullTx : Bool}

/-- A message that lets the walk go on and is no stop request is counted by the flag. -/
lemma hasRequestMsg_go (h : V.validateMsg tx isFullTx i m s = some (.go s')) (hm : m.app ≠ 103) :
    [m.app].countP (· ∈ requestApps) + s.hasRequestMsg.toNat ≤ s'.hasRequestMsg.toNat := by
  cases m with
  | payment p =>
    rw [validateMsg, validatePaymentMsg] at h
    split at h
    · cases h
      exact Nat.le_of_eq (Nat.zero_add _)
    obtain ⟨r, -, h⟩ := do_eq_some.1 h
    split at h
    · cases h
    split at h
    · cases h
    · cases h
      exact Nat.le_of_eq (Nat.zero_add _)
  | contractStopRequest p => exact absurd rfl hm
  | contractTpl p | data p =>
    obtain rfl := (goIfValid_go (some.inj h)).2
    exact Nat.le_of_eq (Nat.zero_add _)
  | contractTplRequest p =>
    obtain ⟨code, hgo, -⟩ := exists_of_validateTplRequest h
    obtain ⟨hfirst, rfl⟩ := validateRequestMsg_first hgo
    rw [hfirst]
    exact Nat.le_refl 1
  | contractDeployRequest p | contractInvokeRequest p =>
    obtain ⟨hfirst, rfl⟩ := validateRequestMsg_first (some.inj h)
    rw [hfirst]
    exact Nat.le_refl 1
  | contractDeploy p | contractInvoke p | contractStop p =>
    cases h
    exact Nat.le_of_eq (Nat.zero_add _)
  | signature p =>
    obtain ⟨code, -, h⟩ := do_eq_some.1 h
    obtain rfl := (goIfValid_go (some.inj h)).2
    exact Nat.le_of_eq (Nat.zero_add _)
  | accountUpdate p | unknown app => cases h

/-- A valid walk without stop requests and account updates has at most one request. -/
lemma countP_of_valid {sigs : SigState} : ∀ {l : List (Message × Nat)} {s : LoopState},
    V.validateMsgs tx isFullTx l s = some (.valid, sigs) →
    (∀ x ∈ l, x.1.app ≠ 103 ∧ x.1.app ≠ 7) →
    (l.map fun x => x.1.app).countP (· ∈ requestApps) + s.hasRequestMsg.toNat ≤ 1
  | [], s, _, _ => by simpa using Bool.toNat_le _
  | (m, i) :: l, s, h, hl => by
      obtain ⟨verdict, hstep, h⟩ := do_eq_some.1 h
      obtain ⟨⟨hstop, hupdate⟩, hl⟩ := forall_mem_cons.1 hl
      cases verdict with
      | stop code sigs' =>
        cases h
        have hm := isAccountUpdate_of_stop_valid hstep
        cases m <;> first | exact absurd rfl hupdate | cases hm
      | go s₁ =>
        have hcount := hasRequestMsg_go hstep hstop
        have ih := countP_of_valid h hl
        simp only [map_cons]
        rw [← singleton_append, countP_append]
        omega

/-- Where a transaction is valid, its messages are in the documented order iff there is one request
even with a stop request or an account update, which are not counted, and the results follow. -/
theorem structured_iff {sigs : SigState} {r : TxResult}
    (h : V.validateTx tx isFullTx sigs = some r) (hr : r.code = .valid) :
    Structured (tx.messages.map app) ↔
      ((∃ m ∈ tx.messages, m.app = 103 ∨ m.app = 7) →
        (tx.messages.map app).countP (· ∈ requestApps) ≤ 1) ∧
      ResultsFollow (tx.messages.map app) := by
  obtain ⟨code, txFee, sigs₁⟩ := r
  obtain rfl : code = .valid := hr
  obtain ⟨-, msgs, p, rest, hmsgs, hfirst, -, -, -, hwalk⟩ := validateTx_valid_iff.1 ⟨txFee, h⟩
  have happs : tx.messages.map app = msgs.map app := by
    have := filterMap_txMessages (f := some ∘ app) tx (fun _ _ => rfl) hmsgs
    rwa [filterMap_eq_map, eq_comm] at this
  refine ⟨fun hs => ⟨fun _ => hs.request, hs.results⟩, fun ⟨hone, hresults⟩ => ?_⟩
  refine ⟨by rw [happs, hfirst]; rfl, ?_, hresults⟩
  by_cases hex : ∃ m ∈ tx.messages, m.app = 103 ∨ m.app = 7
  · exact hone hex
  have hcount := countP_of_valid hwalk fun x hx => by
    have hx' := mem_map_of_mem (f := app) (fst_mem_of_mem_zipIdx hx)
    rw [← happs] at hx'
    obtain ⟨m, hm, heq⟩ := List.mem_map.1 hx'
    rw [← heq, ← not_or]
    exact fun hcase => hex ⟨m, hm, hcase⟩
  rw [happs, ← zipIdx_map_fst 0 msgs, List.map_map]
  exact (Nat.le_add_right _ _).trans hcount

namespace StrangersPayment

/-- The result in front of its request. -/
def answeredFirst : Transaction :=
  ⟨[payAll 1 10, requestAndResult[2], requestAndResult[1], payAll 2 5], [], false⟩

end StrangersPayment

open StrangersPayment SmallNode in
/-- A signed result of a call is in the documented order. -/
theorem structured_signed : Structured (signed.messages.map app) := by
  have h : Accepts validator signed noSigs := by decide +kernel
  obtain ⟨r, hvalid, hr⟩ := map_eq_some_iff.1 h
  refine (structured_iff hvalid hr).2 ⟨fun _ => by decide +kernel, ?_⟩
  unfold ResultsFollow
  decide +kernel

open StrangersPayment SmallNode in
/-- A result in front of its request is accepted. -/
theorem result_before_request : Accepts validator answeredFirst noSigs ∧
    ¬ Structured (answeredFirst.messages.map app) := by
  refine ⟨by decide +kernel, fun h => ?_⟩
  have hresults := h.results
  unfold ResultsFollow at hresults
  exact absurd hresults (by decide +kernel)

end Validate

end ZwsChain
