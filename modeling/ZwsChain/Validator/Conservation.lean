import ZwsChain.Validator.Accepted

/-!
# What an ordinary transaction conserves

The outputs of a payment are compared with its inputs in two places: the payment check does it
for every message but the first, the fee computation for the first. Both add with wrap-around.

* `Conserves`: a payment pays out no more than it takes in, in one asset, in exact numbers.
* `feeInputs_cases`, `feeOutputs_eq`: the sums of the fee computation.
* `conserves_of_first`, `conserves_of_later`: the two comparisons are sound where they are made.
* `conserves_iff`: in an accepted transaction without requests every payment conserves iff those
  do that escape both comparisons (`escapes`).
* `BehindUpdate`: new money behind an account update.
* `feeExact_iff`: when the fee of a transaction is exact.
-/

open List Option

namespace ZwsChain

open Transaction SmallNode Output
open TxScript (SigState)
open Lib (WordSum.exact)

namespace Validate

variable {V : Validate} {tx : Transaction}

/-- The output an input spends. -/
def inputUtxo (V : Validate) (tx : Transaction) (input : Input) : Option Utxo := do
  let op ← input.previousOutPoint
  let utxo ← V.utxoOf tx op
  utxo

/-- A payment that pays out what it takes in at most: all its inputs spend outputs of one asset,
its outputs have this asset, and their exact sum is not above. -/
structure Conserves (V : Validate) (tx : Transaction) (p : PaymentPayload) : Prop where
  noMint : p.inputs = [] → p.outputs = []
  balance : ∃ (utxos : List Utxo) (asset : Asset), p.inputs.map (V.inputUtxo tx) = utxos.map some ∧
    (∀ u ∈ utxos, u.asset = asset) ∧ (∀ o ∈ p.outputs, o.asset = asset) ∧
    WordSum.exact (p.outputs.map value) ≤ WordSum.exact (utxos.map Utxo.amount)

/-- A payment that neither comparison covers: the first message without inputs or with an input
that spends an output of the transaction itself, anything behind an account update, and a payment
with an input that has no output. -/
def escapes (V : Validate) (tx : Transaction) (i : Nat) (p : PaymentPayload) : Bool :=
  (i = 0 && (p.inputs.isEmpty || p.inputs.any fun input =>
    input.previousOutPoint.any fun op => op.txHash.isSelfHash)) ||
  !tx.reaches i || p.inputs.any fun input => (V.inputUtxo tx input).isNone

/-! ### The fee computation -/

/-- The amounts that the inputs of a payment bring in. -/
def inputAmounts (q : OutPoint → Option Utxo) (l : List Input) : List UInt64 :=
  l.map fun input => ((input.previousOutPoint.bind q).map Utxo.amount).getD 0

/-- Every output that an input names is there. -/
def Found (q : OutPoint → Option Utxo) (l : List Input) : Prop :=
  ∀ input ∈ l, ∀ op, input.previousOutPoint = some op → (q op).isSome = true

/-- The loop over the inputs ends with their 64-bit sum, or at a missing output. -/
lemma feeInputs_cases (q : OutPoint → Option Utxo) (l : List Input) (acc : UInt64)
    (asset : Option Asset) :
    (Found q l ∧ ∃ asset', feeInputs q l acc asset = .ok (acc + (inputAmounts q l).sum, asset')) ∨
      ¬ Found q l ∧ ∃ e, feeInputs q l acc asset = .error e := by
  induction l generalizing acc asset with
  | nil => exact .inl ⟨nofun, asset, by simp [feeInputs, inputAmounts]⟩
  | cons input l ih =>
    have hcons : inputAmounts q (input :: l) =
        ((input.previousOutPoint.bind q).map Utxo.amount).getD 0 :: inputAmounts q l := rfl
    rw [feeInputs, Found, forall_mem_cons, hcons, sum_cons, ← UInt64.add_assoc]
    cases input.previousOutPoint with
    | none => simpa [Found] using ih acc asset
    | some op =>
      cases hq : q op with
      | none => simp [hq]
      | some utxo =>
        -- the test for an overflow is made on the sum that has wrapped
        have hnever : ¬ (acc + utxo.amount).toNat > 2 ^ 64 - 1 := by
          have := (acc + utxo.amount).toNat_lt
          omega
        simp only [hq, if_neg hnever]
        simpa [hq, Found] using ih (acc + utxo.amount) (some utxo.asset)

lemma feeOutputs_eq (l : List Output) (acc : UInt64) :
    feeOutputs l acc = .ok (acc + (l.map value).sum) := by
  induction l generalizing acc with
  | nil => simp [feeOutputs]
  | cons o l ih =>
    have hnever : ¬ (acc + o.value).toNat > 2 ^ 64 - 1 := by
      have := (acc + o.value).toNat_lt
      omega
    rw [feeOutputs, if_neg hnever, ih, map_cons, sum_cons, UInt64.add_assoc]

/-- The fee of a first message that does not mint: an error if an output is missing, else the 64-bit
sums decide. -/
lemma getTxFee_cases {q : OutPoint → Option Utxo} {p : PaymentPayload} {rest : List Message}
    (hmsgs : tx.messages = .payment p :: rest) (hcoin : p.isCoinbase = false) :
    (¬ Found q p.inputs ∧ ∃ e, tx.getTxFee q = some (.error e)) ∨ Found q p.inputs ∧
      ∃ asset, tx.getTxFee q = if (inputAmounts q p.inputs).sum < (p.outputs.map value).sum then
        tx.encodeRLP.map fun _ => .error .txinLessThanTxout
      else some (.ok ⟨(inputAmounts q p.inputs).sum - (p.outputs.map value).sum, asset⟩) := by
  simp only [getTxFee, hmsgs, hcoin, Bool.false_eq_true, if_false, feeAmounts]
  rcases feeInputs_cases q p.inputs 0 none with ⟨hfound, asset, hin⟩ | ⟨hmissing, e, hin⟩
  · refine .inr ⟨hfound, asset.getD newPTNAsset, ?_⟩
    simp [hin, feeOutputs_eq, bind, Except.bind]
  · refine .inl ⟨hmissing, e, ?_⟩
    simp [hin, bind, Except.bind]

/-- A fee that is valid could be computed. -/
lemma getTxFee_of_valid {txFee : List Addition} (h : V.validateTxFeeValid tx = some (true, txFee)) :
    ∃ fee, tx.getTxFee V.getUtxoEntry = some (.ok fee) := by
  have key : ∀ starts jurorReward allocation,
      tx.feeAllocate V.P V.getUtxoEntry V.fl V.contractFeeJuryPercent V.getScriptSigners starts
        jurorReward (FixedBytes.zero 21) = some (.ok allocation) →
      ∃ fee, tx.getTxFee V.getUtxoEntry = some (.ok fee) := by
    intro starts jurorReward allocation ha
    simp only [feeAllocate, do_eq_some] at ha
    obtain ⟨res, hres, ha⟩ := ha
    cases res with
    | error e => cases ha
    | ok fee => exact ⟨fee, hres⟩
  have h := (validateTxFeeValid_eq_some_iff.1 h).2.2.1
  split at h
  · exact key _ _ _ h
  · exact key _ _ _ h

/-! ### The two comparisons -/

variable {i : Nat} {p : PaymentPayload} {sigs : SigState}

/-- A missing output is one that an input names. -/
lemma validateInputs_orphan {txId : Hash} {used : List OutPoint} :
    ∀ {l : List Input} {s : InputState},
      V.validateInputs tx txId i l s = some (.error (.orphan, used)) →
      ∃ input ∈ l, V.inputUtxo tx input = none
  | [], s, h => by cases h
  | input :: rest, s, h => by
      simp only [validateInputs] at h
      split at h
      · cases h
      rename_i op hop
      split at h
      · cases h
      split at h
      · cases h
      · next hnone =>
          refine ⟨input, mem_cons_self, ?_⟩
          simp [inputUtxo, hop, hnone]
      split at h
      · cases h
      · next code hcode =>
          cases h
          exact absurd rfl (checkInput_error hcode).2
      · obtain ⟨input', hmem, hnone⟩ := validateInputs_orphan h
        exact ⟨input', mem_cons_of_mem _ hmem, hnone⟩

/-- A payment whose outputs are all there does not miss one. -/
lemma inputUtxo_of_orphan {usedUtxo : List OutPoint} {r : PaymentResult}
    (h : V.validatePaymentPayload tx i p usedUtxo sigs = some r) (hr : r.code = .orphan) :
    ∃ input ∈ p.inputs, V.inputUtxo tx input = none := by
  simp only [validatePaymentPayload, do_eq_some] at h
  obtain ⟨txId, -, h⟩ := h
  split at h
  · obtain rfl := some.inj h
    cases hr
  split at h
  · obtain rfl := some.inj h
    exact absurd hr checkOutputs_ne_orphan
  obtain ⟨res, hres, h⟩ := do_eq_some.1 h
  cases res with
  | error e =>
    obtain ⟨code, used⟩ := e
    obtain rfl := some.inj h
    obtain rfl : code = .orphan := hr
    exact validateInputs_orphan hres
  | ok s =>
    obtain ⟨signTx, -, h⟩ := do_eq_some.1 h
    split at h
    · cases h
    · obtain rfl := some.inj h
      cases hr
    · obtain rfl := some.inj h
      exact absurd hr checkOutputs_ne_orphan

section Balance

variable {i : Nat} {p : PaymentPayload} {usedUtxo : List OutPoint} {sigs : SigState}
  {s : InputState} {sp : List (OutPoint × Utxo)}

lemma Spends.inputUtxo_eq {l : List Input} {s' : InputState} (h : Spends V tx l s s' sp) :
    l.map (V.inputUtxo tx) = (sp.map Prod.snd).map some := by
  have hutxo : ∀ x ∈ sp, (V.utxoOf tx x.1).join = some x.2 := by
    intro x hx
    rw [h.outputs x hx]
    rfl
  have hl : l.map (V.inputUtxo tx) =
      (l.map Input.previousOutPoint).map fun op => op.bind fun op => (V.utxoOf tx op).join := by
    rw [List.map_map]
    rfl
  rw [hl, h.inputs, List.map_map, List.map_map]
  exact map_congr_left hutxo

/-- The balance of a payment with inputs, once the amounts are compared. -/
lemma InputsOk.conserves (h : InputsOk V tx i p usedUtxo sigs s sp) (hne : p.inputs ≠ [])
    (hle : WordSum.exact (p.outputs.map value) ≤
      WordSum.exact (sp.map fun x => x.2.amount)) : Conserves V tx p := by
  refine ⟨fun hnil => absurd hnil hne, ?_⟩
  have hsp : sp ≠ [] := by
    rintro rfl
    exact hne (map_eq_nil_iff.1 h.spends.inputs)
  obtain ⟨x, hx⟩ := exists_mem_of_ne_nil sp hsp
  have hasset := h.spends.sameAsset x hx
  refine ⟨sp.map Prod.snd, x.2.asset, h.spends.inputUtxo_eq, ?_, ?_, ?_⟩
  · intro u hu
    obtain ⟨y, hy, rfl⟩ := List.mem_map.1 hu
    exact some.inj ((h.spends.sameAsset y hy).symm.trans hasset)
  · exact fun o ho => h.outputs.sameAsset o ho _ hasset
  · rwa [List.map_map]

/-- Behind the first message the payment check compares. -/
lemma InputsOk.conserves_of_later (h : InputsOk V tx i p usedUtxo sigs s sp)
    (hne : p.inputs ≠ []) (hi : i ≠ 0) : Conserves V tx p := by
  refine h.conserves hne ?_
  have hsp : sp ≠ [] := by
    rintro rfl
    exact hne (map_eq_nil_iff.1 h.spends.inputs)
  obtain ⟨x, hx⟩ := exists_mem_of_ne_nil sp hsp
  have hsome : s.asset.isSome = true := by
    rw [h.spends.sameAsset x hx]
    rfl
  calc WordSum.exact (p.outputs.map value)
      ≤ s.totalInput.toNat := h.outputs.amount hsome hi
    _ = (sp.map fun x : OutPoint × Utxo => x.2.amount).sum.toNat := by
        rw [h.spends.total, UInt64.zero_add]
    _ ≤ _ := Lib.WordSum.toNat_sum_le _

variable {fee : AmountAsset}

/-- What a fee that was computed from inputs has compared. -/
lemma le_of_getTxFee {q : OutPoint → Option Utxo} {rest : List Message}
    (hmsgs : tx.messages = .payment p :: rest) (hcoin : p.isCoinbase = false)
    (hfee : tx.getTxFee q = some (.ok fee)) :
    (p.outputs.map value).sum ≤ (inputAmounts q p.inputs).sum ∧
      fee.amount = (inputAmounts q p.inputs).sum - (p.outputs.map value).sum := by
  obtain ⟨-, e, he⟩ | ⟨-, asset, heq⟩ := @getTxFee_cases tx q p rest hmsgs hcoin
  · rw [he] at hfee
    cases hfee
  rw [heq] at hfee
  split at hfee
  · obtain ⟨-, -, ⟨⟩⟩ := map_eq_some_iff.1 hfee
  next hle =>
    exact ⟨UInt64.not_lt.1 hle, congrArg AmountAsset.amount (Except.ok.inj (some.inj hfee)).symm⟩

/-- For the first message the fee computation compares, unless an input refers to the
transaction itself: then it looks up another output than the payment check. -/
lemma InputsOk.conserves_of_first (h : InputsOk V tx i p usedUtxo sigs s sp)
    (hne : p.inputs ≠ []) (hfirst : tx.messages[0]? = some (.payment p))
    (hself : ∀ input ∈ p.inputs, ∀ op, input.previousOutPoint = some op →
      op.txHash.isSelfHash = false)
    (hfee : tx.getTxFee V.getUtxoEntry = some (.ok fee)) :
    Conserves V tx p := by
  refine h.conserves hne ?_
  obtain ⟨rest, hmsgs⟩ : ∃ rest, tx.messages = .payment p :: rest := by
    cases hm : tx.messages with
    | nil => simp [hm] at hfirst
    | cons m rest => exact ⟨rest, by simpa [hm] using hfirst⟩
  have hprev : ∀ input ∈ p.inputs, ∃ x ∈ sp, input.previousOutPoint = some x.1 := by
    intro input hinput
    have hmem : input.previousOutPoint ∈ p.inputs.map Input.previousOutPoint :=
      List.mem_map_of_mem hinput
    rw [h.spends.inputs] at hmem
    obtain ⟨x, hx, heq⟩ := List.mem_map.1 hmem
    exact ⟨x, hx, heq.symm⟩
  have hcoin : p.isCoinbase = false := by
    rw [PaymentPayload.isCoinbase, Bool.or_eq_false_iff]
    refine ⟨by simpa using hne, List.any_eq_false.2 fun input hinput => ?_⟩
    obtain ⟨x, -, hx⟩ := hprev input hinput
    simp [hx]
  -- without own references both look the same outputs up
  have hquery : (p.inputs.map fun input => input.previousOutPoint.bind V.getUtxoEntry) =
      (sp.map Prod.snd).map some := by
    rw [← h.spends.inputUtxo_eq]
    refine map_congr_left fun input hinput => ?_
    obtain ⟨x, -, hx⟩ := hprev input hinput
    simp [inputUtxo, utxoOf, hx, hself input hinput x.1 hx]
  have hamounts : inputAmounts V.getUtxoEntry p.inputs = (sp.map Prod.snd).map Utxo.amount := by
    have := congrArg (List.map fun u : Option Utxo => (u.map Utxo.amount).getD 0) hquery
    simpa [inputAmounts, Function.comp_def] using this
  have hle := (le_of_getTxFee hmsgs hcoin hfee).1
  rw [hamounts] at hle
  calc WordSum.exact (p.outputs.map value)
      = (p.outputs.map value).sum.toNat := (Lib.WordSum.toNat_sum_of_lt h.outputs.fits).symm
    _ ≤ ((sp.map Prod.snd).map Utxo.amount).sum.toNat := UInt64.le_iff_toNat_le.1 hle
    _ ≤ WordSum.exact ((sp.map Prod.snd).map Utxo.amount) := Lib.WordSum.toNat_sum_le _
    _ = _ := by rw [List.map_map]; rfl

end Balance

/-! ### Whole transactions -/

/-- A payment that does not escape conserves. -/
lemma Accepts.conserves_of_not_escapes (h : Accepts V tx sigs)
    (hreq : ∀ m ∈ tx.messages, m.isRequest = false) (hp : tx.messages[i]? = some (.payment p))
    (hesc : V.escapes tx i p = false) : Conserves V tx p := by
  simp only [escapes, Bool.or_eq_false_iff, Bool.not_eq_false', List.any_eq_false,
    Bool.not_eq_true] at hesc
  obtain ⟨⟨hfirst, hreach⟩, hpresent⟩ := hesc
  obtain ⟨msgs, s', hacc⟩ := h.accepted
  obtain ⟨pre, post, s₁, s₂, hsplit, hpre, hstep, -⟩ := hacc.payment_step hp hreach
  obtain ⟨r, hr, hcode, hmint, -⟩ := payment_go hstep
  have hvalid : r.code = .valid := hcode.resolve_right fun ho => by
    obtain ⟨input, hinput, hnone⟩ := inputUtxo_of_orphan hr ho
    simpa [hnone] using hpresent input hinput
  rcases Validate.payment_valid hr hvalid with ⟨hnil, -, -⟩ | ⟨hne, s, sp, hok, -⟩
  · -- a payment without inputs is the first message or follows a system contract's call
    have hi : i ≠ 0 := by
      rintro rfl
      simp [hnil] at hfirst
    have hsys := hmint hi (by simp [PaymentPayload.isCoinbase, hnil])
    have hnot : _ = false := hpre.isSysContractCall_of_no_request (fun x hx => by
      have hmem : x ∈ msgs.zipIdx :=
        (takeWhile_sublist _).mem (hsplit ▸ mem_append_left _ hx)
      obtain ⟨m, hm, hcopy⟩ := exists_of_mem_txMessages hacc.copies (fst_mem_of_mem_zipIdx hmem)
      rw [copyMessage_congr Message.isRequest (fun _ _ => rfl) hcopy]
      exact hreq m hm) rfl
    rw [hnot] at hsys
    cases hsys
  by_cases hi : i = 0
  · subst hi
    obtain ⟨txFee, hfeeValid⟩ := hacc.fee
    obtain ⟨fee, hfee⟩ := getTxFee_of_valid hfeeValid
    refine hok.conserves_of_first hne hp (fun input hinput op hop => ?_) hfee
    simp only [decide_true, Bool.true_and, Bool.or_eq_false_iff, List.any_eq_false,
      Bool.not_eq_true] at hfirst
    simpa [hop] using hfirst.2 input hinput
  · exact hok.conserves_of_later hne hi

/-- In an accepted transaction without requests, all payments conserve iff those do that escape
the comparisons. -/
theorem conserves_iff {sigs : SigState} (h : Accepts V tx sigs)
    (hreq : ∀ m ∈ tx.messages, m.isRequest = false) :
    (∀ (i : Nat) (p : PaymentPayload), tx.messages[i]? = some (.payment p) → Conserves V tx p) ↔
      ∀ (i : Nat) (p : PaymentPayload), tx.messages[i]? = some (.payment p) →
        V.escapes tx i p = true → Conserves V tx p := by
  constructor
  · exact fun hall i p hp _ => hall i p hp
  intro hesc i p hp
  by_cases he : V.escapes tx i p = true
  · exact hesc i p hp he
  · exact h.conserves_of_not_escapes hreq hp (by simpa using he)

/-! ### New money behind an account update -/

namespace BehindUpdate

/-- A store with two outputs of 10. -/
def validator : Validate :=
  withUtxos [(outPoint 1, openUtxo 10), (outPoint 2, openUtxo 10)]

/-- A payment of one output. -/
def pay (n : UInt8) (amount : UInt64) : PaymentPayload :=
  ⟨[openInput (outPoint n)], [⟨amount, [0x51], newPTNAsset⟩], 0⟩

/-- A payment out of nothing. -/
def mint : PaymentPayload :=
  ⟨[], [⟨1000, [0x51], newPTNAsset⟩], 0⟩

/-- Two payments. -/
def ordinary : Transaction :=
  ⟨[.payment (pay 1 10), .payment (pay 2 7)], [], false⟩

/-- A payment, an empty account update, and the payment out of nothing. -/
def minting : Transaction :=
  ⟨[.payment (pay 1 10), .accountUpdate ⟨[]⟩, .payment mint], [], false⟩

end BehindUpdate

open BehindUpdate

/-- An ordinary payment conserves. -/
theorem conserves_ordinary :
    Accepts validator ordinary noSigs ∧
      Conserves validator ordinary (pay 2 7) := by
  have haccepts : Accepts validator ordinary noSigs := by
    decide +kernel
  refine ⟨haccepts, (conserves_iff haccepts (by decide)).2 ?_ 1 _ rfl⟩
  intro i p hp hesc
  match i, hp with
  | 0, rfl => exact absurd hesc (by decide +kernel)
  | 1, rfl => exact absurd hesc (by decide +kernel)

/-- An accepted transaction without requests that pays 1000 out of nothing. -/
theorem mint_behind_update :
    Accepts validator minting noSigs ∧
      (∀ m ∈ minting.messages, m.isRequest = false) ∧
      minting.messages[2]? = some (.payment mint) ∧
      ¬ Conserves validator minting mint := by
  refine ⟨by decide +kernel, by decide, rfl, fun h => ?_⟩
  exact absurd (h.noMint rfl) nofun

/-! ### Exact fees -/

/-- A fee is what the first message brings in and does not pay out, in exact numbers; where a sum
does not fit into 64 bits there is an error. -/
def FeeExact (q : OutPoint → Option Utxo) (tx : Transaction) : Prop :=
  ∀ p rest, tx.messages = .payment p :: rest →
    (∀ fee, tx.getTxFee q = some (.ok fee) → WordSum.exact (inputAmounts q p.inputs) =
      WordSum.exact (p.outputs.map value) + fee.amount.toNat) ∧
    (2 ^ 64 ≤ WordSum.exact (inputAmounts q p.inputs) ∨
      2 ^ 64 ≤ WordSum.exact (p.outputs.map value) →
      ∃ e, tx.getTxFee q = some (.error e))

/-- What keeps the fee exact, by the amounts. A minting first message pays out what it brings in,
and this fits. For another one whose outputs are found, both sums fit, or the wrapped input sum is
below the wrapped output sum and the error's text, which has the id, can be made. -/
structure FitsOrFails (q : OutPoint → Option Utxo) (tx : Transaction) (p : PaymentPayload) :
    Prop where
  minted : p.isCoinbase = true → WordSum.exact (inputAmounts q p.inputs) =
    WordSum.exact (p.outputs.map value) ∧ WordSum.exact (p.outputs.map value) < 2 ^ 64
  spent : p.isCoinbase = false → Found q p.inputs →
    WordSum.exact (inputAmounts q p.inputs) < 2 ^ 64 ∧
      WordSum.exact (p.outputs.map value) < 2 ^ 64 ∨
    WordSum.exact (inputAmounts q p.inputs) % 2 ^ 64 <
      WordSum.exact (p.outputs.map value) % 2 ^ 64 ∧ tx.encodeRLP.isSome = true

/-- Fees are exact iff the amounts fit or are refused. -/
theorem feeExact_iff (q : OutPoint → Option Utxo) (tx : Transaction) : FeeExact q tx ↔
    ∀ p rest, tx.messages = .payment p :: rest → FitsOrFails q tx p := by
  refine forall₂_congr fun p rest => forall_congr' fun hmsgs => ?_
  cases hcoin : p.isCoinbase with
  | true =>
    -- the fee is zero, whatever the amounts are
    have hfee : tx.getTxFee q = some (.ok ⟨0, newPTNAsset⟩) := by simp [getTxFee, hmsgs, hcoin]
    simp only [hfee, some.injEq, Except.ok.injEq, forall_eq', reduceCtorEq, exists_false, imp_false,
      not_or, not_le]
    constructor
    · rintro ⟨hexact, -, hout⟩
      exact ⟨fun _ => ⟨by simpa using hexact, hout⟩, fun hnot => by simp [hcoin] at hnot⟩
    · intro h
      obtain ⟨hexact, hout⟩ := h.minted hcoin
      exact ⟨by simpa using hexact, hexact ▸ hout, hout⟩
  | false =>
    have hminted : ¬ p.isCoinbase = true := by simp [hcoin]
    obtain ⟨hmissing, e, he⟩ | ⟨hfound, asset, heq⟩ := @getTxFee_cases tx q p rest hmsgs hcoin
    · refine iff_of_true ⟨fun fee hfee => ?_, fun _ => ⟨e, he⟩⟩
        ⟨fun h => absurd h hminted, fun _ hfound => absurd hfound hmissing⟩
      rw [he] at hfee
      cases hfee
    have hwrap : (inputAmounts q p.inputs).sum < (p.outputs.map value).sum ↔
        WordSum.exact (inputAmounts q p.inputs) % 2 ^ 64 <
          WordSum.exact (p.outputs.map value) % 2 ^ 64 := by
      rw [UInt64.lt_iff_toNat_lt, Lib.WordSum.toNat_sum, Lib.WordSum.toNat_sum]
    have hspent : FitsOrFails q tx p ↔
        WordSum.exact (inputAmounts q p.inputs) < 2 ^ 64 ∧
          WordSum.exact (p.outputs.map value) < 2 ^ 64 ∨
        (inputAmounts q p.inputs).sum < (p.outputs.map value).sum ∧
          tx.encodeRLP.isSome = true := by
      rw [hwrap]
      exact ⟨fun h => h.spent hcoin hfound, fun h => ⟨fun h => absurd h hminted, fun _ _ => h⟩⟩
    rw [hspent, heq]
    by_cases hlt : (inputAmounts q p.inputs).sum < (p.outputs.map value).sum
    · simp only [hlt, true_and]
      cases tx.encodeRLP with
      | none => simp [not_or]
      | some b => simp
    rw [if_neg hlt]
    simp only [hlt, false_and, or_false, some.injEq, Except.ok.injEq, forall_eq', reduceCtorEq,
      exists_false, imp_false, not_or, not_le]
    refine ⟨And.right, fun hfits => ⟨?_, hfits⟩⟩
    have hle := UInt64.not_lt.1 hlt
    rw [UInt64.toNat_sub_of_le _ _ hle, Lib.WordSum.toNat_sum_of_lt hfits.1,
      Lib.WordSum.toNat_sum_of_lt hfits.2]
    rw [UInt64.le_iff_toNat_le, Lib.WordSum.toNat_sum_of_lt hfits.1,
      Lib.WordSum.toNat_sum_of_lt hfits.2] at hle
    omega

/-- Two outputs whose sum wraps around to one. -/
def wrapping : Transaction :=
  ⟨[.payment ⟨[openInput (outPoint 1)],
    [⟨2 ^ 63, [], newPTNAsset⟩, ⟨2 ^ 63 + 1, [], newPTNAsset⟩], 0⟩], [], false⟩

/-- One coin pays for them. -/
theorem fee_wraps : wrapping.getTxFee (fun _ => some (openUtxo 1)) =
    some (.ok ⟨0, newPTNAsset⟩) ∧ ¬ FeeExact (fun _ => some (openUtxo 1)) wrapping := by
  have hfee : wrapping.getTxFee (fun _ => some (openUtxo 1)) =
      some (.ok ⟨0, newPTNAsset⟩) := by decide +kernel
  exact ⟨hfee, fun h => absurd ((h _ _ rfl).1 _ hfee) (by decide +kernel)⟩

end Validate

end ZwsChain
