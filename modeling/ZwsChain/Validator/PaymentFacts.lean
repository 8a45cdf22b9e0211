import ZwsChain.Lib.WordSum
import ZwsChain.Validator.Payment

/-!
# What a valid payment satisfies

Inversion of the two loops of `validatePaymentPayload`.

* `Spends`: what the loop over inputs has read when it ends without an error: the outpoints with
  the outputs behind them, which are new, of one asset, and summed with wrap-around.
* `validateOutputs_ok`: the loop over outputs ends with the exact sum.
* `payment_valid`: a payment whose code is `valid` has no inputs, or went through both loops and
  its scripts ran.
-/

open List Option Except

namespace ZwsChain

open TxScript (SigState)
open Lib (WordSum.exact)

namespace Validate

variable {V : Validate} {tx : Transaction}

/-! ### Inputs -/

/-- What the loop over the inputs `l` read between the states `s` and `s'`. -/
structure Spends (V : Validate) (tx : Transaction) (l : List Input) (s s' : InputState)
    (sp : List (OutPoint × Utxo)) : Prop where
  inputs : l.map Input.previousOutPoint = sp.map fun x => some x.1
  outputs : ∀ x ∈ sp, V.utxoOf tx x.1 = some (some x.2)
  used : s'.usedUtxo = (sp.map Prod.fst).reverse ++ s.usedUtxo
  nodup : (sp.map Prod.fst).Nodup
  fresh : ∀ x ∈ sp, x.1 ∉ s.usedUtxo
  scripts : s'.utxoScripts = (sp.map fun x => (x.1, x.2.pkScript)).reverse ++ s.utxoScripts
  total : s'.totalInput = s.totalInput + (sp.map fun x => x.2.amount).sum
  sameAsset : ∀ x ∈ sp, s'.asset = some x.2.asset
  keepsAsset : ∀ a, s.asset = some a → s'.asset = some a

variable {i : Nat} {op : OutPoint} {s : InputState} {utxo : Utxo} {txId : Hash}
  {code : ValidationCode} {asset : Option Asset} {asset0 : Asset} {payment : PaymentPayload}
  {totalInput : UInt64}

lemma checkInput_ok {s' : InputState} (h : V.checkInput i op utxo s = some (.ok s')) :
    (∀ a, s.asset = some a → a = utxo.asset) ∧ s'.asset = some utxo.asset ∧
      s'.totalInput = s.totalInput + utxo.amount ∧ s'.usedUtxo = s.usedUtxo ∧
      s'.utxoScripts = (op, utxo.pkScript) :: s.utxoScripts := by
  simp only [checkInput] at h
  split at h
  · cases h
  rename_i hasset
  have hasset : s.asset.getD utxo.asset = utxo.asset := not_not.1 hasset
  obtain ⟨status, -, h⟩ := bind_eq_some_iff.1 h
  split at h
  · cases h
  split at h
  · cases h
  obtain rfl := ok.inj (some.inj h)
  refine ⟨fun a ha => ?_, congrArg some hasset, rfl, rfl, rfl⟩
  rwa [ha] at hasset

/-- Without an error the loop over inputs has read an output for each input. -/
lemma validateInputs_ok : ∀ {l : List Input} {s s' : InputState},
    V.validateInputs tx txId i l s = some (.ok s') → ∃ sp, Spends V tx l s s' sp
  | [], s, s', h => by
      cases h
      exact ⟨[], rfl, nofun, rfl, nodup_nil, nofun, rfl, by simp, nofun, fun _ ha => ha⟩
  | input :: rest, s, s', h => by
      simp only [validateInputs] at h
      split at h
      · cases h
      rename_i op hop
      split at h
      · cases h
      rename_i hfresh
      split at h
      · cases h
      · split at h
        · cases h
        · cases h
      rename_i utxo hutxo
      split at h
      · cases h
      · cases h
      rename_i s₁ hs₁
      obtain ⟨hasset, hset, htotal, hused, hscripts⟩ := checkInput_ok hs₁
      obtain ⟨sp, hsp⟩ := validateInputs_ok h
      have hfresh' : ∀ x ∈ sp, x.1 ≠ op ∧ x.1 ∉ s.usedUtxo := by
        intro x hx
        have := hsp.fresh x hx
        rw [hused] at this
        exact ⟨fun he => this (he ▸ mem_cons_self), fun hm => this (mem_cons_of_mem _ hm)⟩
      have hkeep := hsp.keepsAsset _ hset
      refine ⟨(op, utxo) :: sp, ?_, ?_, ?_, ?_, ?_, ?_, ?_, ?_, ?_⟩
      · simp [hop, hsp.inputs]
      · rintro x (_ | ⟨_, hx⟩)
        · exact hutxo
        · exact hsp.outputs x hx
      · simp [hsp.used, hused]
      · refine nodup_cons.2 ⟨fun hm => ?_, hsp.nodup⟩
        obtain ⟨x, hx, he⟩ := List.mem_map.1 hm
        exact (hfresh' x hx).1 he
      · rintro x (_ | ⟨_, hx⟩)
        · simpa using hfresh
        · exact (hfresh' x hx).2
      · simp [hsp.scripts, hscripts]
      · rw [hsp.total, htotal, map_cons, sum_cons, UInt64.add_assoc]
      · rintro x (_ | ⟨_, hx⟩)
        · exact hkeep
        · exact hsp.sameAsset x hx
      · intro a ha
        rw [hkeep, hasset a ha]

lemma tokenStatus_ne_orphan {symbol : Bytes} : V.tokenStatus symbol ≠ .orphan := by
  unfold tokenStatus
  split
  · exact nofun
  split
  · exact nofun
  split
  · exact nofun
  · exact nofun

/-- The checks on an input refuse with a code of their own. -/
lemma checkInput_error (h : V.checkInput i op utxo s = some (.error code)) :
    code ≠ .valid ∧ code ≠ .orphan := by
  simp only [checkInput] at h
  split at h
  · obtain rfl := error.inj (some.inj h)
    exact ⟨nofun, nofun⟩
  obtain ⟨status, hstatus, h⟩ := bind_eq_some_iff.1 h
  split at h
  · next hne =>
      obtain rfl := error.inj (some.inj h)
      refine ⟨hne, ?_⟩
      unfold statusOf at hstatus
      split at hstatus
      · obtain ⟨symbol, -, rfl⟩ := map_eq_some_iff.1 hstatus
        exact tokenStatus_ne_orphan
      · exact absurd (some.inj hstatus).symm hne
  split at h
  · obtain rfl := error.inj (some.inj h)
    exact ⟨nofun, nofun⟩
  · cases h

lemma validateInputs_ne_valid {used : List OutPoint} :
    ∀ {l : List Input} {s : InputState},
      V.validateInputs tx txId i l s ≠ some (.error (.valid, used))
  | [], s => nofun
  | input :: rest, s => by
      intro h
      simp only [validateInputs] at h
      split at h
      · cases h
      split at h
      · cases h
      split at h
      · cases h
      · split at h
        · cases h
        · cases h
      split at h
      · cases h
      · next code hcode =>
          cases h
          exact (checkInput_error hcode).1 rfl
      · exact validateInputs_ne_valid h

/-! ### Outputs -/

/-- The loop over outputs ends with their exact sum; each has the asset of the inputs, or the
asset id of the first output when there are none. -/
lemma validateOutputs_ok :
    ∀ {l : List Output} {t t' : UInt64}, V.validateOutputs asset asset0 l t = .ok t' →
      t'.toNat = t.toNat + WordSum.exact (l.map Output.value) ∧
      (∀ o ∈ l, ∀ a, asset = some a → o.asset = a) ∧
      ∀ o ∈ l, o.value ≠ 0
  | [], t, t', h => by
      obtain rfl := ok.inj h
      exact ⟨rfl, nofun, nofun⟩
  | o :: l, t, t', h => by
      simp only [validateOutputs] at h
      split at h
      · cases h
      rename_i hsame
      split at h
      · cases h
      rename_i hno
      split at h
      · cases h
      obtain ⟨hlt, hzero⟩ := not_or.1 hno
      obtain ⟨hsum, hasset, hpos⟩ := validateOutputs_ok h
      refine ⟨?_, ?_, ?_⟩
      · rw [hsum, Lib.WordSum.toNat_add_of_not_lt hlt, map_cons,
          Lib.WordSum.exact_cons, Nat.add_assoc]
      · rintro o' (_ | ⟨_, ho'⟩) a rfl
        · have hsame : a = o.asset := by simpa [sameAsset] using hsame
          exact hsame.symm
        · exact hasset o' ho' a rfl
      rintro o' (_ | ⟨_, ho'⟩)
      · exact hzero
      · exact hpos o' ho'

/-- The loop over outputs refuses with a code of its own. -/
lemma validateOutputs_error :
    ∀ {l : List Output} {t : UInt64}, V.validateOutputs asset asset0 l t = .error code →
      code ≠ .valid ∧ code ≠ .orphan
  | [], t, h => by cases h
  | o :: l, t, h => by
      simp only [validateOutputs] at h
      split at h
      · obtain rfl := error.inj h
        exact ⟨nofun, nofun⟩
      split at h
      · obtain rfl := error.inj h
        exact ⟨nofun, nofun⟩
      split at h
      · obtain rfl := error.inj h
        exact ⟨nofun, nofun⟩
      · exact validateOutputs_error h

lemma checkOutputs_ne_orphan : V.checkOutputs i payment asset totalInput ≠ .orphan := by
  unfold checkOutputs
  split
  · exact nofun
  split
  · next hcode => exact (validateOutputs_error hcode).2
  split
  · exact nofun
  · exact nofun

/-- What valid outputs satisfy. -/
structure OutputsOk (i : Nat) (payment : PaymentPayload) (asset : Option Asset)
    (totalInput : UInt64) : Prop where
  sameAsset : ∀ o ∈ payment.outputs, ∀ a, asset = some a → o.asset = a
  amount : asset.isSome → i ≠ 0 →
    WordSum.exact (payment.outputs.map Output.value) ≤ totalInput.toNat
  fits : WordSum.exact (payment.outputs.map Output.value) < 2 ^ 64

lemma checkOutputs_valid (h : V.checkOutputs i payment asset totalInput = .valid) :
    OutputsOk i payment asset totalInput := by
  unfold checkOutputs at h
  split at h
  · next hnil => refine ⟨?_, ?_, ?_⟩ <;> simp [hnil]
  split at h
  · next code hcode => exact absurd h (validateOutputs_error hcode).1
  rename_i total htotal
  obtain ⟨hsum, hasset, -⟩ := validateOutputs_ok htotal
  rw [UInt64.toNat_zero, Nat.zero_add] at hsum
  refine ⟨hasset, fun hsome hi => ?_, hsum ▸ total.toNat_lt⟩
  split at h
  · cases h
  next hle =>
    have hle : ¬ total > totalInput := fun hgt => hle ⟨hsome, hi, hgt⟩
    rw [← hsum]
    exact UInt64.le_iff_toNat_le.1 (UInt64.not_lt.1 hle)

/-! ### The whole payment -/

/-- What a payment that is neither empty of inputs nor refused went through. -/
structure InputsOk (V : Validate) (tx : Transaction) (i : Nat) (payment : PaymentPayload)
    (usedUtxo : List OutPoint) (sigs : SigState) (s : InputState)
    (sp : List (OutPoint × Utxo)) : Prop where
  spends : Spends V tx payment.inputs ⟨none, false, 0, usedUtxo, []⟩ s sp
  scripts : ∃ signTx, txForSign tx i = some signTx ∧
    (V.scriptValidate1Msg (lockScriptOf s.utxoScripts) signTx i sigs).2 = none
  outputs : OutputsOk i payment s.asset s.totalInput

/-- A valid payment has no inputs and marks nothing, or marks what it spends. -/
lemma payment_valid {usedUtxo : List OutPoint} {sigs : SigState} {r : PaymentResult}
    (h : V.validatePaymentPayload tx i payment usedUtxo sigs = some r) (hr : r.code = .valid) :
    (payment.inputs = [] ∧ r.usedUtxo = usedUtxo ∧ OutputsOk i payment none 0) ∨
      payment.inputs ≠ [] ∧ ∃ s sp, InputsOk V tx i payment usedUtxo sigs s sp ∧
        r.usedUtxo = s.usedUtxo := by
  simp only [validatePaymentPayload, bind_eq_bind, bind_eq_some_iff] at h
  obtain ⟨txId, -, h⟩ := h
  split at h
  · obtain rfl := some.inj h
    cases hr
  split at h
  · next hempty =>
      obtain rfl := some.inj h
      exact .inl ⟨List.isEmpty_iff.1 hempty, rfl, checkOutputs_valid hr⟩
  rename_i hempty
  obtain ⟨res, hres, h⟩ := bind_eq_some_iff.1 h
  cases res with
  | error e =>
    obtain rfl := some.inj h
    obtain ⟨code, used⟩ := e
    have hr : code = .valid := hr
    exact absurd (hr ▸ hres) validateInputs_ne_valid
  | ok s =>
    obtain ⟨signTx, hsign, h⟩ := bind_eq_some_iff.1 h
    obtain ⟨sp, hsp⟩ := validateInputs_ok hres
    split at h
    · cases h
    · obtain rfl := some.inj h
      cases hr
    next sigs' hrun =>
      obtain rfl := some.inj h
      refine .inr ⟨fun hnil => hempty (by simp [hnil]), s, sp, ?_, rfl⟩
      exact ⟨hsp, ⟨signTx, hsign, by rw [hrun]⟩, checkOutputs_valid hr⟩

end Validate

end ZwsChain
