import ZwsChain.TxScript.Engine

/-!
# Unlocking a contract's output

An output locked to a contract is unlocked like a script hash: the unlocking script only pushes,
its last element is a script, and that script runs on the other elements. The lock script itself
compares the redeem script with the jury's, except for a system contract.

`redeems_of_run` takes these facts out of a run that ended without an error.
-/

namespace ZwsChain

namespace TxScript

variable {P : Primitives} {t : Target}

/-- The engine before the first script. -/
def Engine.start (sigs : SigState) : Engine :=
  ⟨⟨[], []⟩, [], [], 0, 0, 0, sigs⟩

/-- The last element that `pops` pushes parses as a script. The engine that the lock script leaves
runs this script on the other elements, and a single true one is left. -/
def LastPushRuns (P : Primitives) (t : Target) (pops pkPops : List ParsedOpcode)
    (sigs : SigState) : Prop :=
  ∃ vm redeem rest vm₁ redeemPops vm₂ top,
    Engine.execScript P t pops (Engine.start sigs) = (vm, none) ∧
    vm.stk.dstack = redeem :: rest ∧ Engine.execScript P t pkPops vm = (vm₁, none) ∧
    parseScript redeem = some redeemPops ∧
    Engine.execScript P t redeemPops { vm₁ with stk := { vm₁.stk with dstack := rest } } =
      (vm₂, none) ∧
    vm₂.stk.dstack = [top] ∧ asBool top = true

/-- An unlocking script that only pushes and carries its own redeem script. -/
def Redeems (P : Primitives) (t : Target) (signatureScript lockScript : Bytes) (sigs : SigState) :
    Prop :=
  ∃ pops pkPops, parseScript signatureScript = some pops ∧ parseScript lockScript = some pkPops ∧
    isPushOnly pops = true ∧ LastPushRuns P t pops pkPops sigs

/-- At the end of all scripts a single true element is left. -/
lemma dstack_of_checkErrorCondition {vm : Engine} (h : vm.checkErrorCondition true = none) :
    ∃ top, vm.stk.dstack = [top] ∧ asBool top = true := by
  unfold Engine.checkErrorCondition at h
  split at h
  · cases h
  rename_i hlen
  have hlen : vm.stk.dstack.length = 1 := by
    by_contra hne
    exact hlen ⟨rfl, hne⟩
  obtain ⟨top, htop⟩ := List.length_eq_one_iff.1 hlen
  rw [htop] at h
  refine ⟨top, htop, ?_⟩
  by_contra hb
  simp [hb] at h

lemma lastPushRuns_of_execute {pops pkPops : List ParsedOpcode} {sigs : SigState}
    (h : (Engine.execute P t pops pkPops true sigs).2 = none) :
    LastPushRuns P t pops pkPops sigs := by
  simp only [Engine.execute] at h
  split at h
  · cases h
  split at h
  · cases h
  rename_i vm hsig
  split at h
  · cases h
  rename_i vm₁ hlock
  simp only [if_true] at h
  split at h
  · cases h
  split at h
  · cases h
  rename_i vm₂ hredeem
  obtain ⟨top, htop, hbool⟩ := dstack_of_checkErrorCondition h
  cases hstack : vm.stk.dstack with
  | nil => simp [Engine.execRedeem, hstack] at hredeem
  | cons redeem rest =>
    simp only [Engine.execRedeem, hstack] at hredeem
    split at hredeem
    · cases hredeem
    next redeemPops hparse =>
      exact ⟨vm, redeem, rest, vm₁, redeemPops, vm₂, top, hsig, hstack, hlock, hparse, hredeem,
        htop, hbool⟩

/-- A run without an error on a contract's lock script. -/
lemma redeems_of_run {lockScript : Bytes} {pkPops : List ParsedOpcode} {sigs : SigState}
    (hpk : parseScript lockScript = some pkPops) (hcontract : isContractHash pkPops = true)
    (h : (Engine.run P t lockScript sigs).2 = none) :
    ∃ pay input, t.tx.messages[t.msgIdx]? = some (.payment pay) ∧
      pay.inputs[t.txIdx]? = some input ∧ Redeems P t input.signatureScript lockScript sigs := by
  unfold Engine.run at h
  split at h
  · next pay hpay =>
      split at h
      · cases h
      rename_i input hinput
      refine ⟨pay, input, hpay, hinput, ?_⟩
      split at h
      · cases h
      split at h
      · next pops pkPops' hpops hpk' =>
          obtain rfl : pkPops' = pkPops := Option.some.inj (hpk'.symm.trans hpk)
          split at h
          · cases h
          split at h
          · cases h
          rename_i hpush
          have hpush : isPushOnly pops = true := by
            by_contra hne
            exact hpush ⟨hcontract, by simpa using hne⟩
          rw [hcontract, Bool.or_true] at h
          exact ⟨pops, _, hpops, hpk, hpush, lastPushRuns_of_execute h⟩
      · cases h
  · cases h

/-- A lock script with a contract's address is a contract's lock script. -/
lemma isContractHash_of_address {lockScript : Bytes} {addr : Address}
    (h : getAddressFromScript P lockScript = some addr)
    (htype : addr.getType = AddressType.contractHash.toByte) :
    ∃ pkPops, parseScript lockScript = some pkPops ∧ isContractHash pkPops = true := by
  obtain ⟨pkPops, hpk, rfl⟩ := Option.map_eq_some_iff.1 h
  refine ⟨pkPops, hpk, ?_⟩
  by_contra hno
  have hty : ∀ data ty, (newAddressOriginalData P data ty).getType = ty.toByte :=
    fun data ty => Address.getType_newAddress _ _
  simp only [hno, if_false, apply_ite Address.getType, hty] at htype
  split_ifs at htype <;> exact absurd htype (by decide)

end TxScript

end ZwsChain
