import Mathlib
import ZwsChain.Validator.Accepted
import ZwsChain.Validator.Transactions

/-!
# Double spends inside a unit

The map of spent outpoints compares pointers, so what keeps a unit free of double spends is the
validation of each transaction for itself and the table of spent outputs.

* `Accepts.outPoints_nodup`: an accepted transaction without account updates names no outpoint
  twice.
* `UnitRun`: a run of the loop over transactions in which each lets it go on; `unitRun_of_ok`
  takes it out of a verdict.
* `no_double_spend_iff`: the exact condition under which a unit found valid spends no outpoint
  twice.
* `TwoPayments`: two payments of one output in one unit.
-/

open List Option

namespace ZwsChain

open Message SmallNode
open TxScript (SigState)

/-! ### One transaction -/

namespace Validate

variable {V : Validate} {tx : Transaction}

lemma Spends.outPoints_eq {l : List Input} {s s' : InputState} {sp : List (OutPoint × Utxo)}
    (h : Spends V tx l s s' sp) : l.filterMap Input.previousOutPoint = sp.map Prod.fst := by
  have : l.filterMap Input.previousOutPoint = (l.map Input.previousOutPoint).filterMap id := by
    rw [filterMap_map]
    rfl
  rw [this, h.inputs, filterMap_map]
  simp

variable {sigs : SigState}

/-- What a payment marks as used is new and not repeated. -/
lemma used_of_payment_valid {i : Nat} {p : PaymentPayload} {usedUtxo : List OutPoint}
    {r : PaymentResult} (h : V.validatePaymentPayload tx i p usedUtxo sigs = some r)
    (hr : r.code = .valid) (hnodup : usedUtxo.Nodup) :
    r.usedUtxo = (payment p).outPoints.reverse ++ usedUtxo ∧ r.usedUtxo.Nodup := by
  rcases payment_valid h hr with ⟨hnil, hused, -⟩ | ⟨-, s, sp, hok, hused⟩
  · rw [hused]
    exact ⟨by simp [outPoints, hnil], hnodup⟩
  have heq : r.usedUtxo = (payment p).outPoints.reverse ++ usedUtxo := by
    rw [hused, hok.spends.used, outPoints, hok.spends.outPoints_eq]
  refine ⟨heq, ?_⟩
  rw [hused, hok.spends.used]
  refine nodup_append.2 ⟨nodup_reverse.2 hok.spends.nodup, hnodup, ?_⟩
  rintro op hop op' hop' rfl
  obtain ⟨x, hx, rfl⟩ := List.mem_map.1 (mem_reverse.1 hop)
  exact hok.spends.fresh x hx hop'

/-- A walk that ends without a missing output has marked every outpoint that a message names,
none of them twice. -/
lemma Walk.used {l : List (Message × Nat)} {s s' : LoopState} (h : Walk V tx l s s')
    (horphan : s'.isOrphanTx = false) (hnodup : s.usedUtxo.Nodup) :
    s'.usedUtxo = (l.flatMap fun x => x.1.outPoints).reverse ++ s.usedUtxo ∧ s'.usedUtxo.Nodup := by
  induction h with
  | nil => exact ⟨rfl, hnodup⟩
  | @cons m i rest s s₁ s' hstep hrest ih =>
    have hone : s₁.usedUtxo = m.outPoints.reverse ++ s.usedUtxo ∧ s₁.usedUtxo.Nodup := by
      by_cases hm : m.isPayment = true
      · obtain ⟨p, rfl⟩ := eq_payment hm
        obtain ⟨r, hr, hcode, -, rfl⟩ := payment_go hstep
        have hvalid : r.code = .valid := hcode.resolve_right fun ho => by
          have := hrest.isOrphanTx_mono (by simp [ho])
          exact absurd (this.symm.trans horphan) nofun
        exact used_of_payment_valid hr hvalid hnodup
      have hnil : m.outPoints = [] := by
        cases m with
        | payment p => exact absurd rfl hm
        | _ => rfl
      rw [(other_go hstep (by simpa using hm)).1, hnil]
      exact ⟨rfl, hnodup⟩
    obtain ⟨hused, hnd⟩ := ih horphan hone.2
    refine ⟨?_, hnd⟩
    rw [hused, hone.1, flatMap_cons, reverse_append, append_assoc]

/-- An accepted transaction without account updates names no outpoint twice. -/
lemma Accepts.outPoints_nodup (h : Accepts V tx sigs)
    (hno : ∀ m ∈ tx.messages, m.isAccountUpdate = false) :
    (tx.messages.flatMap outPoints).Nodup := by
  obtain ⟨msgs, s', hacc⟩ := h.accepted
  have hno' : ∀ m ∈ msgs, m.isAccountUpdate = false := by
    intro m hm
    obtain ⟨m₀, hm₀, hcopy⟩ := Transaction.exists_of_mem_txMessages hacc.copies hm
    rw [isAccountUpdate_of_copyMessage hcopy]
    exact hno m₀ hm₀
  have hall : checkedPart msgs.zipIdx = msgs.zipIdx := by
    refine takeWhile_eq_self_iff.2 fun x hx => ?_
    rw [hno' x.1 (fst_mem_of_mem_zipIdx hx), Bool.not_false]
  obtain ⟨hused, hnodup⟩ := hacc.walk.used (hacc.noOrphan hno') nodup_nil
  have hmsgs : (msgs.zipIdx.flatMap fun x => x.1.outPoints) = msgs.flatMap outPoints := by
    rw [← flatMap_map, zipIdx_map_fst]
  rw [hused, hall, hmsgs, flatMap_def, map_copies outPoints (fun _ _ => rfl) hacc.copies,
    ← flatMap_def] at hnodup
  exact nodup_reverse.1 (List.Nodup.of_append_left hnodup)

end Validate

namespace Transaction

variable {P : Primitives} {tx : Transaction}

/-- The outpoint an input spends: the own-hash mark stands for the transaction's id. -/
def resolve (txHash : Hash) (op : OutPoint) : OutPoint :=
  if op.txHash.isSelfHash then { op with txHash } else op

lemma spendOutpoints_eq (txHash : Hash) (m : Message) :
    spendOutpoints txHash m = m.outPoints.map (resolve txHash) := by
  cases m with
  | payment p =>
    rw [outPoints, map_filterMap]
    rfl
  | _ => rfl

variable {txHash : Hash}

lemma getSpendOutpoints_eq (h : tx.hash P = some txHash) :
    tx.getSpendOutpoints P =
      some ((tx.messages.flatMap outPoints).map (resolve txHash)) := by
  simp only [getSpendOutpoints, h, do_some, some.injEq, map_flatMap]
  exact congrArg (fun f => List.flatMap f tx.messages) (funext (spendOutpoints_eq txHash))

/-- What a transaction spends, by value. -/
def spent (P : Primitives) (tx : Transaction) : List OutPoint :=
  (tx.getSpendOutpoints P).getD []

/-- An input names the transaction's own id in place of the own-hash mark. -/
def NamesItself (P : Primitives) (tx : Transaction) : Prop :=
  ∃ op ∈ tx.messages.flatMap outPoints, !op.txHash.isSelfHash ∧
    tx.hash P = some op.txHash

/-- Distinct outpoints stay distinct unless one names the transaction itself. -/
lemma spent_nodup (hhash : tx.hash P = some txHash)
    (hnodup : (tx.messages.flatMap outPoints).Nodup) (hself : ¬ tx.NamesItself P) :
    (tx.spent P).Nodup := by
  rw [spent, getSpendOutpoints_eq hhash, getD_some]
  have hne : ∀ op ∈ tx.messages.flatMap outPoints, op.txHash.isSelfHash = false →
      op.txHash ≠ txHash := by
    intro op hop hmark heq
    exact hself ⟨op, hop, by rw [hmark]; rfl, by rw [hhash, heq]⟩
  refine hnodup.map_on ?_
  intro a ha b hb hab
  unfold resolve at hab
  split at hab
  · next hma =>
      split at hab
      · next hmb =>
          -- both stand for the transaction itself, so their marks are the same hash
          obtain ⟨-, hmsg, hout⟩ := OutPoint.mk.inj hab
          have hsame : a.txHash = b.txHash :=
            ((Hash.isSelfHash_iff _).1 hma).trans ((Hash.isSelfHash_iff _).1 hmb).symm
          cases a
          cases b
          simp_all
      · next hmb => exact absurd (congrArg OutPoint.txHash hab).symm (hne b hb (by simpa using hmb))
  next hma =>
    split at hab
    · exact absurd (congrArg OutPoint.txHash hab) (hne a ha (by simpa using hma))
    · exact hab

end Transaction

/-! ### The loop over transactions -/

namespace Validate

variable {V : Validate} {C : UnitContext} {unitAuthor : Address}

lemma checkSpends_ok {l : List (Option Ref × OutPoint)} {spent spent' : List Ref}
    (h : V.checkSpends l spent = .ok spent') : ∀ x ∈ l, V.getStxoEntry x.2 = none := by
  induction l generalizing spent with
  | nil => exact nofun
  | cons y l ih =>
    rw [checkSpends] at h
    split at h
    · cases h
    split at h
    · cases h
    next hstxo =>
      rintro x (_ | ⟨_, hx⟩)
      · simpa using hstxo
      · exact ih h x hx

variable {i : Nat} {tx : Transaction} {sigs : SigState} {s s' : UnitState}
  {l : List (Transaction × Nat)}

lemma spendRefs_snd {txHash : Hash} :
    (spendRefs C tx i ((tx.messages.flatMap outPoints).map
      (Transaction.resolve txHash))).map Prod.snd =
        (tx.messages.flatMap outPoints).map (Transaction.resolve txHash) := by
  exact map_snd_zip (by simp)

/-- What a transaction that lets the loop go on has passed. -/
structure UnitStep (V : Validate) (tx : Transaction) (s s' : UnitState) (txId : Hash) : Prop where
  hash : tx.hash V.P = some txId
  checked : (s.cache txId).isSome = true ∨ Accepts (V.withUnitUtxo s.unitUtxo) tx s.sigs
  unspent : ∀ op ∈ tx.spent V.P, V.getStxoEntry op = none
  cached : ∀ h, (s'.cache h).isSome = true → (s.cache h).isSome = true ∨ h = txId

lemma validateTxAndCache_valid {cache cache' : ValidatorCache} {r : TxResult}
    (h : V.validateTxAndCache C tx cache sigs = some (r, cache')) (hr : r.code = .valid) :
    ∃ txId, tx.hash V.P = some txId ∧
      ((cache txId).isSome = true ∨ Accepts V tx sigs) ∧
      ∀ h, (cache' h).isSome = true → (cache h).isSome = true ∨ h = txId := by
  simp only [validateTxAndCache, do_eq_some] at h
  obtain ⟨txId, hid, h⟩ := h
  refine ⟨txId, hid, ?_⟩
  split at h
  · next add hadd =>
      cases h
      exact ⟨.inl (by simp [hadd]), fun _ => .inl⟩
  obtain ⟨r', hr', h⟩ := do_eq_some.1 h
  split at h
  · next hvalid =>
      cases h
      refine ⟨.inr (by rw [Accepts, hr', map_some, hvalid]), ?_⟩
      intro x hx
      by_cases hxid : x = txId
      · exact .inr hxid
      · rw [Function.update_of_ne hxid] at hx
        exact .inl hx
  next hvalid =>
    cases h
    exact absurd hr hvalid

lemma validateUnitTx_ok (h : V.validateUnitTx C unitAuthor tx i s = some (.ok s')) :
    ∃ txId, UnitStep V tx s s' txId := by
  simp only [validateUnitTx, do_eq_some] at h
  obtain ⟨⟨r, cache⟩, hr, h⟩ := h
  split at h
  · cases h
  rename_i hvalid
  obtain ⟨txId, hid, hchecked, hcached⟩ :=
    validateTxAndCache_valid hr (not_not.1 hvalid)
  have hid : tx.hash V.P = some txId := hid
  simp only [Transaction.getSpendOutpoints_eq hid, do_some] at h
  split at h
  · cases h
  rename_i spent hspent
  obtain ⟨newUtxos, -, h⟩ := do_eq_some.1 h
  cases h
  refine ⟨txId, hid, hchecked, ?_, hcached⟩
  intro op hop
  rw [Transaction.spent, Transaction.getSpendOutpoints_eq hid, getD_some,
    ← @spendRefs_snd C i tx txId] at hop
  obtain ⟨x, hx, rfl⟩ := List.mem_map.1 hop
  exact checkSpends_ok hspent x hx

lemma checkSpends_ne_valid {l : List (Option Ref × OutPoint)} {spent : List Ref} :
    V.checkSpends l spent ≠ .error .valid := by
  induction l generalizing spent with
  | nil => exact nofun
  | cons x l ih =>
    rw [checkSpends]
    split
    · exact nofun
    split
    · exact nofun
    · exact ih

/-- The loop ends with `valid` only by going through. -/
lemma validateUnitTxs_ne_valid : V.validateUnitTxs C unitAuthor l s ≠ some (.error .valid) := by
  induction l generalizing s with
  | nil => exact nofun
  | cons x l ih =>
    intro h
    simp only [validateUnitTxs, do_eq_some] at h
    obtain ⟨_, -, isExist, -, h⟩ := h
    split at h
    · cases h
    split at h
    · exact ih h
    obtain ⟨res, hres, h⟩ := do_eq_some.1 h
    cases res with
    | ok s₁ => exact ih h
    | error code =>
      cases h
      simp only [validateUnitTx, do_eq_some] at hres
      obtain ⟨⟨r, cache⟩, -, hres⟩ := hres
      split at hres
      · next hr => exact hr (Except.error.inj (some.inj hres))
      obtain ⟨ops, -, hres⟩ := do_eq_some.1 hres
      split at hres
      · next code hcode =>
          cases hres
          exact checkSpends_ne_valid hcode
      · obtain ⟨_, -, hres⟩ := do_eq_some.1 hres
        cases hres

/-- A run of the loop over transactions in which every one lets it go on. -/
inductive UnitRun (V : Validate) (C : UnitContext) (unitAuthor : Address) :
    List (Transaction × Nat) → UnitState → UnitState → Prop
  | nil (s : UnitState) : UnitRun V C unitAuthor [] s s
  | coinbase {tx : Transaction} {rest : List (Transaction × Nat)} {s s' : UnitState}
      (hrest : UnitRun V C unitAuthor rest s s') : UnitRun V C unitAuthor ((tx, 0) :: rest) s s'
  | cons {tx : Transaction} {i : Nat} {rest : List (Transaction × Nat)} {s s₁ s' : UnitState}
      (hi : i ≠ 0) (hstep : V.validateUnitTx C unitAuthor tx i s = some (.ok s₁))
      (hrest : UnitRun V C unitAuthor rest s₁ s') : UnitRun V C unitAuthor ((tx, i) :: rest) s s'

lemma unitRun_of_ok (h : V.validateUnitTxs C unitAuthor l s = some (.ok s')) :
    UnitRun V C unitAuthor l s s' := by
  induction l generalizing s with
  | nil =>
    obtain rfl := Except.ok.inj (some.inj h)
    exact .nil s
  | cons x l ih =>
    obtain ⟨tx, i⟩ := x
    simp only [validateUnitTxs, do_eq_some] at h
    obtain ⟨_, -, isExist, -, h⟩ := h
    split at h
    · cases h
    split at h
    · next hi =>
        subst hi
        exact .coinbase (ih h)
    rename_i hi
    obtain ⟨res, hres, h⟩ := do_eq_some.1 h
    cases res with
    | error code => cases h
    | ok s₁ => exact .cons hi hres (ih h)

/-- Each transaction of a run was validated, or its id was in the cache or belongs to a
predecessor; and nothing it spends is in the spent table. -/
lemma UnitRun.step_of_mem (h : UnitRun V C unitAuthor l s s')
    {pre post : List (Transaction × Nat)} (hl : l = pre ++ (tx, i) :: post) (hi : i ≠ 0) :
    (∀ op ∈ tx.spent V.P, V.getStxoEntry op = none) ∧ ∃ txId, tx.hash V.P = some txId ∧
      ((s.cache txId).isSome = true ∨ (∃ x ∈ pre, x.2 ≠ 0 ∧ x.1.hash V.P = some txId) ∨
        ∃ unitUtxo sigs, Accepts (V.withUnitUtxo unitUtxo) tx sigs) := by
  induction h generalizing pre with
  | nil => simp at hl
  | coinbase hrest ih =>
    cases pre with
    | nil =>
      obtain ⟨hx, -⟩ := List.cons.inj hl
      exact absurd (Prod.mk.inj hx).2.symm hi
    | cons x pre =>
      obtain ⟨rfl, htail⟩ := List.cons.inj hl
      obtain ⟨hspent, txId, hid, hchecked⟩ := ih htail
      refine ⟨hspent, txId, hid, hchecked.imp_right (Or.imp_left ?_)⟩
      exact fun ⟨y, hy, hyid⟩ => ⟨y, mem_cons_of_mem _ hy, hyid⟩
  | @cons tx₁ j rest s s₁ s' hj hstep hrest ih =>
    obtain ⟨txId₁, hone⟩ := validateUnitTx_ok hstep
    cases pre with
    | nil =>
      obtain ⟨hx, -⟩ := List.cons.inj hl
      cases hx
      refine ⟨hone.unspent, txId₁, hone.hash, ?_⟩
      rcases hone.checked with hcache | hacc
      · exact .inl hcache
      · exact .inr (.inr ⟨_, _, hacc⟩)
    | cons x pre =>
      obtain ⟨rfl, htail⟩ := List.cons.inj hl
      obtain ⟨hspent, txId, hid, hchecked⟩ := ih htail
      refine ⟨hspent, txId, hid, ?_⟩
      rcases hchecked with hcache | ⟨y, hy, hyid⟩ | hacc
      · rcases hone.cached txId hcache with hcache | rfl
        · exact .inl hcache
        · exact .inr (.inl ⟨_, mem_cons_self, hj, hone.hash⟩)
      · exact .inr (.inl ⟨y, mem_cons_of_mem _ hy, hyid⟩)
      · exact .inr (.inr hacc)

/-- A transaction whose validation does not rule out that it spends an outpoint twice: it has an
account update, names itself, or has the id of one in front of it. -/
def Exempt (P : Primitives) (pre : List Transaction) (tx : Transaction) : Prop :=
  (∃ m ∈ tx.messages, m.isAccountUpdate = true) ∨ tx.NamesItself P ∨
    ∃ tx' ∈ pre, tx'.hash P = tx.hash P

/-- What a unit found valid has passed, transaction by transaction. -/
lemma spent_of_valid {txs : List Transaction} {unitTime : Int}
    (h : V.validateTransactions C txs unitTime unitAuthor (fun _ => none) sigs = some .valid)
    {pre post : List Transaction} (htx : txs.tail = pre ++ tx :: post) :
    (∀ op ∈ tx.spent V.P, V.getStxoEntry op = none) ∧
      (¬ Exempt V.P pre tx → (tx.spent V.P).Nodup) := by
  cases txs with
  | nil => simp at htx
  | cons coinbase rest =>
    obtain rfl : rest = pre ++ tx :: post := htx
    obtain ⟨res, hres, h⟩ := do_eq_some.1 h
    cases res with
    | error code =>
      obtain rfl := some.inj h
      exact absurd hres validateUnitTxs_ne_valid
    | ok s =>
      have hsplit : (coinbase :: (pre ++ tx :: post)).zipIdx =
          ((coinbase, 0) :: pre.zipIdx 1) ++
            (tx, 1 + pre.length) :: post.zipIdx (1 + pre.length + 1) := by
        simp [zipIdx_append]
      obtain ⟨hspent, txId, hid, hchecked⟩ :=
        (unitRun_of_ok hres).step_of_mem hsplit (by omega)
      refine ⟨hspent, fun hex => ?_⟩
      obtain ⟨hupdate, hself, hpre⟩ : _ ∧ _ ∧ _ := by simpa [Exempt] using hex
      rcases hchecked with hcache | ⟨y, hy, hne, hyid⟩ | ⟨unitUtxo, sigs', hacc⟩
      · cases hcache
      · rcases mem_cons.1 hy with rfl | hy
        · exact absurd rfl hne
        · exact absurd (hyid.trans hid.symm) (hpre y.1 (fst_mem_of_mem_zipIdx hy))
      · exact Transaction.spent_nodup hid (hacc.outPoints_nodup hupdate) hself

/-- In a unit that is found valid with an empty cache, no outpoint is spent twice and none is in
the spent table iff no two transactions share an outpoint and the exempt ones do not repeat
one. -/
theorem no_double_spend_iff {txs : List Transaction} {unitTime : Int} {sigs : SigState}
    (h : V.validateTransactions C txs unitTime unitAuthor (fun _ => none) sigs = some .valid) :
    ((txs.tail.flatMap fun tx => tx.spent V.P).Nodup ∧
      ∀ op ∈ txs.tail.flatMap fun tx => tx.spent V.P, V.getStxoEntry op = none) ↔
    (txs.tail.Pairwise fun tx tx' => (tx.spent V.P).Disjoint (tx'.spent V.P)) ∧
      ∀ pre tx post, txs.tail = pre ++ tx :: post → Exempt V.P pre tx → (tx.spent V.P).Nodup := by
  rw [nodup_flatMap]
  constructor
  · rintro ⟨⟨hnodup, hdisjoint⟩, -⟩
    refine ⟨hdisjoint, fun pre tx post htx _ => hnodup tx ?_⟩
    rw [htx]
    exact mem_append_right _ mem_cons_self
  rintro ⟨hdisjoint, hexempt⟩
  refine ⟨⟨fun tx htx => ?_, hdisjoint⟩, fun op hop => ?_⟩
  · obtain ⟨pre, post, hsplit⟩ := append_of_mem htx
    by_cases hex : Exempt V.P pre tx
    · exact hexempt pre tx post hsplit hex
    · exact (spent_of_valid h hsplit).2 hex
  obtain ⟨tx, htx, hop⟩ := mem_flatMap.1 hop
  obtain ⟨pre, post, hsplit⟩ := append_of_mem htx
  exact (spent_of_valid h hsplit).1 op hop

/-! ### Two payments of one output -/

namespace TwoPayments

/-- The additions come back from the cache and out of maps as they went in, and the transactions
of a list are objects of their own. -/
def context : UnitContext where
  generateUnitReward := 0
  ofMalformed _ := []
  reread := some
  iterate := id
  object := id

/-- A coinbase in the state form that writes nothing. -/
def coinbase : Transaction :=
  ⟨[.contractInvoke ⟨coinbaseContractId, [], [], [], [], ⟨0, []⟩⟩], [], false⟩

/-- A store with two outputs of 10. -/
def validator : Validate :=
  withUtxos [(outPoint 1, openUtxo 10), (outPoint 2, openUtxo 10)]

/-- A payment of one output; `lockTime` tells payments of one output apart. -/
def pay (n : UInt8) (lockTime : UInt32) : Transaction :=
  ⟨[.payment ⟨[openInput (outPoint n)], [⟨10, [0x51], newPTNAsset⟩], lockTime⟩], [], false⟩

/-- A time after the main net upgrade. -/
def unitTime : Int :=
  1600000000

end TwoPayments

open TwoPayments

/-- Two payments of two outputs. -/
theorem no_double_spend_two_outputs :
    validator.validateTransactions context
      [coinbase, pay 1 0, pay 2 0] unitTime
      (FixedBytes.zero 21) (fun _ => none) noSigs = some .valid ∧
    ([pay 1 0, pay 2 0].flatMap fun tx => tx.spent validator.P).Nodup := by
  have hvalid : validator.validateTransactions context
      [coinbase, pay 1 0, pay 2 0] unitTime
      (FixedBytes.zero 21) (fun _ => none) noSigs = some .valid := by
    decide +kernel
  have hall : ∀ tx ∈ [pay 1 0, pay 2 0],
      (tx.spent validator.P).Nodup := by
    decide +kernel
  have hdisjoint : ∀ op ∈ (pay 1 0).spent validator.P,
      op ∉ (pay 2 0).spent validator.P := by
    decide +kernel
  refine ⟨hvalid, ((no_double_spend_iff hvalid).2 ⟨?_, ?_⟩).1⟩
  · exact pairwise_pair.2 (disjoint_left.2 hdisjoint)
  intro pre tx post htx _
  refine hall tx ?_
  rw [show [pay 1 0, pay 2 0] = pre ++ tx :: post from htx]
  exact mem_append_right _ mem_cons_self

/-- A unit with two payments of one output is found valid. -/
theorem output_spent_twice :
    validator.validateTransactions context
      [coinbase, pay 1 0, pay 1 1] unitTime
      (FixedBytes.zero 21) (fun _ => none) noSigs = some .valid ∧
    ¬ ([pay 1 0, pay 1 1].flatMap fun tx => tx.spent validator.P).Nodup := by
  constructor <;> decide +kernel

end Validate

end ZwsChain
