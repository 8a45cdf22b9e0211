import ZwsChain.Dag.PushUnit
import ZwsChain.Lib.Flow
import ZwsChain.Validator.DoubleSpend

/-!
# Applying the payments of a validated transaction

`saveTx4Unit` applies the payments of a transaction in order through `UpdateUtxo`. Validation and
application read the inputs differently. `validatePaymentPayload` looks up a reference to an own
output among the messages of the transaction, wherever it stands; `destroyUtxo` looks it up among
the outputs stored so far. A payment that spends its own output is therefore valid and cannot be
applied (`SelfPaid.valid_not_applied`).

* `applyPayments_isSome_iff`: application succeeds exactly if every spent outpoint is there when
  its message is reached.
* `Validate.payments_apply_iff`: what an accepted transaction needs besides. Inputs that validation
  looked up in the store need nothing.
-/

open List Option

namespace ZwsChain

open Transaction Message
open TxScript (SigState getAddressFromScript)

namespace Transaction

/-- The outpoints that a message creates: outputs to the zero address are destroyed.
Source: `dag/common/utxo_repository.go`, `writeUtxo` -/
def createdOutpoints (P : Primitives) (txHash : Hash) (msgIndex : Nat) : Message → List OutPoint
  | .payment p => p.outputs.zipIdx.filterMap fun (txout, outIndex) =>
    if (getAddressFromScript P txout.pkScript).getD (FixedBytes.zero 21) = FixedBytes.zero 21
    then none else some ⟨txHash, UInt32.ofNat msgIndex, UInt32.ofNat outIndex⟩
  | _ => []

variable (P : Primitives) (tx : Transaction) (txHash : Hash)

/-- What the message at a place spends. -/
def spendsAt (i : Nat) : Set OutPoint :=
  {op | ∃ m, tx.messages[i]? = some m ∧ op ∈ spendOutpoints txHash m}

/-- What the message at a place creates. -/
def createsAt (i : Nat) : Set OutPoint :=
  {op | ∃ m, tx.messages[i]? = some m ∧ op ∈ createdOutpoints P txHash i m}

/-- An outpoint is unspent when the messages in front of a place have been applied: it is stored
or one of them creates it, and none spends it since. -/
def UnspentAt (db : Db) : Nat → OutPoint → Prop :=
  Lib.Present {op | op ∈ db.utxos} (tx.spendsAt txHash) (tx.createsAt P txHash)

end Transaction

namespace UnitRepository

variable (rep : UnitRepository)

/-! ### Application -/

/-- One message; `none` is an error.
Source: `dag/common/unit_repository.go`, `saveTx4Unit`, case `APP_PAYMENT`; `savePaymentPayload` -/
def applyPayment (txHash : Hash) (db : Db) (x : Message × Nat) : Option Db :=
  match x.1 with
  | .payment p =>
    match rep.updateUtxo txHash x.2 p db with
    | (true, db) => some db
    | (false, _) => none
  | _ => some db

/-- The payments of a transaction in order. -/
def applyPayments (txHash : Hash) (tx : Transaction) (db : Db) : Option Db :=
  tx.messages.zipIdx.foldlM (rep.applyPayment txHash) db

/-- The payments can be applied, and what the transaction spends is in the spent table. -/
def PaymentsApply (tx : Transaction) (db : Db) : Prop :=
  ∃ txHash db', tx.hash rep.P = some txHash ∧ rep.applyPayments txHash tx db = some db' ∧
    ∀ op ∈ tx.spent rep.P, op ∈ db'.stxos

/-! ### One payment -/

variable {db : Db}

/-- What is left after inputs are destroyed. -/
lemma mem_destroyUtxo {txid : Hash} {p : PaymentPayload}
    (h : (destroyUtxo txid p.inputs db).1 = true) (op : OutPoint) :
    (op ∈ (destroyUtxo txid p.inputs db).2.utxos ↔
      op ∈ db.utxos ∧ op ∉ spendOutpoints txid (.payment p)) ∧
    (op ∈ (destroyUtxo txid p.inputs db).2.stxos ↔
      op ∈ db.stxos ∨ op ∈ spendOutpoints txid (.payment p)) := by
  simp only [spendOutpoints]
  generalize p.inputs = l at h ⊢
  induction l generalizing db with
  | nil => simp [destroyUtxo]
  | cons txin rest ih =>
    cases hop : txin.previousOutPoint with
    | none =>
      rw [filterMap_cons_none (by rw [hop]; rfl)]
      simp only [destroyUtxo, hop] at h ⊢
      exact ih h
    | some named =>
      rw [filterMap_cons_some (by rw [hop]; rfl)]
      simp only [destroyUtxo, hop] at h ⊢
      set spent := if named.txHash.isSelfHash then { named with txHash := txid } else named
      cases hentry : db.getUtxoEntry spent with
      | none => simp [hentry] at h
      | some utxo =>
        simp only [hentry] at h ⊢
        obtain ⟨hutxos, hstxos⟩ := ih h
        rw [hutxos, hstxos]
        simp only [Db.deleteUtxo, AList.mem_erase, AList.mem_insert, mem_cons]
        tauto

lemma mem_utxos_writeUtxo (txHash : Hash) (i : Nat) (p : PaymentPayload) (db : Db)
    (op : OutPoint) :
    op ∈ (rep.writeUtxo txHash i p.lockTime p.outputs db).utxos ↔
      op ∈ db.utxos ∨ op ∈ createdOutpoints rep.P txHash i (.payment p) := by
  unfold writeUtxo
  rw [createdOutpoints]
  induction p.outputs.zipIdx generalizing db with
  | nil => simp
  | cons x l ih =>
    rw [foldl_cons, ih]
    dsimp only
    split_ifs with hzero
    · rw [filterMap_cons_none (by simp [hzero])]
    rw [filterMap_cons_some (by rw [if_neg hzero])]
    simp only [Db.saveUtxoEntity, AList.mem_insert, mem_cons]
    tauto

lemma stxos_writeUtxo (txHash : Hash) (i : Nat) (p : PaymentPayload) (db : Db) :
    (rep.writeUtxo txHash i p.lockTime p.outputs db).stxos = db.stxos := by
  unfold writeUtxo
  induction p.outputs.zipIdx generalizing db with
  | nil => rfl
  | cons x l ih =>
    rw [foldl_cons, ih]
    dsimp only
    split_ifs <;> rfl

/-- A message can be applied exactly if what it spends is there, and named once. -/
lemma applyPayment_isSome_iff (txHash : Hash) (db : Db) (x : Message × Nat) :
    (rep.applyPayment txHash db x).isSome ↔ (spendOutpoints txHash x.1).Nodup ∧
      ∀ op ∈ spendOutpoints txHash x.1, op ∈ db.utxos := by
  obtain ⟨m, i⟩ := x
  cases m with
  | payment p =>
    rw [← destroyUtxo_eq_true_iff, ← updateUtxo_fst rep txHash i, applyPayment]
    rcases hupdate : rep.updateUtxo txHash i p db with ⟨ok, db'⟩
    cases ok <;> simp [hupdate]
  | _ => simp [applyPayment, spendOutpoints]

variable {db' : Db} {m : Message} {txHash : Hash}

/-- What a message takes out of the unspent outputs and adds to them. -/
lemma mem_applyPayment {i : Nat} (h : rep.applyPayment txHash db (m, i) = some db')
    (op : OutPoint) :
    (op ∈ db'.utxos ↔ (op ∈ db.utxos ∧ op ∉ spendOutpoints txHash m) ∨
      op ∈ createdOutpoints rep.P txHash i m) ∧
    (op ∈ db'.stxos ↔ op ∈ db.stxos ∨ op ∈ spendOutpoints txHash m) := by
  cases m with
  | payment p =>
    unfold applyPayment updateUtxo at h
    rcases hdestroy : destroyUtxo txHash p.inputs db with ⟨ok, db₁⟩
    cases ok with
    | false => simp [hdestroy] at h
    | true =>
      simp only [hdestroy, some.injEq] at h
      obtain ⟨hutxos, hstxos⟩ := mem_destroyUtxo (by rw [hdestroy]) op
      rw [hdestroy] at hutxos hstxos
      rw [← h, mem_utxos_writeUtxo, stxos_writeUtxo, hutxos, hstxos]
      exact ⟨Iff.rfl, Iff.rfl⟩
  | _ =>
    obtain rfl : db = db' := by simpa [applyPayment] using h
    simp [spendOutpoints, createdOutpoints]

/-! ### The payments in order -/

variable {rep}

/-- The unspent outputs after the messages in front of a place. -/
lemma mem_utxos_before {tx : Transaction} (i : Nat) {db₁ : Db}
    (h : (tx.messages.zipIdx.take i).foldlM (rep.applyPayment txHash) db = some db₁)
    (op : OutPoint) : op ∈ db₁.utxos ↔ tx.UnspentAt rep.P txHash db i op := by
  induction i generalizing db₁ with
  | zero =>
    obtain rfl : db = db₁ := by simpa using h
    simp [Transaction.UnspentAt]
  | succ i ih =>
    rw [Transaction.UnspentAt, Lib.present_succ, ← Transaction.UnspentAt]
    cases hm : tx.messages[i]? with
    | none =>
      have hlen : tx.messages.zipIdx.length ≤ i := by simpa using hm
      rw [take_of_length_le (by omega), ← take_of_length_le hlen] at h
      simp [ih h, spendsAt, createsAt, hm]
    | some m =>
      have hzip : tx.messages.zipIdx[i]? = some (m, i) := by simp [hm]
      rw [take_add_one, hzip, toList_some, foldlM_append] at h
      obtain ⟨db₀, hdb₀, h⟩ := do_eq_some.1 h
      have hstep : rep.applyPayment txHash db₀ (m, i) = some db₁ := by simpa using h
      rw [(mem_applyPayment rep hstep op).1, ih hdb₀]
      simp [spendsAt, createsAt, hm]

/-- The payments can be applied exactly if what each message spends is there when it is reached,
and named once. -/
lemma applyPayments_isSome_iff (txHash : Hash) (tx : Transaction) (db : Db) :
    (rep.applyPayments txHash tx db).isSome ↔ ∀ i m, tx.messages[i]? = some m →
      (spendOutpoints txHash m).Nodup ∧
        ∀ op ∈ spendOutpoints txHash m, tx.UnspentAt rep.P txHash db i op := by
  constructor
  · intro hsome i m hm
    have hzip : tx.messages.zipIdx[i]? = some (m, i) := by simp [hm]
    rw [applyPayments, ← take_append_drop (i + 1) tx.messages.zipIdx, take_add_one,
      hzip, toList_some, foldlM_append, foldlM_append] at hsome
    obtain ⟨db', hrun⟩ := isSome_iff_exists.1 hsome
    obtain ⟨db₂, hrun₂, -⟩ := do_eq_some.1 hrun
    obtain ⟨db₁, hrun₁, hstep⟩ := do_eq_some.1 hrun₂
    have hstep : rep.applyPayment txHash db₁ (m, i) = some db₂ := by simpa using hstep
    obtain ⟨hnodup, hthere⟩ := (applyPayment_isSome_iff rep txHash db₁ (m, i)).1 (by
      rw [hstep]; rfl)
    exact ⟨hnodup, fun op hop => (mem_utxos_before i hrun₁ op).1 (hthere op hop)⟩
  intro hall
  rw [applyPayments, Lib.foldlM_isSome_iff]
  rintro pre ⟨m, k⟩ hpre db₁ hrun
  have hpre' : pre = tx.messages.zipIdx.take pre.length :=
    prefix_iff_eq_take.1 ((prefix_append pre _).trans hpre)
  have hget : tx.messages.zipIdx[pre.length]? = some (m, k) := by
    obtain ⟨rest, hrest⟩ := hpre
    rw [← hrest]
    simp
  obtain ⟨hm, rfl⟩ : tx.messages[pre.length]? = some m ∧ pre.length = k := by
    simpa [getElem?_zipIdx] using hget
  obtain ⟨hnodup, hthere⟩ := hall _ m hm
  refine (applyPayment_isSome_iff rep txHash db₁ _).2 ⟨hnodup, fun op hop => ?_⟩
  rw [hpre'] at hrun
  exact (mem_utxos_before _ hrun op).2 (hthere op hop)

lemma mem_stxos_of_applyPayments {tx : Transaction}
    (h : rep.applyPayments txHash tx db = some db') (hm : m ∈ tx.messages) {op : OutPoint}
    (hop : op ∈ spendOutpoints txHash m) : op ∈ db'.stxos := by
  have hspent := (Lib.foldlM_visits (I := fun _ => True)
    (Q := fun x db => ∀ op ∈ spendOutpoints txHash x.1, op ∈ db.stxos)
    (fun x db₁ db₂ _ hstep => ⟨trivial, fun op hop => ?_, fun y hy op hop => ?_⟩) trivial h).2
  · obtain ⟨i, hi⟩ := mem_iff_getElem?.1 hm
    exact hspent (m, i) (mk_mem_zipIdx_iff_getElem?.2 hi) op hop
  · exact (mem_applyPayment rep hstep op).2.2 (.inr hop)
  · exact (mem_applyPayment rep hstep op).2.2 (.inl (hy op hop))

end UnitRepository

/-! ### Accepted transactions -/

/-- What the payments of an accepted transaction need besides. An input that names an own output,
by the mark or by the transaction's id, needs the output when its message is reached; with an
account update in the transaction every input needs its output, since a missing one is forgotten
and what stands behind the update is not checked. -/
structure Transaction.OutputsInPlace (P : Primitives) (tx : Transaction) (txHash : Hash)
    (db : Db) : Prop where
  unspent : ∀ i p, tx.messages[i]? = some (.payment p) → ∀ op ∈ (payment p).outPoints,
    op.txHash.isSelfHash = true ∨ op.txHash = txHash ∨
      (∃ m ∈ tx.messages, m.isAccountUpdate = true) →
    tx.UnspentAt P txHash db i (resolve txHash op)
  once : tx.NamesItself P ∨ (∃ m ∈ tx.messages, m.isAccountUpdate = true) →
    ∀ m ∈ tx.messages, (spendOutpoints txHash m).Nodup

namespace Validate

variable {V : Validate} {tx : Transaction} {db : Db} {sigs : SigState}

lemma Accepts.exists_hash (h : Accepts V tx sigs) : ∃ txHash, tx.hash V.P = some txHash := by
  obtain ⟨msgs, s', hacc⟩ := h.accepted
  obtain ⟨p, hp⟩ := hacc.first
  have hmsg := (getElem?_txMessages_iff hacc.copies (by simp) 0).1 hp
  have hreaches : tx.reaches 0 = true := by
    rw [reaches, take_add_one, hmsg]
    rfl
  obtain ⟨-, -, s₁, s₂, -, -, hstep, -⟩ := hacc.payment_step hmsg hreaches
  obtain ⟨r, hr, -⟩ := payment_go hstep
  simp only [validatePaymentPayload, do_eq_some] at hr
  exact ⟨hr.choose, hr.choose_spec.1⟩

variable {i : Nat} {op : OutPoint} {p : PaymentPayload} {txHash : Hash}

/-- Without account updates, an input that does not name an own output has its output in the
store. -/
lemma Accepts.mem_utxos (h : Accepts (V.onDb db) tx sigs)
    (hno : ∀ m ∈ tx.messages, m.isAccountUpdate = false)
    (hp : tx.messages[i]? = some (.payment p)) (hop : op ∈ (payment p).outPoints)
    (hself : op.txHash.isSelfHash = false) : op ∈ db.utxos := by
  obtain ⟨_, _, r, -, hr, hvalid⟩ := h.payment_valid hno hp
  rcases Validate.payment_valid hr hvalid with ⟨hnil, -, -⟩ | ⟨-, s, sp, hok, -⟩
  · simp [outPoints, hnil] at hop
  rw [outPoints, hok.spends.outPoints_eq] at hop
  obtain ⟨⟨op', utxo⟩, hmem, rfl⟩ := List.mem_map.1 hop
  have hutxo := hok.spends.outputs _ hmem
  rw [utxoOf, if_neg (by simp [hself]), some.injEq] at hutxo
  exact AList.lookup_isSome.1 (by
    rw [show db.utxos.lookup op' = some utxo from hutxo]; rfl)

/-- An outpoint that no own output stands for is spent by one message only. -/
lemma notMem_spendsAt (hnodup : (tx.messages.flatMap outPoints).Nodup) {j : Nat}
    (hp : tx.messages[i]? = some (.payment p)) (hop : op ∈ (payment p).outPoints)
    (hown : op.txHash ≠ txHash) (hij : j < i) : op ∉ tx.spendsAt txHash j := by
  rintro ⟨m, hm, hmem⟩
  rw [spendOutpoints_eq] at hmem
  obtain ⟨named, hnamed, heq⟩ := List.mem_map.1 hmem
  have hsame : named = op := by
    unfold resolve at heq
    split_ifs at heq
    · exact absurd (congrArg OutPoint.txHash heq).symm hown
    · exact heq
  subst hsame
  obtain ⟨hi, hgeti⟩ := List.getElem?_eq_some_iff.1 hp
  obtain ⟨hj, hgetj⟩ := List.getElem?_eq_some_iff.1 hm
  have hdisjoint := pairwise_iff_getElem.1 (nodup_flatMap.1 hnodup).2 j i hj hi hij
  rw [hgeti, hgetj] at hdisjoint
  exact hdisjoint hnamed hop

/-- What an accepted transaction spends is there, and named once. -/
lemma Accepts.unspentAt (h : Accepts (V.onDb db) tx sigs) (hhash : tx.hash V.P = some txHash)
    (hplace : tx.OutputsInPlace V.P txHash db) {m : Message} (hm : tx.messages[i]? = some m) :
    (spendOutpoints txHash m).Nodup ∧
      ∀ op ∈ spendOutpoints txHash m, tx.UnspentAt V.P txHash db i op := by
  by_cases hpay : m.isPayment = true
  swap
  · have hnil : spendOutpoints txHash m = [] := by
      cases m with
      | payment p => exact absurd rfl hpay
      | _ => rfl
    simp [hnil]
  obtain ⟨p, rfl⟩ := eq_payment hpay
  by_cases hupdate : ∃ m ∈ tx.messages, m.isAccountUpdate = true
  · refine ⟨hplace.once (.inr hupdate) _ (mem_of_getElem? hm), fun op hop => ?_⟩
    rw [spendOutpoints_eq] at hop
    obtain ⟨named, hnamed, rfl⟩ := List.mem_map.1 hop
    exact hplace.unspent i p hm named hnamed (.inr (.inr hupdate))
  have hno : ∀ m ∈ tx.messages, m.isAccountUpdate = false := fun m hm => by
    by_contra hne
    exact hupdate ⟨m, hm, by simpa using hne⟩
  have hnodup := h.outPoints_nodup hno
  constructor
  · by_cases hnames : tx.NamesItself V.P
    · exact hplace.once (.inl hnames) _ (mem_of_getElem? hm)
    have hspent := spent_nodup hhash hnodup hnames
    rw [spent, getSpendOutpoints, hhash] at hspent
    exact (nodup_flatMap.1 hspent).1 _ (mem_of_getElem? hm)
  intro op hop
  rw [spendOutpoints_eq] at hop
  obtain ⟨named, hnamed, rfl⟩ := List.mem_map.1 hop
  by_cases hown : named.txHash.isSelfHash = true ∨ named.txHash = txHash
  · exact hplace.unspent i p hm named hnamed (hown.imp_right .inl)
  -- an output of the store, which validation has looked up
  obtain ⟨hself, hown⟩ := not_or.1 hown
  rw [resolve, if_neg hself]
  refine .inl ⟨h.mem_utxos hno hm hnamed (by simpa using hself), fun j hj => ?_⟩
  exact notMem_spendsAt hnodup hm hnamed hown hj

/-- The payments of an accepted transaction can be applied exactly if the own outputs it spends
are in place, and with an account update all that it spends. -/
theorem payments_apply_iff {rep : UnitRepository} (hP : rep.P = V.P)
    (h : Accepts (V.onDb db) tx sigs) :
    rep.PaymentsApply tx db ↔
      ∀ txHash, tx.hash V.P = some txHash → tx.OutputsInPlace V.P txHash db := by
  obtain ⟨txHash, hhash⟩ : ∃ txHash, tx.hash V.P = some txHash := h.exists_hash
  rw [← hP] at hhash ⊢
  constructor
  · rintro ⟨txHash', db', hhash', happly, -⟩ txHash'' hhash''
    obtain rfl : txHash' = txHash'' := some.inj (hhash'.symm.trans hhash'')
    have hall := (UnitRepository.applyPayments_isSome_iff txHash' tx db).1 (by rw [happly]; rfl)
    constructor
    · intro i p hp op hop _
      refine (hall i _ hp).2 _ ?_
      rw [spendOutpoints_eq]
      exact List.mem_map_of_mem hop
    intro _ m hm
    obtain ⟨i, hi⟩ := mem_iff_getElem?.1 hm
    exact (hall i m hi).1
  intro hplace
  have hplace := hplace txHash hhash
  have hsome : (rep.applyPayments txHash tx db).isSome := by
    rw [UnitRepository.applyPayments_isSome_iff]
    rw [hP] at hhash hplace ⊢
    exact fun i m hm => h.unspentAt hhash hplace hm
  obtain ⟨db', happly⟩ := isSome_iff_exists.1 hsome
  refine ⟨txHash, db', hhash, happly, fun op hop => ?_⟩
  rw [spent, getSpendOutpoints, hhash] at hop
  obtain ⟨m, hm, hmem⟩ := mem_flatMap.1 hop
  exact UnitRepository.mem_stxos_of_applyPayments happly hm hmem

end Validate

/-! ### A payment of itself -/

namespace SelfPaid

open SmallNode

/-- Anyone can spend what pays the hash of the script `OP_1`. -/
def redeemScript : Bytes := [0x51]

def anyone : Address := newAddress (primitives.hash160 redeemScript).val .scriptHash

def output : Output := ⟨10, TxScript.generateLockScript anyone, newPTNAsset⟩

/-- An input with the script behind the hash. -/
def input (op : OutPoint) : Input := ⟨1 :: redeemScript, [], some op⟩

/-- One output that anyone can spend. -/
def db : Db :=
  { Db.empty with
    utxos := (∅ : Table OutPoint Utxo).insert (outPoint 1) (utxoOfOutput 0 output) }

/-- The repository of the node. -/
def rep : UnitRepository := ⟨primitives, fun _ _ => none, fun _ _ => false⟩

/-- The own output of a message. -/
def own (msgIndex : UInt32) : OutPoint := ⟨newSelfHash, msgIndex, 0⟩

/-- The first payment spends the stored output. The second spends an own output of the message
`msgIndex`. -/
def tx (msgIndex : UInt32) : Transaction :=
  ⟨[.payment ⟨[input (outPoint 1)], [output], 0⟩, .payment ⟨[input (own msgIndex)], [output], 0⟩],
    [], false⟩

end SelfPaid

open SelfPaid SmallNode in
/-- The second payment spends its own output: the transaction is valid, its payments cannot be
applied. -/
theorem SelfPaid.valid_not_applied :
    Validate.Accepts (node.onDb db) (tx 1) noSigs ∧ ¬ rep.PaymentsApply (tx 1) db := by
  refine ⟨by decide +kernel, ?_⟩
  rintro ⟨txHash, db', hhash, happly, -⟩
  have hfail : ((tx 1).hash primitives).bind (rep.applyPayments · (tx 1) db) |>.isNone := by
    decide +kernel
  simp [show (tx 1).hash primitives = some txHash from hhash, happly] at hfail

open SelfPaid SmallNode in
/-- The second payment spends the output of the first. -/
theorem SelfPaid.applied_behind :
    Validate.Accepts (node.onDb db) (tx 0) noSigs ∧ rep.PaymentsApply (tx 0) db := by
  have haccepts : Validate.Accepts (node.onDb db) (tx 0) noSigs := by decide +kernel
  refine ⟨haccepts, (Validate.payments_apply_iff rfl haccepts).2 fun txHash _ => ⟨?_, ?_⟩⟩
  · intro i p hp op hop _
    match i with
    | 0 =>
      obtain rfl : _ = p := payment.inj (some.inj hp)
      obtain rfl : op = outPoint 1 := by simpa [outPoints, input] using hop
      refine .inl ⟨?_, fun j hj => absurd hj (by omega)⟩
      show outPoint 1 ∈ db.utxos
      decide +kernel
    | 1 =>
      obtain rfl : _ = p := payment.inj (some.inj hp)
      obtain rfl : op = own 0 := by simpa [outPoints, input] using hop
      have hkept : (TxScript.getAddressFromScript primitives output.pkScript).getD
          (FixedBytes.zero 21) ≠ FixedBytes.zero 21 := by decide +kernel
      refine .inr ⟨0, by omega, ⟨_, rfl, ?_⟩, fun l h h' => absurd h (by omega)⟩
      exact mem_filterMap.2 ⟨(output, 0), mem_cons_self, if_neg hkept⟩
    | i + 2 => simp [tx] at hp
  intro _ m hm
  simp only [tx, mem_cons, not_mem_nil, or_false] at hm
  rcases hm with rfl | rfl <;> simp [spendOutpoints, input]

end ZwsChain
