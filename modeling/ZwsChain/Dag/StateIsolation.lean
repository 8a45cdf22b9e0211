import ZwsChain.Dag.SaveTx
import ZwsChain.Validator.JuryRequired

/-!
# Which contracts a transaction changes

The ids that `saveTx4Unit` writes under come from the result messages and from each entry of
their write sets; `validateTx` compares none of them with the request (`validateContractState`
accepts every result). What protects the other contracts is the jury's signature alone.

* `saveTx4Unit_untouched`: a contract that no result, no write-set entry and no invocation of the
  transaction names keeps its state, its record and its jury. Because keys are flat, an id that
  is not 20 bytes long names every contract whose id it starts or continues.
* `jury_writes_elsewhere`: an accepted transaction, signed by the jury of the contract that it
  invokes, changes the state of another contract.
-/

open List Option

namespace ZwsChain

open TxScript (SigState)

/-! ### Names -/

/-- The contracts that the entries of a write set name. -/
def writeSetContracts (wset : List ContractWriteSet) : List Bytes :=
  (wset.map ContractWriteSet.contractId).filter fun c => c.length ≠ 0

/-- The contracts a message names when it is saved. -/
def Message.namedContracts : Message → List Bytes
  | .contractDeploy p => p.contractId :: writeSetContracts p.writeSet
  | .contractInvoke p => p.contractId :: writeSetContracts p.writeSet
  | .contractStop p => [p.contractId]
  | .contractInvokeRequest p => [(newAddress p.contractId .contractHash).bytes]
  | _ => []

/-- The contracts a transaction names. -/
def Transaction.namedContracts (tx : Transaction) : List Bytes :=
  tx.messages.flatMap Message.namedContracts

/-- Whether keys under one id can be keys under the other: one of them starts the other. For ids
of one length this is equality. -/
def Overlap (c d : Bytes) : Prop :=
  c <+: d ∨ d <+: c

instance (c d : Bytes) : Decidable (Overlap c d) :=
  inferInstanceAs (Decidable (_ ∨ _))

lemma Overlap.refl (c : Bytes) : Overlap c c :=
  .inl prefix_rfl

/-- Flat keys that meet have overlapping ids. -/
lemma overlap_of_contractStateKey_eq {c d f g : Bytes}
    (h : Db.contractStateKey c f = Db.contractStateKey d g) : Overlap c d := by
  have hc : c <+: d ++ g := ⟨f, h⟩
  have hd : d <+: d ++ g := prefix_append d g
  exact prefix_or_prefix_of_prefix hc hd

/-! ### What stays -/

/-- The contract `d` reads back unchanged. -/
structure Untouched (d : Bytes) (db db' : Db) : Prop where
  state : ∀ field, db'.getContractState d field = db.getContractState d field
  record : db'.getContract d = db.getContract d
  jury : db'.getContractJury d = db.getContractJury d

namespace Untouched

variable {d id : Bytes} {db db₁ db₂ : Db} {version : StateVersion}

lemma refl (d : Bytes) (db : Db) : Untouched d db db :=
  ⟨fun _ => rfl, rfl, rfl⟩

lemma trans (h₁ : Untouched d db db₁) (h₂ : Untouched d db₁ db₂) : Untouched d db db₂ :=
  ⟨fun f => (h₂.state f).trans (h₁.state f), h₂.record.trans h₁.record, h₂.jury.trans h₁.jury⟩

/-- A fold of steps that leave a contract alone leaves it alone. -/
lemma foldl {α : Type} {f : Db → α → Db} :
    ∀ (l : List α) (db : Db), (∀ a ∈ l, ∀ db, Untouched d db (f db a)) →
      Untouched d db (l.foldl f db)
  | [], db, _ => refl d db
  | a :: l, db, h =>
    (h a mem_cons_self db).trans (foldl l (f db a) fun b hb => h b (mem_cons_of_mem _ hb))

lemma saveContractState {write : ContractWriteSet} (h : ¬ Overlap (Db.writeTarget id write) d) :
    Untouched d db (db.saveContractState id version write) := by
  have hkey : ∀ field, Db.contractStateKey d field ≠
      Db.contractStateKey (Db.writeTarget id write) write.key :=
    fun field heq => h (overlap_of_contractStateKey_eq heq.symm)
  unfold Db.saveContractState
  split
  · exact ⟨fun field => AList.lookup_erase_ne (hkey field), rfl, rfl⟩
  · exact ⟨fun field => AList.lookup_insert_ne (hkey field), rfl, rfl⟩

/-- The write set of a result changes the contracts that the result and its entries name. -/
lemma saveContractStates {wset : List ContractWriteSet} (hid : ¬ Overlap id d)
    (hset : ∀ c ∈ writeSetContracts wset, ¬ Overlap c d) :
    Untouched d db (db.saveContractStates id wset version) := by
  refine foldl _ _ fun write hwrite db => saveContractState ?_
  rw [Db.writeTarget]
  by_cases hlen : write.contractId.length ≠ 0
  · rw [if_pos hlen]
    apply hset
    exact mem_filter.2 ⟨List.mem_map_of_mem hwrite, by simpa using hlen⟩
  · rw [if_neg hlen]
    exact hid

lemma saveContract (contract : Contract) (h : ¬ Overlap contract.contractId d) :
    Untouched d db (db.saveContract contract) := by
  refine ⟨fun _ => rfl, AList.lookup_insert_ne ?_, rfl⟩
  rintro rfl
  exact h (Overlap.refl _)

lemma insertJury (entry : JuryEntry) (hne : d ≠ id) :
    Untouched d db { db with juries := db.juries.insert id entry } := by
  refine ⟨fun _ => rfl, rfl, ?_⟩
  simp only [Db.getContractJury, AList.lookup_insert_ne hne]

lemma saveContractJury (jury : ElectionNode) (h : ¬ Overlap id d) :
    Untouched d db (db.saveContractJury id jury version) := by
  apply insertJury
  rintro rfl
  exact h (Overlap.refl _)

/-- The list of a juror's contracts is under keys that are longer than a contract's id. -/
lemma saveContractWithJuryAddr {addr : Hash} {contract : Contract} (hd : d.length = 20) :
    Untouched d db (db.saveContractWithJuryAddr addr contract) := by
  apply insertJury
  rintro rfl
  rw [length_append, addr.property] at hd
  omega

end Untouched

open Untouched

namespace UnitRepository

variable {rep : UnitRepository} {d : Bytes} {unit : UnitInfo} {tx : Transaction} {txHash : Hash}
  {requester : Address} {db db' : Db}

lemma untouched_deleteUtxo {op : OutPoint} : Untouched d db (db.deleteUtxo op txHash) :=
  ⟨fun _ => rfl, rfl, rfl⟩

lemma untouched_destroyUtxo : ∀ (l : List Input) (db : Db),
    Untouched d db (destroyUtxo txHash l db).2
  | [], db => refl d db
  | txin :: rest, db => by
      rw [destroyUtxo]
      split
      · exact untouched_destroyUtxo rest db
      simp only
      split
      · exact refl d db
      · exact untouched_deleteUtxo.trans (untouched_destroyUtxo rest _)

lemma untouched_updateUtxo {i : Nat} {p : PaymentPayload} :
    Untouched d db (rep.updateUtxo txHash i p db).2 := by
  have hdestroy := @untouched_destroyUtxo d txHash p.inputs db
  rw [updateUtxo]
  split
  · next heq => rwa [heq] at hdestroy
  rename_i heq
  rw [heq] at hdestroy
  refine hdestroy.trans (foldl _ _ fun x _ db => ?_)
  simp only
  split
  · exact refl d db
  · exact ⟨fun _ => rfl, rfl, rfl⟩

/-- A deploy result changes the contracts that it and its write set name. -/
lemma untouched_saveContractInitPayload {isNil : Bool} {txIndex : UInt32} {templateId : Bytes}
    {p : ContractDeployPayload} (hd : d.length = 20) (hid : ¬ Overlap p.contractId d)
    (hset : ∀ c ∈ writeSetContracts p.writeSet, ¬ Overlap c d) :
    Untouched d db (saveContractInitPayload isNil unit txIndex templateId p requester db).2 := by
  have hstates : Untouched d db
      (db.saveContractStates p.contractId p.writeSet ⟨some unit.number, txIndex⟩) :=
    saveContractStates hid hset
  simp only [saveContractInitPayload]
  split
  · exact refl d db
  split
  · exact hstates
  next v _ =>
    have hrecord := hstates.trans (saveContract
      (newContract templateId p requester unit.timestamp v) hid)
    split
    · exact hrecord
    refine (hrecord.trans ?_).trans (foldl _ _ fun _ _ _ => saveContractWithJuryAddr hd)
    exact saveContractJury p.eleNode hid

lemma untouched_updateStateByContractInvoke {invoke : ContractInvokeRequestPayload}
    {unitTime : UInt64} {version : StateVersion}
    (h : rep.updateStateByContractInvoke invoke unitTime version db = some db')
    (hreq : ¬ Overlap (newAddress invoke.contractId .contractHash).bytes d) :
    Untouched d db db' := by
  unfold updateStateByContractInvoke at h
  split at h
  · obtain rfl := some.inj h
    exact refl d db
  rename_i haddr
  rw [not_not.1 haddr] at hreq
  split at h
  · cases h
  split at h
  · split at h
    · cases h
    split at h
    · obtain rfl := some.inj h
      exact refl d db
    · obtain rfl := some.inj h
      exact saveContractState hreq
  split at h
  · cases h
  · obtain rfl := some.inj h
    exact refl d db

/-- An invoke result changes the contracts that it and its write set name, and the deposit
contract if that is the one that is invoked. -/
lemma untouched_saveContractInvokePayload {txIndex : UInt32} {p : ContractInvokePayload}
    {r : Bool × Db}
    (h : rep.saveContractInvokePayload tx unit txIndex p db = some r)
    (hid : ¬ Overlap p.contractId d) (hset : ∀ c ∈ writeSetContracts p.writeSet, ¬ Overlap c d)
    (hreq : ∀ q, Message.contractInvokeRequest q ∈ tx.messages →
      ¬ Overlap (newAddress q.contractId .contractHash).bytes d) :
    Untouched d db r.2 := by
  have hstates : Untouched d db
      (db.saveContractStates p.contractId p.writeSet ⟨some unit.number, txIndex⟩) :=
    saveContractStates hid hset
  simp only [saveContractInvokePayload] at h
  split at h
  · split at h
    · obtain rfl := some.inj h
      exact hstates
    split at h
    · next invoke hinvoke =>
        obtain ⟨db', hdb', rfl⟩ := map_eq_some_iff.1 h
        exact hstates.trans (untouched_updateStateByContractInvoke hdb'
          (hreq invoke (mem_of_getElem? hinvoke)))
    · cases h
  · obtain rfl := some.inj h
    exact hstates

/-- The record of a stopped contract is saved under the id it was read from. -/
lemma untouched_saveContractStop {p : ContractStopPayload} (hid : ¬ Overlap p.contractId d) :
    Untouched d db (saveContractStop p db).2 := by
  unfold saveContractStop
  split
  · exact refl d db
  next contract hc =>
    apply saveContract { contract with status := 0 }
    rw [db.ownRecords _ _ hc]
    exact hid

section

variable {txIndex : Nat} {s : SaveState} {r : Bool × SaveState} (hd : d.length = 20)
  (hreq : ∀ q, Message.contractInvokeRequest q ∈ tx.messages →
    ¬ Overlap (newAddress q.contractId .contractHash).bytes d)
include hd hreq

/-- One message leaves alone the contracts that it and the invocations do not name. -/
lemma untouched_saveMsg {i : Nat} {m : Message}
    (h : rep.saveMsg unit txIndex tx txHash requester i m s = some r)
    (hm : ∀ c ∈ m.namedContracts, ¬ Overlap c d) : Untouched d s.db r.2.db := by
  cases m with
  | payment p =>
    obtain rfl := some.inj h
    exact untouched_updateUtxo
  | contractTpl p =>
    obtain ⟨req, -, rfl⟩ := map_eq_some_iff.1 h
    exact ⟨fun _ => rfl, rfl, rfl⟩
  | contractDeploy p =>
    obtain rfl := some.inj h
    exact untouched_saveContractInitPayload hd (hm _ mem_cons_self)
      fun c hc => hm c (mem_cons_of_mem _ hc)
  | contractInvoke p =>
    obtain ⟨r', hr', rfl⟩ := map_eq_some_iff.1 h
    exact untouched_saveContractInvokePayload hr' (hm _ mem_cons_self)
      (fun c hc => hm c (mem_cons_of_mem _ hc)) hreq
  | contractStop p =>
    obtain rfl := some.inj h
    exact untouched_saveContractStop (hm _ mem_cons_self)
  | contractTplRequest p | contractDeployRequest p | contractInvokeRequest p
  | contractStopRequest p | signature p | data p | accountUpdate p | unknown app =>
    obtain rfl := some.inj h
    exact refl d _

lemma untouched_saveMsgs {l : List (Message × Nat)}
    (h : rep.saveMsgs unit txIndex tx txHash requester l s = some r)
    (hl : ∀ x ∈ l, ∀ c ∈ x.1.namedContracts, ¬ Overlap c d) : Untouched d s.db r.2.db := by
  induction l generalizing s with
  | nil =>
    obtain rfl := some.inj h
    exact refl d _
  | cons x rest ih =>
    rw [saveMsgs] at h
    split at h
    · obtain rfl := some.inj h
      exact refl d _
    split at h
    · cases h
    · next s₁ hs₁ =>
        obtain rfl := some.inj h
        exact untouched_saveMsg hd hreq hs₁ (hl _ mem_cons_self)
    next s₁ hs₁ =>
      refine (untouched_saveMsg hd hreq hs₁ (hl _ mem_cons_self)).trans ?_
      exact ih h fun x hx => hl x (mem_cons_of_mem _ hx)

end

/-- Saving a transaction, whether it succeeds or breaks off, leaves every contract alone whose id
overlaps with none that the transaction names. -/
theorem saveTx4Unit_untouched {unit : UnitInfo} {txIndex : Nat} {tx : Transaction} {db db' : Db}
    {ok : Bool} (h : rep.saveTx4Unit unit txIndex tx db = some (ok, db')) (hd : d.length = 20)
    (hnamed : ∀ c ∈ tx.namedContracts, ¬ Overlap c d) : Untouched d db db' := by
  have hm : ∀ m ∈ tx.messages, ∀ c ∈ m.namedContracts, ¬ Overlap c d :=
    fun m hm c hc => hnamed c (mem_flatMap.2 ⟨m, hm, hc⟩)
  simp only [saveTx4Unit, do_eq_some] at h
  obtain ⟨requester, -, h⟩ := h
  split at h
  · cases h
    exact refl d db
  simp only [do_eq_some] at h
  obtain ⟨txHash, -, -, -, msgs, hmsgs, ⟨ok', s⟩, hs, h⟩ := h
  cases h
  refine untouched_saveMsgs hd (fun q hq => hm _ hq _ mem_cons_self) hs fun x hx => ?_
  obtain ⟨m, hmem, hcopy⟩ :=
    Transaction.exists_of_mem_txMessages hmsgs (fst_mem_of_mem_zipIdx hx)
  rw [copyMessage_congr Message.namedContracts (fun _ _ => rfl) hcopy]
  exact hm m hmem

end UnitRepository

/-! ### A jury that writes to another contract -/

namespace ForeignWrite

open SmallNode
open Validate.StrangersPayment (contractId jurorKey jury payAll)

/-- The contract that is written to; the one that is invoked is `contractId`. -/
def otherId : Bytes := List.replicate 20 8

/-- A contract that nothing in the transaction names. -/
def thirdId : Bytes := List.replicate 20 9

/-- A third contract's and the other contract's owner, the invoked contract's jury, and an output
that pays the fee. -/
def db : Db :=
  { Db.empty with
    contractState := (∅ : Table Bytes ContractStateValue)
      |>.insert (otherId ++ ascii "owner") ⟨ascii "alice", ⟨none, 0⟩⟩
      |>.insert (thirdId ++ ascii "owner") ⟨ascii "carol", ⟨none, 0⟩⟩
    juries := (∅ : Table Bytes JuryEntry).insert contractId (.jury jury ⟨none, 0⟩)
    utxos := (∅ : Table OutPoint Utxo).insert (outPoint 1) (openUtxo 10) }

/-- The request and a result of `contractId` whose write set names the other contract. -/
def unsigned : List Message :=
  [payAll 1 10, .contractInvokeRequest ⟨contractId, [], 0⟩,
    .contractInvoke ⟨contractId, [], [], [⟨false, ascii "owner", ascii "me", otherId⟩], [],
      ⟨0, []⟩⟩]

/-- The transaction with the signature of the jury of `contractId`. -/
def tx : Transaction :=
  ⟨unsigned ++ [.signature ⟨[⟨jurorKey,
    jurorKey ++ ((Transaction.mk unsigned [] false).encodeRLP).getD []⟩]⟩], [], false⟩

/-- A repository without old mediators. -/
def rep : UnitRepository := ⟨primitives, fun _ _ => none, fun _ _ => false⟩

/-- The unit of height 7. -/
def unit : UnitInfo := ⟨⟨ptnCoin, 7⟩, 0⟩

/-- The database after the transaction. -/
def saved : Option (Bool × Db) :=
  rep.saveTx4Unit unit 1 tx db

end ForeignWrite

open ForeignWrite in
/-- The third contract is named by nothing and keeps its owner. -/
theorem saveTx4Unit_untouched_third :
    saved.isSome = true ∧ ∀ r ∈ saved, r.2.getContractState thirdId (ascii "owner") =
      db.getContractState thirdId (ascii "owner") := by
  refine ⟨by decide +kernel, fun r hr => ?_⟩
  have hnamed : ∀ c ∈ tx.namedContracts, ¬ Overlap c thirdId := by decide +kernel
  exact (UnitRepository.saveTx4Unit_untouched hr (by decide +kernel) hnamed).state _

open ForeignWrite Validate.StrangersPayment SmallNode in
/-- The transaction invokes `contractId`, is signed by its jury and accepted, and makes `me` the
owner of the other contract. -/
theorem jury_writes_elsewhere :
    Validate.Accepts (node.onDb db) tx noSigs ∧
      tx.getContractId rep.P = some contractId ∧ contractId ≠ otherId ∧
      isUserContractId otherId = true ∧
      db.getContractState otherId (ascii "owner") = some ⟨ascii "alice", ⟨none, 0⟩⟩ ∧
      (saved.map fun r => (r.1, r.2.getContractState otherId (ascii "owner"))) =
        some (true, some ⟨ascii "me", ⟨some ⟨ptnCoin, 7⟩, 1⟩⟩) := by
  decide +kernel

end ZwsChain
