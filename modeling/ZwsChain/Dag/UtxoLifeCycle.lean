import Mathlib
import ZwsChain.Dag.UtxoDb
import ZwsChain.Validator.Validate

/-!
# The life of an output

Over a run of `UpdateUtxo` calls with pairwise different transaction hashes an output is created
once and spent at most once. `Change` says what one output can do to the store; a call is a
sequence of changes (`updateUtxo_changes`), so an invariant of the store is proved for the two
changes and holds after every run (`Numbered.invariant`).

`UtxoRepository.life_cycle` is the result: an output that was created is either unspent or spent,
spent outputs stay spent, and the index of an address lists its unspent outputs.

The place of an output is stored as a `uint32`. A payment of more than 2³² outputs writes two of
them to one outpoint, and the index of the first address keeps the outpoint of the second
(`ManyOutputs.index_off`).
-/

open List Option

namespace ZwsChain

open Transaction TxScript
open Relation (ReflTransGen)

/-! ### Well-formed stores -/

/-- The kind of value a record has. -/
def Key.Holds : Key → StoredValue → Prop
  | .utxo _, .utxo _ => True
  | .stxo _, .stxo _ => True
  | .addrOutpoint _ op, .outPoint op' => op' = op
  | .outpointAddr _, .address _ => True
  | .balance _, .balance _ => True
  | _, _ => False

namespace Store

variable {s : Store} {k : Key} {v : StoredValue}

/-- Every entry is a record with a value of its kind. -/
structure WellFormed (s : Store) : Prop where
  keyed : ∀ key ∈ s, ∃ k : Key, key = k.bytes
  typed : ∀ k v, s.read k = some v → k.Holds v

lemma WellFormed.empty : WellFormed ∅ where
  keyed key hkey := absurd hkey (AList.notMem_empty key)
  typed k v h := by simp at h

lemma WellFormed.put (h : WellFormed s) (hv : k.Holds v) : WellFormed (s.put k v) where
  keyed key hkey := by
    rcases (AList.mem_insert _).1 hkey with rfl | hkey
    · exact ⟨k, rfl⟩
    · exact h.keyed key hkey
  typed k' v' hv' := by
    rw [read_put] at hv'
    split_ifs at hv' with hk
    · obtain rfl := some.inj hv'
      exact hk ▸ hv
    · exact h.typed k' v' hv'

lemma WellFormed.delete (h : WellFormed s) : WellFormed (s.delete k) where
  keyed key hkey := h.keyed key (AList.mem_erase.1 hkey).2
  typed k' v' hv' := by
    rw [read_delete] at hv'
    split_ifs at hv' with hk
    exact h.typed k' v' hv'

lemma WellFormed.updateAccountBalance (h : WellFormed s) (addr : Address) (addAmount : UInt64) :
    WellFormed (s.updateAccountBalance addr addAmount) :=
  h.put trivial

variable {op : OutPoint} {utxo : Utxo} {key pre : Bytes}

/-- The unspent record of an output is an output. -/
lemma WellFormed.read_utxo (h : WellFormed s) :
    s.read (.utxo op) = some (.utxo utxo) ↔ s.getUtxoEntry op = some utxo := by
  unfold getUtxoEntry
  cases hread : s.read (.utxo op) with
  | none => simp
  | some v =>
    have hv := h.typed _ _ hread
    cases v with
    | utxo u => simp
    | _ => exact absurd hv id

lemma mem_getPrefix : (key, v) ∈ s.getPrefix pre ↔ pre <+: key ∧ s.lookup key = some v := by
  simp only [Store.getPrefix, List.mem_map, mem_filter, isPrefixOf_iff_prefix, Prod.mk.injEq]
  constructor
  · rintro ⟨e, ⟨he, hpre⟩, rfl, rfl⟩
    exact ⟨hpre, AList.mem_lookup_iff.2 he⟩
  · rintro ⟨hpre, hlookup⟩
    exact ⟨⟨key, v⟩, ⟨AList.mem_lookup_iff.1 hlookup, hpre⟩, rfl, rfl⟩

/-- The keys behind the prefix of a kind of record are those of its records. -/
lemma WellFormed.exists_key (h : WellFormed s) (hpre : pre <+: key)
    (hlookup : s.lookup key = some v) :
    ∃ k : Key, key = k.bytes ∧ pre <+: k.bytes ∧ s.read k = some v ∧ k.Holds v := by
  have hmem : key ∈ s := AList.lookup_isSome.1 (by rw [hlookup]; rfl)
  obtain ⟨k, rfl⟩ := h.keyed key hmem
  exact ⟨k, rfl, hpre, hlookup, h.typed k v hlookup⟩

/-- `GetAllUtxos` returns the unspent outputs. -/
lemma WellFormed.mem_getAllUtxos (h : WellFormed s) :
    (op, utxo) ∈ s.getAllUtxos ↔ s.getUtxoEntry op = some utxo := by
  rw [← h.read_utxo]
  simp only [getAllUtxos, mem_filterMap]
  constructor
  · rintro ⟨⟨key, v⟩, he, hv⟩
    obtain ⟨hpre, hlookup⟩ := mem_getPrefix.1 he
    obtain ⟨k, rfl, -, hread, hholds⟩ := h.exists_key hpre hlookup
    cases v with
    | utxo u =>
      cases k with
      | utxo op' =>
        simp only [Key.bytes, keyToOutpoint_toKey, map_some, some.injEq, Prod.mk.injEq] at hv
        obtain ⟨rfl, rfl⟩ := hv
        exact hread
      | _ => exact absurd hholds id
    | _ => exact absurd hv (by simp)
  intro hread
  refine ⟨(op.toKey, .utxo utxo), mem_getPrefix.2 ⟨prefix_append _ _, hread⟩, ?_⟩
  simp [keyToOutpoint_toKey]

/-- Index records behind the prefix of an address are records of the address. -/
lemma addr_eq_of_prefix {addr addr' : FixedBytes 20}
    (h : ascii "ap" ++ addr.val <+: (Key.addrOutpoint addr' op).bytes) : addr = addr' := by
  rw [Key.bytes, append_assoc, prefix_append_right_inj] at h
  have hlen : addr.val.length = addr'.val.length := addr.property.trans addr'.property.symm
  have hpre := prefix_of_prefix_length_le h (prefix_append _ _) hlen.le
  exact Subtype.ext (hpre.eq_of_length hlen)

/-- `GetAddrOutpoints` returns the outpoints of the index records of the address. -/
lemma WellFormed.mem_getAddrOutpoints (h : WellFormed s) {addr : Address} :
    op ∈ s.getAddrOutpoints addr ↔ (s.read (.addrOutpoint addr.hash160 op)).isSome := by
  simp only [getAddrOutpoints, mem_filterMap]
  constructor
  · rintro ⟨⟨key, v⟩, he, hv⟩
    obtain ⟨hpre, hlookup⟩ := mem_getPrefix.1 he
    obtain ⟨k, rfl, hpre, hread, hholds⟩ := h.exists_key hpre hlookup
    cases v with
    | outPoint op' =>
      cases k with
      | addrOutpoint addr' op'' =>
        obtain rfl : op' = op'' := hholds
        obtain rfl : op' = op := by simpa using hv
        rw [show addr.hash160 = addr' from addr_eq_of_prefix hpre, hread]
        rfl
      | _ => exact absurd hholds id
    | _ => exact absurd hv (by simp)
  intro hread
  obtain ⟨v, hv⟩ := isSome_iff_exists.1 hread
  have hholds := h.typed _ _ hv
  cases v with
  | outPoint op' =>
    obtain rfl : op' = op := hholds
    refine ⟨(_, .outPoint op'), mem_getPrefix.2 ⟨?_, hv⟩, rfl⟩
    exact prefix_append _ _
  | _ => exact absurd hholds id

end Store

namespace Store

/-- The output is unspent or spent. -/
def Known (s : Store) (op : OutPoint) : Prop :=
  (s.getUtxoEntry op).isSome ∨ s.isUtxoSpent op

end Store

namespace UtxoRepository

variable {rep : UtxoRepository} {txHash : Hash} {s s' : Store}

/-! ### Changes -/

variable (rep) in
/-- What one input or output of the transaction `txHash` does to the store. -/
inductive Change (txHash : Hash) : Store → Store → Prop
  | spend {s : Store} (op : OutPoint) (utxo : Utxo) (unitTime : UInt64)
      (hutxo : s.getUtxoEntry op = some utxo) :
      Change txHash s (rep.spend op utxo txHash unitTime s)
  | create {s : Store} (op : OutPoint) (utxo : Utxo) (hnew : ¬ s.Known op)
      (hop : op.txHash = txHash) (haddr : rep.addressOf utxo.pkScript ≠ FixedBytes.zero 21) :
      Change txHash s (rep.create op utxo s)

variable {op op' : OutPoint} {utxo : Utxo} {txid : Hash} {unitTime : UInt64} {s : Store}
  {c : Call} {pre : List Call}

lemma isUtxoSpent_create : (rep.create op utxo s).isUtxoSpent op' = s.isUtxoSpent op' := by
  simp [Store.isUtxoSpent]

lemma isUtxoSpent_spend :
    (rep.spend op utxo txid unitTime s).isUtxoSpent op' =
      (decide (op' = op) || s.isUtxoSpent op') := by
  by_cases hop : op' = op <;> simp [Store.isUtxoSpent, hop]

lemma known_create : (rep.create op utxo s).Known op' ↔ op' = op ∨ s.Known op' := by
  unfold Store.Known
  rw [getUtxoEntry_create, isUtxoSpent_create]
  by_cases hop : op' = op <;> simp [hop]

lemma known_spend (hutxo : s.getUtxoEntry op = some utxo) :
    (rep.spend op utxo txid unitTime s).Known op' ↔ s.Known op' := by
  unfold Store.Known
  rw [getUtxoEntry_spend, isUtxoSpent_spend]
  by_cases hop : op' = op <;> simp [hop, hutxo]

/-- Spent outputs stay spent. -/
lemma Change.isUtxoSpent (h : rep.Change txHash s s') (hop : s.isUtxoSpent op) :
    s'.isUtxoSpent op := by
  cases h with
  | spend op' utxo unitTime hutxo => rw [isUtxoSpent_spend, hop, Bool.or_true]
  | create op' utxo hnew hop' haddr => rwa [isUtxoSpent_create]

/-- Known outputs stay known. -/
lemma Change.known (h : rep.Change txHash s s') (hop : s.Known op) : s'.Known op := by
  cases h with
  | spend op' utxo unitTime hutxo => exact (known_spend hutxo).2 hop
  | create op' utxo hnew hop' haddr => exact known_create.2 (.inr hop)

/-- A new output is one of the transaction. -/
lemma Change.known_or_eq (h : rep.Change txHash s s') (hop : s'.Known op) :
    s.Known op ∨ op.txHash = txHash := by
  cases h with
  | spend op' utxo unitTime hutxo => exact .inl ((known_spend hutxo).1 hop)
  | create op' utxo hnew hop' haddr =>
    rcases known_create.1 hop with rfl | hop
    · exact .inr hop'
    · exact .inl hop

/-! ### Calls -/

variable (rep) in
/-- The inputs of a call spend unspent outputs, and make no output known. -/
lemma destroyUtxo_changes (txid : Hash) (unitTime : UInt64) (inputs : List Input) (s : Store) :
    ReflTransGen (rep.Change txid) s (rep.destroyUtxo txid unitTime inputs s).2 ∧
      ∀ op, (rep.destroyUtxo txid unitTime inputs s).2.Known op → s.Known op := by
  induction inputs generalizing s with
  | nil => exact ⟨.refl, fun _ => id⟩
  | cons txin rest ih =>
    rw [destroyUtxo]
    cases txin.previousOutPoint with
    | none => exact ih s
    | some op =>
      dsimp only
      split
      · exact ⟨.refl, fun _ => id⟩
      rename_i utxo hutxo
      refine ⟨.head (.spend _ utxo unitTime hutxo) (ih _).1, fun op' hop' => ?_⟩
      exact (known_spend hutxo).1 ((ih _).2 op' hop')

/-- The outpoints of the outputs from place `n` on are new. -/
def NewFrom (txHash : Hash) (n : Nat) (s : Store) : Prop :=
  ∀ op : OutPoint, s.Known op → op.txHash = txHash → op.outIndex.toNat < n

lemma writeUtxo_changes (msgIndex lockTime : UInt32) (txouts : List Output) {n : Nat}
    (hlen : n + txouts.length ≤ 2 ^ 32) (hnew : NewFrom txHash n s) :
    ReflTransGen (rep.Change txHash) s
      ((txouts.zipIdx n).foldl (rep.writeOutput txHash msgIndex lockTime) s) := by
  induction txouts generalizing n s with
  | nil => exact .refl
  | cons out rest ih =>
    rw [zipIdx_cons, foldl_cons]
    rw [length_cons] at hlen
    have hn : (UInt32.ofNat n).toNat = n := by
      exact Nat.mod_eq_of_lt (by omega)
    by_cases haddr : rep.addressOf out.pkScript = FixedBytes.zero 21
    · rw [writeOutput, if_pos haddr]
      refine ih (by omega) ?_
      intro op hknown hop
      exact (hnew op hknown hop).trans (Nat.lt_succ_self n)
    rw [writeOutput, if_neg haddr]
    have hchange : rep.Change txHash s (rep.create ⟨txHash, msgIndex, UInt32.ofNat n⟩
        (utxoOfOutput lockTime out) s) := by
      refine .create _ _ ?_ rfl haddr
      intro hknown
      have hlt := hnew _ hknown rfl
      rw [hn] at hlt
      exact absurd hlt (lt_irrefl n)
    refine .head hchange (ih (by omega) ?_)
    intro op hknown hop
    rcases known_create.1 hknown with rfl | hknown
    · rw [hn]
      exact Nat.lt_succ_self n
    · exact (hnew op hknown hop).trans (Nat.lt_succ_self n)

/-- A call is a sequence of changes of its transaction, if the transaction is new and its outputs
can be numbered. -/
lemma updateUtxo_changes (hlen : c.payment.outputs.length ≤ 2 ^ 32)
    (hnew : ∀ op : OutPoint, s.Known op → op.txHash ≠ c.txHash) :
    ReflTransGen (rep.Change c.txHash) s (rep.updateUtxo s c).2 := by
  obtain ⟨hdestroy, hknown⟩ :=
    destroyUtxo_changes rep c.txHash c.unitTime c.payment.inputs s
  unfold updateUtxo
  match hmatch : rep.destroyUtxo c.txHash c.unitTime c.payment.inputs s with
  | (false, s₁) =>
    rw [hmatch] at hdestroy
    exact hdestroy
  | (true, s₁) =>
    rw [hmatch] at hdestroy hknown
    refine hdestroy.trans (writeUtxo_changes _ _ _ (n := 0) (by simpa using hlen) ?_)
    intro op hop heq
    exact absurd heq (hnew op (hknown op hop))

/-! ### Runs -/

variable (rep) in
/-- The store after calls from an empty one; a call that fails leaves what it has written. -/
def run (calls : List Call) : Store :=
  calls.foldl (fun s c => (rep.updateUtxo s c).2) ∅

/-- The calls are of pairwise different transactions, and no place of an output is above the
range of its index. -/
structure Numbered (calls : List Call) : Prop where
  nodup : (calls.map Call.txHash).Nodup
  outputs : ∀ c ∈ calls, c.payment.outputs.length ≤ 2 ^ 32

variable {calls : List Call}

lemma run_append_singleton (calls : List Call) (c : Call) :
    rep.run (calls ++ [c]) = (rep.updateUtxo (rep.run calls) c).2 := by
  rw [run, foldl_append]
  rfl

/-- Over every run, failing calls included, the records have the outputs of the tables, and the
next call succeeds on both or on neither. -/
theorem run_refines (unitRep : UnitRepository) (gasToken : AssetId) (calls : List Call) :
    let rep : UtxoRepository := ⟨unitRep.P, gasToken⟩
    let update (db : Db) (c : Call) := unitRep.updateUtxo c.txHash c.msgIndex.toNat c.payment db
    let db := calls.foldl (fun db c => (update db c).2) Db.empty
    Refines (rep.run calls) db ∧ ∀ c, (rep.updateUtxo (rep.run calls) c).1 = (update db c).1 := by
  intro rep update db
  have hstep {s : Store} {db : Db} (h : Refines s db) (c : Call) :
      (rep.updateUtxo s c).1 = (update db c).1 ∧
        Refines (rep.updateUtxo s c).2 (update db c).2 := by
    simpa using updateUtxo_refines rep rfl h c.unitTime c.txHash c.msgIndex.toNat c.payment
  have hrun : Refines (rep.run calls) db :=
    foldl_rel ⟨fun _ => rfl, fun _ => rfl⟩ fun c _ _ _ h => (hstep h c).2
  exact ⟨hrun, fun c => (hstep hrun c).1⟩

lemma Numbered.of_prefix (h : Numbered calls) (hpre : pre <+: calls) :
    Numbered pre where
  nodup := h.nodup.sublist (hpre.sublist.map _)
  outputs c hc := h.outputs c (hpre.subset hc)

/-- The last call of a run is a sequence of changes, if the outputs so far are of the earlier
transactions. -/
lemma Numbered.last_changes (h : Numbered (calls ++ [c]))
    (hmem : ∀ op, (rep.run calls).Known op → op.txHash ∈ calls.map Call.txHash) :
    ReflTransGen (rep.Change c.txHash) (rep.run calls) (rep.run (calls ++ [c])) := by
  rw [run_append_singleton]
  apply updateUtxo_changes
  · exact h.outputs c (by simp)
  intro op hop heq
  have hnodup := h.nodup
  rw [map_append, nodup_append] at hnodup
  exact hnodup.2.2 _ (hmem op hop) _ (by simp) heq

/-- The outputs of a run are of its transactions. -/
lemma Numbered.txHash_mem (h : Numbered calls) :
    ∀ op, (rep.run calls).Known op → op.txHash ∈ calls.map Call.txHash := by
  induction calls using List.reverseRecOn with
  | nil =>
    intro op hop
    simp [run, Store.Known, Store.getUtxoEntry, Store.isUtxoSpent] at hop
  | append_singleton calls c ih =>
    intro op
    have hmem := ih (h.of_prefix (prefix_append calls [c]))
    rw [map_append, mem_append]
    refine ReflTransGen.rec (motive := fun s _ => s.Known op → _ ∨ _) (fun hop => ?_) ?_
      (h.last_changes hmem)
    · exact .inl (hmem op hop)
    intro s s' _ hchange ih' hop
    rcases hchange.known_or_eq hop with hop | hop
    · exact ih' hop
    · exact .inr (by simp [hop])

/-- The calls after a prefix of a run are a sequence of changes. -/
lemma Numbered.changes (h : Numbered calls) (hpre : pre <+: calls) :
    ReflTransGen (fun s s' => ∃ txHash, rep.Change txHash s s') (rep.run pre) (rep.run calls) := by
  induction calls using List.reverseRecOn with
  | nil =>
    obtain rfl := prefix_nil.1 hpre
    exact .refl
  | append_singleton calls c ih =>
    have hcalls := h.of_prefix (prefix_append calls [c])
    rcases prefix_concat_iff.1 hpre with rfl | hpre
    · exact .refl
    refine (ih hcalls hpre).trans ?_
    exact ReflTransGen.mono (fun _ _ hchange => ⟨_, hchange⟩) _ _ (h.last_changes hcalls.txHash_mem)

/-- An invariant of the changes holds along a run. -/
lemma Numbered.invariant (h : Numbered calls) {I : Store → Prop} (hpre : pre <+: calls)
    (hI : I (rep.run pre)) (hchange : ∀ txHash s s', rep.Change txHash s s' → I s → I s') :
    I (rep.run calls) := by
  refine ReflTransGen.rec (motive := fun s _ => I s) hI ?_ (h.changes hpre)
  rintro s s' - ⟨txHash, h'⟩ hs
  exact hchange txHash s s' h' hs

/-! ### Coherent stores -/

variable (rep) in
/-- The index lists the unspent outputs under their addresses, and no output is unspent and
spent. -/
structure Coherent (s : Store) : Prop where
  wellFormed : s.WellFormed
  indexed : ∀ addr op, (s.read (.addrOutpoint addr op)).isSome ↔
    ∃ utxo, s.getUtxoEntry op = some utxo ∧ (rep.addressOf utxo.pkScript).hash160 = addr
  disjoint : ∀ op, s.isUtxoSpent op → s.getUtxoEntry op = none

namespace Coherent

lemma empty : rep.Coherent ∅ where
  wellFormed := .empty
  indexed addr op := by simp [Store.getUtxoEntry]
  disjoint op h := by simp [Store.isUtxoSpent] at h

variable (rep) in
lemma wellFormed_saveUtxoEntity (h : s.WellFormed) (op : OutPoint) (utxo : Utxo) :
    (rep.saveUtxoEntity op utxo s).WellFormed := by
  refine Store.WellFormed.put (Store.WellFormed.put ?_ trivial) rfl
  exact h.put trivial

lemma wellFormed_create (h : s.WellFormed) (op : OutPoint) (utxo : Utxo) :
    (rep.create op utxo s).WellFormed := by
  have hsaved := wellFormed_saveUtxoEntity rep h op utxo
  unfold create
  split_ifs
  · exact hsaved.updateAccountBalance ..
  · exact hsaved

variable (rep) in
lemma wellFormed_deleteUtxo (h : s.WellFormed) (op : OutPoint) (utxo : Utxo) (txid : Hash)
    (unitTime : UInt64) : (rep.deleteUtxo op utxo txid unitTime s).WellFormed := by
  refine Store.WellFormed.delete (Store.WellFormed.put ?_ trivial)
  exact h.delete

variable {op : OutPoint}

lemma create (h : rep.Coherent s) (hnew : ¬ s.Known op) (utxo : Utxo) :
    rep.Coherent (rep.create op utxo s) where
  wellFormed := wellFormed_create h.wellFormed op utxo
  indexed addr op' := by
    rw [read_create_addrOutpoint, getUtxoEntry_create]
    have hindexed := h.indexed addr op'
    by_cases hop : op' = op
    · subst hop
      have hnone : s.getUtxoEntry op' = none := by
        simpa using fun hsome => hnew (.inl hsome)
      by_cases haddr : addr = (rep.addressOf utxo.pkScript).hash160
      · simp [haddr]
      · simp [haddr, hindexed, hnone, Ne.symm haddr]
    · simp only [hop, and_false, if_false]
      exact hindexed
  disjoint op' hspent := by
    rw [isUtxoSpent_create] at hspent
    rw [getUtxoEntry_create, if_neg, h.disjoint op' hspent]
    rintro rfl
    exact hnew (.inr hspent)

lemma spend (h : rep.Coherent s) (hutxo : s.getUtxoEntry op = some utxo)
    (txid : Hash) (unitTime : UInt64) :
    rep.Coherent (rep.spend op utxo txid unitTime s) where
  wellFormed := by
    have hdeleted := wellFormed_deleteUtxo rep h.wellFormed op utxo txid unitTime
    unfold UtxoRepository.spend
    split_ifs
    · exact hdeleted.updateAccountBalance ..
    · exact hdeleted
  indexed addr op' := by
    rw [read_spend_addrOutpoint, getUtxoEntry_spend]
    have hindexed := h.indexed addr op'
    by_cases hop : op' = op
    · subst hop
      by_cases haddr : addr = (rep.addressOf utxo.pkScript).hash160
      · simp [haddr]
      · simp [haddr, hindexed, hutxo, Ne.symm haddr]
    · simp only [hop, and_false, if_false]
      exact hindexed
  disjoint op' hspent := by
    rw [isUtxoSpent_spend] at hspent
    rw [getUtxoEntry_spend]
    by_cases hop : op' = op
    · rw [if_pos hop]
    · rw [if_neg hop]
      exact h.disjoint op' (by simpa [hop] using hspent)

end Coherent

lemma Change.coherent (h : rep.Change txHash s s') (hs : rep.Coherent s) : rep.Coherent s' := by
  cases h with
  | spend op utxo unitTime hutxo => exact hs.spend hutxo txHash unitTime
  | create op utxo hnew hop haddr => exact hs.create hnew utxo

variable (rep) in
lemma Numbered.coherent (h : Numbered calls) : rep.Coherent (rep.run calls) :=
  h.invariant nil_prefix .empty fun _ _ _ => Change.coherent

/-! ### The life of an output -/

variable (rep) in
/-- The outpoints of the outputs of a call that are not destroyed. -/
def created (c : Call) : List OutPoint :=
  (c.payment.outputs.zipIdx.filter fun out =>
    rep.addressOf out.1.pkScript ≠ FixedBytes.zero 21).map fun out =>
    ⟨c.txHash, c.msgIndex, UInt32.ofNat out.2⟩

section

variable {msgIndex lockTime : UInt32}

/-- What creating an output preserves, writing outputs does. -/
lemma writeOutput_preserves {I : Store → Prop}
    (hcreate : ∀ op utxo s, I s → I (rep.create op utxo s)) (l : List (Output × Nat)) (h : I s) :
    I (l.foldl (rep.writeOutput txHash msgIndex lockTime) s) := by
  refine foldlRecOn l _ h fun s hs out _ => ?_
  unfold writeOutput
  split_ifs
  · exact hs
  · exact hcreate _ _ s hs

end

/-- A successful call creates its outputs. -/
lemma known_of_created (hok : (rep.updateUtxo s c).1 = true) (hop : op ∈ rep.created c) :
    (rep.updateUtxo s c).2.Known op := by
  obtain ⟨out, hout, rfl⟩ := List.mem_map.1 hop
  obtain ⟨hout, haddr⟩ := mem_filter.1 hout
  unfold updateUtxo at hok ⊢
  match hmatch : rep.destroyUtxo c.txHash c.unitTime c.payment.inputs s with
  | (false, s₁) => simp [hmatch] at hok
  | (true, s₁) =>
    obtain ⟨l₁, l₂, hsplit⟩ := append_of_mem hout
    show (foldl (rep.writeOutput c.txHash c.msgIndex c.payment.lockTime) s₁ _).Known _
    rw [hsplit, foldl_append, foldl_cons]
    refine writeOutput_preserves (I := (·.Known _)) (fun _ _ _ hop => known_create.2 (.inr hop))
      l₂ ?_
    rw [writeOutput, if_neg (by simpa using haddr)]
    exact known_create.2 (.inl rfl)

variable (rep) in
/-- Over calls that succeed, for different transactions of at most 2³² outputs: an output that was
created is unspent or spent, and not both; a spent output stays spent; and the outputs that the
index returns for an address are the unspent ones whose script has the hash of the address. -/
theorem life_cycle (calls : List Call) (h : Numbered calls)
    (hok : ∀ i (hi : i < calls.length),
      (rep.updateUtxo (rep.run (calls.take i)) calls[i]).1 = true) :
    (∀ c ∈ calls, ∀ op ∈ rep.created c,
      Xor ((rep.run calls).getUtxoEntry op).isSome ((rep.run calls).isUtxoSpent op)) ∧
    (∀ pre, pre <+: calls → ∀ op, (rep.run pre).isUtxoSpent op →
      (rep.run calls).isUtxoSpent op ∧ (rep.run calls).getUtxoEntry op = none) ∧
    ∀ (addr : Address) op utxo, (op, utxo) ∈ (rep.run calls).getAddrUtxos addr ↔
      (op, utxo) ∈ (rep.run calls).getAllUtxos ∧
        (rep.addressOf utxo.pkScript).hash160 = addr.hash160 := by
  have hcoherent := h.coherent rep
  refine ⟨?_, ?_, ?_⟩
  · intro c hc op hop
    obtain ⟨pre, post, rfl⟩ := append_of_mem hc
    have hpre : pre ++ [c] <+: pre ++ c :: post := ⟨post, by simp⟩
    have hknown : (rep.run (pre ++ c :: post)).Known op := by
      refine h.invariant hpre ?_ fun _ _ _ hchange => hchange.known
      rw [run_append_singleton]
      have hcall := hok pre.length (by simp)
      rw [take_left, show (pre ++ c :: post)[pre.length] = c by simp] at hcall
      exact known_of_created hcall hop
    have hdisjoint (hspent : (rep.run (pre ++ c :: post)).isUtxoSpent op) :
        ¬ ((rep.run (pre ++ c :: post)).getUtxoEntry op).isSome := by
      simp [hcoherent.disjoint op hspent]
    rcases hknown with hunspent | hspent
    · exact .inl ⟨hunspent, fun hspent => hdisjoint hspent hunspent⟩
    · exact .inr ⟨hspent, hdisjoint hspent⟩
  · intro pre hpre op hop
    have hspent := h.invariant (I := fun s => s.isUtxoSpent op) hpre hop
      fun _ _ _ hchange => hchange.isUtxoSpent
    exact ⟨hspent, hcoherent.disjoint op hspent⟩
  intro addr op utxo
  have hwf := hcoherent.wellFormed
  rw [hwf.mem_getAllUtxos]
  simp only [Store.getAddrUtxos, mem_filterMap, hwf.mem_getAddrOutpoints, hcoherent.indexed]
  constructor
  · rintro ⟨op', ⟨utxo', hutxo, haddr⟩, hmap⟩
    rw [hutxo, map_some, some.injEq, Prod.mk.injEq] at hmap
    obtain ⟨rfl, rfl⟩ := hmap
    exact ⟨hutxo, haddr⟩
  · rintro ⟨hutxo, haddr⟩
    exact ⟨op, ⟨utxo, hutxo, haddr⟩, by rw [hutxo]; rfl⟩

end UtxoRepository

namespace SmallUtxos

open SmallNode UtxoRepository

/-- A node whose gas token is the coin of the main chain. -/
def rep : UtxoRepository := ⟨primitives, ptnCoin⟩

/-- A payer and a payee. -/
def alice : Address := newAddress (List.replicate 20 3) .publicKeyHash

def bob : Address := newAddress (List.replicate 20 4) .publicKeyHash

/-- An output in the gas token. -/
def pay (amount : UInt64) (addr : Address) : Output :=
  ⟨amount, generateLockScript addr, newPTNAsset⟩

/-- A coinbase that pays 10 to the first, and a payment of 4 of them to the second. -/
def calls : List Call :=
  [⟨0, (outPoint 1).txHash, ⟨[], [pay 10 alice], 0⟩, 0⟩,
    ⟨1, (outPoint 2).txHash, ⟨[openInput (outPoint 1)], [pay 4 bob, pay 6 alice], 0⟩, 0⟩]

lemma numbered : Numbered calls where
  nodup := by decide
  outputs := by decide

end SmallUtxos

open SmallUtxos SmallNode in
/-- The coinbase output is spent, and only the change of the payment is listed for the first
address. -/
theorem SmallUtxos.life_cycle_payment :
    Xor ((rep.run calls).getUtxoEntry (outPoint 1)).isSome
        ((rep.run calls).isUtxoSpent (outPoint 1)) ∧
      (rep.run calls).isUtxoSpent (outPoint 1) = true ∧
      ((⟨(outPoint 2).txHash, 0, 1⟩, ⟨6, newPTNAsset, generateLockScript alice, 0⟩) ∈
          (rep.run calls).getAddrUtxos alice ↔
        (⟨(outPoint 2).txHash, 0, 1⟩, ⟨6, newPTNAsset, generateLockScript alice, 0⟩) ∈
            (rep.run calls).getAllUtxos ∧
          (rep.addressOf (generateLockScript alice)).hash160 = alice.hash160) := by
  have hlife := UtxoRepository.life_cycle rep calls numbered (by decide +kernel)
  refine ⟨hlife.1 (calls.get ⟨0, by decide⟩) (by simp [calls]) (outPoint 1) (by decide +kernel),
    by decide +kernel, ?_⟩
  exact hlife.2.2 alice _ _

namespace UtxoRepository

variable {rep : UtxoRepository} {txHash : Hash} {msgIndex lockTime : UInt32}
variable {s : Store}

/-- An output that is created later does not remove an index record. -/
lemma indexed_create {addr : FixedBytes 20} {op : OutPoint} (op' : OutPoint) (utxo : Utxo)
    (s : Store) (h : (s.read (.addrOutpoint addr op)).isSome) :
    ((rep.create op' utxo s).read (.addrOutpoint addr op)).isSome := by
  rw [read_create_addrOutpoint]
  split_ifs
  · rfl
  · exact h

/-- If the place of the last output has the index 0, the index of the first address lists the last
output. -/
lemma mem_getAddrUtxos_of_wrap {n : Nat} (hn : UInt32.ofNat (n + 1) = 0) {a b : Output}
    {addr : Address} (ha : rep.addressOf a.pkScript = addr)
    (hzero : addr ≠ FixedBytes.zero 21) (hb : rep.addressOf b.pkScript ≠ FixedBytes.zero 21) :
    (⟨txHash, msgIndex, 0⟩, utxoOfOutput lockTime b) ∈
      (rep.writeUtxo txHash msgIndex lockTime (List.replicate (n + 1) a ++ [b]) ∅).getAddrUtxos
        addr := by
  have hsplit : rep.writeUtxo txHash msgIndex lockTime (List.replicate (n + 1) a ++ [b]) ∅ =
      rep.create ⟨txHash, msgIndex, 0⟩ (utxoOfOutput lockTime b)
        (((List.replicate n a).zipIdx 1).foldl (rep.writeOutput txHash msgIndex lockTime)
          (rep.create ⟨txHash, msgIndex, 0⟩ (utxoOfOutput lockTime a) ∅)) := by
    rw [writeUtxo, zipIdx_append, foldl_append, replicate_succ, zipIdx_cons, foldl_cons]
    have hfirst : rep.writeOutput txHash msgIndex lockTime ∅ (a, 0) =
        rep.create ⟨txHash, msgIndex, 0⟩ (utxoOfOutput lockTime a) ∅ :=
      if_neg (by rw [ha]; exact hzero)
    rw [hfirst]
    simp only [zipIdx_cons, zipIdx_nil, foldl_cons, foldl_nil]
    rw [writeOutput, if_neg hb]
    simp [hn]
  rw [hsplit]
  set s₁ := ((List.replicate n a).zipIdx 1).foldl (rep.writeOutput txHash msgIndex lockTime)
    (rep.create ⟨txHash, msgIndex, 0⟩ (utxoOfOutput lockTime a) ∅) with hs₁
  have hwf : (rep.create ⟨txHash, msgIndex, 0⟩ (utxoOfOutput lockTime b)
      s₁).WellFormed :=
    Coherent.wellFormed_create (writeOutput_preserves (I := Store.WellFormed)
      (fun _ _ _ h => Coherent.wellFormed_create h _ _) _
      (Coherent.wellFormed_create .empty _ _)) _ _
  have hindexed : (s₁.read (.addrOutpoint addr.hash160 ⟨txHash, msgIndex, 0⟩)).isSome := by
    refine writeOutput_preserves (I := fun s => (s.read _).isSome) indexed_create _ ?_
    rw [read_create_addrOutpoint, if_pos ⟨by rw [← ha]; rfl, rfl⟩]
    rfl
  refine mem_filterMap.2 ⟨⟨txHash, msgIndex, 0⟩, hwf.mem_getAddrOutpoints.2 ?_, ?_⟩
  · exact indexed_create _ _ s₁ hindexed
  · rw [getUtxoEntry_create, if_pos rfl]
    rfl

end UtxoRepository

namespace ManyOutputs

open SmallNode SmallUtxos UtxoRepository

/-- A coinbase of `n + 1` outputs to one address and one output to another. -/
def call (n : Nat) : Call :=
  ⟨0, (outPoint 1).txHash, ⟨[], List.replicate (n + 1) (pay 1 alice) ++ [pay 5 bob], 0⟩, 0⟩

lemma mem_getAddrUtxos {n : Nat} (hn : UInt32.ofNat (n + 1) = 0) :
    (outPoint 1, ⟨5, newPTNAsset, generateLockScript bob, 0⟩) ∈
      (rep.run [call n]).getAddrUtxos alice :=
  mem_getAddrUtxos_of_wrap hn (by decide +kernel) (by decide) (by decide +kernel)

end ManyOutputs

open ManyOutputs SmallNode SmallUtxos in
/-- A call with 2³² + 1 outputs succeeds, and the index then returns the output of the second
address for the first. -/
theorem ManyOutputs.index_off :
    (rep.updateUtxo ∅ (call (2 ^ 32 - 1))).1 = true ∧
      (outPoint 1, ⟨5, newPTNAsset, generateLockScript bob, 0⟩) ∈
        (rep.run [call (2 ^ 32 - 1)]).getAddrUtxos alice ∧
      (rep.addressOf (generateLockScript bob)).hash160 ≠ alice.hash160 :=
  ⟨rfl, mem_getAddrUtxos (by decide), by decide +kernel⟩

end ZwsChain
