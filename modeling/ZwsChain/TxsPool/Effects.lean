import Mathlib
import ZwsChain.Lib.Keyed
import ZwsChain.Lib.Runs
import ZwsChain.TxsPool.Calls

/-!
# What the functions of the pool can do to its tables

`Pool.Evolves` says what all functions do that add nothing: no table gets an object that none had,
and transactions stay under their hashes. There is one lemma for each function. They are stated
from an earlier pool `s₀` on, so that they chain. A function that can add is described by its cases
(`add_cases`, `addSequenTx_cases`).
-/

open List Option AList Function

namespace ZwsChain.TxsPool

open Lib.Keyed (lookup_of_erase lookup_of_insert)

variable {P : Primitives}

/-- The outpoints a transaction spends, but for its own outputs. -/
def TxPoolTransaction.spent (t : TxPoolTransaction P) : Set OutPoint :=
  {op | op ∈ t.inputs ∧ ¬ op.txHash.isSelfHash}

/-- The object a goroutine is about. -/
def Task.object : Task P → Option (TxPoolTransaction P)
  | .put t => some t
  | .removeTransaction t _ => some t
  | .promoteTx _ t _ _ => some t
  | .removeTx _ => none
  | .deleteTxByHash _ => none

namespace Pool

variable {s s₀ s' : Pool P} {t : TxPoolTransaction P} {c : Config} {e : Env P}

/-- The objects that some table of the pool points to. -/
inductive Has (s : Pool P) (t : TxPoolTransaction P) : Prop
  | all {h : Hash} : s.all.lookup h = some t → Has s t
  | outpoint {op : OutPoint} : s.outpoints.lookup op = some t → Has s t
  | orphan {h : Hash} : s.orphans.lookup h = some t → Has s t
  | sequen : t ∈ s.sequenTxs → Has s t
  | item : t ∈ s.items → Has s t
  | task {task : Task P} : task ∈ s.goroutines → task.object = some t → Has s t

/-- In the pool, possibly as an orphan. -/
def InPool (s : Pool P) (t : TxPoolTransaction P) : Prop :=
  s.all.lookup t.hash = some t ∨ s.orphans.lookup t.hash = some t

/-- Transactions are stored under their hashes. -/
structure Keyed (s : Pool P) : Prop where
  all : ∀ h t, s.all.lookup h = some t → t.hash = h
  orphans : ∀ h t, s.orphans.lookup h = some t → t.hash = h

/-- Nothing was added: no table has a new object, and the objects stay under their hashes. -/
structure Evolves (s s' : Pool P) : Prop where
  has : ∀ t, s'.Has t → s.Has t
  keyed : s.Keyed → s'.Keyed

namespace Evolves

lemma refl (s : Pool P) : Evolves s s :=
  ⟨fun _ h => h, id⟩

lemma trans (h : Evolves s₀ s) (h' : Evolves s s') : Evolves s₀ s' where
  has t ht := h.has t (h'.has t ht)
  keyed hk := h'.keyed (h.keyed hk)

end Evolves

open Evolves

/-! ### Tables -/

section Tables

variable {K V : Type} [DecidableEq K] {table : Table K V} {k k' : K} {v v' : V}

lemma mem_values {table : Table K (TxPoolTransaction P)} :
    t ∈ values table ↔ ∃ k, table.lookup k = some t := by
  simp only [values, List.mem_map, ← mem_def, mem_lookup_iff]
  constructor
  · rintro ⟨⟨k, v⟩, hmem, rfl⟩
    exact ⟨k, hmem⟩
  · rintro ⟨k, hmem⟩
    exact ⟨⟨k, t⟩, hmem, rfl⟩

lemma mem_iff_lookup : k ∈ table ↔ ∃ v, table.lookup k = some v := by
  rw [← lookup_isSome, isSome_iff_exists]

/-- Storing an object where it is stored already changes nothing. -/
lemma lookup_reinsert (hlook : table.lookup k = some v) :
    (table.insert k v).lookup k' = table.lookup k' := by
  rcases eq_or_ne k' k with rfl | hne
  · exact (lookup_insert _).trans hlook.symm
  · exact lookup_insert_ne hne

variable {ks : List K}

lemma lookup_foldl_insert :
    (ks.foldl (fun table k => table.insert k v) table).lookup k' = some v' ↔
      k' ∈ ks ∧ v' = v ∨ k' ∉ ks ∧ table.lookup k' = some v' := by
  induction ks generalizing table with
  | nil => simp
  | cons k ks ih =>
    rw [foldl_cons, ih]
    rcases eq_or_ne k' k with rfl | hne
    · by_cases hmem : k' ∈ ks <;> simp [hmem, eq_comm]
    · simp [hne]

lemma lookup_foldl_erase :
    (ks.foldl (fun table k => table.erase k) table).lookup k' = some v ↔
      k' ∉ ks ∧ table.lookup k' = some v := by
  have hlookup := Lib.Keyed.lookup_foldl_erase (fun _ => True) ks table k'
  simp only [if_true, and_true] at hlookup
  rw [hlookup, ite_none_left_eq_some]

end Tables

lemma txtoTxpoolTx_eq {tx : Transaction} (hs : s.txtoTxpoolTx e tx = some (t, s')) :
    t.tx = tx ∧ s' = { s with nextId := s.nextId + 1 } := by
  unfold txtoTxpoolTx at hs
  split at hs
  · cases hs
    exact ⟨rfl, rfl⟩
  · cases hs

/-! ### Changes that leave the tables alone -/

namespace Evolves

section

variable (h : Evolves s₀ s)
include h

lemma sequen : ∀ t ∈ s.sequenTxs, s₀.Has t :=
  fun t ht => h.has t (.sequen ht)

lemma item : ∀ t ∈ s.items, s₀.Has t :=
  fun t ht => h.has t (.item ht)

lemma task : ∀ task ∈ s.goroutines, ∀ t, task.object = some t → s₀.Has t :=
  fun _ hmem t ht => h.has t (.task hmem ht)

/-- An entry is an old one or a known object under its hash, the outpoints and the orphans get
nothing new, and the lists and goroutines have known objects. -/
lemma of_entries
    (hall : ∀ k t, s'.all.lookup k = some t →
      s.all.lookup k = some t ∨ s₀.Has t ∧ t.hash = k)
    (houtpoints : ∀ op t, s'.outpoints.lookup op = some t → s.outpoints.lookup op = some t)
    (horphans : ∀ k t, s'.orphans.lookup k = some t → s.orphans.lookup k = some t)
    (hsequen : ∀ t ∈ s'.sequenTxs, s₀.Has t) (hitems : ∀ t ∈ s'.items, s₀.Has t)
    (htasks : ∀ task ∈ s'.goroutines, ∀ t, task.object = some t → s₀.Has t) :
    Evolves s₀ s' where
  has t ht := by
    cases ht with
    | all hlook =>
      rcases hall _ t hlook with hlook | ⟨hhas, -⟩
      · exact h.has t (.all hlook)
      · exact hhas
    | outpoint hlook => exact h.has t (.outpoint (houtpoints _ t hlook))
    | orphan hlook => exact h.has t (.orphan (horphans _ t hlook))
    | sequen hmem => exact hsequen t hmem
    | item hmem => exact hitems t hmem
    | task hmem hobject => exact htasks _ hmem t hobject
  keyed hk := by
    refine ⟨fun k t hlook => ?_, fun k t hlook => ?_⟩
    · rcases hall k t hlook with hlook | ⟨-, hhash⟩
      · exact (h.keyed hk).all k t hlook
      · exact hhash
    · exact (h.keyed hk).orphans k t (horphans k t hlook)

/-- The tables get nothing new, and the lists and goroutines stay. -/
lemma of_tables (hall : ∀ k t, s'.all.lookup k = some t → s.all.lookup k = some t)
    (houtpoints : ∀ op t, s'.outpoints.lookup op = some t → s.outpoints.lookup op = some t)
    (horphans : ∀ k t, s'.orphans.lookup k = some t → s.orphans.lookup k = some t)
    (hsequen : s'.sequenTxs = s.sequenTxs) (hitems : s'.items = s.items)
    (htasks : s'.goroutines = s.goroutines) : Evolves s₀ s' :=
  h.of_entries (fun k t hl => .inl (hall k t hl)) houtpoints horphans (hsequen ▸ h.sequen)
    (hitems ▸ h.item) (htasks ▸ h.task)

/-- Only the priority list changes. -/
lemma of_items (items : List (TxPoolTransaction P)) (stales : Int)
    (hitems : ∀ t ∈ items, s₀.Has t) : Evolves s₀ { s with items, stales } :=
  h.of_entries (fun _ _ => .inl) (fun _ _ => id) (fun _ _ => id) h.sequen hitems h.task

/-- A goroutine is started for a known object, or for a hash. -/
lemma go {task : Task P} (htask : ∀ t, task.object = some t → s₀.Has t) :
    Evolves s₀ (s.go task) := by
  refine h.of_entries (fun _ _ => .inl) (fun _ _ => id) (fun _ _ => id) h.sequen h.item ?_
  intro task' hmem t ht
  rcases mem_append.1 hmem with hmem | hmem
  · exact h.task task' hmem t ht
  · obtain rfl := mem_singleton.1 hmem
    exact htask t ht

/-- The fields of an object change. -/
lemma set (t : TxPoolTransaction P) (f : Status → Status) : Evolves s₀ (s.set t f) :=
  h.of_tables (fun _ _ => id) (fun _ _ => id) (fun _ _ => id) rfl rfl rfl

lemma deleteOutputs (ops : List OutPoint) : Evolves s₀ (s.deleteOutputs ops) :=
  h.of_tables (fun _ _ => id) (fun _ _ => id) (fun _ _ => id) rfl rfl rfl

lemma unmark (ops : List OutPoint) : Evolves s₀ (s.unmark ops) :=
  h.of_tables (fun _ _ => id) (fun _ _ hl => (lookup_foldl_erase.1 hl).2) (fun _ _ => id) rfl rfl
    rfl

lemma deletePoolUtxos (hs : s.deletePoolUtxos t = some s') :
    Evolves s₀ s' := by
  obtain ⟨ops, -, rfl⟩ := map_eq_some_iff.1 hs
  exact h.deleteOutputs ops

lemma txtoTxpoolTx {tx : Transaction}
    (hs : s.txtoTxpoolTx e tx = some (t, s')) : Evolves s₀ s' := by
  obtain ⟨-, rfl⟩ := txtoTxpoolTx_eq hs
  exact h.of_tables (fun _ _ => id) (fun _ _ => id) (fun _ _ => id) rfl rfl rfl

lemma setPriorityLvl : Evolves s₀ (s.setPriorityLvl e t) :=
  h.set t _

lemma setTxFee (addition : List Addition) :
    Evolves s₀ (s.setTxFee t addition) :=
  h.set t _

lemma fillTxFee (hs : s.fillTxFee e t = some s') : Evolves s₀ s' := by
  unfold Pool.fillTxFee at hs
  split at hs
  · cases hs
    exact h
  obtain ⟨result, -, rfl⟩ := map_eq_some_iff.1 hs
  cases result with
  | error err => exact h
  | ok fee => exact h.set t _

/-! ### The priority list -/

lemma put (ht : s₀.Has t) : Evolves s₀ (s.put e t) := by
  refine h.of_items _ s.stales ?_
  intro t' hmem
  rcases mem_append.1 ((e.sortItems_perm _ _).mem_iff.1 hmem) with hmem | hmem
  · exact h.item t' hmem
  · obtain rfl := mem_singleton.1 hmem
    exact ht

lemma removed : Evolves s₀ (s.removed e) := by
  unfold Pool.removed
  split
  · exact h.of_items s.items _ h.item
  refine h.of_items _ _ ?_
  intro t hmem
  have hvalue := mem_of_mem_filter ((e.sortItems_perm _ _).mem_iff.1 hmem)
  obtain ⟨k, hlook⟩ := mem_values.1 ((e.range_perm _).mem_iff.1 hvalue)
  exact h.has t (.all hlook)

end

end Evolves

lemma getFrom_sublist (s : Pool P) (items : List (TxPoolTransaction P)) :
    ((s.getFrom items).1.toList ++ (s.getFrom items).2).Sublist items := by
  induction items with
  | nil => exact .slnil
  | cons t items ih =>
    rw [getFrom]
    split
    · exact ih.cons t
    · exact List.Sublist.refl _

lemma dropStale_sublist (s : Pool P) (items : List (TxPoolTransaction P)) (stales : Int) :
    (s.dropStale items stales).1.Sublist items := by
  induction items generalizing stales with
  | nil => exact .slnil
  | cons t items ih =>
    rw [dropStale]
    split
    · exact List.Sublist.refl _
    · exact (ih _).cons t

lemma discardFrom_sublist (s : Pool P) (count : Nat) (items : List (TxPoolTransaction P))
    (stales : Int) :
    ((s.discardFrom count items stales).1 ++ (s.discardFrom count items stales).2.1).Sublist
      items := by
  induction items generalizing count stales with
  | nil => cases count <;> exact .slnil
  | cons t items ih =>
    cases count with
    | zero => exact List.Sublist.refl _
    | succ count =>
      rw [discardFrom]
      split
      · exact (ih count stales).cons_cons t
      · exact (ih (count + 1) _).cons t

namespace Evolves

section

variable (h : Evolves s₀ s)
include h

/-- What is taken from the priority list was in it. -/
lemma get :
    Evolves s₀ s.get.2 ∧ ∀ t, s.get.1 = some t → s₀.Has t := by
  have hsub := getFrom_sublist s s.items
  refine ⟨h.of_items _ s.stales ?_, ?_⟩
  · intro t ht
    exact h.item t (hsub.subset (mem_append_right _ ht))
  · intro t ht
    exact h.item t (hsub.subset (mem_append_left _ (mem_toList.2 ht)))

lemma underpriced : Evolves s₀ (s.underpriced t).2 := by
  unfold Pool.underpriced
  split
  · exact h
  refine h.of_items _ _ ?_
  intro t ht
  exact h.item t ((dropStale_sublist s _ _).subset ht)

lemma discard (count : Nat) :
    Evolves s₀ (s.discard count).2 ∧ ∀ t ∈ (s.discard count).1, s₀.Has t := by
  have hsub := discardFrom_sublist s count s.items s.stales
  refine ⟨h.of_items _ _ ?_, ?_⟩
  · intro t ht
    exact h.item t (hsub.subset (mem_append_right _ ht))
  · intro t ht
    exact h.item t (hsub.subset (mem_append_left _ ht))

/-! ### Changes of the tables -/

variable {k : Hash}

lemma restore (hlook : s.all.lookup k = some t) :
    Evolves s₀ { s with all := s.all.insert k t } := by
  refine h.of_tables (fun k' t' hl => ?_) (fun _ _ => id) (fun _ _ => id) rfl rfl rfl
  rwa [lookup_reinsert hlook] at hl

/-- A known object is stored under its hash. -/
lemma insertAll (ht : s₀.Has t) : Evolves s₀ { s with all := s.all.insert t.hash t } := by
  refine h.of_entries ?_ (fun _ _ => id) (fun _ _ => id) h.sequen h.item h.task
  intro k t' hl
  rcases lookup_of_insert hl with ⟨rfl, rfl⟩ | ⟨-, hl⟩
  · exact .inr ⟨ht, rfl⟩
  · exact .inl hl

/-- A transaction goes. -/
lemma eraseAll (k : Hash) : Evolves s₀ { s with all := s.all.erase k } :=
  h.of_tables (fun _ _ hl => (lookup_of_erase hl).2) (fun _ _ => id) (fun _ _ => id) rfl rfl rfl

/-- An orphan goes. -/
lemma eraseOrphan (k : Hash) : Evolves s₀ { s with orphans := s.orphans.erase k } :=
  h.of_tables (fun _ _ => id) (fun _ _ => id) (fun _ _ hl => (lookup_of_erase hl).2) rfl rfl rfl

/-! ### Removal -/

lemma deleteTxByHash (k : Hash) : Evolves s₀ (s.deleteTxByHash e k) := by
  unfold Pool.deleteTxByHash
  split
  · exact h
  · exact (((h.eraseAll k).eraseOrphan k).removed.unmark _).deleteOutputs _

lemma removeTx (k : Hash) : Evolves s₀ (s.removeTx k) := by
  unfold Pool.removeTx
  split
  · exact h
  · rename_i t hlook
    exact (((h.restore hlook).set t _).unmark _).deleteOutputs _

end

end Evolves

namespace Evolves

section

variable (h : Evolves s₀ s)
include h

lemma discardStored (ht : s₀.Has t) (hs : s.discardStored t = some s') :
    Evolves s₀ s' := by
  unfold Pool.discardStored at hs
  split at hs
  · cases hs
    exact h
  obtain ⟨ops, -, rfl⟩ := map_eq_some_iff.1 hs
  exact ((h.unmark ops).set t _).insertAll ht

variable {fuel : Nat} {offenders : List Hash} {pending pending' : Int} {u : TxPoolTransaction P}

lemma removeTransaction {removeRedeemers : Bool} (ht : s₀.Has t)
    (hs : Pool.removeTransaction fuel s t removeRedeemers = some s') : Evolves s₀ s' := by
  induction fuel generalizing s t removeRedeemers s' with
  | zero => cases hs
  | succ fuel ih =>
    obtain ⟨s₁, hredeemers, hs⟩ := do_eq_some.1 hs
    refine discardStored ?_ ht hs
    refine Lib.foldlM_preserves (I := Evolves s₀) ?_ h hredeemers
    rintro op - s₂ s₃ h₂ hs₃
    split at hs₃
    · cases hs₃
      exact h₂
    · rename_i redeemer hlook
      exact ih h₂ (h₂.has redeemer (.outpoint hlook)) hs₃

lemma discardOrphan (k : Hash) : Evolves s₀ (s.discardOrphan k) := by
  unfold Pool.discardOrphan
  split
  · exact h
  rename_i otx hlook
  refine set ?_ otx _
  refine h.of_tables (fun _ _ => id) (fun _ _ => id) (fun k' t' hl => ?_) rfl rfl rfl
  rwa [lookup_reinsert hlook] at hl

lemma discardTx (k : Hash) : Evolves s₀ (s.discardTx k) := by
  unfold Pool.discardTx
  split
  · exact h.discardOrphan k
  · rename_i t hlook
    exact ((h.discardOrphan k).restore hlook).set t _

lemma foldl {α : Type} {f : Pool P → α → Pool P}
    (hf : ∀ s a, Evolves s₀ s → Evolves s₀ (f s a)) (l : List α) :
    Evolves s₀ (l.foldl f s) := by
  induction l generalizing s with
  | nil => exact h
  | cons a l ih => exact ih (hf s a h)

lemma deleteTx : Evolves s₀ (s.deleteTx c e) := by
  apply h.foldl
  intro s t h
  dsimp only
  split
  · exact h.deleteTxByHash t.hash
  · exact h

lemma removeOrphan {reRedeemers : Bool}
    (hs : s.removeOrphan t reRedeemers = some s') : Evolves s₀ s' := by
  unfold Pool.removeOrphan at hs
  split at hs
  · cases hs
    exact h
  obtain ⟨ops, -, hs⟩ := do_eq_some.1 hs
  cases hs
  apply eraseOrphan
  cases reRedeemers with
  | false => exact h.deleteOutputs _
  | true => exact (h.deleteOutputs _).deleteOutputs _

lemma reduce (hs : reduce c e offenders fuel pending s = some (pending', s')) :
    Evolves s₀ s' := by
  induction fuel generalizing pending s with
  | zero => cases hs
  | succ fuel ih =>
    unfold Pool.reduce at hs
    split at hs
    · exact ih (h.foldl (fun s k h => (h.eraseAll k).removed) offenders) hs
    · cases hs
      exact h

lemma equalize {spammers offenders' : List Hash}
    (hs : equalize c e fuel spammers offenders pending s = some (offenders', pending', s')) :
    Evolves s₀ s' := by
  induction spammers generalizing offenders pending s with
  | nil =>
    cases hs
    exact h
  | cons offender spammers ih =>
    unfold Pool.equalize at hs
    split at hs
    · split at hs
      · exact ih h hs
      · obtain ⟨⟨pending₁, s₁⟩, hreduce, hs⟩ := do_eq_some.1 hs
        exact ih (h.reduce hreduce) hs
    · cases hs
      exact h

lemma promoteExecutables (hs : s.promoteExecutables c e = some s') :
    Evolves s₀ s' := by
  unfold Pool.promoteExecutables at hs
  dsimp only at hs
  split at hs
  · obtain ⟨⟨offenders, pending, s₁⟩, hequalize, hs⟩ := do_eq_some.1 hs
    split at hs
    · obtain ⟨⟨pending', s₂⟩, hreduce, rfl⟩ := map_eq_some_iff.1 hs
      exact (h.equalize hequalize).reduce hreduce
    · cases hs
      exact h.equalize hequalize
  · cases hs
    exact h

end

end Evolves

/-! ### Adding -/

lemma Evolves.makeRoom {room : Bool} (h : Evolves s₀ s)
    (hs : s.makeRoom c t = some (room, s')) : Evolves s₀ s' := by
  have hunder : Evolves s₀ (s.underpriced t).2 := h.underpriced
  unfold Pool.makeRoom at hs
  dsimp only at hs
  generalize s.underpriced t = result at hs hunder
  obtain ⟨under, s₁⟩ := result
  split at hs
  · dsimp only at hs
    split at hs
    · cases hs
      exact hunder
    obtain ⟨s₂, hfold, hs₂⟩ := map_eq_some_iff.1 hs
    cases hs₂
    obtain ⟨hdiscard, hdrop⟩ := hunder.discard (s.all.entries.length + 1 -
      (c.globalSlots + c.globalQueue))
    refine Lib.foldlM_preserves (I := Evolves s₀) ?_ hdiscard hfold
    intro u hu s₃ s₄ h₃ hs₄
    exact h₃.removeTransaction (hdrop u hu) hs₄
  · cases hs
    exact h

/-- What `add` can do: nothing, keep an orphan, or make room and store the object. -/
lemma add_cases {r : Except AddError Unit} (hs : s.add c e t = some (r, s')) :
    s' = s ∨ s' = s.addOrphan c t ∨
      ∃ addition room s₁, t.hash ∉ s.all ∧ t.hash ∉ s.orphans ∧
        ((s.setTxFee t addition).setPriorityLvl e t).makeRoom c t = some (room, s₁) ∧
        s' = if room then s₁.store t else s₁ := by
  unfold Pool.add at hs
  split at hs
  · split at hs
    · cases hs
      exact .inl rfl
    split at hs
    · cases hs
      exact .inl rfl
    rename_i hall
    split at hs
    · cases hs
      exact .inl rfl
    rename_i horphans
    split at hs
    · cases hs
      exact .inl rfl
    obtain ⟨⟨code, addition⟩, -, hs⟩ := do_eq_some.1 hs
    dsimp only at hs
    split at hs
    · obtain ⟨⟨room, s₁⟩, hroom, hs⟩ := do_eq_some.1 hs
      refine .inr (.inr ⟨addition, room, s₁, hall, horphans, hroom, ?_⟩)
      cases room <;> cases hs <;> rfl
    split at hs
    · obtain ⟨check, -, hs⟩ := do_eq_some.1 hs
      cases check <;> cases hs
      · exact .inl rfl
      · exact .inr (.inl rfl)
      · exact .inl rfl
    · cases hs
      exact .inl rfl
  · cases hs

/-! ### The transactions for a new unit -/

lemma has_of_getPrecusorTxs {fuel : Nat} {pretxs : List (TxPoolTransaction P)}
    (hs : s.getPrecusorTxs e fuel t = some pretxs) : ∀ u ∈ pretxs, s.Has u := by
  induction fuel generalizing t pretxs with
  | zero => cases hs
  | succ fuel ih =>
    refine Lib.foldlM_preserves (I := fun pretxs => ∀ u ∈ pretxs, s.Has u) ?_
      (fun u hu => absurd hu not_mem_nil) hs
    rintro op - pretxs pretxs' hpre hstep
    split at hstep
    · cases hstep
      exact hpre
    split at hstep
    · cases hstep
      exact hpre
    rename_i queueTx hlook
    have hhas : s.Has queueTx := by
      rcases or_eq_some_iff.1 hlook with hall | ⟨-, horphan⟩
      · exact .all hall
      · exact .orphan horphan
    split at hstep
    · cases hstep
      exact hpre
    obtain ⟨list, hlist, rfl⟩ := map_eq_some_iff.1 hstep
    intro u hu
    simp only [mem_append, mem_singleton] at hu
    rcases hu with (hu | hu) | rfl
    · exact hpre u hu
    · exact ih hlist u hu
    · exact hhas

variable {list : List (TxPoolTransaction P)}

lemma lastOf_mem (ht : t ∈ list) : lastOf list t ∈ list := by
  unfold lastOf
  cases hfind : list.reverse.find? fun t' => t'.hash = t.hash with
  | none => exact ht
  | some u => exact mem_reverse.1 (mem_of_find?_eq_some hfind)

/-- What starting goroutines for objects of the list, or for hashes, preserves. -/
lemma distinctTxs_preserves {I : Pool P → Prop}
    {unitHash : Hash} {number : Nat} {rest : List (TxPoolTransaction P × Nat)} {seen : List Hash}
    (hgo : ∀ s task, I s → (∀ u, task.object = some u → u ∈ list) → I (s.go task))
    (hrest : ∀ p ∈ rest, p.1 ∈ list) (h : I s) :
    I (distinctTxs e unitHash number list rest seen s).2 := by
  induction rest generalizing seen s with
  | nil => exact h
  | cons p rest ih =>
    obtain ⟨t, i⟩ := p
    obtain ⟨ht, hrest⟩ := forall_mem_cons.1 hrest
    unfold distinctTxs
    split
    · exact ih hrest h
    split
    · exact ih hrest (hgo _ _ h nofun)
    · refine ih hrest (hgo _ _ h fun u hu => ?_)
      cases hu
      exact lastOf_mem ht

namespace Evolves

variable {list : List (TxPoolTransaction P)}

lemma takeItems {passes total total' : Nat} {list' : List (TxPoolTransaction P)}
    (h : Evolves s₀ s) (hlist : ∀ u ∈ list, s₀.Has u)
    (hs : Pool.takeItems e s₀ passes s list total = some (s', list', total')) :
    Evolves s₀ s' ∧ ∀ u ∈ list', s₀.Has u := by
  induction passes generalizing s list total with
  | zero =>
    cases hs
    exact ⟨h, hlist⟩
  | succ passes ih =>
    obtain ⟨hget, hgot⟩ := h.get
    unfold Pool.takeItems at hs
    split at hs
    · cases hs
      exact ⟨h, hlist⟩
    split at hs
    · rename_i s₁ hs₁
      rw [hs₁] at hget
      cases hs
      exact ⟨hget, hlist⟩
    rename_i t s₁ hs₁
    rw [hs₁] at hget hgot
    split at hs
    · exact ih hget hlist hs
    obtain ⟨pretxs, hpre, hs⟩ := do_eq_some.1 hs
    obtain ⟨size, -, hs⟩ := do_eq_some.1 hs
    refine ih hget ?_ hs
    intro u hu
    simp only [mem_append, mem_singleton] at hu
    rcases hu with (hu | hu) | rfl
    · exact hlist u hu
    · exact has_of_getPrecusorTxs hpre u hu
    · exact hgot u rfl

lemma emptyQueue (s : Pool P) : Evolves s { s with sequenTxs := [] } :=
  (refl s).of_entries (fun _ _ => .inl) (fun _ _ => id) (fun _ _ => id)
    (fun _ ht => absurd ht not_mem_nil) (refl s).item (refl s).task

lemma setIndexes (h : Evolves s₀ s) (list : List (TxPoolTransaction P)) :
    Evolves s₀ (s.setIndexes list) :=
  h.foldl (fun _ _ h => h.set _ _) _

/-- A goroutine leaves the list. -/
lemma leave (s : Pool P) (i : Nat) :
    Evolves s { s with goroutines := s.goroutines.eraseIdx i } :=
  (refl s).of_entries (fun _ _ => .inl) (fun _ _ => id) (fun _ _ => id) (refl s).sequen
    (refl s).item fun _ hmem _ ht => .task (mem_of_mem_eraseIdx hmem) ht

end Evolves

/-! ### What the calls that add can do -/

variable {tx : Transaction} {r : Except AddError Unit}

lemma addLocal_cases (hs : s.addLocal c e tx = some (r, s')) :
    s' = s ∨ s.addNew c e tx = some (r, s') := by
  obtain ⟨isRequest, -, hs⟩ := do_eq_some.1 hs
  split at hs
  · cases hs
    exact .inl rfl
  · exact .inr hs

lemma addRemote_cases (hs : s.addRemote c e tx = some (r, s')) :
    s' = s ∨ s.addNew c e tx = some (r, s') := by
  obtain ⟨isRequest, -, hs⟩ := do_eq_some.1 hs
  split at hs
  · cases hs
    exact .inl rfl
  obtain ⟨msgs, -, hs⟩ := do_eq_some.1 hs
  split at hs
  · split at hs
    · cases hs
      exact .inl rfl
    · exact .inr hs
  · cases hs

lemma processTransaction_cases (hs : s.processTransaction c e tx = some (r, s')) :
    s' = s ∨ ∃ t s₁, s.txtoTxpoolTx e tx = some (t, s₁) ∧
      (s' = s₁ ∨ s₁.checkPoolDoubleSpend t = some true ∧ s₁.add c e t = some (r, s')) := by
  obtain ⟨hash, -, hs⟩ := do_eq_some.1 hs
  split at hs
  · cases hs
    exact .inl rfl
  obtain ⟨sane, -, hs⟩ := do_eq_some.1 hs
  split at hs
  · cases hs
    exact .inl rfl
  obtain ⟨msgs, -, hs⟩ := do_eq_some.1 hs
  split at hs
  · cases hs
    exact .inl rfl
  obtain ⟨⟨t, s₁⟩, hnew, hs⟩ := do_eq_some.1 hs
  obtain ⟨check, hcheck, hs⟩ := do_eq_some.1 hs
  refine .inr ⟨t, s₁, hnew, ?_⟩
  split at hs
  · rename_i hok
    exact .inr ⟨hok ▸ hcheck, hs⟩
  · cases hs
    exact .inl rfl

lemma addSequenTx_cases (hs : s.addSequenTx e tx = some (r, s')) :
    ∃ t s₁, s.txtoTxpoolTx e tx = some (t, s₁) ∧ (s' = s₁ ∨ ∃ addition,
      s' = s₁.setTxFee t addition ∨
      (s₁.setTxFee t addition).checkPoolDoubleSpend t = some true ∧
        s' = { (s₁.setTxFee t addition).setPriorityLvl e t with
          sequenTxs := s₁.sequenTxs ++ [t], all := s₁.all.insert t.hash t }.addCache t) := by
  obtain ⟨⟨t, s₁⟩, hnew, hs⟩ := do_eq_some.1 hs
  refine ⟨t, s₁, hnew, ?_⟩
  dsimp only at hs
  split at hs
  · cases hs
    exact .inl rfl
  obtain ⟨⟨code, addition⟩, -, hs⟩ := do_eq_some.1 hs
  split at hs
  · cases hs
    exact .inl rfl
  obtain ⟨check, hcheck, hs⟩ := do_eq_some.1 hs
  refine .inr ⟨addition, ?_⟩
  split at hs
  · rename_i hok
    cases hs
    exact .inr ⟨hok ▸ hcheck, rfl⟩
  · cases hs
    exact .inl rfl

/-- A goroutine leaves the list and runs, if there is one. It stores something only if it promotes a
transaction. -/
lemma goroutine_cases {i : Nat} (hs : s.step c e (.goroutine i) = some s') :
    Evolves s s' ∨ ∃ unitHash t number index,
      s.goroutines[i]? = some (.promoteTx unitHash t number index) ∧
      { s with goroutines := s.goroutines.eraseIdx i }.promoteTx e unitHash t number index =
        some s' := by
  simp only [step] at hs
  split at hs
  · cases hs
    exact .inl (.refl s)
  rename_i task htask
  have hmem : task ∈ s.goroutines := mem_of_getElem? htask
  have hleft : Evolves s { s with goroutines := s.goroutines.eraseIdx i } := .leave s i
  cases task with
  | put t =>
    cases hs
    exact .inl (hleft.put (.task hmem rfl))
  | removeTransaction t removeRedeemers => exact .inl (hleft.removeTransaction (.task hmem rfl) hs)
  | removeTx hash =>
    cases hs
    exact .inl (hleft.removeTx hash)
  | deleteTxByHash hash =>
    cases hs
    exact .inl (hleft.deleteTxByHash hash)
  | promoteTx unitHash t number index => exact .inr ⟨unitHash, t, number, index, htask, hs⟩

section Batches

variable {I : Pool P → Prop} {ts : List (TxPoolTransaction P)}

/-- What additions and the promotion preserve holds after a batch. -/
lemma addTxsLocked_preserves
    (hadd : ∀ t ∈ ts, ∀ s r s', I s → s.add c e t = some (r, s') → I s')
    (hpromote : ∀ s s', I s → s.promoteExecutables c e = some s' → I s') (h : I s)
    (hs : s.addTxsLocked c e ts = some (r, s')) : I s' := by
  induction ts generalizing s with
  | nil =>
    obtain ⟨s₁, hs₁, heq⟩ := map_eq_some_iff.1 hs
    cases heq
    exact hpromote s s' h hs₁
  | cons t ts ih =>
    obtain ⟨⟨r₁, s₁⟩, hs₁, hs⟩ := do_eq_some.1 hs
    have h₁ : I s₁ := hadd t mem_cons_self s r₁ s₁ h hs₁
    cases r₁ with
    | error err =>
      obtain ⟨s₂, hs₂, heq⟩ := map_eq_some_iff.1 hs
      cases heq
      exact hpromote s₁ s' h₁ hs₂
    | ok =>
      dsimp only at hs
      split at hs
      · cases hs
        exact h₁
      · exact ih (fun u hu => hadd u (mem_cons_of_mem t hu)) h₁ hs

variable {txs : List Transaction}

lemma addSequenTxs_preserves
    (hadd : ∀ tx ∈ txs, ∀ s r s', I s → s.addSequenTx e tx = some (r, s') → I s') (h : I s)
    (hs : s.addSequenTxs e txs = some (r, s')) : I s' := by
  induction txs generalizing s with
  | nil =>
    cases hs
    exact h
  | cons tx txs ih =>
    obtain ⟨⟨r₁, s₁⟩, hs₁, hs⟩ := do_eq_some.1 hs
    have h₁ : I s₁ := hadd tx mem_cons_self s r₁ s₁ h hs₁
    cases r₁ with
    | error err =>
      cases hs
      exact h₁
    | ok => exact ih (fun u hu => hadd u (mem_cons_of_mem tx hu)) h₁ hs

lemma setPendingTxs_preserves {unitHash : Hash} {num : Nat}
    (hset : ∀ tx ∈ txs, ∀ i s s', I s → s.setPendingTx e unitHash tx num i = some s' → I s')
    (hremoved : ∀ s, I s → I (s.removed e)) (h : I s)
    (hs : s.setPendingTxs e unitHash num txs = some s') : I s' := by
  obtain ⟨s₁, hrun, hs⟩ := do_eq_some.1 hs
  have h₁ : I s₁ := by
    refine Lib.foldlM_preserves ?_ h hrun
    intro p hp
    exact hset p.1 (mem_of_getElem? (mk_mem_zipIdx_iff_getElem?.1 (mem_of_mem_tail hp))) p.2
  cases hs
  split
  · exact h₁
  · exact hremoved s₁ h₁

end Batches

lemma Evolves.txsToTxpoolTxs {txs : List Transaction} {ts : List (TxPoolTransaction P)}
    (hs : s.txsToTxpoolTxs e txs = some (ts, s')) : Evolves s s' ∧ ∀ t ∈ ts, t.tx ∈ txs := by
  induction txs generalizing s ts with
  | nil =>
    cases hs
    exact ⟨.refl _, fun t ht => absurd ht not_mem_nil⟩
  | cons tx txs ih =>
    obtain ⟨⟨t, s₁⟩, hnew, hs⟩ := do_eq_some.1 hs
    obtain ⟨⟨ts₁, s₂⟩, hrest, hs⟩ := do_eq_some.1 hs
    cases hs
    obtain ⟨h₂, hts⟩ := ih hrest
    refine ⟨((refl s).txtoTxpoolTx hnew).trans h₂, fun u hu => ?_⟩
    rcases mem_cons.1 hu with rfl | hu
    · rw [(txtoTxpoolTx_eq hnew).1]
      exact mem_cons_self
    · exact mem_cons_of_mem _ (hts u hu)

/-! ### Calls that only remove -/

/-- The calls that store nothing. -/
def Removing : Op P → Prop
  | .discardTxs _ | .sendStoredTxs _ | .removeTransaction _ _ | .removeDoubleSpends _
  | .removeOrphan _ | .deleteTxByHash _ | .deleteTx => True
  | _ => False

lemma Evolves.removeTransactionByHash (s : Pool P) (hash : Hash) (removeRedeemers : Bool) :
    Evolves s (s.removeTransactionByHash hash removeRedeemers) := by
  unfold Pool.removeTransactionByHash
  split
  · rename_i t hlook
    refine (refl s).go ?_
    rintro u ⟨⟩
    exact .all hlook
  · exact (refl s).go fun u hu => by cases hu

lemma Evolves.removeDoubleSpends (hs : s.removeDoubleSpends tx = some s') : Evolves s s' := by
  obtain ⟨msgs, -, hs⟩ := do_eq_some.1 hs
  obtain ⟨ops, -, hs⟩ := do_eq_some.1 hs
  cases hs
  refine (refl s).foldl ?_ ops
  intro s₁ op h₁
  split
  · exact h₁
  rename_i t hlook
  refine h₁.go ?_
  rintro u ⟨⟩
  exact h₁.has t (.outpoint hlook)

lemma Evolves.of_removing {op : Op P} (hs : s.step c e op = some s')
    (hop : Removing op) : Evolves s s' := by
  cases op with
  | discardTxs hashs =>
    cases hs
    exact (refl s).foldl (fun _ hash h => h.discardTx hash) hashs
  | sendStoredTxs hashs =>
    cases hs
    exact (refl s).foldl (fun _ hash h => h.removeTx hash) hashs
  | removeTransaction hash removeRedeemers =>
    cases hs
    exact .removeTransactionByHash s hash removeRedeemers
  | removeDoubleSpends tx => exact .removeDoubleSpends hs
  | removeOrphan t => exact (refl s).removeOrphan hs
  | deleteTxByHash hash =>
    cases hs
    exact (refl s).deleteTxByHash hash
  | deleteTx =>
    cases hs
    exact (refl s).deleteTx
  | _ => exact hop.elim

end Pool

end ZwsChain.TxsPool
