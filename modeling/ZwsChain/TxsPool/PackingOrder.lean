import ZwsChain.Lib.ParentsFirst
import ZwsChain.Dag.ApplyPayments
import ZwsChain.TxsPool.WellFormed

/-!
# The order of the transactions for a new unit

`GetSortedTxs` lists no transaction twice. A transaction of the priority list comes behind its
precursors, but the sequential ones come first as they are queued and the orphans last in the order
of their creation, so a child may precede its parent (`ChildFirst.child_before_parent`); and a
parent that is pending or stored is not listed.

`getSortedTxs_packingOrder` gives the order back for pools whose queue is ordered, if no parent of
what is listed is pending or stored and the orphans that are taken find their parents listed.
-/

open List Option

namespace ZwsChain.TxsPool

open TxPoolTransaction
open Lib (ParentsFirst keys firsts)

variable {P : Primitives} {σ : Hash → Set OutPoint} {c : Config} {e : Env P}

namespace Pool

variable {s s' : Pool P} {t : TxPoolTransaction P}

/-- No transaction is listed twice, and each comes behind the pool transactions whose outputs it
spends. -/
def PackingOrder (s : Pool P) (txs : List (TxPoolTransaction P)) : Prop :=
  (txs.map hash).Nodup ∧
    ∀ pre t post, txs = pre ++ t :: post → ∀ parent, s.InPool parent → parent.hash ≠ t.hash →
      (∃ op ∈ t.spent, op.txHash = parent.hash) → ∃ u ∈ pre, u.hash = parent.hash

/-! ### Packable pools -/

/-- The other transactions in the pool whose outputs a transaction spends, unless the ledger has
it. -/
def parents (e : Env P) (s : Pool P) (t : TxPoolTransaction P) : Set Hash :=
  {k | ¬ e.isTransactionExist t.hash ∧ k ≠ t.hash ∧ (k ∈ s.all ∨ k ∈ s.orphans) ∧
    ∃ op ∈ t.spent, op.txHash = k}

/-- The sequential transactions. -/
def queued (s : Pool P) : Set Hash :=
  keys hash s.sequenTxs

/-- An orphan that `GetSortedTxs` takes unless the unit is full. -/
def ready (e : Env P) (s : Pool P) (t : TxPoolTransaction P) : Bool :=
  !e.isTransactionExist t.hash && s.validateOrphanTx e t = some .known

/-- The parents of a transaction that are not sequential are not pending, and the ledger has not
what it spends of them. -/
def Follows (e : Env P) (s : Pool P) (t : TxPoolTransaction P) : Prop :=
  ∀ op ∈ t.spent, op.txHash ∈ s.parents e t → op.txHash ∉ s.queued →
    e.getUtxoEntry op = none ∧ ∀ u, s.InPool u → u.hash = op.txHash → ¬ (s.status u).pending

/-- The unit is not full when some orphans have been taken; the first one is always taken. -/
def Room (e : Env P) (total : Nat) (taken : List (TxPoolTransaction P)) : Prop :=
  taken = [] ∨ ∃ size, sizes taken = some size ∧ total + size ≤ e.unitMaxSize

/-- The pool, the list and its size when the loop over the priority list has ended. -/
def takeFirst (e : Env P) (s : Pool P) : Option (Pool P × List (TxPoolTransaction P) × Nat) := do
  let total ← sizes s.sequenTxs
  takeItems e s e.passes { s with sequenTxs := [] } s.sequenTxs total

/-- The pools that `GetSortedTxs` lists in order, by the list and its size when the loop over the
priority list has ended. -/
structure Packable (e : Env P) (s : Pool P) (list : List (TxPoolTransaction P)) (total : Nat) :
    Prop where
  /-- Sequential transactions are queued behind their parents. -/
  sequenTxs : ParentsFirst hash (s.parents e) ∅ s.sequenTxs
  /-- The search for precursors passes over no parent of the others. -/
  items : ∀ t ∈ list, t.hash ∉ s.queued → s.Follows e t
  /-- No parent is stored in the ledger. -/
  ledger : ∀ t ∈ list, ∀ k ∈ s.parents e t, ¬ e.isTransactionExist k
  /-- The parents of an orphan that is taken are in the list, or are ready orphans sorted in front
  of it; none is stored in the ledger. -/
  orphans : ∀ pre t post, e.sortOrphans (e.range (values s.orphans)) = pre ++ t :: post →
    s.ready e t → Room e total (pre.filter (s.ready e)) → ∀ k ∈ s.parents e t,
      ¬ e.isTransactionExist k ∧ k ∈ keys hash (list ++ pre.filter (s.ready e))

lemma validateOrphanTx_congr (h : s'.outputs = s.outputs) :
    s'.validateOrphanTx e t = s.validateOrphanTx e t := by
  have hfind : ∀ ops, s'.findUnknown e ops = s.findUnknown e ops := by
    intro ops
    induction ops with
    | nil => rfl
    | cons op ops ih =>
      cases op with
      | none => rfl
      | some op => rw [findUnknown, findUnknown, getUtxoEntry, getUtxoEntry, h, ih]
  rw [validateOrphanTx, validateOrphanTx, hfind]

/-- A pool of a run whose queue is in order. -/
structure Sortable (σ : Hash → Set OutPoint) (e : Env P) (s : Pool P) : Prop where
  wf : WellFormed σ s
  sequenTxs : ParentsFirst hash (s.parents e) ∅ s.sequenTxs

lemma parents_congr {u : TxPoolTransaction P} (hhash : u.hash = t.hash)
    (hspent : u.spent = t.spent) :
    s.parents e u = s.parents e t := by
  rw [parents, parents, hhash, hspent]

/-- A list of pool transactions that is ordered and has the parents that some inputs of a
transaction spend from. -/
structure Precedes (e : Env P) (s : Pool P) (t : TxPoolTransaction P) (ops : List OutPoint)
    (list : List (TxPoolTransaction P)) : Prop where
  inPool : ∀ u ∈ list, s.InPool u
  ordered : ParentsFirst hash (s.parents e) s.queued list
  parents : ∀ op ∈ ops, op ∈ t.spent → op.txHash ∈ s.parents e t →
    op.txHash ∈ s.queued ∪ keys hash list

variable {list txs : List (TxPoolTransaction P)} {unitHash : Hash} {index total : Nat}

lemma Precedes.parents_subset (h : s.Precedes e t t.inputs list) :
    s.parents e t ⊆ s.queued ∪ keys hash list := by
  intro k hk
  obtain ⟨op, hop, rfl⟩ := hk.2.2.2
  exact h.parents op hop.1 hop hk

/-- One more input, whose parent is sequential or in the longer list. -/
lemma Precedes.snoc {ops : List OutPoint} {op : OutPoint}
    {block : List (TxPoolTransaction P)} (h : s.Precedes e t ops list)
    (hin : ∀ u ∈ block, s.InPool u)
    (hblock : ParentsFirst hash (s.parents e) s.queued block)
    (hop : op ∈ t.spent → op.txHash ∈ s.parents e t →
      op.txHash ∈ s.queued ∪ keys hash (list ++ block)) :
    s.Precedes e t (ops ++ [op]) (list ++ block) where
  inPool u hu := (mem_append.1 hu).elim (h.inPool u) (hin u)
  ordered := h.ordered.append (hblock.mono Set.subset_union_left)
  parents op' hmem hspent hparent := by
    rcases mem_append.1 hmem with hmem | hmem
    · rw [Lib.keys_append, ← Set.union_assoc]
      exact .inl (h.parents op' hmem hspent hparent)
    · obtain rfl := mem_singleton.1 hmem
      exact hop hspent hparent

namespace Sortable

/-- The parents of a sequential transaction are sequential, for each object of it. -/
lemma parents_subset_queued (h : Sortable σ e s) (ht : t.spent = σ t.hash)
    (hqueued : t.hash ∈ s.queued) : s.parents e t ⊆ s.queued := by
  obtain ⟨u, hu, hhash⟩ := List.mem_map.1 hqueued
  rw [← parents_congr hhash (by rw [ht, h.wf.sequenTxs u hu, hhash])]
  obtain ⟨pre, post, hsplit⟩ := append_of_mem hu
  have hbefore := h.sequenTxs
  rw [hsplit] at hbefore
  refine hbefore.before.trans ?_
  rintro k (hk | hk)
  · exact hk.elim
  · rw [queued, hsplit, Lib.keys_append]
    exact .inl hk

/-! ### Precursors -/

/-- A parent that is not sequential is looked up and followed. -/
lemma parent_followed {op : OutPoint} (h : Sortable σ e s)
    (hfollows : t.hash ∉ s.queued → s.Follows e t)
    (hknown : t.spent = σ t.hash) (hop : op ∈ t.spent) (hparent : op.txHash ∈ s.parents e t)
    (hqueued : op.txHash ∉ s.queued) :
    (e.getUtxoEntry op).isSome = false ∧
      ∃ u, (s.all.lookup op.txHash).or (s.orphans.lookup op.txHash) = some u ∧
        (s.status u).pending = false := by
  have hnot : t.hash ∉ s.queued :=
    fun hmem => hqueued (h.parents_subset_queued hknown hmem hparent)
  obtain ⟨hnone, hpending⟩ := hfollows hnot op hop hparent hqueued
  refine ⟨by rw [hnone]; rfl, ?_⟩
  obtain ⟨-, -, hin, -⟩ := hparent
  cases hall : s.all.lookup op.txHash with
  | some u =>
    obtain ⟨hhash, -⟩ := h.wf.all _ u hall
    refine ⟨u, rfl, Bool.eq_false_iff.2 (hpending u (.inl ?_) hhash)⟩
    rwa [hhash]
  | none =>
    have horphan : op.txHash ∈ s.orphans := hin.resolve_left (AList.lookup_eq_none.1 hall)
    obtain ⟨u, hu⟩ := mem_iff_lookup.1 horphan
    obtain ⟨hhash, -⟩ := h.wf.orphans _ u hu
    refine ⟨u, hu, Bool.eq_false_iff.2 (hpending u (.inr ?_) hhash)⟩
    rwa [hhash]

lemma inPool_of_lookup {k : Hash} (h : WellFormed σ s)
    (hl : (s.all.lookup k).or (s.orphans.lookup k) = some t) :
    s.InPool t ∧ t.hash = k ∧ t.spent = σ t.hash := by
  rcases or_eq_some_iff.1 hl with hall | ⟨-, horphan⟩
  · obtain ⟨hhash, hknown⟩ := h.all k t hall
    exact ⟨.inl (hhash ▸ hall), hhash, hknown⟩
  · obtain ⟨hhash, hknown⟩ := h.orphans k t horphan
    exact ⟨.inr (hhash ▸ horphan), hhash, hknown⟩

variable {list list' : List (TxPoolTransaction P)} {s₁ : Pool P} {total total' : Nat}

/-- The precursors come behind their own ones, if no parent of them is passed over. -/
lemma getPrecusorTxs {fuel : Nat} (h : Sortable σ e s)
    (hfollows : t.hash ∉ s.queued → s.Follows e t) (hknown : t.spent = σ t.hash)
    (hs : s.getPrecusorTxs e fuel t = some list)
    (hlist : ∀ u ∈ list, u.hash ∉ s.queued → s.Follows e u) : s.Precedes e t t.inputs list := by
  induction fuel generalizing t list with
  | zero => cases hs
  | succ fuel ih =>
    refine Lib.foldlM_invariant (I := fun ops list =>
      (∀ u ∈ list, u.hash ∉ s.queued → s.Follows e u) → s.Precedes e t ops list) ?_
      (fun _ => ⟨fun u hu => absurd hu not_mem_nil, trivial, fun op hop => absurd hop not_mem_nil⟩)
      hs hlist
    intro ops op list list' _ hlist hstep hfollowed
    -- an input that is passed over has a sequential parent, or none
    have hskip : (∀ u, (e.getUtxoEntry op).isSome = false →
        (s.all.lookup op.txHash).or (s.orphans.lookup op.txHash) = some u →
        (s.status u).pending = true) → list' = list → s.Precedes e t (ops ++ [op]) list' := by
      rintro hpassed rfl
      rw [← append_nil list']
      refine (hlist hfollowed).snoc (fun u hu => absurd hu not_mem_nil) trivial ?_
      intro hop hparent
      by_contra hqueued
      have hnot : op.txHash ∉ s.queued := fun hmem => hqueued (.inl hmem)
      obtain ⟨hsome, u, hl, hpending⟩ := h.parent_followed hfollows hknown hop hparent hnot
      rw [hpassed u hsome hl] at hpending
      cases hpending
    split at hstep
    · rename_i hsome
      refine hskip (fun u hnone => ?_) (some.inj hstep).symm
      rw [hsome] at hnone
      cases hnone
    split at hstep
    · rename_i hnone
      refine hskip (fun u _ hl => ?_) (some.inj hstep).symm
      rw [hnone] at hl
      cases hl
    rename_i queueTx hl
    obtain ⟨hin, hhash, hqueue⟩ := inPool_of_lookup h.wf hl
    split at hstep
    · rename_i hpending
      refine hskip (fun u _ hl' => ?_) (some.inj hstep).symm
      rw [hl] at hl'
      cases hl'
      exact hpending
    obtain ⟨block, hblock, rfl⟩ := map_eq_some_iff.1 hstep
    simp only [mem_append, mem_singleton] at hfollowed
    have hpre := ih (hfollowed queueTx (.inr rfl)) hqueue hblock
      fun u hu => hfollowed u (.inl (.inr hu))
    rw [append_assoc]
    refine (hlist fun u hu => hfollowed u (.inl (.inl hu))).snoc ?_
      (hpre.ordered.snoc hpre.parents_subset) fun _ _ => ?_
    · intro u hu
      rcases mem_append.1 hu with hu | hu
      · exact hpre.inPool u hu
      · obtain rfl := mem_singleton.1 hu
        exact hin
    · rw [← append_assoc, Lib.keys_append, Lib.keys_singleton, hhash]
      exact .inr (.inr rfl)

/-! ### The three sources -/

/-- The loop over the priority list keeps what is in the list. -/
lemma subset_takeItems {start : Pool P} {passes : Nat}
    (hs : Pool.takeItems e start passes s₁ list total = some (s', list', total')) :
    list ⊆ list' := by
  induction passes generalizing s₁ list total with
  | zero =>
    cases hs
    exact List.Subset.refl _
  | succ passes ih =>
    unfold Pool.takeItems at hs
    split at hs
    · cases hs
      exact List.Subset.refl _
    split at hs
    · cases hs
      exact List.Subset.refl _
    split at hs
    · exact ih hs
    obtain ⟨pretxs, -, hs⟩ := do_eq_some.1 hs
    obtain ⟨size, -, hs⟩ := do_eq_some.1 hs
    rw [append_assoc] at hs
    exact List.Subset.trans (subset_append_left _ _) (ih hs)

/-- The loop over the priority list. -/
lemma takeItems {passes : Nat} (h : Sortable σ e s) (hitems : ∀ u ∈ s₁.items, u ∈ s.items)
    (hordered : ParentsFirst hash (s.parents e) ∅ list)
    (hqueued : s.queued ⊆ keys hash list)
    (hlist : ∀ u ∈ list, s.InPool u ∨ u ∈ s.items ∨ u ∈ s.sequenTxs)
    (hs : Pool.takeItems e s passes s₁ list total = some (s', list', total'))
    (hfollows : ∀ u ∈ list', u.hash ∉ s.queued → s.Follows e u) :
    ParentsFirst hash (s.parents e) ∅ list' ∧
      (∀ u ∈ list', s.InPool u ∨ u ∈ s.items ∨ u ∈ s.sequenTxs) ∧
      s'.outputs = s₁.outputs := by
  induction passes generalizing s₁ list total with
  | zero =>
    cases hs
    exact ⟨hordered, hlist, rfl⟩
  | succ passes ih =>
    have hsub := getFrom_sublist s₁ s₁.items
    have hitems' : ∀ u ∈ s₁.get.2.items, u ∈ s.items :=
      fun u hu => hitems u (hsub.subset (mem_append_right _ hu))
    unfold Pool.takeItems at hs
    split at hs
    · cases hs
      exact ⟨hordered, hlist, rfl⟩
    split at hs
    · rename_i s₂ hget
      cases hs
      rw [show s' = s₁.get.2 from (congrArg Prod.snd hget).symm]
      exact ⟨hordered, hlist, rfl⟩
    rename_i t s₂ hget
    obtain rfl : s₁.get.2 = s₂ := congrArg Prod.snd hget
    have hsome : (s₁.getFrom s₁.items).1 = some t := congrArg Prod.fst hget
    split at hs
    · have hrest := ih hitems' hordered hqueued hlist hs
      exact hrest
    obtain ⟨pretxs, hpre, hs⟩ := do_eq_some.1 hs
    obtain ⟨size, -, hs⟩ := do_eq_some.1 hs
    have ht : t ∈ s.items := by
      refine hitems t (hsub.subset (mem_append_left _ ?_))
      rw [hsome]
      exact mem_singleton_self t
    rw [append_assoc] at hs
    have hblock : ∀ u ∈ pretxs ++ [t], u.hash ∉ s.queued → s.Follows e u :=
      fun u hu => hfollows u (subset_takeItems hs (mem_append_right _ hu))
    have hprecedes := h.getPrecusorTxs (hblock t (by simp)) (h.wf.items t ht) hpre
      fun u hu => hblock u (mem_append_left _ hu)
    have hordered' : ParentsFirst hash (s.parents e) ∅
        (list ++ (pretxs ++ [t])) := by
      apply hordered.append
      apply (hprecedes.ordered.snoc hprecedes.parents_subset).mono
      exact hqueued.trans Set.subset_union_right
    have hqueued' : s.queued ⊆ keys hash (list ++ (pretxs ++ [t])) := by
      rw [Lib.keys_append]
      exact hqueued.trans Set.subset_union_left
    have hrest := ih hitems' hordered' hqueued' ?_ hs
    · exact hrest
    intro u hu
    simp only [mem_append, mem_singleton] at hu
    rcases hu with hu | hu | rfl
    · exact hlist u hu
    · exact .inl (hprecedes.inPool u hu)
    · exact .inr (.inl ht)

/-- There is room behind an orphan that does not fill the unit. -/
lemma room_cons {taken : List (TxPoolTransaction P)} {size : Nat} (hsize : t.tx.size = some size)
    (hfits : total + size ≤ e.unitMaxSize) (h : Room e (total + size) taken) :
    Room e total (t :: taken) := by
  refine .inr ?_
  rcases h with rfl | ⟨rest, hrest, hle⟩
  · exact ⟨size, by simp [sizes, hsize], hfits⟩
  · refine ⟨size + rest, ?_, by omega⟩
    obtain ⟨l, hl, rfl⟩ := map_eq_some_iff.1 hrest
    simp [sizes, hsize, hl]

/-- The loop over the orphans. -/
lemma takeOrphans
    {orphans : List (TxPoolTransaction P)} (houtputs : s₁.outputs = s.outputs)
    (hordered : ParentsFirst hash (s.parents e) ∅ list)
    (hledger : ∀ t ∈ list, ∀ k ∈ s.parents e t, ¬ e.isTransactionExist k)
    (horphans : ∀ pre t post, orphans = pre ++ t :: post → s.ready e t →
      Room e total (pre.filter (s.ready e)) → ∀ k ∈ s.parents e t,
        ¬ e.isTransactionExist k ∧ k ∈ keys hash (list ++ pre.filter (s.ready e)))
    (hs : Pool.takeOrphans e unitHash index orphans s₁ list total = some (s', list', total')) :
    ParentsFirst hash (s.parents e) ∅ list' ∧ list' ⊆ list ++ orphans ∧
      ∀ t ∈ list', ∀ k ∈ s.parents e t, ¬ e.isTransactionExist k := by
  induction orphans generalizing s₁ list total with
  | nil =>
    cases hs
    exact ⟨hordered, subset_append_left _ _, hledger⟩
  | cons t orphans ih =>
    have hskip : list ++ orphans ⊆ list ++ t :: orphans :=
      ((sublist_cons_self t orphans).append_left list).subset
    have hsame : s₁.validateOrphanTx e t = s.validateOrphanTx e t :=
      validateOrphanTx_congr houtputs
    -- what is not ready is passed over
    have hpass : s.ready e t = false → ∀ s₂ : Pool P, s₂.outputs = s.outputs →
        Pool.takeOrphans e unitHash index orphans s₂ list total = some (s', list', total') →
        ParentsFirst hash (s.parents e) ∅ list' ∧ list' ⊆ list ++ t :: orphans ∧
          ∀ t ∈ list', ∀ k ∈ s.parents e t, ¬ e.isTransactionExist k := by
      intro hready s₂ houtputs hs
      obtain ⟨h₁, h₂, h₃⟩ := ih houtputs hordered hledger (fun pre u post hsplit hu hroom => by
        have hu' := horphans (t :: pre) u post (by rw [hsplit, cons_append]) hu
        rw [filter_cons_of_neg (by simp [hready])] at hu'
        exact hu' hroom) hs
      exact ⟨h₁, List.Subset.trans h₂ hskip, h₃⟩
    unfold Pool.takeOrphans at hs
    split at hs
    · rename_i hexists
      refine hpass (by simp [ready, hexists]) _ ?_ hs
      exact houtputs
    rename_i hexists
    obtain ⟨check, hcheck, hs⟩ := do_eq_some.1 hs
    rw [hsame] at hcheck
    cases check with
    | known =>
      have hready : s.ready e t = true := by simp [ready, hexists, hcheck]
      have ht := horphans [] t orphans rfl hready (.inl rfl)
      rw [filter_nil, append_nil] at ht
      have hsnoc : ParentsFirst TxPoolTransaction.hash (s.parents e) ∅ (list ++ [t]) :=
        hordered.snoc fun k hk => .inr (ht k hk).2
      have hledger' : ∀ u ∈ list ++ [t], ∀ k ∈ s.parents e u, ¬ e.isTransactionExist k := by
        intro u hu
        rcases mem_append.1 hu with hu | hu
        · exact hledger u hu
        · obtain rfl := mem_singleton.1 hu
          exact fun k hk => (ht k hk).1
      rw [append_cons]
      obtain ⟨size, hsize, hs⟩ := do_eq_some.1 hs
      split at hs
      · cases hs
        exact ⟨hsnoc, subset_append_left _ _, hledger'⟩
      rename_i hfits
      refine ih ?_ hsnoc hledger' (fun pre u post hsplit hu hroom => ?_) hs
      · exact houtputs
      have hu' := horphans (t :: pre) u post (by rw [hsplit, cons_append]) hu
      rw [filter_cons_of_pos hready] at hu'
      simpa using hu' (room_cons hsize (Nat.not_lt.1 hfits) hroom)
    | noMessages | orphan => exact hpass (by simp [ready, hcheck]) _ houtputs hs

end Sortable

/-! ### The list -/

lemma hash_lastOf (list : List (TxPoolTransaction P)) (t : TxPoolTransaction P) :
    (lastOf list t).hash = t.hash := by
  unfold lastOf
  cases hfind : list.reverse.find? fun t' => t'.hash = t.hash with
  | none => rfl
  | some u =>
    have hu := find?_some hfind
    exact of_decide_eq_true hu

/-- What is listed: the first places, each with the last object of its hash. -/
lemma distinctTxs_fst {number : Nat} {rest : List (TxPoolTransaction P × Nat)} {seen : List Hash} :
    (distinctTxs e unitHash number list rest seen s).1 =
      (firsts hash (fun h => !e.isTransactionExist h) (rest.map Prod.fst)
        seen).map (lastOf list) := by
  induction rest generalizing seen s with
  | nil => rfl
  | cons p rest ih =>
    obtain ⟨t, i⟩ := p
    unfold distinctTxs
    rw [map_cons, firsts]
    split
    · exact ih
    cases hexists : e.isTransactionExist t.hash with
    | true => simp [ih]
    | false => simp [hash_lastOf, ih]

/-- The steps of `GetSortedTxs`. -/
lemma getSortedTxs_cases (hs : s.getSortedTxs e unitHash index = some ((txs, total), s')) :
    ∃ s₁ list₁ size₁ s₂ list₂ size₂, s.takeFirst e = some (s₁, list₁, size₁) ∧
      takeOrphans e unitHash index (e.sortOrphans (e.range (values s.orphans))) s₁ list₁ size₁ =
        some (s₂, list₂, size₂) ∧
      txs = (firsts hash (fun h => !e.isTransactionExist h) list₂ []).map (lastOf list₂) := by
  obtain ⟨size, hsize, hs⟩ := do_eq_some.1 hs
  obtain ⟨⟨s₁, list₁, size₁⟩, hitems, hs⟩ := do_eq_some.1 hs
  obtain ⟨⟨s₂, list₂, size₂⟩, horphans, hs⟩ := do_eq_some.1 hs
  refine ⟨s₁, list₁, size₁, s₂, list₂, size₂, do_eq_some.2 ⟨size, hsize, hitems⟩, horphans, ?_⟩
  have htxs : txs = (distinctTxs e unitHash index list₂ list₂.zipIdx []
      (s₂.setIndexes list₂)).1 := by
    cases hs
    rfl
  rw [htxs, distinctTxs_fst, zipIdx_map_fst]

/-- No transaction is listed twice, in any pool. -/
theorem getSortedTxs_nodup (hs : s.getSortedTxs e unitHash index = some ((txs, total), s')) :
    (txs.map hash).Nodup := by
  obtain ⟨-, -, -, -, list, -, -, -, rfl⟩ := getSortedTxs_cases hs
  have hhash : hash ∘ lastOf list = hash :=
    funext (hash_lastOf list)
  rw [List.map_map, hhash]
  exact Lib.nodup_firsts

/-- The list before equal transactions are dropped. -/
lemma Packable.ordered {size₁ size₂ : Nat} {s₁ s₂ : Pool P}
    {list₁ list₂ : List (TxPoolTransaction P)} (h : Packable e s list₁ size₁)
    (hwf : WellFormed σ s) (hfirst : s.takeFirst e = some (s₁, list₁, size₁))
    (horphans : Pool.takeOrphans e unitHash index (e.sortOrphans (e.range (values s.orphans))) s₁
      list₁ size₁ = some (s₂, list₂, size₂)) :
    ParentsFirst hash (s.parents e) ∅ list₂ ∧
      (∀ u ∈ list₂, s.InPool u ∨ u ∈ s.items ∨ u ∈ s.sequenTxs) ∧
      ∀ u ∈ list₂, ∀ k ∈ s.parents e u, ¬ e.isTransactionExist k := by
  obtain ⟨size, -, hitems⟩ := do_eq_some.1 hfirst
  have hsortable : Sortable σ e s := ⟨hwf, h.sequenTxs⟩
  have hstart : ∀ u ∈ ({ s with sequenTxs := [] } : Pool P).items, u ∈ s.items := fun u hu => hu
  obtain ⟨hordered, hlist, houtputs⟩ := hsortable.takeItems hstart h.sequenTxs
    subset_rfl (fun u hu => .inr (.inr hu)) hitems h.items
  have houtputs : s₁.outputs = s.outputs := houtputs
  obtain ⟨hordered₂, hmem, hledger⟩ :=
    Sortable.takeOrphans houtputs hordered h.ledger h.orphans horphans
  refine ⟨hordered₂, fun u hu => ?_, hledger⟩
  rcases mem_append.1 (hmem hu) with hu | hu
  · exact hlist u hu
  have hvalue := (e.range_perm _).mem_iff.1 ((e.sortOrphans_perm _).mem_iff.1 hu)
  obtain ⟨k, hl⟩ := mem_values.1 hvalue
  exact .inl (.inr ((hwf.orphans k u hl).1 ▸ hl))

/-- The transactions of the pool below a rank. -/
def below (s : Pool P) (rank : Hash → Nat) (n : Nat) : Finset Hash :=
  (s.all.keys.toFinset ∪ s.orphans.keys.toFinset).filter fun k => rank k < n

lemma card_below (s : Pool P) (rank : Hash → Nat) (n : Nat) :
    (s.below rank n).card < s.precusorFuel := by
  have hall : s.all.keys.toFinset.card ≤ s.all.entries.length := by
    simpa [AList.keys, List.keys] using toFinset_card_le s.all.keys
  have horphans : s.orphans.keys.toFinset.card ≤ s.orphans.entries.length := by
    simpa [AList.keys, List.keys] using toFinset_card_le s.orphans.keys
  have hunion := Finset.card_union_le s.all.keys.toFinset s.orphans.keys.toFinset
  have hfilter := Finset.card_filter_le (s.all.keys.toFinset ∪ s.orphans.keys.toFinset)
    fun k => rank k < n
  unfold below precusorFuel
  omega

/-- If no transaction spends from itself over others, the precursors of each are found: the search
does not run forever. -/
theorem getPrecusorTxs_isSome {rank : Hash → Nat} (h : WellFormed σ s)
    (hrank : ∀ u, s.InPool u ∨ u ∈ s.items → ∀ op ∈ u.inputs,
      op.txHash ∈ s.all ∨ op.txHash ∈ s.orphans → rank op.txHash < rank u.hash)
    (ht : s.InPool t ∨ t ∈ s.items) : (s.getPrecusorTxs e s.precusorFuel t).isSome := by
  -- a precursor has fewer transactions below it
  suffices hfuel : ∀ fuel t, s.InPool t ∨ t ∈ s.items → (s.below rank (rank t.hash)).card < fuel →
      (s.getPrecusorTxs e fuel t).isSome from hfuel _ t ht (card_below s rank _)
  intro fuel
  induction fuel with
  | zero => exact fun t _ hcard => absurd hcard (Nat.not_lt_zero _)
  | succ fuel ih =>
    intro t ht hcard
    refine Lib.foldlM_isSome_iff.2 fun pre op hpre list _ => ?_
    have hop : op ∈ t.inputs := hpre.subset (mem_append_right _ (mem_singleton_self op))
    split_ifs
    · rfl
    split
    · rfl
    rename_i u hl
    obtain ⟨hin, hhash, -⟩ := Sortable.inPool_of_lookup h hl
    split_ifs
    · rfl
    rw [isSome_map]
    apply ih u (.inl hin)
    have hmem : u.hash ∈ s.all ∨ u.hash ∈ s.orphans :=
      hin.imp (fun hl => mem_iff_lookup.2 ⟨u, hl⟩) fun hl => mem_iff_lookup.2 ⟨u, hl⟩
    have hlt : rank u.hash < rank t.hash := by
      rw [hhash] at hmem ⊢
      exact hrank t ht op hop hmem
    refine lt_of_lt_of_le (Finset.card_lt_card ?_) (Nat.lt_succ_iff.1 hcard)
    refine Finset.ssubset_iff_of_subset ?_ |>.2 ⟨u.hash, ?_, ?_⟩
    · intro k hk
      simp only [below, Finset.mem_filter] at hk ⊢
      exact ⟨hk.1, hk.2.trans hlt⟩
    · simp only [below, Finset.mem_filter, Finset.mem_union, List.mem_toFinset]
      exact ⟨hmem, hlt⟩
    · simp [below]

end Pool

/-! ### A small pool -/

namespace SmallPool

open SmallNode SelfPaid

/-- The default parameters.
Source: `txspool/config.go`, `DefaultTxPoolConfig` -/
def config : Config := ⟨48192, 12048, 3 * 3600, 30 * 60, 20 * 60, 10000⟩

/-- The small node with one stored output, and its validator. -/
def env : Env primitives where
  getUtxoEntry := db.getUtxoEntry
  isTransactionExist _ := false
  validateTx query tx :=
    let V : Validate := { node.onDb db with getUtxoEntry := query }
    (V.validateTx tx true noSigs).map fun r => (r.code, r.txFee)
  now := 0
  level _ _ := 0
  sortItems lvl l := l.insertionSort fun t u => lvl u ≤ lvl t
  sortOrphans l := l.insertionSort fun t u => t.creationDate ≤ u.creationDate
  range l := l
  unitMaxSize := 1024
  passes := 8
  sortItems_perm _ := perm_insertionSort _
  sortItems_sorted lvl :=
    haveI : Std.Total fun t u : TxPoolTransaction primitives => lvl u ≤ lvl t :=
      ⟨fun t u => le_total (lvl u) (lvl t)⟩
    haveI : IsTrans (TxPoolTransaction primitives) fun t u => lvl u ≤ lvl t :=
      ⟨fun _ _ _ h h' => h'.trans h⟩
    pairwise_insertionSort _
  sortOrphans_perm := perm_insertionSort _
  sortOrphans_sorted :=
    haveI : Std.Total fun t u : TxPoolTransaction primitives => t.creationDate ≤ u.creationDate :=
      ⟨fun t u => Nat.le_total t.creationDate u.creationDate⟩
    haveI : IsTrans (TxPoolTransaction primitives) fun t u => t.creationDate ≤ u.creationDate :=
      ⟨fun _ _ _ => Nat.le_trans⟩
    pairwise_insertionSort _
  range_perm _ := .refl _

/-- Pays the stored output, less a fee. -/
def pay (amount : UInt64) : Transaction :=
  ⟨[.payment ⟨[input (outPoint 1)], [{ output with value := amount }], 0⟩], [], false⟩

end SmallPool

/-! ### A child in front of its parent -/

namespace ChildFirst

open SmallNode SelfPaid SmallPool Pool

def parentHash : Hash := ((pay 9).hash primitives).getD (FixedBytes.zero 32)

/-- Spends the output of the first payment. -/
def child : Transaction :=
  ⟨[.payment ⟨[input ⟨parentHash, 0, 0⟩], [{ output with value := 8 }], 0⟩], [], false⟩

/-- The parent enters by `AddRemote`, the child as a sequential transaction. -/
def queuedChild : List (Env primitives × Op primitives) :=
  [(env, .addRemote (pay 9)), (env, .goroutine 0), (env, .addSequenTxs [child])]

/-- The first of the list spends an output of a pool transaction. -/
def FirstSpends (s : Pool primitives) (txs : List (TxPoolTransaction primitives)) : Prop :=
  ∃ t ∈ txs.take 1, ∃ parent ∈ values s.all, s.all.lookup parent.hash = some parent ∧
    parent.hash ≠ t.hash ∧ ∃ op ∈ t.inputs, ¬ op.txHash.isSelfHash ∧ op.txHash = parent.hash

instance (s : Pool primitives) (txs : List (TxPoolTransaction primitives)) :
    Decidable (FirstSpends s txs) :=
  inferInstanceAs (Decidable (∃ t ∈ txs.take 1, ∃ parent ∈ values s.all, _))

variable {s : Pool primitives}

lemma FirstSpends.not_packingOrder {txs : List (TxPoolTransaction primitives)}
    (h : FirstSpends s txs) : ¬ s.PackingOrder txs := by
  rintro ⟨-, horder⟩
  obtain ⟨t, ht, parent, -, hl, hne, op, hop, hself, hhash⟩ := h
  obtain ⟨post, rfl⟩ : ∃ post, txs = t :: post := by
    cases txs with
    | nil => simp at ht
    | cons u post =>
      obtain rfl : t = u := by simpa using ht
      exact ⟨post, rfl⟩
  obtain ⟨u, hu, -⟩ := horder [] t post rfl parent (.inl hl) hne ⟨op, ⟨hop, hself⟩, hhash⟩
  exact absurd hu not_mem_nil

/-- Both enter by `AddRemote`, and the child is put on the priority list first. -/
def both : List (Env primitives × Op primitives) :=
  [(env, .addRemote (pay 9)), (env, .addRemote child), (env, .goroutine 1), (env, .goroutine 0)]

lemma spent_congr {t t' : TxPoolTransaction primitives} (h : t.tx = t'.tx) :
    t.spent = t'.spent := by
  have hmsgs : t.msgs = t'.msgs :=
    some.inj (t.msgs_eq.symm.trans ((congrArg Transaction.txMessages h).trans t'.msgs_eq))
  simp [spent, inputs, previousOutPoints, hmsgs]

lemma sameSpends_both : SameSpends both := by
  have htx : ∀ call ∈ both, ∀ tx ∈ call.2.txs, tx = pay 9 ∨ tx = child := by
    intro call hcall tx htx
    simp only [both, mem_cons, not_mem_nil, or_false] at hcall
    rcases hcall with rfl | rfl | rfl | rfl <;> simp_all [Op.txs]
  have hne : (pay 9).hash primitives ≠ child.hash primitives := by decide +kernel
  intro call hcall call' hcall' t t' ht ht' hhash
  apply spent_congr
  have hsame : t.tx.hash primitives = t'.tx.hash primitives := by
    rw [t.hash_eq, t'.hash_eq, hhash]
  rcases htx call hcall _ ht with h | h <;> rcases htx call' hcall' _ ht' with h' | h' <;>
    rw [h, h'] at hsame ⊢
  · exact absurd hsame hne
  · exact absurd hsame.symm hne

/-- Spends of a pool transaction go to the child from its parent. -/
def Ranked (s : Pool primitives) : Prop :=
  ∀ u ∈ values s.all ++ values s.orphans ++ s.items, ∀ op ∈ u.inputs,
    op.txHash ∈ s.all ∨ op.txHash ∈ s.orphans → op.txHash = parentHash ∧ u.hash ≠ parentHash

instance (s : Pool primitives) : Decidable (Ranked s) :=
  inferInstanceAs (Decidable (∀ u ∈ values s.all ++ values s.orphans ++ s.items, _))

/-- The search for the precursors of the child goes on to its parent and ends there. -/
theorem precursors_of_child : ∃ s t list, run config (newTxPool 0) both = some s ∧ t.tx = child ∧
    s.getPrecusorTxs env s.precusorFuel t = some list ∧
    list.map TxPoolTransaction.tx = [pay 9] := by
  have hrun : (run config (newTxPool 0) both).any fun s => Ranked s ∧ ∃ t ∈ s.items, t.tx = child ∧
      ((s.getPrecusorTxs env s.precusorFuel t).all fun list =>
        list.map TxPoolTransaction.tx = [pay 9]) = true := by
    decide +kernel
  obtain ⟨s, hs, h⟩ := (Option.any_eq_true _ _).1 hrun
  obtain ⟨hranked, t, ht, htx, hall⟩ := of_decide_eq_true h
  obtain ⟨σ, hσ⟩ := sameSpends_both.exists_spends
  have hsome : (s.getPrecusorTxs env s.precusorFuel t).isSome := by
    refine @getPrecusorTxs_isSome _ _ _ _ _ (fun k => if k = parentHash then 0 else 1)
      (WellFormed.run hσ hs) ?_ (.inr ht)
    intro u hu op hop hmem
    have hu' : u ∈ values s.all ++ values s.orphans ++ s.items := by
      simp only [mem_append, mem_values]
      exact hu.imp (Or.imp (⟨_, ·⟩) (⟨_, ·⟩)) id
    obtain ⟨hparent, hchild⟩ := hranked u hu' op hop hmem
    simp [hparent, hchild]
  obtain ⟨list, hlist⟩ := isSome_iff_exists.1 hsome
  rw [hlist, Option.all_some] at hall
  exact ⟨s, t, list, hs, htx, hlist, of_decide_eq_true hall⟩

/-- A pool without a queue and orphans, where nothing is pending, and the ledger has nothing of a
pool transaction that is spent in the list. -/
def Plain (s : Pool primitives) (list : List (TxPoolTransaction primitives)) : Prop :=
  s.sequenTxs = [] ∧ values s.orphans = [] ∧
    (∀ t ∈ list, ∀ op ∈ t.inputs, op.txHash ∈ s.all → env.getUtxoEntry op = none) ∧
    ∀ t ∈ values s.all, (s.status t).pending = false

instance (s : Pool primitives) (list : List (TxPoolTransaction primitives)) :
    Decidable (Plain s list) :=
  inferInstanceAs (Decidable (_ ∧ _ ∧ (∀ t ∈ list, _) ∧ ∀ t ∈ values s.all, _))

lemma Plain.packable {list : List (TxPoolTransaction primitives)} (h : Plain s list) (size : Nat) :
    Packable env s list size := by
  obtain ⟨hsequen, horphans, hledger, hpending⟩ := h
  have hnone : ∀ k, s.orphans.lookup k = none := by
    intro k
    by_contra hsome
    obtain ⟨u, hu⟩ := ne_none_iff_exists'.1 hsome
    exact absurd (horphans ▸ mem_values.2 ⟨k, hu⟩) not_mem_nil
  refine ⟨by rw [hsequen]; trivial, ?_, fun t _ k _ hexists => Bool.false_ne_true hexists, ?_⟩
  · rintro t ht - op hop ⟨-, -, hin, -⟩ -
    have hmem : op.txHash ∈ s.all := hin.resolve_right fun horphan => by
      obtain ⟨u, hu⟩ := mem_iff_lookup.1 horphan
      rw [hnone] at hu
      cases hu
    refine ⟨hledger t ht op hop.1 hmem, fun u hu _ => ?_⟩
    rcases hu with hl | hl
    · simp [hpending u (mem_values.2 ⟨_, hl⟩)]
    · rw [hnone] at hl
      cases hl
  · intro pre t post hsplit
    rw [horphans] at hsplit
    exact absurd hsplit (by simp [env])

end ChildFirst

end ZwsChain.TxsPool
