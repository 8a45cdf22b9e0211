import ZwsChain.TxsPool.Effects

/-!
# Well-formed pools

In every state of a run the tables by hash have each object under its own hash, and the objects
are those of transactions that were handed to the pool (`WellFormed.run`). The second is stated by
a function `σ` that tells what transactions of a hash spend.
-/

open List Option

namespace ZwsChain.TxsPool

open Lib.Keyed (lookup_of_insert)

variable {P : Primitives} {σ : Hash → Set OutPoint} {c : Config} {e : Env P}

/-- The transactions that a call hands to the pool. -/
def Op.txs : Op P → List Transaction
  | .addLocal tx => [tx]
  | .addRemote tx => [tx]
  | .addTxs txs => txs
  | .processTransaction tx => [tx]
  | .addSequenTxs txs => txs
  | .setPendingTxs _ _ txs => txs
  | .resetPendingTxs txs => txs
  | _ => []

namespace Pool

variable {s s' : Pool P} {t : TxPoolTransaction P}

/-- The objects of the pool are known by their hashes, and stored under them. -/
structure WellFormed (σ : Hash → Set OutPoint) (s : Pool P) : Prop where
  all : ∀ k u, s.all.lookup k = some u → u.hash = k ∧ u.spent = σ u.hash
  outpoints : ∀ op u, s.outpoints.lookup op = some u → u.spent = σ u.hash
  orphans : ∀ k u, s.orphans.lookup k = some u → u.hash = k ∧ u.spent = σ u.hash
  sequenTxs : ∀ u ∈ s.sequenTxs, u.spent = σ u.hash
  items : ∀ u ∈ s.items, u.spent = σ u.hash
  goroutines : ∀ task ∈ s.goroutines, ∀ u, task.object = some u → u.spent = σ u.hash

/-- A transaction whose objects spend what their hash says. -/
def Spends (P : Primitives) (σ : Hash → Set OutPoint) (tx : Transaction) : Prop :=
  ∀ t : TxPoolTransaction P, t.tx = tx → t.spent = σ t.hash

namespace WellFormed

lemma newTxPool (nextExpireScan : Nat) :
    WellFormed σ (TxsPool.newTxPool nextExpireScan : Pool P) where
  all _ _ hl := by simp [TxsPool.newTxPool] at hl
  outpoints _ _ hl := by simp [TxsPool.newTxPool] at hl
  orphans _ _ hl := by simp [TxsPool.newTxPool] at hl
  sequenTxs _ hmem := by simp [TxsPool.newTxPool] at hmem
  items _ hmem := by simp [TxsPool.newTxPool] at hmem
  goroutines _ hmem := by simp [TxsPool.newTxPool] at hmem

section

variable (h : WellFormed σ s)
include h

lemma keyed : s.Keyed :=
  ⟨fun k u hl => (h.all k u hl).1, fun k u hl => (h.orphans k u hl).1⟩

lemma known (ht : s.Has t) : t.spent = σ t.hash := by
  cases ht with
  | all hl => exact (h.all _ t hl).2
  | outpoint hl => exact h.outpoints _ t hl
  | orphan hl => exact (h.orphans _ t hl).2
  | sequen hmem => exact h.sequenTxs t hmem
  | item hmem => exact h.items t hmem
  | task hmem hobject => exact h.goroutines _ hmem t hobject

lemma evolves (he : Evolves s s') : WellFormed σ s' where
  all k u hl := ⟨(he.keyed h.keyed).all k u hl, h.known (he.has u (.all hl))⟩
  outpoints _ u hl := h.known (he.has u (.outpoint hl))
  orphans k u hl := ⟨(he.keyed h.keyed).orphans k u hl, h.known (he.has u (.orphan hl))⟩
  sequenTxs u hmem := h.known (he.has u (.sequen hmem))
  items u hmem := h.known (he.has u (.item hmem))
  goroutines _ hmem u hu := h.known (he.has u (.task hmem hu))

/-! ### One object -/

lemma set (t : TxPoolTransaction P) (f : Status → Status) :
    WellFormed σ (s.set t f) :=
  { h with }

lemma insertAll (ht : t.spent = σ t.hash) :
    WellFormed σ { s with all := s.all.insert t.hash t } :=
  { h with
    all := by
      intro k u hl
      rcases lookup_of_insert hl with ⟨rfl, rfl⟩ | ⟨-, hl⟩
      · exact ⟨rfl, ht⟩
      · exact h.all k u hl }

lemma insertOrphan (ht : t.spent = σ t.hash) :
    WellFormed σ { s with orphans := s.orphans.insert t.hash t } :=
  { h with
    orphans := by
      intro k u hl
      rcases lookup_of_insert hl with ⟨rfl, rfl⟩ | ⟨-, hl⟩
      · exact ⟨rfl, ht⟩
      · exact h.orphans k u hl }

lemma eraseOrphan (k : Hash) :
    WellFormed σ { s with orphans := s.orphans.erase k } :=
  h.evolves ((Evolves.refl s).eraseOrphan k)

lemma addCache (ht : t.spent = σ t.hash) : WellFormed σ (s.addCache t) :=
  { h with
    outpoints := by
      intro op u hl
      rcases lookup_foldl_insert.1 hl with ⟨-, rfl⟩ | ⟨-, hl⟩
      · exact ht
      · exact h.outpoints op u hl }

lemma go {task : Task P}
    (htask : ∀ t, task.object = some t → t.spent = σ t.hash) : WellFormed σ (s.go task) :=
  { h with
    goroutines := by
      intro task' hmem
      rcases mem_append.1 hmem with hmem | hmem
      · exact h.goroutines task' hmem
      · obtain rfl := mem_singleton.1 hmem
        exact htask }

section

variable (ht : t.spent = σ t.hash)
include ht

lemma store : WellFormed σ (s.store t) := by
  refine ((h.insertAll ht).addCache ht).go ?_
  rintro u ⟨⟩
  exact ht

lemma addOrphan :
    WellFormed σ (s.addOrphan c t) := by
  unfold Pool.addOrphan
  split
  · exact h
  · exact { (h.insertOrphan ht) with }

variable {index number : Nat} {unitHash : Hash} {tx : Transaction} {r : Except AddError Unit}
  {list : List (TxPoolTransaction P)}

lemma storePending
    (hs : s.storePending unitHash t number index = some s') : WellFormed σ s' := by
  obtain ⟨s₁, hs₁, rfl⟩ := map_eq_some_iff.1 hs
  refine insertAll ?_ ht
  exact (h.set t _).evolves ((Evolves.refl _).deletePoolUtxos hs₁)

lemma promoteTx
    (hs : s.promoteTx e unitHash t number index = some s') : WellFormed σ s' := by
  obtain ⟨s₁, hfee, hs⟩ := do_eq_some.1 hs
  have h₁ : WellFormed σ (s₁.setPriorityLvl e t) :=
    h.evolves ((Evolves.refl s).fillTxFee hfee).setPriorityLvl
  dsimp only at hs
  split at hs
  · exact h₁.storePending ht hs
  rename_i this hlook
  split at hs
  · have hstored := (h₁.evolves ((Evolves.refl _).restore hlook)).set this
      fun st => { st with pending := true, discarded := true }
    exact hstored.evolves ((Evolves.refl _).deletePoolUtxos hs)
  · exact h₁.storePending ht hs

end

/-! ### Calls -/

lemma of_txtoTxpoolTx (hs : s.txtoTxpoolTx e tx = some (t, s')) :
    WellFormed σ s' ∧ t.tx = tx :=
  ⟨h.evolves ((Evolves.refl s).txtoTxpoolTx hs), (txtoTxpoolTx_eq hs).1⟩

lemma add (ht : t.spent = σ t.hash) (hs : s.add c e t = some (r, s')) :
    WellFormed σ s' := by
  obtain rfl | rfl | ⟨addition, room, s₁, -, -, hroom, rfl⟩ := add_cases hs
  · exact h
  · exact h.addOrphan ht
  have h₁ : WellFormed σ s₁ :=
    h.evolves (((Evolves.refl s).setTxFee addition).setPriorityLvl.makeRoom hroom)
  split
  · exact h₁.store ht
  · exact h₁

lemma addNew (htx : Spends P σ tx) (hs : s' = s ∨ s.addNew c e tx = some (r, s')) :
    WellFormed σ s' := by
  obtain rfl | hs := hs
  · exact h
  obtain ⟨⟨t, s₁⟩, hnew, hs⟩ := do_eq_some.1 hs
  obtain ⟨h₁, ht⟩ := h.of_txtoTxpoolTx hnew
  exact h₁.add (htx t ht) hs

lemma processTransaction (htx : Spends P σ tx)
    (hs : s.processTransaction c e tx = some (r, s')) : WellFormed σ s' := by
  obtain rfl | ⟨t, s₁, hnew, hs⟩ := processTransaction_cases hs
  · exact h
  obtain ⟨h₁, ht⟩ := h.of_txtoTxpoolTx hnew
  obtain rfl | ⟨-, hs⟩ := hs
  · exact h₁
  · exact h₁.add (htx t ht) hs

lemma addSequenTx (htx : Spends P σ tx)
    (hs : s.addSequenTx e tx = some (r, s')) : WellFormed σ s' := by
  obtain ⟨t, s₁, hnew, hs⟩ := addSequenTx_cases hs
  obtain ⟨h₁, ht⟩ := h.of_txtoTxpoolTx hnew
  obtain rfl | ⟨addition, rfl | ⟨-, rfl⟩⟩ := hs
  · exact h₁
  · exact h₁.set t _
  have h₃ := (h₁.insertAll (htx t ht)).addCache (htx t ht)
  refine { h₃ with sequenTxs := ?_ }
  intro u hu
  rcases mem_append.1 hu with hu | hu
  · exact h₁.sequenTxs u hu
  · obtain rfl := mem_singleton.1 hu
    exact htx u ht

lemma setPendingTx (htx : Spends P σ tx)
    (hs : s.setPendingTx e unitHash tx number index = some s') : WellFormed σ s' := by
  obtain ⟨hash, -, hs⟩ := do_eq_some.1 hs
  split at hs
  · rename_i u hlook
    cases hs
    exact (h.insertAll (h.all hash u hlook).2).set u _
  obtain ⟨⟨t, s₁⟩, hnew, hs⟩ := do_eq_some.1 hs
  obtain ⟨h₁, ht⟩ := h.of_txtoTxpoolTx hnew
  exact (h₁.addCache (htx t ht)).promoteTx (htx t ht) hs

lemma resetPendingTx (htx : Spends P σ tx)
    (hs : s.resetPendingTx c e tx = some s') : WellFormed σ s' := by
  obtain ⟨hash, -, hs⟩ := do_eq_some.1 hs
  obtain ⟨⟨r, s₁⟩, hadd, rfl⟩ := map_eq_some_iff.1 hs
  exact (h.evolves ((Evolves.refl s).deleteTxByHash hash)).addNew htx (.inr hadd)

lemma scanOrphan (ht : t.spent = σ t.hash)
    (hs : s.scanOrphan c e t = some s') : WellFormed σ s' := by
  obtain ⟨s₁, hs₁, hs⟩ := do_eq_some.1 hs
  have h₁ : WellFormed σ s₁ := by
    split at hs₁
    · exact h.evolves ((Evolves.refl s).removeOrphan hs₁)
    · cases hs₁
      exact h
  obtain ⟨check, -, hs⟩ := do_eq_some.1 hs
  cases check with
  | known =>
    obtain ⟨⟨r, s₂⟩, hadd, rfl⟩ := map_eq_some_iff.1 hs
    exact h₁.add ht hadd
  | noMessages | orphan =>
    cases hs
    exact h₁

lemma limitNumberOrphans (hs : s.limitNumberOrphans c e = some s') :
    WellFormed σ s' := by
  obtain ⟨s₁, hscan, hs⟩ := do_eq_some.1 hs
  have h₁ : WellFormed σ s₁ := by
    unfold scanOrphans at hscan
    split at hscan
    · obtain ⟨s₂, hfold, rfl⟩ := map_eq_some_iff.1 hscan
      have h₂ : WellFormed σ s₂ := by
        refine Lib.foldlM_preserves ?_ h hfold
        intro t ht s' s'' h' hs
        obtain ⟨k, hl⟩ := mem_values.1 ((e.range_perm _).mem_iff.1 ht)
        exact h'.scanOrphan (h.orphans k t hl).2 hs
      exact { h₂ with }
    · cases hscan
      exact h
  split at hs
  · cases hs
    exact h₁
  split at hs
  · cases hs
    exact h₁
  · exact h₁.evolves ((Evolves.refl s₁).removeOrphan hs)

lemma takeOrphans {total total' : Nat} {orphans list' : List (TxPoolTransaction P)}
    (horphans : ∀ t ∈ orphans, t.spent = σ t.hash)
    (hlist : ∀ t ∈ list, t.spent = σ t.hash)
    (hs : Pool.takeOrphans e unitHash index orphans s list total = some (s', list', total')) :
    WellFormed σ s' ∧ ∀ t ∈ list', t.spent = σ t.hash := by
  induction orphans generalizing s list total with
  | nil =>
    cases hs
    exact ⟨h, hlist⟩
  | cons t orphans ih =>
    have ht : t.spent = σ t.hash := horphans t mem_cons_self
    have hrest : ∀ t ∈ orphans, t.spent = σ t.hash :=
      fun u hu => horphans u (mem_cons_of_mem _ hu)
    have hsnoc : ∀ u ∈ list ++ [t], u.spent = σ u.hash := by
      intro u hu
      rcases mem_append.1 hu with hu | hu
      · exact hlist u hu
      · obtain rfl := mem_singleton.1 hu
        exact ht
    unfold Pool.takeOrphans at hs
    split at hs
    · exact ih (h.eraseOrphan t.hash) hrest hlist hs
    obtain ⟨check, -, hs⟩ := do_eq_some.1 hs
    cases check with
    | known =>
      obtain ⟨size, -, hs⟩ := do_eq_some.1 hs
      have h₁ := (h.insertAll ht).eraseOrphan t.hash
      split at hs
      · cases hs
        exact ⟨{ h₁ with }, hsnoc⟩
      · refine ih ?_ hrest hsnoc hs
        exact { h₁ with }
    | noMessages | orphan => exact ih h hrest hlist hs

lemma setIndexes (list : List (TxPoolTransaction P)) :
    WellFormed σ (s.setIndexes list) :=
  h.evolves ((Evolves.refl s).setIndexes list)

lemma getSortedTxs {result : List (TxPoolTransaction P) × Nat}
    (hs : s.getSortedTxs e unitHash index = some (result, s')) : WellFormed σ s' := by
  obtain ⟨total, -, hs⟩ := do_eq_some.1 hs
  obtain ⟨⟨s₁, list₁, total₁⟩, hitems, hs⟩ := do_eq_some.1 hs
  obtain ⟨⟨s₂, list, total₂⟩, horphans, hs⟩ := do_eq_some.1 hs
  cases hs
  obtain ⟨h₁, hlist₁⟩ := (Evolves.emptyQueue s).takeItems (fun u hu => .sequen hu) hitems
  obtain ⟨h₂, hlist⟩ : WellFormed σ s₂ ∧ ∀ t ∈ list, t.spent = σ t.hash := by
    refine (h.evolves h₁).takeOrphans ?_ (fun t ht => h.known (hlist₁ t ht)) horphans
    intro t ht
    have hmem := (e.range_perm _).mem_iff.1 ((e.sortOrphans_perm _).mem_iff.1 ht)
    obtain ⟨k, hl⟩ := mem_values.1 hmem
    exact (h.orphans k t hl).2
  refine distinctTxs_preserves (fun _ _ h htask => h.go fun u hu => hlist u (htask u hu)) ?_
    (h₂.setIndexes list)
  rintro ⟨t, i⟩ hp
  exact mem_of_getElem? (mk_mem_zipIdx_iff_getElem?.1 hp)

/-- A call of transactions that spend what their hashes say. -/
lemma step {op : Op P} (htxs : ∀ tx ∈ op.txs, Spends P σ tx)
    (hs : s.step c e op = some s') : WellFormed σ s' := by
  cases op with
  | addLocal tx =>
    obtain ⟨⟨r, s₁⟩, hadd, rfl⟩ := map_eq_some_iff.1 hs
    exact h.addNew (htxs tx mem_cons_self) (addLocal_cases hadd)
  | addRemote tx =>
    obtain ⟨⟨r, s₁⟩, hadd, rfl⟩ := map_eq_some_iff.1 hs
    exact h.addNew (htxs tx mem_cons_self) (addRemote_cases hadd)
  | addTxs txs =>
    obtain ⟨⟨r, s₁⟩, hadd, rfl⟩ := map_eq_some_iff.1 hs
    obtain ⟨⟨ts, s₂⟩, hobjects, hadd⟩ := do_eq_some.1 hadd
    obtain ⟨he, hmem⟩ := Evolves.txsToTxpoolTxs hobjects
    refine addTxsLocked_preserves (fun t ht s r s' h hs => ?_) (fun s s' h hs => ?_)
      (h.evolves he) hadd
    · exact h.add (htxs t.tx (hmem t ht) t rfl) hs
    · exact h.evolves ((Evolves.refl _).promoteExecutables hs)
  | processTransaction tx =>
    obtain ⟨⟨r, s₁⟩, hadd, rfl⟩ := map_eq_some_iff.1 hs
    exact h.processTransaction (htxs tx mem_cons_self) hadd
  | addSequenTxs txs =>
    obtain ⟨⟨r, s₁⟩, hadd, rfl⟩ := map_eq_some_iff.1 hs
    exact addSequenTxs_preserves (fun tx htx s r s' h hs => h.addSequenTx (htxs tx htx) hs) h hadd
  | setPendingTxs unitHash num txs =>
    exact setPendingTxs_preserves (fun tx htx _ s s' h hs => h.setPendingTx (htxs tx htx) hs)
      (fun s h => h.evolves (Evolves.refl s).removed) h hs
  | resetPendingTxs txs =>
    refine Lib.foldlM_preserves ?_ h hs
    intro tx htx s s' h hs
    exact h.resetPendingTx (htxs tx (mem_of_mem_tail htx)) hs
  | limitNumberOrphans => exact h.limitNumberOrphans hs
  | getSortedTxs unitHash index =>
    obtain ⟨⟨result, s₁⟩, hsorted, rfl⟩ := map_eq_some_iff.1 hs
    exact h.getSortedTxs hsorted
  | stats =>
    obtain rfl := some.inj hs
    exact ⟨h.all, h.outpoints, h.orphans, nofun, h.items, h.goroutines⟩
  | goroutine i =>
    obtain he | ⟨unitHash, t, number, index, htask, hs⟩ := goroutine_cases hs
    · exact h.evolves he
    · exact (h.evolves (.leave s i)).promoteTx (h.goroutines _ (mem_of_getElem? htask) t rfl) hs
  | discardTxs | sendStoredTxs | removeTransaction | removeDoubleSpends | removeOrphan
  | deleteTxByHash | deleteTx => exact h.evolves (Evolves.of_removing hs trivial)

end

end WellFormed

/-! ### Runs -/

/-- Transactions with one hash spend the same outpoints. -/
def SameSpends (calls : List (Env P × Op P)) : Prop :=
  ∀ call ∈ calls, ∀ call' ∈ calls, ∀ t t' : TxPoolTransaction P,
    t.tx ∈ call.2.txs → t'.tx ∈ call'.2.txs → t.hash = t'.hash → t.spent = t'.spent

variable {calls : List (Env P × Op P)}

/-- What the hashes of the transactions of a run stand for. -/
lemma SameSpends.exists_spends (h : SameSpends calls) :
    ∃ σ : Hash → Set OutPoint, ∀ call ∈ calls, ∀ tx ∈ call.2.txs, Spends P σ tx := by
  refine ⟨fun k => {op | ∃ call ∈ calls, ∃ t : TxPoolTransaction P,
    t.tx ∈ call.2.txs ∧ t.hash = k ∧ op ∈ t.spent}, ?_⟩
  rintro call hcall tx htx t rfl
  ext op
  constructor
  · intro hop
    exact ⟨call, hcall, t, htx, rfl, hop⟩
  · rintro ⟨call', hcall', t', ht', hkey, hop⟩
    rwa [h call hcall call' hcall' t t' htx ht' hkey.symm]

/-- Every state of a run is well-formed. -/
theorem WellFormed.run {nextExpireScan : Nat}
    (htxs : ∀ call ∈ calls, ∀ tx ∈ call.2.txs, Spends P σ tx)
    (hrun : run c (TxsPool.newTxPool nextExpireScan) calls = some s) : WellFormed σ s := by
  refine Lib.foldlM_preserves ?_ (WellFormed.newTxPool nextExpireScan) hrun
  intro call hcall s s' h hs
  exact h.step (htxs call hcall) hs

end Pool

end ZwsChain.TxsPool
