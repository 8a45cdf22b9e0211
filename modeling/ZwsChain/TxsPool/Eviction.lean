import ZwsChain.Lib.SortedPick
import ZwsChain.TxsPool.PackingOrder

/-!
# What the pool evicts

`Push` sorts the priority list by falling priority and `Pop` takes the head of the list, so
`Discard` gives up the best transactions and `Underpriced` compares with the best one.

* `Pool.picksCheapest_iff`: when this makes no difference.

`promoteExecutables` counts down to the limit of the queue while it removes the same transaction
again and again.

* `Pool.queueLimit_iff`: when the limit is reached.
-/

open List

namespace ZwsChain.TxsPool

open Lib.SortedPick

namespace Pool

variable {P : Primitives} (s : Pool P)

/-- The objects of the priority list that are in the pool. -/
def live : List (TxPoolTransaction P) :=
  s.items.filter fun t => t.hash ∈ s.all

/-- The priority of an object. -/
def lvl (t : TxPoolTransaction P) : Rat :=
  (s.status t).priorityLvl

/-- `Discard` returns as many objects as asked for, none above one that stays, and `Underpriced`
says whether there are objects and the given one is above none of them. -/
structure PicksCheapest (count : Nat) (t : TxPoolTransaction P) : Prop where
  length : (s.discard count).1.length = count
  discard : ∀ x ∈ (s.discard count).1, ∀ y ∈ (s.discard count).2.live, s.lvl x ≤ s.lvl y
  underpriced : (s.underpriced t).1 = true ↔ s.live ≠ [] ∧ ∀ y ∈ s.live, s.lvl t ≤ s.lvl y

lemma discardFrom_eq (count : Nat) (items : List (TxPoolTransaction P)) (stales : Int) :
    (s.discardFrom count items stales).1 = (items.filter fun t => t.hash ∈ s.all).take count ∧
      (s.discardFrom count items stales).2.1.filter (fun t => t.hash ∈ s.all) =
        (items.filter fun t => t.hash ∈ s.all).drop count := by
  induction items generalizing count stales with
  | nil => cases count <;> exact ⟨rfl, rfl⟩
  | cons t items ih =>
    cases count with
    | zero => exact ⟨rfl, rfl⟩
    | succ count =>
      rw [discardFrom]
      split <;> rename_i ht
      · simpa [ht] using ih count stales
      · simpa [ht] using ih (count + 1) (stales - 1)

lemma head?_dropStale (items : List (TxPoolTransaction P)) (stales : Int) :
    (s.dropStale items stales).1.head? = (items.filter fun t => t.hash ∈ s.all).head? := by
  induction items generalizing stales with
  | nil => rfl
  | cons t items ih =>
    rw [dropStale]
    split <;> rename_i ht
    · simp [ht]
    · simpa [ht] using ih (stales - 1)

variable {s} {t : TxPoolTransaction P}

/-- `Put` sorts the list. -/
lemma falling_put (e : Env P) : Falling (s.put e t).lvl (s.put e t).items :=
  e.sortItems_sorted _ _

/-- `Removed` leaves the list, or sorts it anew. -/
lemma falling_removed (e : Env P) (hs : Falling s.lvl s.items) :
    Falling (s.removed e).lvl (s.removed e).items := by
  unfold removed
  split
  · exact hs
  · exact e.sortItems_sorted _ _

/-- `Underpriced` compares with the best object. -/
lemma underpriced_iff (hs : Falling s.lvl s.items) :
    (s.underpriced t).1 = true ↔ t.hash ∉ s.all ∧ ∃ y ∈ s.live, s.lvl t ≤ s.lvl y := by
  have hhead : _ = s.live.head? := head?_dropStale s s.items s.stales
  have hlive : Falling s.lvl s.live := hs.sublist filter_sublist
  unfold underpriced
  split <;> rename_i hin
  · simp [hin]
  rw [and_iff_right hin]
  dsimp only
  cases hitems : (s.dropStale s.items s.stales).1 with
  | nil => simp [head?_eq_none_iff.1 (hhead.symm.trans (congrArg head? hitems))]
  | cons best rest =>
    obtain ⟨others, hothers⟩ := head?_eq_some_iff.1 (hhead.symm.trans (congrArg head? hitems))
    rw [hothers] at hlive ⊢
    have hbest := (pairwise_cons.1 hlive).1
    simp only [ge_iff_le, decide_eq_true_eq, mem_cons, exists_eq_or_imp]
    exact ⟨.inl, fun h => h.elim id fun ⟨y, hy, hle⟩ => hle.trans (hbest y hy)⟩

/-- With a list that is sorted, the cheapest are picked iff `Discard` takes none or all, or all have
the same priority, and the given object is above all or none, or is known and above one. -/
theorem picksCheapest_iff (hs : Falling s.lvl s.items) (count : Nat) (t : TxPoolTransaction P) :
    s.PicksCheapest count t ↔ count ≤ s.live.length ∧
      (count = 0 ∨ s.live.length ≤ count ∨ ∀ x ∈ s.live, ∀ y ∈ s.live, s.lvl x = s.lvl y) ∧
      if t.hash ∈ s.all then s.live = [] ∨ ∃ y ∈ s.live, s.lvl y < s.lvl t
      else (∃ y ∈ s.live, s.lvl t ≤ s.lvl y) → ∀ y ∈ s.live, s.lvl t ≤ s.lvl y := by
  obtain ⟨hdrop, hrest⟩ := discardFrom_eq s count s.items s.stales
  have hdiscard : (s.discard count).1 = s.live.take count := hdrop
  have hstay : (s.discard count).2.live = s.live.drop count := hrest
  have hlive : Falling s.lvl s.live := hs.sublist filter_sublist
  have hprice : ((s.underpriced t).1 = true ↔ s.live ≠ [] ∧ ∀ y ∈ s.live, s.lvl t ≤ s.lvl y) ↔
      if t.hash ∈ s.all then s.live = [] ∨ ∃ y ∈ s.live, s.lvl y < s.lvl t
      else (∃ y ∈ s.live, s.lvl t ≤ s.lvl y) → ∀ y ∈ s.live, s.lvl t ≤ s.lvl y := by
    rw [underpriced_iff hs]
    split <;> rename_i hin
    · simp only [hin, not_true_eq_false, false_and, false_iff, not_and_or, not_not, not_forall,
        not_le, exists_prop]
    rw [and_iff_right hin]
    refine ⟨fun h hex => (h.1 hex).2, fun h => ⟨fun hex => ⟨?_, h hex⟩, fun ⟨hne, hall⟩ => ?_⟩⟩
    · obtain ⟨y, hy, -⟩ := hex
      exact ne_nil_of_mem hy
    · obtain ⟨y, hy⟩ := exists_mem_of_ne_nil _ hne
      exact ⟨y, hy, hall y hy⟩
  rw [← hprice, ← take_le_drop_iff hlive, ← hdiscard, ← hstay]
  refine ⟨fun h => ⟨?_, h.discard, h.underpriced⟩, fun ⟨hle, hd, hu⟩ => ⟨?_, hd, hu⟩⟩
  · have hlen := h.length
    rw [hdiscard, length_take] at hlen
    omega
  · rw [hdiscard, length_take, min_eq_left hle]

/-! ### The queue limit -/

/-- The number of transactions in the pool that are not pending. -/
def waiting (s : Pool P) : Nat :=
  ((values s.all).filter fun t => !(s.status t).pending).length

variable {c : Config} {e : Env P} {s' : Pool P} {o : Hash}

lemma waiting_erase (hlook : s.all.lookup o = some t) (ht : (s.status t).pending = false)
    (hall : s'.all = s.all.erase o) (hstatus : s'.status = s.status) :
    s'.waiting = s.waiting - 1 := by
  have hmem := AList.mem_lookup_iff.1 hlook
  obtain ⟨t', l₁, l₂, -, hentries, herase⟩ := exists_of_kerase (mem_keys_of_mem hmem)
  have ht' := AList.mem_lookup_iff.2 (hentries ▸ mem_append_right l₁ mem_cons_self)
  obtain rfl := Option.some.inj (hlook.symm.trans ht')
  have hentries' : (s.all.erase o).entries = l₁ ++ l₂ := herase
  simp [waiting, values, hall, hstatus, hentries, hentries', ht]

lemma removed_frame : (s.removed e).all = s.all ∧ (s.removed e).status = s.status := by
  unfold removed
  split <;> exact ⟨rfl, rfl⟩

/-- With one offender, the loop that counts down to the limit removes the same transaction again and
again. -/
lemma reduce_offender {n fuel : Nat} (hn : c.globalSlots < n) (hfuel : n < fuel) :
    ∃ s', reduce c e [o] fuel n s = some (↑c.globalSlots, s') ∧
      s'.all = s.all.erase o ∧ s'.status = s.status := by
  induction fuel generalizing n s with
  | zero => omega
  | succ fuel ih =>
    obtain ⟨hall, hstatus⟩ := removed_frame (s := { s with all := s.all.erase o }) (e := e)
    obtain ⟨m, rfl⟩ : ∃ m, n = m + 1 := ⟨n - 1, by omega⟩
    have hm : ((m + 1 : Nat) : Int) - [o].length = m := by simp
    rw [reduce, if_pos (by simp; omega), hm]
    dsimp only [foldl_cons, foldl_nil]
    rcases (Nat.lt_succ_iff.1 hn).eq_or_lt with rfl | hlt
    · obtain ⟨fuel, rfl⟩ : ∃ f, fuel = f + 1 := ⟨fuel - 1, by omega⟩
      refine ⟨_, ?_, hall, hstatus⟩
      rw [reduce, if_neg (by simp)]
    · obtain ⟨s', hs', hall', hstatus'⟩ := ih hlt (by omega)
      refine ⟨s', hs', ?_, hstatus'.trans hstatus⟩
      rw [hall', hall]
      exact AList.ext (kerase_of_notMem_keys fun h => (AList.mem_erase.1 h).1 rfl)

/-- At most one transaction is removed, whatever the limit. -/
lemma promoteExecutables_eq (hkeyed : s.Keyed) (c : Config) (e : Env P) :
    ∃ s', s.promoteExecutables c e = some s' ∧
      s'.waiting = if c.globalSlots < s.waiting then s.waiting - 1 else s.waiting := by
  unfold promoteExecutables
  have hperm := (e.range_perm (values s.all)).filter fun t => !(s.status t).pending
  have hlength : _ = s.waiting := hperm.length_eq
  generalize hpending : (e.range (values s.all)).filter _ = pendingTxs at hperm hlength
  dsimp only
  rw [hlength]
  split
  case isFalse => exact ⟨s, rfl, rfl⟩
  case isTrue hlimit =>
    have hoffender : ∀ o ∈ (pendingTxs.map TxPoolTransaction.hash).reverse, ∃ t,
        s.all.lookup o = some t ∧ (s.status t).pending = false := by
      intro o ho
      obtain ⟨t, ht, rfl⟩ := mem_map.1 (mem_reverse.1 ho)
      obtain ⟨hvalue, hnot⟩ := mem_filter.1 (hperm.mem_iff.1 ht)
      obtain ⟨k, hlook⟩ := mem_values.1 hvalue
      exact ⟨t, hkeyed.all k t hlook ▸ hlook, by simpa using hnot⟩
    have hspammers : (pendingTxs.map TxPoolTransaction.hash).reverse.length = s.waiting := by
      rw [length_reverse, length_map, hlength]
    generalize (pendingTxs.map TxPoolTransaction.hash).reverse = spammers at *
    match spammers with
    | [] => cases hspammers ▸ hlimit
    | o :: rest =>
      obtain ⟨t, hlook, ht⟩ := hoffender o mem_cons_self
      obtain ⟨s', hreduce, hall, hstatus⟩ :=
        reduce_offender (s := s) (e := e) (o := o) hlimit (Nat.lt_succ_self _)
      refine ⟨s', ?_, waiting_erase hlook ht hall hstatus⟩
      have hnonneg : ¬ (c.globalSlots : Int) < 0 := by omega
      match rest with
      | [] | [o₂] | o₂ :: _ :: _ => simp [equalize, hlimit, hreduce, hnonneg]

/-- The queue comes down to its limit, no further, exactly if it is above it by one at most. -/
theorem queueLimit_iff (hkeyed : s.Keyed) (c : Config) (e : Env P) :
    (∃ s', s.promoteExecutables c e = some s' ∧ s'.waiting = min s.waiting c.globalSlots) ↔
      s.waiting ≤ c.globalSlots + 1 := by
  obtain ⟨s', hs', hwaiting⟩ := promoteExecutables_eq hkeyed c e
  simp only [hs', Option.some.injEq, exists_eq_left', hwaiting]
  split <;> omega

end Pool

namespace ChildFirst

open SmallNode SmallPool Pool

/-- The child has the priority 2 and its parent 1. -/
def levels : List (Env primitives × Op primitives) :=
  both.map fun call => ({ env with level := fun t _ => t.id + 1 }, call.2)

/-- `Discard` of both picks the cheapest. -/
theorem cheapest_of_both : ∃ s t, run config (newTxPool 0) levels = some s ∧
    s.PicksCheapest 2 t := by
  have hrun : (run config (newTxPool 0) levels).any fun s =>
      s.items.Pairwise (fun x y => s.lvl y ≤ s.lvl x) ∧ s.live.length = 2 ∧
        ∃ t ∈ s.items, t.hash ∈ s.all ∧ ∃ y ∈ s.live, s.lvl y < s.lvl t := by
    decide +kernel
  obtain ⟨s, hs, h⟩ := (Option.any_eq_true _ _).1 hrun
  obtain ⟨hfalling, hlength, t, -, ht, hbelow⟩ := of_decide_eq_true h
  refine ⟨s, t, hs, (picksCheapest_iff hfalling 2 t).2 ⟨hlength.ge, .inr (.inl hlength.le), ?_⟩⟩
  rw [if_pos ht]
  exact .inr hbelow

/-- `Discard` of one gives up the child, which has the higher priority. -/
theorem best_discarded : ∃ s, run config (newTxPool 0) levels = some s ∧
    Falling s.lvl s.items ∧ 1 ≤ s.live.length ∧ ∀ t, ¬ s.PicksCheapest 1 t := by
  have hrun : (run config (newTxPool 0) levels).any fun s =>
      s.items.Pairwise (fun x y => s.lvl y ≤ s.lvl x) ∧ 1 ≤ s.live.length ∧
        ¬ ∀ x ∈ (s.discard 1).1, ∀ y ∈ (s.discard 1).2.live, s.lvl x ≤ s.lvl y := by
    decide +kernel
  obtain ⟨s, hs, h⟩ := (Option.any_eq_true _ _).1 hrun
  obtain ⟨hfalling, hlength, hnot⟩ := of_decide_eq_true h
  exact ⟨s, hs, hfalling, hlength, fun t hpicks => hnot hpicks.discard⟩

/-- The two wait. -/
lemma waiting_both : ∃ s, run config (newTxPool 0) both = some s ∧ s.Keyed ∧ s.waiting = 2 := by
  have hrun : (run config (newTxPool 0) both).any fun s => s.waiting = 2 := by decide +kernel
  obtain ⟨s, hs, hwaiting⟩ := (Option.any_eq_true _ _).1 hrun
  obtain ⟨σ, hσ⟩ := sameSpends_both.exists_spends
  exact ⟨s, hs, (WellFormed.run hσ hs).keyed, of_decide_eq_true hwaiting⟩

/-- With a limit of one, one of the two stays. -/
theorem limit_of_one : ∃ s s', run config (newTxPool 0) both = some s ∧
    s.promoteExecutables { config with globalSlots := 1 } env = some s' ∧ s'.waiting = 1 := by
  obtain ⟨s, hs, hkeyed, hwaiting⟩ := waiting_both
  obtain ⟨s', hs', hmin⟩ :=
    (queueLimit_iff hkeyed { config with globalSlots := 1 } env).2 hwaiting.le
  exact ⟨s, s', hs, hs', by rw [hmin, hwaiting]; rfl⟩

/-- With a limit of none, one of the two stays. -/
theorem limit_exceeded : ∃ s s', run config (newTxPool 0) both = some s ∧
    s.promoteExecutables { config with globalSlots := 0 } env = some s' ∧ s'.waiting = 1 := by
  obtain ⟨s, hs, hkeyed, hwaiting⟩ := waiting_both
  obtain ⟨s', hs', hleft⟩ := promoteExecutables_eq hkeyed { config with globalSlots := 0 } env
  exact ⟨s, s', hs, hs', by rw [hleft, hwaiting]; rfl⟩

end ChildFirst

end ZwsChain.TxsPool
