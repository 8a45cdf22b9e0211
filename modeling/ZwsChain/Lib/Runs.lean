import Mathlib

/-!
# Runs of a partial step function, and partial maps

`ops.foldlM step s` is the state after the operations `ops`, or `none` if one of them fails.

* `foldlM_invariant`: a property of the state and of the operations done so far that every step
  keeps holds at the end of the run.
* `foldlM_visits`: what every step reaches for its operation and the later steps keep holds for all
  operations at the end.
* `Along.preserves`: what the good operations keep, for a run whose operations are all good where
  they are made.
* `foldlM_isSome_iff`: a run succeeds exactly if each operation does after the earlier ones.
* `forall_prefix_iff`: if a step leads out of the invariant only when it is not `Good`, and a step
  that is not `Good` breaks the property `P`, then `P` holds in all states of a run exactly if all
  its steps are `Good`. `V` is what is known of the states of the run.

`do_eq_some` inverts a step of a `do` block. `l.mapM f` are the values of a partial function, or
`none` if one is missing (`forall₂_of_mapM`, `exists_mapM`); with errors, a loop that stops at the
first one (`mapM_eq_ok_iff`).
-/

open List Option

universe u v

namespace Option

variable {α β : Type u} {x : Option α} {f : α → Option β} {a : α} {b : β}

/-- A `do` block succeeds iff its first step does, and the rest with the value of that step. -/
lemma do_eq_some : x >>= f = some b ↔ ∃ a, x = some a ∧ f a = some b :=
  bind_eq_some_iff

lemma do_some : some a >>= f = f a :=
  rfl

end Option

namespace ZwsChain.Lib

variable {σ : Type u} {ι : Type v} {step : σ → ι → Option σ}

lemma foldlM_invariant {I : List ι → σ → Prop} {ops : List ι} {s s' : σ}
    (hstep : ∀ pre op s s', pre ++ [op] <+: ops → I pre s → step s op = some s' →
      I (pre ++ [op]) s')
    (hs : I [] s) (hrun : ops.foldlM step s = some s') : I ops s' := by
  suffices h : ∀ rest pre s, pre ++ rest = ops → I pre s → rest.foldlM step s = some s' →
      I ops s' from h ops [] s rfl hs hrun
  intro rest
  induction rest with
  | nil =>
    intro pre s hpre hI hrun
    obtain rfl : s = s' := some.inj hrun
    rw [append_nil] at hpre
    exact hpre ▸ hI
  | cons op rest ih =>
    intro pre s hpre hI hrun
    obtain ⟨s₁, hs₁, hrun⟩ := do_eq_some.1 hrun
    refine ih (pre ++ [op]) s₁ (by simpa using hpre) (hstep pre op s s₁ ?_ hI hs₁) hrun
    exact ⟨rest, by simpa using hpre⟩

variable {I : σ → Prop} {ops : List ι} {s s' : σ} {α β : Type}

/-- A property that every step of the run keeps. -/
lemma foldlM_preserves (hstep : ∀ op ∈ ops, ∀ s s', I s → step s op = some s' → I s') (hs : I s)
    (hrun : ops.foldlM step s = some s') : I s' := by
  refine foldlM_invariant (I := fun _ => I) ?_ hs hrun
  intro pre op s s' hpre hI hs'
  refine hstep op (hpre.subset ?_) s s' hI hs'
  simp

lemma foldlM_visits {Q : ι → σ → Prop}
    (hstep : ∀ op s s', I s → step s op = some s' → I s' ∧ Q op s' ∧ ∀ op', Q op' s → Q op' s')
    (hs : I s) (hrun : ops.foldlM step s = some s') : I s' ∧ ∀ op ∈ ops, Q op s' := by
  refine foldlM_invariant (I := fun pre s => I s ∧ ∀ op ∈ pre, Q op s) ?_ ⟨hs, by simp⟩ hrun
  rintro pre op s s' - ⟨hI, hpre⟩ hs'
  obtain ⟨hI', hop, hkeep⟩ := hstep op s s' hI hs'
  refine ⟨hI', fun op' hop' => ?_⟩
  rcases mem_append.1 hop' with hold | hnew
  · exact hkeep op' (hpre op' hold)
  · exact mem_singleton.1 hnew ▸ hop

/-- Every operation of the run is good in the state before it. -/
def Along (step : σ → ι → Option σ) (good : σ → ι → Prop) : σ → List ι → Prop
  | _, [] => True
  | s, op :: ops => good s op ∧ ∀ s', step s op = some s' → Along step good s' ops

/-- What the good operations preserve holds at the end of a run of them. -/
lemma Along.preserves {good : σ → ι → Prop}
    (hstep : ∀ op ∈ ops, ∀ s s', I s → good s op → step s op = some s' → I s')
    (hgood : Along step good s ops) (hs : I s) (hrun : ops.foldlM step s = some s') : I s' := by
  induction ops generalizing s with
  | nil =>
    cases hrun
    exact hs
  | cons op ops ih =>
    obtain ⟨s₁, hs₁, hrun⟩ := do_eq_some.1 hrun
    have hI := hstep op mem_cons_self s s₁ hs hgood.1 hs₁
    exact ih (fun op' hop' => hstep op' (mem_cons_of_mem _ hop')) (hgood.2 s₁ hs₁) hI hrun

lemma foldlM_concat_eq_some {op : ι} :
    (ops ++ [op]).foldlM step s = some s' ↔
      ∃ s₁, ops.foldlM step s = some s₁ ∧ step s₁ op = some s' := by
  rw [foldlM_append, do_eq_some]
  simp

/-- A run succeeds exactly if each operation succeeds in the state after the earlier ones. -/
lemma foldlM_isSome_iff :
    (ops.foldlM step s).isSome ↔
      ∀ pre op, pre ++ [op] <+: ops → ∀ s₁, pre.foldlM step s = some s₁ → (step s₁ op).isSome := by
  constructor
  · rintro hsome pre op ⟨rest, rfl⟩ s₁ hs₁
    rw [foldlM_append, foldlM_append, hs₁] at hsome
    cases hstep : step s₁ op with
    | none => simp [hstep] at hsome
    | some s₂ => rfl
  · intro hall
    induction ops using List.reverseRecOn with
    | nil => rfl
    | append_singleton ops op ih =>
      have hops : ops <+: ops ++ [op] := ⟨[op], rfl⟩
      obtain ⟨s₁, hs₁⟩ := isSome_iff_exists.1 (ih fun pre o hpre => hall pre o (hpre.trans hops))
      obtain ⟨s₂, hs₂⟩ := isSome_iff_exists.1 (hall ops op prefix_rfl s₁ hs₁)
      exact isSome_of_eq_some (foldlM_concat_eq_some.2 ⟨s₁, hs₁, hs₂⟩)

/-- A run is one of every step function that agrees on the successful steps. -/
lemma foldlM_mono {step' : σ → ι → Option σ}
    (hstep : ∀ op s s', step s op = some s' → step' s op = some s')
    (hrun : ops.foldlM step s = some s') : ops.foldlM step' s = some s' := by
  induction ops generalizing s with
  | nil => exact hrun
  | cons op ops ih =>
    rw [foldlM_cons] at hrun ⊢
    obtain ⟨s₁, hs₁, hrun⟩ := do_eq_some.1 hrun
    rw [hstep op s s₁ hs₁]
    exact ih hrun

lemma forall_prefix_iff {P V : σ → Prop} {Good : σ → ι → Prop}
    (hV : ∀ pre, pre <+: ops → ∀ s', pre.foldlM step s = some s' → V s') (hP : ∀ s, I s → P s)
    (hgood : ∀ op ∈ ops, ∀ s s', I s → step s op = some s' → V s' → Good s op → I s')
    (hbad : ∀ op ∈ ops, ∀ s s', I s → step s op = some s' → V s' → P s' → Good s op) (hs : I s) :
    (∀ pre, pre <+: ops → ∀ s', pre.foldlM step s = some s' → P s') ↔
      ∀ pre op, pre ++ [op] <+: ops → ∀ s₁ s', pre.foldlM step s = some s₁ →
        step s₁ op = some s' → Good s₁ op := by
  have hmem : ∀ {pre op}, pre ++ [op] <+: ops → op ∈ ops := fun hpre => hpre.subset (by simp)
  have hinit : ∀ {pre op}, pre ++ [op] <+: ops → pre <+: ops := fun hpre =>
    IsPrefix.trans ⟨_, rfl⟩ hpre
  -- as long as the invariant holds, it is enough that it makes the steps good
  have hinv : (∀ pre op, pre ++ [op] <+: ops → ∀ s₁ s', pre.foldlM step s = some s₁ →
      step s₁ op = some s' → I s₁ → Good s₁ op) →
      ∀ pre, pre <+: ops → ∀ s', pre.foldlM step s = some s' → I s' := by
    intro hall pre
    induction pre using List.reverseRecOn with
    | nil =>
      intro _ s' hs'
      cases hs'
      exact hs
    | append_singleton pre op ih =>
      intro hpre s' hrun
      obtain ⟨s₁, hs₁, hs'⟩ := foldlM_concat_eq_some.1 hrun
      have hI := ih (hinit hpre) s₁ hs₁
      have hG := hall pre op hpre s₁ s' hs₁ hs' hI
      exact hgood op (hmem hpre) s₁ s' hI hs' (hV _ hpre s' hrun) hG
  constructor
  · intro hall
    have hgood' : ∀ pre op, pre ++ [op] <+: ops → ∀ s₁ s', pre.foldlM step s = some s₁ →
        step s₁ op = some s' → I s₁ → Good s₁ op := by
      intro pre op hpre s₁ s' hs₁ hs' hI
      have hrun := foldlM_concat_eq_some.2 ⟨s₁, hs₁, hs'⟩
      exact hbad op (hmem hpre) s₁ s' hI hs' (hV _ hpre s' hrun) (hall _ hpre s' hrun)
    intro pre op hpre s₁ s' hs₁ hs'
    exact hgood' pre op hpre s₁ s' hs₁ hs' (hinv hgood' pre (hinit hpre) s₁ hs₁)
  · intro hall pre hpre s' hs'
    refine hP s' (hinv ?_ pre hpre s' hs')
    exact fun pre op hpre s₁ s' hs₁ hs' _ => hall pre op hpre s₁ s' hs₁ hs'

/-! ### Partial maps -/

variable {f : α → Option β} {r : α → β → Prop} {l : List α} {l' : List β}

lemma forall₂_of_mapM (h : l.mapM f = some l') : List.Forall₂ (f · = some ·) l l' := by
  induction l generalizing l' with
  | nil =>
    cases h
    exact .nil
  | cons a l ih =>
    simp only [mapM_cons, do_eq_some, Option.pure_def, some.injEq] at h
    obtain ⟨b, hb, bs, hbs, rfl⟩ := h
    exact .cons hb (ih hbs)

lemma getElem?_of_forall₂ (h : List.Forall₂ (f · = some ·) l l') (i : Nat) :
    l'[i]? = l[i]?.bind f := by
  induction h generalizing i with
  | nil => rfl
  | cons hab _ ih =>
    cases i with
    | zero => simpa using hab.symm
    | succ i => simpa using ih i

lemma exists_of_forall₂ (h : List.Forall₂ r l l') {x : α} (hx : x ∈ l) : ∃ y ∈ l', r x y := by
  induction h with
  | nil => cases hx
  | cons hab _ ih =>
    rcases mem_cons.1 hx with rfl | hx
    · exact ⟨_, mem_cons_self, hab⟩
    · obtain ⟨y, hy, hr⟩ := ih hx
      exact ⟨y, mem_cons_of_mem _ hy, hr⟩

lemma exists_forall₂ (h : ∀ x ∈ l, ∃ y, r x y) : ∃ l', List.Forall₂ r l l' := by
  induction l with
  | nil => exact ⟨[], .nil⟩
  | cons x l ih =>
    obtain ⟨y, hy⟩ := h x mem_cons_self
    obtain ⟨ys, hys⟩ := ih fun x' hx' => h x' (mem_cons_of_mem x hx')
    exact ⟨y :: ys, .cons hy hys⟩

lemma exists_of_mapM (h : l.mapM f = some l') {x : α} (hx : x ∈ l) : ∃ y ∈ l', f x = some y :=
  exists_of_forall₂ (forall₂_of_mapM h) hx

lemma exists_of_mem_mapM (h : l.mapM f = some l') {y : β} (hy : y ∈ l') : ∃ x ∈ l, f x = some y :=
  exists_of_forall₂ (forall₂_of_mapM h).flip hy

lemma exists_mapM (h : ∀ x ∈ l, ∃ y, f x = some y) : ∃ ys, l.mapM f = some ys := by
  induction l with
  | nil => exact ⟨[], rfl⟩
  | cons x l ih =>
    obtain ⟨y, hy⟩ := h x mem_cons_self
    obtain ⟨ys, hys⟩ := ih fun x' hx' => h x' (mem_cons_of_mem x hx')
    exact ⟨y :: ys, by simp [mapM_cons, hy, hys]⟩

/-- A loop that may fail succeeds iff each of its steps does. -/
lemma mapM_eq_ok_iff {ε : Type} {f : α → Except ε β} :
    l.mapM f = .ok l' ↔ List.Forall₂ (f · = .ok ·) l l' := by
  induction l generalizing l' with
  | nil => cases l' <;> simp [pure, Except.pure]
  | cons x l ih =>
    cases hx : f x with
    | error e => cases l' <;> simp [hx, bind, Except.bind]
    | ok y =>
      cases hl : l.mapM f with
      | error e => cases l' <;> simp [hx, hl, ← ih, bind, Except.bind]
      | ok ys => cases l' <;> simp [hx, hl, ← ih, bind, Except.bind, pure, Except.pure]

end ZwsChain.Lib
