import ZwsChain.Contracts.Deposit

/-!
# Deposits that can be got back

A deposit is got back by two calls: its owner applies to quit, and the foundation agrees. The second
call fails if the owner is not on the list of candidates of its role; a mediator has to be on the
list of jurors too. Leaving one of these two roles therefore locks the deposit of the other.

* `recoverable_iff`: in every state, deposits can be got back exactly if their owners are listed.
* `recoverable_run`: they are, after every run in which no address leaves the jury while it has a
  deposit as a mediator, or the other way round, and the foundation takes no owner of a deposit off
  a list by hand.
-/

open Option

namespace ZwsChain.Deposit

variable {α : Type} [DecidableEq α]

/-- The call by which the owner of a deposit applies to quit. -/
def Role.applyQuit : Role → Function α
  | .mediator => .mediatorApplyQuit
  | .jury => .juryApplyQuit
  | .developer => .devApplyQuit

namespace State

variable (s : State α)

/-- Every deposit is paid back to its owner by an application to quit and the foundation's
consent. -/
def Recoverable : Prop :=
  ∀ r a, s.balance r a ≠ 0 → ∀ quit consent : Call α,
    quit.function = r.applyQuit → quit.invokeAddr = a →
    consent.function = .handleForApplyQuit r a (some true) →
    consent.invokeAddr = consent.foundation →
    ∃ s₁ s₂, s.invoke quit = some (s₁, []) ∧ s₁.invoke consent = some (s₂, [(a, s.balance r a)])

/-- The owner of a deposit is a candidate, and a mediator is one for the jury as well. -/
def Listed : Prop :=
  ∀ r a, s.balance r a ≠ 0 →
    s.candidates r a = true ∧ (r = .mediator → s.candidates .jury a = true)

variable {s s' : State α}

lemma invoke_applyQuit {r : Role} {a : α} (hbalance : s.balance r a ≠ 0) {quit : Call α}
    (hf : quit.function = r.applyQuit) (ha : quit.invokeAddr = a) :
    ∃ s₁, s.invoke quit = some (s₁, []) ∧ s.SameDeposits s₁ := by
  subst ha
  cases r with
  | mediator =>
    cases hmd : s.records .mediator quit.invokeAddr with
    | none =>
      rw [balance, hmd] at hbalance
      exact absurd rfl hbalance
    | some md =>
      refine ⟨(s.applyQuitList quit .mediator).setRecord .mediator quit.invokeAddr
        (some { md with status := .quitting }), ?_, fun r a => ?_, rfl⟩
      · simp [invoke, hf, Role.applyQuit, mediatorApplyQuit, hmd]
      rw [balance_setRecord]
      split
      · rename_i heq
        rw [heq.1, heq.2, balance, hmd]
        rfl
      · rfl
  | jury =>
    exact ⟨s.applyQuitList quit .jury, by rw [invoke, hf, Role.applyQuit], fun _ _ => rfl, rfl⟩
  | developer =>
    exact ⟨s.applyQuitList quit .developer, by rw [invoke, hf, Role.applyQuit], fun _ _ => rfl, rfl⟩

lemma invoke_consent {r : Role} {a : α} (hbalance : s.balance r a ≠ 0) {consent : Call α}
    (hf : consent.function = .handleForApplyQuit r a (some true))
    (hfoundation : consent.invokeAddr = consent.foundation) :
    (∃ s', s.invoke consent = some (s', [(a, s.balance r a)])) ↔
      s.candidates r a = true ∧ (r = .mediator → s.candidates .jury a = true) := by
  rw [invoke, hf]
  simp only [hfoundation, if_true, handleForApplyQuit]
  cases hd : s.records r a with
  | none =>
    rw [balance, hd] at hbalance
    exact absurd rfl hbalance
  | some d =>
    have hd' : (s.setQuit a none).records r a = some d := hd
    have hb : s.balance r a = d.balance := by rw [balance, hd, elim_some]
    have hlists : (s.setQuit a none).candidates = s.candidates := rfl
    simp only [handleNode, hd', hb, hlists, do_some]
    rcases eq_or_ne r .mediator with rfl | hr
    · by_cases h : s.candidates .mediator a = true ∧ s.candidates .jury a = true
      · simp [h.1, h.2]
      · rw [if_pos rfl, if_neg h]
        refine iff_of_false ?_ fun h' => h ⟨h'.1, h'.2 rfl⟩
        rintro ⟨_, h'⟩
        cases h'
    by_cases h : s.candidates r a = true
    · simp [hr, h]
    · simp [hr, h]

/-- Deposits can be got back exactly if their owners are listed. -/
lemma recoverable_iff : s.Recoverable ↔ s.Listed := by
  constructor
  · intro h r a hbalance
    -- the two calls, made in any surroundings
    let quit : Call α := ⟨r.applyQuit, a, [], a, fun _ => 0⟩
    let consent : Call α := ⟨.handleForApplyQuit r a (some true), a, [], a, fun _ => 0⟩
    obtain ⟨s₁, s₂, hquit, hconsent⟩ := h r a hbalance quit consent rfl rfl rfl rfl
    obtain ⟨_, hquit', hsame⟩ := invoke_applyQuit hbalance (rfl : quit.function = _) rfl
    rw [hquit'] at hquit
    cases hquit
    rw [← hsame.balance] at hbalance hconsent
    rw [← hsame.candidates]
    exact (invoke_consent hbalance rfl rfl).1 ⟨s₂, hconsent⟩
  intro h r a hbalance quit consent hquit ha hconsent hfoundation
  obtain ⟨s₁, hs₁, hsame⟩ := invoke_applyQuit hbalance hquit ha
  have hlisted := h r a hbalance
  rw [← hsame.candidates] at hlisted
  rw [← hsame.balance] at hbalance ⊢
  obtain ⟨s₂, hs₂⟩ := (invoke_consent hbalance hconsent hfoundation).2 hlisted
  exact ⟨s₁, s₂, hs₁, hs₂⟩

/-- The entry leaves the owners of deposits on the lists they have to be on. -/
def KeepsListed (s : State α) : Entry α → Prop
  | .record r a d => d.elim 0 Record.balance ≠ 0 →
      s.candidates r a = true ∧ (r = .mediator → s.candidates .jury a = true)
  | .candidates r list => ∀ a, (s.balance r a ≠ 0 ∨ r = .jury ∧ s.balance .mediator a ≠ 0) →
      list a = true
  | _ => True

/-- A call that ends the role of an address in the jury or as a mediator finds no deposit in the
other of these roles, and the foundation sets no entry that takes the owner of a deposit off a
list. -/
structure Apart (s : State α) (c : Call α) : Prop where
  mediator : ∀ a, (s.invoke c).isSome → s.exits c = some (.mediator, a) → s.balance .jury a = 0
  jury : ∀ a, (s.invoke c).isSome → s.exits c = some (.jury, a) → s.balance .mediator a = 0
  edit : ∀ e, c.function = .updateKeyValue e → (s.invoke c).isSome → s.KeepsListed e

omit [DecidableEq α] in
lemma SameDeposits.listed (h : s.SameDeposits s') (hlisted : s.Listed) : s'.Listed := by
  intro r a hbalance
  rw [h.balance] at hbalance
  rw [h.candidates]
  exact hlisted r a hbalance

lemma Listed.setEntry {e : Entry α} (h : s.Listed) (he : s.KeepsListed e) :
    (s.setEntry e).Listed := by
  intro r' a hne
  cases e with
  | record r a' d =>
    rw [State.setEntry, balance_setRecord] at hne
    show s.candidates r' a = true ∧ (r' = .mediator → s.candidates .jury a = true)
    split at hne
    · rename_i heq
      rw [heq.1, heq.2]
      exact he hne
    · exact h r' a hne
  | candidates r list =>
    have hother : ∀ r₁, (r₁ = r → list a = true) → s.candidates r₁ a = true →
        (s.setEntry (.candidates r list)).candidates r₁ a = true := by
      intro r₁ hlist hlisted
      rcases eq_or_ne r₁ r with rfl | hr
      · simpa [State.setEntry] using hlist rfl
      · simpa [State.setEntry, hr] using hlisted
    obtain ⟨hlisted, hjury⟩ := h r' a hne
    refine ⟨hother r' (fun hr => he a (.inl (hr ▸ hne))) hlisted, fun hr => ?_⟩
    exact hother .jury (fun hj => he a (.inr ⟨hj.symm, hr ▸ hne⟩)) (hjury hr)
  | _ => exact h r' a hne

lemma Listed.effect {c : Call α} {out : List (α × UInt64)} (h : s.Listed) (hapart : s.Apart c)
    (hinvoke : s.invoke c = some (s', out)) (heffect : Effect s c s' out) : s'.Listed := by
  have hsome : (s.invoke c).isSome := by rw [hinvoke]; rfl
  cases heffect with
  | keep _ hsame => exact hsame.listed h
  | apply _ hsame =>
    refine hsame.listed fun r a hbalance => h r a fun hzero => hbalance ?_
    rw [balance_setRecord, hzero]
    split <;> rfl
  | reject _ _ _ =>
    intro r a hne
    rw [balance_setRecord] at hne
    split at hne
    · exact absurd rfl hne
    · exact h r a hne
  | @edit e he => exact h.setEntry (hapart.edit e he hsome)
  | @pay _ r _ _ _ hbalance hcandidates =>
    intro r' a hne
    rw [hbalance] at hne
    rw [hcandidates, hcandidates]
    split at hne
    · rename_i heq
      exact ⟨by simp [heq.1, heq.2], fun hr => by simp [heq.2, ← heq.1, hr]⟩
    · obtain ⟨hlisted, hjury⟩ := h r' a hne
      exact ⟨by rw [hlisted]; rfl, fun hr => by rw [hjury hr]; rfl⟩
  | @exit s₀ _ _ r addr payee _ hexits hsame hnode =>
    obtain ⟨hended, -⟩ := ended_of_handleNode hnode
    intro r' a hne
    rw [hended.balance, hsame.balance] at hne
    rw [hended.candidates, hended.candidates, hsame.candidates]
    split at hne
    · exact absurd rfl hne
    obtain ⟨hlisted, hjury⟩ := h r' a hne
    rcases eq_or_ne a addr with rfl | ha
    · -- the other roles of the address that leaves
      have hmediator : r = .mediator → r' ≠ .jury := by
        rintro rfl rfl
        exact hne (hapart.mediator a hsome hexits)
      have hjury' : r = .jury → r' ≠ .mediator := by
        rintro rfl rfl
        exact hne (hapart.jury a hsome hexits)
      cases r <;> cases r' <;> simp_all
    · simpa [ha, hlisted] using hjury

end State

/-- After every run in which no address leaves the jury while it has a deposit as a mediator, or the
other way round, and no entry is set that takes an owner off a list, every deposit can be got
back. -/
theorem recoverable_run {calls : List (Call α)} {b : Books α}
    (hapart : Lib.Along Books.step (fun b c => b.state.Apart c) Books.empty calls)
    (hrun : calls.foldlM Books.step Books.empty = some b) : b.state.Recoverable := by
  rw [State.recoverable_iff]
  refine Lib.Along.preserves (I := fun b => b.state.Listed) ?_ hapart
    (fun r a hne => absurd rfl hne) hrun
  intro c _ b b' hlisted hgood hstep
  rw [Books.step] at hstep
  split at hstep
  · obtain rfl := some.inj hstep
    exact hlisted
  rename_i s' out hinvoke
  obtain rfl := some.inj hstep
  exact hlisted.effect hgood hinvoke (State.worked_of_invoke hinvoke).effect

namespace TwoRoles

section

local instance neZero_two : NeZero 2 := ⟨two_ne_zero⟩

/-- An address becomes a mediator. -/
def join : List (Call (Fin 2)) :=
  [call (.applyBecomeMediator true) 0 [], call (.handleForApplyBecomeMediator 0 (some true)) 1 [],
    call .mediatorPayToDepositContract 0 [⟨50, true, true⟩]]

end

/-- The new mediator can get its deposit back. -/
theorem recoverable_join : ∃ b, join.foldlM Books.step Books.empty = some b ∧
    b.state.balance .mediator 0 = 50 ∧ b.state.Recoverable := by
  refine ⟨_, rfl, by decide, @recoverable_run _ _ join _ ?_ rfl⟩
  have hstays : ∀ (s : State (Fin 2)) c, s.exits c = none →
      (∀ e, c.function ≠ .updateKeyValue e) → s.Apart c := fun s c h he =>
    ⟨fun _ _ h' => absurd (h.symm.trans h') nofun, fun _ _ h' => absurd (h.symm.trans h') nofun,
      fun e h' => absurd h' (he e)⟩
  exact ⟨hstays _ _ rfl nofun, fun _ _ => ⟨hstays _ _ rfl nofun, fun _ _ => ⟨hstays _ _ rfl nofun,
    fun _ _ => trivial⟩⟩⟩

/-- The mediator leaves the jury, and its deposit as a mediator stays. -/
theorem deposit_locked : ∃ b, (join ++ [call .juryApplyQuit 0 [],
    call (.handleForApplyQuit .jury 0 (some true)) 1 []]).foldlM Books.step Books.empty = some b ∧
    b.state.balance .mediator 0 = 50 ∧ ¬ b.state.Recoverable := by
  refine ⟨_, rfl, by decide, fun h => ?_⟩
  rw [State.recoverable_iff] at h
  exact absurd ((h .mediator 0 (by decide)).2 rfl) (by decide)

end TwoRoles

end ZwsChain.Deposit
