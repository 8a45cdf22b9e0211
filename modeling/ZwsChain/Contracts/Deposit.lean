import ZwsChain.Lib.Ledger
import ZwsChain.Lib.Runs

/-!
# The deposit contract

`contracts/syscontract/deposit`: mediators, jurors and developers pay deposits, ask to quit, and
get them back when the foundation agrees, which may also forfeit them. There is a record for each
role of an address, and a list of candidates for each role. A mediator is put on the list of jurors
as well, with a juror record of its own that should stay empty.

A call that returns an error or panics is `none`: it has no effect.

* `Books.balanced_run`: records add up to what has been paid in and not out, as long as an
  application for mediator finds no juror deposit, and payments are single outputs that do not wrap.
* `TwoRoles.deposit_lost`: the application of a juror to become a mediator empties its record.
-/

open List Option Function

namespace ZwsChain.Deposit

/-! ### State -/

/-- Source: `dag/modules/deposit.go`, `Mediator`, `Jury`, `Developer` -/
inductive Role where
  | mediator
  | jury
  | developer
  deriving DecidableEq

/-- Source: `dag/modules/deposit.go`, `Apply`, `Agree`, `Quitting`, `Quited` -/
inductive Status where
  | apply
  | agree
  | quitting
  | quited
  deriving DecidableEq

/-- A deposit. Only that of a mediator has a status.
Source: `dag/modules/deposit.go`, `MediatorDeposit`, `JurorDeposit`, `DepositBalance` -/
structure Record where
  balance : UInt64
  status : Status := .agree

/-- What the contract stores; a missing list is an empty one. -/
structure State (α : Type) where
  records : Role → α → Option Record
  /-- `MediatorList`, `JuryList`, `DeveloperList`. -/
  candidates : Role → α → Bool
  /-- `ListForQuit`. -/
  quits : α → Option Role
  /-- `ListForForfeiture`: the role, and whether its text is exactly the name of the role. -/
  forfeitures : α → Option (Role × Bool)

/-- An output of the calling transaction.
Source: `dag/modules/message.go`, `InvokeTokens` -/
structure InvokeTokens where
  amount : UInt64
  /-- The output is in the gas token. -/
  gas : Bool
  /-- The output goes to the deposit contract. -/
  toContract : Bool

/-- What the foundation can put under a key of the contract: a record, none after a deletion, a
list, or something that the modelled functions do not read. A value is in the format of its key:
after another one the functions that read the key return errors.
Source: `deposit/deposit.go`, `UpdateKeyValue` and `DeteleKey` -/
inductive Entry (α : Type) where
  | record (r : Role) (a : α) (d : Option Record)
  | candidates (r : Role) (list : α → Bool)
  | quits (list : α → Option Role)
  | forfeitures (list : α → Option (Role × Bool))
  | other

/-- The functions of the contract. Of arguments there is what they are checked for; an answer of the
foundation is `none` if it is neither "ok" nor "no". -/
inductive Function (α : Type) where
  | applyBecomeMediator (argsOk : Bool)
  | mediatorPayToDepositContract
  | mediatorApplyQuit
  | juryPayToDepositContract (argsOk extraOk : Bool)
  | juryApplyQuit
  | updateJuryInfo (argsOk hasReward : Bool)
  | developerPayToDepositContract
  | devApplyQuit
  | handleForApplyBecomeMediator (addr : α) (ok : Option Bool)
  | handleForApplyQuit (role : Role) (addr : α) (ok : Option Bool)
  | applyForForfeitureDeposit (addr : α) (role : Role) (exact : Bool)
  | handleForForfeitureApplication (addr : α) (ok : Option Bool)
  | updateKeyValue (entry : Entry α)

/-- An entry that is no application with a deposit. -/
def Entry.Fresh {α : Type} : Entry α → Prop
  | .record .mediator _ (some d) => d.status = .apply → d.balance = 0
  | _ => True

/-- A call with its surroundings. -/
structure Call (α : Type) where
  function : Function α
  invokeAddr : α
  invokeTokens : List InvokeTokens
  /-- `FoundationAddress`. -/
  foundation : α
  /-- `DepositAmountForMediator`, `DepositAmountForJury`, `DepositAmountForDeveloper`. -/
  depositAmount : Role → UInt64

open Call

variable {α : Type} [DecidableEq α]

namespace State

/-- What is recorded for a role of an address. -/
def balance (s : State α) (r : Role) (a : α) : UInt64 :=
  (s.records r a).elim 0 Record.balance

variable (s : State α)

/-- Replaces a record. -/
def setRecord (r : Role) (a : α) (d : Option Record) : State α :=
  { s with records := update s.records r (update (s.records r) a d) }

/-- Source: `deposit/common.go`, `addCandaditeList` and `moveCandidate` -/
def setCandidate (r : Role) (a : α) (b : Bool) : State α :=
  { s with candidates := update s.candidates r (update (s.candidates r) a b) }

def setQuit (a : α) (r : Option Role) : State α :=
  { s with quits := update s.quits a r }

def setForfeiture (a : α) (f : Option (Role × Bool)) : State α :=
  { s with forfeitures := update s.forfeitures a f }

/-- Source: `deposit/deposit.go`, `UpdateKeyValue` and `DeteleKey` -/
def setEntry : Entry α → State α
  | .record r a d => s.setRecord r a d
  | .candidates r list => { s with candidates := update s.candidates r list }
  | .quits list => { s with quits := list }
  | .forfeitures list => { s with forfeitures := list }
  | .other => s

end State

/-! ### Calls -/

/-- The first output that goes to the contract; one in another token is an error.
Source: `deposit/common.go`, `isContainDepositContractAddr` -/
def isContainDepositContractAddr (tokens : List InvokeTokens) : Option UInt64 :=
  match tokens.find? InvokeTokens.toContract with
  | none => none
  | some t => if t.gas then some t.amount else none

/-- A state, and what is paid out to whom. -/
abbrev Outcome (α : Type) := State α × List (α × UInt64)

namespace State

variable (s : State α) (c : Call α)

/-- An application makes an empty record as mediator and another as juror.
Source: `deposit/mediator.go`, `applyBecomeMediator` -/
def applyBecomeMediator : Option (Outcome α) :=
  match s.records .mediator c.invokeAddr with
  | some _ => none
  | none => some ((s.setRecord .mediator c.invokeAddr (some ⟨0, .apply⟩)).setRecord .jury
      c.invokeAddr (some ⟨0, .agree⟩), [])

/-- Source: `deposit/mediator.go`, `mediatorPayToDepositContract` -/
def mediatorPayToDepositContract : Option (Outcome α) := do
  let amount ← isContainDepositContractAddr c.invokeTokens
  let md ← s.records .mediator c.invokeAddr
  if md.status ≠ .quited ∧ md.status ≠ .agree then none
  else
    let all := amount + md.balance
    if all ≠ c.depositAmount .mediator then none
    else some (((s.setCandidate .mediator c.invokeAddr true).setRecord .mediator c.invokeAddr
      (some ⟨all, .agree⟩)).setCandidate .jury c.invokeAddr true, [])

variable (r : Role)

/-- A first payment, or one that completes a deposit.
Source: `deposit/jury.go`, `juryPayToDepositContract`; `deposit/common.go`,
`nodePayToDepositContract` -/
def nodePayToDepositContract (extraOk : Bool) : Option (Outcome α) := do
  let amount ← isContainDepositContractAddr c.invokeTokens
  let (ok, all) := match s.records r c.invokeAddr with
    | none => (extraOk, amount)
    | some d => (true, d.balance + amount)
  if ok ∧ all = c.depositAmount r then
    some ((s.setCandidate r c.invokeAddr true).setRecord r c.invokeAddr (some ⟨all, .agree⟩), [])
  else none

/-- Source: `deposit/common.go`, `applyQuitList` -/
def applyQuitList : State α :=
  s.setQuit c.invokeAddr (some r)

/-- Source: `deposit/mediator.go`, `mediatorApplyQuit` -/
def mediatorApplyQuit : Option (Outcome α) := do
  let md ← s.records .mediator c.invokeAddr
  some ((s.applyQuitList c .mediator).setRecord .mediator c.invokeAddr
    (some { md with status := .quitting }), [])

/-- A juror without a record that changes nothing has an empty record saved.
Source: `deposit/jury.go`, `updateJuryInfo` -/
def updateJuryInfo (hasReward : Bool) : Option (Outcome α) :=
  match s.records .jury c.invokeAddr with
  | some _ => some (s, [])
  | none => if hasReward then none else some (s.setRecord .jury c.invokeAddr (some ⟨0, .agree⟩), [])

variable (addr : α)

/-- Source: `deposit/foundation.go`, `handleForApplyBecomeMediator` -/
def handleForApplyBecomeMediator (ok : Option Bool) : Option (Outcome α) := do
  let md ← s.records .mediator addr
  if md.status ≠ .apply then none
  else match ok with
    | some false => some (s.setRecord .mediator addr none, [])
    | some true => some (s.setRecord .mediator addr (some { md with status := .agree }), [])
    | none => none

/-- A role ends and its deposit is paid to `payee`. A mediator leaves both lists and keeps an empty
record; the record of others goes.
Source: `deposit/mediator.go`, `handleMediator`; `deposit/common.go`, `handleNode`;
`deposit/foundation.go`, `handleMediatorForfeitureDeposit`, `handleJuryForfeitureDeposit`,
`handleDevForfeitureDeposit` -/
def handleNode (addr payee : α) : Option (Outcome α) := do
  let d ← s.records r addr
  if r = .mediator then
    if s.candidates .mediator addr ∧ s.candidates .jury addr then
      some (((s.setCandidate .mediator addr false).setCandidate .jury addr false).setRecord
        .mediator addr (some ⟨0, .quited⟩), [(payee, d.balance)])
    else none
  else if s.candidates r addr then
    some ((s.setCandidate r addr false).setRecord r addr none, [(payee, d.balance)])
  else none

/-- Source: `deposit/foundation.go`, `handleForApplyQuitNode` and `handleForApplyQuitMediator` -/
def handleForApplyQuit : Option Bool → Option (Outcome α)
  | some true => (s.setQuit addr none).handleNode r addr addr
  | some false => some (s.setQuit addr none, [])
  | none => none

/-- Source: `deposit/common.go`, `applyForForfeitureDeposit` -/
def applyForForfeitureDeposit (r : Role) (exact : Bool) : Option (Outcome α) :=
  if s.forfeitures addr = none ∧ s.candidates r addr then
    some (s.setForfeiture addr (some (r, exact)), [])
  else none

/-- Source: `deposit/foundation.go`, `handleForForfeitureApplication` -/
def handleForForfeitureApplication (ok : Option Bool) : Option (Outcome α) := do
  let (r, exact) ← s.forfeitures addr
  match ok with
  | some true =>
    if exact then (s.setForfeiture addr none).handleNode r addr c.invokeAddr else none
  | some false => some (s.setForfeiture addr none, [])
  | none => none

/-- Source: `deposit/deposit.go`, `Invoke` -/
def invoke : Option (Outcome α) :=
  match c.function with
  | .applyBecomeMediator argsOk => if argsOk then s.applyBecomeMediator c else none
  | .mediatorPayToDepositContract => s.mediatorPayToDepositContract c
  | .mediatorApplyQuit => s.mediatorApplyQuit c
  | .juryPayToDepositContract argsOk extraOk =>
    if argsOk then s.nodePayToDepositContract c .jury extraOk else none
  | .juryApplyQuit => some (s.applyQuitList c .jury, [])
  | .updateJuryInfo argsOk hasReward => if argsOk then s.updateJuryInfo c hasReward else none
  | .developerPayToDepositContract => s.nodePayToDepositContract c .developer true
  | .devApplyQuit => some (s.applyQuitList c .developer, [])
  | .handleForApplyBecomeMediator addr ok =>
    if c.invokeAddr = c.foundation then s.handleForApplyBecomeMediator addr ok else none
  | .handleForApplyQuit r addr ok =>
    if c.invokeAddr = c.foundation then s.handleForApplyQuit r addr ok else none
  | .applyForForfeitureDeposit addr r exact => s.applyForForfeitureDeposit addr r exact
  | .handleForForfeitureApplication addr ok =>
    if c.invokeAddr = c.foundation then s.handleForForfeitureApplication c addr ok else none
  | .updateKeyValue entry =>
    if c.invokeAddr = c.foundation then some (s.setEntry entry, []) else none

/-! ### What a call does -/

lemma balance_setRecord (r r' : Role) (a a' : α) (d : Option Record) :
    (s.setRecord r a d).balance r' a' =
      if r' = r ∧ a' = a then d.elim 0 Record.balance else s.balance r' a' := by
  rw [balance, setRecord]
  rcases eq_or_ne r' r with rfl | hr
  · rcases eq_or_ne a' a with rfl | ha
    · simp
    · simp [ha, balance]
  · simp [hr, balance]

@[simp] lemma balance_setCandidate (r r' : Role) (a a' : α) (b : Bool) :
    (s.setCandidate r a b).balance r' a' = s.balance r' a' := rfl

lemma candidates_setCandidate (r r' : Role) (a a' : α) (b : Bool) :
    (s.setCandidate r a b).candidates r' a' =
      if r' = r ∧ a' = a then b else s.candidates r' a' := by
  rw [setCandidate]
  rcases eq_or_ne r' r with rfl | hr
  · rcases eq_or_ne a' a with rfl | ha
    · simp
    · simp [ha]
  · simp [hr]

/-- An application that has not been answered has no deposit. -/
def Fresh (s : State α) : Prop :=
  ∀ a d, s.records .mediator a = some d → d.status = .apply → d.balance = 0

lemma Fresh.setRecord {s : State α} (h : s.Fresh) (r : Role) (a : α) {d : Option Record}
    (hd : ∀ d', d = some d' → d'.status = .apply → d'.balance = 0) : (s.setRecord r a d).Fresh := by
  intro a' d' hrecord
  rcases eq_or_ne r .mediator with rfl | hr
  · rcases eq_or_ne a' a with rfl | ha
    · exact hd d' (by simpa [State.setRecord] using hrecord)
    · exact h a' d' (by simpa [State.setRecord, ha] using hrecord)
  · exact h a' d' (by simpa [State.setRecord, hr.symm] using hrecord)

/-- The deposits and the candidates are those of another state. -/
structure SameDeposits (s s' : State α) : Prop where
  balance : ∀ r a, s'.balance r a = s.balance r a
  candidates : s'.candidates = s.candidates

/-- The role and address that a call removes. -/
def exits : Option (Role × α) :=
  match c.function with
  | .handleForApplyQuit r addr (some true) => some (r, addr)
  | .handleForForfeitureApplication addr (some true) =>
    (s.forfeitures addr).map fun (r, _) => (r, addr)
  | _ => none

end State

/-- The role that a call pays a deposit for. -/
def Call.pays (c : Call α) : Option Role :=
  match c.function with
  | .mediatorPayToDepositContract => some .mediator
  | .juryPayToDepositContract _ _ => some .jury
  | .developerPayToDepositContract => some .developer
  | _ => none

/-- A call that succeeds leaves the deposits, empties the juror record of an applicant, drops the
record of one that is turned down, pays a deposit in, pays one out, or sets an entry. -/
inductive Effect (s : State α) (c : Call α) : State α → List (α × UInt64) → Prop
  | keep {s' : State α} (hpays : c.pays = none) (h : s.SameDeposits s') : Effect s c s' []
  | apply {s' : State α} (happly : c.function = .applyBecomeMediator true)
      (h : (s.setRecord .jury c.invokeAddr none).SameDeposits s') : Effect s c s' []
  | reject {addr : α} {md : Record} (hpays : c.pays = none)
      (hmd : s.records .mediator addr = some md) (hstatus : md.status = .apply) :
      Effect s c (s.setRecord .mediator addr none) []
  | edit {e : Entry α} (hedit : c.function = .updateKeyValue e) : Effect s c (s.setEntry e) []
  | pay {s' : State α} {r : Role} {amount : UInt64} (hpays : c.pays = some r)
      (hamount : isContainDepositContractAddr c.invokeTokens = some amount)
      (hbalance : ∀ r' a, s'.balance r' a = if r' = r ∧ a = c.invokeAddr then
        amount + s.balance r c.invokeAddr else s.balance r' a)
      (hcandidates : ∀ r' a, s'.candidates r' a =
        (s.candidates r' a || decide (a = c.invokeAddr ∧ (r' = r ∨ r = .mediator ∧ r' = .jury)))) :
      Effect s c s' []
  | exit {s₀ s' : State α} {out : List (α × UInt64)} {r : Role} {addr payee : α}
      (hpays : c.pays = none) (hexits : s.exits c = some (r, addr)) (hsame : s.SameDeposits s₀)
      (h : s₀.handleNode r addr payee = some (s', out)) : Effect s c s' out

namespace State

variable {s s' : State α} {c : Call α} {out : List (α × UInt64)}

/-- A call has one of the effects, and puts no deposit under an unanswered application unless it
sets such an entry. -/
structure Worked (s : State α) (c : Call α) (s' : State α) (out : List (α × UInt64)) : Prop where
  effect : Effect s c s' out
  fresh : s.Fresh → (∀ e, c.function = .updateKeyValue e → e.Fresh) → s'.Fresh

/-- A call that leaves the deposits. -/
lemma worked_keep {s₁ : State α} (h : some (s₁, []) = some (s', out)) (hpays : c.pays = none)
    (hsame : s.SameDeposits s₁) (hfresh : s.Fresh → s₁.Fresh) : Worked s c s' out := by
  cases h
  exact ⟨.keep hpays hsame, fun h _ => hfresh h⟩

lemma worked_mediatorPay (hpays : c.pays = some .mediator)
    (h : s.mediatorPayToDepositContract c = some (s', out)) : Worked s c s' out := by
  simp only [mediatorPayToDepositContract, do_eq_some] at h
  obtain ⟨amount, hamount, md, hmd, h⟩ := h
  split_ifs at h
  cases h
  refine ⟨.pay hpays hamount (fun r' a => ?_) (fun r' a => ?_), ?_⟩
  · rw [balance_setCandidate, balance_setRecord, balance_setCandidate, elim_some,
      balance.eq_def s .mediator, hmd, elim_some]
  · have hrecord : ∀ (s : State α) d, (s.setRecord .mediator c.invokeAddr d).candidates =
        s.candidates := fun _ _ => rfl
    rw [candidates_setCandidate, hrecord, candidates_setCandidate]
    cases r' <;> by_cases ha : a = c.invokeAddr <;> simp [ha]
  · exact fun hfresh _ => Fresh.setRecord hfresh .mediator c.invokeAddr (by rintro _ ⟨⟩ ⟨⟩)

lemma worked_nodePay {r : Role} (hr : r ≠ .mediator) (hpays : c.pays = some r)
    {extraOk : Bool} (h : s.nodePayToDepositContract c r extraOk = some (s', out)) :
    Worked s c s' out := by
  simp only [nodePayToDepositContract, do_eq_some] at h
  obtain ⟨amount, hamount, h⟩ := h
  split_ifs at h
  cases h
  refine ⟨.pay hpays hamount (fun r' a => ?_) (fun r' a => ?_), ?_⟩
  · rw [balance_setRecord, balance_setCandidate, elim_some, balance.eq_def s r]
    cases s.records r c.invokeAddr with
    | none => simp
    | some d => simp [UInt64.add_comm]
  · show (s.setCandidate r c.invokeAddr true).candidates r' a = _
    rw [candidates_setCandidate]
    by_cases ha : a = c.invokeAddr <;> by_cases hr' : r' = r <;> simp [ha, hr', hr]
  · exact fun hfresh _ => Fresh.setRecord hfresh r c.invokeAddr (by rintro _ ⟨⟩ ⟨⟩)

/-- What the end of a role does. -/
structure Ended (s s' : State α) (r : Role) (addr : α) : Prop where
  balance : ∀ r' a, s'.balance r' a = if r' = r ∧ a = addr then 0 else s.balance r' a
  candidates : ∀ r' a, s'.candidates r' a =
    (s.candidates r' a && !decide (a = addr ∧ (r' = r ∨ r = .mediator ∧ r' = .jury)))

lemma ended_of_handleNode {r : Role} {addr payee : α}
    (h : s.handleNode r addr payee = some (s', out)) :
    s.Ended s' r addr ∧ out = [(payee, s.balance r addr)] ∧ (s.Fresh → s'.Fresh) := by
  simp only [handleNode, do_eq_some] at h
  obtain ⟨d, hd, h⟩ := h
  have hbalance : s.balance r addr = d.balance := by rw [balance, hd, elim_some]
  split_ifs at h with hr hlists hlist
  · cases h
    subst hr
    refine ⟨⟨fun r' a => ?_, fun r' a => ?_⟩, by rw [hbalance], ?_⟩
    · rw [balance_setRecord, balance_setCandidate, balance_setCandidate, elim_some]
    · show ((s.setCandidate .mediator addr false).setCandidate .jury addr false).candidates r' a = _
      rw [candidates_setCandidate, candidates_setCandidate]
      cases r' <;> by_cases ha : a = addr <;> simp [ha]
    · exact fun hfresh => Fresh.setRecord hfresh .mediator addr (by rintro _ ⟨⟩ ⟨⟩)
  cases h
  refine ⟨⟨fun r' a => ?_, fun r' a => ?_⟩, by rw [hbalance], ?_⟩
  · rw [balance_setRecord, balance_setCandidate, elim_none]
  · show (s.setCandidate r addr false).candidates r' a = _
    rw [candidates_setCandidate]
    by_cases ha : a = addr <;> by_cases hr' : r' = r <;> simp [ha, hr', hr]
  · exact fun hfresh => Fresh.setRecord hfresh r addr (by rintro _ ⟨⟩)

/-- A record that is saved with the balance it has. -/
lemma sameDeposits_setRecord {r : Role} {a : α} {d : Option Record}
    (h : d.elim 0 Record.balance = s.balance r a) : s.SameDeposits (s.setRecord r a d) := by
  refine ⟨fun r' a' => ?_, rfl⟩
  rw [balance_setRecord]
  split
  · rename_i heq
    rw [h, heq.1, heq.2]
  · rfl

lemma Fresh.setEntry {e : Entry α} (h : s.Fresh) (he : e.Fresh) : (s.setEntry e).Fresh := by
  cases e with
  | record r a d =>
    cases r with
    | mediator => exact h.setRecord .mediator a (by rintro d' rfl; exact he)
    | _ => exact h
  | _ => exact h

/-- A quit or forfeiture that is agreed to. -/
lemma worked_exit {s₀ : State α} {r : Role} {addr payee : α}
    (h : s₀.handleNode r addr payee = some (s', out)) (hpays : c.pays = none)
    (hexits : s.exits c = some (r, addr)) (hsame : s.SameDeposits s₀)
    (hfresh : s.Fresh → s₀.Fresh) : Worked s c s' out :=
  ⟨.exit hpays hexits hsame h, fun hs _ => (ended_of_handleNode h).2.2 (hfresh hs)⟩

lemma worked_applyBecomeMediator (hf : c.function = .applyBecomeMediator true)
    (h : s.applyBecomeMediator c = some (s', out)) : Worked s c s' out := by
  rw [applyBecomeMediator] at h
  split at h
  · cases h
  rename_i hnone
  cases h
  refine ⟨.apply hf ⟨fun r a => ?_, rfl⟩, fun hfresh _ => ?_⟩
  · rw [balance_setRecord, balance_setRecord, balance_setRecord]
    split_ifs with hjury hmediator
    · rfl
    · rw [hmediator.1, hmediator.2, balance, hnone]
      rfl
    · rfl
  · exact Fresh.setRecord (hfresh.setRecord _ _ (by rintro _ ⟨⟩ _; rfl)) _ _ (by rintro _ ⟨⟩ ⟨⟩)

lemma worked_handleForApplyBecomeMediator {addr : α} {ok : Option Bool} (hpays : c.pays = none)
    (h : s.handleForApplyBecomeMediator addr ok = some (s', out)) : Worked s c s' out := by
  simp only [handleForApplyBecomeMediator, do_eq_some] at h
  obtain ⟨md, hmd, h⟩ := h
  split_ifs at h with hstatus
  split at h
  · cases h
    exact ⟨.reject hpays hmd (not_not.1 hstatus),
      fun hfresh _ => hfresh.setRecord _ _ (by rintro _ ⟨⟩)⟩
  · refine worked_keep h hpays (sameDeposits_setRecord ?_)
      fun hfresh => hfresh.setRecord _ _ (by rintro _ ⟨⟩ ⟨⟩)
    rw [balance, hmd]
    rfl
  · cases h

lemma worked_of_invoke (h : s.invoke c = some (s', out)) : Worked s c s' out := by
  obtain ⟨function, invokeAddr, invokeTokens, foundation, depositAmount⟩ := c
  cases function with
  | applyBecomeMediator argsOk =>
    simp only [invoke] at h
    split_ifs at h with hargs
    exact worked_applyBecomeMediator (by rw [hargs]) h
  | mediatorPayToDepositContract => exact worked_mediatorPay rfl h
  | mediatorApplyQuit =>
    obtain ⟨md, hmd, h⟩ := do_eq_some.1 h
    have hbalance : s.balance .mediator invokeAddr = md.balance := by
      rw [balance, hmd, elim_some]
    have hsame := sameDeposits_setRecord (d := some { md with status := .quitting }) hbalance.symm
    refine worked_keep h rfl ?_ fun hfresh => ?_
    · exact ⟨hsame.balance, rfl⟩
    · exact Fresh.setRecord hfresh _ _ (by rintro _ ⟨⟩ ⟨⟩)
  | juryPayToDepositContract argsOk extraOk =>
    simp only [invoke] at h
    split_ifs at h
    exact worked_nodePay (by decide) rfl h
  | developerPayToDepositContract => exact worked_nodePay (by decide) rfl h
  | juryApplyQuit | devApplyQuit =>
    exact worked_keep h rfl ⟨fun _ _ => rfl, rfl⟩ fun h => h
  | updateJuryInfo argsOk hasReward =>
    simp only [invoke] at h
    split_ifs at h
    rw [updateJuryInfo] at h
    split at h
    · exact worked_keep h rfl ⟨fun _ _ => rfl, rfl⟩ fun h => h
    rename_i hnone
    split_ifs at h
    refine worked_keep h rfl (sameDeposits_setRecord ?_)
      fun hfresh => hfresh.setRecord _ _ (by rintro _ ⟨⟩ ⟨⟩)
    rw [balance, hnone]
    rfl
  | handleForApplyBecomeMediator addr ok =>
    simp only [invoke] at h
    split_ifs at h
    exact worked_handleForApplyBecomeMediator rfl h
  | handleForApplyQuit r addr ok =>
    simp only [invoke] at h
    split_ifs at h
    match ok with
    | some true => exact worked_exit h rfl rfl ⟨fun _ _ => rfl, rfl⟩ fun h => h
    | some false => exact worked_keep h rfl ⟨fun _ _ => rfl, rfl⟩ fun h => h
    | none => cases h
  | applyForForfeitureDeposit addr r exact =>
    simp only [invoke, applyForForfeitureDeposit] at h
    split_ifs at h
    exact worked_keep h rfl ⟨fun _ _ => rfl, rfl⟩ fun h => h
  | handleForForfeitureApplication addr ok =>
    simp only [invoke] at h
    split_ifs at h
    simp only [handleForForfeitureApplication, do_eq_some] at h
    obtain ⟨⟨r, exact⟩, hforfeiture, h⟩ := h
    match ok with
    | some true =>
      split_ifs at h
      exact worked_exit h rfl (by simp [exits, hforfeiture]) ⟨fun _ _ => rfl, rfl⟩ fun h => h
    | some false => exact worked_keep h rfl ⟨fun _ _ => rfl, rfl⟩ fun h => h
    | none => cases h
  | updateKeyValue e =>
    simp only [invoke] at h
    split_ifs at h
    cases h
    exact ⟨.edit rfl, fun hfresh he => hfresh.setEntry (he e rfl)⟩

end State

/-! ### Books -/

/-- The state with what has been paid in through deposits, and paid out. -/
structure Books (α : Type) where
  state : State α
  paidIn : ℕ
  paidOut : ℕ

/-- All outputs in the gas token that go to the contract. -/
def Call.received (c : Call α) : ℕ :=
  ((c.invokeTokens.filter fun t => t.gas && t.toContract).map fun t => t.amount.toNat).sum

namespace Books

/-- The contract before the first call. -/
def empty : Books α :=
  ⟨⟨fun _ _ => none, fun _ _ => false, fun _ => none, fun _ => none⟩, 0, 0⟩

/-- A call with its effect on the books; one that fails has none. -/
def step (b : Books α) (c : Call α) : Option (Books α) :=
  match b.state.invoke c with
  | none => some b
  | some (state, out) => some
      { state
        paidIn := b.paidIn + if c.pays.isSome then c.received else 0
        paidOut := b.paidOut + (out.map fun x => x.2.toNat).sum }

/-- All that is recorded for an address. -/
def held (s : State α) (a : α) : ℕ :=
  (s.balance .mediator a).toNat + (s.balance .jury a).toNat + (s.balance .developer a).toNat

/-- The entry leaves the recorded balance, and is no application with a deposit. -/
structure KeepsBalance (s : State α) (e : Entry α) : Prop where
  balance : ∀ r a d, e = .record r a d → d.elim 0 Record.balance = s.balance r a
  fresh : e.Fresh

/-- A juror that applies to become a mediator has no deposit, a deposit is paid by one output,
without a wrap of the balance, and the foundation leaves the balances. -/
structure Sound (b : Books α) (c : Call α) : Prop where
  application : c.function = .applyBecomeMediator true → b.state.balance .jury c.invokeAddr = 0
  payment : ∀ r amount, c.pays = some r →
    isContainDepositContractAddr c.invokeTokens = some amount →
    c.received = amount.toNat ∧ amount.toNat + (b.state.balance r c.invokeAddr).toNat < 2 ^ 64
  edit : ∀ e, c.function = .updateKeyValue e → (b.state.invoke c).isSome → KeepsBalance b.state e

omit [DecidableEq α] in
lemma held_congr {s s' : State α} {a : α} (h : ∀ r, s'.balance r a = s.balance r a) :
    held s' a = held s a := by
  rw [held, held, h, h, h]

/-- A change of one balance. -/
lemma held_update {s s' : State α} {r : Role} {a : α} {x : UInt64}
    (h : ∀ r' a', s'.balance r' a' = if r' = r ∧ a' = a then x else s.balance r' a') :
    (∀ a' ≠ a, held s' a' = held s a') ∧
      held s' a + (s.balance r a).toNat = held s a + x.toNat := by
  refine ⟨fun a' ha => held_congr fun r' => by rw [h, if_neg fun hr => ha hr.2], ?_⟩
  rw [held, held, h, h, h]
  cases r <;> simp <;> omega

/-- The books of a state without unanswered deposits balance. -/
structure Kept (b : Books α) : Prop where
  fresh : b.state.Fresh
  balanced : Lib.Balanced (held b.state) b.paidIn b.paidOut

lemma Kept.step {b b' : Books α} {c : Call α} (h : b.Kept) (hsound : b.Sound c)
    (hstep : b.step c = some b') : b'.Kept := by
  rw [Books.step] at hstep
  split at hstep
  · obtain rfl := some.inj hstep
    exact h
  rename_i s' out hinvoke
  obtain rfl := some.inj hstep
  obtain ⟨heffect, hfresh⟩ := State.worked_of_invoke hinvoke
  have hedit : ∀ e, c.function = .updateKeyValue e → KeepsBalance b.state e := fun e he =>
    hsound.edit e he (by rw [hinvoke]; rfl)
  refine ⟨hfresh h.fresh fun e he => (hedit e he).fresh, ?_⟩
  have hstill : ∀ s₁ : State α, c.pays = none → (∀ r a, s₁.balance r a = b.state.balance r a) →
      Lib.Balanced (held s₁) (b.paidIn + if c.pays.isSome then c.received else 0) b.paidOut := by
    intro s₁ hpays hsame
    rw [hpays, show held s₁ = held b.state from funext fun a => held_congr fun r => hsame r a]
    exact h.balanced
  cases heffect with
  | keep hpays hsame => exact hstill _ hpays hsame.balance
  | apply happly hsame =>
    refine hstill _ (by rw [pays, happly]) fun r a => (hsame.balance r a).trans ?_
    rw [State.balance_setRecord]
    split
    · rename_i heq
      rw [heq.1, heq.2, hsound.application happly]
      rfl
    · rfl
  | @reject addr md hpays hmd hstatus =>
    refine hstill _ hpays (State.sameDeposits_setRecord ?_).balance
    rw [State.balance, hmd, elim_some, h.fresh addr md hmd hstatus]
    rfl
  | @edit e he =>
    refine hstill _ (by rw [pays, he]) ?_
    cases e with
    | record r a d => exact (State.sameDeposits_setRecord ((hedit _ he).balance r a d rfl)).balance
    | _ => exact fun _ _ => rfl
  | pay hpays hamount hbalance _ =>
    obtain ⟨hreceived, hfits⟩ := hsound.payment _ _ hpays hamount
    obtain ⟨hother, hat⟩ := held_update hbalance
    refine h.balanced.step c.invokeAddr hother ?_
    rw [UInt64.toNat_add, Nat.mod_eq_of_lt hfits] at hat
    rw [hpays]
    simp only [isSome_some, if_true, map_nil, sum_nil, hreceived]
    omega
  | @exit s₀ _ _ r addr payee hpays hexits hsame hnode =>
    obtain ⟨hended, rfl, -⟩ := State.ended_of_handleNode hnode
    obtain ⟨hother, hat⟩ := held_update (s := b.state) (fun r' a => by
      rw [hended.balance, hsame.balance])
    refine h.balanced.step addr hother ?_
    rw [hpays, hsame.balance]
    simpa using hat

/-- The records of all addresses and roles add up to the gas tokens that deposits have brought in,
less what has been paid out, after every run of calls that are sound where they are made. -/
theorem balanced_run {calls : List (Call α)} {b : Books α}
    (hsound : Lib.Along step Sound empty calls) (hrun : calls.foldlM step empty = some b) :
    Lib.Balanced (held b.state) b.paidIn b.paidOut := by
  have hstart : (empty : Books α).Kept := ⟨nofun, Lib.balanced_zero⟩
  exact (Lib.Along.preserves (I := Kept) (fun c _ b b' h hgood => h.step hgood) hsound hstart
    hrun).balanced

end Books

/-! ### One address in two roles -/

namespace TwoRoles

/-- A call by one of two addresses, of which 1 is the foundation. -/
def call (f : Function (Fin 2)) (caller : Fin 2) (tokens : List InvokeTokens) : Call (Fin 2) :=
  ⟨f, caller, tokens, 1, fun | .mediator => 50 | .jury => 10 | .developer => 5⟩

/-- A juror pays its deposit. -/
def pay : Call (Fin 2) :=
  call (.juryPayToDepositContract true true) 0 [⟨10, true, true⟩]

/-- The juror quits, and the foundation agrees. -/
def quit : List (Call (Fin 2)) :=
  [pay, call .juryApplyQuit 0 [], call (.handleForApplyQuit .jury 0 (some true)) 1 []]

/-- The books balance when the juror has quit. -/
theorem balanced_quit : ∃ b, quit.foldlM Books.step Books.empty = some b ∧ b.paidOut = 10 ∧
    Lib.Balanced (Books.held b.state) b.paidIn b.paidOut := by
  refine ⟨_, rfl, by decide, @Books.balanced_run _ _ quit _ ?_ rfl⟩
  have hother : ∀ (b : Books (Fin 2)) c, c.pays = none → c.function ≠ .applyBecomeMediator true →
      (∀ e, c.function ≠ .updateKeyValue e) → b.Sound c := fun b c hpays hf he =>
    ⟨fun h => absurd h hf, fun r amount h => absurd (hpays.symm.trans h) nofun,
      fun e h => absurd h (he e)⟩
  refine ⟨⟨nofun, ?_, nofun⟩, fun _ _ => ⟨hother _ _ rfl nofun nofun,
    fun _ _ => ⟨hother _ _ rfl nofun nofun, ?_⟩⟩⟩
  · rintro r amount ⟨⟩ ⟨⟩
    exact ⟨rfl, by decide⟩
  · exact fun _ _ => trivial

/-- The juror applies to become a mediator, which empties its record. -/
theorem deposit_lost : ∃ b, [pay, call (.applyBecomeMediator true) 0 []].foldlM Books.step
    Books.empty = some b ∧ ¬ Lib.Balanced (Books.held b.state) b.paidIn b.paidOut := by
  refine ⟨_, rfl, fun h => ?_⟩
  have hsum := h.sum_add ∅ (by decide)
  exact absurd hsum (by decide)

end TwoRoles

end ZwsChain.Deposit
