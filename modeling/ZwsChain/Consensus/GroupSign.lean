import ZwsChain.Common.Address

/-!
# Recovering group signatures

A mediator collects the signature shares of its units and tries to recover the group signature.
Deliveries, attempts and the end of a unit's time hold a lock and come in any order; what the node
knows of headers and mediators changes between them.

`groupSig_sound`: a unit has at most one group signature for each call of `groupSignUnit`. Each
comes from at least as many shares as the threshold, and no delivered share is used twice.

Sources without a file are in `consensus/mediatorplugin/threshold_sign.go`.
-/

open List Option

namespace ZwsChain.GroupSign

/-- The mediators before or after the last maintenance. -/
structure Committee where
  mSize : ℕ
  threshold : ℕ
  /-- The commitments of a local mediator whose key generation is done. -/
  dkgs : Address → Option Bytes

/-- What the node knows. -/
structure MediatorPlugin where
  groupSigningEnabled : Bool
  /-- The author and the timestamp of a header. -/
  getHeaderByHash : Hash → Option (Address × ℕ)
  lastMaintenanceTime : ℕ
  active : Committee
  preceding : Committee
  /-- `tbls.Recover` from commitments, message, shares, threshold and size. -/
  recover : Bytes → Hash → List Bytes → ℕ → ℕ → Option Bytes

/-- What is there for a mediator and a unit. -/
structure Buffer where
  /-- In `toTBLSRecoverBuf`. -/
  sigShares : Option (List Bytes)
  /-- The signatures that were sent. -/
  groupSigs : List Bytes

/-- What happens to the buffers. An attempt is a goroutine, which runs at any time; `expire` is the
timer of `groupSignUnit`. -/
inductive Op where
  | groupSignUnit (k : Address × Hash)
  | expire (k : Address × Hash)
  | addToTBLSRecoverBuf (unitHash : Hash) (sigShare : Bytes)
  | recoverUnitTBLS (k : Address × Hash)
  deriving DecidableEq

variable (mp : MediatorPlugin) (k : Address × Hash) (b : Buffer)

/-- The mediators that sign a unit with this timestamp. -/
def committee (timestamp : ℕ) : Committee :=
  if timestamp > mp.lastMaintenanceTime then mp.active else mp.preceding

/-- Source: `recoverUnitTBLS` -/
def recoverUnitTBLS : Buffer :=
  match b.sigShares, mp.getHeaderByHash k.2 with
  | some shares, some (_, timestamp) =>
    let c := committee mp timestamp
    match c.dkgs k.1 with
    | none => b
    | some commitments =>
      if shares.length < c.threshold then b
      else
        match mp.recover commitments k.2 shares c.threshold c.mSize with
        -- `popSigShares` has emptied the buffer
        | none => { b with sigShares := some [] }
        | some groupSig => ⟨none, b.groupSigs ++ [groupSig]⟩
  | _, _ => b

/-- The buffer that an operation is for. That of a share is the one of the unit's author. -/
def Op.target : Op → Option (Address × Hash)
  | .groupSignUnit k | .expire k | .recoverUnitTBLS k => some k
  | .addToTBLSRecoverBuf unitHash _ => (mp.getHeaderByHash unitHash).map fun h => (h.1, unitHash)

/-- What it does there.
Source: `groupSignUnit`, `AddToTBLSRecoverBuf`, `recoverUnitTBLS` -/
def Op.apply : Op → Buffer
  | .groupSignUnit _ => if !mp.groupSigningEnabled then b else { b with sigShares := some [] }
  | .expire _ => { b with sigShares := none }
  | .addToTBLSRecoverBuf _ sigShare =>
    if !mp.groupSigningEnabled then b
    else { b with sigShares := b.sigShares.map (· ++ [sigShare]) }
  | .recoverUnitTBLS k => GroupSign.recoverUnitTBLS mp k b

/-- The buffers after an operation. -/
def step (s : Address × Hash → Buffer) (op : Op) : Address × Hash → Buffer :=
  (op.target mp).elim s fun k => Function.update s k (op.apply mp (s k))

/-- The buffers after operations, each with what the node knows by then. -/
def run (ops : List (MediatorPlugin × Op)) : Address × Hash → Buffer :=
  ops.foldl (fun s o => step o.1 s o.2) fun _ => ⟨none, []⟩

/-- The shares that an operation delivers for a unit. -/
def Op.shares (unitHash : Hash) : Op → List Bytes
  | .addToTBLSRecoverBuf u sigShare => if u = unitHash then [sigShare] else []
  | _ => []

/-- The group signature is recovered from the shares, which are enough at the unit's time. -/
def Recovers (shares : List Bytes) (groupSig : Bytes) : Prop :=
  ∃ header commitments, mp.getHeaderByHash k.2 = some header ∧
    let c := committee mp header.2
    c.dkgs k.1 = some commitments ∧ c.threshold ≤ shares.length ∧
      mp.recover commitments k.2 shares c.threshold c.mSize = some groupSig

/-- The operation sends no signature, and leaves at most what was there and a new share. -/
structure Quiet (op : Op) (b' : Buffer) : Prop where
  sigs : b'.groupSigs = b.groupSigs
  opened : b'.sigShares.isSome → b.sigShares.isSome ∨ op = .groupSignUnit k
  shares : b'.sigShares.getD [] <+ b.sigShares.getD [] ++ op.shares k.2

variable {mp k b} {op : Op}

lemma Quiet.refl : Quiet k b op b :=
  ⟨rfl, .inl, sublist_append_left _ _⟩

/-- Otherwise the operation sends a signature that is recovered from the buffer, which goes. -/
lemma apply_cases (h : op.target mp = some k) : Quiet k b op (op.apply mp b) ∨
    ∃ shares groupSig, b.sigShares = some shares ∧ Recovers mp k shares groupSig ∧
      op.apply mp b = ⟨none, b.groupSigs ++ [groupSig]⟩ := by
  cases op with
  | groupSignUnit k' =>
    obtain rfl := some.inj h
    rw [Op.apply]
    split_ifs
    · exact .inl .refl
    · exact .inl ⟨rfl, fun _ => .inr rfl, nil_sublist _⟩
  | expire k' => exact .inl ⟨rfl, by simp [Op.apply], nil_sublist _⟩
  | addToTBLSRecoverBuf unitHash sigShare =>
    obtain ⟨header, -, rfl⟩ := map_eq_some_iff.1 h
    rw [Op.apply]
    split_ifs
    · exact .inl .refl
    refine .inl ⟨rfl, by simp +contextual, ?_⟩
    cases b.sigShares <;> simp [Op.shares]
  | recoverUnitTBLS k' =>
    obtain rfl := some.inj h
    simp only [Op.apply, GroupSign.recoverUnitTBLS]
    split
    · rename_i shares header timestamp hshares hheader
      split
      · exact .inl .refl
      rename_i commitments hdkgs
      split_ifs with hlen
      · exact .inl .refl
      split
      · exact .inl ⟨rfl, fun _ => .inl (by simp [hshares]), nil_sublist _⟩
      rename_i groupSig hsig
      exact .inr ⟨shares, groupSig, hshares,
        ⟨_, commitments, hheader, hdkgs, Nat.not_lt.1 hlen, hsig⟩, rfl⟩
    · exact .inl .refl

lemma step_cases (mp : MediatorPlugin) (s : Address × Hash → Buffer) (op : Op) :
    Quiet k (s k) op (step mp s op k) ∨
      ∃ shares groupSig, (s k).sigShares = some shares ∧ Recovers mp k shares groupSig ∧
        step mp s op k = ⟨none, (s k).groupSigs ++ [groupSig]⟩ := by
  by_cases h : op.target mp = some k
  · have hstep : step mp s op k = op.apply mp (s k) := by simp [step, h]
    exact hstep ▸ apply_cases h
  · have hstep : step mp s op k = s k := by
      unfold step
      cases htarget : op.target mp with
      | none => rfl
      | some k' => exact Function.update_of_ne (by grind) _ _
    exact hstep ▸ .inl .refl

/-- Over every run: a unit has at most one signature for each call of `groupSignUnit`, an open
buffer counted as one. They are recovered from different delivered shares. -/
theorem groupSig_sound (ops : List (MediatorPlugin × Op)) (k : Address × Hash) :
    (run ops k).groupSigs.length + (run ops k).sigShares.isSome.toNat ≤
        ops.countP (·.2 = .groupSignUnit k) ∧
      ∃ used, Forall₂ (fun shares groupSig => ∃ o ∈ ops, Recovers o.1 k shares groupSig)
          used (run ops k).groupSigs ∧
        used.flatten ++ (run ops k).sigShares.getD [] <+ ops.flatMap fun o => o.2.shares k.2 := by
  induction ops using List.reverseRecOn with
  | nil => exact ⟨le_rfl, [], .nil, nil_sublist _⟩
  | append_singleton ops o ih =>
    obtain ⟨hcount, used, hused, hsub⟩ := ih
    have hrun : run (ops ++ [o]) = step o.1 (run ops) o.2 := foldl_append
    have hused' := hused.imp fun _ _ => Exists.imp fun _ => And.imp_left (mem_append_left [o])
    rw [hrun, countP_append, flatMap_append, flatMap_singleton]
    rcases step_cases o.1 (run ops) o.2 with hquiet | ⟨shares, groupSig, hbuf, hrec, hsent⟩
    · rw [hquiet.sigs]
      refine ⟨?_, used, hused', ?_⟩
      · have hopened := hquiet.opened
        revert hcount hopened
        cases (step o.1 (run ops) o.2 k).sigShares.isSome <;>
          cases (run ops k).sigShares.isSome <;> simp <;> grind
      · refine (hquiet.shares.append_left _).trans ?_
        rw [← append_assoc]
        exact hsub.append_right _
    · rw [hsent]
      rw [hbuf] at hcount hsub
      refine ⟨?_, used ++ [shares], rel_append hused' (.cons ⟨o, by simp, hrec⟩ .nil), ?_⟩
      · simpa using hcount.trans (Nat.le_add_right _ _)
      · simpa using hsub.trans (sublist_append_left _ _)

end ZwsChain.GroupSign
