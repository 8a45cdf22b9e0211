import Mathlib
import ZwsChain.Memunit.ForkState

/-!
# The order in which units are delivered

The units of a tree over the stable unit are passed to `AddUnit` in some order. A unit whose parent
is missing becomes an orphan and is attached when the parent is. The mem DAG remembers one orphan
for a missing parent only: if a second child comes before the parent, the first one is forgotten
(`SiblingLost.orphan_left`).

`MemDag.delivery_iff`: all calls return, and all units end up attached exactly if at no time two of
the delivered units wait for the same parent.
-/

open List Option AList

namespace ZwsChain.Memunit

open Node
open Lib.Keyed (lookup_of_erase lookup_of_insert)
open Lib (Overlay applyWrites)

variable {U H : Type} [DecidableEq H]

/-- Units of `us` from the root down to a hash, each the parent of the next. -/
inductive Line (N : Node U H) (us : List U) (root : H) : List U → H → Prop
  | nil : Line N us root [] root
  | snoc {p : List U} {u : U} : Line N us root p (N.parent u) → u ∈ us →
      Line N us root (p ++ [u]) (N.hash u)

/-- With the unit at the end of the main chain, no unit above the height is made stable. -/
def Quiet (N : Node U H) (height : ℕ) (kv : Kv U H) (u : U) : Prop :=
  N.checkUnitIrreversibleWithGroupSign u = false ∧
    ∀ n header, MemDag.confirmedNumber N kv = some n → height < n →
      getHeaderByNumber kv (N.getAssetId u) n = some header → N.number header ≤ height

/-- Valid units that form a tree over the stable unit and make no unit stable. -/
structure ValidTree (N : Node U H) (db : Kv U H) (S : U) (us : List U) : Prop where
  distinct : (us.map N.hash).Nodup
  token : ∀ u ∈ us, N.getAssetId u = N.token
  parent : ∀ u ∈ us, N.parent u = N.hash S ∨ ∃ v ∈ us, N.hash v = N.parent u
  /-- A unit is valid after its ancestors were saved, can be saved, and is quiet then. -/
  valid : ∀ p u, Line N us (N.hash S) p (N.parent u) → u ∈ us →
    ∃ kv ws, N.savedUnits db p = some kv ∧ N.validate kv u = true ∧
      N.saveUnitToDb kv u = some (true, ws) ∧ Quiet N (N.number S) (applyWrites kv ws) u

variable {N : Node U H} {S : U} {s s' : MemDag U H} {u : U} {db : Kv U H} {us : List U}

/-! ### Attaching a valid unit -/

lemma Quiet.checkStableCondition {r : ℕ} (h : Quiet N s.stableUnitHeight (s.view r) u)
    (unit : Option U) : s.checkStableCondition N ⟨r, unit⟩ u = some (s, false) := by
  obtain ⟨hsign, hheader⟩ := h
  unfold MemDag.checkStableCondition
  rw [hsign]
  simp only [Bool.false_eq_true, if_false]
  split
  · rfl
  rename_i n hn
  split_ifs with hlt
  · split
    · rfl
    rename_i header hfound
    have hle := hheader n header hn hlt hfound
    unfold MemDag.setStableUnit
    rw [if_pos (by omega)]
  · rfl

/-- Units that can be saved one after the other can be replayed. -/
lemma MemDag.replay_total {ov : Overlay (Key H) (Value U H)} {ct : ChainTempDb U} {p vs : List U}
    (h : s.Overlaid ct.tempdb ov) (hov : Reflects N s.db p ov)
    (hall : ∃ ws, N.branchWrites s.db (p ++ vs) = some ws) :
    ∃ s' ct', MemDag.replay N ct vs s = some (s', ct') := by
  induction vs generalizing p ov s ct with
  | nil => exact ⟨s, ct, rfl⟩
  | cons v vs ih =>
    obtain ⟨ws, hws, hget, -⟩ := id hov
    obtain ⟨all, hall⟩ := hall
    rw [append_cons] at hall
    obtain ⟨first, hfirst, -⟩ := do_eq_some.1 (foldlM_append.symm.trans hall)
    obtain ⟨ws', more, hws', hsave, -⟩ := branchWrites_snoc.1 hfirst
    obtain rfl : ws = ws' := some.inj (hws.symm.trans hws')
    rw [← hget] at hsave
    have hsaved := hov.snoc hsave
    rw [← h.view] at hsave
    have hov₁ : (s.writeTemp ct.tempdb more).Overlaid
        (⟨ct.tempdb, some v⟩ : ChainTempDb U).tempdb (ov.writes more) := (h.writeTemp more).1
    obtain ⟨s', ct', hreplay⟩ := ih hov₁ hsaved ⟨all, hall⟩
    refine ⟨s', ct', ?_⟩
    unfold MemDag.replay MemDag.tempAddUnit
    simp only [hsave, do_some, if_true]
    exact hreplay

namespace MemDag

/-- The unit is attached to the mem DAG `s`, and nothing becomes stable. -/
def Attached (N : Node U H) (s : MemDag U H) (u : U) (s₁ : MemDag U H) : Prop :=
  ∃ temps tempdb ct last, ct.unit = some u ∧ s₁ = { s with
    temps, tempdb
    chainUnits := s.chainUnits.insert (N.hash u) ct
    lastMainChainUnit := last }

variable {ov : Overlay (Key H) (Value U H)}

/-- A valid unit at the end of the main chain. -/
lemma addMainUnit_of_save {ct : ChainTempDb U} (hct : s.tempdb.lookup (N.parent u) = some ct)
    (hov : s.Overlaid ct.tempdb ov)
    (hvalid : N.validate (ov.get s.db) u = true) {ws : Writes U H}
    (hsave : N.saveUnitToDb (ov.get s.db) u = some (true, ws))
    (hquiet : Quiet N s.stableUnitHeight (applyWrites (ov.get s.db) ws) u) (isGenerate : Bool) :
    ∃ s₁, s.addMainUnit N u isGenerate = some (s₁, .attached) ∧ Attached N s u s₁ := by
  have htemp : s.mainTemp (N.parent u) = (s, ct, true) := by
    simp [mainTemp, hct]
  unfold addMainUnit tempAddUnit
  rw [htemp]
  simp only [hov.view, hvalid, hsave, Bool.not_true, Bool.and_false, Bool.false_eq_true, if_false,
    do_some, if_true]
  rw [Quiet.checkStableCondition]
  · exact ⟨_, rfl, _, _, _, _, rfl, rfl⟩
  have hview := (hov.writeTemp ws).1.view
  rw [Overlay.get_writes] at hview
  change Quiet N s.stableUnitHeight ((s.writeTemp ct.tempdb ws).view ct.tempdb) u
  rw [hview]
  exact hquiet

/-- A valid unit on another branch. -/
lemma addForkUnit_of_save {s₁ : MemDag U H} {ct : ChainTempDb U}
    (htemp : s.forkTemp N u = some (s₁, ct)) (htemps : ∃ temps, s₁ = { s with temps })
    (hov : s₁.Overlaid ct.tempdb ov)
    (hvalid : N.validate (ov.get s.db) u = true) {ws : Writes U H}
    (hsave : N.saveUnitToDb (ov.get s.db) u = some (true, ws)) {p : List U}
    (hforks : ∀ ct, forkUnits N (s.chainUnits.insert (N.hash u) ct)
      (N.number u - s.stableUnitHeight - 1) (N.parent u) = some p) (isGenerate : Bool) :
    ∃ s₁, s.addForkUnit N u isGenerate = some (s₁, .attached) ∧ Attached N s u s₁ := by
  obtain ⟨temps, rfl⟩ := htemps
  unfold addForkUnit tempAddUnit
  rw [htemp]
  simp only [hov.view, hvalid, hsave, Bool.not_true, Bool.and_false, Bool.false_eq_true, if_false,
    do_some, if_true]
  have hget : ∀ t : MemDag U H, t.chainUnits = s.chainUnits.insert (N.hash u) ⟨ct.tempdb, some u⟩ →
      t.stableUnitHeight = s.stableUnitHeight → t.getForkUnits N u = some p := by
    intro t hunits hheight
    unfold getForkUnits
    rw [hunits, hheight]
    exact hforks _
  split_ifs
  · rw [hget]
    · exact ⟨_, rfl, _, _, _, _, rfl, rfl⟩
    · rfl
    · rfl
  · exact ⟨_, rfl, _, _, _, _, rfl, rfl⟩

end MemDag

open MemDag

/-- A valid and quiet unit is attached. -/
lemma Faithful.exists_attached (hN : N.Chained) (h : Faithful N S s) (hparent : s.Attachable N u)
    {p : List U} (hpath : Path N s.chainUnits s.stableUnitHash p (N.parent u))
    (hmem : N.hash u ∉ s.chainUnits) {kv : Kv U H} {ws : Writes U H}
    (hkv : N.savedUnits s.db p = some kv) (hvalid : N.validate kv u = true)
    (hsave : N.saveUnitToDb kv u = some (true, ws))
    (hquiet : Quiet N s.stableUnitHeight (applyWrites kv ws) u) (isGenerate : Bool) :
    ∃ s₁, s.attach N u isGenerate = some (s₁, .attached) ∧ s.Attached N u s₁ := by
  have hirr := h.irreversible
  obtain ⟨root, hroot, hroot'⟩ := hirr.exists_stable
  have hlength : N.number u - s.stableUnitHeight - 1 = p.length := by
    have := hpath.number_parent_eq hN hroot
    omega
  -- what is read through the database of the parent's branch
  have hread : ∀ ov, Reflects N s.db p ov → ov.get s.db = kv := by
    rintro ov ⟨branch, hbranch, hget, -⟩
    rw [savedUnits_of_branchWrites hbranch] at hkv
    rw [hget, some.inj hkv]
  unfold MemDag.attach
  rw [if_pos (show N.parent u ∈ s.chainUnits ∨ N.parent u = s.stableUnitHash from hparent)]
  by_cases hlast : N.parent u = N.hash s.lastMainChainUnit
  · rw [if_pos hlast]
    obtain ⟨ct, hct⟩ := h.branches.main p (hlast ▸ hpath)
    rw [← hlast] at hct
    obtain ⟨ov, hov, hreflects⟩ := h.branches.tip _ ct p hct hpath
    rw [← hread ov hreflects] at hvalid hsave hquiet
    exact addMainUnit_of_save hct hov hvalid hsave hquiet isGenerate
  rw [if_neg hlast]
  obtain ⟨s₁, ct, htemp⟩ : ∃ s₁ ct, s.forkTemp N u = some (s₁, ct) := by
    unfold forkTemp
    split
    · exact ⟨_, _, rfl⟩
    unfold getForkUnits
    rw [hlength, hpath.forkUnits]
    have hfresh : (s.newChainTempDb none).1.Overlaid s.temps.length .empty := by
      simp [MemDag.Overlaid, newChainTempDb]
    exact replay_total hfresh (Reflects.nil s.db) (h.saves p _ hpath)
  obtain ⟨hsource, ov, hov, hreflects⟩ :=
    h.branches.forkTemp hN hirr (Reflects.nil s.db) h.keeps hpath htemp
  rw [← hread ov hreflects] at hvalid hsave
  have hforks : ∀ ct, forkUnits N (s.chainUnits.insert (N.hash u) ct)
      (N.number u - s.stableUnitHeight - 1) (N.parent u) = some p := by
    intro ct
    rw [hlength]
    exact (hpath.mono (Part.insert _ _ hmem)).forkUnits
  exact addForkUnit_of_save htemp hsource.temps hov hvalid hsave hforks isGenerate

/-! ### Lines -/

namespace Line

variable {p : List U} {root h : H}

omit [DecidableEq H] in
lemma mem (hline : Line N us root p h) : ∀ x ∈ p, x ∈ us := by
  induction hline with
  | nil => simp
  | @snoc p u _ hu ih =>
    intro x hx
    rcases mem_append.1 hx with hx | hx
    · exact ih x hx
    · obtain rfl := mem_singleton.1 hx
      exact hu

omit [DecidableEq H] in
/-- The ancestors of a unit have lower numbers. -/
lemma number_lt (hN : N.Chained) (hline : Line N us root p h) (hu : N.parent u = h) :
    ∀ x ∈ p, N.number x < N.number u := by
  induction hline generalizing u with
  | nil => simp
  | @snoc p y _ _ ih =>
    have hnumber := hN.number_parent u y hu
    intro x hx
    rcases mem_append.1 hx with hx | hx
    · have := ih rfl x hx
      omega
    · obtain rfl := mem_singleton.1 hx
      omega

end Line

lemma Path.line {units : Units U H} {root h : H} {p : List U} (hpath : Path N units root p h)
    (hp : ∀ x ∈ p, x ∈ us) : Line N us root p h := by
  induction hpath with
  | nil => exact .nil
  | @snoc p u _ _ ih =>
    exact .snoc (ih fun x hx => hp x (mem_append_left _ hx)) (hp u (by simp))

namespace ValidTree

variable (hN : N.Chained) (h : ValidTree N db S us)
include hN h

/-- Induction from the stable unit down the tree. -/
lemma induction {P : U → Prop}
    (hroot : ∀ u ∈ us, N.parent u = N.hash S → P u)
    (hchild : ∀ u ∈ us, ∀ v ∈ us, N.hash v = N.parent u → P v → P u) (hu : u ∈ us) : P u := by
  induction hn : N.number u using Nat.strong_induction_on generalizing u with
  | _ n ih =>
    rcases h.parent u hu with hparent | ⟨v, hv, hparent⟩
    · exact hroot u hu hparent
    · have hnumber := hN.number_parent u v hparent.symm
      exact hchild u hu v hv hparent (ih (N.number v) (by omega) hv rfl)

/-- Every unit is on a line from the stable unit. -/
lemma exists_line (hu : u ∈ us) :
    ∃ p, Line N us (N.hash S) p (N.hash u) := by
  refine h.induction hN (P := fun u => ∃ p, Line N us (N.hash S) p (N.hash u)) ?_ ?_ hu
  · intro u hu hparent
    refine ⟨[] ++ [u], .snoc ?_ hu⟩
    rw [hparent]
    exact .nil
  rintro u hu v hv hparent ⟨p, hline⟩
  refine ⟨p ++ [u], .snoc ?_ hu⟩
  rwa [← hparent]

lemma number_lt (hu : u ∈ us) :
    N.number S < N.number u := by
  refine h.induction hN (P := fun u => N.number S < N.number u) ?_ ?_ hu
  · intro u _ hparent
    have := hN.number_parent u S hparent
    omega
  intro u _ v _ hparent hv
  have := hN.number_parent u v hparent.symm
  omega

lemma hash_ne (hu : u ∈ us) :
    N.hash u ≠ N.hash S := by
  intro heq
  have := h.number_lt hN hu
  have := hN.number_hash u S heq
  omega

end ValidTree

/-! ### Delivered units -/

/-- The mem DAG has the units of `held` over the stable unit `S`, attached or as orphans, and
nothing has become stable or failed. -/
structure Delivered (N : Node U H) (db : Kv U H) (S : U) (held : Set U)
    (s : MemDag U H) : Prop where
  faithful : Faithful N S s
  history : s.history = []
  db_eq : s.db = db
  stable : s.stableUnitHash = N.hash S ∧ s.stableUnitHeight = N.number S
  chain : ∀ k u, unitAt s.chainUnits k = some u → k = N.hash S ∨ u ∈ held
  orphans : ∀ k u, s.orphanUnits.lookup k = some u → u ∈ held ∧ k ∉ s.chainUnits
  held : ∀ u ∈ held, unitAt s.chainUnits (N.hash u) = some u ∨
    s.orphanUnits.lookup (N.hash u) = some u

/-- The orphan is not the one that is remembered for its parent. -/
def Lost (N : Node U H) (s : MemDag U H) (w : U) : Prop :=
  s.orphanUnits.lookup (N.hash w) = some w ∧
    s.orphanUnitsParants.lookup (N.parent w) ≠ some (N.hash w)

/-- Every orphan is remembered for its parent, and the parent is missing. -/
def Settled (N : Node U H) (s : MemDag U H) : Prop :=
  ∀ k w, s.orphanUnits.lookup k = some w →
    s.orphanUnitsParants.lookup (N.parent w) = some (N.hash w) ∧ ¬s.Attachable N w

/-! ### Lost and settled orphans -/

/-- An orphan that is lost stays lost. -/
lemma Lost.takeOrphan (hN : N.Chained) (hs : Rooted N s) {w : U} (h : Lost N s w) (hash : H) :
    Lost N (s.takeOrphan hash).1 w := by
  have hentry : (s.orphanUnitsParants.erase hash).lookup (N.parent w) ≠ some (N.hash w) := by
    by_cases hk : N.parent w = hash
    · subst hk
      simp
    · rw [lookup_erase_ne hk]
      exact h.2
  cases htaken : s.takeOrphan hash with
  | mk s₁ next =>
    cases next with
    | none =>
      obtain rfl | rfl := MemDag.takeOrphan_none htaken
      · exact ⟨h.1, hentry⟩
      · exact h
    | some v =>
      obtain ⟨key, hkey, -, rfl⟩ := MemDag.takeOrphan_some htaken
      refine ⟨?_, hentry⟩
      -- what is remembered for the hash is a child of it
      have hne : N.hash w ≠ key := by
        rintro rfl
        obtain ⟨w', hhash, hparent⟩ := hs.waiting hash _ hkey
        rw [← hparent, hN.parent_hash w' w hhash] at hkey
        exact h.2 hkey
      rw [lookup_erase_ne hne]
      exact h.1

/-- Once the orphan that waits for a hash is taken, no other orphan does. -/
lemma Settled.of_takeOrphan (hs : Rooted N s) {hash : H}
    (h : ∀ k w, s.orphanUnits.lookup k = some w →
      s.orphanUnitsParants.lookup (N.parent w) = some (N.hash w) ∧
        (s.Attachable N w → N.parent w = hash)) :
    Settled N (s.takeOrphan hash).1 := by
  have hother : ∀ k w, s.orphanUnits.lookup k = some w → N.parent w ≠ hash →
      (s.orphanUnitsParants.erase hash).lookup (N.parent w) = some (N.hash w) ∧
        ¬s.Attachable N w := by
    intro k w hw hne
    rw [lookup_erase_ne hne]
    exact ⟨(h k w hw).1, fun hattach => hne ((h k w hw).2 hattach)⟩
  cases hwait : s.orphanUnitsParants.lookup hash with
  | none =>
    have htaken : s.takeOrphan hash = (s, none) := by simp [takeOrphan, hwait]
    rw [htaken]
    intro k w hw
    have hne : N.parent w ≠ hash := by
      rintro rfl
      simp [(h k w hw).1] at hwait
    exact ⟨(h k w hw).1, (hother k w hw hne).2⟩
  | some key =>
    have hwaits : ∀ k w, s.orphanUnits.lookup k = some w → N.parent w = hash →
        k = key := by
      intro k w hw hparent
      have hentry := (h k w hw).1
      rw [hparent, hwait] at hentry
      exact (hs.orphanKey k w hw).symm.trans (some.inj hentry).symm
    cases hnext : s.orphanUnits.lookup key with
    | none =>
      have htaken : s.takeOrphan hash =
          ({ s with orphanUnitsParants := s.orphanUnitsParants.erase hash }, none) := by
        simp [takeOrphan, hwait, hnext]
      rw [htaken]
      intro k w hw
      refine hother k w hw fun hparent => ?_
      obtain rfl := hwaits k w hw hparent
      simp [hnext] at hw
    | some next =>
      have htaken : s.takeOrphan hash = ({ s with
          orphanUnitsParants := s.orphanUnitsParants.erase hash
          orphanUnits := s.orphanUnits.erase key }, some next) := by
        simp [takeOrphan, hwait, hnext]
      rw [htaken]
      intro k w hw
      obtain ⟨hne, hw⟩ := lookup_of_erase hw
      exact hother k w hw fun hparent => hne (hwaits k w hw hparent)

/-- Attaching a unit keeps the orphans; those that can be attached after it are its children. -/
lemma Settled.attached (h : Settled N s) {s₁ : MemDag U H} (hattached : s.Attached N u s₁) :
    ∀ k w, s₁.orphanUnits.lookup k = some w →
      s₁.orphanUnitsParants.lookup (N.parent w) = some (N.hash w) ∧
        (s₁.Attachable N w → N.parent w = N.hash u) := by
  obtain ⟨temps, tempdb, ct, last, -, rfl⟩ := hattached
  intro k w hw
  obtain ⟨hentry, hmissing⟩ := h k w hw
  refine ⟨hentry, ?_⟩
  rintro (hmem | hstable)
  · rw [mem_insert] at hmem
    exact hmem.resolve_right fun hmem => hmissing (.inl hmem)
  · exact absurd (.inr hstable) hmissing

/-- What adding a unit does to lost and to settled orphans. -/
structure KeepsOrphans (N : Node U H) (s s' : MemDag U H) : Prop where
  lost : ∀ w, Lost N s w → Lost N s' w
  settled : Settled N s → Settled N s'

namespace Delivered

variable {held : Set U}

/-- The units of a path are held. -/
lemma mem_of_path (hN : N.Chained) (h : Delivered N db S held s) {p : List U} {k : H}
    (hpath : Path N s.chainUnits s.stableUnitHash p k) : ∀ x ∈ p, x ∈ held := by
  rw [h.stable.1] at hpath
  intro x hx
  rcases h.chain _ x (hpath.unitAt_of_mem hx) with heq | hmem
  · have := (hpath.number_of_mem hN rfl hx).1
    have := hN.number_hash x S heq
    omega
  · exact hmem

lemma newMemDag (hN : N.Chained) (hS : N.getAssetId S = N.token)
    (hdb : Node.getNewestUnit db N.token = some (N.hash S, N.number S)) :
    Delivered N db S ∅ (Memunit.newMemDag N db S) := by
  refine ⟨Faithful.newMemDag hN hS hdb, rfl, rfl, ⟨rfl, rfl⟩, ?_, ?_, ?_⟩
  · intro k u hu
    exact .inl (unitAt_of_singleton hu).1
  · simp [Memunit.newMemDag]
  · simp

lemma addUnitHeight (h : Delivered N db S held s) (u : U) :
    Delivered N db S held (s.addUnitHeight N u) :=
  { h with faithful := h.faithful.addUnitHeight u }

lemma takeOrphan_none (h : Delivered N db S held s) {hash : H}
    (htaken : s.takeOrphan hash = (s', none)) : Delivered N db S held s' := by
  have hF := h.faithful.takeOrphan hash
  rw [htaken] at hF
  obtain rfl | rfl := MemDag.takeOrphan_none htaken
  · exact { h with faithful := hF }
  · exact h

/-- An orphan is taken out of the tables. -/
lemma takeOrphan_some (h : Delivered N db S held s) {hash : H} {next : U}
    (htaken : s.takeOrphan hash = (s', some next)) : Delivered N db S (held \ {next}) s' := by
  have hF := h.faithful.takeOrphan hash
  rw [htaken] at hF
  obtain ⟨key, -, hnext, rfl⟩ := MemDag.takeOrphan_some htaken
  have hkey : N.hash next = key := h.faithful.rooted.orphanKey key next hnext
  have hout := (h.orphans key next hnext).2
  refine ⟨hF, h.history, h.db_eq, h.stable, ?_, ?_, ?_⟩
  · intro k w hw
    refine (h.chain k w hw).imp_right fun hheld => ⟨hheld, ?_⟩
    rintro rfl
    rw [← (h.faithful.irreversible.unit hw).1, hkey] at hw
    exact hout (mem_of_unitAt hw)
  · intro k w hw
    obtain ⟨hne, hw⟩ := lookup_of_erase hw
    obtain ⟨hheld, hmem⟩ := h.orphans k w hw
    refine ⟨⟨hheld, ?_⟩, hmem⟩
    rintro rfl
    exact hne ((h.faithful.rooted.orphanKey k w hw).symm.trans hkey)
  rintro w ⟨hheld, hne⟩
  refine (h.held w hheld).imp_right fun hlookup => ?_
  rw [lookup_erase_ne, hlookup]
  rintro rfl
  rw [hlookup] at hnext
  exact hne (some.inj hnext)

variable (hN : N.Chained) (htree : ValidTree N db S us) (hheld : ∀ x ∈ held, x ∈ us)
  (h : Delivered N db S held s) (hu : u ∈ us) (hfresh : u ∉ held)
include hN htree hheld h hu hfresh

/-- A unit that is not held is in none of the tables. -/
lemma notMem : N.hash u ∉ s.chainUnits ∧ s.orphanUnits.lookup (N.hash u) = none := by
  have hne : ∀ x ∈ held, N.hash x ≠ N.hash u := by
    intro x hx heq
    rw [inj_on_of_nodup_map htree.distinct (hheld x hx) hu heq] at hx
    exact hfresh hx
  refine ⟨?_, ?_⟩
  · intro hmem
    obtain ⟨v, hv⟩ := h.faithful.irreversible.exists_unit hmem
    rcases h.chain _ v hv with heq | hheld
    · exact htree.hash_ne hN hu heq
    · exact hne v hheld (h.faithful.irreversible.unit hv).1
  cases hlookup : s.orphanUnits.lookup (N.hash u) with
  | none => rfl
  | some w =>
    refine absurd ?_ (hne w (h.orphans _ w hlookup).1)
    exact h.faithful.rooted.orphanKey _ w hlookup

/-- Attaching a unit of the tree. -/
lemma attach (hparent : s.Attachable N u) (isGenerate : Bool) :
    ∃ s₁, s.attach N u isGenerate = some (s₁, .attached) ∧ s.Attached N u s₁ ∧
      Delivered N db S (insert u held) s₁ := by
  obtain ⟨hmem, horphan⟩ := h.notMem hN htree hheld hu hfresh
  have hnumber := htree.number_lt hN hu
  rw [← h.stable.2] at hnumber
  have hF := h.faithful
  -- the unit is valid on the branch of its parent
  obtain ⟨p, hpath⟩ := hF.rooted.exists_path_parent hN hF.irreversible hparent hnumber
  have hline := hpath.line fun x hx => hheld x (h.mem_of_path hN hpath x hx)
  rw [h.stable.1] at hline
  obtain ⟨kv, ws, hkv, hvalid, hsave, hquiet⟩ := htree.valid p u hline hu
  rw [← h.db_eq] at hkv
  rw [← h.stable.2] at hquiet
  obtain ⟨s₁, hattach, hattached⟩ :=
    hF.exists_attached hN hparent hpath hmem hkv hvalid hsave hquiet isGenerate
  refine ⟨s₁, hattach, hattached, ?_⟩
  obtain ⟨temps, tempdb, ct, last, hct, rfl⟩ := id hattached
  have hF₁ := (hF.attach hN (htree.token u hu) (fun _ => ⟨hnumber, hmem⟩) hattach
    (by simp [h.history]) (by simp [h.history])).1
  refine ⟨hF₁, h.history, h.db_eq, h.stable, ?_, ?_, ?_⟩
  · intro k w hw
    obtain ⟨-, hw⟩ | hw := unitAt_of_insert hw
    · exact .inr (.inl (some.inj (hw.symm.trans hct)))
    · exact (h.chain k w hw).imp_right .inr
  · intro k w hw
    obtain ⟨hheld', hk⟩ := h.orphans k w hw
    refine ⟨.inr hheld', ?_⟩
    rw [mem_insert]
    rintro (rfl | hmem)
    · simp [horphan] at hw
    · exact hk hmem
  intro w hw
  by_cases hk : N.hash w = N.hash u
  · rcases hw with rfl | hw
    · exact .inl (by simp [hct])
    · rw [inj_on_of_nodup_map htree.distinct (hheld w hw) hu hk] at hw
      exact absurd hw hfresh
  rcases hw with rfl | hw
  · exact absurd rfl hk
  · rw [unitAt_insert_of_ne hk]
    exact h.held w hw

/-- Keeping a unit of the tree as an orphan. -/
lemma addOrphan : Delivered N db S (insert u held) (s.addOrphan N u) := by
  obtain ⟨hmem, horphan⟩ := h.notMem hN htree hheld hu hfresh
  have hF := h.faithful
  refine ⟨⟨hF.irreversible.addOrphan (htree.token u hu), hF.rooted.addOrphan u,
    { hF.branches with }, hF.saves⟩, h.history, h.db_eq, h.stable, ?_, ?_, ?_⟩
  · intro k w hw
    exact (h.chain k w hw).imp_right .inr
  · intro k w hw
    obtain ⟨rfl, rfl⟩ | ⟨-, hw⟩ := lookup_of_insert hw
    · exact ⟨.inl rfl, hmem⟩
    · exact (h.orphans k w hw).imp_left .inr
  intro w hw
  rcases hw with rfl | hw
  · exact .inr (by simp)
  refine (h.held w hw).imp_right fun hlookup => ?_
  rw [lookup_insert_ne, hlookup]
  intro heq
  rw [heq, horphan] at hlookup
  simp at hlookup

/-- A unit that can be attached is, and with it the orphans that wait for it. -/
lemma addUnitFrom
    (hparent : s.Attachable N u) (isGenerate : Bool) {fuel : ℕ}
    (hfuel : s.orphanUnits.keys.length < fuel) :
    ∃ s', MemDag.addUnitFrom N isGenerate fuel u s = some (s', .attached) ∧
      Delivered N db S (insert u held) s' ∧ KeepsOrphans N s s' := by
  induction fuel generalizing s u held with
  | zero => omega
  | succ fuel ih =>
    obtain ⟨s₁, hattach, hattached, h₁⟩ := h.attach hN htree hheld hu hfresh hparent isGenerate
    have hrooted := h₁.faithful.rooted
    obtain ⟨horphans, hself, hlost₁⟩ : s₁.orphanUnits = s.orphanUnits ∧
        N.hash u ∈ s₁.chainUnits ∧ ∀ w, Lost N s w → Lost N s₁ w := by
      obtain ⟨temps, tempdb, ct, last, -, rfl⟩ := hattached
      exact ⟨rfl, (mem_insert _).2 (.inl rfl), fun _ hw => hw⟩
    have hlost : ∀ w, Lost N s w → Lost N (s₁.takeOrphan (N.hash u)).1 w := fun w hw =>
      (hlost₁ w hw).takeOrphan hN hrooted _
    have hsettled : Settled N s → Settled N (s₁.takeOrphan (N.hash u)).1 := fun hs =>
      Settled.of_takeOrphan hrooted (hs.attached hattached)
    cases htaken : s₁.takeOrphan (N.hash u) with
    | mk s₂ next =>
      rw [htaken] at hlost hsettled
      cases next with
      | none =>
        refine ⟨s₂.addUnitHeight N u, ?_, (h₁.takeOrphan_none htaken).addUnitHeight u,
          hlost, hsettled⟩
        simp [MemDag.addUnitFrom, hattach, htaken]
      | some next =>
        have h₂ := h₁.takeOrphan_some htaken
        obtain ⟨key, hkey, hnext, hs₂⟩ := MemDag.takeOrphan_some htaken
        -- the next unit is a child of the unit
        have hnext' : next ∈ insert u held := (h₁.orphans key next hnext).1
        have hheld' : ∀ x ∈ insert u held, x ∈ us := by
          rintro x (rfl | hx)
          · exact hu
          · exact hheld x hx
        obtain ⟨w, hhash, hchild⟩ := hrooted.waiting _ _ hkey
        have hchild' : N.parent next = N.hash u := by
          rw [← hchild]
          exact hN.parent_hash _ _ ((hrooted.orphanKey _ next hnext).trans hhash.symm)
        have hparent₂ : s₂.Attachable N next := by
          rw [hs₂]
          exact .inl (hchild' ▸ hself)
        have hfuel₂ : s₂.orphanUnits.keys.length < fuel := by
          have hmem : key ∈ s.orphanUnits := by
            rw [← lookup_isSome, ← horphans, hnext]
            rfl
          have hpos : 0 < s.orphanUnits.keys.length :=
            length_pos_of_mem (mem_keys.1 hmem)
          rw [hs₂]
          rw [horphans, keys_erase, length_erase_of_mem (mem_keys.1 hmem)]
          omega
        obtain ⟨s₃, hrec, h₃, hkeeps⟩ := ih (fun x hx => hheld' x hx.1) h₂ (hheld' _ hnext')
          (by simp) hparent₂ hfuel₂
        have hall : insert next (insert u held \ {next}) = insert u held :=
          Set.insert_sdiff_self_of_mem hnext'
        rw [hall] at h₃
        refine ⟨s₃.addUnitHeight N u, ?_, h₃.addUnitHeight u,
          fun w hw => hkeeps.lost w (hlost w hw), fun hs => hkeeps.settled (hsettled hs)⟩
        simp [MemDag.addUnitFrom, hattach, htaken, hrec]

/-- Every call returns. The orphans stay settled unless a second one waits for a parent. -/
lemma addUnit (isGenerate : Bool) :
    ∃ s', s.addUnit N u isGenerate = some s' ∧ Delivered N db S (insert u held) s' ∧
      (∀ w, Lost N s w → Lost N s' w) ∧
      ((s.Attachable N u ∨ ∀ k w, s.orphanUnits.lookup k = some w → N.parent w ≠ N.parent u) →
        Settled N s → Settled N s') := by
  obtain ⟨hmem, horphan⟩ := h.notMem hN htree hheld hu hfresh
  have hnumber := htree.number_lt hN hu
  rw [← h.stable.2] at hnumber
  have hadd : s.addUnit N u isGenerate =
      (MemDag.addUnitFrom N isGenerate (s.orphanUnits.keys.length + 1) u s).map Prod.fst := by
    simp [MemDag.addUnit, hnumber, hmem]
  by_cases hparent : s.Attachable N u
  · obtain ⟨s', hfrom, h', hkeeps⟩ :=
      h.addUnitFrom hN htree hheld hu hfresh hparent isGenerate (Nat.lt_succ_self _)
    refine ⟨s', ?_, h', hkeeps.lost, fun _ => hkeeps.settled⟩
    rw [hadd, hfrom]
    rfl
  refine ⟨_, ?_, (h.addOrphan hN htree hheld hu hfresh).addUnitHeight u, ?_, ?_⟩
  · rw [hadd]
    unfold MemDag.addUnitFrom MemDag.attach
    rw [if_neg (show ¬(N.parent u ∈ s.chainUnits ∨ N.parent u = s.stableUnitHash) from hparent)]
    rfl
  · rintro w ⟨hw, hentry⟩
    have hne : N.hash w ≠ N.hash u := by
      intro heq
      rw [heq, horphan] at hw
      simp at hw
    refine ⟨(lookup_insert_ne hne).trans hw, ?_⟩
    change (s.orphanUnitsParants.insert (N.parent u) (N.hash u)).lookup (N.parent w) ≠ _
    by_cases hk : N.parent w = N.parent u
    · rw [hk, lookup_insert]
      exact fun heq => hne (some.inj heq).symm
    · rw [lookup_insert_ne hk]
      exact hentry
  intro hsibling hs k w hw
  replace hsibling := hsibling.resolve_left hparent
  change (s.orphanUnitsParants.insert (N.parent u) (N.hash u)).lookup (N.parent w) = _ ∧
    ¬s.Attachable N w
  obtain ⟨rfl, rfl⟩ | ⟨-, hw⟩ := lookup_of_insert hw
  · exact ⟨lookup_insert _, hparent⟩
  rw [lookup_insert_ne (hsibling k w hw)]
  exact hs k w hw

end Delivered

/-! ### Runs -/

/-- Of the delivered units no two wait for the same parent: a parent with two of them as children is
on a line of delivered units from the stable unit. -/
def OneWaits (N : Node U H) (S : U) (us : List U) : Prop :=
  ∀ u ∈ us, ∀ v ∈ us, u ≠ v → N.parent u = N.parent v → ∃ p, Line N us (N.hash S) p (N.parent u)

/-- The calls that deliver units; `isGenerate` is true for those that the node has produced. -/
def deliver (isGenerate : U → Bool) (us : List U) : List (Op U H) :=
  us.map fun u => .addUnit u (isGenerate u)

namespace Delivered

variable {held : Set U} {pre : List U}

/-- If the orphans are settled, what is on a line of held units is attached. -/
lemma attachable_of_line (h : Delivered N db S held s) (hsettled : Settled N s) {p : List U}
    {k : H} (hline : Line N pre (N.hash S) p k) (hp : ∀ x ∈ p, x ∈ held) :
    k ∈ s.chainUnits ∨ k = s.stableUnitHash := by
  induction hline with
  | nil => exact .inr h.stable.1.symm
  | @snoc p x _ _ ih =>
    have hparent : s.Attachable N x := ih fun y hy => hp y (mem_append_left _ hy)
    rcases h.held x (hp x (by simp)) with hx | hx
    · exact .inl (mem_of_unitAt hx)
    · exact absurd hparent (hsettled _ x hx).2

/-- Two orphans with one parent: one of them is lost. -/
lemma exists_lost {v : U} (hu : s.orphanUnits.lookup (N.hash u) = some u)
    (hv : s.orphanUnits.lookup (N.hash v) = some v) (hne : u ≠ v)
    (hparent : N.parent u = N.parent v) : ∃ w, Lost N s w := by
  by_cases hentry : s.orphanUnitsParants.lookup (N.parent u) = some (N.hash u)
  · refine ⟨v, hv, ?_⟩
    rw [← hparent, hentry]
    intro heq
    rw [← some.inj heq, hu] at hv
    exact hne (some.inj hv)
  · exact ⟨u, hu, hentry⟩

/-- If the parent of a held unit is on no line of held units, the unit is an orphan. -/
lemma orphan_of_not_line (hN : N.Chained) (htree : ValidTree N db S us)
    (h : Delivered N db S {x | x ∈ pre} s) (hpre : ∀ x ∈ pre, x ∈ us) (hu : u ∈ pre)
    (hline : ¬∃ p, Line N pre (N.hash S) p (N.parent u)) :
    s.orphanUnits.lookup (N.hash u) = some u := by
  refine (h.held u hu).resolve_left fun hunit => hline ?_
  have hF := h.faithful
  have hnumber := htree.number_lt hN (hpre u hu)
  rw [← h.stable.2] at hnumber
  obtain ⟨p, hpath⟩ := hF.rooted.exists_path hN hF.irreversible hunit hnumber
  have hne : p ≠ [] := by
    rintro rfl
    exact htree.hash_ne hN (hpre u hu) (hpath.eq_root.trans h.stable.1)
  obtain ⟨p₁, v, rfl, -, hv, hpath₁⟩ := hpath.exists_last hne
  obtain rfl : u = v := some.inj (hunit.symm.trans hv)
  refine ⟨p₁, ?_⟩
  rw [← h.stable.1]
  exact hpath₁.line fun x hx => h.mem_of_path hN hpath₁ x hx

/-- All calls return. Orphans are settled if at no time two delivered units waited for one parent;
otherwise an orphan is lost. -/
lemma run (hN : N.Chained) (hS : N.getAssetId S = N.token)
    (hdb : Node.getNewestUnit db N.token = some (N.hash S, N.number S))
    (htree : ValidTree N db S us) (isGenerate : U → Bool) (hpre : pre <+: us) :
    ∃ s, (Memunit.newMemDag N db S).run N (deliver isGenerate pre) = some s ∧
      Delivered N db S {x | x ∈ pre} s ∧
      ((∀ pre', pre' <+: pre → OneWaits N S pre') → Settled N s) ∧
      ((¬∀ pre', pre' <+: pre → OneWaits N S pre') → ∃ w, Lost N s w) := by
  induction pre using List.reverseRecOn with
  | nil =>
    refine ⟨_, rfl, ?_, ?_, ?_⟩
    · simpa using Delivered.newMemDag hN hS hdb
    · intro _ k w hw
      simp [Memunit.newMemDag] at hw
    intro hfalse
    refine absurd ?_ hfalse
    intro pre' hpre' u hu
    rw [prefix_nil.1 hpre'] at hu
    simp at hu
  | append_singleton pre u ih =>
    obtain ⟨s, hrun, h, hsettled, hlost⟩ := ih ((prefix_append _ _).trans hpre)
    have hmem : ∀ x ∈ pre ++ [u], x ∈ us := fun x hx => hpre.subset hx
    have hheld : ∀ x ∈ {x | x ∈ pre}, x ∈ us := fun x hx => hmem x (mem_append_left _ hx)
    have hfresh : u ∉ pre := by
      intro hu
      have hdistinct := (hpre.sublist.map N.hash).nodup htree.distinct
      rw [map_append, nodup_append] at hdistinct
      exact hdistinct.2.2 _ (List.mem_map_of_mem hu) _ (by simp) rfl
    obtain ⟨s', hadd, h', hlost', hsettled'⟩ :=
      h.addUnit hN htree hheld (hmem u (by simp)) hfresh (isGenerate u)
    have hset : insert u {x | x ∈ pre} = {x | x ∈ pre ++ [u]} := by
      ext x
      simp [or_comm]
    rw [hset] at h'
    refine ⟨s', ?_, h', ?_, ?_⟩
    · unfold MemDag.run deliver at hrun ⊢
      rw [map_append, foldlM_append, hrun]
      simp [MemDag.step, hadd]
    · intro hone
      have hs := hsettled fun pre' hpre' => hone pre' (hpre'.trans (prefix_append _ _))
      refine hsettled' ?_ hs
      by_contra hneither
      push Not at hneither
      obtain ⟨hmissing, k, w, hw, hparent⟩ := hneither
      -- a second unit waits for the parent, which is on no line
      have hw' : w ∈ pre := (h.orphans k w hw).1
      obtain ⟨p, hline⟩ := hone (pre ++ [u]) prefix_rfl w (mem_append_left _ hw') u
        (by simp) (fun heq => hfresh (heq ▸ hw')) hparent
      rw [hparent] at hline
      refine hmissing (h.attachable_of_line hs hline fun x hx => ?_)
      have hlt := hline.number_lt hN rfl x hx
      rcases mem_append.1 (hline.mem x hx) with hx | hx
      · exact hx
      · rw [mem_singleton.1 hx] at hlt
        omega
    intro hnot
    by_cases hbefore : ∀ pre', pre' <+: pre → OneWaits N S pre'
    · have hnow : ¬OneWaits N S (pre ++ [u]) := by
        intro hnow
        refine hnot fun pre' hpre' => ?_
        rcases prefix_concat_iff.1 hpre' with rfl | hpre'
        · exact hnow
        · exact hbefore pre' hpre'
      unfold OneWaits at hnow
      push Not at hnow
      obtain ⟨x, hx, y, hy, hne, hparent, hline⟩ := hnow
      refine exists_lost ?_ ?_ hne hparent
      · exact h'.orphan_of_not_line hN htree hmem hx (by simpa using hline)
      · exact h'.orphan_of_not_line hN htree hmem hy (by simpa [← hparent] using hline)
    · obtain ⟨w, hw⟩ := hlost hbefore
      exact ⟨w, hlost' w hw⟩

end Delivered

/-- Valid units that form a tree over the stable unit and make no unit stable are passed to
`AddUnit` in any order, each once. All calls return, and at the end all units are in `chainUnits`
and none in `orphanUnits` exactly if at no time two delivered units waited for the same parent. -/
theorem MemDag.delivery_iff (hN : N.Chained) (hS : N.getAssetId S = N.token)
    (hdb : Node.getNewestUnit db N.token = some (N.hash S, N.number S))
    (htree : ValidTree N db S us) (isGenerate : U → Bool) :
    ∃ s', (newMemDag N db S).run N (deliver isGenerate us) = some s' ∧
      ((∀ u ∈ us, N.hash u ∈ s'.chainUnits ∧ N.hash u ∉ s'.orphanUnits) ↔
        ∀ pre, pre <+: us → OneWaits N S pre) := by
  obtain ⟨s', hrun, h, hsettled, hlost⟩ :=
    Delivered.run hN hS hdb htree isGenerate (prefix_refl us)
  refine ⟨s', hrun, ?_, ?_⟩
  · intro hall
    by_contra hnot
    obtain ⟨w, hw, -⟩ := hlost hnot
    have hmem : N.hash w ∈ s'.orphanUnits := by
      rw [← lookup_isSome, hw]
      rfl
    exact (hall w (h.orphans _ w hw).1).2 hmem
  intro hone u hu
  obtain ⟨p, hline⟩ := htree.exists_line hN hu
  have hattached := h.attachable_of_line (hsettled hone) hline hline.mem
  have hchain : N.hash u ∈ s'.chainUnits := by
    refine hattached.resolve_right fun heq => ?_
    exact htree.hash_ne hN hu (heq.trans h.stable.1)
  refine ⟨hchain, fun hmem => ?_⟩
  obtain ⟨w, hw⟩ := isSome_iff_exists.1 (lookup_isSome.2 hmem)
  exact (h.orphans _ w hw).2 hchain

/-! ### Trees of small units -/

namespace SmallDag

/-- Without mediators that confirm. -/
abbrev full : Node Block BlockHash :=
  node false 0 []

lemma exists_save {kv : Kv Block BlockHash} {path : List ℕ} {b : Block} (hb : b.token = ptnCoin)
    (hparent : b.path.tail? = some path)
    (hnewest : Node.getNewestUnit kv ptnCoin = some (some path, path.length)) :
    ∃ ws, full.saveUnitToDb kv b = some (true, ws) := by
  have hnumber : b.path.length = path.length + 1 := by
    cases hpath : b.path with
    | nil => simp [hpath] at hparent
    | cons x rest =>
      rw [hpath] at hparent
      simp [← some.inj hparent]
  have hfollows : full.Follows (some path, path.length) b := by
    simp [Node.Follows, node, hparent, hnumber]
  refine ⟨full.saveHeader b ++ dataWrites (full.saveData kv b).2 ++ full.setNewestUnit b, ?_⟩
  unfold saveUnitToDb pushUnit
  rw [show full.getAssetId b = ptnCoin from hb, hnewest]
  simp only [hfollows, if_true]
  rfl

lemma exists_savedUnits {S : Block} (hS : S.token = ptnCoin) {us p : List Block} {h : BlockHash}
    (hus : ∀ b ∈ us, b.token = ptnCoin) (hline : Line full us (full.hash S) p h) :
    ∃ kv path, full.savedUnits (store S) p = some kv ∧ h = some path ∧
      Node.getNewestUnit kv ptnCoin = some (some path, path.length) := by
  induction hline with
  | nil =>
    refine ⟨store S, S.path, rfl, rfl, ?_⟩
    simp [store, Node.getNewestUnit, applyWrites, Node.saveHeader, Node.setNewestUnit, node, hS]
  | @snoc p b _ hb ih =>
    obtain ⟨kv, path, hkv, hparent, hnewest⟩ := ih
    obtain ⟨ws, hsave⟩ := exists_save (hus b hb) hparent hnewest
    refine ⟨applyWrites kv ws, b.path, ?_, rfl, ?_⟩
    · unfold savedUnits at hkv ⊢
      rw [foldlM_append, hkv]
      simp [savedUnit, hsave]
    · have hself := getNewestUnit_of_save hsave
      rwa [show full.getAssetId b = ptnCoin from hus b hb] at hself

/-- Units without group signatures that form a tree are valid. -/
lemma validTree {S : Block} (hS : S.token = ptnCoin) {us : List Block}
    (hdistinct : (us.map Block.path).Nodup)
    (hus : ∀ b ∈ us, b.token = ptnCoin ∧ b.groupSign = [])
    (hparent : ∀ b ∈ us, b.path.tail? = some S.path ∨ ∃ c ∈ us, some c.path = b.path.tail?) :
    ValidTree full (store S) S us where
  distinct := by
    have hmap : us.map full.hash = (us.map Block.path).map some := by
      simp [node]
    rw [hmap]
    exact hdistinct.map (some_injective _)
  token := fun b hb => (hus b hb).1
  parent := hparent
  valid := by
    intro p b hline hb
    obtain ⟨kv, path, hkv, hpath, hnewest⟩ := exists_savedUnits hS (fun b hb => (hus b hb).1) hline
    obtain ⟨ws, hsave⟩ := exists_save (hus b hb).1 hpath hnewest
    refine ⟨kv, ws, hkv, rfl, hsave, ?_, ?_⟩
    · simp [node, (hus b hb).2]
    · simp [confirmedNumber, node]

end SmallDag

/-! ### A sibling that is lost -/

namespace SiblingLost

open SmallDag

/-- A unit after the stable unit with number 1. -/
def block (path : List ℕ) : Block :=
  { path := path ++ [5] }

/-- Units 7 and 70 are children of unit 6, which comes last. -/
def siblingsFirst : List Block :=
  [block [7, 6], block [70, 6], block [6]]

/-- Unit 7 is still an orphan. -/
theorem orphan_left : ValidTree full (store (block [])) (block []) siblingsFirst ∧
    ∃ s', (newMemDag full (store (block [])) (block [])).run full
      (deliver (fun _ => false) siblingsFirst) = some s' ∧
      full.hash (block [7, 6]) ∉ s'.chainUnits ∧ full.hash (block [7, 6]) ∈ s'.orphanUnits := by
  refine ⟨SmallDag.validTree rfl (by decide) (by decide) (by decide), ?_⟩
  have hrun : ((newMemDag full (store (block [])) (block [])).run full
      (deliver (fun _ => false) siblingsFirst)).map (fun s =>
        (decide (full.hash (block [7, 6]) ∈ s.chainUnits),
          decide (full.hash (block [7, 6]) ∈ s.orphanUnits))) = some (false, true) := by
    decide +kernel
  obtain ⟨s', hs', hresult⟩ := map_eq_some_iff.1 hrun
  obtain ⟨hchain, horphan⟩ := Prod.mk.inj hresult
  exact ⟨s', hs', of_decide_eq_false hchain, of_decide_eq_true horphan⟩

/-- Units 8, 7 and 6 come in reverse order, and then a second child of unit 6. -/
def lineFirst : List Block :=
  [block [8, 7, 6], block [7, 6], block [6], block [70, 6]]

/-- All units are attached. -/
theorem all_attached : ∃ s', (newMemDag full (store (block [])) (block [])).run full
    (deliver (fun _ => false) lineFirst) = some s' ∧
    ∀ u ∈ lineFirst, full.hash u ∈ s'.chainUnits ∧ full.hash u ∉ s'.orphanUnits := by
  have htree : ValidTree full (store (block [])) (block []) lineFirst :=
    SmallDag.validTree rfl (by decide) (by decide) (by decide)
  obtain ⟨s', hrun, hiff⟩ := delivery_iff (SmallDag.chained false 0 []) rfl
    (by decide +kernel) htree (fun _ => false)
  refine ⟨s', hrun, hiff.2 ?_⟩
  have hall : ∀ pre ∈ lineFirst.inits, ∀ u ∈ pre, ∀ v ∈ pre, u = v ∨
      full.parent u ≠ full.parent v ∨
        (full.parent u = full.hash (block [6]) ∧ block [6] ∈ pre) := by
    decide +kernel
  intro pre hpre u hu v hv hne hparent
  obtain heq | hdiffer | ⟨hsix, hmem⟩ := hall pre ((mem_inits _ _).2 hpre) u hu v hv
  · exact absurd heq hne
  · exact absurd hparent hdiffer
  rw [hsix]
  exact ⟨[] ++ [block [6]], .snoc .nil hmem⟩

end SiblingLost

end ZwsChain.Memunit
