import Mathlib
import ZwsChain.Memunit.Branches

/-!
# The main chain

The last main chain unit is the stable unit or on a path from it, and no unit is higher
(`MemDag.MainChain`). Attaching units keeps this, and so does making a unit of the main chain
stable: `checkStableCondition` looks the unit up by its number in the temporary database of the
main chain, whose index above the stable unit has the main chain only (`Indexed`).

`SetUnitGroupSign` makes any known unit stable. If that unit is on a fork, the main chain is pruned
and `lastMainChainUnit` still points to its end (`ForkSigned.main_chain_lost`).
`MemDag.main_chain_iff`: over a run without failed saves, the main chain is intact in every state
exactly if group signatures arrive for units of the main chain only.
-/

open List Option

namespace ZwsChain.Memunit

open MemDag
open Lib (Overlay applyWrites forall_prefix_iff)

variable {U H : Type} [DecidableEq H]

/-- The last main chain unit is the stable unit or in the mem DAG, parent links lead from it to the
stable unit, and no unit of the mem DAG is higher. -/
def MemDag.MainChain (N : Node U H) (s : MemDag U H) : Prop :=
  (N.hash s.lastMainChainUnit = s.stableUnitHash ∨ N.hash s.lastMainChainUnit ∈ s.chainUnits) ∧
    (∃ us, Path N s.chainUnits s.stableUnitHash us (N.hash s.lastMainChainUnit)) ∧
    ∀ k u, unitAt s.chainUnits k = some u → N.number u ≤ N.number s.lastMainChainUnit

/-- A unit that gets a group signature above the stable unit is on the main chain. -/
def Op.OnMain (N : Node U H) (s : MemDag U H) : Op U H → Prop
  | .setUnitGroupSign uHash _ => ∀ v, unitAt s.chainUnits uHash = some v →
      s.stableUnitHeight < N.number v →
        ∃ us, Path N s.chainUnits s.stableUnitHash us (N.hash s.lastMainChainUnit) ∧
          ∃ x ∈ us, N.hash x = uHash
  | _ => True

/-! ### Headers by number -/

namespace Node

variable {N : Node U H} {kv : Kv U H} {u : U} {ok : Bool} {ws : Writes U H}

/-- A save writes nothing, or the header of the unit and then other records. -/
lemma writes_of_save (h : N.saveUnitToDb kv u = some (ok, ws)) :
    ws = [] ∨ ∃ rest, ws = N.saveHeader u ++ rest ∧
      ∀ k ∈ rest.map Prod.fst, (∃ b, k = .data b) ∨ ∃ token, k = .lastUnitInfo token := by
  obtain ⟨-, rfl | ⟨data, rfl⟩⟩ | ⟨-, newest, data, -, -, rfl⟩ := saveUnitToDb_cases h
  · exact .inl rfl
  · exact .inr ⟨_, rfl, fun k hk => .inl (key_dataWrites data k hk)⟩
  refine .inr ⟨dataWrites data ++ N.setNewestUnit u, append_assoc _ _ _, ?_⟩
  intro k hk
  rw [map_append, mem_append] at hk
  rcases hk with hk | hk
  · exact .inl (key_dataWrites data k hk)
  · simp only [setNewestUnit, map_cons, map_nil, mem_singleton] at hk
    exact .inr ⟨_, hk⟩

/-- The store has got the header of a unit, and its hash under its number. -/
structure HeaderSaved (N : Node U H) (u : U) (kv kv' : Kv U H) : Prop where
  index : ∀ token n, kv' (.headerHeight token n) = kv (.headerHeight token n) ∨
    (n = N.number u ∧ kv' (.headerHeight token n) = some (.hash (N.hash u)))
  self : kv' (.header (N.hash u)) = some (.header u)
  other : ∀ k, k ≠ N.hash u → kv' (.header k) = kv (.header k)

lemma headerSaved_saveHeader (kv : Kv U H) (u : U) :
    HeaderSaved N u kv (applyWrites kv (N.saveHeader u)) where
  index := by
    intro token n
    by_cases hkey : token = N.getAssetId u ∧ n = N.number u
    · obtain ⟨rfl, rfl⟩ := hkey
      exact .inr ⟨rfl, by simp [saveHeader]⟩
    · refine .inl (Lib.applyWrites_of_notMem ?_)
      simpa [saveHeader] using hkey
  self := by simp [saveHeader]
  other := by
    intro k hk
    refine Lib.applyWrites_of_notMem ?_
    simpa [saveHeader] using hk

/-- A save leaves the headers and their index as they are, or saves the header of the unit. -/
lemma header_of_save (h : N.saveUnitToDb kv u = some (ok, ws)) :
    applyWrites kv ws = kv ∨ HeaderSaved N u kv (applyWrites kv ws) := by
  obtain rfl | ⟨rest, rfl, hrest⟩ := writes_of_save h
  · exact .inl rfl
  have hsaved := headerSaved_saveHeader (N := N) kv u
  have hother : ∀ k, (∀ b, k ≠ .data b) → (∀ token, k ≠ .lastUnitInfo token) →
      applyWrites kv (N.saveHeader u ++ rest) k = applyWrites kv (N.saveHeader u) k := by
    intro k hdata hlast
    rw [Lib.applyWrites_append]
    refine Lib.applyWrites_of_notMem fun hmem => ?_
    rcases hrest k hmem with ⟨b, hb⟩ | ⟨token, htoken⟩
    · exact hdata b hb
    · exact hlast token htoken
  refine .inr ⟨fun token n => ?_, ?_, fun k hk => ?_⟩
  · rw [hother (.headerHeight token n) nofun nofun]
    exact hsaved.index token n
  · exact (hother (.header _) nofun nofun).trans hsaved.self
  · exact (hother (.header k) nofun nofun).trans (hsaved.other k hk)

end Node

/-- Above the number `n`, the store read through the overlay has the hashes of the units of the
branch under their numbers, and under these hashes headers with them. -/
def Indexed (N : Node U H) (db : Kv U H) (n : ℕ) (us : List U)
    (ov : Overlay (Key H) (Value U H)) : Prop :=
  ∀ m k, n < m → ov.get db (.headerHeight N.token m) = some (.hash k) →
    (∃ v ∈ us, N.hash v = k ∧ N.number v = m) ∧
      ∀ x, ov.get db (.header k) = some (.header x) → N.hash x = k

namespace Indexed

variable {N : Node U H} {db db' : Kv U H} {n n' : ℕ} {us us' : List U}
  {ov : Overlay (Key H) (Value U H)}

omit [DecidableEq H] in
lemma nil (hdb : ∀ m k, n < m → db (.headerHeight N.token m) ≠ some (.hash k)) :
    Indexed N db n [] .empty := by
  intro m k hm hk
  exact absurd hk (hdb m k hm)

lemma snoc (h : Indexed N db n us ov) {v : U} {ok : Bool} {ws : Writes U H}
    (hsave : N.saveUnitToDb (ov.get db) v = some (ok, ws)) :
    Indexed N db n (us ++ [v]) (ov.writes ws) := by
  intro m k hm hk
  rw [Overlay.get_writes] at hk ⊢
  have hold : ov.get db (.headerHeight N.token m) = some (.hash k) →
      ∃ w ∈ us ++ [v], N.hash w = k ∧ N.number w = m := by
    intro hk
    obtain ⟨w, hw, hw'⟩ := (h m k hm hk).1
    exact ⟨w, mem_append_left _ hw, hw'⟩
  rcases Node.header_of_save hsave with heq | hsaved
  · rw [heq] at hk ⊢
    exact ⟨hold hk, (h m k hm hk).2⟩
  by_cases hself : k = N.hash v
  · subst hself
    refine ⟨?_, ?_⟩
    · rcases hsaved.index N.token m with heq | ⟨rfl, -⟩
      · exact hold (heq ▸ hk)
      · exact ⟨v, by simp, rfl, rfl⟩
    intro x hx
    rw [hsaved.self] at hx
    simp only [some.injEq, Value.header.injEq] at hx
    rw [hx]
  rcases hsaved.index N.token m with heq | ⟨-, heq⟩
  · rw [heq] at hk
    rw [hsaved.other k hself]
    exact ⟨hold hk, (h m k hm hk).2⟩
  rw [heq] at hk
  simp only [some.injEq, Value.hash.injEq] at hk
  exact absurd hk.symm hself

omit [DecidableEq H] in
/-- The stable unit advances; the new stable database has other headers only for units up to it. -/
lemma advance (h : Indexed N db n (us ++ us') ov) (hn : n ≤ n') (hus : ∀ v ∈ us, N.number v ≤ n')
    (hindex : ∀ m, n' < m → db' (.headerHeight N.token m) = db (.headerHeight N.token m))
    (hheader : ∀ k, db' (.header k) = db (.header k) ∨
      ∃ x, db' (.header k) = some (.header x) ∧ N.hash x = k) :
    Indexed N db' n' us' ov := by
  intro m k hm hk
  rw [Overlay.get_congr (hindex m hm)] at hk
  obtain ⟨⟨v, hv, hhash, hnumber⟩, hold⟩ := h m k (by omega) hk
  refine ⟨⟨v, ?_, hhash, hnumber⟩, ?_⟩
  · rcases mem_append.1 hv with hv | hv
    · have := hus v hv
      omega
    · exact hv
  intro x hx
  rcases hheader k with heq | ⟨y, hy, hhash'⟩
  · rw [Overlay.get_congr heq] at hx
    exact hold x hx
  rcases Overlay.get_eq_or (o := ov) (.header k) with hread | hread
  · rw [hread db', hy] at hx
    simp only [some.injEq, Value.header.injEq] at hx
    rwa [← hx]
  · rw [hread db' db] at hx
    exact hold x hx

end Indexed

/-! ### Making a unit of the main chain stable -/

/-- What holds between the calls if no save failed and only units of the main chain became
stable. -/
structure OnChain (N : Node U H) (S : U) (s : MemDag U H) : Prop where
  irreversible : Irreversible N S s
  rooted : Rooted N s
  branches : Branches N s (Indexed N s.db s.stableUnitHeight)
  /-- The stable database has no hash under a number above the stable unit. -/
  index : ∀ m k, s.stableUnitHeight < m → s.db (.headerHeight N.token m) ≠ some (.hash k)
  last : ∃ us, Path N s.chainUnits s.stableUnitHash us (N.hash s.lastMainChainUnit)
  highest : ∀ k u, unitAt s.chainUnits k = some u → N.number u ≤ N.number s.lastMainChainUnit

/-- The mem DAG `t` has made units of `s` stable. -/
structure Advanced (N : Node U H) (s t : MemDag U H) : Prop where
  height : s.stableUnitHeight ≤ t.stableUnitHeight
  index : ∀ m, t.stableUnitHeight < m →
    t.db (.headerHeight N.token m) = s.db (.headerHeight N.token m)
  header : ∀ k, t.db (.header k) = s.db (.header k) ∨
    ∃ x, t.db (.header k) = some (.header x) ∧ N.hash x = k
  units : ∀ k w, unitAt s.chainUnits k = some w → t.stableUnitHeight < N.number w →
    unitAt t.chainUnits k = some w

variable {N : Node U H} {S : U} {s s' : MemDag U H} {u : U} {ok : Bool}
variable {k root : H} {units : Units U H} {us : List U} {v : U}

lemma Path.of_unitAt {units' : Units U H} (hpath : Path N units root us k)
    (hunits : ∀ u ∈ us, unitAt units' (N.hash u) = some u) : Path N units' root us k := by
  induction hpath with
  | nil => exact .nil
  | @snoc us u _ _ ih =>
    exact .snoc (ih fun v hv => hunits v (mem_append_left _ hv)) (hunits u (by simp))

lemma Path.parent_of_mem (hpath : Path N units root us k) (hv : v ∈ us) :
    N.parent v = root ∨ ∃ y ∈ us, N.hash y = N.parent v := by
  induction hpath with
  | nil => simp at hv
  | @snoc us u hpath _ ih =>
    have hmem : ∀ y ∈ us, y ∈ us ++ [u] := fun y hy => mem_append_left _ hy
    rcases mem_append.1 hv with hv | hv
    · exact (ih hv).imp_right fun ⟨y, hy, hhash⟩ => ⟨y, hmem y hy, hhash⟩
    obtain rfl := mem_singleton.1 hv
    by_cases hus : us = []
    · subst hus
      exact .inl hpath.eq_root
    · obtain ⟨us₁, y, rfl, hhash, -⟩ := hpath.exists_last hus
      exact .inr ⟨y, by simp, hhash⟩

namespace Advanced

lemma saveStable (hN : N.Chained) (hs : Irreversible N S s) {t t' : MemDag U H}
    (ht : Irreversible N S t) (h : Advanced N s t) (hu : N.getAssetId u = N.token)
    (hsave : t.saveStable N u = some (t', true)) : Advanced N s t' := by
  obtain ⟨ws, hws, ⟨⟨⟩, -⟩ | ⟨-, rfl⟩⟩ := saveStable_cases hsave
  have hnumber : N.number u = t.stableUnitHeight + 1 := (ht.follows hu hws).2
  have hle := h.height
  refine ⟨?_, ?_, ?_, ?_⟩
  · change s.stableUnitHeight ≤ N.number u
    omega
  · intro m hm
    have hm' : N.number u < m := hm
    rw [← h.index m (by omega)]
    rcases Node.header_of_save hws with heq | hsaved
    · exact congrFun heq _
    rcases hsaved.index N.token m with heq | ⟨rfl, -⟩
    · exact heq
    · omega
  · intro k
    change applyWrites t.db ws (.header k) = _ ∨ ∃ x, applyWrites t.db ws (.header k) = _ ∧ _
    rcases Node.header_of_save hws with heq | hsaved
    · rw [heq]
      exact h.header k
    by_cases hk : k = N.hash u
    · subst hk
      exact .inr ⟨u, hsaved.self, rfl⟩
    · rw [hsaved.other k hk]
      exact h.header k
  intro k w hw hlt
  have hlt' : N.number u < N.number w := hlt
  have hne : k ≠ N.hash u := by
    rintro rfl
    have := hN.number_hash w u (hs.unit hw).1
    omega
  rw [unitAt, AList.lookup_erase_ne hne]
  exact h.units k w hw (by omega)

/-- Saving the ancestors of a unit, and the unit itself, without failures. -/
lemma setNextStableUnit (hN : N.Chained) (hs : Irreversible N S s) (hu : N.getAssetId u = N.token)
    {fuel : ℕ} (hnext : setNextStableUnit N s.chainUnits fuel u s = some (s', ok))
    (hfail : ∀ w, .stableFailed w ∉ s'.history) : Advanced N s s' := by
  have key : (∃ w, .stableFailed w ∈ s'.history) ∨ (Irreversible N S s' ∧ Advanced N s s') := by
    refine setNextStableUnit_preserves
      (I := fun t => (∃ w, .stableFailed w ∈ t.history) ∨ (Irreversible N S t ∧ Advanced N s t))
      (D := fun v => N.getAssetId v = N.token) ?_ (fun k v hv => (hs.unit hv).2) hu
      (.inr ⟨hs, le_rfl, fun _ _ => rfl, fun _ => .inl rfl, fun _ _ hw _ => hw⟩) hnext
    rintro t t' v b (⟨w, hw⟩ | ⟨ht, hadv⟩) hv hsave
    · exact .inl ⟨w, (saveStable_history hsave).subset hw⟩
    cases b with
    | false =>
      obtain ⟨ws, -, ⟨-, rfl⟩ | ⟨⟨⟩, -⟩⟩ := saveStable_cases hsave
      exact .inl ⟨v, by simp⟩
    | true => exact .inr ⟨ht.saveStable hN hv hsave, hadv.saveStable hN hs ht hv hsave⟩
  rcases key with ⟨w, hw⟩ | ⟨-, hadv⟩
  · exact absurd hw (hfail w)
  · exact hadv

end Advanced

/-- The part of the main chain above a unit that becomes stable is not pruned. -/
lemma MemDag.path_of_removeForks (hN : N.Chained) {left snapshot : Units U H}
    (hpath : Path N units (N.hash v) us k) (hv : N.hash v ∉ units)
    (hleft : removeForks N (N.hash v) (N.number v) snapshot units = some left) :
    Path N left (N.hash v) us k := by
  have habove : ∀ y ∈ us, N.number v < N.number y := fun y hy => (hpath.number_of_mem hN rfl hy).1
  have hkeeps := removeForks_keeps (K := fun k => ∃ y ∈ us, N.hash y = k) ?_ hleft
  · refine hpath.of_unitAt fun y hy => ?_
    have hy' := hpath.unitAt_of_mem hy
    unfold unitAt at hy' ⊢
    rwa [hkeeps _ ⟨y, hy, rfl⟩]
  rintro k w ⟨y, hy, rfl⟩ hw
  obtain rfl : y = w := some.inj ((hpath.unitAt_of_mem hy).symm.trans hw)
  have hparent := hpath.parent_of_mem hy
  refine ⟨?_, ?_⟩
  · intro hmem
    rcases hparent with heq | hparent
    · exact absurd (heq ▸ hmem) hv
    · exact hparent
  intro f hlow hne
  have hother : ∀ x ∈ us, N.hash x ≠ N.hash f := by
    intro x hx heq
    have := habove x hx
    have := hN.number_hash x f heq
    omega
  refine ⟨hother y hy, ?_⟩
  rcases hparent with heq | ⟨x, hx, heq⟩
  · rw [heq]
    exact hne.symm
  · rw [← heq]
    exact hother x hx

namespace OnChain

lemma newMemDag (hN : N.Chained) {db : Kv U H} (hS : N.getAssetId S = N.token)
    (hdb : Node.getNewestUnit db N.token = some (N.hash S, N.number S))
    (hindex : ∀ m k, N.number S < m → db (.headerHeight N.token m) ≠ some (.hash k)) :
    OnChain N S (Memunit.newMemDag N db S) := by
  refine ⟨Irreversible.newMemDag hS hdb, Rooted.newMemDag N db S,
    Branches.newMemDag hN db (Indexed.nil hindex), hindex, ⟨[], .nil⟩, ?_⟩
  intro k u hu
  obtain ⟨-, rfl⟩ := unitAt_of_singleton hu
  exact le_rfl

variable (hN : N.Chained) (h : OnChain N S s)
include h

lemma mainChain : s.MainChain N := by
  obtain ⟨us, hpath⟩ := h.last
  refine ⟨?_, ⟨us, hpath⟩, h.highest⟩
  by_cases hus : us = []
  · subst hus
    exact .inl hpath.eq_root
  · obtain ⟨us₁, v, -, -, hv, -⟩ := hpath.exists_last hus
    exact .inr (mem_of_unitAt hv)

/-- A group signature is written to the header of the stable unit. -/
lemma saveHeader (hu : N.number u = s.stableUnitHeight) :
    OnChain N S { s with db := applyWrites s.db (N.saveHeader u) } := by
  have hirr := h.irreversible
  have hsaved := Node.headerSaved_saveHeader (N := N) s.db u
  have hindex : ∀ m, s.stableUnitHeight < m → applyWrites s.db (N.saveHeader u)
      (.headerHeight N.token m) = s.db (.headerHeight N.token m) := by
    intro m hm
    rcases hsaved.index N.token m with heq | ⟨rfl, -⟩
    · exact heq
    · omega
  refine ⟨{ hirr with newest := ?_ }, { h.rooted with }, { h.branches with tip := ?_ }, ?_, h.last,
    h.highest⟩
  · exact (Node.getNewestUnit_saveHeader_only _ _ _).trans hirr.newest
  · intro k ct us hct hpath
    obtain ⟨ov, hov, hindexed⟩ := h.branches.tip k ct us hct hpath
    have hwhole : Indexed N s.db s.stableUnitHeight ([] ++ us) ov := hindexed
    refine ⟨ov, hov, hwhole.advance le_rfl (by simp) hindex ?_⟩
    intro k
    by_cases hk : k = N.hash u
    · subst hk
      exact .inr ⟨u, hsaved.self, rfl⟩
    · exact .inl (hsaved.other k hk)
  intro m k hm
  change applyWrites s.db (N.saveHeader u) (.headerHeight N.token m) ≠ _
  rw [hindex m hm]
  exact h.index m k hm

include hN
variable {us : List U} {r : ℕ} {isGenerate : Bool} {groupSign : Bytes} {uHash : H}

/-- Making a unit of the main chain stable keeps the main chain. -/
lemma setStableUnit
    (hlast : Path N s.chainUnits s.stableUnitHash us (N.hash s.lastMainChainUnit))
    (hv : ∃ x ∈ us, N.hash x = N.hash v)
    (hstable : s.setStableUnit N (N.hash v) (N.number v) = some (s', ok))
    (hfail : ∀ w, .stableFailed w ∉ s'.history) : OnChain N S s' := by
  have hirr := h.irreversible
  cases ok with
  | false =>
    rcases setStableUnit_false hstable with rfl | ⟨w, hw⟩
    · exact h
    · exact absurd hw (hfail w)
  | true =>
    obtain ⟨-, hfalse⟩ | ⟨w, s₁, hheight, hw, hnext, hprune⟩ := setStableUnit_cases hstable
    · simp at hfalse
    obtain ⟨hfalse, -⟩ | ⟨-, left, hleft, hs'⟩ := hprune
    · simp at hfalse
    obtain ⟨hhash, htoken⟩ := hirr.unit hw
    have hadv : Advanced N s s₁ := by
      refine Advanced.setNextStableUnit hN hirr htoken hnext fun x hx => hfail x ?_
      rw [hs']
      exact mem_cons_of_mem _ hx
    obtain ⟨hirr', hstable'⟩ := hirr.setStableUnit hN hstable
    obtain ⟨hhash', hheight', -⟩ := hstable' rfl
    obtain ⟨hframe, hpart, -⟩ := setStableUnit_frame hstable
    have hheight₁ : s₁.stableUnitHeight = N.number v := by
      rw [hs'] at hheight'
      exact hheight'
    have hdb : s'.db = s₁.db := by rw [hs']
    obtain ⟨root, hroot, -⟩ := hirr.exists_stable
    -- the main chain up to the unit, and the rest of it
    obtain ⟨x, hx, hxv⟩ := hv
    obtain ⟨us₁, us₂, rfl, hpath₁, hpath₂⟩ := hlast.split hx
    rw [hxv] at hpath₁ hpath₂
    have hlow : ∀ y ∈ us₁, N.number y ≤ N.number v := by
      intro y hy
      rw [hpath₁.number_eq hN hroot rfl]
      exact (hpath₁.number_of_mem hN hroot hy).2
    refine ⟨hirr', h.rooted.setStableUnit hN hirr hstable, ?_, ?_, ?_, ?_⟩
    · refine h.branches.advance hpath₁ hframe hpart hhash' ?_
      intro us' k ov _ hov
      rw [hheight', hdb]
      refine hov.advance (Nat.le_of_lt hheight) hlow ?_ hadv.header
      rw [← hheight₁]
      exact hadv.index
    · intro m k hm
      rw [hdb, hadv.index m (by omega)]
      exact h.index m k (by omega)
    · rw [hhash', hframe.lastMainChainUnit]
      refine ⟨us₂, ?_⟩
      rw [hs']
      refine path_of_removeForks hN (hpath₂.of_unitAt fun y hy => ?_) ?_ hleft
      · refine hadv.units _ y (hpath₂.unitAt_of_mem hy) ?_
        rw [hheight₁]
        exact (hpath₂.number_of_mem hN rfl hy).1
      obtain ⟨s₀, hsave⟩ := saveStable_of_setNextStableUnit hnext
      obtain ⟨ws, -, ⟨⟨⟩, -⟩ | ⟨-, rfl⟩⟩ := saveStable_cases hsave
      simp [hhash]
    intro k y hy
    rw [hframe.lastMainChainUnit]
    exact h.highest k y (hpart.unitAt hy)

/-! ### Group signatures -/

variable (hfailed : s'.history.filterMap Event.failed? = [])
include hfailed

lemma setUnitGroupSign (hmain : (Op.setUnitGroupSign uHash groupSign : Op U H).OnMain N s)
    (hsign : s.setUnitGroupSign N uHash groupSign = some s') : OnChain N S s' := by
  obtain ⟨rfl, -⟩ | ⟨v, s₁, ok, hv, hlt, hstable, h'⟩ := setUnitGroupSign_cases hsign
  · exact h
  obtain ⟨rfl, -⟩ := h.irreversible.unit hv
  obtain ⟨us, hpath, hx⟩ := hmain v hv hlt
  have hs₁ : (∀ w, .stableFailed w ∉ s₁.history) → OnChain N S s₁ :=
    h.setStableUnit hN hpath hx hstable
  obtain ⟨-, rfl⟩ | ⟨rfl, rfl⟩ := h'
  · exact hs₁ fun w => notMem_of_failed hfailed rfl
  refine (hs₁ fun w => notMem_of_failed hfailed rfl).saveHeader ?_
  rw [N.number_setGroupSign]
  exact (((h.irreversible.setStableUnit hN hstable).2 rfl).2.1).symm

/-- A group signature that leaves the main chain intact is for a unit of it. -/
lemma onMain_of_mainChain
    (hsign : s.setUnitGroupSign N uHash groupSign = some s') (hchain : s'.MainChain N) :
    (Op.setUnitGroupSign uHash groupSign : Op U H).OnMain N s := by
  intro v hv hlt
  have hirr := h.irreversible
  obtain ⟨rfl, -⟩ := hirr.unit hv
  obtain ⟨root, hroot, hroot'⟩ := hirr.exists_stable
  have hne : N.hash v ≠ s.stableUnitHash := by
    intro heq
    have := hN.number_hash v root (heq.trans hroot.symm)
    omega
  obtain ⟨-, hlow⟩ | ⟨v', s₁, ok, hv', -, hstable, h'⟩ := setUnitGroupSign_cases hsign
  · exact absurd hlt (hlow v hv)
  obtain rfl : v = v' := some.inj (hv.symm.trans hv')
  obtain ⟨rfl, rfl⟩ | ⟨rfl, rfl⟩ := h'
  · obtain ⟨w, hw⟩ := exists_stableFailed hv hlt hne hstable
    exact absurd hw (notMem_of_failed hfailed rfl)
  -- the path to the unit, and from there to the end of the main chain
  obtain ⟨us₁, hpath₁⟩ := h.rooted.exists_path hN hirr hv hlt
  obtain ⟨-, ⟨us₂, hpath₂⟩, -⟩ := hchain
  obtain ⟨hframe, hpart, -⟩ := setStableUnit_frame hstable
  obtain ⟨hhash, -⟩ := (hirr.setStableUnit hN hstable).2 rfl
  have hpath₂' : Path N s₁.chainUnits s₁.stableUnitHash us₂ (N.hash s₁.lastMainChainUnit) :=
    hpath₂
  rw [hhash, hframe.lastMainChainUnit] at hpath₂'
  refine ⟨us₁ ++ us₂, hpath₁.append (hpath₂'.mono hpart), ?_⟩
  have hus₁ : us₁ ≠ [] := by
    rintro rfl
    exact hne hpath₁.eq_root
  obtain ⟨us₀, w, rfl, hw, -⟩ := hpath₁.exists_last hus₁
  exact ⟨w, by simp, hw⟩

variable (hu : N.getAssetId u = N.token)
include hu

omit hfailed in
/-- The unit that `checkStableCondition` finds is on the main chain. -/
lemma checkStableCondition
    (hlast : s.lastMainChainUnit = u) (hself : s.tempdb.lookup (N.hash u) = some ⟨r, some u⟩)
    (hnumber : s.stableUnitHeight < N.number u)
    (hcheck : s.checkStableCondition N ⟨r, some u⟩ u = some (s', ok))
    (hfail : ∀ w, .stableFailed w ∉ s'.history) : OnChain N S s' := by
  obtain rfl | ⟨v, hv, hstable⟩ := checkStableCondition_cases hcheck
  · exact h
  obtain ⟨us, hpath⟩ := h.last
  refine h.setStableUnit hN hpath ?_ hstable hfail
  rw [hlast] at hpath
  rcases hv with rfl | ⟨n, hn, hheader⟩
  · have hus : us ≠ [] := by
      rintro rfl
      obtain ⟨root, hroot, hroot'⟩ := h.irreversible.exists_stable
      have := hN.number_hash v root (hpath.eq_root.trans hroot.symm)
      omega
    obtain ⟨us₁, w, rfl, hw, -⟩ := hpath.exists_last hus
    exact ⟨w, by simp, hw⟩
  obtain ⟨ov, hov, hindexed⟩ := h.branches.tip _ _ us hself hpath
  rw [hov.view, hu] at hheader
  unfold Node.getHeaderByNumber at hheader
  split at hheader
  · rename_i k hk
    obtain ⟨⟨w, hw, hhash, -⟩, hold⟩ := hindexed n k hn hk
    split at hheader
    · rename_i x hx
      obtain rfl := some.inj hheader
      exact ⟨w, hw, hhash.trans (hold x hx).symm⟩
    · simp at hheader
  · simp at hheader

/-! ### Adding units -/

omit hfailed in
lemma grow (hparent : s.Attachable N u) (hnumber : s.stableUnitHeight < N.number u)
    (hmem : N.hash u ∉ s.chainUnits)
    (hpath : Path N s.chainUnits s.stableUnitHash us (N.parent u)) {s₁ : MemDag U H}
    (hgrown : Branches.Grown N s u r s₁) (hB : Branches N s₁ (Indexed N s.db s.stableUnitHeight)) :
    OnChain N S s₁ := by
  obtain ⟨hdb, hhash, hheight, hunits⟩ := hgrown.stable
  have hnew : ∀ k w, unitAt s₁.chainUnits k = some w → w = u ∨ unitAt s.chainUnits k = some w := by
    intro k w hw
    rw [hunits] at hw
    exact (unitAt_of_insert hw).imp_left fun hnew => (some.inj hnew.2).symm
  refine ⟨hgrown.keeps_irreversible h.irreversible hu hparent, h.rooted.grow hnumber hgrown,
    ?_, ?_, ?_, ?_⟩
  · rwa [hdb, hheight]
  · rw [hdb, hheight]
    exact h.index
  · rw [hunits, hhash]
    rcases hgrown.last with ⟨hlast, -⟩ | ⟨hlast, -⟩
    · rw [hlast]
      exact ⟨us ++ [u], .snoc (hpath.mono (Part.insert _ _ hmem)) (by simp)⟩
    rw [hlast]
    obtain ⟨us', hpath'⟩ := h.last
    exact ⟨us', hpath'.mono (Part.insert _ _ hmem)⟩
  intro k w hw
  rcases hgrown.last with ⟨hlast, hhigh⟩ | ⟨hlast, hlow⟩
  · rw [hlast]
    have hhigh' : N.number s.lastMainChainUnit ≤ N.number u := by
      rcases hhigh with heq | hlt
      · have := hN.number_parent u _ heq
        omega
      · omega
    rcases hnew k w hw with rfl | hw
    · exact le_rfl
    · exact (h.highest k w hw).trans hhigh'
  rw [hlast]
  rcases hnew k w hw with rfl | hw
  · exact hlow
  · exact h.highest k w hw

lemma attach (hfresh : Fresh N s u) {added : MemDag.Added}
    (hattach : s.attach N u isGenerate = some (s', added)) :
    OnChain N S s' ∧ ∀ k w, unitAt s'.chainUnits k = some w → k ≠ N.hash u →
      unitAt s.chainUnits k = some w := by
  have hirr := h.irreversible
  obtain ⟨-, -, rfl⟩ | ⟨-, ⟨temps, rfl⟩, hB⟩ |
    ⟨-, hparent, us, ov, ws, r, s₁, hpath, -, -, hgrown, hB, hs'⟩ :=
      h.branches.attach_cases hN hirr h.rooted (Indexed.nil h.index)
        (fun us v ov ok ws _ _ hov hsave => hov.snoc hsave) hfresh hattach
        (notMem_of_failed hfailed rfl) (notMem_of_failed hfailed rfl)
  · exact ⟨⟨hirr.addOrphan hu, h.rooted.addOrphan u, { h.branches with }, h.index, h.last,
      h.highest⟩, fun k w hw _ => hw⟩
  · exact ⟨⟨{ hirr with }, h.rooted.of_temps temps, hB, h.index, h.last, h.highest⟩,
      fun k w hw _ => hw⟩
  obtain ⟨hnumber, hmem⟩ := hfresh hparent
  obtain ⟨-, -, hheight, -⟩ := hgrown.stable
  have hs₁ := h.grow hN hu hparent hnumber hmem hpath hgrown hB
  obtain rfl | ⟨hlast, b, hcheck⟩ := hs'
  · exact ⟨hs₁, hgrown.unitAt_of_ne⟩
  have hpart := checkStableCondition_part hcheck
  exact ⟨hs₁.checkStableCondition hN hu hlast hgrown.self (by omega) hcheck
    fun w => notMem_of_failed hfailed rfl, fun k w hw => hgrown.unitAt_of_ne k w (hpart.unitAt hw)⟩

lemma addUnit (hadd : s.addUnit N u isGenerate = some s') : OnChain N S s' := by
  refine addUnit_preserves hN (fun t ht => ht.irreversible) (fun t ht => ht.rooted)
    ?_ ?_ ?_ h hu hadd
  · intro t v t' added ht hv hfresh hattach hsuffix
    refine ht.attach hN ?_ hv hfresh hattach
    exact filterMap_eq_nil_iff.2 fun e he =>
      filterMap_eq_nil_iff.1 hfailed e (hsuffix.subset he)
  · intro t hash ht
    have hirr := ht.irreversible.takeOrphan hash
    have hrooted := ht.rooted.takeOrphan hash
    obtain ⟨orphanUnits, orphanUnitsParants, heq, -⟩ := takeOrphan_frame t hash
    rw [heq] at hirr hrooted ⊢
    exact ⟨hirr, hrooted, { ht.branches with }, ht.index, ht.last, ht.highest⟩
  intro t v ht
  exact ⟨{ ht.irreversible with }, ht.rooted.addUnitHeight v, { ht.branches with }, ht.index,
    ht.last, ht.highest⟩

/-! ### Runs -/

omit hu in
lemma step {op : Op U H} (hop : op.Own N) (hstep : s.step N op = some s')
    (hmain : op.OnMain N s) : OnChain N S s' := by
  cases op with
  | addUnit u isGenerate => exact h.addUnit hN hfailed hop hstep
  | setUnitGroupSign uHash groupSign => exact h.setUnitGroupSign hN hfailed hmain hstep
  | saveHeader | addStableUnit => exact hop.elim
  | goroutine i =>
    obtain rfl | ⟨g, hg, rfl⟩ := step_goroutine_cases hstep
    · exact h
    obtain ⟨hirr, hrooted, hbranches⟩ := h.branches.goroutine hN h.irreversible h.rooted hg i
    cases g with
    | delHeightUnitsAndTemp | removeLowOrphanUnit =>
      exact ⟨hirr, hrooted, hbranches, h.index, h.last, h.highest⟩

end OnChain

/-- Over a run from a stable unit in which no save fails, the main chain is intact in every state
exactly if every group signature above the stable unit is for a unit of the main chain. The stable
database has no headers above the stable unit. -/
theorem MemDag.main_chain_iff (hN : N.Chained) {db : Kv U H} (hS : N.getAssetId S = N.token)
    (hdb : Node.getNewestUnit db N.token = some (N.hash S, N.number S))
    (hindex : ∀ m k, N.number S < m → db (.headerHeight N.token m) ≠ some (.hash k))
    {ops : List (Op U H)} (hops : ∀ op ∈ ops, op.Own N)
    (hvalid : ∀ pre, pre <+: ops → ∀ s', (newMemDag N db S).run N pre = some s' →
      s'.history.filterMap Event.failed? = []) :
    (∀ pre, pre <+: ops → ∀ s', (newMemDag N db S).run N pre = some s' → s'.MainChain N) ↔
      ∀ pre op, pre ++ [op] <+: ops → ∀ s₁ s', (newMemDag N db S).run N pre = some s₁ →
        s₁.step N op = some s' → op.OnMain N s₁ := by
  refine forall_prefix_iff (I := OnChain N S) (P := MemDag.MainChain N) hvalid
    (fun t ht => ht.mainChain) ?_ ?_ (OnChain.newMemDag hN hS hdb hindex)
  · intro op hop t t' ht hstep hfailed hmain
    exact ht.step hN hfailed (hops op hop) hstep hmain
  intro op _ t t' ht hstep hfailed hchain
  cases op with
  | setUnitGroupSign uHash groupSign => exact ht.onMain_of_mainChain hN hfailed hstep hchain
  | _ => trivial

/-! ### A group signature for a fork -/

namespace ForkSigned

open SmallDag

/-- A full node. -/
def full : Node Block BlockHash :=
  node false 0 []

/-- A unit after the stable unit with number 1. -/
def block (path : List ℕ) : Block :=
  { path := path ++ [5] }

/-- The state after calls. -/
def after (ops : List (Op Block BlockHash)) : Option (MemDag Block BlockHash) :=
  (newMemDag full (store (block [])) (block [])).run full ops

/-- Unit 6 is the main chain and unit 60 a fork; unit 60 gets a group signature. -/
def forkSigned : List (Op Block BlockHash) :=
  [.addUnit (block [6]) false, .addUnit (block [60]) false,
    .setUnitGroupSign (full.hash (block [60])) [1]]

/-- Unit 60 is stable, and the last main chain unit is unit 6, which is gone. -/
theorem main_chain_lost : ∃ s', after forkSigned = some s' ∧
    s'.history.filterMap Event.failed? = [] ∧ s'.stableUnitHash = full.hash (block [60]) ∧
    s'.lastMainChainUnit = block [6] ∧ ¬s'.MainChain full := by
  have hrun : (after forkSigned).map (fun s => (s.history.filterMap Event.failed?,
      s.stableUnitHash, s.lastMainChainUnit, decide (full.hash (block [6]) ∈ s.chainUnits))) =
      some ([], full.hash (block [60]), block [6], false) := by decide +kernel
  obtain ⟨s', hs', hresult⟩ := map_eq_some_iff.1 hrun
  simp only [Prod.mk.injEq] at hresult
  obtain ⟨hfailed, hhash, hlast, hgone⟩ := hresult
  refine ⟨s', hs', hfailed, hhash, hlast, ?_⟩
  rintro ⟨hstable | hmem, -⟩
  · rw [hlast, hhash] at hstable
    exact absurd hstable (by decide)
  · rw [hlast] at hmem
    exact of_decide_eq_false hgone hmem

/-- Unit 6 of the main chain gets a group signature, and unit 60 is pruned; unit 61 after it is an
orphan, unit 7 is the new end of the main chain. -/
def mainSigned : List (Op Block BlockHash) :=
  [.addUnit (block [6]) false, .addUnit (block [60]) false,
    .setUnitGroupSign (full.hash (block [6])) [1], .goroutine 0,
    .addUnit (block [61, 60]) false, .addUnit (block [7, 6]) false]

/-- The main chain is intact at the end of this run, with unit 6 stable and unit 7 last. -/
theorem main_chain_kept : ∃ s', after mainSigned = some s' ∧
    s'.stableUnitHash = full.hash (block [6]) ∧ s'.lastMainChainUnit = block [7, 6] ∧
    s'.MainChain full := by
  have hrun : (after mainSigned).map (fun s => (s.stableUnitHash, s.lastMainChainUnit)) =
      some (full.hash (block [6]), block [7, 6]) := by decide +kernel
  obtain ⟨s', hs', hresult⟩ := map_eq_some_iff.1 hrun
  obtain ⟨hhash, hlast⟩ := Prod.mk.inj hresult
  refine ⟨s', hs', hhash, hlast, ?_⟩
  refine (main_chain_iff (SmallDag.chained false 0 []) rfl (by decide +kernel) ?_ ?_ ?_).2 ?_
    mainSigned prefix_rfl s' hs'
  · intro m k hm
    have hm' : m ≠ 1 := Nat.ne_of_gt hm
    simp [store, applyWrites, Node.saveHeader, Node.setNewestUnit, node, block, hm']
  · simp [mainSigned, Op.Own, node, block]
  · have hall : ∀ pre ∈ mainSigned.inits, ∀ t ∈ after pre,
        t.history.filterMap Event.failed? = [] := by decide +kernel
    intro pre hpre t ht
    exact hall pre ((mem_inits _ _).2 hpre) t ht
  intro pre op hpre s₁ s₂ hs₁ _
  cases op with
  | setUnitGroupSign uHash groupSign =>
    obtain ⟨rfl, rfl⟩ : pre = mainSigned.take 2 ∧ uHash = full.hash (block [6]) := by
      rcases pre with _ | ⟨_, _ | ⟨_, _ | ⟨_, _ | ⟨_, _ | ⟨_, _ | ⟨_, pre⟩⟩⟩⟩⟩⟩ <;>
        simp [mainSigned] at hpre
      simp [mainSigned, hpre]
    have hstate : (after (mainSigned.take 2)).map (fun s => (s.stableUnitHash,
        s.lastMainChainUnit, unitAt s.chainUnits (full.hash (block [6])))) =
        some (full.hash (block []), block [6], some (block [6])) := by
      decide +kernel
    rw [show after (mainSigned.take 2) = some s₁ from hs₁] at hstate
    simp only [map_some, some.injEq, Prod.mk.injEq] at hstate
    obtain ⟨hstable, hlast, hunit⟩ := hstate
    intro v _ _
    rw [hstable, hlast]
    have hpath : Path full s₁.chainUnits (full.hash (block [])) ([] ++ [block [6]])
        (full.hash (block [6])) :=
      .snoc .nil hunit
    exact ⟨_, hpath, block [6], by simp, rfl⟩
  | _ => trivial

end ForkSigned

end ZwsChain.Memunit
