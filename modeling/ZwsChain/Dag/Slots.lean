import Mathlib
import ZwsChain.Dag.ApplyUnit

/-!
# Slots, turns and maintenance times

What `GetSlotTime`, `GetSlotAtTime`, `UpdateMediatorSchedule`, `GetScheduledMediator` and
`updateNextMaintenanceTime` compute, for all states of the chain.

* `UnitApplier.schedulesNext_iff`: when the next maintenance is the first that is not in the past.
* `UnitApplier.slotsInverse_iff`: when the two slot functions are inverse to each other.
* `fair_rotation`: a new schedule gives every active mediator one of as many slots as there are.
-/

open List Option UInt32 Nat

namespace ZwsChain

namespace UnitApplier

/-! ### Maintenance times -/

/-- Maintenance times are whole intervals apart; behind the first unit they are multiples. -/
def maintenanceBase (number : ChainIndex) (st : ChainProps) : Int :=
  if number.index = 1 then 0 else st.dgp.nextMaintenanceTime.toNat

/-- The first time after `time` that is whole intervals from `base`. -/
def firstAfter (base interval time : Int) : Int :=
  base + ((time - base) / interval + 1) * interval

/-- The next maintenance is the first after the head unit. -/
def SchedulesNext (unit : Header) (st : ChainProps) : Prop :=
  ∀ number, unit.number = some number → st.maintenanceInterval ≠ 0 →
    ∃ st', updateNextMaintenanceTime unit st = some st' ∧
      IsLeast {v : Int | unit.time < v ∧
        ∃ k : Int, v = maintenanceBase number st + k * st.maintenanceInterval.toNat}
        st'.dgp.nextMaintenanceTime.toNat

lemma isLeast_firstAfter {base interval time : Int} (hpos : 0 < interval) :
    IsLeast {v : Int | time < v ∧ ∃ k : Int, v = base + k * interval}
      (firstAfter base interval time) := by
  have hdiv := Int.mul_ediv_add_emod (time - base) interval
  have hmod := Int.emod_lt_of_pos (time - base) hpos
  refine ⟨⟨?_, _, rfl⟩, ?_⟩
  · unfold firstAfter
    linarith [mul_comm interval ((time - base) / interval)]
  rintro _ ⟨hlt, k, rfl⟩
  have hk : (time - base) / interval < k := Int.ediv_lt_of_lt_mul hpos (by linarith)
  unfold firstAfter
  linarith [mul_le_mul_of_nonneg_right (Int.add_one_le_of_lt hk) hpos.le]

lemma toNat_timestamp32_emod (time : Int) : ((timestamp32 time).toNat : Int) = time % 2 ^ 32 := by
  rw [timestamp32, UInt32.toNat_ofNat']
  omega

/-- The time is cut off towards zero and to 32 bits. -/
lemma updateNextMaintenanceTime_eq {unit : Header} {st : ChainProps} {number : ChainIndex}
    (hnumber : unit.number = some number) (hinterval : st.maintenanceInterval ≠ 0) :
    ∃ st', updateNextMaintenanceTime unit st = some st' ∧
      (st'.dgp.nextMaintenanceTime.toNat : Int) = (maintenanceBase number st +
        ((unit.time - maintenanceBase number st).tdiv st.maintenanceInterval.toNat + 1) *
          st.maintenanceInterval.toNat) % 2 ^ 32 := by
  have hne : (st.maintenanceInterval.toNat : Int) ≠ 0 := by
    simpa [← UInt32.toNat_inj] using hinterval
  simp only [updateNextMaintenanceTime, hnumber, bind_eq_bind, bind_some,
    if_neg hne, maintenanceBase]
  refine ⟨_, rfl, ?_⟩
  split_ifs
  · simp [toNat_timestamp32_emod]
  rw [UInt32.toNat_add, Int.natCast_mod, Int.natCast_add, toNat_timestamp32_emod]
  omega

/-- The next maintenance is the first after the unit exactly if the unit is not before the last
one, or whole intervals from it, and the time fits in 32 bits. -/
theorem schedulesNext_iff (unit : Header) (st : ChainProps) : SchedulesNext unit st ↔
    ∀ number, unit.number = some number → st.maintenanceInterval ≠ 0 →
      (maintenanceBase number st ≤ unit.time ∨
        (st.maintenanceInterval.toNat : Int) ∣ unit.time - maintenanceBase number st) ∧
      0 ≤ firstAfter (maintenanceBase number st) st.maintenanceInterval.toNat unit.time ∧
      firstAfter (maintenanceBase number st) st.maintenanceInterval.toNat unit.time < 2 ^ 32 := by
  refine forall_congr' fun number => forall₂_congr fun hnumber hinterval => ?_
  obtain ⟨st', hst', hvalue⟩ := updateNextMaintenanceTime_eq hnumber hinterval
  have hpos : (0 : Int) < st.maintenanceInterval.toNat := by
    have : st.maintenanceInterval.toNat ≠ 0 := by simpa [← UInt32.toNat_inj] using hinterval
    omega
  have hlt : (st.maintenanceInterval.toNat : Int) < 2 ^ 32 := by
    exact_mod_cast st.maintenanceInterval.toNat_lt
  have hleast := @isLeast_firstAfter (maintenanceBase number st) _ unit.time hpos
  have hunique : ∀ {v : Int}, IsLeast {v : Int | unit.time < v ∧ ∃ k : Int,
      v = maintenanceBase number st + k * st.maintenanceInterval.toNat} v ↔ v = _ :=
    ⟨fun h => h.unique hleast, fun h => h ▸ hleast⟩
  simp only [hst', some.injEq, exists_eq_left', hunique, hvalue, Int.tdiv_eq_ediv,
    Int.sub_nonneg, Int.sign_eq_one_of_pos hpos]
  split_ifs with hcut
  · rw [Int.add_zero, ← firstAfter, and_iff_right hcut]
    omega
  -- one interval more, which is no multiple of `2 ^ 32`
  have hmore : ∀ q : Int, maintenanceBase number st + (q + 1 + 1) * st.maintenanceInterval.toNat =
    maintenanceBase number st + (q + 1) * st.maintenanceInterval.toNat +
      st.maintenanceInterval.toNat := fun q => by ring
  rw [hmore, ← firstAfter]
  omega

end UnitApplier

open SmallChain in
/-- A maintenance shortly before the times leave 32 bits: the next one is in the past. -/
theorem maintenance_in_past : ∃ st st', st.dgp.nextMaintenanceTime = 4294967280 ∧
    UnitApplier.updateNextMaintenanceTime (unit 2 4294967290) st = some st' ∧
      st'.dgp.nextMaintenanceTime = 44 ∧ ¬ UnitApplier.SchedulesNext (unit 2 4294967290) st := by
  refine ⟨{ genesis 0 with dgp := { initDynGlobalProp with nextMaintenanceTime := 4294967280 } }, _,
    rfl, rfl, by decide +kernel, fun h => ?_⟩
  obtain ⟨st', hst', ⟨hlater, -⟩, -⟩ := h _ rfl (by decide)
  obtain rfl := some.inj hst'
  exact absurd hlater (by decide +kernel)

namespace UnitApplier

/-! ### Inverse slot functions -/

/-- Slot times grow with the number, and the slot of a time is the greatest that starts by then, or
0 without one. -/
def SlotsInverse (gasToken : AssetId) (st : ChainProps) (when : Int) : Prop :=
  st.gp.mediatorInterval ≠ 0 →
    (∀ n n' : UInt32, n ≠ 0 → n < n' → ∃ t t', st.propertyDb.getSlotTime gasToken n = some t ∧
      st.propertyDb.getSlotTime gasToken n' = some t' ∧ t < t') ∧
    ∃ k, st.propertyDb.getSlotAtTime gasToken when = some k ∧
      IsGreatest {n : UInt32 | n = 0 ∨ ∃ t, st.propertyDb.getSlotTime gasToken n = some t ∧
        t ≤ unixTime when} k

/-- No wrap matters to the first unit, or with slots of at most two seconds of which none is
skipped. -/
def Unwrapped (st : ChainProps) : Prop :=
  st.newestUnit.chainIndex.index = 0 ∨ st.gp.mediatorInterval.toNat ≤ 2 ∧ skipped st = 0

variable {st : ChainProps} {gasToken : AssetId} {when : Int}

lemma slotError_eq_zero (h : Unwrapped st) (n : UInt32) : slotError st n.toNat = 0 := by
  unfold slotError
  split_ifs with hgenesis
  · rfl
  obtain ⟨hle, hskip⟩ := h.resolve_left hgenesis
  have hmul := mul_le_mul (mul_le_mul_left (10 ^ 9) n.toNat_lt.le) hle
  rw [hskip, add_zero, mod_eq_of_lt n.toNat_lt,
    Int.bmod_eq_of_le (by omega) (by omega), Int.sub_self]

lemma unwrapped_of_growing (hinterval : 0 < st.gp.mediatorInterval.toNat)
    (h : ∀ n : UInt32, 1 < n → ∃ t t', st.propertyDb.getSlotTime gasToken 1 = some t ∧
      st.propertyDb.getSlotTime gasToken n = some t' ∧ t < t') : Unwrapped st := by
  refine or_iff_not_imp_left.2 fun hgenesis => ?_
  have hpos : ∀ n, 1 < n → n < 2 ^ 32 → 0 < ((10 ^ 9 * ((n + skipped st) % 2 ^ 32) *
      st.gp.mediatorInterval.toNat : Nat) : Int).bmod (2 ^ 64) := by
    intro n hn hn'
    have htoNat : (UInt32.ofNat n).toNat = n := toNat_ofNat_of_lt' hn'
    have hlt : 1 < UInt32.ofNat n := lt_iff_toNat_lt.2 (htoNat.symm ▸ hn)
    obtain ⟨t, t', ht, ht', hless⟩ := h _ hlt
    rw [getSlotTime_one gasToken hinterval rfl, some.injEq] at ht
    rw [getSlotTime_eq gasToken hinterval rfl (by rintro h0; simp [h0] at hlt), some.injEq] at ht'
    obtain ⟨k, rfl⟩ : ∃ k, n = k + 1 := ⟨n - 1, by omega⟩
    have hfirst : 0 ≤ (skipped st * st.gp.mediatorInterval.toNat : Int) := by positivity
    rw [← ht, ← ht', htoNat, slotError, if_neg hgenesis, slotStart_eq _ _ k] at hless
    unfold unixTime at hless
    push_cast at hless ⊢
    linarith
  have hskip := skipped_le st
  have hskips : skipped st = 0 := by
    by_contra hne
    have hwrap := hpos (2 ^ 32 - skipped st) (by omega) (by omega)
    rw [Nat.sub_add_cancel (by omega), Nat.mod_self] at hwrap
    simp at hwrap
  refine ⟨not_lt.1 fun hlong => ?_, hskips⟩
  -- the first duration that does not fit
  have hlt := st.gp.mediatorInterval.toNat_lt
  have hdiv := div_add_mod (2 ^ 63 - 1) (10 ^ 9 * st.gp.mediatorInterval.toNat)
  have hmod := Nat.mod_lt (2 ^ 63 - 1) (show 0 < 10 ^ 9 * st.gp.mediatorInterval.toNat by omega)
  have hle := @div_le_div_left (10 ^ 9 * 3) (10 ^ 9 * st.gp.mediatorInterval.toNat)
    (2 ^ 63 - 1) (by omega) (by decide)
  have hwrap := hpos ((2 ^ 63 - 1) / (10 ^ 9 * st.gp.mediatorInterval.toNat) + 1)
    (succ_lt_succ (div_pos (by omega) (by omega))) (by omega)
  rw [hskips, add_zero, mod_eq_of_lt (by omega), mul_right_comm, mul_succ, Int.bmod] at hwrap
  omega

/-- The two functions are inverse exactly if no slot time wraps and the slot of the time fits in 32
bits, or is cut to the last number. -/
theorem slotsInverse_iff (gasToken : AssetId) (st : ChainProps) (when : Int) :
    SlotsInverse gasToken st when ↔ (st.gp.mediatorInterval ≠ 0 → Unwrapped st ∧
      (slotAt st st.newestUnit.timestamp.toNat when < 2 ^ 32 ∨
        slotAt st st.newestUnit.timestamp.toNat when % 2 ^ 32 = 2 ^ 32 - 1)) := by
  refine forall_congr' fun hinterval => ?_
  rw [ne_eq, ← UInt8.toNat_inj, ← ne_eq, UInt8.toNat_zero, ← pos_iff_ne_zero] at hinterval
  have hexact : Unwrapped st → ∀ n : UInt32, n ≠ 0 → st.propertyDb.getSlotTime gasToken n =
      some (unixTime (slotStart st st.newestUnit.timestamp.toNat n.toNat)) := by
    intro hun n hn
    rw [getSlotTime_eq gasToken hinterval rfl hn, slotError_eq_zero hun, Int.add_zero]
  refine (and_congr_left' (b := Unwrapped st) ⟨fun hgrows => ?_, fun hun n n' hn hlt => ?_⟩).trans
    (and_congr_right fun hun => ?_)
  · exact unwrapped_of_growing hinterval fun n => hgrows 1 n (by decide)
  · refine ⟨_, _, hexact hun n hn, hexact hun n' ?_, ?_⟩
    · rintro rfl
      exact absurd hlt (by simp)
    have hmono : StrictMono (slotStart st st.newestUnit.timestamp.toNat) :=
      strictMono_nat_of_lt_succ fun n => by
        rw [slotStart_succ]
        omega
    exact Int.mul_lt_mul_of_pos_right (hmono (lt_iff_toNat_lt.1 hlt)) (by norm_num)
  obtain ⟨k, hk, hvalue⟩ := @getSlotAtTime_eq st _ when gasToken hinterval rfl
  have hset : ∀ n : UInt32, (n = 0 ∨ ∃ t, st.propertyDb.getSlotTime gasToken n = some t ∧
      t ≤ unixTime when) ↔
        n.toNat = 0 ∨ n.toNat ≤ slotAt st st.newestUnit.timestamp.toNat when := by
    intro n
    rw [← UInt32.toNat_inj]
    refine or_congr_right' fun hne => ?_
    rw [hexact hun n (mt UInt32.toNat_inj.2 hne), ← slotStart_le_iff hinterval (pos_of_ne_zero hne)]
    simp only [some.injEq, exists_eq_left', unixTime]
    omega
  constructor
  · rintro ⟨_, hk', -, hgreatest⟩
    obtain rfl := some.inj (hk.symm.trans hk')
    by_contra hlast
    have htop : (4294967295 : UInt32).toNat = 4294967295 := rfl
    have hmax := le_iff_toNat_le.1 (hgreatest ((hset 4294967295).2 (by omega)))
    split_ifs at hvalue <;> omega
  refine fun hlast => ⟨k, hk, (hset _).2 ?_, fun n hn => le_iff_toNat_le.2 ?_⟩
  · split_ifs at hvalue <;> omega
  have hn := (hset n).1 hn
  have hn' := n.toNat_lt
  split_ifs at hvalue <;> omega

end UnitApplier

open SmallChain SmallNode in
/-- With slots of three seconds, slot 3074457346 is far in the past. -/
theorem slot_in_past : ∃ st : ChainProps, st.newestUnit.timestamp = 306 ∧
    st.propertyDb.getSlotTime ptnCoin 3074457346 = some (-9223371729709551616) ∧
    ¬ UnitApplier.SlotsInverse ptnCoin st 309 := by
  have hpast : ({ genesis 0 with newestUnit := ⟨(outPoint 9).txHash, ⟨ptnCoin, 2⟩, 306⟩ } :
      ChainProps).propertyDb.getSlotTime ptnCoin 3074457346 = some (-9223371729709551616) := by
    decide +kernel
  refine ⟨_, rfl, hpast, fun h => ?_⟩
  obtain ⟨t, t', ht, ht', hlt⟩ := (h (by decide)).1 1 3074457346 (by decide) (by decide)
  obtain rfl := some.inj (hpast.symm.trans ht')
  obtain rfl : unixTime 309 = t := some.inj (ht ▸ by decide +kernel)
  exact absurd hlt (by decide)

/-! ### Turns -/

variable (seed : UInt64)

/-- Source: `dag/common/prop_repository.go`, `shuffleMediators`, the random number -/
def shuffleDraw (i : Nat) : UInt64 :=
  let k := seed <<< 32 + UInt64.ofNat i * 2685821657736338717
  let k := k ^^^ k >>> 12
  let k := k ^^^ k <<< 25
  let k := k ^^^ k >>> 27
  k * 2685821657736338717

/-- The `i`-th of `n` exchanges; `none` is an index out of range. -/
def shuffleStep (n : Nat) (ms : List Address) (i : Nat) :
    Option (List Address) := do
  let j := i + (shuffleDraw seed i).toNat % (n - i)
  let a ← ms[i]?
  let b ← ms[j]?
  some ((ms.set i b).set j a)

/-- Source: `dag/common/prop_repository.go`, `shuffleMediators` -/
def shuffleMediators (mediators : List Address) : Option (List Address) :=
  (List.range mediators.length).foldlM (shuffleStep seed mediators.length) mediators

/-- The schedule, unchanged if it is not due.
Source: `dag/common/prop_repository.go`, `UpdateMediatorSchedule` -/
def updateMediatorSchedule (active schedule : List Address) (index seed : UInt64) :
    Option (List Address) :=
  if active.length = 0 ∨ index.toNat % active.length ≠ 0 then some schedule
  else shuffleMediators seed active

lemma shuffleStep_perm {ms : List Address} {n i : Nat} (hn : ms.length = n)
    (hi : i < n) : ∃ ms', shuffleStep seed n ms i = some ms' ∧ ms'.Perm ms := by
  have hmod := Nat.mod_lt (shuffleDraw seed i).toNat (Nat.sub_pos_of_lt hi)
  have hi' : i < ms.length := hn ▸ hi
  have hj : i + (shuffleDraw seed i).toNat % (n - i) < ms.length := by omega
  refine ⟨_, ?_, set_set_perm hi' hj⟩
  simp [shuffleStep, getElem?_eq_getElem hi', getElem?_eq_getElem hj]

lemma shuffleMediators_perm (mediators : List Address) :
    ∃ ms, shuffleMediators seed mediators = some ms ∧ ms.Perm mediators := by
  have hloop : ∀ l : List Nat, (∀ i ∈ l, i < mediators.length) → ∀ ms : List Address,
      ms.Perm mediators → ∃ ms', l.foldlM (shuffleStep seed mediators.length) ms = some ms' ∧
        ms'.Perm mediators := by
    intro l
    induction l with
    | nil => exact fun _ ms hms => ⟨ms, rfl, hms⟩
    | cons i l ih =>
      intro hl ms hms
      obtain ⟨ms₁, hstep, hms₁⟩ := shuffleStep_perm seed hms.length_eq (hl i mem_cons_self)
      rw [foldlM_cons, hstep]
      exact ih (fun k hk => hl k (mem_cons_of_mem _ hk)) ms₁ (hms₁.trans hms)
  exact hloop _ (fun i hi => mem_range.1 hi) _ (List.Perm.refl _)

/-- A schedule that is due is a new order of the active mediators, and each of them has one of as
many slots, from the first slot of the chain on. -/
theorem fair_rotation {active schedule : List Address} {index seed : UInt64}
    (hnodup : active.Nodup) (hne : active ≠ []) (hdue : index.toNat % active.length = 0) :
    ∃ ms, updateMediatorSchedule active schedule index seed = some ms ∧ ms.Perm active ∧
      ms.Nodup ∧ ∀ (db : PropertyDb) dgp (slot : UInt32), db.retrieveMediatorSchl = some ms →
        db.retrieveDynGlobalProp = some dgp → slot.toNat + active.length ≤ 2 ^ 32 →
        1 ≤ dgp.currentAbsoluteSlot.toNat + slot.toNat →
        dgp.currentAbsoluteSlot.toNat + slot.toNat + active.length ≤ 2 ^ 64 →
        ((List.range active.length).map fun i =>
          db.getScheduledMediator (slot + UInt32.ofNat i)).Perm active := by
  obtain ⟨ms, hms, hperm⟩ := shuffleMediators_perm seed active
  have hlen := length_pos_iff.2 hne
  refine ⟨ms, ?_, hperm, hperm.nodup_iff.2 hnodup, ?_⟩
  · rw [updateMediatorSchedule, if_neg (by omega), hms]
  intro db dgp slot hschedule hdgp hslots hfirst hlast
  suffices h : ((List.range active.length).map fun i =>
      db.getScheduledMediator (slot + UInt32.ofNat i)) =
      ms.rotate (dgp.currentAbsoluteSlot.toNat + slot.toNat - 1) by
    rw [h]
    exact (rotate_perm _ _).trans hperm
  refine ext_getElem (by simp [hperm.length_eq]) fun i hi hi' => ?_
  have hi : i < active.length := by simpa using hi
  rw [getElem_map, getElem_range, getElem_rotate]
  have hslot : (slot + UInt32.ofNat i).toNat = slot.toNat + i := by
    rw [UInt32.toNat_add, UInt32.toNat_ofNat']
    omega
  have habs : (dgp.currentAbsoluteSlot + (slot + UInt32.ofNat i).toUInt64 - 1).toNat =
      i + (dgp.currentAbsoluteSlot.toNat + slot.toNat - 1) := by
    rw [UInt64.toNat_sub, UInt64.toNat_add, toNat_toUInt64, hslot, UInt64.toNat_one]
    omega
  simp only [PropertyDb.getScheduledMediator, hschedule, hdgp, getD_some, habs]
  rw [getD_eq_getElem?_getD, getElem?_eq_getElem (Nat.mod_lt _ (hperm.length_eq ▸ hlen)), getD_some]

/-- Three mediators. -/
def SmallChain.mediators : List Address :=
  [1, 2, 3].map fun n => newAddress [n] .publicKeyHash

open SmallChain in
/-- Behind the third unit the next three slots belong to the three mediators. -/
theorem rotation_of_three : ∃ ms, updateMediatorSchedule mediators [] 3 7 = some ms ∧
    ((List.range 3).map fun i => ({ genesis 0 with schedule := ms } : ChainProps).propertyDb
      |>.getScheduledMediator (1 + UInt32.ofNat i)).Perm mediators := by
  obtain ⟨ms, hms, -, -, hslots⟩ := @fair_rotation mediators [] 3 7 (by decide) (by decide) rfl
  exact ⟨ms, hms, hslots _ (genesis 0).dgp.toDynamicGlobalProperty 1 rfl rfl (by decide) (by decide)
    (by decide)⟩

open SmallChain in
/-- The slot of the genesis unit and the first slot belong to the same of three mediators. -/
theorem slot_zero_repeats : ∃ ms, updateMediatorSchedule mediators [] 0 7 = some ms ∧
    ¬ ((List.range 3).map fun i => ({ genesis 0 with schedule := ms } : ChainProps).propertyDb
      |>.getScheduledMediator (0 + UInt32.ofNat i)).Perm mediators :=
  ⟨_, rfl, by decide +kernel⟩

end ZwsChain
