import Mathlib
import ZwsChain.Common.Uint128
import ZwsChain.Dag.Property
import ZwsChain.Lib.HistoryRegister
import ZwsChain.Modules.Unit
import ZwsChain.Validator.Validate

/-!
# Applying a unit to the chain properties

`ApplyUnit` of `dag/common/unit_produce_repository.go`: it counts the missed slots, moves the
dynamic global property on to the slot of the unit, and performs the maintenance of the chain when
it is due. The units are those of the gas token's chain.

* `UnitApplier.InSlot`: the slot of a time after the head unit, by the times at which slots start.
* `UnitApplier.slots_counted`: along a run the absolute slot is the number of slots since genesis,
  and `RecentSlotsFilled` says which of the last 128 were filled.

The time of the newest unit is stored in 32 bits. With a later unit the count goes wrong
(`LateUnit.count_off`).
Sources without a file are in `dag/common/unit_produce_repository.go`.
-/

open List Option UInt32

namespace ZwsChain

/-! ### Properties -/

/-- The dynamic global property with all its fields.
Source: `dag/modules/global_property.go`, `DynamicGlobalProperty` -/
structure DynGlobalProp extends DynamicGlobalProperty where
  lastMediator : Address
  isShuffledSchedule : Bool
  nextMaintenanceTime : UInt32
  lastMaintenanceTime : UInt32
  recentSlotsFilled : Uint128
  deriving DecidableEq

/-- Source: `dag/modules/global_property.go`, `InitDynGlobalProp` -/
def initDynGlobalProp : DynGlobalProp :=
  { newDynGlobalProp with
    lastMediator := FixedBytes.zero 21
    isShuffledSchedule := false
    nextMaintenanceTime := 0
    lastMaintenanceTime := 0
    recentSlotsFilled := .maxValue }

/-- Source: `core/mediator.go`, `MediatorInfoExpand` -/
structure MediatorInfoExpand where
  totalMissed : UInt64
  lastConfirmedUnitNum : UInt32
  totalVotes : UInt64
  totalProduct : UInt64
  deriving DecidableEq

/-- What the maintenance of the chain can change. -/
structure Maintained where
  gp : GlobalProperty
  maintenanceInterval : UInt32
  activeMediatorsCount : Nat
  mediators : Table Address MediatorInfoExpand

/-- What `ApplyUnit` reads and writes. -/
structure ChainProps extends Maintained where
  schedule : List Address
  dgp : DynGlobalProp
  newestUnit : UnitProperty

/-- The property database for the gas token. -/
def ChainProps.propertyDb (st : ChainProps) : PropertyDb where
  retrieveGlobalProp := some st.gp
  retrieveDynGlobalProp := some st.dgp.toDynamicGlobalProperty
  retrieveMediatorSchl := some st.schedule
  getNewestUnit _ := some st.newestUnit

/-- A time in 32 bits.
Source: `dag/storage/propertydb.go`, `SetNewestUnit`, the variable `timestamp` -/
def timestamp32 (time : Int) : UInt32 :=
  ofNat (time % 2 ^ 32).toNat

/-! ### ApplyUnit -/

/-- The counting of votes with the change of the chain parameters, and the new order of the
mediators if it is shuffled.
Source: `UnitProduceRepository` -/
structure UnitApplier where
  P : Primitives
  gasToken : AssetId
  maintain : Header → Maintained → Option Maintained
  updateMediatorSchedule : ChainProps → Option (List Address)

namespace UnitApplier

variable (A : UnitApplier)

/-- A mediator whose record is missing is dereferenced.
Source: `updateMediatorMissedUnits`, loop -/
def countMissed (st : ChainProps) (missedUnits : UInt32) :
    Option (Table Address MediatorInfoExpand) :=
  (List.range missedUnits.toNat).foldlM (fun mediators i => do
    let mediatorMissed := st.propertyDb.getScheduledMediator (ofNat (i + 1))
    let med ← mediators.lookup mediatorMissed
    some (mediators.insert mediatorMissed { med with totalMissed := med.totalMissed + 1 }))
    st.mediators

variable (unit : Header)

/-- The number of missed slots in front of a unit.
Source: `updateMediatorMissedUnits` -/
def updateMediatorMissedUnits (st : ChainProps) : Option (UInt64 × ChainProps) := do
  let missedUnits ← st.propertyDb.getSlotAtTime A.gasToken unit.time
  if missedUnits = 0 then some (0, st)
  else
    let missedUnits := missedUnits - 1
    if missedUnits < ofNat st.activeMediatorsCount then do
      let mediators ← countMissed st missedUnits
      some (missedUnits.toUInt64, { st with mediators })
    else some (missedUnits.toUInt64, st)

/-- A unit without a number is dereferenced.
Source: `updateDynGlobalProp` -/
def updateDynGlobalProp (missedUnits : UInt64) (st : ChainProps) :
    Option ChainProps := do
  let number ← unit.number
  let totalSlot := missedUnits + 1
  some { st with
    newestUnit := ⟨unit.hash A.P, number, timestamp32 unit.time⟩
    dgp := { st.dgp with
      lastMediator := unit.author A.P
      isShuffledSchedule := false
      recentSlotsFilled := (st.dgp.recentSlotsFilled.lsh totalSlot).add64 1
      currentAbsoluteSlot := st.dgp.currentAbsoluteSlot + totalSlot } }

/-- Source: `updateSigningMediator` -/
def updateSigningMediator (st : ChainProps) : ChainProps :=
  let signingMediator := unit.author A.P
  match st.mediators.lookup signingMediator, unit.number with
  | some med, some number =>
    let med := { med with
      totalProduct := med.totalProduct + 1
      lastConfirmedUnitNum := number.index.toUInt32 }
    { st with mediators := st.mediators.insert signingMediator med }
  | _, _ => st

/-- The first unit is followed by a special maintenance; later ones are multiples of the interval
apart. A zero interval is divided by.
Source: `updateNextMaintenanceTime` -/
def updateNextMaintenanceTime (st : ChainProps) : Option ChainProps := do
  let number ← unit.number
  let maintenanceInterval : Int := st.maintenanceInterval.toNat
  if maintenanceInterval = 0 then none
  else
    let nextMaintenanceTime :=
      if number.index = 1 then
        timestamp32 ((unit.time.tdiv maintenanceInterval + 1) * maintenanceInterval)
      else
        let y := (unit.time - st.dgp.nextMaintenanceTime.toNat).tdiv maintenanceInterval
        st.dgp.nextMaintenanceTime + timestamp32 ((y + 1) * maintenanceInterval)
    some { st with dgp := { st.dgp with
      lastMaintenanceTime := st.dgp.nextMaintenanceTime, nextMaintenanceTime } }

/-- Source: `performChainMaintenance` -/
def performChainMaintenance (st : ChainProps) : Option ChainProps := do
  let maintained ← A.maintain unit st.toMaintained
  updateNextMaintenanceTime unit { st with toMaintained := maintained }

/-- Source: `ApplyUnit`, the variable
`maintenanceNeeded` -/
def maintenanceNeeded (st : ChainProps) : Bool :=
  !(timestamp32 unit.time < st.dgp.nextMaintenanceTime)

/-- Source: `updateMaintenanceFlag` -/
def updateMaintenanceFlag (newMaintenanceFlag : Bool) (st : ChainProps) : ChainProps :=
  { st with dgp := { st.dgp with maintenanceFlag := newMaintenanceFlag } }

/-- Source: `updateMediatorSchedule` -/
def shuffle (st : ChainProps) : ChainProps :=
  match A.updateMediatorSchedule st with
  | none => st
  | some schedule => { st with schedule, dgp := { st.dgp with isShuffledSchedule := true } }

/-- Source: `ApplyUnit`, the maintenance with its flag -/
def maintainChain (nextUnit : Header) (st : ChainProps) : Option ChainProps :=
  if maintenanceNeeded nextUnit st then
    (A.performChainMaintenance nextUnit st).map (updateMaintenanceFlag true)
  else some (updateMaintenanceFlag false st)

/-- `none` is a panic.
Source: `ApplyUnit` -/
def applyUnit (nextUnit : Header) (st : ChainProps) : Option ChainProps := do
  let (missed, st) ← A.updateMediatorMissedUnits nextUnit st
  let st ← A.updateDynGlobalProp nextUnit missed st
  let st ← A.maintainChain nextUnit (A.updateSigningMediator nextUnit st)
  some (A.shuffle st)

/-! ### Slots -/

/-- The time, in seconds, at which the `n`-th slot after a head unit of the given time starts. The
slots of the first unit follow the genesis unit; later ones are aligned to the interval, and some
are skipped behind a maintenance. -/
def slotStart (st : ChainProps) (headTime : Int) (n : Nat) : Int :=
  let interval : Int := st.gp.mediatorInterval.toNat
  if st.newestUnit.chainIndex.index = 0 then headTime + n * interval
  else
    let skipped := if st.dgp.maintenanceFlag then st.gp.maintenanceSkipSlots.toNat else 0
    headTime / interval * interval + (n + skipped : Nat) * interval

/-- A time falls into the `n`-th slot after the head unit. -/
structure InSlot (st : ChainProps) (headTime : Int) (n : Nat) (when : Int) : Prop where
  pos : 0 < n
  start : slotStart st headTime n ≤ when
  before : when < slotStart st headTime (n + 1)

/-- The units applied since genesis, with their slots and times; the last one comes first. Every
unit falls into a slot after the unit before it. -/
inductive SlotRun : ChainProps → List (Nat × Int) → Prop
  | genesis {st : ChainProps} {time : Int} (hdgp : st.dgp = initDynGlobalProp)
      (htime : st.newestUnit.timestamp = timestamp32 time) : SlotRun st [(0, time)]
  | apply {st st' : ChainProps} {slot n : Nat} {time : Int} {units : List (Nat × Int)}
      {unit : Header} (hrun : SlotRun st ((slot, time) :: units))
      (hslot : InSlot st time n unit.time) (happly : A.applyUnit unit st = some st') :
      SlotRun st' ((slot + n, unit.time) :: (slot, time) :: units)

/-! ### The slot of a time -/

variable {A} {st st' : ChainProps} {time when : Int} {n : Nat}

lemma slotStart_succ (st : ChainProps) (headTime : Int) (n : Nat) :
    slotStart st headTime (n + 1) = slotStart st headTime n + st.gp.mediatorInterval.toNat := by
  unfold slotStart
  split_ifs <;> push_cast <;> ring

lemma slotStart_eq (st : ChainProps) (headTime : Int) (n : Nat) :
    slotStart st headTime (n + 1) = slotStart st headTime 1 + n * st.gp.mediatorInterval.toNat := by
  induction n with
  | zero => simp
  | succ n ih =>
    rw [slotStart_succ, ih]
    push_cast
    ring

lemma InSlot.interval_pos (h : InSlot st time n when) : 0 < st.gp.mediatorInterval.toNat := by
  have hstart := h.start
  have hbefore := h.before
  rw [slotStart_succ] at hbefore
  omega

/-- The first slot starts after the head unit. -/
lemma lt_slotStart_one (hinterval : 0 < st.gp.mediatorInterval.toNat) :
    time < slotStart st time 1 := by
  have hpos : (0 : Int) < st.gp.mediatorInterval.toNat := by exact_mod_cast hinterval
  unfold slotStart
  generalize (st.gp.mediatorInterval.toNat : Int) = interval at hpos
  split_ifs
  · simpa using hpos
  all_goals
    have hmod := Int.emod_lt_of_pos time hpos
    have hdiv := Int.mul_ediv_add_emod time interval
    have hskip : (0 : Int) ≤ st.gp.maintenanceSkipSlots.toNat * interval := by positivity
    push_cast
    linarith [mul_comm interval (time / interval)]

/-- The slots that are skipped. -/
def skipped (st : ChainProps) : Nat :=
  if st.dgp.maintenanceFlag then st.gp.maintenanceSkipSlots.toNat else 0

lemma skipped_le (st : ChainProps) : 1 + skipped st ≤ 256 := by
  have hskip := st.gp.maintenanceSkipSlots.toNat_lt
  unfold skipped
  split_ifs <;> omega

/-- What the wraps, of the number at 32 bits and of the duration at 64, add to a slot time. -/
def slotError (st : ChainProps) (n : Nat) : Int :=
  if st.newestUnit.chainIndex.index = 0 then 0
  else ((10 ^ 9 * ((n + skipped st) % 2 ^ 32) * st.gp.mediatorInterval.toNat : Nat) : Int).bmod
    (2 ^ 64) - (10 ^ 9 * (n + skipped st) * st.gp.mediatorInterval.toNat : Nat)

/-- The slot of a time, in exact numbers. -/
def slotAt (st : ChainProps) (headTime when : Int) : Int :=
  (when - slotStart st headTime 1) / st.gp.mediatorInterval.toNat + 1

section Found

variable (gasToken : AssetId) {slot : UInt32} (hinterval : 0 < st.gp.mediatorInterval.toNat)
  (htime : (st.newestUnit.timestamp.toNat : Int) = time)

include hinterval

lemma slotStart_le_iff (hn : 0 < n) : slotStart st time n ≤ when ↔ n ≤ slotAt st time when := by
  obtain ⟨k, rfl⟩ : ∃ k, n = k + 1 := ⟨n - 1, by omega⟩
  have hle := @Int.le_ediv_iff_mul_le k (when - slotStart st time 1)
    st.gp.mediatorInterval.toNat (by omega)
  rw [slotStart_eq, slotAt]
  omega

include htime

lemma getSlotTime_eq (hslot : slot ≠ 0) : st.propertyDb.getSlotTime gasToken slot =
    some (unixTime (slotStart st time slot.toNat) + slotError st slot.toNat) := by
  have hskip : (if st.dgp.maintenanceFlag then slot + st.gp.maintenanceSkipSlots.toUInt32
      else slot).toNat = (slot.toNat + skipped st) % 2 ^ 32 := by
    unfold skipped
    split_ifs
    · rw [UInt32.toNat_add, UInt8.toNat_toUInt32]
    · exact (Nat.mod_eq_of_lt slot.toNat_lt).symm
  unfold PropertyDb.getSlotTime slotStart ChainProps.propertyDb slotError unixTime
  rw [if_neg hslot]
  simp only [if_neg (show (st.gp.mediatorInterval.toNat : Int) ≠ 0 by omega), hskip, htime,
    show (if st.dgp.maintenanceFlag then _ else 0) = skipped st from rfl]
  split_ifs
  · rw [Int.add_zero]
  · push_cast
    exact congrArg some (by ring)

/-- `GetSlotTime(1)` is the time at which the first slot starts. -/
lemma getSlotTime_one :
    st.propertyDb.getSlotTime gasToken 1 = some (unixTime (slotStart st time 1)) := by
  have hskip := skipped_le st
  have hmul := Nat.mul_le_mul (Nat.mul_le_mul_left (10 ^ 9) hskip)
    st.gp.mediatorInterval.toNat_lt.le
  rw [getSlotTime_eq gasToken hinterval htime (by decide), slotError, UInt32.toNat_one,
    Nat.mod_eq_of_lt (by omega), Int.bmod_eq_of_le (by omega) (by omega)]
  simp

/-- The slot that is found is cut to 32 bits. -/
lemma getSlotAtTime_eq : ∃ k, st.propertyDb.getSlotAtTime gasToken when = some k ∧
    (k.toNat : Int) = if slotAt st time when < 1 then 0 else slotAt st time when % 2 ^ 32 := by
  have hfirst : unixTime when < unixTime (slotStart st time 1) ↔ slotAt st time when < 1 := by
    have hone := @slotStart_le_iff st time when 1 hinterval one_pos
    unfold unixTime
    omega
  have hsecs : unixTime (slotStart st time 1) / 10 ^ 9 = slotStart st time 1 :=
    Int.mul_ediv_cancel _ (by norm_num)
  unfold PropertyDb.getSlotAtTime
  rw [getSlotTime_one gasToken hinterval htime]
  simp only [ChainProps.propertyDb, bind_eq_bind, bind_some, hfirst, hsecs]
  split_ifs with hzero hne
  · exact ⟨0, rfl, rfl⟩
  · omega
  refine ⟨_, rfl, ?_⟩
  unfold slotAt at hzero ⊢
  rw [UInt32.toNat_add, UInt32.toNat_ofNat', UInt32.toNat_one]
  omega

end Found

/-- `GetSlotAtTime` finds the slot. -/
lemma getSlotAtTime_of_inSlot (gasToken : AssetId) (h : InSlot st time n when)
    (htime : (st.newestUnit.timestamp.toNat : Int) = time) (hn : n < 2 ^ 32) :
    st.propertyDb.getSlotAtTime gasToken when = some (ofNat n) := by
  have hstart := (slotStart_le_iff h.interval_pos h.pos).1 h.start
  have hbefore := mt (slotStart_le_iff h.interval_pos n.succ_pos).2 (not_le.2 h.before)
  obtain ⟨k, hk, hvalue⟩ := @getSlotAtTime_eq st time when gasToken h.interval_pos htime
  rw [hk]
  refine congrArg some (UInt32.toNat_inj.1 ?_)
  rw [UInt32.toNat_ofNat_of_lt' hn]
  split_ifs at hvalue <;> omega

/-! ### One unit -/

/-- The part of the properties that counts slots. -/
def slotPart (st : ChainProps) : UInt64 × Uint128 × UInt32 :=
  (st.dgp.currentAbsoluteSlot, st.dgp.recentSlotsFilled, st.newestUnit.timestamp)

variable {unit : Header}

lemma updateMediatorMissedUnits_eq_some {k : UInt32} {missed : UInt64}
    (hslot : st.propertyDb.getSlotAtTime A.gasToken unit.time = some k) (hk : k ≠ 0)
    (h : A.updateMediatorMissedUnits unit st = some (missed, st')) :
    missed + 1 = k.toUInt64 ∧ slotPart st' = slotPart st := by
  have hmissed : (k - 1).toUInt64 + 1 = k.toUInt64 := by
    have hpos : 0 < k.toNat := Nat.pos_of_ne_zero fun h0 => hk (UInt32.toNat_inj.1 h0)
    have hlt := k.toNat_lt
    have hone : (k - 1).toNat = k.toNat - 1 :=
      UInt32.toNat_sub_of_le _ _ (UInt32.le_iff_toNat_le.2 hpos)
    apply UInt64.toNat_inj.1
    rw [UInt64.toNat_add, UInt32.toNat_toUInt64, UInt32.toNat_toUInt64, hone, UInt64.toNat_one]
    omega
  unfold updateMediatorMissedUnits at h
  simp only [hslot, bind_eq_bind, bind_some, if_neg hk] at h
  split_ifs at h
  · obtain ⟨mediators, -, h⟩ := bind_eq_some_iff.1 h
    cases h
    exact ⟨hmissed, rfl⟩
  · cases h
    exact ⟨hmissed, rfl⟩

lemma slotPart_maintainChain (h : A.maintainChain unit st = some st') :
    slotPart st' = slotPart st := by
  unfold maintainChain at h
  split_ifs at h
  · obtain ⟨st₁, h₁, rfl⟩ := map_eq_some_iff.1 h
    unfold performChainMaintenance updateNextMaintenanceTime at h₁
    simp only [bind_eq_bind, bind_eq_some_iff] at h₁
    obtain ⟨maintained, -, number, -, h₁⟩ := h₁
    split_ifs at h₁
    all_goals
      obtain rfl := some.inj h₁
      rfl
  · obtain rfl := some.inj h
    rfl

/-- A unit in a slot after the head moves the absolute slot and the register on by the number of
the slot. -/
lemma slotPart_applyUnit {k : UInt32}
    (hslot : st.propertyDb.getSlotAtTime A.gasToken unit.time = some k) (hk : k ≠ 0)
    (h : A.applyUnit unit st = some st') :
    slotPart st' = (st.dgp.currentAbsoluteSlot + k.toUInt64,
      (st.dgp.recentSlotsFilled.lsh k.toUInt64).add64 1, timestamp32 unit.time) := by
  unfold applyUnit at h
  simp only [bind_eq_bind, bind_eq_some_iff] at h
  obtain ⟨⟨missed, st₁⟩, hmissed, st₂, hdyn, st₃, hmaintain, h⟩ := h
  obtain ⟨htotal, hpart⟩ := updateMediatorMissedUnits_eq_some hslot hk hmissed
  unfold updateDynGlobalProp at hdyn
  simp only [bind_eq_bind, bind_eq_some_iff, htotal] at hdyn
  obtain ⟨number, -, hdyn⟩ := hdyn
  obtain ⟨habs, hrecent⟩ : st₁.dgp.currentAbsoluteSlot = st.dgp.currentAbsoluteSlot ∧
      st₁.dgp.recentSlotsFilled = st.dgp.recentSlotsFilled :=
    ⟨congrArg Prod.fst hpart, congrArg (fun x => x.2.1) hpart⟩
  calc slotPart st' = slotPart st₃ := by
        rw [← some.inj h, shuffle]
        split <;> rfl
    _ = slotPart st₂ := by
        rw [slotPart_maintainChain hmaintain, updateSigningMediator]
        split <;> rfl
    _ = _ := by
        rw [← some.inj hdyn, ← habs, ← hrecent]
        rfl

/-! ### Runs -/

/-- What holds along a run while the times fit in 32 bits. -/
structure Counted (st : ChainProps) (slot : Nat) (time : Int) (units : List (Nat × Int)) :
    Prop where
  timestamp : (st.newestUnit.timestamp.toNat : Int) = time
  slot_le : (slot : Int) ≤ time
  absolute : st.dgp.currentAbsoluteSlot.toNat = slot
  bounded : ∀ s ∈ ((slot, time) :: units).map Prod.fst, s ≤ slot
  recent : Lib.Records st.dgp.recentSlotsFilled.toBitVec slot
    {s | s ∈ ((slot, time) :: units).map Prod.fst}

lemma toNat_timestamp32 (h : 0 ≤ time ∧ time < 2 ^ 32) :
    ((timestamp32 time).toNat : Int) = time := by
  rw [timestamp32, UInt32.toNat_ofNat']
  omega

lemma Counted.apply {slot : Nat} {units : List (Nat × Int)}
    (hc : Counted st slot time units) (hslot : InSlot st time n unit.time)
    (htime : 0 ≤ unit.time ∧ unit.time < 2 ^ 32) (happly : A.applyUnit unit st = some st') :
    Counted st' (slot + n) unit.time ((slot, time) :: units) := by
  have hfirst : time < slotStart st time 1 := lt_slotStart_one hslot.interval_pos
  have hle : (slot + n : Int) ≤ unit.time := by
    obtain ⟨k, rfl⟩ : ∃ k, n = k + 1 := ⟨n - 1, by have := hslot.pos; omega⟩
    have hstart := hslot.start
    rw [slotStart_eq] at hstart
    have hk : (k : Int) ≤ k * st.gp.mediatorInterval.toNat :=
      le_mul_of_one_le_right (by omega) (by exact_mod_cast hslot.interval_pos)
    have hslot_le := hc.slot_le
    push_cast
    linarith
  have hn : n < 2 ^ 32 := by
    omega
  have hnat : (ofNat n).toUInt64.toNat = n := by
    rw [UInt32.toNat_toUInt64, UInt32.toNat_ofNat']
    omega
  have hk : ofNat n ≠ 0 := by
    intro h0
    have hpos := hslot.pos
    rw [h0] at hnat
    exact absurd hnat.symm hpos.ne'
  have hfound := getSlotAtTime_of_inSlot A.gasToken hslot hc.timestamp hn
  have hpart := slotPart_applyUnit hfound hk happly
  have habs : st'.dgp.currentAbsoluteSlot = _ := congrArg Prod.fst hpart
  have hrecent : st'.dgp.recentSlotsFilled = _ := congrArg (fun x => x.2.1) hpart
  have hstamp : st'.newestUnit.timestamp = _ := congrArg (fun x => x.2.2) hpart
  constructor
  · rw [hstamp, toNat_timestamp32 htime]
  · exact_mod_cast hle
  · rw [habs, UInt64.toNat_add, hnat, hc.absolute]
    omega
  · intro s hs
    rcases mem_cons.1 hs with rfl | hs
    · exact le_rfl
    · exact (hc.bounded s hs).trans (Nat.le_add_right slot n)
  rw [hrecent, Uint128.toBitVec_add64, Uint128.toBitVec_lsh, hnat]
  have hset : {s | s ∈ ((slot + n, unit.time) :: (slot, time) :: units).map Prod.fst} =
      insert (slot + n) {s | s ∈ ((slot, time) :: units).map Prod.fst} := by
    ext s
    exact mem_cons
  rw [hset]
  exact hc.recent.push hc.bounded hslot.pos

/-- A run counts. -/
lemma SlotRun.counted {l : List (Nat × Int)} (hrun : A.SlotRun st l)
    (htimes : ∀ e ∈ l, 0 ≤ e.2 ∧ e.2 < 2 ^ 32) :
    ∀ slot time units, l = (slot, time) :: units → Counted st slot time units := by
  induction hrun with
  | genesis hdgp htime =>
    rintro slot time units heq
    obtain ⟨⟨rfl, rfl⟩, rfl⟩ : (0 = slot ∧ _ = time) ∧ [] = units := by simpa using heq
    have hfits := htimes _ mem_cons_self
    constructor
    · rw [htime, toNat_timestamp32 hfits]
    · exact hfits.1
    · rw [hdgp]
      rfl
    · simp
    rw [hdgp]
    have hset : {s : Nat | s ∈ [0]} = {0} := by
      ext s
      exact mem_singleton
    show Lib.Records Uint128.maxValue.toBitVec 0 {s | s ∈ [0]}
    rw [hset, Uint128.toBitVec_maxValue]
    exact Lib.records_allOnes
  | apply hrun hslot happly ih =>
    rintro slot time units heq
    obtain ⟨⟨rfl, rfl⟩, rfl⟩ : (_ = slot ∧ _ = time) ∧ _ = units := by simpa using heq
    have hc := ih (fun e he => htimes e (mem_cons_of_mem _ he)) _ _ _ rfl
    exact hc.apply hslot (htimes _ mem_cons_self) happly

/-- Along a run whose times fit in 32 bits, the absolute slot is the number of slots since genesis,
and bit `j` of the register says whether a unit was produced in the slot `j` before the last. -/
theorem slots_counted {slot : Nat} {units : List (Nat × Int)}
    (hrun : A.SlotRun st ((slot, time) :: units))
    (htimes : ∀ e ∈ (slot, time) :: units, 0 ≤ e.2 ∧ e.2 < 2 ^ 32) :
    st.dgp.currentAbsoluteSlot.toNat = slot ∧
      ∀ j < 128, st.dgp.recentSlotsFilled.toBitVec.getLsbD j = true ↔
        slot < j ∨ slot - j ∈ ((slot, time) :: units).map Prod.fst := by
  have hc := hrun.counted htimes slot time units rfl
  exact ⟨hc.absolute, hc.recent⟩

end UnitApplier

/-! ### A small chain -/

namespace SmallChain

open SmallNode

/-- Maintenance changes nothing, the schedule is never shuffled. -/
def applier : UnitApplier where
  P := primitives
  gasToken := ptnCoin
  maintain _ m := some m
  updateMediatorSchedule _ := none

/-- A chain of three-second slots with one mediator; one slot is skipped behind a maintenance. -/
def genesis (time : Int) : ChainProps where
  gp := ⟨3, 1⟩
  maintenanceInterval := 60
  activeMediatorsCount := 1
  mediators := (∅ : Table Address MediatorInfoExpand).insert (FixedBytes.zero 21) ⟨0, 0, 0, 0⟩
  schedule := [FixedBytes.zero 21]
  dgp := initDynGlobalProp
  newestUnit := ⟨(outPoint 9).txHash, ⟨ptnCoin, 0⟩, timestamp32 time⟩

/-- A unit of a height and a time. -/
def unit (index : UInt64) (time : Int) : Header :=
  ⟨[], ⟨[], []⟩, (outPoint 8).txHash, [], some ⟨ptnCoin, index⟩, [], time, [], [], []⟩

/-- The properties after a unit. -/
def next (index : UInt64) (time : Int) (st : ChainProps) : ChainProps :=
  (applier.applyUnit (unit index time) st).getD st

lemma applyUnit_next {index : UInt64} {time : Int} {st : ChainProps}
    (h : (applier.applyUnit (unit index time) st).isSome = true) :
    applier.applyUnit (unit index time) st = some (next index time st) := by
  obtain ⟨st', hst'⟩ := isSome_iff_exists.1 h
  rw [next, hst', getD_some]

/-- A run of two units. -/
lemma slotRun_two (t₀ t₁ t₂ : Int) (n₁ n₂ : Nat)
    (h₁ : UnitApplier.InSlot (genesis t₀) t₀ n₁ t₁)
    (h₂ : UnitApplier.InSlot (next 1 t₁ (genesis t₀)) t₁ n₂ t₂)
    (hsome₁ : (applier.applyUnit (unit 1 t₁) (genesis t₀)).isSome = true)
    (hsome₂ : (applier.applyUnit (unit 2 t₂) (next 1 t₁ (genesis t₀))).isSome = true) :
    applier.SlotRun (next 2 t₂ (next 1 t₁ (genesis t₀)))
      [(0 + n₁ + n₂, t₂), (0 + n₁, t₁), (0, t₀)] := by
  have hrun₀ : applier.SlotRun (genesis t₀) [(0, t₀)] := .genesis rfl rfl
  have hrun₁ : applier.SlotRun (next 1 t₁ (genesis t₀)) [(0 + n₁, t₁), (0, t₀)] := by
    refine .apply hrun₀ ?_ (applyUnit_next hsome₁)
    exact h₁
  refine .apply hrun₁ ?_ (applyUnit_next hsome₂)
  exact h₂

end SmallChain

open SmallChain in
/-- Units in the slots 2 and 4: the slots 1 and 3 are missed. -/
theorem SmallChain.counted_missed :
    (next 2 315 (next 1 306 (genesis 300))).dgp.currentAbsoluteSlot.toNat = 4 ∧
      ∀ j < 128, (next 2 315 (next 1 306 (genesis 300))).dgp.recentSlotsFilled.toBitVec.getLsbD j =
        true ↔ 4 < j ∨ 4 - j ∈ [4, 2, 0] :=
  UnitApplier.slots_counted (slotRun_two 300 306 315 2 2 ⟨by decide, by decide, by decide⟩
    ⟨by decide, by decide +kernel, by decide +kernel⟩ (by decide +kernel) (by decide +kernel))
    (by decide)

open SmallChain in
/-- The first unit comes at a time beyond 32 bits, the second in the slot after it. The absolute
slot is twice the number of slots. -/
theorem LateUnit.count_off :
    applier.SlotRun (next 2 4294967304 (next 1 4294967298 (genesis 0)))
        [(1431655767, 4294967304), (1431655766, 4294967298), (0, 0)] ∧
      (next 2 4294967304 (next 1 4294967298 (genesis 0))).dgp.currentAbsoluteSlot =
        2863311533 := by
  refine ⟨?_, by decide +kernel⟩
  exact slotRun_two 0 4294967298 4294967304 1431655766 1
    ⟨by decide, by decide +kernel, by decide +kernel⟩
    ⟨by decide, by decide +kernel, by decide +kernel⟩ (by decide +kernel) (by decide +kernel)

end ZwsChain
