import Mathlib
import ZwsChain.Modules.Message

/-!
# Chain properties and the mediators' time slots

`dag/storage/propertydb.go` and `dag/common/prop_repository.go`. The property database holds the
global property, the dynamic global property, the mediators' schedule and, for each token, the
newest unit. Time after the newest unit is cut into slots of one mediator interval; the schedule
says whose turn each slot is. A time is a number of nanoseconds since 1970.
Sources without a file are in `dag/modules/global_property.go`.
-/

namespace ZwsChain

/-- The chain parameters that the slots depend on.
Source: `GlobalProperty` -/
structure GlobalProperty where
  mediatorInterval : UInt8
  maintenanceSkipSlots : UInt8
  deriving DecidableEq

/-- Source: `DynamicGlobalProperty` -/
structure DynamicGlobalProperty where
  currentAbsoluteSlot : UInt64
  maintenanceFlag : Bool
  deriving DecidableEq

/-- Source: `NewDynGlobalProp` -/
def newDynGlobalProp : DynamicGlobalProperty :=
  ⟨0, false⟩

/-- Source: `UnitProperty` -/
structure UnitProperty where
  hash : Hash
  chainIndex : ChainIndex
  timestamp : UInt32
  deriving DecidableEq

/-- A record that cannot be retrieved is `none`.
Source: `dag/storage/propertydb.go`, `PropertyDb` -/
structure PropertyDb where
  retrieveGlobalProp : Option GlobalProperty
  retrieveDynGlobalProp : Option DynamicGlobalProperty
  /-- The field `CurrentShuffledMediators` of the schedule. -/
  retrieveMediatorSchl : Option (List Address)
  getNewestUnit : AssetId → Option UnitProperty

/-- Nanoseconds of a number of seconds.
Source: Go's `time.Unix(s, 0)` -/
def unixTime (s : Int) : Int :=
  s * 10 ^ 9

namespace PropertyDb

variable (db : PropertyDb) (gasToken : AssetId)

/-- The time stamp of the newest unit; without one the nil record is dereferenced.
Source: `dag/common/prop_repository.go`, `GetNewestUnitTimestamp` -/
def getNewestUnitTimestamp : Option Int :=
  (db.getNewestUnit gasToken).map fun u => (u.timestamp.toNat : Int)

/-- `none` is the division by a zero interval; the duration is an `int64` of nanoseconds.
Source: `dag/common/prop_repository.go`, `GetSlotTime` -/
def getSlotTime (slotNum : UInt32) : Option Int :=
  if slotNum = 0 then some 0
  else
    match db.retrieveGlobalProp, db.retrieveDynGlobalProp, db.getNewestUnit gasToken with
    | some gp, some dgp, some unitProperty =>
      let ts : Int := unitProperty.timestamp.toNat
      let interval : Int := gp.mediatorInterval.toNat
      if unitProperty.chainIndex.index = 0 then
        some (unixTime (ts + slotNum.toNat * interval))
      else if interval = 0 then none
      else
        let slotNum :=
          if dgp.maintenanceFlag then slotNum + gp.maintenanceSkipSlots.toUInt32 else slotNum
        some (unixTime (ts / interval * interval) +
          (10 ^ 9 * slotNum.toNat * interval).bmod (2 ^ 64))
    | _, _, _ => some 0

/-- The slot of a time in seconds.
Source: `dag/common/prop_repository.go`, `GetSlotAtTime` -/
def getSlotAtTime (when : Int) : Option UInt32 :=
  match db.retrieveGlobalProp with
  | none => some 0
  | some gp => do
      let firstSlotTime ← db.getSlotTime gasToken 1
      if unixTime when < firstSlotTime then some 0
      else
        let diffSecs := when - firstSlotTime / 10 ^ 9
        let interval : Int := gp.mediatorInterval.toNat
        if interval = 0 then some 0
        else some (UInt32.ofNat (diffSecs / interval % 2 ^ 32).toNat + 1)

/-- Source: `dag/common/prop_repository.go`, `GetScheduledMediator` -/
def getScheduledMediator (slotNum : UInt32) : Address :=
  let ms := db.retrieveMediatorSchl.getD []
  let dgp := db.retrieveDynGlobalProp.getD newDynGlobalProp
  let currentAbsoluteSlot := dgp.currentAbsoluteSlot + slotNum.toUInt64
  -- the genesis unit is not produced by a mediator, hence the subtraction
  ms.getD ((currentAbsoluteSlot - 1).toNat % ms.length) (FixedBytes.zero 21)

end PropertyDb

end ZwsChain
