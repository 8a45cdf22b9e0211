import ZwsChain.Common.Address

/-!
# Chain parameters and the checks on their changes

The chain parameters are a record whose fields the code reaches by name through reflection: here a
function of the field, into the values of the field's kind. A change is a field name and a text;
`Kind.parse` is what both the type check and the assignment do with the text, and stores a number
cut to the width of the field.

* `checkSysConfigArgType`, `checkChainParameterValue`: the two checks. `none` is the division by a
  zero mediator interval.
* `updateChainParameter`: the assignment.
* `ChainParameters.Valid`: the documented constraints; the defaults satisfy them.

Sources without a file are in `core/chain_parameters.go`.
-/

namespace ZwsChain.Core

/-! ### Numbers in texts -/

/-- The errors of package `strconv`. -/
inductive NumError where
  | invalidSyntax
  | outOfRange
  deriving DecidableEq

/-- The loop of `ParseUint` in base 10: `maxVal` is the largest number of the width, and a number
that the next digit would carry over 64 bits is refused before it.
Source: `strconv`, `ParseUint` -/
def parseUintLoop (maxVal : ℕ) : Bytes → ℕ → ℕ × Option NumError
  | [], n => (n, none)
  | c :: s, n =>
    if 48 ≤ c ∧ c ≤ 57 then
      let n₁ := n * 10 + (c.toNat - 48)
      if n ≥ (2 ^ 64 - 1) / 10 + 1 ∨ n₁ > maxVal then (maxVal, some .outOfRange)
      else parseUintLoop maxVal s n₁
    else (0, some .invalidSyntax)

/-- The number comes with the error: zero for a text that is no number, the largest one for a
number that is too large.
Source: `strconv`, `ParseUint` with base 10 -/
def parseUint (bitSize : ℕ) (s : Bytes) : ℕ × Option NumError :=
  if s = [] then (0, some .invalidSyntax) else parseUintLoop (2 ^ bitSize - 1) s 0

/-- Source: `strconv`, `ParseInt` with base 10 and 64 bits -/
def parseInt (s : Bytes) : Except NumError ℤ :=
  let neg := s.head? = some 45
  let digits := if s.head? = some 43 ∨ s.head? = some 45 then s.tail else s
  match parseUint 64 digits with
  | (_, some .invalidSyntax) => .error .invalidSyntax
  | (un, _) =>
    if ¬ neg ∧ un ≥ 2 ^ 63 then .error .outOfRange
    else if neg ∧ un > 2 ^ 63 then .error .outOfRange
    else .ok (if neg then -un else un)

/-- Source: `strconv`, `ParseBool` -/
def parseBool (s : Bytes) : Except NumError Bool :=
  if s ∈ ["1", "t", "T", "true", "TRUE", "True"].map ascii then .ok true
  else if s ∈ ["0", "f", "F", "false", "FALSE", "False"].map ascii then .ok false
  else .error .invalidSyntax

/-- A number that is read with 64 bits, read with fewer: itself or the largest one. -/
lemma parseUintLoop_narrow {maxVal : ℕ} {s : Bytes} {m n : ℕ}
    (h : parseUintLoop (2 ^ 64 - 1) s m = (n, none)) :
    m ≤ n ∧ (m ≤ maxVal → (parseUintLoop maxVal s m).1 = min n maxVal) := by
  induction s generalizing m with
  | nil =>
    obtain rfl : m = n := congrArg Prod.fst h
    exact ⟨le_rfl, fun hm => (min_eq_left hm).symm⟩
  | cons c s ih =>
    by_cases hdigit : 48 ≤ c ∧ c ≤ 57
    · rw [parseUintLoop, if_pos hdigit] at h ⊢
      dsimp only at h ⊢
      split_ifs at h with hover
      · cases congrArg Prod.snd h
      obtain ⟨hle, hread⟩ := ih h
      refine ⟨by omega, fun _ => ?_⟩
      split_ifs with hnarrow
      · exact (min_eq_right (by omega)).symm
      · exact hread (by omega)
    · rw [parseUintLoop, if_neg hdigit] at h
      cases congrArg Prod.snd h

lemma parseUint_narrow {s : Bytes} {n : ℕ} (h : parseUint 64 s = (n, none)) (bitSize : ℕ) :
    (parseUint bitSize s).1 = min n (2 ^ bitSize - 1) := by
  rw [parseUint] at h ⊢
  split_ifs at h ⊢ with hs
  · cases congrArg Prod.snd h
  · exact (parseUintLoop_narrow h).2 (Nat.zero_le _)

/-! ### Fields -/

/-- The kinds of the fields. -/
inductive Kind where
  | uint8
  | uint32
  | uint64
  | int
  | int64
  | bool
  | string
  | float64
  deriving DecidableEq

/-- The values of a kind; a `float64` is its bits. -/
@[reducible] def Kind.Value : Kind → Type
  | .uint8 => UInt8
  | .uint32 => UInt32
  | .uint64 => UInt64
  | .int => Int64
  | .int64 => Int64
  | .bool => Bool
  | .string => Bytes
  | .float64 => UInt64

/-- The fields of the three records that make up the chain parameters.
Source: `ChainParametersBase`, `ChainParametersExtra104alpha`,
`ChainParametersExtra` -/
inductive Field where
  | generateUnitReward
  | pledgeDailyReward
  | rewardHeight
  | unitMaxSize
  | foundationAddress
  | depositAmountForMediator
  | depositAmountForJury
  | depositAmountForDeveloper
  | rmExpConFromSysParam
  | activeMediatorCount
  | maximumMediatorCount
  | mediatorInterval
  | maintenanceInterval
  | maintenanceSkipSlots
  | mediatorCreateFee
  | accountUpdateFee
  | transferPtnBaseFee
  | transferPtnPricePerKByte
  | uccMemory
  | uccCpuShares
  | uccCpuQuota
  | uccDisk
  | uccDuringTime
  | tempUccMemory
  | tempUccCpuShares
  | tempUccCpuQuota
  | contractSystemVersion
  | contractSignatureNum
  | contractElectionNum
  | contractTxTimeoutUnitFee
  | contractTxSizeUnitFee
  | contractTxInstallFeeLevel
  | contractTxDeployFeeLevel
  | contractTxInvokeFeeLevel
  | contractTxStopFeeLevel
  | pledgeAllocateThreshold
  | pledgeRecordsThreshold
  deriving DecidableEq

/-- The name of a field in the source. -/
def Field.name : Field → String
  | .generateUnitReward => "GenerateUnitReward"
  | .pledgeDailyReward => "PledgeDailyReward"
  | .rewardHeight => "RewardHeight"
  | .unitMaxSize => "UnitMaxSize"
  | .foundationAddress => "FoundationAddress"
  | .depositAmountForMediator => "DepositAmountForMediator"
  | .depositAmountForJury => "DepositAmountForJury"
  | .depositAmountForDeveloper => "DepositAmountForDeveloper"
  | .rmExpConFromSysParam => "RmExpConFromSysParam"
  | .activeMediatorCount => "ActiveMediatorCount"
  | .maximumMediatorCount => "MaximumMediatorCount"
  | .mediatorInterval => "MediatorInterval"
  | .maintenanceInterval => "MaintenanceInterval"
  | .maintenanceSkipSlots => "MaintenanceSkipSlots"
  | .mediatorCreateFee => "MediatorCreateFee"
  | .accountUpdateFee => "AccountUpdateFee"
  | .transferPtnBaseFee => "TransferPtnBaseFee"
  | .transferPtnPricePerKByte => "TransferPtnPricePerKByte"
  | .uccMemory => "UccMemory"
  | .uccCpuShares => "UccCpuShares"
  | .uccCpuQuota => "UccCpuQuota"
  | .uccDisk => "UccDisk"
  | .uccDuringTime => "UccDuringTime"
  | .tempUccMemory => "TempUccMemory"
  | .tempUccCpuShares => "TempUccCpuShares"
  | .tempUccCpuQuota => "TempUccCpuQuota"
  | .contractSystemVersion => "ContractSystemVersion"
  | .contractSignatureNum => "ContractSignatureNum"
  | .contractElectionNum => "ContractElectionNum"
  | .contractTxTimeoutUnitFee => "ContractTxTimeoutUnitFee"
  | .contractTxSizeUnitFee => "ContractTxSizeUnitFee"
  | .contractTxInstallFeeLevel => "ContractTxInstallFeeLevel"
  | .contractTxDeployFeeLevel => "ContractTxDeployFeeLevel"
  | .contractTxInvokeFeeLevel => "ContractTxInvokeFeeLevel"
  | .contractTxStopFeeLevel => "ContractTxStopFeeLevel"
  | .pledgeAllocateThreshold => "PledgeAllocateThreshold"
  | .pledgeRecordsThreshold => "PledgeRecordsThreshold"

/-- The kind of a field. -/
@[reducible] def Field.kind : Field → Kind
  | .foundationAddress | .contractSystemVersion => .string
  | .rmExpConFromSysParam => .bool
  | .activeMediatorCount | .maximumMediatorCount | .mediatorInterval
  | .maintenanceSkipSlots => .uint8
  | .maintenanceInterval => .uint32
  | .uccMemory | .uccCpuShares | .uccCpuQuota | .uccDisk | .uccDuringTime | .tempUccMemory
  | .tempUccCpuShares | .tempUccCpuQuota => .int64
  | .contractSignatureNum | .contractElectionNum | .pledgeAllocateThreshold
  | .pledgeRecordsThreshold => .int
  | .contractTxInstallFeeLevel | .contractTxDeployFeeLevel | .contractTxInvokeFeeLevel
  | .contractTxStopFeeLevel => .float64
  | _ => .uint64

/-- All fields, in the order of their declaration. -/
def Field.all : List Field :=
  [.generateUnitReward, .pledgeDailyReward, .rewardHeight, .unitMaxSize, .foundationAddress,
    .depositAmountForMediator, .depositAmountForJury, .depositAmountForDeveloper,
    .rmExpConFromSysParam, .activeMediatorCount, .maximumMediatorCount, .mediatorInterval,
    .maintenanceInterval, .maintenanceSkipSlots, .mediatorCreateFee, .accountUpdateFee,
    .transferPtnBaseFee, .transferPtnPricePerKByte, .uccMemory, .uccCpuShares, .uccCpuQuota,
    .uccDisk, .uccDuringTime, .tempUccMemory, .tempUccCpuShares, .tempUccCpuQuota,
    .contractSystemVersion, .contractSignatureNum, .contractElectionNum,
    .contractTxTimeoutUnitFee, .contractTxSizeUnitFee, .contractTxInstallFeeLevel,
    .contractTxDeployFeeLevel, .contractTxInvokeFeeLevel, .contractTxStopFeeLevel,
    .pledgeAllocateThreshold, .pledgeRecordsThreshold]

/-- The records embedded in the parameters: reflection finds them by their type name too. -/
def embedded : List String :=
  ["ChainParametersBase", "ChainParametersExtra", "ChainParametersExtra104alpha"]

/-- Source: `ChainParameters` -/
def ChainParameters : Type :=
  (f : Field) → f.kind.Value

namespace ChainParameters

/-- Source: `ActiveMediatorCount` -/
def activeMediatorCount (cp : ChainParameters) : UInt8 :=
  cp .activeMediatorCount

/-- Source: `MediatorInterval` -/
def mediatorInterval (cp : ChainParameters) : UInt8 :=
  cp .mediatorInterval

/-- Source: `MaintenanceInterval` -/
def maintenanceInterval (cp : ChainParameters) : UInt32 :=
  cp .maintenanceInterval

/-- Source: `MaintenanceSkipSlots` -/
def maintenanceSkipSlots (cp : ChainParameters) : UInt8 :=
  cp .maintenanceSkipSlots

/-- Source: `FoundationAddress` -/
def foundationAddress (cp : ChainParameters) : Bytes :=
  cp .foundationAddress

end ChainParameters

/-- The bounds that no change touches.
Source: `ImmutableChainParameters` -/
structure ImmutableChainParameters where
  minMaintSkipSlots : UInt8
  minimumMediatorCount : UInt8
  minMediatorInterval : UInt8

/-- Source: `NewImmutChainParams` and `core/defaultconfig.go` -/
def newImmutChainParams : ImmutableChainParameters where
  minMaintSkipSlots := 0
  minimumMediatorCount := 1
  minMediatorInterval := 1

/-- Source: `NewChainParams` and `core/defaultconfig.go` -/
def newChainParams : ChainParameters
  | .generateUnitReward => (15000 : UInt64)
  | .pledgeDailyReward => (288745000 : UInt64)
  | .rewardHeight => (100 : UInt64)
  | .unitMaxSize => (5 * 1024 * 1024 : UInt64)
  | .foundationAddress => ascii "P1LA8TkEWxU6FcMzkyeSbf9b9FwZwxrYRuF"
  | .depositAmountForMediator => (50 * 100000000 : UInt64)
  | .depositAmountForJury => (10 * 100000000 : UInt64)
  | .depositAmountForDeveloper => (1 * 100000000 : UInt64)
  | .rmExpConFromSysParam => true
  | .activeMediatorCount => (5 : UInt8)
  | .maximumMediatorCount => (1 : UInt8)
  | .mediatorInterval => (2 : UInt8)
  | .maintenanceInterval => (60 * 5 : UInt32)
  | .maintenanceSkipSlots => (0 : UInt8)
  | .mediatorCreateFee => (50000 : UInt64)
  | .accountUpdateFee => (1000000 : UInt64)
  | .transferPtnBaseFee => (5000 : UInt64)
  | .transferPtnPricePerKByte => (30000 : UInt64)
  | .uccMemory => (524288000 : Int64)
  | .uccCpuShares => (1024 : Int64)
  | .uccCpuQuota => (100000 : Int64)
  | .uccDisk => (1073741824 : Int64)
  | .uccDuringTime => (0 : Int64)
  | .tempUccMemory => (1073741824 : Int64)
  | .tempUccCpuShares => (1024 : Int64)
  | .tempUccCpuQuota => (200000 : Int64)
  | .contractSystemVersion => ascii ""
  | .contractSignatureNum => (3 : Int64)
  | .contractElectionNum => (4 : Int64)
  | .contractTxTimeoutUnitFee => (10 : UInt64)
  | .contractTxSizeUnitFee => (1 : UInt64)
  | .contractTxInstallFeeLevel => (0x4004000000000000 : UInt64)
  | .contractTxDeployFeeLevel => (0x3FF8000000000000 : UInt64)
  | .contractTxInvokeFeeLevel => (0x3FF0000000000000 : UInt64)
  | .contractTxStopFeeLevel => (0x3FE0000000000000 : UInt64)
  | .pledgeAllocateThreshold => (1000 : Int64)
  | .pledgeRecordsThreshold => (2000 : Int64)

/-! ### Checks and assignment -/

/-- An error of a check with its text, or one of `strconv`. -/
inductive ParamError where
  | msg (text : String)
  | num (e : NumError)
  deriving DecidableEq

section Parse

variable (parseFloat : Bytes → Except NumError UInt64)

/-- Reads a value of a kind: numbers with 64 bits, cut to the width of the kind.
Source: `strconv` and `reflect`, `SetUint`, `SetInt`, `SetBool`, `SetString`, `SetFloat` -/
def Kind.parse (value : Bytes) : (k : Kind) → Except NumError k.Value
  | .uint8 => (parseUint64 value).map UInt8.ofNat
  | .uint32 => (parseUint64 value).map UInt32.ofNat
  | .uint64 => (parseUint64 value).map UInt64.ofNat
  | .int => (parseInt value).map Int64.ofInt
  | .int64 => (parseInt value).map Int64.ofInt
  | .bool => parseBool value
  | .string => .ok value
  | .float64 => parseFloat value
where
  parseUint64 (value : Bytes) : Except NumError ℕ :=
    match parseUint 64 value with
    | (n, none) => .ok n
    | (_, some e) => .error e

variable (field : String)

/-- Source: `reflect`, `FieldByName` of the chain parameters -/
def fieldByName : Option Field :=
  Field.all.find? fun f => f.name = field

/-- The error for a name that is no field with a value. -/
def badField : ParamError :=
  if field ∈ embedded then .msg ("unexpected type: core." ++ field)
  else .msg ("no such field: " ++ field)

/-- Source: `CheckSysConfigArgType` -/
def checkSysConfigArgType (value : Bytes) : Except ParamError Unit :=
  match fieldByName field with
  | none => .error (badField field)
  | some f => ((f.kind.parse parseFloat value).mapError .num).map fun _ => ()

/-- Source: `dag/common/unit_produce_repository.go`, `updateChainParameter` -/
def updateChainParameter (cp : ChainParameters) (field : String) (value : Bytes) :
    Except ParamError ChainParameters :=
  match fieldByName field with
  | none => .error (badField field)
  | some f => ((f.kind.parse parseFloat value).mapError .num).map fun v => Function.update cp f v

end Parse

/-- Source: `CheckChainParameterValue` -/
def checkChainParameterValue (field : String) (value : Bytes) (icp : ImmutableChainParameters)
    (cp : ChainParameters) (mediatorCount : ℕ) : Option (Except ParamError Unit) :=
  match fieldByName field with
  | some .mediatorInterval =>
    let new := (parseUint 64 value).1
    let least := icp.minMediatorInterval.toNat
    if new < least then
      some (.error (.msg s!"new mediator interval({new}) cannot less than min interval({least})"))
    else some (.ok ())
  | some .maintenanceSkipSlots =>
    let new := (parseUint 64 value).1
    let least := icp.minMaintSkipSlots.toNat
    if new < least then
      some (.error (.msg
        s!"new MaintenanceSkipSlots({new}) cannot less than MinMaintSkipSlots({least})"))
    else some (.ok ())
  | some .activeMediatorCount =>
    let new := (parseUint 16 value).1
    let least := icp.minimumMediatorCount.toNat
    if new % 2 = 0 then some (.error (.msg s!"new ActiveMediatorCount({new}) must be odd"))
    else if new < least then
      some (.error (.msg
        s!"new ActiveMediatorCount({new}) cannot less than MinimumMediatorCount({least})"))
    else if new > mediatorCount then
      some (.error (.msg
        s!"new ActiveMediatorCount({new}) cannot more than mediator count({mediatorCount})"))
    else some (.ok ())
  | some .maintenanceInterval =>
    let new := (parseUint 64 value).1
    -- a product of two bytes, which is a byte
    let least := (cp.mediatorInterval * cp.maintenanceSkipSlots).toNat
    let interval := cp.mediatorInterval.toNat
    if ¬ new > least then
      some (.error (.msg s!"new MaintenanceInterval({new}) must be larger than {least}"))
    else if interval = 0 then none
    else if new % interval ≠ 0 then
      some (.error (.msg
        s!"new MaintenanceInterval({new}) must be divisible by mediator interval({interval})"))
    else some (.ok ())
  | _ => some (.ok ())

/-! ### The constraints -/

/-- The documented constraints on the parameters. -/
structure ChainParameters.Valid (icp : ImmutableChainParameters) (cp : ChainParameters) :
    Prop where
  interval_pos : 0 < cp.mediatorInterval.toNat
  interval_min : icp.minMediatorInterval.toNat ≤ cp.mediatorInterval.toNat
  skipSlots_min : icp.minMaintSkipSlots.toNat ≤ cp.maintenanceSkipSlots.toNat
  maintenance_dvd : cp.mediatorInterval.toNat ∣ cp.maintenanceInterval.toNat
  maintenance_pos : 0 < cp.maintenanceInterval.toNat
  maintenance_gt : cp.mediatorInterval.toNat * cp.maintenanceSkipSlots.toNat <
    cp.maintenanceInterval.toNat
  active_odd : cp.activeMediatorCount.toNat % 2 = 1
  active_min : icp.minimumMediatorCount.toNat ≤ cp.activeMediatorCount.toNat

lemma newChainParams_valid : newChainParams.Valid newImmutChainParams := by
  constructor <;> decide

end ZwsChain.Core
