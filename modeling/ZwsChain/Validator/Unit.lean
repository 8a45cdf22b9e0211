import ZwsChain.Dag.Property
import ZwsChain.Modules.Unit
import ZwsChain.Validator.Transactions

/-!
# Validation of a unit

`validator/validate_unit.go`. `validateUnitExceptGroupSig` checks the header, the transaction root
and the transactions of a unit. The header's checks are `validateHeaderExceptGroupSig`: form,
author, parent, number and, for units after October 2019 on a full node, the mediators' schedule.

The function that checks the author's signature, `validateUnitSignature`, is called only if the
variable `thisUnitIsNotTransmitted` is set, and nothing sets it. What a validated unit still
misses of a sound one is `unit_sound_iff`; a unit with a signature of another message is
`ForgedUnit.forged_valid`.
Sources without a file are in `validator/validate_unit.go`.
-/

namespace ZwsChain

open TxScript (SigState)

/-- The validation codes of units; a code of a transaction is one of them.
Source: `validator/errors.go`, `ValidationCode` -/
inductive UnitCode where
  | tx (code : ValidationCode)
  | authorSignaturePassed | invalidMediatorSchedule | invalidAuthorSignature | invalidAuthor
  | invalidExtraData | invalidHeader | invalidHeaderNumber | invalidHeaderTxroot
  | invalidHeaderTime | orphan
  deriving DecidableEq, Repr

/-- `TxValidationCode_VALID`. -/
abbrev UnitCode.valid : UnitCode :=
  .tx .valid

/-- A validator of units. A query object that is not set is `none`; the queries of transactions
are those of `toValidate`.
Source: `validator/validator.go`, `Validate` -/
structure UnitValidate extends Validate where
  C : UnitContext
  /-- `core.DeriveSha`. -/
  deriveSha : List Transaction → Hash
  light : Bool
  /-- `statequery` is set. -/
  hasStatequery : Bool
  /-- The reward address in the record of a mediator. -/
  getMediator : Address → Option Address
  /-- `GetHeaderByHash` of `dagquery`. -/
  dagquery : Option (Hash → Option Header)
  propquery : Option PropertyDb

/-- `modules.UNIT_CREATION_DATE_INITIAL_UINT64`. -/
def unitCreationDateInitial : Int :=
  1536451200

/-- `configure.MaximumExtraDataSize`. -/
def maximumExtraDataSize : Nat :=
  32

/-- The time from which the fee check and the mediators' schedule hold: 2019-10-12 17:00:00. -/
def enableTxFeeCheckTime : Int :=
  1570870800

/-- The check of the author's signature, which the checks of a header leave out.
Source: `validateUnitSignature` -/
def validateUnitSignature (P : Primitives) (header : Header) : UnitCode :=
  if header.authors.empty then .invalidAuthorSignature
  else if P.verify header.authors.pubKey header.authors.signature
      (header.hashWithoutAuthor P).val ≠ some true then .invalidAuthorSignature
  else .valid

namespace UnitValidate

variable (W : UnitValidate)

/-- Source: `validateUnitAuthor` -/
def validateUnitAuthor (h : Header) : UnitCode :=
  if !W.hasStatequery then .valid
  else if !W.getMediators (h.author W.P) then .invalidAuthor
  else .valid

/-- Source: `validateMediatorSchedule` -/
def validateMediatorSchedule (header : Header) : Option UnitCode :=
  match W.propquery with
  | none => some .valid
  | some propquery => do
      let ts ← propquery.getNewestUnitTimestamp W.gasToken
      if ¬header.time > ts then some .invalidHeaderTime
      else do
        let slotNum ← propquery.getSlotAtTime W.gasToken header.time
        if slotNum = 0 then some .invalidMediatorSchedule
        else if propquery.getScheduledMediator slotNum ≠ header.author W.P then
          some .invalidMediatorSchedule
        else some .valid

/-- The checks that need a parent: it is known, the number follows its number, the author is
scheduled.
Source: `validateHeaderExceptGroupSig`, from `Is orphan?` -/
def validateParent (header : Header) (parent : Hash) (number : ChainIndex)
    (enableMediatorSchedule : Bool) : Option UnitCode :=
  match W.dagquery with
  | none => some .valid
  | some getHeaderByHash =>
    match getHeaderByHash parent with
    | none => some .orphan
    | some parentHeader => do
        let parentNumber ← parentHeader.number
        if parentNumber.index + 1 ≠ number.index then some .invalidHeaderNumber
        else if enableMediatorSchedule && !W.light then W.validateMediatorSchedule header
        else some .valid

/-- The local variable of the source that guards the check of the signature.
Source: `var thisUnitIsNotTransmitted bool` -/
def thisUnitIsNotTransmitted : Bool :=
  false

/-- `none` is a nil pointer that is dereferenced.
Source: `validateHeaderExceptGroupSig` -/
def validateHeaderExceptGroupSig (header : Header) (enableMediatorSchedule : Bool) :
    Option UnitCode :=
  match header.parentsHash with
  | [] => some .invalidHeader
  | parent :: _ =>
    if header.extra.length > maximumExtraDataSize then some .invalidExtraData
    else if header.time ≤ unitCreationDateInitial then some .invalidHeaderTime
    else
      match header.number with
      | none => some .invalidHeaderNumber
      | some number =>
        if thisUnitIsNotTransmitted then some (validateUnitSignature W.P header)
        else if !W.light && W.validateUnitAuthor header ≠ .valid then
          some (W.validateUnitAuthor header)
        else W.validateParent header parent number enableMediatorSchedule

/-- The checks of transactions that are in force at the time of a unit.
Source: `ValidateUnitExceptGroupSig`, the `enable` fields -/
def checksAt (timestamp : Int) : Validate :=
  { W.toValidate with
    enableTxFeeCheck := timestamp > enableTxFeeCheckTime
    enableContractSignCheck := timestamp > 1575129600
    enableDeveloperCheck := timestamp > 1577808000
    enableContractRwSetCheck := timestamp > 1582992000 }

/-- The checks after those of the header, whose result is `headerCode`.
Source: `ValidateUnitExceptGroupSig`, from `validate tx root` -/
def validateBody (unit : ChainUnit) (headerCode : UnitCode) (cache : ValidatorCache)
    (sigs : SigState) : Option UnitCode :=
  if W.deriveSha unit.txs ≠ unit.unitHeader.txRoot then some .invalidHeaderTxroot
  else if !W.hasStatequery then none
  else
    match W.getMediator (unit.unitHeader.author W.P) with
    | none => some .invalidAuthorSignature
    | some rewardAdd => do
        let code ← (W.checksAt unit.unitHeader.time).validateTransactions W.C unit.txs
          unit.unitHeader.time rewardAdd cache sigs
        if code ≠ .valid then some (.tx code) else some headerCode

/-- The code of a unit and the codes of units that the cache then holds.
Source: `ValidateUnitExceptGroupSig` -/
def validateUnitExceptGroupSig (unit : ChainUnit) (unitCache : Hash → Option UnitCode)
    (cache : ValidatorCache) (sigs : SigState) : Option (UnitCode × (Hash → Option UnitCode)) :=
  let unitHash := unit.unitHeader.hash W.P
  match unitCache unitHash with
  | some code => some (code, unitCache)
  | none => do
      let headerCode ← W.validateHeaderExceptGroupSig unit.unitHeader
        (unit.unitHeader.time > enableTxFeeCheckTime)
      if headerCode ≠ .valid ∧ headerCode ≠ .authorSignaturePassed ∧ headerCode ≠ .orphan then
        some (headerCode, unitCache)
      else do
        let code ← W.validateBody unit headerCode cache sigs
        if code = .valid then some (.valid, Function.update unitCache unitHash (some .valid))
        else some (code, unitCache)

/-! ### What a valid unit is known to satisfy -/

variable {W} {header : Header}

lemma of_validateMediatorSchedule {db : PropertyDb} (hdb : W.propquery = some db)
    (h : W.validateMediatorSchedule header = some .valid) :
    ∃ ts slotNum, db.getNewestUnitTimestamp W.gasToken = some ts ∧ ts < header.time ∧
      db.getSlotAtTime W.gasToken header.time = some slotNum ∧ slotNum ≠ 0 ∧
      db.getScheduledMediator slotNum = header.author W.P := by
  unfold validateMediatorSchedule at h
  rw [hdb] at h
  obtain ⟨ts, hts, h⟩ := Option.bind_eq_some_iff.1 h
  split_ifs at h with htime
  · obtain ⟨slotNum, hslot, h⟩ := Option.bind_eq_some_iff.1 h
    split_ifs at h with h0 hmed
    · simp at h
    · simp at h
    · exact ⟨ts, slotNum, hts, htime, hslot, h0, by simpa using hmed⟩
  · simp at h

variable {enable : Bool} {cache : ValidatorCache} {sigs : SigState} {unit : ChainUnit}

lemma of_validateParent {parent : Hash} {number : ChainIndex}
    {getHeaderByHash : Hash → Option Header} (hdag : W.dagquery = some getHeaderByHash)
    (h : W.validateParent header parent number enable = some .valid) :
    ∃ p parentNumber, getHeaderByHash parent = some p ∧ p.number = some parentNumber ∧
      parentNumber.index + 1 = number.index ∧
      (enable = true → W.light = false → W.validateMediatorSchedule header = some .valid) := by
  unfold validateParent at h
  rw [hdag] at h
  simp only at h
  split at h
  · simp at h
  rename_i p hp
  obtain ⟨parentNumber, hnumber, h⟩ := Option.bind_eq_some_iff.1 h
  split_ifs at h with hindex hsched
  · simp at h
  · refine ⟨p, parentNumber, hp, hnumber, by simpa using hindex, ?_⟩
    intro _ _
    exact h
  refine ⟨p, parentNumber, hp, hnumber, by simpa using hindex, ?_⟩
  intro henable hlight
  simp [henable, hlight] at hsched

lemma of_validateHeaderExceptGroupSig
    (h : W.validateHeaderExceptGroupSig header enable = some .valid) :
    ∃ parent number, header.parentsHash.head? = some parent ∧ header.number = some number ∧
      W.validateParent header parent number enable = some .valid := by
  unfold validateHeaderExceptGroupSig at h
  split at h
  · simp at h
  rename_i parent _ hparents
  -- the variable that guards the check of the signature is never set
  simp only [thisUnitIsNotTransmitted, Bool.false_eq_true, if_false] at h
  cases hnumber : header.number with
  | none =>
    rw [hnumber] at h
    split_ifs at h <;> simp at h
  | some number =>
    rw [hnumber] at h
    split_ifs at h with hextra htime hauthor
    · simp at h
    · simp at h
    · simp only [Option.some.injEq] at h
      simp [h] at hauthor
    · exact ⟨parent, number, by simp [hparents], rfl, h⟩

lemma of_validateBody {headerCode : UnitCode}
    (h : W.validateBody unit headerCode cache sigs = some .valid) :
    headerCode = .valid ∧ unit.unitHeader.txRoot = W.deriveSha unit.txs := by
  unfold validateBody at h
  split_ifs at h with hroot
  · simp at h
  split at h
  · simp at h
  obtain ⟨code, -, h⟩ := Option.bind_eq_some_iff.1 h
  split_ifs at h with hcode
  · simp [UnitCode.valid, hcode] at h
  · exact ⟨by simpa using h, by simpa [eq_comm] using hroot⟩

lemma of_validateUnitExceptGroupSig {unitCache codes : Hash → Option UnitCode}
    (hcache : unitCache (unit.unitHeader.hash W.P) = none)
    (h : W.validateUnitExceptGroupSig unit unitCache cache sigs = some (.valid, codes)) :
    W.validateHeaderExceptGroupSig unit.unitHeader (unit.unitHeader.time > enableTxFeeCheckTime)
        = some .valid ∧
      unit.unitHeader.txRoot = W.deriveSha unit.txs := by
  unfold validateUnitExceptGroupSig at h
  simp only [hcache] at h
  obtain ⟨headerCode, hheader, h⟩ := Option.bind_eq_some_iff.1 h
  split_ifs at h with hcode
  · simp only [Option.some.injEq, Prod.mk.injEq] at h
    exact absurd h.1 hcode.1
  obtain ⟨code, hbody, h⟩ := Option.bind_eq_some_iff.1 h
  have hvalid : code = .valid := by
    by_contra hne
    simp [hne] at h
  obtain ⟨rfl, hroot⟩ := of_validateBody (hvalid ▸ hbody)
  exact ⟨hheader, hroot⟩

/-! ### Sound units -/

variable (W)

/-- The author's signature is one of the header without its author. -/
def SignatureVerifies (header : Header) : Prop :=
  W.P.verify header.authors.pubKey header.authors.signature (header.hashWithoutAuthor W.P).val =
    some true

/-- The author is the mediator whose turn the slot of the header's time is. -/
def Scheduled (header : Header) : Prop :=
  ∃ db slotNum, W.propquery = some db ∧ db.getSlotAtTime W.gasToken header.time = some slotNum ∧
    slotNum ≠ 0 ∧ db.getScheduledMediator slotNum = header.author W.P

/-- The header of the first parent, as the validator's store knows it. -/
def parentHeader (header : Header) : Option Header := do
  let parent ← header.parentsHash.head?
  let getHeaderByHash ← W.dagquery
  getHeaderByHash parent

/-- The unit is signed by the mediator in turn, later than its parent and numbered after it, and
commits to its transactions. -/
structure SoundUnit (unit : ChainUnit) : Prop where
  signature : W.SignatureVerifies unit.unitHeader
  scheduled : W.Scheduled unit.unitHeader
  parent : ∃ p parentNumber number, W.parentHeader unit.unitHeader = some p ∧
    p.number = some parentNumber ∧ unit.unitHeader.number = some number ∧
    p.time < unit.unitHeader.time ∧ number.index.toNat = parentNumber.index.toNat + 1
  txRoot : unit.unitHeader.txRoot = W.deriveSha unit.txs

/-- The mediators' schedule is checked: on a full node with its queries set, for a unit after the
upgrade. -/
def ScheduleChecked (header : Header) : Prop :=
  header.time > enableTxFeeCheckTime ∧ W.light = false ∧ W.dagquery.isSome ∧ W.propquery.isSome

/-- The parent is not later than the newest unit, which a checked unit is compared with. -/
def BeforeNewest (p : Header) : Prop :=
  ∃ db ts, W.propquery = some db ∧ db.getNewestUnitTimestamp W.gasToken = some ts ∧ p.time ≤ ts

variable {W}

/-- What the schedule's check gives for a header that passed. -/
lemma scheduled_of_checked
    (h : W.validateHeaderExceptGroupSig header (header.time > enableTxFeeCheckTime) = some .valid)
    (hchecked : W.ScheduleChecked header) :
    W.Scheduled header ∧ ∀ p, W.BeforeNewest p → p.time < header.time := by
  obtain ⟨htime, hlight, hdag, hprop⟩ := hchecked
  obtain ⟨getHeaderByHash, hdag⟩ := Option.isSome_iff_exists.1 hdag
  obtain ⟨db, hdb⟩ := Option.isSome_iff_exists.1 hprop
  obtain ⟨parent, number, -, -, hparent⟩ := of_validateHeaderExceptGroupSig h
  obtain ⟨-, -, -, -, -, hsched⟩ := of_validateParent hdag hparent
  obtain ⟨ts, slotNum, hts, hlt, hslot, h0, hmed⟩ :=
    of_validateMediatorSchedule hdb (hsched (by simpa using htime) hlight)
  refine ⟨⟨db, slotNum, hdb, hslot, h0, hmed⟩, ?_⟩
  rintro p ⟨db', ts', hdb', hts', hle⟩
  obtain rfl : db = db' := Option.some.inj (hdb.symm.trans hdb')
  obtain rfl : ts = ts' := Option.some.inj (hts.symm.trans hts')
  exact lt_of_le_of_lt hle hlt

/-- A header that passed is numbered after its parent, if the store knows it. -/
lemma number_of_parentHeader {header p : Header}
    (h : W.validateHeaderExceptGroupSig header enable = some .valid)
    (hp : W.parentHeader header = some p) :
    ∃ parentNumber number, p.number = some parentNumber ∧ header.number = some number ∧
      parentNumber.index + 1 = number.index := by
  obtain ⟨parent, number, hhead, hnumber, hparent⟩ := of_validateHeaderExceptGroupSig h
  unfold parentHeader at hp
  simp only [hhead, Option.bind_eq_bind, Option.bind_some] at hp
  obtain ⟨getHeaderByHash, hdag, hget⟩ := Option.bind_eq_some_iff.1 hp
  obtain ⟨p', parentNumber, hget', hpn, hindex, -⟩ := of_validateParent hdag hparent
  obtain rfl : p = p' := Option.some.inj (hget.symm.trans hget')
  exact ⟨parentNumber, number, hpn, hnumber, hindex⟩

lemma toNat_succ_iff {a b : UInt64} (h : a + 1 = b) :
    b.toNat = a.toNat + 1 ↔ a.toNat + 1 < 2 ^ 64 := by
  subst h
  rw [UInt64.toNat_add, UInt64.toNat_one]
  omega

/-- A valid unit is sound exactly if its author's signature verifies, which nothing checks, its
parent is known, was produced earlier and does not have the last number, and its author is in
turn. The last is known for units whose schedule was checked; the second one's order in time is
then known if the parent is not later than the newest unit. -/
theorem unit_sound_iff (unit : ChainUnit) (unitCache codes : Hash → Option UnitCode)
    (cache : ValidatorCache) (sigs : SigState)
    (hcache : unitCache (unit.unitHeader.hash W.P) = none)
    (h : W.validateUnitExceptGroupSig unit unitCache cache sigs = some (.valid, codes)) :
    W.SoundUnit unit ↔
      W.SignatureVerifies unit.unitHeader ∧
      (∃ p, W.parentHeader unit.unitHeader = some p ∧
        (∀ n, p.number = some n → n.index.toNat + 1 < 2 ^ 64) ∧
        (W.ScheduleChecked unit.unitHeader ∧ W.BeforeNewest p ∨ p.time < unit.unitHeader.time)) ∧
      (W.ScheduleChecked unit.unitHeader ∨ W.Scheduled unit.unitHeader) := by
  obtain ⟨hheader, hroot⟩ := of_validateUnitExceptGroupSig hcache h
  constructor
  · rintro ⟨hsig, hsched, ⟨p, pn, n, hp, hpn, -, htime, hsucc⟩, -⟩
    refine ⟨hsig, ⟨p, hp, ?_, .inr htime⟩, .inr hsched⟩
    intro m hm
    obtain rfl : pn = m := Option.some.inj (hpn.symm.trans hm)
    rw [← hsucc]
    exact n.index.toNat_lt
  rintro ⟨hsig, ⟨p, hp, hlast, htime⟩, hsched⟩
  obtain ⟨pn, n, hpn, hn, hindex⟩ := number_of_parentHeader hheader hp
  have htime' : p.time < unit.unitHeader.time := by
    rcases htime with ⟨hchecked, hnewest⟩ | htime
    · exact (scheduled_of_checked hheader hchecked).2 p hnewest
    · exact htime
  have hsched' : W.Scheduled unit.unitHeader := by
    rcases hsched with hchecked | hsched
    · exact (scheduled_of_checked hheader hchecked).1
    · exact hsched
  exact ⟨hsig, hsched', ⟨p, pn, n, hp, hpn, hn, htime', (toNat_succ_iff hindex).2 (hlast pn hpn)⟩,
    hroot⟩

end UnitValidate

/-! ### A forged unit -/

namespace ForgedUnit

open SmallNode

/-- The public key of the only mediator. -/
def key : Bytes :=
  [2, 7, 7]

/-- Its address. -/
def mediator : Address :=
  pubkeyBytesToAddress primitives key

/-- The newest unit of the store. -/
def parent : Header where
  parentsHash := [FixedBytes.zero 32]
  authors := ⟨key, []⟩
  txRoot := digest 32 []
  txsIllegal := []
  number := some ⟨ptnCoin, 5⟩
  extra := []
  time := 1600000000
  cryptoLib := []
  groupSign := []
  groupPubKey := []

/-- A child of the newest unit without transactions, under a given signature. -/
def header (signature : Bytes) : Header :=
  { parent with
    parentsHash := [parent.hash primitives]
    authors := ⟨key, signature⟩
    number := some ⟨ptnCoin, 6⟩
    time := 1600000003 }

/-- A full node whose schedule has the one mediator; all its queries are set. -/
def validator : UnitValidate where
  toValidate := { node with getMediators := fun a => a = mediator }
  C := ⟨0, fun _ => [], some, id, id⟩
  deriveSha txs := digest 32 (List.replicate txs.length 1)
  light := false
  hasStatequery := true
  getMediator a := if a = mediator then some mediator else none
  dagquery := some fun h => if h = parent.hash primitives then some parent else none
  propquery := some {
    retrieveGlobalProp := some ⟨3, 0⟩
    retrieveDynGlobalProp := some ⟨5, false⟩
    retrieveMediatorSchl := some [mediator]
    getNewestUnit := fun _ => some ⟨parent.hash primitives, ⟨ptnCoin, 5⟩, 1600000000⟩ }

/-- The validator's result on a child of the newest unit. -/
def verdict (signature : Bytes) : Option UnitCode :=
  (validator.validateUnitExceptGroupSig ⟨header signature, []⟩ (fun _ => none) (fun _ => none)
    noSigs).map Prod.fst

/-- Anyone who knows the mediator's public key gets a unit accepted in its name. -/
theorem forged_valid : verdict [1] = some .valid ∧ ¬validator.SoundUnit ⟨header [1], []⟩ := by
  refine ⟨by decide +kernel, ?_⟩
  rintro ⟨hsig, -, -, -⟩
  revert hsig
  unfold UnitValidate.SignatureVerifies
  decide +kernel

/-- The signature of the mediator's key holder. -/
def signature : Bytes :=
  key ++ ((header []).hashWithoutAuthor primitives).val

/-- The unit its mediator signed is valid, and sound. -/
theorem signed_sound :
    verdict signature = some .valid ∧ validator.SoundUnit ⟨header signature, []⟩ := by
  have hverdict : verdict signature = some .valid := by decide +kernel
  obtain ⟨⟨code, codes⟩, hvalid, hcode⟩ := Option.map_eq_some_iff.1 hverdict
  refine ⟨hverdict, (UnitValidate.unit_sound_iff _ (fun _ => none) codes (fun _ => none)
    noSigs rfl ?_).2 ?_⟩
  · rw [hvalid]
    exact congrArg (fun c => some (c, codes)) hcode
  refine ⟨?_, ⟨parent, ?_, ?_, .inl ⟨?_, _, _, rfl, rfl, ?_⟩⟩, .inl ?_⟩
  · unfold UnitValidate.SignatureVerifies
    decide +kernel
  · decide +kernel
  · rintro n hn
    obtain rfl := Option.some.inj hn
    decide
  · unfold UnitValidate.ScheduleChecked
    decide
  · decide
  · unfold UnitValidate.ScheduleChecked
    decide

end ForgedUnit

end ZwsChain
