import Mathlib
import ZwsChain.Lib.Overlay
import ZwsChain.Modules.Message

/-!
# Units, stores and how a unit is saved

What the mem DAG of `dag/memunit` needs of its surroundings. Units and their hashes are of any
types; `Node` says what is read of a unit and what validation and saving do.

A store maps keys to values. The records that the mem DAG's own decisions rest on have keys of
their own: the newest unit of a token, headers by hash and header hashes by number. Everything
else that saving a unit writes (transactions, states, properties) is data, a function of the
store and the unit.
-/

namespace ZwsChain.Memunit

open Lib (Overlay applyWrites)

/-- The keys of a store.
Source: `common/constants`, prefixes `LastUnitInfo`, `HEADER_PREFIX`, `HEADER_HEIGTH_PREFIX` -/
inductive Key (H : Type) where
  | lastUnitInfo (token : AssetId)
  | header (hash : H)
  | headerHeight (token : AssetId) (number : ℕ)
  | data (key : Bytes)
  deriving DecidableEq

/-- The values of a store. -/
inductive Value (U H : Type) where
  | unitProperty (hash : H) (index : ℕ)
  | header (unit : U)
  | hash (hash : H)
  | data (value : Bytes)
  deriving DecidableEq

/-- A store. -/
abbrev Kv (U H : Type) := Key H → Option (Value U H)

/-- Writes to a store. -/
abbrev Writes (U H : Type) := List (Key H × Option (Value U H))

/-- A node: what it reads of units, how it validates and saves them, and the parameters of its
mem DAG. `ParentHash()` of a unit is not empty; the first of the list is the one that counts.
Source: `dag/memunit/memdag.go`, `MemDag`; `dag/modules/unit.go`, `Unit` -/
structure Node (U H : Type) where
  hash : U → H
  parentHash : U → List H
  /-- `ParentHash()[0]`. -/
  parent : U → H
  head_parentHash : ∀ u, (parentHash u).head? = some (parent u)
  /-- `NumberU64`. -/
  number : U → ℕ
  getAssetId : U → AssetId
  /-- The unit with a group signature in its header. -/
  setGroupSign : U → Bytes → U
  /-- The group signature is not part of the hash. -/
  hash_setGroupSign : ∀ u sign, hash (setGroupSign u sign) = hash u
  number_setGroupSign : ∀ u sign, number (setGroupSign u sign) = number u
  getAssetId_setGroupSign : ∀ u sign, getAssetId (setGroupSign u sign) = getAssetId u
  /-- The unit has a group signature that verifies. -/
  checkUnitIrreversibleWithGroupSign : U → Bool
  /-- `ValidateUnitExceptGroupSig`, or `ValidateHeader` on a light node, is `VALID`. -/
  validate : Kv U H → U → Bool
  /-- `ValidateUnitExceptGroupSig` of the validator of the stable database is `VALID`. -/
  ldbValidate : Kv U H → U → Bool
  /-- The data that saving the unit writes, and whether it succeeds. -/
  saveData : Kv U H → U → Bool × List (Bytes × Option Bytes)
  /-- The last confirmed unit numbers of the mediators, in the order they are read. -/
  lookupMediatorInfo : Kv U H → List ℕ
  /-- The order in which a Go map is ranged over. -/
  range : List H → List H
  range_perm : ∀ l, (range l).Perm l
  token : AssetId
  threshold : ℕ
  /-- A light node. -/
  saveHeaderOnly : Bool

namespace Node

variable {U H : Type} (N : Node U H)

/-- The newest unit of a token: its hash and number.
Source: `dag/storage/propertydb.go`, `GetNewestUnit` -/
def getNewestUnit (kv : Kv U H) (token : AssetId) : Option (H × ℕ) :=
  match kv (.lastUnitInfo token) with
  | some (.unitProperty hash index) => some (hash, index)
  | _ => none

/-- Source: `dag/common/unit_repository.go`, `GetHeaderByNumber` -/
def getHeaderByNumber (kv : Kv U H) (token : AssetId) (number : ℕ) : Option U :=
  match kv (.headerHeight token number) with
  | some (.hash hash) =>
    match kv (.header hash) with
    | some (.header u) => some u
    | _ => none
  | _ => none

/-- Source: `dag/storage/dagdb.go`, `SaveHeader` -/
def saveHeader (u : U) : Writes U H :=
  [(.header (N.hash u), some (.header u)),
    (.headerHeight (N.getAssetId u) (N.number u), some (.hash (N.hash u)))]

/-- Source: `dag/storage/propertydb.go`, `SetNewestUnit` -/
def setNewestUnit (u : U) : Writes U H :=
  [(.lastUnitInfo (N.getAssetId u), some (.unitProperty (N.hash u) (N.number u)))]

/-- The writes of data. -/
def dataWrites (ws : List (Bytes × Option Bytes)) : Writes U H :=
  ws.map fun w => (.data w.1, w.2.map .data)

/-- The unit is a child of the newest unit and numbered after it.
Source: `dag/common/unit_produce_repository.go`, `PushUnit`, checks -/
def Follows (newest : H × ℕ) (u : U) : Prop :=
  newest.1 ∈ N.parentHash u ∧ N.number u = newest.2 + 1

instance [DecidableEq H] (newest : H × ℕ) (u : U) : Decidable (N.Follows newest u) :=
  inferInstanceAs (Decidable (_ ∧ _))

variable [DecidableEq H]

/-- Whether the header was saved, and the writes.
Source: `dag/common/unit_repository.go`, `SaveNewestHeader` -/
def saveNewestHeader (kv : Kv U H) (u : U) : Bool × Writes U H :=
  match getNewestUnit kv (N.getAssetId u) with
  | none => (false, [])
  | some newest =>
    if N.Follows newest u then (true, N.saveHeader u ++ N.setNewestUnit u) else (false, [])

/-- Whether the unit was saved, and the writes. Without a newest unit the nil record is
dereferenced; a failure inside `SaveUnit` comes after the header is written.
Source: `dag/common/unit_produce_repository.go`, `PushUnit` -/
def pushUnit (kv : Kv U H) (u : U) : Option (Bool × Writes U H) :=
  match getNewestUnit kv (N.getAssetId u) with
  | none => none
  | some newest =>
    if N.Follows newest u then
      let (ok, ws) := N.saveData kv u
      if ok then some (true, N.saveHeader u ++ dataWrites ws ++ N.setNewestUnit u)
      else some (false, N.saveHeader u ++ dataWrites ws)
    else some (false, [])

/-- Source: `dag/memunit/memdag.go`, `saveUnitToDb`; `chain_tempdb.go`, `AddUnit` -/
def saveUnitToDb (kv : Kv U H) (u : U) : Option (Bool × Writes U H) :=
  if N.saveHeaderOnly then some (N.saveNewestHeader kv u) else N.pushUnit kv u

/-! ### What a save does -/

variable {N} {kv : Kv U H} {u : U} {ok : Bool} {ws : Writes U H}

/-- A save that fails leaves the newest units as they are. It succeeds only for a successor of the
newest unit, and then ends by making the unit the newest one of its token. -/
lemma saveUnitToDb_cases (h : N.saveUnitToDb kv u = some (ok, ws)) :
    ok = false ∧ (ws = [] ∨ ∃ data, ws = N.saveHeader u ++ dataWrites data) ∨
    ok = true ∧ ∃ newest data, getNewestUnit kv (N.getAssetId u) = some newest ∧
      N.Follows newest u ∧ ws = N.saveHeader u ++ dataWrites data ++ N.setNewestUnit u := by
  unfold saveUnitToDb saveNewestHeader pushUnit at h
  cases hnewest : getNewestUnit kv (N.getAssetId u) with
  | none =>
    rw [hnewest] at h
    split_ifs at h
    cases h
    exact .inl ⟨rfl, .inl rfl⟩
  | some newest =>
    rw [hnewest] at h
    simp only at h
    split_ifs at h with hlight hfollows hfollows hok <;> cases h
    · exact .inr ⟨rfl, newest, [], rfl, hfollows, by simp [dataWrites]⟩
    · exact .inl ⟨rfl, .inl rfl⟩
    · exact .inr ⟨rfl, newest, _, rfl, hfollows, rfl⟩
    · exact .inl ⟨rfl, .inr ⟨_, rfl⟩⟩
    · exact .inl ⟨rfl, .inl rfl⟩

lemma saveUnitToDb_eq_true (h : N.saveUnitToDb kv u = some (true, ws)) :
    ∃ newest data, getNewestUnit kv (N.getAssetId u) = some newest ∧ N.Follows newest u ∧
      ws = N.saveHeader u ++ dataWrites data ++ N.setNewestUnit u := by
  obtain ⟨⟨⟩, -⟩ | ⟨-, h⟩ := saveUnitToDb_cases h
  exact h

omit [DecidableEq H] in
lemma key_dataWrites (ws : List (Bytes × Option Bytes)) (k : Key H)
    (hk : k ∈ ((dataWrites ws : Writes U H)).map Prod.fst) : ∃ b, k = .data b := by
  unfold dataWrites at hk
  rw [List.map_map] at hk
  obtain ⟨w, -, rfl⟩ := List.mem_map.1 hk
  exact ⟨w.1, rfl⟩

lemma getNewestUnit_saveHeader (kv : Kv U H) (u : U) (data : List (Bytes × Option Bytes))
    (token : AssetId) :
    getNewestUnit (applyWrites kv (N.saveHeader u ++ dataWrites data)) token =
      getNewestUnit kv token := by
  rw [getNewestUnit, getNewestUnit, Lib.applyWrites_of_notMem]
  rw [List.map_append, List.mem_append]
  rintro (h | h)
  · simp [saveHeader] at h
  · obtain ⟨b, hb⟩ := key_dataWrites data _ h
    simp at hb

lemma getNewestUnit_saveHeader_only (kv : Kv U H) (u : U) (token : AssetId) :
    getNewestUnit (applyWrites kv (N.saveHeader u)) token = getNewestUnit kv token := by
  have hkeep := getNewestUnit_saveHeader (N := N) kv u [] token
  rwa [dataWrites, List.map_nil, List.append_nil] at hkeep

/-- A save that succeeds makes the unit the newest one of its token. -/
lemma getNewestUnit_of_save (h : N.saveUnitToDb kv u = some (true, ws)) :
    getNewestUnit (applyWrites kv ws) (N.getAssetId u) = some (N.hash u, N.number u) := by
  obtain ⟨newest, data, -, -, rfl⟩ := saveUnitToDb_eq_true h
  rw [Lib.applyWrites_append]
  simp [setNewestUnit, getNewestUnit]

lemma getNewestUnit_of_save_false (h : N.saveUnitToDb kv u = some (false, ws)) (token : AssetId) :
    getNewestUnit (applyWrites kv ws) token = getNewestUnit kv token := by
  obtain ⟨-, rfl | ⟨data, rfl⟩⟩ | ⟨⟨⟩, -⟩ := saveUnitToDb_cases h
  · rfl
  · exact getNewestUnit_saveHeader kv u data token

end Node

end ZwsChain.Memunit
