import ZwsChain.Common.Nth
import ZwsChain.Memunit.Node

/-!
# The mem DAG

`dag/memunit/memdag.go`: units that are not yet irreversible, as a tree over the stable unit.
Every branch has a temporary database, an overlay over the stable database with the writes of the
units of the branch. A unit is attached to the tree or kept as an orphan; the longest branch is
the main chain; a unit with a group signature, or with enough confirmations on the main chain,
becomes stable: it and its ancestors are saved to the stable database, and all other branches
are removed.

Temporary databases are shared by reference, so they are kept in a list and named by their
position. Results are `none` where the code dereferences a nil pointer or recurses without end.
The goroutines that a call starts wait in `goroutines` until `step` runs them. `history` records
what happened, for the statements about runs; no operation reads it.
Sources without a file are in `dag/memunit/memdag.go`.
-/

namespace ZwsChain.Memunit

open Lib (Overlay applyWrites)

/-- A temporary database over the stable one or over another temporary database.
Source: `dag/memunit/tempdb.go`, `Tempdb` -/
structure Tempdb (U H : Type) where
  overlay : Overlay (Key H) (Value U H)
  /-- The temporary database below, if it is not the stable one. -/
  db : Option ℕ

/-- A reference to a temporary database and the unit it was last extended by.
Source: `dag/memunit/chain_tempdb.go`, `ChainTempDb` -/
structure ChainTempDb (U : Type) where
  tempdb : ℕ
  unit : Option U

/-- Work that goes on after a call has returned.
Source: `dag/memunit/memdag.go`, the `go` statements of `setStableUnit` -/
inductive Goroutine where
  | delHeightUnitsAndTemp (height : ℕ)
  | removeLowOrphanUnit (lessThan : ℕ)
  deriving DecidableEq

/-- A table of units with their temporary databases. -/
abbrev Units (U H : Type) := AList fun _ : H => ChainTempDb U

/-- What happened: a unit was saved to the stable database; a unit was made stable, which left
these units in the mem DAG; a unit could not be saved to the stable database, to the temporary
database of the main chain (its error is returned) or to that of a fork (its error is ignored). -/
inductive Event (U H : Type) where
  | persisted (u : U)
  | stabilised (hash : H) (left : Units U H)
  | stableFailed (u : U)
  | mainFailed (u : U)
  | forkFailed (u : U)

/-- Source: `MemDag` -/
structure MemDag (U H : Type) where
  /-- The stable database. -/
  db : Kv U H
  temps : List (Tempdb U H)
  tempdb : Units U H
  chainUnits : Units U H
  orphanUnits : AList fun _ : H => U
  /-- The orphan that waits for a parent. -/
  orphanUnitsParants : AList fun _ : H => H
  heightHashs : AList fun _ : ℕ => List H
  stableUnitHash : H
  stableUnitHeight : ℕ
  lastMainChainUnit : U
  goroutines : List Goroutine
  history : List (Event U H)

variable {U H : Type} [DecidableEq H]

/-- The mem DAG of a stable database and its newest unit.
Source: `NewMemDag` -/
def newMemDag (N : Node U H) (db : Kv U H) (stableUnit : U) : MemDag U H where
  db
  temps := [⟨.empty, none⟩]
  tempdb := AList.singleton (N.hash stableUnit) ⟨0, some stableUnit⟩
  chainUnits := AList.singleton (N.hash stableUnit) ⟨0, some stableUnit⟩
  orphanUnits := ∅
  orphanUnitsParants := ∅
  heightHashs := ∅
  stableUnitHash := N.hash stableUnit
  stableUnitHeight := N.number stableUnit
  lastMainChainUnit := stableUnit
  goroutines := []
  history := []

namespace MemDag

variable (N : Node U H) (s : MemDag U H)

/-! ### Temporary databases -/

/-- What is read through the temporary database `r`, with at most `fuel` of them one below the
other. -/
def viewFrom (db : Kv U H) (temps : List (Tempdb U H)) : ℕ → ℕ → Kv U H
  | 0, _ => db
  | fuel + 1, r =>
    match temps[r]? with
    | none => db
    | some t =>
      t.overlay.get (match t.db with
        | none => db
        | some r => viewFrom db temps fuel r)

/-- What is read through a temporary database.
Source: `dag/memunit/tempdb.go`, `Get` -/
def view (r : ℕ) : Kv U H :=
  viewFrom s.db s.temps s.temps.length r

/-- A new temporary database, over the stable one or over another.
Source: `dag/memunit/chain_tempdb.go`, `NewChainTempDb` -/
def newChainTempDb (db : Option ℕ) : MemDag U H × ChainTempDb U :=
  ({ s with temps := s.temps ++ [⟨.empty, db⟩] }, ⟨s.temps.length, none⟩)

/-- Writes to a temporary database. -/
def writeTemp (r : ℕ) (ws : Writes U H) : MemDag U H :=
  { s with temps := s.temps.modify r fun t => { t with overlay := t.overlay.writes ws } }

/-- Saves a unit to a temporary database. The result refers to the same database, with the unit
if it was saved.
Source: `dag/memunit/chain_tempdb.go`, `AddUnit` -/
def tempAddUnit (ct : ChainTempDb U) (u : U) : Option (MemDag U H × ChainTempDb U × Bool) := do
  let (ok, ws) ← N.saveUnitToDb (s.view ct.tempdb) u
  some (s.writeTemp ct.tempdb ws, if ok then ⟨ct.tempdb, some u⟩ else ct, ok)

/-! ### Making a unit stable -/

variable (u : U)

/-- Saves a unit to the stable database and makes it the stable unit.
Source: `setNextStableUnit`, after the parent -/
def saveStable : Option (MemDag U H × Bool) := do
  let (ok, ws) ← N.saveUnitToDb s.db u
  let s := { s with db := applyWrites s.db ws }
  if ok then
    some ({ s with
      chainUnits := s.chainUnits.erase (N.hash u)
      stableUnitHash := N.hash u
      stableUnitHeight := N.number u
      history := .persisted u :: s.history }, true)
  else some ({ s with history := .stableFailed u :: s.history }, false)

/-- Makes the ancestors of the unit that are in the snapshot `chainUnits` stable, then the unit;
whether an ancestor could be saved is not looked at.
Source: `setNextStableUnit` -/
def setNextStableUnit (chainUnits : Units U H) : ℕ → U → MemDag U H → Option (MemDag U H × Bool)
  | 0, _, _ => none
  | fuel + 1, u, s =>
    if N.hash u = s.stableUnitHash then some (s, false)
    else
      match chainUnits.lookup (N.parent u) with
      | none => s.saveStable N u
      | some ct => do
          let parentUnit ← ct.unit
          let (s, _) ← setNextStableUnit chainUnits fuel parentUnit s
          s.saveStable N u

/-- What is done with one entry of the copy of `chainUnits` when the unit `hash` is removed with its
descendants; `removeChild` removes a child.
Source: `removeUnitAndChildren`, body of the loop -/
def removeVisit (removeChild : H → Units U H → Option (Units U H)) (hash : H)
    (chainUnits : Units U H) (h : H) : Option (Units U H) :=
  match chainUnits.lookup h with
  | none => some chainUnits
  | some ct => do
      let u ← ct.unit
      if N.number u = 0 then some chainUnits
      else if h = hash then some (chainUnits.erase h)
      else if N.parent u = hash then removeChild h chainUnits
      else some chainUnits

/-- Removes a unit and its descendants from a copy of `chainUnits`; the deletions from the
original are the same.
Source: `removeUnitAndChildren` -/
def removeUnitAndChildren : ℕ → H → Units U H → Option (Units U H)
  | 0, _, _ => none
  | fuel + 1, hash, chainUnits =>
    (N.range chainUnits.keys).foldlM (removeVisit N (removeUnitAndChildren fuel) hash) chainUnits

/-- The numbers of the units of a table, summed up: no chain of units is longer than this and the
size of the table together. -/
def depth (chainUnits : Units U H) : ℕ :=
  chainUnits.keys.length + (chainUnits.entries.map fun e => (e.2.unit.map N.number).getD 0).sum

/-- Removes one unit with its descendants if it is not above the new stable unit.
Source: `setStableUnit`, body of the loop over forks -/
def removeFork (hash : H) (height : ℕ) (snapshot chainUnits : Units U H) (h : H) :
    Option (Units U H) :=
  match snapshot.lookup h with
  | none => some chainUnits
  | some ct => do
      let funit ← ct.unit
      if N.number funit ≤ height ∧ N.hash funit ≠ hash then
        removeUnitAndChildren N (depth N chainUnits + 2) (N.hash funit) chainUnits
      else some chainUnits

/-- Removes what is not above the new stable unit, with its descendants.
Source: `setStableUnit`, loop over forks -/
def removeForks (hash : H) (height : ℕ) (snapshot chainUnits : Units U H) : Option (Units U H) :=
  (N.range snapshot.keys).foldlM (removeFork N hash height snapshot) chainUnits

/-- Source: `setStableUnit` -/
def setStableUnit (hash : H) (height : ℕ) : Option (MemDag U H × Bool) :=
  if ¬height > s.stableUnitHeight then some (s, false)
  else
    match s.chainUnits.lookup hash with
    | none => some (s, false)
    | some ct => do
        let u ← ct.unit
        let snapshot := s.chainUnits
        let (s, ok) ← setNextStableUnit N snapshot (depth N snapshot + N.number u + 1) u s
        if !ok then some (s, false)
        else do
          let left ← removeForks N hash height snapshot s.chainUnits
          some ({ s with
            chainUnits := left
            goroutines := s.goroutines ++
              [.delHeightUnitsAndTemp height, .removeLowOrphanUnit height]
            history := .stabilised hash left :: s.history }, true)

/-- Source: `checkStableCondition`, behind the group signature: the
number that the threshold of mediators has confirmed -/
def confirmedNumber (kv : Kv U H) : Option ℕ :=
  let nums := N.lookupMediatorInfo kv
  if N.threshold = 0 ∨ nums.length < N.threshold then none
  else (Nth.element nums (nums.length - N.threshold)).map
    fun nums => nums.getD (nums.length - N.threshold) 0

/-- Source: `checkStableCondition` -/
def checkStableCondition (tempDB : ChainTempDb U) (u : U) : Option (MemDag U H × Bool) :=
  if N.checkUnitIrreversibleWithGroupSign u then s.setStableUnit N (N.hash u) (N.number u)
  else
    match confirmedNumber N (s.view tempDB.tempdb) with
    | none => some (s, false)
    | some newLastStableUnitNum =>
      if ¬newLastStableUnitNum > s.stableUnitHeight then some (s, false)
      else
        match Node.getHeaderByNumber (s.view tempDB.tempdb) (N.getAssetId u)
            newLastStableUnitNum with
        | none => some (s, false)
        | some header => s.setStableUnit N (N.hash header) (N.number header)

/-! ### Attaching a unit -/

/-- The units from `n` generations above `h` down to `h`. A unit that is missing or nil is
dereferenced by the caller.
Source: `getForkUnits`, loop -/
def forkUnits (chainUnits : Units U H) : ℕ → H → Option (List U)
  | 0, _ => some []
  | n + 1, h => do
      let ct ← chainUnits.lookup h
      let u ← ct.unit
      let us ← forkUnits chainUnits n (N.parent u)
      some (us ++ [u])

/-- The units from the stable one to a new unit, without the new unit.
Source: `getForkUnits` -/
def getForkUnits : Option (List U) :=
  forkUnits N s.chainUnits (N.number u - s.stableUnitHeight - 1) (N.parent u)

/-- The outcome of an attempt to add a unit. -/
inductive Added where
  | error | attached | orphan
  deriving DecidableEq

/-- The temporary database of the main chain, and whether it was there.
Source: `addUnit`, main chain -/
def mainTemp (parentHash : H) : MemDag U H × ChainTempDb U × Bool :=
  match s.tempdb.lookup parentHash with
  | some ct => (s, ct, true)
  | none =>
    let (s, ct) := s.newChainTempDb ((s.chainUnits.lookup parentHash).map ChainTempDb.tempdb)
    (s, ct, false)

variable (isGenerate : Bool)

/-- Attaches a unit to the end of the main chain.
Source: `addUnit`, main chain -/
def addMainUnit : Option (MemDag U H × Added) :=
  let (s, tempDb, has) := s.mainTemp (N.parent u)
  if !isGenerate && !N.validate (s.view tempDb.tempdb) u then some (s, .error)
  else do
    let (s, tempDB, ok) ← s.tempAddUnit N tempDb u
    if !ok then some ({ s with history := .mainFailed u :: s.history }, .error)
    else
      let s := { s with
        tempdb := s.tempdb.insert (N.hash u) tempDB
        chainUnits := s.chainUnits.insert (N.hash u) tempDB }
      if has then do
        let s := { s with tempdb := s.tempdb.erase (N.parent u), lastMainChainUnit := u }
        let (s, _) ← s.checkStableCondition N tempDB u
        some (s, .attached)
      else some (s, .attached)

/-- Saves units to a temporary database one after the other; errors are ignored.
Source: `addUnit`, loop over `forks` -/
def replay (ct : ChainTempDb U) : List U → MemDag U H → Option (MemDag U H × ChainTempDb U)
  | [], s => some (s, ct)
  | u :: us, s => do
      let (s, ct, _) ← s.tempAddUnit N ct u
      replay ct us s

/-- The temporary database of a fork: that of its parent, or a new one with the units from the
stable one to the parent.
Source: `addUnit`, fork -/
def forkTemp : Option (MemDag U H × ChainTempDb U) :=
  match s.tempdb.lookup (N.parent u) with
  | some ct => some (s, ct)
  | none => do
      let forks ← s.getForkUnits N u
      let (s, ct) := s.newChainTempDb none
      replay N ct forks s

/-- Attaches a unit to another unit than the end of the main chain. The longer chain becomes the
main chain.
Source: `addUnit`, fork, and `switchMainChain` -/
def addForkUnit : Option (MemDag U H × Added) := do
  let (s, mainTemp) ← s.forkTemp N u
  if !isGenerate && !N.validate (s.view mainTemp.tempdb) u then some (s, .error)
  else do
    let (s, temp, ok) ← s.tempAddUnit N mainTemp u
    let s := { s with
      tempdb := (s.tempdb.erase (N.parent u)).insert (N.hash u) temp
      chainUnits := s.chainUnits.insert (N.hash u) temp
      history := if ok then s.history else .forkFailed u :: s.history }
    if N.number u > N.number s.lastMainChainUnit then do
      let _ ← s.getForkUnits N u
      some ({ s with lastMainChainUnit := u }, .attached)
    else some (s, .attached)

/-- Attaches a unit or keeps it as an orphan.
Source: `addUnit`, without the orphans below the unit -/
def attach : Option (MemDag U H × Added) :=
  if N.parent u ∈ s.chainUnits ∨ N.parent u = s.stableUnitHash then
    if N.parent u = N.hash s.lastMainChainUnit then s.addMainUnit N u isGenerate
    else s.addForkUnit N u isGenerate
  else
    some ({ s with
      orphanUnits := s.orphanUnits.insert (N.hash u) u
      orphanUnitsParants := s.orphanUnitsParants.insert (N.parent u) (N.hash u) }, .orphan)

/-- Source: `addUnitHeight` -/
def addUnitHeight : MemDag U H :=
  let hs := (s.heightHashs.lookup (N.number u)).getD []
  { s with heightHashs := s.heightHashs.insert (N.number u) (hs ++ [N.hash u]) }

/-- Takes the orphan that waits for a unit out of the tables of orphans.
Source: `addUnit`, `orphan unit can add below this unit?`, and
`processOrphan` -/
def takeOrphan (hash : H) : MemDag U H × Option U :=
  match s.orphanUnitsParants.lookup hash with
  | none => (s, none)
  | some next =>
    let s := { s with orphanUnitsParants := s.orphanUnitsParants.erase hash }
    match s.orphanUnits.lookup next with
    | none => (s, none)
    | some u => ({ s with orphanUnits := s.orphanUnits.erase next }, some u)

/-- Adds a unit and then the orphans that waited for it, one below the other.
Source: `addUnit` -/
def addUnitFrom (isGenerate : Bool) : ℕ → U → MemDag U H → Option (MemDag U H × Added)
  | 0, _, _ => none
  | fuel + 1, u, s => do
      let (s, added) ← s.attach N u isGenerate
      match added with
      | .error => some (s, .error)
      | .orphan => some (s.addUnitHeight N u, .orphan)
      | .attached =>
        match s.takeOrphan (N.hash u) with
        | (s, none) => some (s.addUnitHeight N u, .attached)
        | (s, some next) => do
            let (s, _) ← addUnitFrom isGenerate fuel next s
            some (s.addUnitHeight N u, .attached)

/-! ### The calls -/

/-- Source: `AddUnit` -/
def addUnit : Option (MemDag U H) :=
  if ¬N.number u > s.stableUnitHeight then some s
  else if N.hash u ∈ s.chainUnits then some s
  else (addUnitFrom N isGenerate (s.orphanUnits.keys.length + 1) u s).map Prod.fst

/-- Source: `SetUnitGroupSign` -/
def setUnitGroupSign (uHash : H) (groupSign : Bytes) : Option (MemDag U H) :=
  match s.chainUnits.lookup uHash with
  | none => some s
  | some ct => do
      let u ← ct.unit
      if ¬N.number u > s.stableUnitHeight then some s
      else do
        let (s, ok) ← s.setStableUnit N uHash (N.number u)
        if !ok then some s
        else some { s with db := applyWrites s.db (N.saveHeader (N.setGroupSign u groupSign)) }

/-- Source: `SaveHeader` -/
def saveHeader (header : U) : MemDag U H :=
  { s with
    stableUnitHash := N.hash header
    stableUnitHeight := N.number header
    db := applyWrites s.db (N.saveNewestHeader s.db header).2 }

/-- Source: `AddStableUnit` -/
def addStableUnit : Option (MemDag U H) :=
  if !N.ldbValidate s.db u then some s
  else do
    let (ok, ws) ← N.saveUnitToDb s.db u
    let s := { s with db := applyWrites s.db ws }
    if ok then some { s with stableUnitHash := N.hash u, stableUnitHeight := N.number u }
    else some s

/-- Source: `delHeightUnitsAndTemp` -/
def delHeightUnitsAndTemp (height : ℕ) : MemDag U H :=
  let low := s.heightHashs.entries.filter fun e => e.1 ≤ height
  { s with
    heightHashs := (low.map Sigma.fst).foldl (fun hs h => hs.erase h) s.heightHashs
    tempdb := (low.flatMap Sigma.snd).foldl
      (fun temps h => if h = s.stableUnitHash then temps else temps.erase h) s.tempdb }

/-- Source: `removeLowOrphanUnit` -/
def removeLowOrphanUnit (lessThan : ℕ) : MemDag U H :=
  let low := s.orphanUnits.entries.filter fun e => N.number e.2 ≤ lessThan
  { s with orphanUnits := (low.map Sigma.fst).foldl (fun os h => os.erase h) s.orphanUnits }

/-- Runs a goroutine to its end. -/
def runGoroutine : Goroutine → MemDag U H
  | .delHeightUnitsAndTemp height => s.delHeightUnitsAndTemp height
  | .removeLowOrphanUnit lessThan => s.removeLowOrphanUnit N lessThan

end MemDag

/-- A call, or the run of a goroutine that waits. -/
inductive Op (U H : Type) where
  | addUnit (u : U) (isGenerate : Bool)
  | setUnitGroupSign (uHash : H) (groupSign : Bytes)
  | saveHeader (header : U)
  | addStableUnit (u : U)
  | goroutine (i : ℕ)

namespace MemDag

variable (N : Node U H)

/-- The state after a call; `none` is a crash. -/
def step (s : MemDag U H) : Op U H → Option (MemDag U H)
  | .addUnit u isGenerate => s.addUnit N u isGenerate
  | .setUnitGroupSign uHash groupSign => s.setUnitGroupSign N uHash groupSign
  | .saveHeader header => some (s.saveHeader N header)
  | .addStableUnit u => s.addStableUnit N u
  | .goroutine i =>
    match s.goroutines[i]? with
    | none => some s
    | some g => some (({ s with goroutines := s.goroutines.eraseIdx i }).runGoroutine N g)

/-- The state after a list of calls. -/
def run (s : MemDag U H) (ops : List (Op U H)) : Option (MemDag U H) :=
  ops.foldlM (step N) s

end MemDag

/-! ### A small node

A node to evaluate the model on. A unit is known by its path: the marks of its ancestors after the
genesis unit, latest first. Every unit is valid, every group signature verifies, and saving a unit
writes its number to a key. -/

namespace SmallDag

/-- A unit. -/
structure Block where
  path : List ℕ
  token : AssetId := ptnCoin
  groupSign : Bytes := []
  deriving DecidableEq

/-- The hash of a unit; the genesis unit refers to no unit. -/
abbrev BlockHash := Option (List ℕ)

/-- The node. -/
def node (saveHeaderOnly : Bool) (threshold : ℕ) (confirmed : List ℕ) : Node Block BlockHash where
  hash u := some u.path
  parentHash u := [u.path.tail?]
  parent u := u.path.tail?
  head_parentHash _ := rfl
  number u := u.path.length
  getAssetId := Block.token
  setGroupSign u sign := { u with groupSign := sign }
  hash_setGroupSign _ _ := rfl
  number_setGroupSign _ _ := rfl
  getAssetId_setGroupSign _ _ := rfl
  checkUnitIrreversibleWithGroupSign u := u.groupSign ≠ []
  validate _ _ := true
  ldbValidate _ _ := true
  saveData _ u := (true, [([0], some [UInt8.ofNat u.path.length])])
  lookupMediatorInfo _ := confirmed
  range := id
  range_perm _ := .refl _
  token := ptnCoin
  threshold
  saveHeaderOnly

/-- A database whose newest unit is given. -/
def store (u : Block) : Kv Block BlockHash :=
  applyWrites (fun _ => none) ((node true 0 []).saveHeader u ++ (node true 0 []).setNewestUnit u)

end SmallDag

end ZwsChain.Memunit
