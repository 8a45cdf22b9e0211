import ZwsChain.RwSet.OwnWrites

/-!
# The read set of an execution

The read set should say which values an execution took from the database, and at which versions.
The simulator records a read of a key that has been written before as well, without a version of
its own: `AddToReadSet` then gives it the version recorded for the key or, if there is none, that of
any record. A key that the database has not is not recorded at all, and there is one record for a
key, whatever contracts it is read from.

* `fromDb`, `fromCache`: what a sequence of calls takes from the database and from the cache.
* `RwSetTxSimulator.Recorded`: every key taken from the database is there, a key is taken from one
  contract's state only, and a written key is read only when it has been recorded before, or when
  nothing was taken from the database before.
* `RwSetTxSimulator.readSet_faithful`: then the read set is what was taken from the database, in
  every order of iteration.
-/

open List

namespace ZwsChain.RwSet

open NsPubRwBuilder

/-- The contract and the key that are read, if the key has been written in the calls before. -/
def Call.cached (before : List Call) : Call → List (Bytes × Bytes)
  | .getState id _ key => if (lastWrite before key).isSome then [(id, key)] else []
  | _ => []

/-- The contracts and keys whose values a call takes from the database. -/
def Call.obtained (db : Db) (before : List Call) : Call → List (Bytes × Bytes)
  | .getState id _ key => if (lastWrite before key).isSome then [] else [(id, key)]
  | .getStatesByPrefix id _ start =>
    ((db.getContractStatesByPrefix id start).getD []).map fun row => (id, row.1)
  | _ => []

/-- What a function of the calls before and the call gives along a sequence of calls. -/
def along (f : List Call → Call → List (Bytes × Bytes)) :
    List Call → List Call → List (Bytes × Bytes)
  | _, [] => []
  | before, c :: calls => f before c ++ along f (before ++ [c]) calls

lemma along_concat (f : List Call → Call → List (Bytes × Bytes)) (before calls : List Call)
    (c : Call) : along f before (calls ++ [c]) = along f before calls ++ f (before ++ calls) c := by
  induction calls generalizing before with
  | nil => simp [along]
  | cons c' calls ih => simp [along, ih]

/-- The contracts and keys whose values a sequence of calls takes from the database. -/
def fromDb (db : Db) (calls : List Call) : List (Bytes × Bytes) :=
  along (Call.obtained db) [] calls

/-- The contracts and keys whose values a sequence of calls takes from earlier writes. -/
def fromCache (calls : List Call) : List (Bytes × Bytes) :=
  along Call.cached [] calls

lemma fromDb_concat (db : Db) (calls : List Call) (c : Call) :
    fromDb db (calls ++ [c]) = fromDb db calls ++ c.obtained db calls :=
  along_concat ..

lemma fromCache_concat (calls : List Call) (c : Call) :
    fromCache (calls ++ [c]) = fromCache calls ++ c.cached calls :=
  along_concat ..

/-- The version a database has for a key of a contract. -/
def storedVersion (db : Db) (id key : Bytes) : Option StateVersion :=
  (db.getContractState id key).map ContractStateValue.version

/-- The read set lists the keys taken from the database with the versions stored for them; a key
taken from earlier writes only, if it is listed, has no version. -/
structure Faithful (db : Db) (calls : List Call) (reads : List KVRead) : Prop where
  complete : ∀ x ∈ fromDb db calls, ⟨x.1, x.2, storedVersion db x.1 x.2⟩ ∈ reads
  sound : ∀ r ∈ reads,
    (r.contractId, r.key) ∈ fromDb db calls ∧ r.version = storedVersion db r.contractId r.key ∨
      (r.contractId, r.key) ∉ fromDb db calls ∧ (r.contractId, r.key) ∈ fromCache calls ∧
        r.version = none
  once : (reads.map KVRead.key).Nodup

namespace RwSetTxSimulator

/-- What the next call needs to be recorded faithfully. -/
structure Recorded (db : Db) (before : List Call) (c : Call) : Prop where
  /-- A key that is taken from the database is there. -/
  present : ∀ x ∈ c.obtained db before, (db.getContractState x.1 x.2).isSome
  /-- A key that has been taken from the database is read from the same contract's state. -/
  single : ∀ x ∈ c.obtained db before ++ c.cached before, ∀ y ∈ fromDb db before,
    y.2 = x.2 → y = x
  /-- A key that is taken from the cache has been recorded before, unless nothing was taken from the
  database before. -/
  known : ∀ x ∈ c.cached before, x ∈ fromDb db before ∨ x.2 ∈ (fromCache before).map Prod.snd ∨
    fromDb db before = []

/-- The record of a key when all calls are recorded faithfully. -/
def expected (db : Db) (calls : List Call) (key : Bytes) : Option KVRead :=
  (((fromDb db calls).find? (·.2 = key)).map fun x => ⟨x.1, key, storedVersion db x.1 key⟩).or
    (((fromCache calls).reverse.find? (·.2 = key)).map fun x => ⟨x.1, key, none⟩)

/-- A key is taken from one contract's state in the database only. -/
def SingleIds (db : Db) (calls : List Call) : Prop :=
  ∀ x ∈ fromDb db calls, ∀ y ∈ fromDb db calls, y.2 = x.2 → y = x

/-- The records of a namespace are the expected ones. -/
structure AsExpected (db : Db) (calls : List Call) (b : NsPubRwBuilder) : Prop where
  lookup : ∀ key, b.readMap.lookup key = expected db calls key
  single : SingleIds db calls

section Steps

variable {db : Db} {id ns key : Bytes} {calls : List Call} {c : Call} {s : RwSetTxSimulator}
  {b : NsPubRwBuilder}

/-- Taken from the database by one contract id, the keys of a call stay with one id each. -/
lemma SingleIds.concat (h : SingleIds db calls) (id : Bytes) (hrec : Recorded db calls c)
    (hid : ∀ x ∈ c.obtained db calls, x.1 = id) : SingleIds db (calls ++ [c]) := by
  intro x hx y hy hkey
  rw [fromDb_concat, mem_append] at hx hy
  rcases hx with hx | hx <;> rcases hy with hy | hy
  · exact h x hx y hy hkey
  · exact (hrec.single y (mem_append_left _ hy) x hx hkey.symm).symm
  · exact hrec.single x (mem_append_left _ hx) y hy hkey
  · exact Prod.ext ((hid y hy).trans (hid x hx).symm) hkey

lemma find_obtained (h : ∀ y ∈ fromDb db calls, y.2 = key → y = (id, key))
    (hmem : (id, key) ∈ fromDb db calls) :
    (fromDb db calls).find? (·.2 = key) = some (id, key) := by
  obtain ⟨y, hy⟩ := Option.isSome_iff_exists.1
    (find?_isSome.2 ⟨(id, key), hmem, decide_eq_true rfl⟩ :
      ((fromDb db calls).find? (·.2 = key)).isSome = true)
  rw [hy, h y (mem_of_find?_eq_some hy) (by simpa using find?_some hy)]

/-- What the reads of a call from the database add. -/
lemma expected_obtained (id : Bytes) (hrec : Recorded db calls c) (hcached : c.cached calls = [])
    (hid : ∀ x ∈ c.obtained db calls, x.1 = id) (key : Bytes) :
    expected db (calls ++ [c]) key = if (id, key) ∈ c.obtained db calls then
      some ⟨id, key, storedVersion db id key⟩ else expected db calls key := by
  simp only [expected, fromCache_concat, hcached, append_nil]
  split
  · next hmem =>
      have hsingle : ∀ y ∈ fromDb db (calls ++ [c]), y.2 = key → y = (id, key) := by
        intro y hy hkey
        rw [fromDb_concat, mem_append] at hy
        rcases hy with hy | hy
        · exact hrec.single _ (mem_append_left _ hmem) y hy hkey
        · exact Prod.ext (hid y hy) hkey
      have hdb : (id, key) ∈ fromDb db (calls ++ [c]) := by
        rw [fromDb_concat]
        exact mem_append_right _ hmem
      rw [find_obtained hsingle hdb]
      rfl
  next hmem =>
    have hnone : (c.obtained db calls).find? (·.2 = key) = none := by
      refine find?_eq_none.2 fun y hy hkey => hmem ?_
      rw [← hid y hy, ← of_decide_eq_true hkey]
      exact hy
    rw [fromDb_concat, find?_append, hnone, Option.or_none]

/-- What a read from the cache adds. -/
lemma expected_cached (hrec : Recorded db calls c) (hobtained : c.obtained db calls = [])
    (hcached : c.cached calls = [(id, key)]) (key' : Bytes) :
    expected db (calls ++ [c]) key' = if key' = key then
      some ⟨id, key, if (id, key) ∈ fromDb db calls then storedVersion db id key else none⟩
      else expected db calls key' := by
  simp only [expected, fromDb_concat, fromCache_concat, hobtained, hcached, append_nil,
    reverse_append, reverse_singleton, singleton_append, find?_cons]
  by_cases hkey : key' = key
  · subst hkey
    have hsingle : ∀ y ∈ fromDb db calls, y.2 = key' → y = (id, key') :=
      hrec.single (id, key') (by simp [hcached])
    by_cases hdb : (id, key') ∈ fromDb db calls
    · simp [find_obtained hsingle hdb, hdb]
    · have hnone : (fromDb db calls).find? (·.2 = key') = none := by
        refine find?_eq_none.2 fun y hy hkey => hdb ?_
        rwa [← hsingle y hy (of_decide_eq_true hkey)]
      simp [hnone, hdb]
  · simp [hkey, Ne.symm hkey]

/-- Without values from the database no record has a version. -/
lemma version_eq_none (h : AsExpected db calls b) (hnone : fromDb db calls = []) (o : MapOrder) :
    (o.reads (b.readMap.entries.map Sigma.snd)).head?.bind KVRead.version = none := by
  cases hhead : (o.reads (b.readMap.entries.map Sigma.snd)).head? with
  | none => rfl
  | some r =>
    have hmem := (o.reads_perm _).subset (mem_of_head? hhead)
    obtain ⟨e, he, rfl⟩ := List.mem_map.1 hmem
    have hlookup := h.lookup e.1
    rw [AList.mem_lookup_iff.2 he, expected, hnone] at hlookup
    obtain ⟨x, -, heq⟩ := Option.map_eq_some_iff.1 hlookup.symm
    rw [Option.bind_some, ← heq]

/-- The version of a read without one. -/
lemma version_of_cached (h : AsExpected db calls b) (hrec : Recorded db calls c)
    (hcached : c.cached calls = [(id, key)]) (o : MapOrder) :
    b.readVersion o key none =
      if (id, key) ∈ fromDb db calls then storedVersion db id key else none := by
  have hsingle : ∀ y ∈ fromDb db calls, y.2 = key → y = (id, key) :=
    hrec.single (id, key) (by simp [hcached])
  rw [NsPubRwBuilder.readVersion, h.lookup key, expected]
  by_cases hdb : (id, key) ∈ fromDb db calls
  · rw [find_obtained hsingle hdb, if_pos hdb]
    rfl
  have hnone : (fromDb db calls).find? (·.2 = key) = none := by
    refine find?_eq_none.2 fun y hy hkey => hdb ?_
    rwa [← hsingle y hy (of_decide_eq_true hkey)]
  rw [hnone, if_neg hdb, Option.map_none, Option.none_or]
  cases hfind : (fromCache calls).reverse.find? (·.2 = key) with
  | some x => rfl
  | none =>
    -- there is no record of the key, so nothing has been taken from the database
    refine version_eq_none h (((hrec.known (id, key) (by simp [hcached])).resolve_left
      hdb).resolve_left fun hmem => ?_) o
    obtain ⟨x, hx, hkey⟩ := List.mem_map.1 hmem
    exact find?_eq_none.1 hfind x (mem_reverse.2 hx) (decide_eq_true hkey)

/-- The records after the rows of a query. -/
lemma lookup_foldl_addToReadSet (o : MapOrder) (data : List (Bytes × ContractStateValue))
    (hdata : ∀ row ∈ data, storedVersion db id row.1 = some row.2.version) (b : NsPubRwBuilder)
    (key : Bytes) :
    (data.foldl (fun b row => b.addToReadSet o id row.1 (some row.2.version)) b).readMap.lookup
        key =
      if key ∈ data.map Prod.fst then some ⟨id, key, storedVersion db id key⟩
      else b.readMap.lookup key := by
  induction data generalizing b with
  | nil => simp
  | cons row data ih =>
    rw [forall_mem_cons] at hdata
    rw [foldl_cons, ih hdata.2]
    simp only [map_cons, mem_cons]
    by_cases hmem : key ∈ data.map Prod.fst
    · rw [if_pos hmem, if_pos (.inr hmem)]
    rw [if_neg hmem]
    by_cases hkey : key = row.1
    · subst hkey
      rw [if_pos (.inl rfl), addToReadSet, AList.lookup_insert, hdata.1, NsPubRwBuilder.readVersion]
    · rw [if_neg (by simp only [hkey, hmem, or_self, not_false_iff]),
        addToReadSet, AList.lookup_insert_ne hkey]

lemma asExpected_getState (o : MapOrder) (hdag : s.dag = db)
    (hcache : ∀ key, s.writeCache key = (lastWrite calls key).map Prod.snd)
    (h : AsExpected db calls (s.pubRwBuilderMap ns))
    (hrec : Recorded db calls (.getState id ns key)) :
    AsExpected db (calls ++ [.getState id ns key])
      ((s.getState o id ns key).2.pubRwBuilderMap ns) := by
  cases hlast : lastWrite calls key with
  | some w =>
    -- served from the cache
    have hobtained : (Call.getState id ns key).obtained db calls = [] := by
      simp [Call.obtained, hlast]
    have hcached : (Call.getState id ns key).cached calls = [(id, key)] := by
      simp [Call.cached, hlast]
    refine ⟨fun key' => ?_, h.single.concat id hrec (by simp [hobtained])⟩
    rw [expected_cached hrec hobtained hcached]
    simp only [getState, hcache, hlast, Option.map_some, record, Function.update_self,
      addToReadSet, version_of_cached h hrec hcached o]
    by_cases hkey : key' = key
    · subst hkey
      rw [AList.lookup_insert, if_pos rfl]
    · rw [AList.lookup_insert_ne hkey, if_neg hkey, h.lookup]
  | none =>
    have hobtained : (Call.getState id ns key).obtained db calls = [(id, key)] := by
      simp [Call.obtained, hlast]
    have hcached : (Call.getState id ns key).cached calls = [] := by
      simp [Call.cached, hlast]
    have hid : ∀ x ∈ (Call.getState id ns key).obtained db calls, x.1 = id := by
      simp [hobtained]
    obtain ⟨row, hrow⟩ := Option.isSome_iff_exists.1 (hrec.present (id, key) (by simp [hobtained]))
    refine ⟨fun key' => ?_, h.single.concat id hrec hid⟩
    rw [expected_obtained id hrec hcached hid]
    simp only [getState, hcache, hlast, Option.map_none, hdag, hrow, record,
      Function.update_self, addToReadSet, hobtained, mem_singleton, Prod.mk.injEq, true_and]
    by_cases hkey : key' = key
    · subst hkey
      simp [storedVersion, hrow, NsPubRwBuilder.readVersion]
    · rw [AList.lookup_insert_ne hkey, if_neg hkey, h.lookup]

lemma asExpected_getStatesByPrefix (o : MapOrder) (hdag : s.dag = db)
    (h : AsExpected db calls (s.pubRwBuilderMap ns)) {start : Bytes}
    (hrec : Recorded db calls (.getStatesByPrefix id ns start)) :
    AsExpected db (calls ++ [.getStatesByPrefix id ns start])
      ((s.getStatesByPrefix o id ns start).2.pubRwBuilderMap ns) := by
  have hid : ∀ x ∈ (Call.getStatesByPrefix id ns start).obtained db calls, x.1 = id := by
    intro x hx
    obtain ⟨row, -, rfl⟩ := List.mem_map.1 hx
    rfl
  refine ⟨fun key => ?_, h.single.concat id hrec hid⟩
  rw [expected_obtained id hrec rfl hid]
  simp only [getStatesByPrefix, hdag]
  cases hrows : db.getContractStatesByPrefix id start with
  | none => simpa [Call.obtained, hrows] using h.lookup key
  | some data =>
    have hperm := o.rows_perm data
    have hversions : ∀ row ∈ o.rows data, storedVersion db id row.1 = some row.2.version := by
      intro row hrow
      have hmem := (Db.mem_statesByPrefix db id start row).1 (by
        rw [hrows]
        exact hperm.subset hrow)
      rw [storedVersion, hmem.2.2]
      rfl
    have hmem : (id, key) ∈ (Call.getStatesByPrefix id ns start).obtained db calls ↔
        key ∈ data.map Prod.fst := by
      simp [Call.obtained, hrows]
    simp only [record, Function.update_self, lookup_foldl_addToReadSet o _ hversions,
      (hperm.map Prod.fst).mem_iff, hmem, h.lookup key]

end Steps

variable (P : Primitives)

/-- A call in the namespace that is recorded faithfully keeps the records as expected. -/
lemma asExpected_step {db : Db} {calls : List Call} {s : RwSetTxSimulator} (o : MapOrder)
    (hdag : s.dag = db) (hcache : ∀ key, s.writeCache key = (lastWrite calls key).map Prod.snd)
    {c : Call} (h : AsExpected db calls (s.pubRwBuilderMap c.ns)) (hrec : Recorded db calls c) :
    AsExpected db (calls ++ [c]) ((s.step P o c).2.pubRwBuilderMap c.ns) := by
  cases c with
  | getState id ns key => exact asExpected_getState o hdag hcache h hrec
  | getStatesByPrefix id ns start => exact asExpected_getStatesByPrefix o hdag h hrec
  | _ =>
    refine ⟨fun key => ?_, h.single.concat [] hrec (by simp [Call.obtained])⟩
    rw [expected_obtained [] hrec rfl (by simp [Call.obtained])]
    simpa [step, setState, deleteState, record, addToWriteSet, addTokenPayOut, defineToken,
      addSupplyToken, Call.obtained, Call.ns] using h.lookup key

variable (txid : Hash) {db : Db} {ns : Bytes} {calls : List Call}

lemma asExpected_run (orders : Nat → MapOrder) (hns : ∀ c ∈ calls, c.ns = ns)
    (hrec : ∀ before c rest, calls = before ++ c :: rest → Recorded db before c) :
    AsExpected db calls
      (((newBasedTxSimulator db txid).run P orders calls).pubRwBuilderMap ns) := by
  induction calls using List.reverseRecOn with
  | nil => exact ⟨fun _ => rfl, fun x hx => absurd hx not_mem_nil⟩
  | append_singleton calls c ih =>
    obtain rfl := hns c (by simp)
    rw [run_concat]
    apply asExpected_step
    · exact dag_run P orders db txid calls
    · exact writeCache_run P orders db txid calls
    · apply ih
      · exact fun c' hc' => hns c' (mem_append_left _ hc')
      · intro before c' rest hcalls
        exact hrec before c' (rest ++ [c]) (by simp [hcalls])
    · exact hrec calls c [] rfl

lemma expected_eq_some {key : Bytes} {r : KVRead} (h : expected db calls key = some r) :
    r.key = key ∧
      ((r.contractId, key) ∈ fromDb db calls ∧ r.version = storedVersion db r.contractId key ∨
        (r.contractId, key) ∉ fromDb db calls ∧ (r.contractId, key) ∈ fromCache calls ∧
          r.version = none) := by
  unfold expected at h
  rcases Option.or_eq_some_iff.1 h with h | ⟨hnone, h⟩
  · obtain ⟨x, hx, rfl⟩ := Option.map_eq_some_iff.1 h
    obtain rfl : x.2 = key := by simpa using find?_some hx
    exact ⟨rfl, .inl ⟨mem_of_find?_eq_some hx, rfl⟩⟩
  · obtain ⟨x, hx, rfl⟩ := Option.map_eq_some_iff.1 h
    obtain rfl : x.2 = key := by simpa using find?_some hx
    refine ⟨rfl, .inr ⟨fun hdb => ?_, mem_reverse.1 (mem_of_find?_eq_some hx), rfl⟩⟩
    exact find?_eq_none.1 (Option.map_eq_none_iff.1 hnone) x hdb (decide_eq_true rfl)

lemma faithful_of_asExpected {b : NsPubRwBuilder} (h : AsExpected db calls b) :
    Faithful db calls (convertMap2Slice b.readMap) where
  complete x hx := by
    apply mem_convertMap2Slice.2
    refine ⟨x.2, (h.lookup x.2).trans ?_⟩
    rw [expected, find_obtained (h.single x hx) hx]
    rfl
  sound r hr := by
    obtain ⟨key, hkey⟩ := mem_convertMap2Slice.1 hr
    obtain ⟨rfl, hversion⟩ := expected_eq_some ((h.lookup key).symm.trans hkey)
    exact hversion
  once := by
    apply nodup_convertMap2Slice
    intro key r hr
    exact (expected_eq_some ((h.lookup key).symm.trans hr)).1

end RwSetTxSimulator

/-! ### A contract with two keys -/

namespace TwoKeys

/-- A version by its unit. -/
def version (index : UInt64) : StateVersion := ⟨some ⟨newPTNAsset.assetId, index⟩, 0⟩

/-- The keys `[7]` and `[8]` of the contract, of different versions, and a key of another one. -/
def db : Db :=
  { Db.empty with
    contractState := (((∅ : Table Bytes ContractStateValue).insert [1, 7] ⟨[5], version 1⟩).insert
      [1, 8] ⟨[6], version 2⟩).insert [2, 6] ⟨[4], version 3⟩ }

/-- The contract reads a key of its own. -/
def get (key : UInt8) : Call := .getState [1] [10] [key]

/-- The contract writes a key of its own. -/
def set (key : UInt8) : Call := .setState [] [10] [key] (some [0])

/-- The read set after some calls. -/
def readSet (o : MapOrder) (calls : List Call) : List KVRead :=
  (((RwSetTxSimulator.newBasedTxSimulator db (FixedBytes.zero 32)).run SmallNode.primitives
    (fun _ => o) calls).getRwData [10]).1

/-- Both keys are read, then a new one is written and read. -/
def writtenThenRead : List Call := [get 7, get 8, set 9, get 9]

/-- Two keys and one of another contract are read, one is overwritten and read again. -/
def readTwice : List Call := [get 7, get 8, .getState [2] [10] [6], set 7, get 7]

end TwoKeys

end ZwsChain.RwSet
