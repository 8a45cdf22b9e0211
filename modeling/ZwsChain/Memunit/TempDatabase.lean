import ZwsChain.Dag.StateDb
import ZwsChain.Lib.Keyed
import ZwsChain.Lib.Overlay

/-!
# Temporary databases over a database

A temporary database keeps written values and deleted keys in memory over another database, which
may be temporary itself. What is read at the top is a plain map with the writes applied level by
level, the lowest level first (`reads_levelwise`): a write below a level that has the key already
does not show (`write_below_hidden`).
Sources without a file are in `dag/memunit/tempdb.go`.
-/

namespace ZwsChain.TempDatabase

open Lib (applyWrites applyWrites_append)
open AList List Function Option
open Lib.Keyed (lookup_foldl_erase lookup_foldl_insert_pairs)

/-- A database is a plain map, or a temporary database over another one.
Source: `Tempdb` -/
inductive Database where
  | base (kv : Table Bytes Bytes)
  | temp (kv : Table Bytes Bytes) (deleted : Table Bytes Bool) (db : Database)

/-- A write of a value, or of none: the key is deleted.
Source: `kv` -/
abbrev Kv := Bytes × Option Bytes

/-- The pairs of a map, as an iterator goes through them. -/
def keyValues (result : Table Bytes Bytes) : List (Bytes × Bytes) :=
  result.entries.map fun e => (e.1, e.2)

/-- Source: `getprefix` -/
def getprefix (iter : List (Bytes × Bytes)) : Table Bytes Bytes :=
  iter.foldl (fun result e => result.insert e.1 e.2) ∅

namespace Database

/-- Source: `NewTempdb` -/
def newTempdb (db : Database) : Database :=
  temp ∅ ∅ db

/-- Source: `Put` -/
def put (key value : Bytes) : Database → Database
  | base kv => base (kv.insert key value)
  | temp kv deleted db => temp (kv.insert key value) (deleted.erase key) db

/-- Source: `Delete` -/
def delete (key : Bytes) : Database → Database
  | base kv => base (kv.erase key)
  | temp kv deleted db => temp (kv.erase key) (deleted.insert key true) db

/-- One write of a batch. -/
def writeOne (db : Database) (w : Kv) : Database :=
  match w.2 with
  | some value => db.put w.1 value
  | none => db.delete w.1

/-- The pending writes of a batch, in their order.
Source: `Write` -/
def write (writes : List Kv) (db : Database) : Database :=
  writes.foldl writeOne db

/-- Source: `Get` -/
def get (key : Bytes) : Database → Option Bytes
  | base kv => kv.lookup key
  | temp kv deleted db =>
    if (deleted.lookup key).isSome then none
    else match kv.lookup key with
      | some entry => some entry
      | none => db.get key

/-- Source: `Has` -/
def has (key : Bytes) : Database → Bool
  | base kv => (kv.lookup key).isSome
  | temp kv deleted db =>
    if (deleted.lookup key).isSome then false
    else if (kv.lookup key).isSome then true
    else db.has key

/-- The values of the database below, the written values over them, without the deleted keys.
Source: `NewIteratorWithPrefix` -/
def newIteratorWithPrefix (pre : Bytes) : Database → List (Bytes × Bytes)
  | base kv => (keyValues kv).filter fun e => pre.isPrefixOf e.1
  | temp kv deleted db =>
    let result := getprefix (db.newIteratorWithPrefix pre)
    let result := (keyValues kv).foldl
      (fun result e => if pre.isPrefixOf e.1 then result.insert e.1 e.2 else result) result
    keyValues (deleted.keys.foldl
      (fun result key => if pre.isPrefixOf key then result.erase key else result) result)

end Database

open Database

/-! ### Runs -/

/-- Temporary databases over a plain map, before any write. -/
def stack (kv : Table Bytes Bytes) : ℕ → Database
  | 0 => base kv
  | height + 1 => (stack kv height).newTempdb

/-- The operations that change a database. -/
inductive Op where
  | put (key value : Bytes)
  | delete (key : Bytes)
  | write (writes : List Kv)

namespace Op

/-- The operation at the top. -/
def apply : Op → Database → Database
  | put key value => Database.put key value
  | delete key => Database.delete key
  | write writes => Database.write writes

/-- What the operation does to a plain map. -/
def writes : Op → List Kv
  | put key value => [(key, some value)]
  | delete key => [(key, none)]
  | write writes => writes

/-- The operation `depth` levels below the top; nothing if there are fewer levels. -/
def applyAt (op : Op) : ℕ → Database → Database
  | 0, db => op.apply db
  | _ + 1, base kv => base kv
  | depth + 1, temp kv deleted db => temp kv deleted (op.applyAt depth db)

end Op

variable (kv : Table Bytes Bytes) (db : Database) (ops : List (ℕ × Op)) (pre : Bytes)

/-- Operations one after the other, each at its depth. -/
def run : Database :=
  ops.foldl (fun db o => o.2.applyAt o.1 db) db

/-- The writes at one depth, in their order. -/
def writesAt (depth : ℕ) : List Kv :=
  (ops.filter fun o => o.1 = depth).flatMap fun o => o.2.writes

/-- The writes of all levels, those of the deepest first. -/
def levelwise (height : ℕ) : List Kv :=
  (range (height + 1)).reverse.flatMap fun depth => writesAt ops depth

/-- The operations below the top, as the next level sees them. -/
def below : List (ℕ × Op) :=
  (ops.filter fun o => 0 < o.1).map fun o => (o.1 - 1, o.2)

lemma writesAt_below (depth : ℕ) : writesAt (below ops) depth = writesAt ops (depth + 1) := by
  have heq : (fun o : ℕ × Op => decide (o.1 - 1 = depth) && decide (0 < o.1)) =
      fun o => decide (o.1 = depth + 1) := by
    funext o
    rw [← Bool.decide_and, decide_eq_decide]
    omega
  simp [writesAt, below, List.filter_map, flatMap_map, heq]

lemma levelwise_succ (height : ℕ) :
    levelwise ops (height + 1) = levelwise (below ops) height ++ writesAt ops 0 := by
  rw [levelwise, range_succ_eq_map, reverse_cons, flatMap_append, flatMap_singleton, ← map_reverse,
    flatMap_map]
  simp only [levelwise, writesAt_below]

/-! ### Reads after writes -/

lemma get_writeOne (w : Kv) :
    (fun key => (writeOne db w).get key) = update (fun key => db.get key) w.1 w.2 := by
  funext key
  obtain ⟨k, value | v⟩ := w <;> rcases eq_or_ne key k with rfl | hne <;> cases db <;>
    simp [writeOne, put, delete, Database.get, *]

lemma get_write (ws : List Kv) :
    (fun key => (write ws db).get key) = applyWrites (fun key => db.get key) ws := by
  induction ws generalizing db with
  | nil => rfl
  | cons w ws ih =>
    rw [Lib.applyWrites_cons, ← get_writeOne]
    exact ih _

lemma apply_eq (op : Op) : op.apply db = write op.writes db := by
  cases op <;> rfl

/-- Writes at the top and operations below it commute. -/
lemma applyAt_write (op : Op) (depth : ℕ) (ws : List Kv) :
    op.applyAt (depth + 1) (write ws db) = write ws (op.applyAt (depth + 1) db) := by
  refine (foldl_hom _ fun db w => ?_).symm
  obtain ⟨k, value | v⟩ := w <;> cases db <;> rfl

lemma run_append (o : ℕ × Op) : run db (ops ++ [o]) = o.2.applyAt o.1 (run db ops) :=
  foldl_append

/-- So the operations below can go first. -/
lemma run_eq : run db ops = write (writesAt ops 0) (run db (ops.filter fun o => 0 < o.1)) := by
  induction ops using reverseRecOn with
  | nil => rfl
  | append_singleton ops o ih =>
    rw [run_append, ih]
    obtain ⟨_ | depth, op⟩ := o
    · have hwrites : writesAt (ops ++ [(0, op)]) 0 = writesAt ops 0 ++ op.writes := by
        simp [writesAt]
      rw [hwrites, filter_append, write, write, foldl_append]
      exact (apply_eq _ op).trans (by simp [write])
    have hwrites : writesAt (ops ++ [(depth + 1, op)]) 0 = writesAt ops 0 := by
      simp [writesAt]
    rw [hwrites, filter_append, applyAt_write, ← run_append]
    rfl

/-- On the plain map there is nothing below. -/
lemma run_base : run (base kv) (ops.filter fun o => 0 < o.1) = base kv := by
  induction ops with
  | nil => rfl
  | cons o ops ih => obtain ⟨_ | depth, op⟩ := o <;> exact ih

lemma run_newTempdb :
    run db.newTempdb (ops.filter fun o => 0 < o.1) = (run db (below ops)).newTempdb := by
  induction ops generalizing db with
  | nil => rfl
  | cons o ops ih => obtain ⟨_ | depth, op⟩ := o <;> exact ih _

lemma get_levelwise (height : ℕ) :
    (fun key => (run (stack kv height) ops).get key) =
      applyWrites (fun key => kv.lookup key) (levelwise ops height) := by
  induction height generalizing ops with
  | zero =>
    rw [levelwise, range_one, reverse_singleton, flatMap_singleton, run_eq, get_write, stack,
      run_base]
    rfl
  | succ height ih =>
    rw [levelwise_succ, applyWrites_append, ← ih, run_eq, get_write, stack, run_newTempdb]
    rfl

lemma has_eq (key : Bytes) : db.has key = (db.get key).isSome := by
  induction db with
  | base kv => rfl
  | temp kv deleted db ih =>
    rw [Database.has, Database.get, ih]
    cases kv.lookup key <;> split <;> rfl

/-! ### Iterators -/

lemma mem_keyValues {t : Table Bytes Bytes} {e : Bytes × Bytes} :
    e ∈ keyValues t ↔ t.lookup e.1 = some e.2 := by
  rw [keyValues, List.mem_map, ← Option.mem_def, mem_lookup_iff]
  constructor
  · rintro ⟨x, hx, rfl⟩
    exact hx
  · exact fun he => ⟨_, he, rfl⟩

lemma nodup_keyValues (t : Table Bytes Bytes) : ((keyValues t).map Prod.fst).Nodup := by
  rw [keyValues, List.map_map]
  exact t.nodupKeys

/-- An iterator has the pairs of the keys with the prefix, each once. -/
lemma newIteratorWithPrefix_spec :
    ((db.newIteratorWithPrefix pre).map Prod.fst).Nodup ∧
      ∀ e, e ∈ db.newIteratorWithPrefix pre ↔ pre <+: e.1 ∧ db.get e.1 = some e.2 := by
  induction db with
  | base kv =>
    refine ⟨(nodup_keyValues kv).sublist (filter_sublist.map _), fun e => ?_⟩
    rw [Database.newIteratorWithPrefix, mem_filter, isPrefixOf_iff_prefix, mem_keyValues, and_comm]
    rfl
  | temp kv deleted db ih =>
    refine ⟨nodup_keyValues _, fun e => ?_⟩
    have hbelow : ∀ t, t = getprefix (db.newIteratorWithPrefix pre) →
        (t.lookup e.1 = some e.2 ↔ pre <+: e.1 ∧ db.get e.1 = some e.2) := by
      rintro _ rfl
      have hinsert := @lookup_foldl_insert_pairs _ _ _ (fun _ => True) _ _ ih.1 ∅ e.1 e.2
      simpa [ih.2, getprefix] using hinsert
    have hwritten : e.1 ∈ (keyValues kv).map Prod.fst ↔ (kv.lookup e.1).isSome := by
      rw [keyValues, List.map_map, lookup_isSome]
      rfl
    rw [Database.newIteratorWithPrefix, mem_keyValues, lookup_foldl_erase, ite_none_left_eq_some,
      lookup_foldl_insert_pairs (fun key => pre.isPrefixOf key) (nodup_keyValues kv), hbelow _ rfl,
      mem_keyValues, Database.get, isPrefixOf_iff_prefix, ite_none_left_eq_some, hwritten,
      ← AList.mem_keys, ← lookup_isSome]
    by_cases hpre : pre <+: e.1 <;> cases kv.lookup e.1 <;> simp [hpre]

/-! ### The plain map -/

/-- For every plain map, every stack of temporary databases over it and all operations at any of
its levels: a read at the top is one of the map with the writes applied level by level. -/
theorem reads_levelwise (height : ℕ) :
    let db := run (stack kv height) ops
    let plain := applyWrites (fun key => kv.lookup key) (levelwise ops height)
    (∀ key, db.get key = plain key ∧ db.has key = (plain key).isSome) ∧
      ((db.newIteratorWithPrefix pre).map Prod.fst).Nodup ∧
      ∀ e, e ∈ db.newIteratorWithPrefix pre ↔ pre <+: e.1 ∧ plain e.1 = some e.2 := by
  intro db plain
  have hget (key : Bytes) : db.get key = plain key := congrFun (get_levelwise kv ops height) key
  obtain ⟨hnodup, hmem⟩ := newIteratorWithPrefix_spec db pre
  refine ⟨fun key => ⟨hget key, ?_⟩, hnodup, fun e => ?_⟩
  · rw [has_eq, hget]
  · rw [hmem, hget]

/-- A value is written at the top and then another one below: the top has the first one. -/
theorem write_below_hidden :
    let ops := [(0, Op.put [1] [1]), (1, Op.put [1] [2])]
    (run (stack ∅ 1) ops).get [1] = some [1] ∧
      applyWrites (fun _ => none) (ops.flatMap fun o => o.2.writes) [1] = some [2] := by
  decide

end ZwsChain.TempDatabase
