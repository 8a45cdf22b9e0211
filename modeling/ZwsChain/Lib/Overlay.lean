import Mathlib

/-!
# Key-value stores and overlays

A store is a partial function. A write gives a key a value or deletes it; `applyWrites` is the
store after a list of writes. An `Overlay` collects writes in memory: what it does not mention is
read from the store below.

* `Overlay.get_writes`: writing to the overlay is writing to what is read through it.
* `Overlay.get_applyWrites`: writes below, to keys that the overlay mentions, do not show.
-/

namespace ZwsChain.Lib

open Function

variable {K V : Type} [DecidableEq K] (kv : K → Option V)

/-- The store after a list of writes. -/
def applyWrites (ws : List (K × Option V)) : K → Option V :=
  ws.foldl (fun kv w => update kv w.1 w.2) kv

@[simp] lemma applyWrites_nil : applyWrites kv [] = kv := rfl

@[simp] lemma applyWrites_cons (w : K × Option V) (ws : List (K × Option V)) :
    applyWrites kv (w :: ws) = applyWrites (update kv w.1 w.2) ws := rfl

lemma applyWrites_append (ws ws' : List (K × Option V)) :
    applyWrites kv (ws ++ ws') = applyWrites (applyWrites kv ws) ws' := by
  unfold applyWrites
  rw [List.foldl_append]

variable {k : K} {kv : K → Option V} {ws : List (K × Option V)}

/-- Other keys keep their value. -/
lemma applyWrites_of_notMem (h : k ∉ ws.map Prod.fst) : applyWrites kv ws k = kv k := by
  induction ws generalizing kv with
  | nil => rfl
  | cons w ws ih =>
    simp only [List.map_cons, List.mem_cons, not_or] at h
    rw [applyWrites_cons, ih h.2, update_of_ne h.1]

/-- The value of a written key does not depend on the store before. -/
lemma applyWrites_of_mem {kv' : K → Option V} (h : k ∈ ws.map Prod.fst) :
    applyWrites kv ws k = applyWrites kv' ws k := by
  induction ws generalizing kv kv' with
  | nil => simp at h
  | cons w ws ih =>
    rw [applyWrites_cons, applyWrites_cons]
    by_cases hk : k ∈ ws.map Prod.fst
    · exact ih hk
    rw [applyWrites_of_notMem hk, applyWrites_of_notMem hk]
    simp only [List.map_cons, List.mem_cons] at h
    rcases h with rfl | h
    · simp
    · exact absurd h hk

/-- Written values and deleted keys over a store. -/
structure Overlay (K V : Type) where
  kv : K → Option V
  deleted : K → Bool

namespace Overlay

variable (o : Overlay K V) (db : K → Option V)

/-- The overlay without writes. -/
def empty : Overlay K V :=
  ⟨fun _ => none, fun _ => false⟩

/-- A key gets a value. -/
def put (k : K) (v : V) : Overlay K V :=
  ⟨update o.kv k (some v), update o.deleted k false⟩

/-- A key is deleted. -/
def delete (k : K) : Overlay K V :=
  ⟨update o.kv k none, update o.deleted k true⟩

/-- A write of either kind. -/
def write (w : K × Option V) : Overlay K V :=
  match w.2 with
  | some v => o.put w.1 v
  | none => o.delete w.1

/-- A list of writes. -/
def writes (ws : List (K × Option V)) : Overlay K V :=
  ws.foldl write o

/-- What is read through the overlay. -/
def get (k : K) : Option V :=
  if o.deleted k then none else (o.kv k).or (db k)

/-- The overlay has a value for the key or has it deleted. -/
def Mentions (k : K) : Prop :=
  o.deleted k = true ∨ (o.kv k).isSome

omit [DecidableEq K] in
@[simp] lemma get_empty : (empty : Overlay K V).get db = db := by
  funext k
  simp [get, empty]

lemma get_write (w : K × Option V) :
    (o.write w).get db = update (o.get db) w.1 w.2 := by
  obtain ⟨k, v⟩ := w
  funext x
  cases v <;> by_cases hx : x = k <;> simp [get, write, put, delete, hx]

lemma get_writes (ws : List (K × Option V)) :
    (o.writes ws).get db = applyWrites (o.get db) ws := by
  induction ws generalizing o with
  | nil => rfl
  | cons w ws ih =>
    rw [applyWrites_cons, ← get_write]
    exact ih (o.write w)

lemma mentions_write (w : K × Option V) (k : K) :
    (o.write w).Mentions k ↔ o.Mentions k ∨ k = w.1 := by
  obtain ⟨k', v⟩ := w
  cases v <;> by_cases hk : k = k' <;> simp [Mentions, write, put, delete, hk]

lemma mentions_writes (ws : List (K × Option V)) (k : K) :
    (o.writes ws).Mentions k ↔ o.Mentions k ∨ k ∈ ws.map Prod.fst := by
  induction ws generalizing o with
  | nil => simp [writes]
  | cons w ws ih =>
    have hrest := ih (o.write w)
    rw [mentions_write] at hrest
    simp only [List.map_cons, List.mem_cons]
    rw [← or_assoc]
    exact hrest

variable {o db}
variable {db' : K → Option V} {k : K}

omit [DecidableEq K] in
lemma get_of_mentions (h : o.Mentions k) : o.get db k = o.get db' k := by
  unfold get
  rcases h with h | h
  · simp [h]
  · obtain ⟨v, hv⟩ := Option.isSome_iff_exists.1 h
    simp [hv]

omit [DecidableEq K] in
lemma get_of_not_mentions (h : ¬o.Mentions k) : o.get db k = db k := by
  unfold Mentions at h
  push Not at h
  simp only [Option.isSome_iff_ne_none, ne_eq, not_not] at h
  simp [get, h.1, h.2]

omit [DecidableEq K] in
lemma get_congr (h : db k = db' k) : o.get db k = o.get db' k := by
  unfold get
  rw [h]

omit [DecidableEq K] in
/-- A key is read from the store below, or does not depend on it. -/
lemma get_eq_or (k : K) : (∀ db, o.get db k = db k) ∨ ∀ db db', o.get db k = o.get db' k := by
  by_cases hk : o.Mentions k
  · exact .inr fun db db' => get_of_mentions hk
  · exact .inl fun db => get_of_not_mentions hk

/-- Writes below that the overlay covers do not show. -/
lemma get_applyWrites (h : ∀ k ∈ ws.map Prod.fst, o.Mentions k) :
    o.get (applyWrites db ws) = o.get db := by
  funext k
  by_cases hk : o.Mentions k
  · exact get_of_mentions hk
  rw [get_of_not_mentions hk, get_of_not_mentions hk]
  apply applyWrites_of_notMem
  intro hmem
  exact hk (h k hmem)

end Overlay

end ZwsChain.Lib
