import ZwsChain.Lib.Rlp

/-!
# Reading records from items

A record is written as the list of its fields. The readers here take the fields back: byte strings,
byte arrays of a fixed length, numbers of a width, booleans and lists. Each comes with what it
gives on the item that was written; `toList_map` is the rule for lists whose elements may be
unreadable.
-/

namespace ZwsChain.Lib.Rlp

variable {α β : Type}

namespace Item

/-- A byte string. -/
def toStr : Item → Option Bytes
  | .str b => some b
  | .list _ => none

/-- A byte array of `n` bytes. -/
def toArray (n : Nat) : Item → Option {b : Bytes // b.length = n}
  | .str b => if h : b.length = n then some ⟨b, h⟩ else none
  | .list _ => none

/-- A number of at most `k` bytes, without leading zeros. -/
def toNat (k : Nat) : Item → Option Nat
  | .str b => if b.head? = some 0 ∨ k < b.length then none else some (ofBE b)
  | .list _ => none

/-- A boolean: no byte or the byte one. -/
def toBool : Item → Option Bool
  | .str [] => some false
  | .str [1] => some true
  | _ => none

/-- A list, element by element. -/
def toList (read : Item → Option α) : Item → Option (List α)
  | .str _ => none
  | .list l => l.mapM read

@[simp] lemma toStr_str (b : Bytes) : (str b).toStr = some b := rfl

@[simp] lemma toArray_str {n : Nat} (b : {b : Bytes // b.length = n}) :
    (str b.val).toArray n = some b := by
  simp [toArray, b.property]

variable {write : α → Item} {read : Item → Option α}

/-- The elements that can be read are read as what they were; one that cannot spoils the list. -/
lemma toList_map {ok : α → Bool}
    (h : ∀ a, read (write a) = if ok a then some a else none) (l : List α) :
    (list (l.map write)).toList read = if l.all ok then some l else none := by
  show (l.map write).mapM read = _
  induction l with
  | nil => rfl
  | cons a l ih =>
    rw [List.map_cons, List.mapM_cons, h a, ih, List.all_cons]
    cases ok a <;> cases l.all ok <;> rfl

lemma toList_map_pure {read : Item → Option β} {f : α → β}
    (h : ∀ a, read (write a) = some (f a)) (l : List α) :
    (list (l.map write)).toList read = some (l.map f) := by
  have hread : read ∘ write = fun a => pure (f a) := funext h
  show (l.map write).mapM read = _
  rw [List.mapM_map, hread, List.mapM_pure]
  rfl

lemma toList_map_some (h : ∀ a, read (write a) = some a) (l : List α) :
    (list (l.map write)).toList read = some l :=
  (toList_map_pure h l).trans (congrArg some l.map_id)

end Item

/-! ### Numbers -/

lemma foldl_ofBE (b : Bytes) (n : Nat) :
    b.foldl (fun acc x => acc * 256 + x.toNat) n = n * 256 ^ b.length + ofBE b := by
  induction b generalizing n with
  | nil => simp
  | cons x b ih =>
    rw [ofBE, List.foldl_cons, List.foldl_cons, ih, ih (0 * 256 + x.toNat), List.length_cons,
      Nat.pow_succ]
    ring

lemma pow_le_ofBE {x : UInt8} (hx : x ≠ 0) (b : Bytes) : 256 ^ b.length ≤ ofBE (x :: b) := by
  have hpos : 0 < x.toNat := Nat.pos_of_ne_zero fun h => hx (UInt8.toNat_inj.1 h)
  rw [ofBE, List.foldl_cons, foldl_ofBE, Nat.zero_mul, Nat.zero_add]
  calc 256 ^ b.length = 1 * 256 ^ b.length := (Nat.one_mul _).symm
    _ ≤ x.toNat * 256 ^ b.length := Nat.mul_le_mul_right _ hpos
    _ ≤ x.toNat * 256 ^ b.length + ofBE b := Nat.le_add_right _ _

/-- A number below `256 ^ k` takes at most `k` bytes. -/
lemma putint_length_le_of_lt {k n : Nat} (hk : k ≤ 8) (h : n < 256 ^ k) :
    (putint n).length ≤ k := by
  have h64 : n < 2 ^ 64 := by
    calc n < 256 ^ k := h
      _ ≤ 256 ^ 8 := Nat.pow_le_pow_right (by decide) hk
      _ = 2 ^ 64 := by decide
  cases hb : putint n with
  | nil => exact Nat.zero_le _
  | cons x b =>
    have hx : x ≠ 0 := by
      intro hx
      apply head?_putint_ne_zero n
      rw [hb, hx]
      rfl
    have hpow := pow_le_ofBE hx b
    rw [← hb, ofBE_putint h64] at hpow
    exact Nat.lt_of_not_le fun hle =>
      absurd (hpow.trans_lt h) (Nat.not_lt.2 (Nat.pow_le_pow_right (by decide) hle))

lemma Item.toNat_putint {k n : Nat} (hk : k ≤ 8) (h : n < 256 ^ k) :
    (Item.str (putint n)).toNat k = some n := by
  have hlen := putint_length_le_of_lt hk h
  have h64 : n < 2 ^ 64 := by
    calc n < 256 ^ k := h
      _ ≤ 256 ^ 8 := Nat.pow_le_pow_right (by decide) hk
      _ = 2 ^ 64 := by decide
  rw [Item.toNat, if_neg, ofBE_putint h64]
  rintro (hzero | hlong)
  · exact head?_putint_ne_zero n hzero
  · omega

end ZwsChain.Lib.Rlp
