import Mathlib

/-!
# Recursive length prefix encoding

The byte format every record of a ledger is hashed, signed and stored in. An `Item` is a byte
string or a list of items; `encode` writes it with the shortest header, `decode` reads it back
and refuses everything `encode` does not write.

* `decode_encode`: reading back what was written, for items whose encoding has fewer than
  `2 ^ 64` bytes (longer ones have no header).
* `encode_injective`: two such items with one encoding are equal.
* `Item.ofUInt64`/`Item.toUInt64` and the round trip `toUInt64_ofUInt64`.
-/

open List Option UInt8

namespace ZwsChain.Lib

/-- A byte string. -/
abbrev Bytes := List UInt8

namespace Rlp

/-- A value of the format: a byte string or a list of values. -/
inductive Item where
  | str (b : Bytes)
  | list (l : List Item)

/-! ### Big-endian numbers without leading zeros -/

/-- The eight big-endian bytes of a number below `2 ^ 64`. -/
def be8 (n : Nat) : Bytes :=
  [ofNat (n / 2 ^ 56), ofNat (n / 2 ^ 48), ofNat (n / 2 ^ 40),
    ofNat (n / 2 ^ 32), ofNat (n / 2 ^ 24), ofNat (n / 2 ^ 16),
    ofNat (n / 2 ^ 8), ofNat n]

/-- The least number of big-endian bytes that represent `n`. -/
def putint (n : Nat) : Bytes :=
  (be8 n).dropWhile (· = 0)

variable (b : Bytes)

/-- The number a big-endian byte string stands for. -/
def ofBE : Nat :=
  b.foldl (fun acc x => acc * 256 + x.toNat) 0

@[simp] lemma ofBE_nil : ofBE [] = 0 := rfl

lemma ofBE_dropWhile : ofBE (b.dropWhile (· = 0)) = ofBE b := by
  induction b with
  | nil => rfl
  | cons x xs ih =>
    by_cases hx : x = 0
    · subst hx
      simpa [ofBE] using ih
    · simp [hx]

lemma ofBE_putint {n : Nat} (h : n < 2 ^ 64) : ofBE (putint n) = n := by
  rw [putint, ofBE_dropWhile]
  simp only [ofBE, be8, foldl_cons, foldl_nil, toNat_ofNat']
  omega

lemma putint_length_le (n : Nat) : (putint n).length ≤ 8 :=
  (dropWhile_sublist _).length_le

lemma putint_ne_nil {n : Nat} (h : n < 2 ^ 64) (h0 : n ≠ 0) : putint n ≠ [] := by
  intro hnil
  have := ofBE_putint h
  rw [hnil, ofBE_nil] at this
  exact h0 this.symm

lemma head?_putint_ne_zero (n : Nat) : (putint n).head? ≠ some 0 := by
  intro h
  have hnot := head?_dropWhile_not (fun x : UInt8 => decide (x = 0)) (be8 n)
  rw [putint] at h
  rw [h] at hnot
  simp at hnot

/-! ### Encoding -/

/-- The header of a body of `n` bytes; `off` is `0x80` for strings and `0xC0` for lists. -/
def header (off n : Nat) : Bytes :=
  if n < 56 then [ofNat (off + n)]
  else ofNat (off + 55 + (putint n).length) :: putint n

/-- A single byte below `0x80` stands for itself. -/
def isSmall : Bytes → Bool
  | [x] => x < 0x80
  | _ => false

/-- A byte string with its header. -/
def encodeString : Bytes :=
  if isSmall b then b else header 0x80 b.length ++ b

mutual

/-- The encoding of an item. -/
def encode : Item → Bytes
  | .str b => encodeString b
  | .list l => header 0xC0 (encodeList l).length ++ encodeList l

/-- The encodings of a list of items, one after the other. -/
def encodeList : List Item → Bytes
  | [] => []
  | x :: xs => encode x ++ encodeList xs

end

@[simp] lemma encode_str : encode (.str b) = encodeString b := rfl

@[simp] lemma encode_list (l : List Item) :
    encode (.list l) = header 0xC0 (encodeList l).length ++ encodeList l := rfl

@[simp] lemma encodeList_nil : encodeList [] = [] := rfl

@[simp] lemma encodeList_cons (x : Item) (xs : List Item) :
    encodeList (x :: xs) = encode x ++ encodeList xs := rfl

lemma encodeList_append (l l' : List Item) :
    encodeList (l ++ l') = encodeList l ++ encodeList l' := by
  induction l with
  | nil => rfl
  | cons x xs ih => rw [cons_append, encodeList_cons, encodeList_cons, ih, append_assoc]

lemma header_ne_nil (off n : Nat) : header off n ≠ [] := by
  unfold header
  split <;> simp

lemma encode_ne_nil (x : Item) : encode x ≠ [] := by
  cases x with
  | list l => simp [header_ne_nil]
  | str b =>
    rw [encode_str, encodeString]
    split
    · rename_i h
      intro hb
      simp [hb, isSmall] at h
    · simp [header_ne_nil]

/-! ### Decoding -/

/-- The first `n` bytes and the rest. -/
def readFixed (n : Nat) (b : Bytes) : Option (Bytes × Bytes) :=
  if n ≤ b.length then some (b.take n, b.drop n) else none

/-- A body whose length is written in the next `k` bytes, without a leading zero and only for
lengths that do not fit a one-byte header. -/
def readLong (k : Nat) (b : Bytes) : Option (Bytes × Bytes) := do
  let (size, rest) ← readFixed k b
  if size.head? = some 0 ∨ ofBE size < 56 then none else readFixed (ofBE size) rest

/-- The first value of an input: whether it is a list, its body and what follows. -/
def split : Bytes → Option (Bool × Bytes × Bytes)
  | [] => none
  | t :: rest =>
    if t.toNat < 0x80 then some (false, [t], rest)
    else if t.toNat < 0xB8 then
      match readFixed (t.toNat - 0x80) rest with
      | some (b, r) => if isSmall b then none else some (false, b, r)
      | none => none
    else if t.toNat < 0xC0 then
      (readLong (t.toNat - 0xB7) rest).map fun p => (false, p.1, p.2)
    else if t.toNat < 0xF8 then
      (readFixed (t.toNat - 0xC0) rest).map fun p => (true, p.1, p.2)
    else (readLong (t.toNat - 0xF7) rest).map fun p => (true, p.1, p.2)

/-- The values an input consists of; `fuel` bounds the number of headers read. -/
def decodeList : Nat → Bytes → Option (List Item)
  | _, [] => some []
  | 0, _ :: _ => none
  | fuel + 1, b =>
    match split b with
    | none => none
    | some (false, s, r) => (decodeList fuel r).map (Item.str s :: ·)
    | some (true, s, r) => do
        let l ← decodeList fuel s
        let xs ← decodeList fuel r
        some (Item.list l :: xs)

/-- The one value an input consists of. -/
def decode : Option Item :=
  match decodeList b.length b with
  | some [x] => some x
  | _ => none

/-! ### Round trip -/

lemma readFixed_append (b r : Bytes) : readFixed b.length (b ++ r) = some (b, r) := by
  simp [readFixed]

lemma readLong_putint {b : Bytes} (h : b.length < 2 ^ 64) (h56 : 56 ≤ b.length) (r : Bytes) :
    readLong (putint b.length).length (putint b.length ++ (b ++ r)) = some (b, r) := by
  have hsize := ofBE_putint h
  simp only [readLong, readFixed_append, bind_eq_bind, bind_some, hsize,
    head?_putint_ne_zero, false_or, readFixed_append]
  rw [if_neg (by omega)]

/-- A header is read as it was written, for the two kinds of values. -/
lemma split_header {off : Nat} {b : Bytes} (hoff : off = 0x80 ∧ ¬ isSmall b ∨ off = 0xC0)
    (h : b.length < 2 ^ 64) (r : Bytes) :
    split (header off b.length ++ b ++ r) = some (decide (off = 0xC0), b, r) := by
  unfold header
  by_cases h56 : b.length < 56
  · have ht : (ofNat (off + b.length)).toNat = off + b.length := by
      rw [toNat_ofNat']; omega
    rw [if_pos h56]
    simp only [cons_append, nil_append, split, ht]
    rcases hoff with ⟨rfl, hs⟩ | rfl
    · rw [if_neg (by omega), if_pos (by omega), Nat.add_sub_cancel_left, readFixed_append]
      simp [hs]
    · rw [if_neg (by omega), if_neg (by omega), if_neg (by omega), if_pos (by omega),
        Nat.add_sub_cancel_left, readFixed_append]
      rfl
  have hl := putint_length_le b.length
  have hne := length_pos_of_ne_nil (putint_ne_nil h (by omega))
  have ht : (ofNat (off + 55 + (putint b.length).length)).toNat =
      off + 55 + (putint b.length).length := by
    rw [toNat_ofNat']; omega
  rw [if_neg h56]
  simp only [cons_append, append_assoc, split, ht]
  rcases hoff with ⟨rfl, -⟩ | rfl
  · rw [if_neg (by omega), if_neg (by omega), if_pos (by omega), Nat.add_sub_cancel_left,
      readLong_putint h (by omega)]
    rfl
  · rw [if_neg (by omega), if_neg (by omega), if_neg (by omega), if_neg (by omega),
      Nat.add_sub_cancel_left, readLong_putint h (by omega)]
    rfl

lemma split_encodeString {b : Bytes} (h : b.length < 2 ^ 64) (r : Bytes) :
    split (encodeString b ++ r) = some (false, b, r) := by
  unfold encodeString
  by_cases hs : isSmall b = true
  · rw [if_pos hs]
    match b, hs with
    | [x], hs =>
      have hx : x.toNat < 0x80 := by simpa [isSmall, lt_iff_toNat_lt] using hs
      simp [split, hx]
  · rw [if_neg hs]
    exact split_header (.inl ⟨rfl, hs⟩) h r

lemma decodeList_encodeList (fuel : Nat) (l : List Item) (hf : (encodeList l).length ≤ fuel)
    (h : (encodeList l).length < 2 ^ 64) : decodeList fuel (encodeList l) = some l := by
  -- every header read is one byte of fuel, so both the body and the rest are within it
  induction fuel generalizing l with
  | zero =>
    cases l with
    | nil => rfl
    | cons x xs =>
      have := length_pos_of_ne_nil (encode_ne_nil x)
      simp only [encodeList_cons, length_append] at hf
      omega
  | succ fuel ih =>
    cases l with
    | nil => rfl
    | cons x xs =>
      have hx := length_pos_of_ne_nil (encode_ne_nil x)
      simp only [encodeList_cons, length_append] at hf h ⊢
      obtain ⟨t, ts, hcons⟩ : ∃ t ts, encode x ++ encodeList xs = t :: ts :=
        exists_cons_of_ne_nil (by simp [encode_ne_nil])
      rw [hcons]
      unfold decodeList
      rw [← hcons]
      cases x with
      | str b =>
        have hb : b.length < 2 ^ 64 := by
          rw [encode_str, encodeString] at h
          split at h <;> simp at h <;> omega
        rw [encode_str, split_encodeString hb]
        simp only [ih xs (by omega) (by omega), map_some]
      | list l =>
        have hl : (encodeList l).length < (encode (.list l)).length := by
          have := length_pos_of_ne_nil (header_ne_nil 0xC0 (encodeList l).length)
          simp only [encode_list, length_append]
          omega
        rw [encode_list, split_header (.inr rfl) (by omega)]
        simp only [decide_true, ih l (by omega) (by omega), ih xs (by omega) (by omega),
          bind_eq_bind, bind_some]

/-- Reading back what was written. -/
theorem decode_encode (x : Item) (h : (encode x).length < 2 ^ 64) :
    decode (encode x) = some x := by
  have hl : encodeList [x] = encode x := by simp
  have := decodeList_encodeList (encode x).length [x] (by rw [hl]) (by rwa [hl])
  rw [hl] at this
  rw [decode, this]

/-- Two items with one encoding are equal. -/
theorem encode_injective {x y : Item} (h : (encode x).length < 2 ^ 64)
    (hxy : encode x = encode y) : x = y := by
  have hx := decode_encode x h
  rw [hxy, decode_encode y (hxy ▸ h)] at hx
  exact (some.inj hx).symm

/-! ### Lengths -/

lemma header_length_le (off n : Nat) : (header off n).length ≤ 9 := by
  have := putint_length_le n
  unfold header
  split
  · simp
  · simp only [length_cons]
    omega

lemma length_le_encode_str : b.length ≤ (encode (.str b)).length := by
  rw [encode_str, encodeString]
  split
  · exact le_rfl
  · simp

lemma encode_str_length_le : (encode (.str b)).length ≤ b.length + 9 := by
  have := header_length_le 0x80 b.length
  rw [encode_str, encodeString]
  split
  · omega
  · rw [length_append]
    omega

lemma encodeList_length_le (l : List Item) : (encodeList l).length ≤ (encode (.list l)).length := by
  simp

lemma encode_list_length_le (l : List Item) :
    (encode (.list l)).length ≤ (encodeList l).length + 9 := by
  have := header_length_le 0xC0 (encodeList l).length
  simp only [encode_list, length_append]
  omega

lemma encode_length_le_of_mem {x : Item} {l : List Item} (h : x ∈ l) :
    (encode x).length ≤ (encode (.list l)).length := by
  refine le_trans ?_ (encodeList_length_le l)
  induction h with
  | head => simp
  | tail y _ ih =>
    rw [encodeList_cons, length_append]
    omega

lemma length_le_encode_of_str_mem {b : Bytes} {l : List Item} (h : .str b ∈ l) :
    b.length ≤ (encode (.list l)).length :=
  (length_le_encode_str b).trans (encode_length_le_of_mem h)

/-- Items that grow by a factor grow a list by the same factor. -/
lemma encodeList_map_length_le {α : Type} {f g : α → Item} {k : Nat}
    (h : ∀ a, (encode (f a)).length ≤ k * (encode (g a)).length) (l : List α) :
    (encodeList (l.map f)).length ≤ k * (encodeList (l.map g)).length := by
  induction l with
  | nil => simp
  | cons a l ih =>
    have := h a
    simp only [map_cons, encodeList_cons, length_append, Nat.mul_add]
    omega

/-! ### Numbers as items -/

/-- A machine word is the string of its big-endian bytes. -/
def Item.ofUInt64 (n : UInt64) : Item :=
  .str (putint n.toNat)

/-- Reads a machine word; leading zeros and more than eight bytes are refused. -/
def Item.toUInt64 : Item → Option UInt64
  | .str b => if b.head? = some 0 ∨ 8 < b.length then none else some (UInt64.ofNat (ofBE b))
  | .list _ => none

@[simp] lemma toUInt64_ofUInt64 (n : UInt64) : (Item.ofUInt64 n).toUInt64 = some n := by
  have hl := putint_length_le n.toNat
  simp only [Item.ofUInt64, Item.toUInt64, head?_putint_ne_zero, false_or]
  rw [if_neg (by omega), ofBE_putint n.toNat_lt]
  simp

lemma ofUInt64_injective : Function.Injective Item.ofUInt64 := by
  intro m n h
  have := congrArg Item.toUInt64 h
  simpa using this

end Rlp

end ZwsChain.Lib
