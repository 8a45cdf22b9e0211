import ZwsChain.Common.Address
import ZwsChain.Lib.Radix

/-!
# Unique ids and their texts

A unique id is 16 bytes; the asset id it belongs to says how they are written: as a number, a
UUID, hex digits or plain characters. `String2UniqueId` reads back what `StringFriendly` writes
(`string2UniqueId_stringFriendly`), for every id of the type: an id of the null type is zero.
Sources without a file are in `dag/modules/uniqueId.go`.
-/

open List Option UInt8

namespace ZwsChain

open Lib Radix

/-- Source: `UniqueId` -/
abbrev UniqueId := FixedBytes 16

/-- Source: `UniqueIdType` -/
inductive UniqueIdType where
  | null
  | sequence
  | uuid
  | userDefine
  | ascii
  deriving DecidableEq

/-- The byte of a unique-id type. -/
def UniqueIdType.code : UniqueIdType → UInt8
  | .null => 0
  | .sequence => 1
  | .uuid => 2
  | .userDefine => 3
  | .ascii => 4

/-- The ids of a type. -/
def UniqueIdType.Matches : UniqueIdType → UniqueId → Prop
  | .null, uid => uid = FixedBytes.zero 16
  | _, _ => True

/-- What the codecs take from Go's library on texts they do not write themselves. -/
structure TextLib where
  /-- `strings.ToUpper` of a text with a byte outside ASCII. -/
  unicodeUpper : Bytes → Bytes
  /-- The absolute value that `big.Int.SetString` with base 0 leaves for a text that is not a
  decimal numeral. -/
  bigSetString : Bytes → ℕ

/-- An error of the repository with its text, or one of `encoding/hex`. -/
inductive CodecError where
  | msg (text : String)
  | hex
  deriving DecidableEq

/-! ### Hex digits -/

/-- The lower-case hex digit of a number below 16. -/
def hexDigit (n : ℕ) : UInt8 :=
  (ascii "0123456789abcdef").getD n 0

/-- Source: `encoding/hex`, `EncodeToString` -/
def hexEncodeToString (b : Bytes) : Bytes :=
  b.flatMap fun x => [hexDigit (x.toNat / 16), hexDigit (x.toNat % 16)]

/-- Source: `encoding/hex`, `fromHexChar` -/
def fromHexChar (c : UInt8) : Option ℕ :=
  if 48 ≤ c ∧ c ≤ 57 then some (c.toNat - 48)
  else if 97 ≤ c ∧ c ≤ 102 then some (c.toNat - 97 + 10)
  else if 65 ≤ c ∧ c ≤ 70 then some (c.toNat - 65 + 10)
  else none

/-- Source: `encoding/hex`, `DecodeString` -/
def hexDecodeString : Bytes → Option Bytes
  | [] => some []
  | [_] => none
  | x :: y :: rest =>
    match fromHexChar x, fromHexChar y, hexDecodeString rest with
    | some hi, some lo, some b => some (ofNat (hi * 16 + lo) :: b)
    | _, _, _ => none

lemma hexEncodeToString_append (a b : Bytes) :
    hexEncodeToString (a ++ b) = hexEncodeToString a ++ hexEncodeToString b :=
  flatMap_append

lemma fromHexChar_hexDigit : ∀ n < 16, fromHexChar (hexDigit n) = some n := by
  decide

lemma hexDecodeString_hexEncodeToString (b : Bytes) :
    hexDecodeString (hexEncodeToString b) = some b := by
  induction b with
  | nil => rfl
  | cons x b ih =>
    have hx : x.toNat < 256 := x.toNat_lt
    have hvalue : x.toNat / 16 * 16 + x.toNat % 16 = x.toNat := by omega
    show hexDecodeString (hexDigit (x.toNat / 16) :: hexDigit (x.toNat % 16) ::
      hexEncodeToString b) = _
    rw [hexDecodeString, fromHexChar_hexDigit _ (by omega), fromHexChar_hexDigit _ (by omega), ih]
    simp [hvalue]

/-! ### UUIDs -/

/-- The bytes from position `i` to position `j`. -/
def slice (b : Bytes) (i j : ℕ) : Bytes :=
  (b.drop i).take (j - i)

lemma slice_append_slice {b : Bytes} {i j k : ℕ} (hij : i ≤ j) (hjk : j ≤ k) :
    slice b i j ++ slice b j k = slice b i k := by
  rw [slice, slice, slice, show k - i = (j - i) + (k - j) by omega, take_add, drop_drop,
    Nat.add_sub_cancel' hij]

lemma slice_append {p b q : Bytes} {i j : ℕ} (hi : p.length = i) (hj : i + b.length = j) :
    slice (p ++ b ++ q) i j = b := by
  subst hi hj
  simp [slice]

/-- The character `-`. -/
def dash : UInt8 :=
  45

/-- Source: `FormatUUID` -/
def formatUUID (buf : Bytes) : Bytes :=
  hexEncodeToString (slice buf 0 4) ++ [dash] ++ hexEncodeToString (slice buf 4 6) ++ [dash] ++
    hexEncodeToString (slice buf 6 8) ++ [dash] ++ hexEncodeToString (slice buf 8 10) ++ [dash] ++
    hexEncodeToString (slice buf 10 16)

/-- Source: `ParseUUID` -/
def parseUUID (uuid : Bytes) : Except CodecError Bytes :=
  let uuidLen := 16
  if uuid.length ≠ 2 * uuidLen + 4 then .error (.msg "uuid string is wrong length")
  else if uuid.getD 8 0 ≠ dash ∨ uuid.getD 13 0 ≠ dash ∨ uuid.getD 18 0 ≠ dash ∨
      uuid.getD 23 0 ≠ dash then
    .error (.msg "uuid is improperly formatted")
  else
    let hexStr := slice uuid 0 8 ++ slice uuid 9 13 ++ slice uuid 14 18 ++ slice uuid 19 23 ++
      slice uuid 24 36
    match hexDecodeString hexStr with
    | none => .error .hex
    | some ret =>
      if ret.length ≠ uuidLen then .error (.msg "decoded hex is the wrong length") else .ok ret

lemma parseUUID_groups {a b c d e ret : Bytes} (ha : a.length = 8) (hb : b.length = 4)
    (hc : c.length = 4) (hd : d.length = 4) (he : e.length = 12)
    (hret : hexDecodeString (a ++ b ++ c ++ d ++ e) = some ret) (hlen : ret.length = 16) :
    parseUUID (a ++ [dash] ++ b ++ [dash] ++ c ++ [dash] ++ d ++ [dash] ++ e) = .ok ret := by
  generalize huuid : a ++ [dash] ++ b ++ [dash] ++ c ++ [dash] ++ d ++ [dash] ++ e = uuid
  have hlength : uuid.length = 36 := by
    simp [← huuid, ha, hb, hc, hd, he]
  have hdash : ∀ k ∈ [8, 13, 18, 23], uuid.getD k 0 = dash := by
    rw [← huuid]
    simp [List.getD, getElem?_append, ha, hb, hc, hd]
  have hgroup : ∀ {p g q : Bytes} {i j : ℕ}, p ++ g ++ q = uuid → p.length = i →
      i + g.length = j → slice uuid i j = g := by
    rintro p g q i j rfl hi hj
    exact slice_append hi hj
  have h₁ : slice uuid 0 8 = a := hgroup (p := []) (by simpa using huuid) rfl (by omega)
  have h₂ : slice uuid 9 13 = b :=
    hgroup (p := a ++ [dash]) (by simpa using huuid) (by simp [ha]) (by omega)
  have h₃ : slice uuid 14 18 = c :=
    hgroup (p := a ++ [dash] ++ b ++ [dash]) (by simpa using huuid) (by simp [ha, hb]) (by omega)
  have h₄ : slice uuid 19 23 = d :=
    hgroup (p := a ++ [dash] ++ b ++ [dash] ++ c ++ [dash]) (by simpa using huuid)
      (by simp [ha, hb, hc]) (by omega)
  have h₅ : slice uuid 24 36 = e :=
    hgroup (p := a ++ [dash] ++ b ++ [dash] ++ c ++ [dash] ++ d ++ [dash]) (q := [])
      (by simpa using huuid) (by simp [ha, hb, hc, hd]) (by omega)
  rw [parseUUID, if_neg (not_not.2 hlength), if_neg (by simpa using hdash)]
  simp only [h₁, h₂, h₃, h₄, h₅, hret, hlen, ne_eq, not_true_eq_false, if_false]

lemma parseUUID_formatUUID (uid : UniqueId) : parseUUID (formatUUID uid.val) = .ok uid.val := by
  have hgroups : slice uid.val 0 4 ++ slice uid.val 4 6 ++ slice uid.val 6 8 ++
      slice uid.val 8 10 ++ slice uid.val 10 16 = uid.val := by
    iterate 4 rw [slice_append_slice (by omega) (by omega)]
    exact take_of_length_le (by simp [uid.property])
  refine parseUUID_groups ?_ ?_ ?_ ?_ ?_ ?_ uid.property
  iterate 5 simp [hexEncodeToString, length_flatMap, slice, uid.property]
  simp only [← hexEncodeToString_append, hgroups, hexDecodeString_hexEncodeToString]

/-! ### Numbers -/

/-- Source: `math/big`, `Int.SetBytes` -/
def bigSetBytes (b : Bytes) : ℕ :=
  value 256 (b.map toNat)

/-- Source: `math/big`, `Int.Bytes` -/
def bigBytes (x : ℕ) : Bytes :=
  (digits 256 x).map ofNat

/-- Source: `math/big`, `Int.String` of a number that is not negative -/
def bigString (x : ℕ) : Bytes :=
  if x = 0 then ascii "0" else (digits 10 x).map fun d => ofNat (48 + d)

/-- A decimal numeral without leading zeros, which base 0 reads as one. -/
def isDecimal (s : Bytes) : Bool :=
  s = ascii "0" || (s ≠ [] && s.head? ≠ some 48 && s.all fun c => 48 ≤ c && c ≤ 57)

/-- Source: `math/big`, `Int.SetString` with base 0, then the absolute value -/
def TextLib.setString (lib : TextLib) (s : Bytes) : ℕ :=
  if isDecimal s then value 10 (s.map fun c => c.toNat - 48) else lib.bigSetString s

/-! ### Texts of a unique id -/

/-- Source: `SetBytes` of a fresh id -/
def UniqueId.setBytes (b : Bytes) : UniqueId :=
  ⟨List.replicate (16 - b.length) 0 ++ b.drop (b.length - 16), by simp; omega⟩

/-- Source: `StringFriendly` -/
def UniqueId.stringFriendly (it : UniqueId) (t : UInt8) : Bytes :=
  if t = UniqueIdType.sequence.code then bigString (bigSetBytes it.val)
  else if t = UniqueIdType.null.code then []
  else if t = UniqueIdType.uuid.code then formatUUID it.val
  else if t = UniqueIdType.userDefine.code then hexEncodeToString it.val
  else if t = UniqueIdType.ascii.code then it.val
  else []

/-- Source: `String2UniqueId` -/
def TextLib.string2UniqueId (lib : TextLib) (str : Bytes) (t : UInt8) :
    Except CodecError UniqueId :=
  if t = UniqueIdType.sequence.code then .ok (.setBytes (bigBytes (lib.setString str)))
  else if t = UniqueIdType.null.code then .ok (FixedBytes.zero 16)
  else if t = UniqueIdType.uuid.code then (parseUUID str).map .setBytes
  else if t = UniqueIdType.userDefine.code then
    match hexDecodeString str with
    | none => .error .hex
    | some b => .ok (.setBytes b)
  else if t = UniqueIdType.ascii.code then .ok (.setBytes str)
  else .error (.msg "Unknown UniequeIdType")

lemma UniqueId.setBytes_val (uid : UniqueId) : UniqueId.setBytes uid.val = uid := by
  simp [UniqueId.setBytes, uid.property]

lemma toNat_decimalChar {d : ℕ} (hd : d < 10) : (ofNat (48 + d)).toNat = 48 + d :=
  toNat_ofNat_of_lt' (by simp [size]; omega)

lemma isDecimal_bigString (x : ℕ) : isDecimal (bigString x) = true := by
  by_cases hx : x = 0
  · rw [hx]
    rfl
  have hne : digits 10 x ≠ [] := by
    intro hnil
    exact hx ((value_digits (b := 10) (by decide) x).symm.trans (by rw [hnil]; rfl))
  have hlt : ∀ d ∈ digits 10 x, d < 10 := fun d => digits_lt (by decide)
  rw [isDecimal, bigString, if_neg hx, Bool.or_eq_true, Bool.and_eq_true, Bool.and_eq_true]
  refine .inr ⟨⟨by simpa using hne, ?_⟩, ?_⟩
  · rw [decide_eq_true_eq, head?_map]
    intro hzero
    obtain ⟨d, hd, hcode⟩ := map_eq_some_iff.1 hzero
    have hval := toNat_decimalChar (hlt d (mem_of_head? hd))
    rw [hcode] at hval
    apply head?_digits_ne_zero (b := 10) (by decide) x
    exact hd.trans (congrArg some (Nat.add_left_cancel hval).symm)
  rw [List.all_eq_true]
  intro c hc
  obtain ⟨d, hd, rfl⟩ := List.mem_map.1 hc
  have hd10 := hlt d hd
  rw [Bool.and_eq_true, decide_eq_true_eq, decide_eq_true_eq, le_iff_toNat_le,
    le_iff_toNat_le, toNat_decimalChar hd10]
  show 48 ≤ 48 + d ∧ 48 + d ≤ 57
  omega

lemma TextLib.setString_bigString (lib : TextLib) (x : ℕ) : lib.setString (bigString x) = x := by
  rw [TextLib.setString, if_pos (isDecimal_bigString x)]
  by_cases hx : x = 0
  · rw [hx]
    rfl
  have hmap : (digits 10 x).map ((fun c : UInt8 => c.toNat - 48) ∘
      fun d => ofNat (48 + d)) = digits 10 x := by
    refine (map_congr_left fun d hd => ?_).trans (List.map_id _)
    show (ofNat (48 + d)).toNat - 48 = d
    rw [toNat_decimalChar (digits_lt (by decide) hd), Nat.add_sub_cancel_left]
  rw [bigString, if_neg hx, List.map_map, hmap, value_digits (by decide)]

/-- The number of an id, written back over zeros, is the id. -/
lemma UniqueId.setBytes_bigBytes (uid : UniqueId) :
    UniqueId.setBytes (bigBytes (bigSetBytes uid.val)) = uid := by
  have hlt : ∀ d ∈ uid.val.map toNat, d < 256 := by
    intro d hd
    obtain ⟨c, -, rfl⟩ := List.mem_map.1 hd
    exact c.toNat_lt
  have hpad := congrArg (List.map ofNat) (replicate_digits_value (by decide) hlt)
  have hid : (uid.val.map toNat).map ofNat = uid.val := by
    simp [Function.comp_def]
  have hbig : (digits 256 (value 256 (uid.val.map toNat))).length =
      (bigBytes (bigSetBytes uid.val)).length := (length_map _).symm
  rw [map_append, map_replicate, length_map, uid.property, hid, hbig] at hpad
  have hlen : (bigBytes (bigSetBytes uid.val)).length ≤ 16 := by
    have hcount := (congrArg List.length hpad).trans uid.property
    rw [length_append, length_map, hbig] at hcount
    omega
  apply Subtype.ext
  show List.replicate _ 0 ++ (bigBytes (bigSetBytes uid.val)).drop _ = uid.val
  rw [Nat.sub_eq_zero_of_le hlen, drop_zero]
  exact hpad

/-- The text of an id that matches its type is read back. -/
theorem TextLib.string2UniqueId_stringFriendly (lib : TextLib) {t : UniqueIdType} {uid : UniqueId}
    (h : t.Matches uid) : lib.string2UniqueId (uid.stringFriendly t.code) t.code = .ok uid := by
  cases t with
  | null =>
    have hzero : uid = FixedBytes.zero 16 := h
    rw [hzero]
    rfl
  | sequence =>
    show Except.ok (UniqueId.setBytes (bigBytes (lib.setString (bigString _)))) = _
    rw [lib.setString_bigString, UniqueId.setBytes_bigBytes]
  | uuid =>
    show (parseUUID (formatUUID uid.val)).map UniqueId.setBytes = _
    rw [parseUUID_formatUUID, Except.map, uid.setBytes_val]
  | userDefine =>
    show (match hexDecodeString (hexEncodeToString uid.val) with
      | none => Except.error CodecError.hex
      | some b => Except.ok (UniqueId.setBytes b)) = _
    rw [hexDecodeString_hexEncodeToString]
    exact congrArg Except.ok uid.setBytes_val
  | ascii => exact congrArg Except.ok uid.setBytes_val

end ZwsChain
