import ZwsChain.Lib.Rlp

/-!
# Hashes, addresses and contract ids

Fixed-length byte strings are subtypes, so a hash always has 32 bytes and an address 21. A
contract id is a plain byte string: nothing in the code fixes its length, and the two
classifications `isSystemContractId` and `isUserContractId` do not cover every id.

`Primitives` collects the functions the code takes from other packages: hashing, signature
verification and the base-58 and base-36 texts.
Sources without a file are in `common/address.go`.
-/

open List Option

namespace ZwsChain

export Lib (Bytes)

/-- The bytes of an ASCII text. -/
def ascii (s : String) : Bytes :=
  s.toList.map fun c => UInt8.ofNat c.toNat

variable (n : Nat)

/-- A byte string of a fixed length. -/
abbrev FixedBytes := {b : Bytes // b.length = n}

/-- The byte string of `n` zeros. -/
def FixedBytes.zero : FixedBytes n :=
  ⟨List.replicate n 0, length_replicate⟩

/-- A 256-bit hash.
Source: `common/hash.go`, `Hash` -/
abbrev Hash := FixedBytes 32

/-- An address: 20 bytes of hash and one byte of type.
Source: `Address` -/
abbrev Address := FixedBytes 21

/-- The hash that stands for the transaction an input is in.
Source: `common/hash.go`, `IsSelfHash` -/
def Hash.isSelfHash (h : Hash) : Bool :=
  h.val.all (· = 0xff)

/-- Source: `common/hash.go`, `NewSelfHash` -/
def newSelfHash : Hash :=
  ⟨List.replicate 32 0xff, length_replicate⟩

/-- Source: `common/hash.go`, `EmptyHash` -/
def emptyHash (h : Hash) : Bool :=
  h = FixedBytes.zero 32

lemma Hash.isSelfHash_iff (h : Hash) : h.isSelfHash = true ↔ h = newSelfHash := by
  rw [Hash.isSelfHash, List.all_eq_true, Subtype.ext_iff, newSelfHash, eq_replicate_iff]
  simp [h.property]

/-! ### Addresses -/

/-- The type byte of an address.
Source: `AddressType` -/
inductive AddressType where
  | errorAddress
  | publicKeyHash
  | scriptHash
  | contractHash
  deriving DecidableEq, Repr

/-- The byte of an address type. -/
def AddressType.toByte : AddressType → UInt8
  | .errorAddress => 0xff
  | .publicKeyHash => 0
  | .scriptHash => 5
  | .contractHash => 28

variable (b : Bytes)

/-- Copies `b` into `n` zero bytes from the left.
Source: Go's `copy` into a fresh slice -/
def copyInto : Bytes :=
  (b ++ List.replicate n 0).take n

lemma copyInto_length : (copyInto n b).length = n := by
  simp [copyInto]

lemma copyInto_of_length {n : Nat} {b : Bytes} (h : b.length = n) : copyInto n b = b := by
  simp [copyInto, ← h]

/-- The first 20 bytes of `hash160`, padded with zeros, and the type.
Source: `NewAddress` -/
def newAddress (hash160 : Bytes) (ty : AddressType) : Address :=
  ⟨copyInto 20 hash160 ++ [ty.toByte], by simp [copyInto_length]⟩

/-- The last 21 bytes of `b`, padded with zeros on the left.
Source: `BytesToAddress` and `SetBytes` -/
def bytesToAddress : Address :=
  ⟨List.replicate (21 - b.length) 0 ++ b.drop (b.length - 21), by simp; omega⟩

/-- The address without its type byte.
Source: `Bytes` -/
def Address.bytes (a : Address) : Bytes :=
  a.val.take 20

/-- Source: `GetType` -/
def Address.getType (a : Address) : UInt8 :=
  a.val.getD 20 0

@[simp] lemma Address.bytes_length (a : Address) : a.bytes.length = 20 := by
  simp [Address.bytes, a.property]

lemma Address.getType_newAddress (ty : AddressType) :
    (newAddress b ty).getType = ty.toByte := by
  simp [Address.getType, newAddress, copyInto_length, List.getD]

lemma Address.val_eq (a : Address) : a.val = a.bytes ++ [a.getType] := by
  have h := a.property
  conv_lhs => rw [← take_append_drop 20 a.val]
  have hd : a.val.drop 20 = [a.getType] := by
    rw [drop_eq_getElem_cons (by omega), drop_of_length_le (by omega)]
    simp [Address.getType, List.getD, h]
  rw [hd, Address.bytes]

lemma newAddress_bytes {addr : Address} {ty : AddressType} (h : addr.getType = ty.toByte) :
    newAddress addr.bytes ty = addr := by
  apply Subtype.ext
  show copyInto 20 addr.bytes ++ [ty.toByte] = addr.val
  rw [addr.val_eq, copyInto_of_length addr.bytes_length, h]

/-! ### Contract ids -/

/-- Lexicographic order of byte strings.
Source: `bytes.Compare(a, b) < 0` -/
def bytesLt : Bytes → Bytes → Bool
  | [], [] => false
  | [], _ :: _ => true
  | _ :: _, [] => false
  | x :: xs, y :: ys => x < y || (x == y && bytesLt xs ys)

/-- The largest reserved id, `0x00…00ffff`. -/
def lastReservedId : Bytes :=
  List.replicate 18 0 ++ [0xff, 0xff]

/-- Source: `IsSystemContractId` -/
def isSystemContractId (contractId : Bytes) : Bool :=
  if contractId.length ≠ 20 then false
  else if contractId.getD 18 0 = 0 ∧ contractId.getD 19 0 = 0 then false
  else bytesLt contractId lastReservedId

/-- Source: `IsUserContractId` -/
def isUserContractId (contractId : Bytes) : Bool :=
  if contractId.length ≠ 20 then false
  else bytesLt lastReservedId contractId

/-- Source: `IsSystemContractAddress` -/
def Address.isSystemContractAddress (a : Address) : Bool :=
  isSystemContractId a.bytes

/-! ### Functions of other packages -/

/-- Functions that the code takes from other packages: hashing, signature verification and the
texts of addresses. A `verify` of `none` is an error return. -/
structure Primitives where
  /-- Keccak-256, as `util.RlpHash` and `crypto.Keccak256` use it. -/
  sha3 : Bytes → Hash
  /-- RIPEMD-160 of SHA-256. -/
  hash160 : Bytes → FixedBytes 20
  /-- RIPEMD-160. -/
  ripemd160 : Bytes → Bytes
  /-- SHA-1. -/
  sha1 : Bytes → Bytes
  /-- `crypto.MyCryptoLib.Verify` of a public key, a signature and the signed data. -/
  verify : Bytes → Bytes → Bytes → Option Bool
  /-- `base58.CheckEncode`. -/
  checkEncode : Bytes → UInt8 → Bytes
  /-- `base58.CheckDecode`. -/
  checkDecode : Bytes → Option (Bytes × UInt8)
  /-- `crypto.MyCryptoLib.Hash`. -/
  cryptoHash : Bytes → Bytes

variable (P : Primitives)

/-- Source: `common/crypto/crypto.go`, `PubkeyBytesToAddress` -/
def pubkeyBytesToAddress (pubKey : Bytes) : Address :=
  if pubKey.length = 0 then FixedBytes.zero 21
  else newAddress (P.hash160 pubKey).val .publicKeyHash

/-- Source: `common/crypto/crypto.go`, `RequestIdToContractAddress` -/
def requestIdToContractAddress (deployRequestId : Hash) : Address :=
  newAddress (P.hash160 deployRequestId.val).val .contractHash

/-- The hash of a fixed-length byte string's encoding.
Source: `common/util/rlphash.go`, `RlpHash` of an array -/
def rlpHashBytes {n : Nat} (b : FixedBytes n) : Hash :=
  P.sha3 (Lib.Rlp.encode (.str b.val))

/-- The text of an address.
Source: `String` -/
def Address.str (a : Address) : Bytes :=
  0x50 :: P.checkEncode a.bytes a.getType

/-- The address of a text: `P` and a base-58 text of one of the three types.
Source: `StringToAddress` -/
def stringToAddress : Bytes → Option Address
  | [] => none
  | p :: text =>
    if p ≠ 0x50 then none
    else match P.checkDecode text with
      | none => none
      | some (addrb, version) =>
        if version = 0 ∨ version = 5 ∨ version = 28 then
          some (bytesToAddress (addrb ++ [version]))
        else none

/-- The address types that have a text which can be read back. -/
def Address.hasKnownType (a : Address) : Prop :=
  a.getType = 0 ∨ a.getType = 5 ∨ a.getType = 28

instance (a : Address) : Decidable a.hasKnownType :=
  inferInstanceAs (Decidable (_ ∨ _ ∨ _))

/-- The base-58 text of 20 bytes and a version can be read back. -/
def Primitives.Base58RoundTrip : Prop :=
  ∀ b version, b.length = 20 → P.checkDecode (P.checkEncode b version) = some (b, version)

variable {a : Address}

/-- The text of an address of a known type reads back as the address. -/
lemma stringToAddress_str (h58 : P.Base58RoundTrip) (ha : a.hasKnownType) :
    stringToAddress P (a.str P) = some a := by
  have hb : bytesToAddress (a.bytes ++ [a.getType]) = a := by
    simp [bytesToAddress, ← Address.val_eq, a.property]
  unfold Address.hasKnownType at ha
  simp [stringToAddress, Address.str, h58 _ _ a.bytes_length, ha, hb]

/-- Texts tell addresses apart. -/
lemma Address.str_injective (h58 : P.Base58RoundTrip) {a b : Address}
    (h : a.str P = b.str P) : a = b := by
  have hc : P.checkEncode a.bytes a.getType = P.checkEncode b.bytes b.getType := by
    simpa [Address.str] using h
  have := congrArg P.checkDecode hc
  rw [h58 _ _ a.bytes_length, h58 _ _ b.bytes_length] at this
  obtain ⟨hbytes, htype⟩ := Prod.mk.inj (some.inj this)
  exact Subtype.ext (by rw [a.val_eq, b.val_eq, hbytes, htype])

/-- The last byte is the type. -/
lemma Address.getType_bytesToAddress (version : UInt8) :
    (bytesToAddress (b ++ [version])).getType = version := by
  obtain ⟨init, hval⟩ : ∃ init, (bytesToAddress (b ++ [version])).val = init ++ [version] := by
    refine ⟨List.replicate (21 - (b ++ [version]).length) 0 ++
      b.drop ((b ++ [version]).length - 21), ?_⟩
    show List.replicate _ 0 ++ (b ++ [version]).drop _ = _
    rw [drop_append_of_le_length (by simp), append_assoc]
  have hlen := (bytesToAddress (b ++ [version])).property
  rw [hval, length_append, length_singleton] at hlen
  have hinit : init.length = 20 := by omega
  simp [Address.getType, hval, getD_eq_getElem?_getD, hinit]

/-- What an accepted text is made of. -/
lemma stringToAddress_eq_some {text : Bytes} (h : stringToAddress P text = some a) :
    ∃ tail b version, text = 0x50 :: tail ∧ P.checkDecode tail = some (b, version) ∧
      (version = 0 ∨ version = 5 ∨ version = 28) ∧ bytesToAddress (b ++ [version]) = a := by
  match text with
  | [] => cases h
  | p :: tail =>
    simp only [stringToAddress] at h
    split at h
    · cases h
    rename_i hp
    split at h
    · cases h
    rename_i b version hdecode
    split at h
    · rename_i hversion
      exact ⟨tail, b, version, by rw [not_not.1 hp], hdecode, hversion, some.inj h⟩
    · cases h

/-- A text stands for an address of a known type, and so does the zero address. -/
lemma Address.hasKnownType_stringToAddress (text : Bytes) :
    ((stringToAddress P text).getD (FixedBytes.zero 21)).hasKnownType := by
  rcases haddr : stringToAddress P text with _ | addr
  · show Address.hasKnownType (FixedBytes.zero 21)
    decide
  · obtain ⟨-, b, version, -, -, hversion, rfl⟩ := stringToAddress_eq_some P haddr
    rw [getD_some, hasKnownType, getType_bytesToAddress]
    exact hversion

/-! ### Texts that are not the text of their address -/

/-- The base-58 texts with a right checksum are those of a payload of any length and a version,
and tell them apart. -/
def Primitives.Base58Exact : Prop :=
  ∀ text b version, P.checkDecode text = some (b, version) ↔ text = P.checkEncode b version

/-- The text behind the `P` has 20 bytes of payload, which `stringToAddress` does not check. -/
def HasFullPayload (text : Bytes) : Prop :=
  ∃ b version, P.checkDecode text.tail = some (b, version) ∧ b.length = 20

lemma str_eq_iff (h58 : P.Base58Exact) {text : Bytes}
    (h : stringToAddress P text = some a) : a.str P = text ↔ HasFullPayload P text := by
  obtain ⟨tail, b, version, rfl, hdecode, -, rfl⟩ := stringToAddress_eq_some P h
  have htype := Address.getType_bytesToAddress b version
  constructor
  · intro hstr
    exact ⟨_, _, (h58 _ _ _).2 (cons.inj hstr).2.symm, Address.bytes_length _⟩
  · rintro ⟨b', version', hdecode', hlen⟩
    obtain ⟨rfl, rfl⟩ := Prod.mk.inj (some.inj (hdecode.symm.trans hdecode'))
    have hbytes : (bytesToAddress (b ++ [version])).bytes = b := by
      simp [Address.bytes, bytesToAddress, ← hlen]
    rw [Address.str, htype, hbytes, ← (h58 _ _ _).1 hdecode]

/-- Every address has a text that reads back as the address. An accepted text is the text of its
address exactly if its payload has 20 bytes, so that two such texts stand for two addresses. -/
theorem addressText_iff (h58 : P.Base58Exact) :
    (∀ hash160 ty, hash160.length = 20 → ty ≠ .errorAddress →
      stringToAddress P ((newAddress hash160 ty).str P) = some (newAddress hash160 ty)) ∧
    (∀ text a, stringToAddress P text = some a → (a.str P = text ↔ HasFullPayload P text)) ∧
    ∀ text text' a, HasFullPayload P text → HasFullPayload P text' →
      stringToAddress P text = some a → stringToAddress P text' = some a → text = text' := by
  refine ⟨?_, fun text a => str_eq_iff P h58, ?_⟩
  · intro hash160 ty _ hty
    refine stringToAddress_str P (fun b version _ => (h58 _ _ _).2 rfl) ?_
    rw [Address.hasKnownType, Address.getType_newAddress]
    cases ty <;> simp [AddressType.toByte] at hty ⊢
  · intro text text' a hfull hfull' h h'
    rw [← (str_eq_iff P h58 h).2 hfull, ← (str_eq_iff P h58 h').2 hfull']

namespace PlainTexts

/-- Texts are the version and the payload. -/
def primitives : Primitives where
  sha3 _ := FixedBytes.zero 32
  hash160 _ := FixedBytes.zero 20
  ripemd160 := id
  sha1 := id
  verify _ _ _ := none
  checkEncode b version := version :: b
  checkDecode text := text.head?.map fun version => (text.tail, version)
  cryptoHash := id

lemma base58Exact : primitives.Base58Exact := by
  intro text b version
  cases text <;> simp [primitives, and_comm]

/-- The text of a script address stands for it. -/
theorem scriptAddress_text :
    stringToAddress primitives ((newAddress (replicate 20 7) .scriptHash).str primitives) =
      some (newAddress (replicate 20 7) .scriptHash) :=
  (addressText_iff primitives base58Exact).1 _ _ (by decide) (by decide)

/-- A payload of one byte stands for the address of that byte behind 19 zeros, which has another
text. -/
theorem short_payload :
    primitives.Base58Exact ∧
      stringToAddress primitives [0x50, 0, 7] =
        some (newAddress (replicate 19 0 ++ [7]) .publicKeyHash) ∧
      (newAddress (replicate 19 0 ++ [7]) .publicKeyHash).str primitives ≠ [0x50, 0, 7] :=
  ⟨base58Exact, by decide, by decide⟩

end PlainTexts

end ZwsChain
