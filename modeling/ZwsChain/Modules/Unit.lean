import ZwsChain.Modules.Transaction

/-!
# Headers and units

`dag/modules/unit.go` and `unit_rlp.go`. A unit is a header and its transactions. The header
carries its author's public key and signature and, once the mediators have signed, a group
signature; the hash of a unit leaves the group signature out, the hash that its author signs
leaves the author out as well.
Sources without a file are in `dag/modules/unit.go`.
-/

namespace ZwsChain

open Lib.Rlp (Item)

/-- Source: `Authentifier` -/
structure Authentifier where
  pubKey : Bytes
  signature : Bytes
  deriving DecidableEq, Repr

/-- Source: `Authentifier.Empty` -/
def Authentifier.empty (au : Authentifier) : Bool :=
  au.pubKey.length = 0 || au.signature.length = 0

/-- The header of a unit; a missing number is a nil pointer.
Source: `Header` and `header_sdw` -/
structure Header where
  parentsHash : List Hash
  authors : Authentifier
  txRoot : Hash
  txsIllegal : List UInt16
  number : Option ChainIndex
  extra : Bytes
  /-- Seconds since 1970, an `int64`. -/
  time : Int
  cryptoLib : Bytes
  groupSign : Bytes
  groupPubKey : Bytes
  deriving DecidableEq

/-- Source: `Unit` -/
structure ChainUnit where
  unitHeader : Header
  txs : List Transaction

namespace Header

variable (P : Primitives)

/-- Source: `Author` -/
def author (h : Header) : Address :=
  pubkeyBytesToAddress P h.authors.pubKey

/-- The time is written as a `uint32`.
Source: `dag/modules/unit_rlp.go`, `Header.EncodeRLP` -/
def rlpItem (h : Header) : Item :=
  .list <| [.list (h.parentsHash.map fun p => .str p.val),
    .list [.str h.authors.pubKey, .str h.authors.signature], .str h.groupSign, .str h.groupPubKey,
    .str h.txRoot.val, .list (h.txsIllegal.map fun i => Message.natItem i.toNat)] ++
    Message.heightItems h.number ++
    [.str h.extra, Message.natItem (h.time % 2 ^ 32).toNat, .str h.cryptoLib]

/-- Source: `common/util/rlphash.go`, `RlpHash` of a header -/
def rlpHash (h : Header) : Hash :=
  P.sha3 (Lib.Rlp.encode h.rlpItem)

/-- Source: `Hash` -/
def hash (h : Header) : Hash :=
  { h with groupSign := [], groupPubKey := [] }.rlpHash P

/-- Source: `HashWithoutAuthor` -/
def hashWithoutAuthor (h : Header) : Hash :=
  { h with groupSign := [], groupPubKey := [], authors := ⟨[], []⟩ }.rlpHash P

end Header

end ZwsChain
