import Mathlib
import ZwsChain.Common.Base36
import ZwsChain.Modules.Message
import ZwsChain.Modules.UniqueId

/-!
# Asset ids and the texts of assets

An asset id packs a base-36 symbol with its length, the asset type, the decimals, the type of the
unique ids and eleven bytes of the request that created the token. `none` is a Go panic: an index
or a slice bound out of range.

* `newAssetId`, `parseAssetId`: packing and unpacking.
* `AssetId.string`, `TextLib.string2AssetId`: the text of an asset id.
* `Asset.string`, `TextLib.stringToAsset`: the text of an asset.
* `TokenSpec.codec_iff`: for which tokens all of them fit together.

Sources without a file are in `dag/modules/assetId.go`.
-/

open List Option UInt8

namespace ZwsChain

open Lib Base36 TextLib

/-- Source: `dag/modules/asset.go`, `AssetType` -/
inductive AssetType where
  | fungibleToken
  | nonFungibleToken
  | voteToken
  deriving DecidableEq

/-- The byte of an asset type. -/
def AssetType.code : AssetType → UInt8
  | .fungibleToken => 0
  | .nonFungibleToken => 1
  | .voteToken => 2

/-! ### Packing -/

/-- The bytes of an asset id: the symbol ends at the fourth byte, the first byte also holds the
length of the symbol and the asset type.
Source: `NewAssetId`, after its checks -/
def packAssetId (assetSymbol : Bytes) (assetType decimal : UInt8) (requestId : Bytes)
    (uniqueIdType : UInt8) : AssetId :=
  let head := List.replicate (4 - assetSymbol.length) 0 ++ assetSymbol
  let firstByte := head.headD 0 ||| ofNat (assetSymbol.length <<< 5) ||| assetType <<< 2
  ⟨copyInto 16 (firstByte :: head.tail ++ [uniqueIdType <<< 5 ||| decimal] ++ requestId.take 11),
    copyInto_length _ _⟩

/-- Source: `NewAssetId` -/
def newAssetId (symbol : Bytes) (assetType decimal : UInt8) (requestId : Bytes)
    (uniqueIdType : UInt8) : Option (Except CodecError AssetId) :=
  if symbol.length > 5 ∨ symbol.length = 0 then
    some (.error (.msg "Symbol must less than 5 characters"))
  else if decimal > 18 then some (.error (.msg "Decimal must less than 19"))
  else if requestId.length < 11 then some (.error (.msg "requestId must more than 10"))
  else
    let assetSymbol := decodeToBytes symbol
    -- the slice `assetId[4-len(assetSymbol):4]`
    if 4 < assetSymbol.length then none
    else some (.ok (packAssetId assetSymbol assetType decimal requestId uniqueIdType))

variable {b tx : Bytes} {d : UInt8}

/-- What `ParseAssetId` returns. -/
structure ParsedAssetId where
  symbol : Bytes
  assetType : UInt8
  decimal : UInt8
  txHash : Bytes
  uidType : UInt8
  deriving DecidableEq

/-- Source: `ParseAssetId` -/
def parseAssetId (id : AssetId) : Option ParsedAssetId :=
  let assetId0 := id.val.headD 0
  let len := assetId0 >>> 5
  let assetId := (assetId0 &&& 3) :: id.val.tail
  -- the slice `assetId[4-len:4]`
  if 4 < len then none
  else
    some {
      symbol := encodeBytes (slice assetId (4 - len).toNat 4)
      assetType := (assetId0 &&& 0xc) >>> 2
      decimal := assetId.getD 4 0 &&& 0x1f
      txHash := assetId.drop 5
      uidType := assetId.getD 4 0 >>> 5 }

/-- Source: `GetSymbol` -/
def AssetId.getSymbol (id : AssetId) : Option Bytes :=
  (parseAssetId id).map ParsedAssetId.symbol

/-! ### Texts -/

/-- The character `+`. -/
def plus : UInt8 :=
  43

/-- Source: `dag/modules/asset.go`, `PTN` -/
def ptn : Bytes :=
  ascii "PTN"

/-- Source: `strings.ToUpper` -/
def TextLib.toUpper (lib : TextLib) (s : Bytes) : Bytes :=
  if s.all (· < 0x80) then s.map fun c => if 97 ≤ c ∧ c ≤ 122 then c - 32 else c
  else lib.unicodeUpper s

/-- Source: `AssetId.String` -/
def AssetId.string (it : AssetId) : Option Bytes :=
  if it = ptnCoin then some ptn
  else
    (parseAssetId it).map fun (p : ParsedAssetId) =>
      if p.txHash.all (· = 0) ∧ p.assetType = AssetType.fungibleToken.code ∧ p.decimal = 8 then
        p.symbol
      else
        let type2 := p.assetType <<< 3 ||| p.uidType
        p.symbol ++ [plus] ++ encodeBytes [p.decimal] ++ encodeBytes [type2] ++ encodeBytes p.txHash

/-- Source: `String2AssetId` -/
def TextLib.string2AssetId (lib : TextLib) (str : Bytes) :
    Option (Except CodecError (AssetId × UInt8)) :=
  let str := lib.toUpper str
  if str = ptn then some (.ok (ptnCoin, UniqueIdType.null.code))
  else
    match str.splitOn plus with
    | symbol :: rest :: _ =>
      match rest with
      | decimalChar :: typeChar :: hash =>
        match (decodeToBytes [typeChar]).head?, (decodeToBytes [decimalChar]).head? with
        | some type2, some decimal =>
          (newAssetId symbol (type2 >>> 3) decimal (decodeToBytes hash)
            (type2 &&& 7)).map (Except.map fun id => (id, type2 &&& 7))
        | _, _ => none
      | _ => none
    | [] => none
    | [symbol] =>
      (newAssetId symbol AssetType.fungibleToken.code 8 (List.replicate 11 0)
        UniqueIdType.null.code).map (Except.map fun id => (id, UniqueIdType.null.code))

/-- Source: `dag/modules/asset.go`, `Asset.String` -/
def Asset.string (asset : Asset) : Option Bytes :=
  if asset.assetId = ptnCoin then some ptn
  else do
    let p ← parseAssetId asset.assetId
    let assetIdStr ← AssetId.string asset.assetId
    if p.assetType ≠ AssetType.nonFungibleToken.code then some assetIdStr
    else some (assetIdStr ++ [dash] ++ UniqueId.stringFriendly asset.uniqueId p.uidType)

/-- Source: `dag/modules/asset.go`, `StringToAsset` and `SetString` -/
def TextLib.stringToAsset (lib : TextLib) (str : Bytes) : Option (Except CodecError Asset) :=
  if str = ptn then some (.ok (AssetId.toAsset ptnCoin))
  else if dash ∉ str then
    (lib.string2AssetId str).map (Except.map fun a => AssetId.toAsset a.1)
  else
    let first := (str.splitOn dash).headD []
    (lib.string2AssetId first).map fun r => do
      let a ← r
      let uniqueId ← lib.string2UniqueId (str.drop (first.length + 1)) a.2
      return ⟨a.1, uniqueId⟩

/-! ### Unpacking what was packed -/

lemma firstByte_fields {h₀ : UInt8} (hh : h₀.toNat < 4) {n : ℕ} (hn : n < 5) (t : AssetType) :
    let f := h₀ ||| ofNat (n <<< 5) ||| t.code <<< 2
    f >>> 5 = ofNat n ∧ (f &&& 0xc) >>> 2 = t.code ∧ f &&& 3 = h₀ := by
  have hall : ∀ a < 4, ∀ n < 5, ∀ c ∈ [AssetType.fungibleToken.code,
      AssetType.nonFungibleToken.code, AssetType.voteToken.code],
      let f := ofNat a ||| ofNat (n <<< 5) ||| c <<< 2
      f >>> 5 = ofNat n ∧ (f &&& 0xc) >>> 2 = c ∧ f &&& 3 = ofNat a := by
    decide +kernel
  simpa using hall h₀.toNat hh n hn t.code (by cases t <;> simp)

lemma fifthByte_fields (hd : d.toNat < 19) (u : UniqueIdType) :
    (u.code <<< 5 ||| d) &&& 0x1f = d ∧ (u.code <<< 5 ||| d) >>> 5 = u.code := by
  have hall : ∀ a < 19, ∀ c < 5, (ofNat c <<< 5 ||| ofNat a) &&& 0x1f = ofNat a ∧
      (ofNat c <<< 5 ||| ofNat a) >>> 5 = ofNat c := by
    decide +kernel
  simpa using hall d.toNat hd u.code.toNat (by cases u <;> decide)

/-- The fields of the character of both types. -/
lemma type2_fields (t : AssetType) (u : UniqueIdType) :
    (t.code <<< 3 ||| u.code).toNat < 36 ∧ (t.code <<< 3 ||| u.code) >>> 3 = t.code ∧
      (t.code <<< 3 ||| u.code) &&& 7 = u.code := by
  cases t <;> cases u <;> decide

/-- The bytes of a symbol leave room for the length and the type. -/
def FitsHead (assetSymbol : Bytes) : Prop :=
  assetSymbol.length ≤ 4 ∧ (assetSymbol.length = 4 → (assetSymbol.headD 0).toNat < 4)

lemma FitsHead.exists_head (h : FitsHead b) :
    ∃ h₀ h₁ h₂ h₃ : UInt8, List.replicate (4 - b.length) 0 ++ b = [h₀, h₁, h₂, h₃] ∧
      h₀.toNat < 4 := by
  obtain ⟨hlen, htop⟩ := h
  match b with
  | [] => exact ⟨0, 0, 0, 0, rfl, by decide⟩
  | [b₀] => exact ⟨0, 0, 0, b₀, rfl, by decide⟩
  | [b₀, b₁] => exact ⟨0, 0, b₀, b₁, rfl, by decide⟩
  | [b₀, b₁, b₂] => exact ⟨0, b₀, b₁, b₂, rfl, by decide⟩
  | [b₀, b₁, b₂, b₃] => exact ⟨b₀, b₁, b₂, b₃, rfl, htop rfl⟩
  | _ :: _ :: _ :: _ :: _ :: _ =>
    simp only [length_cons] at hlen
    omega

lemma parseAssetId_packAssetId (hb : FitsHead b) (t : AssetType) (hd : d.toNat < 19)
    (htx : 11 ≤ tx.length) (u : UniqueIdType) :
    parseAssetId (packAssetId b t.code d tx u.code) =
      some ⟨encodeBytes b, t.code, d, tx.take 11, u.code⟩ := by
  obtain ⟨h₀, h₁, h₂, h₃, hhead, htop⟩ := hb.exists_head
  obtain ⟨hlen, htype, hfirst⟩ := firstByte_fields htop (Nat.lt_succ_of_le hb.1) t
  obtain ⟨hdec, huid⟩ := fifthByte_fields hd u
  have hval : (packAssetId b t.code d tx u.code).val =
      (h₀ ||| ofNat (b.length <<< 5) ||| t.code <<< 2) :: h₁ :: h₂ :: h₃ ::
        (u.code <<< 5 ||| d) :: tx.take 11 := by
    show copyInto 16 _ = _
    rw [hhead]
    apply copyInto_of_length
    simp [htx]
  have hcount : ¬ 4 < ofNat b.length ∧ (4 - ofNat b.length).toNat = 4 - b.length := by
    have hall : ∀ n < 5, ¬ 4 < ofNat n ∧ (4 - ofNat n).toNat = 4 - n := by decide
    exact hall b.length (Nat.lt_succ_of_le hb.1)
  have hsymbol (rest : Bytes) : slice (h₀ :: h₁ :: h₂ :: h₃ :: rest) (4 - b.length) 4 = b := by
    show slice ([h₀, h₁, h₂, h₃] ++ rest) (4 - b.length) 4 = b
    rw [← hhead]
    exact slice_append length_replicate (Nat.sub_add_cancel hb.1)
  rw [parseAssetId, hval]
  simp only [headD_cons, tail_cons, hlen, htype, hfirst, hcount.1, hcount.2, if_false,
    hsymbol, getD_cons_succ, getD_cons_zero, hdec, huid, drop_succ_cons,
    drop_zero]

/-! ### Tokens -/

/-- A symbol of one to five characters from `0-9A-Z`. -/
structure AssetSymbol where
  text : Bytes
  ne_nil : text ≠ []
  length_le : text.length ≤ 5
  chars : ∀ c ∈ text, c ∈ alphabet

/-- A symbol of five characters is below `2 ^ 26`. -/
lemma AssetSymbol.fitsHead (symbol : AssetSymbol)
    (h : (decodeToBytes symbol.text).length ≤ 4) :
    FitsHead (decodeToBytes symbol.text) := by
  refine ⟨h, fun hfour => ?_⟩
  have hvalue : Radix.value 256 ((decodeToBytes symbol.text).map toNat) < 36 ^ 5 :=
    calc Radix.value 256 ((decodeToBytes symbol.text).map toNat)
        = Radix.value 36 (digitsOf symbol.text) := by
          rw [toNat_decodeToBytes symbol.chars, Radix.value_convert (by decide)]
      _ < 36 ^ (digitsOf symbol.text).length :=
          Radix.value_lt (by decide) (digitsOf_lt symbol.chars)
      _ ≤ 36 ^ 5 := by
          rw [digitsOf, length_map]
          exact Nat.pow_le_pow_right (by decide) symbol.length_le
  obtain ⟨b₀, b₁, b₂, b₃, htext⟩ := length_eq_four.1 hfour
  rw [htext] at hvalue ⊢
  simp only [Radix.value, map_cons, map_nil, foldl_cons, foldl_nil] at hvalue
  show b₀.toNat < 4
  omega

/-- The arguments of `NewAssetId` within its bounds. -/
structure TokenSpec where
  symbol : AssetSymbol
  assetType : AssetType
  decimal : Fin 19
  requestId : {b : Bytes // 11 ≤ b.length}
  uniqueIdType : UniqueIdType

namespace TokenSpec

variable (x : TokenSpec) (lib : TextLib)

/-- The bytes of the symbol. -/
def symbolBytes : Bytes :=
  decodeToBytes x.symbol.text

/-- The decimals as a byte. -/
def decimalByte : UInt8 :=
  ofNat x.decimal

/-- The id of the token, where there is one. -/
def assetId : AssetId :=
  packAssetId x.symbolBytes x.assetType.code x.decimalByte x.requestId.val x.uniqueIdType.code

lemma toNat_decimalByte : x.decimalByte.toNat = x.decimal :=
  toNat_ofNat_of_lt' (by have := x.decimal.isLt; simp [size]; omega)

lemma newAssetId_eq (htx : 11 ≤ tx.length)
    (htake : tx.take 11 = x.requestId.val.take 11) :
    newAssetId x.symbol.text x.assetType.code x.decimalByte tx x.uniqueIdType.code =
      if 4 < x.symbolBytes.length then none else some (.ok x.assetId) := by
  have hsymbol : ¬ (x.symbol.text.length > 5 ∨ x.symbol.text.length = 0) := by
    have hle := x.symbol.length_le
    have hpos := length_pos_iff.2 x.symbol.ne_nil
    omega
  have hdecimal : ¬ x.decimalByte > 18 := by
    rw [gt_iff_lt, lt_iff_toNat_lt, toNat_decimalByte]
    show ¬ 18 < (x.decimal : ℕ)
    omega
  rw [newAssetId, if_neg hsymbol, if_neg hdecimal, if_neg (Nat.not_lt.2 htx), assetId]
  simp only [packAssetId, ← htake]
  rfl

lemma parseAssetId_assetId (h : x.symbolBytes.length ≤ 4) :
    parseAssetId x.assetId = some ⟨x.symbol.text, x.assetType.code, x.decimalByte,
      x.requestId.val.take 11, x.uniqueIdType.code⟩ := by
  have hdecimal : x.decimalByte.toNat < 19 := x.toNat_decimalByte ▸ x.decimal.isLt
  rw [assetId, symbolBytes,
    parseAssetId_packAssetId (x.symbol.fitsHead h) _ hdecimal x.requestId.property,
    encodeBytes_decodeToBytes x.symbol.chars]

/-- The short text: a fungible token of the genesis unit with the usual decimals. -/
def Bare : Prop :=
  (x.requestId.val.take 11).all (· = 0) ∧ x.assetType.code = AssetType.fungibleToken.code ∧
    x.decimalByte = 8

instance : Decidable x.Bare :=
  inferInstanceAs (Decidable (_ ∧ _))

/-- The character of both types. -/
def type2 : UInt8 :=
  x.assetType.code <<< 3 ||| x.uniqueIdType.code

/-- What the long text has behind the symbol. -/
def details : Bytes :=
  alphabet.getD x.decimalByte.toNat 0 :: alphabet.getD x.type2.toNat 0 ::
    encodeBytes (x.requestId.val.take 11)

/-- The long text. -/
def longText : Bytes :=
  x.symbol.text ++ plus :: x.details

lemma decimalByte_lt : x.decimalByte.toNat < 36 := by
  rw [toNat_decimalByte]
  omega

lemma type2_lt : x.type2.toNat < 36 :=
  (type2_fields x.assetType x.uniqueIdType).1

lemma mem_details {c : UInt8} (hc : c ∈ x.details) : c ∈ alphabet := by
  rcases mem_cons.1 hc with rfl | hc
  · exact getD_alphabet_mem _ x.decimalByte_lt
  rcases mem_cons.1 hc with rfl | hc
  · exact getD_alphabet_mem _ x.type2_lt
  · exact mem_encodeBytes hc

lemma string_assetId (h : x.symbolBytes.length ≤ 4) :
    AssetId.string x.assetId =
      some (if x.assetId = ptnCoin then ptn else if x.Bare then x.symbol.text else x.longText) := by
  have htext : x.longText = x.symbol.text ++ [plus] ++ encodeBytes [x.decimalByte] ++
      encodeBytes [x.type2] ++ encodeBytes (x.requestId.val.take 11) := by
    rw [Base36.encodeBytes_singleton x.decimalByte_lt, Base36.encodeBytes_singleton x.type2_lt,
      longText, details]
    simp
  rw [AssetId.string, x.parseAssetId_assetId h, htext, apply_ite some]
  rfl

variable {s : Bytes} {uid : UniqueId}

/-- The characters of an asset id's text. -/
lemma mem_string_assetId (h : x.symbolBytes.length ≤ 4) (hs : AssetId.string x.assetId = some s) :
    ∀ c ∈ s, c ∈ plus :: alphabet := by
  rw [x.string_assetId h, some_inj] at hs
  have hsymbol : ∀ c ∈ x.symbol.text, c ∈ plus :: alphabet :=
    fun c hc => mem_cons_of_mem _ (x.symbol.chars c hc)
  rw [← hs]
  split_ifs
  · decide +kernel
  · exact hsymbol
  intro c hc
  rcases mem_append.1 hc with hc | hc
  · exact hsymbol c hc
  rcases mem_cons.1 hc with rfl | hc
  · exact mem_cons_self
  · exact mem_cons_of_mem _ (x.mem_details hc)

lemma toUpper_eq (hs : ∀ c ∈ s, c ∈ plus :: alphabet) : lib.toUpper s = s := by
  have hall : ∀ c ∈ plus :: alphabet, c < 0x80 ∧ ¬ (97 ≤ c ∧ c ≤ 122) := by
    decide +kernel
  rw [toUpper, if_pos (List.all_eq_true.2 fun c hc => decide_eq_true (hall c (hs c hc)).1)]
  refine (map_congr_left fun c hc => ?_).trans (List.map_id s)
  exact if_neg (hall c (hs c hc)).2

lemma plus_notMem_of_alphabet (hs : ∀ c ∈ s, c ∈ alphabet) : plus ∉ s :=
  fun hp => absurd (hs plus hp) (by decide)

section

variable (h : x.symbolBytes.length ≤ 4)
include h

lemma newAssetId_take :
    newAssetId x.symbol.text x.assetType.code x.decimalByte (x.requestId.val.take 11)
      x.uniqueIdType.code = some (.ok x.assetId) := by
  have hlen : 11 ≤ (x.requestId.val.take 11).length := by simp [x.requestId.property]
  rw [x.newAssetId_eq hlen (by simp), if_neg (Nat.not_lt.2 h)]

/-- Reading the long text. -/
lemma string2AssetId_longText
    (hmem : ∀ c ∈ x.longText, c ∈ plus :: alphabet) :
    lib.string2AssetId x.longText = some (.ok (x.assetId, x.uniqueIdType.code)) := by
  have hne : x.longText ≠ ptn := fun heq =>
    absurd (heq ▸ mem_append_right _ mem_cons_self : plus ∈ ptn) (by decide)
  have hsplit : x.longText.splitOn plus = [x.symbol.text, x.details] := by
    rw [longText, splitOn_append_cons_self_of_not_mem (plus_notMem_of_alphabet x.symbol.chars),
      splitOn_eq_singleton (plus_notMem_of_alphabet fun c => x.mem_details)]
  obtain ⟨-, htype, huid⟩ := type2_fields x.assetType x.uniqueIdType
  rw [string2AssetId, toUpper_eq lib hmem, if_neg hne, hsplit, details]
  simp only [← Base36.encodeBytes_singleton x.decimalByte_lt,
    ← Base36.encodeBytes_singleton x.type2_lt, decodeToBytes_encodeBytes, head?_cons]
  show (newAssetId x.symbol.text (x.type2 >>> 3) x.decimalByte (x.requestId.val.take 11)
    (x.type2 &&& 7)).map (Except.map fun id => (id, x.type2 &&& 7)) = _
  rw [type2, htype, huid, x.newAssetId_take h]
  rfl

/-- Reading the short text. -/
lemma string2AssetId_bare (hbare : x.Bare)
    (hnull : x.uniqueIdType = .null) (hptn : x.assetId ≠ ptnCoin) :
    lib.string2AssetId x.symbol.text = some (.ok (x.assetId, x.uniqueIdType.code)) := by
  obtain ⟨hzero, htype, hdecimal⟩ := hbare
  have htx : x.requestId.val.take 11 = List.replicate 11 0 := by
    apply eq_replicate_iff.2
    exact ⟨by simp [x.requestId.property], by simpa using hzero⟩
  have hnew := x.newAssetId_take h
  rw [htype, hdecimal, htx, hnull] at hnew
  have hne : x.symbol.text ≠ ptn := by
    intro heq
    rw [heq] at hnew
    apply hptn
    have hcoin : newAssetId ptn AssetType.fungibleToken.code 8 (List.replicate 11 0)
        UniqueIdType.null.code = some (.ok ptnCoin) := by decide +kernel
    exact (Except.ok.inj (some.inj (hcoin.symm.trans hnew))).symm
  have hmem : ∀ c ∈ x.symbol.text, c ∈ plus :: alphabet :=
    fun c hc => mem_cons_of_mem _ (x.symbol.chars c hc)
  rw [string2AssetId, toUpper_eq lib hmem, if_neg hne,
    splitOn_eq_singleton (plus_notMem_of_alphabet x.symbol.chars), hnull]
  simp only [hnew]
  rfl

/-- Reading back the text of an asset id. -/
lemma string2AssetId_string
    (hkind : x.assetType = .nonFungibleToken ∨ x.uniqueIdType = .null)
    (hs : AssetId.string x.assetId = some s) :
    lib.string2AssetId s = some (.ok (x.assetId, x.uniqueIdType.code)) := by
  have hmem := x.mem_string_assetId h hs
  rw [x.string_assetId h, some_inj] at hs
  subst hs
  split_ifs at hmem ⊢ with hptn hbare
  · have hparse := x.parseAssetId_assetId h
    rw [hptn] at hparse
    have hcoin : parseAssetId ptnCoin = some ⟨ptn, 0, 8, List.replicate 11 0, 0⟩ := by
      decide +kernel
    obtain ⟨-, -, -, -, huid⟩ := ParsedAssetId.mk.inj (some.inj (hcoin.symm.trans hparse))
    rw [string2AssetId, toUpper_eq lib hmem, if_pos rfl, hptn, ← huid]
    rfl
  · refine x.string2AssetId_bare lib h hbare (hkind.resolve_left fun hnf => ?_) hptn
    rw [Bare, hnf] at hbare
    exact absurd hbare.2.1 (by decide)
  · exact x.string2AssetId_longText lib h hmem

/-- The text of an asset that is not unique is the text of its id. -/
lemma string_of_not_nonFungible
    (htype : x.assetType ≠ .nonFungibleToken) (uid : UniqueId) :
    Asset.string ⟨x.assetId, uid⟩ = AssetId.string x.assetId := by
  have hcode : x.assetType.code ≠ AssetType.nonFungibleToken.code := by
    revert htype
    cases x.assetType <;> decide
  rw [Asset.string, x.parseAssetId_assetId h, x.string_assetId h]
  split_ifs with hptn
  · rfl
  · simp [hcode]
  · simp [hcode]

lemma dash_notMem_string (hs : AssetId.string x.assetId = some s) :
    dash ∉ s :=
  fun hd => absurd (x.mem_string_assetId h hs dash hd) (by decide)

end

/-- A text without a dash names no unique id. -/
lemma uniqueId_of_stringToAsset (hs : dash ∉ s) {a : Asset}
    (ha : lib.stringToAsset s = some (.ok a)) : a.uniqueId = FixedBytes.zero 16 := by
  rw [TextLib.stringToAsset, if_pos hs] at ha
  split_ifs at ha
  · rw [← Except.ok.inj (some.inj ha)]
    rfl
  obtain ⟨r, -, hr⟩ := map_eq_some_iff.1 ha
  cases r with
  | error e => cases hr
  | ok r =>
    rw [← Except.ok.inj hr]
    rfl

/-- What is asked of a token: its id can be made and unpacked, and the texts of the id and of
every asset with it are read back. -/
def Codec : Prop :=
  ∃ id, newAssetId x.symbol.text x.assetType.code x.decimalByte x.requestId.val
      x.uniqueIdType.code = some (.ok id) ∧
    (∃ txHash, parseAssetId id = some ⟨x.symbol.text, x.assetType.code, x.decimalByte, txHash,
      x.uniqueIdType.code⟩) ∧
    (∃ s, AssetId.string id = some s ∧ ∃ t, lib.string2AssetId s = some (.ok (id, t))) ∧
    ∀ uid, x.uniqueIdType.Matches uid →
      ∃ s, Asset.string ⟨id, uid⟩ = some s ∧ lib.stringToAsset s = some (.ok ⟨id, uid⟩)

/-- Reading back the text of an asset with a unique id. -/
lemma stringToAsset_nonFungible (h : x.symbolBytes.length ≤ 4)
    (htype : x.assetType = .nonFungibleToken) (huid : x.uniqueIdType.Matches uid) :
    ∃ s, Asset.string ⟨x.assetId, uid⟩ = some s ∧
      lib.stringToAsset s = some (.ok ⟨x.assetId, uid⟩) := by
  obtain ⟨s, hs⟩ : ∃ s, AssetId.string x.assetId = some s := ⟨_, x.string_assetId h⟩
  have hparse := x.parseAssetId_assetId h
  have hptn : x.assetId ≠ ptnCoin := by
    intro heq
    rw [heq, htype] at hparse
    have hcoin : (parseAssetId ptnCoin).map ParsedAssetId.assetType = some 0 := by decide +kernel
    rw [hparse] at hcoin
    have hcode : AssetType.nonFungibleToken.code = 0 := some.inj hcoin
    exact absurd hcode (by decide)
  set friendly := UniqueId.stringFriendly uid x.uniqueIdType.code with hfriendly
  have hstring : Asset.string ⟨x.assetId, uid⟩ = some (s ++ dash :: friendly) := by
    rw [Asset.string, if_neg hptn, hparse, hs]
    simp [htype, hfriendly]
  have hdash : dash ∈ s ++ dash :: friendly := mem_append_right _ mem_cons_self
  have hne : s ++ dash :: friendly ≠ ptn := fun heq => absurd (heq ▸ hdash) (by decide)
  have hfirst : ((s ++ dash :: friendly).splitOn dash).headD [] = s := by
    rw [splitOn_append_cons_self_of_not_mem (x.dash_notMem_string h hs)]
    rfl
  have hdrop : (s ++ dash :: friendly).drop (s.length + 1) = friendly := by simp
  refine ⟨_, hstring, ?_⟩
  rw [TextLib.stringToAsset, if_neg hne, if_neg (not_not.2 hdash)]
  simp only [hfirst, hdrop, x.string2AssetId_string lib h (.inl htype) hs, map_some]
  show some (Except.map (fun uniqueId => (⟨x.assetId, uniqueId⟩ : Asset))
    (lib.string2UniqueId friendly x.uniqueIdType.code)) = _
  rw [hfriendly, lib.string2UniqueId_stringFriendly huid]
  rfl

/-- Reading back the text of an asset without a unique id. -/
lemma stringToAsset_null (h : x.symbolBytes.length ≤ 4) (htype : x.assetType ≠ .nonFungibleToken)
    (hnull : x.uniqueIdType = .null) (huid : x.uniqueIdType.Matches uid) :
    ∃ s, Asset.string ⟨x.assetId, uid⟩ = some s ∧
      lib.stringToAsset s = some (.ok ⟨x.assetId, uid⟩) := by
  obtain ⟨s, hs⟩ : ∃ s, AssetId.string x.assetId = some s := ⟨_, x.string_assetId h⟩
  have hread := x.string2AssetId_string lib h (.inr hnull) hs
  rw [hnull] at huid
  refine ⟨s, (x.string_of_not_nonFungible h htype uid).trans hs, ?_⟩
  rw [TextLib.stringToAsset, if_pos (x.dash_notMem_string h hs), hread, show uid = _ from huid]
  split_ifs with hptn
  · -- the text `PTN` is that of the coin only
    have hcoin : lib.string2AssetId ptn = some (.ok (ptnCoin, UniqueIdType.null.code)) := by
      rw [string2AssetId, toUpper_eq lib (by decide +kernel), if_pos rfl]
    rw [hptn, hcoin] at hread
    have heq : ptnCoin = x.assetId := congrArg Prod.fst (Except.ok.inj (some.inj hread))
    rw [← heq]
    rfl
  · rfl

/-- Everything is read back exactly if the symbol has at most four bytes, and only a non-fungible
token has unique ids. -/
theorem codec_iff : x.Codec lib ↔
    x.symbolBytes.length ≤ 4 ∧
      (x.assetType = .nonFungibleToken ∨ x.uniqueIdType = .null) := by
  have hnew := x.newAssetId_eq x.requestId.property rfl
  constructor
  · rintro ⟨id, hid, -, -, hassets⟩
    have hlen : x.symbolBytes.length ≤ 4 := by
      by_contra hlong
      rw [hnew, if_pos (Nat.not_le.1 hlong)] at hid
      cases hid
    rw [hnew, if_neg (Nat.not_lt.2 hlen)] at hid
    cases hid
    refine ⟨hlen, or_iff_not_imp_left.2 fun htype => by_contra fun hnull => ?_⟩
    -- the text of the id alone does not say which unique id it was
    obtain ⟨one, hone⟩ : ∃ one : UniqueId, one ≠ FixedBytes.zero 16 :=
      ⟨⟨List.replicate 16 1, length_replicate⟩, by decide⟩
    have hmatches : x.uniqueIdType.Matches one := by
      revert hnull
      cases x.uniqueIdType <;> simp [UniqueIdType.Matches]
    obtain ⟨s, hs, hread⟩ := hassets one hmatches
    rw [x.string_of_not_nonFungible hlen htype] at hs
    exact hone (uniqueId_of_stringToAsset lib (x.dash_notMem_string hlen hs) hread)
  rintro ⟨hlen, hkind⟩
  rw [if_neg (Nat.not_lt.2 hlen)] at hnew
  refine ⟨x.assetId, hnew, ⟨_, x.parseAssetId_assetId hlen⟩, ?_, fun uid huid => ?_⟩
  · exact ⟨_, x.string_assetId hlen,
      _, x.string2AssetId_string lib hlen hkind (x.string_assetId hlen)⟩
  by_cases htype : x.assetType = .nonFungibleToken
  · exact x.stringToAsset_nonFungible lib hlen htype huid
  · exact x.stringToAsset_null lib hlen htype (hkind.resolve_left htype) huid

/-- The symbol `00000`. -/
def zeros : TokenSpec where
  symbol := ⟨ascii "00000", by decide, by decide, by decide +kernel⟩
  assetType := .fungibleToken
  decimal := 8
  requestId := ⟨List.replicate 32 0, by decide⟩
  uniqueIdType := .null

/-- Five zero bytes do not fit in front of the fifth byte of an id. -/
theorem zeros_panics : newAssetId zeros.symbol.text zeros.assetType.code zeros.decimalByte
    zeros.requestId.val zeros.uniqueIdType.code = none ∧ ∀ lib, ¬ zeros.Codec lib := by
  have hnone : newAssetId zeros.symbol.text zeros.assetType.code zeros.decimalByte
      zeros.requestId.val zeros.uniqueIdType.code = none := by decide +kernel
  refine ⟨hnone, ?_⟩
  rintro lib ⟨id, hid, -⟩
  cases hid

end TokenSpec

/-! ### Amounts for display -/

/-- Source: `dag/modules/asset.go`, `Asset.GetDecimal` -/
def Asset.getDecimal (asset : Asset) : Option ℕ :=
  (parseAssetId asset.assetId).map fun (p : ParsedAssetId) => p.decimal.toNat

/-- Division by ten, which the decimal library rounds to 16 fractional digits. -/
def div10 (d : ℚ) : ℚ :=
  round (d / 10 * 10 ^ 16) / 10 ^ 16

/-- Source: `ptnjson/helper.go`, `FormatAssetAmountByDecimal` -/
def formatAssetAmountByDecimal (amount : UInt64) (dec : ℕ) : ℚ :=
  div10^[dec] amount.toNat

/-- The low 64 bits of the integer part of a value times `10 ^ dec`. -/
def scaledIntPart (amt : ℚ) (dec : ℕ) : UInt64 :=
  let amt := (· * 10)^[dec] amt
  UInt64.ofInt (amt.num.tdiv amt.den)

namespace Asset

variable (asset : Asset)

/-- Source: `ptnjson/helper.go`, `AssetAmt2JsonAmt` -/
def assetAmt2JsonAmt (amount : UInt64) : Option ℚ :=
  asset.getDecimal.map (formatAssetAmountByDecimal amount)

/-- Source: `ptnjson/helper.go`, `JsonAmt2AssetAmt` -/
def jsonAmt2AssetAmt (jsonAmt : ℚ) : Option UInt64 :=
  asset.getDecimal.map (scaledIntPart jsonAmt)

/-- Source: `dag/modules/asset.go`, `DisplayAmount` -/
def displayAmount (amount : UInt64) : Option ℚ :=
  asset.getDecimal.map (formatAssetAmountByDecimal amount)

/-- Source: `dag/modules/asset.go`, `Uint64Amount` -/
def uint64Amount (amt : ℚ) : Option UInt64 :=
  asset.getDecimal.map (scaledIntPart amt)

end Asset

/-- Up to 16 decimals the digits are all there. -/
lemma div10_iterate (amount : ℕ) {dec : ℕ} (h : dec ≤ 16) :
    div10^[dec] amount = amount / 10 ^ dec := by
  induction dec with
  | zero => simp
  | succ dec ih =>
    have hint : (amount : ℚ) / 10 ^ dec / 10 * 10 ^ 16 = (amount * 10 ^ (15 - dec) : ℕ) := by
      have hpow : (10 : ℚ) ^ 16 = 10 ^ dec * 10 * 10 ^ (15 - dec) := by
        rw [← pow_succ, ← pow_add, show dec + 1 + (15 - dec) = 16 by omega]
      rw [hpow]
      push_cast
      field_simp
    rw [Function.iterate_succ_apply', ih (by omega), div10, hint, round_natCast, Int.cast_natCast,
      ← hint, mul_div_cancel_right₀ _ (by norm_num), div_div, ← pow_succ]

/-- A digit behind the last one is rounded off. -/
lemma div10_last (m : ℕ) : div10 (m / 10 ^ 16) = ((m + 5) / 10 : ℕ) / 10 ^ 16 := by
  have hround : round ((m : ℚ) / 10 ^ 16 / 10 * 10 ^ 16) = ((m + 5) / 10 : ℕ) := by
    rw [round_eq, show (m : ℚ) / 10 ^ 16 / 10 * 10 ^ 16 + 1 / 2 = ((m + 5 : ℤ) : ℚ) / (10 : ℕ) by
      push_cast; ring, Rat.floor_intCast_div_natCast]
    rfl
  rw [div10, hround, Int.cast_natCast]

lemma toNat_scaledIntPart {amt : ℚ} {dec n : ℕ} (h : amt * 10 ^ dec = n) :
    (scaledIntPart amt dec).toNat = n % 2 ^ 64 := by
  simp only [scaledIntPart, mul_right_iterate, h, UInt64.ofInt, UInt64.toNat_ofNat']
  simp
  omega

lemma scaledIntPart_format_iff (amount : UInt64) {dec : ℕ} (h : dec ≤ 18) :
    scaledIntPart (formatAssetAmountByDecimal amount dec) dec = amount ↔
      10 ^ (dec - 16) ∣ amount.toNat := by
  have hlt := amount.toNat_lt
  rw [← UInt64.toNat_inj, formatAssetAmountByDecimal]
  rcases Nat.lt_or_ge 16 dec with h16 | h16
  · have h16' := div10_iterate amount.toNat le_rfl
    obtain rfl | rfl : dec = 17 ∨ dec = 18 := by omega
    · rw [Function.iterate_succ_apply', h16', div10_last,
        toNat_scaledIntPart (n := 10 * ((amount.toNat + 5) / 10)) (by push_cast; ring)]
      omega
    · rw [Function.iterate_succ_apply', Function.iterate_succ_apply', h16', div10_last, div10_last,
        toNat_scaledIntPart (n := 100 * (((amount.toNat + 5) / 10 + 5) / 10)) (by push_cast; ring)]
      generalize hr : ((amount.toNat + 5) / 10 + 5) / 10 = r
      have hlow : 100 * r ≤ amount.toNat + 55 := by omega
      have hhigh : amount.toNat < 100 * r + 55 := by omega
      rcases Nat.lt_or_ge (100 * r) (2 ^ 64) with hr64 | hr64 <;> omega
  · rw [div10_iterate _ h16, toNat_scaledIntPart (n := amount.toNat) (by field_simp),
      Nat.sub_eq_zero_of_le h16, Nat.mod_eq_of_lt hlt]
    simp

/-- An amount is shown and read back exactly if the digits behind the 16th are zero. -/
theorem displayAmount_roundTrip_iff {asset : Asset} {dec : ℕ} (hdec : asset.getDecimal = some dec)
    (h : dec ≤ 18) (amount : UInt64) :
    ((asset.assetAmt2JsonAmt amount).bind asset.jsonAmt2AssetAmt = some amount ↔
        10 ^ (dec - 16) ∣ amount.toNat) ∧
      ((asset.displayAmount amount).bind asset.uint64Amount = some amount ↔
        10 ^ (dec - 16) ∣ amount.toNat) := by
  have hiff := scaledIntPart_format_iff amount h
  simp [Asset.assetAmt2JsonAmt, Asset.jsonAmt2AssetAmt, Asset.displayAmount, Asset.uint64Amount,
    hdec, hiff]

/-- The 8 decimals of PTN are within the 16 digits. -/
theorem ptn_roundTrip :
    ((Asset.mk ptnCoin (.zero 16)).assetAmt2JsonAmt 5).bind
        (Asset.mk ptnCoin (.zero 16)).jsonAmt2AssetAmt = some 5 ↔
      10 ^ (8 - 16) ∣ (5 : UInt64).toNat :=
  (displayAmount_roundTrip_iff (by decide +kernel) (by decide) 5).1

/-- The smallest amount of a token with 17 decimals is shown as zero. -/
theorem smallest_amount_lost :
    let asset : Asset := ⟨packAssetId [1] 0 17 (List.replicate 11 0) 0, .zero 16⟩
    (asset.displayAmount 1).bind asset.uint64Amount = some 0 ∧
      (asset.assetAmt2JsonAmt 1).bind asset.jsonAmt2AssetAmt = some 0 := by
  decide +kernel

end ZwsChain
