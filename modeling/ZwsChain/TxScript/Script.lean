import ZwsChain.Modules.Transaction

/-!
# Scripts: parsing, standard forms and the data a signature covers

`tokenengine/internal/txscript`, without the machine. A script is parsed into opcodes with the
bytes they push; the standard forms give a lock script its address; `calcSignatureData` is the
byte string a signature of an input is over.
Sources without a file are in `txscript/script.go`.
-/

namespace ZwsChain

open AddressType

namespace TxScript

/-! ### Parsing -/

/-- An opcode with the bytes it pushes.
Source: `txscript/opcode.go`, `parsedOpcode` -/
structure ParsedOpcode where
  value : UInt8
  data : Bytes
  deriving DecidableEq

/-- The little-endian number of a byte string. -/
def leNat : Bytes → Nat
  | [] => 0
  | b :: bs => b.toNat + 256 * leNat bs

/-- The length field of an opcode: 1 for a plain opcode, `n + 1` for a push of `n` bytes, and the
negative of the number of length bytes for `OP_PUSHDATA1`, `2` and `4`.
Source: `txscript/opcode.go`, `opcodeArray` -/
def opcodeLength (value : UInt8) : Int :=
  if 0x01 ≤ value ∧ value ≤ 0x4b then value.toNat + 1
  else if value = 0x4c then -1
  else if value = 0x4d then -2
  else if value = 0x4e then -4
  else 1

/-- The first opcode of a script and the rest of it.
Source: `parseScriptTemplate`, loop body -/
def parseOpcode : Bytes → Option (ParsedOpcode × Bytes)
  | [] => none
  | instr :: rest =>
    let length := opcodeLength instr
    if length = 1 then some (⟨instr, []⟩, rest)
    else if 1 < length then
      let n := (length - 1).toNat
      if rest.length < n then none else some (⟨instr, rest.take n⟩, rest.drop n)
    else
      let n := (-length).toNat
      if rest.length < n then none
      else
        let l := leNat (rest.take n)
        if (rest.drop n).length < l then none
        else some (⟨instr, (rest.drop n).take l⟩, (rest.drop n).drop l)

/-- The opcodes of a script; `fuel` bounds their number. -/
def parseOpcodes : Nat → Bytes → Option (List ParsedOpcode)
  | _, [] => some []
  | 0, _ :: _ => none
  | fuel + 1, script => do
      let (pop, rest) ← parseOpcode script
      let pops ← parseOpcodes fuel rest
      some (pop :: pops)

/-- Source: `parseScript` -/
def parseScript (script : Bytes) : Option (List ParsedOpcode) :=
  parseOpcodes script.length script

/-- The `n` little-endian bytes of a length. -/
def leBytes : Nat → Nat → Bytes
  | 0, _ => []
  | n + 1, l => UInt8.ofNat l :: leBytes n (l / 256)

/-- The bytes of an opcode.
Source: `txscript/opcode.go`, `parsedOpcode.bytes` -/
def ParsedOpcode.bytes (pop : ParsedOpcode) : Option Bytes :=
  let length := opcodeLength pop.value
  if length = 1 then
    if pop.data.length ≠ 0 then none else some [pop.value]
  else if 1 < length then
    let retbytes := pop.value :: pop.data
    if (retbytes.length : Int) ≠ length then none else some retbytes
  else
    let len := leBytes (-length).toNat pop.data.length
    if leNat len ≠ pop.data.length then none else some (pop.value :: len ++ pop.data)

/-- Source: `unparseScript` -/
def unparseScript (pops : List ParsedOpcode) : Option Bytes :=
  (pops.mapM ParsedOpcode.bytes).map List.flatten

/-! ### Standard forms -/

/-- Source: `isPushOnly` -/
def isPushOnly (pops : List ParsedOpcode) : Bool :=
  pops.all fun pop => pop.value ≤ 0x60

/-- Source: `isScriptHash` -/
def isScriptHash : List ParsedOpcode → Bool
  | [a, b, c] => a.value = 0xa9 && b.value = 0x14 && c.value = 0x87
  | _ => false

/-- Source: `isContractHash` -/
def isContractHash : List ParsedOpcode → Bool
  | [a, b] => a.value = 0x14 && b.value = 0xc8
  | _ => false

/-- Source: `txscript/standard.go`, `isPubkey` -/
def isPubkey : List ParsedOpcode → Bool
  | [a, b] => (a.data.length = 33 || a.data.length = 65) && b.value = 0xac
  | _ => false

/-- Source: `txscript/standard.go`, `isPubkeyHash` -/
def isPubkeyHash : List ParsedOpcode → Bool
  | [a, b, c, d, e] =>
    a.value = 0x76 && b.value = 0xa9 && c.value = 0x14 && d.value = 0x88 && e.value = 0xac
  | _ => false

/-- Source: `isSmallInt` -/
def isSmallInt (value : UInt8) : Bool :=
  value = 0 || (0x51 ≤ value && value ≤ 0x60)

/-- Source: `asSmallInt` -/
def asSmallInt (value : UInt8) : Nat :=
  if value = 0 then 0 else (value - 0x50).toNat

/-- Source: `txscript/standard.go`, `isMultiSig` -/
def isMultiSig (pops : List ParsedOpcode) : Bool :=
  let l := pops.length
  4 ≤ l && isSmallInt (pops.getD 0 ⟨0xff, []⟩).value &&
    isSmallInt (pops.getD (l - 2) ⟨0xff, []⟩).value &&
    (pops.getD (l - 1) ⟨0xff, []⟩).value = 0xae &&
    l - 3 = asSmallInt (pops.getD (l - 2) ⟨0xff, []⟩).value &&
    ((pops.drop 1).take (l - 3)).all fun pop => pop.data.length = 33 || pop.data.length = 65

/-- The address of a hash or a public key found in a lock script.
Source: `txscript/types.go`, `NewAddressOriginalData` -/
def newAddressOriginalData (P : Primitives) (data : Bytes) (ty : AddressType) : Address :=
  newAddress (if data.length ≠ 20 then (P.hash160 data).val else data) ty

/-- The address a lock script pays to: `none` if the script does not parse, the zero address if
it has not exactly one address.
Source: `txscript/standard.go`, `ExtractPkScriptAddrs`; `tokenengine/api.go`,
`GetAddressFromScript` -/
def getAddressFromScript (P : Primitives) (lockScript : Bytes) : Option Address :=
  (parseScript lockScript).map fun pops =>
    let data (i : Nat) := (pops.getD i ⟨0, []⟩).data
    if isPubkey pops then newAddressOriginalData P (data 0) .publicKeyHash
    else if isPubkeyHash pops then newAddressOriginalData P (data 2) .publicKeyHash
    else if isScriptHash pops then newAddressOriginalData P (data 1) .scriptHash
    else if isContractHash pops then newAddressOriginalData P (data 0) .contractHash
    else if isMultiSig pops && pops.length = 4 then
      newAddressOriginalData P (data 1) .publicKeyHash
    else FixedBytes.zero 21

/-- The lock script of an address; an address of another type has none.
Source: `txscript/standard.go`, `PayToAddrScript` -/
def generateLockScript (addr : Address) : Bytes :=
  if addr.getType = publicKeyHash.toByte then
    [0x76, 0xa9, 0x14] ++ addr.bytes ++ [0x88, 0xac]
  else if addr.getType = scriptHash.toByte then [0xa9, 0x14] ++ addr.bytes ++ [0x87]
  else if addr.getType = contractHash.toByte then [0x14] ++ addr.bytes ++ [0xc8]
  else []

/-- A push of 20 bytes. -/
lemma parseOpcode_push20 {b : Bytes} (h : b.length = 20) (rest : Bytes) :
    parseOpcode (0x14 :: (b ++ rest)) = some (⟨0x14, b⟩, rest) := by
  have hlen : opcodeLength 0x14 = 21 := by decide
  simp only [parseOpcode, hlen]
  simp [← h]

/-- The lock script of an address of a known type pays to the address. -/
lemma getAddressFromScript_generateLockScript (P : Primitives) {addr : Address}
    (h : addr.hasKnownType) : getAddressFromScript P (generateLockScript addr) = some addr := by
  have hlen := addr.bytes_length
  have hplain : ∀ value ∈ [0x76, 0xa9, 0x88, 0xac, 0x87, 0xc8], ∀ rest,
      parseOpcode (value :: rest) = some (⟨value, []⟩, rest) := by
    intro value hvalue rest
    have hlength : opcodeLength value = 1 := by
      revert value
      decide +kernel
    simp only [parseOpcode, hlength, if_true]
  have hdata : ∀ ty : AddressType, addr.getType = ty.toByte →
      newAddressOriginalData P addr.bytes ty = addr := by
    intro ty hty
    rw [newAddressOriginalData, if_neg (not_not.2 hlen), newAddress_bytes hty]
  rcases h with h | h | h
  all_goals
    simp only [getAddressFromScript, generateLockScript, h, parseScript]
    simp [toByte, parseOpcodes, parseOpcode_push20 hlen, hlen, hplain, isPubkey, isPubkeyHash,
      isScriptHash, isContractHash]
    exact hdata _ h

/-! ### The data a signature covers -/

/-- Whether `data` occurs in `b` as a block of bytes.
Source: `bytes.Contains` -/
def containsBytes (b data : Bytes) : Bool :=
  b.tails.any fun t => data.isPrefixOf t

/-- Source: `canonicalPush` -/
def canonicalPush (pop : ParsedOpcode) : Bool :=
  if pop.value > 0x60 then true
  else if pop.value < 0x4c && pop.value > 0 && pop.data.length = 1 && pop.data.getD 0 0 ≤ 16 then
    false
  else if pop.value = 0x4c && pop.data.length < 0x4c then false
  else if pop.value = 0x4d && pop.data.length ≤ 0xff then false
  else if pop.value = 0x4e && pop.data.length ≤ 0xffff then false
  else true

/-- Source: `removeOpcodeByData` -/
def removeOpcodeByData (pkscript : List ParsedOpcode) (data : Bytes) : List ParsedOpcode :=
  pkscript.filter fun pop => !canonicalPush pop || !containsBytes pop.data data

/-- Source: `removeOpcode` -/
def removeOpcode (pkscript : List ParsedOpcode) (opcode : UInt8) : List ParsedOpcode :=
  pkscript.filter fun pop => pop.value ≠ opcode

/-- The unlocking scripts of the message at `mIdx` as they are signed: the script being executed
at the signed input, nothing elsewhere. Payments of the request keep their scripts when the
signed message is in the result.
Source: `calcSignatureData`, loop over messages -/
def blankScripts (sigScript : Bytes) (hashType : UInt8) (msgIdx idx : Nat)
    (requestIndex : Option Nat) (mIdx : Nat) : Message → Message
  | .payment pay =>
    let isInResult := requestIndex.any (· < msgIdx)
    if isInResult && requestIndex.any (mIdx < ·) then .payment pay
    else .payment { pay with inputs := pay.inputs.zipIdx.map fun (input, i) =>
      { input with signatureScript :=
          if i = idx && mIdx = msgIdx && hashType ≠ 4 then sigScript else [] } }
  | m => m

/-- Cuts outputs and inputs of the signed payment as the hash type asks.
Source: `calcSignatureData`, the switch and the last test -/
def trimPayment (hashType : UInt8) (idx : Nat) (pay : PaymentPayload) : PaymentPayload :=
  let outputs :=
    if hashType &&& 0x1f = 2 then []
    else if hashType &&& 0x1f = 3 then
      (pay.outputs.take (idx + 1)).zipIdx.map fun (o, i) =>
        if i < idx then { o with value := 0, pkScript := [] } else o
    else pay.outputs
  let inputs := if hashType &&& 0x80 ≠ 0 then (pay.inputs.drop idx).take 1 else pay.inputs
  { pay with outputs, inputs }

/-- The encoded transaction with the other unlocking scripts removed. `none` is a runtime panic.
Source: `calcSignatureData`, behind the choice of the transaction -/
def signatureData (script : List ParsedOpcode) (hashType : UInt8) (tx : Transaction)
    (msgIdx idx : Nat) : Option Bytes := do
  match ← tx.messages[msgIdx]? with
  | .payment pay =>
    if hashType &&& 0x1f = 3 && pay.outputs.length ≤ idx then
      some (1 :: List.replicate 31 0)
    else do
      let sigScript := (unparseScript (removeOpcode script 0xab)).getD []
      let txCopy ← tx.clone
      let requestIndex := tx.getRequestMsgIndex
      let msgs := txCopy.messages.zipIdx.map fun (m, mIdx) =>
        blankScripts sigScript hashType msgIdx idx requestIndex mIdx m
      let msgs := msgs.zipIdx.map fun (m, mIdx) =>
        match m with
        | .payment pay => if mIdx = msgIdx then .payment (trimPayment hashType idx pay) else m
        | m => m
      { txCopy with messages := msgs }.encodeRLP
  | _ => none

/-- The byte string that a signature of an input is over, of the transaction or of its message
alone.
Source: `calcSignatureData` -/
def calcSignatureData (script : List ParsedOpcode) (hashType : UInt8) (otx : Transaction)
    (omsgIdx idx : Nat) : Option Bytes :=
  if hashType &&& 0x40 = 0x40 then do
    let msg ← otx.messages[omsgIdx]?
    let msg ← copyMessage msg
    signatureData script hashType ⟨[msg], [], false⟩ 0 idx
  else signatureData script hashType otx omsgIdx idx

/-- The address whose output the first input of message 0 spends; `some none` is an error.
Source: `dag/common/unit_repository.go`, `GetTxRequesterAddress` -/
def getTxRequesterAddress (P : Primitives) (getUtxoEntry : OutPoint → Option Utxo)
    (tx : Transaction) : Option (Option Address) := do
  match ← tx.txMessages with
  | [] => none
  | .payment pay :: _ =>
    match pay.inputs with
    | [] => none
    | input :: _ => some do
        let op ← input.previousOutPoint
        let utxo ← getUtxoEntry op
        getAddressFromScript P utxo.pkScript
  | _ :: _ => some none

/-! ### Signers of an unlocking script -/

/-- The opcodes in front of a parse error, or all of them.
Source: `parseScriptTemplate`, `retScript` -/
def parsedPart : Nat → Bytes → List ParsedOpcode
  | 0, _ => []
  | fuel + 1, script =>
    match parseOpcode script with
    | none => []
    | some (pop, rest) => pop :: parsedPart fuel rest

/-- A field of a disassembled script: the text `0`, or another one with the bytes that
`hex.DecodeString` returns for it, which are those in front of the first other character. -/
inductive Field where
  | zero
  | hex (b : Bytes)
  deriving DecidableEq

/-- The bytes that `hex.DecodeString` returns for a field. -/
def Field.bytes : Field → Bytes
  | .zero => []
  | .hex b => b

/-- The field of an opcode, none for an empty push. The numbers from 10 to 16 are texts of two
digits, the smaller ones have an odd length, and names start with `OP_`.
Source: `txscript/opcode.go`, `print` -/
def ParsedOpcode.field (pop : ParsedOpcode) : Option Field :=
  if opcodeLength pop.value ≠ 1 then if pop.data = [] then none else some (.hex pop.data)
  else if pop.value = 0 then some .zero
  else if 0x5a ≤ pop.value ∧ pop.value ≤ 0x60 then some (.hex [pop.value - 0x4a])
  else some (.hex [])

/-- The fields of a script; a parse error is a text behind the last opcode's one.
Source: `DisasmString`, split by `strings.Fields` -/
def disasmFields (script : Bytes) : List Field :=
  let pops := parsedPart script.length script
  if (parseScript script).isSome then pops.filterMap ParsedOpcode.field
  else
    pops.dropLast.filterMap ParsedOpcode.field ++
      [.hex (((pops.getLast?.bind ParsedOpcode.field).map Field.bytes).getD [])]

/-- The signatures of an unlocking script with their hash types: all fields but the last one, which
is the redeem script, and but `0`. `none` is a field without bytes.
Source: `tokenengine/api.go`, `GetScriptSigners`, first loop -/
def scriptSignatures (fields : List Field) : Option (List (Bytes × UInt8)) :=
  (fields.dropLast.filter (· ≠ .zero)).mapM fun op =>
    op.bytes.getLast?.map fun hashType => (op.bytes.dropLast, hashType)

/-- The redeem script of an unlocking script. -/
def redeemOf (fields : List Field) : Bytes :=
  (fields.getLast?.map Field.bytes).getD []

/-- The hash type of the last signature. -/
def hashTypeOf (signatures : List (Bytes × UInt8)) : UInt8 :=
  (signatures.getLast?.map Prod.snd).getD 0

/-- Who has signed an unlocking script: the keys of the redeem script that a signature of the script
verifies with. All signatures are checked with the hash type of the last one.
Source: `tokenengine/api.go`, `GetScriptSigners` -/
def getScriptSigners (P : Primitives) (tx : Transaction) (msgIdx inputIndex : Nat) :
    Option (List Address) := do
  match ← tx.messages[msgIdx]? with
  | .payment pay =>
    let input ← pay.inputs[inputIndex]?
    let ops := disasmFields input.signatureScript
    let redeem := redeemOf ops
    let signatures ← scriptSignatures ops
    let pubkeys := (disasmFields redeem).dropLast.dropLast.tail.map Field.bytes
    let hash ← match parseScript redeem with
      | none => some []
      | some script =>
        (calcSignatureData script (hashTypeOf signatures) tx msgIdx inputIndex).map P.cryptoHash
    some (signatures.flatMap fun (sign, _) =>
      (pubkeys.filter fun pubkey => P.verify pubkey sign hash = some true).map
        (pubkeyBytesToAddress P))
  | _ => none

end TxScript

end ZwsChain
