import ZwsChain.TxScript.SigCache

/-!
# The script engine

`tokenengine/internal/txscript/engine.go` and `opcode.go`, run as the token engine runs them: with
the flags `StandardVerifyExcludeSignFlags` (pay-to-script-hash, minimal pushes, strict multisig
dummy, discouraged no-ops, clean stack, lock time) and without the encoding flags, whose checks
then return at once.

Scripts have no jumps, so a script is run by recursion on its opcodes: `execScript` for one
script, `execute` for the unlocking script, the lock script and, for pay-to-script-hash and
pay-to-contract-hash, the redeem script. Stacks are lists with the top first. A failed run still
returns the signature state, since the cache outlives the engine.
Sources without a file are in `txscript/opcode.go`.
-/

namespace ZwsChain

namespace TxScript

/-- The error returns of the engine, and a runtime panic.
Source: `txscript/error.go` -/
inductive ScriptErr where
  | opDisabled | reservedOpcode | invalidOpcode | tooManyOperations | elementTooBig | minimalData
  | underflow | invalidArgs | numberTooBig | noIf | missingEndif | verifyFailed | overflow
  | nopReserved | lockTime | tooManyPubKeys | sigCount | multisigDummy | pickupJury
  | shortScript | longScript | p2shNonPushOnly | p2chNonPushOnly | invalidIndex | pastScripts
  | cleanStack | emptyStack | scriptFailed
  | panic
  deriving DecidableEq

/-! ### Numbers and stacks -/

/-- Source: `txscript/stack.go`, `asBool` -/
def asBool : Bytes → Bool
  | [] => false
  | [b] => b ≠ 0 && b ≠ 0x80
  | b :: bs => b ≠ 0 || asBool bs

/-- Source: `txscript/stack.go`, `fromBool` -/
def fromBool (v : Bool) : Bytes :=
  if v then [1] else []

/-- The little-endian bytes of a number without trailing zeros; `fuel` bounds their number. -/
def magnitude : Nat → Nat → Bytes
  | 0, _ => []
  | fuel + 1, n => if n = 0 then [] else UInt8.ofNat n :: magnitude fuel (n / 256)

/-- Source: `txscript/scriptnum.go`, `scriptNum.Bytes` -/
def scriptNumBytes (n : Int) : Bytes :=
  let result := magnitude 8 n.natAbs
  match result.getLast? with
  | none => []
  | some last =>
    if last &&& 0x80 ≠ 0 then result ++ [if n < 0 then 0x80 else 0x00]
    else if n < 0 then result.dropLast ++ [last ||| 0x80]
    else result

/-- Source: `txscript/scriptnum.go`, `checkMinimalDataEncoding` -/
def isMinimalNum (v : Bytes) : Bool :=
  match v.reverse with
  | [] => true
  | last :: rest =>
    if last &&& 0x7f = 0 then
      match rest with
      | [] => false
      | b :: _ => b &&& 0x80 ≠ 0
    else true

/-- Source: `txscript/scriptnum.go`, `makeScriptNum` with `requireMinimal` -/
def makeScriptNum (v : Bytes) (scriptNumLen : Nat) : Except ScriptErr Int :=
  if v.length > scriptNumLen then .error .numberTooBig
  else if !isMinimalNum v then .error .minimalData
  else match v.getLast? with
    | none => .ok 0
    | some last =>
      if last &&& 0x80 ≠ 0 then
        .ok (-(leNat (v.dropLast ++ [last &&& 0x7f]) : Int))
      else .ok (leNat v)

/-- Source: `txscript/scriptnum.go`, `Int32` -/
def int32 (n : Int) : Int :=
  max (-2147483648) (min 2147483647 n)

/-- The data stack and the alternate stack, tops first.
Source: `txscript/stack.go`, `stack` -/
structure Stacks where
  dstack : List Bytes
  astack : List Bytes

namespace Stacks

variable (s : Stacks)

/-- Source: `txscript/stack.go`, `PushByteArray` -/
def push (b : Bytes) : Stacks :=
  { s with dstack := b :: s.dstack }

/-- Source: `txscript/stack.go`, `PushInt` -/
def pushInt (n : Int) : Stacks :=
  s.push (scriptNumBytes n)

/-- Source: `txscript/stack.go`, `PushBool` -/
def pushBool (v : Bool) : Stacks :=
  s.push (fromBool v)

/-- Source: `txscript/stack.go`, `PopByteArray` -/
def pop : Except ScriptErr (Bytes × Stacks) :=
  match s.dstack with
  | [] => .error .underflow
  | b :: d => .ok (b, { s with dstack := d })

/-- Source: `txscript/stack.go`, `PopInt` -/
def popInt : Except ScriptErr (Int × Stacks) := do
  let (so, s) ← s.pop
  let n ← makeScriptNum so 4
  .ok (n, s)

/-- Source: `txscript/stack.go`, `PopBool` -/
def popBool : Except ScriptErr (Bool × Stacks) := do
  let (so, s) ← s.pop
  .ok (asBool so, s)

/-- Several pops, first popped first. -/
def popN : Nat → Stacks → Except ScriptErr (List Bytes × Stacks)
  | 0, s => .ok ([], s)
  | n + 1, s => do
      let (b, s) ← s.pop
      let (bs, s) ← popN n s
      .ok (b :: bs, s)

/-- An operation that rearranges the top `n` elements. -/
def permute (n : Nat) (f : List Bytes → List Bytes) (s : Stacks) : Except ScriptErr Stacks :=
  if s.dstack.length < n then .error .underflow
  else .ok { s with dstack := f (s.dstack.take n) ++ s.dstack.drop n }

/-- Source: `txscript/stack.go`, `DropN` -/
def dropN (n : Nat) : Stacks → Except ScriptErr Stacks := permute n fun _ => []

/-- Source: `txscript/stack.go`, `DupN` -/
def dupN (n : Nat) : Stacks → Except ScriptErr Stacks := permute n fun l => l ++ l

/-- Source: `txscript/stack.go`, `OverN` -/
def overN (n : Nat) : Stacks → Except ScriptErr Stacks := permute (2 * n) fun l => l.drop n ++ l

/-- Source: `txscript/stack.go`, `RotN` -/
def rotN (n : Nat) : Stacks → Except ScriptErr Stacks :=
  permute (3 * n) fun l => l.drop (2 * n) ++ l.take (2 * n)

/-- Source: `txscript/stack.go`, `SwapN` -/
def swapN (n : Nat) : Stacks → Except ScriptErr Stacks :=
  permute (2 * n) fun l => l.drop n ++ l.take n

/-- Source: `txscript/stack.go`, `NipN` of 1 -/
def nip : Stacks → Except ScriptErr Stacks := permute 2 fun l => l.take 1

/-- Source: `txscript/stack.go`, `Tuck` -/
def tuck : Stacks → Except ScriptErr Stacks := permute 2 fun l => l ++ l.take 1

/-- Source: `opcodePick` and `opcodeRoll` -/
def pickOrRoll (roll : Bool) (s : Stacks) : Except ScriptErr Stacks := do
  let (val, s) ← s.popInt
  let n := int32 val
  if n < 0 then .error .underflow
  else match s.dstack[n.toNat]? with
    | none => .error .underflow
    | some so => .ok { s with
        dstack := so :: if roll then s.dstack.eraseIdx n.toNat else s.dstack }

/-- Source: `opcodeVerify` -/
def verify : Except ScriptErr Stacks := do
  let (verified, s) ← s.popBool
  if verified then .ok s else .error .verifyFailed

/-- An opcode of one number. -/
def unaryInt (f : Int → Int) (s : Stacks) : Except ScriptErr Stacks := do
  let (m, s) ← s.popInt
  .ok (s.pushInt (f m))

/-- An opcode of two numbers; `v0` is the top of the stack. -/
def binaryInt (f : (v0 v1 : Int) → Int) (s : Stacks) : Except ScriptErr Stacks := do
  let (v0, s) ← s.popInt
  let (v1, s) ← s.popInt
  .ok (s.pushInt (f v0 v1))

/-- The number of a truth value. -/
def boolInt (b : Bool) : Int :=
  if b then 1 else 0

/-- Source: `opcodeWithin` -/
def within : Except ScriptErr Stacks := do
  let (maxVal, s) ← s.popInt
  let (minVal, s) ← s.popInt
  let (x, s) ← s.popInt
  .ok (s.pushInt (boolInt (minVal ≤ x ∧ x < maxVal)))

/-- Source: `opcodeEqual` -/
def equal : Except ScriptErr Stacks := do
  let (a, s) ← s.pop
  let (b, s) ← s.pop
  .ok (s.pushBool (a = b))

/-- An opcode that replaces the top by its hash. -/
def hashOp (f : Bytes → Bytes) (s : Stacks) : Except ScriptErr Stacks := do
  let (buf, s) ← s.pop
  .ok (s.push (f buf))

/-- Source: `opcodeIfDup` -/
def ifDup : Except ScriptErr Stacks :=
  match s.dstack with
  | [] => .error .underflow
  | so :: _ => .ok (if asBool so then s.push so else s)

/-- Source: `opcodeSize` -/
def size : Except ScriptErr Stacks :=
  match s.dstack with
  | [] => .error .underflow
  | so :: _ => .ok (s.pushInt so.length)

/-- Source: `opcodeToAltStack` -/
def toAlt : Except ScriptErr Stacks :=
  match s.dstack with
  | [] => .error .underflow
  | so :: d => .ok ⟨d, so :: s.astack⟩

/-- Source: `opcodeFromAltStack` -/
def fromAlt : Except ScriptErr Stacks :=
  match s.astack with
  | [] => .error .underflow
  | so :: a => .ok ⟨so :: s.dstack, a⟩

end Stacks

/-! ### The opcode table -/

/-- What an opcode does: work on the stacks alone, or one of the opcodes that read or change more
of the engine. -/
inductive OpFunc where
  | onStack (f : Stacks → Except ScriptErr Stacks)
  | cond (value : Bool)
  | condElse
  | condEndif
  | checkLockTimeVerify
  | codeSeparator
  | checkSig (verify : Bool)
  | checkMultiSig (verify : Bool)
  | checkJuryRedeemEqual

variable (P : Primitives)

open Stacks in
/-- The function of an opcode. `OP_RETURN` pushes false, and the two 256-bit hashes are both
Keccak.
Source: `opcodeArray` -/
def opfunc (op : ParsedOpcode) : OpFunc :=
  let v := op.value.toNat
  if v = 0x00 then .onStack fun s => .ok (s.push [])
  else if v ≤ 0x4e then .onStack fun s => .ok (s.push op.data)
  else if v = 0x4f then .onStack fun s => .ok (s.pushInt (-1))
  else if v = 0x50 then .onStack fun _ => .error .reservedOpcode
  else if v ≤ 0x60 then .onStack fun s => .ok (s.pushInt (v - 0x50))
  else match v with
    | 0x61 => .onStack .ok
    | 0x62 | 0x65 | 0x66 | 0x89 | 0x8a => .onStack fun _ => .error .reservedOpcode
    | 0x63 => .cond true
    | 0x64 => .cond false
    | 0x67 => .condElse
    | 0x68 => .condEndif
    | 0x69 => .onStack verify
    | 0x6a => .onStack fun s => .ok (s.push [])
    | 0x6b => .onStack toAlt
    | 0x6c => .onStack fromAlt
    | 0x6d => .onStack (dropN 2)
    | 0x6e => .onStack (dupN 2)
    | 0x6f => .onStack (dupN 3)
    | 0x70 => .onStack (overN 2)
    | 0x71 => .onStack (rotN 2)
    | 0x72 => .onStack (swapN 2)
    | 0x73 => .onStack ifDup
    | 0x74 => .onStack fun s => .ok (s.pushInt s.dstack.length)
    | 0x75 => .onStack (dropN 1)
    | 0x76 => .onStack (dupN 1)
    | 0x77 => .onStack nip
    | 0x78 => .onStack (overN 1)
    | 0x79 => .onStack (pickOrRoll false)
    | 0x7a => .onStack (pickOrRoll true)
    | 0x7b => .onStack (rotN 1)
    | 0x7c => .onStack (swapN 1)
    | 0x7d => .onStack tuck
    | 0x82 => .onStack Stacks.size
    | 0x87 => .onStack equal
    | 0x88 => .onStack fun s => s.equal >>= verify
    | 0x8b => .onStack (unaryInt fun m => m + 1)
    | 0x8c => .onStack (unaryInt fun m => m - 1)
    | 0x8f => .onStack (unaryInt fun m => -m)
    | 0x90 => .onStack (unaryInt fun m => |m|)
    | 0x91 => .onStack (unaryInt fun m => boolInt (m = 0))
    | 0x92 => .onStack (unaryInt fun m => boolInt (m ≠ 0))
    | 0x93 => .onStack (binaryInt fun v0 v1 => v0 + v1)
    | 0x94 => .onStack (binaryInt fun v0 v1 => v1 - v0)
    | 0x9a => .onStack (binaryInt fun v0 v1 => boolInt (v0 ≠ 0 ∧ v1 ≠ 0))
    | 0x9b => .onStack (binaryInt fun v0 v1 => boolInt (v0 ≠ 0 ∨ v1 ≠ 0))
    | 0x9c => .onStack (binaryInt fun v0 v1 => boolInt (v0 = v1))
    | 0x9d => .onStack fun s => s.binaryInt (fun v0 v1 => boolInt (v0 = v1)) >>= verify
    | 0x9e => .onStack (binaryInt fun v0 v1 => boolInt (v0 ≠ v1))
    | 0x9f => .onStack (binaryInt fun v0 v1 => boolInt (v1 < v0))
    | 0xa0 => .onStack (binaryInt fun v0 v1 => boolInt (v1 > v0))
    | 0xa1 => .onStack (binaryInt fun v0 v1 => boolInt (v1 ≤ v0))
    | 0xa2 => .onStack (binaryInt fun v0 v1 => boolInt (v1 ≥ v0))
    | 0xa3 => .onStack (binaryInt fun v0 v1 => if v1 < v0 then v1 else v0)
    | 0xa4 => .onStack (binaryInt fun v0 v1 => if v1 > v0 then v1 else v0)
    | 0xa5 => .onStack within
    | 0xa6 => .onStack (hashOp P.ripemd160)
    | 0xa7 => .onStack (hashOp P.sha1)
    | 0xa8 => .onStack (hashOp fun b => (P.sha3 b).val)
    | 0xa9 => .onStack (hashOp fun b => (P.hash160 b).val)
    | 0xaa => .onStack (hashOp fun b => (P.sha3 b).val)
    | 0xab => .codeSeparator
    | 0xac => .checkSig false
    | 0xad => .checkSig true
    | 0xae => .checkMultiSig false
    | 0xaf => .checkMultiSig true
    | 0xb1 => .checkLockTimeVerify
    | 0xb0 | 0xb2 | 0xb3 | 0xb4 | 0xb5 | 0xb6 | 0xb7 | 0xb8 | 0xb9 =>
      .onStack fun _ => .error .nopReserved
    | 0xc8 => .checkJuryRedeemEqual
    | _ => .onStack fun _ => .error .invalidOpcode

/-! ### The engine -/

/-- The branch of a conditional.
Source: `OpCondFalse`, `OpCondTrue`, `OpCondSkip` -/
inductive Cond where
  | isFalse | isTrue | skip
  deriving DecidableEq

/-- What an engine is made for: one input of one message, and the jury scripts it may ask for.
Source: `txscript/engine.go`, `NewEngine` -/
structure Target extends Site where
  pickupJuryRedeemScript : Address → Option Bytes

/-- The changing part of an engine.
Source: `txscript/engine.go`, `Engine` -/
structure Engine where
  stk : Stacks
  condStack : List Cond
  /-- The script being run and the position in it. -/
  script : List ParsedOpcode
  scriptOff : Nat
  lastCodeSep : Nat
  numOps : Nat
  sigs : SigState

namespace Engine

/-- Source: `txscript/engine.go`, `isBranchExecuting` -/
def isBranchExecuting (vm : Engine) : Bool :=
  match vm.condStack with
  | [] => true
  | c :: _ => c = .isTrue

/-- Source: `txscript/engine.go`, `subScript` -/
def subScript (vm : Engine) : List ParsedOpcode :=
  vm.script.drop vm.lastCodeSep

/-- Runs a stack operation. -/
def onStacks (vm : Engine) (f : Stacks → Except ScriptErr Stacks) : Engine × Option ScriptErr :=
  match f vm.stk with
  | .ok stk => ({ vm with stk }, none)
  | .error e => (vm, some e)

variable (t : Target) (vm : Engine)

/-- Source: `opcodeCheckSig` -/
def checkSig : Engine × Option ScriptErr :=
  match Stacks.popN 2 vm.stk with
  | .error e => (vm, some e)
  | .ok ([pkBytes, fullSigBytes], stk) =>
    match fullSigBytes.getLast? with
    | none => ({ vm with stk := stk.pushBool false }, none)
    | some hashType =>
      let subScript := removeOpcodeByData vm.subScript fullSigBytes
      match calcSignatureData subScript hashType t.tx t.msgIdx t.txIdx with
      | none => (vm, some .panic)
      | some data =>
        let (valid, sigs) :=
          checkSignature P t.toSite pkBytes fullSigBytes.dropLast data vm.sigs
        ({ vm with stk := stk.pushBool valid, sigs }, none)
  | .ok (_, _) => (vm, some .underflow)

/-- The loop that matches signatures with public keys, both in the order they were popped; a
signature that does not verify with a key is tried with the next one.
Source: `opcodeCheckMultiSig`, last loop -/
def multiSigLoop (script : List ParsedOpcode) :
    (pubKeys signatures : List Bytes) → SigState → Except ScriptErr Bool × SigState
  | _, [], s => (.ok true, s)
  | [], _ :: _, s => (.ok false, s)
  | pubKey :: pubKeys, rawSig :: signatures, s =>
    if signatures.length > pubKeys.length then (.ok false, s)
    else match rawSig.getLast? with
      | none => multiSigLoop script pubKeys (rawSig :: signatures) s
      | some hashType =>
        match calcSignatureData script hashType t.tx t.msgIdx t.txIdx with
        | none => (.error .panic, s)
        | some data =>
          let (valid, s) := checkSignature P t.toSite pubKey rawSig.dropLast data s
          multiSigLoop script pubKeys (if valid then signatures else rawSig :: signatures) s

/-- The arguments of `OP_CHECKMULTISIG`: public keys, signatures and what is left of the stacks.
Source: `opcodeCheckMultiSig`, first part -/
def multiSigArgs (numOps : Nat) (s : Stacks) :
    Except ScriptErr (List Bytes × List Bytes × Nat × Stacks) := do
  let (numKeys, s) ← s.popInt
  let numPubKeys := int32 numKeys
  if numPubKeys < 0 ∨ numPubKeys > 20 then .error .tooManyPubKeys
  else if numOps + numPubKeys.toNat > 201 then .error .tooManyOperations
  else do
    let (pubKeys, s) ← Stacks.popN numPubKeys.toNat s
    let (numSigs, s) ← s.popInt
    let numSignatures := int32 numSigs
    if numSignatures < 0 ∨ numSignatures > numPubKeys then .error .sigCount
    else do
      let (signatures, s) ← Stacks.popN numSignatures.toNat s
      let (dummy, s) ← s.pop
      if dummy.length ≠ 0 then .error .multisigDummy
      else .ok (pubKeys, signatures, numOps + numPubKeys.toNat, s)

/-- Source: `opcodeCheckMultiSig` -/
def checkMultiSig : Engine × Option ScriptErr :=
  match multiSigArgs vm.numOps vm.stk with
  | .error e => (vm, some e)
  | .ok (pubKeys, signatures, numOps, stk) =>
    let script := signatures.foldl removeOpcodeByData vm.subScript
    match multiSigLoop P t script pubKeys signatures vm.sigs with
    | (.error e, sigs) => ({ vm with sigs }, some e)
    | (.ok success, sigs) =>
      ({ vm with stk := stk.pushBool success, numOps, sigs }, none)

/-- Follows an opcode by `OP_VERIFY`. -/
def andVerify (r : Engine × Option ScriptErr) : Engine × Option ScriptErr :=
  match r with
  | (vm, none) => vm.onStacks Stacks.verify
  | (vm, some e) => (vm, some e)

/-- The lock time of message 0 against the top of the stack.
Source: `opcodeCheckLockTimeVerify` -/
def checkLockTimeVerify (s : Stacks) : Except ScriptErr Stacks :=
  match s.dstack with
  | [] => .error .underflow
  | so :: _ => do
      let lockTime ← makeScriptNum so 5
      if lockTime < 0 then .error .lockTime
      else match t.tx.txMessages with
        | some (.payment msg0 :: _) =>
          let txlockTime : Int := msg0.lockTime.toNat
          if ¬((txlockTime < 500000000 ∧ lockTime < 500000000) ∨
              (txlockTime ≥ 500000000 ∧ lockTime ≥ 500000000)) then .error .lockTime
          else if lockTime > txlockTime then .error .lockTime
          else .ok s
        | _ => .error .panic

/-- The redeem script on the stack against the jury's; for a system contract there is no
comparison.
Source: `opcodeCheckJuryRedeemEqual` -/
def checkJuryRedeemEqual (s : Stacks) : Except ScriptErr Stacks := do
  let (contractHash, s) ← s.pop
  let (redeemScript, s) ← s.pop
  let addr := newAddress contractHash .contractHash
  if addr.isSystemContractAddress then .ok (s.pushBool true)
  else match t.pickupJuryRedeemScript addr with
    | none => .error .pickupJury
    | some dbRedeem => .ok (s.pushBool (dbRedeem = redeemScript))

/-- Source: `opcodeIf` and `opcodeNotIf` -/
def condOp (value : Bool) : Engine × Option ScriptErr :=
  if vm.isBranchExecuting then
    match vm.stk.popBool with
    | .error e => (vm, some e)
    | .ok (ok, stk) =>
      let c := if ok = value then Cond.isTrue else .isFalse
      ({ vm with stk, condStack := c :: vm.condStack }, none)
  else ({ vm with condStack := .skip :: vm.condStack }, none)

/-- Source: `opcodeElse` -/
def condElse : Engine × Option ScriptErr :=
  match vm.condStack with
  | [] => (vm, some .noIf)
  | .isTrue :: cs => ({ vm with condStack := .isFalse :: cs }, none)
  | .isFalse :: cs => ({ vm with condStack := .isTrue :: cs }, none)
  | .skip :: _ => (vm, none)

/-- Source: `opcodeEndif` -/
def condEndif : Engine × Option ScriptErr :=
  match vm.condStack with
  | [] => (vm, some .noIf)
  | _ :: cs => ({ vm with condStack := cs }, none)

/-- Runs the function of an opcode. -/
def runOp : OpFunc → Engine × Option ScriptErr
  | .onStack f => vm.onStacks f
  | .cond value => vm.condOp value
  | .condElse => vm.condElse
  | .condEndif => vm.condEndif
  | .checkLockTimeVerify => vm.onStacks (checkLockTimeVerify t)
  | .codeSeparator => ({ vm with lastCodeSep := vm.scriptOff }, none)
  | .checkSig verify => if verify then andVerify (vm.checkSig P t) else vm.checkSig P t
  | .checkMultiSig verify =>
    if verify then andVerify (vm.checkMultiSig P t) else vm.checkMultiSig P t
  | .checkJuryRedeemEqual => vm.onStacks (checkJuryRedeemEqual t)

end Engine

variable (pop : ParsedOpcode)

/-- Source: `isDisabled` -/
def ParsedOpcode.isDisabled : Bool :=
  [0x7e, 0x7f, 0x80, 0x81, 0x83, 0x84, 0x85, 0x86, 0x8d, 0x8e, 0x95, 0x96, 0x97, 0x98,
    0x99].contains pop.value

/-- Source: `alwaysIllegal` -/
def ParsedOpcode.alwaysIllegal : Bool :=
  pop.value = 0x65 || pop.value = 0x66

/-- Source: `isConditional` -/
def ParsedOpcode.isConditional : Bool :=
  pop.value = 0x63 || pop.value = 0x64 || pop.value = 0x67 || pop.value = 0x68

/-- Source: `checkMinimalDataPush` -/
def ParsedOpcode.isMinimalPush : Bool :=
  let data := pop.data
  let d0 := data.getD 0 0
  if data.length = 0 ∧ pop.value ≠ 0 then false
  else if data.length = 1 ∧ 1 ≤ d0 ∧ d0 ≤ 16 then pop.value = 0x51 + d0 - 1
  else if data.length = 1 ∧ d0 = 0x81 then pop.value = 0x4f
  else if data.length ≤ 75 then pop.value.toNat = data.length
  else if data.length ≤ 255 then pop.value = 0x4c
  else if data.length ≤ 65535 then pop.value = 0x4d
  else true

namespace Engine

variable (t : Target)

/-- Source: `txscript/engine.go`, `executeOpcode` -/
def executeOpcode (pop : ParsedOpcode) (vm : Engine) : Engine × Option ScriptErr :=
  if pop.isDisabled then (vm, some .opDisabled)
  else if pop.alwaysIllegal then (vm, some .reservedOpcode)
  else
    let vm := if pop.value > 0x60 then { vm with numOps := vm.numOps + 1 } else vm
    if pop.value > 0x60 ∧ vm.numOps > 201 then (vm, some .tooManyOperations)
    else if pop.value ≤ 0x60 ∧ pop.data.length > 520 then (vm, some .elementTooBig)
    else if !vm.isBranchExecuting && !pop.isConditional then (vm, none)
    else if vm.isBranchExecuting && pop.value ≤ 0x4e && !pop.isMinimalPush then
      (vm, some .minimalData)
    else vm.runOp P t (opfunc P pop)

/-- Runs the opcodes of a script from a position on.
Source: `txscript/engine.go`, `Step` inside a script -/
def execOpcodes : List ParsedOpcode → Engine → Engine × Option ScriptErr
  | [], vm => (vm, none)
  | pop :: rest, vm =>
    match vm.executeOpcode P t pop with
    | (vm, some e) => (vm, some e)
    | (vm, none) =>
      if vm.stk.dstack.length + vm.stk.astack.length > 1000 then (vm, some .overflow)
      else execOpcodes rest { vm with scriptOff := vm.scriptOff + 1 }

/-- Runs a script from its start. Conditionals must be closed in it; the alternate stack does not
outlive it. An empty script is skipped.
Source: `txscript/engine.go`, `Step` up to the end of a script -/
def execScript (script : List ParsedOpcode) (vm : Engine) : Engine × Option ScriptErr :=
  if script = [] then (vm, none)
  else
    match execOpcodes P t script
      { vm with script, scriptOff := 0, lastCodeSep := 0, numOps := 0 } with
    | (vm, some e) => (vm, some e)
    | (vm, none) =>
      if vm.condStack ≠ [] then (vm, some .missingEndif)
      else ({ vm with stk := { vm.stk with astack := [] } }, none)

/-- Source: `txscript/engine.go`, `CheckErrorCondition` -/
def checkErrorCondition (vm : Engine) (finalScript : Bool) : Option ScriptErr :=
  if finalScript ∧ vm.stk.dstack.length ≠ 1 then some .cleanStack
  else match vm.stk.dstack with
    | [] => some .emptyStack
    | v :: _ => if asBool v then none else some .scriptFailed

/-- The redeem script: the last element the unlocking script pushed, run on the others.
Source: `txscript/engine.go`, `Step` after the lock script of a script hash or contract hash -/
def execRedeem (savedFirstStack : List Bytes) (vm : Engine) : Engine × Option ScriptErr :=
  match savedFirstStack with
  | [] => (vm, some .panic)
  | script :: rest =>
    match parseScript script with
    | none => (vm, some .shortScript)
    | some pops => execScript P t pops { vm with stk := { vm.stk with dstack := rest } }

/-- Runs the scripts of an input.
Source: `txscript/engine.go`, `Execute` -/
def execute (scriptSig scriptPubKey : List ParsedOpcode) (hashed : Bool) (sigs : SigState) :
    SigState × Option ScriptErr :=
  let vm : Engine := ⟨⟨[], []⟩, [], [], 0, 0, 0, sigs⟩
  if scriptSig = [] ∧ scriptPubKey = [] then (sigs, some .pastScripts)
  else match execScript P t scriptSig vm with
    | (vm, some e) => (vm.sigs, some e)
    | (vm, none) =>
      let savedFirstStack := vm.stk.dstack
      match execScript P t scriptPubKey vm with
      | (vm, some e) => (vm.sigs, some e)
      | (vm, none) =>
        if hashed then
          match vm.checkErrorCondition false with
          | some e => (vm.sigs, some e)
          | none =>
            match execRedeem P t savedFirstStack vm with
            | (vm, some e) => (vm.sigs, some e)
            | (vm, none) => (vm.sigs, vm.checkErrorCondition true)
        else (vm.sigs, vm.checkErrorCondition true)

/-- Makes an engine for an input and runs it.
Source: `txscript/engine.go`, `NewEngine` and `Execute` -/
def run (scriptPubKey : Bytes) (sigs : SigState) : SigState × Option ScriptErr :=
  match t.tx.messages[t.msgIdx]? with
  | some (.payment pay) =>
    match pay.inputs[t.txIdx]? with
    | none => (sigs, some .invalidIndex)
    | some input =>
      if input.signatureScript.length > 10000 ∨ scriptPubKey.length > 10000 then
        (sigs, some .longScript)
      else match parseScript input.signatureScript, parseScript scriptPubKey with
        | some pops, some pkPops =>
          if isScriptHash pkPops ∧ !isPushOnly pops then (sigs, some .p2shNonPushOnly)
          else if isContractHash pkPops ∧ !isPushOnly pops then
            (sigs, some .p2chNonPushOnly)
          else execute P t pops pkPops (isScriptHash pkPops || isContractHash pkPops) sigs
        | _, _ => (sigs, some .shortScript)
  | _ => (sigs, some .panic)

end Engine

end TxScript

end ZwsChain
