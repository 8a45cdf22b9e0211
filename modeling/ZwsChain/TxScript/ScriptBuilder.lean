import ZwsChain.TxScript.Parse

/-!
# Writing scripts

`tokenengine/internal/txscript/scriptbuilder.go`. The builder writes each element in its shortest
form. It refuses an element of more than 520 bytes and a script of more than 10000; after the first
refusal it writes nothing more, and its callers use what has been written until then.
Sources without a file are in `txscript/scriptbuilder.go`.
-/

namespace ZwsChain

namespace TxScript

/-- A push of `data` in its shortest form.
Source: `addData` -/
def addData (data : Bytes) : Bytes :=
  let d0 := data.getD 0 0
  if data.length = 0 ∨ data.length = 1 ∧ d0 = 0 then [0x00]
  else if data.length = 1 ∧ d0 ≤ 16 then [0x50 + d0]
  else if data.length = 1 ∧ d0 = 0x81 then [0x4f]
  else if data.length < 0x4c then UInt8.ofNat data.length :: data
  else if data.length ≤ 0xff then 0x4c :: leBytes 1 data.length ++ data
  else if data.length ≤ 0xffff then 0x4d :: leBytes 2 data.length ++ data
  else 0x4e :: leBytes 4 data.length ++ data

/-- Source: `canonicalDataSize` -/
def canonicalDataSize (data : Bytes) : Nat :=
  let d0 := data.getD 0 0
  if data.length = 0 then 1
  else if data.length = 1 ∧ d0 ≤ 16 then 1
  else if data.length = 1 ∧ d0 = 0x81 then 1
  else if data.length < 0x4c then 1 + data.length
  else if data.length ≤ 0xff then 2 + data.length
  else if data.length ≤ 0xffff then 3 + data.length
  else 5 + data.length

/-- Source: `ScriptBuilder` -/
structure ScriptBuilder where
  script : Bytes
  /-- An element has been refused. -/
  err : Bool

namespace ScriptBuilder

/-- Source: `NewScriptBuilder` -/
def new : ScriptBuilder := ⟨[], false⟩

/-- Source: `AddOp` -/
def addOp (b : ScriptBuilder) (opcode : UInt8) : ScriptBuilder :=
  if b.err then b
  else if b.script.length + 1 > 10000 then { b with err := true }
  else { b with script := b.script ++ [opcode] }

/-- Source: `AddData` -/
def addData (b : ScriptBuilder) (data : Bytes) : ScriptBuilder :=
  if b.err then b
  else if b.script.length + canonicalDataSize data > 10000 then { b with err := true }
  else if data.length > 520 then { b with err := true }
  else { b with script := b.script ++ TxScript.addData data }

end ScriptBuilder

end TxScript

end ZwsChain
