import ZwsChain.TxScript.Script

/-!
# The signature cache

A bounded set of signatures that have verified. The entry that makes room for a new one depends
on Go's map iteration order and on random bytes; both are a stream of choices here, so a result
about the cache holds for every eviction. `SigState` adds the record of the checks made, which
the code does not keep: it is what the soundness of the cache is stated over.
Sources without a file are in `txscript/sigcache.go`.
-/

namespace ZwsChain

namespace TxScript

/-- A cache entry.
Source: `sigInfo` -/
structure SigInfo where
  sigHash : Bytes
  sig : Bytes
  pubKey : Bytes
  deriving DecidableEq

/-- Source: `SigCache` -/
structure SigCache where
  validSigs : List SigInfo
  maxEntries : Nat
  /-- The random choices: `none` is a failed read of random bytes, `some i` picks an entry. -/
  rand : Nat → Option Nat
  /-- How many choices have been made. -/
  draws : Nat

namespace SigCache

/-- Source: `NewSigCache` -/
def new (maxEntries : Nat) (rand : Nat → Option Nat) : SigCache :=
  ⟨[], maxEntries, rand, 0⟩

/-- Source: `Exists` -/
def contains (s : SigCache) (sigHash sig pubKey : Bytes) : Bool :=
  s.validSigs.contains ⟨sigHash, sig, pubKey⟩

/-- Source: `Add` -/
def add (s : SigCache) (sigHash sig pubKey : Bytes) : SigCache :=
  if s.maxEntries = 0 then s
  else if s.validSigs.length + 1 > s.maxEntries then
    match s.rand s.draws with
    | none => { s with draws := s.draws + 1 }
    | some i =>
      { s with
        validSigs := (s.validSigs.eraseIdx (i % s.validSigs.length)).insert ⟨sigHash, sig, pubKey⟩
        draws := s.draws + 1 }
  else { s with validSigs := s.validSigs.insert ⟨sigHash, sig, pubKey⟩ }

/-- Adding an entry adds at most that entry. -/
lemma mem_add {s : SigCache} {sigHash sig pubKey : Bytes} {e : SigInfo}
    (h : e ∈ (s.add sigHash sig pubKey).validSigs) :
    e = ⟨sigHash, sig, pubKey⟩ ∨ e ∈ s.validSigs := by
  unfold add at h
  split at h
  · exact .inr h
  split at h
  · split at h
    · exact .inr h
    rcases List.mem_insert_iff.1 h with h | h
    · exact .inl h
    · exact .inr (List.mem_of_mem_eraseIdx h)
  · exact List.mem_insert_iff.1 h

end SigCache

/-- The input whose scripts are run. -/
structure Site where
  tx : Transaction
  msgIdx : Nat
  txIdx : Nat
  deriving DecidableEq

/-- A signature check that has been made, with its outcome. -/
structure SigCheck where
  site : Site
  pubKey : Bytes
  signature : Bytes
  data : Bytes
  valid : Bool
  deriving DecidableEq

/-- The cache an engine shares with others, and the checks made so far, newest first. -/
structure SigState where
  /-- `none` is an engine without a cache. -/
  cache : Option SigCache
  checks : List SigCheck

variable (P : Primitives)

/-- The common part of `OP_CHECKSIG` and `OP_CHECKMULTISIG`. The code declares
`var sigHash []byte` and copies the data into it, which copies nothing.
Source: `txscript/opcode.go`, `opcodeCheckSig` and `opcodeCheckMultiSig` -/
def checkSignature (site : Site) (pubKey signature data : Bytes) (s : SigState) :
    Bool × SigState :=
  let sigHash := copyInto 0 data
  let (valid, cache) := match s.cache with
    | none => (P.verify pubKey signature data == some true, none)
    | some c =>
      if c.contains sigHash signature pubKey then (true, some c)
      else if P.verify pubKey signature data = some true then
        (true, some (c.add sigHash signature pubKey))
      else (false, some c)
  (valid, ⟨cache, ⟨site, pubKey, signature, data, valid⟩ :: s.checks⟩)

end TxScript

end ZwsChain
