import Mathlib
import ZwsChain.TxScript.Engine

/-!
# What a shared signature cache proves

Executions share one cache. `SigStep` says once what an execution can do to the signature state:
make one check, of some key and signature, against the signature data of its own input; every
opcode, script and execution is a sequence of such steps (`Engine.run_sigs`).

* `CacheInv`: every cache entry stands for an accepted check that verified. This holds along every
  run (`runAll_inv`), whatever is evicted.
* `sigCache_sound`: if no execution presents a key and signature that an earlier check accepted
  for other data, `OP_CHECKSIG` pushes true and `OP_CHECKMULTISIG` counts signatures only if they
  verify against the data of the input being executed.
* `sigCache_crosses_transactions`: without that, a signature of one transaction is accepted for
  another one. The cache key is the empty byte string in place of the data, since the code copies
  the data into a nil slice.
-/

open List Option

namespace ZwsChain

namespace TxScript

variable (P : Primitives)

/-! ### What an execution does to the signature state -/

/-- One check against the signature data of the input being executed. -/
inductive SigStep (t : Target) : SigState → SigState → Prop
  | check (s : SigState) (pubKey signature data : Bytes) (script : List ParsedOpcode)
      (hashType : UInt8) (h : calcSignatureData script hashType t.tx t.msgIdx t.txIdx = some data) :
      SigStep t s (checkSignature P t.toSite pubKey signature data s).2

/-- A sequence of checks. -/
abbrev SigSteps (t : Target) : SigState → SigState → Prop :=
  Relation.ReflTransGen (SigStep P t)

namespace Engine

variable {P} {t : Target}

lemma onStacks_sigs (vm : Engine) (f : Stacks → Except ScriptErr Stacks) :
    (vm.onStacks f).1.sigs = vm.sigs := by
  unfold onStacks
  split <;> rfl

lemma andVerify_sigs (r : Engine × Option ScriptErr) : (andVerify r).1.sigs = r.1.sigs := by
  rcases r with ⟨vm, _ | e⟩
  · exact onStacks_sigs vm _
  · rfl

lemma checkSig_sigs (vm : Engine) : SigSteps P t vm.sigs (vm.checkSig P t).1.sigs := by
  unfold checkSig
  split
  · exact .refl
  · split
    · exact .refl
    rename_i pkBytes fullSigBytes _ _ _ hashType _
    dsimp only
    split
    · exact .refl
    · rename_i data hdata
      exact .single (.check _ pkBytes fullSigBytes.dropLast data _ hashType hdata)
  · exact .refl

lemma multiSigLoop_sigs (script : List ParsedOpcode) (pubKeys signatures : List Bytes)
    (s : SigState) : SigSteps P t s (multiSigLoop P t script pubKeys signatures s).2 := by
  -- each round drops a public key
  induction pubKeys generalizing signatures s with
  | nil => cases signatures <;> exact .refl
  | cons pubKey pubKeys ih =>
    cases signatures with
    | nil => exact .refl
    | cons rawSig signatures =>
      unfold multiSigLoop
      split
      · exact .refl
      split
      · exact ih _ s
      rename_i hashType _
      split
      · exact .refl
      · rename_i data hdata
        exact .head (.check s pubKey rawSig.dropLast data script hashType hdata) (ih _ _)

lemma checkMultiSig_sigs (vm : Engine) : SigSteps P t vm.sigs (vm.checkMultiSig P t).1.sigs := by
  unfold checkMultiSig
  split
  · exact .refl
  rename_i pubKeys signatures _ _ _
  have h := multiSigLoop_sigs (P := P) (t := t) (signatures.foldl removeOpcodeByData vm.subScript)
    pubKeys signatures vm.sigs
  dsimp only
  split
  · rename_i e sigs heq
    rw [heq] at h
    exact h
  rename_i success sigs heq
  rw [heq] at h
  exact h

lemma runOp_sigs (vm : Engine) (op : OpFunc) : SigSteps P t vm.sigs (vm.runOp P t op).1.sigs := by
  cases op with
  | onStack f => rw [runOp, onStacks_sigs]
  | cond value =>
    rw [runOp, condOp]
    split
    · split <;> rfl
    · rfl
  | condElse =>
    rw [runOp, condElse]
    split <;> rfl
  | condEndif =>
    rw [runOp, condEndif]
    split <;> rfl
  | checkLockTimeVerify => rw [runOp, onStacks_sigs]
  | codeSeparator => exact .refl
  | checkJuryRedeemEqual => rw [runOp, onStacks_sigs]
  | checkSig verify =>
    rw [runOp]
    split
    · rw [andVerify_sigs]
      exact checkSig_sigs vm
    · exact checkSig_sigs vm
  | checkMultiSig verify =>
    rw [runOp]
    split
    · rw [andVerify_sigs]
      exact checkMultiSig_sigs vm
    · exact checkMultiSig_sigs vm

lemma executeOpcode_sigs (pop : ParsedOpcode) (vm : Engine) :
    SigSteps P t vm.sigs (vm.executeOpcode P t pop).1.sigs := by
  unfold executeOpcode
  split
  · exact .refl
  split
  · exact .refl
  have hsigs : (if pop.value > 0x60 then { vm with numOps := vm.numOps + 1 } else vm).sigs =
      vm.sigs := by
    split <;> rfl
  generalize (if pop.value > 0x60 then { vm with numOps := vm.numOps + 1 } else vm) = vm' at hsigs
  rw [← hsigs]
  dsimp only
  split
  · exact .refl
  split
  · exact .refl
  split
  · exact .refl
  split
  · exact .refl
  · exact runOp_sigs vm' _

lemma execOpcodes_sigs (pops : List ParsedOpcode) (vm : Engine) :
    SigSteps P t vm.sigs (execOpcodes P t pops vm).1.sigs := by
  induction pops generalizing vm with
  | nil => exact .refl
  | cons pop rest ih =>
    have h := executeOpcode_sigs (P := P) (t := t) pop vm
    unfold execOpcodes
    split
    · rename_i vm' e heq
      rw [heq] at h
      exact h
    rename_i vm' heq
    rw [heq] at h
    split
    · exact h
    · exact h.trans (ih { vm' with scriptOff := vm'.scriptOff + 1 })

lemma execScript_sigs (script : List ParsedOpcode) (vm : Engine) :
    SigSteps P t vm.sigs (execScript P t script vm).1.sigs := by
  unfold execScript
  split
  · exact .refl
  have h := execOpcodes_sigs (P := P) (t := t) script
    { vm with script, scriptOff := 0, lastCodeSep := 0, numOps := 0 }
  split
  · rename_i heq
    rw [heq] at h
    exact h
  rename_i heq
  rw [heq] at h
  split
  · exact h
  · exact h

lemma execRedeem_sigs (saved : List Bytes) (vm : Engine) :
    SigSteps P t vm.sigs (execRedeem P t saved vm).1.sigs := by
  unfold execRedeem
  split
  · exact .refl
  split
  · exact .refl
  · rename_i rest _ pops _
    exact execScript_sigs pops { vm with stk := { vm.stk with dstack := rest } }

lemma execute_sigs (scriptSig scriptPubKey : List ParsedOpcode) (hashed : Bool) (sigs : SigState) :
    SigSteps P t sigs (execute P t scriptSig scriptPubKey hashed sigs).1 := by
  unfold execute
  dsimp only
  split
  · exact .refl
  have h₀ := execScript_sigs (P := P) (t := t) scriptSig ⟨⟨[], []⟩, [], [], 0, 0, 0, sigs⟩
  split
  · rename_i heq
    rw [heq] at h₀
    exact h₀
  rename_i vm heq
  rw [heq] at h₀
  have h₁ := execScript_sigs (P := P) (t := t) scriptPubKey vm
  split
  · rename_i heq₁
    rw [heq₁] at h₁
    exact h₀.trans h₁
  rename_i vm₁ heq₁
  rw [heq₁] at h₁
  split
  · split
    · exact h₀.trans h₁
    have h₂ := execRedeem_sigs (P := P) (t := t) vm.stk.dstack vm₁
    split
    · rename_i heq₂
      rw [heq₂] at h₂
      exact (h₀.trans h₁).trans h₂
    rename_i heq₂
    rw [heq₂] at h₂
    exact (h₀.trans h₁).trans h₂
  · exact h₀.trans h₁

/-- An execution makes checks against the data of its own input, and changes the signature state
in no other way. -/
lemma run_sigs (lockScript : Bytes) (sigs : SigState) :
    SigSteps P t sigs (run P t lockScript sigs).1 := by
  unfold run
  split
  · split
    · exact .refl
    split
    · exact .refl
    split
    · split
      · exact .refl
      split
      · exact .refl
      · exact execute_sigs _ _ _ _
    · exact .refl
  · exact .refl

end Engine

/-! ### Runs -/

/-- One script execution: an input with the lock script it spends. -/
structure Execution where
  target : Target
  lockScript : Bytes

/-- Executions one after the other, over one signature state. -/
def runAll (s : SigState) : List Execution → SigState
  | [] => s
  | e :: es => runAll (Engine.run P e.target e.lockScript s).1 es

/-- The signature state of a token engine that has checked nothing yet.
Source: `tokenengine/api.go`, `Instance` -/
def freshSigState (maxEntries : Nat) (rand : Nat → Option Nat) : SigState :=
  ⟨some (SigCache.new maxEntries rand), []⟩

/-- A check is of the same key and signature as another. -/
def SigCheck.samePair (c c' : SigCheck) : Prop :=
  c.pubKey = c'.pubKey ∧ c.signature = c'.signature

/-- Every cache entry stands for an accepted check that verified. -/
def CacheInv (s : SigState) : Prop :=
  ∀ c ∈ s.cache, ∀ e ∈ c.validSigs, ∃ c' ∈ s.checks, c'.valid = true ∧ c'.pubKey = e.pubKey ∧
    c'.signature = e.sig ∧ P.verify c'.pubKey c'.signature c'.data = some true

variable {P}

lemma cacheInv_fresh (maxEntries : Nat) (rand : Nat → Option Nat) :
    CacheInv P (freshSigState maxEntries rand) := by
  intro c hc e he
  obtain rfl : SigCache.new maxEntries rand = c := by simpa [freshSigState] using hc
  simp [SigCache.new] at he

section CheckSignature

variable (site : Site) (pubKey signature data : Bytes) (s : SigState)

/-- A check is accepted from the cache or because it verifies. -/
lemma verify_or_contains (h : (checkSignature P site pubKey signature data s).1 = true) :
    P.verify pubKey signature data = some true ∨
      ∃ c, s.cache = some c ∧ c.contains [] signature pubKey = true := by
  unfold checkSignature at h
  cases hs : s.cache with
  | none =>
    left
    simpa [hs] using h
  | some c =>
    simp only [hs, copyInto, take_zero] at h
    by_cases hc : c.contains [] signature pubKey = true
    · exact .inr ⟨c, rfl, hc⟩
    left
    by_contra hver
    simp [hc, hver] at h

/-- The cache changes only by the entry of an accepted check that verifies. -/
lemma cache_checkSignature :
    (checkSignature P site pubKey signature data s).2.cache = s.cache ∨
      ∃ c, s.cache = some c ∧ P.verify pubKey signature data = some true ∧
        (checkSignature P site pubKey signature data s).1 = true ∧
        (checkSignature P site pubKey signature data s).2.cache =
          some (c.add [] signature pubKey) := by
  unfold checkSignature
  cases hs : s.cache with
  | none => exact .inl rfl
  | some c =>
    dsimp only [copyInto, take_zero]
    split_ifs with hc hv
    · exact .inl rfl
    · exact .inr ⟨c, rfl, hv, rfl, rfl⟩
    · exact .inl rfl

end CheckSignature

variable {t : Target} {s s' : SigState}

/-- One check keeps the invariant. -/
lemma SigStep.inv (hstep : SigStep P t s s') (h : CacheInv P s) : CacheInv P s' := by
  obtain ⟨pubKey, signature, data, script, hashType, hdata⟩ := hstep
  intro c hc e he
  rcases cache_checkSignature t.toSite pubKey signature data s with
    heq | ⟨c₀, hs, hver, hvalid, heq⟩
  · rw [heq] at hc
    obtain ⟨c', hc', hrest⟩ := h c hc e he
    exact ⟨c', mem_cons_of_mem _ hc', hrest⟩
  rw [heq] at hc
  obtain rfl := mem_some_iff.1 hc
  rcases SigCache.mem_add he with rfl | he
  · -- the entry just added is the check just made, which verified
    exact ⟨_, mem_cons_self, hvalid, rfl, rfl, hver⟩
  · obtain ⟨c', hc', hrest⟩ := h c₀ hs e he
    exact ⟨c', mem_cons_of_mem _ hc', hrest⟩

/-- Checks keep the invariant, and the record of the checks before them. -/
lemma SigSteps.inv (hsteps : SigSteps P t s s') (h : CacheInv P s) :
    CacheInv P s' ∧ s.checks <:+ s'.checks := by
  induction hsteps with
  | refl => exact ⟨h, suffix_rfl⟩
  | tail _ hstep ih =>
    refine ⟨hstep.inv ih.1, ih.2.trans ?_⟩
    obtain ⟨pubKey, signature, data, script, hashType, hdata⟩ := hstep
    exact suffix_cons _ _

/-- The invariant holds after every run. -/
lemma runAll_inv (es : List Execution) (h : CacheInv P s) : CacheInv P (runAll P s es) := by
  induction es generalizing s with
  | nil => exact h
  | cons e es ih => exact ih ((Engine.run_sigs e.lockScript s).inv h).1

/-- No check presents a key and signature that an earlier check accepted for other data. -/
def NoReuse (checks : List SigCheck) : Prop :=
  checks.Pairwise fun c earlier =>
    earlier.valid = true → c.samePair earlier → c.data = earlier.data

/-- An accepted check verifies, unless it repeats one for other data. -/
lemma verify_of_accepted {site : Site} {pubKey signature data : Bytes} (hinv : CacheInv P s)
    (hno : NoReuse (checkSignature P site pubKey signature data s).2.checks)
    (h : (checkSignature P site pubKey signature data s).1 = true) :
    P.verify pubKey signature data = some true := by
  rcases verify_or_contains site pubKey signature data s h with hver | ⟨c, hs, hc⟩
  · exact hver
  obtain ⟨c', hc', hval, hpk, hsig, hver⟩ := hinv c hs _ (List.contains_iff_mem.1 hc)
  have hdata := (pairwise_cons.1 hno).1 c' hc' hval ⟨hpk.symm, hsig.symm⟩
  rwa [hpk, hsig, ← hdata] at hver

/-- `crypto.Verify` holds for a key and a signature with its hash type, and the signature data of
the input for a script. -/
def Verified (P : Primitives) (t : Target) (script : List ParsedOpcode) (pubKey rawSig : Bytes) :
    Prop :=
  ∃ hashType data, rawSig.getLast? = some hashType ∧
    calcSignatureData script hashType t.tx t.msgIdx t.txIdx = some data ∧
    P.verify pubKey rawSig.dropLast data = some true

/-- Signatures that are all counted verify, each with a key of its own. -/
lemma verified_of_multiSigLoop {script : List ParsedOpcode} {pubKeys signatures : List Bytes}
    (hinv : CacheInv P s)
    (hno : NoReuse (Engine.multiSigLoop P t script pubKeys signatures s).2.checks)
    (h : (Engine.multiSigLoop P t script pubKeys signatures s).1 = .ok true) :
    ∃ keys, keys <+ pubKeys ∧ Forall₂ (Verified P t script) keys signatures := by
  -- each round drops a public key
  induction pubKeys generalizing signatures s with
  | nil =>
    cases signatures with
    | nil => exact ⟨[], .slnil, .nil⟩
    | cons rawSig signatures => cases h
  | cons pubKey pubKeys ih =>
    cases signatures with
    | nil => exact ⟨[], nil_sublist _, .nil⟩
    | cons rawSig signatures =>
      unfold Engine.multiSigLoop at h hno
      split at h
      · cases h
      rename_i hlen
      rw [if_neg hlen] at hno
      split at h
      · rename_i hlast
        rw [hlast] at hno
        obtain ⟨keys, hkeys, hall⟩ := ih hinv hno h
        exact ⟨keys, hkeys.cons pubKey, hall⟩
      rename_i hashType hlast
      simp only [hlast] at hno
      split at h
      · cases h
      rename_i data hdata
      simp only [hdata] at hno
      have hstep : SigStep P t s (checkSignature P t.toSite pubKey rawSig.dropLast data s).2 :=
        .check s pubKey rawSig.dropLast data script hashType hdata
      have hinv' := hstep.inv hinv
      have hno' : NoReuse (checkSignature P t.toSite pubKey rawSig.dropLast data s).2.checks :=
        hno.sublist (SigSteps.inv (Engine.multiSigLoop_sigs _ _ _ _) hinv').2.sublist
      obtain ⟨keys, hkeys, hall⟩ := ih hinv' hno h
      split at hall
      · rename_i hvalid
        refine ⟨pubKey :: keys, hkeys.cons_cons pubKey, .cons ?_ hall⟩
        exact ⟨hashType, data, hlast, hdata, verify_of_accepted hinv hno' hvalid⟩
      · exact ⟨keys, hkeys.cons pubKey, hall⟩

lemma dstack_of_popN_two {stk stk' : Stacks} {x y : Bytes}
    (h : Stacks.popN 2 stk = .ok ([x, y], stk')) : stk.dstack = x :: y :: stk'.dstack := by
  obtain ⟨_ | ⟨a, _ | ⟨b, rest⟩⟩, astack⟩ := stk
  · cases h
  · cases h
  · cases h
    rfl

/-- Signatures are sound over every sequence of executions that share a cache, as long as no
execution presents a key and signature already accepted for other data. Wherever the next execution
stands, `OP_CHECKSIG` pushes true only if the signature verifies against the signature data of the
input being executed, and `OP_CHECKMULTISIG` only if all signatures do, with different keys. -/
theorem sigCache_sound (P : Primitives) (maxEntries : Nat) (rand : Nat → Option Nat)
    (es : List Execution) (t : Target) {vm vm' : Engine}
    (hvm : SigSteps P t (runAll P (freshSigState maxEntries rand) es) vm.sigs)
    (hno : NoReuse vm'.sigs.checks) {rest : List Bytes}
    (hpush : vm'.stk.dstack = fromBool true :: rest) :
    (vm.checkSig P t = (vm', none) → ∃ pubKey rawSig, vm.stk.dstack = pubKey :: rawSig :: rest ∧
      Verified P t (removeOpcodeByData vm.subScript rawSig) pubKey rawSig) ∧
    (vm.checkMultiSig P t = (vm', none) → ∃ pubKeys signatures numOps stk keys,
      Engine.multiSigArgs vm.numOps vm.stk = .ok (pubKeys, signatures, numOps, stk) ∧
      keys <+ pubKeys ∧
      Forall₂ (Verified P t (signatures.foldl removeOpcodeByData vm.subScript)) keys
        signatures) := by
  have hinv := (hvm.inv (runAll_inv es (cacheInv_fresh maxEntries rand))).1
  have hbool : ∀ {stk : Stacks} {b : Bool}, (stk.pushBool b).dstack = fromBool true :: rest →
      b = true ∧ stk.dstack = rest := by
    rintro stk (_ | _) h
    · exact absurd (cons.inj h).1 (by decide)
    · exact ⟨rfl, (cons.inj h).2⟩
  constructor
  · intro h
    unfold Engine.checkSig at h
    split at h
    · cases h
    · rename_i pubKey rawSig stk hpop
      split at h
      · cases h
        exact absurd (hbool hpush).1 nofun
      rename_i hashType hlast
      dsimp only at h
      split at h
      · cases h
      rename_i data hdata
      cases h
      obtain ⟨hvalid, rfl⟩ := hbool hpush
      refine ⟨pubKey, rawSig, dstack_of_popN_two hpop, hashType, data, hlast, hdata, ?_⟩
      exact verify_of_accepted hinv hno hvalid
    · cases h
  · intro h
    unfold Engine.checkMultiSig at h
    split at h
    · cases h
    rename_i pubKeys signatures numOps stk hargs
    dsimp only at h
    split at h
    · cases h
    rename_i success sigs hloop
    cases h
    obtain ⟨rfl, -⟩ := hbool hpush
    obtain ⟨keys, hkeys, hall⟩ := verified_of_multiSigLoop hinv (by rw [hloop]; exact hno)
      (by rw [hloop])
    exact ⟨pubKeys, signatures, numOps, stk, keys, hargs, hkeys, hall⟩

/-! ### Two payments, one signature -/

namespace TwoPayments

/-- The owner's public key. -/
def pubKey : Bytes := List.replicate 33 2

/-- The owner's signature of the payment of 1. -/
def signature : Bytes := [0xaa, 0xbb]

/-- A payment of `value` from an output of the owner, unlocked by the signature with hash type
`SigHashAll`. -/
def payment (value : UInt64) : Transaction :=
  ⟨[.payment ⟨[⟨3 :: signature ++ [1], [], some ⟨newSelfHash, 0, 0⟩⟩],
    [⟨value, [0x51], newPTNAsset⟩], 0⟩], [], false⟩

/-- The owner's lock script: the public key and `OP_CHECKSIG`. -/
def lockScript : Bytes := 0x21 :: pubKey ++ [0xac]

/-- The opcodes of the lock script. -/
def lockPops : List ParsedOpcode := [⟨0x21, pubKey⟩, ⟨0xac, []⟩]

/-- The data the owner signed: that of the payment of 1. -/
def signedData : Bytes :=
  (calcSignatureData lockPops 1 (payment 1) 0 0).getD []

/-- Primitives in which the signature is one of the payment of 1 and of nothing else. -/
def primitives : Primitives where
  sha3 _ := FixedBytes.zero 32
  hash160 _ := FixedBytes.zero 20
  ripemd160 b := b
  sha1 b := b
  verify pk sig data := some (pk == pubKey && sig == signature && data == signedData)
  checkEncode b _ := b
  checkDecode _ := none
  cryptoHash b := b

/-- The execution that unlocks the owner's output in the payment of `value`. -/
def execution (value : UInt64) : Execution :=
  ⟨⟨⟨payment value, 0, 0⟩, fun _ => none⟩, lockScript⟩

/-- An engine at the `OP_CHECKSIG` of the lock script, after the payment of 1 has been executed
once. -/
def again : Engine :=
  ⟨⟨[pubKey, signature ++ [1]], []⟩, [], lockPops, 1, 0, 1,
    runAll primitives (freshSigState 20000 fun _ => some 0) [execution 1]⟩

end TwoPayments

open TwoPayments in
/-- The payment of 1 is executed again: its signature is accepted from the cache, and verifies. -/
theorem sigCache_sound_payment :
    (again.checkSig primitives (execution 1).target).1.stk.dstack = [fromBool true] ∧
      Verified primitives (execution 1).target lockPops pubKey (signature ++ [1]) := by
  have hpush : (again.checkSig primitives (execution 1).target).1.stk.dstack = [fromBool true] := by
    decide +kernel
  have hnone : (again.checkSig primitives (execution 1).target).2 = none := by decide +kernel
  have hno : NoReuse (again.checkSig primitives (execution 1).target).1.sigs.checks := by
    have hchecks : (again.checkSig primitives (execution 1).target).1.sigs.checks =
        replicate 2 ⟨(execution 1).target.toSite, pubKey, signature, signedData, true⟩ := by
      decide +kernel
    rw [hchecks]
    exact pairwise_replicate.2 (.inr fun _ _ => rfl)
  have hvm : SigSteps primitives (execution 1).target
      (runAll primitives (freshSigState 20000 fun _ => some 0) [execution 1]) again.sigs := by
    rw [again]
  have hpair : ∀ r : Engine × Option ScriptErr, r.2 = none → r = (r.1, none) := by
    rintro ⟨_, _⟩ rfl
    rfl
  obtain ⟨pubKey', rawSig, hstack, hver⟩ :=
    (sigCache_sound _ _ _ _ _ hvm hno hpush).1 (hpair _ hnone)
  obtain ⟨rfl, rfl⟩ : pubKey = pubKey' ∧ signature ++ [1] = rawSig := by
    simpa [again] using hstack
  have hscript : removeOpcodeByData again.subScript (signature ++ [1]) = lockPops := by
    decide +kernel
  rw [hscript] at hver
  exact ⟨hpush, hver⟩

open TwoPayments in
/-- After the payment of 1 has been executed, the payment of 2 is accepted with its signature,
which does not verify for it. -/
theorem sigCache_crosses_transactions :
    let first := Engine.run primitives (execution 1).target lockScript
      (freshSigState 20000 fun _ => some 0)
    let second := Engine.run primitives (execution 2).target lockScript first.1
    first.2 = none ∧ second.2 = none ∧
      second.1.checks = (runAll primitives (freshSigState 20000 fun _ => some 0)
        [execution 1, execution 2]).checks ∧
      ∃ c ∈ second.1.checks, c.site = (execution 2).target.toSite ∧ c.valid = true ∧
        primitives.verify c.pubKey c.signature c.data = some false := by
  decide +kernel

end TxScript

end ZwsChain
