import ZwsChain.Dag.SaveTx
import ZwsChain.Validator.Accepted

/-!
# The developer gate

An install request must come from a developer: the address of the first output that message 0
spends has to be in the list of the deposit contract. The list is made with the length of the map
and appended to, so it begins with zero addresses; and the zero address is what a lock script
without an address gives.

* `gated_iff`: when only listed owners pass.
* `Unowned.passes`: a request that nobody owns passes.

Sources without a file are in `dag/storage/statedb.go`.
-/

open List Option

namespace ZwsChain

open TxScript

/-- Whether a lock script is of a kind that has exactly one address. -/
def TxScript.yieldsAddress (lockScript : Bytes) : Bool :=
  (parseScript lockScript).any fun pops =>
    isPubkey pops || isPubkeyHash pops || isScriptHash pops || isContractHash pops ||
      (isMultiSig pops && pops.length = 4)

lemma TxScript.yieldsAddress_of_ne_zero {P : Primitives} {script : Bytes} {addr : Address}
    (h : getAddressFromScript P script = some addr) (hne : addr ≠ FixedBytes.zero 21) :
    yieldsAddress script = true := by
  obtain ⟨pops, hpops, haddr⟩ := map_eq_some_iff.1 h
  rw [yieldsAddress, hpops, Option.any_some]
  by_contra hnone
  simp only [Bool.or_eq_true, not_or] at hnone
  obtain ⟨⟨⟨⟨hpubkey, hhash⟩, hscript⟩, hcontract⟩, hmulti⟩ := hnone
  simp only [hpubkey, hhash, hscript, hcontract, hmulti] at haddr
  exact hne haddr.symm

namespace Db

variable (P : Primitives) (unmarshal : Bytes → Option (List (Bytes × Bool))) (db : Db)

/-- The map of address texts in the state of the deposit contract.
Source: `GetContractDeveloperList`, the variable `depList` -/
def depList : Option (List (Bytes × Bool)) :=
  (db.getContractState depositContractAddress.bytes (ascii "DeveloperList")).bind fun v =>
    unmarshal v.value

/-- Source: `GetContractDeveloperList` -/
def getContractDeveloperList : Option (List Address) :=
  (db.depList unmarshal).map fun depList =>
    replicate depList.length (FixedBytes.zero 21) ++
      depList.filterMap fun e => stringToAddress P e.1

-- pins the instance that decides `∈`
local instance : LawfulBEq Address := inferInstance

/-- Source: `IsInContractDeveloperList` -/
def isInContractDeveloperList (address : Address) : Bool :=
  (db.getContractDeveloperList P unmarshal).any fun list => address ∈ list

/-- The address has its text in the list. -/
def Developer (address : Address) : Prop :=
  ∃ depList, db.depList unmarshal = some depList ∧
    ∃ e ∈ depList, stringToAddress P e.1 = some address

variable {P unmarshal db}

lemma isInContractDeveloperList_iff {address : Address} :
    db.isInContractDeveloperList P unmarshal address = true ↔
      db.Developer P unmarshal address ∨ address = FixedBytes.zero 21 ∧
        ∃ depList, db.depList unmarshal = some depList ∧ depList ≠ [] := by
  rw [isInContractDeveloperList, getContractDeveloperList, Developer]
  cases db.depList unmarshal with
  | none => simp
  | some depList => simp [mem_replicate, or_comm, and_comm]

end Db

/-- The output that the first input of message 0 spends.
Source: `dag/common/unit_repository.go`, `GetTxRequesterAddress`, the variable `utxo` -/
def Transaction.firstSpent (tx : Transaction) (db : Db) : Option Utxo :=
  match tx.txMessages with
  | some (.payment pay :: _) => do
      let input ← pay.inputs.head?
      let op ← input.previousOutPoint
      db.getUtxoEntry op
  | _ => none

lemma getTxRequesterAddress_eq_some {P : Primitives} {db : Db} {tx : Transaction} {addr : Address} :
    TxScript.getTxRequesterAddress P db.getUtxoEntry tx = some (some addr) ↔
      ∃ utxo, tx.firstSpent db = some utxo ∧ getAddressFromScript P utxo.pkScript = some addr := by
  rw [TxScript.getTxRequesterAddress, Transaction.firstSpent]
  cases tx.txMessages with
  | none => simp
  | some msgs =>
    cases msgs with
    | nil => simp
    | cons m msgs =>
      cases m with
      | payment pay =>
        simp only [do_some]
        cases pay.inputs with
        | nil => simp
        | cons input inputs =>
          simp only [head?_cons, do_some, some.injEq, bind_eq_bind, bind_eq_some_iff]
          constructor
          · rintro ⟨op, hop, utxo, hutxo, haddr⟩
            exact ⟨utxo, ⟨op, hop, hutxo⟩, haddr⟩
          · rintro ⟨utxo, ⟨op, hop, hutxo⟩, haddr⟩
            exact ⟨op, hop, utxo, hutxo, haddr⟩
      | _ => simp

namespace Validate

variable {V : Validate} {unmarshal : Bytes → Option (List (Bytes × Bool))} {db : Db}
  {tx : Transaction}

/-- The validator with the developer check, on a database.
Source: `dag/common/unit_repository.go`, `GetTxRequesterAddress`;
`dag/common/state_repository.go`, `IsContractDeveloper` -/
def withDevelopers (V : Validate) (unmarshal : Bytes → Option (List (Bytes × Bool))) (db : Db) :
    Validate :=
  { V with
    enableDeveloperCheck := true
    getDagUtxoEntry := db.getUtxoEntry
    isContractDeveloper := db.isInContractDeveloperList V.P unmarshal }

lemma checkTplRequest_withDevelopers {p : ContractInstallRequestPayload} :
    (V.withDevelopers unmarshal db).checkTplRequest tx p = some .valid ↔
      ¬ (p.tplName = [] ∨ p.path = [] ∨ p.version = []) ∧
        ∃ utxo, tx.firstSpent db = some utxo ∧ ∃ addr,
          getAddressFromScript V.P utxo.pkScript = some addr ∧
            db.isInContractDeveloperList V.P unmarshal addr = true := by
  rw [checkTplRequest]
  by_cases hp : p.tplName = [] ∨ p.path = [] ∨ p.version = []
  · simp [hp]
  rw [if_neg hp, and_iff_right hp, map_eq_some_iff]
  constructor
  · rintro ⟨addr, haddr, hcheck⟩
    cases addr with
    | none => cases hcheck
    | some addr =>
      obtain ⟨utxo, hspent, haddr⟩ := getTxRequesterAddress_eq_some.1 haddr
      refine ⟨utxo, hspent, addr, haddr, ?_⟩
      by_contra hno
      simp [withDevelopers, hno] at hcheck
  · rintro ⟨utxo, hspent, addr, haddr, hin⟩
    exact ⟨some addr, getTxRequesterAddress_eq_some.2 ⟨utxo, hspent, haddr⟩,
      by simp [withDevelopers, hin]⟩

/-- Install requests of the transaction pass the check of `validateTx` only if the first output has
an owner, and this is a developer. -/
def Gated (V : Validate) (unmarshal : Bytes → Option (List (Bytes × Bool))) (db : Db)
    (tx : Transaction) : Prop :=
  ∀ p, (V.withDevelopers unmarshal db).checkTplRequest tx p = some .valid →
    ∃ utxo addr, tx.firstSpent db = some utxo ∧ yieldsAddress utxo.pkScript ∧
      getAddressFromScript V.P utxo.pkScript = some addr ∧ db.Developer V.P unmarshal addr

/-- The zero address passes as soon as somebody is in the list. -/
theorem gated_iff : V.Gated unmarshal db tx ↔ ∀ utxo, tx.firstSpent db = some utxo →
    getAddressFromScript V.P utxo.pkScript = some (FixedBytes.zero 21) →
    (∃ depList, db.depList unmarshal = some depList ∧ depList ≠ []) →
    yieldsAddress utxo.pkScript ∧ db.Developer V.P unmarshal (FixedBytes.zero 21) := by
  constructor
  · intro h utxo hspent hzero hsome
    obtain ⟨utxo', addr, hspent', hyields, haddr, hlisted⟩ :=
      h ⟨[0], [], [0], [0], [], [], [], []⟩ (checkTplRequest_withDevelopers.2
        ⟨by decide, utxo, hspent, _, hzero,
          Db.isInContractDeveloperList_iff.2 (.inr ⟨rfl, hsome⟩)⟩)
    obtain rfl := some.inj (hspent.symm.trans hspent')
    obtain rfl := some.inj (hzero.symm.trans haddr)
    exact ⟨hyields, hlisted⟩
  intro h p hcheck
  obtain ⟨-, utxo, hspent, addr, haddr, hin⟩ := checkTplRequest_withDevelopers.1 hcheck
  refine ⟨utxo, addr, hspent, ?_⟩
  have hin := Db.isInContractDeveloperList_iff.1 hin
  by_cases hzero : addr = FixedBytes.zero 21
  · subst hzero
    have hsome : ∃ depList, db.depList unmarshal = some depList ∧ depList ≠ [] := by
      rcases hin with ⟨depList, hdep, e, he, -⟩ | ⟨-, hsome⟩
      · exact ⟨depList, hdep, ne_nil_of_mem he⟩
      · exact hsome
    obtain ⟨hyields, hlisted⟩ := h utxo hspent haddr hsome
    exact ⟨hyields, haddr, hlisted⟩
  · exact ⟨yieldsAddress_of_ne_zero haddr hzero, haddr, hin.resolve_right fun h => hzero h.1⟩

end Validate

namespace Unowned

open SmallNode

/-- Somebody is a developer, and an output has an empty lock script. -/
def db : Db :=
  { Db.empty with
    contractState := (∅ : Table Bytes ContractStateValue).insert
      (depositContractAddress.bytes ++ ascii "DeveloperList") ⟨[], ⟨none, 0⟩⟩
    utxos := (∅ : Table OutPoint Utxo).insert (outPoint 1) ⟨9, newPTNAsset, [], 0⟩ }

/-- An install request. -/
def request : ContractInstallRequestPayload :=
  ⟨[1], [], [1], [1], [], [], [], []⟩

/-- The request, paid with this output. -/
def tx : Transaction :=
  ⟨[.payment ⟨[⟨[], [], some (outPoint 1)⟩], [], 0⟩, .contractTplRequest request], [], false⟩

/-- Nobody owns the output, and the request passes. -/
theorem passes : ¬ node.Gated (fun _ => some [([], true)]) db tx := by
  intro h
  obtain ⟨utxo, -, hspent, hyields, -⟩ := h request (by decide +kernel)
  have hempty : (tx.firstSpent db).all fun utxo => !yieldsAddress utxo.pkScript := by
    decide +kernel
  rw [hspent, Option.all_some, hyields] at hempty
  cases hempty

end Unowned

end ZwsChain
