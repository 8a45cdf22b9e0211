import ZwsChain.Validator.CoinbaseAgreement
import ZwsChain.Validator.DoubleSpend

/-!
# The coinbase of a unit, produced and validated

Producer and validator start from the same state and the same transactions. Their fee allocations
are the same but for the address of the mediator (`UnitFees.same_shares`), which the validator
fills in later. But the validator adds the reward for the unit in PTN and even if it is zero, where
the producer adds it in the gas token and only if it is positive; it gives the author of the unit
what a fee allocation gives the zero address; and its comparisons expect one asset for each
address.

* `coinbase_agreed_iff`: the coinbase is accepted, in every iteration order of the maps involved,
  iff the additions of both sides match.
* `gas_token_rejected`: a chain with another gas token than PTN, whose coinbases are rejected.
-/

open List Option

namespace ZwsChain

open SmallNode Producer
open TxScript (SigState)

/-! ### The fee under two stores -/

namespace Transaction

variable {P : Primitives} {tx : Transaction} {queryUtxo queryUtxo' : OutPoint → Option Utxo}

/-- The outpoints that the fee is computed from: those of message 0. -/
def feeOutPoints (tx : Transaction) : List OutPoint :=
  (tx.messages.take 1).flatMap Message.outPoints

lemma feeInputs_congr {inputs : List Input}
    (h : ∀ op ∈ inputs.filterMap Input.previousOutPoint, queryUtxo op = queryUtxo' op)
    (inAmount : UInt64) (feeAsset : Option Asset) :
    feeInputs queryUtxo inputs inAmount feeAsset =
      feeInputs queryUtxo' inputs inAmount feeAsset := by
  induction inputs generalizing inAmount feeAsset with
  | nil => rfl
  | cons txin rest ih =>
    rw [feeInputs, feeInputs]
    cases hop : txin.previousOutPoint with
    | none =>
      refine ih (fun op hmem => h op ?_) _ _
      rwa [filterMap_cons_none hop]
    | some op =>
      rw [filterMap_cons_some hop] at h
      have hrest := ih fun op hmem => h op (mem_cons_of_mem _ hmem)
      simp only [h op mem_cons_self, hrest]

/-- The fee depends on the outpoints of message 0 only. -/
lemma getTxFee_congr (h : ∀ op ∈ tx.feeOutPoints, queryUtxo op = queryUtxo' op) :
    tx.getTxFee queryUtxo = tx.getTxFee queryUtxo' := by
  rw [getTxFee, getTxFee]
  split
  · rfl
  · next payload rest hmsgs =>
      have hinputs : ∀ op ∈ payload.inputs.filterMap Input.previousOutPoint,
          queryUtxo op = queryUtxo' op := by
        intro op hop
        refine h op ?_
        rw [feeOutPoints, hmsgs]
        simpa [Message.outPoints] using hop
      rw [feeAmounts, feeAmounts, feeInputs_congr hinputs]
  · rfl

variable {utxos allUtxo : List (OutPoint × Utxo)}

/-- The outputs that a transaction creates are of its own id. -/
lemma txHash_of_mem_getNewUtxos {txHash : Hash} (hid : tx.hash P = some txHash)
    (h : tx.getNewUtxos P = some utxos) {x : OutPoint × Utxo} (hx : x ∈ utxos) :
    x.1.txHash = txHash := by
  simp only [getNewUtxos, hid, do_some, some.injEq] at h
  subst h
  obtain ⟨⟨m, i⟩, -, hx⟩ := mem_flatMap.1 hx
  cases m with
  | payment p =>
    obtain ⟨o, -, rfl⟩ := List.mem_map.1 hx
    rfl
  | _ => cases hx

section

variable (h : tx.getNewUtxos P = some utxos)
  (hself : ∀ op ∈ tx.feeOutPoints, tx.hash P ≠ some op.txHash)
include h hself

/-- Own outputs laid over the store do not change the fee of a transaction that does not name
itself. -/
lemma getTxFee_ownUtxos :
    (tx.getTxFee fun op => ((utxos.reverse ++ allUtxo).lookup op).or (queryUtxo op)) =
      tx.getTxFee fun op => (allUtxo.lookup op).or (queryUtxo op) := by
  obtain ⟨txHash, hid, -⟩ := do_eq_some.1 h
  refine getTxFee_congr fun op hop => ?_
  have hnone : utxos.reverse.lookup op = none := by
    refine lookup_eq_none_iff.2 fun x hx => ?_
    have hx := txHash_of_mem_getNewUtxos hid h (mem_reverse.1 hx)
    refine bne_iff_ne.2 fun heq => hself op hop ?_
    rw [hid, heq, hx]
  rw [lookup_append, hnone, none_or]

end

end Transaction

open Transaction

/-! ### The fees of a unit -/

namespace Validate

variable {V : Validate} {C : UnitContext} {db : Db} {unitAuthor : Address}
variable {sigs : SigState} {tx : Transaction} {s s' : UnitState} {fees : List Addition}
  {txs : List Transaction}

/-- The allocation that comes with the verdict on a valid transaction. -/
lemma txFee_of_validateTx {isFullTx : Bool} {r : TxResult}
    (h : V.validateTx tx isFullTx sigs = some r) (hr : r.code = .valid) :
    V.validateTxFeeValid tx = some (true, r.txFee) := by
  simp only [validateTx, do_eq_some] at h
  obtain ⟨-, -, msgs, -, h⟩ := h
  split at h
  · simp only [do_eq_some] at h
    obtain ⟨⟨pass, txFee⟩, hfee, h⟩ := h
    cases pass with
    | false =>
      obtain rfl := some.inj h
      cases hr
    | true =>
      -- from here on every verdict carries the allocation
      suffices txFee = r.txFee by rw [hfee, this]
      simp only [Bool.not_true, Bool.false_eq_true, if_false, do_eq_some] at h
      obtain ⟨size, -, h⟩ := h
      split at h
      · exact congrArg TxResult.txFee (some.inj h)
      split at h
      · exact congrArg TxResult.txFee (some.inj h)
      · obtain ⟨code, -, h⟩ := do_eq_some.1 h
        exact congrArg TxResult.txFee (some.inj h)
  · obtain rfl := some.inj h
    cases hr

/-- What a transaction outside the cache adds to the fees and the outputs of the unit. -/
lemma validateUnitTx_fees {i : Nat} {txId : Hash}
    (h : V.validateUnitTx C unitAuthor tx i s = some (.ok s')) (hid : tx.hash V.P = some txId)
    (hcache : s.cache txId = none) :
    ∃ txFee utxos, (V.withUnitUtxo s.unitUtxo).validateTxFeeValid tx = some (true, txFee) ∧
      tx.getNewUtxos V.P = some utxos ∧
      s'.ads = s.ads ++ txFee.map (toAuthor unitAuthor) ∧
      s'.unitUtxo = utxos.reverse ++ s.unitUtxo ∧ ∀ x ≠ txId, s'.cache x = s.cache x := by
  simp only [validateUnitTx, do_eq_some] at h
  obtain ⟨⟨r, cache⟩, hr, h⟩ := h
  split at h
  · cases h
  rename_i hvalid
  obtain ⟨ops, -, h⟩ := do_eq_some.1 h
  split at h
  · cases h
  obtain ⟨utxos, hutxos, h⟩ := do_eq_some.1 h
  cases h
  have hid' : tx.hash (V.withUnitUtxo s.unitUtxo).P = some txId := hid
  simp only [validateTxAndCache, hid', hcache, do_some, do_eq_some] at hr
  obtain ⟨r', hr', hr⟩ := hr
  split at hr
  · next hcode =>
      obtain ⟨rfl, rfl⟩ := Prod.mk.inj (some.inj hr)
      exact ⟨r'.txFee, utxos, txFee_of_validateTx hr' hcode, hutxos, rfl, rfl,
        fun x hx => Function.update_of_ne hx _ _⟩
  next hcode =>
    cases hr
    exact absurd (not_not.1 hvalid) hcode

/-- What the producer shares out for the transactions of a unit.
Source: `dag/common/unit_repository.go`, `CreateUnit`, the variable `ads` -/
def producerFees (V : Validate) (unitAuthor : Address) (txs : List Transaction)
    (allUtxo : List (OutPoint × Utxo)) :
    Option (Except Transaction.FeeError (List Addition)) :=
  computeTxFeesAllocate V.P V.getUtxoEntry V.fl V.contractFeeJuryPercent
    V.getScriptSigners unitAuthor V.getJurorReward txs allUtxo

/-- Along a run of the validator's loop both sides share out the same fees. -/
lemma UnitRun.exists_shares (hcheck : V.enableTxFeeCheck = true) {n : Nat} (hn : n ≠ 0)
    (hrun : UnitRun V C unitAuthor (txs.zipIdx n) s s')
    (hfees : V.producerFees unitAuthor txs s.unitUtxo = some (.ok fees))
    (hids : (txs.map fun tx => tx.hash V.P).Nodup)
    (hcache : ∀ tx ∈ txs, ∀ txId, tx.hash V.P = some txId → s.cache txId = none)
    (hself : ∀ tx ∈ txs, ∀ op ∈ tx.feeOutPoints, tx.hash V.P ≠ some op.txHash) :
    ∃ shares : List FeeShare, fees = shares.flatMap (FeeShare.additions unitAuthor) ∧
      s'.ads = s.ads ++ (shares.flatMap (FeeShare.additions (FixedBytes.zero 21))).map
        (toAuthor unitAuthor) := by
  induction txs generalizing n s fees with
  | nil =>
    cases hrun
    cases hfees
    exact ⟨[], rfl, (append_nil _).symm⟩
  | cons tx rest ih =>
    cases hrun with
    | coinbase => exact absurd rfl hn
    | @cons _ _ _ _ s₁ _ _ hstep hrest =>
      obtain ⟨txId, hone⟩ := validateUnitTx_ok hstep
      obtain ⟨txFee, utxos, hvalid, hutxos, hads, hunit, hkept⟩ :=
        validateUnitTx_fees hstep hone.hash (hcache tx mem_cons_self txId hone.hash)
      -- the validator's allocation is the producer's, with the zero address for the mediator's
      have hallocation := (validateTxFeeValid_eq_some_iff.1 hvalid).2.2.1
      erw [if_pos hcheck] at hallocation
      obtain ⟨share, hshare⟩ := exists_share_of_feeAllocate _ _ _ _ _ hallocation
      obtain rfl : txFee = share.additions (FixedBytes.zero 21) :=
        Except.ok.inj (some.inj (hallocation.symm.trans (hshare _)))
      -- the producer computes the fee with the outputs of the transaction laid over
      have hproducer := hshare unitAuthor
      simp only [feeAllocate, withUnitUtxo] at hproducer
      simp only [producerFees, computeTxFeesAllocate, hutxos, getTxFeeAllocate, feeAllocate,
        getTxFee_ownUtxos hutxos (hself tx mem_cons_self), hproducer, do_some, do_eq_some] at hfees
      obtain ⟨more, hmore, hfees⟩ := hfees
      rcases more with e | more
      · cases hfees
      cases hfees
      obtain ⟨hnew, hids⟩ := nodup_cons.1 hids
      have hcache' : ∀ tx' ∈ rest, ∀ txId', tx'.hash V.P = some txId' →
          s₁.cache txId' = none := by
        intro tx' htx' txId' hid'
        have hne : txId' ≠ txId := by
          rintro rfl
          exact hnew (List.mem_map.2 ⟨tx', htx', hid'.trans hone.hash.symm⟩)
        rw [hkept txId' hne]
        exact hcache tx' (mem_cons_of_mem _ htx') txId' hid'
      obtain ⟨shares, rfl, hads'⟩ := ih n.succ_ne_zero hrest (hunit ▸ hmore) hids hcache'
        fun tx' htx' => hself tx' (mem_cons_of_mem _ htx')
      exact ⟨share :: shares, rfl, by rw [hads', hads]; simp⟩

/-- The fees of a unit on both sides: what the producer shares out, and where the validator's loop
over the transactions behind the coinbase ends. -/
structure UnitFees (V : Validate) (C : UnitContext) (unitAuthor : Address)
    (txs : List Transaction) (cache : ValidatorCache) (sigs : SigState) (fees : List Addition)
    (s : UnitState) : Prop where
  producer : V.producerFees unitAuthor txs [] = some (.ok fees)
  validator : V.validateUnitTxs C unitAuthor (txs.zipIdx 1) ⟨[], [], [], cache, sigs⟩ =
    some (.ok s)

/-- With an empty cache, both sides share out the same fees if the ids of the transactions are
distinct and none names itself; the validator has the zero address in place of the mediator's, and
replaces it by the author's also where a juror is paid at it. -/
theorem UnitFees.same_shares (h : UnitFees V C unitAuthor txs (fun _ => none) sigs fees s)
    (hcheck : V.enableTxFeeCheck = true) (hids : (txs.map fun tx => tx.hash V.P).Nodup)
    (hself : ∀ tx ∈ txs, ∀ op ∈ tx.feeOutPoints, tx.hash V.P ≠ some op.txHash) :
    ∃ shares : List FeeShare, fees = shares.flatMap (FeeShare.additions unitAuthor) ∧
      s.ads = (shares.flatMap (FeeShare.additions (FixedBytes.zero 21))).map
        (toAuthor unitAuthor) :=
  (unitRun_of_ok h.validator).exists_shares hcheck one_ne_zero h.producer hids
    (fun _ _ _ _ => rfl) hself

/-! ### Agreement -/

/-- What the validator expects for its fees, before the order of its map.
Source: `validator/validator.go`, `validateTransactions`, the variable `out` -/
def expectedAdditions (C : UnitContext) (unitAuthor : Address) (fees : List Addition) :
    List Addition :=
  arrangeAdditionFeeList (fees ++ [⟨unitAuthor, C.generateUnitReward, newPTNAsset⟩])

/-- What the producer rewards for its fees, before the order of its map. -/
def outAds (V : Validate) (C : UnitContext) (unitAuthor : Address) (fees : List Addition) :
    List Addition :=
  producerAdditions unitAuthor C.generateUnitReward V.gasToken fees

/-- Whatever order the maps are iterated in, the coinbase that the producer builds for `fees` is
accepted by the check that the validator runs for `fees'`. -/
def CoinbaseAccepted (V : Validate) (C : UnitContext) (db : Db) (rewardHeight height : UInt64)
    (unitAuthor : Address) (fees fees' : List Addition) : Prop :=
  ∀ (outputOrder clearOrder : Iteration Address (List AmountAsset)) (ads : List Addition)
    (iterate : List Addition → List Addition) (tx : Transaction) (total : UInt64),
    ads.Perm (outAds V C unitAuthor fees) → (∀ l, (iterate l).Perm l) →
    (Producer.mk V.P C.ofMalformed rewardHeight outputOrder clearOrder).createCoinbase db ads
      height = some (.ok (tx, total)) →
    (V.onDb db).validateCoinbase C.ofMalformed tx
      (unitAdditions { C with iterate } unitAuthor fees') = some .valid

/-- The coinbase that the producer builds for transactions is accepted by the check that the
validator runs once it has found the transactions valid. -/
def CoinbaseAgreed (V : Validate) (C : UnitContext) (db : Db) (rewardHeight height : UInt64)
    (unitAuthor : Address) (txs : List Transaction) (cache : ValidatorCache) (sigs : SigState) :
    Prop :=
  ∀ fees s, UnitFees (V.onDb db) C unitAuthor txs cache sigs fees s →
    CoinbaseAccepted V C db rewardHeight height unitAuthor fees s.ads

/-- The additions of both sides match, given what is recorded in the state. -/
def AdditionsMatch (V : Validate) (C : UnitContext) (db : Db) (rewardHeight height : UInt64)
    (ads ads' : List Addition) : Prop :=
  if height % rewardHeight = 0 then
    ∀ addrMap,
      db.getContractStatesByPrefix coinbaseContractId rewardAddressPrefix = some addrMap →
      PaymentAgrees (storedRewards V.P C.ofMalformed addrMap) ads ads'
  else
    ∀ p ∈ ads, ∀ v ∈ ads', p.addr = v.addr →
      Compatible ((V.onDb db).incomeOf C.ofMalformed p.addr) p v

/-- Brings an addition to the end of the list. -/
def moveLast (v : Addition) (l : List Addition) : List Addition :=
  if v ∈ l then l.erase v ++ [v] else l

lemma moveLast_perm (v : Addition) (l : List Addition) : (moveLast v l).Perm l := by
  rw [moveLast]
  split
  · rename_i hmem
    exact (perm_append_singleton v _).trans (perm_cons_erase hmem).symm
  · exact .refl l

section Agreed

variable {rewardHeight height : UInt64}  {fees fees' : List Addition}

/-- The fees of both sides are determined by the transactions. -/
lemma coinbaseAgreed_iff_accepted {cache : ValidatorCache}
    (hunit : UnitFees (V.onDb db) C unitAuthor txs cache sigs fees s) :
    CoinbaseAgreed V C db rewardHeight height unitAuthor txs cache sigs ↔
      CoinbaseAccepted V C db rewardHeight height unitAuthor fees s.ads := by
  constructor
  · intro h
    exact h fees s hunit
  intro h fees' s' hunit'
  obtain rfl := Except.ok.inj (some.inj (hunit.producer.symm.trans hunit'.producer))
  obtain rfl := Except.ok.inj (some.inj (hunit.validator.symm.trans hunit'.validator))
  exact h

/-- At a payout height. -/
lemma coinbaseAccepted_payment_iff (h58 : V.P.Base58RoundTrip) (hheight : rewardHeight ≠ 0)
    (hknown : ∀ p ∈ outAds V C unitAuthor fees, p.addr.hasKnownType)
    (hpay : height % rewardHeight = 0) :
    CoinbaseAccepted V C db rewardHeight height unitAuthor fees fees' ↔
      ∀ addrMap,
        db.getContractStatesByPrefix coinbaseContractId rewardAddressPrefix = some addrMap →
        PaymentAgrees (storedRewards V.P C.ofMalformed addrMap) (outAds V C unitAuthor fees)
          (expectedAdditions C unitAuthor fees') := by
  constructor
  · intro h addrMap haddr
    let R : Producer := ⟨V.P, C.ofMalformed, rewardHeight, .listed _ _, .listed _ _⟩
    obtain ⟨⟨tx, total⟩, htx⟩ :
        ∃ r, R.createCoinbasePayment db (outAds V C unitAuthor fees) = .ok r := by
      rw [createCoinbasePayment, haddr]
      exact ⟨_, rfl⟩
    refine (validateCoinbase_payment_iff haddr h58 rfl hknown htx).1 ?_
    refine h (.listed _ _) (.listed _ _) _ id tx total (.refl _) (fun l => .refl l) ?_
    rw [createCoinbase, if_neg hheight, if_pos hpay, htx]
  intro h outputOrder clearOrder ads iterate tx total hads hiterate htx
  rw [createCoinbase, if_neg hheight, if_pos hpay, some.injEq] at htx
  rcases haddr : db.getContractStatesByPrefix coinbaseContractId rewardAddressPrefix with
    _ | addrMap
  · rw [createCoinbasePayment, haddr] at htx
    cases htx
  have hknown' : ∀ p ∈ ads, p.addr.hasKnownType :=
    fun p hp => hknown p (hads.mem_iff.1 hp)
  exact (validateCoinbase_payment_iff haddr h58 rfl hknown' htx).2
    ((h addrMap haddr).perm hads.symm (hiterate _).symm)

/-- At another height. Any expected addition of an address can come last in the iteration. -/
lemma coinbaseAccepted_state_iff (h58 : V.P.Base58RoundTrip) (hheight : rewardHeight ≠ 0)
    (hfits : ∀ p ∈ outAds V C unitAuthor fees, (encodeIncome (addIncome
      ((V.onDb db).incomeOf C.ofMalformed p.addr) p.amount p.asset)).length < 2 ^ 64)
    (hpay : height % rewardHeight ≠ 0) :
    CoinbaseAccepted V C db rewardHeight height unitAuthor fees fees' ↔
      ∀ p ∈ outAds V C unitAuthor fees, ∀ v ∈ expectedAdditions C unitAuthor fees',
        p.addr = v.addr → Compatible ((V.onDb db).incomeOf C.ofMalformed p.addr) p v := by
  constructor
  · intro h p hp v hv hpv
    let R : Producer := ⟨V.P, C.ofMalformed, rewardHeight, .listed _ _, .listed _ _⟩
    have hvalid := h (.listed _ _) (.listed _ _) _ (moveLast v) _ _ (.refl _) (moveLast_perm v)
      (by rw [createCoinbase, if_neg hheight, if_neg hpay])
    refine (validateCoinbase_state_iff (R := R) h58 rfl hfits).1 hvalid p hp v ?_
    show ((moveLast v (expectedAdditions C unitAuthor fees')).filter _).getLast? = some v
    rw [moveLast, if_pos hv, filter_append]
    simp [hpv]
  intro h outputOrder clearOrder ads iterate tx total hads hiterate htx
  rw [createCoinbase, if_neg hheight, if_neg hpay, some.injEq, Except.ok.injEq] at htx
  obtain rfl := (Prod.mk.inj htx).1
  have hfits' := fun p hp => hfits p (hads.mem_iff.1 hp)
  refine (validateCoinbase_state_iff (R := ⟨V.P, C.ofMalformed, rewardHeight, _, _⟩) h58 rfl
    hfits').2 fun p hp v hlast => ?_
  obtain ⟨hv, hpv⟩ := mem_filter.1 (mem_of_getLast? hlast)
  exact h p (hads.mem_iff.1 hp) v ((hiterate _).mem_iff.1 hv) (of_decide_eq_true hpv).symm

/-- The producer's coinbase for valid transactions is accepted, in every iteration order of the
maps, iff the additions of both sides match. -/
theorem coinbase_agreed_iff {txs : List Transaction} {cache : ValidatorCache} {sigs : SigState}
    {s : UnitState} (hunit : UnitFees (V.onDb db) C unitAuthor txs cache sigs fees s)
    (h58 : V.P.Base58RoundTrip) (hheight : rewardHeight ≠ 0)
    (hknown : ∀ p ∈ outAds V C unitAuthor fees, p.addr.hasKnownType)
    (hfits : ∀ p ∈ outAds V C unitAuthor fees, (encodeIncome (addIncome
      ((V.onDb db).incomeOf C.ofMalformed p.addr) p.amount p.asset)).length < 2 ^ 64) :
    CoinbaseAgreed V C db rewardHeight height unitAuthor txs cache sigs ↔
      AdditionsMatch V C db rewardHeight height (outAds V C unitAuthor fees)
        (expectedAdditions C unitAuthor s.ads) := by
  rw [coinbaseAgreed_iff_accepted hunit, AdditionsMatch]
  by_cases hpay : height % rewardHeight = 0
  · rw [if_pos hpay]
    exact coinbaseAccepted_payment_iff h58 hheight hknown hpay
  · rw [if_neg hpay]
    exact coinbaseAccepted_state_iff h58 hheight hfits hpay

end Agreed

/-! ### Another gas token -/

namespace SecondUnit

/-- The producer of the units. -/
def author : Address :=
  ⟨List.replicate 20 3 ++ [0], by decide⟩

/-- An asset other than PTN. -/
def otherToken : AssetId :=
  ⟨[0x40, 0x00, 0x82, 0xBB, 0x09, 0, 0, 0, 0, 0, 0, 0, 0, 0, 0, 0], rfl⟩

/-- A node of a chain with a gas token. -/
def node (gasToken : AssetId) : Validate :=
  { SmallNode.node with gasToken }

/-- The reward for a unit is 5. -/
def context : UnitContext where
  generateUnitReward := 5
  ofMalformed _ := []
  reread := some
  iterate := id
  object := id

/-- The state after a first unit: its reward is recorded for the author. There is an output of
10 PTN. -/
def recorded (gasToken : AssetId) : Db :=
  Db.saveContractStates coinbaseContractId
    [⟨false, rewardKey primitives author, encodeIncome [⟨5, gasToken.toAsset⟩], []⟩]
    ⟨none, 0⟩ { Db.empty with
      utxos := AList.singleton (outPoint 1) (openUtxo 10) }

/-- A payment with a fee of 6. -/
def payment : Transaction :=
  ⟨[.payment ⟨[openInput (outPoint 1)], [⟨4, [0x51], newPTNAsset⟩], 0⟩], [], false⟩

/-- The fee on both sides: the whole of it is the author's. -/
lemma unitFees_payment :
    ∃ s, UnitFees ((node ptnCoin).onDb (recorded ptnCoin)) context author [payment]
      (fun _ => none) noSigs [⟨author, 6, newPTNAsset⟩] s ∧
      s.ads = [⟨author, 6, newPTNAsset⟩] := by
  have hads : ((((node ptnCoin).onDb (recorded ptnCoin)).validateUnitTxs context author
      ([payment].zipIdx 1) ⟨[], [], [], fun _ => none, noSigs⟩).bind
        Except.toOption).map UnitState.ads = some [⟨author, 6, newPTNAsset⟩] := by
    decide +kernel
  obtain ⟨s, hs, hads⟩ := map_eq_some_iff.1 hads
  obtain ⟨r, hr, hs⟩ := do_eq_some.1 hs
  cases r with
  | error code => cases hs
  | ok s' =>
    obtain rfl := some.inj hs
    exact ⟨_, ⟨by decide +kernel, hr⟩, hads⟩

/-- The fee of the payment is the same share on both sides. -/
theorem payment_shared : ∃ (s : UnitState) (shares : List FeeShare),
    [⟨author, 6, newPTNAsset⟩] = shares.flatMap (FeeShare.additions author) ∧
      s.ads = (shares.flatMap (FeeShare.additions (FixedBytes.zero 21))).map
        (toAuthor author) := by
  obtain ⟨s, hunit, -⟩ := unitFees_payment
  exact ⟨s, hunit.same_shares rfl (by simp) (by decide +kernel)⟩

/-- A fee in PTN is agreed on. -/
theorem coinbase_agreed_ptn :
    CoinbaseAgreed (node ptnCoin) context (recorded ptnCoin) 100 7 author [payment]
      (fun _ => none) noSigs := by
  obtain ⟨s, hunit, hads⟩ := unitFees_payment
  refine (coinbase_agreed_iff hunit SmallNode.base58RoundTrip (by decide) (by decide +kernel)
    (by decide +kernel)).2 ?_
  rw [AdditionsMatch, if_neg (by decide), hads]
  decide +kernel

/-- The second unit of a chain whose gas token is not PTN: a unit without transactions is
rejected, because its reward was expected in PTN. -/
theorem gas_token_rejected :
    ¬ CoinbaseAgreed (node otherToken) context (recorded otherToken) 100 7 author []
      (fun _ => none) noSigs := by
  intro h
  have hvalid := h [] _ ⟨rfl, rfl⟩ (.listed _ _) (.listed _ _) _ id _ _ (.refl _)
    (fun l => .refl l) rfl
  revert hvalid
  decide +kernel

end SecondUnit

end Validate

end ZwsChain
