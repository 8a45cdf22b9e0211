import ZwsChain.Lib.Ledger
import ZwsChain.Lib.Runs

/-!
# The exchange contract

`contracts/syscontract/exchangecc`: a maker pays the tokens it sells to the contract, takers pay
what the maker wants, at the price of the order, and a cancelled order is paid back. Amounts are
never less than what is taken from them, so that they do not wrap. The price is an exact quotient.

A call that returns an error is `none`: it has no effect.

* `Books.solvent_run`: what the contract has been paid is what its active orders sell and what it
  has paid out, if tokens are attached only where they are looked at, and orders are not for
  nothing.
* `OneOrder.payment_kept`: a payment attached to a cancellation stays in the contract.

Sources without a file are in `exchangecc/exchangecc.go`.
-/

open List Option Function

namespace ZwsChain.Exchange

/-- Source: `exchangecc/exchange_order.go`, `ExchangeOrder` -/
structure ExchangeOrder (α τ : Type) where
  address : α
  saleAsset : τ
  saleAmount : ℕ
  currentSaleAmount : ℕ
  wantAsset : τ
  wantAmount : ℕ
  currentWantAmount : ℕ

/-- Orders by their numbers, and those that are over with whether they have been sold out. -/
structure State (α κ τ : Type) where
  active : κ → Option (ExchangeOrder α τ)
  history : κ → Option (ExchangeOrder α τ × Bool)

/-- An output of the calling transaction. -/
structure InvokeTokens (τ : Type) where
  asset : τ
  amount : ℕ
  toContract : Bool

open InvokeTokens

/-- The functions that change orders, with their parameters. -/
inductive Function (κ τ : Type) where
  | maker (wantAsset : τ) (wantAmount : ℕ)
  | taker (orderSn : κ)
  | cancel (orderSn : κ)

/-- A call: its caller, its transaction and what is paid with it. -/
structure Call (α κ τ : Type) where
  function : Function κ τ
  invokeAddr : α
  txId : κ
  invokeTokens : List (InvokeTokens τ)

variable {α κ τ : Type} [DecidableEq α] [DecidableEq κ] [DecidableEq τ]

/-- The first output that goes to the contract.
Source: `getPayToContract` -/
def getPayToContract (tokens : List (InvokeTokens τ)) : Option (InvokeTokens τ) :=
  tokens.find? toContract

namespace State

variable (s : State α κ τ) (c : Call α κ τ)

/-- Source: `Maker` -/
def maker (wantAsset : τ) (wantAmount : ℕ) : Option (State α κ τ × List (α × τ × ℕ)) := do
  let t ← getPayToContract c.invokeTokens
  some ({ s with active := update s.active c.txId (some
    ⟨c.invokeAddr, t.asset, t.amount, t.amount, wantAsset, wantAmount, wantAmount⟩) }, [])

/-- Source: `exchangecc/exchange_order.go`, `UpdateExchangeOrder` -/
def updateExchangeOrder (sn : κ) (order : ExchangeOrder α τ) : State α κ τ :=
  if order.currentSaleAmount = 0 then
    ⟨update s.active sn none, update s.history sn (some (order, true))⟩
  else { s with active := update s.active sn (some order) }

/-- What the maker gives for what the taker gives.
Source: `Taker` -/
def makerDealAmount (exchange : ExchangeOrder α τ) (takerDealAmount : ℕ) : ℕ :=
  if takerDealAmount = exchange.currentWantAmount then exchange.currentSaleAmount
  else takerDealAmount * exchange.saleAmount / exchange.wantAmount

/-- Source: `Taker` -/
def taker (sn : κ) : Option (State α κ τ × List (α × τ × ℕ)) := do
  let exchange ← s.active sn
  let t ← getPayToContract c.invokeTokens
  if t.asset ≠ exchange.wantAsset then none
  else
    let takerDeal := min t.amount exchange.currentWantAmount
    let makerDeal := makerDealAmount exchange takerDeal
    some (s.updateExchangeOrder sn { exchange with
        currentSaleAmount := exchange.currentSaleAmount - makerDeal
        currentWantAmount := exchange.currentWantAmount - takerDeal },
      (if 0 < t.amount - takerDeal then [(c.invokeAddr, t.asset, t.amount - takerDeal)] else []) ++
        [(c.invokeAddr, exchange.saleAsset, makerDeal), (exchange.address, t.asset, takerDeal)])

/-- Source: `Cancel` -/
def cancel (sn : κ) : Option (State α κ τ × List (α × τ × ℕ)) := do
  let exchange ← s.active sn
  if c.invokeAddr ≠ exchange.address then none
  else some (⟨update s.active sn none,
      update s.history sn (some (exchange, false))⟩,
    [(exchange.address, exchange.saleAsset, exchange.currentSaleAmount)])

/-- Source: `Invoke` -/
def invoke : Option (State α κ τ × List (α × τ × ℕ)) :=
  match c.function with
  | .maker wantAsset wantAmount => s.maker c wantAsset wantAmount
  | .taker sn => s.taker c sn
  | .cancel sn => s.cancel c sn

/-- What an order has for sale in an asset. -/
def onSale (x : τ) (sn : κ) : ℕ :=
  (s.active sn).elim 0 fun o => if o.saleAsset = x then o.currentSaleAmount else 0

end State

open State

/-! ### Books -/

/-- The state with what the contract has been paid and has paid out in each asset. -/
structure Books (α κ τ : Type) where
  state : State α κ τ
  paidIn : τ → ℕ
  paidOut : τ → ℕ

/-- What is paid to the contract with a call. -/
def Call.paid (c : Call α κ τ) (x : τ) : ℕ :=
  ((c.invokeTokens.filter toContract).map fun t =>
    if t.asset = x then t.amount else 0).sum

/-- What is paid out in an asset. -/
def outOf (x : τ) (out : List (α × τ × ℕ)) : ℕ :=
  (out.map fun p => if p.2.1 = x then p.2.2 else 0).sum

namespace Books

/-- The books before the first call. -/
def empty : Books α κ τ :=
  ⟨⟨fun _ => none, fun _ => none⟩, fun _ => 0, fun _ => 0⟩

/-- A call with its effect on the books; one that fails has none. -/
def step (b : Books α κ τ) (c : Call α κ τ) : Option (Books α κ τ) :=
  match b.state.invoke c with
  | none => some b
  | some (state, out) => some
      ⟨state, fun x => b.paidIn x + c.paid x, fun x => b.paidOut x + outOf x out⟩

/-- For each asset, what has been paid in is on sale or has been paid out. An active order sells no
more than at first and still wants something; one that has been sold out wants nothing. -/
structure Solvent (b : Books α κ τ) : Prop where
  escrow : ∀ x, Lib.Balanced (b.state.onSale x) (b.paidIn x) (b.paidOut x)
  active : ∀ sn o, b.state.active sn = some o →
    o.currentSaleAmount ≤ o.saleAmount ∧ o.currentWantAmount ≠ 0
  closed : ∀ sn o, b.state.history sn = some (o, true) → o.currentWantAmount = 0

/-- A call that succeeds has no more than one output to the contract, a cancellation none; a maker
has a new number, and sells and wants something. -/
structure Sound (s : State α κ τ) (c : Call α κ τ) : Prop where
  single : (s.invoke c).isSome → (c.invokeTokens.filter toContract).length ≤ 1
  cancel : ∀ sn, c.function = .cancel sn → (s.invoke c).isSome →
    c.invokeTokens.filter toContract = []
  maker : ∀ a n t, c.function = .maker a n → getPayToContract c.invokeTokens = some t →
    s.active c.txId = none ∧ n ≠ 0 ∧ t.amount ≠ 0

end Books

/-! ### Trades -/

/-- An order that has sold no more than its price allows. -/
structure ExchangeOrder.Priced (o : ExchangeOrder α τ) : Prop where
  sale_pos : 0 < o.saleAmount
  want_pos : 0 < o.currentWantAmount
  want_le : o.currentWantAmount ≤ o.wantAmount
  sale_le : o.currentSaleAmount ≤ o.saleAmount
  price : (o.saleAmount - o.currentSaleAmount) * o.wantAmount ≤
    o.saleAmount * (o.wantAmount - o.currentWantAmount)

omit [DecidableEq α] [DecidableEq τ] in
/-- A part of the order is sold for less than what is on sale. -/
lemma ExchangeOrder.Priced.part {o : ExchangeOrder α τ} (h : o.Priced) {d : ℕ}
    (hd : d < o.currentWantAmount) :
    d * o.saleAmount / o.wantAmount < o.currentSaleAmount ∧
    ExchangeOrder.Priced { o with
      currentSaleAmount := o.currentSaleAmount - d * o.saleAmount / o.wantAmount
      currentWantAmount := o.currentWantAmount - d } := by
  obtain ⟨hsale, hwant, hwle, hsle, hprice⟩ := h
  obtain ⟨u, hu⟩ := Nat.exists_eq_add_of_le hsle
  obtain ⟨v, hv⟩ := Nat.exists_eq_add_of_le hwle
  have hq := Nat.div_mul_le_self (d * o.saleAmount) o.wantAmount
  generalize d * o.saleAmount / o.wantAmount = q at hq ⊢
  rw [show o.saleAmount - o.currentSaleAmount = u by omega,
    show o.wantAmount - o.currentWantAmount = v by omega] at hprice
  have hsold : (u + q) * o.wantAmount ≤ o.saleAmount * (v + d) := by
    calc (u + q) * o.wantAmount = u * o.wantAmount + q * o.wantAmount := Nat.add_mul _ _ _
      _ ≤ o.saleAmount * v + d * o.saleAmount := Nat.add_le_add hprice hq
      _ = o.saleAmount * (v + d) := by rw [Nat.mul_add, Nat.mul_comm d]
  have hlt : q < o.currentSaleAmount := by
    have : (u + q) * o.wantAmount < o.saleAmount * o.wantAmount :=
      lt_of_le_of_lt hsold (Nat.mul_lt_mul_of_pos_left (by omega) hsale)
    have := Nat.lt_of_mul_lt_mul_right this
    omega
  refine ⟨hlt, hsale, by dsimp only; omega, by dsimp only; omega, by dsimp only; omega, ?_⟩
  rwa [show o.saleAmount - (o.currentSaleAmount - q) = u + q by omega,
    show o.wantAmount - (o.currentWantAmount - d) = v + d by omega]

namespace Books

/-- What holds in all states of a run. -/
structure Kept (b : Books α κ τ) : Prop where
  escrow : ∀ x, Lib.Balanced (b.state.onSale x) (b.paidIn x) (b.paidOut x)
  priced : ∀ sn o, b.state.active sn = some o → o.Priced
  closed : ∀ sn o, b.state.history sn = some (o, true) → o.currentWantAmount = 0

omit [DecidableEq α] [DecidableEq κ] in
lemma paid_eq {c : Call α κ τ} {t : InvokeTokens τ} (ht : getPayToContract c.invokeTokens = some t)
    (hsingle : (c.invokeTokens.filter toContract).length ≤ 1) (x : τ) :
    c.paid x = if t.asset = x then t.amount else 0 := by
  rw [getPayToContract, ← head?_filter] at ht
  rw [Call.paid]
  match c.invokeTokens.filter toContract, ht, hsingle with
  | [_], rfl, _ => simp

omit [DecidableEq α] in
/-- A call that changes one order. -/
lemma Kept.update {b : Books α κ τ} (h : b.Kept) {s' : State α κ τ} (sn : κ) {i o : τ → ℕ}
    (hactive : ∀ sn', sn' ≠ sn → s'.active sn' = b.state.active sn')
    (hhistory : ∀ sn', sn' ≠ sn → s'.history sn' = b.state.history sn')
    (hpriced : ∀ e, s'.active sn = some e → e.Priced)
    (hclosed : ∀ e, s'.history sn = some (e, true) → e.currentWantAmount = 0)
    (hsum : ∀ x, s'.onSale x sn + o x = b.state.onSale x sn + i x) :
    Kept ⟨s', fun x => b.paidIn x + i x, fun x => b.paidOut x + o x⟩ := by
  refine ⟨fun x => (h.escrow x).step sn (fun sn' hne => ?_) (hsum x), fun sn' e he => ?_,
    fun sn' e he => ?_⟩
  · rw [onSale, onSale, hactive sn' hne]
  · rcases eq_or_ne sn' sn with rfl | hne
    · exact hpriced e he
    · exact h.priced sn' e (hactive sn' hne ▸ he)
  rcases eq_or_ne sn' sn with rfl | hne
  · exact hclosed e he
  · exact h.closed sn' e (hhistory sn' hne ▸ he)

lemma Kept.step {b b' : Books α κ τ} {c : Call α κ τ} (h : b.Kept) (hsound : Sound b.state c)
    (hstep : b.step c = some b') : b'.Kept := by
  rw [Books.step] at hstep
  split at hstep
  · obtain rfl := some.inj hstep
    exact h
  rename_i s' out hinvoke
  obtain rfl := some.inj hstep
  have hsome : (b.state.invoke c).isSome := by rw [hinvoke]; rfl
  have hsingle := hsound.single hsome
  rw [invoke] at hinvoke
  cases hf : c.function with
  | maker wantAsset wantAmount =>
    simp only [hf, maker, do_eq_some] at hinvoke
    obtain ⟨t, ht, hs'⟩ := hinvoke
    cases hs'
    obtain ⟨hnew, hwant, hsale⟩ := hsound.maker _ _ t hf ht
    refine h.update c.txId (fun sn hne => by simp [hne]) (fun _ _ => rfl) (fun e he => ?_)
      (fun e he => h.closed _ e he) fun x => ?_
    · obtain rfl : _ = e := by simpa using he
      exact ⟨Nat.pos_of_ne_zero hsale, Nat.pos_of_ne_zero hwant, le_rfl, le_rfl, by simp⟩
    · simp [onSale, hnew, paid_eq ht hsingle, outOf]
  | taker sn =>
    simp only [hf, taker, do_eq_some] at hinvoke
    obtain ⟨o, ho, t, ht, hs'⟩ := hinvoke
    split at hs'
    · cases hs'
    cases hs'
    have hpriced := h.priced sn o ho
    obtain ⟨d, hd⟩ : ∃ d, d = min t.amount o.currentWantAmount := ⟨_, rfl⟩
    have hout : ∀ x (m : ℕ), outOf x ((if 0 < t.amount - d then
        [(c.invokeAddr, t.asset, t.amount - d)] else []) ++
          [(c.invokeAddr, o.saleAsset, m), (o.address, t.asset, d)]) =
        c.paid x + if o.saleAsset = x then m else 0 := by
      intro x m
      rw [paid_eq ht hsingle]
      by_cases hchange : 0 < t.amount - d <;>
        simp only [outOf, hchange, if_true, if_false, cons_append, nil_append,
          map_cons, map_nil, sum_cons, sum_nil] <;>
        split <;> split <;> omega
    simp only [← hd]
    rcases eq_or_lt_of_le (hd ▸ min_le_right _ _ : d ≤ o.currentWantAmount) with hall | hpart
    · -- the order is sold out
      rw [makerDealAmount, if_pos hall, updateExchangeOrder, if_pos (Nat.sub_self _)]
      refine h.update sn (fun sn' hne => by simp [hne]) (fun sn' hne => by simp [hne])
        (fun e he => by simp at he) (fun e he => ?_) fun x => ?_
      · obtain ⟨rfl, -⟩ := by simpa using he
        exact Nat.sub_eq_zero_of_le hall.ge
      · rw [hout]
        simp [onSale, ho, Nat.add_comm]
    obtain ⟨hlt, hpriced'⟩ := hpriced.part hpart
    rw [makerDealAmount, if_neg hpart.ne, updateExchangeOrder, if_neg (by dsimp only; omega)]
    refine h.update sn (fun sn' hne => by simp [hne]) (fun _ _ => rfl) (fun e he => ?_)
      (fun e he => h.closed sn e he) fun x => ?_
    · obtain rfl : _ = e := by simpa using he
      exact hpriced'
    rw [hout]
    simp only [onSale, ho, update_self, elim_some]
    split <;> omega
  | cancel sn =>
    simp only [hf, cancel, do_eq_some] at hinvoke
    obtain ⟨o, ho, hs'⟩ := hinvoke
    split at hs'
    · cases hs'
    cases hs'
    have hnone := hsound.cancel sn hf hsome
    refine h.update sn (fun sn' hne => by simp [hne]) (fun sn' hne => by simp [hne])
      (fun e he => by simp at he) (fun e he => by simp at he) fun x => ?_
    simp [onSale, ho, Call.paid, hnone, outOf]

/-- After every run of calls that are sound where they are made, the contract is solvent. -/
theorem solvent_run {calls : List (Call α κ τ)} {b : Books α κ τ}
    (hsound : Lib.Along step (fun b => Sound b.state) empty calls)
    (hrun : calls.foldlM step empty = some b) : b.Solvent := by
  have hkept := Lib.Along.preserves (I := Kept) (fun c _ b b' h hgood => h.step hgood) hsound
    ⟨fun _ => Lib.balanced_zero, nofun, nofun⟩ hrun
  exact ⟨hkept.escrow, fun sn o ho => ⟨(hkept.priced sn o ho).sale_le,
    (hkept.priced sn o ho).want_pos.ne'⟩, hkept.closed⟩

end Books

namespace OneOrder

/-- A call by the only address. -/
def call (f : Function Unit Bool) (tokens : List (InvokeTokens Bool)) : Call Unit Unit Bool :=
  ⟨f, (), (), tokens⟩

/-- Ten of one asset are on sale for three of the other. -/
def sale : Call Unit Unit Bool :=
  call (.maker true 3) [⟨false, 10, true⟩]

/-- One of the other asset is given for a part of it. -/
def trade : Call Unit Unit Bool :=
  call (.taker ()) [⟨true, 1, true⟩]

/-- After the trade seven are left on sale, and the contract is solvent. -/
theorem solvent_trade : ∃ b, [sale, trade].foldlM Books.step Books.empty = some b ∧
    b.state.onSale false () = 7 ∧ b.Solvent := by
  refine ⟨_, rfl, by decide, @Books.solvent_run _ _ _ _ _ _ [sale, trade] _ ?_ rfl⟩
  refine ⟨⟨fun _ => by decide, nofun, ?_⟩, fun _ _ => ⟨⟨fun _ => by decide, nofun, nofun⟩,
    fun _ _ => trivial⟩⟩
  rintro _ _ _ ⟨⟩ ⟨⟩
  exact ⟨rfl, by decide, by decide⟩

/-- Five that are attached to the cancellation are neither on sale nor paid out. -/
theorem payment_kept : ∃ b, [sale, call (.cancel ()) [⟨false, 5, true⟩]].foldlM Books.step
    Books.empty = some b ∧ b.paidIn false = 15 ∧ b.paidOut false = 10 ∧ ¬ b.Solvent :=
  ⟨_, rfl, by decide, by decide,
    fun h => absurd ((h.escrow false).sum_add ∅ fun _ _ => rfl) (by decide)⟩

end OneOrder

end ZwsChain.Exchange
