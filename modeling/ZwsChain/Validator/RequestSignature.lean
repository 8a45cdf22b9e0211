import ZwsChain.Jury.Arguments
import ZwsChain.Validator.Crash

/-!
# The requester's signature under a result

The payments in front of a request are signed over the request. When the result has been appended,
`ScriptValidate1Msg` cuts it off again: the scripts run on the deep copy of the part up to the
request. The whole transaction is copied for that, so a result that cannot be copied takes the
verdict along; and the part has no illegal mark.

* `undisturbed_iff`: when the verdict on the completed transaction is that on the request.
* `NoVersion.disturbed`: a stop result that has read a key without a version.
-/

open List Option

namespace ZwsChain

open Transaction Message
open TxScript (SigState generateLockScript)

variable {req : Transaction} {results : List Message} {i n : Nat} {p : PaymentPayload}

/-! ### The part up to the request -/

namespace Transaction

/-- A request that has not been executed: it is the last of `n + 1` messages. -/
def EndsInRequest (msgs : List Message) (n : Nat) : Prop :=
  msgs.map isRequest = replicate n false ++ [true]

lemma EndsInRequest.upToRequest_append {msgs : List Message} (h : EndsInRequest msgs n)
    (rest : List Message) : upToRequest (msgs ++ rest) = msgs := by
  induction n generalizing msgs with
  | zero =>
    obtain ⟨m, rfl⟩ := length_eq_one_iff.1 (by simpa using congrArg length h)
    rw [singleton_append, upToRequest, if_pos (singleton_inj.1 h)]
  | succ n ih =>
    cases msgs with
    | nil => cases h
    | cons m msgs =>
      obtain ⟨hm, hmsgs⟩ := List.cons.inj h
      rw [cons_append, upToRequest, if_neg (by simp [hm]), ih hmsgs]

/-- No request comes before a payment of the request. -/
lemma EndsInRequest.any_take (h : EndsInRequest req.messages n)
    (hp : req.messages[i]? = some (.payment p)) (rest : List Message) :
    ((req.messages ++ rest).take (i + 1)).any isRequest = false := by
  have hi : (req.messages.map isRequest)[i]? = some false := by rw [getElem?_map, hp]; rfl
  rw [h] at hi
  have hlt : i < n := by
    by_contra hge
    rw [getElem?_append_right (by simpa using hge)] at hi
    simpa using mem_of_getElem? hi
  rw [← Function.id_comp isRequest, ← List.any_map, map_take, map_append, h, append_assoc,
    take_append_of_le_length (by rwa [length_replicate]), take_replicate]
  simp

/-- The request part does not depend on what is appended, if that can be copied. -/
lemma EndsInRequest.getRequestTx_complete (h : EndsInRequest req.messages n)
    (hcopy : ∀ x ∈ results, x.Copyable) :
    (req.complete results).getRequestTx =
      req.txMessages.map fun msgs => ⟨msgs, req.certId, false⟩ := by
  have hsome := isSome_iff_exists.2 ((exists_txMessages_iff ⟨results, [], false⟩).2 hcopy)
  obtain ⟨copies, -, hmsgs⟩ := Processor.txMessages_complete req hsome
  rw [getRequestTx, hmsgs]
  cases hreq : req.txMessages with
  | none => rfl
  | some msgs =>
    have hends : EndsInRequest msgs n := (map_copies isRequest (fun _ _ => rfl) hreq).trans h
    exact congrArg (fun l => some (Transaction.mk l _ _)) (hends.upToRequest_append copies)

/-- Messages other than results are copied as they are. -/
lemma txMessages_of_not_contract (h : req.isContractTx = false) :
    req.txMessages = some req.messages := by
  unfold isContractTx at h
  unfold txMessages
  generalize req.messages = l at h ⊢
  induction l with
  | nil => rfl
  | cons x l ih =>
    rw [any_cons, Bool.or_eq_false_iff] at h
    have hx : copyMessage x = some x := by
      cases x with
      | contractDeploy p | contractStop p | contractInvoke p => cases h.1
      | _ => rfl
    rw [mapM_cons, hx, ih h.2]
    rfl

end Transaction

/-! ### Verdicts -/

namespace Validate

variable {V : Validate} {locks : OutPoint → Bytes} {sigs : SigState}

/-- The verdict on a message of a request is that on it in the completed transaction. -/
def Undisturbed (V : Validate) (locks : OutPoint → Bytes) (req : Transaction)
    (results : List Message) (i : Nat) (sigs : SigState) : Prop :=
  (V.scriptValidate1Msg locks (req.complete results) i sigs).2 =
    (V.scriptValidate1Msg locks req i sigs).2

/-- Messages that can be copied and written. -/
def Appendable (results : List Message) : Prop :=
  ∀ x ∈ results, x.Copyable ∧ knownApp x.app = true

section

variable (hreq : EndsInRequest req.messages n) (hres : results.any isContractMsg = true)
  (hp : req.messages[i]? = some (.payment p))
include hreq hres hp

lemma signedPart_complete :
    signedPart (req.complete results) i = (req.complete results).getRequestTx := by
  rw [signedPart, complete, isContractTx, hreq.any_take hp, any_append, hres]
  simp

/-- What cannot be appended is a nil-pointer panic. -/
lemma verdict_of_not_appendable (h : ¬ Appendable results) :
    (V.scriptValidate1Msg locks (req.complete results) i sigs).2 = some .panic := by
  rw [scriptValidate1Msg, signedPart_complete hreq hres hp]
  cases hhash : (req.complete results).hash V.P with
  | none => rfl
  | some _ =>
    cases hpart : (req.complete results).getRequestTx with
    | none => rfl
    | some tx' =>
      obtain ⟨b, hb, -⟩ := map_eq_some_iff.1 hhash
      obtain ⟨msgs, hmsgs, -⟩ := do_eq_some.1 hpart
      refine absurd (fun x hx => ⟨?_, ?_⟩) h
      · exact (exists_txMessages_iff _).1 ⟨msgs, hmsgs⟩ x (mem_append_right _ hx)
      · exact knownApp_of_encodeRLP hb (mem_append_right _ hx)

/-- Otherwise the verdict is that on the request without its mark. -/
lemma verdict_of_appendable (h : Appendable results) :
    (V.scriptValidate1Msg locks (req.complete results) i sigs).2 =
      (V.scriptValidate1Msg locks { req with illegal := false } i sigs).2 := by
  have hpart : signedPart (req.complete results) i =
      signedPart { req with illegal := false } i := by
    have hnone := hreq.any_take hp []
    have hown : (req.complete []).getRequestTx = _ := hreq.getRequestTx_complete nofun
    rw [complete, append_nil] at hown
    rw [append_nil] at hnone
    rw [signedPart_complete hreq hres hp, hreq.getRequestTx_complete fun x hx => (h x hx).1,
      signedPart, hnone]
    show _ = if (req.isContractTx && true) = true then req.getRequestTx else _
    cases hc : req.isContractTx with
    | false => exact congrArg _ (txMessages_of_not_contract hc)
    | true => exact hown.symm
  have hhash : ((req.complete results).hash V.P).isSome =
      (({ req with illegal := false } : Transaction).hash V.P).isSome := by
    have hiff : ∀ msgs, ((Transaction.mk msgs req.certId false).rlpHash V.P).isSome ↔
        ∀ m ∈ msgs, knownApp m.app = true := by
      intro msgs
      rw [rlpHash, isSome_map, isSome_iff_exists]
      exact exists_encodeRLP_iff _
    refine Bool.eq_iff_iff.2 ((hiff _).trans (Iff.trans ?_ (hiff _).symm))
    rw [complete, forall_mem_append]
    exact and_iff_left fun x hx => (h x hx).2
  have hmsg : (req.complete results).messages[i]? = req.messages[i]? :=
    getElem?_append_left (List.getElem?_eq_some_iff.1 hp).1
  rw [scriptValidate1Msg, scriptValidate1Msg, hpart, hmsg]
  cases hid : (req.complete results).hash V.P <;>
    cases hid' : Transaction.hash V.P { req with illegal := false } <;> rw [hid, hid'] at hhash
  · cases hhash
  · cases hhash
  · simp only [hp]
    cases signedPart _ i <;> rfl

end

/-- A result leaves the verdict on a payment of the request alone exactly if it can be copied and
written and the request's mark does not matter to the scripts, or if the verdict was a panic. -/
theorem undisturbed_iff (hreq : EndsInRequest req.messages n)
    (hres : results.any isContractMsg = true) (hp : req.messages[i]? = some (.payment p)) :
    V.Undisturbed locks req results i sigs ↔
      Appendable results ∧ (V.scriptValidate1Msg locks req i sigs).2 =
          (V.scriptValidate1Msg locks { req with illegal := false } i sigs).2 ∨
        ¬ Appendable results ∧ (V.scriptValidate1Msg locks req i sigs).2 = some .panic := by
  rw [Undisturbed]
  by_cases h : Appendable results
  · rw [verdict_of_appendable hreq hres hp h]
    simp [h, eq_comm]
  · rw [verdict_of_not_appendable hreq hres hp h]
    simp [h, eq_comm]

end Validate

/-! ### Results of a call -/

open Processor.ChangeAsPayment SelfPaid

namespace NoVersion

/-- A stop result that has read a key without a version. -/
def stopped : Message :=
  .contractStop ⟨contractId, [⟨[7], none, contractId⟩], [], ⟨0, []⟩⟩

/-- A stop result disturbs the verdict. -/
theorem disturbed : ¬ processor.V.Undisturbed (fun _ => generateLockScript anyone) request
    [stopped] 0 ⟨none, []⟩ := by
  unfold Validate.Undisturbed
  decide +kernel

/-- The result of a call leaves the verdict as it was. -/
theorem undisturbed_call :
    processor.V.Undisturbed (fun _ => generateLockScript anyone) request (result []) 0
      ⟨none, []⟩ := by
  have hreq : EndsInRequest request.messages 1 := rfl
  refine (Validate.undisturbed_iff hreq rfl rfl).2 (.inl ⟨?_, rfl⟩)
  rw [Validate.Appendable, result, forall_mem_cons, forall_mem_singleton]
  exact ⟨⟨nofun, rfl⟩, nofun, rfl⟩

end NoVersion

end ZwsChain
