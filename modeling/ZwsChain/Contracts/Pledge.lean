import Mathlib

/-!
# Pledge lists and withdrawals

`dag/modules/pledge.go` and `withdrawRecords` of `contracts/syscontract/deposit/pledge_rep.go`. The
loop over the members of a list calls `Reduce`, which cuts a member that withdraws everything out of
the array that the loop walks over. The member after it moves to its place and is passed over;
the last member stays in the last place of the array as well, and is always reached.

* `withdrawRecords_eq_foldl`: the members that are served are those of `visited`.
* `served_iff`: all requests are served exactly if no member that withdraws everything is followed,
  other than by the last, by one that withdraws, no request is for nothing, and the total is right.
-/

open List Option

namespace ZwsChain.Pledge

/-- Source: `dag/modules/pledge.go`, `AddressRewardAmount` -/
structure AddressRewardAmount (α : Type) where
  address : α
  amount : UInt64
  reward : UInt64
  deriving DecidableEq

open AddressRewardAmount

/-- Source: `dag/modules/pledge.go`, `PledgeList` -/
structure PledgeList (α : Type) where
  totalAmount : UInt64
  date : List Char
  members : List (AddressRewardAmount α)
  deriving DecidableEq

/-- An amount that stands for everything. -/
def maxUint64 : UInt64 := 18446744073709551615

variable {α : Type} [DecidableEq α]

/-- The loop of `Reduce`: what is withdrawn, the members, and whether one has been cut out. `none`
is an error. -/
def reduceMembers (addr : α) (amount : UInt64) :
    List (AddressRewardAmount α) → Option (UInt64 × List (AddressRewardAmount α) × Bool)
  | [] => none
  | p :: ps =>
    if p.address = addr then
      let amount := if amount = maxUint64 then p.amount else amount
      if p.amount < amount then none
      else if p.amount = amount then some (amount, ps, true)
      else some (amount, { p with amount := p.amount - amount } :: ps, false)
    else (reduceMembers addr amount ps).map fun (amount, ps, cut) => (amount, p :: ps, cut)

/-- Source: `dag/modules/pledge.go`, `Reduce` -/
def PledgeList.reduce (pl : PledgeList α) (addr : α) (amount : UInt64) :
    Option (UInt64 × PledgeList α × Bool) :=
  (reduceMembers addr amount pl.members).map fun (amount, members, cut) =>
    (amount, { pl with totalAmount := pl.totalAmount - amount, members }, cut)

/-- The state of the loop of `withdrawRecords`. -/
structure Walk (α : Type) where
  list : PledgeList α
  /-- What the array holds past the end of the list. -/
  stale : List α
  /-- The records of requests. -/
  requests : α → Option UInt64
  payouts : List (α × UInt64)

namespace Walk

/-- The body of the loop, for a member. To cut one out, `append` moves those after it down by one
place, and the last place keeps what it had. -/
def serve (w : Walk α) (addr : α) : Walk α :=
  match w.requests addr with
  | none => w
  | some amount =>
    match w.list.reduce addr amount with
    | none => w
    | some (withdrawAmt, list, cut) =>
      { list
        stale := if cut then
          ((w.list.members.map address).getLast?).toList ++ w.stale else w.stale
        requests := if 0 < withdrawAmt then Function.update w.requests addr none else w.requests
        payouts := if 0 < withdrawAmt then w.payouts ++ [(addr, withdrawAmt)] else w.payouts }

/-- The array that the loop walks over. -/
def slots (w : Walk α) : List α :=
  w.list.members.map address ++ w.stale

/-- One round of the loop. -/
def visit (w : Walk α) (k : ℕ) : Walk α :=
  match w.slots[k]? with
  | none => w
  | some addr => w.serve addr

end Walk

open Walk

/-- Source: `deposit/pledge_rep.go`, `withdrawRecords` -/
def withdrawRecords (requests : α → Option UInt64) (pl : PledgeList α) : Walk α :=
  (List.range' 0 pl.members.length).foldl visit ⟨pl, [], requests, []⟩

/-! ### What is due -/

section Due

variable (requests : α → Option UInt64) (m : AddressRewardAmount α)

/-- What a member is to be paid: its request, if that is at most its amount. -/
def due : Option UInt64 :=
  match requests m.address with
  | none => none
  | some amount =>
    let amount := if amount = maxUint64 then m.amount else amount
    if amount ≤ m.amount then some amount else none

/-- The member withdraws everything. -/
def Full : Prop :=
  due requests m = some m.amount

instance : Decidable (Full requests m) :=
  inferInstanceAs (Decidable (_ = _))

/-- The member after it has been paid. -/
def remains : Option (AddressRewardAmount α) :=
  match due requests m with
  | none => some m
  | some x => if m.amount = x then none else some { m with amount := m.amount - x }

/-- The members that the loop reaches. -/
def visited : List (AddressRewardAmount α) → List (AddressRewardAmount α)
  | [] => []
  | [m] => [m]
  | m :: s :: rest =>
    if Full requests m then m :: (if rest.isEmpty then [s] else visited rest)
    else m :: visited (s :: rest)

end Due

/-! ### One member -/

variable {requests : α → Option UInt64}
variable {m : AddressRewardAmount α}

omit [DecidableEq α] in
lemma due_congr {requests' : α → Option UInt64} (h : requests m.address = requests' m.address) :
    due requests m = due requests' m := by
  rw [due, due, h]

omit [DecidableEq α] in
lemma remains_of_full (h : Full requests m) : remains requests m = none := by
  rw [remains, h]
  exact if_pos rfl

omit [DecidableEq α] in
lemma exists_remains (h : ¬ Full requests m) :
    ∃ m', remains requests m = some m' ∧ m'.address = m.address := by
  rw [Full] at h
  rw [remains]
  cases hdue : due requests m with
  | none => exact ⟨m, rfl, rfl⟩
  | some x =>
    rw [hdue, some.injEq] at h
    exact ⟨_, if_neg (Ne.symm h), rfl⟩

lemma reduceMembers_append {pre post : List (AddressRewardAmount α)}
    (hpre : m.address ∉ pre.map address) {amount : UInt64}
    (hrequest : requests m.address = some amount) :
    reduceMembers m.address amount (pre ++ m :: post) = (due requests m).map fun x =>
      (x, pre ++ (remains requests m).toList ++ post, decide (Full requests m)) := by
  induction pre with
  | nil =>
    simp only [nil_append, reduceMembers, if_true, remains, Full, due, hrequest]
    set x := if amount = maxUint64 then m.amount else amount
    by_cases hle : x ≤ m.amount
    · rw [if_neg (UInt64.not_lt.2 hle), if_pos hle]
      by_cases heq : m.amount = x
      · simp [heq]
      · simp [heq, Ne.symm heq]
    · rw [if_pos (UInt64.not_le.1 hle), if_neg hle]
      rfl
  | cons p pre ih =>
    rw [map_cons, mem_cons, not_or] at hpre
    rw [cons_append, reduceMembers, if_neg (Ne.symm hpre.1), ih hpre.2, Option.map_map]
    rfl

namespace Walk

variable {w : Walk α} {m : AddressRewardAmount α} {pre post : List (AddressRewardAmount α)}

/-- What serving a member does to the list, the array, the requests and the payments. -/
lemma serve_eq (hmembers : w.list.members = pre ++ m :: post)
    (hpre : m.address ∉ pre.map address) :
    w.serve m.address = match due w.requests m with
      | none => w
      | some x =>
        { list := { w.list with
            totalAmount := w.list.totalAmount - x
            members := pre ++ (remains w.requests m).toList ++ post }
          stale := if Full w.requests m then
            (((pre ++ m :: post).map address).getLast?).toList ++ w.stale
            else w.stale
          requests := if 0 < x then Function.update w.requests m.address none else w.requests
          payouts := if 0 < x then w.payouts ++ [(m.address, x)] else w.payouts } := by
  rw [serve]
  cases hrequest : w.requests m.address with
  | none => simp [due, hrequest]
  | some amount =>
    simp only [PledgeList.reduce, hmembers, reduceMembers_append hpre hrequest]
    cases due w.requests m <;> simp

variable {addr last : α} {k j : ℕ}

/-- An address that is not on the list is passed over. -/
lemma serve_of_notMem (h : addr ∉ w.list.members.map address) :
    w.serve addr = w := by
  have hnone : ∀ amount ms, addr ∉ ms.map address →
      reduceMembers addr amount ms = none := by
    intro amount ms
    induction ms with
    | nil => exact fun _ => rfl
    | cons p ps ih =>
      intro hmem
      rw [map_cons, mem_cons, not_or] at hmem
      rw [reduceMembers, if_neg (Ne.symm hmem.1), ih hmem.2, map_none]
  rw [serve]
  cases w.requests addr with
  | none => rfl
  | some amount => simp [PledgeList.reduce, hnone amount _ h]

section Member

variable (hmembers : w.list.members = pre ++ m :: post) (hpre : m.address ∉ pre.map address)
include hmembers hpre

lemma members_serve :
    (w.serve m.address).list.members = pre ++ (remains w.requests m).toList ++ post := by
  rw [serve_eq hmembers hpre, remains]
  cases due w.requests m <;> simp [hmembers]

lemma stale_serve :
    (w.serve m.address).stale = if Full w.requests m then
      (((pre ++ m :: post).map address).getLast?).toList ++ w.stale
      else w.stale := by
  rw [serve_eq hmembers hpre]
  cases hdue : due w.requests m <;> simp [Full, hdue]

lemma requests_serve :
    (w.serve m.address).requests = if 0 < (due w.requests m).getD 0 then
      Function.update w.requests m.address none else w.requests := by
  rw [serve_eq hmembers hpre]
  cases due w.requests m <;> simp

lemma requests_serve_of_ne (h : addr ≠ m.address) :
    (w.serve m.address).requests addr = w.requests addr := by
  rw [requests_serve hmembers hpre]
  split <;> simp [h]

/-- Once served, a member is left as it is. -/
lemma serve_serve (hpost : m.address ∉ post.map address) :
    (w.serve m.address).serve m.address = w.serve m.address := by
  have heq := serve_eq hmembers hpre
  cases hdue : due w.requests m with
  | none =>
    rw [hdue] at heq
    rw [heq, heq]
  | some x =>
    by_cases hx : 0 < x
    · have hnone : (w.serve m.address).requests m.address = none := by
        rw [requests_serve hmembers hpre, hdue]
        simp [hx]
      rw [serve, hnone]
    obtain rfl : x = 0 := by simpa using hx
    by_cases hzero : m.amount = 0
    · refine serve_of_notMem ?_
      rw [members_serve hmembers hpre, remains, hdue]
      simpa [hzero] using ⟨by simpa using hpre, by simpa using hpost⟩
    have hsame : w.serve m.address = w := by
      rw [heq, hdue, remains, hdue]
      simp [hzero, Full, hdue, Ne.symm hzero, ← hmembers]
    rw [hsame, hsame]

end Member

/-- The last member keeps its place in the array. -/
lemma slots_serve_last (hmembers : w.list.members = pre ++ [m])
    (hpre : m.address ∉ pre.map address) :
    (w.serve m.address).slots = w.slots := by
  rw [slots, slots, members_serve hmembers hpre, stale_serve hmembers hpre, hmembers]
  cases hdue : due w.requests m with
  | none => simp [Full, remains, hdue]
  | some x =>
    by_cases h : m.amount = x
    · simp [Full, remains, hdue, h]
    · simp [Full, remains, hdue, h, Ne.symm h]

/-! ### The loop -/

lemma visit_of_drop (rest : List α) (h : w.slots.drop k = addr :: rest) :
    w.visit k = w.serve addr := by
  have hget : w.slots[k]? = some addr := by
    rw [← Nat.add_zero k, ← getElem?_drop, h]
    rfl
  rw [visit, hget]

lemma foldl_visit_done (hdone : w.serve last = w) (h : w.slots.drop k = List.replicate j last) :
    (List.range' k j).foldl visit w = w := by
  induction j generalizing k with
  | zero => rfl
  | succ j ih =>
    rw [range'_succ, foldl_cons, visit_of_drop _ h, hdone]
    refine ih ?_
    rw [← drop_drop, h]
    rfl

/-- The places past the end of the list, which all hold the last member. -/
lemma foldl_visit_stale (hmembers : w.list.members = pre ++ [m])
    (hpre : m.address ∉ pre.map address)
    (h : w.slots.drop k = List.replicate (j + 1) m.address) :
    (List.range' k (j + 1)).foldl visit w = w.serve m.address := by
  rw [range'_succ, foldl_cons, visit_of_drop _ h]
  refine foldl_visit_done (serve_serve hmembers hpre not_mem_nil) ?_
  rw [slots_serve_last hmembers hpre, ← drop_drop, h]
  rfl

omit [DecidableEq α] in
lemma notMem_of_nodup (h : ((pre ++ m :: post).map address).Nodup) :
    m.address ∉ pre.map address ∧
      m.address ∉ post.map address := by
  rw [map_append, map_cons, nodup_middle, nodup_cons, mem_append, not_or] at h
  exact h.1

section Step

variable (hmembers : w.list.members = pre ++ m :: post)
  (hnodup : (w.list.members.map address).Nodup)
include hmembers hnodup

lemma nodup_serve : ((w.serve m.address).list.members.map address).Nodup := by
  rw [members_serve hmembers (notMem_of_nodup (hmembers ▸ hnodup)).1]
  refine (hmembers ▸ hnodup).sublist ?_
  by_cases hfull : Full w.requests m
  · simp [remains_of_full hfull]
  · obtain ⟨m', hm', haddr⟩ := exists_remains hfull
    simp [hm', haddr]

/-- The members behind the one that is served keep their requests. -/
lemma requests_serve_rest (hrequests : ∀ x ∈ m :: post, w.requests x.address = requests x.address) :
    ∀ x ∈ post, (w.serve m.address).requests x.address = requests x.address := by
  intro x hx
  obtain ⟨hpre, hpost⟩ := notMem_of_nodup (hmembers ▸ hnodup)
  rw [← hrequests x (mem_cons_of_mem _ hx)]
  exact requests_serve_of_ne hmembers hpre fun heq => hpost (heq ▸ List.mem_map_of_mem hx)

end Step

/-- The rest of the loop, from the first member of `rest` on. -/
lemma foldl_visit {done rest : List (AddressRewardAmount α)}
    (hmembers : w.list.members = done ++ rest) (hnodup : (w.list.members.map address).Nodup)
    (hrequests : ∀ m ∈ rest, w.requests m.address = requests m.address)
    (hlast : (rest.map address).getLast? = some last) (hstale : w.stale = List.replicate j last) :
    (List.range' done.length (rest.length + j)).foldl visit w =
      ((visited requests rest).map address).foldl serve w := by
  -- what the place of the first member holds
  have hvisit : ∀ {w : Walk α} {done rest m}, w.list.members = done ++ m :: rest →
      w.visit done.length = w.serve m.address := by
    intro w done rest m hmembers
    refine visit_of_drop (rest.map address ++ w.stale) ?_
    simp [slots, hmembers]
  fun_induction visited requests rest generalizing done w j with
  | case1 => simp at hlast
  | case2 m =>
    obtain rfl : m.address = last := by simpa using hlast
    rw [length_singleton, Nat.add_comm]
    refine foldl_visit_stale hmembers (notMem_of_nodup (hmembers ▸ hnodup)).1 ?_
    simp [slots, hmembers, hstale, replicate_succ]
  | case3 m s rest hfull ih =>
    have hpre := (notMem_of_nodup (hmembers ▸ hnodup)).1
    have hfull' : Full w.requests m := by
      rwa [Full, due_congr (hrequests m mem_cons_self)]
    have hnodup' := nodup_serve hmembers hnodup
    -- the next member is in the place of the one that has been cut out
    have hmembers' : (w.serve m.address).list.members = (done ++ [s]) ++ rest := by
      rw [members_serve hmembers hpre, remains_of_full hfull']
      simp
    have hstale' : (w.serve m.address).stale = List.replicate (j + 1) last := by
      rw [stale_serve hmembers hpre, if_pos hfull', hstale, map_append, getLast?_append, hlast]
      rfl
    rw [map_cons, foldl_cons, length_cons, length_cons,
      show rest.length + 1 + 1 + j = rest.length + (j + 1) + 1 by omega, range'_succ,
      foldl_cons, hvisit hmembers]
    cases rest with
    | nil =>
      obtain rfl : s.address = last := by simpa using hlast
      rw [append_nil] at hmembers'
      rw [length_nil, Nat.zero_add]
      rw [hmembers'] at hnodup'
      refine foldl_visit_stale hmembers' (notMem_of_nodup hnodup').1 ?_
      rw [slots, hmembers', hstale', drop_left' (by simp)]
    | cons t rest =>
      have hrest := requests_serve_rest hmembers hnodup hrequests
      have hih := ih hmembers' hnodup' (fun x hx => hrest x (mem_cons_of_mem _ hx))
        (by simpa using hlast) hstale'
      rwa [length_append, length_singleton] at hih
  | case4 m s rest hfull ih =>
    have hpre := (notMem_of_nodup (hmembers ▸ hnodup)).1
    have hfull' : ¬ Full w.requests m := by
      rwa [Full, due_congr (hrequests m mem_cons_self)]
    obtain ⟨m', hm', -⟩ := exists_remains hfull'
    have hmembers' : (w.serve m.address).list.members = (done ++ [m']) ++ s :: rest := by
      rw [members_serve hmembers hpre, hm', toList_some]
    have hstale' : (w.serve m.address).stale = List.replicate j last := by
      rw [stale_serve hmembers hpre, if_neg hfull', hstale]
    have hih := ih hmembers' (nodup_serve hmembers hnodup)
      (requests_serve_rest hmembers hnodup hrequests) (by simpa using hlast) hstale'
    rw [length_append, length_singleton] at hih
    rw [map_cons, foldl_cons, length_cons, Nat.add_right_comm, range'_succ,
      foldl_cons, hvisit hmembers, hih]

end Walk

/-- The loop serves the members of `visited`. -/
lemma withdrawRecords_eq_foldl {pl : PledgeList α}
    (hnodup : (pl.members.map address).Nodup) :
    withdrawRecords requests pl = ((visited requests pl.members).map
      address).foldl serve ⟨pl, [], requests, []⟩ := by
  cases hlast : (pl.members.map address).getLast? with
  | none =>
    have hnil : pl.members = [] := by simpa using hlast
    rw [withdrawRecords, hnil]
    rfl
  | some last =>
    exact @foldl_visit _ _ requests ⟨pl, [], requests, []⟩ last 0 [] _ rfl hnodup (fun _ _ => rfl)
      hlast rfl

/-- What is left when some members have been served. -/
structure After (requests : α → Option UInt64) (served : List (AddressRewardAmount α))
    (w w' : Walk α) : Prop where
  members : w'.list.members = w.list.members.filterMap fun m =>
    if m.address ∈ served.map address then remains requests m else some m
  cleared : ∀ a, w'.requests a =
    if ∃ m ∈ served, m.address = a ∧ 0 < (due requests m).getD 0 then none else w.requests a
  payouts : w'.payouts = w.payouts ++ served.filterMap fun m =>
    if 0 < (due requests m).getD 0 then some (m.address, (due requests m).getD 0) else none
  total : w'.list.totalAmount = w.list.totalAmount - (served.filterMap (due requests)).sum

lemma after_foldl_serve {served : List (AddressRewardAmount α)} :
    ∀ {w : Walk α}, (w.list.members.map address).Nodup →
      (served.map address).Nodup → (∀ m ∈ served, m ∈ w.list.members) →
      (∀ m ∈ served, w.requests m.address = requests m.address) →
      After requests served w ((served.map address).foldl serve w) := by
  induction served with
  | nil => exact fun _ _ _ _ => ⟨by simp, by simp, by simp, by simp⟩
  | cons m served ih =>
    intro w hnodup hserved hmem hrequests
    obtain ⟨pre, post, hmembers⟩ := append_of_mem (hmem m mem_cons_self)
    obtain ⟨hpre, hpost⟩ := notMem_of_nodup (hmembers ▸ hnodup)
    have hdue := due_congr (hrequests m mem_cons_self)
    have hremains : remains w.requests m = remains requests m := by rw [remains, remains, hdue]
    have hmembers' := members_serve hmembers hpre
    rw [map_cons, nodup_cons] at hserved
    have hother : ∀ x ∈ served, x.address ≠ m.address :=
      fun x hx heq => hserved.1 (heq ▸ List.mem_map_of_mem hx)
    have h := ih (nodup_serve hmembers hnodup) hserved.2
      (by
        intro x hx
        have hx' := hmem x (mem_cons_of_mem _ hx)
        rw [hmembers, mem_append, mem_cons] at hx'
        rw [hmembers', mem_append, mem_append]
        rcases hx' with hx' | rfl | hx'
        · exact .inl (.inl hx')
        · exact absurd rfl (hother x hx)
        · exact .inr hx')
      (by
        intro x hx
        rw [requests_serve_of_ne hmembers hpre (hother x hx)]
        exact hrequests x (mem_cons_of_mem _ hx))
    rw [map_cons, foldl_cons]
    refine ⟨?_, fun a => ?_, ?_, ?_⟩
    · have hsame : ∀ l : List (AddressRewardAmount α),
          m.address ∉ l.map address →
          (l.filterMap fun x => if x.address ∈ served.map address
            then remains requests x else some x) =
          l.filterMap fun x => if x.address ∈ (m :: served).map address
            then remains requests x else some x := by
        intro l hl
        refine filterMap_congr fun x hx => ?_
        have hne : x.address ≠ m.address := fun heq => hl (heq ▸ List.mem_map_of_mem hx)
        simp [hne]
      rw [h.members, hmembers', hremains, hmembers, filterMap_append, filterMap_append,
        filterMap_append, filterMap_cons, hsame pre hpre, hsame post hpost,
        append_assoc]
      by_cases hfull : Full requests m
      · simp [remains_of_full hfull]
      obtain ⟨m', hm', haddr⟩ := exists_remains hfull
      have hm : ¬ ∃ x ∈ served, x.address = m.address := by simpa using hserved.1
      simp [hm', haddr, hm]
    · rw [h.cleared]
      rcases eq_or_ne a m.address with rfl | ha
      · rw [requests_serve hmembers hpre, hdue]
        by_cases hpaid : 0 < (due requests m).getD 0 <;> simp [hpaid]
      · rw [requests_serve_of_ne hmembers hpre ha]
        simp [Ne.symm ha]
    · rw [h.payouts, serve_eq hmembers hpre, hdue, filterMap_cons]
      cases due requests m with
      | none => simp
      | some x => by_cases hpaid : 0 < x <;> simp [hpaid]
    rw [h.total, serve_eq hmembers hpre, hdue, filterMap_cons]
    cases due requests m with
    | none => simp
    | some x => simp [sub_sub]

/-! ### All requests -/

/-- A member that withdraws everything is not followed, other than by the last, by one that
withdraws. -/
def Spaced (requests : α → Option UInt64) : List (AddressRewardAmount α) → Prop
  | m :: s :: rest =>
    (Full requests m → rest ≠ [] → due requests s = none) ∧ Spaced requests (s :: rest)
  | _ => True

variable (ms : List (AddressRewardAmount α))

omit [DecidableEq α] in
lemma visited_sublist : (visited requests ms).Sublist ms := by
  fun_induction visited requests ms with
  | case1 => exact List.Sublist.refl _
  | case2 m => exact List.Sublist.refl _
  | case3 m s rest hfull ih =>
    refine List.Sublist.cons_cons m ?_
    split
    · exact List.Sublist.cons_cons s (nil_sublist rest)
    · exact ih.cons s
  | case4 m s rest hfull ih => exact ih.cons_cons m

omit [DecidableEq α] in
/-- Everyone that is due something is reached exactly if the members are spaced. -/
lemma forall_mem_visited_iff {ms : List (AddressRewardAmount α)}
    (hnodup : (ms.map address).Nodup) :
    (∀ m ∈ ms, due requests m ≠ none → m ∈ visited requests ms) ↔ Spaced requests ms := by
  -- the first member is reached
  have hfirst : ∀ {m : AddressRewardAmount α} {l v}, m ∉ l →
      ((∀ x ∈ m :: l, due requests x ≠ none → x ∈ m :: v) ↔
        ∀ x ∈ l, due requests x ≠ none → x ∈ v) := by
    intro m l v hm
    refine ⟨fun h x hx hdue => ?_, fun h x hx hdue => ?_⟩
    · exact (mem_cons.1 (h x (mem_cons_of_mem _ hx) hdue)).resolve_left fun heq => hm (heq ▸ hx)
    · exact (mem_cons.1 hx).elim (fun heq => heq ▸ mem_cons_self)
        fun hx => mem_cons_of_mem _ (h x hx hdue)
  fun_induction visited requests ms with
  | case1 => simp [Spaced]
  | case2 m => simp [Spaced]
  | case3 m s rest hfull ih =>
    have hnodup' := hnodup.of_map
    rw [nodup_cons, nodup_cons] at hnodup'
    cases rest with
    | nil => simp [Spaced]
    | cons t rest =>
      rw [map_cons, map_cons, nodup_cons, nodup_cons] at hnodup
      have hs : s ∉ visited requests (t :: rest) :=
        fun h => hnodup'.2.1 ((visited_sublist _).subset h)
      rw [isEmpty_cons, if_neg Bool.false_ne_true, hfirst hnodup'.1, Spaced, Spaced,
        forall_mem_cons]
      simp only [hs, imp_false, not_not, hfull, true_imp_iff, ne_eq, reduceCtorEq,
        not_false_eq_true]
      refine and_congr_right fun hnone => (ih hnodup.2.2).trans
        (and_iff_right fun hfull' => ?_).symm
      rw [Full, hnone] at hfull'
      cases hfull'
  | case4 m s rest hfull ih =>
    have hm : m ∉ s :: rest := (nodup_cons.1 hnodup.of_map).1
    rw [map_cons, nodup_cons] at hnodup
    rw [Spaced, hfirst hm, and_iff_right fun h => absurd h hfull]
    exact ih hnodup.2

/-- Members that are not served are not due anything. -/
lemma filterMap_eq_of_sublist {β γ : Type} {f : β → Option γ} {l ms : List β} (h : l.Sublist ms)
    (hnodup : ms.Nodup) (hrest : ∀ m ∈ ms, f m ≠ none → m ∈ l) :
    l.filterMap f = ms.filterMap f := by
  induction h with
  | slnil => rfl
  | cons m h ih =>
    rw [nodup_cons] at hnodup
    have hm : f m = none := by
      by_contra hm
      exact hnodup.1 (h.subset (hrest m mem_cons_self hm))
    rw [filterMap_cons_none hm]
    exact ih hnodup.2 fun x hx => hrest x (mem_cons_of_mem _ hx)
  | cons_cons m h ih =>
    rw [nodup_cons] at hnodup
    have hrest' := ih hnodup.2 fun x hx hfx =>
      (mem_cons.1 (hrest x (mem_cons_of_mem _ hx) hfx)).resolve_left fun heq => hnodup.1 (heq ▸ hx)
    rw [filterMap_cons, filterMap_cons, hrest']

/-- What members hold together. -/
def sumAmounts : ℕ :=
  (ms.map fun m => m.amount.toNat).sum

omit [DecidableEq α] in
lemma ofNat_sumAmounts :
    UInt64.ofNat (sumAmounts ms) =
      UInt64.ofNat (sumAmounts (ms.filterMap (remains requests))) +
        (ms.filterMap (due requests)).sum := by
  induction ms with
  | nil => rfl
  | cons m ms ih =>
    have hcons : ∀ (m : AddressRewardAmount α) ms,
        UInt64.ofNat (sumAmounts (m :: ms)) = m.amount + UInt64.ofNat (sumAmounts ms) := by
      intro m ms
      rw [sumAmounts, map_cons, sum_cons, UInt64.ofNat_add, UInt64.ofNat_toNat]
      rfl
    rw [hcons, ih]
    cases hdue : due requests m with
    | none =>
      have hremains : remains requests m = some m := by rw [remains, hdue]
      grind
    | some x =>
      by_cases hx : m.amount = x
      · have hremains : remains requests m = none := by rw [remains, hdue]; exact if_pos hx
        grind
      have hremains : remains requests m = some { m with amount := m.amount - x } := by
        rw [remains, hdue]
        exact if_neg hx
      grind

/-- Every request of at most the amount of its member has been served, once; others have been left.
The total is that of the members. -/
structure Served (requests : α → Option UInt64) (pl : PledgeList α) (w : Walk α) : Prop where
  payouts : w.payouts = pl.members.filterMap fun m =>
    (due requests m).map fun x => (m.address, x)
  cleared : ∀ a, w.requests a =
    if ∃ m ∈ pl.members, m.address = a ∧ due requests m ≠ none then none else requests a
  members : w.list.members = pl.members.filterMap (remains requests)
  total : w.list.totalAmount.toNat = sumAmounts w.list.members

/-- The condition under which `withdrawRecords` serves all requests. -/
structure Servable (requests : α → Option UInt64) (pl : PledgeList α) : Prop where
  spaced : Spaced requests pl.members
  positive : ∀ m ∈ pl.members, due requests m ≠ some 0
  total : pl.totalAmount = UInt64.ofNat (sumAmounts pl.members)
  fits : sumAmounts (pl.members.filterMap (remains requests)) < 2 ^ 64

/-- Withdrawals are all served exactly under the condition of `Servable`. -/
theorem served_iff {pl : PledgeList α} (hnodup : (pl.members.map address).Nodup) :
    Served requests pl (withdrawRecords requests pl) ↔ Servable requests pl := by
  have hsub : (visited requests pl.members).Sublist pl.members := visited_sublist _
  have hafter : After requests (visited requests pl.members) ⟨pl, [], requests, []⟩
      (withdrawRecords requests pl) := by
    rw [withdrawRecords_eq_foldl hnodup]
    exact after_foldl_serve hnodup (hnodup.sublist (hsub.map _)) (fun m hm => hsub.subset hm)
      fun _ _ => rfl
  have hinj : ∀ m ∈ pl.members, ∀ m' ∈ pl.members, m.address = m'.address → m = m' :=
    fun m hm m' hm' heq => inj_on_of_nodup_map hnodup hm hm' heq
  -- with everyone reached, the list is as it should be, and the total has gone down as much
  have hlist : (∀ m ∈ pl.members, due requests m ≠ none → m ∈ visited requests pl.members) →
      (withdrawRecords requests pl).list.members = pl.members.filterMap (remains requests) ∧
      (withdrawRecords requests pl).list.totalAmount =
        pl.totalAmount - (pl.members.filterMap (due requests)).sum := by
    intro hall
    refine ⟨hafter.members.trans (filterMap_congr fun m hm => ?_), ?_⟩
    · split
      · rfl
      rename_i hnot
      have hnone : due requests m = none := by
        by_contra h
        exact hnot (List.mem_map_of_mem (hall m hm h))
      rw [remains, hnone]
    · rw [hafter.total, filterMap_eq_of_sublist hsub hnodup.of_map hall]
  constructor
  · intro hserved
    have hpaid : ∀ m ∈ pl.members, due requests m ≠ none →
        m ∈ visited requests pl.members ∧ 0 < (due requests m).getD 0 := by
      intro m hm hdue
      have hnone := hserved.cleared m.address
      rw [if_pos ⟨m, hm, rfl, hdue⟩, hafter.cleared] at hnone
      split at hnone
      · rename_i h
        obtain ⟨m', hm', haddr, hpos⟩ := h
        obtain rfl := hinj m' (hsub.subset hm') m hm haddr
        exact ⟨hm', hpos⟩
      change requests m.address = none at hnone
      rw [due, hnone] at hdue
      exact absurd rfl hdue
    obtain ⟨hmembers, htotal⟩ := hlist fun m hm hdue => (hpaid m hm hdue).1
    have hsum := hserved.total
    rw [hmembers] at hsum
    refine ⟨(forall_mem_visited_iff hnodup).1 fun m hm hdue => (hpaid m hm hdue).1,
      fun m hm hzero => ?_, ?_, hsum ▸ UInt64.toNat_lt _⟩
    · have hpos := (hpaid m hm (by simp [hzero])).2
      rw [hzero] at hpos
      exact absurd hpos (by decide)
    · rw [@ofNat_sumAmounts α requests, ← hsum, UInt64.ofNat_toNat, htotal, sub_add_cancel]
  intro h
  have hall := (forall_mem_visited_iff hnodup).2 h.spaced
  obtain ⟨hmembers, htotal⟩ := hlist hall
  have hpos : ∀ m ∈ pl.members, due requests m ≠ none → 0 < (due requests m).getD 0 := by
    intro m hm hdue
    obtain ⟨x, hx⟩ := ne_none_iff_exists'.1 hdue
    have hne : x ≠ 0 := fun hzero => h.positive m hm (hzero ▸ hx)
    rw [hx]
    exact UInt64.pos_iff_ne_zero.2 hne
  refine ⟨?_, fun a => ?_, hmembers, ?_⟩
  · rw [hafter.payouts, filterMap_eq_of_sublist hsub hnodup.of_map fun m hm hne => hall m hm ?_]
    · refine filterMap_congr fun m hm => ?_
      cases hdue : due requests m with
      | none => rfl
      | some x =>
        have := hpos m hm (by simp [hdue])
        rw [hdue] at this
        exact if_pos this
    rintro hdue
    rw [hdue] at hne
    exact hne rfl
  · rw [hafter.cleared]
    refine if_congr ⟨?_, ?_⟩ rfl rfl
    · rintro ⟨m, hm, haddr, hpos⟩
      refine ⟨m, hsub.subset hm, haddr, fun hdue => ?_⟩
      rw [hdue] at hpos
      exact absurd hpos (by decide)
    · rintro ⟨m, hm, haddr, hdue⟩
      exact ⟨m, hall m hm hdue, haddr, hpos m hm hdue⟩
  · rw [hmembers, htotal, h.total, @ofNat_sumAmounts α requests, add_sub_cancel_right,
      UInt64.toNat_ofNat_of_lt' h.fits]

namespace ThreeMembers

/-- Three members with five each. -/
def list : PledgeList (Fin 3) :=
  ⟨15, [], [⟨0, 5, 0⟩, ⟨1, 5, 0⟩, ⟨2, 5, 0⟩]⟩

/-- The first withdraws everything, and the last a part. -/
def twoRequests : Fin 3 → Option UInt64
  | 0 => some maxUint64
  | 1 => none
  | 2 => some 2

/-- Two requests are served. -/
theorem served_twoRequests : (list.members.map address).Nodup ∧
    Served twoRequests list (withdrawRecords twoRequests list) := by
  refine ⟨by decide, (served_iff (by decide)).2 ⟨?_, by decide, by decide, by decide⟩⟩
  exact ⟨fun _ _ => rfl, nofun, trivial⟩

/-- All three withdraw everything: the second is passed over. -/
theorem passed_over : (list.members.map address).Nodup ∧
    list.totalAmount.toNat = sumAmounts list.members ∧
    (withdrawRecords (fun _ => some maxUint64) list).payouts = [(0, 5), (2, 5)] ∧
    ¬ Served (fun _ => some maxUint64) list (withdrawRecords (fun _ => some maxUint64) list) :=
  ⟨by decide, by decide, by decide, fun h => absurd h.payouts (by decide)⟩

end ThreeMembers

end ZwsChain.Pledge
