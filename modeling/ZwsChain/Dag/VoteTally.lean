import ZwsChain.Contracts.PledgeRounds
import Mathlib

/-!
# Votes for mediators

Votes are weighted by pledges. The list of pledges is stored in parts, whose members
`GetPledgeList` appends, and the pending deposits are added to it. `GetMediatorVotedResults` adds
up the members of the list, and `GetVotingForMediator` assigns the amount of a member to its
address, so that of an address in several parts the last one counts.

* `talliesAgree_iff`: both are what the voters have pledged iff the members that are followed by
  one of the same address sum to zero.
* `TwoParts.tallies_differ`: an address with pledges in two parts.

Sources without a file are in `dag/common/state_repository.go`.
-/

open List Function

namespace ZwsChain.Pledge

open AddressRewardAmount

variable {α β : Type} [LinearOrder α] [DecidableEq β]

/-- The parts are in the order in which the map of them is iterated; after an error there are none.
Source: `GetPledgeList` -/
def getPledgeList (date : List Char) (parts : List (PledgeList α)) : PledgeList α :=
  ⟨(parts.map PledgeList.totalAmount).sum, date, parts.flatMap PledgeList.members⟩

/-- Withdrawals do not count.
Source: `GetPledgeListWithNew` -/
def getPledgeListWithNew (pledgeList : PledgeList α) (newDepositList : List (α × UInt64)) :
    PledgeList α :=
  newDepositList.foldl (fun result deposit => result.add deposit.1 deposit.2 0) pledgeList

/-- Source: `dag/modules/pledge.go`, `GetAmount` -/
def PledgeList.getAmount (pl : PledgeList α) (addr : α) : UInt64 :=
  ((pl.members.filter (address · = addr)).map amount).sum

variable (voted : α → Finset β) (pl : PledgeList α) (med : β)

/-- The members that have voted for a mediator. -/
def voters : List (AddressRewardAmount α) :=
  pl.members.filter fun m => med ∈ voted m.address

/-- The mediators of an account are the keys of a map: each of them that is a candidate is raised
once.
Source: `GetMediatorVotedResults` -/
def getMediatorVotedResults (mediators : Finset β) : β → Option UInt64 :=
  pl.members.foldl
    (fun count m med => (count med).map fun n => if med ∈ voted m.address then n + m.amount else n)
    fun med => if med ∈ mediators then some 0 else none

/-- Source: `GetVotingForMediator` -/
def getVotingForMediator : α → Option UInt64 :=
  pl.members.foldl
    (fun count m =>
      if med ∈ voted m.address then update count m.address (some m.amount) else count)
    fun _ => none

/-- For each candidate the result is the sum of the votes, and of what its voters have pledged and
what is pending of them. -/
def TalliesAgree (mediators : Finset β) (newDepositList : List (α × UInt64)) : Prop :=
  let new := getPledgeListWithNew pl newDepositList
  let addrs := (new.members.map address).toFinset
  ∀ med ∈ mediators,
    getMediatorVotedResults voted new mediators med =
      some (∑ a ∈ addrs, (getVotingForMediator voted new med a).getD 0) ∧
    getMediatorVotedResults voted new mediators med =
      some (∑ a ∈ addrs, if med ∈ voted a then pl.getAmount a +
        ((newDepositList.filter (·.1 = a)).map Prod.snd).sum else 0)

variable {voted pl}

lemma getAmount_add (addr : α) (x reward : UInt64) (a : α) :
    (pl.add addr x reward).getAmount a = pl.getAmount a + if addr = a then x else 0 := by
  unfold PledgeList.getAmount PledgeList.add
  induction pl.members with
  | nil => by_cases h : addr = a <;> simp [addMember, h]
  | cons m ms ih =>
    rw [addMember]
    by_cases haddr : m.address = addr
    · subst haddr
      by_cases h : m.address = a <;> simp [h, add_right_comm]
    · rw [if_neg haddr]
      by_cases h : m.address = a <;> simp [h, ih, add_assoc]

lemma getAmount_withNew (newDepositList : List (α × UInt64)) (a : α) :
    (getPledgeListWithNew pl newDepositList).getAmount a =
      pl.getAmount a + ((newDepositList.filter (·.1 = a)).map Prod.snd).sum := by
  induction newDepositList generalizing pl with
  | nil => simp [getPledgeListWithNew]
  | cons d ds ih =>
    refine ih.trans ?_
    rw [getAmount_add, filter_cons]
    by_cases h : d.1 = a <;> simp [h, add_assoc]

omit [LinearOrder α] in
lemma getMediatorVotedResults_eq {mediators : Finset β} {med : β} (hmed : med ∈ mediators) :
    getMediatorVotedResults voted pl mediators med =
      some ((voters voted pl med).map amount).sum := by
  unfold getMediatorVotedResults voters
  induction pl.members using List.reverseRecOn with
  | nil => exact if_pos hmed
  | append_singleton ms m ih =>
    rw [foldl_append, foldl_cons, foldl_nil, ih, filter_append]
    by_cases h : med ∈ voted m.address <;> simp [h]

/-- The last member of an address counts. -/
lemma getVotingForMediator_eq (a : α) :
    getVotingForMediator voted pl med a =
      ((voters voted pl med).filter (address · = a)).getLast?.map amount := by
  unfold getVotingForMediator voters
  induction pl.members using List.reverseRecOn with
  | nil => rfl
  | append_singleton ms m ih =>
    by_cases h : med ∈ voted m.address
    · rcases eq_or_ne m.address a with rfl | ha
      · simp [h]
      · simp [h, ha, update_of_ne (Ne.symm ha), ih]
    · simp [h, ih]

lemma sum_voters_filter (a : α) :
    (((voters voted pl med).filter (address · = a)).map amount).sum =
      if med ∈ voted a then pl.getAmount a else 0 := by
  have hvoted : ∀ m ∈ pl.members.filter (address · = a),
      decide (med ∈ voted m.address) = decide (med ∈ voted a) := by
    intro m hm
    rw [of_decide_eq_true (mem_filter.1 hm).2]
  rw [voters, filter_comm, filter_congr hvoted]
  split_ifs with h <;> simp [h, PledgeList.getAmount]

/-- The sums of the addresses sum to that of the list. -/
lemma sum_filter_address {s : Finset α} {l : List (AddressRewardAmount α)}
    (h : ∀ m ∈ l, m.address ∈ s) :
    ∑ a ∈ s, ((l.filter (address · = a)).map amount).sum = (l.map amount).sum := by
  induction l with
  | nil => simp
  | cons m l ih =>
    obtain ⟨hm, hl⟩ := forall_mem_cons.1 h
    have hsplit : ∀ a ∈ s, (((m :: l).filter (address · = a)).map amount).sum =
        (if m.address = a then m.amount else 0) + ((l.filter (address · = a)).map amount).sum := by
      intro a _
      by_cases ha : m.address = a <;> simp [ha]
    rw [Finset.sum_congr rfl hsplit, Finset.sum_add_distrib, Finset.sum_ite_eq, if_pos hm, ih hl,
      map_cons, sum_cons]

/-- The tallies agree iff, for each candidate, the members of voters that are followed by one of the
same address sum to zero. -/
theorem talliesAgree_iff (mediators : Finset β) (newDepositList : List (α × UInt64)) :
    TalliesAgree voted pl mediators newDepositList ↔ ∀ med ∈ mediators,
      ∑ a ∈ ((getPledgeListWithNew pl newDepositList).members.map address).toFinset,
        (((voters voted (getPledgeListWithNew pl newDepositList) med).filter
          (address · = a)).dropLast.map amount).sum = 0 := by
  refine forall₂_congr fun med hmed => ?_
  set new := getPledgeListWithNew pl newDepositList with hnew
  set l := voters voted new med with hl
  have hmem : ∀ m ∈ l, m.address ∈ (new.members.map address).toFinset := fun m hm =>
    mem_toFinset.2 (mem_map_of_mem (mem_of_mem_filter hm))
  simp only [getMediatorVotedResults_eq hmed, getVotingForMediator_eq, ← getAmount_withNew,
    ← sum_voters_filter, ← hnew, ← hl, sum_filter_address hmem, and_true, Option.some.injEq]
  have hlast : ∀ a, ((l.filter (address · = a)).map amount).sum =
      ((l.filter (address · = a)).dropLast.map amount).sum +
        ((l.filter (address · = a)).getLast?.map amount).getD 0 := by
    intro a
    induction l.filter (address · = a) using List.reverseRecOn <;> simp
  rw [← sum_filter_address hmem, Finset.sum_congr rfl fun a _ => hlast a, Finset.sum_add_distrib]
  exact add_eq_right

/-- An address with a pledge of 2 in one part and one of 3 in the other. -/
theorem TwoParts.tallies_differ : ∃ parts : List (PledgeList Unit),
    parts.map PledgeList.totalAmount = [2, 3] ∧
    getMediatorVotedResults (fun _ => {()}) (getPledgeList [] parts) {()} () = some 5 ∧
    getVotingForMediator (fun _ => {()}) (getPledgeList [] parts) () () = some 3 ∧
    ¬ TalliesAgree (fun _ => {()}) (getPledgeList [] parts) {()} [] := by
  refine ⟨[⟨2, [], [⟨(), 2, 0⟩]⟩, ⟨3, [], [⟨(), 3, 0⟩]⟩], rfl, by decide, by decide, fun h => ?_⟩
  exact absurd (h () (by decide)).1 (by decide)

end ZwsChain.Pledge
