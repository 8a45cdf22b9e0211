import ZwsChain.Contracts.Deposit
import ZwsChain.Contracts.Pledge
import Mathlib

/-!
# Pledge rounds

`contracts/syscontract/deposit/pledge_rep.go`: rewards are allocated once a day, in batches. Each
batch writes a part of the list of the new date; then pledges of new addresses are added, in batches
too, and the new date becomes the last one. The last list is all that is stored under keys that
start with the last date.

A call that returns an error or panics is `none`: it has no effect.

* `Books.conserved_run`: for each address, what is pending, recorded and paid out is what it has
  pledged and been granted, if a round keeps its date, writes no part twice and does not start anew.
* `TwoDays.part_lost`: a round that goes on after midnight loses its first part.

Sources without a file are in `deposit/pledge_rep.go`.
-/

open List Option Function

namespace ZwsChain.Pledge

open AddressRewardAmount PledgeList

/-! ### Texts -/

/-- Source: `strconv.Itoa` -/
def itoa (n : ℤ) : List Char :=
  if n < 0 then '-' :: Nat.toDigits 10 n.natAbs else Nat.toDigits 10 n.toNat

/-- A text that is no number is zero; dates have no sign.
Source: `strconv.Atoi`, its error ignored -/
def atoi (t : List Char) : ℤ :=
  if t.all Char.isDigit then t.foldl (fun n c => 10 * n + (c.toNat - '0'.toNat : ℕ)) 0 else 0

/-! ### State -/

/-- What the contract stores. -/
structure State (α : Type) where
  /-- `PLEDGE_DEPOSIT_PREFIX`. -/
  deposits : α → Option UInt64
  /-- `PLEDGE_WITHDRAW_PREFIX`. -/
  withdrawals : α → Option UInt64
  /-- What is stored under `PledgeList` and a date, by the rest of the key. -/
  lists : List (List Char × PledgeList α)
  /-- `PledgeListLastDate`, empty if there is none. -/
  lastDate : List Char
  /-- Whether `allocate` is set. -/
  allocate : Bool
  haveAllocatedCount : Option ℤ
  /-- `AddNewAddress`. -/
  addNewAddress : Option (List Char)

/-- A call of `handlePledgeReward` with its surroundings. -/
structure RewardCall (α : Type) where
  /-- `isFoundationInvoke`. -/
  foundation : Bool
  today : List Char
  pledgeAllocateThreshold : ℤ
  pledgeRecordsThreshold : ℤ
  /-- The reward for a member, `uint64(rewardPerDao * float64(amount))`. -/
  reward : α → UInt64
  /-- The addresses with pending pledges, as the query for them returns them. -/
  rows : List α

/-- What a call does. -/
structure Outcome (α : Type) where
  state : State α
  payouts : List (α × UInt64) := []
  granted : List (α × UInt64) := []

variable {α : Type} [LinearOrder α]

/-- The loop of `Add`. -/
def addMember (addr : α) (amount reward : UInt64) :
    List (AddressRewardAmount α) → List (AddressRewardAmount α)
  | [] => [⟨addr, amount, reward⟩]
  | p :: ps =>
    if p.address = addr then ⟨p.address, p.amount + amount, p.reward + reward⟩ :: ps
    else p :: addMember addr amount reward ps

/-- Source: `dag/modules/pledge.go`, `Add` -/
def PledgeList.add (pl : PledgeList α) (addr : α) (amount reward : UInt64) : PledgeList α :=
  { pl with
    totalAmount := pl.totalAmount + amount
    members := addMember addr amount reward pl.members }

/-- Source: `mergeMember` -/
def mergeMember (pl : PledgeList α) : PledgeList α :=
  pl.members.foldl (fun l m => l.add m.address m.amount m.reward) ⟨0, [], []⟩

/-- The members from `haveCount` on, at most `threshold` of them, with their rewards.
Source: `pledgeRewardAllocation` -/
def pledgeRewardAllocation (reward : α → UInt64) (date : List Char)
    (part : List (AddressRewardAmount α)) : PledgeList α :=
  let members := part.map fun m =>
    ⟨m.address, m.amount + reward m.address, reward m.address⟩
  ⟨(members.map amount).sum, date, members⟩

variable (deposits : α → Option UInt64)

/-- Source: `addDepositRecords` -/
def addDepositRecords (pl : PledgeList α) :
    (α → Option UInt64) × PledgeList α :=
  (pl.members.map address).foldl (fun (deposits, pl) addr =>
    match deposits addr with
    | none => (deposits, pl)
    | some amount => (update deposits addr none, pl.add addr amount 0)) (deposits, pl)

namespace State

variable (s : State α) (c : RewardCall α)

def putList (key : List Char) (pl : PledgeList α) : State α :=
  { s with lists := s.lists.filter (fun kp => kp.1 ≠ key) ++ [(key, pl)] }

/-- The members of all lists of the last date, by their addresses.
Source: `deposit/pledge_state.go`, `getLastPledgeList` and `getPledgeListByDate` -/
def getLastPledgeList : PledgeList α :=
  let rows := (s.lists.filter fun kp => s.lastDate.isPrefixOf kp.1).map Prod.snd
  ⟨(rows.map totalAmount).sum, s.lastDate,
    (rows.flatMap PledgeList.members).insertionSort fun m m' => m.address ≤ m'.address⟩

/-- Whether there is no list of the last date. -/
def noList : Bool :=
  s.lists.all fun kp => !s.lastDate.isPrefixOf kp.1

/-- The allocation is over, or there is no list to allocate from. -/
def adding : Bool :=
  s.allocate || s.lastDate.isEmpty || s.noList

/-- The members to be rewarded. -/
def members : List (AddressRewardAmount α) :=
  (mergeMember s.getLastPledgeList).members

/-- The date that a call works for. -/
def date : List Char :=
  let today := if c.foundation then itoa (atoi s.lastDate + 1) else c.today
  if s.adding then s.addNewAddress.getD today else today

/-- The key of the list that a call writes. -/
def key : List Char :=
  let haveCount := s.haveAllocatedCount.getD 0
  if s.adding then
    s.date c ++ ['a', 'd', 'd', 'N', 'e', 'w'] ++ itoa (haveCount.tdiv c.pledgeRecordsThreshold)
  else if c.pledgeAllocateThreshold < s.members.length then
    let count := haveCount.tdiv c.pledgeAllocateThreshold
    s.date c ++ if count = 0 then [] else itoa count
  else s.date c

/-- A part of the list is rewarded, gets what its members have pledged since, pays what they
withdraw, and is stored. -/
def writePart (part : List (AddressRewardAmount α)) : Outcome α :=
  let (deposits, pl) :=
    addDepositRecords s.deposits (pledgeRewardAllocation c.reward (s.date c) part)
  let w := withdrawRecords s.withdrawals pl
  { state := { s.putList (s.key c) w.list with deposits, withdrawals := w.requests }
    payouts := w.payouts
    granted := part.map fun m => (m.address, c.reward m.address) }

/-- Source: `handleRewardAllocationOver`, also the end of `unNeed` -/
def finish (date : List Char) : State α :=
  { s with allocate := true, addNewAddress := some date }

/-- Source: `need` -/
def need : Option (Outcome α) :=
  let haveCount := s.haveAllocatedCount.getD 0
  if haveCount < 0 ∨ s.members.length < haveCount ∨ c.pledgeAllocateThreshold = 0 then none
  else
    let out := s.writePart c ((s.members.drop haveCount.toNat).take c.pledgeAllocateThreshold.toNat)
    let haveCount := haveCount + c.pledgeAllocateThreshold
    some { out with state := if s.members.length ≤ haveCount then
      { out.state.finish (s.date c) with haveAllocatedCount := none }
      else { out.state with haveAllocatedCount := some haveCount } }

/-- Source: `unNeed` -/
def unNeed : Outcome α :=
  let out := s.writePart c (s.members.take c.pledgeAllocateThreshold.toNat)
  { out with state := out.state.finish (s.date c) }

/-- Source: `addNewAddrPledgeRecords` -/
def addNewAddrPledgeRecords : Option (Outcome α) :=
  if c.rows = [] then some ⟨{ s with allocate := false, lastDate := s.date c }, [], []⟩
  else if c.pledgeRecordsThreshold = 0 then none
  else
    let taken := c.rows.take c.pledgeRecordsThreshold.toNat
    let pl := taken.foldl (fun pl a => pl.add a ((s.deposits a).getD 0) 0) ⟨0, s.date c, []⟩
    let s' := { s.putList (s.key c) pl with
      deposits := fun a => if a ∈ taken then none else s.deposits a }
    if c.rows.length ≤ c.pledgeRecordsThreshold then
      some ⟨{ s' with
        haveAllocatedCount := none
        allocate := false
        addNewAddress := some (s.date c)
        lastDate := s.date c }, [], []⟩
    else some ⟨{ s' with
      haveAllocatedCount := some (s.haveAllocatedCount.getD 0 + c.pledgeRecordsThreshold) }, [], []⟩

/-- Source: `handleRewardAllocation` -/
def handleRewardAllocation : Option (Outcome α) :=
  if c.foundation = false ∧ s.lastDate = c.today then none
  else if s.adding then s.addNewAddrPledgeRecords c
  else if c.pledgeAllocateThreshold < s.members.length then s.need c
  else some (s.unNeed c)

end State

/-! ### Sums -/

variable (a : α)

/-- What an address has in a list of amounts. -/
def owed (l : List (α × UInt64)) : ℕ :=
  (l.map fun p => if p.1 = a then p.2.toNat else 0).sum

/-- What an address has as a member. -/
def sumOf (ms : List (AddressRewardAmount α)) : ℕ :=
  owed a (ms.map fun m => (m.address, m.amount))

@[simp] lemma owed_nil : owed a [] = 0 := rfl

@[simp] lemma owed_cons (p : α × UInt64) (l : List (α × UInt64)) :
    owed a (p :: l) = (if p.1 = a then p.2.toNat else 0) + owed a l := rfl

@[simp] lemma owed_append (l l' : List (α × UInt64)) :
    owed a (l ++ l') = owed a l + owed a l' := by
  simp [owed]

@[simp] lemma sumOf_nil : sumOf a [] = 0 := rfl

@[simp] lemma sumOf_cons (m : AddressRewardAmount α) (ms : List (AddressRewardAmount α)) :
    sumOf a (m :: ms) = (if m.address = a then m.amount.toNat else 0) + sumOf a ms := rfl

@[simp] lemma sumOf_append (ms ms' : List (AddressRewardAmount α)) :
    sumOf a (ms ++ ms') = sumOf a ms + sumOf a ms' := by
  simp [sumOf]

variable {x amount : UInt64} {addr : α} {ms : List (AddressRewardAmount α)}

lemma toNat_add_of_lt {y : UInt64} (h : x.toNat + y.toNat < 2 ^ 64) :
    (x + y).toNat = x.toNat + y.toNat := by
  rw [UInt64.toNat_add, Nat.mod_eq_of_lt h]

lemma sumOf_addMember (h : sumOf addr ms + amount.toNat < 2 ^ 64) (reward : UInt64) (a : α) :
    sumOf a (addMember addr amount reward ms) =
      sumOf a ms + if addr = a then amount.toNat else 0 := by
  induction ms with
  | nil => simp [addMember]
  | cons m ms ih =>
    rw [sumOf_cons] at h
    rw [addMember]
    split
    · rename_i heq
      rw [if_pos heq] at h
      rw [sumOf_cons, sumOf_cons, toNat_add_of_lt (by omega), heq]
      split <;> omega
    rename_i hne
    rw [if_neg hne, Nat.zero_add] at h
    rw [sumOf_cons, sumOf_cons, ih h]
    omega

/-- Amounts that are added one after another. -/
lemma sumOf_foldl_add {β : Type} (addr : β → α) (amount reward : β → UInt64) (l : List β) :
    ∀ {pl : PledgeList α},
      (∀ a, sumOf a pl.members + owed a (l.map fun x => (addr x, amount x)) < 2 ^ 64) →
      (∀ a, sumOf a (l.foldl (fun pl x => pl.add (addr x) (amount x) (reward x)) pl).members =
        sumOf a pl.members + owed a (l.map fun x => (addr x, amount x))) ∧
      (l.foldl (fun pl x => pl.add (addr x) (amount x) (reward x)) pl).date = pl.date := by
  induction l with
  | nil => exact fun _ => ⟨fun _ => rfl, rfl⟩
  | cons x l ih =>
    intro pl h
    have hx := h (addr x)
    simp only [map_cons, owed_cons, if_true] at h hx
    have hadd := sumOf_addMember (show sumOf (addr x) pl.members + (amount x).toNat < _ by omega)
      (reward x)
    obtain ⟨hsum, hdate⟩ := @ih (pl.add (addr x) (amount x) (reward x)) fun a => by
      have := h a
      rw [add, hadd]
      omega
    refine ⟨fun a => ?_, hdate⟩
    rw [foldl_cons, hsum, add, hadd]
    simp only [map_cons, owed_cons]
    omega

lemma sumOf_reduceMembers {cut : Bool} {ms' : List (AddressRewardAmount α)}
    (h : reduceMembers addr amount ms = some (x, ms', cut)) (a : α) :
    sumOf a ms' + (if addr = a then x.toNat else 0) = sumOf a ms := by
  induction ms generalizing ms' cut with
  | nil => cases h
  | cons m ms ih =>
    rw [reduceMembers] at h
    split at h
    · rename_i heq
      dsimp only at h
      generalize (if amount = maxUint64 then m.amount else amount) = y at h
      split at h
      · cases h
      rename_i hle
      split at h
      · rename_i hall
        obtain ⟨rfl, rfl, -⟩ := by simpa using h
        rw [sumOf_cons, heq, hall]
        omega
      obtain ⟨rfl, rfl, -⟩ := by simpa using h
      rw [sumOf_cons, sumOf_cons, heq, UInt64.toNat_sub_of_le _ _ (UInt64.not_lt.1 hle)]
      have := UInt64.le_iff_toNat_le.1 (UInt64.not_lt.1 hle)
      split <;> omega
    obtain ⟨⟨x', ms'', cut'⟩, hreduce, heq⟩ := map_eq_some_iff.1 h
    obtain ⟨rfl, rfl, -⟩ := by simpa using heq
    rw [sumOf_cons, sumOf_cons, ← ih hreduce]
    omega

/-- What is withdrawn has been in the list. -/
lemma sumOf_withdrawRecords (requests : α → Option UInt64) (pl : PledgeList α) :
    (∀ a, sumOf a (withdrawRecords requests pl).list.members +
      owed a (withdrawRecords requests pl).payouts = sumOf a pl.members) ∧
    (withdrawRecords requests pl).list.date = pl.date := by
  let I : Walk α → Prop := fun w =>
    (∀ a, sumOf a w.list.members + owed a w.payouts = sumOf a pl.members) ∧ w.list.date = pl.date
  have hserve : ∀ w addr, I w → I (w.serve addr) := by
    rintro w addr ⟨hall, hdate⟩
    rw [Walk.serve]
    split
    · exact ⟨hall, hdate⟩
    split
    · exact ⟨hall, hdate⟩
    rename_i x pl cut hreduce
    obtain ⟨⟨x', ms, cut'⟩, hmembers, heq⟩ := map_eq_some_iff.1 hreduce
    obtain ⟨rfl, rfl, rfl⟩ := by simpa using heq
    refine ⟨fun a => (?_ : _ = _).trans (hall a), hdate⟩
    have hsum := sumOf_reduceMembers hmembers a
    by_cases hpos : 0 < x'
    · simp only [if_pos hpos, owed_append, owed_cons, owed_nil]
      omega
    have hzero : x'.toNat = 0 := by simpa [UInt64.lt_iff_toNat_lt] using hpos
    simp only [if_neg hpos, hzero, ite_self] at hsum ⊢
    omega
  show I (withdrawRecords requests pl)
  refine foldlRecOn (motive := I) _ _ ⟨fun _ => rfl, rfl⟩ fun w hw k _ => ?_
  rw [Walk.visit]
  split
  · exact hw
  · exact hserve w _ hw

/-- What is pending for an address. -/
def pending : ℕ :=
  ((deposits a).getD 0).toNat

lemma owed_map_pending {l : List α} (hl : l.Nodup) (a : α) :
    owed a (l.map fun a => (a, (deposits a).getD 0)) =
      if a ∈ l then pending deposits a else 0 := by
  induction l with
  | nil => rfl
  | cons b l ih =>
    rw [nodup_cons] at hl
    rw [map_cons, owed_cons, ih hl.2]
    rcases eq_or_ne b a with rfl | hne
    · simp [hl.1, pending]
    · simp [hne, Ne.symm hne]

/-- What has been pending is in the list. -/
lemma sumOf_addDepositRecords {deposits : α → Option UInt64} {pl : PledgeList α}
    (h : ∀ a, pending deposits a + sumOf a pl.members < 2 ^ 64) :
    (∀ a, pending (addDepositRecords deposits pl).1 a +
      sumOf a (addDepositRecords deposits pl).2.members = pending deposits a + sumOf a pl.members) ∧
    (addDepositRecords deposits pl).2.date = pl.date := by
  rw [addDepositRecords]
  generalize pl.members.map address = addrs
  induction addrs generalizing deposits pl with
  | nil => exact ⟨fun _ => rfl, rfl⟩
  | cons addr addrs ih =>
    cases hdep : deposits addr with
    | none =>
      simp only [foldl_cons, hdep]
      exact ih h
    | some amount =>
      simp only [foldl_cons, hdep]
      have haddr := h addr
      rw [pending, hdep, getD_some] at haddr
      have hsame : ∀ a, pending (update deposits addr none) a +
          sumOf a (pl.add addr amount 0).members = pending deposits a + sumOf a pl.members := by
        intro a
        rw [add, sumOf_addMember (by omega), pending, pending]
        rcases eq_or_ne a addr with rfl | ha
        · rw [update_self, hdep, if_pos rfl, getD_none, getD_some]
          simp only [UInt64.toNat_zero]
          omega
        · rw [update_of_ne ha, if_neg (Ne.symm ha)]
          omega
      obtain ⟨hsum, hdate⟩ := ih (fun a => (hsame a).symm ▸ h a)
      exact ⟨fun a => (hsum a).trans (hsame a), hdate⟩

lemma sumOf_pledgeRewardAllocation {reward : α → UInt64} {part : List (AddressRewardAmount α)}
    (h : ∀ a, sumOf a part + owed a (part.map fun m => (m.address, reward m.address)) < 2 ^ 64)
    (date : List Char) (a : α) :
    sumOf a (pledgeRewardAllocation reward date part).members =
      sumOf a part + owed a (part.map fun m => (m.address, reward m.address)) := by
  rw [pledgeRewardAllocation]
  induction part with
  | nil => rfl
  | cons m part ih =>
    have hm := h m.address
    simp only [map_cons, sumOf_cons, owed_cons, if_true] at h hm ⊢
    rw [ih fun a => by have := h a; omega, toNat_add_of_lt (by omega)]
    split <;> omega

/-! ### Parts of a list -/

namespace State

variable {s s' : State α} {c : RewardCall α}

/-- A part that is written, next to the lists that are there. -/
lemma writePart_spec {part : List (AddressRewardAmount α)}
    (hfresh : ∀ kp ∈ s.lists, kp.1 ≠ s.key c)
    (hfits : ∀ a, pending s.deposits a + sumOf a part +
      owed a (part.map fun m => (m.address, c.reward m.address)) < 2 ^ 64) :
    ∃ pl : PledgeList α, (s.writePart c part).state.lists = s.lists ++ [(s.key c, pl)] ∧
      pl.date = s.date c ∧ ∀ a, pending (s.writePart c part).state.deposits a +
        sumOf a pl.members + owed a (s.writePart c part).payouts =
      pending s.deposits a + sumOf a part + owed a (s.writePart c part).granted := by
  have hreward := @sumOf_pledgeRewardAllocation α _ c.reward part
    (fun a => by have := hfits a; omega) (s.date c)
  obtain ⟨hadd, hdate⟩ := @sumOf_addDepositRecords α _ s.deposits
    (pledgeRewardAllocation c.reward (s.date c) part)
    (fun a => by have := hfits a; rw [hreward]; omega)
  obtain ⟨hwithdraw, hdate'⟩ := sumOf_withdrawRecords s.withdrawals (addDepositRecords s.deposits
    (pledgeRewardAllocation c.reward (s.date c) part)).2
  refine ⟨_, ?_, hdate'.trans hdate, fun a => ?_⟩
  · simp only [writePart, putList]
    rw [filter_eq_self.2 fun kp hkp => by simpa using hfresh kp hkp]
  have hadd' := hadd a
  rw [hreward] at hadd'
  have hwithdraw' := hwithdraw a
  simp only [writePart]
  omega

/-- A round is going on. -/
def busy (s : State α) : Bool :=
  s.allocate || s.haveAllocatedCount.isSome

/-- What an address has in the lists dated after the last date. -/
def newParts (s : State α) (a : α) : ℕ :=
  (s.lists.map fun kp => if s.lastDate < kp.2.date then sumOf a kp.2.members else 0).sum

/-- What an address has in the last list, without the members that have been rewarded. -/
def rest (s : State α) (a : α) : ℕ :=
  if s.adding then 0 else sumOf a (s.members.drop (s.haveAllocatedCount.getD 0).toNat)

/-- What is recorded for an address: the last list, and during a round the parts of the new list
and what has not been processed of the last one. -/
def recorded (s : State α) (a : α) : ℕ :=
  (if s.busy then s.newParts a else 0) + s.rest a

/-- What holds in all states of a run. -/
structure Regular (s : State α) : Prop where
  keys : ∀ kp ∈ s.lists, kp.2.date <+: kp.1 ∧ kp.2.date.length = 8
  last : s.lastDate = [] ∨ s.lastDate.length = 8
  idle : s.busy = false → ∀ kp ∈ s.lists, ¬ s.lastDate < kp.2.date
  waiting : s.adding = true → s.haveAllocatedCount ≠ none → ∃ a, s.deposits a ≠ none

/-- A call is for a date after the last one, with that of the parts that have been written, and
writes no part again; a round goes on in batches. The rows are those with a pending pledge. -/
structure Steady (s : State α) (c : RewardCall α) : Prop where
  eight : (s.date c).length = 8
  later : s.lastDate < s.date c
  same : ∀ kp ∈ s.lists, s.lastDate < kp.2.date → kp.2.date = s.date c
  fresh : ∀ kp ∈ s.lists, kp.1 ≠ s.key c
  positive : 0 < c.pledgeAllocateThreshold
  batches : s.adding = false → s.haveAllocatedCount ≠ none →
    c.pledgeAllocateThreshold < s.members.length
  nodup : c.rows.Nodup
  rows : ∀ a, a ∈ c.rows ↔ s.deposits a ≠ none

lemma Regular.recorded_eq (h : s.Regular) (a : α) : s.recorded a = s.newParts a + s.rest a := by
  rw [recorded]
  split
  · rfl
  rename_i hbusy
  have hzero : s.newParts a = 0 := by
    rw [newParts, sum_eq_zero]
    intro x hx
    obtain ⟨kp, hkp, rfl⟩ := List.mem_map.1 hx
    exact if_neg (h.idle (by simpa using hbusy) kp hkp)
  rw [hzero]

lemma date_prefix_key (s : State α) (c : RewardCall α) : s.date c <+: s.key c := by
  simp only [key]
  split
  · exact ⟨_, (append_assoc _ _ _).symm⟩
  split
  · exact prefix_append _ _
  · exact prefix_rfl

variable {kp : List Char × PledgeList α}

omit [LinearOrder α] in
/-- Keys that start with a date are those of lists of that date. -/
lemma Regular.prefix_iff (h : s.Regular) {d : List Char} (hd : d.length = 8) (hkp : kp ∈ s.lists) :
    d <+: kp.1 ↔ kp.2.date = d := by
  obtain ⟨hpre, hlen⟩ := h.keys kp hkp
  constructor
  · intro hd'
    exact ((prefix_of_prefix_length_le hd' hpre (by omega)).eq_of_length (by omega)).symm
  · rintro rfl
    exact hpre

lemma newParts_append (hlists : s'.lists = s.lists ++ [kp]) (hlast : s'.lastDate = s.lastDate)
    (hlater : s.lastDate < kp.2.date) (a : α) :
    s'.newParts a = s.newParts a + sumOf a kp.2.members := by
  simp [newParts, hlists, hlast, hlater]

/-- Lists of other dates are not in the last list. -/
lemma members_append (hlists : s'.lists = s.lists ++ [kp]) (hlast : s'.lastDate = s.lastDate)
    (hother : ¬ s.lastDate <+: kp.1) : s'.members = s.members := by
  have hno : s.lastDate.isPrefixOf kp.1 = false :=
    Bool.eq_false_iff.2 <| mt isPrefixOf_iff_prefix.1 hother
  simp [members, getLastPledgeList, hlists, hlast, filter_append, hno]

omit [LinearOrder α] in
/-- A list of another date does not make a last list. -/
lemma noList_append (hlists : s'.lists = s.lists ++ [kp]) (hlast : s'.lastDate = s.lastDate)
    (hother : ¬ s.lastDate <+: kp.1) : s'.noList = s.noList := by
  have hno : s.lastDate.isPrefixOf kp.1 = false :=
    Bool.eq_false_iff.2 <| mt isPrefixOf_iff_prefix.1 hother
  simp [noList, hlists, hlast, all_append, hno]

lemma members_of_noList (h : s.noList = true) : s.members = [] := by
  have hrows : s.lists.filter (fun kp => s.lastDate.isPrefixOf kp.1) = [] := by
    refine filter_eq_nil_iff.2 fun kp hkp hpre => ?_
    have hno := all_eq_true.1 h kp hkp
    rw [hpre] at hno
    cases hno
  simp [members, getLastPledgeList, hrows, mergeMember]

/-- The key of a new part is none of the last date. -/
lemma Regular.other_key (hs : s.Regular) (hc : s.Steady c) (hne : s.lastDate ≠ []) :
    ¬ s.lastDate <+: s.key c := by
  intro hprefix
  have hlen := hs.last.resolve_left hne
  have heq := (prefix_of_prefix_length_le hprefix (s.date_prefix_key c)
    (by rw [hlen, hc.eight])).eq_of_length (by rw [hlen, hc.eight])
  have hlater := hc.later
  rw [← heq] at hlater
  exact List.lt_irrefl _ hlater

/-- The last list when a round has come to its end. -/
lemma sumOf_members (h : s.Regular) (hlast : s.lastDate.length = 8)
    (hfits : ∀ a, (s.lists.map fun kp =>
      if kp.2.date = s.lastDate then sumOf a kp.2.members else 0).sum < 2 ^ 64) (a : α) :
    sumOf a s.members = (s.lists.map fun kp =>
      if kp.2.date = s.lastDate then sumOf a kp.2.members else 0).sum := by
  have hrows : ∀ a, sumOf a s.getLastPledgeList.members = (s.lists.map fun kp =>
      if kp.2.date = s.lastDate then sumOf a kp.2.members else 0).sum := by
    intro a
    have hflat : ∀ l : List (List Char × PledgeList α),
        (∀ kp ∈ l, s.lastDate <+: kp.1 ↔ kp.2.date = s.lastDate) →
        sumOf a (((l.filter fun kp => s.lastDate.isPrefixOf kp.1).map Prod.snd).flatMap
          PledgeList.members) =
        (l.map fun kp => if kp.2.date = s.lastDate then sumOf a kp.2.members else 0).sum := by
      intro l hl
      induction l with
      | nil => rfl
      | cons kp l ih =>
        rw [forall_mem_cons] at hl
        rw [map_cons, sum_cons, ← ih hl.2]
        by_cases hdate : kp.2.date = s.lastDate
        · simp [hdate, isPrefixOf_iff_prefix.2 (hl.1.2 hdate)]
        have hno : s.lastDate.isPrefixOf kp.1 = false :=
          Bool.eq_false_iff.2 fun h => hdate <| hl.1.1 <| isPrefixOf_iff_prefix.1 h
        simp [hdate, hno]
    rw [← hflat s.lists fun kp hkp => h.prefix_iff hlast hkp]
    exact (((perm_insertionSort _ _).map _).map _).sum_eq
  have hmerge := (sumOf_foldl_add address amount
    reward s.getLastPledgeList.members (show ∀ a, sumOf a (⟨0, [], []⟩ :
      PledgeList α).members + _ < _ from fun a => by
        have := hfits a
        rw [← hrows] at this
        simpa [sumOf] using this)).1 a
  rw [members, mergeMember, hmerge, ← hrows]
  simp [sumOf]

/-! ### One call -/

/-- The call keeps what holds in all states, and what each address has altogether. -/
structure Keeps (s : State α) (out : Outcome α) : Prop where
  regular : out.state.Regular
  sum : ∀ a, pending out.state.deposits a + out.state.recorded a + owed a out.payouts =
    pending s.deposits a + s.recorded a + owed a out.granted

section Call

variable (hs : s.Regular) (hc : s.Steady c)
include hs hc
variable {pl : PledgeList α} {out : Outcome α}

lemma keys_append (hdate : pl.date = s.date c) :
    ∀ kp ∈ s.lists ++ [(s.key c, pl)], kp.2.date <+: kp.1 ∧ kp.2.date.length = 8 := by
  intro kp hkp
  rcases mem_append.1 hkp with hkp | hkp
  · exact hs.keys kp hkp
  · obtain rfl := mem_singleton.1 hkp
    exact ⟨hdate ▸ s.date_prefix_key c, hdate ▸ hc.eight⟩

omit hs in
lemma same_append (hdate : pl.date = s.date c) :
    ∀ kp ∈ s.lists ++ [(s.key c, pl)], s.lastDate < kp.2.date → kp.2.date = s.date c := by
  intro kp hkp
  rcases mem_append.1 hkp with hkp | hkp
  · exact hc.same kp hkp
  · obtain rfl := mem_singleton.1 hkp
    exact fun _ => hdate

/-- A batch of the allocation. -/
lemma keeps_batch (hadding : s.adding = false) {h t : ℕ} {part : List (AddressRewardAmount α)}
    (hcount : (s.haveAllocatedCount.getD 0).toNat = h) (hpart : (s.members.drop h).take t = part)
    (hout : out.payouts = (s.writePart c part).payouts ∧
      out.granted = (s.writePart c part).granted ∧
      out.state.lists = (s.writePart c part).state.lists ∧
      out.state.deposits = (s.writePart c part).state.deposits ∧ out.state.lastDate = s.lastDate)
    (hend : out.state.allocate = true ∧ out.state.haveAllocatedCount = none ∧
        s.members.length ≤ h + t ∨
      out.state.allocate = false ∧ out.state.haveAllocatedCount = some ((h + t : ℕ) : ℤ))
    (hfits : ∀ a, pending s.deposits a + s.recorded a + owed a out.granted < 2 ^ 64) :
    s.Keeps out := by
  obtain ⟨hpayouts, hgranted, hlists, hdeposits, hlast⟩ := hout
  have hrest : ∀ a, s.rest a = sumOf a part + sumOf a (s.members.drop (h + t)) := by
    intro a
    rw [rest, hadding, if_neg Bool.false_ne_true, hcount, ← sumOf_append, ← drop_drop, ← hpart,
      take_append_drop]
  have hgranted' : out.granted = part.map fun m => (m.address, c.reward m.address) := hgranted
  obtain ⟨pl, hpl, hdate, hsum⟩ := @writePart_spec α _ s c part hc.fresh
    (fun a => by
      have := hfits a
      rw [hs.recorded_eq, hrest, hgranted'] at this
      omega)
  rw [hpl] at hlists
  rw [← hpayouts, ← hgranted, ← hdeposits] at hsum
  have hempty : (s.allocate = false ∧ s.lastDate ≠ []) ∧ s.noList = false := by
    simpa only [adding, Bool.or_eq_false_iff, isEmpty_eq_false_iff] using hadding
  have hother := hs.other_key hc hempty.1.2
  have hadding' : out.state.allocate = false → out.state.adding = false := by
    intro hend
    rw [adding, hend, hlast, noList_append hlists hlast hother, hempty.2]
    simpa using hempty.1.2
  have hregular : out.state.Regular := by
    refine ⟨hlists ▸ keys_append hs hc hdate, hlast ▸ hs.last, fun hbusy => ?_, fun hadd hne => ?_⟩
    · rcases hend with ⟨hend, -, -⟩ | ⟨-, hend⟩ <;> simp [busy, hend] at hbusy
    rcases hend with ⟨-, hend, -⟩ | ⟨hend, -⟩
    · exact absurd hend hne
    · exact absurd hadd (by simp [hadding' hend])
  have hrest' : ∀ a, out.state.rest a = sumOf a (s.members.drop (h + t)) := by
    intro a
    rcases hend with ⟨hend, -, hlen⟩ | ⟨hend, hcount'⟩
    · rw [drop_eq_nil_of_le hlen, rest, adding, hend]
      rfl
    rw [rest, hadding' hend, if_neg Bool.false_ne_true, members_append hlists hlast hother, hcount']
    rfl
  refine ⟨hregular, fun a => ?_⟩
  have hsum' := hsum a
  rw [hregular.recorded_eq, hs.recorded_eq, hrest, hrest',
    newParts_append hlists hlast (hdate ▸ hc.later)]
  dsimp only
  omega

/-- The end of a round: the new date becomes the last one. -/
lemma keeps_end (hadding : s.adding = true)
    {lists : List (List Char × PledgeList α)}
    (hkeys : ∀ kp ∈ lists, kp.2.date <+: kp.1 ∧ kp.2.date.length = 8)
    (hsame : ∀ kp ∈ lists, s.lastDate < kp.2.date → kp.2.date = s.date c)
    (hlists : out.state.lists = lists) (hlast : out.state.lastDate = s.date c)
    (hallocate : out.state.allocate = false) (hcount : out.state.haveAllocatedCount = none)
    (hpayouts : out.payouts = []) (hgranted : out.granted = [])
    (hsum : ∀ a, pending out.state.deposits a + (lists.map fun kp =>
        if s.lastDate < kp.2.date then sumOf a kp.2.members else 0).sum =
      pending s.deposits a + s.newParts a)
    (hfits : ∀ a, pending s.deposits a + s.recorded a < 2 ^ 64) : s.Keeps out := by
  have hiff : ∀ kp ∈ lists, kp.2.date = s.date c ↔ s.lastDate < kp.2.date := fun kp hkp =>
    ⟨fun h => h ▸ hc.later, hsame kp hkp⟩
  have hregular : out.state.Regular := by
    refine ⟨hlists ▸ hkeys, .inr (hlast ▸ hc.eight), fun _ kp hkp hlt => ?_,
      fun _ h => absurd hcount h⟩
    rw [hlists] at hkp
    rw [hlast] at hlt
    rw [(hiff kp hkp).2 (List.lt_trans hc.later hlt)] at hlt
    exact List.lt_irrefl _ hlt
  have hnew : ∀ a, (out.state.lists.map fun kp =>
      if kp.2.date = out.state.lastDate then sumOf a kp.2.members else 0).sum =
      (lists.map fun kp => if s.lastDate < kp.2.date then sumOf a kp.2.members else 0).sum := by
    intro a
    rw [hlists, hlast]
    congr 1
    exact map_congr_left fun kp hkp => if_congr (hiff kp hkp) rfl rfl
  have hrest : ∀ a, s.rest a = 0 := fun a => if_pos hadding
  have hrest' : ∀ a, out.state.rest a = sumOf a out.state.members := by
    intro a
    have hne : s.date c ≠ [] := fun h => by simpa [h] using hc.eight
    rw [rest, hcount]
    split
    · rename_i hadd
      rw [members_of_noList (by simpa [adding, hallocate, hlast, hne] using hadd), sumOf_nil]
    · rfl
  refine ⟨hregular, fun a => ?_⟩
  have hmembers := sumOf_members hregular (hlast ▸ hc.eight) (fun a => by
    have hsum' := hsum a
    have hfits' := hfits a
    rw [hs.recorded_eq, hrest] at hfits'
    rw [hnew]
    omega) a
  rw [recorded, busy, hallocate, hcount, hs.recorded_eq, hrest', hpayouts, hgranted, hrest]
  simp only [isSome_none, Bool.or_self, Bool.false_eq_true, if_false, hmembers, hnew, owed_nil]
  have := hsum a
  omega

/-- A batch of new addresses, with more to come. -/
lemma keeps_more (hadding : s.adding = true) (hdate : pl.date = s.date c)
    (hlists : out.state.lists = s.lists ++ [(s.key c, pl)])
    (hlast : out.state.lastDate = s.lastDate) (hallocate : out.state.allocate = s.allocate)
    (hcount : out.state.haveAllocatedCount.isSome = true)
    (hleft : ∃ a, out.state.deposits a ≠ none) (hpayouts : out.payouts = [])
    (hgranted : out.granted = [])
    (hsum : ∀ a, pending out.state.deposits a + sumOf a pl.members = pending s.deposits a) :
    s.Keeps out := by
  have hregular : out.state.Regular := by
    refine ⟨hlists ▸ keys_append hs hc hdate, hlast ▸ hs.last, fun hbusy => ?_, fun _ _ => hleft⟩
    simp [busy, hcount] at hbusy
  have hadding' : out.state.adding = true := by
    rcases eq_or_ne s.lastDate [] with hempty | hne
    · simp [adding, hlast, hempty]
    · rwa [adding, hallocate, hlast, noList_append hlists hlast (hs.other_key hc hne)]
  refine ⟨hregular, fun a => ?_⟩
  have hsum' := hsum a
  rw [hregular.recorded_eq, hs.recorded_eq, newParts_append hlists hlast (hdate ▸ hc.later), rest,
    rest, if_pos hadding, if_pos hadding', hpayouts, hgranted]
  dsimp only
  omega

/-- New addresses. -/
lemma keeps_add (hadding : s.adding = true) (hout : s.addNewAddrPledgeRecords c = some out)
    (hfits : ∀ a, pending s.deposits a + s.recorded a < 2 ^ 64) : s.Keeps out := by
  rw [addNewAddrPledgeRecords] at hout
  split at hout
  · rename_i hrows
    obtain rfl := some.inj hout
    have hcount : s.haveAllocatedCount = none := by
      by_contra hne
      obtain ⟨a, ha⟩ := hs.waiting hadding hne
      rw [← hc.rows, hrows] at ha
      cases ha
    exact keeps_end hs hc hadding hs.keys hc.same rfl rfl rfl hcount rfl rfl (fun _ => rfl) hfits
  rename_i hrows
  split at hout
  · cases hout
  dsimp only at hout
  have hnodup := hc.nodup.sublist (take_sublist c.pledgeRecordsThreshold.toNat c.rows)
  generalize htake : c.rows.take c.pledgeRecordsThreshold.toNat = taken at hout hnodup
  obtain ⟨hsum, hdate⟩ := sumOf_foldl_add (fun a => a) (fun a => (s.deposits a).getD 0)
    (fun _ => 0) taken (show ∀ a, sumOf a (⟨0, s.date c, []⟩ : PledgeList α).members + _ < _
      from fun a => by
        have := hfits a
        rw [owed_map_pending _ hnodup, sumOf_nil]
        split <;> omega)
  generalize hpl : taken.foldl (fun pl a => pl.add a ((s.deposits a).getD 0) 0)
    (⟨0, s.date c, []⟩ : PledgeList α) = pl at hout hsum hdate
  have hkeep : ∀ a, pending (fun a => if a ∈ taken then none else s.deposits a) a +
      sumOf a pl.members = pending s.deposits a := by
    intro a
    rw [hsum, owed_map_pending _ hnodup, sumOf_nil, pending, pending]
    split <;> simp
  have hlists : (s.putList (s.key c) pl).lists = s.lists ++ [(s.key c, pl)] := by
    rw [putList, filter_eq_self.2 fun kp hkp => by simpa using hc.fresh kp hkp]
  have hlater : s.lastDate < pl.date := hdate ▸ hc.later
  split at hout
  · obtain rfl := some.inj hout
    refine keeps_end hs hc hadding (keys_append hs hc hdate) (same_append hc hdate) hlists rfl rfl
      rfl rfl rfl (fun a => ?_) hfits
    have := hkeep a
    simp only [map_append, map_cons, map_nil, sum_append, sum_cons, sum_nil, if_pos hlater]
    rw [newParts]
    omega
  obtain rfl := some.inj hout
  refine keeps_more hs hc hadding hdate hlists rfl rfl rfl ?_ rfl rfl hkeep
  -- there are more rows than are taken
  have hpos := length_pos_iff.2 hrows
  have hne : c.rows.drop c.pledgeRecordsThreshold.toNat ≠ [] := by
    rw [Ne, drop_eq_nil_iff]
    omega
  obtain ⟨a, ha⟩ := exists_mem_of_ne_nil _ hne
  have hdisjoint := disjoint_take_drop hc.nodup (le_refl c.pledgeRecordsThreshold.toNat)
  refine ⟨a, ?_⟩
  dsimp only
  rw [if_neg fun h => hdisjoint (htake.symm ▸ h) ha]
  exact (hc.rows a).1 (mem_of_mem_drop ha)

/-- Every call of `handlePledgeReward`. -/
lemma keeps_handleRewardAllocation (hout : s.handleRewardAllocation c = some out)
    (hfits : ∀ a, pending s.deposits a + s.recorded a + owed a out.granted < 2 ^ 64) :
    s.Keeps out := by
  rw [handleRewardAllocation] at hout
  split at hout
  · cases hout
  split at hout
  · rename_i hadding
    exact keeps_add hs hc hadding hout fun a => lt_of_le_of_lt (Nat.le_add_right _ _) (hfits a)
  rename_i hadding
  have hadding' : s.adding = false := by simpa using hadding
  have hpos := hc.positive
  split at hout
  · rw [need] at hout
    split at hout
    · cases hout
    obtain rfl := some.inj hout
    refine keeps_batch hs hc hadding' rfl rfl ⟨rfl, rfl, ?_, ?_, ?_⟩ ?_ hfits
    · dsimp only; split <;> rfl
    · dsimp only; split <;> rfl
    · dsimp only; split <;> rfl
    split
    · exact .inl ⟨rfl, rfl, by omega⟩
    · have hallocate : s.allocate = false := by
        simp only [adding, Bool.or_eq_false_iff] at hadding'
        exact hadding'.1.1
      exact .inr ⟨hallocate, by rw [some.injEq]; omega⟩
  rename_i hshort
  have hnone : s.haveAllocatedCount = none := by
    by_contra hne
    exact hshort (hc.batches hadding' hne)
  obtain rfl := some.inj hout
  refine keeps_batch hs hc hadding' (h := 0) (by rw [hnone]; rfl) rfl
    ⟨rfl, rfl, rfl, rfl, rfl⟩ (.inl ⟨rfl, hnone, ?_⟩) hfits
  omega

end Call

end State

/-! ### Runs -/

/-- A call of the contract. -/
inductive Call (α : Type) where
  | deposit (addr : α) (invokeTokens : List Deposit.InvokeTokens)
  | withdraw (addr : α) (amount : UInt64)
  | reward (c : RewardCall α)

/-- All outputs in the gas token that go to the contract. -/
def received (invokeTokens : List Deposit.InvokeTokens) : ℕ :=
  ((invokeTokens.filter fun t => t.gas && t.toContract).map fun t => t.amount.toNat).sum

/-- The state with what each address has pledged, been granted and been paid. -/
structure Books (α : Type) where
  state : State α
  deposited : α → ℕ
  granted : α → ℕ
  paidOut : α → ℕ

namespace Books

/-- The books at first. -/
def empty : Books α :=
  ⟨⟨fun _ => none, fun _ => none, [], [], false, none, none⟩, fun _ => 0, fun _ => 0, fun _ => 0⟩

/-- A call with its effect on the books; one that fails has none.
Source: `pledgeDepositRep` and `pledgeWithdrawRep` -/
def step (b : Books α) : Call α → Option (Books α)
  | .deposit addr tokens =>
    match Deposit.isContainDepositContractAddr tokens with
    | none => some b
    | some amount => some
        { b with
          state := { b.state with
            deposits := update b.state.deposits addr
              (some ((b.state.deposits addr).getD 0 + amount)) }
          deposited := update b.deposited addr (b.deposited addr + received tokens) }
  | .withdraw addr amount => some
      { b with
        state := { b.state with
          withdrawals := update b.state.withdrawals addr (some amount) } }
  | .reward c =>
    match b.state.handleRewardAllocation c with
    | none => some b
    | some out => some
        { b with
          state := out.state
          granted := fun a => b.granted a + owed a out.granted
          paidOut := fun a => b.paidOut a + owed a out.payouts }

/-- What an address has altogether is what it has pledged and been granted. -/
def Conserved (b : Books α) : Prop :=
  ∀ a, pending b.state.deposits a + b.state.recorded a + b.paidOut a =
    b.deposited a + b.granted a

/-- A pledge is made by one output, rewards are allocated steadily, and no sum reaches `2 ^ 64`. -/
structure Sound (b : Books α) (c : Call α) : Prop where
  payment : ∀ addr tokens amount, c = .deposit addr tokens →
    Deposit.isContainDepositContractAddr tokens = some amount → received tokens = amount.toNat
  steady : ∀ r out, c = .reward r → b.state.handleRewardAllocation r = some out → b.state.Steady r
  fits : ∀ b', b.step c = some b' → ∀ a, b'.deposited a + b'.granted a < 2 ^ 64

lemma keeps_step {b b' : Books α} {c : Call α} (hb : b.state.Regular ∧ b.Conserved)
    (hsound : b.Sound c) (hstep : b.step c = some b') : b'.state.Regular ∧ b'.Conserved := by
  obtain ⟨hregular, hsum⟩ := hb
  have hfits := hsound.fits b' hstep
  cases c with
  | deposit addr tokens =>
    rw [step] at hstep
    split at hstep
    · obtain rfl := some.inj hstep
      exact ⟨hregular, hsum⟩
    rename_i amount hamount
    obtain rfl := some.inj hstep
    have hreceived := hsound.payment addr tokens amount rfl hamount
    refine ⟨⟨hregular.keys, hregular.last, hregular.idle, fun _ _ => ⟨addr, by simp⟩⟩, fun a => ?_⟩
    have hsum' := hsum a
    change _ + b.state.recorded a + _ = _
    rcases eq_or_ne a addr with rfl | ha
    · have hfits' := hfits a
      rw [pending] at hsum'
      simp only [update_self, pending, getD_some] at hfits' ⊢
      rw [toNat_add_of_lt (by omega)]
      omega
    · simpa [pending, update_of_ne ha] using hsum'
  | withdraw addr amount =>
    obtain rfl := some.inj hstep
    exact ⟨⟨hregular.keys, hregular.last, hregular.idle, hregular.waiting⟩, hsum⟩
  | reward r =>
    rw [step] at hstep
    split at hstep
    · obtain rfl := some.inj hstep
      exact ⟨hregular, hsum⟩
    rename_i out hout
    obtain rfl := some.inj hstep
    obtain ⟨hregular', hsum'⟩ := State.keeps_handleRewardAllocation hregular
      (hsound.steady r out rfl hout) hout (fun a => by
        have h₁ := hsum a
        have h₂ := hfits a
        dsimp only at h₂
        omega)
    refine ⟨hregular', fun a => ?_⟩
    have h₁ := hsum a
    have h₂ := hsum' a
    dsimp only
    omega

/-- After every run of calls that are sound where they are made, what is pending, recorded and paid
out for an address is what it has pledged and been granted. -/
theorem conserved_run {calls : List (Call α)} {b : Books α}
    (hsound : Lib.Along step Sound empty calls) (hrun : calls.foldlM step empty = some b) :
    b.Conserved := by
  refine (Lib.Along.preserves (I := fun b => b.state.Regular ∧ b.Conserved)
    (fun c _ b b' hb hgood => keeps_step hb hgood) hsound ?_ hrun).2
  exact ⟨⟨nofun, .inl rfl, nofun, fun _ h => absurd rfl h⟩, fun _ => rfl⟩

end Books

namespace TwoDays

/-- A day of January 2020. -/
def day (n : Char) : List Char :=
  ['2', '0', '2', '0', '0', '1', '0', n]

/-- A call of `handlePledgeReward`, in batches of one with a reward of one. -/
def allocate (n : Char) (rows : List (Fin 2)) : Call (Fin 2) :=
  .reward ⟨false, day n, 1, 10, fun _ => 1, rows⟩

section

local instance neZero_two : NeZero 2 := ⟨two_ne_zero⟩

/-- Two addresses pledge five each, which makes the first list. -/
def start : List (Call (Fin 2)) :=
  [.deposit 0 [⟨5, true, true⟩], .deposit 1 [⟨5, true, true⟩], allocate '1' [0, 1]]

end

/-- The first batch, the second, and the end of a round. -/
def round (n n' : Char) : List (Call (Fin 2)) :=
  [allocate n [], allocate n' [], allocate n' []]

/-- Nothing is lost in a round. -/
theorem conserved_round : ∃ b, (start ++ round '2' '2').foldlM Books.step Books.empty = some b ∧
    b.state.recorded 0 = 6 ∧ b.Conserved := by
  refine ⟨_, rfl, by decide +kernel, @Books.conserved_run _ _ (start ++ round '2' '2') _ ?_ rfl⟩
  have hdeposit : ∀ (b : Books (Fin 2)) addr,
      (∀ a, b.deposited a + b.granted a + 5 < 2 ^ 64) →
      b.Sound (.deposit addr [⟨5, true, true⟩]) := by
    refine fun b addr h => ⟨fun _ _ _ h₁ h₂ => ?_, nofun, fun b' hb' a => ?_⟩
    · cases h₁
      cases h₂
      rfl
    obtain rfl := some.inj hb'
    have := h a
    rcases eq_or_ne a addr with rfl | ha
    · simpa [received, Nat.add_right_comm] using this
    · simpa [ha] using Nat.lt_of_le_of_lt (Nat.le_add_right _ 5) this
  have hreward : ∀ (b : Books (Fin 2)) n rows out,
      b.state.handleRewardAllocation ⟨false, day n, 1, 10, fun _ => 1, rows⟩ = some out →
      b.state.Steady ⟨false, day n, 1, 10, fun _ => 1, rows⟩ →
      (∀ a, b.deposited a + (b.granted a + owed a out.granted) < 2 ^ 64) →
      b.Sound (allocate n rows) := by
    refine fun b n rows out hout hsteady h => ⟨nofun, fun r out' hr _ => ?_, fun b' hb' => ?_⟩
    · cases hr
      exact hsteady
    rw [allocate, Books.step, hout] at hb'
    obtain rfl := some.inj hb'
    exact h
  iterate 2
    refine ⟨hdeposit _ _ (by decide +kernel), fun _ h => ?_⟩
    obtain rfl := some.inj h
  iterate 4
    refine ⟨hreward _ _ _ _ rfl (by constructor <;> decide +kernel) (by decide +kernel),
      fun _ h => ?_⟩
    obtain rfl := some.inj h
  trivial

/-- The second batch is on the next day: the first part is not in the new list. -/
theorem part_lost : ∃ b, (start ++ round '2' '3').foldlM Books.step Books.empty = some b ∧
    b.state.recorded 0 = 0 ∧ b.paidOut 0 = 0 ∧ b.deposited 0 = 5 ∧ ¬ b.Conserved := by
  refine ⟨_, rfl, by decide +kernel, by decide +kernel, by decide +kernel, fun h => ?_⟩
  exact absurd (h 0) (by decide +kernel)

end TwoDays

end ZwsChain.Pledge
