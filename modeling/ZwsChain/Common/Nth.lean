import ZwsChain.Lib.Selection

/-!
# Selection of the n-th element

`common/sort/nth.go`. `element` permutes a slice so that the element of rank `n` stands at index
`n`, by the selection loop `quickSelectAdaptive`: it partitions the range that is left and goes on
with the side that holds index `n`. Ranges below 12 elements are partitioned by `hoarePartition`,
ranges with `n` further right by `simplePartition`, and the others by `repeatedStep`, which
selects a pivot in a middle part and then extends the partition of that part to the range by
`expandPartition`.

The loops that step through indexes recurse on the number of
steps that are left; `quickSelect` and `repeatedStep` have fuel.
Sources without a file are in `common/sort/nth.go`.
-/

namespace ZwsChain.Nth

open Lib.Selection

variable {α : Type} [Inhabited α] [LT α] [DecidableLT α] {m : ℕ}

/-! ### Partition by Hoare's method -/

/-- The first index from `a` on whose value is not less than the pivot's; `n` indexes are left.
Source: `hoarePartition`, loop over `a` -/
def scanUp (d : Slice α m) (pivot : ℕ) : ℕ → ℕ → ℕ
  | 0, a => a
  | n + 1, a => if d a < d pivot then scanUp d pivot n (a + 1) else a

/-- The last index up to `b` whose value is not greater than the pivot's.
Source: `hoarePartition`, loop over `b` -/
def scanDown (d : Slice α m) (pivot : ℕ) : ℕ → ℕ
  | 0 => 0
  | b + 1 => if d pivot < d (b + 1) then scanDown d pivot b else b + 1

/-- Source: `hoarePartition`, `Loop` -/
def hoareLoop (start : ℕ) : ℕ → Slice α m → ℕ → ℕ → Slice α m × ℕ
  | 0, d, a, _ => (d, a)
  | fuel + 1, d, a, b =>
    let a := scanUp d start (b + 1 - a) a
    if a > b then (d, a)
    else
      let b := scanDown d start b
      if a ≥ b then (d, a)
      else hoareLoop start fuel (d.swap a b) (a + 1) (b - 1)

variable (d : Slice α m)

/-- Partitions `[start, stop)` around the value at `p`, which is moved to `start` first.
Source: `hoarePartition` -/
def hoarePartition (p start stop : ℕ) : Slice α m × ℕ :=
  let (d, a) := hoareLoop start (stop - start) (d.swap p start) (start + 1) (stop - 1)
  (d.swap start (a - 1), a - 1)

/-! ### Partition by simple exchanges -/

/-- `n` indexes from `i` on are left.
Source: `simplePartition`, loop -/
def simpleLoop : ℕ → Slice α m → ℕ → ℕ → Slice α m × ℕ
  | 0, d, p, _ => (d, p)
  | n + 1, d, p, i =>
    if d i < d p then simpleLoop n ((d.swap p i).swap (p + 1) i) (p + 1) (i + 1)
    else simpleLoop n d p (i + 1)

/-- Source: `simplePartition` -/
def simplePartition (a b : ℕ) : Slice α m × ℕ :=
  simpleLoop (b - (a + 1)) d a (a + 1)

/-! ### Extension of a partition -/

/-- The first index from `i` on whose value is not less than the pivot's; `n` indexes are left.
Source: `expandPartition`, loop over `i` -/
abbrev skipLess (p n i : ℕ) : ℕ :=
  scanUp d p n i

/-- The last of `n` indexes from `j` downwards whose value is less than the pivot's.
Source: `expandPartition`, loop over `j` -/
def skipNotLess (d : Slice α m) (p : ℕ) : ℕ → ℕ → ℕ
  | 0, j => j
  | n + 1, j => if d j < d p then j else skipNotLess d p n (j - 1)

/-- Source: `expandPartition`, outer loop -/
def expandLoop (a p b : ℕ) : ℕ → Slice α m → ℕ → ℕ → Slice α m × ℕ × ℕ
  | 0, d, i, j => (d, i, j)
  | fuel + 1, d, i, j =>
    let i := skipLess d p (a - i) i
    let j := skipNotLess d p (j - b) j
    if i = a ∨ j = b then (d, i, j)
    else expandLoop a p b fuel (d.swap i j) (i + 1) (j - 1)

/-- Extends a partition of `[a, b]` around the value at `p` to `[start, stop)`.
Source: `expandPartition` -/
def expandPartition (a p b start stop : ℕ) : Slice α m × ℕ :=
  let (d, i, j) := expandLoop a p b (a - start + 1) d start (stop - 1)
  if i ≠ a then hoarePartition d p i a
  else if j ≠ b then hoarePartition d p b (j + 1)
  else (d, p)

/-! ### Pivots from medians of medians -/

/-- Exchanges two values that are in the wrong order. -/
def order (i j : ℕ) : Slice α m :=
  if d j < d i then d.swap j i else d

/-- Source: `median3` -/
def median3 (a b c : ℕ) : Slice α m :=
  let d := order d a b
  if d c < d b then order (d.swap c b) a b else d

/-- Source: `lowerMedian4` -/
def lowerMedian4 (a b c e : ℕ) : Slice α m :=
  let d := median3 d a b c
  if d e < d b then order (d.swap e b) a b else d

/-- The smallest of three values goes to the first index.
Source: `repeatedStepFarLeft`, second loop -/
def least3 (a b c : ℕ) : Slice α m :=
  order (order d a b) a c

/-- The loop of selection by a partition function. `none` is a lack of fuel.
Source: `quickSelect` -/
def quickSelect (part : Slice α m → ℕ → ℕ → ℕ → Option (Slice α m × ℕ)) :
    ℕ → Slice α m → ℕ → ℕ → ℕ → Option (Slice α m)
  | 0, _, _, _, _ => none
  | fuel + 1, d, k, a, b => do
      let (d, p) ← part d k a b
      if p = k then some d
      else if p > k then quickSelect part fuel d k a p
      else quickSelect part fuel d k (p + 1) b

/-- Medians of four of the `l` values from `a` on are collected in the second quarter, and medians
of three of these (by `pick3`) in its first third.
Source: `repeatedStepLeft` and `repeatedStepFarLeft`, the two loops -/
def collectMedians (pick3 : Slice α m → ℕ → ℕ → ℕ → Slice α m) (a l : ℕ) : Slice α m :=
  let f := l / 4
  let f2 := f / 3
  let d := (List.range f).foldl
    (fun d t => lowerMedian4 d (a + t) (a + t + f) (a + t + 2 * f) (a + t + 3 * f)) d
  (List.range f2).foldl
    (fun d t => pick3 d (a + f + t) (a + f + t + f2) (a + f + t + 2 * f2)) d

/-- The index in the collected medians that has the rank `k` in proportion.
Source: `repeatedStepLeft` and `repeatedStepFarLeft`, argument of the selection -/
def medianRank (k a l : ℕ) : ℕ :=
  a + l / 4 + (k - a) * (l / 4 / 3) / l

/-- Partitions `[a, b)` around a value of a rank near `k`, which the function itself selects among
medians of medians.
Source: `repeatedStepLeft` and `repeatedStepFarLeft` -/
def repeatedStep (pick3 : Slice α m → ℕ → ℕ → ℕ → Slice α m) :
    ℕ → Slice α m → ℕ → ℕ → ℕ → Option (Slice α m × ℕ)
  | 0, _, _, _, _ => none
  | fuel + 1, d, k, a, b =>
    let l := b - a
    if l < 12 then some (hoarePartition d (a + l / 2) a b)
    else do
      let f2 := l / 4 / 3
      let newA := a + l / 4
      let p := medianRank k a l
      let d ← quickSelect (repeatedStep pick3 fuel) f2 (collectMedians d pick3 a l) p newA
        (newA + f2)
      some (expandPartition d newA p (newA + f2 - 1) a b)

/-- Source: `repeatedStepLeft` -/
def repeatedStepLeft (fuel : ℕ) (d : Slice α m) (k a b : ℕ) : Option (Slice α m × ℕ) :=
  repeatedStep median3 fuel d k a b

/-- Source: `repeatedStepFarLeft` -/
def repeatedStepFarLeft (fuel : ℕ) (d : Slice α m) (k a b : ℕ) : Option (Slice α m × ℕ) :=
  repeatedStep least3 fuel d k a b

/-- The partition function for the ratio of `k` to the length of the range; the ones for `k` in
the middle or on the right are not implemented and do simple exchanges.
Source: `quickSelectAdaptive`, loop body -/
def adaptivePartition (k a b : ℕ) : Option (Slice α m × ℕ) :=
  let l := b - a
  if l < 12 then some (hoarePartition d (a + l / 2) a b)
  else if 16 * k < 7 * l then
    if 12 * k < l then repeatedStepFarLeft l d k a b
    else repeatedStepLeft l d k a b
  else some (simplePartition d a b)

/-- Source: `quickSelectAdaptive` -/
def quickSelectAdaptive (k a b : ℕ) : Option (Slice α m) :=
  quickSelect adaptivePartition (b - a) d k a b

/-- Source: `Element` -/
def element (data : List α) (n : ℕ) : Option (List α) :=
  if n ≥ data.length then some data
  else (quickSelectAdaptive (Slice.ofList data) n 0 data.length).map Subtype.val

end ZwsChain.Nth
