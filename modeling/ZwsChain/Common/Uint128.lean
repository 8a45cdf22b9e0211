import Mathlib

/-!
# Unsigned 128-bit numbers

`common/uint128/uint128.go`: two 64-bit words. `toBitVec` is the number; the shift and the addition
of the code are those of `BitVec 128`, for every shift count.
-/

namespace ZwsChain

open UInt64 BitVec

variable (x : UInt64)

/-- A shift of a 64-bit word as Go has it: nothing is left from 64 on. -/
def shl64 (n : Nat) : UInt64 :=
  if n < 64 then x <<< ofNat n else 0

/-- A shift to the right. -/
def shr64 (n : Nat) : UInt64 :=
  if n < 64 then x >>> ofNat n else 0

/-- Source: `common/uint128/uint128.go`, `Uint128` -/
structure Uint128 where
  lo : UInt64
  hi : UInt64
  deriving DecidableEq

namespace Uint128

/-- Source: `common/uint128/uint128.go`, `MaxValue` -/
def maxValue : Uint128 :=
  ⟨~~~0, ~~~0⟩

/-- Source: `common/uint128/uint128.go`, `Lsh` -/
def lsh (u : Uint128) (n : UInt64) : Uint128 :=
  if n > 64 then ⟨0, shl64 u.lo (n - 64).toNat⟩
  else ⟨shl64 u.lo n.toNat, shl64 u.hi n.toNat ||| shr64 u.lo (64 - n).toNat⟩

/-- Source: `common/uint128/uint128.go`, `Add64` -/
def add64 (u : Uint128) (v : UInt64) : Uint128 :=
  let lo := u.lo + v
  let carry : UInt64 := if lo < v then 1 else 0
  ⟨lo, u.hi + carry⟩

/-- The number. -/
def toBitVec (u : Uint128) : BitVec 128 :=
  u.hi.toBitVec ++ u.lo.toBitVec

end Uint128

/-! ### Bits -/

lemma toNat_shiftCount {n : Nat} (hn : n < 64) : ((ofNat n).toBitVec % 64).toNat = n := by
  show n % 2 ^ 64 % 64 = n
  omega

lemma getLsbD_shl64 (n j : Nat) :
    (shl64 x n).toBitVec.getLsbD j = (decide (j < 64) && !decide (j < n) &&
      x.toBitVec.getLsbD (j - n)) := by
  unfold shl64
  split_ifs with hn
  · rw [UInt64.toBitVec_shiftLeft, shiftLeft_eq', getLsbD_shiftLeft, toNat_shiftCount hn]
  by_cases hj : j < 64
  · simp [show j < n by omega]
  · simp [hj]

lemma getLsbD_shr64 (n j : Nat) :
    (shr64 x n).toBitVec.getLsbD j = x.toBitVec.getLsbD (n + j) := by
  unfold shr64
  split_ifs with hn
  · rw [UInt64.toBitVec_shiftRight, ushiftRight_eq', getLsbD_ushiftRight, toNat_shiftCount hn]
  · rw [toBitVec_zero, getLsbD_zero, getLsbD_of_ge x.toBitVec _ (by omega)]

namespace Uint128

lemma toBitVec_maxValue : maxValue.toBitVec = allOnes 128 := by
  decide

lemma toBitVec_lsh (u : Uint128) (n : UInt64) :
    (u.lsh n).toBitVec = u.toBitVec <<< n.toNat := by
  apply eq_of_getLsbD_eq
  intro j hj
  rw [getLsbD_shiftLeft]
  unfold lsh toBitVec
  split_ifs with hn
  · have hsub : (n - 64).toNat = n.toNat - 64 := by
      rw [UInt64.toNat_sub_of_le _ _ (UInt64.le_of_lt hn)]
      rfl
    have hn : 64 < n.toNat := hn
    simp only [getLsbD_append, getLsbD_shl64, hsub, hj]
    by_cases hlow : j < 64
    · simp [hlow, show j < n.toNat by omega]
    by_cases hjn : j < n.toNat
    · simp [hlow, hjn, show j - 64 < n.toNat - 64 by omega]
    · simp [hlow, hjn, show j - 64 < 64 by omega, show ¬ j - 64 < n.toNat - 64 by omega,
        show j - n.toNat < 64 by omega, show j - 64 - (n.toNat - 64) = j - n.toNat by omega]
  have hn : n.toNat ≤ 64 := Nat.not_lt.1 hn
  have hsub : (64 - n).toNat = 64 - n.toNat := by
    rw [UInt64.toNat_sub_of_le _ _ (UInt64.le_iff_toNat_le.2 hn)]
    rfl
  simp only [getLsbD_append, UInt64.toBitVec_or, getLsbD_or, getLsbD_shl64, getLsbD_shr64, hsub, hj]
  by_cases hlow : j < 64
  · simp [hlow, show j - n.toNat < 64 by omega]
  rw [if_neg hlow, show 64 - n.toNat + (j - 64) = j - n.toNat by omega]
  by_cases hjn : j - n.toNat < 64
  · simp [hjn, show j - 64 < n.toNat by omega, show ¬ j < n.toNat by omega]
  rw [if_neg hjn, getLsbD_of_ge u.lo.toBitVec _ (by omega),
    show j - 64 - n.toNat = j - n.toNat - 64 by omega]
  simp [show j - 64 < 64 by omega, show ¬ j - 64 < n.toNat by omega,
    show ¬ j < n.toNat by omega]

lemma toNat_toBitVec (u : Uint128) :
    u.toBitVec.toNat = u.hi.toNat * 2 ^ 64 + u.lo.toNat := by
  rw [toBitVec, toNat_append, ← Nat.shiftLeft_add_eq_or_of_lt u.lo.toBitVec.isLt, Nat.shiftLeft_eq]
  rfl

lemma toBitVec_add64 (u : Uint128) (v : UInt64) :
    (u.add64 v).toBitVec = u.toBitVec + v.toBitVec.setWidth 128 := by
  apply eq_of_toNat_eq
  rw [toNat_add, toNat_setWidth, toNat_toBitVec, toNat_toBitVec, UInt64.toNat_toBitVec]
  have hlo := u.lo.toNat_lt
  have hv := v.toNat_lt
  unfold add64
  by_cases hcarry : u.lo + v < v
  · have hnat := lt_iff_toNat_lt.1 hcarry
    rw [UInt64.toNat_add] at hnat
    simp only [hcarry, if_true, UInt64.toNat_add, UInt64.toNat_one]
    omega
  have hnat := Nat.not_lt.1 fun h => hcarry (lt_iff_toNat_lt.2 h)
  rw [UInt64.toNat_add] at hnat
  simp only [hcarry, if_false, UInt64.toNat_add, UInt64.toNat_zero]
  omega

end Uint128

end ZwsChain
