import Mathlib

/-!
# Numerals and the change of their radix

A numeral is a list of digits, the most significant first. `convert b c` turns a numeral of radix
`b` into one of radix `c` for the same number; leading zeros are kept, one digit for one digit.
`convert_convert`: changing the radix back gives the numeral again.
-/

open List

namespace ZwsChain.Lib.Radix

/-- The number of a numeral. -/
def value (b : ℕ) (l : List ℕ) : ℕ :=
  l.foldl (fun x d => x * b + d) 0

/-- The digits of a number, the least significant first; `fuel` bounds their count. -/
def lowDigits (b : ℕ) : ℕ → ℕ → List ℕ
  | 0, _ => []
  | fuel + 1, x => if x = 0 then [] else x % b :: lowDigits b fuel (x / b)

/-- The shortest numeral of a number. -/
def digits (b x : ℕ) : List ℕ :=
  (lowDigits b (Nat.log2 x + 1) x).reverse

/-- The number of leading zeros. -/
def zeros (l : List ℕ) : ℕ :=
  (l.takeWhile (· = 0)).length

/-- The change from radix `b` to radix `c`. -/
def convert (b c : ℕ) (l : List ℕ) : List ℕ :=
  List.replicate (zeros l) 0 ++ digits c (value b l)

variable {b c : ℕ}

/-! ### Numbers and shortest numerals -/

lemma value_eq_ofDigits (b : ℕ) (l : List ℕ) : value b l = Nat.ofDigits b l.reverse := by
  unfold value
  induction l using List.reverseRecOn with
  | nil => rfl
  | append_singleton l d ih =>
    rw [foldl_append, reverse_append, ih]
    simp [Nat.ofDigits_cons, Nat.mul_comm, Nat.add_comm]

lemma lowDigits_eq (hb : 1 < b) : ∀ {fuel x : ℕ}, x < 2 ^ fuel → lowDigits b fuel x = Nat.digits b x
  | 0, x, h => by
      obtain rfl : x = 0 := by simpa using h
      rw [Nat.digits_zero, lowDigits]
  | fuel + 1, x, h => by
      rw [lowDigits]
      split_ifs with hx
      · rw [hx, Nat.digits_zero]
      rw [Nat.digits_def' hb (Nat.pos_of_ne_zero hx), lowDigits_eq hb]
      calc x / b ≤ x / 2 := Nat.div_le_div_left hb (by omega)
        _ < 2 ^ fuel := by omega

lemma digits_eq (hb : 1 < b) (x : ℕ) : digits b x = (Nat.digits b x).reverse := by
  rw [digits, lowDigits_eq hb Nat.lt_log2_self]

lemma value_digits (hb : 1 < b) (x : ℕ) : value b (digits b x) = x := by
  rw [value_eq_ofDigits, digits_eq hb, reverse_reverse, Nat.ofDigits_digits]

variable {l : List ℕ} {d : ℕ}

lemma value_lt (hb : 1 < b) (hl : ∀ d ∈ l, d < b) : value b l < b ^ l.length := by
  rw [value_eq_ofDigits, ← length_reverse]
  exact Nat.ofDigits_lt_base_pow_length hb fun d hd => hl d (mem_reverse.1 hd)

lemma digits_lt (hb : 1 < b) {x : ℕ} (hd : d ∈ digits b x) : d < b := by
  rw [digits_eq hb, mem_reverse] at hd
  exact Nat.digits_lt_base hb hd

/-- A shortest numeral does not start with a zero. -/
lemma head?_digits_ne_zero (hb : 1 < b) (x : ℕ) : (digits b x).head? ≠ some 0 := by
  rw [digits_eq hb, head?_reverse]
  intro h
  obtain ⟨hne, hlast⟩ := mem_getLast?_eq_getLast h
  have hx : x ≠ 0 := fun h0 => hne (by rw [h0, Nat.digits_zero])
  exact Nat.getLast_digit_ne_zero b hx hlast.symm

/-- A numeral that does not start with a zero is the shortest of its number. -/
lemma digits_value (hb : 1 < b) (hl : ∀ d ∈ l, d < b) (hhead : l.head? ≠ some 0) :
    digits b (value b l) = l := by
  rw [digits_eq hb, value_eq_ofDigits, Nat.digits_ofDigits b hb, reverse_reverse]
  · exact fun d hd => hl d (mem_reverse.1 hd)
  intro hne hlast
  rw [getLast_reverse] at hlast
  exact hhead (hlast ▸ head?_eq_some_head _)

/-! ### Leading zeros -/

lemma zeros_replicate_append (k : ℕ) (h : l.head? ≠ some 0) :
    zeros (List.replicate k 0 ++ l) = k := by
  induction k with
  | zero => cases l <;> simp_all [zeros]
  | succ k ih => simpa [zeros, replicate_succ] using ih

lemma value_replicate_append (b k : ℕ) (l : List ℕ) :
    value b (List.replicate k 0 ++ l) = value b l := by
  rw [value_eq_ofDigits, value_eq_ofDigits, reverse_append, reverse_replicate,
    Nat.ofDigits_append_replicate_zero]

/-- A numeral is its leading zeros and a numeral that does not start with a zero. -/
lemma exists_eq_replicate_append (l : List ℕ) :
    ∃ m : List ℕ, l = List.replicate (zeros l) 0 ++ m ∧ m.head? ≠ some 0 := by
  induction l with
  | nil => exact ⟨[], rfl, nofun⟩
  | cons d l ih =>
    by_cases hd : d = 0
    · obtain ⟨m, heq, hhead⟩ := ih
      refine ⟨m, ?_, hhead⟩
      have hz : zeros (d :: l) = zeros l + 1 := by simp [zeros, hd]
      rw [hz, replicate_succ, cons_append, ← heq, hd]
    · exact ⟨d :: l, by simp [zeros, hd], by simpa using hd⟩

lemma convert_lt (hc : 1 < c) (hd : d ∈ convert b c l) : d < c := by
  rcases mem_append.1 hd with hd | hd
  · rw [eq_of_mem_replicate hd]
    omega
  · exact digits_lt hc hd

/-- A numeral is the shortest one of its number behind zeros. -/
lemma replicate_digits_value (hb : 1 < b) (hl : ∀ d ∈ l, d < b) :
    List.replicate (l.length - (digits b (value b l)).length) 0 ++ digits b (value b l) = l := by
  obtain ⟨m, heq, hhead⟩ := exists_eq_replicate_append l
  have hm : ∀ d ∈ m, d < b := fun d hd => hl d (heq ▸ mem_append_right _ hd)
  have hdigits : digits b (value b l) = m := by
    rw [heq, value_replicate_append, digits_value hb hm hhead]
  have hlen : l.length - m.length = zeros l := by
    rw [congrArg List.length heq, length_append, length_replicate, Nat.add_sub_cancel]
  rw [hdigits, hlen, ← heq]

/-- Changing the radix keeps the number. -/
lemma value_convert (hc : 1 < c) (l : List ℕ) : value c (convert b c l) = value b l := by
  rw [convert, value_replicate_append, value_digits hc]

/-- Changing the radix back. -/
theorem convert_convert (hb : 1 < b) (hc : 1 < c) (hl : ∀ d ∈ l, d < b) :
    convert c b (convert b c l) = l := by
  obtain ⟨m, heq, hhead⟩ := exists_eq_replicate_append l
  have hm : ∀ d ∈ m, d < b := fun d hd => hl d (heq ▸ mem_append_right _ hd)
  have hvalue : value b l = value b m := by rw [heq, value_replicate_append]
  have hdigits := head?_digits_ne_zero hc (value b m)
  rw [convert, convert, hvalue, zeros_replicate_append _ hdigits, value_replicate_append,
    value_digits hc, digits_value hb hm hhead, ← heq]

end ZwsChain.Lib.Radix
