import ZwsChain.Common.Address
import ZwsChain.Lib.Radix

/-!
# The base-36 text of a byte string

The package `base36` reads bytes and characters as big-endian digits and changes the radix; a
leading zero byte is a leading character `0`. The two directions are inverse on every byte string
(`decodeToBytes_encodeBytes`) and on every text of the alphabet (`encodeBytes_decodeToBytes`).
-/

open List

namespace ZwsChain.Base36

open Lib Radix

/-- Source: `github.com/martinlindhe/base36`, `base36` -/
def alphabet : Bytes :=
  ascii "0123456789ABCDEFGHIJKLMNOPQRSTUVWXYZ"

/-- Source: `github.com/martinlindhe/base36`, `EncodeBytes` -/
def encodeBytes (b : Bytes) : Bytes :=
  (convert 256 36 (b.map UInt8.toNat)).map fun d => alphabet.getD d 0

/-- A character outside the alphabet gives the empty string.
Source: `github.com/martinlindhe/base36`, `DecodeToBytes` -/
def decodeToBytes (s : Bytes) : Bytes :=
  match s.mapM fun c => alphabet.idxOf? c with
  | none => []
  | some digits => (convert 36 256 digits).map UInt8.ofNat

/-- The digits of a text of the alphabet. -/
def digitsOf (s : Bytes) : List ℕ :=
  s.map fun c => alphabet.idxOf c

variable {s b : Bytes}

lemma getD_alphabet_mem : ∀ d < 36, alphabet.getD d 0 ∈ alphabet := by
  decide +kernel

lemma idxOf_getD_alphabet : ∀ d < 36, alphabet.idxOf (alphabet.getD d 0) = d := by
  decide +kernel

lemma getD_idxOf_alphabet : ∀ c ∈ alphabet, alphabet.getD (alphabet.idxOf c) 0 = c := by
  decide +kernel

lemma idxOf?_alphabet : ∀ c ∈ alphabet, alphabet.idxOf? c = some (alphabet.idxOf c) := by
  decide +kernel

lemma digitsOf_lt (hs : ∀ c ∈ s, c ∈ alphabet) : ∀ d ∈ digitsOf s, d < 36 := by
  intro d hd
  obtain ⟨c, hc, rfl⟩ := List.mem_map.1 hd
  exact idxOf_lt_length_of_mem (hs c hc)

lemma decodeToBytes_eq (hs : ∀ c ∈ s, c ∈ alphabet) :
    decodeToBytes s = (convert 36 256 (digitsOf s)).map UInt8.ofNat := by
  have hdigits : s.mapM (fun c => alphabet.idxOf? c) = some (digitsOf s) := by
    induction s with
    | nil => rfl
    | cons c s ih =>
      rw [mapM_cons, idxOf?_alphabet c (hs c mem_cons_self),
        ih fun x hx => hs x (mem_cons_of_mem c hx)]
      rfl
  rw [decodeToBytes, hdigits]

lemma mem_encodeBytes {c : UInt8} (hc : c ∈ encodeBytes b) : c ∈ alphabet := by
  obtain ⟨d, hd, rfl⟩ := List.mem_map.1 hc
  exact getD_alphabet_mem d (convert_lt (by decide) hd)

/-- The digits of the bytes of a text. -/
lemma toNat_decodeToBytes (hs : ∀ c ∈ s, c ∈ alphabet) :
    (decodeToBytes s).map UInt8.toNat = convert 36 256 (digitsOf s) := by
  rw [decodeToBytes_eq hs, List.map_map]
  refine (map_congr_left fun d hd => ?_).trans (List.map_id _)
  exact UInt8.toNat_ofNat_of_lt' (convert_lt (by decide) hd)

lemma digitsOf_encodeBytes (b : Bytes) :
    digitsOf (encodeBytes b) = convert 256 36 (b.map UInt8.toNat) := by
  rw [digitsOf, encodeBytes, List.map_map]
  refine (map_congr_left fun d hd => ?_).trans (List.map_id _)
  exact idxOf_getD_alphabet d (convert_lt (by decide) hd)

lemma toNat_lt (b : Bytes) : ∀ d ∈ b.map UInt8.toNat, d < 256 := by
  intro d hd
  obtain ⟨c, -, rfl⟩ := List.mem_map.1 hd
  exact c.toNat_lt

/-- Decoding undoes encoding. -/
theorem decodeToBytes_encodeBytes (b : Bytes) : decodeToBytes (encodeBytes b) = b := by
  apply map_injective_iff.2 fun x y => UInt8.toNat_inj.1
  rw [toNat_decodeToBytes fun c => mem_encodeBytes, digitsOf_encodeBytes,
    convert_convert (by decide) (by decide) (toNat_lt b)]

/-- Encoding undoes decoding. -/
theorem encodeBytes_decodeToBytes (hs : ∀ c ∈ s, c ∈ alphabet) :
    encodeBytes (decodeToBytes s) = s := by
  rw [encodeBytes, toNat_decodeToBytes hs,
    convert_convert (by decide) (by decide) (digitsOf_lt hs), digitsOf, List.map_map]
  exact (map_congr_left fun c hc => getD_idxOf_alphabet c (hs c hc)).trans (List.map_id s)

/-- A byte below 36 is one character. -/
lemma encodeBytes_singleton {x : UInt8} (hx : x.toNat < 36) :
    encodeBytes [x] = [alphabet.getD x.toNat 0] := by
  have hall : ∀ n < 36, encodeBytes [UInt8.ofNat n] = [alphabet.getD n 0] := by decide +kernel
  simpa using hall x.toNat hx

end ZwsChain.Base36
