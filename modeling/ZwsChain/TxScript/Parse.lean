import ZwsChain.TxScript.Script

/-!
# Scripts written and parsed

A script that parses is the bytes of its opcodes, in their order.
-/

open List Option

namespace ZwsChain

namespace TxScript

lemma leBytes_leNat : ∀ b : Bytes, leBytes b.length (leNat b) = b
  | [] => rfl
  | x :: b => by
      have hx := x.toNat_lt
      have hmod : UInt8.ofNat (x.toNat + 256 * leNat b) = x := by
        apply UInt8.toNat.inj
        rw [UInt8.toNat_ofNat']
        omega
      have hdiv : (x.toNat + 256 * leNat b) / 256 = leNat b := by omega
      rw [length_cons, leBytes, leNat, hmod, hdiv, leBytes_leNat b]

/-- An opcode that has been parsed is written as the bytes it was parsed from. -/
lemma bytes_of_parseOpcode {script rest : Bytes} {pop : ParsedOpcode}
    (h : parseOpcode script = some (pop, rest)) :
    ∃ b, pop.bytes = some b ∧ script = b ++ rest := by
  cases script with
  | nil => cases h
  | cons instr tail =>
    simp only [parseOpcode] at h
    split at h
    · next hlen =>
        cases h
        exact ⟨[instr], by simp [ParsedOpcode.bytes, hlen], rfl⟩
    split at h
    · next hone hlen =>
        obtain ⟨hfits, h⟩ := ite_none_left_eq_some.1 h
        cases h
        refine ⟨instr :: tail.take (opcodeLength instr - 1).toNat, ?_, ?_⟩
        · simp only [ParsedOpcode.bytes, if_neg hone, if_pos hlen]
          rw [if_neg]
          simp only [length_cons, length_take]
          omega
        · rw [cons_append, take_append_drop]
    rename_i hone hlen
    obtain ⟨hfits, h⟩ := ite_none_left_eq_some.1 h
    obtain ⟨hdata, h⟩ := ite_none_left_eq_some.1 h
    cases h
    set n := (-opcodeLength instr).toNat with hn
    set l := leNat (tail.take n) with hl
    have htake : (tail.take n).length = n := by
      rw [length_take]
      omega
    have hlength : ((tail.drop n).take l).length = l := by
      rw [length_take]
      omega
    have hle : leBytes n l = tail.take n := by
      nth_rewrite 1 [← htake]
      exact leBytes_leNat _
    refine ⟨instr :: tail.take n ++ (tail.drop n).take l, ?_, ?_⟩
    · simp only [ParsedOpcode.bytes, if_neg hone, if_neg hlen, ← hn, hlength, hle]
      rw [if_neg (not_not.2 hl.symm)]
    · rw [cons_append, cons_append, append_assoc, take_append_drop, take_append_drop]

lemma unparseScript_parseOpcodes :
    ∀ (fuel : Nat) {script : Bytes} {pops : List ParsedOpcode},
      parseOpcodes fuel script = some pops → unparseScript pops = some script
  | 0, [], _, h | _ + 1, [], _, h => by
      obtain rfl := some.inj h
      rfl
  | 0, _ :: _, _, h => by cases h
  | fuel + 1, x :: script, pops, h => by
      simp only [parseOpcodes, bind_eq_bind, bind_eq_some_iff] at h
      obtain ⟨⟨pop, rest⟩, hpop, pops', hpops, ⟨⟩⟩ := h
      obtain ⟨b, hb, hscript⟩ := bytes_of_parseOpcode hpop
      obtain ⟨bs, hbs, hrest⟩ := map_eq_some_iff.1 (unparseScript_parseOpcodes fuel hpops)
      have hflat : bs.flatten = rest := hrest
      rw [hscript, ← hflat]
      simp [unparseScript, hb, hbs]

end TxScript

end ZwsChain
