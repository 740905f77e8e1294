import Mathlib.Data.Int.ModEq
import L4Balancer.Xdp.Checksum

/-!
# The checksum of an address

`csum_replace_ipv6` in terms of the words of sixteen bits of the two addresses, as the machine
reads them: the complement of the checksum is the sum of the message, from which the words of
the old address are taken and to which those of the new one are added, modulo `0xffff`. None of
the additions on the way overflows (`csumReplaceIpv6_sum`).
-/

namespace L4Balancer

open OnesComplement

/-- The words of sixteen bits of an address, as the machine reads them. -/
def Addr.words (a : Addr) : List UInt16 :=
  (List.range 8).map fun i => .ofNat (a.toNat / 65536 ^ i)

/-- The sum of the words. -/
def Addr.wordSum (a : Addr) : ℕ := (a.words.map UInt16.toNat).sum

/-- The additions of `csum_replace32`, in their order. -/
def csumReplace32Additions (check : UInt16) (old new : UInt32) : List (UInt32 × UInt32) :=
  let oldSum := (~~~old >>> 16, ~~~old &&& 0xffff)
  let c₁ := (~~~check.toUInt32 &&& 0xffff, oldSum.1 + oldSum.2)
  let newSum := (new >>> 16, new &&& 0xffff)
  let c₂ := (c₁.1 + c₁.2, newSum.1 + newSum.2)
  let c₃ := ((c₂.1 + c₂.2) >>> 16, (c₂.1 + c₂.2) &&& 0xffff)
  let c₄ := (c₃.1 + c₃.2, (c₃.1 + c₃.2) >>> 16)
  [oldSum, c₁, newSum, c₂, c₃, c₄]

/-- The checksum after the words before the `i`th have been replaced. -/
def csumReplaceIpv6Until (check : UInt16) (old new : Addr) (i : ℕ) : UInt16 :=
  (List.range i).foldl (fun check i => csumReplace32 check (old.word i) (new.word i)) check

/-- The additions of `csum_replace_ipv6`. -/
def csumReplaceIpv6Additions (check : UInt16) (old new : Addr) : List (UInt32 × UInt32) :=
  (List.range 4).flatMap fun i =>
    csumReplace32Additions (csumReplaceIpv6Until check old new i) (old.word i) (new.word i)

/-! ## The additions -/

/-- The last addition gives the checksum, before it is complemented. -/
theorem csumReplace32_eq_of_additions (check : UInt16) (old new : UInt32) :
    (csumReplace32Additions check old new).getLast?.map (fun c => (~~~(c.1 + c.2)).toUInt16) =
      some (csumReplace32 check old new) :=
  rfl

/-- After the last word the checksum is that of `csum_replace_ipv6`. -/
theorem csumReplaceIpv6Until_four (check : UInt16) (old new : Addr) :
    csumReplaceIpv6Until check old new 4 = csumReplaceIpv6 check old new :=
  rfl

/-- No addition overflows: the largest sum before the folds is that of five words. -/
theorem csumReplace32Additions_lt (check : UInt16) (old new : UInt32) :
    ∀ c ∈ csumReplace32Additions check old new, c.1.toNat + c.2.toNat < 2 ^ 32 := by
  have hmask : ∀ c : UInt32, (c &&& 0xffff).toNat < 65536 := fun c => by
    rw [toNat_and_ffff]
    omega
  have hshift : ∀ c : UInt32, (c >>> 16).toNat < 65536 := fun c => by
    have hlt : c.toNat < 4294967296 := c.toNat_lt
    rw [toNat_shiftRight_16]
    omega
  have hadd : ∀ (a b : UInt32) (n k : ℕ), a.toNat < n → b.toNat < k → n + k ≤ 2 ^ 32 →
      (a + b).toNat < n + k := fun a b n k ha hb hle => by
    rw [UInt32.toNat_add]
    omega
  have hc₀ := hmask (~~~check.toUInt32)
  have ho := hmask (~~~old)
  have ho' := hshift (~~~old)
  have hn := hmask new
  have hn' := hshift new
  have hold := hadd _ _ _ _ ho' ho (by norm_num)
  have hc₁ := hadd _ _ _ _ hc₀ hold (by norm_num)
  have hnew := hadd _ _ _ _ hn' hn (by norm_num)
  have hc₂ := hadd _ _ _ _ hc₁ hnew (by norm_num)
  simp only [csumReplace32Additions, List.forall_mem_cons]
  generalize (~~~check.toUInt32 &&& (0xffff : UInt32)) +
    (~~~old >>> 16 + (~~~old &&& (0xffff : UInt32))) +
    (new >>> 16 + (new &&& (0xffff : UInt32))) = c₂ at hc₂ ⊢
  have hc₂' := hmask c₂
  have hc₂'' := hshift c₂
  have hc₃ := hadd _ _ _ _ hc₂'' hc₂' (by norm_num)
  have hc₃' := hshift (c₂ >>> 16 + (c₂ &&& 0xffff))
  refine ⟨by omega, by omega, by omega, by omega, by omega, by omega, by simp⟩

/-- No addition of `csum_replace_ipv6` overflows. -/
theorem csumReplaceIpv6Additions_lt (check : UInt16) (old new : Addr) :
    ∀ c ∈ csumReplaceIpv6Additions check old new, c.1.toNat + c.2.toNat < 2 ^ 32 := by
  intro c hc
  obtain ⟨i, -, hc⟩ := List.mem_flatMap.1 hc
  exact csumReplace32Additions_lt _ _ _ c hc

/-! ## The words -/

theorem Addr.wordSum_modEq (a : Addr) : a.wordSum ≡ a.toNat [MOD 65535] := by
  have hlt : a.toNat < 65536 ^ 8 := a.isLt
  have hsum := sum_digits_modEq a.toNat 8
  rw [Nat.mod_eq_of_lt hlt] at hsum
  rw [wordSum, words, List.map_map]
  exact hsum

/-- Incremental address checksum. For all checksums and addresses, the complement of the new checksum
    is that of the old one plus the words of the new address minus those of the old one, modulo
    `0xffff`; no 32-bit addition on the way overflows; and replacing the new address by the old one
    again gives back the complement. -/
theorem csumReplaceIpv6_sum (check : UInt16) (old new : Addr) :
    let r := csumReplaceIpv6 check old new
    (((~~~r).toNat : ℤ) ≡ (~~~check).toNat + new.wordSum - old.wordSum [ZMOD 65535]) ∧
      (∀ c ∈ csumReplaceIpv6Additions check old new, c.1.toNat + c.2.toNat < 2 ^ 32) ∧
      (~~~csumReplaceIpv6 r new old).toNat ≡ (~~~check).toNat [MOD 65535] := by
  intro r
  have hr := (csumReplaceIpv6_spec check old new).1
  have hback := (csumReplaceIpv6_spec r new old).1
  have hold := old.wordSum_modEq
  have hnew := new.wordSum_modEq
  have hnot : ∀ c : UInt16, (~~~c).toNat = 65535 - c.toNat := UInt16.toNat_not
  have hlt : ∀ c : UInt16, c.toNat < 65536 := fun c => c.toNat_lt
  have hcheck := hlt check
  have hlt_r := hlt r
  have hlt_back := hlt (csumReplaceIpv6 r new old)
  change r.toNat + new.toNat ≡ _ [MOD 65535] at hr
  refine ⟨?_, csumReplaceIpv6Additions_lt check old new, ?_⟩
  · rw [hnot, hnot, Int.ModEq]
    rw [Nat.ModEq] at hr hold hnew
    omega
  · rw [hnot, hnot]
    rw [Nat.ModEq] at hr hback ⊢
    omega

end L4Balancer
