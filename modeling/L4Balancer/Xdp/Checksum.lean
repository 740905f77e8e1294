import L4Balancer.OnesComplement
import L4Balancer.Xdp.Handler

/-!
# Updating checksums

The incremental updates of `balancer.bpf.c`, in terms of one's complement sums: the old
value of a field is taken out of the sum and the new one added.

* `csum_replace32` folds its sum twice, which is always enough (`csumReplace32_spec`), and so
  `csum_replace_ipv6` is right for every two addresses (`csumReplaceIpv6_spec`);
* `csum_replace16` folds its sum once, which is not enough for the sum `0x1ffff`
  (`csumReplace16_spec`).

So `update_tcp_checksum_v6` is right unless that carry gets lost (`updateTcpChecksumV6_spec`).
-/

namespace L4Balancer

open OnesComplement

/-! ## Words of 32 bits -/

theorem toNat_and_ffff (c : UInt32) : (c &&& 0xffff).toNat = c.toNat % 65536 :=
  (UInt32.toNat_and c 0xffff).trans (Nat.and_two_pow_sub_one_eq_mod c.toNat 16)

theorem toNat_shiftRight_16 (c : UInt32) : (c >>> 16).toNat = c.toNat / 65536 :=
  (UInt32.toNat_shiftRight c 16).trans (Nat.shiftRight_eq_div_pow c.toNat 16)

theorem toNat_not (c : UInt32) : (~~~c).toNat = 4294967295 - c.toNat := UInt32.toNat_not c

/-! ## Replacing a field -/

/-- `csum_replace16` folds the sum once. -/
theorem toNat_csumReplace16 (check old new : UInt16) :
    (csumReplace16 check old new).toNat =
      let s := 65535 - check.toNat + (65535 - old.toNat) + new.toNat
      65535 - (s / 65536 + s % 65536) % 65536 := by
  have hc : check.toNat < 65536 := check.toNat_lt
  have ho : old.toNat < 65536 := old.toNat_lt
  have hn : new.toNat < 65536 := new.toNat_lt
  have hsum : (((~~~check.toUInt32) &&& (0xffff : UInt32)) +
      ((~~~old.toUInt32) &&& (0xffff : UInt32)) + new.toUInt32).toNat =
      65535 - check.toNat + (65535 - old.toNat) + new.toNat := by
    simp only [UInt32.toNat_add, toNat_and_ffff, toNat_not, UInt16.toNat_toUInt32]
    omega
  rw [csumReplace16]
  generalize ((~~~check.toUInt32) &&& (0xffff : UInt32)) +
    ((~~~old.toUInt32) &&& (0xffff : UInt32)) + new.toUInt32 = c at hsum
  simp only [UInt32.toNat_toUInt16, UInt32.toNat_add, toNat_and_ffff, toNat_shiftRight_16,
    toNat_not, hsum]
  omega

/-- `csum_replace32` folds the sum twice. -/
theorem toNat_csumReplace32 (check : UInt16) (old new : UInt32) :
    (csumReplace32 check old new).toNat =
      let s := 65535 - check.toNat + (65535 - old.toNat / 65536 + (65535 - old.toNat % 65536)) +
        (new.toNat / 65536 + new.toNat % 65536)
      let t := s / 65536 + s % 65536
      65535 - (t + t / 65536) % 65536 := by
  have hc : check.toNat < 65536 := check.toNat_lt
  have ho : old.toNat < 4294967296 := old.toNat_lt
  have hn : new.toNat < 4294967296 := new.toNat_lt
  have hsum : (((~~~check.toUInt32) &&& (0xffff : UInt32)) +
      (((~~~old) >>> 16) + ((~~~old) &&& (0xffff : UInt32))) +
      ((new >>> 16) + (new &&& (0xffff : UInt32)))).toNat =
      65535 - check.toNat + (65535 - old.toNat / 65536 + (65535 - old.toNat % 65536)) +
        (new.toNat / 65536 + new.toNat % 65536) := by
    have hhi : (4294967295 - old.toNat) / 65536 = 65535 - old.toNat / 65536 := by omega
    have hlo : (4294967295 - old.toNat) % 65536 = 65535 - old.toNat % 65536 := by omega
    simp only [UInt32.toNat_add, toNat_and_ffff, toNat_shiftRight_16, toNat_not,
      UInt16.toNat_toUInt32, hhi, hlo]
    omega
  rw [csumReplace32]
  generalize ((~~~check.toUInt32) &&& (0xffff : UInt32)) +
      (((~~~old) >>> 16) + ((~~~old) &&& (0xffff : UInt32))) +
      ((new >>> 16) + (new &&& (0xffff : UInt32))) = c at hsum
  have hlt : c.toNat < 393216 := by omega
  simp only [UInt32.toNat_toUInt16, UInt32.toNat_add, toNat_and_ffff, toNat_shiftRight_16,
    toNat_not, ← hsum]
  generalize c.toNat = s at hlt
  omega

/-- `csum_replace32` takes the old words out of the sum and adds the new ones. -/
theorem csumReplace32_spec (check : UInt16) (old new : UInt32) :
    (csumReplace32 check old new).toNat + new.toNat ≡ check.toNat + old.toNat [MOD 65535] ∧
      (csumReplace32 check old new = 0xffff ↔
        check = 0xffff ∧ old = 0xffffffff ∧ new = 0) := by
  have hc : check.toNat < 65536 := check.toNat_lt
  have ho : old.toNat < 4294967296 := old.toNat_lt
  have hn : new.toNat < 4294967296 := new.toNat_lt
  have hspec := toNat_csumReplace32 check old new
  generalize csumReplace32 check old new = r at hspec ⊢
  obtain ⟨s, hs⟩ : ∃ s, s = 65535 - check.toNat +
    (65535 - old.toNat / 65536 + (65535 - old.toNat % 65536)) +
      (new.toNat / 65536 + new.toNat % 65536) := ⟨_, rfl⟩
  have hr : r.toNat = 65535 - fold (fold s) := by
    rw [hspec, ← hs]
    dsimp only [fold]
    omega
  have hlt : fold (fold s) < 65536 := fold_lt (by rw [fold]; omega)
  have hmod : fold (fold s) ≡ s [MOD 65535] := (fold_modEq _).trans (fold_modEq s)
  have hzero : fold (fold s) = 0 ↔ s = 0 := fold_eq_zero.trans fold_eq_zero
  generalize fold (fold s) = v at *
  constructor
  · rw [Nat.ModEq] at hmod ⊢
    omega
  · rw [← UInt16.toNat_inj, ← UInt16.toNat_inj, ← UInt32.toNat_inj, ← UInt32.toNat_inj, hr]
    change 65535 - v = 65535 ↔ check.toNat = 65535 ∧ old.toNat = 4294967295 ∧ new.toNat = 0
    omega

/-- `csum_replace16` takes the old word out of the sum and adds the new one, unless a carry gets
    lost. -/
theorem csumReplace16_spec (check old new : UInt16) :
    (csumReplace16 check old new).toNat + new.toNat ≡ check.toNat + old.toNat [MOD 65535] ↔
      new.toNat ≠ old.toNat + check.toNat + 1 := by
  have hc : check.toNat < 65536 := check.toNat_lt
  have ho : old.toNat < 65536 := old.toNat_lt
  have hn : new.toNat < 65536 := new.toNat_lt
  have hr := toNat_csumReplace16 check old new
  obtain ⟨s, hs⟩ : ∃ s, s = 65535 - check.toNat + (65535 - old.toNat) + new.toNat := ⟨_, rfl⟩
  have hmod := fold_modEq s
  rw [← hs] at hr
  change _ = 65535 - fold s % 65536 at hr
  rw [hr]
  by_cases h : s = 131071
  · -- the fold is `0x10000`, which is cut off
    subst h
    refine iff_of_false (fun he => ?_) (by omega)
    rw [Nat.ModEq, fold] at he
    omega
  · refine iff_of_true ?_ (by omega)
    have hlt : fold s < 65536 := by
      rw [fold]
      omega
    rw [Nat.ModEq] at hmod ⊢
    omega

/-! ## Replacing an address -/

/-- The number of an address, from its words. -/
theorem Addr.toNat_eq (a : Addr) : a.toNat = (a.word 0).toNat + 2 ^ 32 * (a.word 1).toNat +
    2 ^ 64 * (a.word 2).toNat + 2 ^ 96 * (a.word 3).toNat := by
  have ha : a.toNat < 2 ^ 128 := a.isLt
  simp only [word, UInt32.toNat_ofNat', Nat.mul_zero, Nat.mul_one, Nat.reduceMul, Nat.reducePow,
    Nat.div_one] at ha ⊢
  omega

/-- The words make up an address. -/
theorem Addr.eq_iff_word {a b : Addr} : a = b ↔
    a.word 0 = b.word 0 ∧ a.word 1 = b.word 1 ∧ a.word 2 = b.word 2 ∧ a.word 3 = b.word 3 := by
  constructor
  · rintro rfl
    exact ⟨rfl, rfl, rfl, rfl⟩
  · rintro ⟨h₀, h₁, h₂, h₃⟩
    rw [← BitVec.toNat_inj, a.toNat_eq, b.toNat_eq, h₀, h₁, h₂, h₃]

/-- `csum_replace_ipv6` takes the old address out of the sum and adds the new one. -/
theorem csumReplaceIpv6_spec (check : UInt16) (old new : Addr) :
    (csumReplaceIpv6 check old new).toNat + new.toNat ≡ check.toNat + old.toNat [MOD 65535] ∧
      (csumReplaceIpv6 check old new = 0xffff ↔
        check = 0xffff ∧ old = BitVec.allOnes 128 ∧ new = 0) := by
  have hfold : csumReplaceIpv6 check old new = csumReplace32 (csumReplace32 (csumReplace32
    (csumReplace32 check (old.word 0) (new.word 0)) (old.word 1) (new.word 1))
    (old.word 2) (new.word 2)) (old.word 3) (new.word 3) := rfl
  obtain ⟨h₀, e₀⟩ := csumReplace32_spec check (old.word 0) (new.word 0)
  generalize csumReplace32 check (old.word 0) (new.word 0) = c₀ at hfold h₀ e₀
  obtain ⟨h₁, e₁⟩ := csumReplace32_spec c₀ (old.word 1) (new.word 1)
  generalize csumReplace32 c₀ (old.word 1) (new.word 1) = c₁ at hfold h₁ e₁
  obtain ⟨h₂, e₂⟩ := csumReplace32_spec c₁ (old.word 2) (new.word 2)
  generalize csumReplace32 c₁ (old.word 2) (new.word 2) = c₂ at hfold h₂ e₂
  obtain ⟨h₃, e₃⟩ := csumReplace32_spec c₂ (old.word 3) (new.word 3)
  rw [← hfold] at h₃ e₃
  have hold := old.toNat_eq
  have hnew := new.toNat_eq
  constructor
  · rw [Nat.ModEq] at h₀ h₁ h₂ h₃ ⊢
    omega
  · rw [e₃, e₂, e₁, e₀]
    have hones : ∀ i < 4, Addr.word (BitVec.allOnes 128) i = 0xffffffff := by decide
    have hzero : ∀ i < 4, Addr.word 0 i = 0 := by decide
    rw [Addr.eq_iff_word, Addr.eq_iff_word, hones 0 (by decide), hones 1 (by decide),
      hones 2 (by decide), hones 3 (by decide), hzero 0 (by decide), hzero 1 (by decide),
      hzero 2 (by decide), hzero 3 (by decide)]
    constructor
    · rintro ⟨⟨⟨⟨hcheck, ho₀, hn₀⟩, ho₁, hn₁⟩, ho₂, hn₂⟩, ho₃, hn₃⟩
      exact ⟨hcheck, ⟨ho₀, ho₁, ho₂, ho₃⟩, hn₀, hn₁, hn₂, hn₃⟩
    · rintro ⟨hcheck, ⟨ho₀, ho₁, ho₂, ho₃⟩, hn₀, hn₁, hn₂, hn₃⟩
      exact ⟨⟨⟨⟨hcheck, ho₀, hn₀⟩, ho₁, hn₁⟩, ho₂, hn₂⟩, ho₃, hn₃⟩

/-! ## Replacing an address and a port -/

/-- The sum that `csum_replace16` folds is `0x1ffff`, for which one fold is not enough: as the
    machine reads the words, the new port follows on the old one and the checksum that the new
    address needs. -/
def CarryLost (check : UInt16) (oldDaddr newDaddr : Addr) (oldDport newDport : UInt16) : Prop :=
  oldDport < newDport ∧ check.toNat + oldDaddr.toNat + oldDport.toNat + 1 ≡
    newDaddr.toNat + newDport.toNat [MOD 65535] ∧
  ¬(check = 0xffff ∧ oldDaddr = BitVec.allOnes 128 ∧ newDaddr = 0)

theorem updateTcpChecksumV6_spec (check : UInt16) (oldDaddr newDaddr : Addr)
    (oldDport newDport : UInt16) :
    (updateTcpChecksumV6 check oldDaddr newDaddr oldDport newDport).toNat +
        (newDaddr.toNat + newDport.toNat) ≡
          check.toNat + (oldDaddr.toNat + oldDport.toNat) [MOD 65535] ↔
      ¬CarryLost check oldDaddr newDaddr oldDport newDport := by
  obtain ⟨hmod, hffff⟩ := csumReplaceIpv6_spec check oldDaddr newDaddr
  have h16 := csumReplace16_spec (csumReplaceIpv6 check oldDaddr newDaddr) oldDport newDport
  rw [updateTcpChecksumV6, CarryLost, ← hffff]
  have hlt : (csumReplaceIpv6 check oldDaddr newDaddr).toNat < 65536 := UInt16.toNat_lt _
  have heq : csumReplaceIpv6 check oldDaddr newDaddr = 0xffff ↔
    (csumReplaceIpv6 check oldDaddr newDaddr).toNat = 65535 := UInt16.toNat_inj.symm
  have ho : oldDport.toNat < 65536 := oldDport.toNat_lt
  have hn : newDport.toNat < 65536 := newDport.toNat_lt
  rw [heq, UInt16.lt_iff_toNat_lt]
  generalize (csumReplace16 _ _ _).toNat = r at h16 ⊢
  generalize (csumReplaceIpv6 check oldDaddr newDaddr).toNat = c at hmod h16 hlt ⊢
  generalize oldDport.toNat = o at h16 ho ⊢
  generalize newDport.toNat = n at h16 hn ⊢
  have hlost : r + n ≡ c + o [MOD 65535] ↔
      r + (newDaddr.toNat + n) ≡ check.toNat + (oldDaddr.toNat + o) [MOD 65535] := by
    rw [Nat.ModEq, Nat.ModEq] at *
    omega
  rw [← hlost, h16]
  rw [Nat.ModEq] at hmod ⊢
  omega

/-! ## Values that stay -/

theorem eq_ite_of_toNat {check r : UInt16}
    (h : r.toNat = if check.toNat = 65535 then 0 else check.toNat) :
    r = if check = 0xffff then 0 else check := by
  have hc : check = 0xffff ↔ check.toNat = 65535 := UInt16.toNat_inj.symm
  refine UInt16.toNat_inj.1 ?_
  rw [h]
  simp only [hc]
  split_ifs <;> rfl

/-- Updating a checksum with a value that stays. -/
theorem csumReplace16_self (check v : UInt16) :
    csumReplace16 check v v = if check = 0xffff then 0 else check := by
  have hc : check.toNat < 65536 := check.toNat_lt
  have hv : v.toNat < 65536 := v.toNat_lt
  refine eq_ite_of_toNat ?_
  rw [toNat_csumReplace16]
  dsimp only
  split_ifs <;> omega

theorem csumReplace32_self (check : UInt16) (v : UInt32) :
    csumReplace32 check v v = if check = 0xffff then 0 else check := by
  have hc : check.toNat < 65536 := check.toNat_lt
  have hv : v.toNat < 4294967296 := v.toNat_lt
  refine eq_ite_of_toNat ?_
  rw [toNat_csumReplace32]
  have hs : 65535 - check.toNat + (65535 - v.toNat / 65536 + (65535 - v.toNat % 65536)) +
      (v.toNat / 65536 + v.toNat % 65536) = 65535 - check.toNat + 131070 := by omega
  rw [hs]
  dsimp only
  -- the first fold has a carry only for the two largest checksums
  have hfold : (65535 - check.toNat + 131070) / 65536 + (65535 - check.toNat + 131070) % 65536 =
      if check.toNat < 65534 then 65535 - check.toNat else 131070 - check.toNat := by
    split_ifs <;> omega
  rw [hfold]
  split_ifs <;> omega

theorem updateTcpChecksumV6_self (check : UInt16) (daddr : Addr) (dport : UInt16) :
    updateTcpChecksumV6 check daddr daddr dport dport = if check = 0xffff then 0 else check := by
  rw [updateTcpChecksumV6, csumReplaceIpv6, csumReplace16_self]
  simp only [List.range, List.range.loop, List.foldl, csumReplace32_self]
  by_cases h : check = 0xffff <;> simp [h]

theorem updateUdpChecksumV6_self (check : UInt16) (daddr : Addr) (dport : UInt16) :
    updateUdpChecksumV6 check daddr daddr dport dport = if check = 0 then 0xffff else check := by
  rw [updateUdpChecksumV6, updateTcpChecksumV6_self]
  by_cases h : check = 0xffff
  · simp [h]
  · simp [h]

end L4Balancer
