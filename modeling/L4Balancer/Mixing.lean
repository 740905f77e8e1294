import Mathlib.Data.BitVec
import Mathlib.Data.Fintype.EquivFin

/-!
# Mixing bits

The steps that hash functions mix the bits of a word with. Each of them loses nothing: it
is a bijection of the words of its width, and so is every composition of them.

* `xor_bijective`: adding a word without carry;
* `mul_bijective`: multiplying by a word that has an inverse, as odd ones do;
* `xorshift_bijective`: adding the upper half of the word to the lower one;
* `rotateLeft_bijective`: rotating.
-/

namespace Mixing

open Function

variable {w : ℕ}

theorem xor_bijective (c : BitVec w) : Bijective (c ^^^ ·) := by
  refine Involutive.bijective fun x => ?_
  rw [← BitVec.xor_assoc, BitVec.xor_self, BitVec.zero_xor]

theorem mul_bijective {c d : BitVec w} (h : c * d = 1) : Bijective (· * c) := by
  refine bijective_iff_has_inverse.2 ⟨(· * d), fun x => ?_, fun x => ?_⟩
  · dsimp only
    rw [mul_assoc, h, mul_one]
  · dsimp only
    rw [mul_assoc, mul_comm d, h, mul_one]

/-- The word with its upper bits, from `k` on, added to the lower ones. -/
def xorshift (x : BitVec w) (k : ℕ) : BitVec w := x ^^^ (x >>> k)

theorem xorshift_bijective {k : ℕ} (h : w ≤ 2 * k) :
    Bijective fun x : BitVec w => xorshift x k := by
  refine Involutive.bijective fun x => ?_
  ext i hi
  -- the bits that the second shift would add are behind the end of the word
  have hge : x.getLsbD (k + (k + i)) = false := BitVec.getLsbD_of_ge x _ (by omega)
  simp only [xorshift, BitVec.getElem_xor, BitVec.getElem_ushiftRight, BitVec.getLsbD_xor,
    BitVec.getLsbD_ushiftRight, hge]
  simp

theorem rotateLeft_bijective (k : ℕ) : Bijective fun x : BitVec w => x.rotateLeft k := by
  have hfinite : Finite (BitVec w) :=
    Finite.of_injective BitVec.toFin fun _ _ => BitVec.eq_of_toFin_eq
  refine Finite.injective_iff_bijective.1 fun x y h => ?_
  have hbit : ∀ i, (x.rotateLeft k).getLsbD i = (y.rotateLeft k).getLsbD i :=
    fun i => congrArg (BitVec.getLsbD · i) h
  simp only [BitVec.getLsbD_rotateLeft] at hbit
  refine BitVec.eq_of_getLsbD_eq fun i hi => ?_
  have hk : k % w < w := Nat.mod_lt k (by omega)
  -- the place to which the bit is rotated
  by_cases hlt : i + k % w < w
  · have hi' := hbit (i + k % w)
    have hback : ¬i + k % w < k % w := by omega
    simpa [hlt, hback] using hi'
  · have hi' := hbit (i + k % w - w)
    have hwrap : i + k % w - w < k % w := by omega
    have hback : w - k % w + (i + k % w - w) = i := by omega
    simpa [hwrap, hback] using hi'

end Mixing
