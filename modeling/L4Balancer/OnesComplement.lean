import Mathlib.Algebra.Group.Nat.Even
import Mathlib.Data.Nat.ModEq
import L4Balancer.Bytes

/-!
# One's complement sums

The checksum of the internet protocols: the words of sixteen bits of a message, in network
order, are added with *end-around carry* (`add`), a carry being added to the sum again
(`fold`). A message with a valid checksum sums to `0xffff`.

* `fold_modEq`, `fold_eq_zero`, `fold_lt`: a fold keeps the number modulo `0xffff`, and
  whether it is zero, but only a number of at most `0x1fffe` is a word after one fold;
* `sum_modEq`: the sum is the one of the numbers, modulo `0xffff`;
* `sum_eq_ffff_iff`: it is `0xffff` exactly if the numbers sum to a multiple of `0xffff`
  other than zero;
* `sum_words_overwrite`: what a write at an even offset does to the sum of the words;
* `sum_words_modEq`: the sum of the words of a number that is stored with its least
  significant byte first is 256 times the number, modulo `0xffff`;
* `sum_digits_modEq`: the words of a number sum to it, modulo `0xffff`;
* `modEq_zero_iff_of_write`: so a message stays valid exactly if the numbers that are
  written have the sum of those they replace.
-/

namespace OnesComplement

open Bytes

/-- Adding the carry of a sum to it. -/
def fold (s : ℕ) : ℕ := s / 65536 + s % 65536

/-- The sum of two words with end-around carry. -/
def add (a b : ℕ) : ℕ := fold (a + b)

/-- The sum of words. -/
def sum : List ℕ → ℕ
  | [] => 0
  | w :: ws => add w (sum ws)

/-- The words of a message, in network order; a last byte is padded with a zero. -/
def words : List UInt8 → List ℕ
  | [] => []
  | [b] => [b.toNat * 256]
  | b :: b' :: bs => (b.toNat * 256 + b'.toNat) :: words bs

variable {a b s : ℕ} {ws : List ℕ} {p bs bs' : List UInt8} {off : ℕ}

/-! ## Sums -/

theorem fold_modEq (s : ℕ) : fold s ≡ s [MOD 65535] := by
  rw [fold, Nat.ModEq]
  omega

theorem fold_eq_zero : fold s = 0 ↔ s = 0 := by
  rw [fold]
  omega

theorem fold_lt (h : s ≤ 131070) : fold s < 65536 := by
  rw [fold]
  omega

theorem add_lt (ha : a < 65536) (hb : b < 65536) : add a b < 65536 := fold_lt (by omega)

theorem sum_lt (h : ∀ w ∈ ws, w < 65536) : sum ws < 65536 := by
  induction ws with
  | nil => decide
  | cons w ws ih =>
    obtain ⟨hw, hws⟩ := List.forall_mem_cons.1 h
    exact add_lt hw (ih hws)

theorem sum_modEq (ws : List ℕ) : sum ws ≡ ws.sum [MOD 65535] := by
  induction ws with
  | nil => rfl
  | cons w ws ih =>
    rw [sum, List.sum_cons]
    exact (fold_modEq _).trans (ih.add_left w)

theorem sum_eq_zero : sum ws = 0 ↔ ws.sum = 0 := by
  induction ws with
  | nil => exact Iff.rfl
  | cons w ws ih =>
    rw [sum, List.sum_cons, add, fold_eq_zero, Nat.add_eq_zero_iff, Nat.add_eq_zero_iff, ih]

/-- The words sum to `0xffff`. -/
theorem sum_eq_ffff_iff (h : ∀ w ∈ ws, w < 65536) :
    sum ws = 65535 ↔ ws.sum ≡ 0 [MOD 65535] ∧ ws.sum ≠ 0 := by
  have hlt := sum_lt h
  have hmod := sum_modEq ws
  rw [Ne, ← sum_eq_zero]
  constructor
  · intro hs
    rw [hs] at hmod ⊢
    exact ⟨hmod.symm, by decide⟩
  · rintro ⟨hmod', hne⟩
    have hzero := hmod.trans hmod'
    rw [Nat.ModEq] at hzero
    omega

/-! ## Words -/

theorem words_lt (bs : List UInt8) : ∀ w ∈ words bs, w < 65536 := by
  induction bs using words.induct with
  | case1 => simp [words]
  | case2 b =>
    have hb : b.toNat < 256 := b.toNat_lt
    simp only [words, List.forall_mem_singleton]
    omega
  | case3 b b' bs ih =>
    have hb : b.toNat < 256 := b.toNat_lt
    have hb' : b'.toNat < 256 := b'.toNat_lt
    rw [words, List.forall_mem_cons]
    exact ⟨by omega, ih⟩

theorem words_append (h : Even bs.length) : words (bs ++ bs') = words bs ++ words bs' := by
  induction bs using words.induct with
  | case1 => rfl
  | case2 b => exact absurd h Nat.not_even_one
  | case3 b b' bs ih =>
    have hbs : Even bs.length := by
      simpa only [List.length_cons, Nat.even_add_one, not_not] using h
    rw [List.cons_append, List.cons_append, words, words, ih hbs, List.cons_append]

/-- A write at an even offset replaces the words there. -/
theorem sum_words_overwrite (h : off + bs.length ≤ p.length) (hoff : Even off)
    (hlen : Even bs.length) : (words (overwrite p off bs)).sum + (words (slice p off bs.length)).sum =
      (words p).sum + (words bs).sum := by
  have htake : (p.take off).length = off := List.length_take_of_le (by omega)
  have hslice : (slice p off bs.length).length = bs.length := length_slice h
  have hp : p = p.take off ++ slice p off bs.length ++ p.drop (off + bs.length) := by
    rw [slice, List.append_assoc, ← List.drop_drop, List.take_append_drop, List.take_append_drop]
  have hwords : ∀ q : List UInt8, q.length = bs.length →
      (words (p.take off ++ q ++ p.drop (off + bs.length))).sum =
        (words (p.take off)).sum + (words q).sum + (words (p.drop (off + bs.length))).sum := by
    intro q hq
    rw [words_append, words_append, List.sum_append, List.sum_append]
    · rwa [htake]
    · rw [List.length_append, htake, hq]
      exact hoff.add hlen
  rw [overwrite, hwords bs rfl]
  nth_rewrite 4 [hp]
  rw [hwords _ hslice]
  omega

/-- The words of a number that is stored with its least significant byte first. -/
theorem sum_words_modEq (bs : List UInt8) : (words bs).sum ≡ 256 * leNat bs [MOD 65535] := by
  induction bs using words.induct with
  | case1 => rfl
  | case2 b =>
    rw [words, leNat_cons, List.sum_singleton, Nat.mul_comm]
    rfl
  | case3 b b' bs ih =>
    rw [words, List.sum_cons, leNat_cons, leNat_cons]
    have hcarry : 256 * (b.toNat + 256 * (b'.toNat + 256 * leNat bs)) =
        b.toNat * 256 + b'.toNat + 256 * leNat bs + 65535 * (b'.toNat + 256 * leNat bs) := by
      ring
    rw [hcarry]
    exact (ih.add_left _).trans (Nat.modEq_iff_dvd.2 (by simp))

/-- The lowest `k` words of a number sum to it. -/
theorem sum_digits_modEq (v k : ℕ) :
    ((List.range k).map fun i => v / 65536 ^ i % 65536).sum ≡ v % 65536 ^ k [MOD 65535] := by
  induction k with
  | zero =>
    rw [pow_zero, Nat.mod_one]
    rfl
  | succ k ih =>
    have hone : 65536 ≡ 1 [MOD 65535] := rfl
    have hword := (hone.pow k).mul_right (v / 65536 ^ k % 65536)
    rw [one_pow, one_mul] at hword
    rw [List.range_succ, List.map_append, List.sum_append, List.map_singleton, List.sum_singleton,
      Nat.mod_pow_succ]
    exact ih.add hword.symm

/-- Numbers stored in a message that sums to zero: the sum stays zero exactly if the new numbers
    are the old ones in sum. -/
theorem modEq_zero_iff_of_write {t old new : ℕ}
    (h : s + 256 * old ≡ t + 256 * new [MOD 65535]) (ht : t ≡ 0 [MOD 65535]) :
    s ≡ 0 [MOD 65535] ↔ new ≡ old [MOD 65535] := by
  have hnew : s + 256 * old ≡ 256 * new [MOD 65535] := by
    simpa only [Nat.zero_add] using h.trans (ht.add_right (256 * new))
  constructor
  · intro hs
    have hold : s + 256 * old ≡ 256 * old [MOD 65535] := by
      simpa only [Nat.zero_add] using hs.add_right (256 * old)
    exact (hnew.symm.trans hold).cancel_left_of_coprime (by decide)
  · intro heq
    have hold := hnew.trans (heq.mul_left 256)
    exact Nat.ModEq.add_right_cancel' (256 * old) (by rwa [Nat.zero_add])

end OnesComplement
