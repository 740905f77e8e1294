import Mathlib.Algebra.BigOperators.Intervals
import Mathlib.Data.Nat.Periodic

/-!
# Rotations

`n` positions in a circle have weights `wt`, a function of period `n`. Counting on, the *turn*
of a position is as many picks long as its weight: the turn `q` is that of the position
`q % n`, and begins after `before wt q` picks.

* `turn_eq`: to which turn a pick belongs;
* `Rotation`: what a sequence of picks has of such turns. The picks of a turn are consecutive,
  the next turn is that of the next position with a weight, and each window of as many picks as
  all weights together has every position as often as its weight;
* `of_turn`: the picks from the beginning of any turn on are a rotation.
-/

variable {n : ℕ} {wt : ℕ → ℕ}

namespace Rotation

/-- The number of picks before the turn `q`. -/
def before (wt : ℕ → ℕ) (q : ℕ) : ℕ := ∑ k ∈ Finset.range q, wt k

/-- The position `q` is the next one with a weight behind the position `p`. -/
def NextInCircle (n : ℕ) (wt : ℕ → ℕ) (p q : ℕ) : Prop :=
  ∃ d, 0 < d ∧ q = (p + d) % n ∧ 0 < wt q ∧ ∀ e, 0 < e → e < d → wt ((p + e) % n) = 0

end Rotation

open Rotation

/-- The sequence `pos` of picks goes round the `n` positions, with the weights `wt`. -/
structure Rotation (n : ℕ) (wt pos : ℕ → ℕ) : Prop where
  lt : ∀ j, pos j < n
  weight : ∀ j, 0 < wt (pos j)
  /-- The first turn is as long as its weight. -/
  first : ∀ d < wt (pos 0), pos d = pos 0
  /-- A turn goes on, or that of the next position begins. -/
  order : ∀ j, pos (j + 1) = pos j ∧ 1 < wt (pos j) ∨ NextInCircle n wt (pos j) (pos (j + 1))
  /-- A turn that begins is as long as its weight. -/
  consecutive : ∀ j, pos (j + 1) ≠ pos j → ∀ d < wt (pos (j + 1)), pos (j + 1 + d) = pos (j + 1)
  /-- Every window of a round of picks has each position as often as its weight. -/
  window : ∀ j, ∀ r < n,
    ((Finset.Ico j (j + before wt n)).filter fun i => pos i = r).card = wt r

/-! ## Turns -/

namespace Rotation

theorem before_succ (wt : ℕ → ℕ) (q : ℕ) : before wt (q + 1) = before wt q + wt q :=
  Finset.sum_range_succ wt q

theorem before_mono (wt : ℕ → ℕ) : Monotone (before wt) :=
  monotone_nat_of_le_succ fun q => by
    rw [before_succ]
    exact Nat.le_add_right _ _

/-- Turns without weight have no picks. -/
theorem before_eq {k q : ℕ} (hle : k ≤ q) (hzero : ∀ e, k ≤ e → e < q → wt e = 0) :
    before wt q = before wt k := by
  induction q, hle using Nat.le_induction with
  | base => rfl
  | succ q hle ih =>
    rw [before_succ, hzero q hle (Nat.lt_succ_self q), Nat.add_zero,
      ih fun e he hlt => hzero e he (hlt.trans (Nat.lt_succ_self q))]

/-- Between turns that begin with the same pick there is no weight. -/
theorem weight_eq_zero {k q e : ℕ} (h : before wt q = before wt k) (hk : k ≤ e) (hq : e < q) :
    wt e = 0 := by
  have hle := before_mono wt hk
  have hle' := before_mono wt (Nat.succ_le_of_lt hq)
  rw [Nat.succ_eq_add_one, before_succ] at hle'
  omega

theorem before_add (hP : wt.Periodic n) (q : ℕ) :
    before wt (q + n) = before wt q + before wt n := by
  induction q with
  | zero => simp [before]
  | succ q ih => rw [Nat.add_right_comm, before_succ, before_succ, ih, hP q, Nat.add_right_comm]

/-- With a weight, there are turns enough. -/
theorem exists_lt_before (hP : wt.Periodic n) (hW : 0 < before wt n) (i : ℕ) :
    ∃ q, i < before wt (q + 1) := by
  have hrounds : ∀ k, before wt (k * n) = k * before wt n := fun k => by
    induction k with
    | zero => simp [before]
    | succ k ih => rw [Nat.succ_mul, before_add hP, ih, Nat.succ_mul]
  refine ⟨(i + 1) * n, ?_⟩
  rw [before_succ, hrounds]
  have := Nat.le_mul_of_pos_right (i + 1) hW
  omega

/-- The turn of the pick `i`: the first one that ends behind it. -/
noncomputable def turn (wt : ℕ → ℕ) (i : ℕ) : ℕ := sInf {q | i < before wt (q + 1)}

theorem turn_eq {q i : ℕ} (hle : before wt q ≤ i) (hlt : i < before wt (q + 1)) : turn wt i = q := by
  refine le_antisymm (Nat.sInf_le hlt) (le_csInf ⟨q, hlt⟩ fun q' hq' => ?_)
  by_contra hq
  have := before_mono wt (Nat.succ_le_of_lt (not_le.1 hq))
  have hq' : i < before wt (q' + 1) := hq'
  rw [Nat.succ_eq_add_one] at this
  omega

section Turn

variable (hP : wt.Periodic n) (hW : 0 < before wt n)

include hP hW in
theorem turn_spec (i : ℕ) : before wt (turn wt i) ≤ i ∧ i < before wt (turn wt i + 1) := by
  have hlt : i < before wt (turn wt i + 1) := Nat.sInf_mem (exists_lt_before hP hW i)
  refine ⟨not_lt.1 fun hbefore => ?_, hlt⟩
  -- the turn is not the first one, and the one before it ends behind `i` too
  cases hq : turn wt i with
  | zero =>
    rw [hq] at hbefore
    exact absurd hbefore (Nat.not_lt_zero i)
  | succ q =>
    rw [hq] at hbefore
    have hle : turn wt i ≤ q := Nat.sInf_le hbefore
    omega

include hP hW in
theorem turn_add (i : ℕ) : turn wt (i + before wt n) = turn wt i + n := by
  obtain ⟨hle, hlt⟩ := turn_spec hP hW i
  refine turn_eq ?_ ?_
  · rw [before_add hP]
    omega
  · rw [Nat.add_right_comm, before_add hP]
    omega

include hP hW in
theorem turn_mono : Monotone (turn wt) := by
  intro i j hij
  by_contra hlt
  obtain ⟨-, hj⟩ := turn_spec hP hW j
  obtain ⟨hi, -⟩ := turn_spec hP hW i
  have := before_mono wt (Nat.succ_le_of_lt (not_le.1 hlt))
  rw [Nat.succ_eq_add_one] at this
  omega

include hP hW in
theorem weight_turn (i : ℕ) : 0 < wt (turn wt i) := by
  obtain ⟨hle, hlt⟩ := turn_spec hP hW i
  rw [before_succ] at hlt
  omega

include hP hW in
/-- Another turn begins with its first pick. -/
theorem before_of_turn_ne {i : ℕ} (h : turn wt (i + 1) ≠ turn wt i) :
    before wt (turn wt i + 1) = i + 1 ∧ before wt (turn wt (i + 1)) = i + 1 := by
  have hlt := lt_of_le_of_ne (turn_mono hP hW (Nat.le_add_right i 1)) (Ne.symm h)
  obtain ⟨-, hi⟩ := turn_spec hP hW i
  obtain ⟨hi', -⟩ := turn_spec hP hW (i + 1)
  have := before_mono wt (Nat.succ_le_of_lt hlt)
  rw [Nat.succ_eq_add_one] at this
  constructor <;> omega

/-- The picks of a turn. -/
theorem turn_before_add {q d : ℕ} (hd : d < wt q) : turn wt (before wt q + d) = q :=
  turn_eq (Nat.le_add_right _ d) (by rw [before_succ]; omega)

include hP hW in
/-- The picks of a position in the first round. -/
theorem count_turn {r : ℕ} (hr : r < n) :
    (before wt n).count (fun i => turn wt i % n = r) = wt r := by
  have hpicks : (Finset.range (before wt n)).filter (fun i => turn wt i % n = r) =
      Finset.Ico (before wt r) (before wt (r + 1)) := by
    ext i
    obtain ⟨hle, hlt⟩ := turn_spec hP hW i
    rw [Finset.mem_filter, Finset.mem_range, Finset.mem_Ico]
    constructor
    · rintro ⟨hi, rfl⟩
      have hn : turn wt i < n := by
        by_contra hge
        have := before_mono wt (not_lt.1 hge)
        omega
      rw [Nat.mod_eq_of_lt hn]
      exact ⟨hle, hlt⟩
    · rintro ⟨hi, hi'⟩
      rw [turn_eq hi hi', Nat.mod_eq_of_lt hr]
      exact ⟨hi'.trans_le (before_mono wt (Nat.succ_le_of_lt hr)), rfl⟩
  rw [Nat.count_eq_card_filter_range, hpicks, Nat.card_Ico, before_succ, Nat.add_sub_cancel_left]

include hP hW in
theorem nextInCircle_turn {i : ℕ} (h : turn wt (i + 1) ≠ turn wt i) :
    NextInCircle n wt (turn wt i % n) (turn wt (i + 1) % n) := by
  have hlt := lt_of_le_of_ne (turn_mono hP hW (Nat.le_add_right i 1)) (Ne.symm h)
  obtain ⟨hend, hbegin⟩ := before_of_turn_ne hP hW h
  refine ⟨turn wt (i + 1) - turn wt i, by omega, ?_, ?_, fun e he hlt' => ?_⟩
  · rw [Nat.mod_add_mod, Nat.add_sub_cancel' hlt.le]
  · rw [hP.map_mod_nat]
    exact weight_turn hP hW (i + 1)
  · rw [Nat.mod_add_mod, hP.map_mod_nat]
    exact weight_eq_zero (hbegin.trans hend.symm) (by omega) (by omega)

include hP hW in
/-- The picks from the turn `k₀` on. -/
theorem of_turn (k₀ : ℕ) :
    Rotation n wt fun j => turn wt (before wt k₀ + j) % n := by
  have hn : 0 < n := by
    rcases Nat.eq_zero_or_pos n with rfl | hn
    · exact absurd hW (lt_irrefl 0)
    · exact hn
  -- a turn that begins with the pick `i`
  have hturn : ∀ i, before wt (turn wt i) = i → ∀ d < wt (turn wt i % n),
      turn wt (i + d) % n = turn wt i % n := by
    intro i hi d hd
    rw [hP.map_mod_nat] at hd
    have := turn_before_add hd
    rw [hi] at this
    rw [this]
  constructor
  · exact fun j => Nat.mod_lt _ hn
  · intro j
    rw [hP.map_mod_nat]
    exact weight_turn hP hW _
  · intro d hd
    refine hturn _ (le_antisymm (turn_spec hP hW _).1 (before_mono wt ?_)) d hd
    -- the turns before `k₀` have ended
    by_contra hlt
    have := before_mono wt (Nat.succ_le_of_lt (not_le.1 hlt))
    exact absurd (turn_spec hP hW (before wt k₀)).2 (not_lt.2 this)
  · intro j
    rw [← Nat.add_assoc]
    by_cases hsame : turn wt (before wt k₀ + j + 1) = turn wt (before wt k₀ + j)
    · left
      obtain ⟨hle, -⟩ := turn_spec hP hW (before wt k₀ + j)
      obtain ⟨-, hlt⟩ := turn_spec hP hW (before wt k₀ + j + 1)
      rw [hsame, before_succ] at hlt
      rw [hsame, hP.map_mod_nat]
      exact ⟨rfl, by omega⟩
    · exact .inr (nextInCircle_turn hP hW hsame)
  · intro j hne d hd
    rw [← Nat.add_assoc] at hne hd ⊢
    rw [← Nat.add_assoc]
    have hturn' : turn wt (before wt k₀ + j + 1) ≠ turn wt (before wt k₀ + j) := fun h =>
      hne (by rw [h])
    exact hturn _ (before_of_turn_ne hP hW hturn').2 d hd
  · intro j r hr
    have hperiodic : Function.Periodic (fun i => turn wt i % n = r) (before wt n) := fun i => by
      dsimp only
      rw [turn_add hP hW, Nat.add_mod_right]
    have hshift : Function.Periodic (fun j => turn wt (before wt k₀ + j) % n = r) (before wt n) :=
      fun j => by
        dsimp only
        rw [← Nat.add_assoc]
        exact hperiodic _
    rw [Nat.filter_Ico_card_eq_of_periodic _ _ _ hshift, ← count_turn hP hW hr]
    -- both are what the picks up to `before wt k₀` leave of those up to one round later
    have hfirst := Nat.count_add (fun i => turn wt i % n = r) (before wt k₀) (before wt n)
    have hround := Nat.count_add (fun i => turn wt i % n = r) (before wt n) (before wt k₀)
    have hback : (fun k => turn wt (before wt n + k) % n = r) = fun k => turn wt k % n = r :=
      funext fun k => by
        rw [Nat.add_comm]
        exact hperiodic k
    simp only [hback] at hround
    rw [Nat.add_comm (before wt n)] at hround
    omega

end Turn

end Rotation
