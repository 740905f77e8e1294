import Mathlib.Data.List.Basic

/-!
# Window counters

A *window counter* counts events. It restarts lazily: the first event later than `W` after
the start of its window starts a new one. The times of the events do not decrease.

* `Counted`: such a counter has never counted more than the events in its window;
* `allowance`: a gate that lets through events as long as their counter is at most a limit
  has let through at most this many in the interval from `t` to `t + W`. The interval meets
  at most two windows, so that this is at most twice the limit (`allowance_le`).
-/

/-- A window counter: the start of its window, and how many events it has counted. -/
structure WindowCounter where
  start : ℕ
  count : ℕ

namespace WindowCounter

/-- The counter at the time `now`, in a new window if the old one is over. -/
def restart (W now : ℕ) (w : WindowCounter) : WindowCounter :=
  if now - w.start > W then ⟨now, 0⟩ else w

/-- Counting an event. -/
def hit (w : WindowCounter) : WindowCounter := { w with count := w.count + 1 }

/-- The time `x` is in the interval of length `W` that begins at `t`. -/
def within (W t x : ℕ) : Bool := t ≤ x ∧ x ≤ t + W

variable {W t now limit p : ℕ} {w : WindowCounter} {times : List ℕ}

@[simp] theorem start_hit (w : WindowCounter) : w.hit.start = w.start := rfl

@[simp] theorem count_hit (w : WindowCounter) : w.hit.count = w.count + 1 := rfl

theorem within_iff {x : ℕ} : within W t x ↔ t ≤ x ∧ x ≤ t + W := decide_eq_true_iff

/-- After a restart, the time is in the window. -/
theorem within_restart (h : w.start ≤ now) : within W (w.restart W now).start now := by
  rw [within_iff, restart]
  split_ifs with hover
  · exact ⟨Nat.le_refl now, Nat.le_add_right now W⟩
  · exact ⟨h, by omega⟩

theorem count_restart_le (w : WindowCounter) : (w.restart W now).count ≤ w.count := by
  rw [restart]
  split_ifs
  · exact Nat.zero_le _
  · exact Nat.le_refl _

/-- The window begins before every later time. -/
theorem start_restart_le {x : ℕ} (h : w.start ≤ x) (hnow : now ≤ x) :
    (w.restart W now).start ≤ x := by
  rw [restart]
  split_ifs
  · exact hnow
  · exact h

/-! ## Events in the window -/

/-- The counter has counted at most the events in its window. -/
def Counted (W : ℕ) (times : List ℕ) (w : WindowCounter) : Prop :=
  w.count ≤ times.countP (within W w.start)

theorem Counted.zero (W : ℕ) (times : List ℕ) (now : ℕ) : Counted W times ⟨now, 0⟩ :=
  Nat.zero_le _

theorem Counted.restart (h : Counted W times w) (now : ℕ) : Counted W times (w.restart W now) := by
  rw [WindowCounter.restart]
  split_ifs
  · exact .zero W times now
  · exact h

/-- An event that the counter does not see. -/
theorem Counted.append (h : Counted W times w) (times' : List ℕ) :
    Counted W (times ++ times') w := by
  rw [Counted, List.countP_append]
  exact Nat.le_add_right_of_le h

theorem Counted.hit (h : Counted W times w) (hin : within W w.start now) :
    Counted W (times ++ [now]) w.hit := by
  rw [Counted, start_hit, count_hit, List.countP_append, List.countP_singleton, if_pos hin]
  exact Nat.add_le_add_right h 1

/-! ## Events let through -/

/-- How many events a gate with the limit can have let through in the interval that begins at `t`:
    those of the window of the counter, and those of one window before it. -/
def allowance (W limit t : ℕ) (w : WindowCounter) : ℕ :=
  if w.start < t then min w.count limit
  else if w.start ≤ t + W then limit + min w.count limit
  else 2 * limit

theorem allowance_le (w : WindowCounter) : w.allowance W limit t ≤ 2 * limit := by
  rw [allowance]
  split_ifs <;> omega

/-- A restart keeps the bound on the events so far, none of which is later. -/
theorem le_allowance_restart (h : p ≤ w.allowance W limit t) (hnone : now < t → p = 0) :
    p ≤ (w.restart W now).allowance W limit t := by
  rw [restart]
  split_ifs with hover
  · rw [allowance] at h ⊢
    dsimp only
    split_ifs at h ⊢ <;> omega
  · exact h

theorem allowance_hit (w : WindowCounter) :
    w.allowance W limit t ≤ w.hit.allowance W limit t := by
  rw [allowance, allowance, start_hit, count_hit]
  split_ifs <;> omega

/-- An event that is let through needs the limit. -/
theorem allowance_pass (hin : within W w.start now) (hpass : w.hit.count ≤ limit)
    (ht : within W t now) : w.allowance W limit t + 1 ≤ w.hit.allowance W limit t := by
  rw [within_iff] at hin ht
  rw [count_hit] at hpass
  rw [allowance, allowance, start_hit, count_hit]
  split_ifs <;> omega

end WindowCounter
