import Mathlib.Data.Nat.Periodic

/-!
# Scanning

A *scan* looks at one position after the other, at no more than `w` of them, and stops at
its first hit (`first`). A *scanner* begins its next scan behind its last hit.

* `first_isSome`: a scan has a hit exactly if there is one in its window;
* `isSome_of_reached`: if the scans of a scanner never fail, no window from its first
  position on is without a hit, although it scans only some of them;
* `forall_iff_lt`: on a cycle of positions there are only as many windows as positions;
* `isSome_iff_exists`: a scan once around the cycle misses nothing.
-/

namespace Scan

variable {P : ℕ → Bool} {n w w' p p₀ q : ℕ}

/-- The first hit among the `w` positions from `p` on. -/
def first (P : ℕ → Bool) : ℕ → ℕ → Option ℕ
  | 0, _ => none
  | w + 1, p => if P p then some p else first P w (p + 1)

theorem first_of_hit (h : P p) (w : ℕ) : first P (w + 1) p = some p := if_pos h

theorem first_spec (h : first P w p = some q) :
    p ≤ q ∧ q < p + w ∧ P q ∧ ∀ k, p ≤ k → k < q → P k = false := by
  induction w generalizing p with
  | zero => cases h
  | succ w ih =>
    rw [first] at h
    split_ifs at h with hp
    · obtain rfl := Option.some.inj h
      exact ⟨le_rfl, by omega, hp, fun k hk hk' => absurd hk' (by omega)⟩
    · obtain ⟨hle, hlt, hq, hbefore⟩ := ih h
      refine ⟨by omega, by omega, hq, fun k hk hk' => ?_⟩
      rcases hk.eq_or_lt with rfl | hk
      · exact Bool.eq_false_of_not_eq_true hp
      · exact hbefore k hk hk'

theorem first_isSome : (first P w p).isSome ↔ ∃ d < w, P (p + d) := by
  induction w generalizing p with
  | zero => simp [first]
  | succ w ih =>
    rw [first]
    split_ifs with hp
    · exact iff_of_true rfl ⟨0, by omega, hp⟩
    · rw [ih]
      constructor
      · rintro ⟨d, hd, hhit⟩
        exact ⟨d + 1, by omega, by rwa [← add_assoc, add_right_comm]⟩
      · rintro ⟨d, hd, hhit⟩
        cases d with
        | zero => exact absurd hhit hp
        | succ d => exact ⟨d, by omega, by rwa [add_right_comm, add_assoc]⟩

/-- If a scanner can always go on behind its next hit, every window from `p₀` on has a hit. -/
theorem isSome_of_reached (Reached : ℕ → Prop) (h0 : Reached p₀)
    (hnext : ∀ p, Reached p → ∃ q, first P w p = some q ∧ Reached (q + 1)) (hp : p₀ ≤ p) :
    (first P w p).isSome := by
  -- the last position at or before `p` where a scan has begun: from there to `p` there are no hits
  have hlast : ∃ r ≤ p, Reached r ∧ ∀ k, r ≤ k → k < p → P k = false := by
    induction p, hp using Nat.le_induction with
    | base => exact ⟨p₀, le_rfl, h0, fun k hk hk' => absurd hk' (by omega)⟩
    | succ p hp ih =>
      obtain ⟨r, hr, hreached, hnone⟩ := ih
      cases hhit : P p with
      | false =>
        refine ⟨r, by omega, hreached, fun k hk hk' => ?_⟩
        rcases (Nat.lt_succ_iff.1 hk').eq_or_lt with rfl | hk'
        · exact hhit
        · exact hnone k hk hk'
      | true =>
        -- the scan from `r` stops at `p`
        obtain ⟨q, hq, hreached'⟩ := hnext r hreached
        obtain ⟨hle, -, hqhit, hbefore⟩ := first_spec hq
        obtain rfl : q = p := by
          rcases lt_trichotomy q p with hlt | heq | hlt
          · exact absurd (hqhit.symm.trans (hnone q hle hlt)) (by simp)
          · exact heq
          · exact absurd (hhit.symm.trans (hbefore p hr hlt)) (by simp)
        exact ⟨q + 1, le_rfl, hreached', fun k hk hk' => absurd hk' (by omega)⟩
  obtain ⟨r, hr, hreached, hnone⟩ := hlast
  obtain ⟨q, hq, -⟩ := hnext r hreached
  obtain ⟨hle, hlt, hqhit, -⟩ := first_spec hq
  have hge : p ≤ q := by
    by_contra hlt
    exact absurd (hqhit.symm.trans (hnone q hle (by omega))) (by simp)
  refine first_isSome.2 ⟨q - p, by omega, ?_⟩
  rwa [Nat.add_sub_cancel' hge]

/-! ## Cycles -/

theorem hit_add_mul (hP : P.Periodic n) (k j : ℕ) : P (k + j * n) = P k := hP.nsmul j k

/-- The windows from one position on are all of them. -/
theorem forall_of_le (hP : P.Periodic n) (hn : 0 < n) (h : ∀ p, p₀ ≤ p → (first P w p).isSome)
    (p : ℕ) : (first P w p).isSome := by
  have hle : p₀ ≤ p + p₀ * n := (Nat.le_mul_of_pos_right p₀ hn).trans (Nat.le_add_left _ _)
  obtain ⟨d, hd, hhit⟩ := first_isSome.1 (h _ hle)
  refine first_isSome.2 ⟨d, hd, ?_⟩
  rwa [add_right_comm, hit_add_mul hP] at hhit

/-- So are those that begin on the first round. -/
theorem forall_iff_lt (hP : P.Periodic n) (hn : 0 < n) :
    (∀ p, (first P w p).isSome) ↔ ∀ p < n, (first P w p).isSome := by
  refine ⟨fun h p _ => h p, fun h p => ?_⟩
  obtain ⟨d, hd, hhit⟩ := first_isSome.1 (h (p % n) (Nat.mod_lt p hn))
  refine first_isSome.2 ⟨d, hd, ?_⟩
  rw [← hP.map_mod_nat] at hhit ⊢
  rwa [Nat.mod_add_mod] at hhit

/-- A window that goes around the cycle has every hit. -/
theorem isSome_iff_exists (hP : P.Periodic n) (hn : 0 < n) (hw : n ≤ w) :
    (first P w p).isSome ↔ ∃ k, P k := by
  rw [first_isSome]
  constructor
  · exact fun ⟨d, _, hhit⟩ => ⟨p + d, hhit⟩
  · rintro ⟨k, hhit⟩
    -- the next position with the rest of `k`
    have hrest : p ≤ k + p * n := (Nat.le_mul_of_pos_right p hn).trans (Nat.le_add_left _ _)
    refine ⟨(k + p * n - p) % n, (Nat.mod_lt _ hn).trans_le hw, ?_⟩
    rw [← hP.map_mod_nat, Nat.add_mod_mod, Nat.add_sub_cancel' hrest, hP.map_mod_nat,
      hit_add_mul hP]
    exact hhit

/-- So a window need not be larger than the cycle. -/
theorem isSome_min_iff (hP : P.Periodic n) (hn : 0 < n) (hw : n ≤ w') :
    (first P (min w w') p).isSome ↔ (first P w p).isSome := by
  rcases le_total w w' with hle | hle
  · rw [min_eq_left hle]
  · rw [min_eq_right hle, isSome_iff_exists hP hn hw, isSome_iff_exists hP hn (hw.trans hle)]

end Scan
