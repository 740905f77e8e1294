import L4Balancer.Scan
import L4Balancer.Xdp.Cursors

/-!
# Choices are scans

Round robin and weighted round robin look for a backend at the positions of the block of
the service, from their cursor on, and give up at the end of a window (`Scan.first`):

* round robin at the end of four positions, since the loop around the handler drops what
  the fifth call returns (`rr_selectLoop`);
* weighted round robin at the end of 32 positions, or of two rounds of the block if this is
  less (`wrr_selectLoop`). The loop around it has nothing left to do.

Both go on behind the position of their last choice, weighted round robin after it has
chosen it as often as its weight says.
-/

namespace L4Balancer

open Bpf Scan

variable {cpus : ℕ} {backends : ArrayMap Backend 1024} {info : ServiceInfo} {key : ServiceKey}
  {p : Backend → Bool} {last : UInt32} {m : Maps cpus}

/-- The positions of the backends with a property, on a cycle of `n` positions that begins at the
    start of the service. -/
def ServiceInfo.hits (info : ServiceInfo) (backends : ArrayMap Backend 1024) (p : Backend → Bool)
    (n k : ℕ) : Bool :=
  (backends.lookup (info.backendStartIdx.toNat + k % n)).any p

theorem ServiceInfo.hits_periodic (n : ℕ) : (info.hits backends p n).Periodic n := fun k => by
  rw [hits, hits, Nat.add_mod_right]

/-! ## Round robin -/

/-- The number of positions of round robin. An empty block has one, its start. -/
def ServiceInfo.span (info : ServiceInfo) : ℕ := max 1 info.backendCount.toNat

/-- The position that follows a cursor. -/
def ServiceInfo.rrNext (info : ServiceInfo) (cur : UInt32) : UInt32 :=
  if cur + 1 ≥ info.backendCount then 0 else cur + 1

namespace ServiceInfo

theorem span_pos (info : ServiceInfo) : 0 < info.span := Nat.le_max_left 1 _

theorem rrNext_lt (info : ServiceInfo) (cur : UInt32) : (info.rrNext cur).toNat < info.span := by
  rw [rrNext]
  split_ifs with h
  · exact info.span_pos
  · exact (UInt32.lt_iff_toNat_lt.1 (UInt32.not_le.1 h)).trans_le (Nat.le_max_right 1 _)

theorem Fits.span_le (h : info.Fits) : info.span ≤ 1024 := by
  rw [Fits] at h
  rw [span]
  omega

theorem Fits.toNat_rrNext (h : info.Fits) {cur : UInt32} (hcur : cur.toNat < info.span) :
    (info.rrNext cur).toNat = (cur.toNat + 1) % info.span := by
  have hle := h.span_le
  have hsucc : (cur + 1).toNat = cur.toNat + 1 := by
    rw [UInt32.toNat_add]
    exact Nat.mod_eq_of_lt (by rw [UInt32.toNat_one]; omega)
  have hge : cur + 1 ≥ info.backendCount ↔ info.backendCount.toNat ≤ cur.toNat + 1 := by
    rw [ge_iff_le, UInt32.le_iff_toNat_le, hsucc]
  rw [rrNext]
  rw [span] at hcur ⊢
  split_ifs with hback <;> rw [hge] at hback
  · have hend : max 1 info.backendCount.toNat = cur.toNat + 1 := by omega
    rw [hend, Nat.mod_self, UInt32.toNat_zero]
  · rw [hsucc, Nat.mod_eq_of_lt (by omega)]

/-- The index of a position. -/
theorem Fits.toNat_add (h : info.Fits) {k : UInt32} (hk : k.toNat < info.span) :
    (info.backendStartIdx + k).toNat = info.backendStartIdx.toNat + k.toNat := by
  have hle := h.span_le
  rw [Fits] at h
  rw [UInt32.toNat_add]
  exact Nat.mod_eq_of_lt (by omega)

/-- Where the map has no backend, the block is empty. -/
theorem Fits.not_hits (h : info.Fits) {k : ℕ}
    (hk : backends.lookup (info.backendStartIdx.toNat + k % info.span) = none) (j : ℕ) :
    info.hits backends p info.span j = false := by
  have hge : 1024 ≤ info.backendStartIdx.toNat + k % info.span := by
    by_contra hlt
    rw [ArrayMap.lookup_of_lt _ (not_le.1 hlt)] at hk
    cases hk
  have hmod := Nat.mod_lt k info.span_pos
  have hone : info.span = 1 := by
    rw [Fits] at h
    rw [span] at hmod hge ⊢
    omega
  rw [hits, hone, Nat.mod_one, ← Nat.mod_one k, ← hone, hk]
  rfl

end ServiceInfo

theorem rrBalancerHandle_eq {cur : UInt32} (hcur : m.rrIndex.lookup key = some cur) :
    rrBalancerHandle backends info key last m =
      (backends.lookup (info.backendStartIdx + info.rrNext cur).toNat,
        info.backendStartIdx + info.rrNext cur,
        { m with rrIndex := m.rrIndex.put key (info.rrNext cur) }) := by
  rw [rrBalancerHandle, hcur]
  rfl

/-- The loop of round robin scans one position less than it makes calls. It chooses the backend at
    its hit, and the next scan begins behind it. -/
theorem rr_selectLoop (hfits : info.Fits) {cur : UInt32} (hcur : m.rrIndex.lookup key = some cur)
    {k : ℕ} (hk : (info.rrNext cur).toNat = k % info.span) (left : ℕ) :
    ((selectLoop (rrBalancerHandle backends info key) (left + 1) last m).1.isSome =
      (first (info.hits backends (·.active ≠ 0) info.span) left k).isSome) ∧
    ∀ q, first (info.hits backends (·.active ≠ 0) info.span) left k = some q →
      ∃ b idx m', selectLoop (rrBalancerHandle backends info key) (left + 1) last m =
          (some b, idx, m') ∧
        idx.toNat = info.backendStartIdx.toNat + q % info.span ∧
        backends.lookup idx.toNat = some b ∧
        ∃ cur', m'.rrIndex.lookup key = some cur' ∧
          (info.rrNext cur').toNat = (q + 1) % info.span := by
  induction left generalizing k last m cur with
  | zero =>
    rw [selectLoop, rrBalancerHandle_eq hcur]
    exact ⟨rfl, fun q hq => by cases hq⟩
  | succ left ih =>
    have hlt := info.rrNext_lt cur
    have hroom : m.rrIndex.HasRoom key := .inl (Option.isSome_of_eq_some hcur)
    -- the call leaves the cursor at the position it has looked at
    have hcur' : ({ m with rrIndex := m.rrIndex.put key (info.rrNext cur) } :
        Maps cpus).rrIndex.lookup key = some (info.rrNext cur) := by
      rw [HashMap.lookup_put hroom, if_pos rfl]
    have hnext : (info.rrNext (info.rrNext cur)).toNat = (k + 1) % info.span := by
      rw [hfits.toNat_rrNext hlt, hk, Nat.mod_add_mod]
    rw [selectLoop, rrBalancerHandle_eq hcur, hfits.toNat_add hlt, hk]
    dsimp only
    rw [if_neg (Nat.succ_ne_zero left)]
    cases hb : backends.lookup (info.backendStartIdx.toNat + k % info.span) with
    | none =>
      -- the loop stops, but the other positions have nothing either
      have hnone : first (info.hits backends (·.active ≠ 0) info.span) (left + 1) k = none := by
        rw [← Option.not_isSome_iff_eq_none, first_isSome]
        rintro ⟨d, -, hhit⟩
        exact absurd (hhit.symm.trans (hfits.not_hits hb _)) (by simp)
      rw [hnone]
      exact ⟨rfl, fun q hq => by cases hq⟩
    | some b =>
      have hhit : info.hits backends (·.active ≠ 0) info.span k = decide (b.active ≠ 0) := by
        rw [ServiceInfo.hits, hb, Option.any_some]
      dsimp only
      rw [first, hhit]
      by_cases hact : b.active = 0
      · rw [if_pos hact, if_neg (by simp [hact])]
        exact ih hcur' hnext
      · rw [if_neg hact, if_pos (by simp [hact])]
        refine ⟨rfl, fun q hq => ?_⟩
        obtain rfl := Option.some.inj hq
        have hidx : (info.backendStartIdx + info.rrNext cur).toNat =
            info.backendStartIdx.toNat + k % info.span := by
          rw [hfits.toNat_add hlt, hk]
        exact ⟨b, _, _, rfl, hidx, hidx ▸ hb, _, hcur', hnext⟩

/-! ## Weighted round robin -/

/-- The state that the choice of the backend at its position leaves. -/
def WrrState.take (st : WrrState) (info : ServiceInfo) (b : Backend) : WrrState :=
  if st.currentWeightCounter + 1 < b.weight.toUInt32 then
    { st with currentWeightCounter := st.currentWeightCounter + 1 }
  else st.advance info

/-- The number of positions of weighted round robin. -/
def ServiceInfo.wrrWindow (info : ServiceInfo) : ℕ := min 32 (2 * info.backendCount.toNat)

theorem ServiceInfo.Fits.count_le (h : info.Fits) : info.backendCount.toNat ≤ 1024 := by
  rw [Fits] at h
  omega

/-- The bound on the attempts does not overflow. -/
theorem ServiceInfo.Fits.toInt_bound (h : info.Fits) :
    (info.backendCount * 2).toBitVec.toInt = 2 * (info.backendCount.toNat : ℤ) := by
  have hle := h.count_le
  have hmul : (info.backendCount * 2).toNat = 2 * info.backendCount.toNat := by
    rw [UInt32.toNat_mul, show (2 : UInt32).toNat = 2 from rfl, mul_comm]
    exact Nat.mod_eq_of_lt (by omega)
  rw [BitVec.toInt_eq_toNat_of_lt] <;> rw [UInt32.toNat_toBitVec, hmul]
  · push_cast
    rfl
  · omega

theorem WrrState.toNat_advance (hfits : info.Fits) (hc : info.backendCount ≠ 0) {st : WrrState}
    {k : ℕ} (hk : st.currentIndex.toNat = k % info.backendCount.toNat) :
    (st.advance info).currentIndex.toNat = (k + 1) % info.backendCount.toNat := by
  have hle := hfits.count_le
  have hlt : k % info.backendCount.toNat < info.backendCount.toNat :=
    Nat.mod_lt k (UInt32.pos_iff_ne_zero.2 hc)
  have hsucc : (st.currentIndex + 1).toNat = k % info.backendCount.toNat + 1 := by
    rw [UInt32.toNat_add, hk, UInt32.toNat_one]
    exact Nat.mod_eq_of_lt (by omega)
  rw [advance, UInt32.toNat_mod, hsucc, Nat.mod_add_mod]

/-- The search scans a position at each attempt, up to the bound. -/
theorem wrrSearch_scan (hfits : info.Fits) (hc : info.backendCount ≠ 0) {left : ℕ}
    (hleft : left ≤ 32) {st : WrrState} {k : ℕ}
    (hk : st.currentIndex.toNat = k % info.backendCount.toNat) :
    let window := min left (2 * info.backendCount.toNat - (32 - left))
    let scan := first (info.hits backends Backend.eligible info.backendCount.toNat) window k
    (wrrSearch backends info left st).1.isSome = scan.isSome ∧
      ∀ q, scan = some q → ∃ b,
        backends.lookup (info.backendStartIdx.toNat + q % info.backendCount.toNat) = some b ∧
        wrrSearch backends info left st =
          (some (b, info.backendStartIdx + .ofNat (q % info.backendCount.toNat)), WrrState.take
            ⟨.ofNat (q % info.backendCount.toNat), if q = k then st.currentWeightCounter else 0⟩
            info b) := by
  induction left generalizing k st with
  | zero =>
    rw [Nat.zero_min]
    exact ⟨rfl, fun q hq => by cases hq⟩
  | succ left ih =>
    have hpos : 0 < info.backendCount.toNat := UInt32.pos_iff_ne_zero.2 hc
    have hlt := Nat.mod_lt k hpos
    rw [wrrSearch, hfits.toInt_bound]
    dsimp only
    by_cases hstop : (31 - left : ℤ) ≥ 2 * (info.backendCount.toNat : ℤ)
    · -- two rounds are over
      have hzero : min (left + 1) (2 * info.backendCount.toNat - (32 - (left + 1))) = 0 := by omega
      rw [if_pos hstop, hzero]
      exact ⟨rfl, fun q hq => by cases hq⟩
    · have hwindow : min (left + 1) (2 * info.backendCount.toNat - (32 - (left + 1))) =
          min left (2 * info.backendCount.toNat - (32 - left)) + 1 := by omega
      have hindex : (info.backendStartIdx + st.currentIndex).toNat =
          info.backendStartIdx.toNat + k % info.backendCount.toNat := by
        rw [← hk] at hlt ⊢
        exact hfits.toNat_add (hlt.trans_le (Nat.le_max_right 1 _))
      -- the block is not empty, so that the map has a backend
      obtain ⟨b, hb⟩ : ∃ b, backends.lookup
          (info.backendStartIdx.toNat + k % info.backendCount.toNat) = some b := by
        rw [ServiceInfo.Fits] at hfits
        exact ⟨_, ArrayMap.lookup_of_lt _ (by omega)⟩
      have hhit : info.hits backends Backend.eligible info.backendCount.toNat k = b.eligible := by
        rw [ServiceInfo.hits, hb, Option.any_some]
      rw [if_neg hstop, hwindow, hindex, hb, first, hhit]
      dsimp only
      cases he : b.eligible with
      | true =>
        rw [if_pos rfl, if_pos rfl]
        refine ⟨by split_ifs <;> rfl, fun q hq => ⟨b, ?_⟩⟩
        obtain rfl := Option.some.inj hq
        refine ⟨hb, ?_⟩
        rw [if_pos rfl, ← hk, UInt32.ofNat_toNat, WrrState.take]
        split_ifs <;> rfl
      | false =>
        obtain ⟨hsome, hstate⟩ := ih (by omega) (WrrState.toNat_advance hfits hc hk)
        rw [if_neg Bool.false_ne_true, if_neg Bool.false_ne_true]
        refine ⟨hsome, fun q hq => ?_⟩
        obtain ⟨b', hb', hst⟩ := hstate q hq
        -- the counter is put back at each position that is passed
        have hne : q ≠ k := by
          have hge := (first_spec hq).1
          omega
        refine ⟨b', hb', hst.trans ?_⟩
        rw [if_neg hne, WrrState.advance, ite_self]

/-- An empty block has no attempts. -/
theorem wrrSearch_empty (hc : info.backendCount = 0) (st : WrrState) :
    wrrSearch backends info 32 st = (none, st) := by
  rw [wrrSearch, hc]
  exact if_pos (by decide)

/-- The state under a key, which is zeroed if there is none. -/
def Maps.wrrAt (m : Maps cpus) (key : ServiceKey) : WrrState :=
  (m.wrrStateMap.lookup key).getD ⟨0, 0⟩

theorem Maps.lookup_initWrrState (hroom : m.wrrStateMap.HasRoom key) :
    (m.initWrrState key).wrrStateMap.lookup key = some (m.wrrAt key) := by
  rw [initWrrState, wrrAt]
  split
  · rename_i hnone
    rw [HashMap.lookup_put hroom, if_pos rfl, hnone]
    rfl
  · rename_i st hst
    rw [hst, Option.getD_some]

/-- The loop of weighted round robin makes one search, and keeps its state. -/
theorem wrr_selectLoop_eq (hroom : m.wrrStateMap.HasRoom key) :
    (selectLoop (wrrBalancerHandle backends info key) 5 last m).1.map
        (·, (selectLoop (wrrBalancerHandle backends info key) 5 last m).2.1) =
        (wrrSearch backends info 32 (m.wrrAt key)).1 ∧
      (selectLoop (wrrBalancerHandle backends info key) 5 last m).2.2.wrrStateMap.lookup key =
        some (wrrSearch backends info 32 (m.wrrAt key)).2 := by
  have hinit := Maps.lookup_initWrrState hroom
  have hroom' : (m.initWrrState key).wrrStateMap.HasRoom key :=
    .inl (Option.isSome_of_eq_some hinit)
  have hput : ∀ st, ((m.initWrrState key).wrrStateMap.put key st).lookup key = some st :=
    fun st => by rw [HashMap.lookup_put hroom', if_pos rfl]
  rw [selectLoop, wrrBalancerHandle, hinit]
  dsimp only
  rcases hs : wrrSearch backends info 32 (m.wrrAt key) with ⟨_ | ⟨b, idx⟩, st⟩
  · exact ⟨rfl, hput st⟩
  · have hactive : b.active ≠ 0 := (of_decide_eq_true (wrrSearch_names hs).2).1
    dsimp only
    rw [if_neg (by decide), if_neg hactive]
    exact ⟨rfl, hput st⟩

end L4Balancer
