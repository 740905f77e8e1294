import L4Balancer.Control.Turns
import L4Balancer.Rotation

/-!
# Shares of the backends

The backends that round robin and weighted round robin choose in a run of packets are a
rotation of the block of the service (`Rotates`): round robin gives each active backend one
turn (`rr_rotates`), weighted round robin gives each eligible backend as many packets in a
row as its weight (`wrr_rotates`). For this, the scans must never fail, that is, they must
not meet too many backends in a row that they skip.

The run may have any packets. Those of other services and those of live sessions leave the
cursors; every other packet of the service is a selection (`selections`).
-/

namespace L4Balancer

open Bpf Scan Rotation

variable {cpus : ℕ} {m : Maps cpus} {info : ServiceInfo} {key : ServiceKey}
  {backends : ArrayMap Backend 1024} {i k q : ℕ}

/-- The selections for a key in a run: what its packets that reach the `switch` over the algorithm
    get, with the index that the `switch` has found. -/
def selections (key : ServiceKey) (m : Maps cpus) (cs : List (Call cpus)) :
    List (Option Backend × Option UInt32) :=
  ((finder cpus).trace m cs).filterMap fun x =>
    if x.2.key = key ∧ (x.2.reaches x.1).isSome then
      some ((finder cpus).out x.2 x.1, (x.2.select x.1).map Prod.snd)
    else none

/-- The weights of the positions of a block. -/
def ServiceInfo.weights (info : ServiceInfo) (backends : ArrayMap Backend 1024)
    (weight : Backend → ℕ) (k : ℕ) : ℕ :=
  (backends.lookup (info.backendStartIdx.toNat + k % info.backendCount.toNat)).elim 0 weight

/-- Round robin gives every active backend one selection. -/
def Backend.rrWeight (b : Backend) : ℕ := if b.active ≠ 0 then 1 else 0

/-- Weighted round robin gives every eligible backend as many as its weight. -/
def Backend.wrrWeight (b : Backend) : ℕ := if b.eligible then b.weight.toNat else 0

/-- All selections succeed, and their positions in the block are a rotation. -/
def Rotates (info : ServiceInfo) (backends : ArrayMap Backend 1024) (weight : Backend → ℕ)
    (sels : List (Option Backend × Option UInt32)) : Prop :=
  ∃ pos, Rotation info.backendCount.toNat (info.weights backends weight) pos ∧
    ∀ j r, sels[j]? = some r → ∃ b idx, r = (some b, some idx) ∧
      idx.toNat = info.backendStartIdx.toNat + pos j ∧ backends.lookup idx.toNat = some b

/-! ## Weights and scans -/

section Weights

variable {weight : Backend → ℕ} {p : Backend → Bool} {w : ℕ}

theorem ServiceInfo.weights_periodic :
    (info.weights backends weight).Periodic info.backendCount.toNat := fun k => by
  rw [weights, weights, Nat.add_mod_right]

/-- The hits of a scan are the positions with a weight. -/
theorem ServiceInfo.weights_pos_iff (hp : ∀ b, 0 < weight b ↔ p b) :
    0 < info.weights backends weight k ↔ info.hits backends p info.backendCount.toNat k := by
  rw [weights, hits]
  cases backends.lookup (info.backendStartIdx.toNat + k % info.backendCount.toNat) with
  | none => exact iff_of_false (lt_irrefl 0) Bool.false_ne_true
  | some b => exact hp b

/-- A scan passes turns without weight. -/
theorem before_of_first (hp : ∀ b, 0 < weight b ↔ p b)
    (h : first (info.hits backends p info.backendCount.toNat) w k = some q) :
    before (info.weights backends weight) q = before (info.weights backends weight) k ∧
      0 < info.weights backends weight q := by
  obtain ⟨hle, -, hhit, hnone⟩ := first_spec h
  refine ⟨before_eq hle fun e he hlt => ?_, (ServiceInfo.weights_pos_iff hp).2 hhit⟩
  by_contra hpos
  have hhit' := (ServiceInfo.weights_pos_iff hp).1 (Nat.pos_of_ne_zero hpos)
  rw [hnone e he hlt] at hhit'
  cases hhit'

theorem before_pos (hp : ∀ b, 0 < weight b ↔ p b) (hc : info.backendCount ≠ 0)
    (hscan : ∀ k, (first (info.hits backends p info.backendCount.toNat) w k).isSome) :
    0 < before (info.weights backends weight) info.backendCount.toNat := by
  obtain ⟨d, -, hhit⟩ := first_isSome.1 (hscan 0)
  have hpos := (ServiceInfo.weights_pos_iff hp).2 hhit
  rw [Nat.zero_add, ← ServiceInfo.weights_periodic.map_mod_nat] at hpos
  have hn : 0 < info.backendCount.toNat := UInt32.pos_iff_ne_zero.2 hc
  have hlt := Nat.mod_lt d hn
  have hmono := before_mono (info.weights backends weight) (Nat.succ_le_of_lt hlt)
  rw [Nat.succ_eq_add_one, before_succ] at hmono
  omega

end Weights

theorem Backend.rrWeight_pos (b : Backend) : 0 < b.rrWeight ↔ decide (b.active ≠ 0) := by
  rw [rrWeight, decide_eq_true_iff]
  split_ifs with h
  · exact iff_of_true Nat.one_pos h
  · exact iff_of_false (lt_irrefl 0) h

theorem ServiceInfo.rrWeight_eq_one (h : 0 < info.weights backends Backend.rrWeight k) :
    info.weights backends Backend.rrWeight k = 1 := by
  rw [weights] at h ⊢
  cases hb : backends.lookup (info.backendStartIdx.toNat + k % info.backendCount.toNat) with
  | none =>
    rw [hb] at h
    cases h
  | some b =>
    rw [hb] at h
    exact if_pos (of_decide_eq_true (b.rrWeight_pos.1 h))

theorem Backend.wrrWeight_pos (b : Backend) : 0 < b.wrrWeight ↔ b.eligible := by
  rw [wrrWeight]
  split_ifs with h
  · have hw := (of_decide_eq_true h).2
    exact iff_of_true (UInt8.lt_iff_toNat_lt.1 hw) h
  · exact iff_of_false (lt_irrefl 0) h

/-! ## Runs -/

/-- If every selection is the next pick and leads to the one behind it, and the other packets do
    not matter, the selections of a run are the picks in a row. -/
theorem selections_spec {wt : ℕ → ℕ} {n : ℕ} {At : Maps cpus → ℕ → Prop}
    (hselect : ∀ m i c, At m i → c.key = key → (c.reaches m).isSome →
      (∃ b idx, (finder cpus).out c m = some b ∧ c.select m = some (b, idx) ∧
        idx.toNat = info.backendStartIdx.toNat + turn wt i % n ∧
        backends.lookup idx.toNat = some b) ∧ At ((finder cpus).next c m) (i + 1))
    (hother : ∀ m i c, At m i → ¬(c.key = key ∧ (c.reaches m).isSome) →
      At ((finder cpus).next c m) i)
    (h : At m i) (cs : List (Call cpus)) {j : ℕ} {r : Option Backend × Option UInt32}
    (hr : (selections key m cs)[j]? = some r) : ∃ b idx, r = (some b, some idx) ∧
      idx.toNat = info.backendStartIdx.toNat + turn wt (i + j) % n ∧
      backends.lookup idx.toNat = some b := by
  induction cs generalizing m i j with
  | nil => cases hr
  | cons c cs ih =>
    rw [selections, Machine.trace, List.filterMap_cons] at hr
    by_cases hc : c.key = key ∧ (c.reaches m).isSome
    · obtain ⟨hpick, hnext⟩ := hselect m i c h hc.1 hc.2
      rw [if_pos hc] at hr
      cases j with
      | zero =>
        obtain ⟨b, idx, hout, hselect, hidx⟩ := hpick
        obtain rfl := Option.some.inj hr
        exact ⟨b, idx, by rw [hout, hselect, Option.map_some], hidx⟩
      | succ j =>
        have := ih hnext hr
        rwa [Nat.add_right_comm] at this
    · rw [if_neg hc] at hr
      exact ih (hother m i c h hc) hr

/-- The tables that packets read stay what they are. -/
structure Serves (info : ServiceInfo) (backends : ArrayMap Backend 1024) (key : ServiceKey)
    (m : Maps cpus) : Prop where
  service : m.activeServices.lookup key = some info
  backends_eq : m.activeBackends = backends

theorem Serves.next (h : Serves info backends key m) (c : Call cpus) :
    Serves info backends key ((finder cpus).next c m) :=
  ⟨(Maps.activeServices_congr (tables_finder c m)).symm ▸ h.service,
    (Maps.activeBackends_congr (tables_finder c m)).trans h.backends_eq⟩

/-- A packet that is no selection for the key leaves its cursors. -/
theorem cursors_of_not_selection {c : Call cpus} (hc : ¬(c.key = key ∧ (c.reaches m).isSome)) :
    ((finder cpus).next c m).rrIndex.lookup key = m.rrIndex.lookup key ∧
      ((finder cpus).next c m).wrrStateMap.lookup key = m.wrrStateMap.lookup key := by
  by_cases hkey : c.key = key
  · have hnone : c.reaches m = none := by
      rw [← Option.not_isSome_iff_eq_none]
      exact fun hsome => hc ⟨hkey, hsome⟩
    obtain ⟨hrr, hwrr⟩ := Call.cursors_of_reaches_none hnone
    rw [hrr, hwrr]
    exact ⟨rfl, rfl⟩
  · exact cursors_next c fun he => absurd he.symm hkey

/-! ## Round robin -/

/-- The next selection of round robin is the pick `i`. -/
structure RrAt (info : ServiceInfo) (backends : ArrayMap Backend 1024) (key : ServiceKey)
    (m : Maps cpus) (i : ℕ) : Prop where
  serves : Serves info backends key m
  cursor : ∃ cur k, m.rrIndex.lookup key = some cur ∧
    (info.rrNext cur).toNat = k % info.backendCount.toNat ∧
    before (info.weights backends Backend.rrWeight) k = i

theorem RrAt.other (h : RrAt info backends key m i) {c : Call cpus}
    (hc : ¬(c.key = key ∧ (c.reaches m).isSome)) :
    RrAt info backends key ((finder cpus).next c m) i where
  serves := h.serves.next c
  cursor := by
    rw [(cursors_of_not_selection hc).1]
    exact h.cursor

theorem ServiceInfo.span_eq (hc : info.backendCount ≠ 0) : info.span = info.backendCount.toNat :=
  max_eq_right (UInt32.pos_iff_ne_zero.2 hc)

theorem RrAt.select (h : RrAt info backends key m i) (hrr : info.algorithm = BALANCER_RR)
    (hfits : info.Fits) (hc : info.backendCount ≠ 0)
    (hscan : ∀ k, (first (info.hits backends (·.active ≠ 0) info.backendCount.toNat) 4 k).isSome)
    {c : Call cpus} (hkey : c.key = key) (hreaches : (c.reaches m).isSome) :
    (∃ b idx, (finder cpus).out c m = some b ∧ c.select m = some (b, idx) ∧
      idx.toNat = info.backendStartIdx.toNat +
        turn (info.weights backends Backend.rrWeight) i % info.backendCount.toNat ∧
      backends.lookup idx.toNat = some b) ∧
    RrAt info backends key ((finder cpus).next c m) (i + 1) := by
  subst hkey
  obtain ⟨cur, k, hcur, hk, hi⟩ := h.cursor
  obtain ⟨⟨info', last, m₁⟩, hr⟩ := Option.isSome_iff_exists.1 hreaches
  obtain rfl := Option.some.inj (h.serves.service.symm.trans (Call.reaches_spec hr).1)
  have hcur₁ : m₁.rrIndex.lookup c.key = some cur := by rw [(Call.reaches_cursors hr).1, hcur]
  obtain ⟨hselect, hout, hnext, -⟩ := Call.next_of_reaches hr
    (rrBalancerHandle m.activeBackends info c.key) (fun tc he => by subst he; exact if_pos hrr)
    (fun uc he => by subst he; exact if_pos hrr)
  rw [h.serves.backends_eq] at hselect hnext
  obtain ⟨q, hq⟩ := Option.isSome_iff_exists.1 (hscan k)
  obtain ⟨hbefore, hpos⟩ := before_of_first Backend.rrWeight_pos hq
  rw [← ServiceInfo.span_eq hc] at hk hq
  obtain ⟨b, idx, m', hloop, hidx, hb, cur', hcur', hk'⟩ :=
    (@rr_selectLoop cpus backends info c.key last m₁ hfits cur hcur₁ k hk 4).2 q hq
  have hone := ServiceInfo.rrWeight_eq_one hpos
  have hturn : turn (info.weights backends Backend.rrWeight) i = q := by
    refine turn_eq ?_ ?_
    · rw [hbefore, hi]
    · rw [before_succ, hbefore, hi, hone]
      exact Nat.lt_succ_self i
  rw [ServiceInfo.span_eq hc] at hidx hk'
  rw [hloop] at hselect hnext
  refine ⟨⟨b, idx, hout.trans (congrArg _ hselect), hselect, by rw [hturn, hidx], hb⟩,
    h.serves.next c, cur', q + 1, ?_, hk', ?_⟩
  · rw [hnext]
    exact hcur'
  · rw [before_succ, hbefore, hi, hone]

/-- Round robin rotates. From any cursor of the block, if no four positions in a row of the circle
    are without an active backend, then in every run of packets all selections succeed and go round
    the active backends in the order of the block, each being selected once in every window of as
    many selections as there are active backends. -/
theorem rr_rotates (hinfo : m.activeServices.lookup key = some info)
    (hrr : info.algorithm = BALANCER_RR) (hfits : info.Fits) {cur : UInt32}
    (hcur : m.rrIndex.lookup key = some cur) (hlt : cur < info.backendCount)
    (hscan : ∀ k, ∃ d < 4,
      info.hits m.activeBackends (·.active ≠ 0) info.backendCount.toNat (k + d))
    (cs : List (Call cpus)) :
    Rotates info m.activeBackends Backend.rrWeight (selections key m cs) := by
  have hc : info.backendCount ≠ 0 := fun h => by
    rw [h] at hlt
    exact absurd hlt (UInt32.not_lt_zero)
  have hscan := fun k => first_isSome.2 (hscan k)
  have hW := before_pos Backend.rrWeight_pos hc hscan
  have hnext := info.rrNext_lt cur
  rw [ServiceInfo.span_eq hc] at hnext
  have hat : RrAt info m.activeBackends key m
      (before (info.weights m.activeBackends Backend.rrWeight) (info.rrNext cur).toNat) :=
    ⟨⟨hinfo, rfl⟩, cur, _, hcur, (Nat.mod_eq_of_lt hnext).symm, rfl⟩
  exact ⟨_, of_turn ServiceInfo.weights_periodic hW _, fun j r hr => selections_spec
    (fun _ _ _ h => h.select hrr hfits hc hscan) (fun _ _ _ h => h.other) hat cs hr⟩

/-- Both backends of the small service are active. -/
theorem demo_hits (algorithm : UInt8) {p : Backend → Bool} (h0 : p (demoBackend 0))
    (h1 : p (demoBackend 1)) (k : ℕ) :
    (⟨2, 0, algorithm, 0⟩ : ServiceInfo).hits (demoMaps algorithm).activeBackends p 2 k := by
  rw [ServiceInfo.hits]
  rcases Nat.mod_two_eq_zero_or_one k with hk | hk <;> rw [hk]
  · exact h0
  · exact h1

/-- Three SYNs to two backends. -/
theorem rr_rotates_two :
    Rotates ⟨2, 0, BALANCER_RR, 0⟩ (demoMaps BALANCER_RR).activeBackends Backend.rrWeight
      (selections demoKey (demoMaps BALANCER_RR)
        [.tcp (demoCall 0 1 true), .tcp (demoCall 1 2 true), .tcp (demoCall 2 3 true)]) :=
  @rr_rotates 1 (demoMaps BALANCER_RR) ⟨2, 0, BALANCER_RR, 0⟩ demoKey rfl rfl
    (by decide : 0 + 2 ≤ 1024) 0 rfl (by decide)
    (fun k => ⟨0, by decide, demo_hits BALANCER_RR (by decide) (by decide) k⟩) _

/-! ## Weighted round robin -/

/-- The next selection of weighted round robin is the pick `i`. -/
structure WrrAt (info : ServiceInfo) (backends : ArrayMap Backend 1024) (key : ServiceKey)
    (m : Maps cpus) (i : ℕ) : Prop where
  serves : Serves info backends key m
  room : (m.wrrStateMap.lookup key).isSome ∨ m.KnownStates
  state : ∃ k, (m.wrrAt key).AtPosition info k ∧
    before (info.weights backends Backend.wrrWeight) k +
      (m.wrrAt key).currentWeightCounter.toNat = i ∧
    ((m.wrrAt key).currentWeightCounter.toNat = 0 ∨
      (m.wrrAt key).currentWeightCounter.toNat < info.weights backends Backend.wrrWeight k)

theorem WrrAt.other (h : WrrAt info backends key m i) {c : Call cpus}
    (hc : ¬(c.key = key ∧ (c.reaches m).isSome)) :
    WrrAt info backends key ((finder cpus).next c m) i where
  serves := h.serves.next c
  room := by
    rw [(cursors_of_not_selection hc).2]
    exact h.room.imp_right fun hk => hk.next c
  state := by
    rw [Maps.wrrAt, (cursors_of_not_selection hc).2]
    exact h.state

/-- What the choice of a backend at the position `q` leaves is the next pick. -/
theorem WrrState.take_at (hfits : info.Fits) (hc : info.backendCount ≠ 0) {b : Backend}
    (hb : backends.lookup (info.backendStartIdx.toNat + q % info.backendCount.toNat) = some b)
    (hb' : b.eligible) {st : WrrState} (hst : st.AtPosition info q)
    (hi : before (info.weights backends Backend.wrrWeight) q + st.currentWeightCounter.toNat = i)
    (hlt : st.currentWeightCounter.toNat < b.weight.toNat) :
    ∃ k, (st.take info b).AtPosition info k ∧
      before (info.weights backends Backend.wrrWeight) k +
        (st.take info b).currentWeightCounter.toNat = i + 1 ∧
      ((st.take info b).currentWeightCounter.toNat = 0 ∨
        (st.take info b).currentWeightCounter.toNat <
          info.weights backends Backend.wrrWeight k) := by
  have hweight : info.weights backends Backend.wrrWeight q = b.weight.toNat := by
    rw [ServiceInfo.weights, hb]
    exact if_pos hb'
  have hsucc : (st.currentWeightCounter + 1).toNat = st.currentWeightCounter.toNat + 1 := by
    have hbyte := b.weight.toNat_lt
    rw [UInt32.toNat_add, UInt32.toNat_one]
    exact Nat.mod_eq_of_lt (by omega)
  have hmore : st.currentWeightCounter + 1 < b.weight.toUInt32 ↔
      st.currentWeightCounter.toNat + 1 < b.weight.toNat := by
    rw [UInt32.lt_iff_toNat_lt, hsucc, UInt8.toNat_toUInt32]
  rw [take]
  split_ifs with h
  · rw [hmore] at h
    refine ⟨q, hst, ?_, .inr ?_⟩
    · dsimp only
      rw [hsucc, ← hi, Nat.add_assoc]
    · dsimp only
      rw [hsucc, hweight]
      exact h
  · rw [hmore] at h
    refine ⟨q + 1, WrrState.toNat_advance hfits hc hst, ?_, .inl rfl⟩
    have hzero : (st.advance info).currentWeightCounter.toNat = 0 := rfl
    rw [hzero, before_succ, hweight]
    omega

theorem WrrAt.select (h : WrrAt info backends key m i) (hwrr : info.algorithm = BALANCER_WRR)
    (hfits : info.Fits) (hc : info.backendCount ≠ 0)
    (hscan : ∀ k, (first (info.hits backends Backend.eligible info.backendCount.toNat)
      info.wrrWindow k).isSome)
    {c : Call cpus} (hkey : c.key = key) (hreaches : (c.reaches m).isSome) :
    (∃ b idx, (finder cpus).out c m = some b ∧ c.select m = some (b, idx) ∧
      idx.toNat = info.backendStartIdx.toNat +
        turn (info.weights backends Backend.wrrWeight) i % info.backendCount.toNat ∧
      backends.lookup idx.toNat = some b) ∧
    WrrAt info backends key ((finder cpus).next c m) (i + 1) := by
  subst hkey
  have hn : 0 < info.backendCount.toNat := UInt32.pos_iff_ne_zero.2 hc
  have hne : info.algorithm ≠ BALANCER_RR := by rw [hwrr]; decide
  obtain ⟨k, hk, hi, hcount⟩ := h.state
  obtain ⟨⟨info', last, m₁⟩, hr⟩ := Option.isSome_iff_exists.1 hreaches
  obtain rfl := Option.some.inj (h.serves.service.symm.trans (Call.reaches_spec hr).1)
  obtain ⟨hselect, hout, -, hnext⟩ := Call.next_of_reaches hr
    (wrrBalancerHandle m.activeBackends info c.key)
    (fun tc he => by subst he; exact (if_neg hne).trans (if_pos hwrr))
    (fun uc he => by subst he; exact (if_neg hne).trans (if_pos hwrr))
  rw [h.serves.backends_eq] at hselect hnext
  -- the loop makes one search, from the state before the packet
  have hstate : m₁.wrrStateMap = m.wrrStateMap := (Call.reaches_cursors hr).2
  have hroom : m₁.wrrStateMap.HasRoom c.key := by
    rw [hstate]
    exact h.room.elim .inl fun hknown => hknown.hasRoom h.serves.service
  obtain ⟨hloop, hleft⟩ := @wrr_selectLoop_eq cpus backends info c.key last m₁ hroom
  have hat : m₁.wrrAt c.key = m.wrrAt c.key := by rw [Maps.wrrAt, Maps.wrrAt, hstate]
  rw [← chosen, ← hselect, hat] at hloop
  rw [← hnext, hat] at hleft
  obtain ⟨q, hq⟩ := Option.isSome_iff_exists.1 (hscan k)
  obtain ⟨hbefore, hpos⟩ := before_of_first Backend.wrrWeight_pos hq
  obtain ⟨-, hsearch⟩ := wrrSearch_scan hfits hc le_rfl hk
  obtain ⟨b, hb, hsearch⟩ := hsearch q hq
  rw [hsearch] at hloop hleft
  have hhit : b.eligible := by
    have hhit := (first_spec hq).2.2.1
    rwa [ServiceInfo.hits, hb, Option.any_some] at hhit
  have hweight : info.weights backends Backend.wrrWeight q = b.weight.toNat := by
    rw [ServiceInfo.weights, hb]
    exact if_pos hhit
  have hmod := Nat.mod_lt q hn
  have hpos' : (UInt32.ofNat (q % info.backendCount.toNat)).toNat = q % info.backendCount.toNat :=
    UInt32.toNat_ofNat_of_lt' (hmod.trans_le (hfits.count_le.trans (by decide)))
  -- the counter goes on at the position of the last choice only
  obtain ⟨x, hx, hxi, hxlt⟩ : ∃ x : UInt32,
      (if q = k then (m.wrrAt c.key).currentWeightCounter else 0) = x ∧
      before (info.weights backends Backend.wrrWeight) q + x.toNat = i ∧
      x.toNat < b.weight.toNat := by
    refine ⟨_, rfl, ?_⟩
    rw [hbefore, ← hweight]
    by_cases hqk : q = k
    · subst hqk
      rw [if_pos rfl]
      exact ⟨hi, by omega⟩
    · have hnone := (first_spec hq).2.2.2 k le_rfl (by have := (first_spec hq).1; omega)
      have hzero : info.weights backends Backend.wrrWeight k = 0 := by
        by_contra hne
        have hhit := (ServiceInfo.weights_pos_iff Backend.wrrWeight_pos).1 (Nat.pos_of_ne_zero hne)
        rw [hnone] at hhit
        cases hhit
      rw [if_neg hqk, UInt32.toNat_zero]
      exact ⟨by omega, hpos⟩
  rw [hx] at hleft
  have hturn : turn (info.weights backends Backend.wrrWeight) i = q := by
    refine turn_eq ?_ ?_
    · omega
    · rw [before_succ, hweight]
      omega
  have hidx : (info.backendStartIdx + .ofNat (q % info.backendCount.toNat)).toNat =
      info.backendStartIdx.toNat + q % info.backendCount.toNat := by
    rw [hfits.toNat_add (by rwa [hpos', ServiceInfo.span_eq hc]), hpos']
  have hnext' : ((finder cpus).next c m).wrrAt c.key =
      WrrState.take ⟨.ofNat (q % info.backendCount.toNat), x⟩ info b := by
    rw [Maps.wrrAt, hleft, Option.getD_some]
  refine ⟨⟨b, _, hout.trans (congrArg _ hloop), hloop, by rw [hturn, hidx], by rw [hidx, hb]⟩,
    h.serves.next c, .inl (Option.isSome_of_eq_some hleft), ?_⟩
  rw [hnext']
  exact WrrState.take_at hfits hc hb hhit hpos' hxi hxlt

/-- Weighted round robin rotates. From a fresh state, if no 32 positions in a row of the circle are
    without an active backend with a weight, then in every run of packets all selections succeed and
    go round these backends in the order of the block, each being selected as often in a row as its
    weight, and so in every window of as many selections as the sum of the weights. -/
theorem wrr_rotates (hinfo : m.activeServices.lookup key = some info)
    (hwrr : info.algorithm = BALANCER_WRR) (hfits : info.Fits) (hc : info.backendCount ≠ 0)
    (hfresh : m.wrrStateMap.lookup key = some ⟨0, 0⟩ ∨ m.wrrStateMap = .empty)
    (hscan : ∀ k, ∃ d < 32,
      info.hits m.activeBackends Backend.eligible info.backendCount.toNat (k + d))
    (cs : List (Call cpus)) :
    Rotates info m.activeBackends Backend.wrrWeight (selections key m cs) := by
  have hn : 0 < info.backendCount.toNat := UInt32.pos_iff_ne_zero.2 hc
  have hscan : ∀ k, (first (info.hits m.activeBackends Backend.eligible info.backendCount.toNat)
      info.wrrWindow k).isSome := fun k =>
    (isSome_min_iff (ServiceInfo.hits_periodic _) hn (by omega)).2 (first_isSome.2 (hscan k))
  have hW := before_pos Backend.wrrWeight_pos hc hscan
  have hzero : m.wrrAt key = ⟨0, 0⟩ := by
    rw [Maps.wrrAt]
    rcases hfresh with h | h <;> rw [h] <;> rfl
  have hat : WrrAt info m.activeBackends key m
      (before (info.weights m.activeBackends Backend.wrrWeight) 0) := by
    refine ⟨⟨hinfo, rfl⟩, hfresh.imp Option.isSome_of_eq_some Maps.knownStates_empty, 0, ?_⟩
    rw [hzero]
    exact ⟨(Nat.zero_mod _).symm, rfl, .inl rfl⟩
  exact ⟨_, of_turn ServiceInfo.weights_periodic hW 0, fun j r hr => selections_spec
    (fun _ _ _ h => h.select hwrr hfits hc hscan) (fun _ _ _ h => h.other) hat cs hr⟩

theorem wrr_rotates_two :
    Rotates ⟨2, 0, BALANCER_WRR, 0⟩ (demoMaps BALANCER_WRR).activeBackends Backend.wrrWeight
      (selections demoKey (demoMaps BALANCER_WRR)
        [.tcp (demoCall 0 1 true), .tcp (demoCall 1 2 true), .tcp (demoCall 2 3 true)]) :=
  @wrr_rotates 1 (demoMaps BALANCER_WRR) ⟨2, 0, BALANCER_WRR, 0⟩ demoKey rfl rfl
    (by decide : 0 + 2 ≤ 1024) (by decide) (.inr rfl)
    (fun k => ⟨0, by decide, demo_hits BALANCER_WRR (by decide) (by decide) k⟩) _

end L4Balancer
