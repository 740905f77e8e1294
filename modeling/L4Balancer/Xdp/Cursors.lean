import L4Balancer.Xdp.Session

/-!
# The cursors of round robin

Round robin and weighted round robin return an index that is the start of the block
of the service plus a cursor. It is an index of the block (`ServiceInfo.Holds`) if

* for round robin, the block is not empty: the cursor is put back to the start at
  its end, but only after it has been moved;
* for weighted round robin, the cursor was one of the block before (`WrrState.Within`);
  then it stays one.

`loopCalls` are the calls a packet makes of a handler. `Cursors` is the invariant of
runs of packets.
-/

namespace L4Balancer

open Bpf

variable {cpus : ℕ} {backends : ArrayMap Backend 1024} {info : ServiceInfo} {key : ServiceKey}

/-- The index is one of the block of the service. -/
def ServiceInfo.Holds (info : ServiceInfo) (idx : UInt32) : Prop :=
  info.backendStartIdx.toNat ≤ idx.toNat ∧
    idx.toNat < info.backendStartIdx.toNat + info.backendCount.toNat

instance (idx : UInt32) : Decidable (info.Holds idx) := inferInstanceAs (Decidable (_ ∧ _))

/-- The block lies in the backends map. -/
def ServiceInfo.Fits (info : ServiceInfo) : Prop :=
  info.backendStartIdx.toNat + info.backendCount.toNat ≤ 1024

theorem ServiceInfo.Fits.holds_add (h : info.Fits) {n : UInt32}
    (hn : n.toNat < info.backendCount.toNat) : info.Holds (info.backendStartIdx + n) := by
  have hadd : (info.backendStartIdx + n).toNat = info.backendStartIdx.toNat + n.toNat := by
    rw [UInt32.toNat_add]
    exact Nat.mod_eq_of_lt (by rw [Fits] at h; omega)
  rw [Holds, hadd]
  omega

/-! ## Round robin -/

/-- The index of round robin is one of the block, or the start of an empty block. -/
theorem rrBalancerHandle_holds (hfits : info.Fits) {last idx : UInt32} {m m' : Maps cpus}
    {b : Backend} (h : rrBalancerHandle backends info key last m = (some b, idx, m')) :
    info.Holds idx ∨ info.backendCount = 0 ∧ idx = info.backendStartIdx := by
  rw [rrBalancerHandle] at h
  split at h
  · simp at h
  · rename_i cur _
    obtain ⟨-, rfl, -⟩ := by simpa only [Prod.mk.injEq] using h
    by_cases hc : info.backendCount = 0
    · exact .inr ⟨hc, by simp [hc]⟩
    · have hpos : 0 < info.backendCount.toNat := UInt32.pos_iff_ne_zero.2 hc
      refine .inl (hfits.holds_add ?_)
      split_ifs with hge
      · exact hpos
      · exact UInt32.not_le.1 hge

/-- An empty block gets what is at its start. -/
theorem rrBalancerHandle_empty (hc : info.backendCount = 0) {m : Maps cpus}
    (hcur : (m.rrIndex.lookup key).isSome) (last : UInt32) :
    (rrBalancerHandle backends info key last m).1 =
        backends.lookup info.backendStartIdx.toNat ∧
      (rrBalancerHandle backends info key last m).2.1 = info.backendStartIdx := by
  obtain ⟨cur, hcur⟩ := Option.isSome_iff_exists.1 hcur
  rw [rrBalancerHandle, hcur, hc]
  simp

/-! ## Weighted round robin -/

/-- The cursor is one of the block, unless the block is empty. -/
def WrrState.Within (st : WrrState) (info : ServiceInfo) : Prop :=
  info.backendCount = 0 ∨ st.currentIndex.toNat < info.backendCount.toNat

instance (st : WrrState) : Decidable (st.Within info) := inferInstanceAs (Decidable (_ ∨ _))

theorem WrrState.Within.lt {st : WrrState} (h : st.Within info) (hc : info.backendCount ≠ 0) :
    st.currentIndex.toNat < info.backendCount.toNat :=
  h.resolve_left hc

/-- A new cursor. -/
theorem WrrState.zero_within (info : ServiceInfo) : (⟨0, 0⟩ : WrrState).Within info :=
  or_iff_not_imp_left.2 fun hc => UInt32.pos_iff_ne_zero.2 hc

theorem WrrState.advance_within (st : WrrState) (hc : info.backendCount ≠ 0) :
    (st.advance info).Within info := by
  refine .inr ?_
  rw [advance, UInt32.toNat_mod]
  exact Nat.mod_lt _ (UInt32.pos_iff_ne_zero.2 hc)

/-- The search keeps the cursor in the block, and the index it returns is one of the block. -/
theorem wrrSearch_spec {left : ℕ} {st st' : WrrState} {r : Option (Backend × UInt32)}
    (hleft : left ≤ 32) (hst : st.Within info) (h : wrrSearch backends info left st = (r, st')) :
    st'.Within info ∧ ∀ b idx, r = some (b, idx) → info.Fits → info.Holds idx := by
  induction left generalizing st with
  | zero =>
    obtain ⟨rfl, rfl⟩ := Prod.mk.inj h
    exact ⟨hst, by simp⟩
  | succ left ih =>
    rw [wrrSearch] at h
    dsimp only at h
    split_ifs at h with hstop
    · obtain ⟨rfl, rfl⟩ := Prod.mk.inj h
      exact ⟨hst, by simp⟩
    · have hc : info.backendCount ≠ 0 := by
        rintro hc
        apply hstop
        rw [hc]
        change (31 - left : ℤ) ≥ 0
        omega
      have hadvance := st.advance_within hc
      split at h
      · exact ih (by omega) hadvance h
      · split_ifs at h with he hw
        · obtain ⟨rfl, rfl⟩ := Prod.mk.inj h
          refine ⟨hst, fun b idx hb hfits => ?_⟩
          obtain ⟨-, rfl⟩ := Prod.mk.inj (Option.some.inj hb)
          exact hfits.holds_add (hst.lt hc)
        · obtain ⟨rfl, rfl⟩ := Prod.mk.inj h
          refine ⟨hadvance, fun b idx hb hfits => ?_⟩
          obtain ⟨-, rfl⟩ := Prod.mk.inj (Option.some.inj hb)
          exact hfits.holds_add (hst.lt hc)
        · exact ih (by omega) hadvance h

/-! ## Loops -/

/-- The calls of the handler that `selectLoop` makes, with what they return. -/
def loopCalls (handle : UInt32 → Maps cpus → Option Backend × UInt32 × Maps cpus) :
    ℕ → UInt32 → Maps cpus → List (Option Backend × UInt32)
  | 0, _, _ => []
  | left + 1, lastIndex, m =>
    match handle lastIndex m with
    | (backend, lastIndex, m) =>
      (backend, lastIndex) ::
        if left = 0 then []
        else
          match backend with
          | none => []
          | some b => if b.active = 0 then loopCalls handle left lastIndex m else []

section Loop

variable {handle : UInt32 → Maps cpus → Option Backend × UInt32 × Maps cpus} {left : ℕ}
  {last idx : UInt32} {m m' : Maps cpus} {b : Backend}

/-- The backend of the loop is one that a call has returned. -/
theorem mem_loopCalls (h : selectLoop handle left last m = (some b, idx, m')) :
    (some b, idx) ∈ loopCalls handle left last m := by
  induction left generalizing last m with
  | zero => simp [selectLoop] at h
  | succ left ih =>
    rw [selectLoop] at h
    rw [loopCalls]
    rcases hh : handle last m with ⟨back, last₁, m₁⟩
    rw [hh] at h
    dsimp only at h ⊢
    split_ifs at h with hleft
    · simp at h
    · rw [if_neg hleft]
      cases back with
      | none => simp at h
      | some b₁ =>
        dsimp only at h ⊢
        split_ifs at h ⊢ with hact
        · exact List.mem_cons_of_mem _ (ih h)
        · obtain ⟨rfl, rfl, -⟩ := by simpa only [Prod.mk.injEq, Option.some.injEq] using h
          exact List.mem_cons_self

/-- What the handler keeps, the loop keeps; what holds of each backend the handler returns holds of
    those of all the calls. -/
theorem loop_induct {P : Maps cpus → Prop} {Q : Backend → UInt32 → Prop}
    (h : ∀ last m b idx m', P m → handle last m = (b, idx, m') →
      P m' ∧ ∀ b', b = some b' → Q b' idx) (hm : P m) :
    P (selectLoop handle left last m).2.2 ∧
      ∀ r ∈ loopCalls handle left last m, ∀ b, r.1 = some b → Q b r.2 := by
  induction left generalizing last m with
  | zero => exact ⟨hm, by simp [loopCalls]⟩
  | succ left ih =>
    rw [selectLoop, loopCalls]
    rcases hh : handle last m with ⟨back, last₁, m₁⟩
    obtain ⟨hm₁, hQ⟩ := h _ _ _ _ _ hm hh
    dsimp only
    split_ifs with hleft
    · exact ⟨hm₁, by simpa using hQ⟩
    · cases back with
      | none => exact ⟨hm₁, by simp⟩
      | some b₁ =>
        dsimp only
        split_ifs with hact
        · obtain ⟨hP, hcalls⟩ := @ih last₁ _ hm₁
          exact ⟨hP, List.forall_mem_cons.2 ⟨hQ, hcalls⟩⟩
        · exact ⟨hm₁, by simpa using hQ⟩

end Loop

/-- The calls of `rr_balancer_handle` and `wrr_balancer_handle` for a packet. -/
def handlerCalls (backends : ArrayMap Backend 1024) (info : ServiceInfo) (key : ServiceKey)
    (lastIndex : UInt32) (m : Maps cpus) : List (Option Backend × UInt32) :=
  if info.algorithm = BALANCER_RR then loopCalls (rrBalancerHandle backends info key) 5 lastIndex m
  else if info.algorithm = BALANCER_WRR then
    loopCalls (wrrBalancerHandle backends info key) 5 lastIndex m
  else []

/-- What the calls return is the entry at the index they name. -/
theorem handlerCalls_names {last : UInt32} {m : Maps cpus} {r : Option Backend × UInt32}
    {b : Backend} (hr : r ∈ handlerCalls backends info key last m) (hb : r.1 = some b) :
    backends.lookup r.2.toNat = some b := by
  have hloop : ∀ {handle : UInt32 → Maps cpus → Option Backend × UInt32 × Maps cpus},
      Names backends handle → ∀ r ∈ loopCalls handle 5 last m, ∀ b, r.1 = some b →
        backends.lookup r.2.toNat = some b := fun hn =>
    (loop_induct (P := fun _ => True) (Q := fun b idx => backends.lookup idx.toNat = some b)
      (fun _ _ _ _ _ _ hh => ⟨trivial, fun b' hb => hn _ _ b' _ _ (hb ▸ hh)⟩) trivial).2
  rw [handlerCalls] at hr
  split_ifs at hr
  · exact hloop (rrBalancerHandle_names backends info key) r hr b hb
  · exact hloop (wrrBalancerHandle_names backends info key) r hr b hb
  · cases hr

/-- Consistent hash has no cursors. -/
theorem chBalancerHandle_cursors (ctx : Ctx cpus) (key : ServiceKey)
    (keyHash packetLen last : UInt32) (m : Maps cpus) :
    (chBalancerHandle ctx key keyHash packetLen last m).2.2.rrIndex = m.rrIndex ∧
      (chBalancerHandle ctx key keyHash packetLen last m).2.2.wrrStateMap = m.wrrStateMap := by
  have hcount : ∀ i v p, (m.countLookup i v p).rrIndex = m.rrIndex ∧
      (m.countLookup i v p).wrrStateMap = m.wrrStateMap := fun i v p => by
    rw [Maps.countLookup]
    split <;> exact ⟨rfl, rfl⟩
  have hlookup : (consistentHashLookup keyHash false m).2.rrIndex = m.rrIndex ∧
      (consistentHashLookup keyHash false m).2.wrrStateMap = m.wrrStateMap := by
    rw [consistentHashLookup]
    split
    · exact ⟨rfl, rfl⟩
    · split_ifs
      · exact ⟨rfl, rfl⟩
      · dsimp only
        split
        · exact ⟨rfl, rfl⟩
        · split_ifs
          · exact ⟨rfl, rfl⟩
          · exact hcount _ _ _
  rw [chBalancerHandle]
  generalize consistentHashLookup keyHash false m = r at hlookup
  dsimp only
  split_ifs
  · exact hlookup
  · split
    · exact hlookup
    · split_ifs <;> exact hlookup

/-! ## The invariant -/

/-- The services in `keys` have a cursor of round robin, and every cursor of weighted round robin
    is one of the block of the service that `services` has under its key. -/
structure Cursors (keys : List ServiceKey) (services : HashMap ServiceKey ServiceInfo 256)
    (m : Maps cpus) : Prop where
  rr : ∀ key ∈ keys, (m.rrIndex.lookup key).isSome
  wrr : ∀ key info st, services.lookup key = some info → m.wrrStateMap.lookup key = some st →
    st.Within info

namespace Cursors

variable {keys : List ServiceKey} {services : HashMap ServiceKey ServiceInfo 256} {m m' : Maps cpus}

theorem congr (h : Cursors keys services m) (hrr : m'.rrIndex = m.rrIndex)
    (hwrr : m'.wrrStateMap = m.wrrStateMap) : Cursors keys services m' :=
  ⟨by rw [hrr]; exact h.rr, by rw [hwrr]; exact h.wrr⟩

theorem putRr (h : Cursors keys services m) (key : ServiceKey) (v : UInt32) :
    Cursors keys services { m with rrIndex := m.rrIndex.put key v } := by
  refine ⟨fun k hk => ?_, h.wrr⟩
  rcases m.rrIndex.lookup_put_or key k v with hl | ⟨-, hl⟩
  · exact hl ▸ h.rr k hk
  · exact hl ▸ rfl

theorem putWrr (h : Cursors keys services m) {st : WrrState}
    (hst : ∀ info, services.lookup key = some info → st.Within info) :
    Cursors keys services { m with wrrStateMap := m.wrrStateMap.put key st } := by
  refine ⟨h.rr, fun k info st' hinfo hst' => ?_⟩
  rcases m.wrrStateMap.lookup_put_or key k st with hl | ⟨rfl, hl⟩
  · exact h.wrr k info st' hinfo (hl ▸ hst')
  · obtain rfl := Option.some.inj (hl.symm.trans hst')
    exact hst info hinfo

theorem initWrrState (h : Cursors keys services m) (key : ServiceKey) :
    Cursors keys services (m.initWrrState key) := by
  rw [Maps.initWrrState]
  split
  · exact h.putWrr fun info _ => WrrState.zero_within info
  · exact h

/-- The cursor of one service. -/
theorem single (h : ∀ st, m.wrrStateMap.lookup key = some st → st.Within info) :
    Cursors [] (HashMap.empty.put key info) m := by
  refine ⟨by simp, fun k info' st hk hst => ?_⟩
  rcases HashMap.lookup_put_or .empty key k info with hl | ⟨hkey, hl⟩
  · rw [hl] at hk
    cases hk
  · rw [← Option.some.inj (hl.symm.trans hk)]
    exact h st (hkey ▸ hst)

variable {last idx : UInt32} {b : Option Backend}

theorem rrBalancerHandle (h : Cursors keys services m)
    (hh : L4Balancer.rrBalancerHandle backends info key last m = (b, idx, m')) :
    Cursors keys services m' := by
  rw [L4Balancer.rrBalancerHandle] at hh
  split at hh
  · obtain ⟨-, -, rfl⟩ := by simpa only [Prod.mk.injEq] using hh
    exact h
  · obtain ⟨-, -, rfl⟩ := by simpa only [Prod.mk.injEq] using hh
    exact h.putRr _ _

theorem wrrBalancerHandle (h : Cursors keys services m) (hinfo : services.lookup key = some info)
    (hh : L4Balancer.wrrBalancerHandle backends info key last m = (b, idx, m')) :
    Cursors keys services m' ∧ ∀ b', b = some b' → info.Fits → info.Holds idx := by
  have hinit := h.initWrrState key
  rw [L4Balancer.wrrBalancerHandle] at hh
  split at hh
  · obtain ⟨rfl, -, rfl⟩ := by simpa only [Prod.mk.injEq] using hh
    exact ⟨hinit, by simp⟩
  · rename_i st hst
    have hwithin := hinit.wrr key info st hinfo hst
    split at hh
    all_goals
      rename_i hs
      obtain ⟨rfl, rfl, rfl⟩ := by simpa only [Prod.mk.injEq] using hh
      obtain ⟨hst', hholds⟩ := wrrSearch_spec le_rfl hwithin hs
      refine ⟨hinit.putWrr fun info' hinfo' => ?_, ?_⟩
    · rwa [← Option.some.inj (hinfo.symm.trans hinfo')]
    · simp
    · rwa [← Option.some.inj (hinfo.symm.trans hinfo')]
    · exact fun b' _ => hholds _ _ rfl

theorem chBalancerHandle (h : Cursors keys services m) (ctx : Ctx cpus) (key : ServiceKey)
    (keyHash packetLen last : UInt32) :
    Cursors keys services (L4Balancer.chBalancerHandle ctx key keyHash packetLen last m).2.2 :=
  h.congr (chBalancerHandle_cursors ctx key keyHash packetLen last m).1
    (chBalancerHandle_cursors ctx key keyHash packetLen last m).2

/-- The loops of the packets of a service keep the cursors, and return indices of its block or the
    start of its empty block. -/
theorem handlerCalls (h : Cursors keys services m) (hinfo : services.lookup key = some info)
    (hfits : info.Fits) : ∀ r ∈ handlerCalls backends info key last m, ∀ b, r.1 = some b →
      info.Holds r.2 ∨
        info.algorithm = BALANCER_RR ∧ info.backendCount = 0 ∧ r.2 = info.backendStartIdx := by
  rw [L4Balancer.handlerCalls]
  split_ifs with hrr hwrr
  · refine (loop_induct (P := fun _ => True) (Q := fun _ idx => info.Holds idx ∨
      info.algorithm = BALANCER_RR ∧ info.backendCount = 0 ∧ idx = info.backendStartIdx)
      (fun last m b idx m' _ hh => ⟨trivial, fun b' hb => ?_⟩) trivial).2
    rw [hb] at hh
    exact (rrBalancerHandle_holds hfits hh).imp_right fun he => ⟨hrr, he⟩
  · refine (loop_induct (P := Cursors keys services) (Q := fun _ idx => info.Holds idx ∨
      info.algorithm = BALANCER_RR ∧ info.backendCount = 0 ∧ idx = info.backendStartIdx)
      (fun last m b idx m' hm hh => ?_) h).2
    obtain ⟨hm', hholds⟩ := hm.wrrBalancerHandle hinfo hh
    exact ⟨hm', fun b' hb => .inl (hholds b' hb hfits)⟩
  · simp

theorem selectTcp (h : Cursors keys services m) (hinfo : services.lookup key = some info)
    {ctx : Ctx cpus} {stateKey : SessionStateKey} {packetLen : UInt32}
    (hsel : L4Balancer.selectTcp ctx backends info stateKey key packetLen last m = (b, idx, m')) :
    Cursors keys services m' := by
  have hm' : m' = (L4Balancer.selectTcp ctx backends info stateKey key packetLen last m).2.2 := by
    rw [hsel]
  rw [hm', L4Balancer.selectTcp]
  split_ifs
  · exact selectLoop_keeps (fun _ _ hm => hm.rrBalancerHandle rfl) 5 _ m h
  · exact selectLoop_keeps (fun _ _ hm => (hm.wrrBalancerHandle hinfo rfl).1) 5 _ m h
  · exact h.chBalancerHandle ctx key _ packetLen last
  · exact h

theorem selectUdp (h : Cursors keys services m) (hinfo : services.lookup key = some info)
    (hsel : L4Balancer.selectUdp backends info key m = (b, idx, m')) :
    Cursors keys services m' := by
  have hm' : m' = (L4Balancer.selectUdp backends info key m).2.2 := by rw [hsel]
  rw [hm', L4Balancer.selectUdp]
  split_ifs
  · exact selectLoop_keeps (fun _ _ hm => hm.rrBalancerHandle rfl) 5 _ m h
  · exact selectLoop_keeps (fun _ _ hm => (hm.wrrBalancerHandle hinfo rfl).1) 5 _ m h
  · exact h

theorem lookup (h : Cursors keys services m) {c : TcpCall cpus} {state : Option SessionStateVal}
    (hl : Lookup c m state m') : Cursors keys services m' := by
  cases hl with
  | absent => exact h
  | expired | live => exact h.congr rfl rfl

theorem tcpFinder (h : Cursors keys m.activeServices m) (c : TcpCall cpus) :
    Cursors keys m.activeServices ((tcpFinder cpus).next c m) := by
  have hs := TcpStep.of_next c m
  generalize (L4Balancer.tcpFinder cpus).out c m = out at hs
  generalize (L4Balancer.tcpFinder cpus).next c m = m' at hs ⊢
  cases hs with
  | hit => exact h.congr rfl rfl
  | create hl _ hinfo hsel => exact ((h.lookup hl).selectTcp hinfo hsel).congr rfl rfl
  | drop hl _ hsel =>
    rcases hsel with ⟨-, rfl⟩ | ⟨info, idx, hinfo, hsel⟩
    · exact h.lookup hl
    · exact (h.lookup hl).selectTcp hinfo hsel

theorem udpFinder (h : Cursors keys m.activeServices m) (c : UdpCall cpus) :
    Cursors keys m.activeServices ((udpFinder cpus).next c m) := by
  have hs := UdpStep.of_next c m
  generalize (L4Balancer.udpFinder cpus).out c m = out at hs
  generalize (L4Balancer.udpFinder cpus).next c m = m' at hs ⊢
  cases hs with
  | unmatched => exact h
  | drop hinfo hsel => exact h.selectUdp hinfo hsel
  | forward hinfo hsel => exact (h.selectUdp hinfo hsel).congr rfl rfl

/-- Packets keep the cursors. -/
theorem next (h : Cursors keys m.activeServices m) (c : Call cpus) :
    Cursors keys ((finder cpus).next c m).activeServices ((finder cpus).next c m) := by
  rw [Maps.activeServices_congr (tables_finder c m)]
  cases c with
  | tcp c => exact h.tcpFinder c
  | udp c => exact h.udpFinder c

end Cursors

end L4Balancer
