import L4Balancer.Xdp.Affinity

/-!
# Sessions of stable flows

A flow of consistent hash is stable if both tables have the same entry at its slot. Such
flows are to do without the session table: this is what `consistent_hash_is_stable` is
for, but `find_tcp_backend` never calls it. The code after the choice of a backend, which
is the same for all algorithms, stores a session for every flow (`stable_flows_iff`).
-/

namespace L4Balancer

open Bpf

variable {cpus : ℕ} {m : Maps cpus} {c : TcpCall cpus} {info : ServiceInfo}

namespace TcpCall

/-- The packet is one of a stable flow of consistent hash. -/
def StableCh (c : TcpCall cpus) (m : Maps cpus) : Prop :=
  (∃ info ∈ m.activeServices.lookup c.key, info.algorithm = BALANCER_CH) ∧
    consistentHashIsStable c.stateKey.chHash m = true

/-- The packet creates or replaces the session of its flow, and the session table takes it. -/
def WritesSession (c : TcpCall cpus) (m : Maps cpus) : Prop :=
  c.Creates m ∧ m.tcpSessionState.HasRoom c.stateKey

/-- Without a session of its flow the packet goes where the current table says, and the session
    table stays as it is; with or without one, it writes no new session. -/
def Sessionless (c : TcpCall cpus) (m : Maps cpus) : Prop :=
  (m.tcpSessionState.lookup c.stateKey = none →
    (tcpFinder cpus).out c m = (m.chPick c.stateKey.chHash).map Prod.fst ∧
    ((tcpFinder cpus).next c m).tcpSessionState = m.tcpSessionState) ∧
  ¬c.WritesSession m

/-- There is a live session of the flow, or no active backend in the current table for it, or no
    room in the session table. -/
def NothingToWrite (c : TcpCall cpus) (m : Maps cpus) : Prop :=
  c.Hits m ∨ m.chPick c.stateKey.chHash = none ∨ ¬m.tcpSessionState.HasRoom c.stateKey

instance : Decidable (c.StableCh m) := inferInstanceAs (Decidable ((∃ _, _ ∧ _) ∧ _))
instance : Decidable (c.WritesSession m) := inferInstanceAs (Decidable (_ ∧ _))
instance : Decidable (c.NothingToWrite m) := inferInstanceAs (Decidable (_ ∨ _ ∨ _))

/-- A packet that no session leads to a backend goes where the current table says. -/
theorem out_ch (hinfo : m.activeServices.lookup c.key = some info)
    (hch : info.algorithm = BALANCER_CH) (hh : ¬c.Hits m) :
    (tcpFinder cpus).out c m = (m.chPick c.stateKey.chHash).map Prod.fst := by
  have hs := TcpStep.of_next c m
  generalize (tcpFinder cpus).out c m = out at hs ⊢
  generalize (tcpFinder cpus).next c m = m' at hs
  cases hs with
  | hit hsyn hsome hlate hb => exact absurd ⟨hsyn, _, hsome, hlate, Option.isSome_of_eq_some hb⟩ hh
  | @create state m₁ m₂ info' b idx hl _ hinfo' hsel =>
    obtain rfl := Option.some.inj (hinfo.symm.trans hinfo')
    rw [← Maps.chPick_congr hl.tables]
    exact fst_of_selectTcp hch hsel
  | @drop state m₁ m₂ hl _ hsel =>
    obtain ⟨hnone, -⟩ | ⟨info', idx, hinfo', hsel⟩ := hsel
    · cases hinfo.symm.trans hnone
    obtain rfl := Option.some.inj (hinfo.symm.trans hinfo')
    rw [← Maps.chPick_congr hl.tables]
    exact fst_of_selectTcp hch hsel

/-- Without a session of its flow, a packet writes one if it is forwarded. -/
theorem sessions_of_absent (hnone : m.tcpSessionState.lookup c.stateKey = none) :
    c.Forwarded m ∧ (∃ new, ((tcpFinder cpus).next c m).tcpSessionState =
      m.tcpSessionState.put c.stateKey new) ∨
    ¬c.Forwarded m ∧ ((tcpFinder cpus).next c m).tcpSessionState = m.tcpSessionState := by
  have hl' : ∀ state m₁, Lookup c m state m₁ → state = none ∧ m₁ = m := by
    intro state m₁ hl
    cases hl with
    | absent => exact ⟨rfl, rfl⟩
    | expired _ hs _ | live _ hs _ => cases hnone.symm.trans hs
  have hs := TcpStep.of_next c m
  rw [Forwarded]
  generalize (tcpFinder cpus).out c m = out at hs ⊢
  generalize (tcpFinder cpus).next c m = m' at hs ⊢
  cases hs with
  | hit _ hsome _ _ => cases hnone.symm.trans hsome
  | @create _ _ _ info _ idx hl _ _ hsel =>
    obtain ⟨rfl, rfl⟩ := hl' _ _ hl
    refine .inl ⟨rfl, ⟨idx, info.serviceIdx, c.ctx.now, TCP_STATE_TIMEOUT⟩, ?_⟩
    rw [sessions_finishTcp, if_neg (by simp), Maps.sessions_storeSession,
      (quiet_of_selectTcp hsel).sessions]
  | drop hl _ hsel =>
    obtain ⟨rfl, rfl⟩ := hl' _ _ hl
    refine .inr ⟨by simp, ?_⟩
    rcases hsel with ⟨-, rfl⟩ | ⟨info, idx, -, hsel⟩
    · rfl
    · exact (quiet_of_selectTcp hsel).sessions

/-- A packet of a stable flow does without a session exactly if there is nothing to write. -/
theorem sessionless_iff (h : c.StableCh m) : c.Sessionless m ↔ c.NothingToWrite m := by
  obtain ⟨⟨info, hinfo, hch⟩, -⟩ := h
  by_cases hh : c.Hits m
  · refine iff_of_true ⟨fun hnone => ?_, fun hw => hw.1.2 hh⟩ (.inl hh)
    obtain ⟨-, state, hstate, -⟩ := hh
    cases hnone.symm.trans hstate
  have hout := out_ch hinfo hch hh
  have hforwarded : c.Forwarded m ↔ m.chPick c.stateKey.chHash ≠ none := by
    rw [Forwarded, hout, Option.isSome_map, Option.isSome_iff_ne_none]
  constructor
  · rintro ⟨-, hw⟩
    by_contra hno
    rw [NothingToWrite, not_or, not_or, not_not] at hno
    exact hw ⟨⟨hforwarded.2 hno.2.1, hh⟩, hno.2.2⟩
  · intro hn
    have hnot : ¬c.WritesSession m := fun hw => by
      rcases hn with hn | hn | hn
      · exact hh hn
      · exact hforwarded.1 hw.1.1 hn
      · exact hn hw.2
    refine ⟨fun hnone => ⟨hout, ?_⟩, hnot⟩
    rcases sessions_of_absent hnone with ⟨hf, new, hput⟩ | ⟨-, hsame⟩
    · have hfull : ¬m.tcpSessionState.HasRoom c.stateKey := fun hroom => hnot ⟨⟨hf, hh⟩, hroom⟩
      rw [hput, HashMap.put_of_not_hasRoom hfull]
    · exact hsame

end TcpCall

/-- If the packet is one of a stable flow of consistent hash, it satisfies `P`. -/
def Call.OnStable (P : TcpCall cpus → Maps cpus → Prop) (m : Maps cpus) : Call cpus → Prop
  | tcp c => c.StableCh m → P c m
  | udp _ => True

/-- Stable flows and the session table. In every run, all packets of stable flows of consistent hash
    do without sessions exactly if each of them finds a live session of its flow, no active backend
    in the current table, or no room in the session table. -/
theorem stable_flows_iff (m : Maps cpus) (cs : List (Call cpus)) :
    (finder cpus).Each (Call.OnStable TcpCall.Sessionless) m cs ↔
      (finder cpus).Each (Call.OnStable TcpCall.NothingToWrite) m cs := by
  refine Machine.each_congr (I := fun _ => True) (fun _ _ _ => trivial) (fun m c _ => ?_) trivial
  cases c with
  | tcp c => exact forall_congr' TcpCall.sessionless_iff
  | udp c => exact Iff.rfl

/-- A service of consistent hash whose tables have the same backend in all slots. -/
def demoStable : Maps 1 :=
  { demoMaps BALANCER_CH with
    chConfig := (ArrayMap.const 0).put 0 7
    chBackends := (ArrayMap.const .zero).put 0 (demoBackend 0) }

/-- A SYN of a stable flow writes a session. -/
theorem stable_flow_writes : ¬(finder 1).Each (Call.OnStable TcpCall.Sessionless) demoStable
    [.tcp (demoCall 0 1 true)] := by
  rintro ⟨h, -⟩
  exact (h (by decide)).2 (by decide)

end L4Balancer
