import L4Balancer.Xdp.Affinity
import L4Balancer.Xdp.Calls

/-!
# Flows of consistent hash

Runs of packets of TCP and UDP. A packet that creates the session of its flow, and a later
packet that is found by this session, whatever comes between them (`Follows`): for a service
of consistent hash, the first one goes to the backend that the maps have for the hash of the
flow, and the second one to the backend of the active buffer that has the index of the first
one in `ch_backends` (`Follows.outs`).
-/

namespace L4Balancer

open Bpf

variable {cpus : ℕ} {m : Maps cpus} {k : SessionStateKey} {b : Backend} {t stop : UInt64}

/-- When the packet arrives. -/
def Call.now : Call cpus → UInt64
  | tcp c => c.ctx.now
  | udp c => c.ctx.now

/-- The time of the last packet of the flow `k` that a run forwards; `t` if it forwards none. -/
def lastInFlow (k : SessionStateKey) (t : UInt64) (m : Maps cpus) : List (Call cpus) → UInt64
  | [] => t
  | .tcp c :: cs =>
    lastInFlow k (if c.stateKey = k ∧ ((tcpFinder cpus).out c m).isSome then c.ctx.now else t)
      ((tcpFinder cpus).next c m) cs
  | .udp c :: cs => lastInFlow k t ((udpFinder cpus).next c m) cs

/-! ## Packets of UDP -/

theorem Maps.Keeps.udp (h : m.Keeps k b t stop) (c : UdpCall cpus) :
    ((udpFinder cpus).next c m).Keeps k b t stop := by
  rw [Keeps, Leads, sessions_udpFinder, activeBackends_congr (tables_udpFinder c m)]
  exact h

theorem Maps.SessionsInRange.next (h : m.SessionsInRange) (c : Call cpus) :
    ((finder cpus).next c m).SessionsInRange := by
  cases c with
  | tcp c => exact h.step (TcpStep.of_next c m)
  | udp c => exact h.of_eq (sessions_udpFinder c m)

/-- The call neither creates nor closes a session of the flow `k`. -/
def Call.Keeps (k : SessionStateKey) (m : Maps cpus) : Call cpus → Prop
  | tcp c => c.stateKey = k → ¬c.Creates m ∧ ¬c.Closes m
  | udp _ => True

theorem Maps.Keeps.runs {cs : List (Call cpus)} (h : m.Keeps k b t stop)
    (htime : cs.Pairwise fun c c' => c.now ≤ c'.now)
    (hbounds : ∀ c ∈ cs, t ≤ c.now ∧ c.now ≤ stop)
    (hcs : (finder cpus).Each (fun m c => c.Keeps k m) m cs) :
    ((finder cpus).exec m cs).Keeps k b (lastInFlow k t m cs) stop := by
  induction cs generalizing m t with
  | nil => exact h
  | cons c cs ih =>
    obtain ⟨hle, hrest⟩ := List.pairwise_cons.1 htime
    obtain ⟨⟨ht, hstop⟩, hlater⟩ := List.forall_mem_cons.1 hbounds
    cases c with
    | tcp c =>
      rw [lastInFlow, Machine.exec]
      refine ih (h.step ht hstop hcs.1) hrest (fun c' hc' => ⟨?_, (hlater c' hc').2⟩) hcs.2
      split_ifs
      · exact hle c' hc'
      · exact (hlater c' hc').1
    | udp c =>
      rw [lastInFlow, Machine.exec]
      exact ih (h.udp c) hrest hlater hcs.2

/-! ## Flows -/

/-- In a run with nondecreasing times, `first` creates the session of its flow, which has room, no
    packet in `mid` creates or closes it, and `last` is a packet of the flow that is not a pure SYN
    and comes in time after the last forwarded one. -/
structure Follows (m : Maps cpus) (first : TcpCall cpus) (mid : List (Call cpus))
    (last : TcpCall cpus) : Prop where
  room : m.tcpSessionState.size < 65536
  time : (.tcp first :: (mid ++ [.tcp last])).Pairwise fun c c' : Call cpus => c.now ≤ c'.now
  creates : first.Creates m
  keeps : (finder cpus).Each (fun m c => c.Keeps first.stateKey m)
    ((finder cpus).next (.tcp first) m) mid
  flow : last.stateKey = first.stateKey
  syn : last.tcp.pureSyn = false
  gap : last.ctx.now - lastInFlow first.stateKey first.ctx.now
    ((finder cpus).next (.tcp first) m) mid ≤ TCP_STATE_TIMEOUT

/-- The last packet of the flow goes to where its session leads. -/
theorem Follows.out_last {first last : TcpCall cpus} {mid : List (Call cpus)}
    (h : Follows m first mid last)
    (hleads : ((finder cpus).next (.tcp first) m).Leads first.stateKey b first.ctx.now) :
    (finder cpus).out (.tcp last)
      ((finder cpus).exec ((finder cpus).next (.tcp first) m) mid) = some b := by
  obtain ⟨hle, htime⟩ := List.pairwise_cons.1 h.time
  obtain ⟨htime, -, hlast⟩ := List.pairwise_append.1 htime
  have hbounds : ∀ c ∈ mid, first.ctx.now ≤ c.now ∧ c.now ≤ last.ctx.now := fun c hc =>
    ⟨hle c (List.mem_append_left _ hc), hlast c hc _ (List.mem_singleton_self _)⟩
  rcases Maps.Keeps.runs (.inl hleads) htime hbounds h.keeps with hkeeps | ⟨-, hlate⟩
  · have hgap := h.gap
    rw [← h.flow] at hkeeps hgap
    exact hkeeps.out_eq h.syn hgap
  · exact absurd hlate (UInt64.not_lt.2 h.gap)

/-- Where the packets of a flow of consistent hash go. -/
theorem Follows.outs {first last : TcpCall cpus} {mid : List (Call cpus)} {info : ServiceInfo}
    (h : Follows m first mid last) (hrange : m.SessionsInRange)
    (hinfo : m.activeServices.lookup first.key = some info) (hch : info.algorithm = BALANCER_CH) :
    ∃ b idx b', m.chPick first.stateKey.chHash = some (b, idx) ∧
      m.activeBackends.lookup idx.toNat = some b' ∧ (finder cpus).out (.tcp first) m = some b ∧
      (finder cpus).out (.tcp last)
        ((finder cpus).exec ((finder cpus).next (.tcp first) m) mid) = some b' := by
  obtain ⟨b, idx, b', hpick, hb', hout, hleads⟩ :=
    Maps.Leads.of_creates_ch hrange h.room hinfo hch h.creates
  exact ⟨b, idx, b', hpick, hb', hout, h.out_last hleads⟩

end L4Balancer
