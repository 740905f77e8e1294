import L4Balancer.Xdp.DropCount
import L4Balancer.Xdp.SynWindow

/-!
# The program without the filter

`balancer_handler` asks the filter about every packet of TCP over IPv4 that is not a pure SYN,
but the filter only counts pure SYNs against a source. So no counter of `syn_tracker` ever has
a SYN, no limit is ever exceeded, and the blacklist stays empty (`Unused`): whatever
`ddos_cfg` is set to, and however often it changes, the program does what it would do without
the filter (`filter_never_acts`).
-/

namespace L4Balancer

open Bpf

variable {cpus : ℕ} {m m' : DdosMaps} {now : UInt64} {srcIp : BitVec 32} {tcp : TcpHdr}
  {s : XdpState cpus}

/-! ## The two programs -/

/-- `balancer_handler` without its call of `ddos_check_v4`. -/
def passHandler (ctx : Ctx cpus) (p : Packet) (m : Maps cpus) : (Verdict × Packet) × Maps cpus :=
  match p.headers with
  | none => ((.pass, p), m)
  | some h =>
    let r := p.answer (h.rewrite p) ((finder cpus).step (h.call ctx p) m)
    ((if r.1 > 0 then .pass else .tx, r.2.1), r.2.2)

/-- The machine of the program without the filter. -/
def unfiltered (cpus : ℕ) : Machine (Maps cpus) (Arrival cpus) (Verdict × Packet) where
  step a := passHandler a.ctx a.bytes

/-- A frame, or a write of the settings of the filter. -/
inductive Input (cpus : ℕ)
  | frame (a : Arrival cpus)
  | settings (cfg : DdosConfig)

/-- The frame of an input. -/
def Input.frame? : Input cpus → Option (Arrival cpus)
  | frame a => some a
  | settings _ => none

/-- The machine of the program, with writes to `ddos_cfg`. -/
def configured (cpus : ℕ) : Machine (XdpState cpus) (Input cpus) (Option (Verdict × Packet)) where
  step
    | .frame a => fun s => ((xdp cpus).step a s).map some id
    | .settings cfg => fun s =>
      (none, { s with ddos := { s.ddos with ddosCfg := s.ddos.ddosCfg.put 0 cfg } })

/-! ## The filter -/

/-- No source is banned, and none has a SYN counted. -/
structure Unused (m : DdosMaps) : Prop where
  blacklist : ∀ src, m.blacklist.lookup src = none
  synTracker : ∀ src cnt, m.synTracker.lookup src = some cnt → cnt.synCount = 0

namespace Unused

theorem fresh : Unused .fresh := ⟨fun _ => rfl, fun _ _ h => by cases h⟩

theorem evict (h : Unused m) (srcs : List (BitVec 32)) : Unused (m.evict srcs) := by
  refine ⟨h.blacklist, fun src cnt hcnt => ?_⟩
  rw [lookup_evict] at hcnt
  split_ifs at hcnt
  exact h.synTracker src cnt hcnt

/-- The counter of a source, which may be new. -/
theorem synCount_count (h : Unused m) (now : UInt64) (srcIp : BitVec 32)
    (hsyn : tcp.pureSyn = false) : ((m.counter now srcIp).count now tcp).synCount = 0 := by
  have hzero : (m.counter now srcIp).synCount = 0 := by
    rw [DdosMaps.counter]
    cases hcnt : m.synTracker.lookup srcIp with
    | none => rfl
    | some cnt => exact h.synTracker srcIp cnt hcnt
  rw [SynCounter.count, hsyn]
  dsimp only
  rw [if_neg Bool.false_ne_true]
  split_ifs
  · rfl
  · exact hzero

/-- A packet that is no pure SYN passes, and is not counted as one. -/
theorem ddosCheckV4 (h : Unused m) (now : UInt64) (srcIp : BitVec 32)
    (hsyn : tcp.pureSyn = false) : (L4Balancer.ddosCheckV4 m now srcIp tcp).1 = .pass ∧
      Unused (L4Balancer.ddosCheckV4 m now srcIp tcp).2 ∧
      (L4Balancer.ddosCheckV4 m now srcIp tcp).2.globalSyn = m.globalSyn := by
  have hzero := h.synCount_count now srcIp hsyn
  have hglobal := globalSyn_lookupCounter m now srcIp
  rw [L4Balancer.ddosCheckV4, checkBan_of_absent (h.blacklist srcIp)]
  dsimp only
  rcases lookupCounter_cases m now srcIp with ⟨m₁, hcnt, hlist, hput⟩ | ⟨hcnt, -⟩
  · rw [hcnt] at hglobal
    rw [hcnt]
    dsimp only
    have hexceeded : ∀ cfg : DdosConfig,
        cfg.exceeded ((m.counter now srcIp).count now tcp) = false := fun cfg =>
      exceeded_eq_false (by rw [hzero]; decide) fun _ => by rw [hzero]; exact Nat.zero_le _
    have hany : (m.ddosCfg.lookup 0).any (·.exceeded ((m.counter now srcIp).count now tcp)) =
        false := hexceeded (m.ddosCfg.get 0)
    rw [DdosMaps.countGlobal, hsyn, if_neg Bool.false_ne_true]
    dsimp only
    rw [hany, if_neg Bool.false_ne_true]
    refine ⟨rfl, ⟨fun src => ?_, fun src cnt hsrc => ?_⟩, hglobal⟩
    · dsimp only
      rw [hlist]
      exact h.blacklist src
    · dsimp only at hsrc
      rw [hput] at hsrc
      split_ifs at hsrc
      · rw [← Option.some.inj hsrc]
        exact hzero
      · exact h.synTracker src cnt hsrc
  · -- the counter does not fit into the map: the packet passes uncounted
    rw [hcnt]
    exact ⟨rfl, h, rfl⟩

end Unused

/-! ## Runs -/

/-- A frame is handled as without the filter, which stays unused. -/
theorem Unused.frame (h : Unused s.ddos) (a : Arrival cpus) :
    (xdp cpus).out a s = (unfiltered cpus).out a s.maps ∧
      ((xdp cpus).next a s).maps = (unfiltered cpus).next a s.maps ∧
      Unused ((xdp cpus).next a s).ddos ∧
      ((xdp cpus).next a s).ddos.globalSyn = s.ddos.globalSyn := by
  have hevict := h.evict a.evicted
  have hstep : (xdp cpus).step a s =
    balancerHandler a.ctx a.bytes { s with ddos := s.ddos.evict a.evicted } := rfl
  have hstep' : (unfiltered cpus).step a s.maps = passHandler a.ctx a.bytes s.maps := rfl
  rw [Machine.out, Machine.out, Machine.next, Machine.next, hstep, hstep', balancerHandler,
    passHandler]
  cases a.bytes.headers with
  | none => exact ⟨rfl, rfl, hevict, rfl⟩
  | some hd =>
    cases hd with
    | tcpV4 off =>
      dsimp only
      -- the filter is asked about what is no pure SYN, and only then
      cases hsyn : (a.bytes.tcpHdr off).pureSyn with
      | true => exact ⟨rfl, rfl, hevict, rfl⟩
      | false =>
        obtain ⟨hpass, hunused, hglobal⟩ := hevict.ddosCheckV4 a.ctx.now a.bytes.saddrV4 hsyn
        rw [if_neg Bool.false_ne_true]
        generalize L4Balancer.ddosCheckV4 _ a.ctx.now a.bytes.saddrV4 (a.bytes.tcpHdr off) = r
          at hpass hunused hglobal
        obtain ⟨v, ddos⟩ := r
        obtain rfl : v = .pass := hpass
        exact ⟨rfl, rfl, hunused, hglobal⟩
    | udpV4 | tcpV6 | udpV6 => exact ⟨rfl, rfl, hevict, rfl⟩

/-- Without the filter, nothing is dropped. -/
theorem unfiltered_ne_drop (a : Arrival cpus) (m : Maps cpus) :
    ((unfiltered cpus).out a m).1 ≠ .drop := by
  have hstep : (unfiltered cpus).step a m = passHandler a.ctx a.bytes m := rfl
  rw [Machine.out, hstep, passHandler]
  cases a.bytes.headers with
  | none => exact fun h => by cases h
  | some h =>
    dsimp only
    split_ifs <;> exact fun h => by cases h

/-- What holds all along a run of frames and settings. -/
structure Unacted (s s' : XdpState cpus) : Prop where
  unused : Unused s'.ddos
  globalSyn : s'.ddos.globalSyn = s.ddos.globalSyn

theorem Unacted.run {s' : XdpState cpus} (hs' : Unacted s s') (is : List (Input cpus)) :
    ((configured cpus).outs s' is).filterMap id =
        (unfiltered cpus).outs s'.maps (is.filterMap Input.frame?) ∧
      ((configured cpus).exec s' is).maps =
        (unfiltered cpus).exec s'.maps (is.filterMap Input.frame?) ∧
      (configured cpus).Always (Unacted s) s' is := by
  induction is generalizing s' with
  | nil => exact ⟨rfl, rfl, hs'⟩
  | cons i is ih =>
    cases i with
    | frame a =>
      obtain ⟨hout, hnext, hunused, hglobal⟩ := hs'.unused.frame a
      obtain ⟨houts, hexec, halways⟩ := ih ⟨hunused, hglobal.trans hs'.globalSyn⟩
      rw [hnext] at houts hexec
      refine ⟨?_, hexec, hs', halways⟩
      have hconfigured : (configured cpus).out (.frame a) s' = some ((xdp cpus).out a s') := rfl
      rw [Machine.outs, hconfigured, hout]
      exact congrArg ((unfiltered cpus).out a s'.maps :: ·) houts
    | settings cfg =>
      have hnext : Unacted s ((configured cpus).next (.settings cfg) s') :=
        ⟨⟨hs'.unused.1, hs'.unused.2⟩, hs'.globalSyn⟩
      obtain ⟨houts, hexec, halways⟩ := ih hnext
      exact ⟨houts, hexec, hs', halways⟩

/-- The filter never acts. From a state in which no source is banned and no SYN is counted, such as
    the one after the program is loaded, in every run of frames of any bytes and of writes to
    `ddos_cfg`, with any evictions: the verdicts, the frames and the maps are those of the program
    without the filter, no frame is dropped, and neither the blacklist nor the counter of all SYNs
    ever changes. -/
theorem filter_never_acts (h : Unused s.ddos) (is : List (Input cpus)) :
    ((configured cpus).outs s is).filterMap id =
        (unfiltered cpus).outs s.maps (is.filterMap Input.frame?) ∧
      ((configured cpus).exec s is).maps =
        (unfiltered cpus).exec s.maps (is.filterMap Input.frame?) ∧
      (configured cpus).Always (Unacted s) s is ∧
      ∀ r ∈ ((configured cpus).outs s is).filterMap id, r.1 ≠ .drop := by
  have hs : Unacted s s := ⟨h, rfl⟩
  obtain ⟨houts, hexec, halways⟩ := hs.run is
  refine ⟨houts, hexec, halways, ?_⟩
  rw [houts]
  exact Machine.outs_of_step (P := fun _ => True)
    (fun m a _ => ⟨unfiltered_ne_drop a m, trivial⟩) trivial

/-- Two SYNs and an ACK of one source, over a limit of one SYN. -/
theorem filter_never_acts_demo :
    ((configured 1).outs ⟨demoMaps BALANCER_RR, .fresh⟩ [.settings ⟨1, 500, 1, 0⟩,
      .frame ⟨⟨0, 0⟩, demoSyn, []⟩, .frame ⟨⟨0, 0⟩, demoSyn, []⟩,
      .frame ⟨⟨1, 0⟩, demoSyn.set 47 0x10, []⟩]).filterMap id =
    (unfiltered 1).outs (demoMaps BALANCER_RR)
      [⟨⟨0, 0⟩, demoSyn, []⟩, ⟨⟨0, 0⟩, demoSyn, []⟩, ⟨⟨1, 0⟩, demoSyn.set 47 0x10, []⟩] :=
  (filter_never_acts .fresh _).1

end L4Balancer
