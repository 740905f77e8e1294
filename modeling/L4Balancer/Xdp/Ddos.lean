import L4Balancer.Xdp.Find

/-!
# The SYN filter

`ddos_check_v4` of `balancer.bpf.c`. A source on the blacklist is dropped until its ban
is over. Otherwise the packet is counted, for its source and, if it is a pure SYN, in
all; the counters restart with the first packet after the end of a window. A source
with more SYNs in its window than the threshold, or with too many for its ACKs, is
banned.

The C code changes the counters in place; here the counter of the source is written back
once, before the global one is looked at. `syn_tracker` is an LRU map: the kernel may
evict entries of it at any time (`DdosMaps.evict`).
-/

namespace L4Balancer

open Bpf

/-- The return codes of the program. -/
inductive Verdict
  | drop
  | pass
  | tx
  deriving DecidableEq

variable (m : DdosMaps) (now : UInt64) (srcIp : BitVec 32)

/-- Entries of `syn_tracker` that the kernel evicts. -/
def DdosMaps.evict (srcs : List (BitVec 32)) : DdosMaps :=
  { m with synTracker := srcs.foldl HashMap.delete m.synTracker }

/-- Whether the source is on the blacklist; its entry is deleted when the ban is over. -/
def DdosMaps.checkBan (cfg : Option DdosConfig) : Bool × DdosMaps :=
  match m.blacklist.lookup srcIp with
  | none => (false, m)
  | some banTime =>
    if now - banTime < cfg.elim 300000000000 DdosConfig.banDurationNs then (true, m)
    else (false, { m with blacklist := m.blacklist.delete srcIp })

/-- The counter of a source, a new one if there is none. -/
def DdosMaps.lookupCounter : Option SynCounter × DdosMaps :=
  match m.synTracker.lookup srcIp with
  | some cnt => (some cnt, m)
  | none =>
    let m := { m with synTracker := m.synTracker.put srcIp ⟨0, 0, now, 0⟩ }
    (m.synTracker.lookup srcIp, m)

/-- The counter after a packet. -/
def SynCounter.count (tcp : TcpHdr) (cnt : SynCounter) : SynCounter :=
  let cnt := if now - cnt.windowStart > DDOS_WINDOW_NS then ⟨0, 0, now, 0⟩ else cnt
  { cnt with
    totalPackets := cnt.totalPackets + 1
    synCount := if tcp.pureSyn then cnt.synCount + 1 else cnt.synCount
    ackCount := if tcp.ack && !tcp.syn then cnt.ackCount + 1 else cnt.ackCount }

/-- The global counter after a pure SYN. -/
def GlobalSynStats.countSyn (gs : GlobalSynStats) : GlobalSynStats :=
  let gs := if now - gs.windowStart > DDOS_WINDOW_NS then { gs with synCount := 0, windowStart := now }
    else gs
  { gs with synCount := gs.synCount + 1 }

/-- A packet that is dropped. -/
def GlobalSynStats.dropOne (gs : GlobalSynStats) : GlobalSynStats :=
  { gs with droppedTotal := gs.droppedTotal + 1 }

/-- The global counter counts a pure SYN; whether there are too many. -/
def DdosMaps.countGlobal (cfg : Option DdosConfig) (tcp : TcpHdr) : Bool × DdosMaps :=
  if tcp.pureSyn then
    match m.globalSyn.lookup 0 with
    | none => (false, m)
    | some gs =>
      let gs := gs.countSyn now
      if cfg.any fun cfg => cfg.globalSynThreshold > 0 ∧
          gs.synCount > cfg.globalSynThreshold.toUInt64 then
        (true, { m with globalSyn := m.globalSyn.put 0 gs.dropOne })
      else (false, { m with globalSyn := m.globalSyn.put 0 gs })
  else (false, m)

/-- The counter of a source is over a limit: that of SYNs, or that of SYNs for each ACK, in
    percent. -/
def DdosConfig.exceeded (cfg : DdosConfig) (cnt : SynCounter) : Bool :=
  cfg.synThreshold > 0 ∧ cnt.synCount > cfg.synThreshold.toUInt64 ∨
    cfg.synAckRatio > 0 ∧ cnt.synCount > 10 ∧
      cnt.synCount * 100 / (if cnt.ackCount > 0 then cnt.ackCount else 1) > cfg.synAckRatio.toUInt64

/-- Banning a source. -/
def DdosMaps.ban : DdosMaps :=
  { m with
    blacklist := m.blacklist.put srcIp now
    globalSyn :=
      match m.globalSyn.lookup 0 with
      | none => m.globalSyn
      | some gs => m.globalSyn.put 0 gs.dropOne }

/-- `ddos_check_v4`. -/
def ddosCheckV4 (tcp : TcpHdr) : Verdict × DdosMaps :=
  let cfg := m.ddosCfg.lookup 0
  match m.checkBan now srcIp cfg with
  | (true, m) => (.drop, m)
  | (false, m) =>
    match m.lookupCounter now srcIp with
    | (none, m) => (.pass, m)
    | (some cnt, m) =>
      let cnt := cnt.count now tcp
      match { m with synTracker := m.synTracker.put srcIp cnt }.countGlobal now cfg tcp with
      | (true, m) => (.drop, m)
      | (false, m) =>
        if cfg.any (·.exceeded cnt) then (.drop, m.ban now srcIp) else (.pass, m)

end L4Balancer
