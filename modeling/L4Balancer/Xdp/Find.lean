import L4Balancer.Machine
import L4Balancer.Xdp.Balance

/-!
# Finding a backend

`find_tcp_backend` and `find_udp_backend` of `balancer.bpf.c`, which choose the
backend of a packet and keep the session table and the counters.

A TCP packet that is not a pure SYN first looks for the session of its flow
(`sessionLookup`). If there is none, or if it has timed out, the algorithm of the
service chooses a backend (`selectTcp`) and a new session is stored. The end of
both paths (`finishTcp`) drops the session at a FIN or RST and counts the packet.

A call of one of the functions is an input of a machine, `finder`, whose runs are
the runs of packets between two reloads.
-/

namespace L4Balancer

open Bpf

variable {cpus : ℕ}

/-- The fields of `struct tcphdr` the program reads, the ports in network order. -/
structure TcpHdr where
  source : UInt16
  dest : UInt16
  fin : Bool
  syn : Bool
  rst : Bool
  ack : Bool
  deriving DecidableEq

/-- A SYN without an ACK: it opens a connection. -/
def TcpHdr.pureSyn (tcp : TcpHdr) : Bool := tcp.syn && !tcp.ack

/-- A FIN or a RST: it closes the connection. -/
def TcpHdr.closing (tcp : TcpHdr) : Bool := tcp.fin || tcp.rst

/-- Adding to the signed counter of connections. -/
def PacketsData.connect (delta : BitVec 32) (d : PacketsData) : PacketsData :=
  { d with connections := d.connections + delta }

/-- Deleting a session that has timed out: it leaves the counters of its backend and service. -/
def Maps.expireSession (m : Maps cpus) (ctx : Ctx cpus) (stateKey : SessionStateKey)
    (state : SessionStateVal) : Maps cpus :=
  { m with
    tcpSessionState := m.tcpSessionState.delete stateKey
    backendsPacketsStats :=
      m.backendsPacketsStats.modify ctx.cpu state.backendIdx.toNat (.connect (-1))
    servicesPacketsStats :=
      m.servicesPacketsStats.modify ctx.cpu state.serviceIdx.toNat (.connect (-1)) }

/-- Storing a session, a new one or a refreshed one. -/
def Maps.storeSession (m : Maps cpus) (stateKey : SessionStateKey) (state : SessionStateVal) :
    Maps cpus :=
  { m with tcpSessionState := m.tcpSessionState.put stateKey state }

/-- A session as a packet at the time `now` refreshes it. -/
def SessionStateVal.refresh (state : SessionStateVal) (now : UInt64) : SessionStateVal :=
  { state with created := now }

/-- The session of the flow of a packet, for packets that are not pure SYNs. A session that has
    timed out is deleted; another one is refreshed. -/
def sessionLookup (ctx : Ctx cpus) (stateKey : SessionStateKey) (tcp : TcpHdr) (m : Maps cpus) :
    Option SessionStateVal × Maps cpus :=
  if tcp.pureSyn then (none, m)
  else
    match m.tcpSessionState.lookup stateKey with
    | none => (none, m)
    | some state =>
      if ctx.now - state.created > state.timeout then
        (none, m.expireSession ctx stateKey state)
      else (some (state.refresh ctx.now), m.storeSession stateKey (state.refresh ctx.now))

/-- The `switch` over the algorithm in `find_tcp_backend`. -/
def selectTcp (ctx : Ctx cpus) (backends : ArrayMap Backend 1024) (info : ServiceInfo)
    (stateKey : SessionStateKey) (key : ServiceKey) (packetLen lastIndex : UInt32)
    (m : Maps cpus) : Option Backend × UInt32 × Maps cpus :=
  if info.algorithm = BALANCER_RR then
    selectLoop (rrBalancerHandle backends info key) 5 lastIndex m
  else if info.algorithm = BALANCER_WRR then
    selectLoop (wrrBalancerHandle backends info key) 5 lastIndex m
  else if info.algorithm = BALANCER_CH then
    chBalancerHandle ctx key stateKey.chHash packetLen lastIndex m
  else (none, lastIndex, m)

/-- The counters of a forwarded TCP packet. -/
def PacketsData.forwardTcp (tcp : TcpHdr) (delta : BitVec 32) (d : PacketsData) : PacketsData :=
  { d with
    connections := d.connections + delta
    totalPackets := d.totalPackets + 1
    tcpSynPackets := if tcp.syn then d.tcpSynPackets + 1 else d.tcpSynPackets
    preparedPackets := d.preparedPackets + 1 }

/-- The end of `find_tcp_backend`: `state` is the session the packet was found by, if it was. The
    bytes are added to the backend only. -/
def finishTcp (ctx : Ctx cpus) (stateKey : SessionStateKey) (tcp : TcpHdr) (packetLen : UInt32)
    (state : Option SessionStateVal) (lastBackendIndex serviceIdx : UInt32) (connDelta : BitVec 32)
    (m : Maps cpus) : Maps cpus :=
  let closes := state.isSome && tcp.closing
  let connDelta := if closes then -1 else connDelta
  { m with
    tcpSessionState :=
      if closes then m.tcpSessionState.delete stateKey else m.tcpSessionState
    backendsPacketsStats :=
      m.backendsPacketsStats.modify ctx.cpu lastBackendIndex.toNat fun d =>
        let d := d.forwardTcp tcp connDelta
        { d with totalBytes := d.totalBytes + packetLen.toUInt64 }
    servicesPacketsStats :=
      m.servicesPacketsStats.modify ctx.cpu serviceIdx.toNat (.forwardTcp tcp connDelta) }

/-- `find_tcp_backend`. -/
def findTcpBackend (ctx : Ctx cpus) (stateKey : SessionStateKey) (key : ServiceKey) (tcp : TcpHdr)
    (packetLen : UInt32) (m : Maps cpus) : Option Backend × Maps cpus :=
  match m.atomicIndex.lookup 0 with
  | none => (none, m)
  | some currIndex =>
    let services := m.servicesAt currIndex
    let backends := m.backendsAt currIndex
    match sessionLookup ctx stateKey tcp m with
    | (state, m) =>
      match state.bind fun s => (backends.lookup s.backendIdx.toNat).map (s, ·) with
      | some (s, backend) =>
        (some backend, finishTcp ctx stateKey tcp packetLen state s.backendIdx s.serviceIdx 0 m)
      | none =>
        match services.lookup key with
        | none => (none, m)
        | some info =>
          let lastIndex := state.elim 0 SessionStateVal.backendIdx
          match selectTcp ctx backends info stateKey key packetLen lastIndex m with
          | (none, _, m) => (none, m)
          | (some backend, lastIndex, m) =>
            let newState : SessionStateVal :=
              ⟨lastIndex, info.serviceIdx, ctx.now, TCP_STATE_TIMEOUT⟩
            (some backend, finishTcp ctx stateKey tcp packetLen state lastIndex info.serviceIdx 1
              (m.storeSession stateKey newState))

/-- The `switch` over the algorithm in `find_udp_backend`: it has no case for consistent hash. -/
def selectUdp (backends : ArrayMap Backend 1024) (info : ServiceInfo) (key : ServiceKey)
    (m : Maps cpus) : Option Backend × UInt32 × Maps cpus :=
  if info.algorithm = BALANCER_RR then
    selectLoop (rrBalancerHandle backends info key) 5 0 m
  else if info.algorithm = BALANCER_WRR then
    selectLoop (wrrBalancerHandle backends info key) 5 0 m
  else (none, 0, m)

/-- `find_udp_backend`. -/
def findUdpBackend (ctx : Ctx cpus) (key : ServiceKey) (packetLen : UInt32) (m : Maps cpus) :
    Option Backend × Maps cpus :=
  match m.atomicIndex.lookup 0 with
  | none => (none, m)
  | some currIndex =>
    match (m.servicesAt currIndex).lookup key with
    | none => (none, m)
    | some info =>
      match selectUdp (m.backendsAt currIndex) info key m with
      | (none, _, m) => (none, m)
      | (some backend, lastIndex, m) =>
        (some backend, { m with
          backendsPacketsStats :=
            m.backendsPacketsStats.modify ctx.cpu lastIndex.toNat (.prepared packetLen)
          servicesPacketsStats :=
            m.servicesPacketsStats.modify ctx.cpu info.serviceIdx.toNat (.prepared packetLen) })

/-! ## Runs -/

/-- A call of `find_tcp_backend`. -/
structure TcpCall (cpus : ℕ) where
  ctx : Ctx cpus
  stateKey : SessionStateKey
  key : ServiceKey
  tcp : TcpHdr
  packetLen : UInt32

/-- A call of `find_udp_backend`. -/
structure UdpCall (cpus : ℕ) where
  ctx : Ctx cpus
  key : ServiceKey
  packetLen : UInt32

/-- A call of one of the functions. -/
inductive Call (cpus : ℕ)
  | tcp (c : TcpCall cpus)
  | udp (c : UdpCall cpus)

/-- The service a packet is addressed to. -/
def Call.key : Call cpus → ServiceKey
  | tcp c => c.key
  | udp c => c.key

/-- The call is one of `find_tcp_backend`. -/
def Call.isTcp : Call cpus → Bool
  | tcp _ => true
  | udp _ => false

/-- The machine of `find_tcp_backend`. -/
def tcpFinder (cpus : ℕ) : Machine (Maps cpus) (TcpCall cpus) (Option Backend) where
  step c := findTcpBackend c.ctx c.stateKey c.key c.tcp c.packetLen

/-- The machine of `find_udp_backend`. -/
def udpFinder (cpus : ℕ) : Machine (Maps cpus) (UdpCall cpus) (Option Backend) where
  step c := findUdpBackend c.ctx c.key c.packetLen

/-- The machine of both functions. -/
def finder (cpus : ℕ) : Machine (Maps cpus) (Call cpus) (Option Backend) where
  step
    | .tcp c => (tcpFinder cpus).step c
    | .udp c => (udpFinder cpus).step c

/-! ## A small service

A service of two backends on one CPU, for concrete runs. -/

def demoKey : ServiceKey := ⟨.ofIpv4 0x0100000a, 80, IPPROTO_TCP, 4⟩

def demoBackend (i : UInt8) : Backend :=
  ⟨.ofIpv4 (0x0200000a + i.toUInt32.toBitVec <<< 24), 80, i.toBitVec.setWidth 48, 1, 4, 1⟩

def demoMaps (algorithm : UInt8) : Maps 1 :=
  { Maps.fresh 1 with
    servicesFirst := HashMap.empty.put demoKey ⟨2, 0, algorithm, 0⟩
    backendsFirst := ((ArrayMap.const .zero).put 0 (demoBackend 0)).put 1 (demoBackend 1)
    rrIndex := HashMap.empty.put demoKey 0 }

/-- A SYN or an ACK to the service at the time `now`, from the port `port`. -/
def demoCall (now : UInt64) (port : UInt16) (syn : Bool) : TcpCall 1 where
  ctx := ⟨now, 0⟩
  stateKey := ⟨.ofIpv4 0x0100000b, demoKey.vip, port, 0x5000⟩
  key := demoKey
  tcp := ⟨port, 0x5000, false, syn, false, !syn⟩
  packetLen := 60

end L4Balancer
