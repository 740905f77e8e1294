import L4Balancer.Xdp.Handler

/-!
# Keys of sessions

The handlers of TCP make the key of a session from the addresses and the ports of a packet. The
addresses of both families stand in the same unions, and unlike `service_key` the key has no
version. Within a family it tells all flows apart; across the families it does not, where
the IPv6 addresses are the IPv4 ones followed by zeros (`Flow.key_eq_iff`).
-/

namespace L4Balancer

variable {cpus : ℕ}

/-- A frame that `balancer_handler` passes to a handler of TCP. -/
inductive TcpFrame
  | v4 (p : Packet) (off : ℕ) (h : p.headers = some (.tcpV4 off))
  | v6 (p : Packet) (h : p.headers = some .tcpV6)

/-- What the packets of a flow have in common: the version, the addresses and the ports. -/
inductive Flow
  | v4 (src dst : BitVec 32) (srcPort dstPort : UInt16)
  | v6 (src dst : Addr) (srcPort dstPort : UInt16)
  deriving DecidableEq

namespace TcpFrame

def flow : TcpFrame → Flow
  | v4 p off _ => .v4 p.saddrV4 p.daddrV4 (p.tcpHdr off).source (p.tcpHdr off).dest
  | v6 p _ => .v6 p.saddrV6 p.daddrV6 (p.tcpHdr 54).source (p.tcpHdr 54).dest

/-- The call that the handler makes. -/
def call (ctx : Ctx cpus) : TcpFrame → TcpCall cpus
  | v4 p off _ => p.tcpCallV4 off ctx
  | v6 p _ => p.tcpCallV6 ctx

end TcpFrame

namespace Flow

/-- The key of the sessions of a flow. -/
def key : Flow → SessionStateKey
  | v4 src dst srcPort dstPort => ⟨.ofIpv4 src, .ofIpv4 dst, srcPort, dstPort⟩
  | v6 src dst srcPort dstPort => ⟨src, dst, srcPort, dstPort⟩

/-- One flow is of IPv4 and the other one of IPv6, with the same ports, and the addresses of the
    latter are those of the former followed by twelve zero bytes. -/
def Overlaid : Flow → Flow → Prop
  | v4 src dst srcPort dstPort, v6 src' dst' srcPort' dstPort'
  | v6 src' dst' srcPort' dstPort', v4 src dst srcPort dstPort =>
    (src' = .ofIpv4 src ∧ dst' = .ofIpv4 dst) ∧ srcPort' = srcPort ∧ dstPort' = dstPort
  | _, _ => False

theorem ofIpv4_inj {a b : BitVec 32} : Addr.ofIpv4 a = Addr.ofIpv4 b ↔ a = b := by
  refine ⟨fun h => ?_, congrArg _⟩
  rw [← Addr.ipv4_ofIpv4 a, h, Addr.ipv4_ofIpv4]

/-- Flows have the same key if they are the same, or if one is laid over the other. -/
theorem key_eq_iff (f g : Flow) : f.key = g.key ↔ f = g ∨ f.Overlaid g := by
  cases f with
  | v4 src dst srcPort dstPort =>
    cases g with
    | v4 src' dst' srcPort' dstPort' => simp [key, Overlaid, ofIpv4_inj]
    | v6 src' dst' srcPort' dstPort' => simp [key, Overlaid, eq_comm, and_assoc]
  | v6 src dst srcPort dstPort =>
    cases g with
    | v4 src' dst' srcPort' dstPort' => simp [key, Overlaid, and_assoc]
    | v6 src' dst' srcPort' dstPort' => simp [key, Overlaid]

theorem not_overlaid_self (f : Flow) : ¬f.Overlaid f := by
  cases f <;> exact id

end Flow

theorem TcpFrame.stateKey_call (t : TcpFrame) (ctx : Ctx cpus) :
    (t.call ctx).stateKey = t.flow.key := by
  cases t <;> rfl

/-- Flows have distinct session keys: for any two packets, whenever they arrive, the keys that the
    handlers make are equal only if the packets have the same version, addresses and ports,
    exactly if the flow of one is not laid over the flow of the other. -/
theorem stateKey_distinct_iff (t t' : TcpFrame) (ctx ctx' : Ctx cpus) :
    ((t.call ctx).stateKey = (t'.call ctx').stateKey → t.flow = t'.flow) ↔
      ¬t.flow.Overlaid t'.flow := by
  rw [TcpFrame.stateKey_call, TcpFrame.stateKey_call, Flow.key_eq_iff]
  constructor
  · intro h hover
    have heq := h (.inr hover)
    rw [heq] at hover
    exact Flow.not_overlaid_self _ hover
  · rintro h (heq | hover)
    · exact heq
    · exact absurd hover h

/-- A segment from the port 1 to the port 80, behind the headers of the layers below. -/
def demoSegment : Packet := [0, 1, 0, 80] ++ List.replicate 16 0

/-- A packet from 10.0.0.1 to 10.0.0.2, -/
def demoPacketV4 : Packet :=
  List.replicate 12 0 ++ [8, 0, 0x45] ++ List.replicate 8 0 ++ 6 :: [0, 0] ++
    [10, 0, 0, 1] ++ [10, 0, 0, 2] ++ demoSegment

/-- and one from a00:1:: to a00:2::. -/
def demoPacketV6 : Packet :=
  List.replicate 12 0 ++ [0x86, 0xdd, 0x60] ++ List.replicate 5 0 ++ 6 :: [0] ++
    ([10, 0, 0, 1] ++ List.replicate 12 0) ++ ([10, 0, 0, 2] ++ List.replicate 12 0) ++ demoSegment

def demoTcpV4 : TcpFrame := .v4 demoPacketV4 34 (by decide +kernel)

def demoTcpV6 : TcpFrame := .v6 demoPacketV6 (by decide +kernel)

/-- They share the key of their sessions. -/
theorem stateKey_shared :
    (demoTcpV4.call (⟨0, 0⟩ : Ctx 1)).stateKey = (demoTcpV6.call (⟨0, 0⟩ : Ctx 1)).stateKey ∧
      ¬((demoTcpV4.call (⟨0, 0⟩ : Ctx 1)).stateKey =
        (demoTcpV6.call (⟨0, 0⟩ : Ctx 1)).stateKey → demoTcpV4.flow = demoTcpV6.flow) := by
  have hkey : (demoTcpV4.call (⟨0, 0⟩ : Ctx 1)).stateKey =
      (demoTcpV6.call (⟨0, 0⟩ : Ctx 1)).stateKey := by decide +kernel
  exact ⟨hkey, fun h => Flow.noConfusion (h hkey)⟩

end L4Balancer
