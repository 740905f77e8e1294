import Mathlib.Data.BitVec
import Mathlib.Data.UInt
import L4Balancer.Bpf.Map

/-!
# The maps of the packet program

The keys and values of the maps in `balancer.bpf.c`, and the maps themselves:
those of the balancer (`Maps`) and those of the SYN filter (`DdosMaps`). The
numbers keep the widths of their C types.

An address union holds either an IPv4 address or an IPv6 address. It is modelled
by its sixteen bytes (`Addr`), read as a little-endian number: `Addr.withIpv4`
stores an IPv4 address in the first four bytes of a union and leaves the others,
`Addr.ofIpv4` stores it in a zeroed union, `Addr.ipv4` reads it back. So an IPv6
address with twelve zero bytes at its end and an IPv4 address may be one union.

The stored `atomic_index` is taken to be the number of a buffer, `0` or `1`: the
control plane reads it into a byte and writes it from an `int`, where the map has
eight bytes.
-/

namespace L4Balancer

open Bpf

-- named, so that the index `0` of a map of one entry, or of the two buffers, is the same term in
-- every module
instance neZero_one : NeZero 1 := ⟨Nat.one_ne_zero⟩

instance neZero_two : NeZero 2 := ⟨by decide⟩

/-- The sixteen bytes of an address union, the byte `i` in the bits from `8 * i` on. -/
abbrev Addr := BitVec 128

/-- The six bytes of a MAC address, in the same way. -/
abbrev Mac := BitVec 48

/-- A zeroed union with its IPv4 member set. -/
def Addr.ofIpv4 (a : BitVec 32) : Addr := a.setWidth 128

/-- The IPv4 member of a union. -/
def Addr.ipv4 (a : Addr) : BitVec 32 := a.setWidth 32

/-- A union with its IPv4 member set; the other bytes stay. -/
def Addr.withIpv4 (a : Addr) (ip : BitVec 32) : Addr := a.extractLsb' 32 96 ++ ip

theorem Addr.ipv4_withIpv4 (a : Addr) (ip : BitVec 32) : (a.withIpv4 ip).ipv4 = ip := by
  rw [ipv4, withIpv4, BitVec.setWidth_append]
  simp

theorem Addr.ipv4_ofIpv4 (a : BitVec 32) : (Addr.ofIpv4 a).ipv4 = a := by
  simp [ofIpv4, ipv4]

def IPPROTO_TCP : UInt8 := 6
def IPPROTO_UDP : UInt8 := 17

def BALANCER_RR : UInt8 := 0
def BALANCER_WRR : UInt8 := 1
def BALANCER_CH : UInt8 := 2

/-- One minute, in nanoseconds. -/
def TCP_STATE_TIMEOUT : UInt64 := 60000000000

/-- Ten seconds, in nanoseconds. -/
def DDOS_WINDOW_NS : UInt64 := 10000000000

/-! ## Keys and values -/

/-- `struct service_key`. -/
structure ServiceKey where
  vip : Addr
  port : UInt16
  protocol : UInt8
  ipVersion : UInt8
  deriving DecidableEq

/-- `struct service_info`. -/
structure ServiceInfo where
  backendCount : UInt32
  backendStartIdx : UInt32
  algorithm : UInt8
  serviceIdx : UInt32
  deriving DecidableEq

/-- `struct backend`. -/
structure Backend where
  ip : Addr
  port : UInt16
  mac : Mac
  active : UInt8
  ipVersion : UInt8
  weight : UInt8
  deriving DecidableEq

/-- `struct wrr_state`. -/
structure WrrState where
  currentIndex : UInt32
  currentWeightCounter : UInt32
  deriving DecidableEq

/-- `struct session_state_key`; the ports are in network order. -/
structure SessionStateKey where
  src : Addr
  dst : Addr
  srcPort : UInt16
  dstPort : UInt16
  deriving DecidableEq

/-- `struct session_state_val`. -/
structure SessionStateVal where
  backendIdx : UInt32
  serviceIdx : UInt32
  created : UInt64
  timeout : UInt64
  deriving DecidableEq

/-- `struct summary_packets_data`; `connections` is signed, in two's complement. -/
structure PacketsData where
  totalPackets : UInt64
  tcpSynPackets : UInt64
  preparedPackets : UInt64
  connections : BitVec 32
  totalBytes : UInt64

/-- `struct ch_stats_data`, the fields the program writes. -/
structure ChStatsData where
  totalLookups : UInt64
  stableLookups : UInt64
  unstableLookups : UInt64

/-- `struct syn_counter`. -/
structure SynCounter where
  synCount : UInt64
  ackCount : UInt64
  windowStart : UInt64
  totalPackets : UInt64

/-- `struct ddos_config`. -/
structure DdosConfig where
  synThreshold : UInt32
  synAckRatio : UInt32
  globalSynThreshold : UInt32
  banDurationNs : UInt64

/-- `struct global_syn_stats`. -/
structure GlobalSynStats where
  synCount : UInt64
  windowStart : UInt64
  droppedTotal : UInt64

/-- The zero bytes of a fresh array entry. -/
def Backend.zero : Backend := ⟨0, 0, 0, 0, 0, 0⟩
def PacketsData.zero : PacketsData := ⟨0, 0, 0, 0, 0⟩

/-! ## Maps -/

/-- The maps of the balancer, on a machine with `cpus` CPUs. -/
structure Maps (cpus : ℕ) where
  servicesFirst : HashMap ServiceKey ServiceInfo 256
  servicesSecond : HashMap ServiceKey ServiceInfo 256
  backendsFirst : ArrayMap Backend 1024
  backendsSecond : ArrayMap Backend 1024
  /-- The number of the buffer that packets read, taken to be `0` or `1`. -/
  atomicIndex : ArrayMap (Fin 2) 1
  rrIndex : HashMap ServiceKey UInt32 256
  wrrStateMap : HashMap ServiceKey WrrState 256
  chCurrLookup : ArrayMap ℤ 65537
  chPrevLookup : ArrayMap ℤ 65537
  chBackends : ArrayMap Backend 257
  chConfig : ArrayMap UInt32 4
  chStatsMap : ArrayMap ChStatsData 1
  tcpSessionState : HashMap SessionStateKey SessionStateVal 65536
  backendsPacketsStats : PerCpuArray PacketsData cpus 1024
  servicesPacketsStats : PerCpuArray PacketsData cpus 256

/-- The maps of the SYN filter. -/
structure DdosMaps where
  synTracker : HashMap (BitVec 32) SynCounter 65536
  blacklist : HashMap (BitVec 32) UInt64 16384
  ddosCfg : ArrayMap DdosConfig 1
  globalSyn : ArrayMap GlobalSynStats 1

/-- The maps after the program is loaded: hash maps are empty, arrays are zero. -/
def Maps.fresh (cpus : ℕ) : Maps cpus where
  servicesFirst := .empty
  servicesSecond := .empty
  backendsFirst := .const .zero
  backendsSecond := .const .zero
  atomicIndex := .const 0
  rrIndex := .empty
  wrrStateMap := .empty
  chCurrLookup := .const 0
  chPrevLookup := .const 0
  chBackends := .const .zero
  chConfig := .const 0
  chStatsMap := .const ⟨0, 0, 0⟩
  tcpSessionState := .empty
  backendsPacketsStats := .const .zero
  servicesPacketsStats := .const .zero

def DdosMaps.fresh : DdosMaps where
  synTracker := .empty
  blacklist := .empty
  ddosCfg := .const ⟨0, 0, 0, 0⟩
  globalSyn := .const ⟨0, 0, 0⟩

namespace Maps

variable {cpus : ℕ} (m : Maps cpus)

/-- The services map and the backends map that a buffer number selects. -/
def servicesAt (b : Fin 2) : HashMap ServiceKey ServiceInfo 256 :=
  if b = 0 then m.servicesFirst else m.servicesSecond

def backendsAt (b : Fin 2) : ArrayMap Backend 1024 :=
  if b = 0 then m.backendsFirst else m.backendsSecond

/-- The buffer that packets read. -/
def activeBuffer : Fin 2 := m.atomicIndex.get 0

/-- The services map and the backends map that packets read. -/
def activeServices : HashMap ServiceKey ServiceInfo 256 := m.servicesAt m.activeBuffer

def activeBackends : ArrayMap Backend 1024 := m.backendsAt m.activeBuffer

theorem lookup_atomicIndex : m.atomicIndex.lookup 0 = some m.activeBuffer := rfl

end Maps

end L4Balancer
