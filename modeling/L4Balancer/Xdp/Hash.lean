import L4Balancer.Mixing
import L4Balancer.Xdp.Handler

/-!
# The hash of a flow

`hash_key_consistent` is a composition of mixing steps that lose nothing, so that every
number is the hash of some key (`hashKeyConsistent_surjective`), and of some flow to a given
service (`exists_syn`): no slot of a table is out of the reach of packets.
-/

namespace L4Balancer

open Mixing

variable {cpus : ℕ}

theorem toBitVec_hashKeyConsistent (key seed : UInt32) :
    (hashKeyConsistent key seed).toBitVec =
      xorshift (((seed.toBitVec ^^^ key.toBitVec) * 0x9e3779b9).rotateLeft 13) 17 *
        0x85ebca6b := rfl

theorem hashKeyConsistent_surjective (seed : UInt32) :
    Function.Surjective (hashKeyConsistent · seed) := by
  intro hash
  -- the steps from the last one back to the first one, with the inverses of the two factors
  obtain ⟨x₃, h₃⟩ := (@mul_bijective 32 0x85ebca6b 0xa5cb9243 (by decide)).surjective hash.toBitVec
  obtain ⟨x₂, rfl⟩ := (@xorshift_bijective 32 17 (by decide)).surjective x₃
  obtain ⟨x₁, rfl⟩ := (rotateLeft_bijective 13).surjective x₂
  obtain ⟨x₀, rfl⟩ := (@mul_bijective 32 0x9e3779b9 0x144cbc89 (by decide)).surjective x₁
  obtain ⟨x, rfl⟩ := (xor_bijective seed.toBitVec).surjective x₀
  exact ⟨⟨x⟩, UInt32.toBitVec_inj.1 ((toBitVec_hashKeyConsistent _ _).trans h₃)⟩

/-- With everything but the source address given, every number is the hash of a flow. -/
theorem chHash_surjective (dst : Addr) (srcPort dstPort : UInt16) (hash : UInt32) :
    ∃ src : BitVec 32, SessionStateKey.chHash ⟨.ofIpv4 src, dst, srcPort, dstPort⟩ = hash := by
  obtain ⟨key, hkey⟩ := hashKeyConsistent_surjective 0x5737a28c hash
  -- what the hash adds to the source address
  let rest := UInt32.ofBitVec dst.ipv4 ^^^ (srcPort.toUInt32 <<< 16) ^^^ dstPort.toUInt32
  have hmix : key ^^^ rest ^^^ UInt32.ofBitVec dst.ipv4 ^^^ (srcPort.toUInt32 <<< 16) ^^^
      dstPort.toUInt32 = key := by
    rw [UInt32.xor_assoc (key ^^^ rest), UInt32.xor_assoc (key ^^^ rest), UInt32.xor_assoc key,
      UInt32.xor_self, UInt32.xor_zero]
  refine ⟨(key ^^^ rest).toBitVec, ?_⟩
  rw [SessionStateKey.chHash, Addr.ipv4_ofIpv4, UInt32.ofBitVec_toBitVec, hmix]
  exact hkey

/-! ## Calls of the handlers -/

/-- The keys of the call are those that a handler of TCP makes of the headers of one frame. -/
structure TcpCall.OfFrame (c : TcpCall cpus) : Prop where
  protocol : c.key.protocol = IPPROTO_TCP
  version : c.key.ipVersion = 6 ∨ c.key.ipVersion = 4 ∧
    ∃ src dst, c.stateKey.src = .ofIpv4 src ∧ c.key.vip = .ofIpv4 dst
  dst : c.stateKey.dst = c.key.vip
  ports : c.stateKey.srcPort = c.tcp.source ∧ c.stateKey.dstPort = c.tcp.dest
  port : c.key.port = swap16 c.tcp.dest

theorem Packet.tcpCallV4_ofFrame (p : Packet) (off : ℕ) (ctx : Ctx cpus) :
    (p.tcpCallV4 off ctx).OfFrame :=
  ⟨rfl, .inr ⟨rfl, _, _, rfl, rfl⟩, rfl, ⟨rfl, rfl⟩, rfl⟩

theorem Packet.tcpCallV6_ofFrame (p : Packet) (ctx : Ctx cpus) : (p.tcpCallV6 ctx).OfFrame :=
  ⟨rfl, .inl rfl, rfl, ⟨rfl, rfl⟩, rfl⟩

/-- The keys of a call of either function are made of the headers of one frame. -/
def Call.OfFrame : Call cpus → Prop
  | tcp c => c.OfFrame
  | udp c => c.key.protocol = IPPROTO_UDP

theorem Headers.call_ofFrame (h : Headers) (p : Packet) (ctx : Ctx cpus) :
    (h.call ctx p).OfFrame := by
  cases h with
  | tcpV4 off => exact p.tcpCallV4_ofFrame off ctx
  | tcpV6 => exact p.tcpCallV6_ofFrame ctx
  | udpV4 | udpV6 => rfl

theorem swap16_swap16 (v : UInt16) : swap16 (swap16 v) = v := by
  have hrotate : ∀ v, (swap16 v).toBitVec = v.toBitVec.rotateLeft 8 := fun _ => rfl
  refine UInt16.toBitVec_inj.1 ?_
  rw [hrotate, hrotate]
  ext i hi
  by_cases hlt : i < 8
  · have hback : ¬8 + i < 8 := by omega
    simp [BitVec.getElem_rotateLeft, hlt, hback]
  · have hwrap : i - 8 < 8 := by omega
    have hback : 8 + (i - 8) = i := by omega
    simp [BitVec.getElem_rotateLeft, hlt, hwrap, hback]

/-- A key of a TCP service, as frames have it. -/
def ServiceKey.OfTcp (key : ServiceKey) : Prop :=
  key.protocol = IPPROTO_TCP ∧
    (key.ipVersion = 6 ∨ key.ipVersion = 4 ∧ ∃ dst, key.vip = .ofIpv4 dst)

/-- The SYN of a flow to a service, from the port 1. -/
def TcpCall.syn (ctx : Ctx cpus) (key : ServiceKey) (src : BitVec 32) : TcpCall cpus where
  ctx := ctx
  stateKey := ⟨.ofIpv4 src, key.vip, 1, swap16 key.port⟩
  key := key
  tcp := ⟨1, swap16 key.port, false, true, false, false⟩
  packetLen := 54

theorem TcpCall.syn_ofFrame {key : ServiceKey} (hkey : key.OfTcp) (ctx : Ctx cpus)
    (src : BitVec 32) : (TcpCall.syn ctx key src).OfFrame where
  protocol := hkey.1
  version := hkey.2.imp_right fun ⟨h, dst, hdst⟩ => ⟨h, src, dst, rfl, hdst⟩
  dst := rfl
  ports := ⟨rfl, rfl⟩
  port := (swap16_swap16 key.port).symm

/-- Whatever the hash, there is a flow to the service with it. -/
theorem exists_syn (key : ServiceKey) (hash : UInt32) (ctx : Ctx cpus) :
    ∃ src, (TcpCall.syn ctx key src).stateKey.chHash = hash :=
  chHash_surjective key.vip 1 (swap16 key.port) hash

end L4Balancer
