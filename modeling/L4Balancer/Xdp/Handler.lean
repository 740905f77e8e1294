import L4Balancer.Bytes
import L4Balancer.Xdp.Ddos

/-!
# The packet program

`balancer_handler` of `balancer.bpf.c`, on the bytes of a frame. It reads the headers
(`Packet.headers`), lets the SYN filter check TCP over IPv4, except for pure SYNs, and
calls the handler of the protocol, which looks for a backend and, if there is one,
rewrites the frame:

* the handlers for IPv4 rewrite the MAC addresses (`Packet.redirect`);
* the handlers for IPv6 rewrite the destination address and port and the checksum too
  (`Packet.redirectV6`).

The machine `xdp` runs the program; an input is a frame on a CPU at a time, with the
entries of `syn_tracker` that the kernel evicts before it.
-/

namespace L4Balancer

open Bpf Bytes

variable {cpus : ℕ}

/-- The bytes of a frame. -/
abbrev Packet := List UInt8

/-- `bpf_ntohs` and `bpf_htons`. -/
def swap16 (v : UInt16) : UInt16 := (v <<< 8) ||| (v >>> 8)

/-- A port in network order, as the program sees it. -/
def Packet.port (p : Packet) (off : ℕ) : UInt16 := .ofNat (leNat (slice p off 2))

/-! ## Checksums -/

/-- `csum_replace16`. -/
def csumReplace16 (check old new : UInt16) : UInt16 :=
  let c := ((~~~check.toUInt32) &&& 0xffff) + ((~~~old.toUInt32) &&& 0xffff) + new.toUInt32
  let c := (c >>> 16) + (c &&& 0xffff)
  (~~~c).toUInt16

/-- `csum_replace32`. -/
def csumReplace32 (check : UInt16) (old new : UInt32) : UInt16 :=
  let c := (~~~check.toUInt32) &&& 0xffff
  let c := c + (((~~~old) >>> 16) + ((~~~old) &&& 0xffff))
  let c := c + ((new >>> 16) + (new &&& 0xffff))
  let c := (c >>> 16) + (c &&& 0xffff)
  let c := c + (c >>> 16)
  (~~~c).toUInt16

/-- The `i`th 32-bit word of an address. -/
def Addr.word (a : Addr) (i : ℕ) : UInt32 := .ofNat (a.toNat / 2 ^ (32 * i))

/-- `csum_replace_ipv6`. -/
def csumReplaceIpv6 (check : UInt16) (old new : Addr) : UInt16 :=
  (List.range 4).foldl (fun check i => csumReplace32 check (old.word i) (new.word i)) check

/-- `update_tcp_checksum_v6`, as the new checksum. -/
def updateTcpChecksumV6 (check : UInt16) (oldDaddr newDaddr : Addr) (oldDport newDport : UInt16) :
    UInt16 :=
  csumReplace16 (csumReplaceIpv6 check oldDaddr newDaddr) oldDport newDport

/-- `update_udp_checksum_v6`, as the new checksum. -/
def updateUdpChecksumV6 (check : UInt16) (oldDaddr newDaddr : Addr) (oldDport newDport : UInt16) :
    UInt16 :=
  let check := updateTcpChecksumV6 check oldDaddr newDaddr oldDport newDport
  if check = 0 then 0xffff else check

/-! ## Headers -/

/-- The headers the program handles; `off` is the offset of the transport header. -/
inductive Headers
  | tcpV4 (off : ℕ)
  | udpV4 (off : ℕ)
  | tcpV6
  | udpV6
  deriving DecidableEq

/-- The offset of the transport header. -/
def Headers.offset : Headers → ℕ
  | tcpV4 off | udpV4 off => off
  | tcpV6 | udpV6 => 54

/-- The byte at an offset. -/
def Packet.byte (p : Packet) (off : ℕ) : UInt8 := p.getD off 0

/-- What `balancer_handler` checks before it calls a handler. -/
def Packet.headers (p : Packet) : Option Headers :=
  if p.length < 14 then none
  else if p.port 12 = swap16 0x0800 then
    if p.length < 34 then none
    else
      let ipHeaderLen := (p.byte 14 &&& 0xf).toNat * 4
      if ipHeaderLen < 20 then none
      else if p.length < 14 + ipHeaderLen then none
      else
        let off := 14 + ipHeaderLen
        if p.byte 23 = IPPROTO_TCP then
          if p.length < off + 20 then none else some (.tcpV4 off)
        else if p.byte 23 = IPPROTO_UDP then
          if p.length < off + 8 then none else some (.udpV4 off)
        else none
  else if p.port 12 = swap16 0x86dd then
    if p.length < 54 then none
    else if p.byte 20 = IPPROTO_TCP then
      if p.length < 54 + 20 then none else some .tcpV6
    else if p.byte 20 = IPPROTO_UDP then
      if p.length < 54 + 8 then none else some .udpV6
    else none
  else none

namespace Packet

variable (p : Packet) (off : ℕ)

/-- The fields of the TCP header at `off`. -/
def tcpHdr : TcpHdr where
  source := p.port off
  dest := p.port (off + 2)
  fin := (p.byte (off + 13)).toBitVec.getLsbD 0
  syn := (p.byte (off + 13)).toBitVec.getLsbD 1
  rst := (p.byte (off + 13)).toBitVec.getLsbD 2
  ack := (p.byte (off + 13)).toBitVec.getLsbD 4

/-- The addresses of the IPv4 header and of the IPv6 header. -/
def saddrV4 : BitVec 32 := .ofNat 32 (leNat (slice p 26 4))
def daddrV4 : BitVec 32 := .ofNat 32 (leNat (slice p 30 4))
def saddrV6 : Addr := .ofNat 128 (leNat (slice p 22 16))
def daddrV6 : Addr := .ofNat 128 (leNat (slice p 38 16))

/-- The length of the frame, as the handlers compute it. -/
def packetLen : UInt32 := .ofNat p.length

/-! The calls that the handlers make. -/

def tcpCallV4 (ctx : Ctx cpus) : TcpCall cpus where
  ctx := ctx
  stateKey := ⟨.ofIpv4 p.saddrV4, .ofIpv4 p.daddrV4, (p.tcpHdr off).source, (p.tcpHdr off).dest⟩
  key := ⟨.ofIpv4 p.daddrV4, swap16 (p.tcpHdr off).dest, IPPROTO_TCP, 4⟩
  tcp := p.tcpHdr off
  packetLen := p.packetLen

def udpCallV4 (ctx : Ctx cpus) : UdpCall cpus where
  ctx := ctx
  key := ⟨.ofIpv4 p.daddrV4, swap16 (p.port (off + 2)), IPPROTO_UDP, 4⟩
  packetLen := p.packetLen

def tcpCallV6 (ctx : Ctx cpus) : TcpCall cpus where
  ctx := ctx
  stateKey := ⟨p.saddrV6, p.daddrV6, (p.tcpHdr 54).source, (p.tcpHdr 54).dest⟩
  key := ⟨p.daddrV6, swap16 (p.tcpHdr 54).dest, IPPROTO_TCP, 6⟩
  tcp := p.tcpHdr 54
  packetLen := p.packetLen

def udpCallV6 (ctx : Ctx cpus) : UdpCall cpus where
  ctx := ctx
  key := ⟨p.daddrV6, swap16 (p.port 56), IPPROTO_UDP, 6⟩
  packetLen := p.packetLen

/-! ## Handlers -/

/-- The MAC address of the backend becomes the destination, the old destination the source. -/
def redirect (b : Backend) : Packet :=
  overwrite (overwrite p 0 (leBytes 6 b.mac.toNat)) 6 (slice p 0 6)

/-- Moreover, the address and the port of the backend become the destination; the checksum is at
    the offset `checkOff`, and `update` computes the new one. -/
def redirectV6 (checkOff : ℕ) (update : UInt16 → Addr → Addr → UInt16 → UInt16 → UInt16)
    (b : Backend) : Packet :=
  let q := overwrite (p.redirect b) 38 (leBytes 16 b.ip.toNat)
  let q := overwrite q 56 (leBytes 2 (swap16 b.port).toNat)
  let check := update (p.port checkOff) p.daddrV6 b.ip (p.port 56) (swap16 b.port)
  overwrite q checkOff (leBytes 2 check.toNat)

/-- The end of the handlers: the frame goes out as `rewrite` has it, or there is no backend. -/
def answer (rewrite : Backend → Packet) (r : Option Backend × Maps cpus) :
    UInt8 × Packet × Maps cpus :=
  match r with
  | (none, m) => (3, p, m)
  | (some b, m) => (0, rewrite b, m)

variable (ctx : Ctx cpus) (m : Maps cpus)

/-- `tcp_balancer_handle_v4`. -/
def tcpBalancerHandleV4 : UInt8 × Packet × Maps cpus :=
  p.answer p.redirect ((tcpFinder cpus).step (p.tcpCallV4 off ctx) m)

/-- `udp_balancer_handle_v4`. -/
def udpBalancerHandleV4 : UInt8 × Packet × Maps cpus :=
  p.answer p.redirect ((udpFinder cpus).step (p.udpCallV4 off ctx) m)

/-- `tcp_balancer_handle_v6`. -/
def tcpBalancerHandleV6 : UInt8 × Packet × Maps cpus :=
  p.answer (p.redirectV6 70 updateTcpChecksumV6) ((tcpFinder cpus).step (p.tcpCallV6 ctx) m)

/-- `udp_balancer_handle_v6`. -/
def udpBalancerHandleV6 : UInt8 × Packet × Maps cpus :=
  p.answer (p.redirectV6 60 updateUdpChecksumV6) ((udpFinder cpus).step (p.udpCallV6 ctx) m)

end Packet

/-! ## The program -/

/-- The maps of the program. -/
structure XdpState (cpus : ℕ) where
  maps : Maps cpus
  ddos : DdosMaps

/-- A frame that arrives, and the sources that the kernel evicts from `syn_tracker` before it. -/
structure Arrival (cpus : ℕ) where
  ctx : Ctx cpus
  bytes : Packet
  evicted : List (BitVec 32) := []

/-- What `balancer_handler` makes of the result of a handler. -/
def XdpState.finish (s : XdpState cpus) (r : UInt8 × Packet × Maps cpus) :
    (Verdict × Packet) × XdpState cpus :=
  ((if r.1 > 0 then .pass else .tx, r.2.1), { s with maps := r.2.2 })

/-- `balancer_handler`: the verdict and the frame, and the maps. -/
def balancerHandler (ctx : Ctx cpus) (p : Packet) (s : XdpState cpus) :
    (Verdict × Packet) × XdpState cpus :=
  match p.headers with
  | none => ((.pass, p), s)
  | some (.tcpV4 off) =>
    if (p.tcpHdr off).pureSyn then s.finish (p.tcpBalancerHandleV4 off ctx s.maps)
    else
      match ddosCheckV4 s.ddos ctx.now p.saddrV4 (p.tcpHdr off) with
      | (verdict, ddos) =>
        let s := { s with ddos := ddos }
        if verdict = .drop then ((.drop, p), s)
        else s.finish (p.tcpBalancerHandleV4 off ctx s.maps)
  | some (.udpV4 off) => s.finish (p.udpBalancerHandleV4 off ctx s.maps)
  | some .tcpV6 => s.finish (p.tcpBalancerHandleV6 ctx s.maps)
  | some .udpV6 => s.finish (p.udpBalancerHandleV6 ctx s.maps)

/-- The machine of the program. -/
def xdp (cpus : ℕ) : Machine (XdpState cpus) (Arrival cpus) (Verdict × Packet) where
  step a s := balancerHandler a.ctx a.bytes { s with ddos := s.ddos.evict a.evicted }

/-! ## Steps -/

/-- What the program has checked of a frame whose headers it handles. -/
inductive Packet.HasHeaders (p : Packet) : Headers → Prop
  | tcpV4 {off : ℕ} : 34 ≤ off → off + 20 ≤ p.length → p.byte 23 = IPPROTO_TCP →
      HasHeaders p (.tcpV4 off)
  | udpV4 {off : ℕ} : 34 ≤ off → off + 8 ≤ p.length → p.byte 23 = IPPROTO_UDP →
      HasHeaders p (.udpV4 off)
  | tcpV6 : 54 + 20 ≤ p.length → p.byte 20 = IPPROTO_TCP → HasHeaders p .tcpV6
  | udpV6 : 54 + 8 ≤ p.length → p.byte 20 = IPPROTO_UDP → HasHeaders p .udpV6

theorem Packet.hasHeaders {p : Packet} {h : Headers} (hh : p.headers = some h) :
    p.HasHeaders h := by
  rw [headers] at hh
  dsimp only at hh
  split_ifs at hh with _ _ _ hihl _ htcp hlen hudp hlen _ _ htcp hlen hudp hlen
  all_goals obtain rfl := Option.some.inj hh
  · exact .tcpV4 (by omega) (not_lt.1 hlen) htcp
  · exact .udpV4 (by omega) (not_lt.1 hlen) hudp
  · exact .tcpV6 (not_lt.1 hlen) htcp
  · exact .udpV6 (not_lt.1 hlen) hudp

/-- The call that the handler of the headers makes. -/
def Headers.call (ctx : Ctx cpus) (p : Packet) : Headers → Call cpus
  | tcpV4 off => .tcp (p.tcpCallV4 off ctx)
  | udpV4 off => .udp (p.udpCallV4 off ctx)
  | tcpV6 => .tcp (p.tcpCallV6 ctx)
  | udpV6 => .udp (p.udpCallV6 ctx)

/-- How the handler of the headers rewrites the frame for a backend. -/
def Headers.rewrite (p : Packet) : Headers → Backend → Packet
  | tcpV4 _ | udpV4 _ => p.redirect
  | tcpV6 => p.redirectV6 70 updateTcpChecksumV6
  | udpV6 => p.redirectV6 60 updateUdpChecksumV6

/-- What the SYN filter says of a frame; it only checks TCP over IPv4 that is not a pure SYN. -/
def Arrival.filterVerdict (s : XdpState cpus) (a : Arrival cpus) : Verdict :=
  match a.bytes.headers with
  | some (.tcpV4 off) =>
    if (a.bytes.tcpHdr off).pureSyn then .pass
    else (ddosCheckV4 (s.ddos.evict a.evicted) a.ctx.now a.bytes.saddrV4 (a.bytes.tcpHdr off)).1
  | _ => .pass

/-- What the program does with a frame, with its verdict, the frame and the maps after it: it has
    no headers that are handled; or the filter drops it; or there is no backend for it; or it is
    rewritten for a backend. -/
inductive XdpStep (a : Arrival cpus) (s : XdpState cpus) : Verdict → Packet → Maps cpus → Prop
  | ignored : a.bytes.headers = none → XdpStep a s .pass a.bytes s.maps
  | filtered {off : ℕ} : a.bytes.headers = some (.tcpV4 off) →
      (a.bytes.tcpHdr off).pureSyn = false → a.filterVerdict s = .drop →
      XdpStep a s .drop a.bytes s.maps
  | unmatched {h : Headers} : a.bytes.headers = some h → a.filterVerdict s ≠ .drop →
      (finder cpus).out (h.call a.ctx a.bytes) s.maps = none →
      XdpStep a s .pass a.bytes ((finder cpus).next (h.call a.ctx a.bytes) s.maps)
  | forwarded {h : Headers} {b : Backend} : a.bytes.headers = some h → a.filterVerdict s ≠ .drop →
      (finder cpus).out (h.call a.ctx a.bytes) s.maps = some b →
      XdpStep a s .tx (h.rewrite a.bytes b) ((finder cpus).next (h.call a.ctx a.bytes) s.maps)

/-- The end of a handler, whose call `h.call` was answered. -/
theorem XdpStep.of_answer {a : Arrival cpus} {s s' : XdpState cpus} {h : Headers}
    (hh : a.bytes.headers = some h) (hf : a.filterVerdict s ≠ .drop)
    {r : Option Backend × Maps cpus} (hr : (finder cpus).step (h.call a.ctx a.bytes) s.maps = r) :
    let q := s'.finish (a.bytes.answer (h.rewrite a.bytes) r)
    XdpStep a s q.1.1 q.1.2 q.2.maps := by
  have hout : (finder cpus).out (h.call a.ctx a.bytes) s.maps = r.1 := congrArg Prod.fst hr
  have hnext : (finder cpus).next (h.call a.ctx a.bytes) s.maps = r.2 := congrArg Prod.snd hr
  obtain ⟨_ | b, m⟩ := r
  · obtain rfl : _ = m := hnext
    exact .unmatched hh hf hout
  · obtain rfl : _ = m := hnext
    exact .forwarded hh hf hout

theorem XdpStep.of_next (a : Arrival cpus) (s : XdpState cpus) :
    XdpStep a s ((xdp cpus).out a s).1 ((xdp cpus).out a s).2 ((xdp cpus).next a s).maps := by
  have hstep : (xdp cpus).step a s =
    balancerHandler a.ctx a.bytes { s with ddos := s.ddos.evict a.evicted } := rfl
  have hfilter : a.filterVerdict s = match a.bytes.headers with
    | some (.tcpV4 off) =>
      if (a.bytes.tcpHdr off).pureSyn then .pass
      else (ddosCheckV4 (s.ddos.evict a.evicted) a.ctx.now a.bytes.saddrV4 (a.bytes.tcpHdr off)).1
    | _ => .pass := rfl
  rw [Machine.out, Machine.next, hstep, balancerHandler]
  cases hh : a.bytes.headers with
  | none => exact .ignored hh
  | some h =>
    rw [hh] at hfilter
    cases h with
    | tcpV4 off =>
      dsimp only at hfilter ⊢
      split_ifs with hsyn hdrop
      · rw [if_pos hsyn] at hfilter
        exact XdpStep.of_answer hh (by simp [hfilter]) rfl
      · rw [if_neg hsyn, hdrop] at hfilter
        exact .filtered hh (Bool.eq_false_iff.2 hsyn) hfilter
      · rw [if_neg hsyn] at hfilter
        exact XdpStep.of_answer hh (hfilter ▸ hdrop) rfl
    | udpV4 off => exact XdpStep.of_answer hh (by simp [hfilter]) rfl
    | tcpV6 => exact XdpStep.of_answer hh (by simp [hfilter]) rfl
    | udpV6 => exact XdpStep.of_answer hh (by simp [hfilter]) rfl

/-- A SYN over IPv4 to the port 80 of 10.0.0.1. -/
def demoSyn : Packet :=
  List.replicate 12 0 ++ [8, 0, 0x45] ++ List.replicate 8 0 ++ 6 :: List.replicate 6 0 ++
    [10, 0, 0, 1, 0, 1, 0, 80] ++ List.replicate 9 0 ++ 2 :: List.replicate 6 0

end L4Balancer
