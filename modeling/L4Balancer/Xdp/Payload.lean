import L4Balancer.Xdp.Dsr
import L4Balancer.Xdp.Transport

/-!
# Payloads are carried through

`balancer_handler` reads the headers of a frame and its length, and no more. So it does to a
frame what it does to the frame with its payload blanked out (`Packet.blank`), and sends the
payload along as it is (`Packet.fill`): along every run, with the same verdicts and the same
maps (`payload_carried`).

The part that is read ends with the transport header, without its options (`Packet.readLen`);
of a frame whose headers are not handled it ends with the protocol of IPv4.
-/

namespace L4Balancer

open Bytes

variable {cpus : ℕ} {p : Packet} {h : Headers} {off n : ℕ}

namespace Packet

/-- The length of the part of a frame that the program reads. -/
def readLen (p : Packet) : ℕ := p.headers.elim 24 fun h => h.offset + h.transportLen

/-- The frame with zeros behind the part that is read. -/
def blank (p : Packet) : Packet :=
  p.take p.readLen ++ List.replicate (p.length - p.readLen) 0

/-- A frame with what `p` has behind the part that is read. -/
def fill (p q : Packet) : Packet := q.take p.readLen ++ p.drop p.readLen

theorem readLen_of_headers (hh : p.headers = some h) :
    p.readLen = h.offset + h.transportLen ∧ 42 ≤ p.readLen ∧ p.readLen ≤ p.length := by
  have hlen : p.readLen = h.offset + h.transportLen := by rw [readLen, hh, Option.elim_some]
  refine ⟨hlen, ?_⟩
  rw [hlen]
  cases hasHeaders hh with
  | @tcpV4 off hoff hle => exact ⟨(by omega : 42 ≤ off + 20), hle⟩
  | @udpV4 off hoff hle => exact ⟨(by omega : 42 ≤ off + 8), hle⟩
  | tcpV6 hle | udpV6 hle => exact ⟨by decide, hle⟩

theorem le_readLen (p : Packet) : 24 ≤ p.readLen := by
  cases hh : p.headers with
  | none => rw [readLen, hh, Option.elim_none]
  | some h => exact (readLen_of_headers hh).2.1.trans' (by decide)

theorem length_blank (p : Packet) : p.blank.length = p.length := by
  rw [blank, List.length_append, List.length_take, List.length_replicate]
  omega

theorem fill_blank (p : Packet) : p.fill p.blank = p := by
  rw [fill, blank]
  rcases le_total p.readLen p.length with hle | hle
  · rw [List.take_left' (List.length_take_of_le hle), List.take_append_drop]
  · rw [List.take_of_length_le hle, List.drop_of_length_le hle, Nat.sub_eq_zero_of_le hle,
      List.replicate_zero, List.append_nil, List.append_nil, List.take_of_length_le hle]

/-- The part that is read is the same. -/
theorem slice_blank (h : off + n ≤ p.readLen) (hlen : off + n ≤ p.length) :
    slice p.blank off n = slice p off n := by
  have hle : off + n ≤ (p.take p.readLen).length := by
    rw [List.length_take]
    omega
  rw [blank, slice_append hle, ← slice_append (q := p.drop p.readLen) hle, List.take_append_drop]

theorem byte_blank (off : ℕ) (h : off + 1 ≤ p.readLen) (hlen : off + 1 ≤ p.length) :
    p.blank.byte off = p.byte off := by
  rw [byte_eq, byte_eq, slice_blank h hlen]

theorem port_blank (off : ℕ) (h : off + 2 ≤ p.readLen) (hlen : off + 2 ≤ p.length) :
    p.blank.port off = p.port off := by
  rw [port, port, slice_blank h hlen]

theorem headers_blank (p : Packet) : p.blank.headers = p.headers := by
  have hread := p.le_readLen
  -- a shorter frame has no headers, and nothing to blank out
  by_cases hlen : 24 ≤ p.length
  · rw [headers, headers, length_blank, port_blank 12 (by omega) (by omega),
      byte_blank 14 (by omega) (by omega), byte_blank 20 (by omega) (by omega),
      byte_blank 23 (by omega) (by omega)]
  · have hle : p.length ≤ p.readLen := by omega
    rw [blank, List.take_of_length_le hle, Nat.sub_eq_zero_of_le hle, List.replicate_zero,
      List.append_nil]

theorem tcpHdr_blank (h : off + 20 ≤ p.readLen) (hlen : p.readLen ≤ p.length) :
    p.blank.tcpHdr off = p.tcpHdr off := by
  rw [tcpHdr, tcpHdr, port_blank off (by omega) (by omega), port_blank (off + 2) (by omega) (by omega),
    byte_blank (off + 13) (by omega) (by omega)]

theorem saddrV4_blank (hh : p.headers = some h) : p.blank.saddrV4 = p.saddrV4 := by
  obtain ⟨-, hread, hlen⟩ := readLen_of_headers hh
  rw [saddrV4, saddrV4, slice_blank (by omega) (by omega)]

/-- The call for a frame is that for the blank one. -/
theorem call_blank (hh : p.headers = some h) (ctx : Ctx cpus) :
    h.call ctx p.blank = h.call ctx p := by
  obtain ⟨heq, hread, hlen⟩ := readLen_of_headers hh
  have hs : ∀ {i n}, i + n ≤ p.readLen → slice p.blank i n = slice p i n := fun hi =>
    slice_blank hi (hi.trans hlen)
  have hport : ∀ {i}, i + 2 ≤ p.readLen → p.blank.port i = p.port i := fun hi =>
    port_blank _ hi (hi.trans hlen)
  have hpacket : p.blank.packetLen = p.packetLen := by rw [packetLen, packetLen, length_blank]
  have hsaddr := saddrV4_blank hh
  have hdaddr : p.blank.daddrV4 = p.daddrV4 := by rw [daddrV4, daddrV4, hs (by omega)]
  cases h with
  | tcpV4 off =>
    have hend : p.readLen = off + 20 := heq
    simp only [Headers.call, tcpCallV4, hpacket, hsaddr, hdaddr, tcpHdr_blank hend.ge hlen]
  | udpV4 off =>
    have hend : p.readLen = off + 8 := heq
    simp only [Headers.call, udpCallV4, hpacket, hdaddr, hport (i := off + 2) (by omega)]
  | tcpV6 =>
    have hend : p.readLen = 54 + 20 := heq
    simp only [Headers.call, tcpCallV6, hpacket, tcpHdr_blank hend.ge hlen, saddrV6, daddrV6,
      hs (i := 22) (n := 16) (by omega), hs (i := 38) (n := 16) (by omega)]
  | udpV6 =>
    have hend : p.readLen = 54 + 8 := heq
    simp only [Headers.call, udpCallV6, hpacket, daddrV6, hport (i := 56) (by omega),
      hs (i := 38) (n := 16) (by omega)]

/-! ## Writing -/

/-- The rewriting for IPv4 leaves what is appended, and the length. -/
theorem redirect_append (hlen : 14 ≤ p.length) (q : Packet) (b : Backend) :
    redirect (p ++ q) b = p.redirect b ++ q ∧ (p.redirect b).length = p.length := by
  have hdst : (leBytes 6 b.mac.toNat).length = 6 := length_leBytes 6 _
  have hsrc : (slice p 0 6).length = 6 := length_slice (by omega)
  have hfirst : (overwrite p 0 (leBytes 6 b.mac.toNat)).length = p.length :=
    length_overwrite (by omega)
  refine ⟨?_, length_redirect hlen b⟩
  rw [redirect, redirect, slice_append (by omega), overwrite_append (by omega),
    overwrite_append (by omega)]

/-- So does the rewriting for IPv6. -/
theorem redirectV6_append {checkOff : ℕ}
    {update : UInt16 → Addr → Addr → UInt16 → UInt16 → UInt16} (hlen : 58 ≤ p.length)
    (hcheck : checkOff + 2 ≤ p.length) (q : Packet) (b : Backend) :
    redirectV6 (p ++ q) checkOff update b = p.redirectV6 checkOff update b ++ q ∧
      (p.redirectV6 checkOff update b).length = p.length := by
  have hport : ∀ {i}, i + 2 ≤ p.length → port (p ++ q) i = p.port i := fun hi => by
    rw [port, port, slice_append hi]
  have hdaddr : daddrV6 (p ++ q) = p.daddrV6 := by rw [daddrV6, daddrV6, slice_append (by omega)]
  obtain ⟨happend, hredirect⟩ := redirect_append (by omega : 14 ≤ p.length) q b
  rw [redirectV6, redirectV6, hport hcheck, hport (by omega), hdaddr, happend]
  -- the three writes, each inside of the part that is read
  have hA : (leBytes 16 b.ip.toNat).length = 16 := length_leBytes _ _
  have hD : (leBytes 2 (swap16 b.port).toNat).length = 2 := length_leBytes _ _
  have hC : (leBytes 2 (update (p.port checkOff) p.daddrV6 b.ip (p.port 56)
    (swap16 b.port)).toNat).length = 2 := length_leBytes _ _
  generalize leBytes 16 b.ip.toNat = A at hA
  generalize leBytes 2 (swap16 b.port).toNat = D at hD
  generalize leBytes 2 (update (p.port checkOff) p.daddrV6 b.ip (p.port 56)
    (swap16 b.port)).toNat = C at hC
  generalize p.redirect b = r at hredirect
  have h₁ : 38 + A.length ≤ r.length := by omega
  have hlen₁ := length_overwrite h₁
  have h₂ : 56 + D.length ≤ (overwrite r 38 A).length := by omega
  have hlen₂ := length_overwrite h₂
  have h₃ : checkOff + C.length ≤ (overwrite (overwrite r 38 A) 56 D).length := by omega
  rw [overwrite_append h₁, overwrite_append h₂, overwrite_append h₃]
  exact ⟨rfl, by rw [length_overwrite h₃, hlen₂, hlen₁, hredirect]⟩

theorem rewrite_append (hlen : 14 ≤ p.length) (hend : h.offset + h.transportLen ≤ p.length)
    (q : Packet) (b : Backend) :
    h.rewrite (p ++ q) b = h.rewrite p b ++ q ∧ (h.rewrite p b).length = p.length := by
  cases h with
  | tcpV4 off | udpV4 off => exact redirect_append hlen q b
  | tcpV6 =>
    have hend : 54 + 20 ≤ p.length := hend
    exact redirectV6_append (by omega) (by omega) q b
  | udpV6 =>
    have hend : 54 + 8 ≤ p.length := hend
    exact redirectV6_append (by omega) (by omega) q b

/-- The frame goes out as the blank one does, with its own payload. -/
theorem rewrite_blank (hh : p.headers = some h) (b : Backend) :
    p.fill (h.rewrite p.blank b) = h.rewrite p b := by
  obtain ⟨heq, hread, hle⟩ := readLen_of_headers hh
  have hlen : (p.take p.readLen).length = p.readLen := List.length_take_of_le hle
  have hrewrite := fun q => rewrite_append (by omega : 14 ≤ (p.take p.readLen).length)
    (heq.ge.trans hlen.ge) q b
  -- what is rewritten lies in front, so that zeros and payload may be exchanged behind it
  calc p.fill (h.rewrite p.blank b)
      = (h.rewrite (p.take p.readLen) b ++ List.replicate (p.length - p.readLen) 0).take p.readLen ++
          p.drop p.readLen := by rw [fill, blank, (hrewrite _).1]
    _ = h.rewrite (p.take p.readLen) b ++ p.drop p.readLen := by
      rw [List.take_left' ((hrewrite []).2.trans hlen)]
    _ = h.rewrite p b := by rw [← (hrewrite _).1, List.take_append_drop]

end Packet

/-! ## Runs -/

/-- The arrival of the frame with its payload blanked out. -/
def Arrival.blank (a : Arrival cpus) : Arrival cpus := { a with bytes := a.bytes.blank }

/-- A frame with the payload of another one. -/
def Packet.carry (p : Packet) (o : Verdict × Packet) : Verdict × Packet := (o.1, p.fill o.2)

/-- The end of the handlers for a frame is that for the blank one. -/
theorem finish_blank (hh : p.headers = some h) (s : XdpState cpus) (r : Option Backend × Maps cpus) :
    s.finish (p.answer (h.rewrite p) r) =
      Prod.map p.carry id (s.finish (p.blank.answer (h.rewrite p.blank) r)) := by
  obtain ⟨_ | b, m⟩ := r
  · exact Prod.ext (Prod.ext rfl p.fill_blank.symm) rfl
  · exact Prod.ext (Prod.ext rfl (Packet.rewrite_blank hh b).symm) rfl

theorem balancerHandler_blank (ctx : Ctx cpus) (p : Packet) (s : XdpState cpus) :
    balancerHandler ctx p s = Prod.map p.carry id (balancerHandler ctx p.blank s) := by
  rw [balancerHandler, balancerHandler, Packet.headers_blank]
  have hfill : ∀ v, p.carry (v, p.blank) = (v, p) := fun v => Prod.ext rfl p.fill_blank
  cases hh : p.headers with
  | none => exact Prod.ext (hfill .pass).symm rfl
  | some h =>
    have hcall := Packet.call_blank hh ctx
    cases h with
    | tcpV4 off =>
      have hcall := Call.tcp.inj hcall
      have htcp : p.blank.tcpHdr off = p.tcpHdr off := congrArg TcpCall.tcp hcall
      have hfinish : ∀ s : XdpState cpus, s.finish (p.tcpBalancerHandleV4 off ctx s.maps) =
          Prod.map p.carry id (s.finish (p.blank.tcpBalancerHandleV4 off ctx s.maps)) := fun s => by
        rw [Packet.tcpBalancerHandleV4, Packet.tcpBalancerHandleV4, hcall]
        exact finish_blank hh s _
      -- a pure SYN, a packet that the filter drops, and one that it lets through
      dsimp only
      rw [htcp, Packet.saddrV4_blank hh]
      split_ifs
      · exact hfinish s
      · exact Prod.ext (hfill .drop).symm rfl
      · exact hfinish _
    | udpV4 off =>
      dsimp only
      rw [Packet.udpBalancerHandleV4, Packet.udpBalancerHandleV4, Call.udp.inj hcall]
      exact finish_blank hh s _
    | tcpV6 =>
      dsimp only
      rw [Packet.tcpBalancerHandleV6, Packet.tcpBalancerHandleV6, Call.tcp.inj hcall]
      exact finish_blank hh s _
    | udpV6 =>
      dsimp only
      rw [Packet.udpBalancerHandleV6, Packet.udpBalancerHandleV6, Call.udp.inj hcall]
      exact finish_blank hh s _

/-- Payloads are carried through. For every state and every run of frames, the program answers each
    frame as it answers the frame with its payload blanked out, in the run of such frames, but for the
    payload, which goes out as it came in; and it ends in the same state. -/
theorem payload_carried (s : XdpState cpus) (as : List (Arrival cpus)) :
    (xdp cpus).outs s as = List.zipWith (fun a o => a.bytes.carry o) as
        ((xdp cpus).outs s (as.map Arrival.blank)) ∧
      (xdp cpus).exec s as = (xdp cpus).exec s (as.map Arrival.blank) := by
  induction as generalizing s with
  | nil => exact ⟨rfl, rfl⟩
  | cons a as ih =>
    have hstep : (xdp cpus).step a s = Prod.map a.bytes.carry id ((xdp cpus).step a.blank s) :=
      balancerHandler_blank a.ctx a.bytes _
    have hnext : (xdp cpus).next a s = (xdp cpus).next a.blank s := by
      rw [Machine.next, hstep]
      rfl
    have hout : (xdp cpus).out a s = a.bytes.carry ((xdp cpus).out a.blank s) := by
      rw [Machine.out, hstep]
      rfl
    obtain ⟨houts, hexec⟩ := ih ((xdp cpus).next a.blank s)
    rw [List.map_cons, Machine.outs, Machine.outs, Machine.exec, Machine.exec, List.zipWith_cons_cons,
      hnext, hout]
    exact ⟨congrArg _ houts, hexec⟩

end L4Balancer
