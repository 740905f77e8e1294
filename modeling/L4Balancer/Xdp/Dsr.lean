import L4Balancer.Xdp.Checksum

/-!
# Direct server return

A frame that is sent to a backend is meant to be the frame that came in, with the MAC
address of the backend as its destination and the old destination as its source; any
other frame is left alone (`Arrival.L2Only`).

The handlers for IPv4 do this. Those for IPv6 also write the address and the port of
the backend and a new checksum, so that `dsr_iff` has to ask of a frame over IPv6 that
these are what it has already (`Arrival.Untouched`). A checksum that is updated with no
change in what it covers keeps its value, except that `0xffff` becomes `0`
(`updateTcpChecksumV6_self`).
-/

namespace L4Balancer

open Bpf Bytes

variable {cpus : ℕ} {p : Packet} {b : Backend}

/-! ## Rewriting -/

theorem length_redirect (h : 14 ≤ p.length) (b : Backend) : (p.redirect b).length = p.length := by
  have hs : (slice p 0 6).length = 6 := length_slice (by omega)
  have hm : (overwrite p 0 (leBytes 6 b.mac.toNat)).length = p.length :=
    length_overwrite (by rw [length_leBytes]; omega)
  rw [Packet.redirect, length_overwrite (by rw [hm, hs]; omega), hm]

/-- The MAC addresses of a frame after a redirection, and the rest of it. -/
theorem redirect_spec (h : 14 ≤ p.length) (b : Backend) :
    slice (p.redirect b) 0 6 = leBytes 6 b.mac.toNat ∧ slice (p.redirect b) 6 6 = slice p 0 6 ∧
      (p.redirect b).drop 12 = p.drop 12 := by
  have hs : (slice p 0 6).length = 6 := length_slice (by omega)
  have hfit : 0 + (leBytes 6 b.mac.toNat).length ≤ p.length := by
    rw [length_leBytes]
    omega
  have hfit' : 6 + (slice p 0 6).length ≤ (overwrite p 0 (leBytes 6 b.mac.toNat)).length := by
    rw [length_overwrite hfit, hs]
    omega
  refine ⟨?_, ?_, ?_⟩
  · have := slice_overwrite_self hfit
    rw [length_leBytes] at this
    rw [Packet.redirect, slice_overwrite_of_le hfit' le_rfl, this]
  · have := slice_overwrite_self hfit'
    rwa [hs] at this
  · rw [Packet.redirect, drop_overwrite_of_le hfit' (by rw [hs]),
      drop_overwrite_of_le hfit (by rw [length_leBytes]; omega)]

/-- The bytes of a port are those in the frame exactly if it is the port there. -/
theorem leBytes_eq_slice_iff {off : ℕ} (h : off + 2 ≤ p.length) (v : UInt16) :
    leBytes 2 v.toNat = slice p off 2 ↔ v = p.port off := by
  have hlen : (slice p off 2).length = 2 := length_slice h
  have hlt := leNat_lt (slice p off 2)
  have heq := @leBytes_eq_iff (slice p off 2) v.toNat (by rw [hlen]; exact v.toNat_lt)
  rw [hlen] at hlt heq
  rw [heq, Packet.port, ← UInt16.toNat_inj, UInt16.toNat_ofNat_of_lt' hlt]
  exact eq_comm

theorem leBytes_eq_daddr_iff (h : 54 ≤ p.length) (a : Addr) :
    leBytes 16 a.toNat = slice p 38 16 ↔ a = p.daddrV6 := by
  have hlen : (slice p 38 16).length = 16 := length_slice (by omega)
  have hlt := leNat_lt (slice p 38 16)
  have heq := @leBytes_eq_iff (slice p 38 16) a.toNat (by rw [hlen]; exact a.isLt)
  rw [hlen] at hlt heq
  have hlt : leNat (slice p 38 16) < 2 ^ 128 := hlt
  rw [heq, Packet.daddrV6, ← BitVec.toNat_inj, BitVec.toNat_ofNat, Nat.mod_eq_of_lt hlt]
  exact eq_comm

variable {checkOff : ℕ}

/-- The frame after the rewriting for IPv6: from offset 14 on it is the one that came in exactly if
    the address, the port and the checksum are. -/
theorem redirectV6_spec (update : UInt16 → Addr → Addr → UInt16 → UInt16 → UInt16)
    (h : checkOff + 2 ≤ p.length) (hoff : 58 ≤ checkOff) (b : Backend) :
    slice (p.redirectV6 checkOff update b) 0 6 = leBytes 6 b.mac.toNat ∧
      slice (p.redirectV6 checkOff update b) 6 6 = slice p 0 6 ∧
      ((p.redirectV6 checkOff update b).drop 14 = p.drop 14 ↔
        b.ip = p.daddrV6 ∧ swap16 b.port = p.port 56 ∧
          update (p.port checkOff) p.daddrV6 b.ip (p.port 56) (swap16 b.port) = p.port checkOff) := by
  have h14 : 14 ≤ p.length := by omega
  obtain ⟨hdst, hsrc, hrest⟩ := redirect_spec h14 b
  have hlen := length_redirect h14 b
  rw [Packet.redirectV6]
  rw [← leBytes_eq_daddr_iff (by omega), ← leBytes_eq_slice_iff (by omega),
    ← leBytes_eq_slice_iff h]
  -- the three writes, each inside of the frame
  have hA : (leBytes 16 b.ip.toNat).length = 16 := length_leBytes _ _
  have hD : (leBytes 2 (swap16 b.port).toNat).length = 2 := length_leBytes _ _
  have hC : (leBytes 2 (update (p.port checkOff) p.daddrV6 b.ip (p.port 56)
    (swap16 b.port)).toNat).length = 2 := length_leBytes _ _
  generalize leBytes 16 b.ip.toNat = A at hA
  generalize leBytes 2 (swap16 b.port).toNat = D at hD
  generalize leBytes 2 (update (p.port checkOff) p.daddrV6 b.ip (p.port 56)
    (swap16 b.port)).toNat = C at hC
  generalize p.redirect b = q at *
  have h₁ : 38 + A.length ≤ q.length := by omega
  have hlen₁ := length_overwrite h₁
  have h₂ : 56 + D.length ≤ (overwrite q 38 A).length := by omega
  have hlen₂ := length_overwrite h₂
  have h₃ : checkOff + C.length ≤ (overwrite (overwrite q 38 A) 56 D).length := by omega
  refine ⟨?_, ?_, ?_⟩
  · rw [slice_overwrite_of_le h₃ (by omega), slice_overwrite_of_le h₂ (by omega),
      slice_overwrite_of_le h₁ (by omega), hdst]
  · rw [slice_overwrite_of_le h₃ (by omega), slice_overwrite_of_le h₂ (by omega),
      slice_overwrite_of_le h₁ (by omega), hsrc]
  constructor
  · intro hdrop
    refine ⟨?_, ?_, ?_⟩
    · rw [← slice_eq_of_drop hdrop (by norm_num) 16, slice_overwrite_of_le h₃ (by omega),
        slice_overwrite_of_le h₂ (by omega), ← hA, slice_overwrite_self h₁]
    · rw [← slice_eq_of_drop hdrop (by norm_num) 2, slice_overwrite_of_le h₃ (by omega), ← hD,
        slice_overwrite_self h₂]
    · rw [← slice_eq_of_drop hdrop (by omega) 2, ← hC, slice_overwrite_self h₃]
  · rintro ⟨hA', hD', hC'⟩
    have hslice : ∀ off n, 14 ≤ off → slice q off n = slice p off n :=
      fun off n hle => slice_eq_of_drop hrest (by omega) n
    have hq₁ : overwrite q 38 A = q := overwrite_slice h₁ (by rw [hA, hslice _ _ (by omega), hA'])
    rw [hq₁] at h₂ h₃ ⊢
    have hq₂ : overwrite q 56 D = q := overwrite_slice h₂ (by rw [hD, hslice _ _ (by omega), hD'])
    rw [hq₂] at h₃ ⊢
    rw [overwrite_slice h₃ (by rw [hC, hslice _ _ (by omega), hC'])]
    exact (List.drop_drop (i := 2) (j := 12) (l := q)).symm.trans
      ((congrArg (List.drop 2) hrest).trans List.drop_drop)

/-- An update that changes only the checksum `bad` of a frame that stays otherwise. -/
theorem redirectV6_drop_iff {update : UInt16 → Addr → Addr → UInt16 → UInt16 → UInt16}
    {bad fixed : UInt16}
    (hself : ∀ c a v, update c a a v v = if c = bad then fixed else c) (hne : fixed ≠ bad)
    (h : checkOff + 2 ≤ p.length) (hoff : 58 ≤ checkOff) (b : Backend) :
    (p.redirectV6 checkOff update b).drop 14 = p.drop 14 ↔
      b.ip = p.daddrV6 ∧ swap16 b.port = p.port 56 ∧ p.port checkOff ≠ bad := by
  rw [(redirectV6_spec update h hoff b).2.2]
  refine and_congr_right fun hip => and_congr_right fun hport => ?_
  rw [hip, hport, hself]
  split_ifs with hc
  · rw [hc]
    exact iff_of_false hne (by simp)
  · exact iff_of_true rfl hc

/-! ## Frames that go out -/

/-- The backend that the handler of a frame gets. -/
def Arrival.selected (m : Maps cpus) (a : Arrival cpus) : Option Backend :=
  a.bytes.headers.bind fun h => (finder cpus).out (h.call a.ctx a.bytes) m

/-- A frame that goes out has the MAC address of its backend as the destination, its old destination
    as the source, and the bytes that came in from the offset 14 on; any other frame is unchanged. -/
def Arrival.L2Only (s : XdpState cpus) (a : Arrival cpus) : Prop :=
  let r := (xdp cpus).out a s
  (r.1 = .tx → ∃ b, a.selected s.maps = some b ∧ slice r.2 0 6 = leBytes 6 b.mac.toNat ∧
    slice r.2 6 6 = slice a.bytes 0 6 ∧ r.2.drop 14 = a.bytes.drop 14) ∧
  (r.1 ≠ .tx → r.2 = a.bytes)

/-- A frame over IPv6 that gets a backend is addressed to this backend and its port already, and has
    a checksum that an update without a change keeps. -/
def Arrival.Untouched (m : Maps cpus) (a : Arrival cpus) : Prop :=
  ∀ b, a.selected m = some b →
    (a.bytes.headers = some .tcpV6 → b.ip = a.bytes.daddrV6 ∧ swap16 b.port = a.bytes.port 56 ∧
      a.bytes.port 70 ≠ 0xffff) ∧
    (a.bytes.headers = some .udpV6 → b.ip = a.bytes.daddrV6 ∧ swap16 b.port = a.bytes.port 56 ∧
      a.bytes.port 60 ≠ 0)

/-- Of a frame `q` that goes out to the backend `b`, only the bytes from 14 on matter. -/
theorem l2Only_iff {q : Packet} {rest : Prop} (hdst : slice q 0 6 = leBytes 6 b.mac.toNat)
    (hsrc : slice q 6 6 = slice p 0 6) (hrest : q.drop 14 = p.drop 14 ↔ rest) :
    ((Verdict.tx = .tx → ∃ b', some b = some b' ∧ slice q 0 6 = leBytes 6 b'.mac.toNat ∧
        slice q 6 6 = slice p 0 6 ∧ q.drop 14 = p.drop 14) ∧
      (Verdict.tx ≠ .tx → q = p)) ↔ rest := by
  rw [← hrest]
  constructor
  · rintro ⟨h, -⟩
    obtain ⟨b', -, -, -, h⟩ := h rfl
    exact h
  · exact fun h => ⟨fun _ => ⟨b, rfl, hdst, hsrc, h⟩, fun hne => absurd rfl hne⟩

theorem redirect_drop (h : 14 ≤ p.length) (b : Backend) : (p.redirect b).drop 14 = p.drop 14 := by
  have hdrop := congrArg (List.drop 2) (redirect_spec h b).2.2
  rwa [List.drop_drop, List.drop_drop] at hdrop

theorem Packet.length_of_headers {h : Headers} (hh : p.headers = some h) : 14 ≤ p.length ∧
    (h = .tcpV6 → 74 ≤ p.length) ∧ (h = .udpV6 → 62 ≤ p.length) := by
  cases hasHeaders hh with
  | tcpV4 hoff hlen | udpV4 hoff hlen =>
    exact ⟨by omega, fun he => (nomatch he), fun he => (nomatch he)⟩
  | tcpV6 hlen => exact ⟨by omega, fun _ => hlen, fun he => (nomatch he)⟩
  | udpV6 hlen => exact ⟨by omega, fun he => (nomatch he), fun _ => hlen⟩

/-- L2 direct server return. For every frame and every state of the maps, a frame that goes out
    differs only in its MAC addresses and any other one not at all, exactly if a frame over IPv6
    that gets a backend has its address, its port and its checksum already. -/
theorem dsr_iff (s : XdpState cpus) (a : Arrival cpus) : a.L2Only s ↔ a.Untouched s.maps := by
  have hs := XdpStep.of_next a s
  rw [Arrival.L2Only, Arrival.Untouched, Arrival.selected]
  generalize (xdp cpus).out a s = r at hs ⊢
  obtain ⟨verdict, q⟩ := r
  dsimp only at hs ⊢
  generalize ((xdp cpus).next a s).maps = m' at hs
  cases hs with
  | ignored hh =>
    rw [hh]
    exact iff_of_true ⟨by simp, fun _ => rfl⟩ (by simp)
  | filtered hh _ _ =>
    rw [hh]
    exact iff_of_true ⟨by simp, fun _ => rfl⟩ (by simp)
  | unmatched hh _ hout =>
    rw [hh, Option.bind_some, hout]
    exact iff_of_true ⟨by simp, fun _ => rfl⟩ (by simp)
  | @forwarded h b hh _ hout =>
    rw [hh, Option.bind_some, hout]
    obtain ⟨hlen, htcp, hudp⟩ := Packet.length_of_headers hh
    obtain ⟨hdst, hsrc, -⟩ := redirect_spec hlen b
    have hdrop := redirect_drop hlen b
    cases h with
    | tcpV4 off => exact l2Only_iff hdst hsrc (iff_of_true hdrop (by simp))
    | udpV4 off => exact l2Only_iff hdst hsrc (iff_of_true hdrop (by simp))
    | tcpV6 =>
      have hlen : 70 + 2 ≤ a.bytes.length := by
        have := htcp rfl
        omega
      obtain ⟨hdst, hsrc, -⟩ := redirectV6_spec updateTcpChecksumV6 hlen (by norm_num) b
      refine l2Only_iff hdst hsrc ((redirectV6_drop_iff updateTcpChecksumV6_self (by decide) hlen
        (by norm_num) b).trans ?_)
      simp
    | udpV6 =>
      have hlen : 60 + 2 ≤ a.bytes.length := hudp rfl
      obtain ⟨hdst, hsrc, -⟩ := redirectV6_spec updateUdpChecksumV6 hlen (by norm_num) b
      refine l2Only_iff hdst hsrc ((redirectV6_drop_iff updateUdpChecksumV6_self (by decide) hlen
        (by norm_num) b).trans ?_)
      simp

/-- A datagram over IPv6 to the port 53 of `fd00::`. -/
def demoFrameV6 : Packet :=
  List.replicate 12 0 ++ [0x86, 0xdd] ++ List.replicate 6 0 ++ [17, 64] ++ List.replicate 16 0 ++
    0xfd :: List.replicate 15 0 ++ [0x30, 0x39, 0, 53, 0, 8, 0x12, 0x34]

/-- A service for it, with one backend. -/
def demoStateV6 : XdpState 1 where
  maps := { Maps.fresh 1 with
    servicesFirst := HashMap.empty.put ⟨0xfd, 53, IPPROTO_UDP, 6⟩ ⟨1, 0, BALANCER_RR, 0⟩
    backendsFirst := (ArrayMap.const .zero).put 0 ⟨0x1fd, 53, 1, 1, 6, 1⟩
    rrIndex := HashMap.empty.put ⟨0xfd, 53, IPPROTO_UDP, 6⟩ 0 }
  ddos := .fresh

/-- The datagram goes out with another destination address and another checksum. -/
theorem rewritten_over_ipv6 : ¬Arrival.L2Only demoStateV6 ⟨⟨0, 0⟩, demoFrameV6, []⟩ := by
  rintro ⟨h, -⟩
  obtain ⟨b, -, -, -, hrest⟩ := h (by decide +kernel)
  exact absurd hrest (by decide +kernel)

end L4Balancer
