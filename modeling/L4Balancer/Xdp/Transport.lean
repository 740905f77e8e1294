import L4Balancer.Xdp.Dsr

/-!
# Checksums of rewritten frames

The checksum of TCP and UDP over IPv6: the words of a pseudo header (the addresses, the
length of the payload and the protocol) and those of the segment sum to `0xffff`
(`Packet.ValidChecksum`). The program expects the transport header right behind that of
IPv6.

The handlers for IPv6 update the checksum for the address and the port that they write.
The result is valid except for the carry that `csum_replace16` loses (`CarryLost`);
`checksum_iff` is the machine's statement of it.
-/

namespace L4Balancer

open Bpf Bytes OnesComplement

variable {cpus : ℕ} {p q : Packet} {h : Headers} {b : Backend}

/-! ## Valid checksums -/

namespace Headers

/-- The handlers for IPv6 get the headers. -/
def isV6 : Headers → Bool
  | tcpV6 | udpV6 => true
  | tcpV4 _ | udpV4 _ => false

/-- The length of the transport header without options. -/
def transportLen : Headers → ℕ
  | tcpV4 _ | tcpV6 => 20
  | udpV4 _ | udpV6 => 8

/-- The offset of the checksum. -/
def checkOff : Headers → ℕ
  | tcpV4 off => off + 16
  | udpV4 off => off + 6
  | tcpV6 => 70
  | udpV6 => 60

end Headers

namespace Packet

/-- The payload length of the IPv6 header. -/
def payloadLen (p : Packet) : ℕ := (swap16 (p.port 18)).toNat

/-- The pseudo header of IPv6: the addresses, the length and the protocol. -/
def pseudoHeader (p : Packet) : List UInt8 :=
  slice p 22 32 ++ ([0, 0] ++ slice p 18 2 ++ [0, 0, 0, p.byte 20])

/-- The transport header with its payload. -/
def segment (p : Packet) : List UInt8 := slice p 54 p.payloadLen

/-- The words that the checksum is about. -/
def covered (p : Packet) : List ℕ := words (p.pseudoHeader ++ p.segment)

/-- The segment is complete, and its checksum is valid. -/
def ValidChecksum (p : Packet) (h : Headers) : Prop :=
  h.transportLen ≤ p.payloadLen ∧ 54 + p.payloadLen ≤ p.length ∧ sum p.covered = 0xffff

instance : Decidable (p.ValidChecksum h) := inferInstanceAs (Decidable (_ ∧ _))

/-! ## The sum of a frame -/

theorem toNat_port (h : n + 2 ≤ p.length) : (p.port n).toNat = leNat (slice p n 2) := by
  have hlt := leNat_lt (slice p n 2)
  rw [length_slice h] at hlt
  exact UInt16.toNat_ofNat_of_lt' hlt

theorem toNat_daddrV6 (h : 54 ≤ p.length) : p.daddrV6.toNat = leNat (slice p 38 16) := by
  have hlt := leNat_lt (slice p 38 16)
  rw [length_slice (by omega)] at hlt
  rw [daddrV6, BitVec.toNat_ofNat]
  exact Nat.mod_eq_of_lt hlt

theorem byte_eq (p : Packet) (off : ℕ) : p.byte off = (slice p off 1).getD 0 0 := by
  rw [byte, List.getD_eq_getElem?_getD, List.getD_eq_getElem?_getD, getElem?_slice, if_pos one_pos,
    Nat.add_zero]

theorem covered_sum (hlen : 54 ≤ p.length) : p.covered.sum =
    (words (slice p 22 32)).sum + ((words (slice p 18 2)).sum + (p.byte 20).toNat) +
      (words p.segment).sum := by
  have h₁ : (slice p 22 32).length = 32 := length_slice (by omega)
  have h₂ : (slice p 18 2).length = 2 := length_slice (by omega)
  rw [covered, pseudoHeader, words_append, words_append, words_append, words_append]
  · simp [words]
    ring
  all_goals simp only [List.length_append, List.length_cons, List.length_nil, h₁, h₂]
  all_goals decide

/-- Frames that are equal from the offset 14 on have the same sum. -/
theorem covered_eq_of_drop (h : q.drop 14 = p.drop 14) : q.covered = p.covered := by
  have hs : ∀ off n, 14 ≤ off → slice q off n = slice p off n :=
    fun off n hoff => slice_eq_of_drop h hoff n
  rw [covered, covered, pseudoHeader, pseudoHeader, segment, segment, payloadLen, payloadLen, port,
    port, byte_eq, byte_eq, hs _ _ (by norm_num), hs _ _ (by norm_num), hs _ _ (by norm_num),
    hs _ _ (by norm_num)]

theorem payloadLen_eq (p : Packet) :
    p.payloadLen = (swap16 (.ofNat (leNat (slice p 18 2)))).toNat := rfl

/-- A write of an even number of bytes at an even offset, in the destination address or in the
    segment. -/
theorem covered_sum_overwrite {off : ℕ} {bs : List UInt8} (hlen : 54 + p.payloadLen ≤ p.length)
    (hoff : Even off) (hbs : Even bs.length) (hlo : 38 ≤ off)
    (hin : off + bs.length ≤ 54 ∨ 54 ≤ off ∧ off + bs.length ≤ 54 + p.payloadLen) :
    payloadLen (overwrite p off bs) = p.payloadLen ∧ byte (overwrite p off bs) 20 = p.byte 20 ∧
      (covered (overwrite p off bs)).sum + (words (slice p off bs.length)).sum =
        p.covered.sum + (words bs).sum := by
  have hfit : off + bs.length ≤ p.length := by omega
  have hlen' : (overwrite p off bs).length = p.length := length_overwrite hfit
  have hbefore : ∀ i n, i + n ≤ 38 → slice (overwrite p off bs) i n = slice p i n :=
    fun i n hi => slice_overwrite_of_le hfit (hi.trans hlo)
  have hpayload : payloadLen (overwrite p off bs) = p.payloadLen := by
    rw [payloadLen_eq, payloadLen_eq, hbefore _ _ (by norm_num)]
  have hbyte : byte (overwrite p off bs) 20 = p.byte 20 := by
    rw [byte_eq, byte_eq, hbefore _ _ (by norm_num)]
  refine ⟨hpayload, hbyte, ?_⟩
  rw [covered_sum (by omega), covered_sum (by omega), segment, segment, hpayload, hbyte,
    hbefore 18 2 (by norm_num)]
  rcases hin with hin | ⟨hge, hin⟩
  · -- the destination address, in the pseudo header
    have hpart : (slice p 22 32).length = 32 := length_slice (by omega)
    have hwords := @sum_words_overwrite (slice p 22 32) bs (off - 22) (by omega)
      (hoff.tsub (by decide)) hbs
    rw [slice_slice (by omega), Nat.add_sub_cancel' (by omega)] at hwords
    rw [@slice_overwrite_inside p bs 22 32 off (by omega) (by omega) (by omega),
      slice_overwrite_of_ge hfit (by omega)]
    omega
  · have hpart : (slice p 54 p.payloadLen).length = p.payloadLen := length_slice hlen
    have hwords := @sum_words_overwrite (slice p 54 p.payloadLen) bs (off - 54) (by omega)
      (hoff.tsub (by decide)) hbs
    rw [slice_slice (by omega), Nat.add_sub_cancel' hge] at hwords
    rw [slice_overwrite_inside hin hge hlen, slice_overwrite_of_le hfit (by omega)]
    omega

/-- Such a write of a number, in terms of the numbers before and after it. -/
theorem covered_sum_write {off n v : ℕ} (hv : v < 256 ^ n) (hlen : 54 + p.payloadLen ≤ p.length)
    (hoff : Even off) (hn : Even n) (hlo : 38 ≤ off)
    (hin : off + n ≤ 54 ∨ 54 ≤ off ∧ off + n ≤ 54 + p.payloadLen) :
    payloadLen (overwrite p off (leBytes n v)) = p.payloadLen ∧
      byte (overwrite p off (leBytes n v)) 20 = p.byte 20 ∧
      (overwrite p off (leBytes n v)).length = p.length ∧
      (covered (overwrite p off (leBytes n v))).sum + 256 * leNat (slice p off n) ≡
        p.covered.sum + 256 * v [MOD 65535] := by
  have hbs : (leBytes n v).length = n := length_leBytes n v
  have hnum : leNat (leBytes n v) = v := by rw [leNat_leBytes, Nat.mod_eq_of_lt hv]
  have hold := sum_words_modEq (slice p off n)
  have hnew := sum_words_modEq (leBytes n v)
  obtain ⟨hpayload, hbyte, hsum⟩ :=
    covered_sum_overwrite hlen hoff (hbs.symm ▸ hn) hlo (hbs.symm ▸ hin)
  refine ⟨hpayload, hbyte, length_overwrite (by omega), ?_⟩
  rw [hbs] at hsum
  rw [hnum] at hnew
  exact (hold.symm.add_left _).trans (hsum ▸ hnew.add_left _)

end Packet

/-! ## Rewriting -/

theorem updateUdpChecksumV6_modEq (check : UInt16) (oldDaddr newDaddr : Addr)
    (oldDport newDport : UInt16) :
    (updateUdpChecksumV6 check oldDaddr newDaddr oldDport newDport).toNat ≡
      (updateTcpChecksumV6 check oldDaddr newDaddr oldDport newDport).toNat [MOD 65535] := by
  rw [updateUdpChecksumV6]
  split_ifs with h
  · rw [h]
    rfl
  · rfl

/-- What the handlers for IPv6 do to the sum of a frame. -/
theorem covered_redirectV6 {update : UInt16 → Addr → Addr → UInt16 → UInt16 → UInt16}
    {checkOff : ℕ} (hlen : 54 + p.payloadLen ≤ p.length) (heven : Even checkOff)
    (hlo : 58 ≤ checkOff) (hhi : checkOff + 2 ≤ 54 + p.payloadLen) (b : Backend) :
    let check := update (p.port checkOff) p.daddrV6 b.ip (p.port 56) (swap16 b.port)
    let q := p.redirectV6 checkOff update b
    q.payloadLen = p.payloadLen ∧ q.byte 20 = p.byte 20 ∧ q.length = p.length ∧
      q.covered.sum + 256 * (p.daddrV6.toNat + (p.port 56).toNat + (p.port checkOff).toNat) ≡
        p.covered.sum + 256 * (b.ip.toNat + (swap16 b.port).toNat + check.toNat) [MOD 65535] := by
  dsimp only
  generalize hcheck : update (p.port checkOff) p.daddrV6 b.ip (p.port 56) (swap16 b.port) = check
  -- first the MAC addresses, in front of everything that counts
  have hdrop : (p.redirect b).drop 14 = p.drop 14 := redirect_drop (by omega) b
  have hslice : ∀ off n, 14 ≤ off → slice (p.redirect b) off n = slice p off n :=
    fun off n hoff => slice_eq_of_drop hdrop hoff n
  have hlen₀ : (p.redirect b).length = p.length := length_redirect (by omega) b
  have hpay₀ : (p.redirect b).payloadLen = p.payloadLen := by
    rw [Packet.payloadLen_eq, Packet.payloadLen_eq, hslice _ _ (by norm_num)]
  have hbyte₀ : (p.redirect b).byte 20 = p.byte 20 := by
    rw [Packet.byte_eq, Packet.byte_eq, hslice _ _ (by norm_num)]
  have hcov₀ : (p.redirect b).covered = p.covered := Packet.covered_eq_of_drop hdrop
  have hdaddr : p.daddrV6.toNat = leNat (slice (p.redirect b) 38 16) := by
    rw [hslice _ _ (by norm_num), Packet.toNat_daddrV6 (by omega)]
  have hdport : (p.port 56).toNat = leNat (slice (p.redirect b) 56 2) := by
    rw [hslice _ _ (by norm_num), Packet.toNat_port (by omega)]
  have hold : (p.port checkOff).toNat = leNat (slice (p.redirect b) checkOff 2) := by
    rw [hslice _ _ (by omega), Packet.toNat_port (by omega)]
  rw [Packet.redirectV6, hcheck]
  rw [← hlen₀, ← hpay₀] at hlen ⊢
  rw [← hpay₀] at hhi
  rw [← hcov₀, ← hbyte₀, hdaddr, hdport, hold]
  generalize p.redirect b = q₀ at *
  -- then the destination address, then the port, then the checksum: each write leaves what the
  -- next one replaces
  obtain ⟨hpay₁, hbyte₁, hlen₁, hsum₁⟩ := @Packet.covered_sum_write q₀ 38 16 b.ip.toNat b.ip.isLt hlen
    (by decide) (by decide) le_rfl (.inl le_rfl)
  have hfit₁ : 38 + (leBytes 16 b.ip.toNat).length ≤ q₀.length := by
    rw [length_leBytes]
    omega
  have hport₁ : ∀ off n, 54 ≤ off →
      slice (overwrite q₀ 38 (leBytes 16 b.ip.toNat)) off n = slice q₀ off n :=
    fun off n hoff => slice_overwrite_of_ge hfit₁ (by rwa [length_leBytes])
  rw [← hport₁ 56 2 (by norm_num), ← hport₁ checkOff 2 (by omega)]
  generalize overwrite q₀ 38 (leBytes 16 b.ip.toNat) = q₁ at *
  obtain ⟨hpay₂, hbyte₂, hlen₂, hsum₂⟩ := @Packet.covered_sum_write q₁ 56 2 (swap16 b.port).toNat
    (swap16 b.port).toNat_lt (by omega) (by decide) (by decide) (by norm_num)
    (.inr ⟨by norm_num, by omega⟩)
  have hfit₂ : 56 + (leBytes 2 (swap16 b.port).toNat).length ≤ q₁.length := by
    rw [length_leBytes]
    omega
  rw [← @slice_overwrite_of_ge q₁ (leBytes 2 (swap16 b.port).toNat) 56 2 hfit₂ checkOff
    (by rwa [length_leBytes])]
  generalize overwrite q₁ 56 (leBytes 2 (swap16 b.port).toNat) = q₂ at *
  obtain ⟨hpay₃, hbyte₃, hlen₃, hsum₃⟩ := @Packet.covered_sum_write q₂ checkOff 2 check.toNat
    check.toNat_lt (by omega) heven (by decide) (by omega) (.inr ⟨by omega, by omega⟩)
  refine ⟨by omega, hbyte₃.trans (hbyte₂.trans hbyte₁), by omega, ?_⟩
  rw [Nat.ModEq] at hsum₁ hsum₂ hsum₃ ⊢
  omega

/-! ## Checksums that stay valid -/

theorem Packet.covered_lt (p : Packet) : ∀ w ∈ p.covered, w < 65536 := words_lt _

/-- A frame that has a protocol has a word other than zero. -/
theorem Packet.sum_covered_eq_ffff_iff (hlen : 54 ≤ p.length) (hbyte : p.byte 20 ≠ 0) :
    sum p.covered = 65535 ↔ p.covered.sum ≡ 0 [MOD 65535] := by
  rw [sum_eq_ffff_iff p.covered_lt, and_iff_left]
  have hpos : (p.byte 20).toNat ≠ 0 := fun h => hbyte (UInt8.toNat_inj.1 h)
  rw [covered_sum hlen]
  omega

theorem Packet.v6_of_headers (hh : p.headers = some h) (hv6 : h.isV6) :
    54 + h.transportLen ≤ p.length ∧ p.byte 20 ≠ 0 := by
  cases hasHeaders hh with
  | tcpV4 | udpV4 => cases hv6
  | tcpV6 hlen htcp => exact ⟨hlen, htcp ▸ by decide⟩
  | udpV6 hlen hudp => exact ⟨hlen, hudp ▸ by decide⟩

/-- The carry of the update gets lost for the backend. -/
def Headers.CarryLost (h : Headers) (p : Packet) (b : Backend) : Prop :=
  L4Balancer.CarryLost (p.port h.checkOff) p.daddrV6 b.ip (p.port 56) (swap16 b.port)

/-- The frame that goes out to a backend. -/
theorem validChecksum_rewrite (hh : p.headers = some h) (hv6 : h.isV6) (hvalid : p.ValidChecksum h)
    (b : Backend) : (h.rewrite p b).ValidChecksum h ↔ ¬h.CarryLost p b := by
  obtain ⟨hmin, hlen, hsum⟩ := hvalid
  obtain ⟨htransport, hbyte⟩ := Packet.v6_of_headers hh hv6
  rw [Packet.sum_covered_eq_ffff_iff (by omega) hbyte] at hsum
  -- what both updates do
  obtain ⟨update, hrewrite, hupdate, heven, hlo, hhi⟩ : ∃ update,
      h.rewrite p = p.redirectV6 h.checkOff update ∧
      (∀ c a a' d d', (update c a a' d d').toNat ≡
        (updateTcpChecksumV6 c a a' d d').toNat [MOD 65535]) ∧
      Even h.checkOff ∧ 58 ≤ h.checkOff ∧ h.checkOff + 2 ≤ 54 + h.transportLen := by
    cases h with
    | tcpV4 | udpV4 => cases hv6
    | tcpV6 => exact ⟨_, rfl, fun _ _ _ _ _ => rfl, by decide, by decide, by decide⟩
    | udpV6 => exact ⟨_, rfl, updateUdpChecksumV6_modEq, by decide, by decide, by decide⟩
  obtain ⟨hpay', hbyte', hlen', hsum'⟩ := @covered_redirectV6 p update h.checkOff hlen heven hlo
    (by omega) b
  have hspec := updateTcpChecksumV6_spec (p.port h.checkOff) p.daddrV6 b.ip (p.port 56)
    (swap16 b.port)
  have hmod := hupdate (p.port h.checkOff) p.daddrV6 b.ip (p.port 56) (swap16 b.port)
  rw [hrewrite, Packet.ValidChecksum, hpay', hlen', Headers.CarryLost, ← hspec,
    Packet.sum_covered_eq_ffff_iff (by omega) (hbyte' ▸ hbyte), and_iff_right hmin,
    and_iff_right hlen, modEq_zero_iff_of_write hsum' hsum]
  rw [Nat.ModEq] at hmod ⊢
  rw [Nat.ModEq]
  omega

/-- A frame over IPv6 with a valid checksum that goes out has a valid one then. -/
def Arrival.KeepsChecksum (s : XdpState cpus) (a : Arrival cpus) : Prop :=
  ∀ h, a.bytes.headers = some h → h.isV6 → a.bytes.ValidChecksum h →
    ((xdp cpus).out a s).1 = .tx → ((xdp cpus).out a s).2.ValidChecksum h

/-- No carry gets lost for the backend of a frame over IPv6 with a valid checksum. -/
def Arrival.CarriesKept (m : Maps cpus) (a : Arrival cpus) : Prop :=
  ∀ h b, a.bytes.headers = some h → h.isV6 → a.bytes.ValidChecksum h → a.selected m = some b →
    ¬h.CarryLost a.bytes b

/-- Checksums of rewritten frames. For every frame over IPv6 with a valid checksum and every backend,
    the frame that goes out has a valid checksum exactly if the update loses no carry: the new port,
    in the byte order of the machine, is not larger than the old one, or it is not the one that
    completes the sum. -/
theorem checksum_iff (s : XdpState cpus) (a : Arrival cpus) :
    a.KeepsChecksum s ↔ a.CarriesKept s.maps := by
  have hs := XdpStep.of_next a s
  rw [Arrival.KeepsChecksum, Arrival.CarriesKept, Arrival.selected]
  generalize (xdp cpus).out a s = r at hs ⊢
  obtain ⟨verdict, q⟩ := r
  dsimp only at hs ⊢
  generalize ((xdp cpus).next a s).maps = m' at hs
  cases hs with
  | ignored hh =>
    rw [hh]
    exact iff_of_true (by simp) (by simp)
  | @filtered off hh _ _ =>
    -- the filter is for IPv4
    rw [hh]
    refine iff_of_true (by simp) fun h b hh' hv6 => ?_
    obtain rfl := Option.some.inj hh'
    cases hv6
  | unmatched hh _ hout =>
    rw [hh, Option.bind_some, hout]
    exact iff_of_true (by simp) (by simp)
  | @forwarded h b hh _ hout =>
    rw [hh, Option.bind_some, hout]
    constructor
    · rintro hkeep h' b' hh' hv6 hvalid hb
      obtain rfl := Option.some.inj hh'
      obtain rfl := Option.some.inj hb
      exact (validChecksum_rewrite hh hv6 hvalid b).1 (hkeep h rfl hv6 hvalid rfl)
    · rintro hcarry h' hh' hv6 hvalid -
      obtain rfl := Option.some.inj hh'
      exact (validChecksum_rewrite hh hv6 hvalid b).2 (hcarry h b rfl hv6 hvalid rfl)

/-- A datagram over IPv6 to the port 53 of `fd00::`, with a valid checksum. -/
def demoDatagramV6 : Packet :=
  List.replicate 12 0 ++ [0x86, 0xdd] ++ List.replicate 5 0 ++ [8, 17, 64] ++
    List.replicate 16 0 ++ 0xfd :: List.replicate 15 0 ++ [0x30, 0x39, 0, 53, 0, 8, 0xd2, 0x6f]

/-- A service for it, with the port 54179 of `fd00::1` as its backend. -/
def demoServiceV6 : XdpState 1 where
  maps := { Maps.fresh 1 with
    servicesFirst := HashMap.empty.put ⟨0xfd, 53, IPPROTO_UDP, 6⟩ ⟨1, 0, BALANCER_RR, 0⟩
    backendsFirst := (ArrayMap.const .zero).put 0 ⟨0xfd + 2 ^ 120, 54179, 1, 1, 6, 1⟩
    rrIndex := HashMap.empty.put ⟨0xfd, 53, IPPROTO_UDP, 6⟩ 0 }
  ddos := .fresh

/-- The datagram goes out with a checksum that is not valid. -/
theorem checksum_loses_carry : ¬Arrival.KeepsChecksum demoServiceV6 ⟨⟨0, 0⟩, demoDatagramV6, []⟩ := by
  intro h
  have hout := h .udpV6 (by decide +kernel) rfl (by decide +kernel) (by decide +kernel)
  exact absurd hout (by decide +kernel)

end L4Balancer
