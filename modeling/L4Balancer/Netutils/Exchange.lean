import L4Balancer.Netutils.Arp

/-!
# Asking the network

`Arp::Lookup` as a whole: the calls of the system before the request, the request, and the frames
that arrive until the socket times out. What the system returns is part of the input (`Sockets`),
and so are the frames.

On the other side are the stations of a network, each with an address and a MAC (`Network`). A
station answers a request for its address, and a frame that is an ARP reply is one of the station
it names (`Network.Honest`). The frames are anything else besides, in any order. A lookup never
returns the MAC of another station, and it returns the one of the station if its answer is among
the frames (`arp_exchange`).
-/

namespace L4Balancer

open Bytes

namespace Arp

/-! ## The lookup -/

/-- What the calls of the system return, in their order. -/
structure Sockets where
  socket : Bool
  /-- `SIOCGIFINDEX`. -/
  ifIndex : Bool
  /-- `SIOCGIFHWADDR`. -/
  hwaddr : Option (List UInt8)
  /-- `SIOCGIFADDR`. -/
  ifaddr : Option UInt32
  inetAddr : String → UInt32
  bind : Bool
  /-- The whole request is sent. -/
  sendto : Bool
  /-- The timeout can be set. -/
  timeout : Bool
  /-- The memory of the buffer. -/
  buf : List UInt8

def INADDR_NONE : UInt32 := 0xffffffff

/-- The request of a lookup, if it gets so far. -/
def Sockets.request (s : Sockets) (ipv4 : String) : Option (List UInt8) := do
  guard s.socket
  guard s.ifIndex
  let srcMac ← s.hwaddr
  let srcIp ← s.ifaddr
  let tgtIp := s.inetAddr ipv4
  guard (tgtIp ≠ INADDR_NONE)
  guard s.bind
  guard s.sendto
  return sendArpReq srcMac srcIp tgtIp

/-- `Arp::Lookup`, with the frames that are received after the request. -/
def Sockets.lookup (s : Sockets) (ipv4 : String) (frames : List (List UInt8)) : Run :=
  match s.request ipv4 with
  | none => ⟨none, 0, true⟩
  | some _ => recvArpReply s.timeout (s.inetAddr ipv4) s.buf frames

/-! ## The network -/

/-- The stations of a network. -/
structure Network where
  station : UInt32 → Option (List UInt8)
  length_mac : ∀ ip, ∀ mac ∈ station ip, mac.length = 6

namespace Network

/-- The reply of a station to a request for its address. -/
def answer (net : Network) (request : List UInt8) : Option (List UInt8) :=
  if slice request 12 2 = [0x08, 0x06] ∧ slice request 20 2 = [0x00, 0x01] then
    (net.station (.ofNat (leNat (slice request 38 4)))).map fun mac =>
      slice request 6 6 ++ mac ++ [0x08, 0x06] ++
        ([0x00, 0x01] ++ [0x08, 0x00] ++ [6] ++ [4] ++ [0x00, 0x02]) ++
        mac ++ slice request 38 4 ++ slice request 22 6 ++ slice request 28 4
  else none

/-- An ARP reply is whole, and names a station with its MAC. -/
def Honest (net : Network) (frame : List UInt8) : Prop :=
  22 ≤ frame.length ∧ IsReply frame →
    42 ≤ frame.length ∧ net.station (.ofNat (spa frame)) = some (slice frame 22 6)

instance (net : Network) (frame : List UInt8) : Decidable (net.Honest frame) :=
  inferInstanceAs (Decidable (_ → _))

end Network

variable {net : Network} {s : Sockets} {ipv4 : String} {wantedIp : UInt32} {buf frame : List UInt8}
  {frames : List (List UInt8)} {mac : List UInt8}

/-- Honest frames are read within their bounds. -/
theorem whole_of_honest (h : ∀ frame ∈ frames, net.Honest frame) : Whole wantedIp frames := by
  induction frames with
  | nil => trivial
  | cons frame frames ih =>
    rw [List.forall_mem_cons] at h
    rw [Whole]
    -- a reply of the address, one of another address, and any other frame
    split_ifs with hreply hspa
    · have hle := (h.1 hreply).1
      exact ⟨by omega, hle⟩
    · have hle := (h.1 hreply).1
      exact ⟨by omega, ih h.2⟩
    · exact ih h.2

/-- The frame is a reply of the address. -/
def Wanted (wantedIp : UInt32) (frame : List UInt8) : Prop :=
  (22 ≤ frame.length ∧ IsReply frame) ∧ spa frame = wantedIp.toNat

instance : DecidablePred (Wanted wantedIp) := fun _ => inferInstanceAs (Decidable (_ ∧ _))

/-- Of whole replies, the first one of the address is returned. -/
theorem mac_receive (h : Whole wantedIp frames) : (receive wantedIp buf frames).mac =
    (frames.find? fun frame => Wanted wantedIp frame).map fun frame => slice frame 22 6 := by
  induction frames generalizing buf with
  | nil => rfl
  | cons frame frames ih =>
    rw [Whole] at h
    by_cases hreply : 22 ≤ frame.length ∧ IsReply frame
    · rw [if_pos hreply] at h
      rw [receive_of_reply hreply.2 h.1]
      by_cases hspa : spa frame = wantedIp.toNat
      · rw [if_pos hspa, List.find?_cons_of_pos (by simpa using ⟨hreply, hspa⟩)]
        rfl
      · rw [if_neg hspa] at h ⊢
        rw [List.find?_cons_of_neg (by simpa using fun h : Wanted wantedIp frame => hspa h.2)]
        exact ih h.2
    · rw [if_neg hreply] at h
      rw [List.find?_cons_of_neg (by simpa using fun h : Wanted wantedIp frame => hreply h.1), ← ih h]
      by_cases hle : 22 ≤ frame.length
      · rw [receive_of_le hle, if_neg fun h => hreply ⟨hle, h⟩]
        rfl
      · rw [receive_of_lt (not_le.1 hle)]
        rfl

/-- A MAC has six bytes. -/
theorem exists_bytes {mac : List UInt8} (h : mac.length = 6) :
    ∃ a b c d e f, mac = [a, b, c, d, e, f] := by
  rcases mac with _ | ⟨a, _ | ⟨b, _ | ⟨c, _ | ⟨d, _ | ⟨e, _ | ⟨f, _ | ⟨g, mac⟩⟩⟩⟩⟩⟩⟩ <;>
    simp at h
  exact ⟨a, b, c, d, e, f, rfl⟩

theorem leNat_leBytes_toNat (ip : UInt32) : leNat (leBytes 4 ip.toNat) = ip.toNat := by
  rw [leNat_leBytes]
  exact Nat.mod_eq_of_lt ip.toNat_lt

theorem request_eq_some {request : List UInt8} (h : s.request ipv4 = some request) :
    ∃ srcMac srcIp, s.hwaddr = some srcMac ∧
      request = sendArpReq srcMac srcIp (s.inetAddr ipv4) := by
  simp only [Sockets.request, guard, Option.bind_eq_bind, Option.bind_eq_some_iff] at h
  obtain ⟨-, -, -, -, srcMac, hsrc, srcIp, -, -, -, -, -, -, -, h⟩ := h
  exact ⟨srcMac, srcIp, hsrc, (Option.some.inj h).symm⟩

/-- A station answers the request for its address with a reply that is wanted. -/
theorem answer_sendArpReq {srcMac : List UInt8} (hsrc : srcMac.length = 6) (srcIp tgtIp : UInt32)
    (hmac : net.station tgtIp = some mac) : ∃ reply,
      net.answer (sendArpReq srcMac srcIp tgtIp) = some reply ∧ Wanted tgtIp reply := by
  -- with its MACs byte by byte, the request and the answer can be read off
  obtain ⟨a, b, c, d, e, f, hbytes⟩ := exists_bytes (net.length_mac tgtIp mac hmac)
  obtain ⟨a', b', c', d', e', f', rfl⟩ := exists_bytes hsrc
  have htpa : slice (sendArpReq [a', b', c', d', e', f'] srcIp tgtIp) 38 4 =
      leBytes 4 tgtIp.toNat := rfl
  have hhead : slice (sendArpReq [a', b', c', d', e', f'] srcIp tgtIp) 12 2 = [0x08, 0x06] ∧
      slice (sendArpReq [a', b', c', d', e', f'] srcIp tgtIp) 20 2 = [0x00, 0x01] := ⟨rfl, rfl⟩
  have hdst : slice (sendArpReq [a', b', c', d', e', f'] srcIp tgtIp) 6 6 =
      [a', b', c', d', e', f'] := rfl
  rw [Network.answer, if_pos hhead, htpa, hdst, leNat_leBytes_toNat, UInt32.ofNat_toNat, hmac, hbytes]
  generalize slice (sendArpReq _ _ _) 22 6 = tha
  generalize slice (sendArpReq _ _ _) 28 4 = tpa
  have hspa : leNat (leBytes 4 tgtIp.toNat) = tgtIp.toNat := leNat_leBytes_toNat tgtIp
  have hlength := length_leBytes 4 tgtIp.toNat
  generalize leBytes 4 tgtIp.toNat = sender at hspa hlength
  refine ⟨_, rfl, ⟨?_, rfl, rfl⟩, ?_⟩
  · simp
  · change leNat ((sender ++ tha ++ tpa).take 4) = tgtIp.toNat
    rw [List.append_assoc, List.take_left' hlength, hspa]

/-- An answer is wanted. -/
theorem wanted_of_answer {srcMac reply : List UInt8} {srcIp tgtIp : UInt32}
    (hsrc : srcMac.length = 6) (h : net.answer (sendArpReq srcMac srcIp tgtIp) = some reply) :
    Wanted tgtIp reply := by
  cases hmac : net.station tgtIp with
  | some mac =>
    obtain ⟨reply', hreply, hwanted⟩ := answer_sendArpReq hsrc srcIp tgtIp hmac
    obtain rfl := Option.some.inj (h.symm.trans hreply)
    exact hwanted
  | none =>
    have htpa : slice (sendArpReq srcMac srcIp tgtIp) 38 4 = leBytes 4 tgtIp.toNat := by
      obtain ⟨a, b, c, d, e, f, rfl⟩ := exists_bytes hsrc
      rfl
    rw [Network.answer, htpa, leNat_leBytes_toNat, UInt32.ofNat_toNat, hmac] at h
    split_ifs at h
    cases h

/-- What is returned of honest frames is the MAC of the station with the address. -/
theorem station_of_receive (h : ∀ frame ∈ frames, net.Honest frame) :
    ∀ mac ∈ (receive wantedIp buf frames).mac, net.station wantedIp = some mac := by
  intro mac hmem
  rw [mac_receive (whole_of_honest h)] at hmem
  obtain ⟨frame, hframe, rfl⟩ := Option.map_eq_some_iff.1 hmem
  have hwanted : Wanted wantedIp frame := by simpa using List.find?_some hframe
  have hstation := (h frame (List.mem_of_find?_eq_some hframe) hwanted.1).2
  rwa [hwanted.2, UInt32.ofNat_toNat] at hstation

theorem station_of_lookup (h : ∀ frame ∈ frames, net.Honest frame) :
    ∀ mac ∈ (s.lookup ipv4 frames).mac, net.station (s.inetAddr ipv4) = some mac := by
  rw [Sockets.lookup]
  split
  · simp
  · rw [recvArpReply]
    split_ifs
    · simp
    · exact station_of_receive h

/-- A lookup and the network. Whatever honest frames arrive, the MAC that is returned is that of the
    station with the address, and no frame is read beyond its end. If the request is sent and the
    answer to it is among the frames, then it is returned. -/
theorem arp_exchange (net : Network) (s : Sockets) (hmac : ∀ mac ∈ s.hwaddr, mac.length = 6)
    (ipv4 : String) {frames : List (List UInt8)} (hhonest : ∀ frame ∈ frames, net.Honest frame) :
    (∀ mac ∈ (s.lookup ipv4 frames).mac, net.station (s.inetAddr ipv4) = some mac) ∧
      (s.lookup ipv4 frames).fresh ∧
      ∀ request ∈ s.request ipv4, s.timeout →
        ∀ reply ∈ net.answer request, reply ∈ frames →
          (s.lookup ipv4 frames).mac.isSome ∧
            (s.lookup ipv4 frames).mac = net.station (s.inetAddr ipv4) := by
  refine ⟨station_of_lookup hhonest, ?_⟩
  have hwhole := @whole_of_honest net (s.inetAddr ipv4) frames hhonest
  have hfresh : (receive (s.inetAddr ipv4) s.buf frames).fresh = true :=
    ((receive_sound_iff.2 hwhole).2 : _)
  cases hrequest : s.request ipv4 with
  | none =>
    rw [Sockets.lookup, hrequest]
    exact ⟨rfl, by simp⟩
  | some request =>
    rw [Sockets.lookup, hrequest]
    dsimp only
    rw [recvArpReply]
    cases htimeout : s.timeout with
    | false => exact ⟨rfl, by simp⟩
    | true =>
      refine ⟨hfresh, fun request' hrequest' _ reply hreply hmem => ?_⟩
      obtain rfl := Option.some.inj hrequest'
      obtain ⟨srcMac, srcIp, hsrc, rfl⟩ := request_eq_some hrequest
      have hwanted := wanted_of_answer (hmac srcMac hsrc) hreply
      -- the answer is wanted, so that some frame is, and the first one decides
      have hsome : (receive (s.inetAddr ipv4) s.buf frames).mac.isSome := by
        rw [mac_receive hwhole, Option.isSome_map, List.find?_isSome]
        exact ⟨reply, hmem, decide_eq_true hwanted⟩
      obtain ⟨mac, hreceived⟩ := Option.isSome_iff_exists.1 hsome
      exact ⟨hsome, hreceived.trans (station_of_receive hhonest mac hreceived).symm⟩

/-- A network of two stations. -/
def demoNetwork : Network where
  station ip :=
    if ip = 0x0101000a then some [2, 0, 0, 0, 0, 1]
    else if ip = 0x0201000a then some [2, 0, 0, 0, 0, 2] else none
  length_mac ip mac hmac := by
    split_ifs at hmac <;> cases hmac <;> rfl

def demoSockets : Sockets where
  socket := true
  ifIndex := true
  hwaddr := some [2, 0, 0, 0, 0, 9]
  ifaddr := some 0x0901000a
  inetAddr _ := 0x0101000a
  bind := true
  sendto := true
  timeout := true
  buf := List.replicate BUF_SIZE 0

/-- The answer of the second station to another request, a frame that ends early, and the answer. -/
def demoArrivals : List (List UInt8) :=
  (demoNetwork.answer (sendArpReq [2, 0, 0, 0, 0, 8] 0x0801000a 0x0201000a)).toList ++
    [[0xff, 0xff]] ++
    (demoNetwork.answer (sendArpReq [2, 0, 0, 0, 0, 9] 0x0901000a 0x0101000a)).toList

/-- The lookup returns the MAC of the first station. -/
theorem arp_exchange_demo :
    (demoSockets.lookup "10.0.1.1" demoArrivals).mac = some [2, 0, 0, 0, 0, 1] := by
  obtain ⟨-, -, h⟩ := arp_exchange demoNetwork demoSockets (by decide) "10.0.1.1"
    (show ∀ frame ∈ demoArrivals, demoNetwork.Honest frame by decide +kernel)
  exact (h _ rfl rfl _ rfl (by decide +kernel)).2

end Arp

end L4Balancer
