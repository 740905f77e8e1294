import L4Balancer.Bytes

/-!
# ARP replies

`Arp::recv_arp_reply` receives frames into one buffer until one of them is an ARP reply of the
wanted address, whose MAC it returns. It leaves frames aside that are too short for the Ethernet
and the ARP header, but not those that end before the addresses behind these: for such a frame it
reads what an earlier one left in the buffer, or what nobody has written. `recvArpReply_iff` says
which sequences of frames it reads properly.
-/

namespace L4Balancer

open Bytes

namespace Arp

def BUF_SIZE : ℕ := 2048

/-- The request that `send_arp_req` sends. -/
def sendArpReq (srcMac : List UInt8) (srcIp tgtIp : UInt32) : List UInt8 :=
  List.replicate 6 0xff ++ srcMac ++ [0x08, 0x06] ++
    ([0x00, 0x01] ++ [0x08, 0x00] ++ [6] ++ [4] ++ [0x00, 0x01]) ++
    srcMac ++ leBytes 4 srcIp.toNat ++ List.replicate 6 0 ++ leBytes 4 tgtIp.toNat

/-- What a call of `recv_arp_reply` does. -/
structure Run where
  /-- The MAC, if it succeeds. -/
  mac : Option (List UInt8)
  /-- The number of frames that it has received. -/
  received : ℕ
  /-- Each byte that it has used was one of the frame received last. -/
  fresh : Bool
  deriving DecidableEq

/-- A step that uses `len` bytes of the buffer, of which a frame has filled the first `n`. -/
def use (buf : List UInt8) (n off len : ℕ) (k : List UInt8 → Run) : Run :=
  let run := k (slice buf off len)
  { run with fresh := off + len ≤ n && run.fresh }

/-- `continue`, after a frame. -/
def Run.after (run : Run) : Run := { run with received := run.received + 1 }

/-- The loop, over the frames that are still received before `recvfrom` fails. -/
def receive (wantedIp : UInt32) : List UInt8 → List (List UInt8) → Run
  | _, [] => ⟨none, 0, true⟩
  | buf, frame :: frames =>
    let buf := overwrite buf 0 (frame.take BUF_SIZE)
    let n := min frame.length BUF_SIZE
    let continued := (receive wantedIp buf frames).after
    if n < 14 + 8 then continued
    else
      use buf n 12 2 fun proto =>
      if proto ≠ [0x08, 0x06] then continued
      else use buf n 20 2 fun op =>
      if op ≠ [0x00, 0x02] then continued
      else use buf n 28 4 fun spa =>
      if leNat spa = wantedIp.toNat then use buf n 22 6 fun sha => ⟨some sha, 1, true⟩
      else continued

/-- `recv_arp_reply`; `timeout` is whether the timeout can be set, and `buf` the memory of the buffer. -/
def recvArpReply (timeout : Bool) (wantedIp : UInt32) (buf : List UInt8)
    (frames : List (List UInt8)) : Run :=
  if !timeout then ⟨none, 0, true⟩ else receive wantedIp buf frames

/-! ## Frames -/

/-- The headers of an ARP reply. -/
def IsReply (frame : List UInt8) : Prop :=
  slice frame 12 2 = [0x08, 0x06] ∧ slice frame 20 2 = [0x00, 0x02]

instance : DecidablePred IsReply := fun _ => inferInstanceAs (Decidable (_ ∧ _))

/-- The sender protocol address. -/
def spa (frame : List UInt8) : ℕ := leNat (slice frame 28 4)

/-- A complete ARP reply of the address, with its sender hardware address. -/
def Carries (wantedIp : UInt32) (mac frame : List UInt8) : Prop :=
  42 ≤ frame.length ∧ IsReply frame ∧ spa frame = wantedIp.toNat ∧ slice frame 22 6 = mac

/-- The MAC, if there is one, is that of a frame that was received, and no byte is used that the
    frame received last has not. -/
def Run.Sound (run : Run) (wantedIp : UInt32) (frames : List (List UInt8)) : Prop :=
  (∀ mac ∈ run.mac, ∃ frame ∈ frames.take run.received, Carries wantedIp mac frame) ∧ run.fresh

/-- Up to the first reply of the address, each reply has at least the 32 bytes up to its sender
    protocol address, and that one is complete. -/
def Whole (wantedIp : UInt32) : List (List UInt8) → Prop
  | [] => True
  | frame :: frames =>
    if 22 ≤ frame.length ∧ IsReply frame then
      32 ≤ frame.length ∧ (if spa frame = wantedIp.toNat then 42 ≤ frame.length
        else Whole wantedIp frames)
    else Whole wantedIp frames

/-! ## A frame -/

variable {buf frame : List UInt8} {frames : List (List UInt8)} {wantedIp : UInt32}

/-- A request is a complete packet. -/
theorem length_sendArpReq {srcMac : List UInt8} (h : srcMac.length = 6) (srcIp tgtIp : UInt32) :
    (sendArpReq srcMac srcIp tgtIp).length = 42 := by
  simp [sendArpReq, h]

/-- What is read within the frame is what the frame has. -/
theorem slice_receive {off len : ℕ} (h : off + len ≤ frame.length) (hsize : off + len ≤ BUF_SIZE) :
    slice (overwrite buf 0 (frame.take BUF_SIZE)) off len = slice frame off len := by
  have hlength : (frame.take BUF_SIZE).length = min BUF_SIZE frame.length := List.length_take
  rw [overwrite, List.take_zero, List.nil_append, slice, slice,
    List.drop_append_of_le_length (by omega), List.take_append_of_le_length, List.drop_take,
    List.take_take, min_eq_left (by omega)]
  rw [List.length_drop]
  omega

theorem use_of_le {n off len : ℕ} (h : off + len ≤ n) (k : List UInt8 → Run) :
    use buf n off len k = k (slice buf off len) := by
  rw [use, decide_eq_true h, Bool.true_and]

/-- A frame that is too short for the headers is left aside, -/
theorem receive_of_lt (h : frame.length < 22) : receive wantedIp buf (frame :: frames) =
    (receive wantedIp (overwrite buf 0 (frame.take BUF_SIZE)) frames).after := by
  rw [receive]
  exact if_pos (by omega)

/-- and so is one that is not a reply; of a reply the sender protocol address is read. -/
theorem receive_of_le (h : 22 ≤ frame.length) : receive wantedIp buf (frame :: frames) =
    if IsReply frame then
      let buf := overwrite buf 0 (frame.take BUF_SIZE)
      let n := min frame.length BUF_SIZE
      use buf n 28 4 fun spa =>
        if leNat spa = wantedIp.toNat then use buf n 22 6 fun sha => ⟨some sha, 1, true⟩
        else (receive wantedIp buf frames).after
    else (receive wantedIp (overwrite buf 0 (frame.take BUF_SIZE)) frames).after := by
  have hsize : BUF_SIZE = 2048 := rfl
  rw [receive]
  dsimp only
  rw [if_neg (by omega), use_of_le (by omega), use_of_le (by omega), slice_receive (by omega)
    (by omega), slice_receive (by omega) (by omega)]
  by_cases hproto : slice frame 12 2 = [0x08, 0x06]
  · by_cases hop : slice frame 20 2 = [0x00, 0x02]
    · have hreply : IsReply frame := ⟨hproto, hop⟩
      rw [if_neg (not_not.2 hproto), if_neg (not_not.2 hop), if_pos hreply]
    · rw [if_neg (not_not.2 hproto), if_pos hop, if_neg fun hreply => hop hreply.2]
  · rw [if_pos hproto, if_neg fun hreply => hproto hreply.1]

/-- A reply whose addresses are not all there is read beyond its end. -/
theorem receive_of_short (h : IsReply frame) (hle : 22 ≤ frame.length) (hlt : frame.length < 32) :
    (receive wantedIp buf (frame :: frames)).fresh = false := by
  rw [receive_of_le hle, if_pos h, use, decide_eq_false (by omega), Bool.false_and]

/-- A longer one is returned if it is of the address. -/
theorem receive_of_reply (h : IsReply frame) (hle : 32 ≤ frame.length) :
    receive wantedIp buf (frame :: frames) =
      if spa frame = wantedIp.toNat then ⟨some (slice frame 22 6), 1, true⟩
      else (receive wantedIp (overwrite buf 0 (frame.take BUF_SIZE)) frames).after := by
  have hsize : BUF_SIZE = 2048 := rfl
  rw [receive_of_le (by omega), if_pos h, use_of_le (by omega), use_of_le (by omega),
    slice_receive (by omega) (by omega), slice_receive (by omega) (by omega), spa]

/-! ## All frames -/

/-- A frame that carries nothing does not matter if it is left aside. -/
theorem sound_after {run : Run} (h : ∀ mac, ¬Carries wantedIp mac frame) :
    run.after.Sound wantedIp (frame :: frames) ↔ run.Sound wantedIp frames := by
  have hmac : ∀ mac, (∃ f ∈ frame :: frames.take run.received, Carries wantedIp mac f) ↔
      ∃ f ∈ frames.take run.received, Carries wantedIp mac f := fun mac => by
    simp [h]
  simp only [Run.Sound, Run.after, List.take_succ_cons, hmac]

theorem receive_sound_iff :
    (receive wantedIp buf frames).Sound wantedIp frames ↔ Whole wantedIp frames := by
  induction frames generalizing buf with
  | nil => simp [receive, Run.Sound, Whole]
  | cons frame frames ih =>
    rw [Whole]
    by_cases hreply : 22 ≤ frame.length ∧ IsReply frame
    swap
    · have hcarries : ∀ mac, ¬Carries wantedIp mac frame := fun mac h =>
        hreply ⟨le_trans (by norm_num) h.1, h.2.1⟩
      have hafter : receive wantedIp buf (frame :: frames) =
          (receive wantedIp (overwrite buf 0 (frame.take BUF_SIZE)) frames).after := by
        by_cases hle : 22 ≤ frame.length
        · rw [receive_of_le hle, if_neg fun h => hreply ⟨hle, h⟩]
        · exact receive_of_lt (Nat.lt_of_not_le hle)
      rw [if_neg hreply, hafter, sound_after hcarries, ih]
    rw [if_pos hreply]
    by_cases hle : 32 ≤ frame.length
    swap
    · refine iff_of_false (fun h => ?_) fun h => hle h.1
      rw [Run.Sound, receive_of_short hreply.2 hreply.1 (Nat.lt_of_not_le hle)] at h
      exact Bool.false_ne_true h.2
    rw [receive_of_reply hreply.2 hle, and_iff_right hle]
    by_cases hspa : spa frame = wantedIp.toNat
    · rw [if_pos hspa, if_pos hspa]
      simp [Run.Sound, Carries, hreply.2, hspa]
    · rw [if_neg hspa, if_neg hspa, sound_after fun mac h => hspa h.2.2.1, ih]

/-- ARP replies are read from one frame. Whatever the buffer holds and whatever frames of any length
    are received, the MAC is that of a complete reply of the address and no byte is used that the
    frame received last does not have, exactly if the timeout cannot be set or the replies are
    whole, up to the first one of the address. -/
theorem recvArpReply_iff (timeout : Bool) (wantedIp : UInt32) (buf : List UInt8)
    (frames : List (List UInt8)) :
    (recvArpReply timeout wantedIp buf frames).Sound wantedIp frames ↔
      timeout = false ∨ Whole wantedIp frames := by
  cases timeout with
  | false => simp [recvArpReply, Run.Sound]
  | true =>
    rw [or_iff_right Bool.true_eq_false.mp]
    exact receive_sound_iff

/-- A request of `10.0.1.1`, and a reply that ends with its ARP header. -/
def demoFrames : List (List UInt8) :=
  [sendArpReq [2, 0, 0, 0, 0, 1] 0x0101000a 0x0201000a,
    List.replicate 12 0 ++ [0x08, 0x06] ++ [0x00, 0x01, 0x08, 0x00, 6, 4, 0x00, 0x02]]

/-- The MAC is taken from the request, which is still in the buffer. -/
theorem recvArpReply_stale :
    (recvArpReply true 0x0101000a (List.replicate BUF_SIZE 0) demoFrames).mac =
        some [2, 0, 0, 0, 0, 1] ∧
      ¬(recvArpReply true 0x0101000a (List.replicate BUF_SIZE 0) demoFrames).Sound 0x0101000a
        demoFrames := by
  have hrun : recvArpReply true 0x0101000a (List.replicate BUF_SIZE 0) demoFrames =
      ⟨some [2, 0, 0, 0, 0, 1], 2, false⟩ := by decide +kernel
  rw [hrun]
  exact ⟨rfl, fun h => Bool.false_ne_true h.2⟩

end Arp

end L4Balancer
