import L4Balancer.Records

/-!
# Neighbour lookup

`Ndp::Lookup`: it asks the kernel for the table of IPv6 neighbours and reads the datagrams of the
reply, the messages in them and the attributes in these, until it has found the MAC of the
address. `NLMSG_DONE` is meant to end this, but its `break` leaves the loop over the messages
only: without a match the next datagram is asked for, and the socket has no timeout. So the
lookup ends with the reply exactly if there is a message in it that decides: an entry that
matches, or an `NLMSG_ERROR` (`lookup_iff`).
-/

namespace L4Balancer

open Bytes Records

def NLMSG_ERROR : ℕ := 2
def NLMSG_DONE : ℕ := 3
def RTM_NEWNEIGH : ℕ := 28
def RTM_GETNEIGH : ℕ := 30
def NDA_DST : ℕ := 1
def NDA_LLADDR : ℕ := 2
def AF_INET6 : ℕ := 10

namespace Ndp

/-- Messages, as `NLMSG_OK` and `NLMSG_NEXT` go through them: the length is compared unsigned. -/
def nlmsg : Format where
  header := 16
  width := 4
  avail len := len % 2 ^ 64
  header_pos := by norm_num
  width_le := by norm_num
  avail_of_nonneg len hnonneg hlt := by omega

/-- Attributes, as `RTA_OK` and `RTA_NEXT` go through them. -/
def rtattr : Format where
  header := 4
  width := 2
  avail := id
  header_pos := by norm_num
  width_le := by norm_num
  avail_of_nonneg _ _ _ := rfl

/-- What has been found in an entry: `dst_addr` and `lladdr`. -/
abbrev Found := Option (List UInt8) × Option (List UInt8)

/-- The body of the loop over the attributes. -/
def visitAttr (rta : List UInt8) (found : Found) : Option (Found ⊕ Empty) := do
  let type ← nat? rta 2 2
  let len ← nat? rta 0 2
  if type = NDA_DST ∧ len = 20 then
    let dst ← slice? rta 4 16
    return .inl (some dst, found.2)
  else if type = NDA_LLADDR ∧ len = 10 then
    let lladdr ← slice? rta 4 6
    return .inl (found.1, some lladdr)
  else return .inl found

/-- An `RTM_NEWNEIGH`: its MAC, if it is for the address. -/
def neighbour (addr6 : List UInt8) (ifIndex : UInt32) (nlh : List UInt8) :
    Option (Option (List UInt8)) := do
  let len ← nat? nlh 0 4
  let family ← nat? nlh 16 1
  let index ← nat? nlh 20 4
  if family = AF_INET6 ∧ index = ifIndex.toNat then
    -- `RTM_PAYLOAD` is computed unsigned and stored in an `int`
    let payload : ℤ := ((len : ℤ) - 28).bmod (2 ^ 32)
    match ← rtattr.walk visitAttr (nlh.length + 1) (nlh.drop 28) payload (none, none) with
    | .inl (some dst, some lladdr) => return if dst = addr6 then some lladdr else none
    | _ => return none
  else return none

/-- Why the loop over the messages is left early. -/
inductive Exit
  | done
  | error
  | found (mac : List UInt8)

/-- The body of the loop over the messages. -/
def visitMessage (addr6 : List UInt8) (ifIndex : UInt32) (nlh : List UInt8) (_ : Unit) :
    Option (Unit ⊕ Exit) := do
  let type ← nat? nlh 4 2
  if type = NLMSG_DONE then return .inr .done
  if type = NLMSG_ERROR then return .inr .error
  if type = RTM_NEWNEIGH then
    match ← neighbour addr6 ifIndex nlh with
    | some mac => return .inr (.found mac)
    | none => return .inl ()
  else return .inl ()

/-- What `recvmsg` stores of a datagram in the buffer of 16384 bytes. -/
structure Datagram where
  bytes : List UInt8
  length_le : bytes.length ≤ 16384

/-- How a lookup ends. -/
inductive Outcome
  | returned (mac : Option (List UInt8))
  /-- It asks for a datagram and there is none. -/
  | waits
  /-- It reads past the end of the buffer. -/
  | stray
  deriving DecidableEq

/-- The loop over the messages of a datagram of `len` bytes. -/
def readMessages (addr6 : List UInt8) (ifIndex : UInt32) (buffer : List UInt8) (len : ℕ) :
    Option (Unit ⊕ Exit) :=
  nlmsg.walk (visitMessage addr6 ifIndex) (buffer.length + 1) buffer len ()

/-- What the lookup returns after that loop; `none` if it asks for the next datagram. -/
def result : Unit ⊕ Exit → Option (Option (List UInt8))
  -- the `break` for `NLMSG_DONE` leaves the loop over the messages only
  | .inl () | .inr .done => none
  | .inr .error => some none
  | .inr (.found mac) => some (some mac)

/-- The loop over the datagrams, over the buffer with what is left of the ones before; `none` for a
    `recvmsg` that fails. -/
def receive (addr6 : List UInt8) (ifIndex : UInt32) :
    List UInt8 → List (Option Datagram) → Outcome
  | _, [] => .waits
  | _, none :: _ => .returned none
  | buffer, some datagram :: recv =>
    let buffer := overwrite buffer 0 datagram.bytes
    (readMessages addr6 ifIndex buffer datagram.bytes.length).elim .stray fun exit =>
      (result exit).elim (receive addr6 ifIndex buffer recv) .returned

/-- What the lookup gets from the system. -/
structure System where
  inetPton6 : String → Option (List UInt8)
  /-- Zero if there is no such interface. -/
  ifNametoindex : String → UInt32
  socket : Bool
  bind : Bool
  getpid : UInt32
  send : List UInt8 → Bool
  /-- The memory of the buffer, before anything is received. -/
  buffer : List UInt8
  length_buffer : buffer.length = 16384
  recv : List (Option Datagram)

/-- The request for a dump of the neighbours: `NLM_F_REQUEST | NLM_F_DUMP`, and the states in which an
    entry has a MAC. -/
def request (pid ifIndex : UInt32) : List UInt8 :=
  leBytes 4 28 ++ leBytes 2 RTM_GETNEIGH ++ leBytes 2 0x301 ++ leBytes 4 1 ++ leBytes 4 pid.toNat ++
    leBytes 4 AF_INET6 ++ leBytes 4 ifIndex.toNat ++ leBytes 2 0x9e ++ leBytes 2 0

/-- `Lookup`. -/
def lookup (sys : System) (ipv6 iface : String) : Outcome :=
  match sys.inetPton6 ipv6 with
  | none => .returned none
  | some addr6 =>
    let ifIndex := sys.ifNametoindex iface
    if ifIndex = 0 then .returned none
    else if !sys.socket then .returned none
    else if !sys.bind then .returned none
    else if !sys.send (request sys.getpid ifIndex) then .returned none
    else receive addr6 ifIndex sys.buffer sys.recv

/-! ## The reply -/

def msgType (r : List UInt8) : ℕ := leNat (slice r 4 2)

/-- The attributes of an entry. -/
def attributes (r : List UInt8) : List (List UInt8) := (rtattr.parse (r.drop 28)).getD []

/-- The value of the attribute of a type that has `size` bytes, of the last one if there are more. -/
def attrValue (attrs : List (List UInt8)) (type size : ℕ) : Option (List UInt8) :=
  (attrs.filter fun a => leNat (slice a 2 2) = type ∧ a.length = 4 + size).getLast?.map
    (slice · 4 size)

/-- The message is an entry of the interface. -/
def IsEntry (ifIndex : UInt32) (r : List UInt8) : Prop :=
  msgType r = RTM_NEWNEIGH ∧ leNat (slice r 16 1) = AF_INET6 ∧
    leNat (slice r 20 4) = ifIndex.toNat

instance (ifIndex : UInt32) : DecidablePred (IsEntry ifIndex) :=
  fun _ => inferInstanceAs (Decidable (_ ∧ _ ∧ _))

/-- The MAC of an entry of the interface for the address. -/
def entryMac (addr6 : List UInt8) (ifIndex : UInt32) (r : List UInt8) : Option (List UInt8) :=
  if IsEntry ifIndex r ∧ attrValue (attributes r) NDA_DST 16 = some addr6 then
    attrValue (attributes r) NDA_LLADDR 6
  else none

/-- The message decides what is looked up. -/
def Decides (addr6 : List UInt8) (ifIndex : UInt32) (r : List UInt8) : Prop :=
  msgType r = NLMSG_ERROR ∨ (entryMac addr6 ifIndex r).isSome

instance (addr6 : List UInt8) (ifIndex : UInt32) : DecidablePred (Decides addr6 ifIndex) :=
  fun _ => inferInstanceAs (Decidable (_ ∨ _))

/-- The messages of a datagram before an `NLMSG_DONE`. -/
def beforeDone (ms : List (List UInt8)) : List (List UInt8) :=
  ms.takeWhile fun r => msgType r ≠ NLMSG_DONE

/-- The first message that decides. -/
def decisive (addr6 : List UInt8) (ifIndex : UInt32) (ms : List (List UInt8)) :
    Option (List UInt8) :=
  ms.find? fun r => Decides addr6 ifIndex r

/-- What the dump says of the address: the MAC of its first entry, unless there is an error before. -/
def answer (addr6 : List UInt8) (ifIndex : UInt32) (dump : List (List (List UInt8))) :
    Option (List UInt8) :=
  (decisive addr6 ifIndex (dump.flatMap beforeDone)).bind (entryMac addr6 ifIndex)

/-- The datagram is well-formed and holds the messages, and its entries their attributes. -/
structure Datagram.Holds (d : Datagram) (ms : List (List UInt8)) : Prop where
  parse : nlmsg.parse d.bytes = some ms
  entries : ∀ r ∈ ms, msgType r = RTM_NEWNEIGH →
    28 ≤ r.length ∧ (rtattr.parse (r.drop 28)).isSome

/-- The kernel takes the request for the address and replies with the dump. -/
structure Replies (sys : System) (ipv6 iface : String) (addr6 : List UInt8)
    (dump : List (List (List UInt8))) : Prop where
  inetPton6 : sys.inetPton6 ipv6 = some addr6
  ifNametoindex : sys.ifNametoindex iface ≠ 0
  socket : sys.socket
  bind : sys.bind
  send : sys.send (request sys.getpid (sys.ifNametoindex iface))
  recv : List.Forall₂ (fun datagram ms => ∃ d, datagram = some d ∧ d.Holds ms) sys.recv dump
  done : ∃ ms, dump.getLast? = some ms ∧ ∃ r ∈ ms, msgType r = NLMSG_DONE

variable {addr6 : List UInt8} {ifIndex : UInt32}

/-! ## An entry -/

/-- What the loop makes of an attribute. -/
def takeAttr (a : List UInt8) (found : Found) : Found ⊕ Empty :=
  if leNat (slice a 2 2) = NDA_DST ∧ a.length = 20 then .inl (some (slice a 4 16), found.2)
  else if leNat (slice a 2 2) = NDA_LLADDR ∧ a.length = 10 then .inl (found.1, some (slice a 4 6))
  else .inl found

theorem visitAttr_append {a : List UInt8} (hle : 4 ≤ a.length)
    (hlen : leNat (slice a 0 2) = a.length) (tail : List UInt8) (found : Found) :
    visitAttr (a ++ tail) found = some (takeAttr a found) := by
  rw [visitAttr, nat?_append (by omega), nat?_append (by omega), hlen, takeAttr]
  simp only [Option.bind_eq_bind, Option.bind_some]
  split_ifs with hdst hlladdr
  · rw [slice?_append (by omega)]
    rfl
  · rw [slice?_append (by omega)]
    rfl
  · rfl

theorem attrValue_singleton (a : List UInt8) (type size : ℕ) :
    attrValue [a] type size =
      if leNat (slice a 2 2) = type ∧ a.length = 4 + size then some (slice a 4 size) else none := by
  rw [attrValue, List.filter_cons, List.filter_nil]
  split_ifs with h₁ h₂ h₂
  · rfl
  · exact absurd (of_decide_eq_true h₁) h₂
  · exact absurd (decide_eq_true h₂) h₁
  · rfl

theorem attrValue_cons (a : List UInt8) (attrs : List (List UInt8)) (type size : ℕ) :
    attrValue (a :: attrs) type size =
      (attrValue attrs type size).or (attrValue [a] type size) := by
  rw [attrValue, attrValue, attrValue, List.filter_cons, List.filter_cons, List.filter_nil]
  split_ifs
  · rw [List.getLast?_cons]
    cases (List.filter _ attrs).getLast? <;> rfl
  · exact Option.or_none.symm

/-- An attribute is taken for at most one of the two kinds. -/
theorem takeAttr_eq (a : List UInt8) (found : Found) :
    takeAttr a found = .inl ((attrValue [a] NDA_DST 16).or found.1,
      (attrValue [a] NDA_LLADDR 6).or found.2) := by
  have hne : ¬NDA_DST = NDA_LLADDR := by decide
  rw [takeAttr, attrValue_singleton, attrValue_singleton]
  split_ifs with hdst hlladdr hlladdr
  · exact absurd (hdst.1.symm.trans hlladdr.1) hne
  · rfl
  · rfl
  · rfl

/-- The loop over the attributes finds the last ones of the two kinds. -/
theorem foldUntil_takeAttr (attrs : List (List UInt8)) (found : Found) :
    foldUntil takeAttr attrs found = .inl ((attrValue attrs NDA_DST 16).or found.1,
      (attrValue attrs NDA_LLADDR 6).or found.2) := by
  induction attrs generalizing found with
  | nil => rfl
  | cons a attrs ih =>
    rw [foldUntil, takeAttr_eq, attrValue_cons a attrs, attrValue_cons a attrs, Option.or_assoc,
      Option.or_assoc]
    exact ih _

theorem neighbour_append {r : List UInt8} (hlen : leNat (slice r 0 4) = r.length)
    (hlt : r.length < 2 ^ 31) (hle : 28 ≤ r.length) (hattrs : (rtattr.parse (r.drop 28)).isSome)
    (htype : msgType r = RTM_NEWNEIGH) (tail : List UInt8) :
    neighbour addr6 ifIndex (r ++ tail) = some (entryMac addr6 ifIndex r) := by
  obtain ⟨attrs, hattrs⟩ := Option.isSome_iff_exists.1 hattrs
  have hwalk : rtattr.walk visitAttr ((r ++ tail).length + 1) ((r ++ tail).drop 28)
      (((r.length : ℤ) - 28).bmod (2 ^ 32)) (none, none) =
      some (.inl (attrValue attrs NDA_DST 16, attrValue attrs NDA_LLADDR 6)) := by
    have hpayload : ((r.length : ℤ) - 28).bmod (2 ^ 32) = (r.drop 28).length := by
      rw [List.length_drop, Int.bmod_eq_of_le (by omega) (by omega)]
      omega
    rw [hpayload, List.drop_append_of_le_length hle, Format.walk_parse hattrs, foldUntil_takeAttr,
      Option.or_none, Option.or_none]
    · rw [List.length_drop]
      omega
    · intro a ha tail found
      obtain ⟨hle, -, hlen⟩ := Format.of_mem_parseFrom hattrs ha
      exact visitAttr_append hle hlen tail found
    · rw [List.length_append, List.length_drop]
      omega
  rw [neighbour, nat?_append (by omega), nat?_append (by omega), nat?_append (by omega), hlen,
    entryMac, attributes, hattrs, Option.getD_some]
  simp only [Option.bind_eq_bind, Option.bind_some, hwalk]
  by_cases hentry : leNat (slice r 16 1) = AF_INET6 ∧ leNat (slice r 20 4) = ifIndex.toNat
  swap
  · rw [if_neg hentry, if_neg fun h => hentry h.1.2]
    rfl
  have hIsEntry : IsEntry ifIndex r := ⟨htype, hentry⟩
  simp only [if_pos hentry, hIsEntry, true_and]
  cases attrValue attrs NDA_DST 16 with
  | none => rfl
  | some dst =>
    cases attrValue attrs NDA_LLADDR 6 with
    | none => simp
    | some lladdr => simp

/-! ## A datagram -/

/-- What the loop makes of a message. -/
def takeMessage (addr6 : List UInt8) (ifIndex : UInt32) (r : List UInt8) (_ : Unit) : Unit ⊕ Exit :=
  if msgType r = NLMSG_DONE then .inr .done
  else if msgType r = NLMSG_ERROR then .inr .error
  else (entryMac addr6 ifIndex r).elim (.inl ()) fun mac => .inr (.found mac)

/-- Only an entry has a MAC. -/
theorem entryMac_of_ne {r : List UInt8} (h : msgType r ≠ RTM_NEWNEIGH) :
    entryMac addr6 ifIndex r = none :=
  if_neg fun hentry => h hentry.1.1

theorem visitMessage_append {r : List UInt8} (hle : 16 ≤ r.length) (hlt : r.length < 2 ^ 31)
    (hlen : leNat (slice r 0 4) = r.length)
    (hentry : msgType r = RTM_NEWNEIGH → 28 ≤ r.length ∧ (rtattr.parse (r.drop 28)).isSome)
    (tail : List UInt8) :
    visitMessage addr6 ifIndex (r ++ tail) () = some (takeMessage addr6 ifIndex r ()) := by
  have htype : nat? (r ++ tail) 4 2 = some (msgType r) := nat?_append (by omega)
  rw [visitMessage, htype, takeMessage]
  simp only [Option.bind_eq_bind, Option.bind_some]
  split_ifs with hdone herror hneigh
  · rfl
  · rfl
  · obtain ⟨hle, hattrs⟩ := hentry hneigh
    rw [neighbour_append hlen hlt hle hattrs hneigh]
    cases entryMac addr6 ifIndex r <;> rfl
  · rw [entryMac_of_ne hneigh]
    rfl

theorem decisive_cons (r : List UInt8) (ms : List (List UInt8)) :
    decisive addr6 ifIndex (r :: ms) =
      if Decides addr6 ifIndex r then some r else decisive addr6 ifIndex ms := by
  rw [decisive, List.find?_cons]
  by_cases h : Decides addr6 ifIndex r <;> simp [h, decisive]

/-- The loop over the messages returns what the first one says that decides, before a
    `NLMSG_DONE`. -/
theorem result_takeMessage (ms : List (List UInt8)) :
    result (foldUntil (takeMessage addr6 ifIndex) ms ()) =
      (decisive addr6 ifIndex (beforeDone ms)).map (entryMac addr6 ifIndex) := by
  induction ms with
  | nil => rfl
  | cons r ms ih =>
    rw [beforeDone, foldUntil, takeMessage]
    by_cases hdone : msgType r = NLMSG_DONE
    · rw [List.takeWhile_cons_of_neg (by simpa using hdone), if_pos hdone]
      rfl
    rw [List.takeWhile_cons_of_pos (by simpa using hdone), if_neg hdone, decisive_cons]
    by_cases herror : msgType r = NLMSG_ERROR
    · have hne : msgType r ≠ RTM_NEWNEIGH := by rw [herror]; decide
      rw [if_pos herror, if_pos (.inl herror), Option.map_some, entryMac_of_ne hne]
      rfl
    rw [if_neg herror]
    cases hmac : entryMac addr6 ifIndex r with
    | some mac =>
      rw [if_pos (.inr (by rw [hmac]; rfl)), Option.map_some, hmac]
      rfl
    | none =>
      have hdecides : ¬Decides addr6 ifIndex r := by
        rw [Decides, hmac]
        simp [herror]
      rw [if_neg hdecides]
      exact ih

/-! ## The reply, to its end -/

theorem readMessages_overwrite {d : Datagram} {ms : List (List UInt8)} (h : d.Holds ms)
    (buffer : List UInt8) :
    readMessages addr6 ifIndex (overwrite buffer 0 d.bytes) d.bytes.length =
      some (foldUntil (takeMessage addr6 ifIndex) ms ()) := by
  have hle := d.length_le
  have hover : overwrite buffer 0 d.bytes = d.bytes ++ buffer.drop d.bytes.length := by
    rw [overwrite, List.take_zero, List.nil_append, Nat.zero_add]
  rw [readMessages, hover]
  refine Format.walk_parse h.parse (by omega) (fun r hr tail _ => ?_) ?_ _ ()
  · obtain ⟨hheader, hlength, hlen⟩ := Format.of_mem_parseFrom h.parse hr
    exact visitMessage_append hheader (by omega) hlen (h.entries r hr) tail
  · rw [List.length_append]
    omega

/-- The lookup returns what the first message that decides says, and otherwise waits. -/
theorem receive_eq {recv : List (Option Datagram)} {dump : List (List (List UInt8))}
    (h : List.Forall₂ (fun datagram ms => ∃ d, datagram = some d ∧ d.Holds ms) recv dump)
    (buffer : List UInt8) :
    receive addr6 ifIndex buffer recv =
      (decisive addr6 ifIndex (dump.flatMap beforeDone)).elim .waits
        fun r => .returned (entryMac addr6 ifIndex r) := by
  induction h generalizing buffer with
  | nil => rfl
  | @cons _ ms recv dump hd _ ih =>
    obtain ⟨d, rfl, hd⟩ := hd
    have hsplit : decisive addr6 ifIndex ((ms :: dump).flatMap beforeDone) =
        (decisive addr6 ifIndex (beforeDone ms)).or
          (decisive addr6 ifIndex (dump.flatMap beforeDone)) := List.find?_append
    rw [receive, readMessages_overwrite hd, Option.elim_some, result_takeMessage, ih, hsplit]
    cases decisive addr6 ifIndex (beforeDone ms) <;> rfl

theorem lookup_eq {sys : System} {ipv6 iface : String} {dump : List (List (List UInt8))}
    (h : Replies sys ipv6 iface addr6 dump) :
    lookup sys ipv6 iface =
      (decisive addr6 (sys.ifNametoindex iface) (dump.flatMap beforeDone)).elim .waits
        fun r => .returned (entryMac addr6 (sys.ifNametoindex iface) r) := by
  rw [← receive_eq h.recv sys.buffer, lookup, h.inetPton6]
  simp [h.ifNametoindex, h.socket, h.bind, h.send]

/-- Neighbour lookup ends with the dump. Whatever the reply, the lookup returns the answer of the dump
    without asking for a further datagram exactly if a message before a `NLMSG_DONE` decides: an
    entry of the interface that has the address and a MAC, or an `NLMSG_ERROR`. -/
theorem lookup_iff {sys : System} {ipv6 iface : String} {dump : List (List (List UInt8))}
    (h : Replies sys ipv6 iface addr6 dump) :
    lookup sys ipv6 iface = .returned (answer addr6 (sys.ifNametoindex iface) dump) ↔
      ∃ r ∈ dump.flatMap beforeDone, Decides addr6 (sys.ifNametoindex iface) r := by
  rw [lookup_eq h, answer]
  cases hdecisive : decisive addr6 (sys.ifNametoindex iface) (dump.flatMap beforeDone) with
  | none =>
    refine iff_of_false (fun h => Outcome.noConfusion h) ?_
    rintro ⟨r, hr, hdecides⟩
    exact List.find?_eq_none.1 hdecisive r hr (decide_eq_true hdecides)
  | some r =>
    exact iff_of_true rfl
      ⟨r, List.mem_of_find?_eq_some hdecisive, of_decide_eq_true (List.find?_some (a := r) hdecisive)⟩

/-- A message of a dump, -/
def demoMessage (type : ℕ) (payload : List UInt8) : List UInt8 :=
  leBytes 4 (16 + payload.length) ++ leBytes 2 type ++ leBytes 2 2 ++ leBytes 4 1 ++ leBytes 4 0 ++
    payload

/-- its last one, -/
def demoDone : List UInt8 := demoMessage NLMSG_DONE (leBytes 4 0)

/-- the address `2001:db8::2`, -/
def demoAddr6 : List UInt8 := [0x20, 0x01, 0x0d, 0xb8] ++ List.replicate 11 0 ++ [2]

/-- the entry for it on the interface `2`, -/
def demoEntry : List UInt8 :=
  demoMessage RTM_NEWNEIGH (leBytes 4 AF_INET6 ++ leBytes 4 2 ++ leBytes 2 2 ++ leBytes 2 0 ++
    (leBytes 2 20 ++ leBytes 2 NDA_DST ++ demoAddr6) ++
    (leBytes 2 10 ++ leBytes 2 NDA_LLADDR ++ [2, 0, 0, 0, 0, 1]) ++ [0, 0])

/-- and a system that replies with one datagram. -/
def demoSystem (datagram : Datagram) : System where
  inetPton6 text := if text = "2001:db8::2" then some demoAddr6 else none
  ifNametoindex name := if name = "eth0" then 2 else 0
  socket := true
  bind := true
  getpid := 1
  send _ := true
  buffer := List.replicate 16384 0
  length_buffer := List.length_replicate
  recv := [some datagram]

theorem replies_demoSystem {datagram : Datagram} {ms : List (List UInt8)} (h : datagram.Holds ms)
    (hdone : ∃ r ∈ ms, msgType r = NLMSG_DONE) :
    Replies (demoSystem datagram) "2001:db8::2" "eth0" demoAddr6 [ms] where
  inetPton6 := rfl
  ifNametoindex := (by decide : (2 : UInt32) ≠ 0)
  socket := rfl
  bind := rfl
  send := rfl
  recv := .cons ⟨datagram, rfl, h⟩ .nil
  done := ⟨ms, rfl, hdone⟩

/-- A reply with the entry, -/
def demoFound : Datagram := ⟨demoEntry ++ demoDone, by decide⟩

/-- and one without entries. -/
def demoNone : Datagram := ⟨demoDone, by decide⟩

theorem demoFound_holds : demoFound.Holds [demoEntry, demoDone] where
  parse := by decide +kernel
  entries := by decide +kernel

theorem demoNone_holds : demoNone.Holds [demoDone] where
  parse := by decide +kernel
  entries := by decide +kernel

theorem lookup_demo : lookup (demoSystem demoFound) "2001:db8::2" "eth0" =
    .returned (answer demoAddr6 2 [[demoEntry, demoDone]]) :=
  (lookup_iff (replies_demoSystem demoFound_holds ⟨demoDone, by decide +kernel⟩)).2
    ⟨demoEntry, by decide +kernel⟩

/-- Without an entry the lookup waits for a datagram that does not come. -/
theorem lookup_waits :
    Replies (demoSystem demoNone) "2001:db8::2" "eth0" demoAddr6 [[demoDone]] ∧
      lookup (demoSystem demoNone) "2001:db8::2" "eth0" = .waits ∧
      ¬lookup (demoSystem demoNone) "2001:db8::2" "eth0" =
        .returned (answer demoAddr6 2 [[demoDone]]) := by
  have hreplies := replies_demoSystem demoNone_holds ⟨demoDone, by decide +kernel⟩
  have hwaits : lookup (demoSystem demoNone) "2001:db8::2" "eth0" = .waits := by
    have hnone : decisive demoAddr6 2 ([[demoDone]].flatMap beforeDone) = none := by decide +kernel
    rw [lookup_eq hreplies]
    exact congrArg (Option.elim · _ _) hnone
  exact ⟨hreplies, hwaits, fun h => Outcome.noConfusion (hwaits.symm.trans h)⟩

end Ndp

end L4Balancer
