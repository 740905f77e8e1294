import L4Balancer.Bpf.Walk
import L4Balancer.Control.Exporter

/-!
# The blacklist

Two loops of the dataplane go through the blacklist. `GetDdosStats` keeps the last key in
`prev_key`, so that it counts each entry once (`blacklistSize_eq`). `GetBlackList` asks for the
first key each time, and the deletion that would make this progress is commented out: it ends
only if the blacklist is empty (`blackListExact_iff`).
-/

namespace L4Balancer

open Bpf

namespace DdosMaps

variable (m : DdosMaps)

/-- The body of the loop of `GetBlackList`. -/
def listBanned (ipKey : BitVec 32) (result : Std.TreeMap String UInt64) :
    Std.TreeMap String UInt64 :=
  match m.blacklist.lookup ipKey with
  | some timestamp => result.insert (inetNtop ipKey) timestamp
  | none => result

/-- `GetBlackList`; `none` if the fuel does not last. The key before is always a null pointer. -/
def getBlackList (fuel : ℕ) : Option (Std.TreeMap String UInt64) :=
  m.blacklist.walk (fun _ => none) m.listBanned fuel none ∅

/-- The loop of `GetDdosStats`. The key before is `prev_key`, but for the first one. -/
def blacklistSize (fuel : ℕ) : Option UInt64 :=
  m.blacklist.walk some (fun _ size => size + 1) fuel none 0

/-- The query ends, and what it returns has one pair for each entry: the address as a text and the
    time of the ban. -/
def BlackListExact : Prop :=
  ∃ fuel result, m.getBlackList fuel = some result ∧
    result.toList.Perm (m.blacklist.table.entries.map fun e => (inetNtop e.1, e.2))

variable {m}

/-- A 64-bit counter counts the keys, but for wrapping round. -/
theorem foldl_add_one (keys : List (BitVec 32)) (size : UInt64) :
    keys.foldl (fun size _ => size + 1) size = size + .ofNat keys.length := by
  induction keys generalizing size with
  | nil => simp
  | cons key keys ih =>
    rw [List.foldl_cons, ih, List.length_cons, Nat.add_comm, UInt64.ofNat_add, UInt64.add_assoc]
    rfl

/-- `GetDdosStats` ends and counts the entries. -/
theorem blacklistSize_eq {fuel : ℕ} (h : m.blacklist.size < fuel) :
    m.blacklistSize fuel = some (.ofNat m.blacklist.size) := by
  rw [blacklistSize, HashMap.walk_some _ _ h, foldl_add_one, HashMap.length_keys, UInt64.zero_add]

/-- The blacklist query ends and is exact exactly if there is nothing on the blacklist. -/
theorem blackListExact_iff : m.BlackListExact ↔ m.blacklist.size = 0 := by
  constructor
  · rintro ⟨fuel, result, hresult, -⟩
    exact HashMap.walk_none.1 ⟨fuel, result, hresult⟩
  · intro h
    refine ⟨1, ∅, HashMap.walk_of_size_eq_zero h _ _ 0 ∅, ?_⟩
    rw [List.length_eq_zero_iff.1 h, List.map_nil]
    exact .nil

end DdosMaps

/-- What the exporter reports is the count of that loop. -/
theorem getDdosStats_eq {cpus : ℕ} (d : Dataplane cpus) :
    d.ddos.blacklistSize (d.ddos.blacklist.size + 1) = some d.getDdosStats.2 :=
  DdosMaps.blacklistSize_eq (Nat.lt_succ_self _)

/-- A blacklist with one source. -/
def demoBanned : DdosMaps := { DdosMaps.fresh with blacklist := HashMap.empty.put 0x0100000a 5 }

/-- The query for it does not end. -/
theorem getBlackList_endless : ¬demoBanned.BlackListExact := by
  rintro ⟨fuel, result, hresult, -⟩
  have hsize : demoBanned.blacklist.size = 0 := HashMap.walk_none.1 ⟨fuel, result, hresult⟩
  exact absurd hsize (by decide)

end L4Balancer
