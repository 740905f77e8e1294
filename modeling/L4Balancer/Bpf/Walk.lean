import L4Balancer.Bpf.Map

/-!
# Walking over a map

A controller goes through the entries of a hash map with a *cursor*: it asks for the key after the
cursor until there is none. Whether the loop ends is up to where it puts the cursor.

* A cursor on the last key handed out takes each key once, in the order of the map, and
  as many steps as there are keys are enough (`HashMap.walk_some`).
* A cursor that stays before the first key gets that key for ever: the loop ends only if the map
  is empty (`HashMap.walk_none`).
-/

namespace Bpf.HashMap

variable {κ ν σ : Type*} {cap : ℕ} [DecidableEq κ] {m : HashMap κ ν cap}

/-- `bpf_map_get_next_key`: the key after `prev`, the first one without it or if it has no entry. -/
def getNextKey (m : HashMap κ ν cap) : Option κ → Option κ
  | none => m.keys.head?
  | some prev => if prev ∈ m.keys then m.keys[m.keys.idxOf prev + 1]? else m.keys.head?

/-- A loop that ends when there is no key after the cursor. For a key it changes the state by `visit`
    and puts the cursor where `advance` says; `none` if the fuel does not last. -/
def walk (m : HashMap κ ν cap) (advance : κ → Option κ) (visit : κ → σ → σ) :
    ℕ → Option κ → σ → Option σ
  | 0, _, _ => none
  | fuel + 1, cursor, s =>
    match m.getNextKey cursor with
    | none => some s
    | some key => m.walk advance visit fuel (advance key) (visit key s)

/-- The key after the last one of a part of the keys is the first one of the rest. -/
theorem getNextKey_getLast? {before after : List κ} (h : m.keys = before ++ after) :
    m.getNextKey before.getLast? = after.head? := by
  have hnodup : m.keys.Nodup := m.table.keys_nodup
  rcases List.eq_nil_or_concat' before with rfl | ⟨before, key, rfl⟩
  · exact congrArg List.head? h
  · rw [List.append_assoc, List.singleton_append] at h
    rw [List.getLast?_concat, getNextKey]
    rw [h] at hnodup ⊢
    have hkey : key ∉ before := fun hmem =>
      (List.nodup_append.1 hnodup).2.2 key hmem key List.mem_cons_self rfl
    have hidx : (before ++ key :: after).idxOf key = before.length := by
      rw [List.idxOf_append_of_notMem hkey, List.idxOf_cons_self, Nat.add_zero]
    rw [if_pos (List.mem_append_right before List.mem_cons_self), hidx,
      List.getElem?_append_right (Nat.le_succ _), List.head?_eq_getElem?]
    simp

/-- With the cursor on the last key handed out, the loop takes the keys after it in turn. -/
theorem walk_after {visit : κ → σ → σ} {before after : List κ} (h : m.keys = before ++ after)
    {fuel : ℕ} (hfuel : after.length < fuel) (s : σ) :
    m.walk some visit fuel before.getLast? s = some (after.foldl (fun s key => visit key s) s) := by
  induction after generalizing before fuel s with
  | nil =>
    obtain ⟨fuel, rfl⟩ := Nat.exists_eq_add_of_lt hfuel
    rw [walk, getNextKey_getLast? h]
    rfl
  | cons key after ih =>
    obtain ⟨fuel, rfl⟩ : ∃ n, fuel = n + 1 := ⟨fuel - 1, by omega⟩
    have hkeys : m.keys = before ++ [key] ++ after := by simp [h]
    have hrest := ih hkeys (Nat.lt_of_succ_lt_succ hfuel) (visit key s)
    rw [List.getLast?_concat] at hrest
    rw [walk, getNextKey_getLast? h]
    exact hrest

/-- The loop that moves its cursor visits each key once. -/
theorem walk_some (m : HashMap κ ν cap) (visit : κ → σ → σ) {fuel : ℕ} (hfuel : m.size < fuel)
    (s : σ) : m.walk some visit fuel none s = some (m.keys.foldl (fun s key => visit key s) s) :=
  walk_after (List.nil_append m.keys).symm (m.length_keys.trans_lt hfuel) s

/-- Over a map without keys, any loop ends where it starts. -/
theorem walk_of_size_eq_zero (h : m.size = 0) (advance : κ → Option κ) (visit : κ → σ → σ)
    (fuel : ℕ) (s : σ) : m.walk advance visit (fuel + 1) none s = some s := by
  have hkeys : m.keys = [] := List.length_eq_zero_iff.1 (m.length_keys.trans h)
  rw [walk, getNextKey, hkeys]
  rfl

/-- The loop that does not ends exactly if there is no key. -/
theorem walk_none {visit : κ → σ → σ} {s : σ} :
    (∃ fuel s', m.walk (fun _ => none) visit fuel none s = some s') ↔ m.size = 0 := by
  constructor
  · rintro ⟨fuel, s', h⟩
    induction fuel generalizing s with
    | zero => cases h
    | succ fuel ih =>
      rw [walk] at h
      cases hkey : m.getNextKey none with
      | none => rw [← length_keys, List.head?_eq_none_iff.1 hkey, List.length_nil]
      | some key =>
        rw [hkey] at h
        exact ih h
  · exact fun h => ⟨1, s, walk_of_size_eq_zero h _ _ 0 s⟩

end Bpf.HashMap
