import Mathlib.Data.Nat.Prime.Basic
import Mathlib.Algebra.Field.ZMod
import Mathlib.Data.Int.CardIntervalMod

/-!
# Maglev tables

The lookup tables of Maglev hashing. Each of `n` backends has a *preference list*,
a list of all the `m` slots of the table in some order. The backends take turns,
round after round; at its turn, a backend takes the first slot of its list that is
still free. A free slot is marked by a negative entry.

* `permutation`: the preference list with an offset and a skip; if `m` is prime, it
  has every slot (`mem_permutation`);
* `populate`: the rounds, until every slot is taken; `none` if a backend reads past
  the end of its list;
* `populate_isSome`: this does not happen if every list has every slot;
* `populate_full`, `mem_populate`: every slot of the table has a backend, and every
  backend has one if there are slots enough;
* `count_populate`: the backends have the same number of slots, up to one.
-/

namespace Maglev

/-- The preference list of a backend. -/
def permutation (m offset skip : ℕ) : List ℕ :=
  (List.range m).map fun j => (offset + j * skip) % m

/-- With a prime number of slots, every slot is on the list. -/
theorem mem_permutation {m skip pos : ℕ} (hm : m.Prime) (hs : 0 < skip) (hlt : skip < m)
    (hpos : pos < m) (offset : ℕ) : pos ∈ permutation m offset skip := by
  have := Fact.mk hm
  have hs0 : (skip : ZMod m) ≠ 0 := by
    rw [Ne, ZMod.natCast_eq_zero_iff]
    exact Nat.not_dvd_of_pos_of_lt hs hlt
  let j : ZMod m := ((pos : ZMod m) - offset) * (skip : ZMod m)⁻¹
  refine List.mem_map.2 ⟨j.val, List.mem_range.2 j.val_lt, ?_⟩
  rw [← Nat.mod_eq_of_lt hpos]
  refine (ZMod.natCast_eq_natCast_iff' _ _ m).1 ?_
  push_cast
  rw [ZMod.natCast_val, ZMod.cast_id, mul_assoc, inv_mul_cancel₀ hs0, mul_one,
    add_sub_cancel]

theorem length_permutation (m offset skip : ℕ) : (permutation m offset skip).length = m := by
  rw [permutation, List.length_map, List.length_range]

/-- Every slot is on the list once. -/
theorem permutation_perm {m skip : ℕ} (hm : m.Prime) (hs : 0 < skip) (hlt : skip < m)
    (offset : ℕ) : (permutation m offset skip).Perm (List.range m) := by
  have hsub : List.range m ⊆ permutation m offset skip := fun pos hpos =>
    mem_permutation hm hs hlt (List.mem_range.1 hpos) offset
  refine ((List.nodup_range.subperm hsub).perm_of_length_le ?_).symm
  rw [length_permutation, List.length_range]

/-! ## Filling the table -/

/-- The state of the rounds: for each backend the position on its list, the table, and the number
    of taken slots. -/
structure Fill where
  next : ℕ → ℕ
  table : List ℤ
  count : ℕ

/-- Nothing is taken. -/
def Fill.start (m : ℕ) : Fill := ⟨fun _ => 0, List.replicate m (-1), 0⟩

@[simp] theorem Fill.count_start (m : ℕ) : (start m).count = 0 := rfl

/-- The first free slot of a list from the position `next` on, with its position; `none` if the
    list ends before. -/
def seek (table : List ℤ) : List ℕ → ℕ → Option (ℕ × ℕ)
  | [], _ => none
  | pos :: row, next =>
    table[pos]?.bind fun v => if v ≥ 0 then seek table row (next + 1) else some (next, pos)

/-- The turn of the backend `i`. -/
def turn (rows : List (List ℕ)) (i : ℕ) (s : Fill) : Option Fill :=
  rows[i]?.bind fun row =>
    (seek s.table (row.drop (s.next i)) (s.next i)).map fun (next, pos) =>
      ⟨Function.update s.next i (next + 1), s.table.set pos i, s.count + 1⟩

/-- The turns of the backends `is`; they stop when all `m` slots are taken. -/
def round (m : ℕ) (rows : List (List ℕ)) : List ℕ → Fill → Option Fill
  | [], s => some s
  | i :: is, s => (turn rows i s).bind fun s => if s.count = m then some s else round m rows is s

/-- The rounds, as long as slots are free. Each round takes a slot, so that `m` of them are
    enough. -/
def rounds (m : ℕ) (rows : List (List ℕ)) : ℕ → Fill → Option Fill
  | 0, s => if s.count < m then none else some s
  | fuel + 1, s =>
    if s.count < m then (round m rows (List.range rows.length) s).bind (rounds m rows fuel)
    else some s

/-- The table for the preference lists `rows`. -/
def populate (m : ℕ) (rows : List (List ℕ)) : Option (List ℤ) :=
  (rounds m rows m (.start m)).map Fill.table

/-! ## Invariants -/

/-- Every list has every slot and no other. -/
def Full (m : ℕ) (rows : List (List ℕ)) : Prop := ∀ row ∈ rows, ∀ pos, pos ∈ row ↔ pos < m

/-- What the rounds keep: entries are backends or free, `count` counts the taken slots, and each
    backend has gone past taken slots only. -/
structure Valid (m : ℕ) (rows : List (List ℕ)) (s : Fill) : Prop where
  length : s.table.length = m
  entries : ∀ v ∈ s.table, v = -1 ∨ 0 ≤ v ∧ v < rows.length
  count : s.count = s.table.countP (0 ≤ ·)
  passed : ∀ (i : ℕ) (row : List ℕ), rows[i]? = some row → ∀ pos ∈ row.take (s.next i),
    ∃ v, s.table[pos]? = some v ∧ 0 ≤ v

theorem Valid.start (m : ℕ) (rows : List (List ℕ)) : Valid m rows (.start m) where
  length := List.length_replicate
  entries v hv := .inl (List.eq_of_mem_replicate hv)
  count := by simp [Fill.start, List.countP_replicate]
  passed := by simp [Fill.start]

variable {m : ℕ} {rows : List (List ℕ)} {s s' : Fill} {i : ℕ}

/-- A slot found is on the list, free, and behind taken slots only. -/
theorem seek_spec {table : List ℤ} {row : List ℕ} {next next' pos : ℕ}
    (h : seek table row next = some (next', pos)) :
    ∃ d, next' = next + d ∧ row[d]? = some pos ∧ (∃ v, table[pos]? = some v ∧ v < 0) ∧
      ∀ p ∈ row.take d, ∃ v, table[p]? = some v ∧ 0 ≤ v := by
  induction row generalizing next with
  | nil => cases h
  | cons p row ih =>
    obtain ⟨v, hv, h⟩ := Option.bind_eq_some_iff.1 h
    split_ifs at h with hneg
    · obtain ⟨d, rfl, hpos, hfree, htaken⟩ := ih h
      refine ⟨d + 1, by omega, hpos, hfree, ?_⟩
      rw [List.take_succ_cons, List.forall_mem_cons]
      exact ⟨⟨v, hv, hneg⟩, htaken⟩
    · obtain ⟨rfl, rfl⟩ := Prod.mk.inj (Option.some.inj h)
      exact ⟨0, rfl, rfl, ⟨v, hv, not_le.1 hneg⟩, by simp⟩

/-- A list with a free slot is not read past its end. -/
theorem seek_isSome {table : List ℤ} {row : List ℕ} {pos : ℕ} (hrow : ∀ p ∈ row, p < table.length)
    (hpos : pos ∈ row) (hfree : ∃ v, table[pos]? = some v ∧ v < 0) (next : ℕ) :
    (seek table row next).isSome := by
  induction row generalizing next with
  | nil => cases hpos
  | cons p row ih =>
    obtain ⟨v, hv⟩ : ∃ v, table[p]? = some v :=
      ⟨_, List.getElem?_eq_getElem (hrow p List.mem_cons_self)⟩
    rw [seek, hv, Option.bind_some]
    split_ifs with hneg
    · refine ih (fun p hp => hrow p (List.mem_cons_of_mem _ hp)) ?_ (next + 1)
      rcases List.mem_cons.1 hpos with rfl | hpos
      · obtain ⟨w, hw, hlt⟩ := hfree
        rw [Option.some.inj (hv.symm.trans hw)] at hneg
        exact absurd hneg (not_le.2 hlt)
      · exact hpos
    · rfl

/-- What a turn does: it takes a free slot. -/
theorem turn_spec (h : turn rows i s = some s') : ∃ row next pos v, rows[i]? = some row ∧
    row[next]? = some pos ∧ s.table[pos]? = some v ∧ v < 0 ∧
    (∀ p ∈ (row.drop (s.next i)).take (next - s.next i), ∃ v, s.table[p]? = some v ∧ 0 ≤ v) ∧
    s.next i ≤ next ∧
    s' = ⟨Function.update s.next i (next + 1), s.table.set pos i, s.count + 1⟩ := by
  obtain ⟨row, hrow, h⟩ := Option.bind_eq_some_iff.1 h
  obtain ⟨⟨next, pos⟩, hseek, rfl⟩ := Option.map_eq_some_iff.1 h
  obtain ⟨d, rfl, hpos, ⟨v, hv, hneg⟩, htaken⟩ := seek_spec hseek
  rw [List.getElem?_drop] at hpos
  exact ⟨row, _, pos, v, hrow, hpos, hv, hneg, by rwa [Nat.add_sub_cancel_left],
    Nat.le_add_right _ _, rfl⟩

theorem getElem?_set_of_le {table : List ℤ} {pos p : ℕ} {v : ℤ} (h : table[p]? = some v)
    (hv : 0 ≤ v) (i : ℕ) : ∃ w, (table.set pos i)[p]? = some w ∧ 0 ≤ w := by
  rw [List.getElem?_set]
  split_ifs with hp hlt
  · exact ⟨i, rfl, Int.natCast_nonneg i⟩
  · exact absurd (List.getElem?_eq_some_iff.1 h).1 (hp ▸ hlt)
  · exact ⟨v, h, hv⟩

theorem countP_set {table : List ℤ} {pos : ℕ} {v : ℤ} (h : table[pos]? = some v) (hv : v < 0)
    (i : ℕ) : (table.set pos i).countP (0 ≤ ·) = table.countP (0 ≤ ·) + 1 := by
  obtain ⟨hlt, rfl⟩ := List.getElem?_eq_some_iff.1 h
  rw [List.countP_set hlt]
  simp [not_le.2 hv]

theorem Valid.turn (h : Valid m rows s) (ht : turn rows i s = some s') : Valid m rows s' := by
  obtain ⟨row, next, pos, v, hrow, hpos, hv, hneg, htaken, hle, rfl⟩ := turn_spec ht
  constructor
  · rw [List.length_set, h.length]
  · intro w hw
    rcases List.mem_or_eq_of_mem_set hw with hw | rfl
    · exact h.entries w hw
    · have := (List.getElem?_eq_some_iff.1 hrow).1
      exact .inr ⟨Int.natCast_nonneg i, by exact_mod_cast this⟩
  · rw [countP_set hv hneg, ← h.count]
  · intro j row' hrow' p hp
    by_cases hj : j = i
    · subst hj
      obtain rfl := Option.some.inj (hrow'.symm.trans hrow)
      have hsplit : row'.take (next + 1) = row'.take (s.next j) ++
          (row'.drop (s.next j)).take (next - s.next j) ++ [pos] := by
        rw [List.take_add_one, hpos, ← List.take_add, Nat.add_sub_cancel' hle]
        rfl
      dsimp only at hp ⊢
      rw [Function.update_self, hsplit, List.mem_append, List.mem_append,
        List.mem_singleton] at hp
      rcases hp with (hp | hp) | rfl
      · obtain ⟨w, hw, hw0⟩ := h.passed j row' hrow p hp
        exact getElem?_set_of_le hw hw0 j
      · obtain ⟨w, hw, hw0⟩ := htaken p hp
        exact getElem?_set_of_le hw hw0 j
      · have hlt := (List.getElem?_eq_some_iff.1 hv).1
        exact ⟨j, List.getElem?_set_self hlt, Int.natCast_nonneg j⟩
    · dsimp only at hp ⊢
      rw [Function.update_of_ne hj] at hp
      obtain ⟨w, hw, hw0⟩ := h.passed j row' hrow' p hp
      exact getElem?_set_of_le hw hw0 i

theorem Valid.count_le (h : Valid m rows s) : s.count ≤ m := by
  rw [h.count, ← h.length]
  exact List.countP_le_length

/-- As long as slots are free, every backend finds one. -/
theorem turn_isSome (hfull : Full m rows) (h : Valid m rows s) (hlt : s.count < m)
    (hi : i < rows.length) : (turn rows i s).isSome := by
  obtain ⟨v, hv, hneg⟩ : ∃ v ∈ s.table, ¬0 ≤ v := by
    by_contra hall
    push Not at hall
    have hall : s.table.countP (0 ≤ ·) = s.table.length :=
      List.countP_eq_length.2 fun v hv => decide_eq_true (hall v hv)
    rw [h.count, hall, h.length] at hlt
    exact lt_irrefl m hlt
  obtain ⟨pos, hpos⟩ := List.mem_iff_getElem?.1 hv
  have hrow : rows[i]? = some rows[i] := List.getElem?_eq_getElem hi
  have hmem := hfull rows[i] (List.getElem_mem hi)
  have hin : pos ∈ rows[i] := (hmem pos).2 (h.length ▸ (List.getElem?_eq_some_iff.1 hpos).1)
  have hdrop : pos ∈ rows[i].drop (s.next i) := by
    rw [← List.take_append_drop (s.next i) rows[i], List.mem_append] at hin
    refine hin.resolve_left fun htake => ?_
    obtain ⟨w, hw, hw0⟩ := h.passed i _ hrow pos htake
    exact hneg (Option.some.inj (hpos.symm.trans hw) ▸ hw0)
  have hbound : ∀ p ∈ rows[i].drop (s.next i), p < s.table.length := fun p hp => by
    rw [h.length]
    exact (hmem p).1 (List.mem_of_mem_drop hp)
  have := seek_isSome hbound hdrop ⟨v, hpos, not_le.1 hneg⟩ (s.next i)
  rw [turn, hrow, Option.bind_some, Option.isSome_map]
  exact this

/-- Taken slots stay with their backend. -/
theorem mem_table_of_turn (h : turn rows i s = some s') :
    (i : ℤ) ∈ s'.table ∧ ∀ v ∈ s.table, 0 ≤ v → v ∈ s'.table := by
  obtain ⟨row, next, pos, v, -, -, hv, hneg, -, -, rfl⟩ := turn_spec h
  have hlt := (List.getElem?_eq_some_iff.1 hv).1
  refine ⟨List.mem_iff_getElem?.2 ⟨pos, List.getElem?_set_self hlt⟩, fun w hw hw0 => ?_⟩
  obtain ⟨p, hp⟩ := List.mem_iff_getElem?.1 hw
  refine List.mem_iff_getElem?.2 ⟨p, ?_⟩
  rw [List.getElem?_set_ne, hp]
  rintro rfl
  rw [Option.some.inj (hp.symm.trans hv)] at hw0
  exact absurd hw0 (not_le.2 hneg)

theorem count_of_turn (h : turn rows i s = some s') : s'.count = s.count + 1 := by
  obtain ⟨_, _, _, _, -, -, -, -, -, -, rfl⟩ := turn_spec h
  rfl

/-! ## Rounds -/

/-- A round takes slots, and leaves every backend one if there are slots enough. -/
theorem round_spec (hfull : Full m rows) {is : List ℕ} (his : ∀ i ∈ is, i < rows.length)
    (h : Valid m rows s) (hlt : s.count < m) : ∃ s', round m rows is s = some s' ∧
      Valid m rows s' ∧ s.count + min 1 is.length ≤ s'.count ∧
      (∀ v ∈ s.table, 0 ≤ v → v ∈ s'.table) ∧
      (s.count + is.length ≤ m → ∀ i ∈ is, (i : ℤ) ∈ s'.table) := by
  induction is generalizing s with
  | nil => exact ⟨s, rfl, h, le_rfl, fun _ hv _ => hv, by simp⟩
  | cons i is ih =>
    obtain ⟨s₁, hs₁⟩ := Option.isSome_iff_exists.1
      (turn_isSome hfull h hlt (his i List.mem_cons_self))
    obtain ⟨hi, hkeep⟩ := mem_table_of_turn hs₁
    have hcount := count_of_turn hs₁
    have h₁ := h.turn hs₁
    rw [round, hs₁, Option.bind_some]
    split_ifs with hm
    · rw [List.length_cons]
      refine ⟨s₁, rfl, h₁, by omega, hkeep, fun hle j hj => ?_⟩
      obtain rfl : is = [] := List.length_eq_zero_iff.1 (by omega)
      rw [List.mem_singleton.1 hj]
      exact hi
    · have hlt₁ : s₁.count < m := lt_of_le_of_ne h₁.count_le hm
      obtain ⟨s', hs', h', hlt', hkeep', hall⟩ :=
        ih (fun j hj => his j (List.mem_cons_of_mem i hj)) h₁ hlt₁
      rw [List.length_cons]
      refine ⟨s', hs', h', ?_, fun v hv hv0 => hkeep' v (hkeep v hv hv0) hv0, ?_⟩
      · omega
      · intro hle j hj
        rcases List.mem_cons.1 hj with rfl | hj
        · exact hkeep' _ hi (Int.natCast_nonneg _)
        · exact hall (by omega) j hj

/-- With fuel for the free slots, the rounds take them all. -/
theorem rounds_spec (hfull : Full m rows) (hrows : rows ≠ []) {fuel : ℕ} (h : Valid m rows s)
    (hfuel : m ≤ s.count + fuel) : ∃ s', rounds m rows fuel s = some s' ∧ Valid m rows s' ∧
      s'.count = m ∧ ∀ v ∈ s.table, 0 ≤ v → v ∈ s'.table := by
  induction fuel generalizing s with
  | zero =>
    have := h.count_le
    exact ⟨s, if_neg (by omega), h, by omega, fun _ hv _ => hv⟩
  | succ fuel ih =>
    rw [rounds]
    split_ifs with hlt
    · obtain ⟨s₁, hs₁, h₁, hcount, hkeep, -⟩ :=
        round_spec hfull (fun i hi => List.mem_range.1 hi) h hlt
      have hpos := List.length_pos_iff.2 hrows
      rw [List.length_range] at hcount
      obtain ⟨s', hs', h', hm, hkeep'⟩ := ih h₁ (by omega)
      exact ⟨s', by rw [hs₁, Option.bind_some, hs'], h', hm,
        fun v hv hv0 => hkeep' v (hkeep v hv hv0) hv0⟩
    · have := h.count_le
      exact ⟨s, rfl, h, by omega, fun _ hv _ => hv⟩

theorem Valid.round (h : Valid m rows s) {is : List ℕ} (hr : round m rows is s = some s') :
    Valid m rows s' := by
  induction is generalizing s with
  | nil => exact Option.some.inj hr ▸ h
  | cons i is ih =>
    obtain ⟨s₁, hs₁, hr⟩ := Option.bind_eq_some_iff.1 hr
    have h₁ := h.turn hs₁
    split_ifs at hr
    · exact Option.some.inj hr ▸ h₁
    · exact ih h₁ hr

theorem Valid.rounds (h : Valid m rows s) {fuel : ℕ} (hr : rounds m rows fuel s = some s') :
    Valid m rows s' := by
  induction fuel generalizing s with
  | zero =>
    rw [Maglev.rounds] at hr
    split_ifs at hr
    exact Option.some.inj hr ▸ h
  | succ fuel ih =>
    rw [Maglev.rounds] at hr
    split_ifs at hr
    · obtain ⟨s₁, hs₁, hr⟩ := Option.bind_eq_some_iff.1 hr
      exact ih (h.round hs₁) hr
    · exact Option.some.inj hr ▸ h

theorem rounds_count {fuel : ℕ} (h : rounds m rows fuel s = some s') : m ≤ s'.count := by
  induction fuel generalizing s with
  | zero =>
    rw [rounds] at h
    split_ifs at h with hlt
    exact Option.some.inj h ▸ not_lt.1 hlt
  | succ fuel ih =>
    rw [rounds] at h
    split_ifs at h with hlt
    · obtain ⟨s₁, -, h⟩ := Option.bind_eq_some_iff.1 h
      exact ih h
    · exact Option.some.inj h ▸ not_lt.1 hlt

/-- Whatever the lists, a table that is built is full. -/
theorem populate_full {table : List ℤ} (h : populate m rows = some table) :
    table.length = m ∧ ∀ v ∈ table, 0 ≤ v ∧ v < rows.length := by
  obtain ⟨s, hs, rfl⟩ := Option.map_eq_some_iff.1 h
  have hv := (Valid.start m rows).rounds hs
  have hm : s.count = m := hv.count_le.antisymm (rounds_count hs)
  have hall : s.table.countP (0 ≤ ·) = s.table.length := by rw [← hv.count, hm, hv.length]
  refine ⟨hv.length, fun v hmem => ?_⟩
  have hv0 : 0 ≤ v := by simpa using List.countP_eq_length.1 hall v hmem
  exact (hv.entries v hmem).resolve_left fun hneg => by omega

/-- In the first round, only as many backends have a turn as there are slots. -/
theorem round_lt {k l : ℕ} (h : ∀ v ∈ s.table, v < (m : ℤ)) (hk : k < m) (hcount : s.count = k)
    (hs : round m rows (List.range' k l) s = some s') :
    (∀ v ∈ s'.table, v < (m : ℤ)) ∧ (s'.count = m ∨ s'.count = k + l) := by
  induction l generalizing k s with
  | zero =>
    obtain rfl := Option.some.inj hs
    exact ⟨h, .inr hcount⟩
  | succ l ih =>
    obtain ⟨s₁, hs₁, hs⟩ := Option.bind_eq_some_iff.1 hs
    have hcount₁ := count_of_turn hs₁
    have h₁ : ∀ v ∈ s₁.table, v < (m : ℤ) := by
      obtain ⟨_, _, pos, _, -, -, -, -, -, -, rfl⟩ := turn_spec hs₁
      intro v hv
      rcases List.mem_or_eq_of_mem_set hv with hv | rfl
      · exact h v hv
      · exact_mod_cast hk
    split_ifs at hs with hm
    · exact Option.some.inj hs ▸ ⟨h₁, .inl hm⟩
    · obtain ⟨hlt, hc⟩ := ih h₁ (by omega) (by omega) hs
      exact ⟨hlt, by omega⟩

/-- No entry exceeds the slots, however many backends there are. -/
theorem populate_lt {table : List ℤ} (h : populate m rows = some table) :
    ∀ v ∈ table, v < (m : ℤ) := by
  intro v hv
  obtain ⟨hlen, hfull⟩ := populate_full h
  by_cases hle : rows.length ≤ m
  · have := (hfull v hv).2
    omega
  -- the first round takes all the slots
  obtain ⟨fuel, rfl⟩ : ∃ fuel, m = fuel + 1 :=
    ⟨m - 1, by have := List.length_pos_of_mem hv; omega⟩
  have hstart : (Fill.start (fuel + 1)).count < fuel + 1 := Nat.succ_pos fuel
  obtain ⟨s, hs, rfl⟩ := Option.map_eq_some_iff.1 h
  rw [rounds, if_pos hstart] at hs
  obtain ⟨s₁, hs₁, hs⟩ := Option.bind_eq_some_iff.1 hs
  have hle₁ := ((Valid.start _ rows).round hs₁).count_le
  rw [List.range_eq_range'] at hs₁
  obtain ⟨hlt, hcount⟩ := round_lt (fun v hv => by
    rw [List.eq_of_mem_replicate hv]; omega) (Nat.succ_pos fuel) rfl hs₁
  have hm : ¬s₁.count < fuel + 1 := by omega
  have hdone : rounds (fuel + 1) rows fuel s₁ = some s₁ := by
    cases fuel <;> exact if_neg hm
  obtain rfl := Option.some.inj (hdone.symm.trans hs)
  exact hlt v hv

/-- The table is built. -/
theorem populate_isSome (hfull : Full m rows) (hrows : rows ≠ []) : (populate m rows).isSome := by
  obtain ⟨s, hs, -⟩ := rounds_spec hfull hrows (Valid.start m rows) (Nat.le_add_left m 0)
  rw [populate, hs]
  rfl

/-- If there are slots enough, every backend has one. -/
theorem mem_populate (hfull : Full m rows) {table : List ℤ} (ht : populate m rows = some table)
    (hle : rows.length ≤ m) (hi : i < rows.length) : (i : ℤ) ∈ table := by
  have hrows : rows ≠ [] := List.ne_nil_of_length_pos (by omega)
  obtain ⟨fuel, rfl⟩ : ∃ fuel, m = fuel + 1 := ⟨m - 1, by omega⟩
  obtain ⟨s₁, hs₁, h₁, hcount, -, hall⟩ :=
    round_spec hfull (fun i hi => List.mem_range.1 hi) (Valid.start (fuel + 1) rows)
      (Nat.succ_pos fuel)
  have hpos := List.length_pos_iff.2 hrows
  rw [List.length_range, Fill.count_start] at hcount hall
  have hfuel : fuel + 1 ≤ s₁.count + fuel := by omega
  obtain ⟨s, hs, -, -, hkeep⟩ := rounds_spec hfull hrows h₁ hfuel
  have hstart : (Fill.start (fuel + 1)).count < fuel + 1 := Nat.succ_pos fuel
  rw [populate, rounds, if_pos hstart, hs₁, Option.bind_some, hs] at ht
  obtain rfl := Option.some.inj ht
  exact hkeep _ (hall (by omega) i (List.mem_range.2 hi)) (Int.natCast_nonneg i)

/-! ## Equal lists

Backends with one preference list take its slots in turn: in the first round, the backend `j` takes
the slot at the position `j`. -/

/-- A taken slot stays with its backend. -/
theorem getElem?_turn (h : turn rows i s = some s') {p : ℕ} {v : ℤ} (hp : s.table[p]? = some v)
    (hv : 0 ≤ v) : s'.table[p]? = some v := by
  obtain ⟨row, next, pos, w, -, -, hw, hneg, -, -, rfl⟩ := turn_spec h
  rw [List.getElem?_set_ne, hp]
  rintro rfl
  rw [Option.some.inj (hp.symm.trans hw)] at hv
  exact absurd hv (not_le.2 hneg)

theorem getElem?_round {is : List ℕ} (h : round m rows is s = some s') {p : ℕ} {v : ℤ}
    (hp : s.table[p]? = some v) (hv : 0 ≤ v) : s'.table[p]? = some v := by
  induction is generalizing s with
  | nil => exact Option.some.inj h ▸ hp
  | cons i is ih =>
    obtain ⟨s₁, hs₁, h⟩ := Option.bind_eq_some_iff.1 h
    have hp₁ := getElem?_turn hs₁ hp hv
    split_ifs at h
    · exact Option.some.inj h ▸ hp₁
    · exact ih h hp₁

theorem getElem?_rounds {fuel : ℕ} (h : rounds m rows fuel s = some s') {p : ℕ} {v : ℤ}
    (hp : s.table[p]? = some v) (hv : 0 ≤ v) : s'.table[p]? = some v := by
  induction fuel generalizing s with
  | zero =>
    rw [rounds] at h
    split_ifs at h
    exact Option.some.inj h ▸ hp
  | succ fuel ih =>
    rw [rounds] at h
    split_ifs at h
    · obtain ⟨s₁, hs₁, h⟩ := Option.bind_eq_some_iff.1 h
      exact ih h (getElem?_round hs₁ hp hv)
    · exact Option.some.inj h ▸ hp

/-- The first free slot of a list that begins with taken ones. -/
theorem seek_append {table : List ℤ} {taken : List ℕ} (rest : List ℕ) {pos : ℕ}
    (htaken : ∀ p ∈ taken, ∃ v, table[p]? = some v ∧ 0 ≤ v)
    (hpos : ∃ v, table[pos]? = some v ∧ v < 0) (next : ℕ) :
    seek table (taken ++ pos :: rest) next = some (next + taken.length, pos) := by
  induction taken generalizing next with
  | nil =>
    obtain ⟨v, hv, hneg⟩ := hpos
    rw [List.nil_append, seek, hv, Option.bind_some, if_neg (not_le.2 hneg)]
    rfl
  | cons p taken ih =>
    obtain ⟨v, hv, hv0⟩ := htaken p List.mem_cons_self
    rw [List.cons_append, seek, hv, Option.bind_some, if_pos hv0,
      ih fun p hp => htaken p (List.mem_cons_of_mem _ hp), List.length_cons]
    congr 2
    omega

/-- The first `k` backends have taken the first `k` slots of the list. -/
structure Begun (row : List ℕ) (k : ℕ) (s : Fill) : Prop where
  taken : ∀ (j pos : ℕ), j < k → row[j]? = some pos → s.table[pos]? = some (j : ℤ)
  free : ∀ (j pos : ℕ), k ≤ j → row[j]? = some pos → ∃ v, s.table[pos]? = some v ∧ v < 0
  next : ∀ i, k ≤ i → s.next i = 0

variable {row : List ℕ} {k : ℕ}

theorem Begun.start (hrow : ∀ pos ∈ row, pos < m) : Begun row 0 (.start m) where
  taken _ _ hj := absurd hj (Nat.not_lt_zero _)
  free j pos _ hpos := ⟨-1, by
    rw [Fill.start, List.getElem?_replicate, if_pos (hrow pos (List.mem_of_getElem? hpos))],
    by decide⟩
  next _ _ := rfl

/-- The turn of the next backend. -/
theorem Begun.turn (h : Begun row k s) (hrow : rows[k]? = some row) (hnodup : row.Nodup)
    {pos : ℕ} (hpos : row[k]? = some pos) : ∃ s', Maglev.turn rows k s = some s' ∧
      Begun row (k + 1) s' ∧ s'.count = s.count + 1 := by
  obtain ⟨hlt, rfl⟩ := List.getElem?_eq_some_iff.1 hpos
  have hsplit : row = row.take k ++ row[k] :: row.drop (k + 1) := by
    rw [List.getElem_cons_drop, List.take_append_drop]
  have hfree := h.free k _ le_rfl hpos
  have hseek : seek s.table row 0 = some (k, row[k]) := by
    have htaken : ∀ p ∈ row.take k, ∃ v, s.table[p]? = some v ∧ 0 ≤ v := by
      intro p hp
      obtain ⟨j, hj⟩ := List.mem_iff_getElem?.1 hp
      rw [List.getElem?_take] at hj
      split_ifs at hj with hjk
      exact ⟨j, h.taken j p hjk hj, Int.natCast_nonneg j⟩
    have := seek_append (row.drop (k + 1)) htaken hfree 0
    rwa [← hsplit, List.length_take_of_le hlt.le, Nat.zero_add] at this
  have hset : row[k] < s.table.length := by
    obtain ⟨v, hv, -⟩ := hfree
    exact (List.getElem?_eq_some_iff.1 hv).1
  have hne : ∀ (j p : ℕ), j ≠ k → row[j]? = some p → p ≠ row[k] := by
    rintro j p hj hp rfl
    obtain ⟨hjlt, he⟩ := List.getElem?_eq_some_iff.1 hp
    exact hj ((hnodup.getElem_inj_iff).1 he)
  refine ⟨⟨Function.update s.next k (k + 1), s.table.set row[k] k, s.count + 1⟩, ?_,
    ⟨fun j p hj hp => ?_, fun j p hj hp => ?_, fun i hi => ?_⟩, rfl⟩
  · rw [Maglev.turn, hrow, Option.bind_some, h.next k le_rfl, List.drop_zero, hseek, Option.map_some]
  · dsimp only
    by_cases hjk : j = k
    · subst hjk
      rw [← Option.some.inj (hpos.symm.trans hp), List.getElem?_set_self hset]
    · rw [List.getElem?_set_ne (hne j p hjk hp).symm]
      exact h.taken j p (by omega) hp
  · dsimp only
    rw [List.getElem?_set_ne (hne j p (by omega) hp).symm]
    exact h.free j p (by omega) hp
  · dsimp only
    rw [Function.update_of_ne (by omega)]
    exact h.next i (by omega)

theorem Begun.round (hnodup : row.Nodup) (hlen : row.length = m) {l : ℕ}
    (hrows : ∀ i, k ≤ i → i < k + l → rows[i]? = some row) (h : Begun row k s) (hk : k < m)
    (hcount : s.count = k) (hs : Maglev.round m rows (List.range' k l) s = some s') :
    ∀ (j pos : ℕ), j < k + l → row[j]? = some pos → s'.table[pos]? = some (j : ℤ) := by
  induction l generalizing k s with
  | zero =>
    obtain rfl := Option.some.inj hs
    exact h.taken
  | succ l ih =>
    have hpos : row[k]? = some row[k] := List.getElem?_eq_getElem (hlen ▸ hk)
    obtain ⟨s₁, hs₁, h₁, hcount₁⟩ := h.turn (hrows k le_rfl (by omega)) hnodup hpos
    rw [List.range'_succ, Maglev.round, hs₁, Option.bind_some] at hs
    split_ifs at hs with hm
    · obtain rfl := Option.some.inj hs
      intro j pos hj hp
      have hjlt := (List.getElem?_eq_some_iff.1 hp).1
      exact h₁.taken j pos (by omega) hp
    · intro j pos hj hp
      exact ih (fun i hi hi' => hrows i (by omega) (by omega)) h₁ (by omega) (by omega) hs j pos
        (by omega) hp

/-- In the table of backends with equal lists, the slot at the position `j` has the backend `j`. -/
theorem populate_of_equal (hnodup : row.Nodup) (hlen : row.length = m)
    (hrow : ∀ pos ∈ row, pos < m) (hrows : ∀ r ∈ rows, r = row) {table : List ℤ}
    (ht : populate m rows = some table) {j pos : ℕ} (hj : j < rows.length)
    (hpos : row[j]? = some pos) : table[pos]? = some (j : ℤ) := by
  have hm := (List.getElem?_eq_some_iff.1 hpos).1
  obtain ⟨fuel, rfl⟩ : ∃ fuel, m = fuel + 1 := ⟨m - 1, by omega⟩
  have hstart : (Fill.start (fuel + 1)).count < fuel + 1 := Nat.succ_pos fuel
  obtain ⟨s, hs, rfl⟩ := Option.map_eq_some_iff.1 ht
  rw [rounds, if_pos hstart] at hs
  obtain ⟨s₁, hs₁, hs⟩ := Option.bind_eq_some_iff.1 hs
  rw [List.range_eq_range'] at hs₁
  have hrows' : ∀ i, 0 ≤ i → i < 0 + rows.length → rows[i]? = some row := by
    intro i _ hi
    rw [Nat.zero_add] at hi
    rw [List.getElem?_eq_getElem hi, hrows _ (List.getElem_mem hi)]
  have := (Begun.start hrow).round hnodup hlen hrows' (Nat.succ_pos fuel) rfl hs₁ j pos
    (by omega) hpos
  exact getElem?_rounds hs this (Int.natCast_nonneg j)

/-! ## Balance

The backends take their turns in a circle, also when the last round ends early: the turn after `t`
others is that of the backend `t % n`. A backend therefore has as many slots as there are such `t`
below the number of taken slots. -/

/-- Each of `n` backends has a slot for every turn that it has had. -/
def Balanced (n : ℕ) (s : Fill) : Prop :=
  ∀ i < n, s.table.count (i : ℤ) = s.count.count (· ≡ i [MOD n])

variable {n : ℕ}

theorem Balanced.start (m n : ℕ) : Balanced n (.start m) := by
  intro i _
  have hfree : (i : ℤ) ∉ List.replicate m (-1 : ℤ) := fun h => by
    have := List.eq_of_mem_replicate h
    omega
  rw [Fill.count_start, Nat.count_zero, Fill.start]
  exact List.count_eq_zero.2 hfree

/-- A turn gives a slot to its backend and takes none from another. -/
theorem Balanced.turn (hb : Balanced n s) (hi : s.count ≡ i [MOD n]) (hin : i < n)
    (h : Maglev.turn rows i s = some s') : Balanced n s' := by
  obtain ⟨_, _, pos, v, -, -, hv, hneg, -, -, rfl⟩ := turn_spec h
  obtain ⟨hlt, rfl⟩ := List.getElem?_eq_some_iff.1 hv
  intro j hj
  have hfree : ¬s.table[pos] = (j : ℤ) := by omega
  have hturn : (i : ℤ) = j ↔ s.count ≡ j [MOD n] := by
    rw [Int.natCast_inj]
    constructor
    · rintro rfl
      exact hi
    · exact fun hj' => (hi.symm.trans hj').eq_of_lt_of_lt hin hj
  have hset := List.count_set (a := (i : ℤ)) (b := (j : ℤ)) hlt
  simp only [beq_iff_eq, hfree, hturn, if_false, Nat.sub_zero] at hset
  dsimp only
  rw [hset, hb j hj, Nat.count_succ]

/-- A round ends with the table, or where the next one starts. -/
theorem Balanced.round {l : ℕ} (hb : Balanced n s) (hk : s.count ≡ k [MOD n]) (hkl : k + l = n)
    (hs : Maglev.round m rows (List.range' k l) s = some s') :
    Balanced n s' ∧ (s'.count = m ∨ s'.count ≡ 0 [MOD n]) := by
  induction l generalizing k s with
  | zero =>
    obtain rfl := Option.some.inj hs
    obtain rfl : k = n := hkl
    exact ⟨hb, .inr (hk.trans (by simp [Nat.ModEq]))⟩
  | succ l ih =>
    obtain ⟨s₁, hs₁, hs⟩ := Option.bind_eq_some_iff.1 hs
    have hb₁ := hb.turn hk (by omega) hs₁
    split_ifs at hs with hm
    · exact Option.some.inj hs ▸ ⟨hb₁, .inl hm⟩
    · have hcount : s₁.count ≡ k + 1 [MOD n] := by
        rw [count_of_turn hs₁]
        exact hk.add_right 1
      exact ih hb₁ hcount (by omega) hs

theorem Balanced.rounds {fuel : ℕ} (hb : Balanced rows.length s)
    (hstart : s.count < m → s.count ≡ 0 [MOD rows.length])
    (hs : Maglev.rounds m rows fuel s = some s') : Balanced rows.length s' := by
  induction fuel generalizing s with
  | zero =>
    rw [Maglev.rounds] at hs
    split_ifs at hs
    exact Option.some.inj hs ▸ hb
  | succ fuel ih =>
    rw [Maglev.rounds] at hs
    split_ifs at hs with hlt
    · obtain ⟨s₁, hs₁, hs⟩ := Option.bind_eq_some_iff.1 hs
      rw [List.range_eq_range'] at hs₁
      obtain ⟨hb₁, hend⟩ := hb.round (hstart hlt) (Nat.zero_add _) hs₁
      exact ih hb₁ (fun hlt₁ => hend.resolve_left hlt₁.ne) hs
    · exact Option.some.inj hs ▸ hb

/-- The first `m % n` backends have one slot more than the others. -/
theorem count_populate {table : List ℤ} (h : populate m rows = some table) (hi : i < rows.length) :
    table.count (i : ℤ) = m / rows.length + if i < m % rows.length then 1 else 0 := by
  obtain ⟨s, hs, rfl⟩ := Option.map_eq_some_iff.1 h
  have hcount : s.count = m :=
    ((Valid.start m rows).rounds hs).count_le.antisymm (rounds_count hs)
  have hb := (Balanced.start m rows.length).rounds (fun _ => Nat.ModEq.refl 0) hs
  rw [hb i hi, hcount, Nat.count_modEq_card _ (i.zero_le.trans_lt hi), Nat.mod_eq_of_lt hi]

end Maglev
