import L4Balancer.Bytes

/-!
# Records

A buffer with records one after the other, each beginning with its length and padded to a
multiple of four: the messages of netlink, and the attributes in them. The macros `OK` and `NEXT`
go through them with a cursor and the length that is left (`Format.walk`), and do not look where
the buffer ends. If the buffer holds records (`Format.parse`), they visit each of them, whatever
is behind, and read nothing else (`Format.walk_parse`).
-/

namespace Bytes

variable {p bs : List UInt8} {off n : ℕ}

/-- The `n` bytes at the offset `off`; there are none past the end. -/
def slice? (p : List UInt8) (off n : ℕ) : Option (List UInt8) :=
  if off + n ≤ p.length then some (slice p off n) else none

/-- The number that they stand for. -/
def nat? (p : List UInt8) (off n : ℕ) : Option ℕ := (slice? p off n).map leNat

theorem slice?_append (h : off + n ≤ p.length) : slice? (p ++ bs) off n = some (slice p off n) := by
  rw [slice?, if_pos (by rw [List.length_append]; omega), slice_append h]

theorem nat?_append (h : off + n ≤ p.length) : nat? (p ++ bs) off n = some (leNat (slice p off n)) := by
  rw [nat?, slice?_append h, Option.map_some]

end Bytes

namespace Records

open Bytes

variable {σ ρ : Type}

/-- A loop over a list that may end early, with a result. -/
def foldUntil {α : Type*} (f : α → σ → σ ⊕ ρ) : List α → σ → σ ⊕ ρ
  | [], s => .inl s
  | a :: as, s =>
    match f a s with
    | .inl s => foldUntil f as s
    | .inr r => .inr r

/-- The length of a record with its padding, -/
def padded (n : ℕ) : ℕ := (n + 3) / 4 * 4

/-- and as the macros compute it, in 32 bits. -/
def aligned (n : ℕ) : ℕ := (n + 3) % 2 ^ 32 / 4 * 4

/-- A kind of records. -/
structure Format where
  /-- The bytes of the header, which are the least length of a record. -/
  header : ℕ
  /-- The bytes of the length, which are its first ones. -/
  width : ℕ
  /-- What the length that is left is compared as. -/
  avail : ℤ → ℤ
  header_pos : 0 < header
  width_le : width ≤ header
  avail_of_nonneg : ∀ len, 0 ≤ len → len < 2 ^ 32 → avail len = len

namespace Format

/-- The records of a buffer that holds nothing else, found in at most `fuel` steps. -/
def parseFrom (F : Format) : ℕ → List UInt8 → Option (List (List UInt8))
  | _, [] => some []
  | 0, _ :: _ => none
  | fuel + 1, b :: bs =>
    let n := leNat (slice (b :: bs) 0 F.width)
    if F.header ≤ n ∧ padded n ≤ (b :: bs).length then
      (F.parseFrom fuel ((b :: bs).drop (padded n))).map ((b :: bs).take n :: ·)
    else none

/-- The records of a buffer that holds nothing else. -/
def parse (F : Format) (bytes : List UInt8) : Option (List (List UInt8)) := F.parseFrom bytes.length bytes

/-- A loop over the records: while `OK`, visit the record at the cursor and go to the `NEXT`. It is
    given at least as much fuel as there can be records; `none` if something is read past the
    end of the buffer. -/
def walk (F : Format) (visit : List UInt8 → σ → Option (σ ⊕ ρ)) :
    ℕ → List UInt8 → ℤ → σ → Option (σ ⊕ ρ)
  | 0, _, _, _ => none
  | fuel + 1, cursor, len, s =>
    if F.avail len < F.header then some (.inl s)
    else do
      let n ← nat? cursor 0 F.width
      if n < F.header ∨ F.avail len < n then return .inl s
      match ← visit cursor s with
      | .inr r => return .inr r
      | .inl s => F.walk visit fuel (cursor.drop (aligned n)) (len - aligned n) s

variable {F : Format}

theorem le_padded (n : ℕ) : n ≤ padded n := by
  rw [padded]
  omega

theorem aligned_of_lt {n : ℕ} (h : padded n < 2 ^ 32) : aligned n = padded n := by
  rw [padded] at h
  rw [aligned, padded, Nat.mod_eq_of_lt]
  omega

/-- The first record of a buffer, and the rest of them. -/
theorem parseFrom_eq_some {k : ℕ} {bytes : List UInt8} {rs : List (List UInt8)}
    (h : F.parseFrom k bytes = some rs) :
    (bytes = [] ∧ rs = []) ∨ ∃ k' n rs', leNat (slice bytes 0 F.width) = n ∧ F.header ≤ n ∧
      padded n ≤ bytes.length ∧ rs = bytes.take n :: rs' ∧ k = k' + 1 ∧
      F.parseFrom k' (bytes.drop (padded n)) = some rs' := by
  cases bytes with
  | nil =>
    rw [parseFrom] at h
    exact .inl ⟨rfl, (Option.some.inj h).symm⟩
  | cons b bs =>
    cases k with
    | zero => cases h
    | succ k =>
      rw [parseFrom] at h
      split_ifs at h with hn
      obtain ⟨rs', hrs, rfl⟩ := Option.map_eq_some_iff.1 h
      exact .inr ⟨k, _, rs', rfl, hn.1, hn.2, rfl, rfl, hrs⟩

/-- A record has a whole header, which has its length. -/
theorem of_mem_parseFrom {k : ℕ} {bytes : List UInt8} {rs : List (List UInt8)}
    (h : F.parseFrom k bytes = some rs) {r : List UInt8} (hr : r ∈ rs) :
    F.header ≤ r.length ∧ r.length ≤ bytes.length ∧ leNat (slice r 0 F.width) = r.length := by
  induction rs generalizing k bytes with
  | nil => cases hr
  | cons r' rs ih =>
    rcases parseFrom_eq_some h with ⟨-, heq⟩ | ⟨k, n, rs', hn, hle, hpadded, heq, -, hrs⟩
    · cases heq
    · obtain ⟨rfl, rfl⟩ := List.cons.inj heq
      rcases List.mem_cons.1 hr with rfl | hr
      · have hnpadded := le_padded n
        have hwidth := F.width_le
        have hlength : (bytes.take n).length = n := by
          rw [List.length_take]
          omega
        have hslice : slice (bytes.take n ++ bytes.drop n) 0 F.width =
            slice (bytes.take n) 0 F.width := slice_append (by omega)
        rw [List.take_append_drop] at hslice
        rw [hlength, ← hslice]
        exact ⟨hle, by omega, hn⟩
      · obtain ⟨hle, hlength, hn⟩ := ih hrs hr
        rw [List.length_drop] at hlength
        exact ⟨hle, by omega, hn⟩

/-- There are not more records than bytes. -/
theorem length_le_of_parseFrom {k : ℕ} {bytes : List UInt8} {rs : List (List UInt8)}
    (h : F.parseFrom k bytes = some rs) : rs.length ≤ bytes.length := by
  induction rs generalizing k bytes with
  | nil => exact Nat.zero_le _
  | cons r rs ih =>
    rcases parseFrom_eq_some h with ⟨-, heq⟩ | ⟨k, n, rs', -, hle, hpadded, heq, -, hrs⟩
    · cases heq
    · obtain ⟨-, rfl⟩ := List.cons.inj heq
      have hlength := ih hrs
      have hpos := F.header_pos
      have hnpadded := le_padded n
      rw [List.length_drop] at hlength
      rw [List.length_cons]
      omega

/-- The loop at a record, with its length `n`. -/
theorem walk_record {visit : List UInt8 → σ → Option (σ ⊕ ρ)} {cursor : List UInt8} {n : ℕ} {len : ℤ}
    (hnat : nat? cursor 0 F.width = some n) (hle : F.header ≤ n) (hlen : n ≤ len)
    (hlt : len < 2 ^ 32) {s : σ} {next : σ ⊕ ρ} (hvisit : visit cursor s = some next) (fuel : ℕ) :
    F.walk visit (fuel + 1) cursor len s =
      next.elim (F.walk visit fuel (cursor.drop (aligned n)) (len - aligned n))
        fun r => some (.inr r) := by
  have havail := F.avail_of_nonneg len (by omega) hlt
  rw [walk, if_neg (by omega), hnat]
  simp only [Option.bind_eq_bind, Option.bind_some]
  rw [if_neg (by omega), hvisit]
  cases next <;> rfl

/-- The loop visits the records that the buffer holds, and nothing behind them. -/
theorem walk_parseFrom {visit : List UInt8 → σ → Option (σ ⊕ ρ)} {f : List UInt8 → σ → σ ⊕ ρ}
    {k : ℕ} {bytes : List UInt8} {rs : List (List UInt8)} (h : F.parseFrom k bytes = some rs)
    (hlt : bytes.length < 2 ^ 32) (hvisit : ∀ r ∈ rs, ∀ tail s, visit (r ++ tail) s = some (f r s))
    {fuel : ℕ} (hfuel : rs.length < fuel) (rest : List UInt8) (s : σ) :
    F.walk visit fuel (bytes ++ rest) bytes.length s = some (foldUntil f rs s) := by
  obtain ⟨fuel, rfl⟩ : ∃ m, fuel = m + 1 := ⟨fuel - 1, by omega⟩
  induction rs generalizing k bytes fuel s with
  | nil =>
    rcases parseFrom_eq_some h with ⟨rfl, -⟩ | ⟨_, _, _, -, -, -, heq, -⟩
    · have havail := F.avail_of_nonneg 0 le_rfl (by norm_num)
      have hpos := F.header_pos
      rw [walk, if_pos (by rw [List.length_nil, Nat.cast_zero, havail]; omega)]
      rfl
    · cases heq
  | cons r rs ih =>
    rcases parseFrom_eq_some h with ⟨-, heq⟩ | ⟨k, n, rs', hn, hle, hpadded, heq, rfl, hrs⟩
    · cases heq
    obtain ⟨rfl, rfl⟩ := List.cons.inj heq
    rw [List.forall_mem_cons] at hvisit
    have hwidth := F.width_le
    have hnpadded := le_padded n
    have haligned := aligned_of_lt (hpadded.trans_lt hlt)
    have hnat : nat? (bytes ++ rest) 0 F.width = some n := by rw [nat?_append (by omega), hn]
    have hcursor : visit (bytes ++ rest) s = some (f (bytes.take n) s) := by
      rw [← hvisit.1 (bytes.drop n ++ rest) s, ← List.append_assoc, List.take_append_drop]
    rw [walk_record hnat hle (by omega) (by omega) hcursor, foldUntil]
    cases f (bytes.take n) s with
    | inr r => rfl
    | inl s =>
      obtain ⟨fuel, rfl⟩ : ∃ m, fuel = m + 1 := ⟨fuel - 1, by rw [List.length_cons] at hfuel; omega⟩
      have hlength : ((bytes.length : ℤ) - aligned n) = (bytes.drop (padded n)).length := by
        rw [haligned, List.length_drop]
        omega
      rw [Sum.elim_inl, hlength, haligned, List.drop_append_of_le_length hpadded]
      exact ih hrs (by rw [List.length_drop]; omega) hvisit.2 s fuel
        (Nat.lt_of_succ_lt_succ hfuel)

/-- The loop visits the records that the buffer holds, and nothing behind them. -/
theorem walk_parse {visit : List UInt8 → σ → Option (σ ⊕ ρ)} {f : List UInt8 → σ → σ ⊕ ρ}
    {bytes : List UInt8} {rs : List (List UInt8)} (h : F.parse bytes = some rs)
    (hlt : bytes.length < 2 ^ 32) (hvisit : ∀ r ∈ rs, ∀ tail s, visit (r ++ tail) s = some (f r s))
    {fuel : ℕ} (hfuel : bytes.length < fuel) (rest : List UInt8) (s : σ) :
    F.walk visit fuel (bytes ++ rest) bytes.length s = some (foldUntil f rs s) :=
  walk_parseFrom h hlt hvisit ((length_le_of_parseFrom h).trans_lt hfuel) rest s

end Format

end Records
