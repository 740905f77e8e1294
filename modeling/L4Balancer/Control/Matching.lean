import Mathlib.Data.List.Basic
import L4Balancer.Control.Validator

/-!
# What the patterns match

The texts that a regular expression matches, construct by construct (`Regex.mem_rep` for the
bounded repetitions), and the lists of parts that the repetitions of the address patterns
come from: a repetition of `r` with a separator after or before it matches the texts of `r`
joined by it (`Regex.exists_of_rep`).
-/

namespace L4Balancer

open RegularExpression

/-! ## Joined texts -/

section Join

variable {α : Type*} (x : α)

/-- Every text but the last one is followed by the separator. -/
theorem flatten_map_append (ts : List (List α)) (last : List α) :
    (ts.map (· ++ [x])).flatten ++ last = [x].intercalate (ts ++ [last]) := by
  induction ts with
  | nil => simp
  | cons t ts ih =>
    have hne : ts ++ [last] ≠ [] := by simp
    rw [List.map_cons, List.flatten_cons, List.append_assoc, ih, List.cons_append,
      List.intercalate_cons_of_ne_nil hne]

/-- Every text but the first one is preceded by the separator. -/
theorem append_flatten_map (t : List α) (ts : List (List α)) :
    t ++ (ts.map (x :: ·)).flatten = [x].intercalate (t :: ts) := by
  induction ts generalizing t with
  | nil => simp
  | cons u ts ih =>
    rw [List.map_cons, List.flatten_cons, List.cons_append, ih, List.intercalate_cons_cons,
      List.append_assoc]
    rfl

theorem intercalate_append {ts us : List (List α)} (hts : ts ≠ []) (hus : us ≠ []) :
    [x].intercalate (ts ++ us) = [x].intercalate ts ++ x :: [x].intercalate us := by
  induction ts with
  | nil => exact absurd rfl hts
  | cons t ts ih =>
    cases ts with
    | nil =>
      rw [List.singleton_append, List.intercalate_cons_of_ne_nil hus, List.intercalate_singleton]
      simp
    | cons u ts =>
      have hne : u :: ts ++ us ≠ [] := by simp
      rw [List.cons_append, List.intercalate_cons_of_ne_nil hne, ih (by simp),
        List.intercalate_cons_cons]
      simp

/-- Every text is followed by the separator. -/
theorem flatten_map_concat {ts : List (List α)} (h : ts ≠ []) :
    (ts.map (· ++ [x])).flatten = [x].intercalate ts ++ [x] := by
  rw [← List.append_nil (ts.map _).flatten, flatten_map_append, intercalate_append x h (by simp),
    List.intercalate_singleton]

/-- Every text is preceded by the separator. -/
theorem flatten_map_cons {ts : List (List α)} (h : ts ≠ []) :
    (ts.map (x :: ·)).flatten = x :: [x].intercalate ts := by
  match ts with
  | t :: ts => rw [← append_flatten_map, List.map_cons, List.flatten_cons, List.cons_append]

variable {x}

theorem mem_intercalate {ts : List (List α)} {c : α} (h : c ∈ [x].intercalate ts) :
    c = x ∨ ∃ t ∈ ts, c ∈ t := by
  induction ts with
  | nil => cases h
  | cons t ts ih =>
    cases ts with
    | nil => exact .inr ⟨t, by simp, by simpa using h⟩
    | cons u ts =>
      rw [List.intercalate_cons_cons, List.mem_append, List.mem_append, List.mem_singleton] at h
      rcases h with (h | h) | h
      · exact .inr ⟨t, List.mem_cons_self, h⟩
      · exact .inl h
      · exact (ih h).imp_right fun ⟨v, hv, hc⟩ => ⟨v, List.mem_cons_of_mem _ hv, hc⟩

/-- Two texts are separated. -/
theorem sep_mem_intercalate {ts : List (List α)} (h : 2 ≤ ts.length) : x ∈ [x].intercalate ts := by
  match ts with
  | t :: u :: ts =>
    rw [List.intercalate_cons_cons]
    simp

end Join

/-! ## Regular expressions -/

namespace Regex

variable {r r' : RegularExpression Char} {t : List Char} {lo hi n : ℕ}

theorem mem_mul : t ∈ (r * r').matches' ↔ ∃ a ∈ r.matches', ∃ b ∈ r'.matches', a ++ b = t := by
  rw [matches'_mul, Language.mem_mul]

theorem mem_add : t ∈ (r + r').matches' ↔ t ∈ r.matches' ∨ t ∈ r'.matches' := by
  rw [matches'_add, Language.mem_add]

theorem mem_oneOf {cs : String} : t ∈ (oneOf cs).matches' ↔ ∃ c ∈ cs.toList, t = [c] := by
  rw [oneOf]
  induction cs.toList with
  | nil => simp [Language.notMem_zero]
  | cons c cs ih =>
    have hchar : t ∈ (char c).matches' ↔ t = [c] := Iff.rfl
    rw [List.map_cons, List.foldr_cons, mem_add, ih, hchar, List.exists_mem_cons_iff]

theorem mem_text {s : String} : t ∈ (text s).matches' ↔ t = s.toList := by
  rw [text]
  induction s.toList generalizing t with
  | nil => exact Language.mem_one t
  | cons c cs ih =>
    rw [List.map_cons, List.foldr_cons, mem_mul]
    constructor
    · rintro ⟨a, ha, b, hb, rfl⟩
      obtain rfl : a = [c] := ha
      rw [ih.1 hb]
      rfl
    · rintro rfl
      exact ⟨[c], rfl, cs, ih.2 rfl, rfl⟩

theorem mem_opt : t ∈ (opt r).matches' ↔ t = [] ∨ t ∈ r.matches' := by
  rw [opt, mem_add, matches'_epsilon, Language.mem_one]

theorem mem_upTo : t ∈ (upTo r n).matches' ↔
    ∃ ts : List (List Char), ts.length ≤ n ∧ (∀ u ∈ ts, u ∈ r.matches') ∧ t = ts.flatten := by
  induction n generalizing t with
  | zero =>
    have hone : t ∈ (upTo r 0).matches' ↔ t = [] := Language.mem_one t
    rw [hone]
    constructor
    · rintro rfl
      exact ⟨[], le_rfl, by simp, rfl⟩
    · rintro ⟨ts, hlen, -, rfl⟩
      rw [List.length_eq_zero_iff.1 (Nat.le_zero.1 hlen), List.flatten_nil]
  | succ n ih =>
    rw [upTo, mem_opt, mem_mul]
    constructor
    · rintro (rfl | ⟨a, ha, b, hb, rfl⟩)
      · exact ⟨[], Nat.zero_le _, by simp, rfl⟩
      · obtain ⟨ts, hlen, hts, rfl⟩ := ih.1 hb
        exact ⟨a :: ts, Nat.succ_le_succ hlen, List.forall_mem_cons.2 ⟨ha, hts⟩, rfl⟩
    · rintro ⟨_ | ⟨a, ts⟩, hlen, hts, rfl⟩
      · exact .inl rfl
      · obtain ⟨ha, hts⟩ := List.forall_mem_cons.1 hts
        exact .inr ⟨a, ha, _, ih.2 ⟨ts, Nat.le_of_succ_le_succ hlen, hts, rfl⟩, rfl⟩

/-- A bounded repetition matches the texts of so many matches in a row. -/
theorem mem_rep (h : lo ≤ hi) : t ∈ (rep r lo hi).matches' ↔ ∃ ts : List (List Char),
    lo ≤ ts.length ∧ ts.length ≤ hi ∧ (∀ u ∈ ts, u ∈ r.matches') ∧ t = ts.flatten := by
  rw [rep, mem_mul]
  constructor
  · rintro ⟨a, ha, b, hb, rfl⟩
    rw [matches'_pow, Language.mem_pow] at ha
    obtain ⟨ts, rfl, hlen, hts⟩ := ha
    obtain ⟨us, hlen', hus, rfl⟩ := mem_upTo.1 hb
    refine ⟨ts ++ us, ?_, ?_, List.forall_mem_append.2 ⟨hts, hus⟩, List.flatten_append.symm⟩
    · rw [List.length_append]
      omega
    · rw [List.length_append]
      omega
  · rintro ⟨ts, hlo, hhi, hts, rfl⟩
    refine ⟨(ts.take lo).flatten, ?_, (ts.drop lo).flatten, mem_upTo.2 ⟨ts.drop lo, ?_, ?_, rfl⟩, ?_⟩
    · rw [matches'_pow, Language.mem_pow]
      exact ⟨_, rfl, List.length_take_of_le hlo, fun u hu => hts u (List.mem_of_mem_take hu)⟩
    · rw [List.length_drop]
      omega
    · exact fun u hu => hts u (List.mem_of_mem_drop hu)
    · rw [← List.flatten_append, List.take_append_drop]

/-- A repetition of texts that come from parts comes from a list of parts. -/
theorem exists_of_rep {P : List Char → Prop} {f : List Char → List Char} (h : lo ≤ hi)
    (hr : ∀ u ∈ r.matches', ∃ a, P a ∧ u = f a) (ht : t ∈ (rep r lo hi).matches') :
    ∃ as : List (List Char), lo ≤ as.length ∧ as.length ≤ hi ∧ (∀ a ∈ as, P a) ∧
      t = (as.map f).flatten := by
  obtain ⟨ts, hlo, hhi, hts, rfl⟩ := (mem_rep h).1 ht
  have hparts : ∃ as : List (List Char), (∀ a ∈ as, P a) ∧ ts = as.map f := by
    clear hlo hhi ht
    induction ts with
    | nil => exact ⟨[], by simp, rfl⟩
    | cons u ts ih =>
      obtain ⟨hu, hrest⟩ := List.forall_mem_cons.1 hts
      obtain ⟨a, ha, rfl⟩ := hr u hu
      obtain ⟨as, has, rfl⟩ := ih hrest
      exact ⟨a :: as, List.forall_mem_cons.2 ⟨ha, has⟩, rfl⟩
  obtain ⟨as, has, rfl⟩ := hparts
  rw [List.length_map] at hlo hhi
  exact ⟨as, hlo, hhi, has, rfl⟩

/-- A repetition of single characters. -/
theorem chars_of_rep {P : Char → Prop} (h : lo ≤ hi) (hr : ∀ u ∈ r.matches', ∃ c, P c ∧ u = [c])
    (ht : t ∈ (rep r lo hi).matches') : lo ≤ t.length ∧ t.length ≤ hi ∧ ∀ c ∈ t, P c := by
  obtain ⟨ts, hlo, hhi, hts, rfl⟩ := (mem_rep h).1 ht
  have hchars : ts.flatten.length = ts.length ∧ ∀ c ∈ ts.flatten, P c := by
    clear hlo hhi ht
    induction ts with
    | nil => simp
    | cons u ts ih =>
      obtain ⟨hu, hrest⟩ := List.forall_mem_cons.1 hts
      obtain ⟨c, hc, rfl⟩ := hr u hu
      obtain ⟨hlen, hall⟩ := ih hrest
      rw [List.flatten_cons, List.singleton_append, List.length_cons, hlen, List.forall_mem_cons]
      exact ⟨rfl, hc, hall⟩
  rw [hchars.1]
  exact ⟨hlo, hhi, hchars.2⟩

end Regex

/-! ## The address patterns -/

open Regex

-- before the instance that goes over all characters
instance (priority := high) decidableForallText (P : Char → Prop) [DecidablePred P]
    (t : List Char) : Decidable (∀ c ∈ t, P c) := List.decidableBAll P t

/-- A part of an IPv4 address: at most three digits, at most 255. -/
structure IsOctet (part : List Char) : Prop where
  ne_nil : part ≠ []
  length : part.length ≤ 3
  digits : ∀ c ∈ part, c.isDigit
  le : Nat.ofDigitChars 10 part 0 ≤ 255

instance (part : List Char) : Decidable (IsOctet part) :=
  decidable_of_iff (part ≠ [] ∧ part.length ≤ 3 ∧ (∀ c ∈ part, c.isDigit) ∧
    Nat.ofDigitChars 10 part 0 ≤ 255)
    ⟨fun ⟨h, h', h'', h'''⟩ => ⟨h, h', h'', h'''⟩, fun h => ⟨h.ne_nil, h.length, h.digits, h.le⟩⟩

/-- Four octets are the parts of their text. -/
theorem splitOn_octets {parts : List (List Char)} (hlen : parts.length = 4)
    (h : ∀ part ∈ parts, IsOctet part) : (['.'].intercalate parts).splitOn '.' = parts := by
  refine List.splitOn_intercalate '.' (fun part hpart hdot => ?_) ?_
  · exact absurd ((h part hpart).digits '.' hdot) (by decide)
  · rintro rfl
    cases hlen

/-- A group of an IPv6 address: at most four hexadecimal digits. -/
structure IsHextet (group : List Char) : Prop where
  ne_nil : group ≠ []
  length : group.length ≤ 4
  digits : ∀ c ∈ group, c.isHexDigit

namespace IPValidator

variable {t : List Char} {lo hi : ℕ}

theorem mem_of_checkIP_six {ip : String} (h : checkIP ip = some 6) :
    ip.toList ∈ IPv6_REGEX.matches' := by
  rw [checkIP] at h
  split_ifs at h with h4 h6
  · cases h
  · exact (rmatch_iff_matches' _ _).1 h6

theorem isOctet_of_mem (h : t ∈ octet.matches') : IsOctet t := by
  -- the alternatives of the pattern, one after the other
  have h250 : ∀ c ∈ "012345".toList, IsOctet ['2', '5', c] := by decide +kernel
  have h200 : ∀ c ∈ "01234".toList, ∀ d ∈ "0123456789".toList, IsOctet ['2', c, d] := by
    decide +kernel
  have h0 : ∀ a ∈ [] :: "01".toList.map ([·]), ∀ c ∈ "0123456789".toList,
      ∀ b ∈ [] :: "0123456789".toList.map ([·]), IsOctet (a ++ [c] ++ b) := by
    decide +kernel
  have hopt : ∀ {cs : String} {u : List Char}, u ∈ (opt (oneOf cs)).matches' →
      u ∈ [] :: cs.toList.map ([·]) := by
    intro cs u hu
    rcases mem_opt.1 hu with rfl | hu
    · exact List.mem_cons_self
    · obtain ⟨c, hc, rfl⟩ := mem_oneOf.1 hu
      exact List.mem_cons_of_mem _ (List.mem_map_of_mem hc)
  rcases mem_add.1 h with h | h
  · rcases mem_add.1 h with h | h
    · obtain ⟨a, ha, b, hb, rfl⟩ := mem_mul.1 h
      obtain ⟨c, hc, rfl⟩ := mem_oneOf.1 hb
      rw [mem_text.1 ha]
      exact h250 c hc
    · obtain ⟨a, ha, b, hb, rfl⟩ := mem_mul.1 h
      obtain ⟨two, htwo, a', ha', rfl⟩ := mem_mul.1 ha
      obtain ⟨c, hc, rfl⟩ := mem_oneOf.1 ha'
      obtain ⟨d, hd, rfl⟩ := mem_oneOf.1 hb
      rw [mem_text.1 htwo]
      exact h200 c hc d hd
  · obtain ⟨a, ha, b, hb, rfl⟩ := mem_mul.1 h
    obtain ⟨first, hfirst, a', ha', rfl⟩ := mem_mul.1 ha
    obtain ⟨c, hc, rfl⟩ := mem_oneOf.1 ha'
    exact h0 first (hopt hfirst) c hc b (hopt hb)

/-- Four octets. -/
theorem octets_of_mem (h : t ∈ (rep (octet * text ".") 3 3 * octet).matches') :
    ∃ parts : List (List Char), parts.length = 4 ∧ (∀ part ∈ parts, IsOctet part) ∧
      t = ['.'].intercalate parts := by
  obtain ⟨a, ha, last, hlast, rfl⟩ := mem_mul.1 h
  have hdot : ∀ u ∈ (octet * text ".").matches', ∃ part, IsOctet part ∧ u = part ++ ['.'] := by
    intro u hu
    obtain ⟨part, hpart, b, hb, rfl⟩ := mem_mul.1 hu
    exact ⟨part, isOctet_of_mem hpart, congrArg _ (mem_text.1 hb)⟩
  obtain ⟨parts, hlo, hhi, hparts, rfl⟩ := exists_of_rep le_rfl hdot ha
  refine ⟨parts ++ [last], ?_, ?_, flatten_map_append '.' parts last⟩
  · rw [List.length_append, le_antisymm hhi hlo]
    rfl
  · rw [List.forall_mem_append, List.forall_mem_singleton]
    exact ⟨hparts, isOctet_of_mem hlast⟩

theorem isHextet_of_mem (h : t ∈ (rep hexDigit 1 4).matches') : IsHextet t := by
  have hhex : ∀ c ∈ "0123456789abcdefABCDEF".toList, c.isHexDigit := by decide
  obtain ⟨hlo, hhi, hall⟩ := chars_of_rep (P := fun c => c.isHexDigit) (by decide)
    (fun u hu => (mem_oneOf.1 hu).imp fun c hc => ⟨hhex c hc.1, hc.2⟩) h
  exact ⟨List.ne_nil_of_length_pos hlo, hhi, hall⟩

theorem isHextet_of_zeros (h : t ∈ (rep (text "0") 1 4).matches') : IsHextet t := by
  obtain ⟨hlo, hhi, hall⟩ := chars_of_rep (P := (· = '0')) (by decide)
    (fun u hu => ⟨'0', rfl, (mem_text.1 hu).trans (by decide)⟩) h
  exact ⟨List.ne_nil_of_length_pos hlo, hhi, fun c hc => by
    rw [hall c hc]
    decide⟩

/-- Groups with a colon after each. -/
theorem groups_of_mem (hlo : 1 ≤ lo) (hle : lo ≤ hi) (h : t ∈ (rep groupColon lo hi).matches') :
    ∃ groups : List (List Char), groups ≠ [] ∧ lo ≤ groups.length ∧ groups.length ≤ hi ∧
      (∀ group ∈ groups, IsHextet group) ∧ t = [':'].intercalate groups ++ [':'] := by
  obtain ⟨groups, hmin, hmax, hgroups, rfl⟩ := exists_of_rep hle (fun u hu => by
    obtain ⟨group, hgroup, b, hb, rfl⟩ := mem_mul.1 hu
    exact ⟨group, isHextet_of_mem hgroup, congrArg _ (mem_text.1 hb)⟩) h
  have hne : groups ≠ [] := List.ne_nil_of_length_pos (hlo.trans hmin)
  exact ⟨groups, hne, hmin, hmax, hgroups, flatten_map_concat ':' hne⟩

/-- Groups with a colon before each. -/
theorem colonGroups_of_mem (h : t ∈ (rep colonGroup 1 (hi + 1)).matches') :
    ∃ groups : List (List Char), groups ≠ [] ∧ groups.length ≤ hi + 1 ∧
      (∀ group ∈ groups, IsHextet group) ∧ t = ':' :: [':'].intercalate groups := by
  obtain ⟨groups, hmin, hmax, hgroups, rfl⟩ := exists_of_rep (by omega) (fun u hu => by
    obtain ⟨a, ha, group, hgroup, rfl⟩ := mem_mul.1 hu
    exact ⟨group, isHextet_of_mem hgroup, congrArg (· ++ group) (mem_text.1 ha)⟩) h
  have hne : groups ≠ [] := List.ne_nil_of_length_pos hmin
  exact ⟨groups, hne, hmax, hgroups, flatten_map_cons ':' hne⟩

end IPValidator

end L4Balancer
