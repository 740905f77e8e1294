import Mathlib.Data.Nat.Digits.Defs
import Mathlib.Tactic.IntervalCases
import L4Balancer.Control.Matching
import L4Balancer.Control.Translate

/-!
# Texts of addresses

The validator accepts addresses by two regular expressions, and `ReloadConfig` converts them by
libc: `inet_aton` for IPv4, which reads a part that begins with a zero as an octal number
(`readPart`), and `inet_pton` for IPv6, which takes the text forms of RFC 4291 (`TextForm`).

* An IPv4 address that is accepted is converted to what it says in decimal exactly if
  its parts that begin with a zero are below eight.
* An IPv6 address that is accepted is converted exactly if it has no zone and no
  leading zero in an IPv4 address at its end.
-/

namespace L4Balancer

open IPValidator Regex

variable {env : Env} {t part : List Char} {parts groups : List (List Char)} {n : ℕ}

/-! ## IPv4 -/

/-- The number of a part, as `inet_aton` reads it: octal if it begins with a zero. -/
def readPart (part : List Char) : Option ℕ :=
  if part.head? = some '0' then
    if part.all fun c => '0' ≤ c && c ≤ '7' then some (Nat.ofDigitChars 8 part 0) else none
  else some (Nat.ofDigitChars 10 part 0)

/-- The numbers of the parts, each at most 255. -/
def readParts : List (List Char) → Option (List ℕ)
  | [] => some []
  | part :: parts => do
    let octet ← readPart part
    let octets ← readParts parts
    if octet ≤ 255 then some (octet :: octets) else none

/-- An IPv4 address in network order. -/
def inAddr (octets : List ℕ) : BitVec 32 := .ofNat 32 (Nat.ofDigits 256 octets)

/-- The parts of a text. -/
def dotParts (s : String) : List (List Char) := s.toList.splitOn '.'

/-- The octets of a text in decimal. -/
def decimalOctets (s : String) : List ℕ := (dotParts s).map (Nat.ofDigitChars 10 · 0)

/-! ## IPv6 -/

/-- A zero before other digits. -/
def LeadingZero (part : List Char) : Prop := part.head? = some '0' ∧ 1 < part.length

instance : Decidable (LeadingZero part) := inferInstanceAs (Decidable (_ ∧ _))

/-- Groups of a text, and the number of groups that they stand for: the last two may be written
    as an IPv4 address, whose parts satisfy `P`. -/
inductive Groups (P : List Char → Prop) : List (List Char) → ℕ → Prop
  | nil : Groups P [] 0
  | ipv4 {parts : List (List Char)} : parts.length = 4 → (∀ part ∈ parts, IsOctet part) →
    (∀ part ∈ parts, P part) → Groups P [['.'].intercalate parts] 2
  | cons {group : List Char} {groups : List (List Char)} {n : ℕ} : IsHextet group →
    Groups P groups n → Groups P (group :: groups) (n + 1)

/-- The text forms of RFC 4291: eight groups, or less with `::` for the others, which are one
    or more. -/
inductive TextForm (P : List Char → Prop) : List Char → Prop
  | full {groups : List (List Char)} : Groups P groups 8 → TextForm P ([':'].intercalate groups)
  | short {before after : List (List Char)} {n : ℕ} : (∀ group ∈ before, IsHextet group) →
    Groups P after n → before.length + n ≤ 7 →
    TextForm P ([':'].intercalate before ++ [':', ':'] ++ [':'].intercalate after)

/-- What libc documents of its conversions, for a text. -/
structure Env.Documented (env : Env) (s : String) : Prop where
  /-- `inet_aton` reads four parts, each as decimal or octal digits. -/
  aton : (dotParts s).length = 4 → (∀ part ∈ dotParts s, part ≠ [] ∧ ∀ c ∈ part, c.isDigit) →
    env.inetAton s = (readParts (dotParts s)).map inAddr
  /-- `inet_pton` takes the text forms; the parts of an IPv4 address have no leading zeros. -/
  pton : (env.inetPton s).isSome ↔ TextForm (¬LeadingZero ·) s.toList

/-- If the validator accepts the text, it is converted to the address that it says. -/
def ConvertsAsAccepted (env : Env) (s : String) : Prop :=
  (checkIP s = some 4 → env.inetAton s = some (inAddr (decimalOctets s))) ∧
    (checkIP s = some 6 → (env.inetPton s).isSome)

instance (env : Env) (s : String) : Decidable (ConvertsAsAccepted env s) :=
  inferInstanceAs (Decidable (_ ∧ _))

/-- The text has no IPv4 address at its end with a leading zero. -/
def NoLeadingZeros (t : List Char) : Prop :=
  ∀ group ∈ t.splitOn ':', '.' ∈ group → ∀ part ∈ group.splitOn '.', ¬LeadingZero part

/-! ## Octal and decimal -/

theorem mem_digits {c : Char} (h : c.isDigit) : c ∈ "0123456789".toList := by
  have hrange : 48 ≤ c.toNat ∧ c.toNat ≤ 57 := by
    simpa [Char.isDigit, UInt32.le_iff_toNat_le] using h
  rw [← Char.ofNat_toNat c]
  generalize c.toNat = n at hrange
  obtain ⟨hlo, hhi⟩ := hrange
  interval_cases n <;> decide

/-- A part that begins with a zero is the same number in octal if it is below eight. -/
theorem readPart_eq_iff (h : IsOctet part) :
    readPart part = some (Nat.ofDigitChars 10 part 0) ↔
      (part.head? = some '0' → Nat.ofDigitChars 10 part 0 < 8) := by
  obtain ⟨hne, hlen, hdigits, -⟩ := h
  match part with
  | [] => exact absurd rfl hne
  | c :: rest =>
    by_cases hc : c = '0'
    · subst hc
      -- at most two digits follow: all of them
      have hall : ∀ rest ∈ [] :: "0123456789".toList.map ([·]) ++
          "0123456789".toList.flatMap (fun c => "0123456789".toList.map fun d => [c, d]),
          readPart ('0' :: rest) = some (Nat.ofDigitChars 10 ('0' :: rest) 0) ↔
            Nat.ofDigitChars 10 ('0' :: rest) 0 < 8 := by
        decide +kernel
      rw [hall rest ?_]
      · simp
      · match rest with
        | [] => simp
        | [c] =>
          have := mem_digits (hdigits c (by simp))
          simp only [List.cons_append, List.mem_cons, List.mem_append, List.mem_map]
          exact .inr (.inl ⟨c, this, rfl⟩)
        | [c, d] =>
          have hc := mem_digits (hdigits c (by simp))
          have hd := mem_digits (hdigits d (by simp))
          simp only [List.cons_append, List.mem_cons, List.mem_append, List.mem_flatMap,
            List.mem_map]
          exact .inr (.inr ⟨c, hc, d, hd, rfl⟩)
        | _ :: _ :: _ :: _ =>
          simp only [List.length_cons] at hlen
          omega
    · have hhead : (c :: rest).head? ≠ some '0' := by simpa using hc
      rw [readPart, if_neg hhead]
      exact iff_of_true rfl fun he => absurd he hhead

theorem readParts_eq_some {octets : List ℕ} : readParts parts = some octets ↔
    List.Forall₂ (fun part octet => readPart part = some octet ∧ octet ≤ 255) parts octets := by
  induction parts generalizing octets with
  | nil => simp [readParts, eq_comm]
  | cons part parts ih =>
    rw [List.forall₂_cons_left_iff]
    constructor
    · intro h
      obtain ⟨octet, hoctet, h⟩ := Option.bind_eq_some_iff.1 h
      obtain ⟨octets', hoctets, h⟩ := Option.bind_eq_some_iff.1 h
      split_ifs at h with hle
      exact ⟨octet, octets', ⟨hoctet, hle⟩, ih.1 hoctets, (Option.some.inj h).symm⟩
    · rintro ⟨octet, octets', ⟨hoctet, hle⟩, hoctets, rfl⟩
      exact Option.bind_eq_some_iff.2 ⟨octet, hoctet, Option.bind_eq_some_iff.2
        ⟨octets', ih.2 hoctets, if_pos hle⟩⟩

theorem le_of_readParts {octets : List ℕ} (h : readParts parts = some octets) :
    ∀ octet ∈ octets, octet ≤ 255 := by
  rw [readParts_eq_some] at h
  induction h with
  | nil => simp
  | cons hoctet _ ih => exact List.forall_mem_cons.2 ⟨hoctet.2, ih⟩

/-- The four octets of an address are in it. -/
theorem inAddr_inj {os os' : List ℕ} (hlen : os.length = 4) (hlen' : os'.length = 4)
    (h : ∀ o ∈ os, o ≤ 255) (h' : ∀ o ∈ os', o ≤ 255) (heq : inAddr os = inAddr os') : os = os' := by
  have hlt : ∀ {os : List ℕ}, os.length = 4 → (∀ o ∈ os, o ≤ 255) →
      Nat.ofDigits 256 os < 2 ^ 32 := by
    intro os hlen h
    have hpow := Nat.ofDigits_lt_base_pow_length (b := 256) (by decide)
      fun o ho => Nat.lt_succ_of_le (h o ho)
    rwa [hlen] at hpow
  refine Nat.ofDigits_inj_of_len_eq (b := 256) (by decide) (hlen.trans hlen'.symm)
    (fun o ho => Nat.lt_succ_of_le (h o ho)) (fun o ho => Nat.lt_succ_of_le (h' o ho)) ?_
  have hnat := congrArg BitVec.toNat heq
  rwa [inAddr, inAddr, BitVec.toNat_ofNat, BitVec.toNat_ofNat, Nat.mod_eq_of_lt (hlt hlen h),
    Nat.mod_eq_of_lt (hlt hlen' h')] at hnat

variable {s : String}

/-- The parts of an IPv4 address that is accepted. -/
theorem octets_of_checkIP (h : checkIP s = some 4) :
    (dotParts s).length = 4 ∧ ∀ part ∈ dotParts s, IsOctet part := by
  obtain ⟨parts, hlen, hparts, ht⟩ := octets_of_mem (checkIP_eq_four.1 h)
  have hsplit : dotParts s = parts := by rw [dotParts, ht, splitOn_octets hlen hparts]
  rw [hsplit]
  exact ⟨hlen, hparts⟩

theorem inetAton_eq_iff (hdoc : env.Documented s) (h : checkIP s = some 4) :
    env.inetAton s = some (inAddr (decimalOctets s)) ↔
      ∀ part ∈ dotParts s, part.head? = some '0' → Nat.ofDigitChars 10 part 0 < 8 := by
  obtain ⟨hlen, hparts⟩ := octets_of_checkIP h
  rw [hdoc.aton hlen fun part hpart => ⟨(hparts part hpart).ne_nil, (hparts part hpart).digits⟩]
  have hread : (∀ part ∈ dotParts s, part.head? = some '0' → Nat.ofDigitChars 10 part 0 < 8) ↔
      readParts (dotParts s) = some (decimalOctets s) := by
    rw [readParts_eq_some, decimalOctets, List.forall₂_map_right_iff, List.forall₂_same]
    refine forall₂_congr fun part hpart => ?_
    rw [readPart_eq_iff (hparts part hpart), and_iff_left (hparts part hpart).le]
  rw [hread]
  constructor
  · intro h
    obtain ⟨octets, hoctets, heq⟩ := Option.map_eq_some_iff.1 h
    have hforall := readParts_eq_some.1 hoctets
    have hdec : ∀ o ∈ decimalOctets s, o ≤ 255 := by
      intro o ho
      obtain ⟨part, hpart, rfl⟩ := List.mem_map.1 ho
      exact (hparts part hpart).le
    rw [hoctets, inAddr_inj (hforall.length_eq.symm.trans hlen) ((List.length_map _).trans hlen)
      (le_of_readParts hoctets) hdec heq]
    rfl
  · intro h
    rw [h]
    rfl

/-! ## Groups -/

variable {P : List Char → Prop}

namespace Groups

theorem of_hextets (h : ∀ group ∈ groups, IsHextet group) : Groups P groups groups.length := by
  induction groups with
  | nil => exact .nil
  | cons group groups ih =>
    rw [List.forall_mem_cons] at h
    exact .cons h.1 (ih h.2)

theorem le_length (h : Groups P groups n) : n ≤ groups.length + 1 := by
  induction h with
  | nil => exact Nat.zero_le _
  | ipv4 => exact le_rfl
  | cons _ _ ih => exact Nat.succ_le_succ ih

theorem chars (h : Groups P groups n) : ∀ group ∈ groups, ∀ c ∈ group, c.isHexDigit ∨ c = '.' := by
  induction h with
  | nil => simp
  | ipv4 _ hoctet _ =>
    rw [List.forall_mem_singleton]
    intro c hc
    rcases mem_intercalate hc with rfl | ⟨part, hpart, hc⟩
    · exact .inr rfl
    · have hdigit := (hoctet part hpart).digits c hc
      exact .inl (by rw [Char.isHexDigit, hdigit]; rfl)
  | cons hgroup _ ih =>
    exact List.forall_mem_cons.2 ⟨fun c hc => .inl (hgroup.digits c hc), ih⟩

/-- The parts of the IPv4 address. -/
theorem forall_parts (h : Groups P groups n) :
    ∀ group ∈ groups, '.' ∈ group → ∀ part ∈ group.splitOn '.', P part := by
  induction h with
  | nil => simp
  | ipv4 hlen hoctet hP =>
    rw [List.forall_mem_singleton, splitOn_octets hlen hoctet]
    exact fun _ => hP
  | cons hgroup _ ih =>
    exact List.forall_mem_cons.2 ⟨fun hdot => absurd (hgroup.digits '.' hdot) (by decide), ih⟩

/-- Groups whose IPv4 address has parts that satisfy `P`. -/
theorem of_forall_parts (h : Groups (fun _ => True) groups n)
    (hP : ∀ group ∈ groups, '.' ∈ group → ∀ part ∈ group.splitOn '.', P part) :
    Groups P groups n := by
  induction h with
  | nil => exact .nil
  | ipv4 hlen hoctet _ =>
    refine .ipv4 hlen hoctet ?_
    rw [List.forall_mem_singleton, splitOn_octets hlen hoctet] at hP
    exact hP (sep_mem_intercalate (by omega))
  | cons hgroup _ ih =>
    rw [List.forall_mem_cons] at hP
    exact .cons hgroup (ih hP.2)

end Groups

/-! ## Text forms -/

/-- No groups are written as one empty text. -/
def padded (groups : List (List Char)) : List (List Char) := if groups = [] then [[]] else groups

theorem intercalate_padded (groups : List (List Char)) :
    [':'].intercalate (padded groups) = [':'].intercalate groups := by
  rw [padded]
  split_ifs with h
  · rw [h]
    rfl
  · rfl

theorem mem_padded {group : List Char} (h : group ∈ padded groups) : group = [] ∨ group ∈ groups := by
  rw [padded] at h
  split_ifs at h
  · exact .inl (List.mem_singleton.1 h)
  · exact .inr h

theorem padded_ne_nil (groups : List (List Char)) : padded groups ≠ [] := by
  rw [padded]
  split_ifs with h
  · simp
  · exact h

/-- Around `::`, there is an empty group. -/
theorem splitOn_short {before after : List (List Char)} (hbefore : ∀ group ∈ before, ':' ∉ group)
    (hafter : ∀ group ∈ after, ':' ∉ group) :
    ([':'].intercalate before ++ [':', ':'] ++ [':'].intercalate after).splitOn ':' =
      padded before ++ [] :: padded after := by
  have hjoin : [':'].intercalate before ++ [':', ':'] ++ [':'].intercalate after =
      [':'].intercalate (padded before ++ [] :: padded after) := by
    rw [intercalate_append ':' (padded_ne_nil before) (by simp),
      List.intercalate_cons_of_ne_nil (padded_ne_nil after), intercalate_padded, intercalate_padded]
    simp
  rw [hjoin]
  refine List.splitOn_intercalate ':' ?_ (by simp)
  rw [List.forall_mem_append, List.forall_mem_cons]
  refine ⟨fun group hg => ?_, by simp, fun group hg => ?_⟩
  · rcases mem_padded hg with rfl | hg
    · simp
    · exact hbefore group hg
  · rcases mem_padded hg with rfl | hg
    · simp
    · exact hafter group hg

namespace TextForm

/-- The groups of a text form. -/
theorem splitOn_eq (h : TextForm P t) :
    (∃ groups, t = [':'].intercalate groups ∧ Groups P groups 8 ∧ t.splitOn ':' = groups) ∨
      ∃ before after n, t = [':'].intercalate before ++ [':', ':'] ++ [':'].intercalate after ∧
        (∀ group ∈ before, IsHextet group) ∧ Groups P after n ∧ before.length + n ≤ 7 ∧
        t.splitOn ':' = padded before ++ [] :: padded after := by
  have hcolon : ∀ {groups : List (List Char)} {n : ℕ}, Groups P groups n →
      ∀ group ∈ groups, ':' ∉ group := fun hg group hgroup hc => by
    rcases hg.chars group hgroup ':' hc with hhex | hdot
    · exact absurd hhex (by decide)
    · exact absurd hdot (by decide)
  cases h with
  | full hg =>
    refine .inl ⟨_, rfl, hg, List.splitOn_intercalate ':' (hcolon hg) ?_⟩
    rintro rfl
    cases hg
  | short hbefore hafter hle =>
    refine .inr ⟨_, _, _, rfl, hbefore, hafter, hle, splitOn_short (fun group hgroup hc => ?_)
      (hcolon hafter)⟩
    exact absurd ((hbefore group hgroup).digits ':' hc) (by decide)

/-- A text form has no other characters. -/
theorem chars (h : TextForm P t) : ∀ c ∈ t, c.isHexDigit ∨ c = '.' ∨ c = ':' := by
  have hjoin : ∀ {groups : List (List Char)} {c : Char},
      (∀ group ∈ groups, ∀ c ∈ group, c.isHexDigit ∨ c = '.') → c ∈ [':'].intercalate groups →
        c.isHexDigit ∨ c = '.' ∨ c = ':' := fun hg hc => by
    rcases mem_intercalate hc with rfl | ⟨group, hgroup, hc⟩
    · exact .inr (.inr rfl)
    · exact (hg group hgroup _ hc).imp_right .inl
  intro c hc
  cases h with
  | full hg => exact hjoin hg.chars hc
  | short hbefore hafter _ =>
    rw [List.mem_append, List.mem_append] at hc
    rcases hc with (hc | hc) | hc
    · exact hjoin (fun group hgroup c hc => .inl ((hbefore group hgroup).digits c hc)) hc
    · exact .inr (.inr (by simpa using hc))
    · exact hjoin hafter.chars hc

/-- The groups with a dot are after `::`, if there is one. -/
theorem mem_after {before after : List (List Char)} {group : List Char}
    (hbefore : ∀ group ∈ before, IsHextet group) (h : group ∈ padded before ++ [] :: padded after)
    (hdot : '.' ∈ group) : group ∈ after := by
  rw [List.mem_append, List.mem_cons] at h
  rcases h with hg | rfl | hg
  · rcases mem_padded hg with rfl | hg
    · cases hdot
    · exact absurd ((hbefore group hg).digits '.' hdot) (by decide)
  · cases hdot
  · rcases mem_padded hg with rfl | hg
    · cases hdot
    · exact hg

/-- The parts of an IPv4 address at the end. -/
theorem forall_parts (h : TextForm P t) :
    ∀ group ∈ t.splitOn ':', '.' ∈ group → ∀ part ∈ group.splitOn '.', P part := by
  intro group hgroup hdot
  rcases h.splitOn_eq with ⟨groups, -, hg, hsplit⟩ | ⟨before, after, n, -, hbefore, hafter, -, hsplit⟩
  · rw [hsplit] at hgroup
    exact hg.forall_parts group hgroup hdot
  · rw [hsplit] at hgroup
    exact hafter.forall_parts group (mem_after hbefore hgroup hdot) hdot

/-- A text form whose IPv4 address has parts that satisfy `P`. -/
theorem iff_forall_parts (h : TextForm (fun _ => True) t) :
    TextForm P t ↔ ∀ group ∈ t.splitOn ':', '.' ∈ group → ∀ part ∈ group.splitOn '.', P part := by
  refine ⟨forall_parts, fun hP => ?_⟩
  rcases h.splitOn_eq with ⟨groups, rfl, hg, hsplit⟩ |
    ⟨before, after, n, rfl, hbefore, hafter, hle, hsplit⟩
  · rw [hsplit] at hP
    exact .full (hg.of_forall_parts hP)
  · rw [hsplit] at hP
    refine .short hbefore (hafter.of_forall_parts fun group hgroup => hP group ?_) hle
    rw [List.mem_append, List.mem_cons, padded.eq_def after, if_neg (List.ne_nil_of_mem hgroup)]
    exact .inr (.inr hgroup)

theorem zoneless (h : TextForm P t) : '%' ∉ t := fun hzone => by
  rcases h.chars '%' hzone with hhex | hdot | hcolon
  · exact absurd hhex (by decide)
  · exact absurd hdot (by decide)
  · exact absurd hcolon (by decide)

theorem colon_mem (h : TextForm P t) : ':' ∈ t := by
  cases h with
  | full hg =>
    have hle := hg.le_length
    exact sep_mem_intercalate (by omega)
  | short => simp

end TextForm

/-! ## What the pattern accepts -/

/-- Groups on both sides of `::`. -/
theorem textForm_of_groups {k j : ℕ} (hle : k + j ≤ 6) (hk : 1 ≤ k)
    (h : t ∈ (rep groupColon 1 k * rep colonGroup 1 (j + 1)).matches') : TextForm P t := by
  obtain ⟨a, ha, b, hb, rfl⟩ := mem_mul.1 h
  obtain ⟨before, -, -, hmax, hbefore, rfl⟩ := groups_of_mem le_rfl hk ha
  obtain ⟨after, -, hmax', hafter, rfl⟩ := colonGroups_of_mem hb
  have hform : TextForm P ([':'].intercalate before ++ [':', ':'] ++ [':'].intercalate after) :=
    .short hbefore (.of_hextets hafter) (by omega)
  simpa using hform

/-- An IPv4 address after `::` and some groups. -/
theorem textForm_of_octets (before after : List (List Char)) {text : List Char}
    (hbefore : ∀ group ∈ before, IsHextet group) (hafter : ∀ group ∈ after, IsHextet group)
    (hle : before.length + after.length ≤ 5) (h : text ∈ IPv4_REGEX.matches') :
    TextForm (fun _ => True) ([':'].intercalate before ++ [':', ':'] ++
      [':'].intercalate (after ++ [text])) := by
  obtain ⟨parts, hlen, hparts, rfl⟩ := octets_of_mem h
  have hgroups :
      Groups (fun _ => True) (after ++ [['.'].intercalate parts]) (after.length + 2) := by
    clear hle
    induction after with
    | nil => exact .ipv4 hlen hparts fun _ _ => trivial
    | cons group after ih =>
      rw [List.forall_mem_cons] at hafter
      rw [List.length_cons, Nat.add_right_comm]
      exact .cons hafter.1 (ih hafter.2)
  exact .short hbefore hgroups (by omega)

/-- What the pattern for IPv6 accepts has a zone or is a text form, but for leading zeros. -/
theorem textForm_of_mem (h : t ∈ IPv6_REGEX.matches') : '%' ∈ t ∨ TextForm (fun _ => True) t := by
  have hone : ∀ {r : RegularExpression Char} {u : List Char}, u ∈ r.matches' →
      u ∈ (rep r 1 1).matches' := fun hu =>
    (mem_rep le_rfl).2 ⟨[_], le_rfl, le_rfl, by simpa using hu, by simp⟩
  simp only [IPv6_REGEX, mem_add, or_assoc] at h
  rcases h with h | h | h | h | h | h | h | h | h | h | h | h
  · -- eight groups
    refine .inr ?_
    obtain ⟨a, ha, last, hlast, rfl⟩ := mem_mul.1 h
    obtain ⟨groups, hne, hmin, hmax, hgroups, rfl⟩ := groups_of_mem (by decide) le_rfl ha
    have hall : ∀ group ∈ groups ++ [last], IsHextet group := by
      rw [List.forall_mem_append, List.forall_mem_singleton]
      exact ⟨hgroups, isHextet_of_mem hlast⟩
    have hlen : (groups ++ [last]).length = 8 := by
      rw [List.length_append, List.length_singleton]
      omega
    have hform : TextForm (fun _ => True) ([':'].intercalate (groups ++ [last])) :=
      .full (hlen ▸ .of_hextets hall)
    rw [intercalate_append ':' hne (by simp), List.intercalate_singleton] at hform
    simpa using hform
  · -- up to seven groups before `::`
    refine .inr ?_
    obtain ⟨a, ha, b, hb, rfl⟩ := mem_mul.1 h
    obtain ⟨before, -, -, hmax, hbefore, rfl⟩ := groups_of_mem le_rfl (by decide) ha
    have hform : TextForm (fun _ => True) ([':'].intercalate before ++ [':', ':'] ++
        [':'].intercalate []) := .short hbefore .nil (by omega)
    rw [mem_text.1 hb]
    simpa using hform
  · obtain ⟨a, ha, b, hb, rfl⟩ := mem_mul.1 h
    exact .inr (textForm_of_groups (k := 6) (j := 0) (by decide) (by decide)
      (mem_mul.2 ⟨a, ha, b, hone hb, rfl⟩))
  · exact .inr (textForm_of_groups (k := 5) (j := 1) (by decide) (by decide) h)
  · exact .inr (textForm_of_groups (k := 4) (j := 2) (by decide) (by decide) h)
  · exact .inr (textForm_of_groups (k := 3) (j := 3) (by decide) (by decide) h)
  · exact .inr (textForm_of_groups (k := 2) (j := 4) (by decide) (by decide) h)
  · obtain ⟨a, ha, b, hb, rfl⟩ := mem_mul.1 h
    exact .inr (textForm_of_groups (k := 1) (j := 5) (by decide) (by decide)
      (mem_mul.2 ⟨a, hone ha, b, hb, rfl⟩))
  · -- up to seven groups after `::`
    refine .inr ?_
    obtain ⟨a, ha, b, hb, rfl⟩ := mem_mul.1 h
    rw [mem_text.1 ha]
    rcases mem_add.1 hb with hb | hb
    · obtain ⟨after, -, hmax, hafter, rfl⟩ := colonGroups_of_mem hb
      exact @TextForm.short _ [] _ _ (by simp) (.of_hextets hafter) (by simpa using hmax)
    · rw [mem_text.1 hb]
      exact @TextForm.short _ [] [] 0 (by simp) .nil (by decide)
  · -- with a zone
    refine .inl ?_
    obtain ⟨a, ha, b, hb, rfl⟩ := mem_mul.1 h
    obtain ⟨c, hc, d, hd, rfl⟩ := mem_mul.1 ha
    rw [mem_text.1 hd]
    simp
  · -- an IPv4 address after `::`, with the groups of a mapped one
    refine .inr ?_
    obtain ⟨a, ha, octets, hoctets, rfl⟩ := mem_mul.1 h
    obtain ⟨c, hc, d, hd, rfl⟩ := mem_mul.1 ha
    rw [mem_text.1 hc]
    have hform : ∀ after : List (List Char), (∀ group ∈ after, IsHextet group) →
        after.length ≤ 5 →
        TextForm (fun _ => True) (':' :: ':' :: [':'].intercalate (after ++ [octets])) :=
      fun after hafter hle =>
        textForm_of_octets [] after (by simp) hafter (by simpa using hle) hoctets
    rcases mem_opt.1 hd with rfl | hd
    · simpa using hform [] (by simp) (by decide)
    · obtain ⟨e, he, colon, hcolon, rfl⟩ := mem_mul.1 hd
      obtain ⟨ffff, hffff, f, hf, rfl⟩ := mem_mul.1 he
      have hhextet : IsHextet ['f', 'f', 'f', 'f'] := ⟨by simp, le_rfl, by decide⟩
      rw [mem_text.1 hcolon, mem_text.1 hffff]
      rcases mem_opt.1 hf with rfl | hf
      · simpa using hform [['f', 'f', 'f', 'f']] (by simpa using hhextet) (by decide)
      · obtain ⟨colon', hcolon', zeros, hzeros, rfl⟩ := mem_mul.1 hf
        have hzero := isHextet_of_zeros hzeros
        rw [mem_text.1 hcolon']
        simpa using hform [['f', 'f', 'f', 'f'], zeros]
          (by simpa using ⟨hhextet, hzero⟩) (by simp)
  · -- an IPv4 address after groups and `::`
    refine .inr ?_
    obtain ⟨a, ha, octets, hoctets, rfl⟩ := mem_mul.1 h
    obtain ⟨c, hc, d, hd, rfl⟩ := mem_mul.1 ha
    obtain ⟨before, -, -, hmax, hbefore, rfl⟩ := groups_of_mem le_rfl (by decide) hc
    rw [mem_text.1 hd]
    have hform := textForm_of_octets before [] hbefore (by simp) (by simp; omega) hoctets
    simpa using hform

/-- An IPv6 address that is accepted is converted if it has neither a zone nor a leading zero in an
    IPv4 address at its end. -/
theorem inetPton_isSome_iff (hdoc : env.Documented s) (h : checkIP s = some 6) :
    (env.inetPton s).isSome ↔ '%' ∉ s.toList ∧ NoLeadingZeros s.toList := by
  rw [hdoc.pton]
  rcases textForm_of_mem (mem_of_checkIP_six h) with hzone | hform
  · exact iff_of_false (fun hform => hform.zoneless hzone) fun h => h.1 hzone
  · rw [hform.iff_forall_parts, NoLeadingZeros, and_iff_right hform.zoneless]

/-- Accepted addresses. A text is converted as the validator accepts it, exactly if, as an IPv4
    address, its parts that begin with a zero are below eight, and, as an IPv6 address, it has
    neither a zone nor a leading zero in an IPv4 address at its end. -/
theorem converts_as_accepted_iff (hdoc : env.Documented s) :
    ConvertsAsAccepted env s ↔
      (checkIP s = some 4 →
        ∀ part ∈ dotParts s, part.head? = some '0' → Nat.ofDigitChars 10 part 0 < 8) ∧
      (checkIP s = some 6 → '%' ∉ s.toList ∧ NoLeadingZeros s.toList) :=
  and_congr (forall_congr' (inetAton_eq_iff hdoc)) (forall_congr' (inetPton_isSome_iff hdoc))

/-- The conversions of some texts: an octal one, and the address of the loopback. -/
def demoLibc : Env where
  __ := demoEnv
  inetAton text := if text = "010.0.0.1" then some 0x01000008 else none
  inetPton text := if text = "::1" then some (1 <<< 120) else none

theorem converts_as_accepted_loopback :
    ConvertsAsAccepted demoLibc "::1" ↔
      (checkIP "::1" = some 4 →
        ∀ part ∈ dotParts "::1", part.head? = some '0' → Nat.ofDigitChars 10 part 0 < 8) ∧
      (checkIP "::1" = some 6 → '%' ∉ "::1".toList ∧ NoLeadingZeros "::1".toList) :=
  converts_as_accepted_iff
    { aton := by decide +kernel
      pton := iff_of_true rfl
        (@TextForm.short _ [] [['1']] 1 (by simp)
          (.cons ⟨by simp, by simp, by decide⟩ .nil) (by decide)) }

/-- Accepted addresses that are not converted, or not to what they say. -/
theorem accepted_not_converted :
    (demoLibc.Documented "010.0.0.1" ∧ ¬ConvertsAsAccepted demoLibc "010.0.0.1") ∧
    (demoLibc.Documented "08.0.0.1" ∧ ¬ConvertsAsAccepted demoLibc "08.0.0.1") ∧
    (demoLibc.Documented "fe80::1%eth0" ∧ ¬ConvertsAsAccepted demoLibc "fe80::1%eth0") ∧
    (demoLibc.Documented "::010.0.0.1" ∧ ¬ConvertsAsAccepted demoLibc "::010.0.0.1") := by
  have haton : ∀ s ∈ ["010.0.0.1", "08.0.0.1", "fe80::1%eth0", "::010.0.0.1"],
      ((dotParts s).length = 4 → (∀ part ∈ dotParts s, part ≠ [] ∧ ∀ c ∈ part, c.isDigit) →
        demoLibc.inetAton s = (readParts (dotParts s)).map inAddr) ∧
        demoLibc.inetPton s = none ∧ ¬ConvertsAsAccepted demoLibc s := by
    decide +kernel
  have hpton : ∀ s ∈ ["010.0.0.1", "08.0.0.1", "fe80::1%eth0", "::010.0.0.1"],
      ¬TextForm (¬LeadingZero ·) s.toList := by
    simp only [List.forall_mem_cons]
    refine ⟨fun h => ?_, fun h => ?_, fun h => ?_, fun h => ?_, by simp⟩
    · exact absurd h.colon_mem (by decide)
    · exact absurd h.colon_mem (by decide)
    · exact absurd h.zoneless (by decide)
    · exact absurd h.forall_parts (by decide)
  have hall : ∀ s ∈ ["010.0.0.1", "08.0.0.1", "fe80::1%eth0", "::010.0.0.1"],
      demoLibc.Documented s ∧ ¬ConvertsAsAccepted demoLibc s := fun s hs => by
    obtain ⟨ha, hp, hc⟩ := haton s hs
    exact ⟨⟨ha, iff_of_false (by rw [hp]; decide) (hpton s hs)⟩, hc⟩
  simp only [List.forall_mem_cons] at hall
  obtain ⟨hoctal, height, hzone, hembedded, -⟩ := hall
  exact ⟨hoctal, height, hzone, hembedded⟩

end L4Balancer
