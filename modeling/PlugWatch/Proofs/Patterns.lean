import PlugWatch.Failure
import PlugWatch.Proofs.Grammar

/-! # Patterns, read and written

  Every text is read in one of five ways. Without the blanks around it, it is a star, or it has the
  mark `0x` and then a number of at most eight bytes; or it is refused, because it has no mark, or
  because nothing or too much follows the mark, or because what follows is no number. The number may
  have a plus sign, which counts as one of the eight bytes, and so it always fits into a word.

  What is **written** is read back: a pattern whatever blanks are put around it, and a valid filter
  as the filter text of a watch. The raw words of patterns go back and forth as well, with one
  exception: the exact value that has the word of the wildcard.
-/

namespace PlugWatch

/-! ## Digits -/

namespace Numeral

variable {base n : Nat} {c : Char} {cs : List Char}

theorem Spells.nil : Spells base [] 0 :=
  ⟨[], rfl, rfl⟩

/-- The last digit counts the ones, and what is in front of it counts the bases. -/
theorem spells_concat_iff : Spells base (cs ++ [c]) n ↔
    ∃ m d, Spells base cs m ∧ digitOf base c = some d ∧ n = base * m + d := by
  constructor
  · intro h
    obtain ⟨ds, hds, rfl⟩ := h
    obtain ⟨ds', d, rfl⟩ : ∃ ds' d, ds = ds' ++ [d] := by
      obtain rfl | h := List.eq_nil_or_concat ds
      · simp at hds
      · simpa using h
    simp only [List.map_append, List.map_cons, List.map_nil] at hds
    obtain ⟨hds', hd⟩ := List.append_inj' hds rfl
    refine ⟨_, d, ⟨ds', hds', rfl⟩, by simpa using hd, ?_⟩
    rw [List.reverse_append, List.reverse_singleton, List.singleton_append, Nat.ofDigits_cons]
    exact Nat.add_comm _ _
  · intro h
    obtain ⟨m, d, ⟨ds, hds, rfl⟩, hd, rfl⟩ := h
    refine ⟨ds ++ [d], by simp [hds, hd], ?_⟩
    rw [List.reverse_append, List.reverse_singleton, List.singleton_append, Nat.ofDigits_cons]
    exact Nat.add_comm _ _

/-- The hexadecimal digits, from zero to fifteen. -/
def hexAlphabet : List Char :=
  ['0', '1', '2', '3', '4', '5', '6', '7', '8', '9', 'a', 'b', 'c', 'd', 'e', 'f']

/-- The character is the digit of a value; letters count in either case. -/
def HexDigit (c : Char) (d : Nat) : Prop :=
  hexAlphabet[d]? = some c ∨ (hexAlphabet.map Char.toUpper)[d]? = some c

instance (c : Char) (d : Nat) : Decidable (HexDigit c d) :=
  inferInstanceAs (Decidable (_ ∨ _))

/-- Hexadecimal digits, and the number for which they stand. -/
inductive HexDigits : List Char → Nat → Prop
  | one {c : Char} {d : Nat} : HexDigit c d → HexDigits [c] d
  /-- With a digit behind it, a number counts sixteen times as much. -/
  | more {cs : List Char} {n : Nat} {c : Char} {d : Nat} : HexDigits cs n → HexDigit c d →
      HexDigits (cs ++ [c]) (16 * n + d)

theorem hexDigit_iff {d : Nat} : HexDigit c d ↔ digitOf 16 c = some d := by
  constructor
  · intro h
    have hall : ∀ p ∈ hexAlphabet.zipIdx ++ (hexAlphabet.map Char.toUpper).zipIdx,
        digitOf 16 p.1 = some p.2 := by decide
    apply hall (c, d)
    rw [List.mem_append]
    exact h.imp List.mk_mem_zipIdx_iff_getElem?.mpr List.mk_mem_zipIdx_iff_getElem?.mpr
  · intro h
    -- All digits are among the first characters, so they can be gone through.
    have hall : ∀ n < 123, ∀ d ∈ digitOf 16 (Char.ofNat n), HexDigit (Char.ofNat n) d := by
      decide +kernel
    have hrange := toNat_of_digitOf h
    have hc := hall c.toNat (by omega) d
    rw [Char.ofNat_toNat] at hc
    exact hc h

theorem hexDigits_iff : HexDigits cs n ↔ cs ≠ [] ∧ Spells 16 cs n := by
  constructor
  · intro h
    induction h with
    | one hc => exact ⟨by simp, spells_concat_iff.mpr ⟨0, _, .nil, hexDigit_iff.mp hc, by simp⟩⟩
    | more _ hc ih =>
      exact ⟨by simp, spells_concat_iff.mpr ⟨_, _, ih.2, hexDigit_iff.mp hc, rfl⟩⟩
  · intro h
    obtain ⟨hne, hspells⟩ := h
    -- Numbers grow at the end, so the induction takes the last digit off.
    induction cs using List.reverseRecOn generalizing n with
    | nil => exact absurd rfl hne
    | append_singleton cs c ih =>
      obtain ⟨m, d, hcs, hd, rfl⟩ := spells_concat_iff.mp hspells
      have hc := hexDigit_iff.mpr hd
      rcases eq_or_ne cs [] with rfl | hcsne
      · obtain ⟨ds, hds, rfl⟩ := hcs
        obtain rfl : ds = [] := by simpa using hds.symm
        simpa using HexDigits.one hc
      · exact .more (ih hcsne hcs) hc

/-! ## Numerals that are written -/

theorem digitOf_digitChar {d : Nat} (hbase : base ≤ 16) (hd : d < base) :
    digitOf base d.digitChar = some d := by
  have hvalue : ∀ d < 16, digitValue d.digitChar = some d := by decide
  rw [digitOf, hvalue d (hd.trans_le hbase), Option.filter_some, if_pos (by simpa)]

theorem spells_toDigits (hone : 1 < base) (hbase : base ≤ 16) (n : Nat) :
    Spells base (Nat.toDigits base n) n := by
  induction n using Nat.strongRecOn with
  | _ n ih =>
    rw [Nat.toDigits_eq_if hone]
    split
    · next hlt =>
      have hdigit := digitOf_digitChar hbase hlt
      rw [← List.nil_append [n.digitChar]]
      exact spells_concat_iff.mpr ⟨0, n, .nil, hdigit, by simp⟩
    · next hge =>
      have hsmaller : n / base < n := Nat.div_lt_self (by omega) hone
      have hdigit := digitOf_digitChar hbase (Nat.mod_lt n (by omega : 0 < base))
      exact spells_concat_iff.mpr ⟨n / base, n % base, ih _ hsmaller, hdigit,
        (Nat.div_add_mod n base).symm⟩

/-- A zero in front counts nothing. -/
theorem Spells.zero (hone : 1 < base) (h : Spells base cs n) : Spells base ('0' :: cs) n := by
  obtain ⟨ds, hds, rfl⟩ := h
  have hzero : digitOf base '0' = some 0 := by
    rw [digitOf, show digitValue '0' = some 0 by decide, Option.filter_some,
      if_pos (by simp; omega)]
  refine ⟨0 :: ds, by simp [hzero, hds], ?_⟩
  rw [List.reverse_cons, Nat.ofDigits_append]
  simp

/-- A **numeral** stands for the number for which it was written. -/
theorem spells_padded (hone : 1 < base) (hbase : base ≤ 16) (width n : Nat) :
    Spells base (padded base width n) n := by
  have hzeros : ∀ k, Spells base (List.replicate k '0' ++ Nat.toDigits base n) n := by
    intro k
    induction k with
    | zero => exact spells_toDigits hone hbase n
    | succ k ih => exact ih.zero hone
  exact hzeros _

theorem padded_ne_nil (base width n : Nat) : padded base width n ≠ [] := by
  simp [padded, Nat.toDigits_ne_nil]

/-- A numeral is read back, however many zeros stand in front. -/
theorem read_padded (hone : 1 < base) (hbase : base ≤ 16) (width n : Nat) :
    read base (padded base width n) = some n :=
  read_eq_some_iff.mpr ⟨padded_ne_nil base width n, spells_padded hone hbase width n⟩

/-- There is nothing but digits in a numeral. -/
theorem notMem_padded (hone : 1 < base) (hbase : base ≤ 16) (hc : digitValue c = none)
    (width n : Nat) : c ∉ padded base width n := by
  intro hmem
  obtain ⟨d, hd⟩ := (spells_padded hone hbase width n).digit hmem
  rw [digitOf, hc] at hd
  cases hd

theorem length_padded_le {width k : Nat} (hone : 1 < base) (hwidth : width ≤ k) (hk : 0 < k)
    (hn : n < base ^ k) : (padded base width n).length ≤ k := by
  have hdigits := (Nat.length_toDigits_le_iff hone hk).mpr hn
  simp only [padded, List.length_append, List.length_replicate]
  omega

end Numeral

/-! ## Trimming -/

namespace Text

variable {s t : String} {c : Char}

/-- The characters with the property White_Space, by their numbers. -/
def whiteSpace : List Nat :=
  [0x9, 0xA, 0xB, 0xC, 0xD, 0x20, 0x85, 0xA0, 0x1680, 0x2000, 0x2001, 0x2002, 0x2003, 0x2004,
    0x2005, 0x2006, 0x2007, 0x2008, 0x2009, 0x200A, 0x2028, 0x2029, 0x202F, 0x205F, 0x3000]

/-- The text has nothing but white space. -/
def Void (s : String) : Prop :=
  ∀ c ∈ s.toList, c.toNat ∈ whiteSpace

/-- A text without the white space at its ends. -/
structure Trims (s t : String) : Prop where
  around : ∃ before after, s = before ++ t ++ after ∧ Void before ∧ Void after
  front : ∀ c ∈ t.toList.head?, c.toNat ∉ whiteSpace
  back : ∀ c ∈ t.toList.getLast?, c.toNat ∉ whiteSpace

theorem isBlank_iff : isBlank c = true ↔ c.toNat ∈ whiteSpace := by
  simp only [isBlank, whiteSpace, Bool.or_eq_true, Bool.and_eq_true, decide_eq_true_eq,
    beq_iff_eq, List.mem_cons, List.not_mem_nil, or_false]
  omega

theorem isBlank_eq_false_iff : isBlank c = false ↔ c.toNat ∉ whiteSpace := by
  rw [← isBlank_iff, Bool.not_eq_true]

theorem void_iff : Void s ↔ Blanks s.toList :=
  forall₂_congr fun _ _ => isBlank_iff.symm

theorem isBlank_of_head?_dropWhile {cs : List Char} (h : c ∈ (cs.dropWhile isBlank).head?) :
    isBlank c = false := by
  have hhead := List.head?_dropWhile_not isBlank cs
  rwa [Option.mem_def.mp h] at hhead

theorem trims_trim (s : String) : Trims s (trim s) := by
  obtain ⟨before, after, hs, hbefore, hafter⟩ := exists_trimChars s.toList
  refine ⟨⟨String.ofList before, String.ofList after, ?_, ?_, ?_⟩, ?_, ?_⟩
  · rw [← String.toList_inj]
    simpa [trim] using hs
  · simpa [void_iff] using hbefore
  · simpa [void_iff] using hafter
  · intro c hc
    have hhead : c ∈ (s.toList.dropWhile isBlank).head? := by
      rw [trim, String.toList_ofList] at hc
      rw [dropWhile_eq_trimChars_append, List.head?_append]
      simp [Option.mem_def.mp hc]
    exact isBlank_eq_false_iff.mp (isBlank_of_head?_dropWhile hhead)
  · intro c hc
    rw [trim, String.toList_ofList, trimChars, List.getLast?_reverse] at hc
    exact isBlank_eq_false_iff.mp (isBlank_of_head?_dropWhile hc)

/-- There is one way to trim a text. -/
theorem trims_iff : Trims s t ↔ t = trim s := by
  constructor
  · intro h
    obtain ⟨before, after, rfl, hbefore, hafter⟩ := h.around
    have hcore := trimChars_around (void_iff.mp hbefore) (void_iff.mp hafter)
      (fun c hc => isBlank_eq_false_iff.mpr (h.front c hc))
      (fun c hc => isBlank_eq_false_iff.mpr (h.back c hc))
    rw [trim, String.toList_append, String.toList_append, hcore, String.ofList_toList]
  · rintro rfl
    exact trims_trim s

end Text

/-! ## Reading -/

namespace Pattern

open Numeral Text

variable {s t h : String} {n : Nat}

/-- The text has a mark, and `h` follows it. -/
def Marked (t h : String) : Prop :=
  t = "0x" ++ h ∨ t = "0X" ++ h

/-- Hexadecimal digits, or a plus sign and hexadecimal digits. -/
inductive Counts (h : String) (n : Nat) : Prop
  | plain : HexDigits h.toList n → Counts h n
  | signed {ds : List Char} : h.toList = '+' :: ds → HexDigits ds n → Counts h n

/-- What is said of a text that is no pattern. -/
inductive Refused (t : String) : String → Prop
  | unmarked : t ≠ "*" → (∀ h, ¬ Marked t h) → Refused t s!"'{t}' must be '*' or start with '0x'"
  | digitCount {h : String} : Marked t h → h = "" ∨ 8 < h.utf8ByteSize →
      Refused t s!"'{t}' must have 1-8 hex digits"
  | notHex {h : String} : Marked t h → h ≠ "" → h.utf8ByteSize ≤ 8 → (∀ n, ¬ Counts h n) →
      Refused t s!"'{t}' is not a valid hex number"

/-- What comes of a text without blanks at its ends: a pattern, or words against it. -/
inductive Reading (t : String) : Except String Pattern → Prop
  | star : t = "*" → Reading t (.ok any)
  | value {h : String} {v : UInt32} : Marked t h → h.utf8ByteSize ≤ 8 → Counts h v.toNat →
      Reading t (.ok (exactly v))
  | refused {words : String} : Refused t words → Reading t (.error words)

theorem marked_iff : Marked t h ↔ afterMark t.toList = some h.toList := by
  constructor
  · rintro (rfl | rfl) <;> simp [afterMark]
  · intro hafter
    obtain ⟨m, rfl | rfl, ht⟩ := afterMark_eq_some hafter
    · exact .inl (String.toList_inj.mp (by simp [ht]))
    · exact .inr (String.toList_inj.mp (by simp [ht]))

theorem counts_iff : Counts h n ↔ readHex h.toList = some n := by
  rw [readHex_eq_some_iff]
  constructor
  · intro hc
    cases hc with
    | plain hds =>
      obtain ⟨hne, hds⟩ := hexDigits_iff.mp hds
      exact ⟨[], _, rfl, .inl rfl, hne, hds⟩
    | signed hplus hds =>
      obtain ⟨hne, hds⟩ := hexDigits_iff.mp hds
      exact ⟨['+'], _, hplus, .inr rfl, hne, hds⟩
  · intro hread
    obtain ⟨sign, ds, hh, rfl | rfl, hne, hds⟩ := hread
    · exact .plain (hh ▸ hexDigits_iff.mpr ⟨hne, hds⟩)
    · exact .signed hh (hexDigits_iff.mpr ⟨hne, hds⟩)

/-- With so few bytes the number fits into a word. -/
theorem Counts.lt (hsize : h.utf8ByteSize ≤ 8) (hc : Counts h n) : n < 2 ^ 32 := by
  obtain ⟨sign, ds, hh, hsign, -, hds⟩ := readHex_eq_some_iff.mp (counts_iff.mp hc)
  have hbytes : h.utf8ByteSize = sign.length + ds.length := by
    rw [← String.ofList_toList (s := h), hh, String.utf8ByteSize_ofList, String.utf8Len_append,
      hds.utf8Len, utf8Len_sign hsign]
  have hpow : 16 ^ ds.length ≤ 16 ^ 8 := Nat.pow_le_pow_right (by decide) (by omega)
  exact (hds.lt (by decide)).trans_le hpow

theorem Marked.ne_star (hm : Marked t h) : t ≠ "*" := by
  rintro rfl
  cases marked_iff.mp hm

theorem parseChars_unmarked (hstar : t ≠ "*") (hno : ∀ h, ¬ Marked t h) :
    parseChars t.toList = .error (.unmarked t) := by
  have hcs : t.toList ≠ ['*'] := fun heq => hstar (String.toList_inj.mp heq)
  have hafter : afterMark t.toList = none := by
    rw [Option.eq_none_iff_forall_ne_some]
    intro cs hcs
    exact hno (String.ofList cs) (marked_iff.mpr (by rw [hcs, String.toList_ofList]))
  simp only [parseChars, if_neg hcs, hafter, String.ofList_toList]

theorem parseChars_marked (hm : Marked t h) : parseChars t.toList =
    if h.utf8ByteSize = 0 ∨ h.utf8ByteSize > 8 then .error (.digitCount t)
    else (readHex h.toList).elim (.error (.notHex t)) fun n => .ok (exactly (UInt32.ofNat n)) := by
  have hcs : t.toList ≠ ['*'] := fun heq => hm.ne_star (String.toList_inj.mp heq)
  simp only [parseChars, if_neg hcs, marked_iff.mp hm, String.ofList_toList]
  cases readHex h.toList <;> rfl

/-- The five ways to read a text are all there are, and no text is read in two ways. -/
theorem reading_iff {a : Except String Pattern} :
    Reading t a ↔ (parseChars t.toList).mapError ParseError.message = a := by
  constructor
  · intro hr
    cases hr with
    | star ht =>
      subst ht
      rfl
    | @value h v hm hsize hc =>
      have hread := counts_iff.mp hc
      have hpos : h.utf8ByteSize ≠ 0 := by
        intro hzero
        rw [String.utf8ByteSize_eq_zero_iff.mp hzero] at hread
        cases hread
      rw [parseChars_marked hm, if_neg (by omega), hread]
      simp [Except.mapError]
    | refused hr =>
      cases hr with
      | unmarked hstar hno =>
        rw [parseChars_unmarked hstar hno]
        rfl
      | @digitCount h hm hsize =>
        have hzero : h = "" → h.utf8ByteSize = 0 := by
          rintro rfl
          rfl
        rw [parseChars_marked hm, if_pos (hsize.imp hzero id)]
        rfl
      | @notHex h hm hne hsize hno =>
        have hpos : h.utf8ByteSize ≠ 0 := mt String.utf8ByteSize_eq_zero_iff.mp hne
        have hread : readHex h.toList = none := by
          rw [Option.eq_none_iff_forall_ne_some]
          exact fun n hn => hno n (counts_iff.mpr hn)
        rw [parseChars_marked hm, if_neg (by omega), hread]
        rfl
  · -- The texts are told apart in the order in which they are refused.
    rintro rfl
    by_cases hstar : t = "*"
    · subst hstar
      exact .star rfl
    · by_cases hmarked : ∃ h, Marked t h
      · obtain ⟨h, hm⟩ := hmarked
        rw [parseChars_marked hm]
        split_ifs with hsize
        · exact .refused (.digitCount hm (hsize.imp String.utf8ByteSize_eq_zero_iff.mp id))
        · have hne : h ≠ "" := fun heq => hsize (.inl (String.utf8ByteSize_eq_zero_iff.mpr heq))
          have hle : h.utf8ByteSize ≤ 8 := by omega
          cases hread : readHex h.toList with
          | some n =>
            have hc : Counts h n := counts_iff.mpr hread
            have hn : (UInt32.ofNat n).toNat = n := UInt32.toNat_ofNat_of_lt (hc.lt hle)
            exact .value hm hle (hn.symm ▸ hc)
          | none =>
            refine .refused (.notHex hm hne hle fun n hn => ?_)
            rw [counts_iff.mp hn] at hread
            cases hread
      · rw [parseChars_unmarked hstar (not_exists.mp hmarked)]
        exact .refused (.unmarked hstar (not_exists.mp hmarked))

theorem parse_eq (s : String) : parse s = parseChars (trim s).toList := by
  rw [parse, trim, String.toList_ofList]

theorem parse_eq_ok_iff_reading {p : Pattern} : parse s = .ok p ↔ Reading (trim s) (.ok p) := by
  rw [reading_iff, parse_eq]
  cases parseChars (trim s).toList <;> simp [Except.mapError]

theorem parse_refused_iff {words : String} : (∃ why, parse s = .error why ∧
    (Failure.invalidParameter (.pattern why)).message = "Invalid parameter: " ++ words) ↔
      Reading (trim s) (.error words) := by
  have hmessage (why : ParseError) : (Failure.invalidParameter (.pattern why)).message =
      "Invalid parameter: " ++ words ↔ why.message = words :=
    String.append_right_inj _
  rw [reading_iff, parse_eq]
  simp only [hmessage]
  cases parseChars (trim s).toList <;> simp [Except.mapError]

/-- What a text is read as is told by what is left of it without the blanks at its ends. A star is
    the wildcard and nothing else is. A mark and a number of at most eight bytes are an exact value,
    and the number fits into a word. Every other text is refused, and the words say what is wrong
    with it. -/
theorem parse_exact (s : String) : ∃ t, (∀ t', Trims s t' ↔ t' = t) ∧
    (parse s = .ok any ↔ t = "*") ∧
    (∀ v, parse s = .ok (exactly v) ↔
      ∃ h, Marked t h ∧ h.utf8ByteSize ≤ 8 ∧ Counts h v.toNat) ∧
    (∀ h n, h.utf8ByteSize ≤ 8 → Counts h n → n < 2 ^ 32) ∧
    (∀ words, (∃ why, parse s = .error why ∧
        (Failure.invalidParameter (.pattern why)).message = "Invalid parameter: " ++ words) ↔
      Refused t words) ∧
    ∀ h, Marked t h → parse s ≠ .ok any := by
  have hany : parse s = .ok any ↔ trim s = "*" := by
    rw [parse_eq_ok_iff_reading]
    constructor
    · intro hr
      cases hr with
      | star ht => exact ht
    · exact .star
  refine ⟨trim s, fun _ => trims_iff, hany, ?_, fun _ _ hsize hc => hc.lt hsize, ?_, ?_⟩
  · intro v
    rw [parse_eq_ok_iff_reading]
    constructor
    · intro hr
      cases hr with
      | value hm hsize hc => exact ⟨_, hm, hsize, hc⟩
    · rintro ⟨h, hm, hsize, hc⟩
      exact .value hm hsize hc
  · intro words
    rw [parse_refused_iff]
    constructor
    · intro hr
      cases hr with
      | refused hr => exact hr
    · exact .refused
  · intro h hm heq
    exact hm.ne_star (hany.mp heq)

/-- The word of the wildcard is an exact value like any other when it is spelled out. -/
example : parse " 0xffffffff\u3000" = .ok (exactly 0xFFFFFFFF) := by
  decide +kernel

/-! ## Writing -/

variable {p : Pattern} {w : UInt32}

theorem toList_text (v : UInt32) :
    (exactly v).text.toList = '0' :: 'x' :: padded 16 4 v.toNat := by
  show ("0x" ++ String.ofList (padded 16 4 v.toNat)).toList = _
  simp

/-- Four digits, or up to eight if the value needs them. -/
theorem reading_text (p : Pattern) : Reading p.text (.ok p) := by
  cases p with
  | any => exact .star rfl
  | exactly v =>
    let digits := padded 16 4 v.toNat
    have hspells : Spells 16 digits v.toNat := spells_padded (by decide) (by decide) 4 _
    have hlength : digits.length ≤ 8 :=
      length_padded_le (by decide) (by decide) (by decide) v.toNat_lt
    have hsize : (String.ofList digits).utf8ByteSize ≤ 8 := by
      rwa [String.utf8ByteSize_ofList, hspells.utf8Len]
    have hcounts : Counts (String.ofList digits) v.toNat := by
      apply Counts.plain
      rw [String.toList_ofList]
      exact hexDigits_iff.mpr ⟨padded_ne_nil _ _ _, hspells⟩
    exact .value (.inl rfl) hsize hcounts

theorem parseChars_text (p : Pattern) : parseChars p.text.toList = .ok p := by
  have hread := reading_iff.mp (reading_text p)
  cases hparse : parseChars p.text.toList <;> simp_all [Except.mapError]

/-- A pattern that was written **reads back**, with any blanks around it. -/
theorem parse_text {before after : String} (hbefore : Void before) (hafter : Void after)
    (p : Pattern) : parse (before ++ p.text ++ after) = .ok p := by
  -- There are no blanks in the text itself, so trimming stops at its ends.
  have hunblank := (parseChars_eq_ok_iff.mp (parseChars_text p)).unblank
  have htrims : Trims (before ++ p.text ++ after) p.text :=
    ⟨⟨before, after, rfl, hbefore, hafter⟩,
      fun c hc => isBlank_eq_false_iff.mp (hunblank c (List.mem_of_mem_head? hc)),
      fun c hc => isBlank_eq_false_iff.mp (hunblank c (List.mem_of_mem_getLast? hc))⟩
  rw [parse_eq, ← trims_iff.mp htrims, parseChars_text]

theorem text_injective : Function.Injective text := by
  intro p q h
  have hp := parseChars_text p
  rw [h, parseChars_text q] at hp
  exact (Except.ok.inj hp).symm

theorem colon_notMem_text (p : Pattern) : ':' ∉ p.text.toList := by
  cases p with
  | any => decide
  | exactly v =>
    rw [toList_text]
    have hdigits : ':' ∉ padded 16 4 v.toNat :=
      notMem_padded (by decide) (by decide) (by decide) 4 v.toNat
    simp [hdigits]

/-! ## Raw words -/

theorem raw_ofRaw (w : UInt32) : (ofRaw w).raw = w := by
  unfold ofRaw
  split
  · next h => exact h.symm
  · rfl

/-- The exact value that has the word of the wildcard is the only one that does not come back. -/
theorem ofRaw_raw_iff : ofRaw p.raw = p ↔ p ≠ exactly 0xFFFFFFFF := by
  cases p with
  | any => simp [ofRaw, raw]
  | exactly v =>
    by_cases h : v = 0xFFFFFFFF <;> simp [ofRaw, raw, anyWord, h]

end Pattern

/-! ## Filters -/

namespace Filter

open Pattern

variable {f : Filter} {field : Field}

/-- No field is wide enough for the word of the wildcard. -/
theorem raw_eq_anyWord_iff (h : f.validate = .ok ()) :
    (f.pattern field).raw = anyWord ↔ f.pattern field = .any := by
  constructor
  · intro hraw
    cases hp : f.pattern field with
    | any => rfl
    | exactly v =>
      have hfits := (validate_eq_ok_iff.mp h).1
      rw [hp] at hraw
      obtain rfl : v = anyWord := hraw
      have hlimit : field.limit < anyWord := by cases field <;> decide
      exact absurd (tooWide_iff.mpr ⟨field, anyWord, hp, hlimit⟩) hfits
  · intro hany
    rw [hany]
    rfl

end Filter

namespace Watch

variable {w : Watch} {f : Filter}

theorem fields_text (h : w.filter = f.text) :
    w.fields = [f.vendor.text.toList, f.product.text.toList, f.classCode.text.toList] := by
  apply parts_iff.mp
  refine ⟨?_, ?_, by simp⟩
  · have htext : f.text =
        f.vendor.text ++ ":" ++ f.product.text ++ ":" ++ f.classCode.text := rfl
    simp [h, htext, String.toList_append]
  · simp [Pattern.colon_notMem_text]

theorem readField_text (label : Label) (p : Pattern) : readField label p.text.toList = .ok p := by
  have hnone : Text.Void "" := by simp [Text.Void]
  have hparse := Pattern.parse_text hnone hnone p
  rw [String.empty_append, String.append_empty] at hparse
  rw [readField, String.ofList_toList, hparse]
  rfl

theorem mask_eq (h : ∀ c, c ∈ w.changes ↔ f.changes.has c = true) : w.mask = f.changes := by
  -- Masks are told by their changes; a change that a watch names twice counts once.
  have hhas (c : Change) : w.mask.has c = f.changes.has c := by
    rw [Bool.eq_iff_iff, mask, has_ofList, h]
  have harrived := hhas .arrived
  have hleft := hhas .left
  cases hm : w.mask
  cases hf : f.changes
  simp_all [ChangeMask.has]

/-- A valid filter that was written as the filter text of a watch **reads back**. -/
theorem toFilter_text (hvalid : f.validate = .ok ()) (htext : w.filter = f.text)
    (hchanges : ∀ c, c ∈ w.changes ↔ f.changes.has c = true)
    (henumerate : w.enumerate = f.enumerate) : w.toFilter = .ok f := by
  have hread : readFields w.fields = .ok (f.vendor, f.product, f.classCode) := by
    rw [fields_text htext]
    simp only [readFields, readField_text]
    rfl
  have hfilter : ({ f with changes := w.mask, enumerate := w.enumerate } : Filter) = f := by
    rw [mask_eq hchanges, henumerate]
  rw [toFilter, hread]
  simp only [bind, Except.bind]
  rw [hfilter, hvalid]
  rfl

/-- Patterns are told by their texts and read back from them, with any blanks around them. They come
    back from their raw words as well, but for one exact value, which no valid filter has; so in a
    valid filter the word of the wildcard is the wildcard. Valid filters come back from the watches
    that have their texts and ask for the same. -/
theorem encodings_roundtrip :
    (∀ (p : Pattern) (before after : String), Text.Void before → Text.Void after →
      Pattern.parse (before ++ p.text ++ after) = .ok p) ∧
    (∀ p q : Pattern, p.text = q.text ↔ p = q) ∧
    (∀ word, (Pattern.ofRaw word).raw = word) ∧
    (∀ p : Pattern, Pattern.ofRaw p.raw = p ↔ p ≠ .exactly 0xFFFFFFFF) ∧
    (∀ f : Filter, f.validate = .ok () → ∀ field,
      (f.pattern field).raw = Pattern.anyWord ↔ f.pattern field = .any) ∧
    ∀ (f : Filter) (w : Watch), f.validate = .ok () → w.filter = f.text →
      (∀ c, c ∈ w.changes ↔ f.changes.has c = true) → w.enumerate = f.enumerate →
        w.toFilter = .ok f := by
  refine ⟨?_, fun p q => Pattern.text_injective.eq_iff, Pattern.raw_ofRaw,
    fun p => Pattern.ofRaw_raw_iff, fun f hvalid field => Filter.raw_eq_anyWord_iff hvalid, ?_⟩
  · exact fun p before after hbefore hafter => Pattern.parse_text hbefore hafter p
  · exact fun f w => toFilter_text

/-- A filter with the greatest class, and a watch that names its one change twice. -/
theorem encodings_roundtrip_departures :
    let f : Filter :=
      { vendor := .exactly 0xFFFF, classCode := .exactly 0xFF, changes := .only .left }
    let w : Watch := { name := "w", filter := "0xffff:*:0x00ff", changes := [.left, .left] }
    (Pattern.parse ("\t" ++ (Pattern.exactly 0xFFFFFFFF).text ++ "\u3000") =
        .ok (.exactly 0xFFFFFFFF)) ∧
      f.validate = .ok () ∧ w.filter = f.text ∧ w.toFilter = .ok f ∧
        ((f.pattern .product).raw = Pattern.anyWord ↔ f.pattern .product = .any) := by
  intro f w
  have htab : Text.Void "\t" := by simp [Text.Void, Text.whiteSpace]
  have hspace : Text.Void "\u3000" := by simp [Text.Void, Text.whiteSpace]
  have hvalid : f.validate = .ok () := by decide
  have htext : w.filter = f.text := by decide +kernel
  obtain ⟨hparse, -, -, -, hraw, hfilter⟩ := encodings_roundtrip
  refine ⟨hparse _ _ _ htab hspace, hvalid, htext, ?_, hraw f hvalid .product⟩
  exact hfilter f w hvalid htext (fun c => by cases c <;> decide) rfl

end Watch

end PlugWatch
