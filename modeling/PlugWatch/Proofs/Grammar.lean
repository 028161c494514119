import Mathlib.Data.List.TakeWhile
import Mathlib.Data.Nat.Digits.Defs
import Mathlib.Data.String.Basic
import PlugWatch.Proofs.Admission
import PlugWatch.Watch

/-! # What filter texts mean

  A **pattern** is a star, or `0x` and up to eight characters that are hexadecimal digits, the first
  of which may be a plus sign instead; blanks around it do not count. A **filter text** is two or
  three patterns with colons between them.

  Whether a text is read is said here without the reader: by how the text is put together and what
  its digits count. What the reader does is to find the first of the **faults** of a watch, in a
  fixed order: the number of fields, then the patterns from left to right, then the sizes of their
  values from left to right, and at last the changes asked for. Hence a bad pattern of the class is
  told before a vendor that is too large.
-/

namespace PlugWatch

/-! ## Digits -/

namespace Numeral

variable {base n : Nat} {c : Char} {cs : List Char}

/-- The characters are digits of a base that stand for a number; the last one counts the ones. -/
def Spells (base : Nat) (cs : List Char) (n : Nat) : Prop :=
  ∃ ds : List Nat, cs.map (digitOf base) = ds.map some ∧ Nat.ofDigits base ds.reverse = n

theorem readFrom_eq_some_iff {acc : Nat} : readFrom base acc cs = some n ↔
    ∃ ds : List Nat, cs.map (digitOf base) = ds.map some ∧
      Nat.ofDigits base ds.reverse + base ^ ds.length * acc = n := by
  induction cs generalizing acc with
  | nil => simp [readFrom]
  | cons c cs ih =>
    cases hc : digitOf base c with
    | none =>
      simp only [readFrom, hc, List.map_cons, reduceCtorEq, false_iff]
      intro h
      obtain ⟨ds, hds, -⟩ := h
      cases ds <;> simp at hds
    | some d =>
      simp only [readFrom, hc, ih]
      constructor
      · intro h
        obtain ⟨ds, hds, rfl⟩ := h
        refine ⟨d :: ds, by simp [hc, hds], ?_⟩
        rw [Nat.ofDigits_reverse_cons, List.length_cons]
        ring
      · intro h
        obtain ⟨ds, hds, rfl⟩ := h
        obtain ⟨d', ds', rfl⟩ : ∃ d' ds', ds = d' :: ds' := by
          cases ds <;> simp at hds ⊢
        simp only [List.map_cons, hc, List.cons.injEq, Option.some.injEq] at hds
        obtain ⟨rfl, hds⟩ := hds
        refine ⟨ds', hds, ?_⟩
        rw [Nat.ofDigits_reverse_cons, List.length_cons]
        ring

theorem read_eq_some_iff : read base cs = some n ↔ cs ≠ [] ∧ Spells base cs n := by
  cases cs with
  | nil => simp [read]
  | cons c cs => simp [read, readFrom_eq_some_iff, Spells]

theorem lt_of_digitOf {d : Nat} (h : digitOf base c = some d) : d < base := by
  obtain ⟨-, hd⟩ := Option.filter_eq_some_iff.mp h
  simpa using hd

/-- Digits are ASCII, and none of them is a blank or a plus sign. -/
theorem toNat_of_digitOf {d : Nat} (h : digitOf base c = some d) :
    48 ≤ c.toNat ∧ c.toNat ≤ 122 := by
  obtain ⟨hvalue, -⟩ := Option.filter_eq_some_iff.mp h
  unfold digitValue at hvalue
  split_ifs at hvalue with hdecimal hlower hupper
  · have hrange : 48 ≤ c.toNat ∧ c.toNat ≤ 57 := hdecimal
    omega
  · have hrange : 97 ≤ c.toNat ∧ c.toNat ≤ 122 := hlower
    omega
  · have hrange : 65 ≤ c.toNat ∧ c.toNat ≤ 90 := hupper
    omega

theorem Spells.digit (h : Spells base cs n) (hc : c ∈ cs) : ∃ d, digitOf base c = some d := by
  obtain ⟨ds, hds, -⟩ := h
  have hmem : digitOf base c ∈ ds.map some := hds ▸ List.mem_map_of_mem hc
  obtain ⟨d, -, hd⟩ := List.mem_map.mp hmem
  exact ⟨d, hd.symm⟩

/-- With so many digits only numbers up to a bound can be written. -/
theorem Spells.lt (hbase : 1 < base) (h : Spells base cs n) : n < base ^ cs.length := by
  obtain ⟨ds, hds, rfl⟩ := h
  have hlength : ds.reverse.length = cs.length := by
    simpa using (congrArg List.length hds).symm
  rw [← hlength]
  apply Nat.ofDigits_lt_base_pow_length hbase
  intro d hd
  have hmem : some d ∈ cs.map (digitOf base) :=
    hds ▸ List.mem_map_of_mem (List.mem_reverse.mp hd)
  obtain ⟨c, -, hc⟩ := List.mem_map.mp hmem
  exact lt_of_digitOf hc

/-- Digits take one byte each. -/
theorem Spells.utf8Len (h : Spells base cs n) : String.utf8Len cs = cs.length := by
  have hall : ∀ c ∈ cs, c.utf8Size = 1 := by
    intro c hc
    obtain ⟨d, hd⟩ := h.digit hc
    have hle : c.toNat ≤ 127 := (toNat_of_digitOf hd).2.trans (by decide)
    exact Char.utf8Size_eq_one_iff.mpr hle
  clear h
  induction cs with
  | nil => rfl
  | cons c cs ih =>
    rw [String.utf8Len_cons, List.length_cons, hall c (.head _),
      ih fun x hx => hall x (List.mem_cons_of_mem _ hx)]

end Numeral

/-! ## Trimming -/

namespace Text

variable {before core after cs : List Char}

/-- All characters are blank. -/
def Blanks (cs : List Char) : Prop :=
  ∀ c ∈ cs, isBlank c = true

theorem Blanks.reverse (h : Blanks cs) : Blanks cs.reverse :=
  fun c hc => h c (List.mem_reverse.mp hc)

theorem dropWhile_eq_trimChars_append (cs : List Char) : cs.dropWhile isBlank =
    trimChars cs ++ ((cs.dropWhile isBlank).reverse.takeWhile isBlank).reverse := by
  rw [trimChars, ← List.reverse_append, List.takeWhile_append_dropWhile, List.reverse_reverse]

/-- Only blanks are trimmed off. -/
theorem exists_trimChars (cs : List Char) :
    ∃ before after, cs = before ++ trimChars cs ++ after ∧ Blanks before ∧ Blanks after := by
  refine ⟨cs.takeWhile isBlank, ((cs.dropWhile isBlank).reverse.takeWhile isBlank).reverse,
    ?_, ?_, ?_⟩
  · rw [List.append_assoc, ← dropWhile_eq_trimChars_append, List.takeWhile_append_dropWhile]
  · exact fun c hc => List.mem_takeWhile_imp hc
  · exact fun c hc => List.mem_takeWhile_imp (List.mem_reverse.mp hc)

theorem dropWhile_blanks (hbefore : Blanks before) (hne : core ≠ [])
    (hcore : ∀ c ∈ core.head?, isBlank c = false) (rest : List Char) :
    (before ++ (core ++ rest)).dropWhile isBlank = core ++ rest := by
  obtain ⟨c, cs, rfl⟩ := List.exists_cons_of_ne_nil hne
  rw [List.dropWhile_append_of_pos hbefore, List.cons_append,
    List.dropWhile_cons_of_neg (by simp [hcore c rfl])]

theorem trimChars_blanks (h : Blanks cs) : trimChars cs = [] := by
  rw [trimChars, List.dropWhile_eq_nil_iff.mpr h]
  rfl

/-- What has no blanks at its ends is left when the blanks around it are trimmed off. -/
theorem trimChars_around (hbefore : Blanks before) (hafter : Blanks after)
    (hfront : ∀ c ∈ core.head?, isBlank c = false)
    (hback : ∀ c ∈ core.getLast?, isBlank c = false) :
    trimChars (before ++ core ++ after) = core := by
  rcases eq_or_ne core [] with rfl | hne
  · apply trimChars_blanks
    intro c hc
    simp only [List.append_nil, List.mem_append] at hc
    exact hc.elim (hbefore c) (hafter c)
  · have hends := dropWhile_blanks hafter.reverse (List.reverse_ne_nil_iff.mpr hne)
      (by simpa using hback) []
    rw [trimChars, List.append_assoc, dropWhile_blanks hbefore hne hfront, List.reverse_append]
    simp only [List.append_nil] at hends
    rw [hends, List.reverse_reverse]

end Text

/-! ## Patterns -/

namespace Pattern

open Numeral Text

variable {cs core : List Char} {p : Pattern}

/-- How a pattern is written. -/
inductive Written : List Char → Pattern → Prop
  /-- A star for every value. -/
  | star : Written ['*'] any
  /-- `0x` or `0X`, then one to eight characters: hexadecimal digits, perhaps behind a plus sign. -/
  | value {mark : Char} {sign ds : List Char} {v : UInt32} : mark = 'x' ∨ mark = 'X' →
      sign = [] ∨ sign = ['+'] → ds ≠ [] → sign.length + ds.length ≤ 8 →
      Spells 16 ds v.toNat → Written ('0' :: mark :: (sign ++ ds)) (exactly v)

/-- A text denotes a pattern if it is the pattern as it is written, with blanks around it. -/
inductive Denotes : List Char → Pattern → Prop
  | around {before core after : List Char} {p : Pattern} : Blanks before → Blanks after →
      Written core p → Denotes (before ++ core ++ after) p

theorem readHex_eq_some_iff {n : Nat} : readHex cs = some n ↔
    ∃ sign ds, cs = sign ++ ds ∧ (sign = [] ∨ sign = ['+']) ∧ ds ≠ [] ∧ Spells 16 ds n := by
  unfold readHex
  split
  · next cs =>
    rw [read_eq_some_iff]
    constructor
    · intro h
      exact ⟨['+'], cs, rfl, .inr rfl, h⟩
    · intro h
      obtain ⟨sign, ds, hcs, rfl | rfl, hne, hds⟩ := h
      -- A plus sign is no digit, so it is the sign.
      · obtain rfl : '+' :: cs = ds := hcs
        obtain ⟨d, hd⟩ := hds.digit (.head _)
        exact absurd (toNat_of_digitOf hd).1 (by decide)
      · obtain rfl : cs = ds := by simpa using hcs
        exact ⟨hne, hds⟩
  · next hplus =>
    rw [read_eq_some_iff]
    constructor
    · intro h
      exact ⟨[], cs, rfl, .inl rfl, h⟩
    · intro h
      obtain ⟨sign, ds, rfl, rfl | rfl, hne, hds⟩ := h
      · exact ⟨hne, hds⟩
      · exact absurd rfl (hplus ds)

theorem utf8Len_sign {sign : List Char} (h : sign = [] ∨ sign = ['+']) :
    String.utf8Len sign = sign.length := by
  obtain rfl | rfl := h <;> decide

theorem afterMark_eq_some {digits : List Char} (h : afterMark cs = some digits) :
    ∃ m, (m = 'x' ∨ m = 'X') ∧ cs = '0' :: m :: digits := by
  unfold afterMark at h
  split at h <;> simp_all

/-- Reading a text without blanks around it. -/
theorem parseChars_eq_ok_iff : parseChars cs = .ok p ↔ Written cs p := by
  constructor
  · intro h
    unfold parseChars at h
    extract_lets text at h
    split_ifs at h with hstar
    · cases h
      exact hstar ▸ .star
    · cases hafter : afterMark cs with
      | none => simp [hafter] at h
      | some digits =>
        obtain ⟨mark, hmark, rfl⟩ := afterMark_eq_some hafter
        simp only [hafter] at h
        split_ifs at h with hsize
        cases hread : readHex digits with
        | none => simp [hread] at h
        | some n =>
          simp only [hread, Except.ok.injEq] at h
          obtain ⟨sign, ds, rfl, hsign, hne, hds⟩ := readHex_eq_some_iff.mp hread
          have hlength : sign.length + ds.length ≤ 8 := by
            rw [String.utf8ByteSize_ofList, String.utf8Len_append, hds.utf8Len] at hsize
            rw [utf8Len_sign hsign] at hsize
            omega
          have hlt : n < UInt32.size := by
            have hpow : 16 ^ ds.length ≤ 16 ^ 8 := Nat.pow_le_pow_right (by decide) (by omega)
            exact (hds.lt (by decide)).trans_le hpow
          rw [← UInt32.toNat_ofNat_of_lt hlt] at hds
          exact h ▸ .value hmark hsign hne hlength hds
  · intro h
    cases h with
    | star => rfl
    | @value mark sign ds v hmark hsign hne hlength hds =>
      have hafter : afterMark ('0' :: mark :: (sign ++ ds)) = some (sign ++ ds) := by
        obtain rfl | rfl := hmark <;> rfl
      have hsize : (String.ofList (sign ++ ds)).utf8ByteSize = sign.length + ds.length := by
        rw [String.utf8ByteSize_ofList, String.utf8Len_append, hds.utf8Len, utf8Len_sign hsign]
      have hpos : 0 < ds.length := List.length_pos_iff.mpr hne
      have hread : readHex (sign ++ ds) = some v.toNat :=
        readHex_eq_some_iff.mpr ⟨sign, ds, rfl, hsign, hne, hds⟩
      unfold parseChars
      rw [if_neg (by simp), hafter]
      simp only [hsize]
      rw [if_neg (by omega), hread]
      simp

/-- What is written has no blanks in it. -/
theorem Written.unblank (h : Written cs p) : ∀ c ∈ cs, isBlank c = false := by
  cases h with
  | star =>
    intro c hc
    obtain rfl : c = '*' := by simpa using hc
    decide
  | @value mark sign ds v hmark hsign hne hlength hds =>
    intro c hc
    simp only [List.mem_cons, List.mem_append] at hc
    obtain rfl | rfl | hc | hc := hc
    · decide
    · obtain rfl | rfl := hmark <;> decide
    · obtain rfl | rfl := hsign
      · simp at hc
      · obtain rfl : c = '+' := by simpa using hc
        decide
    · obtain ⟨d, hd⟩ := hds.digit hc
      have hrange := toNat_of_digitOf hd
      simp [isBlank]
      omega

/-- A text is read as the pattern that it denotes. -/
theorem parse_eq_ok_iff {s : String} : parse s = .ok p ↔ Denotes s.toList p := by
  unfold parse
  rw [parseChars_eq_ok_iff]
  constructor
  · intro h
    obtain ⟨before, after, hs, hbefore, hafter⟩ := exists_trimChars s.toList
    rw [hs]
    exact .around hbefore hafter h
  · intro h
    generalize s.toList = cs at h
    obtain ⟨hbefore, hafter, hcore⟩ := h
    rwa [trimChars_around hbefore hafter (fun c hc => hcore.unblank c (List.mem_of_mem_head? hc))
      (fun c hc => hcore.unblank c (List.mem_of_mem_getLast? hc))]

end Pattern

/-! ## Fields -/

/-- The value of a field of a descriptor. -/
def Descriptor.value (d : Descriptor) : Filter.Field → Nat
  | .vendor => d.vendor.toNat
  | .product => d.product.toNat
  | .classCode => d.classCode.toNat

namespace Watch

open Pattern

variable {w : Watch} {f : Filter} {label : Label} {cs : List Char} {parts : List (List Char)}

/-- The place of a field in a filter text. -/
def Label.place : Label → Nat
  | .vendor => 0
  | .product => 1
  | .classCode => 2

/-- The field of a descriptor that a field of a filter text is about. -/
def Label.field : Label → Filter.Field
  | .vendor => .vendor
  | .product => .product
  | .classCode => .classCode

/-- The greatest value that a field of a filter text may have. -/
def Label.greatest : Label → Nat
  | .vendor => 0xFFFF
  | .product => 0xFFFF
  | .classCode => 0xFF

/-- The parts of a text have nothing left of what parts them. -/
theorem notMem_of_mem_splitOn {sep : Char} {part : List Char} (h : part ∈ cs.splitOn sep) :
    sep ∉ part := by
  induction cs generalizing part with
  | nil =>
    obtain rfl : part = [] := by simpa using h
    simp
  | cons c cs ih =>
    rw [List.splitOn, List.splitOnP_cons_eq_if_modifyHead, ← List.splitOn] at h
    split at h
    · obtain rfl | h := List.mem_cons.mp h
      · simp
      · exact ih h
    · next hc =>
      obtain ⟨first, rest, hparts⟩ :=
        List.exists_cons_of_ne_nil (List.splitOnP_ne_nil (· == sep) cs)
      rw [List.splitOn] at ih h
      rw [hparts] at ih h
      obtain rfl | h := List.mem_cons.mp h
      · have hne : sep ≠ c := fun heq => hc (by simp [heq])
        simp [hne, ih (.head _)]
      · exact ih (List.mem_cons_of_mem _ h)

/-- The filter text is these parts with colons between them, and there are no other colons. -/
structure Parts (w : Watch) (parts : List (List Char)) : Prop where
  joined : [':'].intercalate parts = w.filter.toList
  plain : ∀ part ∈ parts, ':' ∉ part
  nonempty : parts ≠ []

/-- A text has parts in one way. -/
theorem parts_iff : w.Parts parts ↔ w.fields = parts := by
  unfold fields
  constructor
  · intro h
    rw [← h.joined, List.splitOn_intercalate ':' h.plain h.nonempty]
  · intro h
    subst h
    exact ⟨List.intercalate_splitOn ':', fun _ => notMem_of_mem_splitOn, List.splitOnP_ne_nil _ _⟩

/-- The text is a field of the filter text, which has two or three of them. -/
inductive HasField (w : Watch) (label : Label) (cs : List Char) : Prop
  | part {parts : List (List Char)} : w.Parts parts → parts.length = 2 ∨ parts.length = 3 →
      parts[label.place]? = some cs → w.HasField label cs

theorem hasField_iff : w.HasField label cs ↔
    (w.fields.length = 2 ∨ w.fields.length = 3) ∧ w.fields[label.place]? = some cs := by
  constructor
  · intro h
    obtain ⟨hparts, hcount, hcs⟩ := h
    rw [parts_iff.mp hparts]
    exact ⟨hcount, hcs⟩
  · intro h
    exact .part (parts_iff.mpr rfl) h.1 h.2

/-- A watch that has a filter: two or three fields, each of which is a pattern of the right size,
    and some change. -/
structure Proper (w : Watch) : Prop where
  count : ∃ parts, w.Parts parts ∧ (parts.length = 2 ∨ parts.length = 3)
  reads : ∀ label cs, w.HasField label cs → Denotes cs .any ∨
    ∃ v, Denotes cs (.exactly v) ∧ v.toNat ≤ label.greatest
  asks : w.changes ≠ []

/-- The filter says what the watch says. -/
structure Means (w : Watch) (f : Filter) : Prop where
  /-- A device is accepted if each field that is there is the wildcard or has the device's value. -/
  accepts : ∀ d, f.accepts d = true ↔ ∀ label cs, w.HasField label cs → Denotes cs .any ∨
    ∃ v, Denotes cs (.exactly v) ∧ v.toNat = d.value label.field
  /-- A change is asked for if it occurs among those of the watch. -/
  changes : ∀ c, f.changes.has c = true ↔ c ∈ w.changes
  enumerate : f.enumerate = w.enumerate

/-! ## Faults -/

/-- What is wrong with a watch, and the rank of the check that finds it. -/
inductive Fault (w : Watch) : Nat → FilterError → Prop
  /-- First the fields are counted. -/
  | fieldCount {parts : List (List Char)} : w.Parts parts → parts.length ≠ 2 → parts.length ≠ 3 →
      w.Fault 0 .fieldCount
  /-- Then the fields are read from left to right. -/
  | field {label : Label} {cs : List Char} {why : ParseError} : w.HasField label cs →
      parse (String.ofList cs) = .error why → w.Fault (1 + label.place) (.field label why)
  /-- Then their values are compared with their limits, again from left to right. -/
  | outOfRange {label : Label} {cs : List Char} {v : UInt32} : w.HasField label cs →
      Denotes cs (.exactly v) → label.greatest < v.toNat →
      w.Fault (4 + label.place) (.invalid (.outOfRange label.field v))
  /-- The changes come last. -/
  | noChange : w.changes = [] → w.Fault 7 (.invalid .noChange)

/-- The fault that is found first. -/
inductive FirstFault (w : Watch) (why : FilterError) : Prop
  | mk {k : Nat} : w.Fault k why → (∀ k' other, w.Fault k' other → k ≤ k') → w.FirstFault why

/-- The checks before the one of rank `k` find nothing. -/
def Passes (w : Watch) (k : Nat) : Prop :=
  ∀ k' why, w.Fault k' why → k ≤ k'

section Checks

variable {k k' : Nat} {why other : FilterError}

theorem Label.place_lt (label : Label) : label.place < 3 := by
  cases label <;> decide

theorem Label.place_injective {a b : Label} (h : a.place = b.place) : a = b := by
  cases a <;> cases b <;> first | rfl | cases h

theorem HasField.unique {cs' : List Char} (h : w.HasField label cs) (h' : w.HasField label cs') :
    cs = cs' := by
  have hcs := (hasField_iff.mp h).2
  rw [(hasField_iff.mp h').2] at hcs
  exact (Option.some.inj hcs).symm

theorem denotes_iff {p : Pattern} : Denotes cs p ↔ parse (String.ofList cs) = .ok p := by
  rw [parse_eq_ok_iff, String.toList_ofList]

/-- A check finds one fault only. -/
theorem Fault.unique (ha : w.Fault k why) (hb : w.Fault k' other) (h : k = k') : why = other := by
  cases ha with
  | fieldCount =>
    cases hb with
    | fieldCount => rfl
    | field | outOfRange | noChange => omega
  | @field label cs why hfield hparse =>
    have hplace := label.place_lt
    cases hb with
    | @field label' cs' why' hfield' hparse' =>
      obtain rfl := Label.place_injective (Nat.add_left_cancel h)
      obtain rfl := hfield.unique hfield'
      rw [hparse] at hparse'
      cases hparse'
      rfl
    | fieldCount | outOfRange | noChange => omega
  | @outOfRange label cs v hfield hdenotes =>
    have hplace := label.place_lt
    cases hb with
    | @outOfRange label' cs' v' hfield' hdenotes' =>
      obtain rfl := Label.place_injective (Nat.add_left_cancel h)
      obtain rfl := hfield.unique hfield'
      rw [denotes_iff] at hdenotes hdenotes'
      rw [hdenotes] at hdenotes'
      cases hdenotes'
      rfl
    | @field label' =>
      have := label'.place_lt
      omega
    | fieldCount | noChange => omega
  | noChange =>
    cases hb with
    | noChange => rfl
    | @field label' | @outOfRange label' =>
      have := label'.place_lt
      omega
    | fieldCount => omega

theorem FirstFault.unique (ha : w.FirstFault why) (hb : w.FirstFault other) : why = other := by
  obtain ⟨hfault, hfirst⟩ := ha
  obtain ⟨hfault', hfirst'⟩ := hb
  exact hfault.unique hfault' (Nat.le_antisymm (hfirst _ _ hfault') (hfirst' _ _ hfault))

/-- One more check is passed. -/
theorem Passes.next (h : w.Passes k) (hk : ∀ why, ¬ w.Fault k why) : w.Passes (k + 1) := by
  intro k' why hf
  have hne : k' ≠ k := by
    intro heq
    exact hk why (heq ▸ hf)
  have hle := h k' why hf
  omega

/-- The number of fields is right. -/
theorem passes_count (h : w.fields.length = 2 ∨ w.fields.length = 3) : w.Passes 1 := by
  intro k why hf
  cases hf with
  | fieldCount hparts htwo hthree =>
    rw [parts_iff.mp hparts] at h
    omega
  | field | outOfRange | noChange => omega

/-- One more field is a pattern. -/
theorem Passes.field (h : w.Passes (1 + label.place))
    (hread : ∀ cs, w.HasField label cs → ∃ p, parse (String.ofList cs) = .ok p) :
    w.Passes (2 + label.place) := by
  rw [show 2 + label.place = 1 + label.place + 1 by omega]
  apply h.next
  intro why hf
  generalize hk : 1 + label.place = k at hf
  have hplace := label.place_lt
  cases hf with
  | @field other cs why hfield hparse =>
    obtain rfl := Label.place_injective (Nat.add_left_cancel hk)
    obtain ⟨p, hp⟩ := hread cs hfield
    rw [hp] at hparse
    cases hparse
  | fieldCount | outOfRange | noChange => omega

/-- One more value is in range. -/
theorem Passes.range (h : w.Passes (4 + label.place))
    (hfits : ∀ cs v, w.HasField label cs → Denotes cs (.exactly v) → v.toNat ≤ label.greatest) :
    w.Passes (5 + label.place) := by
  rw [show 5 + label.place = 4 + label.place + 1 by omega]
  apply h.next
  intro why hf
  generalize hk : 4 + label.place = k at hf
  have hplace := label.place_lt
  cases hf with
  | @outOfRange other cs v hfield hdenotes hlt =>
    obtain rfl := Label.place_injective (Nat.add_left_cancel hk)
    exact absurd (hfits cs v hfield hdenotes) (Nat.not_le.mpr hlt)
  | @field other =>
    have := other.place_lt
    omega
  | fieldCount | noChange => omega

/-- There is a change asked for. -/
theorem Passes.changes (h : w.Passes 7) (hne : w.changes ≠ []) : w.Passes 8 := by
  apply h.next
  intro why hf
  generalize hk : 7 = k at hf
  cases hf with
  | noChange hnone => exact hne hnone
  | @field label | @outOfRange label =>
    have := label.place_lt
    omega
  | fieldCount => omega

end Checks

/-! ## Reading -/

/-- The filter has the patterns of the fields, and the wildcard for a class that is not there. -/
structure Reads (w : Watch) (f : Filter) : Prop where
  count : w.fields.length = 2 ∨ w.fields.length = 3
  present : ∀ label cs, w.HasField label cs → parse (String.ofList cs) = .ok (f.pattern label.field)
  absent : ∀ label, (∀ cs, ¬ w.HasField label cs) → f.pattern label.field = .any

theorem hasField_of_fields (h : w.fields = parts) (hcount : parts.length = 2 ∨ parts.length = 3) :
    w.HasField label cs ↔ parts[label.place]? = some cs := by
  rw [hasField_iff, h]
  exact and_iff_right hcount

/-- Reading a field is the check of its rank. -/
theorem readField_checks (label : Label) (hpasses : w.Passes (1 + label.place))
    (hfield : w.HasField label cs) :
    match readField label cs with
    | .ok p => parse (String.ofList cs) = .ok p ∧ w.Passes (2 + label.place)
    | .error why => w.FirstFault why := by
  unfold readField
  cases hparse : parse (String.ofList cs) with
  | error e => exact ⟨.field hfield hparse, hpasses⟩
  | ok p =>
    refine ⟨rfl, hpasses.field ?_⟩
    intro cs' hfield'
    exact ⟨p, hfield.unique hfield' ▸ hparse⟩

/-- A class that is not there passes its check. -/
theorem passes_absent (label : Label) (hpasses : w.Passes (1 + label.place))
    (h : ∀ cs, ¬ w.HasField label cs) :
    w.Passes (2 + label.place) :=
  hpasses.field fun cs hfield => absurd hfield (h cs)

section Fields

variable {v p c : List Char} {vendor product classCode : Pattern} {changes : ChangeMask}
  {enumerate : Bool}

theorem reads_pair (hfields : w.fields = [v, p]) (hv : parse (String.ofList v) = .ok vendor)
    (hp : parse (String.ofList p) = .ok product) :
    w.Reads { vendor, product, classCode := .any, changes, enumerate } where
  count := by simp [hfields]
  present := by
    intro label cs hfield
    rw [hasField_of_fields hfields (.inl rfl)] at hfield
    cases label <;> cases hfield
    · exact hv
    · exact hp
  absent := by
    intro label habsent
    simp only [hasField_of_fields hfields (.inl rfl)] at habsent
    cases label with
    | vendor => exact absurd rfl (habsent v)
    | product => exact absurd rfl (habsent p)
    | classCode => rfl

theorem reads_triple (hfields : w.fields = [v, p, c]) (hv : parse (String.ofList v) = .ok vendor)
    (hp : parse (String.ofList p) = .ok product) (hc : parse (String.ofList c) = .ok classCode) :
    w.Reads { vendor, product, classCode, changes, enumerate } where
  count := by simp [hfields]
  present := by
    intro label cs hfield
    rw [hasField_of_fields hfields (.inr rfl)] at hfield
    cases label <;> cases hfield
    · exact hv
    · exact hp
    · exact hc
  absent := by
    intro label habsent
    simp only [hasField_of_fields hfields (.inr rfl)] at habsent
    cases label with
    | vendor => exact absurd rfl (habsent v)
    | product => exact absurd rfl (habsent p)
    | classCode => exact absurd rfl (habsent c)

/-- Reading the fields is the first four checks. -/
theorem readFields_checks (w : Watch) :
    match readFields w.fields with
    | .ok (vendor, product, classCode) => w.Passes 4 ∧ ∀ changes enumerate,
        w.Reads { vendor, product, classCode, changes, enumerate }
    | .error why => w.FirstFault why := by
  generalize hfields : w.fields = parts
  have hpart {label : Label} {cs : List Char} (hcount : parts.length = 2 ∨ parts.length = 3)
      (hcs : parts[label.place]? = some cs) : w.HasField label cs :=
    (hasField_of_fields hfields hcount).mpr hcs
  match parts with
  | [v, p] =>
    have hlength : w.fields.length = 2 ∨ w.fields.length = 3 := by simp [hfields]
    have hvendor := readField_checks .vendor (passes_count hlength)
      (hpart (.inl rfl) rfl)
    cases hv : readField .vendor v with
    | error why => simpa [readFields, hv, bind, Except.bind] using hvendor
    | ok vendor =>
      rw [hv] at hvendor
      have hproduct := readField_checks .product hvendor.2 (hpart (.inl rfl) rfl)
      cases hp : readField .product p with
      | error why => simpa [readFields, hv, hp, bind, Except.bind] using hproduct
      | ok product =>
        rw [hp] at hproduct
        have hclass : w.Passes 4 := passes_absent .classCode hproduct.2 fun cs hc => by
          rw [hasField_of_fields hfields (.inl rfl)] at hc
          cases hc
        simp only [readFields, hv, hp, bind, Except.bind, pure, Except.pure]
        exact ⟨hclass, fun _ _ => reads_pair hfields hvendor.1 hproduct.1⟩
  | [v, p, c] =>
    have hlength : w.fields.length = 2 ∨ w.fields.length = 3 := by simp [hfields]
    have hvendor := readField_checks .vendor (passes_count hlength)
      (hpart (.inr rfl) rfl)
    cases hv : readField .vendor v with
    | error why => simpa [readFields, hv, bind, Except.bind] using hvendor
    | ok vendor =>
      rw [hv] at hvendor
      have hproduct := readField_checks .product hvendor.2 (hpart (.inr rfl) rfl)
      cases hp : readField .product p with
      | error why => simpa [readFields, hv, hp, bind, Except.bind] using hproduct
      | ok product =>
        rw [hp] at hproduct
        have hclass := readField_checks .classCode hproduct.2 (hpart (.inr rfl) rfl)
        cases hc : readField .classCode c with
        | error why => simpa [readFields, hv, hp, hc, bind, Except.bind] using hclass
        | ok classCode =>
          rw [hc] at hclass
          simp only [readFields, hv, hp, hc, bind, Except.bind, pure, Except.pure]
          exact ⟨hclass.2, fun _ _ => reads_triple hfields hvendor.1 hproduct.1 hclass.1⟩
  | [] | [_] | _ :: _ :: _ :: _ :: _ =>
    refine ⟨.fieldCount (parts_iff.mpr hfields) ?_ ?_, fun _ _ _ => Nat.zero_le _⟩ <;> simp

end Fields

/-! ## Validity -/

theorem Label.greatest_eq (label : Label) : label.greatest = label.field.limit.toNat := by
  cases label <;> rfl

/-- An exact value comes from a field of the text. -/
theorem Reads.denotes {v : UInt32} (h : w.Reads f) (hv : f.pattern label.field = .exactly v) :
    ∃ cs, w.HasField label cs ∧ Denotes cs (.exactly v) := by
  by_contra hnone
  have habsent : ∀ cs, ¬ w.HasField label cs := by
    intro cs hfield
    refine hnone ⟨cs, hfield, denotes_iff.mpr ?_⟩
    rw [h.present label cs hfield, hv]
  rw [h.absent label habsent] at hv
  cases hv

/-- Comparing a value with its limit is the check of its rank. -/
theorem checkField_checks (label : Label) (hr : w.Reads f) (hpasses : w.Passes (4 + label.place)) :
    match f.checkField label.field with
    | .ok _ => w.Passes (5 + label.place)
    | .error why => w.FirstFault (.invalid why) := by
  have hvalue {cs : List Char} {v : UInt32} (hfield : w.HasField label cs)
      (hd : Denotes cs (.exactly v)) : f.pattern label.field = .exactly v := by
    have hparse := hr.present label cs hfield
    rw [denotes_iff.mp hd] at hparse
    exact (Except.ok.inj hparse).symm
  cases hcheck : f.checkField label.field with
  | ok u =>
    apply hpasses.range
    intro cs v hfield hd
    rw [label.greatest_eq]
    exact Filter.checkField_eq_ok_iff.mp hcheck v (hvalue hfield hd)
  | error why =>
    unfold Filter.checkField at hcheck
    split at hcheck
    · cases hcheck
    · next v hv =>
      split_ifs at hcheck with hlt
      cases hcheck
      obtain ⟨cs, hfield, hd⟩ := hr.denotes hv
      refine ⟨.outOfRange hfield hd ?_, hpasses⟩
      rw [label.greatest_eq]
      exact UInt32.lt_iff_toNat_lt.mp hlt

theorem has_ofList (changes : List Change) (c : Change) :
    (ChangeMask.ofList changes).has c = true ↔ c ∈ changes := by
  have hfold : ∀ m : ChangeMask, (changes.foldl (fun m c => m ∪ .only c) m).has c = true ↔
      m.has c = true ∨ c ∈ changes := by
    induction changes with
    | nil => simp
    | cons x changes ih =>
      intro m
      have hstep : (m ∪ ChangeMask.only x).has c = true ↔ m.has c = true ∨ c = x := by
        cases c <;> cases x <;>
          simp [ChangeMask.has, ChangeMask.only, Union.union, ChangeMask.union]
      rw [List.foldl_cons, ih, hstep, List.mem_cons, or_assoc]
  rw [ChangeMask.ofList, hfold]
  cases c <;> simp [ChangeMask.none, ChangeMask.has]

theorem isEmpty_mask : w.mask.isEmpty = true ↔ w.changes = [] := by
  have hempty : w.mask.isEmpty = true ↔ ∀ c, w.mask.has c = false := by
    constructor
    · intro h c
      cases c <;> simp_all [ChangeMask.isEmpty, ChangeMask.has]
    · intro h
      have harrived := h .arrived
      have hleft := h .left
      simp_all [ChangeMask.isEmpty, ChangeMask.has]
  rw [hempty, List.eq_nil_iff_forall_not_mem]
  exact forall_congr' fun c => by rw [← has_ofList, Bool.not_eq_true, mask]

/-- Validating the filter is the last four checks. -/
theorem validate_checks (hr : w.Reads f) (hf : f.changes = w.mask) (hpasses : w.Passes 4) :
    match f.validate with
    | .ok _ => w.Passes 8
    | .error why => w.FirstFault (.invalid why) := by
  have hvendor := checkField_checks .vendor hr hpasses
  unfold Filter.validate
  cases hv : f.checkField .vendor with
  | error why => simpa [Label.field, hv, bind, Except.bind] using hvendor
  | ok u =>
    rw [show Label.vendor.field = .vendor from rfl, hv] at hvendor
    have hproduct := checkField_checks .product hr hvendor
    cases hp : f.checkField .product with
    | error why => simpa [Label.field, hv, hp, bind, Except.bind] using hproduct
    | ok u =>
      rw [show Label.product.field = .product from rfl, hp] at hproduct
      have hclass := checkField_checks .classCode hr hproduct
      cases hc : f.checkField .classCode with
      | error why => simpa [Label.field, hv, hp, hc, bind, Except.bind] using hclass
      | ok u =>
        rw [show Label.classCode.field = .classCode from rfl, hc] at hclass
        simp only [bind, Except.bind, hf]
        split_ifs with hempty
        · exact ⟨.noChange (isEmpty_mask.mp hempty), hclass⟩
        · exact hclass.changes (mt isEmpty_mask.mpr hempty)

/-- A filter is made if all checks are passed. Otherwise the first fault is told. -/
theorem toFilter_checks (w : Watch) :
    match w.toFilter with
    | .ok f => w.Passes 8 ∧ w.Reads f ∧ f.changes = w.mask ∧ f.enumerate = w.enumerate
    | .error why => w.FirstFault why := by
  have hread := readFields_checks w
  unfold toFilter
  cases hfields : readFields w.fields with
  | error why => simpa [hfields, bind, Except.bind] using hread
  | ok patterns =>
    obtain ⟨vendor, product, classCode⟩ := patterns
    rw [hfields] at hread
    obtain ⟨hpasses, hreads⟩ := hread
    let f : Filter := { vendor, product, classCode, changes := w.mask, enumerate := w.enumerate }
    have hr : w.Reads f := hreads _ _
    have hvalidate := validate_checks hr rfl hpasses
    simp only [bind, Except.bind]
    cases hv : f.validate with
    | error why =>
      rw [hv] at hvalidate
      simpa [f, hv, Except.mapError] using hvalidate
    | ok u =>
      rw [hv] at hvalidate
      exact ⟨hvalidate, hr, rfl, rfl⟩

/-! ## Meaning -/

/-- There are no other checks. -/
theorem Passes.no_fault (h : w.Passes 8) {k : Nat} {why : FilterError} : ¬ w.Fault k why := by
  intro hf
  have hle := h k why hf
  cases hf with
  | @field label | @outOfRange label =>
    have := label.place_lt
    omega
  | fieldCount | noChange => omega

/-- A watch is proper if nothing is wrong with it. -/
theorem Passes.proper (h : w.Passes 8) : w.Proper where
  count := by
    refine ⟨w.fields, parts_iff.mpr rfl, ?_⟩
    by_contra hcount
    obtain ⟨htwo, hthree⟩ := not_or.mp hcount
    exact h.no_fault (.fieldCount (parts_iff.mpr rfl) htwo hthree)
  reads := by
    intro label cs hfield
    cases hparse : parse (String.ofList cs) with
    | error why => exact absurd (.field hfield hparse) h.no_fault
    | ok p =>
      have hd : Denotes cs p := denotes_iff.mpr hparse
      cases p with
      | any => exact .inl hd
      | exactly v =>
        refine .inr ⟨v, hd, Nat.le_of_not_lt ?_⟩
        exact fun hlt => h.no_fault (.outOfRange hfield hd hlt)
  asks hnone := h.no_fault (.noChange hnone)

theorem Proper.no_fault (h : w.Proper) {k : Nat} {why : FilterError} : ¬ w.Fault k why := by
  intro hf
  cases hf with
  | fieldCount hparts htwo hthree =>
    obtain ⟨parts, hparts', hcount⟩ := h.count
    obtain rfl : _ = parts := (parts_iff.mp hparts).symm.trans (parts_iff.mp hparts')
    omega
  | field hfield hparse =>
    obtain hany | ⟨v, hv, -⟩ := h.reads _ _ hfield
    · simp [denotes_iff.mp hany] at hparse
    · simp [denotes_iff.mp hv] at hparse
  | outOfRange hfield hd hlt =>
    obtain hany | ⟨v, hv, hle⟩ := h.reads _ _ hfield
    · cases (denotes_iff.mp hany).symm.trans (denotes_iff.mp hd)
    · cases (denotes_iff.mp hv).symm.trans (denotes_iff.mp hd)
      omega
  | noChange hnone => exact h.asks hnone

/-- A device is accepted if every field is. -/
theorem accepts_iff (f : Filter) (d : Descriptor) : f.accepts d = true ↔
    ∀ label : Label, f.pattern label.field = .any ∨
      ∃ v, f.pattern label.field = .exactly v ∧ v.toNat = d.value label.field := by
  have hpattern (p : Pattern) (n : UInt32) : p.accepts n = true ↔
      p = .any ∨ ∃ v, p = .exactly v ∧ v.toNat = n.toNat := by
    cases p <;> simp [Pattern.accepts, UInt32.toNat_inj]
  simp only [Filter.accepts, Bool.and_eq_true, hpattern]
  constructor
  · intro h label
    obtain ⟨⟨hv, hp⟩, hc⟩ := h
    cases label with
    | vendor => simpa [Label.field, Filter.pattern, Descriptor.value] using hv
    | product => simpa [Label.field, Filter.pattern, Descriptor.value] using hp
    | classCode => simpa [Label.field, Filter.pattern, Descriptor.value] using hc
  · intro h
    have hv := h .vendor
    have hp := h .product
    have hc := h .classCode
    simp only [Label.field, Filter.pattern, Descriptor.value] at hv hp hc
    simp only [UInt16.toNat_toUInt32, UInt8.toNat_toUInt32]
    exact ⟨⟨hv, hp⟩, hc⟩

theorem Reads.means (h : w.Reads f) (hchanges : f.changes = w.mask)
    (henumerate : f.enumerate = w.enumerate) : w.Means f where
  accepts d := by
    rw [accepts_iff]
    refine forall_congr' fun label => ?_
    have hdenotes {cs : List Char} (hfield : w.HasField label cs) (p : Pattern) :
        Denotes cs p ↔ f.pattern label.field = p := by
      rw [denotes_iff, h.present label cs hfield, Except.ok.injEq]
    constructor
    · intro hp cs hfield
      simpa only [hdenotes hfield] using hp
    · intro hall
      by_cases hsome : ∃ cs, w.HasField label cs
      · obtain ⟨cs, hfield⟩ := hsome
        simpa only [hdenotes hfield] using hall cs hfield
      · exact .inl (h.absent label (not_exists.mp hsome))
  changes c := by
    rw [hchanges]
    exact has_ofList w.changes c
  enumerate := henumerate

/-- A watch has a filter exactly if it is proper, and then the filter says what the watch says.
    Otherwise what is told is the first fault. A field is a pattern if it is written like one. -/
theorem toFilter_settles (w : Watch) :
    ((∃ f, w.toFilter = .ok f) ↔ w.Proper) ∧
      (∀ f, w.toFilter = .ok f → w.Means f) ∧
      (∀ why, w.toFilter = .error why ↔ w.FirstFault why) ∧
      ∀ s p, parse s = .ok p ↔ Denotes s.toList p := by
  have hchecks := toFilter_checks w
  refine ⟨?_, ?_, ?_, fun s p => parse_eq_ok_iff⟩
  · cases hf : w.toFilter with
    | ok f =>
      rw [hf] at hchecks
      exact iff_of_true ⟨f, rfl⟩ hchecks.1.proper
    | error why =>
      rw [hf] at hchecks
      obtain ⟨hfault, -⟩ := hchecks
      exact iff_of_false (by simp) fun hproper => hproper.no_fault hfault
  · intro f hf
    rw [hf] at hchecks
    obtain ⟨-, hreads, hchanges, henumerate⟩ := hchecks
    exact hreads.means hchanges henumerate
  · intro why
    constructor
    · intro hf
      rwa [hf] at hchecks
    · intro hfirst
      cases hf : w.toFilter with
      | ok f =>
        rw [hf] at hchecks
        obtain ⟨hfault, -⟩ := hfirst
        exact absurd hfault hchecks.1.no_fault
      | error why' =>
        rw [hf] at hchecks
        rw [hchecks.unique hfirst]

/-- A bad pattern of the class is told before a vendor that is too large. -/
example : ({ name := "w", filter := "0x12345:*:3" } : Watch).toFilter =
    .error (.field .classCode (.unmarked "3")) := by
  decide +kernel

end Watch

end PlugWatch
