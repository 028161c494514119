import Mathlib.Data.List.Basic
import Mathlib.Tactic.SplitIfs
import PlugWatch.Toml.Quoted

/-! # Quoted texts read back

  Whatever the style in which a text is written, reading gives the text and stops right behind the
  closing quotes. A **spelling** is how one character may stand between double quotes; `escaped`
  always picks one, and the readers of both basic styles undo each. Between three quotes, the quotes
  that have been written but not yet read go along in the induction: there are never more than two
  of them, because of the escapes in the one style and because of the choice of the other.
-/

namespace PlugWatch.Toml

variable {c : Char} {cs rest : List Char}

/-- No quote follows that would count as part of what stands before. -/
def Unquoted (rest : List Char) : Prop :=
  rest.head? ≠ some '"' ∧ rest.head? ≠ some '\''

/-! ## Single characters -/

/-- The ways to write a character between double quotes. -/
inductive Spelling (c : Char) : List Char → Prop
  | plain : isTextChar c = true → c ≠ '"' → c ≠ '\\' → Spelling c [c]
  | short {x : Char} : unescape x = some c → Spelling c ['\\', x]
  | numeric {w x y z : Char} : scalar [w, x, y, z] = some c → Spelling c ['\\', 'u', w, x, y, z]

theorem numericEscape_low : ∀ n < 0x80, ∃ w x y z,
    (Numeral.padded 16 4 n).map Char.toUpper = [w, x, y, z] ∧
      scalar [w, x, y, z] = some (Char.ofNat n) := by
  have hdigits : ∀ n < 0x80, ((Numeral.padded 16 4 n).map Char.toUpper).length = 4 ∧
      scalar ((Numeral.padded 16 4 n).map Char.toUpper) = some (Char.ofNat n) := by
    decide +kernel
  intro n hn
  obtain ⟨hlength, hscalar⟩ := hdigits n hn
  obtain ⟨w, ds, hds⟩ := List.exists_of_length_succ _ hlength
  obtain ⟨x, y, z, rfl⟩ := List.length_eq_three.mp (by simpa [hds] using hlength)
  exact ⟨w, x, y, z, hds, hds ▸ hscalar⟩

theorem Spelling.numericEscape (h : needsEscape c = true) : Spelling c (numericEscape c) := by
  have hlow : c.toNat < 0x80 := by
    simp only [needsEscape, Bool.and_eq_true, Bool.or_eq_true, decide_eq_true_eq,
      beq_iff_eq] at h
    omega
  obtain ⟨w, x, y, z, hds, hscalar⟩ := numericEscape_low c.toNat hlow
  rw [Char.ofNat_toNat] at hscalar
  rw [Toml.numericEscape, hds]
  exact numeric hscalar

/-- Without need for an escape a character is a text character, a line feed apart. -/
theorem isTextChar_of_not_needsEscape (h : needsEscape c = false) (hline : c ≠ '\n') :
    isTextChar c = true := by
  simp only [needsEscape, isTextChar] at h ⊢
  grind

theorem escaped_spelling (c : Char) : Spelling c (escaped c) := by
  unfold escaped
  split_ifs with hb ht hn hf hr hq hs he
  · exact .short (by rw [hb]; rfl)
  · exact .short (by rw [ht]; rfl)
  · exact .short (by rw [hn]; rfl)
  · exact .short (by rw [hf]; rfl)
  · exact .short (by rw [hr]; rfl)
  · exact .short (by rw [hq]; rfl)
  · exact .short (by rw [hs]; rfl)
  · exact .numericEscape he
  · exact .plain (isTextChar_of_not_needsEscape (by simpa using he) hn) hq hs

/-! ## Between double quotes -/

theorem readBasic_plain (htext : isTextChar c = true) (hquote : c ≠ '"') (hback : c ≠ '\\') :
    readBasic (c :: cs) = consRead c (readBasic cs) := by
  rw [readBasic.eq_def]
  split <;> simp_all

theorem readBasic_short {x : Char} (h : unescape x = some c) :
    readBasic ('\\' :: x :: cs) = consRead c (readBasic cs) := by
  have hu : x ≠ 'u' := by rintro rfl; simp [unescape] at h
  have hU : x ≠ 'U' := by rintro rfl; simp [unescape] at h
  simp [readBasic, hu, hU, h]

theorem readBasic_spelling {w : List Char} (h : Spelling c w) :
    readBasic (w ++ cs) = consRead c (readBasic cs) := by
  cases h with
  | plain htext hquote hback => exact readBasic_plain htext hquote hback
  | short h => exact readBasic_short h
  | numeric h => simp [readBasic, h]

/-- **Basic** strings read back. -/
theorem readBasic_escaped : readBasic (cs.flatMap escaped ++ '"' :: rest) = some (cs, rest) := by
  induction cs with
  | nil => rfl
  | cons c cs ih =>
    rw [List.flatMap_cons, List.append_assoc, readBasic_spelling (escaped_spelling c), ih]
    rfl

/-! ## Between three double quotes -/

/-- For a reader to which a quote is text unless two more follow, up to two quotes in front of
    something else are text. -/
theorem read_quotes {x : Char} {read : List Char → Option (List Char × List Char)}
    (hread : ∀ cs, (∀ cs', cs ≠ x :: x :: cs') → read (x :: cs) = consRead x (read cs))
    {q : Nat} (hq : q ≤ 2) (hhead : cs.head? ≠ some x) :
    read (List.replicate q x ++ cs) =
      (read cs).map fun (text, rest) => (List.replicate q x ++ text, rest) := by
  induction q with
  | zero => simp
  | succ q ih =>
    have hlone : ∀ cs', List.replicate q x ++ cs ≠ x :: x :: cs' := by
      intro cs' h
      obtain rfl | rfl : q = 0 ∨ q = 1 := by omega
      · exact hhead (by simp_all)
      · exact hhead (by simp_all)
    rw [List.replicate_succ, List.cons_append, hread _ hlone, ih (by omega), consRead,
      Option.map_map]
    rfl

theorem readMultiBasic_plain (htext : isTextChar c = true) (hquote : c ≠ '"')
    (hback : c ≠ '\\') :
    readMultiBasic false (c :: cs) = consRead c (readMultiBasic false cs) := by
  have hline : c ≠ '\n' := by rintro rfl; simp [isTextChar] at htext
  have hreturn : c ≠ '\r' := by rintro rfl; simp [isTextChar] at htext
  rw [readMultiBasic.eq_def]
  split <;> simp_all

theorem readMultiBasic_short {x : Char} (h : unescape x = some c) :
    readMultiBasic false ('\\' :: x :: cs) = consRead c (readMultiBasic false cs) := by
  have hu : x ≠ 'u' := by rintro rfl; simp [unescape] at h
  have hU : x ≠ 'U' := by rintro rfl; simp [unescape] at h
  simp [readMultiBasic, hu, hU, h]

theorem readMultiBasic_spelling {w : List Char} (h : Spelling c w) :
    readMultiBasic false (w ++ cs) = consRead c (readMultiBasic false cs) := by
  cases h with
  | plain htext hquote hback => exact readMultiBasic_plain htext hquote hback
  | short h => exact readMultiBasic_short h
  | numeric h => simp [readMultiBasic, h]

/-- A quote is text unless two more follow. -/
theorem readMultiBasic_quote (h : ∀ cs', cs ≠ '"' :: '"' :: cs') :
    readMultiBasic false ('"' :: cs) = consRead '"' (readMultiBasic false cs) := by
  simp [readMultiBasic, isTextChar, h]

/-- Three quotes close the text; those just in front of them belong to it. -/
theorem readMultiBasic_close {q : Nat} (hq : q ≤ 2) (hrest : Unquoted rest) :
    readMultiBasic false (List.replicate q '"' ++ '"' :: '"' :: '"' :: rest) =
      some (List.replicate q '"', rest) := by
  have hhead : ∀ rest', rest ≠ '"' :: rest' := fun _ h => hrest.1 (by simp [h])
  obtain rfl | rfl | rfl : q = 0 ∨ q = 1 ∨ q = 2 := by omega
  all_goals simp [readMultiBasic, List.replicate, hhead]

/-- What is written for a character starts with a text character that is no quote. -/
theorem head?_escaped (c : Char) (cs : List Char) :
    ∃ x, (escaped c ++ cs).head? = some x ∧ isTextChar x = true ∧ x ≠ '"' := by
  have h := escaped_spelling c
  generalize escaped c = w at h
  cases h with
  | plain htext hquote _ => exact ⟨c, rfl, htext, hquote⟩
  | short _ => exact ⟨_, rfl, rfl, by decide⟩
  | numeric _ => exact ⟨_, rfl, rfl, by decide⟩

theorem head?_escaped_ne_quote (c : Char) (cs : List Char) :
    (escaped c ++ cs).head? ≠ some '"' := by
  obtain ⟨x, hhead, _, hx⟩ := head?_escaped c cs
  simpa [hhead] using hx

theorem readMultiBasic_write {q : Nat} (hq : q ≤ 2) (hrest : Unquoted rest) :
    readMultiBasic false
        (List.replicate q '"' ++ (writeMultiBasic q cs ++ '"' :: '"' :: '"' :: rest)) =
      some (List.replicate q '"' ++ cs, rest) := by
  induction cs generalizing q with
  | nil =>
    rw [List.append_nil]
    exact readMultiBasic_close hq hrest
  | cons c cs ih =>
    have hnone := ih (q := 0) (by omega)
    rw [List.replicate_zero, List.nil_append, List.nil_append] at hnone
    unfold writeMultiBasic
    split_ifs with hquote htwo hline
    · -- the third quote in a row is escaped
      rw [List.cons_append, List.cons_append,
        read_quotes (fun _ => readMultiBasic_quote) hq (by simp),
        readMultiBasic_short (c := c) (by rw [hquote]; rfl), hnone]
      rfl
    · have hmore := ih (q := q + 1) (by omega)
      rw [hquote]
      simpa [List.replicate_succ'] using hmore
    · rw [hline, List.cons_append, read_quotes (fun _ => readMultiBasic_quote) hq (by simp),
        readMultiBasic, hnone]
      rfl
    · rw [List.append_assoc,
        read_quotes (fun _ => readMultiBasic_quote) hq (head?_escaped_ne_quote c _),
        readMultiBasic_spelling (escaped_spelling c), hnone]
      rfl

/-! ## Between single quotes -/

/-- Every character can stand as it is: none needs an escape. -/
def Verbatim (cs : List Char) : Prop :=
  ∀ c ∈ cs, needsEscape c = false

theorem Verbatim.tail (h : Verbatim (c :: cs)) : Verbatim cs :=
  fun x hx => h x (List.mem_cons_of_mem _ hx)

/-- **Literal** strings read back. -/
theorem readLiteral_append (hverbatim : Verbatim cs) (hline : '\n' ∉ cs) (hquote : '\'' ∉ cs) :
    readLiteral (cs ++ '\'' :: rest) = some (cs, rest) := by
  induction cs with
  | nil => rfl
  | cons c cs ih =>
    simp only [List.mem_cons, not_or] at hline hquote
    have htext : isTextChar c = true :=
      isTextChar_of_not_needsEscape (hverbatim c (by simp)) (Ne.symm hline.1)
    rw [List.cons_append, readLiteral, if_pos htext, ih hverbatim.tail hline.2 hquote.2]
    · rfl
    · exact fun h => hquote.1 h.symm

/-! ## Between three single quotes -/

/-- A quote is text unless two more follow. -/
theorem readMultiLiteral_quote (h : ∀ cs', cs ≠ '\'' :: '\'' :: cs') :
    readMultiLiteral ('\'' :: cs) = consRead '\'' (readMultiLiteral cs) := by
  simp [readMultiLiteral, isTextChar, h]

theorem readMultiLiteral_verbatim (hverbatim : needsEscape c = false) (hquote : c ≠ '\'') :
    readMultiLiteral (c :: cs) = consRead c (readMultiLiteral cs) := by
  have hreturn : c ≠ '\r' := by rintro rfl; simp [needsEscape] at hverbatim
  by_cases hline : c = '\n'
  · rw [hline, readMultiLiteral]
  · have htext := isTextChar_of_not_needsEscape hverbatim hline
    simp [readMultiLiteral, htext, hquote, hreturn]

/-- Three quotes close the text; those just in front of them belong to it. -/
theorem readMultiLiteral_close {q : Nat} (hq : q ≤ 2) (hrest : Unquoted rest) :
    readMultiLiteral (List.replicate q '\'' ++ '\'' :: '\'' :: '\'' :: rest) =
      some (List.replicate q '\'', rest) := by
  have hhead : ∀ rest', rest ≠ '\'' :: rest' := fun _ h => hrest.2 (by simp [h])
  obtain rfl | rfl | rfl : q = 0 ∨ q = 1 ∨ q = 2 := by omega
  all_goals simp [readMultiLiteral, List.replicate, hhead]

/-- The quotes just before a text count for its longest run. -/
theorem le_longestRun (x : Char) (here : Nat) (cs : List Char) : here ≤ longestRun x here cs := by
  induction cs generalizing here with
  | nil => exact Nat.le_refl _
  | cons c cs ih =>
    unfold longestRun
    split_ifs
    · exact Nat.le_of_succ_le (ih (here + 1))
    · exact Nat.le_max_left ..

theorem longestRun_eq_zero {x : Char} (h : longestRun x 0 cs = 0) : x ∉ cs := by
  induction cs with
  | nil => simp
  | cons c cs ih =>
    unfold longestRun at h
    split_ifs at h with hc
    · have hone := le_longestRun x (0 + 1) cs
      omega
    · simp only [List.mem_cons, not_or]
      exact ⟨fun hx => hc hx.symm, ih (by omega)⟩

theorem readMultiLiteral_append {q : Nat} (hrun : longestRun '\'' q cs ≤ 2)
    (hverbatim : Verbatim cs) (hrest : Unquoted rest) :
    readMultiLiteral (List.replicate q '\'' ++ (cs ++ '\'' :: '\'' :: '\'' :: rest)) =
      some (List.replicate q '\'' ++ cs, rest) := by
  have hq : q ≤ 2 := Nat.le_trans (le_longestRun ..) hrun
  induction cs generalizing q with
  | nil =>
    rw [List.append_nil]
    exact readMultiLiteral_close hq hrest
  | cons c cs ih =>
    unfold longestRun at hrun
    split_ifs at hrun with hquote
    · have hmore := ih hrun hverbatim.tail (Nat.le_trans (le_longestRun ..) hrun)
      rw [hquote]
      simpa [List.replicate_succ'] using hmore
    · have hnone := ih (q := 0) (by omega) hverbatim.tail (by omega)
      rw [List.replicate_zero, List.nil_append, List.nil_append] at hnone
      rw [List.cons_append,
        read_quotes (fun _ => readMultiLiteral_quote) hq (by simpa using hquote),
        readMultiLiteral_verbatim (hverbatim c (by simp)) hquote, hnone]
      rfl

/-! ## In any style -/

theorem dropNewline_of_head {cs : List Char} (hline : cs.head? ≠ some '\n')
    (hreturn : cs.head? ≠ some '\r') : dropNewline cs = cs := by
  unfold dropNewline
  split <;> simp_all

/-- The line break behind three quotes is dropped, and nothing else is. -/
theorem dropNewline_leadingBreak {w : List Char} (hline : '\n' ∉ cs → w.head? ≠ some '\n')
    (hreturn : w.head? ≠ some '\r') : dropNewline (leadingBreak cs ++ w) = w := by
  unfold leadingBreak
  split_ifs with h
  · rfl
  · exact dropNewline_of_head (hline (by simpa using h)) hreturn

theorem head?_writeMultiBasic {x : Char}
    (hx : (writeMultiBasic 0 cs ++ '"' :: rest).head? = some x) :
    isTextChar x = true ∨ x = '\n' ∧ x ∈ cs := by
  cases cs with
  | nil =>
    obtain rfl : '"' = x := by simpa [writeMultiBasic] using hx
    exact .inl rfl
  | cons c cs =>
    unfold writeMultiBasic at hx
    split_ifs at hx with hquote hzero hline
    · exact absurd hzero (by decide)
    · obtain rfl : '"' = x := by simpa using hx
      exact .inl rfl
    · obtain rfl : '\n' = x := by simpa using hx
      exact .inr ⟨rfl, by simp [hline]⟩
    · obtain ⟨y, hhead, htext, _⟩ := head?_escaped c (writeMultiBasic 0 cs ++ '"' :: rest)
      obtain rfl : y = x := by simpa [hhead] using hx
      exact .inl htext

theorem readString?_double (h : ∀ cs', cs ≠ '"' :: '"' :: cs') :
    readString? ('"' :: cs) = readBasic cs := by
  unfold readString?
  split <;> simp_all [readOneLine?]

theorem readString?_single (h : ∀ cs', cs ≠ '\'' :: '\'' :: cs') :
    readString? ('\'' :: cs) = readLiteral cs := by
  unfold readString?
  split <;> simp_all [readOneLine?]

theorem readString?_basic (hrest : Unquoted rest) :
    readString? (Style.basic.write cs ++ rest) = some (cs, rest) := by
  have hopen : ∀ cs', cs.flatMap escaped ++ '"' :: rest ≠ '"' :: '"' :: cs' := by
    intro cs' h
    cases cs with
    | nil => exact hrest.1 (by simp_all)
    | cons c cs =>
      rw [List.flatMap_cons, List.append_assoc] at h
      exact head?_escaped_ne_quote c _ (by rw [h]; rfl)
  simp only [Style.write, List.append_assoc, List.cons_append, List.nil_append]
  rw [readString?_double hopen, readBasic_escaped]

theorem readString?_literal (hverbatim : Verbatim cs) (hline : '\n' ∉ cs) (hquote : '\'' ∉ cs)
    (hrest : Unquoted rest) : readString? (Style.literal.write cs ++ rest) = some (cs, rest) := by
  have hopen : ∀ cs', cs ++ '\'' :: rest ≠ '\'' :: '\'' :: cs' := by
    intro cs' h
    cases cs with
    | nil => exact hrest.2 (by simp_all)
    | cons c cs => exact hquote (by simp_all)
  simp only [Style.write, List.append_assoc, List.cons_append, List.nil_append]
  rw [readString?_single hopen, readLiteral_append hverbatim hline hquote]

theorem readString?_multiBasic (hrest : Unquoted rest) :
    readString? (Style.multiBasic.write cs ++ rest) = some (cs, rest) := by
  have hhead := @head?_writeMultiBasic cs ('"' :: '"' :: rest)
  have hdrop : dropNewline
      (leadingBreak cs ++ (writeMultiBasic 0 cs ++ '"' :: '"' :: '"' :: rest)) =
        writeMultiBasic 0 cs ++ '"' :: '"' :: '"' :: rest := by
    refine dropNewline_leadingBreak (fun hline h => ?_) (fun h => ?_)
    · exact (hhead h).elim (by decide) fun h => hline h.2
    · exact (hhead h).elim (by decide) fun h => absurd h.1 (by decide)
  have hread : readMultiBasic false (writeMultiBasic 0 cs ++ '"' :: '"' :: '"' :: rest) =
      some (cs, rest) := readMultiBasic_write (q := 0) (by omega) hrest
  simp only [Style.write, List.append_assoc, List.cons_append, List.nil_append]
  rw [readString?, hdrop, hread]

theorem readString?_multiLiteral (hrun : longestRun '\'' 0 cs ≤ 2) (hverbatim : Verbatim cs)
    (hrest : Unquoted rest) :
    readString? (Style.multiLiteral.write cs ++ rest) = some (cs, rest) := by
  have hhead : ∀ x, (cs ++ '\'' :: '\'' :: '\'' :: rest).head? = some x →
      x = '\'' ∨ x ∈ cs := by
    cases cs <;> simp_all
  have hdrop : dropNewline (leadingBreak cs ++ (cs ++ '\'' :: '\'' :: '\'' :: rest)) =
      cs ++ '\'' :: '\'' :: '\'' :: rest := by
    refine dropNewline_leadingBreak (fun hline h => ?_) (fun h => ?_)
    · exact (hhead _ h).elim (by decide) hline
    · exact (hhead _ h).elim (by decide) fun hmem => absurd (hverbatim _ hmem) (by decide)
  have hread : readMultiLiteral (cs ++ '\'' :: '\'' :: '\'' :: rest) = some (cs, rest) :=
    readMultiLiteral_append (q := 0) hrun hverbatim hrest
  simp only [Style.write, List.append_assoc, List.cons_append, List.nil_append]
  rw [readString?, hdrop, hread]

/-- A text reads back from the style that suits it. -/
theorem readString?_writeString (hrest : Unquoted rest) :
    readString? (writeString cs ++ rest) = some (cs, rest) := by
  have hverbatim : cs.any needsEscape = false → Verbatim cs := by
    intro h c hc
    simpa using List.any_eq_false.mp h c hc
  unfold writeString Style.of
  extract_lets escapes backslash lines singles doubles
  split_ifs with hbasic hliteral hmultiBasic hmultiLiteral
  · exact readString?_basic hrest
  · simp only [Bool.and_eq_true, Bool.not_eq_true', beq_iff_eq] at hliteral
    obtain ⟨⟨hescapes, hlines⟩, hsingles⟩ := hliteral
    exact readString?_literal (hverbatim hescapes) (by simpa [lines] using hlines)
      (longestRun_eq_zero hsingles) hrest
  · exact readString?_multiBasic hrest
  · simp only [Bool.and_eq_true, Bool.not_eq_true', decide_eq_true_eq] at hmultiLiteral
    exact readString?_multiLiteral hmultiLiteral.2 (hverbatim hmultiLiteral.1) hrest
  · exact readString?_multiBasic hrest
  · exact readString?_basic hrest

end PlugWatch.Toml
