import PlugWatch.Proofs.Quoting
import PlugWatch.Toml.Writer

/-! # Values read back

  Texts, natural numbers, truth values, and arrays of these. Reading stops right behind the value if
  a line end, a comma or a bracket follows, which is what the writer puts there.

  A number needs most of the work, because what starts with a digit may be a date, a time, an
  integer in another base or a fraction. That it is none of these is seen at the first character
  that is no digit.
-/

namespace PlugWatch.Toml

variable {c : Char} {ds rest : List Char} {n : Nat}

/-- A value ends here: at the end of a line, at a comma or at a closing bracket. -/
def Ended (rest : List Char) : Prop :=
  ∃ c cs, rest = c :: cs ∧ (c = '\n' ∨ c = ',' ∨ c = ']')

theorem Ended.newline : Ended ('\n' :: rest) :=
  ⟨_, _, rfl, .inl rfl⟩

theorem Ended.comma : Ended (',' :: rest) :=
  ⟨_, _, rfl, .inr (.inl rfl)⟩

theorem Ended.bracket : Ended (']' :: rest) :=
  ⟨_, _, rfl, .inr (.inr rfl)⟩

theorem Ended.unquoted (h : Ended rest) : Unquoted rest := by
  obtain ⟨c, cs, rfl, rfl | rfl | rfl⟩ := h <;> simp [Unquoted]

/-! ## Digits -/

/-- The text is decimal digits. -/
def Digits (ds : List Char) : Prop :=
  ∀ c ∈ ds, c.isDigit = true

theorem Digits.tail (h : Digits (c :: ds)) : Digits ds :=
  fun x hx => h x (List.mem_cons_of_mem _ hx)

theorem digits_toDigits (n : Nat) : Digits (Nat.toDigits 10 n) :=
  fun _ => Nat.isDigit_of_mem_toDigits (by decide) (by decide)

theorem digitOf_ten (h : c.isDigit = true) : Numeral.digitOf 10 c = some (c.toNat - '0'.toNat) := by
  have hrange : '0' ≤ c ∧ c ≤ '9' := by
    simp only [Char.isDigit, Bool.and_eq_true, decide_eq_true_eq] at h
    exact h
  have hlast : c.toNat ≤ '9'.toNat := hrange.2
  have hlt : c.toNat - '0'.toNat < 10 := by
    change c.toNat ≤ 57 at hlast
    change c.toNat - 48 < 10
    omega
  rw [Numeral.digitOf, Numeral.digitValue, if_pos hrange, Option.filter_some, if_pos (by simpa)]

theorem readFrom_digits (h : Digits ds) (acc : Nat) :
    Numeral.readFrom 10 acc ds = some (Nat.ofDigitChars 10 ds acc) := by
  induction ds generalizing acc with
  | nil => rfl
  | cons c ds ih =>
    rw [Numeral.readFrom, digitOf_ten (h c (by simp)), Nat.ofDigitChars_cons, Nat.mul_comm 10 acc]
    exact ih h.tail _

theorem read_toDigits (n : Nat) : Numeral.read 10 (Nat.toDigits 10 n) = some n := by
  have hread := readFrom_digits (digits_toDigits n) 0
  rw [Nat.ofDigitChars_toDigits (by decide) (by decide)] at hread
  rw [← hread]
  cases hds : Nat.toDigits 10 n with
  | nil => exact absurd hds Nat.toDigits_ne_nil
  | cons c ds => rfl

/-- No zero stands in front. -/
theorem head?_toDigits (h : 0 < n) : (Nat.toDigits 10 n).head? ≠ some '0' := by
  have hsmall : ∀ n < 10, 0 < n → (Nat.toDigits 10 n).head? ≠ some '0' := by decide
  induction n using Nat.strongRecOn with
  | _ n ih =>
    rcases Nat.lt_or_ge n 10 with hlt | hge
    · exact hsmall n hlt h
    · rw [Nat.toDigits_of_base_le (by decide) hge,
        List.head?_append_of_ne_nil _ Nat.toDigits_ne_nil]
      exact ih (n / 10) (by omega) (by omega)

/-! ## Behind digits -/

theorem Ended.digitOf (h : Ended rest) :
    ∃ c cs, rest = c :: cs ∧ c ≠ '_' ∧ Numeral.digitOf 10 c = none := by
  obtain ⟨c, cs, rfl, rfl | rfl | rfl⟩ := h <;> exact ⟨_, cs, rfl, by decide, by decide⟩

theorem moreDigits_append (hds : Digits ds) (hrest : Ended rest) :
    moreDigits 10 (ds ++ rest) = some (ds, rest) := by
  induction ds with
  | nil =>
    obtain ⟨c, cs, rfl, hline, hnone⟩ := hrest.digitOf
    simp [moreDigits, Numeral.isDigitOf, hline, hnone]
  | cons c ds ih =>
    have hc : c.isDigit = true := hds c (by simp)
    have hline : c ≠ '_' := by rintro rfl; simp at hc
    simp [moreDigits, Numeral.isDigitOf, hline, digitOf_ten hc, ih hds.tail]

theorem plainDigits?_toDigits (hrest : Ended rest) :
    plainDigits? (Nat.toDigits 10 n ++ rest) = some (Nat.toDigits 10 n, rest) := by
  rcases Nat.eq_zero_or_pos n with rfl | hn
  · rfl
  · have hdigits := digits_toDigits n
    have hhead := head?_toDigits hn
    generalize hds : Nat.toDigits 10 n = ds at hdigits hhead
    cases ds with
    | nil => exact absurd hds Nat.toDigits_ne_nil
    | cons c ds =>
      have hzero : c ≠ '0' := by simpa using hhead
      have hc : c.isDigit = true := hdigits c (by simp)
      simp [plainDigits?, digits?, Numeral.isDigitOf, hzero, digitOf_ten hc,
        moreDigits_append hdigits.tail hrest]

/-- No other mark stands where digits end. -/
theorem expect_digits {x : Char} (hdigit : x.isDigit = false)
    (hend : x ≠ '\n' ∧ x ≠ ',' ∧ x ≠ ']') (hds : Digits ds) (hrest : Ended rest) :
    expect x (ds ++ rest) = none := by
  cases ds with
  | nil =>
    obtain ⟨c, cs, rfl, hc⟩ := hrest
    exact if_neg (by grind)
  | cons c ds =>
    have hc : c.isDigit = true := hds c (by simp)
    exact if_neg (by grind)

theorem readFrom_eq_none {base : Nat} {cs : List Char} (hmem : c ∈ cs)
    (hc : Numeral.digitOf base c = none) (acc : Nat) : Numeral.readFrom base acc cs = none := by
  induction cs generalizing acc with
  | nil => simp at hmem
  | cons x cs ih =>
    unfold Numeral.readFrom
    rcases List.mem_cons.mp hmem with rfl | hmem
    · rw [hc]
    · cases Numeral.digitOf base x with
      | none => rfl
      | some d => exact ih hmem _

theorem read_eq_none {base : Nat} {cs : List Char} (hmem : c ∈ cs)
    (hc : Numeral.digitOf base c = none) : Numeral.read base cs = none := by
  cases cs with
  | nil => rfl
  | cons x cs => exact readFrom_eq_none hmem hc 0

/-- Digits of a fixed number are taken from the digits alone. -/
theorem fixed?_digits {k m : Nat} {r : List Char} (hrest : Ended rest)
    (h : fixed? k (ds ++ rest) = some (m, r)) : r = ds.drop k ++ rest := by
  obtain ⟨c, cs, rfl, _, hnone⟩ := hrest.digitOf
  have hk : k ≤ ds.length := by
    by_contra hlt
    have hmem : c ∈ (ds ++ c :: cs).take k := by
      obtain ⟨j, hj⟩ : ∃ j, k - ds.length = j + 1 := ⟨k - ds.length - 1, by omega⟩
      rw [List.take_append, hj, List.take_succ_cons]
      simp
    simp [fixed?, read_eq_none hmem hnone] at h
  rw [← List.drop_append_of_le_length hk]
  simp only [fixed?, Option.bind_eq_bind, Option.bind_eq_some_iff] at h
  obtain ⟨_, _, h⟩ := h
  split_ifs at h
  cases h
  rfl

theorem expect_fixed? {x : Char} {k m : Nat} {r : List Char} (hdigit : x.isDigit = false)
    (hend : x ≠ '\n' ∧ x ≠ ',' ∧ x ≠ ']') (hds : Digits ds) (hrest : Ended rest)
    (h : fixed? k (ds ++ rest) = some (m, r)) : expect x r = none := by
  rw [fixed?_digits hrest h]
  exact expect_digits hdigit hend (fun c hc => hds c (List.mem_of_mem_drop hc)) hrest

theorem startsDate_digits (hds : Digits ds) (hrest : Ended rest) :
    startsDate (ds ++ rest) = false := by
  unfold startsDate
  cases h : fixed? 4 (ds ++ rest) with
  | none => rfl
  | some p =>
    have hmark := expect_fixed? (x := '-') (by decide) (by decide) hds hrest h
    simp [hmark]

theorem hours?_digits (hds : Digits ds) (hrest : Ended rest) : hours? (ds ++ rest) = none := by
  unfold hours?
  cases h : fixed? 2 (ds ++ rest) with
  | none => rfl
  | some p =>
    have hmark := expect_fixed? (x := ':') (by decide) (by decide) hds hrest h
    simp [hmark]

/-! ## Numbers -/

theorem sign_digits (hne : ds ≠ []) (hds : Digits ds) :
    sign (ds ++ rest) = (false, ds ++ rest) := by
  obtain ⟨c, ds, rfl⟩ := List.exists_cons_of_ne_nil hne
  have hc : c.isDigit = true := hds c (by simp)
  have hminus : c ≠ '-' := by rintro rfl; simp at hc
  have hplus : c ≠ '+' := by rintro rfl; simp at hc
  simp [sign, hminus, hplus]

theorem special?_digits (hne : ds ≠ []) (hds : Digits ds) : special? (ds ++ rest) = none := by
  unfold special?
  rw [sign_digits hne hds]
  obtain ⟨c, ds, rfl⟩ := List.exists_cons_of_ne_nil hne
  have hc : c.isDigit = true := hds c (by simp)
  split <;> simp_all

theorem fraction?_ended (h : Ended rest) : fraction? rest = some ([], rest) := by
  obtain ⟨c, cs, rfl, rfl | rfl | rfl⟩ := h <;> rfl

theorem exponent?_ended (h : Ended rest) : exponent? rest = some (0, rest) := by
  obtain ⟨c, cs, rfl, rfl | rfl | rfl⟩ := h <;> rfl

theorem decimal?_toDigits (hn : n < integerBound) (hrest : Ended rest) :
    decimal? (Nat.toDigits 10 n ++ rest) = some (.integer n, rest) := by
  have hsign : sign (Nat.toDigits 10 n ++ rest) = (false, Nat.toDigits 10 n ++ rest) :=
    sign_digits Nat.toDigits_ne_nil (digits_toDigits n)
  simp [decimal?, hsign, plainDigits?_toDigits hrest, fraction?_ended hrest, exponent?_ended hrest,
    read_toDigits, integer?, hn]

/-- A zero in front is the whole number. -/
theorem toDigits_zero {cs : List Char} (h : Nat.toDigits 10 n ++ rest = '0' :: cs) : rest = cs := by
  rcases Nat.eq_zero_or_pos n with rfl | hn
  · simpa using h
  · have hhead := head?_toDigits hn
    have hwhole : (Nat.toDigits 10 n ++ rest).head? = (Nat.toDigits 10 n).head? :=
      List.head?_append_of_ne_nil _ Nat.toDigits_ne_nil
    rw [← hwhole, h] at hhead
    exact absurd rfl hhead

theorem number?_toDigits (hn : n < integerBound) (hrest : Ended rest) :
    number? (Nat.toDigits 10 n ++ rest) = some (.integer n, rest) := by
  have hdigits := digits_toDigits n
  have hbase : ∀ x cs, Nat.toDigits 10 n ++ rest = '0' :: x :: cs → Ended (x :: cs) :=
    fun x cs h => toDigits_zero h ▸ hrest
  unfold number?
  rw [startsDate_digits hdigits hrest, hours?_digits hdigits hrest]
  simp only [Option.isSome_none, Bool.or_self, Bool.false_eq_true, if_false]
  split
  · next h => simpa [Ended] using hbase _ _ h
  · next h => simpa [Ended] using hbase _ _ h
  · next h => simpa [Ended] using hbase _ _ h
  · rw [special?_digits Nat.toDigits_ne_nil hdigits, decimal?_toDigits hn hrest]
    rfl

/-! ## Scalars -/

/-- Texts, natural numbers that fit, and truth values. -/
inductive Scalar : Value → Prop
  | string (text : String) : Scalar (.string text)
  | natural {n : Nat} : n < integerBound → Scalar (.integer n)
  | boolean (b : Bool) : Scalar (.boolean b)

theorem scalar?_string {cs text : List Char} (h : readString? cs = some (text, rest)) :
    scalar? cs = some (.string (String.ofList text), rest) := by
  unfold scalar?
  split
  · simp [readString?, readOneLine?] at h
  · simp [readString?, readOneLine?] at h
  · simp [h]

theorem scalar?_digits (hne : ds ≠ []) (hds : Digits ds) :
    scalar? (ds ++ rest) = number? (ds ++ rest) := by
  obtain ⟨c, ds, rfl⟩ := List.exists_cons_of_ne_nil hne
  have hc : c.isDigit = true := hds c (by simp)
  have hread : readString? (c :: ds ++ rest) = none := by
    unfold readString? readOneLine?
    split <;> simp_all
    split <;> simp_all
  unfold scalar?
  split
  · simp_all
  · simp_all
  · rw [hread]

theorem toList_toString_natCast (n : Nat) : (toString (n : Int)).toList = Nat.toDigits 10 n := by
  rw [Int.toString_eq_repr, Int.repr_eq_if, if_pos (Int.natCast_nonneg n), Int.toNat_natCast,
    Nat.toList_repr]

/-- **Scalars** read back. -/
theorem Scalar.read {v : Value} (h : Scalar v) (hrest : Ended rest) :
    scalar? (v.writeInline ++ rest) = some (v, rest) := by
  cases h with
  | string text =>
    rw [Value.writeInline, scalar?_string (readString?_writeString hrest.unquoted),
      String.ofList_toList]
  | natural hn =>
    rw [Value.writeInline, toList_toString_natCast,
      scalar?_digits Nat.toDigits_ne_nil (digits_toDigits _), number?_toDigits hn hrest]
  | boolean b => cases b <;> rfl

/-- What a scalar may start with. -/
def opensScalar (c : Char) : Bool :=
  c == '"' || c == '\'' || c == 't' || c == 'f' || c.isDigit

theorem isSpace_of_opensScalar {c : Char} (h : opensScalar c = true) : isSpace c = false := by
  have hspace : c ≠ ' ' := by rintro rfl; simp [opensScalar] at h
  have htab : c ≠ '\t' := by rintro rfl; simp [opensScalar] at h
  simp [isSpace, hspace, htab]

theorem Scalar.opens {v : Value} (h : Scalar v) :
    ∃ c cs, v.writeInline = c :: cs ∧ opensScalar c = true := by
  cases h with
  | string text =>
    rw [Value.writeInline, writeString]
    cases Style.of text.toList <;> exact ⟨_, _, rfl, rfl⟩
  | @natural n hn =>
    obtain ⟨c, cs, hds⟩ := List.exists_cons_of_ne_nil (Nat.toDigits_ne_nil (n := n) (b := 10))
    have hc : c.isDigit = true := digits_toDigits n c (by simp [hds])
    refine ⟨c, cs, ?_, by simp [opensScalar, hc]⟩
    rw [Value.writeInline, toList_toString_natCast, hds]
  | boolean b => cases b <;> exact ⟨_, _, rfl, rfl⟩

theorem Scalar.write {v : Value} (h : Scalar v) : v.write = v.writeInline := by
  cases h <;> rfl

/-! ## Arrays -/

/-- Scalars, and arrays of them. -/
inductive Flat : Value → Prop
  | scalar {v : Value} : Scalar v → Flat v
  | array {vs : List Value} : (∀ v ∈ vs, Scalar v) → Flat (.array vs)

theorem value?_scalar {cs : List Char} (hc : opensScalar c = true) (d : Nat) :
    value? d (c :: cs) = scalar? (c :: cs) := by
  have hbracket : c ≠ '[' := by rintro rfl; simp [opensScalar] at hc
  have hbrace : c ≠ '\x7b' := by rintro rfl; simp [opensScalar] at hc
  cases d with
  | zero => rfl
  | succ d => simp [value?, hbracket, hbrace]

theorem Scalar.value? {v : Value} (h : Scalar v) (d : Nat) (hrest : Ended rest) :
    Toml.value? d (v.writeInline ++ rest) = some (v, rest) := by
  obtain ⟨c, cs, hv, hc⟩ := h.opens
  rw [← h.read hrest, hv, List.cons_append, value?_scalar hc]

theorem Scalar.skipGap? {v : Value} (h : Scalar v) (rest : List Char) :
    Toml.skipGap? false (v.writeInline ++ rest) = some (v.writeInline ++ rest) := by
  obtain ⟨c, cs, hv, hc⟩ := h.opens
  have hline : c ≠ '\n' := by rintro rfl; simp [opensScalar] at hc
  have hreturn : c ≠ '\r' := by rintro rfl; simp [opensScalar] at hc
  have hcomment : c ≠ '#' := by rintro rfl; simp [opensScalar] at hc
  have hspace := isSpace_of_opensScalar hc
  rw [hv, List.cons_append, Toml.skipGap?.eq_def]
  split <;> simp_all

theorem Scalar.ne_bracket {v : Value} (h : Scalar v) (cs cs' : List Char) :
    v.writeInline ++ cs ≠ ']' :: cs' := by
  obtain ⟨c, w, hv, hc⟩ := h.opens
  rintro heq
  obtain rfl : c = ']' := by simpa [hv] using (List.cons.inj (hv ▸ heq)).1
  simp [opensScalar] at hc

/-- An item with a comma behind it. -/
theorem items?_more {v : Value} {d n : Nat} {cs : List Char} (hv : Scalar v)
    (h : skipGap? false cs = some (v.writeInline ++ ',' :: rest)) :
    items? (value? d) (n + 1) cs =
      (items? (value? d) n rest).map fun (vs, rest) => (v :: vs, rest) := by
  have hread := hv.value? d (Ended.comma : Ended (',' :: rest))
  simp only [items?, h, hread, Option.bind_eq_bind, Option.bind_some]
  split
  · next hclose => exact absurd hclose (hv.ne_bracket _ _)
  · cases hmore : items? (value? d) n rest <;> simp [skipGap?, isSpace, hmore]

/-- The last item, with the closing bracket behind it. -/
theorem items?_last {v : Value} {d n : Nat} {cs : List Char} (hv : Scalar v)
    (h : skipGap? false cs = some (v.writeInline ++ ']' :: rest)) :
    items? (value? d) (n + 1) cs = some ([v], rest) := by
  have hread := hv.value? d (Ended.bracket : Ended (']' :: rest))
  simp only [items?, h, hread, Option.bind_eq_bind, Option.bind_some]
  split
  · next hclose => exact absurd hclose (hv.ne_bracket _ _)
  · simp [skipGap?, isSpace]

/-- Items on lines of their own. -/
theorem items?_lines {d n : Nat} {vs : List Value} (hvs : ∀ v ∈ vs, Scalar v)
    (hn : vs.length < n) :
    items? (value? d) n ('\n' :: (vs.flatMap writeItemLine ++ ']' :: rest)) = some (vs, rest) := by
  induction vs generalizing n with
  | nil =>
    obtain ⟨n, rfl⟩ : ∃ m, n = m + 1 := ⟨n - 1, by omega⟩
    simp [items?, skipGap?, isSpace]
  | cons v vs ih =>
    obtain ⟨n, rfl⟩ : ∃ m, n = m + 1 := ⟨n - 1, by omega⟩
    obtain ⟨hv, hvs⟩ := List.forall_mem_cons.mp hvs
    have hline : skipGap? false
        ('\n' :: ((v :: vs).flatMap writeItemLine ++ ']' :: rest)) =
          some (v.writeInline ++ ',' :: '\n' :: (vs.flatMap writeItemLine ++ ']' :: rest)) := by
      rw [← hv.skipGap?]
      simp [writeItemLine, skipGap?, isSpace]
    rw [items?_more hv hline, ih hvs (by simpa using hn)]
    rfl

theorem length_le_flatMap_writeItemLine (vs : List Value) :
    vs.length ≤ (vs.flatMap writeItemLine).length := by
  induction vs with
  | nil => exact Nat.le_refl _
  | cons v vs ih =>
    simp only [List.flatMap_cons, List.length_append, List.length_cons, writeItemLine]
    omega

theorem value?_array {d : Nat} {vs : List Value} {cs : List Char}
    (h : items? (value? d) (cs.length + 1) cs = some (vs, rest)) :
    value? (d + 1) ('[' :: cs) = some (.array vs, rest) := by
  simp [value?, h]

/-- **Values** without tables read back. -/
theorem Flat.read {v : Value} (h : Flat v) (d : Nat) (hrest : Ended rest) :
    value? (d + 1) (v.write ++ rest) = some (v, rest) := by
  cases h with
  | scalar h =>
    rw [h.write, h.value? _ hrest]
  | @array vs h =>
    rcases vs with _ | ⟨v, _ | ⟨w, vs⟩⟩
    · have hempty : items? (value? d) ((']' :: rest).length + 1) (']' :: rest) =
          some ([], rest) := by
        simp [items?, skipGap?, isSpace]
      exact value?_array hempty
    · have hv : Scalar v := h v (by simp)
      have hlast := items?_last (d := d) (n := (v.writeInline ++ ']' :: rest).length) hv
        (hv.skipGap? (']' :: rest))
      simpa [Value.write, Value.writeInline, writeItems] using value?_array hlast
    · have hcount := length_le_flatMap_writeItemLine (v :: w :: vs)
      have hread : items? (value? d)
          (('\n' :: ((v :: w :: vs).flatMap writeItemLine ++ ']' :: rest)).length + 1)
          ('\n' :: ((v :: w :: vs).flatMap writeItemLine ++ ']' :: rest)) =
            some (v :: w :: vs, rest) := by
        refine items?_lines h ?_
        simp only [List.length_append, List.length_cons] at hcount ⊢
        omega
      simpa [Value.write] using value?_array hread

end PlugWatch.Toml
