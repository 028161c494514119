import PlugWatch.Proofs.Values
import PlugWatch.Toml.Library

/-! # Documents read back

  A document whose keys need no quotes and whose values hold no tables is read as it was written:
  entry by entry and header by header, with blank lines passed over. The bound on the loop over the
  lines is met by every text, because each round takes a character or more; so a text is said to
  **read as** a document if it does under each bound above its length.

  What the program relies on in a library of TOML is that it **conforms**; the standard library does.
-/

namespace PlugWatch.Toml

variable {k : Key} {v : Value} {cs rest : List Char} {d : Document}

/-! ## Keys -/

/-- A key of one part that needs no quotes. -/
def Key.Bare (k : Key) : Prop :=
  k.path = [] ∧ k.name.toList ≠ [] ∧ k.name.toList.all isKeyChar = true

instance (k : Key) : Decidable k.Bare :=
  inferInstanceAs (Decidable (_ ∧ _ ∧ _))

theorem Key.Bare.write (h : k.Bare) : k.write = k.name.toList := by
  obtain ⟨hpath, hne, hall⟩ := h
  have hplain : (!k.name.toList.isEmpty && k.name.toList.all isKeyChar) = true := by
    simp_all
  rw [Key.write, hpath, List.flatMap_nil, List.nil_append, writePart]
  exact if_pos hplain

/-- A key starts with a character that starts nothing else. -/
theorem Key.Bare.opens (h : k.Bare) : ∃ c cs, k.write = c :: cs ∧ isKeyChar c = true := by
  obtain ⟨c, cs, hname⟩ := List.exists_cons_of_ne_nil h.2.1
  exact ⟨c, cs, by rw [h.write, hname], List.all_eq_true.mp h.2.2 c (by simp [hname])⟩

theorem ne_of_isKeyChar {c x : Char} (h : isKeyChar c = true) (hx : isKeyChar x = false) :
    c ≠ x := by
  rintro rfl
  simp [h] at hx

/-- Behind a key stands something that is no part of it. -/
def Parted (rest : List Char) : Prop :=
  (∀ c, rest.head? = some c → isKeyChar c = false) ∧ (skipSpace rest).head? ≠ some '.'

theorem part?_bare (h : k.Bare) (hrest : Parted rest) :
    part? (k.write ++ rest) = some (k.name, rest) := by
  obtain ⟨c, cs, hopen, hc⟩ := h.opens
  have hall : ∀ x ∈ k.write, isKeyChar x = true := h.write ▸ List.all_eq_true.mp h.2.2
  have hread : readOneLine? (k.write ++ rest) = none := by
    have hdouble := ne_of_isKeyChar hc (x := '"') rfl
    have hsingle := ne_of_isKeyChar hc (x := '\'') rfl
    simp [hopen, readOneLine?, hdouble, hsingle]
  have htail : rest.takeWhile isKeyChar = [] ∧ rest.dropWhile isKeyChar = rest := by
    cases rest with
    | nil => exact ⟨rfl, rfl⟩
    | cons x rest => simp [hrest.1 x rfl]
  have htake : (k.write ++ rest).takeWhile isKeyChar = k.write := by
    rw [List.takeWhile_append_of_pos hall, htail.1, List.append_nil]
  have hdrop : (k.write ++ rest).dropWhile isKeyChar = rest := by
    rw [List.dropWhile_append_of_pos hall, htail.2]
  have hname : String.ofList (c :: cs) = k.name := by
    rw [← hopen, h.write, String.ofList_toList]
  rw [part?, hread, htake, hdrop, hopen, ← hname]

theorem skipSpace_of_not_isSpace {c : Char} (h : isSpace c = false) :
    skipSpace (c :: cs) = c :: cs := by
  simp [skipSpace, h]

theorem isSpace_of_isKeyChar {c : Char} (h : isKeyChar c = true) : isSpace c = false := by
  have hspace := ne_of_isKeyChar h (x := ' ') rfl
  have htab := ne_of_isKeyChar h (x := '\t') rfl
  simp [isSpace, hspace, htab]

theorem key?_bare (h : k.Bare) (hrest : Parted rest) :
    key? (k.write ++ rest) = some (k, skipSpace rest) := by
  obtain ⟨c, cs, hopen, hc⟩ := h.opens
  have hskip : skipSpace (k.write ++ rest) = k.write ++ rest := by
    rw [hopen]
    exact skipSpace_of_not_isSpace (isSpace_of_isKeyChar hc)
  have hparts : parts? maxParts (k.write ++ rest) = some ([k.name], skipSpace rest) := by
    rw [maxParts, parts?, hskip, part?_bare h hrest]
    simp only [Option.bind_eq_bind, Option.bind_some]
    split
    · next hdot => exact absurd (by rw [hdot]; rfl) hrest.2
    · rfl
  obtain ⟨path, name⟩ := k
  obtain rfl : path = [] := h.1
  rw [key?, hparts]
  rfl

/-! ## Entries -/

theorem Flat.opens (h : Flat v) : ∃ c cs, v.write = c :: cs ∧ isSpace c = false := by
  cases h with
  | scalar h =>
    obtain ⟨c, cs, hopen, hc⟩ := h.opens
    exact ⟨c, cs, by rw [h.write, hopen], isSpace_of_opensScalar hc⟩
  | @array vs h =>
    rcases vs with _ | ⟨v, _ | ⟨w, vs⟩⟩ <;> exact ⟨'[', _, rfl, rfl⟩

theorem pair?_entry (hk : k.Bare) (hv : Flat v) :
    pair? (value? maxDepth) (writeEntry (k, v) ++ rest) = some ((k, v), '\n' :: rest) := by
  obtain ⟨c, cs, hopen, hc⟩ := hv.opens
  have hkey : key? (k.write ++ ' ' :: '=' :: ' ' :: (v.write ++ '\n' :: rest)) =
      some (k, '=' :: ' ' :: (v.write ++ '\n' :: rest)) :=
    key?_bare hk ⟨by simp [isKeyChar], by simp [skipSpace, isSpace]⟩
  have hskip : skipSpace (' ' :: (v.write ++ '\n' :: rest)) = v.write ++ '\n' :: rest := by
    rw [hopen]
    exact skipSpace_of_not_isSpace hc
  have hvalue : value? maxDepth (v.write ++ '\n' :: rest) = some (v, '\n' :: rest) :=
    hv.read _ Ended.newline
  simp [writeEntry, pair?, hkey, expect, hskip, hvalue, skipSpace_of_not_isSpace (c := '\n') rfl]

/-! ## Lines -/

/-- The text is read as a document. -/
def ReadsAs (cs : List Char) (d : Document) : Prop :=
  ∀ n, cs.length < n → lines? n cs = some d

theorem ReadsAs.nil : ReadsAs [] {} := by
  intro n hn
  obtain ⟨n, rfl⟩ := Nat.exists_eq_add_one_of_ne_zero (Nat.ne_zero_of_lt hn)
  rfl

theorem ReadsAs.blank (h : ReadsAs cs d) : ReadsAs ('\n' :: cs) d := by
  intro n hn
  obtain ⟨n, rfl⟩ := Nat.exists_eq_add_one_of_ne_zero (Nat.ne_zero_of_lt hn)
  exact h n (Nat.lt_of_succ_lt_succ hn)

theorem lineEnd?_newline : lineEnd? ('\n' :: rest) = some rest :=
  rfl

theorem ReadsAs.entry (hk : k.Bare) (hv : Flat v) (h : ReadsAs cs d) :
    ReadsAs (writeEntry (k, v) ++ cs) { d with entries := (k, v) :: d.entries } := by
  intro n hn
  obtain ⟨n, rfl⟩ := Nat.exists_eq_add_one_of_ne_zero (Nat.ne_zero_of_lt hn)
  have hrest : lines? n cs = some d := h n (by simp [writeEntry] at hn; omega)
  have hpair : pair? (value? maxDepth) (writeEntry (k, v) ++ cs) = some ((k, v), '\n' :: cs) :=
    pair?_entry hk hv
  obtain ⟨c, w, hopen, hc⟩ := hk.opens
  obtain ⟨w', htext⟩ : ∃ w', writeEntry (k, v) ++ cs = c :: w' := by simp [writeEntry, hopen]
  have hcomment := ne_of_isKeyChar hc (x := '#') rfl
  have hbracket := ne_of_isKeyChar hc (x := '[') rfl
  have hline := ne_of_isKeyChar hc (x := '\n') rfl
  have hreturn := ne_of_isKeyChar hc (x := '\r') rfl
  rw [htext] at hpair ⊢
  rw [lines?, skipSpace_of_not_isSpace (isSpace_of_isKeyChar hc)]
  split <;> simp_all [newline?, lineEnd?_newline]

/-- The key of a header. -/
def Header.key : Header → Key
  | .table k => k
  | .element k => k

theorem key?_header (h : k.Bare) : key? (k.write ++ ']' :: rest) = some (k, ']' :: rest) :=
  key?_bare h ⟨by simp [isKeyChar], by simp [skipSpace, isSpace]⟩

theorem header?_write {header : Header} (h : header.key.Bare) :
    header? (header.write ++ rest) = some (header, rest) := by
  cases header with
  | table k =>
    have hk : k.Bare := h
    obtain ⟨c, w, hopen, hc⟩ := hk.opens
    have hbracket := ne_of_isKeyChar hc (x := '[') rfl
    have hkey : key? (c :: (w ++ ']' :: '\n' :: rest)) = some (k, ']' :: '\n' :: rest) := by
      rw [← List.cons_append, ← hopen]
      exact key?_header hk
    simp [Header.write, header?, hopen, hbracket, hkey, expect, lineEnd?_newline]
  | element k =>
    have hk : k.Bare := h
    have hkey : key? (k.write ++ ']' :: ']' :: '\n' :: rest) =
        some (k, ']' :: ']' :: '\n' :: rest) := key?_header hk
    simp [Header.write, header?, hkey, expect, lineEnd?_newline]

theorem ReadsAs.header {header : Header} (hk : header.key.Bare) (h : ReadsAs cs d) :
    ReadsAs (header.write ++ cs)
      { entries := [], sections := { header, entries := d.entries } :: d.sections } := by
  intro n hn
  obtain ⟨n, rfl⟩ := Nat.exists_eq_add_one_of_ne_zero (Nat.ne_zero_of_lt hn)
  have hread : header? (header.write ++ cs) = some (header, cs) := header?_write hk
  obtain ⟨w, htext⟩ : ∃ w, header.write ++ cs = '[' :: w := by
    cases header <;> exact ⟨_, rfl⟩
  have hrest : lines? n cs = some d := by
    refine h n ?_
    have hlength := congrArg List.length htext
    cases header <;> simp [Header.write] at hn hlength <;> omega
  rw [htext] at hread ⊢
  simp [lines?, skipSpace_of_not_isSpace (c := '[') rfl, hread, hrest]

/-! ## Whole documents -/

/-- Keys need no quotes, and values hold no tables. -/
def PlainEntries (es : List (Key × Value)) : Prop :=
  ∀ e ∈ es, e.1.Bare ∧ Flat e.2

/-- All entries are plain, and the keys of headers need no quotes. -/
structure Document.Plain (d : Document) : Prop where
  entries : PlainEntries d.entries
  sections : ∀ s ∈ d.sections, s.header.key.Bare ∧ PlainEntries s.entries

theorem ReadsAs.entries {es : List (Key × Value)} (hes : PlainEntries es) (h : ReadsAs cs d) :
    ReadsAs (es.flatMap writeEntry ++ cs) { d with entries := es ++ d.entries } := by
  induction es with
  | nil => exact h
  | cons e es ih =>
    obtain ⟨⟨hk, hv⟩, hes⟩ := List.forall_mem_cons.mp hes
    rw [List.flatMap_cons, List.append_assoc]
    exact (ih hes).entry hk hv

theorem readsAs_writeSections (above : Bool) {ss : List Section}
    (hss : ∀ s ∈ ss, s.header.key.Bare ∧ PlainEntries s.entries) :
    ReadsAs (writeSections above ss) { sections := ss } := by
  induction ss generalizing above with
  | nil => exact ReadsAs.nil
  | cons s ss ih =>
    obtain ⟨⟨hk, hes⟩, hss⟩ := List.forall_mem_cons.mp hss
    have hsection : ReadsAs (s.write ++ writeSections true ss) { sections := s :: ss } := by
      have hentries := ((ih true hss).entries hes).header hk
      simpa [Section.write] using hentries
    cases above with
    | false => simpa [writeSections] using hsection
    | true => simpa [writeSections] using hsection.blank

theorem ReadsAs.parse {s : String} (hmark : s.toList.head? ≠ some '\uFEFF')
    (h : ReadsAs s.toList d) : Document.parse s = some d := by
  have hread := h (s.toList.length + 1) (by omega)
  unfold Document.parse
  split
  · simp_all
  · exact hread

/-- A document starts with a key, a bracket, or not at all. -/
theorem Document.Plain.head? (h : d.Plain) : d.write.toList.head? ≠ some '\uFEFF' := by
  rw [Document.write, String.toList_ofList]
  cases hes : d.entries with
  | nil =>
    cases hss : d.sections with
    | nil => simp [writeSections]
    | cons s ss => cases hs : s.header <;> simp [writeSections, Section.write, Header.write, hs]
  | cons e es =>
    obtain ⟨c, w, hopen, hc⟩ := (h.entries e (by simp [hes])).1.opens
    have hmark := ne_of_isKeyChar hc (x := '\uFEFF') rfl
    simp [writeEntry, hopen, hmark]

/-- **Documents** read back. -/
theorem Document.parse_write (h : d.Plain) : Document.parse d.write = some d := by
  have hsections := readsAs_writeSections (!d.entries.isEmpty) h.sections
  have hread := hsections.entries h.entries
  refine ReadsAs.parse h.head? ?_
  rw [Document.write, String.toList_ofList]
  simpa using hread

/-! ## Libraries -/

/-- A library writes every plain document that describes a table, in whichever way it likes, as a
    text that describes the same table. It refuses documents with an integer out of range, and it
    reads the table that a text describes. -/
structure Library.Conforms (toml : Library) : Prop where
  writes {d : Document} {t : Table} : d.Plain → d.table? = some t →
    ∃ text, toml.write d = .ok text ∧ Table.parse text = some t
  refuses {d : Document} : d.fits = false → toml.write d = .error .unwritable
  reads {text : String} {t : Table} : Table.parse text = some t → toml.read text = some t

theorem Scalar.fits (h : Scalar v) : v.fits = true := by
  cases h with
  | string text => rfl
  | natural hn =>
    simp only [Value.fits, Bool.and_eq_true, decide_eq_true_eq]
    omega
  | boolean b => rfl

theorem Scalar.scalars (h : Scalar v) : v.scalars = [v] := by
  cases h <;> rfl

theorem Flat.fits (h : Flat v) : ∀ w ∈ v.scalars, w.fits = true := by
  cases h with
  | scalar h => simpa [h.scalars] using h.fits
  | @array vs hvs =>
    -- The items are scalars, each its own and only one.
    rw [Value.scalars]
    induction vs with
    | nil => simp [scalarsOf]
    | cons v vs ih =>
      obtain ⟨hv, hvs⟩ := List.forall_mem_cons.mp hvs
      simpa [scalarsOf, hv.scalars, hv.fits] using ih hvs

theorem Document.Plain.fits (h : d.Plain) : d.fits = true := by
  simp only [Document.fits, Document.scalars, List.all_flatMap, List.all_append, Bool.and_eq_true,
    List.all_eq_true]
  exact ⟨fun e he => (h.entries e he).2.fits,
    fun s hs e he => ((h.sections s hs).2 e he).2.fits⟩

theorem Library.standard_conforms : standard.Conforms where
  writes {d t} hplain htable := by
    refine ⟨d.write, if_pos hplain.fits, ?_⟩
    rw [Table.parse, Document.parse_write hplain]
    exact htable
  refuses h := by simp [standard, h]
  reads h := h

/-- The checked library writes what the standard one does, or stops. -/
theorem Library.checked_write (d : Document) :
    checked.write d = standard.write d ∨ checked.write d = .error .aborted := by
  cases hwrite : standard.write d with
  | error why => simp [checked, hwrite]
  | ok text =>
    simp only [checked, hwrite]
    split
    · exact .inl rfl
    · exact .inr rfl

end PlugWatch.Toml
