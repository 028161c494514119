import PlugWatch.Config.Document
import PlugWatch.Proofs.Documents

/-! # Configurations read back

  The document of a configuration describes a table with an entry for the settings and one for the
  watches, and in this table the configuration is found again. The watches are an array of tables,
  to which each section adds one; if there are none, an empty array stands above the settings.
-/

namespace PlugWatch.Config

open Toml

variable {c : Config}

/-! ## The document -/

theorem bare_names : ∀ name ∈ ["monitor", "log_level", "poll_interval_ms", "watch", "name",
    "filter", "events", "enumerate"], Key.Bare { name } := by
  decide

theorem settingsSection_plain {s : Settings} (h : s.pollMillis.toNat < integerBound) :
    (settingsSection s).header.key.Bare ∧ PlainEntries (settingsSection s).entries := by
  refine ⟨bare_names _ (by simp), ?_⟩
  simp only [PlainEntries, settingsSection, entry, List.forall_mem_cons]
  exact ⟨⟨bare_names _ (by simp), .scalar (.string _)⟩,
    ⟨bare_names _ (by simp), .scalar (.natural h)⟩, by simp⟩

theorem watchSection_plain (w : Watch) :
    (watchSection w).header.key.Bare ∧ PlainEntries (watchSection w).entries := by
  refine ⟨bare_names _ (by simp), ?_⟩
  simp only [PlainEntries, watchSection, entry, List.forall_mem_cons]
  refine ⟨⟨bare_names _ (by simp), .scalar (.string _)⟩,
    ⟨bare_names _ (by simp), .scalar (.string _)⟩, ⟨bare_names _ (by simp), .array ?_⟩,
    ⟨bare_names _ (by simp), .scalar (.boolean _)⟩, by simp⟩
  simp only [List.forall_mem_map]
  exact fun change _ => .string _

theorem document_plain (h : c.settings.pollMillis.toNat < integerBound) : c.document.Plain := by
  constructor
  · simp only [document, topEntries]
    split
    · simpa [PlainEntries, entry] using ⟨bare_names _ (by simp), .array (by simp)⟩
    · simp [PlainEntries]
  · simp only [document, List.forall_mem_cons, List.forall_mem_map]
    exact ⟨settingsSection_plain h, fun w _ => watchSection_plain w⟩

/-- The waiting time is the one integer that may be out of range. -/
theorem document_fits (h : integerBound ≤ c.settings.pollMillis.toNat) :
    c.document.fits = false := by
  have hpoll : (Value.integer c.settings.pollMillis.toNat).fits = false := by
    simp only [Value.fits, Bool.and_eq_false_iff, decide_eq_false_iff_not]
    omega
  have hmem : .integer c.settings.pollMillis.toNat ∈ c.document.scalars := by
    simp [Document.scalars, document, settingsSection, entry, Value.scalars]
  exact List.all_eq_false.mpr ⟨_, hmem, by simp [hpoll]⟩

/-! ## The table -/

/-- The table of the settings. -/
def settingsTable (s : Settings) : Table :=
  [("log_level", .string s.logLevel), ("poll_interval_ms", .integer s.pollMillis.toNat)]

/-- The table of a watch. -/
def watchTable (w : Watch) : Table :=
  [("name", .string w.name), ("filter", .string w.filter),
    ("events", .array (w.changes.map fun c => .string (changeName c))),
    ("enumerate", .boolean w.enumerate)]

theorem defineAll_settings (s : Settings) :
    Table.defineAll [] (settingsSection s).entries = some (settingsTable s) := by
  simp [Table.defineAll, settingsSection, entry, Table.defineAt, Table.define, Table.get?,
    Table.put, List.lookup_cons, settingsTable]

theorem defineAll_watch (w : Watch) :
    Table.defineAll [] (watchSection w).entries = some (watchTable w) := by
  simp [Table.defineAll, watchSection, entry, Table.defineAt, Table.define, Table.get?, Table.put,
    List.lookup_cons, watchTable]

theorem addSection_settings {t : Table} (h : t.get? "monitor" = none) (s : Settings) :
    t.addSection (settingsSection s) =
      some (t.put "monitor" (.table .header (settingsTable s))) := by
  change t.openTable "monitor" (settingsSection s).entries = _
  rw [Table.openTable, h, defineAll_settings]
  rfl

/-- The first section of a watch makes the array. -/
theorem addSection_first {t : Table} (h : t.get? "watch" = none) (w : Watch) :
    t.addSection (watchSection w) = some (t.put "watch" (.tables [watchTable w])) := by
  change t.openElement "watch" (watchSection w).entries = _
  rw [Table.openElement, h, defineAll_watch]
  rfl

/-- Every further one adds its table to the array. -/
theorem addSection_next {t : Table} {ts : List Table} (h : t.get? "watch" = some (.tables ts))
    (w : Watch) :
    t.addSection (watchSection w) = some (t.put "watch" (.tables (ts ++ [watchTable w]))) := by
  change t.openElement "watch" (watchSection w).entries = _
  rw [Table.openElement, h, defineAll_watch]
  rfl

theorem addSection_watches (m : Value) (ts : List Table) (ws : List Watch) :
    (ws.map watchSection).foldlM Table.addSection [("monitor", m), ("watch", .tables ts)] =
      some [("monitor", m), ("watch", .tables (ts ++ ws.map watchTable))] := by
  induction ws generalizing ts with
  | nil => simp
  | cons w ws ih =>
    have hwatch : Table.get? [("monitor", m), ("watch", .tables ts)] "watch" =
        some (.tables ts) := by
      simp [Table.get?, List.lookup_cons]
    rw [List.map_cons, List.foldlM_cons, addSection_next hwatch]
    simpa [Table.put] using ih (ts ++ [watchTable w])

/-- The watches in the table of a configuration. -/
def watchesValue (c : Config) : Value :=
  if c.watches = [] then .array [] else .tables (c.watches.map watchTable)

theorem table?_document (c : Config) : ∃ t, c.document.table? = some t ∧
    t.get? "monitor" = some (.table .header (settingsTable c.settings)) ∧
      t.get? "watch" = some c.watchesValue := by
  let m : Value := .table .header (settingsTable c.settings)
  cases hws : c.watches with
  | nil =>
    have htop : Table.defineAll [] c.topEntries = some [("watch", .array [])] := by
      simp [topEntries, hws, Table.defineAll, entry, Table.defineAt, Table.define, Table.get?,
        Table.put]
    have hsettings : Table.addSection [("watch", .array [])] (settingsSection c.settings) =
        some [("watch", .array []), ("monitor", m)] := by
      rw [addSection_settings (by simp [Table.get?, List.lookup_cons])]
      simp [Table.put, m]
    refine ⟨[("watch", .array []), ("monitor", m)], ?_, ?_⟩
    · simp [Document.table?, document, htop, hws, hsettings]
    · simp [Table.get?, List.lookup_cons, watchesValue, hws, m]
  | cons w ws =>
    have htop : Table.defineAll [] c.topEntries = some [] := by
      simp [topEntries, hws, Table.defineAll]
    have hsettings : Table.addSection [] (settingsSection c.settings) = some [("monitor", m)] :=
      addSection_settings rfl _
    have hfirst : Table.addSection [("monitor", m)] (watchSection w) =
        some [("monitor", m), ("watch", .tables [watchTable w])] := by
      rw [addSection_first (by simp [Table.get?, List.lookup_cons])]
      simp [Table.put]
    have hwatches := addSection_watches m [watchTable w] ws
    refine ⟨[("monitor", m), ("watch", .tables ((w :: ws).map watchTable))], ?_, ?_⟩
    · simpa [Document.table?, document, htop, hws, hsettings, hfirst] using hwatches
    · simp [Table.get?, List.lookup_cons, watchesValue, hws, m]

/-! ## The configuration in the table -/

theorem settings_settingsTable (s : Settings) :
    Read.settings (.table .header (settingsTable s)) = some s := by
  simp [Read.settings, Read.fields, settingsTable, List.lookup_cons, Read.required, Read.optional,
    Read.text, Read.millis]

theorem change_changeName (x : Change) : Read.change (.string (changeName x)) = some x := by
  cases x <;> rfl

theorem mapM_map {α β : Type} {write : α → β} {read : β → Option α}
    (h : ∀ x, read (write x) = some x) (xs : List α) : (xs.map write).mapM read = some xs := by
  induction xs with
  | nil => rfl
  | cons x xs ih => simp [h, ih]

theorem changes_changeNames (xs : List Change) :
    Read.changes (.array (xs.map fun x => .string (changeName x))) = some xs :=
  mapM_map change_changeName xs

theorem watch_watchTable (w : Watch) : Read.watch (.table .header (watchTable w)) = some w := by
  have hchanges := changes_changeNames w.changes
  simp [Read.watch, Read.fields, watchTable, List.lookup_cons, Read.required, Read.optional,
    Read.text, Read.flag, hchanges]

theorem watches_watchesValue (c : Config) : Read.watches c.watchesValue = some c.watches := by
  unfold watchesValue
  split
  · next h =>
    rw [h]
    rfl
  · have hitems : Value.items? (.tables (c.watches.map watchTable)) =
        some (c.watches.map fun w => .table .header (watchTable w)) := by
      simp [Value.items?]
    rw [Read.watches, hitems]
    exact mapM_map watch_watchTable c.watches

theorem ofTable?_document {t : Table} (h : c.document.table? = some t) : ofTable? t = some c := by
  obtain ⟨_, htable, hmonitor, hwatch⟩ := table?_document c
  obtain rfl := Option.some.inj (htable.symm.trans h)
  simp [ofTable?, hmonitor, hwatch, Read.required, Read.optional, settings_settingsTable,
    watches_watchesValue]

/-! ## The configuration in the text -/

variable {toml : Library}

theorem write_of_large (htoml : toml.Conforms)
    (h : integerBound ≤ c.settings.pollMillis.toNat) : c.write toml = .error .unwritable :=
  htoml.refuses (document_fits h)

/-- **Configurations** read back, whatever conforming library is used. -/
theorem parse?_write (htoml : toml.Conforms) (h : c.settings.pollMillis.toNat < integerBound) :
    ∃ text, c.write toml = .ok text ∧ parse? text toml = some c := by
  obtain ⟨t, htable, _⟩ := table?_document c
  obtain ⟨text, hwrite, hparse⟩ := htoml.writes (document_plain h) htable
  refine ⟨text, hwrite, ?_⟩
  rw [parse?, htoml.reads hparse]
  exact ofTable?_document htable

end PlugWatch.Config
