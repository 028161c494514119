import PlugWatch.Proofs.Configurations
import PlugWatch.Proofs.Storage

/-! # Saving and loading

  What is saved is loaded again, wherever a file can be kept and with every library that conforms.
  One kind of configuration cannot be saved: its waiting time is no TOML integer. That is known
  before anything is touched.
-/

namespace PlugWatch

/-! ## Places for a file -/

/-- There is a place for a file at a path: the directories above are there, or can be made, and then
    there is room for it. -/
def FileTree.Accepts (t : FileTree) (path : String) : Prop :=
  ∃ t', Config.prepare t path = (.ok (), t') ∧ t'.HasRoom path

/-- A directory that is there has a place for every file, unless a directory has its name. -/
theorem FileTree.accepts_join {t : FileTree} {dir name : String}
    (habs : Path.isAbsolute (Path.join dir name) = true) (hdir : t.hasDirectory dir = true)
    (hslash : '/' ∉ name.toList) (hname : Proper name)
    (hfree : t.hasDirectory (Path.join dir name) = false) : t.Accepts (Path.join dir name) :=
  have hroom := hasRoom_join hdir hslash hname hfree
  ⟨t, hroom.prepare habs, hroom⟩

namespace Config

variable {c : Config} {t : FileTree} {path text : String} {env : Environment}
  {toml : Toml.Library}

/-! ## Saving, then loading -/

theorem save_of_write_error {why : Toml.WriteError} (h : c.write toml = .error why) :
    c.save t path toml = (.error (.text why), t) := by
  simp only [save, h]

/-- Saving with the checked library is saving with the standard one, unless the program is stopped.
    Then nothing is touched. -/
theorem save_checked (c : Config) (t : FileTree) (path : String) :
    c.save t path .checked = c.save t path .standard ∨
      c.save t path .checked = (.error (.text .aborted), t) := by
  rcases Toml.Library.checked_write c.document with hsame | habort
  · have hwrite : c.write .checked = c.write .standard := hsame
    left
    simp only [save, hwrite]
  · exact .inr (save_of_write_error habort)

theorem readText_of_read (h : t.read path = .ok text.toUTF8) : t.readText path = .ok text := by
  have hdecode : String.fromUTF8? text.toUTF8 = some text := dif_pos text.isValidUTF8
  simp only [FileTree.readText, h, hdecode]

theorem save_of_write (h : c.write toml = .ok text) (hplace : t.Accepts path) :
    ∃ t', c.save t path toml = (.ok (), t') ∧ t'.readText path = .ok text := by
  obtain ⟨t₁, hprepare, hroom⟩ := hplace
  obtain ⟨t', hwrite, hread⟩ := hroom.write text.toUTF8
  refine ⟨t', ?_, readText_of_read hread⟩
  simp only [save, h, hprepare, hwrite]

theorem expandHome_absolute (habs : Path.isAbsolute path = true) (home : String) :
    Path.expandHome home path = path := by
  unfold Path.expandHome
  split <;> simp_all [Path.isAbsolute]

theorem load_of_readText (habs : Path.isAbsolute path = true) (hread : t.readText path = .ok text)
    (hparse : parse? text toml = some c) (hvalid : c.validate = .ok ()) :
    load env t (some path) toml = .ok (path, c) := by
  simp only [load, place?, expandHome_absolute habs, readAt, hread, hparse, hvalid, Except.map]

/-- The standard library conforms. With every library that does, a valid configuration whose
    waiting time is a TOML integer is saved and loaded again, with nothing changed, at every
    absolute path that has a place for a file. If the waiting time is no TOML integer, saving fails
    and touches nothing. -/
theorem save_load : Toml.Library.standard.Conforms ∧
    ∀ toml : Toml.Library, toml.Conforms →
      ∀ (c : Config) (t : FileTree) (env : Environment) (path : String),
        (c.validate = .ok () → c.settings.pollMillis.toNat < Nat.pow 2 63 →
          Path.isAbsolute path = true → t.Accepts path →
            ∃ t', c.save t path toml = (.ok (), t') ∧
              load env t' (some path) toml = .ok (path, c)) ∧
        (Nat.pow 2 63 ≤ c.settings.pollMillis.toNat →
          c.save t path toml = (.error (.text .unwritable), t)) := by
  refine ⟨Toml.Library.standard_conforms, fun toml htoml c t env path =>
    ⟨fun hvalid hpoll habs hplace => ?_, fun hpoll => ?_⟩⟩
  · obtain ⟨text, hwrite, hparse⟩ := parse?_write htoml hpoll
    obtain ⟨t', hsave, hread⟩ := save_of_write hwrite hplace
    exact ⟨t', hsave, load_of_readText habs hread hparse hvalid⟩
  · exact save_of_write_error (write_of_large htoml hpoll)

/-- Names that need every style, blanks in a filter, changes named more than once, and the longest
    waiting time. -/
def motley : Config where
  settings := { logLevel := "trace", pollMillis := 9223372036854775807 }
  watches := [{ name := "'" }, { name := "\"\"\"\n'''\\" }, { name := "\r\t\x7f\"" },
    { name := "\\\"", filter := "\n 0x046d :*:\t0X+3", changes := [.left, .left, .arrived, .left] }]

/-- A millisecond more. -/
def patient : Config :=
  { motley with settings := { logLevel := "trace", pollMillis := 9223372036854775808 } }

/-- A path in a directory that is still to be made. -/
def nested : String :=
  "/nested/monitor.toml"

theorem accepts_nested : FileTree.Accepts {} nested := by
  refine ⟨{ nodes := [(["nested"], .directory)] }, by rfl, "/nested".toList, "monitor.toml",
    ["nested"], ?_⟩
  exact ⟨by decide, by decide, ⟨by decide, by decide, by decide⟩, by rfl, by decide, by decide⟩

/-- A tree with one directory. -/
def tidy : FileTree where
  nodes := [(["etc"], .directory)]

theorem accepts_tidy : tidy.Accepts (Path.join "/etc" "monitor.toml") :=
  FileTree.accepts_join (by decide) (by rfl) (by decide) ⟨by decide, by decide, by decide⟩ (by rfl)

theorem save_load_motley :
    (motley.validate = .ok () ∧ motley.settings.pollMillis.toNat < Nat.pow 2 63 ∧
      Path.isAbsolute nested = true ∧ FileTree.Accepts {} nested ∧
        ∃ t', motley.save {} nested .standard = (.ok (), t') ∧
          load { home := "/" } t' (some nested) .standard = .ok (nested, motley)) ∧
      Nat.pow 2 63 ≤ patient.settings.pollMillis.toNat ∧
        tidy.Accepts (Path.join "/etc" "monitor.toml") ∧
          patient.save tidy (Path.join "/etc" "monitor.toml") .standard =
            (.error (.text .unwritable), tidy) := by
  obtain ⟨hstandard, hall⟩ := save_load
  have hvalid : motley.validate = .ok () := by decide +kernel
  have hpoll : motley.settings.pollMillis.toNat < Nat.pow 2 63 := by decide
  have habs : Path.isAbsolute nested = true := by decide
  have hlong : Nat.pow 2 63 ≤ patient.settings.pollMillis.toNat := by decide
  obtain ⟨hkept, _⟩ := hall .standard hstandard motley {} { home := "/" } nested
  obtain ⟨_, hfails⟩ := hall .standard hstandard patient tidy { home := "/" }
    (Path.join "/etc" "monitor.toml")
  exact ⟨⟨hvalid, hpoll, habs, accepts_nested, hkept hvalid hpoll habs accepts_nested⟩, hlong,
    accepts_tidy, hfails hlong⟩

end Config

end PlugWatch
