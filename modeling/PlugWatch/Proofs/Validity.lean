import PlugWatch.Proofs.Grammar
import PlugWatch.Proofs.Watches

/-! # Valid filters and valid configurations

  A filter that asks for a change is valid exactly if there is a **device** that it accepts: the
  greatest values that are allowed are the greatest that the fields of a descriptor can have. Hence
  every registration can be told of some device.

  A configuration is valid exactly if it has no **lapse**. A lapse is found at a stage, and at a
  turn of this stage: the settings are the first stage, and every watch is a stage of its own. What
  is reported is the first lapse, so nothing depends on what is behind it.
-/

namespace PlugWatch

/-! ## Filters that can be satisfied -/

/-- The exact value of a pattern, and zero for the wildcard. -/
def Pattern.value : Pattern → UInt32
  | any => 0
  | exactly v => v

theorem Descriptor.value_le (d : Descriptor) (field : Filter.Field) :
    d.value field ≤ field.limit.toNat := by
  cases field with
  | vendor => exact Nat.le_of_lt_succ d.vendor.toNat_lt
  | product => exact Nat.le_of_lt_succ d.product.toNat_lt
  | classCode => exact Nat.le_of_lt_succ d.classCode.toNat_lt

namespace Filter

variable {f : Filter} {field : Field}

/-- A descriptor that the filter accepts if it accepts any. -/
def sample (f : Filter) : Descriptor where
  vendor := f.vendor.value.toUInt16
  product := f.product.value.toUInt16
  classCode := f.classCode.value.toUInt8

theorem value_sample_eq (f : Filter) (field : Field) :
    f.sample.value field = (f.pattern field).value.toNat % (field.limit.toNat + 1) := by
  cases field <;> rfl

theorem value_sample {v : UInt32} (h : f.pattern field = .exactly v) (hv : v ≤ field.limit) :
    v.toNat = f.sample.value field := by
  have hle := UInt32.le_iff_toNat_le.mp hv
  rw [value_sample_eq, h]
  exact (Nat.mod_eq_of_lt (Nat.lt_succ_of_le hle)).symm

/-- Some device is accepted if no exact value is too wide for its field. -/
theorem exists_accepts_iff : (∃ d, f.accepts d = true) ↔ ¬ f.TooWide := by
  rw [tooWide_iff]
  constructor
  · intro h hwide
    obtain ⟨d, hd⟩ := h
    obtain ⟨field, v, hv, hlt⟩ := hwide
    -- `accepts_iff` goes by labels, and every field has one.
    obtain ⟨label, rfl⟩ : ∃ label : Watch.Label, label.field = field := by
      cases field with
      | vendor => exact ⟨.vendor, rfl⟩
      | product => exact ⟨.product, rfl⟩
      | classCode => exact ⟨.classCode, rfl⟩
    have hvalue : v.toNat = d.value label.field := by
      obtain hany | ⟨v', hv', hd'⟩ := (Watch.accepts_iff f d).mp hd label
      · rw [hv] at hany
        cases hany
      · rw [hv] at hv'
        cases hv'
        exact hd'
    have hle := d.value_le label.field
    have hlt' := UInt32.lt_iff_toNat_lt.mp hlt
    omega
  · intro h
    refine ⟨f.sample, (Watch.accepts_iff f f.sample).mpr fun label => ?_⟩
    cases hp : f.pattern label.field with
    | any => exact .inl rfl
    | exactly v =>
      have hle : v ≤ label.field.limit := UInt32.not_lt.mp fun hlt => h ⟨_, v, hp, hlt⟩
      exact .inr ⟨v, rfl, value_sample hp hle⟩

/-- A filter that asks for a change is valid exactly if there is a device that it accepts; and for
    every registration, at every point of every session, there is one. -/
theorem validate_ok_iff_satisfiable (f : Filter) (h : f.changes ≠ .none) :
    (f.validate = .ok () ↔ ∃ d, f.accepts d = true) ∧
      ∀ (β : Type) [Bus β] (b : β) (s : Registry β), Registry.Steps { bus := b } s →
        ∀ e ∈ s.entries, ∃ d, e.filter.accepts d = true := by
  refine ⟨?_, ?_⟩
  · rw [validate_eq_ok_iff, exists_accepts_iff]
    exact and_iff_left h
  · intro β _ b s hs e he
    obtain ⟨i, hi⟩ := Array.mem_iff_getElem?.mp he
    have hsane := hs.sane (Registry.sane_fresh b)
    have hvalid := ((hsane.tidy i).wellFormed e hi).valid
    exact exists_accepts_iff.mpr (validate_eq_ok_iff.mp hvalid).1

/-- The greatest values of the fields are allowed, and the word of the wildcard is not. -/
theorem validate_ok_iff_satisfiable_limits :
    let widest : Filter := { vendor := .exactly 0xFFFF, classCode := .exactly 0xFF }
    let sentinel : Filter := { vendor := .exactly 0xFFFFFFFF }
    let s := Registry.afterAll { bus := ({} : MemoryBus) } [.register (.listener widest)]
    widest.changes ≠ .none ∧ (∃ d, widest.accepts d = true) ∧
      sentinel.changes ≠ .none ∧ (¬ ∃ d, sentinel.accepts d = true) ∧
        s.entries.size = 1 ∧ ∀ e ∈ s.entries, ∃ d, e.filter.accepts d = true := by
  intro widest sentinel s
  have hwidest : widest.changes ≠ .none := by decide
  have hsentinel : sentinel.changes ≠ .none := by decide
  have hinvalid : sentinel.validate ≠ .ok () := by decide
  obtain ⟨hvalid, hregistered⟩ := validate_ok_iff_satisfiable widest hwidest
  have hrejected := (validate_ok_iff_satisfiable sentinel hsentinel).1
  have hsteps : Registry.Steps { bus := ({} : MemoryBus) } s := Registry.afterAll_steps _ _
  exact ⟨hwidest, hvalid.mp (by decide), hsentinel, mt hrejected.mpr hinvalid,
    by decide +kernel, hregistered MemoryBus {} s hsteps⟩

end Filter

/-! ## Lapses -/

/-- What is wrong with a watch: the turn of the check that finds it, and what is reported. -/
inductive Watch.Lapse (w : Watch) : Nat → Report → Prop
  | name : w.name = "" → w.Lapse 0 { cause := .plain "Empty name in [[watch]] entry" }
  | changes : w.changes = [] →
      w.Lapse 1 { cause := .plain s!"Watch '{w.name}' has an empty events list" }
  | filter {why : Watch.FilterError} : w.toFilter = .error why → w.Lapse 2 (why.report w)

theorem Watch.Lapse.unique {w : Watch} {turn : Nat} {r r' : Report} (h : w.Lapse turn r)
    (h' : w.Lapse turn r') : r = r' := by
  cases h with
  | name => cases h' with
    | name => rfl
  | changes => cases h' with
    | changes => rfl
  | filter h => cases h' with
    | filter h' =>
      rw [h] at h'
      cases h'
      rfl

namespace Config

/-- What is wrong with a configuration: stage and turn of the check that finds it, and what is
    reported. -/
inductive Lapse (c : Config) : Nat → Nat → Report → Prop
  | logLevel : c.settings.logLevel ∉ ["trace", "debug", "info", "warn", "error"] →
      c.Lapse 0 0 { cause := .plain (s!"Invalid log level '{c.settings.logLevel}', must be one of: "
        ++ "trace, debug, info, warn, error") }
  | pollMillis : c.settings.pollMillis = 0 →
      c.Lapse 0 1 { cause := .plain "poll_interval_ms must be greater than 0" }
  | watch {i turn : Nat} {w : Watch} {r : Report} : c.watches[i]? = some w → w.Lapse turn r →
      c.Lapse (i + 1) turn r

/-- The lapse that is found first. -/
inductive FirstLapse (c : Config) (r : Report) : Prop
  | mk {stage turn : Nat} : c.Lapse stage turn r →
      (∀ stage' turn' r', c.Lapse stage' turn' r' →
        stage < stage' ∨ stage = stage' ∧ turn ≤ turn') → c.FirstLapse r

variable {c : Config} {w : Watch} {r r' : Report} {stage turn : Nat}

/-! ## Checks -/

theorem checkWatch_checks (w : Watch) :
    match checkWatch w with
    | .ok _ => ∀ turn r, ¬ w.Lapse turn r
    | .error why => ∃ turn, w.Lapse turn why.report ∧
        ∀ turn' r, w.Lapse turn' r → turn ≤ turn' := by
  unfold checkWatch
  split_ifs with hname hchanges
  · exact ⟨0, .name hname, fun _ _ _ => Nat.zero_le _⟩
  · refine ⟨1, .changes hchanges, fun turn' r h => ?_⟩
    cases h with
    | name h => exact absurd h hname
    | changes | filter => omega
  · cases hfilter : w.toFilter with
    | error why =>
      refine ⟨2, .filter hfilter, fun turn' r h => ?_⟩
      cases h with
      | name h => exact absurd h hname
      | changes h => exact absurd h hchanges
      | filter => exact Nat.le_refl 2
    | ok f =>
      intro turn r h
      cases h with
      | name h => exact hname h
      | changes h => exact hchanges h
      | filter h =>
        rw [hfilter] at h
        cases h

/-- The first item that is refused, and why. -/
theorem forM_error {α ε : Type} {check : α → Except ε Unit} {xs : List α} {why : ε}
    (h : xs.forM check = .error why) :
    ∃ (i : Nat) (x : α), xs[i]? = some x ∧ check x = .error why ∧
      ∀ j < i, ∀ y, xs[j]? = some y → check y = .ok () := by
  induction xs with
  | nil => cases h
  | cons x xs ih =>
    change (check x >>= fun _ => xs.forM check) = .error why at h
    cases hx : check x with
    | error why' =>
      rw [hx] at h
      cases h
      exact ⟨0, x, rfl, hx, fun j hj => absurd hj (Nat.not_lt_zero j)⟩
    | ok u =>
      rw [hx] at h
      obtain ⟨i, y, hi, hy, hbefore⟩ := ih h
      refine ⟨i + 1, y, hi, hy, fun j hj z hz => ?_⟩
      cases j with
      | zero =>
        cases hz
        exact hx
      | succ j => exact hbefore j (Nat.lt_of_succ_lt_succ hj) z hz

/-- What comes behind a refused item is not looked at. -/
theorem forM_append {α ε : Type} {check : α → Except ε Unit} {xs : List α} {why : ε}
    (h : xs.forM check = .error why) (ys : List α) : (xs ++ ys).forM check = .error why := by
  induction xs with
  | nil => cases h
  | cons x xs ih =>
    change (check x >>= fun _ => xs.forM check) = .error why at h
    change (check x >>= fun _ => (xs ++ ys).forM check) = .error why
    cases hx : check x with
    | error why' =>
      rw [hx] at h
      exact h
    | ok u =>
      rw [hx] at h
      exact ih h

/-- No watch has a lapse, or what is reported is the first lapse of the first watch that has one. -/
theorem checkWatches_checks (ws : List Watch) :
    match ws.forM checkWatch with
    | .ok _ => ∀ (i : Nat) (w : Watch) turn r, ws[i]? = some w → ¬ w.Lapse turn r
    | .error why => ∃ (i : Nat) (w : Watch) (turn : Nat), ws[i]? = some w ∧
        w.Lapse turn why.report ∧
          ∀ (i' : Nat) (w' : Watch) turn' r, ws[i']? = some w' → w'.Lapse turn' r →
            i < i' ∨ i = i' ∧ turn ≤ turn' := by
  cases hwatches : ws.forM checkWatch with
  | ok u =>
    intro i w turn r hw
    have hchecks := checkWatch_checks w
    rw [forM_ok hwatches w (List.mem_of_getElem? hw)] at hchecks
    exact hchecks turn r
  | error why =>
    obtain ⟨i, w, hw, hwhy, hbefore⟩ := forM_error hwatches
    have hchecks := checkWatch_checks w
    rw [hwhy] at hchecks
    obtain ⟨turn, hlapse, hfirst⟩ := hchecks
    refine ⟨i, w, turn, hw, hlapse, fun i' w' turn' r hw' h => ?_⟩
    -- A watch in front passed, the watch itself has no earlier lapse, and the others come later.
    rcases Nat.lt_trichotomy i' i with hlt | rfl | hgt
    · have hchecks' := checkWatch_checks w'
      rw [hbefore i' hlt w' hw'] at hchecks'
      exact absurd h (hchecks' turn' r)
    · rw [hw] at hw'
      cases hw'
      exact .inr ⟨rfl, hfirst turn' r h⟩
    · exact .inl hgt

theorem report_logLevel (level : String) : (Invalid.logLevel level).report =
    { cause := .plain (s!"Invalid log level '{level}', must be one of: "
        ++ "trace, debug, info, warn, error") } := by
  have hknown : ", ".intercalate levels = "trace, debug, info, warn, error" := by decide +kernel
  rw [← hknown]
  rfl

/-- A configuration has no lapse, or the first one is reported. -/
theorem validate_checks (c : Config) :
    match c.validate with
    | .ok _ => ∀ stage turn r, ¬ c.Lapse stage turn r
    | .error why => c.FirstLapse why.report := by
  have hchecks := checkWatches_checks c.watches
  unfold validate
  split_ifs with hlevel hpoll
  · refine ⟨.pollMillis hpoll, fun _ _ _ h => ?_⟩
    cases h with
    | logLevel h => exact absurd hlevel h
    | pollMillis | watch => omega
  · cases hwatches : c.watches.forM checkWatch with
    | ok u =>
      rw [hwatches] at hchecks
      intro stage turn r h
      cases h with
      | logLevel h => exact h hlevel
      | pollMillis h => exact hpoll h
      | watch hw h => exact hchecks _ _ _ _ hw h
    | error why =>
      rw [hwatches] at hchecks
      obtain ⟨i, w, turn, hw, hlapse, hfirst⟩ := hchecks
      refine ⟨.watch hw hlapse, fun stage' turn' r h => ?_⟩
      cases h with
      | logLevel h => exact absurd hlevel h
      | pollMillis h => exact absurd h hpoll
      | watch hw' h =>
        -- The watches come after the settings, so a stage is one more than a position.
        have hle := hfirst _ _ _ _ hw' h
        omega
  · show c.FirstLapse (Invalid.logLevel c.settings.logLevel).report
    rw [report_logLevel]
    exact ⟨.logLevel hlevel, fun _ _ _ _ => by omega⟩

/-! ## The first lapse -/

theorem Lapse.unique (h : c.Lapse stage turn r) (h' : c.Lapse stage turn r') : r = r' := by
  cases h with
  | logLevel => cases h' with
    | logLevel => rfl
  | pollMillis => cases h' with
    | pollMillis => rfl
  | watch hw h => cases h' with
    | watch hw' h' =>
      rw [hw] at hw'
      cases hw'
      exact h.unique h'

theorem FirstLapse.unique (h : c.FirstLapse r) (h' : c.FirstLapse r') : r = r' := by
  obtain @⟨stage, turn, hlapse, hfirst⟩ := h
  obtain @⟨stage', turn', hlapse', hfirst'⟩ := h'
  obtain ⟨rfl, rfl⟩ : stage = stage' ∧ turn = turn' := by
    -- Each of the two comes no later than the other.
    have hle := hfirst _ _ _ hlapse'
    have hge := hfirst' _ _ _ hlapse
    omega
  exact hlapse.unique hlapse'

theorem validate_report_iff : (∃ why, c.validate = .error why ∧ why.report = r) ↔
    c.FirstLapse r := by
  have hchecks := validate_checks c
  cases hv : c.validate with
  | ok u =>
    rw [hv] at hchecks
    refine iff_of_false (by simp) ?_
    rintro ⟨hlapse, -⟩
    exact hchecks _ _ _ hlapse
  | error why =>
    rw [hv] at hchecks
    constructor
    · rintro ⟨why', hwhy, rfl⟩
      cases hwhy
      exact hchecks
    · exact fun h => ⟨why, rfl, hchecks.unique h⟩

/-- Without a lapse every check is passed. -/
theorem no_lapse_iff : (∀ stage turn r, ¬ c.Lapse stage turn r) ↔
    c.settings.logLevel ∈ ["trace", "debug", "info", "warn", "error"] ∧
      c.settings.pollMillis ≠ 0 ∧
        ∀ w ∈ c.watches, w.name ≠ "" ∧ w.changes ≠ [] ∧ ∃ f, w.toFilter = .ok f := by
  constructor
  · intro h
    refine ⟨?_, fun hpoll => h _ _ _ (.pollMillis hpoll), fun w hw => ?_⟩
    · by_contra hlevel
      exact h _ _ _ (.logLevel hlevel)
    · obtain ⟨i, hi⟩ := List.mem_iff_getElem?.mp hw
      refine ⟨fun hname => h _ _ _ (.watch hi (.name hname)),
        fun hchanges => h _ _ _ (.watch hi (.changes hchanges)), ?_⟩
      cases hfilter : w.toFilter with
      | ok f => exact ⟨f, rfl⟩
      | error why => exact absurd (.watch hi (.filter hfilter)) (h _ _ _)
  · intro h stage turn r hlapse
    obtain ⟨hlevel, hpoll, hwatches⟩ := h
    cases hlapse with
    | logLevel hno => exact hno hlevel
    | pollMillis hzero => exact hpoll hzero
    | watch hw hlapse =>
      obtain ⟨hname, hchanges, f, hf⟩ := hwatches _ (List.mem_of_getElem? hw)
      cases hlapse with
      | name h => exact hname h
      | changes h => exact hchanges h
      | filter h =>
        rw [hf] at h
        cases h

/-- What is behind a watch with a lapse is not looked at. -/
theorem forM_behind (before : List Watch) (h : w.Lapse turn r) :
    ∃ why, ∀ after, (before ++ w :: after).forM checkWatch = .error why := by
  -- The report is found in the list up to the watch, which may have an earlier one in it.
  cases hfront : (before ++ [w]).forM checkWatch with
  | ok u =>
    have hchecks := checkWatch_checks w
    rw [forM_ok hfront w (by simp)] at hchecks
    exact absurd h (hchecks turn r)
  | error why =>
    refine ⟨why, fun after => ?_⟩
    have hwhole := forM_append hfront after
    rwa [List.append_assoc, List.singleton_append] at hwhole

/-- A configuration is valid exactly if the log level is one of five, the waiting time is not zero,
    and every watch has a name, a change and a filter. Otherwise the first lapse is reported, and
    the watches behind one with a lapse make no difference. -/
theorem validate_reports_first (c : Config) :
    (c.validate = .ok () ↔
      c.settings.logLevel ∈ ["trace", "debug", "info", "warn", "error"] ∧
        c.settings.pollMillis ≠ 0 ∧
          ∀ w ∈ c.watches, w.name ≠ "" ∧ w.changes ≠ [] ∧ ∃ f, w.toFilter = .ok f) ∧
    (∀ r, (∃ why, c.validate = .error why ∧ why.report = r) ↔ c.FirstLapse r) ∧
    ∀ before w after after' turn r, w.Lapse turn r →
      ({ c with watches := before ++ w :: after } : Config).validate =
        ({ c with watches := before ++ w :: after' } : Config).validate := by
  refine ⟨?_, fun r => validate_report_iff, ?_⟩
  · rw [← no_lapse_iff]
    have hchecks := validate_checks c
    cases hv : c.validate with
    | ok u =>
      rw [hv] at hchecks
      exact iff_of_true rfl hchecks
    | error why =>
      rw [hv] at hchecks
      obtain ⟨hlapse, -⟩ := hchecks
      exact iff_of_false (by simp) fun hnone => hnone _ _ _ hlapse
  · intro before w after after' turn r hlapse
    obtain ⟨why, hwhy⟩ := forM_behind before hlapse
    simp only [validate, hwhy]

/-- The filter of the first watch is told before the name of the second. -/
example : ({ settings := { logLevel := "warn" }
             watches := [{ name := "w", filter := "*" }, { name := "" }] } : Config).validate =
    .error (.watchFilter { name := "w", filter := "*" } .fieldCount) := by
  decide +kernel

end Config

end PlugWatch
