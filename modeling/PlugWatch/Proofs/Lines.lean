import PlugWatch.Proofs.Monitoring
import PlugWatch.Proofs.Speech

/-! # What a monitor prints

  The lines of a watch are those of its calls, and these are known: they are what its filter asks
  for, first of the devices present and then of the changes that the bus reports, in the order in
  which it reports them. At the end of a run nobody is told anything.
-/

namespace PlugWatch

/-! ## What is told of devices and changes -/

namespace Filter

variable {f : Filter} {has : DeviceId → Option Device} {ds : List Device}

theorem tellsAll_append (xs ys : List (Device × Change)) : f.tellsAll has (xs ++ ys) =
    f.tellsAll has xs ++ f.tellsAll (fun id => f.hearAll id (has id) xs) ys := by
  induction xs generalizing has with
  | nil => rfl
  | cons x xs ih =>
    rw [List.cons_append, tellsAll, ih, tellsAll, List.append_assoc]
    rfl

/-- Devices with different ids that arrive where there is nothing are all told if they are
    accepted. -/
theorem tellsAll_arrived (h : DistinctIds ds) (hnone : ∀ d ∈ ds, has d.id = none) :
    f.tellsAll has (ds.map (·, .arrived)) = if f.wants .arrived then
      (ds.filter (f.accepts ·.descriptor)).map (Change.arrived, ·) else [] := by
  induction ds generalizing has with
  | nil => simp [tellsAll]
  | cons d ds ih =>
    obtain ⟨hd, hds⟩ := DistinctIds.cons_iff.mp h
    have hrest : ∀ x ∈ ds, f.hear x.id (has x.id) (d, .arrived) = none := by
      intro x hx
      rw [hear_of_ne _ (Ne.symm (hd x hx))]
      exact hnone x (by simp [hx])
    rw [List.map_cons, tellsAll, ih hds hrest]
    cases hw : f.wants .arrived <;> cases ha : f.accepts d.descriptor <;>
      simp [tells?, hw, ha, hnone d (by simp)]

end Filter

/-- The lines of a watch with a filter: first those of the devices present, if it asks for them, and
    then those of changes. -/
def Watch.lines (w : Watch) (f : Filter) (present : List Device)
    (changes : List (Device × Change)) : List String :=
  let asked := if w.enumerate then present else []
  let arrivals := if f.wants .arrived then asked.filter (f.accepts ·.descriptor) else []
  arrivals.map (fun d => w.line (.arrived, d)) ++
    (f.tellsAll (f.wanted? asked) changes).map w.line

/-! ## Buses that can be read -/

namespace UsbBus

variable {b : UsbBus}

/-- The devices that are attached, in the order in which they are listed. -/
def present (b : UsbBus) : List Device :=
  b.attached.map fun i => ⟨(b.slots i).id, (b.slots i).descriptor⟩

/-- The descriptor of every attached device can always be read. -/
def Readable (b : UsbBus) : Prop :=
  ∀ i ∈ b.attached, (b.slots i).readable = none

theorem sight_readable {i : Nat} (h : (b.slots i).readable = none) :
    b.sight i = (.ok ⟨(b.slots i).id, (b.slots i).descriptor⟩, b) := by
  have hread : (b.slots i).read = (.ok (b.slots i).descriptor, b.slots i) := by
    unfold UsbDevice.read
    rw [h]
  have hself : b.define i (b.slots i) = b := by
    have hslots : (fun j => if j = i then b.slots i else b.slots j) = b.slots := by
      funext j
      split
      · next hj => rw [hj]
      · rfl
    unfold define
    rw [hslots]
  unfold sight
  rw [hread]
  simp only [hself]
  rfl

theorem sightAll_readable {is : List Nat} (h : ∀ i ∈ is, (b.slots i).readable = none) :
    b.sightAll is = (is.map fun i => ⟨i, ⟨(b.slots i).id, (b.slots i).descriptor⟩⟩, [], b) := by
  induction is with
  | nil => rfl
  | cons i is ih =>
    unfold sightAll
    rw [sight_readable (h i (by simp))]
    simp only [ih fun j hj => h j (by simp [hj])]
    rfl

/-- Whoever asks for the devices learns of all that are attached, and the bus stays as it is. -/
theorem enumerate_readable (hl : b.listError = none) (h : b.Readable) :
    (Bus.enumerate b).devices = .ok b.present ∧ (Bus.enumerate b).bus = b := by
  have hsurvey : b.survey.found = .ok (b.attached.map fun i =>
      ⟨i, ⟨(b.slots i).id, (b.slots i).descriptor⟩⟩) ∧ b.survey.bus = b := by
    unfold survey
    rw [hl]
    simp only [sightAll_readable h, and_self]
  constructor
  · show (b.survey.found.mapError refusal).map _ = _
    rw [hsurvey.1]
    simp [Except.mapError, Except.map, present]
  · exact hsurvey.2

theorem busAfter_readable (hl : b.listError = none) (h : b.Readable) (ws : List Watch) :
    Watch.busAfter b ws = b := by
  induction ws with
  | nil => rfl
  | cons w ws ih =>
    show Watch.busAfter (Registry.asked w.enumerate b) ws = b
    cases w.enumerate with
    | false => exact ih
    | true =>
      show Watch.busAfter (Bus.enumerate b).bus ws = b
      rw [(enumerate_readable hl h).2, ih]

end UsbBus

/-! ## The monitor -/

namespace Registry

variable {β : Type} [Bus β] {r : Registry β}

/-- What is noted when the registry is torn down between two entries of the log. -/
theorem history_teardown (r : Registry β) (l l' : LogEntry) : ∃ hs,
    (((r.record (.logged l)).teardown).record (.logged l')).history.toList =
      r.history.toList ++ hs ∧ ∀ x ∈ hs, x.Mute := by
  unfold teardown
  rcases (r.record (.logged l)).deregisterAll_cases with h | ⟨level, message, h⟩
  · rw [h]
    simp only [history_record, List.append_assoc]
    exact ⟨_, rfl, by simp [Happening.Mute]⟩
  · rw [h]
    simp only [history_record, history_log, List.append_assoc]
    exact ⟨_, rfl, by simp [Happening.Mute]⟩

end Registry

namespace Program

open Walk Registry UsbBus

variable {c : Config} {b : UsbBus} {r : Registry UsbBus}

/-- The watch at a place. -/
def watchAt (c : Config) (i : Nat) : Watch :=
  c.watches[i]?.getD { name := "" }

theorem midway_voiced (h : Monitors c b) (ts : List Traffic) :
    (midway c (ts.map Traffic.pass)).Ends (fun _ r => Voiced (watchAt c) r) { bus := b } := by
  have hfresh : Voiced (watchAt c) ({ bus := listened b } : Registry UsbBus) :=
    ⟨rfl, fun i e he => by simp at he, fun _ => rfl⟩
  unfold midway
  rw [ends_bind, ends_discard]
  apply (start_ends h).mono
  rintro _ s ⟨rfl, hs⟩
  obtain ⟨hnews, hhistory, hmute⟩ := hs.news
  have hstarted : Voiced (watchAt c) s := hfresh.aside hs.entries hhistory hmute
  have hzero : s.entries.size = 0 := by rw [hs.entries]; rfl
  have hplaces : ∀ k w, c.watches[k]? = some w → watchAt c (s.entries.size + k) = w := by
    intro k w hk
    rw [hzero, Nat.zero_add, watchAt, hk]
    rfl
  have hregistered := registerAll_voiced (hs.steps.regular (regular_fresh _))
    (hs.steps.sane (sane_fresh _)) (hs.bus ▸ clear h) hplaces hstarted
  simp only [Option.map_some, before_some]
  rw [ends_bind, ends_discard]
  apply ((registered_ends h hs).and hregistered).mono
  rintro _ t ⟨⟨⟨hs, rfl, -⟩, -⟩, ht⟩
  simp only [Option.map_some, before_some]
  refine Ends.bind (EventLoop.log_voiced ht _ _ _) (fun _ h' => h') fun _ t₁ ht₁ => ?_
  refine Ends.bind (EventLoop.log_voiced ht₁ _ _ _) (fun _ h' => h') fun _ t₂ ht₂ => ?_
  rw [ends_discard]
  exact EventLoop.passes_voiced ht₂ ts

theorem ending_ends {W : Nat → Watch} (hr : Attending [] r) (hv : Voiced W r) :
    ending.Ends (fun o r' => o = some (.ok ()) ∧ Voiced W r' ∧
      ∀ i p, r.profile? i = some p → r'.calls i = p.calls) r := by
  unfold ending EventLoop.finish EventLoop.unlisten EventLoop.log
  simp only [ends_bind, ends_modify, before_some, ends_discard, if_true]
  let e : LogEntry :=
    { level := .info, source := .eventLoop, message := "Hotplug event thread shutting down" }
  let s : Registry UsbBus := { r.record (.logged e) with bus := r.bus.unlisten }
  have hs : Attending [] s := (hr.log e).rebus _
  have hvs : Voiced W s := EventLoop.bus_voiced (hv.record (x := .logged e) trivial) _
  show Ends handlePending _ s
  apply ((handlePending_hearing hs).and (handlePending_voiced hvs)).mono
  rintro o t ⟨⟨ho, -, hheard⟩, hvt⟩
  obtain ⟨n, rfl⟩ := Option.isSome_iff_exists.mp ho
  obtain ⟨hs', hhistory, hmute⟩ := t.history_teardown
    { level := .info, source := .eventLoop, message := "Hotplug event thread stopped" }
    { level := .info, source := .program, message := "Monitor shutdown complete" }
  refine ⟨rfl, hvt.aside (entries_teardown _) hhistory hmute, fun i p hp => ?_⟩
  have hsame : s.profile? i = r.profile? i := profile?_congr rfl rfl
    (calls_of_unspoken (history_record r (.logged e)) (by simp [Happening.Unspoken]))
  have hcalls : t.calls i = p.calls := by
    apply calls_of_profile?
    rw [hheard.profiles, hsame, hp]
    rfl
  rw [← hcalls]
  exact calls_of_unspoken hhistory fun x hx => (hmute x hx).unspoken

theorem notices_listened (b : UsbBus) (es : List Event) :
    (listened b).notices es = b.notices es := by
  induction es generalizing b with
  | nil => rfl
  | cons e es ih =>
    have hafter : (listened b).afterEvent e = listened (b.afterEvent e) := by
      cases e with
      | command c => cases c <;> rfl
      | report slot c => rfl
    have hnotice : e.notice? (listened b) = e.notice? b := by cases e <;> rfl
    rw [UsbBus.notices, hafter, ih, hnotice]
    rfl

theorem noticed_readable (h : Monitors c b) (hr : b.Readable) (ts : List Traffic) :
    noticed c b ts = b.notices (ts.flatMap (·.events)) := by
  unfold noticed ready
  rw [busAfter_readable (b := listened b) h.listed hr, notices_listened]

theorem offered_readable (h : Monitors c b) (hr : b.Readable) (w : Watch) (k : Nat) :
    offered c b w k = if w.enumerate then b.present else [] := by
  unfold offered
  rw [busAfter_readable (b := listened b) h.listed hr,
    (enumerate_readable (b := listened b) h.listed hr).1]
  rfl

/-- What a watch was told of, that was offered devices with different ids and heard of changes. -/
theorem tellings_watch (w : Watch) (f : Filter) {ds : List Device} (hd : DistinctIds ds)
    (cs : List (Device × Change)) :
    (cs.foldl Profile.hear (ds.foldl Profile.arrive
      { entry := { toRegistration := (w.registration f : Registration UsbBus), handle := ⟨0⟩ } }
        )).tellings =
      (if f.wants .arrived then (ds.filter (f.accepts ·.descriptor)).map (Change.arrived, ·)
        else []) ++ f.tellsAll (f.wanted? ds) cs := by
  have hsteady := w.registration_steady (β := UsbBus) f
  have hfresh : Profile.Attentive (w.registration f : Registration UsbBus)
      { entry := { toRegistration := w.registration f, handle := ⟨0⟩ } } := ⟨rfl, rfl, rfl⟩
  have hwanted : (fun id => f.hearAll id none (ds.map (·, Change.arrived))) = f.wanted? ds :=
    funext fun _ => Filter.hearAll_arrived hd
  rw [hfresh.arriveAll hsteady, ← List.foldl_append, hfresh.tellings_hearAll hsteady rfl]
  show [] ++ f.tellsAll (fun _ => none) _ = _
  rw [List.nil_append, Filter.tellsAll_append, hwanted,
    Filter.tellsAll_arrived hd fun _ _ => rfl]

/-- What a run of the monitor prints, watch by watch: the devices present, and then the changes that
    the bus reports, in the order in which it reports them. -/
theorem monitor_lines (h : Monitors c b) (hreadable : b.Readable)
    (hdistinct : DistinctIds b.present) (ts : List Traffic) :
    ∃ r, (monitor c (ts.map Traffic.pass)).run { bus := b } = .ok (.ok ()) r ∧
      ∀ k w f, c.watches[k]? = some w → w.toFilter = .ok f →
        linesOf k r.history.toList =
          w.lines f b.present (changesIn (b.notices (ts.flatMap (·.events)))) := by
  obtain ⟨⟨hanswer, hwatched⟩, hvoiced⟩ :=
    ends_iff_answer?.mp ((midway_ends h ts).and (midway_voiced h ts))
  obtain ⟨hend, hvoiced', hcalls⟩ := ends_iff_answer?.mp (ending_ends hwatched.attending hvoiced)
  have hrun : (monitor c (ts.map Traffic.pass)).run { bus := b } = .ok (.ok ())
      (left ending (left (midway c (ts.map Traffic.pass)) { bus := b })) := by
    rw [monitor_run h, run_bind_of_some hanswer]
    exact run_of_answer? hend
  refine ⟨_, hrun, fun k w f hk hf => ?_⟩
  have hplace : watchAt c k = w := by
    rw [watchAt, hk]
    rfl
  have hasked : DistinctIds (if w.enumerate then b.present else []) := by
    split
    · exact hdistinct
    · exact .nil
  have htold := tellings_watch w f hasked (changesIn (b.notices (ts.flatMap (·.events))))
  have hlines (p : Profile UsbBus) : (p.calls.map fun c => w.line (c.change, c.device)) =
      p.tellings.map w.line := by
    rw [Profile.tellings, List.map_map]
    rfl
  rw [hvoiced'.lines, hplace, hcalls k _ (hwatched.own k w f hk hf),
    offered_readable h hreadable, noticed_readable h hreadable, hlines, htold, List.map_append,
    Watch.lines]
  cases f.wants .arrived <;> simp

/-- A monitor of all devices, also of those that are there already. -/
def curious : Config where
  settings := { logLevel := "info" }
  watches := [{ name := "all", enumerate := true }]

/-- A bus with two peripherals, of which one is attached. -/
def populated : UsbBus where
  slots i := { address := if i = 0 then 1 else 2, descriptor := ⟨0x1234, 0x5678, 0⟩ }
  attached := [0]

/-- The other one arrives, which is reported twice; then the first one leaves, which is reported
    twice as well. -/
def repetition : List Traffic :=
  [{ events := [.report 1 .arrived, .report 1 .arrived] },
    { events := [.report 0 .left], error := some .interrupted }, { events := [.report 0 .left] }]

/-- Each of them is told once. -/
theorem monitor_lines_repetition :
    ∃ r, (monitor curious (repetition.map Traffic.pass)).run { bus := populated } =
        .ok (.ok ()) r ∧
      linesOf 0 r.history.toList = ["[all] + 001:001 1234:5678 class 0x00",
        "[all] + 001:002 1234:5678 class 0x00", "[all] - 001:001 1234:5678 class 0x00"] := by
  have hmonitors : Monitors curious populated := ⟨by decide +kernel, rfl, rfl, rfl, rfl⟩
  obtain ⟨r, hrun, hlines⟩ := monitor_lines hmonitors (by simp [Readable, populated])
    (by decide +kernel) repetition
  refine ⟨r, hrun, ?_⟩
  rw [hlines 0 { name := "all", enumerate := true } { enumerate := true } rfl (by decide +kernel)]
  decide +kernel

end Program

end PlugWatch
