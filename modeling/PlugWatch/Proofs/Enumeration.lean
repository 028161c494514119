import PlugWatch.Bus.Memory
import PlugWatch.Proofs.Profile
import PlugWatch.Proofs.Wellformed

/-! # A replay is a series of dispatches

  The devices present are replayed to a new registration by a loop of its own, which stops when the
  registration asks to be dropped. Had the registration not asked for them, and had they been
  dispatched one by one after it was made, it would have been told the same: a dispatch passes over
  a registration that is flagged. So as long as callbacks only record, both ways its profile takes
  the same arrivals.

  Of the devices under one id, a registration is told of the first that it accepts.
-/

namespace PlugWatch

/-- The first of the devices under each id. -/
def firsts : List Device → List Device
  | [] => []
  | d :: ds => d :: (firsts ds).filter (·.id != d.id)

/-- The devices of a list that a registration with the filter is to be told of. -/
def Filter.select (f : Filter) (ds : List Device) : List Device :=
  firsts (ds.filter (f.accepts ·.descriptor))

theorem Filter.select_cons (f : Filter) (d : Device) (ds : List Device) :
    f.select (d :: ds) = if f.accepts d.descriptor then
      d :: (f.select ds).filter (·.id != d.id) else f.select ds := by
  unfold select
  rw [List.filter_cons]
  split <;> rfl

/-- What is selected is, for each id, the first device that the filter accepts. -/
theorem Filter.mem_select {f : Filter} {d : Device} {ds : List Device} : d ∈ f.select ds ↔
    ds.find? (fun x => f.accepts x.descriptor && x.id == d.id) = some d := by
  induction ds with
  | nil => simp [select, firsts]
  | cons x ds ih =>
    rw [select_cons, List.find?_cons]
    by_cases ha : f.accepts x.descriptor = true
    case neg => simpa [ha] using ih
    by_cases hid : x.id = d.id
    · have hd : d ∈ x :: (f.select ds).filter (·.id != x.id) ↔ d = x := by simp [hid]
      rw [if_pos ha, hd]
      simp [ha, hid, eq_comm]
    · have hne : d ≠ x := fun heq => hid (heq ▸ rfl)
      have hother : (x.id == d.id) = false := by simpa using hid
      rw [if_pos ha, List.mem_cons, or_iff_right hne, List.mem_filter, ih, hother]
      simp [Ne.symm hid]

/-- One device is selected for each id. -/
theorem Filter.distinct_select (f : Filter) (ds : List Device) : DistinctIds (f.select ds) := by
  induction ds with
  | nil => exact .nil
  | cons d ds ih =>
    rw [select_cons]
    split
    · refine DistinctIds.cons_iff.mpr ⟨?_, ih.filter _⟩
      intro x hx
      simpa using (List.mem_filter.mp hx).2
    · exact ih

namespace Registration

variable {β : Type} [Bus β]

/-- The same registration, which asks for the devices present or does not. -/
def asking (g : Registration β) (b : Bool) : Registration β :=
  { g with filter := { g.filter with enumerate := b } }

theorem Recording.asking {g : Registration β} (hg : g.Recording) (b : Bool) :
    (g.asking b).Recording :=
  ⟨hg.arrived, hg.left⟩

/-- The calls of a registration that is told of arrivals one by one, until it asks to be dropped;
    `k` calls were made before. -/
def answers (g : Registration β) (k : Nat) : List Device → List Call
  | [] => []
  | d :: ds =>
    match (g.onArrived k d).verdict with
    | .keep => ⟨.arrived, d, some .keep⟩ :: g.answers (k + 1) ds
    | .deregister => [⟨.arrived, d, some .deregister⟩]

variable {g : Registration β} {k : Nat} {d : Device} {ds : List Device}

theorem answers_of_kept (h : (g.onArrived k d).verdict = .keep) :
    g.answers k (d :: ds) = ⟨.arrived, d, some .keep⟩ :: g.answers (k + 1) ds := by
  simp [answers, h]

theorem answers_of_dropped (h : (g.onArrived k d).verdict = .deregister) :
    g.answers k (d :: ds) = [⟨.arrived, d, some .deregister⟩] := by
  simp [answers, h]

/-- A registration that never asks to be dropped is told of all. -/
theorem answers_eq_map (h : ∀ c ∈ g.answers k ds, c.answer ≠ some .deregister) :
    g.answers k ds = ds.map fun d => ⟨.arrived, d, some .keep⟩ := by
  induction ds generalizing k with
  | nil => rfl
  | cons d ds ih =>
    cases hv : (g.onArrived k d).verdict with
    | keep =>
      rw [answers_of_kept hv] at h ⊢
      rw [List.map_cons, ih fun c hc => h c (List.mem_cons_of_mem _ hc)]
    | deregister =>
      rw [answers_of_dropped hv] at h
      exact absurd rfl (h _ List.mem_cons_self)

/-- It is told of nothing more once it has asked to be dropped. -/
theorem answers_dropped {before after : List Call} {c : Call}
    (h : g.answers k ds = before ++ c :: after) (hc : c.answer = some .deregister) :
    after = [] := by
  induction ds generalizing k before with
  | nil => simp [answers] at h
  | cons d ds ih =>
    cases hv : (g.onArrived k d).verdict with
    | keep =>
      rw [answers_of_kept hv] at h
      cases before with
      | nil =>
        obtain ⟨rfl, -⟩ := List.cons.inj h
        cases hc
      | cons b before => exact ih (List.cons.inj h).2
    | deregister =>
      rw [answers_of_dropped hv] at h
      cases before with
      | nil => exact (List.cons.inj h).2.symm
      | cons b before => simp at h

end Registration

/-! ## Arrivals in turn -/

namespace Entry

variable {β : Type} [Bus β] {e : Entry β} {d : Device}

/-- Who takes a device lacks one id less. -/
theorem not_has_attach (e : Entry β) (d : Device) (id : DeviceId) :
    (!(e.attach d).has id) = (!e.has id && id != d.id) := by
  rw [Bool.eq_iff_iff, Bool.not_eq_true', ← Bool.not_eq_true, has_attach, not_or, Bool.and_eq_true,
    Bool.not_eq_true, Bool.not_eq_true', bne_iff_ne, ne_comm]

/-- Whoever has a device under an id lacks other ids only. -/
theorem not_has_and_ne (h : e.has d.id = true) (id : DeviceId) :
    (!e.has id && id != d.id) = !e.has id := by
  cases hid : e.has id with
  | true => rfl
  | false =>
    have hne : id ≠ d.id := fun heq => by simp [heq, h] at hid
    simpa using hne

end Entry

namespace Profile

variable {β : Type} [Bus β] {p : Profile β} {d : Device} {ds : List Device}

/-- A registration that does not ask for arrivals is not called. -/
theorem calls_foldl_of_silent (hc : p.entry.calls .arrived = false) :
    (ds.foldl arrive p).calls = p.calls := by
  induction ds generalizing p with
  | nil => rfl
  | cons d ds ih =>
    rw [List.foldl_cons]
    by_cases hp : p.entry.flagged = true ∨ p.entry.expects d = false
    · rw [arrive_of_passed hp, ih hc]
    · obtain ⟨hf, hx⟩ := not_or.mp hp
      rw [arrive_of_silent (by simpa using hf) (by simpa using hx) hc]
      exact ih (p := p.attach d) hc

/-- A registration is told, one by one, of the devices that its filter selects and that it does not
    have under their ids. -/
theorem calls_foldl_arrive (hf : p.entry.flagged = false) (hc : p.entry.calls .arrived = true) :
    (ds.foldl arrive p).calls = p.calls ++ p.entry.toRegistration.answers p.entry.arrivals
      ((p.entry.filter.select ds).filter (!p.entry.has ·.id)) := by
  induction ds generalizing p with
  | nil => simp [Filter.select, firsts, Registration.answers]
  | cons d ds ih =>
    rw [List.foldl_cons, Filter.select_cons]
    by_cases ha : p.entry.filter.accepts d.descriptor = true
    case neg =>
      have hx : p.entry.expects d = false := by simp [Entry.expects, ha]
      rw [arrive_of_passed (.inr hx), if_neg ha]
      exact ih hf hc
    rw [if_pos ha]
    by_cases hh : p.entry.has d.id = true
    case pos =>
      have hx : p.entry.expects d = false := by simp [Entry.expects, hh]
      rw [arrive_of_passed (.inr hx), ih hf hc, List.filter_cons_of_neg (by simp [hh]),
        List.filter_filter]
      simp only [Entry.not_has_and_ne hh]
    have hx : p.entry.expects d = true := by simp [Entry.expects, hh, ha]
    rw [List.filter_cons_of_pos (by simpa using hh)]
    cases hv : (p.entry.onArrived p.entry.arrivals d).verdict with
    | keep =>
      let q := (p.call .arrived d .keep).attach d
      have hq : (ds.foldl arrive q).calls = q.calls ++ q.entry.toRegistration.answers
          q.entry.arrivals ((q.entry.filter.select ds).filter (!q.entry.has ·.id)) := ih hf hc
      have hlacks (x : Device) : (!q.entry.has x.id) = (!p.entry.has x.id && x.id != d.id) :=
        p.entry.not_has_attach d x.id
      simp only [hlacks] at hq
      rw [arrive_of_kept hf hx hc hv, Registration.answers_of_kept hv, List.filter_filter]
      exact hq.trans (List.append_assoc ..)
    | deregister =>
      rw [arrive_of_dropped hf hx hc hv, foldl_arrive_of_flagged rfl,
        Registration.answers_of_dropped hv]
      rfl

/-! ## Whether devices present are asked for -/

/-- The profile of a registration that asks for the devices present, or does not. -/
def asking (p : Profile β) (b : Bool) : Profile β :=
  { p with entry := { p.entry with toRegistration := p.entry.toRegistration.asking b } }

/-- Arrivals are taken alike, whether the devices present were asked for or not. -/
theorem arrive_asking (p : Profile β) (b : Bool) (d : Device) :
    (p.asking b).arrive d = (p.arrive d).asking b := by
  by_cases hp : p.entry.flagged = true ∨ p.entry.expects d = false
  · rw [arrive_of_passed hp, arrive_of_passed (p := p.asking b) hp]
  · obtain ⟨hf, hx⟩ := not_or.mp hp
    rw [Bool.not_eq_true] at hf
    rw [Bool.not_eq_false] at hx
    cases hc : p.entry.calls .arrived with
    | false =>
      rw [arrive_of_silent hf hx hc, arrive_of_silent (p := p.asking b) hf hx hc]
      rfl
    | true =>
      cases hv : (p.entry.onArrived p.entry.arrivals d).verdict with
      | keep =>
        rw [arrive_of_kept hf hx hc hv, arrive_of_kept (p := p.asking b) hf hx hc hv]
        rfl
      | deregister =>
        rw [arrive_of_dropped hf hx hc hv, arrive_of_dropped (p := p.asking b) hf hx hc hv]
        rfl

theorem foldl_arrive_asking (p : Profile β) (b : Bool) (ds : List Device) :
    ds.foldl arrive (p.asking b) = (ds.foldl arrive p).asking b :=
  List.foldl_hom (·.asking b) fun p d => arrive_asking p b d

/-- Whoever is held hears of an arrival as it takes one that is offered. -/
theorem hear_arrived (hp : p.held = true) (d : Device) : p.hear (d, .arrived) = p.arrive d := by
  unfold hear
  cases hf : p.entry.flagged with
  | true => simp [hp, Entry.active, hf, arrive_of_passed (.inl hf)]
  | false => simp [hp, Entry.active, hf, offer]

theorem held_arrive (p : Profile β) (d : Device) : (p.arrive d).held = p.held := by
  unfold arrive
  split
  · rfl
  · split
    · split <;> rfl
    · rfl

theorem foldl_hear_arrived (hp : p.held = true) (ds : List Device) :
    ds.foldl (fun p d => p.hear (d, .arrived)) p = ds.foldl arrive p := by
  induction ds generalizing p with
  | nil => rfl
  | cons d ds ih =>
    rw [List.foldl_cons, List.foldl_cons, hear_arrived hp, ih ((held_arrive p d).trans hp)]

end Profile

namespace Registry

open Walk

variable {β : Type} [Bus β] {r : Registry β} {g : Registration β} {ds : List Device}

/-! ## Dispatches in turn -/

/-- Arrivals that are dispatched one after the other are heard one after the other. -/
theorem dispatches_evolve (hr : r.Regular) (hrec : r.RecordingAt r.listed.toList)
    (ds : List Device) :
    Evolves (fun _ p => ds.foldl (fun p d => p.hear (d, .arrived)) p) r
        (r.afterAll (ds.map (.dispatch · .arrived))) ∧
      r.calm (ds.map (.dispatch · .arrived)) = true := by
  induction ds generalizing r with
  | nil => exact ⟨.refl r, rfl⟩
  | cons d ds ih =>
    let o : Operation β := .dispatch d .arrived
    have hone : Develops o.walk (fun _ p => p.hear (d, .arrived)) r :=
      (dispatch_develops hrec hr.orderly d .arrived).discard
    obtain ⟨hdone, he, -⟩ : completes o.walk r = true ∧
        Evolves (fun _ p => p.hear (d, .arrived)) r (r.after o) ∧ Murmurs r (r.after o) :=
      ends_iff_left (P := fun b r' => b = true ∧ Evolves _ r r' ∧ Murmurs r r') |>.mp hone
    have hsteps : Steps r (r.after o) := afterAll_steps r [o]
    have hr' : (r.after o).Regular := hsteps.regular hr
    have hrec' : (r.after o).RecordingAt (r.after o).listed.toList := by
      intro i hi
      have hlt := hr'.orderly.taken i (Array.mem_toList_iff.mp hi)
      rw [he.size] at hlt
      have hl := hsteps.listed (Array.mem_toList_iff.mp hi) hlt
      exact he.recordingAt hrec i (Array.mem_toList_iff.mpr hl)
    obtain ⟨hrest, hcalm⟩ := ih hr' hrec'
    exact ⟨he.trans hrest, by rw [List.map_cons, calm, hcalm, Bool.and_true]; exact hdone⟩

/-! ## Two ways to be told -/

/-- A registration that does not ask for the devices present comes in, and callbacks still only
    record. -/
theorem register_recordingAt (hr : r.Regular) (hrec : r.RecordingAt r.listed.toList)
    (hg : g.Recording) (hb : Bus.hasHotplug r.bus = true) (hc : g.check = .ok ())
    (hn : g.filter.enumerate = false) :
    let s := r.after (.register g)
    answer? (register g) r = some (.ok r.nextHandle) ∧ s.Regular ∧
      s.RecordingAt s.listed.toList ∧ s.profile? r.entries.size = some (r.newcomer g) := by
  intro s
  have hsteps : Steps r s := afterAll_steps r [.register g]
  have hgreets := ends_iff_answer?.mp (register_greets hb hc hg fun hyes => by simp [hn] at hyes)
  rw [← left_discard, greeted_of_unasked hn] at hgreets
  obtain ⟨hanswer, hprofiles⟩ : _ ∧ ∀ i, s.profile? i =
    if i = r.entries.size then some (r.newcomer g) else r.profile? i := hgreets
  refine ⟨hanswer, hsteps.regular hr, ?_, by rw [hprofiles, if_pos rfl]⟩
  intro i hi e he
  have hp := hprofiles i
  rw [profile?_eq he] at hp
  by_cases hnew : i = r.entries.size
  · rw [if_pos hnew] at hp
    have hown : e.toRegistration = g := congrArg (·.entry.toRegistration) (Option.some.inj hp)
    rwa [hown]
  · rw [if_neg hnew] at hp
    obtain ⟨e₀, he₀, hsame⟩ := Option.map_eq_some_iff.mp hp.symm
    have hreg : e₀.toRegistration = e.toRegistration := congrArg (·.entry.toRegistration) hsame
    have hl := hsteps.listed (Array.mem_toList_iff.mp hi) (lt_size_of_getElem? he₀)
    rw [← hreg]
    exact hrec i (Array.mem_toList_iff.mpr hl) e₀ he₀

/-- What a registration at a place became when devices were replayed to it (`s`), and when they
    were dispatched instead (`t`). -/
structure ToldAlike (f : Filter) (ds : List Device) (i : Nat) (s t : Registry β) : Prop where
  /-- It has the same devices, and is flagged or not. -/
  entry : ∃ e e', s.entries[i]? = some e ∧ t.entries[i]? = some e' ∧ e.attached = e'.attached ∧
    e.flagged = e'.flagged
  calls : s.calls i = t.calls i
  /-- If it never asks to be dropped, it is told once of each id, with the first device that it
      accepts. -/
  told : (∀ c ∈ s.calls i, c.answer ≠ some .deregister) → s.calls i =
    if f.wants .arrived then (f.select ds).map (⟨.arrived, ·, some .keep⟩) else []
  /-- Once it has asked to be dropped, it is told of nothing more. -/
  dropped : ∀ before c after, s.calls i = before ++ c :: after → c.answer = some .deregister →
    after = []

/-- The calls of a newcomer that takes devices. -/
theorem calls_foldl_newcomer (hr : r.Sane) (hc : g.check = .ok ()) (ds : List Device) :
    (ds.foldl Profile.arrive (r.newcomer g)).calls =
      if g.filter.wants .arrived then g.answers 0 (g.filter.select ds) else [] := by
  have hnone : (r.newcomer g).calls = [] := hr.silent _ (Nat.le_refl _)
  have hw : (r.newcomer g).entry.WellFormed := .of_check hc rfl
  have hcalls : (r.newcomer g).entry.calls .arrived = g.filter.wants .arrived :=
    hw.calls_eq .arrived
  cases hwants : g.filter.wants .arrived with
  | false => exact (Profile.calls_foldl_of_silent (hcalls.trans hwants)).trans hnone
  | true =>
    rw [Profile.calls_foldl_arrive rfl (hcalls.trans hwants), hnone, List.nil_append]
    have hall : (g.filter.select ds).filter (!(r.newcomer g).entry.has ·.id) = g.filter.select ds :=
      List.filter_eq_self.mpr fun _ _ => rfl
    exact congrArg (g.answers 0) hall

/-- Profiles that differ only in whether devices were asked for are told alike. -/
theorem toldAlike_of_profile {f : Filter} {s t : Registry β} {p : Profile β} {i : Nat} {b : Bool}
    (hs : s.profile? i = some p) (ht : t.profile? i = some (p.asking b))
    (hp : p.calls = if f.wants .arrived then g.answers 0 (f.select ds) else []) :
    ToldAlike f ds i s t := by
  obtain ⟨e, he, hep⟩ := Option.map_eq_some_iff.mp hs
  obtain ⟨e', he', hep'⟩ := Option.map_eq_some_iff.mp ht
  have hcalls : s.calls i = p.calls := congrArg Profile.calls hep
  have hcalls' : t.calls i = p.calls := congrArg Profile.calls hep'
  have hattached : e.attached = p.entry.attached := congrArg (·.entry.attached) hep
  have hattached' : e'.attached = p.entry.attached := congrArg (·.entry.attached) hep'
  have hflag : e.flagged = p.entry.flagged := congrArg (·.entry.flagged) hep
  have hflag' : e'.flagged = p.entry.flagged := congrArg (·.entry.flagged) hep'
  rw [← hcalls] at hp
  refine ⟨⟨e, e', he, he', hattached.trans hattached'.symm, hflag.trans hflag'.symm⟩,
    hcalls.trans hcalls'.symm, ?_, ?_⟩
  · intro hkeeps
    rw [hp] at hkeeps ⊢
    split
    · next hw =>
      rw [if_pos hw] at hkeeps
      exact Registration.answers_eq_map hkeeps
    · rfl
  · intro before c after hsplit hdrop
    rw [hp] at hsplit
    split at hsplit
    · exact Registration.answers_dropped hsplit hdrop
    · simp at hsplit

/-- A new registration that is told of the devices present by a replay is told what it would be
    told by dispatches, if nobody's callback does more than record. -/
theorem register_replayed (hr : r.Reachable) (hrec : r.RecordingAt r.listed.toList)
    (hg : g.Recording) (hb : Bus.hasHotplug r.bus = true) (hc : g.check = .ok ())
    (hd : (Bus.enumerate r.bus).devices = .ok ds) :
    answer? (register (g.asking true)) r = some (.ok r.nextHandle) ∧
      answer? (register (g.asking false)) r = some (.ok r.nextHandle) ∧
      (r.after (.register (g.asking false))).calm (ds.map (.dispatch · .arrived)) = true ∧
      ToldAlike g.filter ds r.entries.size (r.after (.register (g.asking true)))
        (r.afterAll (.register (g.asking false) :: ds.map (.dispatch · .arrived))) := by
  obtain ⟨b, hsteps⟩ := hr.steps
  have hregular := hsteps.regular (regular_fresh b)
  have hsane := hsteps.sane (sane_fresh b)
  let n := r.entries.size
  let s := r.after (.register (g.asking true))
  let t := r.afterAll (.register (g.asking false) :: ds.map (.dispatch · .arrived))
  let p := ds.foldl Profile.arrive (r.newcomer (g.asking true))
  -- The replay.
  have hgreets := ends_iff_answer?.mp
    (register_greets hb (g := g.asking true) hc (hg.asking true) fun _ => ⟨ds, hd⟩)
  rw [← left_discard, greeted_of_asked rfl hd] at hgreets
  obtain ⟨hanswer, hprofiles⟩ := hgreets
  have hs : s.profile? n = some p := (hprofiles n).trans (if_pos rfl)
  -- The dispatches.
  obtain ⟨hanswer', hmade, hmaderec, hnewcomer⟩ :=
    register_recordingAt (g := g.asking false) hregular hrec (hg.asking false) hb hc rfl
  obtain ⟨hevolves, hcalm⟩ := dispatches_evolve hmade hmaderec ds
  have ht : t.profile? n = some (p.asking false) := by
    have hlast := hevolves.profiles n
    rw [hnewcomer, Option.map_some, Profile.foldl_hear_arrived rfl] at hlast
    exact hlast.trans (congrArg some
      (Profile.foldl_arrive_asking (r.newcomer (g.asking true)) false ds))
  have hcalls : p.calls = if g.filter.wants .arrived then
      (g.asking true).answers 0 (g.filter.select ds) else [] :=
    calls_foldl_newcomer (g := g.asking true) hsane hc ds
  exact ⟨hanswer, hanswer', hcalm, toldAlike_of_profile hs ht hcalls⟩

/-- Devices of which some have the same id, with the same descriptor or with another one. -/
def copies : List Device :=
  [⟨⟨1⟩, ⟨1, 1, 9⟩⟩, ⟨⟨2⟩, ⟨1, 2, 3⟩⟩, ⟨⟨1⟩, ⟨1, 1, 3⟩⟩, ⟨⟨2⟩, ⟨1, 2, 3⟩⟩, ⟨⟨3⟩, ⟨1, 3, 3⟩⟩,
    ⟨⟨1⟩, ⟨1, 4, 3⟩⟩, ⟨⟨4⟩, ⟨1, 5, 3⟩⟩]

/-- A registration that prints what it is told, and asks to be dropped when it is told of a certain
    id. -/
def collector (last : DeviceId) : Registration MemoryBus where
  filter := { classCode := .exactly 3 }
  provided := .both
  onArrived _ d := .act (.print d.line) fun _ =>
    .finish (if d.id = last then .deregister else .keep)
  onLeft _ _ := .finish .keep

/-- A registration on a bus with these devices. -/
def bystander : Registry MemoryBus :=
  after { bus := { devices := copies } } (.register (.listener {}))

theorem register_replayed_copies :
    bystander.Reachable ∧ bystander.listed.toList = [0] ∧
      bystander.RecordingAt bystander.listed.toList ∧
      (∀ last, (collector last).Recording ∧ (collector last).check = .ok () ∧
        ToldAlike (collector last).filter copies 1
          (bystander.after (.register ((collector last).asking true)))
          (bystander.afterAll (.register ((collector last).asking false) ::
            copies.map (.dispatch · .arrived)))) ∧
      (bystander.after (.register ((collector ⟨3⟩).asking true))).calls 1 =
        [⟨.arrived, ⟨⟨2⟩, ⟨1, 2, 3⟩⟩, some .keep⟩, ⟨.arrived, ⟨⟨1⟩, ⟨1, 1, 3⟩⟩, some .keep⟩,
          ⟨.arrived, ⟨⟨3⟩, ⟨1, 3, 3⟩⟩, some .deregister⟩] ∧
      (bystander.after (.register ((collector ⟨7⟩).asking true))).calls 1 =
        ((collector ⟨7⟩).filter.select copies).map (⟨.arrived, ·, some .keep⟩) := by
  have hfresh : Registry.Reachable { bus := ({ devices := copies } : MemoryBus) } := .fresh _
  have hlistener : (Registration.listener {} : Registration MemoryBus).Recording :=
    ⟨fun _ _ => .finish _, fun _ _ => .finish _⟩
  have hcollector (last : DeviceId) : (collector last).Recording :=
    ⟨fun _ _ => .print _ _ (.finish _), fun _ _ => .finish _⟩
  have hrec : bystander.RecordingAt bystander.listed.toList :=
    (register_recordingAt (regular_fresh _) (by simp [RecordingAt]) hlistener rfl
      (by decide +kernel) rfl).2.2.1
  have hsize : bystander.entries.size = 1 := by decide +kernel
  have hcheck (last : DeviceId) : (collector last).check = .ok () := rfl
  have hdevices : (Bus.enumerate bystander.bus).devices = .ok copies := by decide +kernel
  have htold (last : DeviceId) := register_replayed (g := collector last)
    (hfresh.after (.register (.listener {}))) hrec (hcollector last) (by decide +kernel)
    (hcheck last) hdevices
  refine ⟨hfresh.after _, by decide +kernel, hrec, ?_, by decide +kernel, by decide +kernel⟩
  intro last
  have halike := (htold last).2.2.2
  exact ⟨hcollector last, hcheck last, hsize ▸ halike⟩

end Registry

end PlugWatch
