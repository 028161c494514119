import PlugWatch.Proofs.Profile
import PlugWatch.Proofs.Tracking
import PlugWatch.Proofs.Watches

/-! # Paying attention

  A registration is **attentive** if it is held and not flagged. If its callbacks only record and
  never ask to be dropped, it stays attentive whatever it hears of. So it hears of every change, and
  under each id it has what its filter makes of the changes.
-/

namespace PlugWatch

/-- A device is expected if nothing is there under its id and the filter accepts it. -/
theorem Entry.expects_iff {β : Type} [Bus β] {e : Entry β} {d : Device} :
    e.expects d = true ↔ e.recorded? d.id = none ∧ e.filter.accepts d.descriptor = true := by
  unfold expects has
  cases e.recorded? d.id <;> simp

namespace Filter

/-- What is told of a change to whoever asks for it and has some devices, each under its id. -/
def tells? (f : Filter) (has : DeviceId → Option Device) :
    Device × Change → Option (Change × Device)
  | (d, .arrived) =>
    if f.wants .arrived = true ∧ has d.id = none ∧ f.accepts d.descriptor = true then
      some (.arrived, d)
    else none
  | (d, .left) => if f.wants .left then (has d.id).map (.left, ·) else none

/-- What is told of some changes, one after the other. -/
def tellsAll (f : Filter) : (DeviceId → Option Device) → List (Device × Change) →
    List (Change × Device)
  | _, [] => []
  | has, x :: xs => (f.tells? has x).toList ++ f.tellsAll (fun id => f.hear id (has id) x) xs

end Filter

namespace Profile

variable {β : Type} [Bus β] {g : Registration β} {p : Profile β}

/-- The profile is that of a registration that is held and not flagged. -/
structure Attentive (g : Registration β) (p : Profile β) : Prop where
  registration : p.entry.toRegistration = g
  active : p.entry.flagged = false
  held : p.held = true

theorem Attentive.keeps (hg : g.Steady) (h : Attentive g p) (d : Device) :
    (p.entry.onArrived p.entry.arrivals d).verdict = .keep := by
  have hkeeps := hg.keeps p.entry.arrivals d
  rwa [← h.registration] at hkeeps

theorem Attentive.arrive (hg : g.Steady) (h : Attentive g p) (d : Device) :
    Attentive g (p.arrive d) := by
  unfold Profile.arrive
  split
  · exact h
  · split
    · rw [h.keeps hg]
      exact ⟨h.registration, h.active, h.held⟩
    · exact ⟨h.registration, h.active, h.held⟩

theorem Attentive.depart (h : Attentive g p) (id : DeviceId) : Attentive g (p.depart id) := by
  unfold Profile.depart
  split
  · exact h
  · split
    · exact h
    · split <;> exact ⟨h.registration, h.active, h.held⟩

theorem Attentive.hear (hg : g.Steady) (h : Attentive g p) (x : Device × Change) :
    Attentive g (p.hear x) := by
  obtain ⟨d, c⟩ := x
  unfold Profile.hear
  split
  · cases c with
    | arrived => exact h.arrive hg d
    | left => exact h.depart d.id
  · exact h

/-- Who is held and not flagged is offered every change. -/
theorem Attentive.hear_eq (h : Attentive g p) (d : Device) (c : Change) :
    p.hear (d, c) = p.offer d c := by
  unfold Profile.hear Entry.active
  simp [h.held, h.active]

theorem Attentive.sweep_eq (h : Attentive g p) : p.sweep = p := by
  unfold Profile.sweep
  simp [h.active]

/-- What it has after it was offered an arrival. -/
theorem Attentive.recorded?_arrive (hg : g.Steady) (h : Attentive g p) (d : Device)
    (id : DeviceId) : (p.arrive d).entry.recorded? id =
      g.filter.hear id (p.entry.recorded? id) (d, .arrived) := by
  have hfilter : p.entry.filter = g.filter := by rw [h.registration]
  rw [← hfilter]
  cases hx : p.entry.expects d with
  | false =>
    rw [arrive_of_passed (.inr hx)]
    exact (Entry.hear_of_not_expects hx id).symm
  | true =>
    cases hc : p.entry.calls .arrived with
    | false =>
      rw [arrive_of_silent h.active hx hc]
      exact Entry.recorded?_attach hx id
    | true =>
      rw [arrive_of_kept h.active hx hc (h.keeps hg d)]
      exact Entry.recorded?_attach hx id

/-- What it has after it was offered a removal. -/
theorem Attentive.recorded?_depart (h : Attentive g p) (d : Device) (id : DeviceId) :
    (p.depart d.id).entry.recorded? id =
      g.filter.hear id (p.entry.recorded? id) (d, .left) := by
  have hfilter : p.entry.filter = g.filter := by rw [h.registration]
  rw [← hfilter]
  cases hd : p.entry.recorded? d.id with
  | none =>
    rw [depart_of_passed (.inr hd)]
    exact (Entry.hear_of_not_recorded hd id).symm
  | some d' =>
    cases hc : p.entry.calls .left with
    | false =>
      rw [depart_of_silent h.active hd hc]
      exact Entry.recorded?_detach d id
    | true =>
      rw [depart_of_told h.active hd hc]
      exact Entry.recorded?_detach d id

theorem Attentive.recorded?_hear (hg : g.Steady) (h : Attentive g p) (x : Device × Change)
    (id : DeviceId) : (p.hear x).entry.recorded? id =
      g.filter.hear id (p.entry.recorded? id) x := by
  obtain ⟨d, c⟩ := x
  rw [h.hear_eq]
  cases c with
  | arrived => exact h.recorded?_arrive hg d id
  | left => exact h.recorded?_depart d id

/-- A registration that keeps what it takes goes on hearing, and has what its filter tells. -/
theorem Attentive.hearAll (hg : g.Steady) (h : Attentive g p) (cs : List (Device × Change)) :
    Attentive g (cs.foldl Profile.hear p) ∧ ∀ id, (cs.foldl Profile.hear p).entry.recorded? id =
      g.filter.hearAll id (p.entry.recorded? id) cs := by
  induction cs generalizing p with
  | nil => exact ⟨h, fun _ => rfl⟩
  | cons c cs ih =>
    obtain ⟨hrest, hhas⟩ := ih (h.hear hg c)
    refine ⟨hrest, fun id => ?_⟩
    rw [List.foldl_cons, hhas, h.recorded?_hear hg]
    rfl

/-- The devices of a replay are arrivals that it hears of. -/
theorem Attentive.arriveAll (hg : g.Steady) (h : Attentive g p) (ds : List Device) :
    ds.foldl Profile.arrive p = (ds.map (·, Change.arrived)).foldl Profile.hear p := by
  induction ds generalizing p with
  | nil => rfl
  | cons d ds ih =>
    rw [List.foldl_cons, ih (h.arrive hg d), List.map_cons, List.foldl_cons, h.hear_eq]
    rfl

/-! ## What it is told -/

/-- The calls of a registration: which change was told of which device. -/
def tellings (p : Profile β) : List (Change × Device) :=
  p.calls.map fun c => (c.change, c.device)

theorem tellings_call (p : Profile β) (c : Change) (d : Device) (v : Verdict) :
    (p.call c d v).tellings = p.tellings ++ [(c, d)] := by
  simp [tellings, call]

@[simp] theorem tellings_attach (p : Profile β) (d : Device) :
    (p.attach d).tellings = p.tellings := rfl

@[simp] theorem tellings_detach (p : Profile β) (id : DeviceId) :
    (p.detach id).tellings = p.tellings := rfl

theorem Attentive.calls_eq (h : Attentive g p) (hboth : g.provided = .both) (c : Change) :
    p.entry.calls c = g.filter.wants c := by
  rw [← h.registration] at hboth ⊢
  unfold Entry.calls
  rw [hboth]
  cases c <;> simp [ChangeMask.has, ChangeMask.both]

/-- An arrival is told if it is expected and the filter asks for arrivals. -/
theorem Attentive.tellings_arrive (hg : g.Steady) (hboth : g.provided = .both)
    (h : Attentive g p) (d : Device) : (p.arrive d).tellings =
      p.tellings ++ (g.filter.tells? p.entry.recorded? (d, .arrived)).toList := by
  have hwants := h.calls_eq hboth .arrived
  rw [← h.registration]
  cases hx : p.entry.expects d with
  | false =>
    have hpassed : ¬ (p.entry.recorded? d.id = none ∧
        p.entry.filter.accepts d.descriptor = true) := by
      rw [← Entry.expects_iff, hx]
      simp
    rw [arrive_of_passed (.inr hx), Filter.tells?, if_neg fun hall => hpassed hall.2]
    simp
  | true =>
    have hexpected := Entry.expects_iff.mp hx
    rw [← h.registration] at hwants
    cases hc : p.entry.calls .arrived with
    | false =>
      rw [arrive_of_silent h.active hx hc, Filter.tells?, if_neg]
      · simp
      · simp [← hwants, hc]
    | true =>
      rw [arrive_of_kept h.active hx hc (h.keeps hg d), tellings_attach, tellings_call,
        Filter.tells?, if_pos ⟨by rw [← hwants, hc], hexpected⟩]
      rfl

/-- A removal is told with the device that is there, if the filter asks for removals. -/
theorem Attentive.tellings_depart (hboth : g.provided = .both) (h : Attentive g p) (d : Device) :
    (p.depart d.id).tellings =
      p.tellings ++ (g.filter.tells? p.entry.recorded? (d, .left)).toList := by
  have hwants := h.calls_eq hboth .left
  rw [Filter.tells?, ← hwants]
  cases hd : p.entry.recorded? d.id with
  | none =>
    rw [depart_of_passed (.inr hd)]
    simp
  | some d' =>
    cases hc : p.entry.calls .left with
    | false =>
      rw [depart_of_silent h.active hd hc]
      simp
    | true =>
      rw [depart_of_told h.active hd hc, release, tellings_call]
      simp

theorem Attentive.tellings_hear (hg : g.Steady) (hboth : g.provided = .both)
    (h : Attentive g p) (x : Device × Change) : (p.hear x).tellings =
      p.tellings ++ (g.filter.tells? p.entry.recorded? x).toList := by
  obtain ⟨d, c⟩ := x
  rw [h.hear_eq]
  cases c with
  | arrived => exact h.tellings_arrive hg hboth d
  | left => exact h.tellings_depart hboth d

/-- All changes are told as the filter asks for them. -/
theorem Attentive.tellings_hearAll (hg : g.Steady) (hboth : g.provided = .both)
    (h : Attentive g p) (cs : List (Device × Change)) : (cs.foldl Profile.hear p).tellings =
      p.tellings ++ g.filter.tellsAll p.entry.recorded? cs := by
  induction cs generalizing p with
  | nil => simp [Filter.tellsAll]
  | cons c cs ih =>
    have hhas : (p.hear c).entry.recorded? = fun id => g.filter.hear id (p.entry.recorded? id) c :=
      funext (h.recorded?_hear hg c)
    rw [List.foldl_cons, ih (h.hear hg c), h.tellings_hear hg hboth, hhas, List.append_assoc]
    rfl

end Profile

end PlugWatch
