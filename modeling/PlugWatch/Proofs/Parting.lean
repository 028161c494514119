import PlugWatch.Proofs.Profile

/-! # The order of farewells

  A registration that is swept is told that all its devices are gone, in an order that nobody
  chooses. Here stands how little depends on it. Up to the sweep nothing does: whatever a
  registration is offered, it takes it in the same way. What the sweep makes of it is the same but
  for the calls that the sweep itself makes, and those are about the same devices.

  Two registrations that differ in this order alone are **alike** in what becomes of them.
-/

namespace PlugWatch

/-- What a call reports. -/
def Call.report (c : Call) : Change × Device :=
  (c.change, c.device)

theorem Device.Order.arrange_nil (order : Device.Order) : order.arrange [] = [] :=
  (order.arrange_perm []).eq_nil

namespace Profile

variable {β : Type} [Bus β] {p p' : Profile β} {order : Device.Order}

/-! ## Changes -/

/-- The same with another order of the devices. -/
def reordered (p : Profile β) (order : Device.Order) : Profile β :=
  { p with entry := { p.entry with order } }

theorem arrive_reordered (p : Profile β) (order : Device.Order) (d : Device) :
    (p.reordered order).arrive d = (p.arrive d).reordered order := by
  -- Nothing that is looked at depends on the order.
  have hflagged : (p.reordered order).entry.flagged = p.entry.flagged := rfl
  have hexpects : (p.reordered order).entry.expects d = p.entry.expects d := rfl
  have hcalls : (p.reordered order).entry.calls .arrived = p.entry.calls .arrived := rfl
  have hverdict : ((p.reordered order).entry.onArrived (p.reordered order).entry.arrivals d).verdict =
      (p.entry.onArrived p.entry.arrivals d).verdict := rfl
  unfold arrive
  rw [hflagged, hexpects, hcalls, hverdict]
  split
  · rfl
  · split
    · split <;> rfl
    · rfl

theorem depart_reordered (p : Profile β) (order : Device.Order) (id : DeviceId) :
    (p.reordered order).depart id = (p.depart id).reordered order := by
  have hflagged : (p.reordered order).entry.flagged = p.entry.flagged := rfl
  have hrecorded : (p.reordered order).entry.recorded? id = p.entry.recorded? id := rfl
  have hcalls : (p.reordered order).entry.calls .left = p.entry.calls .left := rfl
  unfold depart
  rw [hflagged, hrecorded, hcalls]
  split
  · rfl
  · split
    · rfl
    · split <;> rfl

theorem hear_reordered (p : Profile β) (order : Device.Order) (x : Device × Change) :
    (p.reordered order).hear x = (p.hear x).reordered order := by
  have hactive : (p.reordered order).entry.active = p.entry.active := rfl
  have hheld : (p.reordered order).held = p.held := rfl
  obtain ⟨d, c⟩ := x
  unfold hear
  rw [hactive, hheld]
  split
  · cases c with
    | arrived => exact arrive_reordered p order d
    | left => exact depart_reordered p order d.id
  · rfl

theorem foldl_reordered {α : Type} {f : Profile β → α → Profile β}
    (h : ∀ (p : Profile β) x, f (p.reordered order) x = (f p x).reordered order) (xs : List α)
    (p : Profile β) : xs.foldl f (p.reordered order) = (xs.foldl f p).reordered order := by
  induction xs generalizing p with
  | nil => rfl
  | cons x xs ih => rw [List.foldl_cons, List.foldl_cons, h, ih]

/-! ## Sweeps -/

/-- The devices of which it is told when a sweep takes it off the list. -/
def farewells (p : Profile β) : List Device :=
  if p.entry.calls .left then p.entry.attached else []

/-- Being told that devices are gone leaves calls, and nothing else but their number. -/
theorem foldl_release (p : Profile β) (ds : List Device) : ∃ cs : List Call,
    cs.map Call.report = ds.map (.left, ·) ∧ ds.foldl release p =
      { p with entry := { p.entry with removals := p.entry.removals + ds.length }
               calls := p.calls ++ cs } := by
  induction ds generalizing p with
  | nil => exact ⟨[], rfl, by simp⟩
  | cons d ds ih =>
    obtain ⟨cs, hcs, hfold⟩ := ih (p.release d)
    refine ⟨⟨.left, d, some (p.entry.onLeft p.entry.removals d).verdict⟩ :: cs, ?_, ?_⟩
    · rw [List.map_cons, hcs]
      rfl
    · rw [List.foldl_cons, hfold]
      simp [release, call, Entry.countCall, Nat.add_comm, Nat.add_left_comm]

theorem sweep_of_kept (h : ¬ (p.held && p.entry.flagged) = true) : p.sweep = p :=
  if_neg h

/-- What a sweep makes of a registration that it takes off the list. -/
theorem sweep_of_flagged (hheld : p.held = true) (hflagged : p.entry.flagged = true) :
    ∃ cs : List Call, cs.map Call.report = (p.entry.order.arrange p.farewells).map (.left, ·) ∧
      p.sweep =
        { entry := { p.entry with attached := []
                                  removals := p.entry.removals + p.farewells.length }
          held := false, calls := p.calls ++ cs } := by
  have hsweep : p.sweep = clear { p with held := false } := if_pos (by simp [hheld, hflagged])
  cases hc : p.entry.calls .left with
  | false =>
    -- It is told nothing, so there is nothing to arrange.
    have hnone : p.farewells = [] := by simp [farewells, hc]
    refine ⟨[], ?_, ?_⟩
    · rw [hnone, Device.Order.arrange_nil]
      rfl
    · simp [hsweep, clear, hc, hnone]
  | true =>
    have hall : p.farewells = p.entry.attached := by simp [farewells, hc]
    let q : Profile β := { p with entry := { p.entry with attached := [] }, held := false }
    obtain ⟨cs, hcs, hfold⟩ := q.foldl_release p.entry.parting
    refine ⟨cs, ?_, ?_⟩
    · rw [hcs, hall]
      rfl
    · have hclear : clear { p with held := false } = p.entry.parting.foldl release q := if_pos hc
      rw [hsweep, hclear, hfold, hall, p.entry.parting_perm.length_eq]

/-! ## Faring alike -/

/-- What becomes of a registration, and of the same one with another order of the devices. They are
    the same in everything else until a sweep takes them off the list. The sweep tells each that its
    devices are gone, in the order that it has, and nothing comes after it. -/
inductive Alike (order : Device.Order) : Profile β → Profile β → Prop where
  | unswept (p : Profile β) : Alike order p (p.reordered order)
  | swept (p : Profile β) : p.held = true → p.entry.flagged = true →
      Alike order p.sweep (p.reordered order).sweep

theorem Alike.sweep (p : Profile β) (order : Device.Order) :
    Alike order p.sweep (p.reordered order).sweep := by
  by_cases h : (p.held && p.entry.flagged) = true
  · rw [Bool.and_eq_true] at h
    exact .swept p h.1 h.2
  · rw [sweep_of_kept h, sweep_of_kept (p := p.reordered order) h]
    exact .unswept p

/-- What they have been told is the same, up to the order in which they were told last that the same
    devices are gone. -/
structure Agrees (order : Device.Order) (p p' : Profile β) : Prop where
  held : p'.held = p.held
  entry : p'.entry = { p.entry with order }
  calls : ∃ past last last' ds, p.calls = past ++ last ∧ p'.calls = past ++ last' ∧
    last.map Call.report = (p.entry.order.arrange ds).map (.left, ·) ∧
    last'.map Call.report = (order.arrange ds).map (.left, ·) ∧ (p.held = true → ds = [])

theorem Alike.agrees (h : Alike order p p') : Agrees order p p' := by
  cases h with
  | unswept =>
    -- All calls lie in the past.
    refine ⟨rfl, rfl, p.calls, [], [], [], ?_⟩
    simp [reordered, Device.Order.arrange_nil]
  | swept s hheld hflagged =>
    obtain ⟨cs, hcs, hs⟩ := sweep_of_flagged hheld hflagged
    obtain ⟨cs', hcs', hs'⟩ := sweep_of_flagged (p := s.reordered order) hheld hflagged
    -- What was heard before the sweep is the same, and the sweep adds the farewells.
    rw [hs, hs']
    refine ⟨rfl, rfl, s.calls, cs, cs', s.farewells, rfl, rfl, hcs, hcs', ?_⟩
    intro hheld
    cases hheld

end Profile

end PlugWatch
