import PlugWatch.Proofs.Monitoring

/-! # Removals that are reported

  A removal is told by id alone, but the listener reads the descriptor of whoever left before it
  queues anything. If the descriptor cannot be read any more, nobody hears of the removal. So a
  watch keeps a device that is gone exactly if neither the removal nor a later one was reported with
  its descriptor, and passes over whoever arrives in its place; otherwise it has nothing there, and
  takes the next device that it accepts.
-/

namespace PlugWatch

/-! ## What a watch has after notices -/

namespace Filter

open UsbBus

variable {f : Filter} {id : DeviceId} {x : Option Device} {ns : List Notice}

/-- What a watch has under an id after it was offered devices and notices came. -/
def holds? (f : Filter) (ds : List Device) (ns : List Notice) (id : DeviceId) : Option Device :=
  f.hearAll id none (ds.map (·, .arrived) ++ changesIn ns)

/-- What is left of what a watch has under an id when notices come of which none brings the device:
    nothing once a removal came with its descriptor. -/
def remains (id : DeviceId) (x : Option Device) (ns : List Notice) : Option Device :=
  if ns.any fun n => n.id == id && n.change == .left && n.device.isSome then none else x

/-- No notice brings the device. -/
def Unbrought (id : DeviceId) (ns : List Notice) : Prop :=
  ∀ n ∈ ns, n.id = id → n.change = .arrived → n.device = none

/-- No notice leads to a change of the device. -/
def Untouched (id : DeviceId) (ns : List Notice) : Prop :=
  ∀ n ∈ ns, n.id = id → n.device = none

theorem hearAll_remains (hns : ∀ n ∈ ns, n.Faithful) (h : Unbrought id ns) :
    f.hearAll id x (changesIn ns) = remains id x ns := by
  induction ns generalizing x with
  | nil => rfl
  | cons n ns ih =>
    have hrest := fun y => ih (x := y) (fun m hm => hns m (by simp [hm]))
      fun m hm => h m (by simp [hm])
    have hn := hns n (by simp)
    rw [changesIn_cons, hearAll_append, hrest]
    obtain ⟨nid, c, d?⟩ := n
    cases d? with
    | none => simp [Notice.change?, hearAll, remains]
    | some d =>
      have hid : d.id = nid := hn d rfl
      cases c with
      | left =>
        by_cases hsame : nid = id
        · simp [Notice.change?, hearAll, hear, remains, hid, hsame]
        · simp [Notice.change?, hearAll, hear, remains, hid, hsame]
      | arrived =>
        have hne : nid ≠ id := fun hsame => by
          have hnone := h ⟨nid, .arrived, some d⟩ (by simp) hsame rfl
          cases hnone
        simp [Notice.change?, hearAll, hear, remains, hid, hne]

theorem Untouched.hearAll (hns : ∀ n ∈ ns, n.Faithful) (h : Untouched id ns) :
    f.hearAll id x (changesIn ns) = x := by
  rw [hearAll_remains hns fun n hn hid _ => h n hn hid, remains, if_neg]
  simp only [List.any_eq_true, Bool.and_eq_true, beq_iff_eq, not_exists, not_and]
  intro n hn hid
  simp [h n hn hid.1]

/-- What a watch has after a removal was reported and no later notice brought the device. -/
theorem holds?_removal {ds : List Device} {before after : List Notice} {n : Notice}
    (hns : ∀ m ∈ before ++ n :: after, m.Faithful) (hn : n.change = .left)
    (h : Unbrought n.id after) : f.holds? ds (before ++ n :: after) n.id =
      remains n.id (f.holds? ds before n.id) (n :: after) := by
  unfold holds?
  rw [changesIn_append, ← List.append_assoc, hearAll_append]
  refine hearAll_remains (fun m hm => hns m (List.mem_append_right _ hm)) ?_
  intro m hm hid harrived
  rcases List.mem_cons.mp hm with rfl | hm
  · rw [hn] at harrived
    cases harrived
  · exact h m hm hid harrived

/-- What a watch has after the device was brought again. -/
theorem holds?_return {ds : List Device} {before between after : List Notice} {n a : Notice}
    {d : Device} (hns : ∀ m ∈ before ++ n :: (between ++ a :: after), m.Faithful)
    (hn : n.change = .left) (hbetween : Unbrought n.id between) (hid : a.id = n.id)
    (ha : a.change = .arrived) (hd : a.device = some d) (haccepts : f.accepts d.descriptor = true)
    (hafter : Untouched n.id after) :
    f.holds? ds (before ++ n :: (between ++ a :: after)) n.id =
      (remains n.id (f.holds? ds before n.id) (n :: between)).or (some d) := by
  have hsplit : before ++ n :: (between ++ a :: after) =
      (before ++ n :: between) ++ a :: after := by simp
  rw [hsplit] at hns ⊢
  have hfirst : f.holds? ds (before ++ n :: between) n.id =
      remains n.id (f.holds? ds before n.id) (n :: between) :=
    holds?_removal (fun m hm => hns m (List.mem_append_left _ hm)) hn hbetween
  unfold holds? at hfirst ⊢
  rw [changesIn_append, ← List.append_assoc, hearAll_append, hfirst, changesIn_cons,
    hearAll_append, hafter.hearAll fun m hm => hns m (List.mem_append_right _ (.tail _ hm))]
  have hdid : d.id = n.id := (hns a (List.mem_append_right _ (.head _)) d hd).trans hid
  have hchange : a.change? = some (d, .arrived) := by
    unfold Notice.change?
    rw [hd, ha]
    rfl
  rw [hchange]
  show f.hear n.id _ (d, .arrived) = _
  rw [hear_arrived]
  generalize remains n.id _ (n :: between) = y
  cases y with
  | none => simp [hdid, haccepts]
  | some d' => simp

end Filter

namespace Program

open Walk Registry UsbBus

variable {c : Config} {b : UsbBus} {r : Registry UsbBus} {ns : List Notice}

/-- A watch has what it was offered and what notices brought. -/
theorem Watched.holds (h : Watched c b ns r) {k : Nat} {w : Watch} {f : Filter}
    (hk : c.watches[k]? = some w) (hf : w.toFilter = .ok f) :
    ∃ e, r.entries[k]? = some e ∧ k ∈ r.listed ∧ e.toRegistration = w.registration f ∧
      e.flagged = false ∧ ∀ id, e.recorded? id = f.holds? (offered c b w k) ns id := by
  have hsteady := Watch.registration_steady (β := UsbBus) w f
  have hfresh : Profile.Attentive (w.registration f : Registration UsbBus)
      { entry := { toRegistration := w.registration f, handle := ⟨0⟩ } } := ⟨rfl, rfl, rfl⟩
  have hprofile := h.own k w f hk hf
  rw [hfresh.arriveAll hsteady, ← List.foldl_append] at hprofile
  obtain ⟨e, he, hown⟩ := Option.map_eq_some_iff.mp hprofile
  obtain ⟨hatt, hhas⟩ := hfresh.hearAll hsteady
    ((offered c b w k).map (·, Change.arrived) ++ changesIn ns)
  rw [← hown] at hatt hhas
  refine ⟨e, he, ?_, hatt.registration, hatt.active, ?_⟩
  · exact Array.contains_iff_mem.mp hatt.held
  · exact hhas

/-- What becomes of a removal that was reported. A watch still has the device afterwards exactly if
    it had it and neither this removal nor a later one was reported with its descriptor. What comes
    again then is taken if nothing was left. -/
theorem removal_reported (h : Monitors c b) (ts : List Traffic) :
    ∃ r, (midway c (ts.map Traffic.pass)).run { bus := b } = .ok () r ∧
      ∀ k w f, c.watches[k]? = some w → w.toFilter = .ok f →
        ∃ e, r.entries[k]? = some e ∧ k ∈ r.listed ∧ e.flagged = false ∧
          (∀ id, e.recorded? id = f.holds? (offered c b w k) (noticed c b ts) id) ∧
          (∀ before n after, noticed c b ts = before ++ n :: after → n.change = .left →
            Filter.Unbrought n.id after → e.recorded? n.id =
              Filter.remains n.id (f.holds? (offered c b w k) before n.id) (n :: after)) ∧
          ∀ before n between a d after, noticed c b ts = before ++ n :: (between ++ a :: after) →
            n.change = .left → Filter.Unbrought n.id between → a.id = n.id → a.change = .arrived →
            a.device = some d → f.accepts d.descriptor = true → Filter.Untouched n.id after →
            e.recorded? n.id = (Filter.remains n.id (f.holds? (offered c b w k) before n.id)
              (n :: between)).or (some d) := by
  obtain ⟨hanswer, hwatched⟩ := ends_iff_answer?.mp (midway_ends h ts)
  refine ⟨_, run_of_answer? hanswer, ?_⟩
  intro k w f hk hf
  obtain ⟨e, he, hlisted, -, hactive, hholds⟩ := hwatched.holds hk hf
  have hfaithful : ∀ n ∈ noticed c b ts, n.Faithful := faithful_notices _ _
  refine ⟨e, he, hlisted, hactive, hholds, ?_, ?_⟩
  · intro before n after hns hn hlater
    rw [hholds, hns]
    rw [hns] at hfaithful
    exact Filter.holds?_removal hfaithful hn hlater
  · intro before n between a d after hns hn hbetween hid ha hd haccepts hafter
    rw [hholds, hns]
    rw [hns] at hfaithful
    exact Filter.holds?_return hfaithful hn hbetween hid ha hd haccepts hafter

/-- A monitor of all devices that arrive. -/
def onlooker : Config where
  settings := { logLevel := "info" }
  watches := [{ name := "all", changes := [.arrived] }]

/-- A device on the bus. -/
def resident : Device :=
  ⟨.ofBusAddress 1 1, ⟨0x1234, 0x5678, 0⟩⟩

/-- Another device at the same address. -/
def successor : Device :=
  ⟨.ofBusAddress 1 1, ⟨1, 2, 3⟩⟩

/-- A bus with a peripheral whose descriptor can be read so often. -/
def fading (readable : Option Nat) : UsbBus where
  slots _ := { descriptor := resident.descriptor, readable }

/-- The peripheral arrives and leaves; then another one arrives in its place. -/
def exchange : List Traffic :=
  [{ events := [.report 0 .arrived] }, { events := [.report 0 .left] },
    { events := [.command (.define 0 { descriptor := successor.descriptor }),
      .report 0 .arrived] }]

/-- What is noticed at the address of the exchange. -/
def notice (c : Change) (d : Option Device) : Notice :=
  ⟨.ofBusAddress 1 1, c, d⟩

theorem onlooker_monitors (readable : Option Nat) : Monitors onlooker (fading readable) :=
  ⟨by decide +kernel, rfl, rfl, rfl, rfl⟩

/-- While the descriptor can be read, the removal is heard of, and so is who arrives then. -/
theorem removal_reported_exchange :
    ∃ r, (midway onlooker (exchange.map Traffic.pass)).run { bus := fading none } = .ok () r ∧
      ∃ e, r.entries[0]? = some e ∧ 0 ∈ r.listed ∧
        e.recorded? (.ofBusAddress 1 1) = some successor := by
  obtain ⟨r, hr, hwatch⟩ := removal_reported (onlooker_monitors none) exchange
  obtain ⟨e, he, hlisted, -, -, -, hreturn⟩ := hwatch 0 { name := "all", changes := [.arrived] }
    { changes := .only .arrived } rfl (by decide +kernel)
  have htaken := hreturn [notice .arrived resident] (notice .left resident) []
    (notice .arrived successor) successor [] (by decide +kernel) rfl (by simp [Filter.Unbrought])
    rfl rfl rfl (by decide) (by simp [Filter.Untouched])
  exact ⟨r, hr, e, he, hlisted, htaken⟩

/-- What the onlooker leaves after some passes. -/
theorem midway_onlooker (ts : List Traffic) :
    (midway onlooker (ts.map Traffic.pass)).run { bus := fading (some 1) } =
      .ok () (left (midway onlooker (ts.map Traffic.pass)) { bus := fading (some 1) }) :=
  run_of_answer? (ends_iff_answer?.mp (midway_ends (onlooker_monitors (some 1)) ts)).1

/-- The removal is reported and nobody hears of it: the watch keeps the device that is gone, and
    passes over the one that arrives in its place. -/
theorem removal_lost :
    noticed onlooker (fading (some 1)) exchange =
        [notice .arrived resident, notice .left none, notice .arrived successor] ∧
      (∃ r, (midway onlooker ((exchange.take 2).map Traffic.pass)).run { bus := fading (some 1) } =
        .ok () r ∧ r.listed = #[0] ∧ r.entries.map (·.attached) = #[[resident]]) ∧
      ∃ r, (midway onlooker (exchange.map Traffic.pass)).run { bus := fading (some 1) } =
        .ok () r ∧ r.listed = #[0] ∧ r.entries.map (·.attached) = #[[resident]] := by
  refine ⟨by decide +kernel, ⟨_, midway_onlooker (exchange.take 2), ?_, ?_⟩,
    ⟨_, midway_onlooker exchange, ?_, ?_⟩⟩
  all_goals decide +kernel

end Program

end PlugWatch
