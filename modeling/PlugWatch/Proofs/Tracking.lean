import PlugWatch.Bus.Memory
import PlugWatch.Proofs.Attached
import PlugWatch.Proofs.Walk
import Mathlib.Data.List.Induction
import Mathlib.Data.List.Infix

/-! # What is heard of a bus

  The list of a bus is the result of the changes made to it. A registration that is told of changes
  has, under each id, the result of what it **hears**: an arrival that it accepts counts if it has
  nothing there, a removal always counts.

  If no two devices on the bus have the same id at any time, two things are true:

  * whoever has the right devices and hears of all changes has the right devices again;
  * whoever has the right devices *after* some changes may be told of them once more, late and in
    order, and ends up with the right devices. A replay followed by the changes that were still
    queued when it was made is of this kind.
-/

namespace PlugWatch

/-! ## Lists of devices -/

/-- Who arrives last has an id of its own. -/
theorem DistinctIds.absent_of_concat {ds : List Device} {d : Device} (h : DistinctIds (ds ++ [d])) :
    ∀ x ∈ ds, x.id ≠ d.id := by
  have hperm := (List.perm_append_singleton d ds).map (·.id)
  have hcons : DistinctIds (d :: ds) := hperm.nodup_iff.mp h
  exact (DistinctIds.cons_iff.mp hcons).1

/-- A device is found under its id exactly if it is there. -/
theorem DistinctIds.find?_eq_some {ds : List Device} (h : DistinctIds ds) {d : Device} :
    ds.find? (·.id == d.id) = some d ↔ d ∈ ds := by
  constructor
  · exact List.mem_of_find?_eq_some
  · intro hd
    cases hx : ds.find? (·.id == d.id) with
    | none => simpa using List.find?_eq_none.mp hx d hd
    | some x =>
      have hid : x.id = d.id := by simpa using List.find?_some hx
      rw [h.eq hd (List.mem_of_find?_eq_some hx) hid]

/-- Who is taken off leaves nothing under its id. -/
theorem DistinctIds.absent_of_eraseP {ds : List Device} (h : DistinctIds ds) (id : DeviceId) :
    ∀ x ∈ ds.eraseP (·.id == id), x.id ≠ id := by
  induction ds with
  | nil => simp
  | cons d ds ih =>
    obtain ⟨hd, hds⟩ := DistinctIds.cons_iff.mp h
    intro x hx hxid
    by_cases hid : d.id = id
    · rw [List.eraseP_cons_of_pos (by simpa using hid)] at hx
      exact hd x hx (hxid.trans hid.symm)
    · rw [List.eraseP_cons_of_neg (by simpa using hid)] at hx
      cases List.mem_cons.mp hx with
      | inl heq => exact hid (heq ▸ hxid)
      | inr hx => exact ih hds x hx hxid

/-- Who is taken off leaves what is there under other ids. -/
theorem find?_eraseP_of_ne {id id' : DeviceId} (hne : id' ≠ id) (ds : List Device) :
    (ds.eraseP (·.id == id')).find? (·.id == id) = ds.find? (·.id == id) := by
  induction ds with
  | nil => rfl
  | cons d ds ih =>
    by_cases hid : d.id = id'
    · have hnot : ¬ (d.id == id) = true := by
        rw [hid]
        simpa using hne
      rw [List.eraseP_cons_of_pos (by simpa using hid),
        List.find?_cons_of_neg (p := fun x : Device => x.id == id) hnot]
    · rw [List.eraseP_cons_of_neg (by simpa using hid), List.find?_cons, List.find?_cons, ih]

/-! ## The bus -/

namespace MemoryBus

/-- The devices of a bus after a change. -/
def alter (ds : List Device) : Device × Change → List Device
  | (d, .arrived) => ds ++ [d]
  | (d, .left) => ds.eraseP (·.id == d.id)

/-- The devices of a bus after some changes. -/
def alterAll (ds : List Device) (cs : List (Device × Change)) : List Device :=
  cs.foldl alter ds

theorem alterAll_append (ds : List Device) (cs cs' : List (Device × Change)) :
    alterAll ds (cs ++ cs') = alterAll (alterAll ds cs) cs' :=
  List.foldl_append

theorem alterAll_concat (ds : List Device) (cs : List (Device × Change)) (c : Device × Change) :
    alterAll ds (cs ++ [c]) = alter (alterAll ds cs) c := by
  rw [alterAll_append]
  rfl

theorem alterAll_arrived (ds ds' : List Device) :
    alterAll ds (ds'.map (·, .arrived)) = ds ++ ds' := by
  induction ds' generalizing ds with
  | nil => simp [alterAll]
  | cons d ds' ih =>
    show alterAll (ds ++ [d]) (ds'.map (·, .arrived)) = _
    rw [ih, List.append_assoc]
    rfl

/-- No two devices have the same id, at any time while changes are made. -/
def Distinctly (ds : List Device) (cs : List (Device × Change)) : Prop :=
  ∀ cs', cs' <+: cs → DistinctIds (alterAll ds cs')

instance (ds : List Device) (cs : List (Device × Change)) : Decidable (Distinctly ds cs) :=
  decidable_of_iff (∀ cs' ∈ cs.inits, DistinctIds (alterAll ds cs')) (by
    simp only [List.mem_inits]
    rfl)

theorem Distinctly.of_prefix {ds : List Device} {cs cs' : List (Device × Change)}
    (h : Distinctly ds cs) (hp : cs' <+: cs) : Distinctly ds cs' :=
  fun cs'' hp' => h cs'' (hp'.trans hp)

/-- What is true at every time is true from some time on. -/
theorem Distinctly.of_append {ds : List Device} {cs cs' : List (Device × Change)}
    (h : Distinctly ds (cs ++ cs')) : Distinctly (alterAll ds cs) cs' := by
  intro cs'' hp
  rw [← alterAll_append]
  exact h _ ((List.prefix_append_right_inj cs).mpr hp)

theorem Distinctly.done {ds : List Device} {cs : List (Device × Change)} (h : Distinctly ds cs) :
    DistinctIds (alterAll ds cs) :=
  h cs (List.prefix_refl cs)

/-- Devices with different ids may arrive one by one. -/
theorem distinctly_arrived {ds : List Device} (h : DistinctIds ds) :
    Distinctly [] (ds.map (·, .arrived)) := by
  intro cs' hp
  -- A beginning of the arrivals is the arrivals of a beginning.
  obtain ⟨n, rfl⟩ : ∃ n, cs' = (ds.map (·, Change.arrived)).take n :=
    ⟨cs'.length, List.prefix_iff_eq_take.mp hp⟩
  rw [← List.map_take, alterAll_arrived, List.nil_append]
  exact List.Nodup.sublist ((List.take_sublist n ds).map _) h

/-- What a command does to the devices is what it says. -/
theorem devices_perform (c : Command) (b : MemoryBus) :
    (perform c b).2.devices = alterAll b.devices (changes c b) := by
  cases c with
  | plug d => rfl
  | plugAll ds => exact (alterAll_arrived b.devices ds).symm
  | unplug id =>
    show b.devices.eraseP (·.id == id) = alterAll b.devices ((b.unplug id).1.toList.map (·, .left))
    unfold unplug
    cases hd : b.devices.find? (·.id == id) with
    | none =>
      have hnone : ∀ d ∈ b.devices, ¬ (d.id == id) = true := by simpa using hd
      exact List.eraseP_of_forall_not hnone
    | some d =>
      have hid : d.id = id := by simpa using List.find?_some hd
      rw [← hid]
      rfl
  | setSupported v => rfl
  | setFailing v => rfl

end MemoryBus

/-! ## Hearing -/

namespace Filter

open MemoryBus

variable {f : Filter} {ds : List Device} {cs : List (Device × Change)} {id : DeviceId} {d : Device}

/-- What a registration with a filter has under an id after it was told of a change. -/
def hear (f : Filter) (id : DeviceId) (x : Option Device) : Device × Change → Option Device
  | (d, .arrived) => if d.id = id ∧ x = none ∧ f.accepts d.descriptor = true then some d else x
  | (d, .left) => if d.id = id then none else x

theorem hear_arrived (x : Option Device) : f.hear id x (d, .arrived) =
    if d.id = id ∧ x = none ∧ f.accepts d.descriptor = true then some d else x := rfl

theorem hear_left (x : Option Device) :
    f.hear id x (d, .left) = if d.id = id then none else x := rfl

/-- What a registration with a filter has under an id after it was told of some changes. -/
def hearAll (f : Filter) (id : DeviceId) (x : Option Device) (cs : List (Device × Change)) :
    Option Device :=
  cs.foldl (f.hear id) x

/-- What a registration with a filter is to have under an id. -/
def wanted? (f : Filter) (ds : List Device) (id : DeviceId) : Option Device :=
  (ds.find? (·.id == id)).filter (f.accepts ·.descriptor)

theorem hearAll_append (x : Option Device) (cs cs' : List (Device × Change)) :
    f.hearAll id x (cs ++ cs') = f.hearAll id (f.hearAll id x cs) cs' :=
  List.foldl_append

theorem hearAll_concat (x : Option Device) (cs : List (Device × Change)) (c : Device × Change) :
    f.hearAll id x (cs ++ [c]) = f.hear id (f.hearAll id x cs) c := by
  rw [hearAll_append]
  rfl

/-- Changes under other ids do not count. -/
theorem hear_of_ne {c : Device × Change} (x : Option Device) (h : c.1.id ≠ id) :
    f.hear id x c = x := by
  obtain ⟨d, c⟩ := c
  have hne : d.id ≠ id := h
  cases c <;> simp [hear, hne]

theorem wanted?_of_absent (h : ∀ d ∈ ds, d.id ≠ id) : f.wanted? ds id = none := by
  have hnone : ds.find? (·.id == id) = none := by simpa using h
  simp [wanted?, hnone]

/-- A device is wanted exactly if it is there and accepted. -/
theorem wanted?_eq_some (h : DistinctIds ds) :
    f.wanted? ds d.id = some d ↔ d ∈ ds ∧ f.accepts d.descriptor = true := by
  rw [wanted?, Option.filter_eq_some_iff, h.find?_eq_some]

/-! ## Devices with different ids -/

/-- Who has the right devices and hears of a change has the right devices. -/
theorem wanted?_alter {c : Device × Change} (h : DistinctIds ds) (h' : DistinctIds (alter ds c)) :
    f.wanted? (alter ds c) id = f.hear id (f.wanted? ds id) c := by
  obtain ⟨d, c⟩ := c
  cases c with
  | arrived =>
    show f.wanted? (ds ++ [d]) id = _
    by_cases hid : d.id = id
    · -- Nothing is there under its id yet.
      have habsent : ∀ x ∈ ds, x.id ≠ id := hid ▸ h'.absent_of_concat
      have hfind : ds.find? (·.id == id) = none := by simpa using habsent
      rw [wanted?_of_absent habsent]
      by_cases ha : f.accepts d.descriptor = true
      · simp [wanted?, hear, hfind, hid, ha]
      · simp [wanted?, hear, hfind, hid, ha]
    · rw [hear_of_ne _ hid]
      have hbeq : (d.id == id) = false := by simpa using hid
      simp [wanted?, hbeq]
  | left =>
    show f.wanted? (ds.eraseP (·.id == d.id)) id = _
    by_cases hid : d.id = id
    · subst hid
      rw [wanted?_of_absent (h.absent_of_eraseP d.id)]
      simp [hear]
    · rw [hear_of_ne _ hid]
      rw [wanted?, find?_eraseP_of_ne hid ds]
      rfl

/-- Who has the right devices and hears of all changes has the right devices. -/
theorem wanted?_alterAll (h : Distinctly ds cs) :
    f.wanted? (alterAll ds cs) id = f.hearAll id (f.wanted? ds id) cs := by
  induction cs using List.reverseRecOn with
  | nil => rfl
  | append_singleton cs c ih =>
    have hcs : Distinctly ds cs := h.of_prefix (List.prefix_append cs [c])
    have hdone := h.done
    rw [alterAll_concat] at hdone ⊢
    rw [wanted?_alter hcs.done hdone, ih hcs, hearAll_concat]

/-- Who has nothing and hears of devices with different ids has the right ones of them. -/
theorem hearAll_arrived (h : DistinctIds ds) :
    f.hearAll id none (ds.map (·, .arrived)) = f.wanted? ds id := by
  have hall : f.wanted? (alterAll [] (ds.map (·, .arrived))) id =
      f.hearAll id none (ds.map (·, .arrived)) := wanted?_alterAll (distinctly_arrived h)
  rw [alterAll_arrived, List.nil_append] at hall
  exact hall.symm

/-- Who hears of changes that leave nothing under an id has nothing there, or what it had. -/
theorem hearAll_of_absent (x : Option Device) (h : ∀ d ∈ alterAll ds cs, d.id ≠ id) :
    f.hearAll id x cs = x ∨ f.hearAll id x cs = none := by
  induction cs using List.reverseRecOn with
  | nil => exact .inl rfl
  | append_singleton cs c ih =>
    rw [alterAll_concat] at h
    rw [hearAll_concat]
    obtain ⟨d, c⟩ := c
    by_cases hid : d.id = id
    · cases c with
      | arrived => exact absurd hid (h d (by simp [alter]))
      | left => exact .inr (by simp [hear, hid])
    · rw [hear_of_ne _ hid]
      apply ih
      intro x hx hxid
      cases c with
      | arrived => exact h x (by simp [alter, hx]) hxid
      | left =>
        have hne : ¬ (x.id == d.id) = true := by
          rw [hxid]
          simpa using fun heq => hid heq.symm
        have hmem : x ∈ (alterAll ds cs).eraseP (·.id == d.id) :=
          (List.mem_eraseP_of_neg (p := fun x : Device => x.id == d.id) hne).mpr hx
        exact h x hmem hxid

/-- Who has the right devices after some changes may be told of these changes once more. -/
theorem hearAll_wanted? (h : Distinctly ds cs) :
    f.hearAll id (f.wanted? (alterAll ds cs) id) cs = f.wanted? (alterAll ds cs) id := by
  induction cs using List.reverseRecOn with
  | nil => rfl
  | append_singleton cs c ih =>
    have hcs : Distinctly ds cs := h.of_prefix (List.prefix_append cs [c])
    have hdone := h.done
    rw [alterAll_concat] at hdone ⊢
    -- The last change decides what is there under its id, and leaves other ids as they were.
    have hlast : f.wanted? (alter (alterAll ds cs) c) id =
        f.hear id (f.wanted? (alterAll ds cs) id) c := wanted?_alter hcs.done hdone
    rw [hearAll_concat]
    by_cases hid : c.1.id = id
    · obtain ⟨d, c⟩ := c
      have hid : d.id = id := hid
      cases c with
      | left =>
        have hnone (x : Option Device) : f.hear id x (d, .left) = none := if_pos hid
        rw [hlast, hnone, hnone]
      | arrived =>
        -- Before it arrived nothing was there, whatever was heard.
        have habsent : ∀ x ∈ alterAll ds cs, x.id ≠ id := hid ▸ hdone.absent_of_concat
        rw [wanted?_of_absent habsent] at hlast
        rw [hlast]
        rcases hearAll_of_absent (f := f) (f.hear id none (d, .arrived)) habsent with heq | heq
        · rw [heq]
          by_cases ha : f.accepts d.descriptor = true
          · simp [hear, ha]
          · simp [hear, ha]
        · rw [heq]
    · rw [hear_of_ne _ hid] at hlast ⊢
      rw [hlast]
      exact ih hcs

end Filter

/-! ## Registrations that hear -/

/-- A device that is put among others with other ids is found, and so are they. -/
theorem find?_insertDevice {d : Device} {ds : List Device} (h : ∀ x ∈ ds, x.id ≠ d.id)
    (id : DeviceId) : (insertDevice d ds).find? (·.id == id) =
      if d.id = id then some d else ds.find? (·.id == id) := by
  induction ds with
  | nil => by_cases hid : d.id = id <;> simp [insertDevice, hid]
  | cons e ds ih =>
    have hne : e.id ≠ d.id := h e (by simp)
    have hrest := ih fun x hx => h x (by simp [hx])
    unfold insertDevice
    split
    · by_cases hid : d.id = id <;> simp [List.find?_cons, hid]
    · by_cases hid : d.id = id
      · have hne' : ¬ e.id = id := fun heq => hne (heq.trans hid.symm)
        simpa [List.find?_cons, hid, hne'] using hrest
      · simp [List.find?_cons, hid] at hrest ⊢
        rw [hrest]

namespace Entry

variable {β : Type} [Bus β] {e : Entry β} {d : Device}

/-- A registration that takes a device has what it has when it hears of the arrival. -/
theorem recorded?_attach (h : e.expects d = true) (id : DeviceId) :
    (e.attach d).recorded? id = e.filter.hear id (e.recorded? id) (d, .arrived) := by
  have hexpects : e.has d.id = false ∧ e.filter.accepts d.descriptor = true := by
    simpa [expects] using h
  have hfind := find?_insertDevice (not_has_iff.mp hexpects.1) id
  show (insertDevice d e.attached).find? (·.id == id) = _
  rw [hfind, Filter.hear_arrived]
  by_cases hid : d.id = id
  · have hnone : e.recorded? id = none := by
      rw [← hid]
      exact recorded?_eq_none.mpr hexpects.1
    rw [if_pos hid, if_pos ⟨hid, hnone, hexpects.2⟩]
  · rw [if_neg hid, if_neg fun h' => hid h'.1]
    rfl

/-- An arrival that is passed over is none that it would hear of. -/
theorem hear_of_not_expects (h : e.expects d = false) (id : DeviceId) :
    e.filter.hear id (e.recorded? id) (d, .arrived) = e.recorded? id := by
  by_cases hid : d.id = id
  · have hcases : ¬ (e.recorded? id = none ∧ e.filter.accepts d.descriptor = true) := by
      rintro ⟨hnone, ha⟩
      have hhas : e.has d.id = false := by
        rw [hid]
        exact recorded?_eq_none.mp hnone
      simp [expects, hhas, ha] at h
    rw [Filter.hear_arrived, if_neg fun hall => hcases hall.2]
  · exact Filter.hear_of_ne _ hid

/-- A registration that gives up a device has what it has when it hears of the removal. -/
theorem recorded?_detach (d : Device) (id : DeviceId) :
    (e.detach d.id).recorded? id = e.filter.hear id (e.recorded? id) (d, .left) := by
  by_cases hid : d.id = id
  · subst hid
    have hnone : (e.detach d.id).recorded? d.id = none := by
      rw [recorded?_eq_none, not_has_iff]
      intro x hx
      simpa using (List.mem_filter.mp hx).2
    rw [Filter.hear_left, if_pos rfl]
    exact hnone
  · rw [Filter.hear_of_ne _ hid]
    show (e.attached.filter (·.id != d.id)).find? (·.id == id) = e.attached.find? (·.id == id)
    rw [List.find?_filter]
    congr 1
    funext x
    by_cases hx : x.id = id
    · have hne : ¬ id = d.id := fun heq => hid heq.symm
      simp [hx, hne]
    · simp [hx]

/-- A removal that is passed over is none that it would hear of. -/
theorem hear_of_not_recorded (h : e.recorded? d.id = none) (id : DeviceId) :
    e.filter.hear id (e.recorded? id) (d, .left) = e.recorded? id := by
  by_cases hid : d.id = id
  · rw [Filter.hear_left, if_pos hid, ← hid, h]
  · exact Filter.hear_of_ne _ hid

end Entry

end PlugWatch
