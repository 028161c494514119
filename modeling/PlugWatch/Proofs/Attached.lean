import PlugWatch.Registry
import Mathlib.Data.List.Nodup

/-! # The devices of a registration

  The attached devices are kept in the order of their ids, but what counts is which they are.
  Here stands what attaching and detaching do to them, and what a valid registration can be told.
-/

namespace PlugWatch

theorem insertDevice_perm (d : Device) (ds : List Device) :
    (insertDevice d ds).Perm (d :: ds) := by
  induction ds with
  | nil => exact List.Perm.refl _
  | cons e es ih =>
    unfold insertDevice
    split
    · exact List.Perm.refl _
    · exact (ih.cons e).trans (List.Perm.swap d e es)

@[simp] theorem mem_insertDevice {d x : Device} {ds : List Device} :
    x ∈ insertDevice d ds ↔ x = d ∨ x ∈ ds := by
  rw [(insertDevice_perm d ds).mem_iff, List.mem_cons]

/-- No two devices have the same id. -/
def DistinctIds (ds : List Device) : Prop :=
  (ds.map (·.id)).Nodup

instance (ds : List Device) : Decidable (DistinctIds ds) :=
  inferInstanceAs (Decidable (ds.map (·.id)).Nodup)

namespace DistinctIds

theorem nil : DistinctIds [] := List.nodup_nil

theorem cons_iff {d : Device} {ds : List Device} :
    DistinctIds (d :: ds) ↔ (∀ x ∈ ds, x.id ≠ d.id) ∧ DistinctIds ds := by
  simp [DistinctIds, List.nodup_cons]

theorem filter {ds : List Device} (h : DistinctIds ds) (t : Device → Bool) :
    DistinctIds (ds.filter t) := by
  have hsub : ((ds.filter t).map (·.id)).Sublist (ds.map (·.id)) := List.filter_sublist.map _
  exact List.Nodup.sublist hsub h

/-- The order does not matter. -/
theorem perm {ds ds' : List Device} (h : DistinctIds ds) (hp : ds'.Perm ds) : DistinctIds ds' :=
  (hp.map _).nodup_iff.mpr h

/-- Devices with the same id are the same. -/
theorem eq {ds : List Device} (h : DistinctIds ds) {d x : Device} (hd : d ∈ ds) (hx : x ∈ ds)
    (hid : x.id = d.id) : x = d :=
  List.inj_on_of_nodup_map h hx hd hid

theorem insertDevice {ds : List Device} (h : DistinctIds ds) {d : Device}
    (hd : ∀ x ∈ ds, x.id ≠ d.id) : DistinctIds (insertDevice d ds) := by
  have hcons : DistinctIds (d :: ds) := cons_iff.mpr ⟨hd, h⟩
  exact hcons.perm (insertDevice_perm d ds)

end DistinctIds

namespace Entry

variable {β : Type} [Bus β] {e : Entry β}

theorem has_iff {id : DeviceId} : e.has id = true ↔ ∃ d ∈ e.attached, d.id = id := by
  simp [has, recorded?]

theorem not_has_iff {id : DeviceId} : e.has id = false ↔ ∀ d ∈ e.attached, d.id ≠ id := by
  rw [← Bool.not_eq_true, has_iff]
  simp

/-- It is told of all its devices, and of no others. -/
theorem parting_perm (e : Entry β) : e.parting.Perm e.attached :=
  e.order.arrange_perm e.attached

theorem has_attach {d : Device} {id : DeviceId} :
    (e.attach d).has id = true ↔ e.has id = true ∨ d.id = id := by
  rw [has_iff, has_iff]
  simp [attach, or_comm]

theorem recorded?_eq_some {id : DeviceId} {d : Device} (h : e.recorded? id = some d) :
    d ∈ e.attached ∧ d.id = id := by
  refine ⟨List.mem_of_find?_eq_some h, ?_⟩
  simpa using List.find?_some h

theorem recorded?_eq_none {id : DeviceId} : e.recorded? id = none ↔ e.has id = false := by
  simp [has]

end Entry

/-- A valid registration has a callback for every change it asks for. -/
theorem Registration.provided_of_check {β : Type} [Bus β] {g : Registration β}
    (h : g.check = .ok ()) {c : Change} (hc : g.filter.wants c = true) :
    g.provided.has c = true := by
  have hcallbacks : g.checkCallbacks = .ok () := by
    unfold check at h
    cases hv : g.filter.validate with
    | error fault =>
      rw [hv] at h
      cases h
    | ok u =>
      rw [hv] at h
      exact h
  unfold checkCallbacks at hcallbacks
  split at hcallbacks
  · cases hcallbacks
  · next harr =>
    split at hcallbacks
    · cases hcallbacks
    · next hleft =>
      cases c <;> simp_all

/-- A valid registration that asks for both changes is called for both. -/
theorem Entry.calls_of_check {β : Type} [Bus β] {e : Entry β} (h : e.check = .ok ())
    (hb : e.filter.changes = .both) (c : Change) : e.calls c = true := by
  have hwants : e.filter.wants c = true := by
    rw [Filter.wants, hb, ChangeMask.covers_only]
    cases c <;> rfl
  simp [Entry.calls, hwants, Registration.provided_of_check h hwants]

end PlugWatch
