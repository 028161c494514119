import PlugWatch.Proofs.Delivery

/-! # What scripts lead to

  Some relations between an earlier and a later state of the registry join up, and hold of anything
  that a script can do in one go: an action, a registration that is listed, taken off again or about
  to be replayed to, a call from its beginning to its end. Such a relation **governs** scripts: it
  holds between the states before and after any script that ends, however deep its callbacks are
  nested. The same is then true of the callbacks of a sweep.

  A call is one thing here, not two. So a relation may be about what is the case when no call is
  under way, which single moves do not keep.
-/

namespace PlugWatch

namespace Registry

open Walk

variable {β : Type} [Bus β] {α : Type} {R : Registry β → Registry β → Prop} {r r' : Registry β}

/-- A relation that scripts cannot help but obey. -/
structure Governs (R : Registry β → Registry β → Prop) : Prop where
  refl : ∀ r, R r r
  trans : ∀ {r r' r'' : Registry β}, R r r' → R r' r'' → R r r''
  perform : ∀ r (a : Action β), R r (r.perform a).2
  log : ∀ r level message, R r (r.log level message)
  /-- The devices of a registration change. -/
  alter : ∀ r (i : Nat) {f : Entry β → Entry β}, (∀ e : Entry β, e.Ages (f e)) →
    R r (r.update i f)
  dismiss : ∀ r i id, R r (r.dismiss i id)
  /-- A call is made and returns. -/
  call : ∀ {r r' : Registry β} {i c d}, R (r.enter i c d) r' →
    ∀ v, R r (r'.record (.answered i c d v))
  listed : ∀ r (g : Registration β), g.filter.enumerate = false → R r (r.enlist g)
  failed : ∀ r (g : Registration β), g.filter.enumerate = true → ∀ why,
    R r ((r.enlist g).enumerate.2.rollBack r.entries.size r.nextHandle why)
  begun : ∀ r (g : Registration β), g.filter.enumerate = true → ∀ ds,
    R r ((r.enlist g).enumerate.2.beginReplay r.entries.size r.nextHandle ds)

/-- Unless it is cut short, a walk leads to a registry that is related to the first. -/
def Leads (R : Registry β → Registry β → Prop) (w : Walk β α) (r : Registry β) : Prop :=
  w.Ends (fun o r' => o.isSome = true → R r r') r

section Governed

variable (hR : Governs R)

include hR

/-- What was done before a walk. -/
theorem Leads.after {w : Walk β α} (h : Leads R w r') (hr : R r r') :
    w.Ends (fun o r'' => o.isSome = true → R r r'') r' := by
  apply Ends.mono h
  intro o s hs hsome
  exact hR.trans hr (hs hsome)

section Callback

variable {f : Nat → Device → Walk β Verdict} (hf : ∀ k d r, Leads R (f k d) r)

include hf

theorem offerArrival_leads (i : Nat) (d : Device) (r : Registry β) :
    Leads R (offerArrival i f d) r := by
  apply offerArrival_ends
  · exact fun _ _ => hR.refl r
  · exact fun _ _ _ _ => hR.refl r
  · exact fun _ _ _ _ _ _ => hR.alter r i fun e => ⟨rfl, rfl, id⟩
  · intro e _ _ _ _
    apply Ends.mono (hf e.arrivals d _)
    intro o s h
    match o with
    | none => exact fun hsome => absurd hsome (by simp)
    | some .keep =>
      intro _
      have hcall := hR.call (h rfl) .keep
      exact hR.trans hcall (hR.alter _ i fun e => ⟨rfl, rfl, id⟩)
    | some .deregister =>
      intro _
      have hcall := hR.call (h rfl) .deregister
      exact hR.trans hcall (hR.dismiss _ i d.id)

theorem replay_leads (i : Nat) (ds : List Device) (r : Registry β) :
    Leads R (replay i f ds) r := by
  induction ds generalizing r with
  | nil => exact replay_nil_ends.mpr fun _ => hR.refl r
  | cons d ds ih =>
    refine replay_cons_ends.mpr (Ends.mono (offerArrival_leads hR hf i d r) fun o s h => ?_)
    match o with
    | none => exact fun hsome => absurd hsome (by simp)
    | some .dropped => exact fun _ => h rfl
    | some .ignored => exact (ih s).after hR (h rfl)
    | some .attached => exact (ih s).after hR (h rfl)

theorem registerWith_leads (g : Registration β) (r : Registry β) :
    Leads R (registerWith g f) r := by
  apply registerWith_decides
  · exact fun _ _ => hR.refl r
  · exact fun _ _ _ _ => hR.refl r
  · exact fun _ _ hn _ => hR.listed r g hn
  · exact fun _ _ hn why _ _ => hR.failed r g hn why
  · intro _ _ hn ds _
    apply Ends.mono ((replay_leads hR hf r.entries.size ds _).after hR (hR.begun r g hn ds))
    intro o r' h hsome
    exact h (by simpa using hsome)

end Callback

/-! ## Scripts -/

theorem run_leads (s : Script β) (r : Registry β) : Leads R (run s) r := by
  induction s generalizing r with
  | finish v => exact fun _ => hR.refl r
  | panic => exact fun hsome => absurd hsome (by simp)
  | act a next ih =>
    show Ends (run (.act a next)) _ r
    rw [run, ends_bind, ends_modifyGet, before_some]
    exact (ih _ _).after hR (hR.perform r a)
  | register filter provided onArrived onLeft next order ihA _ ihN =>
    show Ends (run (.register filter provided onArrived onLeft next order)) _ r
    rw [run, ends_bind]
    apply Ends.mono (registerWith_leads hR ihA _ r)
    intro o s h
    cases o with
    | none => exact fun hsome => absurd hsome (by simp)
    | some reply => exact (ihN reply s).after hR (h rfl)

/-! ## Sweeps -/

theorem release_leads (i : Nat) (e : Entry β) (ds : List Device) (r : Registry β) :
    Leads R (release i e ds) r := by
  induction ds generalizing r with
  | nil => exact fun _ => hR.refl r
  | cons d ds ih =>
    apply release_cons_ends _ rfl
    apply Ends.mono (run_leads hR (e.onLeft _ d) (r.enter i .left d))
    intro o s h
    match o with
    | none => exact fun hsome => absurd hsome (by simp)
    | some v => exact (ih _).after hR (hR.call (h rfl) v)

theorem reclaim_leads (i : Nat) (r : Registry β) : Leads R (reclaim i) r := by
  have hclear : R r (r.update i ({ · with attached := [] })) :=
    hR.alter r i fun e => ⟨rfl, rfl, id⟩
  apply reclaim_ends (Q := fun b r' => b = true → R r r')
  · exact fun _ _ => hR.refl r
  · exact fun _ _ _ message _ => hR.trans hclear (hR.log _ _ message)
  · intro e _ _
    apply Ends.mono ((release_leads hR i e e.parting _).after hR hclear)
    intro o s h message
    cases o with
    | none => exact fun hsome => absurd hsome (by simp)
    | some u => exact fun _ => hR.trans (h rfl) (hR.log s _ message)

theorem reclaimAll_leads (is : List Nat) (r : Registry β) : Leads R (reclaimAll is) r := by
  induction is generalizing r with
  | nil => exact fun _ => hR.refl r
  | cons i is ih =>
    show Ends (reclaimAll (i :: is)) _ r
    rw [reclaimAll, ends_bind]
    apply Ends.mono (reclaim_leads hR i r)
    intro o s h
    cases o with
    | none => exact fun hsome => absurd hsome (by simp)
    | some u => exact (ih s).after hR (h rfl)

end Governed

end Registry

end PlugWatch
