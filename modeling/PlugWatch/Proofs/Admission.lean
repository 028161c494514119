import PlugWatch.Bus.Memory
import PlugWatch.Proofs.Wellformed

/-! # Registering is all or nothing

  A registration is refused if the bus reports no changes, if it is **faulty**, or if the bus cannot
  tell the devices that it asks for. In the first two cases nothing at all is done. In the third the
  registration is on the list already, and it is **undone**: the list and the registrations on it
  are again as they were, and all that is gone is a handle and a question to the bus. Whoever is
  refused is called for nothing.

  All this is true at every point of a session, so it is true inside callbacks too.
-/

namespace PlugWatch

/-! ## Faults -/

/-- An exact value is too wide for its field. -/
inductive Filter.TooWide (f : Filter) : Prop where
  | vendor {v : UInt32} : f.vendor = .exactly v → 0xFFFF < v → f.TooWide
  | product {v : UInt32} : f.product = .exactly v → 0xFFFF < v → f.TooWide
  | classCode {v : UInt32} : f.classCode = .exactly v → 0xFF < v → f.TooWide

/-- Why a registration is refused on its own account. -/
inductive Registration.Faulty {β : Type} [Bus β] (g : Registration β) : Prop where
  | tooWide : g.filter.TooWide → g.Faulty
  | noChange : g.filter.changes = .none → g.Faulty
  /-- A change is asked for that has no callback. -/
  | callbackMissing (c : Change) : g.filter.changes.has c = true → g.provided.has c = false →
      g.Faulty

namespace Filter

variable {f : Filter} {field : Field}

/-- A field is checked against its limit. -/
theorem checkField_eq_ok_iff :
    f.checkField field = .ok () ↔ ∀ v, f.pattern field = .exactly v → v ≤ field.limit := by
  unfold checkField
  cases f.pattern field with
  | any => simp
  | exactly v =>
    simp only [gt_iff_lt, Pattern.exactly.injEq, forall_eq']
    split
    · next hv => simpa using hv
    · next hv => simpa using hv

theorem bind_eq_ok_iff {ε : Type} {x y : Except ε Unit} :
    (x >>= fun _ => y) = .ok () ↔ x = .ok () ∧ y = .ok () := by
  cases x <;> simp [bind, Except.bind]

theorem tooWide_iff : f.TooWide ↔ ∃ field v, f.pattern field = .exactly v ∧ field.limit < v := by
  constructor
  · intro h
    cases h with
    | vendor hv hlt => exact ⟨.vendor, _, hv, hlt⟩
    | product hv hlt => exact ⟨.product, _, hv, hlt⟩
    | classCode hv hlt => exact ⟨.classCode, _, hv, hlt⟩
  · intro h
    obtain ⟨field, v, hv, hlt⟩ := h
    cases field with
    | vendor => exact .vendor hv hlt
    | product => exact .product hv hlt
    | classCode => exact .classCode hv hlt

/-- A filter is valid if all its values fit and it asks for a change. -/
theorem validate_eq_ok_iff : f.validate = .ok () ↔ ¬ f.TooWide ∧ f.changes ≠ .none := by
  have hchanges : (if f.changes.isEmpty then Except.error Invalid.noChange else .ok ()) = .ok () ↔
      f.changes ≠ .none := by
    obtain ⟨a, l⟩ := f.changes
    cases a <;> cases l <;> simp [ChangeMask.isEmpty, ChangeMask.none]
  have hfields : ¬ f.TooWide ↔ ∀ field, f.checkField field = .ok () := by
    simp only [tooWide_iff, checkField_eq_ok_iff, not_exists, not_and, UInt32.not_lt]
  rw [validate, bind_eq_ok_iff, bind_eq_ok_iff, bind_eq_ok_iff, hchanges, hfields]
  constructor
  · intro h
    obtain ⟨hv, hp, hc, hmask⟩ := h
    refine ⟨fun field => ?_, hmask⟩
    cases field with
    | vendor => exact hv
    | product => exact hp
    | classCode => exact hc
  · intro h
    exact ⟨h.1 .vendor, h.1 .product, h.1 .classCode, h.2⟩

end Filter

namespace Registration

variable {β : Type} [Bus β] {g : Registration β}

theorem checkCallbacks_eq_ok_iff : g.checkCallbacks = .ok () ↔
    ∀ c, g.filter.changes.has c = true → g.provided.has c = true := by
  unfold checkCallbacks
  simp only [Filter.wants, ChangeMask.covers_only]
  constructor
  · intro h
    split at h
    · cases h
    · next harrived =>
      split at h
      · cases h
      · next hleft =>
        intro c hc
        cases c with
        | arrived => simpa [hc] using harrived
        | left => simpa [hc] using hleft
  · intro h
    rw [if_neg (by simpa using h .arrived), if_neg (by simpa using h .left)]

/-- Who is not faulty passes the check, and nobody else. -/
theorem check_eq_ok_iff : g.check = .ok () ↔ ¬ g.Faulty := by
  have hmap : g.filter.validate.mapError ParameterFault.filter = .ok () ↔
      g.filter.validate = .ok () := by
    cases g.filter.validate <;> simp [Except.mapError]
  rw [check, Filter.bind_eq_ok_iff, hmap, Filter.validate_eq_ok_iff, checkCallbacks_eq_ok_iff]
  constructor
  · intro h hfaulty
    obtain ⟨⟨hfits, hmask⟩, hcallbacks⟩ := h
    cases hfaulty with
    | tooWide hw => exact hfits hw
    | noChange hn => exact hmask hn
    | callbackMissing c hc hno =>
      have hyes := hcallbacks c hc
      rw [hno] at hyes
      cases hyes
  · intro h
    refine ⟨⟨fun hw => h (.tooWide hw), fun hn => h (.noChange hn)⟩, ?_⟩
    intro c hc
    by_contra hno
    exact h (.callbackMissing c hc (by simpa using hno))

/-- A draft in which the changes are left open asks for those that have callbacks, so that none is
    missing. -/
theorem faulty_of_draft {draft : Filter.Draft} (hopen : draft.changes = none)
    (hg : g.filter = draft.finish g.provided) :
    g.Faulty ↔ g.filter.TooWide ∨ g.provided = .none := by
  have hchanges : g.filter.changes = g.provided := by
    rw [hg, Filter.Draft.finish, hopen]
    rfl
  constructor
  · intro h
    cases h with
    | tooWide hw => exact .inl hw
    | noChange hn => exact .inr (hchanges ▸ hn)
    | callbackMissing c hc hno =>
      rw [hchanges, hno] at hc
      cases hc
  · intro h
    rcases h with hw | hn
    · exact .tooWide hw
    · exact .noChange (hchanges.trans hn)

end Registration

namespace Registry

open Walk

variable {β : Type} [Bus β] {r r' s s' : Registry β} {g : Registration β} {i : Nat}

/-! ## Off the list again -/

/-- The devices present could not be told, so a new registration went off the list again. It used
    up a handle. -/
structure Spoils (r r' : Registry β) : Prop where
  bus : r'.bus = (Bus.enumerate r.bus).bus
  size : r'.entries.size = r.entries.size + 1
  mailbox : r'.mailbox = r.mailbox
  others : ∀ i < r.entries.size, r'.entries[i]? = r.entries[i]?
  held : r'.held = r.held.filter (·.handle != r.nextHandle)

/-- Who goes off the list is no longer held. -/
theorem held_unlist (r : Registry β) (p : Entry β → Bool) :
    (r.unlist p).held = r.held.filter (!p ·) := by
  unfold held unlist
  rw [Array.toList_filter, List.filterMap_filter, List.filter_filterMap]
  refine List.filterMap_congr ?_
  intro i _
  unfold satisfies
  cases r.entries[i]? with
  | none => simp
  | some e => cases hp : p e <;> simp [Option.filter, hp]

/-- Who is held after a registration came to the end of the list. -/
theorem held_push {e : Entry β} (ho : r.Orderly) (hl : s.listed = r.listed.push r.entries.size)
    (hothers : ∀ i < r.entries.size, s.entries[i]? = r.entries[i]?)
    (hown : s.entries[r.entries.size]? = some e) : s.held = r.held ++ [e] := by
  unfold held
  rw [hl, Array.toList_push, List.filterMap_append, List.filterMap_cons_some hown,
    List.filterMap_nil]
  congr 1
  refine List.filterMap_congr ?_
  intro i hi
  exact hothers i (ho.taken i (Array.mem_toList_iff.mp hi))

theorem held_rollBack (ho : r.Orderly) (g : Registration β) (why : Failure) :
    ((r.enlist g).enumerate.2.rollBack r.entries.size r.nextHandle why).held =
      r.held.filter (·.handle != r.nextHandle) := by
  let s := (r.enlist g).enumerate.2
  have hflagged : (s.flag r.entries.size).held =
      r.held ++ [{ r.newEntry g with flagged := true }] := by
    refine held_push ho (listed_enumerate (r.enlist g)) ?_
      (s.getElem?_flag r.entries.size (getElem?_enlist_enumerate r g))
    intro i hi
    exact getElem?_enlist_flag hi
  have hoff : ((s.flag r.entries.size).unlist (·.isNamed r.nextHandle)).held =
      (s.flag r.entries.size).held.filter (!·.isNamed r.nextHandle) := held_unlist _ _
  have hrest : ((r.enlist g).enumerate.2.rollBack r.entries.size r.nextHandle why).held =
      ((s.flag r.entries.size).unlist (·.isNamed r.nextHandle)).held := rfl
  rw [hrest, hoff, hflagged, List.filter_append]
  simp [Entry.isNamed, newEntry, bne]

theorem spoils_rollBack (ho : r.Orderly) (g : Registration β) (why : Failure) :
    Spoils r ((r.enlist g).enumerate.2.rollBack r.entries.size r.nextHandle why) where
  bus := bus_enumerate _
  size := by
    have hflag : ((r.enlist g).enumerate.2.rollBack r.entries.size r.nextHandle why).entries.size =
        (r.enlist g).enumerate.2.entries.size := size_update _ _ _
    rw [hflag]
    exact size_enlist_enumerate r g
  mailbox := mailbox_enumerate _
  others i hi := getElem?_enlist_flag hi
  held := held_rollBack ho g why

/-- A registration goes off the list again if the devices present cannot be told. -/
theorem register_spoiled (ho : r.Orderly) (hb : Bus.hasHotplug r.bus = true)
    (hc : g.check = .ok ()) (hn : g.filter.enumerate = true) {why : Failure}
    (hd : (Bus.enumerate r.bus).devices = .error why) :
    (register g).Ends (fun o r' => o = some (.error why) ∧ Spoils r r') r := by
  have hanswer : (r.enlist g).enumerate.1 = .error why := hd
  apply registerWith_decides
  · intro hno
    rw [hb] at hno
    cases hno
  · intro _ fault hfault
    rw [hc] at hfault
    cases hfault
  · intro _ _ hno
    rw [hn] at hno
    cases hno
  · intro _ _ _ why' hwhy
    rw [hanswer] at hwhy
    cases hwhy
    exact ⟨rfl, spoils_rollBack ho g why⟩
  · intro _ _ _ ds hds
    rw [hanswer] at hds
    cases hds

/-- Until handles have run out, nobody else has the handle of who goes off the list again. -/
theorem Spoils.held_eq {s : Registry β} (ho : s.Regular) (hsize : s.entries.size < UInt32.size)
    (h : Spoils s r') : r'.held = s.held := by
  rw [h.held, List.filter_eq_self]
  intro e he
  obtain ⟨i, hi, he⟩ := mem_held.mp he
  have hlt := ho.orderly.taken i hi
  rw [ho.handles i e he]
  refine bne_iff_ne.mpr fun hsame => ?_
  have hplace := handle_inj hsize (Nat.lt_succ_of_lt hlt) (Nat.lt_succ_self _) hsame
  omega

/-- A registration that was refused because the devices present are not known is undone. -/
structure Undone (s s' : Registry β) : Prop where
  /-- The same registrations are held in the same order, with the same flags and devices. -/
  held : s'.held = s.held
  others : ∀ i < s.entries.size, s'.entries[i]? = s.entries[i]?
  mailbox : s'.mailbox = s.mailbox
  /-- One handle is used up. -/
  nextHandle : s'.nextHandle.val = s.nextHandle.val + 1
  /-- The bus was asked for its devices once. -/
  bus : s'.bus = (Bus.enumerate s.bus).bus
  /-- No callback was called. -/
  silent : ∃ hs, s'.history.toList = s.history.toList ++ hs ∧ ∀ h ∈ hs, h.Unspoken

theorem nextHandle_succ (h : r'.entries.size = r.entries.size + 1) :
    r'.nextHandle.val = r.nextHandle.val + 1 := by
  unfold nextHandle
  rw [h, UInt32.ofNat_add]
  rfl

theorem undone_rollBack (hr : s.Regular) (hsize : s.entries.size < UInt32.size)
    (g : Registration β) (why : Failure) :
    Undone s ((s.enlist g).enumerate.2.rollBack s.entries.size s.nextHandle why) := by
  have h := spoils_rollBack hr.orderly g why
  refine ⟨h.held_eq hr hsize, h.others, h.mailbox, nextHandle_succ h.size, h.bus, ?_⟩
  obtain ⟨l, hh⟩ := (s.enlist g).enumerate.2.history_rollBack s.entries.size s.nextHandle why
  rw [history_enlist_enumerate, List.append_assoc] at hh
  refine ⟨_, hh, ?_⟩
  intro x hx
  simp only [List.cons_append, List.mem_cons, List.mem_append, List.mem_map, List.not_mem_nil,
    or_false] at hx
  rcases hx with rfl | rfl | ⟨e, -, rfl⟩ | rfl | rfl <;> exact ⟨by simp, by simp⟩

/-! ## Outcomes -/

/-- A replay that does not return has entered the callback, which has not returned. -/
theorem offerArrival_engaged {f : Nat → Device → Walk β Verdict} (hf : Tame f) (i : Nat)
    (d : Device) (r : Registry β) : (offerArrival i f d).Ends
      (fun o r' => o = none → ∃ x, r'.Engaged i .arrived x) r := by
  apply offerArrival_ends
  · exact fun _ ho => by cases ho
  · exact fun _ _ _ ho => by cases ho
  · exact fun _ _ _ _ _ ho => by cases ho
  · intro e he _ _ _
    apply (hf e.arrivals d _).mono
    intro o s hm
    have hlt : i < (r.enter i .arrived d).entries.size := by
      simpa [enter] using lt_size_of_getElem? he
    cases o with
    | none => exact fun _ => ⟨d, (engaged_enter r i .arrived d).of_moves hlt hm⟩
    | some v => cases v <;> exact fun ho => by cases ho

theorem replay_engaged {f : Nat → Device → Walk β Verdict} (hf : Tame f) (i : Nat)
    (ds : List Device) (r : Registry β) : (replay i f ds).Ends
      (fun o r' => o = none → ∃ x, r'.Engaged i .arrived x) r := by
  induction ds generalizing r with
  | nil => exact replay_nil_ends.mpr fun ho => by cases ho
  | cons d ds ih =>
    refine replay_cons_ends.mpr ((offerArrival_engaged hf i d r).mono fun o s h => ?_)
    match o with
    | none => exact fun _ => h rfl
    | some .dropped => exact fun ho => by cases ho
    | some .ignored => exact ih s
    | some .attached => exact ih s

/-- How a registration comes out, and what it leaves. -/
inductive Outcome (g : Registration β) (s : Registry β) :
    Option (Except Failure Handle) → Registry β → Prop where
  | unsupported : Bus.hasHotplug s.bus = false → Outcome g s (some (.error .unsupported)) s
  | invalid {fault : ParameterFault} : Bus.hasHotplug s.bus = true → g.Faulty →
      Outcome g s (some (.error (.invalidParameter fault))) s
  | unknown {s' : Registry β} {why : Failure} : Bus.hasHotplug s.bus = true → ¬ g.Faulty →
      g.filter.enumerate = true → (Bus.enumerate s.bus).devices = .error why → Undone s s' →
      Outcome g s (some (.error why)) s'
  /-- It is made; but its callback, told of a device present, may not return. -/
  | made {o : Option (Except Failure Handle)} {s' : Registry β} : Bus.hasHotplug s.bus = true →
      ¬ g.Faulty → (g.filter.enumerate = true → ∃ ds, (Bus.enumerate s.bus).devices = .ok ds) →
      (∃ e, s'.entries[s.entries.size]? = some e ∧ e.toRegistration = g ∧
        e.handle = s.nextHandle) →
      o = some (.ok s.nextHandle) ∨ o = none ∧ (∃ d, s'.Engaged s.entries.size .arrived d) →
      Outcome g s o s'

theorem register_outcome (hs : s.Regular) (hsize : s.entries.size < UInt32.size)
    (g : Registration β) : (register g).Ends (Outcome g s) s := by
  apply registerWith_decides
  · exact .unsupported
  · intro hb fault hc
    have hfaulty : g.Faulty := by
      by_contra hno
      rw [Registration.check_eq_ok_iff.mpr hno] at hc
      cases hc
    exact .invalid hb hfaulty
  · intro hb hc hn
    refine .made hb (Registration.check_eq_ok_iff.mp hc) ?_ ⟨_, getElem?_enlist s g, rfl, rfl⟩
      (.inl rfl)
    intro hyes
    rw [hn] at hyes
    cases hyes
  · intro hb hc hn why hd
    exact .unknown hb (Registration.check_eq_ok_iff.mp hc) hn hd (undone_rollBack hs hsize g why)
  · intro hb hc hn ds hd
    have hmoves := replay_moves (p := fun _ => True) (tame_run g.onArrived) (fun _ _ => trivial)
      (Nat.le_refl _) (i := s.entries.size) trivial ds
      (r := (s.enlist g).enumerate.2.beginReplay s.entries.size s.nextHandle ds)
    apply (hmoves.and (replay_engaged (tame_run g.onArrived) s.entries.size ds _)).mono
    intro o s' h
    obtain ⟨hm, hengaged⟩ := h
    obtain ⟨e, he, hages⟩ := hm.spares.ages _ _ (getElem?_enlist_enumerate s g)
    refine .made hb (Registration.check_eq_ok_iff.mp hc) (fun _ => ⟨ds, hd⟩)
      ⟨e, he, hages.registration, hages.handle⟩ ?_
    cases o with
    | none => exact .inr ⟨rfl, hengaged rfl⟩
    | some u => exact .inl rfl

/-- What is undone did something. -/
theorem not_undone_self (s : Registry β) : ¬ Undone s s := by
  intro h
  have hnext := h.nextHandle
  simp at hnext

/-- What a registration is answered, and what it leaves, by what decides about it. -/
structure AllOrNothing (g : Registration β) (s : Registry β)
    (o : Option (Except Failure Handle)) (s' : Registry β) : Prop where
  unsupported : Bus.hasHotplug s.bus = false ↔ o = some (.error .unsupported) ∧ s' = s
  invalid : Bus.hasHotplug s.bus = true ∧ g.Faulty ↔
    (∃ fault, o = some (.error (.invalidParameter fault))) ∧ s' = s
  unknown : ∀ why, Bus.hasHotplug s.bus = true ∧ ¬ g.Faulty ∧ g.filter.enumerate = true ∧
    (Bus.enumerate s.bus).devices = .error why ↔ o = some (.error why) ∧ Undone s s'
  /-- In all other cases it is made, unless its callback, told of a device present, does not
      return. -/
  made : Bus.hasHotplug s.bus = true ∧ ¬ g.Faulty ∧
    (g.filter.enumerate = true → ∃ ds, (Bus.enumerate s.bus).devices = .ok ds) ↔
    (∃ e, s'.entries[s.entries.size]? = some e ∧ e.toRegistration = g ∧ e.handle = s.nextHandle) ∧
      (o = some (.ok s.nextHandle) ∨ o = none ∧ ∃ d, s'.Engaged s.entries.size .arrived d)

theorem Outcome.allOrNothing {o : Option (Except Failure Handle)} (h : Outcome g s o s') :
    AllOrNothing g s o s' := by
  cases h with
  | unsupported hb =>
    exact ⟨by simp [hb], by simp [hb], by simp [hb, not_undone_self], by simp [hb]⟩
  | invalid hb hf =>
    exact ⟨by simp [hb], by simp [hb, hf], by simp [hf, not_undone_self], by simp [hf]⟩
  | unknown hb hf hn hd hu =>
    have hne : s' ≠ s := fun heq => not_undone_self s (heq ▸ hu)
    exact ⟨by simp [hb, hne], by simp [hf, hne], by simp [hb, hf, hn, hd, hu], by simp [hn, hd]⟩
  | made hb hf hd he ho =>
    have hno (why : Failure) : o ≠ some (.error why) := by
      rcases ho with rfl | ⟨rfl, -⟩ <;> simp
    refine ⟨by simp [hb, hno], by simp [hf, hno], ?_, iff_of_true ⟨hb, hf, hd⟩ ⟨he, ho⟩⟩
    intro why
    refine iff_of_false ?_ fun h => hno why h.1
    intro h
    obtain ⟨-, -, hn, hw⟩ := h
    obtain ⟨ds, hds⟩ := hd hn
    rw [hds] at hw
    cases hw

/-- At every point of a session in which handles have not run out, a registration is all or
    nothing. If it comes from a draft in which the changes are left open, none of its callbacks can
    be missing. -/
theorem register_allOrNothing (b : β) (hs : Steps { bus := b } s)
    (hsize : s.entries.size < UInt32.size) (g : Registration β) :
    AllOrNothing g s (answer? (register g) s) (left (register g) s) ∧
      ∀ draft : Filter.Draft, draft.changes = none → g.filter = draft.finish g.provided →
        (g.Faulty ↔ g.filter.TooWide ∨ g.provided = .none) := by
  have hregular := hs.regular (regular_fresh b)
  have houtcome := ends_iff_answer?.mp (register_outcome hregular hsize g)
  exact ⟨houtcome.allOrNothing, fun _ hopen hg => Registration.faulty_of_draft hopen hg⟩

/-- Two registrations, of which the first has a device and the second is flagged, and then the bus
    does not tell its devices any more. -/
def shortage : List (Operation MemoryBus) :=
  [.act (.bus (.plug (MemoryBus.sample 1))), .register (.listener { enumerate := true }),
    .register (.listener {}), .act (.deregister ⟨2⟩), .act (.bus (.setFailing true))]

theorem register_allOrNothing_shortage :
    let s := afterAll { bus := ({} : MemoryBus) } shortage
    let g : Registration MemoryBus := .listener { vendor := .exactly 0xFFFF, enumerate := true }
    let why : Failure := .enumerationFailed "mock device list unavailable"
    Steps { bus := {} } s ∧ s.entries.size < UInt32.size ∧ ¬ g.Faulty ∧
      (s.held.map fun e => (e.handle, e.flagged, e.attached)) =
        [(⟨1⟩, false, [MemoryBus.sample 1]), (⟨2⟩, true, [])] ∧
      answer? (register g) s = some (.error why) ∧ Undone s (left (register g) s) ∧
      (left (register g) s).bus = { s.bus with enumerations := s.bus.enumerations + 1 } := by
  intro s g why
  have hs : Steps { bus := ({} : MemoryBus) } s := afterAll_steps _ shortage
  have hsize : s.entries.size < UInt32.size := by decide +kernel
  have hfaulty : ¬ g.Faulty := Registration.check_eq_ok_iff.mp (by decide +kernel)
  obtain ⟨hall, -⟩ := register_allOrNothing {} hs hsize g
  obtain ⟨hanswer, hundone⟩ :=
    (hall.unknown why).mp ⟨by decide +kernel, hfaulty, rfl, by decide +kernel⟩
  exact ⟨hs, hsize, hfaulty, by decide +kernel, hanswer, hundone, hundone.bus⟩

end Registry

end PlugWatch
