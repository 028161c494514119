import PlugWatch.Bus.Memory
import PlugWatch.Config.Storage
import PlugWatch.Proofs.Admission
import PlugWatch.Proofs.Profile
import PlugWatch.Proofs.Queueing
import PlugWatch.Proofs.Wellformed
import PlugWatch.Watch.Registration

/-! # Registering watches

  A watch is registered with callbacks that only record, so registering it has an outcome that can
  be told beforehand. A watch has an **obstacle** if it has no filter, if the bus reports no
  changes, or if the bus cannot tell the devices that the watch asks for. Watches are registered in
  turn:

  * with no obstacle all of them **enrol**: they come to the end of the list, each with the next
    handle, and nobody else is concerned;
  * otherwise those before the first obstacle enrol as they would alone, and no other does.

  The watches of a valid configuration have filters. Hence a configuration that was loaded meets no
  obstacle on a bus that **serves**: one that reports changes and can tell its devices.
-/

namespace PlugWatch

/-! ## Filters and callbacks -/

namespace Watch

variable {w : Watch} {f : Filter}

/-- The filter of a watch is valid, asks for the changes of the watch and for devices present if
    the watch does. -/
theorem toFilter_spec (h : w.toFilter = .ok f) :
    f.validate = .ok () ∧ f.changes = w.mask ∧ f.enumerate = w.enumerate := by
  unfold toFilter at h
  cases hfields : readFields w.fields with
  | error why =>
    rw [hfields] at h
    cases h
  | ok p =>
    obtain ⟨vendor, product, classCode⟩ := p
    rw [hfields] at h
    let f' : Filter :=
      { vendor, product, classCode, changes := w.mask, enumerate := w.enumerate }
    cases hv : f'.validate with
    | error why =>
      simp only [bind, Except.bind] at h
      rw [hv] at h
      cases h
    | ok u =>
      simp only [bind, Except.bind] at h
      rw [hv] at h
      cases h
      exact ⟨hv, rfl, rfl⟩

section Callbacks

variable {β : Type} [Bus β]

theorem tell_records (w : Watch) (word sign : String) (d : Device) :
    (w.tell word sign d : Script β).Records :=
  .log _ _ (.print _ _ (.finish _))

theorem check_registration (h : w.toFilter = .ok f) :
    (w.registration f : Registration β).check = .ok () := by
  have hv := (toFilter_spec h).1
  unfold Registration.check
  rw [show (w.registration f : Registration β).filter = f from rfl, hv]
  simp [Registration.checkCallbacks, registration, ChangeMask.has, ChangeMask.both,
    Except.mapError, bind, Except.bind]

end Callbacks

end Watch

/-- A registration whose callbacks only record, and that never asks to be dropped. -/
structure Registration.Steady {β : Type} [Bus β] (g : Registration β) : Prop
    extends g.Recording where
  keeps : ∀ k d, (g.onArrived k d).verdict = .keep

namespace Registry

open Walk

variable {β : Type} [Bus β] {r r' r'' s : Registry β} {g : Registration β} {i : Nat}

/-- Devices were offered to the registration at a place. Nothing else changed but the history. -/
structure Visits (i : Nat) (r r' : Registry β) : Prop where
  bus : r'.bus = r.bus
  listed : r'.listed = r.listed
  mailbox : r'.mailbox = r.mailbox
  size : r'.entries.size = r.entries.size
  others : ∀ j, j ≠ i → r'.entries[j]? = r.entries[j]?
  own : ∀ e, r.entries[i]? = some e → ∃ e', r'.entries[i]? = some e' ∧
    e'.toRegistration = e.toRegistration ∧ e'.handle = e.handle ∧ e'.flagged = e.flagged

namespace Visits

theorem refl (i : Nat) (r : Registry β) : Visits i r r :=
  ⟨rfl, rfl, rfl, rfl, fun _ _ => rfl, fun e he => ⟨e, he, rfl, rfl, rfl⟩⟩

theorem trans (h : Visits i r r') (h' : Visits i r' r'') : Visits i r r'' where
  bus := h'.bus.trans h.bus
  listed := h'.listed.trans h.listed
  mailbox := h'.mailbox.trans h.mailbox
  size := h'.size.trans h.size
  others j hj := (h'.others j hj).trans (h.others j hj)
  own e he := by
    obtain ⟨e', he', hreg, hhandle, hflag⟩ := h.own e he
    obtain ⟨e'', he'', hreg', hhandle', hflag'⟩ := h'.own e' he'
    exact ⟨e'', he'', hreg'.trans hreg, hhandle'.trans hhandle, hflag'.trans hflag⟩

/-- A change of the entry that concerns only its devices and calls. -/
theorem update (r : Registry β) (i : Nat) (f : Entry β → Entry β)
    (hf : ∀ e, (f e).toRegistration = e.toRegistration ∧ (f e).handle = e.handle ∧
      (f e).flagged = e.flagged) : Visits i r (r.update i f) where
  bus := rfl
  listed := rfl
  mailbox := rfl
  size := size_update r i f
  others _ hj := getElem?_update_of_ne r i f hj.symm
  own e he := ⟨f e, getElem?_update_self r i f he, hf e⟩

/-- What changes the history alone. -/
theorem aside (hb : r'.bus = r.bus) (he : r'.entries = r.entries) (hl : r'.listed = r.listed)
    (hm : r'.mailbox = r.mailbox) : Visits i r r' where
  bus := hb
  listed := hl
  mailbox := hm
  size := by rw [he]
  others _ _ := by rw [he]
  own e h := ⟨e, by rw [he, h], rfl, rfl, rfl⟩

theorem record (r : Registry β) (h : Happening) : Visits i r (r.record h) :=
  aside rfl rfl rfl rfl

end Visits

/-- An arrival is offered to a registration that keeps what it takes. -/
theorem offerArrival_steady {e : Entry β} (he : r.entries[i]? = some e)
    (hg : e.toRegistration.Steady) (d : Device) :
    (offerArrival i (fun n d => run (e.onArrived n d)) d).Ends
      (fun o r' => (∃ x, o = some x ∧ x ≠ .dropped) ∧ Visits i r r') r := by
  apply offerArrival_ends
  · intro _
    exact ⟨⟨_, rfl, by simp⟩, .refl i r⟩
  · intro _ _ _
    exact ⟨⟨_, rfl, by simp⟩, .refl i r⟩
  · intro _ _ _ _ _
    exact ⟨⟨_, rfl, by simp⟩, .update r i _ fun _ => ⟨rfl, rfl, rfl⟩⟩
  · intro e' he' _ _ _
    cases entry_eq he he'
    apply (run_noted (hg.arrived e.arrivals d) _).mono
    rintro _ r' ⟨rfl, hn⟩
    rw [hg.keeps]
    have henter : Visits i r (r.enter i .arrived d) :=
      (Visits.update r i (·.countCall .arrived) fun _ => ⟨rfl, rfl, rfl⟩).trans (.record _ _)
    have hcalled : Visits i (r.enter i .arrived d) r' :=
      .aside hn.bus hn.entries hn.listed hn.mailbox
    have hkeep : Visits i r' (r'.keep i d) :=
      (Visits.record r' _).trans (.update _ i (·.attach d) fun _ => ⟨rfl, rfl, rfl⟩)
    exact ⟨⟨_, rfl, by simp⟩, (henter.trans hcalled).trans hkeep⟩

/-- All the devices present are offered to a registration that keeps what it takes. -/
theorem replay_steady {e : Entry β} (he : r.entries[i]? = some e) (hreg : e.toRegistration = g)
    (hg : g.Steady) (ds : List Device) :
    (replay i (fun n d => run (g.onArrived n d)) ds).Ends
      (fun o r' => o = some () ∧ Visits i r r') r := by
  induction ds generalizing r e with
  | nil => exact ⟨rfl, .refl i r⟩
  | cons d ds ih =>
    subst hreg
    refine replay_cons_ends.mpr ((offerArrival_steady he hg d).mono ?_)
    rintro _ r' ⟨⟨x, rfl, hx⟩, hone⟩
    obtain ⟨e', he', hreg', -⟩ := hone.own e he
    have hrest := ih he' hreg'
    cases x with
    | dropped => exact absurd rfl hx
    | ignored => exact hrest.mono fun _ _ h => ⟨h.1, hone.trans h.2⟩
    | attached => exact hrest.mono fun _ _ h => ⟨h.1, hone.trans h.2⟩

/-! ## One registration -/

/-- The bus after it was asked for the devices, if it was. -/
def asked (enumerate : Bool) (b : β) : β :=
  if enumerate then (Bus.enumerate b).bus else b

/-- A registration came to the end of the list and was offered the devices present. Nobody else
    was concerned. -/
structure Joins (g : Registration β) (r r' : Registry β) : Prop where
  bus : r'.bus = asked g.filter.enumerate r.bus
  size : r'.entries.size = r.entries.size + 1
  listed : r'.listed = r.listed.push r.entries.size
  mailbox : r'.mailbox = r.mailbox
  others : ∀ i < r.entries.size, r'.entries[i]? = r.entries[i]?
  own : ∃ e, r'.entries[r.entries.size]? = some e ∧ e.toRegistration = g ∧
    e.handle = r.nextHandle ∧ e.flagged = false
  profiles : ∀ i, r'.profile? i = if i = r.entries.size then
    some ((greeted g r.bus).foldl Profile.arrive (r.newcomer g)) else r.profile? i

theorem Joins.enlist (r : Registry β) (hn : g.filter.enumerate = false) :
    Joins g r (r.enlist g) where
  bus := by simp [asked, hn, Registry.enlist]
  size := size_enlist r g
  listed := rfl
  mailbox := rfl
  others i hi := by rw [entries_enlist, Array.getElem?_push, if_neg (Nat.ne_of_lt hi)]
  own := ⟨_, getElem?_enlist r g, rfl, rfl, rfl⟩
  profiles i := by rw [profile?_enlist, greeted_of_unasked hn, List.foldl_nil]

/-- The devices present were offered to a new registration. -/
theorem Joins.replay {ds : List Device} (hn : g.filter.enumerate = true)
    (hd : (Bus.enumerate r.bus).devices = .ok ds)
    (hv : Visits r.entries.size
      ((r.enlist g).enumerate.2.beginReplay r.entries.size r.nextHandle ds) r')
    (he : Evolves (here r.entries.size (ds.foldl Profile.arrive))
      ((r.enlist g).enumerate.2.beginReplay r.entries.size r.nextHandle ds) r') :
    Joins g r r' := by
  refine ⟨?_, ?_, ?_, ?_, ?_, ?_, ?_⟩
  · rw [hv.bus]
    show (r.enlist g).enumerate.2.bus = _
    rw [bus_enumerate]
    simp [asked, hn, Registry.enlist]
  · rw [hv.size]
    exact size_enlist_enumerate r g
  · rw [hv.listed]
    exact listed_enumerate _
  · rw [hv.mailbox]
    exact mailbox_enumerate _
  · intro i hi
    rw [hv.others i (Nat.ne_of_lt hi)]
    show (r.enlist g).enumerate.2.entries[i]? = _
    rw [entries_enumerate, entries_enlist, Array.getElem?_push, if_neg (Nat.ne_of_lt hi)]
  · exact hv.own _ (getElem?_enlist_enumerate r g)
  · intro i
    rw [he.replayed, greeted_of_asked hn hd]

/-- A registration that keeps what it takes comes in. -/
theorem register_steady (hb : Bus.hasHotplug r.bus = true) (hc : g.check = .ok ())
    (hg : g.Steady)
    (hd : g.filter.enumerate = true → ∃ ds, (Bus.enumerate r.bus).devices = .ok ds) :
    (register g).Ends (fun o r' => o = some (.ok r.nextHandle) ∧ Joins g r r') r := by
  apply registerWith_accepts hb hc hd
  · exact fun hn => ⟨rfl, .enlist r hn⟩
  · intro hn ds hds
    let begun := (r.enlist g).enumerate.2.beginReplay r.entries.size r.nextHandle ds
    have hentry : begun.entries[r.entries.size]? = some (r.newEntry g) :=
      getElem?_enlist_enumerate r g
    have hvisit := replay_steady (g := g) hentry rfl hg ds
    have hevolve := replay_newcomer_develops r hg.toRecording r.nextHandle ds
    apply Ends.mono (hvisit.and hevolve)
    rintro _ r' ⟨⟨rfl, hv⟩, -, he, -⟩
    exact ⟨rfl, .replay hn hds hv he⟩

/-- What is recorded but calls and returns does not count. -/
theorem Joins.record {h : Happening} (hj : Joins g r s) (hu : h.Unspoken) :
    Joins g r (s.record h) where
  bus := hj.bus
  size := hj.size
  listed := hj.listed
  mailbox := hj.mailbox
  others := hj.others
  own := hj.own
  profiles i := by
    rw [← hj.profiles i]
    exact profile?_congr rfl rfl (calls_of_unspoken (history_record s h) (by simpa using hu))

end Registry

namespace Watch

open Walk Registry

variable {β : Type} [Bus β] {w : Watch} {f : Filter} {b : β} {r r' : Registry β}

/-- What is in the way of registering a watch: it has no filter, the bus reports no changes, or the
    bus cannot tell the devices that the watch asks for. -/
def obstacle? (w : Watch) (b : β) : Option RegisterError :=
  match w.toFilter with
  | .error why => some (.filter w why)
  | .ok _ =>
    if Bus.hasHotplug b then
      match (Bus.enumerate b).devices with
      | .ok _ => none
      | .error why => if w.enumerate then some (.refused w why) else none
    else some (.refused w .unsupported)

/-- Whether a watch gets on the list before it meets an obstacle: only then it uses up a handle. -/
def listedFirst (w : Watch) (b : β) : Bool :=
  w.toFilter.isOk && Bus.hasHotplug b && w.enumerate

theorem registration_steady (w : Watch) (f : Filter) :
    (w.registration f : Registration β).Steady where
  arrived _ d := w.tell_records "arrived" "+" d
  left _ d := w.tell_records "left" "-" d
  keeps _ _ := rfl

theorem obstacle?_eq_none (h : w.obstacle? b = none) : ∃ f, w.toFilter = .ok f ∧
    Bus.hasHotplug b = true ∧ (w.enumerate = true → ∃ ds, (Bus.enumerate b).devices = .ok ds) := by
  unfold obstacle? at h
  cases hf : w.toFilter with
  | error why => simp [hf] at h
  | ok f =>
    cases hb : Bus.hasHotplug b with
    | false => simp [hf, hb] at h
    | true =>
      refine ⟨f, rfl, rfl, ?_⟩
      intro hn
      cases hd : (Bus.enumerate b).devices with
      | ok ds => exact ⟨ds, rfl⟩
      | error why => simp [hf, hb, hd, hn] at h

/-- A watch with nothing in its way is registered. -/
theorem register_clear (h : w.obstacle? r.bus = none) : ∃ f, w.toFilter = .ok f ∧
    w.register.Ends (fun o r' => o = some (.ok r.nextHandle) ∧ Joins (w.registration f) r r' ∧
      Steps r r') r := by
  obtain ⟨f, hf, hb, hd⟩ := obstacle?_eq_none h
  refine ⟨f, hf, ?_⟩
  have hn : (w.registration f : Registration β).filter.enumerate = w.enumerate :=
    (toFilter_spec hf).2.2
  have hjoins := register_steady hb (check_registration hf) (w.registration_steady f)
    fun hask => hd (hn ▸ hask)
  unfold register
  rw [hf]
  refine Ends.bind (hjoins.and (register_steps _ r)) ?_ ?_
  · rintro r' ⟨⟨hnone, -⟩, -⟩
    cases hnone
  · rintro a r' ⟨⟨ho, hj⟩, hs⟩
    cases ho
    have hlog : Steps r' (r'.record (.logged (w.startedEntry f r.nextHandle))) :=
      (Step.aside (.perform r' (.log (w.startedEntry f r.nextHandle)))).steps
    exact ⟨rfl, hj.record (by simp [Happening.Unspoken]), hs.trans hlog⟩

/-- A watch with something in its way is not registered. It leaves nothing, unless it was on the
    list when the devices present could not be told. -/
theorem register_obstructed (ho : r.Orderly) {why : RegisterError}
    (h : w.obstacle? r.bus = some why) :
    w.register.Ends (fun o r' => o = some (.error why) ∧
      if w.listedFirst r.bus then Spoils r r' else r' = r) r := by
  unfold register
  unfold obstacle? at h
  unfold listedFirst
  cases hf : w.toFilter with
  | error e =>
    rw [hf] at h
    cases h
    exact ⟨rfl, by simp [Except.isOk, Except.toBool]⟩
  | ok f =>
    rw [hf] at h
    have hn : (w.registration f : Registration β).filter.enumerate = w.enumerate :=
      (toFilter_spec hf).2.2
    cases hb : Bus.hasHotplug r.bus with
    | false =>
      simp only [hb, Bool.false_eq_true, if_false] at h
      cases h
      unfold Registry.register registerWith
      simp [hb]
    | true =>
      simp only [hb, if_true] at h
      cases hd : (Bus.enumerate r.bus).devices with
      | ok ds => simp [hd] at h
      | error e =>
        cases hask : w.enumerate with
        | false => simp [hd, hask] at h
        | true =>
          simp only [hd, hask, if_true] at h
          cases h
          refine Ends.bind (register_spoiled ho hb (check_registration hf) (hn.trans hask) hd) ?_ ?_
          · rintro r' ⟨hnone, -⟩
            cases hnone
          · rintro a r' ⟨hanswer, hs⟩
            cases hanswer
            exact ⟨rfl, by simpa [Except.isOk, Except.toBool] using hs⟩

/-! ## Registering watches in turn -/

/-- The bus after watches were registered. -/
def busAfter (b : β) (ws : List Watch) : β :=
  ws.foldl (fun b w => asked w.enumerate b) b

/-- Nothing is in the way of any of the watches when its turn comes. -/
def Clear (b : β) : List Watch → Prop
  | [] => True
  | w :: ws => w.obstacle? b = none ∧ Clear (asked w.enumerate b) ws

/-- The handles that are given next. -/
def upcoming (r : Registry β) (n : Nat) : List Handle :=
  (List.range n).map fun k => ⟨UInt32.ofNat (r.entries.size + k + 1)⟩

/-- An entry is that of a watch, and is active. -/
structure Owns (w : Watch) (f : Filter) (e : Entry β) : Prop where
  filter : w.toFilter = .ok f
  registration : e.toRegistration = w.registration f
  active : e.flagged = false

/-- Watches were registered: they are held in their order after those who were held before, and
    each was offered the devices present when its turn came. Nobody else was concerned. -/
structure Enrols (ws : List Watch) (r r' : Registry β) : Prop where
  held : ∃ es, r'.held = r.held ++ es ∧ es.map (·.handle) = upcoming r ws.length ∧
    List.Forall₂ (fun w e => ∃ f, w.Owns f e) ws es
  bus : r'.bus = busAfter r.bus ws
  size : r'.entries.size = r.entries.size + ws.length
  mailbox : r'.mailbox = r.mailbox
  others : ∀ i < r.entries.size, r'.entries[i]? = r.entries[i]? ∧ r'.profile? i = r.profile? i
  own : ∀ k w, ws[k]? = some w → ∃ f e, w.Owns f e ∧
    r'.entries[r.entries.size + k]? = some e ∧
    r'.profile? (r.entries.size + k) = some ((greeted (w.registration f)
      (busAfter r.bus (ws.take k))).foldl Profile.arrive
        { entry := { toRegistration := w.registration f, handle := ⟨0⟩ } })

theorem Enrols.nil (r : Registry β) : Enrols [] r r where
  held := ⟨[], by simp, rfl, .nil⟩
  bus := rfl
  size := rfl
  mailbox := rfl
  others _ _ := ⟨rfl, rfl⟩
  own k w hk := by simp at hk

/-- The handles that are given after the next one. -/
theorem upcoming_succ {s : Registry β} (hsize : s.entries.size = r.entries.size + 1) (n : Nat) :
    upcoming r (n + 1) = r.nextHandle :: upcoming s n := by
  unfold upcoming
  rw [List.range_succ_eq_map, hsize, List.map_cons, List.map_map]
  congr 1
  refine List.map_congr_left fun k _ => ?_
  simp only [Function.comp_apply, Nat.succ_eq_add_one]
  congr 3
  omega

theorem Joins.busAfter {ws : List Watch} {s : Registry β} (hf : w.toFilter = .ok f)
    (h : Joins (w.registration f) r s) : busAfter s.bus ws = busAfter r.bus (w :: ws) := by
  rw [h.bus]
  show Watch.busAfter (asked f.enumerate r.bus) ws = Watch.busAfter (asked w.enumerate r.bus) ws
  rw [(toFilter_spec hf).2.2]

theorem Enrols.cons {ws : List Watch} {s : Registry β} (ho : r.Orderly) (hr : r.Sane)
    (hf : w.toFilter = .ok f) (h : Joins (w.registration f) r s) (h' : Enrols ws s r') :
    Enrols (w :: ws) r r' where
  held := by
    obtain ⟨es, hheld, hhandles, hall⟩ := h'.held
    obtain ⟨e, he, hreg, hhandle, hflag⟩ := h.own
    refine ⟨e :: es, ?_, ?_, .cons ⟨f, hf, hreg, hflag⟩ hall⟩
    · rw [hheld, held_push ho h.listed h.others he, List.append_assoc]
      rfl
    · rw [List.map_cons, hhandle, hhandles, List.length_cons, upcoming_succ h.size]
  bus := by rw [h'.bus, Joins.busAfter hf h]
  size := by
    rw [h'.size, h.size, List.length_cons]
    omega
  mailbox := h'.mailbox.trans h.mailbox
  others i hi := by
    obtain ⟨hentry, hprofile⟩ := h'.others i (h.size ▸ Nat.lt_succ_of_lt hi)
    rw [hentry, hprofile, h.profiles i, if_neg (Nat.ne_of_lt hi)]
    exact ⟨h.others i hi, rfl⟩
  own k v hk := by
    cases k with
    | zero =>
      cases hk
      obtain ⟨hentry, hprofile⟩ := h'.others r.entries.size (h.size ▸ Nat.lt_succ_self _)
      obtain ⟨e, he, hreg, -, hflag⟩ := h.own
      refine ⟨f, e, ⟨hf, hreg, hflag⟩, hentry.trans he, ?_⟩
      show r'.profile? r.entries.size = _
      rw [hprofile, h.profiles, if_pos rfl, newcomer, hr.silent _ (Nat.le_refl _)]
      rfl
    | succ k =>
      obtain ⟨f', e, howns, he, hprofile⟩ := h'.own k v hk
      have hplace : s.entries.size + k = r.entries.size + (k + 1) := by
        rw [h.size]
        omega
      rw [hplace] at he hprofile
      rw [Joins.busAfter hf h] at hprofile
      exact ⟨f', e, howns, he, hprofile⟩

/-- Watches with nothing in their way are registered. -/
theorem registerAll_clear {ws : List Watch} (ho : r.Regular) (hr : r.Sane) (h : Clear r.bus ws) :
    (registerAll ws).Ends (fun o r' => o = some (.ok (upcoming r ws.length)) ∧ Enrols ws r r' ∧
      Steps r r') r := by
  induction ws generalizing r with
  | nil => exact ⟨rfl, .nil r, .refl r⟩
  | cons w ws ih =>
    obtain ⟨hw, hws⟩ := h
    obtain ⟨f, hf, hregister⟩ := register_clear hw
    unfold registerAll
    refine Ends.bind hregister ?_ ?_
    · rintro s ⟨hnone, -⟩
      cases hnone
    · rintro a s ⟨ha, hj, hs⟩
      cases ha
      have hclear : Clear s.bus ws := by
        rw [hj.bus]
        show Clear (asked f.enumerate r.bus) ws
        rwa [(toFilter_spec hf).2.2]
      refine Ends.bind (ih (hs.regular ho) (hs.sane hr) hclear) ?_ ?_
      · rintro r' ⟨hnone, -⟩
        cases hnone
      · rintro a r' ⟨ha, henrols, hs'⟩
        cases ha
        refine ⟨?_, .cons ho.orderly hr hf hj henrols, hs.trans hs'⟩
        rw [List.length_cons, upcoming_succ hj.size]
        rfl

theorem registerAll_cons (w : Watch) (ws : List Watch) : (registerAll (w :: ws) : Walk β _) = (do
    match ← w.register with
    | .error why => return .error why
    | .ok h => return (← registerAll ws).map (h :: ·)) := rfl

/-- Watches are registered in turn: first some, then the others if nothing was in the way. -/
theorem registerAll_append (before rest : List Watch) :
    (registerAll (before ++ rest) : Walk β _) = (do
      match ← registerAll before with
      | .error why => return .error why
      | .ok hs => return (← registerAll rest).map (hs ++ ·)) := by
  induction before with
  | nil =>
    have hid : ∀ x : Except RegisterError (List Handle), x.map ([] ++ ·) = x := by
      intro x
      cases x <;> rfl
    simp only [List.nil_append, registerAll, pure_bind] at hid ⊢
    simp only [hid, bind_pure]
  | cons w before ih =>
    rw [List.cons_append, registerAll_cons, registerAll_cons, bind_assoc]
    refine congrArg (w.register >>= ·) (funext fun answer => ?_)
    cases answer with
    | error why => rfl
    | ok h =>
      simp only [ih, bind_assoc]
      refine congrArg (registerAll before >>= ·) (funext fun answer => ?_)
      cases answer with
      | error why => rfl
      | ok hs =>
        simp only [bind_assoc, pure_bind, Except.map]
        refine congrArg (registerAll rest >>= ·) (funext fun answer => ?_)
        cases answer <;> rfl

/-- Watches are registered up to the first one with something in its way. -/
theorem registerAll_obstructed {before after : List Watch} {why : RegisterError}
    (ho : r.Regular) (hr : r.Sane) (hclear : Clear r.bus before)
    (h : w.obstacle? (busAfter r.bus before) = some why) :
    (registerAll (before ++ w :: after)).Ends (fun o r' => o = some (.error why) ∧
      ∃ s, (registerAll before).run r = .ok (.ok (upcoming r before.length)) s ∧
        Enrols before r s ∧ Steps r s ∧ if w.listedFirst s.bus then Spoils s r' else r' = s) r := by
  rw [registerAll_append]
  have hbefore := registerAll_clear ho hr hclear
  have hrun := run_of_answer? (ends_iff_answer?.mp hbefore).1
  refine Ends.bind (hbefore.and (ends_left _ r)) ?_ ?_
  · rintro s ⟨⟨hnone, -⟩, -⟩
    cases hnone
  · rintro a s ⟨⟨ha, henrols, hs⟩, hleft⟩
    cases ha
    have hw : w.obstacle? s.bus = some why := by
      rw [henrols.bus]
      exact h
    simp only [registerAll_cons, bind_assoc]
    refine Ends.bind (register_obstructed (hs.regular ho).orderly hw) ?_ ?_
    · rintro r' ⟨hnone, -⟩
      cases hnone
    · rintro a r' ⟨ha, hrest⟩
      cases ha
      exact ⟨rfl, s, hleft ▸ hrun, henrols, hs, hrest⟩

/-- Nothing is in the way of any watch, or there is a first one with something in its way. -/
theorem clear_or (b : β) (ws : List Watch) : Clear b ws ∨ ∃ before w after why,
    ws = before ++ w :: after ∧ Clear b before ∧ w.obstacle? (busAfter b before) = some why := by
  induction ws generalizing b with
  | nil => exact .inl trivial
  | cons w ws ih =>
    cases hw : w.obstacle? b with
    | some why => exact .inr ⟨[], w, ws, why, rfl, trivial, hw⟩
    | none =>
      rcases ih (asked w.enumerate b) with hclear | ⟨before, v, after, why, rfl, hclear, hv⟩
      · exact .inl ⟨hw, hclear⟩
      · exact .inr ⟨w :: before, v, after, why, rfl, ⟨hw, hclear⟩, hv⟩

/-- If nothing is in the way of any watch, nothing is in the way of one of them. -/
theorem Clear.split {before after : List Watch} (h : Clear b (before ++ w :: after)) :
    w.obstacle? (busAfter b before) = none := by
  induction before generalizing b with
  | nil => exact h.1
  | cons v before ih => exact ih h.2

/-! ## Buses that serve -/

/-- The bus reports changes and can tell its devices, however often it is asked. -/
def Serves (b : β) : Prop :=
  ∀ n, Bus.hasHotplug ((asked true)^[n] b) = true ∧
    ∃ ds, (Bus.enumerate ((asked true)^[n] b)).devices = .ok ds

theorem Serves.asked (h : Serves b) (enumerate : Bool) : Serves (asked enumerate b) := by
  cases enumerate with
  | false => exact h
  | true => exact fun n => h (n + 1)

/-- On a bus that serves nothing is in the way of watches with filters. -/
theorem Serves.clear {ws : List Watch} (h : Serves b) (hws : ∀ w ∈ ws, ∃ f, w.toFilter = .ok f) :
    Clear b ws := by
  induction ws generalizing b with
  | nil => trivial
  | cons w ws ih =>
    obtain ⟨f, hf⟩ := hws w (by simp)
    obtain ⟨hb, ds, hds⟩ := h 0
    have hb : Bus.hasHotplug b = true := hb
    have hds : (Bus.enumerate b).devices = .ok ds := hds
    refine ⟨?_, ih (h.asked w.enumerate) fun v hv => hws v (by simp [hv])⟩
    unfold obstacle?
    simp [hf, hb, hds]

/-- The rule for buses that stay as they have to be when they are asked. -/
theorem serves_of_stable {P : β → Prop} (hstep : ∀ b, P b → Bus.hasHotplug b = true ∧
    (∃ ds, (Bus.enumerate b).devices = .ok ds) ∧ P (Bus.enumerate b).bus) (h : P b) :
    Serves b := by
  intro n
  induction n generalizing b with
  | zero => exact ⟨(hstep b h).1, (hstep b h).2.1⟩
  | succ n ih => exact ih (hstep b h).2.2

theorem MemoryBus.serves {b : MemoryBus} (hb : b.supported = true) (hf : b.failing = false) :
    Serves b := by
  refine serves_of_stable (P := fun b => b.supported = true ∧ b.failing = false) ?_ ⟨hb, hf⟩
  rintro b ⟨hb, hf⟩
  exact ⟨hb, ⟨b.devices, by simp [Bus.enumerate, MemoryBus.list, hf]⟩, hb, hf⟩

end Watch

/-! ## Configurations -/

namespace Config

theorem forM_ok {α ε : Type} {check : α → Except ε Unit} {xs : List α}
    (h : xs.forM check = .ok ()) : ∀ x ∈ xs, check x = .ok () := by
  induction xs with
  | nil => simp
  | cons x xs ih =>
    change (check x >>= fun _ => xs.forM check) = .ok () at h
    cases hx : check x with
    | error why =>
      rw [hx] at h
      cases h
    | ok u =>
      rw [hx] at h
      intro y hy
      rcases List.mem_cons.mp hy with rfl | hy
      · exact hx
      · exact ih h y hy

/-- Every watch of a valid configuration has a filter. -/
theorem toFilter_of_validate {c : Config} (h : c.validate = .ok ()) :
    ∀ w ∈ c.watches, ∃ f, w.toFilter = .ok f := by
  unfold validate at h
  split at h
  · cases h
  · split at h
    · cases h
    · intro w hw
      have hcheck := forM_ok h w hw
      unfold checkWatch at hcheck
      split at hcheck
      · cases hcheck
      · split at hcheck
        · cases hcheck
        · cases hf : w.toFilter with
          | ok f => exact ⟨f, rfl⟩
          | error why => simp [hf] at hcheck

/-- The standard configuration is valid. -/
theorem validate_standard : standard.validate = .ok () := by
  decide +kernel

/-- What is loaded is valid. -/
theorem validate_of_load {env : Environment} {t : FileTree} {path : Option String} {p : String}
    {c : Config} (h : load env t path = .ok (p, c)) : c.validate = .ok () := by
  unfold load at h
  split at h
  · cases h
  · next q _ =>
    unfold readAt at h
    split at h
    · cases h
    · split at h
      · cases h
      · next c' _ =>
        split at h
        · cases h
        · next hv =>
          cases h
          exact hv

/-- A configuration comes from a file, or is what the program goes by without one. -/
def Found (env : Environment) (t : FileTree) (c : Config) : Prop :=
  (∃ path p, load env t path = .ok (p, c)) ∨ c = (loadOrStandard env t).1

theorem Found.valid {env : Environment} {t : FileTree} {c : Config} (h : Found env t c) :
    c.validate = .ok () := by
  rcases h with ⟨path, p, h⟩ | rfl
  · exact validate_of_load h
  · unfold loadOrStandard
    split
    · next h => exact validate_of_load h
    · exact validate_standard

end Config

namespace Watch

open Walk Registry

variable {β : Type} [Bus β] {b : β} {r r' : Registry β}

/-- Handles ascend until they have run out. -/
theorem upcoming_ascending {n : Nat} (hsize : r.entries.size + n < UInt32.size) :
    (upcoming r n).Pairwise (· < ·) := by
  unfold upcoming
  rw [List.pairwise_map]
  refine List.Pairwise.imp_of_mem ?_ List.pairwise_lt_range
  intro j k hj hk hjk
  have hk := List.mem_range.mp hk
  show UInt32.ofNat _ < UInt32.ofNat _
  have hval {i : Nat} (hi : i < UInt32.size) : (UInt32.ofNat i).toNat = i := Nat.mod_eq_of_lt hi
  rw [UInt32.lt_iff_toNat_lt, hval (by omega), hval (by omega)]
  omega

/-- What may be in the way of some of the watches: one has no filter, the bus reports no changes
    and there is a watch, or the bus cannot tell the devices that one asks for. -/
def Hindered (b : β) (ws : List Watch) : Prop :=
  (∃ w ∈ ws, ∃ why, w.toFilter = .error why) ∨ (Bus.hasHotplug b = false ∧ ws ≠ []) ∨
    ∃ before w after why, ws = before ++ w :: after ∧ w.enumerate = true ∧
      (Bus.enumerate (busAfter b before)).devices = .error why

/-- What registering watches in turn comes to. -/
structure Settles (ws : List Watch) (r : Registry β) : Prop where
  /-- If nothing is in the way of any watch, all of them are registered. -/
  done : Clear r.bus ws → ∃ r', (registerAll ws).run r = .ok (.ok (upcoming r ws.length)) r' ∧
    Enrols ws r r'
  /-- The first watch with something in its way is told of, those before it are registered as they
      are alone, and no other is. -/
  stopped : ∀ before w after why, ws = before ++ w :: after → Clear r.bus before →
    w.obstacle? (busAfter r.bus before) = some why →
    ∃ s r', (registerAll before).run r = .ok (.ok (upcoming r before.length)) s ∧
      Enrols before r s ∧ (registerAll ws).run r = .ok (.error why) r' ∧
      if w.listedFirst s.bus then Spoils s r' ∧ (s.entries.size < UInt32.size → r'.held = s.held)
      else r' = s
  /-- It fails exactly if something is in the way of some watch. -/
  fails : (∃ why r', (registerAll ws).run r = .ok (.error why) r') ↔ ∃ before w after why,
    ws = before ++ w :: after ∧ w.obstacle? (busAfter r.bus before) = some why
  /-- On a bus that reports changes, or does not, for good. -/
  hindered : (∀ b : β, Bus.hasHotplug (Bus.enumerate b).bus = Bus.hasHotplug b) →
    ((∃ why r', (registerAll ws).run r = .ok (.error why) r') ↔ Hindered r.bus ws)

/-- Something is in the way of a watch if it has no filter, if the bus reports no changes, or if the
    bus cannot tell the devices that it asks for. -/
theorem obstacle?_isSome {w : Watch} : (∃ why, w.obstacle? b = some why) ↔
    (∃ why, w.toFilter = .error why) ∨ Bus.hasHotplug b = false ∨
      w.enumerate = true ∧ ∃ why, (Bus.enumerate b).devices = .error why := by
  unfold obstacle?
  cases w.toFilter with
  | error why => simp
  | ok f =>
    cases hb : Bus.hasHotplug b with
    | false => simp
    | true => cases hd : (Bus.enumerate b).devices <;> cases w.enumerate <;> simp

/-- Asking for the devices again and again does not change whether the bus reports changes. -/
theorem hasHotplug_busAfter (hstable : ∀ b : β, Bus.hasHotplug (Bus.enumerate b).bus =
    Bus.hasHotplug b) (ws : List Watch) : Bus.hasHotplug (busAfter b ws) = Bus.hasHotplug b := by
  induction ws generalizing b with
  | nil => rfl
  | cons w ws ih =>
    show Bus.hasHotplug (busAfter (asked w.enumerate b) ws) = _
    rw [ih]
    cases w.enumerate with
    | false => rfl
    | true => exact hstable b

theorem hindered_iff (hstable : ∀ b : β, Bus.hasHotplug (Bus.enumerate b).bus = Bus.hasHotplug b)
    {ws : List Watch} : Hindered b ws ↔ ∃ before w after why, ws = before ++ w :: after ∧
      w.obstacle? (busAfter b before) = some why := by
  have hsome (before : List Watch) (w : Watch) := obstacle?_isSome (b := busAfter b before) (w := w)
  constructor
  · rintro (⟨w, hw, hf⟩ | ⟨hb, hne⟩ | ⟨before, w, after, why, hws, hask, hd⟩)
    · obtain ⟨before, after, hws⟩ := List.append_of_mem hw
      obtain ⟨why, h⟩ := (hsome before w).mpr (.inl hf)
      exact ⟨before, w, after, why, hws, h⟩
    · obtain ⟨w, after, hws⟩ := List.exists_cons_of_ne_nil hne
      obtain ⟨why, h⟩ := (hsome [] w).mpr (.inr (.inl hb))
      exact ⟨[], w, after, why, hws, h⟩
    · obtain ⟨why, h⟩ := (hsome before w).mpr (.inr (.inr ⟨hask, why, hd⟩))
      exact ⟨before, w, after, why, hws, h⟩
  · rintro ⟨before, w, after, why, hws, h⟩
    have hw : w ∈ ws := hws ▸ List.mem_append_right _ (.head _)
    rcases (hsome before w).mp ⟨why, h⟩ with hf | hb | ⟨hask, why, hd⟩
    · exact .inl ⟨w, hw, hf⟩
    · rw [hasHotplug_busAfter hstable] at hb
      exact .inr (.inl ⟨hb, List.ne_nil_of_mem hw⟩)
    · exact .inr (.inr ⟨before, w, after, why, hws, hask, hd⟩)

theorem settles (ho : r.Regular) (hr : r.Sane) (ws : List Watch) : Settles ws r := by
  have hdone (hclear : Clear r.bus ws) : ∃ r', (registerAll ws).run r =
      .ok (.ok (upcoming r ws.length)) r' ∧ Enrols ws r r' := by
    obtain ⟨hanswer, henrols, -⟩ := ends_iff_answer?.mp (registerAll_clear ho hr hclear)
    exact ⟨_, run_of_answer? hanswer, henrols⟩
  have hstopped {before : List Watch} {w : Watch} {after : List Watch} {why : RegisterError}
      (hws : ws = before ++ w :: after) (hclear : Clear r.bus before)
      (h : w.obstacle? (busAfter r.bus before) = some why) :
      ∃ s r', (registerAll before).run r = .ok (.ok (upcoming r before.length)) s ∧
        Enrols before r s ∧ (registerAll ws).run r = .ok (.error why) r' ∧
        if w.listedFirst s.bus then Spoils s r' ∧ (s.entries.size < UInt32.size → r'.held = s.held)
        else r' = s := by
    subst hws
    have hends : (registerAll (before ++ w :: after)).Ends _ r :=
      registerAll_obstructed ho hr hclear h
    obtain ⟨hanswer, s, hrun, henrols, hs, hrest⟩ := ends_iff_answer?.mp hends
    refine ⟨s, _, hrun, henrols, run_of_answer? hanswer, ?_⟩
    split
    · next hfirst =>
      rw [if_pos hfirst] at hrest
      exact ⟨hrest, fun hsize => Spoils.held_eq (hs.regular ho) hsize hrest⟩
    · next hfirst => rwa [if_neg hfirst] at hrest
  have hfails : (∃ why r', (registerAll ws).run r = .ok (.error why) r') ↔
      ∃ before w after why, ws = before ++ w :: after ∧
        w.obstacle? (busAfter r.bus before) = some why := by
    rcases clear_or r.bus ws with hclear | ⟨before, w, after, why, hws, hclear, hw⟩
    · obtain ⟨r', hrun, -⟩ := hdone hclear
      constructor
      · rintro ⟨why, s, hrun'⟩
        rw [hrun] at hrun'
        cases hrun'
      · rintro ⟨before, w, after, why, rfl, hw⟩
        rw [hclear.split] at hw
        cases hw
    · obtain ⟨-, r', -, -, hrun, -⟩ := hstopped hws hclear hw
      exact ⟨fun _ => ⟨before, w, after, why, hws, hw⟩, fun _ => ⟨why, r', hrun⟩⟩
  exact ⟨hdone, fun _ _ _ _ => hstopped, hfails, fun hstable => hfails.trans
    (hindered_iff hstable).symm⟩

/-- Registering watches in turn ends at the first one with something in its way, and those before it
    stay. Nothing is in the way of the watches of a configuration that was found, on a bus that
    serves; each of them gets a handle. -/
theorem registerAll_settles (hr : r.Reachable) : (∀ ws : List Watch, Settles ws r) ∧
    ∀ env t c, Config.Found env t c → Serves r.bus →
      (∃ r', (registerAll c.watches).run r = .ok (.ok (upcoming r c.watches.length)) r' ∧
        Enrols c.watches r r') ∧
      (r.entries.size + c.watches.length < UInt32.size →
        (upcoming r c.watches.length).Pairwise (· < ·)) := by
  obtain ⟨bus, os, rfl⟩ := hr.session
  have hsteps := afterAll_steps { bus } os
  have hsettles := settles (hsteps.regular (regular_fresh bus)) (hsteps.sane (sane_fresh bus))
  refine ⟨hsettles, ?_⟩
  intro env t c hfound hserves
  have hclear := hserves.clear (Config.toFilter_of_validate hfound.valid)
  exact ⟨(hsettles c.watches).done hclear, upcoming_ascending⟩

/-- Two watches of which the second asks for devices. -/
def pair : List Watch :=
  [{ name := "pair" }, { name := "all", enumerate := true }]

/-- Without a configuration one watch is registered. On a bus that cannot tell its devices the
    second of two watches is not. -/
theorem registerAll_settles_pair :
    let r : Registry MemoryBus := { bus := {} }
    let q : Registry MemoryBus := { bus := { failing := true } }
    r.Reachable ∧ q.Reachable ∧
      (∃ r', (registerAll Config.standard.watches).run r = .ok (.ok [⟨1⟩]) r' ∧
        Enrols Config.standard.watches r r') ∧
      ∃ s r' why, (registerAll pair).run q = .ok (.error why) r' ∧ Enrols [{ name := "pair" }] q s ∧
        Spoils s r' ∧ r'.held = s.held := by
  intro r q
  refine ⟨.fresh _, .fresh _, ?_, ?_⟩
  · have hfound : Config.Found { home := "/" } {} Config.standard := .inr (by decide +kernel)
    exact ((registerAll_settles (.fresh _)).2 _ _ _ hfound (MemoryBus.serves rfl rfl)).1
  · let w : Watch := { name := "all", enumerate := true }
    have hw : w.obstacle? (busAfter q.bus [{ name := "pair" }]) =
        some (.refused w (.enumerationFailed "mock device list unavailable")) := by
      decide +kernel
    have hclear : Clear q.bus [{ name := "pair" }] := ⟨by decide +kernel, trivial⟩
    obtain ⟨s, r', -, henrols, hrun, hspoils⟩ :=
      ((registerAll_settles (.fresh q.bus)).1 pair).stopped _ w [] _ rfl hclear hw
    have hfirst : w.listedFirst s.bus = true := by
      rw [henrols.bus]
      decide +kernel
    rw [if_pos hfirst] at hspoils
    refine ⟨s, r', _, hrun, henrols, hspoils.1, hspoils.2 ?_⟩
    rw [henrols.size]
    decide +kernel

end Watch

end PlugWatch
