import PlugWatch.Proofs.Deregistration
import PlugWatch.Proofs.Messages

/-! # What becomes of a registration

  Callbacks that only **record** write to the log, print and return. As long as there are no others,
  registrations do not meet: what becomes of one of them is a function of what it was and of what is
  done to the registry. Its **profile** is what can be known of it but for its handle. A profile
  takes arrivals and removals, and is reclaimed, by itself.

  A walk lets profiles **evolve** if it changes the profile at each place by a function for this
  place, and writes nothing but wakeups.
-/

namespace PlugWatch

/-! ## Callbacks that record -/

section Recording

variable {β : Type} [Bus β]

/-- A script that writes to the log, prints and returns. -/
inductive Script.Records : Script β → Prop where
  | finish (v : Verdict) : Records (.finish v)
  | log (e : LogEntry) (next : (Action.log e : Action β).Reply → Script β) : Records (next ()) →
      Records (.act (.log e) next)
  | print (line : String) (next : (Action.print line : Action β).Reply → Script β) :
      Records (next ()) → Records (.act (.print line) next)

/-- What a script returns that only records. -/
def Script.verdict : Script β → Verdict
  | .finish v => v
  | .act (.log _) next => (next ()).verdict
  | .act (.print _) next => (next ()).verdict
  | _ => .keep

/-- A registration whose callbacks only record. -/
structure Registration.Recording (g : Registration β) : Prop where
  arrived : ∀ k d, (g.onArrived k d).Records
  left : ∀ k d, (g.onLeft k d).Records

end Recording

/-! ## Profiles -/

/-- What can be known of a registration but for its handle. -/
structure Profile (β : Type) [Bus β] where
  /-- The registration with what became of it. Its handle says nothing. -/
  entry : Entry β
  held : Bool := true
  /-- The calls of its callbacks. -/
  calls : List Call := []

namespace Profile

variable {β : Type} [Bus β]

/-- A callback is called and returns. -/
def call (p : Profile β) (c : Change) (d : Device) (v : Verdict) : Profile β :=
  { p with entry := p.entry.countCall c, calls := p.calls ++ [⟨c, d, some v⟩] }

/-- The device is kept. -/
def attach (p : Profile β) (d : Device) : Profile β :=
  { p with entry := p.entry.attach d }

/-- The device is given up. -/
def detach (p : Profile β) (id : DeviceId) : Profile β :=
  { p with entry := p.entry.detach id }

/-- The registration is flagged. -/
def flag (p : Profile β) : Profile β :=
  { p with entry := { p.entry with flagged := true } }

/-- An arrival is offered. -/
def arrive (p : Profile β) (d : Device) : Profile β :=
  if p.entry.flagged || !p.entry.expects d then p
  else if p.entry.calls .arrived then
    match (p.entry.onArrived p.entry.arrivals d).verdict with
    | .keep => (p.call .arrived d .keep).attach d
    | .deregister => (p.call .arrived d .deregister).flag
  else p.attach d

/-- The removal callback is called and returns. -/
def release (p : Profile β) (d : Device) : Profile β :=
  p.call .left d (p.entry.onLeft p.entry.removals d).verdict

/-- A removal is offered. -/
def depart (p : Profile β) (id : DeviceId) : Profile β :=
  if p.entry.flagged then p
  else match p.entry.recorded? id with
    | none => p
    | some d => if p.entry.calls .left then (p.detach id).release d else p.detach id

/-- A change is offered. -/
def offer (p : Profile β) (d : Device) : Change → Profile β
  | .arrived => p.arrive d
  | .left => p.depart d.id

/-- A change is dispatched. -/
def hear (p : Profile β) (x : Device × Change) : Profile β :=
  if p.held && p.entry.active then p.offer x.1 x.2 else p

/-- The devices are taken away and reported. -/
def clear (p : Profile β) : Profile β :=
  let p' := { p with entry := { p.entry with attached := [] } }
  if p.entry.calls .left then p.entry.parting.foldl release p' else p'

/-- A sweep. -/
def sweep (p : Profile β) : Profile β :=
  if p.held && p.entry.flagged then clear { p with held := false } else p

section Arrivals

variable {p : Profile β} {d : Device}

theorem arrive_of_passed (h : p.entry.flagged = true ∨ p.entry.expects d = false) :
    p.arrive d = p := by
  unfold arrive
  rcases h with h | h <;> simp [h]

variable (hf : p.entry.flagged = false) (hx : p.entry.expects d = true)

include hf hx

theorem arrive_of_silent (hc : p.entry.calls .arrived = false) : p.arrive d = p.attach d := by
  unfold arrive
  simp [hf, hx, hc]

theorem arrive_of_kept (hc : p.entry.calls .arrived = true)
    (hv : (p.entry.onArrived p.entry.arrivals d).verdict = .keep) :
    p.arrive d = (p.call .arrived d .keep).attach d := by
  unfold arrive
  simp [hf, hx, hc, hv]

theorem arrive_of_dropped (hc : p.entry.calls .arrived = true)
    (hv : (p.entry.onArrived p.entry.arrivals d).verdict = .deregister) :
    p.arrive d = (p.call .arrived d .deregister).flag := by
  unfold arrive
  simp [hf, hx, hc, hv]

end Arrivals

/-- Who is flagged takes no arrivals. -/
theorem foldl_arrive_of_flagged {p : Profile β} (h : p.entry.flagged = true) (ds : List Device) :
    ds.foldl arrive p = p := by
  induction ds with
  | nil => rfl
  | cons d ds ih => rw [List.foldl_cons, arrive_of_passed (.inl h), ih]

section Removals

variable {p : Profile β} {id : DeviceId} {d : Device}

theorem depart_of_passed (h : p.entry.flagged = true ∨ p.entry.recorded? id = none) :
    p.depart id = p := by
  unfold depart
  rcases h with h | h <;> simp [h]

variable (hf : p.entry.flagged = false) (hd : p.entry.recorded? id = some d)

include hf hd

theorem depart_of_silent (hc : p.entry.calls .left = false) : p.depart id = p.detach id := by
  unfold depart
  simp [hf, hd, hc]

theorem depart_of_told (hc : p.entry.calls .left = true) :
    p.depart id = (p.detach id).release d := by
  unfold depart
  simp [hf, hd, hc]

end Removals

end Profile

/-- The entry without its handle. -/
def Entry.unnamed {β : Type} [Bus β] (e : Entry β) : Entry β :=
  { e with handle := ⟨0⟩ }

namespace Registry

open Walk

variable {β : Type} [Bus β] {F G : Nat → Profile β → Profile β} {r r' r'' : Registry β} {i j : Nat}

/-- The profile of an entry at a place. -/
def profile (r : Registry β) (i : Nat) (e : Entry β) : Profile β where
  entry := e.unnamed
  held := r.listed.contains i
  calls := r.calls i

/-- The profile at a place. -/
def profile? (r : Registry β) (i : Nat) : Option (Profile β) :=
  r.entries[i]?.map (r.profile i)

theorem profile?_eq {e : Entry β} (he : r.entries[i]? = some e) :
    r.profile? i = some (r.profile i e) := by
  unfold profile?
  rw [he]
  rfl

theorem profile?_eq_none (h : r.entries[i]? = none) : r.profile? i = none := by
  unfold profile?
  rw [h]
  rfl

theorem lt_size_of_profile? {p : Profile β} (h : r.profile? i = some p) : i < r.entries.size := by
  obtain ⟨e, he, -⟩ := Option.map_eq_some_iff.mp h
  exact lt_size_of_getElem? he

theorem calls_of_profile? {p : Profile β} (h : r.profile? i = some p) : r.calls i = p.calls := by
  obtain ⟨e, -, rfl⟩ := Option.map_eq_some_iff.mp h
  rfl

/-- The same entry, place on the list and calls. -/
theorem profile?_congr (he : r'.entries[i]? = r.entries[i]?)
    (hl : r'.listed.contains i = r.listed.contains i) (hc : r'.calls i = r.calls i) :
    r'.profile? i = r.profile? i := by
  unfold profile? profile
  rw [he, hl, hc]

/-- Every registration only records. -/
def Recording (r : Registry β) : Prop :=
  ∀ (i : Nat) (e : Entry β), r.entries[i]? = some e → e.toRegistration.Recording

/-- The registrations at some places only record. -/
def RecordingAt (r : Registry β) (is : List Nat) : Prop :=
  ∀ i ∈ is, ∀ e : Entry β, r.entries[i]? = some e → e.toRegistration.Recording

theorem Recording.at (h : r.Recording) (is : List Nat) : r.RecordingAt is :=
  fun i _ => h i

/-- The profile at each place changed by its function. -/
structure Evolves (F : Nat → Profile β → Profile β) (r r' : Registry β) : Prop where
  bus : r'.bus = r.bus
  size : r'.entries.size = r.entries.size
  profiles : ∀ i, r'.profile? i = (r.profile? i).map (F i)
  /-- Registrations stay what they are. -/
  registrations : ∀ (i : Nat) (e' : Entry β), r'.entries[i]? = some e' →
    ∃ e, r.entries[i]? = some e ∧ e'.toRegistration = e.toRegistration

/-- Nothing but wakeups was written. -/
def Murmurs (r r' : Registry β) : Prop :=
  ∃ ws, r'.mailbox.messages = r.mailbox.messages ++ ws ∧ ws.filterMap Message.change? = []

/-- A function for one place. -/
def here (k : Nat) (f : Profile β → Profile β) (i : Nat) (p : Profile β) : Profile β :=
  if k = i then f p else p

theorem here_self (k : Nat) (f : Profile β → Profile β) : here k f k = f := by
  funext p
  simp [here]

theorem here_of_ne (h : i ≠ j) (f : Profile β → Profile β) : here i f j = id := by
  funext p
  simp [here, h]

namespace Evolves

theorem refl (r : Registry β) : Evolves (fun _ p => p) r r where
  bus := rfl
  size := rfl
  profiles _ := Option.map_id'.symm
  registrations _ e' he' := ⟨e', he', rfl⟩

theorem trans (h : Evolves F r r') (h' : Evolves G r' r'') :
    Evolves (fun i p => G i (F i p)) r r'' where
  bus := h'.bus.trans h.bus
  size := h'.size.trans h.size
  profiles i := by
    rw [h'.profiles, h.profiles, Option.map_map]
    rfl
  registrations i e'' he'' := by
    obtain ⟨e', he', hreg'⟩ := h'.registrations i e'' he''
    obtain ⟨e, he, hreg⟩ := h.registrations i e' he'
    exact ⟨e, he, hreg'.trans hreg⟩

/-- Functions that agree on the profiles that there are. -/
theorem congr (h : Evolves F r r') (hFG : ∀ i p, r.profile? i = some p → F i p = G i p) :
    Evolves G r r' where
  bus := h.bus
  size := h.size
  profiles i := by
    rw [h.profiles]
    cases hp : r.profile? i with
    | none => rfl
    | some p => exact congrArg some (hFG i p hp)
  registrations := h.registrations

/-- Functions for one place that agree on the profile there. -/
theorem congr_here {k : Nat} {f g : Profile β → Profile β} {e : Entry β}
    (h : Evolves (here k f) r r') (he : r.entries[k]? = some e)
    (hfg : f (r.profile k e) = g (r.profile k e)) : Evolves (here k g) r r' := by
  refine h.congr ?_
  intro i p hp
  by_cases hki : k = i
  · subst hki
    rw [profile?_eq he] at hp
    cases hp
    rw [here_self, here_self, hfg]
  · rw [here_of_ne hki, here_of_ne hki]

/-- Nothing happened, which is what the function says. -/
theorem refl_here {k : Nat} {g : Profile β → Profile β}
    (hg : ∀ e, r.entries[k]? = some e → g (r.profile k e) = r.profile k e) :
    Evolves (here k g) r r := by
  refine (refl r).congr ?_
  intro i p hp
  by_cases hki : k = i
  · subst hki
    obtain ⟨e, he, rfl⟩ := Option.map_eq_some_iff.mp hp
    rw [here_self, hg e he]
  · rw [here_of_ne hki]
    rfl

theorem trans_here {k : Nat} {f g : Profile β → Profile β} (h : Evolves (here k f) r r')
    (h' : Evolves (here k g) r' r'') : Evolves (here k fun p => g (f p)) r r'' := by
  refine (h.trans h').congr ?_
  intro i p _
  unfold here
  split <;> rfl

/-- Whoever is there is still there. -/
theorem entry (h : Evolves F r r') {e : Entry β} (he : r.entries[i]? = some e) :
    ∃ e', r'.entries[i]? = some e' ∧ e'.toRegistration = e.toRegistration := by
  have hlt : i < r'.entries.size := by
    rw [h.size]
    exact lt_size_of_getElem? he
  have he' := Array.getElem?_eq_getElem hlt
  obtain ⟨e₀, he₀, hreg⟩ := h.registrations i _ he'
  rw [he] at he₀
  cases he₀
  exact ⟨_, he', hreg⟩

theorem recording (h : Evolves F r r') (hr : r.Recording) : r'.Recording := by
  intro i e' he'
  obtain ⟨e, he, hreg⟩ := h.registrations i e' he'
  rw [hreg]
  exact hr i e he

theorem recordingAt (h : Evolves F r r') {is : List Nat} (hr : r.RecordingAt is) :
    r'.RecordingAt is := by
  intro i hi e' he'
  obtain ⟨e, he, hreg⟩ := h.registrations i e' he'
  rw [hreg]
  exact hr i hi e he

/-- Nothing but the history, by nothing said, and the mailbox. -/
theorem of_notes {hs : List Happening} (hb : r'.bus = r.bus) (he : r'.entries = r.entries)
    (hl : r'.listed = r.listed) (hh : r'.history.toList = r.history.toList ++ hs)
    (hu : ∀ h ∈ hs, h.Unspoken) : Evolves (fun _ p => p) r r' where
  bus := hb
  size := by rw [he]
  profiles i := by
    rw [Option.map_id']
    exact profile?_congr (by rw [he]) (by rw [hl]) (calls_of_unspoken hh hu)
  registrations i e' he' := ⟨e', by rwa [he] at he', rfl⟩

theorem record (r : Registry β) (x : Happening) (hx : x.Unspoken) :
    Evolves (fun _ p => p) r (r.record x) :=
  of_notes rfl rfl rfl (r.history_record x) (by simpa using hx)

theorem log (r : Registry β) (level : LogLevel) (message : String) :
    Evolves (fun _ p => p) r (r.log level message) :=
  record r _ (by simp [Happening.Unspoken])

theorem wake (r : Registry β) : Evolves (fun _ p => p) r r.wake := by
  obtain ⟨hs, hh, hlogs⟩ := r.history_wake
  refine of_notes (by simp) (by simp) (by simp) hh ?_
  intro h hm
  obtain ⟨e, rfl⟩ := hlogs h hm
  simp [Happening.Unspoken]

/-- A change of the entry at a place that does not look at the handle. -/
theorem update (r : Registry β) (k : Nat) (f : Entry β → Entry β)
    (hf : ∀ e, (f e).unnamed = f e.unnamed) (hreg : ∀ e, (f e).toRegistration = e.toRegistration) :
    Evolves (here k fun p => { p with entry := f p.entry }) r (r.update k f) where
  bus := rfl
  size := size_update r k f
  profiles i := by
    by_cases hki : k = i
    · subst hki
      cases he : r.entries[k]? with
      | none => simp [profile?, Registry.update, Array.getElem?_modify, he]
      | some e =>
        rw [profile?_eq (getElem?_update_self r k f he), profile?_eq he, here_self]
        unfold profile
        rw [hf]
        rfl
    · rw [profile?_congr (getElem?_update_of_ne r k f hki) rfl rfl, here_of_ne hki,
        Option.map_id_apply]
  registrations i e' he' := by
    by_cases hki : k = i
    · subst hki
      cases he : r.entries[k]? with
      | none => simp [Registry.update, Array.getElem?_modify, he] at he'
      | some e =>
        rw [getElem?_update_self r k f he] at he'
        cases he'
        exact ⟨e, rfl, hreg e⟩
    · rw [getElem?_update_of_ne r k f hki] at he'
      exact ⟨e', he', rfl⟩

theorem flag (r : Registry β) (k : Nat) : Evolves (here k Profile.flag) r (r.flag k) := by
  have hset : Evolves (here k Profile.flag) r (r.update k ({ · with flagged := true })) :=
    update r k ({ · with flagged := true }) (fun _ => rfl) fun _ => rfl
  exact hset.trans (record _ (.flagged k) (by simp [Happening.Unspoken]))

theorem dismiss (r : Registry β) (k : Nat) (id : DeviceId) :
    Evolves (here k Profile.flag) r (r.dismiss k id) := by
  rcases r.dismiss_cases k id with ⟨hr, hf⟩ | ⟨_, _, _, _, _, hr⟩
  · rw [hr]
    refine refl_here fun e he => ?_
    show { r.profile k e with entry := { e.unnamed with flagged := true } } = _
    rw [← hf e he]
    rfl
  · rw [hr]
    exact ((flag r k).trans (log _ _ _)).trans (wake _)

end Evolves

namespace Murmurs

theorem of_eq (h : r'.mailbox = r.mailbox) : Murmurs r r' :=
  ⟨[], by rw [h, List.append_nil], rfl⟩

theorem trans (h : Murmurs r r') (h' : Murmurs r' r'') : Murmurs r r'' := by
  obtain ⟨ws, hr, hw⟩ := h
  obtain ⟨ws', hr', hw'⟩ := h'
  refine ⟨ws ++ ws', by rw [hr', hr, List.append_assoc], ?_⟩
  rw [List.filterMap_append, hw, hw']
  rfl

theorem wake (r : Registry β) : Murmurs r r.wake := by
  unfold Murmurs
  rw [mailbox_wake]
  exact r.mailbox.messages_wake

theorem dismiss (r : Registry β) (k : Nat) (id : DeviceId) : Murmurs r (r.dismiss k id) := by
  rcases r.dismiss_cases k id with ⟨hr, -⟩ | ⟨_, _, _, _, _, hr⟩
  · rw [hr]
    exact .of_eq rfl
  · rw [hr]
    exact trans (.of_eq rfl) (wake _)

end Murmurs

/-! ## Walks -/

/-- A walk comes to its end, and profiles have evolved by then. -/
def Develops {α : Type} (w : Walk β α) (F : Nat → Profile β → Profile β) (r : Registry β) : Prop :=
  w.Ends (fun o r' => o.isSome = true ∧ Evolves F r r' ∧ Murmurs r r') r

namespace Develops

variable {α γ : Type} {w : Walk β α} {f : α → Walk β γ}

theorem pure (x : α) (r : Registry β) :
    Develops (Pure.pure x : Walk β α) (fun _ p => p) r :=
  ⟨rfl, .refl r, .of_eq rfl⟩

theorem get {f : Registry β → Walk β γ} (h : Develops (f r) F r) :
    Develops (MonadState.get >>= f) F r := h

theorem change {f : Registry β → Registry β} (h : Evolves F r (f r)) (hm : Murmurs r (f r)) :
    Develops (modify f : Walk β PUnit) F r :=
  ⟨rfl, h, hm⟩

theorem log (level : LogLevel) (message : String) (r : Registry β) :
    Develops (modify (·.log level message) : Walk β PUnit) (fun _ p => p) r :=
  .change (.log r level message) (.of_eq rfl)

theorem bind (h : Develops w F r)
    (hf : ∀ x r', Evolves F r r' → Develops (f x) G r') :
    Develops (w >>= f) (fun i p => G i (F i p)) r := by
  refine Ends.bind h (fun r' hq => absurd hq.1 (by simp)) ?_
  rintro x r' ⟨-, he, hm⟩
  refine (hf x r' he).mono ?_
  rintro o r'' ⟨ho, he', hm'⟩
  exact ⟨ho, he.trans he', hm.trans hm'⟩

/-- The rule for a change that is known. -/
theorem change_bind {g : Registry β → Registry β} {f : PUnit → Walk β γ}
    (h : Evolves F r (g r)) (hm : Murmurs r (g r)) (hf : Develops (f ⟨⟩) G (g r)) :
    Develops (modify g >>= f) (fun i p => G i (F i p)) r := by
  unfold Develops
  rw [ends_bind, ends_modify, before_some]
  refine Ends.mono hf ?_
  rintro o r'' ⟨ho, he, hm'⟩
  exact ⟨ho, h.trans he, hm.trans hm'⟩

theorem congr (h : Develops w F r) (hFG : ∀ i p, r.profile? i = some p → F i p = G i p) :
    Develops w G r :=
  h.mono fun _ _ hq => ⟨hq.1, hq.2.1.congr hFG, hq.2.2⟩

theorem discard (h : Develops w F r) : Develops (Functor.discard w) F r := by
  unfold Develops
  rw [ends_discard]
  refine h.mono ?_
  rintro o r' ⟨ho, hq⟩
  exact ⟨by simpa using ho, hq⟩

end Develops

/-! ## Callbacks -/

/-- Nothing happened but notes that are neither calls nor returns. -/
structure Noted (r r' : Registry β) : Prop where
  bus : r'.bus = r.bus
  entries : r'.entries = r.entries
  listed : r'.listed = r.listed
  mailbox : r'.mailbox = r.mailbox
  news : ∃ hs, r'.history.toList = r.history.toList ++ hs ∧ ∀ h ∈ hs, h.Unspoken

theorem Noted.refl (r : Registry β) : Noted r r :=
  ⟨rfl, rfl, rfl, rfl, [], by simp, by simp⟩

theorem Noted.trans (h : Noted r r') (h' : Noted r' r'') : Noted r r'' where
  bus := h'.bus.trans h.bus
  entries := h'.entries.trans h.entries
  listed := h'.listed.trans h.listed
  mailbox := h'.mailbox.trans h.mailbox
  news := by
    obtain ⟨hs, hh, hu⟩ := h.news
    obtain ⟨hs', hh', hu'⟩ := h'.news
    refine ⟨hs ++ hs', by rw [hh', hh, List.append_assoc], ?_⟩
    intro x hx
    exact (List.mem_append.mp hx).elim (hu x) (hu' x)

theorem Noted.record (r : Registry β) {x : Happening} (hx : x.Unspoken) : Noted r (r.record x) :=
  ⟨rfl, rfl, rfl, rfl, [x], history_record r x, by simpa using hx⟩

theorem run_noted {s : Script β} (hs : s.Records) (r : Registry β) :
    (run s).Ends (fun o r' => o = some s.verdict ∧ Noted r r') r := by
  induction hs generalizing r with
  | finish v => exact ⟨rfl, .refl r⟩
  | log e next _ ih =>
    rw [run, ends_bind, ends_modifyGet, before_some]
    apply (ih (r.record (.logged e))).mono
    intro o r' h
    exact ⟨h.1, (Noted.record r (by simp [Happening.Unspoken])).trans h.2⟩
  | print line next _ ih =>
    rw [run, ends_bind, ends_modifyGet, before_some]
    apply (ih (r.record (.printed line))).mono
    intro o r' h
    exact ⟨h.1, (Noted.record r (by simp [Happening.Unspoken])).trans h.2⟩

/-- The calls after a callback that only recorded has returned. -/
theorem calls_returned {k : Nat} {c : Change} {d : Device} (hn : Noted (r.enter k c d) r')
    (v : Verdict) (i : Nat) : (r'.record (.answered k c d v)).calls i =
      if k = i then r.calls i ++ [⟨c, d, some v⟩] else r.calls i := by
  obtain ⟨hs, hh, hu⟩ := hn.news
  have hcalls : r'.calls i = (r.enter k c d).calls i := calls_of_unspoken hh hu
  by_cases hki : k = i
  · subst hki
    rw [calls_enter] at hcalls
    rw [calls_answered hcalls c d v, if_pos rfl]
  · rw [calls_record, hcalls, enter, calls_record]
    simp [noteCall, hki]

/-- A callback was entered, only recorded and returned. -/
theorem Noted.returned {k : Nat} {c : Change} {d : Device} (hn : Noted (r.enter k c d) r')
    (v : Verdict) : Evolves (here k (·.call c d v)) r (r'.record (.answered k c d v)) := by
  have hcount : Evolves (here k fun p => { p with entry := p.entry.countCall c }) r
      (r.update k (·.countCall c)) :=
    .update r k (·.countCall c) (fun e => by cases c <;> rfl) (fun e => by cases c <;> rfl)
  have hentries : (r'.record (.answered k c d v)).entries =
      (r.update k (·.countCall c)).entries := hn.entries
  have hcalls := calls_returned hn v
  constructor
  · exact hn.bus
  · rw [hentries]
    exact hcount.size
  · intro i
    by_cases hki : k = i
    · subst hki
      rw [here_self]
      cases he : r.entries[k]? with
      | none =>
        have he' : (r.update k (·.countCall c)).entries[k]? = none := by
          simp [update, Array.getElem?_modify, he]
        rw [← hentries] at he'
        rw [profile?_eq_none he', profile?_eq_none he]
        rfl
      | some e =>
        have he' := getElem?_update_self r k (·.countCall c) he
        rw [← hentries] at he'
        rw [profile?_eq he', profile?_eq he]
        unfold profile
        rw [hcalls, if_pos rfl, listed_record, hn.listed]
        cases c <;> rfl
    · have he : (r'.record (.answered k c d v)).entries[i]? = r.entries[i]? := by
        rw [hentries, getElem?_update_of_ne r k _ hki]
      rw [here_of_ne hki, Option.map_id_apply]
      exact profile?_congr he (congrArg (·.contains i) hn.listed) (by rw [hcalls, if_neg hki])
  · intro i e' he'
    rw [hentries] at he'
    exact hcount.registrations i e' he'

/-- A callback that only records is called and returns. -/
theorem call_evolves {s : Script β} (hs : s.Records) (k : Nat) (c : Change) (d : Device)
    (r : Registry β) : (call k c d (run s)).Ends (fun o r' => o = some s.verdict ∧
      Evolves (here k (·.call c d s.verdict)) r r' ∧ r'.mailbox = r.mailbox) r := by
  rw [call_ends]
  apply (run_noted hs _).mono
  rintro o r' ⟨rfl, hn⟩
  exact ⟨rfl, hn.returned _, hn.mailbox⟩

theorem call_develops {s : Script β} (hs : s.Records) (k : Nat) (c : Change) (d : Device)
    (r : Registry β) : Develops (call k c d (run s)) (here k (·.call c d s.verdict)) r := by
  apply (call_evolves hs k c d r).mono
  rintro o r' ⟨rfl, he, hm⟩
  exact ⟨rfl, he, .of_eq hm⟩

/-! ## Offers -/

section Offers

variable {k : Nat} {e : Entry β} (he : r.entries[k]? = some e) (hg : e.toRegistration.Recording)

include he hg

theorem offerArrival_develops (d : Device) :
    (offerArrival k (fun n d => run (e.onArrived n d)) d).Ends (fun o r' =>
      (o = some .dropped → ((r.profile k e).arrive d).entry.flagged = true) ∧
        o.isSome = true ∧ Evolves (here k (·.arrive d)) r r' ∧ Murmurs r r') r := by
  apply offerArrival_ends
  · intro hnone
    rw [he] at hnone
    cases hnone
  · intro e' he' hpass
    cases entry_eq he he'
    refine ⟨by simp, rfl, .refl_here fun e' he' => ?_, .of_eq rfl⟩
    cases entry_eq he he'
    exact Profile.arrive_of_passed hpass
  · intro e' he' hf hx hc
    cases entry_eq he he'
    have hattach : Evolves (here k (·.attach d)) r (r.update k (·.attach d)) :=
      .update r k (·.attach d) (fun _ => rfl) fun _ => rfl
    exact ⟨by simp, rfl, hattach.congr_here he (Profile.arrive_of_silent hf hx hc).symm, .of_eq rfl⟩
  · intro e' he' hf hx hc
    cases entry_eq he he'
    have hcall := call_evolves (hg.arrived e.arrivals d) k .arrived d r
    rw [call_ends] at hcall
    apply hcall.mono
    intro o r' h
    match o with
    | none => exact absurd h.1 (by simp)
    | some .keep =>
      obtain ⟨hv, hcalled, hm⟩ := h
      have harrive := Profile.arrive_of_kept (p := r.profile k e) hf hx hc (Option.some.inj hv).symm
      have hattach : Evolves (here k (·.attach d)) (r'.record (.answered k .arrived d .keep))
          (r'.keep k d) := .update _ k (·.attach d) (fun _ => rfl) fun _ => rfl
      rw [← Option.some.inj hv] at hcalled
      exact ⟨by simp, rfl, (hcalled.trans_here hattach).congr_here he harrive.symm, .of_eq hm⟩
    | some .deregister =>
      obtain ⟨hv, hcalled, hm⟩ := h
      have harrive := Profile.arrive_of_dropped (p := r.profile k e) hf hx hc
        (Option.some.inj hv).symm
      have hflag : Evolves (here k Profile.flag) (r'.record (.answered k .arrived d .deregister))
          (r'.drop k d) := .dismiss _ k d.id
      rw [← Option.some.inj hv] at hcalled
      refine ⟨fun _ => ?_, rfl, (hcalled.trans_here hflag).congr_here he harrive.symm,
        Murmurs.trans (.of_eq hm) (.dismiss _ k d.id)⟩
      rw [harrive]
      rfl

theorem offerLeft_develops (id : DeviceId) :
    Develops (offerLeft k (fun n d => run (e.onLeft n d)) id) (here k (·.depart id)) r := by
  have hdetach : Evolves (here k (·.detach id)) r (r.update k (·.detach id)) :=
    .update r k (·.detach id) (fun _ => rfl) fun _ => rfl
  apply offerLeft_ends
  · intro hnone
    rw [he] at hnone
    cases hnone
  · intro e' he' hpass
    cases entry_eq he he'
    refine ⟨rfl, .refl_here fun e' he' => ?_, .of_eq rfl⟩
    cases entry_eq he he'
    exact Profile.depart_of_passed hpass
  · intro e' d he' hf hd hc
    cases entry_eq he he'
    exact ⟨rfl, hdetach.congr_here he (Profile.depart_of_silent hf hd hc).symm, .of_eq rfl⟩
  · intro e' d he' hf hd hc
    cases entry_eq he he'
    have hcall := call_evolves (hg.left e.removals d) k .left d (r.update k (·.detach id))
    rw [call_ends] at hcall
    apply hcall.mono
    intro o r' h
    match o with
    | none => exact absurd h.1 (by simp)
    | some v =>
      obtain ⟨hv, hcalled, hm⟩ := h
      refine ⟨rfl, (hdetach.trans_here hcalled).congr_here he ?_, .of_eq hm⟩
      exact (Profile.depart_of_told hf hd hc).symm

end Offers

/-- Devices are replayed as long as the registration takes them. -/
theorem replay_develops {k : Nat} {g : Registration β} {e : Entry β} (he : r.entries[k]? = some e)
    (hreg : e.toRegistration = g) (hg : g.Recording) (ds : List Device) :
    Develops (replay k (fun n d => run (g.onArrived n d)) ds) (here k (ds.foldl Profile.arrive))
      r := by
  induction ds generalizing r e with
  | nil => exact (Develops.pure () r).congr fun i p _ => by simp [here]
  | cons d ds ih =>
    subst hreg
    refine replay_cons_ends.mpr ((offerArrival_develops he hg d).mono ?_)
    rintro o r' ⟨hdropped, ho, hone, hm⟩
    have hrest : (replay k (fun n d => run (e.onArrived n d)) ds).Ends (fun o r'' =>
        o.isSome = true ∧ Evolves (here k ((d :: ds).foldl Profile.arrive)) r r'' ∧
          Murmurs r r'') r' := by
      obtain ⟨e', he', hreg'⟩ := hone.entry he
      refine (ih he' hreg').mono ?_
      rintro o r'' ⟨ho', hall, hm'⟩
      exact ⟨ho', hone.trans_here hall, hm.trans hm'⟩
    match o with
    | none => exact absurd ho (by simp)
    | some .dropped =>
      -- The rest is not offered, and would not have been taken.
      have hstop := Profile.foldl_arrive_of_flagged (hdropped rfl) ds
      exact ⟨rfl, hone.congr_here he hstop.symm, hm⟩
    | some .ignored => exact hrest
    | some .attached => exact hrest

/-! ## Registering -/

/-- The profile of a registration that was offered nothing yet. -/
def newcomer (r : Registry β) (g : Registration β) : Profile β where
  entry := { toRegistration := g, handle := ⟨0⟩ }
  calls := r.calls r.entries.size

/-- The profiles after a registration was put on the list. -/
theorem profile?_enlist (r : Registry β) (g : Registration β) (i : Nat) :
    (r.enlist g).profile? i =
      if i = r.entries.size then some (r.newcomer g) else r.profile? i := by
  have hheld : (r.enlist g).listed = r.listed.push r.entries.size := rfl
  split
  · next hi =>
    rw [hi, profile?_eq (getElem?_enlist r g)]
    unfold profile
    rw [calls_enlist, hheld]
    have hown : (r.listed.push r.entries.size).contains r.entries.size = true := by simp
    rw [hown]
    rfl
  · next hi =>
    refine profile?_congr ?_ ?_ (calls_enlist r g)
    · rw [entries_enlist, Array.getElem?_push, if_neg hi]
    · rw [hheld]
      simp [hi]

/-- The profiles when the replay to a new registration begins. -/
theorem profile?_begun (r : Registry β) (g : Registration β) (h : Handle) (ds : List Device)
    (i : Nat) : ((r.enlist g).enumerate.2.beginReplay r.entries.size h ds).profile? i =
      if i = r.entries.size then some (r.newcomer g) else r.profile? i := by
  let s := (r.enlist g).enumerate.2
  let t := s.beginReplay r.entries.size h ds
  have hcalls : t.calls i = s.calls i := by
    obtain ⟨l, hh⟩ := s.history_beginReplay r.entries.size h ds
    exact calls_of_unspoken hh (by simp [Happening.Unspoken])
  have hcalls' : s.calls i = (r.enlist g).calls i := by
    refine calls_of_unspoken (history_enumerate (r.enlist g)) ?_
    intro h hm
    obtain ⟨l, -, rfl⟩ := List.mem_map.mp hm
    simp [Happening.Unspoken]
  rw [← profile?_enlist r g i]
  refine profile?_congr ?_ ?_ (hcalls.trans hcalls')
  · show (r.enlist g).enumerate.2.entries[i]? = _
    rw [entries_enumerate]
  · show (r.enlist g).enumerate.2.listed.contains i = _
    rw [listed_enumerate]

theorem replay_newcomer_develops (r : Registry β) {g : Registration β} (hg : g.Recording)
    (h : Handle) (ds : List Device) :
    Develops (replay r.entries.size (fun n d => run (g.onArrived n d)) ds)
      (here r.entries.size (ds.foldl Profile.arrive))
      ((r.enlist g).enumerate.2.beginReplay r.entries.size h ds) := by
  have hentry : ((r.enlist g).enumerate.2.beginReplay r.entries.size h ds).entries[r.entries.size]?
      = some (r.newEntry g) := getElem?_enlist_enumerate r g
  exact replay_develops hentry rfl hg ds

/-- The devices that a new registration is offered. -/
def greeted (g : Registration β) (b : β) : List Device :=
  if g.filter.enumerate then (Bus.enumerate b).devices.toOption.getD [] else []

theorem greeted_of_asked {g : Registration β} {b : β} {ds : List Device}
    (hn : g.filter.enumerate = true) (hd : (Bus.enumerate b).devices = .ok ds) :
    greeted g b = ds := by
  simp [greeted, hn, hd, Except.toOption]

theorem greeted_of_unasked {g : Registration β} (hn : g.filter.enumerate = false) (b : β) :
    greeted g b = [] := by
  simp [greeted, hn]

/-- The profiles after the devices present were replayed to a new registration. -/
theorem Evolves.replayed {g : Registration β} {h : Handle} {ds : List Device}
    (he : Evolves (here r.entries.size (ds.foldl Profile.arrive))
      ((r.enlist g).enumerate.2.beginReplay r.entries.size h ds) r') (i : Nat) :
    r'.profile? i = if i = r.entries.size then some (ds.foldl Profile.arrive (r.newcomer g))
      else r.profile? i := by
  rw [he.profiles, profile?_begun]
  by_cases hi : i = r.entries.size
  · rw [if_pos hi, if_pos hi, hi, here_self]
    rfl
  · rw [if_neg hi, if_neg hi, here_of_ne (Ne.symm hi), Option.map_id_apply]

/-- A new registration takes the devices that it is offered. Nobody else is concerned. -/
theorem register_greets {g : Registration β} (hb : Bus.hasHotplug r.bus = true)
    (hc : g.check = .ok ()) (hg : g.Recording)
    (hd : g.filter.enumerate = true → ∃ ds, (Bus.enumerate r.bus).devices = .ok ds) :
    (register g).Ends (fun o r' => o = some (.ok r.nextHandle) ∧ ∀ i, r'.profile? i =
      if i = r.entries.size then some ((greeted g r.bus).foldl Profile.arrive (r.newcomer g))
      else r.profile? i) r := by
  apply registerWith_accepts hb hc hd
  · intro hn
    rw [greeted_of_unasked hn]
    exact ⟨rfl, profile?_enlist r g⟩
  · intro hn ds hds
    rw [greeted_of_asked hn hds]
    apply (replay_newcomer_develops r hg r.nextHandle ds).mono
    rintro o r' ⟨ho, he, -⟩
    obtain ⟨u, rfl⟩ := Option.isSome_iff_exists.mp ho
    exact ⟨rfl, he.replayed⟩

/-! ## Dispatching -/

theorem offer_develops {k : Nat}
    (hr : ∀ e : Entry β, r.entries[k]? = some e → e.toRegistration.Recording) (d : Device)
    (c : Change) : Develops (offer d c k) (here k (·.offer d c)) r := by
  apply offer_ends
  · intro hnone
    refine ⟨rfl, .refl_here fun e he => ?_, .of_eq rfl⟩
    rw [hnone] at he
    cases he
  · rintro e he rfl
    refine (offerArrival_develops he (hr e he) d).mono ?_
    rintro o r' ⟨-, ho, hq⟩
    exact ⟨by simpa using ho, hq⟩
  · rintro e he rfl
    exact offerLeft_develops he (hr e he) d.id

theorem offerAll_develops {is : List Nat} (hr : r.RecordingAt is) (d : Device) (c : Change)
    (his : is.Nodup) :
    Develops (offerAll d c is) (fun i p => if i ∈ is then p.offer d c else p) r := by
  induction is generalizing r with
  | nil => exact (Develops.pure 0 r).congr fun i p _ => by simp
  | cons k is ih =>
    obtain ⟨hk, his⟩ := List.nodup_cons.mp his
    unfold offerAll
    have hrest : r.RecordingAt is := fun i hi => hr i (List.mem_cons_of_mem _ hi)
    have hwalk := (offer_develops (hr k List.mem_cons_self) d c).bind fun taken r' he =>
      (ih (he.recordingAt hrest) his).bind fun n r'' _ => .pure (taken.toNat + n) r''
    refine hwalk.congr ?_
    intro i p _
    by_cases hki : k = i
    · subst hki
      simp [here, hk]
    · simp [here, hki, Ne.symm hki]

theorem dispatch_develops (hr : r.RecordingAt r.listed.toList) (ho : r.Orderly) (d : Device)
    (c : Change) :
    Develops (dispatch d c) (fun _ p => p.hear (d, c)) r := by
  have hnote : Evolves (fun _ p => p) r (r.record (.dispatched d c)) :=
    .record r _ (by simp [Happening.Unspoken])
  have hactive : r.RecordingAt (r.places (·.active)) :=
    fun i hi => hr i (Array.mem_toList_iff.mpr (mem_places.mp hi).1)
  have hoffers := offerAll_develops (hnote.recordingAt hactive) d c (ho.nodup_places (·.active))
  unfold dispatch
  refine Develops.congr (.change_bind hnote (.of_eq rfl) (.get (hoffers.bind fun n r' _ =>
    (Develops.log _ _ r').bind fun _ r'' _ => .pure n r''))) ?_
  intro i p hp
  obtain ⟨e, he, rfl⟩ := Option.map_eq_some_iff.mp hp
  have hmem : i ∈ r.places (·.active) ↔
      ((r.profile i e).held && (r.profile i e).entry.active) = true := by
    rw [mem_places, he]
    simp [profile, Entry.active, Entry.unnamed]
  unfold Profile.hear
  simp only [hmem]

/-! ## Sweeping -/

theorem release_develops {k : Nat} {e e' : Entry β} (he : r.entries[k]? = some e')
    (hreg : e'.toRegistration = e.toRegistration) (hg : e.toRegistration.Recording)
    (ds : List Device) :
    Develops (release k e ds) (here k (ds.foldl Profile.release)) r := by
  induction ds generalizing r e' with
  | nil => exact (Develops.pure () r).congr fun i p _ => by simp [here]
  | cons d ds ih =>
    unfold release
    refine .get ?_
    rw [he]
    have hcall := call_develops (hg.left e'.removals d) k .left d r
    refine Develops.congr (hcall.discard.bind (G := here k (ds.foldl Profile.release))
      fun _ r' h => ?_) ?_
    · obtain ⟨e'', he'', hreg'⟩ := h.entry he
      exact ih he'' (hreg'.trans hreg)
    · intro i p hp
      by_cases hki : k = i
      · subst hki
        rw [profile?_eq he] at hp
        cases hp
        have hone : (r.profile k e').release d =
            (r.profile k e').call .left d (e.onLeft e'.removals d).verdict := by
          rw [← hreg]
          rfl
        rw [here_self, here_self, here_self, List.foldl_cons, hone]
      · simp [here, hki]

theorem reclaim_develops (hr : r.Recording) (k : Nat) :
    Develops (reclaim k) (here k Profile.clear) r := by
  unfold reclaim
  refine .get ?_
  cases he : r.entries[k]? with
  | none =>
    refine ⟨rfl, .refl_here fun e he' => ?_, .of_eq rfl⟩
    rw [he] at he'
    cases he'
  | some e =>
    have hempty : Evolves (here k fun p => { p with entry := { p.entry with attached := [] } }) r
        (r.update k ({ · with attached := [] })) :=
      .update r k ({ · with attached := [] }) (fun _ => rfl) fun _ => rfl
    let G : Nat → Profile β → Profile β := here k fun p =>
      if e.calls .left then e.parting.foldl Profile.release p else p
    refine Develops.congr (.change_bind (G := G) hempty (.of_eq rfl) ?_) ?_
    · split
      · next hc =>
        have he' := getElem?_update_self r k ({ · with attached := [] }) he
        have hrelease : Develops (release k e e.parting)
            (here k (e.parting.foldl Profile.release))
            (r.update k ({ · with attached := [] })) :=
          release_develops (e := e) he' rfl (hr k e he) e.parting
        refine Develops.congr (hrelease.bind fun _ r' _ => .log _ _ r') ?_
        intro i p _
        simp [G, here, hc]
      · next hc =>
        refine Develops.congr (.log _ _ _) ?_
        intro i p _
        simp [G, here, hc]
    · intro i p hp
      by_cases hki : k = i
      · subst hki
        rw [profile?_eq he] at hp
        cases hp
        simp only [G, here_self]
        rfl
      · simp [G, here, hki]

theorem reclaimAll_develops (hr : r.Recording) {is : List Nat} (his : is.Nodup) :
    Develops (reclaimAll is) (fun i p => if i ∈ is then p.clear else p) r := by
  induction is generalizing r with
  | nil => exact (Develops.pure () r).congr fun i p _ => by simp
  | cons k is ih =>
    obtain ⟨hk, his⟩ := List.nodup_cons.mp his
    unfold reclaimAll
    have hwalk := (reclaim_develops hr k).bind fun _ r' he => ih (he.recording hr) his
    refine hwalk.congr ?_
    intro i p _
    by_cases hki : k = i
    · subst hki
      simp [here, hk]
    · simp [here, hki, Ne.symm hki]

/-- The flagged registrations go off the list. -/
theorem Evolves.startSweep (r : Registry β) :
    Evolves (fun _ p => { p with held := p.held && p.entry.active }) r r.startSweep where
  bus := bus_startSweep r
  size := by rw [entries_startSweep]
  profiles i := by
    cases he : r.entries[i]? with
    | none =>
      have he' : r.startSweep.entries[i]? = none := by rw [entries_startSweep, he]
      rw [profile?_eq_none he, profile?_eq_none he']
      rfl
    | some e =>
      have he' : r.startSweep.entries[i]? = some e := by rw [entries_startSweep, he]
      have hcalls : r.startSweep.calls i = r.calls i :=
        calls_of_unspoken (history_startSweep r) (by simp [Happening.Unspoken])
      have hheld : r.startSweep.listed.contains i = (r.listed.contains i && e.active) := by
        rw [Bool.eq_iff_iff]
        simp [Registry.satisfies, he, Entry.active]
      rw [profile?_eq he, profile?_eq he']
      unfold profile
      rw [hcalls, hheld]
      rfl
  registrations i e' he' := ⟨e', by rwa [entries_startSweep] at he', rfl⟩

theorem sweep_develops (hr : r.Recording) (ho : r.Orderly) :
    Develops sweep (fun _ => Profile.sweep) r := by
  have hstart : Evolves (fun _ p => { p with held := p.held && p.entry.active }) r r.startSweep :=
    .startSweep r
  have hall := reclaimAll_develops (hstart.recording hr) (ho.nodup_places (·.flagged))
  unfold sweep
  refine Develops.congr (.get (.change_bind hstart (.of_eq (mailbox_startSweep r))
    (hall.bind fun _ r' _ => .pure _ r'))) ?_
  intro i p hp
  obtain ⟨e, he, rfl⟩ := Option.map_eq_some_iff.mp hp
  have hmem : i ∈ r.places (·.flagged) ↔
      ((r.profile i e).held && (r.profile i e).entry.flagged) = true := by
    rw [mem_places, he]
    simp [profile, Entry.unnamed]
  unfold Profile.sweep
  simp only [hmem, Entry.active]
  generalize r.profile i e = p
  obtain ⟨e, held, cs⟩ := p
  cases held with
  | false => rfl
  | true => cases hf : e.flagged <;> simp

end Registry

end PlugWatch
