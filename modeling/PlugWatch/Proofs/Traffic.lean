import PlugWatch.EventLoop
import PlugWatch.Proofs.Attention
import PlugWatch.Proofs.Pending
import PlugWatch.Proofs.Queueing

/-! # Traffic on the bus

  What happens on the bus while the event loop waits, and what comes of it. The bus **reports** that
  a peripheral arrived or left; each report is a **notice** of a place, with the device if its
  descriptor could be read then. A listener queues a change for every notice with a device, and none
  for the others.

  In a **pass** the listener queues the changes of the notices, and then everybody who pays
  attention hears of them, in order. This is so whether the pass was interrupted, failed or neither.
-/

namespace PlugWatch

/-! ## Reports -/

/-- Something that happens on the bus while the event loop waits. -/
inductive UsbBus.Event where
  | command (command : UsbBus.Command)
  /-- The bus reports that the peripheral in a slot arrived or left. -/
  | report (slot : Nat) (change : Change)

/-- What happens on the bus during a pass of the event loop. -/
structure UsbBus.Traffic where
  events : List UsbBus.Event := []
  /-- Why the bus could not report. -/
  error : Option UsbError := none

/-- What a report comes to. -/
structure UsbBus.Notice where
  /-- Who arrived or left. -/
  id : DeviceId
  change : Change
  /-- The device, if its descriptor could be read. -/
  device : Option Device
  deriving DecidableEq, Repr

namespace UsbBus

/-- Something happens on the bus. -/
def Event.walk : Event → Walk UsbBus Unit
  | .command c => modify fun r => { r with bus := r.bus.apply c }
  | .report slot c => EventLoop.report slot c

/-- A pass in which this happens. -/
def Traffic.pass (t : Traffic) : Walk UsbBus (EventLoop.Pass Unit) := do
  t.events.forM Event.walk
  return { result := (), error := t.error }

/-- The notice of an event, if it is a report. -/
def Event.notice? (b : UsbBus) : Event → Option Notice
  | .command _ => none
  | .report slot c => some
    { id := (b.slots slot).id, change := c, device := (b.sight slot).1.toOption }

/-- The bus after an event. -/
def afterEvent (b : UsbBus) : Event → UsbBus
  | .command c => b.apply c
  | .report slot _ => (b.sight slot).2

/-- The notices of events, in order. -/
def notices (b : UsbBus) : List Event → List Notice
  | [] => []
  | e :: es => (e.notice? b).toList ++ (b.afterEvent e).notices es

/-- The change that a notice leads to, if any. -/
def Notice.change? (n : Notice) : Option (Device × Change) :=
  n.device.map (·, n.change)

/-- The changes that notices lead to, in order. -/
def changesIn (ns : List Notice) : List (Device × Change) :=
  ns.filterMap Notice.change?

theorem changesIn_append (ns ns' : List Notice) :
    changesIn (ns ++ ns') = changesIn ns ++ changesIn ns' :=
  List.filterMap_append

theorem changesIn_cons (n : Notice) (ns : List Notice) :
    changesIn (n :: ns) = n.change?.toList ++ changesIn ns := by
  unfold changesIn
  cases hc : n.change? <;> simp [hc]

/-- What a notice leads to is about the device that it is about. -/
def Notice.Faithful (n : Notice) : Prop :=
  ∀ d, n.device = some d → d.id = n.id

theorem id_read (u : UsbDevice) : u.read.2.id = u.id := by
  unfold UsbDevice.read
  split <;> rfl

theorem faithful_notices (b : UsbBus) (es : List Event) : ∀ n ∈ b.notices es, n.Faithful := by
  induction es generalizing b with
  | nil => simp [notices]
  | cons e es ih =>
    intro n hn
    rcases List.mem_append.mp hn with hn | hn
    · cases e with
      | command c => simp [Event.notice?] at hn
      | report slot c =>
        have hn : n = ⟨(b.slots slot).id, c, (b.sight slot).1.toOption⟩ := by
          simpa [Event.notice?] using hn
        subst hn
        intro d hd
        have hsight : (b.sight slot).1 =
          (b.slots slot).read.1.map fun x => ⟨(b.slots slot).read.2.id, x⟩ := rfl
        simp only [hsight] at hd
        cases hread : (b.slots slot).read.1 with
        | error why =>
          rw [hread] at hd
          cases hd
        | ok x =>
          rw [hread] at hd
          cases hd
          exact id_read _
    · exact ih _ n hn

theorem notices_append (b : UsbBus) (es es' : List Event) :
    b.notices (es ++ es') = b.notices es ++ (es.foldl afterEvent b).notices es' := by
  induction es generalizing b with
  | nil => rfl
  | cons e es ih =>
    rw [List.cons_append, notices, notices, ih, List.append_assoc]
    rfl

@[simp] theorem listeners_afterEvent (b : UsbBus) (e : Event) :
    (b.afterEvent e).listeners = b.listeners := by
  cases e with
  | command c => cases c <;> rfl
  | report slot c => rfl

theorem listeners_afterEvents (b : UsbBus) (es : List Event) :
    (es.foldl afterEvent b).listeners = b.listeners := by
  induction es generalizing b with
  | nil => rfl
  | cons e es ih => rw [List.foldl_cons, ih, listeners_afterEvent]

end UsbBus

/-! ## Listening -/

/-- Neither a call nor a return nor a line. -/
def Happening.Mute : Happening → Prop
  | called _ _ _ => False
  | answered _ _ _ _ => False
  | printed _ => False
  | _ => True

theorem Happening.Mute.unspoken {h : Happening} (hm : h.Mute) : h.Unspoken := by
  cases h <;> first | exact False.elim hm | simp [Happening.Unspoken]

namespace Registry

open Walk UsbBus

variable {r r' r'' : Registry UsbBus} {b b' : UsbBus} {cs cs' : List (Device × Change)}

/-- The changes that wait. -/
def waiting (r : Registry UsbBus) : List (Device × Change) :=
  r.mailbox.messages.filterMap Message.change?

/-- Nothing happened but what a listener notes and queues. -/
structure Queues (b : UsbBus) (cs : List (Device × Change)) (r r' : Registry UsbBus) : Prop where
  steps : Steps r r'
  bus : r'.bus = b
  entries : r'.entries = r.entries
  listed : r'.listed = r.listed
  kept : r'.mailbox.Kept
  waiting : r'.waiting = r.waiting ++ cs
  news : ∃ hs, r'.history.toList = r.history.toList ++ hs ∧ ∀ h ∈ hs, h.Mute

namespace Queues

theorem refl (hk : r.mailbox.Kept) : Queues r.bus [] r r :=
  ⟨.refl r, rfl, rfl, rfl, hk, by simp, [], by simp, by simp⟩

theorem trans (h : Queues b cs r r') (h' : Queues b' cs' r' r'') :
    Queues b' (cs ++ cs') r r'' where
  steps := h.steps.trans h'.steps
  bus := h'.bus
  entries := h'.entries.trans h.entries
  listed := h'.listed.trans h.listed
  kept := h'.kept
  waiting := by rw [h'.waiting, h.waiting, List.append_assoc]
  news := by
    obtain ⟨hs, hh, hm⟩ := h.news
    obtain ⟨hs', hh', hm'⟩ := h'.news
    refine ⟨hs ++ hs', by rw [hh', hh, List.append_assoc], ?_⟩
    intro x hx
    exact (List.mem_append.mp hx).elim (hm x) (hm' x)

/-- Something is written to the log. -/
theorem log (hk : r.mailbox.Kept) (e : LogEntry) : Queues r.bus [] r (r.record (.logged e)) where
  steps := (Step.aside (.perform r (.log e))).steps
  bus := rfl
  entries := rfl
  listed := rfl
  kept := hk
  waiting := (List.append_nil _).symm
  news := ⟨[.logged e], history_record r _, by simp [Happening.Mute]⟩

/-- Something is written to the log afterwards. -/
theorem andLog (h : Queues b cs r r') (e : LogEntry) :
    Queues b cs r (r'.record (.logged e)) := by
  have hall := h.trans (log h.kept e)
  rwa [List.append_nil, h.bus] at hall

/-- Something happens to the bus. -/
theorem command (hk : r.mailbox.Kept) (c : UsbBus.Command) :
    Queues (r.bus.apply c) [] r { r with bus := r.bus.apply c } where
  steps := (Step.aside (.perform r (.bus c))).steps
  bus := rfl
  entries := rfl
  listed := rfl
  kept := hk
  waiting := (List.append_nil _).symm
  news := ⟨[], by simp, by simp⟩

/-- A change is queued. -/
theorem notify (hk : r.mailbox.Kept) (d : Device) (c : Change) :
    Queues r.bus [(d, c)] r (r.notify d c).2 := by
  have hsteps : Steps r (r.notify d c).2 := (Step.aside (.perform r (.notify d c))).steps
  rcases r.notify_cases d c with ⟨-, hn⟩ | ⟨hclosed, -⟩
  · rw [hn] at hsteps ⊢
    refine ⟨hsteps, rfl, rfl, rfl, hk.post d c, ?_, [.notified d c], history_record _ _,
      by simp [Happening.Mute]⟩
    simp [Registry.waiting, Message.change?]
  · rw [hk.opened] at hclosed
    cases hclosed

/-- A descriptor is read. -/
theorem sight (hk : r.mailbox.Kept) (slot : Nat) :
    Queues (r.bus.sight slot).2 [] r { r with bus := (r.bus.sight slot).2 } :=
  command hk (.define slot (r.bus.slots slot).read.2)

end Queues

/-- A listener was told of a change and has read the descriptor. -/
def sighted (r : Registry UsbBus) (slot : Nat) (c : Change) : Registry UsbBus :=
  { r.record (.logged { level := .debug, source := .listener, message := EventLoop.noticed c }) with
    bus := (r.bus.sight slot).2 }

/-- The rule for a listener that is told of a change. -/
theorem forward_ends {Q : Option Unit → Registry UsbBus → Prop} {slot : Nat} {c : Change}
    (unread : ∀ why, (r.bus.sight slot).1 = .error why → ∀ e,
      Q (some ()) ((r.sighted slot c).record (.logged e)))
    (read : ∀ d, (r.bus.sight slot).1 = .ok d → Q (some ()) ((r.sighted slot c).notify d c).2 ∧
      ∀ e, Q (some ()) (((r.sighted slot c).notify d c).2.record (.logged e))) :
    (EventLoop.forward slot c).Ends Q r := by
  unfold sighted at unread read
  unfold EventLoop.forward EventLoop.log
  simp only [ends_bind, ends_modify, ends_get, ends_modifyGet, before_some, bus_record]
  generalize r.bus.sight slot = sight at unread read ⊢
  obtain ⟨answer, bus⟩ := sight
  cases answer with
  | error why => exact unread why rfl _
  | ok d =>
    obtain ⟨queued, refused⟩ := read d rfl
    simp only [ends_bind, ends_modifyGet, before_some]
    split
    · exact refused _
    · exact queued

/-- A listener is told of a change. -/
theorem forward_queues (hk : r.mailbox.Kept) (slot : Nat) (c : Change) :
    (EventLoop.forward slot c).Ends (fun o r' => o = some () ∧ Queues (r.bus.sight slot).2
      (changesIn ((Event.report slot c).notice? r.bus).toList) r r') r := by
  have hnoted : Queues r.bus [] r (r.record (.logged
    { level := .debug, source := .listener, message := EventLoop.noticed c })) := .log hk _
  have hread : Queues (r.bus.sight slot).2 [] r (r.sighted slot c) :=
    hnoted.trans (.sight hnoted.kept slot)
  apply forward_ends
  · intro why hsight e
    have hnone : changesIn ((Event.report slot c).notice? r.bus).toList = [] := by
      simp [changesIn, Event.notice?, Notice.change?, hsight, Except.toOption]
    rw [hnone]
    exact ⟨rfl, hread.andLog e⟩
  · intro d hsight
    have hone : changesIn ((Event.report slot c).notice? r.bus).toList = [(d, c)] := by
      simp [changesIn, Event.notice?, Notice.change?, hsight, Except.toOption]
    have hqueued := hread.trans (.notify hread.kept d c)
    rw [hone]
    exact ⟨⟨rfl, hqueued⟩, fun e => ⟨rfl, hqueued.andLog e⟩⟩

theorem event_queues (hk : r.mailbox.Kept) (hone : r.bus.listeners = 1) (e : Event) :
    e.walk.Ends (fun o r' => o = some () ∧
      Queues (r.bus.afterEvent e) (changesIn (e.notice? r.bus).toList) r r') r := by
  cases e with
  | command c => exact ⟨rfl, .command hk c⟩
  | report slot c =>
    unfold Event.walk EventLoop.report
    simp only [ends_bind, ends_get, before_some, hone, EventLoop.tell]
    apply (forward_queues hk slot c).mono
    rintro _ r' ⟨rfl, h⟩
    exact ⟨rfl, h⟩

theorem events_queues (hk : r.mailbox.Kept) (hone : r.bus.listeners = 1) (es : List Event) :
    (es.forM Event.walk).Ends (fun o r' => o = some () ∧
      Queues (es.foldl afterEvent r.bus) (changesIn (r.bus.notices es)) r r') r := by
  induction es generalizing r with
  | nil => exact ⟨rfl, .refl hk⟩
  | cons e es ih =>
    show Ends (e.walk >>= fun _ => es.forM Event.walk) _ r
    refine Ends.bind (event_queues hk hone e) ?_ ?_
    · rintro r' ⟨hnone, -⟩
      cases hnone
    · rintro _ r' ⟨-, h⟩
      have hlisteners : r'.bus.listeners = 1 := by rw [h.bus, listeners_afterEvent, hone]
      apply (ih h.kept hlisteners).mono
      rintro _ r'' ⟨rfl, h'⟩
      rw [h.bus] at h'
      refine ⟨rfl, ?_⟩
      have hall := h.trans h'
      rwa [← changesIn_append] at hall

/-! ## Passes -/

/-- Every registration is held and active and keeps what it takes, and these changes wait. -/
structure Attending (cs : List (Device × Change)) (r : Registry UsbBus) : Prop where
  regular : r.Regular
  kept : r.mailbox.Kept
  waiting : r.waiting = cs
  attentive : ∀ i p, r.profile? i = some p → ∃ g, g.Steady ∧ p.Attentive g

/-- Every registration heard of changes. -/
structure Hearing (b : UsbBus) (cs : List (Device × Change)) (r r' : Registry UsbBus) : Prop where
  steps : Steps r r'
  bus : r'.bus = b
  profiles : ∀ i, r'.profile? i = (r.profile? i).map fun p => cs.foldl Profile.hear p

theorem Hearing.trans (h : Hearing b cs r r') (h' : Hearing b' cs' r' r'') :
    Hearing b' (cs ++ cs') r r'' where
  steps := h.steps.trans h'.steps
  bus := h'.bus
  profiles i := by
    rw [h'.profiles, h.profiles, Option.map_map]
    congr 1
    funext p
    exact List.foldl_append.symm

/-- What the listener notes and queues is heard of by nobody yet. -/
theorem Queues.hearing (h : Queues b cs r r') : Hearing b [] r r' where
  steps := h.steps
  bus := h.bus
  profiles i := by
    obtain ⟨hs, hh, hm⟩ := h.news
    simp only [List.foldl_nil, Option.map_id']
    exact profile?_congr (by rw [h.entries]) (by rw [h.listed])
      (calls_of_unspoken hh fun x hx => (hm x hx).unspoken)

theorem Queues.attending (h : Queues b cs r r') (hr : Attending cs' r) :
    Attending (cs' ++ cs) r' where
  regular := h.steps.regular hr.regular
  kept := h.kept
  waiting := by rw [h.waiting, hr.waiting]
  attentive i p hp := by
    rw [h.hearing.profiles] at hp
    exact hr.attentive i p (by simpa using hp)

theorem Attending.recording (h : Attending cs r) : r.Recording := by
  intro i e he
  obtain ⟨g, hg, hp⟩ := h.attentive i _ (profile?_eq he)
  have hreg : e.toRegistration = g := hp.registration
  exact hreg ▸ hg.toRecording

/-- Everybody hears of what waits. -/
theorem handlePending_hearing (h : Attending cs r) : handlePending.Ends (fun o r' =>
    o.isSome = true ∧ Attending [] r' ∧ Hearing r.bus cs r r') r := by
  have hevolves := handlePending_evolves h.recording h.regular.orderly
  have hkept := handlePending_wakeful h.kept
  apply ((hevolves.and hkept).and (ends_left handlePending r)).mono
  rintro o r' ⟨⟨⟨ho, he, hidle⟩, hw⟩, rfl⟩
  have hsteps : Steps r (left handlePending r) := by
    have hafter := afterAll_steps r [.handlePending]
    rwa [show r.afterAll [.handlePending] = left handlePending r from left_discard _ r] at hafter
  have hprofiles : ∀ i, (left handlePending r).profile? i =
      (r.profile? i).map fun p => cs.foldl Profile.hear p := by
    intro i
    rw [he.profiles]
    cases hp : r.profile? i with
    | none => rfl
    | some p =>
      obtain ⟨g, hg, hatt⟩ := h.attentive i p hp
      -- Nobody is flagged, so the sweep takes nobody off the list.
      rw [show r.mailbox.messages.filterMap Message.change? = cs from h.waiting, Option.map_some,
        (hatt.hearAll hg cs).1.sweep_eq]
      rfl
  refine ⟨ho, ⟨hsteps.regular h.regular, hw.kept, hidle, ?_⟩, hsteps, he.bus, hprofiles⟩
  intro i p hp
  rw [hprofiles, Option.map_eq_some_iff] at hp
  obtain ⟨q, hq, rfl⟩ := hp
  obtain ⟨g, hg, hatt⟩ := h.attentive i q hq
  exact ⟨g, hg, (hatt.hearAll hg cs).1⟩

/-- Something is written to the log. -/
theorem Attending.log (h : Attending cs r) (e : LogEntry) :
    Attending cs (r.record (.logged e)) := by
  have hlogged := (Queues.log h.kept e).attending h
  rwa [List.append_nil] at hlogged

/-- The bus is another one. -/
theorem Attending.rebus (h : Attending cs r) (b : UsbBus) :
    Attending cs { r with bus := b } where
  regular := h.regular.of_notes (List.append_nil _).symm rfl rfl (by simp) (by simp)
  kept := h.kept
  waiting := h.waiting
  attentive := h.attentive

/-- Something is written to the log afterwards. -/
theorem Hearing.log (h : Hearing b cs r r') (e : LogEntry) :
    Hearing b cs r (r'.record (.logged e)) where
  steps := h.steps.trans (Step.aside (.perform r' (.log e))).steps
  bus := h.bus
  profiles i := by
    rw [← h.profiles i]
    exact profile?_congr rfl rfl
      (calls_of_unspoken (history_record r' _) (by simp [Happening.Unspoken]))

/-- The rule for the end of a pass: what is pending is handled, and before and afterwards something
    may be written to the log. -/
theorem settle_ends {P : Registry UsbBus → Prop} {Q : Option Unit → Registry UsbBus → Prop}
    {error : Option UsbError} (hr : P r) (before : ∀ s e, P s → P (s.record (.logged e)))
    (handled : ∀ s, P s → handlePending.Ends (fun o => Q (o.map fun _ => ())) s)
    (after : ∀ s e, Q (some ()) s → Q (some ()) (s.record (.logged e))) :
    (EventLoop.settle error).Ends Q r := by
  have hrest {s : Registry UsbBus} (hs : P s) : Ends (do
      let n ← handlePending
      if n > 0 then
        EventLoop.log .eventLoop .debug s!"Event pass processed {n} hotplug messages") Q s := by
    refine Ends.bind (handled s hs) (fun _ hq => hq) fun n t ht => ?_
    split
    · exact after t _ ht
    · exact ht
  unfold EventLoop.settle
  match error with
  | none => exact hrest hr
  | some e => cases e <;> exact hrest (before r _ hr)

/-- At the end of a pass everybody hears of what was queued. -/
theorem settle_hearing (h : Attending cs r) (error : Option UsbError) :
    (EventLoop.settle error).Ends (fun o r' =>
      o = some () ∧ Attending [] r' ∧ Hearing r.bus cs r r') r := by
  refine settle_ends (P := fun s => Attending cs s ∧ Hearing r.bus [] r s)
    ⟨h, .refl r, rfl, fun i => by simp⟩ ?_ ?_ ?_
  · rintro s e ⟨hs, hbefore⟩
    exact ⟨hs.log e, hbefore.log e⟩
  · rintro s ⟨hs, hbefore⟩
    apply (handlePending_hearing hs).mono
    rintro o t ⟨ho, ht, hheard⟩
    have hall := hbefore.trans hheard
    rw [List.nil_append, hbefore.bus] at hall
    obtain ⟨n, rfl⟩ := Option.isSome_iff_exists.mp ho
    exact ⟨rfl, ht, hall⟩
  · rintro s e ⟨-, hs, hheard⟩
    exact ⟨rfl, hs.log e, hheard.log e⟩

/-- After some passes everybody has heard of the changes that the bus reported. -/
theorem passes_hearing (h : Attending [] r) (hone : r.bus.listeners = 1) (ts : List Traffic) :
    (EventLoop.passes (ts.map Traffic.pass)).Ends (fun o r' => o.isSome = true ∧ Attending [] r' ∧
      Hearing ((ts.flatMap (·.events)).foldl afterEvent r.bus)
        (changesIn (r.bus.notices (ts.flatMap (·.events)))) r r') r := by
  induction ts generalizing r with
  | nil => exact ⟨rfl, h, .refl r, rfl, fun i => by simp [notices, changesIn]⟩
  | cons t ts ih =>
    rw [List.map_cons, EventLoop.passes]
    unfold Traffic.pass
    rw [bind_assoc]
    refine Ends.bind (events_queues h.kept hone t.events)
      (fun _ hq => absurd hq.1 (by simp)) ?_
    rintro _ s ⟨-, hqueued⟩
    have hs := hqueued.attending h
    show Ends (EventLoop.settle t.error >>= fun _ => do
      return () :: (← EventLoop.passes (ts.map Traffic.pass))) _ s
    refine Ends.bind (settle_hearing hs t.error) (fun _ hq => absurd hq.1 (by simp)) ?_
    rintro _ s' ⟨-, hs', hheard⟩
    have hpass := hqueued.hearing.trans hheard
    have hlisteners : s'.bus.listeners = 1 := by
      rw [hheard.bus, hqueued.bus, listeners_afterEvents, hone]
    refine Ends.bind (ih hs' hlisteners) (fun _ hq => absurd hq.1 (by simp)) ?_
    rintro results r' ⟨-, hr', hrest⟩
    have hall := hpass.trans hrest
    rw [hheard.bus, hqueued.bus] at hall
    refine ⟨rfl, hr', ?_⟩
    rw [List.flatMap_cons, List.foldl_append, notices_append, changesIn_append]
    exact hall

end Registry

end PlugWatch
