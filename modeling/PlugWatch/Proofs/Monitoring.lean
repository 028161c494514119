import PlugWatch.Program
import PlugWatch.Proofs.Traffic
import PlugWatch.Proofs.Watches

/-! # Monitoring

  What there is while a bus is **monitored**. On a bus that reports changes, can be listed and can
  be listened to, the watches of a valid configuration are registered one after the other, each at
  its place, and are offered the devices present if they ask for them. During the passes every watch
  hears of the changes that the bus reported. A run of the monitor is this, followed by an ending
  that tells nobody anything.
-/

namespace PlugWatch

/-! ## The bus while watches are registered -/

namespace UsbBus

/-- Buses that differ only in how often descriptors can still be read. -/
structure SameBut (b b' : UsbBus) : Prop where
  attached : b'.attached = b.attached
  hotplug : b'.hotplug = b.hotplug
  listError : b'.listError = b.listError
  listeners : b'.listeners = b.listeners
  ids : ∀ i, (b'.slots i).id = (b.slots i).id

theorem SameBut.refl (b : UsbBus) : SameBut b b :=
  ⟨rfl, rfl, rfl, rfl, fun _ => rfl⟩

theorem SameBut.trans {b b' b'' : UsbBus} (h : SameBut b b') (h' : SameBut b' b'') :
    SameBut b b'' :=
  ⟨h'.attached.trans h.attached, h'.hotplug.trans h.hotplug, h'.listError.trans h.listError,
    h'.listeners.trans h.listeners, fun i => (h'.ids i).trans (h.ids i)⟩

theorem sight_sameBut (b : UsbBus) (slot : Nat) : SameBut b (b.sight slot).2 where
  attached := rfl
  hotplug := rfl
  listError := rfl
  listeners := rfl
  ids i := by
    show (if i = slot then (b.slots slot).read.2 else b.slots i).id = _
    split
    · next hi => rw [hi, id_read]
    · rfl

theorem sightAll_sameBut (b : UsbBus) (is : List Nat) : SameBut b (b.sightAll is).2.2 := by
  induction is generalizing b with
  | nil => exact .refl b
  | cons i is ih =>
    have hone := sight_sameBut b i
    unfold sightAll
    split
    · next d b' hsight =>
      rw [hsight] at hone
      exact hone.trans (ih b')
    · next e b' hsight =>
      rw [hsight] at hone
      exact hone.trans (ih b')

theorem enumerate_sameBut (b : UsbBus) : SameBut b (Bus.enumerate b).bus := by
  show SameBut b b.survey.bus
  unfold survey
  split
  · exact .refl b
  · exact sightAll_sameBut b b.attached

theorem serves {b : UsbBus} (hb : b.hotplug = true) (hl : b.listError = none) :
    Watch.Serves b := by
  refine Watch.serves_of_stable (P := fun b => b.hotplug = true ∧ b.listError = none) ?_ ⟨hb, hl⟩
  rintro b ⟨hb, hl⟩
  have hsame := enumerate_sameBut b
  refine ⟨hb, ?_, hsame.hotplug.trans hb, hsame.listError.trans hl⟩
  show ∃ ds, (b.survey.found.mapError refusal).map _ = .ok ds
  unfold survey
  rw [hl]
  exact ⟨_, rfl⟩

theorem busAfter_sameBut (b : UsbBus) (ws : List Watch) : SameBut b (Watch.busAfter b ws) := by
  induction ws generalizing b with
  | nil => exact .refl b
  | cons w ws ih =>
    refine SameBut.trans ?_ (ih (Registry.asked w.enumerate b))
    cases w.enumerate with
    | false => exact .refl b
    | true => exact enumerate_sameBut b

end UsbBus

/-! ## Monitoring -/

namespace Program

open Walk Registry UsbBus

/-- The monitor as it is after some passes: it listens, the watches are registered, and the passes
    were made. -/
def midway (c : Config) (ps : List (Walk UsbBus (EventLoop.Pass Unit))) : Walk UsbBus Unit := do
  discard EventLoop.start
  discard (Watch.registerAll c.watches)
  EventLoop.log .program .info s!"{c.watches.length} watch(es) active, press Ctrl+C to stop"
  EventLoop.log .eventLoop .info "Hotplug event thread started"
  discard (EventLoop.passes ps)

/-- The rest of the monitor. -/
def ending : Walk UsbBus (Except Report Unit) := do
  EventLoop.finish true
  modify (·.teardown)
  EventLoop.log .program .info "Monitor shutdown complete"
  return .ok ()

/-- What it takes to monitor a bus: a valid configuration, and a bus that reports changes, can be
    listed and can be listened to. Nobody listens yet. -/
structure Monitors (c : Config) (b : UsbBus) : Prop where
  valid : c.validate = .ok ()
  hotplug : b.hotplug = true
  listed : b.listError = none
  heard : b.listenError = none
  alone : b.listeners = 0

/-- The bus with a listener. -/
def listened (b : UsbBus) : UsbBus :=
  { b with listeners := b.listeners + 1 }

variable {c : Config} {b : UsbBus} {r r' : Registry UsbBus}

theorem start_ends (h : Monitors c b) : EventLoop.start.Ends (fun o r' => o = some (.ok true) ∧
    Queues (listened b) [] { bus := listened b } r') { bus := b } := by
  have hk : Mailbox.Kept {} := ⟨rfl, rfl⟩
  have hlog := Queues.log (r := { bus := listened b }) hk
    { level := .debug, source := .listener, message := "libusb hot-plug callbacks registered" }
  have hheard : b.listen = (.ok (), listened b) := by
    unfold UsbBus.listen
    split
    · next e he =>
      rw [h.heard] at he
      cases he
    · rfl
  unfold EventLoop.start EventLoop.listen
  simp only [ends_bind, ends_get, before_some]
  rw [if_pos (show (({ bus := b } : Registry UsbBus).bus.hotplug) = true from h.hotplug)]
  simp only [ends_bind, ends_modifyGet, before_some, hheard]
  exact ⟨rfl, hlog⟩

theorem clear (h : Monitors c b) : Watch.Clear (listened b) c.watches :=
  (UsbBus.serves (b := listened b) h.hotplug h.listed).clear (Config.toFilter_of_validate h.valid)

/-- The devices that a watch is offered when it is registered. -/
def offered (c : Config) (b : UsbBus) (w : Watch) (k : Nat) : List Device :=
  if w.enumerate then
    (Bus.enumerate (Watch.busAfter (listened b) (c.watches.take k))).devices.toOption.getD []
  else []

/-- The bus once the watches are registered. -/
def ready (c : Config) (b : UsbBus) : UsbBus :=
  Watch.busAfter (listened b) c.watches

/-- The watches stand at their places, each with what it was offered. -/
structure Watching (c : Config) (b : UsbBus) (r : Registry UsbBus) : Prop where
  attending : Attending [] r
  bus : r.bus = ready c b
  own : ∀ k w f, c.watches[k]? = some w → w.toFilter = .ok f →
    r.profile? k = some ((offered c b w k).foldl Profile.arrive
      { entry := { toRegistration := w.registration f, handle := ⟨0⟩ } })

theorem registered_ends (h : Monitors c b) (hs : Queues (listened b) [] { bus := listened b } r) :
    (Watch.registerAll c.watches).Ends (fun o r' =>
      (∃ hs, o = some (.ok hs) ∧ hs.length = c.watches.length) ∧ Watching c b r') r := by
  have hregular := hs.steps.regular (regular_fresh (listened b))
  have hsane := hs.steps.sane (sane_fresh (listened b))
  have hclear : Watch.Clear r.bus c.watches := hs.bus ▸ clear h
  have hzero : r.entries.size = 0 := by rw [hs.entries]; rfl
  apply (Watch.registerAll_clear hregular hsane hclear).mono
  rintro _ r' ⟨rfl, henrols, hsteps⟩
  have hown : ∀ k w f, c.watches[k]? = some w → w.toFilter = .ok f →
      r'.profile? k = some ((offered c b w k).foldl Profile.arrive
        { entry := { toRegistration := w.registration f, handle := ⟨0⟩ } }) := by
    intro k w f hk hf
    obtain ⟨f', e, howns, -, hprofile⟩ := henrols.own k w hk
    have hsame : f' = f := by
      have hf' := howns.filter
      rw [hf] at hf'
      exact (Except.ok.inj hf').symm
    subst hsame
    rw [hzero, Nat.zero_add, hs.bus] at hprofile
    rw [hprofile, offered, ← (Watch.toFilter_spec hf).2.2]
    rfl
  refine ⟨⟨_, rfl, by simp [Watch.upcoming]⟩, ⟨hsteps.regular hregular, ?_, ?_, ?_⟩, ?_, hown⟩
  · rw [henrols.mailbox]
    exact hs.kept
  · unfold Registry.waiting
    rw [henrols.mailbox]
    exact hs.waiting
  · intro i p hp
    have hi : i < c.watches.length := by
      obtain ⟨e, he, -⟩ := Option.map_eq_some_iff.mp hp
      have hlt := lt_size_of_getElem? he
      rwa [henrols.size, hzero, Nat.zero_add] at hlt
    have hk := List.getElem?_eq_getElem hi
    obtain ⟨f, hf⟩ := Config.toFilter_of_validate h.valid _ (List.getElem_mem hi)
    have hsteady := Watch.registration_steady (β := UsbBus) c.watches[i] f
    rw [hown i _ f hk hf, Option.some.injEq] at hp
    have hfresh : Profile.Attentive (c.watches[i].registration f : Registration UsbBus)
        { entry := { toRegistration := c.watches[i].registration f, handle := ⟨0⟩ } } :=
      ⟨rfl, rfl, rfl⟩
    refine ⟨_, hsteady, ?_⟩
    rw [← hp, hfresh.arriveAll hsteady]
    exact (hfresh.hearAll hsteady _).1
  · rw [henrols.bus, hs.bus]
    rfl

theorem Watching.log (h : Watching c b r) (e : LogEntry) :
    Watching c b (r.record (.logged e)) where
  attending := h.attending.log e
  bus := h.bus
  own k w f hk hf := by
    rw [← h.own k w f hk hf]
    exact profile?_congr rfl rfl
      (calls_of_unspoken (history_record r _) (by simp [Happening.Unspoken]))

/-- What there is after some passes: each watch heard of what it was offered, and then of the
    changes that the bus reported. -/
structure Watched (c : Config) (b : UsbBus) (ns : List Notice) (r : Registry UsbBus) : Prop where
  attending : Attending [] r
  own : ∀ k w f, c.watches[k]? = some w → w.toFilter = .ok f →
    r.profile? k = some ((changesIn ns).foldl Profile.hear ((offered c b w k).foldl Profile.arrive
      { entry := { toRegistration := w.registration f, handle := ⟨0⟩ } }))

theorem Watching.watched (h : Watching c b r) {bus : UsbBus} {ns : List Notice}
    (hr : Attending [] r') (hh : Hearing bus (changesIn ns) r r') : Watched c b ns r' where
  attending := hr
  own k w f hk hf := by rw [hh.profiles, h.own k w f hk hf, Option.map_some]

/-- The notices of what happens while the bus is monitored. -/
def noticed (c : Config) (b : UsbBus) (ts : List Traffic) : List Notice :=
  (ready c b).notices (ts.flatMap (·.events))

theorem midway_ends (h : Monitors c b) (ts : List Traffic) :
    (midway c (ts.map Traffic.pass)).Ends (fun o r => o = some () ∧
      Watched c b (noticed c b ts) r) { bus := b } := by
  unfold midway
  rw [ends_bind, ends_discard]
  apply (start_ends h).mono
  rintro _ s ⟨rfl, hs⟩
  simp only [Option.map_some, before_some]
  rw [ends_bind, ends_discard]
  apply (registered_ends h hs).mono
  rintro _ t ⟨⟨hs, rfl, -⟩, ht⟩
  simp only [Option.map_some, before_some]
  unfold EventLoop.log
  simp only [ends_bind, ends_modify, before_some, ends_discard]
  have hlogged (e e' : LogEntry) := (ht.log e).log e'
  have hone : t.bus.listeners = 1 := by
    rw [ht.bus, ready, (busAfter_sameBut (listened b) c.watches).listeners]
    simp [listened, h.alone]
  apply (passes_hearing (hlogged _ _).attending hone ts).mono
  rintro o r ⟨ho, hatt, hpasses⟩
  rw [(hlogged _ _).bus] at hpasses
  obtain ⟨x, rfl⟩ := Option.isSome_iff_exists.mp ho
  exact ⟨rfl, (hlogged _ _).watched hatt hpasses⟩

/-- A walk that has an answer goes on from the registry that it leaves. -/
theorem run_bind_of_some {α γ : Type} {w : Walk UsbBus α} {f : α → Walk UsbBus γ} {x : α}
    (h : answer? w r = some x) : (w >>= f).run r = (f x).run (left w r) := by
  rw [EStateM.run_bind, run_of_answer? h]

theorem run_discard_bind {α γ : Type} {w : Walk UsbBus α} {f : PUnit → Walk UsbBus γ} {x : α}
    (h : answer? w r = some x) : (discard w >>= f).run r = (f ⟨⟩).run (left w r) := by
  rw [show (discard w >>= f) = (w >>= fun _ => f ⟨⟩) by
    show ((w >>= fun _ => pure ⟨⟩) >>= f) = _
    rw [bind_assoc]
    rfl]
  exact run_bind_of_some h

/-- The monitor is what it is after its passes, and then the rest. -/
theorem monitor_run (h : Monitors c b) (ps : List (Walk UsbBus (EventLoop.Pass Unit))) :
    (monitor c ps).run { bus := b } = (midway c ps >>= fun _ => ending).run { bus := b } := by
  obtain ⟨hstart, hs⟩ := ends_iff_answer?.mp (start_ends h)
  obtain ⟨⟨handles, hanswer, hlength⟩, -⟩ := ends_iff_answer?.mp (registered_ends h hs)
  unfold monitor midway
  simp only [bind_assoc]
  rw [run_discard_bind hstart, run_discard_bind hanswer]
  have hget : (get : Walk UsbBus _).run { bus := b } = .ok { bus := b } { bus := b } := rfl
  rw [EStateM.run_bind, hget]
  simp only [h.hotplug, Bool.not_true, Bool.false_eq_true, if_false]
  rw [run_bind_of_some hstart]
  simp only
  rw [run_bind_of_some hanswer]
  simp only [hlength, EventLoop.run, ending]
  have hlift (w : Walk UsbBus Unit) : (liftM w : Walk UsbBus Unit) = w := rfl
  have hdiscard {α : Type} (w : Walk UsbBus α) : discard w = (w >>= fun _ => pure ⟨⟩) := rfl
  simp only [hlift, hdiscard, bind_assoc, pure_bind]

end Program

end PlugWatch
