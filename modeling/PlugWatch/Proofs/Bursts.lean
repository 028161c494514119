import PlugWatch.Bus.Memory
import PlugWatch.Proofs.Queueing
import PlugWatch.Proofs.Reclaiming

/-! # Bursts of deregistrations

  A client may deregister any number of handles in a row, in any order, some of them twice, and some
  that nobody has. What comes of it depends on the set of these handles alone: each handle has its
  **target**, the first held registration that has it, and deregistering changes no target. The
  targets are flagged, the mailbox has a wakeup if there is a target, and all else stays as it was.
  The sweep that comes next takes off the list those that are flagged by then.
-/

namespace PlugWatch

/-- Asking for a second wakeup at once changes nothing. -/
theorem Mailbox.wake_wake (m : Mailbox) : m.wake.2.wake.2 = m.wake.2 := by
  unfold wake
  by_cases ha : m.awaited = true
  · simp [ha]
  · by_cases hc : m.closed = true
    · simp [ha, hc]
    · simp [ha, hc]

/-- A mailbox that is kept gets a wakeup unless it has one. -/
theorem Mailbox.Kept.messages_wake {m : Mailbox} (h : m.Kept) :
    m.wake.2.messages = m.messages ++ if .wakeup ∈ m.messages then [] else [.wakeup] := by
  rw [h.wake_eq]
  by_cases hwaits : .wakeup ∈ m.messages
  · simp [hwaits]
  · simp [hwaits]

/-- Whether a registration is flagged or has one of the handles. -/
def Entry.goes {β : Type} [Bus β] (e : Entry β) (hs : List Handle) : Bool :=
  e.flagged || hs.contains e.handle

namespace Registry

open Walk

variable {β : Type} [Bus β] {p : Nat → Prop} {r r' r'' s : Registry β} {h : Handle}
  {hs hs' : List Handle} {i : Nat}

/-- Deregisters one handle after the other. -/
def deregisterEach (r : Registry β) (hs : List Handle) : Registry β :=
  hs.foldl deregister r

/-- Deregistering from outside is the same. -/
theorem afterAll_deregister (r : Registry β) (hs : List Handle) :
    r.afterAll (hs.map fun h => .act (.deregister h)) = r.deregisterEach hs := by
  unfold afterAll
  rw [List.foldl_map]
  rfl

/-! ## Targets -/

/-- The registration that deregistering a handle flags. -/
def target? (r : Registry β) (h : Handle) : Option Nat :=
  if Bus.hasHotplug r.bus then r.find? h else none

/-- Whether the registration at a place is the target of one of the handles. -/
def targets (r : Registry β) (hs : List Handle) (i : Nat) : Bool :=
  hs.any (r.target? · == some i)

/-- Targets do not depend on flags. -/
theorem target?_congr (hb : r'.bus = r.bus) (hl : r'.listed = r.listed)
    (he : ∀ i : Nat, (r'.entries[i]?).map Entry.handle = (r.entries[i]?).map Entry.handle) :
    r'.target? h = r.target? h := by
  have hnamed (i : Nat) : r'.satisfies (·.isNamed h) i = r.satisfies (·.isNamed h) i := by
    have hany (o : Option (Entry β)) : o.any (·.isNamed h) = (o.map Entry.handle).any (· == h) := by
      cases o <;> rfl
    unfold satisfies
    rw [hany, he i, ← hany]
  unfold target? find?
  rw [hb, hl, funext hnamed]

/-! ## What a burst does -/

/-- The targets of the handles were flagged, and a wakeup was asked for if there are any. -/
structure Deregistered (hs : List Handle) (r r' : Registry β) : Prop where
  bus : r'.bus = r.bus
  listed : r'.listed = r.listed
  entries : ∀ i : Nat, r'.entries[i]? =
    (r.entries[i]?).map fun e => { e with flagged := e.flagged || r.targets hs i }
  mailbox : r'.mailbox =
    if hs.any (r.target? · |>.isSome) then r.mailbox.wake.2 else r.mailbox
  news : ∃ xs, r'.history.toList = r.history.toList ++ xs ∧
    ∀ x ∈ xs, (∃ i, x = .flagged i) ∨ ∃ l, x = .logged l

namespace Deregistered

theorem refl (r : Registry β) : Deregistered [] r r where
  bus := rfl
  listed := rfl
  entries i := by simp [targets]
  mailbox := by simp
  news := ⟨[], by simp, by simp⟩

theorem target?_eq (hd : Deregistered hs r r') (h : Handle) : r'.target? h = r.target? h := by
  apply target?_congr hd.bus hd.listed
  intro i
  rw [hd.entries, Option.map_map]
  rfl

theorem trans (hd : Deregistered hs r r') (hd' : Deregistered hs' r' r'') :
    Deregistered (hs ++ hs') r r'' where
  bus := hd'.bus.trans hd.bus
  listed := hd'.listed.trans hd.listed
  entries i := by
    rw [hd'.entries, hd.entries, Option.map_map]
    simp [targets, hd.target?_eq, Function.comp_def, Bool.or_assoc]
  mailbox := by
    rw [hd'.mailbox, hd.mailbox]
    simp only [hd.target?_eq, List.any_append, Bool.or_eq_true]
    -- A second wakeup is none.
    by_cases hfirst : hs.any (r.target? · |>.isSome) = true
    · simp [hfirst, Mailbox.wake_wake]
    · simp [hfirst]
  news := by
    obtain ⟨xs, hxs, hflags⟩ := hd.news
    obtain ⟨ys, hys, hflags'⟩ := hd'.news
    refine ⟨xs ++ ys, by rw [hys, hxs, List.append_assoc], ?_⟩
    intro x hx
    exact (List.mem_append.mp hx).elim (hflags x) (hflags' x)

end Deregistered

/-- Without a target nothing is done but to write to the log. -/
theorem deregistered_aside (hnone : r.target? h = none) (hb : r'.bus = r.bus)
    (he : r'.entries = r.entries) (hl : r'.listed = r.listed) (hm : r'.mailbox = r.mailbox)
    (hn : ∃ xs, r'.history.toList = r.history.toList ++ xs ∧ ∀ x ∈ xs, ∃ l, x = .logged l) :
    Deregistered [h] r r' where
  bus := hb
  listed := hl
  entries := by simp [he, targets, hnone]
  mailbox := by simp [hm, hnone]
  news := by
    obtain ⟨xs, hxs, hlogs⟩ := hn
    exact ⟨xs, hxs, fun x hx => .inr (hlogs x hx)⟩

/-- One deregistration. -/
theorem deregister_deregistered (r : Registry β) (h : Handle) :
    Deregistered [h] r (r.deregister h) := by
  by_cases hb : Bus.hasHotplug r.bus = true
  · have htarget : r.target? h = r.find? h := if_pos hb
    cases hfind : r.find? h with
    | none =>
      have heq : r.deregister h = r.log .debug s!"Deregister of unknown hotplug handle {h.text}" := by
        simp [deregister, hb, hfind]
      rw [heq]
      exact deregistered_aside (htarget.trans hfind) rfl rfl rfl rfl
        ⟨_, history_log _ _ _, by simp⟩
    | some i =>
      let message := s!"Deregistered hotplug callback {h.text}"
      have heq : r.deregister h = ((r.flag i).log .info message).wake := by
        simp [deregister, hb, hfind, message]
      rw [heq]
      refine ⟨by simp, by simp, ?_, ?_, ?_⟩
      · intro j
        rw [entries_wake, entries_log]
        by_cases hij : i = j
        · subst hij
          cases he : r.entries[i]? with
          | none => simpa using he
          | some e => simp [r.getElem?_flag i he, targets, htarget, hfind]
        · have hother : (i == j) = false := by simpa using hij
          show (r.update i _).entries[j]? = _
          rw [getElem?_update_of_ne r i _ hij]
          simp [targets, htarget, hfind, hother]
      · simp [htarget, hfind]
      · obtain ⟨xs, hxs, hlogs⟩ := ((r.flag i).log .info message).history_wake
        refine ⟨.flagged i :: .logged { level := .info, source := .registry, message } :: xs, ?_, ?_⟩
        · rw [hxs, history_log, flag, history_record, history_update, List.append_assoc,
            List.append_assoc]
          rfl
        · intro x hx
          obtain rfl | rfl | hx := by simpa only [List.mem_cons] using hx
          · exact .inl ⟨i, rfl⟩
          · exact .inr ⟨_, rfl⟩
          · exact .inr (hlogs x hx)
  · have hnone : r.target? h = none := if_neg hb
    have heq : r.deregister h = r := if_neg hb
    rw [heq]
    exact deregistered_aside hnone rfl rfl rfl rfl ⟨[], by simp, by simp⟩

/-- A burst of deregistrations, by one after the other. -/
theorem deregisterEach_deregistered (r : Registry β) (hs : List Handle) :
    Deregistered hs r (r.deregisterEach hs) := by
  induction hs generalizing r with
  | nil => exact .refl r
  | cons h hs ih => exact (deregister_deregistered r h).trans (ih _)

/-- What comes of a burst depends on the set of handles only. -/
theorem Deregistered.eq_of_same (hd : Deregistered hs r r') (hd' : Deregistered hs' r r'')
    (hsame : ∀ h, h ∈ hs ↔ h ∈ hs') : { r' with history := r''.history } = r'' := by
  have hany (f : Handle → Bool) : hs.any f = hs'.any f := by
    rw [Bool.eq_iff_iff, List.any_eq_true, List.any_eq_true]
    exact exists_congr fun h => and_congr_left' (hsame h)
  -- Each field is written in terms of the targets of the handles, whose order does not matter.
  have hentries : r'.entries = r''.entries := by
    apply Array.ext_getElem?
    intro i
    rw [hd.entries, hd'.entries, targets, hany]
    rfl
  have hmailbox : r'.mailbox = r''.mailbox := by rw [hd.mailbox, hd'.mailbox, hany]
  have hbus : r'.bus = r''.bus := hd.bus.trans hd'.bus.symm
  have hlisted : r'.listed = r''.listed := hd.listed.trans hd'.listed.symm
  rw [hentries, hmailbox, hbus, hlisted]

/-! ## The mailbox -/

/-- A handle has a target if a registration is held that has it, and the bus reports changes. -/
theorem target?_isSome : (r.target? h).isSome = true ↔
    Bus.hasHotplug r.bus = true ∧ ∃ e ∈ r.held, e.handle = h := by
  by_cases hb : Bus.hasHotplug r.bus = true
  · have htarget : r.target? h = r.find? h := if_pos hb
    rw [htarget, find?, Array.find?_isSome, and_iff_right hb]
    constructor
    · intro hfound
      obtain ⟨i, hi, hnamed⟩ := hfound
      obtain ⟨e, he, hname⟩ := satisfies_iff.mp hnamed
      exact ⟨e, mem_held.mpr ⟨i, hi, he⟩, by simpa [Entry.isNamed] using hname⟩
    · intro hheld
      obtain ⟨e, he, hname⟩ := hheld
      obtain ⟨i, hi, he⟩ := mem_held.mp he
      exact ⟨i, hi, satisfies_iff.mpr ⟨e, he, by simp [Entry.isNamed, hname]⟩⟩
  · simp [target?, hb]

/-- What it takes for a burst to put a message into the mailbox: the bus reports changes, one of the
    handles is held, and no wakeup waits. -/
structure Wakes (r : Registry β) (hs : List Handle) : Prop where
  supported : Bus.hasHotplug r.bus = true
  held : ∃ e ∈ r.held, e.handle ∈ hs
  missing : .wakeup ∉ r.mailbox.messages

theorem wakes_iff : r.Wakes hs ↔
    hs.any (r.target? · |>.isSome) = true ∧ .wakeup ∉ r.mailbox.messages := by
  rw [List.any_eq_true]
  constructor
  · intro hw
    obtain ⟨hb, ⟨e, he, hm⟩, hnone⟩ := hw
    exact ⟨⟨e.handle, hm, target?_isSome.mpr ⟨hb, e, he, rfl⟩⟩, hnone⟩
  · intro hw
    obtain ⟨⟨h, hm, htarget⟩, hnone⟩ := hw
    obtain ⟨hb, e, he, rfl⟩ := target?_isSome.mp htarget
    exact ⟨hb, ⟨e, he, hm⟩, hnone⟩

theorem Deregistered.messages (hd : Deregistered hs r r') (hkept : r.mailbox.Kept) :
    (r.Wakes hs → r'.mailbox.messages = r.mailbox.messages ++ [.wakeup]) ∧
      (¬ r.Wakes hs → r'.mailbox.messages = r.mailbox.messages) := by
  rw [hd.mailbox, wakes_iff]
  by_cases hwoken : hs.any (r.target? · |>.isSome) = true
  · rw [if_pos hwoken, hkept.messages_wake]
    by_cases hw : .wakeup ∈ r.mailbox.messages <;> simp [hwoken, hw]
  · simp [hwoken]

/-! ## The next sweep -/

/-- While handles do not repeat, a held registration is the target of its own handle. -/
theorem targets_eq (hr : r.Regular) (hsize : r.entries.size ≤ UInt32.size)
    (hb : Bus.hasHotplug r.bus = true) (hi : i ∈ r.listed) {e : Entry β}
    (he : r.entries[i]? = some e) (hs : List Handle) : r.targets hs i = hs.contains e.handle := by
  have htarget (h : Handle) : r.target? h = some i ↔ h = e.handle := by
    rw [show r.target? h = r.find? h from if_pos hb]
    constructor
    · intro hfind
      obtain ⟨e', he', hname⟩ := satisfies_iff.mp (Array.find?_some hfind)
      cases entry_eq he he'
      exact (by simpa [Entry.isNamed] using hname : e.handle = h).symm
    · intro hh
      rw [hh, hr.find?_handle hsize he, if_pos hi]
  rw [Bool.eq_iff_iff, targets, List.any_eq_true, List.contains_iff_mem]
  constructor
  · intro hany
    obtain ⟨h, hm, hh⟩ := hany
    rwa [← (htarget h).mp (by simpa using hh)]
  · intro hm
    exact ⟨e.handle, hm, by simp [htarget]⟩

/-- Those that are flagged after a burst. -/
theorem Deregistered.places_flagged (hd : Deregistered hs r r') (hr : r.Regular)
    (hsize : r.entries.size ≤ UInt32.size) (hb : Bus.hasHotplug r.bus = true) :
    r'.places (·.flagged) = r.places (·.goes hs) := by
  unfold places
  rw [hd.listed, Array.toList_filter, Array.toList_filter]
  apply List.filter_congr
  intro i hi
  have hlisted : i ∈ r.listed := Array.mem_toList_iff.mp hi
  have he := Array.getElem?_eq_getElem (hr.orderly.taken i hlisted)
  simp [satisfies, hd.entries, he, Entry.goes, targets_eq hr hsize hb hlisted he]

/-- What a sweep takes off the list: `is` and nobody else, also if it does not return, unless a
    callback destroys all registrations. -/
structure TakesOff (is : List Nat) (r : Registry β) (o : Option Nat) (r' : Registry β) : Prop where
  reclaimed : ∃ xs, r'.history.toList = r.history.toList ++ xs ∧
    (∀ i, .reclaimed i ∈ xs ↔ i ∈ is) ∧
    ((∀ js, .destroyed js ∉ xs) → r'.entries.size ≤ UInt32.size →
      ∀ i ∈ r.listed, i ∉ is → i ∈ r'.listed)
  gone : ∀ i ∈ is, i ∈ r.listed ∧ i ∉ r'.listed
  counted : ∀ n, o = some n → n = is.length

theorem sweep_takesOff (hr : r.Regular) :
    sweep.Ends (TakesOff (r.places (·.flagged)) r) r := by
  have hmoves : (reclaimAll (r.places (·.flagged))).Ends (fun _ r' =>
      Moves (fun i => i ∈ r.places (·.flagged) ∨ r.entries.size ≤ i) r.startSweep r')
      r.startSweep :=
    reclaimAll_moves (fun _ => .inr) (fun _ => .inl) (by simp)
  apply sweep_counts
  apply Ends.mono hmoves
  intro o r' hm
  obtain ⟨xs, hxs⟩ := hm.news
  refine ⟨⟨(r.places (·.flagged)).map .reclaimed ++ xs, ?_, ?_, ?_⟩, ?_, ?_⟩
  · rw [← hxs, history_startSweep, List.append_assoc]
  · intro i
    have hnone := hm.not_reclaimed hxs.symm i
    simp [hnone]
  · intro hd hsize i hi hkept
    have hlisted : i ∈ r.startSweep.listed := by
      rw [listed_startSweep, Array.mem_filter, Bool.not_eq_true', ← Bool.not_eq_true]
      exact ⟨hi, fun hf => hkept (mem_places.mpr ⟨hi, satisfies_iff.mp hf⟩)⟩
    have hregular : r'.Regular := hm.keeps Move.regular hr.startSweep
    -- A registration that fails in a callback takes only those off that have its handle.
    have huncalled : ¬ (i ∈ r.places (·.flagged) ∨ r.entries.size ≤ i) := by
      have hlt := hr.orderly.taken i hi
      intro hp
      obtain hp | hp := hp
      · exact hkept hp
      · omega
    exact hm.remains (hregular.unshared hsize huncalled) hxs.symm
      (fun js hj => hd js (by simp [hj])) hlisted
  · intro i hi
    refine ⟨(mem_places.mp hi).1, ?_⟩
    intro hl
    have hlt := hr.orderly.taken i (mem_places.mp hi).1
    exact not_listed_startSweep hi (hm.spares.listed i hl (by simpa using hlt))
  · intro n hn
    cases o with
    | none => cases hn
    | some u => exact (Option.some.inj hn).symm

/-! ## Bursts -/

/-- Bursts of deregistrations with the same handles end alike: but for what is written to the
    history, the registries are the same. A burst calls nobody; it sets flags, and it puts at most
    one message into the mailbox. The sweep after it takes off the list those that were flagged
    before or have one of the handles. -/
theorem deregisterEach_settles (hr : r.Reachable) (hs : List Handle) :
    r.afterAll (hs.map fun h => .act (.deregister h)) = r.deregisterEach hs ∧
    (∀ hs', (∀ h, h ∈ hs ↔ h ∈ hs') →
      { r.deregisterEach hs with history := (r.deregisterEach hs').history } =
        r.deregisterEach hs' ∧
      (r.deregisterEach hs).nextHandle = (r.deregisterEach hs').nextHandle) ∧
    Deregistered hs r (r.deregisterEach hs) ∧
    (r.Wakes hs → (r.deregisterEach hs).mailbox.messages = r.mailbox.messages ++ [.wakeup]) ∧
    (¬ r.Wakes hs → (r.deregisterEach hs).mailbox.messages = r.mailbox.messages) ∧
    (Bus.hasHotplug r.bus = true → r.entries.size ≤ UInt32.size →
      sweep.Ends (TakesOff (r.places (·.goes hs)) (r.deregisterEach hs)) (r.deregisterEach hs)) := by
  obtain ⟨b, os, hsession⟩ := hr.session
  have hd := deregisterEach_deregistered r hs
  have hkept : r.mailbox.Kept := by
    rw [hsession]
    exact (afterAll_wakeful b os).kept
  have hregular : r.Regular := by
    rw [hsession]
    exact (afterAll_steps { bus := b } os).regular (regular_fresh b)
  refine ⟨r.afterAll_deregister hs, ?_, hd, (hd.messages hkept).1, (hd.messages hkept).2, ?_⟩
  · intro hs' hsame
    have heq := hd.eq_of_same (deregisterEach_deregistered r hs') hsame
    refine ⟨heq, ?_⟩
    rw [← heq]
    rfl
  · intro hb hsize
    have hregular' : (r.deregisterEach hs).Regular := by
      rw [← afterAll_deregister]
      exact (afterAll_steps r _).regular hregular
    rw [← hd.places_flagged hregular hsize hb]
    exact sweep_takesOff hregular'

/-- Three registrations, of which the first is flagged, so that a wakeup waits behind a change. -/
def trio : List (Operation MemoryBus) :=
  [.register (.listener {}), .register (.listener {}), .register (.listener {}),
    .act (.notify (MemoryBus.sample 1) .arrived), .act (.deregister ⟨1⟩)]

/-- Two bursts with the same handles, one of which nobody has. -/
theorem deregisterEach_settles_trio :
    ∃ r : Registry MemoryBus, r.Reachable ∧ ∃ r', r' = r.deregisterEach [⟨3⟩, ⟨9⟩, ⟨3⟩] ∧
      { r' with history := (r.deregisterEach [⟨9⟩, ⟨3⟩]).history } = r.deregisterEach [⟨9⟩, ⟨3⟩] ∧
      r'.mailbox.messages = [.change (MemoryBus.sample 1) .arrived, .wakeup] ∧
      ¬ r.Wakes [⟨3⟩, ⟨9⟩, ⟨3⟩] ∧ Bus.hasHotplug r.bus = true ∧ r.entries.size ≤ UInt32.size ∧
      sweep.Ends (TakesOff [0, 2] r') r' := by
  have hr := Reachable.afterAll (.fresh ({} : MemoryBus)) trio
  generalize hdef : afterAll { bus := ({} : MemoryBus) } trio = r at hr
  obtain ⟨-, hsame, -, -, hquiet, hsweep⟩ := deregisterEach_settles hr [⟨3⟩, ⟨9⟩, ⟨3⟩]
  have hmessages : r.mailbox.messages = [.change (MemoryBus.sample 1) .arrived, .wakeup] := by
    rw [← hdef]
    decide +kernel
  have hnot : ¬ r.Wakes [⟨3⟩, ⟨9⟩, ⟨3⟩] := by
    intro hw
    exact hw.missing (by simp [hmessages])
  have hplaces : r.places (·.goes [⟨3⟩, ⟨9⟩, ⟨3⟩]) = [0, 2] := by
    rw [← hdef]
    decide +kernel
  have hbus : Bus.hasHotplug r.bus = true := by
    rw [← hdef]
    decide +kernel
  have hsize : r.entries.size ≤ UInt32.size := by
    rw [← hdef]
    decide +kernel
  have hset : ∀ h : Handle, h ∈ [⟨3⟩, ⟨9⟩, ⟨3⟩] ↔ h ∈ [(⟨9⟩ : Handle), ⟨3⟩] := by
    intro h
    simp only [List.mem_cons, List.not_mem_nil, or_false]
    tauto
  have hswept := hsweep hbus hsize
  rw [hplaces] at hswept
  exact ⟨r, hr, _, rfl, (hsame [⟨9⟩, ⟨3⟩] hset).1, (hquiet hnot).trans hmessages, hnot, hbus, hsize,
    hswept⟩

end Registry

end PlugWatch
