import PlugWatch.Proofs.Walk

/-! # What changes leave alone

  Each change of a registry touches a few of its parts. Here stands what it leaves as it was: the
  bus, the entries or at least their number, the list, the mailbox. The lemmas are for simp.
-/

namespace PlugWatch

namespace Registry

variable {β : Type} [Bus β]

/-! ## Notes -/

section Notes

variable (r : Registry β) (h : Happening) (level : LogLevel) (message : String)

@[simp] theorem bus_record : (r.record h).bus = r.bus := rfl

@[simp] theorem entries_record : (r.record h).entries = r.entries := rfl

@[simp] theorem listed_record : (r.record h).listed = r.listed := rfl

@[simp] theorem mailbox_record : (r.record h).mailbox = r.mailbox := rfl

@[simp] theorem history_record : (r.record h).history.toList = r.history.toList ++ [h] := by
  simp [record]

theorem prefix_record : r.history.toList <+: (r.record h).history.toList := by
  rw [history_record]
  exact List.prefix_append _ _

@[simp] theorem bus_log : (r.log level message).bus = r.bus := rfl

@[simp] theorem entries_log : (r.log level message).entries = r.entries := rfl

@[simp] theorem listed_log : (r.log level message).listed = r.listed := rfl

@[simp] theorem mailbox_log : (r.log level message).mailbox = r.mailbox := rfl

theorem history_log : (r.log level message).history.toList =
    r.history.toList ++ [.logged { level, source := .registry, message }] :=
  history_record r _

/-- What several notes change is the history alone. -/
theorem logAll_eq (es : List LogEntry) (r : Registry β) :
    r.logAll es = { r with history := r.history ++ es.map Happening.logged } := by
  induction es generalizing r with
  | nil => simp [logAll]
  | cons e es ih => exact (ih _).trans (by simp [record])

/-- The notes of what a command did change the history alone. -/
theorem recordChanges_eq (cs : List (Device × Change)) (r : Registry β) :
    r.recordChanges cs =
      { r with history := r.history ++ cs.map fun x => Happening.changed x.1 x.2 } := by
  induction cs generalizing r with
  | nil => simp [recordChanges]
  | cons c cs ih => exact (ih _).trans (by simp [record])

@[simp] theorem bus_recordChanges (cs : List (Device × Change)) :
    (r.recordChanges cs).bus = r.bus := by rw [recordChanges_eq]

@[simp] theorem entries_recordChanges (cs : List (Device × Change)) :
    (r.recordChanges cs).entries = r.entries := by rw [recordChanges_eq]

@[simp] theorem listed_recordChanges (cs : List (Device × Change)) :
    (r.recordChanges cs).listed = r.listed := by rw [recordChanges_eq]

@[simp] theorem mailbox_recordChanges (cs : List (Device × Change)) :
    (r.recordChanges cs).mailbox = r.mailbox := by rw [recordChanges_eq]

@[simp] theorem history_recordChanges (cs : List (Device × Change)) :
    (r.recordChanges cs).history.toList =
      r.history.toList ++ cs.map fun x => Happening.changed x.1 x.2 := by
  rw [recordChanges_eq]
  simp

end Notes

/-! ## Entries -/

section Entries

variable (r : Registry β) (i : Nat) (f : Entry β → Entry β)

@[simp] theorem bus_update : (r.update i f).bus = r.bus := rfl

@[simp] theorem size_update : (r.update i f).entries.size = r.entries.size := by
  simp [update]

@[simp] theorem listed_update : (r.update i f).listed = r.listed := rfl

@[simp] theorem mailbox_update : (r.update i f).mailbox = r.mailbox := rfl

@[simp] theorem history_update : (r.update i f).history = r.history := rfl

/-- The changed registration. -/
theorem getElem?_update_self {e : Entry β} (he : r.entries[i]? = some e) :
    (r.update i f).entries[i]? = some (f e) := by
  simp [update, Array.getElem?_modify, he]

/-- The other registrations. -/
theorem getElem?_update_of_ne {j : Nat} (hij : i ≠ j) :
    (r.update i f).entries[j]? = r.entries[j]? := by
  simp [update, Array.getElem?_modify, hij]

@[simp] theorem bus_flag : (r.flag i).bus = r.bus := rfl

@[simp] theorem size_flag : (r.flag i).entries.size = r.entries.size := by
  simp [flag]

@[simp] theorem listed_flag : (r.flag i).listed = r.listed := rfl

@[simp] theorem mailbox_flag : (r.flag i).mailbox = r.mailbox := rfl

/-- The registration that is flagged. -/
theorem getElem?_flag {e : Entry β} (he : r.entries[i]? = some e) :
    (r.flag i).entries[i]? = some { e with flagged := true } :=
  getElem?_update_self r i _ he

/-- The registration that is called. -/
theorem getElem?_enter {e : Entry β} (he : r.entries[i]? = some e) (c : Change) (d : Device) :
    (r.enter i c d).entries[i]? = some (e.countCall c) :=
  getElem?_update_self r i _ he

/-- The registration that keeps a device. -/
theorem getElem?_keep {e : Entry β} (he : r.entries[i]? = some e) (d : Device) :
    (r.keep i d).entries[i]? = some (e.attach d) :=
  getElem?_update_self (r.record _) i _ he

end Entries

/-! ## Wakeups -/

section Wakeups

variable (r : Registry β)

@[simp] theorem bus_wake : r.wake.bus = r.bus := by
  unfold wake
  split <;> rfl

@[simp] theorem entries_wake : r.wake.entries = r.entries := by
  unfold wake
  split <;> rfl

@[simp] theorem listed_wake : r.wake.listed = r.listed := by
  unfold wake
  split <;> rfl

@[simp] theorem mailbox_wake : r.wake.mailbox = r.mailbox.wake.2 := by
  unfold wake
  split <;> (rename_i hm; rw [hm])
  rfl

/-- A wakeup that cannot be queued is logged. -/
theorem history_wake : ∃ hs, r.wake.history.toList = r.history.toList ++ hs ∧
    ∀ h ∈ hs, ∃ e, h = .logged e := by
  unfold wake
  split
  · exact ⟨[], by simp, by simp⟩
  · exact ⟨[.logged _], history_record _ _, by simp⟩

end Wakeups

/-! ## Actions -/

section Actions

variable (r : Registry β)

/-- Deregistering flags one held registration and asks for a sweep, or does nothing that counts. -/
theorem deregister_cases (h : Handle) :
    r.deregister h = r ∨ (∃ level message, r.deregister h = r.log level message) ∨
      ∃ i ∈ r.listed, ∃ level message, r.deregister h = ((r.flag i).log level message).wake := by
  unfold deregister
  split
  · cases hi : r.find? h with
    | none => exact .inr (.inl ⟨_, _, rfl⟩)
    | some i => exact .inr (.inr ⟨i, Array.mem_of_find?_eq_some hi, _, _, rfl⟩)
  · exact .inl rfl

/-- Dismissing flags a registration that is not flagged and asks for a sweep, or does nothing. -/
theorem dismiss_cases (i : Nat) (id : DeviceId) :
    (r.dismiss i id = r ∧ ∀ e, r.entries[i]? = some e → e.flagged = true) ∨
      ∃ e, r.entries[i]? = some e ∧ e.flagged = false ∧
        ∃ level message, r.dismiss i id = ((r.flag i).log level message).wake := by
  unfold dismiss
  cases he : r.entries[i]? with
  | none => exact .inl ⟨rfl, by simp⟩
  | some e =>
    cases hf : e.flagged with
    | true =>
      -- A second wish to be dropped changes nothing.
      left
      refine ⟨by simp [hf], ?_⟩
      intro e' he'
      cases he'
      exact hf
    | false => exact .inr ⟨e, rfl, hf, _, _, by simp only [hf]; rfl⟩

/-- The registration that is dismissed is flagged, if it was not before. -/
theorem getElem?_dismiss {i : Nat} {e : Entry β} (he : r.entries[i]? = some e) (id : DeviceId) :
    (r.dismiss i id).entries[i]? = some { e with flagged := true } := by
  rcases r.dismiss_cases i id with ⟨hr, hf⟩ | ⟨_, _, _, _, _, hr⟩
  · rw [hr, he, ← hf e he]
  · rw [hr, entries_wake]
    exact r.getElem?_flag i he

/-- What is noted when a registration is dismissed. -/
theorem history_dismiss (i : Nat) (id : DeviceId) :
    ∃ hs, (r.dismiss i id).history.toList = r.history.toList ++ hs ∧
      ∀ h ∈ hs, h = .flagged i ∨ ∃ e, h = .logged e := by
  rcases r.dismiss_cases i id with ⟨hr, -⟩ | ⟨_, _, _, level, message, hr⟩
  · exact ⟨[], by rw [hr]; simp, by simp⟩
  · obtain ⟨hs, hh, hlogs⟩ := ((r.flag i).log level message).history_wake
    -- The flag, the line about it, and a line more if the wakeup could not be queued.
    refine ⟨.flagged i :: .logged { level, source := .registry, message } :: hs, ?_, ?_⟩
    · rw [hr, hh]
      simp [flag, log]
    · intro h hm
      rcases List.mem_cons.mp hm with rfl | hm
      · exact .inl rfl
      · rcases List.mem_cons.mp hm with rfl | hm
        · exact .inr ⟨_, rfl⟩
        · exact .inr (hlogs h hm)

/-- The registration that is dropped. -/
theorem getElem?_drop {i : Nat} {e : Entry β} (he : r.entries[i]? = some e) (d : Device) :
    (r.drop i d).entries[i]? = some { e with flagged := true } :=
  getElem?_dismiss (r.record _) he d.id

/-- What is still listed after a registration is taken off again: nothing with its handle. -/
theorem mem_listed_rollBack (j : Nat) (h : Handle) (why : Failure) {i : Nat} :
    i ∈ (r.rollBack j h why).listed ↔
      i ∈ r.listed ∧ (r.flag j).satisfies (·.isNamed h) i = false := by
  have hmem : i ∈ r.listed.filter (fun i => !(r.flag j).satisfies (·.isNamed h) i) ↔ _ :=
    Array.mem_filter
  rw [Bool.not_eq_true'] at hmem
  exact hmem

/-- What is noted when a registration is taken off again. -/
theorem history_rollBack (j : Nat) (h : Handle) (why : Failure) : ∃ l,
    (r.rollBack j h why).history.toList = r.history.toList ++ [.logged l, .flagged j] := by
  unfold rollBack unlist flag
  rw [history_record]
  exact ⟨_, by rw [history_update, history_log, List.append_assoc]; rfl⟩

/-- Destroying empties the list and notes what was on it. -/
theorem deregisterAll_cases :
    r.deregisterAll.2 = { r with listed := #[] }.record (.destroyed r.listed.toList) ∨
      ∃ level message, r.deregisterAll.2 =
        ({ r with listed := #[] }.record (.destroyed r.listed.toList)).log level message := by
  unfold deregisterAll
  simp only
  split
  · exact .inl rfl
  · exact .inr ⟨_, _, rfl⟩

/-- Queueing a change changes the mailbox, and tells if it did. -/
theorem notify_cases (d : Device) (c : Change) :
    (r.mailbox.closed = false ∧ (r.notify d c).2 =
      { r with mailbox := { r.mailbox with
          messages := r.mailbox.messages ++ [Message.change d c] } }.record (.notified d c)) ∨
      (r.mailbox.closed = true ∧ (r.notify d c).2 = r) := by
  unfold notify Mailbox.post
  by_cases hc : r.mailbox.closed = true
  · exact .inr ⟨hc, by simp [hc]⟩
  · exact .inl ⟨by simpa using hc, by simp [hc]⟩

@[simp] theorem entries_deregisterAll : r.deregisterAll.2.entries = r.entries := by
  rcases r.deregisterAll_cases with h | ⟨_, _, h⟩ <;> rw [h] <;> rfl

@[simp] theorem listed_deregisterAll : r.deregisterAll.2.listed = #[] := by
  rcases r.deregisterAll_cases with h | ⟨_, _, h⟩ <;> rw [h] <;> rfl

@[simp] theorem bus_deregisterAll : r.deregisterAll.2.bus = r.bus := by
  rcases r.deregisterAll_cases with h | ⟨_, _, h⟩ <;> rw [h] <;> rfl

@[simp] theorem mailbox_deregisterAll : r.deregisterAll.2.mailbox = r.mailbox := by
  rcases r.deregisterAll_cases with h | ⟨_, _, h⟩ <;> rw [h] <;> rfl

/-- Asking for the devices changes the bus and writes to the log. -/
theorem enumerate_eq : r.enumerate.2 = { r with
    bus := (Bus.enumerate r.bus).bus
    history := r.history ++ (Bus.enumerate r.bus).log.map Happening.logged } :=
  logAll_eq _ _

theorem history_enumerate : r.enumerate.2.history.toList =
    r.history.toList ++ (Bus.enumerate r.bus).log.map Happening.logged := by
  simp [enumerate_eq]

@[simp] theorem entries_enumerate : r.enumerate.2.entries = r.entries := by rw [enumerate_eq]

@[simp] theorem listed_enumerate : r.enumerate.2.listed = r.listed := by rw [enumerate_eq]

@[simp] theorem mailbox_enumerate : r.enumerate.2.mailbox = r.mailbox := by rw [enumerate_eq]

@[simp] theorem bus_enumerate : r.enumerate.2.bus = (Bus.enumerate r.bus).bus := by
  rw [enumerate_eq]

@[simp] theorem size_deregister (h : Handle) :
    (r.deregister h).entries.size = r.entries.size := by
  rcases r.deregister_cases h with hr | ⟨_, _, hr⟩ | ⟨i, _, _, _, hr⟩ <;> simp [hr]

@[simp] theorem listed_deregister (h : Handle) : (r.deregister h).listed = r.listed := by
  rcases r.deregister_cases h with hr | ⟨_, _, hr⟩ | ⟨i, _, _, _, hr⟩ <;> simp [hr]

@[simp] theorem bus_deregister (h : Handle) : (r.deregister h).bus = r.bus := by
  rcases r.deregister_cases h with hr | ⟨_, _, hr⟩ | ⟨i, _, _, _, hr⟩ <;> simp [hr]

@[simp] theorem size_dismiss (i : Nat) (id : DeviceId) :
    (r.dismiss i id).entries.size = r.entries.size := by
  rcases r.dismiss_cases i id with ⟨hr, -⟩ | ⟨_, _, _, _, _, hr⟩ <;> simp [hr]

@[simp] theorem listed_dismiss (i : Nat) (id : DeviceId) : (r.dismiss i id).listed = r.listed := by
  rcases r.dismiss_cases i id with ⟨hr, -⟩ | ⟨_, _, _, _, _, hr⟩ <;> simp [hr]

@[simp] theorem bus_dismiss (i : Nat) (id : DeviceId) : (r.dismiss i id).bus = r.bus := by
  rcases r.dismiss_cases i id with ⟨hr, -⟩ | ⟨_, _, _, _, _, hr⟩ <;> simp [hr]

@[simp] theorem entries_teardown : r.teardown.entries = r.entries := by
  simp [teardown]

@[simp] theorem listed_teardown : r.teardown.listed = #[] := by
  simp [teardown]

@[simp] theorem bus_teardown : r.teardown.bus = r.bus := by
  simp [teardown]

@[simp] theorem mailbox_teardown : r.teardown.mailbox = r.mailbox.drain := by
  simp [teardown]

@[simp] theorem entries_notify (d : Device) (c : Change) :
    (r.notify d c).2.entries = r.entries := by
  rcases r.notify_cases d c with ⟨-, hr⟩ | ⟨-, hr⟩ <;> simp [hr]

@[simp] theorem listed_notify (d : Device) (c : Change) :
    (r.notify d c).2.listed = r.listed := by
  rcases r.notify_cases d c with ⟨-, hr⟩ | ⟨-, hr⟩ <;> simp [hr]

@[simp] theorem bus_notify (d : Device) (c : Change) : (r.notify d c).2.bus = r.bus := by
  rcases r.notify_cases d c with ⟨-, hr⟩ | ⟨-, hr⟩ <;> simp [hr]

@[simp] theorem entries_busCommand (c : Bus.Command β) :
    (r.perform (.bus c)).2.entries = r.entries := entries_recordChanges _ _

@[simp] theorem listed_busCommand (c : Bus.Command β) :
    (r.perform (.bus c)).2.listed = r.listed := listed_recordChanges _ _

@[simp] theorem mailbox_busCommand (c : Bus.Command β) :
    (r.perform (.bus c)).2.mailbox = r.mailbox := mailbox_recordChanges _ _

@[simp] theorem bus_busCommand (c : Bus.Command β) :
    (r.perform (.bus c)).2.bus = (Bus.perform c r.bus).2 := bus_recordChanges _ _

@[simp] theorem size_perform (a : Action β) :
    (r.perform a).2.entries.size = r.entries.size := by
  cases a with
  | bus c => rw [entries_busCommand]
  | _ => simp [perform]

/-- An action lists nothing. -/
theorem listed_perform (a : Action β) :
    (r.perform a).2.listed.toList.Sublist r.listed.toList := by
  cases a with
  | bus c =>
    have hl : (r.perform (.bus c)).2.listed = r.listed := listed_busCommand r c
    exact hl ▸ List.Sublist.refl _
  | _ => simp [perform]

end Actions

end Registry

end PlugWatch
