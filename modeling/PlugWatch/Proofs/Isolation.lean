import PlugWatch.Bus.Memory
import PlugWatch.Proofs.Parting
import PlugWatch.Proofs.Pending
import PlugWatch.Proofs.Wellformed

/-! # Registrations do not interfere

  As long as callbacks only record, whatever is done to a registry has two effects. It changes the
  **scene**, which is what all registrations share: the bus, and the changes that wait. And it
  changes the profile of each registration, by a function of the profile and of the scene. No other
  registration comes into it, so a registration fares in company as it fares alone.

  Only the order in which it is told of its devices when it is swept may come out otherwise in
  company. Therefore it has an order of its own when it is alone.

  Who deregisters whom is told by handles. Handles are counted by words, so they repeat in the end,
  and all this is true as long as nobody gets a handle that another one still holds.
-/

namespace PlugWatch

/-! ## Operations -/

section Operations

variable {β : Type} [Bus β]

/-- An operation after which callbacks still only record. -/
inductive Operation.Plain : Operation β → Prop where
  | register {g : Registration β} : g.Recording → Plain (.register g)
  | deregister (h : Handle) : Plain (.act (.deregister h))
  | notify (d : Device) (c : Change) : Plain (.act (.notify d c))
  | bus (c : Bus.Command β) : Plain (.act (.bus c))
  | dispatch (d : Device) (c : Change) : Plain (.dispatch d c)
  | handlePending : Plain .handlePending
  | sweep : Plain .sweep

/-- What is left of an operation if nobody is registered or deregistered but the owner of a handle,
    who gets another one. -/
def Operation.alone (own new : Handle) : Operation β → Option (Operation β)
  | .register _ => none
  | .act (.deregister h) => if h = own then some (.act (.deregister new)) else none
  | o => some o

end Operations

/-! ## Scenes -/

/-- What registrations share. -/
structure Scene where
  /-- The bus, but for the count of listings. -/
  bus : MemoryBus
  /-- The changes that wait. -/
  waiting : List (Device × Change)

/-- What an operation does to the scene. -/
def Scene.after (s : Scene) : Operation MemoryBus → Scene
  | .act (.notify d c) => { s with waiting := s.waiting ++ [(d, c)] }
  | .act (.bus c) => { s with bus := (Bus.perform c s.bus).2 }
  | .handlePending => { s with waiting := [] }
  | _ => s

/-- What registering leads to: how it is answered, and the profile that there is then. -/
def Scene.register (s : Scene) (g : Registration MemoryBus) :
    Except Failure Unit × Option (Profile MemoryBus) :=
  if !s.bus.supported then (.error .unsupported, none)
  else match g.check with
    | .error fault => (.error (.invalidParameter fault), none)
    | .ok () =>
      let p : Profile MemoryBus := { entry := { toRegistration := g, handle := ⟨0⟩ } }
      if !g.filter.enumerate then (.ok (), some p)
      else match s.bus.list.devices with
        | .error why => (.error why, some { p.flag with held := false })
        | .ok ds => (.ok (), some (ds.foldl Profile.arrive p))

/-- What an operation does to the profile of the owner of a handle. -/
def Profile.after (own : Handle) (s : Scene) (p : Profile MemoryBus) :
    Operation MemoryBus → Profile MemoryBus
  | .act (.deregister h) => if s.bus.supported && h == own && p.held then p.flag else p
  | .dispatch d c => p.hear (d, c)
  | .handlePending => (s.waiting.foldl hear p).sweep
  | .sweep => p.sweep
  | _ => p

/-- An operation that is left out changes neither the scene nor the profile of the owner; one that
    is left does to them what it did. -/
theorem Operation.Plain.alone {o : Operation MemoryBus} (ho : o.Plain) (own new : Handle) :
    (o.alone own new = none ∧ ∀ s : Scene, s.after o = s ∧ ∀ p : Profile MemoryBus,
      p.after own s o = p) ∨
    ∃ o', o.alone own new = some o' ∧ o'.Plain ∧ (∀ g, o' ≠ .register g) ∧
      ∀ s : Scene, s.after o' = s.after o ∧ ∀ p : Profile MemoryBus,
        p.after new s o' = p.after own s o := by
  cases ho with
  | register hg => exact .inl ⟨rfl, fun s => ⟨rfl, fun p => rfl⟩⟩
  | deregister h =>
    by_cases hown : h = own
    · refine .inr ⟨.act (.deregister new), if_pos hown, .deregister new, by simp, ?_⟩
      exact fun s => ⟨rfl, fun p => by simp [Profile.after, hown]⟩
    · exact .inl ⟨if_neg hown, fun s => ⟨rfl, fun p => by simp [Profile.after, hown]⟩⟩
  | notify d c => exact .inr ⟨_, rfl, .notify d c, by simp, fun s => ⟨rfl, fun p => rfl⟩⟩
  | bus c => exact .inr ⟨_, rfl, .bus c, by simp, fun s => ⟨rfl, fun p => rfl⟩⟩
  | dispatch d c => exact .inr ⟨_, rfl, .dispatch d c, by simp, fun s => ⟨rfl, fun p => rfl⟩⟩
  | handlePending => exact .inr ⟨_, rfl, .handlePending, by simp, fun s => ⟨rfl, fun p => rfl⟩⟩
  | sweep => exact .inr ⟨_, rfl, .sweep, by simp, fun s => ⟨rfl, fun p => rfl⟩⟩

/-! ## Orders -/

namespace Profile

variable {p p' : Profile MemoryBus} {order : Device.Order}

/-- Nothing happens any more to a registration that is not held. -/
theorem after_of_unheld (h : p.held = false) (own : Handle) (s : Scene)
    (o : Operation MemoryBus) : p.after own s o = p := by
  have hhear (x : Device × Change) : p.hear x = p := by simp [hear, h]
  have hsweep : p.sweep = p := sweep_of_kept (by simp [h])
  cases o with
  | act a => cases a <;> simp [Profile.after, h]
  | dispatch d c => exact hhear (d, c)
  | handlePending =>
    have hall : s.waiting.foldl hear p = p := by
      induction s.waiting with
      | nil => rfl
      | cons x xs ih => rw [List.foldl_cons, hhear, ih]
    show (s.waiting.foldl hear p).sweep = p
    rw [hall, hsweep]
  | sweep => exact hsweep
  | _ => rfl

/-- An operation does the same to both. -/
theorem Alike.after (h : Alike order p p') (own : Handle) (s : Scene) (o : Operation MemoryBus) :
    Alike order (p.after own s o) (p'.after own s o) := by
  cases h with
  | swept q hheld hflagged =>
    obtain ⟨_, -, hq⟩ := sweep_of_flagged hheld hflagged
    obtain ⟨_, -, hq'⟩ := sweep_of_flagged (p := q.reordered order) hheld hflagged
    rw [after_of_unheld (by rw [hq]), after_of_unheld (by rw [hq'])]
    exact .swept q hheld hflagged
  | unswept =>
    cases o with
    | act a =>
      cases a with
      | deregister h =>
        show Alike order (if s.bus.supported && h == own && p.held then p.flag else p)
          (if s.bus.supported && h == own && p.held then p.flag.reordered order
            else p.reordered order)
        split
        · exact .unswept p.flag
        · exact .unswept p
      | _ => exact .unswept p
    | dispatch d c =>
      show Alike order (p.hear (d, c)) ((p.reordered order).hear (d, c))
      rw [hear_reordered]
      exact .unswept _
    | handlePending =>
      show Alike order (s.waiting.foldl hear p).sweep
        (s.waiting.foldl hear (p.reordered order)).sweep
      rw [foldl_reordered fun p x => hear_reordered p order x]
      exact .sweep _ order
    | sweep => exact .sweep p order
    | _ => exact .unswept p

end Profile

/-- Registering is answered in the same way, whatever the order. -/
theorem Scene.register_reordered (s : Scene) (g : Registration MemoryBus) (order : Device.Order) :
    s.register { g with order } =
      ((s.register g).1, (s.register g).2.map (·.reordered order)) := by
  have hcheck : ({ g with order } : Registration MemoryBus).check = g.check := rfl
  unfold Scene.register
  rw [hcheck]
  split
  · rfl
  · cases g.check with
    | error fault => rfl
    | ok u =>
      dsimp only
      split
      · rfl
      · cases s.bus.list.devices with
        | error why => rfl
        | ok ds =>
          let p : Profile MemoryBus := { entry := { toRegistration := g, handle := ⟨0⟩ } }
          have hall := Profile.foldl_reordered
            (fun p d => Profile.arrive_reordered p order d) ds p
          show (_, some (ds.foldl Profile.arrive (p.reordered order))) = _
          rw [hall]
          rfl

namespace Registry

open Walk

variable {r r' q : Registry MemoryBus} {i j : Nat}

/-- The scene of a registry. -/
def scene (r : Registry MemoryBus) : Scene where
  bus := { r.bus with enumerations := 0 }
  waiting := r.mailbox.messages.filterMap Message.change?

/-- The handle of the registration at a place. -/
def handleAt (i : Nat) : Handle :=
  ⟨UInt32.ofNat (i + 1)⟩

/-- No two held registrations have the same handle. -/
def Apart (r : Registry MemoryBus) : Prop :=
  ∀ i ∈ r.listed, ∀ j ∈ r.listed, handleAt i = handleAt j → i = j

/-- Whether an operation, if it registers, gives a handle that nobody holds. -/
def newHandle (r : Registry MemoryBus) : Operation MemoryBus → Bool
  | .register _ => r.held.all (·.handle != r.nextHandle)
  | _ => true

/-- Whether in a session nobody gets a handle that another one still holds. -/
def newHandles (r : Registry MemoryBus) : List (Operation MemoryBus) → Bool
  | [] => true
  | o :: os => r.newHandle o && (r.after o).newHandles os

/-- A registry that is sane, in which callbacks only record and handles tell who is held. -/
structure Placid (r : Registry MemoryBus) : Prop where
  regular : r.Regular
  sane : r.Sane
  kept : r.mailbox.Kept
  recording : r.Recording
  apart : r.Apart

/-- The two effects of an operation. -/
structure Plainly (o : Operation MemoryBus) (r r' : Registry MemoryBus) : Prop where
  scene : r'.scene = r.scene.after o
  recording : r'.Recording
  size : (∀ g, o ≠ .register g) → r'.entries.size = r.entries.size
  size_le : r'.entries.size ≤ r.entries.size + 1
  profiles : ∀ i < r.entries.size,
    r'.profile? i = (r.profile? i).map fun p => p.after (handleAt i) r.scene o

/-- What lets profiles evolve. -/
theorem Plainly.of_evolves {o : Operation MemoryBus}
    {F : Nat → Profile MemoryBus → Profile MemoryBus} (hr : r.Recording) (h : Evolves F r r')
    (hs : r'.scene = r.scene.after o) (hF : ∀ i p, p.after (handleAt i) r.scene o = F i p) :
    Plainly o r r' where
  scene := hs
  recording := h.recording hr
  size _ := h.size
  size_le := h.size ▸ Nat.le_succ _
  profiles i _ := by
    rw [h.profiles]
    simp only [hF]

theorem Evolves.scene {F : Nat → Profile MemoryBus → Profile MemoryBus} (h : Evolves F r r')
    (hm : Murmurs r r') : r'.scene = r.scene := by
  obtain ⟨ws, hws, hnone⟩ := hm
  unfold Registry.scene
  rw [h.bus, hws, List.filterMap_append, hnone, List.append_nil]

/-- What leaves entries and list alone, and says nothing. -/
theorem Plainly.of_notes {o : Operation MemoryBus} {hs : List Happening} (hr : r.Recording)
    (he : r'.entries = r.entries) (hl : r'.listed = r.listed)
    (hh : r'.history.toList = r.history.toList ++ hs) (hu : ∀ h ∈ hs, h.Unspoken)
    (hscene : r'.scene = r.scene.after o)
    (ho : ∀ i (p : Profile MemoryBus), p.after (handleAt i) r.scene o = p) :
    Plainly o r r' where
  scene := hscene
  recording := by
    unfold Registry.Recording
    rwa [he]
  size _ := by rw [he]
  size_le := by
    rw [he]
    exact Nat.le_succ _
  profiles i _ := by
    simp only [ho, Option.map_id']
    exact profile?_congr (by rw [he]) (by rw [hl]) (calls_of_unspoken hh hu)

/-- An operation that drops the answer of a walk. -/
theorem Plainly.of_ends {α : Type} {w : Walk MemoryBus α} {o : Operation MemoryBus}
    (ho : o.walk = discard w) (h : w.Ends (fun _ r' => Plainly o r r') r) :
    Plainly o r (r.after o) := by
  have hleft : r.after o = left w r := by
    unfold Registry.after
    rw [ho]
    exact left_discard w r
  rw [hleft]
  exact h.of_left

/-- A walk that lets profiles evolve and the scene as it is. -/
theorem Plainly.of_develops {α : Type} {w : Walk MemoryBus α} {o : Operation MemoryBus}
    {F : Nat → Profile MemoryBus → Profile MemoryBus} (ho : o.walk = discard w) (hr : r.Recording)
    (h : Develops w F r) (hs : r.scene.after o = r.scene)
    (hF : ∀ i p, p.after (handleAt i) r.scene o = F i p) : Plainly o r (r.after o) := by
  refine .of_ends ho (h.mono ?_)
  rintro _ r' ⟨-, he, hm⟩
  exact .of_evolves hr he ((he.scene hm).trans hs.symm) hF

/-! ## Who has a handle -/

/-- Handles tell apart who is held if what is done makes no registration, or one whose handle
    nobody holds. -/
theorem Apart.steps (ha : r.Apart) (h : Steps r r') (ho : r'.Orderly)
    (hsize : r'.entries.size ≤ r.entries.size ∨ r'.entries.size ≤ r.entries.size + 1 ∧
      ∀ i ∈ r.listed, handleAt i ≠ r.nextHandle) : r'.Apart := by
  have hplace {i : Nat} (hi : i ∈ r'.listed) : i ∈ r.listed ∨
      i = r.entries.size ∧ ∀ j ∈ r.listed, handleAt j ≠ r.nextHandle := by
    have hlt := ho.taken i hi
    by_cases hold : i < r.entries.size
    · exact .inl (h.listed hi hold)
    · rcases hsize with hsize | ⟨hsize, hnew⟩
      · omega
      · exact .inr ⟨by omega, hnew⟩
  intro i hi j hj hsame
  rcases hplace hi with hi | ⟨rfl, hnew⟩ <;> rcases hplace hj with hj | ⟨rfl, hnew'⟩
  · exact ha i hi j hj hsame
  · exact absurd hsame (hnew' i hi)
  · exact absurd hsame.symm (hnew j hj)
  · rfl

/-- A new handle is the handle of nobody on the list. -/
theorem newHandle_register_iff {g : Registration MemoryBus} (hr : r.Regular) :
    r.newHandle (.register g) = true ↔ ∀ i ∈ r.listed, handleAt i ≠ r.nextHandle := by
  unfold newHandle
  rw [List.all_eq_true]
  constructor
  · intro hall i hi
    have he := Array.getElem?_eq_getElem (hr.orderly.taken i hi)
    have hne := hall _ (mem_held.mpr ⟨i, hi, he⟩)
    rw [hr.handles i _ he] at hne
    exact bne_iff_ne.mp hne
  · intro hall e he
    obtain ⟨i, hi, he⟩ := mem_held.mp he
    rw [hr.handles i e he]
    exact bne_iff_ne.mpr (hall i hi)

/-- Nothing else than registering gives a handle. -/
theorem newHandle_of_ne {o : Operation MemoryBus} (hne : ∀ g, o ≠ .register g) :
    r.newHandle o = true := by
  cases o with
  | register g => exact absurd rfl (hne g)
  | _ => rfl

/-- Nobody is held where there are no registrations. -/
theorem newHandle_of_empty (hr : r.Regular) (hzero : r.entries.size = 0)
    (g : Registration MemoryBus) : r.newHandle (.register g) = true := by
  refine (newHandle_register_iff hr).mpr ?_
  intro i hi
  have hlt := hr.orderly.taken i hi
  omega

/-- Handles are new until they have run out. -/
theorem newHandles_of_size {os : List (Operation MemoryBus)} (hr : r.Regular)
    (hsize : (r.afterAll os).entries.size < UInt32.size) : r.newHandles os = true := by
  induction os generalizing r with
  | nil => rfl
  | cons o os ih =>
    have hnew : r.newHandle o = true := by
      cases o with
      | register g =>
        refine (newHandle_register_iff hr).mpr ?_
        intro i hi hsame
        have hlt := hr.orderly.taken i hi
        have hle : r.entries.size + 1 ≤ UInt32.size :=
          Nat.lt_of_le_of_lt (afterAll_steps r (.register g :: os)).size_le hsize
        have hplace := handle_inj hle (Nat.lt_succ_of_lt hlt) (Nat.lt_succ_self _) hsame
        omega
      | _ => rfl
    rw [newHandles, hnew, Bool.true_and]
    exact ih ((afterAll_steps r [o]).regular hr) hsize

theorem newHandles_append (r : Registry MemoryBus) (os os' : List (Operation MemoryBus)) :
    r.newHandles (os ++ os') = (r.newHandles os && (r.afterAll os).newHandles os') := by
  induction os generalizing r with
  | nil => rfl
  | cons o os ih =>
    rw [List.cons_append, newHandles, newHandles, ih, Bool.and_assoc]
    rfl

/-- The first held registration with a handle is the owner of the handle. -/
theorem find?_eq_some_iff (hr : r.Placid) {e : Entry MemoryBus} (he : r.entries[i]? = some e)
    (h : Handle) : r.find? h = some i ↔ (h == handleAt i && (r.profile i e).held) = true := by
  have hown : e.handle = handleAt i := hr.regular.handles i e he
  rw [Bool.and_eq_true, beq_iff_eq, ← hown]
  constructor
  · intro hfind
    obtain ⟨e', he', hname⟩ := satisfies_iff.mp (Array.find?_some hfind)
    rw [he] at he'
    cases he'
    refine ⟨(by simpa [Entry.isNamed] using hname : e.handle = h).symm, ?_⟩
    simpa [profile] using Array.mem_of_find?_eq_some hfind
  · rintro ⟨rfl, hheld⟩
    have hi : i ∈ r.listed := by simpa [profile] using hheld
    cases hfind : r.find? e.handle with
    | none =>
      have hno := Array.find?_eq_none.mp hfind i hi
      exact absurd (satisfies_iff.mpr ⟨e, he, by simp [Entry.isNamed]⟩) hno
    | some j =>
      obtain ⟨e', he', hname⟩ := satisfies_iff.mp (Array.find?_some hfind)
      have hsame : e'.handle = e.handle := by simpa [Entry.isNamed] using hname
      rw [hr.regular.handles j e' he', hown] at hsame
      rw [hr.apart j (Array.mem_of_find?_eq_some hfind) i hi hsame]

/-! ## What single operations do -/

/-- The owner of a handle is flagged if it is held; nobody else is concerned. -/
theorem deregister_evolves (hr : r.Placid) (h : Handle) :
    Evolves (fun i p => if r.bus.supported && h == handleAt i && p.held then p.flag else p) r
      (r.deregister h) ∧ Murmurs r (r.deregister h) := by
  unfold deregister
  split
  · next hb =>
    have hb : r.bus.supported = true := hb
    cases hfind : r.find? h with
    | none =>
      refine ⟨(Evolves.log r _ _).congr ?_, .of_eq rfl⟩
      intro i p hp
      obtain ⟨e, he, rfl⟩ := Option.map_eq_some_iff.mp hp
      have hnot := (find?_eq_some_iff hr he h).not.mp (by simp [hfind])
      rw [hb, Bool.true_and, if_neg hnot]
    | some k =>
      refine ⟨Evolves.congr (((Evolves.flag r k).trans (.log _ _ _)).trans (.wake _)) ?_,
        Murmurs.trans (.of_eq rfl) (.wake _)⟩
      intro i p hp
      obtain ⟨e, he, rfl⟩ := Option.map_eq_some_iff.mp hp
      have hiff := find?_eq_some_iff hr he h
      rw [hfind, Option.some.injEq] at hiff
      unfold here
      rw [hb, Bool.true_and]
      exact if_congr hiff rfl rfl
  · next hb =>
    have hb : ¬ r.bus.supported = true := hb
    exact ⟨(Evolves.refl r).congr fun i p _ => by simp [hb], .of_eq rfl⟩

theorem deregister_plainly (hr : r.Placid) (h : Handle) :
    Plainly (.act (.deregister h)) r (r.deregister h) := by
  obtain ⟨he, hm⟩ := deregister_evolves hr h
  exact .of_evolves hr.recording he (he.scene hm) fun _ _ => rfl

theorem notify_plainly (hr : r.Placid) (d : Device) (c : Change) :
    Plainly (.act (.notify d c)) r (r.notify d c).2 := by
  rcases r.notify_cases d c with ⟨-, hn⟩ | ⟨hclosed, -⟩
  · rw [hn]
    refine .of_notes hr.recording rfl rfl (history_record _ (.notified d c))
      (by simp [Happening.Unspoken]) ?_ fun _ _ => rfl
    simp [scene, Scene.after, Message.change?]
  · rw [hr.kept.opened] at hclosed
    cases hclosed

theorem busCommand_plainly (hr : r.Placid) (c : MemoryBus.Command) :
    Plainly (.act (.bus c)) r (r.perform (.bus c)).2 := by
  refine .of_notes hr.recording (entries_busCommand r c) (listed_busCommand r c)
    (history_recordChanges _ _) ?_ ?_ fun _ _ => rfl
  · intro h hm
    obtain ⟨x, -, rfl⟩ := List.mem_map.mp hm
    simp [Happening.Unspoken]
  · unfold scene
    rw [bus_busCommand, mailbox_busCommand]
    cases c <;> rfl

theorem dispatch_plainly (hr : r.Placid) (d : Device) (c : Change) :
    Plainly (.dispatch d c) r (r.after (.dispatch d c)) :=
  .of_develops rfl hr.recording (dispatch_develops (hr.recording.at _) hr.regular.orderly d c) rfl
    fun _ _ => rfl

theorem sweep_plainly (hr : r.Placid) : Plainly .sweep r (r.after .sweep) :=
  .of_develops rfl hr.recording (sweep_develops hr.recording hr.regular.orderly) rfl fun _ _ => rfl

/-! ## Handling what is pending -/

theorem handlePending_plainly (hr : r.Placid) :
    Plainly .handlePending r (r.after .handlePending) := by
  refine .of_ends rfl ((handlePending_evolves hr.recording hr.regular.orderly).mono ?_)
  rintro _ r' ⟨-, he, hidle⟩
  refine .of_evolves hr.recording he ?_ fun _ _ => rfl
  unfold scene Scene.after
  rw [he.bus, hidle]

/-! ## Registering -/

/-- A registration was made, or was refused and left nothing. The others are not concerned. -/
structure Admits (r r' : Registry MemoryBus) (p? : Option (Profile MemoryBus)) : Prop where
  scene : r'.scene = r.scene
  recording : r'.Recording
  size : r'.entries.size ≤ r.entries.size + 1
  others : ∀ i < r.entries.size, r'.profile? i = r.profile? i
  own : r'.profile? r.entries.size = p?

/-- The profile of a registration just made. -/
def newProfile (g : Registration MemoryBus) : Profile MemoryBus where
  entry := { toRegistration := g, handle := ⟨0⟩ }

variable {g : Registration MemoryBus} {p? : Option (Profile MemoryBus)}

theorem Admits.refused (hr : r.Placid) : Admits r r none where
  scene := rfl
  recording := hr.recording
  size := Nat.le_succ _
  others _ _ := rfl
  own := profile?_eq_none (Array.getElem?_eq_none (Nat.le_refl _))

/-- What leaves entries and list alone, and says nothing. -/
theorem Admits.of_notes {s : Registry MemoryBus} {hs : List Happening} (h : Admits r s p?)
    (he : r'.entries = s.entries) (hl : r'.listed = s.listed)
    (hh : r'.history.toList = s.history.toList ++ hs) (hu : ∀ h ∈ hs, h.Unspoken)
    (hscene : r'.scene = s.scene) : Admits r r' p? := by
  have hsame (i : Nat) : r'.profile? i = s.profile? i :=
    profile?_congr (by rw [he]) (by rw [hl]) (calls_of_unspoken hh hu)
  refine ⟨hscene.trans h.scene, ?_, ?_, ?_, ?_⟩
  · unfold Registry.Recording
    rw [he]
    exact h.recording
  · rw [he]
    exact h.size
  · intro i hi
    rw [hsame, h.others i hi]
  · rw [hsame, h.own]

theorem Admits.enlist (hr : r.Placid) (hg : g.Recording) :
    Admits r (r.enlist g) (some (newProfile g)) where
  scene := rfl
  recording := by
    intro i e he
    rw [entries_enlist, Array.getElem?_push] at he
    split at he
    · cases he
      exact hg
    · exact hr.recording i e he
  size := Nat.le_of_eq (size_enlist r g)
  others i hi := by rw [profile?_enlist, if_neg (Nat.ne_of_lt hi)]
  own := by
    rw [profile?_enlist, if_pos rfl, newcomer, hr.sane.silent _ (Nat.le_refl _)]
    rfl

/-- The devices present are asked for. -/
theorem Admits.enumerate {s : Registry MemoryBus} (h : Admits r s p?) :
    Admits r s.enumerate.2 p? := by
  have hh : s.enumerate.2.history.toList = s.history.toList ++ [] := (List.append_nil _).symm
  exact h.of_notes (entries_enumerate s) (listed_enumerate s) hh (by simp) rfl

/-- No other held registration has the handle of a new one. -/
theorem not_named_nextHandle (hr : r.Placid) (hnew : r.newHandle (.register g) = true)
    (hlt : i < r.entries.size) (hi : i ∈ (r.enlist g).enumerate.2.listed) :
    ((r.enlist g).enumerate.2.flag r.entries.size).satisfies
      (·.isNamed r.nextHandle) i = false := by
  have hlisted : i ∈ r.listed := by
    have hpushed : i ∈ r.listed.push r.entries.size := hi
    exact (Array.mem_push.mp hpushed).resolve_right (Nat.ne_of_lt hlt)
  rw [Bool.eq_false_iff, ne_eq, satisfies_iff, getElem?_enlist_flag hlt]
  rintro ⟨e, he, hname⟩
  have hhandle : e.handle = r.nextHandle := by simpa [Entry.isNamed] using hname
  rw [hr.regular.handles i e he] at hhandle
  exact (newHandle_register_iff hr.regular).mp hnew i hlisted hhandle

/-- The registration is taken off again. -/
theorem Admits.rollBack (hr : r.Placid) (hnew : r.newHandle (.register g) = true)
    {p : Profile MemoryBus} (h : Admits r (r.enlist g).enumerate.2 (some p)) (why : Failure) :
    Admits r ((r.enlist g).enumerate.2.rollBack r.entries.size r.nextHandle why)
      (some { p.flag with held := false }) := by
  let s := (r.enlist g).enumerate.2
  let t := s.rollBack r.entries.size r.nextHandle why
  have hentry : s.entries[r.entries.size]? = some (r.newEntry g) := getElem?_enlist_enumerate r g
  have hflagged : t.entries[r.entries.size]? = some { r.newEntry g with flagged := true } :=
    s.getElem?_flag r.entries.size hentry
  have hcalls (i : Nat) : t.calls i = s.calls i := by
    obtain ⟨l, hh⟩ := s.history_rollBack r.entries.size r.nextHandle why
    exact calls_of_unspoken hh (by simp [Happening.Unspoken])
  have hlisted (i : Nat) : i ∈ t.listed ↔ i ∈ s.listed ∧
      (s.flag r.entries.size).satisfies (·.isNamed r.nextHandle) i = false :=
    mem_listed_rollBack s r.entries.size r.nextHandle why
  refine ⟨h.scene, ?_, ?_, ?_, ?_⟩
  · exact (Evolves.flag s r.entries.size).recording h.recording
  · exact (Evolves.flag s r.entries.size).size ▸ h.size
  · intro i hi
    rw [← h.others i hi]
    refine profile?_congr ?_ ?_ (hcalls i)
    · exact getElem?_update_of_ne s r.entries.size _ (Nat.ne_of_gt hi)
    · rw [Bool.eq_iff_iff, Array.contains_iff_mem, Array.contains_iff_mem, hlisted i]
      exact and_iff_left_of_imp (not_named_nextHandle hr hnew hi)
  · have hown := h.own
    rw [profile?_eq hentry] at hown
    have hoff : t.listed.contains r.entries.size = false := by
      rw [Bool.eq_false_iff, ne_eq, Array.contains_iff_mem, hlisted]
      rintro ⟨-, hnot⟩
      have hnamed : (s.flag r.entries.size).satisfies (·.isNamed r.nextHandle) r.entries.size =
          true := satisfies_iff.mpr ⟨_, hflagged, beq_self_eq_true r.nextHandle⟩
      rw [hnot] at hnamed
      cases hnamed
    rw [profile?_eq hflagged]
    unfold profile
    rw [hoff, hcalls, ← Option.some.inj hown]
    rfl

/-- The devices present are replayed. -/
theorem Admits.replay {s : Registry MemoryBus} {p : Profile MemoryBus} (h : Admits r s (some p))
    {f : Profile MemoryBus → Profile MemoryBus} (he : Evolves (here r.entries.size f) s r')
    (hm : Murmurs s r') : Admits r r' (some (f p)) where
  scene := (he.scene hm).trans h.scene
  recording := he.recording h.recording
  size := he.size ▸ h.size
  others i hi := by
    rw [he.profiles, here_of_ne (Nat.ne_of_gt hi), Option.map_id_apply, h.others i hi]
  own := by
    rw [he.profiles, h.own, here_self]
    rfl

/-- What registering answers and leads to is seen from the scene alone. -/
theorem register_admits (hr : r.Placid) (hnew : r.newHandle (.register g) = true)
    (hg : g.Recording) : (register g).Ends (fun o r' =>
      o.map (Except.map fun _ => ()) = some (r.scene.register g).1 ∧
        Admits r r' (r.scene.register g).2) r := by
  unfold register registerWith Scene.register
  rw [ends_bind, ends_get, before_some]
  split
  · next hb =>
    have hb' : (!r.scene.bus.supported) = true := hb
    rw [if_pos hb']
    exact ⟨rfl, .refused hr⟩
  · next hb =>
    have hb' : ¬ (!r.scene.bus.supported) = true := hb
    rw [if_neg hb']
    cases hcheck : g.check with
    | error fault => exact ⟨rfl, .refused hr⟩
    | ok u =>
      have hlisted := Admits.enlist hr hg
      simp only [ends_bind, ends_modify, before_some]
      split
      · exact ⟨rfl, hlisted⟩
      · rw [ends_bind, ends_modifyGet, before_some]
        have hknown := hlisted.enumerate
        have hdevices : (r.enlist g).enumerate.1 = r.scene.bus.list.devices := rfl
        rw [hdevices]
        cases r.scene.bus.list.devices with
        | error why => exact ⟨rfl, hknown.rollBack hr hnew why⟩
        | ok ds =>
          simp only [ends_bind, ends_modify, before_some]
          let s := (r.enlist g).enumerate.2
          have hbegun : Admits r (s.beginReplay r.entries.size r.nextHandle ds)
              (some (newProfile g)) := by
            obtain ⟨l, hh⟩ := s.history_beginReplay r.entries.size r.nextHandle ds
            exact hknown.of_notes rfl rfl hh (by simp [Happening.Unspoken]) rfl
          apply (replay_newcomer_develops r hg r.nextHandle ds).mono
          rintro o r' ⟨ho, he, hm⟩
          cases o with
          | none => exact absurd ho (by simp)
          | some _ => exact ⟨rfl, hbegun.replay he hm⟩

/-! ## Sessions -/

/-- What an operation does to a registry in which callbacks only record. -/
theorem Placid.plainly (hr : r.Placid) {o : Operation MemoryBus} (hnew : r.newHandle o = true)
    (ho : o.Plain) : Plainly o r (r.after o) := by
  cases ho with
  | @register g hg =>
    refine .of_ends rfl ((register_admits hr hnew hg).mono ?_)
    rintro o r' ⟨-, hadmits⟩
    refine ⟨hadmits.scene, hadmits.recording, fun hne => absurd rfl (hne g), hadmits.size, ?_⟩
    intro i hi
    rw [hadmits.others i hi]
    exact Option.map_id'.symm
  | deregister h => exact deregister_plainly hr h
  | notify d c => exact notify_plainly hr d c
  | bus c => exact busCommand_plainly hr c
  | dispatch d c => exact dispatch_plainly hr d c
  | handlePending => exact handlePending_plainly hr
  | sweep => exact sweep_plainly hr

theorem placid_fresh (bus : MemoryBus) : Placid { bus } where
  regular := regular_fresh bus
  sane := sane_fresh bus
  kept := ⟨rfl, rfl⟩
  recording i e he := by simp at he
  apart i hi := by simp at hi

theorem Placid.after (hr : r.Placid) {o : Operation MemoryBus} (hnew : r.newHandle o = true)
    (ho : o.Plain) : (r.after o).Placid := by
  have hsteps : Steps r (r.after o) := afterAll_steps r [o]
  have hregular := hsteps.regular hr.regular
  have hplainly := hr.plainly hnew ho
  refine ⟨hregular, hsteps.sane hr.sane, ?_, hplainly.recording, ?_⟩
  · have hw : Wakeful false r := ⟨hr.kept, by simp⟩
    exact ((operation_wakeful hw o).mono fun _ _ h => h.kept).of_left
  · apply hr.apart.steps hsteps hregular.orderly
    cases ho with
    | register => exact .inr ⟨hplainly.size_le, (newHandle_register_iff hr.regular).mp hnew⟩
    | _ => exact .inl (Nat.le_of_eq (hplainly.size (by simp)))

/-- Two registries with the same scene. -/
structure Abreast (r q : Registry MemoryBus) : Prop where
  left : r.Placid
  right : q.Placid
  scene : q.scene = r.scene

/-- The registrations at two places of two registries have fared alike, where the second has an
    order of its own. -/
def Twins (order : Device.Order) (r q : Registry MemoryBus) (i j : Nat) : Prop :=
  ∃ p p', r.profile? i = some p ∧ q.profile? j = some p' ∧ p.Alike order p'

variable {order : Device.Order}

/-- An operation on one registry, and what is left of it on the other. -/
theorem Abreast.after (h : Abreast r q) {o : Operation MemoryBus} (ho : o.Plain)
    (hnew : r.newHandle o = true) (i j : Nat) :
    Abreast (r.after o) (q.afterAll (o.alone (handleAt i) (handleAt j)).toList) ∧
      (q.afterAll (o.alone (handleAt i) (handleAt j)).toList).entries.size = q.entries.size ∧
      (Twins order r q i j →
        Twins order (r.after o) (q.afterAll (o.alone (handleAt i) (handleAt j)).toList) i j) := by
  have hr := h.left.plainly hnew ho
  rcases ho.alone (handleAt i) (handleAt j) with ⟨hnone, hsame⟩ | ⟨o', hsome, ho', hne, hsame⟩
  · rw [hnone]
    refine ⟨⟨h.left.after hnew ho, h.right, ?_⟩, rfl, ?_⟩
    · rw [hr.scene, (hsame _).1]
      exact h.scene
    · rintro ⟨p, p', hp, hp', halike⟩
      refine ⟨p, p', ?_, hp', halike⟩
      rw [hr.profiles i (lt_size_of_profile? hp), hp, Option.map_some, (hsame _).2]
  · rw [hsome]
    have hnew' : q.newHandle o' = true := newHandle_of_ne hne
    have hq := h.right.plainly hnew' ho'
    show Abreast (r.after o) (q.after o') ∧ (q.after o').entries.size = q.entries.size ∧
      (Twins order r q i j → Twins order (r.after o) (q.after o') i j)
    refine ⟨⟨h.left.after hnew ho, h.right.after hnew' ho', ?_⟩, hq.size hne, ?_⟩
    · rw [hr.scene, hq.scene, h.scene, (hsame _).1]
    · rintro ⟨p, p', hp, hp', halike⟩
      refine ⟨_, _, ?_, ?_, halike.after (handleAt i) r.scene o⟩
      · rw [hr.profiles i (lt_size_of_profile? hp), hp]
        rfl
      · rw [hq.profiles j (lt_size_of_profile? hp'), hp', h.scene, Option.map_some, (hsame _).2]

/-- A session on one registry, and what is left of it on the other. -/
theorem Abreast.afterAll (h : Abreast r q) (order : Device.Order) {os : List (Operation MemoryBus)}
    (hos : ∀ o ∈ os, o.Plain) (hnew : r.newHandles os = true) (i j : Nat) :
    Abreast (r.afterAll os) (q.afterAll (os.filterMap (·.alone (handleAt i) (handleAt j)))) ∧
      (q.afterAll (os.filterMap (·.alone (handleAt i) (handleAt j)))).entries.size =
        q.entries.size ∧
      (Twins order r q i j → Twins order (r.afterAll os)
        (q.afterAll (os.filterMap (·.alone (handleAt i) (handleAt j)))) i j) := by
  induction os generalizing r q with
  | nil => exact ⟨h, rfl, id⟩
  | cons o os ih =>
    rw [newHandles, Bool.and_eq_true] at hnew
    obtain ⟨hstep, hkept, htwins⟩ := h.after (hos o (by simp)) hnew.1 i j
    obtain ⟨hrest, hkept', htwins'⟩ := ih hstep (fun o' ho' => hos o' (by simp [ho'])) hnew.2
    have hsplit : q.afterAll ((o :: os).filterMap (·.alone (handleAt i) (handleAt j))) =
        (q.afterAll (o.alone (handleAt i) (handleAt j)).toList).afterAll
          (os.filterMap (·.alone (handleAt i) (handleAt j))) := by
      rw [List.filterMap_cons]
      cases o.alone (handleAt i) (handleAt j) <;> rfl
    rw [hsplit]
    exact ⟨hrest, hkept'.trans hkept, fun ht => htwins' (htwins ht)⟩

/-- What is left of a session if nobody else is registered or deregistered than the owner of a
    handle, who gets the first one. -/
def solo (own : Handle) (os : List (Operation MemoryBus)) : List (Operation MemoryBus) :=
  os.filterMap (·.alone own (handleAt 0))

/-- How registering is answered, but for the handle. -/
def outcome? (r : Registry MemoryBus) (g : Registration MemoryBus) : Option (Except Failure Unit) :=
  (answer? (register g) r).map (Except.map fun _ => ())

/-- Whether registering makes a registration, be it that it is taken off again. -/
def Makes (r : Registry MemoryBus) (g : Registration MemoryBus) : Prop :=
  r.entries.size < (r.after (.register g)).entries.size

theorem after_register (hr : r.Placid) (hnew : r.newHandle (.register g) = true)
    (hg : g.Recording) : r.outcome? g = some (r.scene.register g).1 ∧
      Admits r (r.after (.register g)) (r.scene.register g).2 := by
  have hleft : r.after (.register g) = left (register g) r := left_discard _ r
  rw [hleft]
  exact ends_iff_answer?.mp (register_admits hr hnew hg)

/-- There is a profile where there is a registration. -/
theorem makes_iff :
    r.Makes g ↔ ((r.after (.register g)).profile? r.entries.size).isSome = true := by
  unfold Makes profile?
  simp

/-- Registering a registration, whatever was done before and is done afterwards, is answered as if
    there were no others, and the registration is held, flagged, has the devices and has heard the
    calls that it would be, have and have heard then; where the order of its devices may be another
    one then, which shows only in the calls of the sweep that takes it off the list. Callbacks only
    record, and nobody gets a handle that another one still holds, as nobody does until handles have
    run out. -/
theorem registration_isolated (bus : MemoryBus) {before later : List (Operation MemoryBus)}
    {g : Registration MemoryBus} (order : Device.Order) (hbefore : ∀ o ∈ before, o.Plain)
    (hg : g.Recording) (hlater : ∀ o ∈ later, o.Plain)
    (hnew : newHandles { bus } (before ++ .register g :: later) = true) :
    let r := afterAll { bus } before
    let q := afterAll { bus } (solo r.nextHandle before)
    let g' : Registration MemoryBus := { g with order }
    q.entries.size = 0 ∧ q.outcome? g' = r.outcome? g ∧ (q.Makes g' ↔ r.Makes g) ∧
      (r.Makes g → ∃ p p',
        (r.afterAll (.register g :: later)).profile? r.entries.size = some p ∧
        (q.afterAll (.register g' :: solo r.nextHandle later)).profile? 0 = some p' ∧
        p.Alike order p' ∧ p.Agrees order p') := by
  intro r q g'
  rw [newHandles_append, newHandles, Bool.and_eq_true, Bool.and_eq_true] at hnew
  obtain ⟨hpast, hown, hfuture⟩ := hnew
  -- The two registries start as one, and what comes before leaves the second one empty.
  have hfresh : Abreast { bus } { bus } := ⟨placid_fresh bus, placid_fresh bus, rfl⟩
  obtain ⟨hab, hzero, -⟩ := hfresh.afterAll order hbefore hpast r.entries.size 0
  have hab : Abreast r q := hab
  have hzero : q.entries.size = 0 := hzero
  -- Registering sees no more of them than the scene, which is the same in both.
  have hg' : g'.Recording := ⟨hg.arrived, hg.left⟩
  have hown' : q.newHandle (.register g') = true := newHandle_of_empty hab.right.regular hzero g'
  obtain ⟨hanswer, hadmits⟩ := after_register hab.left hown hg
  obtain ⟨hanswer', hadmits'⟩ := after_register hab.right hown' hg'
  rw [hab.scene, r.scene.register_reordered g order] at hanswer' hadmits'
  have hprofile := hadmits.own
  have hprofile' := hadmits'.own
  rw [hzero] at hprofile'
  have hmakes : q.Makes g' ↔ r.Makes g := by
    rw [makes_iff, makes_iff, hzero, hprofile, hprofile', Option.isSome_map]
  refine ⟨hzero, ?_, hmakes, ?_⟩
  · rw [hanswer, hanswer']
  · intro hmade
    rw [makes_iff, hprofile] at hmade
    obtain ⟨p, hp⟩ := Option.isSome_iff_exists.mp hmade
    rw [hp] at hprofile hprofile'
    -- From here on the two registrations are twins, whatever comes later.
    have hab' : Abreast (r.after (.register g)) (q.after (.register g')) :=
      ⟨hab.left.after hown (.register hg), hab.right.after hown' (.register hg'),
        hadmits'.scene.trans (hab.scene.trans hadmits.scene.symm)⟩
    obtain ⟨-, -, hlast⟩ := hab'.afterAll order hlater hfuture r.entries.size 0
    obtain ⟨p₁, p₁', hp₁, hp₁', halike⟩ := hlast ⟨p, _, hprofile, hprofile', .unswept p⟩
    exact ⟨p₁, p₁', hp₁, hp₁', halike, halike.agrees⟩

theorem listener_recording (f : Filter) :
    (Registration.listener f : Registration MemoryBus).Recording where
  arrived _ _ := .finish _
  left _ _ := .finish _

/-- A registration whose fourth arrival callback asks to be dropped. -/
def recorder : Registration MemoryBus :=
  { Registration.listener { enumerate := true } with
    onArrived k d := .act (.print s!"{k} {d.id.text}") fun _ =>
      .finish (if k = 3 then .deregister else .keep) }

theorem recorder_recording : recorder.Recording where
  arrived _ _ := .print _ _ (.finish _)
  left _ _ := .finish _

/-- The last device of the list comes first. -/
def fromBehind : Device.Order where
  arrange := List.reverse
  arrange_perm := List.reverse_perm

/-- Two other registrations, one of which drops out at once, and a change that waits. -/
def company : List (Operation MemoryBus) :=
  let g : Registration MemoryBus :=
    { Registration.listener { enumerate := true } with
      onArrived _ _ := .finish .deregister }
  [.act (.bus (.plug (MemoryBus.sample 1))), .act (.bus (.plug (MemoryBus.sample 2))),
    .register g, .register (.listener {}), .act (.notify (MemoryBus.sample 3) .arrived)]

/-- Registrations fail and are deregistered while changes are handled. -/
def sequel : List (Operation MemoryBus) :=
  [.act (.bus (.setFailing true)), .register (.listener { enumerate := true }),
    .act (.deregister ⟨2⟩), .handlePending, .dispatch (MemoryBus.sample 1) .left,
    .dispatch (MemoryBus.sample 4) .arrived, .sweep]

theorem registration_isolated_company :
    ∃ (r q : Registry MemoryBus) (p p' : Profile MemoryBus),
      r = afterAll { bus := {} } company ∧ q = afterAll { bus := {} } (solo r.nextHandle company) ∧
      r.entries.size = 2 ∧ q.entries.size = 0 ∧
      q.outcome? { recorder with order := fromBehind } = r.outcome? recorder ∧
      (r.afterAll (.register recorder :: sequel)).profile? 2 = some p ∧
      (q.afterAll (.register { recorder with order := fromBehind } ::
        solo r.nextHandle sequel)).profile? 0 = some p' ∧
      p.Alike fromBehind p' ∧ p.Agrees fromBehind p' ∧
      (p.calls.drop 5).map Call.report =
        [(.left, MemoryBus.sample 2), (.left, MemoryBus.sample 3)] ∧
      (p'.calls.drop 5).map Call.report =
        [(.left, MemoryBus.sample 3), (.left, MemoryBus.sample 2)] := by
  have hcompany : ∀ o ∈ company, o.Plain := by
    intro o ho
    simp only [company, List.mem_cons, List.not_mem_nil, or_false] at ho
    rcases ho with rfl | rfl | rfl | rfl | rfl
    · exact .bus _
    · exact .bus _
    · exact .register ⟨fun _ _ => .finish _, fun _ _ => .finish _⟩
    · exact .register (listener_recording {})
    · exact .notify _ _
  have hsequel : ∀ o ∈ sequel, o.Plain := by
    intro o ho
    simp only [sequel, List.mem_cons, List.not_mem_nil, or_false] at ho
    rcases ho with rfl | rfl | rfl | rfl | rfl | rfl | rfl
    · exact .bus _
    · exact .register (listener_recording _)
    · exact .deregister _
    · exact .handlePending
    · exact .dispatch _ _
    · exact .dispatch _ _
    · exact .sweep
  have hsize : (afterAll { bus := ({} : MemoryBus) }
      (company ++ .register recorder :: sequel)).entries.size < UInt32.size := by
    decide +kernel
  obtain ⟨hzero, hanswer, -, hprofiles⟩ :=
    registration_isolated {} fromBehind hcompany recorder_recording hsequel
      (newHandles_of_size (regular_fresh _) hsize)
  have hplace : (afterAll { bus := ({} : MemoryBus) } company).entries.size = 2 := by decide +kernel
  have hmakes : (afterAll { bus := ({} : MemoryBus) } company).Makes recorder := by
    show _ < _
    decide +kernel
  obtain ⟨p, p', hp, hp', halike, hagrees⟩ := hprofiles hmakes
  rw [hplace] at hp
  have hlast : (((afterAll { bus := {} } company).afterAll
      (.register recorder :: sequel)).calls 2 |>.drop 5).map Call.report =
        [(.left, MemoryBus.sample 2), (.left, MemoryBus.sample 3)] := by
    decide +kernel
  have hlast' : (((afterAll { bus := {} } (solo ⟨3⟩ company)).afterAll
      (.register { recorder with order := fromBehind } :: solo ⟨3⟩ sequel)).calls 0
        |>.drop 5).map Call.report =
        [(.left, MemoryBus.sample 3), (.left, MemoryBus.sample 2)] := by
    decide +kernel
  have hnext : (afterAll { bus := ({} : MemoryBus) } company).nextHandle = ⟨3⟩ := by decide +kernel
  rw [calls_of_profile? hp] at hlast
  rw [← hnext, calls_of_profile? hp'] at hlast'
  exact ⟨_, _, p, p', rfl, rfl, hplace, hzero, hanswer, hp, hp', halike, hagrees, hlast, hlast'⟩

end Registry

end PlugWatch
