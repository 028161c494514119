import PlugWatch.Registry.Session

/-! # How walks end

  A walk ends with an answer or in a panic, and leaves a registry either way. A statement about
  both ends at once is a property of the answer, **none** after a panic, and of the registry left.

  For every part of a walk there is one rule here; the walks of delivery are taken apart by their
  rules and never unfolded again:

  * an **arrival** offered to a registration is passed over, adopted without a call, or told;
  * a **removal** offered to a registration is passed over, noted without a call, or told;
  * a **registration** is refused, or listed and perhaps replayed to.
-/

namespace PlugWatch

namespace Walk

variable {β : Type} [Bus β] {α γ : Type}

/-- However a walk from a registry ends, its end has a property. -/
def Ends (w : Walk β α) (Q : Option α → Registry β → Prop) (r : Registry β) : Prop :=
  match w.run r with
  | .ok a r' => Q (some a) r'
  | .error _ r' => Q none r'

/-- What has to be true of the first part of a walk for the sake of the second. -/
def Before (f : α → Walk β γ) (Q : Option γ → Registry β → Prop) : Option α → Registry β → Prop
  | some a, r => (f a).Ends Q r
  | none, r => Q none r

/-! ## Rules -/

@[simp] theorem ends_bind (w : Walk β α) (f : α → Walk β γ) (Q : Option γ → Registry β → Prop)
    (r : Registry β) : Ends (w >>= f) Q r ↔ w.Ends (Before f Q) r := by
  simp only [Ends, EStateM.run_bind]
  cases w.run r <;> rfl

@[simp] theorem ends_pure (a : α) (Q : Option α → Registry β → Prop) (r : Registry β) :
    Ends (pure a) Q r ↔ Q (some a) r := Iff.rfl

@[simp] theorem ends_get (Q : Option (Registry β) → Registry β → Prop) (r : Registry β) :
    Ends get Q r ↔ Q (some r) r := Iff.rfl

@[simp] theorem ends_modify (f : Registry β → Registry β) (Q : Option PUnit → Registry β → Prop)
    (r : Registry β) : Ends (modify f) Q r ↔ Q (some ⟨⟩) (f r) := Iff.rfl

@[simp] theorem ends_modifyGet (f : Registry β → α × Registry β)
    (Q : Option α → Registry β → Prop) (r : Registry β) :
    Ends (modifyGet f) Q r ↔ Q (some (f r).1) (f r).2 := Iff.rfl

@[simp] theorem ends_throw (e : Panic) (Q : Option α → Registry β → Prop) (r : Registry β) :
    Ends (throw e) Q r ↔ Q none r := Iff.rfl

@[simp] theorem ends_discard (w : Walk β α) (Q : Option PUnit → Registry β → Prop)
    (r : Registry β) :
    Ends (discard w) Q r ↔ w.Ends (fun o r' => Q (o.map fun _ => ⟨⟩) r') r := by
  show Ends (w >>= fun _ => pure ⟨⟩) Q r ↔ _
  rw [ends_bind]
  unfold Ends
  cases w.run r <;> rfl

@[simp] theorem before_some (f : α → Walk β γ) (Q : Option γ → Registry β → Prop) (a : α)
    (r : Registry β) : Before f Q (some a) r ↔ (f a).Ends Q r := Iff.rfl

@[simp] theorem before_none (f : α → Walk β γ) (Q : Option γ → Registry β → Prop)
    (r : Registry β) : Before f Q none r ↔ Q none r := Iff.rfl

/-! ## Consequences -/

variable {w : Walk β α} {Q Q' : Option α → Registry β → Prop} {r : Registry β}

theorem Ends.mono (h : w.Ends Q r) (hq : ∀ o r', Q o r' → Q' o r') : w.Ends Q' r := by
  unfold Ends at *
  cases hw : w.run r <;> rw [hw] at h <;> exact hq _ _ h

theorem Ends.and (h : w.Ends Q r) (h' : w.Ends Q' r) :
    w.Ends (fun o r' => Q o r' ∧ Q' o r') r := by
  unfold Ends at *
  cases hw : w.run r <;> rw [hw] at h h' <;> exact ⟨h, h'⟩

/-- The rule of two parts, with what the first part is known to end in. -/
theorem Ends.bind {f : α → Walk β γ} {Q' : Option γ → Registry β → Prop} (h : w.Ends Q r)
    (halt : ∀ r', Q none r' → Q' none r')
    (next : ∀ a r', Q (some a) r' → (f a).Ends Q' r') : Ends (w >>= f) Q' r := by
  rw [ends_bind]
  apply h.mono
  intro o r' hq
  cases o with
  | none => exact halt r' hq
  | some a => exact next a r' hq

/-- What is always true is true of every end. -/
theorem ends_of_forall (h : ∀ o r', Q o r') : w.Ends Q r := by
  unfold Ends
  cases w.run r <;> exact h _ _

/-- What is true of every end is true of an end with an answer. -/
theorem Ends.of_ok {a : α} {r' : Registry β} (h : w.Ends Q r) (hw : w.run r = .ok a r') :
    Q (some a) r' := by
  unfold Ends at h
  rwa [hw] at h

/-- What is true of every end is true of the registry left. -/
theorem Ends.of_left {P : Registry β → Prop} (h : w.Ends (fun _ r' => P r') r) :
    P (Registry.left w r) := by
  unfold Ends at h
  unfold Registry.left
  cases hw : w.run r <;> rw [hw] at h <;> exact h

/-- Every end is the registry left. -/
theorem ends_left (w : Walk β α) (r : Registry β) :
    w.Ends (fun _ r' => r' = Registry.left w r) r := by
  unfold Ends Registry.left
  cases w.run r <;> rfl

/-- Dropping the answer changes nothing else. -/
theorem left_discard (w : Walk β α) (r : Registry β) :
    Registry.left (discard w) r = Registry.left w r := by
  apply Ends.of_left (P := fun r' => r' = Registry.left w r)
  rw [ends_discard]
  exact ends_left w r

end Walk

/-- Whether an arrival is for a registration that is not flagged. -/
def Entry.expects {β : Type} [Bus β] (e : Entry β) (d : Device) : Bool :=
  !e.has d.id && e.filter.accepts d.descriptor

namespace Registry

open Walk

variable {β : Type} [Bus β]

/-! ## Calling -/

/-- A callback is entered. -/
def enter (r : Registry β) (i : Nat) (c : Change) (d : Device) : Registry β :=
  (r.update i (·.countCall c)).record (.called i c d)

/-- An arrival callback returns, and its registration gets the device. -/
def keep (r : Registry β) (i : Nat) (d : Device) : Registry β :=
  (r.record (.answered i .arrived d .keep)).update i (·.attach d)

/-- An arrival callback returns and asks for its registration to be dropped. -/
def drop (r : Registry β) (i : Nat) (d : Device) : Registry β :=
  (r.record (.answered i .arrived d .deregister)).dismiss i d.id

/-- The rest of a call whose callback has ended. -/
def Return (i : Nat) (c : Change) (d : Device) (Q : Option Verdict → Registry β → Prop) :
    Option Verdict → Registry β → Prop
  | some v, r => Q (some v) (r.record (.answered i c d v))
  | none, r => Q none r

theorem call_ends (i : Nat) (c : Change) (d : Device) (body : Walk β Verdict)
    (Q : Option Verdict → Registry β → Prop) (r : Registry β) :
    (call i c d body).Ends Q r ↔ body.Ends (Return i c d Q) (r.enter i c d) := by
  unfold call
  simp only [ends_bind, ends_modify, before_some]
  -- Both sides say the same once it is known how the body ended.
  constructor <;> intro h <;> refine h.mono fun o r' hq => ?_ <;> cases o <;> exact hq

/-! ## Offering -/

/-- The rest of an arrival whose callback has ended. -/
def Arrived (i : Nat) (d : Device) (Q : Option Offer → Registry β → Prop) :
    Option Verdict → Registry β → Prop
  | some .keep, r => Q (some .attached) (r.keep i d)
  | some .deregister, r => Q (some .dropped) (r.drop i d)
  | none, r => Q none r

theorem offerArrival_ends {i : Nat} {f : Nat → Device → Walk β Verdict} {d : Device}
    {Q : Option Offer → Registry β → Prop} {r : Registry β}
    (absent : r.entries[i]? = none → Q (some .ignored) r)
    (passed : ∀ e, r.entries[i]? = some e → e.flagged = true ∨ e.expects d = false →
      Q (some .ignored) r)
    (adopted : ∀ e, r.entries[i]? = some e → e.flagged = false → e.expects d = true →
      e.calls .arrived = false → Q (some .attached) (r.update i (·.attach d)))
    (told : ∀ e, r.entries[i]? = some e → e.flagged = false → e.expects d = true →
      e.calls .arrived = true → (f e.arrivals d).Ends (Arrived i d Q) (r.enter i .arrived d)) :
    (offerArrival i f d).Ends Q r := by
  unfold offerArrival
  simp only [ends_bind, ends_get, before_some]
  cases he : r.entries[i]? with
  | none => exact absent he
  | some e =>
    simp only
    split
    · next hp =>
      -- Three reasons to pass over: the flag, the device is there already, the filter.
      simp only [Bool.or_eq_true, Bool.not_eq_true'] at hp
      rcases hp with (hf | hh) | ha
      · exact passed e he (.inl hf)
      · exact passed e he (.inr (by simp [Entry.expects, hh]))
      · exact passed e he (.inr (by simp [Entry.expects, ha]))
    · next hp =>
      -- None of them holds, so the arrival is taken; only a call remains to be decided.
      have hf : e.flagged = false := by simp_all
      have hx : e.expects d = true := by simp_all [Entry.expects]
      split
      · next hc =>
        rw [ends_bind, call_ends]
        apply (told e he hf hx hc).mono
        intro o r' hq
        match o with
        | none => exact hq
        | some .keep => exact hq
        | some .deregister => exact hq
      · next hc => exact adopted e he hf hx (by simpa using hc)

theorem offerLeft_ends {i : Nat} {f : Nat → Device → Walk β Verdict} {id : DeviceId}
    {Q : Option Bool → Registry β → Prop} {r : Registry β}
    (absent : r.entries[i]? = none → Q (some false) r)
    (passed : ∀ e, r.entries[i]? = some e → e.flagged = true ∨ e.recorded? id = none →
      Q (some false) r)
    (noted : ∀ e d, r.entries[i]? = some e → e.flagged = false → e.recorded? id = some d →
      e.calls .left = false → Q (some true) (r.update i (·.detach id)))
    (told : ∀ e d, r.entries[i]? = some e → e.flagged = false → e.recorded? id = some d →
      e.calls .left = true →
      (f e.removals d).Ends (Return i .left d fun o => Q (o.map fun _ => true))
        ((r.update i (·.detach id)).enter i .left d)) :
    (offerLeft i f id).Ends Q r := by
  unfold offerLeft
  simp only [ends_bind, ends_get, before_some]
  cases he : r.entries[i]? with
  | none => exact absent he
  | some e =>
    simp only
    split
    · next hf => exact passed e he (.inl hf)
    · next hf =>
      have hf : e.flagged = false := by simpa using hf
      cases hd : e.recorded? id with
      | none => exact passed e he (.inr hd)
      | some d =>
        -- The device is given up before the callback is told.
        simp only [ends_bind, ends_modify, before_some]
        split
        · next hc =>
          simp only [ends_bind, ends_discard, call_ends]
          apply (told e d he hf hd hc).mono
          intro o r' hq
          cases o <;> exact hq
        · next hc => exact noted e d he hf hd (by simpa using hc)

/-! ## Registering -/

/-- The devices present are about to be replayed to the registration at a place. -/
def beginReplay (r : Registry β) (i : Nat) (h : Handle) (ds : List Device) : Registry β :=
  (r.record (.replayed i ds)).log .debug s!"Replaying {ds.length} devices to {h.text}"

theorem replay_nil_ends {i : Nat} {f : Nat → Device → Walk β Verdict}
    {Q : Option Unit → Registry β → Prop} {r : Registry β} :
    (replay i f []).Ends Q r ↔ Q (some ()) r := Iff.rfl

theorem replay_cons_ends {i : Nat} {f : Nat → Device → Walk β Verdict} {d : Device}
    {ds : List Device} {Q : Option Unit → Registry β → Prop} {r : Registry β} :
    (replay i f (d :: ds)).Ends Q r ↔
      (offerArrival i f d).Ends (fun o r' => match o with
        | some .dropped => Q (some ()) r'
        | some _ => (replay i f ds).Ends Q r'
        | none => Q none r') r := by
  rw [replay, ends_bind]
  constructor <;> intro h <;> refine h.mono fun o r' hq => ?_ <;> match o with
    | none => exact hq
    | some .dropped => exact hq
    | some .ignored => exact hq
    | some .attached => exact hq

/-- The rule for a registration, by what is decided about it. -/
theorem registerWith_decides {g : Registration β} {f : Nat → Device → Walk β Verdict}
    {Q : Option (Except Failure Handle) → Registry β → Prop} {r : Registry β}
    (unsupported : Bus.hasHotplug r.bus = false → Q (some (.error .unsupported)) r)
    (invalid : Bus.hasHotplug r.bus = true → ∀ fault, g.check = .error fault →
      Q (some (.error (.invalidParameter fault))) r)
    (listed : Bus.hasHotplug r.bus = true → g.check = .ok () → g.filter.enumerate = false →
      Q (some (.ok r.nextHandle)) (r.enlist g))
    (failed : Bus.hasHotplug r.bus = true → g.check = .ok () → g.filter.enumerate = true →
      ∀ why, (r.enlist g).enumerate.1 = .error why →
      Q (some (.error why))
        ((r.enlist g).enumerate.2.rollBack r.entries.size r.nextHandle why))
    (replayed : Bus.hasHotplug r.bus = true → g.check = .ok () → g.filter.enumerate = true →
      ∀ ds, (r.enlist g).enumerate.1 = .ok ds →
      (replay r.entries.size f ds).Ends (fun o => Q (o.map fun _ => .ok r.nextHandle))
        ((r.enlist g).enumerate.2.beginReplay r.entries.size r.nextHandle ds)) :
    (registerWith g f).Ends Q r := by
  unfold registerWith
  simp only [ends_bind, ends_get, before_some]
  split
  -- Nothing is listed before both checks have passed.
  · next hb => exact unsupported (by simpa using hb)
  · next hb =>
    have hb : Bus.hasHotplug r.bus = true := by simpa using hb
    cases hg : g.check with
    | error fault => exact invalid hb fault hg
    | ok u =>
      cases u
      simp only [ends_bind, ends_modify, before_some]
      -- From here on the registration is listed; what follows is the replay.
      split
      · next hn => exact listed hb hg (by simpa using hn)
      · next hn =>
        have hn : g.filter.enumerate = true := by simpa using hn
        simp only [ends_bind, ends_modifyGet, before_some]
        cases hd : (r.enlist g).enumerate.1 with
        | error why => exact failed hb hg hn why hd
        | ok ds =>
          simp only [ends_bind, ends_modify, before_some]
          apply (replayed hb hg hn ds hd).mono
          intro o r' hq
          cases o <;> exact hq

/-- The same, when it does not matter why a registration is refused. -/
theorem registerWith_ends {g : Registration β} {f : Nat → Device → Walk β Verdict}
    {Q : Option (Except Failure Handle) → Registry β → Prop} {r : Registry β}
    (refused : ∀ why, Q (some (.error why)) r)
    (listed : g.check = .ok () → g.filter.enumerate = false →
      Q (some (.ok r.nextHandle)) (r.enlist g))
    (failed : g.check = .ok () → ∀ why, (r.enlist g).enumerate.1 = .error why →
      Q (some (.error why))
        ((r.enlist g).enumerate.2.rollBack r.entries.size r.nextHandle why))
    (replayed : g.check = .ok () → g.filter.enumerate = true → ∀ ds,
      (r.enlist g).enumerate.1 = .ok ds →
      (replay r.entries.size f ds).Ends (fun o => Q (o.map fun _ => .ok r.nextHandle))
        ((r.enlist g).enumerate.2.beginReplay r.entries.size r.nextHandle ds)) :
    (registerWith g f).Ends Q r :=
  registerWith_decides (fun _ => refused _) (fun _ _ _ => refused _) (fun _ => listed)
    (fun _ hg _ => failed hg) (fun _ => replayed)

/-- The rule for a registration with nothing in its way. -/
theorem registerWith_accepts {g : Registration β} {f : Nat → Device → Walk β Verdict}
    {Q : Option (Except Failure Handle) → Registry β → Prop} {r : Registry β}
    (hb : Bus.hasHotplug r.bus = true) (hc : g.check = .ok ())
    (hd : g.filter.enumerate = true → ∃ ds, (Bus.enumerate r.bus).devices = .ok ds)
    (listed : g.filter.enumerate = false → Q (some (.ok r.nextHandle)) (r.enlist g))
    (replayed : g.filter.enumerate = true → ∀ ds, (Bus.enumerate r.bus).devices = .ok ds →
      (replay r.entries.size f ds).Ends (fun o => Q (o.map fun _ => .ok r.nextHandle))
        ((r.enlist g).enumerate.2.beginReplay r.entries.size r.nextHandle ds)) :
    (registerWith g f).Ends Q r := by
  apply registerWith_decides
  · intro hno
    rw [hb] at hno
    cases hno
  · intro _ fault hfault
    rw [hc] at hfault
    cases hfault
  · exact fun _ _ => listed
  · intro _ _ hn why hwhy
    obtain ⟨ds, hds⟩ := hd hn
    have hanswer : (r.enlist g).enumerate.1 = .ok ds := hds
    rw [hanswer] at hwhy
    cases hwhy
  · exact fun _ _ => replayed

end Registry

end PlugWatch
