import PlugWatch.Bus.Memory
import PlugWatch.Proofs.Replay

/-! # What becomes of destroyed registrations

  Destroying takes the registrations off the list, which is enough for whatever starts later: a
  dispatch, a sweep and every other turn go by the list. It does not stop what is under way. Walks
  only look at the flags, and nobody was flagged.

  So a registration that was destroyed is called afterwards if it is **exposed**:

  * a dispatch is under way that has not come to it yet and is for it, or
  * its own replay is under way, has a device ahead, and goes on.

  This is the exact condition, turn by turn, and for whole sessions.
-/

namespace PlugWatch

/-- Who may be called in a turn, apart from new registrations. -/
def Turn.Addresses {β : Type} [Bus β] : Turn β → Registry β → Nat → Prop
  | .register _, _, _ => False
  | .act _, _, _ => False
  | .dispatch _ _, r, i => i ∈ r.places (·.active)
  | .next, r, i => i ∈ r.places (·.active)
  | .sweep, r, i => i ∈ r.places (·.flagged)

/-- A turn addresses only registrations that are held. -/
theorem Turn.Addresses.listed {β : Type} [Bus β] {t : Turn β} {r : Registry β} {i : Nat}
    (h : t.Addresses r i) : i ∈ r.listed := by
  cases t with
  | register g => exact h.elim
  | act a => exact h.elim
  | dispatch d c => exact (Registry.mem_places.mp h).1
  | next => exact (Registry.mem_places.mp h).1
  | sweep => exact (Registry.mem_places.mp h).1

/-- The change that a turn dispatches, if it does. -/
def Turn.dispatches? {β : Type} [Bus β] : Turn β → Registry β → Option (Device × Change)
  | .dispatch d c, _ => some (d, c)
  | .next, r =>
    match r.mailbox.take? with
    | some (.change d c, _) => some (d, c)
    | _ => none
  | _, _ => none

namespace Registry

open Walk

variable {β : Type} [Bus β] {r r' s : Registry β} {i : Nat} {hs : List Happening}

/-- A turn begins with some notes, and the sweep with the list. -/
structure Opens (r s : Registry β) (hs : List Happening) : Prop where
  entries : s.entries = r.entries
  listed : s.listed.toList.Sublist r.listed.toList
  news : s.history.toList = r.history.toList ++ hs
  plain : ∀ h ∈ hs, h.Plain
  known : ∀ h ∈ hs, h.Known r.entries.size

theorem Opens.refl (r : Registry β) : Opens r r [] :=
  ⟨rfl, List.Sublist.refl _, by simp, by simp, by simp⟩

theorem Opens.trans {hs' : List Happening} (h : Opens r s hs) (h' : Opens s r' hs') :
    Opens r r' (hs ++ hs') where
  entries := h'.entries.trans h.entries
  listed := h'.listed.trans h.listed
  news := by rw [h'.news, h.news, List.append_assoc]
  plain x hx := by
    rcases List.mem_append.mp hx with hx | hx
    · exact h.plain x hx
    · exact h'.plain x hx
  known x hx := by
    rcases List.mem_append.mp hx with hx | hx
    · exact h.known x hx
    · rw [← h.entries]
      exact h'.known x hx

theorem Opens.dispatched (r : Registry β) (d : Device) (c : Change) :
    Opens r (r.record (.dispatched d c)) [.dispatched d c] :=
  ⟨rfl, List.Sublist.refl _, by simp, by simp [Happening.Plain], by simp [Happening.Known]⟩

theorem Opens.taken (r : Registry β) (mailbox : Mailbox) (m : Message) :
    Opens r ({ r with mailbox }.record (.taken m)) [.taken m] :=
  ⟨rfl, List.Sublist.refl _, by simp, by simp [Happening.Plain], by simp [Happening.Known]⟩

theorem Opens.startSweep (hr : r.Orderly) :
    Opens r r.startSweep ((r.places (·.flagged)).map Happening.reclaimed) where
  entries := entries_startSweep r
  listed := by simp
  news := history_startSweep r
  plain x hx := by
    obtain ⟨j, -, rfl⟩ := List.mem_map.mp hx
    trivial
  known x hx := by
    obtain ⟨j, hj, rfl⟩ := List.mem_map.mp hx
    exact hr.taken j (mem_places.mp hj).1

theorem Opens.consistent (h : Opens r s hs) (hr : r.Consistent) : s.Consistent := by
  apply hr.of_note h.news _ h.listed h.known
  · intro is hm
    exact h.plain _ hm
  · rw [h.entries]

/-- After its beginning a turn is a series of moves, and calls only whom it addresses. -/
theorem turn_opens (hr : r.Orderly) (t : Turn β) : t.walk.Ends (fun _ r' => ∃ s hs, Opens r s hs ∧
    Moves (fun i => t.Addresses r i ∨ r.entries.size ≤ i) s r') r := by
  have hdispatch {r : Registry β} (d : Device) (c : Change) : (dispatch d c).Ends (fun _ r' =>
      ∃ s hs, Opens r s hs ∧
        Moves (fun i => i ∈ r.places (·.active) ∨ r.entries.size ≤ i) s r') r := by
    have hmoves := dispatch_moves (n := r.entries.size)
      (p := fun i => i ∈ r.places (·.active) ∨ r.entries.size ≤ i) (fun _ => .inr)
      (fun _ => .inl) (Nat.le_refl _) d c
    apply hmoves.mono
    intro o r' hm
    exact ⟨_, _, .dispatched r d c, hm⟩
  apply turn_ends t (Q := fun _ r' => ∃ s hs, Opens r s hs ∧
    Moves (fun i => t.Addresses r i ∨ r.entries.size ≤ i) s r')
  · intro g hg
    subst hg
    have hmoves := register_moves
      (p := fun i => (Turn.register g).Addresses r i ∨ r.entries.size ≤ i) (fun _ => .inr) g
      (Nat.le_refl r.entries.size)
    apply hmoves.mono
    intro o r' hm
    exact ⟨r, [], .refl r, hm⟩
  · intro a ha
    subst ha
    exact ⟨r, [], .refl r, (Move.perform r a).moves⟩
  · intro d c hd
    subst hd
    exact hdispatch d c
  · intro hn
    subst hn
    apply next_ends (Q := fun _ r' => ∃ s hs, Opens r s hs ∧
      Moves (fun i => Turn.next.Addresses r i ∨ r.entries.size ≤ i) s r')
    · intro _
      exact ⟨r, [], .refl r, Moves.refl r⟩
    · intro mailbox _
      exact ⟨_, _, .taken r mailbox .wakeup, Moves.refl _⟩
    · intro d c mailbox _
      apply (hdispatch d c).mono
      intro o r' h
      obtain ⟨s, hs, hopens, hm⟩ := h
      exact ⟨s, _, (Opens.taken r mailbox (.change d c)).trans hopens, hm⟩
  · intro hs
    subst hs
    have hmoves := sweep_moves (n := r.entries.size)
      (p := fun i => i ∈ r.places (·.flagged) ∨ r.entries.size ≤ i) (fun _ => .inr)
      (fun _ => .inl) (Nat.le_refl _)
    apply hmoves.mono
    intro o r' hm
    exact ⟨_, _, .startSweep hr, hm⟩

theorem turn_consistent (hr : r.Consistent) (t : Turn β) : (left t.walk r).Consistent := by
  apply Ends.of_left
  apply (turn_opens hr.orderly t).mono
  intro o r' h
  obtain ⟨s, hs, hopens, hm⟩ := h
  exact hm.consistent (hopens.consistent hr)

theorem turn_news (hr : r.Consistent) (t : Turn β) :
    ∃ hs, (left t.walk r).history.toList = r.history.toList ++ hs := by
  apply Ends.of_left (P := fun r' => ∃ hs, r'.history.toList = r.history.toList ++ hs)
  apply (turn_opens hr.orderly t).mono
  intro o r' h
  obtain ⟨s, hs, hopens, hm⟩ := h
  obtain ⟨hs', hh, -⟩ := hm.spares.news
  exact ⟨hs ++ hs', by rw [hh, hopens.news, List.append_assoc]⟩

/-- Whoever a turn does not address is not called in it. -/
theorem turn_not_called (hr : r.Consistent) (t : Turn β) (hlt : i < r.entries.size)
    (hi : ¬ t.Addresses r i) (hh : (left t.walk r).history.toList = r.history.toList ++ hs)
    (c : Change) (d : Device) : .called i c d ∉ hs := by
  revert hh
  apply Ends.of_left (P := fun r' => r'.history.toList = r.history.toList ++ hs →
    .called i c d ∉ hs)
  apply (turn_opens hr.orderly t).mono
  intro o r' h hh
  obtain ⟨s, hs₀, hopens, hm⟩ := h
  have hlt' : i < s.entries.size := by rwa [hopens.entries]
  have hnot : ¬ (t.Addresses r i ∨ r.entries.size ≤ i) := by
    intro h
    rcases h with h | h
    · exact hi h
    · omega
  obtain ⟨hs₁, haloof⟩ := hm.aloof hnot hlt'
  have hnews : r.history.toList ++ hs = r.history.toList ++ (hs₀ ++ hs₁) := by
    rw [← hh, haloof.news, hopens.news, List.append_assoc]
  have heq : hs = hs₀ ++ hs₁ := List.append_cancel_left hnews
  rw [heq, List.mem_append]
  intro hc
  rcases hc with hc | hc
  · exact hopens.plain _ hc
  · exact haloof.not_called c d hc

/-- What a sweep reclaims is not destroyed in it. -/
theorem sweep_not_destroyed (hr : r.Consistent) (hi : i ∈ r.places (·.flagged))
    (hh : (left Turn.sweep.walk r).history.toList = r.history.toList ++ hs) {ps : List Nat}
    (hd : .destroyed ps ∈ hs) : i ∉ ps := by
  revert hh
  apply Ends.of_left (P := fun r' => r'.history.toList = r.history.toList ++ hs → i ∉ ps)
  have hturn : Turn.sweep.walk.Ends (fun _ r' => Moves (fun _ => True) r.startSweep r') r := by
    show Ends (discard sweep) _ r
    rw [ends_discard]
    exact sweep_moves_any r
  apply hturn.mono
  intro o r' hm hh
  obtain ⟨hl, e, he, hf⟩ := mem_places.mp hi
  -- The sweep takes it off the list before it calls anyone.
  have hnl : i ∉ r.startSweep.listed := by
    rw [listed_startSweep, Array.mem_filter]
    intro h
    simp [satisfies, he, hf] at h
  have hlt : i < r.startSweep.entries.size := by
    rw [entries_startSweep]
    exact lt_size_of_getElem? he
  obtain ⟨hs', hh', hd'⟩ := hm.not_destroyed hnl hlt
  have hopens := Opens.startSweep hr.orderly
  have hnews : r.history.toList ++ hs =
      r.history.toList ++ ((r.places (·.flagged)).map Happening.reclaimed ++ hs') := by
    rw [← hh, hh', hopens.news, List.append_assoc]
  have heq : hs = (r.places (·.flagged)).map Happening.reclaimed ++ hs' :=
    List.append_cancel_left hnews
  rw [heq, List.mem_append] at hd
  rcases hd with hd | hd
  · exact (hopens.plain _ hd).elim
  · exact hd' ps hd

/-! ## New registrations -/

/-- Registrations that were there already need no account. -/
theorem accountedFrom_of_lt {n : Nat} {b : Bool} (hi : i < n) : AccountedFrom n b r i := by
  intro hn
  omega

theorem Consistent.everywhere_accounted (hr : r.Consistent) :
    Everywhere Consistent (AccountedFrom r.entries.size) true r :=
  ⟨hr, fun _ hi => accountedFrom_of_lt hi⟩

theorem stable_lt (n : Nat) : Stable (β := β) Consistent fun _ _ i => i < n where
  overall hm hr := hm.consistent hr
  weaken hi := hi
  spared _ _ _ _ hi := hi

/-- At the beginning of a walk there are no new registrations, whoever is ahead. -/
theorem Opens.underway (h : Opens r s hs) (hr : r.Consistent) (is : List Nat)
    (his : ∀ i ∈ is, i ∈ r.listed) :
    Underway Consistent (AccountedFrom r.entries.size) (fun _ _ i => i < r.entries.size) true is
      s := by
  have hsize : s.entries.size = r.entries.size := by rw [h.entries]
  refine ⟨h.consistent hr, ?_, ?_⟩
  · intro j hj
    have hlt := hr.orderly.taken j (his j hj)
    rw [hsize]
    exact ⟨hlt, hlt⟩
  · intro j hj _
    apply accountedFrom_of_lt
    omega

theorem dispatch_accounted (hr : r.Consistent) (d : Device) (c : Change) : (dispatch d c).Ends
    (fun o => Everywhere Consistent (AccountedFrom r.entries.size) o.isSome) r := by
  have hunderway := (Opens.dispatched r d c).underway hr (r.places (·.active))
    fun i hi => (mem_places.mp hi).1
  have hends := dispatch_everywhere (accountedFrom_placeInvariant r.entries.size)
    (stable_lt r.entries.size) accountedFrom_of_lt (d := d) (c := c)
    (fun _ _ hj => ends_of_forall fun _ _ => accountedFrom_of_lt hj) hr.orderly hunderway
  simpa using hends

theorem sweep_accounted (hr : r.Consistent) : sweep.Ends
    (fun o => Everywhere Consistent (AccountedFrom r.entries.size) o.isSome) r := by
  have hunderway := (Opens.startSweep hr.orderly).underway hr (r.places (·.flagged))
    fun i hi => (mem_places.mp hi).1
  have hends := sweep_everywhere (accountedFrom_placeInvariant r.entries.size)
    (stable_lt r.entries.size) accountedFrom_of_lt
    (fun _ _ hj => ends_of_forall fun _ _ => accountedFrom_of_lt hj) hr.orderly hunderway
  simpa using hends

/-- The registrations that a turn makes are accounted for. -/
theorem turn_accounted (hr : r.Consistent) (t : Turn β) (hi : r.entries.size ≤ i) {e : Entry β}
    (he : (left t.walk r).entries[i]? = some e) :
    Accounted e i (left t.walk r).history.toList := by
  have hP := accountedFrom_placeInvariant (β := β) r.entries.size
  have hturn : t.walk.Ends
      (fun o => Everywhere Consistent (AccountedFrom r.entries.size) o.isSome) r := by
    apply turn_ends
    · intro g _
      simpa using register_everywhere hP g hr.everywhere_accounted
    · intro a _
      exact perform_everywhere hP.toStable a hr.everywhere_accounted
    · intro d c _
      exact dispatch_accounted hr d c
    · intro _
      apply next_ends
      · intro _
        exact hr.everywhere_accounted
      · intro mailbox _
        exact ((Opens.taken r mailbox .wakeup).consistent hr).everywhere_accounted
      · intro d c mailbox _
        exact dispatch_accounted ((Opens.taken r mailbox (.change d c)).consistent hr) d c
    · intro _
      exact sweep_accounted hr
  have hleft := ends_iff_left.mp hturn
  exact hleft.2 i (lt_size_of_getElem? he) hi e he

/-! ## Exposure -/

/-- A registration that is destroyed during a turn, after what happened `before` and before what
    happens `after`, is still to be called by what is under way. -/
inductive Exposed (r : Registry β) (t : Turn β) (i : Nat) (before after : List Happening) :
    Prop where
  /-- By a dispatch that has not come to it yet, and comes to it, since no callback of an earlier
      registration panics. -/
  | dispatched {d : Device} {c : Change} {e : Entry β} : t.dispatches? r = some (d, c) →
      r.entries[i]? = some e → i ∈ r.places (·.active) → e.due d c = true →
      (∀ c' x, .called i c' x ∉ before) → .flagged i ∉ before →
      (∀ k, k < i → Returned k (before ++ after)) → Exposed r t i before after
  /-- By its own replay. -/
  | resumed {e : Entry β} : r.entries.size ≤ i → (left t.walk r).entries[i]? = some e →
      Resumed e i before after → Exposed r t i before after

/-- What was there before a registration was made does not matter for its replay. -/
theorem Consistent.resumed_iff (hr : r.Consistent) (hi : r.entries.size ≤ i) {e : Entry β}
    {before after : List Happening} :
    Resumed e i (r.history.toList ++ before) after ↔ Resumed e i before after := by
  have hold {x : Happening} (hx : ¬ x.Known r.entries.size) : x ∉ r.history.toList :=
    fun hm => hx (hr.known x hm)
  have hni : ¬ i < r.entries.size := Nat.not_lt.mpr hi
  have hflag : .flagged i ∉ r.history.toList := hold hni
  have hreplayed (ds : List Device) : .replayed i ds ∉ r.history.toList := hold hni
  have hcalled (c : Change) (x : Device) : .called i c x ∉ r.history.toList := hold hni
  have hahead (ds : List Device) :
      Ahead e i ds (r.history.toList ++ before) ↔ Ahead e i ds before := by
    simp [Ahead, hcalled]
  constructor
  · intro h
    obtain ⟨ds, hds, ha⟩ := h.ahead
    refine ⟨h.calls, ?_, h.kept, ds, ?_, (hahead ds).mp ha⟩
    · intro hm
      exact h.unflagged (List.mem_append_right _ hm)
    · exact (List.mem_append.mp hds).resolve_left (hreplayed ds)
  · intro h
    obtain ⟨ds, hds, ha⟩ := h.ahead
    refine ⟨h.calls, ?_, h.kept, ds, List.mem_append_right _ hds, (hahead ds).mpr ha⟩
    intro hm
    exact h.unflagged ((List.mem_append.mp hm).resolve_left hflag)

/-- A registration that was there when a dispatch started is called after its destruction exactly
    if the dispatch still had to come to it. -/
theorem dispatch_called_iff (hr : r.Orderly) {e : Entry β} (he : r.entries[i]? = some e)
    {d : Device} {c : Change} {before after : List Happening} {ps : List Nat} (hi : i ∈ ps)
    (hh : (left (dispatch d c) r).history.toList =
      r.history.toList ++ (before ++ .destroyed ps :: after)) :
    (∃ c' x, .called i c' x ∈ after) ↔ i ∈ r.places (·.active) ∧ e.due d c = true ∧
      (∀ c' x, .called i c' x ∉ before) ∧ .flagged i ∉ before ∧
      ∀ k, k < i → Returned k (before ++ after) := by
  have hret (k : Nat) : Returned k (before ++ .destroyed ps :: after) ↔
      Returned k (before ++ after) := by
    simp [Returned]
  have hwalked : Walked e i (r.places (·.active)) d c r (before ++ .destroyed ps :: after) := by
    revert hh
    apply Ends.of_left (P := fun r' : Registry β => r'.history.toList =
      r.history.toList ++ (before ++ .destroyed ps :: after) →
        Walked e i (r.places (·.active)) d c r (before ++ .destroyed ps :: after))
    apply (dispatch_walked hr he d c).mono
    intro o r' h hh'
    obtain ⟨hs, hh, hw⟩ := h
    have heq := List.append_cancel_left (hh.symm.trans hh')
    exact heq ▸ hw
  rw [hwalked.called_iff rfl hi]
  constructor
  · intro h
    obtain ⟨his, -, hd, hc, hf, hk⟩ := h
    exact ⟨his, hd, hc, hf, fun k hlt => (hret k).mp (hk k hlt)⟩
  · intro h
    obtain ⟨his, hd, hc, hf, hk⟩ := h
    -- What is active when the dispatch starts is not flagged then.
    obtain ⟨-, e', he', ha⟩ := mem_places.mp his
    cases Option.some.inj (he'.symm.trans he)
    exact ⟨his, by simpa [Entry.active] using ha, hd, hc, hf, fun k hlt => (hret k).mpr (hk k hlt)⟩

theorem take?_of_dispatches {d : Device} {c : Change}
    (h : Turn.next.dispatches? r = some (d, c)) :
    ∃ mailbox, r.mailbox.take? = some (.change d c, mailbox) := by
  unfold Turn.dispatches? at h
  simp only at h
  split at h
  · next d' c' mailbox hm =>
    cases h
    exact ⟨mailbox, hm⟩
  · cases h

/-- What the next message leads to, if it is a change. -/
theorem left_next_change {d : Device} {c : Change} {mailbox : Mailbox}
    (h : r.mailbox.take? = some (.change d c, mailbox)) :
    left next r = left (dispatch d c) ({ r with mailbox }.record (.taken (.change d c))) := by
  generalize hs : left (dispatch d c) ({ r with mailbox }.record (.taken (.change d c))) = s
  apply Ends.of_left (P := fun r' => r' = s)
  apply next_ends (Q := fun _ r' => r' = s)
  · intro hnone
    rw [h] at hnone
    cases hnone
  · intro mailbox' hwakeup
    rw [h] at hwakeup
    cases hwakeup
  · intro d' c' mailbox' hchange
    rw [h] at hchange
    cases hchange
    rw [← hs]
    exact ends_left _ _

/-- Nothing is destroyed when a message is taken that is no change. -/
theorem next_not_destroyed (hd : Turn.next.dispatches? r = none)
    (hh : (left next r).history.toList = r.history.toList ++ hs) (ps : List Nat) :
    .destroyed ps ∉ hs := by
  revert hh
  apply Ends.of_left (P := fun r' : Registry β => r'.history.toList = r.history.toList ++ hs →
    .destroyed ps ∉ hs)
  apply next_ends (Q := fun _ r' => r'.history.toList = r.history.toList ++ hs →
    .destroyed ps ∉ hs)
  · intro _ hh
    have hnil : hs = [] := by simpa using hh
    simp [hnil]
  · intro mailbox _ hh
    have htaken : hs = [.taken .wakeup] := by simpa using hh.symm
    simp [htaken]
  · intro d c mailbox hchange
    simp [Turn.dispatches?, hchange] at hd

/-- The message is taken first; the rest is the dispatch. -/
theorem next_called_iff (hr : r.Consistent) {e : Entry β} (he : r.entries[i]? = some e) {d : Device}
    {c : Change} (hd : Turn.next.dispatches? r = some (d, c)) {before after : List Happening}
    {ps : List Nat} (hi : i ∈ ps) (hh : (left next r).history.toList =
      r.history.toList ++ (before ++ .destroyed ps :: after)) :
    (∃ c' x, .called i c' x ∈ after) ↔ i ∈ r.places (·.active) ∧ e.due d c = true ∧
      (∀ c' x, .called i c' x ∉ before) ∧ .flagged i ∉ before ∧
      ∀ k, k < i → Returned k (before ++ after) := by
  obtain ⟨mailbox, hm⟩ := take?_of_dispatches hd
  have hs : ({ r with mailbox }.record (.taken (.change d c)) : Registry β).Consistent :=
    (Opens.taken r mailbox (.change d c)).consistent hr
  rw [left_next_change hm] at hh
  obtain ⟨news, hnews⟩ := turn_news hs (.dispatch d c)
  rw [show left (Turn.dispatch d c).walk _ = _ from left_discard _ _, hh, history_record,
    List.append_assoc] at hnews
  have hcons := List.append_cancel_left hnews
  cases before with
  | nil => cases hcons
  | cons x before =>
    -- The first note is of the message, and makes no difference.
    obtain ⟨rfl, -⟩ := List.cons.inj hcons
    rw [List.cons_append, ← List.singleton_append, ← List.append_assoc, ← history_record] at hh
    rw [dispatch_called_iff hs.orderly he hi hh]
    simp [Returned, places, satisfies]

/-- A registration that was there before a turn is exposed by nothing but a dispatch. -/
theorem exposed_iff {e : Entry β} (he : r.entries[i]? = some e) {t : Turn β} {d : Device}
    {c : Change} (hd : t.dispatches? r = some (d, c)) {before after : List Happening} :
    Exposed r t i before after ↔ i ∈ r.places (·.active) ∧ e.due d c = true ∧
      (∀ c' x, .called i c' x ∉ before) ∧ .flagged i ∉ before ∧
      ∀ k, k < i → Returned k (before ++ after) := by
  have hlt := lt_size_of_getElem? he
  constructor
  · intro hx
    cases hx with
    | @dispatched d' c' e' hd' he' his hdue hc hf hk =>
      rw [hd] at hd'
      cases hd'
      cases Option.some.inj (he'.symm.trans he)
      exact ⟨his, hdue, hc, hf, hk⟩
    | resumed hle => omega
  · intro h
    obtain ⟨his, hdue, hc, hf, hk⟩ := h
    exact .dispatched hd he his hdue hc hf hk

/-- Of a registration that was there before the turn. There is no replay to it. -/
theorem turn_called_iff_of_lt (hr : r.Consistent) (t : Turn β) (hlt : i < r.entries.size)
    {before after : List Happening} {ps : List Nat} (hi : i ∈ ps)
    (hh : (left t.walk r).history.toList =
      r.history.toList ++ (before ++ .destroyed ps :: after)) :
    (∃ c d, .called i c d ∈ after) ↔ Exposed r t i before after := by
  have he := Array.getElem?_eq_getElem hlt
  have hsilent (hn : ¬ t.Addresses r i) (hd : t.dispatches? r = none) :
      (∃ c d, .called i c d ∈ after) ↔ Exposed r t i before after := by
    apply iff_of_false
    · intro hcall
      obtain ⟨c, d, hm⟩ := hcall
      exact turn_not_called hr t hlt hn hh c d (by simp [hm])
    · intro hx
      cases hx with
      | dispatched hd' => simp [hd] at hd'
      | resumed hle => omega
  cases t with
  | register g => exact hsilent id rfl
  | act a => exact hsilent id rfl
  | dispatch d c =>
    have hleft : (left (dispatch d c) r).history.toList =
        r.history.toList ++ (before ++ .destroyed ps :: after) := by
      rw [← left_discard]
      exact hh
    rw [exposed_iff he rfl]
    exact dispatch_called_iff hr.orderly he hi hleft
  | next =>
    cases hd : Turn.next.dispatches? r with
    | none =>
      have hno := next_not_destroyed hd hh ps
      simp at hno
    | some x =>
      obtain ⟨d, c⟩ := x
      rw [exposed_iff he hd]
      exact next_called_iff hr he hd hi hh
  | sweep =>
    by_cases hswept : i ∈ r.places (·.flagged)
    · exact absurd hi (sweep_not_destroyed hr hswept hh (by simp))
    · exact hsilent hswept rfl

/-- Of a registration made in the turn. It is not offered anything but what is replayed. -/
theorem turn_called_iff_of_le (hr : r.Consistent) (t : Turn β) (hle : r.entries.size ≤ i)
    {before after : List Happening} {ps : List Nat} (hi : i ∈ ps)
    (hh : (left t.walk r).history.toList =
      r.history.toList ++ (before ++ .destroyed ps :: after)) :
    (∃ c d, .called i c d ∈ after) ↔ Exposed r t i before after := by
  have hlt : i < (left t.walk r).entries.size := by
    have hgone := (turn_consistent hr t).gone ps
    rw [hh] at hgone
    exact (hgone (by simp) i hi).1
  have he := Array.getElem?_eq_getElem hlt
  have haccounted := turn_accounted hr t hle he
  rw [hh, ← List.append_assoc] at haccounted
  rw [haccounted _ ps after rfl hi, hr.resumed_iff hle]
  constructor
  · intro hres
    exact .resumed hle he hres
  · intro hx
    cases hx with
    | dispatched _ he' =>
      have hlt' := lt_size_of_getElem? he'
      omega
    | resumed _ he' hres =>
      cases Option.some.inj (he'.symm.trans he)
      exact hres

/-- Within the turn in which it is destroyed, a registration is called afterwards exactly if it is
    exposed. -/
theorem turn_called_iff (hr : r.Consistent) (t : Turn β) {before after : List Happening}
    {ps : List Nat} (hi : i ∈ ps) (hh : (left t.walk r).history.toList =
      r.history.toList ++ (before ++ .destroyed ps :: after)) :
    (∃ c d, .called i c d ∈ after) ↔ Exposed r t i before after := by
  by_cases hlt : i < r.entries.size
  · exact turn_called_iff_of_lt hr t hlt hi hh
  · exact turn_called_iff_of_le hr t (Nat.not_lt.mp hlt) hi hh

/-! ## Sessions -/

/-- A series of turns leads from one registry to another. -/
def Turns : Registry β → Registry β → Prop :=
  Relation.ReflTransGen fun r r' => ∃ t : Turn β, r' = left t.walk r

/-- A session is a series of turns. -/
theorem afterAll_turns (r : Registry β) (os : List (Operation β)) : Turns r (r.afterAll os) := by
  have hrefl : Turns r r := Relation.ReflTransGen.refl
  refine afterAll_keeps (P := fun _ r' => Turns r r') (b := true) os ?_ hrefl
  intro o _ t _ b s hs
  apply (ends_left t.walk s).mono
  intro o r' hr'
  exact Relation.ReflTransGen.tail hs ⟨t, hr'⟩

theorem Turns.consistent (h : Turns r r') (hr : r.Consistent) : r'.Consistent := by
  induction h with
  | refl => exact hr
  | tail _ hturn ih =>
    obtain ⟨t, rfl⟩ := hturn
    exact turn_consistent ih t

theorem Turns.news (h : Turns r r') (hr : r.Consistent) :
    ∃ hs, r'.history.toList = r.history.toList ++ hs := by
  induction h with
  | refl => exact ⟨[], by simp⟩
  | tail hturns hturn ih =>
    obtain ⟨t, rfl⟩ := hturn
    obtain ⟨hs, hh⟩ := ih
    obtain ⟨hs', hh'⟩ := turn_news (Turns.consistent hturns hr) t
    exact ⟨hs ++ hs', by rw [hh', hh, List.append_assoc]⟩

theorem consistent_fresh (b : β) : Consistent { bus := b } where
  orderly := ⟨List.Pairwise.nil, by simp⟩
  known := by simp
  gone := by simp

/-- In the turn of a session in which it is destroyed, after what happened `before`, a registration
    is exposed. -/
def ExposedIn (r₀ r₁ : Registry β) (i : Nat) (before : List Happening) (ps : List Nat) : Prop :=
  ∃ (r : Registry β) (t : Turn β) (before' after' : List Happening),
    Turns r₀ r ∧ Turns (left t.walk r) r₁ ∧ before = r.history.toList ++ before' ∧
    (left t.walk r).history.toList = before ++ .destroyed ps :: after' ∧
    Exposed r t i before' after'

/-- Whoever is called after its destruction was exposed. -/
theorem Turns.exposed {r₀ r₁ : Registry β} (h : Turns r₀ r₁) (hr : r₀.Consistent)
    (hnone : ∀ ps, .destroyed ps ∉ r₀.history.toList) {before after : List Happening}
    {ps : List Nat} (hh : r₁.history.toList = before ++ .destroyed ps :: after) (hi : i ∈ ps)
    {c : Change} {d : Device} (hcalled : .called i c d ∈ after) :
    ExposedIn r₀ r₁ i before ps := by
  induction h generalizing after with
  | refl => exact absurd (by simp [hh]) (hnone ps)
  | @tail r r' hturns hturn ih =>
    obtain ⟨t, rfl⟩ := hturn
    have hcons := Turns.consistent hturns hr
    obtain ⟨hs, hnews⟩ := turn_news hcons t
    rw [hnews] at hh
    rcases split_append hh with ⟨zs, hr', hafter⟩ | ⟨zs, hhs, hbefore⟩
    · -- It was destroyed in an earlier turn and is not listed any more.
      have hgone := hcons.gone ps (by simp [hr']) i hi
      have hnot : ¬ t.Addresses r i := fun ha => hgone.2 ha.listed
      rw [hafter, List.mem_append] at hcalled
      have hm := hcalled.resolve_right (turn_not_called hcons t hgone.1 hnot hnews c d)
      obtain ⟨r₂, t₂, before₂, after₂, hto, hfrom, heq, hsplit, hexposed⟩ := ih hr' hm
      exact ⟨r₂, t₂, before₂, after₂, hto, Relation.ReflTransGen.tail hfrom ⟨t, rfl⟩, heq, hsplit,
        hexposed⟩
    · have hsplit : (left t.walk r).history.toList =
          r.history.toList ++ (zs ++ .destroyed ps :: after) := by
        rw [hnews, hhs]
      have hexposed := (turn_called_iff hcons t hi hsplit).mp ⟨c, d, hcalled⟩
      refine ⟨r, t, zs, after, hturns, Relation.ReflTransGen.refl, hbefore, ?_, hexposed⟩
      rw [hsplit, hbefore, List.append_assoc]

/-- A registration stays silent once it was destroyed, unless it is exposed then. -/
theorem destroyed_silent_iff (b : β) (os : List (Operation β)) {before after : List Happening}
    {ps : List Nat}
    (hh : (afterAll { bus := b } os).history.toList = before ++ .destroyed ps :: after)
    (hi : i ∈ ps) : (∀ c d, .called i c d ∉ after) ↔
      ¬ ExposedIn { bus := b } (afterAll { bus := b } os) i before ps := by
  have hturns := afterAll_turns { bus := b } os
  have hfresh := consistent_fresh b
  constructor
  · intro hsilent hexposed
    obtain ⟨r, t, before', after', hto, hfrom, rfl, hsplit, hexposed⟩ := hexposed
    have hcons := Turns.consistent hto hfresh
    have hnews : (left t.walk r).history.toList =
        r.history.toList ++ (before' ++ .destroyed ps :: after') := by
      rw [hsplit, List.append_assoc]
    obtain ⟨c, d, hm⟩ := (turn_called_iff hcons t hi hnews).mpr hexposed
    -- What happens in the turn is part of what happens in the session.
    obtain ⟨hs, hrest⟩ := Turns.news hfrom (turn_consistent hcons t)
    rw [hh, hsplit, List.append_assoc _ (_ :: _)] at hrest
    have hafter := (List.cons.inj (List.append_cancel_left hrest)).2
    exact hsilent c d (by simp [hafter, hm])
  · intro hnot c d hm
    exact hnot (hturns.exposed hfresh (by simp) hh hi hm)

/-- Two registrations of which the first, when it is told of an arrival, destroys both. -/
def purge : List (Operation MemoryBus) :=
  let first : Registration MemoryBus :=
    { Registration.listener {} with
      onArrived _ _ := .act .deregisterAll fun _ => .finish .keep }
  [.register first, .register (.listener {}), .dispatch (MemoryBus.sample 1) .arrived]

theorem destroyed_silent_iff_purge :
    let hs := (afterAll { bus := ({} : MemoryBus) } purge).history.toList
    hs = hs.take 6 ++ .destroyed [0, 1] :: hs.drop 7 ∧
      ((∀ c d, .called 1 c d ∉ hs.drop 7) ↔ ¬ ExposedIn { bus := ({} : MemoryBus) }
        (afterAll { bus := {} } purge) 1 (hs.take 6) [0, 1]) := by
  intro hs
  have hsplit : hs = hs.take 6 ++ .destroyed [0, 1] :: hs.drop 7 := by decide +kernel
  exact ⟨hsplit, destroyed_silent_iff ({} : MemoryBus) purge hsplit (by decide)⟩

/-- Destroyed registrations do not always stay silent. -/
theorem destroyed_not_always_silent :
    ¬ ∀ (os : List (Operation MemoryBus)) (before after : List Happening) (ps : List Nat) (i : Nat),
      (afterAll { bus := {} } os).history.toList = before ++ .destroyed ps :: after → i ∈ ps →
        ∀ c d, .called i c d ∉ after := by
  intro hsilent
  let hs := (afterAll { bus := ({} : MemoryBus) } purge).history.toList
  have hsplit : hs = hs.take 6 ++ .destroyed [0, 1] :: hs.drop 7 := by decide +kernel
  have hcalled : .called 1 .arrived (MemoryBus.sample 1) ∈ hs.drop 7 := by decide +kernel
  exact hsilent purge _ _ _ 1 hsplit (by decide) .arrived _ hcalled

end Registry

end PlugWatch
