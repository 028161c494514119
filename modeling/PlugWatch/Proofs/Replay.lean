import PlugWatch.Proofs.Attached
import PlugWatch.Proofs.Dispatch

/-! # Whom a replay calls

  A replay offers the devices present to a new registration, one by one, and stops when the
  registration asks to be dropped. If the registration is destroyed by what its own callback does,
  the replay does not notice: it goes on as soon as the callback keeps the registration, and the
  next device that the registration accepts is told. A registration that was flagged before is
  left alone.

  This is an invariant of every registration that is made during a turn, kept by all that happens
  until the turn is over.
-/

namespace PlugWatch

namespace Registry

open Walk

variable {β : Type} [Bus β] {r r' : Registry β} {i n : Nat} {e : Entry β} {d : Device}
  {ds done : List Device} {hs before after : List Happening}

/-- A device among some is accepted and nothing was told under its id so far. -/
def Ahead (e : Entry β) (i : Nat) (ds : List Device) (before : List Happening) : Prop :=
  ∃ d ∈ ds, e.filter.accepts d.descriptor = true ∧
    ∀ c x, .called i c x ∈ before → x.id ≠ d.id

/-- A replay to a registration is under way, has a device ahead, and is resumed. -/
structure Resumed (e : Entry β) (i : Nat) (before after : List Happening) : Prop where
  calls : e.calls .arrived = true
  unflagged : .flagged i ∉ before
  kept : ∃ x, .answered i .arrived x .keep ∈ after
  ahead : ∃ ds, .replayed i ds ∈ before ∧ Ahead e i ds before

/-- If a registration is destroyed, it is called afterwards exactly if its replay is resumed. -/
def Accounted (e : Entry β) (i : Nat) (hs : List Happening) : Prop :=
  ∀ before ps after, hs = before ++ .destroyed ps :: after → i ∈ ps →
    ((∃ c d, .called i c d ∈ after) ↔ Resumed e i before after)

/-! ## During a replay -/

/-- A replay of `ds` to a registration, between two devices. -/
structure Replaying (e : Entry β) (i : Nat) (ds done : List Device) (r : Registry β) : Prop where
  entry : ∃ e' : Entry β, r.entries[i]? = some e' ∧ e'.toRegistration = e.toRegistration ∧
    (e'.flagged = true ↔ .flagged i ∈ r.history.toList) ∧
    (e.calls .arrived = true →
      ∀ id, e'.has id = true ↔ ∃ c x, .called i c x ∈ r.history.toList ∧ x.id = id)
  consistent : r.Consistent
  replayed : .replayed i ds ∈ r.history.toList
  only : ∀ ds', .replayed i ds' ∈ r.history.toList → ds' = ds
  /-- What the registration accepts it was told, if it was not flagged. -/
  covered : e.calls .arrived = true → .flagged i ∉ r.history.toList → ∀ d ∈ done,
    e.filter.accepts d.descriptor = true → ∃ c x, .called i c x ∈ r.history.toList ∧ x.id = d.id
  /-- A destruction came after the beginning, and its callback kept the registration. -/
  destroyed : ∀ before ps after, r.history.toList = before ++ .destroyed ps :: after → i ∈ ps →
    .replayed i ds ∈ before ∧ (∃ x, .answered i .arrived x .keep ∈ after) ∧
    (.flagged i ∈ r.history.toList → .flagged i ∈ before) ∧
    ((∃ c x, .called i c x ∈ after) ↔
      e.calls .arrived = true ∧ .flagged i ∉ before ∧ Ahead e i done before)

theorem Ahead.mono {ds' : List Device} (h : Ahead e i ds before) (hsub : ds ⊆ ds') :
    Ahead e i ds' before := by
  obtain ⟨d, hd, hacc, hnone⟩ := h
  exact ⟨d, hsub hd, hacc, hnone⟩

theorem ahead_concat : Ahead e i (done ++ [d]) before ↔
    Ahead e i done before ∨ Ahead e i [d] before := by
  constructor
  · intro h
    obtain ⟨x, hx, hacc, hnone⟩ := h
    rcases List.mem_append.mp hx with hx | hx
    · exact .inl ⟨x, hx, hacc, hnone⟩
    · exact .inr ⟨x, hx, hacc, hnone⟩
  · intro h
    rcases h with h | h
    · exact h.mono (List.subset_append_left ..)
    · exact h.mono (List.subset_append_right ..)

/-- A whole replay leaves the registration accounted for. -/
theorem Replaying.accounted (h : Replaying e i ds ds r) : Accounted e i r.history.toList := by
  intro before ps after hsplit hi
  obtain ⟨hreplayed, hkept, -, hiff⟩ := h.destroyed before ps after hsplit hi
  rw [hiff]
  constructor
  · intro h
    obtain ⟨hc, hf, hahead⟩ := h
    exact ⟨hc, hf, hkept, ds, hreplayed, hahead⟩
  · intro hres
    obtain ⟨ds', hds', hahead⟩ := hres.ahead
    -- There is but one replay to a registration.
    have honly := h.only ds' (by rw [hsplit]; exact List.mem_append_left _ hds')
    exact ⟨hres.calls, hres.unflagged, honly ▸ hahead⟩

/-- A device that is passed over changes nothing. -/
theorem Replaying.passed (h : Replaying e i ds done r)
    (hp : ∀ e' : Entry β, r.entries[i]? = some e' → e'.flagged = true ∨ e'.expects d = false) :
    Replaying e i ds (done ++ [d]) r := by
  obtain ⟨e', he', hreg, hflag, hhas⟩ := h.entry
  have hfilter : e'.filter = e.filter := congrArg Registration.filter hreg
  -- If it is not flagged, the device was told already or is not accepted.
  have htold (hc : e.calls .arrived = true) (hnf : .flagged i ∉ r.history.toList)
      (hacc : e.filter.accepts d.descriptor = true) :
      ∃ c x, .called i c x ∈ r.history.toList ∧ x.id = d.id := by
    have hx := (hp e' he').resolve_left fun hf => hnf (hflag.mp hf)
    have hhasd : e'.has d.id = true := by
      rw [← hfilter] at hacc
      simpa [Entry.expects, hacc] using hx
    exact (hhas hc d.id).mp hhasd
  refine ⟨h.entry, h.consistent, h.replayed, h.only, ?_, ?_⟩
  · intro hc hnf x hx hacc
    rcases List.mem_append.mp hx with hx | hx
    · exact h.covered hc hnf x hx hacc
    · rw [List.mem_singleton.mp hx] at hacc ⊢
      exact htold hc hnf hacc
  · intro before ps after hsplit hi
    obtain ⟨hreplayed, hkept, hfb, hiff⟩ := h.destroyed before ps after hsplit hi
    refine ⟨hreplayed, hkept, hfb, ?_⟩
    constructor
    · intro hcalled
      obtain ⟨hc, hf, hahead⟩ := hiff.mp hcalled
      exact ⟨hc, hf, ahead_concat.mpr (.inl hahead)⟩
    · intro hall
      obtain ⟨hc, hf, hahead⟩ := hall
      -- If this device is what was ahead, it was told between the destruction and now.
      rcases ahead_concat.mp hahead with hahead | ⟨x, hx, hacc, hnone⟩
      · exact hiff.mpr ⟨hc, hf, hahead⟩
      · rw [List.mem_singleton.mp hx] at hacc hnone
        obtain ⟨c, y, hy, hid⟩ := htold hc (fun hm => hf (hfb hm)) hacc
        rw [hsplit] at hy
        rcases List.mem_append.mp hy with hy | hy
        · exact absurd hid (hnone c y hy)
        · exact ⟨c, y, by simpa using hy⟩

/-- A device that is adopted changes nothing either, since there are no calls. -/
theorem Replaying.adopted (h : Replaying e i ds done r)
    (hc : ∀ e' : Entry β, r.entries[i]? = some e' → e'.calls .arrived = false) :
    Replaying e i ds (done ++ [d]) (r.update i (·.attach d)) := by
  obtain ⟨e', he', hreg, hflag, -⟩ := h.entry
  have hnc : ¬ e.calls .arrived = true := by
    have hsame : e'.calls .arrived = e.calls .arrived := by simp [Entry.calls, hreg]
    rw [← hsame, hc e' he']
    simp
  have hupdated := getElem?_update_self r i (·.attach d) he'
  have hlt := lt_size_of_getElem? he'
  refine ⟨⟨_, hupdated, hreg, hflag, fun h' => absurd h' hnc⟩, ?_, h.replayed, h.only,
    fun h' => absurd h' hnc, ?_⟩
  · exact (Move.adopt (p := fun _ => True) r d trivial hlt).consistent h.consistent
  · intro before ps after hsplit hi
    obtain ⟨hreplayed, hkept, hfb, hiff⟩ := h.destroyed before ps after hsplit hi
    refine ⟨hreplayed, hkept, hfb, ?_⟩
    rw [hiff]
    exact iff_of_false (fun h' => hnc h'.1) fun h' => hnc h'.1

/-! ## A call during a replay -/

section Told

variable {e' : Entry β} {ts : List Happening}

/-- Another registration of the same kind. -/
theorem Accounted.congr (h : Accounted e i hs) (hreg : e'.toRegistration = e.toRegistration) :
    Accounted e' i hs := by
  have hfilter : e'.filter = e.filter := congrArg Registration.filter hreg
  have hcalls : e'.calls .arrived = e.calls .arrived := by simp [Entry.calls, hreg]
  have hahead (ds : List Device) (before : List Happening) :
      Ahead e' i ds before ↔ Ahead e i ds before := by simp [Ahead, hfilter]
  intro before ps after hsplit hi
  rw [h before ps after hsplit hi]
  constructor
  · intro hres
    obtain ⟨hc, hf, hkept, ds, hds, ha⟩ := hres
    exact ⟨hcalls.trans hc, hf, hkept, ds, hds, (hahead ds before).mpr ha⟩
  · intro hres
    obtain ⟨hc, hf, hkept, ds, hds, ha⟩ := hres
    exact ⟨hcalls.symm.trans hc, hf, hkept, ds, hds, (hahead ds before).mp ha⟩

/-- The registration is called for a device: if it was destroyed before, its replay is resumed with
    this call; if it is destroyed afterwards, nothing that was offered so far is ahead. -/
theorem Replaying.split (h : Replaying e i ds done r) (he' : r.entries[i]? = some e')
    (hf : e'.flagged = false) (hx : e'.expects d = true) (hc : e.calls .arrived = true)
    {ps : List Nat} (hi : i ∈ ps)
    (hsplit : r.history.toList ++ .called i .arrived d :: ts = before ++ .destroyed ps :: after) :
    (∃ zs, r.history.toList = before ++ .destroyed ps :: zs ∧
      after = zs ++ .called i .arrived d :: ts ∧ .replayed i ds ∈ before ∧
      (∃ x, .answered i .arrived x .keep ∈ zs) ∧ .flagged i ∉ before ∧ Ahead e i [d] before) ∨
    ∃ zs, ts = zs ++ .destroyed ps :: after ∧ .replayed i ds ∈ before ∧
      before = r.history.toList ++ .called i .arrived d :: zs ∧
      ¬ Ahead e i (done ++ [d]) before := by
  obtain ⟨e'', he'', hreg, hflag, hhas⟩ := h.entry
  cases Option.some.inj (he''.symm.trans he')
  have hfilter : e'.filter = e.filter := congrArg Registration.filter hreg
  have hnf : .flagged i ∉ r.history.toList := by
    rw [← hflag, hf]
    simp
  have hexpects : e'.has d.id = false ∧ e'.filter.accepts d.descriptor = true := by
    simpa [Entry.expects] using hx
  rcases split_around (by simp) hsplit with ⟨zs, hH, hafter⟩ | ⟨zs, hts, hbefore⟩
  · obtain ⟨hreplayed, hkept, -, -⟩ := h.destroyed before ps zs hH hi
    refine .inl ⟨zs, hH, hafter, hreplayed, hkept, fun hm => hnf (by simp [hH, hm]), ?_⟩
    refine ⟨d, by simp, hfilter ▸ hexpects.2, ?_⟩
    intro c x hm hid
    -- Had it been told under this id, it would have the device.
    have hhasd := (hhas hc d.id).mpr ⟨c, x, by simp [hH, hm], hid⟩
    rw [hexpects.1] at hhasd
    cases hhasd
  · refine .inr ⟨zs, hts, by simp [hbefore, h.replayed], hbefore, ?_⟩
    intro hahead
    obtain ⟨x, hx, hacc, hnone⟩ := hahead
    rcases List.mem_append.mp hx with hx | hx
    · obtain ⟨c, y, hy, hid⟩ := h.covered hc hnf x hx hacc
      exact hnone c y (by simp [hbefore, hy]) hid
    · rw [List.mem_singleton.mp hx] at hnone
      exact hnone .arrived d (by simp [hbefore]) rfl

/-- The callback panics, or asks for the registration to be dropped: there are no more calls. -/
theorem Replaying.over (h : Replaying e i ds done r) (hd : d ∈ ds) (he' : r.entries[i]? = some e')
    (hf : e'.flagged = false) (hx : e'.expects d = true) (hc : e.calls .arrived = true)
    (hts : ∀ c x, .called i c x ∉ ts) (hkept : ∀ x, .answered i .arrived x .keep ∉ ts) :
    Accounted e i (r.history.toList ++ .called i .arrived d :: ts) := by
  intro before ps after hsplit hi
  rcases h.split he' hf hx hc hi hsplit with
    ⟨zs, -, hafter, hreplayed, ⟨x, hx⟩, hnf, ha⟩ | ⟨zs, hzs, -, -, -⟩
  · have hahead : Ahead e i ds before := ha.mono (by simpa using hd)
    have hanswered : .answered i .arrived x .keep ∈ after := by simp [hafter, hx]
    have hcall : .called i .arrived d ∈ after := by simp [hafter]
    exact iff_of_true ⟨.arrived, d, hcall⟩ ⟨hc, hnf, ⟨x, hanswered⟩, ds, hreplayed, hahead⟩
  · apply iff_of_false
    · intro hcall
      obtain ⟨c, x, hm⟩ := hcall
      exact hts c x (by simp [hzs, hm])
    · intro hres
      obtain ⟨x, hm⟩ := hres.kept
      exact hkept x (by simp [hzs, hm])

/-- The callback panics. -/
theorem Replaying.halted (h : Replaying e i ds done r) (hd : d ∈ ds)
    (he' : r.entries[i]? = some e') (hf : e'.flagged = false) (hx : e'.expects d = true)
    (hc : e.calls .arrived = true) {s : Registry β}
    (haloof : Aloof i hs (r.enter i .arrived d) s) : Accounted e i s.history.toList := by
  have hnews : s.history.toList = r.history.toList ++ .called i .arrived d :: hs := by
    simp [haloof.news, enter]
  rw [hnews]
  exact h.over hd he' hf hx hc haloof.not_called fun x => haloof.not_answered .arrived x .keep

/-- The callback asks for the registration to be dropped. -/
theorem Replaying.dropped (h : Replaying e i ds done r) (hd : d ∈ ds)
    (he' : r.entries[i]? = some e') (hf : e'.flagged = false) (hx : e'.expects d = true)
    (hc : e.calls .arrived = true) {s : Registry β}
    (haloof : Aloof i hs (r.enter i .arrived d) s) :
    Accounted e i (s.drop i d).history.toList := by
  obtain ⟨hs', hh, hlogs⟩ :=
    (s.record (.answered i .arrived d .deregister)).history_dismiss i d.id
  have hdropped : (s.drop i d).history.toList = r.history.toList ++
      .called i .arrived d :: (hs ++ .answered i .arrived d .deregister :: hs') := by
    rw [drop, hh]
    simp [haloof.news, enter]
  rw [hdropped]
  apply h.over hd he' hf hx hc
  · intro c x hm
    have hm : .called i c x ∈ hs' := by simpa [haloof.not_called] using hm
    rcases hlogs _ hm with heq | ⟨_, heq⟩ <;> cases heq
  · intro x hm
    have hm : .answered i .arrived x .keep ∈ hs' := by simpa [haloof.not_answered] using hm
    rcases hlogs _ hm with heq | ⟨_, heq⟩ <;> cases heq

/-- A destruction before the callback kept the registration, or by what the callback did. -/
theorem Replaying.destroyed_kept (h : Replaying e i ds done r) (he' : r.entries[i]? = some e')
    (hf : e'.flagged = false) (hx : e'.expects d = true) (hc : e.calls .arrived = true)
    {s : Registry β} (haloof : Aloof i hs (r.enter i .arrived d) s) {ps : List Nat} (hi : i ∈ ps)
    (hsplit : r.history.toList ++ .called i .arrived d :: (hs ++ [.answered i .arrived d .keep]) =
      before ++ .destroyed ps :: after) :
    .replayed i ds ∈ before ∧ (∃ x, .answered i .arrived x .keep ∈ after) ∧
      (.flagged i ∈ hs → .flagged i ∈ before) ∧
      ((∃ c x, .called i c x ∈ after) ↔
        e.calls .arrived = true ∧ .flagged i ∉ before ∧ Ahead e i (done ++ [d]) before) := by
  rcases h.split he' hf hx hc hi hsplit with
    ⟨zs, hH, hafter, hreplayed, ⟨x, hx⟩, hnf', ha⟩ | ⟨zs, hzs, hreplayed, hbefore, hna⟩
  · -- It was destroyed before this call, which is the proof that the replay is resumed.
    refine ⟨hreplayed, ⟨x, by simp [hafter, hx]⟩, ?_, ?_⟩
    · intro hfl
      have hl : i ∈ r.listed := haloof.flag_listed hfl
      have hdestroyed : .destroyed ps ∈ r.history.toList := by simp [hH]
      exact absurd hl (h.consistent.gone ps hdestroyed i hi).2
    · exact iff_of_true ⟨.arrived, d, by simp [hafter]⟩ ⟨hc, hnf', ahead_concat.mpr (.inr ha)⟩
  · -- It is destroyed by what its callback does; everything offered so far was told before.
    obtain ⟨ws, hws, hafter⟩ : ∃ ws, hs = zs ++ .destroyed ps :: ws ∧
        after = ws ++ [.answered i .arrived d .keep] := by
      rcases split_around (by simp) hzs with ⟨ws, hws, hafter⟩ | ⟨ws, hnil, -⟩
      · exact ⟨ws, hws, hafter⟩
      · simp at hnil
    refine ⟨hreplayed, ⟨d, by simp [hafter]⟩, ?_, ?_⟩
    · intro hfl
      rw [hws, List.mem_append] at hfl
      rcases hfl with hfl | hfl
      · simp [hbefore, hfl]
      · -- A flag cannot follow the destruction.
        have hfl : .flagged i ∈ ws := by simpa using hfl
        obtain ⟨us, vs, husvs⟩ := List.append_of_mem hfl
        have hfull : hs = (zs ++ .destroyed ps :: us) ++ .flagged i :: vs := by
          simp [hws, husvs]
        exact absurd hi (haloof.order _ vs hfull ps (by simp))
    · apply iff_of_false
      · intro hcall
        obtain ⟨c, x, hm⟩ := hcall
        have hm : .called i c x ∈ hs := by
          rw [hafter, List.mem_append] at hm
          rcases hm with hm | hm
          · simp [hws, hm]
          · simp at hm
        exact haloof.not_called c x hm
      · intro hall
        obtain ⟨-, -, ha⟩ := hall
        exact hna ha

/-- The callback keeps the registration, and the replay goes on. -/
theorem Replaying.kept (h : Replaying e i ds done r) (he' : r.entries[i]? = some e')
    (hf : e'.flagged = false) (hx : e'.expects d = true) (hc : e.calls .arrived = true)
    {s : Registry β}
    (hm : Moves ((r.enter i .arrived d).entries.size ≤ ·) (r.enter i .arrived d) s) :
    Replaying e i ds (done ++ [d]) (s.keep i d) := by
  have hlt := lt_size_of_getElem? he'
  have hlt' : i < (r.enter i .arrived d).entries.size := by simpa [enter] using hlt
  have hentered : Moves (fun _ => True) r (r.enter i .arrived d) :=
    (Move.enter r .arrived d trivial hlt).moves
  have hlts : i < s.entries.size := Nat.lt_of_lt_of_le hlt' hm.spares.size_le
  obtain ⟨hs, haloof⟩ := hm.aloof (by omega) hlt'
  have hhistory : (s.keep i d).history.toList =
      r.history.toList ++ .called i .arrived d :: (hs ++ [.answered i .arrived d .keep]) := by
    simp [Registry.keep, haloof.news, enter]
  have hconsistent : (s.keep i d).Consistent :=
    (((hentered.trans (hm.mono fun _ _ => trivial)).trans
      (Move.keep s d trivial hlts).moves)).consistent h.consistent
  -- Its own flag, and what it was told, can be read off the history as before.
  obtain ⟨e'', he'', hreg, hflag, hhas⟩ := h.entry
  cases Option.some.inj (he''.symm.trans he')
  obtain ⟨f, hes, hff⟩ := haloof.flag _ (getElem?_enter r i he' .arrived d)
  have hnf : .flagged i ∉ r.history.toList := by
    rw [← hflag, hf]
    simp
  have hflagged : .flagged i ∈ (s.keep i d).history.toList ↔ .flagged i ∈ hs := by
    simp [hhistory, hnf]
  have hcalled (c : Change) (x : Device) : .called i c x ∈ (s.keep i d).history.toList ↔
      .called i c x ∈ r.history.toList ∨ c = .arrived ∧ x = d := by
    simp [hhistory, haloof.not_called c x]
  refine ⟨⟨_, getElem?_keep s i hes d, hreg, ?_, ?_⟩, hconsistent, ?_, ?_, ?_, ?_⟩
  · rw [hflagged]
    show f = true ↔ _
    rw [hff]
    show e'.flagged = true ∨ _ ↔ _
    simp [hf]
  · intro _ id
    have hsame : ({ e'.countCall .arrived with flagged := f } : Entry β).has id = e'.has id := rfl
    rw [Entry.has_attach, hsame, hhas hc id]
    constructor
    · intro hor
      rcases hor with ⟨c, x, hm, hid⟩ | hid
      · exact ⟨c, x, (hcalled c x).mpr (.inl hm), hid⟩
      · exact ⟨.arrived, d, (hcalled .arrived d).mpr (.inr ⟨rfl, rfl⟩), hid⟩
    · intro htold
      obtain ⟨c, x, hm, hid⟩ := htold
      rcases (hcalled c x).mp hm with hm | ⟨-, rfl⟩
      · exact .inl ⟨c, x, hm, hid⟩
      · exact .inr hid
  · simp [hhistory, h.replayed]
  · intro ds' hds'
    have hmem : .replayed i ds' ∈ r.history.toList := by
      have hnot : .replayed i ds' ∉ hs := fun hm => haloof.within _ hm rfl
      simpa [hhistory, hnot] using hds'
    exact h.only ds' hmem
  · intro _ hnf' x hx hacc
    rcases List.mem_append.mp hx with hx | hx
    · obtain ⟨c, y, hy, hid⟩ := h.covered hc hnf x hx hacc
      exact ⟨c, y, (hcalled c y).mpr (.inl hy), hid⟩
    · rw [List.mem_singleton.mp hx]
      exact ⟨.arrived, d, (hcalled .arrived d).mpr (.inr ⟨rfl, rfl⟩), rfl⟩
  · intro before ps after hsplit hi
    rw [hhistory] at hsplit
    rw [hflagged]
    exact h.destroyed_kept he' hf hx hc haloof hi hsplit

end Told

/-! ## Whole replays -/

theorem replay_accounted {f : Nat → Device → Walk β Verdict} (hf : Tame f) {rest : List Device}
    (hds : ds = done ++ rest) (h : Replaying e i ds done r) :
    (replay i f rest).Ends (fun _ r' => Accounted e i r'.history.toList) r := by
  induction rest generalizing done r with
  | nil =>
    rw [List.append_nil] at hds
    rw [replay_nil_ends]
    exact (hds ▸ h).accounted
  | cons d rest ih =>
    have hnext {r' : Registry β} (hr' : Replaying e i ds (done ++ [d]) r') :
        (replay i f rest).Ends (fun _ r' => Accounted e i r'.history.toList) r' := by
      apply ih _ hr'
      rw [hds, List.append_assoc, List.singleton_append]
    obtain ⟨e', he', hreg, -⟩ := h.entry
    have heq {e'' : Entry β} (he'' : r.entries[i]? = some e'') : e'' = e' :=
      Option.some.inj (he''.symm.trans he')
    have hcalls : e'.calls .arrived = e.calls .arrived := by simp [Entry.calls, hreg]
    rw [replay_cons_ends]
    apply offerArrival_ends
    · intro hnone
      rw [he'] at hnone
      cases hnone
    · intro e'' he'' hp
      apply hnext (h.passed _)
      intro e₀ he₀
      rwa [heq he₀, ← heq he'']
    · intro e'' he'' _ _ hc
      apply hnext (h.adopted _)
      intro e₀ he₀
      rwa [heq he₀, ← heq he'']
    · intro e'' he'' hfl hx hc
      cases heq he''
      have hce : e.calls .arrived = true := hcalls.symm.trans hc
      have hlt := lt_size_of_getElem? he'
      have hlt' : i < (r.enter i .arrived d).entries.size := by simpa [enter] using hlt
      apply (hf e'.arrivals d _).mono
      intro o s hm
      obtain ⟨hs, haloof⟩ := hm.aloof (i := i) (by omega) hlt'
      have hd : d ∈ ds := by simp [hds]
      cases o with
      | none => exact h.halted hd he' hfl hx hce haloof
      | some v =>
        cases v with
        | keep => exact hnext (h.kept he' hfl hx hce hm)
        | deregister => exact h.dropped hd he' hfl hx hce haloof

/-! ## New registrations -/

/-- A registration that was not destroyed is accounted for. -/
theorem accounted_of_spared (h : ∀ ps, .destroyed ps ∈ hs → i ∉ ps) : Accounted e i hs := by
  intro before ps after hsplit hi
  have hm : .destroyed ps ∈ hs := by simp [hsplit]
  exact absurd hi (h ps hm)

/-- What happens without a call of the registration makes no difference. -/
theorem Accounted.append {hs' : List Happening} (h : Accounted e i hs)
    (hcalled : ∀ c x, .called i c x ∉ hs') (hanswered : ∀ c x v, .answered i c x v ∉ hs') :
    Accounted e i (hs ++ hs') := by
  intro before ps after hsplit hi
  rcases split_append hsplit with ⟨zs, hH, hafter⟩ | ⟨zs, hzs, -⟩
  · have hcall : (∃ c x, .called i c x ∈ after) ↔ ∃ c x, .called i c x ∈ zs := by
      simp [hafter, hcalled]
    have hkept : (∃ x, .answered i .arrived x .keep ∈ after) ↔
        ∃ x, .answered i .arrived x .keep ∈ zs := by
      simp [hafter, hanswered]
    rw [hcall, h before ps zs hH hi]
    constructor
    · intro hres
      exact ⟨hres.calls, hres.unflagged, hkept.mpr hres.kept, hres.ahead⟩
    · intro hres
      exact ⟨hres.calls, hres.unflagged, hkept.mp hres.kept, hres.ahead⟩
  · apply iff_of_false
    · intro hcall
      obtain ⟨c, x, hm⟩ := hcall
      exact hcalled c x (by simp [hzs, hm])
    · intro hres
      obtain ⟨x, hm⟩ := hres.kept
      exact hanswered .arrived x .keep (by simp [hzs, hm])

/-- A registration is accounted for if nothing was destroyed since it was made. -/
theorem Consistent.accounted (hr : r.Consistent)
    (hh : r'.history.toList = r.history.toList ++ hs) (hd : ∀ ps, .destroyed ps ∉ hs) :
    Accounted e r.entries.size r'.history.toList := by
  apply accounted_of_spared
  intro ps hm hi
  rw [hh, List.mem_append] at hm
  have hlt := (hr.gone ps (hm.resolve_right (hd ps)) _ hi).1
  omega

/-- What stands in the history when a registration is made and the devices were listed. -/
theorem history_enlist_enumerate (r : Registry β) (g : Registration β) :
    (r.enlist g).enumerate.2.history.toList =
      r.history.toList ++ (.enlisted r.entries.size :: .logged {
        level := .info
        source := .registry
        message := s!"Registered hotplug callback {r.nextHandle.text} for {g.filter.text}" } ::
      (Bus.enumerate r.bus).log.map Happening.logged) := by
  simp [enumerate_eq, enlist, log, record]

/-- A replay begins. -/
theorem Consistent.replaying (hr : r.Consistent) {g : Registration β} (hg : g.check = .ok ())
    (h : Handle) (ds : List Device) :
    Replaying (r.newEntry g) r.entries.size ds []
      ((r.enlist g).enumerate.2.beginReplay r.entries.size h ds) := by
  have hmoves := opening_moves (r := r) (p := fun _ => True) hg trivial h ds
  -- Nothing that was noted before is about the new registration.
  have hold {x : Happening} (hx : ¬ x.Known r.entries.size) : x ∉ r.history.toList :=
    fun hm => hx (hr.known x hm)
  have hnone : ¬ r.entries.size < r.entries.size := Nat.lt_irrefl _
  have hhistory := history_enlist_enumerate r g
  refine ⟨⟨r.newEntry g, ?_, rfl, ?_, ?_⟩, hmoves.consistent hr, ?_, ?_,
    fun _ _ d hd => (List.not_mem_nil hd).elim, ?_⟩
  · exact getElem?_enlist_enumerate r g
  · have hnot : .flagged r.entries.size ∉ r.history.toList := hold hnone
    simp [beginReplay, history_log, hhistory, hnot, newEntry]
  · intro _ id
    have hnot (c : Change) (x : Device) : .called r.entries.size c x ∉ r.history.toList :=
      hold hnone
    simp [beginReplay, history_log, hhistory, hnot, newEntry, Entry.has, Entry.recorded?]
  · simp [beginReplay, history_log]
  · intro ds' hm
    have hnot : .replayed r.entries.size ds' ∉ r.history.toList := hold hnone
    simpa [beginReplay, history_log, hhistory, hnot] using hm
  · intro before ps after hsplit hi
    have hm : .destroyed ps ∈
        ((r.enlist g).enumerate.2.beginReplay r.entries.size h ds).history.toList := by
      simp [hsplit]
    have hm : .destroyed ps ∈ r.history.toList := by
      simpa [beginReplay, history_log, hhistory] using hm
    exact absurd (hr.gone ps hm _ hi).1 hnone

theorem registerWith_accounted (hr : r.Consistent) {g : Registration β}
    {f : Nat → Device → Walk β Verdict} (hf : Tame f) :
    (registerWith g f).Ends (fun _ r' => ∀ e, r'.entries[r.entries.size]? = some e →
      Accounted e r.entries.size r'.history.toList) r := by
  apply registerWith_ends
  · intro why e he
    have hlt := lt_size_of_getElem? he
    omega
  · intro _ _ e he
    obtain ⟨hs, hh, hnone⟩ : ∃ hs, (r.enlist g).history.toList = r.history.toList ++ hs ∧
        ∀ ps, .destroyed ps ∉ hs :=
      ⟨[.enlisted r.entries.size, .logged _], by simp [enlist, log, record]; rfl, by simp⟩
    exact hr.accounted hh hnone
  · intro _ why _ e he
    obtain ⟨l, hh⟩ := (r.enlist g).enumerate.2.history_rollBack r.entries.size r.nextHandle why
    rw [history_enlist_enumerate, List.append_assoc] at hh
    exact hr.accounted hh (by simp)
  · intro hg _ ds _
    have hreplaying := hr.replaying hg r.nextHandle ds
    have hlt := lt_size_of_getElem? hreplaying.entry.choose_spec.1
    have hmoves := replay_moves (p := fun _ => True) hf (fun _ _ => trivial) (Nat.le_refl _)
      (i := r.entries.size) trivial ds
      (r := (r.enlist g).enumerate.2.beginReplay r.entries.size r.nextHandle ds)
    apply ((replay_accounted hf (List.nil_append ds).symm hreplaying).and hmoves).mono
    intro o r' h e he
    obtain ⟨haccounted, hm⟩ := h
    obtain ⟨e', he', hreg, -⟩ := hreplaying.entry
    obtain ⟨e'', he'', hages⟩ := hm.spares.ages _ e' he'
    cases Option.some.inj (he''.symm.trans he)
    exact haccounted.congr (hages.registration.trans hreg)

/-- The registrations from a place on are accounted for. -/
def AccountedFrom (n : Nat) (_ : Bool) (r : Registry β) (i : Nat) : Prop :=
  n ≤ i → ∀ e, r.entries[i]? = some e → Accounted e i r.history.toList

theorem accountedFrom_placeInvariant (n : Nat) :
    PlaceInvariant (β := β) Consistent (AccountedFrom n) where
  overall h hr := h.consistent hr
  weaken h := h
  spared {p r r' b i} hr hm hp hlt h hn e' he' := by
    obtain ⟨hs, haloof⟩ := hm.moves.aloof hp hlt
    have he := Array.getElem?_eq_getElem hlt
    obtain ⟨f, hf, -⟩ := haloof.flag _ he
    cases Option.some.inj (hf.symm.trans he')
    rw [haloof.news]
    exact ((h hn _ he).append haloof.not_called haloof.not_answered).congr rfl
  made hr hf := (registerWith_accounted hr hf).mono fun _ _ h _ _ => h

end Registry

end PlugWatch
