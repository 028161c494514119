import PlugWatch.Bus.Memory
import PlugWatch.Proofs.Snapshot
import PlugWatch.Proofs.Whereabouts

/-! # What a sweep reclaims

  A sweep takes the flagged registrations off the list before it calls any of them. The callbacks
  work on the shortened list: what they register comes to its end, and what they flag stays on it
  for the next sweep. Those that were taken off are out of their reach. Nobody finds them by their
  handles, nothing is offered to them, and no flag of theirs can change any more; so each is told of
  exactly the devices that it had when the sweep started.
-/

namespace PlugWatch

/-! ## Farewells -/

/-- What a direct call tells, and whom. -/
def topic (x : Nat × Call) : Nat × Change × Device :=
  (x.1, x.2.change, x.2.device)

/-- What a registration is told when it is reclaimed: that each of its devices has left, in the order
    that it has, if it asks for removals. -/
def Entry.farewells {β : Type} [Bus β] (e : Entry β) (i : Nat) : List (Nat × Change × Device) :=
  if e.filter.wants .left then e.parting.map fun d => (i, .left, d) else []

namespace Registry

open Walk

variable {β : Type} [Bus β] {p : Nat → Prop} {r r' r'' s : Registry β} {e : Entry β} {i : Nat}
  {is : List Nat} {ts ts' : List (Nat × Change × Device)} {cs : List (Nat × Call)} {b : Bool}
  {hs : List Happening}

/-- What the registration at a place is told when it is reclaimed. -/
def farewells (r : Registry β) (i : Nat) : List (Nat × Change × Device) :=
  (r.entries[i]?).toList.flatMap (·.farewells i)

/-- What becomes of a walk that is to tell some registrations `ts`: it tells them directly, and all
    calls return; or it calls one of them, whose callback does not return. -/
def Bids (is : List Nat) (ts : List (Nat × Change × Device)) (r r' : Registry β) : Bool → Prop
  | true => ∃ cs, Nested cs r r' ∧ cs.map topic = ts
  | false => ∃ i ∈ is, ∃ d hs, r'.history.toList = r.history.toList ++ hs ∧
      .called i .left d ∈ hs ∧ r'.Engaged i .left d

namespace Bids

/-- What a walk tells first. -/
theorem after (h : Bids is ts' r' r'' b) (hn : Nested cs r r') (hcs : cs.map topic = ts) :
    Bids is (ts ++ ts') r r'' b := by
  cases b with
  | true =>
    obtain ⟨cs', hn', hcs'⟩ := h
    exact ⟨cs ++ cs', hn.trans hn', by rw [List.map_append, hcs, hcs']⟩
  | false =>
    obtain ⟨i, hi, d, hs, hh, hd, he⟩ := h
    obtain ⟨hs', hh', -⟩ := hn
    exact ⟨i, hi, d, hs' ++ hs, by rw [hh, hh', List.append_assoc], by simp [hd], he⟩

theorem log (h : Bids is ts r r' true) (level : LogLevel) (message : String) :
    Bids is ts r (r'.log level message) true := by
  obtain ⟨cs, hn, hcs⟩ := h
  exact ⟨cs, hn.before (.log r' level message), hcs⟩

/-- If a walk does not return, it does not matter what it was to tell. -/
theorem halted {is' : List Nat} (h : Bids is ts r r' false) (his : ∀ i ∈ is, i ∈ is') :
    Bids is' ts' r r' false := by
  obtain ⟨i, hi, hstuck⟩ := h
  exact ⟨i, his i hi, hstuck⟩

end Bids

/-- A registration that is reclaimed is told of the devices one by one. -/
theorem release_bids (e : Entry β) (ds : List Device) (hlt : i < r.entries.size) :
    (release i e ds).Ends (fun o r' => Bids [i] (ds.map fun d => (i, .left, d)) r r' o.isSome)
      r := by
  induction ds generalizing r with
  | nil => exact ⟨[], .of_same rfl, rfl⟩
  | cons d ds ih =>
    have hlt' : i < (r.enter i .left d).entries.size := by simpa [enter] using hlt
    apply release_cons_ends _ rfl
    apply ((tame_run e.onLeft _ d _).and (run_returns (e.onLeft _ d) _)).mono
    intro o s hs
    obtain ⟨hm, hreturns⟩ := hs
    cases o with
    | none =>
      obtain ⟨xs, hxs⟩ := hm.news
      have hh : s.history.toList = r.history.toList ++ .called i .left d :: xs := by
        rw [← hxs, enter, history_record, history_update, List.append_assoc]
        rfl
      exact ⟨i, by simp, d, _, hh, by simp, (engaged_enter r i .left d).of_moves hlt' hm⟩
    | some v =>
      obtain ⟨cs, hn⟩ := hreturns rfl
      have hsize : i < (s.record (.answered i .left d v)).entries.size :=
        Nat.lt_of_lt_of_le hlt' hm.spares.size_le
      exact (ih hsize).mono fun _ _ h => h.after (hn.call v) rfl

theorem reclaim_bids (he : r.entries[i]? = some e)
    (hcalls : e.calls .left = e.filter.wants .left) :
    (reclaim i).Ends (fun o r' => Bids [i] (e.farewells i) r r' o.isSome) r := by
  have hlt : i < (r.update i ({ · with attached := [] })).entries.size := by
    simpa using lt_size_of_getElem? he
  have hcleared : Nested [] r (r.update i ({ · with attached := [] })) := .of_same rfl
  apply reclaim_ends (Q := fun b r' => Bids [i] (e.farewells i) r r' b)
  · intro hnone
    rw [he] at hnone
    cases hnone
  · intro e' he' hc message
    cases entry_eq he he'
    have hsilent : e.farewells i = [] := by simp [Entry.farewells, ← hcalls, hc]
    rw [hsilent]
    exact ⟨[], hcleared.before (.log _ _ message), rfl⟩
  · intro e' he' hc
    cases entry_eq he he'
    have hfarewells : e.farewells i = e.parting.map fun d => (i, .left, d) := by
      simp [Entry.farewells, ← hcalls, hc]
    rw [hfarewells]
    apply (release_bids e e.parting hlt).mono
    intro o s h message
    have hall := h.after hcleared (List.map_nil)
    cases o with
    | none => exact hall
    | some u => exact hall.log _ message

/-- Nothing happens to a registration that is not called and not held. -/
theorem Spares.unheld (hs : Spares p r r') (hi : ¬ p i) (hl : i ∉ r.listed)
    (he : r.entries[i]? = some e) : r'.entries[i]? = some e := by
  obtain ⟨f, he', hf⟩ := hs.spared i e hi he
  rw [he', hf hl]

theorem reclaimAll_bids (hr : r.Sane) (hnodup : is.Nodup) (his : ∀ i ∈ is, r.WasReclaimed i)
    (hoff : ∀ i ∈ is, i ∉ r.listed) :
    (reclaimAll is).Ends (fun o r' => Bids is (is.flatMap r.farewells) r r' o.isSome) r := by
  induction is generalizing r with
  | nil => exact ⟨[], .of_same rfl, rfl⟩
  | cons i is ih =>
    obtain ⟨hi, hnodup'⟩ := List.nodup_cons.mp hnodup
    have hreclaimed := his i (by simp)
    obtain ⟨e, he⟩ : ∃ e, r.entries[i]? = some e := ⟨_, Array.getElem?_eq_getElem hreclaimed.1⟩
    have hcalls := ((hr.tidy i).wellFormed e he).calls_eq .left
    have hfarewells : r.farewells i = e.farewells i := by simp [farewells, he]
    have hmoves := reclaim_moves (p := fun j => j = i ∨ r.entries.size ≤ j) (fun _ => .inr)
      (.inl rfl) (Nat.le_refl _)
    rw [reclaimAll, ends_bind]
    apply (((reclaim_steps hreclaimed).and hmoves).and (reclaim_bids he hcalls)).mono
    intro o s hs
    obtain ⟨⟨hsteps, hm⟩, hbids⟩ := hs
    cases o with
    | none =>
      rw [before_none]
      exact hbids.halted (by simp)
    | some u =>
      obtain ⟨cs, hn, hcs⟩ := hbids
      have hlt (j : Nat) (hj : j ∈ is) : j < r.entries.size := (his j (by simp [hj])).1
      have hoff' : ∀ j ∈ is, j ∉ s.listed :=
        fun j hj hl => hoff j (by simp [hj]) (hm.spares.listed j hl (hlt j hj))
      -- Those that are still to be told have the devices that they had.
      have hsame : ∀ j ∈ is, s.farewells j = r.farewells j := by
        intro j hj
        have hej := Array.getElem?_eq_getElem (hlt j hj)
        have hji : j ≠ i := fun hji => hi (hji ▸ hj)
        have hcalled : ¬ (j = i ∨ r.entries.size ≤ j) := by
          have hltj := hlt j hj
          omega
        unfold farewells
        rw [hm.spares.unheld hcalled (hoff j (by simp [hj])) hej, hej]
      have hrest := ih (hsteps.sane hr) hnodup'
        (fun j hj => hsteps.wasReclaimed (his j (by simp [hj]))) hoff'
      rw [before_some]
      apply hrest.mono
      intro o t h
      have hall := h.after hn hcs
      rw [List.flatMap_cons, hfarewells, ← List.flatMap_congr hsame]
      cases o with
      | none => exact hall.halted (by simp +contextual)
      | some u => exact hall

/-! ## Sweeps -/

/-- Those that a sweep keeps on the list. -/
theorem listed_startSweep_toList (hr : r.Orderly) :
    r.startSweep.listed.toList = r.places (·.active) := by
  unfold places
  rw [listed_startSweep, Array.toList_filter, Array.toList_filter]
  apply List.filter_congr
  intro i hi
  have he := Array.getElem?_eq_getElem (hr.taken i (Array.mem_toList_iff.mp hi))
  simp [satisfies, he, Entry.active]

theorem not_listed_startSweep (hi : i ∈ r.places (·.flagged)) : i ∉ r.startSweep.listed := by
  obtain ⟨-, e, he, hf⟩ := mem_places.mp hi
  rw [listed_startSweep, Array.mem_filter]
  intro hl
  simp [satisfies, he, hf] at hl

/-- Who is listed and flagged at the end of a walk, and was not flagged when it started, was flagged
    in it. -/
theorem places_flagged_eq (hr : r.Regular) (hr' : r'.Regular)
    (hh : r'.history.toList = r.history.toList ++ hs)
    (hunset : ∀ i ∈ r'.listed, ¬ r.IsFlagged i) :
    r'.places (·.flagged) = r'.listed.toList.filter fun i => .flagged i ∈ hs := by
  unfold places
  rw [Array.toList_filter]
  apply List.filter_congr
  intro i hi
  have hflag : r'.satisfies (·.flagged) i = true ↔ .flagged i ∈ hs := by
    have hnews : .flagged i ∉ r.history.toList :=
      fun hm => hunset i (Array.mem_toList_iff.mp hi) ((hr.flags i).mp hm)
    rw [satisfies_iff, ← IsFlagged, ← hr'.flags i, hh, List.mem_append]
    exact or_iff_right hnews
  rw [Bool.eq_iff_iff, hflag, decide_eq_true_iff]

/-- What a sweep leaves in which `hs` happened. -/
structure Swept (hs : List Happening) (r r' : Registry β) : Prop where
  /-- Each of those reclaimed was told of every device that it had, in order, and nobody else was
      called directly. -/
  calls : (directCalls hs).map topic = (r.places (·.flagged)).flatMap r.farewells
  /-- The others may have been flagged at most. -/
  kept : ∀ i ∈ r.places (·.active), ∀ e, r.entries[i]? = some e → r'.Stands i e
  /-- Unless callbacks destroyed all registrations, those are held that were not flagged, and then
      those that callbacks registered. -/
  listed : (∀ is, .destroyed is ∉ hs) → Unambiguous r r' →
    r'.listed.toList = r.places (·.active) ++ r'.admittedFrom r.entries.size
  ascending : r'.entries.size < UInt32.size → r'.held.Pairwise (·.handle < ·.handle)
  /-- Those that callbacks flagged are held. -/
  flagged : r'.places (·.flagged) = r'.listed.toList.filter fun i => .flagged i ∈ hs

theorem relevant_startSweep (hi : r.startSweep.Relevant i) : r.Relevant i := by
  rcases hi with hi | hi
  · rw [listed_startSweep, Array.mem_filter] at hi
    exact .inl hi.1
  · rw [entries_startSweep] at hi
    exact .inr hi

theorem Swept.of_walk (hr : r.Regular) (hsteps : Steps r.startSweep r')
    (hm : Moves (fun i => i ∈ r.places (·.flagged) ∨ r.entries.size ≤ i) r.startSweep r')
    (hgrows : Grows r.startSweep r')
    (hbids : Bids is ((r.places (·.flagged)).flatMap r.farewells) r.startSweep r' true) :
    ∃ hs, r'.history.toList = r.history.toList ++ hs ∧ Swept hs r r' := by
  have hr' : r'.Regular := hsteps.regular hr.startSweep
  obtain ⟨cs, hn, hcs⟩ := hbids
  have hnoted : Nested [] r r.startSweep := by
    refine .of_notes (history_startSweep r) ?_
    intro x hx
    obtain ⟨i, -, rfl⟩ := List.mem_map.mp hx
    simp [Happening.Unspoken]
  obtain ⟨hs, hh, hcloses⟩ := hn.after hnoted
  obtain ⟨xs, hxs, hl⟩ := hgrows.listed
  have hnews : hs = (r.places (·.flagged)).map Happening.reclaimed ++ xs := by
    rw [hh, history_startSweep, List.append_assoc] at hxs
    exact List.append_cancel_left hxs
  refine ⟨hs, hh, ?_, ?_, ?_, fun hsize => hr'.held_ascending hsize, ?_⟩
  · rw [hcloses.directCalls_eq, hcs]
  · intro i hi e he
    have he' : r.startSweep.entries[i]? = some e := by rw [entries_startSweep, he]
    refine (Stands.of_entry he').spared hm.spares ?_
    obtain ⟨-, a, ha, hactive⟩ := mem_places.mp hi
    cases entry_eq he ha
    intro hcalled
    rcases hcalled with hswept | hle
    · obtain ⟨-, a, ha, hf⟩ := mem_places.mp hswept
      cases entry_eq he ha
      simp [Entry.active, hf] at hactive
    · exact absurd (lt_size_of_getElem? he) (Nat.not_lt.mpr hle)
  · intro hd ha
    have hlisted := hl (fun is hm => hd is (by simp [hnews, hm]))
      (ha.after fun _ => relevant_startSweep)
    rw [hlisted, listed_startSweep_toList hr.orderly, entries_startSweep]
  · refine places_flagged_eq hr hr' hh ?_
    intro i hi hf
    have hlt : i < r.startSweep.entries.size := by
      rw [entries_startSweep]
      exact lt_size_of_isFlagged hf
    have hl := hm.spares.listed i hi hlt
    obtain ⟨e, he, hf⟩ := hf
    rw [listed_startSweep, Array.mem_filter] at hl
    simp [satisfies, he, hf] at hl

/-- Those that a sweep took off the list are out of sight from then on. -/
theorem Steps.hidden (h : Steps r.startSweep s) (hi : i ∈ r.places (·.flagged)) :
    i ∉ s.listed ∧ ∀ e, s.entries[i]? = some e → Unambiguous r s → s.attached? e.handle = none := by
  have hlt : i < r.startSweep.entries.size := by
    obtain ⟨-, e, he, -⟩ := mem_places.mp hi
    simpa using lt_size_of_getElem? he
  have hnot : i ∉ s.listed := fun hl => not_listed_startSweep hi (h.listed hl hlt)
  refine ⟨hnot, ?_⟩
  intro e he ha
  have hnone : s.find? e.handle = none := by
    rw [find?, Array.find?_eq_none]
    intro j hj hnamed
    obtain ⟨e', he', hname⟩ := satisfies_iff.mp hnamed
    have hrelevant : r.Relevant j := by
      by_cases hltj : j < r.startSweep.entries.size
      · exact relevant_startSweep (.inl (h.listed hj hltj))
      · rw [entries_startSweep] at hltj
        exact .inr (Nat.not_lt.mp hltj)
    have hsame := ha j i e' e he' he hrelevant (.inl (mem_places.mp hi).1)
      (by simpa [Entry.isNamed] using hname)
    exact hnot (hsame ▸ hj)
  simp [attached?, hnone]

/-- A sweep reclaims the registrations that were flagged when it started, and counts them. It tells
    each of the devices that it has, keeps the others, and does not return only if a callback that
    it called does not. In all states that follow its start those that go are out of sight; and
    those that scripts register are admitted if their clients get handles. -/
theorem sweep_reclaims (hr : r.Reachable) :
    sweep.Ends (fun o r' => ∃ hs, r'.history.toList = r.history.toList ++ hs ∧
      Steps r.startSweep r' ∧
      match o with
      | none => ∃ i ∈ r.places (·.flagged), ∃ d, .called i .left d ∈ hs ∧ r'.Engaged i .left d
      | some n => n = (r.places (·.flagged)).length ∧ Swept hs r r') r ∧
    ∀ s : Registry β, Steps r.startSweep s →
      (∀ i ∈ r.places (·.flagged), i ∉ s.listed ∧
        ∀ e, s.entries[i]? = some e → Unambiguous r s → s.attached? e.handle = none) ∧
      ∀ g : Registration β, (register g).Ends (fun o s' => ∀ answer, o = some answer →
        (answer.isOk = true ↔
          s.entries.size < s'.entries.size ∧ s'.admitted s.entries.size = true)) s := by
  obtain ⟨b, hsession⟩ := hr.steps
  have hregular := hsession.regular (regular_fresh b)
  have hconsistent := hsession.consistent (consistent_fresh b)
  have hopening : Step r r.startSweep := .opening (.startSweep r)
  have hplaced : r.startSweep.Placed := (hopening.consistent hconsistent).placed
  refine ⟨?_, fun s hs => ⟨fun i hi => hs.hidden hi, fun g =>
    register_admitted (hs.consistent (hopening.consistent hconsistent)).placed g⟩⟩
  have hsane : r.startSweep.Sane := hopening.sane (hsession.sane (sane_fresh b))
  have hwalk : (reclaimAll (r.places (·.flagged))).Ends (fun _ r' =>
      Moves (fun i => i ∈ r.places (·.flagged) ∨ r.entries.size ≤ i) r.startSweep r')
      r.startSweep :=
    reclaimAll_moves (fun _ => .inr) (fun _ => .inl) (by simp)
  have hbids := reclaimAll_bids hsane (hregular.orderly.nodup_places (·.flagged))
    (fun i hi => wasReclaimed_startSweep hi) (fun i hi => not_listed_startSweep hi)
  have hsteps := reclaimAll_steps (r.places (·.flagged)) fun i hi => wasReclaimed_startSweep hi
  have hleads := reclaimAll_leads governs_grows (r.places (·.flagged)) r.startSweep
  apply sweep_counts
  apply (((hsteps.and hwalk).and hleads).and hbids).mono
  intro o r' h
  obtain ⟨⟨⟨hsteps, hm⟩, hgrows⟩, hbids⟩ := h
  cases o with
  | none =>
    obtain ⟨i, hi, d, hs, hh, hd, he⟩ := hbids
    rw [history_startSweep, List.append_assoc] at hh
    exact ⟨_, hh, hsteps, i, hi, d, by simp [hd], he⟩
  | some u =>
    have hsame : ∀ i ∈ r.places (·.flagged), r.startSweep.farewells i = r.farewells i := by
      intro i _
      rw [farewells, entries_startSweep, farewells]
    rw [List.flatMap_congr hsame] at hbids
    obtain ⟨hs, hh, hswept⟩ := Swept.of_walk hregular hsteps hm (hgrows rfl hplaced) hbids
    exact ⟨hs, hh, hsteps, rfl, hswept⟩

/-- Four registrations, of which the first three have a device; the first and the third are flagged,
    and the third asks for arrivals alone. When the first is reclaimed, its callback registers for
    the devices present, once while the bus tells them and once when it does not any more, and
    flags the second. -/
def departure : List (Operation MemoryBus) :=
  let silent (_ : Nat) (_ : Device) : Script MemoryBus := .finish .keep
  let first : Registration MemoryBus :=
    { Registration.listener {} with
      onLeft _ _ := .register { enumerate := true } .both silent silent fun _ =>
        .act (.bus (.setFailing true)) fun _ =>
        .register { enumerate := true } .both silent silent fun _ =>
        .act (.deregister ⟨2⟩) fun _ => .finish .keep }
  [.act (.bus (.plug (MemoryBus.sample 1))), .register first, .register (.listener {}),
    .register (.listener { changes := .only .arrived }), .dispatch (MemoryBus.sample 1) .arrived,
    .register (.listener {}), .act (.deregister ⟨1⟩), .act (.deregister ⟨3⟩)]

theorem sweep_reclaims_departure :
    ∃ (r r' : Registry MemoryBus) (hs : List Happening), r.Reachable ∧
      sweep.run r = .ok 2 r' ∧ r'.history.toList = r.history.toList ++ hs ∧ Swept hs r r' ∧
      r.places (·.flagged) = [0, 2] ∧
      (directCalls hs).map topic = [(0, .left, MemoryBus.sample 1)] ∧
      (∀ is, .destroyed is ∉ hs) ∧ Unambiguous r r' ∧ r'.entries.size = 6 ∧
      r'.listed.toList = [1, 3] ++ [4] ∧ r'.places (·.flagged) = [1] := by
  have hr := Reachable.afterAll (.fresh ({} : MemoryBus)) departure
  generalize hdef : afterAll { bus := ({} : MemoryBus) } departure = r at hr
  have hanswer : answer? sweep r = some 2 := by
    rw [← hdef]
    decide +kernel
  have hplaces : r.places (·.flagged) = [0, 2] := by
    rw [← hdef]
    decide +kernel
  obtain ⟨hsweep, -⟩ := sweep_reclaims hr
  obtain ⟨hs, hh, hsteps, hend⟩ := ends_iff_answer?.mp hsweep
  rw [hanswer] at hend
  obtain ⟨-, hswept⟩ := hend
  have hcalls := hswept.calls
  rw [hplaces] at hcalls
  have htold : [0, 2].flatMap r.farewells = [(0, .left, MemoryBus.sample 1)] := by
    rw [← hdef]
    decide +kernel
  have hquiet : (left sweep r).history.toList.any Happening.destroys = false := by
    rw [← hdef]
    decide +kernel
  have hnone : ∀ is, .destroyed is ∉ hs := by
    intro is hm
    exact List.any_eq_false.mp hquiet (.destroyed is) (by simp [hh, hm]) rfl
  have hsize : (left sweep r).entries.size = 6 := by
    rw [← hdef]
    decide +kernel
  have hleft : (left sweep r).listed.toList = [1, 3] ++ [4] ∧
      (left sweep r).places (·.flagged) = [1] := by
    rw [← hdef]
    decide +kernel
  obtain ⟨b, hsession⟩ := hr.steps
  have hregular := hsteps.regular (hsession.regular (regular_fresh b)).startSweep
  have hunambiguous : Unambiguous r (left sweep r) := .of_size hregular (by rw [hsize]; decide)
  exact ⟨r, left sweep r, hs, hr, run_of_answer? hanswer, hh, hswept, hplaces,
    hcalls.trans htold, hnone, hunambiguous, hsize, hleft⟩

end Registry

end PlugWatch
