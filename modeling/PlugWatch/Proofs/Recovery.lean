import PlugWatch.Proofs.Interruption
import PlugWatch.Proofs.Reclaiming

/-! # Handling what is pending after a panic

  If a callback panics while messages are acted on, the next time that what is pending is handled
  goes on from there. The message that was being acted on is gone; those behind it wait in front of
  what callbacks wrote meanwhile, and no sweep was done. Whoever is flagged is left alone until the
  sweep at the end, and is told then of exactly the devices that it has.
-/

namespace PlugWatch

/-- Whether registrations are destroyed or messages dropped. -/
def Happening.purges : Happening → Bool
  | destroyed _ => true
  | discarded _ => true
  | _ => false

theorem not_destroyed_of_kept {hs : List Happening} (hk : ∀ x ∈ hs, x.purges = false)
    (is : List Nat) : .destroyed is ∉ hs := by
  intro hm
  cases hk _ hm

theorem not_discarded_of_kept {hs : List Happening} (hk : ∀ x ∈ hs, x.purges = false)
    (ms : List Message) : .discarded ms ∉ hs := by
  intro hm
  cases hk _ hm

namespace Registry

open Walk

variable {β : Type} [Bus β] {p : Nat → Prop} {r r' r'' s t : Registry β} {e : Entry β}
  {i k n : Nat} {d : Device} {c : Change} {is : List Nat} {hs : List Happening}
  {ws : List Message} {ts ts' : List (Nat × Change × Device)}

/-! ## The messages -/

/-- As long as nothing is dropped, the messages withdrawn are the first of those that waited. -/
theorem Flow.split (h : Flow hs ws r r') (hk : ∀ x ∈ hs, x.purges = false)
    (hn : hs.countP Happening.takes = n) (hle : n ≤ r.mailbox.size) :
    hs.flatMap Happening.withdrawn = r.mailbox.messages.take n ∧
      r'.mailbox.messages = r.mailbox.messages.drop n ++ ws := by
  have hlen : (hs.flatMap Happening.withdrawn).length = n := by
    rw [length_withdrawn (not_discarded_of_kept hk), hn]
  -- What was withdrawn and what waits are together what waited and what was written.
  have htake := congrArg (List.take n) h.conserved
  have hdrop := congrArg (List.drop n) h.conserved
  rw [List.take_left' hlen, List.take_append_of_le_length hle] at htake
  rw [List.drop_left' hlen, List.drop_append_of_le_length hle] at hdrop
  exact ⟨htake, hdrop⟩

/-- What handling what is pending leaves if a callback panics while the change of `d` is dispatched,
    which waited behind `k` messages. When the walk over the registrations began, the registry was
    `s`; since then and before, `hs` happened and `ws` was written. -/
structure HaltedAt (k : Nat) (d : Device) (c : Change) (hs : List Happening) (ws : List Message)
    (r s r' : Registry β) : Prop where
  /-- The messages before it were acted on; then it was taken, and its dispatch panicked. -/
  reached : ∃ mailbox t, (processUpTo k).run r = .ok k t ∧
    t.mailbox.take? = some (.change d c, mailbox) ∧
    (dispatch d c).run ({ t with mailbox }.record (.taken (.change d c))) = .error .unwound r' ∧
    s = ({ t with mailbox }.record (.taken (.change d c))).record (.dispatched d c)
  message : r.mailbox.messages[k]? = some (.change d c)
  flow : Flow hs ws r r'
  /-- It and those before it were withdrawn. -/
  withdrawn : hs.flatMap Happening.withdrawn = r.mailbox.messages.take (k + 1)
  /-- The others wait, in order, in front of what was written. -/
  waits : r'.mailbox.messages = r.mailbox.messages.drop (k + 1) ++ ws
  /-- No sweep took place: nobody was reclaimed, and whoever was held is held, unless handles have
      come round. -/
  unswept : ∀ i, .reclaimed i ∉ hs
  held : ∀ i ∈ r.listed, r'.Unshared (r.entries.size ≤ ·) i → i ∈ r'.listed

section Stopped

/- The messages before `m` were acted on, then `m` was taken; `r'` is what acting on it left. -/
variable {m : Message} {mailbox : Mailbox} (hanswer : answer? (processUpTo k) r = some k)
  (ht : left (processUpTo k) r = t) (htake : t.mailbox.take? = some (m, mailbox))
  (hr' : left (process m) ({ t with mailbox }.record (.taken m)) = r')

include hanswer ht htake hr'

theorem stopped_flow : ∃ hs₁ hs₂ ws, hs₁.countP Happening.takes = k ∧
    hs₂.countP Happening.takes = 0 ∧ Flow (hs₁ ++ .taken m :: hs₂) ws r r' := by
  obtain ⟨hs₁, ws₁, hbefore, -, hcount⟩ := ends_iff_answer?.mp (processUpTo_flow k r)
  obtain ⟨hs₂, ws₂, hafter, hnone⟩ := ends_iff_answer?.mp
    (process_flow m ({ t with mailbox }.record (.taken m)))
  rw [ht] at hbefore
  rw [hr'] at hafter
  have hflow := (hbefore.trans (.taken htake)).trans hafter
  rw [List.append_assoc] at hflow
  exact ⟨hs₁, hs₂, _, (hcount k hanswer).1.symm, hnone, hflow⟩

/-- The message that was stopped at and those before it are withdrawn, and the others wait. -/
theorem stopped_messages (hlt : k < r.mailbox.size)
    (hh : r'.history.toList = r.history.toList ++ hs) (hk : ∀ x ∈ hs, x.purges = false) :
    ∃ ws, Flow hs ws r r' ∧ r.mailbox.messages[k]? = some m ∧
      hs.flatMap Happening.withdrawn = r.mailbox.messages.take (k + 1) ∧
      r'.mailbox.messages = r.mailbox.messages.drop (k + 1) ++ ws := by
  obtain ⟨hs₁, hs₂, ws, hfirst, hsecond, hflow⟩ := stopped_flow hanswer ht htake hr'
  have hsplit : hs₁ ++ .taken m :: hs₂ = hs :=
    List.append_cancel_left (hflow.news.symm.trans hh)
  rw [hsplit] at hflow
  have htakes : hs.countP Happening.takes = k + 1 := by
    have hone : (Happening.taken m).takes = true := rfl
    rw [← hsplit, List.countP_append, List.countP_cons, hfirst, hsecond, if_pos hone]
  have hlen : (hs₁.flatMap Happening.withdrawn).length = k := by
    rw [length_withdrawn, hfirst]
    intro ms hm
    exact not_discarded_of_kept hk ms (by simp [← hsplit, hm])
  have hnext := hflow.getElem?_taken hsplit.symm
  rw [hlen, List.getElem?_append_left hlt] at hnext
  exact ⟨ws, hflow, hnext, hflow.split hk htakes hlt⟩

end Stopped

/-- If messages are not all acted on, one of them was being dispatched, and its dispatch was cut
    short. -/
theorem processUpTo_halted (hr : r.Regular) (hsane : r.Sane)
    (h : answer? (processUpTo r.mailbox.size) r = none)
    (hleft : left (processUpTo r.mailbox.size) r = r')
    (hh : r'.history.toList = r.history.toList ++ hs) (hk : ∀ x ∈ hs, x.purges = false) :
    ∃ k d c ws s before i after v, HaltedAt k d c hs ws r s r' ∧
      CutShort d c before i after v s r' := by
  obtain ⟨k, m, mailbox, t, hlt, hanswer, ht, htake, hnone, hcut⟩ := processUpTo_cut h
  rw [hleft] at hcut
  obtain ⟨ws, hflow, hmessage, hwithdrawn, hwaits⟩ :=
    stopped_messages hanswer ht htake hcut.symm hlt hh hk
  cases m with
  | wakeup => cases hnone
  | change d c =>
    generalize hs₀ : ({ t with mailbox }.record (.taken (.change d c)) : Registry β) = s₀ at *
    have hdispatch : answer? (dispatch d c) s₀ = none := by
      rwa [process, answer?_discard, Option.map_eq_none_iff] at hnone
    have hr' : left (dispatch d c) s₀ = r' := by rw [hcut, process, left_discard]
    -- The walk over the registrations begins in a state that the session passes through.
    have hacted := (processUpTo_steps k r).of_left
    rw [ht] at hacted
    have hopened : Steps t (s₀.record (.dispatched d c)) := by
      rw [← hs₀]
      exact (Step.opening (.received t htake)).steps
    have hbegun := hacted.trans hopened
    have horderly : s₀.Orderly :=
      (hbegun.regular hr).orderly.of_sublist rfl (List.Sublist.refl _)
    obtain ⟨before, i, after, v, hcutShort⟩ :=
      dispatch_cutShort horderly (hbegun.sane hsane) hdispatch
    rw [hr'] at hcutShort
    have hacts := (processUpTo_acts r.mailbox.size r).of_left
    rw [hleft] at hacts
    refine ⟨k, d, c, ws, _, before, i, after, v, ⟨⟨mailbox, t, ?_, htake, ?_, ?_⟩, hmessage, hflow,
      hwithdrawn, hwaits, hacts.unswept hs hh, ?_⟩, hcutShort⟩
    · rw [run_of_answer? hanswer, ht]
    · rw [hs₀, run_of_answer?_none hdispatch, hr']
    · rw [hs₀]
    · exact hacts.held hs hh (not_destroyed_of_kept hk)

/-! ## Farewells of one registration -/

/-- Since an earlier state the registration at a place was told `ts`, in order, and nothing else, and
    its callbacks have answered. -/
def Tells (i : Nat) (ts : List (Nat × Change × Device)) (r r' : Registry β) : Prop :=
  ∃ cs, r'.calls i = r.calls i ++ cs ∧ cs.map (fun x => topic (i, x)) = ts ∧
    ∀ x ∈ cs, x.answer.isSome = true

namespace Tells

/-- Nothing is told. -/
theorem of_calls (h : r'.calls i = r.calls i) : Tells i [] r r' :=
  ⟨[], by rw [h, List.append_nil], rfl, by simp⟩

theorem trans (h : Tells i ts r r') (h' : Tells i ts' r' r'') : Tells i (ts ++ ts') r r'' := by
  obtain ⟨cs, hcalls, htold, hanswered⟩ := h
  obtain ⟨cs', hcalls', htold', hanswered'⟩ := h'
  refine ⟨cs ++ cs', by rw [hcalls', hcalls, List.append_assoc], ?_, ?_⟩
  · rw [List.map_append, htold, htold']
  · intro x hx
    obtain hx | hx := List.mem_append.mp hx
    · exact hanswered x hx
    · exact hanswered' x hx

/-- Nothing is told before. -/
theorem after (h : Tells i ts r' r'') (hc : r'.calls i = r.calls i) : Tells i ts r r'' :=
  (of_calls hc).trans h

/-- Nothing is told afterwards. -/
theorem before (h : Tells i ts r r') (hc : r''.calls i = r'.calls i) : Tells i ts r r'' := by
  have hall := h.trans (of_calls hc)
  rwa [List.append_nil] at hall

/-- A callback was entered and has answered. -/
theorem call (hlt : i < r.entries.size)
    (hm : Moves ((r.enter i c d).entries.size ≤ ·) (r.enter i c d) s) (v : Verdict) :
    Tells i [(i, c, d)] r (s.record (.answered i c d v)) := by
  have hlt' : ¬ (r.enter i c d).entries.size ≤ i := by simpa [enter] using hlt
  have hengaged : s.calls i = r.calls i ++ [⟨c, d, none⟩] := by
    rw [hm.spares.calls_eq hlt', calls_enter]
  exact ⟨[⟨c, d, some v⟩], calls_answered hengaged c d v, rfl, by simp⟩

end Tells

theorem release_tells (e : Entry β) (ds : List Device) (hlt : i < r.entries.size) :
    (release i e ds).Ends (fun o r' => o.isSome = true →
      Tells i (ds.map fun d => (i, .left, d)) r r') r := by
  induction ds generalizing r with
  | nil => exact fun _ => .of_calls rfl
  | cons d ds ih =>
    apply release_cons_ends _ rfl
    apply (tame_run e.onLeft _ d _).mono
    intro o s hm
    cases o with
    | none => exact fun hsome => absurd hsome (by simp)
    | some v =>
      have hcall := Tells.call hlt hm v
      have hentered : i < (r.enter i .left d).entries.size := by simpa [enter] using hlt
      have hlt' : i < (s.record (.answered i .left d v)).entries.size :=
        Nat.lt_of_lt_of_le hentered hm.spares.size_le
      exact (ih hlt').mono fun _ _ h hsome => hcall.trans (h hsome)

/-- A registration that is reclaimed is told of each of its devices. -/
theorem reclaim_tells (he : r.entries[i]? = some e)
    (hcalls : e.calls .left = e.filter.wants .left) :
    (reclaim i).Ends (fun o r' => o.isSome = true → Tells i (e.farewells i) r r') r := by
  have hlt : i < (r.update i ({ · with attached := [] })).entries.size := by
    simpa using lt_size_of_getElem? he
  apply reclaim_ends (Q := fun b r' => b = true → Tells i (e.farewells i) r r')
  · intro hnone
    rw [he] at hnone
    cases hnone
  · intro e' he' hc message _
    cases entry_eq he he'
    have hsilent : e.farewells i = [] := by simp [Entry.farewells, ← hcalls, hc]
    rw [hsilent]
    exact .of_calls (by simp)
  · intro e' he' hc
    cases entry_eq he he'
    have hfarewells : e.farewells i = e.parting.map fun d => (i, .left, d) := by
      simp [Entry.farewells, ← hcalls, hc]
    rw [hfarewells]
    apply (release_tells e e.parting hlt).mono
    intro o s h message hsome
    have htold := (h hsome).after (r := r) (by simp)
    cases o with
    | none => cases hsome
    | some u => exact htold.before (calls_log s i _ message)

theorem reclaimAll_tells (hsane : r.Sane) (hnodup : is.Nodup) (his : ∀ j ∈ is, r.WasReclaimed j)
    (hoff : ∀ j ∈ is, j ∉ r.listed) (hi : i ∈ is) :
    (reclaimAll is).Ends (fun o r' => o.isSome = true → Tells i (r.farewells i) r r') r := by
  induction is generalizing r with
  | nil => cases hi
  | cons j js ih =>
    obtain ⟨hj, hnodup'⟩ := List.nodup_cons.mp hnodup
    have hmoves := reclaim_moves (p := fun k => k = j ∨ r.entries.size ≤ k) (fun _ => .inr)
      (.inl rfl) (Nat.le_refl _)
    have hlt := (his i hi).1
    have he := Array.getElem?_eq_getElem hlt
    rw [reclaimAll, ends_bind]
    by_cases hij : i = j
    · -- It is its turn; nobody calls it afterwards.
      subst hij
      have hfarewells : r.farewells i = r.entries[i].farewells i := by simp [farewells, he]
      have hcalls := ((hsane.tidy i).wellFormed _ he).calls_eq .left
      apply ((reclaim_tells he hcalls).and hmoves).mono
      intro o s h
      obtain ⟨htold, hm⟩ := h
      cases o with
      | none => exact fun hsome => absurd hsome (by simp)
      | some u =>
        rw [before_some, hfarewells]
        apply (reclaimAll_moves (p := fun k => k ∈ js ∨ s.entries.size ≤ k) (fun _ => .inr)
          (fun _ => .inl) (Nat.le_refl _)).mono
        intro o t hm' hsome
        have hle := hm.spares.size_le
        have huncalled : ¬ (i ∈ js ∨ s.entries.size ≤ i) := by
          intro hp
          obtain hp | hp := hp
          · exact hj hp
          · omega
        exact (htold rfl).before (hm'.spares.calls_eq huncalled)
    · -- Another is reclaimed first, which does nothing to this one.
      have hmem : i ∈ js := (List.mem_cons.mp hi).resolve_left hij
      have huncalled : ¬ (i = j ∨ r.entries.size ≤ i) := by omega
      apply ((reclaim_steps (his j (by simp))).and hmoves).mono
      intro o s h
      obtain ⟨hsteps, hm⟩ := h
      cases o with
      | none => exact fun hsome => absurd hsome (by simp)
      | some u =>
        have hsame : s.farewells i = r.farewells i := by
          unfold farewells
          rw [hm.spares.unheld huncalled (hoff i hi) he, he]
        have hrest := ih (hsteps.sane hsane) hnodup'
          (fun k hk => hsteps.wasReclaimed (his k (by simp [hk])))
          (fun k hk hl => hoff k (by simp [hk]) (hm.spares.listed k hl (his k (by simp [hk])).1))
          hmem
        rw [hsame] at hrest
        rw [before_some]
        exact hrest.mono fun _ _ h hsome =>
          (h hsome).after (hm.spares.calls_eq huncalled)

/-- Whoever is held and flagged when a sweep starts is told of its devices, and is not held
    afterwards. -/
theorem sweep_tells (hr : r.Regular) (hsane : r.Sane) (hi : i ∈ r.places (·.flagged)) :
    sweep.Ends (fun o r' => i ∉ r'.listed ∧ (o.isSome = true → Tells i (r.farewells i) r r')) r := by
  have hsame : r.startSweep.farewells i = r.farewells i := by
    rw [farewells, entries_startSweep, farewells]
  have hcalls : r.startSweep.calls i = r.calls i := by
    refine calls_of_unspoken (history_startSweep r) ?_
    intro x hx
    obtain ⟨j, -, rfl⟩ := List.mem_map.mp hx
    simp [Happening.Unspoken]
  have htells := reclaimAll_tells ((Step.opening (.startSweep r)).sane hsane)
    (hr.orderly.nodup_places (·.flagged)) (fun j hj => wasReclaimed_startSweep hj)
    (fun j hj => not_listed_startSweep hj) hi
  have hmoves : (reclaimAll (r.places (·.flagged))).Ends
      (fun _ r' => Moves (fun _ => True) r.startSweep r') r.startSweep :=
    reclaimAll_moves (fun _ _ => trivial) (fun _ _ => trivial) (Nat.le_refl _)
  apply sweep_ends (Q := fun b r' =>
    i ∉ r'.listed ∧ (b = true → Tells i (r.farewells i) r r'))
  apply (htells.and hmoves).mono
  intro o s h
  obtain ⟨htold, hm⟩ := h
  refine ⟨?_, fun hsome => (hsame ▸ htold hsome).after hcalls⟩
  intro hl
  have hlt := (wasReclaimed_startSweep hi).1
  exact not_listed_startSweep hi (hm.spares.listed i hl hlt)

/-! ## What is pending -/

/-- What handling what is pending comes to, if no callback panics: `n` is what it counts, `hs` is
    what happened and `ws` what was written meanwhile. -/
structure CaughtUp (n : Nat) (hs : List Happening) (ws : List Message) (t t' : Registry β) :
    Prop where
  counted : n = t.mailbox.size
  flow : Flow hs ws t t'
  /-- The messages that waited were acted on, and those that were written wait. -/
  withdrawn : hs.flatMap Happening.withdrawn = t.mailbox.messages
  waits : t'.mailbox.messages = ws
  /-- Whoever was flagged is not held any more. -/
  removed : ∀ i ∈ t.places (·.flagged), i ∉ t'.listed
  /-- It was told of each of the devices that it had, and of nothing else, unless handles have come
      round. -/
  told : ∀ i ∈ t.places (·.flagged), t'.Unshared (t.entries.size ≤ ·) i →
    Tells i (t.farewells i) t t'
  /-- The same is true of all that are flagged when the sweep starts, which includes those that were
      flagged while messages were acted on. -/
  swept : ∃ u, (processUpTo t.mailbox.size).run t = .ok n u ∧
    ∀ i ∈ u.places (·.flagged), i ∉ t'.listed ∧ Tells i (u.farewells i) u t'

theorem run_handlePending (r : Registry β) : handlePending.run r =
    (processUpTo r.mailbox.size >>= fun n => discard sweep >>= fun _ => pure n).run r := rfl

/-- A panic while messages are acted on leaves out the sweep. -/
theorem handlePending_of_none (h : answer? (processUpTo r.mailbox.size) r = none) :
    handlePending.run r = .error .unwound (left (processUpTo r.mailbox.size) r) := by
  rw [run_handlePending, ← (bind_of_none h).1]
  exact run_of_answer?_none (bind_of_none h).2

/-- If nothing panics, messages are acted on, and then flagged registrations are reclaimed. -/
theorem handlePending_of_ok (h : handlePending.run r = .ok n r') :
    ∃ u m, (processUpTo r.mailbox.size).run r = .ok n u ∧ sweep.run u = .ok m r' := by
  rw [run_handlePending, EStateM.run_bind] at h
  cases hfirst : (processUpTo r.mailbox.size).run r with
  | error panic u =>
    rw [hfirst] at h
    cases h
  | ok k u =>
    rw [hfirst] at h
    have hrest : ((sweep >>= fun _ => pure ⟨⟩ : Walk β PUnit) >>= fun _ => pure k).run u =
        .ok n r' := h
    rw [EStateM.run_bind, EStateM.run_bind] at hrest
    cases hsecond : sweep.run u with
    | error panic s =>
      rw [hsecond] at hrest
      cases hrest
    | ok m s =>
      rw [hsecond] at hrest
      cases hrest
      exact ⟨u, m, rfl, hsecond⟩

/-- Whoever is flagged when what is pending is handled, and does not lose its place on the list to a
    new registration with its handle, is flagged and held when the sweep comes. -/
theorem Acts.flagged (h : Acts r s) (hi : i ∈ r.places (·.flagged))
    (hheld : i ∈ s.listed) : i ∈ s.places (·.flagged) ∧ s.farewells i = r.farewells i := by
  obtain ⟨-, e, he, hf⟩ := mem_places.mp hi
  obtain ⟨hsame, -⟩ := h.aside i ⟨e, he, hf⟩
  refine ⟨mem_places.mpr ⟨hheld, e, by rw [hsame, he], hf⟩, ?_⟩
  rw [farewells, farewells, hsame]

/-- If nothing panics, all that waits is acted on, and whoever is flagged is told of its devices. -/
theorem handlePending_caughtUp (hr : r.Regular) (hsane : r.Sane)
    (h : handlePending.run r = .ok n r') (hh : r'.history.toList = r.history.toList ++ hs)
    (hk : ∀ x ∈ hs, x.purges = false) : ∃ ws, CaughtUp n hs ws r r' := by
  obtain ⟨u, m, hmessages, hsweep⟩ := handlePending_of_ok h
  obtain ⟨hs', ws, hflow, -, hcount⟩ := (handlePending_flow r).of_ok h
  obtain rfl : hs' = hs := List.append_cancel_left (hflow.news.symm.trans hh)
  obtain ⟨htaken, hall⟩ := hcount n rfl
  have hn : n = r.mailbox.size := hall (not_discarded_of_kept hk)
  obtain ⟨hwithdrawn, hwaits⟩ := hflow.split hk htaken.symm (Nat.le_of_eq hn)
  have hsize : r.mailbox.messages.length ≤ n := Nat.le_of_eq hn.symm
  rw [List.take_of_length_le hsize] at hwithdrawn
  rw [List.drop_eq_nil_of_le hsize, List.nil_append] at hwaits
  -- The sweep starts at `u`, from where on it calls those that are flagged.
  have hsteps := (processUpTo_steps r.mailbox.size r).of_ok hmessages
  have hacts := (processUpTo_acts r.mailbox.size r).of_ok hmessages
  have hregular := hsteps.regular hr
  have htells : ∀ i ∈ u.places (·.flagged), i ∉ r'.listed ∧ Tells i (u.farewells i) u r' := by
    intro i hi
    obtain ⟨hgone, htold⟩ := (sweep_tells hregular (hsteps.sane hsane) hi).of_ok hsweep
    exact ⟨hgone, htold rfl⟩
  obtain ⟨xs, hxs⟩ := hacts.news
  have hrest := (sweep_steps u).of_ok hsweep
  obtain ⟨ys, hys⟩ := hrest.news
  have hsplit : hs' = xs ++ ys := news_split hxs hys hh
  have hlt {i : Nat} (hi : i ∈ r.places (·.flagged)) : i < u.entries.size :=
    Nat.lt_of_lt_of_le (hr.orderly.taken i (mem_places.mp hi).1) hacts.size_le
  refine ⟨ws, hn, hflow, hwithdrawn, hwaits, ?_, ?_, u, hmessages, htells⟩
  · -- Who is held at the end is held when the sweep starts, and so it is taken off then.
    intro i hi hl
    have hheld := hrest.listed hl (hlt hi)
    exact (htells i (hacts.flagged hi hheld).1).1 hl
  · intro i hi hu
    have hbefore : u.Unshared (r.entries.size ≤ ·) i := hu.before fun j e he => hrest.ages he
    have hnone (is : List Nat) : .destroyed is ∉ xs :=
      fun hm => not_destroyed_of_kept hk is (by simp [hsplit, hm])
    have hheld := hacts.held xs hxs.symm hnone i (mem_places.mp hi).1 hbefore
    obtain ⟨hplace, hsame⟩ := hacts.flagged hi hheld
    obtain ⟨-, htold⟩ := htells i hplace
    rw [hsame] at htold
    obtain ⟨-, e, he, hf⟩ := mem_places.mp hi
    exact htold.after (hacts.aside i ⟨e, he, hf⟩).2

/-- If a callback panics while messages are acted on, the operation panics in the dispatch of one of
    them. This and those before it are gone, the others wait in front of what was written, and no
    sweep took place; and the dispatch was cut short in the turn of one registration, which does not
    have the device. The next time that what is pending is handled without a panic, be it at once or
    later in the session, all that waits then is acted on, and whoever is flagged is told once of
    each of its devices and is not held any more. -/
theorem handlePending_recovers (hr : r.Reachable)
    (h : (processUpTo r.mailbox.size).run r = .error .unwound r')
    (hh : r'.history.toList = r.history.toList ++ hs) (hk : ∀ x ∈ hs, x.purges = false) :
    handlePending.run r = .error .unwound r' ∧
    (∃ k d c ws s before i after v, HaltedAt k d c hs ws r s r' ∧
      CutShort d c before i after v s r') ∧
    ∀ (os : List (Operation β)) (n : Nat) (t' : Registry β) (hs' : List Happening),
      handlePending.run (r'.afterAll os) = .ok n t' →
      t'.history.toList = (r'.afterAll os).history.toList ++ hs' → (∀ x ∈ hs', x.purges = false) →
      ∃ ws', CaughtUp n hs' ws' (r'.afterAll os) t' := by
  obtain ⟨b, hsteps⟩ := hr.steps
  have hregular := hsteps.regular (regular_fresh b)
  have hsane := hsteps.sane (sane_fresh b)
  obtain ⟨hnone, hleft⟩ := answer?_of_error h
  have hpanic : handlePending.run r = .error .unwound r' := by
    rw [handlePending_of_none hnone, hleft]
  refine ⟨hpanic, processUpTo_halted hregular hsane hnone hleft hh hk, ?_⟩
  intro os n t' hs' ht hh' hk'
  -- What the session comes to after the panic is reachable as well.
  have hlater : Steps { bus := b } (r'.afterAll os) := by
    have hacted := (processUpTo_steps r.mailbox.size r).of_left
    rw [hleft] at hacted
    exact (hsteps.trans hacted).trans (afterAll_steps r' os)
  exact handlePending_caughtUp (hlater.regular (regular_fresh b)) (hlater.sane (sane_fresh b)) ht
    hh' hk'

/-- Four registrations with a device, of which the third is flagged, and four messages. In the third
    of them the second registration flags the fourth, announces a change and makes a fifth, whose
    callback panics in the replay. -/
def relapse : List (Operation MemoryBus) :=
  let fifth (n : Nat) (_ : Device) : Script MemoryBus := if n = 0 then .panic else .finish .keep
  let second : Registration MemoryBus :=
    { Registration.listener {} with
      onArrived n _ :=
        if n = 2 then
          .act (.deregister ⟨4⟩) fun _ => .act (.notify (MemoryBus.sample 4) .arrived) fun _ =>
          .register { enumerate := true } .both fifth (fun _ _ => .finish .keep) fun _ =>
          .finish .keep
        else .finish .keep }
  [.act (.bus (.plug (MemoryBus.sample 1))), .register (.listener {}), .register second,
    .register (.listener {}), .register (.listener {}), .dispatch (MemoryBus.sample 1) .arrived,
    .act (.deregister ⟨3⟩), .act (.notify (MemoryBus.sample 2) .arrived),
    .act (.notify (MemoryBus.sample 3) .arrived), .act (.notify (MemoryBus.sample 1) .left)]

theorem handlePending_recovers_relapse :
    ∃ (r r' t : Registry MemoryBus) (hs hs' : List Happening) (ws : List Message), r.Reachable ∧
      r.mailbox.size = 4 ∧ (processUpTo r.mailbox.size).run r = .error .unwound r' ∧
      r'.history.toList = r.history.toList ++ hs ∧ (∀ x ∈ hs, x.purges = false) ∧
      (∃ k d c ws s before i after v, HaltedAt k d c hs ws r s r' ∧
        CutShort d c before i after v s r') ∧
      r'.mailbox.messages = [.change (MemoryBus.sample 1) .left, .wakeup,
        .change (MemoryBus.sample 4) .arrived] ∧
      handlePending.run r' = .ok 3 t ∧ CaughtUp 3 hs' ws r' t ∧
      r'.places (·.flagged) = [2, 3] ∧ t.listed.toList = [0, 1, 4] := by
  have hr := Reachable.afterAll (.fresh ({} : MemoryBus)) relapse
  generalize hdef : afterAll { bus := ({} : MemoryBus) } relapse = r at hr
  have hsize : r.mailbox.size = 4 := by
    rw [← hdef]
    decide +kernel
  have hnone : answer? (processUpTo 4) r = none := by
    rw [← hdef]
    decide +kernel
  have hpanic : (processUpTo r.mailbox.size).run r = .error .unwound (left (processUpTo 4) r) := by
    rw [hsize]
    exact run_of_answer?_none hnone
  have hsecond : answer? handlePending (left (processUpTo 4) r) = some 3 := by
    rw [← hdef]
    decide +kernel
  have hmessages : (left (processUpTo 4) r).mailbox.messages =
      [.change (MemoryBus.sample 1) .left, .wakeup, .change (MemoryBus.sample 4) .arrived] := by
    rw [← hdef]
    decide +kernel
  have hplaces : (left (processUpTo 4) r).places (·.flagged) = [2, 3] := by
    rw [← hdef]
    decide +kernel
  have hheld : (left handlePending (left (processUpTo 4) r)).listed.toList = [0, 1, 4] := by
    rw [← hdef]
    decide +kernel
  have hkept : (left handlePending (left (processUpTo 4) r)).history.toList.any
      Happening.purges = false := by
    rw [← hdef]
    decide +kernel
  -- Nothing is destroyed or dropped in the first pass or the second.
  obtain ⟨hs, hh⟩ := (processUpTo_acts 4 r).of_left.news
  generalize left (processUpTo 4) r = r' at *
  have hanswer := run_of_answer? hsecond
  obtain ⟨hs', _, hflow, -⟩ := (handlePending_flow r').of_ok hanswer
  rw [hflow.news, ← hh, List.append_assoc, List.any_append, List.any_append,
    Bool.or_eq_false_iff, Bool.or_eq_false_iff] at hkept
  obtain ⟨-, hfirst, hrest⟩ := hkept
  have hk : ∀ x ∈ hs, x.purges = false := by simpa using hfirst
  have hk' : ∀ x ∈ hs', x.purges = false := by simpa using hrest
  obtain ⟨-, hhalted, hnext⟩ := handlePending_recovers hr hpanic hh.symm hk
  obtain ⟨ws, hcaught⟩ := hnext [] 3 _ hs' hanswer hflow.news hk'
  exact ⟨r, r', _, hs, hs', ws, hr, hsize, hpanic, hh.symm, hk, hhalted, hmessages, hanswer,
    hcaught, hplaces, hheld⟩

end Registry

end PlugWatch
