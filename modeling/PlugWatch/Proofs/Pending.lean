import PlugWatch.Proofs.Profile

/-! # Handling what is pending

  As long as callbacks only record, acting on what waits in the mailbox comes to this for each
  registration by itself: it hears of the changes that wait, in order, and is reclaimed if it is
  flagged then. No change waits afterwards.
-/

namespace PlugWatch

/-- The oldest message can be taken. -/
theorem Mailbox.take?_of_cons {x : Mailbox} {m : Message} {ms : List Message}
    (h : x.messages = m :: ms) : ∃ x', x.take? = some (m, x') ∧ x'.messages = ms := by
  unfold take?
  rw [h]
  cases m with
  | wakeup => exact ⟨_, rfl, rfl⟩
  | change d c => exact ⟨_, rfl, rfl⟩

namespace Registry

open Walk

variable {β : Type} [Bus β] {r : Registry β}

theorem process_orderly (ho : r.Orderly) (m : Message) :
    (process m).Ends (fun _ r' => r'.Orderly) r := by
  cases m with
  | wakeup => exact ho
  | change d c =>
    have hnoted : (r.record (.dispatched d c)).Orderly := ho.of_sublist rfl (List.Sublist.refl _)
    unfold process
    rw [ends_discard]
    exact (dispatch_moves_any r d c).mono fun _ _ hm => hm.keeps Move.orderly hnoted

theorem process_develops (hr : r.Recording) (ho : r.Orderly) (m : Message) :
    Develops (process m) (fun _ p => m.change?.toList.foldl Profile.hear p) r := by
  cases m with
  | wakeup => exact .pure () r
  | change d c => exact (dispatch_develops (hr.at _) ho d c).discard

/-- Whoever acts on as many messages as there were has acted on every change. -/
theorem processUpTo_evolves (hr : r.Recording) (ho : r.Orderly) {ms ws : List Message}
    (hms : r.mailbox.messages = ms ++ ws) (hws : ws.filterMap Message.change? = []) :
    (processUpTo ms.length).Ends (fun o r' => o.isSome = true ∧
      Evolves (fun _ p => (ms.filterMap Message.change?).foldl Profile.hear p) r r' ∧
      r'.Orderly ∧ r'.mailbox.messages.filterMap Message.change? = []) r := by
  induction ms generalizing r ws with
  | nil =>
    refine ⟨rfl, .refl r, ho, ?_⟩
    rw [hms]
    exact hws
  | cons m ms ih =>
    obtain ⟨x, htake, hx⟩ : ∃ x, r.mailbox.take? = some (m, x) ∧ x.messages = ms ++ ws :=
      Mailbox.take?_of_cons hms
    have htaken : Evolves (fun _ p => p) r ({ r with mailbox := x }.record (.taken m)) :=
      .of_notes rfl rfl rfl (history_record _ _) (by simp [Happening.Unspoken])
    have hr₁ := htaken.recording hr
    have ho₁ : ({ r with mailbox := x }.record (.taken m)).Orderly :=
      ho.of_sublist rfl (List.Sublist.refl _)
    rw [List.length_cons, processUpTo, ends_bind]
    unfold take?
    rw [ends_modifyGet, htake]
    simp only [before_some]
    refine Ends.bind ((process_develops hr₁ ho₁ m).and (process_orderly ho₁ m))
      (fun r' hq => absurd hq.1.1 (by simp)) ?_
    rintro _ r' ⟨⟨-, he, hm⟩, ho'⟩
    obtain ⟨ws', hws', hnone⟩ := hm
    have hms' : r'.mailbox.messages = ms ++ (ws ++ ws') := by
      rw [hws', mailbox_record, hx, List.append_assoc]
    rw [ends_bind]
    apply (ih (he.recording hr₁) ho' hms' (by rw [List.filterMap_append, hws, hnone]; rfl)).mono
    rintro o r'' ⟨hsome, hrest, ho'', hidle⟩
    have hall : Evolves (fun _ p => ((m :: ms).filterMap Message.change?).foldl Profile.hear p)
        r r'' := by
      refine ((htaken.trans he).trans hrest).congr ?_
      intro i p _
      cases hc : m.change? <;> simp [hc]
    cases o with
    | none => exact absurd hsome (by simp)
    | some n => exact ⟨rfl, hall, ho'', hidle⟩

/-- Every change that waits is heard of, and who is flagged is reclaimed. -/
theorem handlePending_evolves (hr : r.Recording) (ho : r.Orderly) :
    handlePending.Ends (fun o r' => o.isSome = true ∧
      Evolves (fun _ p => ((r.mailbox.messages.filterMap Message.change?).foldl Profile.hear
        p).sweep) r r' ∧ r'.mailbox.messages.filterMap Message.change? = []) r := by
  have hmessages : r.mailbox.messages = r.mailbox.messages ++ [] := (List.append_nil _).symm
  unfold handlePending
  rw [ends_bind, ends_get, before_some]
  refine Ends.bind (processUpTo_evolves hr ho hmessages rfl) (fun r' hq => absurd hq.1 (by simp)) ?_
  rintro n r' ⟨-, he, ho, hidle⟩
  refine Ends.bind (sweep_develops (he.recording hr) ho).discard
    (fun r'' hq => absurd hq.1 (by simp)) ?_
  rintro _ r'' ⟨-, he', ws, hws, hnone⟩
  refine ⟨rfl, he.trans he', ?_⟩
  rw [hws, List.filterMap_append, hidle, hnone]
  rfl

end Registry

end PlugWatch
