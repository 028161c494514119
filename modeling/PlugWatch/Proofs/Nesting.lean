import PlugWatch.Proofs.Conduct
import PlugWatch.Proofs.Deregistration

/-! # Calls within calls

  A callback may register others, whose arrival callbacks are called before it returns. So calls
  stand in one another. A call is **direct** if no other is under way when it is made: it is made
  by the walk itself and not by a script. If no callback panics, all calls of a script return before
  the script does, and within a call none of them is direct. Who is called directly by a walk is
  therefore known without looking into scripts.
-/

namespace PlugWatch

/-! ## Direct calls -/

/-- How many calls are under way, and which calls were direct. -/
structure Nest where
  depth : Nat := 0
  /-- The direct calls, each with the place of the registration. -/
  direct : List (Nat × Call) := []

/-- One more thing happens. -/
def Nest.note (n : Nest) : Happening → Nest
  | .called i c d =>
    { depth := n.depth + 1
      direct := if n.depth = 0 then n.direct ++ [(i, { change := c, device := d })] else n.direct }
  | .answered _ _ _ v =>
    { depth := n.depth - 1
      direct :=
        if n.depth = 1 then n.direct.modifyLast fun x => (x.1, { x.2 with answer := some v })
        else n.direct }
  | _ => n

/-- The direct calls among what happened, in order, each with the place of the registration. -/
def directCalls (hs : List Happening) : List (Nat × Call) :=
  (hs.foldl Nest.note {}).direct

theorem Nest.note_of_unspoken {h : Happening} (hu : h.Unspoken) (n : Nest) : n.note h = n := by
  cases h with
  | called i c d => exact absurd rfl (hu.1 i c d)
  | answered i c d v => exact absurd rfl (hu.2 i c d v)
  | _ => rfl

/-- All calls have returned, and `cs` are the direct ones. -/
structure Closes (hs : List Happening) (cs : List (Nat × Call)) : Prop where
  outside : ∀ ds, hs.foldl Nest.note ⟨0, ds⟩ = ⟨0, ds ++ cs⟩
  /-- Within a call none of them is direct. -/
  inside : ∀ n ds, hs.foldl Nest.note ⟨n + 1, ds⟩ = ⟨n + 1, ds⟩

namespace Closes

variable {hs hs' : List Happening} {cs cs' : List (Nat × Call)}

theorem directCalls_eq (h : Closes hs cs) : directCalls hs = cs := by
  unfold directCalls
  rw [h.outside, List.nil_append]

theorem append (h : Closes hs cs) (h' : Closes hs' cs') : Closes (hs ++ hs') (cs ++ cs') where
  outside ds := by rw [List.foldl_append, h.outside, h'.outside, List.append_assoc]
  inside n ds := by rw [List.foldl_append, h.inside, h'.inside]

theorem of_unspoken (hu : ∀ h ∈ hs, h.Unspoken) : Closes hs [] := by
  have hsame : ∀ n : Nest, hs.foldl Nest.note n = n := by
    induction hs with
    | nil => exact fun _ => rfl
    | cons x hs ih =>
      intro n
      rw [List.foldl_cons, Nest.note_of_unspoken (hu x (by simp))]
      exact ih (fun h hm => hu h (by simp [hm])) n
  exact ⟨fun ds => by rw [hsame, List.append_nil], fun n ds => hsame _⟩

/-- A call that returns is direct, and those made in it are not. -/
theorem call (h : Closes hs cs) (i : Nat) (c : Change) (d : Device) (v : Verdict) :
    Closes (.called i c d :: (hs ++ [.answered i c d v])) [(i, ⟨c, d, some v⟩)] where
  outside ds := by
    have henter : Nest.note ⟨0, ds⟩ (.called i c d) = ⟨1, ds ++ [(i, ⟨c, d, none⟩)]⟩ := rfl
    have hreturn : Nest.note ⟨1, ds ++ [(i, ⟨c, d, none⟩)]⟩ (.answered i c d v) =
        ⟨0, ds ++ [(i, ⟨c, d, some v⟩)]⟩ := by
      simp [Nest.note, List.modifyLast_concat]
    rw [List.foldl_cons, henter, List.foldl_append, h.inside, List.foldl_cons, hreturn,
      List.foldl_nil]
  inside n ds := by
    have henter : Nest.note ⟨n + 1, ds⟩ (.called i c d) = ⟨n + 2, ds⟩ := rfl
    have hreturn : Nest.note ⟨n + 2, ds⟩ (.answered i c d v) = ⟨n + 1, ds⟩ := by
      simp [Nest.note]
    rw [List.foldl_cons, henter, List.foldl_append, h.inside, List.foldl_cons, hreturn,
      List.foldl_nil]

end Closes

namespace Registry

open Walk

variable {β : Type} [Bus β] {r r' r'' : Registry β} {cs cs' : List (Nat × Call)} {i : Nat}

/-! ## Between two states -/

/-- All calls made between two states have returned, and `cs` are the direct ones. -/
def Nested (cs : List (Nat × Call)) (r r' : Registry β) : Prop :=
  ∃ hs, r'.history.toList = r.history.toList ++ hs ∧ Closes hs cs

namespace Nested

theorem of_notes {hs : List Happening} (hh : r'.history.toList = r.history.toList ++ hs)
    (hu : ∀ h ∈ hs, h.Unspoken) : Nested [] r r' :=
  ⟨hs, hh, .of_unspoken hu⟩

theorem of_same (hh : r'.history = r.history) : Nested [] r r' :=
  ⟨[], by rw [hh, List.append_nil], .of_unspoken (by simp)⟩

theorem trans (h : Nested cs r r') (h' : Nested cs' r' r'') : Nested (cs ++ cs') r r'' := by
  obtain ⟨hs, hr, hc⟩ := h
  obtain ⟨hs', hr', hc'⟩ := h'
  exact ⟨hs ++ hs', by rw [hr', hr, List.append_assoc], hc.append hc'⟩

/-- What comes before without a call. -/
theorem after (h : Nested cs r' r'') (h' : Nested [] r r') : Nested cs r r'' :=
  h'.trans h

/-- What follows without a call. -/
theorem before (h : Nested cs r r') (h' : Nested [] r' r'') : Nested cs r r'' := by
  have hall := h.trans h'
  rwa [List.append_nil] at hall

/-- While nobody is called. -/
theorem of_spares (h : Spares (fun _ => False) r r') : Nested [] r r' := by
  obtain ⟨hs, hh, hw⟩ := h.news
  exact of_notes hh fun x hx => (hw x hx).unspoken

theorem log (r : Registry β) (level : LogLevel) (message : String) :
    Nested [] r (r.log level message) :=
  of_spares (.log r level message)

/-- A callback was entered and has returned. -/
theorem call {c : Change} {d : Device} (h : Nested cs (r.enter i c d) r') (v : Verdict) :
    Nested [(i, ⟨c, d, some v⟩)] r (r'.record (.answered i c d v)) := by
  obtain ⟨hs, hh, hc⟩ := h
  refine ⟨.called i c d :: (hs ++ [.answered i c d v]), ?_, hc.call i c d v⟩
  rw [history_record, hh, enter, history_record, history_update]
  simp

/-- A registration is flagged, if it was not, and the wakeup asked for. -/
theorem dismiss (r : Registry β) (i : Nat) (id : DeviceId) : Nested [] r (r.dismiss i id) := by
  obtain ⟨hs, hh, hlogs⟩ := r.history_dismiss i id
  apply of_notes hh
  intro x hx
  rcases hlogs x hx with rfl | ⟨l, rfl⟩ <;> simp [Happening.Unspoken]

end Nested

/-! ## Scripts -/

theorem Nested.enlist_enumerate (r : Registry β) (g : Registration β) :
    Nested [] r (r.enlist g).enumerate.2 := by
  obtain ⟨l, hh⟩ := r.history_enlist g
  have hlisted : Nested [] r (r.enlist g) := .of_notes hh (by simp [Happening.Unspoken])
  exact hlisted.trans (.of_spares (.enumerate _))

/-- All that scripts do in one go comes to an end. -/
theorem governs_nested : Governs fun r r' : Registry β => ∃ cs, Nested cs r r' where
  refl r := ⟨[], .of_same rfl⟩
  trans h h' := by
    obtain ⟨cs, hn⟩ := h
    obtain ⟨cs', hn'⟩ := h'
    exact ⟨cs ++ cs', hn.trans hn'⟩
  perform r a := ⟨[], .of_spares (.perform r a)⟩
  log r level message := ⟨[], .log r level message⟩
  alter r i f _ := ⟨[], .of_same rfl⟩
  dismiss r i id := ⟨[], .dismiss r i id⟩
  call h v := by
    obtain ⟨cs, hn⟩ := h
    exact ⟨_, hn.call v⟩
  listed r g _ := by
    obtain ⟨l, hh⟩ := r.history_enlist g
    exact ⟨[], .of_notes hh (by simp [Happening.Unspoken])⟩
  failed r g _ why := by
    obtain ⟨l, hh⟩ := (r.enlist g).enumerate.2.history_rollBack r.entries.size r.nextHandle why
    exact ⟨[], (Nested.enlist_enumerate r g).trans (.of_notes hh (by simp [Happening.Unspoken]))⟩
  begun r g _ ds := by
    obtain ⟨l, hh⟩ :=
      (r.enlist g).enumerate.2.history_beginReplay r.entries.size r.nextHandle ds
    exact ⟨[], (Nested.enlist_enumerate r g).trans (.of_notes hh (by simp [Happening.Unspoken]))⟩

/-- Calls that a script leads to return before the script does, however deep they are nested. -/
theorem run_returns (s : Script β) (r : Registry β) :
    Leads (fun r r' : Registry β => ∃ cs, Nested cs r r') (run s) r :=
  run_leads governs_nested s r

end Registry

end PlugWatch
