import PlugWatch.Proofs.Places

/-! # What moves are made of

  A move is a short series of **edits**: something is noted, one registration is changed or
  flagged, one is listed, some are taken off the list, or the bus and the mailbox change. What a
  series of moves does to a registration that it does not call can be read off them:

  * the registration is flagged exactly if its flagging is noted, and that happens only while it is
    held;
  * it is noted as destroyed only when it goes off the list, so it is flagged before that or never.

  A registration to which no more happened stands **aloof** from the walk.
-/

namespace PlugWatch

namespace Registry

variable {β : Type} [Bus β] {p q : Nat → Prop} {r r' r'' : Registry β} {i n : Nat}

/-! ## Edits -/

/-- A change to a single part of a registry, if only registrations at places with `p` are called. -/
inductive Edit (p : Nat → Prop) : Registry β → Registry β → Prop where
  /-- Something is noted that is neither a flag nor a destruction. -/
  | note (r : Registry β) (h : Happening) : h.Within p → (∀ i, h ≠ .flagged i) →
      (∀ is, h ≠ .destroyed is) → Edit p r (r.record h)
  /-- A registration is changed, but not flagged. -/
  | alter (r : Registry β) {i : Nat} (f : Entry β → Entry β) : p i →
      (∀ e, (f e).flagged = e.flagged) → Edit p r (r.update i f)
  /-- A registration is flagged that is called or held. -/
  | flag (r : Registry β) {i : Nat} : p i ∧ i < r.entries.size ∨ i ∈ r.listed → Edit p r (r.flag i)
  /-- A registration is listed. -/
  | list (r : Registry β) (g : Registration β) : p r.entries.size →
      Edit p r { r with
        entries := r.entries.push (r.newEntry g)
        listed := r.listed.push r.entries.size }
  /-- Registrations go off the list. -/
  | unlist (r : Registry β) (t : Entry β → Bool) : Edit p r (r.unlist t)
  /-- All registrations go off the list and are noted as destroyed. -/
  | destroy (r : Registry β) :
      Edit p r ({ r with listed := #[] }.record (.destroyed r.listed.toList))
  /-- The bus and the mailbox change. -/
  | outside (r : Registry β) (bus : β) (mailbox : Mailbox) :
      Edit p r { r with bus, mailbox }

/-- A series of edits. -/
def Edits (p : Nat → Prop) : Registry β → Registry β → Prop :=
  Relation.ReflTransGen (Edit p)

theorem Edit.edits (h : Edit p r r') : Edits p r r' :=
  Relation.ReflTransGen.single h

theorem Edits.refl (r : Registry β) : Edits p r r :=
  Relation.ReflTransGen.refl

theorem Edits.trans (h : Edits p r r') (h' : Edits p r' r'') : Edits p r r'' :=
  Relation.ReflTransGen.trans h h'

namespace Edits

theorem log (r : Registry β) (level : LogLevel) (message : String) :
    Edits p r (r.log level message) :=
  (Edit.note r (.logged _) trivial (by simp) (by simp)).edits

/-- Notes of the same kind in a row. -/
theorem notes {α : Type} (f : α → Happening) (hf : ∀ a, (f a).Within p ∧ (∀ i, f a ≠ .flagged i) ∧
    ∀ is, f a ≠ .destroyed is) (as : List α) (r : Registry β) :
    Edits p r { r with history := r.history ++ as.map f } := by
  induction as generalizing r with
  | nil =>
    have hsame : ({ r with history := r.history ++ [].map f } : Registry β) = r := by simp
    rw [hsame]
    exact refl r
  | cons a as ih =>
    obtain ⟨hw, hfl, hd⟩ := hf a
    -- The first note is an edit, the rest follow by induction from where it leads.
    have hrest := ih (r.record (f a))
    have hsame : ({ r.record (f a) with
        history := (r.record (f a)).history ++ as.map f } : Registry β) =
        { r with history := r.history ++ (a :: as).map f } := by simp [record]
    rw [hsame] at hrest
    exact (Edit.note r (f a) hw hfl hd).edits.trans hrest

theorem wake (r : Registry β) : Edits p r r.wake := by
  unfold Registry.wake
  split
  · next m _ => exact (Edit.outside r r.bus m).edits
  · next m _ => exact (Edit.outside r r.bus m).edits.trans (log _ _ _)

theorem deregister (r : Registry β) (h : Handle) : Edits p r (r.deregister h) := by
  rcases r.deregister_cases h with hr | ⟨level, message, hr⟩ | ⟨i, hi, level, message, hr⟩
  · rw [hr]
    exact refl r
  · rw [hr]
    exact log r level message
  · rw [hr]
    exact ((Edit.flag r (.inr hi)).edits.trans (log _ _ _)).trans (wake _)

theorem dismiss (r : Registry β) (hi : p i) (id : DeviceId) : Edits p r (r.dismiss i id) := by
  rcases r.dismiss_cases i id with ⟨hr, -⟩ | ⟨e, he, -, level, message, hr⟩
  · rw [hr]
    exact refl r
  · rw [hr]
    have hlt := lt_size_of_getElem? he
    exact ((Edit.flag r (.inl ⟨hi, hlt⟩)).edits.trans (log _ _ _)).trans (wake _)

theorem deregisterAll (r : Registry β) : Edits p r r.deregisterAll.2 := by
  rcases r.deregisterAll_cases with hr | ⟨level, message, hr⟩
  · rw [hr]
    exact (Edit.destroy r).edits
  · rw [hr]
    exact (Edit.destroy r).edits.trans (log _ _ _)

theorem teardown (r : Registry β) : Edits p r r.teardown := by
  have hnote : Edits p { r.deregisterAll.2 with mailbox := r.deregisterAll.2.mailbox.drain }
      r.teardown :=
    (Edit.note _ (.discarded _) trivial (by simp) (by simp)).edits
  exact ((deregisterAll r).trans (Edit.outside _ _ _).edits).trans hnote

theorem notify (r : Registry β) (d : Device) (c : Change) : Edits p r (r.notify d c).2 := by
  rcases r.notify_cases d c with ⟨-, hr⟩ | ⟨-, hr⟩
  · rw [hr]
    exact (Edit.outside r r.bus _).edits.trans
      (Edit.note _ (.notified d c) trivial (by simp) (by simp)).edits
  · rw [hr]
    exact refl r

theorem enumerate (r : Registry β) : Edits p r r.enumerate.2 := by
  rw [enumerate_eq]
  exact (Edit.outside r (Bus.enumerate r.bus).bus r.mailbox).edits.trans
    (notes Happening.logged (fun _ => ⟨trivial, by simp, by simp⟩) _ _)

theorem perform (r : Registry β) (a : Action β) : Edits p r (r.perform a).2 := by
  cases a with
  | deregister h => exact deregister r h
  | isRegistered h => exact refl r
  | attached h => exact refl r
  | count => exact refl r
  | deregisterAll => exact deregisterAll r
  | teardown => exact teardown r
  | notify d c => exact notify r d c
  | enumerate => exact enumerate r
  | bus c =>
    have hbus : Edits p r { r with bus := (Bus.perform c r.bus).2 } :=
      (Edit.outside r _ r.mailbox).edits
    apply hbus.trans
    show Edits p _ (recordChanges _ _)
    rw [recordChanges_eq]
    exact notes (fun x : Device × Change => Happening.changed x.1 x.2)
      (fun _ => ⟨trivial, by simp, by simp⟩) _ _
  | log e => exact (Edit.note r (.logged e) trivial (by simp) (by simp)).edits
  | print line => exact (Edit.note r (.printed line) trivial (by simp) (by simp)).edits

end Edits

theorem Move.edits (h : Move p r r') : Edits p r r' := by
  cases h with
  | @enter i c d hi hlt =>
    have hcount : ∀ e : Entry β, (e.countCall c).flagged = e.flagged := by
      intro e
      cases c <;> rfl
    exact (Edit.alter r _ hi hcount).edits.trans
      (Edit.note _ (.called i c d) hi (by simp) (by simp)).edits
  | finish d v hi hlt => exact (Edit.note r (.answered _ _ d v) hi (by simp) (by simp)).edits
  | keep d hi hlt =>
    exact (Edit.note r (.answered _ _ d .keep) hi (by simp) (by simp)).edits.trans
      (Edit.alter _ (·.attach d) hi fun _ => rfl).edits
  | drop d hi hlt =>
    exact (Edit.note r (.answered _ _ d .deregister) hi (by simp) (by simp)).edits.trans
      (Edits.dismiss _ hi _)
  | adopt d hi hlt => exact (Edit.alter r (·.attach d) hi fun _ => rfl).edits
  | detach id hi hlt => exact (Edit.alter r (·.detach id) hi fun _ => rfl).edits
  | clear hi hlt => exact (Edit.alter r ({ · with attached := [] }) hi fun _ => rfl).edits
  | enlist g hg hi =>
    exact ((Edit.list r g hi).edits.trans
      (Edit.note _ (.enlisted _) hi (by simp) (by simp)).edits).trans (Edits.log _ _ _)
  | enumerate => exact Edits.enumerate r
  | rollBack why hi he =>
    have hlt := lt_size_of_getElem? he
    exact ((Edits.log r _ _).trans (Edit.flag (r.log _ _) (.inl ⟨hi, hlt⟩)).edits).trans
      (Edit.unlist _ _).edits
  | beginReplay h ds hi hlt =>
    exact (Edit.note r (.replayed _ ds) hi (by simp) (by simp)).edits.trans (Edits.log _ _ _)
  | log level message => exact Edits.log r level message
  | perform a => exact Edits.perform r a

theorem Moves.edits (h : Moves p r r') : Edits p r r' :=
  h.relates Edits.refl Edits.trans Move.edits

/-! ## Standing aloof -/

/-- What happens while a walk that does not call a registration goes on. -/
structure Aloof (i : Nat) (hs : List Happening) (r r' : Registry β) : Prop where
  news : r'.history.toList = r.history.toList ++ hs
  /-- Nothing that it takes a call for happens to the registration. -/
  within : ∀ h ∈ hs, h.Within (· ≠ i)
  /-- It is flagged exactly if its flagging is noted. -/
  flag : ∀ e : Entry β, r.entries[i]? = some e → ∃ f,
    r'.entries[i]? = some { e with flagged := f } ∧
      (f = true ↔ e.flagged = true ∨ .flagged i ∈ hs)
  listed : i ∈ r'.listed → i ∈ r.listed
  flag_listed : .flagged i ∈ hs → i ∈ r.listed
  destroyed : ∀ is, .destroyed is ∈ hs → i ∈ is → i ∈ r.listed ∧ i ∉ r'.listed
  /-- It is not flagged once it was destroyed. -/
  order : ∀ xs ys, hs = xs ++ .flagged i :: ys → ∀ is, .destroyed is ∈ xs → i ∉ is

/-- An item of two lists in a row stands in the first or in the second. -/
theorem split_append {α : Type} {xs ys before after : List α} {y : α}
    (heq : xs ++ ys = before ++ y :: after) :
    (∃ zs, xs = before ++ y :: zs ∧ after = zs ++ ys) ∨
      ∃ zs, ys = zs ++ y :: after ∧ before = xs ++ zs := by
  rcases List.append_eq_append_iff.mp heq with ⟨zs, hbefore, hys⟩ | ⟨zs, hxs, hzs⟩
  · exact .inr ⟨zs, hys, hbefore⟩
  -- The cut is at the item or after it.
  · cases zs with
    | nil =>
      rw [List.append_nil] at hxs
      exact .inr ⟨[], hzs.symm, by simp [hxs]⟩
    | cons z zs =>
      obtain ⟨rfl, hafter⟩ := List.cons.inj hzs
      exact .inl ⟨zs, hxs, hafter⟩

/-- An item of a list stands before or after another item. -/
theorem split_around {α : Type} {xs ys before after : List α} {x y : α} (hxy : x ≠ y)
    (heq : xs ++ x :: ys = before ++ y :: after) :
    (∃ zs, xs = before ++ y :: zs ∧ after = zs ++ x :: ys) ∨
      ∃ zs, ys = zs ++ y :: after ∧ before = xs ++ x :: zs := by
  rcases split_append heq with hfirst | ⟨zs, hzs, hbefore⟩
  · exact .inl hfirst
  · cases zs with
    | nil => exact absurd (List.cons.inj hzs).1 hxy
    | cons z zs =>
      obtain ⟨rfl, hys⟩ := List.cons.inj hzs
      exact .inr ⟨zs, hys, hbefore⟩

/-- No flag follows a destruction, if none does in either part, nor in the second part one in the
    first. -/
theorem order_append {hs hs' : List Happening}
    (h : ∀ xs ys, hs = xs ++ .flagged i :: ys → ∀ is, .destroyed is ∈ xs → i ∉ is)
    (h' : ∀ xs ys, hs' = xs ++ .flagged i :: ys → ∀ is, .destroyed is ∈ xs → i ∉ is)
    (hcross : ∀ is, .destroyed is ∈ hs → i ∈ is → .flagged i ∉ hs') (xs ys : List Happening)
    (heq : hs ++ hs' = xs ++ .flagged i :: ys) (is : List Nat) (hd : .destroyed is ∈ xs) :
    i ∉ is := by
  intro hi
  rcases split_append heq with ⟨zs, hhs, -⟩ | ⟨zs, hhs', hxs⟩
  · exact h xs zs hhs is hd hi
  · -- The flag is in the second part.
    rw [hxs, List.mem_append] at hd
    rcases hd with hd | hd
    · exact hcross is hd hi (by simp [hhs'])
    · exact h' zs ys hhs' is hd hi

namespace Aloof

theorem refl (i : Nat) (r : Registry β) : Aloof i [] r r where
  news := by simp
  within := by simp
  flag e he := ⟨e.flagged, he, by simp⟩
  listed := id
  flag_listed := by simp
  destroyed := by simp
  order := by simp

theorem trans {hs hs' : List Happening} (h : Aloof i hs r r') (h' : Aloof i hs' r' r'') :
    Aloof i (hs ++ hs') r r'' where
  news := by rw [h'.news, h.news, List.append_assoc]
  within x hx := by
    rcases List.mem_append.mp hx with hx | hx
    · exact h.within x hx
    · exact h'.within x hx
  flag e he := by
    obtain ⟨f, he', hf⟩ := h.flag e he
    obtain ⟨f', he'', hf'⟩ := h'.flag _ he'
    refine ⟨f', he'', ?_⟩
    rw [hf', List.mem_append]
    show (f = true ∨ _) ↔ _
    rw [hf, or_assoc]
  listed hl := h.listed (h'.listed hl)
  flag_listed hf := by
    rcases List.mem_append.mp hf with hf | hf
    · exact h.flag_listed hf
    · exact h.listed (h'.flag_listed hf)
  destroyed is hd hi := by
    rcases List.mem_append.mp hd with hd | hd
    · obtain ⟨hl, hnl⟩ := h.destroyed is hd hi
      exact ⟨hl, fun hl' => hnl (h'.listed hl')⟩
    · obtain ⟨hl, hnl⟩ := h'.destroyed is hd hi
      exact ⟨h.listed hl, hnl⟩
  order := by
    apply order_append h.order h'.order
    intro is hd hi hf
    -- Once destroyed it is off the list, and only what is on it gets flagged.
    exact (h.destroyed is hd hi).2 (h'.flag_listed hf)

/-- A note about something else. -/
theorem of_note {x : Happening} (hh : r'.history.toList = r.history.toList ++ [x])
    (he : r'.entries = r.entries) (hl : r'.listed = r.listed) (hw : x.Within (· ≠ i))
    (hf : x ≠ .flagged i) (hd : ∀ is, x ≠ .destroyed is) : Aloof i [x] r r' where
  news := hh
  within y hy := by rwa [List.mem_singleton.mp hy]
  flag e hi := by
    refine ⟨e.flagged, he ▸ hi, ?_⟩
    have hnot : .flagged i ∉ [x] := fun hm => hf (List.mem_singleton.mp hm).symm
    simp only [hnot, or_false]
  listed hi := hl ▸ hi
  flag_listed hm := absurd (List.mem_singleton.mp hm).symm hf
  destroyed is hm := absurd (List.mem_singleton.mp hm).symm (hd is)
  order xs ys heq := by
    have hm : .flagged i ∈ [x] := by
      rw [heq]
      simp
    exact absurd (List.mem_singleton.mp hm).symm hf

/-- A change of which nothing is noted. -/
theorem of_quiet (hh : r'.history = r.history) (he : r'.entries[i]? = r.entries[i]?)
    (hl : i ∈ r'.listed → i ∈ r.listed) : Aloof i [] r r' where
  news := by rw [hh, List.append_nil]
  within := by simp
  flag e hi := ⟨e.flagged, he ▸ hi, by simp⟩
  listed := hl
  flag_listed := by simp
  destroyed := by simp
  order := by simp

end Aloof

theorem Edit.size_le (h : Edit p r r') : r.entries.size ≤ r'.entries.size := by
  cases h with
  | alter f hi hf => simp
  | flag hi => simp
  | list g hi => simp
  | _ => exact Nat.le_refl _

/-- An edit leaves aloof whoever it is not about. -/
theorem Edit.aloof (h : Edit p r r') (hi : ¬ p i) (hlt : i < r.entries.size) :
    ∃ hs, Aloof i hs r r' := by
  have hne {j : Nat} (hj : p j) : j ≠ i := fun hji => hi (hji ▸ hj)
  cases h with
  | note x hw hf hd =>
    exact ⟨[x], .of_note (by simp) rfl rfl (hw.mono fun j hj => hne hj) (hf i) hd⟩
  | alter f hj hf =>
    exact ⟨[], .of_quiet rfl (getElem?_update_of_ne r _ f (hne hj)) id⟩
  | @flag j hj =>
    by_cases hji : j = i
    · subst hji
      have hl : j ∈ r.listed := hj.resolve_left fun hpj => hi hpj.1
      refine ⟨[.flagged j], ⟨by simp [Registry.flag], by simp [Happening.Within], ?_, id,
        fun _ => hl, by simp, ?_⟩⟩
      · intro e he
        exact ⟨true, getElem?_flag r j he, by simp⟩
      · intro xs ys heq is hd
        cases xs with
        | nil => cases hd
        | cons x xs =>
          have hnil : [] = xs ++ .flagged j :: ys := (List.cons.inj heq).2
          simp at hnil
    · have hupdate : Aloof i [] r (r.update j ({ · with flagged := true })) :=
        .of_quiet rfl (getElem?_update_of_ne r j _ hji) id
      have hnote : Aloof i [.flagged j] (r.update j ({ · with flagged := true })) (r.flag j) :=
        .of_note (by simp [Registry.flag]) rfl rfl trivial (by simp [hji]) (by simp)
      exact ⟨_, hupdate.trans hnote⟩
  | list g hj =>
    refine ⟨[], .of_quiet rfl ?_ ?_⟩
    · simp [Array.getElem?_push, Nat.ne_of_lt hlt]
    · intro hl
      have hmem : i ∈ r.listed ∨ i = r.entries.size := by simpa using hl
      exact hmem.resolve_right (Nat.ne_of_lt hlt)
  | unlist t => exact ⟨[], .of_quiet rfl rfl fun hl => (Array.mem_filter.mp hl).1⟩
  | destroy =>
    -- All go off the list at once, and nobody is flagged.
    refine ⟨[.destroyed r.listed.toList], ⟨by simp, by simp [Happening.Within], ?_,
      by simp, by simp, ?_, ?_⟩⟩
    · intro e he
      exact ⟨e.flagged, he, by simp⟩
    · intro is hd hmem
      cases List.mem_singleton.mp hd
      exact ⟨by simpa using hmem, by simp⟩
    · intro xs ys heq
      have hm : Happening.flagged i ∈ [Happening.destroyed r.listed.toList] := by
        rw [heq]
        simp
      simp at hm
  | outside bus mailbox => exact ⟨[], .of_quiet rfl rfl id⟩

/-- A series of moves leaves aloof whoever it does not call. -/
theorem Moves.aloof (h : Moves p r r') (hi : ¬ p i) (hlt : i < r.entries.size) :
    ∃ hs, Aloof i hs r r' := by
  have hedits := h.edits
  clear h
  have haloof : r.entries.size ≤ r'.entries.size ∧ ∃ hs, Aloof i hs r r' := by
    induction hedits with
    | refl => exact ⟨Nat.le_refl _, [], .refl i r⟩
    | tail _ hedit ih =>
      obtain ⟨hle, hs, hs₀⟩ := ih
      obtain ⟨hs', hs₁⟩ := hedit.aloof hi (Nat.lt_of_lt_of_le hlt hle)
      exact ⟨Nat.le_trans hle hedit.size_le, hs ++ hs', hs₀.trans hs₁⟩
  exact haloof.2

/-- An edit neither lists again nor destroys whoever is not held. -/
theorem Edit.not_destroyed (h : Edit p r r') (hl : i ∉ r.listed) (hlt : i < r.entries.size) :
    i ∉ r'.listed ∧
      ∃ hs, r'.history.toList = r.history.toList ++ hs ∧ ∀ is, .destroyed is ∈ hs → i ∉ is := by
  cases h with
  | note x hw hf hnot =>
    refine ⟨hl, [x], by simp, ?_⟩
    intro is hm
    exact absurd (List.mem_singleton.mp hm).symm (hnot is)
  | alter f hj hf => exact ⟨hl, [], by simp, by simp⟩
  | @flag j hj => exact ⟨hl, [.flagged j], by simp [Registry.flag], by simp⟩
  | list g hj =>
    refine ⟨?_, [], by simp, by simp⟩
    intro hm
    have hmem : i ∈ r.listed ∨ i = r.entries.size := by simpa using hm
    rcases hmem with hm | heq
    · exact hl hm
    · omega
  | unlist t =>
    refine ⟨?_, [], by simp [Registry.unlist], by simp⟩
    intro hm
    exact hl (Array.mem_filter.mp hm).1
  | destroy =>
    refine ⟨by simp, [.destroyed r.listed.toList], by simp, ?_⟩
    intro is hm
    cases List.mem_singleton.mp hm
    simpa using hl
  | outside bus mailbox => exact ⟨hl, [], by simp, by simp⟩

/-- Whoever is not held is not destroyed by a series of moves, whether it is called or not. -/
theorem Moves.not_destroyed (h : Moves p r r') (hl : i ∉ r.listed) (hlt : i < r.entries.size) :
    ∃ hs, r'.history.toList = r.history.toList ++ hs ∧ ∀ is, .destroyed is ∈ hs → i ∉ is := by
  have hedits := h.edits
  clear h
  have hkept : i < r'.entries.size ∧ i ∉ r'.listed ∧
      ∃ hs, r'.history.toList = r.history.toList ++ hs ∧ ∀ is, .destroyed is ∈ hs → i ∉ is := by
    induction hedits with
    | refl => exact ⟨hlt, hl, [], by simp, by simp⟩
    | tail _ hedit ih =>
      -- What is off the list stays off it, so each edit starts from where the last one ended.
      obtain ⟨hlt, hl, hs, hh, hd⟩ := ih
      obtain ⟨hl', hs', hh', hd'⟩ := hedit.not_destroyed hl hlt
      refine ⟨Nat.lt_of_lt_of_le hlt hedit.size_le, hl', hs ++ hs', ?_, ?_⟩
      · rw [hh', hh, List.append_assoc]
      · intro is hm
        rcases List.mem_append.mp hm with hm | hm
        · exact hd is hm
        · exact hd' is hm
  exact hkept.2.2

end Registry

/-! ## What is known -/

/-- Whether something can have happened when there are `n` registrations. -/
def Happening.Known (n : Nat) : Happening → Prop
  | enlisted i => i < n
  | replayed i _ => i < n
  | flagged i => i < n
  | reclaimed i => i < n
  | destroyed is => ∀ i ∈ is, i < n
  | called i _ _ => i < n
  | answered i _ _ _ => i < n
  | _ => True

theorem Happening.Known.mono {m n : Nat} (hmn : m ≤ n) {h : Happening} (hh : h.Known m) :
    h.Known n := by
  cases h with
  | destroyed is => exact fun i hi => Nat.lt_of_lt_of_le (hh i hi) hmn
  | _ => first | exact trivial | exact Nat.lt_of_lt_of_le hh hmn

namespace Registry

variable {β : Type} [Bus β] {p : Nat → Prop} {r r' : Registry β}

/-- Places are listed in order, and what happened is about registrations that are there; those that
    were destroyed are not listed. -/
structure Consistent (r : Registry β) : Prop where
  orderly : r.Orderly
  known : ∀ h ∈ r.history.toList, h.Known r.entries.size
  gone : ∀ is, .destroyed is ∈ r.history.toList → ∀ i ∈ is, i < r.entries.size ∧ i ∉ r.listed

theorem Edit.orderly (h : Edit p r r') (hr : r.Orderly) : r'.Orderly := by
  cases h with
  | list g hi =>
    have henlist := hr.enlist g
    exact ⟨henlist.ascending, henlist.taken⟩
  | note h hw hf hd => exact hr.of_sublist rfl (List.Sublist.refl _)
  | alter f hi hf => exact hr.of_sublist (by simp) (List.Sublist.refl _)
  | flag hi => exact hr.of_sublist (by simp) (List.Sublist.refl _)
  | unlist t => exact hr.of_sublist rfl (by simp [Registry.unlist])
  | destroy => exact hr.of_sublist rfl (by simp)
  | outside bus mailbox => exact hr.of_sublist rfl (List.Sublist.refl _)

/-- Whatever an edit notes is about registrations that are there, or that are called. -/
theorem Edit.known (h : Edit p r r') (hr : r.Orderly) {n : Nat} (hp : ∀ i, p i → i < n)
    (hn : r'.entries.size ≤ n) (hk : ∀ h ∈ r.history.toList, h.Known n) :
    ∀ h ∈ r'.history.toList, h.Known n := by
  have hsize := h.size_le
  have hpush {s : Registry β} {x : Happening} (hs : s.history = r.history) (hx : x.Known n) :
      ∀ h ∈ (s.record x).history.toList, h.Known n := by
    intro h hh
    rw [history_record, hs, List.mem_append, List.mem_singleton] at hh
    rcases hh with hh | rfl
    · exact hk h hh
    · exact hx
  cases h with
  | note x hw hf hd =>
    apply hpush rfl
    cases x with
    | enlisted i => exact hp i hw
    | replayed i ds => exact hp i hw
    | called i c d => exact hp i hw
    | answered i c d v => exact hp i hw
    | reclaimed i => exact hw.elim
    | flagged i => exact absurd rfl (hf i)
    | destroyed is => exact absurd rfl (hd is)
    | _ => trivial
  | alter f hi hf => exact hk
  | @flag i hi =>
    -- Whoever is flagged is called or listed, and is there in both cases.
    have hlt : i < r.entries.size := by
      rcases hi with hi | hi
      · exact hi.2
      · exact hr.taken i hi
    have hflag : (Happening.flagged i).Known n := by
      show i < n
      omega
    exact hpush (s := r.update i ({ · with flagged := true })) rfl hflag
  | list g hi => exact hk
  | unlist t => exact hk
  | destroy =>
    have hdestroyed : (Happening.destroyed r.listed.toList).Known n := by
      intro i hi
      have hlt := hr.taken i (by simpa using hi)
      omega
    exact hpush (s := { r with listed := #[] }) rfl hdestroyed
  | outside bus mailbox => exact hk

/-- Whoever was destroyed is never listed again. -/
theorem Edit.gone (h : Edit p r r') (hr : r.Orderly)
    (hg : ∀ is, .destroyed is ∈ r.history.toList → ∀ i ∈ is, i < r.entries.size ∧ i ∉ r.listed) :
    ∀ is, .destroyed is ∈ r'.history.toList → ∀ i ∈ is, i < r'.entries.size ∧ i ∉ r'.listed := by
  intro is hd i hi
  cases h with
  | note x hw hf hnot =>
    rw [history_record, List.mem_append, List.mem_singleton] at hd
    exact hg is (hd.resolve_right fun heq => hnot is heq.symm) i hi
  | alter f hp hf =>
    rw [size_update]
    exact hg is hd i hi
  | @flag j hp =>
    have hd' : .destroyed is ∈ r.history.toList := by simpa [Registry.flag] using hd
    rw [size_flag]
    exact hg is hd' i hi
  | list g hp =>
    obtain ⟨hlt, hnl⟩ := hg is hd i hi
    refine ⟨by simpa using Nat.lt_succ_of_lt hlt, ?_⟩
    intro hl
    -- The one place that is listed is new.
    have hmem : i ∈ r.listed ∨ i = r.entries.size := by simpa using hl
    rcases hmem with hl | heq
    · exact hnl hl
    · omega
  | unlist t =>
    obtain ⟨hlt, hnl⟩ := hg is hd i hi
    exact ⟨hlt, fun hl => hnl (Array.mem_filter.mp hl).1⟩
  | destroy =>
    refine ⟨?_, by simp⟩
    rw [history_record, List.mem_append, List.mem_singleton] at hd
    rcases hd with hd | heq
    · exact (hg is hd i hi).1
    · cases heq
      exact hr.taken i (by simpa using hi)
  | outside bus mailbox => exact hg is hd i hi

theorem Move.consistent (h : Move p r r') (hr : r.Consistent) : r'.Consistent := by
  -- Places made by the move are known only at its end, so that is where all is measured.
  have hedits := h.bounded.edits
  have hk : ∀ h ∈ r.history.toList, h.Known r'.entries.size :=
    fun x hx => (hr.known x hx).mono h.spares.size_le
  have hall {s : Registry β} (hs : Edits (fun i => p i ∧ i < r'.entries.size) r s)
      (hle : s.entries.size ≤ r'.entries.size) : s.Orderly ∧
      (∀ h ∈ s.history.toList, h.Known r'.entries.size) ∧
      ∀ is, .destroyed is ∈ s.history.toList → ∀ i ∈ is, i < s.entries.size ∧ i ∉ s.listed := by
    induction hs with
    | refl => exact ⟨hr.orderly, hk, hr.gone⟩
    | tail _ hedit ih =>
      obtain ⟨hord, hknown, hgone⟩ := ih (Nat.le_trans hedit.size_le hle)
      exact ⟨hedit.orderly hord, hedit.known hord (fun _ hi => hi.2) hle hknown,
        hedit.gone hord hgone⟩
  obtain ⟨hord, hknown, hgone⟩ := hall hedits (Nat.le_refl _)
  exact ⟨hord, hknown, hgone⟩

/-- A note of nothing that matters here. -/
theorem Consistent.of_note (h : r.Consistent) {hs : List Happening}
    (hh : r'.history.toList = r.history.toList ++ hs) (he : r'.entries.size = r.entries.size)
    (hl : r'.listed.toList.Sublist r.listed.toList) (hk : ∀ h ∈ hs, h.Known r.entries.size)
    (hd : ∀ is, .destroyed is ∉ hs) : r'.Consistent where
  orderly := h.orderly.of_sublist he hl
  known x hx := by
    rw [hh, List.mem_append] at hx
    rw [he]
    rcases hx with hx | hx
    · exact h.known x hx
    · exact hk x hx
  gone is hx i hi := by
    rw [hh, List.mem_append] at hx
    obtain ⟨hlt, hnl⟩ := h.gone is (hx.resolve_right (hd is)) i hi
    rw [he]
    refine ⟨hlt, ?_⟩
    intro hl'
    apply hnl
    have hmem := hl.subset (Array.mem_toList_iff.mpr hl')
    exact Array.mem_toList_iff.mp hmem

theorem Moves.consistent (h : Moves p r r') (hr : r.Consistent) : r'.Consistent :=
  h.keeps Move.consistent hr

end Registry

end PlugWatch
