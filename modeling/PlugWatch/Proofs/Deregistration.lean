import PlugWatch.Proofs.Books
import PlugWatch.Proofs.Course
import PlugWatch.Proofs.Destruction
import PlugWatch.Proofs.Wakeup
import Mathlib.Data.List.Count

/-! # Deregistration takes effect at once

  A registration is flagged by whoever deregisters it, or by its own arrival callback. From then on
  it is **retired**, whatever is under way at that time:

  * none of its callbacks is entered, but for the removals told by the one sweep that takes it off
    the list;
  * it gets no device, but for the one whose arrival callback is engaged, and this only if the
    callback keeps it;
  * its handle is not registered.

  That flags are noted, that nothing is reclaimed twice, and the like, is true of a **regular**
  registry; every step keeps it so.
-/

namespace PlugWatch

/-! ## What steps note -/

/-- Whether something is neither a call nor a return. -/
def Happening.Unspoken (h : Happening) : Prop :=
  (∀ i c d, h ≠ .called i c d) ∧ ∀ i c d v, h ≠ .answered i c d v

/-- While nobody is called, nothing is said. -/
theorem Happening.Within.unspoken {h : Happening} (hw : h.Within fun _ => False) : h.Unspoken := by
  cases h with
  | called i c d => exact hw.elim
  | answered i c d v => exact hw.elim
  | _ => exact ⟨by simp, by simp⟩

namespace Registry

open Walk

variable {β : Type} [Bus β] {p : Nat → Prop} {r r' r'' : Registry β} {i : Nat}

/-- What is noted in a step: nothing is said, or a callback is entered, or it returns. Only a
    reclaimed registration is called while it is flagged. -/
inductive Notes (r : Registry β) : List Happening → Prop where
  | unspoken {hs : List Happening} : (∀ h ∈ hs, h.Unspoken) → Notes r hs
  | called {i : Nat} {c : Change} {d : Device} :
      (r.IsFlagged i → c = .left ∧ .reclaimed i ∈ r.history.toList) → Notes r [.called i c d]
  | answered {i : Nat} {c : Change} {d : Device} {v : Verdict} : (c = .arrived → v = .keep) →
      Notes r [.answered i c d v]
  /-- A callback that asks to be dropped has its registration flagged, unless it is already. -/
  | dropped {i : Nat} {d : Device} {hs : List Happening} : (∀ h ∈ hs, h.Unspoken) →
      (r.IsFlagged i ∨ ∃ zs, hs = .flagged i :: zs) →
      Notes r (.answered i .arrived d .deregister :: hs)

theorem not_isFlagged {e : Entry β} (he : r.entries[i]? = some e) (hf : e.flagged = false) :
    ¬ r.IsFlagged i := by
  intro h
  obtain ⟨e', he', hf'⟩ := h
  rw [he] at he'
  cases he'
  rw [hf] at hf'
  cases hf'

theorem Opening.notes (h : Opening r r') :
    ∃ hs, r'.history.toList = r.history.toList ++ hs ∧ ∀ h ∈ hs, h.Unspoken := by
  cases h with
  | dispatched d c =>
    exact ⟨_, history_record _ _, by simp [Happening.Unspoken]⟩
  | woken hm => exact ⟨_, history_record _ _, by simp [Happening.Unspoken]⟩
  | @received d c mailbox hm =>
    exact ⟨_, history_received r mailbox d c, by simp [Happening.Unspoken]⟩
  | startSweep => exact ⟨_, history_startSweep r, by simp [Happening.Unspoken]⟩

/-- What is noted when a callback asks for its registration to be dropped. -/
theorem notes_drop (hlt : i < r.entries.size) (d : Device) :
    ∃ hs, (r.drop i d).history.toList = r.history.toList ++ hs ∧ Notes r hs := by
  let s := r.record (.answered i .arrived d .deregister)
  show ∃ hs, (s.dismiss i d.id).history.toList = _ ∧ _
  rcases s.dismiss_cases i d.id with ⟨hs, hf⟩ | ⟨e, he, -, level, message, hs⟩
  · -- It is flagged already.
    have he : r.entries[i]? = some r.entries[i] := Array.getElem?_eq_getElem hlt
    refine ⟨[.answered i .arrived d .deregister], by rw [hs, history_record], ?_⟩
    exact .dropped (by simp) (.inl ⟨_, he, hf _ he⟩)
  · obtain ⟨ls, hls, hlogs⟩ := ((s.flag i).log level message).history_wake
    refine ⟨.answered i .arrived d .deregister :: .flagged i ::
      .logged { level, source := .registry, message } :: ls, ?_, .dropped ?_ (.inr ⟨_, rfl⟩)⟩
    · rw [hs, hls, history_log, flag, history_record, history_update, history_record]
      simp
    · intro h hm
      rcases List.mem_cons.mp hm with rfl | hm
      · exact ⟨by simp, by simp⟩
      · rcases List.mem_cons.mp hm with rfl | hm
        · exact ⟨by simp, by simp⟩
        · obtain ⟨l, rfl⟩ := hlogs h hm
          exact ⟨by simp, by simp⟩

theorem StepOf.notes (h : StepOf i r r') :
    ∃ hs, r'.history.toList = r.history.toList ++ hs ∧ Notes r hs := by
  have hquiet : Notes r [] := .unspoken (by simp)
  cases h with
  | @enlist g hg hi =>
    obtain ⟨l, hh⟩ := r.history_enlist g
    exact ⟨_, hh, .unspoken (by simp [Happening.Unspoken])⟩
  | tell d he hf hx hc =>
    exact ⟨_, history_record _ _, .called fun hfl => absurd hfl (not_isFlagged he hf)⟩
  | adopt d he hf hx hc => exact ⟨[], by simp, hquiet⟩
  | keep hlt hen => exact ⟨_, history_record _ _, .answered fun _ => rfl⟩
  | drop hlt hen => exact notes_drop hlt _
  | lose he hf hd hc => exact ⟨[], by simp, hquiet⟩
  | part he hf hd hc =>
    exact ⟨_, history_record _ _, .called fun hfl => absurd hfl (not_isFlagged he hf)⟩
  | clear hr => exact ⟨[], by simp, hquiet⟩
  | release d hr => exact ⟨_, history_record _ _, .called fun _ => ⟨rfl, hr.2⟩⟩
  | finish v hlt hen => exact ⟨_, history_record _ _, .answered fun hc => by cases hc⟩
  | rollBack why he =>
    obtain ⟨l, hh⟩ := r.history_rollBack _ _ why
    exact ⟨_, hh, .unspoken (by simp [Happening.Unspoken])⟩
  | beginReplay h ds hlt =>
    obtain ⟨l, hh⟩ := r.history_beginReplay _ h ds
    exact ⟨_, hh, .unspoken (by simp [Happening.Unspoken])⟩

theorem Step.notes (h : Step r r') :
    ∃ hs, r'.history.toList = r.history.toList ++ hs ∧ Notes r hs := by
  cases h with
  | opening ho =>
    obtain ⟨hs, hh, hu⟩ := ho.notes
    exact ⟨hs, hh, .unspoken hu⟩
  | aside hm =>
    obtain ⟨hs, hh, hw⟩ := hm.spares.news
    exact ⟨hs, hh, .unspoken fun h hm => (hw h hm).unspoken⟩
  | of hs => exact hs.notes

/-! ## Regular registries -/

/-- Changing a registration, but not its flag, leaves all flags as they are. -/
theorem isFlagged_update_iff {j : Nat} {f : Entry β → Entry β}
    (hf : ∀ e, (f e).flagged = e.flagged) : (r.update j f).IsFlagged i ↔ r.IsFlagged i := by
  refine ⟨isFlagged_update hf, ?_⟩
  intro h
  obtain ⟨e, he, hfl⟩ := h
  by_cases hji : j = i
  · subst hji
    exact ⟨f e, getElem?_update_self r j f he, (hf e).trans hfl⟩
  · exact ⟨e, (getElem?_update_of_ne r j f hji).trans he, hfl⟩

/-- Flagging a registration flags it and no other. -/
theorem isFlagged_flag_iff {j : Nat} (hj : j < r.entries.size) :
    (r.flag j).IsFlagged i ↔ r.IsFlagged i ∨ i = j := by
  constructor
  · intro h
    by_cases hji : j = i
    · exact .inr hji.symm
    · exact .inl (isFlagged_flag hji h)
  · intro h
    have he := Array.getElem?_eq_getElem hj
    rcases h with ⟨e, hei, hfl⟩ | rfl
    · by_cases hji : j = i
      · subst hji
        exact ⟨_, getElem?_flag r j he, rfl⟩
      · exact ⟨e, (getElem?_update_of_ne r j _ hji).trans hei, hfl⟩
    · exact ⟨_, getElem?_flag r i he, rfl⟩

/-- Flags are noted. -/
def FlagsNoted (r : Registry β) : Prop :=
  ∀ i, .flagged i ∈ r.history.toList ↔ r.IsFlagged i

theorem Edit.flagsNoted (h : Edit p r r') (hr : r.Orderly) (hf : r.FlagsNoted) :
    r'.FlagsNoted := by
  intro i
  cases h with
  | note x hw hnot hd =>
    have hne : .flagged i ≠ x := fun heq => hnot i heq.symm
    rw [history_record, List.mem_append, List.mem_singleton, hf i]
    exact or_iff_left hne
  | alter f hp hsame => exact (hf i).trans (isFlagged_update_iff hsame).symm
  | @flag j hj =>
    have hlt : j < r.entries.size := by
      rcases hj with hj | hj
      · exact hj.2
      · exact hr.taken j hj
    rw [isFlagged_flag_iff hlt, ← hf i]
    show .flagged i ∈ ((r.update j _).record (.flagged j)).history.toList ↔ _
    rw [history_record, history_update, List.mem_append, List.mem_singleton,
      Happening.flagged.injEq]
  | list g hp =>
    have hsame : ({ r with
        entries := r.entries.push (r.newEntry g)
        listed := r.listed.push r.entries.size } : Registry β).IsFlagged i ↔ r.IsFlagged i := by
      unfold IsFlagged
      rw [Array.getElem?_push]
      split
      · next hi =>
        -- The new registration is not flagged, and there was none before.
        have hnone : r.entries[i]? = none := by simp [hi]
        simp [hnone, newEntry]
      · exact Iff.rfl
    exact (hf i).trans hsame.symm
  | unlist t => exact hf i
  | destroy =>
    rw [history_record, List.mem_append, List.mem_singleton]
    exact (or_iff_left (by simp)).trans (hf i)
  | outside bus mailbox => exact hf i

theorem Move.flagsNoted (h : Move p r r') (hr : r.Orderly) (hf : r.FlagsNoted) :
    r'.FlagsNoted := by
  have hkept : r'.Orderly ∧ r'.FlagsNoted := by
    have hedits := h.edits
    clear h
    induction hedits with
    | refl => exact ⟨hr, hf⟩
    | tail _ hedit ih => exact ⟨hedit.orderly ih.1, hedit.flagsNoted ih.1 ih.2⟩
  exact hkept.2

/-- What is true of a registry at any time. -/
structure Regular (r : Registry β) : Prop where
  orderly : r.Orderly
  flags : r.FlagsNoted
  /-- Handles count along with the places. -/
  handles : ∀ (i : Nat) (e : Entry β), r.entries[i]? = some e →
    e.handle = ⟨UInt32.ofNat (i + 1)⟩
  /-- What a sweep took off the list is there no more. -/
  reclaimed : ∀ i, .reclaimed i ∈ r.history.toList → i < r.entries.size ∧ i ∉ r.listed
  once : ∀ i, r.history.toList.count (.reclaimed i) ≤ 1

theorem regular_fresh (b : β) : Regular { bus := b } where
  orderly := (consistent_fresh b).orderly
  flags i := by simp [IsFlagged]
  handles := by simp
  reclaimed := by simp
  once := by simp

theorem Moves.not_reclaimed {hs : List Happening} (h : Moves p r r')
    (hh : r'.history.toList = r.history.toList ++ hs) (i : Nat) : .reclaimed i ∉ hs := by
  obtain ⟨hs', hh', hw⟩ := h.spares.news
  have heq : hs = hs' := List.append_cancel_left (hh.symm.trans hh')
  subst heq
  exact fun hm => hw _ hm

theorem Move.regular (h : Move p r r') (hr : r.Regular) : r'.Regular := by
  obtain ⟨hs, hh⟩ := h.news
  have hnone (i : Nat) : .reclaimed i ∉ hs := h.moves.not_reclaimed hh.symm i
  refine ⟨h.orderly hr.orderly, h.flagsNoted hr.orderly hr.flags, ?_, ?_, ?_⟩
  · intro i e' he'
    rcases h.origin he' with ⟨e, he, hages⟩ | ⟨rfl, g, -, rfl⟩
    · rw [hages.handle]
      exact hr.handles i e he
    · rfl
  · intro i hm
    rw [← hh, List.mem_append] at hm
    obtain ⟨hlt, hnl⟩ := hr.reclaimed i (hm.resolve_right (hnone i))
    exact ⟨Nat.lt_of_lt_of_le hlt h.spares.size_le, fun hl => hnl (h.spares.listed i hl hlt)⟩
  · intro i
    rw [← hh, List.count_append, List.count_eq_zero_of_not_mem (hnone i), Nat.add_zero]
    exact hr.once i

/-- Notes of other things, at the beginning of a turn. -/
theorem Regular.of_notes {hs : List Happening} (hr : r.Regular)
    (hh : r'.history.toList = r.history.toList ++ hs) (he : r'.entries = r.entries)
    (hl : r'.listed = r.listed) (hf : ∀ i, .flagged i ∉ hs) (hc : ∀ i, .reclaimed i ∉ hs) :
    r'.Regular where
  orderly := hr.orderly.of_sublist (by rw [he]) (by rw [hl])
  flags i := by
    rw [hh, List.mem_append, or_iff_left (hf i), IsFlagged, he]
    exact hr.flags i
  handles := by
    rw [he]
    exact hr.handles
  reclaimed i hm := by
    rw [hh, List.mem_append] at hm
    rw [he, hl]
    exact hr.reclaimed i (hm.resolve_right (hc i))
  once i := by
    rw [hh, List.count_append, List.count_eq_zero_of_not_mem (hc i), Nat.add_zero]
    exact hr.once i

theorem Regular.startSweep (hr : r.Regular) : r.startSweep.Regular where
  orderly := hr.orderly.of_sublist (by simp) (by simp)
  flags i := by
    have hsame : r.startSweep.IsFlagged i ↔ r.IsFlagged i := by
      unfold IsFlagged
      rw [entries_startSweep]
    rw [hsame, history_startSweep, List.mem_append, ← hr.flags i]
    exact or_iff_left (by simp)
  handles := by
    rw [entries_startSweep]
    exact hr.handles
  reclaimed i hm := by
    rw [history_startSweep, List.mem_append] at hm
    rw [entries_startSweep, listed_startSweep, Array.mem_filter]
    rcases hm with hm | hm
    · obtain ⟨hlt, hnl⟩ := hr.reclaimed i hm
      exact ⟨hlt, fun hl => hnl hl.1⟩
    · obtain ⟨j, hj, heq⟩ := List.mem_map.mp hm
      cases heq
      obtain ⟨-, e, he, hf⟩ := mem_places.mp hj
      refine ⟨lt_size_of_getElem? he, ?_⟩
      intro hl
      simp [satisfies, he, hf] at hl
  once i := by
    have hinj : Function.Injective Happening.reclaimed := fun _ _ h => Happening.reclaimed.inj h
    rw [history_startSweep, List.count_append, List.count_map_of_injective _ _ hinj]
    by_cases hi : i ∈ r.places (·.flagged)
    · -- It was on the list, so it was not reclaimed before.
      have hnone : .reclaimed i ∉ r.history.toList :=
        fun hm => (hr.reclaimed i hm).2 (mem_places.mp hi).1
      rw [List.count_eq_zero_of_not_mem hnone, Nat.zero_add]
      exact List.nodup_iff_count_le_one.mp (hr.orderly.nodup_places _) i
    · rw [List.count_eq_zero_of_not_mem hi, Nat.add_zero]
      exact hr.once i

theorem Opening.regular (h : Opening r r') (hr : r.Regular) : r'.Regular := by
  cases h with
  | dispatched d c => exact hr.of_notes (history_record _ _) rfl rfl (by simp) (by simp)
  | woken hm =>
    exact hr.of_notes (history_record _ _) rfl rfl (by simp) (by simp)
  | received hm => exact hr.of_notes (history_received r _ _ _) rfl rfl (by simp) (by simp)
  | startSweep => exact hr.startSweep

theorem Step.regular (h : Step r r') (hr : r.Regular) : r'.Regular := by
  rcases h.moves with ho | hm
  · exact ho.regular hr
  · exact hm.keeps Move.regular hr

theorem Steps.regular (h : Steps r r') (hr : r.Regular) : r'.Regular :=
  h.keeps Step.regular hr

/-! ## Calls -/

/-- While a registration is flagged, only removals are told to it, and these once it was
    reclaimed. -/
def Hushed (i : Nat) (hs : List Happening) : Prop :=
  ∀ xs c d ys, hs = xs ++ .called i c d :: ys → .flagged i ∈ xs → c = .left ∧ .reclaimed i ∈ xs

/-- Who asks to be dropped is flagged already, or at once. -/
def Obeyed (hs : List Happening) : Prop :=
  ∀ xs i d ys, hs = xs ++ .answered i .arrived d .deregister :: ys →
    .flagged i ∈ xs ∨ ∃ zs, ys = .flagged i :: zs

/-- What is noted in a step begins with what is said in it, if anything is. -/
theorem Notes.spoken {hs xs ys : List Happening} (h : Notes r hs) {x : Happening}
    (heq : hs = xs ++ x :: ys) (hx : ¬ x.Unspoken) : xs = [] := by
  have hsingle {y : Happening} {zs : List Happening} (hzs : ∀ h ∈ zs, h.Unspoken)
      (hcons : y :: zs = xs ++ x :: ys) : xs = [] := by
    cases xs with
    | nil => rfl
    | cons z xs =>
      have hm : x ∈ zs := by
        rw [(List.cons.inj hcons).2]
        simp
      exact absurd (hzs x hm) hx
  cases h with
  | unspoken hu => exact absurd (hu x (by simp [heq])) hx
  | called hc => exact hsingle (by simp) heq
  | answered hv => exact hsingle (by simp) heq
  | dropped hu hd => exact hsingle hu heq

theorem Step.hushed (h : Step r r') (hr : r.Regular) (hq : Hushed i r.history.toList) :
    Hushed i r'.history.toList := by
  obtain ⟨hs, hh, hn⟩ := h.notes
  intro xs c d ys heq hf
  rw [hh] at heq
  rcases split_append heq with ⟨zs, hzs, -⟩ | ⟨zs, hzs, hxs⟩
  · exact hq xs c d zs hzs hf
  · -- The call is the first note of the step, so all that is noted before it is old.
    have hspoken : ¬ (Happening.called i c d).Unspoken := fun hu => hu.1 i c d rfl
    have hnil := hn.spoken hzs hspoken
    subst hnil
    rw [List.append_nil] at hxs
    rw [hxs] at hf ⊢
    cases hn with
    | unspoken hu => exact absurd (hu _ (by simp [hzs])) hspoken
    | called hc =>
      cases (List.cons.inj hzs).1
      exact hc ((hr.flags i).mp hf)
    | answered hv => cases (List.cons.inj hzs).1
    | dropped hu hd => cases (List.cons.inj hzs).1

theorem Step.obeyed (h : Step r r') (hr : r.Regular) (ho : Obeyed r.history.toList) :
    Obeyed r'.history.toList := by
  obtain ⟨hs, hh, hn⟩ := h.notes
  intro xs i d ys heq
  rw [hh] at heq
  rcases split_append heq with ⟨zs, hzs, rfl⟩ | ⟨zs, hzs, hxs⟩
  · rcases ho xs i d zs hzs with hf | ⟨ws, rfl⟩
    · exact .inl hf
    · exact .inr ⟨ws ++ hs, rfl⟩
  · have hspoken : ¬ (Happening.answered i .arrived d .deregister).Unspoken :=
      fun hu => hu.2 _ _ _ _ rfl
    have hnil := hn.spoken hzs hspoken
    subst hnil
    rw [List.append_nil] at hxs
    rw [hxs]
    cases hn with
    | unspoken hu => exact absurd (hu _ (by simp [hzs])) hspoken
    | called hc => cases (List.cons.inj hzs).1
    | answered hv =>
      cases (List.cons.inj hzs).1
      cases hv rfl
    | dropped hu hd =>
      obtain ⟨hsame, rfl⟩ := List.cons.inj hzs
      cases hsame
      exact hd.imp_left (hr.flags i).mpr

/-- What has been true all along a course. -/
theorem Steps.hushed (h : Steps r r') (hr : r.Regular) (hq : Hushed i r.history.toList) :
    Hushed i r'.history.toList := by
  have hkept := h.keeps (P := fun s => s.Regular ∧ Hushed i s.history.toList)
    (fun hs hp => ⟨hs.regular hp.1, hs.hushed hp.1 hp.2⟩) ⟨hr, hq⟩
  exact hkept.2

theorem Steps.obeyed (h : Steps r r') (hr : r.Regular) (ho : Obeyed r.history.toList) :
    Obeyed r'.history.toList := by
  have hkept := h.keeps (P := fun s => s.Regular ∧ Obeyed s.history.toList)
    (fun hs hp => ⟨hs.regular hp.1, hs.obeyed hp.1 hp.2⟩) ⟨hr, ho⟩
  exact hkept.2

/-! ## Devices -/

/-- What happens between two states to a registration that is flagged at the first. -/
structure Retired (i : Nat) (hs : List Happening) (r r' : Registry β) : Prop where
  news : r'.history.toList = r.history.toList ++ hs
  /-- An arrival callback that is engaged was engaged before. -/
  engaged : ∀ d, r'.Engaged i .arrived d → r.Engaged i .arrived d
  /-- A device was there before, or is kept by the callback that was engaged. -/
  attached : ∀ e e' : Entry β, r.entries[i]? = some e → r'.entries[i]? = some e' →
    ∀ d ∈ e'.attached, d ∈ e.attached ∨ r.Engaged i .arrived d ∧ .answered i .arrived d .keep ∈ hs

theorem Retired.refl (i : Nat) (r : Registry β) : Retired i [] r r where
  news := by simp
  engaged _ h := h
  attached e e' he he' d hd := by
    rw [he] at he'
    cases he'
    exact .inl hd

theorem Retired.trans {hs hs' : List Happening} (h : Retired i hs r r') (h' : Retired i hs' r' r'')
    (hlt : i < r'.entries.size) : Retired i (hs ++ hs') r r'' where
  news := by rw [h'.news, h.news, List.append_assoc]
  engaged d hd := h.engaged d (h'.engaged d hd)
  attached e e'' he he'' d hd := by
    have he' := Array.getElem?_eq_getElem hlt
    rcases h'.attached _ e'' he' he'' d hd with hd | ⟨hen, hm⟩
    · rcases h.attached e _ he he' d hd with hd | ⟨hen, hm⟩
      · exact .inl hd
      · exact .inr ⟨hen, List.mem_append_left _ hm⟩
    · exact .inr ⟨h.engaged d hen, List.mem_append_right _ hm⟩

/-- Nothing happens to the devices of a registration that is not called. -/
theorem Retired.of_spares (h : Spares p r r') (hp : ¬ p i) : ∃ hs, Retired i hs r r' := by
  obtain ⟨hs, hh, -⟩ := h.news
  refine ⟨hs, hh, ?_, ?_⟩
  · intro d hd
    unfold Engaged at hd
    rwa [h.calls_eq hp] at hd
  · intro e e' he he' d hd
    obtain ⟨b, hb, -⟩ := h.spared i e hp he
    rw [hb] at he'
    cases he'
    exact .inl hd

/-- Nor does anything when it loses devices, as long as its arrival callback does not become
    engaged. -/
theorem Retired.of_subset {hs : List Happening} (hh : r'.history.toList = r.history.toList ++ hs)
    (hen : ∀ d, r'.Engaged i .arrived d → r.Engaged i .arrived d)
    (hsub : ∀ e e' : Entry β, r.entries[i]? = some e → r'.entries[i]? = some e' →
      e'.attached ⊆ e.attached) : Retired i hs r r' :=
  ⟨hh, hen, fun e e' he he' _ hd => .inl (hsub e e' he he' hd)⟩

/-- What is not said does not count as a call. -/
theorem noteCall_of_unspoken {h : Happening} (hu : h.Unspoken) (cs : List Call) :
    noteCall i cs h = cs := by
  cases h with
  | called j c d => exact absurd rfl (hu.1 j c d)
  | answered j c d v => exact absurd rfl (hu.2 j c d v)
  | _ => rfl

theorem calls_of_unspoken {hs : List Happening} (hh : r'.history.toList = r.history.toList ++ hs)
    (hu : ∀ h ∈ hs, h.Unspoken) : r'.calls i = r.calls i := by
  unfold calls
  rw [hh, List.foldl_append]
  clear hh
  induction hs using List.reverseRecOn with
  | nil => rfl
  | append_singleton hs x ih =>
    rw [List.foldl_concat, noteCall_of_unspoken (hu x (by simp)),
      ih fun h hm => hu h (List.mem_append_left _ hm)]

theorem calls_enlist (r : Registry β) (g : Registration β) : (r.enlist g).calls i = r.calls i := by
  obtain ⟨l, hh⟩ := r.history_enlist g
  exact calls_of_unspoken hh (by simp [Happening.Unspoken])

/-- The registration at a place stays as it is while nothing is said. -/
theorem Retired.of_unspoken {hs : List Happening} (hh : r'.history.toList = r.history.toList ++ hs)
    (hu : ∀ h ∈ hs, h.Unspoken)
    (hsub : ∀ e e' : Entry β, r.entries[i]? = some e → r'.entries[i]? = some e' →
      e'.attached ⊆ e.attached) : Retired i hs r r' := by
  refine .of_subset hh ?_ hsub
  intro d hd
  unfold Engaged at hd
  rwa [calls_of_unspoken hh hu] at hd

theorem Engaged.calls_eq {c : Change} {d : Device} (h : r.Engaged i c d) :
    ∃ cs, r.calls i = cs ++ [⟨c, d, none⟩] :=
  List.getLast?_eq_some_iff.mp h

/-- A callback that has returned is not engaged, nor is one that is told of a removal. -/
theorem not_engaged {cs : List Call} {x : Call} (h : r.calls i = cs ++ [x])
    (hx : x.change = .arrived → x.answer ≠ none) (d : Device) : ¬ r.Engaged i .arrived d := by
  intro hen
  unfold Engaged at hen
  rw [h, List.getLast?_concat] at hen
  cases hen
  exact hx rfl rfl

/-- A registration whose entry is there, with the same devices, or with fewer. -/
theorem attached_subset {e₀ e₁ : Entry β} (he₀ : r.entries[i]? = some e₀)
    (he₁ : r'.entries[i]? = some e₁) (hsub : e₁.attached ⊆ e₀.attached) (e e' : Entry β)
    (he : r.entries[i]? = some e) (he' : r'.entries[i]? = some e') :
    e'.attached ⊆ e.attached := by
  rw [he₀] at he
  rw [he₁] at he'
  cases he
  cases he'
  exact hsub

/-- What becomes of a flagged registration in its own steps. -/
theorem StepOf.retired (h : StepOf i r r') (hf : r.IsFlagged i) : ∃ hs, Retired i hs r r' := by
  obtain ⟨e, he, hset⟩ := hf
  have hunset {e' : Entry β} (he' : r.entries[i]? = some e') (hu : e'.flagged = false) : False :=
    not_isFlagged he' hu ⟨e, he, hset⟩
  -- Only three steps need more than the guard: two returns of its callback, and a removal told.
  cases h with
  | enlist hg hi =>
    have hlt := lt_size_of_getElem? he
    omega
  | tell d he' hu hx hc => exact (hunset he' hu).elim
  | adopt d he' hu hx hc => exact (hunset he' hu).elim
  | lose he' hu hd hc => exact (hunset he' hu).elim
  | part he' hu hd hc => exact (hunset he' hu).elim
  | @keep d hlt hen =>
    obtain ⟨cs, hcs⟩ := hen.calls_eq
    refine ⟨[.answered i .arrived d .keep], history_record _ _, ?_, ?_⟩
    · exact fun x hx => absurd hx (not_engaged (calls_keep hcs d) (by simp) x)
    · intro a a' ha ha' x hx
      rw [getElem?_keep r i ha d] at ha'
      cases ha'
      rcases mem_insertDevice.mp hx with rfl | hx
      · exact .inr ⟨hen, by simp⟩
      · exact .inl hx
  | @drop d hlt hen =>
    obtain ⟨cs, hcs⟩ := hen.calls_eq
    obtain ⟨hs, hh, -⟩ := r.notes_drop hlt d
    refine ⟨hs, .of_subset hh ?_ (attached_subset he (r.getElem?_drop he d) fun _ hx => hx)⟩
    exact fun x hx => absurd hx (not_engaged (calls_drop hcs d) (by simp) x)
  | clear hr =>
    have hcleared := getElem?_update_self r i ({ · with attached := [] }) he
    exact ⟨[], .of_unspoken (by simp) (by simp)
      (attached_subset he hcleared (List.nil_subset _))⟩
  | @release d hr =>
    refine ⟨[.called i .left d], .of_subset (history_record _ _) ?_
      (attached_subset he (getElem?_enter r i he .left d) fun _ hx => hx)⟩
    exact fun x hx => absurd hx (not_engaged (calls_enter r i .left d) (by simp) x)
  | @finish d v hlt hen =>
    obtain ⟨cs, hcs⟩ := hen.calls_eq
    refine ⟨[.answered i .left d v], .of_subset (history_record _ _) ?_
      (attached_subset he he fun _ hx => hx)⟩
    exact fun x hx => absurd hx (not_engaged (calls_answered hcs .left d v) (by simp) x)
  | @rollBack e' why he' =>
    obtain ⟨l, hh⟩ := r.history_rollBack i e'.handle why
    have hflag : (r.rollBack i e'.handle why).entries[i]? = some { e with flagged := true } :=
      (r.log _ _).getElem?_flag i he
    exact ⟨_, .of_unspoken hh (by simp [Happening.Unspoken])
      (attached_subset he hflag fun _ hx => hx)⟩
  | beginReplay h ds hlt =>
    obtain ⟨l, hh⟩ := r.history_beginReplay i h ds
    exact ⟨_, .of_unspoken hh (by simp [Happening.Unspoken])
      (attached_subset he he fun _ hx => hx)⟩

theorem Step.retired (h : Step r r') (hf : r.IsFlagged i) : ∃ hs, Retired i hs r r' := by
  cases h with
  | opening ho =>
    obtain ⟨e, he, -⟩ := hf
    obtain ⟨hs, hh, hu⟩ := ho.notes
    have he' : r'.entries[i]? = some e := by rw [ho.entries, he]
    exact ⟨hs, .of_unspoken hh hu (attached_subset he he' fun _ hx => hx)⟩
  | aside hm => exact Retired.of_spares hm.spares id
  | @of j _ _ hs =>
    by_cases hji : j = i
    · subst hji
      exact hs.retired hf
    · exact Retired.of_spares hs.moves.spares fun hij => hji hij.symm

/-- A flag is never taken back. -/
theorem Steps.isFlagged (h : Steps r r') (hr : r.IsFlagged i) : r'.IsFlagged i := by
  apply h.keeps (P := fun s => s.IsFlagged i) _ hr
  intro s s' hs hf
  rcases hs.moves with ho | hm
  · unfold IsFlagged
    rw [ho.entries]
    exact hf
  · exact hm.spares.isFlagged hf

theorem lt_size_of_isFlagged (h : r.IsFlagged i) : i < r.entries.size := by
  obtain ⟨e, he, -⟩ := h
  exact lt_size_of_getElem? he

theorem Steps.retired (h : Steps r r') (hf : r.IsFlagged i) : ∃ hs, Retired i hs r r' := by
  -- The induction adds a step at the end; that the flag is still there decides what it may be.
  induction h with
  | refl => exact ⟨[], .refl i r⟩
  | @tail s s' hsteps hs ih =>
    obtain ⟨hs₁, h₁⟩ := ih
    have hfs := Steps.isFlagged hsteps hf
    obtain ⟨hs₂, h₂⟩ := hs.retired hfs
    exact ⟨hs₁ ++ hs₂, h₁.trans h₂ (lt_size_of_isFlagged hfs)⟩

/-! ## Handles -/

theorem satisfies_iff {t : Entry β → Bool} :
    r.satisfies t i = true ↔ ∃ e, r.entries[i]? = some e ∧ t e = true := by
  simp [satisfies, Option.any_eq_true]

/-- As long as handles do not repeat, whoever has the same handle is at the same place. -/
theorem Regular.place_eq (hr : r.Regular) (hsize : r.entries.size ≤ UInt32.size)
    {j : Nat} {e e' : Entry β} (he : r.entries[i]? = some e) (he' : r.entries[j]? = some e')
    (hh : e.handle = e'.handle) : i = j := by
  rw [hr.handles i e he, hr.handles j e' he'] at hh
  exact handle_inj hsize (lt_size_of_getElem? he) (lt_size_of_getElem? he') hh

/-- The handle of a registration finds it while it is held, and nothing afterwards. -/
theorem Regular.find?_handle (hr : r.Regular) (hsize : r.entries.size ≤ UInt32.size)
    {e : Entry β} (he : r.entries[i]? = some e) :
    r.find? e.handle = if i ∈ r.listed then some i else none := by
  have hfound {j : Nat} (hj : r.find? e.handle = some j) : j = i := by
    obtain ⟨e', he', hname⟩ := satisfies_iff.mp (Array.find?_some hj)
    exact hr.place_eq hsize he' he (by simpa [Entry.isNamed] using hname)
  cases hfind : r.find? e.handle with
  | none =>
    have hnot : i ∉ r.listed := by
      intro hi
      have hno := Array.find?_eq_none.mp hfind i hi
      exact hno (satisfies_iff.mpr ⟨e, he, by simp [Entry.isNamed]⟩)
    rw [if_neg hnot]
  | some j =>
    have hj := hfound hfind
    subst hj
    rw [if_pos (Array.mem_of_find?_eq_some hfind)]

/-- As long as handles do not repeat, the handle of a flagged registration is not registered. -/
theorem Regular.not_isRegistered (hr : r.Regular) (hsize : r.entries.size ≤ UInt32.size)
    {e : Entry β} (he : r.entries[i]? = some e) (hf : r.IsFlagged i) :
    r.isRegistered e.handle = false := by
  rw [isRegistered, Array.any_eq_false]
  intro k hk hsat
  obtain ⟨e', he', hnamed⟩ := satisfies_iff.mp hsat
  rw [Bool.and_eq_true] at hnamed
  obtain ⟨hactive, hname⟩ := hnamed
  -- Whoever has the handle is at the same place, and that is flagged.
  have hplace := hr.place_eq hsize he' he (by simpa [Entry.isNamed] using hname)
  rw [hplace] at he'
  have hunset : e'.flagged = false := by simpa [Entry.active] using hactive
  exact not_isFlagged he' hunset hf

/-- Deregistering flags the registration that has the handle. -/
theorem Regular.flagged_deregister (hr : r.Regular) (hsize : r.entries.size ≤ UInt32.size)
    {e : Entry β} (he : r.entries[i]? = some e) (hi : i ∈ r.listed)
    (hb : Bus.hasHotplug r.bus = true) : ∃ hs, (r.deregister e.handle).history.toList =
      r.history.toList ++ .flagged i :: hs := by
  have hfound : r.find? e.handle = some i := by rw [hr.find?_handle hsize he, if_pos hi]
  unfold deregister
  rw [if_pos hb]
  simp only [hfound]
  obtain ⟨hs, hh, -⟩ := ((r.flag i).log .info _).history_wake
  rw [hh, history_log, flag, history_record, history_update, List.append_assoc, List.append_assoc]
  exact ⟨_, rfl⟩

/-! ## The sweep -/

/-- A registration is reclaimed by a sweep only, which notes it. -/
theorem turn_reclaims (t : Turn β) (hm : .reclaimed i ∈ (left t.walk r).history.toList)
    (hnone : .reclaimed i ∉ r.history.toList) : t = .sweep ∧ i ∈ r.places (·.flagged) := by
  have hmoves {s s' : Registry β} (h : Moves (fun _ => True) s s')
      (hm : .reclaimed i ∈ s'.history.toList) : .reclaimed i ∈ s.history.toList := by
    obtain ⟨hs, hh⟩ := h.news
    rw [← hh, List.mem_append] at hm
    exact hm.resolve_right (h.not_reclaimed hh.symm i)
  have hdispatch {s : Registry β} (d : Device) (c : Change) : (dispatch d c).Ends
      (fun _ s' => .reclaimed i ∈ s'.history.toList → .reclaimed i ∈ s.history.toList) s := by
    apply (dispatch_moves_any s d c).mono
    intro o s' h hm'
    have hm' := hmoves h hm'
    rw [history_record, List.mem_append] at hm'
    exact hm'.resolve_right (by simp)
  -- Every turn but a sweep is made of moves and of notes of other things.
  revert hm
  apply Ends.of_left (P := fun s => .reclaimed i ∈ s.history.toList → t = .sweep ∧ _)
  apply turn_ends t (Q := fun _ s => .reclaimed i ∈ s.history.toList → t = .sweep ∧ _)
  · intro g _
    apply (register_moves (p := fun _ => True) (fun _ _ => trivial) g (Nat.le_refl _)).mono
    exact fun _ _ h hm => absurd (hmoves h hm) hnone
  · intro a _ hm
    have h : Move (fun _ => True) r (r.perform a).2 := .perform r a
    exact absurd (hmoves h.moves hm) hnone
  · intro d c _
    exact (hdispatch d c).mono fun _ _ h hm => absurd (h hm) hnone
  · intro _
    apply next_ends (Q := fun _ s => .reclaimed i ∈ s.history.toList → t = .sweep ∧ _)
    · exact fun _ hm => absurd hm hnone
    · intro mailbox _ hm
      rw [history_record, List.mem_append] at hm
      exact absurd (hm.resolve_right (by simp)) hnone
    · intro d c mailbox _
      apply (hdispatch d c).mono
      intro o s h hm
      have hm := h hm
      rw [history_record, List.mem_append] at hm
      exact absurd (hm.resolve_right (by simp)) hnone
  · intro ht
    apply (sweep_moves_any r).mono
    intro o s h hm
    have hm := hmoves h hm
    rw [history_startSweep, List.mem_append] at hm
    obtain ⟨j, hj, heq⟩ := List.mem_map.mp (hm.resolve_left hnone)
    cases heq
    exact ⟨ht, hj⟩

/-- In a session from `r₀` to `r₁`, the registration at a place is reclaimed by the sweep of `r`,
    and all calls of it after that are made in this sweep. -/
structure SweptBy (r₀ r r₁ : Registry β) (i : Nat) : Prop where
  before : Turns r₀ r
  after : Turns (left sweep r) r₁
  swept : i ∈ r.places (·.flagged)
  calls : ∀ xs c d ys, r₁.history.toList = xs ++ .called i c d :: ys → .reclaimed i ∈ xs →
    r.history.toList <+: xs ∧ xs ++ [.called i c d] <+: (left sweep r).history.toList

/-- Who was reclaimed was reclaimed by one sweep. -/
theorem Turns.sweptBy {r₀ r₁ : Registry β} (h : Turns r₀ r₁) (hc : r₀.Consistent)
    (hr : r₀.Regular) (hnone : .reclaimed i ∉ r₀.history.toList)
    (hm : .reclaimed i ∈ r₁.history.toList) : ∃ r, SweptBy r₀ r r₁ i := by
  -- The induction is on the turns: either the last one reclaims it, or one before did.
  induction h with
  | refl => exact absurd hm hnone
  | @tail s s' hturns hturn ih =>
    obtain ⟨t, rfl⟩ := hturn
    have hcons := Turns.consistent hturns hc
    have hsteps : Steps r₀ s := by
      clear ih hm hcons
      induction hturns with
      | refl => exact .refl r₀
      | tail _ hturn ih =>
        obtain ⟨t, rfl⟩ := hturn
        exact ih.trans (Ends.of_left (turn_steps t _))
    have hreg := hsteps.regular hr
    obtain ⟨hs, hh⟩ := turn_news hcons t
    by_cases hold : .reclaimed i ∈ s.history.toList
    · -- It is off the list, so this turn does not call it.
      obtain ⟨r, hswept⟩ := ih hold
      obtain ⟨hlt, hnl⟩ := hreg.reclaimed i hold
      refine ⟨r, hswept.before, Relation.ReflTransGen.tail hswept.after ⟨t, rfl⟩, hswept.swept, ?_⟩
      intro xs c d ys heq hrec
      rw [hh] at heq
      rcases split_append heq with ⟨zs, hzs, -⟩ | ⟨zs, hzs, -⟩
      · exact hswept.calls xs c d zs hzs hrec
      · have hcalled := turn_not_called hcons t hlt (fun ha => hnl ha.listed) hh c d
        exact absurd (by simp [hzs]) hcalled
    · -- This turn reclaims it, so it is the sweep.
      obtain ⟨rfl, hplace⟩ := turn_reclaims t hm hold
      have hleft : left Turn.sweep.walk s = left sweep s := left_discard _ _
      rw [hleft] at hm hh ⊢
      refine ⟨s, hturns, Relation.ReflTransGen.refl, hplace, ?_⟩
      intro xs c d ys heq hrec
      have hxs : xs <+: (left sweep s).history.toList := ⟨_, heq.symm⟩
      refine ⟨?_, ⟨ys, by rw [heq]; simp⟩⟩
      -- What was noted before the sweep does not contain the note of it.
      rcases List.prefix_or_prefix_of_prefix ⟨hs, hh.symm⟩ hxs with hp | hp
      · exact hp
      · exact absurd (hp.subset hrec) hold

/-! ## Sessions -/

/-- What a session from `r₀` to `r₁` makes of a registration once it is flagged. -/
structure Retires (r₀ r₁ : Registry β) (i : Nat) : Prop where
  /-- Its arrival callback is not entered. -/
  arrivals : ∀ xs ys, r₁.history.toList = xs ++ .flagged i :: ys → ∀ d, .called i .arrived d ∉ ys
  /-- Its removal callback is not entered either, or by one sweep that takes it off the list. -/
  removals : ∀ xs ys, r₁.history.toList = xs ++ .flagged i :: ys → (∀ d, .called i .left d ∉ ys) ∨
    ∃ r, Turns r₀ r ∧ Turns (left sweep r) r₁ ∧ i ∈ r.places (·.flagged) ∧
      ∀ zs d ws, ys = zs ++ .called i .left d :: ws →
        r.history.toList <+: xs ++ .flagged i :: zs ∧
        xs ++ .flagged i :: zs ++ [.called i .left d] <+: (left sweep r).history.toList
  /-- No other sweep takes it off the list. -/
  once : r₁.history.toList.count (.reclaimed i) ≤ 1
  /-- Its handle is not registered, as long as handles do not repeat. -/
  unregistered : ∀ s, Steps r₀ s → .flagged i ∈ s.history.toList →
    s.entries.size ≤ UInt32.size → ∀ e, s.entries[i]? = some e → s.isRegistered e.handle = false
  /-- It gets no device but the one whose arrival callback is engaged when it is flagged, and this
      only if the callback keeps it. -/
  attached : ∀ s t, Steps r₀ s → Steps s t → .flagged i ∈ s.history.toList → ∃ hs,
    t.history.toList = s.history.toList ++ hs ∧
    ∀ e e' : Entry β, s.entries[i]? = some e → t.entries[i]? = some e' → ∀ d ∈ e'.attached,
      d ∈ e.attached ∨ s.Engaged i .arrived d ∧ .answered i .arrived d .keep ∈ hs

theorem hushed_nil (i : Nat) : Hushed i [] := by
  simp [Hushed]

theorem obeyed_nil : Obeyed [] := by
  simp [Obeyed]

/-- The calls of a registration that was flagged are those of the sweep. -/
theorem SweptBy.removals {r₀ r₁ : Registry β} (h : SweptBy r₀ r r₁ i)
    (hq : Hushed i r₁.history.toList) {xs ys : List Happening}
    (heq : r₁.history.toList = xs ++ .flagged i :: ys) (zs : List Happening) (d : Device)
    (ws : List Happening) (hys : ys = zs ++ .called i .left d :: ws) :
    r.history.toList <+: xs ++ .flagged i :: zs ∧
      xs ++ .flagged i :: zs ++ [.called i .left d] <+: (left sweep r).history.toList := by
  have hsplit : r₁.history.toList = (xs ++ .flagged i :: zs) ++ .called i .left d :: ws := by
    simp [heq, hys]
  exact h.calls _ .left d ws hsplit (hq _ .left d ws hsplit (by simp)).2

/-- In every session, whoever asks to be dropped is flagged and whoever is deregistered is flagged,
    and from then on retired. -/
theorem flagged_retires (b : β) (os : List (Operation β)) :
    Steps { bus := b } (afterAll { bus := b } os) ∧
    Obeyed (afterAll { bus := b } os).history.toList ∧
    (∀ (s : Registry β) (i : Nat) (e : Entry β), Steps { bus := b } s →
      s.entries.size ≤ UInt32.size → i ∈ s.listed → s.entries[i]? = some e →
      Bus.hasHotplug s.bus = true → ∃ hs,
        (s.deregister e.handle).history.toList = s.history.toList ++ .flagged i :: hs) ∧
    ∀ i, Retires { bus := b } (afterAll { bus := b } os) i := by
  have hsteps := afterAll_steps { bus := b } os
  have hfresh := regular_fresh b
  have hreg := hsteps.regular hfresh
  refine ⟨hsteps, hsteps.obeyed hfresh obeyed_nil, ?_, ?_⟩
  · intro s i e hs hsize hl he hb
    exact (hs.regular hfresh).flagged_deregister hsize he hl hb
  intro i
  have hq := hsteps.hushed hfresh (hushed_nil i)
  constructor
  · intro xs ys heq d hm
    obtain ⟨zs, ws, rfl⟩ := List.append_of_mem hm
    -- Only removals are told to whoever is flagged.
    have harrived := hq (xs ++ .flagged i :: zs) .arrived d ws (by simp [heq]) (by simp)
    cases harrived.1
  · intro xs ys heq
    by_cases hrec : .reclaimed i ∈ (afterAll { bus := b } os).history.toList
    · right
      obtain ⟨r, hswept⟩ := (afterAll_turns _ os).sweptBy (consistent_fresh b) hfresh
        (by simp) hrec
      exact ⟨r, hswept.before, hswept.after, hswept.swept, hswept.removals hq heq⟩
    · left
      intro d hm
      obtain ⟨zs, ws, rfl⟩ := List.append_of_mem hm
      have hsplit : (afterAll { bus := b } os).history.toList =
          (xs ++ .flagged i :: zs) ++ .called i .left d :: ws := by simp [heq]
      have hbefore := (hq _ .left d ws hsplit (by simp)).2
      exact hrec (by rw [hsplit]; exact List.mem_append_left _ hbefore)
  · exact hreg.once i
  · intro s hs hf hsize e he
    have hregs := hs.regular hfresh
    exact hregs.not_isRegistered hsize he ((hregs.flags i).mp hf)
  · intro s t hs hst hf
    have hflagged := ((hs.regular hfresh).flags i).mp hf
    obtain ⟨hs', hretired⟩ := hst.retired hflagged
    exact ⟨hs', hretired.news, hretired.attached⟩

/-- A registration that deregisters itself when it is told of the first of two devices present, and
    keeps it. -/
def resignation : List (Operation MemoryBus) :=
  let g : Registration MemoryBus :=
    { Registration.listener { enumerate := true } with
      onArrived _ _ := .act (.deregister ⟨1⟩) fun _ => .finish .keep }
  [.act (.bus (.plugAll [MemoryBus.sample 1, MemoryBus.sample 2])), .register g, .sweep]

theorem flagged_retires_resignation :
    let r := afterAll { bus := ({} : MemoryBus) } resignation
    .flagged 0 ∈ r.history.toList ∧
      .answered 0 .arrived (MemoryBus.sample 1) .keep ∈ r.history.toList ∧
      .called 0 .left (MemoryBus.sample 1) ∈ r.history.toList ∧
      Retires { bus := {} } r 0 := by
  intro r
  obtain ⟨-, -, -, hretires⟩ := flagged_retires ({} : MemoryBus) resignation
  exact ⟨by decide +kernel, by decide +kernel, by decide +kernel, hretires 0⟩

end Registry

end PlugWatch
