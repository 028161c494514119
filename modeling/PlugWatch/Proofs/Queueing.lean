import PlugWatch.Bus.Memory
import PlugWatch.Proofs.Messages
import PlugWatch.Proofs.Wakeup

/-! # Queued changes and changes dispatched

  Changes may be queued and handled together, or dispatched one by one and followed by a sweep. Both
  ways lead to the same. While the changes are handled, those still to come stand in front of
  whatever callbacks write to the mailbox; in the other way there is nothing in front.

  * A registry **lags** behind another if it is the same but for messages in front of the others in
    its mailbox. Everything done to both keeps the distance, since nobody looks at the messages.
  * A walk is **blind** if it leads registries of which one lags behind the other to such registries
    again, with the same answer. Delivery is blind as long as no callback tears the registry down.
  * Taking a change and dispatching it makes up for one message, and after the last one there is
    nothing left to make up for.
-/

namespace PlugWatch

/-! ## Lagging behind -/

/-- Whether messages were dropped. -/
def Happening.discards : Happening → Bool
  | discarded _ => true
  | _ => false

/-- Messages in front of the others. -/
def Mailbox.behind (m : Mailbox) (ms : List Message) : Mailbox :=
  { m with messages := ms ++ m.messages }

theorem Mailbox.wake_behind (m : Mailbox) (ms : List Message) :
    (m.behind ms).wake = (m.wake.1, m.wake.2.behind ms) := by
  unfold wake behind
  split
  · rfl
  · split <;> simp

theorem Mailbox.post_behind (m : Mailbox) (ms : List Message) (d : Device) (c : Change) :
    (m.behind ms).post d c = ((m.post d c).1, (m.post d c).2.behind ms) := by
  unfold post behind
  split <;> simp

namespace Registry

variable {β : Type} [Bus β] {α γ : Type} {a b : List Happening} {ms : List Message}
  {r q : Registry β}

/-- How often messages were dropped. -/
def discards (r : Registry β) : Nat :=
  r.history.toList.countP Happening.discards

/-- What happened, but for messages that were taken. -/
def doings (r : Registry β) : List Happening :=
  r.history.toList.filter (!·.takes)

theorem discards_le (h : r.history.toList <+: q.history.toList) : r.discards ≤ q.discards :=
  h.sublist.countP_le

theorem prefix_records {δ : Type} (g : δ → Happening) (xs : List δ) (r : Registry β) :
    r.history.toList <+: (xs.foldl (fun r x => r.record (g x)) r).history.toList := by
  induction xs generalizing r with
  | nil => exact List.prefix_rfl
  | cons x xs ih => exact (prefix_record r (g x)).trans (ih _)

/-- A teardown drops messages. -/
theorem discards_teardown (r : Registry β) : r.discards < r.teardown.discards := by
  have hle : r.discards ≤ r.deregisterAll.2.discards :=
    discards_le (Move.perform (p := fun _ => True) r .deregisterAll).news
  unfold teardown discards
  rw [history_record, List.countP_append]
  exact Nat.lt_succ_of_le hle

/-- The second registry lags behind the first by some messages. What happened to the first since
    `a` happened to the second since `b`, where messages may have been taken besides. -/
structure Lags (a b : List Happening) (ms : List Message) (r q : Registry β) : Prop where
  bus : q.bus = r.bus
  entries : q.entries = r.entries
  listed : q.listed = r.listed
  mailbox : q.mailbox = r.mailbox.behind ms
  news : ∃ hs, r.history.toList = a ++ hs ∧ q.doings = b ++ hs

namespace Lags

variable (h : Lags a b ms r q)

include h

theorem record (x : Happening) (hx : x.takes = false) :
    Lags a b ms (r.record x) (q.record x) where
  bus := h.bus
  entries := h.entries
  listed := h.listed
  mailbox := h.mailbox
  news := by
    obtain ⟨hs, hr, hq⟩ := h.news
    refine ⟨hs ++ [x], ?_, ?_⟩
    · rw [history_record, hr, List.append_assoc]
    · unfold doings at hq ⊢
      rw [history_record, List.filter_append, hq, List.append_assoc]
      simp [hx]

theorem records {δ : Type} (g : δ → Happening) (hg : ∀ x, (g x).takes = false) (xs : List δ) :
    Lags a b ms (xs.foldl (fun r x => r.record (g x)) r)
      (xs.foldl (fun r x => r.record (g x)) q) := by
  induction xs generalizing r q with
  | nil => exact h
  | cons x xs ih => exact ih (h.record (g x) (hg x))

theorem log (level : LogLevel) (message : String) :
    Lags a b ms (r.log level message) (q.log level message) :=
  h.record _ rfl

theorem satisfies (p : Entry β → Bool) : q.satisfies p = r.satisfies p := by
  funext i
  unfold Registry.satisfies
  rw [h.entries]

theorem places (p : Entry β → Bool) : q.places p = r.places p := by
  unfold Registry.places
  rw [h.listed, h.satisfies]

theorem nextHandle : q.nextHandle = r.nextHandle := by
  unfold Registry.nextHandle
  rw [h.entries]

theorem find? (n : Handle) : q.find? n = r.find? n := by
  unfold Registry.find?
  rw [h.listed, h.satisfies]

theorem update (i : Nat) (f : Entry β → Entry β) :
    Lags a b ms (r.update i f) (q.update i f) where
  bus := h.bus
  entries := by
    unfold Registry.update
    rw [h.entries]
  listed := h.listed
  mailbox := h.mailbox
  news := h.news

theorem flag (i : Nat) : Lags a b ms (r.flag i) (q.flag i) :=
  (h.update i _).record _ rfl

theorem unlist (p : Entry β → Bool) : Lags a b ms (r.unlist p) (q.unlist p) where
  bus := h.bus
  entries := h.entries
  listed := by
    unfold Registry.unlist
    rw [h.listed, h.satisfies]
  mailbox := h.mailbox
  news := h.news

/-- The same mailbox, but for the messages in front. -/
theorem withMailbox (m : Mailbox) :
    Lags a b ms { r with mailbox := m } { q with mailbox := m.behind ms } where
  bus := h.bus
  entries := h.entries
  listed := h.listed
  mailbox := rfl
  news := h.news

theorem wake : Lags a b ms r.wake q.wake := by
  unfold Registry.wake
  rw [h.mailbox, Mailbox.wake_behind]
  obtain ⟨reply, m⟩ := r.mailbox.wake
  cases reply with
  | ok u => exact h.withMailbox m
  | error why => exact (h.withMailbox m).log _ _

theorem deregister (n : Handle) : Lags a b ms (r.deregister n) (q.deregister n) := by
  unfold Registry.deregister
  rw [h.bus, h.find?]
  split
  · cases r.find? n with
    | none => exact h.log _ _
    | some i => exact ((h.flag i).log _ _).wake
  · exact h

theorem dismiss (i : Nat) (id : DeviceId) : Lags a b ms (r.dismiss i id) (q.dismiss i id) := by
  unfold Registry.dismiss
  rw [h.entries]
  cases r.entries[i]? with
  | none => exact h
  | some e =>
    simp only
    split
    · exact h
    · exact ((h.flag i).log _ _).wake

/-- Nothing listed. -/
theorem emptied : Lags a b ms { r with listed := #[] } { q with listed := #[] } where
  bus := h.bus
  entries := h.entries
  listed := rfl
  mailbox := h.mailbox
  news := h.news

/-- The same bus. -/
theorem withBus (bus : β) : Lags a b ms { r with bus } { q with bus } where
  bus := rfl
  entries := h.entries
  listed := h.listed
  mailbox := h.mailbox
  news := h.news

theorem deregisterAll : q.deregisterAll.1 = r.deregisterAll.1 ∧
    Lags a b ms r.deregisterAll.2 q.deregisterAll.2 := by
  have hcount : q.count = r.count := by
    unfold Registry.count
    rw [h.listed]
  have hall : Lags a b ms ({ r with listed := #[] }.record (.destroyed r.listed.toList))
      ({ q with listed := #[] }.record (.destroyed q.listed.toList)) := by
    rw [h.listed]
    exact h.emptied.record _ rfl
  unfold Registry.deregisterAll
  rw [hcount]
  refine ⟨rfl, ?_⟩
  simp only
  split
  · exact hall
  · exact hall.log _ _

theorem notify (d : Device) (c : Change) : (q.notify d c).1 = (r.notify d c).1 ∧
    Lags a b ms (r.notify d c).2 (q.notify d c).2 := by
  unfold Registry.notify
  rw [h.mailbox, Mailbox.post_behind]
  obtain ⟨reply, m⟩ := r.mailbox.post d c
  cases reply with
  | ok u => exact ⟨rfl, (h.withMailbox m).record _ rfl⟩
  | error why => exact ⟨rfl, h.withMailbox m⟩

theorem enumerate : q.enumerate.1 = r.enumerate.1 ∧
    Lags a b ms r.enumerate.2 q.enumerate.2 := by
  unfold Registry.enumerate
  rw [h.bus]
  exact ⟨rfl, (h.withBus _).records Happening.logged (fun _ => rfl) _⟩

theorem busCommand (c : Bus.Command β) : (q.perform (.bus c)).1 = (r.perform (.bus c)).1 ∧
    Lags a b ms (r.perform (.bus c)).2 (q.perform (.bus c)).2 := by
  have hnoted := (h.withBus (Bus.perform c r.bus).2).records
    (fun x : Device × Change => Happening.changed x.1 x.2) (fun _ => rfl) (Bus.changes c r.bus)
  unfold Registry.perform
  rw [h.bus]
  exact ⟨rfl, hnoted⟩

theorem isRegistered (n : Handle) : q.isRegistered n = r.isRegistered n := by
  unfold Registry.isRegistered
  rw [h.listed, h.satisfies]

theorem attached? (n : Handle) : q.attached? n = r.attached? n := by
  unfold Registry.attached?
  rw [h.find?, h.entries]

theorem enlist (g : Registration β) : Lags a b ms (r.enlist g) (q.enlist g) := by
  unfold Registry.enlist
  simp only [h.nextHandle]
  rw [h.entries, h.listed]
  have hpushed : Lags a b ms { r with entries := r.entries.push (r.newEntry g)
                                      listed := r.listed.push r.entries.size }
      { q with entries := r.entries.push (r.newEntry g)
               listed := r.listed.push r.entries.size } :=
    ⟨h.bus, rfl, rfl, h.mailbox, h.news⟩
  exact (hpushed.record _ rfl).log _ _

theorem rollBack (i : Nat) (n : Handle) (why : Failure) :
    Lags a b ms (r.rollBack i n why) (q.rollBack i n why) :=
  ((h.log _ _).flag i).unlist _

theorem beginReplay (i : Nat) (n : Handle) (ds : List Device) :
    Lags a b ms (r.beginReplay i n ds) (q.beginReplay i n ds) :=
  (h.record _ rfl).log _ _

/-- Every action has the same answer, and but for a teardown it leaves the distance as it is. -/
theorem perform (x : Action β) (hd : (r.perform x).2.discards = r.discards) :
    (q.perform x).1 = (r.perform x).1 ∧ Lags a b ms (r.perform x).2 (q.perform x).2 := by
  cases x with
  | deregister n => exact ⟨rfl, h.deregister n⟩
  | isRegistered n => exact ⟨h.isRegistered n, h⟩
  | attached n => exact ⟨h.attached? n, h⟩
  | count => exact ⟨congrArg Array.size h.listed, h⟩
  | deregisterAll => exact h.deregisterAll
  | teardown => exact absurd hd (Nat.ne_of_gt r.discards_teardown)
  | notify d c => exact h.notify d c
  | enumerate => exact h.enumerate
  | bus c => exact h.busCommand c
  | log e => exact ⟨rfl, h.record _ rfl⟩
  | print line => exact ⟨rfl, h.record _ rfl⟩

end Lags

/-! ## Blind walks -/

/-- Nothing depends on the messages, as long as none are dropped. -/
structure Blind (w : Walk β α) : Prop where
  news : ∀ r, r.history.toList <+: (left w r).history.toList
  lags : ∀ {a b ms r q}, Lags a b ms r q → (left w r).discards = r.discards →
    answer? w q = answer? w r ∧ Lags a b ms (left w r) (left w q)

namespace Blind

variable {w : Walk β α} {f : α → Walk β γ}

theorem pure (x : α) : Blind (β := β) (Pure.pure x : Walk β α) where
  news _ := List.prefix_rfl
  lags h _ := ⟨rfl, h⟩

theorem throw (p : Panic) : Blind (β := β) (MonadExcept.throw p : Walk β α) where
  news _ := List.prefix_rfl
  lags h _ := ⟨rfl, h⟩

theorem bind (hw : Blind w) (hf : ∀ x, Blind (f x)) : Blind (w >>= f) where
  news r := by
    cases hx : answer? w r with
    | none =>
      rw [(bind_of_none hx).1]
      exact hw.news r
    | some x =>
      rw [left_bind_of_some hx]
      exact (hw.news r).trans ((hf x).news _)
  lags {a b ms r q} h hd := by
    cases hx : answer? w r with
    | none =>
      rw [(bind_of_none hx).1] at hd
      obtain ⟨hreply, hleft⟩ := hw.lags h hd
      rw [hx] at hreply
      rw [(bind_of_none hx).1, (bind_of_none hx).2, (bind_of_none hreply).1,
        (bind_of_none hreply).2]
      exact ⟨rfl, hleft⟩
    | some x =>
      rw [left_bind_of_some hx] at hd
      -- Neither part drops messages, since together they drop none.
      have hfirst : (left w r).discards = r.discards :=
        Nat.le_antisymm (hd ▸ discards_le ((hf x).news _)) (discards_le (hw.news r))
      obtain ⟨hreply, hleft⟩ := hw.lags h hfirst
      rw [hx] at hreply
      rw [left_bind_of_some hx, answer?_bind_of_some hx, left_bind_of_some hreply,
        answer?_bind_of_some hreply]
      exact (hf x).lags hleft (hd.trans hfirst.symm)

/-- A look at the registry, if what is looked at is neither the messages nor the history. -/
theorem get {f : Registry β → Walk β γ}
    (hf : ∀ {a b ms r q}, Lags a b ms r q → f q = f r) (hblind : ∀ r, Blind (f r)) :
    Blind (MonadState.get >>= f) where
  news r := (hblind r).news r
  lags {a b ms r q} h hd := by
    show answer? (f q) q = answer? (f r) r ∧ Lags a b ms (left (f r) r) (left (f q) q)
    rw [hf h]
    exact (hblind r).lags h hd

theorem modifyGet {f : Registry β → α × Registry β}
    (hnews : ∀ r, r.history.toList <+: (f r).2.history.toList)
    (hf : ∀ {a b ms r q}, Lags a b ms r q → (f r).2.discards = r.discards →
      (f q).1 = (f r).1 ∧ Lags a b ms (f r).2 (f q).2) :
    Blind (MonadStateOf.modifyGet f : Walk β α) where
  news := hnews
  lags h hd := by
    obtain ⟨hreply, hlags⟩ := hf h hd
    exact ⟨congrArg some hreply, hlags⟩

theorem modify {f : Registry β → Registry β}
    (hnews : ∀ r, r.history.toList <+: (f r).history.toList)
    (hf : ∀ {a b ms r q}, Lags a b ms r q → Lags a b ms (f r) (f q)) :
    Blind (modify f : Walk β PUnit) where
  news := hnews
  lags h _ := ⟨rfl, hf h⟩

theorem discard (hw : Blind w) : Blind (Functor.discard w) :=
  hw.bind fun _ => .pure _

end Blind

/-! ## Delivery -/

theorem call_blind {body : Walk β Verdict} (hbody : Blind body) (i : Nat) (c : Change)
    (d : Device) : Blind (call i c d body) := by
  unfold call
  have henter : Blind (β := β) (modify fun r => r.enter i c d) :=
    .modify (fun r => prefix_record (r.update i _) _) fun h => (h.update i _).record _ rfl
  refine henter.bind fun _ => hbody.bind fun verdict => Blind.bind ?_ fun _ => .pure verdict
  exact .modify (fun r => prefix_record r _) fun h => h.record _ rfl

section Offers

variable {f : Nat → Device → Walk β Verdict} (hf : ∀ k d, Blind (f k d))

include hf

theorem offerArrival_blind (i : Nat) (d : Device) : Blind (offerArrival i f d) := by
  unfold offerArrival
  refine .get (fun h => by rw [h.entries]) fun r => ?_
  cases r.entries[i]? with
  | none => exact .pure _
  | some e =>
    simp only
    split
    · exact .pure _
    · have hkeep : Blind (do
          modify (fun r : Registry β => r.update i (·.attach d))
          return Offer.attached) :=
        Blind.bind (.modify (fun r => List.prefix_rfl) fun h => h.update i _) fun _ => .pure _
      have hdrop : Blind (do
          modify (fun r : Registry β => r.dismiss i d.id)
          return Offer.dropped) := by
        refine Blind.bind (.modify (fun r => ?_) fun h => h.dismiss i d.id) fun _ => .pure _
        obtain ⟨hs, hh, -⟩ := r.history_dismiss i d.id
        exact ⟨hs, hh.symm⟩
      split
      · refine (call_blind (hf _ _) i .arrived d).bind fun verdict => ?_
        cases verdict with
        | keep => exact hkeep
        | deregister => exact hdrop
      · exact hkeep

theorem offerLeft_blind (i : Nat) (id : DeviceId) : Blind (offerLeft i f id) := by
  unfold offerLeft
  refine .get (fun h => by rw [h.entries]) fun r => ?_
  cases r.entries[i]? with
  | none => exact .pure _
  | some e =>
    simp only
    split
    · exact .pure _
    · cases e.recorded? id with
      | none => exact .pure _
      | some d =>
        have hdetach : Blind (β := β) (modify (·.update i (·.detach id))) :=
          .modify (fun r => List.prefix_rfl) fun h => h.update i _
        refine hdetach.bind fun _ => ?_
        split
        · exact (call_blind (hf _ _) i .left d).discard.bind fun _ => .pure _
        · exact .pure _

theorem replay_blind (i : Nat) (ds : List Device) : Blind (replay i f ds) := by
  induction ds with
  | nil => exact .pure _
  | cons d ds ih =>
    unfold replay
    refine (offerArrival_blind hf i d).bind fun reply => ?_
    cases reply with
    | dropped => exact .pure _
    | ignored => exact ih
    | attached => exact ih

theorem registerWith_blind (g : Registration β) : Blind (registerWith g f) := by
  unfold registerWith
  refine .get (fun h => by simp only [h.bus, h.entries, h.nextHandle]) fun r => ?_
  split
  · exact .pure _
  · cases g.check with
    | error fault => exact .pure _
    | ok u =>
      simp only
      have henlist : Blind (β := β) (modify (·.enlist g)) := by
        refine .modify (fun r => ?_) fun h => h.enlist g
        obtain ⟨l, hh⟩ := r.history_enlist g
        exact ⟨_, hh.symm⟩
      refine henlist.bind fun _ => ?_
      split
      · exact .pure _
      · have hlist : Blind (β := β) (modifyGet (·.enumerate)) := by
          refine .modifyGet (fun r => ?_) fun h _ => h.enumerate
          exact (Move.enumerate (p := fun _ => True) r).news
        refine hlist.bind fun devices => ?_
        cases devices with
        | error why =>
          refine Blind.bind ?_ fun _ => .pure _
          refine .modify (fun s => ?_) fun h => h.rollBack _ _ why
          obtain ⟨l, hh⟩ := s.history_rollBack r.entries.size r.nextHandle why
          exact ⟨_, hh.symm⟩
        | ok ds =>
          refine Blind.bind ?_ fun _ => (replay_blind hf _ ds).bind fun _ => .pure _
          refine .modify (fun s => ?_) fun h => h.beginReplay _ _ ds
          obtain ⟨l, hh⟩ := s.history_beginReplay r.entries.size r.nextHandle ds
          exact ⟨_, hh.symm⟩

end Offers

theorem run_blind (s : Script β) : Blind (run s) := by
  induction s with
  | finish v => exact .pure v
  | panic => exact .throw .unwound
  | act x next ih =>
    refine Blind.bind ?_ fun reply => ih reply
    exact .modifyGet (fun r => (Move.perform (p := fun _ => True) r x).news) fun h => h.perform x
  | register filter provided onArrived onLeft next order ihA _ ihN =>
    exact (registerWith_blind ihA _).bind fun reply => ihN reply

theorem offer_blind (d : Device) (c : Change) (i : Nat) : Blind (β := β) (offer d c i) := by
  unfold offer
  refine .get (fun h => by rw [h.entries]) fun r => ?_
  cases r.entries[i]? with
  | none => exact .pure _
  | some e =>
    cases c with
    | arrived =>
      have harrival := offerArrival_blind (fun k d => run_blind (e.onArrived k d)) i d
      exact harrival.bind fun _ => .pure _
    | left => exact offerLeft_blind (fun k d => run_blind (e.onLeft k d)) i d.id

theorem offerAll_blind (d : Device) (c : Change) (is : List Nat) :
    Blind (β := β) (offerAll d c is) := by
  induction is with
  | nil => exact .pure _
  | cons i is ih => exact (offer_blind d c i).bind fun _ => ih.bind fun _ => .pure _

theorem log_blind (level : LogLevel) (message : String) :
    Blind (β := β) (modify (·.log level message)) :=
  .modify (fun r => prefix_record r _) fun h => h.log level message

theorem dispatch_blind (d : Device) (c : Change) : Blind (β := β) (dispatch d c) := by
  unfold dispatch
  have hnote : Blind (β := β) (modify (·.record (.dispatched d c))) :=
    .modify (fun r => prefix_record r _) fun h => h.record _ rfl
  refine hnote.bind fun _ => .get (fun h => by rw [h.places]) fun r => ?_
  exact (offerAll_blind d c _).bind fun n => (log_blind _ _).bind fun _ => .pure n

theorem release_blind (i : Nat) (e : Entry β) (ds : List Device) : Blind (release i e ds) := by
  induction ds with
  | nil => exact .pure _
  | cons d ds ih =>
    unfold release
    refine .get (fun h => by rw [h.entries]) fun r => ?_
    exact (call_blind (run_blind _) i .left d).discard.bind fun _ => ih

theorem reclaim_blind (i : Nat) : Blind (β := β) (reclaim i) := by
  unfold reclaim
  refine .get (fun h => by rw [h.entries]) fun r => ?_
  cases r.entries[i]? with
  | none => exact .pure _
  | some e =>
    have hclear : Blind (β := β) (modify (·.update i ({ · with attached := [] }))) :=
      .modify (fun r => List.prefix_rfl) fun h => h.update i _
    refine hclear.bind fun _ => ?_
    split
    · exact (release_blind i e _).bind fun _ => log_blind _ _
    · exact log_blind _ _

theorem reclaimAll_blind (is : List Nat) : Blind (β := β) (reclaimAll is) := by
  induction is with
  | nil => exact .pure _
  | cons i is ih => exact (reclaim_blind i).bind fun _ => ih

theorem sweep_blind : Blind (β := β) sweep := by
  unfold sweep
  refine .get (fun h => by rw [h.places]) fun r => ?_
  refine Blind.bind (.modify (fun s => ?_) fun h => ?_) fun _ =>
    (reclaimAll_blind (r.places (·.flagged))).bind fun _ => .pure _
  · exact prefix_records Happening.reclaimed _ (s.unlist _)
  · exact (h.unlist _).records Happening.reclaimed (fun _ => rfl) _

/-! ## The mailbox -/

/-- The operations that dispatch changes one by one. -/
def dispatches (cs : List (Device × Change)) : List (Operation β) :=
  cs.map fun x => .dispatch x.1 x.2

/-- The operations that queue changes. -/
def notifies (cs : List (Device × Change)) : List (Operation β) :=
  cs.map fun x => .act (.notify x.1 x.2)

/-- The messages that carry changes. -/
def queued (cs : List (Device × Change)) : List Message :=
  cs.map fun x => .change x.1 x.2

/-- What is queued stands at the end of the mailbox. -/
theorem afterAll_notifies (cs : List (Device × Change)) (hopen : r.mailbox.closed = false) :
    r.afterAll (notifies cs) = { r with
      mailbox := { r.mailbox with messages := r.mailbox.messages ++ queued cs }
      history := r.history ++ cs.map fun x => Happening.notified x.1 x.2 } := by
  induction cs generalizing r with
  | nil => simp [notifies, queued, afterAll]
  | cons x cs ih =>
    have hfirst : r.after (.act (.notify x.1 x.2)) = { r with
        mailbox := { r.mailbox with messages := r.mailbox.messages ++ [.change x.1 x.2] }
        history := r.history.push (.notified x.1 x.2) } := by
      rcases r.notify_cases x.1 x.2 with ⟨-, hr⟩ | ⟨hclosed, -⟩
      · exact hr
      · rw [hopen] at hclosed
        cases hclosed
    show (r.after (.act (.notify x.1 x.2))).afterAll (notifies cs) = _
    rw [hfirst]
    refine Eq.trans (ih ?_) ?_
    · exact hopen
    · simp [queued]

/-- Changes that were queued in an empty mailbox are what a registry lags behind by. -/
theorem lags_notifies (cs : List (Device × Change)) (hopen : r.mailbox.closed = false)
    (hempty : r.mailbox.messages = []) :
    Lags r.history.toList (r.afterAll (notifies cs)).doings (queued cs) r
      (r.afterAll (notifies cs)) := by
  rw [afterAll_notifies cs hopen]
  refine ⟨rfl, rfl, rfl, ?_, [], by simp, by simp⟩
  simp [Mailbox.behind, hempty]

/-- Whoever takes the change in front catches up by it. -/
theorem Lags.take {d : Device} {c : Change} (h : Lags a b (.change d c :: ms) r q) :
    answer? take? q = some (some (.change d c)) ∧ Lags a b ms r (left take? q) := by
  have htake : q.mailbox.take? = some (.change d c, r.mailbox.behind ms) := by
    rw [h.mailbox]
    rfl
  have hends : take?.Ends
      (fun o q' => o = some (some (.change d c)) ∧ Lags a b ms r q') q := by
    unfold take?
    rw [Walk.ends_modifyGet, htake]
    refine ⟨rfl, h.bus, h.entries, h.listed, rfl, ?_⟩
    obtain ⟨hs, hr, hq⟩ := h.news
    refine ⟨hs, hr, ?_⟩
    -- That it was taken does not count.
    rw [← hq]
    unfold doings
    rw [history_record, List.filter_append]
    exact List.append_nil _
  exact ends_iff_answer?.mp hends

/-- Acting on the changes that a registry lags behind by is dispatching them. -/
theorem processUpTo_dispatches (cs : List (Device × Change)) (h : Lags a b (queued cs) r q)
    (hcalm : r.calm (dispatches cs) = true)
    (hd : (r.afterAll (dispatches cs)).discards = r.discards) :
    answer? (processUpTo cs.length) q = some cs.length ∧
      Lags a b [] (r.afterAll (dispatches cs)) (left (processUpTo cs.length) q) := by
  induction cs generalizing r q with
  | nil => exact ⟨rfl, h⟩
  | cons x cs ih =>
    obtain ⟨htake, h⟩ := h.take
    have hcalm : completes (Operation.dispatch x.1 x.2).walk r = true ∧
        (r.after (.dispatch x.1 x.2)).calm (dispatches cs) = true := by
      simpa [dispatches, calm] using hcalm
    have hd : ((r.after (.dispatch x.1 x.2)).afterAll (dispatches cs)).discards = r.discards := hd
    have hfirst : (r.after (.dispatch x.1 x.2)).discards = r.discards := by
      apply Nat.le_antisymm
      · rw [← hd]
        exact discards_le (afterAll_steps _ (dispatches cs)).news
      · exact discards_le (afterAll_steps r [.dispatch x.1 x.2]).news
    -- Acting on the change is the same walk as dispatching it.
    obtain ⟨hreply, hleft⟩ : answer? (process (.change x.1 x.2)) (left take? q) =
          answer? (Operation.dispatch x.1 x.2).walk r ∧
        Lags a b (queued cs) (r.after (.dispatch x.1 x.2))
          (left (process (.change x.1 x.2)) (left take? q)) :=
      (dispatch_blind x.1 x.2).discard.lags h hfirst
    rw [completes_eq, Option.isSome_iff_exists, ← hreply] at hcalm
    obtain ⟨⟨u, hprocess⟩, hcalm⟩ := hcalm
    obtain ⟨hcount, hlags⟩ := ih hleft hcalm (hd.trans hfirst.symm)
    rw [List.length_cons, processUpTo, left_bind_of_some htake, answer?_bind_of_some htake]
    simp only
    rw [left_bind_of_some hprocess, answer?_bind_of_some hprocess, left_bind_of_some hcount,
      answer?_bind_of_some hcount]
    exact ⟨rfl, hlags⟩

theorem calm_append (os os' : List (Operation β)) :
    r.calm (os ++ os') = (r.calm os && (r.afterAll os).calm os') := by
  induction os generalizing r with
  | nil => rfl
  | cons o os ih =>
    show (completes o.walk r && (r.after o).calm (os ++ os')) = _
    rw [ih, ← Bool.and_assoc]
    rfl

/-- Handling what a registry lags behind by is dispatching it and then sweeping. -/
theorem handlePending_dispatches (cs : List (Device × Change)) (h : Lags a b (queued cs) r q)
    (hempty : r.mailbox.messages = []) (hcalm : r.calm (dispatches cs ++ [.sweep]) = true)
    (hd : (r.afterAll (dispatches cs ++ [.sweep])).discards = r.discards) :
    answer? handlePending q = some cs.length ∧
      Lags a b [] (r.afterAll (dispatches cs ++ [.sweep])) (left handlePending q) := by
  have hsize : q.mailbox.size = cs.length := by
    rw [h.mailbox]
    simp [Mailbox.size, Mailbox.behind, hempty, queued]
  have hswept : r.afterAll (dispatches cs ++ [.sweep]) =
      (r.afterAll (dispatches cs)).after .sweep := List.foldl_append ..
  rw [hswept] at hd ⊢
  rw [calm_append, Bool.and_eq_true] at hcalm
  obtain ⟨hcalm, hsweep⟩ := hcalm
  have hfirst : (r.afterAll (dispatches cs)).discards = r.discards := by
    apply Nat.le_antisymm
    · rw [← hd]
      exact discards_le (afterAll_steps _ [.sweep]).news
    · exact discards_le (afterAll_steps r (dispatches cs)).news
  obtain ⟨hcount, hlags⟩ := processUpTo_dispatches cs h hcalm hfirst
  obtain ⟨hreply, hleft⟩ : answer? (discard sweep) (left (processUpTo cs.length) q) =
        answer? Operation.sweep.walk (r.afterAll (dispatches cs)) ∧
      Lags a b [] ((r.afterAll (dispatches cs)).after .sweep)
        (left (discard sweep) (left (processUpTo cs.length) q)) :=
    sweep_blind.discard.lags hlags (hd.trans hfirst.symm)
  have hsweep : completes Operation.sweep.walk (r.afterAll (dispatches cs)) = true := by
    simpa [calm] using hsweep
  rw [completes_eq, Option.isSome_iff_exists, ← hreply] at hsweep
  obtain ⟨u, hsweep⟩ := hsweep
  unfold handlePending
  let w : Walk β Nat := processUpTo q.mailbox.size >>= fun n => discard sweep >>= fun _ => pure n
  show answer? w q = _ ∧ Lags a b [] _ (left w q)
  unfold w
  rw [hsize, left_bind_of_some hcount, answer?_bind_of_some hcount, left_bind_of_some hsweep,
    answer?_bind_of_some hsweep]
  exact ⟨rfl, hleft⟩

/-! ## Sessions -/

/-- Two ways on from a registry have led to the same, but for changes that were queued in the second
    and then taken one by one. -/
structure Concurs (cs : List (Device × Change)) (r s t : Registry β) : Prop where
  bus : t.bus = s.bus
  entries : t.entries = s.entries
  listed : t.listed = s.listed
  nextHandle : t.nextHandle = s.nextHandle
  mailbox : t.mailbox = s.mailbox
  /-- The same callbacks were called and answered in the same order, and whatever they printed or
      logged of what they were answered is the same. -/
  news : ∃ hs hs', s.history.toList = r.history.toList ++ hs ∧
    t.history.toList = r.history.toList ++ cs.map (fun x => .notified x.1 x.2) ++ hs' ∧
    hs'.filter (!·.takes) = hs

/-- What is reached is reached by a session. -/
theorem Reachable.session (h : r.Reachable) : ∃ (bus : β) (os : List (Operation β)),
    r = Registry.afterAll { bus } os := by
  induction h with
  | fresh bus => exact ⟨bus, [], rfl⟩
  | after o _ ih =>
    obtain ⟨bus, os, rfl⟩ := ih
    exact ⟨bus, os ++ [o], by simp [Registry.afterAll]⟩

/-- Changes that are queued in an empty mailbox and then handled together come to the same as
    changes dispatched one by one and then a sweep, if in the latter no callback panics or tears the
    registry down. The answer of the handling is how many they are. -/
theorem handlePending_concurs (hr : r.Reachable) (cs : List (Device × Change))
    (hempty : r.mailbox.messages = []) (hcalm : r.calm (dispatches cs ++ [.sweep]) = true)
    (hkept : (r.afterAll (dispatches cs ++ [.sweep])).discards = r.discards) :
    answer? handlePending (r.afterAll (notifies cs)) = some cs.length ∧
      Concurs cs r (r.afterAll (dispatches cs ++ [.sweep]))
        ((r.afterAll (notifies cs)).after .handlePending) := by
  have hopen : r.mailbox.closed = false := by
    obtain ⟨bus, os, rfl⟩ := hr.session
    exact (afterAll_wakeful bus os).kept.opened
  have hlags := lags_notifies cs hopen hempty
  obtain ⟨hcount, hend⟩ := handlePending_dispatches cs hlags hempty hcalm hkept
  have hafter : (r.afterAll (notifies cs)).after .handlePending =
      left handlePending (r.afterAll (notifies cs)) := Walk.left_discard handlePending _
  refine ⟨hcount, ?_⟩
  rw [hafter]
  refine ⟨hend.bus, hend.entries, hend.listed, hend.nextHandle, hend.mailbox, ?_⟩
  obtain ⟨hs, hfirst, hsecond⟩ := hend.news
  obtain ⟨hs', ws, hflow, -, -⟩ := handlePending_takes (r.afterAll (notifies cs))
  refine ⟨hs, hs', hfirst, ?_, ?_⟩
  · rw [hflow.news, afterAll_notifies cs hopen]
    simp
  · -- What was done before the handling is the same on both sides of the equation.
    unfold doings at hsecond
    rw [hflow.news, List.filter_append] at hsecond
    exact List.append_cancel_left hsecond

/-- A registration that, when it is told of a device, makes another one with a replay, announces a
    device, prints how many are registered and deregisters its own. -/
def bustle : List (Operation MemoryBus) :=
  let g : Registration MemoryBus :=
    { Registration.listener {} with
      onArrived _ _ :=
        .register { enumerate := true } .both (fun _ _ => .finish .keep) (fun _ _ => .finish .keep)
          fun _ => .act (.bus (.plug (MemoryBus.sample 3))) fun _ =>
            .act (.notify (MemoryBus.sample 3) .arrived) fun _ =>
              .act .count fun (n : Nat) => .act (.print (toString n)) fun _ =>
                .act (.deregister ⟨1⟩) fun _ => .finish .keep }
  [.act (.bus (.plug (MemoryBus.sample 1))), .register g]

theorem handlePending_concurs_bustle :
    ∃ (r : Registry MemoryBus) (cs : List (Device × Change)),
      r.Reachable ∧ r.mailbox.messages = [] ∧ r.calm (dispatches cs ++ [.sweep]) = true ∧
        (r.afterAll (dispatches cs ++ [.sweep])).discards = r.discards ∧
        (r.afterAll (dispatches cs ++ [.sweep])).mailbox.messages =
          [.change (MemoryBus.sample 3) .arrived, .wakeup] ∧
        answer? handlePending (r.afterAll (notifies cs)) = some cs.length ∧
          Concurs cs r (r.afterAll (dispatches cs ++ [.sweep]))
            ((r.afterAll (notifies cs)).after .handlePending) := by
  refine ⟨afterAll { bus := {} } bustle, [(MemoryBus.sample 1, .arrived),
    (MemoryBus.sample 2, .arrived), (MemoryBus.sample 1, .left)], ?_⟩
  have hr := Reachable.afterAll (.fresh {}) bustle
  refine ⟨hr, by decide +kernel, by decide +kernel, by decide +kernel, by decide +kernel, ?_⟩
  exact handlePending_concurs hr _ (by decide +kernel) (by decide +kernel) (by decide +kernel)

end Registry

end PlugWatch
